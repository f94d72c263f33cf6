import FaultLane.CrashIngest
import FaultLane.Fallible
import FaultLane.FixedParts

set_option autoImplicit false

/-!
# Storing a request body

`store_request`: the body arrives in chunks of any size, is spooled as it arrives and is put
together into the parts of a multipart upload.
-/
namespace FaultLane.BodyUpload
open Fallible CrashIngest FixedParts

abbrev Bytes := List UInt8

def maxCompressedBytes : Nat := 64 * 1024 * 1024

def multipartChunkBytes : Nat := 8 * 1024 * 1024

/-- What the file system, the object store and the clock answer to each call. -/
structure Environment where
  opensSpool : Bool
  beginsUpload : Bool
  /-- The wait for the chunk of this number ends before the deadline. -/
  inTime : Nat → Bool
  writesSpool : Nat → Bool
  putsPart : Nat → Bool
  syncsSpool : Bool
  completes : Bool

structure Environment.Works (env : Environment) : Prop where
  opensSpool : env.opensSpool = true
  beginsUpload : env.beginsUpload = true
  inTime : ∀ index, env.inTime index = true
  writesSpool : ∀ index, env.writesSpool index = true
  putsPart : ∀ index, env.putsPart index = true
  syncsSpool : env.syncsSpool = true
  completes : env.completes = true

inductive UploadState where
  | absent
  | «open»
  | aborted
  | completed
  deriving DecidableEq, Repr

/-- The spool file and the multipart upload. -/
structure World where
  spool : Bytes
  parts : List Bytes
  upload : UploadState
  deriving DecidableEq, Repr

structure StoredRequest where
  checksum : Bytes
  byteSize : Nat
  deriving DecidableEq, Repr

/-- A part that is not full yet. -/
structure Part where
  bytes : Bytes
  short : bytes.length < multipartChunkBytes

def Part.empty : Part := ⟨[], by decide⟩

/-- How much of the rest still fits. -/
def Part.count (part : Part) (remaining : Bytes) : Nat :=
  min (multipartChunkBytes - part.bytes.length) remaining.length

theorem Part.count_pos (part : Part) {remaining : Bytes} (h : remaining ≠ []) :
    0 < part.count remaining :=
  Nat.lt_min.mpr ⟨Nat.sub_pos_of_lt part.short, List.length_pos_iff.mpr h⟩

theorem Part.length_drop_lt (part : Part) {remaining : Bytes} (h : remaining ≠ []) :
    (remaining.drop (part.count remaining)).length < remaining.length := by
  have hcount := part.count_pos h
  have hpos := List.length_pos_iff.mpr h
  rw [List.length_drop]
  omega

theorem Part.length_filled_le (part : Part) (remaining : Bytes) :
    (part.bytes ++ remaining.take (part.count remaining)).length ≤ multipartChunkBytes := by
  have hcount : part.count remaining ≤ multipartChunkBytes - part.bytes.length :=
    Nat.min_le_left _ _
  have htaken := List.length_take_le (part.count remaining) remaining
  have hshort := part.short
  rw [List.length_append]
  omega

structure Progress where
  world : World
  /-- What the digest has been fed. -/
  hashed : Bytes
  byteSize : Nat
  part : Part

abbrev Attempt (α : Type) := Except (IngestError × World) α

def abort {α : Type} (world : World) (error : IngestError) : Attempt α :=
  .error (error, { world with upload := .aborted })

section
variable (env : Environment)

def putPart (payload : Bytes) (s : Progress) : Attempt Progress :=
  if env.putsPart s.world.parts.length then
    .ok { s with world := { s.world with parts := s.world.parts ++ [payload] } }
  else abort s.world .unavailable

/-- The loop over what remains of a chunk. -/
def fillParts (s : Progress) (remaining : Bytes) : Attempt Progress :=
  if _ : remaining = [] then .ok s
  else
    let bytes := s.part.bytes ++ remaining.take (s.part.count remaining)
    let rest := remaining.drop (s.part.count remaining)
    if hfull : bytes.length = multipartChunkBytes then do
      let s ← putPart env bytes { s with part := .empty }
      fillParts s rest
    else
      have hshort : bytes.length < multipartChunkBytes :=
        Nat.lt_of_le_of_ne (s.part.length_filled_le remaining) hfull
      fillParts { s with part := ⟨bytes, hshort⟩ } rest
termination_by remaining.length
decreasing_by all_goals exact Part.length_drop_lt _ ‹_›

/-- One turn of the loop over the body; `none` is a body that cannot be read on. -/
def receiveChunk (index : Nat) (next : Option Bytes) (s : Progress) : Attempt Progress := do
  if !env.inTime index then abort s.world .unavailable
  else match next with
    | none => abort s.world .invalidRequest
    | some chunk =>
      if 2 ^ 64 ≤ s.byteSize + chunk.length then abort s.world .requestTooLarge
      else if maxCompressedBytes < s.byteSize + chunk.length then
        abort s.world .requestTooLarge
      else if !env.writesSpool index then abort s.world .unavailable
      else
        fillParts env { s with
          world := { s.world with spool := s.world.spool ++ chunk }
          hashed := s.hashed ++ chunk
          byteSize := s.byteSize + chunk.length } chunk

def receiveBody (index : Nat) : List (Option Bytes) → Progress → Attempt Progress
  | [], s => if env.inTime index then .ok s else abort s.world .unavailable
  | next :: body, s => do
    let s ← receiveChunk env index next s
    receiveBody (index + 1) body s

variable (sha256 : Bytes → Bytes)

def finishUpload (s : Progress) : Attempt (StoredRequest × World) := do
  if s.byteSize = 0 then abort s.world .invalidRequest
  else if !env.syncsSpool then abort s.world .unavailable
  else
    let s ← if s.part.bytes = [] then .ok s else putPart env s.part.bytes s
    if env.completes then
      .ok (⟨sha256 s.hashed, s.byteSize⟩, { s.world with upload := .completed })
    else abort s.world .unavailable

/-- The answer and what is left in the file system and the object store. -/
def storeRequest (body : List (Option Bytes)) : Except IngestError StoredRequest × World :=
  let attempt : Attempt (StoredRequest × World) := do
    if !env.opensSpool then .error (.unavailable, ⟨[], [], .absent⟩)
    else if !env.beginsUpload then .error (.unavailable, ⟨[], [], .absent⟩)
    else
      let s ← receiveBody env 0 body ⟨⟨[], [], .«open»⟩, [], 0, .empty⟩
      finishUpload env sha256 s
  match attempt with
  | .ok (stored, world) => (.ok stored, world)
  | .error (error, world) => (.error error, world)

end

/-! ## A chunk goes into the parts -/

section
variable {env : Environment} {sha256 : Bytes → Bytes}

theorem putPart_works (h : env.Works) (payload : Bytes) (s : Progress) :
    putPart env payload s =
      .ok { s with world := { s.world with parts := s.world.parts ++ [payload] } } :=
  if_pos (h.putsPart _)

/-- What the loop over a chunk leaves alone, and how the parts grow. -/
structure Fills (s s' : Progress) (piece : Bytes) : Prop where
  spool : s'.world.spool = s.world.spool
  upload : s'.world.upload = s.world.upload
  hashed : s'.hashed = s.hashed
  byteSize : s'.byteSize = s.byteSize
  filled : ∀ received, Filled multipartChunkBytes received s.world.parts s.part.bytes →
    Filled multipartChunkBytes (received ++ piece) s'.world.parts s'.part.bytes

theorem fillParts_works (h : env.Works) (s : Progress) (remaining : Bytes) :
    ∃ s', fillParts env s remaining = .ok s' ∧ Fills s s' remaining := by
  induction hlen : remaining.length using Nat.strong_induction_on generalizing s remaining with
  | h n ih =>
    unfold fillParts
    split_ifs with hrest
    · refine ⟨s, rfl, rfl, rfl, rfl, rfl, fun received hfilled => ?_⟩
      rw [hrest, List.append_nil]
      exact hfilled
    · have hsmaller : (remaining.drop (s.part.count remaining)).length < n := by
        rw [← hlen]
        exact s.part.length_drop_lt hrest
      have hsplit : ∀ received : Bytes, received ++ remaining.take (s.part.count remaining) ++
          remaining.drop (s.part.count remaining) = received ++ remaining := by
        intro received
        rw [List.append_assoc, List.take_append_drop]
      dsimp only
      split_ifs with hfull
      · rw [putPart_works h, ok_bind]
        obtain ⟨s', hs', hfills⟩ := ih _ hsmaller { s with
          world := { s.world with parts := s.world.parts ++
            [s.part.bytes ++ remaining.take (s.part.count remaining)] }
          part := .empty } _ rfl
        refine ⟨s', hs', hfills.spool, hfills.upload, hfills.hashed, hfills.byteSize, ?_⟩
        intro received hfilled
        rw [← hsplit received]
        exact hfills.filled _ (hfilled.complete hfull)
      · have hshort := Nat.lt_of_le_of_ne (s.part.length_filled_le remaining) hfull
        obtain ⟨s', hs', hfills⟩ := ih _ hsmaller { s with
          part := ⟨s.part.bytes ++ remaining.take (s.part.count remaining), hshort⟩ } _ rfl
        refine ⟨s', hs', hfills.spool, hfills.upload, hfills.hashed, hfills.byteSize, ?_⟩
        intro received hfilled
        rw [← hsplit received]
        exact hfills.filled _ (hfilled.extend hshort)

/-! ## The body so far -/

/-- Spool, digest, size and parts hold the bytes received so far. -/
structure Received (s : Progress) (body : Bytes) : Prop where
  spool : s.world.spool = body
  upload : s.world.upload = .«open»
  hashed : s.hashed = body
  byteSize : s.byteSize = body.length
  filled : Filled multipartChunkBytes body s.world.parts s.part.bytes

theorem Received.start : Received ⟨⟨[], [], .«open»⟩, [], 0, .empty⟩ [] :=
  ⟨rfl, rfl, rfl, rfl, .start (by decide)⟩

variable {s : Progress} {seen : Bytes}

theorem receiveChunk_fits (h : env.Works) (hs : Received s seen) (index : Nat) {chunk : Bytes}
    (hsize : seen.length + chunk.length ≤ maxCompressedBytes) :
    ∃ s', receiveChunk env index (some chunk) s = .ok s' ∧ Received s' (seen ++ chunk) := by
  have hword : ¬ 2 ^ 64 ≤ s.byteSize + chunk.length := by
    have hlimit : maxCompressedBytes < 2 ^ 64 := by decide
    rw [hs.byteSize]
    omega
  have hlimit : ¬ maxCompressedBytes < s.byteSize + chunk.length := by
    rw [hs.byteSize]
    omega
  unfold receiveChunk
  simp only [h.inTime, h.writesSpool, Bool.not_true, Bool.false_eq_true, if_false, if_neg hword,
    if_neg hlimit]
  obtain ⟨s', hs', hfills⟩ := fillParts_works h { s with
    world := { s.world with spool := s.world.spool ++ chunk }
    hashed := s.hashed ++ chunk
    byteSize := s.byteSize + chunk.length } chunk
  refine ⟨s', hs', ?_, ?_, ?_, ?_, hfills.filled _ hs.filled⟩
  · rw [hfills.spool, hs.spool]
  · rw [hfills.upload, hs.upload]
  · rw [hfills.hashed, hs.hashed]
  · rw [hfills.byteSize, hs.byteSize, List.length_append]

theorem receiveChunk_exceeds (h : env.Works) (hs : Received s seen) (index : Nat) {chunk : Bytes}
    (hsize : maxCompressedBytes < seen.length + chunk.length) :
    receiveChunk env index (some chunk) s = abort s.world .requestTooLarge := by
  unfold receiveChunk
  simp only [h.inTime, hs.byteSize, Bool.not_true, Bool.false_eq_true, if_false, if_pos hsize,
    ite_self]

/-- The body is received as a whole while it fits, and refused at the chunk that exceeds. -/
theorem receiveBody_works (h : env.Works) (hs : Received s seen) (index : Nat)
    (chunks : List Bytes) (hseen : seen.length ≤ maxCompressedBytes) :
    (seen.length + chunks.flatten.length ≤ maxCompressedBytes →
      ∃ s', receiveBody env index (chunks.map some) s = .ok s' ∧
        Received s' (seen ++ chunks.flatten)) ∧
    (maxCompressedBytes < seen.length + chunks.flatten.length →
      ∃ world, receiveBody env index (chunks.map some) s = abort world .requestTooLarge) := by
  induction chunks generalizing s seen index with
  | nil =>
    constructor
    · intro _
      refine ⟨s, if_pos (h.inTime _), ?_⟩
      rw [List.flatten_nil, List.append_nil]
      exact hs
    · intro hsize
      rw [List.flatten_nil, List.length_nil] at hsize
      omega
  | cons chunk chunks ih =>
    rw [List.flatten_cons, List.length_append, ← Nat.add_assoc, ← List.append_assoc,
      List.map_cons]
    by_cases hchunk : seen.length + chunk.length ≤ maxCompressedBytes
    · obtain ⟨s', hs', hreceived⟩ := receiveChunk_fits h hs index hchunk
      have hrest := ih hreceived (index + 1) (by rw [List.length_append]; exact hchunk)
      rw [List.length_append] at hrest
      unfold receiveBody
      rw [hs', ok_bind]
      exact hrest
    · have hexceeds : maxCompressedBytes < seen.length + chunk.length := by omega
      constructor
      · intro hsize
        omega
      · intro _
        refine ⟨s.world, ?_⟩
        unfold receiveBody
        rw [receiveChunk_exceeds h hs index hexceeds]
        rfl

/-! ## The upload is completed or aborted -/

theorem finishUpload_empty (hs : Received s []) :
    finishUpload env sha256 s = abort s.world .invalidRequest := by
  have hsize : s.byteSize = 0 := hs.byteSize
  unfold finishUpload
  rw [if_pos hsize]

theorem finishUpload_works (sha256 : Bytes → Bytes) (h : env.Works) {body : Bytes}
    (hs : Received s body) (hbody : body ≠ []) :
    ∃ parts, IsCut multipartChunkBytes body parts ∧ finishUpload env sha256 s =
      .ok (⟨sha256 body, body.length⟩, ⟨body, parts, .completed⟩) := by
  have hsize : ¬ s.byteSize = 0 := by
    rw [hs.byteSize]
    exact fun hzero => hbody (List.length_eq_zero_iff.mp hzero)
  unfold finishUpload
  rw [if_neg hsize, h.syncsSpool, h.completes]
  have hfilled := hs.filled
  by_cases hpart : s.part.bytes = []
  · rw [if_pos hpart]
    rw [hpart] at hfilled
    refine ⟨s.world.parts, hfilled.cut_of_empty, ?_⟩
    simp only [Bool.not_true, Bool.false_eq_true, if_false, ok_bind, if_true, hs.hashed,
      hs.byteSize, hs.spool]
  · rw [if_neg hpart, putPart_works h]
    refine ⟨s.world.parts ++ [s.part.bytes], hfilled.cut_of_rest hpart, ?_⟩
    simp only [Bool.not_true, Bool.false_eq_true, if_false, ok_bind, if_true, hs.hashed,
      hs.byteSize, hs.spool]

/-- A body within the limits is stored. -/
theorem storeRequest_stored (sha256 : Bytes → Bytes) (h : env.Works) (chunks : List Bytes)
    (hbody : chunks.flatten ≠ [])
    (hsize : chunks.flatten.length ≤ maxCompressedBytes) :
    ∃ parts, IsCut multipartChunkBytes chunks.flatten parts ∧
      storeRequest env sha256 (chunks.map some) =
        (.ok ⟨sha256 chunks.flatten, chunks.flatten.length⟩,
          ⟨chunks.flatten, parts, .completed⟩) := by
  obtain ⟨s, hs, hreceived⟩ := (receiveBody_works h .start 0 chunks (by decide)).1
    (by rw [List.length_nil, Nat.zero_add]; exact hsize)
  rw [List.nil_append] at hreceived
  obtain ⟨parts, hcut, hfinish⟩ := finishUpload_works sha256 h hreceived hbody
  refine ⟨parts, hcut, ?_⟩
  unfold storeRequest
  simp only [h.opensSpool, h.beginsUpload, Bool.not_true, Bool.false_eq_true, if_false, hs,
    ok_bind, hfinish]

/-- A body outside of the limits is refused. -/
theorem storeRequest_refused (h : env.Works) {chunks : List Bytes}
    (hbody : chunks.flatten = [] ∨ maxCompressedBytes < chunks.flatten.length) :
    ∃ error world, storeRequest env sha256 (chunks.map some) = (.error error, world) ∧
      world.upload = .aborted := by
  obtain ⟨hfits, hexceeds⟩ := receiveBody_works h .start 0 chunks (by decide)
  rw [List.length_nil, Nat.zero_add] at hfits hexceeds
  rw [List.nil_append] at hfits
  rcases hbody with hempty | hlarge
  · obtain ⟨s, hs, hreceived⟩ := hfits (by rw [hempty]; exact Nat.zero_le _)
    rw [hempty] at hreceived
    refine ⟨.invalidRequest, { s.world with upload := .aborted }, ?_, rfl⟩
    unfold storeRequest
    simp only [h.opensSpool, h.beginsUpload, Bool.not_true, Bool.false_eq_true, if_false, hs,
      ok_bind, finishUpload_empty hreceived, abort]
  · obtain ⟨world, hworld⟩ := hexceeds hlarge
    refine ⟨.requestTooLarge, { world with upload := .aborted }, ?_, rfl⟩
    unfold storeRequest
    simp only [h.opensSpool, h.beginsUpload, Bool.not_true, Bool.false_eq_true, if_false,
      hworld, abort, error_bind]

/-- What is stored depends on the bytes of the body, not on its chunks. -/
theorem storeRequest_chunks (h : env.Works) (chunks : List Bytes) :
    (0 < chunks.flatten.length ∧ chunks.flatten.length ≤ maxCompressedBytes →
      ∃ parts, IsCut multipartChunkBytes chunks.flatten parts ∧
        storeRequest env sha256 (chunks.map some) =
          (.ok ⟨sha256 chunks.flatten, chunks.flatten.length⟩,
            ⟨chunks.flatten, parts, .completed⟩) ∧
        ∀ chunks' : List Bytes, chunks'.flatten = chunks.flatten →
          storeRequest env sha256 (chunks'.map some) =
            storeRequest env sha256 (chunks.map some)) ∧
    (chunks.flatten.length = 0 ∨ maxCompressedBytes < chunks.flatten.length →
      ∃ error world, storeRequest env sha256 (chunks.map some) = (.error error, world) ∧
        world.upload = .aborted) := by
  constructor
  · rintro ⟨hpos, hsize⟩
    have hbody := List.length_pos_iff.mp hpos
    obtain ⟨parts, hcut, hstored⟩ := storeRequest_stored sha256 h chunks hbody hsize
    refine ⟨parts, hcut, hstored, ?_⟩
    intro chunks' hsame
    obtain ⟨parts', hcut', hstored'⟩ := storeRequest_stored sha256 h chunks'
      (by rw [hsame]; exact hbody) (by rw [hsame]; exact hsize)
    rw [hsame] at hcut' hstored'
    rw [hstored, hstored', hcut'.unique hcut]
  · rw [List.length_eq_zero_iff]
    exact storeRequest_refused h

end

/-- Every call succeeds. -/
def working : Environment := ⟨true, true, fun _ => true, fun _ => true, fun _ => true, true, true⟩

theorem working_works : working.Works :=
  ⟨rfl, rfl, fun _ => rfl, fun _ => rfl, fun _ => rfl, rfl, rfl⟩

/-- The digest of the body below. -/
def threeBytesDigest : Bytes :=
  [0x03, 0x90, 0x58, 0xc6, 0xf2, 0xc0, 0xcb, 0x49, 0x2c, 0x53, 0x3b, 0x0a, 0x4d, 0x14, 0xef, 0x77,
    0xcc, 0x0f, 0x78, 0xab, 0xcc, 0xce, 0xd5, 0x28, 0x7d, 0x84, 0xa1, 0xa2, 0x01, 0x1c, 0xfb, 0x81]

theorem storeRequest_three_bytes :
    storeRequest working (fun _ => threeBytesDigest) [some [1], some [], some [2, 3]] =
      storeRequest working (fun _ => threeBytesDigest) [some [1, 2, 3]] := by
  obtain ⟨-, -, -, hsame⟩ := (storeRequest_chunks working_works [[1, 2, 3]]).1
    ⟨by decide, by decide⟩
  exact hsame [[1], [], [2, 3]] rfl

end FaultLane.BodyUpload

import FaultLane.MultipartPlans

set_option autoImplicit false

/-!
# A whole transfer

The requests of the loop over the parts, for any answers of the service, and what a list of
completed parts leaves to be sent.
-/
namespace FaultLane.MultipartUpload.Cli
open Fallible FaultLane.Machine Tilings

section
variable {σ : Type} (host : LocalHost) (artifact : LocalArtifact) (upload : UploadView)

def partAt (number : Nat) : Part :=
  ⟨number, (number - 1) * upload.partSize.toNat,
    min (artifact.byteSize.toNat - (number - 1) * upload.partSize.toNat) upload.partSize.toNat⟩

def missingNumbers (completed : List Int32) (numbers : List Nat) : List Nat :=
  numbers.filter fun number : Nat => (number : Int) ∉ completed.map Int32.toInt

def plannedParts (completed : List Int32) (numbers : List Nat) : List Part :=
  (missingNumbers completed numbers).map (partAt artifact upload)

/-- The bytes of a part are those at its place in the file. -/
def SendsFile (requests : List Request) : Prop :=
  ∀ part bytes, Request.put part bytes ∈ requests →
    (host.readExact part.offset part.byteSize).map (·.val) = some bytes

/-- The requests go through the planned parts in order, and a success has sent them all. -/
structure Follows (plan : List Part) (transferred : Nat) (sent : List Request)
    (result : Except UploadError Nat) : Prop where
  puts : putParts sent <+: plan
  planned : ∀ request ∈ sent, request.part ∈ plan
  file : SendsFile host sent
  done : ∀ total, result = .ok total →
    putParts sent = plan ∧ total = transferred + (plan.map (·.byteSize)).sum

end

section
variable {σ : Type} {digests : Digests} {host : LocalHost} {api : Api σ}
  {artifact : LocalArtifact} {upload : UploadView}

theorem putParts_append (sent sent' : List Request) :
    putParts (sent ++ sent') = putParts sent ++ putParts sent' := List.filterMap_append

/-- How far a part got: the requests that were sent for it, and whether all were answered. -/
inductive Progress (host : LocalHost) (part : Part) : List Request → Bool → Prop
  | none : Progress host part [] false
  | signed : Progress host part [.sign part] false
  | put (bytes) (h : host.readExact part.offset part.byteSize = some bytes) :
      Progress host part [.sign part, .put part bytes.val] false
  | recorded (bytes) (h : host.readExact part.offset part.byteSize = some bytes) (ok : Bool) :
      Progress host part [.sign part, .put part bytes.val, .record part] ok

theorem bind_call {α β : Type} {P : Except UploadError β × Transfer σ → Prop} {request : Request}
    {g : σ → Except UploadError α × σ} {f : α → Sending σ β} {t : Transfer σ}
    (herror : ∀ e s, P (.error e, ⟨s, t.requests ++ [request]⟩))
    (hok : ∀ a s, P (f a ⟨s, t.requests ++ [request]⟩)) :
    P (Sending.bind (call request g) f t) := by
  unfold Sending.bind call
  cases h : (g t.service).1 with
  | error e => exact herror e _
  | ok a => exact hok a _

theorem transferPart_progress (digests : Digests) (host : LocalHost) (api : Api σ)
    (artifact : LocalArtifact) (upload : UploadView) (part : Part) (t : Transfer σ) :
    ∃ sent, (transferPart digests host api artifact upload part t).2.requests =
        t.requests ++ sent ∧
      Progress host part sent (transferPart digests host api artifact upload part t).1.isOk := by
  have hnone : ∃ sent, t.requests = t.requests ++ sent ∧ Progress host part sent false :=
    ⟨[], (List.append_nil _).symm, .none⟩
  unfold transferPart
  by_cases hreserve : host.reserves part.byteSize = true
  · rw [if_pos hreserve]
    cases hread : host.readExact part.offset part.byteSize with
    | none => exact hnone
    | some bytes =>
      cases hnumber : toI32 (part.number : Int) with
      | none => exact hnone
      | some number =>
        cases hsize : toI64 (part.byteSize : Int) with
        | none => exact hnone
        | some byteSize =>
          refine bind_call (P := fun r => ∃ sent, r.2.requests = t.requests ++ sent ∧
            Progress host part sent r.1.isOk) (fun e s => ⟨[.sign part], rfl, .signed⟩) ?_
          intro signed s
          by_cases hmethod : signed.method ≠ "PUT" ∨ signed.expiresInSeconds = 0
          · rw [if_pos hmethod]
            exact ⟨[.sign part], rfl, .signed⟩
          · rw [if_neg hmethod]
            refine bind_call (P := fun r => ∃ sent, r.2.requests = t.requests ++ sent ∧
              Progress host part sent r.1.isOk) (fun e s => ?_) fun etag s => ?_
            · exact ⟨[.sign part, .put part bytes.val], List.append_assoc _ _ _, .put bytes hread⟩
            · refine ⟨[.sign part, .put part bytes.val, .record part], ?_, .recorded bytes hread _⟩
              change (t.requests ++ [_] ++ [_]) ++ [_] = _
              rw [List.append_assoc, List.append_assoc]
              rfl
  · rw [if_neg hreserve]
    exact hnone

theorem Progress.part {part : Part} {sent : List Request} {ok : Bool}
    (h : Progress host part sent ok) : ∀ request ∈ sent, request.part = part := by
  cases h <;> simp [Request.part]

theorem Progress.file {part : Part} {sent : List Request} {ok : Bool}
    (h : Progress host part sent ok) : SendsFile host sent := by
  intro part' bytes' hmem
  cases h with
  | none => exact nomatch hmem
  | signed => exact nomatch List.mem_singleton.mp hmem
  | put bytes h | recorded bytes h =>
    simp only [List.mem_cons, reduceCtorEq, Request.put.injEq, List.not_mem_nil, or_false,
      false_or] at hmem
    rw [hmem.1, hmem.2, h]
    rfl

theorem Progress.puts {part : Part} {sent : List Request} {ok : Bool}
    (h : Progress host part sent ok) :
    putParts sent = [part] ∨ (putParts sent = [] ∧ ok = false) := by
  cases h with
  | none | signed => exact Or.inr ⟨rfl, rfl⟩
  | put | recorded => exact Or.inl rfl

/-! ## The loop -/

theorem Follows.nil (transferred : Nat) :
    Follows host [] transferred [] (.ok transferred) :=
  ⟨List.nil_prefix, nofun, nofun, fun total h => by cases h; exact ⟨rfl, rfl⟩⟩

theorem Follows.stopped {part : Part} {plan : List Part} {transferred : Nat}
    {sent : List Request} {ok : Bool} (h : Progress host part sent ok) (e : UploadError) :
    Follows host (part :: plan) transferred sent (.error e) := by
  refine ⟨?_, fun request hmem => ?_, h.file, nofun⟩
  · rcases h.puts with hputs | ⟨hputs, -⟩
    · rw [hputs]
      exact List.prefix_append [part] plan
    · rw [hputs]
      exact List.nil_prefix
  · rw [h.part request hmem]
    exact List.mem_cons_self

theorem Follows.cons {part : Part} {plan : List Part} {transferred : Nat}
    {sent sent' : List Request} {result : Except UploadError Nat}
    (h : Progress host part sent true)
    (hrest : Follows host plan (transferred + part.byteSize) sent' result) :
    Follows host (part :: plan) transferred (sent ++ sent') result := by
  have hputs : putParts sent = [part] := h.puts.resolve_right fun hn => Bool.noConfusion hn.2
  refine ⟨?_, ?_, ?_, ?_⟩
  · rw [putParts_append, hputs]
    exact List.prefix_cons_inj part |>.mpr hrest.puts
  · intro request hmem
    rcases List.mem_append.mp hmem with hmem | hmem
    · rw [h.part request hmem]
      exact List.mem_cons_self
    · exact List.mem_cons_of_mem _ (hrest.planned request hmem)
  · intro part' bytes' hmem
    rcases List.mem_append.mp hmem with hmem | hmem
    · exact h.file part' bytes' hmem
    · exact hrest.file part' bytes' hmem
  · intro total htotal
    obtain ⟨hall, hsum⟩ := hrest.done total htotal
    rw [putParts_append, hputs, hall, hsum, List.map_cons, List.sum_cons, Nat.add_assoc]
    exact ⟨rfl, rfl⟩

theorem locatePart_eq (hplan : validPlan artifact upload = true) {number : Nat}
    (hfirst : 1 ≤ number) (hlast : number ≤ upload.partCount.toNat) :
    locatePart artifact upload number = pure (some (partAt artifact upload number)) := by
  obtain ⟨-, -, -, hparts, hcount⟩ := validPlan_iff.mp hplan
  have hnumber : number < 2 ^ 32 := Nat.lt_of_le_of_lt hlast upload.partCount.toNat_lt
  have hoffset : (number - 1) * upload.partSize.toNat < artifact.byteSize.toNat :=
    mul_lt_of_lt_divCeil (by omega)
  have hartifact := artifact.byteSize.toNat_lt
  have hmul : checkedMulU64 (number - 1) upload.partSize.toNat =
      some ((number - 1) * upload.partSize.toNat) := if_pos (hoffset.trans hartifact)
  unfold locatePart
  rw [Arithmetic.subUnsigned_of_le hnumber hfirst, Arithmetic.pure_bind, hmul]
  change (Arithmetic.subUnsigned 64 _ _ >>= _) = _
  rw [Arithmetic.subUnsigned_of_le hartifact (Nat.le_of_lt hoffset), Arithmetic.pure_bind]
  rfl

theorem exists_number (hplan : validPlan artifact upload = true) {number : Nat}
    (hlast : number ≤ upload.partCount.toNat) :
    ∃ number', toI32 (number : Int) = some number' ∧ number'.toInt = number := by
  obtain ⟨-, -, -, hparts, -⟩ := validPlan_iff.mp hplan
  have hmax : Cli.maxParts = 10000 := rfl
  exact exists_toI32 (by omega) (by omega)

theorem plannedParts_cons_of_mem {completed : List Int32} {number : Nat} (numbers : List Nat)
    (h : (number : Int) ∈ completed.map Int32.toInt) :
    plannedParts artifact upload completed (number :: numbers) =
      plannedParts artifact upload completed numbers := by
  unfold plannedParts missingNumbers
  rw [List.filter_cons_of_neg (by simpa using h)]

theorem plannedParts_cons_of_not_mem {completed : List Int32} {number : Nat}
    (numbers : List Nat) (h : (number : Int) ∉ completed.map Int32.toInt) :
    plannedParts artifact upload completed (number :: numbers) =
      partAt artifact upload number :: plannedParts artifact upload completed numbers := by
  unfold plannedParts missingNumbers
  rw [List.filter_cons_of_pos (by simpa using h), List.map_cons]

theorem mem_completed {completed : List Int32} {number : Nat} {number' : Int32}
    (h : number'.toInt = number) :
    number' ∈ completed ↔ (number : Int) ∈ completed.map Int32.toInt := by
  rw [← h, List.mem_map]
  constructor
  · intro hmem
    exact ⟨number', hmem, rfl⟩
  · rintro ⟨other, hmem, hother⟩
    exact Int32.toInt_inj.mp hother ▸ hmem

theorem sendPart_of_mem {completed : List Int32} {number : Nat}
    (hplan : validPlan artifact upload = true) (hlast : number ≤ upload.partCount.toNat)
    (hmem : (number : Int) ∈ completed.map Int32.toInt) (transferred : Nat) (t : Transfer σ) :
    sendPart digests host api artifact upload completed number transferred t =
      pure (.ok transferred, t) := by
  obtain ⟨number', hnumber, hvalue⟩ := exists_number hplan hlast
  unfold sendPart
  rw [hnumber, Option.elim_some, if_pos ((mem_completed hvalue).mpr hmem)]

/-- A part that is not completed is located without overflow, and transferred. -/
theorem sendPart_of_not_mem {completed : List Int32} {number : Nat}
    (hplan : validPlan artifact upload = true) (hfirst : 1 ≤ number)
    (hlast : number ≤ upload.partCount.toNat)
    (hmem : (number : Int) ∉ completed.map Int32.toInt) (transferred : Nat) (t : Transfer σ) :
    sendPart digests host api artifact upload completed number transferred t =
      match transferPart digests host api artifact upload (partAt artifact upload number) t with
      | (.error e, t) => pure (.error e, t)
      | (.ok (), t) =>
        pure (okOr (checkedAddU64 transferred (partAt artifact upload number).byteSize)
          .internal, t) := by
  obtain ⟨number', hnumber, hvalue⟩ := exists_number hplan hlast
  unfold sendPart
  rw [hnumber, Option.elim_some, if_neg (mt (mem_completed hvalue).mp hmem),
    locatePart_eq hplan hfirst hlast]
  exact Arithmetic.pure_bind _ _

theorem sendParts_spec (digests : Digests) (host : LocalHost) (api : Api σ)
    (hplan : validPlan artifact upload = true) (completed : List Int32) (numbers : List Nat)
    (hnumbers : ∀ n ∈ numbers, 1 ≤ n ∧ n ≤ upload.partCount.toNat) (transferred : Nat)
    (t : Transfer σ) :
    (sendParts digests host api artifact upload completed transferred t numbers).overflowed =
        false ∧
      ∃ sent, (sendParts digests host api artifact upload completed transferred t
            numbers).value.2.requests = t.requests ++ sent ∧
        Follows host (plannedParts artifact upload completed numbers) transferred sent
          (sendParts digests host api artifact upload completed transferred t numbers).value.1 := by
  induction numbers generalizing transferred t with
  | nil => exact ⟨rfl, [], (List.append_nil _).symm, Follows.nil transferred⟩
  | cons number numbers ih =>
    obtain ⟨hfirst, hlast⟩ := hnumbers number List.mem_cons_self
    have hrest := ih fun n hn => hnumbers n (List.mem_cons_of_mem _ hn)
    unfold sendParts
    by_cases hmem : (number : Int) ∈ completed.map Int32.toInt
    · rw [sendPart_of_mem hplan hlast hmem, Arithmetic.pure_bind,
        plannedParts_cons_of_mem numbers hmem]
      exact hrest transferred t
    · obtain ⟨sent, hsent, hprogress⟩ := transferPart_progress digests host api artifact upload
        (partAt artifact upload number) t
      rw [sendPart_of_not_mem hplan hfirst hlast hmem, plannedParts_cons_of_not_mem numbers hmem]
      cases hresult : transferPart digests host api artifact upload
          (partAt artifact upload number) t with
      | mk answer t' =>
        rw [hresult] at hsent hprogress
        cases answer with
        | error e => exact ⟨rfl, sent, hsent, Follows.stopped hprogress e⟩
        | ok =>
          dsimp only
          rw [Arithmetic.pure_bind]
          cases hadd : checkedAddU64 transferred (partAt artifact upload number).byteSize with
          | none => exact ⟨rfl, sent, hsent, Follows.stopped hprogress .internal⟩
          | some total =>
            have htotal : total = transferred + (partAt artifact upload number).byteSize := by
              unfold checkedAddU64 at hadd
              split_ifs at hadd
              cases hadd
              rfl
            obtain ⟨hflow, sent', hsent', hfollows⟩ := hrest total t'
            refine ⟨hflow, sent ++ sent', ?_, ?_⟩
            · dsimp only at hsent
              rw [okOr_some, hsent', hsent, List.append_assoc]
            · rw [htotal] at hfollows ⊢
              exact Follows.cons hprogress hfollows

/-! ## The tiling -/

theorem ValidPart.piece {part : CompletedPartView}
    (h : ValidPart digests artifact upload part) :
    part.piece upload = cut artifact.byteSize.toNat upload.partSize.toNat part.index := by
  have hsize := h.size
  unfold CompletedPartView.piece cut
  rw [Piece.mk.injEq]
  exact ⟨rfl, by omega⟩

/-- The completed numbers and the planned ones are the numbers of the plan. -/
theorem numbers_perm {parts : List CompletedPartView} {completed : List Int32}
    (hparts : AcceptedParts digests artifact upload [] parts)
    (hcompleted : ∀ n, n ∈ completed ↔ n ∈ parts.map (·.partNumber)) :
    (parts.map CompletedPartView.index ++
      (missingNumbers completed (List.range' 1 upload.partCount.toNat)).map (· - 1)).Perm
        (List.range upload.partCount.toNat) := by
  obtain ⟨hvalid, hnodup, -⟩ := hparts
  have hmem : ∀ number : Nat, (number : Int) ∈ completed.map Int32.toInt ↔
      ∃ part ∈ parts, part.partNumber.toInt = number := by
    intro number
    simp only [List.mem_map, hcompleted]
    constructor
    · rintro ⟨n, ⟨part, hpart, rfl⟩, hn⟩
      exact ⟨part, hpart, hn⟩
    · rintro ⟨part, hpart, hn⟩
      exact ⟨part.partNumber, ⟨part, hpart, rfl⟩, hn⟩
  have hnumber : ∀ part ∈ parts, part.partNumber.toInt = (part.index + 1 : Nat) := by
    intro part hpart
    have hfirst := (hvalid part hpart).first
    unfold CompletedPartView.index
    omega
  unfold missingNumbers
  rw [List.perm_ext_iff_of_nodup ?_ List.nodup_range]
  · intro i
    rw [List.mem_append, List.mem_map, List.mem_map, List.mem_range]
    simp only [List.mem_filter, List.mem_range'_1, decide_eq_true_eq, hmem]
    constructor
    · rintro (⟨part, hpart, rfl⟩ | ⟨number, ⟨hrange, -⟩, rfl⟩)
      · have hlast := (hvalid part hpart).last
        have := hnumber part hpart
        omega
      · omega
    · intro hi
      by_cases hexists : ∃ part ∈ parts, part.partNumber.toInt = (i + 1 : Nat)
      · obtain ⟨part, hpart, hpn⟩ := hexists
        have := hnumber part hpart
        exact Or.inl ⟨part, hpart, by omega⟩
      · exact Or.inr ⟨i + 1, ⟨by omega, hexists⟩, by omega⟩
  · rw [List.nodup_append]
    refine ⟨?_, ?_, ?_⟩
    · rw [List.nodup_map_iff_inj_on (List.Nodup.of_map _ hnodup)]
      intro a ha b hb hab
      refine List.inj_on_of_nodup_map hnodup ha hb (Int32.toInt_inj.mp ?_)
      rw [hnumber a ha, hnumber b hb, hab]
    · rw [List.nodup_map_iff_inj_on (List.Nodup.filter _ List.nodup_range')]
      intro a ha b hb hab
      have ha' := (List.mem_range'_1.mp (List.mem_of_mem_filter ha)).1
      have hb' := (List.mem_range'_1.mp (List.mem_of_mem_filter hb)).1
      omega
    · intro i hi j hj hij
      obtain ⟨part, hpart, rfl⟩ := List.mem_map.mp hi
      obtain ⟨number, hnum, rfl⟩ := List.mem_map.mp hj
      rw [List.mem_filter, decide_eq_true_eq, hmem] at hnum
      have hrange := (List.mem_range'_1.mp hnum.1).1
      refine hnum.2 ⟨part, hpart, ?_⟩
      rw [hnumber part hpart, hij]
      congr 1
      omega

theorem tiles_planned {parts : List CompletedPartView} {completed : List Int32}
    (hplan : validPlan artifact upload = true)
    (hparts : AcceptedParts digests artifact upload [] parts)
    (hcompleted : ∀ n, n ∈ completed ↔ n ∈ parts.map (·.partNumber)) :
    Tiles artifact.byteSize.toNat (parts.map (·.piece upload) ++
      (plannedParts artifact upload completed
        (List.range' 1 upload.partCount.toNat)).map Part.piece) := by
  obtain ⟨hpositive, -, -, -, hcount⟩ := validPlan_iff.mp hplan
  have hsize : 0 < upload.partSize.toNat := Nat.pos_of_ne_zero hpositive
  have htotal : artifact.byteSize.toNat ≤ upload.partCount.toNat * upload.partSize.toNat := by
    rw [hcount]
    exact divCeil_mul_ge _ _ hsize
  have htiles := tiles_of_perm hsize htotal (numbers_perm hparts hcompleted)
  rw [List.map_append, List.map_map, List.map_map] at htiles
  have hpieces : parts.map (·.piece upload) =
      parts.map (cut artifact.byteSize.toNat upload.partSize.toNat ∘ CompletedPartView.index) :=
    List.map_congr_left fun part hpart => (hparts.1 part hpart).piece
  unfold plannedParts
  rw [hpieces, List.map_map]
  exact htiles

/-! ## The whole upload -/

/-- The view is refused before anything is sent. -/
def Rejects (service : σ) (run : Except UploadError Nat × Transfer σ) : Prop :=
  run = (.error .internal, ⟨service, []⟩)

/-- What is sent completes the parts of the view to a tiling of the artifact. -/
def SendsTheRest (host : LocalHost) (artifact : LocalArtifact) (upload : UploadView)
    (run : Except UploadError Nat × Transfer σ) : Prop :=
  ∃ parts : List Part,
    Tiles artifact.byteSize.toNat
      (upload.completedParts.map (·.piece upload) ++ parts.map Part.piece) ∧
    Follows host parts 0 run.2.requests run.1

/-- The numbers in the set that the check of the list builds. -/
def completedNumbers (upload : UploadView) : List Int32 :=
  (upload.completedParts.map (·.partNumber)).reverse ++ []

theorem mem_completedNumbers (n : Int32) :
    n ∈ completedNumbers upload ↔ n ∈ upload.completedParts.map (·.partNumber) := by
  unfold completedNumbers
  rw [List.append_nil, List.mem_reverse]

theorem uploadArtifact_value_of_accepted (service : σ) (hplan : validPlan artifact upload = true)
    (hparts : AcceptedParts digests artifact upload [] upload.completedParts)
    (hopens : host.opens = true) :
    (uploadArtifact digests host api artifact upload service).value =
      (sendParts digests host api artifact upload (completedNumbers upload) 0 ⟨service, []⟩
        (List.range' 1 upload.partCount.toNat)).value := by
  obtain ⟨-, hvalue⟩ | ⟨hnot, -⟩ :=
    checkCompleted_value digests hplan [] upload.completedParts
  · unfold uploadArtifact
    rw [if_pos hplan, Arithmetic.value_bind, hvalue]
    dsimp only
    rw [if_pos hopens]
    rfl
  · exact absurd hparts hnot

theorem range_numbers (upload : UploadView) :
    ∀ n ∈ List.range' 1 upload.partCount.toNat, 1 ≤ n ∧ n ≤ upload.partCount.toNat := by
  intro n hn
  have hrange := List.mem_range'_1.mp hn
  omega

theorem uploadArtifact_follows (api : Api σ) (service : σ)
    (hplan : validPlan artifact upload = true)
    (hparts : AcceptedParts digests artifact upload [] upload.completedParts) :
    Follows host (plannedParts artifact upload (completedNumbers upload)
        (List.range' 1 upload.partCount.toNat)) 0
      (uploadArtifact digests host api artifact upload service).value.2.requests
      (uploadArtifact digests host api artifact upload service).value.1 := by
  by_cases hopens : host.opens = true
  · obtain ⟨-, sent, hsent, hfollows⟩ := sendParts_spec digests host api hplan
      (completedNumbers upload) (List.range' 1 upload.partCount.toNat)
      (range_numbers upload) 0 ⟨service, []⟩
    rw [uploadArtifact_value_of_accepted service hplan hparts hopens, hsent]
    exact hfollows
  · obtain ⟨-, hvalue⟩ | ⟨hnot, -⟩ := checkCompleted_value digests hplan [] upload.completedParts
    · unfold uploadArtifact
      rw [if_pos hplan, Arithmetic.value_bind, hvalue]
      dsimp only
      rw [if_neg hopens]
      exact ⟨List.nil_prefix, nofun, nofun, nofun⟩
    · exact absurd hparts hnot

theorem uploadArtifact_value (digests : Digests) (host : LocalHost) (api : Api σ)
    (artifact : LocalArtifact) (upload : UploadView) (service : σ) :
    Rejects service (uploadArtifact digests host api artifact upload service).value ∨
      SendsTheRest host artifact upload
        (uploadArtifact digests host api artifact upload service).value := by
  by_cases hplan : validPlan artifact upload = true
  · rcases checkCompleted_value digests hplan [] upload.completedParts with
      ⟨hparts, -⟩ | ⟨-, hvalue⟩
    · exact Or.inr ⟨_, tiles_planned hplan hparts mem_completedNumbers,
        uploadArtifact_follows api service hplan hparts⟩
    · left
      unfold uploadArtifact
      rw [if_pos hplan, Arithmetic.value_bind, hvalue]
      rfl
  · left
    unfold uploadArtifact
    rw [if_neg hplan]
    rfl

/-- The arithmetic of an upload stays in range exactly when no stray part is come to. -/
theorem uploadArtifact_overflowed (digests : Digests) (host : LocalHost) (api : Api σ)
    (artifact : LocalArtifact) (upload : UploadView) (service : σ) :
    (uploadArtifact digests host api artifact upload service).overflowed = false ↔
      NoStrayPart digests artifact upload := by
  unfold NoStrayPart
  by_cases hplan : validPlan artifact upload = true
  · have hcheck : (checkCompleted digests artifact upload [] upload.completedParts).overflowed =
          false ↔ (validPlan artifact upload = true → ∀ front part rest,
            upload.completedParts = front ++ part :: rest →
              AcceptedParts digests artifact upload [] front →
                ¬ StrayPart artifact upload part) := by
      rw [← Bool.not_eq_true, checkCompleted_overflowed digests hplan []]
      constructor
      · intro h _ front part rest hfront haccepted hstray
        exact h ⟨front, part, rest, hfront, haccepted, hstray⟩
      · rintro h ⟨front, part, rest, hfront, haccepted, hstray⟩
        exact h hplan front part rest hfront haccepted hstray
    rw [← hcheck]
    unfold uploadArtifact
    rw [if_pos hplan, Arithmetic.overflowed_bind]
    cases (checkCompleted digests artifact upload [] upload.completedParts).value with
    | none => rw [Arithmetic.overflowed_pure, Bool.or_false]
    | some completed =>
      dsimp only
      by_cases hopens : host.opens = true
      · rw [if_pos hopens, (sendParts_spec digests host api hplan completed _
          (range_numbers upload) 0 _).1, Bool.or_false]
      · rw [if_neg hopens, Arithmetic.overflowed_pure, Bool.or_false]
  · unfold uploadArtifact
    rw [if_neg hplan]
    exact iff_of_true rfl fun h => absurd h hplan

end
end FaultLane.MultipartUpload.Cli

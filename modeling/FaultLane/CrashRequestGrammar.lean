import FaultLane.CrashRequestReading
import Mathlib.Data.List.Nodup

set_option autoImplicit false

/-!
# The CR1 grammar

An archive as a value, its encoding, and what the envelope check admits. Each read
of the decoder accepts exactly the encodings of the values it returns, so the whole
check accepts exactly the encodings of the admissible archives.
-/
namespace FaultLane.CrashRequestGrammar
open Fallible RustText LogTail CrashContext CrashRequest CrashRequestReading

/-- The count fields are signed 32-bit numbers that must not be negative. -/
def countLimit : Nat := 2 ^ 31

structure SafeName where
  text : String
  safe : safeLeafName text = true
  fits : (utf8 text).length ≤ ansiFieldBytes

structure Entry where
  name : SafeName
  data : List UInt8
  sized : data.length < countLimit

structure Archive where
  directoryName : SafeName
  archiveName : SafeName
  entries : List Entry

def Entry.kind (e : Entry) : CrashRequestFileKind := fileKind e.name.text

def Entry.key (e : Entry) : List Char := toAsciiLowercase e.name.text.toList

def le32 (n : Nat) : List UInt8 :=
  [UInt8.ofNat n, UInt8.ofNat (n / 2 ^ 8), UInt8.ofNat (n / 2 ^ 16), UInt8.ofNat (n / 2 ^ 24)]

def encodeName (name : SafeName) : List UInt8 :=
  le32 ansiFieldBytes ++
    (utf8 name.text ++ List.replicate (ansiFieldBytes - (utf8 name.text).length) 0)

def encodeEntry (index : Nat) (e : Entry) : List UInt8 :=
  le32 index ++ (encodeName e.name ++ (le32 e.data.length ++ e.data))

def encodeEntries : Nat → List Entry → List UInt8
  | _, [] => []
  | index, e :: rest => encodeEntry index e ++ encodeEntries (index + 1) rest

def encodeBody (total : Nat) (a : Archive) : List UInt8 :=
  envelopeMagic ++ (encodeName a.directoryName ++ (encodeName a.archiveName ++
    (le32 total ++ (le32 a.entries.length ++ encodeEntries 0 a.entries))))

/-- The length of the encoding, which the total does not change. -/
def Archive.size (a : Archive) : Nat := (encodeBody 0 a).length

def encode (a : Archive) : List UInt8 := encodeBody a.size a

def listedFiles : Nat → List Entry → List CrashRequestFile
  | _, [] => []
  | index, e :: rest => ⟨index, e.name.text, e.data.length, e.kind⟩ :: listedFiles (index + 1) rest

def manifestOf (compressedSize : Nat) (a : Archive) : CrashRequestManifest :=
  .supported a.directoryName.text a.archiveName.text compressedSize a.size
    (listedFiles 0 a.entries)

structure Admissible (limits : CrashRequestLimits) (a : Archive) : Prop where
  size_lt : a.size < countLimit
  size_le : a.size ≤ limits.expandedBytes
  count_lt : a.entries.length < countLimit
  count_le : a.entries.length ≤ limits.files
  file_le : ∀ e ∈ a.entries, e.data.length ≤ limits.fileBytes
  context_le : ∀ e ∈ a.entries, e.kind = .crashContext → e.data.length ≤ limits.crashContextBytes
  names_distinct : (a.entries.map Entry.key).Nodup
  one_context : (a.entries.map Entry.kind).count .crashContext ≤ 1
  one_minidump : (a.entries.map Entry.kind).count .minidump ≤ 1

theorem steps_append {r t : ExpandedReader} {as bs : List UInt8} :
    Steps r (as ++ bs) t ↔ ∃ s, Steps r as s ∧ Steps s bs t := by
  constructor
  · intro h
    have hsplit : avail r = as ++ (bs ++ avail t) := by rw [h.split, List.append_assoc]
    obtain ⟨hs, ha⟩ := steps_of_avail h.inv hsplit
    refine ⟨_, hs, hs.inv', ?_, ha⟩
    rw [h.reached, skip_add, List.length_append]
  · rintro ⟨s, h, h'⟩
    exact h.trans h'

theorem le32_length (n : Nat) : (le32 n).length = 4 := rfl

theorem leValue_le32 (n : Nat) (hn : n < 2 ^ 32) : leValue (le32 n) = n := by
  simp only [le32, leValue, UInt8.toNat_ofNat']
  omega

theorem le32_leValue {bytes : List UInt8} (h : bytes.length = 4) :
    le32 (leValue bytes) = bytes ∧ leValue bytes < 2 ^ 32 := by
  obtain ⟨a, b, c, d, rfl⟩ := List.length_eq_four.mp h
  have ha := a.toNat_lt
  have hb := b.toNat_lt
  have hc := c.toNat_lt
  have hd := d.toNat_lt
  simp only [le32, leValue, List.cons.injEq, and_true, ← UInt8.toNat_inj, UInt8.toNat_ofNat']
  omega

theorem readI32_iff {r t : ExpandedReader} {value : Int} (hr : Inv r) :
    readI32 r = .ok (value, t) ↔
      ∃ bytes, bytes.length = 4 ∧ value = i32OfLeBytes bytes ∧ Steps r bytes t := by
  constructor
  · intro h
    obtain ⟨⟨bytes, u⟩, hb, h⟩ := bind_eq_ok.mp h
    cases h
    obtain ⟨hl, hs⟩ := (readExact_iff hr).mp hb
    exact ⟨bytes, hl, rfl, hs⟩
  · rintro ⟨bytes, hl, rfl, hs⟩
    exact bind_eq_ok.mpr ⟨_, (readExact_iff hr).mpr ⟨hl, hs⟩, rfl⟩

theorem i32OfLeBytes_le32 {n : Nat} (hn : n < countLimit) : i32OfLeBytes (le32 n) = n := by
  have hn' : n < 2 ^ 31 := hn
  unfold i32OfLeBytes
  rw [leValue_le32 n (by omega)]
  exact if_pos hn'

/-- A number that is not negative has one encoding. -/
theorem i32OfLeBytes_eq {bytes : List UInt8} (h : bytes.length = 4)
    (hn : ¬ i32OfLeBytes bytes < 0) :
    (i32OfLeBytes bytes).toNat < countLimit ∧ bytes = le32 (i32OfLeBytes bytes).toNat := by
  obtain ⟨hb, hlt⟩ := le32_leValue h
  unfold i32OfLeBytes countLimit at *
  dsimp only at *
  by_cases hv : leValue bytes < 2 ^ 31
  · rw [if_pos hv, Int.toNat_natCast, hb]
    exact ⟨hv, rfl⟩
  · rw [if_neg hv] at hn
    omega

theorem readCount_iff {r t : ExpandedReader} {n : Nat} (hr : Inv r) :
    readCount r = .ok (n, t) ↔ n < countLimit ∧ Steps r (le32 n) t := by
  constructor
  · intro h
    obtain ⟨⟨value, u⟩, hv, h⟩ := bind_eq_ok.mp h
    obtain ⟨_, hneg, h⟩ := bind_eq_ok.mp h
    cases h
    obtain ⟨bytes, hl, rfl, hs⟩ := (readI32_iff hr).mp hv
    obtain ⟨hlt, hb⟩ := i32OfLeBytes_eq hl (refuse_eq_ok.mp hneg)
    exact ⟨hlt, hb ▸ hs⟩
  · rintro ⟨hn, hs⟩
    have hv := (readI32_iff hr).mpr ⟨le32 n, rfl, (i32OfLeBytes_le32 hn).symm, hs⟩
    unfold readCount
    rw [hv]
    simp only [ok_bind, refuse_of_not (by omega : ¬ (n : Int) < 0), pure_eq_ok, Int.toNat_natCast]

/-- The length before the first zero is the length of the zero-free front. -/
theorem valueLength_eq (bytes : List UInt8) :
    (bytes.findIdx? (· == 0)).getD bytes.length = (bytes.takeWhile (· != 0)).length := by
  induction bytes with
  | nil => rfl
  | cons b rest ih =>
    by_cases hb : b = 0
    · simp [hb, List.findIdx?_cons]
    · rw [List.takeWhile_cons_of_pos (by simpa using hb), List.length_cons, List.length_cons, ← ih]
      cases h : rest.findIdx? (· == 0) <;> simp [List.findIdx?_cons, hb, h]

theorem take_takeWhile_length (bytes : List UInt8) (p : UInt8 → Bool) :
    bytes.take (bytes.takeWhile p).length = bytes.takeWhile p ∧
      bytes.drop (bytes.takeWhile p).length = bytes.dropWhile p := by
  have h := List.takeWhile_append_dropWhile (p := p) (l := bytes)
  constructor
  · conv_lhs => rw [← h]
    rw [List.take_left' (by rw [h])]
  · conv_lhs => rw [← h]
    rw [List.drop_left' (by rw [h])]

theorem safe_bytes_ne_zero {name : String} (h : safeLeafName name = true) :
    ∀ b ∈ utf8 name, (b != 0) = true := by
  intro b hb
  simp only [safeLeafName, Bool.and_eq_true, List.all_eq_true, decide_eq_true_eq] at h
  have hlow := (h.2 b hb).1.1
  rw [bne_iff_ne]
  rintro rfl
  exact absurd hlow (by decide)

/-- Zero padding after a zero-free front: the front is read back and the rest is all zeros. -/
theorem padded_takeWhile {front : List UInt8} (h : ∀ b ∈ front, (b != 0) = true) (k : Nat) :
    (front ++ List.replicate k 0).takeWhile (· != 0) = front ∧
      (front ++ List.replicate k 0).dropWhile (· != 0) = List.replicate k 0 := by
  rw [List.takeWhile_append_of_pos h, List.dropWhile_append_of_pos h]
  cases k with
  | zero => simp
  | succ k => simp [List.replicate_succ]

theorem readAnsiField_ok {r t : ExpandedReader} {name : SafeName}
    (h : Steps r (encodeName name) t) : readAnsiField r = .ok (name.text, t) := by
  obtain ⟨s, hl, hs⟩ := steps_append.mp h
  have hlength := (readI32_iff h.inv).mpr ⟨_, le32_length _, rfl, hl⟩
  rw [i32OfLeBytes_le32 (by decide)] at hlength
  have hfield := (readExact_iff (n := ansiFieldBytes) hl.inv').mpr
    ⟨by simpa using Nat.add_sub_of_le name.fits, hs⟩
  have hpadded := padded_takeWhile (safe_bytes_ne_zero name.safe)
    (ansiFieldBytes - (utf8 name.text).length)
  unfold readAnsiField
  simp only [hlength, ok_bind, refuse_of_not (not_not.mpr rfl), hfield, valueLength_eq,
    take_takeWhile_length, hpadded]
  simp [refuse, fromUtf8_utf8, name.safe]

theorem readAnsiField_encoded {r t : ExpandedReader} {text : String} (hr : Inv r)
    (h : readAnsiField r = .ok (text, t)) :
    ∃ name : SafeName, name.text = text ∧ Steps r (encodeName name) t := by
  obtain ⟨⟨length, u⟩, hl, h⟩ := bind_eq_ok.mp h
  obtain ⟨_, hlength, h⟩ := bind_eq_ok.mp h
  obtain ⟨⟨field, v⟩, hf, h⟩ := bind_eq_ok.mp h
  obtain ⟨_, hzeros, h⟩ := bind_eq_ok.mp h
  obtain ⟨value, hvalue, h⟩ := bind_eq_ok.mp h
  obtain ⟨_, hsafe, h⟩ := bind_eq_ok.mp h
  cases h
  obtain ⟨bytes, hl4, rfl, hs⟩ := (readI32_iff hr).mp hl
  obtain ⟨hfl, hfs⟩ := (readExact_iff hs.inv').mp hf
  have hlen : i32OfLeBytes bytes = (ansiFieldBytes : Int) := not_not.mp (refuse_eq_ok.mp hlength)
  have hbytes : bytes = le32 ansiFieldBytes := by
    rw [(i32OfLeBytes_eq hl4 (by rw [hlen]; decide)).2, hlen]
    rfl
  rw [okOr_eq_ok, valueLength_eq, (take_takeWhile_length _ _).1] at hvalue
  rw [refuse_eq_ok, valueLength_eq, (take_takeWhile_length _ _).2] at hzeros
  have hfront : utf8 text = field.takeWhile (· != 0) := utf8_of_fromUtf8 hvalue
  have hfield : utf8 text ++ field.dropWhile (· != 0) = field := by
    rw [hfront, List.takeWhile_append_dropWhile]
  have hfit : (utf8 text).length + (field.dropWhile (· != 0)).length = ansiFieldBytes := by
    rw [← List.length_append, hfield, hfl]
  have hrest : field.dropWhile (· != 0) =
      List.replicate (ansiFieldBytes - (utf8 text).length) 0 := by
    rw [List.eq_replicate_iff]
    refine ⟨by omega, fun b hb => ?_⟩
    by_contra hne
    exact hzeros (List.any_eq_true.mpr ⟨b, hb, by simpa using hne⟩)
  refine ⟨⟨text, by simpa using refuse_eq_ok.mp hsafe, by omega⟩, rfl, ?_⟩
  unfold encodeName
  rw [← hbytes, ← hrest, hfield]
  exact hs.trans hfs

/-- The envelope check keeps nothing of a file. -/
theorem readContents_discards {xmlParser : XmlParser} {limits : CrashRequestLimits}
    {s s' : InspectedFiles} {name : String} {kind : CrashRequestFileKind} {size : Nat}
    {r t : ExpandedReader}
    (h : readContents xmlParser limits false false s name kind size r = .ok (s', t)) :
    s' = s ∧ discard r size = .ok t ∧
      (kind = .crashContext → ¬ limits.crashContextBytes < size) := by
  have hrest : ∀ {x : Decoded ExpandedReader},
      (do let r ← x; return (s, r)) = .ok (s', t) → s' = s ∧ x = .ok t := by
    intro x h
    obtain ⟨t', hx, h⟩ := bind_eq_ok.mp h
    cases h
    exact ⟨rfl, hx⟩
  cases kind with
  | crashContext =>
    obtain ⟨⟨⟩, hsize, h⟩ := bind_eq_ok.mp h
    exact ⟨(hrest h).1, (hrest h).2, fun _ => refuse_eq_ok.mp hsize⟩
  | minidump | log | unknown => exact ⟨(hrest h).1, (hrest h).2, nofun⟩

theorem readContents_iff {xmlParser : XmlParser} {limits : CrashRequestLimits}
    {s s' : InspectedFiles} {name : String} {kind : CrashRequestFileKind} {size : Nat}
    {r t : ExpandedReader} (hr : Inv r) :
    readContents xmlParser limits false false s name kind size r = .ok (s', t) ↔
      s' = s ∧ (kind = .crashContext → size ≤ limits.crashContextBytes) ∧
        ∃ data, data.length = size ∧ Steps r data t := by
  constructor
  · intro h
    obtain ⟨hs, hd, hsize⟩ := readContents_discards h
    exact ⟨hs, fun hk => Nat.le_of_not_lt (hsize hk), (discard_iff hr).mp hd⟩
  · rintro ⟨rfl, hsize, hdata⟩
    have hd := (discard_iff hr).mpr hdata
    cases kind with
    | crashContext =>
      simp [readContents, refuse_of_not (Nat.not_lt.mpr (hsize rfl)), hd]
    | minidump | log | unknown => simp [readContents, hd]

structure FileFits (limits : CrashRequestLimits) (e : Entry) : Prop where
  file_le : e.data.length ≤ limits.fileBytes
  context_le : e.kind = .crashContext → e.data.length ≤ limits.crashContextBytes

def criticalKinds (es : List Entry) : List CrashRequestFileKind :=
  (es.map Entry.kind).filter isCritical

/-- The names and critical kinds of `es` are distinct, and not among those gathered. -/
structure Distinct (s : InspectedFiles) (es : List Entry) : Prop where
  keys : (es.map Entry.key).Nodup
  keys_new : ∀ e ∈ es, e.key ∉ s.filenames
  critical : (criticalKinds es).Nodup
  critical_new : ∀ kind ∈ criticalKinds es, kind ∉ s.criticalFiles

def InspectedFiles.list (s : InspectedFiles) (index : Nat) (e : Entry) : InspectedFiles :=
  { s with files := s.files ++ [⟨index, e.name.text, e.data.length, e.kind⟩] }

theorem claim_iff {s s' : InspectedFiles} {e : Entry} :
    s.claim e.name.text e.kind = .ok s' ↔
      ¬ (isCritical e.kind ∧ e.kind ∈ s.criticalFiles) ∧ e.key ∉ s.filenames ∧
        s' = { s with
          criticalFiles := if isCritical e.kind then e.kind :: s.criticalFiles else s.criticalFiles
          filenames := e.key :: s.filenames } := by
  unfold InspectedFiles.claim
  simp only [bind_eq_ok, refuse_eq_ok, pure_eq_ok, Except.ok.injEq]
  constructor
  · rintro ⟨_, hc, _, hn, rfl⟩
    exact ⟨hc, hn, rfl⟩
  · rintro ⟨hc, hn, rfl⟩
    exact ⟨(), hc, (), hn, rfl⟩

theorem criticalKinds_cons (e : Entry) (es : List Entry) :
    criticalKinds (e :: es) =
      if isCritical e.kind then e.kind :: criticalKinds es else criticalKinds es := by
  simp [criticalKinds, List.filter_cons]

theorem distinct_cons {s : InspectedFiles} {e : Entry} {es : List Entry} :
    Distinct s (e :: es) ↔ ∃ s', s.claim e.name.text e.kind = .ok s' ∧ Distinct s' es := by
  constructor
  · rintro ⟨hk, hkn, hc, hcn⟩
    rw [List.map_cons, List.nodup_cons] at hk
    rw [criticalKinds_cons] at hc hcn
    refine ⟨_, claim_iff.mpr ⟨?_, hkn e List.mem_cons_self, rfl⟩, hk.2, ?_, ?_, ?_⟩
    · rintro ⟨hcrit, hmem⟩
      rw [if_pos hcrit] at hcn
      exact hcn _ List.mem_cons_self hmem
    · intro f hf hmem
      rcases List.mem_cons.mp hmem with heq | hmem
      · exact hk.1 (heq ▸ List.mem_map_of_mem hf)
      · exact hkn f (List.mem_cons_of_mem _ hf) hmem
    · split_ifs at hc with hcrit
      · exact (List.nodup_cons.mp hc).2
      · exact hc
    · intro kind hkind
      dsimp only
      split_ifs at hc hcn ⊢ with hcrit
      · rw [List.mem_cons]
        rintro (rfl | hmem)
        · exact (List.nodup_cons.mp hc).1 hkind
        · exact hcn kind (List.mem_cons_of_mem _ hkind) hmem
      · exact hcn kind hkind
  · rintro ⟨s', hs', hk, hkn, hc, hcn⟩
    obtain ⟨hcrit, hname, rfl⟩ := claim_iff.mp hs'
    refine ⟨?_, ?_, ?_, ?_⟩
    · rw [List.map_cons, List.nodup_cons]
      refine ⟨fun hmem => ?_, hk⟩
      obtain ⟨f, hf, hfe⟩ := List.mem_map.mp hmem
      exact hkn f hf (hfe ▸ List.mem_cons_self)
    · intro f hf hmem
      rcases List.mem_cons.mp hf with rfl | hf
      · exact hname hmem
      · exact hkn f hf (List.mem_cons_of_mem _ hmem)
    · rw [criticalKinds_cons]
      split_ifs with h
      · refine List.nodup_cons.mpr ⟨fun hmem => hcn _ hmem ?_, hc⟩
        simp [h]
      · exact hc
    · rw [criticalKinds_cons]
      intro kind hkind hmem
      split_ifs at hkind with h
      · rcases List.mem_cons.mp hkind with rfl | hkind
        · exact hcrit ⟨h, hmem⟩
        · exact hcn kind hkind (by simp [h, hmem])
      · exact hcn kind hkind (by simp [h, hmem])

section Files
variable (xmlParser : XmlParser) (limits : CrashRequestLimits)

theorem inspectFile_iff {index : Nat} {s s' : InspectedFiles} {r t : ExpandedReader}
    (hr : Inv r) :
    inspectFile xmlParser limits false false index s r = .ok (s', t) ↔
      index < countLimit ∧ ∃ e, FileFits limits e ∧ Steps r (encodeEntry index e) t ∧
        ∃ s₁, s.claim e.name.text e.kind = .ok s₁ ∧ s' = InspectedFiles.list s₁ index e := by
  constructor
  · intro h
    obtain ⟨⟨found, r₁⟩, h₁, h⟩ := bind_eq_ok.mp h
    obtain ⟨_, hindex, h⟩ := bind_eq_ok.mp h
    obtain ⟨⟨text, r₂⟩, h₂, h⟩ := bind_eq_ok.mp h
    obtain ⟨s₁, hs₁, h⟩ := bind_eq_ok.mp h
    obtain ⟨⟨size, r₃⟩, h₃, h⟩ := bind_eq_ok.mp h
    obtain ⟨_, hsize, h⟩ := bind_eq_ok.mp h
    obtain ⟨⟨s₂, r₄⟩, h₄, h⟩ := bind_eq_ok.mp h
    cases h
    obtain rfl : found = index := not_not.mp (refuse_eq_ok.mp hindex)
    obtain ⟨hlt, hi⟩ := (readCount_iff hr).mp h₁
    obtain ⟨name, rfl, hn⟩ := readAnsiField_encoded hi.inv' h₂
    obtain ⟨hsized, hs⟩ := (readCount_iff hn.inv').mp h₃
    obtain ⟨rfl, hcontext, data, rfl, hd⟩ := (readContents_iff hs.inv').mp h₄
    exact ⟨hlt, ⟨name, data, hsized⟩, ⟨Nat.le_of_not_lt (refuse_eq_ok.mp hsize), hcontext⟩,
      hi.trans (hn.trans (hs.trans hd)), s₂, hs₁, rfl⟩
  · rintro ⟨hlt, e, hfits, hsteps, s₁, hs₁, rfl⟩
    obtain ⟨r₁, hi, hrest⟩ := steps_append.mp hsteps
    obtain ⟨r₂, hn, hrest⟩ := steps_append.mp hrest
    obtain ⟨r₃, hs, hd⟩ := steps_append.mp hrest
    have hcontents : readContents xmlParser limits false false s₁ e.name.text e.kind e.data.length
        r₃ = .ok (s₁, t) :=
      (readContents_iff hs.inv').mpr ⟨rfl, hfits.context_le, e.data, rfl, hd⟩
    have hkind : fileKind e.name.text = e.kind := rfl
    unfold inspectFile
    simp only [(readCount_iff hr).mpr ⟨hlt, hi⟩, ok_bind, refuse_of_not (not_not.mpr rfl),
      readAnsiField_ok hn, hkind, hs₁, (readCount_iff hn.inv').mpr ⟨e.sized, hs⟩,
      refuse_of_not (Nat.not_lt.mpr hfits.file_le), hcontents, pure_eq_ok]
    rfl

theorem list_distinct {s : InspectedFiles} {index : Nat} {e : Entry} {es : List Entry} :
    Distinct (InspectedFiles.list s index e) es ↔ Distinct s es :=
  ⟨fun ⟨hk, hkn, hc, hcn⟩ => ⟨hk, hkn, hc, hcn⟩, fun ⟨hk, hkn, hc, hcn⟩ => ⟨hk, hkn, hc, hcn⟩⟩

theorem claim_list_files {s s₁ : InspectedFiles} {index : Nat} {e : Entry}
    (h : s.claim e.name.text e.kind = .ok s₁) (rest : List Entry) :
    (InspectedFiles.list s₁ index e).files ++ listedFiles (index + 1) rest =
      s.files ++ listedFiles index (e :: rest) := by
  obtain ⟨-, -, rfl⟩ := claim_iff.mp h
  simp [InspectedFiles.list, listedFiles]

/-- Induction on the files still to come: each one read is the next entry. -/
theorem inspectFiles_encoded (remaining : Nat) {index : Nat} {s s' : InspectedFiles}
    {r t : ExpandedReader} (hr : Inv r)
    (h : inspectFiles xmlParser limits false false remaining index s r = .ok (s', t)) :
    ∃ es : List Entry, es.length = remaining ∧ (∀ e ∈ es, FileFits limits e) ∧ Distinct s es ∧
      Steps r (encodeEntries index es) t ∧ s'.files = s.files ++ listedFiles index es := by
  induction remaining generalizing index s r with
  | zero =>
    cases h
    exact ⟨[], rfl, nofun, ⟨List.nodup_nil, nofun, List.nodup_nil, nofun⟩, Steps.nil hr,
      (List.append_nil _).symm⟩
  | succ remaining ih =>
    obtain ⟨⟨s₁, r₁⟩, h₁, h⟩ := bind_eq_ok.mp h
    obtain ⟨-, e, hfits, hsteps, s₂, hclaim, rfl⟩ := (inspectFile_iff xmlParser limits hr).mp h₁
    obtain ⟨es, hlen, hall, hdistinct, hrest, hfiles⟩ := ih hsteps.inv' h
    refine ⟨e :: es, by rw [List.length_cons, hlen], List.forall_mem_cons.mpr ⟨hfits, hall⟩,
      distinct_cons.mpr ⟨s₂, hclaim, list_distinct.mp hdistinct⟩, hsteps.trans hrest, ?_⟩
    rw [hfiles, claim_list_files hclaim]

theorem inspectFiles_ok {index : Nat} {s : InspectedFiles} {r t : ExpandedReader}
    {es : List Entry} (hlt : index + es.length ≤ countLimit) (hall : ∀ e ∈ es, FileFits limits e)
    (hdistinct : Distinct s es) (hsteps : Steps r (encodeEntries index es) t) :
    ∃ s', inspectFiles xmlParser limits false false es.length index s r = .ok (s', t) ∧
      s'.files = s.files ++ listedFiles index es := by
  induction es generalizing index s r with
  | nil =>
    refine ⟨s, ?_, (List.append_nil _).symm⟩
    rw [hsteps.reached]
    exact congrArg (fun r => Except.ok (s, r)) (skip_zero r).symm
  | cons e es ih =>
    obtain ⟨r₁, hentry, hrest⟩ := steps_append.mp hsteps
    obtain ⟨s₁, hclaim, hdistinct⟩ := distinct_cons.mp hdistinct
    rw [List.length_cons] at hlt
    have hfile := (inspectFile_iff xmlParser limits hsteps.inv).mpr
      ⟨by omega, e, hall e List.mem_cons_self, hentry, s₁, hclaim, rfl⟩
    obtain ⟨s', hs', hfiles⟩ := ih (by omega) (fun f hf => hall f (List.mem_cons_of_mem _ hf))
      (list_distinct.mpr hdistinct) hrest
    refine ⟨s', bind_eq_ok.mpr ⟨_, hfile, hs'⟩, ?_⟩
    rw [hfiles, claim_list_files hclaim]

end Files

/-- The source delivers the bytes in whatever pieces, ends after them, and nothing follows
the compressed stream. -/
def transparent (chunks : List (List UInt8)) (compressedSize : Nat) : CrashRequestStream :=
  ⟨⟨chunks, none⟩, compressedSize, .ok []⟩

theorem criticalKinds_nodup_iff (es : List Entry) :
    (criticalKinds es).Nodup ↔ (es.map Entry.kind).count .crashContext ≤ 1 ∧
      (es.map Entry.kind).count .minidump ≤ 1 := by
  rw [List.nodup_iff_count_le_one]
  unfold criticalKinds
  constructor
  · intro h
    have hc := h .crashContext
    have hm := h .minidump
    rw [List.count_filter rfl] at hc hm
    exact ⟨hc, hm⟩
  · rintro ⟨hc, hm⟩ kind
    by_cases hk : isCritical kind = true
    · rw [List.count_filter hk]
      cases kind with
      | crashContext => exact hc
      | minidump => exact hm
      | log | unknown => exact absurd hk (by decide)
    · rw [List.count_eq_zero.mpr fun hmem => hk (List.mem_filter.mp hmem).2]
      exact Nat.zero_le 1

theorem distinct_empty_iff (es : List Entry) :
    Distinct .empty es ↔ (es.map Entry.key).Nodup ∧
      (es.map Entry.kind).count .crashContext ≤ 1 ∧
      (es.map Entry.kind).count .minidump ≤ 1 := by
  rw [← criticalKinds_nodup_iff]
  exact ⟨fun h => ⟨h.keys, h.critical⟩, fun h => ⟨h.1, nofun, h.2, nofun⟩⟩

theorem encodeBody_length (total : Nat) (a : Archive) : (encodeBody total a).length = a.size := by
  simp only [Archive.size, encodeBody, List.length_append, le32_length]

def start (limits : CrashRequestLimits) (chunks : List (List UInt8)) : ExpandedReader :=
  ⟨⟨chunks, none⟩, limits.expandedBytes, 0⟩

theorem start_inv (limits : CrashRequestLimits) (chunks : List (List UInt8)) :
    Inv (start limits chunks) := Nat.zero_le _

theorem readExtra_end {r : ExpandedReader} (hr : Inv r) (ha : avail r = [])
    (he : ending r = none) : ∃ t, readExtra r = .ok ([], t) ∧ t.bytesRead = r.bytesRead := by
  have h := read_end r 1 hr Nat.one_pos ha
  rw [he] at h
  obtain ⟨t, ht, hb⟩ := h
  exact ⟨t, by rw [readExtra, ht], hb⟩

theorem end_of_readExtra {r t : ExpandedReader} (hr : Inv r) (h : readExtra r = .ok ([], t)) :
    avail r = [] ∧ ending r = none ∧ t.bytesRead = r.bytesRead := by
  by_cases ha : avail r = []
  · have hread := read_end r 1 hr Nat.one_pos ha
    cases he : ending r with
    | none =>
      obtain ⟨t', ht', hb⟩ := readExtra_end hr ha he
      rw [h] at ht'
      cases ht'
      exact ⟨ha, rfl, hb⟩
    | some kind =>
      rw [he] at hread
      rw [readExtra, hread] at h
      cases h
  · obtain ⟨k, hk, -, -, hread⟩ := read_more r 1 hr Nat.one_pos ha
    rw [readExtra, hread] at h
    simp [ha, hk.ne'] at h

theorem content_eq_of_end {limits : CrashRequestLimits} {chunks : List (List UInt8)}
    {bytes : List UInt8} {t : ExpandedReader} (h : Steps (start limits chunks) bytes t)
    (ha : avail t = []) (he : ending t = none) : chunks.flatten = bytes := by
  have hsplit : chunks.flatten.take limits.expandedBytes = bytes := by
    rw [← List.append_nil bytes, ← ha, ← h.split]
    rfl
  have hle : bytes.length ≤ (avail (start limits chunks)).length := by rw [h.split]; simp
  rw [h.reached, ending_skip _ _ (start_inv limits chunks) hle] at he
  unfold ending at he
  split_ifs at he with hlt
  have hfits : chunks.flatten.length ≤ limits.expandedBytes := Nat.le_of_not_lt hlt
  rw [← hsplit, List.take_of_length_le hfits]

theorem steps_start {limits : CrashRequestLimits} {chunks : List (List UInt8)}
    (h : chunks.flatten.length ≤ limits.expandedBytes) :
    ∃ t, Steps (start limits chunks) chunks.flatten t ∧ avail t = [] ∧ ending t = none := by
  have ha : avail (start limits chunks) = chunks.flatten ++ [] := by
    rw [List.append_nil]
    exact List.take_of_length_le h
  obtain ⟨hs, hend⟩ := steps_of_avail (start_inv limits chunks) ha
  refine ⟨_, hs, hend, ?_⟩
  rw [ending_skip _ _ (start_inv limits chunks) (by rw [ha, List.append_nil])]
  exact if_neg (Nat.not_lt.mpr h)

section Envelope
variable (xmlParser : XmlParser) {limits : CrashRequestLimits} {chunks : List (List UInt8)}
  (compressedSize : Nat)

theorem inspectCrashEnvelope_encoded {manifest : CrashRequestManifest}
    (hok : inspectCrashEnvelope xmlParser limits (transparent chunks compressedSize) =
      .ok manifest) :
    ∃ a, Admissible limits a ∧ chunks.flatten = encode a ∧
      manifest = manifestOf compressedSize a := by
  obtain ⟨contents, h, hm⟩ := bind_eq_ok.mp hok
  cases hm
  obtain ⟨⟨magic, r₁⟩, h₁, h⟩ := bind_eq_ok.mp h
  obtain ⟨_, hmagic, h⟩ := bind_eq_ok.mp h
  obtain ⟨⟨directoryText, r₂⟩, h₂, h⟩ := bind_eq_ok.mp h
  obtain ⟨⟨archiveText, r₃⟩, h₃, h⟩ := bind_eq_ok.mp h
  obtain ⟨⟨total, r₄⟩, h₄, h⟩ := bind_eq_ok.mp h
  obtain ⟨_, htotal, h⟩ := bind_eq_ok.mp h
  obtain ⟨⟨count, r₅⟩, h₅, h⟩ := bind_eq_ok.mp h
  obtain ⟨_, hcount, h⟩ := bind_eq_ok.mp h
  obtain ⟨⟨s, r₆⟩, h₆, h⟩ := bind_eq_ok.mp h
  obtain ⟨⟨extra, r₇⟩, h₇, h⟩ := bind_eq_ok.mp h
  obtain ⟨_, hextra, h⟩ := bind_eq_ok.mp h
  obtain ⟨_, hsize, h⟩ := bind_eq_ok.mp h
  obtain ⟨_, -, h⟩ := bind_eq_ok.mp h
  cases h
  obtain rfl : magic = envelopeMagic := not_not.mp (refuse_eq_ok.mp hmagic)
  obtain rfl : extra = [] := not_not.mp (refuse_eq_ok.mp hextra)
  obtain rfl : r₇.bytesRead = total := not_not.mp (refuse_eq_ok.mp hsize)
  obtain ⟨-, s₁⟩ := (readExact_iff (start_inv limits chunks)).mp h₁
  obtain ⟨directoryName, rfl, s₂⟩ := readAnsiField_encoded s₁.inv' h₂
  obtain ⟨archiveName, rfl, s₃⟩ := readAnsiField_encoded s₂.inv' h₃
  obtain ⟨hsize_lt, s₄⟩ := (readCount_iff s₃.inv').mp h₄
  obtain ⟨hcount_lt, s₅⟩ := (readCount_iff s₄.inv').mp h₅
  obtain ⟨es, rfl, hfits, hdistinct, s₆, hfiles⟩ :=
    inspectFiles_encoded xmlParser limits count s₅.inv' h₆
  obtain ⟨hend, hending, hread⟩ := end_of_readExtra s₆.inv' h₇
  have hsteps : Steps (start limits chunks)
      (encodeBody r₇.bytesRead ⟨directoryName, archiveName, es⟩) r₆ :=
    s₁.trans (s₂.trans (s₃.trans (s₄.trans (s₅.trans s₆))))
  have htotal_eq : r₇.bytesRead = Archive.size ⟨directoryName, archiveName, es⟩ := by
    rw [hread, hsteps.bytesRead, encodeBody_length]
    exact Nat.zero_add _
  obtain ⟨hkeys, hcontext, hminidump⟩ := (distinct_empty_iff es).mp hdistinct
  refine ⟨⟨directoryName, archiveName, es⟩, ?_, ?_, ?_⟩
  · exact {
      size_lt := htotal_eq ▸ hsize_lt
      size_le := htotal_eq ▸ Nat.le_of_not_lt (refuse_eq_ok.mp htotal)
      count_lt := hcount_lt
      count_le := Nat.le_of_not_lt (refuse_eq_ok.mp hcount)
      file_le := fun e he => (hfits e he).file_le
      context_le := fun e he => (hfits e he).context_le
      names_distinct := hkeys
      one_context := hcontext
      one_minidump := hminidump }
  · rw [content_eq_of_end hsteps hend hending, htotal_eq, encode]
  · simp only [manifestOf, hfiles, htotal_eq, InspectedFiles.empty, List.nil_append]
    rfl

theorem inspectCrashEnvelope_encode {a : Archive} (ha : Admissible limits a)
    (hb : chunks.flatten = encode a) :
    inspectCrashEnvelope xmlParser limits (transparent chunks compressedSize) =
      .ok (manifestOf compressedSize a) := by
  have hstart : Inv ⟨⟨chunks, none⟩, limits.expandedBytes, 0⟩ := start_inv limits chunks
  have hlen : (encode a).length = a.size := encodeBody_length a.size a
  have hfits : chunks.flatten.length ≤ limits.expandedBytes := by
    rw [hb, hlen]
    exact ha.size_le
  obtain ⟨t, hsteps, hend, hending⟩ := steps_start hfits
  have hread : t.bytesRead = a.size := by
    rw [hsteps.bytesRead, hb, hlen]
    exact Nat.zero_add _
  rw [hb] at hsteps
  obtain ⟨r₁, s₁, hrest⟩ := steps_append.mp hsteps
  obtain ⟨r₂, s₂, hrest⟩ := steps_append.mp hrest
  obtain ⟨r₃, s₃, hrest⟩ := steps_append.mp hrest
  obtain ⟨r₄, s₄, hrest⟩ := steps_append.mp hrest
  obtain ⟨r₅, s₅, s₆⟩ := steps_append.mp hrest
  obtain ⟨s', hs', hfiles⟩ := inspectFiles_ok xmlParser limits
    (by rw [Nat.zero_add]; exact ha.count_lt.le)
    (fun e he => ⟨ha.file_le e he, ha.context_le e he⟩)
    ((distinct_empty_iff a.entries).mpr ⟨ha.names_distinct, ha.one_context, ha.one_minidump⟩) s₆
  obtain ⟨t', ht', hb'⟩ := readExtra_end s₆.inv' hend hending
  have hmagic := (readExact_iff hstart).mpr ⟨rfl, s₁⟩
  unfold inspectCrashEnvelope decodeCrashRequest
  simp only [transparent, hmagic, ok_bind, refuse_of_not (not_not.mpr rfl), readAnsiField_ok s₂,
    readAnsiField_ok s₃, (readCount_iff s₃.inv').mpr ⟨ha.size_lt, s₄⟩,
    refuse_of_not (Nat.not_lt.mpr ha.size_le), (readCount_iff s₄.inv').mpr ⟨ha.count_lt, s₅⟩,
    refuse_of_not (Nat.not_lt.mpr ha.count_le), hs', ht', hb', hread, finishStream, pure_eq_ok,
    hfiles]
  rfl

end Envelope

/-- The envelope check accepts the encodings of the admissible archives and nothing else, and
returns the manifest of the archive. -/
theorem inspectCrashEnvelope_iff (xmlParser : XmlParser) (limits : CrashRequestLimits)
    (chunks : List (List UInt8)) (compressedSize : Nat) (manifest : CrashRequestManifest) :
    inspectCrashEnvelope xmlParser limits (transparent chunks compressedSize) = .ok manifest ↔
      ∃ a, Admissible limits a ∧ chunks.flatten = encode a ∧
        manifest = manifestOf compressedSize a := by
  constructor
  · exact inspectCrashEnvelope_encoded xmlParser compressedSize
  · rintro ⟨a, ha, hb, rfl⟩
    exact inspectCrashEnvelope_encode xmlParser compressedSize ha hb

end FaultLane.CrashRequestGrammar

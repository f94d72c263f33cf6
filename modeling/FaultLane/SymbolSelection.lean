import FaultLane.ArtifactMatching

set_option autoImplicit false

/-!
# Hosted selection of PDBs and local matching

A crash job selects PDBs by their printed debug identifiers, a local scan pairs them with an
executable by GUID, age and original age. A printed identifier says what its GUID and age are,
and nothing of the original age.
-/
namespace FaultLane.SymbolSelection
open CrashSymbols (ArtifactType SelectedArtifact ModuleIdentity sameIgnoringCase)
open DumpSymbolication ArtifactMatching RustText

/-! ## Hexadecimal digits -/

def hexDigitValue (c : Char) : Nat := if c.isDigit then c.toNat - 0x30 else c.toNat - 0x37

def hexValue (digits : List Char) : Nat :=
  digits.foldl (fun acc c => acc * 16 + hexDigitValue c) 0

theorem upper_digitChar : ∀ d < 16,
    hexDigitValue (Nat.digitChar d).toUpper = d ∧ (Nat.digitChar d).toUpper ≠ '-' := by
  decide

theorem hexDigits_of_lt {n : Nat} (h : n < 16) : hexDigits n = [(Nat.digitChar n).toUpper] := by
  unfold hexDigits
  rw [Nat.toDigits_of_lt_base h, List.map_singleton]

theorem hexDigits_of_le {n : Nat} (h : 16 ≤ n) :
    hexDigits n = hexDigits (n / 16) ++ [(Nat.digitChar (n % 16)).toUpper] := by
  unfold hexDigits
  rw [Nat.toDigits_of_base_le (by decide) h, List.map_append, List.map_singleton]

/-- Induction on the number without its last digit. -/
theorem hexValue_hexDigits (n : Nat) : hexValue (hexDigits n) = n := by
  induction n using Nat.strong_induction_on with
  | h n ih =>
    by_cases h : n < 16
    · rw [hexDigits_of_lt h]
      have hvalue := (upper_digitChar n h).1
      simp only [hexValue, List.foldl_cons, List.foldl_nil, hvalue]
      omega
    · have hrest := ih (n / 16) (by omega)
      have hvalue := (upper_digitChar (n % 16) (by omega)).1
      rw [hexDigits_of_le (by omega)]
      unfold hexValue at hrest ⊢
      rw [List.foldl_append, hrest, List.foldl_cons, List.foldl_nil, hvalue]
      omega

theorem hexDigits_injective {m n : Nat} (h : hexDigits m = hexDigits n) : m = n := by
  rw [← hexValue_hexDigits m, h, hexValue_hexDigits]

theorem dash_not_mem_hexDigits (n : Nat) : '-' ∉ hexDigits n := by
  induction n using Nat.strong_induction_on with
  | h n ih =>
    by_cases h : n < 16
    · rw [hexDigits_of_lt h, List.mem_singleton]
      exact (upper_digitChar n h).2.symm
    · rw [hexDigits_of_le (by omega), List.mem_append, List.mem_singleton]
      rintro (hmem | heq)
      · exact ih (n / 16) (by omega) hmem
      · exact (upper_digitChar (n % 16) (by omega)).2 heq.symm

/-! ## Printed bytes -/

def hexByte (byte : UInt8) : List Char := paddedHex 2 byte.toNat

theorem length_hexByte (byte : UInt8) : (hexByte byte).length = 2 := by
  have hlen : (hexDigits byte.toNat).length ≤ 2 := by
    unfold hexDigits
    rw [List.length_map]
    exact (Nat.length_toDigits_le_iff (by decide) (by decide)).mpr byte.toNat_lt
  unfold hexByte paddedHex
  rw [List.length_append, List.length_replicate]
  omega

theorem hexValue_replicate (count : Nat) (digits : List Char) :
    hexValue (List.replicate count '0' ++ digits) = hexValue digits := by
  induction count with
  | zero => rfl
  | succ count ih =>
    rw [List.replicate_succ, List.cons_append, ← ih]
    rfl

theorem hexByte_injective {a b : UInt8} (h : hexByte a = hexByte b) : a = b := by
  have hvalue := congrArg hexValue h
  unfold hexByte paddedHex at hvalue
  rw [hexValue_replicate, hexValue_replicate, hexValue_hexDigits, hexValue_hexDigits] at hvalue
  exact UInt8.toNat_inj.mp hvalue

theorem dash_not_mem_hexByte (byte : UInt8) : '-' ∉ hexByte byte := by
  unfold hexByte paddedHex
  rw [List.mem_append]
  rintro (hmem | hmem)
  · exact absurd (List.eq_of_mem_replicate hmem) (by decide)
  · exact dash_not_mem_hexDigits _ hmem

def hexBytes (bytes : List UInt8) : List Char := bytes.flatMap hexByte

theorem length_hexBytes (bytes : List UInt8) : (hexBytes bytes).length = 2 * bytes.length := by
  induction bytes with
  | nil => rfl
  | cons byte bytes ih =>
    unfold hexBytes at ih ⊢
    rw [List.flatMap_cons, List.length_append, length_hexByte, ih, List.length_cons]
    omega

theorem hexBytes_injective {as bs : List UInt8} (h : hexBytes as = hexBytes bs) : as = bs := by
  induction as generalizing bs with
  | nil =>
    have hlen := congrArg List.length h
    rw [length_hexBytes, length_hexBytes, List.length_nil] at hlen
    exact (List.length_eq_zero_iff.mp (by omega)).symm
  | cons a as ih =>
    cases bs with
    | nil =>
      have hlen := congrArg List.length h
      rw [length_hexBytes, length_hexBytes, List.length_nil, List.length_cons] at hlen
      omega
    | cons b bs =>
      have hsplit : hexByte a ++ hexBytes as = hexByte b ++ hexBytes bs := h
      obtain ⟨hhead, htail⟩ := List.append_inj hsplit
        ((length_hexByte a).trans (length_hexByte b).symm)
      rw [hexByte_injective hhead, ih htail]

theorem dash_not_mem_hexBytes (bytes : List UInt8) : '-' ∉ hexBytes bytes := by
  intro hmem
  obtain ⟨byte, -, hbyte⟩ := List.mem_flatMap.mp hmem
  exact dash_not_mem_hexByte byte hbyte

/-! ## Debug identifiers -/

theorem drop_eq_take_append {α : Type} (l : List α) (start count : Nat) :
    l.drop start = (l.drop start).take count ++ l.drop (start + count) := by
  rw [← List.drop_drop, List.take_append_drop]

/-- The groups of an identifier, put together. -/
theorem groups_of_guid {l : List UInt8} (h : l.length = 16) :
    hexBytes l = hexBytes ((l.drop 0).take 4) ++ (hexBytes ((l.drop 4).take 2) ++
      (hexBytes ((l.drop 6).take 2) ++ (hexBytes ((l.drop 8).take 2) ++
        hexBytes ((l.drop 10).take 6)))) := by
  have hlast : (l.drop 10).take 6 = l.drop 10 :=
    List.take_of_length_le (by rw [List.length_drop, h])
  have hbytes : l = (l.drop 0).take 4 ++ ((l.drop 4).take 2 ++ ((l.drop 6).take 2 ++
      ((l.drop 8).take 2 ++ (l.drop 10).take 6))) := by
    rw [hlast, ← drop_eq_take_append l 8 2, ← drop_eq_take_append l 6 2,
      ← drop_eq_take_append l 4 2, ← drop_eq_take_append l 0 4, List.drop_zero]
  conv_lhs => rw [hbytes]
  unfold hexBytes
  simp only [List.flatMap_append]

theorem filter_dash {digits : List Char} (h : '-' ∉ digits) :
    digits.filter (· ≠ '-') = digits := by
  rw [List.filter_eq_self]
  intro c hc
  rw [decide_eq_true_eq]
  rintro rfl
  exact h hc

/-- The identifier without its dashes. -/
theorem undashed_formatDebugId (guid : Guid) (age : UInt32) :
    (formatDebugId guid age).toList.filter (· ≠ '-') =
      hexBytes guid.toList ++ hexDigits age.toNat := by
  have hgroup : ∀ bytes : List UInt8,
      (bytes.flatMap fun byte => paddedHex 2 byte.toNat).filter (· ≠ '-') = hexBytes bytes :=
    fun bytes => filter_dash (dash_not_mem_hexBytes bytes)
  have hage := filter_dash (dash_not_mem_hexDigits age.toNat)
  have hdash : ∀ rest : List Char,
      ('-' :: rest).filter (· ≠ '-') = rest.filter (· ≠ '-') := fun rest => rfl
  rw [groups_of_guid guid.length_toList]
  unfold formatDebugId
  simp only [String.toList_ofList, List.intercalate, List.intersperse, List.flatten_cons,
    List.flatten_nil, List.append_nil, List.cons_append, List.nil_append, List.filter_append,
    hdash, hgroup, hage, List.append_assoc]

/-- An identifier determines its GUID and its age. -/
theorem formatDebugId_inj {guid guid' : Guid} {age age' : UInt32} :
    formatDebugId guid age = formatDebugId guid' age' ↔ guid = guid' ∧ age = age' := by
  constructor
  · intro h
    have hdigits := congrArg (fun s : String => s.toList.filter (· ≠ '-')) h
    rw [undashed_formatDebugId, undashed_formatDebugId] at hdigits
    have hlen : (hexBytes guid.toList).length = (hexBytes guid'.toList).length := by
      rw [length_hexBytes, length_hexBytes, guid.length_toList, guid'.length_toList]
    obtain ⟨hguid, hage⟩ := List.append_inj hdigits hlen
    exact ⟨Vector.toList_inj.mp (hexBytes_injective hguid),
      UInt32.toNat_inj.mp (hexDigits_injective hage)⟩
  · rintro ⟨rfl, rfl⟩
    rfl

/-! ## Indexed artifacts -/

/-- What the parser of its format reads of a file. -/
inductive Reading where
  | pe (pe : PeReading)
  | pdb (pdb : PdbReading)
  deriving DecidableEq

/-- A stored object, the file behind it and what was read of the file. -/
structure IndexedArtifact where
  objectId : String
  objectKey : String
  checksum : List UInt8
  byteSize : Int
  file : ArtifactFile
  reading : Reading

def Reading.pdb? : Reading → Option PdbReading
  | .pdb reading => some reading
  | .pe _ => none

section
variable (a : IndexedArtifact)

/-- The artifact in a local scan. -/
def IndexedArtifact.parsed : ParsedArtifact :=
  match a.reading with
  | .pe pe => parsedPe a.file pe
  | .pdb pdb => parsedPdb a.file pdb

/-- The artifact as the crash job reads it from the tables. -/
def IndexedArtifact.selected : SelectedArtifact where
  objectId := a.objectId
  objectKey := a.objectKey
  checksum := a.checksum
  byteSize := a.byteSize
  artifactType := a.parsed.record.artifactType.text
  moduleName := a.parsed.record.module
  architecture := (a.parsed.record.architecture.map Architecture.text).getD ""
  debugId := a.parsed.record.debugId.getD ""
  codeId := a.parsed.record.codeId

end

/-- The PDBs that the crash job selects for a module. -/
def hostedPdbs (artifacts : List IndexedArtifact) (module : ModuleIdentity)
    (architecture : String) : List IndexedArtifact :=
  artifacts.filter fun a => a.reading.pdb?.isSome && a.selected.matchesModule module architecture

/-- The PDBs that a local scan pairs with an executable. -/
def localPdbs (artifacts : List IndexedArtifact) (executable : IndexedArtifact) :
    List IndexedArtifact :=
  artifacts.filter fun a => a.reading.pdb?.isSome && compatible executable.parsed a.parsed

/-- No PDB of the executable's build has a later age over the executable's original age, and none
of its age has another original age. -/
def AgesAgree (artifacts : List IndexedArtifact) (pe : PeReading) : Prop :=
  ∀ a ∈ artifacts, ∀ pdb ∈ a.reading.pdb?, pdb.architecture = pe.architecture →
    pdb.guid = pe.guid → (pe.age < pdb.age → pdb.originalAge ≠ pe.age) ∧
      (pdb.age = pe.age → pdb.originalAge = pe.age)

section
variable {a executable : IndexedArtifact} {pe : PeReading} {pdb : PdbReading}
  {module : ModuleIdentity} {architecture : String}

theorem sameIgnoringCase_text {x y : Architecture}
    (hx : sameIgnoringCase x.text architecture = true) :
    sameIgnoringCase y.text architecture = true ↔ y = x := by
  unfold sameIgnoringCase eqIgnoreAsciiCase at hx ⊢
  rw [← eq_of_beq hx]
  cases x <;> cases y <;> decide

/-- A module whose executable is selected names its identifier. -/
theorem matchesModule_pe (hpe : executable.reading = .pe pe)
    (h : executable.selected.matchesModule module architecture = true) :
    sameIgnoringCase pe.architecture.text architecture = true ∧
      module.debugId = some (formatDebugId pe.guid pe.age) := by
  have hparsed : executable.parsed = parsedPe executable.file pe := by
    unfold IndexedArtifact.parsed
    rw [hpe]
  have hkind : (executable.selected.artifactType == "pdb") = false := by
    unfold IndexedArtifact.selected
    rw [hparsed]
    cases hdll : pe.dynamicLibrary <;> simp [parsedPe, hdll, ArtifactType.text]
  have harchitecture : executable.selected.architecture = pe.architecture.text := by
    unfold IndexedArtifact.selected
    rw [hparsed]
    rfl
  have hdebugId : executable.selected.debugId = formatDebugId pe.guid pe.age := by
    unfold IndexedArtifact.selected
    rw [hparsed]
    rfl
  unfold SelectedArtifact.matchesModule at h
  rw [hkind, harchitecture, hdebugId] at h
  simp only [Bool.false_eq_true, if_false, Bool.and_eq_true, beq_iff_eq] at h
  exact ⟨h.1, h.2.1.2⟩

theorem matchesModule_pdb (hpdb : a.reading = .pdb pdb) :
    a.selected.matchesModule module architecture = true ↔
      sameIgnoringCase pdb.architecture.text architecture = true ∧
        module.debugId = some (formatDebugId pdb.guid pdb.age) := by
  have hparsed : a.parsed = parsedPdb a.file pdb := by
    unfold IndexedArtifact.parsed
    rw [hpdb]
  have hkind : (a.selected.artifactType == "pdb") = true := by
    unfold IndexedArtifact.selected
    rw [hparsed]
    rfl
  have harchitecture : a.selected.architecture = pdb.architecture.text := by
    unfold IndexedArtifact.selected
    rw [hparsed]
    rfl
  have hdebugId : a.selected.debugId = formatDebugId pdb.guid pdb.age := by
    unfold IndexedArtifact.selected
    rw [hparsed]
    rfl
  unfold SelectedArtifact.matchesModule
  rw [hkind, harchitecture, hdebugId]
  simp only [if_true, Bool.and_eq_true, beq_iff_eq]

theorem compatible_readings (hpe : executable.reading = .pe pe) (hpdb : a.reading = .pdb pdb) :
    compatible executable.parsed a.parsed = true ↔
      pdb.architecture = pe.architecture ∧ pdb.guid = pe.guid ∧ pe.age ≤ pdb.age ∧
        pdb.originalAge = pe.age := by
  have hexecutable : executable.parsed = parsedPe executable.file pe := by
    unfold IndexedArtifact.parsed
    rw [hpe]
  have hparsed : a.parsed = parsedPdb a.file pdb := by
    unfold IndexedArtifact.parsed
    rw [hpdb]
  have hpair : peAndPdb (parsedPe executable.file pe) (parsedPdb a.file pdb) =
      some (parsedPe executable.file pe, parsedPdb a.file pdb) := by
    unfold peAndPdb parsedPe parsedPdb
    cases pe.dynamicLibrary <;> rfl
  rw [hexecutable, hparsed, compatible, hpair]
  simp only [parsedPe, parsedPdb, Bool.and_eq_true, beq_iff_eq, decide_eq_true_eq,
    Option.all_some, Option.some.injEq, and_assoc]
  rw [eq_comm (a := pe.architecture), eq_comm (a := pe.guid)]

/-- One PDB is selected and paired alike exactly when its ages agree. -/
theorem pdb_agrees_iff (hpe : executable.reading = .pe pe)
    (h : executable.selected.matchesModule module architecture = true)
    (hpdb : a.reading = .pdb pdb) :
    (a.selected.matchesModule module architecture = true ↔
        compatible executable.parsed a.parsed = true) ↔
      (pdb.architecture = pe.architecture → pdb.guid = pe.guid →
        (pe.age < pdb.age → pdb.originalAge ≠ pe.age) ∧
          (pdb.age = pe.age → pdb.originalAge = pe.age)) := by
  obtain ⟨harchitecture, hdebugId⟩ := matchesModule_pe hpe h
  rw [matchesModule_pdb hpdb, compatible_readings hpe hpdb, sameIgnoringCase_text harchitecture,
    hdebugId, Option.some.injEq, formatDebugId_inj, eq_comm (a := pe.guid),
    eq_comm (a := pe.age)]
  have hage : (pe.age < pdb.age) ↔ pe.age ≤ pdb.age ∧ pdb.age ≠ pe.age := by
    rw [UInt32.lt_iff_toNat_lt, UInt32.le_iff_toNat_le, ne_eq, ← UInt32.toNat_inj]
    omega
  have hself : pdb.age = pe.age → pe.age ≤ pdb.age := fun heq => heq ▸ UInt32.le_refl _
  rw [hage]
  tauto

end

theorem filter_eq_filter_iff {α : Type} {p q : α → Bool} {l : List α} :
    l.filter p = l.filter q ↔ ∀ x ∈ l, (p x = true ↔ q x = true) := by
  constructor
  · intro h x hx
    have hmem : x ∈ l.filter p ↔ x ∈ l.filter q := by rw [h]
    rw [List.mem_filter, List.mem_filter, and_iff_right hx, and_iff_right hx] at hmem
    exact hmem
  · intro h
    exact List.filter_congr fun x hx => Bool.eq_iff_iff.mpr (h x hx)

/-- The two selections agree exactly when the ages do. -/
theorem hostedPdbs_eq_iff (artifacts : List IndexedArtifact) {executable : IndexedArtifact}
    {pe : PeReading} {module : ModuleIdentity} {architecture : String}
    (hpe : executable.reading = .pe pe)
    (h : executable.selected.matchesModule module architecture = true) :
    hostedPdbs artifacts module architecture = localPdbs artifacts executable ↔
      AgesAgree artifacts pe := by
  unfold hostedPdbs localPdbs AgesAgree
  rw [filter_eq_filter_iff]
  refine forall₂_congr fun a _ => ?_
  cases hreading : a.reading with
  | pe other => simp [Reading.pdb?]
  | pdb pdb =>
    have hagrees := pdb_agrees_iff hpe h hreading
    simpa [Reading.pdb?] using hagrees

/-! ## A PDB that was written again -/

section sample

def sampleGuid : Guid := Vector.replicate 16 7

def sampleFile (name : String) : ArtifactFile :=
  ⟨name, name, none, .error .malformed, .error .malformed⟩

def samplePe : PeReading := ⟨false, .x86_64, sampleGuid, 1, 2, 3, "game.pdb"⟩

def sampleExecutable : IndexedArtifact := ⟨"1", "1", [], 1, sampleFile "game.exe", .pe samplePe⟩

/-- A PDB with this age, of a build whose original age is one. -/
def samplePdb (age : UInt32) : IndexedArtifact :=
  ⟨"2", "2", [], 1, sampleFile "game.pdb", .pdb ⟨.x86_64, sampleGuid, age, 1⟩⟩

def sampleModule : ModuleIdentity :=
  ⟨"game.exe", some (formatDebugId sampleGuid 1), some (formatCodeId 2 3)⟩

theorem not_hostedPdbs_eq_later_age :
    ¬ ∀ (artifacts : List IndexedArtifact) (executable : IndexedArtifact) (pe : PeReading)
      (module : ModuleIdentity) (architecture : String), executable ∈ artifacts →
      executable.reading = .pe pe →
      executable.selected.matchesModule module architecture = true →
      hostedPdbs artifacts module architecture = localPdbs artifacts executable := by
  intro h
  have heq := h [sampleExecutable, samplePdb 2] sampleExecutable samplePe sampleModule "x86_64"
    List.mem_cons_self rfl (by decide +kernel)
  have hcount := congrArg List.length heq
  revert hcount
  decide +kernel

theorem hostedPdbs_eq_same_age :
    hostedPdbs [sampleExecutable, samplePdb 1] sampleModule "x86_64" =
      localPdbs [sampleExecutable, samplePdb 1] sampleExecutable := by
  have hreading : sampleExecutable.reading = .pe samplePe := rfl
  refine (hostedPdbs_eq_iff _ hreading (by decide +kernel)).mpr ?_
  intro a ha pdb hpdb _ _
  rcases List.mem_cons.mp ha with rfl | ha
  · cases hpdb
  · rw [List.mem_singleton.mp ha] at hpdb
    cases hpdb
    decide

end sample

end FaultLane.SymbolSelection

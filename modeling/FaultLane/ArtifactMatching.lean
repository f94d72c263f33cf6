import FaultLane.DumpSymbolication
import FaultLane.InPlacePass
import Mathlib.Data.String.Basic

set_option autoImplicit false

/-!
# Matching the artifacts of a scan

Executables and PDBs of a scanned directory are parsed one by one and then matched with
each other in place. What the parsers of the two formats read from a file is given.
-/
namespace FaultLane.ArtifactMatching
open CrashSymbols (ArtifactType sameIgnoringCase)
open DumpSymbolication InPlacePass

inductive MatchState where
  | matched
  | missingCompanion
  | mismatched
  | invalid
  deriving DecidableEq, Repr

abbrev Guid := Vector UInt8 16

structure Identity where
  guid : Guid
  age : UInt32
  originalAge : Option UInt32
  deriving DecidableEq, Repr

structure ScannedRecord extends ArtifactRecord where
  matchState : MatchState
  deriving DecidableEq, Repr

structure ParsedArtifact where
  record : ScannedRecord
  identity : Option Identity
  expectedPdbName : Option String
  deriving DecidableEq, Repr

def ParsedArtifact.path (a : ParsedArtifact) : String := a.record.path

/-! ## Parsing -/

/-- What `parse_pe` reads of a file. -/
structure PeReading where
  dynamicLibrary : Bool
  architecture : Architecture
  guid : Guid
  age : UInt32
  timestamp : UInt32
  imageSize : UInt32
  codeViewFileName : String
  deriving DecidableEq, Repr

/-- What `parse_pdb` reads of a file. -/
structure PdbReading where
  architecture : Architecture
  guid : Guid
  age : UInt32
  originalAge : UInt32
  deriving DecidableEq, Repr

structure ArtifactFile where
  relative : String
  name : String
  extension : Option String
  readPe : Except ArtifactErrorCode PeReading
  readPdb : Except ArtifactErrorCode PdbReading

def inferredArtifactType (extension : Option String) : ArtifactType :=
  if extension.any (sameIgnoringCase "pdb") then .pdb
  else if extension.any (sameIgnoringCase "dll") then .peDynamicLibrary
  else .peExecutable

/-- At least `width` upper case hexadecimal digits. -/
def paddedHex (width number : Nat) : List Char :=
  List.replicate (width - (hexDigits number).length) '0' ++ hexDigits number

def formatDebugId (guid : Guid) (age : UInt32) : String :=
  let group (start count : Nat) : List Char :=
    ((guid.toList.drop start).take count).flatMap fun byte => paddedHex 2 byte.toNat
  String.ofList (['-'].intercalate
    [group 0 4, group 4 2, group 6 2, group 8 2, group 10 6, hexDigits age.toNat])

def formatCodeId (timestamp imageSize : UInt32) : String :=
  String.ofList (paddedHex 8 timestamp.toNat ++ hexDigits imageSize.toNat)

section files
variable (file : ArtifactFile)

def parsedPe (pe : PeReading) : ParsedArtifact where
  record :=
    { path := file.relative
      module := file.name
      artifactType := if pe.dynamicLibrary then .peDynamicLibrary else .peExecutable
      architecture := some pe.architecture
      debugId := some (formatDebugId pe.guid pe.age)
      codeId := some (formatCodeId pe.timestamp pe.imageSize)
      matchPaths := []
      error := none
      matchState := .missingCompanion }
  identity := some ⟨pe.guid, pe.age, none⟩
  expectedPdbName := some pe.codeViewFileName

def parsedPdb (pdb : PdbReading) : ParsedArtifact where
  record :=
    { path := file.relative
      module := file.name
      artifactType := .pdb
      architecture := some pdb.architecture
      debugId := some (formatDebugId pdb.guid pdb.age)
      codeId := none
      matchPaths := []
      error := none
      matchState := .missingCompanion }
  identity := some ⟨pdb.guid, pdb.age, some pdb.originalAge⟩
  expectedPdbName := none

def unparsed (code : ArtifactErrorCode) : ParsedArtifact where
  record :=
    { path := file.relative
      module := file.name
      artifactType := inferredArtifactType file.extension
      architecture := none
      debugId := none
      codeId := none
      matchPaths := []
      error := some code
      matchState := .invalid }
  identity := none
  expectedPdbName := none

def parseArtifact : ParsedArtifact :=
  if inferredArtifactType file.extension = .pdb then
    match file.readPdb with
    | .ok pdb => parsedPdb file pdb
    | .error code => unparsed file code
  else
    match file.readPe with
    | .ok pe => parsedPe file pe
    | .error code => unparsed file code

end files

/-! ## Matching -/

/-- The executable and the PDB of two artifacts, where they are one of each. -/
def peAndPdb (left right : ParsedArtifact) : Option (ParsedArtifact × ParsedArtifact) :=
  match left.record.artifactType, right.record.artifactType with
  | .peExecutable, .pdb | .peDynamicLibrary, .pdb => some (left, right)
  | .pdb, .peExecutable | .pdb, .peDynamicLibrary => some (right, left)
  | _, _ => none

def compatible (left right : ParsedArtifact) : Bool :=
  match peAndPdb left right with
  | none => false
  | some (pe, pdb) =>
    match pe.identity, pdb.identity with
    | some peIdentity, some pdbIdentity =>
      pe.record.architecture == pdb.record.architecture &&
        peIdentity.guid == pdbIdentity.guid &&
        peIdentity.age ≤ pdbIdentity.age &&
        pdbIdentity.originalAge.all (· == peIdentity.age)
    | _, _ => false

/-- The other artifact is of the other kind, and the two go by one PDB name. -/
def named (a other : ParsedArtifact) : Bool :=
  (peAndPdb a other).any fun (pe, pdb) =>
    pe.expectedPdbName.any fun name => sameIgnoringCase name pdb.record.module

def hasNamedMismatch (index : Nat) (artifact : ParsedArtifact)
    (artifacts : List ParsedArtifact) : Bool :=
  artifacts.zipIdx.any fun (other, otherIndex) =>
    index != otherIndex && other.record.matchState != .invalid && named artifact other

def companionPaths (index : Nat) (artifact : ParsedArtifact)
    (artifacts : List ParsedArtifact) : List String :=
  ((artifacts.zipIdx.filter fun (other, otherIndex) =>
    index != otherIndex && compatible artifact other).map (·.1.path)).insertionSort (· ≤ ·)

def ParsedArtifact.withMatches (a : ParsedArtifact) (paths : List String)
    (state : MatchState) : ParsedArtifact :=
  { a with record := { a.record with matchPaths := paths, matchState := state } }

/-- The body of the loop at one artifact, with the artifacts as they then are. -/
def matchArtifact (artifacts : List ParsedArtifact) (index : Nat)
    (artifact : ParsedArtifact) : ParsedArtifact :=
  if artifact.record.matchState = .invalid then artifact
  else
    artifact.withMatches (companionPaths index artifact artifacts)
      (if (companionPaths index artifact artifacts).isEmpty then
        if hasNamedMismatch index artifact artifacts then .mismatched else .missingCompanion
      else .matched)

def matchArtifacts (artifacts : List ParsedArtifact) : List ParsedArtifact :=
  pass matchArtifact artifacts

/-! ## The pass as a map -/

/-- An artifact without what the pass writes. -/
def unmatched (a : ParsedArtifact) : ParsedArtifact :=
  a.withMatches [] (if a.record.matchState = .invalid then .invalid else .missingCompanion)

def companions (a : ParsedArtifact) (artifacts : List ParsedArtifact) : List String :=
  ((artifacts.filter (compatible a)).map ParsedArtifact.path).insertionSort (· ≤ ·)

def namedMismatch (a : ParsedArtifact) (artifacts : List ParsedArtifact) : Bool :=
  artifacts.any fun other => other.record.matchState != .invalid && named a other

/-- An artifact as it comes out of the pass. -/
def settled (artifacts : List ParsedArtifact) (a : ParsedArtifact) : ParsedArtifact :=
  if a.record.matchState = .invalid then a
  else
    a.withMatches (companions a artifacts)
      (if (companions a artifacts).isEmpty then
        if namedMismatch a artifacts then .mismatched else .missingCompanion
      else .matched)

section Pass
variable {artifacts : List ParsedArtifact}

theorem matchState_unmatched (a : ParsedArtifact) :
    ((unmatched a).record.matchState != .invalid) = (a.record.matchState != .invalid) := by
  by_cases h : a.record.matchState = .invalid
  · rw [unmatched, if_pos h, h]
    rfl
  · rw [unmatched, if_neg h, bne_iff_ne.mpr h]
    rfl

theorem compatible_unmatched (a b : ParsedArtifact) :
    compatible a (unmatched b) = compatible a b := by
  have htype : (unmatched b).record.artifactType = b.record.artifactType := rfl
  unfold compatible peAndPdb
  rw [htype]
  cases a.record.artifactType <;> cases b.record.artifactType <;> rfl

theorem named_unmatched (a b : ParsedArtifact) : named a (unmatched b) = named a b := by
  have htype : (unmatched b).record.artifactType = b.record.artifactType := rfl
  unfold named peAndPdb
  rw [htype]
  cases a.record.artifactType <;> cases b.record.artifactType <;> rfl

theorem companionPaths_unmatched (index : Nat) (a : ParsedArtifact) :
    companionPaths index a (artifacts.map unmatched) = companionPaths index a artifacts := by
  unfold companionPaths
  rw [List.zipIdx_map, List.filter_map, List.map_map]
  have hfilter : ∀ x : ParsedArtifact × Nat, (index != x.2 && compatible a (unmatched x.1)) =
      (index != x.2 && compatible a x.1) := fun x => by rw [compatible_unmatched]
  exact congrArg (fun l => List.insertionSort (· ≤ ·) (List.map (fun x => x.1.path) l))
    (List.filter_congr fun x _ => hfilter x)

theorem hasNamedMismatch_unmatched (index : Nat) (a : ParsedArtifact) :
    hasNamedMismatch index a (artifacts.map unmatched) = hasNamedMismatch index a artifacts := by
  unfold hasNamedMismatch
  rw [List.zipIdx_map, List.any_map]
  refine List.any_congr rfl fun x => ?_
  change (index != x.2 && (unmatched x.1).record.matchState != .invalid &&
    named a (unmatched x.1)) = _
  rw [matchState_unmatched, named_unmatched]

theorem matchArtifact_reads {artifacts artifacts' : List ParsedArtifact}
    (h : artifacts.map unmatched = artifacts'.map unmatched) :
    matchArtifact artifacts = matchArtifact artifacts' := by
  funext index a
  unfold matchArtifact
  rw [← companionPaths_unmatched, ← hasNamedMismatch_unmatched, h, companionPaths_unmatched,
    hasNamedMismatch_unmatched]

theorem unmatched_withMatches {a : ParsedArtifact} {paths : List String} {state : MatchState}
    (ha : a.record.matchState ≠ .invalid) (hstate : state ≠ .invalid) :
    unmatched (a.withMatches paths state) = unmatched a := by
  have hwritten : (a.withMatches paths state).record.matchState ≠ .invalid := hstate
  rw [unmatched, unmatched, if_neg ha, if_neg hwritten]
  rfl

theorem unmatched_matchArtifact (index : Nat) (a : ParsedArtifact) :
    unmatched (matchArtifact artifacts index a) = unmatched a := by
  by_cases hinvalid : a.record.matchState = .invalid
  · rw [matchArtifact, if_pos hinvalid]
  · rw [matchArtifact, if_neg hinvalid]
    apply unmatched_withMatches hinvalid
    split_ifs <;> exact MatchState.noConfusion

theorem peAndPdb_self (a : ParsedArtifact) : peAndPdb a a = none := by
  unfold peAndPdb
  cases a.record.artifactType <;> rfl

theorem compatible_self (a : ParsedArtifact) : compatible a a = false := by
  rw [compatible, peAndPdb_self]

theorem named_self (a : ParsedArtifact) : named a a = false := by
  rw [named, peAndPdb_self]
  rfl

theorem eq_of_mem_zipIdx {index : Nat} {a : ParsedArtifact} (h : artifacts[index]? = some a)
    {x : ParsedArtifact × Nat} (hx : x ∈ artifacts.zipIdx) (heq : index = x.2) : x.1 = a := by
  have hget := List.mem_zipIdx_iff_getElem?.mp hx
  rw [← heq, h] at hget
  exact (Option.some.inj hget).symm

/-- The pass compares an artifact with itself in vain, so it need not leave it out. -/
theorem companionPaths_eq {index : Nat} {a : ParsedArtifact} (h : artifacts[index]? = some a) :
    companionPaths index a artifacts = companions a artifacts := by
  have hfilter : ∀ x ∈ artifacts.zipIdx,
      (index != x.2 && compatible a x.1) = compatible a x.1 := by
    intro x hx
    by_cases heq : index = x.2
    · rw [eq_of_mem_zipIdx h hx heq, compatible_self, Bool.and_false]
    · rw [bne_iff_ne.mpr heq, Bool.true_and]
  have hmap : (artifacts.zipIdx.filter fun x => compatible a x.1).map (·.1.path) =
      (artifacts.filter (compatible a)).map ParsedArtifact.path := by
    conv_rhs => rw [← List.zipIdx_map_fst 0 artifacts]
    rw [List.filter_map, List.map_map]
    rfl
  rw [companions, ← hmap, companionPaths]
  exact congrArg (fun l => List.insertionSort (· ≤ ·) (List.map (fun x => x.1.path) l))
    (List.filter_congr hfilter)

theorem hasNamedMismatch_eq {index : Nat} {a : ParsedArtifact} (h : artifacts[index]? = some a) :
    hasNamedMismatch index a artifacts = namedMismatch a artifacts := by
  have hmap : namedMismatch a artifacts =
      artifacts.zipIdx.any fun x => x.1.record.matchState != .invalid && named a x.1 := by
    conv_lhs => rw [namedMismatch, ← List.zipIdx_map_fst 0 artifacts]
    rw [List.any_map]
    rfl
  rw [hmap, hasNamedMismatch, Bool.eq_iff_iff, List.any_eq_true, List.any_eq_true]
  refine exists_congr fun x => and_congr_right fun hx => ?_
  change (index != x.2 && x.1.record.matchState != .invalid && named a x.1) = true ↔ _
  by_cases heq : index = x.2
  · rw [eq_of_mem_zipIdx h hx heq, named_self, Bool.and_false, Bool.and_false]
  · rw [bne_iff_ne.mpr heq, Bool.true_and]

theorem matchArtifacts_eq (artifacts : List ParsedArtifact) :
    matchArtifacts artifacts = artifacts.map (settled artifacts) := by
  rw [matchArtifacts, pass_eq_mapIdx (fun _ _ => matchArtifact_reads)
    fun _ index a => unmatched_matchArtifact index a]
  apply List.ext_getElem?
  intro i
  rw [List.getElem?_mapIdx, List.getElem?_map]
  cases hi : artifacts[i]? with
  | none => rfl
  | some a =>
    rw [Option.map_some, Option.map_some, matchArtifact, settled, companionPaths_eq hi,
      hasNamedMismatch_eq hi]

end Pass

/-! ## Exact matching -/

section Parsed

/-- What holds of an artifact as it is parsed. -/
structure Parsed (a : ParsedArtifact) : Prop where
  fresh : a.record.matchPaths = []
  invalid_iff : a.record.matchState = .invalid ↔ a.record.error ≠ none
  identity_of_error : a.record.error ≠ none → a.identity = none
  identified : a.record.error = none → ∃ identity, a.identity = some identity ∧
    (a.record.artifactType = .pdb → ∃ age, identity.originalAge = some age)

theorem parsed_parseArtifact (file : ArtifactFile) : Parsed (parseArtifact file) := by
  have hfailed : ∀ code, Parsed (unparsed file code) := fun code =>
    ⟨rfl, ⟨fun _ => Option.some_ne_none code, fun _ => rfl⟩, fun _ => rfl, nofun⟩
  have hpe : ∀ pe, Parsed (parsedPe file pe) := by
    intro pe
    refine ⟨rfl, ⟨nofun, fun h => absurd rfl h⟩, fun h => absurd rfl h, fun _ => ⟨_, rfl, ?_⟩⟩
    intro htype
    unfold parsedPe at htype
    cases hkind : pe.dynamicLibrary <;> simp [hkind] at htype
  have hpdb : ∀ pdb, Parsed (parsedPdb file pdb) := fun pdb =>
    ⟨rfl, ⟨nofun, fun h => absurd rfl h⟩, fun h => absurd rfl h,
      fun _ => ⟨_, rfl, fun _ => ⟨pdb.originalAge, rfl⟩⟩⟩
  unfold parseArtifact
  split_ifs
  · cases file.readPdb with
    | ok pdb => exact hpdb pdb
    | error code => exact hfailed code
  · cases file.readPe with
    | ok pe => exact hpe pe
    | error code => exact hfailed code

theorem path_parseArtifact (file : ArtifactFile) : (parseArtifact file).path = file.relative := by
  unfold parseArtifact
  split_ifs
  · cases file.readPdb <;> rfl
  · cases file.readPe <;> rfl

end Parsed

/-- An executable and the PDB it was linked with, both read without an error. -/
structure Linked (pe pdb : ParsedArtifact) : Prop where
  executable : pe.record.isPe = true
  database : pdb.record.artifactType = .pdb
  peValid : pe.record.error = none
  pdbValid : pdb.record.error = none
  architecture : pe.record.architecture = pdb.record.architecture
  identities : ∃ peIdentity pdbIdentity, pe.identity = some peIdentity ∧
    pdb.identity = some pdbIdentity ∧ peIdentity.guid = pdbIdentity.guid ∧
    pdbIdentity.originalAge = some peIdentity.age ∧ peIdentity.age ≤ pdbIdentity.age

/-- One of the two is an executable and the other its PDB. -/
def Companions (a b : ParsedArtifact) : Prop := Linked a b ∨ Linked b a

/-- The executable expects a PDB of the other's name. -/
structure Expects (pe pdb : ParsedArtifact) : Prop where
  executable : pe.record.isPe = true
  database : pdb.record.artifactType = .pdb
  name : ∃ name, pe.expectedPdbName = some name ∧ sameIgnoringCase name pdb.record.module = true

/-- A valid artifact of the other kind carries the expected PDB name. -/
def NamedCompanion (a b : ParsedArtifact) : Prop :=
  b.record.error = none ∧ (Expects a b ∨ Expects b a)

section Kinds

theorem isPe_iff (a : ParsedArtifact) :
    a.record.isPe = true ↔ a.record.artifactType ≠ .pdb := bne_iff_ne

theorem peAndPdb_eq_some {a b pe pdb : ParsedArtifact} : peAndPdb a b = some (pe, pdb) ↔
    pe.record.isPe = true ∧ pdb.record.artifactType = .pdb ∧
      (a = pe ∧ b = pdb ∨ a = pdb ∧ b = pe) := by
  rw [isPe_iff]
  unfold peAndPdb
  constructor
  · intro h
    cases ha : a.record.artifactType <;> cases hb : b.record.artifactType <;>
      simp only [ha, hb, Option.some.injEq, Prod.mk.injEq, reduceCtorEq] at h
    all_goals
      obtain ⟨rfl, rfl⟩ := h
      simp [ha, hb]
  · rintro ⟨hpe, hpdb, ⟨rfl, rfl⟩ | ⟨rfl, rfl⟩⟩
    · rw [hpdb]
      cases ha : a.record.artifactType with
      | pdb => exact absurd ha hpe
      | peExecutable => rfl
      | peDynamicLibrary => rfl
    · rw [hpdb]
      cases hb : b.record.artifactType with
      | pdb => exact absurd hb hpe
      | peExecutable => rfl
      | peDynamicLibrary => rfl

theorem linked_iff {pe pdb : ParsedArtifact} (hpe : Parsed pe) (hpdb : Parsed pdb)
    (hkind : pe.record.isPe = true) (hdatabase : pdb.record.artifactType = .pdb) :
    Linked pe pdb ↔ ∃ peIdentity pdbIdentity, pe.identity = some peIdentity ∧
      pdb.identity = some pdbIdentity ∧
      (pe.record.architecture == pdb.record.architecture &&
        peIdentity.guid == pdbIdentity.guid && peIdentity.age ≤ pdbIdentity.age &&
        pdbIdentity.originalAge.all (· == peIdentity.age)) = true := by
  have hvalid : ∀ {a : ParsedArtifact} {identity : Identity}, Parsed a →
      a.identity = some identity → a.record.error = none := by
    intro a identity ha hidentity
    by_contra herror
    rw [ha.identity_of_error herror] at hidentity
    cases hidentity
  constructor
  · rintro ⟨-, -, -, -, harchitecture, peIdentity, pdbIdentity, hp, hd, hguid, hold, hage⟩
    refine ⟨peIdentity, pdbIdentity, hp, hd, ?_⟩
    simp [harchitecture, hguid, hold, hage]
  · rintro ⟨peIdentity, pdbIdentity, hp, hd, hall⟩
    simp only [Bool.and_eq_true, beq_iff_eq, decide_eq_true_eq] at hall
    obtain ⟨⟨⟨harchitecture, hguid⟩, hage⟩, hold⟩ := hall
    obtain ⟨identity, hidentity, hdated⟩ := hpdb.identified (hvalid hpdb hd)
    rw [hd] at hidentity
    cases hidentity
    obtain ⟨age, horiginal⟩ := hdated hdatabase
    rw [horiginal, Option.all_some, beq_iff_eq] at hold
    exact ⟨hkind, hdatabase, hvalid hpe hp, hvalid hpdb hd, harchitecture,
      peIdentity, pdbIdentity, hp, hd, hguid, hold ▸ horiginal, hage⟩

theorem peAndPdb_none {a b : ParsedArtifact} (h : peAndPdb a b = none) :
    ¬ (a.record.isPe = true ∧ b.record.artifactType = .pdb) ∧
      ¬ (b.record.isPe = true ∧ a.record.artifactType = .pdb) := by
  constructor
  · rintro ⟨hpe, hpdb⟩
    rw [peAndPdb_eq_some.mpr ⟨hpe, hpdb, .inl ⟨rfl, rfl⟩⟩] at h
    cases h
  · rintro ⟨hpe, hpdb⟩
    rw [peAndPdb_eq_some.mpr ⟨hpe, hpdb, .inr ⟨rfl, rfl⟩⟩] at h
    cases h

/-- A relation that holds of an executable and a PDB only holds one way round. -/
theorem or_iff_of_peAndPdb {a b pe pdb : ParsedArtifact}
    {r : ParsedArtifact → ParsedArtifact → Prop}
    (hr : ∀ {x y}, r x y → x.record.isPe = true ∧ y.record.artifactType = .pdb)
    (h : peAndPdb a b = some (pe, pdb)) : r a b ∨ r b a ↔ r pe pdb := by
  obtain ⟨hpe, hpdb, hboth⟩ := peAndPdb_eq_some.mp h
  have hback : ¬ r pdb pe := fun h => (isPe_iff pdb).mp (hr h).1 hpdb
  rcases hboth with ⟨rfl, rfl⟩ | ⟨rfl, rfl⟩
  · exact or_iff_left hback
  · exact or_iff_right hback

theorem compatible_iff {a b : ParsedArtifact} (ha : Parsed a) (hb : Parsed b) :
    compatible a b = true ↔ Companions a b := by
  unfold compatible Companions
  cases hkinds : peAndPdb a b with
  | none =>
    obtain ⟨hab, hba⟩ := peAndPdb_none hkinds
    refine iff_of_false Bool.false_ne_true ?_
    rintro (h | h)
    · exact hab ⟨h.executable, h.database⟩
    · exact hba ⟨h.executable, h.database⟩
  | some kinds =>
    obtain ⟨pe, pdb⟩ := kinds
    obtain ⟨hpe, hpdb, hboth⟩ := peAndPdb_eq_some.mp hkinds
    have hparsed : Parsed pe ∧ Parsed pdb := by
      rcases hboth with ⟨rfl, rfl⟩ | ⟨rfl, rfl⟩
      · exact ⟨ha, hb⟩
      · exact ⟨hb, ha⟩
    rw [or_iff_of_peAndPdb (fun h => ⟨h.executable, h.database⟩) hkinds,
      linked_iff hparsed.1 hparsed.2 hpe hpdb]
    dsimp only
    cases pe.identity with
    | none => simp
    | some peIdentity =>
      cases pdb.identity with
      | none => simp
      | some pdbIdentity => simp

theorem named_iff (a b : ParsedArtifact) : named a b = true ↔ Expects a b ∨ Expects b a := by
  unfold named
  cases hkinds : peAndPdb a b with
  | none =>
    obtain ⟨hab, hba⟩ := peAndPdb_none hkinds
    refine iff_of_false Bool.false_ne_true ?_
    rintro (h | h)
    · exact hab ⟨h.executable, h.database⟩
    · exact hba ⟨h.executable, h.database⟩
  | some kinds =>
    obtain ⟨pe, pdb⟩ := kinds
    obtain ⟨hpe, hpdb, -⟩ := peAndPdb_eq_some.mp hkinds
    rw [or_iff_of_peAndPdb (fun h => ⟨h.executable, h.database⟩) hkinds, Option.any_some,
      Option.any_eq_true]
    exact ⟨fun h => ⟨hpe, hpdb, h⟩, fun h => h.name⟩

end Kinds

section Settled
variable {artifacts : List ParsedArtifact}

/-- The pass leaves an artifact as it was parsed. -/
theorem unmatched_settled (artifacts : List ParsedArtifact) (a : ParsedArtifact) :
    unmatched (settled artifacts a) = unmatched a := by
  by_cases hinvalid : a.record.matchState = .invalid
  · rw [settled, if_pos hinvalid]
  · rw [settled, if_neg hinvalid]
    apply unmatched_withMatches hinvalid
    split_ifs <;> exact MatchState.noConfusion

theorem path_settled (artifacts : List ParsedArtifact) (a : ParsedArtifact) :
    (settled artifacts a).path = a.path := by
  change (unmatched (settled artifacts a)).path = (unmatched a).path
  rw [unmatched_settled]

theorem error_settled (artifacts : List ParsedArtifact) (a : ParsedArtifact) :
    (settled artifacts a).record.error = a.record.error := by
  change (unmatched (settled artifacts a)).record.error = (unmatched a).record.error
  rw [unmatched_settled]

theorem linked_unmatched (a b : ParsedArtifact) :
    Linked (unmatched a) (unmatched b) ↔ Linked a b :=
  ⟨fun ⟨hpe, hpdb, hvalid, hvalid', harchitecture, hidentities⟩ =>
      ⟨hpe, hpdb, hvalid, hvalid', harchitecture, hidentities⟩,
    fun ⟨hpe, hpdb, hvalid, hvalid', harchitecture, hidentities⟩ =>
      ⟨hpe, hpdb, hvalid, hvalid', harchitecture, hidentities⟩⟩

theorem expects_unmatched (a b : ParsedArtifact) :
    Expects (unmatched a) (unmatched b) ↔ Expects a b :=
  ⟨fun ⟨hpe, hpdb, hname⟩ => ⟨hpe, hpdb, hname⟩, fun ⟨hpe, hpdb, hname⟩ => ⟨hpe, hpdb, hname⟩⟩

theorem companions_settled (artifacts : List ParsedArtifact) (a b : ParsedArtifact) :
    Companions (settled artifacts a) (settled artifacts b) ↔ Companions a b := by
  have hlinked : ∀ c d, Linked (settled artifacts c) (settled artifacts d) ↔ Linked c d := by
    intro c d
    rw [← linked_unmatched, unmatched_settled, unmatched_settled, linked_unmatched]
  rw [Companions, hlinked, hlinked, Companions]

theorem namedCompanion_settled (artifacts : List ParsedArtifact) (a b : ParsedArtifact) :
    NamedCompanion (settled artifacts a) (settled artifacts b) ↔ NamedCompanion a b := by
  have hexpects : ∀ c d, Expects (settled artifacts c) (settled artifacts d) ↔ Expects c d := by
    intro c d
    rw [← expects_unmatched, unmatched_settled, unmatched_settled, expects_unmatched]
  rw [NamedCompanion, hexpects, hexpects, error_settled, NamedCompanion]

theorem mem_companions (a : ParsedArtifact) (path : String) :
    path ∈ companions a artifacts ↔ ∃ b ∈ artifacts, compatible a b = true ∧ b.path = path := by
  rw [companions, List.mem_insertionSort, List.mem_map]
  simp only [List.mem_filter, and_assoc]

theorem companions_perm {artifacts' : List ParsedArtifact} (h : artifacts.Perm artifacts')
    (a : ParsedArtifact) : companions a artifacts = companions a artifacts' := by
  have hsorted : ∀ l : List String, (l.insertionSort (· ≤ ·)).Pairwise (· ≤ ·) := fun l =>
    List.pairwise_insertionSort _ l
  have hperm : (companions a artifacts).Perm (companions a artifacts') :=
    ((List.perm_insertionSort _ _).trans ((h.filter _).map _)).trans
      (List.perm_insertionSort _ _).symm
  exact hperm.eq_of_pairwise (fun _ _ _ _ => le_antisymm) (hsorted _) (hsorted _)

theorem settled_perm {artifacts' : List ParsedArtifact} (h : artifacts.Perm artifacts') :
    settled artifacts = settled artifacts' := by
  funext a
  have hnamed : namedMismatch a artifacts = namedMismatch a artifacts' := by
    rw [namedMismatch, namedMismatch, Bool.eq_iff_iff, List.any_eq_true, List.any_eq_true]
    exact exists_congr fun b => and_congr_left fun _ => h.mem_iff
  rw [settled, settled, companions_perm h, hnamed]

/-- The artifacts have been parsed, and no two have one path. -/
structure Scanned (artifacts : List ParsedArtifact) : Prop where
  parsed : ∀ a ∈ artifacts, Parsed a
  paths : (artifacts.map ParsedArtifact.path).Nodup

theorem Scanned.eq_of_path (h : Scanned artifacts) {a b : ParsedArtifact} (ha : a ∈ artifacts)
    (hb : b ∈ artifacts) (heq : a.path = b.path) : a = b :=
  List.inj_on_of_nodup_map h.paths ha hb heq

theorem Scanned.not_companions (h : Scanned artifacts) {a : ParsedArtifact} (ha : a ∈ artifacts)
    (herror : a.record.error ≠ none) : companions a artifacts = [] := by
  apply List.eq_nil_iff_forall_not_mem.mpr
  intro path hpath
  obtain ⟨b, hb, hcompatible, -⟩ := (mem_companions a path).mp hpath
  rcases (compatible_iff (h.parsed a ha) (h.parsed b hb)).mp hcompatible with hlinked | hlinked
  · exact herror hlinked.peValid
  · exact herror hlinked.pdbValid

theorem Scanned.matchPaths_settled (h : Scanned artifacts) {a : ParsedArtifact}
    (ha : a ∈ artifacts) :
    (settled artifacts a).record.matchPaths = companions a artifacts := by
  by_cases hinvalid : a.record.matchState = .invalid
  · rw [settled, if_pos hinvalid, (h.parsed a ha).fresh,
      h.not_companions ha ((h.parsed a ha).invalid_iff.mp hinvalid)]
  · rw [settled, if_neg hinvalid]
    rfl

theorem Scanned.matchState_settled (h : Scanned artifacts) {a : ParsedArtifact}
    (ha : a ∈ artifacts) (hvalid : a.record.error = none) :
    (settled artifacts a).record.matchState =
      if companions a artifacts = [] then
        if namedMismatch a artifacts then .mismatched else .missingCompanion
      else .matched := by
  have hinvalid : a.record.matchState ≠ .invalid := fun heq =>
    (h.parsed a ha).invalid_iff.mp heq hvalid
  rw [settled, if_neg hinvalid]
  simp only [ParsedArtifact.withMatches, List.isEmpty_iff]

theorem Scanned.namedMismatch_iff (h : Scanned artifacts) (a : ParsedArtifact) :
    namedMismatch a artifacts = true ↔ ∃ b ∈ artifacts, NamedCompanion a b := by
  rw [namedMismatch, List.any_eq_true]
  refine exists_congr fun b => and_congr_right fun hb => ?_
  rw [Bool.and_eq_true, bne_iff_ne, ne_eq, (h.parsed b hb).invalid_iff, not_not, named_iff]
  rfl

end Settled

/-- What matched artifacts say of each other. -/
structure ExactMatching (artifacts : List ParsedArtifact) : Prop where
  symmetric : ∀ a ∈ artifacts, ∀ b ∈ artifacts,
    b.path ∈ a.record.matchPaths ↔ a.path ∈ b.record.matchPaths
  exact : ∀ a ∈ artifacts, ∀ b ∈ artifacts, b.path ∈ a.record.matchPaths ↔ Companions a b
  listed : ∀ a ∈ artifacts, ∀ path ∈ a.record.matchPaths, ∃ b ∈ artifacts, b.path = path
  matched : ∀ a ∈ artifacts, a.record.matchState = .matched ↔ a.record.matchPaths ≠ []
  mismatched : ∀ a ∈ artifacts, a.record.error = none → a.record.matchPaths = [] →
    (a.record.matchState = .mismatched ↔ ∃ b ∈ artifacts, NamedCompanion a b)
  invalid : ∀ a ∈ artifacts, a.record.error ≠ none →
    a.record.matchState = .invalid ∧ a.record.matchPaths = []

theorem exactMatching_matchArtifacts {artifacts : List ParsedArtifact} (h : Scanned artifacts) :
    ExactMatching (matchArtifacts artifacts) := by
  rw [matchArtifacts_eq]
  have hexact : ∀ a ∈ artifacts, ∀ b ∈ artifacts,
      (settled artifacts b).path ∈ (settled artifacts a).record.matchPaths ↔ Companions a b := by
    intro a ha b hb
    rw [h.matchPaths_settled ha, path_settled, mem_companions,
      ← compatible_iff (h.parsed a ha) (h.parsed b hb)]
    constructor
    · rintro ⟨c, hc, hcompatible, hpath⟩
      rwa [← h.eq_of_path hc hb hpath]
    · exact fun hcompatible => ⟨b, hb, hcompatible, rfl⟩
  have hstate : ∀ a ∈ artifacts, (settled artifacts a).record.matchState = .matched ↔
      companions a artifacts ≠ [] := by
    intro a ha
    by_cases hvalid : a.record.error = none
    · rw [h.matchState_settled ha hvalid]
      split_ifs with hnil <;> simp [hnil]
    · rw [h.not_companions ha hvalid, settled,
        if_pos ((h.parsed a ha).invalid_iff.mpr hvalid), (h.parsed a ha).invalid_iff.mpr hvalid]
      simp
  constructor
  · intro a' ha' b' hb'
    obtain ⟨a, ha, rfl⟩ := List.mem_map.mp ha'
    obtain ⟨b, hb, rfl⟩ := List.mem_map.mp hb'
    rw [hexact a ha b hb, hexact b hb a ha]
    exact Or.comm
  · intro a' ha' b' hb'
    obtain ⟨a, ha, rfl⟩ := List.mem_map.mp ha'
    obtain ⟨b, hb, rfl⟩ := List.mem_map.mp hb'
    rw [hexact a ha b hb, companions_settled]
  · intro a' ha' path hpath
    obtain ⟨a, ha, rfl⟩ := List.mem_map.mp ha'
    rw [h.matchPaths_settled ha, mem_companions] at hpath
    obtain ⟨b, hb, -, rfl⟩ := hpath
    exact ⟨_, List.mem_map_of_mem hb, path_settled artifacts b⟩
  · intro a' ha'
    obtain ⟨a, ha, rfl⟩ := List.mem_map.mp ha'
    rw [hstate a ha, h.matchPaths_settled ha]
  · intro a' ha' hvalid hnil
    obtain ⟨a, ha, rfl⟩ := List.mem_map.mp ha'
    rw [error_settled] at hvalid
    rw [h.matchPaths_settled ha] at hnil
    rw [h.matchState_settled ha hvalid, if_pos hnil]
    have hmap : (∃ b ∈ artifacts.map (settled artifacts), NamedCompanion (settled artifacts a) b) ↔
        ∃ b ∈ artifacts, NamedCompanion a b := by
      simp only [List.mem_map, exists_exists_and_eq_and, namedCompanion_settled]
    rw [hmap, ← h.namedMismatch_iff]
    split_ifs with hnamed <;> simp [hnamed]
  · intro a' ha' herror
    obtain ⟨a, ha, rfl⟩ := List.mem_map.mp ha'
    rw [error_settled] at herror
    have hinvalid := (h.parsed a ha).invalid_iff.mpr herror
    rw [h.matchPaths_settled ha, h.not_companions ha herror, settled, if_pos hinvalid]
    exact ⟨hinvalid, rfl⟩

section Selection

/-- The records that a scan returns. -/
def records (artifacts : List ParsedArtifact) : List ArtifactRecord :=
  artifacts.map fun a => a.record.toArtifactRecord

/-- An executable with the requested identifiers and a PDB that is matched to it. -/
structure Selects (artifacts : List ParsedArtifact) (codeId debugId : Option String)
    (selection : ArtifactSelection) (pe pdb : ParsedArtifact) : Prop where
  peScanned : pe ∈ artifacts
  pdbScanned : pdb ∈ artifacts
  peSelected : selection.pe = some pe.record.toArtifactRecord
  pdbSelected : selection.pdb = some pdb.record.toArtifactRecord
  codeId : codeId ≠ none ∧ pe.record.codeId = codeId
  debugId : debugId ≠ none ∧ pe.record.debugId = debugId
  linked : Linked pe pdb
  matchPaths : pdb.path ∈ pe.record.matchPaths ∧ pe.path ∈ pdb.record.matchPaths

theorem exactPe_some {codeId debugId : Option String} {artifacts : List ArtifactRecord}
    {pe : ArtifactRecord} (h : exactPe codeId debugId artifacts = some pe) :
    pe ∈ artifacts ∧ pe.isPe = true ∧ codeId ≠ none ∧ pe.codeId = codeId ∧
      (debugId ≠ none → pe.debugId = debugId) := by
  cases codeId with
  | none => cases h
  | some code =>
    rw [exactPe, Option.bind_some] at h
    have hmem := List.mem_of_find?_eq_some h
    have hall := List.find?_some h
    simp only [Bool.and_eq_true, beq_iff_eq] at hall
    obtain ⟨⟨⟨⟨hpe, -⟩, -⟩, hcode⟩, hdebug⟩ := hall
    refine ⟨hmem, hpe, Option.some_ne_none _, hcode, fun hne => ?_⟩
    cases debugId with
    | none => exact absurd rfl hne
    | some debug => simpa using hdebug

theorem matchedPdb_some {artifacts : List ArtifactRecord} {pe pdb : ArtifactRecord}
    (h : matchedPdb artifacts pe = some pdb) : pdb ∈ artifacts ∧ pdb.artifactType = .pdb ∧
      pdb.path ∈ pe.matchPaths := by
  obtain ⟨path, hpath, hfind⟩ := List.exists_of_findSome?_eq_some h
  have hmem := List.mem_of_find?_eq_some hfind
  have hall := List.find?_some hfind
  simp only [Bool.and_eq_true, beq_iff_eq] at hall
  obtain ⟨⟨⟨heq, hpdb⟩, -⟩, -⟩ := hall
  exact ⟨hmem, hpdb, heq ▸ hpath⟩

theorem ExactMatching.selects {artifacts : List ParsedArtifact} (h : ExactMatching artifacts)
    {moduleName : String} {codeId debugId : Option String}
    (hstatus : (chooseArtifacts moduleName codeId debugId (records artifacts)).status = .matched) :
    ∃ pe pdb, Selects artifacts codeId debugId
      (chooseArtifacts moduleName codeId debugId (records artifacts)) pe pdb := by
  unfold chooseArtifacts at hstatus ⊢
  cases hexact : exactPe codeId debugId (records artifacts) with
  | none =>
    rw [hexact] at hstatus
    dsimp only at hstatus
    split_ifs at hstatus
  | some peRecord =>
    rw [hexact] at hstatus
    dsimp only at hstatus ⊢
    split_ifs at hstatus ⊢ with hdebug hpdb
    obtain ⟨pdbRecord, hmatched⟩ := Option.isSome_iff_exists.mp hpdb
    obtain ⟨hpe, hkind, hcode, hcodeId, hdebugId⟩ := exactPe_some hexact
    obtain ⟨hmem, hdatabase, hpath⟩ := matchedPdb_some hmatched
    obtain ⟨pe, hpeMem, rfl⟩ := List.mem_map.mp hpe
    obtain ⟨pdb, hpdbMem, rfl⟩ := List.mem_map.mp hmem
    have hsome : debugId ≠ none := by
      rintro rfl
      exact hdebug rfl
    have hlinked : Linked pe pdb := by
      rcases (h.exact pe hpeMem pdb hpdbMem).mp hpath with hlinked | hlinked
      · exact hlinked
      · exact absurd hlinked.database ((isPe_iff pe).mp hkind)
    exact ⟨pe, pdb,
      { peScanned := hpeMem
        pdbScanned := hpdbMem
        peSelected := rfl
        pdbSelected := hmatched
        codeId := ⟨hcode, hcodeId⟩
        debugId := ⟨hsome, hdebugId hsome⟩
        linked := hlinked
        matchPaths := ⟨hpath, (h.symmetric pe hpeMem pdb hpdbMem).mp hpath⟩ }⟩

end Selection

section Files

theorem scanned_files {files : List ArtifactFile} (h : (files.map ArtifactFile.relative).Nodup) :
    Scanned (files.map parseArtifact) where
  parsed a ha := by
    obtain ⟨file, -, rfl⟩ := List.mem_map.mp ha
    exact parsed_parseArtifact file
  paths := by
    rw [List.map_map]
    exact (List.map_congr_left fun file _ => (path_parseArtifact file).symm) ▸ h

/-- The artifacts of files with distinct paths are matched exactly, whatever the order of the
files, and a module gets an executable and a PDB that are matched to each other. -/
theorem matchArtifacts_exact (files : List ArtifactFile)
    (h : (files.map ArtifactFile.relative).Nodup) :
    ExactMatching (matchArtifacts (files.map parseArtifact)) ∧
      (∀ files', files.Perm files' →
        (matchArtifacts (files'.map parseArtifact)).Perm
            (matchArtifacts (files.map parseArtifact)) ∧
          (matchArtifacts (files'.map parseArtifact)).map ParsedArtifact.path =
            files'.map ArtifactFile.relative) ∧
      ∀ moduleName codeId debugId,
        let scan := matchArtifacts (files.map parseArtifact)
        let selection := chooseArtifacts moduleName codeId debugId (records scan)
        selection.status = .matched → ∃ pe pdb, Selects scan codeId debugId selection pe pdb := by
  have hexact := exactMatching_matchArtifacts (scanned_files h)
  refine ⟨hexact, fun files' hperm => ⟨?_, ?_⟩, fun _ _ _ => hexact.selects⟩
  · rw [matchArtifacts_eq, matchArtifacts_eq, settled_perm (hperm.map parseArtifact)]
    exact (hperm.symm.map parseArtifact).map _
  · rw [matchArtifacts_eq, List.map_map, List.map_map]
    refine List.map_congr_left fun file _ => ?_
    exact (path_settled _ _).trans (path_parseArtifact file)

def gameExe : ArtifactFile where
  relative := "bin/Game.exe"
  name := "Game.exe"
  extension := some "exe"
  readPe := .ok ⟨false, .x86_64, .replicate 16 1, 2, 0x5000, 0x1000, "Game.pdb"⟩
  readPdb := .error .malformed

def gamePdb (readPdb : Except ArtifactErrorCode PdbReading) : ArtifactFile where
  relative := "symbols/Game.pdb"
  name := "Game.pdb"
  extension := some "pdb"
  readPe := .error .malformed
  readPdb := readPdb

def linkedPdb : ArtifactFile := gamePdb (.ok ⟨.x86_64, .replicate 16 1, 3, 2⟩)

theorem matchArtifacts_game :
    ExactMatching (matchArtifacts ([gameExe, linkedPdb].map parseArtifact)) ∧
      ∃ pe pdb, Selects (matchArtifacts ([gameExe, linkedPdb].map parseArtifact))
        (some "000050001000") (some "01010101-0101-0101-0101-010101010101-2")
        (chooseArtifacts "Game.exe" (some "000050001000")
          (some "01010101-0101-0101-0101-010101010101-2")
          (records (matchArtifacts ([gameExe, linkedPdb].map parseArtifact)))) pe pdb := by
  obtain ⟨hexact, -, hselects⟩ := matchArtifacts_exact [gameExe, linkedPdb] (by decide)
  exact ⟨hexact, hselects _ _ _ (by decide +kernel)⟩

def brokenPdb : ArtifactFile := gamePdb (.error .malformed)

/-- A broken PDB stays invalid although a valid executable expects its name. -/
theorem not_mismatched_brokenPdb :
    ¬ ∀ files : List ArtifactFile, (files.map ArtifactFile.relative).Nodup →
      ∀ a ∈ matchArtifacts (files.map parseArtifact), a.record.matchPaths = [] →
        (a.record.matchState = .mismatched ↔
          ∃ b ∈ matchArtifacts (files.map parseArtifact), NamedCompanion a b) := by
  intro h
  have hscan : matchArtifacts ([gameExe, brokenPdb].map parseArtifact) =
      [(parseArtifact gameExe), (parseArtifact brokenPdb)] := by decide +kernel
  have hiff := h [gameExe, brokenPdb] (by decide)
  rw [hscan] at hiff
  have hexpects : Expects (parseArtifact gameExe) (parseArtifact brokenPdb) :=
    ⟨by decide +kernel, by decide +kernel, "Game.pdb", by decide +kernel, by decide +kernel⟩
  have hstate := (hiff (parseArtifact brokenPdb) (by simp) (by decide +kernel)).mpr
    ⟨parseArtifact gameExe, by simp, by decide +kernel, .inr hexpects⟩
  exact absurd hstate (by decide +kernel)

end Files

end FaultLane.ArtifactMatching

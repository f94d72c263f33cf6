import FaultLane.GroupingTotality
import FaultLane.Redaction
import FaultLane.SymbolArrival

set_option autoImplicit false

/-!
# The symbols a result lacks

Which module identities of a result have a missing file, and the waiters that are stored for
them when the result is published.
-/
namespace FaultLane.MissingWaiters
open Json Fallible RustText CrashSymbols ProcessingContract GroupingTotality
open SymbolArrival (ProcessingState)

section Identities

/-- The files that a module with these identifiers lacks. -/
def identityWaiters (architecture : String) (module : Json) : List SymbolWaiter :=
  match (get "module" module).bind asStr, (get "debug_id" module).bind asStr,
    (get "status" module).bind asStr with
  | some name, some debugId, some status =>
    let waiter (required : RequiredArtifact) (codeId : String) : SymbolWaiter :=
      ⟨required, asciiLowercase name, asciiLowercase architecture, asciiUppercase debugId, codeId⟩
    (if status = "missing_pdb" ∨ status = "mismatched" then [waiter .pdb ""] else []) ++
      match (get "code_id" module).bind asStr with
      | some codeId =>
        if status = "missing_pe" ∨ status = "mismatched" then [waiter .pe (asciiUppercase codeId)]
        else []
      | none => []
  | _, _, _ => []

def architectureOf (result : Json) : String :=
  ((pointer ["current", "symbolication", "architecture"] result).bind asStr).getD ""

def modulesOf (result : Json) : List Json :=
  ((pointer ["current", "symbolication", "modules"] result).bind asArray).getD []

/-- One waiter for each file that a module identity of the result lacks. -/
def missingWaiters (result : Json) : Finset SymbolWaiter :=
  ((modulesOf result).flatMap (identityWaiters (architectureOf result))).toFinset

def within (limit : Nat) (s : String) : Prop := s ≠ "" ∧ s.utf8ByteSize ≤ limit

instance (limit : Nat) (s : String) : Decidable (within limit s) :=
  inferInstanceAs (Decidable (_ ∧ _))

/-- The lengths that `symbol_waiters` lets through. -/
def Fits (w : SymbolWaiter) : Prop :=
  within 256 w.moduleName ∧ within 128 w.debugId ∧ (w.requiredArtifact = .pe → within 128 w.codeId)

instance : DecidablePred Fits := fun _ => inferInstanceAs (Decidable (_ ∧ _ ∧ (_ → _)))

end Identities

section Publication

/-- A text that a column with this length check takes. -/
def storableText (least most : Nat) (s : String) : Prop :=
  least ≤ s.length ∧ s.length ≤ most ∧ Char.ofNat 0 ∉ s.toList

instance (least most : Nat) (s : String) : Decidable (storableText least most s) :=
  inferInstanceAs (Decidable (_ ∧ _ ∧ _))

/-- The checks of `crash_symbol_waiters`. -/
def Storable (w : SymbolWaiter) : Prop :=
  storableText 1 256 w.moduleName ∧ storableText 1 32 w.architecture ∧
    storableText 1 128 w.debugId ∧ storableText 0 128 w.codeId ∧
    (w.requiredArtifact = .pe ∧ w.codeId ≠ "" ∨ w.requiredArtifact = .pdb)

instance : DecidablePred Storable := fun _ => inferInstanceAs (Decidable (_ ∧ _ ∧ _ ∧ _ ∧ _))

/-- The rows that are there afterwards. -/
def replaceSymbolWaiters (release : ReleaseResolution) (waiters : Finset SymbolWaiter) :
    Worked (Finset SymbolWaiter) :=
  if release.matchedId.isNone then .ok ∅
  else do
    refuse (∃ w ∈ waiters, ¬ Storable w) (.transient "database_unavailable")
    .ok waiters

/-- What `publish_crash_result` does with the waiters of a result. -/
def publishWaiters (result : Json) (state : ProcessingState) (release : ReleaseResolution) :
    Worked (Finset SymbolWaiter) := do
  let waiters ← (if state = .awaitingSymbols then symbolWaiters result release else .ok ∅)
  replaceSymbolWaiters release waiters

/-- The state that `process_crash` publishes a result with, made with symbols or without. -/
def resultState (ready : Bool) (result : Json) : ProcessingState :=
  if ready && hasResolvedFrame result then .processed else .awaitingSymbols

end Publication

section Lengths

theorem utf8ByteSize_ofList (s : Text) : (String.ofList s).utf8ByteSize = byteLength s := by
  induction s with
  | nil => rfl
  | cons c s ih =>
    have hcons : String.ofList (c :: s) = String.singleton c ++ String.ofList s := by
      apply String.toList_inj.mp
      simp
    rw [hcons, String.utf8ByteSize_append, String.utf8ByteSize_singleton, ih]
    rfl

theorem byteLength_map {f : Char → Char} (hf : ∀ c, (f c).utf8Size = c.utf8Size) (s : Text) :
    byteLength (s.map f) = byteLength s := by
  rw [byteLength, byteLength, List.map_map]
  exact congrArg List.sum (List.map_congr_left fun c _ => hf c)

theorem utf8Size_of_ascii {c d : Char} (hc : c.toNat < 128) (hd : d.toNat < 128) :
    c.utf8Size = d.utf8Size := by
  have hone : ∀ x : Char, x.toNat < 128 → x.utf8Size = 1 := by
    intro x hx
    apply Char.utf8Size_eq_one_iff.mpr
    rw [UInt32.le_iff_toNat_le]
    exact Nat.le_of_lt_succ hx
  rw [hone c hc, hone d hd]

theorem utf8Size_toLower (c : Char) : c.toLower.utf8Size = c.utf8Size := by
  unfold Char.toLower
  split_ifs with h
  · have hupper : c.toNat ≤ 90 := UInt32.le_iff_toNat_le.mp h.2
    apply utf8Size_of_ascii
    · change (c.val + ('a'.val - 'A'.val)).toNat < 128
      rw [UInt32.toNat_add]
      change (c.toNat + 32) % 2 ^ 32 < 128
      omega
    · omega
  · rfl

theorem utf8Size_toUpper (c : Char) : c.toUpper.utf8Size = c.utf8Size := by
  unfold Char.toUpper
  split_ifs with h
  · have hlower : 97 ≤ c.toNat := UInt32.le_iff_toNat_le.mp h.1
    have hupper : c.toNat ≤ 122 := UInt32.le_iff_toNat_le.mp h.2
    apply utf8Size_of_ascii
    · change (c.val + ('A'.val - 'a'.val)).toNat < 128
      rw [UInt32.toNat_add]
      change (c.toNat + 4294967264) % 2 ^ 32 < 128
      omega
    · omega
  · rfl

theorem within_iff {limit : Nat} {s : Text} :
    within limit (String.ofList s) ↔ s ≠ [] ∧ byteLength s ≤ limit := by
  rw [within, utf8ByteSize_ofList, ne_eq, String.ofList_eq_empty_iff]

theorem within_map {f : Char → Char} (hf : ∀ c, (f c).utf8Size = c.utf8Size) {limit : Nat}
    {s : String} : within limit (String.ofList (s.toList.map f)) ↔ within limit s := by
  have hs : within limit s ↔ s.toList ≠ [] ∧ byteLength s.toList ≤ limit := by
    conv_lhs => rw [← String.ofList_toList (s := s)]
    exact within_iff
  rw [within_iff, hs, byteLength_map hf, ne_eq, List.map_eq_nil_iff]

theorem within_asciiLowercase {limit : Nat} {s : String} :
    within limit (asciiLowercase s) ↔ within limit s := within_map utf8Size_toLower

theorem within_asciiUppercase {limit : Nat} {s : String} :
    within limit (asciiUppercase s) ↔ within limit s := within_map utf8Size_toUpper

theorem length_of_within {limit : Nat} {s : String} (h : within limit s) :
    1 ≤ s.length ∧ s.length ≤ limit := by
  have hbytes := h.2
  rw [← String.ofList_toList (s := s), utf8ByteSize_ofList] at hbytes
  have hlength := Redaction.length_le_byteLength s.toList
  have hpos : s.toList ≠ [] := fun hnil => h.1 (String.toList_eq_nil_iff.mp hnil)
  have hone := List.length_pos_iff.mpr hpos
  rw [String.length_toList] at hlength hone
  omega

end Lengths

section Loop

theorem boundedText_eq (limit : Nat) (value : Option Json) :
    boundedText limit value = (value.bind asStr).filter fun s => decide (within limit s) := by
  unfold boundedText
  congr 1
  funext s
  rw [Bool.eq_iff_iff, decide_eq_true_iff (p := within limit s), Bool.and_eq_true,
    decide_eq_true_iff, decide_eq_true_iff]
  rfl

/-- What a waiter takes from its module. -/
theorem of_mem_identityWaiters {architecture : String} {module : Json} {w : SymbolWaiter}
    (h : w ∈ identityWaiters architecture module) : ∃ name debugId,
      (get "module" module).bind asStr = some name ∧
      (get "debug_id" module).bind asStr = some debugId ∧
      w.moduleName = asciiLowercase name ∧ w.architecture = asciiLowercase architecture ∧
      w.debugId = asciiUppercase debugId ∧
      (w.requiredArtifact = .pdb ∧ w.codeId = "" ∨
        w.requiredArtifact = .pe ∧ ∃ codeId, w.codeId = asciiUppercase codeId) := by
  unfold identityWaiters at h
  generalize (get "module" module).bind asStr = name at h ⊢
  generalize (get "debug_id" module).bind asStr = debugId at h ⊢
  generalize (get "code_id" module).bind asStr = codeId at h
  generalize (get "status" module).bind asStr = status at h
  cases name with
  | none => cases h
  | some name =>
    cases debugId with
    | none => cases h
    | some debugId =>
      cases status with
      | none => cases h
      | some status =>
        refine ⟨name, debugId, rfl, rfl, ?_⟩
        rcases List.mem_append.mp h with hpdb | hpe
        · rw [List.mem_ite_nil_right, List.mem_singleton] at hpdb
          obtain ⟨-, rfl⟩ := hpdb
          exact ⟨rfl, rfl, rfl, .inl ⟨rfl, rfl⟩⟩
        · cases codeId with
          | none => cases hpe
          | some codeId =>
            rw [List.mem_ite_nil_right, List.mem_singleton] at hpe
            obtain ⟨-, rfl⟩ := hpe
            exact ⟨rfl, rfl, rfl, .inr ⟨rfl, codeId, rfl⟩⟩

theorem filter_unfit {found : List SymbolWaiter} (h : ∀ w ∈ found, ¬ Fits w) :
    found.filter (fun w => decide (Fits w)) = [] := by
  rw [List.filter_eq_nil_iff]
  intro w hw
  rw [decide_eq_true_iff]
  exact h w hw

/-- The length filters keep just the waiters that fit. -/
theorem moduleWaiters_eq {module : Json} {status : String} (architecture : String)
    (hstatus : (get "status" module).bind asStr = some status) :
    moduleWaiters architecture module =
      .ok ((identityWaiters architecture module).filter fun w => decide (Fits w)) := by
  have hmem := @of_mem_identityWaiters architecture module
  unfold moduleWaiters
  simp only [boundedText_eq, hstatus]
  unfold identityWaiters at hmem ⊢
  rw [hstatus] at hmem ⊢
  generalize (get "module" module).bind asStr = name at hmem ⊢
  generalize (get "debug_id" module).bind asStr = debugId at hmem ⊢
  generalize (get "code_id" module).bind asStr = codeId at hmem ⊢
  cases name with
  | none => rfl
  | some name =>
    cases debugId with
    | none => cases (some name : Option String).filter _ <;> rfl
    | some debugId =>
      by_cases hfits : within 256 name ∧ within 128 debugId
      · obtain ⟨hname, hdebug⟩ := hfits
        by_cases hpdb : status = "missing_pdb" ∨ status = "mismatched" <;>
          by_cases hpe : status = "missing_pe" ∨ status = "mismatched" <;>
          cases codeId with
          | none =>
            simp [Option.filter, hname, hdebug, hpdb, Fits, within_asciiLowercase,
              within_asciiUppercase, okOr]
          | some codeId =>
            by_cases hcode : within 128 codeId <;>
              simp [Option.filter, hname, hdebug, hpdb, hpe, hcode, Fits, within_asciiLowercase,
                within_asciiUppercase, okOr]
      · rw [filter_unfit]
        · by_cases hname : within 256 name
          · have hdebug : ¬ within 128 debugId := fun h => hfits ⟨hname, h⟩
            simp [Option.filter, hname, hdebug]
          · simp [Option.filter, hname]
        · intro w hw hfit
          obtain ⟨_, _, hn, hd, hwname, -, hwdebug, -⟩ := hmem hw
          cases hn
          cases hd
          exact hfits ⟨within_asciiLowercase.mp (hwname ▸ hfit.1),
            within_asciiUppercase.mp (hwdebug ▸ hfit.2.1)⟩

/-- The loop ends well just when all its waiters are within the limit. -/
theorem collectWaiters_eq {architecture : String} {added : Json → List SymbolWaiter}
    {modules : List Json} (h : ∀ m ∈ modules, moduleWaiters architecture m = .ok (added m))
    {waiters : Finset SymbolWaiter} (hlimit : waiters.card ≤ maxSymbolWaiters) :
    collectWaiters architecture modules waiters =
      if (waiters ∪ (modules.flatMap added).toFinset).card ≤ maxSymbolWaiters then
        .ok (waiters ∪ (modules.flatMap added).toFinset)
      else .error processorOutputInvalid := by
  induction modules generalizing waiters with
  | nil =>
    rw [List.flatMap_nil, List.toFinset_nil, Finset.union_empty, if_pos hlimit]
    rfl
  | cons m rest ih =>
    have hall : waiters ∪ ((m :: rest).flatMap added).toFinset =
        waiters ∪ (added m).toFinset ∪ (rest.flatMap added).toFinset := by
      rw [List.flatMap_cons, List.toFinset_append, Finset.union_assoc]
    rw [collectWaiters, h m List.mem_cons_self, ok_bind, hall]
    dsimp only
    by_cases hmore : maxSymbolWaiters < (waiters ∪ (added m).toFinset).card
    · have hsubset : waiters ∪ (added m).toFinset ⊆
          waiters ∪ (added m).toFinset ∪ (rest.flatMap added).toFinset := Finset.subset_union_left
      have hcard := Finset.card_le_card hsubset
      rw [refuse_of hmore, if_neg (by omega)]
      rfl
    · rw [refuse_of_not hmore, ok_bind, ih (fun x hx => h x (List.mem_cons_of_mem _ hx))
        (not_lt.mp hmore)]

end Loop

section Storing
variable {result : Json} {guid : Option String} {release : ReleaseResolution} {releaseId : String}

theorem status_of_valid {module : Json} (h : validateModule module = .ok ()) :
    ∃ status, (get "status" module).bind asStr = some status := by
  obtain ⟨object, hobject, h⟩ := bind_eq_ok.mp h
  have hobject := okOr_eq_ok.mp hobject
  have hfields := refuse_eq_ok.mp h
  have hget : (get "status" module).bind asStr = strAt "status" object := by
    rw [Json.get, hobject]
    rfl
  cases hstatus : strAt "status" object with
  | some status => exact ⟨status, hget.trans hstatus⟩
  | none => simp [hstatus, isSomeAnd] at hfields

theorem architecture_of_valid {value : Json} {version : Nat}
    (h : validateSymbolication value version = .ok ()) :
    ∃ symbolication, value.asObject = some symbolication ∧
      strAt "architecture" symbolication = some "x86_64" := by
  obtain ⟨symbolication, hobject, h⟩ := bind_eq_ok.mp h
  obtain ⟨_, hheader, -⟩ := bind_eq_ok.mp h
  obtain ⟨_, hfields, -⟩ := bind_eq_ok.mp hheader
  have hfields := refuse_eq_ok.mp hfields
  simp only [Bool.or_eq_true, not_or, bne_iff_ne, ne_eq, not_not] at hfields
  exact ⟨symbolication, okOr_eq_ok.mp hobject, hfields.1.1.2⟩

/-- The members of a valid result that its waiters are made of. -/
theorem members_of_valid (h : validateResult result guid = .ok ()) :
    ∃ symbolication modules,
      (pointer ["current", "symbolication"] result).bind asObject = some symbolication ∧
      strAt "architecture" symbolication = some "x86_64" ∧
      arrayAt "modules" symbolication = some modules ∧
      ∀ m ∈ modules, validateModule m = .ok () := by
  have hcontract : validateProcessingContract result guid true = .ok () := by
    change validateCurrentProcessingResult result guid = .ok ()
    unfold validateResult at h
    cases hresult : validateCurrentProcessingResult result guid with
    | ok _ => rfl
    | error e =>
      rw [hresult] at h
      cases e <;> cases h
  obtain ⟨object, current, -, hobject, hcurrent, -, hattempt, -⟩ := contract_steps hcontract
  obtain ⟨attempt, value, version, hattemptObject, hvalue, hsymbolication⟩ :=
    symbolication_of_attempt hattempt
  obtain ⟨symbolication, modules, -, hsymbolicationObject, hmodules, -, hvalid, -⟩ :=
    lists_of_symbolication hsymbolication
  obtain ⟨_, hsame, harchitecture⟩ := architecture_of_valid hsymbolication
  rw [hsymbolicationObject] at hsame
  cases hsame
  refine ⟨symbolication, modules, ?_, harchitecture, hmodules, hvalid⟩
  simp [pointer, Json.get, hobject, hcurrent, hattemptObject, hvalue, hsymbolicationObject]

theorem missingWaiters_eq (h : validateResult result guid = .ok ()) :
    ∃ symbolication modules,
      (pointer ["current", "symbolication"] result).bind asObject = some symbolication ∧
      strAt "architecture" symbolication = some "x86_64" ∧
      arrayAt "modules" symbolication = some modules ∧
      (∀ m ∈ modules, validateModule m = .ok ()) ∧
      missingWaiters result = (modules.flatMap (identityWaiters "x86_64")).toFinset := by
  obtain ⟨symbolication, modules, hobject, harchitecture, hmodules, hvalid⟩ := members_of_valid h
  refine ⟨symbolication, modules, hobject, harchitecture, hmodules, hvalid, ?_⟩
  have hmember : ∀ key, pointer ["current", "symbolication", key] result =
      SortedMap.get key symbolication := by
    intro key
    have hpointer : pointer ["current", "symbolication", key] result =
        (pointer ["current", "symbolication"] result).bind (get key) := rfl
    rw [hpointer]
    cases hvalue : pointer ["current", "symbolication"] result with
    | none =>
      rw [hvalue] at hobject
      cases hobject
    | some value =>
      rw [hvalue, Option.bind_some] at hobject
      rw [Option.bind_some, Json.get, hobject]
      rfl
  have hname : architectureOf result = "x86_64" := by
    rw [architectureOf, hmember]
    exact congrArg (fun o => o.getD "") harchitecture
  have hlist : modulesOf result = modules := by
    rw [modulesOf, hmember]
    exact congrArg (fun o => o.getD []) hmodules
  rw [missingWaiters, hname, hlist]

/-- What the worker computes for a valid result. -/
theorem symbolWaiters_of_valid (h : validateResult result guid = .ok ())
    (hmatched : release.matchedId = some releaseId) :
    symbolWaiters result release =
      if ((missingWaiters result).filter Fits).card ≤ maxSymbolWaiters then
        .ok ((missingWaiters result).filter Fits)
      else .error processorOutputInvalid := by
  obtain ⟨symbolication, modules, hobject, harchitecture, hmodules, hvalid, hmissing⟩ :=
    missingWaiters_eq h
  have hbounded : boundedText 32 (SortedMap.get "architecture" symbolication) = some "x86_64" := by
    rw [boundedText_eq]
    change (strAt "architecture" symbolication).filter _ = _
    rw [harchitecture]
    decide
  have hadded : ∀ m ∈ modules, moduleWaiters "x86_64" m =
      .ok ((identityWaiters "x86_64" m).filter fun w => decide (Fits w)) := by
    intro m hm
    obtain ⟨status, hstatus⟩ := status_of_valid (hvalid m hm)
    exact moduleWaiters_eq "x86_64" hstatus
  have hloop := @collectWaiters_eq "x86_64" _ modules hadded ∅ (Nat.zero_le _)
  have hfilter : (modules.flatMap fun m =>
      (identityWaiters "x86_64" m).filter fun w => decide (Fits w)).toFinset =
        (missingWaiters result).filter Fits := by
    rw [hmissing]
    ext w
    simp only [List.mem_toFinset, List.mem_flatMap, List.mem_filter, decide_eq_true_eq,
      Finset.mem_filter]
    tauto
  rw [Finset.empty_union, hfilter] at hloop
  have hnot : ¬ release.matchedId.isNone = true := by
    rw [hmatched]
    exact Bool.false_ne_true
  unfold symbolWaiters
  rw [if_neg hnot, hobject, okOr_some, ok_bind, hbounded, okOr_some, ok_bind, hmodules, okOr_some,
    ok_bind, hloop]

/-- A waiter of a valid result that fits is stored unless a text holds the null character. -/
theorem storable_iff (h : validateResult result guid = .ok ()) {w : SymbolWaiter}
    (hw : w ∈ missingWaiters result) (hfits : Fits w) :
    Storable w ↔ Char.ofNat 0 ∉ w.moduleName.toList ∧ Char.ofNat 0 ∉ w.debugId.toList ∧
      Char.ofNat 0 ∉ w.codeId.toList := by
  obtain ⟨_, modules, -, -, -, -, hmissing⟩ := missingWaiters_eq h
  rw [hmissing, List.mem_toFinset, List.mem_flatMap] at hw
  obtain ⟨module, -, hw⟩ := hw
  obtain ⟨_, _, -, -, -, harchitecture, -, hkind⟩ := of_mem_identityWaiters hw
  have hname := length_of_within hfits.1
  have hdebug := length_of_within hfits.2.1
  have hx : storableText 1 32 w.architecture := by
    rw [harchitecture]
    decide
  have hcode : w.codeId.length ≤ 128 ∧
      (w.requiredArtifact = .pe ∧ w.codeId ≠ "" ∨ w.requiredArtifact = .pdb) := by
    rcases hkind with ⟨hpdb, hnone⟩ | ⟨hpe, -⟩
    · rw [hnone]
      exact ⟨by decide, .inr hpdb⟩
    · have hcode := hfits.2.2 hpe
      exact ⟨(length_of_within hcode).2, .inl ⟨hpe, hcode.1⟩⟩
  constructor
  · rintro ⟨hm, -, hd, hc, -⟩
    exact ⟨hm.2.2, hd.2.2, hc.2.2⟩
  · rintro ⟨hm, hd, hc⟩
    exact ⟨⟨hname.1, hname.2, hm⟩, hx, ⟨hdebug.1, hdebug.2, hd⟩, ⟨Nat.zero_le _, hcode.1, hc⟩,
      hcode.2⟩

/-- When a result's publication stores a waiter for just the files it lacks. -/
theorem publishWaiters_iff (h : validateResult result guid = .ok ())
    (hmatched : release.matchedId = some releaseId) (ready : Bool) :
    publishWaiters result (resultState ready result) release = .ok (missingWaiters result) ↔
      (resultState ready result = .processed → missingWaiters result = ∅) ∧
      (∀ w ∈ missingWaiters result, Fits w ∧ Char.ofNat 0 ∉ w.moduleName.toList ∧
        Char.ofNat 0 ∉ w.debugId.toList ∧ Char.ofNat 0 ∉ w.codeId.toList) ∧
      (missingWaiters result).card ≤ maxSymbolWaiters := by
  have hreplace : ∀ waiters : Finset SymbolWaiter,
      replaceSymbolWaiters release waiters = .ok (missingWaiters result) ↔
        waiters = missingWaiters result ∧ ∀ w ∈ waiters, Storable w := by
    intro waiters
    have hnot : ¬ release.matchedId.isNone = true := by
      rw [hmatched]
      exact Bool.false_ne_true
    rw [replaceSymbolWaiters, if_neg hnot]
    by_cases hbad : ∃ w ∈ waiters, ¬ Storable w
    · rw [refuse_of hbad]
      constructor
      · exact nofun
      · rintro ⟨-, hall⟩
        obtain ⟨w, hw, hbad⟩ := hbad
        exact absurd (hall w hw) hbad
    · rw [refuse_of_not hbad, ok_bind, Except.ok.injEq]
      simp only [not_exists, not_and, not_not] at hbad
      exact (and_iff_left hbad).symm
  by_cases hstate : resultState ready result = .awaitingSymbols
  · have hprocessed : ¬ resultState ready result = .processed := by
      rw [hstate]
      exact nofun
    have hfilter : (missingWaiters result).filter Fits = missingWaiters result ↔
        ∀ w ∈ missingWaiters result, Fits w := Finset.filter_eq_self
    rw [publishWaiters, if_pos hstate, symbolWaiters_of_valid h hmatched]
    constructor
    · intro hok
      split_ifs at hok with hcard
      · rw [ok_bind, hreplace] at hok
        rw [hok.1] at hcard
        have hfits := hfilter.mp hok.1
        refine ⟨fun hp => absurd hp hprocessed, fun w hw => ⟨hfits w hw, ?_⟩, hcard⟩
        exact (storable_iff h hw (hfits w hw)).mp (hok.2 w (hok.1.symm ▸ hw))
      · cases hok
    · rintro ⟨-, hall, hcard⟩
      have hsame := hfilter.mpr fun w hw => (hall w hw).1
      rw [hsame, if_pos hcard, ok_bind, hreplace]
      exact ⟨rfl, fun w hw => (storable_iff h hw (hall w hw).1).mpr (hall w hw).2⟩
  · have hprocessed : resultState ready result = .processed := by
      unfold resultState at hstate ⊢
      split_ifs at hstate ⊢
      · rfl
      · exact absurd rfl hstate
    rw [publishWaiters, if_neg hstate, ok_bind, hreplace]
    constructor
    · rintro ⟨hempty, -⟩
      rw [← hempty]
      exact ⟨fun _ => rfl, nofun, Nat.zero_le _⟩
    · rintro ⟨hnone, -, -⟩
      exact ⟨(hnone hprocessed).symm, nofun⟩

end Storing

end FaultLane.MissingWaiters

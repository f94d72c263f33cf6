import FaultLane.ReprocessingSizes

set_option autoImplicit false

/-!
# Which reprocessings fit

A crash can be reprocessed along a sequence of outcomes just when its documents leave room for the
attempts that they carry.
-/
namespace FaultLane.ReprocessingSizes
open Fallible Json BoundedHistory CrashContext CrashRequest Symbolication CrashSymbols
  ProcessingContract ProcessingResult ProcessingProducer ProcessingHistory Redaction
  RedactedResults RepeatedReprocessing
open CrashJob (RunnerError mapRunnerError maxPreviousResultBytes)

section sizes
variable {c : Crash} {r : SymbolicationResult} {p : Processing} {history : List Json}

theorem length_writeJson (v : Json) : (writeJson v).length = v.size + 1 := by
  rw [writeJson, List.length_append, length_toVec]
  rfl

/-- The history is the last member of a result. -/
theorem size_history (guid : String) (context : CrashContextData)
    (request : Option CrashRequestManifest) (classification : Option CrashClassification)
    (log : Option CrashRequestLog) (current : Json) (history : List Json) :
    (Json.ofFields (resultFieldValues guid context request classification log current
        history)).size =
      (Json.ofFields (resultFieldValues guid context request classification log current [])).size +
        listed history := by
  have hsplit : ∀ history, resultFieldValues guid context request classification log current
      history = (resultFieldValues guid context request classification log current []).dropLast ++
        ("history", .array history) :: [] := by
    intro history
    cases request <;> cases classification <;> cases log <;> rfl
  have hkeys : (SortedMap.keys (resultFieldValues guid context request classification log current
      [])).Nodup := by
    cases request <;> cases classification <;> cases log <;>
      simp [SortedMap.keys, resultFieldValues, optionalField]
  rw [hsplit []] at hkeys
  rw [hsplit history, size_listed _ _ _ hkeys, ← hsplit []]

theorem size_output : (c.output r history).size = (c.output r []).size + listed history :=
  size_history _ _ _ _ _ _ _

theorem size_output_singleton (a : Json) :
    (c.output r [a]).size = (c.output r []).size + a.size := by
  rw [size_output, listed_singleton]

theorem size_published :
    (c.published p history).size = (c.published p []).size + listed history :=
  size_history _ _ _ _ _ _ _

end sizes

section steps
variable {fromSlice : List UInt8 → Option Json} {c : Crash} {r : SymbolicationResult}
  {p : Processing} {before : List Processing} {stored : Option Json}

theorem validate_of_validateResult {result : Json} {guid : Option String}
    (h : validateResult result guid = .ok ()) :
    validateCurrentProcessingResult result guid = .ok () := by
  unfold validateResult at h
  cases hresult : validateCurrentProcessingResult result guid with
  | ok _ => rfl
  | error e =>
    rw [hresult] at h
    cases e <;> cases h

theorem FitsAlone.usable (h : FitsAlone c r) : Usable c.guid (c.input r) := by
  obtain ⟨result, hbuild, hvalid, -⟩ := h
  obtain ⟨guid, hguid, hresult⟩ := bind_eq_ok.mp hbuild
  obtain ⟨hidentity, hblank⟩ := Option.filter_eq_some_iff.mp (okOr_eq_ok.mp hguid)
  obtain rfl := Except.ok.inj hresult
  obtain ⟨rfl, hattempt⟩ := identity_of_valid (validate_of_validateResult hvalid)
  exact ⟨by simpa using hblank, hidentity, named_of_validateAttempt hattempt⟩

/-- The processor can be given the file, and carries on from it. -/
structure Carries (fromSlice : List UInt8 → Option Json) (c : Crash) (before : List Processing)
    (bytes : Option (List UInt8)) : Prop where
  small : readOptional bytes = .ok bytes
  parsed : ∃ previous, parseOptionalPrevious fromSlice bytes c.guid = .ok previous ∧
    ∀ next, nextHistory previous next = carried c before next

def Follows (fromSlice : List UInt8 → Option Json) (c : Crash) (before : List Processing)
    (stored : Option Json) : Prop :=
  ∃ bytes, previousFile stored = .ok bytes ∧ Carries fromSlice c before bytes

theorem follows_nil : Follows fromSlice c [] none :=
  ⟨none, rfl, ⟨rfl, none, rfl, fun _ => rfl⟩⟩

variable {bytes : Option (List UInt8)}

theorem Carries.process_eq (h : Carries fromSlice c before bytes)
    (husable : Usable c.guid (c.input r)) :
    process fromSlice (c.input r) bytes =
      .ok (writeJson (c.output r (carried c before (c.input r).attempt))) := by
  obtain ⟨hsmall, previous, hprevious, hnext⟩ := h
  rw [process, hsmall, ok_bind, reprocess_step husable hprevious, built, hnext]
  rfl

theorem Carries.accepted (h : Carries fromSlice c before bytes)
    (husable : Usable c.guid (c.input p.outcome)) :
    Accepted ⟨c.kept p, carried c before (c.fresh p)⟩ := by
  obtain ⟨-, previous, hprevious, hnext⟩ := h
  rw [← hnext]
  exact accepted_nextHistory husable (accepted_of_parseOptional hprevious)

theorem Carries.validateResult_eq (h : Carries fromSlice c before bytes)
    (husable : Usable c.guid (c.input r)) :
    validateResult (c.output r (carried c before (c.input r).attempt)) (some c.guid) = .ok () := by
  obtain ⟨-, previous, hprevious, hnext⟩ := h
  have hvalid : validateCurrentProcessingResult
      (c.output r (carried c before (c.input r).attempt)) (some c.guid) = .ok () := by
    rw [← hnext]
    exact built_valid husable (accepted_of_parseOptional hprevious) true
  have hmodules : processingModules (c.output r (carried c before (c.input r).attempt)) =
      .ok (r.modules.map SymbolArrival.identity) :=
    SymbolArrival.processingModules_of_pointer
      (SymbolArrival.pointer_resultFieldValues _ _ _ _ _ _ _ _)
  rw [validateResult, hvalid, ok_bind, hmodules]
  rfl

/-- A run of the processor answers just when its output is within the limit. -/
theorem Carries.runProcessor_eq (h : Carries fromSlice c before bytes)
    (husable : Usable c.guid (c.input r))
    (hread : ReadBack fromSlice (c.output r (carried c before (c.input r).attempt))) :
    runProcessor fromSlice c.guid (c.input r) bytes =
      if processorOutputBytes <
          (c.output r []).size + listed (carried c before (c.input r).attempt) + 1
      then .error (.resource "processor_resource_limit")
      else .ok (c.output r (carried c before (c.input r).attempt)) := by
  rw [runProcessor, h.process_eq husable, runBounded, readBounded, length_writeJson, size_output,
    refuse]
  split_ifs with hlarge
  · rfl
  · change okOr (fromSlice (writeJson _)) _ >>= _ = _
    rw [hread.2, okOr_some, ok_bind, h.validateResult_eq husable]
    rfl

theorem redactAndIndex_output (rules : DataRules) (history : List Json) :
    (redactAndIndex rules (c.output r history)).1 =
      storedResult rules c.guid (c.input r) history :=
  redactAndIndex_resultFieldValues rules _ _ _ _ _ _ _ _

theorem Carries.processCrash_eq (h : Carries fromSlice c before bytes)
    (hprevious : previousFile stored = .ok bytes)
    (husable : ∀ r ∈ p.runs, Usable c.guid (c.input r))
    (hread : ∀ r ∈ p.runs,
      ReadBack fromSlice (c.output r (carried c before (c.input r).attempt)))
    (hroom : ∀ r ∈ p.runs, (c.output r []).size +
      listed (carried c before (c.input r).attempt) + 1 ≤ processorOutputBytes) :
    processCrash fromSlice c stored p =
      .ok (c.published p (carried c before (c.fresh p))) := by
  have hrun : ∀ r ∈ p.runs, runProcessor fromSlice c.guid (c.input r) bytes =
      .ok (c.output r (carried c before (c.input r).attempt)) := by
    intro r hr
    rw [h.runProcessor_eq (husable r hr) (hread r hr), if_neg (Nat.not_lt.mpr (hroom r hr))]
  have hinspection := hrun p.inspection List.mem_cons_self
  rw [processCrash, hprevious, ok_bind, hinspection, ok_bind]
  cases hsymbols : p.symbolicated with
  | none =>
    have houtcome : p.outcome = p.inspection := by rw [Processing.outcome, hsymbols]; rfl
    dsimp only
    rw [ok_bind, redactAndIndex_output, Crash.published, Crash.fresh, houtcome]
    rfl
  | some r =>
    have houtcome : p.outcome = r := by rw [Processing.outcome, hsymbols]; rfl
    have hr : r ∈ p.runs := by
      rw [Processing.runs, hsymbols]
      exact List.mem_cons_of_mem _ List.mem_cons_self
    dsimp only
    rw [hrun r hr, ok_bind, redactAndIndex_output, Crash.published, Crash.fresh, houtcome]
    rfl

theorem fitsAlone_of_usable (husable : Usable c.guid (c.input r))
    (hsize : (c.output r []).size + 1 ≤ processorOutputBytes) : FitsAlone c r := by
  have hcarries : Carries (fun _ => none) c [] none := ⟨rfl, none, rfl, fun _ => rfl⟩
  refine ⟨_, build_usable husable none, hcarries.validateResult_eq husable, ?_⟩
  rw [length_writeJson]
  exact hsize

/-- The published result is the next one to carry on from. -/
theorem Carries.follows_published (h : Carries fromSlice c before bytes)
    (husable : Usable c.guid (c.input p.outcome))
    (hread : ReadBack fromSlice (c.published p (carried c before (c.fresh p))))
    (hsize : (c.published p (carried c before (c.fresh p))).size ≤ maxPreviousResultBytes) :
    Follows fromSlice c (before ++ [p]) (some (c.published p (carried c before (c.fresh p)))) := by
  have hlength : (c.published p (carried c before (c.fresh p))).toVec.length ≤
      maxPreviousResultBytes := by
    rw [length_toVec]
    exact hsize
  have hgiven : (c.published p (carried c before (c.fresh p))).toVec.length ≤ maxPreviousBytes :=
    hlength
  have hsmall : readOptional (some (c.published p (carried c before (c.fresh p))).toVec) =
      .ok (some (c.published p (carried c before (c.fresh p))).toVec) := by
    rw [readOptional, refuse_of_not (Nat.not_lt.mpr hgiven)]
    rfl
  have hparsed : parseOptionalPrevious fromSlice
      (some (c.published p (carried c before (c.fresh p))).toVec) c.guid =
        .ok (some ⟨c.kept p, carried c before (c.fresh p)⟩) := by
    rw [parseOptionalPrevious, parsePrevious_storedResult husable (h.accepted husable) hread.1]
    rfl
  refine ⟨_, ?_, hsmall, _, hparsed, fun next => carried_append before p next⟩
  rw [previousFile, refuse_of_not (Nat.not_lt.mpr hlength)]
  rfl

/-- One processing does what reprocessing asks just when its documents are roomy, and then the
next one carries on from it. -/
theorem Follows.step (h : Follows fromSlice c before stored)
    (husable : ∀ r ∈ p.runs, Usable c.guid (c.input r))
    (hread : ∀ r ∈ p.runs,
      ReadBack fromSlice (c.output r (carried c before (c.input r).attempt)))
    (hstored : ReadBack fromSlice (c.published p (carried c before (c.fresh p)))) :
    (Reprocesses fromSlice c stored p ↔ Roomy c before p) ∧
      (Roomy c before p → Follows fromSlice c (before ++ [p]) (advance fromSlice c stored p)) := by
  obtain ⟨bytes, hprevious, hcarries⟩ := h
  have houtcome : p.outcome ∈ p.runs := by
    rw [Processing.outcome, Processing.runs]
    cases p.symbolicated with
    | none => exact List.mem_cons_self
    | some r => exact List.mem_cons_of_mem _ List.mem_cons_self
  have hsize := @size_published c p (carried c before (c.fresh p))
  refine ⟨⟨fun hdone => ?_, fun hroomy => ?_⟩, fun hroomy => ?_⟩
  · have houtputs : ∀ r ∈ p.runs, (c.output r []).size +
        listed (carried c before (c.input r).attempt) + 1 ≤ processorOutputBytes := by
      intro r hr
      obtain ⟨file, output, hfile, houtput, hlength⟩ := hdone.outputs r hr
      obtain rfl := Except.ok.inj (hprevious.symm.trans hfile)
      obtain rfl := Except.ok.inj ((hcarries.process_eq (husable r hr)).symm.trans houtput)
      rwa [length_writeJson, size_output] at hlength
    refine ⟨houtputs, ?_⟩
    obtain ⟨result, hresult, hlength, -⟩ := hdone.published
    have hprocess := hcarries.processCrash_eq hprevious husable hread houtputs
    obtain rfl := Except.ok.inj (hprocess.symm.trans hresult)
    rwa [length_toVec, hsize] at hlength
  · have hprocess := hcarries.processCrash_eq hprevious husable hread hroomy.outputs
    refine ⟨fun r hr => ⟨bytes, _, hprevious, hcarries.process_eq (husable r hr), ?_⟩,
      _, hprocess, ?_, ?_⟩
    · rw [length_writeJson, size_output]
      exact hroomy.outputs r hr
    · rw [length_toVec, hsize]
      exact hroomy.published
    · rw [length_toVec, hsize]
      exact hroomy.published
  · have hprocess := hcarries.processCrash_eq hprevious husable hread hroomy.outputs
    rw [advance, hprocess]
    exact hcarries.follows_published (husable _ houtcome) hstored (hsize ▸ hroomy.published)

end steps

section runs
variable {fromSlice : List UInt8 → Option Json} {c : Crash}

/-- Induction on the processings to come; what is stored carries the ones before. -/
theorem Follows.roomy_iff {before processings : List Processing} {stored : Option Json}
    (h : Follows fromSlice c before stored)
    (husable : ∀ p ∈ processings, ∀ r ∈ p.runs, Usable c.guid (c.input r))
    (hread : AllReadBack c fromSlice before processings) :
    Reprocessable fromSlice c stored processings ↔ AlwaysRoomy c before processings := by
  induction processings generalizing before stored with
  | nil => exact Iff.rfl
  | cons p rest ih =>
    obtain ⟨houtputs, hstored, hrest⟩ := hread
    obtain ⟨hiff, hnext⟩ := h.step (husable p List.mem_cons_self) houtputs hstored
    have husableRest := fun q hq => husable q (List.mem_cons_of_mem _ hq)
    constructor
    · rintro ⟨hdone, hall⟩
      have hroomy := hiff.mp hdone
      exact ⟨hroomy, (ih (hnext hroomy) husableRest hrest).mp hall⟩
    · rintro ⟨hroomy, hall⟩
      exact ⟨hiff.mpr hroomy, (ih (hnext hroomy) husableRest hrest).mpr hall⟩

theorem mem_superseded {before : List Processing} {next v : Json}
    (h : v ∈ superseded c before next) : ∃ p ∈ before, v = c.kept p := by
  induction before with
  | nil => cases h
  | cons p rest ih =>
    have hhead : ∀ (condition : Prop) [Decidable condition],
        v ∈ (if condition then [] else [c.kept p]) → v = c.kept p := by
      intro condition _ hv
      split_ifs at hv
      · cases hv
      · exact List.mem_singleton.mp hv
    cases rest with
    | nil => exact ⟨p, List.mem_cons_self, hhead _ h⟩
    | cons q rest =>
      rcases List.mem_append.mp h with h | h
      · exact ⟨p, List.mem_cons_self, hhead _ h⟩
      · obtain ⟨s, hs, hv⟩ := ih h
        exact ⟨s, List.mem_cons_of_mem _ hs, hv⟩

theorem listed_carried_le {before : List Processing} {next : Json} {n : Nat}
    (h : ∀ p ∈ before, (c.kept p).size ≤ n) :
    listed (carried c before next) ≤ maxProcessingHistory * (n + 1) := by
  have hall : ∀ v ∈ carried c before next, v.size ≤ n := by
    intro v hv
    obtain ⟨p, hp, rfl⟩ := mem_superseded (List.mem_of_mem_drop hv)
    exact h p hp
  have hlength : (carried c before next).length ≤ maxProcessingHistory := length_takeLast_le _ _
  calc listed (carried c before next)
      ≤ (carried c before next).length * (n + 1) := listed_le hall
    _ ≤ maxProcessingHistory * (n + 1) := Nat.mul_le_mul_right _ hlength

/-- A history full of attempts leaves room when each of them is small. -/
theorem alwaysRoomy_of_small {before processings : List Processing} {n : Nat}
    (hbefore : ∀ p ∈ before, (c.kept p).size ≤ n)
    (hkept : ∀ p ∈ processings, (c.kept p).size ≤ n)
    (houtput : ∀ p ∈ processings, ∀ r ∈ p.runs,
      (c.output r []).size + maxProcessingHistory * (n + 1) + 1 ≤ processorOutputBytes)
    (hpublished : ∀ p ∈ processings,
      (c.published p []).size + maxProcessingHistory * (n + 1) ≤ maxPreviousResultBytes) :
    AlwaysRoomy c before processings := by
  induction processings generalizing before with
  | nil => trivial
  | cons p rest ih =>
    have hcarried : ∀ next, listed (carried c before next) ≤ maxProcessingHistory * (n + 1) :=
      fun _ => listed_carried_le hbefore
    refine ⟨⟨fun r hr => ?_, ?_⟩, ih ?_ ?_ ?_ ?_⟩
    · have hroom := houtput p List.mem_cons_self r hr
      have hlisted := hcarried (c.input r).attempt
      omega
    · have hroom := hpublished p List.mem_cons_self
      have hlisted := hcarried (c.fresh p)
      omega
    · intro q hq
      rcases List.mem_append.mp hq with hq | hq
      · exact hbefore q hq
      · obtain rfl := List.mem_singleton.mp hq
        exact hkept q List.mem_cons_self
    · exact fun q hq => hkept q (List.mem_cons_of_mem _ hq)
    · exact fun q hq => houtput q (List.mem_cons_of_mem _ hq)
    · exact fun q hq => hpublished q (List.mem_cons_of_mem _ hq)

end runs
end FaultLane.ReprocessingSizes

import FaultLane.ProcessingProducer

set_option autoImplicit false

/-!
# Reprocessing

What the producer builds over an accepted result is accepted in turn, so a crash can
be processed any number of times. The history holds the attempts that a different one
replaced.
-/
namespace FaultLane.ProcessingHistory
open Fallible SortedMap Json BoundedHistory CrashContext CrashRequest Symbolication
  ProcessingContract ProcessingResult ProcessingProducer

section Contract
variable {guid : String} {context : CrashContextData} {request : Option CrashRequestManifest}
  {classification : Option CrashClassification} {log : Option CrashRequestLog} {current : Json}
  {history : List Json}

theorem onlyKeys_resultFields :
    onlyKeys (SortedMap.ofFields
      (resultFieldValues guid context request classification log current history)) resultFields =
        true := by
  rw [onlyKeys_ofFields]
  cases request <;> cases classification <;> cases log <;> rfl

theorem get_last {key : String} (h : key = "current" ∨ key = "history") :
    get key (resultFieldValues guid context request classification log current history) =
      get key [("current", current), ("history", .array history)] := by
  rcases h with rfl | rfl <;>
    simp [resultFieldValues, get_append, get_optionalField]

theorem get_request :
    get "request" (resultFieldValues guid context request classification log current history) =
      request.map CrashRequestManifest.toJson := by
  cases request <;> simp [resultFieldValues, get_append, get_optionalField]

theorem get_classification :
    get "classification"
        (resultFieldValues guid context request classification log current history) =
      classification.map CrashClassification.toJson := by
  cases classification <;> simp [resultFieldValues, get_append, get_optionalField]

theorem get_log :
    get "log" (resultFieldValues guid context request classification log current history) =
      log.map CrashRequestLog.toJson := by
  cases log <;> simp [resultFieldValues, get_append, get_optionalField]

theorem validateOptional_map {α : Type} {field : String} {validator : Json → Checked Unit}
    {toJson : α → Json} {o : Option α} {object : JsonMap}
    (hget : get field object = o.map toJson) (h : ∀ a, validator (toJson a) = .ok ()) :
    validateOptional field validator object = .ok () := by
  unfold validateOptional
  rw [hget]
  cases o with
  | none => rfl
  | some a => exact h a

/-- What an attempt must be for a result to hold it as the current one. -/
structure Current (context : CrashContextData) (current : Json) : Prop where
  valid : validateAttempt current = .ok ()
  version : (current.get "processing_version").bind asU64 = some processingVersion
  parser : (current.get "parser_version").bind asU64 = some context.parserVersion

theorem validateProcessingContract_built (requireCurrent : Bool)
    (hblank : isBlank guid = false) (hguid : context.crashGuid = some guid)
    (hparser : context.parserVersion = crashContextParserVersion)
    (hcurrent : Current context current) (hlength : history.length ≤ maxProcessingHistory)
    (hhistory : ∀ a ∈ history, validateAttempt a = .ok ()) :
    validateProcessingContract (Json.ofFields
      (resultFieldValues guid context request classification log current history)) (some guid)
        requireCurrent = .ok () := by
  have hget := fun key => get_ofFields key
    (resultFieldValues guid context request classification log current history)
  have hschema : validateSchemaVersion (SortedMap.ofFields
      (resultFieldValues guid context request classification log current history)) = .ok () := by
    rw [validateSchemaVersion, u64At, hget]
    rfl
  have hidentity : strAt "crash_guid" (SortedMap.ofFields
      (resultFieldValues guid context request classification log current history)) =
        some guid := by
    rw [strAt, hget]
    rfl
  have hlist : arrayAt "history" (SortedMap.ofFields
      (resultFieldValues guid context request classification log current history)) =
        some history := by
    rw [arrayAt, hget, get_last (Or.inr rfl)]
    rfl
  have hnow : get "current" (SortedMap.ofFields
      (resultFieldValues guid context request classification log current history)) =
        some current := by
    rw [hget, get_last (Or.inl rfl)]
    rfl
  have hcontext : objectAt "crash_context" (SortedMap.ofFields
      (resultFieldValues guid context request classification log current history)) =
        some (SortedMap.ofFields context.fields) := by
    rw [objectAt, hget]
    rfl
  have hcontextGuid : strAt "crash_guid" (SortedMap.ofFields context.fields) = some guid := by
    rw [strAt, get_ofFields, CrashContextData.fields, hguid]
    rfl
  have hcontextParser : u64At "parser_version" (SortedMap.ofFields context.fields) =
      some context.parserVersion := by
    rw [u64At, get_ofFields]
    rfl
  unfold validateProcessingContract
  simp only [asObject_ofFields, okOr_some, ok_bind, onlyKeys_resultFields, hschema, hidentity,
    hlist, hnow, hcontext, hcontextGuid, hcontextParser, hcurrent.valid, hcurrent.version,
    hcurrent.parser, forEach_eq_ok.mpr hhistory, validateCrashContext_fields context hparser,
    validateOptional_map ((hget _).trans get_request) validateRequest_toJson,
    validateOptional_map ((hget _).trans get_classification) validateClassification_toJson,
    validateOptional_map ((hget _).trans get_log) validateLog_toJson, Option.filter_some, hblank,
    refuse_of_not (Nat.not_lt.mpr hlength)]
  simp [refuse, isSomeAnd]

/-- A stored result that keeps the contract is read back with its attempt and its history. -/
theorem parsePrevious_valid {fromSlice : List UInt8 → Option Json} {bytes : List UInt8}
    (hbytes : fromSlice bytes = some (Json.ofFields
      (resultFieldValues guid context request classification log current history)))
    (hvalid : validateProcessingResult (Json.ofFields
      (resultFieldValues guid context request classification log current history)) (some guid) =
        .ok ()) :
    parsePreviousProcessing fromSlice bytes guid = .ok ⟨current, history⟩ := by
  have hcurrent : get "current" (SortedMap.ofFields
      (resultFieldValues guid context request classification log current history)) =
        some current := by
    rw [get_ofFields, get_last (Or.inl rfl)]
    rfl
  have hhistory : arrayAt "history" (SortedMap.ofFields
      (resultFieldValues guid context request classification log current history)) =
        some history := by
    rw [arrayAt, get_ofFields, get_last (Or.inr rfl)]
    rfl
  simp only [parsePreviousProcessing, hbytes, okOr_some, ok_bind, hvalid]
  simp only [asObject_ofFields, okOr_some, ok_bind, hcurrent, hhistory, pure_eq_ok]

end Contract

/-- An accepted result: its attempts are valid and its history is bounded. -/
structure Accepted (previous : PreviousProcessing) : Prop where
  current : validateAttempt previous.current = .ok ()
  history : ∀ a ∈ previous.history, validateAttempt a = .ok ()
  bounded : previous.history.length ≤ maxProcessingHistory

theorem accepted_of_parsePrevious {fromSlice : List UInt8 → Option Json} {bytes : List UInt8}
    {guid : String} {previous : PreviousProcessing}
    (h : parsePreviousProcessing fromSlice bytes guid = .ok previous) : Accepted previous := by
  obtain ⟨result, -, h⟩ := bind_eq_ok.mp h
  obtain ⟨_, hvalid, h⟩ := bind_eq_ok.mp h
  obtain ⟨object, hobject, h⟩ := bind_eq_ok.mp h
  obtain ⟨current, hcurrent, h⟩ := bind_eq_ok.mp h
  obtain ⟨history, hhistory, h⟩ := bind_eq_ok.mp h
  cases h
  obtain ⟨object', hobject', hvalid⟩ := bind_eq_ok.mp hvalid
  obtain rfl : object = object' := Except.ok.inj (hobject.symm.trans hobject')
  obtain ⟨_, -, hvalid⟩ := bind_eq_ok.mp hvalid
  obtain ⟨_, -, hvalid⟩ := bind_eq_ok.mp hvalid
  obtain ⟨_, -, hvalid⟩ := bind_eq_ok.mp hvalid
  obtain ⟨_, -, hvalid⟩ := bind_eq_ok.mp hvalid
  obtain ⟨history', hhistory', hvalid⟩ := bind_eq_ok.mp hvalid
  obtain rfl : history = history' := Except.ok.inj (hhistory.symm.trans hhistory')
  obtain ⟨_, hlength, hvalid⟩ := bind_eq_ok.mp hvalid
  obtain ⟨current', hcurrent', hvalid⟩ := bind_eq_ok.mp hvalid
  obtain rfl : current = current' := Except.ok.inj (hcurrent.symm.trans hcurrent')
  obtain ⟨_, -, hvalid⟩ := bind_eq_ok.mp hvalid
  obtain ⟨_, hattempt, hvalid⟩ := bind_eq_ok.mp hvalid
  obtain ⟨_, hattempts, -⟩ := bind_eq_ok.mp hvalid
  exact ⟨hattempt, forEach_eq_ok.mp hattempts, Nat.le_of_not_lt (refuse_eq_ok.mp hlength)⟩

theorem accepted_of_parseOptional {fromSlice : List UInt8 → Option Json}
    {stored : Option (List UInt8)} {guid : String} {previous : Option PreviousProcessing}
    (h : parseOptionalPrevious fromSlice stored guid = .ok previous) :
    ∀ p ∈ previous, Accepted p := by
  cases stored with
  | none =>
    cases h
    nofun
  | some bytes =>
    cases hp : parsePreviousProcessing fromSlice bytes guid with
    | error e => simp [parseOptionalPrevious, hp, Except.map] at h
    | ok p =>
      simp only [parseOptionalPrevious, hp, Except.map, Except.ok.injEq] at h
      subst h
      rintro q ⟨⟩
      exact accepted_of_parsePrevious hp

theorem length_pushBoundedHistory (history : List Json) (a : Json) :
    (pushBoundedHistory history a).length ≤ maxProcessingHistory := by
  rw [pushBoundedHistory, pushBounded_eq (by decide)]
  exact length_takeLast_le _ _

theorem mem_pushBoundedHistory {history : List Json} {a b : Json}
    (h : b ∈ pushBoundedHistory history a) : b ∈ history ∨ b = a := by
  rw [pushBoundedHistory, pushBounded_eq (by decide)] at h
  simpa using List.mem_of_mem_drop h

theorem nextHistory_accepted {previous : Option PreviousProcessing} (current : Json)
    (h : ∀ p ∈ previous, Accepted p) :
    (nextHistory previous current).length ≤ maxProcessingHistory ∧
      ∀ a ∈ nextHistory previous current, validateAttempt a = .ok () := by
  cases previous with
  | none => exact ⟨Nat.zero_le _, nofun⟩
  | some p =>
    have hp := h p rfl
    unfold nextHistory
    dsimp only
    split_ifs
    · exact ⟨hp.bounded, hp.history⟩
    · refine ⟨length_pushBoundedHistory _ _, fun a ha => ?_⟩
      rcases mem_pushBoundedHistory ha with ha | rfl
      · exact hp.history a ha
      · exact hp.current

/-- The identity is the crash's own and no text that must not be empty is. -/
structure Usable (guid : String) (input : ProcessingInput) : Prop where
  notBlank : isBlank guid = false
  identity : input.context.crashGuid = some guid
  named : Named input.symbolication

theorem crashGuid_usable {guid : String} {input : ProcessingInput} (h : Usable guid input) :
    crashGuid input.context = .ok guid := by
  rw [crashGuid, h.identity, Option.filter_some, h.notBlank]
  rfl

theorem attempt_current {input : ProcessingInput} (h : Named input.symbolication) :
    Current input.context input.attempt := by
  refine ⟨validateAttempt_attempt _ _ h, ?_, ?_⟩
  · simp [ProcessingInput.attempt, attempt, Json.get, asU64, ofNat]
  · simp [ProcessingInput.attempt, attempt, Json.get, asU64, ofNat]

/-- The result an input gives after `previous`. -/
def built (guid : String) (input : ProcessingInput) (previous : Option PreviousProcessing) : Json :=
  Json.ofFields (resultFieldValues guid input.context input.request input.classification input.log
    input.attempt (nextHistory previous input.attempt))

theorem build_usable {guid : String} {input : ProcessingInput} (h : Usable guid input)
    (previous : Option PreviousProcessing) :
    input.build previous = .ok (built guid input previous) := by
  simp [ProcessingInput.build, buildProcessingResult, crashGuid_usable h, built,
    ProcessingInput.attempt]

theorem built_valid {guid : String} {input : ProcessingInput} {previous : Option PreviousProcessing}
    (h : Usable guid input) (hprevious : ∀ p ∈ previous, Accepted p) (requireCurrent : Bool) :
    validateProcessingContract (built guid input previous) (some guid) requireCurrent = .ok () :=
  validateProcessingContract_built requireCurrent h.notBlank h.identity rfl
    (attempt_current h.named) (nextHistory_accepted _ hprevious).1
    (nextHistory_accepted _ hprevious).2

theorem parsePrevious_built {fromSlice : List UInt8 → Option Json} {bytes : List UInt8}
    {guid : String} {input : ProcessingInput} {previous : Option PreviousProcessing}
    (h : Usable guid input) (hprevious : ∀ p ∈ previous, Accepted p)
    (hbytes : fromSlice bytes = some (built guid input previous)) :
    parsePreviousProcessing fromSlice bytes guid =
      .ok ⟨input.attempt, nextHistory previous input.attempt⟩ :=
  parsePrevious_valid hbytes (built_valid h hprevious false)

section Runs

/-- All attempts of a run that starts at `first`, oldest first. -/
def sequence (first : Option PreviousProcessing) (attempts : List Json) : List Json :=
  first.toList.map PreviousProcessing.current ++ attempts

/-- The history `first` came with, then the attempts that a different one replaced. -/
def recorded (first : Option PreviousProcessing) (attempts : List Json) : List Json :=
  first.elim [] PreviousProcessing.history ++ replaced (sequence first attempts)

/-- The state after `attempts`: the last of them, over the newest recorded ones. -/
inductive Tracks (first : Option PreviousProcessing) :
    List Json → Option PreviousProcessing → Prop where
  | fresh (h : first = none) : Tracks first [] none
  | after {attempts : List Json} (older : List Json) (p : PreviousProcessing)
      (hlast : sequence first attempts = older ++ [p.current])
      (hhistory : p.history = takeLast maxProcessingHistory (recorded first attempts)) :
      Tracks first attempts (some p)

theorem Tracks.history {first : Option PreviousProcessing} {attempts : List Json}
    {p : PreviousProcessing} (h : Tracks first attempts (some p)) :
    p.history = takeLast maxProcessingHistory (recorded first attempts) := by
  cases h with
  | after older _ hlast hhistory => exact hhistory

theorem tracks_start {first : Option PreviousProcessing} (h : ∀ p ∈ first, Accepted p) :
    Tracks first [] first := by
  cases first with
  | none => exact .fresh rfl
  | some p =>
    refine .after [] p rfl ?_
    have hrecorded : recorded (some p) [] = p.history := by
      simp [recorded, sequence, replaced]
    rw [hrecorded, takeLast_of_length_le (h p rfl).bounded]

theorem tracks_step {first : Option PreviousProcessing} {attempts : List Json}
    {previous : Option PreviousProcessing} (h : Tracks first attempts previous) (current : Json) :
    Tracks first (attempts ++ [current]) (some ⟨current, nextHistory previous current⟩) := by
  cases h with
  | fresh hfirst =>
    subst hfirst
    exact .after [] _ rfl rfl
  | after older p hlast hhistory =>
    have hsequence : sequence first (attempts ++ [current]) = older ++ [p.current, current] := by
      unfold sequence at hlast ⊢
      rw [← List.append_assoc, hlast, List.append_assoc]
      rfl
    refine .after (older ++ [p.current]) _ (by rw [hsequence]; simp) ?_
    unfold recorded at hhistory ⊢
    rw [hsequence, replaced_append, ← hlast]
    unfold nextHistory
    dsimp only
    split_ifs with heq
    · exact hhistory
    · rw [pushBoundedHistory, pushBounded_eq (by decide), hhistory,
        takeLast_takeLast_append, List.append_assoc]

variable {fromSlice : List UInt8 → Option Json} {guid : String}

/-- A step of a run: the stored result is accepted, so the next one is built over it. -/
theorem reprocess_step {input : ProcessingInput} {stored : Option (List UInt8)}
    {previous : Option PreviousProcessing} (h : Usable guid input)
    (hstored : parseOptionalPrevious fromSlice stored guid = .ok previous) :
    reprocess fromSlice input stored = .ok (built guid input previous) := by
  unfold reprocess
  rw [crashGuid_usable h, ok_bind, hstored, ok_bind, build_usable h]

/-- The results stored along a run: each stored text is read back as the result before it. -/
def Stored (fromSlice : List UInt8 → Option Json) (inputs : Nat → ProcessingInput)
    (stored : Nat → Option (List UInt8)) (i : Nat) : Prop :=
  ∀ result, reprocess fromSlice (inputs i) (stored i) = .ok result →
    ∃ bytes, stored (i + 1) = some bytes ∧ fromSlice bytes = some result

def attempts (inputs : Nat → ProcessingInput) (n : Nat) : List Json :=
  (List.range n).map fun i => (inputs i).attempt

/-- Induction on the number of reprocessings; the state tracks the attempts so far. -/
theorem reprocess_run {inputs : Nat → ProcessingInput} {stored : Nat → Option (List UInt8)}
    {first : Option PreviousProcessing}
    (hfirst : parseOptionalPrevious fromSlice (stored 0) guid = .ok first) (n : Nat)
    (husable : ∀ i < n, Usable guid (inputs i))
    (hstored : ∀ i < n, Stored fromSlice inputs stored i) :
    ∃ last, parseOptionalPrevious fromSlice (stored n) guid = .ok last ∧
      Tracks first (attempts inputs n) last := by
  induction n with
  | zero => exact ⟨first, hfirst, tracks_start (accepted_of_parseOptional hfirst)⟩
  | succ n ih =>
    obtain ⟨previous, hprevious, htracks⟩ :=
      ih (fun i hi => husable i (by omega)) fun i hi => hstored i (by omega)
    have hn := husable n (by omega)
    obtain ⟨bytes, hbytes, hread⟩ := hstored n (by omega) _ (reprocess_step hn hprevious)
    refine ⟨some ⟨(inputs n).attempt, nextHistory previous (inputs n).attempt⟩, ?_, ?_⟩
    · rw [hbytes, parseOptionalPrevious,
        parsePrevious_built hn (accepted_of_parseOptional hprevious) hread]
      rfl
    · rw [attempts, List.range_succ, List.map_append]
      exact tracks_step htracks _

end Runs

def sampleGuid : String := "UECC-Windows-Sample"

def sampleSymbolication (reason : Option String) (modules : List SymbolicatedModule)
    (threads : List SymbolicatedThread) : SymbolicationResult where
  schemaVersion := 2
  symbolicatorVersion := "0.1.0"
  minidumpVersion := "0.27.0"
  minidumpProcessorVersion := "0.27.0"
  minidumpUnwindVersion := "0.27.0"
  platform := "windows"
  architecture := "x86_64"
  faultingThreadId := none
  exceptionReason := reason
  assertion := none
  modules := modules
  threads := threads
  schemaVersion_eq := rfl
  platform_eq := rfl
  architecture_eq := rfl

def sampleInput (crashType errorMessage : String) (symbolication : SymbolicationResult) :
    ProcessingInput where
  document := ⟨"FGenericCrashContext", [.element "RuntimeProperties"
    [.element "CrashGUID" [.text sampleGuid], .element "CrashType" [.text crashType],
      .element "ErrorMessage" [.text errorMessage]]], 1, 1⟩
  includeCommandLine := false
  symbolication := symbolication
  request := none
  classification := none
  log := none

theorem sampleInput_usable (crashType errorMessage : String) {symbolication : SymbolicationResult}
    (h : Named symbolication) : Usable sampleGuid (sampleInput crashType errorMessage symbolication) :=
  ⟨by decide, rfl, h⟩

theorem sampleSymbolication_named (reason : Option String) (modules : List SymbolicatedModule)
    {threads : List SymbolicatedThread} (h : ∀ t ∈ threads, ∀ f ∈ t.frames, f.trust ≠ "") :
    Named (sampleSymbolication reason modules threads) :=
  ⟨(by decide : "0.1.0" ≠ ""), (by decide : "0.27.0" ≠ ""), (by decide : "0.27.0" ≠ ""),
    (by decide : "0.27.0" ≠ ""), h⟩

def sampleInputs (i : Nat) : ProcessingInput :=
  sampleInput "Crash" "" <|
    sampleSymbolication (if i = 0 then none else some "EXCEPTION_BREAKPOINT") [] []

theorem sampleInputs_usable (i : Nat) : Usable sampleGuid (sampleInputs i) :=
  sampleInput_usable _ _ (sampleSymbolication_named _ _ nofun)

def sampleStored : Nat → Option (List UInt8)
  | 0 => none
  | 1 => some [1]
  | _ => some [2]

def sampleFirst : Json := built sampleGuid (sampleInputs 0) none

def sampleSecond : Json :=
  built sampleGuid (sampleInputs 1) (some ⟨(sampleInputs 0).attempt, []⟩)

def sampleSlice (bytes : List UInt8) : Option Json :=
  if bytes = [1] then some sampleFirst else if bytes = [2] then some sampleSecond else none

theorem sampleStored_one : parseOptionalPrevious sampleSlice (sampleStored 1) sampleGuid =
    .ok (some ⟨(sampleInputs 0).attempt, []⟩) := by
  have h : parsePreviousProcessing sampleSlice [1] sampleGuid =
      .ok ⟨(sampleInputs 0).attempt, nextHistory none (sampleInputs 0).attempt⟩ :=
    parsePrevious_built (sampleInputs_usable 0) nofun rfl
  change (parsePreviousProcessing sampleSlice [1] sampleGuid).map some = _
  rw [h]
  rfl

theorem sampleStored_stored (i : Nat) (h : i < 2) :
    Stored sampleSlice sampleInputs sampleStored i := by
  intro result hresult
  obtain rfl | rfl : i = 0 ∨ i = 1 := by omega
  · have hnone : parseOptionalPrevious sampleSlice (sampleStored 0) sampleGuid = .ok none := rfl
    rw [reprocess_step (sampleInputs_usable 0) hnone] at hresult
    cases hresult
    exact ⟨[1], rfl, rfl⟩
  · rw [reprocess_step (sampleInputs_usable 1) sampleStored_one] at hresult
    cases hresult
    exact ⟨[2], rfl, rfl⟩

/-- A result built over an accepted one, or over none, is a valid current result and is
accepted again; so every run goes on, and the history is the newest of what was recorded. -/
theorem reprocessing (fromSlice : List UInt8 → Option Json) (guid : String) :
    (∀ (input : ProcessingInput) (stored : Option (List UInt8))
        (previous : Option PreviousProcessing), Usable guid input →
      parseOptionalPrevious fromSlice stored guid = .ok previous →
      ∃ result, input.build previous = .ok result ∧
        validateCurrentProcessingResult result (some guid) = .ok () ∧
        ∀ bytes, fromSlice bytes = some result →
          ∃ p, parsePreviousProcessing fromSlice bytes guid = .ok p) ∧
    ∀ (inputs : Nat → ProcessingInput) (stored : Nat → Option (List UInt8))
        (first : Option PreviousProcessing) (n : Nat),
      parseOptionalPrevious fromSlice (stored 0) guid = .ok first →
      (∀ i < n, Usable guid (inputs i)) → (∀ i < n, Stored fromSlice inputs stored i) →
      (∀ i < n, ∃ result, reprocess fromSlice (inputs i) (stored i) = .ok result ∧
        validateCurrentProcessingResult result (some guid) = .ok ()) ∧
      ∃ last, parseOptionalPrevious fromSlice (stored n) guid = .ok last ∧
        ∀ p ∈ last, p.history =
          takeLast maxProcessingHistory (recorded first (attempts inputs n)) := by
  constructor
  · intro input stored previous hinput hstored
    have hprevious := accepted_of_parseOptional hstored
    exact ⟨_, build_usable hinput previous, built_valid hinput hprevious true,
      fun bytes hbytes => ⟨_, parsePrevious_built hinput hprevious hbytes⟩⟩
  · intro inputs stored first n hfirst husable hstored
    constructor
    · intro i hi
      obtain ⟨previous, hprevious, -⟩ := reprocess_run hfirst i
        (fun j hj => husable j (by omega)) fun j hj => hstored j (by omega)
      exact ⟨_, reprocess_step (husable i hi) hprevious,
        built_valid (husable i hi) (accepted_of_parseOptional hprevious) true⟩
    · obtain ⟨last, hlast, htracks⟩ := reprocess_run hfirst n husable hstored
      refine ⟨last, hlast, fun p hp => ?_⟩
      obtain rfl := Option.mem_def.mp hp
      exact htracks.history

/-- Two different attempts: the first is the history of the second. -/
theorem reprocessing_sample :
    (∃ result, (sampleInputs 0).build none = .ok result ∧
        validateCurrentProcessingResult result (some sampleGuid) = .ok ()) ∧
      ∃ last, parseOptionalPrevious sampleSlice (sampleStored 2) sampleGuid = .ok last ∧
        ∀ p ∈ last, p.history =
          takeLast maxProcessingHistory (recorded none (attempts sampleInputs 2)) := by
  obtain ⟨hstep, hrun⟩ := reprocessing sampleSlice sampleGuid
  constructor
  · obtain ⟨result, hbuild, hvalid, -⟩ := hstep (sampleInputs 0) none none (sampleInputs_usable 0) rfl
    exact ⟨result, hbuild, hvalid⟩
  · exact (hrun sampleInputs sampleStored none 2 rfl (fun i _ => sampleInputs_usable i)
      sampleStored_stored).2

end FaultLane.ProcessingHistory

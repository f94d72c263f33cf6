import FaultLane.ProcessingHistory
import FaultLane.Grouping

set_option autoImplicit false

/-!
# When a valid result has a fingerprint

What the contract promises of the members a fingerprint reads. It does not promise a
faulting thread, and that is the one thing a fingerprint can miss.
-/
namespace FaultLane.GroupingTotality
open Fallible SortedMap Json Symbolication ProcessingContract ProcessingResult ProcessingProducer
  ProcessingHistory GroupingText Grouping

section Contract
variable {result : Json} {expected : Option String} {requireCurrent : Bool}

/-- The members of a valid result that a fingerprint cannot do without. -/
structure Parts (result : Json) where
  context : JsonMap
  symbolication : JsonMap
  crashType : String
  modules : List Json
  threads : List Json
  context_eq : objectAtPath result ["crash_context"] = .ok context
  symbolication_eq : objectAtPath result ["current", "symbolication"] = .ok symbolication
  crashType_eq : stringField context "crash_type" = .ok crashType
  modules_eq : arrayAt "modules" symbolication = some modules
  threads_eq : arrayAt "threads" symbolication = some threads
  modules_valid : ∀ m ∈ modules, validateModule m = .ok ()
  threads_valid : ∀ t ∈ threads, validateThread t = .ok ()

theorem crashType_of_context {context : JsonMap} (h : validateCrashContext context = .ok ()) :
    ∃ crashType, strAt "crash_type" context = some crashType := by
  obtain ⟨_, hfields, -⟩ := bind_eq_ok.mp h
  have hfields := refuse_eq_ok.mp hfields
  cases ht : strAt "crash_type" context with
  | some crashType => exact ⟨crashType, rfl⟩
  | none => simp [ht, isSomeAnd] at hfields

theorem lists_of_symbolication {value : Json} {version : Nat}
    (h : validateSymbolication value version = .ok ()) :
    ∃ symbolication modules threads, value.asObject = some symbolication ∧
      arrayAt "modules" symbolication = some modules ∧
      arrayAt "threads" symbolication = some threads ∧
      (∀ m ∈ modules, validateModule m = .ok ()) ∧ ∀ t ∈ threads, validateThread t = .ok () := by
  obtain ⟨symbolication, hobject, h⟩ := bind_eq_ok.mp h
  obtain ⟨_, -, h⟩ := bind_eq_ok.mp h
  obtain ⟨modules, hmodules, h⟩ := bind_eq_ok.mp h
  obtain ⟨_, hmodule, h⟩ := bind_eq_ok.mp h
  obtain ⟨threads, hthreads, h⟩ := bind_eq_ok.mp h
  exact ⟨symbolication, modules, threads, okOr_eq_ok.mp hobject, okOr_eq_ok.mp hmodules,
    okOr_eq_ok.mp hthreads, forEach_eq_ok.mp hmodule, forEach_eq_ok.mp h⟩

theorem symbolication_of_attempt {value : Json} (h : validateAttempt value = .ok ()) :
    ∃ attempt symbolication version, value.asObject = some attempt ∧
      get "symbolication" attempt = some symbolication ∧
      validateSymbolication symbolication version = .ok () := by
  obtain ⟨attempt, hobject, h⟩ := bind_eq_ok.mp h
  obtain ⟨_, -, h⟩ := bind_eq_ok.mp h
  obtain ⟨version, -, h⟩ := bind_eq_ok.mp h
  obtain ⟨_, -, h⟩ := bind_eq_ok.mp h
  obtain ⟨symbolication, hsymbolication, h⟩ := bind_eq_ok.mp h
  exact ⟨attempt, symbolication, version, okOr_eq_ok.mp hobject, okOr_eq_ok.mp hsymbolication, h⟩

/-- The contract, as the steps a fingerprint builds on. -/
theorem contract_steps (h : validateProcessingContract result expected requireCurrent = .ok ()) :
    ∃ object current context, result.asObject = some object ∧
      get "current" object = some current ∧ objectAt "crash_context" object = some context ∧
      validateAttempt current = .ok () ∧ validateCrashContext context = .ok () := by
  obtain ⟨object, hobject, h⟩ := bind_eq_ok.mp h
  obtain ⟨_, -, h⟩ := bind_eq_ok.mp h
  obtain ⟨_, -, h⟩ := bind_eq_ok.mp h
  obtain ⟨_, -, h⟩ := bind_eq_ok.mp h
  obtain ⟨_, -, h⟩ := bind_eq_ok.mp h
  obtain ⟨_, -, h⟩ := bind_eq_ok.mp h
  obtain ⟨_, -, h⟩ := bind_eq_ok.mp h
  obtain ⟨current, hcurrent, h⟩ := bind_eq_ok.mp h
  obtain ⟨_, -, h⟩ := bind_eq_ok.mp h
  obtain ⟨_, hattempt, h⟩ := bind_eq_ok.mp h
  obtain ⟨_, -, h⟩ := bind_eq_ok.mp h
  obtain ⟨context, hcontext, h⟩ := bind_eq_ok.mp h
  obtain ⟨_, -, h⟩ := bind_eq_ok.mp h
  obtain ⟨_, hvalid, -⟩ := bind_eq_ok.mp h
  exact ⟨object, current, context, okOr_eq_ok.mp hobject, okOr_eq_ok.mp hcurrent,
    okOr_eq_ok.mp hcontext, hattempt, hvalid⟩

theorem parts_of_valid (h : validateProcessingContract result expected requireCurrent = .ok ()) :
    Nonempty (Parts result) := by
  obtain ⟨object, current, context, hobject, hcurrent, hcontext, hattempt, hvalid⟩ :=
    contract_steps h
  obtain ⟨attempt, value, version, hattemptObject, hvalue, hsymbolication⟩ :=
    symbolication_of_attempt hattempt
  obtain ⟨symbolication, modules, threads, hsymbolicationObject, hmodules, hthreads, hm, ht⟩ :=
    lists_of_symbolication hsymbolication
  obtain ⟨crashType, hcrashType⟩ := crashType_of_context hvalid
  unfold objectAt at hcontext
  refine ⟨⟨context, symbolication, crashType, modules, threads, ?_, ?_, ?_, hmodules, hthreads,
    hm, ht⟩⟩
  · simp [objectAtPath, pointer, Json.get, hobject, hcontext]
  · simp [objectAtPath, pointer, Json.get, hobject, hcurrent, hattemptObject, hvalue,
      hsymbolicationObject]
  · simp [stringField, hcrashType]

/-- The identity check only makes acceptance harder, and so does asking for the current
version. -/
theorem valid_without_identity
    (h : validateProcessingContract result expected requireCurrent = .ok ()) :
    validateProcessingResult result none = .ok () := by
  obtain ⟨object, hobject, h⟩ := bind_eq_ok.mp h
  obtain ⟨_, hkeys, h⟩ := bind_eq_ok.mp h
  obtain ⟨_, hversion, h⟩ := bind_eq_ok.mp h
  obtain ⟨guid, hguid, h⟩ := bind_eq_ok.mp h
  obtain ⟨_, -, h⟩ := bind_eq_ok.mp h
  obtain ⟨history, hhistory, h⟩ := bind_eq_ok.mp h
  obtain ⟨_, hlength, h⟩ := bind_eq_ok.mp h
  obtain ⟨current, hcurrent, h⟩ := bind_eq_ok.mp h
  obtain ⟨_, -, h⟩ := bind_eq_ok.mp h
  unfold validateProcessingResult validateProcessingContract
  simp only [hobject, hkeys, hversion, hguid, hhistory, hlength, hcurrent, ok_bind]
  simpa [isSomeAnd, refuse] using h

end Contract

section Fingerprinting
variable {unicode : Char → Bool} {sha256 : List UInt8 → List UInt8} {result : Json}

theorem fingerprint_of_valid (h : validateProcessingResult result none = .ok ()) :
    fingerprint unicode sha256 result =
      (gatherEvidence unicode result).map (Evidence.outcome sha256) := by
  unfold fingerprint
  rw [h]
  cases gatherEvidence unicode result <;> rfl

theorem textOf_module {m : Json} (h : validateModule m = .ok ()) :
    ∃ name, textOf "module" m = some name := by
  obtain ⟨object, hobject, h⟩ := bind_eq_ok.mp h
  have hobject := okOr_eq_ok.mp hobject
  have hfields := refuse_eq_ok.mp h
  cases hname : strAt "module" object with
  | none => simp [hname] at hfields
  | some name =>
    refine ⟨name.toList, ?_⟩
    unfold strAt at hname
    simp [textOf, Json.get, hobject, hname]

theorem addModules_ok (identities : ModuleIdentities) {modules : List Json}
    (h : ∀ m ∈ modules, ∃ name, textOf "module" m = some name) :
    ∃ found, addModules identities modules = .ok found := by
  induction modules generalizing identities with
  | nil => exact ⟨identities, rfl⟩
  | cons m rest ih =>
    obtain ⟨name, hname⟩ := h m List.mem_cons_self
    unfold addModules addModule
    simp only [hname, okOr_some, ok_bind, pure_eq_ok]
    exact ih _ fun n hn => h n (List.mem_cons_of_mem _ hn)

theorem frames_of_thread {t : Json} (h : validateThread t = .ok ()) :
    ∃ frames, (t.get "frames").bind asArray = some frames := by
  obtain ⟨object, hobject, h⟩ := bind_eq_ok.mp h
  obtain ⟨_, -, h⟩ := bind_eq_ok.mp h
  obtain ⟨frames, hframes, -⟩ := bind_eq_ok.mp h
  have hobject := okOr_eq_ok.mp hobject
  have hframes := okOr_eq_ok.mp hframes
  unfold arrayAt at hframes
  exact ⟨frames, by simp [Json.get, hobject, hframes]⟩

/-- Some thread of the current attempt is marked as the faulting one. -/
def hasFaultingThread (result : Json) : Bool :=
  isSomeAnd (((result.pointer ["current", "symbolication", "threads"]).bind asArray))
    (·.any isFaulting)

theorem threads_of_parts (parts : Parts result) :
    (result.pointer ["current", "symbolication", "threads"]).bind asArray = some parts.threads := by
  have hsymbolication := okOr_eq_ok.mp parts.symbolication_eq
  have hthreads := parts.threads_eq
  unfold arrayAt at hthreads
  cases hp : result.pointer ["current", "symbolication"] with
  | none => simp [hp] at hsymbolication
  | some value =>
    have hobject : value.asObject = some parts.symbolication := by simpa [hp] using hsymbolication
    have hpointer : result.pointer ["current", "symbolication", "threads"] = value.get "threads" := by
      unfold pointer at hp ⊢
      simpa using congrArg (·.bind (Json.get "threads")) hp
    rw [hpointer, Json.get, hobject]
    exact hthreads

theorem faultingFrames_ok_iff (parts : Parts result) :
    (∃ frames, faultingFrames parts.symbolication = .ok frames) ↔
      parts.threads.any isFaulting = true := by
  unfold faultingFrames
  rw [parts.threads_eq]
  simp only [okOr_eq_ok, Option.bind_some]
  constructor
  · rintro ⟨frames, h⟩
    cases hfind : parts.threads.find? isFaulting with
    | none => simp [hfind] at h
    | some t =>
      exact List.any_eq_true.mpr ⟨t, List.mem_of_find?_eq_some hfind, List.find?_some hfind⟩
  · intro h
    obtain ⟨t, ht⟩ : ∃ t, parts.threads.find? isFaulting = some t := by
      rw [← Option.isSome_iff_exists, List.find?_isSome]
      exact List.any_eq_true.mp h
    obtain ⟨frames, hframes⟩ :=
      frames_of_thread (parts.threads_valid t (List.mem_of_find?_eq_some ht))
    exact ⟨frames, by rw [ht]; exact hframes⟩

/-- The evidence of a valid result, once its frames are collected. -/
def partsEvidence (unicode : Char → Bool) (parts : Parts result) (frames : FrameEvidence) :
    Evidence :=
  let classification := (result.get "classification").bind asObject
  { crashType := parts.crashType
    classification := classification
    signals := ((classification.bind (arrayAt "signals")).map normalizedSignals).getD []
    exception := ((strAt "exception_reason" parts.symbolication).map fun reason =>
      normalizeTemplate reason.toList).filter (!·.isEmpty)
    assertion := specificTemplate unicode (strAt "assertion" parts.symbolication)
    frames := frames
    errorTemplate := specificTemplate unicode (strAt "error_message" parts.context)
    platform := (get "platform" parts.context).bind (textOf "normalized") }

theorem gatherEvidence_parts (parts : Parts result) : gatherEvidence unicode result =
    (frameEvidence parts.symbolication).map (partsEvidence unicode parts) := by
  unfold gatherEvidence
  simp only [parts.context_eq, parts.symbolication_eq, parts.crashType_eq, ok_bind]
  cases frameEvidence parts.symbolication <;> rfl

theorem frameEvidence_ok_iff (parts : Parts result) :
    (∃ frames, frameEvidence parts.symbolication = .ok frames) ↔
      parts.threads.any isFaulting = true := by
  obtain ⟨identities, hidentities⟩ := addModules_ok [] fun m hm =>
    textOf_module (parts.modules_valid m hm)
  rw [← faultingFrames_ok_iff parts]
  unfold frameEvidence moduleIdentities
  simp only [parts.modules_eq, hidentities, okOr_some, ok_bind]
  cases faultingFrames parts.symbolication with
  | error e => simp
  | ok frames => simp

end Fingerprinting

section Producer
variable {unicode : Char → Bool}

/-- The evidence of a result the producer built, in terms of what it was built from. -/
def builtEvidence (unicode : Char → Bool) (input : ProcessingInput) (frames : FrameEvidence) :
    Evidence :=
  let classification := (input.classification.map CrashContext.CrashClassification.toJson).bind
    asObject
  { crashType := input.context.crashType.text
    classification := classification
    signals := ((classification.bind (arrayAt "signals")).map normalizedSignals).getD []
    exception := (input.symbolication.exceptionReason.map fun reason =>
      normalizeTemplate reason.toList).filter (!·.isEmpty)
    assertion := specificTemplate unicode input.symbolication.assertion
    frames := frames
    errorTemplate := specificTemplate unicode input.context.errorMessage
    platform := input.context.platform.map (·.normalized.toList) }

def builtFrames (symbolication : SymbolicationResult) : Grouped FrameEvidence := do
  let modules ← addModules [] (symbolication.modules.map SymbolicatedModule.toJson)
  let frames ← okOr ((((symbolication.threads.map SymbolicatedThread.toJson).find? isFaulting).bind
    (Json.get "frames")).bind asArray) .invalidProcessingResult
  return (frames.foldl (collectFrame modules) ⟨[], [], []⟩).evidence

theorem asStr_ofOptionalString (s : Option String) : (ofOptionalString s).asStr = s := by
  cases s <;> rfl

theorem frameEvidence_fields (symbolication : SymbolicationResult) :
    frameEvidence (SortedMap.ofFields symbolication.fields) = builtFrames symbolication := by
  have hmodules : arrayAt "modules" (SortedMap.ofFields symbolication.fields) =
      some (symbolication.modules.map SymbolicatedModule.toJson) := by
    rw [arrayAt, get_ofFields]
    rfl
  have hthreads : arrayAt "threads" (SortedMap.ofFields symbolication.fields) =
      some (symbolication.threads.map SymbolicatedThread.toJson) := by
    rw [arrayAt, get_ofFields]
    rfl
  unfold frameEvidence moduleIdentities faultingFrames builtFrames
  rw [hmodules, hthreads]
  rfl

theorem pointer_context_built (guid : String) (input : ProcessingInput)
    (previous : Option PreviousProcessing) :
    (built guid input previous).pointer ["crash_context"] = some input.context.toJson := by
  have hobject : (built guid input previous).asObject = some _ := asObject_ofFields _
  simp [pointer, Json.get, hobject, resultFieldValues]

theorem pointer_symbolication_built (guid : String) (input : ProcessingInput)
    (previous : Option PreviousProcessing) :
    (built guid input previous).pointer ["current", "symbolication"] =
      some input.symbolication.toJson := by
  have hobject : (built guid input previous).asObject = some _ := asObject_ofFields _
  simp [pointer, Json.get, hobject, get_last, ProcessingInput.attempt, attempt]

theorem get_classification_built (guid : String) (input : ProcessingInput)
    (previous : Option PreviousProcessing) :
    (built guid input previous).get "classification" =
      input.classification.map CrashContext.CrashClassification.toJson := by
  have hobject : (built guid input previous).asObject = some _ := asObject_ofFields _
  rw [Json.get, hobject]
  exact (get_ofFields _ _).trans get_classification

theorem context_object_built (guid : String) (input : ProcessingInput)
    (previous : Option PreviousProcessing) :
    objectAtPath (built guid input previous) ["crash_context"] =
      .ok (SortedMap.ofFields input.context.fields) := by
  rw [objectAtPath, pointer_context_built]
  rfl

theorem symbolication_object_built (guid : String) (input : ProcessingInput)
    (previous : Option PreviousProcessing) :
    objectAtPath (built guid input previous) ["current", "symbolication"] =
      .ok (SortedMap.ofFields input.symbolication.fields) := by
  rw [objectAtPath, pointer_symbolication_built]
  rfl

theorem strAt_crash_type (context : CrashContext.CrashContextData) :
    strAt "crash_type" (SortedMap.ofFields context.fields) = some context.crashType.text := by
  rw [strAt, get_ofFields]
  rfl

theorem strAt_error_message (context : CrashContext.CrashContextData) :
    strAt "error_message" (SortedMap.ofFields context.fields) = context.errorMessage := by
  rw [strAt, get_ofFields]
  exact asStr_ofOptionalString _

theorem gatherEvidence_built (guid : String) (input : ProcessingInput)
    (previous : Option PreviousProcessing) :
    gatherEvidence unicode (built guid input previous) =
      (builtFrames input.symbolication).map (builtEvidence unicode input) := by
  have hclassification := get_classification_built guid input previous
  have htype : stringField (SortedMap.ofFields input.context.fields) "crash_type" =
      .ok input.context.crashType.text := by
    rw [stringField, strAt_crash_type]
    rfl
  have hplatform : (get "platform" (SortedMap.ofFields input.context.fields)).bind
      (textOf "normalized") = input.context.platform.map (·.normalized.toList) := by
    rw [get_ofFields]
    change textOf "normalized" (ofOption CrashContext.NormalizedValue.toJson _) = _
    cases input.context.platform with
    | none => rfl
    | some p =>
      simp [textOf, Json.get, ofOption, CrashContext.NormalizedValue.toJson, asStr]
  have hreason : strAt "exception_reason" (SortedMap.ofFields input.symbolication.fields) =
      input.symbolication.exceptionReason := by
    rw [strAt, get_ofFields]
    exact asStr_ofOptionalString _
  have hassertion : strAt "assertion" (SortedMap.ofFields input.symbolication.fields) =
      input.symbolication.assertion := by
    rw [strAt, get_ofFields]
    exact asStr_ofOptionalString _
  unfold gatherEvidence
  simp only [context_object_built, symbolication_object_built, hclassification, htype,
    strAt_error_message, hplatform, hreason, hassertion, frameEvidence_fields, ok_bind]
  cases builtFrames input.symbolication <;> rfl

end Producer

def sampleFrame (sourceFile : String) : SymbolicatedFrame where
  instruction := "0x0000000140001000"
  module := some "Game.exe"
  moduleRelative := some "0x1000"
  trust := "context"
  symbolStatus := .resolved
  function := some "Arena::Tick()"
  sourceFile := some sourceFile
  sourceLine := some 42
  inlines := []

def sampleThread (faulting : Bool) (frames : List SymbolicatedFrame) : SymbolicatedThread where
  threadId := 7
  faulting := faulting
  name := none
  unwindStatus := .ok
  framesTruncated := false
  frames := frames

def sampleResult (crashType errorMessage : String) (threads : List SymbolicatedThread) : Json :=
  built sampleGuid (sampleInput crashType errorMessage (sampleSymbolication none [] threads)) none

theorem sampleResult_valid (crashType errorMessage : String) {threads : List SymbolicatedThread}
    (h : ∀ t ∈ threads, ∀ f ∈ t.frames, f.trust ≠ "") (requireCurrent : Bool) :
    validateProcessingContract (sampleResult crashType errorMessage threads) (some sampleGuid)
      requireCurrent = .ok () := by
  have hnone : ∀ p ∈ (none : Option PreviousProcessing), Accepted p := nofun
  exact built_valid (sampleInput_usable _ _ (sampleSymbolication_named _ _ h)) hnone requireCurrent

/-- A valid result has a fingerprint exactly when a thread of it is the faulting one. -/
theorem fingerprint_ok_iff (unicode : Char → Bool) (sha256 : List UInt8 → List UInt8)
    (result : Json) (expected : Option String) (requireCurrent : Bool)
    (h : validateProcessingContract result expected requireCurrent = .ok ()) :
    (∃ outcome, fingerprint unicode sha256 result = .ok outcome) ↔
      hasFaultingThread result = true := by
  obtain ⟨parts⟩ := parts_of_valid h
  rw [hasFaultingThread, threads_of_parts parts]
  change _ ↔ parts.threads.any isFaulting = true
  rw [← frameEvidence_ok_iff parts, fingerprint_of_valid (valid_without_identity h),
    gatherEvidence_parts parts]
  cases frameEvidence parts.symbolication with
  | error e => simp [Except.map]
  | ok evidence => simp [Except.map]

theorem fingerprint_ok_sample :
    (∃ outcome, fingerprint (fun _ => false) id
        (sampleResult "Crash" "" [sampleThread true []]) = .ok outcome) ↔
      hasFaultingThread (sampleResult "Crash" "" [sampleThread true []]) = true :=
  fingerprint_ok_iff _ _ _ _ _ (sampleResult_valid "Crash" "" (by simp [sampleThread]) true)

/-- A dump whose requesting thread is unknown has threads but no faulting one. -/
theorem fingerprint_refuses_valid_result :
    ¬ ∀ (unicode : Char → Bool) (sha256 : List UInt8 → List UInt8) (result : Json)
        (expected : Option String) (requireCurrent : Bool),
      validateProcessingContract result expected requireCurrent = .ok () →
      ∃ outcome, fingerprint unicode sha256 result = .ok outcome := by
  intro h
  have hnamed : ∀ t ∈ [sampleThread false []], ∀ f ∈ t.frames, f.trust ≠ "" := by
    simp [sampleThread]
  have hvalid := sampleResult_valid "Crash" "" hnamed true
  obtain ⟨outcome, hok⟩ := h (fun _ => false) id _ _ _ hvalid
  rw [fingerprint_of_valid (valid_without_identity hvalid)] at hok
  have hframes : builtFrames (sampleSymbolication none [] [sampleThread false []]) =
      .error .invalidProcessingResult := by decide
  rw [sampleResult, gatherEvidence_built] at hok
  change Except.map _ ((builtFrames (sampleSymbolication none [] [sampleThread false []])).map _) =
    _ at hok
  rw [hframes] at hok
  cases hok

end FaultLane.GroupingTotality

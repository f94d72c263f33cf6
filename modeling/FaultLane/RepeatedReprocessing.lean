import FaultLane.RedactedResults

set_option autoImplicit false

/-!
# The same reprocessing again

A published result is redacted after it is built, and the next run compares its fresh attempt
with the redacted one. The two agree when no source file is redacted.
-/
namespace FaultLane.RepeatedReprocessing
open Fallible RustText SortedMap Json BoundedHistory CrashContext CrashRequest Symbolication
  ProcessingContract ProcessingResult ProcessingProducer ProcessingHistory Redaction
  RedactedResults

/-- `process_crash` with one outcome of the symbolication, up to the result that
`publish_crash_result` stores. -/
def processCrash (fromSlice : List UInt8 → Option Json) (rules : DataRules) (guid : String)
    (input : ProcessingInput) (stored : Option (List UInt8)) : Checked Json := do
  let result ← reprocess fromSlice input stored
  validateProcessingResult result (some guid)
  return (redactAndIndex rules result).1

/-- A published result and the ones that the same reprocessing publishes after it, each read
back from its stored text. -/
structure Repeats (fromSlice : List UInt8 → Option Json) (rules : DataRules) (guid : String)
    (input : ProcessingInput) (bytes : Nat → List UInt8) (results : Nat → Json) : Prop where
  published : ∃ stored, processCrash fromSlice rules guid input stored = .ok (results 0)
  stored : ∀ n, fromSlice (bytes n) = some (results n)
  next : ∀ n result, processCrash fromSlice rules guid input (some (bytes n)) = .ok result →
    results (n + 1) = result

/-- The history is full of the attempt that the result holds as the current one. -/
def HistoryOfCurrent (result : Json) : Prop :=
  ∃ current, result.get "current" = some current ∧
    result.get "history" = some (.array (List.replicate maxProcessingHistory current))

/-! ## What an accepted attempt says of its producer -/

section Named

theorem get_object_ofFields {entries : List (String × Json)} {object : JsonMap}
    {e : ProcessingResultError} (h : okOr (Json.ofFields entries).asObject e = .ok object)
    (key : String) : get key object = get key entries := by
  obtain rfl := Option.some.inj (okOr_eq_ok.mp h)
  exact get_ofFields key entries

theorem named_of_validateHeader {r : SymbolicationResult} {object : JsonMap} {version : Nat}
    (hobject : ∀ key, get key object = get key r.fields)
    (h : validateSymbolicationHeader object version = .ok ()) :
    r.symbolicatorVersion ≠ "" ∧ r.minidumpVersion ≠ "" ∧ r.minidumpProcessorVersion ≠ "" ∧
      r.minidumpUnwindVersion ≠ "" := by
  obtain ⟨_, -, h⟩ := bind_eq_ok.mp h
  obtain ⟨_, -, h⟩ := bind_eq_ok.mp h
  obtain ⟨_, hversions, -⟩ := bind_eq_ok.mp h
  have hnone := refuse_eq_ok.mp hversions
  rw [Bool.not_eq_true, List.any_eq_false] at hnone
  have hfield : ∀ field ∈ versionFields, ∀ text, get field r.fields = some (.string text) →
      text ≠ "" := by
    intro field hfield text htext hempty
    apply hnone field hfield
    rw [strAt, hobject, htext, hempty]
    rfl
  exact ⟨hfield "symbolicator_version" (by decide) _ rfl,
    hfield "minidump_version" (by decide) _ rfl,
    hfield "minidump_processor_version" (by decide) _ rfl,
    hfield "minidump_unwind_version" (by decide) _ rfl⟩

theorem trust_of_validateFrame {f : SymbolicatedFrame} (h : validateFrame f.toJson = .ok ()) :
    f.trust ≠ "" := by
  obtain ⟨object, hobject, h⟩ := bind_eq_ok.mp h
  obtain ⟨_, hvalid, -⟩ := bind_eq_ok.mp h
  have hstr : strAt "trust" object = some f.trust := by
    rw [strAt, get_object_ofFields hobject]
    rfl
  intro htrust
  apply refuse_eq_ok.mp hvalid
  simp [hstr, isNoneOr, htrust]

theorem trust_of_validateThread {t : SymbolicatedThread} (h : validateThread t.toJson = .ok ()) :
    ∀ f ∈ t.frames, f.trust ≠ "" := by
  obtain ⟨object, hobject, h⟩ := bind_eq_ok.mp h
  obtain ⟨_, -, h⟩ := bind_eq_ok.mp h
  obtain ⟨frames, hframes, h⟩ := bind_eq_ok.mp h
  have hget : arrayAt "frames" object = some (t.frames.map SymbolicatedFrame.toJson) := by
    rw [arrayAt, get_object_ofFields hobject]
    rfl
  obtain rfl := Option.some.inj (hget.symm.trans (okOr_eq_ok.mp hframes))
  intro f hf
  exact trust_of_validateFrame (forEach_eq_ok.mp h _ (List.mem_map_of_mem hf))

theorem named_of_validateAttempt {version : Nat} {r : SymbolicationResult}
    (h : validateAttempt (attempt version r) = .ok ()) : Named r := by
  obtain ⟨object, hobject, h⟩ := bind_eq_ok.mp h
  obtain ⟨_, -, h⟩ := bind_eq_ok.mp h
  obtain ⟨number, -, h⟩ := bind_eq_ok.mp h
  obtain ⟨_, -, h⟩ := bind_eq_ok.mp h
  obtain ⟨symbolication, hsymbolication, h⟩ := bind_eq_ok.mp h
  have hget : get "symbolication" object = some r.toJson := get_object_ofFields hobject _
  obtain rfl := Option.some.inj (hget.symm.trans (okOr_eq_ok.mp hsymbolication))
  obtain ⟨fields, hfields, h⟩ := bind_eq_ok.mp h
  obtain ⟨_, hheader, h⟩ := bind_eq_ok.mp h
  obtain ⟨_, -, h⟩ := bind_eq_ok.mp h
  obtain ⟨_, -, h⟩ := bind_eq_ok.mp h
  obtain ⟨threads, hthreads, h⟩ := bind_eq_ok.mp h
  have hget : arrayAt "threads" fields = some (r.threads.map SymbolicatedThread.toJson) := by
    rw [arrayAt, get_object_ofFields hfields]
    rfl
  obtain rfl := Option.some.inj (hget.symm.trans (okOr_eq_ok.mp hthreads))
  obtain ⟨hsymbolicator, hminidump, hprocessor, hunwind⟩ :=
    named_of_validateHeader (get_object_ofFields hfields) hheader
  refine ⟨hsymbolicator, hminidump, hprocessor, hunwind, fun t ht => ?_⟩
  exact trust_of_validateThread (forEach_eq_ok.mp h _ (List.mem_map_of_mem ht))

theorem identity_of_valid {guid guid' : String} {context : CrashContextData}
    {request : Option CrashRequestManifest} {classification : Option CrashClassification}
    {log : Option CrashRequestLog} {current : Json} {history : List Json} {requireCurrent : Bool}
    (h : validateProcessingContract (Json.ofFields (resultFieldValues guid' context request
      classification log current history)) (some guid) requireCurrent = .ok ()) :
    guid' = guid ∧ validateAttempt current = .ok () := by
  obtain ⟨object, hobject, h⟩ := bind_eq_ok.mp h
  obtain ⟨_, -, h⟩ := bind_eq_ok.mp h
  obtain ⟨_, -, h⟩ := bind_eq_ok.mp h
  obtain ⟨identity, hidentity, h⟩ := bind_eq_ok.mp h
  obtain ⟨_, hsame, h⟩ := bind_eq_ok.mp h
  obtain ⟨_, -, h⟩ := bind_eq_ok.mp h
  obtain ⟨_, -, h⟩ := bind_eq_ok.mp h
  obtain ⟨found, hfound, h⟩ := bind_eq_ok.mp h
  obtain ⟨_, -, h⟩ := bind_eq_ok.mp h
  obtain ⟨_, hattempt, -⟩ := bind_eq_ok.mp h
  have hget := get_object_ofFields hobject
  constructor
  · have hguid : strAt "crash_guid" object = some guid' := by
      rw [strAt, hget]
      rfl
    have hfilter := (Option.filter_eq_some_iff.mp (okOr_eq_ok.mp hidentity)).1
    obtain rfl := Option.some.inj (hguid.symm.trans hfilter)
    have hne := refuse_eq_ok.mp hsame
    rw [isSomeAnd, Option.any_some, bne_iff_ne, not_not] at hne
    exact hne.symm
  · have hcurrent : get "current" object = some current := by
      rw [hget, get_last (Or.inl rfl)]
      rfl
    obtain rfl := Option.some.inj (hcurrent.symm.trans (okOr_eq_ok.mp hfound))
    exact hattempt

end Named

/-! ## What is stored -/

section Stored
variable {fromSlice : List UInt8 → Option Json} {rules : DataRules} {guid : String}
  {input : ProcessingInput}

def storedAttempt (rules : DataRules) (input : ProcessingInput) : Json :=
  attempt input.context.parserVersion (redactResult rules.patterns input.symbolication)

def storedResult (rules : DataRules) (guid : String) (input : ProcessingInput)
    (history : List Json) : Json :=
  Json.ofFields (resultFieldValues guid (redactContext rules.patterns input.context) input.request
    input.classification (input.log.map (redactRequestLog rules.patterns))
    (storedAttempt rules input) history)

theorem storedResult_history (rules : DataRules) (guid : String) (input : ProcessingInput)
    (history : List Json) :
    (storedResult rules guid input history).get "history" = some (.array history) := by
  rw [storedResult, get_fields, get_last (Or.inr rfl)]
  rfl

theorem storedResult_current (rules : DataRules) (guid : String) (input : ProcessingInput)
    (history : List Json) :
    (storedResult rules guid input history).get "current" = some (storedAttempt rules input) := by
  rw [storedResult, get_fields, get_last (Or.inl rfl)]
  rfl

theorem storedResult_inj {history history' : List Json} :
    storedResult rules guid input history = storedResult rules guid input history' ↔
      history = history' := by
  constructor
  · intro h
    have hget := congrArg (Json.get "history") h
    rw [storedResult_history, storedResult_history] at hget
    exact Json.array.inj (Option.some.inj hget)
  · exact congrArg _

theorem historyOfCurrent_storedResult {history : List Json} :
    HistoryOfCurrent (storedResult rules guid input history) ↔
      history = List.replicate maxProcessingHistory (storedAttempt rules input) := by
  rw [HistoryOfCurrent, storedResult_current, storedResult_history]
  simp

/-- Redaction keeps what the contract asks of the producer. -/
theorem storedAttempt_current (h : Named input.symbolication) :
    Current (redactContext rules.patterns input.context) (storedAttempt rules input) := by
  have hnamed : Named (redactResult rules.patterns input.symbolication) := by
    refine ⟨h.symbolicator, h.minidump, h.processor, h.unwind, ?_⟩
    intro t' ht' f' hf'
    obtain ⟨t, ht, rfl⟩ := List.mem_map.mp ht'
    obtain ⟨f, hf, rfl⟩ := List.mem_map.mp hf'
    exact h.trust t ht f hf
  refine ⟨validateAttempt_attempt _ _ hnamed, ?_, ?_⟩
  · simp [storedAttempt, attempt, Json.get, asU64, ofNat]
  · simp [storedAttempt, attempt, Json.get, asU64, ofNat, redactContext]

theorem storedResult_valid (h : Usable guid input) {history : List Json}
    (haccepted : Accepted ⟨storedAttempt rules input, history⟩) :
    validateProcessingResult (storedResult rules guid input history) (some guid) = .ok () :=
  validateProcessingContract_built false h.notBlank h.identity rfl
    (storedAttempt_current h.named) haccepted.bounded haccepted.history

theorem parsePrevious_storedResult (h : Usable guid input) {history : List Json}
    (haccepted : Accepted ⟨storedAttempt rules input, history⟩) {bytes : List UInt8}
    (hbytes : fromSlice bytes = some (storedResult rules guid input history)) :
    parsePreviousProcessing fromSlice bytes guid = .ok ⟨storedAttempt rules input, history⟩ :=
  parsePrevious_valid hbytes (storedResult_valid h haccepted)

theorem redactAndIndex_built (previous : Option PreviousProcessing) :
    (redactAndIndex rules (built guid input previous)).1 =
      storedResult rules guid input (nextHistory previous input.attempt) :=
  redactAndIndex_resultFieldValues rules guid input.context input.request input.classification
    input.log input.context.parserVersion input.symbolication _

theorem processCrash_accepted (h : Usable guid input) {stored : Option (List UInt8)}
    {previous : Option PreviousProcessing}
    (hstored : parseOptionalPrevious fromSlice stored guid = .ok previous) :
    processCrash fromSlice rules guid input stored =
      .ok (storedResult rules guid input (nextHistory previous input.attempt)) := by
  have hvalid : validateProcessingResult (built guid input previous) (some guid) = .ok () :=
    built_valid h (accepted_of_parseOptional hstored) false
  rw [processCrash, reprocess_step h hstored, ok_bind, hvalid, ok_bind, redactAndIndex_built]
  rfl

/-- The next history over a stored result. -/
def historyAfter (rules : DataRules) (input : ProcessingInput) (history : List Json) :
    List Json :=
  nextHistory (some ⟨storedAttempt rules input, history⟩) input.attempt

theorem accepted_nextHistory (h : Usable guid input) {previous : Option PreviousProcessing}
    (hprevious : ∀ p ∈ previous, Accepted p) :
    Accepted ⟨storedAttempt rules input, nextHistory previous input.attempt⟩ :=
  ⟨(storedAttempt_current h.named).valid, (nextHistory_accepted _ hprevious).2,
    (nextHistory_accepted _ hprevious).1⟩

theorem accepted_historyAfter (h : Usable guid input) {history : List Json}
    (haccepted : Accepted ⟨storedAttempt rules input, history⟩) :
    Accepted ⟨storedAttempt rules input, historyAfter rules input history⟩ := by
  apply accepted_nextHistory h
  rintro p ⟨⟩
  exact haccepted

/-- One repetition over a stored result. -/
theorem processCrash_storedResult (h : Usable guid input) {history : List Json}
    (haccepted : Accepted ⟨storedAttempt rules input, history⟩) {bytes : List UInt8}
    (hbytes : fromSlice bytes = some (storedResult rules guid input history)) :
    processCrash fromSlice rules guid input (some bytes) =
      .ok (storedResult rules guid input (historyAfter rules input history)) := by
  apply processCrash_accepted h
  rw [parseOptionalPrevious, parsePrevious_storedResult h haccepted hbytes]
  rfl

theorem published_of_processCrash {stored : Option (List UInt8)} {result : Json}
    (h : processCrash fromSlice rules guid input stored = .ok result) :
    Usable guid input ∧ ∃ history, Accepted ⟨storedAttempt rules input, history⟩ ∧
      result = storedResult rules guid input history := by
  obtain ⟨made, hmade, hrest⟩ := bind_eq_ok.mp h
  obtain ⟨_, hvalid, hresult⟩ := bind_eq_ok.mp hrest
  obtain ⟨guid', hguid, hmade⟩ := bind_eq_ok.mp hmade
  obtain ⟨previous, hprevious, hmade⟩ := bind_eq_ok.mp hmade
  obtain ⟨hidentity, hblank⟩ := Option.filter_eq_some_iff.mp (okOr_eq_ok.mp hguid)
  have hbuilt : input.build previous = .ok (built guid' input previous) := by
    simp [ProcessingInput.build, buildProcessingResult, hguid, built, ProcessingInput.attempt]
  obtain rfl := Except.ok.inj (hbuilt.symm.trans hmade)
  obtain ⟨rfl, hattempt⟩ := identity_of_valid hvalid
  have husable : Usable guid' input :=
    ⟨by simpa using hblank, hidentity, named_of_validateAttempt hattempt⟩
  refine ⟨husable, _, accepted_nextHistory husable (accepted_of_parseOptional hprevious), ?_⟩
  rw [← redactAndIndex_built]
  exact (Except.ok.inj hresult).symm

theorem historyAfter_eq_iff {history : List Json} (h : history.length ≤ maxProcessingHistory) :
    historyAfter rules input history = history ↔
      SourcesKept rules.patterns input.symbolication ∨
        history = List.replicate maxProcessingHistory (storedAttempt rules input) := by
  have hattempt : storedAttempt rules input = input.attempt ↔
      SourcesKept rules.patterns input.symbolication := attempt_redactResult_iff _ _
  rw [← hattempt, historyAfter, nextHistory]
  by_cases hsame : storedAttempt rules input = input.attempt
  · simp [hsame]
  · simp only [hsame, if_false, false_or]
    exact pushBounded_eq_self_iff (by decide) h _

end Stored

/-! ## Any number of repetitions -/

section Runs
variable {fromSlice : List UInt8 → Option Json} {rules : DataRules} {guid : String}
  {input : ProcessingInput} {bytes : Nat → List UInt8} {results : Nat → Json}

theorem Repeats.usable (h : Repeats fromSlice rules guid input bytes results) :
    Usable guid input := by
  obtain ⟨stored, hpublished⟩ := h.published
  exact (published_of_processCrash hpublished).1

/-- Induction on the repetitions: each finds a stored result that is accepted. -/
theorem Repeats.stored_at (h : Repeats fromSlice rules guid input bytes results) (n : Nat) :
    ∃ history, Accepted ⟨storedAttempt rules input, history⟩ ∧
      results n = storedResult rules guid input history := by
  induction n with
  | zero =>
    obtain ⟨stored, hpublished⟩ := h.published
    exact (published_of_processCrash hpublished).2
  | succ n ih =>
    obtain ⟨history, haccepted, hresult⟩ := ih
    have hbytes := (h.stored n).trans (congrArg some hresult)
    exact ⟨historyAfter rules input history, accepted_historyAfter h.usable haccepted,
      h.next n _ (processCrash_storedResult h.usable haccepted hbytes)⟩

/-- One repetition publishes a result, which differs in its history at most. -/
theorem Repeats.step (h : Repeats fromSlice rules guid input bytes results) (n : Nat) :
    ∃ history, history.length ≤ maxProcessingHistory ∧
      results n = storedResult rules guid input history ∧
      results (n + 1) = storedResult rules guid input (historyAfter rules input history) ∧
      processCrash fromSlice rules guid input (some (bytes n)) = .ok (results (n + 1)) := by
  obtain ⟨history, haccepted, hresult⟩ := h.stored_at n
  have hbytes := (h.stored n).trans (congrArg some hresult)
  have hprocess := processCrash_storedResult h.usable haccepted hbytes
  have hnext := h.next n _ hprocess
  exact ⟨history, haccepted.bounded, hresult, hnext, hprocess.trans (congrArg _ hnext.symm)⟩

theorem Repeats.unchanged_iff (h : Repeats fromSlice rules guid input bytes results) (n : Nat) :
    results (n + 1) = results n ↔
      SourcesKept rules.patterns input.symbolication ∨ HistoryOfCurrent (results n) := by
  obtain ⟨history, hlength, hresult, hnext, -⟩ := h.step n
  rw [hnext, hresult, storedResult_inj, historyOfCurrent_storedResult, historyAfter_eq_iff hlength]

/-- Every repetition publishes. None of them changes the result just when redaction leaves
every source file as it is, or the history is already full of the stored attempt. -/
theorem repeated_unchanged_iff (h : Repeats fromSlice rules guid input bytes results) :
    (∀ n, processCrash fromSlice rules guid input (some (bytes n)) = .ok (results (n + 1))) ∧
      ((∀ n, results (n + 1) = results n) ↔
        SourcesKept rules.patterns input.symbolication ∨ HistoryOfCurrent (results 0)) := by
  constructor
  · intro n
    obtain ⟨_, -, -, -, hprocess⟩ := h.step n
    exact hprocess
  constructor
  · intro hsame
    exact (h.unchanged_iff 0).mp (hsame 0)
  · intro hkept n
    have hall : SourcesKept rules.patterns input.symbolication ∨ HistoryOfCurrent (results n) := by
      induction n with
      | zero => exact hkept
      | succ n ih => rwa [(h.unchanged_iff n).mpr ih]
    exact (h.unchanged_iff n).mpr hall

end Runs

/-! ## Runs that exist -/

section Samples

/-- The histories of a crash that is first processed with nothing stored. -/
def repeatedHistory (rules : DataRules) (input : ProcessingInput) : Nat → List Json
  | 0 => []
  | n + 1 => historyAfter rules input (repeatedHistory rules input n)

def repeatedResult (rules : DataRules) (guid : String) (input : ProcessingInput) (n : Nat) : Json :=
  storedResult rules guid input (repeatedHistory rules input n)

/-- The stored texts are told apart by their length. -/
theorem repeats_repeatedResult {guid : String} {input : ProcessingInput} (rules : DataRules)
    (h : Usable guid input) :
    Repeats (fun bytes => some (repeatedResult rules guid input bytes.length)) rules guid input
      (fun n => List.replicate n 0) (repeatedResult rules guid input) := by
  have haccepted : ∀ n, Accepted ⟨storedAttempt rules input, repeatedHistory rules input n⟩ := by
    intro n
    induction n with
    | zero => exact ⟨(storedAttempt_current h.named).valid, nofun, Nat.zero_le _⟩
    | succ n ih => exact accepted_historyAfter h ih
  have hbytes : ∀ n,
      some (repeatedResult rules guid input (List.replicate n (0 : UInt8)).length) =
        some (repeatedResult rules guid input n) := by
    intro n
    rw [List.length_replicate]
  have hfirst : processCrash (fun bytes => some (repeatedResult rules guid input bytes.length))
      rules guid input none = .ok (storedResult rules guid input (nextHistory none input.attempt)) :=
    processCrash_accepted h rfl
  refine ⟨⟨none, hfirst⟩, hbytes, ?_⟩
  intro n result hresult
  rw [processCrash_storedResult h (haccepted n) (hbytes n)] at hresult
  exact Except.ok.inj hresult

/-- One frame, of a source file under a directory that a pattern names. -/
def sampleFrame : SymbolicatedFrame where
  instruction := "0x140001000"
  module := some "game.exe"
  moduleRelative := some "0x1000"
  trust := "context"
  symbolStatus := .resolved
  function := some "Game::Tick"
  sourceFile := some "C:\\secret\\game.cpp"
  sourceLine := some 7
  inlines := []

def sampleThread : SymbolicatedThread := ⟨1, true, none, .ok, false, [sampleFrame]⟩

def sampleCrash : ProcessingInput :=
  sampleInput "Crash" "" (sampleSymbolication none [] [sampleThread])

theorem sampleCrash_usable : Usable sampleGuid sampleCrash := by
  apply sampleInput_usable
  apply sampleSymbolication_named
  simp [sampleThread, sampleFrame]

def rulesOf (pattern : String) : DataRules := ⟨0, [pattern.toList], []⟩

/-- A pattern that no source file holds. -/
theorem unchanged_sampleCrash :
    (fun n => repeatedResult (rulesOf "token") sampleGuid sampleCrash (n + 1)) =
      repeatedResult (rulesOf "token") sampleGuid sampleCrash := by
  have hkept : SourcesKept (rulesOf "token").patterns sampleCrash.symbolication := by
    intro t ht f hf
    obtain rfl := List.mem_singleton.mp ht
    obtain rfl := List.mem_singleton.mp hf
    refine ⟨?_, nofun⟩
    rintro s ⟨⟩
    decide +kernel
  have hrun := repeats_repeatedResult (rulesOf "token") sampleCrash_usable
  exact funext ((repeated_unchanged_iff hrun).2.mpr (.inl hkept))

/-- The stored attempt has its source file redacted, so the first repetition records it. -/
theorem not_unchanged_sampleCrash :
    ¬ ∀ (patterns keys : List Text) (rules : DataRules),
      validateRules patterns keys = .ok rules →
      ∀ (fromSlice : List UInt8 → Option Json) (guid : String) (input : ProcessingInput)
        (bytes : Nat → List UInt8) (results : Nat → Json),
        Repeats fromSlice rules guid input bytes results → ∀ n, results (n + 1) = results n := by
  intro hall
  have hrules : validateRules ["secret".toList] [] = .ok (rulesOf "secret") := by decide +kernel
  have hrun := repeats_repeatedResult (rulesOf "secret") sampleCrash_usable
  have hsame := hall _ _ _ hrules _ _ _ _ _ hrun 0
  rcases (hrun.unchanged_iff 0).mp hsame with hkept | hfull
  · have hsource := (hkept sampleThread List.mem_cons_self sampleFrame List.mem_cons_self).1
    have hchanged : redactText ["secret".toList] "C:\\secret\\game.cpp".toList ≠
        "C:\\secret\\game.cpp".toList := by
      decide +kernel
    exact hchanged (hsource _ rfl)
  · have hempty := historyOfCurrent_storedResult.mp hfull
    exact absurd (congrArg List.length hempty) (by decide)

end Samples
end FaultLane.RepeatedReprocessing

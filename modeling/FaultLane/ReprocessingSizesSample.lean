import FaultLane.ReprocessingSizesRuns

set_option autoImplicit false

/-!
# A crash that is processed twice

The symbols arrive after the first processing. The second one finds the same stacks without them,
and other stacks with them, over the history of the first.
-/
namespace FaultLane.ReprocessingSizes
open Fallible Json BoundedHistory CrashContext CrashRequest Symbolication DumpSymbolication
  ProcessingContract ProcessingResult ProcessingProducer ProcessingHistory Redaction
  RedactedResults RepeatedReprocessing

/-- What `SymbolicationLimits::default` allows of a result. -/
structure WithinLimits (r : SymbolicationResult) : Prop where
  modules : r.modules.length ≤ maxModules
  threads : r.threads.length ≤ maxThreads
  frames : ∀ t ∈ r.threads, t.frames.length ≤ maxFramesPerThread
  reason : ∀ text ∈ r.exceptionReason, text.toList.length ≤ maxExceptionReasonChars
  assertion : ∀ text ∈ r.assertion, text.toList.length ≤ maxAssertionChars

/-! ## Documents read back -/

/-- What is written of some documents is read back, and nothing else. -/
def sliceOf (documents : List Json) (bytes : List UInt8) : Option Json :=
  documents.find? fun v => decide (bytes = v.toVec ∨ bytes = writeJson v)

theorem readBack_of_mem {documents : List Json}
    (h : documents.Pairwise fun v w => v.size + 1 < w.size) {v : Json} (hv : v ∈ documents) :
    ReadBack (sliceOf documents) v := by
  induction documents with
  | nil => cases hv
  | cons w rest ih =>
    obtain ⟨hfirst, hrest⟩ := List.pairwise_cons.mp h
    rcases List.mem_cons.mp hv with rfl | hv
    · constructor
      · exact List.find?_cons_of_pos (decide_eq_true (.inl rfl))
      · exact List.find?_cons_of_pos (decide_eq_true (.inr rfl))
    · have hlt := hfirst v hv
      obtain ⟨hvec, hline⟩ := ih hrest hv
      have hother : ∀ bytes : List UInt8, v.size ≤ bytes.length →
          ¬ (bytes = w.toVec ∨ bytes = writeJson w) := by
        rintro bytes hlength (rfl | rfl)
        · rw [length_toVec] at hlength
          omega
        · rw [length_writeJson] at hlength
          omega
      have hskip : ∀ bytes : List UInt8, v.size ≤ bytes.length →
          sliceOf (w :: rest) bytes = sliceOf rest bytes := fun bytes hlength =>
        List.find?_cons_of_neg (by rw [decide_eq_true_iff]; exact hother bytes hlength)
      constructor
      · rw [hskip _ (length_toVec v).ge, hvec]
      · rw [hskip _ ((length_writeJson v).symm ▸ Nat.le_succ _), hline]

/-! ## The two processings -/

def noRules : DataRules := ⟨0, [], []⟩

def twice (a b : SymbolicationResult) : List Processing :=
  [⟨a, none, noRules⟩, ⟨a, some b, noRules⟩]

def twiceDocuments (c : Crash) (a b : SymbolicationResult) : List Json :=
  [c.output a [], c.output b [(c.input a).attempt]]

section rules
variable {c : Crash} {r : SymbolicationResult} {p : Processing}

theorem storedAttempt_noRules : storedAttempt noRules (c.input r) = (c.input r).attempt :=
  congrArg (attempt _) (redactResult_nil r)

theorem published_noRules (h : p.rules = noRules) (history : List Json) :
    c.published p history = c.output p.outcome history := by
  rw [Crash.published, h, storedResult, storedAttempt_noRules]
  unfold noRules
  rw [redactContext_nil, redactRequestLog_nil, Option.map_id_fun, id_eq]
  rfl

end rules

section twice
variable {c : Crash} {a b : SymbolicationResult}

theorem carried_twice_same :
    carried c [⟨a, none, noRules⟩] (c.input a).attempt = [] := by
  have hkept : c.kept ⟨a, none, noRules⟩ = (c.input a).attempt := storedAttempt_noRules
  rw [carried, superseded, if_pos hkept]
  rfl

theorem carried_twice_other (hne : (c.input a).attempt ≠ (c.input b).attempt) :
    carried c [⟨a, none, noRules⟩] (c.input b).attempt =
      [(c.input a).attempt] := by
  have hkept : c.kept ⟨a, none, noRules⟩ = (c.input a).attempt := storedAttempt_noRules
  rw [carried, superseded, hkept, if_neg hne]
  rfl

theorem allReadBack_twice (hne : (c.input a).attempt ≠ (c.input b).attempt)
    (hsize : (c.output a []).size + 1 <
      (c.output b [(c.input a).attempt]).size) :
    AllReadBack c (sliceOf (twiceDocuments c a b)) [] (twice a b) := by
  have hpairwise : (twiceDocuments c a b).Pairwise fun v w => v.size + 1 < w.size :=
    List.pairwise_pair.mpr hsize
  have hfirst : ReadBack (sliceOf (twiceDocuments c a b)) (c.output a []) :=
    readBack_of_mem hpairwise List.mem_cons_self
  have hsecond : ReadBack (sliceOf (twiceDocuments c a b))
      (c.output b [(c.input a).attempt]) :=
    readBack_of_mem hpairwise (List.mem_cons_of_mem _ List.mem_cons_self)
  refine ⟨?_, ?_, ?_, ?_, trivial⟩
  · intro r hr
    obtain rfl := List.mem_singleton.mp hr
    exact hfirst
  · rw [published_noRules rfl]
    exact hfirst
  · intro r hr
    rcases List.mem_cons.mp hr with rfl | hr
    · exact carried_twice_same ▸ hfirst
    · obtain rfl := List.mem_singleton.mp hr
      exact carried_twice_other hne ▸ hsecond
  · rw [published_noRules rfl]
    exact carried_twice_other hne ▸ hsecond

theorem alwaysRoomy_twice (hne : (c.input a).attempt ≠ (c.input b).attempt) :
    AlwaysRoomy c [] (twice a b) ↔
      (c.output a []).size + 1 ≤ processorOutputBytes ∧
        (c.output b []).size + (c.input a).attempt.size + 1 ≤ processorOutputBytes := by
  have hempty : ∀ next, listed (carried c [] next) = 0 := fun _ => rfl
  have hsame : listed (carried c [⟨a, none, noRules⟩] (c.input a).attempt) = 0 := by
    rw [carried_twice_same]
    rfl
  have hother : listed (carried c [⟨a, none, noRules⟩] (c.input b).attempt) =
      (c.input a).attempt.size := by
    rw [carried_twice_other hne, listed_singleton]
  constructor
  · rintro ⟨hfirst, hsecond, -⟩
    have ha := hfirst.outputs a List.mem_cons_self
    have hb := hsecond.outputs b (List.mem_cons_of_mem _ List.mem_cons_self)
    rw [hempty, Nat.add_zero] at ha
    rw [List.nil_append, hother] at hb
    exact ⟨ha, hb⟩
  · rintro ⟨ha, hb⟩
    refine ⟨⟨?_, ?_⟩, ⟨?_, ?_⟩, trivial⟩
    · intro r hr
      obtain rfl := List.mem_singleton.mp hr
      rw [hempty, Nat.add_zero]
      exact ha
    · rw [published_noRules rfl, hempty, Nat.add_zero]
      exact Nat.le_of_succ_le ha
    · intro r hr
      rw [List.nil_append]
      rcases List.mem_cons.mp hr with rfl | hr
      · rw [hsame, Nat.add_zero]
        exact ha
      · obtain rfl := List.mem_singleton.mp hr
        rw [hother]
        exact hb
    · rw [published_noRules rfl, List.nil_append]
      have hfresh : c.fresh ⟨a, some b, noRules⟩ = (c.input b).attempt := rfl
      rw [hfresh, hother]
      exact Nat.le_of_succ_le hb

end twice

/-! ## Dumps of many frames -/

section dumps

def sampleManifest : CrashRequestManifest :=
  .supported sampleGuid "UECC-Windows-Sample.uecrash" 1024 4096 []

def sample : Crash where
  guid := sampleGuid
  document := (sampleInput "Crash" "" (sampleSymbolication none [] [])).document
  request := sampleManifest
  log := none

def plainFrame : SymbolicatedFrame where
  instruction := "0x00007ff6a0001000"
  module := some "game.exe"
  moduleRelative := some "0x1000"
  trust := "cfi"
  symbolStatus := .missingPdb
  function := none
  sourceFile := none
  sourceLine := none
  inlines := []

def namedFrame : SymbolicatedFrame where
  instruction := "0x00007ff6a0001000"
  module := some "game.exe"
  moduleRelative := some "0x1000"
  trust := "cfi"
  symbolStatus := .resolved
  function := some "Game::Tick"
  sourceFile := some "C:\\build\\game.cpp"
  sourceLine := some 7
  inlines := []

def dumpThread (frames : Nat) (f : SymbolicatedFrame) (id : Nat) : SymbolicatedThread :=
  ⟨100 + id, false, none, .ok, true, List.replicate frames f⟩

def dump (threads frames : Nat) (f : SymbolicatedFrame) : SymbolicationResult :=
  sampleSymbolication none [] ((List.range threads).map (dumpThread frames f))

variable {threads frames : Nat} {f : SymbolicatedFrame}

theorem dump_withinLimits (hthreads : threads ≤ maxThreads)
    (hframes : frames ≤ maxFramesPerThread) :
    WithinLimits (dump threads frames f) where
  modules := Nat.zero_le _
  threads := by
    change ((List.range threads).map _).length ≤ _
    rw [List.length_map, List.length_range]
    exact hthreads
  frames := by
    intro t ht
    obtain ⟨id, -, rfl⟩ := List.mem_map.mp ht
    change (List.replicate frames f).length ≤ _
    rw [List.length_replicate]
    exact hframes
  reason := nofun
  assertion := nofun

theorem dump_usable (htrust : f.trust ≠ "") :
    Usable sample.guid (sample.input (dump threads frames f)) := by
  refine ⟨by decide, rfl, sampleSymbolication_named _ _ fun t ht g hg => ?_⟩
  obtain ⟨id, -, rfl⟩ := List.mem_map.mp ht
  obtain ⟨-, rfl⟩ := List.mem_replicate.mp hg
  exact htrust

def threadFields (id : Nat) (items : List Json) : List (String × Json) :=
  [("thread_id", ofNat id), ("faulting", .bool false), ("name", ofOptionalString none),
    ("unwind_status", .string ThreadUnwindStatus.ok.text), ("frames_truncated", .bool true),
    ("frames", .array items)]

theorem nodup_threadFields (id : Nat) (items : List Json) :
    (SortedMap.keys (threadFields id items)).Nodup := by
  simp [SortedMap.keys, threadFields]

theorem size_threadId (id : Nat) (hid : id < 128) :
    (ofNat (100 + id)).size = (ofNat 100).size := by
  have hdigits : ∀ id < 128, RustText.byteLength (Nat.toDigits 10 (100 + id)) = 3 := by
    decide
  change RustText.byteLength (Nat.toDigits 10 (100 + id)) = 3
  exact hdigits id hid

/-- The identities of the threads have three digits each. -/
theorem size_dumpThread {id : Nat} (hid : id < 128) :
    (dumpThread (frames + 1) f id).toJson.size =
      (ofFields (threadFields 100 [])).size + ((frames + 1) * f.toJson.size + frames) := by
  have hlisted : listed ((List.replicate (frames + 1) f).map SymbolicatedFrame.toJson) =
      (frames + 1) * f.toJson.size + frames := by
    have hall : ∀ v ∈ (List.replicate (frames + 1) f).map SymbolicatedFrame.toJson,
        v.size = f.toJson.size := by
      intro v hv
      obtain ⟨g, hg, rfl⟩ := List.mem_map.mp hv
      rw [List.eq_of_mem_replicate hg]
    rw [listed_of_size hall, List.length_map, List.length_replicate, Nat.add_sub_cancel]
  have hframes : (dumpThread (frames + 1) f id).toJson.size =
      (ofFields (threadFields (100 + id) [])).size +
        listed ((List.replicate (frames + 1) f).map SymbolicatedFrame.toJson) :=
    size_listed (threadFields (100 + id) []).dropLast [] _ (nodup_threadFields _ _)
  have hnumber : (ofFields (threadFields (100 + id) [])).size + (ofNat 100).size =
      (ofFields (threadFields 100 [])).size + (ofNat (100 + id)).size :=
    size_replace [] _ (ofNat (100 + id)) (ofNat 100) (nodup_threadFields _ _)
  rw [size_threadId id hid] at hnumber
  omega

theorem size_threads (hthreads : threads < 128) :
    listed ((dump (threads + 1) (frames + 1) f).threads.map SymbolicatedThread.toJson) =
      (threads + 1) * ((ofFields (threadFields 100 [])).size +
        ((frames + 1) * f.toJson.size + frames)) + threads := by
  have hall : ∀ v ∈ (dump (threads + 1) (frames + 1) f).threads.map SymbolicatedThread.toJson,
      v.size = (ofFields (threadFields 100 [])).size +
        ((frames + 1) * f.toJson.size + frames) := by
    intro v hv
    obtain ⟨t, ht, rfl⟩ := List.mem_map.mp hv
    obtain ⟨id, hid, rfl⟩ := List.mem_map.mp ht
    exact size_dumpThread (Nat.lt_of_lt_of_le (List.mem_range.mp hid) hthreads)
  have hlength : ((dump (threads + 1) (frames + 1) f).threads.map
      SymbolicatedThread.toJson).length = threads + 1 := by
    change (((List.range (threads + 1)).map _).map _).length = _
    rw [List.length_map, List.length_map, List.length_range]
  rw [listed_of_size hall, hlength, Nat.add_sub_cancel]

theorem size_attempt_dump (version : Nat) :
    (attempt version (dump threads frames f)).size =
      (attempt version (dump 0 0 f)).size +
        listed ((dump threads frames f).threads.map SymbolicatedThread.toJson) := by
  have hresult : (dump threads frames f).toJson.size = (dump 0 0 f).toJson.size +
      listed ((dump threads frames f).threads.map SymbolicatedThread.toJson) := by
    apply size_listed (dump threads frames f).fields.dropLast []
    simp [SortedMap.keys, SymbolicationResult.fields]
  have hattempt : (attempt version (dump threads frames f)).size + (dump 0 0 f).toJson.size =
      (attempt version (dump 0 0 f)).size + (dump threads frames f).toJson.size :=
    size_replace [("processing_version", ofNat processingVersion),
      ("parser_version", ofNat version)] [] _ _ (by simp [SortedMap.keys])
  omega

theorem size_output_dump :
    (sample.output (dump threads frames f) []).size =
      (sample.output (dump 0 0 f) []).size +
        listed ((dump threads frames f).threads.map SymbolicatedThread.toJson) := by
  have hattempt := @size_attempt_dump threads frames f crashContextParserVersion
  have houtput : (sample.output (dump threads frames f) []).size +
      (attempt crashContextParserVersion (dump 0 0 f)).size =
      (sample.output (dump 0 0 f) []).size +
        (attempt crashContextParserVersion (dump threads frames f)).size := by
    apply size_replace [("schema_version", ofNat resultSchemaVersion),
      ("crash_guid", .string sample.guid),
      ("crash_context", (sample.input (dump 0 0 f)).context.toJson),
      ("request", sampleManifest.toJson),
      ("classification", (CommandLines.classification sample.document).toJson)]
      [("history", .array [])]
    simp [SortedMap.keys]
  omega

theorem sample_sizes :
    plainFrame.toJson.size = 194 ∧ namedFrame.toJson.size = 213 ∧
      (ofFields (threadFields 100 [])).size = 103 ∧
      (attempt crashContextParserVersion (sampleSymbolication none [] [])).size = 350 := by
  refine ⟨?_, ?_, ?_, ?_⟩ <;> decide +kernel

def sampleMembers (context request classification current : Json) : List (String × Json) :=
  [("schema_version", ofNat resultSchemaVersion), ("crash_guid", .string sample.guid),
    ("crash_context", context), ("request", request), ("classification", classification),
    ("current", current), ("history", .array [])]

theorem size_sampleMembers (context request classification current : Json) :
    (ofFields (sampleMembers context request classification current)).size =
      125 + context.size + request.size + classification.size + current.size := by
  have hkeys : ∀ a b c d, (SortedMap.keys (sampleMembers a b c d)).Nodup := by
    simp [SortedMap.keys, sampleMembers]
  have hnull : (ofFields (sampleMembers .null .null .null .null)).size = 141 ∧
      Json.null.size = 4 := by
    decide +kernel
  rw [size_ofFields (hkeys _ _ _ _)] at hnull ⊢
  simp only [sampleMembers, List.map_cons, List.map_nil, List.sum_cons, List.sum_nil,
    fieldSize] at hnull ⊢
  omega

theorem size_sample_output :
    (sample.output (sampleSymbolication none [] []) []).size = 1049 := by
  have hparts : (sample.input (sampleSymbolication none [] [])).context.toJson.size = 303 ∧
      sample.request.toJson.size = 176 ∧
      (CommandLines.classification sample.document).toJson.size = 95 := by
    refine ⟨?_, ?_, ?_⟩ <;> decide +kernel
  have hcurrent : (sample.input (sampleSymbolication none [] [])).attempt.size = 350 :=
    sample_sizes.2.2.2
  refine (size_sampleMembers _ _ _ _).trans ?_
  rw [hparts.1, hparts.2.1, hparts.2.2, hcurrent]

theorem size_plainFrame : plainFrame.toJson.size = 194 := sample_sizes.1

theorem size_namedFrame : namedFrame.toJson.size = 213 := sample_sizes.2.1

theorem size_emptyThread : (ofFields (threadFields 100 [])).size = 103 := sample_sizes.2.2.1

theorem dump_zero : dump 0 0 f = sampleSymbolication none [] [] := rfl

theorem size_attempt (hthreads : threads < 128) :
    (sample.input (dump (threads + 1) (frames + 1) f)).attempt.size =
      350 + ((threads + 1) * (103 + ((frames + 1) * f.toJson.size + frames)) + threads) := by
  change (attempt crashContextParserVersion (dump (threads + 1) (frames + 1) f)).size = _
  rw [size_attempt_dump, dump_zero, sample_sizes.2.2.2, size_threads hthreads,
    size_emptyThread]

theorem size_output_alone (hthreads : threads < 128) :
    (sample.output (dump (threads + 1) (frames + 1) f) []).size =
      1049 + ((threads + 1) * (103 + ((frames + 1) * f.toJson.size + frames)) + threads) := by
  rw [size_output_dump, dump_zero, size_sample_output, size_threads hthreads,
    size_emptyThread]

/-- The two outcomes differ in the size of their frames. -/
theorem attempt_ne (hthreads : threads < 128) :
    (sample.input (dump (threads + 1) (frames + 1) plainFrame)).attempt ≠
      (sample.input (dump (threads + 1) (frames + 1) namedFrame)).attempt := by
  intro hsame
  have hsize := congrArg Json.size hsame
  rw [size_attempt hthreads, size_attempt hthreads, size_plainFrame, size_namedFrame] at hsize
  have hlt : (threads + 1) * (103 + ((frames + 1) * 194 + frames)) <
      (threads + 1) * (103 + ((frames + 1) * 213 + frames)) :=
    Nat.mul_lt_mul_of_pos_left (by omega) (Nat.succ_pos threads)
  omega

def dumpedTwice (threads frames : Nat) : List Processing :=
  twice (dump threads frames plainFrame) (dump threads frames namedFrame)

def dumpedDocuments (threads frames : Nat) : List Json :=
  twiceDocuments sample (dump threads frames plainFrame) (dump threads frames namedFrame)

theorem allReadBack_dumped (hthreads : threads < 128) :
    AllReadBack sample (sliceOf (dumpedDocuments (threads + 1) (frames + 1))) []
      (dumpedTwice (threads + 1) (frames + 1)) := by
  apply allReadBack_twice (attempt_ne hthreads)
  rw [size_output_singleton, size_output_alone hthreads, size_output_alone hthreads,
    size_attempt hthreads, size_plainFrame, size_namedFrame]
  have hle : (threads + 1) * (103 + ((frames + 1) * 194 + frames)) ≤
      (threads + 1) * (103 + ((frames + 1) * 213 + frames)) :=
    Nat.mul_le_mul_left _ (by omega)
  omega

theorem runs_dumped {p : Processing} {r : SymbolicationResult}
    (hp : p ∈ dumpedTwice threads frames) (hr : r ∈ p.runs) :
    r = dump threads frames plainFrame ∨ r = dump threads frames namedFrame := by
  rcases List.mem_cons.mp hp with rfl | hp
  · exact .inl (List.mem_singleton.mp hr)
  · obtain rfl := List.mem_singleton.mp hp
    rcases List.mem_cons.mp hr with rfl | hr
    · exact .inl rfl
    · exact .inr (List.mem_singleton.mp hr)

theorem fitsAlone_dumped (hthreads : threads < 128)
    (hsize : 1049 + ((threads + 1) * (103 + ((frames + 1) * 213 + frames)) + threads) + 1 ≤
      processorOutputBytes) :
    ∀ p ∈ dumpedTwice (threads + 1) (frames + 1), ∀ r ∈ p.runs, FitsAlone sample r := by
  have hle : (threads + 1) * (103 + ((frames + 1) * 194 + frames)) ≤
      (threads + 1) * (103 + ((frames + 1) * 213 + frames)) :=
    Nat.mul_le_mul_left _ (by omega)
  intro p hp r hr
  rcases runs_dumped hp hr with rfl | rfl
  · apply fitsAlone_of_usable (dump_usable (by decide))
    rw [size_output_alone hthreads, size_plainFrame]
    omega
  · apply fitsAlone_of_usable (dump_usable (by decide))
    rw [size_output_alone hthreads, size_namedFrame]
    exact hsize

end dumps
end FaultLane.ReprocessingSizes

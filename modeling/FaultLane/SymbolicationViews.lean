import FaultLane.DailyRollups
import FaultLane.JsonPath
import FaultLane.MissingWaiters
import FaultLane.PublishedText

set_option autoImplicit false

/-!
# Views of the symbolication state

The rule that a publication stores and the rules of the event list, the event detail and the
public demo, over the search row and over the document of the current result.
-/
namespace FaultLane.SymbolicationViews
open Fallible Json JsonPath RustText ProcessingContract GroupingTotality PublishedText
open DailyRollups (ProcessingState SymbolicationState symbolicationOf)
open Redaction (DataRules field redactAndIndex redactFrame resultUpdates)
open CrashSymbols (hasResolvedFrame validateResult)

/-! ## Rules -/

section rules
variable (state : ProcessingState) (result : Json)

def missingStatuses : List String := ["missing_pe", "missing_pdb", "mismatched", "missing_identity"]

def hasMissingModule : Bool :=
  isSomeAnd ((pointer ["current", "symbolication", "modules"] result).bind asArray) fun modules =>
    modules.any fun module => isSomeAnd ((get "status" module).bind asStr) missingStatuses.contains

def projectedSymbolicationState : SymbolicationState :=
  if state = .failed ∨ state = .quarantined then .failed
  else
    match hasResolvedFrame result, hasMissingModule result, state with
    | true, true, _ => .partially
    | true, false, _ => .readable
    | _, true, _ | _, _, .awaitingSymbols => .missing
    | _, _, _ => .processing

/-- `$.current.symbolication.threads[*].frames[*] ? (@.symbol_status == "resolved")`. -/
def resolvedFrames : List Json :=
  let threads := elements (members ["current", "symbolication", "threads"] result)
  filter (textEquals "symbol_status" "resolved") (elements (threads.flatMap (member "frames")))

/-- `$.current.symbolication.modules[*] ? (@.status == "missing_pe" || …)`. -/
def missingModules : List Json :=
  filter (fun module => missingStatuses.any fun status => textEquals "status" status module)
    (elements (members ["current", "symbolication", "modules"] result))

/-- `jsonb_path_exists`. -/
def pathExists (found : List Json) : Bool := !found.isEmpty

/-- The state in the event detail, from the current result. -/
def detailState (result : Option Json) : SymbolicationState :=
  let resolved := result.any fun result => pathExists (resolvedFrames result)
  let missing := result.any fun result => pathExists (missingModules result)
  if state = .failed ∨ state = .quarantined then .failed
  else if resolved ∧ missing then .partially
  else if resolved then .readable
  else if state = .awaitingSymbols ∨ missing then .missing
  else .processing

/-- The state of an issue in the public demo, from its representative and the search row of the
representative's current result. -/
def demoState (search : Option SymbolicationState) : SymbolicationState :=
  search.getD (
    if state = .failed ∨ state = .quarantined then .failed
    else if state = .awaitingSymbols then .missing
    else .processing)

end rules

/-! ## The members of a result that the rules read -/

def framesOf (thread : Json) : List Json := ((get "frames" thread).bind asArray).getD []

structure Members (result : Json) where
  current : Json
  symbolication : Json
  threads : List Json
  modules : List Json
  current_eq : result.get "current" = some current
  symbolication_eq : current.get "symbolication" = some symbolication
  threads_eq : symbolication.get "threads" = some (.array threads)
  modules_eq : symbolication.get "modules" = some (.array modules)
  frames_eq : ∀ t ∈ threads, t.get "frames" = some (.array (framesOf t))
  frame_status : ∀ t ∈ threads, ∀ f ∈ framesOf t, ∃ s, f.get "symbol_status" = some (.string s)
  module_status : ∀ m ∈ modules, ∃ s, m.get "status" = some (.string s)

theorem array_of_bind {value : Option Json} {items : List Json}
    (h : value.bind asArray = some items) : value = some (.array items) := by
  obtain ⟨found, rfl, hfound⟩ := Option.bind_eq_some_iff.mp h
  cases found <;> cases hfound
  rfl

theorem string_of_bind {value : Option Json} {s : String} (h : value.bind asStr = some s) :
    value = some (.string s) := by
  obtain ⟨found, rfl, hfound⟩ := Option.bind_eq_some_iff.mp h
  cases found <;> cases hfound
  rfl

theorem status_of_frame {f : Json} (h : validateFrame f = .ok ()) :
    ∃ s, f.get "symbol_status" = some (.string s) := by
  obtain ⟨object, hobject, h⟩ := bind_eq_ok.mp h
  obtain ⟨_, hfields, -⟩ := bind_eq_ok.mp h
  have hobject := okOr_eq_ok.mp hobject
  have hfields := refuse_eq_ok.mp hfields
  have hget : (f.get "symbol_status").bind asStr = strAt "symbol_status" object := by
    rw [Json.get, hobject]
    rfl
  cases hstatus : strAt "symbol_status" object with
  | some s => exact ⟨s, string_of_bind (hget.trans hstatus)⟩
  | none => simp [hstatus, isSomeAnd] at hfields

theorem frames_of_validThread {t : Json} (h : validateThread t = .ok ()) :
    t.get "frames" = some (.array (framesOf t)) ∧
      ∀ f ∈ framesOf t, ∃ s, f.get "symbol_status" = some (.string s) := by
  obtain ⟨object, hobject, h⟩ := bind_eq_ok.mp h
  obtain ⟨_, -, h⟩ := bind_eq_ok.mp h
  obtain ⟨frames, hframes, h⟩ := bind_eq_ok.mp h
  have hobject := okOr_eq_ok.mp hobject
  have hframes := okOr_eq_ok.mp hframes
  have hget : (t.get "frames").bind asArray = some frames := by
    rw [Json.get, hobject]
    exact hframes
  have hof : framesOf t = frames := by
    rw [framesOf, hget, Option.getD_some]
  rw [hof]
  exact ⟨array_of_bind hget, fun f hf => status_of_frame (forEach_eq_ok.mp h f hf)⟩

theorem members_of_valid {result : Json} {guid : Option String}
    (h : validateResult result guid = .ok ()) : Nonempty (Members result) := by
  have hcontract : validateProcessingContract result guid true = .ok () := by
    change validateCurrentProcessingResult result guid = .ok ()
    unfold validateResult at h
    cases hresult : validateCurrentProcessingResult result guid with
    | ok _ => rfl
    | error e =>
      rw [hresult] at h
      cases e <;> cases h
  obtain ⟨object, current, -, hobject, hcurrent, -, hattempt, -⟩ := contract_steps hcontract
  obtain ⟨attempt, value, version, hattemptObject, hvalue, hsymbolication⟩ :=
    symbolication_of_attempt hattempt
  obtain ⟨symbolication, modules, threads, hobject', hmodules, hthreads, hm, ht⟩ :=
    lists_of_symbolication hsymbolication
  have hget : ∀ key, value.get key = SortedMap.get key symbolication := fun key => by
    rw [Json.get, hobject']
    rfl
  refine ⟨⟨current, value, threads, modules, ?_, ?_, ?_, ?_, ?_, ?_, ?_⟩⟩
  · rw [Json.get, hobject]
    exact hcurrent
  · rw [Json.get, hattemptObject]
    exact hvalue
  · rw [hget]
    exact array_of_bind hthreads
  · rw [hget]
    exact array_of_bind hmodules
  · exact fun t hin => (frames_of_validThread (ht t hin)).1
  · exact fun t hin => (frames_of_validThread (ht t hin)).2
  · intro m hin
    obtain ⟨s, hs⟩ := MissingWaiters.status_of_valid (hm m hin)
    exact ⟨s, string_of_bind hs⟩

/-! ## Redaction -/

section redaction
variable (patterns : List Text)

theorem get_redactFrame_status (f : Json) :
    (redactFrame patterns f).get "symbol_status" = f.get "symbol_status" :=
  get_fields_other (by simp) f

theorem framesOf_redacted {t : Json} (h : t.get "frames" = some (.array (framesOf t))) :
    (field "frames" (Redaction.elements (redactFrame patterns)) t).get "frames" =
      some (.array ((framesOf t).map (redactFrame patterns))) := by
  rw [get_field, h]
  rfl

/-- Redaction leaves every status as it is. -/
theorem Members.redacted {result : Json} (p : Members result) :
    Nonempty (Members (redactedResult patterns result)) := by
  have hframes : ∀ t ∈ p.threads, ∀ t', t' = field "frames"
      (Redaction.elements (redactFrame patterns)) t →
      t'.get "frames" = some (.array (framesOf t')) ∧
        framesOf t' = (framesOf t).map (redactFrame patterns) := by
    rintro t ht _ rfl
    have hget := framesOf_redacted patterns (p.frames_eq t ht)
    have hof : framesOf (field "frames" (Redaction.elements (redactFrame patterns)) t) =
        (framesOf t).map (redactFrame patterns) := by
      rw [framesOf, hget]
      rfl
    rw [hof]
    exact ⟨hget, rfl⟩
  refine ⟨⟨field "symbolication" (redactThreads patterns) p.current,
    redactThreads patterns p.symbolication,
    p.threads.map (field "frames" (Redaction.elements (redactFrame patterns))), p.modules,
    ?_, ?_, ?_, ?_, ?_, ?_, p.module_status⟩⟩
  · have hcurrent : (redactedResult patterns result).get "current" =
        (result.get "current").map (field "symbolication" (redactThreads patterns)) :=
      get_fields (by simp [resultUpdates]) (by simp [resultUpdates, redactThreads]) result
    rw [hcurrent, p.current_eq]
    rfl
  · rw [get_field, p.symbolication_eq]
    rfl
  · rw [redactThreads, get_field, p.threads_eq]
    rfl
  · rw [redactThreads, get_field_other (by decide), p.modules_eq]
  · intro t' ht'
    obtain ⟨t, ht, rfl⟩ := List.mem_map.mp ht'
    exact (hframes t ht _ rfl).1
  · intro t' ht' f' hf'
    obtain ⟨t, ht, rfl⟩ := List.mem_map.mp ht'
    rw [(hframes t ht _ rfl).2] at hf'
    obtain ⟨f, hf, rfl⟩ := List.mem_map.mp hf'
    rw [get_redactFrame_status]
    exact p.frame_status t ht f hf

theorem Members.redactAndIndex {result : Json} (p : Members result) (rules : DataRules) :
    Nonempty (Members (redactAndIndex rules result).1) := by
  rcases redactAndIndex_fst result rules with h | ⟨-, h⟩
  · rw [h]
    exact p.redacted rules.patterns
  · rw [h]
    exact ⟨p⟩

end redaction

/-! ## Agreement -/

section agreement
variable {result : Json} (p : Members result)

theorem Members.path (key : String) {items : List Json}
    (h : p.symbolication.get key = some (.array items)) :
    pointer ["current", "symbolication", key] result = some (.array items) ∧
      elements (members ["current", "symbolication", key] result) = items := by
  have hcurrent : members ([] ++ ["current"]) result = [p.current] :=
    members_append_of_get rfl p.current_eq
  have hsymbolication := members_append_of_get hcurrent p.symbolication_eq
  have hitems := members_append_of_get hsymbolication h
  constructor
  · rw [pointer_cons, p.current_eq, Option.bind_some, pointer_cons, p.symbolication_eq,
      Option.bind_some, pointer_cons, h]
    rfl
  · change elements (members (([] ++ ["current"]) ++ ["symbolication"] ++ [key]) result) = items
    rw [hitems]
    exact elements_singleton items

theorem any_congr_mem {items : List Json} {f g : Json → Bool} (h : ∀ v ∈ items, f v = g v) :
    items.any f = items.any g := by
  rw [Bool.eq_iff_iff, List.any_eq_true, List.any_eq_true]
  exact exists_congr fun v => and_congr_right fun hv => by rw [h v hv]

theorem pathExists_filter (items : List Json) (condition : Json → Bool) :
    pathExists (items.filter condition) = items.any condition := by
  unfold pathExists
  induction items with
  | nil => rfl
  | cons v rest ih =>
    rw [List.any_cons, ← ih, List.filter_cons]
    cases condition v <;> rfl

include p in
theorem Members.resolvedFrames_eq :
    pathExists (resolvedFrames result) = hasResolvedFrame result := by
  obtain ⟨hpointer, hpath⟩ := p.path "threads" p.threads_eq
  have hframes := elements_members p.frames_eq
  have hstatus : ∀ f ∈ p.threads.flatMap framesOf,
      ∃ s, f.get "symbol_status" = some (.string s) := fun f hf => by
    obtain ⟨t, ht, hf⟩ := List.mem_flatMap.mp hf
    exact p.frame_status t ht f hf
  have hfound : ∀ f ∈ p.threads.flatMap framesOf, ∃ v, f.get "symbol_status" = some v :=
    fun f hf => (hstatus f hf).imp' Json.string fun _ h => h
  have htext : ∀ f ∈ p.threads.flatMap framesOf,
      textEquals "symbol_status" "resolved" f =
        ((get "symbol_status" f).bind asStr == some "resolved") := fun f hf => by
    obtain ⟨s, hs⟩ := hstatus f hf
    rw [textEquals_of_get hs, hs]
    rfl
  have hthread : ∀ t ∈ p.threads, (framesOf t).any
      (fun f => (get "symbol_status" f).bind asStr == some "resolved") =
        isSomeAnd ((get "frames" t).bind asArray) fun frames =>
          frames.any fun f => (get "symbol_status" f).bind asStr == some "resolved" :=
    fun t ht => by
      rw [p.frames_eq t ht]
      rfl
  unfold resolvedFrames hasResolvedFrame
  dsimp only
  rw [hpath, hframes, filter_of_get hfound, pathExists_filter, hpointer,
    any_congr_mem htext, List.any_flatMap]
  exact any_congr_mem hthread

include p in
theorem Members.missingModules_eq :
    pathExists (missingModules result) = hasMissingModule result := by
  obtain ⟨hpointer, hpath⟩ := p.path "modules" p.modules_eq
  have hfound : ∀ m ∈ p.modules, ∃ v, m.get "status" = some v :=
    fun m hm => (p.module_status m hm).imp' Json.string fun _ h => h
  have htext : ∀ m ∈ p.modules,
      (missingStatuses.any fun status => textEquals "status" status m) =
        isSomeAnd ((get "status" m).bind asStr) missingStatuses.contains := fun m hm => by
    obtain ⟨s, hs⟩ := p.module_status m hm
    have heq : ∀ status, textEquals "status" status m = (s == status) :=
      fun status => textEquals_of_get hs status
    rw [hs, List.any_congr rfl heq]
    exact List.any_beq
  unfold missingModules hasMissingModule
  rw [hpath, filter_of_get hfound, pathExists_filter, hpointer]
  exact any_congr_mem htext

include p in
/-- The path expressions find what the projection does. -/
theorem Members.detailState_eq (state : ProcessingState) :
    detailState state (some result) = projectedSymbolicationState state result := by
  unfold detailState projectedSymbolicationState
  dsimp only [Option.any_some]
  rw [p.resolvedFrames_eq, p.missingModules_eq]
  by_cases hfailed : state = .failed ∨ state = .quarantined
  · rw [if_pos hfailed, if_pos hfailed]
  · rw [if_neg hfailed, if_neg hfailed]
    cases hasResolvedFrame result <;> cases hasMissingModule result <;> cases state <;> rfl

end agreement

section states
variable {state published : ProcessingState}

/-- Before the first result every view is the list's. -/
theorem views_of_none (state : ProcessingState) :
    detailState state none = symbolicationOf state none ∧
      demoState state none = symbolicationOf state none := by
  cases state <;> exact ⟨rfl, rfl⟩

/-- The list shows a failure, and otherwise the stored state, which is a projection. -/
theorem symbolicationOf_projected {result : Json}
    (hstate : state = published ∨ state = .failed ∨ state = .quarantined) :
    symbolicationOf state (some (projectedSymbolicationState published result)) =
      projectedSymbolicationState state result := by
  unfold symbolicationOf
  by_cases hfailed : state = .failed ∨ state = .quarantined
  · rw [if_pos hfailed]
    exact (if_pos hfailed).symm
  · rw [if_neg hfailed, hstate.resolve_right hfailed]

end states
end FaultLane.SymbolicationViews

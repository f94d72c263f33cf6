import FaultLane.ProcessingHistory
import FaultLane.SymbolArrival

set_option autoImplicit false

/-!
# What a crash waits for

The modules and the waiters that the worker reads from a result, and those of a result that was
made without any artifact.
-/
namespace FaultLane.SymbolArrival
open Fallible SortedMap Json RustText Symbolication DumpSymbolication
open CrashSymbols ProcessingResult ProcessingHistory

/-! ## Reading a result -/

def identity (m : SymbolicatedModule) : ModuleIdentity := ⟨m.module, m.debugId, m.codeId⟩

theorem asStr_ofOptionalString (o : Option String) : (ofOptionalString o).asStr = o := by
  cases o <;> rfl

theorem moduleIdentity_toJson (m : SymbolicatedModule) :
    moduleIdentity m.toJson = .ok (identity m) := by
  have hname : Json.get "module" m.toJson = some (.string m.module) := get_fields m.fields "module"
  have hdebug : Json.get "debug_id" m.toJson = some (ofOptionalString m.debugId) :=
    get_fields m.fields "debug_id"
  have hcode : Json.get "code_id" m.toJson = some (ofOptionalString m.codeId) :=
    get_fields m.fields "code_id"
  unfold moduleIdentity
  rw [hname, hdebug, hcode, Option.bind_some, Option.bind_some, Option.bind_some,
    asStr_ofOptionalString, asStr_ofOptionalString]
  rfl

theorem mapM_moduleIdentity (modules : List SymbolicatedModule) :
    (modules.map SymbolicatedModule.toJson).mapM moduleIdentity = .ok (modules.map identity) := by
  induction modules with
  | nil => rfl
  | cons m rest ih =>
    rw [List.map_cons, List.mapM_cons, moduleIdentity_toJson, ok_bind, ih]
    rfl

theorem modules_toJson (r : SymbolicationResult) : Json.get "modules" r.toJson =
    some (.array (r.modules.map SymbolicatedModule.toJson)) :=
  get_fields r.fields "modules"

theorem processingModules_of_pointer {result : Json} {r : SymbolicationResult}
    (h : pointer ["current", "symbolication"] result = some r.toJson) :
    processingModules result = .ok (r.modules.map identity) := by
  have hmodules : pointer ["current", "symbolication", "modules"] result =
      some (.array (r.modules.map SymbolicatedModule.toJson)) := by
    change (pointer ["current", "symbolication"] result).bind (Json.get "modules") = _
    rw [h, Option.bind_some, modules_toJson]
  unfold processingModules
  rw [hmodules]
  exact mapM_moduleIdentity r.modules

theorem pointer_resultFieldValues (guid : String) (context : CrashContext.CrashContextData)
    (request : Option CrashRequest.CrashRequestManifest)
    (classification : Option CrashContext.CrashClassification)
    (log : Option CrashRequest.CrashRequestLog) (version : Nat) (r : SymbolicationResult)
    (history : List Json) :
    pointer ["current", "symbolication"] (Json.ofFields (resultFieldValues guid context request
      classification log (attempt version r) history)) = some r.toJson := by
  have hattempt : Json.get "symbolication" (attempt version r) = some r.toJson := by
    rw [attempt, get_fields]
    rfl
  change (Json.get "current" (Json.ofFields (resultFieldValues guid context request
      classification log (attempt version r) history))).bind (Json.get "symbolication") = _
  rw [get_fields, get_last (.inl rfl), ← hattempt]
  rfl

variable (c : Crash) (r : SymbolicationResult)

theorem pointer_output : pointer ["current", "symbolication"] (c.output r) = some r.toJson :=
  pointer_resultFieldValues _ _ _ _ _ _ _ _

theorem processingModules_output :
    processingModules (c.output r) = .ok (r.modules.map identity) :=
  processingModules_of_pointer (pointer_output c r)

theorem get_architecture : SortedMap.get "architecture" (SortedMap.ofFields r.fields) =
    some (.string "x86_64") := by
  rw [get_ofFields]
  change some (Json.string r.architecture) = _
  rw [r.architecture_eq]

theorem arrayAt_modules : arrayAt "modules" (SortedMap.ofFields r.fields) =
    some (r.modules.map SymbolicatedModule.toJson) := by
  rw [arrayAt, get_ofFields]
  rfl

theorem boundedText_string {limit : Nat} {s t : String} :
    boundedText limit (some (.string s)) = some t ↔
      t = s ∧ s ≠ "" ∧ s.utf8ByteSize ≤ limit := by
  change Option.filter _ (some s) = some t ↔ _
  rw [Option.filter_eq_some_iff, Option.some.injEq, Bool.and_eq_true, decide_eq_true_iff,
    decide_eq_true_iff]
  constructor
  · rintro ⟨rfl, h⟩
    exact ⟨rfl, h⟩
  · rintro ⟨rfl, h⟩
    exact ⟨rfl, h⟩

theorem symbolWaiters_output : symbolWaiters (c.output r) c.release =
    collectWaiters "x86_64" (r.modules.map SymbolicatedModule.toJson) ∅ := by
  have hsymbolication : (pointer ["current", "symbolication"] (c.output r)).bind asObject =
      some (SortedMap.ofFields r.fields) := by
    rw [pointer_output]
    rfl
  have harchitecture : boundedText 32 (some (.string "x86_64")) = some "x86_64" :=
    boundedText_string.mpr ⟨rfl, by decide, by decide⟩
  have hmatched : ¬ c.release.matchedId.isNone := Bool.false_ne_true
  unfold symbolWaiters
  rw [if_neg hmatched, hsymbolication, okOr_some, ok_bind, get_architecture, harchitecture,
    okOr_some, ok_bind, arrayAt_modules, okOr_some, ok_bind]

/-! ## Without artifacts -/

/-- Its status is `missing_pe` when it has a code identifier, and `missing_identity` otherwise. -/
def Unfound (m : SymbolicatedModule) : Prop :=
  m.status = if m.codeId.isNone then .missingIdentity else .missingPe

theorem unfound_diagnostic (d : DumpModule) : Unfound (d.diagnostic []) := by
  unfold Unfound DumpModule.diagnostic DumpModule.selection
  rw [chooseArtifacts_nil]

/-- The waiter of a module without a PE file. -/
def peWaiter (m : SymbolicatedModule) : List SymbolWaiter :=
  match boundedText 256 (some (.string m.module)),
    boundedText 128 (some (ofOptionalString m.debugId)),
    boundedText 128 (some (ofOptionalString m.codeId)) with
  | some name, some debugId, some codeId =>
    [⟨.pe, asciiLowercase name, asciiLowercase "x86_64", asciiUppercase debugId,
      asciiUppercase codeId⟩]
  | _, _, _ => []

theorem moduleWaiters_unfound {m : SymbolicatedModule} (h : Unfound m) :
    moduleWaiters "x86_64" m.toJson = .ok (peWaiter m) := by
  have hname : Json.get "module" m.toJson = some (.string m.module) := get_fields m.fields "module"
  have hdebug : Json.get "debug_id" m.toJson = some (ofOptionalString m.debugId) :=
    get_fields m.fields "debug_id"
  have hcode : Json.get "code_id" m.toJson = some (ofOptionalString m.codeId) :=
    get_fields m.fields "code_id"
  have hstatus : Json.get "status" m.toJson = some (.string m.status.text) :=
    get_fields m.fields "status"
  unfold moduleWaiters peWaiter
  rw [hname, hdebug, hcode, hstatus]
  cases boundedText 256 (some (.string m.module)) with
  | none => rfl
  | some name =>
    cases boundedText 128 (some (ofOptionalString m.debugId)) with
    | none => rfl
    | some debugId =>
      cases hc : m.codeId with
      | none =>
        have hstatus : m.status = .missingIdentity := by
          rw [h, hc]
          rfl
        rw [hstatus]
        rfl
      | some codeId =>
        have hstatus : m.status = .missingPe := by
          rw [h, hc]
          rfl
        rw [hstatus]
        cases boundedText 128 (some (ofOptionalString (some codeId))) <;> rfl

theorem length_peWaiter (m : SymbolicatedModule) : (peWaiter m).length ≤ 1 := by
  unfold peWaiter
  split
  · exact le_rfl
  · exact Nat.zero_le 1

/-- The loop never exceeds its limit, with one waiter for each module. -/
theorem collectWaiters_unfound {modules : List SymbolicatedModule}
    (h : ∀ m ∈ modules, Unfound m) {w : Finset SymbolWaiter}
    (hlimit : w.card + modules.length ≤ maxSymbolWaiters) :
    collectWaiters "x86_64" (modules.map SymbolicatedModule.toJson) w =
      .ok (w ∪ (modules.flatMap peWaiter).toFinset) := by
  induction modules generalizing w with
  | nil => rw [List.flatMap_nil, List.toFinset_nil, Finset.union_empty]; rfl
  | cons m rest ih =>
    have hcard : (w ∪ (peWaiter m).toFinset).card ≤ w.card + 1 := by
      have hunion := Finset.card_union_le w (peWaiter m).toFinset
      have htoFinset := List.toFinset_card_le (peWaiter m)
      have hone := length_peWaiter m
      omega
    rw [List.length_cons] at hlimit
    have hfits : ¬ maxSymbolWaiters < (w ∪ (peWaiter m).toFinset).card := by omega
    have hrest := ih (fun x hx => h x (List.mem_cons_of_mem _ hx))
      (w := w ∪ (peWaiter m).toFinset) (by omega)
    rw [List.map_cons, collectWaiters, moduleWaiters_unfound (h m List.mem_cons_self), ok_bind]
    dsimp only
    rw [refuse_of_not hfits, ok_bind, hrest, List.flatMap_cons, List.toFinset_append,
      Finset.union_assoc]

end FaultLane.SymbolArrival

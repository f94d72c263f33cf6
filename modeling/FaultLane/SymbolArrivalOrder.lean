import FaultLane.SymbolWaiting

set_option autoImplicit false

/-!
# The order in which symbols arrive

When the state in which a crash ends does not depend on when its artifacts become available, and
every artifact that it could use wakes it.
-/
namespace FaultLane.SymbolArrival
open Fallible Json RustText Symbolication SymCacheResolution DumpSymbolication JobQueue
open TransitionSystem
open CrashSymbols (ModuleIdentity SelectedArtifact SymbolWaiter ReleaseMapping boundedText
  asciiLowercase asciiUppercase symbolWaiters processingModules collectWaiters maxSymbolWaiters)

/-! ## The order of arrival, and its condition -/

section condition
variable {DebugId : Type} [DecidableEq DebugId] (env : Surroundings DebugId) (c : Crash)
  (artifacts : List ManifestArtifact)

/-- `materialize_symbols` would select the artifact for a module of the crash. -/
def Crash.Uses (a : SelectedArtifact) : Prop :=
  ∃ d ∈ c.dump.modules, a.matchesModule ⟨leafName d.name, d.debugId, d.codeId⟩ c.lookup.architecture

/-- The state in which the event ends is the same in all runs, and the request of any artifact
that arrives while the event waits for symbols selects the event. -/
structure OrderFree : Prop where
  sameState : ∀ s s', Reachable (step env c artifacts) (fun _ => True) .init s →
    Reachable (step env c artifacts) (fun _ => True) .init s' →
    Settled artifacts s → Settled artifacts s' → s.processingState = s'.processingState
  wakes : ∀ s, Reachable (step env c artifacts) (fun _ => True) .init s →
    s.processingState = .awaitingSymbols → ∀ a ∈ artifacts, a ∉ s.available →
      c.Uses a.artifact → s.Candidate env ⟨a, s.now⟩

/-- A PE file of the dump's architecture with the identities of a module, whose name the database
lowers to the lowered name of that module. -/
def Crash.WaitsFor (a : SelectedArtifact) : Prop :=
  a.artifactType ≠ "pdb" ∧ a.architecture = "x86_64" ∧
    ∃ d ∈ c.dump.modules, (leafName d.name).utf8ByteSize ≤ 256 ∧
      asciiLowercase (leafName d.name) = env.lower a.moduleName ∧
      d.debugId = some a.debugId ∧ d.codeId = a.codeId

end condition

/-! ## The waiters of a crash without artifacts -/

theorem leafName_ne_empty (path : String) : leafName path ≠ "" := by
  unfold leafName
  cases h : (rsplit (fun c => c == '/' || c == '\\') path.toList).find? (!·.isEmpty) with
  | none => decide
  | some part =>
    have hpart := List.find?_some h
    intro hempty
    have hnil : part = [] := String.ofList_eq_empty_iff.mp hempty
    rw [hnil] at hpart
    cases hpart

theorem toUpper_toNat (x : Char) :
    x.toUpper.toNat = if 97 ≤ x.toNat ∧ x.toNat ≤ 122 then x.toNat - 32 else x.toNat := by
  have hcase : ('a'.val ≤ x.val ∧ x.val ≤ 'z'.val) ↔ 97 ≤ x.toNat ∧ x.toNat ≤ 122 := Iff.rfl
  unfold Char.toUpper
  by_cases h : 'a'.val ≤ x.val ∧ x.val ≤ 'z'.val
  · rw [dif_pos h, if_pos (hcase.mp h)]
    obtain ⟨hlow, hhigh⟩ := hcase.mp h
    change (x.val + ('A'.val - 'a'.val)).toNat = _
    rw [UInt32.toNat_add]
    change (x.toNat + 4294967264) % 2 ^ 32 = _
    omega
  · rw [dif_neg h, if_neg (mt hcase.mpr h)]

theorem toUpper_toUpper (x : Char) : x.toUpper.toUpper = x.toUpper := by
  apply Char.toNat_inj.mp
  rw [toUpper_toNat x.toUpper, if_neg]
  rw [toUpper_toNat]
  split_ifs <;> omega

theorem asciiUppercase_idem (s : String) :
    asciiUppercase (asciiUppercase s) = asciiUppercase s := by
  unfold asciiUppercase
  rw [String.toList_ofList, List.map_map]
  exact congrArg String.ofList (List.map_congr_left fun x _ => toUpper_toUpper x)

theorem asciiUppercase_of_map {o : Option String} {s : String}
    (h : o.map asciiUppercase = some s) : asciiUppercase s = s := by
  obtain ⟨t, -, rfl⟩ := Option.map_eq_some_iff.mp h
  exact asciiUppercase_idem t

theorem bounded_iff {limit : Nat} {o : Option String} {s : String} :
    boundedText limit (some (ofOptionalString o)) = some s ↔
      o = some s ∧ s ≠ "" ∧ s.utf8ByteSize ≤ limit := by
  cases o with
  | none => exact ⟨nofun, fun h => nomatch h.1⟩
  | some t =>
    refine boundedText_string.trans ?_
    constructor
    · rintro ⟨rfl, h⟩
      exact ⟨rfl, h⟩
    · rintro ⟨h, hbounds⟩
      obtain rfl := Option.some.inj h
      exact ⟨rfl, hbounds⟩

theorem mem_peWaiter {d : DumpModule} {w : SymbolWaiter} :
    w ∈ peWaiter (d.diagnostic []) ↔
      (leafName d.name).utf8ByteSize ≤ 256 ∧
      ∃ debugId codeId, d.debugId = some debugId ∧ debugId ≠ "" ∧ debugId.utf8ByteSize ≤ 128 ∧
        d.codeId = some codeId ∧ codeId ≠ "" ∧ codeId.utf8ByteSize ≤ 128 ∧
        w = ⟨.pe, asciiLowercase (leafName d.name), asciiLowercase "x86_64", debugId, codeId⟩ := by
  unfold peWaiter
  constructor
  · intro hw
    split at hw
    next name debugId codeId hn hd hc =>
      obtain ⟨rfl, -, hsize⟩ := boundedText_string.mp hn
      obtain ⟨hdebug, hd⟩ := bounded_iff.mp hd
      obtain ⟨hcode, hc⟩ := bounded_iff.mp hc
      rw [List.mem_singleton, asciiUppercase_of_map hdebug, asciiUppercase_of_map hcode] at hw
      exact ⟨hsize, debugId, codeId, hdebug, hd.1, hd.2, hcode, hc.1, hc.2, hw⟩
    next => exact absurd hw List.not_mem_nil
  · rintro ⟨hsize, debugId, codeId, hdebug, hd, hd', hcode, hc, hc', rfl⟩
    have hname : boundedText 256 (some (.string (d.diagnostic []).module)) =
        some (leafName d.name) :=
      boundedText_string.mpr ⟨rfl, leafName_ne_empty d.name, hsize⟩
    have hdebugText : boundedText 128 (some (ofOptionalString (d.diagnostic []).debugId)) =
        some debugId :=
      bounded_iff.mpr ⟨hdebug, hd, hd'⟩
    have hcodeText : boundedText 128 (some (ofOptionalString (d.diagnostic []).codeId)) =
        some codeId :=
      bounded_iff.mpr ⟨hcode, hc, hc'⟩
    rw [hname, hdebugText, hcodeText]
    dsimp only
    rw [asciiUppercase_of_map hdebug, asciiUppercase_of_map hcode]
    exact List.mem_singleton_self _

section waiters
variable {DebugId : Type} (env : Surroundings DebugId) (c : Crash)

/-- The waiters of a result that was made without artifacts. -/
def Crash.waiters : Finset SymbolWaiter :=
  ((diagnostics c.dump.modules []).flatMap peWaiter).toFinset

theorem mem_waiters {w : SymbolWaiter} :
    w ∈ c.waiters ↔ ∃ d ∈ c.dump.modules, w ∈ peWaiter (d.diagnostic []) := by
  rw [Crash.waiters, List.mem_toFinset, List.mem_flatMap]
  constructor
  · rintro ⟨m, hm, hw⟩
    obtain ⟨d, hd, rfl⟩ := mem_diagnostics.mp hm
    exact ⟨d, hd, hw⟩
  · rintro ⟨d, hd, hw⟩
    exact ⟨_, mem_diagnostics.mpr ⟨d, hd, rfl⟩, hw⟩

theorem bounds_of_identity {s : String} (h : validIdentity s) :
    s ≠ "" ∧ s.utf8ByteSize ≤ 128 := by
  unfold validIdentity validText at h
  simp only [Bool.and_eq_true, bne_iff_ne, decide_eq_true_eq] at h
  exact ⟨h.1.1.1.1, h.1.1.1.2⟩

theorem waiters_await_iff {a : SelectedArtifact} (ha : ValidArtifact a) :
    (∃ w ∈ c.waiters, awaits env.lower w a) ↔ c.WaitsFor env a := by
  have harchitecture : asciiLowercase "x86_64" = "x86_64" := by decide
  constructor
  · rintro ⟨w, hw, hawaits⟩
    obtain ⟨d, hd, hw⟩ := (mem_waiters c).mp hw
    obtain ⟨hsize, debugId, codeId, hdebug, -, -, hcode, -, -, rfl⟩ := mem_peWaiter.mp hw
    obtain ⟨-, hpdb, -⟩ | ⟨htype, -, hname, harch, hdebug', hcode'⟩ := hawaits
    · cases hpdb
    · refine ⟨?_, harch.symm.trans harchitecture, d, hd, hsize, hname, ?_, hcode.trans hcode'⟩
      · rintro hpdb
        rw [hpdb] at htype
        exact absurd htype (by decide)
      · exact hdebug.trans (congrArg some hdebug')
  · rintro ⟨hpe, harch, d, hd, hsize, hname, hdebug, hcode⟩
    obtain ⟨codeId, hc⟩ := Option.isSome_iff_exists.mp (ha.codeId_isSome.mpr hpe)
    have hdebugBounds := bounds_of_identity ha.debugId
    have hcodeBounds := bounds_of_identity (ha.codeId codeId hc)
    refine ⟨⟨.pe, asciiLowercase (leafName d.name), asciiLowercase "x86_64", a.debugId, codeId⟩,
      (mem_waiters c).mpr ⟨d, hd, mem_peWaiter.mpr ⟨hsize, a.debugId, codeId, hdebug,
        hdebugBounds.1, hdebugBounds.2, hcode.trans hc, hcodeBounds.1, hcodeBounds.2, rfl⟩⟩,
      .inr ⟨?_, rfl, hname, harchitecture.trans harch.symm, rfl, hc.symm⟩⟩
    have htype := ha.artifactType
    simp only [List.mem_cons, List.not_mem_nil, or_false] at htype ⊢
    rcases htype with htype | htype | htype
    · exact .inl htype
    · exact .inr htype
    · exact absurd htype hpe

end waiters

/-! ## Runs that no PDB matches -/

section runs
variable {DebugId : Type} [DecidableEq DebugId] (env : Surroundings DebugId) (c : Crash)

/-- The result of the run without artifacts. -/
def Crash.inspected : SymbolicationResult :=
  buildResult ((c.dump.walk (c.dump.modules.map (DumpModule.toLocal []))).get c.walked)
    (diagnostics c.dump.modules [])

theorem runProcessor_nil : runProcessor env c [] [] = .ok (c.output c.inspected) := by
  have hscan : scanSymbols [] = .ok [] := rfl
  have hwalk : okOr (c.dump.walk (c.dump.modules.map (DumpModule.toLocal [])))
      SymbolicationErrorKind.processingFailed =
        .ok ((c.dump.walk (c.dump.modules.map (DumpModule.toLocal []))).get c.walked) :=
    okOr_eq_ok.mpr (Option.some_get c.walked).symm
  have hbytes : symbolicateBytes c.dump (scanSymbols []) = .ok c.inspected := by
    rw [symbolicateBytes, hscan, ok_bind, hwalk, ok_bind]
    rfl
  unfold runProcessor
  rw [hbytes]
  rfl

theorem publication_inspected :
    publication c (c.output c.inspected) .awaitingSymbols = .ok ⟨.awaitingSymbols, c.waiters⟩ := by
  have hmodules : c.inspected.modules = diagnostics c.dump.modules [] := rfl
  have hunfound : ∀ m ∈ c.inspected.modules, Unfound m := by
    intro m hm
    rw [hmodules] at hm
    obtain ⟨d, -, rfl⟩ := mem_diagnostics.mp hm
    exact unfound_diagnostic d
  have hlimit : (∅ : Finset SymbolWaiter).card + c.inspected.modules.length ≤ maxSymbolWaiters := by
    rw [hmodules, length_diagnostics, Finset.card_empty, Nat.zero_add]
    exact c.dump.modules_length
  have hwaiters : symbolWaiters (c.output c.inspected) c.release = .ok c.waiters := by
    rw [symbolWaiters_output, collectWaiters_unfound hunfound hlimit, Finset.empty_union, hmodules]
    rfl
  unfold publication
  rw [Crash.output, c.named, ok_bind, refuse_of_not (not_not.mpr rfl), ok_bind, if_pos rfl]
  change (symbolWaiters (c.output c.inspected) c.release >>= _) = _
  rw [hwaiters]
  rfl

theorem mem_selectArtifacts {modules : List ModuleIdentity} {architecture : String}
    {rows selected : List SelectedArtifact} {a : SelectedArtifact}
    (h : a ∈ selectArtifacts modules architecture rows selected) :
    a ∈ selected ∨ (a ∈ rows ∧ modules.any (a.matchesModule · architecture)) := by
  induction rows generalizing selected with
  | nil => exact .inl h
  | cons b rest ih =>
    rcases ih h with h | ⟨hrest, hmatch⟩
    · split_ifs at h with hb
      · rcases List.mem_append.mp h with h | h
        · exact .inl h
        · obtain rfl := List.mem_singleton.mp h
          exact .inr ⟨List.mem_cons_self, (Bool.and_eq_true_iff.mp hb).1⟩
      · exact .inl h
    · exact .inr ⟨List.mem_cons_of_mem _ hrest, hmatch⟩

theorem uses_of_any {a : SelectedArtifact}
    (h : (c.inspected.modules.map identity).any (a.matchesModule · c.lookup.architecture)) :
    c.Uses a := by
  obtain ⟨x, hx, hmatch⟩ := List.any_eq_true.mp h
  obtain ⟨m, hm, rfl⟩ := List.mem_map.mp hx
  obtain ⟨d, hd, rfl⟩ := mem_diagnostics.mp hm
  exact ⟨d, hd, hmatch⟩

theorem materializeSymbols_missing {available : List SelectedArtifact}
    (h : ∀ a ∈ available, c.Uses a → a.artifactType ≠ "pdb")
    (caches : String → Option CacheState) :
    materializeSymbols c available caches (c.output c.inspected) = .ok .missing := by
  unfold materializeSymbols
  rw [processingModules_output, ok_bind]
  dsimp only
  split_ifs with hempty
  · rfl
  have hpdbs : (selectArtifacts (c.inspected.modules.map identity) c.lookup.architecture available
      []).filter isPdb = [] := by
    refine List.filter_eq_nil_iff.mpr fun a ha hpdb => ?_
    rcases mem_selectArtifacts ha with ha | ⟨ha, hmatch⟩
    · exact List.not_mem_nil ha
    · exact h a ha (uses_of_any c hmatch) (beq_iff_eq.mp hpdb)
  rw [hpdbs]
  rfl

theorem processCrash_missing {available : List SelectedArtifact}
    (h : ∀ a ∈ available, c.Uses a → a.artifactType ≠ "pdb")
    (caches : String → Option CacheState) :
    processCrash env c available caches = .published ⟨.awaitingSymbols, c.waiters⟩ := by
  unfold processCrash
  rw [runProcessor_nil]
  dsimp only
  rw [materializeSymbols_missing c h]
  dsimp only
  rw [publication_inspected]
  rfl

variable (artifacts : List ManifestArtifact)

/-- The event waits for the symbols that a run without artifacts misses, or such a run is due. -/
structure Waiting (s : State) : Prop where
  available : ∀ a ∈ s.available, a ∈ artifacts
  running : ∀ o ∈ s.running, o = .published ⟨.awaitingSymbols, c.waiters⟩
  state : (s.processingState = .pending ∧ s.current = none ∧ (s.queued ∨ s.running.isSome)) ∨
    (s.processingState = .awaitingSymbols ∧
      ∃ p, s.current = some p ∧ p.waiters = c.waiters ∧ p.createdAt ≤ s.now)

variable {c artifacts} {s s' : State}

theorem waiting_init : Waiting c artifacts .init :=
  ⟨nofun, nofun, .inl ⟨rfl, rfl, .inl rfl⟩⟩

theorem Waiting.makeAvailable (h : Waiting c artifacts s) {a : ManifestArtifact}
    (hs : makeAvailable artifacts s a = some s') : Waiting c artifacts s' := by
  unfold SymbolArrival.makeAvailable at hs
  split_ifs at hs with ha
  obtain rfl := Option.some.inj hs
  refine ⟨fun b hb => ?_, h.running, ?_⟩
  · rcases List.mem_cons.mp hb with rfl | hb
    · exact ha.1
    · exact h.available b hb
  · rcases h.state with hpending | ⟨hstate, p, hp, hwaiters, hcreated⟩
    · exact .inl hpending
    · exact .inr ⟨hstate, p, hp, hwaiters, Nat.le_succ_of_le hcreated⟩

theorem Waiting.beginProcessing (h : Waiting c artifacts s)
    (hpe : ∀ a ∈ artifacts, c.Uses a.artifact → a.artifact.artifactType ≠ "pdb")
    {rows : List ManifestArtifact} (hs : beginProcessing env c s rows = some s') :
    Waiting c artifacts s' := by
  unfold SymbolArrival.beginProcessing at hs
  split_ifs at hs with hqueued
  have hrows : ∀ a ∈ rows.map ManifestArtifact.artifact, c.Uses a → a.artifactType ≠ "pdb" := by
    intro a ha
    obtain ⟨b, hb, rfl⟩ := List.mem_map.mp ha
    exact hpe b (h.available b (hqueued.2.mem_iff.mp hb))
  rw [processCrash_missing env c hrows] at hs
  obtain rfl := Option.some.inj hs
  refine ⟨h.available, fun o ho => (Option.some.inj ho).symm, ?_⟩
  rcases h.state with ⟨hpending, hcurrent, -⟩ | hstate
  · exact .inl ⟨hpending, hcurrent, .inr rfl⟩
  · exact .inr hstate

omit [DecidableEq DebugId] in
theorem enqueueCatchup_frame (s : State) (p : Published) :
    (s.enqueueCatchup env p).available = s.available ∧
      (s.enqueueCatchup env p).running = s.running ∧
      (s.enqueueCatchup env p).processingState = s.processingState ∧
      (s.enqueueCatchup env p).current = s.current ∧
      (s.enqueueCatchup env p).now = s.now := by
  unfold State.enqueueCatchup
  split
  · exact ⟨rfl, rfl, rfl, rfl, rfl⟩
  · split_ifs <;> exact ⟨rfl, rfl, rfl, rfl, rfl⟩

omit [DecidableEq DebugId] in
theorem Waiting.endProcessing (h : Waiting c artifacts s) {resultId : Uuid}
    (hs : endProcessing env s resultId = some s') : Waiting c artifacts s' := by
  unfold SymbolArrival.endProcessing at hs
  obtain ⟨outcome, hrunning, hs⟩ := Option.bind_eq_some_iff.mp hs
  rw [h.running outcome hrunning] at hs
  obtain rfl := Option.some.inj hs
  obtain ⟨havailable, hrun, hstate, hcurrent, hnow⟩ := enqueueCatchup_frame env
    { s with
      now := s.now + 1, running := none, queued := s.again, again := false
      processingState := .awaitingSymbols, current := some ⟨resultId, c.waiters, s.now + 1⟩ }
    ⟨resultId, c.waiters, s.now + 1⟩
  refine ⟨fun a ha => h.available a (havailable ▸ ha), fun o ho => ?_, .inr ⟨hstate, _, hcurrent,
    rfl, Nat.le_of_eq hnow.symm⟩⟩
  rw [hrun] at ho
  cases ho

omit [DecidableEq DebugId] in
theorem Waiting.schedule (h : Waiting c artifacts s) {r : Request}
    (hs : schedule env s r = some s') : Waiting c artifacts s' := by
  unfold SymbolArrival.schedule at hs
  dsimp only at hs
  split_ifs at hs
  · obtain rfl := Option.some.inj hs
    exact ⟨h.available, h.running, h.state⟩
  · obtain rfl := Option.some.inj hs
    refine ⟨h.available, h.running, ?_⟩
    rcases h.state with ⟨hpending, hcurrent, -⟩ | hstate
    · exact .inl ⟨hpending, hcurrent, .inl rfl⟩
    · exact .inr hstate
  · obtain rfl := Option.some.inj hs
    exact ⟨h.available, h.running, h.state⟩

theorem Waiting.step (h : Waiting c artifacts s)
    (hpe : ∀ a ∈ artifacts, c.Uses a.artifact → a.artifact.artifactType ≠ "pdb") {a : Action}
    (hs : step env c artifacts s a = some s') : Waiting c artifacts s' := by
  cases a with
  | makeAvailable a => exact h.makeAvailable hs
  | generateSymcache a =>
    change generateSymcache env s a = some s' at hs
    unfold generateSymcache at hs
    split_ifs at hs
    obtain rfl := Option.some.inj hs
    exact ⟨h.available, h.running, h.state⟩
  | beginProcessing rows => exact h.beginProcessing env hpe hs
  | endProcessing resultId => exact h.endProcessing env hs
  | schedule r => exact h.schedule env hs

theorem waiting_of_reachable
    (hpe : ∀ a ∈ artifacts, c.Uses a.artifact → a.artifact.artifactType ≠ "pdb")
    (h : Reachable (step env c artifacts) (fun _ => True) .init s) : Waiting c artifacts s :=
  h.invariant (Waiting c artifacts) waiting_init fun _ _ _ _ ht hs _ => ht.step env hpe hs

theorem Waiting.settled (h : Waiting c artifacts s) (hs : Settled artifacts s) :
    s.processingState = .awaitingSymbols := by
  rcases h.state with ⟨-, -, hbusy⟩ | ⟨hstate, -⟩
  · obtain ⟨-, -, hqueued, hrunning, -⟩ := hs
    rcases hbusy with hbusy | hbusy
    · exact absurd (hbusy.symm.trans hqueued) (by decide)
    · exact absurd hbusy (by rw [Option.isNone_iff_eq_none.mp hrunning]; decide)
  · exact hstate

variable (c artifacts)

/-- The event is processed once before any artifact is available. -/
theorem reachable_inspected :
    ∃ s, Reachable (step env c artifacts) (fun _ => True) .init s ∧
      s.processingState = .awaitingSymbols ∧ s.available = [] ∧
      s.current = some ⟨0, c.waiters, 1⟩ := by
  have hbegin : step env c artifacts .init (.beginProcessing []) = some
      { State.init with
        queued := false, running := some (.published ⟨.awaitingSymbols, c.waiters⟩) } := by
    have hprocess : processCrash env c (List.map ManifestArtifact.artifact []) State.init.caches =
        .published ⟨.awaitingSymbols, c.waiters⟩ :=
      processCrash_missing env c (List.forall_mem_nil _) State.init.caches
    change beginProcessing env c .init [] = _
    unfold beginProcessing
    rw [if_pos ⟨rfl, List.Perm.refl _⟩]
    dsimp only
    rw [hprocess]
  have hend : step env c artifacts
      { State.init with
        queued := false, running := some (.published ⟨.awaitingSymbols, c.waiters⟩) }
      (.endProcessing 0) = some
      { State.init with
        now := 1, queued := false, processingState := .awaitingSymbols
        current := some ⟨0, c.waiters, 1⟩ } := rfl
  exact ⟨_, ((Reachable.init trivial).next hbegin trivial).next hend trivial, rfl, rfl, rfl⟩

end runs

/-- The order of arrival does not matter just when every artifact that a module of the crash
could use is a PE file that the crash waits for without artifacts. -/
theorem orderFree_iff {DebugId : Type} [DecidableEq DebugId] (env : Surroundings DebugId)
    (c : Crash) (artifacts : List ManifestArtifact) :
    OrderFree env c artifacts ↔
      ∀ a ∈ artifacts, c.Uses a.artifact → c.WaitsFor env a.artifact := by
  constructor
  · intro h a ha huses
    obtain ⟨s, hreach, hstate, havailable, hcurrent⟩ := reachable_inspected env c artifacts
    have hnew : a ∉ s.available := by
      rw [havailable]
      exact List.not_mem_nil
    obtain ⟨-, p, hp, -, hawaits⟩ := h.wakes s hreach hstate a ha hnew huses
    obtain rfl := Option.some.inj (hcurrent.symm.trans hp)
    exact (waiters_await_iff env c a.valid).mp hawaits
  · intro h
    have hpe : ∀ a ∈ artifacts, c.Uses a.artifact → a.artifact.artifactType ≠ "pdb" :=
      fun a ha huses => (h a ha huses).1
    refine ⟨fun s s' hs hs' hsettled hsettled' => ?_, fun s hs hstate a ha _ huses => ?_⟩
    · have hfirst := (waiting_of_reachable env hpe hs).settled hsettled
      have hsecond := (waiting_of_reachable env hpe hs').settled hsettled'
      rw [hfirst, hsecond]
    · have hwaiting := waiting_of_reachable env hpe hs
      rcases hwaiting.state with ⟨hpending, -⟩ | ⟨-, p, hp, hwaiters, hcreated⟩
      · exact absurd (hpending.symm.trans hstate) (by decide)
      · refine ⟨hstate, p, hp, hcreated, ?_⟩
        rw [hwaiters]
        exact (waiters_await_iff env c a.valid).mpr (h a ha huses)

/-! ## A PDB before and after the first processing -/

def sampleModule : DumpModule := ⟨"Game.exe", 4096, 8192, some "c0de", some "a1"⟩

def samplePdb : ManifestArtifact where
  id := 1
  artifact := ⟨"1", "objects/1", [], 16, "pdb", "Game.exe", "x86_64", "A1", none⟩
  valid := by constructor <;> decide

def sampleLookup : CrashSymbols.ReleaseLookup := ⟨"1.0", "windows", "x86_64", "Shipping"⟩

def sampleContext : CrashContext.CrashContextData where
  parserVersion := CrashContext.crashContextParserVersion
  crashGuid := none
  crashType := .crash
  errorMessage := none
  buildVersion := some "1.0"
  engineVersion := none
  platform := some ⟨"Windows", "windows"⟩
  architecture := some "x86_64"
  buildConfiguration := some "Shipping"
  commandLine := none
  modules := []
  threads := []
  systemMetadata := []
  userComment := none
  gameData := []
  unknownFields := []

def sampleFrame : StackFrame := ⟨4112, some sampleModule, "context", none, none, none, []⟩

def sampleCrash : Crash where
  dump := ⟨[sampleModule], fun _ => some ⟨none, none, none, [⟨7, none, .ok, [sampleFrame]⟩]⟩,
    by decide⟩
  guid := "guid"
  context := sampleContext
  request := none
  classification := none
  log := none
  lookup := sampleLookup
  releaseId := "release"
  walked := rfl
  named := by
    intro current
    have hcontext : Json.get "crash_context" (Json.ofFields (ProcessingResult.resultFieldValues
        "guid" sampleContext none none none current [])) = some sampleContext.toJson := by
      rw [get_fields]
      rfl
    have hfield : ∀ key, SortedMap.get key (SortedMap.ofFields sampleContext.fields) =
        SortedMap.get key sampleContext.fields := fun key => SortedMap.get_ofFields key _
    unfold CrashSymbols.releaseLookup
    rw [hcontext]
    dsimp only [CrashContext.CrashContextData.toJson, Json.ofFields, Option.bind_some, Json.asObject]
    rw [okOr_some, ok_bind, hfield, hfield, hfield, hfield]
    decide

/-- One cache, which has a name for the address of the frame. -/
def sampleSurroundings : Surroundings String where
  ext :=
    { debugIdFromStr := some
      symlinkMetadata := fun _ => some ⟨true, 0⟩
      readToEnd := fun _ _ => some []
      parseSymCache := fun _ =>
        some ⟨"A1", 8, true, fun _ => [⟨"Arena::Tick()", none, 42⟩]⟩ }
  generateSymcache := fun a => some a.objectId
  lower := asciiLowercase

def runPdbFirst : List Action :=
  [.makeAvailable samplePdb, .beginProcessing [samplePdb], .endProcessing 0,
    .generateSymcache samplePdb, .beginProcessing [samplePdb], .endProcessing 0,
    .schedule ⟨samplePdb, 0⟩]

def runPdbLast : List Action :=
  [.beginProcessing [], .endProcessing 0, .makeAvailable samplePdb, .schedule ⟨samplePdb, 1⟩]

def sampleStep : State → Action → Option State := step sampleSurroundings sampleCrash [samplePdb]

instance (artifacts : List ManifestArtifact) (s : State) : Decidable (Settled artifacts s) :=
  inferInstanceAs (Decidable (_ ∧ _))

def endsIn (actions : List Action) (p : ProcessingState) : Prop :=
  ∃ s ∈ run sampleStep (fun _ => True) .init actions, Settled [samplePdb] s ∧ s.processingState = p

instance (actions : List Action) (p : ProcessingState) : Decidable (endsIn actions p) :=
  match h : run sampleStep (fun _ => True) .init actions with
  | none => .isFalse fun hs => by
    obtain ⟨s, hs, -⟩ := hs
    cases h.symm.trans hs
  | some s => decidable_of_iff (Settled [samplePdb] s ∧ s.processingState = p)
    ⟨fun hs => ⟨s, h, hs⟩, fun hs => by
      obtain ⟨s', hs', hp⟩ := hs
      obtain rfl := Option.some.inj (h.symm.trans hs')
      exact hp⟩

theorem reachable_of_endsIn {actions : List Action} {p : ProcessingState} (h : endsIn actions p) :
    ∃ s, Reachable sampleStep (fun _ => True) .init s ∧ Settled [samplePdb] s ∧
      s.processingState = p := by
  obtain ⟨s, hs, hsettled, hp⟩ := h
  exact ⟨s, (Reachable.init trivial).of_run hs, hsettled, hp⟩

/-- The event is processed when its PDB comes before it, and awaits symbols for ever when its PDB
comes later. -/
theorem order_matters : ¬ OrderFree sampleSurroundings sampleCrash [samplePdb] := by
  intro h
  have hprocessed : endsIn runPdbFirst .processed := by decide +kernel
  have hawaiting : endsIn runPdbLast .awaitingSymbols := by decide +kernel
  obtain ⟨s, hs, hsettled, hstate⟩ := reachable_of_endsIn hprocessed
  obtain ⟨s', hs', hsettled', hstate'⟩ := reachable_of_endsIn hawaiting
  have hsame := h.sameState s s' hs hs' hsettled hsettled'
  rw [hstate, hstate'] at hsame
  cases hsame

end FaultLane.SymbolArrival

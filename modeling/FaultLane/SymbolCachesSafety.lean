import FaultLane.SymbolCachesRuns

set_option autoImplicit false

/-!
# No crash waits for a cache that nobody builds

The invariant of the runs, and what it says about caches that were asked for, caches that
are available and caches that are done.
-/
namespace FaultLane.SymbolCaches
open KeyedTable JobQueue TransitionSystem
open WorkerQueue (DerivedCache)
open CrashSymbols (JobError Worked)

/-- The rows, with what the runs have learnt about them. -/
structure Consistent (env : Surroundings) (s : State) : Prop extends Sound env s where
  answered : ∀ run ∈ s.ensures, ∀ cacheId, run.phase = .answered cacheId .pending →
    (s.jobs.find cacheId).isSome
  sources : ∀ run ∈ s.generates, ∀ source ∈ run.phase.source,
    ∃ c, s.caches.find run.cacheId = some c ∧ c.objectKey = source.cacheKey

/-- What a statement keeps of the rows that it finds. -/
structure Grows (s s' : State) : Prop where
  caches : ∀ k c, s.caches.find k = some c → ∃ c', s'.caches.find k = some c' ∧
    c'.objectKey = c.objectKey ∧ (c.done = true → c' = c)
  jobs : ∀ k, (s.jobs.find k).isSome → (s'.jobs.find k).isSome

section
variable {env : Surroundings} {s s' : State} {k : Uuid}

theorem Change.grows (h : Change env s s' k) : Grows s s' where
  caches := by
    intro k' c hc
    by_cases hk : k' = k
    · have hmove := h.move
      rw [← hk, hc] at hmove
      obtain ⟨d, hd, hkey, -, hdone⟩ := hmove.keeps
      exact ⟨d, hd, hkey, hdone⟩
    · exact ⟨c, (h.caches k' hk).trans hc, rfl, fun _ => rfl⟩
  jobs := by
    intro k' hr
    by_cases hk : k' = k
    · rw [hk] at hr ⊢
      exact h.move.keeps_job hr
    · rwa [h.jobs k' hk]

/-- The callers after a step were told no more than before it, or what is there. -/
def KeepsAnswers (s s' : State) : Prop :=
  ∀ run ∈ s'.ensures, ∀ cacheId, run.phase = .answered cacheId .pending →
    run ∈ s.ensures ∨ (s'.jobs.find cacheId).isSome

/-- The workers after a step know no more sources than before it, or what is there. -/
def KeepsSources (s s' : State) : Prop :=
  ∀ run ∈ s'.generates, ∀ source ∈ run.phase.source, ∃ old ∈ s.generates,
    old.cacheId = run.cacheId ∧ (source ∈ old.phase.source ∨
      ∃ c, s.caches.find run.cacheId = some c ∧ c.objectKey = source.cacheKey)

def Preserves (env : Surroundings) (s s' : State) : Prop := Consistent env s' ∧ Grows s s'

theorem preserves_of_change (hs : Consistent env s) (h : Change env s s' k)
    (hanswers : KeepsAnswers s s') (hsources : KeepsSources s s') : Preserves env s s' := by
  refine ⟨⟨h.sound hs.toSound, ?_, ?_⟩, h.grows⟩
  · intro run hrun cacheId hphase
    obtain hold | hnew := hanswers run hrun cacheId hphase
    · exact h.grows.jobs cacheId (hs.answered run hold cacheId hphase)
    · exact hnew
  · intro run hrun source hsource
    have hbefore : ∃ c, s.caches.find run.cacheId = some c ∧ c.objectKey = source.cacheKey := by
      obtain ⟨old, hold, hid, hsource' | hfound⟩ := hsources run hrun source hsource
      · rw [← hid]
        exact hs.sources old hold source hsource'
      · exact hfound
    obtain ⟨c, hc, hkey⟩ := hbefore
    obtain ⟨d, hd, hkey', -⟩ := h.grows.caches run.cacheId c hc
    exact ⟨d, hd, hkey'.trans hkey⟩

/-! ## Runs before and after a step -/

theorem mem_setEnsure {runId : Uuid} {phase : EnsurePhase} {run : EnsureRun}
    (h : run ∈ (s.setEnsure runId phase).ensures) : run ∈ s.ensures ∨ run.phase = phase := by
  simp only [State.setEnsure, Table.mem_modify] at h
  obtain ⟨hold, -⟩ | ⟨old, -, rfl⟩ := h
  · exact .inl hold
  · exact .inr rfl

theorem mem_setGenerate {token : Uuid} {phase : GeneratePhase} {run : GenerateRun}
    (h : run ∈ (s.setGenerate token phase).generates) :
    run ∈ s.generates ∨ ∃ old, s.generates.find token = some old ∧
      run = { old with phase := phase } := by
  simp only [State.setGenerate, Table.mem_modify] at h
  obtain ⟨hold, -⟩ | ⟨old, hfound, rfl⟩ := h
  · exact .inl hold
  · exact .inr ⟨old, hfound, rfl⟩

theorem answers_of_eq (h : s'.ensures = s.ensures) : KeepsAnswers s s' := by
  intro run hrun _ _
  rw [h] at hrun
  exact .inl hrun

theorem answers_of_setEnsure {runId : Uuid} {phase : EnsurePhase}
    (h : s'.ensures = (s.setEnsure runId phase).ensures)
    (hphase : ∀ cacheId, phase = .answered cacheId .pending → (s'.jobs.find cacheId).isSome) :
    KeepsAnswers s s' := by
  intro run hrun cacheId hrunPhase
  rw [h] at hrun
  obtain hold | hnew := mem_setEnsure hrun
  · exact .inl hold
  · exact .inr (hphase cacheId (hnew.symm.trans hrunPhase))

theorem sources_of_eq (h : s'.generates = s.generates) : KeepsSources s s' := by
  intro run hrun source hsource
  rw [h] at hrun
  exact ⟨run, hrun, rfl, .inl hsource⟩

theorem sources_of_setGenerate {token : Uuid} {phase : GeneratePhase}
    (h : s'.generates = (s.setGenerate token phase).generates)
    (hphase : ∀ old, s.generates.find token = some old → ∀ source ∈ phase.source,
      source ∈ old.phase.source ∨
        ∃ c, s.caches.find old.cacheId = some c ∧ c.objectKey = source.cacheKey) :
    KeepsSources s s' := by
  intro run hrun source hsource
  rw [h] at hrun
  obtain hold | ⟨old, hfound, rfl⟩ := mem_setGenerate hrun
  · exact ⟨run, hold, rfl, .inl hsource⟩
  · exact ⟨old, (Table.find_eq_some.mp hfound).1, rfl, hphase old hfound source hsource⟩

theorem sources_of_none {token : Uuid} {phase : GeneratePhase} (hphase : phase.source = none)
    (h : s'.generates = (s.setGenerate token phase).generates) : KeepsSources s s' := by
  refine sources_of_setGenerate h fun old _ source hsource => ?_
  rw [hphase] at hsource
  cases hsource

theorem open_of_live (hs : Sound env s) {c : SymbolCache} {r : CacheJob}
    (hc : s.caches.find k = some c) (hr : s.jobs.find k = some r)
    (hlive : r.job.state.terminal = false) : c.done = false := by
  have hmatched := hs.matched k
  rw [hc, hr] at hmatched
  exact hmatched.2.symm.trans hlive

/-! ## What each step preserves -/

theorem call_preserves {runId projectId : Uuid} {artifact : PdbArtifact} (hs : Consistent env s)
    (h : s.call runId projectId artifact = some s') : Preserves env s s' := by
  unfold State.call at h
  split_ifs at h with hfresh
  cases h
  refine preserves_of_change hs (.quiet (k := 0) rfl rfl rfl) ?_ (sources_of_eq rfl)
  intro run hrun cacheId hphase
  obtain rfl | hold := (Table.mem_insert hfresh).mp hrun
  · cases hphase
  · exact .inl hold

theorem insertCacheRow_preserves {runId id : Uuid} {reply : Bool} (hs : Consistent env s)
    (h : s.insertCacheRow env runId id reply = some s') : Preserves env s s' := by
  obtain ⟨phase, hphase, rfl | ⟨c, hid, hkey, hopen, rfl⟩⟩ := insertCacheRow_eq_some h
  · exact preserves_of_change hs (.quiet (k := 0) rfl rfl rfl)
      (answers_of_setEnsure rfl fun k hk => absurd hk (hphase k)) (sources_of_eq rfl)
  · exact preserves_of_change hs (.row hid hkey hopen rfl rfl rfl)
      (answers_of_setEnsure rfl fun k hk => absurd hk (hphase k)) (sources_of_eq rfl)

theorem insertCacheJob_preserves {runId id : Uuid} {reply : Bool} (hs : Consistent env s)
    (h : s.insertCacheJob runId id reply = some s') : Preserves env s s' := by
  obtain ⟨phase, c, r, hc, hp, hpending, hphase, rfl⟩ := insertCacheJob_eq_some h
  have hlive : r.job.state.terminal = false := by
    rw [hpending]
    rfl
  have hinserted : ((s.jobs.insert r).find r.cacheId).isSome := by
    cases hr : s.jobs.find r.cacheId with
    | none => rw [Table.find_insert_self hr, Option.isSome_some]
    | some old => rw [insert_of_find hr, hr, Option.isSome_some]
  refine preserves_of_change hs (.request hs.toSound hc hp hlive rfl rfl rfl)
    (answers_of_setEnsure rfl fun k hk => ?_) (sources_of_eq rfl)
  rw [hphase k hk]
  exact hinserted

theorem claim_preserves {holder : Holder} {cacheId : Uuid} (hs : Consistent env s)
    (h : s.claim holder cacheId = some s') : Preserves env s s' := by
  obtain ⟨r, j, run, hr, hlive, hlive', hfresh, hphase, rfl⟩ := claim_eq_some h
  refine preserves_of_change hs (.work hr hlive hlive' rfl rfl rfl) (answers_of_eq rfl) ?_
  intro other hother source hsource
  obtain rfl | hold := (Table.mem_insert hfresh).mp hother
  · rw [hphase] at hsource
    cases hsource
  · exact ⟨other, hold, rfl, .inl hsource⟩

theorem heartbeat_preserves {token : Uuid} (hs : Consistent env s)
    (h : s.heartbeat token = some s') : Preserves env s s' := by
  obtain ⟨k, r, j, hr, hlive, hlive', rfl⟩ := heartbeat_eq_some h
  exact preserves_of_change hs (.work hr hlive hlive' rfl rfl rfl) (answers_of_eq rfl)
    (sources_of_eq rfl)

theorem readSource_preserves {token : Uuid} {pdb : PdbSource} (hs : Consistent env s)
    (h : s.readSource token pdb = some s') : Preserves env s s' := by
  obtain ⟨run, c, source, hrun, hc, hkey, rfl⟩ := readSource_eq_some h
  refine preserves_of_change hs (.quiet (k := 0) rfl rfl rfl) (answers_of_eq rfl)
    (sources_of_setGenerate rfl fun old hold source' hsource => ?_)
  cases hrun.symm.trans hold
  cases hsource
  exact .inr ⟨c, hc, hkey⟩

theorem markCacheProcessing_preserves {token size : Nat} {checksum : List UInt8} {reply : Bool}
    (hs : Consistent env s) (h : s.markCacheProcessing token size checksum reply = some s') :
    Preserves env s s' := by
  obtain ⟨run, source, c, d, hrun, hphase, hc, hopen, hd, rfl | rfl⟩ :=
    markCacheProcessing_eq_some h
  · exact preserves_of_change hs (.mark hc hopen hd rfl rfl rfl) (answers_of_eq rfl)
      (sources_of_eq rfl)
  · refine preserves_of_change hs (.mark hc hopen hd rfl rfl rfl) (answers_of_eq rfl)
      (sources_of_setGenerate rfl fun old hold source' hsource => ?_)
    cases hrun.symm.trans hold
    rw [hphase]
    exact .inl hsource

/-- The object is put while the job is live, so the cache of that key is open. -/
theorem publishCache_preserves {token : Uuid} {output : CacheOutput} {file : List UInt8}
    {commits : Bool} (hs : Consistent env s)
    (h : s.publishCache env token output file commits = some s') : Preserves env s s' := by
  obtain ⟨run, source, r, locked, hrun, hphase, hr, hlive, h⟩ := publishCache_eq_some h
  have hsource : source ∈ run.phase.source := by
    rw [hphase]
    rfl
  obtain ⟨c, hc, hkey⟩ := hs.sources run (Table.find_eq_some.mp hrun).1 source hsource
  have hopen : c.done = false := open_of_live hs.toSound hc hr hlive
  rw [← hkey] at h
  obtain rfl | hrows := h
  · exact preserves_of_change hs (.put hc hopen rfl rfl rfl) (answers_of_eq rfl)
      (sources_of_none rfl rfl)
  · obtain ⟨c', d, j, hc', -, -, hd, hended, rfl⟩ := publishRows_eq_some hrows
    cases hc.symm.trans hc'
    refine preserves_of_change hs (.close (k := run.cacheId) hc hr hopen ?_ hended rfl rfl
      (fun key hne => if_neg hne) ?_) (answers_of_eq rfl) (sources_of_none rfl rfl)
    · rw [SymbolCache.done, hd]
    · intro checksum byteSize havailable
      cases hd.symm.trans havailable
      exact ⟨file, if_pos rfl, rfl, rfl⟩

theorem releaseJob_preserves {run : GenerateRun} {seconds : Nat} {resource dependency : Bool}
    {code : String} (hs : Consistent env s)
    (h : s.releaseJob run seconds resource dependency code = some s') : Preserves env s s' := by
  obtain ⟨r, j, hr, hlive, hlive', rfl⟩ := releaseJob_eq_some h
  exact preserves_of_change hs (.work hr hlive hlive' rfl rfl rfl) (answers_of_eq rfl)
    (sources_of_eq rfl)

theorem finishFailure_preserves {run : GenerateRun} {quarantine resource : Bool} {code : String}
    (hs : Consistent env s) (h : s.finishFailure run quarantine resource code = some s') :
    Preserves env s s' := by
  obtain ⟨c, r, d, j, hc, hr, hopen, hd, hended, rfl⟩ := finishFailure_eq_some h
  refine preserves_of_change hs (.close (k := run.cacheId) hc hr hopen ?_ hended rfl rfl
    (fun _ _ => rfl) ?_) (answers_of_eq rfl) (sources_of_eq rfl)
  · rw [SymbolCache.done, hd]
    cases quarantine <;> rfl
  · intro checksum byteSize havailable
    have hstate := hd.symm.trans havailable
    cases quarantine <;> cases hstate

theorem Preserves.trans {t : State} (h : Preserves env s t) (h' : Preserves env t s') :
    Preserves env s s' := by
  refine ⟨h'.1, fun k c hc => ?_, fun k hr => h'.2.jobs k (h.2.jobs k hr)⟩
  obtain ⟨d, hd, hkey, hdone⟩ := h.2.caches k c hc
  obtain ⟨e, he, hkey', hdone'⟩ := h'.2.caches k d hd
  refine ⟨e, he, hkey'.trans hkey, fun hc' => ?_⟩
  cases hdone hc'
  exact hdone' hc'

theorem finish_preserves {token : Uuid} {result : Worked Unit} {applied : Bool}
    (hs : Consistent env s) (h : s.finish token result applied = some s') :
    Preserves env s s' := by
  have hfinished : Preserves env s (s.setGenerate token .finished) :=
    preserves_of_change hs (.quiet (k := 0) rfl rfl rfl) (answers_of_eq rfl)
      (sources_of_none rfl rfl)
  obtain ⟨run, ending, rfl | hended⟩ := finish_eq_some h
  · exact hfinished
  · refine hfinished.trans ?_
    cases ending with
    | nothing =>
      cases hended
      exact preserves_of_change hfinished.1 (.quiet (k := 0) rfl rfl rfl) (answers_of_eq rfl)
        (sources_of_eq rfl)
    | release seconds resource dependency code => exact releaseJob_preserves hfinished.1 hended
    | failure quarantine resource code => exact finishFailure_preserves hfinished.1 hended

theorem step_preserves {a : Action} (hs : Consistent env s) (h : step env s a = some s') :
    Preserves env s s' := by
  cases a with
  | tick seconds =>
    cases h
    exact preserves_of_change hs (.quiet (k := 0) rfl rfl rfl) (answers_of_eq rfl)
      (sources_of_eq rfl)
  | call runId projectId artifact => exact call_preserves hs h
  | insertCacheRow runId id reply => exact insertCacheRow_preserves hs h
  | insertCacheJob runId id reply => exact insertCacheJob_preserves hs h
  | claim holder cacheId => exact claim_preserves hs h
  | heartbeat token => exact heartbeat_preserves hs h
  | readSource token pdb => exact readSource_preserves hs h
  | markCacheProcessing token size checksum reply => exact markCacheProcessing_preserves hs h
  | publishCache token output file commits => exact publishCache_preserves hs h
  | finish token result applied => exact finish_preserves hs h
  | cancel token =>
    obtain ⟨run, hreleased⟩ := cancel_eq_some h
    exact releaseJob_preserves hs hreleased

/-! ## Whole runs -/

theorem consistent_init (objects : String → Option (List UInt8)) :
    Consistent env (State.init objects) where
  keys := fun _ _ _ _ hc _ _ => by cases hc
  matched := fun _ => trivial
  stored := fun _ _ hc => by cases hc
  answered := fun _ hrun => by cases hrun
  sources := fun _ hrun => by cases hrun

theorem Consistent.of_reachable (hs : Consistent env s)
    (h : Reachable (step env) (fun _ => True) s s') : Consistent env s' :=
  h.invariant (Consistent env) hs fun _ _ _ _ hi hstep _ => (step_preserves hi hstep).1

/-- A done cache stays as it is. -/
theorem done_of_reachable (hs : Consistent env s)
    (h : Reachable (step env) (fun _ => True) s s') {c : SymbolCache}
    (hc : s.caches.find k = some c) (hdone : c.done = true) : s'.caches.find k = some c := by
  refine (h.invariant (fun t => Consistent env t ∧ t.caches.find k = some c) ⟨hs, hc⟩ ?_).2
  intro t a t' _ hi hstep _
  have hpreserves := step_preserves hi.1 hstep
  obtain ⟨d, hd, -, hsame⟩ := hpreserves.2.caches k c hi.2
  rw [hsame hdone] at hd
  exact ⟨hpreserves.1, hd⟩

theorem live_iff {j : Job} :
    j.state.terminal = false ↔ j.state = .pending ∨ ∃ lease, j.state = .leased lease := by
  cases j.state <;> simp [JobState.terminal]

/-- The job of a cache that is open. -/
theorem Sound.live_job (hs : Sound env s) {c : SymbolCache} (hc : s.caches.find k = some c)
    (hopen : c.done = false) (hr : (s.jobs.find k).isSome) :
    ∃ r ∈ s.jobs, r.cacheId = k ∧ r.projectId = c.projectId ∧ r.job.state.terminal = false := by
  obtain ⟨r, hr⟩ := Option.isSome_iff_exists.mp hr
  have hmatched := hs.matched k
  rw [hc, hr] at hmatched
  obtain ⟨hmem, hkey⟩ := Table.find_eq_some.mp hr
  exact ⟨r, hmem, hkey, hmatched.1, hmatched.2.trans hopen⟩

theorem Sound.cache_of_job (hs : Sound env s) (hr : (s.jobs.find k).isSome) :
    ∃ c, s.caches.find k = some c := by
  cases hc : s.caches.find k with
  | some c => exact ⟨c, rfl⟩
  | none =>
    obtain ⟨r, hr⟩ := Option.isSome_iff_exists.mp hr
    have hmatched := hs.matched k
    rw [hc, hr] at hmatched
    cases hmatched

/-- A cache that a crash was told to wait for has a live job in its project while it is open,
an available cache is the one that is stored, and a done cache never changes. -/
theorem awaited_cache_has_job {objects : String → Option (List UInt8)}
    (h : Reachable (step env) (fun _ => True) (.init objects) s) :
    (∀ run ∈ s.ensures, ∀ cacheId, run.phase = .answered cacheId .pending →
      ∃ c ∈ s.caches, c.id = cacheId ∧ (c.state = .pending ∨ c.state = .processing →
        ∃ r ∈ s.jobs, r.cacheId = cacheId ∧ r.projectId = c.projectId ∧
          (r.job.state = .pending ∨ ∃ lease, r.job.state = .leased lease))) ∧
    (∀ c ∈ s.caches, ∀ checksum byteSize, c.state = .available checksum byteSize →
      ∃ file, s.objects c.objectKey = some file ∧ checksum = env.sha256 file ∧
        byteSize = file.length) ∧
    (∀ t, Reachable (step env) (fun _ => True) s t →
      ∀ c ∈ s.caches, c.done = true → c ∈ t.caches) := by
  have hs : Consistent env s := (consistent_init objects).of_reachable h
  refine ⟨?_, ?_, ?_⟩
  · intro run hrun cacheId hphase
    have hr := hs.answered run hrun cacheId hphase
    obtain ⟨c, hc⟩ := hs.cache_of_job hr
    obtain ⟨hmem, hid⟩ := Table.find_eq_some.mp hc
    refine ⟨c, hmem, hid, fun hstate => ?_⟩
    obtain ⟨r, hr, hkey, hproject, hlive⟩ := hs.live_job hc (open_iff.mpr hstate) hr
    exact ⟨r, hr, hkey, hproject, live_iff.mp hlive⟩
  · intro c hc
    exact hs.stored c.id c (Table.find_eq_some.mpr ⟨hc, rfl⟩)
  · intro t ht c hc hdone
    exact (Table.find_eq_some.mp
      (done_of_reachable hs ht (Table.find_eq_some.mpr ⟨hc, rfl⟩) hdone)).1

end

/-! ## A run that stores its cache twice -/

def sampleFile : List UInt8 := [83, 89, 77, 67]

def sampleSurroundings : Surroundings where
  organizationId := "acme"
  formatVersion := 8
  sha256 := fun file =>
    if file = sampleFile then
      [179, 95, 155, 223, 45, 152, 148, 152, 232, 85, 195, 77, 13, 5, 239, 45, 124, 58, 224, 138,
        61, 153, 41, 15, 88, 12, 146, 115, 238, 226, 210, 154]
    else []

def samplePdb : PdbSource := ⟨"org/acme/artifacts/game.pdb", [1, 2], 9, "A1B2", "x86_64"⟩

def sampleOutput : CacheOutput := ⟨1, symcacheProcessorVersion, 8, "A1B2", "x86_64", 4⟩

/-- Two projects ask for the cache of one PDB. The first worker stores the cache but loses its
transaction and its lease, and the second one publishes. -/
def storedTwice : List Action :=
  [.call 1 10 ⟨5, [1, 2]⟩, .call 2 20 ⟨5, [1, 2]⟩, .insertCacheRow 1 7 true,
    .insertCacheRow 2 8 true, .insertCacheJob 2 30 true, .claim ⟨40, 41⟩ 7,
    .readSource 41 samplePdb, .markCacheProcessing 41 9 [1, 2] true,
    .publishCache 41 sampleOutput sampleFile false, .tick 400, .claim ⟨50, 51⟩ 7,
    .readSource 51 samplePdb, .markCacheProcessing 51 9 [1, 2] true,
    .publishCache 51 sampleOutput sampleFile true, .finish 51 (.ok ()) true]

def finalState : Option State :=
  run (step sampleSurroundings) (fun _ => True) (.init fun _ => none) storedTwice

theorem finalState_isSome : finalState.isSome := by decide

def sampleState : State := finalState.get finalState_isSome

theorem sampleState_reachable :
    Reachable (step sampleSurroundings) (fun _ => True) (.init fun _ => none) sampleState :=
  Reachable.of_run (.init trivial) (Option.some_get finalState_isSome).symm

/-- The second caller is told to wait, and the first project's cache is published for it. -/
theorem awaited_cache_published :
    ∃ run ∈ sampleState.ensures, run.projectId = 20 ∧ run.phase = .answered 7 .pending ∧
      ∃ c ∈ sampleState.caches, c.id = 7 ∧ c.projectId = 10 ∧
        ∃ file, sampleState.objects c.objectKey = some file ∧
          c.state = .available (sampleSurroundings.sha256 file) file.length := by
  obtain ⟨-, hstored, -⟩ := awaited_cache_has_job sampleState_reachable
  have hrun : ∃ run ∈ sampleState.ensures.rows, run.projectId = 20 ∧
      run.phase = .answered 7 .pending := by
    decide +kernel
  have hcache : ∃ c ∈ sampleState.caches.rows, c.id = 7 ∧ c.projectId = 10 ∧
      c.state = .available (sampleSurroundings.sha256 sampleFile) 4 := by
    decide +kernel
  obtain ⟨run, hrun, hproject, hphase⟩ := hrun
  obtain ⟨c, hc, hid, hcproject, hstate⟩ := hcache
  obtain ⟨file, hfile, hchecksum, hsize⟩ := hstored c hc _ _ hstate
  rw [hchecksum, hsize] at hstate
  exact ⟨run, hrun, hproject, hphase, c, hc, hid, hcproject, file, hfile, hstate⟩

end FaultLane.SymbolCaches

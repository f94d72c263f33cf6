import FaultLane.SymbolCaches

set_option autoImplicit false

/-!
# Runs over the symbol caches

A cache is done when its job is, since one transaction ends both. An open cache that was
asked for keeps a live job, and the object of an available cache is never written again.
-/
namespace FaultLane.SymbolCaches
open KeyedTable JobQueue TransitionSystem
open WorkerQueue (DerivedCache)
open CrashSymbols (JobError Worked)

/-! ## Rows that a statement may change -/

section
variable {j j' : Job} {h : Holder} {now : Nat}

theorem live_of_holds (hj : j.holds h) : j.state.terminal = false := by
  obtain ⟨lease, hs, -⟩ := hj
  rw [hs]
  rfl

theorem live_of_claimable (hc : j.claimable now) : j.state.terminal = false := by
  obtain ⟨hs, -⟩ | ⟨hl, -⟩ := hc
  · rw [hs]
    rfl
  · cases hs : j.state with
    | pending => rfl
    | leased lease => rfl
    | completed => rw [hs] at hl; cases hl
    | failed => rw [hs] at hl; cases hl
    | dead => rw [hs] at hl; cases hl

theorem live_of_renews (hr : j.Renews h j') : j'.state.terminal = false :=
  live_of_holds ((hr.holds h).mpr rfl)

end

section
variable {c : DerivedCache} {d : DerivedCache}

theorem markProcessing_eq_some (hm : c.markProcessing = some d) :
    (c.state = .pending ∨ c.state = .processing) ∧ d.state = .processing := by
  unfold DerivedCache.markProcessing at hm
  split at hm
  next hs =>
    cases hm
    exact ⟨.inl hs, rfl⟩
  next hs =>
    cases hm
    exact ⟨.inr hs, rfl⟩
  all_goals cases hm

theorem publish_eq_some {key : String} {checksum : List UInt8} {byteSize : Nat}
    (hp : c.publish key checksum byteSize = some d) :
    c.state = .processing ∧ c.objectKey = key ∧ d.state = .available checksum byteSize := by
  unfold DerivedCache.publish at hp
  split_ifs at hp with hc
  cases hp
  exact ⟨hc.1, hc.2, rfl⟩

theorem fail_eq_some {quarantine : Bool} {code : String} (hf : c.fail quarantine code = some d) :
    (c.state = .pending ∨ c.state = .processing) ∧
      d.state = if quarantine then .quarantined code else .failed code := by
  unfold DerivedCache.fail at hf
  split at hf
  next hc =>
    cases hf
    exact ⟨hc, rfl⟩
  · cases hf

end

theorem open_iff {c : SymbolCache} :
    c.done = false ↔ c.state = .pending ∨ c.state = .processing := by
  unfold SymbolCache.done
  cases c.state <;> simp

/-! ## The change of a step -/

/-- A cache and its job. -/
def Matched : Option SymbolCache → Option CacheJob → Prop
  | none, none => True
  | none, some _ => False
  | some c, none => c.done = false
  | some c, some r => r.projectId = c.projectId ∧ r.job.state.terminal = c.done

def Stored (env : Surroundings) (objects : String → Option (List UInt8)) (c : SymbolCache) : Prop :=
  ∀ checksum byteSize, c.state = .available checksum byteSize →
    ∃ file, objects c.objectKey = some file ∧ checksum = env.sha256 file ∧ byteSize = file.length

theorem Stored.of_open {env : Surroundings} {objects : String → Option (List UInt8)}
    {c : SymbolCache} (hc : c.done = false) : Stored env objects c := by
  intro checksum byteSize hs
  unfold SymbolCache.done at hc
  rw [hs] at hc
  cases hc

/-- What the rows and the stored objects keep. -/
structure Sound (env : Surroundings) (s : State) : Prop where
  keys : ∀ k k' c c', s.caches.find k = some c → s.caches.find k' = some c' →
    c.objectKey = c'.objectKey → k = k'
  matched : ∀ k, Matched (s.caches.find k) (s.jobs.find k)
  stored : ∀ k c, s.caches.find k = some c → Stored env s.objects c

/-- The changes of a cache and its job. -/
inductive Move : Option SymbolCache → Option CacheJob → Option SymbolCache → Option CacheJob → Prop
  | stay (c : Option SymbolCache) (r : Option CacheJob) : Move c r c r
  | opened (c : SymbolCache) (r : Option CacheJob) (hc : c.done = false) : Move none r (some c) r
  | requested (c : SymbolCache) (r : CacheJob) (project : r.projectId = c.projectId)
      (live : r.job.state.terminal = false) (hc : c.done = false) :
      Move (some c) none (some c) (some r)
  | worked (c : Option SymbolCache) (r : CacheJob) (j : Job) (live : r.job.state.terminal = false)
      (live' : j.state.terminal = false) : Move c (some r) c (some { r with job := j })
  | marked (c : SymbolCache) (r : Option CacheJob) (hc : c.done = false) :
      Move (some c) r (some { c with state := .processing }) r
  | closed (c c' : SymbolCache) (r : CacheJob) (j : Job) (hc : c.done = false)
      (key : c'.objectKey = c.objectKey) (project : c'.projectId = c.projectId)
      (done : c'.done = true) (ended : j.state.terminal = true) :
      Move (some c) (some r) (some c') (some { r with job := j })

theorem Move.matched {c c' : Option SymbolCache} {r r' : Option CacheJob} (hm : Move c r c' r')
    (h : Matched c r) : Matched c' r' := by
  cases hm with
  | stay => exact h
  | opened c r hc =>
    cases r with
    | none => exact hc
    | some r => cases h
  | requested c r project live hc => exact ⟨project, live.trans hc.symm⟩
  | worked c r j live live' =>
    cases c with
    | none => cases h
    | some c => exact ⟨h.1, live'.trans (live.symm.trans h.2)⟩
  | marked c r hc =>
    cases r with
    | none => rfl
    | some r => exact ⟨h.1, h.2.trans hc⟩
  | closed c c' r j hc key project done ended =>
    exact ⟨h.1.trans project.symm, ended.trans done.symm⟩

/-- A cache keeps its place and its project, and a done cache all of its row. -/
theorem Move.keeps {c : SymbolCache} {c' : Option SymbolCache} {r r' : Option CacheJob}
    (hm : Move (some c) r c' r') :
    ∃ d, c' = some d ∧ d.objectKey = c.objectKey ∧ d.projectId = c.projectId ∧
      (c.done = true → d = c) := by
  cases hm with
  | stay => exact ⟨c, rfl, rfl, rfl, fun _ => rfl⟩
  | requested => exact ⟨c, rfl, rfl, rfl, fun _ => rfl⟩
  | worked => exact ⟨c, rfl, rfl, rfl, fun _ => rfl⟩
  | marked _ _ hc =>
    refine ⟨_, rfl, rfl, rfl, fun hd => ?_⟩
    rw [hc] at hd
    cases hd
  | closed _ c' r j hc key project done ended =>
    refine ⟨c', rfl, key, project, fun hd => ?_⟩
    rw [hc] at hd
    cases hd

theorem Move.keeps_job {c c' : Option SymbolCache} {r r' : Option CacheJob}
    (hm : Move c r c' r') (hr : r.isSome) : r'.isSome := by
  cases hm <;> first | exact hr | rfl

/-- What a step does: it changes one cache with its job, and no object but that of the cache,
which is open. -/
structure Change (env : Surroundings) (s s' : State) (k : Uuid) : Prop where
  caches : ∀ k', k' ≠ k → s'.caches.find k' = s.caches.find k'
  jobs : ∀ k', k' ≠ k → s'.jobs.find k' = s.jobs.find k'
  move : Move (s.caches.find k) (s.jobs.find k) (s'.caches.find k) (s'.jobs.find k)
  key : ∀ c, s.caches.find k = none → s'.caches.find k = some c →
    ∀ other ∈ s.caches, other.objectKey ≠ c.objectKey
  objects : s'.objects = s.objects ∨ ∃ c, s.caches.find k = some c ∧ c.done = false ∧
    ∀ key, key ≠ c.objectKey → s'.objects key = s.objects key
  stored : ∀ c, s'.caches.find k = some c → c.done = true →
    s'.objects = s.objects ∧ s.caches.find k = some c ∨ Stored env s'.objects c

section
variable {env : Surroundings} {s s' : State} {k : Uuid}

theorem Change.key_ne (h : Change env s s' k) (hs : Sound env s) {k' : Uuid} {c c' : SymbolCache}
    (hc : s'.caches.find k = some c) (hk : k' ≠ k) (hc' : s.caches.find k' = some c') :
    c'.objectKey ≠ c.objectKey := by
  cases hold : s.caches.find k with
  | none => exact h.key c hold hc c' (Table.find_eq_some.mp hc').1
  | some old =>
    have hmove := h.move
    rw [hold] at hmove
    obtain ⟨d, hd, hkey, -⟩ := hmove.keeps
    cases hc.symm.trans hd
    intro he
    exact hk (hs.keys k' k c' old hc' hold (he.trans hkey))

theorem Change.sound (h : Change env s s' k) (hs : Sound env s) : Sound env s' := by
  constructor
  · intro a b c c' hc hc' he
    by_cases ha : a = k
    · by_cases hb : b = k
      · exact ha.trans hb.symm
      · rw [ha] at hc
        rw [h.caches b hb] at hc'
        exact absurd he.symm (h.key_ne hs hc hb hc')
    · by_cases hb : b = k
      · rw [hb] at hc'
        rw [h.caches a ha] at hc
        exact absurd he (h.key_ne hs hc' ha hc)
      · rw [h.caches a ha] at hc
        rw [h.caches b hb] at hc'
        exact hs.keys a b c c' hc hc' he
  · intro a
    by_cases ha : a = k
    · rw [ha]
      exact h.move.matched (hs.matched k)
    · rw [h.caches a ha, h.jobs a ha]
      exact hs.matched a
  · intro a c hc
    by_cases ha : a = k
    · rw [ha] at hc
      cases hd : c.done with
      | false => exact Stored.of_open hd
      | true =>
        obtain ⟨ho, hold⟩ | hstored := h.stored c hc hd
        · rw [ho]
          exact hs.stored k c hold
        · exact hstored
    · rw [h.caches a ha] at hc
      obtain ho | ⟨c₀, hc₀, -, ho⟩ := h.objects
      · rw [ho]
        exact hs.stored a c hc
      · have hne : c.objectKey ≠ c₀.objectKey := fun he => ha (hs.keys a k c c₀ hc hc₀ he)
        unfold Stored
        rw [ho c.objectKey hne]
        exact hs.stored a c hc

end

/-! ## What the statements do -/

section
variable {env : Surroundings} {s s' : State}

theorem insert_of_find {r old : CacheJob} (h : s.jobs.find r.cacheId = some old) :
    s.jobs.insert r = s.jobs := by
  obtain ⟨hold, hkey⟩ := Table.find_eq_some.mp h
  exact dif_pos (List.mem_map.mpr ⟨old, hold, hkey⟩)

theorem jobOf_eq_some {run : GenerateRun} {r : CacheJob} (h : s.jobOf run = some r) :
    s.jobs.find run.cacheId = some r :=
  (Option.filter_eq_some_iff.mp h).1

theorem cacheOf_eq_some {run : GenerateRun} {c : SymbolCache} (h : s.cacheOf run = some c) :
    s.caches.find run.cacheId = some c :=
  (Option.filter_eq_some_iff.mp h).1

theorem EnsurePhase.ofRow_ne (c : SymbolCache) (cacheId : Uuid) :
    EnsurePhase.ofRow c ≠ .answered cacheId .pending := by
  unfold EnsurePhase.ofRow
  intro h
  split at h
  · split at h
    · injection h with _ hanswer
      cases hanswer
    · cases h
  · injection h with _ hanswer
    cases hanswer
  · injection h with _ hanswer
    cases hanswer
  · cases h
  · cases h

theorem EnsurePhase.replied_eq_answered {phase : EnsurePhase} {reply : Bool} {cacheId : Uuid}
    (h : phase.replied reply = .answered cacheId .pending) :
    phase = .answered cacheId .pending := by
  cases reply with
  | false => cases h
  | true => exact h

theorem insertCacheRow_eq_some {runId id : Uuid} {reply : Bool}
    (h : s.insertCacheRow env runId id reply = some s') :
    ∃ phase, (∀ cacheId, phase ≠ EnsurePhase.answered cacheId .pending) ∧
      (s' = s.setEnsure runId phase ∨
        ∃ c : SymbolCache, s.caches.find c.id = none ∧
          (∀ other ∈ s.caches, other.objectKey ≠ c.objectKey) ∧ c.done = false ∧
          s' = { s with caches := s.caches.insert c }.setEnsure runId phase) := by
  obtain ⟨run, -, h⟩ := Option.bind_eq_some_iff.mp h
  split at h
  · split at h
    next c hc =>
      cases h
      exact ⟨_, fun k hk => EnsurePhase.ofRow_ne c k (EnsurePhase.replied_eq_answered hk), .inl rfl⟩
    · dsimp only at h
      split_ifs at h with hfresh
      cases h
      exact ⟨_, fun k hk => EnsurePhase.ofRow_ne _ k (EnsurePhase.replied_eq_answered hk),
        .inr ⟨.new env id run, hfresh.1, hfresh.2, rfl, rfl⟩⟩
  · cases h

theorem insertCacheJob_eq_some {runId id : Uuid} {reply : Bool}
    (h : s.insertCacheJob runId id reply = some s') :
    ∃ phase c r, s.caches.find r.cacheId = some c ∧ r.projectId = c.projectId ∧
      r.job.state = .pending ∧
      (∀ k, phase = EnsurePhase.answered k .pending → k = r.cacheId) ∧
      s' = { s with jobs := s.jobs.insert r }.setEnsure runId phase := by
  obtain ⟨run, -, h⟩ := Option.bind_eq_some_iff.mp h
  split at h
  next cacheId projectId _ =>
    obtain ⟨c, hc, h⟩ := Option.bind_eq_some_iff.mp h
    obtain ⟨hc, hp⟩ := Option.filter_eq_some_iff.mp hc
    split_ifs at h
    cases h
    refine ⟨_, c, ⟨id, projectId, cacheId, .new 50 s.now⟩, hc, (of_decide_eq_true hp).symm, rfl,
      ?_, rfl⟩
    intro k hk
    injection EnsurePhase.replied_eq_answered hk with hk
    exact hk.symm
  · cases h

theorem claim_eq_some {holder : Holder} {cacheId : Uuid} (h : s.claim holder cacheId = some s') :
    ∃ r j run, s.jobs.find cacheId = some r ∧ r.job.state.terminal = false ∧
      j.state.terminal = false ∧ s.generates.find run.token = none ∧ run.phase = .claimed ∧
      s' = { s.setJob cacheId j with generates := s.generates.insert run } := by
  obtain ⟨r, hr, h⟩ := Option.bind_eq_some_iff.mp h
  obtain ⟨j, hj, h⟩ := Option.bind_eq_some_iff.mp h
  split_ifs at h with hfresh
  cases h
  obtain ⟨hclaim, hstate⟩ := Job.claim_eq_some hj
  refine ⟨r, j, _, hr, live_of_claimable hclaim, ?_, hfresh, rfl, rfl⟩
  rw [hstate]
  rfl

theorem heartbeat_eq_some {token : Uuid} (h : s.heartbeat token = some s') :
    ∃ k r j, s.jobs.find k = some r ∧ r.job.state.terminal = false ∧
      j.state.terminal = false ∧ s' = s.setJob k j := by
  obtain ⟨run, -, h⟩ := Option.bind_eq_some_iff.mp h
  obtain ⟨r, hr, h⟩ := Option.bind_eq_some_iff.mp h
  obtain ⟨j, hj, h⟩ := Option.bind_eq_some_iff.mp h
  cases h
  have hrenews := Job.heartbeat_renews hj
  exact ⟨run.cacheId, r, j, jobOf_eq_some hr, live_of_holds hrenews.held,
    live_of_renews hrenews, rfl⟩

theorem readSource_eq_some {token : Uuid} {pdb : PdbSource}
    (h : s.readSource token pdb = some s') :
    ∃ run c source, s.generates.find token = some run ∧ s.caches.find run.cacheId = some c ∧
      c.objectKey = source.cacheKey ∧ s' = s.setGenerate token (.sourceRead source) := by
  obtain ⟨run, hrun, h⟩ := Option.bind_eq_some_iff.mp h
  obtain ⟨c, hc, h⟩ := Option.bind_eq_some_iff.mp h
  split_ifs at h
  cases h
  exact ⟨run, c, _, hrun, cacheOf_eq_some hc, rfl, rfl⟩

theorem markCacheProcessing_eq_some {token size : Nat} {checksum : List UInt8} {reply : Bool}
    (h : s.markCacheProcessing token size checksum reply = some s') :
    ∃ run source c d, s.generates.find token = some run ∧ run.phase = .sourceRead source ∧
      s.caches.find run.cacheId = some c ∧ c.done = false ∧ d.state = .processing ∧
      (s' = s.setCache run.cacheId d ∨
        s' = (s.setCache run.cacheId d).setGenerate token (.marked source)) := by
  obtain ⟨run, hrun, h⟩ := Option.bind_eq_some_iff.mp h
  split at h
  next source hphase =>
    obtain ⟨r, -, h⟩ := Option.bind_eq_some_iff.mp h
    obtain ⟨c, hc, h⟩ := Option.bind_eq_some_iff.mp h
    obtain ⟨d, hd, h⟩ := Option.bind_eq_some_iff.mp h
    split_ifs at h with hguard hreply
    · cases h
      exact ⟨run, source, c, d, hrun, hphase, cacheOf_eq_some hc,
        open_iff.mpr (markProcessing_eq_some hd).1, (markProcessing_eq_some hd).2, .inr rfl⟩
    · cases h
      exact ⟨run, source, c, d, hrun, hphase, cacheOf_eq_some hc,
        open_iff.mpr (markProcessing_eq_some hd).1, (markProcessing_eq_some hd).2, .inl rfl⟩
  · cases h

theorem publishRows_eq_some {run : GenerateRun} {locked : Job} {cacheKey : String}
    {checksum : List UInt8} {byteSize : Nat}
    (h : s.publishRows run locked cacheKey checksum byteSize = some s') :
    ∃ c d j, s.caches.find run.cacheId = some c ∧ c.done = false ∧ c.objectKey = cacheKey ∧
      d.state = .available checksum byteSize ∧ j.state.terminal = true ∧
      s' = (s.setCache run.cacheId d).setJob run.cacheId j := by
  obtain ⟨c, hc, h⟩ := Option.bind_eq_some_iff.mp h
  obtain ⟨d, hd, h⟩ := Option.bind_eq_some_iff.mp h
  obtain ⟨j, hj, h⟩ := Option.bind_eq_some_iff.mp h
  split_ifs at h
  cases h
  obtain ⟨hstate, hkey, havailable⟩ := publish_eq_some hd
  refine ⟨c, d, j, cacheOf_eq_some hc, open_iff.mpr (.inr hstate), hkey, havailable, ?_, rfl⟩
  rw [(Job.completeJob_ends hj).2]
  rfl

theorem publishCache_eq_some {token : Uuid} {output : CacheOutput} {file : List UInt8}
    {commits : Bool} (h : s.publishCache env token output file commits = some s') :
    ∃ run source r locked, s.generates.find token = some run ∧ run.phase = .marked source ∧
      s.jobs.find run.cacheId = some r ∧ r.job.state.terminal = false ∧
      (s' = (s.putObject source.cacheKey file).setGenerate token .published ∨
        ((s.putObject source.cacheKey file).setGenerate token .published).publishRows run locked
          source.cacheKey (env.sha256 file) file.length = some s') := by
  obtain ⟨run, hrun, h⟩ := Option.bind_eq_some_iff.mp h
  split at h
  next source hphase =>
    obtain ⟨r, hr, h⟩ := Option.bind_eq_some_iff.mp h
    obtain ⟨locked, hlocked, h⟩ := Option.bind_eq_some_iff.mp h
    dsimp only at h
    split_ifs at h with hguard hcommits
    · refine ⟨run, source, r, locked, hrun, hphase, jobOf_eq_some hr,
        live_of_holds (Job.lockLease_renews hlocked).held, ?_⟩
      obtain hrows | ⟨-, hstored⟩ := Option.getD_eq_iff.mp (Option.some.inj h)
      · exact .inr hrows
      · exact .inl hstored.symm
    · cases h
      exact ⟨run, source, r, locked, hrun, hphase, jobOf_eq_some hr,
        live_of_holds (Job.lockLease_renews hlocked).held, .inl rfl⟩
  · cases h

theorem releaseJob_eq_some {run : GenerateRun} {seconds : Nat} {resource dependency : Bool}
    {code : String} (h : s.releaseJob run seconds resource dependency code = some s') :
    ∃ r j, s.jobs.find run.cacheId = some r ∧ r.job.state.terminal = false ∧
      j.state.terminal = false ∧ s' = s.setJob run.cacheId j := by
  obtain ⟨r, hr, h⟩ := Option.bind_eq_some_iff.mp h
  obtain ⟨j, hj, h⟩ := Option.bind_eq_some_iff.mp h
  cases h
  obtain ⟨hends, hstate⟩ := Job.release_ends hj
  refine ⟨r, j, jobOf_eq_some hr, live_of_holds hends.held, ?_, rfl⟩
  rw [hstate]
  rfl

theorem finishFailure_eq_some {run : GenerateRun} {quarantine resource : Bool} {code : String}
    (h : s.finishFailure run quarantine resource code = some s') :
    ∃ c r d j, s.caches.find run.cacheId = some c ∧ s.jobs.find run.cacheId = some r ∧
      c.done = false ∧ (d.state = if quarantine then .quarantined code else .failed code) ∧
      j.state.terminal = true ∧ s' = (s.setCache run.cacheId d).setJob run.cacheId j := by
  obtain ⟨r, hr, h⟩ := Option.bind_eq_some_iff.mp h
  obtain ⟨locked, -, h⟩ := Option.bind_eq_some_iff.mp h
  obtain ⟨c, hc, h⟩ := Option.bind_eq_some_iff.mp h
  obtain ⟨d, hd, h⟩ := Option.bind_eq_some_iff.mp h
  obtain ⟨j, hj, h⟩ := Option.bind_eq_some_iff.mp h
  cases h
  obtain ⟨hopen, hstate⟩ := fail_eq_some hd
  exact ⟨c, r, d, j, cacheOf_eq_some hc, jobOf_eq_some hr, open_iff.mpr hopen, hstate,
    (Job.terminalJob_ends hj).2, rfl⟩

theorem finish_eq_some {token : Uuid} {result : Worked Unit} {applied : Bool}
    (h : s.finish token result applied = some s') :
    ∃ run ending, s' = s.setGenerate token .finished ∨
      (s.setGenerate token .finished).conclude run ending = some s' := by
  obtain ⟨run, -, h⟩ := Option.bind_eq_some_iff.mp h
  dsimp only at h
  split_ifs at h with hguard happlied
  · obtain hended | ⟨-, hended⟩ := Option.getD_eq_iff.mp (Option.some.inj h)
    · exact ⟨run, _, .inr hended⟩
    · exact ⟨run, .nothing, .inl hended.symm⟩
  · cases h
    exact ⟨run, .nothing, .inl rfl⟩

theorem cancel_eq_some {token : Uuid} (h : s.cancel token = some s') :
    ∃ run : GenerateRun, s.releaseJob run 0 false true "processing_cancelled" = some s' := by
  obtain ⟨run, -, h⟩ := Option.bind_eq_some_iff.mp h
  exact ⟨run, h⟩

end

/-! ## The change of each statement -/

section
variable {env : Surroundings} {s s' : State} {k : Uuid}

theorem find_setCache_self {c : SymbolCache} {d : DerivedCache}
    (h : s.caches.find k = some c) :
    (s.setCache k d).caches.find k = some { c with state := d.state } := by
  rw [State.setCache, Table.find_modify_self, h]
  rfl

theorem find_setCache_of_ne {k' : Uuid} {d : DerivedCache} (h : k' ≠ k) :
    (s.setCache k d).caches.find k' = s.caches.find k' := by
  rw [State.setCache, Table.find_modify_of_ne _ _ _ h]

theorem find_setJob_self {r : CacheJob} {j : Job} (h : s.jobs.find k = some r) :
    (s.setJob k j).jobs.find k = some { r with job := j } := by
  rw [State.setJob, Table.find_modify_self, h]
  rfl

theorem find_setJob_of_ne {k' : Uuid} {j : Job} (h : k' ≠ k) :
    (s.setJob k j).jobs.find k' = s.jobs.find k' := by
  rw [State.setJob, Table.find_modify_of_ne _ _ _ h]

theorem Change.quiet (caches : s'.caches = s.caches) (jobs : s'.jobs = s.jobs)
    (objects : s'.objects = s.objects) : Change env s s' k where
  caches := fun k' _ => by rw [caches]
  jobs := fun k' _ => by rw [jobs]
  move := by
    rw [caches, jobs]
    exact .stay _ _
  key := fun c hn hc => by
    rw [caches, hn] at hc
    cases hc
  objects := .inl objects
  stored := fun c hc _ => .inl ⟨objects, caches ▸ hc⟩

theorem Change.row {c : SymbolCache} (hid : s.caches.find c.id = none)
    (hkey : ∀ other ∈ s.caches, other.objectKey ≠ c.objectKey) (hopen : c.done = false)
    (caches : s'.caches = s.caches.insert c) (jobs : s'.jobs = s.jobs)
    (objects : s'.objects = s.objects) : Change env s s' c.id := by
  have hself : s'.caches.find c.id = some c := by
    rw [caches]
    exact Table.find_insert_self hid
  constructor
  · intro k' hk'
    rw [caches]
    exact Table.find_insert_of_ne hk'
  · intro k' _
    rw [jobs]
  · rw [hid, hself, jobs]
    exact .opened c _ hopen
  · intro d _ hd
    cases hself.symm.trans hd
    exact hkey
  · exact .inl objects
  · intro d hd hdone
    cases hself.symm.trans hd
    rw [hopen] at hdone
    cases hdone

theorem Change.request (hs : Sound env s) {c : SymbolCache} {r : CacheJob}
    (hc : s.caches.find r.cacheId = some c) (hp : r.projectId = c.projectId)
    (hlive : r.job.state.terminal = false) (caches : s'.caches = s.caches)
    (jobs : s'.jobs = s.jobs.insert r) (objects : s'.objects = s.objects) :
    Change env s s' r.cacheId := by
  constructor
  · intro k' _
    rw [caches]
  · intro k' hk'
    rw [jobs]
    exact Table.find_insert_of_ne hk'
  · rw [caches, jobs, hc]
    cases hr : s.jobs.find r.cacheId with
    | none =>
      have hopen := hs.matched r.cacheId
      rw [hc, hr] at hopen
      rw [Table.find_insert_self hr]
      exact .requested c r hp hlive hopen
    | some old =>
      rw [insert_of_find hr, hr]
      exact .stay _ _
  · intro d hn hd
    rw [hc] at hn
    cases hn
  · exact .inl objects
  · intro d hd _
    exact .inl ⟨objects, caches ▸ hd⟩

theorem Change.work {r : CacheJob} {j : Job} (hr : s.jobs.find k = some r)
    (hlive : r.job.state.terminal = false) (hlive' : j.state.terminal = false)
    (caches : s'.caches = s.caches) (jobs : s'.jobs = (s.setJob k j).jobs)
    (objects : s'.objects = s.objects) : Change env s s' k := by
  constructor
  · intro k' _
    rw [caches]
  · intro k' hk'
    rw [jobs]
    exact find_setJob_of_ne hk'
  · rw [caches, jobs, hr, find_setJob_self hr]
    exact .worked _ r j hlive hlive'
  · intro d hn hd
    rw [caches, hn] at hd
    cases hd
  · exact .inl objects
  · intro d hd _
    exact .inl ⟨objects, caches ▸ hd⟩

theorem Change.mark {c : SymbolCache} {d : DerivedCache} (hc : s.caches.find k = some c)
    (hopen : c.done = false) (hd : d.state = .processing)
    (caches : s'.caches = (s.setCache k d).caches) (jobs : s'.jobs = s.jobs)
    (objects : s'.objects = s.objects) : Change env s s' k := by
  have hself : s'.caches.find k = some { c with state := .processing } := by
    rw [caches, find_setCache_self hc, hd]
  constructor
  · intro k' hk'
    rw [caches]
    exact find_setCache_of_ne hk'
  · intro k' _
    rw [jobs]
  · rw [hc, hself, jobs]
    exact .marked c _ hopen
  · intro e hn _
    rw [hc] at hn
    cases hn
  · exact .inl objects
  · intro e he hdone
    cases hself.symm.trans he
    cases hdone

theorem Change.put {c : SymbolCache} {file : List UInt8} (hc : s.caches.find k = some c)
    (hopen : c.done = false) (caches : s'.caches = s.caches) (jobs : s'.jobs = s.jobs)
    (objects : s'.objects = (s.putObject c.objectKey file).objects) : Change env s s' k := by
  constructor
  · intro k' _
    rw [caches]
  · intro k' _
    rw [jobs]
  · rw [caches, jobs]
    exact .stay _ _
  · intro e hn _
    rw [hc] at hn
    cases hn
  · refine .inr ⟨c, hc, hopen, fun key hkey => ?_⟩
    rw [objects]
    exact if_neg hkey
  · intro e he hdone
    rw [caches, hc] at he
    cases he
    rw [hopen] at hdone
    cases hdone

theorem Change.close {c : SymbolCache} {r : CacheJob} {d : DerivedCache} {j : Job}
    (hc : s.caches.find k = some c) (hr : s.jobs.find k = some r) (hopen : c.done = false)
    (hdone : ({ c with state := d.state } : SymbolCache).done = true)
    (hended : j.state.terminal = true) (caches : s'.caches = (s.setCache k d).caches)
    (jobs : s'.jobs = (s.setJob k j).jobs)
    (objects : ∀ key, key ≠ c.objectKey → s'.objects key = s.objects key)
    (hstored : Stored env s'.objects { c with state := d.state }) : Change env s s' k := by
  have hself : s'.caches.find k = some { c with state := d.state } := by
    rw [caches, find_setCache_self hc]
  constructor
  · intro k' hk'
    rw [caches]
    exact find_setCache_of_ne hk'
  · intro k' hk'
    rw [jobs]
    exact find_setJob_of_ne hk'
  · rw [hc, hr, hself, jobs, find_setJob_self hr]
    exact .closed c _ r j hopen rfl rfl hdone hended
  · intro e hn _
    rw [hc] at hn
    cases hn
  · exact .inr ⟨c, hc, hopen, objects⟩
  · intro e he _
    cases hself.symm.trans he
    exact .inr hstored

end
end FaultLane.SymbolCaches

import FaultLane.ReprocessingTurns
import FaultLane.RulesPublication

set_option autoImplicit false

/-!
# Runs in which redaction rules reach every event

Along the steps that meet `InTime` an event whose result is older than a request is due, or the
request has still to come to it. A first publication that waits for the project while a request
is expanded past its event keeps the rules it has read.
-/
namespace FaultLane.RulesPublication
open KeyedTable JobQueue TransitionSystem
open Reprocessing (Attempt Moves)

/-- The run of the attempt publishes under older rules. -/
def State.Behind (s : State) (version : Nat) (a : Attempt) : Prop :=
  ∃ p ∈ s.publications, p.token = a.token ∧ p.version < version

def State.Due (s : State) (version : Nat) (eventId : Uuid) : Prop :=
  s.jobs.Due (· = .completed) (s.Behind version) eventId

/-- The request has still to come to the event. -/
structure Request.Coming (q : Request) (c : Crash) : Prop where
  unfinished : q.state ≠ .complete
  cursor : ∀ cursor ∈ q.cursor, cursor < c.position
  page : ∀ page ∈ q.page, c.position ∈ page.events ∨ ∃ next ∈ page.next, next < c.position

structure Page.Sound (page : Page) (q : Request) (crashes : Table Crash.id) : Prop where
  event : ∀ x ∈ page.events, ∃ c ∈ crashes, c.position = x
  above : ∀ x ∈ page.events, ∀ cursor ∈ q.cursor, cursor < x
  below : ∀ x ∈ page.events, ∀ next ∈ page.next, x ≤ next
  last : ∀ next ∈ page.next, next ∈ page.events

structure Request.Sound (q : Request) (s : State) : Prop where
  version : q.version ≤ s.version
  dated : q.selectionBefore < s.now
  page : ∀ page ∈ q.page, q.state = .scheduling ∧ page.Sound q s.crashes

structure Published.Sound (p : Published) (version : Nat) : Prop where
  result : p.result ≤ version
  search : p.search = p.result
  facets : ∀ v ∈ p.facets, v = p.result

/-- A run that has the job of an event has read rules as new as those of its result. -/
structure Publication.Sound (p : Publication) (s : State) : Prop where
  version : p.version ≤ s.version
  attempt : ∃ a ∈ s.jobs.attempts, a.token = p.token
  newest : ∀ a ∈ s.jobs.attempts, a.token = p.token → ∀ e ∈ s.jobs.events, e.id = a.eventId →
    e.processJob.holds a.holder → ∀ c ∈ s.crashes, c.id = a.eventId → ∀ x ∈ c.current,
      x.result ≤ p.version

/-- What holds while the project row is locked. Requests of newer rules wait for an event whose
first result is about to be published. -/
def State.Locked (s : State) : ProjectLock → Prop
  | .publication token => ∃ p ∈ s.publications, p.token = token ∧
      ∀ a ∈ s.jobs.attempts, a.token = token → ∀ c ∈ s.crashes, c.id = a.eventId →
        c.current = none → ∀ q ∈ s.requests, p.version < q.version →
          c.receivedAt ≤ q.selectionBefore → q.waitsFor c
  | .update selectionBefore => ∀ t ∈ selectionBefore, t < s.now

structure State.Sound (s : State) : Prop where
  kinds : ∀ a ∈ s.jobs.attempts, a.kind = .processCrash
  requests : ∀ q ∈ s.requests, q.Sound s
  crashes : ∀ c ∈ s.crashes, ∀ p ∈ c.current, p.Sound s.version
  publications : ∀ p ∈ s.publications, p.Sound s
  lock : ∀ l ∈ s.lock, s.Locked l

/-- The rows of an event belong to requests that have come to it. -/
def State.Known (s : State) : Prop :=
  ∀ eventId requestId, s.jobs.Requested eventId requestId → ∃ q ∈ s.requests, q.id = requestId ∧
    (q.state ≠ .complete → ∃ cursor ∈ q.cursor, ∃ c ∈ s.crashes, c.id = eventId ∧
      c.position ≤ cursor)

def State.Reaches (s : State) : Prop :=
  ∀ q ∈ s.requests, ∀ c ∈ s.crashes, c.receivedAt ≤ q.selectionBefore → ∀ p ∈ c.current,
    p.result < q.version → s.Due q.version c.id ∨ q.Coming c

structure State.Invariant (s : State) : Prop where
  queue : Reprocessing.Invariant s.now s.jobs
  sound : s.Sound
  known : s.Known
  reaches : s.Reaches

section
variable {s s' u : State} {action : Action} {jobs : Reprocessing.State} {token requestId : Uuid}

theorem step_eq_some (h : step s action = some s') : ∃ jobs u,
    Reprocessing.step s.jobs (queueAction s action) = some jobs ∧ perform s action = some u ∧
      s' = { u with jobs := jobs } := by
  obtain ⟨jobs, hjobs, h⟩ := Option.bind_eq_some_iff.mp h
  obtain ⟨u, hu, h⟩ := Option.bind_eq_some_iff.mp h
  cases h
  exact ⟨jobs, u, hjobs, hu, rfl⟩

/-! ## The queue -/

/-- What every step of the queue leaves of runs and of the jobs they have. -/
structure Follows (jobs jobs' : Reprocessing.State) : Prop where
  clock : jobs'.clock = jobs.clock + 1
  mem : ∀ a ∈ jobs'.attempts,
    a ∈ jobs.attempts ∨ (jobs.attempts.find a.token = none ∧ a.kind = .processCrash)
  kept : ∀ a ∈ jobs.attempts, a ∈ jobs'.attempts
  held : ∀ a ∈ jobs.attempts, ∀ e' ∈ jobs'.events, e'.processJob.holds a.holder →
    ∃ e ∈ jobs.events, e.id = e'.id ∧ e.processJob.holds a.holder

theorem State.Sound.moves (h : s.Sound) {a : Reprocessing.Action} (hp : a.OfProcess)
    (hj : Reprocessing.step s.jobs a = some jobs) : Moves s.jobs a jobs :=
  Reprocessing.moves_of_step h.kinds hp hj

theorem follows_of_moves {a : Reprocessing.Action} (hm : Moves s.jobs a jobs)
    (hj : Reprocessing.step s.jobs a = some jobs) : Follows s.jobs jobs where
  clock := by
    obtain ⟨v, -, rfl⟩ := Option.map_eq_some_iff.mp hj
    rfl
  mem _ := hm.mem_attempts
  kept _ := hm.attempts_subset
  held b hb e' he' hh := by
    rcases hm.held he' hh with hfresh | hheld
    · exact absurd rfl (Table.find_eq_none.mp hfresh b hb)
    · exact hheld

theorem schedule_eq_some {eventIds : List Uuid}
    (h : Reprocessing.step s.jobs (.schedule requestId eventIds) = some jobs) :
    ∃ v, Reprocessing.State.putAll (Reprocessing.Event.schedule · requestId s.jobs.now s.now)
      eventIds s.jobs = some v ∧ jobs = { v with clock := s.now + 1 } := by
  obtain ⟨v, hv, rfl⟩ := Option.map_eq_some_iff.mp h
  exact ⟨v, hv, rfl⟩

theorem follows_of_schedule {eventIds : List Uuid}
    (h : Reprocessing.step s.jobs (.schedule requestId eventIds) = some jobs) :
    Follows s.jobs jobs := by
  obtain ⟨v, hv, rfl⟩ := schedule_eq_some h
  have hattempts : v.attempts = s.jobs.attempts := Reprocessing.putAll_attempts hv
  refine ⟨rfl, fun a ha => .inl (hattempts ▸ ha), fun a ha => ?_, fun a _ e' he' hh => ?_⟩
  · exact hattempts.symm ▸ ha
  · exact Reprocessing.held_putAll hv he' hh

/-- A run that publishes was there before the step. -/
theorem State.Sound.mem_attempts (h : s.Sound) (hf : Follows s.jobs jobs) {p : Publication}
    (hp : p ∈ s.publications) {a : Attempt} (ha : a ∈ jobs.attempts) (ht : a.token = p.token) :
    a ∈ s.jobs.attempts := by
  obtain ⟨b, hb, hbt⟩ := (h.publications p hp).attempt
  refine (hf.mem a ha).resolve_right fun ⟨hfresh, _⟩ => ?_
  exact absurd (hbt.trans ht.symm) (Table.find_eq_none.mp hfresh b hb)

theorem State.Sound.follow (h : s.Sound) (hf : Follows s.jobs jobs) :
    { s with jobs := jobs }.Sound := by
  have hnow : s.now ≤ jobs.clock := hf.clock ▸ Nat.le_succ _
  refine ⟨fun a ha => ?_, fun q hq => ?_, h.crashes, fun p hp => ?_, fun l hl => ?_⟩
  · exact (hf.mem a ha).elim (h.kinds a) And.right
  · have hsound := h.requests q hq
    exact ⟨hsound.version, hsound.dated.trans_le hnow, hsound.page⟩
  · have hsound := h.publications p hp
    obtain ⟨a, ha, ht⟩ := hsound.attempt
    refine ⟨hsound.version, ⟨a, hf.kept a ha, ht⟩, fun b hb hbt e he hid hh => ?_⟩
    have hb := h.mem_attempts hf hp hb hbt
    obtain ⟨e₀, he₀, hid₀, hh₀⟩ := hf.held b hb e he hh
    exact hsound.newest b hb hbt e₀ he₀ (hid₀.trans hid) hh₀
  · have hlocked := h.lock l hl
    cases l with
    | publication token =>
      obtain ⟨p, hp, hpt, hwaits⟩ := hlocked
      exact ⟨p, hp, hpt, fun a ha ht => hwaits a (h.mem_attempts hf hp ha (ht.trans hpt.symm)) ht⟩
    | update selectionBefore => exact fun t ht => (hlocked t ht).trans_le hnow

/-- What is due stays due unless a run of the newest generation completes it. -/
theorem State.Sound.due (h : s.Sound) {a : Reprocessing.Action} (hp : a.OfProcess)
    (hj : Reprocessing.step s.jobs a = some jobs) {version : Nat} {eventId : Uuid}
    (hd : s.Due version eventId) : { s with jobs := jobs }.Due version eventId ∨
      ∃ b ∈ s.jobs.attempts, b.eventId = eventId ∧ a.completes = some b.token ∧
        ∀ e ∈ s.jobs.events, e.id = eventId → ¬ b.target < e.requestedGeneration := by
  have hover : ∀ j : JobState, j = .completed → j.terminal := by
    rintro j rfl
    rfl
  refine ((h.moves hp hj).due (s.Behind version) hover hd (fun _ _ hb => hb) ?_).imp_right ?_
  · rintro b hfresh ⟨p, hp, hpt, -⟩
    obtain ⟨b', hb', hbt⟩ := (h.publications p hp).attempt
    exact absurd (hbt.trans hpt) (Table.find_eq_none.mp hfresh b' hb')
  · rintro ⟨b, hb, hid, -, hlatest, j, rfl, hcompletes⟩
    exact ⟨b, hb, hid, hcompletes rfl, hlatest⟩

theorem State.Invariant.move (h : s.Invariant) {a : Reprocessing.Action} (hp : a.OfProcess)
    (hc : a.completes = none) (hb : Reprocessing.Benign s.jobs a)
    (hj : Reprocessing.step s.jobs a = some jobs) : { s with jobs := jobs }.Invariant := by
  have hm := h.sound.moves hp hj
  refine ⟨h.queue.step hb hj, h.sound.follow (follows_of_moves hm hj), ?_, ?_⟩
  · exact fun eventId requestId hr => h.known eventId requestId (hm.requested hr)
  · intro q hq c hcm hle p hpc hlt
    refine (h.reaches q hq c hcm hle p hpc hlt).imp_left fun hd => ?_
    refine (h.sound.due hp hj hd).resolve_right fun ⟨b, _, _, hcb, _⟩ => ?_
    rw [hc] at hcb
    cases hcb

/-! ## Events -/

theorem State.Due.mono {version version' : Nat} {eventId : Uuid} (hd : s.Due version eventId)
    (hb : ∀ a, State.Behind s' version' a → s.Behind version a) (hj : s'.jobs = s.jobs) :
    s'.Due version' eventId := by
  obtain ⟨e, he, hid, hopen, hbehind⟩ := hd
  refine ⟨e, hj ▸ he, hid, hopen, fun a ha hae hh hba => ?_⟩
  exact hbehind a (hj ▸ ha) hae hh (hb a hba)

theorem State.Invariant.insertCrash (h : s.Invariant) {eventId : Uuid} {receivedAt : Nat}
    (hfresh : s.crashes.find eventId = none)
    (hlate : ∀ q ∈ s.requests, q.selectionBefore < receivedAt) :
    { s with crashes := s.crashes.insert ⟨eventId, receivedAt, none⟩ }.Invariant := by
  have hmem : ∀ c, c ∈ s.crashes.insert ⟨eventId, receivedAt, none⟩ ↔
      c = ⟨eventId, receivedAt, none⟩ ∨ c ∈ s.crashes := fun c => Table.mem_insert hfresh
  refine ⟨h.queue, ⟨h.sound.kinds, fun q hq => ?_, fun c hc p hp => ?_, fun p hp => ?_,
    fun l hl => ?_⟩, fun e r hr => ?_, fun q hq c hc hle p hp hlt => ?_⟩
  · have hsound := h.sound.requests q hq
    refine ⟨hsound.version, hsound.dated, fun page hpage => ?_⟩
    obtain ⟨hstate, hpage⟩ := hsound.page page hpage
    refine ⟨hstate, fun x hx => ?_, hpage.above, hpage.below, hpage.last⟩
    obtain ⟨c, hc, hcx⟩ := hpage.event x hx
    exact ⟨c, (hmem c).mpr (.inr hc), hcx⟩
  · rcases (hmem c).mp hc with rfl | hc
    · cases hp
    · exact h.sound.crashes c hc p hp
  · have hsound := h.sound.publications p hp
    refine ⟨hsound.version, hsound.attempt, fun a ha hat e he hid hh c hc hce x hx => ?_⟩
    rcases (hmem c).mp hc with rfl | hc
    · cases hx
    · exact hsound.newest a ha hat e he hid hh c hc hce x hx
  · have hlocked := h.sound.lock l hl
    cases l with
    | publication token =>
      obtain ⟨p, hp, hpt, hwaits⟩ := hlocked
      refine ⟨p, hp, hpt, fun a ha hat c hc hce hnone q hq hlt hle => ?_⟩
      rcases (hmem c).mp hc with rfl | hc
      · exact absurd (hlate q hq) (Nat.not_lt.mpr hle)
      · exact hwaits a ha hat c hc hce hnone q hq hlt hle
    | update selectionBefore => exact hlocked
  · obtain ⟨q, hq, hid, hcome⟩ := h.known e r hr
    refine ⟨q, hq, hid, fun hopen => ?_⟩
    obtain ⟨cursor, hcursor, c, hc, hce⟩ := hcome hopen
    exact ⟨cursor, hcursor, c, (hmem c).mpr (.inr hc), hce⟩
  · rcases (hmem c).mp hc with rfl | hc
    · cases hp
    · exact h.reaches q hq c hc hle p hp hlt

/-! ## Publications and locks -/

theorem State.Invariant.setLock (h : s.Invariant) {lock : Option ProjectLock}
    (hl : ∀ l ∈ lock, s.Locked l) : { s with lock := lock }.Invariant := by
  refine ⟨h.queue, ⟨h.sound.kinds, fun q hq => ?_, h.sound.crashes, fun p hp => ?_, fun l hlock => ?_⟩,
    h.known, h.reaches⟩
  · have hsound := h.sound.requests q hq
    exact ⟨hsound.version, hsound.dated, hsound.page⟩
  · have hsound := h.sound.publications p hp
    exact ⟨hsound.version, hsound.attempt, hsound.newest⟩
  · have hlocked := hl l hlock
    cases l with
    | publication token => exact hlocked
    | update selectionBefore => exact hlocked

theorem State.Invariant.free (h : s.Invariant) : { s with lock := none }.Invariant :=
  h.setLock nofun

theorem State.Invariant.insertPublication (h : s.Invariant)
    (hfresh : s.publications.find token = none) (hrun : ∃ a ∈ s.jobs.attempts, a.token = token) :
    { s with publications := s.publications.insert ⟨token, s.version⟩ }.Invariant := by
  have hmem : ∀ p, p ∈ s.publications.insert ⟨token, s.version⟩ ↔
      p = ⟨token, s.version⟩ ∨ p ∈ s.publications := fun p => Table.mem_insert hfresh
  refine ⟨h.queue, ⟨h.sound.kinds, fun q hq => ?_, h.sound.crashes, fun p hp => ?_,
    fun l hl => ?_⟩, h.known, fun q hq c hc hle p hp hlt => ?_⟩
  · have hsound := h.sound.requests q hq
    exact ⟨hsound.version, hsound.dated, hsound.page⟩
  · rcases (hmem p).mp hp with rfl | hp
    · refine ⟨le_rfl, hrun, fun a _ _ e _ _ _ c hc _ x hx => ?_⟩
      exact (h.sound.crashes c hc x hx).result
    · have hsound := h.sound.publications p hp
      exact ⟨hsound.version, hsound.attempt, hsound.newest⟩
  · have hlocked := h.sound.lock l hl
    cases l with
    | publication token =>
      obtain ⟨p, hp, hpt, hwaits⟩ := hlocked
      exact ⟨p, (hmem p).mpr (.inr hp), hpt, hwaits⟩
    | update selectionBefore => exact hlocked
  · refine (h.reaches q hq c hc hle p hp hlt).imp_left fun hd => hd.mono ?_ rfl
    rintro a ⟨p, hp, hpt, hbehind⟩
    rcases (hmem p).mp hp with rfl | hp
    · exact absurd hbehind (Nat.not_lt.mpr (h.sound.requests q hq).version)
    · exact ⟨p, hp, hpt, hbehind⟩

theorem State.Invariant.deletePublication (h : s.Invariant)
    (hl : s.lock ≠ some (.publication token)) :
    { s with publications := s.publications.delete token }.Invariant := by
  refine ⟨h.queue, ⟨h.sound.kinds, fun q hq => ?_, h.sound.crashes, fun p hp => ?_,
    fun l hlock => ?_⟩, h.known, fun q hq c hc hle p hp hlt => ?_⟩
  · have hsound := h.sound.requests q hq
    exact ⟨hsound.version, hsound.dated, hsound.page⟩
  · have hsound := h.sound.publications p (Table.mem_delete.mp hp).1
    exact ⟨hsound.version, hsound.attempt, hsound.newest⟩
  · have hlocked := h.sound.lock l hlock
    cases l with
    | publication held =>
      obtain ⟨p, hp, hpt, hwaits⟩ := hlocked
      refine ⟨p, Table.mem_delete.mpr ⟨hp, fun ht => hl ?_⟩, hpt, hwaits⟩
      rw [← ht, hpt]
      exact hlock
    | update selectionBefore => exact hlocked
  · refine (h.reaches q hq c hc hle p hp hlt).imp_left fun hd => hd.mono ?_ rfl
    rintro a ⟨p, hp, hpt, hbehind⟩
    exact ⟨p, (Table.mem_delete.mp hp).1, hpt, hbehind⟩

/-! ## Requests -/

/-- A new request comes to every event that was there before it. -/
theorem State.Invariant.commitUpdate (h : s.Invariant) {selectionBefore : Nat}
    (hdate : selectionBefore < s.now) (hfresh : s.requests.find requestId = none) :
    { s with
      version := s.version + 1
      lock := none
      requests := s.requests.insert
        ⟨requestId, s.version + 1, selectionBefore, none, .pending, none⟩ }.Invariant := by
  have hmem : ∀ q, q ∈ s.requests.insert
      ⟨requestId, s.version + 1, selectionBefore, none, .pending, none⟩ ↔
      q = ⟨requestId, s.version + 1, selectionBefore, none, .pending, none⟩ ∨ q ∈ s.requests :=
    fun q => Table.mem_insert hfresh
  refine ⟨h.queue, ⟨h.sound.kinds, fun q hq => ?_, fun c hc p hp => ?_, fun p hp => ?_, nofun⟩,
    fun e r hr => ?_, fun q hq c hc hle p hp hlt => ?_⟩
  · rcases (hmem q).mp hq with rfl | hq
    · exact ⟨le_rfl, hdate, nofun⟩
    · have hsound := h.sound.requests q hq
      exact ⟨hsound.version.trans (Nat.le_succ _), hsound.dated, hsound.page⟩
  · have hsound := h.sound.crashes c hc p hp
    exact ⟨hsound.result.trans (Nat.le_succ _), hsound.search, hsound.facets⟩
  · have hsound := h.sound.publications p hp
    exact ⟨hsound.version.trans (Nat.le_succ _), hsound.attempt, hsound.newest⟩
  · obtain ⟨q, hq, hid, hcome⟩ := h.known e r hr
    exact ⟨q, (hmem q).mpr (.inr hq), hid, hcome⟩
  · rcases (hmem q).mp hq with rfl | hq
    · exact .inr ⟨nofun, nofun, nofun⟩
    · exact h.reaches q hq c hc hle p hp hlt

theorem mem_putRequest {q old x : Request} (hq : s.requests.find q.id = some old) :
    x ∈ (s.putRequest q).requests ↔ (x ∈ s.requests ∧ x.id ≠ q.id) ∨ x = q := by
  have hid : old.id = q.id := (Table.find_eq_some.mp hq).2
  have heq : { q with id := old.id } = q := by
    rw [hid]
  simp only [State.putRequest, Table.mem_modify, hq, Option.some.injEq, exists_eq_left', heq]

/-- A request that is changed does not wait, or nobody has the project. -/
theorem State.Sound.putRequest (h : s.Sound) {q old : Request}
    (hq : s.requests.find q.id = some old) (hsound : q.Sound s)
    (hv : q.version = old.version) (hb : q.selectionBefore = old.selectionBefore)
    (hl : s.lock = none ∨ old.state ≠ .pending) : (s.putRequest q).Sound := by
  refine ⟨h.kinds, fun x hx => ?_, h.crashes, fun p hp => ?_, fun l hlock => ?_⟩
  · rcases (mem_putRequest hq).mp hx with ⟨hx, -⟩ | rfl
    · have hx := h.requests x hx
      exact ⟨hx.version, hx.dated, hx.page⟩
    · exact ⟨hsound.version, hsound.dated, hsound.page⟩
  · have hp := h.publications p hp
    exact ⟨hp.version, hp.attempt, hp.newest⟩
  · have hlocked := h.lock l hlock
    cases l with
    | publication token =>
      obtain ⟨p, hp, hpt, hwaits⟩ := hlocked
      refine ⟨p, hp, hpt, fun a ha hat c hc hce hnone x hx hlt hle => ?_⟩
      rcases (mem_putRequest hq).mp hx with ⟨hx, -⟩ | rfl
      · exact hwaits a ha hat c hc hce hnone x hx hlt hle
      · rw [hv] at hlt
        rw [hb] at hle
        have hold := hwaits a ha hat c hc hce hnone old (Table.find_eq_some.mp hq).1 hlt hle
        rcases hl with hfree | hopen
        · cases hfree.symm.trans hlock
        · exact absurd hold.1 hopen
    | update selectionBefore => exact hlocked

theorem State.Invariant.putRequest (h : s.Invariant) {q old : Request}
    (hq : s.requests.find q.id = some old) (hsound : q.Sound s) (hv : q.version = old.version)
    (hb : q.selectionBefore = old.selectionBefore) (hl : s.lock = none ∨ old.state ≠ .pending)
    (hcursor : q.cursor = old.cursor) (hopen : old.state ≠ .complete)
    (hcome : ∀ c ∈ s.crashes, c.receivedAt ≤ q.selectionBefore →
      (∃ p ∈ c.current, p.result < q.version) → old.Coming c → q.Coming c) :
    (s.putRequest q).Invariant := by
  obtain ⟨hold, hid⟩ := Table.find_eq_some.mp hq
  refine ⟨h.queue, h.sound.putRequest hq hsound hv hb hl, fun e r hr => ?_,
    fun x hx c hc hle p hp hlt => ?_⟩
  · obtain ⟨x, hx, hxr, hpast⟩ := h.known e r hr
    by_cases hxq : x.id = q.id
    · obtain rfl := Table.eq_of_key_eq hx hold (hxq.trans hid.symm)
      refine ⟨q, (mem_putRequest hq).mpr (.inr rfl), hxq.symm.trans hxr, fun _ => ?_⟩
      rw [hcursor]
      exact hpast hopen
    · exact ⟨x, (mem_putRequest hq).mpr (.inl ⟨hx, hxq⟩), hxr, hpast⟩
  · rcases (mem_putRequest hq).mp hx with ⟨hx, -⟩ | rfl
    · exact h.reaches x hx c hc hle p hp hlt
    · have hcome := hcome c hc hle ⟨p, hp, hlt⟩
      have hreach := h.reaches old hold c hc (hb ▸ hle) p hp (hv ▸ hlt)
      rw [← hv] at hreach
      exact hreach.imp_right hcome

theorem Request.mem_candidates (q : Request) (crashes : Table Crash.id) :
    (q.candidates crashes).Pairwise (· ≤ ·) ∧ ∀ x ∈ q.candidates crashes,
      ∃ c ∈ crashes, q.selects c ∧ c.position = x := by
  have hsorted : (((crashes.rows.filter q.selects).map Crash.position).insertionSort
      (· ≤ ·)).Pairwise (· ≤ ·) := List.pairwise_insertionSort _ _
  refine ⟨hsorted.sublist (List.take_sublist _ _), fun x hx => ?_⟩
  have hin := (List.mem_insertionSort _).mp (List.mem_of_mem_take hx)
  obtain ⟨c, hc, hcx⟩ := List.mem_map.mp hin
  obtain ⟨hc, hselects⟩ := List.mem_filter.mp hc
  exact ⟨c, hc, of_decide_eq_true hselects, hcx⟩

theorem Request.nextPage_sound (q : Request) (crashes : Table Crash.id) :
    (q.nextPage crashes).Sound q crashes := by
  have hmem := q.mem_candidates crashes
  have hevents : ∀ x ∈ (q.nextPage crashes).events, ∃ c ∈ crashes, q.selects c ∧ c.position = x :=
    fun x hx => hmem.2 x (List.mem_of_mem_take hx)
  have hnext : ∀ next ∈ (q.nextPage crashes).next, next ∈ (q.nextPage crashes).events ∧
      ∀ x ∈ (q.nextPage crashes).events, x ≤ next := fun next hnext => by
    unfold Request.nextPage at hnext
    dsimp only at hnext
    split_ifs at hnext with hlong
    · exact KeysetPage.le_last_of_take hmem.1 hnext
    · cases hnext
  refine ⟨fun x hx => ?_, fun x hx cursor hcursor => ?_, fun x hx next hn => (hnext next hn).2 x hx,
    fun next hn => (hnext next hn).1⟩
  · obtain ⟨c, hc, -, hcx⟩ := hevents x hx
    exact ⟨c, hc, hcx⟩
  · obtain ⟨c, -, hselects, rfl⟩ := hevents x hx
    exact hselects.2.2 cursor hcursor

/-- A selected event is on the page, or the next page begins before it. -/
theorem Request.nextPage_comes {q : Request} {crashes : Table Crash.id} {c : Crash}
    (hc : c ∈ crashes) (hs : q.selects c) : c.position ∈ (q.nextPage crashes).events ∨
      ∃ next ∈ (q.nextPage crashes).next, next < c.position := by
  have hin : c.position ∈ ((crashes.rows.filter q.selects).map Crash.position).insertionSort
      (· ≤ ·) :=
    (List.mem_insertionSort _).mpr (List.mem_map.mpr ⟨c, List.mem_filter.mpr ⟨hc, by simpa⟩, rfl⟩)
  have hsorted : (((crashes.rows.filter q.selects).map Crash.position).insertionSort
      (· ≤ ·)).Pairwise (· ≤ ·) := List.pairwise_insertionSort _ _
  have hevents : (q.nextPage crashes).events =
      (((crashes.rows.filter q.selects).map Crash.position).insertionSort (· ≤ ·)).take
        automaticReprocessingBatch := by
    unfold Request.nextPage Request.candidates
    dsimp only
    rw [List.take_take]
    rfl
  rw [hevents]
  refine (KeysetPage.mem_take_or_lt hsorted hin).imp_right fun ⟨hlong, hbelow⟩ => ?_
  have hlonger : automaticReprocessingBatch < (q.candidates crashes).length := by
    unfold Request.candidates
    rw [List.length_take]
    omega
  have hlast := List.getLast?_eq_some_getLast (KeysetPage.take_ne_nil (by decide) hlonger)
  refine ⟨_, (if_pos hlonger).trans hlast, hbelow _ ?_⟩
  rw [← hevents]
  exact List.mem_of_getLast? hlast

/-! ## Expansions -/

theorem Request.expanded_eq (q : Request) (page : Page) : (q.expanded page).id = q.id ∧
    (q.expanded page).version = q.version ∧
    (q.expanded page).selectionBefore = q.selectionBefore ∧ (q.expanded page).page = none := by
  unfold Request.expanded
  split <;> exact ⟨rfl, rfl, rfl, rfl⟩

theorem Request.expanded_unfinished {q : Request} {page : Page}
    (h : (q.expanded page).state ≠ .complete) :
    ∃ next ∈ page.next, (q.expanded page).cursor = some next := by
  unfold Request.expanded at *
  split at *
  · next next hnext => exact ⟨next, hnext, rfl⟩
  · exact absurd rfl h

theorem Request.Coming.expanded {q : Request} {page : Page} {c : Crash} {next : Position}
    (hn : next ∈ page.next) (hlt : next < c.position) : (q.expanded page).Coming c := by
  refine ⟨?_, ?_, ?_⟩
  · unfold Request.expanded
    rw [show page.next = some next from hn]
    exact nofun
  · unfold Request.expanded
    rw [show page.next = some next from hn]
    rintro cursor ⟨⟩
    exact hlt
  · rw [(Request.expanded_eq _ _).2.2.2]
    exact nofun

section
variable {q : Request} {page : Page}

theorem State.scheduled_eq (hq : s.requests.find requestId = some q) (hp : q.page = some page) :
    s.scheduled requestId = page.events.map fun position => (ofLex position).2 := by
  unfold State.scheduled
  rw [hq, Option.bind_some, hp]

theorem State.Known.expanded (hk : s.Known) (hq : s.requests.find requestId = some q)
    (hopen : q.state ≠ .complete) (hpage : page.Sound q s.crashes)
    (hr : ∀ eventId r, jobs.Requested eventId r → s.jobs.Requested eventId r ∨
      (r = requestId ∧ eventId ∈ page.events.map fun position => (ofLex position).2)) :
    ({ s with jobs := jobs }.putRequest (q.expanded page)).Known := by
  obtain ⟨hqm, hid⟩ := Table.find_eq_some.mp hq
  have hq' : s.requests.find (q.expanded page).id = some q := by
    rwa [(Request.expanded_eq _ _).1, hid]
  have hmem : ∀ x, x ∈ (s.putRequest (q.expanded page)).requests ↔
      (x ∈ s.requests ∧ x.id ≠ (q.expanded page).id) ∨ x = q.expanded page :=
    fun x => mem_putRequest hq'
  intro eventId r hrequested
  rcases hr eventId r hrequested with hold | ⟨rfl, hin⟩
  · obtain ⟨x, hx, hxr, hpast⟩ := hk eventId r hold
    by_cases hxq : x.id = (q.expanded page).id
    · obtain rfl := Table.eq_of_key_eq hx hqm (hxq.trans (Request.expanded_eq _ _).1)
      refine ⟨_, (hmem _).mpr (.inr rfl), hxq.symm.trans hxr, fun hunfinished => ?_⟩
      obtain ⟨next, hnext, hcursor⟩ := Request.expanded_unfinished hunfinished
      obtain ⟨cursor, hcur, c, hc, hce, hle⟩ := hpast hopen
      have hlt := hpage.above next (hpage.last next hnext) cursor hcur
      exact ⟨next, hcursor, c, hc, hce, hle.trans hlt.le⟩
    · exact ⟨x, (hmem x).mpr (.inl ⟨hx, hxq⟩), hxr, hpast⟩
  · refine ⟨_, (hmem _).mpr (.inr rfl), (Request.expanded_eq _ _).1.trans hid, fun hunfinished => ?_⟩
    obtain ⟨next, hnext, hcursor⟩ := Request.expanded_unfinished hunfinished
    obtain ⟨x, hx, rfl⟩ := List.mem_map.mp hin
    obtain ⟨c, hc, rfl⟩ := hpage.event x hx
    exact ⟨next, hcursor, c, hc, rfl, hpage.below _ hx next hnext⟩

theorem State.Invariant.schedulePage (h : s.Invariant)
    (hq : s.requests.find requestId = some q) (hp : q.page = some page)
    (hj : Reprocessing.step s.jobs (.schedule requestId (s.scheduled requestId)) = some jobs) :
    ({ s with jobs := jobs }.putRequest (q.expanded page)).Invariant := by
  obtain ⟨hqm, hid⟩ := Table.find_eq_some.mp hq
  have hq' : s.requests.find (q.expanded page).id = some q := by
    rwa [(Request.expanded_eq _ _).1, hid]
  have hsound := h.sound.requests q hqm
  obtain ⟨hstate, hpage⟩ := hsound.page page hp
  have hopen : q.state ≠ .complete := by
    rw [hstate]
    exact nofun
  have hf := follows_of_schedule hj
  have hfollow := h.sound.follow hf
  have hover : ∀ j : JobState, j = .completed → j.terminal := by
    rintro j rfl
    rfl
  obtain ⟨-, hversion, hbefore, hnone⟩ := q.expanded_eq page
  obtain ⟨v, hv, hjobs⟩ := schedule_eq_some hj
  rw [State.scheduled_eq hq hp] at hv
  have hdue : ∀ version eventId, s.Due version eventId →
      { s with jobs := jobs }.Due version eventId := fun version eventId hd => by
    rw [hjobs]
    have hput := Reprocessing.State.Due.putAll hover hd hv
    exact hput
  have hbenign : Reprocessing.Benign s.jobs (.schedule requestId (s.scheduled requestId)) := trivial
  refine ⟨h.queue.step hbenign hj, ?_, h.known.expanded hq hopen hpage fun eventId r hr => ?_,
    fun x hx c hc hle p hpc hlt => ?_⟩
  · refine hfollow.putRequest hq' ⟨?_, ?_, ?_⟩ hversion hbefore (.inr ?_)
    · rw [hversion]
      exact hsound.version
    · rw [hbefore]
      exact (hfollow.requests q hqm).dated
    · rw [hnone]
      exact nofun
    · rw [hstate]
      exact nofun
  · rw [hjobs] at hr
    exact Reprocessing.requested_putAll hv hr
  · rcases (mem_putRequest hq').mp hx with ⟨hx, -⟩ | rfl
    · exact (h.reaches x hx c hc hle p hpc hlt).imp_left (hdue x.version c.id)
    · rw [hversion] at hlt ⊢
      rw [hbefore] at hle
      rcases h.reaches q hqm c hc hle p hpc hlt with hd | hcoming
      · exact .inl (hdue q.version c.id hd)
      · rcases hcoming.page page hp with hin | ⟨next, hnext, hbelow⟩
        · refine .inl ?_
          have hnew : ¬ s.jobs.Requested c.id requestId := fun hr => by
            obtain ⟨x, hx, hxr, hpast⟩ := h.known _ _ hr
            obtain rfl := Table.eq_of_key_eq hx hqm (hxr.trans hid.symm)
            obtain ⟨cursor, hcursor, c', hc', hce, hle'⟩ := hpast hopen
            obtain rfl := Table.eq_of_key_eq hc' hc hce
            exact absurd (hpage.above _ hin cursor hcursor) (not_lt.mpr hle')
          have hput : v.Due (· = .completed) (s.Behind q.version) c.id :=
            Reprocessing.due_of_putAll hover (h.queue.mono (Nat.le_succ _)) h.sound.kinds
              (Nat.lt_succ_self _) (List.mem_map.mpr ⟨c.position, hin, rfl⟩) hnew hv
          rw [hjobs]
          exact hput
        · exact .inr (.expanded hnext hbelow)

end

/-! ## Publications that end -/

/-- The run that publishes, and the event whose job it has. -/
structure State.Publishes (s : State) (a : Attempt) (p : Publication) (e : Reprocessing.Event) :
    Prop where
  attempt : a ∈ s.jobs.attempts
  publication : p ∈ s.publications
  token : p.token = a.token
  event : e ∈ s.jobs.events
  id : e.id = a.eventId
  held : e.processJob.holds a.holder
  lock : s.lock = some (.publication a.token)

section
variable {a : Attempt} {p : Publication} {e : Reprocessing.Event} {facets : Nat}

theorem State.Publishes.result_le (hp : s.Publishes a p e) (h : s.Sound) {c : Crash}
    (hc : c ∈ s.crashes) (hid : c.id = a.eventId) : ∀ x ∈ c.current, x.result ≤ p.version :=
  (h.publications p hp.publication).newest a hp.attempt hp.token.symm e hp.event hp.id hp.held c hc
    hid

/-- Only the run that publishes has the job of its event. -/
theorem State.Publishes.unique (hp : s.Publishes a p e) {b : Attempt} (hb : b ∈ s.jobs.attempts)
    (hid : b.eventId = a.eventId) {e' : Reprocessing.Event} (he' : e' ∈ s.jobs.events)
    (hid' : e'.id = b.eventId) (hh : e'.processJob.holds b.holder) : b = a := by
  obtain rfl := Table.eq_of_key_eq he' hp.event (hid'.trans (hid.trans hp.id.symm))
  exact Reprocessing.Attempt.eq_of_holder hp.attempt hb (Job.holds_unique hh hp.held)

/-- The rest of a publication in the tables. -/
def State.published (s : State) (a : Attempt) (p : Publication) (facets : Nat) : State :=
  { s with
    lock := none
    publications := s.publications.delete a.token
    crashes := s.crashes.modify a.eventId
      (fun c => { c with current := some (.under p.version facets) }) fun _ => rfl }

theorem State.mem_published {c : Crash} : c ∈ (s.published a p facets).crashes ↔
    (c ∈ s.crashes ∧ c.id ≠ a.eventId) ∨ ∃ c₀, s.crashes.find a.eventId = some c₀ ∧
      c = { c₀ with current := some (.under p.version facets) } := by
  simp only [State.published, Table.mem_modify]

/-- An event keeps its place. -/
theorem State.published_kept {c : Crash} (hc : c ∈ s.crashes) :
    ∃ c' ∈ (s.published a p facets).crashes, c'.id = c.id ∧ c'.position = c.position := by
  by_cases hid : c.id = a.eventId
  · refine ⟨_, State.mem_published.mpr (.inr ⟨c, Table.find_eq_some.mpr ⟨hc, hid⟩, rfl⟩), rfl, rfl⟩
  · exact ⟨c, State.mem_published.mpr (.inl ⟨hc, hid⟩), rfl, rfl⟩

theorem State.Sound.published (h : s.Sound) (hp : s.Publishes a p e) :
    (s.published a p facets).Sound := by
  refine ⟨h.kinds, fun q hq => ?_, fun c hc x hx => ?_, fun p' hp' => ?_, nofun⟩
  · have hsound := h.requests q hq
    refine ⟨hsound.version, hsound.dated, fun page hpage => ?_⟩
    obtain ⟨hstate, hpage⟩ := hsound.page page hpage
    refine ⟨hstate, fun x hx => ?_, hpage.above, hpage.below, hpage.last⟩
    obtain ⟨c, hc, rfl⟩ := hpage.event x hx
    obtain ⟨c', hc', -, hposition⟩ := State.published_kept hc
    exact ⟨c', hc', hposition⟩
  · rcases State.mem_published.mp hc with ⟨hc, -⟩ | ⟨c₀, -, rfl⟩
    · exact h.crashes c hc x hx
    · cases hx
      exact ⟨(h.publications p hp.publication).version, rfl, fun v hv => List.eq_of_mem_replicate hv⟩
  · obtain ⟨hp', hne⟩ := Table.mem_delete.mp hp'
    have hsound := h.publications p' hp'
    refine ⟨hsound.version, hsound.attempt, fun b hb hbt e' he' hid hh c hc hce x hx => ?_⟩
    rcases State.mem_published.mp hc with ⟨hc, -⟩ | ⟨c₀, hc₀, rfl⟩
    · exact hsound.newest b hb hbt e' he' hid hh c hc hce x hx
    · have hevent : b.eventId = a.eventId := hce.symm.trans (Table.find_eq_some.mp hc₀).2
      obtain rfl := hp.unique hb hevent he' hid hh
      exact absurd hbt.symm hne

/-- The event of the run that publishes is due again, or the request comes to it. -/
theorem State.Invariant.reaches_published (h : s.Invariant) (hp : s.Publishes a p e) {q : Request}
    (hq : q ∈ s.requests) {c : Crash} (hc : s.crashes.find a.eventId = some c)
    (hle : c.receivedAt ≤ q.selectionBefore) (hlt : p.version < q.version) :
    (s.Due q.version c.id ∧ a.target < e.requestedGeneration) ∨ q.Coming c := by
  obtain ⟨hc, hid⟩ := Table.find_eq_some.mp hc
  cases hcurrent : c.current with
  | none =>
    obtain ⟨p', hp', hpt, hwaits⟩ := h.sound.lock _ hp.lock
    obtain rfl := Table.eq_of_key_eq hp' hp.publication (hpt.trans hp.token.symm)
    have hwaits := hwaits a hp.attempt rfl c hc hid hcurrent q hq hlt hle
    refine .inr ⟨?_, hwaits.2, fun page hpage => ?_⟩
    · rw [hwaits.1]
      exact nofun
    · have hstate := ((h.sound.requests q hq).page page hpage).1
      rw [hwaits.1] at hstate
      cases hstate
  | some x =>
    have holder := (hp.result_le h.sound hc hid x hcurrent).trans_lt hlt
    refine (h.reaches q hq c hc hle x hcurrent holder).imp_left fun hd => ⟨hd, ?_⟩
    obtain ⟨e', he', hid', -, hbehind⟩ := hd
    obtain rfl := Table.eq_of_key_eq he' hp.event (hid'.trans (hid.trans hp.id.symm))
    exact hbehind a hp.attempt hid.symm hp.held ⟨p, hp.publication, hp.token, hlt⟩

theorem State.Invariant.publish (h : s.Invariant) (hp : s.Publishes a p e)
    (hj : Reprocessing.step s.jobs (.publishCrashResult a.token) = some jobs) :
    { s.published a p facets with jobs := jobs }.Invariant := by
  have hprocess : Reprocessing.Action.OfProcess (.publishCrashResult a.token) := trivial
  have hbenign : Reprocessing.Benign s.jobs (.publishCrashResult a.token) := trivial
  have hm := h.sound.moves hprocess hj
  have hbehind : ∀ version b, (s.published a p facets).Behind version b → s.Behind version b := by
    rintro version b ⟨p', hp', hpt, hlt⟩
    exact ⟨p', (Table.mem_delete.mp hp').1, hpt, hlt⟩
  have hdue : ∀ version eventId, s.Due version eventId →
      (eventId = a.eventId → a.target < e.requestedGeneration) →
      { s.published a p facets with jobs := jobs }.Due version eventId := by
    intro version eventId hd htarget
    rcases h.sound.due hprocess hj hd with hd | ⟨b, hb, hid, hbt, hlatest⟩
    · exact hd.mono (hbehind version) rfl
    · obtain rfl := Table.eq_of_key_eq hb hp.attempt (Option.some.inj hbt).symm
      exact absurd (htarget hid.symm) (hlatest e hp.event (hp.id.trans hid))
  refine ⟨h.queue.step hbenign hj, (h.sound.published hp).follow (follows_of_moves hm hj),
    fun eventId r hr => ?_, fun q hq c hc hle x hx hlt => ?_⟩
  · obtain ⟨q, hq, hid, hpast⟩ := h.known eventId r (hm.requested hr)
    refine ⟨q, hq, hid, fun hopen => ?_⟩
    obtain ⟨cursor, hcursor, c, hc, hce, hle⟩ := hpast hopen
    obtain ⟨c', hc', hid', hposition⟩ := State.published_kept hc
    exact ⟨cursor, hcursor, c', hc', hid'.trans hce, hposition ▸ hle⟩
  · rcases State.mem_published.mp hc with ⟨hc, hne⟩ | ⟨c₀, hc₀, rfl⟩
    · exact (h.reaches q hq c hc hle x hx hlt).imp_left fun hd =>
        hdue q.version c.id hd fun hid => absurd hid hne
    · cases hx
      rcases h.reaches_published hp hq hc₀ hle hlt with ⟨hd, htarget⟩ | hcoming
      · exact .inl (hdue q.version c₀.id hd fun _ => htarget)
      · exact .inr ⟨hcoming.unfinished, hcoming.cursor, hcoming.page⟩

end

/-! ## Steps -/

theorem State.Sound.benign (h : s.Sound) : Reprocessing.Benign s.jobs (queueAction s action) := by
  cases action with
  | releaseJob token seconds resource dependency code =>
    intro a ha hk
    have hkind := h.kinds a (Table.find_eq_some.mp ha).1
    rw [hk] at hkind
    cases hkind
  | _ => exact trivial

theorem receive_eq_some {eventId : Uuid} (h : receive s eventId = some u) :
    s.crashes.find eventId = none ∧
      u = { s with crashes := s.crashes.insert ⟨eventId, s.now, none⟩ } := by
  unfold receive at h
  split_ifs at h with hold
  cases h
  exact ⟨Option.not_isSome_iff_eq_none.mp hold, rfl⟩

theorem startPublication_eq_some (h : startPublication s token = some u) :
    (∃ a ∈ s.jobs.attempts, a.token = token) ∧ s.publications.find token = none ∧
      u = { s with publications := s.publications.insert ⟨token, s.version⟩ } := by
  unfold startPublication at h
  split_ifs at h with hrun
  cases h
  obtain ⟨a, ha⟩ := Option.isSome_iff_exists.mp hrun.1
  exact ⟨⟨a, Table.find_eq_some.mp ha⟩, Option.isNone_iff_eq_none.mp hrun.2, rfl⟩

theorem grantPublication_eq_some (h : grantPublication s token = some u) :
    (∃ p, s.publications.find token = some p) ∧
      u = { s with lock := some (.publication token) } := by
  unfold grantPublication at h
  split_ifs at h with hfree
  cases h
  exact ⟨Option.isSome_iff_exists.mp hfree.2, rfl⟩

theorem publish_eq_some {facets : Nat} (h : publish s token facets = some u) :
    ∃ a p, s.jobs.attempts.find token = some a ∧ s.publications.find token = some p ∧
      s.lock = some (.publication token) ∧ u = s.published a p facets := by
  obtain ⟨a, ha, h⟩ := Option.bind_eq_some_iff.mp h
  obtain ⟨p, hp, h⟩ := Option.bind_eq_some_iff.mp h
  split_ifs at h with hl
  cases h
  refine ⟨a, p, ha, hp, hl, ?_⟩
  rw [← (Table.find_eq_some.mp ha).2]
  rfl

theorem beginUpdate_eq_some (h : beginUpdate s = some u) :
    u = { s with lock := some (.update none) } := by
  unfold beginUpdate at h
  split_ifs at h
  cases h
  rfl

theorem writeRules_eq_some (h : writeRules s = some u) :
    u = { s with lock := some (.update (some s.now)) } := by
  unfold writeRules at h
  split_ifs at h
  cases h
  rfl

theorem abandonUpdate_eq_some (h : abandonUpdate s = some u) : u = { s with lock := none } := by
  unfold abandonUpdate at h
  split at h
  · cases h
    rfl
  · cases h

theorem commitUpdate_eq_some (h : commitUpdate s requestId = some u) :
    ∃ selectionBefore, s.lock = some (.update (some selectionBefore)) ∧
      s.requests.find requestId = none ∧
      u = { s with
        version := s.version + 1
        lock := none
        requests := s.requests.insert
          ⟨requestId, s.version + 1, selectionBefore, none, .pending, none⟩ } := by
  unfold commitUpdate at h
  split at h
  · next selectionBefore hlock =>
    split_ifs at h with hused
    cases h
    exact ⟨selectionBefore, hlock, Option.not_isSome_iff_eq_none.mp hused, rfl⟩
  · cases h

theorem claimRequest_eq_some (h : claimRequest s requestId = some u) :
    ∃ q, s.requests.find requestId = some q ∧ s.lock = none ∧ q.state ≠ .complete ∧
      q.page = none ∧ u = s.putRequest { q with state := .scheduling } := by
  obtain ⟨q, hq, h⟩ := Option.bind_eq_some_iff.mp h
  split_ifs at h with hopen
  cases h
  exact ⟨q, hq, hopen.1, hopen.2.1, hopen.2.2, rfl⟩

theorem selectPage_eq_some (h : selectPage s requestId = some u) :
    ∃ q, s.requests.find requestId = some q ∧ q.state = .scheduling ∧
      u = s.putRequest { q with page := some (q.nextPage s.crashes) } := by
  obtain ⟨q, hq, h⟩ := Option.bind_eq_some_iff.mp h
  split_ifs at h with hopen
  cases h
  exact ⟨q, hq, hopen.1, rfl⟩

theorem schedulePage_eq_some (h : schedulePage s requestId = some u) :
    ∃ q page, s.requests.find requestId = some q ∧ q.page = some page ∧
      u = s.putRequest (q.expanded page) := by
  obtain ⟨q, hq, h⟩ := Option.bind_eq_some_iff.mp h
  obtain ⟨page, hpage, h⟩ := Option.bind_eq_some_iff.mp h
  cases h
  exact ⟨q, page, hq, hpage, rfl⟩

theorem abandonPage_eq_some (h : abandonPage s requestId = some u) :
    ∃ q page, s.requests.find requestId = some q ∧ q.page = some page ∧
      u = s.putRequest { q with page := none } := by
  obtain ⟨q, hq, h⟩ := Option.bind_eq_some_iff.mp h
  split_ifs at h with hopen
  cases h
  obtain ⟨page, hpage⟩ := Option.isSome_iff_exists.mp hopen
  exact ⟨q, page, hq, hpage, rfl⟩

theorem State.Invariant.abandonPublication (h : s.Invariant) :
    { s with
      lock := if s.lock = some (ProjectLock.publication token) then none else s.lock
      publications := s.publications.delete token }.Invariant := by
  split_ifs with hl
  · exact h.free.deletePublication nofun
  · exact h.deletePublication hl

theorem State.Invariant.claimRequest (h : s.Invariant) {q : Request}
    (hq : s.requests.find q.id = some q) (hl : s.lock = none) (hopen : q.state ≠ .complete)
    (hpage : q.page = none) : (s.putRequest { q with state := .scheduling }).Invariant := by
  have hsound := h.sound.requests q (Table.find_eq_some.mp hq).1
  refine h.putRequest hq ⟨hsound.version, hsound.dated, fun page hp => ?_⟩ rfl rfl (.inl hl) rfl hopen
    fun c _ _ _ hcoming => ⟨nofun, hcoming.cursor, hcoming.page⟩
  cases hpage.symm.trans hp

theorem State.Invariant.selectPage (h : s.Invariant) {q : Request}
    (hq : s.requests.find q.id = some q) (hstate : q.state = .scheduling) :
    (s.putRequest { q with page := some (q.nextPage s.crashes) }).Invariant := by
  have hsound := h.sound.requests q (Table.find_eq_some.mp hq).1
  have hpage := q.nextPage_sound s.crashes
  refine h.putRequest hq ⟨hsound.version, hsound.dated, ?_⟩ rfl rfl (.inr ?_) rfl ?_ ?_
  · rintro page ⟨⟩
    exact ⟨hstate, hpage.event, hpage.above, hpage.below, hpage.last⟩
  · rw [hstate]
    exact nofun
  · rw [hstate]
    exact nofun
  · intro c hc hle hold hcoming
    refine ⟨hcoming.unfinished, hcoming.cursor, ?_⟩
    rintro page ⟨⟩
    exact Request.nextPage_comes hc ⟨hle, hold, hcoming.cursor⟩

theorem State.Invariant.abandonPage (h : s.Invariant) {q : Request} {page : Page}
    (hq : s.requests.find q.id = some q) (hp : q.page = some page) :
    (s.putRequest { q with page := none }).Invariant := by
  have hsound := h.sound.requests q (Table.find_eq_some.mp hq).1
  have hstate := (hsound.page page hp).1
  refine h.putRequest hq ⟨hsound.version, hsound.dated, nofun⟩ rfl rfl (.inr ?_) rfl ?_
    fun c _ _ _ hcoming => ⟨hcoming.unfinished, hcoming.cursor, nofun⟩
  · rw [hstate]
    exact nofun
  · rw [hstate]
    exact nofun

theorem State.Invariant.step (h : s.Invariant) (ht : InTime s action)
    (hs : RulesPublication.step s action = some s') : s'.Invariant := by
  obtain ⟨jobs, u, hj, hp, rfl⟩ := step_eq_some hs
  have hmove : (queueAction s action).OfProcess → (queueAction s action).completes = none →
      { s with jobs := jobs }.Invariant := fun hprocess hnone =>
    h.move hprocess hnone h.sound.benign hj
  have hfollow : (queueAction s action).OfProcess → Follows s.jobs jobs := fun hprocess =>
    follows_of_moves (h.sound.moves hprocess hj) hj
  cases action with
  | tick seconds | beginClaim id | heartbeat token
  | releaseJob token seconds resource dependency code
  | finishFailure token quarantine resource code =>
    cases hp
    exact hmove trivial rfl
  | claim id eventId holder =>
    obtain ⟨-, hsame⟩ := Option.ite_none_right_eq_some.mp hp
    cases hsame
    exact hmove rfl rfl
  | receive eventId =>
    obtain ⟨hfresh, rfl⟩ := receive_eq_some hp
    exact (hmove trivial rfl).insertCrash hfresh fun q hq => (h.sound.requests q hq).dated
  | startPublication token =>
    obtain ⟨⟨a, ha, hat⟩, hfresh, rfl⟩ := startPublication_eq_some hp
    exact (hmove trivial rfl).insertPublication hfresh ⟨a, (hfollow trivial).kept a ha, hat⟩
  | grantPublication token =>
    obtain ⟨⟨p, hpub⟩, rfl⟩ := grantPublication_eq_some hp
    obtain ⟨hpm, hpt⟩ := Table.find_eq_some.mp hpub
    refine (hmove trivial rfl).setLock ?_
    rintro l ⟨⟩
    refine ⟨p, hpm, hpt, fun a ha hat c hc hce hnone q hq hlt hle => ?_⟩
    have ha := h.sound.mem_attempts (hfollow trivial) hpm ha (hat.trans hpt.symm)
    exact ht p hpub a (Table.find_eq_some.mpr ⟨ha, hat⟩) c (Table.find_eq_some.mpr ⟨hc, hce⟩) hnone q
      hq hlt hle
  | publish token facets =>
    obtain ⟨a, p, ha, hpub, hlock, rfl⟩ := publish_eq_some hp
    obtain ⟨ham, rfl⟩ := Table.find_eq_some.mp ha
    obtain ⟨hpm, hpt⟩ := Table.find_eq_some.mp hpub
    obtain ⟨b, e, hat, hheld⟩ := Reprocessing.held_of_ends h.sound.kinds rfl hj
    cases ha.symm.trans hat.attempt
    exact h.publish ⟨ham, hpm, hpt, hat.event, hat.id, hheld, hlock⟩ hj
  | abandonPublication token =>
    cases hp
    exact (hmove trivial rfl).abandonPublication
  | beginUpdate =>
    obtain rfl := beginUpdate_eq_some hp
    refine (hmove trivial rfl).setLock ?_
    rintro l ⟨⟩
    exact nofun
  | writeRules =>
    obtain rfl := writeRules_eq_some hp
    refine (hmove trivial rfl).setLock ?_
    rintro l ⟨⟩ t ⟨⟩
    have hclock : jobs.clock = s.now + 1 := (hfollow trivial).clock
    exact (Nat.lt_succ_self s.now).trans_eq hclock.symm
  | commitUpdate requestId =>
    obtain ⟨selectionBefore, hlock, hfresh, rfl⟩ := commitUpdate_eq_some hp
    have hu := hmove trivial rfl
    exact hu.commitUpdate (hu.sound.lock _ hlock selectionBefore rfl) hfresh
  | abandonUpdate =>
    obtain rfl := abandonUpdate_eq_some hp
    exact (hmove trivial rfl).free
  | claimRequest requestId =>
    obtain ⟨q, hq, hfree, hopen, hpage, rfl⟩ := claimRequest_eq_some hp
    obtain rfl := (Table.find_eq_some.mp hq).2
    exact (hmove trivial rfl).claimRequest hq hfree hopen hpage
  | selectPage requestId =>
    obtain ⟨q, hq, hstate, rfl⟩ := selectPage_eq_some hp
    obtain rfl := (Table.find_eq_some.mp hq).2
    exact (hmove trivial rfl).selectPage hq hstate
  | schedulePage requestId =>
    obtain ⟨q, page, hq, hpage, rfl⟩ := schedulePage_eq_some hp
    exact h.schedulePage hq hpage hj
  | abandonPage requestId =>
    obtain ⟨q, page, hq, hpage, rfl⟩ := abandonPage_eq_some hp
    obtain rfl := (Table.find_eq_some.mp hq).2
    exact (hmove trivial rfl).abandonPage hq hpage

theorem State.Invariant.init : State.Invariant .init where
  queue := Reprocessing.Invariant.init
  sound := ⟨nofun, nofun, nofun, nofun, nofun⟩
  known := by
    rintro eventId requestId ⟨e, he, -⟩
    cases he
  reaches := nofun

theorem invariant_of_reachable
    (h : Reachable (restrict RulesPublication.step InTime) (fun _ => True) .init s) :
    s.Invariant :=
  h.invariant State.Invariant .init fun _ _ _ _ hi hs _ =>
    hi.step (restrict_eq_some.mp hs).1 (restrict_eq_some.mp hs).2

/-- A complete request comes to no event, and nothing is due once all jobs have completed. -/
theorem reached_of_reachable
    (h : Reachable (restrict RulesPublication.step InTime) (fun _ => True) .init s) :
    s.Reached := by
  have hi := invariant_of_reachable h
  intro q hq hcomplete hjobs c hc hle p hp
  have hsound := hi.sound.crashes c hc p hp
  have hresult : q.version ≤ p.result := by
    by_contra hlt
    rcases hi.reaches q hq c hc hle p hp (Nat.not_le.mp hlt) with ⟨e, he, -, hopen, -⟩ | hcoming
    · exact hopen (hjobs e he)
    · exact hcoming.unfinished hcomplete
  refine ⟨hresult, ?_, fun v hv => ?_⟩
  · rwa [hsound.search]
  · rwa [hsound.facets v hv]

end

/-- A run reads the rules, and then an update is committed. -/
def readBefore : List Action :=
  [.receive 1, .beginClaim 1, .claim 1 1 ⟨7, 71⟩, .startPublication 71, .beginUpdate, .writeRules,
    .commitUpdate 9]

/-- The run gets the project before the request does. -/
def grantedFirst : List Action := readBefore ++
  [.grantPublication 71, .publish 71 1, .claimRequest 9, .selectPage 9, .schedulePage 9,
    .beginClaim 2, .claim 2 1 ⟨7, 72⟩, .startPublication 72, .grantPublication 72, .publish 72 1]

/-- The request is claimed while the run waits, and finds no result of the event. -/
def grantedLast : List Action := readBefore ++
  [.claimRequest 9, .selectPage 9, .schedulePage 9, .grantPublication 71, .publish 71 1]

/-- The one request is complete and so are all jobs. -/
def State.Settled (s : State) : Prop :=
  (∀ q ∈ s.requests.rows, q.state = .complete) ∧
    ∀ e ∈ s.jobs.events.rows, e.processJob.state = .completed

instance (s : State) : Decidable s.Settled := inferInstanceAs (Decidable (_ ∧ _))

instance (p : Published) (version : Nat) : Decidable (p.atLeast version) :=
  inferInstanceAs (Decidable (_ ∧ _ ∧ _))

theorem reached_grantedFirst : ∃ s,
    Reachable (restrict step InTime) (fun _ => True) .init s ∧ s.Settled ∧ s.Reached ∧
      ∃ c ∈ s.crashes.rows, ∃ p ∈ c.current, p.atLeast 1 := by
  have hrun : (run (restrict step InTime) (fun _ => True) .init grantedFirst).isSome := by
    decide +kernel
  obtain ⟨s, hs⟩ := Option.isSome_iff_exists.mp hrun
  have hreach := Reachable.of_run (.init trivial) hs
  have hend : ∀ u ∈ run (restrict step InTime) (fun _ => True) .init grantedFirst,
      u.Settled ∧ ∃ c ∈ u.crashes.rows, ∃ p ∈ c.current, p.atLeast 1 := by
    decide +kernel
  obtain ⟨hsettled, hcurrent⟩ := hend s hs
  exact ⟨s, hreach, hsettled, reached_of_reachable hreach, hcurrent⟩

/-- The event keeps a result of the rules before the update. -/
theorem not_reached_grantedLast : ¬ ∀ s, Reachable step (fun _ => True) .init s → s.Reached := by
  intro hreached
  have hrun : (run step (fun _ => True) .init grantedLast).isSome := by
    decide +kernel
  obtain ⟨s, hs⟩ := Option.isSome_iff_exists.mp hrun
  have hend : ∀ u ∈ run step (fun _ => True) .init grantedLast, u.Settled ∧
      ∃ q ∈ u.requests.rows, ∃ c ∈ u.crashes.rows, c.receivedAt ≤ q.selectionBefore ∧
        ∃ p ∈ c.current, ¬ p.atLeast q.version := by
    decide +kernel
  obtain ⟨⟨hcomplete, hjobs⟩, q, hq, c, hc, hle, p, hp, hold⟩ := hend s hs
  have hall := hreached s (Reachable.of_run (.init trivial) hs)
  exact hold (hall q hq (hcomplete q hq) hjobs c hc hle p hp)

end FaultLane.RulesPublication

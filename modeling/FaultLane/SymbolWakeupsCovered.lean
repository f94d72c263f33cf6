import FaultLane.KeysetPage
import FaultLane.ReprocessingTurns
import FaultLane.SymbolWakeups

set_option autoImplicit false

/-!
# No wake-up is lost

A result that misses an artifact has a job that still has to run, or a request that has not
come to the event yet. What a step does to the tables and what it does to the queue are
followed apart.
-/
namespace FaultLane.SymbolWakeups
open KeyedTable JobQueue TransitionSystem
open CrashSymbols (ReleaseLookup SelectedArtifact asciiLowercase)
open Reprocessing (Attempt)

/-- A request on its way to the event, for the artifact or for one that a waiter asks for. -/
def Database.Coming (lower : String → String) (db : Database) (c : Crash) (manifestId : Uuid) :
    Prop :=
  ∃ q ∈ db.requests, q.unfinished ∧ (∀ cursor ∈ q.cursor, cursor < c.id) ∧
    ∃ m ∈ db.artifacts, m.id = q.key.manifestId ∧ m.availableAt.isSome ∧
      (m.id = manifestId ∨ q.key.isWaiter) ∧ ∃ r ∈ db.releases, r.id = m.releaseId ∧
        (c.awaited lower q.selectionBefore m ∨ c.unmapped lower q.selectionBefore m r)

def Database.Covered (lower : String → String) (db : Database) (due : Nat → Uuid → Prop) : Prop :=
  ∀ c ∈ db.crashes, ∀ p ∈ c.current, ∀ m ∈ db.artifacts, ∀ since ∈ m.availableAt,
    db.Wants lower p m → p.readAt < since → due since c.id ∨ db.Coming lower c m.id

/-- The rows of the tables refer to each other, and none is dated after the clock. -/
structure Database.Sound (db : Database) (clock : Nat) : Prop where
  release : ∀ m ∈ db.artifacts, ∃ r ∈ db.releases, r.id = m.releaseId ∧
    m.artifact.architecture = r.key.architecture
  available : ∀ m ∈ db.artifacts, ∀ since ∈ m.availableAt, since ≤ clock
  received : ∀ c ∈ db.crashes, c.receivedAt ≤ clock
  created : ∀ c ∈ db.crashes, ∀ p ∈ c.current, p.createdAt ≤ clock

/-- The run of the attempt read before that step. -/
def Database.Behind (db : Database) (since : Nat) (a : Attempt) : Prop :=
  ∃ r ∈ db.readings, r.token = a.token ∧ r.readAt < since

def State.Due (s : State) (since : Nat) (eventId : Uuid) : Prop :=
  s.jobs.Due (·.terminal) (s.db.Behind since) eventId

section
variable {lower : String → String} {db db' : Database} {clock : Nat} {due : Nat → Uuid → Prop}

/-! ## Rows that change -/

theorem Published.awaits_congr {p : Published} {m m' : Artifact}
    (ha : m'.artifact = m.artifact) (hr : m'.releaseId = m.releaseId) :
    p.awaits lower m' ↔ p.awaits lower m := by
  unfold Published.awaits
  rw [ha, hr]

theorem Database.Wants.congr {p : Published} {m m' : Artifact}
    (ha : m'.artifact = m.artifact) (hr : m'.releaseId = m.releaseId)
    (hreleases : db'.releases = db.releases) (h : db'.Wants lower p m') :
    db.Wants lower p m := by
  unfold Database.Wants Database.UniqueRelease at *
  rwa [Published.awaits_congr ha hr, hr, hreleases] at h

theorem Database.Coming.mono {c : Crash} {manifestId : Uuid}
    (h : db.Coming lower c manifestId)
    (hrequests : ∀ q ∈ db.requests, q.unfinished → ∃ q' ∈ db'.requests, q'.unfinished ∧
      q'.key = q.key ∧ q'.cursor = q.cursor ∧ q'.selectionBefore = q.selectionBefore)
    (hartifacts : ∀ m ∈ db.artifacts, m.availableAt.isSome →
      (m.id = manifestId ∨ ∃ q ∈ db.requests, q.unfinished ∧ q.key.isWaiter ∧
        q.key.manifestId = m.id) →
      ∃ m' ∈ db'.artifacts, m'.id = m.id ∧ m'.availableAt.isSome ∧ m'.artifact = m.artifact ∧
        m'.releaseId = m.releaseId)
    (hreleases : ∀ r ∈ db.releases, r ∈ db'.releases) : db'.Coming lower c manifestId := by
  obtain ⟨q, hq, hopen, hcursor, m, hm, hid, hav, hfor, r, hr, hrid, hwoken⟩ := h
  obtain ⟨q', hq', hopen', hkey, hcur, hsel⟩ := hrequests q hq hopen
  have hwanted : m.id = manifestId ∨ ∃ q ∈ db.requests, q.unfinished ∧ q.key.isWaiter ∧
      q.key.manifestId = m.id := hfor.imp_right fun hw => ⟨q, hq, hopen, hw, hid.symm⟩
  obtain ⟨m', hm', hid', hav', hartifact, hrelease⟩ := hartifacts m hm hav hwanted
  refine ⟨q', hq', hopen', ?_, m', hm', ?_, hav', ?_, r, hreleases r hr, ?_, ?_⟩
  · rwa [hcur]
  · rw [hid', hid, hkey]
  · rwa [hid', hkey]
  · rw [hrid, hrelease]
  · rw [hsel]
    refine hwoken.imp ?_ ?_
    · rintro ⟨p, hp, hle, ha⟩
      exact ⟨p, hp, hle, (Published.awaits_congr hartifact hrelease).mpr ha⟩
    · rintro ⟨p, hp, hle, hstate, l, hl, hmatch⟩
      refine ⟨p, hp, hle, hstate, l, hl, ?_⟩
      rwa [hartifact]

/-- Requests that nothing has happened to. -/
theorem Request.kept {requests requests' : Table Request.id}
    (h : ∀ q ∈ requests, q ∈ requests') : ∀ q ∈ requests, q.unfinished → ∃ q' ∈ requests',
      q'.unfinished ∧ q'.key = q.key ∧ q'.cursor = q.cursor ∧
        q'.selectionBefore = q.selectionBefore :=
  fun q hq hopen => ⟨q, h q hq, hopen, rfl, rfl, rfl⟩

theorem Database.Covered.mono {due' : Nat → Uuid → Prop} (h : db.Covered lower due)
    (hs : db.Sound clock) (hd : ∀ since ≤ clock, ∀ id, due since id → due' since id) :
    db.Covered lower due' := by
  intro c hc p hp m hm since hsince hw hlt
  have hbefore := hs.available m hm since hsince
  exact (h c hc p hp m hm since hsince hw hlt).imp_left (hd since hbefore _)

theorem Database.Sound.mono (h : db.Sound clock) {clock' : Nat} (hc : clock ≤ clock') :
    db.Sound clock' :=
  ⟨h.release, fun m hm since hs => (h.available m hm since hs).trans hc,
    fun c hcm => (h.received c hcm).trans hc, fun c hcm p hp => (h.created c hcm p hp).trans hc⟩

/-- The request that an artifact and the step it became available in give finds every event
that the artifact is wanted for. -/
theorem Database.Wants.woken {c : Crash} {p : Published} {m : Artifact}
    (h : db.Wants lower p m) (hs : db.Sound clock) (hc : c ∈ db.crashes) (hp : p ∈ c.current)
    (hm : m ∈ db.artifacts) : ∃ r ∈ db.releases, r.id = m.releaseId ∧
      (c.awaited lower clock m ∨ c.unmapped lower clock m r) := by
  obtain ⟨r, hr, hrid, harch⟩ := hs.release m hm
  refine ⟨r, hr, hrid, ?_⟩
  rcases h with ha | ⟨hmissing, l, hl, ⟨r', hr', hmatch⟩, hunique⟩
  · exact .inl ⟨p, hp, hs.created c hc p hp, ha⟩
  · have hrr : r' = r := Table.eq_of_key_eq hr' hr ((hunique r' hr' hmatch).trans hrid.symm)
    rw [hrr] at hmatch
    obtain ⟨hversion, hplatform, harchitecture, hconfiguration⟩ := hmatch
    refine .inr ⟨p, hp, hs.received c hc, .inl hmissing, l, hl, hversion.symm, hplatform.symm, ?_,
      hconfiguration.symm⟩
    rw [harch, harchitecture]

/-! ## Releases and artifacts -/

theorem Database.createRelease_eq_some {id : String} {key : ReleaseLookup}
    (h : db.createRelease id key = some db') : db.releases.find id = none ∧
      db' = { db with releases := db.releases.insert ⟨id, key⟩ } := by
  unfold Database.createRelease at h
  split_ifs at h with hold
  cases h
  exact ⟨Option.not_isSome_iff_eq_none.mp fun hf => hold (.inl hf), rfl⟩

theorem Database.Covered.createRelease (h : db.Covered lower due) (hs : db.Sound clock)
    {id : String} {key : ReleaseLookup} (hr : db.createRelease id key = some db') :
    db'.Covered lower due := by
  obtain ⟨hfresh, rfl⟩ := Database.createRelease_eq_some hr
  have hmem : ∀ r, r ∈ db.releases.insert ⟨id, key⟩ ↔ r = ⟨id, key⟩ ∨ r ∈ db.releases :=
    fun r => Table.mem_insert hfresh
  intro c hc p hp m hm since hsince hw hlt
  have hwants : db.Wants lower p m := by
    refine hw.imp_right fun ⟨hmissing, l, hl, ⟨r, hr, hmatch⟩, hunique⟩ =>
      ⟨hmissing, l, hl, ⟨r, ?_, hmatch⟩, fun r' hr' => hunique r' ((hmem r').mpr (.inr hr'))⟩
    -- An artifact of the new release cannot be there yet.
    rcases (hmem r).mp hr with rfl | hr'
    · obtain ⟨r₀, hr₀, hid, -⟩ := hs.release m hm
      have hnew : id = m.releaseId := hunique _ hr hmatch
      exact absurd (hid.trans hnew.symm) (Table.find_eq_none.mp hfresh r₀ hr₀)
    · exact hr'
  refine (h c hc p hp m hm since hsince hwants hlt).imp_right fun hcoming => ?_
  exact hcoming.mono (Request.kept fun _ hq => hq)
    (fun m' hm' hav _ => ⟨m', hm', rfl, hav, rfl, rfl⟩) fun r hr => (hmem r).mpr (.inr hr)

/-- One row that leaves the available ones. -/
structure Database.Withdraws (db : Database) (id : Uuid) (db' : Database) : Prop where
  releases : db'.releases = db.releases
  requests : db'.requests = db.requests
  crashes : db'.crashes = db.crashes
  readings : db'.readings = db.readings
  other : ∀ m ∈ db.artifacts, m.id ≠ id → m ∈ db'.artifacts
  mem : ∀ m ∈ db'.artifacts, (m ∈ db.artifacts ∧ m.id ≠ id) ∨ (m.availableAt = none ∧
    ∃ r ∈ db.releases, r.id = m.releaseId ∧ m.artifact.architecture = r.key.architecture)

theorem Database.mem_setAvailable {id : Uuid} {availableAt : Option Nat} {m : Artifact} :
    m ∈ (db.setAvailable id availableAt).artifacts ↔ (m ∈ db.artifacts ∧ m.id ≠ id) ∨
      ∃ m₀, db.artifacts.find id = some m₀ ∧ m = { m₀ with availableAt := availableAt } := by
  simp only [Database.setAvailable, Table.mem_modify]

theorem Database.withdraws_of_withdraw {id : Uuid} (hs : db.Sound clock)
    (h : db.withdraw id = some db') : db.Withdraws id db' := by
  unfold Database.withdraw at h
  split_ifs at h
  cases h
  refine ⟨rfl, rfl, rfl, rfl, fun m hm hne => ?_, fun m hm => ?_⟩
  · exact Database.mem_setAvailable.mpr (.inl ⟨hm, hne⟩)
  · rcases Database.mem_setAvailable.mp hm with hm | ⟨m₀, hm₀, rfl⟩
    · exact .inl hm
    · exact .inr ⟨rfl, hs.release m₀ (Table.find_eq_some.mp hm₀).1⟩

theorem Database.withdraws_of_negotiate {id : Uuid} {releaseId : String}
    {artifact : SelectedArtifact} (h : db.negotiate id releaseId artifact = some db') :
    db.Withdraws id db' := by
  obtain ⟨r, hr, h⟩ := Option.bind_eq_some_iff.mp h
  obtain ⟨hr, hid⟩ := Table.find_eq_some.mp hr
  split_ifs at h with harch
  have harch := not_not.mp harch
  cases hf : db.artifacts.find id with
  | none =>
    rw [hf] at h
    cases h
    have hmem : ∀ m, m ∈ db.artifacts.insert ⟨id, releaseId, artifact, none⟩ ↔
        m = ⟨id, releaseId, artifact, none⟩ ∨ m ∈ db.artifacts := fun m => Table.mem_insert hf
    refine ⟨rfl, rfl, rfl, rfl, fun m hm _ => (hmem m).mpr (.inr hm), fun m hm => ?_⟩
    · rcases (hmem m).mp hm with rfl | hm
      · exact .inr ⟨rfl, r, hr, hid, harch⟩
      · exact .inl ⟨hm, Table.find_eq_none.mp hf m hm⟩
  | some m₀ =>
    rw [hf] at h
    dsimp only at h
    split_ifs at h with hrelease
    cases h
    refine ⟨rfl, rfl, rfl, rfl, fun m hm hne => ?_, fun m hm => ?_⟩
    · simp only [Table.mem_modify]
      exact .inl ⟨hm, hne⟩
    · simp only [Table.mem_modify] at hm
      rcases hm with hm | ⟨m₁, hm₁, rfl⟩
      · exact .inl hm
      · cases hf.symm.trans hm₁
        exact .inr ⟨rfl, r, hr, hid.trans (not_not.mp hrelease).symm, harch⟩

theorem Database.Withdraws.covered {id : Uuid} (hw : db.Withdraws id db')
    (h : db.Covered lower due) (hk : ∀ q ∈ db.requests.rows, q.unfinished → q.key.isWaiter →
      q.key.manifestId ≠ id) : db'.Covered lower due := by
  intro c hc p hp m hm since hsince hwants hlt
  rcases hw.mem m hm with ⟨hm, hne⟩ | ⟨hnone, -⟩
  · have hold : db.Wants lower p m := hwants.congr rfl rfl hw.releases
    refine (h c (hw.crashes ▸ hc) p hp m hm since hsince hold hlt).imp_right fun hcoming => ?_
    refine hcoming.mono (Request.kept fun q hq => hw.requests ▸ hq) (fun m' hm' hav hfor => ?_)
      fun r hr => hw.releases ▸ hr
    have hne' : m'.id ≠ id := by
      rcases hfor with heq | ⟨q, hq, hopen, hwaiter, heq⟩
      · rwa [heq]
      · rw [← heq]
        exact hk q hq hopen hwaiter
    exact ⟨m', hw.other m' hm' hne', rfl, hav, rfl, rfl⟩
  · rw [hnone] at hsince
    cases hsince

theorem Database.Withdraws.sound {id : Uuid} (hw : db.Withdraws id db') (h : db.Sound clock) :
    db'.Sound clock := by
  refine ⟨fun m hm => ?_, fun m hm since hsince => ?_, ?_, ?_⟩
  · rw [hw.releases]
    rcases hw.mem m hm with ⟨hm, -⟩ | ⟨-, hr⟩
    · exact h.release m hm
    · exact hr
  · rcases hw.mem m hm with ⟨hm, -⟩ | ⟨hnone, -⟩
    · exact h.available m hm since hsince
    · rw [hnone] at hsince
      cases hsince
  · rw [hw.crashes]
    exact h.received
  · rw [hw.crashes]
    exact h.created

/-! ## Requests -/

/-- What `insertRequest` leaves: the other tables, and a request with the key. -/
structure Database.Inserts (db : Database) (now : Nat) (requestId : Uuid) (key : RequestKey)
    (db' : Database) : Prop where
  releases : db'.releases = db.releases
  artifacts : db'.artifacts = db.artifacts
  crashes : db'.crashes = db.crashes
  readings : db'.readings = db.readings
  kept : ∀ q ∈ db.requests, q ∈ db'.requests
  new : (∀ q ∈ db.requests, q.key ≠ key) → ⟨requestId, key, now, none, .pending⟩ ∈ db'.requests
  mem : ∀ q ∈ db'.requests, q ∈ db.requests ∨ db.requests.find q.id = none

theorem Database.inserts_of_insertRequest {now : Nat} {requestId : Uuid} {key : RequestKey}
    (h : db.insertRequest now requestId key = some db') : db.Inserts now requestId key db' := by
  unfold Database.insertRequest at h
  split_ifs at h with hany hused
  · cases h
    refine ⟨rfl, rfl, rfl, rfl, fun _ hq => hq, fun hnone => ?_, fun _ hq => .inl hq⟩
    obtain ⟨q, hq, heq⟩ := List.any_eq_true.mp hany
    exact absurd (of_decide_eq_true heq) (hnone q hq)
  · cases h
    have hfresh : db.requests.find requestId = none := Option.not_isSome_iff_eq_none.mp hused
    have hmem : ∀ q, q ∈ db.requests.insert ⟨requestId, key, now, none, .pending⟩ ↔
        q = ⟨requestId, key, now, none, .pending⟩ ∨ q ∈ db.requests :=
      fun q => Table.mem_insert hfresh
    refine ⟨rfl, rfl, rfl, rfl, fun q hq => (hmem q).mpr (.inr hq),
      fun _ => (hmem _).mpr (.inl rfl), fun q hq => ?_⟩
    rcases (hmem q).mp hq with rfl | hq
    · exact .inr hfresh
    · exact .inl hq

theorem Database.Inserts.coming {now : Nat} {requestId : Uuid} {key : RequestKey}
    (hi : db.Inserts now requestId key db') {c : Crash} {manifestId : Uuid}
    (h : db.Coming lower c manifestId) : db'.Coming lower c manifestId :=
  h.mono (Request.kept hi.kept)
    (fun m hm hav _ => ⟨m, hi.artifacts ▸ hm, rfl, hav, rfl, rfl⟩) fun _ hr => hi.releases ▸ hr

theorem Database.Inserts.sound {now : Nat} {requestId : Uuid} {key : RequestKey}
    (hi : db.Inserts now requestId key db') (h : db.Sound clock) : db'.Sound clock := by
  refine ⟨?_, ?_, ?_, ?_⟩
  · rw [hi.artifacts, hi.releases]
    exact h.release
  · rw [hi.artifacts]
    exact h.available
  · rw [hi.crashes]
    exact h.received
  · rw [hi.crashes]
    exact h.created

theorem Database.makeAvailable_eq_some {now : Nat} {id requestId : Uuid}
    (h : db.makeAvailable now id requestId = some db') : ∃ m, db.artifacts.find id = some m ∧
      (db.setAvailable id (some (m.availableAt.getD now))).Inserts now requestId
        (.artifact id m.artifact.checksum) db' := by
  obtain ⟨m, hm, h⟩ := Option.bind_eq_some_iff.mp h
  exact ⟨m, hm, Database.inserts_of_insertRequest h⟩

theorem Database.Sound.setAvailable (h : db.Sound clock) {id : Uuid} {m : Artifact}
    (hm : db.artifacts.find id = some m) :
    (db.setAvailable id (some (m.availableAt.getD clock))).Sound clock := by
  refine ⟨fun x hx => ?_, fun x hx since hsince => ?_, h.received, h.created⟩
  · rcases Database.mem_setAvailable.mp hx with ⟨hx, -⟩ | ⟨m₀, hm₀, rfl⟩
    · exact h.release x hx
    · exact h.release m₀ (Table.find_eq_some.mp hm₀).1
  · rcases Database.mem_setAvailable.mp hx with ⟨hx, -⟩ | ⟨m₀, hm₀, rfl⟩
    · exact h.available x hx since hsince
    · cases hsince
      cases hav : m.availableAt with
      | none => exact le_rfl
      | some since => exact h.available m (Table.find_eq_some.mp hm).1 since hav

theorem Database.Coming.setAvailable {c : Crash} {manifestId id : Uuid}
    (h : db.Coming lower c manifestId) (availableAt : Nat) :
    (db.setAvailable id (some availableAt)).Coming lower c manifestId := by
  refine h.mono (Request.kept fun _ hq => hq) (fun x hx hav _ => ?_) fun _ hr => hr
  by_cases hid : x.id = id
  · have hxm : db.artifacts.find id = some x := Table.find_eq_some.mpr ⟨hx, hid⟩
    exact ⟨_, Database.mem_setAvailable.mpr (.inr ⟨x, hxm, rfl⟩), rfl, rfl, rfl, rfl⟩
  · exact ⟨x, Database.mem_setAvailable.mpr (.inl ⟨hx, hid⟩), rfl, hav, rfl, rfl⟩

theorem Database.Covered.makeAvailable (h : db.Covered lower due) (hs : db.Sound clock)
    {id requestId : Uuid} (hk : ∀ m ∈ db.artifacts.find id, m.availableAt.isNone →
      ∀ q ∈ db.requests.rows, q.key ≠ .artifact id m.artifact.checksum)
    (hr : db.makeAvailable clock id requestId = some db') : db'.Covered lower due := by
  obtain ⟨m₀, hm₀, hi⟩ := Database.makeAvailable_eq_some hr
  have hs' := hs.setAvailable hm₀
  intro c hc p hp m hm since hsince hw hlt
  rw [hi.artifacts] at hm
  rw [hi.crashes] at hc
  have hold : ∀ x ∈ db.artifacts, x.id = m.id → x.artifact = m.artifact →
      x.releaseId = m.releaseId → since ∈ x.availableAt →
      due since c.id ∨ db'.Coming lower c m.id := fun x hx hid hartifact hrelease hav => by
    have hwants : db.Wants lower p x := hw.congr hartifact.symm hrelease.symm hi.releases
    refine (h c hc p hp x hx since hav hwants hlt).imp_right fun hcoming => ?_
    exact hid ▸ hi.coming (hcoming.setAvailable _)
  rcases Database.mem_setAvailable.mp hm with ⟨hx, -⟩ | ⟨m₁, hm₁, rfl⟩
  · exact hold m hx rfl rfl rfl hsince
  · cases hm₀.symm.trans hm₁
    cases hav : m₀.availableAt with
    | some s₀ =>
      rw [hav] at hsince
      exact hold m₀ (Table.find_eq_some.mp hm₀).1 rfl rfl rfl (hav.trans hsince)
    | none =>
      have hwants : (db.setAvailable id (some (m₀.availableAt.getD clock))).Wants lower p
          { m₀ with availableAt := some (m₀.availableAt.getD clock) } :=
        hw.congr rfl rfl hi.releases
      obtain ⟨r, hr, hrid, hwoken⟩ := hwants.woken hs' hc hp hm
      have hnew := hi.new fun q hq => hk m₀ hm₀ (Option.isNone_iff_eq_none.mpr hav) q hq
      exact .inr ⟨_, hnew, nofun, nofun,
        { m₀ with availableAt := some (m₀.availableAt.getD clock) }, hi.artifacts ▸ hm,
        (Table.find_eq_some.mp hm₀).2, rfl, .inl rfl, r, hi.releases ▸ hr, hrid, hwoken⟩

theorem Database.claimRequest_eq_some {id : Uuid} (h : db.claimRequest id = some db') :
    ∃ q, db.requests.find id = some q ∧ q.unfinished ∧
      db' = { db with
        requests := db.requests.modify id (fun q => { q with state := .scheduling })
          fun _ => rfl } := by
  obtain ⟨q, hq, h⟩ := Option.bind_eq_some_iff.mp h
  split_ifs at h with hopen
  cases h
  exact ⟨q, hq, hopen, rfl⟩

theorem Database.Covered.claimRequest (h : db.Covered lower due) {id : Uuid}
    (hr : db.claimRequest id = some db') : db'.Covered lower due := by
  obtain ⟨-, -, -, rfl⟩ := Database.claimRequest_eq_some hr
  intro c hc p hp m hm since hsince hw hlt
  refine (h c hc p hp m hm since hsince hw hlt).imp_right fun hcoming => ?_
  refine hcoming.mono (fun q hq hopen => ?_) (fun m hm hav _ => ⟨m, hm, rfl, hav, rfl, rfl⟩)
    fun _ hr => hr
  by_cases hid : q.id = id
  · have hqf : db.requests.find id = some q := Table.find_eq_some.mpr ⟨hq, hid⟩
    refine ⟨{ q with state := .scheduling }, ?_, nofun, rfl, rfl, rfl⟩
    simp only [Table.mem_modify]
    exact .inr ⟨q, hqf, rfl⟩
  · refine ⟨q, ?_, hopen, rfl, rfl, rfl⟩
    simp only [Table.mem_modify]
    exact .inl ⟨hq, hid⟩

/-- The sorted events that a request has not come to yet. -/
def Database.remaining (lower : String → String) (db : Database) (q : Request) (m : Artifact)
    (r : Release) : List Uuid :=
  ((((db.crashes.rows.filter fun c => c.awaited lower q.selectionBefore m ∨
    c.unmapped lower q.selectionBefore m r).map Crash.id).filter fun id =>
      ∀ cursor ∈ q.cursor, cursor < id).insertionSort (· ≤ ·))

theorem Database.automaticReprocessingCandidates_eq {q : Request} {m : Artifact} {r : Release}
    (hm : m ∈ db.artifacts) (hid : m.id = q.key.manifestId) (hav : m.availableAt.isSome)
    (hr : r ∈ db.releases) (hrid : r.id = m.releaseId) :
    db.automaticReprocessingCandidates lower q =
      (db.remaining lower q m r).take (automaticReprocessingBatch + 1) := by
  have hmf : db.artifacts.find q.key.manifestId = some m := Table.find_eq_some.mpr ⟨hm, hid⟩
  have hrf : db.releases.find m.releaseId = some r := Table.find_eq_some.mpr ⟨hr, hrid⟩
  obtain ⟨since, hsince⟩ := Option.isSome_iff_exists.mp hav
  unfold Database.automaticReprocessingCandidates
  rw [hmf]
  dsimp only
  rw [hsince, hrf]
  rfl

theorem Database.mem_remaining {q : Request} {m : Artifact} {r : Release} {id : Uuid} :
    id ∈ db.remaining lower q m r ↔ (∀ cursor ∈ q.cursor, cursor < id) ∧ ∃ c ∈ db.crashes,
      c.id = id ∧ (c.awaited lower q.selectionBefore m ∨
        c.unmapped lower q.selectionBefore m r) := by
  simp only [Database.remaining, List.mem_insertionSort, List.mem_filter, List.mem_map,
    decide_eq_true_eq]
  constructor
  · rintro ⟨⟨c, ⟨hc, hw⟩, hid⟩, hcursor⟩
    exact ⟨hcursor, c, hc, hid, hw⟩
  · rintro ⟨hcursor, c, hc, hid, hw⟩
    exact ⟨⟨c, ⟨hc, hw⟩, hid⟩, hcursor⟩

theorem Database.expand_eq_some {id : Uuid} (h : db.expand lower id = some db') :
    ∃ q, db.requests.find id = some q ∧ q.unfinished ∧
      db' = { db with
        requests := db.requests.modify id
          (fun old =>
            { q.expanded (db.automaticReprocessingCandidates lower q) with id := old.id })
          fun _ => rfl } := by
  obtain ⟨q, hq, h⟩ := Option.bind_eq_some_iff.mp h
  split_ifs at h with hstate
  cases h
  refine ⟨q, hq, ?_, rfl⟩
  unfold Request.unfinished
  rw [hstate]
  rintro ⟨⟩

theorem Request.expanded_id {q : Request} {ids : List Uuid} : (q.expanded ids).id = q.id := by
  unfold Request.expanded
  split <;> rfl

theorem Database.mem_expand {id : Uuid} {q q' : Request} (hq : db.requests.find id = some q)
    {ids : List Uuid} : q' ∈ db.requests.modify id
      (fun old => { q.expanded ids with id := old.id }) (fun _ => rfl) ↔
      (q' ∈ db.requests ∧ q'.id ≠ id) ∨ q' = q.expanded ids := by
  have heq : { q.expanded ids with id := q.id } = q.expanded ids := by
    have hid : (q.expanded ids).id = q.id := Request.expanded_id
    rw [← hid]
  simp only [Table.mem_modify, hq, Option.some.injEq, exists_eq_left', heq]

/-- An event that remains is on the page, or the request goes on before it. -/
theorem Database.page_or_goes_on {q : Request} {m : Artifact} {r : Release} {eventId : Uuid}
    (hcandidates : db.automaticReprocessingCandidates lower q =
      (db.remaining lower q m r).take (automaticReprocessingBatch + 1))
    (hmem : eventId ∈ db.remaining lower q m r) :
    eventId ∈ (db.automaticReprocessingCandidates lower q).take automaticReprocessingBatch ∨
      ∃ cursor ∈ db.remaining lower q m r, cursor < eventId ∧
        q.expanded (db.automaticReprocessingCandidates lower q) =
          { q with state := .pending, cursor := some cursor } := by
  have htake : ((db.remaining lower q m r).take (automaticReprocessingBatch + 1)).take
      automaticReprocessingBatch = (db.remaining lower q m r).take automaticReprocessingBatch := by
    rw [List.take_take]
    rfl
  have hsorted : (db.remaining lower q m r).Pairwise (· ≤ ·) := List.pairwise_insertionSort _ _
  rcases KeysetPage.mem_take_or_lt (n := automaticReprocessingBatch) hsorted hmem with
    hin | ⟨hlength, hbelow⟩
  · rw [hcandidates, htake]
    exact .inl hin
  · have hlong : automaticReprocessingBatch <
        ((db.remaining lower q m r).take (automaticReprocessingBatch + 1)).length := by
      rw [List.length_take]
      omega
    have hfull := KeysetPage.take_ne_nil (by decide) hlength
    have hlast := List.getLast?_eq_some_getLast hfull
    have hpage := List.getLast_mem hfull
    refine .inr ⟨_, List.mem_of_mem_take hpage, hbelow _ hpage, ?_⟩
    rw [hcandidates, Request.expanded, if_pos hlong, htake, hlast]

theorem Database.batch_or_goes_on {id : Uuid} {q : Request} {m : Artifact} {r : Release}
    {eventId : Uuid} (hq : db.requests.find id = some q)
    (hcandidates : db.automaticReprocessingCandidates lower q =
      (db.remaining lower q m r).take (automaticReprocessingBatch + 1))
    (hmem : eventId ∈ db.remaining lower q m r) : eventId ∈ db.batch lower id ∨
      ∃ cursor < eventId, q.expanded (db.automaticReprocessingCandidates lower q) =
        { q with state := .pending, cursor := some cursor } := by
  rcases Database.page_or_goes_on hcandidates hmem with hpage | ⟨cursor, -, hlt, hnext⟩
  · refine .inl ?_
    unfold Database.batch
    rw [hq]
    exact hpage
  · exact .inr ⟨cursor, hlt, hnext⟩

/-- An expansion schedules the events of its batch, and its request still comes to the others. -/
theorem Database.Covered.expand {due' : Nat → Uuid → Prop} (h : db.Covered lower due) {id : Uuid}
    (hx : db.expand lower id = some db') (hkeep : ∀ since id, due since id → due' since id)
    (hbatch : ∀ since, ∀ eventId ∈ db.batch lower id, due' since eventId) :
    db'.Covered lower due' := by
  obtain ⟨q, hq, -, rfl⟩ := Database.expand_eq_some hx
  intro c hc p hp m hm since hsince hw hlt
  rcases h c hc p hp m hm since hsince hw hlt with hdue | hcoming
  · exact .inl (hkeep since c.id hdue)
  · obtain ⟨q₁, hq₁, hopen, hcursor, m', hm', hid, hav, hfor, r, hr, hrid, hwoken⟩ := hcoming
    by_cases hqid : q₁.id = id
    · have hqq : q₁ = q :=
        Table.eq_of_key_eq hq₁ (Table.find_eq_some.mp hq).1
          (hqid.trans (Table.find_eq_some.mp hq).2.symm)
      subst hqq
      have hmem : c.id ∈ db.remaining lower q₁ m' r :=
        Database.mem_remaining.mpr ⟨hcursor, c, hc, rfl, hwoken⟩
      rcases Database.batch_or_goes_on hq
        (Database.automaticReprocessingCandidates_eq hm' hid hav hr hrid) hmem with
        hin | ⟨cursor, hbelow, heq⟩
      · exact .inl (hbatch since c.id hin)
      · refine .inr ⟨_, (Database.mem_expand hq).mpr (.inr rfl), ?_⟩
        rw [heq]
        refine ⟨nofun, ?_, m', hm', hid, hav, hfor, r, hr, hrid, hwoken⟩
        rintro y ⟨⟩
        exact hbelow
    · exact .inr ⟨q₁, (Database.mem_expand hq).mpr (.inl ⟨hq₁, hqid⟩), hopen, hcursor, m', hm', hid,
        hav, hfor, r, hr, hrid, hwoken⟩

/-! ## Crashes -/

theorem receive_eq_some {s : State} {eventId : Uuid} (h : receive s eventId = some db') :
    s.db.crashes.find eventId = none ∧
      db' = { s.db with crashes := s.db.crashes.insert ⟨eventId, s.now, none⟩ } := by
  unfold receive at h
  split_ifs at h with hold
  cases h
  exact ⟨Option.not_isSome_iff_eq_none.mp hold, rfl⟩

theorem Database.Covered.receive {s : State} (h : s.db.Covered lower due) {eventId : Uuid}
    (hr : SymbolWakeups.receive s eventId = some db') : db'.Covered lower due := by
  obtain ⟨hfresh, rfl⟩ := receive_eq_some hr
  intro c hc p hp m hm since hsince hw hlt
  have hmem : ∀ c, c ∈ s.db.crashes.insert ⟨eventId, s.now, none⟩ ↔
      c = ⟨eventId, s.now, none⟩ ∨ c ∈ s.db.crashes := fun c => Table.mem_insert hfresh
  rcases (hmem c).mp hc with rfl | hc
  · cases hp
  · exact h c hc p hp m hm since hsince hw hlt

theorem Database.mem_setCurrent {id : Uuid} {f : Option Published → Option Published}
    {c : Crash} : c ∈ (db.setCurrent id f).crashes ↔ (c ∈ db.crashes ∧ c.id ≠ id) ∨
      ∃ c₀, db.crashes.find id = some c₀ ∧ c = { c₀ with current := f c₀.current } := by
  simp only [Database.setCurrent, Table.mem_modify]

theorem Database.Sound.setCurrent (h : db.Sound clock) {id : Uuid}
    {f : Option Published → Option Published}
    (hf : ∀ c, db.crashes.find id = some c → ∀ p ∈ f c.current, p.createdAt ≤ clock) :
    (db.setCurrent id f).Sound clock := by
  refine ⟨h.release, h.available, fun c hc => ?_, fun c hc p hp => ?_⟩
  · rcases Database.mem_setCurrent.mp hc with ⟨hc, -⟩ | ⟨c₀, hc₀, rfl⟩
    · exact h.received c hc
    · exact h.received c₀ (Table.find_eq_some.mp hc₀).1
  · rcases Database.mem_setCurrent.mp hc with ⟨hc, -⟩ | ⟨c₀, hc₀, rfl⟩
    · exact h.created c hc p hp
    · exact hf c₀ hc₀ p hp

theorem Database.Wants.failed {p : Published} {m : Artifact}
    (h : db.Wants lower { p with state := .failed } m) : db.Wants lower p m := by
  rcases h with ⟨hstate, -⟩ | h
  · cases hstate
  · exact .inr h

/-- A failed run leaves the result of its event, which has missed nothing. -/
theorem Database.Covered.finishFailure {due' : Nat → Uuid → Prop} (h : db.Covered lower due)
    {id target : Nat} (hkeep : ∀ since eventId, due since eventId → eventId ≠ id →
      due' since eventId)
    (hown : (∀ since, due' since id) ∨ ∀ c ∈ db.crashes.find id, ∀ p ∈ c.current,
      ∀ m ∈ db.artifacts.rows, ¬ db.Late lower p m) :
    (db.setCurrent id fun current => current.map fun p =>
      if 0 < target then p else { p with state := .failed }).Covered lower due' := by
  intro c hc p hp m hm since hsince hw hlt
  rcases Database.mem_setCurrent.mp hc with ⟨hc, hne⟩ | ⟨c₀, hc₀, rfl⟩
  · exact (h c hc p hp m hm since hsince hw hlt).imp_left fun hd => hkeep since c.id hd hne
  · have hid : c₀.id = id := (Table.find_eq_some.mp hc₀).2
    rcases hown with hdue | hnone
    · exact .inl (hid ▸ hdue since)
    · obtain ⟨p₀, hp₀, heq⟩ := Option.map_eq_some_iff.mp hp
      have hold : db.Wants lower p₀ m ∧ p₀.readAt < since := by
        split_ifs at heq
        · subst heq
          exact ⟨hw, hlt⟩
        · subst heq
          exact ⟨Database.Wants.failed hw, hlt⟩
      exact absurd ⟨hold.1, since, hsince, hold.2⟩ (hnone c₀ hc₀ p₀ hp₀ m hm)

theorem Database.mem_catchup {p : Published} {id : Uuid} : id ∈
    ((db.artifacts.rows.filter fun m => m.availableAt.isSome ∧ p.awaits lower m).map
      Artifact.id).insertionSort (· ≤ ·) ↔
      ∃ m ∈ db.artifacts, m.id = id ∧ m.availableAt.isSome ∧ p.awaits lower m := by
  simp only [List.mem_insertionSort, List.mem_map, List.mem_filter, decide_eq_true_eq]
  constructor
  · rintro ⟨m, ⟨hm, hw⟩, hid⟩
    exact ⟨m, hm, hid, hw⟩
  · rintro ⟨m, hm, hid, hw⟩
    exact ⟨m, ⟨hm, hw⟩, hid⟩

theorem Database.catchupManifest_eq_some {p : Published} {id : Uuid}
    (h : db.catchupManifest lower p = some id) :
    ∃ m ∈ db.artifacts, m.id = id ∧ m.availableAt.isSome ∧ p.awaits lower m :=
  Database.mem_catchup.mp (List.mem_of_head? h)

theorem Database.catchupManifest_isSome {p : Published} {m : Artifact} (hm : m ∈ db.artifacts)
    (hav : m.availableAt.isSome) (hw : p.awaits lower m) :
    ∃ id, db.catchupManifest lower p = some id := by
  have hmem := Database.mem_catchup.mpr ⟨m, hm, rfl, hav, hw⟩
  unfold Database.catchupManifest
  rw [← Option.isSome_iff_exists, List.isSome_head?]
  exact List.ne_nil_of_mem hmem

theorem publish_eq_some {s : State} {token requestId : Uuid} {o : Output}
    (h : publish lower s token requestId o = some db') : ∃ a r c,
      s.jobs.attempts.find token = some a ∧ s.db.readings.find token = some r ∧
      s.db.crashes.find a.eventId = some c ∧
      (s.db.setCurrent a.eventId fun _ =>
        some (r.published o s.now)).enqueueWaiterCatchupRequests lower s.now requestId
          (r.published o s.now) = some db' := by
  obtain ⟨a, ha, h⟩ := Option.bind_eq_some_iff.mp h
  obtain ⟨r, hr, h⟩ := Option.bind_eq_some_iff.mp h
  obtain ⟨c, hc, h⟩ := Option.bind_eq_some_iff.mp h
  split_ifs at h
  exact ⟨a, r, c, ha, hr, hc, h⟩

/-- What the catch-up leaves: the same tables, or a request for the artifact that it picks. -/
theorem Database.catchup_eq_some {now : Nat} {requestId : Uuid} {p : Published}
    (h : db.enqueueWaiterCatchupRequests lower now requestId p = some db') :
    (db.catchupManifest lower p = none ∧ db' = db) ∨
      ∃ id, db.catchupManifest lower p = some id ∧
        db.Inserts now requestId (.waiter id p.resultId) db' := by
  unfold Database.enqueueWaiterCatchupRequests at h
  split at h
  · next hnone =>
    cases h
    exact .inl ⟨hnone, rfl⟩
  · next id hid => exact .inr ⟨id, hid, Database.inserts_of_insertRequest h⟩

/-- A request that has not come to the event finds it when its release is missing. -/
theorem Request.comesTo.coming {q : Request} {c : Crash} {p : Published} {m : Artifact}
    (h : q.comesTo c m) (hq : q ∈ db.requests) (hs : db.Sound clock) (hm : m ∈ db.artifacts)
    (hav : m.availableAt.isSome) (hmissing : p.release.state = .missing)
    (hw : db.Wants lower p m) : db.Coming lower { c with current := some p } m.id := by
  obtain ⟨hopen, hkey, hcursor, hreceived⟩ := h
  refine ⟨q, hq, hopen, hcursor, m, hm, hkey.symm, hav, .inl rfl, ?_⟩
  have hw : ∃ l ∈ p.release.lookup, db.UniqueRelease lower l m.releaseId := by
    rcases hw with ⟨-, hmatched, -⟩ | ⟨-, hw⟩
    · have hstate := p.release.state_eq_matched.mpr (by rw [hmatched]; rfl)
      cases hmissing.symm.trans hstate
    · exact hw
  obtain ⟨l, hl, ⟨r', hr', hmatch⟩, hunique⟩ := hw
  obtain ⟨r, hr, hrid, harch⟩ := hs.release m hm
  have hrr : r' = r := Table.eq_of_key_eq hr' hr ((hunique r' hr' hmatch).trans hrid.symm)
  rw [hrr] at hmatch
  obtain ⟨hversion, hplatform, harchitecture, hconfiguration⟩ := hmatch
  refine ⟨r, hr, hrid, .inr ⟨p, rfl, hreceived, .inl hmissing, l, hl, hversion.symm,
    hplatform.symm, ?_, hconfiguration.symm⟩⟩
  rw [harch, harchitecture]

theorem Database.Covered.setCurrent {due' : Nat → Uuid → Prop} (h : db.Covered lower due)
    {id : Uuid} {p : Published}
    (hkeep : ∀ since eventId, due since eventId → eventId ≠ id → due' since eventId)
    (hcoming : ∀ c m, db.Coming lower c m → db'.Coming lower c m)
    (hreleases : db'.releases = db.releases) (hartifacts : db'.artifacts = db.artifacts)
    (hcrashes : db'.crashes = (db.setCurrent id fun _ => some p).crashes)
    (hown : ∀ c ∈ db.crashes.find id, ∀ m ∈ db.artifacts, ∀ since ∈ m.availableAt,
      db.Wants lower p m → p.readAt < since →
        due' since id ∨ db'.Coming lower { c with current := some p } m.id) :
    db'.Covered lower due' := by
  intro c hc p' hp m hm since hsince hw hlt
  rw [hcrashes] at hc
  rw [hartifacts] at hm
  have hwants : db.Wants lower p' m := hw.congr rfl rfl hreleases
  rcases Database.mem_setCurrent.mp hc with ⟨hc, hne⟩ | ⟨c₀, hc₀, rfl⟩
  · exact (h c hc p' hp m hm since hsince hwants hlt).imp (fun hd => hkeep since c.id hd hne)
      (hcoming c m.id)
  · cases hp
    have hid : c₀.id = id := (Table.find_eq_some.mp hc₀).2
    refine (hown c₀ hc₀ m hm since hsince hwants hlt).imp_left fun hd => ?_
    exact hid.symm ▸ hd

/-- What a publication that has missed an artifact leaves for its event. -/
theorem State.CatchesUp.coming {s : State} {c : Crash} {p : Published} {m : Artifact}
    (hcatch : s.CatchesUp lower c p) (requestId : Uuid) (hs : s.db.Sound clock)
    (hm : m ∈ s.db.artifacts) {since : Nat} (hsince : since ∈ m.availableAt)
    (hw : s.db.Wants lower p m) (hlt : p.readAt < since) (hcreated : p.createdAt ≤ s.now)
    (hcoming : ∀ c m, s.db.Coming lower c m → db'.Coming lower c m)
    (hreleases : db'.releases = s.db.releases) (hartifacts : db'.artifacts = s.db.artifacts)
    (hnew : ∀ id, s.db.catchupManifest lower p = some id →
      (∀ q ∈ s.db.requests, q.key ≠ .waiter id p.resultId) →
      ⟨requestId, .waiter id p.resultId, s.now, none, .pending⟩ ∈ db'.requests) :
    db'.Coming lower { c with current := some p } m.id := by
  have hav : m.availableAt.isSome := Option.isSome_iff_exists.mpr ⟨since, hsince⟩
  have hlate := hcatch m hm ⟨hw, since, hsince, hlt⟩
  by_cases hmissing : p.release.state = .missing
  · rw [if_pos hmissing] at hlate
    obtain ⟨q, hq, hcomes⟩ := hlate
    exact hcoming _ _ (hcomes.coming hq hs hm hav hmissing hw)
  · rw [if_neg hmissing] at hlate
    have hawaits : p.awaits lower m := hw.resolve_right fun h => hmissing h.1
    obtain ⟨id, hid⟩ := Database.catchupManifest_isSome hm hav hawaits
    obtain ⟨m₁, hm₁, hid₁, hav₁, hawaits₁⟩ := Database.catchupManifest_eq_some hid
    obtain ⟨r, hr, hrid, -⟩ := hs.release m₁ hm₁
    refine ⟨_, hnew id hid (hlate id hid), nofun, nofun, m₁, hartifacts ▸ hm₁, hid₁, hav₁,
      .inr rfl, r, hreleases ▸ hr, hrid, .inl ⟨p, rfl, hcreated, hawaits₁⟩⟩

theorem Database.Covered.publish {due' : Nat → Uuid → Prop} {s : State}
    (h : s.db.Covered lower due) (hs : s.db.Sound clock) {requestId : Uuid} {o : Output}
    {a : Attempt} {r : Reading}
    (hkeep : ∀ since eventId, due since eventId → eventId ≠ a.eventId → due' since eventId)
    (hown : (∀ since, due' since a.eventId) ∨ ∀ c ∈ s.db.crashes.find a.eventId,
      s.CatchesUp lower c (r.published o s.now))
    (hr : (s.db.setCurrent a.eventId fun _ =>
      some (r.published o s.now)).enqueueWaiterCatchupRequests lower s.now requestId
        (r.published o s.now) = some db') : db'.Covered lower due' := by
  rcases Database.catchup_eq_some hr with ⟨hnone, rfl⟩ | ⟨manifestId, hsome, hi⟩
  · refine h.setCurrent hkeep (fun _ _ hc => hc) rfl rfl rfl fun c hc m hm since hsince hw hlt => ?_
    refine hown.imp (fun hd => hd since) fun hcatch => ?_
    refine (hcatch c hc).coming requestId hs hm hsince hw hlt le_rfl
      (fun _ _ hc => hc) rfl rfl fun id hid => ?_
    cases hnone.symm.trans hid
  · refine h.setCurrent hkeep (fun _ _ hc => hi.coming hc) hi.releases hi.artifacts hi.crashes
      fun c hc m hm since hsince hw hlt => ?_
    refine hown.imp (fun hd => hd since) fun hcatch => ?_
    refine (hcatch c hc).coming requestId hs hm hsince hw hlt le_rfl (fun _ _ hc => hi.coming hc)
      hi.releases hi.artifacts fun id hid hnew => ?_
    cases hsome.symm.trans hid
    exact hi.new hnew

end
end FaultLane.SymbolWakeups

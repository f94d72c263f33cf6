import FaultLane.DailyRollupsTriggers
import FaultLane.TransitionSystem

set_option autoImplicit false

/-!
# Daily rollups over runs

After every transaction the rollups are a tally of what all events and issues count for.
-/
namespace FaultLane.DailyRollups
open KeyedTable LabelledTally RustText JobQueue TransitionSystem
variable {initcap : Text → Text} {db db' : Tables} {rollups rollups' : Rollups}

/-! ## The invariant -/

def Tables.issueTotal (db : Tables) : Multiset Entry :=
  db.issues.total fun i => issueEntries (some i)

/-- What all events but one count for. -/
def Tables.others (db : Tables) (id : Uuid) : Multiset Entry :=
  (db.events.delete id).total fun e => (db.standing e).entries

def Tables.entries (db : Tables) : Multiset Entry :=
  (db.events.total fun e => (db.standing e).entries) + db.issueTotal

def Standing.platform (s : Standing) : Entry := s.entry .platform

structure Accounted (initcap : Text → Text) (db : Tables) (rollups : Rollups) : Prop where
  searched : ∀ id, (db.search.find id).map SearchRow.resultId =
    (db.events.find id).bind Event.currentResultId
  released : ∀ e ∈ db.events, ∀ id ∈ e.releaseId, (db.releases.find id).isSome
  tallied : Tallied initcap db.releases rollups db.entries
  apart : ∀ e ∈ db.events, ∀ e' ∈ db.events, (db.standing e).platform.Apart
    (db.standing e').platform

theorem accounted_init : Accounted initcap Tables.init .empty where
  searched _ := rfl
  released e he := absurd he (Table.not_mem_empty e)
  tallied := counts_empty
  apart e he := absurd he (Table.not_mem_empty e)

theorem Tables.entries_of_find {id : Uuid} {e : Event} (h : db.events.find id = some e) :
    db.entries = (db.standing e).entries + (db.others id + db.issueTotal) := by
  rw [entries, Table.total_delete h, add_assoc]
  rfl

theorem Tables.entries_of_none {id : Uuid} (h : db.events.find id = none) :
    db.entries = db.others id + db.issueTotal := by
  rw [entries, others, Table.delete_eq_self h]

theorem Tables.standing_congr {e : Event} (h : db'.search.find e.id = db.search.find e.id) :
    db'.standing e = db.standing e := by
  simp only [standing, platformOf, symbolication, searchOf, h]

theorem Tables.others_congr {id : Uuid} (hevents : db'.events.delete id = db.events.delete id)
    (hsearch : ∀ k, k ≠ id → db'.search.find k = db.search.find k) :
    db'.others id = db.others id := by
  rw [others, hevents]
  exact Table.total_congr fun e he =>
    congrArg Standing.entries (standing_congr (hsearch _ (Table.mem_delete.mp he).2))

theorem issueTotal_apart (db : Tables) (x : Entry) : ∀ y ∈ db.issueTotal, x.Apart y := by
  intro y hy
  obtain ⟨i, -, hy⟩ := Table.mem_total.mp hy
  exact Entry.apart_right (issueEntries_dimension _ y hy) x

theorem others_apart {id : Uuid} {s : Standing}
    (h : ∀ e ∈ db.events, e.id ≠ id → s.platform.Apart (db.standing e).platform) :
    ∀ y ∈ db.others id, s.platform.Apart y := by
  intro y hy
  obtain ⟨e, he, hy⟩ := Table.mem_total.mp hy
  obtain ⟨he, hne⟩ := Table.mem_delete.mp he
  obtain ⟨j, rfl⟩ := Standing.mem_entries.mp hy
  by_cases hj : j = .platform
  · exact hj ▸ h e he hne
  · exact (Standing.apart_of_ne hj _).symm

theorem Accounted.searchOf (h : Accounted initcap db rollups) {e : Event} (he : e ∈ db.events) :
    db.searchOf e = db.search.find e.id := by
  have hresult := h.searched e.id
  rw [Table.find_eq_some.mpr ⟨he, rfl⟩, Option.bind_some] at hresult
  unfold Tables.searchOf
  cases hf : db.search.find e.id with
  | none => rfl
  | some row =>
    rw [hf, Option.map_some] at hresult
    exact Option.filter_some_pos (decide_eq_true hresult)

/-- A transaction that leaves all events but one. -/
theorem Accounted.of_change (h : Accounted initcap db rollups) (id : Uuid) (e' : Event)
    (hid : db'.events.find id = some e')
    (hfind : ∀ k, k ≠ id → db'.events.find k = db.events.find k)
    (hdelete : db'.events.delete id = db.events.delete id)
    (hsearch : ∀ k, k ≠ id → db'.search.find k = db.search.find k)
    (hreleases : db'.releases = db.releases)
    (hresult : (db'.search.find id).map SearchRow.resultId = e'.currentResultId)
    (hrelease : ∀ r ∈ e'.releaseId, (db.releases.find r).isSome)
    (htallied : Tallied initcap db'.releases rollups'
      ((db'.standing e').entries + (db.others id + db'.issueTotal)))
    (hapart : ∀ e ∈ db.events, e.id ≠ id →
      (db'.standing e').platform.Apart (db.standing e).platform) : Accounted initcap db' rollups' := by
  have hevents : ∀ e ∈ db'.events, e = e' ∨
      (e ∈ db.events ∧ e.id ≠ id ∧ db'.standing e = db.standing e) := fun e he => by
    have hfe := Table.find_eq_some.mpr ⟨he, rfl⟩
    by_cases hk : e.id = id
    · rw [hk, hid] at hfe
      exact .inl (Option.some.inj hfe).symm
    · rw [hfind _ hk] at hfe
      exact .inr ⟨(Table.find_eq_some.mp hfe).1, hk, Tables.standing_congr (hsearch _ hk)⟩
  refine ⟨fun k => ?_, fun e he r hr => ?_, ?_, fun e₁ he₁ e₂ he₂ => ?_⟩
  · by_cases hk : k = id
    · rw [hk, hresult, hid, Option.bind_some]
    · rw [hsearch k hk, hfind k hk]
      exact h.searched k
  · rw [hreleases]
    rcases hevents e he with rfl | ⟨he, -, -⟩
    · exact hrelease r hr
    · exact h.released e he r hr
  · rw [Tables.entries_of_find hid, Tables.others_congr hdelete hsearch]
    exact htallied
  · rcases hevents e₁ he₁ with rfl | ⟨he₁, hk₁, heq₁⟩ <;>
      rcases hevents e₂ he₂ with rfl | ⟨he₂, hk₂, heq₂⟩
    · exact Entry.apart_self _
    · rw [heq₂]
      exact hapart e₂ he₂ hk₂
    · rw [heq₁]
      exact (hapart e₁ he₁ hk₁).symm
    · rw [heq₁, heq₂]
      exact h.apart e₁ he₁ e₂ he₂

/-! ## Statements -/

/-- What statements on issues leave. -/
structure SameEvents (db db' : Tables) : Prop where
  events : db'.events = db.events
  search : db'.search = db.search
  releases : db'.releases = db.releases

theorem SameEvents.refl (db : Tables) : SameEvents db db := ⟨rfl, rfl, rfl⟩

theorem SameEvents.trans {db'' : Tables} (h : SameEvents db db') (h' : SameEvents db' db'') :
    SameEvents db db'' :=
  ⟨h'.events.trans h.events, h'.search.trans h.search, h'.releases.trans h.releases⟩

theorem SameEvents.standing (h : SameEvents db db') : db'.standing = db.standing := by
  funext e
  exact Tables.standing_congr (by rw [h.search])

section
variable {m : Multiset Entry}

theorem changeIssue_tallied {change : IssueChange} {deltas : List Delta}
    (h : Tallied initcap db.releases rollups (m + db.issueTotal))
    (hs : db.changeIssue change = some (db', deltas)) :
    SameEvents db db' ∧ Tallied initcap db'.releases (performDeltas rollups deltas) (m + db'.issueTotal) := by
  unfold Tables.issueTotal at h ⊢
  cases change with
  | insert issue =>
    obtain ⟨hfresh, hs⟩ := Option.ite_none_left_eq_some.mp hs
    cases hs
    refine ⟨⟨rfl, rfl, rfl⟩, ?_⟩
    have hnone : db.issues.find issue.id = none := by simpa using hfresh
    have hnew := Tallied.changed none issue ((zero_add (m + _)).symm ▸ h)
    change Tallied initcap db.releases _ (m + (db.issues.insert issue).total _)
    rw [Table.total_insert hnone, add_left_comm]
    exact hnew
  | update issue =>
    obtain ⟨old, hold, hs⟩ := Option.bind_eq_some_iff.mp hs
    cases hs
    refine ⟨⟨rfl, rfl, rfl⟩, ?_⟩
    rw [Table.total_delete hold, add_left_comm] at h
    have hnew := Tallied.changed (some old) issue h
    change Tallied initcap db.releases _ (m + (db.setIssue issue).issues.total _)
    unfold Tables.setIssue
    rw [Table.total_modify_delete _ hold, add_left_comm]
    exact hnew

theorem changeIssues_tallied {changes : List IssueChange} {deltas : List Delta}
    (hs : db.changeIssues changes = some (db', deltas))
    (h : Tallied initcap db.releases rollups (m + db.issueTotal)) :
    SameEvents db db' ∧
      Tallied initcap db'.releases (performDeltas rollups deltas) (m + db'.issueTotal) := by
  induction changes generalizing db rollups deltas with
  | nil =>
    cases hs
    exact ⟨SameEvents.refl _, h⟩
  | cons change changes ih =>
    obtain ⟨⟨next, first⟩, hnext, hs⟩ := Option.bind_eq_some_iff.mp hs
    obtain ⟨⟨last, rest⟩, hlast, hs⟩ := Option.bind_eq_some_iff.mp hs
    cases hs
    obtain ⟨hsame, hn⟩ := changeIssue_tallied h hnext
    obtain ⟨hrest, htallied⟩ := ih hlast hn
    rw [performDeltas_append]
    exact ⟨hsame.trans hrest, htallied⟩

end

theorem upsertSearch_find (initcap : Text → Text) (db : Tables) (new : SearchRow) :
    (db.upsertSearch initcap new).1.search.find new.eventId = some new := by
  change Table.find (if (db.search.find new.eventId).isSome then _ else _) _ = _
  cases hf : db.search.find new.eventId with
  | none =>
    rw [if_neg (by simp)]
    exact Table.find_insert_self hf
  | some row =>
    rw [if_pos (by simp), Table.find_modify_self, hf, Option.map_some, (Table.find_eq_some.mp hf).2]

theorem upsertSearch_find_of_ne (initcap : Text → Text) (db : Tables) (new : SearchRow) {k : Uuid}
    (hk : k ≠ new.eventId) :
    (db.upsertSearch initcap new).1.search.find k = db.search.find k := by
  change Table.find (if (db.search.find new.eventId).isSome then _ else _) _ = _
  split
  · exact Table.find_modify_of_ne _ _ _ hk
  · exact Table.find_insert_of_ne hk

theorem setEvent_find (db : Tables) (new : Event) {old : Event} (h : db.events.find new.id = some old) :
    (db.setEvent new).events.find new.id = some new := by
  unfold Tables.setEvent
  rw [Table.find_modify_self, h, Option.map_some, (Table.find_eq_some.mp h).2]

theorem setEvent_find_of_ne (db : Tables) (new : Event) {k : Uuid} (hk : k ≠ new.id) :
    (db.setEvent new).events.find k = db.events.find k := by
  unfold Tables.setEvent
  rw [Table.find_modify_of_ne _ _ _ hk]

theorem setEvent_delete (db : Tables) (new : Event) :
    (db.setEvent new).events.delete new.id = db.events.delete new.id := by
  unfold Tables.setEvent
  rw [Table.delete_modify]

/-! ## Steps -/

theorem createRelease_accounted {release : Release} {deltas : List Delta} (h : Accounted initcap db rollups)
    (hs : createRelease db release = some (db', deltas)) :
    Accounted initcap db' (performDeltas rollups deltas) := by
  obtain ⟨hfresh, hs⟩ := Option.ite_none_left_eq_some.mp hs
  cases hs
  have hnone : db.releases.find release.id = none := by simpa using hfresh
  have hkept : ∀ r, (db.releases.find r).isSome →
      (db.releases.insert release).find r = db.releases.find r := fun r hr =>
    Table.find_insert_of_ne fun heq => by
      rw [heq, hnone] at hr
      exact absurd hr (by decide)
  refine ⟨h.searched, fun e he r hr => ?_, ?_, h.apart⟩
  · have hr := h.released e he r hr
    change ((db.releases.insert release).find r).isSome
    rwa [hkept r hr]
  · have hwritten : ∀ x ∈ db.entries, x.written initcap (db.releases.insert release) =
        x.written initcap db.releases := fun x hx => by
      rcases Multiset.mem_add.mp hx with hx | hx
      · obtain ⟨e, he, hx⟩ := Table.mem_total.mp hx
        obtain ⟨j, rfl⟩ := Standing.mem_entries.mp hx
        cases j
        case release =>
          have hfind : e.releaseId.bind (db.releases.insert release).find =
              e.releaseId.bind db.releases.find := by
            cases hid : e.releaseId with
            | none => rfl
            | some r => exact hkept r (h.released e he r hid)
          exact congrArg (fun r : Option Release =>
            ((RollupKey.mk (dayOf e.receivedAt) .release (releaseText e.releaseId)).left,
              ((r.map Release.version).getD "Unmapped".toList).take maxRollupChars)) hfind
        all_goals rfl
      · obtain ⟨i, -, hx⟩ := Table.mem_total.mp hx
        rcases List.mem_append.mp hx with hx | hx
        · obtain ⟨day, -, hx⟩ := List.mem_flatMap.mp hx
          rcases List.mem_pair.mp hx with rfl | rfl <;> rfl
        · obtain ⟨day, -, rfl⟩ := List.mem_map.mp hx
          rfl
    have htallied := h.tallied
    rw [Tallied, ← Multiset.map_congr rfl hwritten] at htallied
    exact htallied

/-- Only one pair gives the key of an event without a search row. -/
theorem eq_unknown {p : Text × Text} (h : leftPlatformKey (unknown, unknown) = leftPlatformKey p) :
    (unknown, unknown) = p := by
  have hno : '/' ∉ unknown := by decide
  have hlength : ((platformKey p.1 p.2).take maxRollupChars).length < maxRollupChars := by
    rw [← leftPlatformKey, ← h]
    decide
  have hkey : platformKey unknown unknown = platformKey p.1 p.2 := by
    rw [List.length_take] at hlength
    have hp : (platformKey p.1 p.2).length ≤ maxRollupChars := by omega
    exact eq_of_take_eq (by decide) hp h
  rcases List.append_eq_append_iff.mp hkey with ⟨c, hc, hrest⟩ | ⟨c, hc, hrest⟩
  · cases c with
    | nil =>
      rw [List.append_nil] at hc
      exact Prod.ext hc.symm (List.cons.inj hrest).2
    | cons a c =>
      have hin : '/' ∈ unknown := by
        rw [(List.cons.inj hrest).2]
        exact List.mem_append_right _ List.mem_cons_self
      exact absurd hin hno
  · cases c with
    | nil =>
      rw [List.append_nil] at hc
      exact Prod.ext hc (List.cons.inj hrest).2.symm
    | cons a c =>
      have hin : '/' ∈ unknown := by
        rw [hc, ← (List.cons.inj hrest).1]
        exact List.mem_append_right _ List.mem_cons_self
      exact absurd hin hno

theorem unknown_apart (day : Int) (y : Entry) :
    (Entry.platform day (unknown, unknown)).Apart y := by
  cases y
  case platform => exact fun _ hk => eq_unknown hk
  all_goals trivial

theorem ingest_accounted {eventId : Uuid} {receivedAt : Timestamp} {deltas : List Delta}
    (h : Accounted initcap db rollups)
    (hs : ingest initcap db eventId receivedAt = some (db', deltas)) :
    Accounted initcap db' (performDeltas rollups deltas) := by
  obtain ⟨hfresh, hs⟩ := Option.ite_none_left_eq_some.mp hs
  cases hs
  have hnone : db.events.find eventId = none := by simpa using hfresh
  have hresult : (db.search.find eventId).map SearchRow.resultId = none := by
    rw [h.searched, hnone, Option.bind_none]
  have hsearch : db.search.find eventId = none := Option.map_eq_none_iff.mp hresult
  have htallied := h.tallied
  rw [Tables.entries_of_none hnone] at htallied
  refine h.of_change eventId ⟨eventId, receivedAt, .stored, none, none⟩
    (Table.find_insert_self hnone) (fun k hk => Table.find_insert_of_ne hk)
    (Table.delete_insert _ _) (fun k _ => rfl) rfl hresult (by rintro _ ⟨⟩) ?_ fun e _ _ => ?_
  · rw [insertCrashEventRollups_eq rfl]
    exact htallied.addAll _
  · have hpair : db.platformOf ⟨eventId, receivedAt, .stored, none, none⟩ = (unknown, unknown) := by
      simp only [Tables.platformOf, Tables.searchOf, hsearch]
      rfl
    have hplatform := unknown_apart (dayOf receivedAt) (db.standing e).platform
    rw [← hpair] at hplatform
    exact hplatform

theorem restate_accounted {e : Event} (state : ProcessingState) (h : Accounted initcap db rollups)
    (he : db.events.find e.id = some e) :
    Accounted initcap (db.updateEvent initcap e { e with processingState := state }).1
      (performDeltas rollups (db.updateEvent initcap e { e with processingState := state }).2) := by
  obtain ⟨hin, -⟩ := Table.find_eq_some.mp he
  have hresult := h.searched e.id
  rw [he, Option.bind_some] at hresult
  have htallied := h.tallied
  rw [Tables.entries_of_find he] at htallied
  refine h.of_change e.id { e with processingState := state } (setEvent_find db _ he)
    (fun k hk => setEvent_find_of_ne db _ hk) (setEvent_delete db _) (fun k _ => rfl) rfl hresult
    (h.released e hin) ?_ (fun other hother _ => ?_)
  · exact Tallied.updated (db.setEvent { e with processingState := state }) e
      { e with processingState := state }
      (symbolicationOf state ((db.searchOf e).map SearchRow.symbolicationState)) htallied rfl rfl rfl
      rfl (congrArg (Option.map SearchRow.symbolicationState) Option.or_self)
      (fun hst => congrArg (symbolicationOf · _) hst) (fun _ => ⟨rfl, rfl⟩)
  · exact h.apart e hin other hother

/-- What an event counts as when the row is that of its result. -/
def Event.found (e : Event) (row : SearchRow) : Standing where
  day := dayOf e.receivedAt
  release := e.releaseId
  pair := (coalesce row.platform, coalesce row.architecture)
  crashType := row.crashType
  symbolication := symbolicationOf e.processingState (some row.symbolicationState)
  processing := e.processingState

theorem standing_eq_found {e : Event} {row : SearchRow} (h : db.searchOf e = some row) :
    db.standing e = e.found row := by
  simp only [Tables.standing, Tables.platformOf, Tables.symbolication, h]
  rfl

section
variable {m : Multiset Entry} {row : SearchRow}

/-- Before the first result there is no search row, and afterwards it is that of the current
one. -/
theorem Accounted.skipsSearch_eq (h : Accounted initcap db rollups) {e : Event} (new : SearchRow)
    (he : db.events.find new.eventId = some e) :
    skipsSearch e.currentResultId (db.search.find new.eventId) new = false := by
  have hresult := h.searched new.eventId
  rw [he, Option.bind_some] at hresult
  rw [← hresult]
  cases db.search.find new.eventId with
  | none => rfl
  | some row => simp [skipsSearch]

theorem upsertSearch_tallied {e : Event} (h : Accounted initcap db rollups)
    (he : db.events.find row.eventId = some e) :
    Tallied initcap db.releases (performDeltas rollups (db.upsertSearch initcap row).2)
      ((e.found row).entries + (db.others row.eventId + db.issueTotal)) := by
  obtain ⟨hin, hid⟩ := Table.find_eq_some.mp he
  have hfind : db.searchOf e = db.search.find row.eventId := hid ▸ h.searchOf hin
  have htallied := h.tallied
  rw [Tables.entries_of_find he] at htallied
  refine Tallied.searched htallied he (h.skipsSearch_eq row he) rfl ?_ ?_ ?_ fun y hy => ?_
  · rw [← hfind]
    rfl
  · rw [← hfind]
    rfl
  · rw [← hfind]
    rfl
  · rcases Multiset.mem_add.mp hy with hy | hy
    · exact others_apart (fun other hother _ => h.apart e hin other hother) y hy
    · exact issueTotal_apart db _ y hy

theorem updateEvent_tallied (db : Tables) {old : Event} (new : Event)
    (h : Tallied initcap db.releases rollups ((old.found row).entries + m))
    (hreceived : new.receivedAt = old.receivedAt)
    (hsearch : old.processingState ≠ new.processingState →
      (db.setEvent new).searchOf new = some row) :
    Tallied initcap db.releases (performDeltas rollups (db.updateEvent initcap old new).2)
      ((new.found row).entries + m) := by
  have hupdated := Tallied.updated (db.setEvent new) old new
    (symbolicationOf new.processingState (some row.symbolicationState)) h hreceived rfl rfl rfl rfl
    (fun hst => congrArg (symbolicationOf · (some row.symbolicationState)) hst) fun hne => by
      rw [hsearch hne]
      exact ⟨rfl, rfl⟩
  rw [Event.found, hreceived]
  exact hupdated

end

theorem publish_accounted {p : Publication} {deltas : List Delta} (h : Accounted initcap db rollups)
    (hd : Distinct db (.publish p)) (hs : publish initcap db p = some (db', deltas)) :
    Accounted initcap db' (performDeltas rollups deltas) := by
  obtain ⟨e, he, hs⟩ := Option.bind_eq_some_iff.mp hs
  obtain ⟨hrelease, hs⟩ := Option.ite_none_left_eq_some.mp hs
  obtain ⟨⟨changed, issueDeltas⟩, hchanged, hs⟩ := Option.bind_eq_some_iff.mp hs
  cases hs
  obtain ⟨hin, hid⟩ := Table.find_eq_some.mp he
  have hsearched := upsertSearch_tallied h he
  have hmapped := updateEvent_tallied (db.upsertSearch initcap p.search).1
    { e with releaseId := p.release } hsearched rfl fun hne => absurd rfl hne
  rw [← add_assoc] at hmapped
  obtain ⟨hsame, htallied⟩ := changeIssues_tallied hchanged hmapped
  rw [add_assoc] at htallied
  have hevent : changed.events.find e.id = some { e with releaseId := p.release } := by
    rw [hsame.events]
    exact setEvent_find (db.upsertSearch initcap p.search).1 { e with releaseId := p.release }
      (hid ▸ he)
  have hother : ∀ k, k ≠ e.id → changed.events.find k = db.events.find k := fun k hk => by
    rw [hsame.events]
    exact setEvent_find_of_ne (db.upsertSearch initcap p.search).1 { e with releaseId := p.release } hk
  have hdelete : changed.events.delete e.id = db.events.delete e.id := by
    rw [hsame.events]
    exact setEvent_delete (db.upsertSearch initcap p.search).1 { e with releaseId := p.release }
  have hrow : changed.search.find e.id = some p.search := by
    rw [hsame.search, hid]
    exact upsertSearch_find initcap db p.search
  have hrows : ∀ k, k ≠ e.id → changed.search.find k = db.search.find k := fun k hk => by
    rw [hsame.search]
    exact upsertSearch_find_of_ne initcap db p.search (hid ▸ hk)
  let final : Event :=
    ⟨e.id, e.receivedAt, p.state, p.release, some p.search.resultId⟩
  have hfound : (changed.setEvent final).searchOf final = some p.search := by
    change (changed.search.find e.id).filter _ = _
    rw [hrow]
    exact Option.filter_some_pos (decide_eq_true rfl)
  have hlast := updateEvent_tallied changed final htallied rfl fun _ => hfound
  have hstanding : (changed.setEvent final).standing final = final.found p.search :=
    standing_eq_found hfound
  refine h.of_change e.id final (setEvent_find changed final hevent)
    (fun k hk => (setEvent_find_of_ne changed final hk).trans (hother k hk))
    ((setEvent_delete changed final).trans hdelete) hrows hsame.releases ?_ (fun r hr => ?_) ?_
    fun other hin' hne => ?_
  · exact congrArg (Option.map SearchRow.resultId) hrow
  · have hnone : (db.releases.find r).isNone ≠ true := fun hr' =>
      hrelease ((Option.any_eq_true ..).mpr ⟨r, hr, hr'⟩)
    simpa [Option.isSome_iff_ne_none] using hnone
  · rw [← hid] at hlast
    rw [performDeltas_append, performDeltas_append, performDeltas_append]
    exact hstanding ▸ hlast
  · change ((changed.setEvent final).standing final).platform.Apart _
    rw [hstanding]
    exact fun hday hkey => (hd e he other hin' hne hday.symm hkey.symm).symm

theorem finishFailure_accounted {eventId : Uuid} {quarantine : Bool} {targetGeneration : Nat}
    {deltas : List Delta} (h : Accounted initcap db rollups)
    (hs : finishFailure initcap db eventId quarantine targetGeneration = some (db', deltas)) :
    Accounted initcap db' (performDeltas rollups deltas) := by
  obtain ⟨e, he, hs⟩ := Option.bind_eq_some_iff.mp hs
  have he : db.events.find e.id = some e := (Table.find_eq_some.mp he).2 ▸ he
  cases hs
  split
  · exact restate_accounted e.processingState h he
  · exact restate_accounted (if quarantine then .quarantined else .failed) h he

theorem changeIssues_accounted {changes : List IssueChange} {deltas : List Delta}
    (h : Accounted initcap db rollups) (hs : db.changeIssues changes = some (db', deltas)) :
    Accounted initcap db' (performDeltas rollups deltas) := by
  obtain ⟨hsame, htallied⟩ := changeIssues_tallied hs h.tallied
  refine ⟨fun id => ?_, ?_, ?_, ?_⟩
  · rw [hsame.search, hsame.events]
    exact h.searched id
  · rw [hsame.events, hsame.releases]
    exact h.released
  · rw [Tables.entries, hsame.events, hsame.standing]
    exact htallied
  · rw [hsame.events, hsame.standing]
    exact h.apart

/-- What a transaction performs is what it changes. -/
theorem effects_accounted {action : Action} {deltas : List Delta} (h : Accounted initcap db rollups)
    (hd : Distinct db action) (hs : effects initcap db action = some (db', deltas)) :
    Accounted initcap db' (performDeltas rollups deltas) := by
  cases action with
  | createRelease release => exact createRelease_accounted h hs
  | ingest eventId receivedAt => exact ingest_accounted h hs
  | publish p => exact publish_accounted h hd hs
  | finishFailure eventId quarantine targetGeneration => exact finishFailure_accounted h hs
  | changeIssues changes => exact changeIssues_accounted h hs

theorem accounted_of_reachable {db : Database}
    (h : Reachable (restrict (step initcap) fun db => Distinct db.toTables) (fun _ => True)
      Database.init db) : Accounted initcap db.toTables db.rollups := by
  refine h.invariant (fun db => Accounted initcap db.toTables db.rollups) accounted_init
    fun s a s' _ hi hs _ => ?_
  obtain ⟨hd, hs⟩ := restrict_eq_some.mp hs
  obtain ⟨⟨db', deltas⟩, he, rfl⟩ := Option.map_eq_some_iff.mp hs
  exact effects_accounted hi hd he

end FaultLane.DailyRollups

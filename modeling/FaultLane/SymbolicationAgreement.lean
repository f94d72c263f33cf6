import FaultLane.SymbolicationRuns

set_option autoImplicit false

/-!
# Where the symbolication state is shown alike

What the rollup trigger performs is a sum over the events of their listed states, and the search
row of a current result holds a projection of its document. Only the demo shows the stored state
of an event that failed since.
-/
namespace FaultLane.SymbolicationRuns
open KeyedTable JobQueue Json RustText SymbolicationViews TransitionSystem
open DailyRollups (Tables Delta Timestamp SearchRow RollupKey ProcessingState SymbolicationState
  symbolicationOf dayOf)

/-! ## What the trigger performs -/

section deltas
variable {initcap : Text → Text} {day : Int} {state : SymbolicationState}

def mark (day : Int) (state : SymbolicationState) (day' : Int) (state' : SymbolicationState) :
    Int :=
  if day' = day ∧ state' = state then 1 else 0

theorem netOf_append (deltas deltas' : List Delta) (key : RollupKey) :
    netOf (deltas ++ deltas') key = netOf deltas key + netOf deltas' key := by
  unfold netOf
  rw [List.filter_append, List.map_append, List.sum_append]

theorem netOf_other {deltas : List Delta}
    (h : ∀ d ∈ deltas, d.key.dimension ≠ .symbolicationState) :
    netOf deltas (symbolicationKey day state) = 0 := by
  have hnone : (deltas.filter fun d => d.key = symbolicationKey day state) = [] := by
    refine List.filter_eq_nil_iff.mpr fun d hd hkey => h d hd ?_
    rw [of_decide_eq_true hkey]
    rfl
  unfold netOf
  rw [hnone]
  rfl

theorem netOf_symbolicationDelta (day' : Int) (state' : SymbolicationState) (delta : Int) :
    netOf [DailyRollups.symbolicationDelta initcap day' state' delta]
      (symbolicationKey day state) = mark day state day' state' * delta := by
  have hkey : (DailyRollups.symbolicationDelta initcap day' state' delta).key =
      symbolicationKey day state ↔ day' = day ∧ state' = state := by
    constructor
    · intro h
      exact ⟨congrArg RollupKey.day h,
        DailyRollups.SymbolicationState.text_injective (congrArg RollupKey.key h)⟩
    · rintro ⟨rfl, rfl⟩
      rfl
  unfold netOf mark
  rw [List.filter_singleton]
  by_cases h : day' = day ∧ state' = state
  · rw [if_pos h, decide_eq_true (hkey.mpr h), one_mul]
    exact add_zero delta
  · rw [if_neg h, decide_eq_false (mt hkey.mp h), Int.zero_mul]
    rfl

/-- A state trades for another, unless they are the same. -/
theorem netOf_trade (day' : Int) (old new : SymbolicationState) (guard : Prop) [Decidable guard]
    (hguard : ¬ guard → old = new) :
    netOf (if guard then [DailyRollups.symbolicationDelta initcap day' old (-1),
        DailyRollups.symbolicationDelta initcap day' new 1] else [])
      (symbolicationKey day state) = mark day state day' new - mark day state day' old := by
  by_cases h : guard
  · rw [if_pos h, ← List.singleton_append, netOf_append, netOf_symbolicationDelta,
      netOf_symbolicationDelta]
    omega
  · rw [if_neg h, hguard h, Int.sub_self]
    rfl

variable {db : Tables}

theorem netOf_updateEvent (initcap : Text → Text) (db : Tables) (day : Int)
    (state : SymbolicationState) (old new : DailyRollups.Event) {search : Option SymbolicationState}
    (hreceived : new.receivedAt = old.receivedAt)
    (hsearch : ((db.searchOf new).or (db.searchOf old)).map SearchRow.symbolicationState =
      search) :
    netOf (DailyRollups.updateCrashEventRollups initcap db old new) (symbolicationKey day state) =
      mark day state (dayOf old.receivedAt) (symbolicationOf new.processingState search) -
        mark day state (dayOf old.receivedAt) (symbolicationOf old.processingState search) := by
  have hday : ¬ dayOf old.receivedAt ≠ dayOf new.receivedAt := by
    rw [hreceived, not_not]
  unfold DailyRollups.updateCrashEventRollups
  rw [if_neg hday, hsearch]
  dsimp only
  rw [netOf_append, netOf_append, netOf_trade, netOf_other, netOf_other, zero_add, zero_add]
  · intro d hd
    split_ifs at hd
    · rcases List.mem_pair.mp hd with rfl | rfl <;> exact nofun
    · cases hd
  · intro d hd
    split_ifs at hd
    · rcases List.mem_pair.mp hd with rfl | rfl <;> exact nofun
    · cases hd
  · intro hguard
    by_cases hsame : old.processingState = new.processingState
    · rw [hsame]
    · exact not_not.mp fun hne => hguard ⟨hsame, hne⟩

theorem netOf_searchRow (initcap : Text → Text) (db : Tables) (day : Int)
    (state : SymbolicationState) {e : DailyRollups.Event} (old : Option SearchRow)
    {new : SearchRow}
    (he : db.events.find new.eventId = some e)
    (hskip : DailyRollups.skipsSearch e.currentResultId old new = false) :
    netOf (DailyRollups.updateCrashSearchRollups initcap db old new) (symbolicationKey day state) =
      mark day state (dayOf e.receivedAt)
          (symbolicationOf e.processingState (some new.symbolicationState)) -
        mark day state (dayOf e.receivedAt)
          (symbolicationOf e.processingState (old.map SearchRow.symbolicationState)) := by
  unfold DailyRollups.updateCrashSearchRollups
  simp only [he, hskip, Bool.false_eq_true, if_false]
  rw [netOf_append, netOf_append, netOf_trade, netOf_other, netOf_other, zero_add, zero_add]
  · intro d hd
    split_ifs at hd
    · rcases List.mem_pair.mp hd with rfl | rfl <;> rintro ⟨⟩
    · cases hd
  · intro d hd
    split_ifs at hd
    · rcases List.mem_pair.mp hd with rfl | rfl <;> rintro ⟨⟩
    · cases hd
  · exact not_not.mp

theorem netOf_insertEvent (e : DailyRollups.Event) :
    netOf (DailyRollups.insertCrashEventRollups initcap db e) (symbolicationKey day state) =
      mark day state (dayOf e.receivedAt) (db.symbolication e) := by
  let search := db.searchOf e
  have hsplit : DailyRollups.insertCrashEventRollups initcap db e =
      [DailyRollups.eventTotalDelta (dayOf e.receivedAt) 1,
        DailyRollups.releaseDelta (dayOf e.receivedAt) (db.releaseKey e) (db.releaseLabel e) 1,
        DailyRollups.platformDelta initcap (dayOf e.receivedAt) (search.bind SearchRow.platform)
          (search.bind SearchRow.architecture) 1,
        DailyRollups.crashTypeDelta initcap (dayOf e.receivedAt)
          (search.bind SearchRow.crashType) 1] ++
      ([DailyRollups.symbolicationDelta initcap (dayOf e.receivedAt) (db.symbolication e) 1] ++
        [DailyRollups.processingDelta initcap (dayOf e.receivedAt) e.processingState 1]) := rfl
  rw [hsplit, netOf_append, netOf_append, netOf_other, netOf_symbolicationDelta, netOf_other]
  · omega
  · simp [DailyRollups.processingDelta]
  · simp [DailyRollups.eventTotalDelta, DailyRollups.releaseDelta, DailyRollups.platformDelta,
      DailyRollups.crashTypeDelta]

theorem netOf_updateIssue (old : Option DailyRollups.Issue) (new : DailyRollups.Issue) :
    netOf (DailyRollups.updateIssueRollups old new) (symbolicationKey day state) = 0 := by
  refine netOf_other fun d hd => ?_
  unfold DailyRollups.updateIssueRollups at hd
  rcases List.mem_append.mp hd with hd | hd
  · split_ifs at hd
    · rcases List.mem_append.mp hd with hd | hd
      · obtain ⟨day', -, hd⟩ := List.mem_flatMap.mp hd
        rcases List.mem_pair.mp hd with rfl | rfl <;> exact nofun
      · rcases List.mem_pair.mp hd with rfl | rfl <;> exact nofun
    · cases hd
  · split_ifs at hd
    · rcases List.mem_append.mp hd with hd | hd <;>
        obtain ⟨day', -, rfl⟩ := List.mem_map.mp hd <;> exact nofun
    · cases hd

theorem netOf_changeIssues (day : Int) (state : SymbolicationState)
    {changes : List DailyRollups.IssueChange} {db' : Tables} {deltas : List Delta}
    (h : db.changeIssues changes = some (db', deltas)) :
    DailyRollups.SameEvents db db' ∧ netOf deltas (symbolicationKey day state) = 0 := by
  induction changes generalizing db deltas with
  | nil =>
    cases h
    exact ⟨.refl _, rfl⟩
  | cons change changes ih =>
    obtain ⟨⟨next, first⟩, hnext, h⟩ := Option.bind_eq_some_iff.mp h
    obtain ⟨⟨last, rest⟩, hlast, h⟩ := Option.bind_eq_some_iff.mp h
    cases h
    obtain ⟨hsame, hrest⟩ := ih hlast
    have hfirst : DailyRollups.SameEvents db next ∧
        netOf first (symbolicationKey day state) = 0 := by
      cases change with
      | insert issue =>
        obtain ⟨-, hnext⟩ := Option.ite_none_left_eq_some.mp hnext
        cases hnext
        exact ⟨⟨rfl, rfl, rfl⟩, netOf_updateIssue none issue⟩
      | update issue =>
        obtain ⟨old, -, hnext⟩ := Option.bind_eq_some_iff.mp hnext
        cases hnext
        exact ⟨⟨rfl, rfl, rfl⟩, netOf_updateIssue (some old) issue⟩
    rw [netOf_append, hfirst.2, hrest]
    exact ⟨hfirst.1.trans hsame, rfl⟩

end deltas

/-! ## The invariant -/

/-- The search row and the result of an event, and the state it was published with. -/
structure Kept (e : DailyRollups.Event) (row : SearchRow) (r : ProcessingResult)
    (published : ProcessingState) : Prop where
  event : r.eventId = e.id
  members : Nonempty (Members r.result)
  stored : row.symbolicationState = projectedSymbolicationState published r.result
  reported : published = .processed ∨ published = .awaitingSymbols
  state : e.processingState = published ∨
    e.processingState = .failed ∨ e.processingState = .quarantined

/-- What the trigger has to have performed for an event. -/
def marked (db : Tables) (day : Int) (state : SymbolicationState) (e : DailyRollups.Event) : Int :=
  mark day state (dayOf e.receivedAt) (db.symbolication e)

structure Sound (db : Tables) (results : Table ProcessingResult.id) (performed : List Delta) :
    Prop where
  searched : ∀ id, (db.search.find id).map SearchRow.resultId =
    (db.events.find id).bind DailyRollups.Event.currentResultId
  kept : ∀ e ∈ db.events, ∀ id ∈ e.currentResultId, ∃ row r published,
    db.search.find e.id = some row ∧ results.find id = some r ∧ Kept e row r published
  net : ∀ day state, netOf performed (symbolicationKey day state) =
    db.events.total (marked db day state)

theorem sound_init : Sound .init .empty [] where
  searched _ := rfl
  kept e he := absurd he (Table.not_mem_empty e)
  net _ _ := rfl

section sound
variable {initcap : Text → Text} {db db' : Tables} {results results' : Table ProcessingResult.id}
  {performed deltas : List Delta}

theorem Sound.search_find (h : Sound db results performed) {e : DailyRollups.Event}
    (he : e ∈ db.events) :
    (db.search.find e.id).map SearchRow.resultId = e.currentResultId := by
  rw [h.searched, Table.find_eq_some.mpr ⟨he, rfl⟩, Option.bind_some]

theorem Sound.searchOf (h : Sound db results performed) {e : DailyRollups.Event}
    (he : e ∈ db.events) : db.searchOf e = db.search.find e.id := by
  have hresult := h.search_find he
  unfold Tables.searchOf
  cases hf : db.search.find e.id with
  | none => rfl
  | some row =>
    rw [hf, Option.map_some] at hresult
    exact Option.filter_some_pos (decide_eq_true hresult)

theorem marked_congr {day : Int} {state : SymbolicationState} {e : DailyRollups.Event}
    (h : db'.search.find e.id = db.search.find e.id) :
    marked db' day state e = marked db day state e := by
  simp only [marked, Tables.symbolication, Tables.searchOf, h]

/-- The event with an id, and all others. -/
theorem total_marked (db : Tables) (day : Int) (state : SymbolicationState) (id : Uuid) :
    db.events.total (marked db day state) =
      ((db.events.find id).map (marked db day state)).getD 0 +
        (db.events.delete id).total (marked db day state) := by
  cases hf : db.events.find id with
  | some e => exact Table.total_delete hf _
  | none =>
    rw [Table.delete_eq_self hf]
    exact (Int.zero_add _).symm

/-- A transaction that leaves all events but one. -/
theorem Sound.of_change (h : Sound db results performed) (e' : DailyRollups.Event)
    (hid : db'.events.find e'.id = some e')
    (hdelete : db'.events.delete e'.id = db.events.delete e'.id)
    (hsearch : ∀ k, k ≠ e'.id → db'.search.find k = db.search.find k)
    (hresult : (db'.search.find e'.id).map SearchRow.resultId = e'.currentResultId)
    (hresults : ∀ id r, results.find id = some r → results'.find id = some r)
    (hkept : ∀ id ∈ e'.currentResultId, ∃ row r published,
      db'.search.find e'.id = some row ∧ results'.find id = some r ∧ Kept e' row r published)
    (hnet : ∀ day state, netOf deltas (symbolicationKey day state) =
      marked db' day state e' - ((db.events.find e'.id).map (marked db day state)).getD 0) :
    Sound db' results' (performed ++ deltas) := by
  have hfind : ∀ k, k ≠ e'.id → db'.events.find k = db.events.find k := fun k hk => by
    rw [← Table.find_delete_of_ne db'.events hk, hdelete, Table.find_delete_of_ne db.events hk]
  refine ⟨fun k => ?_, fun e he id hmem => ?_, fun day state => ?_⟩
  · by_cases hk : k = e'.id
    · rw [hk, hresult, hid, Option.bind_some]
    · rw [hsearch k hk, hfind k hk]
      exact h.searched k
  · have hfe := Table.find_eq_some.mpr ⟨he, rfl⟩
    by_cases hk : e.id = e'.id
    · rw [hk, hid] at hfe
      cases hfe
      exact hkept id hmem
    · rw [hfind _ hk] at hfe
      obtain ⟨row, r, published, hrow, hr, hall⟩ :=
        h.kept e (Table.find_eq_some.mp hfe).1 id hmem
      exact ⟨row, r, published, (hsearch _ hk).trans hrow, hresults id r hr, hall⟩
  · have hothers : (db'.events.delete e'.id).total (marked db' day state) =
        (db.events.delete e'.id).total (marked db day state) := by
      rw [hdelete]
      exact Table.total_congr fun e he => marked_congr (hsearch _ (Table.mem_delete.mp he).2)
    have hold := total_marked db day state e'.id
    rw [total_marked db' day state e'.id, hid, hothers, netOf_append, h.net, hnet, hold,
      Option.map_some, Option.getD_some]
    omega

/-! ## Statements -/

theorem Sound.same (h : Sound db results performed) (hsame : DailyRollups.SameEvents db db')
    (hnet : ∀ day state, netOf deltas (symbolicationKey day state) = 0) :
    Sound db' results (performed ++ deltas) := by
  refine ⟨fun id => ?_, ?_, fun day state => ?_⟩
  · rw [hsame.search, hsame.events]
    exact h.searched id
  · rw [hsame.search, hsame.events]
    exact h.kept
  · rw [netOf_append, hnet, hsame.events, h.net]
    exact (Int.add_zero _).trans (Table.total_congr fun e _ =>
      (marked_congr (by rw [hsame.search])).symm)

theorem Sound.createRelease (h : Sound db results performed) {release : DailyRollups.Release}
    (hs : DailyRollups.createRelease db release = some (db', deltas)) :
    Sound db' results (performed ++ deltas) := by
  obtain ⟨-, hs⟩ := Option.ite_none_left_eq_some.mp hs
  cases hs
  rw [List.append_nil]
  exact ⟨h.searched, h.kept, h.net⟩

theorem Sound.changeIssues (h : Sound db results performed)
    {changes : List DailyRollups.IssueChange}
    (hs : db.changeIssues changes = some (db', deltas)) :
    Sound db' results (performed ++ deltas) :=
  h.same (netOf_changeIssues 0 .failed hs).1 fun day state => (netOf_changeIssues day state hs).2

theorem Sound.ingest (h : Sound db results performed) {eventId : Uuid} {receivedAt : Timestamp}
    (hs : DailyRollups.ingest initcap db eventId receivedAt = some (db', deltas)) :
    Sound db' results (performed ++ deltas) := by
  obtain ⟨hfresh, hs⟩ := Option.ite_none_left_eq_some.mp hs
  cases hs
  have hnone : db.events.find eventId = none := by simpa using hfresh
  refine h.of_change ⟨eventId, receivedAt, .stored, none, none⟩
    (Table.find_insert_self hnone) (Table.delete_insert _ _) (fun _ _ => rfl) ?_
    (fun _ _ hr => hr) (by rintro _ ⟨⟩) fun day state => ?_
  · exact (h.searched eventId).trans (by rw [hnone]; rfl)
  · rw [hnone, netOf_insertEvent]
    exact (Int.sub_zero _).symm

/-- An event keeps its state, or fails. -/
theorem Sound.restate (h : Sound db results performed) {e : DailyRollups.Event}
    (he : db.events.find e.id = some e) {state : ProcessingState}
    (hstate : state = e.processingState ∨ state = .failed ∨ state = .quarantined) :
    Sound (db.updateEvent initcap e { e with processingState := state }).1 results
      (performed ++ (db.updateEvent initcap e { e with processingState := state }).2) := by
  obtain ⟨hin, -⟩ := Table.find_eq_some.mp he
  refine h.of_change { e with processingState := state } (DailyRollups.setEvent_find db _ he)
    (DailyRollups.setEvent_delete db _) (fun _ _ => rfl) ?_ (fun _ _ hr => hr)
    (fun id hid => ?_) fun day symbolication => ?_
  · exact (h.search_find hin :)
  · obtain ⟨row, r, published, hrow, hr, hall⟩ := h.kept e hin id hid
    refine ⟨row, r, published, hrow, hr, hall.event, hall.members, hall.stored, hall.reported, ?_⟩
    rcases hstate with rfl | hfailed
    · exact hall.state
    · exact .inr hfailed
  · have hnet := netOf_updateEvent initcap (db.setEvent { e with processingState := state }) day
      symbolication e { e with processingState := state } rfl
      (congrArg (Option.map SearchRow.symbolicationState) Option.or_self)
    rw [he, Option.map_some, Option.getD_some]
    exact hnet

theorem Sound.finishFailure (h : Sound db results performed) {eventId : Uuid} {quarantine : Bool}
    {target : Nat}
    (hs : DailyRollups.finishFailure initcap db eventId quarantine target = some (db', deltas)) :
    Sound db' results (performed ++ deltas) := by
  obtain ⟨e, he, hs⟩ := Option.bind_eq_some_iff.mp hs
  have he : db.events.find e.id = some e := (Table.find_eq_some.mp he).2 ▸ he
  cases hs
  split
  · exact h.restate he (.inl rfl)
  · refine h.restate he (.inr ?_)
    cases quarantine
    · exact .inl rfl
    · exact .inr rfl

/-- Before the first result there is no search row, and afterwards it is that of the current
one. -/
theorem Sound.skipsSearch_eq (h : Sound db results performed) {e : DailyRollups.Event}
    (new : SearchRow) (he : db.events.find new.eventId = some e) :
    DailyRollups.skipsSearch e.currentResultId (db.search.find new.eventId) new = false := by
  have hresult := h.searched new.eventId
  rw [he, Option.bind_some] at hresult
  rw [← hresult]
  cases db.search.find new.eventId with
  | none => rfl
  | some row => simp [DailyRollups.skipsSearch]

theorem Sound.publish (h : Sound db results performed) {p : DailyRollups.Publication}
    {r : ProcessingResult} (hs : DailyRollups.publish initcap db p = some (db', deltas))
    (hresults : ∀ id r, results.find id = some r → results'.find id = some r)
    (hr : results'.find p.search.resultId = some r) (hevent : r.eventId = p.search.eventId)
    (hmembers : Nonempty (Members r.result))
    (hstored : p.search.symbolicationState = projectedSymbolicationState p.state r.result) :
    Sound db' results' (performed ++ deltas) := by
  obtain ⟨e, he, hs⟩ := Option.bind_eq_some_iff.mp hs
  obtain ⟨-, hs⟩ := Option.ite_none_left_eq_some.mp hs
  obtain ⟨⟨changed, issueDeltas⟩, hchanged, hs⟩ := Option.bind_eq_some_iff.mp hs
  cases hs
  obtain ⟨hin, hid⟩ := Table.find_eq_some.mp he
  have hsame := (netOf_changeIssues 0 .failed hchanged).1
  let searched := (db.upsertSearch initcap p.search).1
  let mapped : DailyRollups.Event := { e with releaseId := p.release }
  let final : DailyRollups.Event :=
    { mapped with currentResultId := some p.search.resultId, processingState := p.state }
  have hmapped : changed.events.find final.id = some mapped := by
    rw [hsame.events]
    exact DailyRollups.setEvent_find searched mapped (hid ▸ he)
  have hdelete : changed.events.delete final.id = db.events.delete final.id := by
    rw [hsame.events]
    exact DailyRollups.setEvent_delete searched mapped
  have hrow : changed.search.find final.id = some p.search := by
    rw [hsame.search]
    change (db.upsertSearch initcap p.search).1.search.find e.id = some p.search
    rw [hid]
    exact DailyRollups.upsertSearch_find initcap db p.search
  have hrows : ∀ k, k ≠ final.id → changed.search.find k = db.search.find k := fun k hk => by
    rw [hsame.search]
    exact DailyRollups.upsertSearch_find_of_ne initcap db p.search (hid ▸ hk)
  have hfound : (changed.setEvent final).searchOf final = some p.search := by
    change (changed.search.find final.id).filter _ = _
    rw [hrow]
    exact Option.filter_some_pos (decide_eq_true rfl)
  refine h.of_change final (DailyRollups.setEvent_find changed final hmapped)
    ((DailyRollups.setEvent_delete changed final).trans hdelete) hrows
    (congrArg (Option.map SearchRow.resultId) hrow) hresults (fun id hmem => ?_)
    fun day state => ?_
  · cases hmem
    refine ⟨p.search, r, p.state, hrow, hr, hevent.trans hid.symm, hmembers, hstored, ?_, .inl rfl⟩
    unfold DailyRollups.Publication.state
    cases p.resolved
    · exact .inr rfl
    · exact .inl rfl
  · have hold : marked db day state e = mark day state (dayOf e.receivedAt)
        (symbolicationOf e.processingState
          ((db.search.find p.search.eventId).map SearchRow.symbolicationState)) := by
      rw [marked, Tables.symbolication, h.searchOf hin, hid]
    have hnew : marked (changed.setEvent final) day state final = mark day state
        (dayOf e.receivedAt) (symbolicationOf p.state (some p.search.symbolicationState)) := by
      rw [marked, Tables.symbolication, hfound]
      rfl
    have hfirst := netOf_searchRow initcap searched day state
      (db.search.find p.search.eventId) he (h.skipsSearch_eq p.search he)
    have hsecond := netOf_updateEvent initcap (searched.setEvent mapped) day state e mapped rfl rfl
    have hthird := (netOf_changeIssues day state hchanged).2
    have hjoined : (((changed.setEvent final).searchOf final).or
        ((changed.setEvent final).searchOf mapped)).map SearchRow.symbolicationState =
          some p.search.symbolicationState := by
      rw [hfound]
      rfl
    have hfourth := netOf_updateEvent initcap (changed.setEvent final) day state mapped final rfl
      hjoined
    have hfind : db.events.find final.id = some e := hid ▸ he
    let key := symbolicationKey day state
    have hdeltas : netOf ((db.upsertSearch initcap p.search).2 ++
        (searched.updateEvent initcap e mapped).2 ++ issueDeltas ++
        (changed.updateEvent initcap mapped final).2) key =
        netOf (db.upsertSearch initcap p.search).2 key +
          netOf (searched.updateEvent initcap e mapped).2 key + netOf issueDeltas key +
          netOf (changed.updateEvent initcap mapped final).2 key := by
      rw [netOf_append, netOf_append, netOf_append]
    rw [hfind, Option.map_some, Option.getD_some, hold, hnew]
    refine hdeltas.trans ?_
    let shown (state' : ProcessingState) (search : Option SymbolicationState) : Int :=
      mark day state (dayOf e.receivedAt) (symbolicationOf state' search)
    let before := (db.search.find p.search.eventId).map SearchRow.symbolicationState
    let after := some p.search.symbolicationState
    have hupserted : netOf (db.upsertSearch initcap p.search).2 key =
        shown e.processingState after - shown e.processingState before := hfirst
    have hreleased : netOf (searched.updateEvent initcap e mapped).2 key = 0 :=
      hsecond.trans (Int.sub_self _)
    have hfinished : netOf (changed.updateEvent initcap mapped final).2 key =
        shown p.state after - shown e.processingState after := hfourth
    rw [hupserted, hreleased, hthird, hfinished]
    change _ = shown p.state after - shown e.processingState before
    omega

/-! ## Views of a sound state -/

theorem Sound.view_of_none (h : Sound db results performed) {e : DailyRollups.Event}
    (he : e ∈ db.events) (hnone : e.currentResultId = none) : db.searchOf e = none := by
  have hresult := h.search_find he
  rw [hnone, Option.map_eq_none_iff] at hresult
  rw [h.searchOf he, hresult]

end sound

def State.Sound (s : State) : Prop := SymbolicationRuns.Sound s.tables s.results s.performed

/-- Only an event without a result has failed. -/
def Reported (db : Tables) : Prop :=
  ∀ e ∈ db.events, e.processingState = .failed ∨ e.processingState = .quarantined →
    e.currentResultId = none

section views
variable {s : State} {e : DailyRollups.Event}

theorem State.Sound.views_of_none (h : s.Sound) (he : e ∈ s.tables.events)
    (hnone : e.currentResultId = none) :
    s.searchState e = none ∧ s.currentResult e = none := by
  have hsearch := SymbolicationRuns.Sound.view_of_none h he hnone
  unfold State.searchState State.currentResult
  rw [hsearch, hnone]
  exact ⟨rfl, rfl⟩

/-- With a result, the search row holds a projection of it, which is no failure. -/
theorem State.Sound.views_of_some (h : s.Sound) (he : e ∈ s.tables.events)
    (hsome : e.currentResultId.isSome) : ∃ result published, s.currentResult e = some result ∧
      s.searchState e = some (projectedSymbolicationState published result) ∧
      Nonempty (Members result) ∧ (published = .processed ∨ published = .awaitingSymbols) ∧
      (e.processingState = published ∨
        e.processingState = .failed ∨ e.processingState = .quarantined) := by
  obtain ⟨id, hid⟩ := Option.isSome_iff_exists.mp hsome
  obtain ⟨row, r, published, hrow, hr, hkept⟩ := h.kept e he id hid
  refine ⟨r.result, published, ?_, ?_, hkept.members, hkept.reported, hkept.state⟩
  · unfold State.currentResult
    rw [hid, Option.bind_some, hr]
    exact if_pos hkept.event
  · unfold State.searchState
    rw [SymbolicationRuns.Sound.searchOf h he, hrow, Option.map_some, hkept.stored]

theorem projected_ne_failed {published : ProcessingState} (result : Json)
    (h : published = .processed ∨ published = .awaitingSymbols) :
    projectedSymbolicationState published result ≠ .failed := by
  unfold projectedSymbolicationState
  rcases h with rfl | rfl <;> cases CrashSymbols.hasResolvedFrame result <;>
    cases hasMissingModule result <;> decide

theorem State.Sound.detail_eq (h : s.Sound) (he : e ∈ s.tables.events) :
    detailState e.processingState (s.currentResult e) = s.listState e := by
  unfold State.listState
  cases hid : e.currentResultId with
  | none =>
    obtain ⟨hsearch, hresult⟩ := h.views_of_none he hid
    rw [hsearch, hresult]
    exact (SymbolicationViews.views_of_none e.processingState).1
  | some id =>
    obtain ⟨result, published, hresult, hsearch, ⟨p⟩, -, hstate⟩ :=
      h.views_of_some he (by rw [hid]; rfl)
    rw [hsearch, hresult, p.detailState_eq, symbolicationOf_projected hstate]

theorem State.Sound.projected_eq (h : s.Sound) (he : e ∈ s.tables.events)
    (hsome : e.currentResultId.isSome) : ∃ result ∈ s.currentResult e,
      s.listState e = projectedSymbolicationState e.processingState result := by
  obtain ⟨result, published, hresult, hsearch, -, -, hstate⟩ := h.views_of_some he hsome
  refine ⟨result, hresult, ?_⟩
  rw [State.listState, hsearch]
  exact symbolicationOf_projected hstate

/-- The demo shows the list's state, unless the event failed after its result. -/
theorem State.Sound.demo_iff (h : s.Sound) (he : e ∈ s.tables.events) :
    demoState e.processingState (s.searchState e) = s.listState e ↔
      (e.processingState = .failed ∨ e.processingState = .quarantined →
        e.currentResultId = none) := by
  unfold State.listState
  cases hid : e.currentResultId with
  | none =>
    rw [(h.views_of_none he hid).1]
    exact ⟨fun _ _ => rfl, fun _ => (SymbolicationViews.views_of_none e.processingState).2⟩
  | some id =>
    obtain ⟨result, published, -, hsearch, -, hreported, hstate⟩ :=
      h.views_of_some he (by rw [hid]; rfl)
    rw [hsearch, symbolicationOf_projected hstate]
    constructor
    · intro heq hfailed
      have hprojected : projectedSymbolicationState e.processingState result = .failed :=
        if_pos hfailed
      exact absurd (heq.trans hprojected) (projected_ne_failed result hreported)
    · intro hnone
      have hpublished := hstate.resolve_right fun hfailed => absurd (hnone hfailed) nofun
      rw [hpublished]
      rfl

theorem State.Sound.rollup_eq (h : s.Sound) (day : Int) (state : SymbolicationState) :
    netOf s.performed (symbolicationKey day state) = (s.listed day state).length := by
  rw [h.net]
  unfold Table.total State.listed
  induction s.tables.events.rows with
  | nil => rfl
  | cons e rest ih =>
    rw [List.map_cons, List.sum_cons, ih, List.filter_cons]
    by_cases hmark : dayOf e.receivedAt = day ∧ s.listState e = state
    · have hone : marked s.tables day state e = 1 := if_pos hmark
      rw [if_pos (decide_eq_true hmark), hone, List.length_cons]
      omega
    · have hzero : marked s.tables day state e = 0 := if_neg hmark
      rw [if_neg (by simpa using hmark), hzero, Int.zero_add]

theorem State.Sound.agrees (h : s.Sound) (hreported : Reported s.tables) : s.Agrees where
  detail _ he := h.detail_eq he
  demo e he := (h.demo_iff he).mpr (hreported e he)
  rollup := h.rollup_eq
  projected _ he := h.projected_eq he

end views

/-! ## Steps -/

section steps
variable {initcap : Text → Text} {s s' : State} {a : Action}

/-- What a step on jobs and claims leaves. -/
structure SameTables (s s' : State) : Prop where
  tables : s'.tables = s.tables
  results : s'.results = s.results
  performed : s'.performed = s.performed

theorem SameTables.sound (h : SameTables s s') (hs : s.Sound) : s'.Sound := by
  unfold State.Sound
  rwa [h.tables, h.results, h.performed]

theorem putAll_same {f : Reprocessing.Event → Reprocessing.Event} {ids : List Uuid}
    (h : State.putAll f ids s = some s') : SameTables s s' := by
  induction ids generalizing s with
  | nil =>
    cases h
    exact ⟨rfl, rfl, rfl⟩
  | cons id rest ih =>
    obtain ⟨w, -, h⟩ := Option.bind_eq_some_iff.mp h
    obtain ⟨htables, hresults, hperformed⟩ := ih h
    exact ⟨htables, hresults, hperformed⟩

theorem claim_same {id eventId : Uuid} {holder : Holder}
    (h : claim s id eventId holder = some s') : SameTables s s' := by
  obtain ⟨claimer, -, h⟩ := Option.bind_eq_some_iff.mp h
  obtain ⟨target, -, h⟩ := Option.bind_eq_some_iff.mp h
  obtain ⟨w, -, h⟩ := Option.bind_eq_some_iff.mp h
  obtain ⟨j, -, h⟩ := Option.bind_eq_some_iff.mp h
  obtain ⟨-, h⟩ := Option.ite_none_left_eq_some.mp h
  cases h
  exact ⟨rfl, rfl, rfl⟩

theorem heartbeat_same {startedAt : Nat} {token : Uuid}
    (h : heartbeat s startedAt token = some s') : SameTables s s' := by
  obtain ⟨⟨attempt, w⟩, -, h⟩ := Option.bind_eq_some_iff.mp h
  obtain ⟨j, -, h⟩ := Option.bind_eq_some_iff.mp h
  cases h
  exact ⟨rfl, rfl, rfl⟩

theorem releaseJob_same {startedAt token seconds : Nat} {resource dependency : Bool}
    {code : String}
    (h : releaseJob s startedAt token seconds resource dependency code = some s') :
    SameTables s s' := by
  obtain ⟨⟨attempt, w⟩, -, h⟩ := Option.bind_eq_some_iff.mp h
  obtain ⟨j, -, h⟩ := Option.bind_eq_some_iff.mp h
  cases h
  exact ⟨rfl, rfl, rfl⟩

theorem store_eq_some {eventId resultId id : Uuid} {result : Json}
    {results : Table ProcessingResult.id}
    (h : s.store eventId resultId result = some (results, id)) :
    (∀ id r, s.results.find id = some r → results.find id = some r) ∧
      ∃ r, results.find id = some r ∧ r.eventId = eventId ∧ r.result = result := by
  unfold State.store at h
  split at h
  · next r hfound =>
    cases h
    have hr := List.find?_some hfound
    rw [decide_eq_true_eq] at hr
    have hin : r ∈ s.results := List.mem_of_find?_eq_some hfound
    exact ⟨fun _ _ hr => hr, r, Table.find_eq_some.mpr ⟨hin, rfl⟩, hr.1, hr.2.2⟩
  · obtain ⟨hfresh, h⟩ := Option.ite_none_left_eq_some.mp h
    cases h
    have hnone : s.results.find resultId = none := by simpa using hfresh
    refine ⟨fun id r hr => ?_, _, Table.find_insert_self hnone, rfl, rfl⟩
    have hne : id ≠ resultId := fun heq => by
      rw [heq, hnone] at hr
      cases hr
    rw [Table.find_insert_of_ne hne, hr]

/-- A publication, as the tables see it. -/
theorem publish_cases {startedAt : Nat} {token : Uuid} {p : Publication}
    (h : publish initcap s startedAt token p = some s') :
    ∃ (q : DailyRollups.Publication) (r : ProcessingResult) (deltas : List Delta),
      DailyRollups.publish initcap s.tables q = some (s'.tables, deltas) ∧
      s'.performed = s.performed ++ deltas ∧
      (∀ id r, s.results.find id = some r → s'.results.find id = some r) ∧
      s'.results.find q.search.resultId = some r ∧ r.eventId = q.search.eventId ∧
      Nonempty (Members r.result) ∧
      q.search.symbolicationState = projectedSymbolicationState q.state r.result := by
  obtain ⟨⟨attempt, w⟩, -, h⟩ := Option.bind_eq_some_iff.mp h
  obtain ⟨j, -, h⟩ := Option.bind_eq_some_iff.mp h
  obtain ⟨hvalid, h⟩ := Option.ite_none_right_eq_some.mp h
  obtain ⟨⟨results, id⟩, hstore, h⟩ := Option.bind_eq_some_iff.mp h
  obtain ⟨⟨tables, deltas⟩, hpublish, h⟩ := Option.bind_eq_some_iff.mp h
  obtain ⟨w', -, h⟩ := Option.bind_eq_some_iff.mp h
  cases h
  obtain ⟨hkept, r, hr, hevent, hresult⟩ := store_eq_some hstore
  obtain ⟨members⟩ := members_of_valid hvalid
  refine ⟨_, r, deltas, hpublish, rfl, hkept, hr, hevent, ?_, ?_⟩
  · rw [hresult]
    exact members.redactAndIndex s.rules
  · rw [hresult]
    rfl

theorem finishFailure_cases {startedAt : Nat} {token : Uuid} {quarantine resource : Bool}
    {code : String}
    (h : finishFailure initcap s startedAt token quarantine resource code = some s') :
    ∃ attempt ∈ s.attempts.find token, ∃ deltas,
      DailyRollups.finishFailure initcap s.tables attempt.eventId quarantine attempt.target =
        some (s'.tables, deltas) ∧
      s'.performed = s.performed ++ deltas ∧ s'.results = s.results := by
  obtain ⟨⟨attempt, w⟩, hattempt, h⟩ := Option.bind_eq_some_iff.mp h
  obtain ⟨j, -, h⟩ := Option.bind_eq_some_iff.mp h
  obtain ⟨⟨tables, deltas⟩, hfailure, h⟩ := Option.bind_eq_some_iff.mp h
  obtain ⟨w', -, h⟩ := Option.bind_eq_some_iff.mp h
  cases h
  obtain ⟨found, hfound, hattempt⟩ := Option.bind_eq_some_iff.mp hattempt
  obtain ⟨_, -, hattempt⟩ := Option.bind_eq_some_iff.mp hattempt
  obtain ⟨-, hattempt⟩ := Option.ite_none_right_eq_some.mp hattempt
  cases hattempt
  exact ⟨attempt, hfound, deltas, hfailure, rfl, rfl⟩

/-- The steps that leave the tables alone. -/
theorem quiet_same (h : step initcap s a = some s')
    (hquiet : match a with
      | .createRelease _ | .changeIssues _ | .ingest _ _ | .publish _ _ _
      | .finishFailure _ _ _ _ _ => False
      | _ => True) : SameTables s s' := by
  cases a with
  | tick | changeRules =>
    cases h
    exact ⟨rfl, rfl, rfl⟩
  | schedule => exact putAll_same (Option.ite_none_right_eq_some.mp h).2
  | reconcile => exact putAll_same (Option.ite_none_right_eq_some.mp h).2
  | beginClaim =>
    obtain ⟨-, h⟩ := Option.ite_none_right_eq_some.mp h
    cases h
    exact ⟨rfl, rfl, rfl⟩
  | claim => exact claim_same h
  | heartbeat => exact heartbeat_same h
  | releaseJob => exact releaseJob_same h
  | createRelease | changeIssues | ingest | publish | finishFailure => exact hquiet.elim

theorem State.Sound.step (h : s.Sound) (hs : step initcap s a = some s') : s'.Sound := by
  cases a with
  | createRelease release =>
    obtain ⟨⟨tables, deltas⟩, hcreate, rfl⟩ := Option.map_eq_some_iff.mp hs
    exact SymbolicationRuns.Sound.createRelease h hcreate
  | changeIssues changes =>
    obtain ⟨⟨tables, deltas⟩, hchange, rfl⟩ := Option.map_eq_some_iff.mp hs
    exact SymbolicationRuns.Sound.changeIssues h hchange
  | ingest eventId receivedAt =>
    obtain ⟨⟨tables, deltas⟩, hingest, rfl⟩ := Option.map_eq_some_iff.mp hs
    exact SymbolicationRuns.Sound.ingest h hingest
  | publish startedAt token p =>
    obtain ⟨q, r, deltas, hpublish, hperformed, hkept, hr, hevent, hmembers, hstored⟩ :=
      publish_cases hs
    unfold State.Sound
    rw [hperformed]
    exact SymbolicationRuns.Sound.publish h hpublish hkept hr hevent hmembers hstored
  | finishFailure startedAt token quarantine resource code =>
    obtain ⟨attempt, -, deltas, hfailure, hperformed, hresults⟩ := finishFailure_cases hs
    unfold State.Sound
    rw [hperformed, hresults]
    exact SymbolicationRuns.Sound.finishFailure h hfailure
  | _ => exact (quiet_same hs trivial).sound h

/-! ## Failures -/

theorem Reported.setEvent {db : Tables} (h : Reported db) (new : DailyRollups.Event)
    (hnew : new.processingState = .failed ∨ new.processingState = .quarantined →
      new.currentResultId = none) : Reported (db.setEvent new) := by
  intro e he hfailed
  have hmem := @Table.mem_modify _ _ _ _ db.events new.id (fun old => { new with id := old.id })
    (fun _ => rfl) e
  rcases hmem.mp he with ⟨he, -⟩ | ⟨old, -, rfl⟩
  · exact h e he hfailed
  · exact hnew hfailed

theorem Reported.publish {db db' : Tables} {p : DailyRollups.Publication} {deltas : List Delta}
    (h : Reported db) (hs : DailyRollups.publish initcap db p = some (db', deltas)) :
    Reported db' := by
  obtain ⟨e, he, hs⟩ := Option.bind_eq_some_iff.mp hs
  obtain ⟨-, hs⟩ := Option.ite_none_left_eq_some.mp hs
  obtain ⟨⟨changed, issueDeltas⟩, hchanged, hs⟩ := Option.bind_eq_some_iff.mp hs
  cases hs
  have hstate : ¬ (p.state = .failed ∨ p.state = .quarantined) := by
    unfold DailyRollups.Publication.state
    cases p.resolved <;> decide
  have hsearched : Reported (db.upsertSearch initcap p.search).1 := h
  have hmapped := hsearched.setEvent { e with releaseId := p.release }
    (h e (Table.find_eq_some.mp he).1)
  have hissues : Reported changed := by
    unfold Reported
    rw [(netOf_changeIssues 0 .failed hchanged).1.events]
    exact hmapped
  exact hissues.setEvent _ fun hfailed => absurd hfailed hstate

theorem Reported.finishFailure {db db' : Tables} {eventId : Uuid} {quarantine : Bool} {target : Nat}
    {deltas : List Delta} (h : Reported db)
    (hfirst : target = 0 → ∀ e ∈ db.events.find eventId, e.currentResultId = none)
    (hs : DailyRollups.finishFailure initcap db eventId quarantine target = some (db', deltas)) :
    Reported db' := by
  obtain ⟨e, he, hs⟩ := Option.bind_eq_some_iff.mp hs
  cases hs
  split
  · exact h.setEvent e (h e (Table.find_eq_some.mp he).1)
  · next hkeeps =>
    refine h.setEvent _ fun _ => ?_
    by_cases hzero : target = 0
    · exact hfirst hzero e he
    · have hnone : ¬ e.currentResultId.isSome := fun hsome =>
        hkeeps ⟨Nat.pos_of_ne_zero hzero, hsome⟩
      exact Option.not_isSome_iff_eq_none.mp hnone

theorem reported_step (h : Reported s.tables) (hfails : FailsUnpublished s a)
    (hs : step initcap s a = some s') : Reported s'.tables := by
  cases a with
  | createRelease release =>
    obtain ⟨⟨tables, deltas⟩, hcreate, rfl⟩ := Option.map_eq_some_iff.mp hs
    obtain ⟨-, hcreate⟩ := Option.ite_none_left_eq_some.mp hcreate
    cases hcreate
    exact h
  | changeIssues changes =>
    obtain ⟨⟨tables, deltas⟩, hchange, rfl⟩ := Option.map_eq_some_iff.mp hs
    unfold Reported
    rw [(netOf_changeIssues 0 .failed hchange).1.events]
    exact h
  | ingest eventId receivedAt =>
    obtain ⟨⟨tables, deltas⟩, hingest, rfl⟩ := Option.map_eq_some_iff.mp hs
    obtain ⟨-, hingest⟩ := Option.ite_none_left_eq_some.mp hingest
    cases hingest
    intro e he hfailed
    rcases Table.mem_of_mem_insert he with rfl | he
    · rfl
    · exact h e he hfailed
  | publish startedAt token p =>
    obtain ⟨q, r, deltas, hpublish, -⟩ := publish_cases hs
    exact h.publish hpublish
  | finishFailure startedAt token quarantine resource code =>
    obtain ⟨attempt, hattempt, deltas, hfailure, -⟩ := finishFailure_cases hs
    exact h.finishFailure (hfails attempt hattempt) hfailure
  | _ =>
    rw [(quiet_same hs trivial).tables]
    exact h

/-- The exception: an attempt for no generation that fails after another has published. -/
theorem agrees_of_reachable (initcap : Text → Text) (s : State)
    (h : Reachable (restrict (step initcap) FailsUnpublished) (fun _ => True) .init s) :
    s.Agrees := by
  have hinvariant := h.invariant (fun s => s.Sound ∧ Reported s.tables)
    ⟨sound_init, fun e he => absurd he (Table.not_mem_empty e)⟩ fun s a s' _ hi hs _ => by
      obtain ⟨hfails, hs⟩ := restrict_eq_some.mp hs
      exact ⟨hi.1.step hs, reported_step hi.2 hfails hs⟩
  exact hinvariant.1.agrees hinvariant.2

end steps

def sampleCrash : Publication :=
  ⟨11, "UECC-1", PublishedText.resultSample "boss" "D:/Boss.cpp" [], true, none,
    [.insert ⟨7, 0, 0, .new⟩]⟩

/-- A result, and a second generation that is quarantined. -/
def quarantinedRun : List Action :=
  [.ingest 1 0, .beginClaim 0 1, .claim 1 1 ⟨9, 91⟩, .publish 0 91 sampleCrash,
    .schedule 0 5 [1], .beginClaim 0 2, .claim 2 1 ⟨9, 92⟩,
    .finishFailure 0 92 true false "processor_rejected"]

/-- A claim whose snapshot sees the expired lease and no request, while a request is made and the
first attempt publishes in a transaction that began before the lease expired. -/
def staleRun : List Action :=
  [.ingest 1 0, .beginClaim 0 1, .claim 1 1 ⟨9, 91⟩, .tick 301, .beginClaim 301 2,
    .schedule 301 5 [1], .publish 299 91 sampleCrash, .claim 2 1 ⟨8, 92⟩,
    .finishFailure 301 92 false false "processor_failed"]

theorem agrees_quarantinedRun : ∃ s : State, s.Agrees ∧
    s.tables.events.rows.map (fun e => (e.processingState, s.listState e)) =
      [(.processed, .readable)] := by
  have hrun : (run (restrict (step DailyRollups.asciiInitcap) FailsUnpublished) (fun _ => True)
      .init quarantinedRun).isSome := by
    decide +kernel
  obtain ⟨s, hs⟩ := Option.isSome_iff_exists.mp hrun
  have hend : ∀ u ∈ run (restrict (step DailyRollups.asciiInitcap) FailsUnpublished)
      (fun _ => True) .init quarantinedRun,
      u.tables.events.rows.map (fun e => (e.processingState, u.listState e)) =
        [(.processed, .readable)] := by
    decide +kernel
  exact ⟨s, agrees_of_reachable DailyRollups.asciiInitcap s (Reachable.of_run (.init trivial) hs),
    hend s hs⟩

/-- The list shows a failure, and the demo a readable crash. -/
theorem not_agrees_staleRun : ¬ ∀ (initcap : Text → Text) (s : State),
    Reachable (step initcap) (fun _ => True) .init s → s.Agrees := by
  intro h
  have hrun : (run (step DailyRollups.asciiInitcap) (fun _ => True) .init staleRun).isSome := by
    decide +kernel
  obtain ⟨s, hs⟩ := Option.isSome_iff_exists.mp hrun
  have hend : ∀ u ∈ run (step DailyRollups.asciiInitcap) (fun _ => True) .init staleRun,
      ∃ e ∈ u.tables.events.rows, u.listState e = .failed ∧
        demoState e.processingState (u.searchState e) = .readable := by
    decide +kernel
  obtain ⟨e, he, hlist, hdemo⟩ := hend s hs
  have hagrees := h _ s (Reachable.of_run (.init trivial) hs)
  have heq := hdemo.symm.trans ((hagrees.demo e he).trans hlist)
  cases heq

end FaultLane.SymbolicationRuns

import FaultLane.DailyRollupsEntries

set_option autoImplicit false

/-!
# The triggers of the daily rollups

Each trigger keeps the rollups a tally of what its row counts for, and all others.
-/
namespace FaultLane.DailyRollups
open RustText
variable {initcap : Text → Text} {db : Tables}

def Tables.standing (db : Tables) (e : Event) : Standing where
  day := dayOf e.receivedAt
  release := e.releaseId
  pair := db.platformOf e
  crashType := (db.searchOf e).bind SearchRow.crashType
  symbolication := db.symbolication e
  processing := e.processingState

def firstEntries (day : Option Int) : List Entry :=
  day.toList.flatMap fun day => [.issue day, .newIssue day]

def regressedEntries (day : Option Int) : List Entry := day.toList.map .regressed

def issueEntries (i : Option Issue) : List Entry :=
  firstEntries (i.map Issue.firstDay) ++ regressedEntries (i.bind Issue.regressedDay)

theorem issueEntries_dimension (i : Option Issue) :
    ∀ x ∈ issueEntries i, x.key.dimension ≠ .platformArchitecture := by
  intro x hx
  rcases List.mem_append.mp hx with hx | hx
  · obtain ⟨day, -, hx⟩ := List.mem_flatMap.mp hx
    rcases List.mem_pair.mp hx with rfl | rfl <;> exact nofun
  · obtain ⟨day, -, rfl⟩ := List.mem_map.mp hx
    exact nofun

theorem insertCrashEventRollups_eq {e : Event} (h : e.releaseId = none) :
    insertCrashEventRollups initcap db e =
      (Slot.all.map (db.standing e).entry).map fun x => x.delta initcap db.releases 1 := by
  have hrelease : db.releaseOf e = none := by
    rw [Tables.releaseOf, h, Option.bind_none]
  unfold insertCrashEventRollups Tables.releaseKey Tables.releaseLabel
  rw [hrelease]
  simp only [Slot.all, List.map_cons, List.map_nil, Standing.entry, Tables.standing, h]
  rfl

section
variable {s : Standing} {others : Multiset Entry} {rollups : Rollups}

/-- The trigger on search rows, when it does not leave its work to the other. -/
theorem Tallied.searched {e : Event} {old : Option SearchRow} {new : SearchRow}
    (h : Tallied initcap db.releases rollups (s.entries + others))
    (he : db.events.find new.eventId = some e)
    (hskip : skipsSearch e.currentResultId old new = false)
    (hday : s.day = dayOf e.receivedAt)
    (hpair : s.pair = (coalesce (old.bind SearchRow.platform),
      coalesce (old.bind SearchRow.architecture)))
    (hcrash : s.crashType = old.bind SearchRow.crashType)
    (hsymbolication : s.symbolication =
      symbolicationOf e.processingState (old.map SearchRow.symbolicationState))
    (hothers : ∀ y ∈ others, (s.entry .platform).Apart y) :
    Tallied initcap db.releases
      (performDeltas rollups (updateCrashSearchRollups initcap db old new))
      (Standing.entries { s with
        pair := (coalesce new.platform, coalesce new.architecture)
        crashType := new.crashType
        symbolication := symbolicationOf e.processingState (some new.symbolicationState) } +
        others) := by
  have hplatform := h.trade { s with pair := (coalesce new.platform, coalesce new.architecture) }
    .platform (coalesce (old.bind SearchRow.platform) ≠ coalesce new.platform ∨
      coalesce (old.bind SearchRow.architecture) ≠ coalesce new.architecture)
    (fun j hj => by cases j <;> first | rfl | exact absurd rfl hj) hothers (fun hsame => by
      obtain ⟨hp, ha⟩ := not_or.mp hsame
      rw [Standing.entry, Standing.entry, hpair, not_not.mp hp, not_not.mp ha])
  have hcrashType := hplatform.trade
    { s with
      pair := (coalesce new.platform, coalesce new.architecture)
      crashType := new.crashType }
    .crashType (crashTypeText (old.bind SearchRow.crashType) ≠ crashTypeText new.crashType)
    (fun j hj => by cases j <;> first | rfl | exact absurd rfl hj)
    (fun y _ => Standing.apart_of_ne (by decide) y) (fun hsame => by
      have htext : crashTypeText s.crashType = crashTypeText new.crashType :=
        hcrash ▸ not_not.mp hsame
      exact congrArg (fun text : Text => ((RollupKey.mk s.day .crashType text).left,
        (initcap text).take maxRollupChars)) htext)
  have hstate := hcrashType.trade
    { s with
      pair := (coalesce new.platform, coalesce new.architecture)
      crashType := new.crashType
      symbolication := symbolicationOf e.processingState (some new.symbolicationState) }
    .symbolication
    (symbolicationOf e.processingState (old.map SearchRow.symbolicationState) ≠
      symbolicationOf e.processingState (some new.symbolicationState))
    (fun j hj => by cases j <;> first | rfl | exact absurd rfl hj)
    (fun y _ => Standing.apart_of_ne (by decide) y) (fun hsame => by
      rw [Standing.entry, Standing.entry, hsymbolication, not_not.mp hsame])
  unfold updateCrashSearchRollups
  simp only [he, hskip, Bool.false_eq_true, if_false]
  rw [performDeltas_append, performDeltas_append]
  obtain ⟨day, release, pair, crashType, symbolication, processing⟩ := s
  subst hday hpair hcrash hsymbolication
  exact hstate

/-- The trigger on events, for an update that leaves the day. -/
theorem Tallied.updated (db : Tables) (old new : Event) (symbolication : SymbolicationState)
    {search : Option SymbolicationState}
    (h : Tallied initcap db.releases rollups (s.entries + others))
    (hreceived : new.receivedAt = old.receivedAt) (hday : s.day = dayOf old.receivedAt)
    (hrelease : s.release = old.releaseId) (hprocessing : s.processing = old.processingState)
    (hsearch : ((db.searchOf new).or (db.searchOf old)).map SearchRow.symbolicationState = search)
    (hsame : old.processingState = new.processingState → s.symbolication = symbolication)
    (hdiff : old.processingState ≠ new.processingState →
      s.symbolication = symbolicationOf old.processingState search ∧
        symbolication = symbolicationOf new.processingState search) :
    Tallied initcap db.releases
      (performDeltas rollups (updateCrashEventRollups initcap db old new))
      (Standing.entries { s with
        release := new.releaseId
        processing := new.processingState
        symbolication := symbolication } + others) := by
  have hmapped := h.trade { s with release := new.releaseId } .release
    (old.releaseKey ≠ new.releaseKey)
    (fun j hj => by cases j <;> first | rfl | exact absurd rfl hj)
    (fun y _ => Standing.apart_of_ne (by decide) y) (fun hkey => by
      have heq : old.releaseId = new.releaseId := releaseText_injective (not_not.mp hkey)
      rw [Standing.entry, Standing.entry, hrelease, heq])
  have hstate := hmapped.trade
    { s with release := new.releaseId, processing := new.processingState } .processing
    (old.processingState ≠ new.processingState)
    (fun j hj => by cases j <;> first | rfl | exact absurd rfl hj)
    (fun y _ => Standing.apart_of_ne (by decide) y) (fun hkey => by
      rw [Standing.entry, Standing.entry, hprocessing, not_not.mp hkey])
  have hlast := hstate.trade
    { s with
      release := new.releaseId
      processing := new.processingState
      symbolication := symbolication }
    .symbolication
    (old.processingState ≠ new.processingState ∧
      symbolicationOf old.processingState search ≠ symbolicationOf new.processingState search)
    (fun j hj => by cases j <;> first | rfl | exact absurd rfl hj)
    (fun y _ => Standing.apart_of_ne (by decide) y) (fun hkey => by
      have heq : s.symbolication = symbolication := by
        by_cases hst : old.processingState = new.processingState
        · exact hsame hst
        · obtain ⟨hold, hnew⟩ := hdiff hst
          rw [hold, hnew]
          exact not_not.mp fun hne => hkey ⟨hst, hne⟩
      rw [Standing.entry, Standing.entry, heq])
  have hsameDay : dayOf old.receivedAt = dayOf new.receivedAt := congrArg dayOf hreceived.symm
  unfold updateCrashEventRollups
  rw [if_neg (not_not.mpr hsameDay), hsearch]
  dsimp only
  rw [performDeltas_append, performDeltas_append]
  by_cases hst : old.processingState = new.processingState
  · have hguard : ¬(old.processingState ≠ new.processingState ∧
        symbolicationOf old.processingState search ≠
          symbolicationOf new.processingState search) := fun hkey => hkey.1 hst
    rw [if_neg hguard] at hlast ⊢
    obtain ⟨day, release, pair, crashType, symbolication, processing⟩ := s
    subst hday hrelease hprocessing
    exact hlast
  · obtain ⟨hold, hnew⟩ := hdiff hst
    obtain ⟨day, release, pair, crashType, symbolication, processing⟩ := s
    subst hday hrelease hprocessing hold hnew
    exact hlast

/-- The trigger on issues. -/
theorem Tallied.changed (old : Option Issue) (new : Issue)
    (h : Tallied initcap db.releases rollups (issueEntries old + others)) :
    Tallied initcap db.releases (performDeltas rollups (updateIssueRollups old new))
      (issueEntries (some new) + others) := by
  have hdimension := issueEntries_dimension old
  have hfirst : Tallied initcap db.releases rollups
      (firstEntries (old.map Issue.firstDay) +
        (regressedEntries (old.bind Issue.regressedDay) + others)) := by
    rwa [issueEntries, ← Multiset.coe_add, add_assoc] at h
  have hfirst' := hfirst.tradeAll (firstEntries (some new.firstDay))
    (fun x hx => hdimension x (List.mem_append_left _ hx))
    (old.map Issue.firstDay ≠ some new.firstDay) fun hsame => by rw [not_not.mp hsame]
  rw [add_left_comm] at hfirst'
  have hregressed := hfirst'.tradeAll (regressedEntries new.regressedDay)
    (fun x hx => hdimension x (List.mem_append_right _ hx))
    (old.bind Issue.regressedDay ≠ new.regressedDay) fun hsame => by rw [not_not.mp hsame]
  rw [← performDeltas_append, add_left_comm, ← add_assoc, Multiset.coe_add] at hregressed
  have hdeltas : updateIssueRollups old new =
      (if old.map Issue.firstDay ≠ some new.firstDay then
        ((firstEntries (old.map Issue.firstDay)).map fun x => x.delta initcap db.releases (-1)) ++
          (firstEntries (some new.firstDay)).map fun x => x.delta initcap db.releases 1
      else []) ++
      (if old.bind Issue.regressedDay ≠ new.regressedDay then
        ((regressedEntries (old.bind Issue.regressedDay)).map
          fun x => x.delta initcap db.releases (-1)) ++
          (regressedEntries new.regressedDay).map fun x => x.delta initcap db.releases 1
      else []) := by
    simp only [regressedEntries, List.map_map]
    cases old <;> rfl
  rw [hdeltas]
  exact hregressed

end
end FaultLane.DailyRollups

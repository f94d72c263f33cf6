import FaultLane.AlertEvaluationRuns
import FaultLane.IssueCursors

set_option autoImplicit false

/-!
# A late event during an evaluation

A rule for new issues whose first page is full. While it is triggered, an event that was accepted
before all of them lowers the first time of the one issue behind the page.
-/
namespace FaultLane.AlertEvaluation
open KeyedTable SortDedup RustText RowTexts JsonTexts TransitionSystem IssueList

/-! ## Pending transitions -/

section pending
variable {s : State} {rule : RuleEvaluation} {occurredAt : Text} {active : Bool}

/-- A transition that the checks of its scope and its payload let through. -/
structure Observation.Fits (o : Observation) (active : Bool) (occurredAt : Text) : Prop where
  nonempty : o.scopeKey ≠ []
  short : byteLength o.scopeKey ≤ 200
  small : byteLength (o.payload.announcing active occurredAt).text ≤ maxPayloadBytes

theorem transitionCondition_isSome {o : Observation} (h : o.Fits active occurredAt) :
    ∃ s', s.transitionCondition rule o active occurredAt = some s' := by
  have hscope : ¬(o.scopeKey.isEmpty ∨ 200 < byteLength o.scopeKey) := by
    rintro (hempty | hlong)
    · exact h.nonempty (List.isEmpty_iff.mp hempty)
    · exact absurd h.short (Nat.not_le_of_lt hlong)
  have hpayload : ∃ o', o.transitioned active occurredAt = some o' :=
    ⟨_, if_neg (Nat.not_lt_of_le h.small)⟩
  obtain ⟨o', ho'⟩ := hpayload
  unfold State.transitionCondition
  rw [if_neg hscope, ho']
  cases s.conditions.find (rule.id, o.scopeKey) with
  | some c =>
    dsimp only
    split_ifs
    · exact ⟨_, rfl⟩
    · exact ⟨_, rfl⟩
  | none =>
    dsimp only
    split_ifs
    · exact ⟨_, rfl⟩
    · exact ⟨_, rfl⟩

theorem step_advance {r : Run} (hrun : s.run = some r) :
    step s (.advance occurredAt) = s.advance r occurredAt := by
  unfold step
  dsimp only
  rw [hrun]
  rfl

theorem step_select {stage : Stage} (hrun : s.run = some ⟨rule, active, [], stage⟩) :
    step s (.advance occurredAt) = s.select rule stage := step_advance hrun

/-- Induction on the pending scopes, all of which are triggered. -/
theorem exists_triggered {allowed : State → Prop} {pending : List Observation} {stage : Stage}
    (hrun : s.run = some ⟨rule, true, pending, stage⟩)
    (hfits : ∀ o ∈ pending, o.Fits true occurredAt)
    (hallowed : ∀ u : State, u.data = s.data → u.now = s.now → u.Evaluating → allowed u) :
    ∃ u, Reachable step allowed s u ∧
      u.run = some ⟨rule, true, [], stage⟩ ∧ u.data = s.data ∧ u.now = s.now ∧
      ∀ scope, u.Active rule scope ↔
        s.Active rule scope ∨ ∃ o ∈ pending, o.scopeKey = scope := by
  induction pending generalizing s with
  | nil =>
    refine ⟨s, .init (hallowed s rfl rfl (by rw [State.Evaluating, hrun]; rfl)), hrun, rfl, rfl,
      fun scope => ⟨.inl, ?_⟩⟩
    rintro (h | ⟨o, ho, -⟩)
    · exact h
    · cases ho
  | cons o rest ih =>
    have hself : allowed s := hallowed s rfl rfl (by rw [State.Evaluating, hrun]; rfl)
    obtain ⟨v, hv⟩ := transitionCondition_isSome (hfits o List.mem_cons_self)
    obtain ⟨hdata, hnow, hactive⟩ := transitionCondition_spec hv
    let s' := v.enter rule true rest stage
    have hstep : step s (.advance occurredAt) = some s' := by
      rw [step_advance hrun, State.advance]
      dsimp only
      rw [hv]
      rfl
    have hnext : Reachable step allowed s s' :=
      (Reachable.init hself).next hstep (hallowed s' hdata hnow rfl)
    obtain ⟨u, hreach, hrun', hdata', hnow', hactive'⟩ := @ih s' rfl
      (fun x hx => hfits x (List.mem_cons_of_mem o hx))
      fun u hd hn hu => hallowed u (hd.trans hdata) (hn.trans hnow) hu
    refine ⟨u, hnext.trans hreach, hrun', hdata'.trans hdata, hnow'.trans hnow, fun scope => ?_⟩
    rw [hactive' scope]
    change v.Active rule scope ∨ _ ↔ _
    rw [hactive scope]
    by_cases hscope : scope = o.scopeKey
    · rw [if_pos hscope]
      exact ⟨fun _ => .inr ⟨o, List.mem_cons_self, hscope.symm⟩, fun _ => .inl rfl⟩
    · rw [if_neg hscope]
      refine or_congr Iff.rfl ⟨?_, ?_⟩
      · rintro ⟨x, hx, hkey⟩
        exact ⟨x, List.mem_cons_of_mem o hx, hkey⟩
      · rintro ⟨x, hx, hkey⟩
        rcases List.mem_cons.mp hx with rfl | hx
        · exact absurd hkey.symm hscope
        · exact ⟨x, hx, hkey⟩

end pending

section assignment
variable {d : Data} {now : Nat} {event : Event} {id : Uuid}

theorem mem_assignIssue {i : Issue} : i ∈ (d.assignIssue now event id).issues ↔
    i ∈ d.issues ∧ i.id ≠ id ∨
      ∃ old, d.issues.find id = some old ∧ i = old.counting event now :=
  @Table.mem_modify _ _ _ _ d.issues id (·.counting event now) (fun _ => rfl) i

theorem mem_assignIssue_events {e : Event} (h : e ∈ d.events) (hne : e.id ≠ event.id) :
    e ∈ (d.assignIssue now event id).events :=
  (@Table.mem_modify _ _ _ _ d.events event.id (·.grouped id) (fun _ => rfl) e).mpr
    (.inl ⟨h, hne⟩)

end assignment

/-! ## The tables -/

def lateRule : RuleEvaluation where
  id := 1
  projectId := "p".toList
  projectName := "Game".toList
  conditionKind := .firstSeen
  environment := "production".toList
  threshold := none
  windowSeconds := none
  createdAt := 0

def lateId (k : Nat) : Uuid := Fin.ofNat (2 ^ 128) k

def lateIssue (k : Nat) : Issue where
  id := lateId k
  title := "Crash".toList
  status := .open
  regressionState := .new
  firstSeenAt := 10 + k
  eventCount := 1
  updatedAt := 2000

def groupedEvent (k : Nat) : Event where
  id := lateId k
  environment := "production".toList
  receivedAt := 10 + k
  processingState := .processed
  issueId := some (lateId k)

def lateEvent : Event where
  id := lateId 1001
  environment := "production".toList
  receivedAt := 5
  processingState := .processed
  issueId := none

theorem lateId_inj {j k : Nat} (hj : j < 2000) (hk : k < 2000) (h : lateId j = lateId k) :
    j = k := by
  have hval : j % 2 ^ 128 = k % 2 ^ 128 := congrArg Fin.val h
  omega

theorem nodup_lateIds {n : Nat} (hn : n ≤ 2000) : ((List.range n).map lateId).Nodup := by
  refine List.Nodup.map_on (fun j hj k hk h => ?_) List.nodup_range
  rw [List.mem_range] at hj hk
  exact lateId_inj (by omega) (by omega) h

@[irreducible] def lateIssues (n : Nat) : List Issue := (List.range n).map lateIssue

@[irreducible] def groupedEvents (n : Nat) : List Event := (List.range n).map groupedEvent

theorem nodup_lateIssues {n : Nat} (hn : n ≤ 2000) : ((lateIssues n).map Issue.id).Nodup := by
  unfold lateIssues
  rw [List.map_map]
  exact nodup_lateIds hn

theorem nodup_lateEvents :
    ((groupedEvents 1001 ++ [lateEvent]).map Event.id).Nodup := by
  have heq : (groupedEvents 1001 ++ [lateEvent]).map Event.id = (List.range 1002).map lateId := by
    unfold groupedEvents
    rw [List.range_succ (n := 1001), List.map_append, List.map_append, List.map_map]
    rfl
  rw [heq]
  exact nodup_lateIds (by decide)

def lateData : Data where
  issues := ⟨lateIssues 1001, nodup_lateIssues (by decide)⟩
  events := ⟨groupedEvents 1001 ++ [lateEvent], nodup_lateEvents⟩
  policy := none
  counters := .empty

def assignedData (now : Nat) : Data := lateData.assignIssue now lateEvent (lateId 1000)

def lateStart : State where
  publicBaseUrl := []
  now := 2000
  data := lateData
  conditions := .empty
  run := some (.start lateRule)

section late
variable {k now : Nat} {scope : Text}

theorem lateData_issues : lateData.issues.rows = lateIssues 1001 := rfl

theorem lateData_events : lateData.events.rows = groupedEvents 1001 ++ [lateEvent] := rfl

theorem mem_lateIssues {i : Issue} : i ∈ lateData.issues ↔ ∃ k < 1001, lateIssue k = i := by
  rw [← Table.mem_rows, lateData_issues]
  unfold lateIssues
  rw [List.mem_map]
  simp only [List.mem_range]

theorem groupedEvent_mem (hk : k < 1001) : groupedEvent k ∈ lateData.events := by
  have hmem : groupedEvent k ∈ groupedEvents 1001 := by
    unfold groupedEvents
    exact List.mem_map_of_mem (List.mem_range.mpr hk)
  rw [← Table.mem_rows, lateData_events]
  exact List.mem_append_left [lateEvent] hmem

theorem lateIssue_selects (hk : k < 1001) : lateRule.selects false lateData (lateIssue k) := by
  refine ⟨rfl, ?_, groupedEvent k, Table.mem_rows.mpr (groupedEvent_mem hk), rfl, rfl⟩
  exact Nat.zero_le _

theorem mem_assignedIssues {i : Issue} (hi : i ∈ (assignedData now).issues) :
    (∃ k < 1000, lateIssue k = i) ∨ i.id = lateId 1000 ∧ i.firstSeenAt = 5 := by
  rcases mem_assignIssue.mp hi with ⟨hold, hne⟩ | ⟨old, hold, rfl⟩
  · obtain ⟨k, hk, rfl⟩ := mem_lateIssues.mp hold
    have hlt : k ≠ 1000 := fun h => hne (congrArg lateId h)
    exact .inl ⟨k, by omega, rfl⟩
  · obtain ⟨hold, hid⟩ := Table.find_eq_some.mp hold
    obtain ⟨k, hk, rfl⟩ := mem_lateIssues.mp hold
    refine .inr ⟨hid, ?_⟩
    change min (10 + k) 5 = 5
    omega

/-- The assignment of the late event leaves the rule selecting every issue. -/
theorem exists_assigned (hk : k < 1001) : ∃ i ∈ (assignedData now).issues,
    lateRule.selects false (assignedData now) i ∧ i.id = lateId k := by
  have hevent : groupedEvent k ∈ (assignedData now).events := by
    refine mem_assignIssue_events (groupedEvent_mem hk) fun h => ?_
    have heq : k = 1001 := lateId_inj (by omega) (by omega) h
    omega
  have hselects (i : Issue) (hopen : i.status = .open) (hid : i.id = lateId k) :
      lateRule.selects false (assignedData now) i :=
    ⟨hopen, Nat.zero_le _, groupedEvent k, hevent, rfl, by rw [hid]; rfl⟩
  have hissue : lateIssue k ∈ lateData.issues := mem_lateIssues.mpr ⟨k, hk, rfl⟩
  by_cases hlast : k = 1000
  · have hfind : lateData.issues.find (lateId 1000) = some (lateIssue k) :=
      Table.find_eq_some.mpr ⟨hissue, congrArg lateId hlast⟩
    exact ⟨_, mem_assignIssue.mpr (.inr ⟨lateIssue k, hfind, rfl⟩), hselects _ rfl rfl, rfl⟩
  · have hne : (lateIssue k).id ≠ lateId 1000 := fun h =>
      hlast (lateId_inj (by omega) (by omega) h)
    exact ⟨lateIssue k, mem_assignIssue.mpr (.inl ⟨hissue, hne⟩), hselects _ rfl rfl, rfl⟩

theorem lateIssue_holds (hk : k < 1001) : Holds lateRule lateData now (issueScope (lateId k)) :=
  ⟨lateIssue k, mem_lateIssues.mpr ⟨k, hk, rfl⟩, lateIssue_selects hk, rfl⟩

theorem assigned_holds {t : Nat} (hk : k < 1001) :
    Holds lateRule (assignedData t) now (issueScope (lateId k)) := by
  obtain ⟨i, hi, hselects, hid⟩ := exists_assigned hk
  exact ⟨i, hi, hselects, by rw [hid]⟩

end late

/-! ## The first page -/

def lateObservation (k : Nat) : IssueObservation :=
  issueObservation [] lateRule false (lateIssue k)

/-- The scopes of the first page. -/
@[irreducible] def latePending : List Observation :=
  (List.range 1000).map fun k => (lateObservation k).observation

def lateCursor : Cursor := (lateIssue 999).position false

theorem mem_latePending {o : Observation} :
    o ∈ latePending ↔ ∃ k < 1000, (lateObservation k).observation = o := by
  unfold latePending
  rw [List.mem_map]
  simp only [List.mem_range]

theorem lateIssue_position_lt {j k : Nat} (h : j < k) :
    (lateIssue j).position false < (lateIssue k).position false := by
  have hlt : 10 + j < 10 + k := by omega
  exact Prod.Lex.toLex_lt_toLex.mpr (.inl hlt)

theorem issuesBehind_late : issuesBehind lateRule false lateData none = lateIssues 1001 := by
  have hall : (lateIssues 1001).filter (fun i => lateRule.selects false lateData i ∧
      ∀ c ∈ (none : Option Cursor), c < i.position false) = lateIssues 1001 := by
    refine List.filter_eq_self.mpr fun i hi => decide_eq_true ⟨?_, nofun⟩
    have hmem : i ∈ lateData.issues := Table.mem_rows.mp (by rwa [lateData_issues])
    obtain ⟨k, hk, rfl⟩ := mem_lateIssues.mp hmem
    exact lateIssue_selects hk
  have hsorted : (lateIssues 1001).Pairwise fun i j => i.position false ≤ j.position false := by
    unfold lateIssues
    refine List.pairwise_map.mpr (List.Pairwise.imp (fun h => ?_) List.pairwise_lt_range)
    exact (lateIssue_position_lt h).le
  unfold issuesBehind
  rw [lateData_issues, hall]
  exact hsorted.insertionSort_eq

theorem latePage_eq : issueObservationsPage [] lateRule false lateData none =
    (List.range 1000).map lateObservation := by
  unfold issueObservationsPage
  rw [issuesBehind_late]
  unfold lateIssues alertIssuePageSize
  rw [← List.map_take, List.take_range, List.map_map]
  rfl

theorem late_select : lateStart.select lateRule (.page none) =
    some (lateStart.enter lateRule true latePending (.page (some lateCursor))) := by
  have hpage : issueObservationsPage lateStart.publicBaseUrl lateRule (regressionKind lateRule)
      lateStart.data none = (List.range 1000).map lateObservation := latePage_eq
  have hlength : ((List.range 1000).map lateObservation).length = alertIssuePageSize := by
    rw [List.length_map, List.length_range]
    rfl
  have hlast : ((List.range 1000).map lateObservation).getLast?.map IssueObservation.cursor =
      some lateCursor := by
    rw [List.range_succ (n := 999), List.map_append]
    change (List.getLast? (_ ++ [lateObservation 999])).map _ = _
    rw [List.getLast?_concat]
    rfl
  have hpending : ((List.range 1000).map lateObservation).map IssueObservation.observation =
      latePending := by
    unfold latePending
    exact List.map_map
  unfold State.select
  dsimp only
  rw [hpage, hlength, hlast, hpending, if_neg (lt_irrefl _)]

theorem uuidText_plain {id : Uuid} : ∀ c ∈ uuidText id, Plain c :=
  uuidText_all (by decide) (by decide)

theorem lateObservation_url {k : Nat} : byteLength
    (quote ("/projects/".toList ++ "p".toList ++ "/issues/".toList ++ uuidText (lateId k))) =
      57 := by
  have hplain : ("/projects/".toList ++ "p".toList ++ "/issues/".toList).all fun c => Plain c := by
    decide
  rw [byteLength_quote, byteLength_append, byteLength_uuidText]
  · decide
  · intro c hc
    rcases List.mem_append.mp hc with hc | hc
    · exact of_decide_eq_true (List.all_eq_true.mp hplain c hc)
    · exact uuidText_plain c hc

/-- The names of the members, the marks around them and the transition take less than 200 bytes. -/
theorem byteLength_triggered (p : Payload) (t : Text) :
    byteLength (p.announcing true t).text ≤
      byteLength (quote p.condition) + byteLength (toString p.count).toList +
      byteLength (quote p.environment) + byteLength (optional (p.issueId.map uuidText)) +
      byteLength (optional p.issueTitle) + byteLength (quote t) + byteLength (quote p.projectId) +
      byteLength (quote p.projectName) + byteLength (quote p.url) + 200 := by
  have hnames : byteLength (quote "condition".toList) + byteLength (quote "count".toList) +
      byteLength (quote "environment".toList) + byteLength (quote "issue_id".toList) +
      byteLength (quote "issue_title".toList) + byteLength (quote "occurred_at".toList) +
      byteLength (quote "project_id".toList) + byteLength (quote "project_name".toList) +
      byteLength (quote "transition".toList) + byteLength (quote "triggered".toList) +
      byteLength (quote "url".toList) = 121 := by decide
  refine byteLength_object_le.trans ?_
  unfold Payload.announcing
  simp only [if_true, Option.toList_some, List.map_cons, List.map_nil, List.cons_append,
    List.nil_append, List.sum_cons, List.sum_nil, memberSize]
  omega

theorem lateObservation_fits {k : Nat} : (lateObservation k).observation.Fits true [] where
  nonempty := nofun
  short := by
    change byteLength ("issue:".toList ++ uuidText (lateId k)) ≤ 200
    rw [byteLength_append, byteLength_uuidText]
    decide
  small := by
    have hid : byteLength (quote (uuidText (lateId k))) = 38 := by
      rw [byteLength_quote uuidText_plain, byteLength_uuidText]
    refine (byteLength_triggered _ _).trans ?_
    unfold lateObservation issueObservation basePayload
    dsimp only [Option.map_some, JsonTexts.optional, lateIssue, lateRule, List.reverse_nil,
      List.dropWhile_nil, List.nil_append]
    rw [hid, lateObservation_url]
    decide

/-! ## The rest of the run -/

section rest
variable {s : State} {t : Nat}

/-- No issue is behind the first page any more. -/
theorem issuesBehind_assigned :
    issuesBehind lateRule false (assignedData t) (some lateCursor) = [] := by
  refine List.eq_nil_iff_forall_not_mem.mpr fun i hi => ?_
  obtain ⟨hi, -, hbehind⟩ := mem_issuesBehind.mp hi
  have hlt := hbehind lateCursor rfl
  rcases mem_assignedIssues hi with ⟨k, hk, rfl⟩ | ⟨-, hfirst⟩
  · rcases Nat.lt_or_ge k 999 with hless | hmore
    · exact lt_asymm hlt (lateIssue_position_lt hless)
    · have heq : k = 999 := by omega
      rw [heq] at hlt
      exact lt_irrefl _ hlt
  · rcases Prod.Lex.toLex_lt_toLex.mp hlt with hless | ⟨heq, -⟩
    · change 10 + 999 < i.firstSeenAt at hless
      omega
    · change 10 + 999 = i.firstSeenAt at heq
      omega

theorem select_assigned_page (hdata : s.data = assignedData t) :
    s.select lateRule (.page (some lateCursor)) =
      some (s.enter lateRule true [] .recoverIssues) := by
  have hpage : issueObservationsPage s.publicBaseUrl lateRule (regressionKind lateRule) s.data
      (some lateCursor) = [] := by
    unfold issueObservationsPage
    rw [hdata]
    change ((issuesBehind lateRule false (assignedData t) (some lateCursor)).take _).map _ = []
    rw [issuesBehind_assigned, List.take_nil, List.map_nil]
  unfold State.select
  dsimp only
  rw [hpage]
  rfl

theorem select_assigned_recovery (hdata : s.data = assignedData t)
    (hactive : ∀ scope, s.Active lateRule scope →
      ∃ o ∈ latePending, o.scopeKey = scope) :
    s.select lateRule .recoverIssues = some (s.enter lateRule false [] .finished) := by
  have hnone : s.unmatchedStates lateRule = [] := by
    refine List.eq_nil_iff_forall_not_mem.mpr fun c hc => ?_
    obtain ⟨hc, hunmatched⟩ := mem_unmatchedStates.mp hc
    obtain ⟨o, ho, hscope⟩ := hactive _ (active_iff.mpr ⟨c, hc, rfl⟩)
    obtain ⟨k, hk, rfl⟩ := mem_latePending.mp ho
    obtain ⟨i, hi, hselects, hid⟩ := @exists_assigned k t (by omega)
    refine hunmatched ⟨i, hdata ▸ hi, hdata ▸ hselects, ?_⟩
    rw [← hscope, hid]
    rfl
  unfold State.select
  dsimp only
  rw [hnone, List.take_nil]
  rfl

end rest

def lateScope : Text := issueScope (lateId 1000)

theorem lateScope_not_pending : ¬∃ o ∈ latePending, o.scopeKey = lateScope := by
  rintro ⟨o, ho, hscope⟩
  obtain ⟨k, hk, rfl⟩ := mem_latePending.mp ho
  have heq : k = 1000 := lateId_inj (by omega) (by omega) (issueScope_injective hscope)
  omega

/-- The run whose publication takes the last issue to the other side of the cursor. -/
theorem exists_late_run : ∃ s, Reachable step (Holding lateRule lateScope) lateStart s ∧
    s.Ended ∧ ¬ s.Active lateRule lateScope := by
  let first := lateStart.enter lateRule true latePending (.page (some lateCursor))
  have hholding (s : State) (hdata : s.data = lateData) (hr : s.Evaluating) :
      Holding lateRule lateScope s := by
    refine ⟨hr, ?_⟩
    rw [hdata]
    exact lateIssue_holds (by decide)
  have hassigned (s : State) (hdata : s.data = assignedData 2000) (hr : s.Evaluating) :
      Holding lateRule lateScope s := by
    refine ⟨hr, ?_⟩
    rw [hdata]
    exact assigned_holds (by decide)
  have hfirst : Reachable step (Holding lateRule lateScope) lateStart first :=
    (Reachable.init (hholding lateStart rfl rfl)).next (a := .advance []) late_select
      (hholding first rfl rfl)
  obtain ⟨u, hu, hrun, hdata, hnow, hactive⟩ :=
    @exists_triggered first lateRule [] (Holding lateRule lateScope) latePending
      (.page (some lateCursor)) rfl
      (fun o ho => by
        obtain ⟨k, -, rfl⟩ := mem_latePending.mp ho
        exact lateObservation_fits)
      fun s hdata _ hr => hholding s hdata hr
  have hnone (scope : Text) : ¬ first.Active lateRule scope := by
    rintro ⟨c, hc, -⟩
    exact Table.not_mem_empty c hc
  let v := { u with data := assignedData 2000 }
  have hv : step u (.change (assignedData 2000)) = some v := rfl
  let w := v.enter lateRule true [] .recoverIssues
  have hvrun : v.run = some ⟨lateRule, true, [], .page (some lateCursor)⟩ := hrun
  have hw : step v (.advance []) = some w :=
    (step_select hvrun).trans (select_assigned_page rfl)
  have hwactive (scope : Text) (h : w.Active lateRule scope) :
      ∃ o ∈ latePending, o.scopeKey = scope :=
    ((hactive scope).mp h).resolve_left (hnone scope)
  let z := w.enter lateRule false [] .finished
  have hz : step w (.advance []) = some z :=
    (step_select rfl).trans (select_assigned_recovery rfl hwactive)
  have hveval : v.Evaluating := by
    rw [State.Evaluating, hvrun]
    rfl
  refine ⟨z, (((hfirst.trans hu).next hv (hassigned v rfl hveval)).next hw
    (hassigned w rfl rfl)).next hz (hassigned z rfl rfl), ⟨_, rfl, rfl, rfl⟩, fun h => ?_⟩
  exact lateScope_not_pending (hwactive lateScope h)

/-- A late event can take an issue past the cursor, which the evaluation then misses. -/
theorem late_event_missed : ¬ ∀ (rule : RuleEvaluation) (s₀ : State),
    s₀.run = some (.start rule) → ∀ scope s, Reachable step (Holding rule scope) s₀ s →
      s.Ended → s.Active rule scope := by
  intro h
  obtain ⟨s, hreach, hended, hinactive⟩ := exists_late_run
  exact hinactive (h lateRule lateStart rfl lateScope s hreach hended)

end FaultLane.AlertEvaluation

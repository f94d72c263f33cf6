import FaultLane.AlertEvaluation
import FaultLane.KeysetPage

set_option autoImplicit false

/-!
# Runs of alert evaluations

What an evaluation makes of the states of a rule's scopes, while other transactions change the
issues, the events and the usage between its statements.
-/
namespace FaultLane.AlertEvaluation
open KeyedTable SortDedup RustText RowTexts TransitionSystem

/-! ## Conditions -/

def RuleEvaluation.AboutIssues (rule : RuleEvaluation) : Prop :=
  rule.conditionKind = .firstSeen ∨ rule.conditionKind = .regression

/-- When the condition of a rule holds for a scope. -/
def Holds (rule : RuleEvaluation) (d : Data) (now : Nat) (scope : Text) : Prop :=
  match rule.conditionKind with
  | .firstSeen | .regression =>
    ∃ i ∈ d.issues, rule.selects (regressionKind rule) d i ∧ scope = issueScope i.id
  | .volume =>
    (∃ window ∈ rule.windowSeconds, ∃ threshold ∈ rule.threshold, threshold ≤
      ((d.eventsOf rule.environment).filter fun e =>
        now ≤ e.receivedAt + window * microseconds).length) ∧
      scope = projectScope rule.environment
  | .missingSymbols =>
    (∃ e ∈ d.events, e.environment = rule.environment ∧ e.processingState = .awaitingSymbols) ∧
      scope = projectScope rule.environment
  | .processingFailure =>
    (∃ e ∈ d.events, e.environment = rule.environment ∧
      (e.processingState = .failed ∨ e.processingState = .quarantined)) ∧
      scope = projectScope rule.environment
  | .ingestSilence =>
    (∃ window ∈ rule.windowSeconds,
      (∀ e ∈ d.events, e.environment = rule.environment →
        e.receivedAt + window * microseconds < now) ∧
      ((∀ e ∈ d.events, e.environment ≠ rule.environment) →
        rule.createdAt + window * microseconds < now)) ∧
      scope = projectScope rule.environment
  | .quota =>
    (∃ policy ∈ d.policy, ∃ threshold ∈ rule.threshold,
      if threshold = 101 then policy.courtesyLimit < d.acceptedEvents now
      else policy.eventLimit * threshold ≤ (d.acceptedEvents now : Int) * 100) ∧
      scope = quotaScope rule.environment

section conditions
variable {rule : RuleEvaluation} {d : Data} {now : Nat} {scope : Text}

theorem holds_issue (h : rule.AboutIssues) : Holds rule d now scope ↔
    ∃ i ∈ d.issues, rule.selects (regressionKind rule) d i ∧ scope = issueScope i.id := by
  unfold Holds
  rcases h with h | h
  · rw [h]
  · rw [h]

theorem mem_eventsOf {environment : Text} {e : Event} :
    e ∈ d.eventsOf environment ↔ e ∈ d.events ∧ e.environment = environment := by
  rw [Data.eventsOf, List.mem_filter, decide_eq_true_eq]
  rfl

theorem observed_ite {p : Prop} [Decidable p] {o : Observation} :
    (∃ x ∈ (if p then [o] else []), x.scopeKey = scope) ↔ p ∧ scope = o.scopeKey := by
  by_cases hp : p
  · rw [if_pos hp]
    constructor
    · rintro ⟨x, hx, rfl⟩
      exact ⟨hp, by rw [List.mem_singleton.mp hx]⟩
    · rintro ⟨-, rfl⟩
      exact ⟨o, List.mem_singleton_self o, rfl⟩
  · rw [if_neg hp]
    constructor
    · rintro ⟨x, hx, -⟩
      cases hx
    · rintro ⟨h, -⟩
      exact absurd h hp

variable {publicBaseUrl : Text} {observations : List Observation}

theorem volumeObservation_holds
    (h : volumeObservation publicBaseUrl rule d now = some observations) :
    (∃ o ∈ observations, o.scopeKey = scope) ↔
      (∃ window ∈ rule.windowSeconds, ∃ threshold ∈ rule.threshold, threshold ≤
        ((d.eventsOf rule.environment).filter fun e =>
          now ≤ e.receivedAt + window * microseconds).length) ∧
        scope = projectScope rule.environment := by
  obtain ⟨window, hwindow, h⟩ := Option.bind_eq_some_iff.mp h
  obtain ⟨threshold, hthreshold, h⟩ := Option.bind_eq_some_iff.mp h
  rw [← Option.some.inj h, observed_ite, hwindow, hthreshold]
  refine and_congr ⟨fun hle => ⟨window, rfl, threshold, rfl, hle⟩, ?_⟩ Iff.rfl
  rintro ⟨w, hw, t, ht, hle⟩
  cases hw
  cases ht
  exact hle

theorem processingObservation_holds {missingSymbols : Bool} :
    (∃ o ∈ processingObservation publicBaseUrl rule d missingSymbols, o.scopeKey = scope) ↔
      (∃ e ∈ d.events, e.environment = rule.environment ∧
        (if missingSymbols then e.processingState = .awaitingSymbols
          else e.processingState = .failed ∨ e.processingState = .quarantined)) ∧
        scope = projectScope rule.environment := by
  unfold processingObservation
  rw [observed_ite]
  refine and_congr ?_ Iff.rfl
  rw [List.length_pos_iff_exists_mem]
  constructor
  · rintro ⟨e, he⟩
    obtain ⟨he, hstate⟩ := List.mem_filter.mp he
    obtain ⟨he, henvironment⟩ := mem_eventsOf.mp he
    refine ⟨e, he, henvironment, ?_⟩
    cases missingSymbols
    · exact of_decide_eq_true hstate
    · exact of_decide_eq_true hstate
  · rintro ⟨e, he, henvironment, hstate⟩
    refine ⟨e, List.mem_filter.mpr ⟨mem_eventsOf.mpr ⟨he, henvironment⟩, ?_⟩⟩
    cases missingSymbols
    · exact decide_eq_true hstate
    · exact decide_eq_true hstate

/-- The last event of an environment, or the rule's creation, is older than the window. -/
theorem last_lt_iff {window : Nat} :
    (((d.eventsOf rule.environment).map Event.receivedAt).max?).getD rule.createdAt +
        window * microseconds < now ↔
      (∀ e ∈ d.events, e.environment = rule.environment →
        e.receivedAt + window * microseconds < now) ∧
      ((∀ e ∈ d.events, e.environment ≠ rule.environment) →
        rule.createdAt + window * microseconds < now) := by
  cases hmax : ((d.eventsOf rule.environment).map Event.receivedAt).max? with
  | none =>
    have hnil := List.map_eq_nil_iff.mp (List.max?_eq_none_iff.mp hmax)
    have hnone : ∀ e ∈ d.events, e.environment ≠ rule.environment := by
      intro e he henvironment
      have hmem := mem_eventsOf.mpr ⟨he, henvironment⟩
      rw [hnil] at hmem
      cases hmem
    exact ⟨fun h => ⟨fun e he henvironment => absurd henvironment (hnone e he), fun _ => h⟩,
      fun h => h.2 hnone⟩
  | some last =>
    obtain ⟨hlast, hmax⟩ := List.max?_eq_some_iff.mp hmax
    obtain ⟨e₀, he₀, rfl⟩ := List.mem_map.mp hlast
    obtain ⟨hmem, henvironment₀⟩ := mem_eventsOf.mp he₀
    rw [Option.getD_some]
    constructor
    · intro h
      refine ⟨fun e he henvironment => ?_, fun hnone => absurd henvironment₀ (hnone e₀ hmem)⟩
      have hle := hmax e.receivedAt
        (List.mem_map_of_mem (mem_eventsOf.mpr ⟨he, henvironment⟩))
      omega
    · rintro ⟨h, -⟩
      exact h e₀ hmem henvironment₀

theorem silenceObservation_holds
    (h : silenceObservation publicBaseUrl rule d now = some observations) :
    (∃ o ∈ observations, o.scopeKey = scope) ↔
      (∃ window ∈ rule.windowSeconds,
        (∀ e ∈ d.events, e.environment = rule.environment →
          e.receivedAt + window * microseconds < now) ∧
        ((∀ e ∈ d.events, e.environment ≠ rule.environment) →
          rule.createdAt + window * microseconds < now)) ∧
        scope = projectScope rule.environment := by
  obtain ⟨window, hwindow, h⟩ := Option.bind_eq_some_iff.mp h
  dsimp only at h
  rw [← Option.some.inj h, observed_ite, last_lt_iff, hwindow]
  refine and_congr ⟨fun hold => ⟨window, rfl, hold⟩, ?_⟩ Iff.rfl
  rintro ⟨w, hw, hold⟩
  cases hw
  exact hold

theorem quotaObservation_holds
    (h : quotaObservation publicBaseUrl rule d now = some observations) :
    (∃ o ∈ observations, o.scopeKey = scope) ↔
      (∃ policy ∈ d.policy, ∃ threshold ∈ rule.threshold,
        if threshold = 101 then policy.courtesyLimit < d.acceptedEvents now
        else policy.eventLimit * threshold ≤ (d.acceptedEvents now : Int) * 100) ∧
        scope = quotaScope rule.environment := by
  obtain ⟨policy, hpolicy, h⟩ := Option.bind_eq_some_iff.mp h
  obtain ⟨threshold, hthreshold, h⟩ := Option.bind_eq_some_iff.mp h
  dsimp only at h
  rw [← Option.some.inj h, observed_ite, hpolicy, hthreshold]
  refine and_congr ⟨fun hactive => ⟨policy, rfl, threshold, rfl, hactive⟩, ?_⟩ Iff.rfl
  rintro ⟨p, hp, t, ht, hactive⟩
  cases hp
  cases ht
  exact hactive

/-- The observed scopes are those whose condition holds at the time of the statement. -/
theorem observe_holds (h : observe publicBaseUrl rule d now = some observations) :
    (∃ o ∈ observations, o.scopeKey = scope) ↔ Holds rule d now scope := by
  unfold observe at h
  unfold Holds
  cases hkind : rule.conditionKind with
  | firstSeen =>
    rw [hkind] at h
    cases h
  | regression =>
    rw [hkind] at h
    cases h
  | volume =>
    rw [hkind] at h
    exact volumeObservation_holds h
  | missingSymbols =>
    rw [hkind] at h
    rw [← Option.some.inj h]
    exact processingObservation_holds
  | processingFailure =>
    rw [hkind] at h
    rw [← Option.some.inj h]
    exact processingObservation_holds
  | ingestSilence =>
    rw [hkind] at h
    exact silenceObservation_holds h
  | quota =>
    rw [hkind] at h
    exact quotaObservation_holds h

end conditions

/-! ## Condition states -/

/-- The scope of a rule is active. -/
def State.Active (s : State) (rule : RuleEvaluation) (scope : Text) : Prop :=
  ∃ c ∈ s.conditions, c.key = (rule.id, scope) ∧ c.active = true

section states
variable {s s' : State} {rule : RuleEvaluation} {scope occurredAt : Text} {active : Bool}

theorem mem_write {c x : ConditionState} :
    x ∈ (s.write c).conditions ↔ x = c ∨ x ∈ s.conditions ∧ x.key ≠ c.key := by
  have hfresh : (s.conditions.delete c.key).find c.key = none := Table.find_delete_self _ _
  change x ∈ (s.conditions.delete c.key).insert c ↔ _
  rw [Table.mem_insert hfresh, Table.mem_delete]

theorem active_write {o : Observation} {generation : Nat} :
    (s.write ⟨rule.id, o, active, generation⟩).Active rule scope ↔
      if scope = o.scopeKey then active = true else s.Active rule scope := by
  by_cases hscope : scope = o.scopeKey
  · rw [if_pos hscope]
    constructor
    · rintro ⟨c, hc, hkey, hactive⟩
      rcases mem_write.mp hc with rfl | ⟨-, hne⟩
      · exact hactive
      · exact absurd (hkey.trans (by rw [hscope])) hne
    · intro hactive
      exact ⟨_, mem_write.mpr (.inl rfl), by rw [hscope], hactive⟩
  · rw [if_neg hscope]
    constructor
    · rintro ⟨c, hc, hkey, hactive⟩
      rcases mem_write.mp hc with rfl | ⟨hc, -⟩
      · exact absurd (Prod.mk.inj hkey).2.symm hscope
      · exact ⟨c, hc, hkey, hactive⟩
    · rintro ⟨c, hc, hkey, hactive⟩
      have hne : c.key ≠ (rule.id, o.scopeKey) := by
        rw [hkey]
        exact fun h => hscope (Prod.mk.inj h).2
      exact ⟨c, mem_write.mpr (.inr ⟨hc, hne⟩), hkey, hactive⟩

theorem transitioned_scopeKey {o o' : Observation}
    (h : o.transitioned active occurredAt = some o') : o'.scopeKey = o.scopeKey := by
  unfold Observation.transitioned at h
  split_ifs at h
  rw [← Option.some.inj h]

/-- A transition writes the state of its scope and no other. -/
theorem transitionCondition_spec {o : Observation}
    (h : s.transitionCondition rule o active occurredAt = some s') :
    s'.data = s.data ∧ s'.now = s.now ∧ ∀ scope, s'.Active rule scope ↔
      if scope = o.scopeKey then active = true else s.Active rule scope := by
  obtain ⟨-, h⟩ := Option.ite_none_left_eq_some.mp h
  cases hfind : s.conditions.find (rule.id, o.scopeKey) with
  | some c =>
    rw [hfind] at h
    dsimp only at h
    split_ifs at h with hsame
    · cases h
      exact ⟨rfl, rfl, fun scope => active_write⟩
    · obtain ⟨o', ho', h⟩ := Option.bind_eq_some_iff.mp h
      cases h
      rw [← transitioned_scopeKey ho']
      exact ⟨rfl, rfl, fun scope => active_write⟩
  | none =>
    rw [hfind] at h
    dsimp only at h
    split_ifs at h with hactive
    · obtain ⟨o', ho', h⟩ := Option.bind_eq_some_iff.mp h
      cases h
      rw [← transitioned_scopeKey ho']
      exact ⟨rfl, rfl, fun scope => active_write⟩
    · cases h
      refine ⟨rfl, rfl, fun scope => ?_⟩
      by_cases hscope : scope = o.scopeKey
      · rw [if_pos hscope]
        constructor
        · rintro ⟨c, hc, hkey, -⟩
          rw [hscope] at hkey
          exact absurd hkey (Table.find_eq_none.mp hfind c hc)
        · intro h
          exact absurd h hactive
      · rw [if_neg hscope]

theorem mem_activeStates {c : ConditionState} :
    c ∈ s.activeStates rule ↔ c ∈ s.conditions ∧ c.ruleId = rule.id ∧ c.active = true := by
  rw [State.activeStates, List.mem_filter, decide_eq_true_eq]
  rfl

theorem active_iff : s.Active rule scope ↔
    ∃ c ∈ s.activeStates rule, c.observation.scopeKey = scope := by
  constructor
  · rintro ⟨c, hc, hkey, hactive⟩
    obtain ⟨hrule, hscope⟩ := Prod.mk.inj hkey
    exact ⟨c, mem_activeStates.mpr ⟨hc, hrule, hactive⟩, hscope⟩
  · rintro ⟨c, hc, rfl⟩
    obtain ⟨hc, hrule, hactive⟩ := mem_activeStates.mp hc
    exact ⟨c, hc, Prod.ext hrule rfl, hactive⟩

/-- The scope is that of an issue which the rule selects. -/
def State.Matched (s : State) (rule : RuleEvaluation) (scope : Text) : Prop :=
  ∃ i ∈ s.data.issues, rule.selects (regressionKind rule) s.data i ∧ scope = issueScope i.id

theorem mem_unmatchedStates {c : ConditionState} : c ∈ s.unmatchedStates rule ↔
    c ∈ s.activeStates rule ∧ ¬ s.Matched rule c.observation.scopeKey := by
  unfold State.unmatchedStates sortBy
  rw [List.mem_insertionSort, List.mem_filter, decide_eq_true_eq]
  refine and_congr Iff.rfl (not_congr ?_)
  constructor
  · rintro ⟨i, hi, hid, hselects⟩
    exact ⟨i, hi, hselects, (c.observation.names i.id).mp hid⟩
  · rintro ⟨i, hi, hselects, hscope⟩
    exact ⟨i, hi, (c.observation.names i.id).mpr hscope, hselects⟩

end states

/-! ## Statements of an evaluation -/

/-- What a statement of an evaluation makes of the active scopes and of the evaluation. -/
inductive Advanced (s : State) (rule : RuleEvaluation) : Run → (Text → Prop) → Run → Prop where
  | transition {active : Bool} {o : Observation} {rest : List Observation} {stage : Stage} :
    Advanced s rule ⟨rule, active, o :: rest, stage⟩
      (fun scope => if scope = o.scopeKey then active = true else s.Active rule scope)
      ⟨rule, active, rest, stage⟩
  | observed {active : Bool} {observations : List Observation}
      (hholds : ∀ scope, (∃ o ∈ observations, o.scopeKey = scope) ↔
        Holds rule s.data s.now scope) :
    Advanced s rule ⟨rule, active, [], .observe⟩ (s.Active rule)
      ⟨rule, true, observations, .recoverAbsent (observations.map Observation.scopeKey)⟩
  | paged {active : Bool} {cursor : Option Cursor} {observations : List Observation} {stage : Stage}
      (hnext : stage = .recoverIssues ∨ ∃ c, stage = .page (some c))
      (hpage : ∀ i ∈ s.data.issues, rule.selects (regressionKind rule) s.data i →
        (∀ c ∈ cursor, c < i.position (regressionKind rule)) →
        (∃ o ∈ observations, o.scopeKey = issueScope i.id) ∨
          ∃ c, stage = .page (some c) ∧ c < i.position (regressionKind rule)) :
    Advanced s rule ⟨rule, active, [], .page cursor⟩ (s.Active rule)
      ⟨rule, true, observations, stage⟩
  | recovered {active : Bool} (hmatched : ∀ scope, s.Active rule scope → s.Matched rule scope) :
    Advanced s rule ⟨rule, active, [], .recoverIssues⟩ (s.Active rule)
      ⟨rule, false, [], .finished⟩
  | recovering {active : Bool} {absent : List Observation}
      (hunmatched : ∀ o ∈ absent, ¬ s.Matched rule o.scopeKey) :
    Advanced s rule ⟨rule, active, [], .recoverIssues⟩ (s.Active rule)
      ⟨rule, false, absent, .recoverIssues⟩
  | recoveringAbsent {active : Bool} {activeScopes : List Text} {absent : List Observation}
      (habsent : ∀ scope, (∃ o ∈ absent, o.scopeKey = scope) ↔
        s.Active rule scope ∧ scope ∉ activeScopes) :
    Advanced s rule ⟨rule, active, [], .recoverAbsent activeScopes⟩ (s.Active rule)
      ⟨rule, false, absent, .finished⟩

section statements
variable {s s' : State} {rule : RuleEvaluation} {scope occurredAt : Text}

theorem pairwise_issuesBehind {regression : Bool} {d : Data} {cursor : Option Cursor} :
    (issuesBehind rule regression d cursor).Pairwise fun i j =>
      i.position regression < j.position regression := by
  have hnodup : (issuesBehind rule regression d cursor).Nodup := by
    unfold issuesBehind sortBy
    rw [(List.perm_insertionSort _ _).nodup_iff]
    exact (List.Nodup.of_map _ d.issues.unique).filter _
  have hsorted : (issuesBehind rule regression d cursor).Pairwise fun i j =>
      i.position regression ≤ j.position regression := pairwise_sortBy _
  have hmem : ∀ i ∈ issuesBehind rule regression d cursor, i ∈ d.issues := by
    intro i hi
    unfold issuesBehind sortBy at hi
    exact (List.mem_filter.mp ((List.mem_insertionSort _).mp hi)).1
  refine (hsorted.and hnodup).imp_of_mem fun {i j} hi hj h => lt_of_le_of_ne h.1 fun heq => h.2 ?_
  have hid := (Prod.mk.inj (toLex.injective heq)).2
  exact Table.eq_of_key_eq (hmem i hi) (hmem j hj) hid

theorem mem_issuesBehind {regression : Bool} {d : Data} {cursor : Option Cursor} {i : Issue} :
    i ∈ issuesBehind rule regression d cursor ↔ i ∈ d.issues ∧
      rule.selects regression d i ∧ ∀ c ∈ cursor, c < i.position regression := by
  unfold issuesBehind sortBy
  rw [List.mem_insertionSort, List.mem_filter, decide_eq_true_eq]
  rfl

theorem observe_advanced (h : s.select rule .observe = some s') (active : Bool) :
    ∃ r, s' = { s with run := some r } ∧
      Advanced s rule ⟨rule, active, [], .observe⟩ (s.Active rule) r := by
  obtain ⟨observations, hobserve, h⟩ := Option.bind_eq_some_iff.mp h
  cases h
  exact ⟨_, rfl, .observed fun scope => observe_holds hobserve⟩

/-- An issue behind the cursor is on the page, or the page is full and ends before it. -/
theorem page_advanced {cursor : Option Cursor} (h : s.select rule (.page cursor) = some s')
    (active : Bool) : ∃ r, s' = { s with run := some r } ∧
      Advanced s rule ⟨rule, active, [], .page cursor⟩ (s.Active rule) r := by
  let regression := regressionKind rule
  let behind := issuesBehind rule regression s.data cursor
  let page := behind.take alertIssuePageSize
  have hlast : (issueObservationsPage s.publicBaseUrl rule regression s.data cursor).getLast?.map
      IssueObservation.cursor = page.getLast?.map (Issue.position regression) := by
    unfold issueObservationsPage
    rw [List.getLast?_map, Option.map_map]
    rfl
  have hlength : (issueObservationsPage s.publicBaseUrl rule regression s.data cursor).length =
      page.length := List.length_map _
  unfold State.select at h
  dsimp only at h
  rw [hlength, hlast] at h
  rw [← Option.some.inj h]
  refine ⟨_, rfl, .paged ?_ fun i hi hselects hcursor => ?_⟩
  · by_cases hfull : page.length < alertIssuePageSize
    · exact .inl (if_pos hfull)
    · have hne : page ≠ [] := by
        intro hnil
        rw [hnil] at hfull
        exact hfull (by decide)
      obtain ⟨i, hi⟩ := Option.ne_none_iff_exists'.mp (mt List.getLast?_eq_none_iff.mp hne)
      refine .inr ⟨i.position regression, ?_⟩
      rw [if_neg hfull, hi]
      rfl
  · have hbehind : i ∈ behind := mem_issuesBehind.mpr ⟨hi, hselects, hcursor⟩
    have hpos : 0 < alertIssuePageSize := by decide
    rcases KeysetPage.mem_page_or_last_lt hpos pairwise_issuesBehind hbehind with
      hpage | ⟨hmore, j, hj, hlt⟩
    · refine .inl ⟨_, List.mem_map_of_mem (List.mem_map_of_mem hpage), rfl⟩
    · have hfull : ¬ page.length < alertIssuePageSize := by
        change ¬ (behind.take alertIssuePageSize).length < alertIssuePageSize
        rw [List.length_take, Nat.min_eq_left hmore.le]
        exact lt_irrefl _
      refine .inr ⟨j.position regression, ?_, hlt⟩
      rw [if_neg hfull, hj]
      rfl

theorem recoverIssues_advanced (h : s.select rule .recoverIssues = some s') (active : Bool) :
    ∃ r, s' = { s with run := some r } ∧
      Advanced s rule ⟨rule, active, [], .recoverIssues⟩ (s.Active rule) r := by
  unfold State.select at h
  dsimp only at h
  split_ifs at h with hempty
  · cases h
    refine ⟨_, rfl, .recovered fun scope hactive => ?_⟩
    obtain ⟨c, hc, rfl⟩ := active_iff.mp hactive
    by_contra hunmatched
    have hmem : c ∈ s.unmatchedStates rule := mem_unmatchedStates.mpr ⟨hc, hunmatched⟩
    have hsome := List.length_pos_of_mem hmem
    have hnone := congrArg List.length (List.isEmpty_iff.mp hempty)
    rw [List.length_take, List.length_nil] at hnone
    unfold alertRecoveryPageSize at hnone
    omega
  · cases h
    refine ⟨_, rfl, .recovering fun o ho => ?_⟩
    obtain ⟨c, hc, rfl⟩ := List.mem_map.mp ho
    exact (mem_unmatchedStates.mp (List.mem_of_mem_take hc)).2

theorem recoverAbsent_advanced {activeScopes : List Text}
    (h : s.select rule (.recoverAbsent activeScopes) = some s') (active : Bool) :
    ∃ r, s' = { s with run := some r } ∧
      Advanced s rule ⟨rule, active, [], .recoverAbsent activeScopes⟩ (s.Active rule) r := by
  cases h
  refine ⟨_, rfl, .recoveringAbsent fun scope => ?_⟩
  rw [active_iff]
  constructor
  · rintro ⟨o, ho, rfl⟩
    obtain ⟨c, hc, rfl⟩ := List.mem_map.mp ho
    obtain ⟨hc, habsent⟩ := List.mem_filter.mp hc
    exact ⟨⟨c, hc, rfl⟩, of_decide_eq_true habsent⟩
  · rintro ⟨⟨c, hc, rfl⟩, habsent⟩
    exact ⟨_, List.mem_map_of_mem (List.mem_filter.mpr ⟨hc, decide_eq_true habsent⟩), rfl⟩

theorem advance_spec {r : Run} (h : s.advance r occurredAt = some s') :
    s'.data = s.data ∧ s'.now = s.now ∧
      ∃ r', s'.run = some r' ∧ Advanced s r.rule r (s'.Active r.rule) r' := by
  obtain ⟨rule, active, pending, stage⟩ := r
  cases pending with
  | cons o rest =>
    obtain ⟨u, hu, rfl⟩ := Option.map_eq_some_iff.mp h
    obtain ⟨hdata, hnow, hactive⟩ := transitionCondition_spec hu
    refine ⟨hdata, hnow, _, rfl, ?_⟩
    have heq : State.Active (u.enter rule active rest stage) rule = fun scope =>
        if scope = o.scopeKey then active = true else s.Active rule scope :=
      funext fun scope => propext (hactive scope)
    dsimp only
    rw [heq]
    exact .transition
  | nil =>
    have hselect : ∃ r', s' = { s with run := some r' } ∧
        Advanced s rule ⟨rule, active, [], stage⟩ (s.Active rule) r' := by
      cases stage with
      | observe => exact observe_advanced h active
      | page cursor => exact page_advanced h active
      | recoverIssues => exact recoverIssues_advanced h active
      | recoverAbsent activeScopes => exact recoverAbsent_advanced h active
      | finished => cases h
    obtain ⟨r', rfl, hadvanced⟩ := hselect
    exact ⟨rfl, rfl, r', rfl, hadvanced⟩

end statements

/-! ## Invariants -/

/-- The pages and the recovery by issues are those of the rules about issues. -/
def Run.Fits (r : Run) : Prop :=
  match r.stage with
  | .page _ | .recoverIssues => r.rule.AboutIssues
  | _ => True

/-- The evaluation is not about to recover the scope. -/
structure Run.Spares (r : Run) (scope : Text) : Prop where
  pending : r.active = false → ∀ o ∈ r.pending, o.scopeKey ≠ scope
  listed : ∀ activeScopes, r.stage = .recoverAbsent activeScopes → scope ∈ activeScopes

/-- The issue of the scope, if there is one, is behind the cursor. -/
def Data.Behind (d : Data) (regression : Bool) (cursor : Option Cursor) (scope : Text) : Prop :=
  ∀ i ∈ d.issues, scope = issueScope i.id → ∀ c ∈ cursor, c < i.position regression

/-- The scope is active, or the evaluation comes to it. -/
def State.Reaches (s : State) (r : Run) (scope : Text) : Prop :=
  s.Active r.rule scope ∨ (r.active = true ∧ ∃ o ∈ r.pending, o.scopeKey = scope) ∨
    match r.stage with
    | .observe => True
    | .page cursor => s.data.Behind (regressionKind r.rule) cursor scope
    | _ => False

/-- What is active at the end is among some scopes. -/
def State.Sound (s : State) (r : Run) (scopes : Text → Prop) : Prop :=
  match r.stage with
  | .recoverAbsent activeScopes => ∀ scope ∈ activeScopes, scopes scope
  | .finished => r.active = false ∧ ∀ scope, s.Active r.rule scope →
      scopes scope ∨ ∃ o ∈ r.pending, o.scopeKey = scope
  | _ => True

/-- The condition holds where the evaluation reads whether it does. -/
def State.Held (s : State) (r : Run) (scope : Text) : Prop :=
  r.stage = .observe ∨ r.stage = .recoverIssues ∨ (∃ cursor, r.stage = .page cursor) →
    Holds r.rule s.data s.now scope

section invariants
variable {s s' : State} {r r' : Run} {rule : RuleEvaluation} {scope : Text}
  {actives : Text → Prop}

theorem start_fits : (Run.start rule).Fits := by
  unfold Run.Fits Run.start RuleEvaluation.AboutIssues
  cases rule.conditionKind with
  | firstSeen => exact .inl rfl
  | regression => exact .inr rfl
  | _ => trivial

theorem start_spares : (Run.start rule).Spares scope where
  pending := nofun
  listed activeScopes h := by
    unfold Run.start at h
    cases hkind : rule.conditionKind with
    | _ =>
      rw [hkind] at h
      cases h

theorem start_reaches : s.Reaches (.start rule) scope := by
  refine .inr (.inr ?_)
  unfold Run.start
  cases rule.conditionKind with
  | firstSeen => exact nofun
  | regression => exact nofun
  | _ => trivial

theorem Advanced.rule_eq (h : Advanced s rule r actives r') : r'.rule = rule := by
  cases h <;> rfl

theorem Advanced.fits (h : Advanced s rule r actives r') (hfits : r.Fits) : r'.Fits := by
  cases h with
  | transition => exact hfits
  | paged hnext =>
    rcases hnext with rfl | ⟨c, rfl⟩
    · exact hfits
    · exact hfits
  | recovering => exact hfits
  | observed | recovered | recoveringAbsent => trivial

theorem State.Held.matched (hheld : s.Held r scope) (hfits : r.Fits)
    (hstage : r.stage = .recoverIssues ∨ ∃ cursor, r.stage = .page cursor) :
    s.Matched r.rule scope := by
  have habout : r.rule.AboutIssues := by
    unfold Run.Fits at hfits
    rcases hstage with h | ⟨cursor, h⟩
    · rwa [h] at hfits
    · rwa [h] at hfits
  exact (holds_issue habout).mp (hheld (.inr hstage))

/-- A statement does not recover a scope whose condition holds where it is read. -/
theorem Advanced.spares (h : Advanced s rule r actives r') (hfits : r.Fits)
    (hheld : s.Held r scope) (hspares : r.Spares scope) :
    r'.Spares scope ∧ (s.Active rule scope → actives scope) := by
  cases h with
  | @transition active o rest stage =>
    refine ⟨⟨fun hactive x hx => hspares.pending hactive x (List.mem_cons_of_mem o hx),
      hspares.listed⟩, fun hold => ?_⟩
    by_cases hscope : scope = o.scopeKey
    · change if scope = o.scopeKey then active = true else s.Active rule scope
      rw [if_pos hscope]
      by_contra hinactive
      exact hspares.pending (Bool.eq_false_iff.mpr hinactive) o List.mem_cons_self hscope.symm
    · change if scope = o.scopeKey then active = true else s.Active rule scope
      rwa [if_neg hscope]
  | observed hholds =>
    refine ⟨⟨nofun, fun activeScopes hstage => ?_⟩, id⟩
    cases hstage
    obtain ⟨o, ho, rfl⟩ := (hholds scope).mpr (hheld (.inl rfl))
    exact List.mem_map_of_mem ho
  | paged hnext =>
    refine ⟨⟨nofun, fun activeScopes hstage => ?_⟩, id⟩
    rcases hnext with rfl | ⟨c, rfl⟩
    · cases hstage
    · cases hstage
  | recovered => exact ⟨⟨fun _ o ho => absurd ho List.not_mem_nil, nofun⟩, id⟩
  | recovering hunmatched =>
    refine ⟨⟨fun _ o ho hscope => hunmatched o ho ?_, nofun⟩, id⟩
    rw [hscope]
    exact hheld.matched hfits (.inl rfl)
  | recoveringAbsent habsent =>
    refine ⟨⟨fun _ o ho hscope => ?_, nofun⟩, id⟩
    exact ((habsent scope).mp ⟨o, ho, hscope⟩).2 (hspares.listed _ rfl)

/-- An evaluation comes to a scope whose condition holds where it is read. -/
theorem Advanced.reaches (h : Advanced s rule r (s'.Active rule) r') (hdata : s'.data = s.data)
    (hfits : r.Fits) (hheld : s.Held r scope) (hspares : r.Spares scope)
    (hreaches : s.Reaches r scope) : s'.Reaches r' scope := by
  obtain ⟨hspares', hkeeps⟩ := h.spares hfits hheld hspares
  have hrule := h.rule_eq
  by_cases hactive : s.Active rule scope
  · left
    rw [hrule]
    exact hkeeps hactive
  · generalize hactives : s'.Active rule = actives at h
    cases h with
    | @transition active o rest stage =>
      rcases hreaches with hold | ⟨htrigger, x, hx, hscope⟩ | hstage
      · exact absurd hold hactive
      · rcases List.mem_cons.mp hx with rfl | hx
        · left
          have hnow : s'.Active rule scope := by
            rw [hactives]
            change if scope = x.scopeKey then active = true else s.Active rule scope
            rw [if_pos hscope.symm]
            exact htrigger
          exact hnow
        · exact .inr (.inl ⟨htrigger, x, hx, hscope⟩)
      · right
        right
        cases stage with
        | page cursor =>
          change s'.data.Behind _ _ _
          rw [hdata]
          exact hstage
        | observe => trivial
        | _ => exact hstage
    | observed hholds =>
      exact .inr (.inl ⟨rfl, (hholds scope).mpr (hheld (.inl rfl))⟩)
    | @paged active cursor observations stage hnext hpage =>
      obtain ⟨i, hi, hselects, rfl⟩ := hheld.matched hfits (.inr ⟨cursor, rfl⟩)
      rcases hreaches with hold | ⟨-, x, hx, -⟩ | hbehind
      · exact absurd hold hactive
      · cases hx
      · rcases hpage i hi hselects (hbehind i hi rfl) with hon | ⟨c, rfl, hlt⟩
        · exact .inr (.inl ⟨rfl, hon⟩)
        · refine .inr (.inr ?_)
          change s'.data.Behind _ _ _
          rw [hdata]
          intro j hj hscope c' hc'
          rw [Table.eq_of_key_eq hj hi (issueScope_injective hscope.symm), ← Option.some.inj hc']
          exact hlt
    | recovered | recovering | recoveringAbsent =>
      rcases hreaches with hold | ⟨-, x, hx, -⟩ | hstage
      · exact absurd hold hactive
      · cases hx
      · cases hstage

/-- The scopes that are active at the end have been read as such. -/
theorem Advanced.sound {scopes : Text → Prop} (h : Advanced s rule r (s'.Active rule) r')
    (hread : (∀ scope, Holds rule s.data s.now scope → scopes scope) ∨ r.stage ≠ .observe)
    (hmatched : r.stage = .recoverIssues → ∀ scope, s.Matched rule scope → scopes scope)
    (hsound : s.Sound r scopes) : s'.Sound r' scopes := by
  generalize hactives : s'.Active rule = actives at h
  cases h with
  | @transition active o rest stage =>
    cases stage with
    | finished =>
      obtain ⟨hfalse, hold⟩ := hsound
      refine ⟨hfalse, fun scope hactive => ?_⟩
      change s'.Active rule scope at hactive
      rw [hactives] at hactive
      change if scope = o.scopeKey then active = true else s.Active rule scope at hactive
      split_ifs at hactive with hscope
      · exact absurd (hfalse.symm.trans hactive) nofun
      · rcases hold scope hactive with hin | ⟨x, hx, hkey⟩
        · exact .inl hin
        · rcases List.mem_cons.mp hx with rfl | hx
          · exact absurd hkey.symm hscope
          · exact .inr ⟨x, hx, hkey⟩
    | recoverAbsent activeScopes => exact hsound
    | _ => trivial
  | observed hholds =>
    intro scope hscope
    obtain ⟨o, ho, rfl⟩ := List.mem_map.mp hscope
    rcases hread with hread | hread
    · exact hread _ ((hholds _).mp ⟨o, ho, rfl⟩)
    · exact absurd rfl hread
  | paged hnext =>
    rcases hnext with rfl | ⟨c, rfl⟩
    · trivial
    · trivial
  | recovered hold =>
    refine ⟨rfl, fun scope hactive => .inl (hmatched rfl scope (hold scope ?_))⟩
    rwa [← hactives]
  | recovering => trivial
  | @recoveringAbsent active activeScopes absent habsent =>
    refine ⟨rfl, fun scope hactive => ?_⟩
    have hbefore : s.Active rule scope := by rwa [← hactives]
    by_cases hin : scope ∈ activeScopes
    · exact .inl (hsound scope hin)
    · exact .inr ((habsent scope).mpr ⟨hbefore, hin⟩)

theorem Advanced.stage_ne_observe (h : Advanced s rule r actives r')
    (hpending : r.stage = .observe → r.pending = []) : r'.stage ≠ .observe := by
  cases h with
  | transition =>
    intro hobserve
    cases hpending hobserve
  | paged hnext =>
    rcases hnext with rfl | ⟨c, rfl⟩
    · exact nofun
    · exact nofun
  | observed | recovered | recovering | recoveringAbsent => exact nofun

end invariants

/-! ## Runs -/

def State.Evaluating (s : State) : Prop := s.run.isSome

instance : DecidablePred State.Evaluating := fun s => inferInstanceAs (Decidable s.run.isSome)

/-- The evaluation ended without an error. -/
def State.Ended (s : State) : Prop := ∃ r ∈ s.run, r.stage = .finished ∧ r.pending = []

def Stage.isFinished : Stage → Bool
  | .finished => true
  | _ => false

instance : DecidablePred State.Ended := fun s =>
  decidable_of_iff (∃ r ∈ s.run, r.stage.isFinished ∧ r.pending.isEmpty) <| by
    refine exists_congr fun r => and_congr Iff.rfl (and_congr ?_ List.isEmpty_iff)
    cases r.stage with
    | finished => exact ⟨fun _ => rfl, fun _ => rfl⟩
    | _ => exact ⟨nofun, nofun⟩

/-- No change of the data. -/
def Still (_ : State) : Action → Prop
  | .change _ => False
  | _ => True

instance (s : State) : DecidablePred (Still s)
  | .change _ => .isFalse id
  | .tick _ | .begin _ | .advance _ | .leave => .isTrue trivial

/-- The cursor after which the evaluation selects its next page. -/
def Run.cursor (r : Run) : Option Cursor :=
  match r.stage with
  | .page cursor => cursor
  | _ => none

/-- No change moves an issue that the rule selects from behind the cursor to the other side. -/
def InOrder (s : State) : Action → Prop
  | .change d => ∀ r ∈ s.run, ∀ c ∈ r.cursor, ∀ i ∈ s.data.issues.rows, ∀ j ∈ d.issues.rows,
      i.id = j.id → r.rule.selects (regressionKind r.rule) s.data i →
      r.rule.selects (regressionKind r.rule) d j →
      c < i.position (regressionKind r.rule) → c < j.position (regressionKind r.rule)
  | _ => True

instance (s : State) : DecidablePred (InOrder s)
  | .change _ => inferInstanceAs (Decidable (∀ r ∈ s.run, ∀ c ∈ r.cursor, _))
  | .tick _ | .begin _ | .advance _ | .leave => .isTrue trivial

section runs
variable {s s' s₀ : State} {a : Action} {r : Run} {rule : RuleEvaluation} {scope : Text}

/-- What a step does during an evaluation. -/
theorem step_evaluating (hs : step s a = some s') (hrun : s.run = some r) (hr : s'.Evaluating) :
    (∃ n, s' = { s with now := s.now + n }) ∨ (∃ d, a = .change d ∧ s' = { s with data := d }) ∨
      ∃ occurredAt, s.advance r occurredAt = some s' := by
  cases a with
  | tick n => exact .inl ⟨n, (Option.some.inj hs).symm⟩
  | change d => exact .inr (.inl ⟨d, rfl, (Option.some.inj hs).symm⟩)
  | begin rule =>
    unfold step at hs
    dsimp only at hs
    rw [hrun] at hs
    cases hs
  | advance occurredAt =>
    obtain ⟨r', hr', hs⟩ := Option.bind_eq_some_iff.mp hs
    rw [hrun] at hr'
    cases hr'
    exact .inr (.inr ⟨occurredAt, hs⟩)
  | leave =>
    rw [← Option.some.inj hs] at hr
    cases hr

/-- The evaluation of a rule that spares a scope. -/
def Sparing (rule : RuleEvaluation) (scope : Text) (s : State) : Prop :=
  ∃ r, s.run = some r ∧ r.rule = rule ∧ r.Fits ∧ r.Spares scope

theorem Sparing.step (h : Sparing rule scope s) (hheld : Holds rule s.data s.now scope)
    (hs : step s a = some s') (hr : s'.Evaluating) :
    Sparing rule scope s' ∧ (s.Active rule scope → s'.Active rule scope) := by
  obtain ⟨r, hrun, rfl, hfits, hspares⟩ := h
  rcases step_evaluating hs hrun hr with ⟨n, rfl⟩ | ⟨d, -, rfl⟩ | ⟨occurredAt, hs⟩
  · exact ⟨⟨r, hrun, rfl, hfits, hspares⟩, id⟩
  · exact ⟨⟨r, hrun, rfl, hfits, hspares⟩, id⟩
  · obtain ⟨-, -, r', hrun', hadvanced⟩ := advance_spec hs
    obtain ⟨hspares', hkeeps⟩ := hadvanced.spares hfits (fun _ => hheld) hspares
    exact ⟨⟨r', hrun', hadvanced.rule_eq, hadvanced.fits hfits, hspares'⟩, hkeeps⟩

theorem sparing_start (h : s.run = some (.start rule)) : Sparing rule scope s :=
  ⟨_, h, rfl, start_fits, start_spares⟩

/-- The evaluation of a rule that comes to a scope. -/
def Reaching (rule : RuleEvaluation) (scope : Text) (s : State) : Prop :=
  ∃ r, s.run = some r ∧ r.rule = rule ∧ r.Fits ∧ r.Spares scope ∧ s.Reaches r scope

/-- A change in order leaves the issue of a scope behind the cursor. -/
theorem State.Reaches.change {d : Data} (hrun : s.run = some r) (hfits : r.Fits)
    (hheld : Holds r.rule s.data s.now scope) (hheld' : Holds r.rule d s.now scope)
    (horder : InOrder s (.change d)) (h : s.Reaches r scope) :
    State.Reaches { s with data := d } r scope := by
  rcases h with hactive | hpending | hstage
  · exact .inl hactive
  · exact .inr (.inl hpending)
  · refine .inr (.inr ?_)
    cases hr : r.stage with
    | observe => trivial
    | page cursor =>
      rw [hr] at hstage
      have habout : r.rule.AboutIssues := by
        unfold Run.Fits at hfits
        rwa [hr] at hfits
      obtain ⟨i, hi, hselects, rfl⟩ := (holds_issue habout).mp hheld
      obtain ⟨j, hj, hselects', hscope⟩ := (holds_issue habout).mp hheld'
      intro k hk hkscope c hc
      have hkj : k = j :=
        Table.eq_of_key_eq hk hj (issueScope_injective (hkscope.symm.trans hscope))
      have hcursor : c ∈ r.cursor := by
        unfold Run.cursor
        rwa [hr]
      rw [hkj]
      exact horder r hrun c hcursor i hi j hj (issueScope_injective hscope) hselects hselects'
        (hstage i hi rfl c hc)
    | recoverIssues | recoverAbsent | finished =>
      rw [hr] at hstage
      cases hstage

theorem Reaching.step (h : Reaching rule scope s) (hheld : Holds rule s.data s.now scope)
    (hheld' : Holds rule s'.data s'.now scope) (horder : InOrder s a)
    (hs : step s a = some s') (hr : s'.Evaluating) : Reaching rule scope s' := by
  obtain ⟨r, hrun, rfl, hfits, hspares, hreaches⟩ := h
  rcases step_evaluating hs hrun hr with ⟨n, rfl⟩ | ⟨d, rfl, rfl⟩ | ⟨occurredAt, hs⟩
  · exact ⟨r, hrun, rfl, hfits, hspares, hreaches⟩
  · exact ⟨r, hrun, rfl, hfits, hspares, hreaches.change hrun hfits hheld hheld' horder⟩
  · obtain ⟨hdata, -, r', hrun', hadvanced⟩ := advance_spec hs
    exact ⟨r', hrun', hadvanced.rule_eq, hadvanced.fits hfits,
      (hadvanced.spares hfits (fun _ => hheld) hspares).1,
      hadvanced.reaches hdata hfits (fun _ => hheld) hspares hreaches⟩

theorem Reaching.active (h : Reaching rule scope s) (hended : s.Ended) :
    s.Active rule scope := by
  obtain ⟨r, hrun, rfl, -, -, hreaches⟩ := h
  obtain ⟨r', hr', hstage, hpending⟩ := hended
  cases Option.some.inj (hrun.symm.trans hr')
  rcases hreaches with hactive | ⟨-, o, ho, -⟩ | hrest
  · exact hactive
  · rw [hpending] at ho
    cases ho
  · rw [hstage] at hrest
    cases hrest

/-! ## Data at rest -/

/-- The evaluation follows what holds at a time. -/
structure State.Tracks (s : State) (r : Run) (t : Nat) : Prop where
  held : ∀ scope, Holds r.rule s.data t scope → r.Spares scope ∧ s.Reaches r scope
  sound : s.Sound r (Holds r.rule s.data t)

theorem tracks_observe {t : Nat} (hstage : r.stage = .observe) (hpending : r.pending = []) :
    s.Tracks r t where
  held scope _ := by
    refine ⟨⟨fun _ o ho => ?_, fun activeScopes h => ?_⟩, .inr (.inr ?_)⟩
    · rw [hpending] at ho
      cases ho
    · rw [hstage] at h
      cases h
    · rw [hstage]
      trivial
  sound := by
    unfold State.Sound
    rw [hstage]
    trivial

theorem tracks_start {t : Nat} : s.Tracks (.start rule) t where
  held _ _ := ⟨start_spares, start_reaches⟩
  sound := by
    unfold State.Sound Run.start
    cases rule.conditionKind with
    | _ => trivial

/-- The conditions about issues do not depend on the time. -/
theorem Advanced.tracks {r' : Run} {t : Nat} (h : Advanced s r.rule r (s'.Active r.rule) r')
    (hdata : s'.data = s.data) (hfits : r.Fits) (hread : r.stage = .observe → s.now = t)
    (ht : s.Tracks r t) : s'.Tracks r' t := by
  have hissues (hstage : r.stage = .recoverIssues ∨ ∃ cursor, r.stage = .page cursor)
      (scope : Text) : Holds r.rule s.data t scope ↔ s.Matched r.rule scope := by
    refine holds_issue ?_
    unfold Run.Fits at hfits
    rcases hstage with h | ⟨cursor, h⟩
    · rwa [h] at hfits
    · rwa [h] at hfits
  have hholds (scope : Text) (hscope : Holds r.rule s.data t scope) : s.Held r scope := by
    rintro (hstage | hstage)
    · rwa [hread hstage]
    · have habout : r.rule.AboutIssues := by
        unfold Run.Fits at hfits
        rcases hstage with h | ⟨cursor, h⟩
        · rwa [h] at hfits
        · rwa [h] at hfits
      exact (holds_issue habout).mpr ((hissues hstage scope).mp hscope)
  have hrule := h.rule_eq
  constructor
  · intro scope hscope
    rw [hrule, hdata] at hscope
    obtain ⟨hspares, hreaches⟩ := ht.held scope hscope
    exact ⟨(h.spares hfits (hholds scope hscope) hspares).1,
      h.reaches hdata hfits (hholds scope hscope) hspares hreaches⟩
  · rw [hrule, hdata]
    refine h.sound ?_ (fun hstage scope hmatched => ?_) ht.sound
    · by_cases hobserve : r.stage = .observe
      · left
        intro scope hscope
        rwa [hread hobserve] at hscope
      · exact .inr hobserve
    · exact (hissues (.inl hstage) scope).mpr hmatched

/-- The evaluation of a rule over data at rest, from a time on. -/
def Settling (rule : RuleEvaluation) (d : Data) (t₀ : Nat) (s : State) : Prop :=
  s.data = d ∧ t₀ ≤ s.now ∧ ∃ r, s.run = some r ∧ r.rule = rule ∧ r.Fits ∧
    (r.stage = .observe ∧ r.pending = [] ∨
      r.stage ≠ .observe ∧ ∃ t, t₀ ≤ t ∧ t ≤ s.now ∧ s.Tracks r t)

theorem settling_start (h : s.run = some (.start rule)) : Settling rule s.data s.now s := by
  refine ⟨rfl, le_rfl, _, h, rfl, start_fits, ?_⟩
  by_cases hobserve : (Run.start rule).stage = .observe
  · exact .inl ⟨hobserve, rfl⟩
  · exact .inr ⟨hobserve, s.now, le_rfl, le_rfl, tracks_start⟩

theorem Settling.step {d : Data} {t₀ : Nat} (h : Settling rule d t₀ s) (hstill : Still s a)
    (hs : step s a = some s') (hr : s'.Evaluating) : Settling rule d t₀ s' := by
  obtain ⟨rfl, hlater, r, hrun, rfl, hfits, hstage⟩ := h
  rcases step_evaluating hs hrun hr with ⟨n, rfl⟩ | ⟨d, rfl, -⟩ | ⟨occurredAt, hs⟩
  · refine ⟨rfl, hlater.trans (Nat.le_add_right _ n), r, hrun, rfl, hfits, ?_⟩
    rcases hstage with hobserve | ⟨hne, t, hfrom, hto, htracks⟩
    · exact .inl hobserve
    · exact .inr ⟨hne, t, hfrom, hto.trans (Nat.le_add_right _ n), htracks.held, htracks.sound⟩
  · cases hstill
  · obtain ⟨hdata, hnow, r', hrun', hadvanced⟩ := advance_spec hs
    refine ⟨hdata, hlater.trans_eq hnow.symm, r', hrun', hadvanced.rule_eq,
      hadvanced.fits hfits, ?_⟩
    rcases hstage with ⟨hobserve, hpending⟩ | ⟨hne, t, hfrom, hto, htracks⟩
    · have htracks := hadvanced.tracks hdata hfits (fun _ => rfl)
        (tracks_observe hobserve hpending)
      exact .inr ⟨hadvanced.stage_ne_observe fun _ => hpending, s.now, hlater, hnow.ge, htracks⟩
    · exact .inr ⟨hadvanced.stage_ne_observe fun h => absurd h hne, t, hfrom,
        hto.trans_eq hnow.symm, hadvanced.tracks hdata hfits (fun h => absurd h hne) htracks⟩

theorem Settling.exact {d : Data} {t₀ : Nat} (h : Settling rule d t₀ s) (hended : s.Ended) :
    ∃ t, t₀ ≤ t ∧ t ≤ s.now ∧ ∀ scope, s.Active rule scope ↔ Holds rule d t scope := by
  obtain ⟨rfl, -, r, hrun, rfl, hfits, hstage⟩ := h
  obtain ⟨r', hr', hfinished, hpending⟩ := hended
  cases Option.some.inj (hrun.symm.trans hr')
  rcases hstage with ⟨hobserve, -⟩ | ⟨-, t, hfrom, hto, htracks⟩
  · exact absurd (hobserve.symm.trans hfinished) nofun
  · refine ⟨t, hfrom, hto, fun scope => ⟨fun hactive => ?_, fun hholds => ?_⟩⟩
    · have hsound := htracks.sound
      unfold State.Sound at hsound
      rw [hfinished] at hsound
      rcases hsound.2 scope hactive with hin | ⟨o, ho, -⟩
      · exact hin
      · rw [hpending] at ho
        cases ho
    · obtain ⟨hspares, hreaches⟩ := htracks.held scope hholds
      exact Reaching.active ⟨r, hrun, rfl, hfits, hspares, hreaches⟩
        ⟨r, hrun, hfinished, hpending⟩

/-! ## Exactness -/

/-- The evaluation is under way and the condition of the scope holds. -/
def Holding (rule : RuleEvaluation) (scope : Text) (s : State) : Prop :=
  s.Evaluating ∧ Holds rule s.data s.now scope

/-- Over data at rest, an evaluation leaves the scopes active whose condition held when it was
read. It never recovers a scope whose condition holds, and where no change moves an issue past
its cursor, it leaves every scope active whose condition held all the time. -/
theorem evaluation_exact (hstart : s₀.run = some (.start rule)) :
    (∀ s, Reachable (restrict step Still) State.Evaluating s₀ s → s.Ended →
      ∃ t, s₀.now ≤ t ∧ t ≤ s.now ∧ ∀ scope, s.Active rule scope ↔ Holds rule s₀.data t scope) ∧
    (∀ scope s s' a, Reachable step (Holding rule scope) s₀ s → step s a = some s' →
      s'.Evaluating → s.Active rule scope → s'.Active rule scope) ∧
    ∀ scope s, Reachable (restrict step InOrder) (Holding rule scope) s₀ s → s.Ended →
      s.Active rule scope := by
  refine ⟨fun s hreach hended => ?_, fun scope s s' a hreach hs hr => ?_,
    fun scope s hreach hended => ?_⟩
  · have hsettling : Settling rule s₀.data s₀.now s :=
      hreach.invariant _ (settling_start hstart) fun u a u' _ h hs hr =>
        h.step (restrict_eq_some.mp hs).1 (restrict_eq_some.mp hs).2 hr
    exact hsettling.exact hended
  · have hsparing : Sparing rule scope s :=
      hreach.invariant _ (sparing_start hstart) fun u a u' hu h hs hu' =>
        (h.step hu.2 hs hu'.1).1
    exact (hsparing.step hreach.allowed.2 hs hr).2
  · have hreaching : Reaching rule scope s :=
      hreach.invariant _ ⟨_, hstart, rfl, start_fits, start_spares, start_reaches⟩
        fun u a u' hu h hs hu' =>
          h.step hu.2 hu'.2 (restrict_eq_some.mp hs).1 (restrict_eq_some.mp hs).2 hu'.1
    exact hreaching.active hended

end runs

/-! ## A run -/

def sampleRule : RuleEvaluation where
  id := 1
  projectId := "p".toList
  projectName := "Game".toList
  conditionKind := .missingSymbols
  environment := "production".toList
  threshold := none
  windowSeconds := none
  createdAt := 0

def sampleEvent : Event where
  id := 1
  environment := "production".toList
  receivedAt := 5
  processingState := .awaitingSymbols
  issueId := none

def sampleStart : State where
  publicBaseUrl := []
  now := 10
  data := ⟨.empty, Table.empty.insert sampleEvent, none, .empty⟩
  conditions := .empty
  run := some (.start sampleRule)

theorem evaluation_exact_sample :
    ∃ s ∈ run (restrict step Still) State.Evaluating sampleStart (List.replicate 3 (.advance [])),
      s.Ended ∧ s.Active sampleRule (projectScope "production".toList) := by
  have hends : ∃ s ∈ run (restrict step Still) State.Evaluating sampleStart
      (List.replicate 3 (.advance [])), s.Ended := by decide +kernel
  obtain ⟨s, hrun, hended⟩ := hends
  refine ⟨s, hrun, hended, ?_⟩
  have hstart : sampleStart.run = some (.start sampleRule) := rfl
  obtain ⟨t, -, -, hexact⟩ :=
    (evaluation_exact hstart).1 s (Reachable.of_run (.init rfl) hrun) hended
  refine (hexact _).mpr ⟨⟨sampleEvent, ?_, rfl, rfl⟩, rfl⟩
  exact List.mem_singleton_self sampleEvent

end FaultLane.AlertEvaluation

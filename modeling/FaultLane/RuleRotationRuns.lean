import FaultLane.RuleRotation

set_option autoImplicit false

/-!
# Runs of the rotation

While no evaluation fails, each page moves a thousand rules behind those that wait. A rule that
fails keeps its turn and ends the call, so that sooner or later it comes first, and no other rule
is evaluated after that.
-/
namespace FaultLane.RuleRotation
open KeyedTable TransitionSystem SortDedup
open JobQueue (Uuid)

section steps
variable {fails : Uuid → Bool} {s s' : State} {a : Action} {x : Rule} {ruleId : Uuid}

theorem selectRules_eq_some (h : selectRules s = some s') : s.page = none ∧ s' = { s with
    page := some (((waiting s.rules).take alertRulePageSize).map fun r =>
      ⟨r.id, r.updatedAt⟩) } := by
  unfold selectRules at h
  split at h
  · cases h
  · exact ⟨‹_›, (Option.some.inj h).symm⟩

theorem evaluateRule_eq_some (h : evaluateRule fails s = some s') :
    ∃ e rest, s.page = some (e :: rest) ∧
      ((fails e.id = true ∧ s' = { s with page := none, calls := s.calls + 1 }) ∨
        (fails e.id = false ∧ s' = { s with
          now := s.now + 1
          rules := s.rules.modify e.id (·.marked e.updatedAt (s.now + 1)) fun r =>
            r.id_marked e.updatedAt (s.now + 1)
          page := some rest
          completed := (s.calls, e.id) :: s.completed })) := by
  unfold evaluateRule at h
  split at h
  · next e rest hpage =>
    refine ⟨e, rest, hpage, ?_⟩
    split_ifs at h with hfails
    · exact .inl ⟨hfails, (Option.some.inj h).symm⟩
    · exact .inr ⟨Bool.eq_false_iff.mpr hfails, (Option.some.inj h).symm⟩
  · cases h

theorem finishCall_eq_some (h : finishCall s = some s') :
    s.page = some [] ∧ s' = { s with page := none, calls := s.calls + 1 } := by
  unfold finishCall at h
  split at h
  · exact ⟨‹_›, (Option.some.inj h).symm⟩
  · cases h

theorem mem_writeRule {r w : Rule} (h : r ∈ (writeRule s w).rules) :
    r = w ∨ r ∈ s.rules ∧ r.id ≠ w.id := by
  have hfresh : (s.rules.delete w.id).find w.id = none := Table.find_delete_self s.rules w.id
  rcases (Table.mem_insert hfresh).mp h with rfl | h
  · exact .inl rfl
  · exact .inr (Table.mem_delete.mp h)

/-- A rule after an evaluation is an old one, or the evaluated one with its new turn. -/
theorem mem_evaluated {e : RuleEvaluation} {now : Nat} {r : Rule}
    (h : r ∈ s.rules.modify e.id (·.marked e.updatedAt now) fun r =>
      r.id_marked e.updatedAt now) :
    (r ∈ s.rules ∧ r.id ≠ e.id) ∨
      ∃ old ∈ s.rules, old.id = e.id ∧ r = old.marked e.updatedAt now := by
  rcases Table.mem_modify.mp h with h | ⟨old, hold, rfl⟩
  · exact .inl h
  · obtain ⟨hold, hid⟩ := Table.find_eq_some.mp hold
    exact .inr ⟨old, hold, hid, rfl⟩

theorem exists_evaluated (e : RuleEvaluation) (now : Nat) (hx : x ∈ s.rules) :
    ∃ y ∈ s.rules.modify e.id (·.marked e.updatedAt now) fun r => r.id_marked e.updatedAt now,
      y.id = x.id ∧ y.selected = x.selected ∧ (x.id ≠ e.id → y = x) := by
  by_cases hxe : x.id = e.id
  · have hfind : s.rules.find e.id = some x := Table.find_eq_some.mpr ⟨hx, hxe⟩
    have hmem : x.marked e.updatedAt now ∈ s.rules.modify e.id (·.marked e.updatedAt now) fun r =>
        r.id_marked e.updatedAt now := Table.mem_modify.mpr (.inr ⟨x, hfind, rfl⟩)
    exact ⟨_, hmem, Rule.id_marked .., selected_marked .., fun hne => absurd hxe hne⟩
  · have hmem : x ∈ s.rules.modify e.id (·.marked e.updatedAt now) fun r =>
        r.id_marked e.updatedAt now := Table.mem_modify.mpr (.inl ⟨hx, hxe⟩)
    exact ⟨x, hmem, rfl, rfl, fun _ => rfl⟩

/-! ## What all runs keep -/

/-- The turns are of the past, a page has its rules as they are, and completed evaluations belong
to calls that have begun. -/
structure State.Timely (s : State) : Prop where
  past : ∀ r ∈ s.rules, r.selected = true → ∀ t ∈ r.lastEvaluatedAt, t ≤ s.now
  fresh : ∀ page ∈ s.page, ∀ e ∈ page, ∀ r ∈ s.rules, r.id = e.id → r.selected = true →
    r.updatedAt = e.updatedAt
  begun : ∀ e ∈ s.completed, e.1 < s.calls ∨ e.1 = s.calls ∧ s.page.isSome

theorem State.Timely.step (h : s.Timely) (ha : Settled ruleId s a)
    (hs : step fails s a = some s') : s'.Timely := by
  cases a with
  | tick seconds =>
    cases hs
    exact ⟨fun r hr hsel t ht => (h.past r hr hsel t ht).trans (Nat.le_add_right _ _), h.fresh,
      h.begun⟩
  | selectRules =>
    obtain ⟨hpage, rfl⟩ := selectRules_eq_some hs
    refine ⟨h.past, ?_, fun e he => ?_⟩
    · rintro page ⟨⟩ e he r hr hid -
      obtain ⟨w, hw, rfl⟩ := List.mem_map.mp he
      have hmem := (mem_waiting.mp (List.mem_of_mem_take hw)).1
      rw [Table.eq_of_key_eq hr hmem hid]
    · rcases h.begun e he with hlt | ⟨heq, -⟩
      · exact .inl hlt
      · exact .inr ⟨heq, rfl⟩
  | evaluateRule =>
    obtain ⟨e, rest, hpage, ⟨-, rfl⟩ | ⟨-, rfl⟩⟩ := evaluateRule_eq_some hs
    · refine ⟨h.past, nofun, fun c hc => .inl ?_⟩
      rcases h.begun c hc with hlt | ⟨heq, -⟩
      · exact Nat.lt_succ_of_lt hlt
      · exact Nat.lt_succ_of_le heq.le
    · refine ⟨fun r hr hsel t ht => ?_, ?_, fun c hc => ?_⟩
      · rcases mem_evaluated hr with ⟨hr, -⟩ | ⟨old, hold, -, rfl⟩
        · exact (h.past r hr hsel t ht).trans (Nat.le_succ _)
        · rcases marked_cases old e.updatedAt (s.now + 1) with ⟨-, -, heq⟩ | ⟨-, heq⟩
          · rw [heq] at ht
            cases ht
            exact le_rfl
          · rw [heq] at ht hsel
            exact (h.past old hold hsel t ht).trans (Nat.le_succ _)
      · rintro page ⟨⟩ d hd r hr hid hsel
        have hfresh := h.fresh _ hpage d (List.mem_cons_of_mem e hd)
        rcases mem_evaluated hr with ⟨hr, -⟩ | ⟨old, hold, -, rfl⟩
        · exact hfresh r hr hid hsel
        · rw [selected_marked] at hsel
          rw [Rule.id_marked] at hid
          have heq := hfresh old hold hid hsel
          rcases marked_cases old e.updatedAt (s.now + 1) with ⟨-, -, hm⟩ | ⟨-, hm⟩
          · rw [hm]
            exact heq
          · rw [hm]
            exact heq
      · rcases List.mem_cons.mp hc with rfl | hc
        · exact .inr ⟨rfl, rfl⟩
        · rcases h.begun c hc with hlt | ⟨heq, -⟩
          · exact .inl hlt
          · exact .inr ⟨heq, rfl⟩
  | finishCall =>
    obtain ⟨-, rfl⟩ := finishCall_eq_some hs
    refine ⟨h.past, nofun, fun c hc => .inl ?_⟩
    rcases h.begun c hc with hlt | ⟨heq, -⟩
    · exact Nat.lt_succ_of_lt hlt
    · exact Nat.lt_succ_of_le heq.le
  | writeRule rule =>
    cases hs
    obtain ⟨hoff, -⟩ := ha
    refine ⟨fun r hr hsel => ?_, fun page hpage e he r hr hid hsel => ?_, h.begun⟩
    · rcases mem_writeRule hr with rfl | ⟨hr, -⟩
      · rw [hoff] at hsel
        cases hsel
      · exact h.past r hr hsel
    · rcases mem_writeRule hr with rfl | ⟨hr, -⟩
      · rw [hoff] at hsel
        cases hsel
      · exact h.fresh page hpage e he r hr hid hsel

theorem le_lastTime {rules : Table Rule.id} {r : Rule} (hr : r ∈ rules) :
    ∀ t ∈ r.lastEvaluatedAt, t ≤ lastTime rules := by
  have hall : ∀ (l : List Rule), r ∈ l →
      r.lastEvaluatedAt.getD 0 ≤ (l.map fun r => r.lastEvaluatedAt.getD 0).foldr max 0 := by
    intro l hl
    induction l with
    | nil => cases hl
    | cons y rest ih =>
      rw [List.map_cons, List.foldr_cons]
      rcases List.mem_cons.mp hl with rfl | hl
      · exact le_max_left _ _
      · exact (ih hl).trans (le_max_right _ _)
  intro t ht
  have hle := hall rules.rows hr
  rw [Option.mem_def.mp ht] at hle
  exact hle

theorem State.Timely.start (rules : Table Rule.id) (later : Nat) :
    (State.start rules later).Timely where
  past _ hr _ t ht := (le_lastTime hr t ht).trans (Nat.le_add_right _ _)
  fresh := nofun
  begun := nofun

/-! ## Rules ahead -/

/-- A rule that waits is on the page, or the page is full of rules ahead of it. -/
theorem selected_or_ahead (hx : x ∈ s.rules) (hsel : x.selected = true) :
    x ∈ (waiting s.rules).take alertRulePageSize ∨
      s.ahead x (((waiting s.rules).take alertRulePageSize).map fun r => ⟨r.id, r.updatedAt⟩) +
        alertRulePageSize ≤ s.ahead x [] := by
  have hsize : 0 < alertRulePageSize := by decide
  rcases KeysetPage.mem_page_or_last_lt hsize (pairwise_waiting s.rules)
    (mem_waiting.mpr ⟨hx, hsel⟩) with hin | ⟨hmore, last, hlast, hlt⟩
  · exact .inl hin
  right
  have hperm : (waiting s.rules).Perm (s.rules.rows.filter Rule.selected) :=
    List.perm_insertionSort _ _
  have hcount : ∀ page, s.ahead x page = (waiting s.rules).countP fun r =>
      r.turn < x.turn ∧ r.id ∉ page.map RuleEvaluation.id := by
    intro page
    rw [hperm.countP_eq, List.countP_filter]
    refine List.countP_congr fun r _ => ?_
    simp only [Bool.and_eq_true, decide_eq_true_eq, and_comm]
  have hpage : ∀ r ∈ (waiting s.rules).take alertRulePageSize, r.turn < x.turn := fun r hr =>
    (KeysetPage.key_le_last (pairwise_waiting s.rules) hlast hr).trans_lt hlt
  have hsplit : ∀ page, s.ahead x page =
      ((waiting s.rules).take alertRulePageSize).countP
          (fun r => r.turn < x.turn ∧ r.id ∉ page.map RuleEvaluation.id) +
        ((waiting s.rules).drop alertRulePageSize).countP fun r =>
          r.turn < x.turn ∧ r.id ∉ page.map RuleEvaluation.id := by
    intro page
    rw [hcount, ← List.countP_append, List.take_append_drop]
  rw [hsplit, hsplit []]
  have hnone : ((waiting s.rules).take alertRulePageSize).countP (fun r => r.turn < x.turn ∧
      r.id ∉ (((waiting s.rules).take alertRulePageSize).map fun r =>
        (⟨r.id, r.updatedAt⟩ : RuleEvaluation)).map RuleEvaluation.id) = 0 := by
    refine List.countP_eq_zero.mpr fun r hr h => (of_decide_eq_true h).2 ?_
    rw [List.map_map]
    exact List.mem_map.mpr ⟨r, hr, rfl⟩
  have hfull : ((waiting s.rules).take alertRulePageSize).countP (fun r => r.turn < x.turn ∧
      r.id ∉ ([] : List RuleEvaluation).map RuleEvaluation.id) = alertRulePageSize := by
    have hlength : ((waiting s.rules).take alertRulePageSize).length = alertRulePageSize := by
      rw [List.length_take]
      omega
    rw [List.countP_eq_length.mpr fun r hr => decide_eq_true ⟨hpage r hr, List.not_mem_nil⟩,
      hlength]
  have hrest : ((waiting s.rules).drop alertRulePageSize).countP (fun r => r.turn < x.turn ∧
      r.id ∉ (((waiting s.rules).take alertRulePageSize).map fun r =>
        (⟨r.id, r.updatedAt⟩ : RuleEvaluation)).map RuleEvaluation.id) ≤
      ((waiting s.rules).drop alertRulePageSize).countP fun r => r.turn < x.turn ∧
        r.id ∉ ([] : List RuleEvaluation).map RuleEvaluation.id :=
    List.countP_mono_left fun r _ h =>
      decide_eq_true ⟨(of_decide_eq_true h).1, List.not_mem_nil⟩
  omega

/-- An evaluation moves a rule behind all others or finds it changed. -/
theorem ahead_evaluated (h : s.Timely) {e : RuleEvaluation} {rest : List RuleEvaluation}
    (hpage : s.page = some (e :: rest)) (hx : x ∈ s.rules) (hsel : x.selected = true) (r : Rule)
    (hr : r ∈ s.rules) :
    let marked := if r.id = e.id then r.marked e.updatedAt (s.now + 1) else r
    marked.selected = true → marked.turn < x.turn →
      r.selected = true ∧ r.turn < x.turn ∧ r.id ≠ e.id := by
  intro marked hmarked hlt
  by_cases hid : r.id = e.id
  · have heq : marked = r.marked e.updatedAt (s.now + 1) := if_pos hid
    rw [heq] at hmarked hlt
    rw [selected_marked] at hmarked
    have hfresh := h.fresh _ hpage e List.mem_cons_self r hr hid hmarked
    rcases marked_cases r e.updatedAt (s.now + 1) with ⟨-, -, hm⟩ | ⟨hnot, -⟩
    · rw [hm] at hlt
      have hbehind : x.turn < ({ r with lastEvaluatedAt := some (s.now + 1) } : Rule).turn :=
        lt_turn fun u hu => Nat.lt_succ_of_le (h.past x hx hsel u hu)
      exact absurd hlt (lt_asymm hbehind)
    · exact absurd ⟨hfresh, hmarked⟩ hnot
  · have heq : marked = r := if_neg hid
    rw [heq] at hmarked hlt
    exact ⟨hmarked, hlt, hid⟩

/-! ## Runs without failures -/

/-- While a rule waits, each page that ends has moved all its rules behind it. -/
def State.Waits (s : State) (n : Nat) (x : Rule) (first : Nat) : Prop :=
  match s.page with
  | none => s.ahead x [] + alertRulePageSize * (s.calls - first) + 1 ≤ n
  | some page => x.id ∈ page.map RuleEvaluation.id ∨
      s.ahead x page + alertRulePageSize * (s.calls + 1 - first) + 1 ≤ n

structure Rotating (fails : Uuid → Bool) (n : Nat) (ruleId : Uuid) (s : State) : Prop where
  timely : s.Timely
  held : ∃ x ∈ s.rules, x.id = ruleId ∧ x.selected = true
  few : s.rules.rows.countP Rule.selected ≤ n
  sound : ∀ r ∈ s.rules, r.selected = true → fails r.id = false
  page_sound : ∀ page ∈ s.page, ∀ e ∈ page, fails e.id = false
  waits : ∀ first ≤ s.calls, (∀ call, first ≤ call → (call, ruleId) ∉ s.completed) →
    ∀ x ∈ s.rules, x.id = ruleId → s.Waits n x first
  rotates : s.Rotates ruleId ((n + (alertRulePageSize - 1)) / alertRulePageSize + 1)

/-- The rule itself is not ahead. -/
theorem ahead_lt (hx : x ∈ s.rules) (hsel : x.selected = true) (page : List RuleEvaluation) :
    s.ahead x page + 1 ≤ s.rules.rows.countP Rule.selected := by
  have hlt := countP_map_lt (p := Rule.selected) (f := id)
    (q := fun r => r.selected && (r.turn < x.turn && r.id ∉ page.map RuleEvaluation.id))
    (fun r _ h => (Bool.and_eq_true_iff.mp h).1) (Table.mem_rows.mpr hx) hsel
    (by rw [id, decide_eq_false (lt_irrefl x.turn), Bool.false_and, Bool.and_false])
  rw [List.map_id] at hlt
  exact hlt

variable {n : Nat}

/-- What is ahead of a rule in a table with fewer selected rules. -/
theorem ahead_writeRule (hoff : a = .writeRule x → x.selected = false) {y : Rule}
    (ha : a = .writeRule x) (page : List RuleEvaluation) :
    (writeRule s x).ahead y page ≤ s.ahead y page ∧
      (writeRule s x).rules.rows.countP Rule.selected ≤ s.rules.rows.countP Rule.selected := by
  have hrows : (writeRule s x).rules.rows = x :: s.rules.rows.filter fun r => r.id ≠ x.id :=
    Table.rows_insert (Table.find_delete_self s.rules x.id)
  have hx := hoff ha
  unfold State.ahead
  rw [hrows]
  constructor
  · rw [List.countP_cons_of_neg (by rw [hx, Bool.false_and]; exact Bool.false_ne_true)]
    exact List.Sublist.countP_le List.filter_sublist
  · rw [List.countP_cons_of_neg (by rw [hx]; exact Bool.false_ne_true)]
    exact List.Sublist.countP_le List.filter_sublist

theorem Rotating.endCall (h : Rotating fails n ruleId s) (hpage : s.page = some []) :
    Rotating fails n ruleId { s with page := none, calls := s.calls + 1 } where
  timely := by
    have hs : step fails s .finishCall = some { s with page := none, calls := s.calls + 1 } := by
      unfold step finishCall
      rw [hpage]
    have ha : Settled ruleId s .finishCall := trivial
    exact h.timely.step ha hs
  held := h.held
  few := h.few
  sound := h.sound
  page_sound := nofun
  waits first hfirst hno x hx hid := by
    obtain ⟨y, hy, hyid, hsel⟩ := h.held
    rw [Table.eq_of_key_eq hy hx (hyid.trans hid.symm)] at hsel
    have hlt := (ahead_lt hx hsel []).trans h.few
    change s.ahead x [] + alertRulePageSize * (s.calls + 1 - first) + 1 ≤ n
    rcases Nat.lt_or_eq_of_le hfirst with hle | heq
    · have hwaits := h.waits first (Nat.lt_succ_iff.mp hle) hno x hx hid
      unfold State.Waits at hwaits
      rw [hpage] at hwaits
      exact hwaits.resolve_left List.not_mem_nil
    · have hzero : s.calls + 1 - first = 0 := Nat.sub_eq_zero_of_le heq.ge
      rw [hzero, Nat.mul_zero]
      exact hlt
  rotates first hfirst := by
    have hrotates := h.rotates first
    obtain ⟨k, hk⟩ : ∃ k, k = (n + (alertRulePageSize - 1)) / alertRulePageSize := ⟨_, rfl⟩
    have hbound : n ≤ alertRulePageSize * k := by
      rw [hk]
      unfold alertRulePageSize
      omega
    rw [← hk] at hfirst hrotates ⊢
    dsimp only at hfirst ⊢
    by_contra hnone
    push Not at hnone
    have hold : s.calls < first + (k + 1) := by
      by_contra hle
      obtain ⟨call, hge, hlt, hmem⟩ := hrotates (Nat.not_lt.mp hle)
      exact hnone call hge hlt hmem
    have hno : ∀ call, first ≤ call → (call, ruleId) ∉ s.completed := by
      intro call hge hmem
      rcases h.timely.begun _ hmem with hlt | ⟨heq, -⟩
      · exact hnone call hge (by omega) hmem
      · exact hnone call hge (by omega) hmem
    obtain ⟨x, hx, hid, -⟩ := h.held
    have hwaits := h.waits first (by omega) hno x hx hid
    unfold State.Waits at hwaits
    rw [hpage] at hwaits
    have hle := hwaits.resolve_left List.not_mem_nil
    have hcalls : s.calls + 1 - first = k + 1 := by omega
    rw [hcalls, Nat.mul_succ] at hle
    omega

theorem Rotating.select (h : Rotating fails n ruleId s) (hs : selectRules s = some s') :
    Rotating fails n ruleId s' := by
  have ha : Settled ruleId s .selectRules := trivial
  have htimely := @State.Timely.step fails s s' .selectRules ruleId h.timely ha hs
  obtain ⟨hpage, rfl⟩ := selectRules_eq_some hs
  refine ⟨htimely, h.held, h.few, h.sound, ?_, fun first hfirst hno x hx hid => ?_, h.rotates⟩
  · rintro page ⟨⟩ e he
    obtain ⟨w, hw, rfl⟩ := List.mem_map.mp he
    obtain ⟨hmem, hsel⟩ := mem_waiting.mp (List.mem_of_mem_take hw)
    exact h.sound w hmem hsel
  · obtain ⟨y, hy, hyid, hsel⟩ := h.held
    rw [Table.eq_of_key_eq hy hx (hyid.trans hid.symm)] at hsel
    have hwaits := h.waits first hfirst hno x hx hid
    unfold State.Waits at hwaits
    rw [hpage] at hwaits
    rcases @selected_or_ahead s x hx hsel with hin | hahead
    · left
      rw [List.map_map]
      exact List.mem_map.mpr ⟨x, hin, rfl⟩
    · right
      have hstep : s.calls + 1 - first = s.calls - first + 1 := Nat.succ_sub hfirst
      change s.ahead x (((waiting s.rules).take alertRulePageSize).map fun r =>
        ⟨r.id, r.updatedAt⟩) + alertRulePageSize * (s.calls + 1 - first) + 1 ≤ n
      rw [hstep, Nat.mul_succ]
      omega

theorem Rotating.evaluate (h : Rotating fails n ruleId s) (hs : evaluateRule fails s = some s') :
    Rotating fails n ruleId s' := by
  have ha : Settled ruleId s .evaluateRule := trivial
  have htimely := @State.Timely.step fails s s' .evaluateRule ruleId h.timely ha hs
  obtain ⟨e, rest, hpage, ⟨hfails, rfl⟩ | ⟨-, rfl⟩⟩ := evaluateRule_eq_some hs
  · rw [h.page_sound _ hpage e List.mem_cons_self] at hfails
    cases hfails
  have hmarked : ∀ r ∈ s.rules, (r.marked e.updatedAt (s.now + 1)).selected = r.selected :=
    fun r _ => selected_marked r e.updatedAt (s.now + 1)
  refine ⟨htimely, ?_, ?_, fun r hr hsel => ?_, ?_, fun first hfirst hno x hx hid => ?_, ?_⟩
  · obtain ⟨x, hx, hid, hsel⟩ := h.held
    obtain ⟨y, hy, hyid, hysel, -⟩ := exists_evaluated e (s.now + 1) hx
    exact ⟨y, hy, hyid.trans hid, hysel.trans hsel⟩
  · refine (countP_map_le fun r hr hsel => ?_).trans h.few
    by_cases hre : r.id = e.id
    · rw [if_pos hre, hmarked r hr] at hsel
      exact hsel
    · rw [if_neg hre] at hsel
      exact hsel
  · rcases mem_evaluated hr with ⟨hr, -⟩ | ⟨old, hold, -, rfl⟩
    · exact h.sound r hr hsel
    · rw [Rule.id_marked]
      exact h.sound old hold ((hmarked old hold).symm.trans hsel)
  · rintro page ⟨⟩ d hd
    exact h.page_sound _ hpage d (List.mem_cons_of_mem e hd)
  · have hother : ruleId ≠ e.id := by
      intro heq
      exact hno s.calls hfirst (heq ▸ List.mem_cons_self)
    have hx : x ∈ s.rules := by
      rcases mem_evaluated hx with ⟨hx, -⟩ | ⟨old, -, hold, rfl⟩
      · exact hx
      · rw [Rule.id_marked] at hid
        exact absurd (hid.symm.trans hold) hother
    obtain ⟨y, hy, hyid, hsel⟩ := h.held
    rw [Table.eq_of_key_eq hy hx (hyid.trans hid.symm)] at hsel
    have hwaits := h.waits first hfirst (fun call hge hmem =>
      hno call hge (List.mem_cons_of_mem _ hmem)) x hx hid
    unfold State.Waits at hwaits
    rw [hpage] at hwaits
    rcases hwaits with hin | hle
    · left
      rw [List.map_cons] at hin
      refine (List.mem_cons.mp hin).resolve_left fun heq => hother ?_
      rw [← hid, heq]
    · right
      refine le_trans ?_ hle
      have hahead : (s.rules.rows.map fun r =>
          if r.id = e.id then r.marked e.updatedAt (s.now + 1) else r).countP (fun r =>
            r.selected && (r.turn < x.turn && r.id ∉ rest.map RuleEvaluation.id)) ≤
          s.ahead x (e :: rest) := by
        refine countP_map_le fun r hr hq => ?_
        simp only [Bool.and_eq_true, decide_eq_true_eq] at hq ⊢
        obtain ⟨hq, hlt, hrest⟩ := hq
        obtain ⟨hrsel, hrlt, hne⟩ := ahead_evaluated h.timely hpage hx hsel r hr hq hlt
        rw [if_neg hne] at hrest
        rw [List.map_cons, List.mem_cons, not_or]
        exact ⟨hrsel, hrlt, hne, hrest⟩
      exact Nat.add_le_add_right (Nat.add_le_add_right hahead _) 1
  · intro first hfirst
    obtain ⟨call, hge, hlt, hmem⟩ := h.rotates first hfirst
    exact ⟨call, hge, hlt, List.mem_cons_of_mem _ hmem⟩

theorem Rotating.step (h : Rotating fails n ruleId s) (ha : Settled ruleId s a)
    (hs : step fails s a = some s') : Rotating fails n ruleId s' := by
  have htimely := h.timely.step ha hs
  cases a with
  | tick seconds =>
    cases hs
    exact ⟨htimely, h.held, h.few, h.sound, h.page_sound, h.waits, h.rotates⟩
  | selectRules => exact h.select hs
  | evaluateRule => exact h.evaluate hs
  | finishCall =>
    obtain ⟨hpage, rfl⟩ := finishCall_eq_some hs
    exact h.endCall hpage
  | writeRule rule =>
    cases hs
    obtain ⟨hoff, hne⟩ := ha
    have hkeep : ∀ x ∈ (writeRule s rule).rules,
        x.selected = true ∨ x.id = ruleId → x ∈ s.rules := by
      intro x hx hor
      rcases mem_writeRule hx with rfl | ⟨hx, -⟩
      · rcases hor with hsel | hid
        · rw [hoff] at hsel
          cases hsel
        · exact absurd hid hne
      · exact hx
    obtain ⟨x, hx, hid, hsel⟩ := h.held
    have hfew := (ahead_writeRule (s := s) (a := .writeRule rule) (fun _ => hoff)
      (y := x) rfl []).2
    refine ⟨htimely, ⟨x, ?_, hid, hsel⟩, hfew.trans h.few,
      fun r hr hrsel => h.sound r (hkeep r hr (.inl hrsel)) hrsel, h.page_sound,
      fun first hfirst hno y hy hyid => ?_, h.rotates⟩
    · have hfresh : (s.rules.delete rule.id).find rule.id = none := Table.find_delete_self _ _
      refine (Table.mem_insert hfresh).mpr (.inr (Table.mem_delete.mpr ⟨hx, ?_⟩))
      rw [hid]
      exact hne.symm
    · have hwaits := h.waits first hfirst hno y (hkeep y hy (.inr hyid)) hyid
      have hahead := fun page => (ahead_writeRule (s := s) (a := .writeRule rule) (fun _ => hoff)
        (y := y) rfl page).1
      unfold State.Waits at hwaits ⊢
      change match s.page with
        | none => (writeRule s rule).ahead y [] + alertRulePageSize * (s.calls - first) + 1 ≤ n
        | some page => y.id ∈ page.map RuleEvaluation.id ∨
            (writeRule s rule).ahead y page + alertRulePageSize * (s.calls + 1 - first) + 1 ≤ n
      cases hpage : s.page with
      | none =>
        rw [hpage] at hwaits
        exact (Nat.add_le_add_right (Nat.add_le_add_right (hahead []) _) 1).trans hwaits
      | some page =>
        rw [hpage] at hwaits
        exact hwaits.imp_right
          (Nat.add_le_add_right (Nat.add_le_add_right (hahead page) _) 1).trans

theorem Rotating.start {rules : Table Rule.id} (later : Nat) (hx : x ∈ rules)
    (hsel : x.selected = true) (hsound : ∀ r ∈ rules, r.selected = true → fails r.id = false) :
    Rotating fails (rules.rows.countP Rule.selected) x.id (.start rules later) where
  timely := .start rules later
  held := ⟨x, hx, rfl, hsel⟩
  few := le_rfl
  sound := hsound
  page_sound := nofun
  waits first hfirst _ y hy hid := by
    rw [Table.eq_of_key_eq hy hx hid]
    have hlt := @ahead_lt (.start rules later) x hx hsel []
    change (State.start rules later).ahead x [] + alertRulePageSize * (0 - first) + 1 ≤
      rules.rows.countP Rule.selected
    rw [Nat.zero_sub, Nat.mul_zero]
    exact hlt
  rotates first hfirst := by
    exact absurd (Nat.le_zero.mp hfirst) (Nat.succ_ne_zero _)

end steps

/-! ## Runs with failures -/

section failures
variable {fails : Uuid → Bool} {ruleId : Uuid} {rules : Table Rule.id} {later : Nat} {s : State}
variable {f : Rule}

/-- The states of the runs in which the rule keeps its place among the selected ones. -/
abbrev Reached (fails : Uuid → Bool) (ruleId : Uuid) (rules : Table Rule.id) (later : Nat)
    (s : State) : Prop :=
  Reachable (restrict (step fails) (Settled ruleId)) (fun _ => True) (.start rules later) s

theorem Reached.timely (h : Reached fails ruleId rules later s) : s.Timely :=
  Reachable.invariant State.Timely h (.start rules later) fun _ _ _ _ ht hs _ =>
    ht.step (restrict_eq_some.mp hs).1 (restrict_eq_some.mp hs).2

theorem Reached.perform (h : Reached fails ruleId rules later s) {a : Action} {s' : State}
    (ha : Settled ruleId s a) (hs : step fails s a = some s') :
    Reached fails ruleId rules later s' :=
  Reachable.next h (restrict_eq_some.mpr ⟨ha, hs⟩) trivial

theorem evaluateRule_failing {e : RuleEvaluation} {rest : List RuleEvaluation}
    (hpage : s.page = some (e :: rest)) (he : fails e.id = true) :
    evaluateRule fails s = some { s with page := none, calls := s.calls + 1 } := by
  unfold evaluateRule
  rw [hpage]
  exact if_pos he

theorem evaluateRule_passing {e : RuleEvaluation} {rest : List RuleEvaluation}
    (hpage : s.page = some (e :: rest)) (he : fails e.id = false) :
    evaluateRule fails s = some { s with
      now := s.now + 1
      rules := s.rules.modify e.id (·.marked e.updatedAt (s.now + 1)) fun r =>
        r.id_marked e.updatedAt (s.now + 1)
      page := some rest
      completed := (s.calls, e.id) :: s.completed } := by
  unfold evaluateRule
  rw [hpage]
  exact if_neg (Bool.eq_false_iff.mp he)

theorem selectRules_of_none (hpage : s.page = none) : selectRules s = some { s with
    page := some (((waiting s.rules).take alertRulePageSize).map fun r =>
      ⟨r.id, r.updatedAt⟩) } := by
  unfold selectRules
  rw [hpage]

/-- A call that runs comes to its end, and no rule gets ahead of one that fails. -/
theorem exists_endCall (h : Reached fails ruleId rules later s) (hf : f ∈ s.rules)
    (hsel : f.selected = true) (hfails : fails f.id = true) {page : List RuleEvaluation}
    (hpage : s.page = some page) : ∃ s', Reached fails ruleId rules later s' ∧ s'.page = none ∧
      f ∈ s'.rules ∧ s'.ahead f [] ≤ s.ahead f [] := by
  induction page generalizing s with
  | nil =>
    have hs : step fails s .finishCall = some { s with page := none, calls := s.calls + 1 } := by
      change finishCall s = _
      unfold finishCall
      rw [hpage]
    exact ⟨_, h.perform (a := .finishCall) trivial hs, rfl, hf, le_rfl⟩
  | cons e rest ih =>
    cases he : fails e.id with
    | true =>
      have hs : step fails s .evaluateRule = _ := evaluateRule_failing hpage he
      exact ⟨_, h.perform (a := .evaluateRule) trivial hs, rfl, hf, le_rfl⟩
    | false =>
      have hs : step fails s .evaluateRule = _ := evaluateRule_passing hpage he
      have hne : f.id ≠ e.id := by
        intro heq
        rw [heq, he] at hfails
        cases hfails
      obtain ⟨y, hy, -, -, hsame⟩ := exists_evaluated e (s.now + 1) hf
      rw [hsame hne] at hy
      have hreach := h.perform (a := .evaluateRule) trivial hs
      obtain ⟨s', hreach, hnone, hmem, hle⟩ := ih hreach hy rfl
      refine ⟨s', hreach, hnone, hmem, hle.trans (countP_map_le fun r hr hq => ?_)⟩
      simp only [Bool.and_eq_true, decide_eq_true_eq] at hq ⊢
      obtain ⟨hrsel, hrlt, -⟩ := ahead_evaluated h.timely hpage hf hsel r hr hq.1 hq.2.1
      exact ⟨hrsel, hrlt, List.not_mem_nil⟩

/-- The selected rule with the oldest turn fails. -/
def State.Blocked (fails : Uuid → Bool) (s : State) : Prop :=
  s.page = none ∧ ∃ g tail, waiting s.rules = g :: tail ∧ fails g.id = true

/-- Induction on the rules ahead of one that fails. Each call evaluates the first of them. -/
theorem exists_blocked (m : Nat) (h : Reached fails ruleId rules later s) (hpage : s.page = none)
    (hf : f ∈ s.rules) (hsel : f.selected = true) (hfails : fails f.id = true)
    (hm : s.ahead f [] ≤ m) : ∃ s', Reached fails ruleId rules later s' ∧ s'.Blocked fails := by
  induction m using Nat.strong_induction_on generalizing s with
  | _ m ih =>
    have hin : f ∈ waiting s.rules := mem_waiting.mpr ⟨hf, hsel⟩
    obtain ⟨g, tail, hwaiting⟩ := List.exists_cons_of_ne_nil (List.ne_nil_of_mem hin)
    cases hg : fails g.id with
    | true => exact ⟨s, h, hpage, g, tail, hwaiting, hg⟩
    | false =>
      have hgmem := mem_waiting.mp (hwaiting ▸ List.mem_cons_self : g ∈ waiting s.rules)
      have hlt : g.turn < f.turn := by
        have hpairwise := pairwise_waiting s.rules
        rw [hwaiting] at hpairwise hin
        rcases List.mem_cons.mp hin with rfl | hin
        · rw [hg] at hfails
          cases hfails
        · exact (List.pairwise_cons.mp hpairwise).1 f hin
      have hselect : step fails s .selectRules = _ := selectRules_of_none hpage
      have hcons : ((waiting s.rules).take alertRulePageSize).map
          (fun r => (⟨r.id, r.updatedAt⟩ : RuleEvaluation)) = ⟨g.id, g.updatedAt⟩ ::
            ((tail.take (alertRulePageSize - 1)).map fun r => ⟨r.id, r.updatedAt⟩) := by
        rw [hwaiting]
        rfl
      rw [hcons] at hselect
      have hopen := h.perform (a := .selectRules) trivial hselect
      have heval := evaluateRule_passing (s := { s with page := some (⟨g.id, g.updatedAt⟩ ::
        ((tail.take (alertRulePageSize - 1)).map fun r => ⟨r.id, r.updatedAt⟩)) }) rfl hg
      have hdone := hopen.perform (a := .evaluateRule) trivial heval
      have hne : f.id ≠ g.id := by
        intro heq
        rw [heq, hg] at hfails
        cases hfails
      obtain ⟨y, hy, -, -, hsame⟩ :=
        exists_evaluated (⟨g.id, g.updatedAt⟩ : RuleEvaluation) (s.now + 1) hf
      rw [hsame hne] at hy
      obtain ⟨s', hreach, hnone, hmem, hle⟩ := exists_endCall hdone hy hsel hfails rfl
      have hahead := ahead_evaluated hopen.timely rfl hf hsel
      have hfewer : (s.rules.rows.map fun r =>
          if r.id = g.id then r.marked g.updatedAt (s.now + 1) else r).countP (fun r =>
            r.selected && (r.turn < f.turn && r.id ∉ ([] : List RuleEvaluation).map
              RuleEvaluation.id)) < s.ahead f [] := by
        refine countP_map_lt (fun r hr hq => ?_) (Table.mem_rows.mpr hgmem.1) ?_ ?_
        · simp only [Bool.and_eq_true, decide_eq_true_eq] at hq ⊢
          obtain ⟨hrsel, hrlt, -⟩ := hahead r hr hq.1 hq.2.1
          exact ⟨hrsel, hrlt, List.not_mem_nil⟩
        · simp only [Bool.and_eq_true, decide_eq_true_eq]
          exact ⟨hgmem.2, hlt, List.not_mem_nil⟩
        · rw [Bool.eq_false_iff]
          intro hq
          obtain ⟨hgsel, hq⟩ := Bool.and_eq_true_iff.mp hq
          obtain ⟨hglt, -⟩ := Bool.and_eq_true_iff.mp hq
          exact (hahead g hgmem.1 hgsel (of_decide_eq_true hglt)).2.2 rfl
      exact ih (s'.ahead f []) ((hle.trans_lt hfewer).trans_le hm) hreach hnone hmem le_rfl

/-- From then on the calls end before any evaluation. -/
theorem blocked_calls (h : Reached fails ruleId rules later s) (hb : s.Blocked fails) (m : Nat) :
    ∃ s', Reached fails ruleId rules later s' ∧ s'.Blocked fails ∧ s'.calls = s.calls + m ∧
      s'.completed = s.completed := by
  induction m with
  | zero => exact ⟨s, h, hb, rfl, rfl⟩
  | succ m ih =>
    obtain ⟨t, hreach, ⟨hpage, g, tail, hwaiting, hg⟩, hcalls, hcompleted⟩ := ih
    have hselect : step fails t .selectRules = _ := selectRules_of_none hpage
    have hcons : ((waiting t.rules).take alertRulePageSize).map
        (fun r => (⟨r.id, r.updatedAt⟩ : RuleEvaluation)) = ⟨g.id, g.updatedAt⟩ ::
          ((tail.take (alertRulePageSize - 1)).map fun r => ⟨r.id, r.updatedAt⟩) := by
      rw [hwaiting]
      rfl
    rw [hcons] at hselect
    have heval := evaluateRule_failing (s := { t with page := some (⟨g.id, g.updatedAt⟩ ::
      ((tail.take (alertRulePageSize - 1)).map fun r => ⟨r.id, r.updatedAt⟩)) }) rfl hg
    have hpaged := hreach.perform (a := .selectRules) trivial hselect
    refine ⟨_, hpaged.perform (a := .evaluateRule) trivial heval, ⟨rfl, g, tail, hwaiting, hg⟩,
      ?_, hcompleted⟩
    change t.calls + 1 = s.calls + (m + 1)
    rw [hcalls, Nat.add_assoc]

end failures

/-- Every selected rule that does not fail gets its turns when and only when no selected rule
fails, or none is left to get one. -/
theorem rotates_iff (fails : Uuid → Bool) (rules : Table Rule.id) (later : Nat) :
    (∀ x ∈ rules, x.selected = true → fails x.id = false → ∀ s,
        Reachable (restrict (step fails) (Settled x.id)) (fun _ => True) (.start rules later) s →
          s.Rotates x.id (window rules)) ↔
      (∀ r ∈ rules, r.selected = true → fails r.id = false) ∨
        ∀ r ∈ rules, r.selected = true → fails r.id = true := by
  constructor
  · intro h
    by_contra hnot
    push Not at hnot
    obtain ⟨⟨f, hf, hfsel, hfails⟩, x, hx, hxsel, hpasses⟩ := hnot
    have hfails : fails f.id = true := Bool.ne_false_iff.mp hfails
    have hpasses : fails x.id = false := Bool.not_eq_true _ ▸ hpasses
    have hstart : Reached fails x.id rules later (.start rules later) := .init trivial
    obtain ⟨s, hreach, hblocked⟩ := exists_blocked _ hstart rfl hf hfsel hfails le_rfl
    obtain ⟨s', hreach', -, hcalls, hcompleted⟩ := blocked_calls hreach hblocked (window rules)
    obtain ⟨call, hge, -, hmem⟩ := h x hx hxsel hpasses s' hreach' s.calls hcalls.ge
    rw [hcompleted] at hmem
    rcases hreach.timely.begun _ hmem with hlt | ⟨-, hsome⟩
    · exact absurd hge (Nat.not_le.mpr hlt)
    · rw [hblocked.1] at hsome
      cases hsome
  · rintro (hsound | hall) x hx hsel hpasses s hreach
    · have hrotating : Rotating fails (rules.rows.countP Rule.selected) x.id s :=
        hreach.invariant (Rotating fails _ x.id) (.start later hx hsel hsound)
          fun _ _ _ _ hi hs _ => hi.step (restrict_eq_some.mp hs).1 (restrict_eq_some.mp hs).2
      exact hrotating.rotates
    · rw [hall x hx hsel] at hpasses
      cases hpasses

/-- One rule that has never been evaluated and fails, and one behind it. -/
def twoRules : Table Rule.id where
  rows := [⟨1, true, true, 0, none⟩, ⟨2, true, true, 0, none⟩]
  unique := by decide

/-- Two calls, the window of two rules. -/
theorem not_rotates_twoRules : ¬ ∀ (fails : Uuid → Bool) (rules : Table Rule.id) (later : Nat),
    ∀ x ∈ rules, x.selected = true → fails x.id = false → ∀ s,
      Reachable (restrict (step fails) (Settled x.id)) (fun _ => True) (.start rules later) s →
        s.Rotates x.id (window rules) := by
  intro h
  have hrun : (run (restrict (step (· == 1)) (Settled 2)) (fun _ => True) (.start twoRules 0)
      [.selectRules, .evaluateRule, .selectRules, .evaluateRule]).isSome := by
    decide +kernel
  obtain ⟨s, hs⟩ := Option.isSome_iff_exists.mp hrun
  have hend : ∀ u ∈ run (restrict (step (· == 1)) (Settled 2)) (fun _ => True)
      (.start twoRules 0) [.selectRules, .evaluateRule, .selectRules, .evaluateRule],
      window twoRules = u.calls ∧ u.completed = [] := by
    decide +kernel
  obtain ⟨hcalls, hcompleted⟩ := hend s hs
  have hx : (⟨2, true, true, 0, none⟩ : Rule) ∈ twoRules :=
    List.mem_cons_of_mem _ List.mem_cons_self
  have hrotates := h (· == 1) twoRules 0 _ hx rfl rfl s (.of_run (.init trivial) hs)
  obtain ⟨call, -, -, hmem⟩ := hrotates 0 (by rw [Nat.zero_add, hcalls])
  rw [hcompleted] at hmem
  cases hmem

end FaultLane.RuleRotation

import FaultLane.DailyRollupsRuns

set_option autoImplicit false

/-!
# The daily rollups and their repair

What a repair counts from the tables is the tally that the triggers keep, on a day on which an
issue regressed. On all other days the repair alone has a row that counts none.
-/
namespace FaultLane.DailyRollups
open KeyedTable LabelledTally GroupedSums RustText JobQueue TransitionSystem
open CrashContext (CrashType)
variable {initcap : Text → Text} {db : Tables} {rollups : Rollups} {day : Int}

/-! ## Members of a day -/

/-- A row as it is stored. -/
def leftRow (row : Rollup) : Rollup :=
  { row with key := row.key.left, label := row.label.take maxRollupChars }

def writtenRow (key : RollupKey) (label : Text) : RollupKey × Text :=
  (key.left, label.take maxRollupChars)

theorem dayOf_eq {t : Timestamp} : dayOf t = day ↔ startOf day ≤ t ∧ t < startOf (day + 1) := by
  have h : ∀ t day : Int, t / 86400000000 = day ↔
      day * 86400000000 ≤ t ∧ t < (day + 1) * 86400000000 := by
    omega
  exact h t day

variable (initcap db day) in
/-- What the events of the day are written as in one slot. -/
def slotMembers (i : Slot) : List (RollupKey × Text) :=
  (db.events.rows.filter fun e => e.receivedOn day).map fun e =>
    ((db.standing e).entry i).written initcap db.releases

theorem Standing.written_day (s : Standing) (i : Slot) (releases : Table Release.id) :
    ((s.entry i).written initcap releases).1.day = s.day := by
  cases i <;> rfl

theorem filter_standings (l : List Event) :
    ((l.map fun e => (db.standing e).entries).sum.map (Entry.written initcap db.releases)).filter
        (fun x => x.1.day = day) =
      (Slot.all.map fun i => (((l.filter fun e => e.receivedOn day).map fun e =>
        ((db.standing e).entry i).written initcap db.releases :
          List (RollupKey × Text)) : Multiset (RollupKey × Text))).sum := by
  induction l with
  | nil => rfl
  | cons e l ih =>
    rw [List.map_cons, List.sum_cons, Multiset.map_add, Multiset.filter_add, ih]
    have hmember : ∀ x ∈ (db.standing e).entries.map (Entry.written initcap db.releases),
        x.1.day = dayOf e.receivedAt := fun x hx => by
      obtain ⟨y, hy, rfl⟩ := Multiset.mem_map.mp hx
      obtain ⟨i, rfl⟩ := Standing.mem_entries.mp hy
      exact Standing.written_day _ i _
    by_cases hday : dayOf e.receivedAt = day
    · have hon : e.receivedOn day := dayOf_eq.mp hday
      rw [Multiset.filter_eq_self.mpr fun x hx => (hmember x hx).trans hday,
        List.filter_cons]
      simp only [hon, decide_true, if_true, List.map_cons, ← Multiset.cons_coe, ← Multiset.singleton_add, List.sum_map_add]
      rfl
    · have hoff : ¬e.receivedOn day := fun hon => hday (dayOf_eq.mpr hon)
      rw [Multiset.filter_eq_nil.mpr fun x hx heq => hday ((hmember x hx).symm.trans heq),
        List.filter_cons, zero_add]
      simp only [hoff, decide_false, Bool.false_eq_true, if_false]

variable (db day) in
/-- What `issueRows` counts. -/
def firstMembers : List (Dimension × Text) :=
  (db.issues.rows.filter fun i => i.firstSeenOn day).flatMap fun _ =>
    [(.issueTotal, "Issues".toList), (.issueNew, "New issues".toList)]

def firstRow (day : Int) (x : Dimension × Text) : RollupKey × Text :=
  writtenRow ⟨day, x.1, "all".toList⟩ x.2

def regressedRow (day : Int) : RollupKey × Text :=
  writtenRow ⟨day, .issueRegressed, "all".toList⟩ "Regressed issues".toList

theorem regressedDay_eq_some {i : Issue} : i.regressedDay = some day ↔ i.regressedOn day := by
  unfold Issue.regressedDay Issue.regressedOn
  by_cases hr : i.regressionState = .regressed
  · rw [if_pos hr, Option.some.injEq, dayOf_eq]
    exact ⟨fun h => ⟨hr, h⟩, And.right⟩
  · rw [if_neg hr]
    exact ⟨nofun, fun h => absurd h.1 hr⟩

theorem filter_issueEntries (i : Issue) (releases : Table Release.id) :
    ((issueEntries (some i)).map (Entry.written initcap releases)).filter
        (fun x => x.1.day = day) =
      (if i.firstSeenOn day then
        [firstRow day (.issueTotal, "Issues".toList), firstRow day (.issueNew, "New issues".toList)]
      else []) ++ if i.regressedOn day then [regressedRow day] else [] := by
  rw [issueEntries, List.map_append, List.filter_append]
  refine congrArg₂ (· ++ ·) ?_ ?_
  · by_cases hday : i.firstDay = day
    · have hon : i.firstSeenOn day := dayOf_eq.mp hday
      rw [if_pos hon]
      subst hday
      exact List.filter_eq_self.mpr fun x hx => by
        rcases List.mem_pair.mp hx with rfl | rfl <;> exact decide_eq_true rfl
    · have hoff : ¬i.firstSeenOn day := fun hon => hday (dayOf_eq.mpr hon)
      rw [if_neg hoff]
      exact List.filter_eq_nil_iff.mpr fun x hx => by
        rcases List.mem_pair.mp hx with rfl | rfl <;>
          exact fun heq => hday (of_decide_eq_true heq)
  · have hday := @regressedDay_eq_some day i
    rw [regressedEntries, Option.bind_some]
    by_cases hon : i.regressedOn day
    · rw [hday.mpr hon, if_pos hon]
      exact List.filter_cons_of_pos (decide_eq_true rfl)
    · rw [if_neg hon]
      refine List.filter_eq_nil_iff.mpr fun x hx heq => hon (hday.mp ?_)
      obtain ⟨y, hy, rfl⟩ := List.mem_map.mp hx
      obtain ⟨d, hd, rfl⟩ := List.mem_map.mp hy
      rw [Option.mem_toList.mp hd]
      exact congrArg some (of_decide_eq_true heq)

theorem filter_issues (l : List Issue) (releases : Table Release.id) :
    ((l.map fun i => (issueEntries (some i) : Multiset Entry)).sum.map
        (Entry.written initcap releases)).filter (fun x => x.1.day = day) =
      ((((l.filter fun i => i.firstSeenOn day).flatMap fun _ =>
        [(Dimension.issueTotal, "Issues".toList), (.issueNew, "New issues".toList)]).map
          (firstRow day) : List (RollupKey × Text)) : Multiset (RollupKey × Text)) +
        (((l.filter fun i => i.regressedOn day).map fun _ => regressedRow day :
          List (RollupKey × Text)) : Multiset (RollupKey × Text)) := by
  induction l with
  | nil => rfl
  | cons i l ih =>
    rw [List.map_cons, List.sum_cons, Multiset.map_add, Multiset.filter_add, ih, Multiset.map_coe,
      Multiset.filter_coe, filter_issueEntries, ← Multiset.coe_add, add_add_add_comm]
    refine congrArg₂ (· + ·) ?_ ?_
    · by_cases hon : i.firstSeenOn day
      · rw [if_pos hon, List.filter_cons, if_pos (decide_eq_true hon)]
        rfl
      · rw [if_neg hon, List.filter_cons, if_neg (by simpa using hon)]
        rfl
    · by_cases hon : i.regressedOn day
      · rw [if_pos hon, List.filter_cons, if_pos (decide_eq_true hon)]
        rfl
      · rw [if_neg hon, List.filter_cons, if_neg (by simpa using hon)]
        rfl

/-! ## Parts of the recount -/

/-- Rows of some dimensions, as they are stored, that tally the members. -/
structure Part (dimensions : List Dimension) (rows : List Rollup)
    (m : Multiset (RollupKey × Text)) : Prop where
  tallies : Tallies rows m
  dimension : ∀ x ∈ m, x.1.dimension ∈ dimensions

theorem Part.append {ds ds' : List Dimension} {rows rows' : List Rollup}
    {m m' : Multiset (RollupKey × Text)} (h : Part ds rows m) (h' : Part ds' rows' m')
    (hne : ∀ d ∈ ds, d ∉ ds') : Part (ds ++ ds') (rows ++ rows') (m + m') where
  tallies := h.tallies.append h'.tallies fun x hx y hy heq =>
    hne _ (h.dimension x hx) (heq ▸ h'.dimension y hy)
  dimension x hx := List.mem_append.mpr
    ((Multiset.mem_add.mp hx).imp (h.dimension x) (h'.dimension x))

/-- The rows of one dimension, when their keys tell the groups of the day's events apart. -/
theorem groupRows_part {κ : Type} [DecidableEq κ] {dimension : Dimension} {by_ : EventGroup → κ}
    {key label : κ → Text} {i : Slot}
    (hwritten : ∀ e ∈ db.events, dayOf e.receivedAt = day →
      writtenRow ⟨day, dimension, key (by_ (db.groupOf e))⟩ (label (by_ (db.groupOf e))) =
        ((db.standing e).entry i).written initcap db.releases)
    (hkey : ∀ e ∈ db.events, ∀ e' ∈ db.events, dayOf e.receivedAt = dayOf e'.receivedAt →
      (key (by_ (db.groupOf e))).take maxRollupChars =
        (key (by_ (db.groupOf e'))).take maxRollupChars →
      by_ (db.groupOf e) = by_ (db.groupOf e')) :
    Part [dimension] ((db.groupRows day dimension by_ key label).map leftRow)
      (slotMembers initcap db day i : List (RollupKey × Text)) := by
  have hday : ∀ e, e ∈ db.events.rows.filter (fun e => e.receivedOn day) →
      e ∈ db.events ∧ dayOf e.receivedAt = day := fun e he => by
    obtain ⟨he, hon⟩ := List.mem_filter.mp he
    exact ⟨he, dayOf_eq.mpr (of_decide_eq_true hon)⟩
  have hmembers : slotMembers initcap db day i =
      ((db.events.rows.filter fun e => e.receivedOn day).map fun e => by_ (db.groupOf e)).map
        fun k => writtenRow ⟨day, dimension, key k⟩ (label k) := by
    rw [List.map_map]
    refine List.map_congr_left fun e he => ?_
    obtain ⟨he, hd⟩ := hday e he
    exact (hwritten e he hd).symm
  refine ⟨?_, fun x hx => ?_⟩
  · rw [hmembers, Tables.groupRows, List.map_map]
    refine tallies_groups (isGrouping_regrouped db.groupOf by_ _)
      (fun k => writtenRow ⟨day, dimension, key k⟩ (label k)) fun a ha b hb heq => ?_
    obtain ⟨e, he, rfl⟩ := List.mem_map.mp ha
    obtain ⟨e', he', rfl⟩ := List.mem_map.mp hb
    obtain ⟨he, hd⟩ := hday e he
    obtain ⟨he', hd'⟩ := hday e' he'
    exact hkey e he e' he' (hd.trans hd'.symm) (congrArg (fun k => k.key) heq)
  · rw [hmembers] at hx
    obtain ⟨k, -, rfl⟩ := List.mem_map.mp (Multiset.mem_coe.mp hx)
    exact List.mem_singleton_self _

variable (initcap db day) in
theorem totalRows_part : Part [.eventTotal] ((db.totalRows day).map leftRow)
    (slotMembers initcap db day .total : List (RollupKey × Text)) := by
  have htotal : ((db.eventGroups day).map Prod.snd).sum =
      (db.events.rows.filter fun e => e.receivedOn day).length := sum_groupCount
  have hmembers : slotMembers initcap db day .total =
      (db.events.rows.filter fun e => e.receivedOn day).map fun _ =>
        writtenRow ⟨day, .eventTotal, "all".toList⟩ "Events".toList := by
    refine List.map_congr_left fun e he => ?_
    have hd : dayOf e.receivedAt = day :=
      dayOf_eq.mpr (of_decide_eq_true (List.mem_filter.mp he).2)
    rw [← hd]
    rfl
  rw [hmembers, Tables.totalRows, htotal]
  refine ⟨?_, fun x hx => ?_⟩
  · cases hl : db.events.rows.filter fun e => e.receivedOn day with
    | nil => exact tallies_nil
    | cons e l =>
      rw [if_pos (show 0 < (e :: l).length from Nat.succ_pos _)]
      exact tallies_single (List.cons_ne_nil e l)
        (writtenRow ⟨day, .eventTotal, "all".toList⟩ "Events".toList)
  · obtain ⟨e, -, rfl⟩ := List.mem_map.mp (Multiset.mem_coe.mp hx)
    exact List.mem_singleton_self _

theorem mem_firstMembers {x : Dimension × Text} (h : x ∈ firstMembers db day) :
    x = (.issueTotal, "Issues".toList) ∨ x = (.issueNew, "New issues".toList) := by
  obtain ⟨i, -, hx⟩ := List.mem_flatMap.mp h
  exact List.mem_pair.mp hx

variable (db day) in
theorem issueRows_part : Part [.issueTotal, .issueNew] ((db.issueRows day).map leftRow)
    ((firstMembers db day).map (firstRow day) : List (RollupKey × Text)) := by
  refine ⟨?_, fun x hx => ?_⟩
  · have htallies := tallies_groups (isGrouping_groupCount id (firstMembers db day)) (firstRow day)
      fun a ha b hb heq => by
        rw [List.map_id] at ha hb
        have hdimension : a.1 = b.1 := congrArg (fun k => k.dimension) heq
        rcases mem_firstMembers ha with rfl | rfl <;> rcases mem_firstMembers hb with rfl | rfl <;>
          first | rfl | cases hdimension
    rw [List.map_id] at htallies
    rw [Tables.issueRows, List.map_map]
    exact htallies
  · obtain ⟨a, ha, rfl⟩ := List.mem_map.mp (Multiset.mem_coe.mp hx)
    rcases mem_firstMembers ha with rfl | rfl
    · exact List.mem_cons_self
    · exact List.mem_cons_of_mem _ (List.mem_singleton_self _)

theorem regressedRows_part (h : ∃ i ∈ db.issues, i.regressedOn day) :
    Part [.issueRegressed] ((db.regressedRows day).map leftRow)
      (((db.issues.rows.filter fun i => i.regressedOn day).map fun _ => regressedRow day) :
        List (RollupKey × Text)) := by
  obtain ⟨i, hi, hon⟩ := h
  have hne : (db.issues.rows.filter fun i => i.regressedOn day) ≠ [] :=
    List.ne_nil_of_mem (List.mem_filter.mpr ⟨hi, decide_eq_true hon⟩)
  refine ⟨tallies_single hne (regressedRow day), fun x hx => ?_⟩
  obtain ⟨i, -, rfl⟩ := List.mem_map.mp (Multiset.mem_coe.mp hx)
  exact List.mem_singleton_self _

theorem SymbolicationState.text_injective : Function.Injective SymbolicationState.text := by
  intro a b h
  cases a <;> cases b <;> first | rfl | exact absurd h (by decide)

theorem ProcessingState.text_injective : Function.Injective ProcessingState.text := by
  intro a b h
  cases a <;> cases b <;> first | rfl | exact absurd h (by decide)

theorem Accounted.releaseOf (h : Accounted initcap db rollups) {e : Event} (he : e ∈ db.events) :
    (db.releaseOf e).map Release.id = e.releaseId := by
  unfold Tables.releaseOf
  cases hid : e.releaseId with
  | none => rfl
  | some id =>
    obtain ⟨r, hr⟩ := Option.isSome_iff_exists.mp (h.released e he id hid)
    rw [Option.bind_some, hr]
    exact congrArg some (Table.find_eq_some.mp hr).2

variable (day) in
theorem release_part (h : Accounted initcap db rollups) : Part [.release]
    ((db.groupRows day .release EventGroup.releaseKey Prod.fst Prod.snd).map leftRow)
    (slotMembers initcap db day .release : List (RollupKey × Text)) := by
  have hkey : ∀ e ∈ db.events, (db.groupOf e).releaseKey.1 = releaseText e.releaseId :=
    fun e he => by
      rw [← h.releaseOf he, releaseText, Option.map_map]
      rfl
  refine groupRows_part (fun e he hd => ?_) fun e he e' he' _ heq => ?_
  · rw [hkey e he, ← hd]
    rfl
  · rw [hkey e he, hkey e' he'] at heq
    have hid : e.releaseId = e'.releaseId := releaseText_injective
      (eq_of_take_eq (releaseText_length _) (releaseText_length _) heq)
    have hrelease : db.releaseOf e = db.releaseOf e' := by
      rw [Tables.releaseOf, Tables.releaseOf, hid]
    unfold EventGroup.releaseKey Tables.groupOf
    rw [hrelease]

variable (day) in
theorem platform_part (h : Accounted initcap db rollups) : Part [.platformArchitecture]
    ((db.groupRows day .platformArchitecture
      (fun g => (coalesce g.platform, coalesce g.architecture))
      (fun g => platformKey g.1 g.2) fun g => platformLabel initcap g.1 g.2).map leftRow)
    (slotMembers initcap db day .platform : List (RollupKey × Text)) := by
  refine groupRows_part (fun e he hd => ?_) fun e he e' he' hd heq => ?_
  · rw [← hd]
    rfl
  · exact h.apart e he e' he' hd heq

variable (initcap db day) in
theorem crashType_part : Part [.crashType]
    ((db.groupRows day .crashType (fun g => crashTypeText g.crashType) id initcap).map leftRow)
    (slotMembers initcap db day .crashType : List (RollupKey × Text)) := by
  refine groupRows_part (fun e he hd => ?_) fun e he e' he' hd heq => ?_
  · rw [← hd]
    rfl
  · exact eq_of_take_eq (crashTypeText_length _) (crashTypeText_length _) heq

variable (initcap db day) in
theorem symbolication_part : Part [.symbolicationState]
    ((db.groupRows day .symbolicationState EventGroup.symbolication SymbolicationState.text
      fun state => initcap state.text).map leftRow)
    (slotMembers initcap db day .symbolication : List (RollupKey × Text)) := by
  refine groupRows_part (fun e he hd => ?_) fun e he e' he' hd heq => ?_
  · rw [← hd]
    rfl
  · exact SymbolicationState.text_injective
      (eq_of_take_eq (SymbolicationState.text_length _) (SymbolicationState.text_length _) heq)

variable (initcap db day) in
theorem processing_part : Part [.processingState]
    ((db.groupRows day .processingState EventGroup.processingState ProcessingState.text
      (stateLabel initcap)).map leftRow)
    (slotMembers initcap db day .processing : List (RollupKey × Text)) := by
  refine groupRows_part (fun e he hd => ?_) fun e he e' he' hd heq => ?_
  · rw [← hd]
    rfl
  · exact ProcessingState.text_injective
      (eq_of_take_eq (ProcessingState.text_length _) (ProcessingState.text_length _) heq)

/-! ## Stored and counted rows -/

theorem members_eq : (db.entries.map (Entry.written initcap db.releases)).filter
      (fun x => x.1.day = day) =
    ((slotMembers initcap db day .total : List (RollupKey × Text)) : Multiset (RollupKey × Text)) +
      slotMembers initcap db day .release + slotMembers initcap db day .platform +
      slotMembers initcap db day .crashType + slotMembers initcap db day .symbolication +
      slotMembers initcap db day .processing + (firstMembers db day).map (firstRow day) +
      ((db.issues.rows.filter fun i => i.regressedOn day).map fun _ => regressedRow day :
        List (RollupKey × Text)) := by
  rw [Tables.entries, Multiset.map_add, Multiset.filter_add]
  refine (congrArg₂ (· + ·) (filter_standings _) (filter_issues _ _)).trans ?_
  simp only [Slot.all, List.map_cons, List.map_nil, List.sum_cons, List.sum_nil, add_zero, add_assoc]
  rfl

/-- All that is counted besides regressed issues. -/
theorem counted_eq (h : Accounted initcap db rollups) (day : Int) :
    ∃ rows, db.counted initcap day = rows ++ db.regressedRows day ∧
      Part [.eventTotal, .release, .platformArchitecture, .crashType, .symbolicationState,
          .processingState, .issueTotal, .issueNew] (rows.map leftRow)
        (((slotMembers initcap db day .total : List (RollupKey × Text)) :
          Multiset (RollupKey × Text)) + slotMembers initcap db day .release +
          slotMembers initcap db day .platform + slotMembers initcap db day .crashType +
          slotMembers initcap db day .symbolication + slotMembers initcap db day .processing +
          (firstMembers db day).map (firstRow day)) := by
  have hparts := ((((((totalRows_part initcap db day).append (release_part day h)
    (by decide)).append (platform_part day h) (by decide)).append (crashType_part initcap db day)
    (by decide)).append (symbolication_part initcap db day) (by decide)).append
    (processing_part initcap db day) (by decide)).append (issueRows_part db day) (by decide)
  simp only [← List.map_append] at hparts
  exact ⟨_, rfl, hparts⟩

theorem recount_tallies (h : Accounted initcap db rollups)
    (hr : ∃ i ∈ db.issues, i.regressedOn day) :
    Tallies (db.recount initcap day) ((db.entries.map (Entry.written initcap db.releases)).filter
      fun x => x.1.day = day) := by
  obtain ⟨rows, hrows, hpart⟩ := counted_eq h day
  have hparts := hpart.append (regressedRows_part hr) (by decide)
  rw [members_eq, Tables.recount, hrows, List.map_append]
  exact hparts.tallies

theorem Accounted.entries_apart (h : Accounted initcap db rollups) :
    ∀ x ∈ db.entries, ∀ y ∈ db.entries, x.Apart y := by
  have hslots : ∀ x ∈ db.entries, x.key.dimension ≠ .platformArchitecture ∨
      ∃ e ∈ db.events, x = (db.standing e).platform := fun x hx => by
    rcases Multiset.mem_add.mp hx with hx | hx
    · obtain ⟨e, he, hx⟩ := Table.mem_total.mp hx
      obtain ⟨j, rfl⟩ := Standing.mem_entries.mp hx
      cases j
      case platform => exact .inr ⟨e, he, rfl⟩
      all_goals exact .inl nofun
    · obtain ⟨i, -, hx⟩ := Table.mem_total.mp hx
      exact .inl (issueEntries_dimension _ x hx)
  intro x hx y hy
  rcases hslots x hx with hne | ⟨e, he, rfl⟩
  · exact Entry.apart_left hne y
  · rcases hslots y hy with hne | ⟨e', he', rfl⟩
    · exact Entry.apart_right hne _
    · exact h.apart e he e' he'

theorem Accounted.count_ne_zero (h : Accounted initcap db rollups) {row : Rollup}
    (hr : row ∈ rollups) : row.count ≠ 0 :=
  (h.tallied.tallies.count_pos hr).ne'

theorem Accounted.stored_tallies (h : Accounted initcap db rollups) (day : Int) :
    Tallies (rollups.rows.filter fun row => row.key.day = day)
      ((db.entries.map (Entry.written initcap db.releases)).filter fun x => x.1.day = day) :=
  h.tallied.tallies.filter fun k => k.day = day

theorem Accounted.agrees (h : Accounted initcap db rollups) (day : Int) :
    ∀ x ∈ (db.entries.map (Entry.written initcap db.releases)).filter (fun x => x.1.day = day),
      Agrees x ((db.entries.map (Entry.written initcap db.releases)).filter
        fun x => x.1.day = day) := by
  intro x hx y hy hk
  obtain ⟨a, ha, rfl⟩ := Multiset.mem_map.mp (Multiset.mem_of_mem_filter hx)
  obtain ⟨b, hb, rfl⟩ := Multiset.mem_map.mp (Multiset.mem_of_mem_filter hy)
  exact Entry.written_label (h.entries_apart a ha b hb) hk

/-- The repair counts what is stored exactly where it has no row that counts none. -/
theorem Accounted.exact_iff (h : Accounted initcap db rollups) (day : Int) :
    (rollups.rows.filter fun row => row.key.day = day).Perm (db.recount initcap day) ↔
      ∃ i ∈ db.issues, i.regressedOn day := by
  constructor
  · intro hexact
    have hcounted : leftRow ⟨⟨day, .issueRegressed, "all".toList⟩, "Regressed issues".toList,
        (db.issues.rows.filter fun i => i.regressedOn day).length⟩ ∈ db.recount initcap day :=
      List.mem_map_of_mem (List.mem_append_right _ (List.mem_singleton_self _))
    have hpos : 0 < (db.issues.rows.filter fun i => i.regressedOn day).length :=
      (h.stored_tallies day).count_pos (hexact.mem_iff.mpr hcounted)
    obtain ⟨i, hi⟩ := List.exists_mem_of_length_pos hpos
    obtain ⟨hi, hon⟩ := List.mem_filter.mp hi
    exact ⟨i, hi, of_decide_eq_true hon⟩
  · intro hr
    exact (h.stored_tallies day).perm (recount_tallies h hr) (h.agrees day)

theorem exact_iff_of_reachable {db : Database}
    (h : Reachable (restrict (step initcap) fun db => Distinct db.toTables) (fun _ => True)
      Database.init db) (day : Int) : db.Exact initcap day ↔ ∃ i ∈ db.issues, i.regressedOn day :=
  (accounted_of_reachable h).exact_iff day

/-- `initcap` of ASCII text. -/
def asciiInitcap (text : Text) : Text :=
  (text.foldl (fun (done, first) c =>
    (done ++ [if first then c.toUpper else c.toLower], !c.isAlphanum)) (([] : Text), true)).1

def windows (eventId resultId : Uuid) (platform architecture : String) : SearchRow :=
  ⟨eventId, resultId, some platform.toList, some architecture.toList, some .crash, .missing⟩

def steamRelease : Release :=
  ⟨⟨"6f1c2a34-58de-4b0a-9c11-0d7e3a5b4c21".toList, by decide⟩, "1.4.0".toList⟩

def seenIssue (state : RegressionState) : Issue := ⟨7, 0, 5, state⟩

/-- A first result, a second one with another platform and a release, a failure, and an issue
that regresses. -/
def regressedRun : List Action :=
  [.createRelease steamRelease, .ingest 1 0, .ingest 2 5,
    .publish ⟨windows 1 11 "windows" "x86_64", none, [.insert (seenIssue .new)], false⟩,
    .publish ⟨windows 1 12 "win64" "x86_64", some steamRelease.id, [], true⟩,
    .finishFailure 2 true 0, .changeIssues [.update (seenIssue .regressed)]]

/-- Two events whose platforms and architectures have one key. -/
def sharedKeyRun : List Action :=
  [.ingest 1 0, .ingest 2 5,
    .publish ⟨windows 1 11 "a/b" "c", none, [.insert (seenIssue .regressed)], true⟩,
    .publish ⟨windows 2 12 "a" "b/c", none, [], true⟩]

theorem exact_regressedRun : ∃ db,
    Reachable (restrict (step asciiInitcap) fun db => Distinct db.toTables) (fun _ => True) Database.init db ∧
      db.events.rows.length = 2 ∧ db.Exact asciiInitcap 0 := by
  have hrun : (run (restrict (step asciiInitcap) fun db => Distinct db.toTables) (fun _ => True) Database.init
      regressedRun).isSome := by
    decide +kernel
  obtain ⟨db, hdb⟩ := Option.isSome_iff_exists.mp hrun
  have hreach := Reachable.of_run (.init trivial) hdb
  have hend : ∀ u ∈ run (restrict (step asciiInitcap) fun db => Distinct db.toTables) (fun _ => True) Database.init
      regressedRun, u.events.rows.length = 2 ∧ ∃ i ∈ u.issues.rows, i.regressedOn 0 := by
    decide +kernel
  obtain ⟨hlength, hregressed⟩ := hend db hdb
  exact ⟨db, hreach, hlength, (exact_iff_of_reachable hreach 0).mpr hregressed⟩

/-- A repair counts no regressed issue into a row of its own, and it counts the events of two
platforms into two rows of one key. -/
theorem not_exact_sharedKeyRun : ¬ (∀ db,
      Reachable (step asciiInitcap) (fun _ => True) Database.init db → db.Exact asciiInitcap 1) ∧
    ¬ ∀ db, Reachable (step asciiInitcap) (fun _ => True) Database.init db →
      (∃ i ∈ db.issues, i.regressedOn 0) → db.Exact asciiInitcap 0 := by
  have hrun : (run (step asciiInitcap) (fun _ => True) Database.init sharedKeyRun).isSome := by
    decide +kernel
  obtain ⟨db, hdb⟩ := Option.isSome_iff_exists.mp hrun
  have hreach := Reachable.of_run (.init trivial) hdb
  have hend : ∀ u ∈ run (step asciiInitcap) (fun _ => True) Database.init sharedKeyRun,
      (¬ (u.stored 1).Perm (u.recount asciiInitcap 1)) ∧
        (∃ i ∈ u.issues.rows, i.regressedOn 0) ∧
          ¬ (u.stored 0).Perm (u.recount asciiInitcap 0) := by
    decide +kernel
  obtain ⟨hzero, hregressed, hshared⟩ := hend db hdb
  exact ⟨fun h => hzero (h db hreach), fun h => hshared (h db hreach hregressed)⟩

end FaultLane.DailyRollups

import FaultLane.DashboardOverview
import FaultLane.DailyRollupsRepair
import FaultLane.TallyMembers

set_option autoImplicit false

/-!
# What recounted rollups count

When the stored rows of each day are those of its recount, the rows of a dimension stand for
the events or the issues that the overview counts itself.
-/
namespace FaultLane.DashboardOverview
open KeyedTable LabelledTally GroupedSums RustText JobQueue DailyRollups

/-- All rows but those for no regressed issue, which only a repair stores. -/
def speaks (row : Rollup) : Prop := row.key.dimension = .issueRegressed → row.count ≠ 0

instance : DecidablePred speaks := fun _ => inferInstanceAs (Decidable (_ → _))

/-- Every row equals the recount of its day. -/
def Recounted (initcap : Text → Text) (db : Database) : Prop :=
  ∀ day, ((db.stored day).filter fun row => speaks row).Perm
    ((db.recount initcap day).filter fun row => speaks row)

section
variable (initcap : Text → Text) (db : Tables)

/-- The key and the label of an event in a dimension. -/
def eventTexts (dimension : Dimension) (e : Event) : Text × Text :=
  match dimension with
  | .release => (db.releaseKey e, db.releaseLabel e)
  | .platformArchitecture =>
    (platformKeyOf db e, platformLabel initcap (coalesce (eventPlatform db e))
      (coalesce (eventArchitecture db e)))
  | .crashType => (eventCrashType db e, initcap (eventCrashType db e))
  | .symbolicationState => ((db.symbolication e).text, initcap (db.symbolication e).text)
  | .processingState => (e.processingState.text, stateLabel initcap e.processingState)
  | .eventTotal | .issueTotal | .issueNew | .issueRegressed =>
    ("all".toList, "Events".toList)

def eventMember (dimension : Dimension) (day : Int) (e : Event) : RollupKey × Text :=
  (⟨day, dimension, (eventTexts initcap db dimension e).1⟩,
    (eventTexts initcap db dimension e).2)

def issueMember (dimension : Dimension) (label : String) (day : Int) : RollupKey × Text :=
  (⟨day, dimension, "all".toList⟩, label.toList)

/-- A member as it is stored. -/
def cut (x : RollupKey × Text) : RollupKey × Text := (x.1.left, x.2.take maxRollupChars)

end

section
variable {initcap : Text → Text} {db : Tables} {day : Int}

/-! ## The recount of a day -/

variable (db) in
def eventsOn (day : Int) : List Event := db.events.rows.filter fun e => e.receivedOn day

theorem members_groupRows {κ : Type} [DecidableEq κ] (dimension : Dimension) (by_ : EventGroup → κ)
    (key label : κ → Text) :
    members (db.groupRows day dimension by_ key label) =
      ((eventsOn db day).map fun e => (⟨day, dimension, key (by_ (db.groupOf e))⟩,
        label (by_ (db.groupOf e))) : List (RollupKey × Text)) := by
  refine (members_groups (isGrouping_regrouped db.groupOf by_ (eventsOn db day))
    fun k => ((⟨day, dimension, key k⟩, label k) : RollupKey × Text)).trans ?_
  rw [List.map_map]
  rfl

variable (initcap) in
theorem members_totalRows : members (db.totalRows day) =
    ((eventsOn db day).map (eventMember initcap db .eventTotal day) : List (RollupKey × Text)) := by
  have htotal : ((db.eventGroups day).map Prod.snd).sum = (eventsOn db day).length := sum_groupCount
  have hconstant : eventMember initcap db .eventTotal day =
      fun _ => ((⟨day, .eventTotal, "all".toList⟩, "Events".toList) : RollupKey × Text) := rfl
  rw [Tables.totalRows, htotal, hconstant, List.map_const']
  split_ifs with hpos
  · rw [members_cons, members_nil, add_zero]
    exact (Multiset.coe_replicate ..).symm
  · rw [Nat.eq_zero_of_not_pos hpos]
    rfl

theorem members_issueRows : members (db.issueRows day) =
    (((db.issues.rows.filter fun i => i.firstSeenOn day).flatMap fun _ =>
      [issueMember .issueTotal "Issues" day, issueMember .issueNew "New issues" day]) :
        List (RollupKey × Text)) := by
  refine (members_groups (isGrouping_groupCount id (firstMembers db day))
    fun x => ((⟨day, x.1, "all".toList⟩, x.2) : RollupKey × Text)).trans ?_
  rw [List.map_id, firstMembers, List.map_flatMap]
  rfl

theorem members_regressedRows : members (db.regressedRows day) =
    ((db.issues.rows.filter fun i => i.regressedOn day).map fun _ =>
      issueMember .issueRegressed "Regressed issues" day : List (RollupKey × Text)) := by
  rw [Tables.regressedRows, members_cons, members_nil, add_zero, List.map_const']
  exact (Multiset.coe_replicate ..).symm

variable (initcap db day) in
theorem members_counted : members (db.counted initcap day) =
    (((eventsOn db day).map (eventMember initcap db .eventTotal day) : List _) :
        Multiset (RollupKey × Text)) +
      (eventsOn db day).map (eventMember initcap db .release day) +
      (eventsOn db day).map (eventMember initcap db .platformArchitecture day) +
      (eventsOn db day).map (eventMember initcap db .crashType day) +
      (eventsOn db day).map (eventMember initcap db .symbolicationState day) +
      (eventsOn db day).map (eventMember initcap db .processingState day) +
      ((db.issues.rows.filter fun i => i.firstSeenOn day).flatMap fun _ =>
        [issueMember .issueTotal "Issues" day, issueMember .issueNew "New issues" day]) +
      (db.issues.rows.filter fun i => i.regressedOn day).map fun _ =>
        issueMember .issueRegressed "Regressed issues" day := by
  unfold Tables.counted
  simp only [members_append, members_groupRows, members_totalRows initcap,
    members_issueRows, members_regressedRows]
  rfl

/-! ## The rows of a dimension -/

variable (initcap db) in
/-- The members of a dimension, on their days. -/
def datedMembers (dimension : Dimension) : List (RollupKey × Text) :=
  match dimension with
  | .issueTotal => db.issues.rows.map fun i =>
      issueMember .issueTotal "Issues" (dayOf i.firstSeenAt)
  | .issueNew => db.issues.rows.map fun i =>
      issueMember .issueNew "New issues" (dayOf i.firstSeenAt)
  | .issueRegressed => (db.issues.rows.filter fun i => i.regressionState = .regressed).map fun i =>
      issueMember .issueRegressed "Regressed issues" (dayOf i.lastSeenAt)
  | dimension => db.events.rows.map fun e => eventMember initcap db dimension (dayOf e.receivedAt) e

variable (initcap db) in
/-- The members of a dimension on one day. -/
def dayMembers (dimension : Dimension) (day : Int) : List (RollupKey × Text) :=
  match dimension with
  | .issueTotal => (db.issues.rows.filter fun i => i.firstSeenOn day).map fun _ =>
      issueMember .issueTotal "Issues" day
  | .issueNew => (db.issues.rows.filter fun i => i.firstSeenOn day).map fun _ =>
      issueMember .issueNew "New issues" day
  | .issueRegressed => (db.issues.rows.filter fun i => i.regressedOn day).map fun _ =>
      issueMember .issueRegressed "Regressed issues" day
  | dimension => (eventsOn db day).map (eventMember initcap db dimension day)

theorem filter_dimension {α : Type} (l : List α) (row : α → RollupKey × Text) {d : Dimension}
    (hrow : ∀ a, (row a).1.dimension = d) (d' : Dimension) :
    ((l.map row : List (RollupKey × Text)) : Multiset (RollupKey × Text)).filter
        (fun x => x.1.dimension = d') =
      if d = d' then ((l.map row : List _) : Multiset (RollupKey × Text)) else 0 := by
  have hmem : ∀ x ∈ ((l.map row : List (RollupKey × Text)) : Multiset (RollupKey × Text)),
      x.1.dimension = d := fun x hx => by
    obtain ⟨a, -, rfl⟩ := List.mem_map.mp (Multiset.mem_coe.mp hx)
    exact hrow a
  split_ifs with hd
  · exact Multiset.filter_eq_self.mpr fun x hx => (hmem x hx).trans hd
  · exact Multiset.filter_eq_nil.mpr fun x hx h => hd ((hmem x hx).symm.trans h)

theorem filter_issueRows (l : List Issue) (d : Dimension) :
    ((l.flatMap fun _ => [issueMember .issueTotal "Issues" day,
        issueMember .issueNew "New issues" day] : List (RollupKey × Text)) :
          Multiset (RollupKey × Text)).filter (fun x => x.1.dimension = d) =
      ((if d = .issueTotal then l.map fun _ => issueMember .issueTotal "Issues" day
        else if d = .issueNew then l.map fun _ => issueMember .issueNew "New issues" day
        else [] : List _) : Multiset _) := by
  rw [Multiset.filter_coe, List.filter_flatMap]
  refine congrArg _ ?_
  induction l with
  | nil =>
    split_ifs <;> rfl
  | cons i l ih =>
    rw [List.flatMap_cons, ih]
    cases d <;> rfl

variable (initcap db day) in
theorem members_counted_dimension (d : Dimension) :
    (members (db.counted initcap day)).filter (fun x => x.1.dimension = d) =
      (dayMembers initcap db d day : List _) := by
  have hpart : ∀ d₀ : Dimension, ((((eventsOn db day).map (eventMember initcap db d₀ day) :
      List (RollupKey × Text)) : Multiset (RollupKey × Text)).filter fun x => x.1.dimension = d) =
        if d₀ = d then (((eventsOn db day).map (eventMember initcap db d₀ day) : List _) :
          Multiset (RollupKey × Text)) else 0 :=
    fun d₀ => filter_dimension _ (eventMember initcap db d₀ day) (fun _ => rfl) d
  have hregressed := filter_dimension (db.issues.rows.filter fun i => i.regressedOn day)
    (fun _ => issueMember .issueRegressed "Regressed issues" day)
    (fun _ => show _ = Dimension.issueRegressed from rfl) d
  rw [members_counted]
  simp only [Multiset.filter_add, filter_issueRows, hpart, hregressed]
  cases d <;> simp [dayMembers]

/-- The members of one day among dated members. -/
theorem filter_day {α : Type} (l : List α) (row : Int → α → RollupKey × Text) {date : α → Int}
    (hrow : ∀ a d, (row d a).1.day = d) :
    ((l.map fun a => row (date a) a : List (RollupKey × Text)) :
        Multiset (RollupKey × Text)).filter (fun x => x.1.day = day) =
      ((l.filter fun a => date a = day).map (row day) : List _) := by
  rw [Multiset.filter_coe, List.filter_map]
  refine congrArg _ ?_
  induction l with
  | nil => rfl
  | cons a l ih =>
    have hday := hrow a (date a)
    by_cases hd : date a = day
    · have hkeep : decide ((row (date a) a).1.day = day) = true := decide_eq_true (hday.trans hd)
      rw [List.filter_cons_of_pos (by simpa using hkeep),
        List.filter_cons_of_pos (by simpa using hd), List.map_cons, List.map_cons, ih, hd]
    · have hdrop : ¬ (row (date a) a).1.day = day := fun h => hd (hday.symm.trans h)
      rw [List.filter_cons_of_neg (by simpa using hdrop),
        List.filter_cons_of_neg (by simpa using hd), ih]

variable (initcap db day) in
theorem datedMembers_day (d : Dimension) :
    ((datedMembers initcap db d : List _) : Multiset (RollupKey × Text)).filter
        (fun x => x.1.day = day) = (dayMembers initcap db d day : List _) := by
  have hreceived : ∀ l : List Event, (l.filter fun e => dayOf e.receivedAt = day) =
      l.filter fun e => e.receivedOn day :=
    fun l => List.filter_congr fun e _ => decide_eq_decide.mpr dayOf_eq
  have hseen : ∀ l : List Issue, (l.filter fun i => dayOf i.firstSeenAt = day) =
      l.filter fun i => i.firstSeenOn day :=
    fun l => List.filter_congr fun i _ => decide_eq_decide.mpr dayOf_eq
  have hregressed : ∀ l : List Issue, ((l.filter fun i => i.regressionState = .regressed).filter
      fun i => dayOf i.lastSeenAt = day) = l.filter fun i => i.regressedOn day := fun l => by
    rw [List.filter_filter]
    refine List.filter_congr fun i _ => ?_
    rw [← Bool.decide_and, decide_eq_decide, dayOf_eq, and_comm]
    rfl
  have hevents : ∀ d₀, ((db.events.rows.map fun e =>
      eventMember initcap db d₀ (dayOf e.receivedAt) e : List (RollupKey × Text)) :
        Multiset (RollupKey × Text)).filter (fun x => x.1.day = day) =
      (((eventsOn db day).map (eventMember initcap db d₀ day) : List _) :
        Multiset (RollupKey × Text)) := fun d₀ => by
    rw [filter_day _ (eventMember initcap db d₀) fun _ _ => rfl, hreceived]
    rfl
  cases d
  case issueTotal =>
    exact (filter_day _ (fun d _ => issueMember .issueTotal "Issues" d)
      fun _ _ => rfl).trans (by rw [hseen]; rfl)
  case issueNew =>
    exact (filter_day _ (fun d _ => issueMember .issueNew "New issues" d)
      fun _ _ => rfl).trans (by rw [hseen]; rfl)
  case issueRegressed =>
    exact (filter_day _ (fun d _ => issueMember .issueRegressed "Regressed issues" d)
      fun _ _ => rfl).trans (by rw [hregressed]; rfl)
  all_goals exact hevents _

/-! ## Rows that count none -/

theorem count_ne_zero_of_grouping {κ : Type} [DecidableEq κ] {groups : List (κ × Nat)} {l : List κ}
    (h : IsGrouping groups l) (key : κ → RollupKey) (label : κ → Text) {row : Rollup}
    (hrow : row ∈ groups.map fun g => (⟨key g.1, label g.1, g.2⟩ : Rollup)) : row.count ≠ 0 := by
  obtain ⟨g, hg, rfl⟩ := List.mem_map.mp hrow
  obtain ⟨hmem, hcount⟩ := (h.mem g).mp hg
  have hpos : 0 < g.2 := hcount ▸ List.count_pos_iff.mpr hmem
  exact Nat.ne_of_gt hpos

theorem count_ne_zero_of_groupRows {κ : Type} [DecidableEq κ] {dimension : Dimension}
    {by_ : EventGroup → κ} {key label : κ → Text} {row : Rollup}
    (hrow : row ∈ db.groupRows day dimension by_ key label) : row.count ≠ 0 :=
  count_ne_zero_of_grouping (isGrouping_regrouped db.groupOf by_ (eventsOn db day))
    (fun k => ⟨day, dimension, key k⟩) label hrow

theorem count_ne_zero_of_counted {row : Rollup} (hrow : row ∈ db.counted initcap day)
    (hd : row.key.dimension ≠ .issueRegressed) : row.count ≠ 0 := by
  simp only [Tables.counted, List.mem_append] at hrow
  obtain ((((((htotal | hgroup) | hgroup) | hgroup) | hgroup) | hgroup) | hissue) | hregressed :=
    hrow
  · unfold Tables.totalRows at htotal
    dsimp only at htotal
    split_ifs at htotal with hpos
    · rw [List.mem_singleton.mp htotal]
      exact Nat.ne_of_gt hpos
    · cases htotal
  · exact count_ne_zero_of_groupRows hgroup
  · exact count_ne_zero_of_groupRows hgroup
  · exact count_ne_zero_of_groupRows hgroup
  · exact count_ne_zero_of_groupRows hgroup
  · exact count_ne_zero_of_groupRows hgroup
  · exact count_ne_zero_of_grouping (isGrouping_groupCount id (firstMembers db day))
      (fun x => ⟨day, x.1, "all".toList⟩) Prod.snd hissue
  · rw [Tables.regressedRows] at hregressed
    rw [List.mem_singleton.mp hregressed] at hd
    exact absurd rfl hd

end

/-! ## The stored rows -/

section
variable {initcap : Text → Text} {db : Database}

theorem Recounted.members_stored (h : Recounted initcap db) (day : Int) :
    members (db.stored day) = (members (db.counted initcap day)).map cut := by
  have hzero : ∀ rows : List Rollup, members (rows.filter fun row => speaks row) = members rows :=
    fun rows => members_of_zero fun row _ hp => by
      by_contra hne
      exact of_decide_eq_false hp fun _ => hne
  rw [← hzero, members_perm (h day), hzero]
  exact members_map RollupKey.left (List.take maxRollupChars)

/-- The rows of a dimension stand for its events or issues. -/
theorem Recounted.members_dimensionRows (h : Recounted initcap db) (d : Dimension) :
    members (dimensionRows db d) =
      ((datedMembers initcap db.toTables d : List _) : Multiset (RollupKey × Text)).map cut := by
  refine eq_of_filter_eq (fun x => x.1.day) fun day => ?_
  have hcut : ∀ (m : Multiset (RollupKey × Text)) (p : RollupKey → Prop) [DecidablePred p],
      (∀ k : RollupKey, p k.left ↔ p k) →
        (m.map cut).filter (fun x => p x.1) = (m.filter fun x => p x.1).map cut :=
    fun m p _ hp => by
      rw [Multiset.filter_map]
      refine congrArg _ (Multiset.filter_congr fun x _ => hp x.1)
  have hrows : (dimensionRows db d).filter (fun row => row.key.day = day) =
      (db.stored day).filter fun row => row.key.dimension = d := by
    rw [dimensionRows, Database.stored, List.filter_comm]
  rw [hcut _ (fun k => k.day = day) fun _ => Iff.rfl, datedMembers_day,
    ← members_filter fun k : RollupKey => k.day = day, hrows,
    members_filter fun k : RollupKey => k.dimension = d, h.members_stored,
    hcut _ (fun k => k.dimension = d) fun _ => Iff.rfl, members_counted_dimension]

theorem Recounted.count_ne_zero (h : Recounted initcap db) {row : Rollup} (hrow : row ∈ db.rollups)
    (hd : row.key.dimension ≠ .issueRegressed) : row.count ≠ 0 := by
  have hstored : row ∈ (db.stored row.key.day).filter fun row => speaks row :=
    List.mem_filter.mpr ⟨List.mem_filter.mpr ⟨hrow, decide_eq_true rfl⟩,
      decide_eq_true fun heq => absurd heq hd⟩
  obtain ⟨hrecount, -⟩ := List.mem_filter.mp ((h _).mem_iff.mp hstored)
  obtain ⟨counted, hcounted, heq⟩ := List.mem_map.mp hrecount
  have hcount : counted.count ≠ 0 := count_ne_zero_of_counted hcounted fun h => hd (heq ▸ h)
  rwa [← heq]

end
end FaultLane.DashboardOverview

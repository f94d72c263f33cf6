import FaultLane.DashboardOverviewCounts
import FaultLane.RollupRepairRuns

set_option autoImplicit false

/-!
# The figures of the overview

Recounted rollups give the totals, the buckets, the symbolication counts and the ingest health
that the events and the issues give, and groups of the same sizes.
-/
namespace FaultLane.DashboardOverview
open KeyedTable LabelledTally GroupedSums RustText JobQueue DailyRollups

/-! ## The window -/

section
variable {clock : Timestamp}

theorem inWindow_iff {t : Timestamp} :
    inWindow clock t ↔ firstDay clock ≤ dayOf t ∧ dayOf t < endDay clock := by
  have h : ∀ t first last : Int, (first * 86400000000 ≤ t ∧ t < last * 86400000000) ↔
      first ≤ t / 86400000000 ∧ t / 86400000000 < last := by
    omega
  exact h t (firstDay clock) (endDay clock)

end

section
variable {initcap : Text → Text} {db : Database} {clock : Timestamp}

def dayInWindow (clock : Timestamp) (key : RollupKey) : Prop :=
  firstDay clock ≤ key.day ∧ key.day < endDay clock

instance : DecidablePred (dayInWindow clock) := fun _ => inferInstanceAs (Decidable (_ ∧ _))

theorem Recounted.members_windowRows (h : Recounted initcap db) (clock : Timestamp)
    (d : Dimension) : members (windowRows db clock d) =
      (((datedMembers initcap db.toTables d : List _) : Multiset (RollupKey × Text)).filter
        fun x => dayInWindow clock x.1).map cut := by
  have hrows : windowRows db clock d =
      (dimensionRows db d).filter fun row => dayInWindow clock row.key := rfl
  rw [hrows, members_filter, h.members_dimensionRows, Multiset.filter_map]
  rfl

theorem filter_dated {α : Type} (l : List α) (row : α → RollupKey × Text) (date : α → Timestamp)
    (hrow : ∀ a, (row a).1.day = dayOf (date a)) :
    (l.map row).filter (fun x => dayInWindow clock x.1) =
      (l.filter fun a => inWindow clock (date a)).map row := by
  rw [List.filter_map]
  refine congrArg _ (List.filter_congr fun a _ => decide_eq_decide.mpr ?_)
  rw [inWindow_iff, ← hrow]
  rfl

variable (initcap db clock) in
/-- The members of the window's events. -/
def windowMembers (d : Dimension) : List (RollupKey × Text) :=
  (windowEvents db.toTables clock).map fun e =>
    cut (eventMember initcap db.toTables d (dayOf e.receivedAt) e)

def isEventDimension : Dimension → Bool
  | .issueTotal | .issueNew | .issueRegressed => false
  | _ => true

theorem datedMembers_of_event {d : Dimension} (hd : isEventDimension d) (db : Tables) :
    datedMembers initcap db d =
      db.events.rows.map fun e => eventMember initcap db d (dayOf e.receivedAt) e := by
  cases d <;> first | rfl | cases hd

theorem Recounted.members_eventRows (h : Recounted initcap db) (clock : Timestamp) {d : Dimension}
    (hd : isEventDimension d) :
    members (windowRows db clock d) = (windowMembers initcap db clock d : List _) := by
  rw [h.members_windowRows, datedMembers_of_event hd, Multiset.filter_coe,
    filter_dated _ (fun e => eventMember initcap db.toTables d (dayOf e.receivedAt) e)
      Event.receivedAt fun _ => rfl, Multiset.map_coe, List.map_map]
  rfl

/-! ## Totals -/

theorem sumCounts_eq (rows : List Rollup) : sumCounts rows = (members rows).card :=
  card_members.symm

theorem sumOfKey_eq (rows : List Rollup) (key : Text) :
    sumOfKey rows key = (members rows).countP fun x => x.1.key = key :=
  sumAt_members RollupKey.key key

theorem Recounted.sumCounts_eventTotal (h : Recounted initcap db) (clock : Timestamp) :
    sumCounts (windowRows db clock .eventTotal) = (windowEvents db.toTables clock).length := by
  rw [sumCounts_eq, h.members_eventRows clock rfl, Multiset.coe_card]
  exact List.length_map _

theorem Recounted.rollupTotals_eq (h : Recounted initcap db) (clock : Timestamp) :
    rollupTotals db clock = eventTotals db.toTables clock := by
  have hissues : sumCounts (dimensionRows db .issueTotal) = db.issues.rows.length := by
    rw [sumCounts_eq, h.members_dimensionRows, Multiset.card_map]
    exact List.length_map _
  have hnew : sumCounts (windowRows db clock .issueNew) =
      db.issues.rows.countP fun i => inWindow clock i.firstSeenAt := by
    rw [sumCounts_eq, h.members_windowRows, Multiset.card_map, Multiset.filter_coe]
    refine (congrArg List.length (filter_dated db.issues.rows
      (fun i => issueMember .issueNew "New issues" (dayOf i.firstSeenAt)) Issue.firstSeenAt
      fun _ => rfl)).trans ?_
    rw [List.length_map, List.countP_eq_length_filter]
  have hregressed : sumCounts (windowRows db clock .issueRegressed) =
      db.issues.rows.countP fun i =>
        i.regressionState = .regressed ∧ inWindow clock i.lastSeenAt := by
    rw [sumCounts_eq, h.members_windowRows, Multiset.card_map, Multiset.filter_coe]
    refine (congrArg List.length (filter_dated
      (db.issues.rows.filter fun i => i.regressionState = .regressed)
      (fun i => issueMember .issueRegressed "Regressed issues" (dayOf i.lastSeenAt))
      Issue.lastSeenAt fun _ => rfl)).trans ?_
    rw [List.length_map, List.filter_filter, List.countP_eq_length_filter]
    refine congrArg List.length (List.filter_congr fun i _ => ?_)
    rw [← Bool.decide_and, decide_eq_decide, and_comm]
  rw [rollupTotals, eventTotals, h.sumCounts_eventTotal, hissues, hnew, hregressed]

/-! ## Buckets -/

theorem count_find (rows : Rollups) (key : RollupKey) :
    ((rows.find key).map Row.count).getD 0 = (members rows.rows).countP fun x => x.1 = key := by
  have hmembers : sumAt (fun r : Rollup => r.key) Row.count key rows.rows =
      (members rows.rows).countP fun x => x.1 = key := sumAt_members id key
  exact (RollupRepair.sum_rowAt rows.unique key).symm.trans hmembers

theorem Recounted.rollupBuckets_eq (h : Recounted initcap db) (clock : Timestamp) :
    rollupBuckets db clock = eventBuckets db.toTables clock := by
  refine List.map_congr_left fun day _ => congrArg (TimeBucket.mk day) ?_
  let key : RollupKey := ⟨day, .eventTotal, "all".toList⟩
  have hrows : (members db.rollups.rows).countP (fun x => x.1 = key) =
      (members (dimensionRows db .eventTotal)).countP fun x => x.1 = key := by
    have hfilter : members (dimensionRows db .eventTotal) =
        (members db.rollups.rows).filter fun x => x.1.dimension = .eventTotal :=
      members_filter fun k : RollupKey => k.dimension = .eventTotal
    rw [hfilter, Multiset.countP_filter]
    refine Multiset.countP_congr rfl fun x _ => propext ⟨fun hk => ⟨hk, hk ▸ rfl⟩, And.left⟩
  have hevents : datedMembers initcap db.toTables .eventTotal =
      db.events.rows.map fun e => ((⟨dayOf e.receivedAt, .eventTotal, "all".toList⟩,
        "Events".toList) : RollupKey × Text) := rfl
  rw [count_find, hrows, h.members_dimensionRows, hevents, Multiset.map_coe, Multiset.coe_countP,
    List.map_map, List.countP_map]
  refine List.countP_congr fun e _ => ?_
  simp only [Function.comp_apply, decide_eq_true_eq]
  refine Iff.trans ⟨fun hk => ?_, fun hd => ?_⟩
    (show dayOf e.receivedAt = day ↔ e.receivedOn day from dayOf_eq)
  · exact congrArg RollupKey.day hk
  · exact congrArg (fun day => (⟨day, .eventTotal, "all".toList⟩ : RollupKey)) hd

/-! ## Symbolication and ingest -/

theorem Recounted.rollupSymbolication_eq (h : Recounted initcap db) (clock : Timestamp) :
    rollupSymbolication db clock = eventSymbolication db.toTables clock := by
  have hcount : ∀ state : SymbolicationState,
      sumOfKey (windowRows db clock .symbolicationState) state.text =
        (windowEvents db.toTables clock).countP fun e => db.symbolication e = state := by
    intro state
    rw [sumOfKey_eq, h.members_eventRows clock rfl, Multiset.coe_countP, windowMembers,
      List.countP_map]
    refine List.countP_congr fun e _ => ?_
    simp only [Function.comp_apply, decide_eq_true_eq]
    have hcut : ((db.symbolication e).text).take maxRollupChars = (db.symbolication e).text :=
      List.take_of_length_le (db.symbolication e).text_length
    exact (iff_of_eq (congrArg (· = state.text) hcut)).trans
      SymbolicationState.text_injective.eq_iff
  simp only [rollupSymbolication, eventSymbolication, hcount]

/-- The order of `lastReceivedAt`. -/
def later (e f : Event) : Prop :=
  f.receivedAt < e.receivedAt ∨ e.receivedAt = f.receivedAt ∧ f.id ≤ e.id

instance : DecidableRel later := fun _ _ => inferInstanceAs (Decidable (_ ∨ _))

instance : Std.Total later where
  total e f := by
    have h : ∀ (t u : Int) (m n : Nat), (u < t ∨ t = u ∧ n ≤ m) ∨ t < u ∨ u = t ∧ m ≤ n := by
      omega
    exact h e.receivedAt f.receivedAt e.id f.id

instance : IsTrans Event later where
  trans e f g := by
    have h : ∀ (t u v : Int) (m n k : Nat), (u < t ∨ t = u ∧ n ≤ m) → (v < u ∨ u = v ∧ k ≤ n) →
        v < t ∨ t = v ∧ k ≤ m := by
      omega
    exact h e.receivedAt f.receivedAt g.receivedAt e.id f.id g.id

theorem lastReceivedAt_eq (db : Database) : lastReceivedAt db = maxReceivedAt db.toTables := by
  let sorted := db.events.rows.insertionSort later
  have hsorted : sorted.Pairwise later := List.pairwise_insertionSort later _
  have hperm : sorted.Perm db.events.rows := List.perm_insertionSort later _
  change sorted.head?.map Event.receivedAt = (db.events.rows.map Event.receivedAt).max?
  cases hs : sorted with
  | nil =>
    have hrows : db.events.rows = [] := List.nil_perm.mp (hs ▸ hperm)
    rw [hrows]
    rfl
  | cons e rest =>
    rw [hs] at hsorted hperm
    refine (List.max?_eq_some_iff.mpr ⟨?_, fun t ht => ?_⟩).symm
    · exact List.mem_map_of_mem (hperm.mem_iff.mp List.mem_cons_self)
    · obtain ⟨f, hf, rfl⟩ := List.mem_map.mp ht
      rcases List.mem_cons.mp (hperm.mem_iff.mpr hf) with rfl | hf
      · exact le_refl _
      · rcases (List.pairwise_cons.mp hsorted).1 f hf with hlt | ⟨heq, -⟩
        · exact hlt.le
        · exact heq.ge

theorem Recounted.rollupIngest_eq (h : Recounted initcap db) (clock : Timestamp) :
    rollupIngest db clock = eventIngest db.toTables clock := by
  have hevents : (windowEvents db.toTables clock).length =
      db.events.rows.countP fun e => inWindow clock e.receivedAt :=
    List.countP_eq_length_filter.symm
  have hstored : sumCounts ((dimensionRows db .processingState).filter fun row =>
      row.key.key = ProcessingState.received.text ∨ row.key.key = ProcessingState.stored.text) =
        db.events.rows.countP fun e =>
          e.processingState = .received ∨ e.processingState = .stored := by
    rw [sumCounts_eq, members_filter fun k : RollupKey =>
      k.key = ProcessingState.received.text ∨ k.key = ProcessingState.stored.text,
      h.members_dimensionRows, datedMembers_of_event rfl, Multiset.map_coe, List.map_map,
      Multiset.filter_coe, Multiset.coe_card, ← List.countP_eq_length_filter, List.countP_map]
    refine List.countP_congr fun e _ => ?_
    simp only [Function.comp_apply, decide_eq_true_eq]
    have hcut : (e.processingState.text).take maxRollupChars = e.processingState.text :=
      List.take_of_length_le e.processingState.text_length
    refine (iff_of_eq (congrArg (fun key : Text =>
      key = ProcessingState.received.text ∨ key = ProcessingState.stored.text) hcut)).trans ?_
    rw [ProcessingState.text_injective.eq_iff, ProcessingState.text_injective.eq_iff]
  rw [rollupIngest, eventIngest, lastReceivedAt_eq, h.sumCounts_eventTotal, hevents, hstored]

end
end FaultLane.DashboardOverview

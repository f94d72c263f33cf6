import FaultLane.DailyRollupsRepair
import FaultLane.ProjectRollups

set_option autoImplicit false

/-!
# When a repair is exact

The rows that a repair counts have distinct keys when the platforms of the day's events do,
and its count of drifted rows is that of the project's keys and of all rows of others.
-/
namespace FaultLane.ProjectRollups
open KeyedTable LabelledTally GroupedSums RustText OuterJoin
open DailyRollups (ProcessingState SymbolicationState ReleaseId Dimension RollupKey Rollup
  maxRollupChars platformKey platformLabel stateLabel releaseText releaseText_injective)

variable {db : Tables} {scope : Scope} {day : Int} {initcap : Text → Text}

/-! ## Rows of the day -/

section rows
variable {κ : Type} [DecidableEq κ] {dimension : Dimension} {by_ : EventGroup → κ}
  {key label : κ → Text}

theorem mem_groupRows {row : Rollup}
    (h : row ∈ groupRows day (db.eventGroups scope day) dimension by_ key label) :
    ∃ e ∈ db.eventsOn scope day, row.key = ⟨day, dimension, key (by_ (db.groupOf e))⟩ ∧
      row.label = label (by_ (db.groupOf e)) := by
  obtain ⟨g, hg, rfl⟩ := List.mem_map.mp h
  have hmem := ((isGrouping_regrouped db.groupOf by_ (db.eventsOn scope day)).mem g).mp hg
  obtain ⟨e, he, heq⟩ := List.mem_map.mp hmem.1
  exact ⟨e, he, congrArg (fun k => RollupKey.mk day dimension (key k)) heq.symm,
    congrArg label heq.symm⟩

variable (dimension by_ key label) in
theorem groupRows_of_event {e : Event} (he : e ∈ db.eventsOn scope day) :
    ∃ row ∈ groupRows day (db.eventGroups scope day) dimension by_ key label,
      row.key.key = key (by_ (db.groupOf e)) ∧ row.label = label (by_ (db.groupOf e)) := by
  let count := ((db.eventsOn scope day).map fun e => by_ (db.groupOf e)).count (by_ (db.groupOf e))
  have hmem : (by_ (db.groupOf e), count) ∈
      groupSum (fun g => by_ g.1) Prod.snd (db.eventGroups scope day) :=
    ((isGrouping_regrouped db.groupOf by_ _).mem _).mpr ⟨List.mem_map.mpr ⟨e, he, rfl⟩, rfl⟩
  exact ⟨_, List.mem_map.mpr ⟨_, hmem, rfl⟩, rfl, rfl⟩

/-- The keys of a dimension are distinct just when they tell the groups of the day apart. -/
theorem nodup_groupRows :
    ((groupRows day (db.eventGroups scope day) dimension by_ key label).map Row.key).Nodup ↔
      ∀ e ∈ db.eventsOn scope day, ∀ e' ∈ db.eventsOn scope day,
        key (by_ (db.groupOf e)) = key (by_ (db.groupOf e')) →
          by_ (db.groupOf e) = by_ (db.groupOf e') := by
  have hgroups := isGrouping_regrouped db.groupOf by_ (db.eventsOn scope day)
  have hkeys : (groupRows day (db.eventGroups scope day) dimension by_ key label).map Row.key =
      ((groupSum (fun g => by_ g.1) Prod.snd (db.eventGroups scope day)).map Prod.fst).map
        fun k => ⟨day, dimension, key k⟩ := by
    rw [groupRows, List.map_map, List.map_map]
    rfl
  have hmem : ∀ k, k ∈ (groupSum (fun g => by_ g.1) Prod.snd (db.eventGroups scope day)).map
      Prod.fst ↔ k ∈ (db.eventsOn scope day).map fun e => by_ (db.groupOf e) := by
    intro k
    rw [groupSum_keys, List.mem_dedup]
    exact mem_map_groupSum by_ k
  rw [hkeys]
  constructor
  · intro h e he e' he' heq
    refine List.inj_on_of_nodup_map h ((hmem _).mpr (List.mem_map.mpr ⟨e, he, rfl⟩))
      ((hmem _).mpr (List.mem_map.mpr ⟨e', he', rfl⟩)) ?_
    exact congrArg (RollupKey.mk day dimension) heq
  · intro h
    refine List.Nodup.map_on (fun k hk k' hk' heq => ?_) hgroups.nodup
    obtain ⟨e, he, rfl⟩ := List.mem_map.mp ((hmem k).mp hk)
    obtain ⟨e', he', rfl⟩ := List.mem_map.mp ((hmem k').mp hk')
    exact h e he e' he' (congrArg RollupKey.key heq)

theorem mem_totalRows {row : Rollup} (h : row ∈ totalRows day (db.eventGroups scope day)) :
    row.key = ⟨day, .eventTotal, "all".toList⟩ ∧ row.label = "Events".toList := by
  unfold totalRows at h
  dsimp only at h
  split_ifs at h
  · obtain rfl := List.mem_singleton.mp h
    exact ⟨rfl, rfl⟩
  · cases h

theorem nodup_totalRows : ((totalRows day (db.eventGroups scope day)).map Row.key).Nodup := by
  unfold totalRows
  dsimp only
  split_ifs
  · exact List.nodup_singleton _
  · exact List.nodup_nil

variable (db scope day) in
/-- What `issueRows` counts. -/
def firstMembers : List (Dimension × Text) :=
  (db.firstSeenOn scope day).flatMap fun _ =>
    [(.issueTotal, "Issues".toList), (.issueNew, "New issues".toList)]

theorem mem_firstMembers {x : Dimension × Text} (h : x ∈ firstMembers db scope day) :
    x = (.issueTotal, "Issues".toList) ∨ x = (.issueNew, "New issues".toList) := by
  obtain ⟨i, -, hx⟩ := List.mem_flatMap.mp h
  exact List.mem_pair.mp hx

theorem mem_issueRows {row : Rollup} (h : row ∈ db.issueRows scope day) :
    (row.key = ⟨day, .issueTotal, "all".toList⟩ ∧ row.label = "Issues".toList) ∨
      (row.key = ⟨day, .issueNew, "all".toList⟩ ∧ row.label = "New issues".toList) := by
  obtain ⟨g, hg, rfl⟩ := List.mem_map.mp h
  have hmem := (mem_groupSum.mp hg).1
  rw [List.map_id] at hmem
  rcases mem_firstMembers hmem with heq | heq
  · exact .inl ⟨by rw [heq], by rw [heq]⟩
  · exact .inr ⟨by rw [heq], by rw [heq]⟩

theorem nodup_issueRows : ((db.issueRows scope day).map Row.key).Nodup := by
  have hgroups := (isGrouping_groupCount id (firstMembers db scope day)).nodup
  have hkeys : (db.issueRows scope day).map Row.key =
      ((groupCount id (firstMembers db scope day)).map Prod.fst).map
        fun x => ⟨day, x.1, "all".toList⟩ := by
    rw [Tables.issueRows, List.map_map, List.map_map]
    rfl
  rw [hkeys]
  refine List.Nodup.map_on (fun x hx y hy heq => ?_) hgroups
  have hdimension : x.1 = y.1 := congrArg RollupKey.dimension heq
  have hmem : ∀ z ∈ (groupCount id (firstMembers db scope day)).map Prod.fst,
      z ∈ firstMembers db scope day := by
    intro z hz
    obtain ⟨g, hg, rfl⟩ := List.mem_map.mp hz
    simpa only [List.map_id] using (mem_groupSum.mp hg).1
  rcases mem_firstMembers (hmem x hx) with rfl | rfl <;>
    rcases mem_firstMembers (hmem y hy) with rfl | rfl
  · rfl
  · cases hdimension
  · cases hdimension
  · rfl

end rows

/-! ## The count -/

/-- Rows of some dimensions with distinct keys. -/
structure Distinct (dimensions : List Dimension) (rows : List Rollup) : Prop where
  nodup : (rows.map Row.key).Nodup
  dimension : ∀ row ∈ rows, row.key.dimension ∈ dimensions

theorem Distinct.append {ds ds' : List Dimension} {rows rows' : List Rollup}
    (h : Distinct ds rows) (h' : Distinct ds' rows') (hne : ∀ d ∈ ds, d ∉ ds') :
    Distinct (ds ++ ds') (rows ++ rows') where
  nodup := by
    rw [List.map_append, List.nodup_append]
    refine ⟨h.nodup, h'.nodup, fun k hk k' hk' heq => ?_⟩
    obtain ⟨row, hrow, rfl⟩ := List.mem_map.mp hk
    obtain ⟨row', hrow', rfl⟩ := List.mem_map.mp hk'
    exact hne _ (h.dimension row hrow) (heq ▸ h'.dimension row' hrow')
  dimension row hrow := by
    rcases List.mem_append.mp hrow with hrow | hrow
    · exact List.mem_append_left _ (h.dimension row hrow)
    · exact List.mem_append_right _ (h'.dimension row hrow)

theorem distinct_groupRows {κ : Type} [DecidableEq κ] (dimension : Dimension)
    {by_ : EventGroup → κ} {key label : κ → Text}
    (h : ∀ e ∈ db.eventsOn scope day, ∀ e' ∈ db.eventsOn scope day,
      key (by_ (db.groupOf e)) = key (by_ (db.groupOf e')) →
        by_ (db.groupOf e) = by_ (db.groupOf e')) :
    Distinct [dimension] (groupRows day (db.eventGroups scope day) dimension by_ key label) where
  nodup := nodup_groupRows.mpr h
  dimension row hrow := by
    obtain ⟨e, -, hkey, -⟩ := mem_groupRows hrow
    rw [hkey]
    exact List.mem_singleton_self _

/-- The release that an event is counted under is the one of its identifier. -/
theorem releaseName_eq {e e' : Event}
    (h : (db.groupOf e).releaseName.1 = (db.groupOf e').releaseName.1) :
    (db.groupOf e).releaseName = (db.groupOf e').releaseName := by
  have hname : ∀ e, (db.groupOf e).releaseName.1 =
      releaseText ((db.releaseOf e).map Release.id) := by
    intro e
    unfold EventGroup.releaseName Tables.groupOf releaseText
    cases db.releaseOf e <;> rfl
  rw [hname, hname] at h
  have hid := releaseText_injective h
  have hmem : ∀ {e r}, db.releaseOf e = some r → r ∈ db.releases := by
    intro e r hr
    obtain ⟨id, -, hfind⟩ := Option.bind_eq_some_iff.mp (Option.filter_eq_some_iff.mp hr).1
    exact (Table.find_eq_some.mp hfind).1
  have hrelease : db.releaseOf e = db.releaseOf e' := by
    cases hr : db.releaseOf e with
    | none =>
      rw [hr] at hid
      exact (Option.map_eq_none_iff.mp hid.symm).symm
    | some r =>
      rw [hr] at hid
      obtain ⟨r', hr', heq⟩ := Option.map_eq_some_iff.mp hid.symm
      rw [hr', Table.eq_of_key_eq (hmem hr) (hmem hr') heq.symm]
  unfold EventGroup.releaseName Tables.groupOf
  rw [hrelease]

theorem distinct_counted (h : ∀ e ∈ db.eventsOn scope day, ∀ e' ∈ db.eventsOn scope day,
    platformKey (db.groupOf e).target.1 (db.groupOf e).target.2 =
        platformKey (db.groupOf e').target.1 (db.groupOf e').target.2 →
      (db.groupOf e).target = (db.groupOf e').target) :
    ((db.counted scope day initcap).map Row.key).Nodup := by
  have htotal : Distinct [.eventTotal] (totalRows day (db.eventGroups scope day)) :=
    ⟨nodup_totalRows, fun row hrow => by
      rw [(mem_totalRows hrow).1]
      exact List.mem_singleton_self _⟩
  have hissues : Distinct [.issueTotal, .issueNew] (db.issueRows scope day) := by
    refine ⟨nodup_issueRows, fun row hrow => ?_⟩
    rcases mem_issueRows hrow with ⟨hkey, -⟩ | ⟨hkey, -⟩
    · rw [hkey]
      exact List.mem_cons_self
    · rw [hkey]
      exact List.mem_cons_of_mem _ List.mem_cons_self
  have hregressed : Distinct [.issueRegressed] (db.regressedRows scope day) := by
    refine ⟨List.nodup_singleton _, fun row hrow => ?_⟩
    rw [List.mem_singleton.mp hrow]
    exact List.mem_singleton_self _
  have hrelease : Distinct [.release] (groupRows day (db.eventGroups scope day) .release
      EventGroup.releaseName Prod.fst Prod.snd) :=
    distinct_groupRows .release fun e _ e' _ => releaseName_eq
  have htarget : Distinct [.platformArchitecture] (groupRows day (db.eventGroups scope day)
      .platformArchitecture EventGroup.target (fun p => platformKey p.1 p.2)
      fun p => platformLabel initcap p.1 p.2) :=
    distinct_groupRows .platformArchitecture h
  have hcrash : Distinct [.crashType] (groupRows day (db.eventGroups scope day) .crashType
      EventGroup.crash id initcap) :=
    distinct_groupRows .crashType fun e _ e' _ heq => heq
  have hsymbolication : Distinct [.symbolicationState] (groupRows day (db.eventGroups scope day)
      .symbolicationState EventGroup.symbolication SymbolicationState.text
      fun state => initcap state.text) :=
    distinct_groupRows .symbolicationState fun e _ e' _ heq =>
      DailyRollups.SymbolicationState.text_injective heq
  have hprocessing : Distinct [.processingState] (groupRows day (db.eventGroups scope day)
      .processingState EventGroup.processingState ProcessingState.text (stateLabel initcap)) :=
    distinct_groupRows .processingState fun e _ e' _ heq =>
      DailyRollups.ProcessingState.text_injective heq
  have hevents := (((((htotal.append hrelease (by decide)).append htarget (by decide)).append hcrash
    (by decide)).append hsymbolication (by decide)).append hprocessing (by decide))
  exact ((hevents.append hissues (by decide)).append hregressed (by decide)).nodup

theorem counted_day {row : Rollup} (h : row ∈ db.counted scope day initcap) :
    row.key.day = day := by
  simp only [Tables.counted, List.mem_append] at h
  rcases h with ((((((h | h) | h) | h) | h) | h) | h) | h
  · rw [(mem_totalRows h).1]
  · obtain ⟨e, -, hkey, -⟩ := mem_groupRows h
    rw [hkey]
  · obtain ⟨e, -, hkey, -⟩ := mem_groupRows h
    rw [hkey]
  · obtain ⟨e, -, hkey, -⟩ := mem_groupRows h
    rw [hkey]
  · obtain ⟨e, -, hkey, -⟩ := mem_groupRows h
    rw [hkey]
  · obtain ⟨e, -, hkey, -⟩ := mem_groupRows h
    rw [hkey]
  · rcases mem_issueRows h with ⟨hkey, -⟩ | ⟨hkey, -⟩ <;> rw [hkey]
  · rw [List.mem_singleton.mp h]

theorem recount_day {row : Rollup} (h : row ∈ db.recount scope day initcap) :
    row.key.day = day := by
  obtain ⟨x, hx, heq⟩ := List.mem_map.mp h
  have hday : (cut x).key.day = x.key.day := rfl
  rw [← heq, hday, counted_day hx]

theorem checked_all {row : Rollup} {label : Text} (hkey : row.key.key = "all".toList)
    (hlabel : row.label = label) (h : InRange label) : Checked row :=
  ⟨hkey ▸ (by decide : InRange "all".toList), hlabel ▸ h⟩

/-- A counted row has a name of one of the day's events, or one that is always the same. -/
theorem counted_names {row : Rollup} (h : row ∈ db.counted scope day initcap) :
    (∃ e ∈ db.eventsOn scope day, (row.key.key, row.label) ∈ (db.groupOf e).names initcap) ∨
      Checked row := by
  simp only [Tables.counted, List.mem_append] at h
  rcases h with ((((((h | h) | h) | h) | h) | h) | h) | h
  · obtain ⟨hkey, hlabel⟩ := mem_totalRows h
    exact .inr (checked_all (congrArg RollupKey.key hkey) hlabel (by decide))
  · obtain ⟨e, he, hkey, hlabel⟩ := mem_groupRows h
    refine .inl ⟨e, he, ?_⟩
    rw [hkey, hlabel]
    exact List.mem_cons_self
  · obtain ⟨e, he, hkey, hlabel⟩ := mem_groupRows h
    refine .inl ⟨e, he, ?_⟩
    rw [hkey, hlabel]
    exact List.mem_cons_of_mem _ List.mem_cons_self
  · obtain ⟨e, he, hkey, hlabel⟩ := mem_groupRows h
    refine .inl ⟨e, he, ?_⟩
    rw [hkey, hlabel]
    exact List.mem_cons_of_mem _ (List.mem_cons_of_mem _ List.mem_cons_self)
  · obtain ⟨e, he, hkey, hlabel⟩ := mem_groupRows h
    refine .inl ⟨e, he, ?_⟩
    rw [hkey, hlabel]
    exact List.mem_cons_of_mem _ (List.mem_cons_of_mem _ (List.mem_cons_of_mem _
      List.mem_cons_self))
  · obtain ⟨e, he, hkey, hlabel⟩ := mem_groupRows h
    refine .inl ⟨e, he, ?_⟩
    rw [hkey, hlabel]
    exact List.mem_cons_of_mem _ (List.mem_cons_of_mem _ (List.mem_cons_of_mem _
      (List.mem_cons_of_mem _ List.mem_cons_self)))
  · rcases mem_issueRows h with ⟨hkey, hlabel⟩ | ⟨hkey, hlabel⟩ <;>
      exact .inr (checked_all (congrArg RollupKey.key hkey) hlabel (by decide))
  · have hkey : row.key.key = "all".toList := by rw [List.mem_singleton.mp h]
    have hlabel : row.label = "Regressed issues".toList := by rw [List.mem_singleton.mp h]
    exact .inr (checked_all hkey hlabel (by decide))

/-- Each name of one of the day's events is that of a counted row. -/
theorem names_counted {e : Event} (he : e ∈ db.eventsOn scope day) {name : Text × Text}
    (hn : name ∈ (db.groupOf e).names initcap) :
    ∃ row ∈ db.counted scope day initcap, row.key.key = name.1 ∧ row.label = name.2 := by
  simp only [EventGroup.names, List.mem_cons, List.not_mem_nil, or_false] at hn
  rcases hn with rfl | rfl | rfl | rfl | rfl
  · obtain ⟨row, hrow, hnames⟩ := groupRows_of_event .release EventGroup.releaseName Prod.fst
      Prod.snd he
    exact ⟨row, by simp only [Tables.counted, List.mem_append, hrow, true_or, or_true], hnames⟩
  · obtain ⟨row, hrow, hnames⟩ := groupRows_of_event .platformArchitecture EventGroup.target
      (fun p => platformKey p.1 p.2) (fun p => platformLabel initcap p.1 p.2) he
    exact ⟨row, by simp only [Tables.counted, List.mem_append, hrow, true_or, or_true], hnames⟩
  · obtain ⟨row, hrow, hnames⟩ := groupRows_of_event .crashType EventGroup.crash id initcap he
    exact ⟨row, by simp only [Tables.counted, List.mem_append, hrow, true_or, or_true], hnames⟩
  · obtain ⟨row, hrow, hnames⟩ := groupRows_of_event .symbolicationState EventGroup.symbolication
      SymbolicationState.text (fun state => initcap state.text) he
    exact ⟨row, by simp only [Tables.counted, List.mem_append, hrow, true_or, or_true], hnames⟩
  · obtain ⟨row, hrow, hnames⟩ := groupRows_of_event .processingState EventGroup.processingState
      ProcessingState.text (stateLabel initcap) he
    exact ⟨row, by simp only [Tables.counted, List.mem_append, hrow, true_or, or_true], hnames⟩

/-- The platforms of the day's events stand in rows of the count. -/
theorem apart_of_nodup (h : ((db.counted scope day initcap).map Row.key).Nodup) :
    ∀ e ∈ db.eventsOn scope day, ∀ e' ∈ db.eventsOn scope day,
      platformKey (db.groupOf e).target.1 (db.groupOf e).target.2 =
          platformKey (db.groupOf e').target.1 (db.groupOf e').target.2 →
        (db.groupOf e).target = (db.groupOf e').target := by
  have hsublist : (groupRows day (db.eventGroups scope day) .platformArchitecture
      EventGroup.target (fun p => platformKey p.1 p.2)
        fun p => platformLabel initcap p.1 p.2).Sublist (db.counted scope day initcap) := by
    unfold Tables.counted
    refine .trans ?_ (List.sublist_append_left _ _)
    refine .trans ?_ (List.sublist_append_left _ _)
    refine .trans ?_ (List.sublist_append_left _ _)
    refine .trans ?_ (List.sublist_append_left _ _)
    refine .trans ?_ (List.sublist_append_left _ _)
    exact List.sublist_append_right _ _
  exact nodup_groupRows.mp (h.sublist (hsublist.map Row.key))

/-! ## Stored rows -/

theorem cut_of_checked {row : Rollup} (h : Checked row) : cut row = row := by
  have hkey : row.key.left = row.key := by
    rw [RollupKey.left, List.take_of_length_le h.1.2]
  rw [cut, hkey, List.take_of_length_le h.2.2]

theorem ofRow_mapM {rows : List Rollup} {out : List StoredRollup}
    (h : rows.mapM (StoredRollup.ofRow scope) = some out) :
    out.map StoredRollup.rollup = rows ∧ ∀ row ∈ out, row.scope = scope := by
  induction rows generalizing out with
  | nil =>
    cases h
    exact ⟨rfl, nofun⟩
  | cons row rest ih =>
    rw [List.mapM_cons] at h
    obtain ⟨first, hfirst, h⟩ := Option.bind_eq_some_iff.mp h
    obtain ⟨out, hout, h⟩ := Option.bind_eq_some_iff.mp h
    cases h
    unfold StoredRollup.ofRow at hfirst
    split_ifs at hfirst
    cases hfirst
    obtain ⟨hmap, hscope⟩ := ih hout
    refine ⟨by rw [List.map_cons, hmap], fun x hx => ?_⟩
    rcases List.mem_cons.mp hx with rfl | hx
    · rfl
    · exact hscope x hx

theorem ofRow_mapM_isSome {rows : List Rollup} (h : ∀ row ∈ rows, Checked row) :
    ∃ out, rows.mapM (StoredRollup.ofRow scope) = some out := by
  induction rows with
  | nil => exact ⟨[], rfl⟩
  | cons row rest ih =>
    obtain ⟨out, hout⟩ := ih fun x hx => h x (List.mem_cons_of_mem row hx)
    have hrow : Checked row := h row List.mem_cons_self
    refine ⟨⟨scope, row, hrow⟩ :: out, ?_⟩
    rw [List.mapM_cons, hout, StoredRollup.ofRow, dif_pos hrow]
    rfl

/-! ## Drifted rows -/

variable {db : Database}

theorem nodup_stored : ((db.stored scope day).map Row.key).Nodup := by
  rw [Database.stored, List.map_map]
  refine List.Nodup.map_on (fun x hx y hy heq => ?_) ?_
  · obtain ⟨hx, hxof⟩ := List.mem_filter.mp hx
    obtain ⟨hy, hyof⟩ := List.mem_filter.mp hy
    have hscope : x.scope = y.scope :=
      (of_decide_eq_true hxof).1.trans (of_decide_eq_true hyof).1.symm
    exact Table.eq_of_key_eq hx hy (Prod.ext hscope heq)
  · exact (List.Nodup.of_map _ db.rollups.unique).filter _

/-- Besides the keys of the day that differ, every row of another project or day is drifted. -/
theorem drifted_eq {repair : List Rollup} (hn : (repair.map Row.key).Nodup) :
    db.drifted scope day repair = driftedKeys repair (db.stored scope day) +
      (db.rollups.rows.filter fun row => ¬row.of scope day).length := by
  have hrow : (fun x : Option Rollup × Option StoredRollup =>
      decide (x.1.map Row.count ≠ x.2.map (Row.count ∘ StoredRollup.rollup) ∨
        x.1.map Row.label ≠ x.2.map (Row.label ∘ StoredRollup.rollup))) =
      fun x => decide (x.1.map figures ≠ x.2.map (figures ∘ StoredRollup.rollup)) := by
    funext x
    refine decide_eq_decide.mpr ?_
    obtain ⟨a, b⟩ := x
    cases a with
    | none => cases b <;> simp [figures]
    | some a =>
      cases b with
      | none => simp [figures]
      | some b => 
        simp only [Option.map_some, ne_eq, Option.some.injEq, Function.comp_apply, figures,
          Prod.mk.injEq, not_and_or]
        exact or_comm
  have hright : ((db.rollups.rows.filter fun row => row.of scope day).map
      (Row.key ∘ StoredRollup.rollup)).Nodup := by
    rw [← List.map_map]
    exact nodup_stored
  have hfigure : ∀ key, figure (Row.key ∘ StoredRollup.rollup) (figures ∘ StoredRollup.rollup)
      (db.rollups.rows.filter fun row => row.of scope day) key =
        figure Row.key figures (db.stored scope day) key := by
    intro key
    rw [figure, figure, Database.stored, List.find?_map, Option.map_map]
    rfl
  unfold Database.drifted
  rw [hrow, countP_restricted _ _ _ _ _ fun b => decide_eq_true (by rintro ⟨⟩)]
  congr 1
  rw [driftedKeys, Database.stored, List.map_map]
  refine (countP_fullOuterJoin Row.key (Row.key ∘ StoredRollup.rollup) figures
    (figures ∘ StoredRollup.rollup) hn hright).trans ?_
  simp only [hfigure]
  rfl

theorem driftedKeys_of_perm {rows stored : List Rollup} (hn : (rows.map Row.key).Nodup)
    (hp : stored.Perm rows) : driftedKeys rows stored = 0 := by
  have hstored : (stored.map Row.key).Nodup := (hp.map Row.key).nodup_iff.mpr hn
  refine Finset.card_eq_zero.mpr (Finset.filter_eq_empty_iff.mpr fun key hkey hne => hne ?_)
  have hmem : key ∈ rows.map Row.key := by
    rcases Finset.mem_union.mp hkey with h | h
    · exact List.mem_toFinset.mp h
    · exact (hp.map Row.key).subset (List.mem_toFinset.mp h)
  obtain ⟨row, hrow, rfl⟩ := List.mem_map.mp hmem
  rw [figure_of_mem hn hrow, figure_of_mem hstored (hp.symm.subset hrow)]

/-- Without a drifted key, each counted row stands as it is among the stored ones. -/
theorem checked_of_driftedKeys {rows : List Rollup} (hn : (rows.map Row.key).Nodup)
    (h : driftedKeys rows (db.stored scope day) = 0) : ∀ row ∈ rows, Checked row := by
  intro row hrow
  have hempty := Finset.filter_eq_empty_iff.mp (Finset.card_eq_zero.mp h)
  have hkey : row.key ∈ (rows.map Row.key).toFinset ∪
      ((db.stored scope day).map Row.key).toFinset :=
    Finset.mem_union_left _ (List.mem_toFinset.mpr (List.mem_map_of_mem hrow))
  have hsame := not_not.mp (hempty hkey)
  rw [figure_of_mem hn hrow] at hsame
  obtain ⟨x, hx, hfigures⟩ := Option.map_eq_some_iff.mp hsame.symm
  have hxkey : x.key = row.key := by simpa using List.find?_some hx
  obtain ⟨y, -, rfl⟩ := List.mem_map.mp (List.mem_of_find?_eq_some hx)
  have hlabel : y.rollup.label = row.label := congrArg Prod.fst hfigures
  exact ⟨hxkey ▸ y.checked.1, hlabel ▸ y.checked.2⟩

/-! ## Repairs -/

theorem repairDay_eq : repairDay db scope day initcap =
    ((db.recount scope day initcap).mapM (StoredRollup.ofRow scope)).bind fun rows =>
      ((db.rollups.deleteWhere fun row => row.of scope day).insertAll rows).bind fun rollups =>
        some ({ db with rollups := rollups },
          db.drifted scope day (db.counted scope day initcap), rows.length) :=
  rfl

theorem repairDay_eq_some {db' : Database} {drifted inserted : Nat}
    (h : repairDay db scope day initcap = some (db', drifted, inserted)) :
    db'.toTables = db.toTables ∧
      drifted = db.drifted scope day (db.counted scope day initcap) ∧
      ((db.recount scope day initcap).map Row.key).Nodup ∧
      (∀ row, ¬row.of scope day → (row ∈ db'.rollups ↔ row ∈ db.rollups)) ∧
      (db'.stored scope day).Perm (db.recount scope day initcap) := by
  rw [repairDay_eq] at h
  obtain ⟨rows, hrows, h⟩ := Option.bind_eq_some_iff.mp h
  obtain ⟨rollups, hrollups, h⟩ := Option.bind_eq_some_iff.mp h
  obtain ⟨rfl, hrest⟩ := Prod.mk.inj (Option.some.inj h)
  obtain ⟨hdrifted, -⟩ := Prod.mk.inj hrest
  obtain ⟨hmap, hscope⟩ := ofRow_mapM hrows
  obtain ⟨hnodup, happend⟩ := Table.insertAll_eq_some hrollups
  have hof : ∀ row ∈ rows, row.of scope day := by
    intro row hrow
    have hmem : row.rollup ∈ rows.map StoredRollup.rollup := List.mem_map_of_mem hrow
    rw [hmap] at hmem
    exact ⟨hscope row hrow, recount_day hmem⟩
  refine ⟨rfl, hdrifted.symm, ?_, fun row hrow => ?_, ?_⟩
  · rw [← hmap, List.map_map]
    refine List.Nodup.map_on (fun x hx y hy heq => ?_) (List.Nodup.of_map _ hnodup)
    have hkey : x.key = y.key :=
      Prod.ext ((hscope x hx).trans (hscope y hy).symm) heq
    exact List.inj_on_of_nodup_map hnodup hx hy hkey
  · rw [← Table.mem_rows, happend, List.mem_append, List.mem_reverse, Table.mem_rows,
      Table.mem_deleteWhere]
    constructor
    · rintro (hmem | ⟨hmem, -⟩)
      · exact absurd (hof row hmem) hrow
      · exact hmem
    · exact fun hmem => .inr ⟨hmem, hrow⟩
  · have hkept : (db.rollups.deleteWhere fun row => row.of scope day).rows.filter
        (fun row => row.of scope day) = [] := by
      refine List.filter_eq_nil_iff.mpr fun row hrow hmem => ?_
      exact (Table.mem_deleteWhere.mp hrow).2 (of_decide_eq_true hmem)
    have hnew : rows.reverse.filter (fun row => row.of scope day) = rows.reverse :=
      List.filter_eq_self.mpr fun row hrow => decide_eq_true (hof row (List.mem_reverse.mp hrow))
    rw [Database.stored, happend, List.filter_append, hkept, hnew, List.append_nil,
      List.map_reverse, hmap]
    exact List.reverse_perm _

theorem repairDay_isSome (hn : ((db.recount scope day initcap).map Row.key).Nodup)
    (hc : ∀ row ∈ db.recount scope day initcap, Checked row) :
    ∃ db' drifted inserted, repairDay db scope day initcap = some (db', drifted, inserted) := by
  obtain ⟨rows, hrows⟩ : ∃ rows, (db.recount scope day initcap).mapM (StoredRollup.ofRow scope) =
      some rows := ofRow_mapM_isSome hc
  obtain ⟨hmap, hscope⟩ := ofRow_mapM hrows
  have hnodup : (rows.map StoredRollup.key).Nodup := by
    rw [← hmap, List.map_map] at hn
    refine List.Nodup.map_on (fun x hx y hy heq => ?_) (List.Nodup.of_map _ hn)
    exact List.inj_on_of_nodup_map hn hx hy (congrArg Prod.snd heq)
  have hfree : ∀ row ∈ rows, (db.rollups.deleteWhere fun row => row.of scope day).find row.key =
      none := by
    intro row hrow
    refine Table.find_eq_none.mpr fun x hx heq => (Table.mem_deleteWhere.mp hx).2 ?_
    have hmem : row.rollup ∈ rows.map StoredRollup.rollup := List.mem_map_of_mem hrow
    rw [hmap] at hmem
    have hday := recount_day hmem
    have hkey : x.rollup.key = row.rollup.key := congrArg Prod.snd heq
    exact ⟨(congrArg Prod.fst heq).trans (hscope row hrow), hkey ▸ hday⟩
  obtain ⟨rollups, hrollups⟩ := Table.insertAll_isSome hnodup hfree
  refine ⟨{ db with rollups := rollups }, db.drifted scope day (db.counted scope day initcap),
    rows.length, ?_⟩
  rw [repairDay_eq, hrows, Option.bind_some, hrollups, Option.bind_some]

theorem Database.Repairable.recount_eq (h : db.Repairable scope day initcap) :
    db.recount scope day initcap = db.counted scope day initcap ∧
      ∀ row ∈ db.counted scope day initcap, Checked row := by
  have hchecked : ∀ row ∈ db.counted scope day initcap, Checked row := by
    intro row hrow
    rcases counted_names hrow with ⟨e, he, hname⟩ | hchecked
    · exact h.fits e he _ hname
    · exact hchecked
  refine ⟨?_, hchecked⟩
  have hcut : ∀ row ∈ db.counted scope day initcap, cut row = id row :=
    fun row hrow => cut_of_checked (hchecked row hrow)
  rw [Tables.recount, List.map_congr_left hcut, List.map_id]

/-- A second repair finds nothing only where no other project or day has rollups, and where the
counted rows are stored as they are. -/
theorem Database.RepairsExactly.repairable (h : db.RepairsExactly scope day initcap) :
    db.Repairable scope day initcap := by
  obtain ⟨db', drifted, inserted, hfirst, htables, hother, -, -, db'', inserted', hsecond⟩ := h
  obtain ⟨-, -, hnodup, -, -⟩ := repairDay_eq_some hfirst
  obtain ⟨-, hzero, -, -, -⟩ := repairDay_eq_some hsecond
  have hcounted : ((db.counted scope day initcap).map Row.key).Nodup := by
    refine List.Nodup.of_map RollupKey.left ?_
    rw [List.map_map]
    rw [Tables.recount, List.map_map] at hnodup
    exact hnodup
  rw [htables, drifted_eq hcounted] at hzero
  have hkeys : driftedKeys (db.counted scope day initcap) (db'.stored scope day) = 0 := by omega
  have halone : (db'.rollups.rows.filter fun row => ¬row.of scope day).length = 0 := by omega
  have hchecked := checked_of_driftedKeys hcounted hkeys
  refine ⟨fun row hrow => ?_, fun e he name hname => ?_, apart_of_nodup hcounted⟩
  · by_contra hnot
    have hmem := (hother row hnot).mpr hrow
    have hnone := List.length_eq_zero_iff.mp halone
    exact List.filter_eq_nil_iff.mp hnone row hmem (decide_eq_true hnot)
  · obtain ⟨row, hrow, hkey, hlabel⟩ := names_counted he hname
    obtain ⟨hk, hl⟩ := hchecked row hrow
    exact ⟨hkey ▸ hk, hlabel ▸ hl⟩

theorem Database.Repairable.repairsExactly (h : db.Repairable scope day initcap) :
    db.RepairsExactly scope day initcap := by
  obtain ⟨hrecount, hchecked⟩ := h.recount_eq
  have hnodup : ((db.recount scope day initcap).map Row.key).Nodup :=
    hrecount.symm ▸ distinct_counted h.apart
  have hcounted : ((db.counted scope day initcap).map Row.key).Nodup := distinct_counted h.apart
  have hfits : ∀ row ∈ db.recount scope day initcap, Checked row := hrecount.symm ▸ hchecked
  obtain ⟨db', drifted, inserted, hfirst⟩ := repairDay_isSome hnodup hfits
  obtain ⟨htables, hdrifted, -, hother, hstored⟩ := repairDay_eq_some hfirst
  have hnone : ∀ rows : List StoredRollup, (∀ row ∈ rows, row.of scope day) →
      (rows.filter fun row => ¬row.of scope day).length = 0 := by
    intro rows hrows
    refine List.length_eq_zero_iff.mpr (List.filter_eq_nil_iff.mpr fun row hrow hnot => ?_)
    exact of_decide_eq_true hnot (hrows row hrow)
  have halone' : ∀ row ∈ db'.rollups, row.of scope day := by
    intro row hrow
    by_contra hnot
    exact hnot (h.alone row ((hother row hnot).mp hrow))
  obtain ⟨db'', drifted', inserted', hsecond⟩ : ∃ db'' drifted' inserted',
      repairDay db' scope day initcap = some (db'', drifted', inserted') :=
    repairDay_isSome (htables.symm ▸ hnodup) (htables.symm ▸ hfits)
  obtain ⟨-, hzero, -, -, -⟩ := repairDay_eq_some hsecond
  refine ⟨db', drifted, inserted, hfirst, htables, hother, hstored, ?_, db'', inserted', ?_⟩
  · rw [hdrifted, drifted_eq hcounted, hnone _ h.alone, hrecount, Nat.add_zero]
  · rw [htables, drifted_eq hcounted, hnone _ halone',
      driftedKeys_of_perm hcounted (hrecount ▸ hstored)] at hzero
    rw [hsecond, hzero]

/-- A repair is exact, and a second one finds nothing, if and only if no other project or day has
rollups, and the day's names fit their columns and tell the platforms apart. -/
theorem repairsExactly_iff :
    db.RepairsExactly scope day initcap ↔ db.Repairable scope day initcap :=
  ⟨fun h => h.repairable, fun h => h.repairsExactly⟩

/-! ## A day beside another -/

section sample

def project : Scope := ⟨1, 2⟩

/-- Nothing but the rollup of an event of the first day. -/
def otherDay : Database where
  events := .empty
  search := .empty
  releases := .empty
  issues := .empty
  rollups := Table.empty.insert
    ⟨project, ⟨⟨0, .eventTotal, "all".toList⟩, "Events".toList, 1⟩, by decide⟩

/-- The repair of the second day counts the row of the first as drifted, each time. -/
theorem not_repairsExactly_otherDay :
    ¬ ∀ (db : Database) (scope : Scope) (day : Int) (initcap : Text → Text),
      db.RepairsExactly scope day initcap := by
  intro h
  have halone := (h otherDay project 1 id).repairable.alone
  exact absurd (halone _ List.mem_cons_self).2 (by decide)

end sample
end FaultLane.ProjectRollups

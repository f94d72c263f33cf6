import FaultLane.DashboardOverviewDistributions

set_option autoImplicit false

/-!
# Platforms in the overview

The events and their rollups label platforms differently and group them differently. They show
the same platforms when each key that is shown stands for one label of the events, and that label
reads as the one that the rollups keep.
-/
namespace FaultLane.DashboardOverview
open KeyedTable LabelledTally GroupedSums RustText JobQueue DailyRollups RankedRows

/-! ## When platforms read alike -/

section
variable (locale : Locale) (db : Tables) (clock : Timestamp)

/-- The key of the event's rollups. -/
def cutKeyOf (e : Event) : Text := (platformKeyOf db e).take maxRollupChars

/-- The label of the event's rollups. -/
def rollupLabelOf (e : Event) : Text :=
  platformLabel locale.initcap (coalesce (eventPlatform db e)) (coalesce (eventArchitecture db e))

def keyCount (k : Text) : Nat := (windowEvents db clock).countP fun e => cutKeyOf db e = k

def keyRow (k : Text) : GroupRow := ⟨k, [], keyCount db clock k⟩

def windowKeys : List Text := ((windowEvents db clock).map (cutKeyOf db)).dedup

/-- The keys that come before `k`. -/
def keysBefore (k : Text) : List Text :=
  (windowKeys db clock).filter fun k' =>
    byKey locale.collation (keyRow db clock k') (keyRow db clock k) ∧ k' ≠ k

/-- One of the keys that are shown. -/
def Leading (k : Text) : Prop := (keysBefore locale db clock k).length < maxDistributions

instance : DecidablePred (Leading locale db clock) := fun _ => Nat.decLt _ _

/-- Cut keys are in the order of the keys. The events of a key that is shown have one label, and
it is shown as the label of their rollups is. -/
structure PlatformsReadAlike : Prop where
  ordered : ∀ e ∈ windowEvents db clock, ∀ e' ∈ windowEvents db clock,
    cutKeyOf db e ≠ cutKeyOf db e' → locale.collation.le (cutKeyOf db e) (cutKeyOf db e') →
      locale.collation.le (platformKeyOf db e) (platformKeyOf db e')
  alone : ∀ e ∈ windowEvents db clock, Leading locale db clock (cutKeyOf db e) →
    ∀ e' ∈ windowEvents db clock, cutKeyOf db e' = cutKeyOf db e →
      platformKeyOf db e' = platformKeyOf db e ∧ platformLabelOf db e' = platformLabelOf db e
  label : ∀ e ∈ windowEvents db clock, Leading locale db clock (cutKeyOf db e) →
    truncateText (platformLabelOf db e) 256 = truncateText (rollupLabelOf locale db e) 256

end

/-! ## Ranks of keys -/

section
variable {locale : Locale} {db : Tables} {clock : Timestamp} {k k' : Text}

theorem mem_windowKeys : k ∈ windowKeys db clock ↔
    ∃ e ∈ windowEvents db clock, cutKeyOf db e = k := by
  rw [windowKeys, List.mem_dedup, List.mem_map]

theorem mem_keysBefore : k' ∈ keysBefore locale db clock k ↔ k' ∈ windowKeys db clock ∧
    byKey locale.collation (keyRow db clock k') (keyRow db clock k) ∧ k' ≠ k := by
  rw [keysBefore, List.mem_filter, decide_eq_true_eq]

theorem nodup_keysBefore : (keysBefore locale db clock k).Nodup := (List.nodup_dedup _).filter _

/-- A key before one that leads does too. -/
theorem Leading.of_byKey (h : Leading locale db clock k) (hne : k' ≠ k)
    (hbefore : byKey locale.collation (keyRow db clock k') (keyRow db clock k)) :
    Leading locale db clock k' := by
  refine Nat.lt_of_le_of_lt (nodup_keysBefore.length_le_of_subset fun x hx => ?_) h
  obtain ⟨hmem, hx, hxk'⟩ := mem_keysBefore.mp hx
  refine mem_keysBefore.mpr ⟨hmem, trans_of (byKey locale.collation) hx hbefore, fun heq => ?_⟩
  subst heq
  exact hne (byKey_antisymm hbefore hx).2

end

/-! ## The rows of the rollups -/

section
variable {locale : Locale} {db : Tables} {clock : Timestamp} {a : Arrangement}
  {rows : List GroupRow}

variable (locale db clock) in
/-- What rollups of the window's platforms are. -/
abbrev PlatformGroups (rows : List GroupRow) : Prop :=
  Groups (cutKeyOf db) (fun e => (rollupLabelOf locale db e).take maxRollupChars) rows
    (windowEvents db clock)

theorem PlatformGroups.keyRow_eq (h : PlatformGroups locale db clock rows) {r : GroupRow}
    (hr : r ∈ rows) : keyRow db clock r.key = { r with label := [] } := by
  rw [keyRow, keyCount, ← h.count r hr]

/-- A row is shown when its key leads. -/
theorem PlatformGroups.mem_shown (h : PlatformGroups locale db clock rows) {r : GroupRow} :
    r ∈ shown (byKey locale.collation) a rows ↔ r ∈ rows ∧ Leading locale db clock r.key := by
  have hmem : ∀ {s}, s ∈ ranked (byKey locale.collation) a rows ↔ s ∈ rows :=
    ranked_perm.mem_iff
  have hnodup : (ranked (byKey locale.collation) a rows).Nodup :=
    ranked_perm.nodup_iff.mpr (List.Nodup.of_map _ h.nodup)
  have hbefore : ∀ r ∈ rows, (((ranked (byKey locale.collation) a rows).filter fun s =>
      byKey locale.collation s r ∧ s ≠ r).map GroupRow.key).Perm
        (keysBefore locale db clock r.key) := fun r hr => by
    refine (List.perm_ext_iff_of_nodup ?_ nodup_keysBefore).mpr fun k => ?_
    · exact List.Nodup.map_on (fun s hs t ht heq =>
        List.inj_on_of_nodup_map h.nodup (hmem.mp (List.mem_filter.mp hs).1)
          (hmem.mp (List.mem_filter.mp ht).1) heq) (hnodup.filter _)
    · rw [List.mem_map, mem_keysBefore]
      constructor
      · rintro ⟨s, hs, rfl⟩
        obtain ⟨hs, hkeep⟩ := List.mem_filter.mp hs
        obtain ⟨hbefore, hne⟩ := of_decide_eq_true hkeep
        have hs := hmem.mp hs
        obtain ⟨e, he, hk, -⟩ := h.row s hs
        refine ⟨mem_windowKeys.mpr ⟨e, he, hk⟩, ?_, fun hk => hne ?_⟩
        · rw [h.keyRow_eq hs, h.keyRow_eq hr]
          exact hbefore
        · exact List.inj_on_of_nodup_map h.nodup hs hr hk
      · rintro ⟨hk, hbefore, hne⟩
        obtain ⟨e, he, rfl⟩ := mem_windowKeys.mp hk
        obtain ⟨s, hs, hsk⟩ := h.all e he
        refine ⟨s, List.mem_filter.mpr ⟨hmem.mpr hs, decide_eq_true ⟨?_, fun heq => ?_⟩⟩, hsk⟩
        · rw [← hsk, h.keyRow_eq hs, h.keyRow_eq hr] at hbefore
          exact hbefore
        · exact hne (hsk ▸ congrArg GroupRow.key heq)
  constructor
  · intro hr
    have hr' := hmem.mp (List.mem_of_mem_take hr)
    have hrank := (mem_take_iff ranked_pairwise hnodup (fun s hs t ht => h.byKey_antisymm s
      (hmem.mp hs) t (hmem.mp ht)) (hmem.mpr hr')).mp hr
    rw [← List.length_map GroupRow.key, (hbefore r hr').length_eq] at hrank
    exact ⟨hr', hrank⟩
  · rintro ⟨hr, hleading⟩
    refine (mem_take_iff ranked_pairwise hnodup (fun s hs t ht => h.byKey_antisymm s
      (hmem.mp hs) t (hmem.mp ht)) (hmem.mpr hr)).mpr ?_
    rw [← List.length_map GroupRow.key, (hbefore r hr).length_eq]
    exact hleading

end

/-! ## The rows of the events -/

section
variable {locale : Locale} {db : Tables} {clock : Timestamp} {a : Arrangement} {r : GroupRow}

theorem mem_eventPlatformRows : r ∈ eventPlatformRows db clock ↔
    ∃ e ∈ windowEvents db clock, r = ⟨platformKeyOf db e, platformLabelOf db e,
      (windowEvents db clock).countP fun e' =>
        platformKeyOf db e' = platformKeyOf db e ∧ platformLabelOf db e' = platformLabelOf db e⟩ := by
  have hcount : ∀ e, ((windowEvents db clock).countP fun e' =>
      (platformKeyOf db e', platformLabelOf db e') = (platformKeyOf db e, platformLabelOf db e)) =
        (windowEvents db clock).countP fun e' => platformKeyOf db e' = platformKeyOf db e ∧
          platformLabelOf db e' = platformLabelOf db e :=
    fun e => List.countP_congr fun e' _ => by rw [decide_eq_true_eq, decide_eq_true_eq, Prod.ext_iff]
  rw [eventPlatformRows, List.mem_map]
  constructor
  · rintro ⟨g, hg, rfl⟩
    obtain ⟨e, he, rfl⟩ := mem_groupCount.mp hg
    exact ⟨e, he, congrArg (GroupRow.mk _ _) (hcount e)⟩
  · rintro ⟨e, he, rfl⟩
    exact ⟨_, mem_groupCount.mpr ⟨e, he, rfl⟩, congrArg (GroupRow.mk _ _) (hcount e)⟩

theorem nodup_eventPlatformRows : (eventPlatformRows db clock).Nodup := by
  have hgroup := isGrouping_groupCount (fun e => (platformKeyOf db e, platformLabelOf db e))
    (windowEvents db clock)
  refine List.Nodup.map_on (fun g hg g' hg' heq => ?_) (List.Nodup.of_map _ hgroup.nodup)
  have hfst : g.1 = g'.1 := Prod.ext (congrArg GroupRow.key heq) (congrArg GroupRow.label heq)
  exact Prod.ext hfst (congrArg GroupRow.count heq)

/-- The row with its key cut and no label. -/
def cutRow (r : GroupRow) : GroupRow := ⟨r.key.take maxRollupChars, [], r.count⟩

theorem count_le_keyCount {e : Event} :
    ((windowEvents db clock).countP fun e' =>
      platformKeyOf db e' = platformKeyOf db e ∧ platformLabelOf db e' = platformLabelOf db e) ≤
        keyCount db clock (cutKeyOf db e) := by
  refine List.countP_mono_left fun e' _ he' => decide_eq_true ?_
  exact congrArg (List.take maxRollupChars) (of_decide_eq_true he').1

theorem PlatformsReadAlike.cutRow_eq (h : PlatformsReadAlike locale db clock)
    (hr : r ∈ eventPlatformRows db clock)
    (hleading : Leading locale db clock (r.key.take maxRollupChars)) :
    cutRow r = keyRow db clock (r.key.take maxRollupChars) := by
  obtain ⟨e, he, rfl⟩ := mem_eventPlatformRows.mp hr
  refine congrArg (GroupRow.mk _ []) (List.countP_congr fun e' he' => ?_)
  simp only [decide_eq_true_eq]
  constructor
  · exact fun heq => congrArg (List.take maxRollupChars) heq.1
  · exact fun heq => h.alone e he hleading e' he' heq

/-- Rows of one key that leads are one. -/
theorem PlatformsReadAlike.row_eq (h : PlatformsReadAlike locale db clock) {s : GroupRow}
    (hr : r ∈ eventPlatformRows db clock) (hs : s ∈ eventPlatformRows db clock)
    (hleading : Leading locale db clock (r.key.take maxRollupChars))
    (hk : s.key.take maxRollupChars = r.key.take maxRollupChars) : s = r := by
  obtain ⟨e, he, rfl⟩ := mem_eventPlatformRows.mp hr
  obtain ⟨e', he', rfl⟩ := mem_eventPlatformRows.mp hs
  obtain ⟨hkey, hlabel⟩ := h.alone e he hleading e' he' hk
  rw [hkey, hlabel]

/-- The order of rows is that of their cut keys. -/
theorem PlatformsReadAlike.byKey_cutRow (h : PlatformsReadAlike locale db clock) {s : GroupRow}
    (hr : r ∈ eventPlatformRows db clock) (hs : s ∈ eventPlatformRows db clock)
    (hbefore : byKey locale.collation r s) : byKey locale.collation (cutRow r) (cutRow s) := by
  obtain ⟨e, he, rfl⟩ := mem_eventPlatformRows.mp hr
  obtain ⟨e', he', rfl⟩ := mem_eventPlatformRows.mp hs
  refine hbefore.imp id fun ⟨hcount, hk⟩ => ⟨hcount, ?_⟩
  rcases locale.collation.total (cutKeyOf db e) (cutKeyOf db e') with hle | hle
  · exact hle
  · by_cases heq : cutKeyOf db e' = cutKeyOf db e
    · change locale.collation.le (cutKeyOf db e) (cutKeyOf db e')
      rwa [heq] at hle ⊢
    · have hk' := h.ordered e' he' e he heq hle
      exact absurd (congrArg (List.take maxRollupChars)
        (locale.collation.antisymm _ _ hk' hk)) heq

/-- Rows of keys that lead come before all others. -/
theorem PlatformsReadAlike.not_byKey (h : PlatformsReadAlike locale db clock) {s : GroupRow}
    (hr : r ∈ eventPlatformRows db clock) (hs : s ∈ eventPlatformRows db clock)
    (hleading : Leading locale db clock (r.key.take maxRollupChars))
    (hlast : ¬Leading locale db clock (s.key.take maxRollupChars)) :
    ¬byKey locale.collation s r := by
  intro hbefore
  have hcut := h.byKey_cutRow hs hr hbefore
  rw [h.cutRow_eq hr hleading] at hcut
  refine hlast (hleading.of_byKey (fun heq => hlast (heq ▸ hleading)) ?_)
  have hcount : s.count ≤ keyCount db clock (s.key.take maxRollupChars) := by
    obtain ⟨e, he, rfl⟩ := mem_eventPlatformRows.mp hs
    exact count_le_keyCount
  rcases hcut with hlt | ⟨heq, hk⟩
  · exact .inl (Nat.lt_of_lt_of_le hlt hcount)
  · rcases Nat.lt_or_eq_of_le (heq ▸ hcount) with hlt | heq
    · exact .inl hlt
    · exact .inr ⟨heq.symm, hk⟩

end

/-! ## Both show the same -/

section
variable {locale : Locale} {db : Tables} {clock : Timestamp} {a a' : Arrangement}
  {rows : List GroupRow}

/-- The row without its label. -/
def bareRow (r : GroupRow) : GroupRow := { r with label := [] }

variable (locale db clock a) in
/-- The rows of the events whose keys lead. -/
def leadingRows : List GroupRow :=
  (ranked (byKey locale.collation) a (eventPlatformRows db clock)).filter fun r =>
    Leading locale db clock (r.key.take maxRollupChars)

theorem mem_leadingRows {r : GroupRow} : r ∈ leadingRows locale db clock a ↔
    r ∈ eventPlatformRows db clock ∧ Leading locale db clock (r.key.take maxRollupChars) := by
  rw [leadingRows, List.mem_filter, ranked_perm.mem_iff, decide_eq_true_eq]

theorem PlatformsReadAlike.leadingRows_perm (h : PlatformsReadAlike locale db clock)
    (hrows : PlatformGroups locale db clock rows) :
    ((leadingRows locale db clock a).map cutRow).Perm
      ((shown (byKey locale.collation) a' rows).map bareRow) := by
  have hnodup : (leadingRows locale db clock a).Nodup :=
    (ranked_perm.nodup_iff.mpr nodup_eventPlatformRows).filter _
  have hnodup' : (shown (byKey locale.collation) a' rows).Nodup :=
    (ranked_perm.nodup_iff.mpr (List.Nodup.of_map _ hrows.nodup)).sublist (List.take_sublist _ _)
  refine (List.perm_ext_iff_of_nodup ?_ ?_).mpr fun x => ?_
  · refine List.Nodup.map_on (fun r hr s hs heq => ?_) hnodup
    obtain ⟨hr, hleading⟩ := mem_leadingRows.mp hr
    exact (h.row_eq hr (mem_leadingRows.mp hs).1 hleading (congrArg GroupRow.key heq).symm).symm
  · refine List.Nodup.map_on (fun r hr s hs heq => ?_) hnodup'
    have hk := congrArg GroupRow.key heq
    exact List.inj_on_of_nodup_map hrows.nodup (hrows.mem_shown.mp hr).1
      (hrows.mem_shown.mp hs).1 hk
  · rw [List.mem_map, List.mem_map]
    constructor
    · rintro ⟨r, hr, rfl⟩
      obtain ⟨hr, hleading⟩ := mem_leadingRows.mp hr
      rw [h.cutRow_eq hr hleading]
      obtain ⟨e, he, rfl⟩ := mem_eventPlatformRows.mp hr
      obtain ⟨s, hs, hk⟩ := hrows.all e he
      refine ⟨s, hrows.mem_shown.mpr ⟨hs, hk ▸ hleading⟩, ?_⟩
      exact (hrows.keyRow_eq hs).symm.trans (congrArg (keyRow db clock) hk)
    · rintro ⟨s, hs, rfl⟩
      obtain ⟨hs, hleading⟩ := hrows.mem_shown.mp hs
      obtain ⟨e, he, hk, -⟩ := hrows.row s hs
      have hr := mem_eventPlatformRows.mpr ⟨e, he, rfl⟩
      have hleading : Leading locale db clock (cutKeyOf db e) := hk ▸ hleading
      refine ⟨_, mem_leadingRows.mpr ⟨hr, hleading⟩, ?_⟩
      rw [h.cutRow_eq hr hleading]
      exact (congrArg (keyRow db clock) hk).trans (hrows.keyRow_eq hs)

theorem PlatformsReadAlike.leadingRows_eq (h : PlatformsReadAlike locale db clock)
    (hrows : PlatformGroups locale db clock rows) :
    (leadingRows locale db clock a).map cutRow =
      (shown (byKey locale.collation) a' rows).map bareRow := by
  have hleft : ((leadingRows locale db clock a).map cutRow).Pairwise
      (byKey locale.collation) := by
    have hsorted : (leadingRows locale db clock a).Pairwise (byKey locale.collation) :=
      ranked_pairwise.filter _
    rw [List.pairwise_map]
    exact hsorted.imp_of_mem fun hr hs =>
      h.byKey_cutRow (mem_leadingRows.mp hr).1 (mem_leadingRows.mp hs).1
  have hright : ((shown (byKey locale.collation) a' rows).map bareRow).Pairwise
      (byKey locale.collation) :=
    (ranked_pairwise.sublist (List.take_sublist _ _)).map bareRow fun _ _ hrs => hrs
  refine List.Perm.eq_of_pairwise (fun x y hx hy hxy hyx => ?_) hleft hright
    (h.leadingRows_perm hrows)
  obtain ⟨r, -, rfl⟩ := List.mem_map.mp hx
  obtain ⟨s, -, rfl⟩ := List.mem_map.mp hy
  obtain ⟨hcount, hk⟩ := byKey_antisymm hxy hyx
  exact congrArg₂ (fun k n => GroupRow.mk k [] n) hk hcount

/-- There are no fewer rows of the events than of the rollups. -/
theorem length_le_eventPlatformRows (hrows : PlatformGroups locale db clock rows) :
    rows.length ≤ (eventPlatformRows db clock).length := by
  have hsubset : rows.map GroupRow.key ⊆
      (eventPlatformRows db clock).map fun r => r.key.take maxRollupChars := fun k hk => by
    obtain ⟨s, hs, rfl⟩ := List.mem_map.mp hk
    obtain ⟨e, he, hk, -⟩ := hrows.row s hs
    exact hk ▸ List.mem_map_of_mem (mem_eventPlatformRows.mpr ⟨e, he, rfl⟩)
  have h := hrows.nodup.length_le_of_subset hsubset
  rwa [List.length_map, List.length_map] at h

theorem PlatformsReadAlike.shown_eq (h : PlatformsReadAlike locale db clock)
    (hrows : PlatformGroups locale db clock rows) :
    shown (byKey locale.collation) a (eventPlatformRows db clock) =
        leadingRows locale db clock a ∧
      (maxDistributions < (eventPlatformRows db clock).length ↔ maxDistributions < rows.length) := by
  have hlength : (leadingRows locale db clock a).length = min maxDistributions rows.length := by
    have hrow : (leadingRows locale db clock a).map cutRow =
        (shown (byKey locale.collation) a rows).map bareRow := h.leadingRows_eq hrows
    have heq := congrArg List.length hrow
    rw [List.length_map, List.length_map, shown, List.length_take, ranked_perm.length_eq] at heq
    exact heq
  have htake : (ranked (byKey locale.collation) a (eventPlatformRows db clock)).take
      (leadingRows locale db clock a).length = leadingRows locale db clock a :=
    take_length_filter ranked_pairwise _ fun r hr s hs hleading hlast =>
      h.not_byKey (ranked_perm.mem_iff.mp hr) (ranked_perm.mem_iff.mp hs)
        (of_decide_eq_true hleading) (of_decide_eq_false hlast)
  have hmore := length_le_eventPlatformRows hrows
  by_cases hfew : rows.length ≤ maxDistributions
  · have hall : leadingRows locale db clock a =
        ranked (byKey locale.collation) a (eventPlatformRows db clock) := by
      refine List.filter_eq_self.mpr fun r hr => decide_eq_true ?_
      obtain ⟨e, he, rfl⟩ := mem_eventPlatformRows.mp (ranked_perm.mem_iff.mp hr)
      obtain ⟨s, hs, hk⟩ := hrows.all e he
      have hshown : s ∈ shown (byKey locale.collation) a rows := by
        rw [shown, List.take_of_length_le (ranked_perm.length_eq.trans_le hfew)]
        exact ranked_perm.mem_iff.mpr hs
      have hleading := (hrows.mem_shown.mp hshown).2
      rwa [hk] at hleading
    have hcount : (eventPlatformRows db clock).length = rows.length := by
      rw [Nat.min_eq_right hfew, hall, ranked_perm.length_eq] at hlength
      exact hlength
    refine ⟨?_, by rw [hcount]⟩
    rw [shown, hall]
    exact List.take_of_length_le (ranked_perm.length_eq.trans_le (hcount.trans_le hfew))
  · have hmany : maxDistributions < rows.length := Nat.lt_of_not_le hfew
    rw [hlength, Nat.min_eq_left hmany.le] at htake
    exact ⟨htake, iff_of_true (hmany.trans_le hmore) hmany⟩

theorem total_eventPlatformRows :
    total (eventPlatformRows db clock) = (windowEvents db clock).length := by
  rw [total, eventPlatformRows, List.map_map]
  exact sum_groupCount

theorem total_rollupRows (rollups : List Rollup) :
    total (rollupRows locale rollups) = sumCounts rollups := by
  have h := sumAt_groupSum (f := fun row : Rollup => row.key.key) (w := Row.count) (l := rollups)
    (fun _ => ()) ()
  rw [total, rollupRows, List.map_map]
  change ((groupSum (fun row : Rollup => row.key.key) Row.count rollups).map Prod.snd).sum =
    (rollups.map Row.count).sum
  simpa [sumAt] using h

theorem PlatformsReadAlike.distribution_eq (h : PlatformsReadAlike locale db clock)
    (hrows : PlatformGroups locale db clock rows) {r s : GroupRow}
    (hr : r ∈ leadingRows locale db clock a) (hs : s ∈ rows)
    (hrow : cutRow r = bareRow s) : distribution r = distribution s := by
  obtain ⟨hr, hleading⟩ := mem_leadingRows.mp hr
  obtain ⟨e, he, rfl⟩ := mem_eventPlatformRows.mp hr
  obtain ⟨e', he', hk, hl⟩ := hrows.row s hs
  have hcount := congrArg GroupRow.count hrow
  have hkey : cutKeyOf db e = s.key := congrArg GroupRow.key hrow
  have halone := h.alone e he hleading e' he' (hk.trans hkey.symm)
  have hshownKey : truncateText (platformKeyOf db e) 256 = truncateText s.key 256 := by
    rw [← hkey]
    exact (truncateText_take (platformKeyOf db e) (by decide)).symm
  have hshownLabel : truncateText (platformLabelOf db e) 256 = truncateText s.label 256 := by
    rw [← halone.2, h.label e' he' (hk.trans hkey.symm ▸ hleading), ← hl]
    exact (truncateText_take (rollupLabelOf locale db e') (by decide)).symm
  unfold distribution
  dsimp only at hcount ⊢
  rw [hshownKey, hshownLabel]
  exact congrArg (fun n => Distribution.mk _ _ n _) hcount

/-- Platforms that read alike are shown alike. -/
theorem PlatformsReadAlike.distributionRows_eq (h : PlatformsReadAlike locale db clock)
    (hrows : PlatformGroups locale db clock rows)
    (htotal : total rows = (windowEvents db clock).length) :
    distributionRows (limited (byKey locale.collation) a' rows) =
      distributionRows (limited (byKey locale.collation) a (eventPlatformRows db clock)) := by
  have hrow : (leadingRows locale db clock a).map cutRow =
      (shown (byKey locale.collation) a' rows).map bareRow := h.leadingRows_eq hrows
  have hvalues : (leadingRows locale db clock a).map distribution =
      (shown (byKey locale.collation) a' rows).map distribution :=
    map_eq_of_map_eq hrow fun r hr s hs heq =>
      h.distribution_eq hrows hr (hrows.mem_shown.mp hs).1 heq
  have hcounts : (leadingRows locale db clock a).map GroupRow.count =
      (shown (byKey locale.collation) a' rows).map GroupRow.count :=
    map_eq_of_map_eq hrow fun r _ s _ heq => by
      have hcount := congrArg GroupRow.count heq
      exact hcount
  obtain ⟨hshown, hlength⟩ := h.shown_eq hrows (a := a)
  rw [distributionRows_limited, distributionRows_limited, hshown, hvalues, hcounts, htotal,
    total_eventPlatformRows, decide_eq_decide.mpr hlength]

/-! ## And only then -/

/-- How a platform is written in the labels of the events. -/
def Written (p shownP : Text) : Prop :=
  shownP = p ∨ p = unknown ∧ shownP = "Unknown".toList

theorem Written.length_eq {p shownP : Text} (h : Written p shownP) : shownP.length = p.length := by
  obtain rfl | ⟨rfl, rfl⟩ := h
  · rfl
  · rfl

theorem written_platform (db : Tables) (e : Event) : Written (coalesce (eventPlatform db e))
    ((eventPlatform db e).getD "Unknown".toList) := by
  cases h : eventPlatform db e with
  | none => exact .inr ⟨rfl, rfl⟩
  | some p => exact .inl rfl

/-- A longer platform with the same key has another label. -/
theorem label_ne_of_longer {p shownP a a' m : Text} {shownP' : Text} (h : Written p shownP)
    (h' : Written (p ++ '/' :: m) shownP') :
    shownP ++ " / ".toList ++ a ≠ shownP' ++ " / ".toList ++ a' := by
  intro heq
  have hP' : shownP' = p ++ '/' :: m := by
    refine h'.resolve_right fun hunknown => ?_
    have hmem : '/' ∈ unknown := hunknown.1 ▸ List.mem_append_right p List.mem_cons_self
    exact absurd hmem (by decide)
  have hdrop := congrArg (List.drop p.length) heq
  rw [hP', List.append_assoc, List.append_assoc, List.append_assoc, List.drop_left' h.length_eq,
    List.drop_left] at hdrop
  exact absurd (List.cons.inj hdrop).1 (by decide)

/-- The key and the label of a platform tell it from the architecture. -/
theorem pair_eq {p p' shownP shownP' a a' : Text} (h : Written p shownP) (h' : Written p' shownP')
    (hk : platformKey p a = platformKey p' a')
    (hl : shownP ++ " / ".toList ++ a = shownP' ++ " / ".toList ++ a') : p = p' ∧ a = a' := by
  unfold platformKey at hk
  rcases List.append_eq_append_iff.mp hk with ⟨t, rfl, ht⟩ | ⟨t, rfl, ht⟩
  · cases t with
    | nil => exact ⟨(List.append_nil p).symm, (List.cons.inj ht).2⟩
    | cons x m =>
      rw [List.cons_append] at ht
      rw [← (List.cons.inj ht).1] at h'
      exact absurd hl (label_ne_of_longer h h')
  · cases t with
    | nil => exact ⟨List.append_nil p', (List.cons.inj ht).2.symm⟩
    | cons x m =>
      rw [List.cons_append] at ht
      rw [← (List.cons.inj ht).1] at h
      exact absurd hl.symm (label_ne_of_longer h' h)

theorem rollupLabelOf_eq {e e' : Event} (hk : platformKeyOf db e = platformKeyOf db e')
    (hl : platformLabelOf db e = platformLabelOf db e') :
    rollupLabelOf locale db e = rollupLabelOf locale db e' := by
  obtain ⟨hp, ha⟩ := pair_eq (written_platform db e) (written_platform db e') hk hl
  rw [rollupLabelOf, rollupLabelOf, hp, ha]

theorem distribution_inj {r s : GroupRow} (hr : LogTail.utf8Length r.key ≤ 256)
    (hs : LogTail.utf8Length s.key ≤ 256) (h : distribution r = distribution s) :
    r.key = s.key ∧ r.count = s.count ∧ truncateText r.label 256 = truncateText s.label 256 := by
  have hkey : ∀ r : GroupRow, LogTail.utf8Length r.key ≤ 256 →
      truncateText r.key 256 = (r.key, false) := fun r hr => if_pos hr
  unfold distribution at h
  rw [hkey r hr, hkey s hs] at h
  simp only [Bool.false_or, Distribution.mk.injEq] at h
  obtain ⟨hk, hl, hn, ht⟩ := h
  exact ⟨hk, hn, Prod.ext hl ht⟩

/-- Platforms that are shown alike read alike, when no key is cut where it is shown. -/
theorem readAlike_of_values (hrows : PlatformGroups locale db clock rows)
    (hshort : ∀ e ∈ windowEvents db clock, LogTail.utf8Length (platformKeyOf db e) ≤ 256)
    (hvalues : (shown (byKey locale.collation) a' rows).map distribution =
      (shown (byKey locale.collation) a (eventPlatformRows db clock)).map distribution) :
    PlatformsReadAlike locale db clock := by
  have hcut : ∀ e ∈ windowEvents db clock, cutKeyOf db e = platformKeyOf db e := fun e he =>
    List.take_of_length_le (((length_le_utf8Length _).trans (hshort e he)).trans (by decide))
  -- the row of a leading key, and the row of the events that is shown in its place
  have hrow : ∀ e ∈ windowEvents db clock, Leading locale db clock (cutKeyOf db e) →
      ∃ s ∈ rows, ∃ x ∈ windowEvents db clock, s.key = platformKeyOf db e ∧
        truncateText (platformLabelOf db x) 256 = truncateText s.label 256 ∧
        ∀ y ∈ windowEvents db clock, platformKeyOf db y = platformKeyOf db e →
          platformLabelOf db y = platformLabelOf db x := fun e he hleading => by
    obtain ⟨s, hs, hk⟩ := hrows.all e he
    have hmem := List.mem_map_of_mem (f := distribution)
      (hrows.mem_shown (a := a').mpr ⟨hs, hk ▸ hleading⟩)
    rw [hvalues] at hmem
    obtain ⟨r, hr, heq⟩ := List.mem_map.mp hmem
    obtain ⟨x, hx, rfl⟩ := mem_eventPlatformRows.mp (ranked_perm.mem_iff.mp (List.mem_of_mem_take hr))
    rw [hcut e he] at hk
    obtain ⟨hkey, hcount, hlabel⟩ := distribution_inj (hshort x hx) (hk ▸ hshort e he) heq
    dsimp only at hkey hcount hlabel
    refine ⟨s, hs, x, hx, hk, hlabel, fun y hy hyk => ?_⟩
    have hall := hrows.count s hs
    rw [← hcount] at hall
    have hmem : decide (cutKeyOf db y = s.key) = true :=
      decide_eq_true ((hcut y hy).trans (hyk.trans hk.symm))
    have hsame := of_countP_eq (fun z hz => decide_eq_true ((congrArg (List.take maxRollupChars)
      (of_decide_eq_true hz).1).trans ((hcut x hx).trans hkey))) hall hy hmem
    exact (of_decide_eq_true hsame).2
  refine ⟨fun e he e' he' _ hle => ?_, fun e he hleading e' he' hk => ?_, fun e he hleading => ?_⟩
  · rwa [hcut e he, hcut e' he'] at hle
  · obtain ⟨-, -, x, -, -, -, hall⟩ := hrow e he hleading
    rw [hcut e he, hcut e' he'] at hk
    exact ⟨hk, (hall e' he' hk).trans (hall e he rfl).symm⟩
  · obtain ⟨s, hs, x, -, hsk, hlabel, hall⟩ := hrow e he hleading
    obtain ⟨y, hy, hyk, hyl⟩ := hrows.row s hs
    rw [hcut y hy, hsk] at hyk
    have hrollup : rollupLabelOf locale db y = rollupLabelOf locale db e :=
      rollupLabelOf_eq hyk ((hall y hy hyk).trans (hall e he rfl).symm)
    rw [hall e he rfl, hlabel, ← hyl, hrollup]
    exact truncateText_take _ (by decide)

end
end FaultLane.DashboardOverview

import FaultLane.DashboardOverviewFigures

set_option autoImplicit false

/-!
# The distributions of the overview

A distribution shows the first rows of a ranking. Rows that group the same elements by the same
keys rank alike, and releases, crash types and states are such rows.
-/
namespace FaultLane.DashboardOverview
open KeyedTable LabelledTally GroupedSums RustText JobQueue DailyRollups RankedRows

/-! ## Rankings -/

section
variable {c : Collation} {r s t : GroupRow}

instance : Std.Total (byKey c) where
  total r s := by
    rcases Nat.lt_trichotomy r.count s.count with h | h | h
    · exact .inr (.inl h)
    · exact (c.total r.key s.key).imp (fun hk => .inr ⟨h, hk⟩) fun hk => .inr ⟨h.symm, hk⟩
    · exact .inl (.inl h)

instance : IsTrans GroupRow (byKey c) where
  trans r s t := by
    rintro (h | ⟨h, hk⟩) (h' | ⟨h', hk'⟩)
    · exact .inl (h'.trans h)
    · exact .inl (h' ▸ h)
    · exact .inl (h.symm ▸ h')
    · exact .inr ⟨h.trans h', c.trans _ _ _ hk hk'⟩

theorem byKey_antisymm (h : byKey c r s) (h' : byKey c s r) :
    r.count = s.count ∧ r.key = s.key := by
  obtain h | ⟨hcount, hk⟩ := h
  · obtain h' | ⟨hcount, -⟩ := h'
    · exact absurd h (Nat.lt_asymm h')
    · exact absurd hcount (Nat.ne_of_lt h)
  · obtain h' | ⟨-, hk'⟩ := h'
    · exact absurd hcount (Nat.ne_of_lt h')
    · exact ⟨hcount, c.antisymm _ _ hk hk'⟩

instance : Std.Total (byLabel c) where
  total r s := by
    rcases Nat.lt_trichotomy r.count s.count with h | h | h
    · exact .inr (.inl h)
    · by_cases hl : r.label = s.label
      · exact (c.total r.key s.key).imp (fun hk => .inr ⟨h, .inr ⟨hl, hk⟩⟩)
          fun hk => .inr ⟨h.symm, .inr ⟨hl.symm, hk⟩⟩
      · exact (c.total r.label s.label).imp (fun hk => .inr ⟨h, .inl ⟨hl, hk⟩⟩)
          fun hk => .inr ⟨h.symm, .inl ⟨Ne.symm hl, hk⟩⟩
    · exact .inl (.inl h)

instance : IsTrans GroupRow (byLabel c) where
  trans r s t := by
    rintro (h | ⟨h, hk⟩) (h' | ⟨h', hk'⟩)
    · exact .inl (h'.trans h)
    · exact .inl (h' ▸ h)
    · exact .inl (h.symm ▸ h')
    · refine .inr ⟨h.trans h', ?_⟩
      obtain ⟨hne, hl⟩ | ⟨hl, hk⟩ := hk <;> obtain ⟨hne', hl'⟩ | ⟨hl', hk'⟩ := hk'
      · by_cases heq : r.label = t.label
        · exact absurd (c.antisymm _ _ hl (heq ▸ hl')) hne
        · exact .inl ⟨heq, c.trans _ _ _ hl hl'⟩
      · exact .inl ⟨hl' ▸ hne, hl' ▸ hl⟩
      · exact .inl ⟨hl.symm ▸ hne', hl.symm ▸ hl'⟩
      · exact .inr ⟨hl.trans hl', c.trans _ _ _ hk hk'⟩

theorem byLabel_antisymm (h : byLabel c r s) (h' : byLabel c s r) : r = s := by
  obtain h | ⟨hcount, hk⟩ := h
  · obtain h' | ⟨hcount, -⟩ := h'
    · exact absurd h (Nat.lt_asymm h')
    · exact absurd hcount (Nat.ne_of_lt h)
  · obtain h' | ⟨-, hk'⟩ := h'
    · exact absurd hcount (Nat.ne_of_lt h')
    · have hlabel : r.label = s.label := by
        obtain ⟨-, hl⟩ | ⟨hl, -⟩ := hk
        · obtain ⟨-, hl'⟩ | ⟨hl', -⟩ := hk'
          · exact c.antisymm _ _ hl hl'
          · exact hl'.symm
        · exact hl
      have hkey : r.key = s.key :=
        c.antisymm _ _ (hk.resolve_left fun hl => hl.1 hlabel).2
          (hk'.resolve_left fun hl => hl.1 hlabel.symm).2
      cases r
      cases s
      simp_all

end

section
variable (before : GroupRow → GroupRow → Prop) [DecidableRel before] (a : Arrangement)

def ranked (rows : List GroupRow) : List GroupRow := (a.arrange rows).insertionSort before

/-- The rows that a distribution shows. -/
def shown (rows : List GroupRow) : List GroupRow := (ranked before a rows).take maxDistributions

def total (rows : List GroupRow) : Nat := (rows.map GroupRow.count).sum

variable {before a} {rows rows' : List GroupRow}

theorem ranked_perm : (ranked before a rows).Perm rows :=
  (List.perm_insertionSort before _).trans (a.perm rows)

theorem ranked_pairwise [Std.Total before] [IsTrans GroupRow before] :
    (ranked before a rows).Pairwise before := List.pairwise_insertionSort before _

theorem limited_length : (limited before a rows).length = min (maxDistributions + 1) rows.length := by
  rw [limited, List.length_map, List.length_take]
  exact congrArg (min _) ranked_perm.length_eq

theorem head_limited :
    ((limited before a rows).head?.map Prod.snd).getD 0 = total rows := by
  rw [limited]
  change ((((ranked before a rows).take (maxDistributions + 1)).map fun r =>
    (r, total rows)).head?.map Prod.snd).getD 0 = total rows
  cases hr : ranked before a rows with
  | nil =>
    have hperm : (ranked before a rows).Perm rows := ranked_perm
    rw [hr] at hperm
    rw [List.nil_perm.mp hperm]
    rfl
  | cons r rest => rfl

theorem distributionRows_limited : distributionRows (limited before a rows) =
    ⟨(shown before a rows).map distribution, decide (maxDistributions < rows.length),
      total rows - ((shown before a rows).map GroupRow.count).sum⟩ := by
  have htake : (limited before a rows).take maxDistributions =
      (shown before a rows).map fun r => (r, total rows) := by
    rw [limited, ← List.map_take, List.take_take]
    rfl
  have hlength : maxDistributions < (limited before a rows).length ↔
      maxDistributions < rows.length := by
    rw [limited_length]
    omega
  rw [distributionRows, head_limited, htake, List.map_map, List.map_map,
    decide_eq_decide.mpr hlength]
  rfl

/-- Rows that differ only in what a distribution does not show. -/
theorem distributionRows_congr [Std.Total before] [IsTrans GroupRow before] {a' : Arrangement}
    {f : GroupRow → GroupRow} (hperm : rows'.Perm (rows.map f))
    (hanti : ∀ r ∈ rows', ∀ s ∈ rows', before r s → before s r → r = s)
    (hbefore : ∀ r s, before r s → before (f r) (f s)) (hcount : ∀ r, (f r).count = r.count)
    (hshown : ∀ r ∈ rows, distribution (f r) = distribution r) :
    distributionRows (limited before a' rows') = distributionRows (limited before a rows) := by
  have hranked : ranked before a' rows' = (ranked before a rows).map f := by
    have hp : (ranked before a' rows').Perm ((ranked before a rows).map f) :=
      (ranked_perm.trans hperm).trans (ranked_perm.map f).symm
    refine hp.eq_of_pairwise (fun r s hr hs => ?_) ranked_pairwise
      (ranked_pairwise.map f fun r s => hbefore r s)
    exact hanti r (ranked_perm.mem_iff.mp hr) s (ranked_perm.mem_iff.mp (hp.mem_iff.mpr hs))
  have hvalues : shown before a' rows' = (shown before a rows).map f := by
    rw [shown, hranked, ← List.map_take]
    rfl
  have hcounts : ∀ l : List GroupRow, (l.map f).map GroupRow.count = l.map GroupRow.count :=
    fun l => by
      rw [List.map_map]
      exact List.map_congr_left fun r _ => hcount r
  have htotal : total rows' = total rows := by
    rw [total, (hperm.map GroupRow.count).sum_eq, hcounts]
    rfl
  have hlength : rows'.length = rows.length := hperm.length_eq.trans (List.length_map f)
  have hdistribution : ((shown before a rows).map f).map distribution =
      (shown before a rows).map distribution := by
    rw [List.map_map]
    refine List.map_congr_left fun r hr => hshown r ?_
    exact ranked_perm.mem_iff.mp (List.mem_of_mem_take hr)
  rw [distributionRows_limited, distributionRows_limited, hvalues, hcounts, hdistribution, htotal,
    hlength]

end

/-! ## Groups -/

section
variable {α : Type} {key label : α → Text} {rows rows' : List GroupRow} {l : List α}

/-- One row for each key, with the number of elements that have it and the label of one. -/
structure Groups (key label : α → Text) (rows : List GroupRow) (l : List α) : Prop where
  nodup : (rows.map GroupRow.key).Nodup
  row : ∀ r ∈ rows, ∃ x ∈ l, key x = r.key ∧ label x = r.label
  count : ∀ r ∈ rows, r.count = l.countP fun x => key x = r.key
  all : ∀ x ∈ l, ∃ r ∈ rows, r.key = key x

theorem Groups.mem_iff (h : Groups key label rows l)
    (hlabel : ∀ x ∈ l, ∀ y ∈ l, key x = key y → label x = label y) {r : GroupRow} :
    r ∈ rows ↔ ∃ x ∈ l, r = ⟨key x, label x, l.countP fun y => key y = key x⟩ := by
  have heq : ∀ r ∈ rows, ∀ x ∈ l, key x = r.key →
      r = ⟨key x, label x, l.countP fun y => key y = key x⟩ := fun r hr x hx hk => by
    obtain ⟨y, hy, hyk, hyl⟩ := h.row r hr
    have hcount := h.count r hr
    have hl := hlabel x hx y hy (hk.trans hyk.symm)
    cases r
    simp_all
  constructor
  · intro hr
    obtain ⟨x, hx, hk, -⟩ := h.row r hr
    exact ⟨x, hx, heq r hr x hx hk⟩
  · rintro ⟨x, hx, rfl⟩
    obtain ⟨r, hr, hk⟩ := h.all x hx
    exact heq r hr x hx hk.symm ▸ hr

theorem Groups.perm (h : Groups key label rows l) (h' : Groups key label rows' l)
    (hlabel : ∀ x ∈ l, ∀ y ∈ l, key x = key y → label x = label y) : rows'.Perm rows :=
  (List.perm_ext_iff_of_nodup (List.Nodup.of_map _ h'.nodup) (List.Nodup.of_map _ h.nodup)).mpr
    fun r => by rw [h.mem_iff hlabel, h'.mem_iff hlabel]

theorem Groups.congr (h : Groups key label rows l) (key' label' : α → Text)
    (hkey : ∀ x ∈ l, key' x = key x) (hlabel : ∀ x ∈ l, label' x = label x) :
    Groups key' label' rows l where
  nodup := h.nodup
  row r hr := by
    obtain ⟨x, hx, hk, hl⟩ := h.row r hr
    exact ⟨x, hx, (hkey x hx).trans hk, (hlabel x hx).trans hl⟩
  count r hr := by
    rw [h.count r hr]
    exact List.countP_congr fun x hx => by rw [hkey x hx]
  all x hx := hkey x hx ▸ h.all x hx

/-- The row with another label. -/
def relabel (f : Text → Text) (r : GroupRow) : GroupRow := { r with label := f r.label }

theorem Groups.relabel (h : Groups key label rows l) (f : Text → Text) :
    Groups key (fun x => f (label x)) (rows.map (relabel f)) l where
  nodup := by
    rw [List.map_map]
    exact h.nodup
  row r hr := by
    obtain ⟨s, hs, rfl⟩ := List.mem_map.mp hr
    obtain ⟨x, hx, hk, hl⟩ := h.row s hs
    exact ⟨x, hx, hk, congrArg f hl⟩
  count r hr := by
    obtain ⟨s, hs, rfl⟩ := List.mem_map.mp hr
    exact h.count s hs
  all x hx := by
    obtain ⟨r, hr, hk⟩ := h.all x hx
    exact ⟨_, List.mem_map_of_mem hr, hk⟩

theorem groups_of_grouping {κ : Type} [DecidableEq κ] (f : α → κ) (keyOf labelOf : κ → Text)
    (hinj : ∀ x ∈ l, ∀ y ∈ l, keyOf (f x) = keyOf (f y) → f x = f y) :
    Groups (fun x => keyOf (f x)) (fun x => labelOf (f x))
      ((groupCount f l).map fun g => ⟨keyOf g.1, labelOf g.1, g.2⟩) l := by
  refine ⟨?_, fun r hr => ?_, fun r hr => ?_, fun x hx => ?_⟩
  · rw [List.map_map]
    refine List.Nodup.map_on (fun g hg g' hg' heq => ?_)
      (List.Nodup.of_map _ (isGrouping_groupCount f l).nodup)
    obtain ⟨x, hx, rfl⟩ := mem_groupCount.mp hg
    obtain ⟨y, hy, rfl⟩ := mem_groupCount.mp hg'
    rw [hinj x hx y hy heq]
  · obtain ⟨g, hg, rfl⟩ := List.mem_map.mp hr
    obtain ⟨x, hx, rfl⟩ := mem_groupCount.mp hg
    exact ⟨x, hx, rfl, rfl⟩
  · obtain ⟨g, hg, rfl⟩ := List.mem_map.mp hr
    obtain ⟨x, hx, rfl⟩ := mem_groupCount.mp hg
    refine List.countP_congr fun y hy => ?_
    rw [decide_eq_true_eq, decide_eq_true_eq]
    exact ⟨congrArg keyOf, hinj y hy x hx⟩
  · exact ⟨_, List.mem_map_of_mem (mem_groupCount.mpr ⟨x, hx, rfl⟩), rfl⟩

theorem maxText_mem (c : Collation) {texts : List Text} (h : texts ≠ []) :
    maxText c texts ∈ texts := by
  induction texts with
  | nil => exact absurd rfl h
  | cons x rest ih =>
    cases rest with
    | nil => exact List.mem_cons_self
    | cons y rest =>
      change (if c.le (maxText c (y :: rest)) x then x else maxText c (y :: rest)) ∈ _
      split_ifs
      · exact List.mem_cons_self
      · exact List.mem_cons_of_mem x (ih (List.cons_ne_nil y rest))

/-- Rollups of elements group them. -/
theorem groups_of_rollups (locale : Locale) {rollups : List Rollup} {member : α → RollupKey × Text}
    (hcount : ∀ row ∈ rollups, row.count ≠ 0)
    (hmembers : members rollups = (l.map member : List _)) :
    Groups (fun x => (member x).1.key) (fun x => (member x).2) (rollupRows locale rollups) l := by
  have hmember : ∀ row ∈ rollups, ∃ x ∈ l, member x = (row.key, row.label) := fun row hrow => by
    have hmem : (row.key, row.label) ∈ members rollups :=
      mem_members.mpr ⟨row, hrow, hcount row hrow, rfl⟩
    rw [hmembers] at hmem
    exact List.mem_map.mp (Multiset.mem_coe.mp hmem)
  refine ⟨?_, fun r hr => ?_, fun r hr => ?_, fun x hx => ?_⟩
  · rw [rollupRows, List.map_map]
    exact groupSum_keys (f := fun row : Rollup => row.key.key) ▸ List.nodup_dedup _
  · obtain ⟨g, hg, rfl⟩ := List.mem_map.mp hr
    obtain ⟨row, hrow, hk⟩ := List.mem_map.mp (mem_groupSum.mp hg).1
    have hne : ((rollups.filter fun row => row.key.key = g.1).map Row.label) ≠ [] :=
      List.ne_nil_of_mem (List.mem_map_of_mem (List.mem_filter.mpr ⟨hrow, decide_eq_true hk⟩))
    obtain ⟨row', hrow', hl⟩ := List.mem_map.mp (maxText_mem locale.collation hne)
    obtain ⟨hrow', hk'⟩ := List.mem_filter.mp hrow'
    obtain ⟨x, hx, hm⟩ := hmember row' hrow'
    refine ⟨x, hx, ?_, ?_⟩
    · rw [hm]
      exact of_decide_eq_true hk'
    · rw [hm]
      exact hl
  · obtain ⟨g, hg, rfl⟩ := List.mem_map.mp hr
    have hsum : sumAt (fun row : Rollup => row.key.key) Row.count g.1 rollups =
        (members rollups).countP fun x => x.1.key = g.1 := sumAt_members RollupKey.key g.1
    rw [hmembers, Multiset.coe_countP, List.countP_map] at hsum
    exact (mem_groupSum.mp hg).2.trans hsum
  · have hmem : member x ∈ members rollups := hmembers ▸ List.mem_map_of_mem hx
    obtain ⟨row, hrow, -, hm⟩ := mem_members.mp hmem
    have hgroup : (row.key.key, sumAt (fun row : Rollup => row.key.key) Row.count row.key.key
        rollups) ∈ groupSum (fun row : Rollup => row.key.key) Row.count rollups :=
      mem_groupSum.mpr ⟨List.mem_map_of_mem hrow, rfl⟩
    exact ⟨_, List.mem_map_of_mem hgroup, congrArg (fun y => y.1.key) hm⟩

end

/-! ## Releases, crash types and states -/

section
variable {initcap : Text → Text} {db : Database} {clock : Timestamp}

theorem Recounted.groups_windowRows (h : Recounted initcap db) (locale : Locale)
    (clock : Timestamp) {d : Dimension} (hd : isEventDimension d) :
    Groups (fun e => (eventTexts initcap db.toTables d e).1.take maxRollupChars)
      (fun e => (eventTexts initcap db.toTables d e).2.take maxRollupChars)
      (rollupRows locale (windowRows db clock d)) (windowEvents db.toTables clock) := by
  refine groups_of_rollups locale (fun row hrow => ?_) (h.members_eventRows clock hd)
  obtain ⟨hrow, -⟩ := List.mem_filter.mp hrow
  obtain ⟨hrow, hdimension⟩ := List.mem_filter.mp hrow
  refine h.count_ne_zero hrow fun heq => ?_
  rw [of_decide_eq_true hdimension] at heq
  rw [heq] at hd
  cases hd

theorem Recounted.groups_dimensionRows (h : Recounted initcap db) (locale : Locale)
    {d : Dimension} (hd : isEventDimension d) :
    Groups (fun e => (eventTexts initcap db.toTables d e).1.take maxRollupChars)
      (fun e => (eventTexts initcap db.toTables d e).2.take maxRollupChars)
      (rollupRows locale (dimensionRows db d)) db.events.rows := by
  have hmembers : members (dimensionRows db d) = (db.events.rows.map fun e =>
      cut (eventMember initcap db.toTables d (dayOf e.receivedAt) e) : List _) := by
    rw [h.members_dimensionRows, datedMembers_of_event hd, Multiset.map_coe, List.map_map]
    rfl
  refine groups_of_rollups locale (fun row hrow => ?_) hmembers
  obtain ⟨hrow, hdimension⟩ := List.mem_filter.mp hrow
  refine h.count_ne_zero hrow fun heq => ?_
  rw [of_decide_eq_true hdimension] at heq
  rw [heq] at hd
  cases hd

end

/-! ## Texts that are cut twice -/

section
variable {n m : Nat}

theorem length_le_utf8Length (text : Text) : text.length ≤ LogTail.utf8Length text := by
  induction text with
  | nil => exact Nat.zero_le _
  | cons c rest ih =>
    have hpos := Char.utf8Size_pos c
    change rest.length + 1 ≤ c.utf8Size + LogTail.utf8Length rest
    omega

theorem fitting_take (text : Text) (h : n ≤ m) : fitting n (text.take m) = fitting n text := by
  induction text generalizing n m with
  | nil => rw [List.take_nil]
  | cons c rest ih =>
    have hpos := Char.utf8Size_pos c
    cases m with
    | zero =>
      have hlarge : ¬c.utf8Size ≤ n := by omega
      exact (if_neg hlarge).symm
    | succ m =>
      change (if c.utf8Size ≤ n then c :: fitting (n - c.utf8Size) (rest.take m) else []) =
        if c.utf8Size ≤ n then c :: fitting (n - c.utf8Size) rest else []
      rw [ih (show n - c.utf8Size ≤ m by omega)]

theorem truncateText_take (text : Text) (h : n < m) :
    truncateText (text.take m) n = truncateText text n := by
  by_cases hlength : text.length ≤ m
  · rw [List.take_of_length_le hlength]
  · have hlong := length_le_utf8Length text
    have hcut := length_le_utf8Length (text.take m)
    rw [List.length_take] at hcut
    rw [truncateText, truncateText, if_neg (by omega), if_neg (by omega), fitting_take text h.le]

theorem distribution_relabel (r : GroupRow) :
    distribution (relabel (List.take maxRollupChars) r) = distribution r := by
  have hlabel : truncateText (r.label.take maxRollupChars) 256 = truncateText r.label 256 :=
    truncateText_take r.label (by decide)
  unfold distribution relabel
  rw [hlabel]

end

/-! ## Releases, crash types and states are the same -/

section
variable {locale : Locale} {db : Database} {clock : Timestamp} {a a' : Arrangement}

theorem Groups.byKey_antisymm {α : Type} {key label : α → Text} {rows : List GroupRow} {l : List α}
    (h : Groups key label rows l) {c : Collation} :
    ∀ r ∈ rows, ∀ s ∈ rows, byKey c r s → byKey c s r → r = s := fun _ hr _ hs hrs hsr =>
  List.inj_on_of_nodup_map h.nodup hr hs (DashboardOverview.byKey_antisymm hrs hsr).2

/-- Groups of one key whose labels are cut in one of them. -/
theorem distributionRows_groups {α : Type} {key label : α → Text} {rows rows' : List GroupRow}
    {l : List α} (h : Groups key label rows l)
    (h' : Groups key (fun x => (label x).take maxRollupChars) rows' l)
    (hlabel : ∀ x ∈ l, ∀ y ∈ l, key x = key y → label x = label y) {c : Collation} :
    distributionRows (limited (byKey c) a' rows') = distributionRows (limited (byKey c) a rows) :=
  distributionRows_congr
    ((h.relabel (List.take maxRollupChars)).perm h' fun x hx y hy hk =>
      congrArg (List.take maxRollupChars) (hlabel x hx y hy hk))
    h'.byKey_antisymm (fun _ _ hrs => hrs) (fun _ => rfl) fun r _ => distribution_relabel r

theorem Recounted.crashTypes_eq (h : Recounted locale.initcap db) :
    distributionRows (limited (byKey locale.collation) a'
        (rollupRows locale (windowRows db clock .crashType))) =
      distributionRows (limited (byKey locale.collation) a
        (eventCrashTypeRows locale db.toTables clock)) := by
  have hraw : Groups (eventCrashType db.toTables)
      (fun e => locale.initcap (eventCrashType db.toTables e))
      (eventCrashTypeRows locale db.toTables clock) (windowEvents db.toTables clock) :=
    groups_of_grouping (fun e => (eventCrashType db.toTables e,
      locale.initcap (eventCrashType db.toTables e))) Prod.fst Prod.snd
      fun x _ y _ hk => Prod.ext hk (congrArg locale.initcap hk)
  have hrollup := (h.groups_windowRows locale clock (d := .crashType) rfl).congr
    (eventCrashType db.toTables)
    (fun e => (locale.initcap (eventCrashType db.toTables e)).take maxRollupChars)
    (fun e _ => (List.take_of_length_le (crashTypeText_length _)).symm) fun e _ => rfl
  exact distributionRows_groups hraw hrollup fun x _ y _ hk => congrArg locale.initcap hk

theorem Recounted.states_eq (h : Recounted locale.initcap db) :
    distributionRows (limited (byKey locale.collation) a'
        (rollupRows locale (dimensionRows db .processingState))) =
      distributionRows (limited (byKey locale.collation) a
        (eventStateRows locale db.toTables)) := by
  have hraw : Groups (fun e : Event => e.processingState.text)
      (fun e => stateLabel locale.initcap e.processingState)
      (eventStateRows locale db.toTables) db.events.rows :=
    groups_of_grouping Event.processingState ProcessingState.text (stateLabel locale.initcap)
      fun x _ y _ hk => ProcessingState.text_injective hk
  have hrollup := (h.groups_dimensionRows locale (d := .processingState) rfl).congr
    (fun e => e.processingState.text)
    (fun e => (stateLabel locale.initcap e.processingState).take maxRollupChars)
    (fun e _ => (List.take_of_length_le e.processingState.text_length).symm) fun e _ => rfl
  exact distributionRows_groups hraw hrollup fun x _ y _ hk =>
    congrArg (stateLabel locale.initcap) (ProcessingState.text_injective hk)

/-- Versions are checked to be short before a release is stored. -/
def ShortVersions (db : Tables) : Prop := ∀ r ∈ db.releases, r.version.length ≤ 128

theorem Recounted.releases_eq (h : Recounted locale.initcap db)
    (hversions : ShortVersions db.toTables) :
    distributionRows (limited (byLabel locale.collation) a'
        (rollupRows locale (windowRows db clock .release))) =
      distributionRows (limited (byLabel locale.collation) a
        (eventReleaseRows db.toTables clock)) := by
  have hmem : ∀ e r, db.releaseOf e = some r → r ∈ db.releases := fun e r hr => by
    obtain ⟨id, -, hfind⟩ := Option.bind_eq_some_iff.mp hr
    exact (Table.find_eq_some.mp hfind).1
  have hkey : ∀ e, db.releaseKey e = releaseText ((db.releaseOf e).map Release.id) := fun e => by
    rw [releaseText, Option.map_map]
    rfl
  have hinj : ∀ x y : Event, db.releaseKey x = db.releaseKey y →
      db.releaseOf x = db.releaseOf y := fun x y hk => by
    rw [hkey, hkey] at hk
    have hid := releaseText_injective hk
    cases hx : db.releaseOf x with
    | none =>
      rw [hx, Option.map_none, eq_comm, Option.map_eq_none_iff] at hid
      exact hid.symm
    | some r =>
      rw [hx, Option.map_some, eq_comm, Option.map_eq_some_iff] at hid
      obtain ⟨s, hs, hrs⟩ := hid
      rw [hs, Table.eq_of_key_eq (hmem y s hs) (hmem x r hx) hrs]
  have hraw : Groups db.releaseKey db.releaseLabel (eventReleaseRows db.toTables clock)
      (windowEvents db.toTables clock) :=
    groups_of_grouping db.releaseOf
      (fun release => (release.map fun r : Release => r.id.text).getD "unmapped".toList)
      (fun release => (release.map Release.version).getD "Unmapped".toList)
      fun x _ y _ hk => hinj x y hk
  have hlabel : ∀ e, (db.releaseLabel e).length ≤ maxRollupChars := fun e => by
    unfold Tables.releaseLabel
    cases hr : db.releaseOf e with
    | none => decide
    | some r => exact (hversions r (hmem e r hr)).trans (by decide)
  have hrollup := (h.groups_windowRows locale clock (d := .release) rfl).congr
    db.releaseKey db.releaseLabel
    (fun e _ => (List.take_of_length_le (hkey e ▸ releaseText_length _)).symm)
    fun e _ => (List.take_of_length_le (hlabel e)).symm
  have hperm := hraw.perm hrollup fun x _ y _ hk => by
    rw [Tables.releaseLabel, Tables.releaseLabel, hinj x y hk]
  rw [← List.map_id (eventReleaseRows db.toTables clock)] at hperm
  exact distributionRows_congr hperm (fun _ _ _ _ => byLabel_antisymm) (fun _ _ hrs => hrs)
    (fun _ => rfl) fun _ _ => rfl

end
end FaultLane.DashboardOverview

import FaultLane.GroupedSums
import FaultLane.KeyedTable
import Mathlib.Data.Multiset.Filter

set_option autoImplicit false

/-!
# Tallies with labels

A table that counts the members of a multiset by key, each key with the label that was written
last. It is exact while members of one key have one label.
-/
namespace FaultLane.LabelledTally
open KeyedTable GroupedSums
variable {κ ℓ : Type} [DecidableEq κ]

structure Row (κ ℓ : Type) where
  key : κ
  label : ℓ
  count : Nat
  deriving DecidableEq, Repr

abbrev Tally (κ ℓ : Type) := Table (Row.key : Row κ ℓ → κ)

/-- `INSERT … ON CONFLICT (key) DO UPDATE SET label = EXCLUDED.label,
count = count + EXCLUDED.count`. -/
def Tally.add (t : Tally κ ℓ) (k : κ) (l : ℓ) (n : Nat) : Tally κ ℓ :=
  if (t.find k).isSome then
    t.modify k (fun r => { r with label := l, count := r.count + n }) fun _ => rfl
  else t.insert ⟨k, l, n⟩

/-- `UPDATE … SET count = count - n WHERE count - n >= 0`. -/
def Row.subtract (r : Row κ ℓ) (n : Nat) : Row κ ℓ :=
  if n ≤ r.count then { r with count := r.count - n } else r

omit [DecidableEq κ] in
@[simp] theorem Row.subtract_key (r : Row κ ℓ) (n : Nat) : (r.subtract n).key = r.key := by
  unfold Row.subtract
  split <;> rfl

def Tally.subtract (t : Tally κ ℓ) (k : κ) (n : Nat) : Tally κ ℓ :=
  t.modify k (fun r => r.subtract n) fun r => r.subtract_key n

/-- The update, and `DELETE … WHERE count = 0`. -/
def Tally.remove (t : Tally κ ℓ) (k : κ) (n : Nat) : Tally κ ℓ :=
  if ((t.subtract k n).find k).any (·.count = 0) then (t.subtract k n).delete k
  else t.subtract k n

theorem Tally.find_add (t : Tally κ ℓ) (k : κ) (l : ℓ) (n : Nat) (k' : κ) :
    (t.add k l n).find k' = if k = k' then
      some (match t.find k' with
        | some r => { r with label := l, count := r.count + n }
        | none => ⟨k, l, n⟩)
    else t.find k' := by
  unfold Tally.add
  split_ifs with hsome hk hk
  · subst hk
    obtain ⟨r, hr⟩ := Option.isSome_iff_exists.mp hsome
    rw [Table.find_modify_self, hr]
    rfl
  · exact Table.find_modify_of_ne t _ _ (Ne.symm hk)
  · subst hk
    have hnone : t.find k = none := by simpa using hsome
    rw [hnone]
    exact Table.find_insert_self hnone
  · exact Table.find_insert_of_ne (Ne.symm hk)

theorem Tally.find_remove (t : Tally κ ℓ) (k : κ) (n : Nat) (k' : κ) :
    (t.remove k n).find k' = if k = k' then
      ((t.find k').map fun r => r.subtract n).filter fun r => r.count ≠ 0
    else t.find k' := by
  have hself : (t.subtract k n).find k = (t.find k).map fun r => r.subtract n :=
    Table.find_modify_self t k _ _
  unfold Tally.remove
  by_cases hk : k = k'
  · subst hk
    rw [if_pos rfl, hself]
    cases hf : t.find k with
    | none => rw [if_neg (by simp), hself, hf]; rfl
    | some r =>
      by_cases hzero : (r.subtract n).count = 0
      · rw [if_pos (by simpa using hzero), Table.find_delete_self]
        exact (Option.filter_some_neg (by simpa using hzero)).symm
      · rw [if_neg (by simpa using hzero), hself, hf]
        exact (Option.filter_some_pos (by simpa using hzero)).symm
  · have hother : (t.subtract k n).find k' = t.find k' :=
      Table.find_modify_of_ne t _ _ (Ne.symm hk)
    rw [if_neg hk, ← hother]
    split_ifs
    · exact Table.find_delete_of_ne _ (Ne.symm hk)
    · rfl

/-- Every key of the multiset has one row, with one of its labels and the number of members. -/
structure Counts (t : Tally κ ℓ) (m : Multiset (κ × ℓ)) : Prop where
  row : ∀ r ∈ t, (r.key, r.label) ∈ m ∧ r.count = m.countP fun x => x.1 = r.key
  all : ∀ x ∈ m, ∃ r ∈ t, r.key = x.1

/-- Members with the key of `x` have its label. -/
def Agrees (x : κ × ℓ) (m : Multiset (κ × ℓ)) : Prop := ∀ y ∈ m, y.1 = x.1 → y.2 = x.2

variable {t : Tally κ ℓ} {m : Multiset (κ × ℓ)} {x y : κ × ℓ}

theorem counts_empty : Counts (Table.empty : Tally κ ℓ) 0 :=
  ⟨fun r hr => absurd hr (Table.not_mem_empty r), nofun⟩

omit [DecidableEq κ] in
theorem Agrees.eq (h : Agrees x m) (hy : y ∈ m) (hk : y.1 = x.1) : y = x :=
  Prod.ext hk (h y hy hk)

theorem Counts.find (h : Counts t m) (hx : x ∈ m) : ∃ r, t.find x.1 = some r := by
  obtain ⟨r, hr, hk⟩ := h.all x hx
  exact ⟨r, Table.find_eq_some.mpr ⟨hr, hk⟩⟩

theorem Counts.countP_eq_zero (h : Counts t m) {k : κ} (hf : t.find k = none) :
    (m.countP fun x => x.1 = k) = 0 := by
  refine Multiset.countP_eq_zero.mpr fun y hy hk => ?_
  obtain ⟨r, hr, hrk⟩ := h.all y hy
  exact Table.find_eq_none.mp hf r hr (hrk.trans hk)

theorem Counts.add (h : Counts t m) : Counts (t.add x.1 x.2 1) (x ::ₘ m) := by
  have hother : ∀ k, x.1 ≠ k → ((x ::ₘ m).countP fun y => y.1 = k) = m.countP fun y => y.1 = k :=
    fun k hne => Multiset.countP_cons_of_neg _ hne
  have hself : ((x ::ₘ m).countP fun y => y.1 = x.1) = (m.countP fun y => y.1 = x.1) + 1 :=
    Multiset.countP_cons_of_pos _ rfl
  unfold Tally.add
  cases hf : t.find x.1 with
  | none =>
    have hmem : ∀ r, r ∈ t.insert ⟨x.1, x.2, 1⟩ ↔ r = ⟨x.1, x.2, 1⟩ ∨ r ∈ t :=
      fun r => Table.mem_insert hf
    refine ⟨fun r hr => ?_, fun y hy => ?_⟩
    · rcases (hmem r).mp hr with rfl | hr
      · refine ⟨Multiset.mem_cons_self _ _, ?_⟩
        rw [hself, h.countP_eq_zero hf]
      · obtain ⟨hin, hcount⟩ := h.row r hr
        refine ⟨Multiset.mem_cons_of_mem hin, ?_⟩
        rw [hother _ fun hk => Table.find_eq_none.mp hf r hr hk.symm, hcount]
    · rcases Multiset.mem_cons.mp hy with rfl | hy
      · exact ⟨_, (hmem _).mpr (.inl rfl), rfl⟩
      · obtain ⟨r, hr, hk⟩ := h.all y hy
        exact ⟨r, (hmem r).mpr (.inr hr), hk⟩
  | some r₀ =>
    obtain ⟨hr₀, hk₀⟩ := Table.find_eq_some.mp hf
    have hmem : ∀ r, r ∈ t.modify x.1 (fun r => { r with label := x.2, count := r.count + 1 })
        (fun _ => rfl) ↔ (r ∈ t ∧ r.key ≠ x.1) ∨
          r = { r₀ with label := x.2, count := r₀.count + 1 } := fun r => by
      simp only [Table.mem_modify, hf, Option.some.injEq, exists_eq_left']
    refine ⟨fun r hr => ?_, fun y hy => ?_⟩
    · rcases (hmem r).mp hr with ⟨hr, hne⟩ | rfl
      · obtain ⟨hin, hcount⟩ := h.row r hr
        refine ⟨Multiset.mem_cons_of_mem hin, ?_⟩
        rw [hother _ hne.symm, hcount]
      · refine ⟨?_, ?_⟩
        · rw [hk₀]
          exact Multiset.mem_cons_self _ _
        · dsimp only
          rw [hk₀, hself, ← hk₀, ← (h.row r₀ hr₀).2]
    · by_cases hk : y.1 = x.1
      · exact ⟨_, (hmem _).mpr (.inr rfl), hk₀.trans hk.symm⟩
      · have hy := (Multiset.mem_cons.mp hy).resolve_left fun heq => hk (congrArg Prod.fst heq)
        obtain ⟨r, hr, hrk⟩ := h.all y hy
        exact ⟨r, (hmem r).mpr (.inl ⟨hr, hrk ▸ hk⟩), hrk⟩

theorem Counts.remove (h : Counts t (x ::ₘ m)) (hx : Agrees x m) : Counts (t.remove x.1 1) m := by
  obtain ⟨r₀, hf⟩ := h.find (Multiset.mem_cons_self x m)
  obtain ⟨hr₀, hk₀⟩ := Table.find_eq_some.mp hf
  have hcount₀ : r₀.count = (m.countP fun y => y.1 = x.1) + 1 := by
    rw [(h.row r₀ hr₀).2, hk₀]
    exact Multiset.countP_cons_of_pos _ rfl
  have hsub : r₀.subtract 1 = { r₀ with count := m.countP fun y => y.1 = x.1 } := by
    unfold Row.subtract
    rw [if_pos (by omega), hcount₀]
    rfl
  have hmem : ∀ r, r ∈ t.subtract x.1 1 ↔ (r ∈ t ∧ r.key ≠ x.1) ∨
      r = { r₀ with count := m.countP fun y => y.1 = x.1 } := fun r => by
    simp only [Tally.subtract, Table.mem_modify, hf, Option.some.injEq, exists_eq_left', hsub]
  have hfind : (t.subtract x.1 1).find x.1 =
      some { r₀ with count := m.countP fun y => y.1 = x.1 } :=
    Table.find_eq_some.mpr ⟨(hmem _).mpr (.inr rfl), hk₀⟩
  have hkept : ∀ r ∈ t, r.key ≠ x.1 → (r.key, r.label) ∈ m ∧
      r.count = m.countP fun y => y.1 = r.key := fun r hr hne => by
    obtain ⟨hin, hcount⟩ := h.row r hr
    refine ⟨(Multiset.mem_cons.mp hin).resolve_left fun heq => hne (congrArg Prod.fst heq), ?_⟩
    rw [hcount]
    exact Multiset.countP_cons_of_neg _ hne.symm
  unfold Tally.remove
  rw [hfind, Option.any_some]
  by_cases hzero : (m.countP fun y => y.1 = x.1) = 0
  · rw [if_pos (by simpa using hzero)]
    refine ⟨fun r hr => ?_, fun y hy => ?_⟩
    · obtain ⟨hr, hne⟩ := Table.mem_delete.mp hr
      rcases (hmem r).mp hr with ⟨hr, -⟩ | rfl
      · exact hkept r hr hne
      · exact absurd hk₀ hne
    · have hne : y.1 ≠ x.1 := Multiset.countP_eq_zero.mp hzero y hy
      obtain ⟨r, hr, hrk⟩ := h.all y (Multiset.mem_cons_of_mem hy)
      have hrne : r.key ≠ x.1 := hrk ▸ hne
      exact ⟨r, Table.mem_delete.mpr ⟨(hmem r).mpr (.inl ⟨hr, hrne⟩), hrne⟩, hrk⟩
  · rw [if_neg (by simpa using hzero)]
    refine ⟨fun r hr => ?_, fun y hy => ?_⟩
    · rcases (hmem r).mp hr with ⟨hr, hne⟩ | rfl
      · exact hkept r hr hne
      · refine ⟨?_, ?_⟩
        · obtain ⟨y, hy, hyk⟩ := Multiset.countP_pos.mp (Nat.pos_of_ne_zero hzero)
          have hlabel : r₀.label = x.2 := by
            rcases Multiset.mem_cons.mp (h.row r₀ hr₀).1 with heq | hin
            · exact congrArg Prod.snd heq
            · exact hx _ hin hk₀
          have hyx : y = x := hx.eq hy hyk
          dsimp only
          rw [hk₀, hlabel]
          exact hyx ▸ hy
        · dsimp only
          rw [hk₀]
    · by_cases hk : y.1 = x.1
      · exact ⟨_, (hmem _).mpr (.inr rfl), hk₀.trans hk.symm⟩
      · obtain ⟨r, hr, hrk⟩ := h.all y (Multiset.mem_cons_of_mem hy)
        exact ⟨r, (hmem r).mpr (.inl ⟨hr, hrk ▸ hk⟩), hrk⟩

/-- A row that counts none is as good as no row. -/
def nonzero (row : Option (Row κ ℓ)) : Option (Row κ ℓ) := row.filter fun r => r.count ≠ 0

/-! ## Rows counted again -/

/-- A list of rows that would be a tally of the multiset. -/
def Tallies (rows : List (Row κ ℓ)) (m : Multiset (κ × ℓ)) : Prop :=
  ∃ h : (rows.map Row.key).Nodup, Counts ⟨rows, h⟩ m

theorem Counts.tallies (h : Counts t m) : Tallies t.rows m := ⟨t.unique, h⟩

theorem tallies_nil : Tallies ([] : List (Row κ ℓ)) 0 := ⟨List.nodup_nil, counts_empty⟩

theorem Tallies.mem {rows : List (Row κ ℓ)} (h : Tallies rows m) {r : Row κ ℓ} (hr : r ∈ rows) :
    (r.key, r.label) ∈ m := by
  obtain ⟨_, h⟩ := h
  exact (h.row r hr).1

theorem Tallies.count {rows : List (Row κ ℓ)} (h : Tallies rows m) {r : Row κ ℓ}
    (hr : r ∈ rows) : r.count = m.countP fun x => x.1 = r.key := by
  obtain ⟨_, h⟩ := h
  exact (h.row r hr).2

theorem Tallies.exists {rows : List (Row κ ℓ)} (h : Tallies rows m) (hx : x ∈ m) :
    ∃ r ∈ rows, r.key = x.1 := by
  obtain ⟨_, h⟩ := h
  exact h.all x hx

theorem Tallies.count_pos {rows : List (Row κ ℓ)} (h : Tallies rows m) {r : Row κ ℓ}
    (hr : r ∈ rows) : 0 < r.count := by
  rw [h.count hr]
  exact Multiset.countP_pos.mpr ⟨_, h.mem hr, rfl⟩

/-- The rows of some keys tally the members that have these keys. -/
theorem Tallies.filter {rows : List (Row κ ℓ)} (h : Tallies rows m) (p : κ → Prop)
    [DecidablePred p] : Tallies (rows.filter fun r => p r.key) (m.filter fun x => p x.1) := by
  obtain ⟨hnodup, h⟩ := h
  refine ⟨hnodup.sublist (List.filter_sublist.map _), fun r hr => ?_, fun x hx => ?_⟩
  · obtain ⟨hr, hp⟩ := List.mem_filter.mp hr
    have hp : p r.key := by simpa using hp
    obtain ⟨hin, hcount⟩ := h.row r hr
    refine ⟨Multiset.mem_filter.mpr ⟨hin, hp⟩, ?_⟩
    rw [hcount, Multiset.countP_filter]
    refine Multiset.countP_congr rfl fun x _ => propext ⟨fun hk => ⟨hk, ?_⟩, And.left⟩
    exact hk ▸ hp
  · obtain ⟨hx, hp⟩ := Multiset.mem_filter.mp hx
    obtain ⟨r, hr, hk⟩ := h.all x hx
    exact ⟨r, List.mem_filter.mpr ⟨hr, by simpa [hk] using hp⟩, hk⟩

/-- Tallies without a common key. -/
theorem Tallies.append {rows rows' : List (Row κ ℓ)} {m' : Multiset (κ × ℓ)} (h : Tallies rows m)
    (h' : Tallies rows' m') (hne : ∀ x ∈ m, ∀ y ∈ m', x.1 ≠ y.1) :
    Tallies (rows ++ rows') (m + m') := by
  have hkeys : ∀ r ∈ rows, ∀ y ∈ m', r.key ≠ y.1 := fun r hr y hy => hne _ (h.mem hr) y hy
  have hkeys' : ∀ r ∈ rows', ∀ x ∈ m, x.1 ≠ r.key := fun r hr x hx => hne x hx _ (h'.mem hr)
  have hnodup : ((rows ++ rows').map Row.key).Nodup := by
    rw [List.map_append]
    refine List.Nodup.append h.1 h'.1 fun k hk hk' => ?_
    obtain ⟨r, hr, rfl⟩ := List.mem_map.mp hk
    obtain ⟨r', hr', heq⟩ := List.mem_map.mp hk'
    exact hkeys r hr _ (h'.mem hr') heq.symm
  refine ⟨hnodup, fun r hr => ?_, fun x hx => ?_⟩
  · rw [Multiset.mem_add, Multiset.countP_add]
    rcases List.mem_append.mp hr with hr | hr
    · have hzero : (m'.countP fun x => x.1 = r.key) = 0 :=
        Multiset.countP_eq_zero.mpr fun y hy heq => hkeys r hr y hy heq.symm
      rw [h.count hr, hzero]
      exact ⟨.inl (h.mem hr), rfl⟩
    · have hzero : (m.countP fun x => x.1 = r.key) = 0 :=
        Multiset.countP_eq_zero.mpr fun x hx heq => hkeys' r hr x hx heq
      rw [h'.count hr, hzero, Nat.zero_add]
      exact ⟨.inr (h'.mem hr), rfl⟩
  · rcases Multiset.mem_add.mp hx with hx | hx
    · obtain ⟨r, hr, hk⟩ := h.exists hx
      exact ⟨r, List.mem_append_left _ hr, hk⟩
    · obtain ⟨r, hr, hk⟩ := h'.exists hx
      exact ⟨r, List.mem_append_right _ hr, hk⟩

/-- Groups tally their elements when each has a key of its own. -/
theorem tallies_groups {α : Type} [DecidableEq α] {groups : List (α × Nat)} {l : List α}
    (h : IsGrouping groups l) (row : α → κ × ℓ)
    (hinj : ∀ a ∈ l, ∀ b ∈ l, (row a).1 = (row b).1 → a = b) :
    Tallies (groups.map fun g => ⟨(row g.1).1, (row g.1).2, g.2⟩) (l.map row : List (κ × ℓ)) := by
  have hcount : ∀ a ∈ l, (l.map row).countP (fun x => x.1 = (row a).1) = l.count a :=
    fun a ha => by
      rw [List.countP_map, List.count]
      refine List.countP_congr fun b hb => ?_
      simp only [Function.comp_apply, decide_eq_true_eq, beq_iff_eq]
      exact ⟨fun hk => hinj b hb a ha hk, fun heq => heq ▸ rfl⟩
  have hnodup : ((groups.map fun g => (⟨(row g.1).1, (row g.1).2, g.2⟩ : Row κ ℓ)).map
      Row.key).Nodup := by
    rw [List.map_map]
    refine List.Nodup.map_on ?_ (.of_map _ h.nodup)
    intro g hg g' hg' heq
    obtain ⟨hin, hn⟩ := (h.mem g).mp hg
    obtain ⟨hin', hn'⟩ := (h.mem g').mp hg'
    have hfst : g.1 = g'.1 := hinj _ hin _ hin' heq
    refine Prod.ext hfst ?_
    rw [hn, hn', hfst]
  refine ⟨hnodup, fun r hr => ?_, fun x hx => ?_⟩
  · obtain ⟨g, hg, rfl⟩ := List.mem_map.mp hr
    obtain ⟨hin, hn⟩ := (h.mem g).mp hg
    refine ⟨Multiset.mem_coe.mpr (List.mem_map_of_mem hin), ?_⟩
    rw [Multiset.coe_countP, hcount _ hin]
    exact hn
  · obtain ⟨a, ha, rfl⟩ := List.mem_map.mp (Multiset.mem_coe.mp hx)
    have hg : (a, l.count a) ∈ groups := (h.mem _).mpr ⟨ha, rfl⟩
    exact ⟨_, List.mem_map_of_mem hg, rfl⟩

/-- One row tallies members that are all alike, when there are any. -/
theorem tallies_single {α : Type} {l : List α} (h : l ≠ []) (x : κ × ℓ) :
    Tallies [⟨x.1, x.2, l.length⟩] (l.map fun _ => x : List (κ × ℓ)) := by
  obtain ⟨a, ha⟩ := List.exists_mem_of_ne_nil l h
  refine ⟨List.nodup_singleton _, fun r hr => ?_, fun y hy => ?_⟩
  · cases List.mem_singleton.mp hr
    refine ⟨Multiset.mem_coe.mpr (List.mem_map.mpr ⟨a, ha, rfl⟩), ?_⟩
    rw [Multiset.coe_countP, List.countP_map]
    exact (List.countP_eq_length.mpr fun b _ => decide_eq_true rfl).symm
  · obtain ⟨b, -, rfl⟩ := List.mem_map.mp (Multiset.mem_coe.mp hy)
    exact ⟨_, List.mem_singleton_self _, rfl⟩

theorem Tallies.perm {rows rows' : List (Row κ ℓ)} (h : Tallies rows m) (h' : Tallies rows' m)
    (hm : ∀ x ∈ m, Agrees x m) : rows.Perm rows' := by
  have hsub : ∀ {rows rows' : List (Row κ ℓ)}, Tallies rows m → Tallies rows' m →
      ∀ r ∈ rows, r ∈ rows' := fun {rows rows'} h h' r hr => by
    obtain ⟨r', hr', hk⟩ := h'.exists (h.mem hr)
    have hlabel : r.label = r'.label := hm _ (h'.mem hr') _ (h.mem hr) hk.symm
    have hcount : r.count = r'.count := by
      rw [h.count hr, h'.count hr', hk]
    have heq : r = r' := by
      cases r
      cases r'
      exact Row.mk.injEq .. |>.mpr ⟨hk.symm, hlabel, hcount⟩
    exact heq ▸ hr'
  exact (List.perm_ext_iff_of_nodup (.of_map _ h.1) (.of_map _ h'.1)).mpr fun r =>
    ⟨hsub h h' r, hsub h' h r⟩

end FaultLane.LabelledTally

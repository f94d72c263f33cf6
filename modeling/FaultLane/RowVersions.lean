import FaultLane.KeyedTable

set_option autoImplicit false

/-!
# Uncommitted versions of rows

A row that a transaction has written has one version beside the committed one, which nobody else
writes until its owner ends. What an owner commits takes the place of the rows.
-/
namespace FaultLane.RowVersions
open KeyedTable
variable {κ α ω : Type} [DecidableEq κ] {key : α → κ}

/-- A version is that of a key, and without a row where its owner has deleted it. It is a
replacement when the committed row is deleted, whatever was inserted afterwards. -/
structure Version (key : α → κ) (ω : Type) where
  at_ : κ
  owner : ω
  row : Option α
  keyed : ∀ a ∈ row, key a = at_
  replaced : Bool

abbrev Versions (key : α → κ) (ω : Type) := Table (Version.at_ : Version key ω → κ)

/-- One version in the place of another, or of the committed row. -/
def Versions.write (vs : Versions key ω) (v : Version key ω) : Versions key ω :=
  (vs.delete v.at_).insert v

def Version.install (t : Table key) (v : Version key ω) : Table key :=
  match v.row with
  | some a => (t.delete v.at_).insert a
  | none => t.delete v.at_

def installAll (t : Table key) (vs : List (Version key ω)) : Table key := vs.foldl Version.install t

theorem Versions.mem_write {vs : Versions key ω} {v w : Version key ω} :
    w ∈ vs.write v ↔ w = v ∨ (w ∈ vs ∧ w.at_ ≠ v.at_) := by
  rw [Versions.write, Table.mem_insert (Table.find_delete_self vs v.at_), Table.mem_delete]

theorem Version.find_install (t : Table key) (v : Version key ω) (k : κ) :
    (v.install t).find k = if v.at_ = k then v.row else t.find k := by
  unfold Version.install
  cases hrow : v.row with
  | none =>
    split_ifs with hk
    · subst hk
      exact Table.find_delete_self t v.at_
    · exact Table.find_delete_of_ne t (Ne.symm hk)
  | some a =>
    have ha : key a = v.at_ := v.keyed a hrow
    have hnone : (t.delete v.at_).find (key a) = none := ha ▸ Table.find_delete_self t v.at_
    split_ifs with hk
    · have hself := Table.find_insert_self hnone
      rwa [ha.trans hk] at hself
    · have hne : k ≠ key a := fun heq => hk (ha.symm.trans heq.symm)
      dsimp only
      rw [Table.find_insert_of_ne hne, Table.find_delete_of_ne t (Ne.symm hk)]

/-- Versions of different keys. -/
theorem find_installAll {vs : List (Version key ω)} (hvs : (vs.map Version.at_).Nodup)
    (t : Table key) (k : κ) :
    (installAll t vs).find k = match vs.find? fun v => v.at_ = k with
      | some v => v.row
      | none => t.find k := by
  induction vs generalizing t with
  | nil => rfl
  | cons v vs ih =>
    obtain ⟨hv, hvs⟩ := List.nodup_cons.mp hvs
    rw [installAll, List.foldl_cons]
    refine (ih hvs (v.install t)).trans ?_
    by_cases hk : v.at_ = k
    · have hnone : vs.find? (fun v => v.at_ = k) = none := by
        refine List.find?_eq_none.mpr fun w hw heq => hv ?_
        exact List.mem_map.mpr ⟨w, hw, (of_decide_eq_true heq).trans hk.symm⟩
      rw [hnone, List.find?_cons_of_pos (by simpa using hk)]
      exact (Version.find_install t v k).trans (if_pos hk)
    · rw [List.find?_cons_of_neg (by simpa using hk), Version.find_install, if_neg hk]

/-- The versions of some owners. -/
theorem find_installAll_filter (t : Table key) (vs : Versions key ω) (p : Version key ω → Prop)
    [DecidablePred p] (k : κ) :
    (installAll t (vs.rows.filter fun v => p v)).find k = match vs.find k with
      | some v => if p v then v.row else t.find k
      | none => t.find k := by
  have hnodup : ((vs.rows.filter fun v => p v).map Version.at_).Nodup :=
    vs.unique.sublist (List.filter_sublist.map _)
  have hfind : (vs.rows.filter fun v => p v).find? (fun v => v.at_ = k) =
      (vs.find k).filter fun v => p v := by
    ext v
    have hv : (vs.rows.filter fun v => p v).find? (fun v => v.at_ = k) = some v ↔
        v ∈ vs.rows.filter (fun v => p v) ∧ v.at_ = k := Table.find_eq_some (t := ⟨_, hnodup⟩)
    rw [hv, List.mem_filter, decide_eq_true_eq, Option.filter_eq_some_iff, Table.find_eq_some,
      decide_eq_true_eq]
    exact and_right_comm
  rw [find_installAll hnodup, hfind]
  cases vs.find k with
  | none => rfl
  | some v =>
    by_cases hp : p v
    · rw [Option.filter_some_pos (by simpa using hp)]
      exact (if_pos hp).symm
    · rw [Option.filter_some_neg (by simpa using hp)]
      exact (if_neg hp).symm

end FaultLane.RowVersions

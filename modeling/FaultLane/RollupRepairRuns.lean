import FaultLane.DailyRollupsRepair
import FaultLane.RollupRepair

set_option autoImplicit false

/-!
# Runs with repairs

While decrements find their rows and no row that a repair is still to delete is committed after
its recount, the rollups are the tally that the tables give, whatever else is interleaved.
-/
namespace FaultLane.RollupRepair
open KeyedTable LabelledTally RowVersions DailyRollups RustText JobQueue TransitionSystem
variable {initcap : Text → Text} {db : Tables} {rollups ideal : Rollups} {day : Int}

/-! ## The recount by key -/

/-- The one key of a day for which a repair may count none. -/
def IsRegressed (key : RollupKey) : Prop := key = (regressedRow key.day).1

/-- The row of a key. -/
def rowAt (rows : List Rollup) (key : RollupKey) : Option Rollup := rows.find? fun r => r.key = key

theorem rowAt_eq_some {rows : List Rollup} (h : (rows.map Row.key).Nodup) {key : RollupKey}
    {row : Rollup} : rowAt rows key = some row ↔ row ∈ rows ∧ row.key = key :=
  Table.find_eq_some (t := ⟨rows, h⟩)

theorem rowAt_perm {rows rows' : List Rollup} (h : (rows.map Row.key).Nodup)
    (hp : rows.Perm rows') (key : RollupKey) : rowAt rows key = rowAt rows' key := by
  have h' : (rows'.map Row.key).Nodup := (hp.map Row.key).nodup_iff.mp h
  ext row
  rw [rowAt_eq_some h, rowAt_eq_some h', hp.mem_iff]

theorem rowAt_stored {key : RollupKey} (hday : key.day = day) :
    rowAt (rollups.rows.filter fun row => row.key.day = day) key = rollups.find key := by
  have hnodup : ((rollups.rows.filter fun row => row.key.day = day).map Row.key).Nodup :=
    rollups.unique.sublist (List.filter_sublist.map _)
  ext row
  rw [rowAt_eq_some hnodup, Table.find_eq_some, List.mem_filter, decide_eq_true_eq]
  exact ⟨fun h => ⟨h.1.1, h.2⟩, fun h => ⟨⟨h.1, h.2 ▸ hday⟩, h.2⟩⟩

theorem nonzero_eq_self {row : Option Rollup} (h : ∀ r ∈ row, r.count ≠ 0) : nonzero row = row := by
  cases row with
  | none => rfl
  | some r => exact Option.filter_some_pos (by simpa using h r rfl)

/-- What a repair counts for each key of its day. -/
structure Recounted (rows : List Rollup) (ideal : Rollups) (day : Int) : Prop where
  nodup : (rows.map Row.key).Nodup
  onDay : ∀ row ∈ rows, row.key.day = day
  zero : ∀ row ∈ rows, row.count = 0 → IsRegressed row.key
  find : ∀ key, key.day = day → nonzero (rowAt rows key) = ideal.find key

theorem recounted (h : Accounted initcap db ideal) (day : Int) :
    Recounted (db.recount initcap day) ideal day := by
  have hideal : ∀ key, nonzero (ideal.find key) = ideal.find key := fun key =>
    nonzero_eq_self fun row hrow => h.count_ne_zero (Table.find_eq_some.mp hrow).1
  by_cases hr : ∃ i ∈ db.issues, i.regressedOn day
  · have htallies := recount_tallies h hr
    refine ⟨htallies.1, fun row hrow => ?_, fun row hrow hzero => ?_, fun key hday => ?_⟩
    · exact (Multiset.mem_filter.mp (htallies.mem hrow)).2
    · exact absurd hzero (htallies.count_pos hrow).ne'
    · rw [← rowAt_perm (h.stored_tallies day).1 ((h.exact_iff day).mpr hr), rowAt_stored hday, hideal]
  · obtain ⟨rows, hrows, hpart⟩ := counted_eq h day
    have hnone : (db.issues.rows.filter fun i => i.regressedOn day) = [] :=
      List.filter_eq_nil_iff.mpr fun i hi hon => hr ⟨i, hi, of_decide_eq_true hon⟩
    have htallies : Tallies (rows.map leftRow)
        ((db.entries.map (Entry.written initcap db.releases)).filter fun x => x.1.day = day) := by
      rw [members_eq, hnone, List.map_nil, Multiset.coe_nil, add_zero]
      exact hpart.tallies
    let zeroRow : Rollup := leftRow
      ⟨⟨day, .issueRegressed, "all".toList⟩, "Regressed issues".toList, 0⟩
    have hrecount : db.recount initcap day = rows.map leftRow ++ [zeroRow] := by
      rw [Tables.recount, hrows, Tables.regressedRows, hnone, List.map_append]
      rfl
    have hother : ∀ row ∈ rows.map leftRow, row.key ≠ zeroRow.key := fun row hrow heq => by
      have hdimension := hpart.dimension _ (hpart.tallies.mem hrow)
      rw [show row.key.dimension = .issueRegressed from congrArg (fun k => k.dimension) heq]
        at hdimension
      exact absurd hdimension (by decide)
    rw [hrecount]
    refine ⟨?_, fun row hrow => ?_, fun row hrow hzero => ?_, fun key hday => ?_⟩
    · rw [List.map_append]
      refine List.Nodup.append htallies.1 (List.nodup_singleton _) fun k hk hk' => ?_
      obtain ⟨row, hrow, rfl⟩ := List.mem_map.mp hk
      exact hother row hrow (List.mem_singleton.mp hk')
    · rcases List.mem_append.mp hrow with hrow | hrow
      · exact (Multiset.mem_filter.mp (htallies.mem hrow)).2
      · rw [List.mem_singleton.mp hrow]
        rfl
    · rcases List.mem_append.mp hrow with hrow | hrow
      · exact absurd hzero (htallies.count_pos hrow).ne'
      · rw [List.mem_singleton.mp hrow]
        rfl
    · have hperm := (h.stored_tallies day).perm htallies (h.agrees day)
      rw [← rowAt_stored hday, rowAt_perm (h.stored_tallies day).1 hperm, rowAt, rowAt,
        List.find?_append]
      cases hf : (rows.map leftRow).find? fun r => r.key = key with
      | none =>
        by_cases hk : zeroRow.key = key
        · rw [List.find?_cons_of_pos (by simpa using hk)]
          rfl
        · rw [List.find?_cons_of_neg (by simpa using hk)]
          rfl
      | some row =>
        exact nonzero_eq_self fun r hr => Option.some.inj hr ▸
          (htallies.count_pos (List.mem_of_find?_eq_some hf)).ne'

/-! ## Deltas by key -/

section
variable {d : Delta} {deltas : List Delta} {key : RollupKey}

theorem find_apply (t : Rollups) (d : Delta) (key : RollupKey) :
    (applyProjectDailyRollupDelta t d).find key =
      if d.key.left = key then rowAfter d (t.find key) else t.find key := by
  unfold applyProjectDailyRollupDelta rowAfter
  by_cases hadd : 0 < d.delta
  · rw [if_pos hadd, if_pos hadd, Tally.find_add]
    split_ifs
    · cases t.find key <;> rfl
    · rfl
  · rw [if_neg hadd, if_neg hadd]
    by_cases hremove : d.delta < 0
    · rw [if_pos hremove, if_pos hremove, Tally.find_remove]
    · rw [if_neg hremove, if_neg hremove, ite_self]

theorem performDeltas_concat (t : Rollups) (deltas : List Delta) (d : Delta) :
    performDeltas t (deltas ++ [d]) = applyProjectDailyRollupDelta (performDeltas t deltas) d :=
  List.foldl_concat ..

theorem find_performDeltas_congr {t t' : Rollups} (h : t.find key = t'.find key)
    (deltas : List Delta) : (performDeltas t deltas).find key = (performDeltas t' deltas).find key := by
  induction deltas generalizing t t' with
  | nil => exact h
  | cons d deltas ih =>
    refine ih ?_
    rw [find_apply, find_apply, h]

theorem rowAfter_zero (h : d.delta = 0) (row : Option Rollup) : rowAfter d row = row := by
  unfold rowAfter
  rw [if_neg (by omega), if_neg (by omega)]

theorem find_performDeltas_of_untouched {t : Rollups}
    (h : ∀ d ∈ deltas, d.delta ≠ 0 → d.key.left ≠ key) :
    (performDeltas t deltas).find key = t.find key := by
  induction deltas generalizing t with
  | nil => rfl
  | cons d deltas ih =>
    refine (ih fun d' hd' => h d' (List.mem_cons_of_mem d hd')).trans ?_
    rw [find_apply]
    split_ifs with hk
    · refine rowAfter_zero ?_ _
      by_contra hne
      exact h d List.mem_cons_self hne hk
    · rfl

theorem nonzero_rowAfter {row : Option Rollup} (h : ∀ r ∈ row, r.key = d.key.left) :
    nonzero (rowAfter d row) = nonzero (rowAfter d (nonzero row)) := by
  cases row with
  | none => rfl
  | some r =>
    by_cases hzero : r.count = 0
    · have hnone : nonzero (some r) = none := Option.filter_some_neg (by simpa using hzero)
      rw [hnone]
      unfold rowAfter
      split_ifs with hadd hremove
      · simp only [h r rfl, hzero, Nat.zero_add]
      · have hkept : (r.subtract (-d.delta).toNat).count = 0 := by
          unfold Row.subtract
          split_ifs
          · exact Nat.sub_eq_zero_of_le (hzero ▸ Nat.zero_le _)
          · exact hzero
        refine congrArg nonzero ?_
        exact Option.filter_some_neg (by simpa using hkept)
      · exact hnone
    · rw [nonzero_eq_self fun r' hr' => Option.some.inj hr' ▸ hzero]

/-- Deltas do not tell a row that counts none from no row. -/
theorem nonzero_performDeltas {t t' : Rollups}
    (h : ∀ key, nonzero (t.find key) = nonzero (t'.find key)) (deltas : List Delta)
    (key : RollupKey) :
    nonzero ((performDeltas t deltas).find key) = nonzero ((performDeltas t' deltas).find key) := by
  induction deltas generalizing t t' with
  | nil => exact h key
  | cons d deltas ih =>
    refine ih fun key => ?_
    rw [find_apply, find_apply]
    split_ifs with hk
    · rw [nonzero_rowAfter (hk ▸ find_key), h, ← nonzero_rowAfter (hk ▸ find_key)]
    · exact h key

end

/-! ## Open transactions -/

abbrev Writes := Versions (Row.key : Rollup → RollupKey) Owner

/-- What a transaction has written is what its deltas make of the committed rows. -/
structure Performs (rollups : Rollups) (held : Writes) (t : Transaction) : Prop where
  own : ∀ v ∈ held, v.owner = .transaction t.id →
    v.row = (performDeltas rollups t.performed).find v.at_
  touched : ∀ d ∈ t.performed, d.delta ≠ 0 →
    ∃ v ∈ held, v.at_ = d.key.left ∧ v.owner = .transaction t.id

section
variable {held : Writes} {t : Transaction} {v : Version (Row.key : Rollup → RollupKey) Owner}

/-- A key without a version of the transaction is as none of its deltas found it. -/
theorem Performs.untouched (h : Performs rollups held t) {key : RollupKey}
    (hkey : ∀ v ∈ held, v.at_ = key → v.owner ≠ .transaction t.id) :
    (performDeltas rollups t.performed).find key = rollups.find key :=
  find_performDeltas_of_untouched fun d hd hne heq => by
    obtain ⟨v, hv, hat, howner⟩ := h.touched d hd hne
    exact hkey v hv (hat.trans heq) howner

theorem Performs.write (h : Performs rollups held t) (hv : v.owner ≠ .transaction t.id)
    (hfree : ∀ w ∈ held, w.at_ = v.at_ → w.owner = v.owner) :
    Performs rollups (held.write v) t where
  own w hw howner := by
    rcases Versions.mem_write.mp hw with rfl | ⟨hw, -⟩
    · exact absurd howner hv
    · exact h.own w hw howner
  touched d hd hne := by
    obtain ⟨w, hw, hat, howner⟩ := h.touched d hd hne
    refine ⟨w, Versions.mem_write.mpr (.inr ⟨hw, fun heq => hv ?_⟩), hat, howner⟩
    rw [← hfree w hw heq, howner]

theorem Performs.drop (h : Performs rollups held t) {owner : Owner}
    (ho : owner ≠ .transaction t.id) :
    Performs rollups (held.deleteWhere fun v => v.owner = owner) t where
  own v hv := h.own v (Table.mem_deleteWhere.mp hv).1
  touched d hd hne := by
    obtain ⟨v, hv, hat, howner⟩ := h.touched d hd hne
    exact ⟨v, Table.mem_deleteWhere.mpr ⟨hv, fun heq => ho (heq.symm.trans howner)⟩, hat, howner⟩

theorem Performs.release (h : Performs rollups held t) {owner : Owner}
    (ho : owner ≠ .transaction t.id) :
    Performs (installAll rollups (held.rows.filter fun v => v.owner = owner))
      (held.deleteWhere fun v => v.owner = owner) t where
  own v hv howner := by
    have hin := (Table.mem_deleteWhere.mp hv).1
    rw [h.own v hin howner]
    refine find_performDeltas_congr ?_ _
    have hne : v.owner ≠ owner := fun heq => ho (heq.symm.trans howner)
    rw [find_installAll_filter, Table.find_eq_some.mpr ⟨hin, rfl⟩]
    exact (if_neg hne).symm
  touched := (h.drop ho).touched

/-- The next delta, on a row that no other has written. -/
theorem Performs.perform (h : Performs rollups held t) {d : Delta} (hat : v.at_ = d.key.left)
    (howner : v.owner = .transaction t.id) (t' : Transaction) (hid : t'.id = t.id)
    (hperformed : t'.performed = t.performed ++ [d])
    (hrow : v.row = rowAfter d ((performDeltas rollups t.performed).find v.at_)) :
    Performs rollups (held.write v) t' where
  own w hw hw' := by
    rw [hperformed, performDeltas_concat, find_apply]
    rcases Versions.mem_write.mp hw with rfl | ⟨hw, hne⟩
    · rw [if_pos hat.symm, hrow]
    · rw [if_neg fun heq => hne (heq.symm.trans hat.symm)]
      exact h.own w hw (hid ▸ hw')
  touched d' hd' hne := by
    rw [hid]
    rw [hperformed] at hd'
    by_cases hk : d'.key.left = v.at_
    · exact ⟨v, Versions.mem_write.mpr (.inl rfl), hk.symm, howner⟩
    · rcases List.mem_append.mp hd' with hd' | hd'
      · obtain ⟨w, hw, hat', how⟩ := h.touched d' hd' hne
        exact ⟨w, Versions.mem_write.mpr (.inr ⟨hw, fun heq => hk (hat'.symm.trans heq)⟩), hat', how⟩
      · exact absurd (List.mem_singleton.mp hd' ▸ hat.symm) hk

/-- A delta of nothing. -/
theorem Performs.skip (h : Performs rollups held t) {d : Delta} (hd : d.delta = 0)
    (t' : Transaction) (hid : t'.id = t.id) (hperformed : t'.performed = t.performed ++ [d]) :
    Performs rollups held t' where
  own v hv howner := by
    rw [hperformed, performDeltas_concat, find_apply, rowAfter_zero hd, ite_self]
    exact h.own v hv (hid ▸ howner)
  touched d' hd' hne := by
    rw [hid]
    rw [hperformed] at hd'
    rcases List.mem_append.mp hd' with hd' | hd'
    · exact h.touched d' hd' hne
    · exact absurd (List.mem_singleton.mp hd' ▸ hd) hne

end
/-! ## An open repair -/

/-- Where the repair has still to delete, or has deleted, what it counted is what the tables give;
elsewhere it counted nothing. -/
structure Repairing (held : Writes) (r : Repair) (ideal : Rollups) : Prop where
  nodup : (r.rows.map Row.key).Nodup
  onDay : ∀ row ∈ r.rows, row.key.day = r.day
  zero : ∀ row ∈ r.rows, row.count = 0 → IsRegressed row.key
  pendingDay : ∀ keys ∈ r.pending, ∀ key ∈ keys, key.day = r.day
  heldDay : ∀ v ∈ held, v.owner = .repair → v.at_.day = r.day ∧ r.passed v.at_
  deleted : ∀ v ∈ held, v.owner = .repair →
    nonzero (v.row.or (rowAt r.rows v.at_)) = ideal.find v.at_
  due : ∀ key, ¬r.passed key → nonzero (rowAt r.rows key) = ideal.find key
  passed : ∀ key, key.day = r.day → r.passed key →
    (∀ v ∈ held, v.at_ = key → v.owner ≠ .repair) → nonzero (rowAt r.rows key) = none

section
variable {held : Writes} {r : Repair} {v : Version (Row.key : Rollup → RollupKey) Owner}

theorem Repairing.congr (h : Repairing held r ideal) {held' : Writes} {r' : Repair}
    {ideal' : Rollups} (hday : r'.day = r.day) (hrows : r'.rows = r.rows)
    (hpending : ∀ keys ∈ r'.pending, ∀ key ∈ keys, key.day = r.day)
    (hpassed : ∀ key, r'.passed key ↔ r.passed key)
    (hheld : ∀ v, v.owner = .repair → (v ∈ held' ↔ v ∈ held))
    (hideal : ∀ key, (¬r.passed key ∨ ∃ v ∈ held, v.at_ = key ∧ v.owner = .repair) →
      ideal'.find key = ideal.find key) : Repairing held' r' ideal' where
  nodup := hrows ▸ h.nodup
  onDay := by
    rw [hrows, hday]
    exact h.onDay
  zero := hrows ▸ h.zero
  pendingDay := by
    rw [hday]
    exact hpending
  heldDay v hv ho := by
    rw [hday, hpassed]
    exact h.heldDay v ((hheld v ho).mp hv) ho
  deleted v hv ho := by
    have hin := (hheld v ho).mp hv
    rw [hrows, hideal _ (.inr ⟨v, hin, rfl, ho⟩)]
    exact h.deleted v hin ho
  due key hkey := by
    rw [hpassed] at hkey
    rw [hrows, hideal _ (.inl hkey)]
    exact h.due key hkey
  passed key hkey hp hfree := by
    rw [hrows]
    exact h.passed key (hday ▸ hkey) ((hpassed key).mp hp) fun v hv hat ho =>
      hfree v ((hheld v ho).mpr hv) hat ho

/-- A transaction writes. -/
theorem Repairing.write (h : Repairing held r ideal) (hv : v.owner ≠ .repair)
    (hfree : ∀ w ∈ held, w.at_ = v.at_ → w.owner = v.owner) :
    Repairing (held.write v) r ideal := by
  refine h.congr rfl rfl h.pendingDay (fun _ => Iff.rfl) (fun w hw => ?_) fun _ _ => rfl
  rw [Versions.mem_write]
  constructor
  · rintro (rfl | ⟨hin, -⟩)
    · exact absurd hw hv
    · exact hin
  · intro hin
    exact .inr ⟨hin, fun heq => hv ((hfree w hin heq).symm.trans hw)⟩

/-- A transaction ends. -/
theorem Repairing.drop (h : Repairing held r ideal) {owner : Owner} (ho : owner ≠ .repair) :
    Repairing (held.deleteWhere fun v => v.owner = owner) r ideal := by
  refine h.congr rfl rfl h.pendingDay (fun _ => Iff.rfl) (fun w hw => ?_) fun _ _ => rfl
  rw [Table.mem_deleteWhere]
  exact and_iff_left fun heq => ho (heq.symm.trans hw)

end

/-! ## The invariant -/

/-- The stored rows are the tally that the tables give, but for rows that count none. -/
structure Sound (initcap : Text → Text) (s : State) (ideal : Rollups) : Prop where
  accounted : Accounted initcap s.db.toTables ideal
  rows : ∀ key, nonzero (s.db.rollups.find key) = ideal.find key
  zero : ∀ row ∈ s.db.rollups, row.count = 0 → IsRegressed row.key
  heldZero : ∀ v ∈ s.held, ∀ row ∈ v.row, row.count = 0 → IsRegressed row.key
  performs : ∀ t ∈ s.transactions, Performs s.db.rollups s.held t
  owned : ∀ v ∈ s.held, ∀ id, v.owner = .transaction id → ∃ t ∈ s.transactions, t.id = id
  repairing : ∀ r ∈ s.repair, Repairing s.held r ideal
  repairs : s.repair = none → ∀ v ∈ s.held, v.owner ≠ .repair

theorem sound_init : Sound initcap .init .empty where
  accounted := accounted_init
  rows _ := rfl
  zero row hrow := absurd hrow (Table.not_mem_empty row)
  heldZero v hv := absurd hv (Table.not_mem_empty v)
  performs t ht := absurd ht (Table.not_mem_empty t)
  owned v hv := absurd hv (Table.not_mem_empty v)
  repairing _ hr := nomatch hr
  repairs _ v hv := absurd hv (Table.not_mem_empty v)

variable {s s' : State} {id : Nat}

theorem begin_sound {action : Action} {deltas : List Delta} (h : Sound initcap s ideal)
    (hs : begin_ s id action deltas = some s') : Sound initcap s' ideal := by
  obtain ⟨hfresh, hs⟩ := Option.ite_none_left_eq_some.mp hs
  cases hs
  have hnone : s.transactions.find id = none := by simpa using hfresh
  have hmem : ∀ t, t ∈ s.transactions.insert ⟨id, action, [], deltas, false, false⟩ ↔
      t = ⟨id, action, [], deltas, false, false⟩ ∨ t ∈ s.transactions := fun t =>
    Table.mem_insert hnone
  refine { h with performs := fun t ht => ?_, owned := fun v hv i hi => ?_ }
  · rcases (hmem t).mp ht with rfl | ht
    · refine ⟨fun v hv ho => ?_, by rintro _ ⟨⟩⟩
      obtain ⟨t, ht, hid⟩ := h.owned v hv id ho
      exact absurd hid (Table.find_eq_none.mp hnone t ht)
    · exact h.performs t ht
  · obtain ⟨t, ht, hid⟩ := h.owned v hv i hi
    exact ⟨t, (hmem t).mpr (.inr ht), hid⟩

theorem rowAfter_count {d : Delta} {row : Option Rollup} {r : Rollup} (h : rowAfter d row = some r)
    (hr : r.count = 0) : row = some r := by
  unfold rowAfter at h
  split_ifs at h with hadd hremove
  · have hpos : 0 < d.delta.toNat := by omega
    cases row with
    | none =>
      cases h
      exact absurd hr hpos.ne'
    | some row =>
      cases h
      exact absurd hr (Nat.add_pos_right _ hpos).ne'
  · have hne := (Option.filter_eq_some_iff.mp h).2
    exact absurd hr (by simpa using hne)
  · exact h

theorem rowAfter_ne {d : Delta} {row : Option Rollup} (hd : d.delta ≠ 0)
    (h : d.delta < 0 → ∃ r ∈ row, (-d.delta).toNat ≤ r.count) : rowAfter d row ≠ row := by
  intro heq
  unfold rowAfter at heq
  split_ifs at heq with hadd hremove
  · cases row with
    | none => cases heq
    | some row =>
      have hcount := congrArg Row.count (Option.some.inj heq)
      dsimp only at hcount
      omega
  · obtain ⟨r, rfl, hle⟩ := h hremove
    obtain ⟨r', hr', heq⟩ := Option.map_eq_some_iff.mp (Option.filter_eq_some_iff.mp heq).1
    cases hr'
    have hcount := congrArg Row.count heq
    rw [Row.subtract, if_pos hle] at hcount
    dsimp only at hcount
    omega
  · omega

/-- The next delta writes its row, unless it is one of nothing. -/
theorem perform_eq_some (hc : Undisturbed s (.perform id)) (hs : perform s id = some s') :
    ∃ t d, s.transactions.find id = some t ∧ t.remaining.head? = some d ∧
      ((∃ v, s' = (s.advance id).write v ∧ v.at_ = d.key.left ∧ v.owner = .transaction id ∧
        v.row = rowAfter d (s.visible (.transaction id) d.key.left) ∧
        ∀ w ∈ s.held, w.at_ = d.key.left → w.owner = .transaction id) ∨
      (s' = s.advance id ∧ d.delta = 0)) := by
  obtain ⟨t, ht, hs⟩ := Option.bind_eq_some_iff.mp hs
  obtain ⟨d, hd, hs⟩ := Option.bind_eq_some_iff.mp hs
  refine ⟨t, d, ht, hd, ?_⟩
  have hfinds := hc t ht d hd
  dsimp only at hs
  unfold State.visible at hfinds ⊢
  split at hs
  · rename_i v hv
    have honly : ∀ w ∈ s.held, w.at_ = d.key.left → w = v := fun w hw hat => by
      have hw := Table.find_eq_some.mpr ⟨hw, hat⟩
      exact Option.some.inj (hw.symm.trans hv)
    simp only [hv] at hfinds ⊢
    split_ifs at hs with howner hother
    · cases hs
      exact .inl ⟨_, rfl, rfl, howner, by rw [if_pos howner], fun w hw hat => honly w hw hat ▸ howner⟩
    · obtain ⟨-, r, hr, -⟩ := hfinds hother.1
      rw [if_neg howner] at hr
      cases hr
  · rename_i hv
    have hfree : ∀ w ∈ s.held, w.at_ = d.key.left → w.owner = .transaction id := fun w hw hat =>
      absurd hat (Table.find_eq_none.mp hv w hw)
    simp only [hv] at hfinds ⊢
    split_ifs at hs with hmissed hzero hsame
    · exact absurd hmissed.2 (by rw [(hfinds hmissed.1).1]; decide)
    · exact absurd hmissed.2 (by rw [(hfinds hmissed.1).1]; decide)
    · cases hs
      refine .inr ⟨rfl, ?_⟩
      by_contra hne
      exact rowAfter_ne hne (fun hneg => (hfinds hneg).2) hsame
    · cases hs
      exact .inl ⟨_, rfl, rfl, rfl, rfl, hfree⟩

theorem exists_modify {ts : Table Transaction.id} (f : Transaction → Transaction)
    (hf : ∀ t, (f t).id = t.id) {i : Nat} (h : ∃ t ∈ ts, t.id = i) :
    ∃ t ∈ ts.modify id f hf, t.id = i := by
  obtain ⟨t, ht, hi⟩ := h
  by_cases hid : t.id = id
  · exact ⟨f t, Table.mem_modify.mpr (.inr ⟨t, Table.find_eq_some.mpr ⟨ht, hid⟩, rfl⟩),
      (hf t).trans hi⟩
  · exact ⟨t, Table.mem_modify.mpr (.inl ⟨ht, hid⟩), hi⟩

theorem wait_sound (h : Sound initcap s ideal) (hs : wait s id = some s') :
    Sound initcap s' ideal := by
  obtain ⟨t, ht, hs⟩ := Option.bind_eq_some_iff.mp hs
  obtain ⟨d, -, hs⟩ := Option.bind_eq_some_iff.mp hs
  obtain ⟨v, -, hs⟩ := Option.bind_eq_some_iff.mp hs
  obtain ⟨-, hs⟩ := Option.ite_none_right_eq_some.mp hs
  cases hs
  refine { h with performs := fun t' ht' => ?_, owned := fun v hv i hi => ?_ }
  · have hin : t' ∈ s.transactions.modify id Transaction.await Transaction.await_id := ht'
    rcases Table.mem_modify.mp hin with ⟨ht', -⟩ | ⟨t, ht, rfl⟩
    · exact h.performs t' ht'
    · have ht := h.performs t (Table.find_eq_some.mp ht).1
      exact ⟨ht.own, ht.touched⟩
  · exact exists_modify Transaction.await Transaction.await_id (h.owned v hv i hi)

theorem visible_eq (h : Sound initcap s ideal) {t : Transaction} (ht : t ∈ s.transactions)
    {key : RollupKey} (hfree : ∀ w ∈ s.held, w.at_ = key → w.owner = .transaction t.id) :
    s.visible (.transaction t.id) key = (performDeltas s.db.rollups t.performed).find key := by
  have hperforms := h.performs t ht
  unfold State.visible
  cases hf : s.held.find key with
  | none =>
    exact (hperforms.untouched fun v hv hat => absurd hat (Table.find_eq_none.mp hf v hv)).symm
  | some v =>
    obtain ⟨hv, hat⟩ := Table.find_eq_some.mp hf
    have howner := hfree v hv hat
    dsimp only
    rw [if_pos howner, ← hat]
    exact hperforms.own v hv howner

theorem visible_zero (h : Sound initcap s ideal) {owner : Owner} {key : RollupKey} {row : Rollup}
    (hrow : s.visible owner key = some row) (hzero : row.count = 0) :
    IsRegressed row.key := by
  unfold State.visible at hrow
  split at hrow
  · rename_i v hv
    split_ifs at hrow
    exact h.heldZero v (Table.find_eq_some.mp hv).1 row hrow hzero
  · exact h.zero row (Table.find_eq_some.mp hrow).1 hzero

theorem mem_advance {t : Transaction} : t ∈ (s.advance id).transactions ↔
    (t ∈ s.transactions ∧ t.id ≠ id) ∨ ∃ u, s.transactions.find id = some u ∧ t = u.advance := by
  have hmem : t ∈ s.transactions.modify id Transaction.advance Transaction.advance_id ↔ _ :=
    Table.mem_modify
  exact hmem

theorem perform_sound (h : Sound initcap s ideal) (hc : Undisturbed s (.perform id))
    (hs : perform s id = some s') : Sound initcap s' ideal := by
  obtain ⟨t, d, ht, hd, hcases⟩ := perform_eq_some hc hs
  obtain ⟨hin, rfl⟩ := Table.find_eq_some.mp ht
  have hperforms := h.performs t hin
  have hadvance : t.advance.performed = t.performed ++ [d] := by
    rw [Transaction.advance, hd]
    rfl
  rcases hcases with ⟨v, rfl, hat, howner, hrow, hfree⟩ | ⟨rfl, hd⟩
  · rw [← hat] at hrow hfree
    have hfree' : ∀ w ∈ s.held, w.at_ = v.at_ → w.owner = v.owner := fun w hw heq =>
      (hfree w hw heq).trans howner.symm
    refine { h with
      heldZero := fun w hw row hw' hzero => ?_, performs := fun t' ht' => ?_
      owned := fun w hw i hi => ?_, repairing := fun r hr => ?_, repairs := fun hr w hw => ?_ }
    · rcases Versions.mem_write.mp hw with rfl | ⟨hw, -⟩
      · exact visible_zero h (rowAfter_count (hrow.symm.trans hw') hzero) hzero
      · exact h.heldZero w hw row hw' hzero
    · rcases mem_advance.mp ht' with ⟨ht', hne⟩ | ⟨t₀, ht₀, rfl⟩
      · refine (h.performs t' ht').write (fun heq => hne ?_) hfree'
        rw [howner] at heq
        exact (Owner.transaction.inj heq).symm
      · cases ht.symm.trans ht₀
        exact hperforms.perform hat howner _ rfl hadvance (visible_eq h hin hfree ▸ hrow)
    · refine exists_modify Transaction.advance Transaction.advance_id ?_
      rcases Versions.mem_write.mp hw with rfl | ⟨hw, -⟩
      · exact ⟨t, hin, Owner.transaction.inj (howner.symm.trans hi)⟩
      · exact h.owned w hw i hi
    · exact (h.repairing r hr).write (by rw [howner]; nofun) hfree'
    · rcases Versions.mem_write.mp hw with rfl | ⟨hw, -⟩
      · rw [howner]
        nofun
      · exact h.repairs hr w hw
  · refine { h with performs := fun t' ht' => ?_, owned := fun v hv i hi => ?_ }
    · rcases mem_advance.mp ht' with ⟨ht', -⟩ | ⟨t₀, ht₀, rfl⟩
      · exact h.performs t' ht'
      · cases ht.symm.trans ht₀
        exact hperforms.skip hd _ rfl hadvance
    · exact exists_modify Transaction.advance Transaction.advance_id (h.owned v hv i hi)

theorem abort_sound (h : Sound initcap s ideal) (hs : abort s id = some s') :
    Sound initcap s' ideal := by
  obtain ⟨t, ht, hs⟩ := Option.bind_eq_some_iff.mp hs
  cases hs
  obtain ⟨-, rfl⟩ := Table.find_eq_some.mp ht
  refine { h with
    heldZero := fun v hv => h.heldZero v (Table.mem_deleteWhere.mp hv).1
    performs := fun t' ht' => ?_, owned := fun v hv i hi => ?_
    repairing := fun r hr => (h.repairing r hr).drop nofun
    repairs := fun hr v hv => h.repairs hr v (Table.mem_deleteWhere.mp hv).1 }
  · obtain ⟨ht', hne⟩ := Table.mem_delete.mp ht'
    exact (h.performs t' ht').drop fun heq => hne (Owner.transaction.inj heq).symm
  · obtain ⟨hv, hne⟩ := Table.mem_deleteWhere.mp hv
    obtain ⟨t', ht', rfl⟩ := h.owned v hv i hi
    refine ⟨t', Table.mem_delete.mpr ⟨ht', fun heq => hne ?_⟩, rfl⟩
    rw [hi, heq]

/-! ## Statements of the repair -/

/-- The repair has counted what is committed. -/
theorem Sound.count (h : Sound initcap s ideal) (hnone : s.repair = none) {rows : List Rollup}
    (hcounted : Recounted rows ideal day) :
    Sound initcap { s with repair := some ⟨day, rows, none⟩ } ideal := by
  have hfree := h.repairs hnone
  refine { h with repairing := fun r hr => ?_, repairs := nofun }
  cases hr
  refine ⟨hcounted.nodup, hcounted.onDay, hcounted.zero, nofun,
    fun v hv ho => absurd ho (hfree v hv), fun v hv ho => absurd ho (hfree v hv),
    fun key hkey => ?_, fun key hday hkey => ?_⟩
  · exact hcounted.find key (not_not.mp fun hne => hkey (.inl hne))
  · rcases hkey with hne | ⟨keys, hkeys, -⟩
    · exact absurd hday hne
    · cases hkeys

theorem beginRepair_sound (h : Sound initcap s ideal) (hs : beginRepair initcap s day = some s') :
    Sound initcap s' ideal := by
  obtain ⟨hnone, hs⟩ := Option.ite_none_left_eq_some.mp hs
  have hcount := h.count (by simpa using hnone) (recounted h.accounted day)
  rwa [Option.some.inj hs] at hcount

theorem beginDelete_sound (h : Sound initcap s ideal) (hs : beginDelete s = some s') :
    Sound initcap s' ideal := by
  obtain ⟨r, hr, hs⟩ := Option.bind_eq_some_iff.mp hs
  obtain ⟨hnone, hs⟩ := Option.ite_none_left_eq_some.mp hs
  cases hs
  have hnone : r.pending = none := by simpa using hnone
  have hrepairing := h.repairing r hr
  have hall : ∀ key, key.day = r.day → ¬r.passed key := fun key hday hkey => by
    rcases hkey with hne | ⟨keys, hkeys, -⟩
    · exact hne hday
    · rw [hnone] at hkeys
      cases hkeys
  have hfree : ∀ v ∈ s.held, v.owner ≠ .repair := fun v hv ho => by
    obtain ⟨hday, hpassed⟩ := hrepairing.heldDay v hv ho
    exact hall _ hday hpassed
  have hkeys : ∀ key, key ∈ (s.db.stored r.day).map Row.key ↔
      key.day = r.day ∧ (s.db.rollups.find key).isSome := fun key => by
    rw [List.mem_map, Option.isSome_iff_exists]
    constructor
    · rintro ⟨row, hrow, rfl⟩
      obtain ⟨hrow, hday⟩ := List.mem_filter.mp hrow
      exact ⟨of_decide_eq_true hday, row, Table.find_eq_some.mpr ⟨hrow, rfl⟩⟩
    · rintro ⟨hday, row, hfind⟩
      obtain ⟨hrow, rfl⟩ := Table.find_eq_some.mp hfind
      exact ⟨row, List.mem_filter.mpr ⟨hrow, decide_eq_true hday⟩, rfl⟩
  refine { h with repairing := fun r' hr' => ?_, repairs := nofun }
  cases hr'
  refine ⟨hrepairing.nodup, hrepairing.onDay, hrepairing.zero, fun keys hk key hkey => ?_,
    fun v hv ho => absurd ho (hfree v hv), fun v hv ho => absurd ho (hfree v hv),
    fun key hkey => ?_, fun key hday hkey _ => ?_⟩
  · cases hk
    exact ((hkeys key).mp hkey).1
  · exact hrepairing.due key (hall key (not_not.mp fun hne => hkey (.inl hne)))
  · rcases hkey with hne | ⟨keys, hk, hkey⟩
    · exact absurd hday hne
    · cases hk
      have habsent : s.db.rollups.find key = none := by
        by_contra hne
        exact hkey ((hkeys key).mpr ⟨hday, Option.isSome_iff_ne_none.mpr hne⟩)
      rw [hrepairing.due key (hall key hday), ← h.rows, habsent]
      rfl

theorem abortRepair_sound (h : Sound initcap s ideal) (hs : abortRepair s = some s') :
    Sound initcap s' ideal := by
  obtain ⟨r, -, hs⟩ := Option.bind_eq_some_iff.mp hs
  cases hs
  refine { h with
    heldZero := fun v hv => h.heldZero v (Table.mem_deleteWhere.mp hv).1
    performs := fun t ht => (h.performs t ht).drop nofun
    owned := fun v hv => h.owned v (Table.mem_deleteWhere.mp hv).1
    repairing := nofun
    repairs := fun _ v hv => (Table.mem_deleteWhere.mp hv).2 }

/-- The repair writes a row that no transaction has written. -/
theorem Sound.writeRepair (h : Sound initcap s ideal) {r : Repair}
    {v : Version (Row.key : Rollup → RollupKey) Owner} (ho : v.owner = .repair)
    (hzero : ∀ row ∈ v.row, row.count = 0 → IsRegressed row.key)
    (hfree : ∀ w ∈ s.held, w.at_ = v.at_ → w.owner = .repair)
    (hrepairing : Repairing (s.held.write v) r ideal) :
    Sound initcap ({ s with repair := some r }.write v) ideal where
  accounted := h.accounted
  rows := h.rows
  zero := h.zero
  heldZero w hw := by
    rcases Versions.mem_write.mp hw with rfl | ⟨hw, -⟩
    · exact hzero
    · exact h.heldZero w hw
  performs t ht := (h.performs t ht).write (by rw [ho]; nofun) fun w hw hat =>
    (hfree w hw hat).trans ho.symm
  owned w hw i hi := by
    rcases Versions.mem_write.mp hw with rfl | ⟨hw, -⟩
    · rw [ho] at hi
      cases hi
    · exact h.owned w hw i hi
  repairing r' hr' := Option.some.inj hr' ▸ hrepairing
  repairs := nofun

theorem deleteRow_sound {key : RollupKey} (h : Sound initcap s ideal)
    (hs : deleteRow s key = some s') : Sound initcap s' ideal := by
  obtain ⟨r, hr, hs⟩ := Option.bind_eq_some_iff.mp hs
  obtain ⟨keys, hkeys, hs⟩ := Option.bind_eq_some_iff.mp hs
  obtain ⟨hcond, hs⟩ := Option.ite_none_left_eq_some.mp hs
  obtain ⟨hin, hheld⟩ := not_or.mp hcond
  have hin : key ∈ keys := not_not.mp hin
  have hheld : s.held.find key = none := by simpa using hheld
  have hfree : ∀ w ∈ s.held, w.at_ ≠ key := Table.find_eq_none.mp hheld
  have hrepairing := h.repairing r hr
  have hday : key.day = r.day := hrepairing.pendingDay keys hkeys key hin
  have hdue : ¬r.passed key := by
    rintro (hne | ⟨keys', hkeys', hnot⟩)
    · exact hne hday
    · cases hkeys.symm.trans hkeys'
      exact hnot hin
  let r' : Repair := { r with pending := some (keys.filter (· ≠ key)) }
  have hpassed : ∀ k, r'.passed k ↔ r.passed k ∨ k = key := fun k => by
    have hold : r.passed k ↔ k.day ≠ r.day ∨ k ∉ keys := by
      unfold Repair.passed
      rw [hkeys]
      simp
    have hnew : r'.passed k ↔ k.day ≠ r.day ∨ k ∉ keys.filter (· ≠ key) := by
      unfold Repair.passed
      simp [r']
    rw [hold, hnew, List.mem_filter, or_assoc]
    simp [imp_iff_not_or]
  have hpendingDay : ∀ keys ∈ r'.pending, ∀ k ∈ keys, k.day = r'.day := fun keys' hkeys' k hk => by
    cases hkeys'
    exact hrepairing.pendingDay keys hkeys k (List.mem_filter.mp hk).1
  have hrest : ∀ k, ¬r'.passed k → nonzero (rowAt r'.rows k) = ideal.find k := fun k hk =>
    hrepairing.due k fun hp => hk ((hpassed k).mpr (.inl hp))
  by_cases hpresent : (s.db.rollups.find key).isSome
  · rw [if_pos hpresent] at hs
    cases hs
    refine h.writeRepair (r := r') rfl (by rintro _ ⟨⟩) (fun w hw hat => absurd hat (hfree w hw))
      ⟨hrepairing.nodup, hrepairing.onDay, hrepairing.zero, hpendingDay, fun w hw ho => ?_,
        fun w hw ho => ?_, hrest, fun k hk hp hnot => ?_⟩
    · rcases Versions.mem_write.mp hw with rfl | ⟨hw, -⟩
      · exact ⟨hday, (hpassed _).mpr (.inr rfl)⟩
      · obtain ⟨hday, hp⟩ := hrepairing.heldDay w hw ho
        exact ⟨hday, (hpassed _).mpr (.inl hp)⟩
    · rcases Versions.mem_write.mp hw with rfl | ⟨hw, -⟩
      · exact hrepairing.due key hdue
      · exact hrepairing.deleted w hw ho
    · have hne : k ≠ key := fun heq =>
        hnot _ (Versions.mem_write.mpr (.inl rfl)) heq.symm rfl
      refine hrepairing.passed k hk (((hpassed k).mp hp).resolve_right hne) fun w hw hat => ?_
      exact hnot w (Versions.mem_write.mpr (.inr ⟨hw, hfree w hw⟩)) hat
  · rw [if_neg hpresent] at hs
    cases hs
    refine { h with repairing := fun r'' hr'' => ?_, repairs := by rintro ⟨⟩ }
    obtain rfl := Option.some.inj hr''
    refine ⟨hrepairing.nodup, hrepairing.onDay, hrepairing.zero, hpendingDay, fun w hw ho => ?_,
      hrepairing.deleted, hrest, fun k hk hp hnot => ?_⟩
    · obtain ⟨hday, hp⟩ := hrepairing.heldDay w hw ho
      exact ⟨hday, (hpassed _).mpr (.inl hp)⟩
    · rcases (hpassed k).mp hp with hp | rfl
      · exact hrepairing.passed k hk hp hnot
      · have habsent : s.db.rollups.find k = none := by simpa using hpresent
        exact (hrepairing.due k hdue).trans ((h.rows k).symm.trans (by rw [habsent]; rfl))

/-- The next row of the repair, on a key that has no other row. -/
theorem Sound.insert (h : Sound initcap s ideal) {r : Repair} {row : Rollup} {rest : List Rollup}
    {v : Version (Row.key : Rollup → RollupKey) Owner} (hr : s.repair = some r)
    (hpending : r.pending = some []) (hrows : r.rows = row :: rest) (hat : v.at_ = row.key)
    (ho : v.owner = .repair) (hv : v.row = some row)
    (hfree : ∀ w ∈ s.held, w.at_ = v.at_ → w.owner = .repair)
    (hrow : nonzero (some row) = ideal.find row.key) :
    Sound initcap ({ s with repair := some { r with rows := rest } }.write v) ideal := by
  have hrepairing := h.repairing r hr
  have hnodup := hrepairing.nodup
  have hin : ∀ x, x ∈ rest → x ∈ r.rows := fun x hx => hrows ▸ List.mem_cons_of_mem row hx
  have hmem : row ∈ r.rows := hrows ▸ List.mem_cons_self
  have hpassed : ∀ k, ({ r with rows := rest } : Repair).passed k := fun k =>
    .inr ⟨[], hpending, List.not_mem_nil⟩
  have hpassed' : ∀ k, r.passed k := fun k => .inr ⟨[], hpending, List.not_mem_nil⟩
  have hother : ∀ k, k ≠ row.key → rowAt rest k = rowAt r.rows k := fun k hk => by
    rw [hrows]
    exact (List.find?_cons_of_neg (by simpa using hk.symm)).symm
  rw [hrows] at hnodup
  refine h.writeRepair ho (fun x hx hzero => ?_) hfree
    ⟨(List.nodup_cons.mp hnodup).2, fun x hx => hrepairing.onDay x (hin x hx),
      fun x hx => hrepairing.zero x (hin x hx), hrepairing.pendingDay, fun w hw ho => ?_,
      fun w hw ho => ?_, fun k hk => absurd (hpassed k) hk, fun k hk _ hnot => ?_⟩
  · rw [hv] at hx
    cases hx
    exact hrepairing.zero row hmem hzero
  · rcases Versions.mem_write.mp hw with rfl | ⟨hw, -⟩
    · rw [hat]
      exact ⟨hrepairing.onDay row hmem, hpassed _⟩
    · exact ⟨(hrepairing.heldDay w hw ho).1, hpassed _⟩
  · rcases Versions.mem_write.mp hw with rfl | ⟨hw, hne⟩
    · rw [hv, hat]
      exact hrow
    · dsimp only
      rw [hother _ (hat ▸ hne)]
      exact hrepairing.deleted w hw ho
  · have hne : k ≠ row.key := fun heq =>
      hnot v (Versions.mem_write.mpr (.inl rfl)) (hat.trans heq.symm) ho
    dsimp only
    rw [hother k hne]
    refine hrepairing.passed k hk (hpassed' k) fun w hw hw' => ?_
    exact hnot w (Versions.mem_write.mpr (.inr ⟨hw, by rwa [hat, hw']⟩)) hw'

theorem insertRow_sound (h : Sound initcap s ideal) (hs : insertRow s = some s') :
    Sound initcap s' ideal := by
  obtain ⟨r, hr, hs⟩ := Option.bind_eq_some_iff.mp hs
  obtain ⟨keys, hkeys, hs⟩ := Option.bind_eq_some_iff.mp hs
  obtain ⟨hnil, hs⟩ := Option.ite_none_left_eq_some.mp hs
  obtain ⟨row, hrow, hs⟩ := Option.bind_eq_some_iff.mp hs
  have hpending : r.pending = some [] := not_not.mp hnil ▸ hkeys
  obtain ⟨rest, hrows⟩ : ∃ rest, r.rows = row :: rest := by
    cases hl : r.rows with
    | nil =>
      rw [hl] at hrow
      cases hrow
    | cons x rest =>
      rw [hl] at hrow
      cases hrow
      exact ⟨rest, rfl⟩
  have hat : rowAt r.rows row.key = some row := by
    rw [hrows]
    exact List.find?_cons_of_pos (by simp)
  have hrepairing := h.repairing r hr
  rw [hrows] at hs
  dsimp only [List.tail_cons] at hs
  split at hs
  · rename_i v hv
    obtain ⟨hin, hkey⟩ := Table.find_eq_some.mp hv
    split_ifs at hs with ho hsome
    · exact abortRepair_sound h hs
    · cases hs
      have hnone : v.row = none := by simpa using hsome
      refine h.insert hr hpending hrows rfl rfl rfl (fun w hw heq => ?_) ?_
      · have hw := Table.find_eq_some.mpr ⟨hw, heq⟩
        exact Option.some.inj (hw.symm.trans hv) ▸ ho
      · have hdeleted := hrepairing.deleted v hin ho
        rw [hnone, Option.none_or, hkey, hat] at hdeleted
        exact hdeleted
  · rename_i hv
    have hfree := Table.find_eq_none.mp hv
    split_ifs at hs with hsome
    · exact abortRepair_sound h hs
    · cases hs
      have habsent : s.db.rollups.find row.key = none := by simpa using hsome
      refine h.insert hr hpending hrows rfl rfl rfl (fun w hw heq => absurd heq (hfree w hw)) ?_
      have hday := hrepairing.onDay row (hrows ▸ List.mem_cons_self)
      have hpassed := hrepairing.passed row.key hday (.inr ⟨[], hpending, List.not_mem_nil⟩)
        fun w hw heq => absurd heq (hfree w hw)
      rw [hat] at hpassed
      rw [hpassed, ← h.rows, habsent]
      rfl

/-! ## Commits -/

/-- The committed row of a key after an owner's rows are committed. -/
theorem find_release (s : State) (owner : Owner) (key : RollupKey) :
    (s.release owner).db.rollups.find key = match s.held.find key with
      | some v => if v.owner = owner then v.row else s.db.rollups.find key
      | none => s.db.rollups.find key :=
  (find_installAll_filter s.db.rollups s.held (fun v => v.owner = owner) key).trans
    (by cases s.held.find key <;> rfl)

theorem mem_release {owner : Owner} {t : Transaction} : t ∈ (s.release owner).transactions ↔
    ∃ u ∈ s.transactions, u.released (s.replaced owner) = t := by
  have hmem : t ∈ s.transactions.updateAll (Transaction.released (s.replaced owner))
      (Transaction.released_id _) ↔ _ := Table.mem_updateAll
  exact hmem

theorem release_zero (h : Sound initcap s ideal) (owner : Owner) :
    ∀ row ∈ (s.release owner).db.rollups, row.count = 0 →
      IsRegressed row.key := by
  intro row hrow hzero
  have hfind := Table.find_eq_some.mpr ⟨hrow, rfl⟩
  rw [find_release] at hfind
  split at hfind
  · rename_i v hv
    split_ifs at hfind
    · exact h.heldZero v (Table.find_eq_some.mp hv).1 row hfind hzero
    · exact h.zero row (Table.find_eq_some.mp hfind).1 hzero
  · exact h.zero row (Table.find_eq_some.mp hfind).1 hzero

theorem released_performs (h : Sound initcap s ideal) {owner : Owner} {t : Transaction}
    (ht : t ∈ (s.release owner).transactions) (ho : owner ≠ .transaction t.id) :
    Performs (s.release owner).db.rollups (s.release owner).held t := by
  obtain ⟨u, hu, rfl⟩ := mem_release.mp ht
  have hrelease := (h.performs u hu).release ho
  exact ⟨hrelease.own, hrelease.touched⟩

theorem released_owned (h : Sound initcap s ideal) {owner : Owner} {i : Nat}
    {v : Version (Row.key : Rollup → RollupKey) Owner} (hv : v ∈ (s.release owner).held)
    (hi : v.owner = .transaction i) : ∃ t ∈ (s.release owner).transactions, t.id = i := by
  obtain ⟨t, ht, hid⟩ := h.owned v (Table.mem_deleteWhere.mp hv).1 i hi
  exact ⟨_, mem_release.mpr ⟨t, ht, rfl⟩, hid⟩

theorem commitRepair_sound (h : Sound initcap s ideal) (hs : commitRepair s = some s') :
    Sound initcap s' ideal := by
  obtain ⟨r, hr, hs⟩ := Option.bind_eq_some_iff.mp hs
  obtain ⟨⟨hpending, hrows⟩, hs⟩ := Option.ite_none_right_eq_some.mp hs
  cases hs
  have hrepairing := h.repairing r hr
  refine ⟨h.accounted, fun key => ?_, release_zero h .repair,
    fun v hv => h.heldZero v (Table.mem_deleteWhere.mp hv).1,
    fun t ht => released_performs h ht nofun, fun v hv i hi => released_owned h hv hi, nofun,
    fun _ v hv => (Table.mem_deleteWhere.mp hv).2⟩
  dsimp only
  rw [find_release]
  cases hf : s.held.find key with
  | none => exact h.rows key
  | some v =>
    obtain ⟨hv, hat⟩ := Table.find_eq_some.mp hf
    dsimp only
    split_ifs with ho
    · have hdeleted := hrepairing.deleted v hv ho
      rw [hrows, rowAt, List.find?_nil, Option.or_none, hat] at hdeleted
      exact hdeleted
    · exact h.rows key

theorem mem_replaced {owner : Owner} {key : RollupKey} (h : key ∈ s.replaced owner) :
    ∃ v ∈ s.held, v.owner = owner ∧ v.at_ = key := by
  obtain ⟨v, hv, rfl⟩ := List.mem_map.mp h
  obtain ⟨hv, ho⟩ := List.mem_filter.mp (List.mem_filter.mp hv).1
  exact ⟨v, hv, of_decide_eq_true ho, rfl⟩

/-- A transaction commits that has written no row which the repair is still to delete. -/
theorem Repairing.commit {r : Repair} {t : Transaction} (hr : Repairing s.held r ideal)
    (h : Sound initcap s ideal) (ht : t ∈ s.transactions)
    (hpassed : ∀ v ∈ s.held.rows, v.owner = .transaction t.id → r.passed v.at_) :
    Repairing (s.release (.transaction t.id)).held
      (r.released (s.replaced (.transaction t.id))) (performDeltas ideal t.performed) := by
  refine hr.congr rfl rfl (fun keys hkeys key hkey => ?_) (fun key => ?_) (fun v ho => ?_)
    fun key hkey => ?_
  · obtain ⟨keys, hk, rfl⟩ := Option.map_eq_some_iff.mp hkeys
    exact hr.pendingDay keys hk key (List.mem_filter.mp hkey).1
  · constructor
    · rintro (hne | ⟨keys, hkeys, hnot⟩)
      · exact .inl hne
      · obtain ⟨keys, hk, rfl⟩ := Option.map_eq_some_iff.mp hkeys
        by_cases hin : key ∈ keys
        · have hreplaced : key ∈ s.replaced (.transaction t.id) := by
            by_contra hout
            exact hnot (List.mem_filter.mpr ⟨hin, decide_eq_true hout⟩)
          obtain ⟨v, hv, ho, rfl⟩ := mem_replaced hreplaced
          exact hpassed v hv ho
        · exact .inr ⟨keys, hk, hin⟩
    · rintro (hne | ⟨keys, hkeys, hnot⟩)
      · exact .inl hne
      · exact .inr ⟨_, Option.map_eq_some_iff.mpr ⟨keys, hkeys, rfl⟩,
          fun hin => hnot (List.mem_filter.mp hin).1⟩
  · refine Table.mem_deleteWhere.trans (and_iff_left fun heq => ?_)
    rw [ho] at heq
    cases heq
  · refine find_performDeltas_of_untouched fun d hd hne heq => ?_
    obtain ⟨v, hv, hat, ho⟩ := (h.performs t ht).touched d hd hne
    rcases hkey with hdue | ⟨w, hw, hw', hrepair⟩
    · exact hdue (heq ▸ hat ▸ hpassed v hv ho)
    · have hvw : v = w := Table.eq_of_key_eq hv hw (hat.trans (heq.trans hw'.symm))
      rw [hvw, hrepair] at ho
      cases ho

theorem commit_sound (h : Sound initcap s ideal) (hc : Undisturbed s (.commit id))
    (hs : commit initcap s id = some s') : ∃ ideal', Sound initcap s' ideal' := by
  obtain ⟨t, ht, hs⟩ := Option.bind_eq_some_iff.mp hs
  obtain ⟨-, hs⟩ := Option.ite_none_left_eq_some.mp hs
  obtain ⟨⟨tables, deltas⟩, heffects, hs⟩ := Option.bind_eq_some_iff.mp hs
  obtain ⟨hdeltas, hs⟩ := Option.ite_none_right_eq_some.mp hs
  cases hs
  obtain ⟨hin, rfl⟩ := Table.find_eq_some.mp ht
  obtain ⟨hdistinct, hpassed⟩ := hc t ht
  have hperforms := h.performs t hin
  have haccounted := effects_accounted h.accounted hdistinct heffects
  rw [hdeltas] at haccounted
  have hfind : ∀ key, (s.release (.transaction t.id)).db.rollups.find key =
      (performDeltas s.db.rollups t.performed).find key := fun key => by
    rw [find_release]
    cases hf : s.held.find key with
    | none =>
      exact (hperforms.untouched fun v hv hat => absurd hat (Table.find_eq_none.mp hf v hv)).symm
    | some v =>
      obtain ⟨hv, hat⟩ := Table.find_eq_some.mp hf
      dsimp only
      split_ifs with ho
      · rw [← hat]
        exact hperforms.own v hv ho
      · refine (hperforms.untouched fun w hw hat' => ?_).symm
        have hw := Table.find_eq_some.mpr ⟨hw, hat'⟩
        cases hf.symm.trans hw
        exact ho
  refine ⟨performDeltas ideal t.performed, haccounted, fun key => ?_, release_zero h _,
    fun v hv => h.heldZero v (Table.mem_deleteWhere.mp hv).1, fun u hu => ?_,
    fun v hv i hi => ?_, fun r' hr' => ?_, fun hr v hv => ?_⟩
  · have hideal : ∀ {ideal : Rollups} {tables : Tables}, Accounted initcap tables ideal →
        ∀ key, nonzero (ideal.find key) = ideal.find key := fun ha key =>
      nonzero_eq_self fun row hrow => ha.count_ne_zero (Table.find_eq_some.mp hrow).1
    have hrows : ∀ key, nonzero (s.db.rollups.find key) = nonzero (ideal.find key) := fun key => by
      rw [h.rows, hideal h.accounted]
    dsimp only
    rw [hfind, nonzero_performDeltas hrows, hideal haccounted]
  · obtain ⟨hu, hne⟩ := Table.mem_delete.mp hu
    exact released_performs h hu fun heq => hne (Owner.transaction.inj heq).symm
  · obtain ⟨u, hu, hid⟩ := released_owned h hv hi
    refine ⟨u, Table.mem_delete.mpr ⟨hu, fun heq => ?_⟩, hid⟩
    exact (Table.mem_deleteWhere.mp hv).2 (by rw [hi, ← hid, heq])
  · obtain ⟨r, hr, rfl⟩ := Option.map_eq_some_iff.mp hr'
    exact (h.repairing r hr).commit h hin (hpassed r hr)
  · exact h.repairs (Option.map_eq_none_iff.mp hr) v (Table.mem_deleteWhere.mp hv).1

/-! ## Runs -/

theorem step_sound {move : Move} (h : Sound initcap s ideal) (hc : Undisturbed s move)
    (hs : step initcap s move = some s') : ∃ ideal', Sound initcap s' ideal' := by
  cases move with
  | begin_ id action deltas => exact ⟨ideal, begin_sound h hs⟩
  | perform id => exact ⟨ideal, perform_sound h hc hs⟩
  | wait id => exact ⟨ideal, wait_sound h hs⟩
  | commit id => exact commit_sound h hc hs
  | abort id => exact ⟨ideal, abort_sound h hs⟩
  | beginRepair day => exact ⟨ideal, beginRepair_sound h hs⟩
  | beginDelete => exact ⟨ideal, beginDelete_sound h hs⟩
  | deleteRow key => exact ⟨ideal, deleteRow_sound h hs⟩
  | insertRow => exact ⟨ideal, insertRow_sound h hs⟩
  | commitRepair => exact ⟨ideal, commitRepair_sound h hs⟩
  | abortRepair => exact ⟨ideal, abortRepair_sound h hs⟩

theorem sound_of_reachable
    (h : Reachable (restrict (step initcap) Undisturbed) (fun _ => True) State.init s) :
    ∃ ideal, Sound initcap s ideal := by
  refine h.invariant (fun s => ∃ ideal, Sound initcap s ideal) ⟨_, sound_init⟩
    fun s a s' _ hi hs _ => ?_
  obtain ⟨ideal, hi⟩ := hi
  obtain ⟨hc, hs⟩ := restrict_eq_some.mp hs
  exact step_sound hi hc hs

theorem sum_rowAt {rows : List Rollup} (h : (rows.map Row.key).Nodup) (key : RollupKey) :
    ((rows.filter fun row => row.key = key).map Row.count).sum =
      ((rowAt rows key).map Row.count).getD 0 := by
  induction rows with
  | nil => rfl
  | cons row rows ih =>
    obtain ⟨hrow, hrows⟩ := List.nodup_cons.mp h
    by_cases hk : row.key = key
    · have hrest : rows.filter (fun r => r.key = key) = [] :=
        List.filter_eq_nil_iff.mpr fun r hr heq => hrow
          (List.mem_map.mpr ⟨r, hr, (of_decide_eq_true heq).trans hk.symm⟩)
      rw [List.filter_cons_of_pos (by simpa using hk), hrest, rowAt,
        List.find?_cons_of_pos (by simpa using hk)]
      rfl
    · rw [List.filter_cons_of_neg (by simpa using hk), rowAt,
        List.find?_cons_of_neg (by simpa using hk)]
      exact ih hrows

theorem count_nonzero (row : Option Rollup) :
    ((nonzero row).map Row.count).getD 0 = (row.map Row.count).getD 0 := by
  cases row with
  | none => rfl
  | some r =>
    by_cases hzero : r.count = 0
    · rw [nonzero, Option.filter_some_neg (by simpa using hzero)]
      exact hzero.symm
    · rw [nonzero_eq_self fun r' hr' => Option.some.inj hr' ▸ hzero]

theorem Sound.storedCount_eq (h : Sound initcap s ideal) (key : RollupKey) :
    storedCount s.db key = recountedCount initcap s.db key := by
  have hcounted := recounted h.accounted key.day
  rw [storedCount, recountedCount, sum_rowAt hcounted.nodup, ← count_nonzero, h.rows,
    ← hcounted.find key rfl, count_nonzero]

theorem Sound.exact (h : Sound initcap s ideal) (hr : ∃ i ∈ s.db.issues, i.regressedOn day) :
    s.db.Exact initcap day := by
  have hexact := (h.accounted.exact_iff day).mpr hr
  have hregressed : nonzero (s.db.rollups.find (regressedRow day).1) ≠ none := by
    have hcounted : leftRow ⟨⟨day, .issueRegressed, "all".toList⟩, "Regressed issues".toList,
        (s.db.issues.rows.filter fun i => i.regressedOn day).length⟩ ∈ s.db.recount initcap day :=
      List.mem_map_of_mem (List.mem_append_right _ (List.mem_singleton_self _))
    have hin := (List.mem_filter.mp (hexact.mem_iff.mpr hcounted)).1
    have hfind : ideal.find (regressedRow day).1 = some _ := Table.find_eq_some.mpr ⟨hin, rfl⟩
    rw [h.rows, hfind]
    exact Option.some_ne_none _
  have hstored : ∀ row, row ∈ s.db.rollups.rows.filter (fun row => row.key.day = day) ↔
      row ∈ ideal.rows.filter fun row => row.key.day = day := fun row => by
    simp only [List.mem_filter, decide_eq_true_eq]
    refine and_congr_left fun hday => ?_
    have hideal : row ∈ ideal.rows ↔ nonzero (s.db.rollups.find row.key) = some row := by
      rw [h.rows, Table.find_eq_some]
      exact (and_iff_left rfl).symm
    rw [hideal]
    constructor
    · intro hrow
      have hfind : s.db.rollups.find row.key = some row := Table.find_eq_some.mpr ⟨hrow, rfl⟩
      rw [hfind]
      refine nonzero_eq_self fun r hr => Option.some.inj hr ▸ fun hzero => hregressed ?_
      have hkey : row.key = (regressedRow day).1 := hday ▸ h.zero row hrow hzero
      rw [← hkey, hfind]
      exact Option.filter_some_neg (by simpa using hzero)
    · intro hrow
      exact (Table.find_eq_some.mp (Option.filter_eq_some_iff.mp hrow).1).1
  have hperm : (s.db.stored day).Perm (ideal.rows.filter fun row => row.key.day = day) :=
    (List.perm_ext_iff_of_nodup
      (.of_map _ (s.db.rollups.unique.sublist (List.filter_sublist.map _)))
      (.of_map _ (ideal.unique.sublist (List.filter_sublist.map _)))).mpr hstored
  exact hperm.trans hexact

/-- No increment and no decrement is lost or counted twice. -/
theorem counts_of_reachable
    (h : Reachable (restrict (step initcap) Undisturbed) (fun _ => True) State.init s) :
    (∀ key, storedCount s.db key = recountedCount initcap s.db key) ∧
      ∀ day, (∃ i ∈ s.db.issues, i.regressedOn day) → s.db.Exact initcap day := by
  obtain ⟨ideal, hsound⟩ := sound_of_reachable h
  exact ⟨hsound.storedCount_eq, fun day hr => hsound.exact hr⟩

def storedEvent (id : Uuid) : Event := ⟨id, 0, .stored, none, none⟩

def ingestDeltas (id : Uuid) : List Delta :=
  insertCrashEventRollups asciiInitcap .init (storedEvent id)

def quarantineDeltas : List Delta :=
  updateCrashEventRollups asciiInitcap .init (storedEvent 1)
    { storedEvent 1 with processingState := .quarantined }

def dayKeys : List RollupKey :=
  (updateIssueRollups none (seenIssue .regressed) ++ ingestDeltas 1).map fun d => d.key.left

/-- An issue that is regressed on the day. -/
def regressedFirst : List Move :=
  [.begin_ 7 (.changeIssues [.insert (seenIssue .regressed)])
    (updateIssueRollups none (seenIssue .regressed)), .perform 7, .perform 7, .perform 7, .commit 7]

def ingested (id : Nat) : List Move :=
  .begin_ id (.ingest id 0) (ingestDeltas id) :: List.replicate 6 (.perform id)

def deleteAll (keys : List RollupKey) : List Move := .beginDelete :: keys.map .deleteRow

/-- The second event waits for the rows that the repair has deleted. -/
def waitingRun : List Move :=
  regressedFirst ++ ingested 1 ++ [.commit 1, .beginRepair 0] ++ deleteAll dayKeys ++
    [.begin_ 2 (.ingest 2 0) (ingestDeltas 2)] ++ List.replicate 9 .insertRow ++ [.commitRepair] ++
    List.replicate 6 (.perform 2) ++ [.commit 2]

/-- The event is committed between the recount and the `DELETE`. -/
def deletedRun : List Move :=
  regressedFirst ++ ingested 1 ++ [.beginRepair 0, .commit 1] ++ deleteAll dayKeys ++
    List.replicate 3 .insertRow ++ [.commitRepair]

/-- The event fails while the row that it decrements is deleted and inserted again. -/
def missedRun : List Move :=
  regressedFirst ++ ingested 1 ++ [.commit 1, .beginRepair 0] ++ deleteAll dayKeys ++
    [.begin_ 2 (.finishFailure 1 true 0) quarantineDeltas, .wait 2] ++
    List.replicate 9 .insertRow ++ [.commitRepair] ++ List.replicate 4 (.perform 2) ++ [.commit 2]

theorem counts_waitingRun : ∃ s,
    Reachable (restrict (step asciiInitcap) Undisturbed) (fun _ => True) State.init s ∧ s.Quiet ∧
      s.db.events.rows.length = 2 ∧ s.db.Exact asciiInitcap 0 := by
  have hrun : (run (restrict (step asciiInitcap) Undisturbed) (fun _ => True) State.init
      waitingRun).isSome := by
    decide +kernel
  obtain ⟨s, hs⟩ := Option.isSome_iff_exists.mp hrun
  have hreach := Reachable.of_run (.init trivial) hs
  have hend : ∀ u ∈ run (restrict (step asciiInitcap) Undisturbed) (fun _ => True) State.init
      waitingRun, u.Quiet ∧ u.db.events.rows.length = 2 ∧
        ∃ i ∈ u.db.issues.rows, i.regressedOn 0 := by
    decide +kernel
  obtain ⟨hquiet, hlength, hregressed⟩ := hend s hs
  exact ⟨s, hreach, hquiet, hlength, (counts_of_reachable hreach).2 0 hregressed⟩

/-- The committed event is not counted, and the decrement of the failed one is lost. -/
theorem not_counts_deletedRun : ¬ (∀ s, Reachable (step asciiInitcap) (fun _ => True) State.init s →
      s.Quiet → (∃ i ∈ s.db.issues, i.regressedOn 0) → s.db.Exact asciiInitcap 0) ∧
    ∃ s, Reachable (step asciiInitcap) (fun _ => True) State.init s ∧ s.Quiet ∧
      recountedCount asciiInitcap s.db ⟨0, .processingState, "stored".toList⟩ = 0 ∧
        storedCount s.db ⟨0, .processingState, "stored".toList⟩ = 1 := by
  have hdeleted : (run (step asciiInitcap) (fun _ => True) State.init deletedRun).isSome := by
    decide +kernel
  have hmissed : (run (step asciiInitcap) (fun _ => True) State.init missedRun).isSome := by
    decide +kernel
  obtain ⟨s, hs⟩ := Option.isSome_iff_exists.mp hdeleted
  obtain ⟨m, hm⟩ := Option.isSome_iff_exists.mp hmissed
  have hend : ∀ u ∈ run (step asciiInitcap) (fun _ => True) State.init deletedRun, u.Quiet ∧
      (∃ i ∈ u.db.issues.rows, i.regressedOn 0) ∧
        ¬ (u.db.stored 0).Perm (u.db.recount asciiInitcap 0) := by
    decide +kernel
  have hlost : ∀ u ∈ run (step asciiInitcap) (fun _ => True) State.init missedRun, u.Quiet ∧
      recountedCount asciiInitcap u.db ⟨0, .processingState, "stored".toList⟩ = 0 ∧
        storedCount u.db ⟨0, .processingState, "stored".toList⟩ = 1 := by
    decide +kernel
  obtain ⟨hquiet, hregressed, hnot⟩ := hend s hs
  exact ⟨fun h => hnot (h s (Reachable.of_run (.init trivial) hs) hquiet hregressed),
    m, Reachable.of_run (.init trivial) hm, hlost m hm⟩

end FaultLane.RollupRepair

import FaultLane.GroupSummary
import FaultLane.IssueRollups

set_option autoImplicit false

/-!
# The rollups of issues are recounts

Each stored rollup summarizes the ranks of the events of its group. A publication moves one
event between groups and keeps the summaries, so that a repair finds nothing to change.
-/
namespace FaultLane.Issues
open KeyedTable JobQueue Grouping GroupSummary TransitionSystem

/-! ## The ranks of a group -/

def seenAt (x : Rank) : Nat := (ofLex (ofLex x).2).1

def eventOf (x : Rank) : Uuid := (ofLex (ofLex x).2).2

def ranks (t : Table CrashEvent.id) (p : CrashEvent → Prop) [DecidablePred p] : Finset Rank :=
  ((t.rows.filter fun e => p e).map CrashEvent.rank).toFinset

section
variable {t : Table CrashEvent.id} {p : CrashEvent → Prop} [DecidablePred p]

theorem mem_ranks {x : Rank} : x ∈ ranks t p ↔ ∃ e ∈ t, p e ∧ e.rank = x := by
  simp only [ranks, List.mem_toFinset, List.mem_map, List.mem_filter, decide_eq_true_eq, and_assoc,
    Table.mem_rows]

theorem card_ranks : (ranks t p).card = (t.rows.filter fun e => p e).length := by
  have hids : ((t.rows.filter fun e => p e).map CrashEvent.id).Nodup :=
    t.unique.sublist (List.filter_sublist.map _)
  have hranks : ((t.rows.filter fun e => p e).map CrashEvent.rank).Nodup := by
    refine List.Nodup.of_map eventOf ?_
    rw [List.map_map]
    exact hids
  rw [ranks, List.toFinset_card_of_nodup hranks, List.length_map]

theorem coe_ranks : (ranks t p : Set Rank) = {x | ∃ e ∈ t.rows.filter fun e => p e, e.rank = x} := by
  ext x
  simp only [ranks, List.coe_toFinset, List.mem_map, Set.mem_ofPred_eq]

theorem image_seenAt :
    seenAt '' (ranks t p) = {n | n ∈ (t.rows.filter fun e => p e).map CrashEvent.receivedAt} := by
  ext n
  rw [coe_ranks]
  constructor
  · rintro ⟨x, ⟨e, he, rfl⟩, rfl⟩
    exact List.mem_map.mpr ⟨e, he, rfl⟩
  · intro hn
    obtain ⟨e, he, rfl⟩ := List.mem_map.mp hn
    exact ⟨e.rank, ⟨e, he, rfl⟩, rfl⟩

/-! ## Summaries and recounts -/

def Rollup.of (σ : Summary Nat Rank) : Rollup := ⟨σ.first, σ.last, σ.count, eventOf σ.best⟩

/-- The row of a group, which is there when the group has events. -/
def Summarizes (S : Finset Rank) (row : Option Rollup) : Prop :=
  (S = ∅ ∧ row = none) ∨ ∃ σ, Describes seenAt S σ ∧ row = some (Rollup.of σ)

theorem Summarizes.unique {S : Finset Rank} {row row' : Option Rollup} (h : Summarizes S row)
    (h' : Summarizes S row') : row = row' := by
  obtain ⟨hS, rfl⟩ | ⟨σ, hσ, rfl⟩ := h
  · obtain ⟨-, rfl⟩ | ⟨σ', hσ', rfl⟩ := h'
    · rfl
    · exact absurd hS hσ'.nonempty.ne_empty
  · obtain ⟨hS, rfl⟩ | ⟨σ', hσ', rfl⟩ := h'
    · exact absurd hS hσ.nonempty.ne_empty
    · rw [hσ.unique hσ']

theorem bestOf_eq_some {l : List CrashEvent} {b : Uuid} (h : bestOf l = some b) :
    ∃ m ∈ l, m.id = b ∧ ∀ x ∈ l, m.rank ≤ x.rank := by
  obtain ⟨m, hm, hb⟩ := Option.map_eq_some_iff.mp h
  have hsorted : (l.insertionSort fun a b => a.rank ≤ b.rank).Pairwise fun a b => a.rank ≤ b.rank :=
    List.pairwise_insertionSort _ l
  have hperm : (l.insertionSort fun a b => a.rank ≤ b.rank).Perm l := List.perm_insertionSort _ l
  cases hl : l.insertionSort fun a b => a.rank ≤ b.rank with
  | nil =>
    rw [hl] at hm
    cases hm
  | cons y rest =>
    rw [hl] at hm hsorted hperm
    cases hm
    refine ⟨m, hperm.subset List.mem_cons_self, hb, fun x hx => ?_⟩
    rcases List.mem_cons.mp (hperm.symm.subset hx) with rfl | hx
    · exact le_rfl
    · exact (List.pairwise_cons.mp hsorted).1 x hx

theorem bestOf_isSome {l : List CrashEvent} (h : l ≠ []) : ∃ b, bestOf l = some b := by
  have hne : (l.insertionSort fun a b => a.rank ≤ b.rank) ≠ [] := by
    intro hnil
    have hlength := List.length_insertionSort (fun a b : CrashEvent => a.rank ≤ b.rank) l
    rw [hnil] at hlength
    exact h (List.length_eq_zero_iff.mp hlength.symm)
  obtain ⟨y, rest, hl⟩ := List.exists_cons_of_ne_nil hne
  exact ⟨y.id, by rw [bestOf, hl, List.head?_cons, Option.map_some]⟩

theorem isLeast_best {b : Uuid} (h : bestOf (t.rows.filter fun e => p e) = some b) :
    ∃ x, IsLeast (ranks t p : Set Rank) x ∧ eventOf x = b := by
  obtain ⟨m, hm, hb, hle⟩ := bestOf_eq_some h
  refine ⟨m.rank, ⟨?_, ?_⟩, hb⟩
  · rw [coe_ranks]
    exact ⟨m, hm, rfl⟩
  · rw [coe_ranks]
    rintro x ⟨e, he, rfl⟩
    exact hle e he

theorem isLeast_min {n : Nat}
    (h : ((t.rows.filter fun e => p e).map CrashEvent.receivedAt).min? = some n) :
    IsLeast (seenAt '' (ranks t p)) n := by
  rw [image_seenAt]
  exact List.min?_eq_some_iff.mp h

theorem isGreatest_max {n : Nat}
    (h : ((t.rows.filter fun e => p e).map CrashEvent.receivedAt).max? = some n) :
    IsGreatest (seenAt '' (ranks t p)) n := by
  rw [image_seenAt]
  exact List.max?_eq_some_iff.mp h

theorem recount_summarizes (t : Table CrashEvent.id) (p : CrashEvent → Prop) [DecidablePred p] :
    Summarizes (ranks t p) (recount (t.rows.filter fun e => p e)) := by
  by_cases hnil : (t.rows.filter fun e => p e) = []
  · refine .inl ⟨?_, ?_⟩
    · rw [ranks, hnil, List.map_nil, List.toFinset_nil]
    · rw [hnil]
      rfl
  · have hmap : (t.rows.filter fun e => p e).map CrashEvent.receivedAt ≠ [] :=
      fun h => hnil (List.map_eq_nil_iff.mp h)
    obtain ⟨first, hfirst⟩ := Option.isSome_iff_exists.mp (List.isSome_min?_of_ne_nil hmap)
    obtain ⟨last, hlast⟩ := Option.isSome_iff_exists.mp (List.isSome_max?_of_ne_nil hmap)
    obtain ⟨b, hb⟩ := bestOf_isSome hnil
    obtain ⟨x, hx, rfl⟩ := isLeast_best hb
    refine .inr ⟨⟨first, last, _, x⟩, ⟨isLeast_min hfirst, isGreatest_max hlast, card_ranks, hx⟩, ?_⟩
    rw [recount, hfirst, hlast, hb]
    rfl

/-! ## Groups as an event changes -/

theorem ranks_congr {t' : Table CrashEvent.id} {q : CrashEvent → Prop} [DecidablePred q]
    (h : ∀ x, (∃ e ∈ t, p e ∧ e.rank = x) ↔ ∃ e ∈ t', q e ∧ e.rank = x) :
    ranks t p = ranks t' q := by
  ext x
  rw [mem_ranks, mem_ranks]
  exact h x

end

section
variable {s : State} {e e' : CrashEvent} {p : CrashEvent → Prop} [DecidablePred p]

theorem mem_setEvent {x : CrashEvent} (he : e ∈ s.events) (hid : e'.id = e.id) :
    x ∈ (s.setEvent e').events ↔ (x ∈ s.events ∧ x.id ≠ e.id) ∨ x = e' := by
  simp only [State.setEvent, Table.mem_modify]
  constructor
  · rintro (⟨hx, hne⟩ | ⟨a, ha, rfl⟩)
    · exact .inl ⟨hx, hid ▸ hne⟩
    · rw [(Table.find_eq_some.mp ha).2]
      exact .inr rfl
  · rintro (⟨hx, hne⟩ | rfl)
    · exact .inl ⟨hx, hid.symm ▸ hne⟩
    · exact .inr ⟨e, Table.find_eq_some.mpr ⟨he, hid.symm⟩, by rw [← hid]⟩

theorem rank_ne {x : CrashEvent} (h : x.id ≠ e.id) : x.rank ≠ e.rank :=
  fun heq => h (congrArg eventOf heq)

/-- An event that stays out of a group, or stays in it with its rank. -/
theorem ranks_setEvent_same (he : e ∈ s.events) (hid : e'.id = e.id) (hp : p e' ↔ p e)
    (hrank : p e → e'.rank = e.rank) : ranks (s.setEvent e').events p = ranks s.events p := by
  refine ranks_congr fun x => ?_
  constructor
  · rintro ⟨y, hy, hpy, rfl⟩
    rcases (mem_setEvent he hid).mp hy with ⟨hy, -⟩ | rfl
    · exact ⟨y, hy, hpy, rfl⟩
    · exact ⟨e, he, hp.mp hpy, (hrank (hp.mp hpy)).symm⟩
  · rintro ⟨y, hy, hpy, rfl⟩
    by_cases hye : y.id = e.id
    · obtain rfl := Table.eq_of_key_eq hy he hye
      exact ⟨e', (mem_setEvent he hid).mpr (.inr rfl), hp.mpr hpy, hrank hpy⟩
    · exact ⟨y, (mem_setEvent he hid).mpr (.inl ⟨hy, hye⟩), hpy, rfl⟩

/-- An event that joins a group. -/
theorem ranks_setEvent_join (he : e ∈ s.events) (hid : e'.id = e.id) (hout : ¬ p e) (hin : p e') :
    ranks (s.setEvent e').events p = insert e'.rank (ranks s.events p) := by
  ext x
  rw [mem_ranks, Finset.mem_insert, mem_ranks]
  constructor
  · rintro ⟨y, hy, hpy, rfl⟩
    rcases (mem_setEvent he hid).mp hy with ⟨hy, -⟩ | rfl
    · exact .inr ⟨y, hy, hpy, rfl⟩
    · exact .inl rfl
  · rintro (rfl | ⟨y, hy, hpy, rfl⟩)
    · exact ⟨e', (mem_setEvent he hid).mpr (.inr rfl), hin, rfl⟩
    · have hye : y.id ≠ e.id := by
        intro heq
        obtain rfl := Table.eq_of_key_eq hy he heq
        exact hout hpy
      exact ⟨y, (mem_setEvent he hid).mpr (.inl ⟨hy, hye⟩), hpy, rfl⟩

/-- An event that leaves a group. -/
theorem ranks_setEvent_leave (he : e ∈ s.events) (hid : e'.id = e.id) (hout : ¬ p e') :
    ranks (s.setEvent e').events p = (ranks s.events p).erase e.rank := by
  ext x
  rw [mem_ranks, Finset.mem_erase, mem_ranks]
  constructor
  · rintro ⟨y, hy, hpy, rfl⟩
    rcases (mem_setEvent he hid).mp hy with ⟨hy, hne⟩ | rfl
    · exact ⟨rank_ne hne, y, hy, hpy, rfl⟩
    · exact absurd hpy hout
  · rintro ⟨hne, y, hy, hpy, rfl⟩
    have hye : y.id ≠ e.id := by
      intro heq
      obtain rfl := Table.eq_of_key_eq hy he heq
      exact hne rfl
    exact ⟨y, (mem_setEvent he hid).mpr (.inl ⟨hy, hye⟩), hpy, rfl⟩

theorem not_mem_ranks {x : Rank} (h : ∀ m ∈ s.events, p m → m.id ≠ eventOf x) :
    x ∉ ranks s.events p := by
  intro hx
  obtain ⟨m, hm, hpm, rfl⟩ := mem_ranks.mp hx
  exact h m hm hpm rfl

end

/-! ## Rows as an event changes -/

section
variable {s : State} {e : CrashEvent} {S : Finset Rank}

theorem eq_of_event {m y : CrashEvent} (hm : m ∈ s.events) (hy : y ∈ s.events)
    (hid : y.id = eventOf m.rank) : y = m :=
  Table.eq_of_key_eq hy hm hid

/-- The best of the old representative and the new event. -/
theorem bestOf_pair {m : CrashEvent} {x : Rank} (hm : m ∈ s.events) (hx : m.rank = x)
    (he : e ∈ s.events) :
    bestOf (s.select fun y => y.id = eventOf x ∨ y.id = e.id) = some (eventOf (min x e.rank)) := by
  subst hx
  have hne : (s.select fun y => y.id = eventOf m.rank ∨ y.id = e.id) ≠ [] := by
    refine List.ne_nil_of_mem (a := e) (List.mem_filter.mpr ⟨he, ?_⟩)
    exact decide_eq_true (.inr rfl)
  obtain ⟨b, hb⟩ := bestOf_isSome hne
  obtain ⟨y, hy, rfl, hle⟩ := bestOf_eq_some hb
  have hmin : ∀ z ∈ [m, e], y.rank ≤ z.rank := by
    intro z hz
    refine hle z (List.mem_filter.mpr ?_)
    rcases List.mem_pair.mp hz with rfl | rfl
    · exact ⟨hm, decide_eq_true (.inl rfl)⟩
    · exact ⟨he, decide_eq_true (.inr rfl)⟩
  obtain ⟨hy, hkey⟩ := List.mem_filter.mp hy
  rw [hb]
  rcases of_decide_eq_true hkey with hkey | hkey
  · obtain rfl : y = m := eq_of_event hm hy hkey
    have hye : y.rank ≤ e.rank := hmin e (List.mem_cons_of_mem _ List.mem_cons_self)
    rw [min_eq_left hye]
    rfl
  · obtain rfl : y = e := Table.eq_of_key_eq hy he hkey
    have hym : y.rank ≤ m.rank := hmin m List.mem_cons_self
    rw [min_eq_right hym]
    rfl

theorem summarizes_upsert {row : Option Rollup} (h : Summarizes S row) (he : e ∈ s.events)
    (hnew : e.rank ∉ S) (hS : ∀ x ∈ S, ∃ m ∈ s.events, m.rank = x) :
    ∃ r, s.upsert e row = some r ∧ Summarizes (insert e.rank S) (some r) := by
  obtain ⟨rfl, rfl⟩ | ⟨σ, hσ, rfl⟩ := h
  · exact ⟨_, rfl, .inr ⟨_, describes_singleton seenAt e.rank, rfl⟩⟩
  · obtain ⟨m, hm, hbest⟩ := hS σ.best hσ.best.1
    have hpair := bestOf_pair hm hbest he
    refine ⟨Rollup.of (σ.add seenAt e.rank), ?_, .inr ⟨_, hσ.add hnew, rfl⟩⟩
    rw [State.upsert]
    change (bestOf (s.select fun y => y.id = eventOf σ.best ∨ y.id = e.id)).bind _ = _
    rw [hpair]
    rfl

theorem replaces_iff {m : CrashEvent} {q q' : Nat} (hq : e.quality = some q)
    (hq' : m.quality = some q') : e.replaces m = true ↔ e.rank < m.rank := by
  unfold CrashEvent.replaces CrashEvent.rank
  rw [hq, hq', decide_eq_true_iff, Prod.Lex.toLex_lt_toLex, Prod.Lex.toLex_lt_toLex]
  simp only [Option.elim_some, OrderDual.toDual_lt_toDual, WithTop.coe_lt_coe,
    OrderDual.toDual_inj, WithTop.coe_inj]

theorem takesOver_eq {i : Issue} {m : CrashEvent} {x : Rank} (hm : m ∈ s.events) (hx : m.rank = x)
    (hi : i.representative = some (eventOf x)) (hq : e.quality.isSome) (hq' : m.quality.isSome) :
    (if s.takesOver e i then some e.id else i.representative) =
      some (eventOf (min x e.rank)) := by
  subst hx
  obtain ⟨q, hq⟩ := Option.isSome_iff_exists.mp hq
  obtain ⟨q', hq'⟩ := Option.isSome_iff_exists.mp hq'
  have hfind : s.events.find (eventOf m.rank) = some m := Table.find_eq_some.mpr ⟨hm, rfl⟩
  have htakes : s.takesOver e i = e.replaces m := by
    unfold State.takesOver
    rw [hi, Option.bind_some, hfind]
  rw [htakes, hi]
  by_cases hlt : e.rank < m.rank
  · rw [if_pos ((replaces_iff hq hq').mpr hlt), min_eq_right hlt.le]
    rfl
  · rw [if_neg fun h => hlt ((replaces_iff hq hq').mp h), min_eq_left (not_lt.mp hlt)]

/-- The fields that are computed again from the events that stay. -/
theorem recomputed {t : Table CrashEvent.id} {p : CrashEvent → Prop} [DecidablePred p]
    (h : (ranks t p).Nonempty) :
    ∃ σ, Describes seenAt (ranks t p) σ ∧
      bestOf (t.rows.filter fun e => p e) = some (eventOf σ.best) ∧
      ((t.rows.filter fun e => p e).map CrashEvent.receivedAt).min? = some σ.first ∧
      ((t.rows.filter fun e => p e).map CrashEvent.receivedAt).max? = some σ.last := by
  obtain ⟨hempty, -⟩ | ⟨σ, hσ, hrow⟩ := recount_summarizes t p
  · exact absurd hempty h.ne_empty
  · obtain ⟨first, hfirst, hrow⟩ := Option.bind_eq_some_iff.mp hrow
    obtain ⟨last, hlast, hrow⟩ := Option.bind_eq_some_iff.mp hrow
    obtain ⟨best, hbest, hrow⟩ := Option.bind_eq_some_iff.mp hrow
    obtain ⟨hf, hl, -, hb⟩ := Rollup.mk.injEq .. |>.mp (Option.some.inj hrow)
    exact ⟨σ, hσ, hb ▸ hbest, hf ▸ hfirst, hl ▸ hlast⟩

/-- The row of a release that an event has left. -/
theorem summarizes_remove {issueId releaseId : Uuid} {σ : Summary Nat Rank} {a : Rank}
    (hrow : s.releases issueId releaseId = some (Rollup.of σ)) (hσ : Describes seenAt S σ)
    (ha : a ∈ S) (hleft : ranks s.events (InRelease issueId releaseId) = S.erase a) :
    ∃ row, s.removeReleaseMembership (eventOf a) issueId releaseId (seenAt a) =
      some (s.setRelease issueId releaseId row) ∧ Summarizes (S.erase a) row := by
  unfold State.removeReleaseMembership
  rw [hrow, Option.bind_eq_bind, Option.bind_some]
  by_cases hone : (Rollup.of σ).eventCount = 1
  · rw [if_pos hone]
    exact ⟨none, rfl, .inl ⟨hσ.erase_last ha hone, rfl⟩⟩
  have hpos : 0 < σ.count := hσ.card_pos
  have hcard : (S.erase a).card + 1 = S.card := Finset.card_erase_add_one ha
  have hcount : S.card = σ.count := hσ.count
  have hmany : 1 < (Rollup.of σ).eventCount := by
    have hne : σ.count ≠ 1 := hone
    change 1 < σ.count
    omega
  rw [if_neg hone, if_pos hmany]
  by_cases hkeep : (Rollup.of σ).representative ≠ eventOf a ∧
      (Rollup.of σ).firstSeenAt ≠ seenAt a ∧ (Rollup.of σ).lastSeenAt ≠ seenAt a
  · rw [if_pos hkeep]
    have hbest : a ≠ σ.best := fun h => hkeep.1 (congrArg eventOf h.symm)
    refine ⟨_, rfl, .inr ⟨{ σ with count := σ.count - 1 }, ?_, rfl⟩⟩
    exact hσ.erase ha (.inl ⟨rfl, hkeep.2.1.symm⟩) (.inl ⟨rfl, hkeep.2.2.symm⟩)
      (Nat.sub_add_cancel hpos) (.inl ⟨rfl, hbest⟩)
  rw [if_neg hkeep]
  have hrest : (ranks s.events (InRelease issueId releaseId)).Nonempty := by
    have hmany : 1 < σ.count := hmany
    rw [hleft]
    exact Finset.card_pos.mp (by omega)
  obtain ⟨σ', hσ', hbest', hfirst', hlast'⟩ := recomputed hrest
  rw [hleft] at hσ'
  have hbest : ∃ x, (if (Rollup.of σ).representative = eventOf a then
      bestOf (s.releaseMembers issueId releaseId) else some (Rollup.of σ).representative) =
        some (eventOf x) ∧
      (x = σ.best ∧ a ≠ σ.best ∨ IsLeast ((S.erase a : Finset Rank) : Set Rank) x) := by
    by_cases heq : (Rollup.of σ).representative = eventOf a
    · rw [if_pos heq]
      exact ⟨σ'.best, hbest', .inr hσ'.best⟩
    · rw [if_neg heq]
      exact ⟨σ.best, rfl, .inl ⟨rfl, fun h => heq (congrArg eventOf h.symm)⟩⟩
  obtain ⟨x, hx, hleast⟩ := hbest
  rw [hx, Option.bind_eq_bind, Option.bind_some]
  by_cases hbound : (Rollup.of σ).firstSeenAt = seenAt a ∨ (Rollup.of σ).lastSeenAt = seenAt a
  · rw [if_pos hbound]
    unfold State.releaseMembers State.select
    rw [hfirst', hlast']
    refine ⟨_, rfl, .inr ⟨⟨σ'.first, σ'.last, σ.count - 1, x⟩, ?_, rfl⟩⟩
    exact hσ.erase ha (.inr hσ'.first) (.inr hσ'.last) (Nat.sub_add_cancel hpos) hleast
  · rw [if_neg hbound]
    obtain ⟨hfirst, hlast⟩ := not_or.mp hbound
    refine ⟨_, rfl, .inr ⟨⟨σ.first, σ.last, σ.count - 1, x⟩, ?_, rfl⟩⟩
    exact hσ.erase ha (.inl ⟨rfl, Ne.symm hfirst⟩) (.inl ⟨rfl, Ne.symm hlast⟩)
      (Nat.sub_add_cancel hpos) hleast

end

/-! ## The invariant -/

/-- The rollups of the issues summarize their groups. -/
def IssuesRolled (t : Table CrashEvent.id) (issues : Table Issue.id) : Prop :=
  ∀ i ∈ issues, ∃ σ, Describes seenAt (ranks t (InIssue i.id)) σ ∧ i.rollup = some (Rollup.of σ)

/-- Every rollup summarizes its group, apart from the releases that are stale. -/
structure State.Rolled (s : State) (stale : Uuid → Uuid → Prop) : Prop where
  issues : IssuesRolled s.events s.issues
  named : ∀ e ∈ s.events, ∀ issueId, e.issue = some issueId → ∃ i ∈ s.issues, i.id = issueId
  variants : ∀ issueId v, Summarizes (ranks s.events (InVariant issueId v)) (s.variants issueId v)
  releases : ∀ issueId r, ¬ stale issueId r →
    Summarizes (ranks s.events (InRelease issueId r)) (s.releases issueId r)

def noneStale (_ _ : Uuid) : Prop := False

section
variable {s s' : State} {e e' : CrashEvent} {stale stale' : Uuid → Uuid → Prop}

theorem State.Rolled.mono (h : s.Rolled stale) (hle : ∀ i r, stale i r → stale' i r) :
    s.Rolled stale' :=
  ⟨h.issues, h.named, h.variants, fun i r hr => h.releases i r fun hs => hr (hle i r hs)⟩

theorem State.Rolled.setRelease (h : s.Rolled stale) {issueId releaseId : Uuid}
    {row : Option Rollup}
    (hrow : Summarizes (ranks s.events (InRelease issueId releaseId)) row) :
    (s.setRelease issueId releaseId row).Rolled
      fun i r => stale i r ∧ ¬ (i = issueId ∧ r = releaseId) := by
  refine ⟨h.issues, h.named, h.variants, fun i r hr => ?_⟩
  change Summarizes _ (if i = issueId ∧ r = releaseId then row else s.releases i r)
  split_ifs with heq
  · obtain ⟨rfl, rfl⟩ := heq
    exact hrow
  · exact h.releases i r fun hs => hr ⟨hs, heq⟩

theorem not_in_of_ungrouped (h : e.issue = none) (i : Uuid) (v : String) (r : Uuid) :
    ¬ InIssue i e ∧ ¬ InVariant i v e ∧ ¬ InRelease i r e := by
  refine ⟨?_, ?_, ?_⟩
  · intro hi
    exact nomatch h.symm.trans hi
  · rintro ⟨hi, -⟩
    exact nomatch h.symm.trans hi
  · rintro ⟨hi, -⟩
    exact nomatch h.symm.trans hi

/-- An event that is in no group before and after. -/
theorem State.Rolled.setUngrouped (h : s.Rolled stale) (he : e ∈ s.events) (hid : e'.id = e.id)
    (hbefore : e.issue = none) (hafter : e'.issue = none) : (s.setEvent e').Rolled stale := by
  refine ⟨fun i hi => ?_, fun x hx issueId hissue => ?_, fun i v => ?_, fun i r hr => ?_⟩
  · obtain ⟨σ, hσ, hrow⟩ := h.issues i hi
    have hout := (not_in_of_ungrouped hbefore i.id "" 0).1
    have hout' := (not_in_of_ungrouped hafter i.id "" 0).1
    refine ⟨σ, ?_, hrow⟩
    rw [ranks_setEvent_same he hid (iff_of_false hout' hout) fun hp => absurd hp hout]
    exact hσ
  · rcases (mem_setEvent he hid).mp hx with ⟨hx, -⟩ | rfl
    · exact h.named x hx issueId hissue
    · exact nomatch hafter.symm.trans hissue
  · have hout := (not_in_of_ungrouped hbefore i v 0).2.1
    have hout' := (not_in_of_ungrouped hafter i v 0).2.1
    rw [ranks_setEvent_same he hid (iff_of_false hout' hout) fun hp => absurd hp hout]
    exact h.variants i v
  · have hout := (not_in_of_ungrouped hbefore i "" r).2.2
    have hout' := (not_in_of_ungrouped hafter i "" r).2.2
    rw [ranks_setEvent_same he hid (iff_of_false hout' hout) fun hp => absurd hp hout]
    exact h.releases i r hr

theorem rank_of_grouping (hid : e'.id = e.id) (hr : e'.receivedAt = e.receivedAt)
    (hg : e'.grouping = e.grouping) : e'.rank = e.rank := by
  unfold CrashEvent.rank CrashEvent.quality
  rw [hid, hr, hg]

/-- A grouped event with a new mapping. Only its old and its new release are stale. -/
theorem State.Rolled.setMapping (h : s.Rolled noneStale) (he : e ∈ s.events) {issueId : Uuid}
    (hissue : e.issue = some issueId) (m : ReleaseMapping) :
    (s.setEvent { e with mapping := m }).Rolled fun i r =>
      i = issueId ∧ ¬ (m.release = some r ↔ e.mapping.release = some r) := by
  let e' : CrashEvent := { e with mapping := m }
  have hrank : e'.rank = e.rank := rank_of_grouping rfl rfl rfl
  have hid : e'.id = e.id := rfl
  have hsame : e'.issue = e.issue := rfl
  refine ⟨fun i hi => ?_, fun x hx j hj => ?_, fun i v => ?_, fun i r hr => ?_⟩
  · obtain ⟨σ, hσ, hrow⟩ := h.issues i hi
    refine ⟨σ, ?_, hrow⟩
    rw [ranks_setEvent_same he hid Iff.rfl fun _ => hrank]
    exact hσ
  · rcases (mem_setEvent he hid).mp hx with ⟨hx, -⟩ | rfl
    · exact h.named x hx j hj
    · exact h.named e he j (hsame ▸ hj)
  · rw [ranks_setEvent_same he hid Iff.rfl fun _ => hrank]
    exact h.variants i v
  · have hiff : InRelease i r e' ↔ InRelease i r e := by
      constructor
      · rintro ⟨hi, hm⟩
        have hi' : i = issueId := Option.some.inj (hi.symm.trans hissue)
        exact ⟨hi, (not_not.mp fun hn => hr ⟨hi', hn⟩).mp hm⟩
      · rintro ⟨hi, hm⟩
        have hi' : i = issueId := Option.some.inj (hi.symm.trans hissue)
        exact ⟨hi, (not_not.mp fun hn => hr ⟨hi', hn⟩).mpr hm⟩
    rw [ranks_setEvent_same he hid hiff fun _ => hrank]
    exact h.releases i r id

end
end FaultLane.Issues

import FaultLane.AlertDeliveries
import FaultLane.TransitionSystem
import Mathlib.Data.List.Perm.Basic
import Mathlib.Tactic.SplitIfs

set_option autoImplicit false

/-!
# Which deliveries are created, suppressed and claimed

The deliveries of a scope are numbered without gaps and alternate. A trigger is suppressed
together with its recovery, before any attempt. Claims follow the times of the deliveries and
ask for no order of the generations.
-/
namespace FaultLane.AlertDeliveries
open KeyedTable SortDedup TransitionSystem
open JobQueue (Uuid Lease)

/-! ## Generations -/

/-- Odd generations are triggers. -/
def Transition.ofGeneration (n : Nat) : Transition := .into (n % 2 = 1)

theorem ofGeneration_eq_triggered {n : Nat} :
    Transition.ofGeneration n = .triggered ↔ n % 2 = 1 := by
  unfold Transition.ofGeneration
  by_cases h : n % 2 = 1 <;> simp [h, Transition.into]

theorem ofGeneration_eq_recovered {n : Nat} :
    Transition.ofGeneration n = .recovered ↔ n % 2 = 0 := by
  unfold Transition.ofGeneration
  rcases Nat.mod_two_eq_zero_or_one n with h | h <;> simp [h, Transition.into]

/-- The generation that a scope has reached. -/
def State.generation (s : State) (scope : Scope) : Nat :=
  match s.conditions.find scope with
  | some c => c.generation
  | none => 0

theorem generation_of_mem {s : State} {c : Condition} (hc : c ∈ s.conditions) :
    s.generation c.scope = c.generation := by
  have hfind : s.conditions.find c.scope = some c := Table.find_eq_some.mpr ⟨hc, rfl⟩
  rw [State.generation, hfind]

/-! ## The invariant -/

/-- Deliveries and their numbers, for the generations that the scopes have reached. -/
structure Numbered (deliveries : Table Delivery.id) (generation : Scope → Nat) : Prop where
  within : ∀ d ∈ deliveries, 1 ≤ d.generation ∧ d.generation ≤ generation d.scope
  transition : ∀ d ∈ deliveries, d.transition = .ofGeneration d.generation
  reached : ∀ scope k, 1 ≤ k → k ≤ generation scope →
    ∃ d ∈ deliveries, d.scope = scope ∧ d.generation = k
  unique : ∀ d ∈ deliveries, ∀ d' ∈ deliveries, d.scope = d'.scope →
    d.generation = d'.generation → d = d'

/-- A delivery by its own columns, at some time. -/
structure Delivery.Dated (d : Delivery) (now : Nat) : Prop where
  created : d.createdAt ≤ now
  available : d.createdAt ≤ d.availableAt
  fresh : d.state = .pending ∨ d.state = .suppressed → d.attempt = 0
  max : 0 < d.maxAttempt

/-- The two deliveries of one episode. -/
structure Delivery.Episode (t r : Delivery) : Prop where
  pair : t.state = .suppressed ↔ r.state = .suppressed
  after : t.state = .pending → t.availableAt ≤ r.createdAt

structure Suppressed (deliveries : Table Delivery.id) (generation : Scope → Nat) : Prop where
  episode : ∀ t ∈ deliveries, ∀ r ∈ deliveries, t.scope = r.scope → t.transition = .triggered →
    r.generation = t.generation + 1 → t.Episode r
  recovered : ∀ t ∈ deliveries, t.state = .suppressed → t.transition = .triggered →
    t.generation < generation t.scope

structure State.Sound (s : State) : Prop where
  rows : ∀ c ∈ s.conditions, 1 ≤ c.generation ∧ (c.active = true ↔ c.generation % 2 = 1)
  held : ∀ x ∈ s.evaluations, ∀ c, x.reading = .row c → c ∈ s.conditions ∧ c.scope = x.scope
  single : ∀ x ∈ s.evaluations, ∀ y ∈ s.evaluations, x.reading.isRow → y.reading.isRow →
    x.scope = y.scope → x = y
  started : ∀ x ∈ s.evaluations, x.startedAt ≤ s.now
  numbered : Numbered s.deliveries s.generation
  dated : ∀ d ∈ s.deliveries, d.Dated s.now
  suppressed : Suppressed s.deliveries s.generation

theorem sound_init (now : Nat) : (State.init now).Sound := by
  refine ⟨nofun, nofun, nofun, nofun, ⟨nofun, nofun, fun scope k hk hle => ?_, nofun⟩, nofun,
    ⟨nofun, nofun⟩⟩
  exact absurd (Nat.le_trans hk hle) (Nat.not_succ_le_zero 0)

/-! ## Claims and ends of attempts -/

section put
variable {s : State} {d d' : Delivery}

/-- What a claim or the end of an attempt makes of a delivery. -/
structure Delivery.Attempted (d d' : Delivery) : Prop where
  scope : d'.scope = d.scope
  generation : d'.generation = d.generation
  transition : d'.transition = d.transition
  createdAt : d'.createdAt = d.createdAt
  available : d.createdAt ≤ d'.availableAt
  maxAttempt : d'.maxAttempt = d.maxAttempt
  started : d'.state ≠ .pending
  kept : d.state ≠ .suppressed ∧ d'.state ≠ .suppressed

theorem mem_putDelivery {id : Uuid} {x : Delivery} : x ∈ s.putDelivery id d' ↔
    (x ∈ s.deliveries ∧ x.id ≠ id) ∨
      ∃ y, s.deliveries.find id = some y ∧ x = { d' with id := y.id } :=
  @Table.mem_modify _ _ _ _ s.deliveries id (fun old => { d' with id := old.id }) (fun _ => rfl) x

/-- Every row after the change is one from before, or the changed one. -/
theorem mem_putDelivery_of {x : Delivery}
    (hx : x ∈ s.putDelivery d.id d') :
    (x ∈ s.deliveries ∧ x ≠ d) ∨ x = { d' with id := d.id } := by
  rcases mem_putDelivery.mp hx with ⟨hx, hid⟩ | ⟨y, hy, rfl⟩
  · exact .inl ⟨hx, fun h => hid (congrArg Delivery.id h)⟩
  · have hsame := (Table.find_eq_some.mp hy).2
    rw [hsame]
    exact .inr rfl

theorem putDelivery_mem (hd : d ∈ s.deliveries) :
    ({ d' with id := d.id } : Delivery) ∈ s.putDelivery d.id d' :=
  mem_putDelivery.mpr (.inr ⟨d, Table.find_eq_some.mpr ⟨hd, rfl⟩, rfl⟩)

theorem putDelivery_mem_of_ne (hd : d ∈ s.deliveries) {x : Delivery} (hx : x ∈ s.deliveries)
    (hne : x ≠ d) : x ∈ s.putDelivery d.id d' :=
  mem_putDelivery.mpr (.inl ⟨hx, fun hid => hne (Table.eq_of_key_eq hx hd hid)⟩)

/-- The row before the change of each row after it, which has the same columns. -/
theorem exists_before (hd : d ∈ s.deliveries) (h : d.Attempted d') {x : Delivery}
    (hx : x ∈ s.putDelivery d.id d') : ∃ y ∈ s.deliveries, x.scope = y.scope ∧
      x.generation = y.generation ∧ x.transition = y.transition ∧ x.createdAt = y.createdAt ∧
      (x.state = .pending → x = y) ∧ (x.state = .suppressed ↔ y.state = .suppressed) ∧
      (x = y ∨ y = d ∧ x = { d' with id := d.id }) := by
  rcases mem_putDelivery_of hx with ⟨hx, -⟩ | rfl
  · exact ⟨x, hx, rfl, rfl, rfl, rfl, fun _ => rfl, Iff.rfl, .inl rfl⟩
  · refine ⟨d, hd, h.scope, h.generation, h.transition, h.createdAt, fun hs => ?_, ?_,
      .inr ⟨rfl, rfl⟩⟩
    · exact absurd hs h.started
    · exact iff_of_false h.kept.2 h.kept.1

theorem Numbered.put {generation : Scope → Nat} (hn : Numbered s.deliveries generation)
    (hd : d ∈ s.deliveries) (h : d.Attempted d') :
    Numbered (s.putDelivery d.id d') generation := by
  refine ⟨fun x hx => ?_, fun x hx => ?_, fun scope k hk hle => ?_, fun x hx x' hx' hs hg => ?_⟩
  · obtain ⟨y, hy, hscope, hgen, -⟩ := exists_before hd h hx
    rw [hscope, hgen]
    exact hn.within y hy
  · obtain ⟨y, hy, -, hgen, htransition, -⟩ := exists_before hd h hx
    rw [hgen, htransition]
    exact hn.transition y hy
  · obtain ⟨y, hy, hscope, hgen⟩ := hn.reached scope k hk hle
    by_cases hyd : y = d
    · subst hyd
      exact ⟨_, putDelivery_mem hd, h.scope.trans hscope, h.generation.trans hgen⟩
    · exact ⟨y, putDelivery_mem_of_ne hd hy hyd, hscope, hgen⟩
  · obtain ⟨y, hy, hscope, hgen, -, -, -, -, heq⟩ := exists_before hd h hx
    obtain ⟨y', hy', hscope', hgen', -, -, -, -, heq'⟩ := exists_before hd h hx'
    have hsame : y = y' := by
      refine hn.unique y hy y' hy' ?_ ?_
      · rw [← hscope, ← hscope', hs]
      · rw [← hgen, ← hgen', hg]
    subst hsame
    apply Table.eq_of_key_eq hx hx'
    have hid : x.id = y.id := by
      rcases heq with rfl | ⟨rfl, rfl⟩ <;> rfl
    have hid' : x'.id = y.id := by
      rcases heq' with rfl | ⟨rfl, rfl⟩ <;> rfl
    exact hid.trans hid'.symm

theorem Suppressed.put {generation : Scope → Nat} (hp : Suppressed s.deliveries generation)
    (hd : d ∈ s.deliveries) (h : d.Attempted d') :
    Suppressed (s.putDelivery d.id d') generation := by
  refine ⟨fun t ht r hr hs htrig hg => ?_, fun t ht hs htrig => ?_⟩
  · obtain ⟨t₀, ht₀, hts, htg, htt, -, htp, htsup, -⟩ := exists_before hd h ht
    obtain ⟨r₀, hr₀, hrs, hrg, -, hrc, -, hrsup, -⟩ := exists_before hd h hr
    have hepisode : t₀.Episode r₀ := by
      refine hp.episode t₀ ht₀ r₀ hr₀ ?_ (htt ▸ htrig) ?_
      · rw [← hts, ← hrs, hs]
      · rw [← hrg, ← htg, hg]
    refine ⟨htsup.trans (hepisode.pair.trans hrsup.symm), fun hpending => ?_⟩
    rw [hrc, htp hpending]
    apply hepisode.after
    rw [← htp hpending]
    exact hpending
  · obtain ⟨t₀, ht₀, hts, htg, htt, -, -, htsup, -⟩ := exists_before hd h ht
    rw [hts, htg]
    exact hp.recovered t₀ ht₀ (htsup.mp hs) (htt ▸ htrig)

theorem dated_put (hdated : ∀ d ∈ s.deliveries, d.Dated s.now) (hd : d ∈ s.deliveries)
    (h : d.Attempted d') : ∀ x ∈ s.putDelivery d.id d', x.Dated s.now := by
  intro x hx
  rcases mem_putDelivery_of hx with ⟨hx, -⟩ | rfl
  · exact hdated x hx
  · have hold := hdated d hd
    refine ⟨h.createdAt ▸ hold.created, h.createdAt ▸ h.available, fun hstate => ?_,
      h.maxAttempt ▸ hold.max⟩
    rcases hstate with hs | hs
    · exact absurd hs h.started
    · exact absurd hs h.kept.2

/-- A claim or the end of an attempt, whatever becomes of the list of claims. -/
theorem State.Sound.put (hs : s.Sound) (hd : d ∈ s.deliveries) (h : d.Attempted d')
    (claims : Table Claim.token) :
    State.Sound { s with deliveries := s.putDelivery d.id d', claims := claims } :=
  ⟨hs.rows, hs.held, hs.single, hs.started, hs.numbered.put hd h, dated_put hs.dated hd h,
    hs.suppressed.put hd h⟩

end put

section attempts
variable {s s' : State} {d : Delivery} {now : Nat}

theorem claimable_not_suppressed (h : d.claimable now) : d.state ≠ .suppressed := by
  intro hs
  simp [Delivery.claimable, hs] at h

theorem attempted_claimed (hdated : d.Dated now) (hclaim : d.claimable now) (owner token : Uuid) :
    d.Attempted (d.claimed now owner token) :=
  ⟨rfl, rfl, rfl, rfl, hdated.available, rfl, nofun, claimable_not_suppressed hclaim, nofun⟩

theorem attempted_reconciled (hdated : d.Dated now) (hclaim : d.claimable now) :
    d.Attempted d.reconciled :=
  ⟨rfl, rfl, rfl, rfl, hdated.available, rfl, nofun, claimable_not_suppressed hclaim, nofun⟩

theorem attempted_finished (hdated : d.Dated now) {token : Uuid} (hheld : d.heldBy token)
    (attempt maxAttempt : Nat) (result : DeliveryResult) :
    d.Attempted (d.finished now attempt maxAttempt result) := by
  have hold : d.state ≠ .suppressed := by
    intro hs
    simp [Delivery.heldBy, hs] at hheld
  have hnow := hdated.created
  cases result with
  | ok => exact ⟨rfl, rfl, rfl, rfl, hnow, rfl, nofun, hold, nofun⟩
  | retryable code =>
    unfold Delivery.finished
    dsimp only
    split_ifs
    · exact ⟨rfl, rfl, rfl, rfl, Nat.le_trans hnow (Nat.le_add_right _ _), rfl, nofun, hold, nofun⟩
    · exact ⟨rfl, rfl, rfl, rfl, hnow, rfl, nofun, hold, nofun⟩
  | permanent code => exact ⟨rfl, rfl, rfl, rfl, hnow, rfl, nofun, hold, nofun⟩
  | unknown code => exact ⟨rfl, rfl, rfl, rfl, hnow, rfl, nofun, hold, nofun⟩

theorem mem_candidates {locked : List Uuid} :
    d ∈ s.candidates locked ↔ d ∈ s.deliveries ∧ d.claimable s.now ∧ d.id ∉ locked := by
  unfold State.candidates sortBy
  rw [List.mem_insertionSort, List.mem_filter, decide_eq_true_eq]
  rfl

theorem claimDelivery_sound (h : s.Sound) {locked : List Uuid} {owner token : Uuid}
    (hs : claimDelivery s locked owner token = some s') : s'.Sound := by
  obtain ⟨d, hd, hs⟩ := Option.bind_eq_some_iff.mp hs
  obtain ⟨hmem, hclaim, -⟩ := mem_candidates.mp (List.mem_of_mem_head? hd)
  have hdated := h.dated d hmem
  split_ifs at hs
  · cases hs
    exact h.put hmem (attempted_reconciled hdated hclaim) s.claims
  · cases hs
    exact h.put hmem (attempted_claimed hdated hclaim owner token) _

theorem finishDelivery_sound (h : s.Sound) {token : Uuid} {result : DeliveryResult}
    (hs : finishDelivery s token result = some s') : s'.Sound := by
  obtain ⟨c, -, hs⟩ := Option.bind_eq_some_iff.mp hs
  obtain ⟨d, hd, hs⟩ := Option.bind_eq_some_iff.mp hs
  split_ifs at hs with hheld
  cases hs
  have hmem := (Table.find_eq_some.mp hd).1
  exact h.put hmem (attempted_finished (h.dated d hmem) hheld _ _ _) s.claims

end attempts

/-! ## Transitions -/

section transitions
variable {s s' : State} {x : Evaluation} {g deliveryId utc : Nat}

/-- The evaluation takes its scope into the next generation. -/
structure State.Next (s : State) (x : Evaluation) (g : Nat) : Prop where
  generation : g = s.generation x.scope + 1
  active : x.active = true ↔ g % 2 = 1
  started : x.startedAt ≤ s.now

theorem into_active (h : s.Next x g) : Transition.into x.active = .ofGeneration g := by
  unfold Transition.ofGeneration
  congr 1
  by_cases ha : x.active = true
  · rw [ha, decide_eq_true (h.active.mp ha)]
  · rw [Bool.eq_false_iff.mpr ha, decide_eq_false fun hg => ha (h.active.mpr hg)]

def Evaluation.suppressing (x : Evaluation) (g : Nat) (d : Delivery) : Delivery :=
  if x.suppresses g d then d.suppress else d

/-- Suppression changes the state alone. -/
theorem suppressing_kept (x : Evaluation) (g : Nat) (d : Delivery) :
    (x.suppressing g d).id = d.id ∧ (x.suppressing g d).scope = d.scope ∧
      (x.suppressing g d).generation = d.generation ∧
      (x.suppressing g d).transition = d.transition ∧
      (x.suppressing g d).createdAt = d.createdAt ∧
      (x.suppressing g d).availableAt = d.availableAt ∧
      (x.suppressing g d).attempt = d.attempt ∧
      (x.suppressing g d).maxAttempt = d.maxAttempt := by
  unfold Evaluation.suppressing
  split_ifs <;> exact ⟨rfl, rfl, rfl, rfl, rfl, rfl, rfl, rfl⟩

theorem suppressing_of_not {d : Delivery} (h : ¬ x.suppresses g d) : x.suppressing g d = d :=
  if_neg h

theorem pending_of_suppressing {d : Delivery} (h : (x.suppressing g d).state = .pending) :
    d.state = .pending ∧ ¬ x.suppresses g d := by
  unfold Evaluation.suppressing at h
  split_ifs at h with hs
  · cases h
  · exact ⟨h, hs⟩

theorem suppressed_of_suppressing {d : Delivery} (h : (x.suppressing g d).state = .suppressed) :
    x.suppresses g d ∨ d.state = .suppressed := by
  unfold Evaluation.suppressing at h
  split_ifs at h with hs
  · exact .inl hs
  · exact .inr h

theorem state_suppressing {d : Delivery} (h : x.suppresses g d) :
    (x.suppressing g d).state = .suppressed := by
  rw [Evaluation.suppressing, if_pos h]
  rfl

theorem find_transition (scope : Scope) :
    (s.transition x g deliveryId utc).conditions.find scope =
      if scope = x.scope then some ⟨x.scope, x.active, g⟩ else s.conditions.find scope := by
  unfold State.transition
  dsimp only
  by_cases hsome : (s.conditions.find x.scope).isSome
  · rw [if_pos hsome]
    by_cases hscope : scope = x.scope
    · obtain ⟨c, hc⟩ := Option.isSome_iff_exists.mp hsome
      rw [if_pos hscope, hscope, Table.find_modify_self, hc, Option.map_some,
        (Table.find_eq_some.mp hc).2]
    · rw [if_neg hscope, Table.find_modify_of_ne _ _ _ hscope]
  · rw [if_neg hsome]
    by_cases hscope : scope = x.scope
    · rw [if_pos hscope, hscope]
      exact Table.find_insert_self (Option.not_isSome_iff_eq_none.mp hsome)
    · rw [if_neg hscope]
      exact Table.find_insert_of_ne hscope

theorem generation_transition (scope : Scope) :
    (s.transition x g deliveryId utc).generation scope =
      if scope = x.scope then g else s.generation scope := by
  rw [State.generation, find_transition]
  split_ifs <;> rfl

/-- The delivery that the transition inserts. -/
def State.created (s : State) (x : Evaluation) (g deliveryId utc : Nat) : Delivery :=
  .new deliveryId x.scope g (.into x.active)
    (decide (∃ d ∈ s.deliveries.rows, x.suppresses g d)) x.startedAt
    (quietDelaySeconds utc x.quietStartMinute x.quietEndMinute)

/-- No delivery has the number of the new one. -/
theorem mem_transition (hn : Numbered s.deliveries s.generation) (hx : s.Next x g)
    (hfree : s.deliveries.find deliveryId = none) {d : Delivery} :
    d ∈ (s.transition x g deliveryId utc).deliveries ↔
      d = s.created x g deliveryId utc ∨ ∃ d₀ ∈ s.deliveries, x.suppressing g d₀ = d := by
  let suppressed : Table Delivery.id := s.deliveries.updateAll (x.suppressing g)
    fun d => (suppressing_kept x g d).1
  have hrows : (s.transition x g deliveryId utc).deliveries =
      State.insertDelivery suppressed (s.created x g deliveryId utc) := rfl
  let new := s.created x g deliveryId utc
  have hconflict : ¬ ∃ y ∈ suppressed.rows, y.scope = new.scope ∧ y.generation = new.generation ∧
      y.transition = new.transition := by
    rintro ⟨y, hy, hscope, hgen, -⟩
    obtain ⟨d₀, hd₀, rfl⟩ := List.mem_map.mp hy
    obtain ⟨-, hscope₀, hgen₀, -⟩ := suppressing_kept x g d₀
    have hle : d₀.generation ≤ s.generation d₀.scope := (hn.within d₀ hd₀).2
    have hnew : d₀.scope = x.scope ∧ d₀.generation = g :=
      ⟨hscope₀.symm.trans hscope, hgen₀.symm.trans hgen⟩
    rw [hnew.1, hnew.2, hx.generation] at hle
    exact absurd hle (Nat.not_succ_le_self _)
  have hnone : suppressed.find deliveryId = none := by
    rw [Table.find_updateAll, hfree]
    rfl
  rw [hrows, State.insertDelivery, if_neg hconflict, Table.mem_insert hnone, Table.mem_updateAll]

theorem numbered_transition (hn : Numbered s.deliveries s.generation) (hx : s.Next x g)
    (hfree : s.deliveries.find deliveryId = none) :
    Numbered (s.transition x g deliveryId utc).deliveries
      (s.transition x g deliveryId utc).generation := by
  have hmem : ∀ d, d ∈ (s.transition x g deliveryId utc).deliveries ↔ _ := fun _ =>
    mem_transition hn hx hfree
  have hg := hx.generation
  refine ⟨fun d hd => ?_, fun d hd => ?_, fun scope k hk hle => ?_, fun d hd d' hd' hs hk => ?_⟩
  · rw [generation_transition]
    rcases (hmem d).mp hd with rfl | ⟨d₀, hd₀, rfl⟩
    · have hscope : (s.created x g deliveryId utc).scope = x.scope := rfl
      have hgen : (s.created x g deliveryId utc).generation = g := rfl
      rw [hgen, if_pos hscope]
      exact ⟨by omega, Nat.le_refl g⟩
    · obtain ⟨-, hscope, hgen, -⟩ := suppressing_kept x g d₀
      obtain ⟨hpos, hbound⟩ := hn.within d₀ hd₀
      rw [hscope, hgen]
      refine ⟨hpos, ?_⟩
      split_ifs with hsame
      · rw [hsame] at hbound
        omega
      · exact hbound
  · rcases (hmem d).mp hd with rfl | ⟨d₀, hd₀, rfl⟩
    · exact into_active hx
    · obtain ⟨-, -, hgen, htransition, -⟩ := suppressing_kept x g d₀
      rw [hgen, htransition]
      exact hn.transition d₀ hd₀
  · rw [generation_transition] at hle
    by_cases hnew : scope = x.scope ∧ k = g
    · exact ⟨_, (hmem _).mpr (.inl rfl), hnew.1.symm, hnew.2.symm⟩
    have hold : k ≤ s.generation scope := by
      split_ifs at hle with hscope
      · have hne : k ≠ g := fun hk => hnew ⟨hscope, hk⟩
        rw [hscope]
        omega
      · exact hle
    obtain ⟨d₀, hd₀, hscope₀, hgen₀⟩ := hn.reached scope k hk hold
    obtain ⟨-, hscope, hgen, -⟩ := suppressing_kept x g d₀
    exact ⟨_, (hmem _).mpr (.inr ⟨d₀, hd₀, rfl⟩), hscope.trans hscope₀, hgen.trans hgen₀⟩
  · have hnumber : ∀ d₀ ∈ s.deliveries, d₀.scope = x.scope → d₀.generation ≠ g := by
      intro d₀ hd₀ hscope hgen
      have hle := (hn.within d₀ hd₀).2
      rw [hscope] at hle
      omega
    rcases (hmem d).mp hd with rfl | ⟨d₀, hd₀, rfl⟩
    · rcases (hmem d').mp hd' with rfl | ⟨d₁, hd₁, rfl⟩
      · rfl
      · obtain ⟨-, hscope, hgen, -⟩ := suppressing_kept x g d₁
        exact absurd (hgen.symm.trans hk.symm) (hnumber d₁ hd₁ (hscope.symm.trans hs.symm))
    · obtain ⟨-, hscope₀, hgen₀, -⟩ := suppressing_kept x g d₀
      rcases (hmem d').mp hd' with rfl | ⟨d₁, hd₁, rfl⟩
      · exact absurd (hgen₀.symm.trans hk) (hnumber d₀ hd₀ (hscope₀.symm.trans hs))
      · obtain ⟨-, hscope₁, hgen₁, -⟩ := suppressing_kept x g d₁
        rw [hn.unique d₀ hd₀ d₁ hd₁ (hscope₀.symm.trans (hs.trans hscope₁))
          (hgen₀.symm.trans (hk.trans hgen₁))]

theorem dated_transition (hn : Numbered s.deliveries s.generation)
    (hdated : ∀ d ∈ s.deliveries, d.Dated s.now) (hx : s.Next x g)
    (hfree : s.deliveries.find deliveryId = none) :
    ∀ d ∈ (s.transition x g deliveryId utc).deliveries, d.Dated s.now := by
  intro d hd
  rcases (mem_transition hn hx hfree).mp hd with rfl | ⟨d₀, hd₀, rfl⟩
  · exact ⟨hx.started, Nat.le_add_right _ _, fun _ => rfl, Nat.succ_pos 2⟩
  · have hold := hdated d₀ hd₀
    obtain ⟨-, -, -, -, hcreated, havailable, hattempt, hmax⟩ := suppressing_kept x g d₀
    refine ⟨hcreated ▸ hold.created, ?_, fun hstate => ?_, hmax ▸ hold.max⟩
    · rw [hcreated, havailable]
      exact hold.available
    · rw [hattempt]
      apply hold.fresh
      rcases hstate with hs | hs
      · exact .inl (pending_of_suppressing hs).1
      · rcases suppressed_of_suppressing hs with hsup | hs
        · exact .inl hsup.2.2.2.2.1
        · exact .inr hs

/-- The trigger that a new delivery follows is suppressed just when the delivery is. -/
theorem episode_created (hn : Numbered s.deliveries s.generation)
    (hp : Suppressed s.deliveries s.generation) (hx : s.Next x g) {t : Delivery}
    (ht : t ∈ s.deliveries) (hscope : t.scope = x.scope) (hgen : g = t.generation + 1)
    (htrig : t.transition = .triggered) :
    (x.suppressing g t).Episode (s.created x g deliveryId utc) := by
  have hodd : t.generation % 2 = 1 :=
    ofGeneration_eq_triggered.mp ((hn.transition t ht).symm.trans htrig)
  have hinactive : x.active = false := by
    rw [Bool.eq_false_iff]
    intro hactive
    have hg := hx.active.mp hactive
    omega
  have hstate : (s.created x g deliveryId utc).state = .suppressed ↔
      ∃ d ∈ s.deliveries.rows, x.suppresses g d := by
    unfold State.created Delivery.new
    by_cases hsup : ∃ d ∈ s.deliveries.rows, x.suppresses g d <;> simp [hsup]
  refine ⟨?_, fun hpending => ?_⟩
  · rw [hstate]
    constructor
    · intro hs
      rcases suppressed_of_suppressing hs with hsup | hs
      · exact ⟨t, ht, hsup⟩
      · have hlt := hp.recovered t ht hs htrig
        rw [hscope] at hlt
        have hg := hx.generation
        omega
    · rintro ⟨d, hd, hsup⟩
      have hsame : d = t := by
        refine hn.unique d hd t ht (hsup.2.1.trans hscope.symm) ?_
        have hd := hsup.2.2.1
        omega
      rw [← hsame]
      exact state_suppressing hsup
  · obtain ⟨hs, hnot⟩ := pending_of_suppressing hpending
    have havailable := (suppressing_kept x g t).2.2.2.2.2.1
    rw [havailable]
    by_contra hlate
    exact hnot ⟨hinactive, hscope, by omega, htrig, hs, Nat.lt_of_not_le hlate⟩

/-- A delivery of an earlier episode is left alone. -/
theorem suppressing_earlier {t r : Delivery} (hx : s.Next x g)
    (hn : Numbered s.deliveries s.generation) (hr : r ∈ s.deliveries) (hs : t.scope = r.scope)
    (hgen : r.generation = t.generation + 1) : x.suppressing g t = t := by
  apply suppressing_of_not
  rintro ⟨-, hscope, hlast, -⟩
  have hle := (hn.within r hr).2
  rw [← hs, hscope] at hle
  have hg := hx.generation
  omega

theorem suppressed_transition (hn : Numbered s.deliveries s.generation)
    (hp : Suppressed s.deliveries s.generation) (hx : s.Next x g)
    (hfree : s.deliveries.find deliveryId = none) :
    Suppressed (s.transition x g deliveryId utc).deliveries
      (s.transition x g deliveryId utc).generation := by
  have hmem : ∀ d, d ∈ (s.transition x g deliveryId utc).deliveries ↔ _ := fun _ =>
    mem_transition hn hx hfree
  have hnext : Numbered (s.transition x g deliveryId utc).deliveries _ :=
    numbered_transition hn hx hfree
  refine ⟨fun t ht r hr hs htrig hgen => ?_, fun t ht hstate htrig => ?_⟩
  · rcases (hmem t).mp ht with rfl | ⟨t₀, ht₀, rfl⟩
    · have hle := (hnext.within r hr).2
      have hscope : r.scope = x.scope := hs.symm
      have hnumber : r.generation = g + 1 := hgen
      rw [generation_transition, if_pos hscope, hnumber] at hle
      exact absurd hle (Nat.not_succ_le_self g)
    · obtain ⟨-, hscope₀, hgen₀, htrig₀, -⟩ := suppressing_kept x g t₀
      rcases (hmem r).mp hr with rfl | ⟨r₀, hr₀, rfl⟩
      · exact episode_created hn hp hx ht₀ (hscope₀.symm.trans hs)
          (hgen.trans (congrArg Nat.succ hgen₀)) (htrig₀.symm.trans htrig)
      · obtain ⟨-, hscope₁, hgen₁, htrig₁, hcreated₁, -⟩ := suppressing_kept x g r₀
        have hscopes : t₀.scope = r₀.scope := hscope₀.symm.trans (hs.trans hscope₁)
        have hnumbers : r₀.generation = t₀.generation + 1 :=
          hgen₁.symm.trans (hgen.trans (congrArg Nat.succ hgen₀))
        have hold := hp.episode t₀ ht₀ r₀ hr₀ hscopes (htrig₀.symm.trans htrig) hnumbers
        have hr₀' : x.suppressing g r₀ = r₀ := by
          apply suppressing_of_not
          rintro ⟨-, -, -, htrigger, -⟩
          have hodd := ofGeneration_eq_triggered.mp ((hn.transition r₀ hr₀).symm.trans htrigger)
          have hodd₀ := ofGeneration_eq_triggered.mp
            ((hn.transition t₀ ht₀).symm.trans (htrig₀.symm.trans htrig))
          omega
        rw [hr₀', suppressing_earlier hx hn hr₀ hscopes hnumbers]
        exact hold
  · rw [generation_transition]
    rcases (hmem t).mp ht with rfl | ⟨t₀, ht₀, rfl⟩
    · have hactive : x.active = true := by
        by_contra hnot
        have hrecovered : (s.created x g deliveryId utc).transition = .into false :=
          congrArg Transition.into (Bool.eq_false_iff.mpr hnot)
        rw [htrig] at hrecovered
        cases hrecovered
      have hnone : ¬ ∃ d ∈ s.deliveries.rows, x.suppresses g d := by
        rintro ⟨d, -, hsup⟩
        rw [hsup.1] at hactive
        cases hactive
      have hpending : (s.created x g deliveryId utc).state = .pending := by
        unfold State.created Delivery.new
        simp [hnone]
      rw [hpending] at hstate
      cases hstate
    · obtain ⟨-, hscope₀, hgen₀, htrig₀, -⟩ := suppressing_kept x g t₀
      rw [hscope₀, hgen₀]
      have hle := (hn.within t₀ ht₀).2
      have hg := hx.generation
      split_ifs with hscope
      · rw [hscope] at hle
        omega
      · rcases suppressed_of_suppressing hstate with hsup | hs
        · exact absurd hsup.2.1 hscope
        · exact hp.recovered t₀ ht₀ hs (htrig₀.symm.trans htrig)

end transitions

/-! ## Evaluations -/

section evaluations
variable {s s' : State} {e : Uuid} {x : Evaluation}

theorem State.Sound.finishEvaluation (h : s.Sound) (e : Uuid) : (s.finishEvaluation e).Sound := by
  have hsub : ∀ x ∈ (s.finishEvaluation e).evaluations, x ∈ s.evaluations := fun x hx =>
    (Table.mem_delete.mp hx).1
  exact ⟨h.rows, fun x hx => h.held x (hsub x hx),
    fun x hx y hy => h.single x (hsub x hx) y (hsub y hy), fun x hx => h.started x (hsub x hx),
    h.numbered, h.dated, h.suppressed⟩

theorem beginEvaluation_sound (h : s.Sound) {scope : Scope} {active : Bool}
    {start stop : Option Nat} (hs : beginEvaluation s e scope active start stop = some s') :
    s'.Sound := by
  unfold beginEvaluation at hs
  split_ifs at hs with hguard
  cases hs
  have hnone : s.evaluations.find e = none := by
    have hfree := (not_or.mp (not_or.mp hguard).2).2
    exact Option.not_isSome_iff_eq_none.mp hfree
  let new : Evaluation := ⟨e, scope, active, start, stop, s.now, .unread⟩
  have hmem : ∀ x ∈ s.evaluations.insert new, x = new ∨ x ∈ s.evaluations := fun x hx =>
    (Table.mem_insert hnone).mp hx
  refine ⟨h.rows, fun x hx c hc => ?_, fun x hx y hy hrx hry hscope => ?_, fun x hx => ?_,
    h.numbered, h.dated, h.suppressed⟩
  · rcases hmem x hx with rfl | hx
    · cases hc
    · exact h.held x hx c hc
  · rcases hmem x hx with rfl | hx
    · cases hrx
    · rcases hmem y hy with rfl | hy
      · cases hry
      · exact h.single x hx y hy hrx hry hscope
  · rcases hmem x hx with rfl | hx
    · exact Nat.le_refl _
    · exact h.started x hx

theorem readCondition_sound (h : s.Sound) (hs : readCondition s e = some s') : s'.Sound := by
  obtain ⟨x, hx, hs⟩ := Option.bind_eq_some_iff.mp hs
  split_ifs at hs with hguard
  cases hs
  obtain ⟨hxmem, hxid⟩ := Table.find_eq_some.mp hx
  have hfree : ¬ s.locked x.scope := (not_or.mp hguard).2
  generalize hreading : Reading.of (s.conditions.find x.scope) = reading
  have hrow : ∀ c, reading = .row c → c ∈ s.conditions ∧ c.scope = x.scope := by
    rintro c rfl
    cases hfind : s.conditions.find x.scope with
    | none =>
      rw [hfind] at hreading
      cases hreading
    | some c' =>
      rw [hfind] at hreading
      cases hreading
      exact Table.find_eq_some.mp hfind
  have hmem : ∀ y ∈ s.evaluations.modify e (fun x => { x with reading := reading }) fun _ => rfl,
      (y ∈ s.evaluations ∧ y.id ≠ e) ∨ y = { x with reading := reading } := by
    intro y hy
    rcases (@Table.mem_modify _ _ _ _ s.evaluations e (fun x => { x with reading := reading })
      (fun _ => rfl) y).mp hy with hy | ⟨z, hz, rfl⟩
    · exact .inl hy
    · obtain rfl := Option.some.inj (hz.symm.trans hx)
      exact .inr rfl
  have hother : ∀ y ∈ s.evaluations, y.reading.isRow → y.scope ≠ x.scope := fun y hy hr hscope =>
    hfree ⟨y, hy, hscope, hr⟩
  refine ⟨h.rows, fun y hy c hc => ?_, fun y hy z hz hry hrz hscope => ?_, fun y hy => ?_,
    h.numbered, h.dated, h.suppressed⟩
  · rcases hmem y hy with ⟨hy, -⟩ | rfl
    · exact h.held y hy c hc
    · exact hrow c hc
  · rcases hmem y hy with ⟨hy, -⟩ | rfl
    · rcases hmem z hz with ⟨hz, -⟩ | rfl
      · exact h.single y hy z hz hry hrz hscope
      · exact absurd hscope (hother y hy hry)
    · rcases hmem z hz with ⟨hz, -⟩ | rfl
      · exact absurd hscope.symm (hother z hz hrz)
      · rfl
  · rcases hmem y hy with ⟨hy, -⟩ | rfl
    · exact h.started y hy
    · exact h.started x hxmem

/-- A transition into the next generation, by an evaluation that excludes the others. -/
theorem transition_sound (h : s.Sound) {g deliveryId utc : Nat}
    (hx : s.Next x g) (hfree : s.deliveries.find deliveryId = none)
    (halone : ∀ y ∈ s.evaluations, y.reading.isRow → y.scope = x.scope → y = x) :
    ((s.transition x g deliveryId utc).finishEvaluation x.id).Sound := by
  have hsub : ∀ y ∈ ((s.transition x g deliveryId utc).finishEvaluation x.id).evaluations,
      y ∈ s.evaluations ∧ y.id ≠ x.id := fun y hy => Table.mem_delete.mp hy
  refine ⟨fun c hc => ?_, fun y hy c hc => ?_, fun y hy z hz => ?_, fun y hy => ?_,
    numbered_transition h.numbered hx hfree, dated_transition h.numbered h.dated hx hfree,
    suppressed_transition h.numbered h.suppressed hx hfree⟩
  · have hrow : (s.transition x g deliveryId utc).conditions.find c.scope = some c :=
      Table.find_eq_some.mpr ⟨hc, rfl⟩
    have hfind := hrow.symm.trans (find_transition c.scope)
    split_ifs at hfind with hscope
    · cases hfind
      exact ⟨by rw [hx.generation]; exact Nat.succ_pos _, hx.active⟩
    · exact h.rows c (Table.find_eq_some.mp hfind.symm).1
  · obtain ⟨hy, hne⟩ := hsub y hy
    obtain ⟨hmem, hscope⟩ := h.held y hy c hc
    have hother : c.scope ≠ x.scope := by
      intro hsame
      have hyx := halone y hy (by rw [hc]; rfl) (hscope.symm.trans hsame)
      exact hne (congrArg Evaluation.id hyx)
    have hrow : (s.transition x g deliveryId utc).conditions.find c.scope = some c := by
      rw [find_transition, if_neg hother]
      exact Table.find_eq_some.mpr ⟨hmem, rfl⟩
    exact ⟨(Table.find_eq_some.mp hrow).1, hscope⟩
  · exact h.single y (hsub y hy).1 z (hsub z hz).1
  · exact h.started y (hsub y hy).1

theorem commitTransition_sound (h : s.Sound) {deliveryId utc : Nat}
    (hturn : InTurn s (.commitTransition e deliveryId utc))
    (hs : commitTransition s e deliveryId utc = some s') : s'.Sound := by
  obtain ⟨x, hx, hs⟩ := Option.bind_eq_some_iff.mp hs
  obtain ⟨hxmem, rfl⟩ := Table.find_eq_some.mp hx
  by_cases hused : (s.deliveries.find deliveryId).isSome
  · rw [if_pos hused] at hs
    cases hs
  rw [if_neg hused] at hs
  have hfree := Option.not_isSome_iff_eq_none.mp hused
  split at hs
  · cases hs
  · next c hreading =>
    split_ifs at hs with hsame
    · cases hs
      exact h.finishEvaluation x.id
    · cases hs
      obtain ⟨hc, hscope⟩ := h.held x hxmem c hreading
      obtain ⟨-, hactive⟩ := h.rows c hc
      have hgeneration : s.generation x.scope = c.generation := hscope ▸ generation_of_mem hc
      refine transition_sound h ⟨by rw [hgeneration], ?_, h.started x hxmem⟩ hfree ?_
      · have hflip : x.active = true ↔ ¬ c.active = true := by
          revert hsame
          cases c.active <;> cases x.active <;> simp
        rw [hflip, hactive]
        omega
      · intro y hy hrow hyscope
        exact h.single y hy x hxmem hrow (by rw [hreading]; rfl) hyscope
  · next hreading =>
    split_ifs at hs with hactive hlocked
    · cases hs
      have hnone := hturn x hx hreading
      have hgeneration : s.generation x.scope = 0 := by rw [State.generation, hnone]
      refine transition_sound h ⟨by rw [hgeneration], ?_, h.started x hxmem⟩ hfree ?_
      · exact iff_of_true hactive rfl
      · intro y hy hrow hyscope
        exact absurd ⟨y, hy, hyscope, hrow⟩ hlocked
    · cases hs
      exact h.finishEvaluation x.id

end evaluations

/-! ## Runs -/

section runs
variable {s s' : State}

theorem State.Sound.step (h : s.Sound) {a : Action} (hturn : InTurn s a)
    (hs : step s a = some s') : s'.Sound := by
  cases a with
  | tick n =>
    cases hs
    have hlater : s.now ≤ s.now + n := Nat.le_add_right _ _
    refine ⟨h.rows, h.held, h.single, fun x hx => Nat.le_trans (h.started x hx) hlater,
      h.numbered, fun d hd => ?_, h.suppressed⟩
    have hold := h.dated d hd
    exact ⟨Nat.le_trans hold.created hlater, hold.available, hold.fresh, hold.max⟩
  | beginEvaluation e scope active start stop => exact beginEvaluation_sound h hs
  | readCondition e => exact readCondition_sound h hs
  | commitTransition e deliveryId utc => exact commitTransition_sound h hturn hs
  | abandonEvaluation e =>
    cases hs
    exact h.finishEvaluation e
  | claimDelivery locked owner token => exact claimDelivery_sound h hs
  | finishDelivery token result => exact finishDelivery_sound h hs

theorem sound_of_reachable {now : Nat}
    (h : Reachable (restrict step InTurn) (fun _ => True) (.init now) s) : s.Sound := by
  refine h.invariant State.Sound (sound_init now) fun u a u' _ hu hs _ => ?_
  obtain ⟨hturn, hstep⟩ := restrict_eq_some.mp hs
  exact hu.step hturn hstep

/-- The numbers and transitions of the deliveries of a scope. -/
def State.sent (s : State) (scope : Scope) : List (Nat × Transition) :=
  (s.deliveries.rows.filter fun d => d.scope = scope).map fun d => (d.generation, d.transition)

/-- One delivery for each generation, triggers and recoveries in turn. -/
def alternating (n : Nat) : List (Nat × Transition) :=
  (List.range' 1 n).map fun k => (k, .ofGeneration k)

def State.Alternates (s : State) (scope : Scope) : Prop :=
  (s.sent scope).Perm (alternating (s.generation scope))

theorem mem_alternating {n k : Nat} {transition : Transition} :
    (k, transition) ∈ alternating n ↔ 1 ≤ k ∧ k ≤ n ∧ transition = .ofGeneration k := by
  unfold alternating
  rw [List.mem_map]
  constructor
  · rintro ⟨j, hj, heq⟩
    obtain ⟨rfl, rfl⟩ := Prod.mk.inj heq
    obtain ⟨hlow, hhigh⟩ := List.mem_range'_1.mp hj
    exact ⟨hlow, by omega, rfl⟩
  · rintro ⟨hlow, hhigh, rfl⟩
    exact ⟨k, List.mem_range'_1.mpr ⟨hlow, by omega⟩, rfl⟩

theorem Numbered.alternates (h : Numbered s.deliveries s.generation) (scope : Scope) :
    s.Alternates scope := by
  have hsent : (s.sent scope).Nodup := by
    refine List.Nodup.map_on ?_ (s.deliveries.unique.of_map.filter _)
    intro d hd d' hd' heq
    obtain ⟨hd, hscope⟩ := List.mem_filter.mp hd
    obtain ⟨hd', hscope'⟩ := List.mem_filter.mp hd'
    have hsame := (of_decide_eq_true hscope).trans (of_decide_eq_true hscope').symm
    exact h.unique d hd d' hd' hsame (Prod.mk.inj heq).1
  have halternating : (alternating (s.generation scope)).Nodup :=
    List.Nodup.map (fun _ _ heq => (Prod.mk.inj heq).1) List.nodup_range'
  refine (List.perm_ext_iff_of_nodup hsent halternating).mpr fun ⟨k, transition⟩ => ?_
  rw [mem_alternating]
  constructor
  · intro hmem
    obtain ⟨d, hd, heq⟩ := List.mem_map.mp hmem
    obtain ⟨hd, hscope⟩ := List.mem_filter.mp hd
    obtain ⟨rfl, rfl⟩ := Prod.mk.inj heq
    obtain ⟨hlow, hhigh⟩ := h.within d hd
    exact ⟨hlow, (of_decide_eq_true hscope) ▸ hhigh, h.transition d hd⟩
  · rintro ⟨hlow, hhigh, rfl⟩
    obtain ⟨d, hd, hscope, rfl⟩ := h.reached scope k hlow hhigh
    rw [← h.transition d hd]
    exact List.mem_map.mpr ⟨d, List.mem_filter.mpr ⟨hd, decide_eq_true hscope⟩, rfl⟩

/-- A trigger that was never attempted, and its own recovery. -/
structure SuppressedPair (t r : Delivery) : Prop where
  scope : t.scope = r.scope
  generation : r.generation = t.generation + 1
  trigger : t.transition = .triggered ∧ t.state = .suppressed ∧ t.attempt = 0
  recovery : r.transition = .recovered ∧ r.state = .suppressed

def State.SuppressesPairs (s : State) : Prop :=
  ∀ d ∈ s.deliveries, d.state = .suppressed →
    (∃ r ∈ s.deliveries, SuppressedPair d r) ∨ ∃ t ∈ s.deliveries, SuppressedPair t d

theorem suppressedPair_of_episode (h : s.Sound) {t r : Delivery} (ht : t ∈ s.deliveries)
    (hr : r ∈ s.deliveries) (hscope : t.scope = r.scope) (hgen : r.generation = t.generation + 1)
    (htrig : t.transition = .triggered) (hstate : t.state = .suppressed ∨ r.state = .suppressed) :
    SuppressedPair t r := by
  have hepisode := h.suppressed.episode t ht r hr hscope htrig hgen
  have ht' : t.state = .suppressed := hstate.elim id hepisode.pair.mpr
  have hrecovered : r.transition = .recovered := by
    have hodd := ofGeneration_eq_triggered.mp ((h.numbered.transition t ht).symm.trans htrig)
    rw [h.numbered.transition r hr, ofGeneration_eq_recovered]
    omega
  exact ⟨hscope, hgen, ⟨htrig, ht', (h.dated t ht).fresh (.inr ht')⟩, hrecovered,
    hepisode.pair.mp ht'⟩

theorem State.Sound.suppressesPairs (h : s.Sound) : s.SuppressesPairs := by
  intro d hd hstate
  have hpos := (h.numbered.within d hd).1
  cases htransition : d.transition with
  | triggered =>
    have hlt := h.suppressed.recovered d hd hstate htransition
    obtain ⟨r, hr, hscope, hgen⟩ :=
      h.numbered.reached d.scope (d.generation + 1) (Nat.succ_pos _) hlt
    exact .inl ⟨r, hr, suppressedPair_of_episode h hd hr hscope.symm hgen htransition (.inl hstate)⟩
  | recovered =>
    have heven := ofGeneration_eq_recovered.mp ((h.numbered.transition d hd).symm.trans htransition)
    have hle := (h.numbered.within d hd).2
    obtain ⟨t, ht, hscope, hgen⟩ :=
      h.numbered.reached d.scope (d.generation - 1) (by omega) (by omega)
    have htrig : t.transition = .triggered := by
      rw [h.numbered.transition t ht, ofGeneration_eq_triggered, hgen]
      omega
    have hnext : d.generation = t.generation + 1 := by omega
    exact .inr ⟨t, ht, suppressedPair_of_episode h ht hd hscope hnext htrig (.inr hstate)⟩

/-- The order of the claims: first of the deliveries that are due, so that a recovery passes its
own trigger only when that was tried, is locked, or has the same times. -/
structure State.ClaimsFirst (s : State) (locked : List Uuid) (d : Delivery) : Prop where
  due : d ∈ s.deliveries ∧ d.claimable s.now ∧ d.id ∉ locked
  first : ∀ e ∈ s.deliveries, e.claimable s.now → e.id ∉ locked → d.claimKey ≤ e.claimKey
  trigger : ∀ t ∈ s.deliveries, t.scope = d.scope → t.transition = .triggered →
    d.generation = t.generation + 1 → t.state = .pending → t.id ∉ locked →
    t.availableAt = d.availableAt ∧ t.createdAt = d.createdAt

theorem head_le_of_mem_candidates {locked : List Uuid} {d e : Delivery}
    (hd : (s.candidates locked).head? = some d) (he : e ∈ s.candidates locked) :
    d.claimKey ≤ e.claimKey := by
  have hpairwise : (s.candidates locked).Pairwise fun a b => a.claimKey ≤ b.claimKey :=
    pairwise_sortBy _
  obtain ⟨rest, hrest⟩ := List.head?_eq_some_iff.mp hd
  rw [hrest] at he hpairwise
  rcases List.mem_cons.mp he with rfl | he
  · exact le_refl _
  · exact (List.pairwise_cons.mp hpairwise).1 e he

theorem State.Sound.claimsFirst (h : s.Sound) {locked : List Uuid} {d : Delivery}
    (hd : s.claimed locked = some d) : s.ClaimsFirst locked d := by
  obtain ⟨hhead, -⟩ := Option.filter_eq_some_iff.mp hd
  obtain ⟨hmem, hclaim, hlocked⟩ := mem_candidates.mp (List.mem_of_mem_head? hhead)
  refine ⟨⟨hmem, hclaim, hlocked⟩, fun e he hec hel => ?_, ?_⟩
  · exact head_le_of_mem_candidates hhead (mem_candidates.mpr ⟨he, hec, hel⟩)
  · intro t ht hscope htrig hgen hpending htl
    have hafter := (h.suppressed.episode t ht d hmem hscope htrig hgen).after hpending
    obtain ⟨hdcreated, hdavailable, -, -⟩ := h.dated d hmem
    obtain ⟨-, htavailable, htfresh, htmax⟩ := h.dated t ht
    have hdue : t.claimable s.now := by
      have hattempt := htfresh (.inl hpending)
      simp only [Delivery.claimable, hpending]
      exact ⟨Nat.le_trans hafter hdcreated, by omega⟩
    have hle := head_le_of_mem_candidates hhead (mem_candidates.mpr ⟨ht, hdue, htl⟩)
    simp only [Delivery.claimKey, Prod.Lex.toLex_le_toLex] at hle
    omega

/-- In every run whose first evaluations of a scope come in turn: the deliveries are numbered
and alternate, suppression comes in pairs, and claims go by the times of the deliveries. -/
theorem alerts_of_reachable {now : Nat}
    (h : Reachable (restrict step InTurn) (fun _ => True) (.init now) s) :
    (∀ scope, s.Alternates scope) ∧ s.SuppressesPairs ∧
      ∀ locked d, s.claimed locked = some d → s.ClaimsFirst locked d := by
  have hsound := sound_of_reachable h
  exact ⟨hsound.numbered.alternates, hsound.suppressesPairs, fun _ _ => hsound.claimsFirst⟩

/-- The delivery still has to be sent. -/
def Delivery.waiting (d : Delivery) : Prop :=
  match d.state with
  | .pending | .leased _ | .failed => True
  | _ => False

instance (d : Delivery) : Decidable d.waiting := by
  unfold Delivery.waiting
  induction d.state using DeliveryState.casesOn <;> infer_instance

/-- No delivery is claimed while one of an earlier generation of its scope is to be sent. -/
def State.ClaimsInOrder (s : State) : Prop :=
  ∀ locked d, s.claimed locked = some d → ∀ e ∈ s.deliveries, e.scope = d.scope →
    e.generation < d.generation → ¬ e.waiting

/-! ### Runs on one scope -/

def quota : Scope := ⟨1, "quota"⟩

def evaluated (e : Uuid) (active : Bool) (deliveryId : Uuid) : List Action :=
  [.beginEvaluation e quota active none none, .readCondition e,
    .commitTransition e deliveryId 0]

/-- The trigger is being sent when the condition recovers. -/
def overtaken : List Action :=
  evaluated 11 true 21 ++ [.claimDelivery [] 7 31] ++ evaluated 12 false 22

/-- An evaluation that has read no row commits after the condition has come and gone, and one
whose transaction started before the trigger reads what it has written. -/
def outOfTurn : List Action :=
  [.beginEvaluation 11 quota true none none, .readCondition 11,
    .beginEvaluation 12 quota false none none, .tick 5] ++ evaluated 13 true 21 ++ [.tick 5] ++
    evaluated 14 false 22 ++ [.commitTransition 11 23 0, .readCondition 12,
    .commitTransition 12 24 0]

theorem alerts_overtaken :
    ∃ s, run (restrict step InTurn) (fun _ => True) (.init 0) overtaken = some s ∧
      s.Alternates quota ∧ s.generation quota = 2 := by
  have hrun : (run (restrict step InTurn) (fun _ => True) (.init 0) overtaken).isSome := by
    decide +kernel
  obtain ⟨s, hs⟩ := Option.isSome_iff_exists.mp hrun
  have hreach := Reachable.of_run (.init trivial) hs
  have hgeneration : ∀ u ∈ run (restrict step InTurn) (fun _ => True) (.init 0) overtaken,
      u.generation quota = 2 := by
    decide +kernel
  exact ⟨s, hs, (alerts_of_reachable hreach).1 quota, hgeneration s hs⟩

/-- A recovery is claimed while its trigger is leased, and a stale evaluation leaves a recovery
without its suppressed trigger. -/
theorem not_in_order_and_pairs :
    (¬ ∀ now s, Reachable step (fun _ => True) (.init now) s → s.ClaimsInOrder) ∧
      ¬ ∀ now s, Reachable step (fun _ => True) (.init now) s → s.SuppressesPairs := by
  constructor
  · intro hall
    have hrun : (run step (fun _ => True) (.init 0) overtaken).isSome := by decide +kernel
    obtain ⟨s, hs⟩ := Option.isSome_iff_exists.mp hrun
    have hclaim : ∀ u ∈ run step (fun _ => True) (.init 0) overtaken,
        ∃ d ∈ u.claimed [], ∃ e ∈ u.deliveries.rows, e.scope = d.scope ∧
          e.generation < d.generation ∧ e.waiting := by
      decide +kernel
    obtain ⟨d, hd, e, he, hscope, hlt, hwaiting⟩ := hclaim s hs
    exact hall 0 s (Reachable.of_run (.init trivial) hs) [] d hd e he hscope hlt hwaiting
  · intro hall
    have hrun : (run step (fun _ => True) (.init 0) outOfTurn).isSome := by decide +kernel
    obtain ⟨s, hs⟩ := Option.isSome_iff_exists.mp hrun
    have halone : ∀ u ∈ run step (fun _ => True) (.init 0) outOfTurn,
        ∃ t ∈ u.deliveries.rows, t.state = .suppressed ∧
          ∀ d ∈ u.deliveries.rows, d.state = .suppressed → d.transition = .triggered := by
      decide +kernel
    obtain ⟨t, ht, hstate, hothers⟩ := halone s hs
    rcases hall 0 s (Reachable.of_run (.init trivial) hs) t ht hstate with
      ⟨r, hr, hpair⟩ | ⟨r, hr, hpair⟩
    · have htrigger := hothers r hr hpair.recovery.2
      rw [hpair.recovery.1] at htrigger
      cases htrigger
    · have htrigger := hothers t ht hstate
      rw [hpair.recovery.1] at htrigger
      cases htrigger

end runs
end FaultLane.AlertDeliveries

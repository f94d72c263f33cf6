import FaultLane.UsageAccounting
import FaultLane.UsageAdmission

set_option autoImplicit false

/-!
# Runs of the admission of events

The events of a month are numbered without gap or repeat, each by the policy of its version,
and a crash that is submitted again is answered as it was at first.
-/
namespace FaultLane.UsageAdmission
open KeyedTable JobQueue TransitionSystem Usage

/-! ## Outcomes -/

def outcomeRank : Outcome → Nat
  | .standard => 0
  | .overage => 1
  | .courtesy => 2
  | .sampling => 3

theorem outcome_mono (p : UsagePolicy) {m n : Int} (h : m ≤ n) :
    outcomeRank (p.outcome m) ≤ outcomeRank (p.outcome n) := by
  unfold UsagePolicy.outcome
  by_cases hstandard : m ≤ p.eventLimit
  · rw [if_pos hstandard]
    exact Nat.zero_le _
  rw [if_neg hstandard, if_neg fun hn => hstandard (h.trans hn)]
  by_cases hoverage : ∃ cap ∈ p.spendCapCents, m ≤ p.overageLimit cap
  · rw [if_pos hoverage]
    split_ifs <;> decide
  have hnone : ¬ ∃ cap ∈ p.spendCapCents, n ≤ p.overageLimit cap := by
    rintro ⟨cap, hcap, hle⟩
    exact hoverage ⟨cap, hcap, h.trans hle⟩
  rw [if_neg hoverage, if_neg hnone]
  by_cases hcourtesy : m ≤ p.courtesyLimit
  · rw [if_pos hcourtesy]
    split_ifs <;> decide
  · rw [if_neg hcourtesy, if_neg fun hn => hcourtesy (h.trans hn)]

theorem admissionOutcome_mono (p : UsagePolicy) (enforcement : Bool) {m n : Int} (h : m ≤ n) :
    outcomeRank (p.admissionOutcome m enforcement) ≤
      outcomeRank (p.admissionOutcome n enforcement) := by
  cases enforcement with
  | false => exact le_refl _
  | true => exact outcome_mono p h

/-- Two admissions with one cycle, version, outcome, threshold, limits and number. -/
structure SameAdmission (a b : Admission) : Prop where
  cycleStart : a.cycleStart = b.cycleStart
  policyVersion : a.policyVersion = b.policyVersion
  outcome : a.outcome = b.outcome
  threshold : a.threshold = b.threshold
  eventLimit : a.eventLimit = b.eventLimit
  courtesyLimit : a.courtesyLimit = b.courtesyLimit
  acceptedEvents : a.acceptedEvents = b.acceptedEvents

theorem acceptance_eq (sub : Submission) (p : PolicyRow) (c : Cycle) (n : Nat)
    (enforcement : Bool) : acceptance p c n enforcement =
      admissionForEvent (recordAcceptance sub p c n enforcement) p true := rfl

/-! ## Invariants -/

/-- The policy that a transaction has read under its lock. -/
def Stage.policy : Stage → Option PolicyRow
  | .locked _ p | .counting _ p _ _ | .counted _ p _ _ => some p
  | _ => none

/-- The policy that a transaction has written. -/
def Stage.edited : Stage → Option PolicyRow
  | .updated p | .versioned p => some p
  | _ => none

/-- The version row has been inserted under the lock. -/
def Stage.recorded : Stage → Bool
  | .snapshot (.recordAcceptance _) | .locked (.recordAcceptance _) _ | .counting _ _ _ _
  | .counted _ _ _ _ => true
  | _ => false

def Stage.accepted : Stage → Option (Cycle × Nat)
  | .counted _ _ c n => some (c, n)
  | _ => none

def Stage.known : Stage → Option (Uuid × Uuid)
  | .replaying guid eventId => some (guid, eventId)
  | _ => none

/-- What a transaction relies on, with the policy of each version that the project has had. -/
structure Transaction.Sound (history : Int → PolicyRow) (s : State) (x : Transaction) : Prop where
  policy : ∀ p ∈ x.stage.policy, p = s.policy
  edited : ∀ p ∈ x.stage.edited, p.version = s.policy.version + 1
  snapshots : ∀ r ∈ x.snapshots,
    (r.version ≤ s.policy.version ∧ history r.version = r) ∨ r ∈ x.stage.edited
  recorded : x.stage.recorded = true →
    ∃ r, (r ∈ s.versions ∨ r ∈ x.snapshots) ∧ r.version = s.policy.version
  fresh : ∀ sub ∈ x.stage.inserted, ∀ e ∈ s.events,
    e.id ≠ sub.eventId ∧ (sub.crashGuid.isSome → e.crashGuid ≠ sub.crashGuid)
  accepted : ∀ n ∈ x.stage.accepted, n.2 = (s.cycle n.1).acceptedEvents
  known : ∀ k ∈ x.stage.known, ∃ e ∈ s.events, e.id = k.2 ∧ e.crashGuid = some k.1

/-- The event is the one that `record_acceptance` admits under a policy. -/
structure EventRow.Admitted (enforcement : Bool) (p : PolicyRow) (e : EventRow) : Prop where
  version : p.version = e.usagePolicyVersion
  outcome : e.usageOutcome = p.admissionOutcome e.usageAcceptedEvents enforcement

def State.numbers (s : State) (c : Cycle) : List Nat :=
  (s.events.rows.filter fun e => e.usageCycleStart = c).map EventRow.usageAcceptedEvents

def countedNumbers (answers : List AcceptedCrash) (c : Cycle) : List Nat :=
  (answers.filter fun a => a.usage.usageCounted ∧ a.usage.cycleStart = c).map
    (·.usage.acceptedEvents)

/-- An answer is the admission of an accepted event under the row of its version. -/
structure State.Answers (s : State) (a : AcceptedCrash) (e : EventRow) (p : PolicyRow) :
    Prop where
  event : e ∈ s.events
  row : p ∈ s.versions
  version : p.version = e.usagePolicyVersion
  eventId : a.eventId = e.id
  crashGuid : a.crashGuid = e.crashGuid
  usage : a.usage = admissionForEvent e p !a.duplicate

/-- A crash that has been answered is answered again as a duplicate, from the same event. -/
def Replays (a : AcceptedCrash) (older : List AcceptedCrash) : Prop :=
  (∀ first ∈ older, first.crashGuid = a.crashGuid → a.crashGuid.isSome → a.duplicate = true) ∧
    (a.duplicate = true → ∃ first ∈ older, first.duplicate = false ∧ first.eventId = a.eventId)

structure State.Consistent (enforcement : Bool) (history : Int → PolicyRow) (s : State) :
    Prop where
  alone : ∀ x ∈ s.transactions, ∀ y ∈ s.transactions,
    x.stage.holdsPolicy = true → y.stage.holdsPolicy = true → x = y
  sound : ∀ x ∈ s.transactions, x.Sound history s
  current : history s.policy.version = s.policy
  versions : ∀ r ∈ s.versions, r.version ≤ s.policy.version ∧ history r.version = r
  numbered : ∀ c, s.numbers c = (List.range' 1 (s.cycle c).acceptedEvents).reverse
  counted : ∀ c, countedNumbers s.answers c = s.numbers c
  admitted : ∀ e ∈ s.events, ∃ p ∈ s.versions, e.Admitted enforcement p
  once : ∀ e ∈ s.events, ∀ f ∈ s.events, e.crashGuid.isSome → e.crashGuid = f.crashGuid → e = f
  accepted : ∀ e ∈ s.events, ∃ a ∈ s.answers, a.duplicate = false ∧ a.eventId = e.id
  answers : ∀ a ∈ s.answers, ∃ e p, s.Answers a e p
  replays : ∀ newer a older, s.answers = newer ++ a :: older → Replays a older

section steps
variable {enforcement : Bool} {history : Int → PolicyRow} {s s' : State} {x y : Transaction}

/-! ## Changes of one transaction -/

theorem Transaction.Sound.of_eq (h : x.Sound history s) (hpolicy : s'.policy = s.policy)
    (hversions : s'.versions = s.versions) (hcounters : s'.counters = s.counters)
    (hevents : s'.events = s.events) : x.Sound history s' := by
  have hcycle : ∀ c, s'.cycle c = s.cycle c := fun c => by rw [State.cycle, hcounters, State.cycle]
  refine ⟨?_, ?_, ?_, ?_, ?_, ?_, ?_⟩
  · rw [hpolicy]
    exact h.policy
  · rw [hpolicy]
    exact h.edited
  · rw [hpolicy]
    exact h.snapshots
  · rw [hpolicy, hversions]
    exact h.recorded
  · rw [hevents]
    exact h.fresh
  · intro n hn
    rw [hcycle]
    exact h.accepted n hn
  · rw [hevents]
    exact h.known

/-- A state that differs in its transactions alone is consistent when these are. -/
theorem State.Consistent.of_transactions (h : s.Consistent enforcement history)
    (transactions : Table Transaction.id)
    (halone : ∀ x ∈ transactions, ∀ y ∈ transactions,
      x.stage.holdsPolicy = true → y.stage.holdsPolicy = true → x = y)
    (hsound : ∀ x ∈ transactions, x.Sound history s) :
    ({ s with transactions := transactions } : State).Consistent enforcement history where
  alone := halone
  sound x hx := (hsound x hx).of_eq rfl rfl rfl rfl
  current := h.current
  versions := h.versions
  numbered := h.numbered
  counted := h.counted
  admitted := h.admitted
  once := h.once
  accepted := h.accepted
  answers a ha := by
    obtain ⟨e, p, hanswer⟩ := h.answers a ha
    exact ⟨e, p, ⟨hanswer.event, hanswer.row, hanswer.version, hanswer.eventId,
      hanswer.crashGuid, hanswer.usage⟩⟩
  replays := h.replays

theorem forall_mem_none {α : Type} {P : α → Prop} : ∀ a ∈ (none : Option α), P a :=
  fun a ha => absurd ha (Option.not_mem_none a)

theorem holdsPolicy_eq_false {stage : Stage} (h : stage.holdsPolicy = false) :
    stage.policy = none ∧ stage.edited = none ∧ stage.recorded = false ∧
      stage.inserted = none ∧ stage.accepted = none := by
  cases stage with
  | begun | conflicting | replaying | adding => exact ⟨rfl, rfl, rfl, rfl, rfl⟩
  | locking purpose =>
    cases purpose with
    | recordAcceptance => cases h
    | ensureSnapshot | updateUsage => exact ⟨rfl, rfl, rfl, rfl, rfl⟩
  | snapshot purpose =>
    cases purpose with
    | recordAcceptance => cases h
    | ensureSnapshot | updateUsage => exact ⟨rfl, rfl, rfl, rfl, rfl⟩
  | locked | counting | counted | updated | versioned => cases h

/-- What a transaction without the lock relies on. -/
theorem Transaction.Sound.of_free (hfree : x.stage.holdsPolicy = false)
    (hsnapshots : ∀ r ∈ x.snapshots, r.version ≤ s.policy.version ∧ history r.version = r)
    (hknown : ∀ k ∈ x.stage.known, ∃ e ∈ s.events, e.id = k.2 ∧ e.crashGuid = some k.1) :
    x.Sound history s := by
  obtain ⟨hpolicy, hedited, hrecorded, hinserted, haccepted⟩ := holdsPolicy_eq_false hfree
  refine ⟨?_, ?_, fun r hr => .inl (hsnapshots r hr), ?_, ?_, ?_, hknown⟩
  · rw [hpolicy]
    exact forall_mem_none
  · rw [hedited]
    exact forall_mem_none
  · rw [hrecorded]
    exact fun h => absurd h Bool.false_ne_true
  · rw [hinserted]
    exact forall_mem_none
  · rw [haccepted]
    exact forall_mem_none

theorem State.Consistent.start (h : s.Consistent enforcement history) {t : Uuid} {stage : Stage}
    (hs : s.start t stage = some s') (hfree : stage.holdsPolicy = false)
    (hknown : stage.known = none) : s'.Consistent enforcement history := by
  have hsound : (⟨t, [], stage⟩ : Transaction).Sound history s := by
    refine .of_free hfree (fun r hr => absurd hr List.not_mem_nil) ?_
    change ∀ k ∈ stage.known, _
    rw [hknown]
    exact forall_mem_none
  unfold State.start at hs
  split_ifs at hs with hnew
  cases hs
  have hmem := fun y => @Table.mem_insert _ _ _ _ s.transactions ⟨t, [], stage⟩ y
    (Option.not_isSome_iff_eq_none.mp hnew)
  refine h.of_transactions _ (fun x hx y hy hholds hholds' => ?_) fun x hx => ?_
  · rcases (hmem x).mp hx with rfl | hx
    · rw [hfree] at hholds
      cases hholds
    · rcases (hmem y).mp hy with rfl | hy
      · rw [hfree] at hholds'
        cases hholds'
      · exact h.alone x hx y hy hholds hholds'
  · rcases (hmem x).mp hx with rfl | hx
    · exact hsound
    · exact h.sound x hx

theorem State.Consistent.finish (h : s.Consistent enforcement history) (t : Uuid) :
    (s.finish t).Consistent enforcement history :=
  h.of_transactions _
    (fun x hx y hy => h.alone x (Table.mem_delete.mp hx).1 y (Table.mem_delete.mp hy).1)
    fun x hx => h.sound x (Table.mem_delete.mp hx).1

theorem State.Consistent.put (h : s.Consistent enforcement history) (hx : x ∈ s.transactions)
    {snapshots : List PolicyRow} {stage : Stage}
    (hholds : stage.holdsPolicy = true → x.stage.holdsPolicy = true ∨ ¬ s.policyLocked x.id)
    (hsound : (⟨x.id, snapshots, stage⟩ : Transaction).Sound history s) :
    (s.put x.id snapshots stage).Consistent enforcement history := by
  have hmem : ∀ y ∈ (s.put x.id snapshots stage).transactions,
      (y ∈ s.transactions ∧ y.id ≠ x.id) ∨ y = ⟨x.id, snapshots, stage⟩ := by
    intro y hy
    have hmodify := @Table.mem_modify _ _ _ _ s.transactions x.id
      (fun x => { x with snapshots := snapshots, stage := stage }) (fun _ => rfl) y
    rcases hmodify.mp hy with hy | ⟨z, hz, rfl⟩
    · exact .inl hy
    · rw [Table.find_eq_some.mpr ⟨hx, rfl⟩] at hz
      cases hz
      exact .inr rfl
  have hother : ∀ y ∈ s.transactions, y.id ≠ x.id → y.stage.holdsPolicy = true →
      ¬ stage.holdsPolicy = true := by
    intro y hy hne hy' hstage
    rcases hholds hstage with hx' | hlock
    · exact hne (congrArg Transaction.id (h.alone y hy x hx hy' hx'))
    · exact hlock ⟨y, hy, hne, hy'⟩
  refine h.of_transactions _ (fun y hy z hz hy' hz' => ?_) fun y hy => ?_
  · rcases hmem y hy with ⟨hy, hne⟩ | rfl
    · rcases hmem z hz with ⟨hz, -⟩ | rfl
      · exact h.alone y hy z hz hy' hz'
      · exact absurd hz' (hother y hy hne hy')
    · rcases hmem z hz with ⟨hz, hne⟩ | rfl
      · exact absurd hy' (hother z hz hne hz')
      · rfl
  · rcases hmem y hy with ⟨hy, -⟩ | rfl
    · exact h.sound y hy
    · exact hsound

theorem Transaction.Sound.snapshot (h : x.Sound history s) (hx : x.stage.edited = none) :
    ∀ r ∈ x.snapshots, r.version ≤ s.policy.version ∧ history r.version = r := by
  intro r hr
  rcases h.snapshots r hr with hold | hedited
  · exact hold
  · rw [hx] at hedited
    cases hedited

/-! ## Statements -/

theorem eventWith_eq_some {guid : Uuid} {e : EventRow} (h : s.eventWith (some guid) = some e) :
    e ∈ s.events ∧ e.crashGuid = some guid := by
  have hfound : s.events.rows.find? (fun e => e.crashGuid = some guid) = some e := h
  exact ⟨List.mem_of_find?_eq_some hfound, by simpa using List.find?_some hfound⟩

theorem eventWith_eq_none {guid : Uuid} (h : s.eventWith (some guid) = none) :
    ∀ e ∈ s.events, e.crashGuid ≠ some guid := by
  have hnone : s.events.rows.find? (fun e => e.crashGuid = some guid) = none := h
  intro e he hguid
  exact List.find?_eq_none.mp hnone e he (decide_eq_true hguid)

theorem State.Consistent.findDuplicate (h : s.Consistent enforcement history)
    (hx : x ∈ s.transactions) (hs : findDuplicate s x = some s') :
    s'.Consistent enforcement history := by
  have hsound := h.sound x hx
  unfold UsageAdmission.findDuplicate at hs
  split at hs
  · next sub hstage =>
    have hedited : x.stage.edited = none := by rw [hstage]; rfl
    have hsnapshots := hsound.snapshot hedited
    split at hs
    · next guid e hguid he =>
      cases hs
      rw [hguid] at he
      refine h.put hx nofun (.of_free rfl hsnapshots fun k hk => ?_)
      cases hk
      obtain ⟨hmem, hcrash⟩ := eventWith_eq_some he
      exact ⟨e, hmem, rfl, hcrash⟩
    · cases hs
      exact h.put hx nofun (.of_free rfl hsnapshots (forall_mem_none))
  · next guid hstage =>
    obtain ⟨e, he, rfl⟩ := Option.map_eq_some_iff.mp hs
    have hedited : x.stage.edited = none := by rw [hstage]; rfl
    have hsnapshots := hsound.snapshot hedited
    refine h.put hx nofun (.of_free rfl hsnapshots fun k hk => ?_)
    cases hk
    obtain ⟨hmem, hcrash⟩ := eventWith_eq_some he
    exact ⟨e, hmem, rfl, hcrash⟩
  · cases hs

theorem insertVersion_eq_some {policy : PolicyRow} {stage : Stage}
    (hs : s.insertVersion x policy stage = some s') : ∃ snapshots,
      s' = s.put x.id snapshots stage ∧ (∀ r ∈ snapshots, r ∈ x.snapshots ∨ r = policy) ∧
        ∃ r, (r ∈ s.versions ∨ r ∈ snapshots) ∧ r.version = policy.version := by
  unfold State.insertVersion at hs
  split_ifs at hs with hknown hlocked
  · cases hs
    refine ⟨x.snapshots, rfl, fun r hr => .inl hr, ?_⟩
    rcases hknown with hfind | ⟨r, hr, hversion⟩
    · obtain ⟨r, hr⟩ := Option.isSome_iff_exists.mp hfind
      obtain ⟨hmem, hversion⟩ := Table.find_eq_some.mp hr
      exact ⟨r, .inl hmem, hversion⟩
    · exact ⟨r, .inr hr, hversion⟩
  · cases hs
    refine ⟨policy :: x.snapshots, rfl, fun r hr => ?_, policy, .inr List.mem_cons_self, rfl⟩
    exact (List.mem_cons.mp hr).symm

theorem State.Consistent.insertCurrentPolicyVersion (h : s.Consistent enforcement history)
    (hx : x ∈ s.transactions) (hs : insertCurrentPolicyVersion s x = some s') :
    s'.Consistent enforcement history := by
  have hsound := h.sound x hx
  unfold UsageAdmission.insertCurrentPolicyVersion at hs
  split at hs
  · next purpose hstage =>
    obtain ⟨snapshots, rfl, hmem, hrecorded⟩ := insertVersion_eq_some hs
    have hedited : x.stage.edited = none := by rw [hstage]; rfl
    have hinserted : (Stage.snapshot purpose).inserted = x.stage.inserted := by
      rw [hstage]
      cases purpose <;> rfl
    have hholds : (Stage.snapshot purpose).holdsPolicy = x.stage.holdsPolicy := by
      rw [hstage]
      cases purpose <;> rfl
    refine h.put hx (fun hholds' => .inl (hholds ▸ hholds')) ⟨forall_mem_none,
      forall_mem_none, fun r hr => .inl ?_, fun _ => hrecorded,
      fun sub hsub => hsound.fresh sub (hinserted ▸ hsub), forall_mem_none,
      forall_mem_none⟩
    rcases hmem r hr with hr | rfl
    · exact hsound.snapshot hedited r hr
    · exact ⟨le_refl _, h.current⟩
  · next policy hstage =>
    obtain ⟨snapshots, rfl, hmem, -⟩ := insertVersion_eq_some hs
    have hedited : x.stage.edited = some policy := by rw [hstage]; rfl
    have hholds : x.stage.holdsPolicy = true := by rw [hstage]; rfl
    refine h.put hx (fun _ => .inl hholds) ⟨forall_mem_none, fun p hp => ?_,
      fun r hr => ?_, fun hno => absurd hno Bool.false_ne_true, forall_mem_none,
      forall_mem_none, forall_mem_none⟩
    · cases hp
      exact hsound.edited policy hedited
    · rcases hmem r hr with hr | rfl
      · rcases hsound.snapshots r hr with hold | hr
        · exact .inl hold
        · rw [hedited] at hr
          exact .inr hr
      · exact .inr rfl
  · cases hs

theorem State.Consistent.lockPolicy (h : s.Consistent enforcement history)
    (hx : x ∈ s.transactions) (hs : lockPolicy s x = some s') :
    s'.Consistent enforcement history := by
  have hsound := h.sound x hx
  unfold UsageAdmission.lockPolicy at hs
  split at hs
  · next purpose hstage =>
    split_ifs at hs with hlocked
    cases hs
    have hedited : x.stage.edited = none := by rw [hstage]; rfl
    have hinserted : (Stage.locked purpose s.policy).inserted = x.stage.inserted := by
      rw [hstage]
      cases purpose <;> rfl
    have hrecorded : (Stage.locked purpose s.policy).recorded = x.stage.recorded := by
      rw [hstage]
      cases purpose <;> rfl
    refine h.put hx (fun _ => .inr hlocked) ⟨fun p hp => ?_, forall_mem_none,
      fun r hr => .inl (hsound.snapshot hedited r hr),
      fun hrec => hsound.recorded (hrecorded ▸ hrec),
      fun sub hsub => hsound.fresh sub (hinserted ▸ hsub), forall_mem_none,
      forall_mem_none⟩
    cases hp
    rfl
  · cases hs

theorem State.Consistent.insertEvent (h : s.Consistent enforcement history)
    (hx : x ∈ s.transactions) (hs : insertEvent s x = some s') :
    s'.Consistent enforcement history := by
  have hsound := h.sound x hx
  unfold UsageAdmission.insertEvent at hs
  split at hs
  · next sub policy hstage =>
    have hedited : x.stage.edited = none := by rw [hstage]; rfl
    have hholds : x.stage.holdsPolicy = true := by rw [hstage]; rfl
    have hsnapshots := hsound.snapshot hedited
    obtain ⟨-, hs⟩ := Option.ite_none_left_eq_some.mp hs
    split at hs
    · cases hs
      exact h.put hx nofun
        (.of_free rfl (fun r hr => absurd hr List.not_mem_nil) (forall_mem_none))
    · next hnone =>
      obtain ⟨hid, hs⟩ := Option.ite_none_left_eq_some.mp hs
      cases hs
      have hfree := Table.find_eq_none.mp (Option.not_isSome_iff_eq_none.mp hid)
      refine h.put hx (fun _ => .inl hholds) ⟨forall_mem_none, forall_mem_none,
        fun r hr => .inl (hsnapshots r hr), fun hno => absurd hno Bool.false_ne_true,
        fun other hother e he => ?_, forall_mem_none, forall_mem_none⟩
      cases hother
      refine ⟨hfree e he, fun hguid => ?_⟩
      obtain ⟨guid, hguid⟩ := Option.isSome_iff_exists.mp hguid
      rw [hguid]
      cases hwith : s.eventWith sub.crashGuid with
      | some found => exact absurd hwith (hnone guid found hguid)
      | none =>
        rw [hguid] at hwith
        exact eventWith_eq_none hwith e he
  · cases hs

theorem State.Consistent.insertCounters (h : s.Consistent enforcement history)
    (hx : x ∈ s.transactions) {c : Cycle} (hs : insertCounters s x c = some s') :
    s'.Consistent enforcement history := by
  have hsound := h.sound x hx
  unfold UsageAdmission.insertCounters at hs
  split at hs
  · next sub policy hstage =>
    have hedited : x.stage.edited = none := by rw [hstage]; rfl
    have hholds : x.stage.holdsPolicy = true := by rw [hstage]; rfl
    have hnext : ∀ created, (⟨x.id, x.snapshots, .counting sub policy c created⟩ :
        Transaction).Sound history s := fun created =>
      ⟨fun p hp => hsound.policy p (by rw [hstage]; exact hp), forall_mem_none,
        fun r hr => .inl (hsound.snapshot hedited r hr),
        fun _ => hsound.recorded (by rw [hstage]; rfl),
        fun other hother => hsound.fresh other (by rw [hstage]; exact hother),
        forall_mem_none, forall_mem_none⟩
    split_ifs at hs with hfound hlocked
    · cases hs
      exact h.put hx (fun _ => .inl hholds) (hnext false)
    · cases hs
      exact h.put hx (fun _ => .inl hholds) (hnext true)
  · cases hs

theorem State.Consistent.lockCounters (h : s.Consistent enforcement history)
    (hx : x ∈ s.transactions) (hs : lockCounters s x = some s') :
    s'.Consistent enforcement history := by
  have hsound := h.sound x hx
  unfold UsageAdmission.lockCounters at hs
  split at hs
  · next sub policy c created hstage =>
    split_ifs at hs with hlocked
    cases hs
    have hedited : x.stage.edited = none := by rw [hstage]; rfl
    have hholds : x.stage.holdsPolicy = true := by rw [hstage]; rfl
    refine h.put hx (fun _ => .inl hholds)
      ⟨fun p hp => hsound.policy p (by rw [hstage]; exact hp), forall_mem_none,
        fun r hr => .inl (hsound.snapshot hedited r hr),
        fun _ => hsound.recorded (by rw [hstage]; rfl),
        fun other hother => hsound.fresh other (by rw [hstage]; exact hother), fun n hn => ?_,
        forall_mem_none⟩
    cases hn
    rfl
  · cases hs

/-! ## Answers -/

theorem countedNumbers_cons (a : AcceptedCrash) (older : List AcceptedCrash) (c : Cycle) :
    countedNumbers (a :: older) c =
      if a.usage.usageCounted = true ∧ a.usage.cycleStart = c then
        a.usage.acceptedEvents :: countedNumbers older c
      else countedNumbers older c := by
  unfold countedNumbers
  rw [List.filter_cons]
  split_ifs with hif hcond hcond
  · rfl
  · exact absurd (of_decide_eq_true hif) hcond
  · exact absurd (decide_eq_true hcond) hif
  · rfl

theorem replays_cons {a : AcceptedCrash} {answers : List AcceptedCrash} (ha : Replays a answers)
    (h : ∀ newer b older, answers = newer ++ b :: older → Replays b older) :
    ∀ newer b older, a :: answers = newer ++ b :: older → Replays b older := by
  intro newer b older heq
  cases newer with
  | nil =>
    cases heq
    exact ha
  | cons first rest => exact h rest b older (List.cons.inj heq).2

theorem State.Consistent.replay (h : s.Consistent enforcement history)
    (hx : x ∈ s.transactions) (hs : replay s x = some s') :
    s'.Consistent enforcement history := by
  have hsound := h.sound x hx
  unfold UsageAdmission.replay at hs
  split at hs
  · next guid eventId hstage =>
    obtain ⟨e, he, hs⟩ := Option.bind_eq_some_iff.mp hs
    obtain ⟨p, hp, hs⟩ := Option.bind_eq_some_iff.mp hs
    cases hs
    obtain ⟨he, hid⟩ := Table.find_eq_some.mp he
    obtain ⟨hp, hversion⟩ := Table.find_eq_some.mp hp
    obtain ⟨f, hf, hfid, hguid⟩ := hsound.known (guid, eventId) (by rw [hstage]; rfl)
    have heq : e = f := Table.eq_of_key_eq he hf (hid.trans hfid.symm)
    rw [← heq] at hguid
    have hfinish := h.finish x.id
    obtain ⟨first, hfirst, hnew, hfirstId⟩ := h.accepted e he
    exact
      { alone := hfinish.alone
        sound := fun y hy => (hfinish.sound y hy).of_eq rfl rfl rfl rfl
        current := h.current
        versions := h.versions
        numbered := h.numbered
        counted := fun c => by
          rw [countedNumbers_cons, if_neg fun hcounted => Bool.false_ne_true hcounted.1]
          exact h.counted c
        admitted := h.admitted
        once := h.once
        accepted := fun e he => by
          obtain ⟨a, ha, hdup, hid⟩ := h.accepted e he
          exact ⟨a, List.mem_cons_of_mem _ ha, hdup, hid⟩
        answers := fun a ha => by
          rcases List.mem_cons.mp ha with rfl | ha
          · exact ⟨e, p, ⟨he, hp, hversion, rfl, hguid.symm, rfl⟩⟩
          · obtain ⟨e, p, hanswer⟩ := h.answers a ha
            exact ⟨e, p, ⟨hanswer.event, hanswer.row, hanswer.version, hanswer.eventId,
              hanswer.crashGuid, hanswer.usage⟩⟩
        replays := replays_cons ⟨fun _ _ _ _ => rfl, fun _ => ⟨first, hfirst, hnew, hfirstId⟩⟩
          h.replays }
  · cases hs

/-! ## Commits -/

section snapshots
variable {t : Table PolicyRow.key} {l : List PolicyRow} {r : PolicyRow}

theorem mem_of_mem_foldl_insert (hr : r ∈ l.foldl (fun t r => t.insert r) t) : r ∈ t ∨ r ∈ l := by
  induction l generalizing t with
  | nil => exact .inl hr
  | cons q rest ih =>
    rcases ih hr with hr | hr
    · rcases Table.mem_of_mem_insert hr with rfl | hr
      · exact .inr List.mem_cons_self
      · exact .inl hr
    · exact .inr (List.mem_cons_of_mem q hr)

theorem mem_foldl_insert (hr : r ∈ t) : r ∈ l.foldl (fun t r => t.insert r) t := by
  induction l generalizing t with
  | nil => exact hr
  | cons q rest ih => exact ih (Table.mem_insert_of_mem hr)

theorem exists_mem_foldl_insert (hr : r ∈ l) :
    ∃ q ∈ l.foldl (fun t r => t.insert r) t, q.version = r.version := by
  induction l generalizing t with
  | nil => cases hr
  | cons q rest ih =>
    rcases List.mem_cons.mp hr with rfl | hr
    · have hp : ∃ p ∈ t.insert r, p.version = r.version := by
        unfold Table.insert
        split
        · next hin =>
          obtain ⟨p, hp, hkey⟩ := List.mem_map.mp hin
          exact ⟨p, hp, hkey⟩
        · exact ⟨r, List.mem_cons_self, rfl⟩
      obtain ⟨p, hp, hversion⟩ := hp
      have hfold : p ∈ rest.foldl (fun t r => t.insert r) (t.insert r) := mem_foldl_insert hp
      exact ⟨p, hfold, hversion⟩
    · exact ih hr

end snapshots

theorem mem_commit_of_mem {r : PolicyRow} (hr : r ∈ s.versions) : r ∈ (s.commit x).versions :=
  mem_foldl_insert hr

theorem State.Consistent.commit (h : s.Consistent enforcement history)
    (hx : x ∈ s.transactions) (hedited : x.stage.edited = none) :
    (s.commit x).Consistent enforcement history where
  alone := (h.finish x.id).alone
  sound y hy := by
    have hsound := h.sound y (Table.mem_delete.mp hy).1
    refine ⟨hsound.policy, hsound.edited, hsound.snapshots, fun hrecorded => ?_, hsound.fresh,
      hsound.accepted, hsound.known⟩
    obtain ⟨r, hr | hr, hversion⟩ := hsound.recorded hrecorded
    · exact ⟨r, .inl (mem_commit_of_mem hr), hversion⟩
    · exact ⟨r, .inr hr, hversion⟩
  current := h.current
  versions r hr := by
    rcases mem_of_mem_foldl_insert hr with hr | hr
    · exact h.versions r hr
    · exact (h.sound x hx).snapshot hedited r hr
  numbered := h.numbered
  counted := h.counted
  admitted e he := by
    obtain ⟨p, hp, hadmitted⟩ := h.admitted e he
    exact ⟨p, mem_commit_of_mem hp, hadmitted⟩
  once := h.once
  accepted := h.accepted
  answers a ha := by
    obtain ⟨e, p, hanswer⟩ := h.answers a ha
    exact ⟨e, p, ⟨hanswer.event, mem_commit_of_mem hanswer.row, hanswer.version, hanswer.eventId,
      hanswer.crashGuid, hanswer.usage⟩⟩
  replays := h.replays

/-- What a transaction without the lock relies on lasts. -/
theorem Transaction.Sound.idle (h : y.Sound history s) (hfree : y.stage.holdsPolicy = false)
    {later : Int → PolicyRow}
    (hpast : ∀ r : PolicyRow, r.version ≤ s.policy.version → history r.version = r →
      r.version ≤ s'.policy.version ∧ later r.version = r)
    (hevents : ∀ e ∈ s.events, e ∈ s'.events) : y.Sound later s' := by
  refine .of_free hfree (fun r hr => ?_) fun k hk => ?_
  · obtain ⟨hle, hhistory⟩ := h.snapshot (holdsPolicy_eq_false hfree).2.1 r hr
    exact hpast r hle hhistory
  · obtain ⟨e, he, hknown⟩ := h.known k hk
    exact ⟨e, hevents e he, hknown⟩

/-- The other transactions do not hold the policy while one does. -/
theorem State.Consistent.others_idle (h : s.Consistent enforcement history)
    (hx : x ∈ s.transactions) (hholds : x.stage.holdsPolicy = true)
    (hy : y ∈ (s.finish x.id).transactions) : y.stage.holdsPolicy = false := by
  obtain ⟨hy, hne⟩ := Table.mem_delete.mp hy
  by_contra hy'
  exact hne (congrArg Transaction.id (h.alone y hy x hx (Bool.eq_true_of_not_eq_false hy') hholds))

theorem State.Consistent.commitPolicy (h : s.Consistent enforcement history)
    (hx : x ∈ s.transactions) (hs : commitPolicy s x = some s') :
    ∃ later, s'.Consistent enforcement later := by
  have hsound := h.sound x hx
  unfold UsageAdmission.commitPolicy at hs
  split at hs
  · next policy hstage =>
    cases hs
    have hedited : x.stage.edited = some policy := by rw [hstage]; rfl
    have hholds : x.stage.holdsPolicy = true := by rw [hstage]; rfl
    have hversion : policy.version = s.policy.version + 1 := hsound.edited policy hedited
    have hpast : ∀ r : PolicyRow, r.version ≤ s.policy.version → history r.version = r →
        r.version ≤ policy.version ∧
          Function.update history policy.version policy r.version = r := by
      intro r hle hr
      have hne : r.version ≠ policy.version := by omega
      refine ⟨by omega, ?_⟩
      rw [Function.update_of_ne hne]
      exact hr
    refine ⟨Function.update history policy.version policy, ?_⟩
    exact
      { alone := (h.finish x.id).alone
        sound := fun y hy =>
          (h.sound y (Table.mem_delete.mp hy).1).idle (h.others_idle hx hholds hy) hpast
            fun e he => he
        current := Function.update_self _ _ _
        versions := fun r hr => by
          rcases mem_of_mem_foldl_insert hr with hr | hr
          · obtain ⟨hle, hhistory⟩ := h.versions r hr
            exact hpast r hle hhistory
          · rcases hsound.snapshots r hr with ⟨hle, hhistory⟩ | hr
            · exact hpast r hle hhistory
            · rw [hedited] at hr
              cases hr
              exact ⟨le_refl _, Function.update_self _ _ _⟩
        numbered := h.numbered
        counted := h.counted
        admitted := fun e he => by
          obtain ⟨p, hp, hadmitted⟩ := h.admitted e he
          exact ⟨p, mem_commit_of_mem hp, hadmitted⟩
        once := h.once
        accepted := h.accepted
        answers := fun a ha => by
          obtain ⟨e, p, hanswer⟩ := h.answers a ha
          exact ⟨e, p, ⟨hanswer.event, mem_commit_of_mem hanswer.row, hanswer.version,
            hanswer.eventId, hanswer.crashGuid, hanswer.usage⟩⟩
        replays := h.replays }
  · cases hs

theorem State.Consistent.updatePolicy (h : s.Consistent enforcement history)
    (hx : x ∈ s.transactions) {retained : Int} (hs : updatePolicy s x retained = some s') :
    s'.Consistent enforcement history := by
  have hsound := h.sound x hx
  unfold UsageAdmission.updatePolicy at hs
  split at hs
  · next body policy hstage =>
    have hedited : x.stage.edited = none := by rw [hstage]; rfl
    have hholds : x.stage.holdsPolicy = true := by rw [hstage]; rfl
    obtain ⟨-, hs⟩ := Option.ite_none_left_eq_some.mp hs
    by_cases hchanges : body.changes policy
    · rw [if_neg (not_not_intro hchanges)] at hs
      obtain ⟨-, hs⟩ := Option.ite_none_right_eq_some.mp hs
      cases hs
      refine h.put hx (fun _ => .inl hholds) ⟨forall_mem_none, fun p hp => ?_,
        fun r hr => .inl (hsound.snapshot hedited r hr),
        fun hno => absurd hno Bool.false_ne_true, forall_mem_none,
        forall_mem_none, forall_mem_none⟩
      cases hp
      rfl
    · rw [if_pos hchanges] at hs
      cases hs
      exact h.commit hx hedited
  · cases hs

/-! ## Counters -/

/-- The counters of a month after an update, as those of a project. -/
theorem addToCycle_eq_some {d : CycleCounters} (hs : s.addToCycle d = some s') :
    s' = { s with counters := s'.counters } ∧
      ∀ c, s'.cycle c = if c = d.cycleStart then (s.cycle c).add d else s.cycle c := by
  unfold State.addToCycle at hs
  obtain ⟨hfits, hs⟩ := Option.ite_none_right_eq_some.mp hs
  cases hs
  refine ⟨rfl, ?_⟩
  let p : Project := { Project.created s.policy.toUsagePolicy false with counters := s.counters }
  exact (Usage.addToCycle_eq_some (p := p) (if_pos hfits)).2

/-- A change of other counters than the number of accepted events. -/
theorem State.Consistent.of_counters (h : s.Consistent enforcement history)
    (hs : s' = { s with counters := s'.counters })
    (hcycle : ∀ c, (s'.cycle c).acceptedEvents = (s.cycle c).acceptedEvents) :
    s'.Consistent enforcement history := by
  have hpolicy : s'.policy = s.policy := by rw [hs]
  have hversions : s'.versions = s.versions := by rw [hs]
  have hevents : s'.events = s.events := by rw [hs]
  have hanswers : s'.answers = s.answers := by rw [hs]
  have htransactions : s'.transactions = s.transactions := by rw [hs]
  have hnumbers : ∀ c, s'.numbers c = s.numbers c := fun c => by
    rw [State.numbers, hevents, State.numbers]
  refine ⟨?_, fun x hx => ?_, ?_, ?_, fun c => ?_, fun c => ?_, ?_, ?_, ?_, fun a ha => ?_, ?_⟩
  · rw [htransactions]
    exact h.alone
  · rw [htransactions] at hx
    have hsound := h.sound x hx
    refine ⟨?_, ?_, ?_, ?_, ?_, fun n hn => ?_, ?_⟩
    · rw [hpolicy]
      exact hsound.policy
    · rw [hpolicy]
      exact hsound.edited
    · rw [hpolicy]
      exact hsound.snapshots
    · rw [hpolicy, hversions]
      exact hsound.recorded
    · rw [hevents]
      exact hsound.fresh
    · rw [hcycle]
      exact hsound.accepted n hn
    · rw [hevents]
      exact hsound.known
  · rw [hpolicy]
    exact h.current
  · rw [hversions, hpolicy]
    exact h.versions
  · rw [hnumbers, hcycle]
    exact h.numbered c
  · rw [hanswers, hnumbers]
    exact h.counted c
  · rw [hevents, hversions]
    exact h.admitted
  · rw [hevents]
    exact h.once
  · rw [hevents, hanswers]
    exact h.accepted
  · rw [hanswers] at ha
    obtain ⟨e, p, hanswer⟩ := h.answers a ha
    exact ⟨e, p, ⟨hevents ▸ hanswer.event, hversions ▸ hanswer.row, hanswer.version,
      hanswer.eventId, hanswer.crashGuid, hanswer.usage⟩⟩
  · rw [hanswers]
    exact h.replays

theorem State.Consistent.commitCounters (h : s.Consistent enforcement history)
    (hx : x ∈ s.transactions) (hs : commitCounters s x = some s') :
    s'.Consistent enforcement history := by
  unfold UsageAdmission.commitCounters at hs
  split at hs
  · next c delta hstage =>
    have hedited : x.stage.edited = none := by rw [hstage]; rfl
    obtain ⟨heq, hcycle⟩ := addToCycle_eq_some hs
    refine (h.commit hx hedited).of_counters heq fun c' => ?_
    rw [hcycle]
    split_ifs
    · exact Nat.add_zero _
    · rfl
  · cases hs

/-! ## Acceptances -/

theorem reverse_range_succ (n : Nat) :
    (List.range' 1 (n + 1)).reverse = (n + 1) :: (List.range' 1 n).reverse := by
  rw [List.range'_concat, List.reverse_append, List.reverse_singleton, List.singleton_append,
    Nat.one_mul, Nat.add_comm 1 n]

/-- The numbers of a month after an event with the next one. -/
theorem numbers_insert {e : EventRow} (hnew : s.events.find e.id = none) (c : Cycle) :
    ({ s with events := s.events.insert e } : State).numbers c =
      if e.usageCycleStart = c then e.usageAcceptedEvents :: s.numbers c else s.numbers c := by
  have hrows : (s.events.insert e).rows = e :: s.events.rows := Table.rows_insert hnew
  unfold State.numbers
  dsimp only
  rw [hrows, List.filter_cons]
  split_ifs with hif hcond hcond
  · rfl
  · exact absurd (of_decide_eq_true hif) hcond
  · exact absurd (decide_eq_true hcond) hif
  · rfl

/-- The state with an acceptance of a submission under the current policy. -/
theorem State.Consistent.accept (h : s.Consistent enforcement history)
    (hidle : ∀ y ∈ s.transactions, y.stage.holdsPolicy = false)
    (hpolicy : s.policy ∈ s.versions) {sub : Submission} {c : Cycle}
    (hfresh : ∀ e ∈ s.events,
      e.id ≠ sub.eventId ∧ (sub.crashGuid.isSome → e.crashGuid ≠ sub.crashGuid))
    (hs : s.addToCycle { CycleCounters.zero c with
      acceptedEvents := 1, acceptedRawBytes := sub.rawBytes } = some s') :
    let next := (s.cycle c).acceptedEvents + 1
    ({ s' with
      events := s'.events.insert (recordAcceptance sub s.policy c next enforcement)
      answers := ⟨sub.eventId, sub.crashGuid, false, acceptance s.policy c next enforcement⟩ ::
        s'.answers } : State).Consistent enforcement history := by
  intro next
  obtain ⟨heq, hcycle⟩ := addToCycle_eq_some hs
  generalize s'.counters = counters at heq
  subst heq
  have hnew : s.events.find (recordAcceptance sub s.policy c next enforcement).id = none :=
    Table.find_eq_none.mpr fun e he => (hfresh e he).1
  have hmem := fun e => @Table.mem_insert _ _ _ _ s.events
    (recordAcceptance sub s.policy c next enforcement) e hnew
  have hnumbers : ∀ c', State.numbers { s with
      events := s.events.insert (recordAcceptance sub s.policy c next enforcement) } c' =
        if c = c' then next :: s.numbers c' else s.numbers c' := numbers_insert hnew
  have haccepted : ∀ c', (State.cycle { s with counters := counters } c').acceptedEvents =
      if c = c' then next else (s.cycle c').acceptedEvents := by
    intro c'
    rw [hcycle c']
    by_cases hc : c' = c
    · subst hc
      rw [if_pos rfl]
      exact congrArg CycleCounters.acceptedEvents (if_pos rfl)
    · rw [if_neg (Ne.symm hc)]
      exact congrArg CycleCounters.acceptedEvents (if_neg hc)
  exact
    { alone := fun x hx y hy hx' => by
        rw [hidle x hx] at hx'
        cases hx'
      sound := fun x hx => (h.sound x hx).idle (hidle x hx) (fun r hle hr => ⟨hle, hr⟩)
        fun e he => (hmem e).mpr (.inr he)
      current := h.current
      versions := h.versions
      numbered := fun c' => by
        change (State.numbers { s with events := s.events.insert _ } c') =
          (List.range' 1 (State.cycle { s with counters := counters } c').acceptedEvents).reverse
        rw [hnumbers, haccepted]
        by_cases hc : c = c'
        · subst hc
          rw [if_pos rfl, if_pos rfl, reverse_range_succ, ← h.numbered]
        · rw [if_neg hc, if_neg hc]
          exact h.numbered c'
      counted := fun c' => by
        change countedNumbers (_ :: s.answers) c' =
          State.numbers { s with events := s.events.insert _ } c'
        rw [hnumbers, countedNumbers_cons, h.counted]
        by_cases hc : c = c'
        · rw [if_pos ⟨rfl, hc⟩, if_pos hc]
          rfl
        · rw [if_neg fun hcounted => hc hcounted.2, if_neg hc]
      admitted := fun e he => by
        rcases (hmem e).mp he with rfl | he
        · exact ⟨s.policy, hpolicy, rfl, rfl⟩
        · exact h.admitted e he
      once := fun e he f hf hsome hguid => by
        rcases (hmem e).mp he with rfl | he
        · rcases (hmem f).mp hf with rfl | hf
          · rfl
          · exact absurd hguid.symm ((hfresh f hf).2 hsome)
        · rcases (hmem f).mp hf with rfl | hf
          · rw [hguid] at hsome
            exact absurd hguid ((hfresh e he).2 hsome)
          · exact h.once e he f hf hsome hguid
      accepted := fun e he => by
        rcases (hmem e).mp he with rfl | he
        · exact ⟨_, List.mem_cons_self, rfl, rfl⟩
        · obtain ⟨a, ha, hnew, hid⟩ := h.accepted e he
          exact ⟨a, List.mem_cons_of_mem _ ha, hnew, hid⟩
      answers := fun a ha => by
        rcases List.mem_cons.mp ha with rfl | ha
        · exact ⟨_, s.policy, ⟨(hmem _).mpr (.inl rfl), hpolicy, rfl, rfl, rfl,
            acceptance_eq sub s.policy c next enforcement⟩⟩
        · obtain ⟨e, p, hanswer⟩ := h.answers a ha
          exact ⟨e, p, ⟨(hmem e).mpr (.inr hanswer.event), hanswer.row, hanswer.version,
            hanswer.eventId, hanswer.crashGuid, hanswer.usage⟩⟩
      replays := replays_cons
        ⟨fun first hfirst hguid hsome => by
          obtain ⟨e, p, hanswer⟩ := h.answers first hfirst
          have he := (hfresh e hanswer.event).2 hsome
          exact absurd (hanswer.crashGuid.symm.trans hguid) he, nofun⟩ h.replays }

theorem State.Consistent.commitAcceptance (h : s.Consistent enforcement history)
    (hx : x ∈ s.transactions) (hs : commitAcceptance s x enforcement = some s') :
    s'.Consistent enforcement history := by
  have hsound := h.sound x hx
  unfold UsageAdmission.commitAcceptance at hs
  split at hs
  · next sub policy c accepted hstage =>
    have hedited : x.stage.edited = none := by rw [hstage]; rfl
    have hholds : x.stage.holdsPolicy = true := by rw [hstage]; rfl
    have hpolicy : policy = s.policy := hsound.policy policy (by rw [hstage]; rfl)
    have haccepted : accepted = (s.cycle c).acceptedEvents :=
      hsound.accepted (c, accepted) (by rw [hstage]; rfl)
    have hfresh := hsound.fresh sub (by rw [hstage]; rfl)
    obtain ⟨s₂, hs₂, rfl⟩ := Option.map_eq_some_iff.mp hs
    have hcommit := h.commit hx hedited
    have hrow : s.policy ∈ (s.commit x).versions := by
      obtain ⟨r, hr, hversion⟩ := hsound.recorded (by rw [hstage]; rfl)
      have hq : ∃ q ∈ (s.commit x).versions, q.version = s.policy.version := by
        rcases hr with hr | hr
        · exact ⟨r, mem_commit_of_mem hr, hversion⟩
        · obtain ⟨q, hq, hqr⟩ := @exists_mem_foldl_insert s.versions x.snapshots r hr
          exact ⟨q, hq, hqr.trans hversion⟩
      obtain ⟨q, hq, hqversion⟩ := hq
      have heq := (hcommit.versions q hq).2
      rw [hqversion, h.current] at heq
      rw [heq]
      exact hq
    subst hpolicy haccepted
    exact hcommit.accept (fun y hy => h.others_idle hx hholds hy) hrow hfresh hs₂
  · cases hs

/-! ## Runs -/

theorem consistent_step {a : Action} (h : s.Consistent enforcement history)
    (hs : step enforcement s a = some s') : ∃ later, s'.Consistent enforcement later := by
  cases a with
  | persistEvent t sub =>
    exact ⟨history, h.start hs rfl rfl⟩
  | updateUsage t body =>
    exact ⟨history, h.start hs rfl rfl⟩
  | addToCounters t c delta =>
    obtain ⟨-, hs⟩ := Option.ite_none_left_eq_some.mp hs
    exact ⟨history, h.start hs rfl rfl⟩
  | rollback t =>
    cases hs
    exact ⟨history, h.finish t⟩
  | findDuplicate t =>
    obtain ⟨x, hx, hs⟩ := Option.bind_eq_some_iff.mp hs
    exact ⟨history, h.findDuplicate (Table.find_eq_some.mp hx).1 hs⟩
  | replay t =>
    obtain ⟨x, hx, hs⟩ := Option.bind_eq_some_iff.mp hs
    exact ⟨history, h.replay (Table.find_eq_some.mp hx).1 hs⟩
  | insertCurrentPolicyVersion t =>
    obtain ⟨x, hx, hs⟩ := Option.bind_eq_some_iff.mp hs
    exact ⟨history, h.insertCurrentPolicyVersion (Table.find_eq_some.mp hx).1 hs⟩
  | lockPolicy t =>
    obtain ⟨x, hx, hs⟩ := Option.bind_eq_some_iff.mp hs
    exact ⟨history, h.lockPolicy (Table.find_eq_some.mp hx).1 hs⟩
  | insertEvent t =>
    obtain ⟨x, hx, hs⟩ := Option.bind_eq_some_iff.mp hs
    exact ⟨history, h.insertEvent (Table.find_eq_some.mp hx).1 hs⟩
  | insertCounters t c =>
    obtain ⟨x, hx, hs⟩ := Option.bind_eq_some_iff.mp hs
    exact ⟨history, h.insertCounters (Table.find_eq_some.mp hx).1 hs⟩
  | lockCounters t =>
    obtain ⟨x, hx, hs⟩ := Option.bind_eq_some_iff.mp hs
    exact ⟨history, h.lockCounters (Table.find_eq_some.mp hx).1 hs⟩
  | commitAcceptance t =>
    obtain ⟨x, hx, hs⟩ := Option.bind_eq_some_iff.mp hs
    exact ⟨history, h.commitAcceptance (Table.find_eq_some.mp hx).1 hs⟩
  | updatePolicy t retained =>
    obtain ⟨x, hx, hs⟩ := Option.bind_eq_some_iff.mp hs
    exact ⟨history, h.updatePolicy (Table.find_eq_some.mp hx).1 hs⟩
  | commitPolicy t =>
    obtain ⟨x, hx, hs⟩ := Option.bind_eq_some_iff.mp hs
    exact h.commitPolicy (Table.find_eq_some.mp hx).1 hs
  | commitCounters t =>
    obtain ⟨x, hx, hs⟩ := Option.bind_eq_some_iff.mp hs
    exact ⟨history, h.commitCounters (Table.find_eq_some.mp hx).1 hs⟩

theorem consistent_created (policy : PolicyRow) :
    (State.created policy).Consistent enforcement fun _ => policy where
  alone x hx := absurd hx (Table.not_mem_empty x)
  sound x hx := absurd hx (Table.not_mem_empty x)
  current := rfl
  versions r hr := by
    have hmem : r ∈ (Table.empty : Table PolicyRow.key).insert policy := hr
    rcases Table.mem_of_mem_insert hmem with rfl | hr
    · exact ⟨le_refl _, rfl⟩
    · exact absurd hr (Table.not_mem_empty r)
  numbered _ := rfl
  counted _ := rfl
  admitted e he := absurd he (Table.not_mem_empty e)
  once e he := absurd he (Table.not_mem_empty e)
  accepted e he := absurd he (Table.not_mem_empty e)
  answers a ha := absurd ha List.not_mem_nil
  replays newer a older h := by
    have hmem : a ∈ (State.created policy).answers := by
      rw [h]
      exact List.mem_append_right _ List.mem_cons_self
    exact absurd hmem List.not_mem_nil

/-- What an answer reports of an admission that an earlier answer has reported. -/
structure AcceptedCrash.Repeats (a first : AcceptedCrash) : Prop where
  duplicate : a.duplicate = true
  uncounted : a.usage.usageCounted = false
  eventId : a.eventId = first.eventId
  usage : SameAdmission a.usage first.usage

/-- Admission is exact and can be replayed. -/
structure State.Exact (enforcement : Bool) (s : State) : Prop where
  numbered : ∀ c, (s.numbers c).Perm (List.range' 1 (s.cycle c).acceptedEvents)
  decided : ∀ e ∈ s.events, ∃ p ∈ s.versions, p.version = e.usagePolicyVersion ∧
    e.usageOutcome = if enforcement then p.outcome e.usageAcceptedEvents else .standard
  ordered : ∀ e ∈ s.events, ∀ f ∈ s.events, e.usagePolicyVersion = f.usagePolicyVersion →
    e.usageAcceptedEvents ≤ f.usageAcceptedEvents →
    outcomeRank e.usageOutcome ≤ outcomeRank f.usageOutcome
  counted : ∀ c, (countedNumbers s.answers c).Perm (List.range' 1 (s.cycle c).acceptedEvents)
  repeats : ∀ newer a older, s.answers = newer ++ a :: older → a.crashGuid.isSome →
    ∀ first ∈ older, first.crashGuid = a.crashGuid → a.Repeats first
  accepted : ∀ newer a older, s.answers = newer ++ a :: older → a.duplicate = true →
    ∃ first ∈ older, first.duplicate = false ∧ first.usage.usageCounted = true ∧ a.Repeats first

/-- Two answers about one event are about one admission. -/
theorem State.Answers.sameAdmission {a b : AcceptedCrash} {e : EventRow} {p q : PolicyRow}
    (ha : s.Answers a e p) (hb : s.Answers b e q) : SameAdmission a.usage b.usage := by
  have hpq : p = q := Table.eq_of_key_eq ha.row hb.row (ha.version.trans hb.version.symm)
  subst hpq
  rw [ha.usage, hb.usage]
  exact ⟨rfl, rfl, rfl, rfl, rfl, rfl, rfl⟩

theorem State.Consistent.repeats (h : s.Consistent enforcement history)
    {a first : AcceptedCrash} (ha : a ∈ s.answers) (hfirst : first ∈ s.answers)
    (hdup : a.duplicate = true) (hid : a.eventId = first.eventId) : a.Repeats first := by
  obtain ⟨e, p, ha⟩ := h.answers a ha
  obtain ⟨f, q, hf⟩ := h.answers first hfirst
  have hef : e = f := Table.eq_of_key_eq ha.event hf.event
    (ha.eventId.symm.trans (hid.trans hf.eventId))
  subst hef
  refine ⟨hdup, ?_, hid, ha.sameAdmission hf⟩
  rw [ha.usage, hdup]
  rfl

theorem State.Consistent.exact (h : s.Consistent enforcement history) : s.Exact enforcement where
  numbered c := by
    rw [h.numbered]
    exact List.reverse_perm _
  decided e he := by
    obtain ⟨p, hp, hadmitted⟩ := h.admitted e he
    exact ⟨p, hp, hadmitted.version, hadmitted.outcome⟩
  ordered e he f hf hversion hle := by
    obtain ⟨p, hp, hadmitted⟩ := h.admitted e he
    obtain ⟨q, hq, hadmitted'⟩ := h.admitted f hf
    have hpq : p = q := Table.eq_of_key_eq hp hq
      (hadmitted.version.trans (hversion.trans hadmitted'.version.symm))
    subst hpq
    rw [hadmitted.outcome, hadmitted'.outcome]
    exact admissionOutcome_mono p.toUsagePolicy enforcement (Int.ofNat_le.mpr hle)
  counted c := by
    rw [h.counted, h.numbered]
    exact List.reverse_perm _
  repeats newer a older heq hsome first hfirst hguid := by
    have ha : a ∈ s.answers := by
      rw [heq]
      exact List.mem_append_right _ List.mem_cons_self
    have hmem : first ∈ s.answers := by
      rw [heq]
      exact List.mem_append_right _ (List.mem_cons_of_mem _ hfirst)
    obtain ⟨e, p, hanswer⟩ := h.answers a ha
    obtain ⟨f, q, hanswer'⟩ := h.answers first hmem
    have hef : e = f := by
      apply h.once e hanswer.event f hanswer'.event
      · rw [← hanswer.crashGuid]
        exact hsome
      · rw [← hanswer.crashGuid, ← hanswer'.crashGuid, hguid]
    have hid : a.eventId = first.eventId := by rw [hanswer.eventId, hanswer'.eventId, hef]
    exact h.repeats ha hmem ((h.replays newer a older heq).1 first hfirst hguid hsome) hid
  accepted newer a older heq hdup := by
    have ha : a ∈ s.answers := by
      rw [heq]
      exact List.mem_append_right _ List.mem_cons_self
    obtain ⟨first, hfirst, hnew, hid⟩ := (h.replays newer a older heq).2 hdup
    have hmem : first ∈ s.answers := by
      rw [heq]
      exact List.mem_append_right _ (List.mem_cons_of_mem _ hfirst)
    obtain ⟨f, q, hanswer⟩ := h.answers first hmem
    refine ⟨first, hfirst, hnew, ?_, h.repeats ha hmem hdup hid.symm⟩
    rw [hanswer.usage, hnew]
    rfl

end steps

section sample

/-- A policy with room for one standard event. -/
def tightPolicy : PolicyRow where
  version := 1
  eventLimit := 1
  artifactStorageLimitBytes := 25000000000
  rawRetentionDays := 7
  courtesyPercent := 20
  spendCapCents := none
  retainAllRaw := false
  projectLimit := 1
  normalizedRetentionLimitDays := 30
  rawRetentionLimitDays := 7
  normalizedRetentionDays := 30

/-- Two submissions of one crash at a time, a second crash, and a policy that changes. -/
def racingSubmissions : List Action :=
  [.persistEvent 1 ⟨11, some 5, 100⟩, .persistEvent 2 ⟨12, some 5, 100⟩,
    .updateUsage 3 ⟨some 1500, false, 30, 7⟩, .findDuplicate 1, .findDuplicate 2,
    .insertCurrentPolicyVersion 1, .insertCurrentPolicyVersion 2, .insertCurrentPolicyVersion 3,
    .lockPolicy 1, .insertEvent 1, .insertCurrentPolicyVersion 1, .lockPolicy 1,
    .insertCounters 1 0, .lockCounters 1, .commitAcceptance 1, .lockPolicy 3, .updatePolicy 3 0,
    .addToCounters 4 0 ⟨50, 0, 0, 0⟩, .insertCurrentPolicyVersion 3, .commitPolicy 3,
    .lockPolicy 2, .insertEvent 2, .findDuplicate 2, .replay 2, .commitCounters 4,
    .persistEvent 5 ⟨13, some 6, 100⟩, .findDuplicate 5, .insertCurrentPolicyVersion 5,
    .lockPolicy 5, .insertEvent 5, .insertCurrentPolicyVersion 5, .lockPolicy 5,
    .insertCounters 5 0, .lockCounters 5, .commitAcceptance 5, .persistEvent 6 ⟨14, some 5, 9⟩,
    .findDuplicate 6, .replay 6]

def racingAnswers : Option (List (Uuid × Bool × Int × Outcome × Nat)) :=
  (run (step true) (fun _ => True) (.created tightPolicy) racingSubmissions).map fun s =>
    s.answers.map fun a => (a.eventId, a.duplicate, a.usage.policyVersion, a.usage.outcome,
      a.usage.acceptedEvents)

example : racingAnswers = some [(11, true, 1, .standard, 1), (13, false, 2, .overage, 2),
    (11, true, 1, .standard, 1), (11, false, 1, .standard, 1)] := by
  decide

end sample
end FaultLane.UsageAdmission

import FaultLane.UsageRuns

set_option autoImplicit false

/-!
# The accounts of a project

The monthly counters are the sums of the ledger rows of their month, and the storage
counter, once reconciled, is the sum of the sizes of the raw objects that are still kept.
-/
namespace FaultLane.Usage
open KeyedTable JobQueue TransitionSystem

/-- The counter that belongs to a kind of ledger row. -/
def CycleCounters.quantity (c : CycleCounters) : LedgerKind → Nat
  | .acceptedEvent => c.acceptedEvents
  | .rawStored => c.acceptedRawBytes
  | .rawDeleted => c.deletedRawBytes
  | .symbolStored => c.acceptedSymbolBytes

def LedgerRow.counts (k : LedgerKind) (c : Cycle) (r : LedgerRow) : Nat :=
  if r.kind = k ∧ r.cycleStart = c then r.quantity else 0

def Project.ledgerTotal (p : Project) (k : LedgerKind) (c : Cycle) : Nat :=
  p.ledger.total (LedgerRow.counts k c)

def Project.retainedTotal (p : Project) : Nat := p.objects.total RawObject.retainedBytes

def Project.Balanced (p : Project) : Prop :=
  ∀ c k, (p.cycle c).quantity k = p.ledgerTotal k c

/-- Only a discarded object has been counted as deleted. -/
def Project.Settled (p : Project) : Prop :=
  ∀ r ∈ p.ledger, r.kind = .rawDeleted →
    ∃ o ∈ p.objects, o.id = r.sourceId ∧ o.lifecycle = .discarded

structure StorageCounter.Gauges (s : StorageCounter) (retained : Nat) : Prop where
  retained : s.reconciled = true → s.retainedRawBytes = retained
  raw : 0 ≤ s.retainedRawBytes
  symbol : 0 ≤ s.retainedSymbolBytes

structure Project.Accounted (p : Project) : Prop where
  balanced : p.Balanced
  settled : p.Settled
  storage : p.storage.Gauges p.retainedTotal

section counters
variable {p p' : Project}

@[simp] theorem quantity_add (a b : CycleCounters) (k : LedgerKind) :
    (a.add b).quantity k = a.quantity k + b.quantity k := by
  cases k <;> rfl

@[simp] theorem cycle_cycleStart (c : Cycle) : (p.cycle c).cycleStart = c := by
  unfold Project.cycle
  cases h : p.counters.find c with
  | none => rfl
  | some row => exact (Table.find_eq_some.mp h).2

/-- The counters of a month after an upsert. -/
theorem addToCycle_eq_some {d : CycleCounters} (h : p.addToCycle d = some p') :
    p' = { p with counters := p'.counters } ∧
      ∀ c, p'.cycle c = if c = d.cycleStart then (p.cycle c).add d else p.cycle c := by
  unfold Project.addToCycle at h
  dsimp only at h
  split_ifs at h with hfits
  cases h
  refine ⟨rfl, fun c => ?_⟩
  split_ifs with hc
  · subst hc
    have hnext : ((p.cycle d.cycleStart).add d).cycleStart = d.cycleStart := cycle_cycleStart _
    cases hf : p.counters.find d.cycleStart with
    | some row =>
      simp only [Project.cycle, hf, Table.find_modify_self, Option.map_some, Option.getD_some]
      rfl
    | none =>
      have hnew : p.counters.find ((p.cycle d.cycleStart).add d).cycleStart = none := by
        rw [hnext]
        exact hf
      have hself := Table.find_insert_self hnew
      rw [hnext] at hself
      simp only [Project.cycle, hf, Option.getD_none] at hself ⊢
      rw [hself]
      rfl
  · cases hf : p.counters.find d.cycleStart with
    | some row => simp only [Project.cycle, Table.find_modify_of_ne _ _ _ hc]
    | none =>
      have hne : c ≠ ((p.cycle d.cycleStart).add d).cycleStart := by
        rw [CycleCounters.add, cycle_cycleStart]
        exact hc
      simp only [Project.cycle] at hne ⊢
      rw [Table.find_insert_of_ne hne]

theorem insertLedger_eq_some {r : LedgerRow} (h : p.insertLedger r = some p') :
    p.ledger.find r.key = none ∧ p' = { p with ledger := p.ledger.insert r } := by
  unfold Project.insertLedger at h
  split_ifs at h with hnew
  cases h
  exact ⟨Option.not_isSome_iff_eq_none.mp hnew, rfl⟩

theorem ledgerTotal_insert {r : LedgerRow} (h : p.ledger.find r.key = none) (k : LedgerKind)
    (c : Cycle) :
    { p with ledger := p.ledger.insert r }.ledgerTotal k c = r.counts k c + p.ledgerTotal k c :=
  Table.total_insert h _

theorem applyStorageDelta_eq_some {raw symbol : Int} (h : p.applyStorageDelta raw symbol = some p') :
    p' = { p with storage := p'.storage } ∧ p'.storage.reconciled = p.storage.reconciled ∧
      ((p.storage.reconciled = false ∧ p'.storage = p.storage) ∨
        (p'.storage.retainedRawBytes = p.storage.retainedRawBytes + raw ∧
          0 ≤ p'.storage.retainedRawBytes ∧ 0 ≤ p'.storage.retainedSymbolBytes)) := by
  unfold Project.applyStorageDelta at h
  dsimp only at h
  split_ifs at h with hr hb
  · cases h
    exact ⟨rfl, rfl, .inl ⟨hr, rfl⟩⟩
  · cases h
    exact ⟨rfl, rfl, .inr ⟨rfl, hb.1, hb.2.1⟩⟩

/-- The gauge follows the objects when the delta is the change of their total. -/
theorem StorageCounter.Gauges.delta {s s' : StorageCounter} {retained retained' : Nat} {raw : Int}
    (h : s.Gauges retained) (hr : s'.reconciled = s.reconciled)
    (hd : (s.reconciled = false ∧ s' = s) ∨ (s'.retainedRawBytes = s.retainedRawBytes + raw ∧
      0 ≤ s'.retainedRawBytes ∧ 0 ≤ s'.retainedSymbolBytes))
    (ht : (retained' : Int) = retained + raw) : s'.Gauges retained' := by
  rcases hd with ⟨hfalse, rfl⟩ | ⟨hraw, hraw0, hsymbol0⟩
  · refine ⟨fun htrue => ?_, h.raw, h.symbol⟩
    rw [hfalse] at htrue
    cases htrue
  · refine ⟨fun htrue => ?_, hraw0, hsymbol0⟩
    have hold := h.retained (hr ▸ htrue)
    omega

end counters

/-! ## Objects -/

section objects
variable {p p' p'' : Project}

theorem mem_setObject {o o' x : RawObject} (ho : o ∈ p.objects) (hid : o'.id = o.id) :
    x ∈ (p.setObject o').objects ↔ (x ∈ p.objects ∧ x.id ≠ o'.id) ∨ x = o' := by
  have hf : p.objects.find o'.id = some o := Table.find_eq_some.mpr ⟨ho, hid.symm⟩
  have heq : { o' with id := o.id } = o' := by
    cases o'
    cases hid
    rfl
  simp only [Project.setObject, Table.mem_modify, hf, Option.some.injEq, exists_eq_left', heq]

theorem retainedTotal_setObject {o o' : RawObject} (ho : o ∈ p.objects) (hid : o'.id = o.id) :
    (p.setObject o').retainedTotal + o.retainedBytes = p.retainedTotal + o'.retainedBytes := by
  have hf : p.objects.find o'.id = some o := Table.find_eq_some.mpr ⟨ho, hid.symm⟩
  exact Table.total_modify (g := fun old => { o' with id := old.id }) (fun _ => rfl) hf
    RawObject.retainedBytes

/-- What leaves the accounts alone. -/
structure Project.Keeps (p p' : Project) : Prop where
  ledger : p'.ledger = p.ledger
  counters : p'.counters = p.counters
  storage : p'.storage = p.storage
  retained : p'.retainedTotal = p.retainedTotal
  discarded : ∀ o ∈ p.objects, o.lifecycle = .discarded → o ∈ p'.objects

theorem Project.Keeps.of_objects (hl : p'.ledger = p.ledger) (hc : p'.counters = p.counters)
    (hs : p'.storage = p.storage) (ho : p'.objects = p.objects) : p.Keeps p' :=
  ⟨hl, hc, hs, by rw [Project.retainedTotal, ho]; rfl, fun _ h _ => ho ▸ h⟩

theorem Project.Keeps.refl (p : Project) : p.Keeps p := .of_objects rfl rfl rfl rfl

theorem Project.Keeps.trans (h : p.Keeps p') (h' : p'.Keeps p'') : p.Keeps p'' :=
  ⟨h'.ledger.trans h.ledger, h'.counters.trans h.counters, h'.storage.trans h.storage,
    h'.retained.trans h.retained, fun o ho hd => h'.discarded o (h.discarded o ho hd) hd⟩

theorem Project.Accounted.keep (h : p.Accounted) (hk : p.Keeps p') : p'.Accounted where
  balanced c k := by
    rw [Project.cycle, hk.counters, Project.ledgerTotal, hk.ledger]
    exact h.balanced c k
  settled r hr hkind := by
    obtain ⟨o, ho, hid, hd⟩ := h.settled r (hk.ledger ▸ hr) hkind
    exact ⟨o, hk.discarded o ho hd, hid, hd⟩
  storage := by
    rw [hk.storage, hk.retained]
    exact h.storage

/-- An object that is kept before and after. -/
theorem keeps_setObject {o o' : RawObject} (ho : o ∈ p.objects) (hid : o'.id = o.id)
    (hsize : o'.byteSize = o.byteSize) (hr : o.retained) (hr' : o'.retained) :
    p.Keeps (p.setObject o') := by
  refine ⟨rfl, rfl, rfl, ?_, fun x hx hd => ?_⟩
  · have htotal := retainedTotal_setObject ho hid
    rw [RawObject.retainedBytes, if_pos hr, RawObject.retainedBytes, if_pos hr', hsize] at htotal
    omega
  · refine (mem_setObject ho hid).mpr (.inl ⟨hx, fun heq => ?_⟩)
    obtain rfl := Table.eq_of_key_eq hx ho (heq.trans hid)
    rw [RawObject.retained, hd] at hr
    simp at hr

theorem keeps_setRetentionClass (eventId : Uuid) (c : RetentionClass) :
    p.Keeps (p.setRetentionClass eventId c) := .of_objects rfl rfl rfl rfl

theorem keeps_group (eventId : Uuid) (g : Grouping) : p.Keeps (p.group eventId g) :=
  .of_objects rfl rfl rfl rfl

theorem keeps_deleting {o : RawObject} (ho : o ∈ p.objects) (hs : o.lifecycle = .stored) :
    p.Keeps (p.setObject { o with lifecycle := .deleting }) :=
  keeps_setObject ho rfl rfl (.inl hs) (.inr rfl)

theorem keeps_enqueueRawDeletion (eventId objectId : Uuid) (c : RetentionClass) (now : Nat) :
    p.Keeps (p.enqueueRawDeletion eventId objectId c now) := by
  unfold Project.enqueueRawDeletion
  cases hf : p.objects.find objectId with
  | none => exact .refl p
  | some o =>
    dsimp only
    split_ifs with hs
    · have hdeleting := keeps_deleting (Table.find_eq_some.mp hf).1 hs
      exact hdeleting.trans ((keeps_setRetentionClass eventId c).trans (.of_objects rfl rfl rfl rfl))
    · exact .refl p

theorem keeps_retain (eventId : Uuid) (r : Retention) (reservoir : Bool) (now : Nat) :
    p.Keeps (p.retain eventId r reservoir now) := by
  cases r with
  | unchanged => exact .refl p
  | keep c => exact keeps_setRetentionClass eventId c
  | age aged object newer =>
    have haged : p.Keeps (if reservoir then p.setRetentionClass aged .reservoir
        else p.enqueueRawDeletion aged object .deleting now) := by
      split_ifs
      · exact keeps_setRetentionClass aged .reservoir
      · exact keeps_enqueueRawDeletion aged object .deleting now
    cases newer with
    | false => exact haged
    | true => exact haged.trans (keeps_setRetentionClass eventId .recent)

theorem keeps_scheduleRawRetention {eventId : Uuid} {enforce v2 : Bool} {symbolBytes : Nat}
    {issue : Option IssueRow} {reservoir : Bool} {now : Nat}
    (h : p.scheduleRawRetention eventId enforce v2 symbolBytes issue reservoir now = some p') :
    p.Keeps p' := by
  obtain ⟨e, -, h⟩ := Option.bind_eq_some_iff.mp h
  obtain ⟨r, -, h⟩ := Option.bind_eq_some_iff.mp h
  cases h
  exact keeps_retain eventId r reservoir now

theorem keeps_scheduleExpiredRawLegacy {now : Nat} {ids : List Uuid}
    (h : Project.scheduleExpiredRawLegacy now ids p = some p') : p.Keeps p' := by
  induction ids generalizing p with
  | nil =>
    cases h
    exact .refl _
  | cons id rest ih =>
    obtain ⟨e, -, h⟩ := Option.bind_eq_some_iff.mp h
    split_ifs at h
    exact (keeps_enqueueRawDeletion id e.objectId .expired now).trans (ih h)

theorem keeps_queueDeletion {objectId eventId : Uuid} {now : Nat}
    (h : p.queueDeletion objectId eventId now = some p') : p.Keeps p' := by
  unfold Project.queueDeletion at h
  split at h
  · split_ifs at h
    cases h
    exact .refl p
  · cases h
    exact .of_objects rfl rfl rfl rfl

theorem keeps_scheduleExpiredRawV2 {now : Nat} {ids : List Uuid}
    (h : Project.scheduleExpiredRawV2 now ids p = some p') : p.Keeps p' := by
  induction ids generalizing p with
  | nil =>
    cases h
    exact .refl _
  | cons id rest ih =>
    obtain ⟨e, -, h⟩ := Option.bind_eq_some_iff.mp h
    obtain ⟨o, ho, h⟩ := Option.bind_eq_some_iff.mp h
    split_ifs at h with hdue
    obtain ⟨q, hq, h⟩ := Option.bind_eq_some_iff.mp h
    have hdeleting := keeps_deleting (Table.find_eq_some.mp ho).1 hdue.1
    exact hdeleting.trans ((keeps_setRetentionClass id .expired).trans
      ((keeps_queueDeletion hq).trans (ih h)))

theorem keeps_restore {eventId : Uuid} (h : p.restore eventId = some p') : p.Keeps p' := by
  obtain ⟨e, -, h⟩ := Option.bind_eq_some_iff.mp h
  obtain ⟨o, ho, h⟩ := Option.bind_eq_some_iff.mp h
  split_ifs at h with hstate
  cases h
  have hstored : p.Keeps (p.setObject { o with lifecycle := .stored }) :=
    keeps_setObject (Table.find_eq_some.mp ho).1 rfl rfl (.inr hstate.1) (.inl rfl)
  exact hstored.trans (keeps_setRetentionClass eventId .standard)

end objects

/-! ## Transactions that count -/

section transactions
variable {p p' : Project}

/-- The counters of a month and the ledger grow by the same quantities. -/
theorem Project.Balanced.post (h : p.Balanced) {d : CycleCounters}
    (hc : ∀ c, p'.cycle c = if c = d.cycleStart then (p.cycle c).add d else p.cycle c)
    (hl : ∀ k c, p'.ledgerTotal k c =
      (if c = d.cycleStart then d.quantity k else 0) + p.ledgerTotal k c) : p'.Balanced := by
  intro c k
  rw [hc c, hl k c]
  split_ifs with hcycle
  · rw [quantity_add, h c k, Nat.add_comm]
  · rw [h c k, Nat.zero_add]

theorem Project.Settled.insert (h : p.Settled) {r : LedgerRow} (hnew : p.ledger.find r.key = none)
    (hkind : r.kind ≠ .rawDeleted) : { p with ledger := p.ledger.insert r }.Settled := by
  intro x hx hdeleted
  rcases (Table.mem_insert hnew).mp hx with rfl | hx
  · exact absurd hdeleted hkind
  · exact h x hx hdeleted

theorem Project.Settled.congr (h : p.Settled) (hl : p'.ledger = p.ledger)
    (ho : ∀ o ∈ p.objects, o ∈ p'.objects) : p'.Settled := by
  intro r hr hkind
  obtain ⟨o, hmem, hid, hd⟩ := h r (hl ▸ hr) hkind
  exact ⟨o, ho o hmem, hid, hd⟩

theorem Project.Accounted.recordAcceptance (h : p.Accounted) {e : CrashEvent} {o : RawObject}
    {enforcement : Bool} {c : Cycle} {a : Admission} (hstored : o.lifecycle = .stored)
    (hnew : p.objects.find o.id = none)
    (hp : p.recordAcceptance e o enforcement c = some (p', a)) : p'.Accounted := by
  unfold Project.recordAcceptance at hp
  obtain ⟨p₁, h₁, hp⟩ := Option.bind_eq_some_iff.mp hp
  obtain ⟨p₂, h₂, hp⟩ := Option.bind_eq_some_iff.mp hp
  obtain ⟨p₃, h₃, hp⟩ := Option.bind_eq_some_iff.mp hp
  obtain ⟨p₄, h₄, hp⟩ := Option.bind_eq_some_iff.mp hp
  cases hp
  obtain ⟨e₁, hcycle⟩ := addToCycle_eq_some h₁
  obtain ⟨hfree₂, e₂⟩ := insertLedger_eq_some h₂
  obtain ⟨hfree₃, e₃⟩ := insertLedger_eq_some h₃
  obtain ⟨e₄, hreconciled, hstorage⟩ := applyStorageDelta_eq_some h₄
  have hobjects : p₄.objects = p.objects := by rw [e₄, e₃, e₂, e₁]
  have hbefore : p₃.storage = p.storage := by rw [e₃, e₂, e₁]
  let deadline := e.receivedAt + p₄.policy.rawRetentionDays * daySeconds
  let o' : RawObject := { o with deleteAfter := some deadline }
  have hnew' : p₄.objects.find o'.id = none := by
    rw [hobjects]
    exact hnew
  have hretained : (p₄.objects.insert o').total RawObject.retainedBytes =
      o.byteSize + p.retainedTotal := by
    rw [Table.total_insert hnew', hobjects]
    exact congrArg (· + p.retainedTotal) (if_pos (.inl hstored))
  refine ⟨h.balanced.post (d := { CycleCounters.zero c with
    acceptedEvents := 1, acceptedRawBytes := o.byteSize }) (fun c' => ?_) fun k c' => ?_, ?_, ?_⟩
  · have hcounters : p₄.counters = p₁.counters := by rw [e₄, e₃, e₂]
    rw [← hcycle c', Project.cycle, hcounters, Project.cycle]
  · have hledger : p₄.ledger = p₃.ledger := by rw [e₄]
    have htotal : p₃.ledgerTotal k c' = _ := e₃ ▸ ledgerTotal_insert hfree₃ k c'
    have htotal₂ : p₂.ledgerTotal k c' = _ := e₂ ▸ ledgerTotal_insert hfree₂ k c'
    have htotal₁ : p₁.ledgerTotal k c' = p.ledgerTotal k c' := by rw [e₁]; rfl
    rw [Project.ledgerTotal, hledger]
    change p₃.ledgerTotal k c' = _
    rw [htotal, htotal₂, htotal₁, ← Nat.add_assoc]
    refine congrArg (· + p.ledgerTotal k c') ?_
    cases k <;> simp [LedgerRow.counts, CycleCounters.quantity, CycleCounters.zero, eq_comm]
  · have hsettled : p₃.Settled := by
      have hs₁ : p₁.Settled := h.settled.congr (by rw [e₁]) (by rw [e₁]; exact fun _ ho => ho)
      have hs₂ : p₂.Settled := e₂ ▸ hs₁.insert hfree₂ nofun
      exact e₃ ▸ hs₂.insert hfree₃ nofun
    refine hsettled.congr (by rw [e₄]) fun x hx => (Table.mem_insert hnew').mpr (.inr ?_)
    rw [e₄]
    exact hx
  · have hgauges := h.storage
    rw [← hbefore] at hgauges
    refine hgauges.delta hreconciled hstorage ?_
    rw [Project.retainedTotal, hretained]
    push_cast
    omega

theorem Project.Settled.not_counted (h : p.Settled) {o : RawObject} (ho : o ∈ p.objects)
    (hd : o.lifecycle ≠ .discarded) : p.ledger.find (.rawDeleted, o.id) = none := by
  refine Table.find_eq_none.mpr fun r hr hkey => ?_
  obtain ⟨hkind, hsource⟩ := Prod.ext_iff.mp hkey
  obtain ⟨x, hx, hid, hdiscarded⟩ := h r hr hkind
  obtain rfl := Table.eq_of_key_eq hx ho (hid.trans hsource)
  exact hd hdiscarded

theorem Project.Accounted.recordRawDeleted (h : p.Accounted) {e : CrashEvent} {o : RawObject}
    {c : Cycle} (ho : o ∈ p.objects) (hd : o.lifecycle = .deleting)
    (hp : p.recordRawDeleted e o c = some p') : p'.Accounted := by
  have hfree : p.ledger.find (.rawDeleted, o.id) = none := by
    refine h.settled.not_counted ho ?_
    rw [hd]
    nofun
  have hnone : ¬ (p.ledger.find (.rawDeleted, o.id)).isSome := by
    rw [hfree]
    nofun
  unfold Project.recordRawDeleted Project.recordDeletion at hp
  dsimp only at hp
  rw [if_neg hnone] at hp
  obtain ⟨p₃, hp₃, hp⟩ := Option.bind_eq_some_iff.mp hp
  obtain ⟨p₁, h₁, hp₃⟩ := Option.bind_eq_some_iff.mp hp₃
  obtain ⟨p₂, h₂, h₃⟩ := Option.bind_eq_some_iff.mp hp₃
  rw [if_pos (.inl hd)] at hp
  cases hp
  obtain ⟨hfree₁, e₁⟩ := insertLedger_eq_some h₁
  obtain ⟨e₂, hcycle⟩ := addToCycle_eq_some h₂
  obtain ⟨e₃, hreconciled, hstorage⟩ := applyStorageDelta_eq_some h₃
  have hobjects : p₃.objects = p.objects := by rw [e₃, e₂, e₁]
  have hledger : p₃.ledger = p₁.ledger := by rw [e₃, e₂]
  have hmem : o ∈ p₃.objects := by
    rw [hobjects]
    exact ho
  let o' : RawObject := { o with lifecycle := .discarded }
  have hrows : ∀ x, x ∈ (p₃.setObject o').objects ↔ (x ∈ p₃.objects ∧ x.id ≠ o.id) ∨ x = o' :=
    fun x => mem_setObject hmem rfl
  have htotal : (p₃.setObject o').retainedTotal + o.retainedBytes =
      p₃.retainedTotal + o'.retainedBytes := retainedTotal_setObject hmem rfl
  let sampled : Prop := e.outcome = .sampling ∧ e.retentionClass ≠ .expired
  let d : CycleCounters := { CycleCounters.zero c with
    deletedRawBytes := o.byteSize
    sampledRawEvents := if sampled then 1 else 0
    estimatedRepresentedEvents := if sampled then e.samplingRate else 0 }
  refine Accounted.keep (p := p₃.setObject o') ⟨?_, ?_, ?_⟩ (keeps_setRetentionClass e.id _)
  · refine h.balanced.post (d := d) (fun c' => ?_) fun k c' => ?_
    · have hcounters : (p₃.setObject o').counters = p₂.counters := by
        change p₃.counters = p₂.counters
        rw [e₃]
      have hold : p₁.cycle c' = p.cycle c' := by rw [Project.cycle, e₁, Project.cycle]
      rw [Project.cycle, hcounters, ← hold]
      exact hcycle c'
    · have htotal : p₁.ledgerTotal k c' = _ := e₁ ▸ ledgerTotal_insert hfree₁ k c'
      change p₃.ledger.total (LedgerRow.counts k c') = _
      rw [hledger]
      change p₁.ledgerTotal k c' = _
      rw [htotal]
      refine congrArg (· + p.ledgerTotal k c') ?_
      cases k <;> simp [d, LedgerRow.counts, CycleCounters.quantity, CycleCounters.zero, eq_comm]
  · intro r hr hkind
    have hr : r ∈ p₁.ledger := hledger ▸ hr
    rw [e₁] at hr
    rcases (Table.mem_insert hfree₁).mp hr with rfl | hr
    · exact ⟨o', (hrows o').mpr (.inr rfl), rfl, rfl⟩
    · obtain ⟨x, hx, hid, hdiscarded⟩ := h.settled r hr hkind
      have hx' : x ∈ p₃.objects := by rwa [hobjects]
      refine ⟨x, (hrows x).mpr (.inl ⟨hx', fun heq => ?_⟩), hid, hdiscarded⟩
      obtain rfl := Table.eq_of_key_eq hx ho heq
      rw [hd] at hdiscarded
      cases hdiscarded
  · have hbefore : p₂.storage = p.storage := by rw [e₂, e₁]
    have hgauges := h.storage
    rw [← hbefore] at hgauges
    refine hgauges.delta hreconciled hstorage ?_
    have hold : o.retainedBytes = o.byteSize := if_pos (.inr hd)
    have hnew : o'.retainedBytes = 0 := rfl
    have hsame : p₃.retainedTotal = p.retainedTotal := by
      rw [Project.retainedTotal, hobjects, Project.retainedTotal]
    omega

theorem Project.Accounted.deleteRaw (h : p.Accounted) {eventId : Uuid} {c : Cycle}
    (hp : p.deleteRaw eventId c = some p') : p'.Accounted := by
  obtain ⟨e, -, hp⟩ := Option.bind_eq_some_iff.mp hp
  obtain ⟨o, ho, hp⟩ := Option.bind_eq_some_iff.mp hp
  split_ifs at hp with hd
  · exact h.recordRawDeleted (Table.find_eq_some.mp ho).1 hd hp
  · cases hp
    exact h

theorem Project.Accounted.recordSymbolStored (h : p.Accounted) {objectId : Uuid} {byteSize : Nat}
    {c : Cycle} (hp : p.recordSymbolStored objectId byteSize c = some p') : p'.Accounted := by
  unfold Project.recordSymbolStored at hp
  split_ifs at hp
  · cases hp
    exact h
  · obtain ⟨p₁, h₁, hp⟩ := Option.bind_eq_some_iff.mp hp
    obtain ⟨p₂, h₂, h₃⟩ := Option.bind_eq_some_iff.mp hp
    obtain ⟨hfree₁, e₁⟩ := insertLedger_eq_some h₁
    obtain ⟨e₂, hcycle⟩ := addToCycle_eq_some h₂
    obtain ⟨e₃, hreconciled, hstorage⟩ := applyStorageDelta_eq_some h₃
    have hobjects : p'.objects = p.objects := by rw [e₃, e₂, e₁]
    have hledger : p'.ledger = p₁.ledger := by rw [e₃, e₂]
    let d : CycleCounters := { CycleCounters.zero c with acceptedSymbolBytes := byteSize }
    refine ⟨h.balanced.post (d := d) (fun c' => ?_) fun k c' => ?_, ?_, ?_⟩
    · have hcounters : p'.counters = p₂.counters := by rw [e₃]
      have hold : p₁.cycle c' = p.cycle c' := by rw [Project.cycle, e₁, Project.cycle]
      rw [Project.cycle, hcounters, ← hold]
      exact hcycle c'
    · have htotal : p₁.ledgerTotal k c' = _ := e₁ ▸ ledgerTotal_insert hfree₁ k c'
      rw [Project.ledgerTotal, hledger]
      change p₁.ledgerTotal k c' = _
      rw [htotal]
      refine congrArg (· + p.ledgerTotal k c') ?_
      cases k <;> simp [d, LedgerRow.counts, CycleCounters.quantity, CycleCounters.zero, eq_comm]
    · have hsettled : p₁.Settled := e₁ ▸ h.settled.insert hfree₁ (by rintro ⟨⟩)
      refine hsettled.congr hledger fun x hx => ?_
      rw [hobjects]
      rwa [e₁] at hx
    · have hbefore : p₂.storage = p.storage := by rw [e₂, e₁]
      have hgauges := h.storage
      rw [← hbefore] at hgauges
      refine hgauges.delta hreconciled hstorage ?_
      rw [Project.retainedTotal, hobjects, Project.retainedTotal, Int.add_zero]

theorem Project.Accounted.reconcileStorage (h : p.Accounted) {symbolBytes : Nat}
    (hp : p.reconcileStorage symbolBytes = some p') : p'.Accounted := by
  unfold Project.reconcileStorage at hp
  dsimp only at hp
  split_ifs at hp
  cases hp
  exact ⟨h.balanced, h.settled, fun _ => rfl, Int.natCast_nonneg _, Int.natCast_nonneg _⟩

theorem Project.Accounted.persistEvent (h : p.Accounted) {eventId objectId : Uuid}
    {crashGuid : Option Uuid} {byteSize now : Nat} {enforcement : Bool} {c : Cycle}
    {a : Option Admission}
    (hp : p.persistEvent eventId objectId crashGuid byteSize now enforcement c = some (p', a)) :
    p'.Accounted := by
  unfold Project.persistEvent at hp
  split_ifs at hp with hguid hnew hsize
  · cases hp
    exact h
  · obtain ⟨⟨q, admission⟩, hq, hp⟩ := Option.map_eq_some_iff.mp hp
    cases hp
    have hfree : p.objects.find objectId = none :=
      Option.not_isSome_iff_eq_none.mp fun hsome => hnew (.inr (.inl hsome))
    exact h.recordAcceptance rfl hfree hq

end transactions

/-! ## Every run -/

section runs
variable {s s' : State}

theorem accounted_putJob {objectId : Uuid} {j : Job} {p : Project} (h : p.Accounted) :
    (s.putJob objectId j p).project.Accounted := h.keep (.of_objects rfl rfl rfl rfl)

theorem accounted_step (h : s.project.Accounted) {action : Action}
    (hs : step s action = some s') : s'.project.Accounted := by
  cases action with
  | tick seconds =>
    cases hs
    exact h
  | setPolicy policy =>
    cases hs
    exact h.keep (.of_objects rfl rfl rfl rfl)
  | accept eventId objectId crashGuid byteSize enforcement cycle =>
    obtain ⟨⟨p, admission⟩, hp, hs⟩ := Option.bind_eq_some_iff.mp hs
    cases hs
    exact h.persistEvent hp
  | publish eventId grouping enforce v2 symbolBytes issue reservoir =>
    obtain ⟨p, hp, hs⟩ := Option.bind_eq_some_iff.mp hs
    cases hs
    exact h.keep ((keeps_group eventId grouping).trans (keeps_scheduleRawRetention hp))
  | expireLegacy eventIds =>
    obtain ⟨p, hp, hs⟩ := Option.bind_eq_some_iff.mp hs
    cases hs
    exact h.keep (keeps_scheduleExpiredRawLegacy hp)
  | expireV2 eventIds =>
    obtain ⟨p, hp, hs⟩ := Option.bind_eq_some_iff.mp hs
    cases hs
    exact h.keep (keeps_scheduleExpiredRawV2 hp)
  | claim objectId holder =>
    obtain ⟨d, -, hs⟩ := Option.bind_eq_some_iff.mp hs
    obtain ⟨j, -, hs⟩ := Option.bind_eq_some_iff.mp hs
    split_ifs at hs
    cases hs
    exact accounted_putJob (s := s) h
  | heartbeat token =>
    obtain ⟨⟨a, j⟩, -, hs⟩ := Option.bind_eq_some_iff.mp hs
    obtain ⟨j', -, hs⟩ := Option.bind_eq_some_iff.mp hs
    cases hs
    exact accounted_putJob (s := s) h
  | releaseJob token seconds resource dependency code =>
    obtain ⟨⟨a, j⟩, -, hs⟩ := Option.bind_eq_some_iff.mp hs
    obtain ⟨j', -, hs⟩ := Option.bind_eq_some_iff.mp hs
    cases hs
    exact accounted_putJob (s := s) h
  | finishFailure token quarantine resource code =>
    obtain ⟨⟨a, j⟩, -, hs⟩ := Option.bind_eq_some_iff.mp hs
    obtain ⟨j', -, hs⟩ := Option.bind_eq_some_iff.mp hs
    obtain ⟨j'', -, hs⟩ := Option.bind_eq_some_iff.mp hs
    cases hs
    exact accounted_putJob (s := s) h
  | loadRaw token enforcement =>
    obtain ⟨a, -, hs⟩ := Option.bind_eq_some_iff.mp hs
    obtain ⟨e, -, hs⟩ := Option.bind_eq_some_iff.mp hs
    obtain ⟨o, -, hs⟩ := Option.bind_eq_some_iff.mp hs
    split_ifs at hs <;> cases hs <;> exact h
  | restoreRaw token =>
    obtain ⟨⟨a, j⟩, -, hs⟩ := Option.bind_eq_some_iff.mp hs
    obtain ⟨j', -, hs⟩ := Option.bind_eq_some_iff.mp hs
    split_ifs at hs
    split at hs
    · next p hp =>
      obtain ⟨j'', -, hs⟩ := Option.bind_eq_some_iff.mp hs
      cases hs
      exact accounted_putJob (s := s) (h.keep (keeps_restore hp))
    · cases hs
      exact h
  | deleteObject token =>
    obtain ⟨a, -, hs⟩ := Option.bind_eq_some_iff.mp hs
    obtain ⟨e, -, hs⟩ := Option.bind_eq_some_iff.mp hs
    split_ifs at hs
    cases hs
    exact h
  | finishRaw token cycle =>
    obtain ⟨⟨a, j⟩, -, hs⟩ := Option.bind_eq_some_iff.mp hs
    obtain ⟨j', -, hs⟩ := Option.bind_eq_some_iff.mp hs
    split_ifs at hs
    obtain ⟨p, hp, hs⟩ := Option.bind_eq_some_iff.mp hs
    obtain ⟨j'', -, hs⟩ := Option.bind_eq_some_iff.mp hs
    cases hs
    exact accounted_putJob (s := s) (h.deleteRaw hp)
  | storeSymbol objectId byteSize cycle =>
    obtain ⟨p, hp, hs⟩ := Option.bind_eq_some_iff.mp hs
    cases hs
    exact h.recordSymbolStored hp
  | reconcile symbolBytes =>
    obtain ⟨p, hp, hs⟩ := Option.bind_eq_some_iff.mp hs
    cases hs
    exact h.reconcileStorage hp

theorem accounted_created (policy : UsagePolicy) (reconciled : Bool) :
    (Project.created policy reconciled).Accounted := by
  refine ⟨fun c k => ?_, nofun, fun _ => rfl, le_refl 0, le_refl 0⟩
  cases k <;> rfl

/-- The storage counter and the counters of every month agree with the rows, and no source
is counted twice under one kind. -/
structure Project.NeverDrifts (p : Project) : Prop where
  retained : p.storage.reconciled = true → p.storage.retainedRawBytes =
    (p.objects.total fun o => if o.lifecycle = .stored ∨ o.lifecycle = .deleting
      then o.byteSize else 0 : Nat)
  nonneg : 0 ≤ p.storage.retainedRawBytes ∧ 0 ≤ p.storage.retainedSymbolBytes
  acceptedEvents : ∀ c, (p.cycle c).acceptedEvents = p.ledgerTotal .acceptedEvent c
  acceptedRawBytes : ∀ c, (p.cycle c).acceptedRawBytes = p.ledgerTotal .rawStored c
  acceptedSymbolBytes : ∀ c, (p.cycle c).acceptedSymbolBytes = p.ledgerTotal .symbolStored c
  deletedRawBytes : ∀ c, (p.cycle c).deletedRawBytes = p.ledgerTotal .rawDeleted c
  once : ∀ r ∈ p.ledger, ∀ r' ∈ p.ledger, r.kind = r'.kind → r.sourceId = r'.sourceId → r = r'

theorem neverDrifts_of_reachable {policy : UsagePolicy} {reconciled : Bool}
    (h : Reachable step (fun _ => True) (.init policy reconciled) s) : s.project.NeverDrifts := by
  have ha : s.project.Accounted :=
    h.invariant (fun s => s.project.Accounted) (accounted_created policy reconciled)
      fun _ _ _ _ hi hs _ => accounted_step hi hs
  exact ⟨ha.storage.retained, ⟨ha.storage.raw, ha.storage.symbol⟩,
    fun c => ha.balanced c .acceptedEvent, fun c => ha.balanced c .rawStored,
    fun c => ha.balanced c .symbolStored, fun c => ha.balanced c .rawDeleted,
    fun r hr r' hr' hkind hsource => Table.eq_of_key_eq hr hr' (Prod.ext hkind hsource)⟩

end runs

section sample

def samplePolicy : UsagePolicy := ⟨1, 1, 0, 1, 0, none, false⟩

/-- Two events in two months, a symbol, a reconciliation and the deletion of a raw object. -/
def expiredRun : List Action :=
  [.accept 1 11 none 10 true 0, .storeSymbol 7 5 0, .reconcile 5, .accept 2 12 none 20 true 1,
    .tick (2 * daySeconds), .expireLegacy [1], .claim 11 ⟨9, 31⟩, .loadRaw 31 true,
    .deleteObject 31, .finishRaw 31 1]

theorem neverDrifts_expiredRun :
    ∃ s, Reachable step (fun _ => True) (.init samplePolicy false) s ∧ s.project.NeverDrifts ∧
      s.project.storage = ⟨20, 5, true⟩ ∧ (s.project.cycle 1).deletedRawBytes = 10 := by
  have hrun : (run step (fun _ => True) (.init samplePolicy false) expiredRun).isSome := by
    decide +kernel
  obtain ⟨s, hs⟩ := Option.isSome_iff_exists.mp hrun
  have hreach := Reachable.of_run (.init trivial) hs
  have hcounted : ∀ u ∈ run step (fun _ => True) (.init samplePolicy false) expiredRun,
      u.project.storage = ⟨20, 5, true⟩ ∧ (u.project.cycle 1).deletedRawBytes = 10 := by
    decide +kernel
  exact ⟨s, hreach, neverDrifts_of_reachable hreach, hcounted s hs⟩

end sample
end FaultLane.Usage

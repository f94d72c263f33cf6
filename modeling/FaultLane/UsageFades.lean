import FaultLane.UsageRetention

set_option autoImplicit false

/-!
# Steps that keep no event as a recent one

Every step that is not a publication gives no event a class that the sampling of an issue
gives, and stores no raw object of an event that has one.
-/
namespace FaultLane.Usage
open KeyedTable JobQueue TransitionSystem

/-- The classes that a publication does not give while it samples an issue and release. -/
def RetentionClass.quiet (c : RetentionClass) : Prop :=
  c ≠ .recent ∧ c ≠ .deleting ∧ c ≠ .reservoir

/-- The classes that a publication gives for good. -/
def RetentionClass.settled (c : RetentionClass) : Prop :=
  c = .standard ∨ c = .novel ∨ c = .representative ∨ c = .variant

theorem RetentionClass.settled.quiet {c : RetentionClass} (h : c.settled) : c.quiet := by
  rcases h with rfl | rfl | rfl | rfl <;> exact ⟨nofun, nofun, nofun⟩

/-- Every raw object belongs to one event. -/
def Project.OneObject (p : Project) : Prop :=
  ∀ e ∈ p.events, ∀ f ∈ p.events, e.objectId = f.objectId → e.id = f.id

structure Project.Fades (p p' : Project) : Prop where
  one : p.OneObject → p'.OneObject
  rows : ∀ x ∈ p'.events, x ∈ p.events ∨ x.retentionClass.quiet
  stored : ∀ x ∈ p'.events, x.retentionClass = .recent → p'.storedObject x.objectId →
    p.storedObject x.objectId

section fades
variable {p p' p'' : Project}

theorem Project.OneObject.of_names (h : p.OneObject)
    (hn : ∀ id object, p'.Names id object → p.Names id object) : p'.OneObject := by
  intro e he f hf hobject
  obtain ⟨e₀, he₀, hid, ho⟩ := hn e.id e.objectId ⟨e, he, rfl, rfl⟩
  obtain ⟨f₀, hf₀, hid', ho'⟩ := hn f.id f.objectId ⟨f, hf, rfl, rfl⟩
  rw [← hid, ← hid']
  exact h e₀ he₀ f₀ hf₀ (ho.trans (hobject.trans ho'.symm))

theorem Project.Fades.of_rows (he : p'.events = p.events)
    (ho : ∀ object, p'.storedObject object → p.storedObject object) : p.Fades p' where
  one h := h.of_names fun _ _ ⟨e, hmem, hname⟩ => ⟨e, he ▸ hmem, hname⟩
  rows _ hx := .inl (he ▸ hx)
  stored x _ _ hs := ho x.objectId hs

theorem Project.Fades.refl (p : Project) : p.Fades p := .of_rows rfl fun _ h => h

theorem Project.Fades.trans (h : p.Fades p') (h' : p'.Fades p'') : p.Fades p'' where
  one hone := h'.one (h.one hone)
  rows x hx := by
    rcases h'.rows x hx with hx | hquiet
    · exact h.rows x hx
    · exact .inr hquiet
  stored x hx hrecent hs := by
    rcases h'.rows x hx with hx' | hquiet
    · exact h.stored x hx' hrecent (h'.stored x hx hrecent hs)
    · exact absurd hrecent hquiet.1

theorem mem_setRetentionClass {eventId : Uuid} {c : RetentionClass} {x : CrashEvent} :
    x ∈ (p.setRetentionClass eventId c).events ↔ (x ∈ p.events ∧ x.id ≠ eventId) ∨
      ∃ e, p.events.find eventId = some e ∧ x = { e with retentionClass := c } :=
  @Table.mem_modify _ _ _ _ p.events eventId (fun e => { e with retentionClass := c })
    (fun _ => rfl) x

theorem fades_setRetentionClass (eventId : Uuid) {c : RetentionClass} (hc : c.quiet) :
    p.Fades (p.setRetentionClass eventId c) where
  one h := h.of_names fun id object => (names_setRetentionClass eventId c id object).mp
  rows x hx := by
    rcases mem_setRetentionClass.mp hx with ⟨hx, -⟩ | ⟨e, -, rfl⟩
    · exact .inl hx
    · exact .inr hc
  stored _ _ _ hs := hs

/-- A stored object after the change of one row is that row or was stored before. -/
theorem storedObject_setObject {o o' : RawObject} (ho : o ∈ p.objects) (hid : o'.id = o.id)
    {object : Uuid} (h : (p.setObject o').storedObject object) :
    (object ≠ o'.id ∧ p.storedObject object) ∨ (object = o'.id ∧ o'.lifecycle = .stored) := by
  obtain ⟨x, hx, hstored⟩ := h
  obtain ⟨hx, hkey⟩ := Table.find_eq_some.mp hx
  rcases (mem_setObject ho hid).mp hx with ⟨hx, hne⟩ | rfl
  · exact .inl ⟨hkey ▸ hne, x, Table.find_eq_some.mpr ⟨hx, hkey⟩, hstored⟩
  · exact .inr ⟨hkey.symm, hstored⟩

theorem fades_setObject {o o' : RawObject} (ho : o ∈ p.objects) (hid : o'.id = o.id)
    (hs : o'.lifecycle ≠ .stored) : p.Fades (p.setObject o') := by
  refine .of_rows rfl fun object h => ?_
  rcases storedObject_setObject ho hid h with ⟨-, h⟩ | ⟨-, h⟩
  · exact h
  · exact absurd h hs

theorem fades_enqueueRawDeletion (eventId objectId : Uuid) {c : RetentionClass} (hc : c.quiet)
    (now : Nat) : p.Fades (p.enqueueRawDeletion eventId objectId c now) := by
  unfold Project.enqueueRawDeletion
  cases hf : p.objects.find objectId with
  | none => exact .refl p
  | some o =>
    dsimp only
    split_ifs with hs
    · have hobject : p.Fades (p.setObject { o with lifecycle := .deleting }) :=
        fades_setObject (Table.find_eq_some.mp hf).1 rfl (by rintro ⟨⟩)
      exact hobject.trans ((fades_setRetentionClass eventId hc).trans (.of_rows rfl fun _ h => h))
    · exact .refl p

theorem fades_queueDeletion {objectId eventId : Uuid} {now : Nat}
    (h : p.queueDeletion objectId eventId now = some p') : p.Fades p' := by
  unfold Project.queueDeletion at h
  split at h
  · split_ifs at h
    cases h
    exact .refl p
  · cases h
    exact .of_rows rfl fun _ hs => hs

theorem quiet_expired : RetentionClass.quiet .expired := ⟨nofun, nofun, nofun⟩
theorem quiet_standard : RetentionClass.quiet .standard := ⟨nofun, nofun, nofun⟩

theorem fades_scheduleExpiredRawLegacy {now : Nat} {ids : List Uuid}
    (h : Project.scheduleExpiredRawLegacy now ids p = some p') : p.Fades p' := by
  induction ids generalizing p with
  | nil =>
    cases h
    exact .refl _
  | cons id rest ih =>
    obtain ⟨e, -, h⟩ := Option.bind_eq_some_iff.mp h
    split_ifs at h
    exact (fades_enqueueRawDeletion id e.objectId quiet_expired now).trans (ih h)

theorem fades_scheduleExpiredRawV2 {now : Nat} {ids : List Uuid}
    (h : Project.scheduleExpiredRawV2 now ids p = some p') : p.Fades p' := by
  induction ids generalizing p with
  | nil =>
    cases h
    exact .refl _
  | cons id rest ih =>
    obtain ⟨e, -, h⟩ := Option.bind_eq_some_iff.mp h
    obtain ⟨o, ho, h⟩ := Option.bind_eq_some_iff.mp h
    split_ifs at h
    obtain ⟨q, hq, h⟩ := Option.bind_eq_some_iff.mp h
    have hobject : p.Fades (p.setObject { o with lifecycle := .deleting }) :=
      fades_setObject (Table.find_eq_some.mp ho).1 rfl (by rintro ⟨⟩)
    exact hobject.trans ((fades_setRetentionClass id quiet_expired).trans
      ((fades_queueDeletion hq).trans (ih h)))

/-- The event of a restored object becomes a standard one. -/
theorem fades_restore (hone : p.OneObject) {eventId : Uuid} (h : p.restore eventId = some p') :
    p.Fades p' := by
  obtain ⟨e, he, h⟩ := Option.bind_eq_some_iff.mp h
  obtain ⟨o, ho, h⟩ := Option.bind_eq_some_iff.mp h
  split_ifs at h
  cases h
  obtain ⟨hemem, heid⟩ := Table.find_eq_some.mp he
  obtain ⟨homem, hoid⟩ := Table.find_eq_some.mp ho
  let o' : RawObject := { o with lifecycle := .stored }
  have hclass : (p.setObject o').Fades ((p.setObject o').setRetentionClass eventId .standard) :=
    fades_setRetentionClass eventId quiet_standard
  refine ⟨fun h => hclass.one (h.of_names fun _ _ hname => hname), hclass.rows,
    fun x hx hrecent hs => ?_⟩
  rcases mem_setRetentionClass.mp hx with ⟨hmem, hne⟩ | ⟨e', -, rfl⟩
  · rcases storedObject_setObject homem (show o'.id = o.id from rfl) hs with
      ⟨-, hs⟩ | ⟨hobject, -⟩
    · exact hs
    · exact absurd ((hone x hmem e hemem (hobject.trans hoid)).trans heid) hne
  · cases hrecent

theorem fades_recordDeletion {e : CrashEvent} {o : RawObject} {c : Cycle}
    (h : p.recordDeletion e o c = some p') : p.Fades p' := by
  obtain ⟨hobjects, hevents, -⟩ := recordDeletion_eq_some h
  refine .of_rows hevents fun object hs => ?_
  rwa [Project.storedObject, hobjects] at hs

theorem fades_deleteRaw {eventId : Uuid} {c : Cycle} (h : p.deleteRaw eventId c = some p') :
    p.Fades p' := by
  obtain ⟨e, he, h⟩ := Option.bind_eq_some_iff.mp h
  obtain ⟨o, ho, h⟩ := Option.bind_eq_some_iff.mp h
  split_ifs at h with hdeleting
  · obtain ⟨q, hq, h⟩ := Option.bind_eq_some_iff.mp h
    rw [if_pos (.inl hdeleting)] at h
    cases h
    have hmem : o ∈ q.objects := by
      rw [(recordDeletion_eq_some hq).1]
      exact (Table.find_eq_some.mp ho).1
    have hobject : q.Fades (q.setObject { o with lifecycle := .discarded }) :=
      fades_setObject hmem rfl nofun
    have hclass : RetentionClass.quiet
        (if e.retentionClass = .expired then .expired else .discarded) := by
      split_ifs <;> exact ⟨nofun, nofun, nofun⟩
    exact (fades_recordDeletion hq).trans (hobject.trans (fades_setRetentionClass e.id hclass))
  · cases h
    exact .refl p

/-- An event and its object that are accepted. -/
structure Project.Accepts (p p' : Project) (e : CrashEvent) (o : RawObject) : Prop where
  object : e.objectId = o.id
  grouping : e.grouping = ⟨none, none, none⟩
  given : e.retentionClass = .pending ∨ e.retentionClass = .standard
  stored : o.lifecycle = .stored
  newEvent : p.events.find e.id = none
  newObject : p.objects.find o.id = none
  unused : ∀ x ∈ p.events, x.objectId ≠ o.id
  events : p'.events = p.events.insert e
  objects : p'.objects = p.objects.insert o

theorem recordAcceptance_accepts {e : CrashEvent} {o : RawObject} {enforcement : Bool} {c : Cycle}
    {a : Admission} (hobject : e.objectId = o.id) (hgrouping : e.grouping = ⟨none, none, none⟩)
    (hstored : o.lifecycle = .stored) (hevent : p.events.find e.id = none)
    (hfree : p.objects.find o.id = none) (hunused : ∀ x ∈ p.events, x.objectId ≠ o.id)
    (h : p.recordAcceptance e o enforcement c = some (p', a)) :
    ∃ e' o', e'.id = e.id ∧ e'.receivedAt = e.receivedAt ∧ p.Accepts p' e' o' := by
  unfold Project.recordAcceptance at h
  obtain ⟨p₁, h₁, h⟩ := Option.bind_eq_some_iff.mp h
  obtain ⟨p₂, h₂, h⟩ := Option.bind_eq_some_iff.mp h
  obtain ⟨p₃, h₃, h⟩ := Option.bind_eq_some_iff.mp h
  obtain ⟨p₄, h₄, h⟩ := Option.bind_eq_some_iff.mp h
  obtain ⟨e₁, -⟩ := addToCycle_eq_some h₁
  obtain ⟨-, e₂⟩ := insertLedger_eq_some h₂
  obtain ⟨-, e₃⟩ := insertLedger_eq_some h₃
  obtain ⟨e₄, -, -⟩ := applyStorageDelta_eq_some h₄
  have hobjects : ∀ x, p₄.objects.insert x = p.objects.insert x := by
    intro x
    rw [e₄, e₃, e₂, e₁]
  have hevents : ∀ x, p₄.events.insert x = p.events.insert x := by
    intro x
    rw [e₄, e₃, e₂, e₁]
  cases h
  refine ⟨_, _, ?_, ?_, ⟨?_, ?_, ?_, ?_, ?_, ?_, ?_, hevents _, hobjects _⟩⟩
  · rfl
  · rfl
  · exact hobject
  · exact hgrouping
  · dsimp only
    split_ifs
    · exact .inl rfl
    · exact .inr rfl
  · exact hstored
  · exact hevent
  · exact hfree
  · exact hunused

theorem persistEvent_accepts {eventId objectId : Uuid} {crashGuid : Option Uuid}
    {byteSize now : Nat} {enforcement : Bool} {c : Cycle} {a : Option Admission}
    (h : p.persistEvent eventId objectId crashGuid byteSize now enforcement c = some (p', a)) :
    (a = none ∧ p' = p) ∨
      (a.isSome ∧ ∃ e o, e.id = eventId ∧ e.receivedAt = now ∧ p.Accepts p' e o) := by
  unfold Project.persistEvent at h
  split_ifs at h with hguid hnew hsize
  · cases h
    exact .inl ⟨rfl, rfl⟩
  · obtain ⟨⟨q, admission⟩, hq, h⟩ := Option.map_eq_some_iff.mp h
    cases h
    simp only [not_or] at hnew
    have hunused : ∀ x ∈ p.events, x.objectId ≠ objectId := fun x hx hobject =>
      hnew.2.2 (List.any_eq_true.mpr ⟨x, hx, decide_eq_true hobject⟩)
    obtain ⟨e, o, hid, hreceived, haccepts⟩ := recordAcceptance_accepts rfl rfl rfl
      (Option.not_isSome_iff_eq_none.mp hnew.1) (Option.not_isSome_iff_eq_none.mp hnew.2.1) hunused
      hq
    exact .inr ⟨rfl, e, o, hid, hreceived, haccepts⟩

theorem Project.Accepts.mem_events {e : CrashEvent} {o : RawObject} (h : p.Accepts p' e o)
    {x : CrashEvent} : x ∈ p'.events ↔ x = e ∨ x ∈ p.events := by
  rw [h.events, Table.mem_insert h.newEvent]

theorem Project.Accepts.fades {e : CrashEvent} {o : RawObject} (h : p.Accepts p' e o) :
    p.Fades p' := by
  refine ⟨fun hone x hx y hy hobject => ?_, fun x hx => ?_, fun x hx hrecent hs => ?_⟩
  · rcases h.mem_events.mp hx with rfl | hx <;> rcases h.mem_events.mp hy with rfl | hy
    · rfl
    · exact absurd (hobject.symm.trans h.object) (h.unused y hy)
    · exact absurd (hobject.trans h.object) (h.unused x hx)
    · exact hone x hx y hy hobject
  · rcases h.mem_events.mp hx with rfl | hx
    · rcases h.given with hc | hc <;> rw [hc] <;> exact .inr ⟨nofun, nofun, nofun⟩
    · exact .inl hx
  · rcases h.mem_events.mp hx with rfl | hx
    · rcases h.given with hc | hc <;> rw [hc] at hrecent <;> cases hrecent
    · obtain ⟨y, hy, hstored⟩ := hs
      obtain ⟨hy, hkey⟩ := Table.find_eq_some.mp hy
      rw [h.objects] at hy
      rcases (Table.mem_insert h.newObject).mp hy with rfl | hy
      · exact absurd hkey.symm (h.unused x hx)
      · exact ⟨y, Table.find_eq_some.mpr ⟨hy, hkey⟩, hstored⟩

theorem fades_persistEvent {eventId objectId : Uuid} {crashGuid : Option Uuid}
    {byteSize now : Nat} {enforcement : Bool} {c : Cycle} {a : Option Admission}
    (h : p.persistEvent eventId objectId crashGuid byteSize now enforcement c = some (p', a)) :
    p.Fades p' := by
  rcases persistEvent_accepts h with ⟨-, rfl⟩ | ⟨-, e, o, -, -, haccepts⟩
  · exact .refl p'
  · exact haccepts.fades

end fades

/-! ## Steps -/

section steps
variable {s s' : State}

/-- The actions that neither accept, publish nor expire an event. -/
def Action.spares : Action → Prop
  | .accept _ _ _ _ _ _ | .publish _ _ _ _ _ _ _ | .expireLegacy _ | .expireV2 _ => False
  | _ => True

instance : DecidablePred Action.spares := fun action => by
  induction action using Action.casesOn <;> unfold Action.spares <;> infer_instance

/-- The rows of the events and their objects are the same. -/
def Project.SameRows (p p' : Project) : Prop := p'.events = p.events ∧ p'.objects = p.objects

theorem recordSymbolStored_sameRows {p p' : Project} {objectId : Uuid} {byteSize : Nat} {c : Cycle}
    (h : p.recordSymbolStored objectId byteSize c = some p') : p.SameRows p' := by
  unfold Project.recordSymbolStored at h
  split_ifs at h
  · cases h
    exact ⟨rfl, rfl⟩
  · obtain ⟨p₁, h₁, h⟩ := Option.bind_eq_some_iff.mp h
    obtain ⟨p₂, h₂, h₃⟩ := Option.bind_eq_some_iff.mp h
    obtain ⟨-, e₁⟩ := insertLedger_eq_some h₁
    obtain ⟨e₂, -⟩ := addToCycle_eq_some h₂
    obtain ⟨e₃, -, -⟩ := applyStorageDelta_eq_some h₃
    exact ⟨by rw [e₃, e₂, e₁], by rw [e₃, e₂, e₁]⟩

/-- Only a restored or a deleted object changes the rows of the events. -/
theorem rows_step {action : Action} (ha : action.spares) (hs : step s action = some s') :
    s.project.SameRows s'.project ∨
    (∃ eventId q, s.project.restore eventId = some q ∧ q.SameRows s'.project) ∨
    ∃ eventId c q, s.project.deleteRaw eventId c = some q ∧ q.SameRows s'.project := by
  cases action with
  | publish _ _ _ _ _ _ _ => cases ha
  | accept _ _ _ _ _ _ => cases ha
  | expireLegacy _ => cases ha
  | expireV2 _ => cases ha
  | tick seconds =>
    cases hs
    exact .inl ⟨rfl, rfl⟩
  | setPolicy policy =>
    cases hs
    exact .inl ⟨rfl, rfl⟩
  | claim objectId holder =>
    obtain ⟨d, -, hs⟩ := Option.bind_eq_some_iff.mp hs
    obtain ⟨j, -, hs⟩ := Option.bind_eq_some_iff.mp hs
    split_ifs at hs
    cases hs
    exact .inl ⟨rfl, rfl⟩
  | heartbeat token =>
    obtain ⟨⟨a, j⟩, -, hs⟩ := Option.bind_eq_some_iff.mp hs
    obtain ⟨j', -, hs⟩ := Option.bind_eq_some_iff.mp hs
    cases hs
    exact .inl ⟨rfl, rfl⟩
  | releaseJob token seconds resource dependency code =>
    obtain ⟨⟨a, j⟩, -, hs⟩ := Option.bind_eq_some_iff.mp hs
    obtain ⟨j', -, hs⟩ := Option.bind_eq_some_iff.mp hs
    cases hs
    exact .inl ⟨rfl, rfl⟩
  | finishFailure token quarantine resource code =>
    obtain ⟨⟨a, j⟩, -, hs⟩ := Option.bind_eq_some_iff.mp hs
    obtain ⟨j', -, hs⟩ := Option.bind_eq_some_iff.mp hs
    obtain ⟨j'', -, hs⟩ := Option.bind_eq_some_iff.mp hs
    cases hs
    exact .inl ⟨rfl, rfl⟩
  | loadRaw token enforcement =>
    obtain ⟨a, -, hs⟩ := Option.bind_eq_some_iff.mp hs
    obtain ⟨e, -, hs⟩ := Option.bind_eq_some_iff.mp hs
    obtain ⟨o, -, hs⟩ := Option.bind_eq_some_iff.mp hs
    split at hs
    · cases hs
      exact .inl ⟨rfl, rfl⟩
    · cases hs
  | restoreRaw token =>
    obtain ⟨⟨a, j⟩, -, hs⟩ := Option.bind_eq_some_iff.mp hs
    obtain ⟨j', -, hs⟩ := Option.bind_eq_some_iff.mp hs
    split_ifs at hs
    split at hs
    · next p hp =>
      obtain ⟨j'', -, hs⟩ := Option.bind_eq_some_iff.mp hs
      cases hs
      exact .inr (.inl ⟨a.eventId, p, hp, rfl, rfl⟩)
    · cases hs
      exact .inl ⟨rfl, rfl⟩
  | deleteObject token =>
    obtain ⟨a, -, hs⟩ := Option.bind_eq_some_iff.mp hs
    obtain ⟨e, -, hs⟩ := Option.bind_eq_some_iff.mp hs
    split_ifs at hs
    cases hs
    exact .inl ⟨rfl, rfl⟩
  | finishRaw token cycle =>
    obtain ⟨⟨a, j⟩, -, hs⟩ := Option.bind_eq_some_iff.mp hs
    obtain ⟨j', -, hs⟩ := Option.bind_eq_some_iff.mp hs
    split_ifs at hs
    obtain ⟨p, hp, hs⟩ := Option.bind_eq_some_iff.mp hs
    obtain ⟨j'', -, hs⟩ := Option.bind_eq_some_iff.mp hs
    cases hs
    exact .inr (.inr ⟨a.eventId, cycle, p, hp, rfl, rfl⟩)
  | storeSymbol objectId byteSize cycle =>
    obtain ⟨p, hp, hs⟩ := Option.bind_eq_some_iff.mp hs
    cases hs
    exact .inl (recordSymbolStored_sameRows hp)
  | reconcile symbolBytes =>
    obtain ⟨p, hp, hs⟩ := Option.bind_eq_some_iff.mp hs
    cases hs
    unfold Project.reconcileStorage at hp
    dsimp only at hp
    split_ifs at hp
    cases hp
    exact .inl ⟨rfl, rfl⟩

theorem Project.SameRows.fades {p p' : Project} (h : p.SameRows p') : p.Fades p' := by
  obtain ⟨hevents, hobjects⟩ := h
  refine .of_rows hevents fun object hs => ?_
  rwa [Project.storedObject, hobjects] at hs

def Action.isPublish : Action → Prop
  | .publish _ _ _ _ _ _ _ => True
  | _ => False

theorem fades_spared (h : s.project.OneObject) {action : Action} (ha : action.spares)
    (hs : step s action = some s') : s.project.Fades s'.project := by
  rcases rows_step ha hs with hsame | ⟨eventId, q, hq, hsame⟩ | ⟨eventId, c, q, hq, hsame⟩
  · exact hsame.fades
  · exact (fades_restore h hq).trans hsame.fades
  · exact (fades_deleteRaw hq).trans hsame.fades

theorem fades_step (h : s.project.OneObject) {action : Action} (hp : ¬ action.isPublish)
    (hs : step s action = some s') : s.project.Fades s'.project := by
  cases action with
  | publish eventId g enforce v2 symbolBytes issue reservoir => exact absurd trivial hp
  | accept eventId objectId crashGuid byteSize enforcement cycle =>
    obtain ⟨⟨p, admission⟩, hp, hs⟩ := Option.bind_eq_some_iff.mp hs
    cases hs
    exact fades_persistEvent hp
  | expireLegacy eventIds =>
    obtain ⟨p, hp, hs⟩ := Option.bind_eq_some_iff.mp hs
    cases hs
    exact fades_scheduleExpiredRawLegacy hp
  | expireV2 eventIds =>
    obtain ⟨p, hp, hs⟩ := Option.bind_eq_some_iff.mp hs
    cases hs
    exact fades_scheduleExpiredRawV2 hp
  | _ => exact fades_spared h (by exact trivial) hs

end steps

end FaultLane.Usage

import FaultLane.DailyRollups
import FaultLane.TableTotals

set_option autoImplicit false

/-!
# What events and issues count for

An event stands in each of six slots with one entry. A trigger that trades the entry of a slot
for another keeps the rollups a tally of the entries.
-/
namespace FaultLane.DailyRollups
open KeyedTable LabelledTally RustText
open CrashContext (CrashType)

/-! ## Entries -/

inductive Entry where
  | total (day : Int)
  | release (day : Int) (release : Option ReleaseId)
  | platform (day : Int) (pair : Text × Text)
  | crashType (day : Int) (crashType : Option CrashType)
  | symbolication (day : Int) (state : SymbolicationState)
  | processing (day : Int) (state : ProcessingState)
  | issue (day : Int)
  | newIssue (day : Int)
  | regressed (day : Int)

def releaseText (release : Option ReleaseId) : Text :=
  (release.map ReleaseId.text).getD "unmapped".toList

def Entry.key : Entry → RollupKey
  | .total day => ⟨day, .eventTotal, "all".toList⟩
  | .release day id => ⟨day, .release, releaseText id⟩
  | .platform day pair => ⟨day, .platformArchitecture, platformKey pair.1 pair.2⟩
  | .crashType day value => ⟨day, .crashType, crashTypeText value⟩
  | .symbolication day state => ⟨day, .symbolicationState, state.text⟩
  | .processing day state => ⟨day, .processingState, state.text⟩
  | .issue day => ⟨day, .issueTotal, "all".toList⟩
  | .newIssue day => ⟨day, .issueNew, "all".toList⟩
  | .regressed day => ⟨day, .issueRegressed, "all".toList⟩

/-- Entries of one platform key of a day have one platform and architecture. -/
def Entry.Apart : Entry → Entry → Prop
  | .platform day pair, .platform day' pair' =>
    day = day' → leftPlatformKey pair = leftPlatformKey pair' → pair = pair'
  | _, _ => True

theorem Entry.Apart.symm {x y : Entry} (h : x.Apart y) : y.Apart x := by
  cases x <;> cases y <;> first | trivial | exact fun hd hk => (h hd.symm hk.symm).symm

theorem Entry.apart_left {x : Entry} (h : x.key.dimension ≠ .platformArchitecture) (y : Entry) :
    x.Apart y := by
  cases x <;> trivial

theorem Entry.apart_right {y : Entry} (h : y.key.dimension ≠ .platformArchitecture) (x : Entry) :
    x.Apart y := (apart_left h x).symm

theorem Entry.apart_self (x : Entry) : x.Apart x := by
  cases x <;> first | trivial | exact fun _ _ => rfl

theorem releaseText_injective : Function.Injective releaseText := by
  have hne : ∀ id : ReleaseId, id.text ≠ "unmapped".toList := fun id heq => by
    have hlength := id.form
    rw [heq] at hlength
    exact absurd hlength (by decide)
  rintro (_ | ⟨t, ht⟩) (_ | ⟨t', ht'⟩) h
  · rfl
  · exact absurd h.symm (hne ⟨t', ht'⟩)
  · exact absurd h (hne ⟨t, ht⟩)
  · cases (h : t = t')
    rfl

theorem releaseText_length (release : Option ReleaseId) :
    (releaseText release).length ≤ maxRollupChars := by
  cases release with
  | none => decide
  | some id => exact (id.form.trans_le (by decide) : id.text.length ≤ maxRollupChars)

theorem crashTypeText_length (crashType : Option CrashType) :
    (crashTypeText crashType).length ≤ maxRollupChars := by
  rcases crashType with _ | crashType
  · decide
  · cases crashType <;> decide

theorem SymbolicationState.text_length (state : SymbolicationState) :
    state.text.length ≤ maxRollupChars := by
  cases state <;> decide

theorem ProcessingState.text_length (state : ProcessingState) :
    state.text.length ≤ maxRollupChars := by
  cases state <;> decide

theorem eq_of_take_eq {a b : Text} (ha : a.length ≤ maxRollupChars) (hb : b.length ≤ maxRollupChars)
    (h : a.take maxRollupChars = b.take maxRollupChars) : a = b := by
  rwa [List.take_of_length_le ha, List.take_of_length_le hb] at h

section
variable (initcap : Text → Text) (releases : Table Release.id)

def Entry.label : Entry → Text
  | .total _ => "Events".toList
  | .release _ id => ((id.bind releases.find).map Release.version).getD "Unmapped".toList
  | .platform _ pair => platformLabel initcap pair.1 pair.2
  | .crashType _ value => initcap (crashTypeText value)
  | .symbolication _ state => initcap state.text
  | .processing _ state => stateLabel initcap state
  | .issue _ => "Issues".toList
  | .newIssue _ => "New issues".toList
  | .regressed _ => "Regressed issues".toList

def Entry.delta (x : Entry) (n : Int) : Delta := ⟨x.key, x.label initcap releases, n⟩

/-- The key and the label that are stored. -/
def Entry.written (x : Entry) : RollupKey × Text :=
  (x.key.left, (x.label initcap releases).take maxRollupChars)

variable {initcap releases}

/-- One key has one label, except where a platform and an architecture share theirs with
others. -/
theorem Entry.written_label {x y : Entry} (h : x.Apart y)
    (hk : (y.written initcap releases).1 = (x.written initcap releases).1) :
    (y.written initcap releases).2 = (x.written initcap releases).2 := by
  have hkey : y.key.key.take maxRollupChars = x.key.key.take maxRollupChars :=
    congrArg RollupKey.key hk
  have hdimension : y.key.dimension = x.key.dimension := congrArg (fun k => k.dimension) hk
  suffices hlabel : y.label initcap releases = x.label initcap releases from
    congrArg (List.take maxRollupChars) hlabel
  cases x <;> cases y <;> cases hdimension
  case total => rfl
  case release =>
    have heq := releaseText_injective
      (eq_of_take_eq (releaseText_length _) (releaseText_length _) hkey)
    exact congrArg (fun id : Option ReleaseId =>
      ((id.bind releases.find).map Release.version).getD "Unmapped".toList) heq
  case platform =>
    have heq := h (congrArg RollupKey.day hk).symm hkey.symm
    exact congrArg (fun pair => platformLabel initcap pair.1 pair.2) heq.symm
  case crashType =>
    have heq := eq_of_take_eq (crashTypeText_length _) (crashTypeText_length _) hkey
    exact congrArg initcap heq
  case symbolication =>
    have heq := eq_of_take_eq (SymbolicationState.text_length _)
      (SymbolicationState.text_length _) hkey
    exact congrArg initcap heq
  case processing =>
    have heq := eq_of_take_eq (ProcessingState.text_length _) (ProcessingState.text_length _) hkey
    exact congrArg (fun text : Text => initcap (text.map fun c => if c = '_' then ' ' else c)) heq
  case issue => rfl
  case newIssue => rfl
  case regressed => rfl

/-! ## Tallies of entries -/

variable {rollups : Rollups} {m : Multiset Entry} {x y : Entry}

variable (initcap releases) in
/-- The rollups count the entries. -/
def Tallied (rollups : Rollups) (m : Multiset Entry) : Prop :=
  Counts rollups (m.map (Entry.written initcap releases))

theorem Tallied.add (h : Tallied initcap releases rollups m) :
    Tallied initcap releases
      (applyProjectDailyRollupDelta rollups (x.delta initcap releases 1)) (x ::ₘ m) := by
  have hadd : applyProjectDailyRollupDelta rollups (x.delta initcap releases 1) =
      Tally.add rollups (x.written initcap releases).1 (x.written initcap releases).2 1 :=
    if_pos Int.one_pos
  rw [Tallied, Multiset.map_cons, hadd]
  exact Counts.add h

theorem Tallied.remove (h : Tallied initcap releases rollups (x ::ₘ m))
    (hx : ∀ y ∈ m, x.Apart y) :
    Tallied initcap releases
      (applyProjectDailyRollupDelta rollups (x.delta initcap releases (-1))) m := by
  have hremove : applyProjectDailyRollupDelta rollups (x.delta initcap releases (-1)) =
      Tally.remove rollups (x.written initcap releases).1 1 :=
    (if_neg (show ¬0 < (-1 : Int) by decide)).trans
      (if_pos (show (-1 : Int) < 0 by decide))
  rw [Tallied, Multiset.map_cons] at h
  rw [hremove]
  refine Counts.remove h fun z hz hk => ?_
  obtain ⟨y, hy, rfl⟩ := Multiset.mem_map.mp hz
  exact Entry.written_label (hx y hy) hk

theorem performDeltas_append (deltas deltas' : List Delta) :
    performDeltas rollups (deltas ++ deltas') = performDeltas (performDeltas rollups deltas) deltas' :=
  List.foldl_append

theorem Tallied.addAll (h : Tallied initcap releases rollups m) (l : List Entry) :
    Tallied initcap releases
      (performDeltas rollups (l.map fun x => x.delta initcap releases 1)) (l + m) := by
  induction l generalizing rollups m with
  | nil => rwa [Multiset.coe_nil, zero_add]
  | cons x l ih =>
    have hrest := ih (h.add (x := x))
    rwa [← Multiset.cons_coe, Multiset.cons_add, ← Multiset.add_cons]

theorem Tallied.removeAll {l : List Entry} (h : Tallied initcap releases rollups (l + m))
    (hl : ∀ x ∈ l, x.key.dimension ≠ .platformArchitecture) :
    Tallied initcap releases
      (performDeltas rollups (l.map fun x => x.delta initcap releases (-1))) m := by
  induction l generalizing rollups with
  | nil => rwa [Multiset.coe_nil, zero_add] at h
  | cons x l ih =>
    rw [← Multiset.cons_coe, Multiset.cons_add] at h
    have hx := hl x List.mem_cons_self
    exact ih (h.remove fun y _ => Entry.apart_left hx y)
      fun y hy => hl y (List.mem_cons_of_mem x hy)

/-- A list of entries trades for another. -/
theorem Tallied.tradeAll {l : List Entry} (h : Tallied initcap releases rollups (l + m))
    (l' : List Entry) (hl : ∀ x ∈ l, x.key.dimension ≠ .platformArchitecture) (guard : Prop) [Decidable guard]
    (hguard : ¬guard → l = l') :
    Tallied initcap releases (performDeltas rollups (if guard then
      (l.map fun x => x.delta initcap releases (-1)) ++ l'.map fun x => x.delta initcap releases 1
      else [])) (l' + m) := by
  by_cases hg : guard
  · rw [if_pos hg, performDeltas_append]
    exact (h.removeAll hl).addAll l'
  · rw [if_neg hg]
    exact hguard hg ▸ h

/-! ## Standings -/

inductive Slot where
  | total
  | release
  | platform
  | crashType
  | symbolication
  | processing
  deriving DecidableEq

def Slot.all : List Slot :=
  [.total, .release, .platform, .crashType, .symbolication, .processing]

/-- What an event counts as. -/
structure Standing where
  day : Int
  release : Option ReleaseId
  pair : Text × Text
  crashType : Option CrashType
  symbolication : SymbolicationState
  processing : ProcessingState

def Standing.entry (s : Standing) : Slot → Entry
  | .total => .total s.day
  | .release => .release s.day s.release
  | .platform => .platform s.day s.pair
  | .crashType => .crashType s.day s.crashType
  | .symbolication => .symbolication s.day s.symbolication
  | .processing => .processing s.day s.processing

def Standing.entries (s : Standing) : Multiset Entry := (Slot.all.map s.entry : List Entry)

theorem Slot.mem_all (i : Slot) : i ∈ Slot.all := by
  cases i <;> decide

theorem Slot.nodup_all : Slot.all.Nodup := by
  decide

theorem Standing.entries_eq (s : Standing) (i : Slot) :
    s.entries = s.entry i ::ₘ ((Slot.all.erase i).map s.entry : List Entry) :=
  Multiset.coe_eq_coe.mpr ((List.perm_cons_erase i.mem_all).map s.entry)

theorem Standing.mem_entries {s : Standing} {x : Entry} :
    x ∈ s.entries ↔ ∃ i, s.entry i = x := by
  simp only [entries, Multiset.mem_coe, List.mem_map, Slot.mem_all, true_and]

theorem Standing.entry_apart (s : Standing) (i j : Slot) : (s.entry i).Apart (s.entry j) := by
  cases i <;> cases j <;> first | trivial | exact Entry.apart_self _

theorem Standing.apart_of_ne {s : Standing} {i : Slot} (hi : i ≠ .platform) (y : Entry) :
    (s.entry i).Apart y := by
  cases i <;> trivial

/-- A slot trades its entry, unless the old and the new one are written alike. -/
theorem Tallied.trade {s : Standing} {others : Multiset Entry}
    (h : Tallied initcap releases rollups (s.entries + others)) (s' : Standing) (i : Slot)
    (guard : Prop) [Decidable guard] (hs : ∀ j, j ≠ i → s'.entry j = s.entry j) (hi : ∀ y ∈ others, (s.entry i).Apart y)
    (hguard : ¬guard →
      (s.entry i).written initcap releases = (s'.entry i).written initcap releases) :
    Tallied initcap releases
      (performDeltas rollups (if guard then
        [(s.entry i).delta initcap releases (-1), (s'.entry i).delta initcap releases 1] else []))
      (s'.entries + others) := by
  have hrest : ((Slot.all.erase i).map s'.entry) = (Slot.all.erase i).map s.entry :=
    List.map_congr_left fun j hj => hs j (Slot.nodup_all.mem_erase_iff.mp hj).1
  rw [s.entries_eq i, Multiset.cons_add] at h
  rw [s'.entries_eq i, Multiset.cons_add, hrest]
  by_cases hg : guard
  · rw [if_pos hg]
    refine Tallied.add (h.remove fun y hy => ?_)
    rcases Multiset.mem_add.mp hy with hy | hy
    · obtain ⟨j, -, rfl⟩ := List.mem_map.mp (Multiset.mem_coe.mp hy)
      exact s.entry_apart i j
    · exact hi y hy
  · rw [if_neg hg]
    rw [Tallied, Multiset.map_cons] at h ⊢
    rwa [← hguard hg]

end
end FaultLane.DailyRollups

import FaultLane.MissingWaiters
import FaultLane.SymbolWakeupsCovered

set_option autoImplicit false

/-!
# Crashes that get their missing symbols

A published result has a waiter for every file it lacks, and an artifact that becomes
available selects the crash by one of them: when both are so.
-/
namespace FaultLane.WaiterSelection
open KeyedTable JobQueue CrashSymbols MissingWaiters SymbolWakeups
open SymbolArrival (ProcessingState ValidArtifact validText validIdentity)

section Pages
variable (lower : String → String) (db : Database)

/-- The request after its next page. -/
def nextPage (q : Request) : Request := q.expanded (db.automaticReprocessingCandidates lower q)

/-- The event is on one of the pages of the request. -/
def Selects (q : Request) (eventId : Uuid) : Prop :=
  ∃ n, eventId ∈ (db.automaticReprocessingCandidates lower ((nextPage lower db)^[n] q)).take
    automaticReprocessingBatch

variable {lower db} {m : Artifact} {r : Release}

theorem expanded_same (q : Request) (candidates : List Uuid) :
    (q.expanded candidates).key = q.key ∧
      (q.expanded candidates).selectionBefore = q.selectionBefore := by
  unfold Request.expanded
  split_ifs <;> exact ⟨rfl, rfl⟩

variable (lower db) in
theorem pages_same (q : Request) (n : Nat) :
    ((nextPage lower db)^[n] q).key = q.key ∧
      ((nextPage lower db)^[n] q).selectionBefore = q.selectionBefore := by
  induction n generalizing q with
  | zero => exact ⟨rfl, rfl⟩
  | succ n ih =>
    have hnext := expanded_same q (db.automaticReprocessingCandidates lower q)
    have hrest := ih (nextPage lower db q)
    rw [Function.iterate_succ_apply]
    exact ⟨hrest.1.trans hnext.1, hrest.2.trans hnext.2⟩

theorem candidate_of_selects (hm : m ∈ db.artifacts) (hav : m.availableAt.isSome)
    (hr : r ∈ db.releases) (hrid : r.id = m.releaseId) {q : Request}
    (hid : m.id = q.key.manifestId) {eventId : Uuid} (h : Selects lower db q eventId) :
    ∃ c ∈ db.crashes, c.id = eventId ∧ (c.awaited lower q.selectionBefore m ∨
      c.unmapped lower q.selectionBefore m r) := by
  obtain ⟨n, hpage⟩ := h
  obtain ⟨hkey, hbefore⟩ := pages_same lower db q n
  generalize (nextPage lower db)^[n] q = page at hpage hkey hbefore
  have hin := List.mem_of_mem_take hpage
  rw [Database.automaticReprocessingCandidates_eq hm (by rw [hkey, hid]) hav hr hrid] at hin
  obtain ⟨-, c, hc, hcid, hwhere⟩ := Database.mem_remaining.mp (List.mem_of_mem_take hin)
  rw [hbefore] at hwhere
  exact ⟨c, hc, hcid, hwhere⟩

/-- Every event that remains comes up on a page. -/
theorem selects_of_remaining (hm : m ∈ db.artifacts) (hav : m.availableAt.isSome)
    (hr : r ∈ db.releases) (hrid : r.id = m.releaseId) {eventId : Uuid} (distance : Nat) :
    ∀ q : Request, m.id = q.key.manifestId → (∀ cursor ∈ q.cursor, eventId - cursor ≤ distance) →
      (q.cursor = none → eventId < distance) → eventId ∈ db.remaining lower q m r →
      Selects lower db q eventId := by
  -- every further page begins nearer to the event
  induction distance with
  | zero =>
    intro q _ hnear hfirst hmem
    obtain ⟨hcursor, -⟩ := Database.mem_remaining.mp hmem
    cases hq : q.cursor with
    | none => exact absurd (hfirst hq) (Nat.not_lt_zero _)
    | some cursor =>
      have hlt := hcursor cursor hq
      exact absurd (hnear cursor hq) (not_le.mpr (Nat.sub_pos_of_lt hlt))
  | succ distance ih =>
    intro q hid hnear hfirst hmem
    have hcandidates : db.automaticReprocessingCandidates lower q =
        (db.remaining lower q m r).take (automaticReprocessingBatch + 1) :=
      Database.automaticReprocessingCandidates_eq hm hid hav hr hrid
    rcases Database.page_or_goes_on hcandidates hmem with hpage | ⟨cursor, hcursor, hlt, hnext⟩
    · exact ⟨0, hpage⟩
    · obtain ⟨hafter, -⟩ := Database.mem_remaining.mp hcursor
      obtain ⟨-, hwhere⟩ := Database.mem_remaining.mp hmem
      have hnearer : eventId - cursor ≤ distance := by
        cases hq : q.cursor with
        | none =>
          exact (Nat.sub_le eventId cursor).trans (Nat.le_of_lt_succ (hfirst hq))
        | some old =>
          have hold := Nat.sub_lt_sub_left ((hafter old hq).trans hlt) (hafter old hq)
          exact Nat.le_of_lt_succ (hold.trans_le (hnear old hq))
      have hrest : Selects lower db (nextPage lower db q) eventId := by
        unfold nextPage
        rw [hnext]
        apply ih
        · exact hid
        · intro c hc
          cases hc
          exact hnearer
        · exact nofun
        · refine Database.mem_remaining.mpr ⟨fun c hc => ?_, hwhere⟩
          cases hc
          exact hlt
      obtain ⟨n, hn⟩ := hrest
      exact ⟨n + 1, by rwa [Function.iterate_succ_apply]⟩

/-- A request that begins selects the events of its `WHERE` clause. -/
theorem selects_iff (hm : m ∈ db.artifacts) (hav : m.availableAt.isSome)
    (hr : r ∈ db.releases) (hrid : r.id = m.releaseId) {q : Request}
    (hid : m.id = q.key.manifestId) (hcursor : q.cursor = none) {eventId : Uuid} :
    Selects lower db q eventId ↔ ∃ c ∈ db.crashes, c.id = eventId ∧
      (c.awaited lower q.selectionBefore m ∨ c.unmapped lower q.selectionBefore m r) := by
  constructor
  · exact candidate_of_selects hm hav hr hrid hid
  · intro hwhere
    refine selects_of_remaining hm hav hr hrid (eventId + 1) q hid ?_ (fun _ => Nat.lt_succ_self _)
      (Database.mem_remaining.mpr ⟨?_, hwhere⟩)
    · rw [hcursor]
      exact nofun
    · rw [hcursor]
      exact nofun

end Pages

section Coverage
variable (lower : String → String)

/-- The artifact is the file that the waiter names. -/
def HasIdentity (a : SelectedArtifact) (w : SymbolWaiter) : Prop :=
  a.architecture = w.architecture ∧ a.debugId = w.debugId ∧
    match w.requiredArtifact with
    | .pdb => a.artifactType = "pdb"
    | .pe => a.artifactType ≠ "pdb" ∧ asciiLowercase a.moduleName = w.moduleName ∧
      a.codeId = some w.codeId

/-- Any missing file that becomes available in the release later selects the event. -/
def SelectedByMissing (p : Published) (missing : Finset SymbolWaiter) : Prop :=
  ∀ (db : Database) (c : Crash) (m : Artifact) (r : Release) (q : Request),
    c ∈ db.crashes → c.current = some p → m ∈ db.artifacts → ValidArtifact m.artifact →
    m.availableAt.isSome → p.release.matchedId = some m.releaseId → r ∈ db.releases →
    r.id = m.releaseId → m.id = q.key.manifestId → q.cursor = none →
    p.createdAt ≤ q.selectionBefore → (∃ w ∈ missing, HasIdentity m.artifact w) →
    Selects lower db q c.id

variable (result : Json) (release : ReleaseResolution) (ready : Bool)

/-- The waiters are stored for just the missing files, and each of these selects the event. -/
structure Covered : Prop where
  stored : publishWaiters result (resultState ready result) release = .ok (missingWaiters result)
  selected : ∀ p : Published, p.state = resultState ready result → p.release = release →
    p.waiters = missingWaiters result → SelectedByMissing lower p (missingWaiters result)

/-- Nothing is lacking beside a readable frame, the texts and their number are in bounds, and
the database's `lower` spells the names of the PE files as the waiters do. -/
structure Coverable : Prop where
  gate : ready = true → hasResolvedFrame result = true → missingWaiters result = ∅
  texts : ∀ w ∈ missingWaiters result, Fits w ∧ Char.ofNat 0 ∉ w.moduleName.toList ∧
    Char.ofNat 0 ∉ w.debugId.toList ∧ Char.ofNat 0 ∉ w.codeId.toList
  count : (missingWaiters result).card ≤ maxSymbolWaiters
  names : ∀ w ∈ missingWaiters result, w.requiredArtifact = .pe → validIdentity w.debugId →
    validIdentity w.codeId → ∀ name, validText name 256 → asciiLowercase name = w.moduleName →
      { w with moduleName := lower name } ∈ missingWaiters result

variable {lower result release ready} {guid : Option String} {releaseId : String}

theorem resultState_eq_processed :
    resultState ready result = .processed ↔ ready = true ∧ hasResolvedFrame result = true := by
  unfold resultState
  split_ifs with h
  · rw [Bool.and_eq_true] at h
    exact iff_of_true rfl h
  · rw [Bool.and_eq_true] at h
    exact iff_of_false nofun h

theorem awaiting_of_missing (hgate : ready = true → hasResolvedFrame result = true →
    missingWaiters result = ∅) {w : SymbolWaiter} (hw : w ∈ missingWaiters result) :
    resultState ready result = .awaitingSymbols := by
  unfold resultState
  split_ifs with h
  · rw [Bool.and_eq_true] at h
    rw [hgate h.1 h.2] at hw
    cases hw
  · rfl

theorem waiter_of_missing (h : validateResult result guid = .ok ()) {w : SymbolWaiter}
    (hw : w ∈ missingWaiters result) : w.architecture = "x86_64" ∧
      (w.requiredArtifact = .pdb ∧ w.codeId = "" ∨ w.requiredArtifact = .pe) := by
  obtain ⟨_, modules, -, -, -, -, hmissing⟩ := missingWaiters_eq h
  rw [hmissing, List.mem_toFinset, List.mem_flatMap] at hw
  obtain ⟨module, -, hw⟩ := hw
  obtain ⟨_, _, -, -, -, harchitecture, -, hkind⟩ := of_mem_identityWaiters hw
  have hx : asciiLowercase "x86_64" = "x86_64" := by decide
  exact ⟨harchitecture.trans hx, hkind.imp_right And.left⟩

theorem selected_of_coverable (h : validateResult result guid = .ok ())
    (hc : Coverable lower result ready) {p : Published}
    (hstate : p.state = resultState ready result) (hwaiters : p.waiters = missingWaiters result) :
    SelectedByMissing lower p (missingWaiters result) := by
  intro db c m r q hcrash hcurrent hm hvalid hav hreleaseId hr hrid hid hcursor hcreated
  rintro ⟨w, hw, harchitecture, hdebug, hkind⟩
  refine (selects_iff hm hav hr hrid hid hcursor).mpr ⟨c, hcrash, rfl, .inl ?_⟩
  refine ⟨p, hcurrent, hcreated, hstate.trans (awaiting_of_missing hc.gate hw), hreleaseId, ?_⟩
  rw [hwaiters]
  obtain ⟨-, hpdb | hpe⟩ := waiter_of_missing h hw
  · rw [hpdb.1] at hkind
    exact ⟨w, hw, .inl ⟨hkind, hpdb.1, harchitecture.symm, hdebug.symm, hpdb.2⟩⟩
  · rw [hpe] at hkind
    obtain ⟨htype, hname, hcode⟩ := hkind
    have hidentity := hvalid.codeId w.codeId hcode
    have hdebugId := hdebug ▸ hvalid.debugId
    have hspelled := hc.names w hw hpe hdebugId hidentity _ hvalid.moduleName hname
    have htypes : m.artifact.artifactType ∈ ["pe_executable", "pe_dynamic_library"] := by
      have htypes := hvalid.artifactType
      simp only [List.mem_cons, List.not_mem_nil, or_false] at htypes ⊢
      tauto
    exact ⟨_, hspelled, .inr ⟨htypes, hpe, rfl, harchitecture.symm, hdebug.symm, hcode.symm⟩⟩

/-- A PE file with this name and these identifiers. -/
def peArtifact (name : String) (w : SymbolWaiter) : SelectedArtifact :=
  ⟨"", "", [], 0, "pe_dynamic_library", name, "x86_64", w.debugId, some w.codeId⟩

theorem peArtifact_valid {name : String} {w : SymbolWaiter} (htext : validText name 256)
    (hdebug : validIdentity w.debugId) (hcode : validIdentity w.codeId) :
    ValidArtifact (peArtifact name w) where
  moduleName := htext
  artifactType :=
    (by decide : "pe_dynamic_library" ∈ ["pe_executable", "pe_dynamic_library", "pdb"])
  architecture := (by decide : "x86_64" ∈ ["x86", "x86_64", "arm64"])
  debugId := hdebug
  codeId := by
    intro codeId hcodeId
    cases hcodeId
    exact hcode
  codeId_isSome := iff_of_true rfl (by decide : "pe_dynamic_library" ≠ "pdb")

theorem names_of_covered (h : validateResult result guid = .ok ())
    (hmatched : release.matchedId = some releaseId) (hc : Covered lower result release ready)
    {w : SymbolWaiter} (hw : w ∈ missingWaiters result) (hpe : w.requiredArtifact = .pe)
    (hdebug : validIdentity w.debugId) (hcode : validIdentity w.codeId) {name : String}
    (htext : validText name 256) (hname : asciiLowercase name = w.moduleName) :
    { w with moduleName := lower name } ∈ missingWaiters result := by
  let p : Published := ⟨0, resultState ready result, release, missingWaiters result, 0, 0⟩
  let m : Artifact := ⟨0, releaseId, peArtifact name w, some 0⟩
  let r : Release := ⟨releaseId, ⟨"", "", "", ""⟩⟩
  let c : Crash := ⟨0, 0, some p⟩
  let db : Database :=
    ⟨Table.empty.insert r, Table.empty.insert m, .empty, .empty, Table.empty.insert c⟩
  let q : Request := ⟨0, .artifact 0 [], 0, none, .pending⟩
  have hvalid : ValidArtifact m.artifact := peArtifact_valid htext hdebug hcode
  have hlibrary : "pe_dynamic_library" ≠ "pdb" := by decide
  have hidentity : HasIdentity m.artifact w := by
    refine ⟨(waiter_of_missing h hw).1.symm, rfl, ?_⟩
    rw [hpe]
    exact ⟨hlibrary, hname, rfl⟩
  have hin : c ∈ db.crashes ∧ m ∈ db.artifacts ∧ r ∈ db.releases :=
    ⟨List.mem_singleton.mpr rfl, List.mem_singleton.mpr rfl, List.mem_singleton.mpr rfl⟩
  have hselects := hc.selected p rfl rfl rfl db c m r q hin.1 rfl hin.2.1 hvalid rfl hmatched
    hin.2.2 rfl rfl rfl (Nat.le_refl 0) ⟨w, hw, hidentity⟩
  obtain ⟨c', hc', -, hwhere⟩ := (selects_iff hin.2.1 rfl hin.2.2 rfl rfl rfl).mp hselects
  obtain rfl : c' = c := List.mem_singleton.mp hc'
  have hstate : release.state = .matched :=
    release.state_eq_matched.mpr (Option.isSome_iff_exists.mpr ⟨releaseId, hmatched⟩)
  rcases hwhere with ⟨_, hcurrent, -, -, -, w', hw', hmatch⟩ | ⟨_, hcurrent, -, hunmapped, -⟩
  · cases hcurrent
    rcases hmatch with ⟨hpdb, -⟩ | ⟨-, hpe', hn, ha, hd, hcodes⟩
    · exact absurd hpdb hlibrary
    · have hsame : w' = { w with moduleName := lower name } := by
        obtain ⟨_, _, _, _, _⟩ := w'
        obtain ⟨required, _, architecture, debugId, codeId⟩ := w
        simp only [SymbolWaiter.mk.injEq]
        have harchitecture := (waiter_of_missing h hw).1
        exact ⟨hpe'.trans hpe.symm, hn, ha.trans harchitecture.symm, hd, Option.some.inj hcodes⟩
      exact hsame ▸ hw'
  · cases hcurrent
    change release.state = .missing ∨ release.state = .ambiguous at hunmapped
    rw [hstate] at hunmapped
    rcases hunmapped with hmissing | hambiguous
    · cases hmissing
    · cases hambiguous

end Coverage

/-- When a valid result with one release gets all its missing symbols. -/
theorem covered_iff_coverable (lower : String → String) (result : Json) (guid : Option String)
    (release : ReleaseResolution) (releaseId : String) (ready : Bool)
    (h : validateResult result guid = .ok ()) (hmatched : release.matchedId = some releaseId) :
    Covered lower result release ready ↔ Coverable lower result ready := by
  have hstored := publishWaiters_iff h hmatched ready
  rw [resultState_eq_processed] at hstored
  constructor
  · intro hc
    obtain ⟨hgate, htexts, hcount⟩ := hstored.mp hc.stored
    exact ⟨fun hready hframe => hgate ⟨hready, hframe⟩, htexts, hcount,
      fun w hw hpe hdebug hcode name htext hname =>
        names_of_covered h hmatched hc hw hpe hdebug hcode htext hname⟩
  · intro hc
    exact ⟨hstored.mpr ⟨fun hboth => hc.gate hboth.1 hboth.2, hc.texts, hc.count⟩,
      fun p hstate _ hwaiters => selected_of_coverable h hc hstate hwaiters⟩

section Samples
open Json ProcessingResult ProcessingHistory Symbolication

def sampleModule (status : ModuleSymbolStatus) : SymbolicatedModule :=
  ⟨"Game.exe", "0x140000000", 4096, some "C0DE", some "A1B2", status, none, none, none⟩

def sampleFrame (status : FrameSymbolStatus) : SymbolicatedFrame where
  instruction := "0x140001000"
  module := some "Game.exe"
  moduleRelative := some "0x1000"
  trust := "context"
  symbolStatus := status
  function := none
  sourceFile := none
  sourceLine := none
  inlines := []

def sampleThread (status : FrameSymbolStatus) : SymbolicatedThread :=
  ⟨7, true, none, .ok, false, [sampleFrame status]⟩

def sampleResult (frame : FrameSymbolStatus) (module : ModuleSymbolStatus) : Json :=
  built sampleGuid (sampleInput "Crash" "" (sampleSymbolication none [sampleModule module]
    [sampleThread frame])) none

def sampleRelease : ReleaseResolution := ⟨some ⟨"1.0", "windows", "x86_64", "Shipping"⟩, ["1"]⟩

/-- A mismatched module without a readable frame waits for both of its files. -/
theorem covered_mismatched :
    Covered asciiLowercase (sampleResult .mismatched .mismatched) sampleRelease true :=
  (covered_iff_coverable asciiLowercase (sampleResult .mismatched .mismatched) none sampleRelease
    "1" true (by decide +kernel) rfl).mpr
      ⟨by decide +kernel, by decide +kernel, by decide +kernel,
        fun w hw _ _ _ _ _ hname => by rw [hname]; exact hw⟩

/-- A crash with a readable frame does not wait for its other symbols. -/
theorem not_covered_readable : ¬ ∀ (result : Json) (guid : Option String)
    (release : ReleaseResolution) (releaseId : String) (ready : Bool),
    validateResult result guid = .ok () → release.matchedId = some releaseId →
      Covered asciiLowercase result release ready := by
  intro h
  have hc := h (sampleResult .resolved .missingPdb) none sampleRelease "1" true
    (by decide +kernel) rfl
  have hrows : publishWaiters (sampleResult .resolved .missingPdb)
      (resultState true (sampleResult .resolved .missingPdb)) sampleRelease = .ok ∅ := by
    decide +kernel
  have hmissing : missingWaiters (sampleResult .resolved .missingPdb) ≠ ∅ := by decide +kernel
  exact hmissing (Except.ok.inj (hc.stored.symm.trans hrows))

end Samples

end FaultLane.WaiterSelection

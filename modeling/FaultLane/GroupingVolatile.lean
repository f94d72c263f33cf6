import FaultLane.GroupingDigest

set_option autoImplicit false

/-!
# What fingerprints ignore

Two valid results that agree on the members a fingerprint is made of have the same
fingerprint, whatever else they hold.
-/
namespace FaultLane.GroupingVolatile
open Fallible RustText SortedMap Json SortDedup Symbolication ProcessingContract ProcessingResult
  ProcessingHistory GroupingText Grouping GroupingTotality GroupingDigest

section Identities

/-- A module as the identity map sees it. -/
def namedIdentity (module : Json) : Option (Text × ModuleIdentity) :=
  (textOf "module" module).map fun name => (normalizeModule name, moduleIdentity module)

/-- The entry of `name` after the pairs seen so far. -/
def entryOf (seen : List (Text × ModuleIdentity)) (name : Text) : Option (List ModuleIdentity) :=
  let identities := (seen.filter (·.1 = name)).map Prod.snd
  if identities = [] then none else some (sortDedup ModuleIdentity.key identities)

theorem key_injective : Function.Injective ModuleIdentity.key := by
  have htoList : ∀ {o p : Option Text}, o.toList = p.toList → o = p := by
    intro o p h
    cases o <;> cases p <;> simp_all
  rintro ⟨debugId, codeId⟩ ⟨debugId', codeId'⟩ h
  simp only [ModuleIdentity.key, List.cons.injEq, and_true] at h
  obtain rfl := htoList h.1
  obtain rfl := htoList h.2
  rfl

/-- Each push, sort and dedup keeps the entry that of all pairs seen. -/
theorem addModule_entry {identities found : ModuleIdentities} {seen : List (Text × ModuleIdentity)}
    {module : Json} (h : ∀ name, get name identities = entryOf seen name)
    (hfound : addModule identities module = .ok found) :
    ∃ pair, namedIdentity module = some pair ∧
      ∀ name, get name found = entryOf (seen ++ [pair]) name := by
  obtain ⟨text, htext, hfound⟩ := bind_eq_ok.mp hfound
  cases hfound
  rw [okOr_eq_ok] at htext
  refine ⟨_, by rw [namedIdentity, htext]; rfl, fun name => ?_⟩
  rw [get_alter]
  by_cases hname : normalizeModule text = name
  · rw [if_pos hname, h]
    unfold entryOf
    simp only [List.filter_append, List.map_append]
    simp only [hname, List.filter_cons, decide_true, ↓reduceIte, List.filter_nil, List.map_cons,
      List.map_nil, List.append_eq_nil_iff, List.cons_ne_nil, and_false]
    split_ifs with hnil
    · rw [hnil]
      rfl
    · exact congrArg some (sortDedup_push key_injective _ _)
  · have hfilter : (seen ++ [(normalizeModule text, moduleIdentity module)]).filter (·.1 = name) =
        seen.filter (·.1 = name) := by
      simp [hname]
    rw [if_neg hname, h]
    unfold entryOf
    rw [hfilter]

theorem addModules_entry {identities found : ModuleIdentities}
    {seen : List (Text × ModuleIdentity)} {modules : List Json}
    (h : ∀ name, get name identities = entryOf seen name)
    (hfound : addModules identities modules = .ok found) :
    ∀ name, get name found = entryOf (seen ++ modules.filterMap namedIdentity) name := by
  induction modules generalizing identities seen with
  | nil =>
    cases hfound
    simpa using h
  | cons module rest ih =>
    obtain ⟨next, hnext, hfound⟩ := bind_eq_ok.mp hfound
    obtain ⟨pair, hpair, hentry⟩ := addModule_entry h hnext
    have := ih hentry hfound
    rwa [List.append_assoc, List.singleton_append, ← List.filterMap_cons_some hpair] at this

/-- The entries depend on the set of pairs only. -/
theorem entryOf_ext {seen seen' : List (Text × ModuleIdentity)}
    (h : ∀ pair, pair ∈ seen ↔ pair ∈ seen') (name : Text) :
    entryOf seen name = entryOf seen' name := by
  have hmem : ∀ identity, identity ∈ (seen.filter (·.1 = name)).map Prod.snd ↔
      identity ∈ (seen'.filter (·.1 = name)).map Prod.snd := by
    intro identity
    simp only [List.mem_map, List.mem_filter, h]
  have hnil : (seen.filter (·.1 = name)).map Prod.snd = [] ↔
      (seen'.filter (·.1 = name)).map Prod.snd = [] := by
    simp only [List.eq_nil_iff_forall_not_mem, hmem]
  unfold entryOf
  simp only [hnil, sortDedup_ext key_injective hmem]

end Identities

section Frames

/-- The names of the functions inlined at a frame. -/
def inlineFunctions (frame : Json) : List (Option Text) :=
  ((frameInlines frame).getD []).map (textOf "function")

/-- What must agree of two frames, for a notion of lying under the engine's sources. -/
structure FrameAgrees (under : Text → Bool) (f g : Json) : Prop where
  resolved : isResolved f = isResolved g
  module : textOf "module" f = textOf "module" g
  function : textOf "function" f = textOf "function" g
  inlines : inlineFunctions f = inlineFunctions g
  relative : isResolved f = false → textOf "module_relative" f = textOf "module_relative" g
  engine : (sourcePaths f).any under = (sourcePaths g).any under

theorem frameCategory_congr {module : Text} {paths paths' : List Text}
    (h : paths.any isUnderEngineSource = paths'.any isUnderEngineSource) :
    frameCategory module paths = frameCategory module paths' := by
  unfold frameCategory
  rw [h]

theorem inlines_of_frame {f : Json} (h : validateFrame f = .ok ()) :
    ∃ inlines, frameInlines f = some inlines := by
  obtain ⟨object, hobject, h⟩ := bind_eq_ok.mp h
  obtain ⟨_, -, h⟩ := bind_eq_ok.mp h
  obtain ⟨inlines, hinlines, -⟩ := bind_eq_ok.mp h
  have hobject := okOr_eq_ok.mp hobject
  have hinlines := okOr_eq_ok.mp hinlines
  unfold arrayAt at hinlines
  exact ⟨inlines, by simp [frameInlines, Json.get, hobject, hinlines]⟩

theorem filterMap_of_map {α : Type} {f : α → Option Text} {as bs : List α}
    (h : as.map f = bs.map f) : as.filterMap f = bs.filterMap f := by
  have hid : ∀ l : List α, l.filterMap f = (l.map f).filterMap id := fun l => by
    rw [List.filterMap_map]
    rfl
  rw [hid, hid, h]

theorem resolvedFrame_congr {f g : Json} (hf : validateFrame f = .ok ())
    (hg : validateFrame g = .ok ()) (h : FrameAgrees isUnderEngineSource f g) :
    resolvedFrame f = resolvedFrame g := by
  obtain ⟨inlines, hinlines⟩ := inlines_of_frame hf
  obtain ⟨inlines', hinlines'⟩ := inlines_of_frame hg
  have hnames : inlines.filterMap (textOf "function") = inlines'.filterMap (textOf "function") := by
    apply filterMap_of_map
    simpa [inlineFunctions, hinlines, hinlines'] using h.inlines
  unfold resolvedFrame
  simp only [h.resolved, h.module, h.function, hinlines, hinlines', Option.bind_eq_bind,
    Option.bind_some, hnames, frameCategory_congr h.engine]

theorem unresolvedFrame_congr {f g : Json} {modules modules' : ModuleIdentities}
    (hmodules : ∀ name, get name modules = get name modules')
    (h : FrameAgrees isUnderEngineSource f g) :
    unresolvedFrame modules f = unresolvedFrame modules' g := by
  unfold unresolvedFrame
  rw [← h.resolved]
  by_cases hresolved : isResolved f = true
  · rw [if_pos hresolved, if_pos hresolved]
  · rw [if_neg hresolved, if_neg hresolved, h.module, h.relative (by simpa using hresolved)]
    simp only [hmodules]

theorem collectFrame_congr {f g : Json} {modules modules' : ModuleIdentities}
    (hf : validateFrame f = .ok ()) (hg : validateFrame g = .ok ())
    (hmodules : ∀ name, get name modules = get name modules')
    (h : FrameAgrees isUnderEngineSource f g) (collected : CollectedFrames) :
    collectFrame modules collected f = collectFrame modules' collected g := by
  unfold collectFrame
  rw [resolvedFrame_congr hf hg h, unresolvedFrame_congr hmodules h]

theorem collectFrames_congr {fs gs : List Json} {modules modules' : ModuleIdentities}
    (hfs : ∀ f ∈ fs, validateFrame f = .ok ()) (hgs : ∀ g ∈ gs, validateFrame g = .ok ())
    (hmodules : ∀ name, get name modules = get name modules')
    (h : List.Forall₂ (FrameAgrees isUnderEngineSource) fs gs) (collected : CollectedFrames) :
    fs.foldl (collectFrame modules) collected = gs.foldl (collectFrame modules') collected := by
  induction h generalizing collected with
  | nil => rfl
  | cons hfg _ ih =>
    rw [List.foldl_cons, List.foldl_cons, collectFrame_congr (hfs _ List.mem_cons_self)
      (hgs _ List.mem_cons_self) hmodules hfg]
    exact ih (fun f hf => hfs f (List.mem_cons_of_mem _ hf))
      (fun g hg => hgs g (List.mem_cons_of_mem _ hg)) _

end Frames

section Agreement

def moduleTriple (module : Json) : Option Text × Option Text × Option Text :=
  (textOf "module" module, textOf "debug_id" module, textOf "code_id" module)

def modulesOf (result : Json) : List Json :=
  ((result.pointer ["current", "symbolication", "modules"]).bind asArray).getD []

/-- The frames of the first thread marked as the faulting one. -/
def faultingFramesOf (result : Json) : Option (List Json) :=
  ((((result.pointer ["current", "symbolication", "threads"]).bind asArray).bind
    (·.find? isFaulting)).bind (Json.get "frames")).bind asArray

def textAt (path : List String) (result : Json) : Option String :=
  (result.pointer path).bind asStr

structure Agrees (under : Text → Bool) (v w : Json) : Prop where
  crashType : textAt ["crash_context", "crash_type"] v = textAt ["crash_context", "crash_type"] w
  classification : v.get "classification" = w.get "classification"
  errorMessage :
    textAt ["crash_context", "error_message"] v = textAt ["crash_context", "error_message"] w
  platform : textAt ["crash_context", "platform", "normalized"] v =
    textAt ["crash_context", "platform", "normalized"] w
  exceptionReason : textAt ["current", "symbolication", "exception_reason"] v =
    textAt ["current", "symbolication", "exception_reason"] w
  assertion : textAt ["current", "symbolication", "assertion"] v =
    textAt ["current", "symbolication", "assertion"] w
  modules : ∀ triple, triple ∈ (modulesOf v).map moduleTriple ↔
    triple ∈ (modulesOf w).map moduleTriple
  frames : Option.Rel (List.Forall₂ (FrameAgrees under)) (faultingFramesOf v) (faultingFramesOf w)

theorem pointer_concat (path : List String) (key : String) (v : Json) :
    v.pointer (path ++ [key]) = (v.pointer path).bind (Json.get key) := by
  simp [pointer]

theorem pointer_append (path : List String) (key : String) (v : Json) :
    v.pointer (path ++ [key]) = ((v.pointer path).bind asObject).bind (SortedMap.get key) := by
  rw [pointer_concat]
  cases v.pointer path <;> rfl

theorem pointer_context {v : Json} (p : Parts v) (field : String) :
    v.pointer ["crash_context", field] = get field p.context := by
  have h := pointer_append ["crash_context"] field v
  rw [okOr_eq_ok.mp p.context_eq] at h
  exact h

theorem pointer_symbolication {v : Json} (p : Parts v) (field : String) :
    v.pointer ["current", "symbolication", field] = get field p.symbolication := by
  have h := pointer_append ["current", "symbolication"] field v
  rw [okOr_eq_ok.mp p.symbolication_eq] at h
  exact h

theorem pointer_platform {v : Json} (p : Parts v) :
    textAt ["crash_context", "platform", "normalized"] v =
      ((get "platform" p.context).bind (Json.get "normalized")).bind asStr := by
  have h := pointer_append ["crash_context", "platform"] "normalized" v
  rw [pointer_context p "platform"] at h
  unfold textAt
  rw [show ["crash_context", "platform", "normalized"] =
    ["crash_context", "platform"] ++ ["normalized"] from rfl, h]
  cases get "platform" p.context <;> rfl

theorem modulesOf_parts {v : Json} (p : Parts v) : modulesOf v = p.modules := by
  unfold modulesOf
  rw [pointer_symbolication p]
  change (arrayAt "modules" p.symbolication).getD [] = _
  rw [p.modules_eq]
  rfl

theorem faultingFrames_parts {v : Json} (p : Parts v) :
    faultingFrames p.symbolication = okOr (faultingFramesOf v) .invalidProcessingResult := by
  unfold faultingFrames faultingFramesOf
  rw [pointer_symbolication p]
  rfl

theorem frames_valid {v : Json} (p : Parts v) {frames : List Json}
    (h : faultingFramesOf v = some frames) : ∀ f ∈ frames, validateFrame f = .ok () := by
  unfold faultingFramesOf at h
  rw [pointer_symbolication p] at h
  have hthreads : (get "threads" p.symbolication).bind asArray = some p.threads := p.threads_eq
  rw [hthreads, Option.bind_some] at h
  cases hfind : p.threads.find? isFaulting with
  | none => simp [hfind] at h
  | some t =>
    rw [hfind, Option.bind_some] at h
    have ht := p.threads_valid t (List.mem_of_find?_eq_some hfind)
    obtain ⟨object, hobject, ht⟩ := bind_eq_ok.mp ht
    obtain ⟨_, -, ht⟩ := bind_eq_ok.mp ht
    obtain ⟨frames', hframes, ht⟩ := bind_eq_ok.mp ht
    have hget : (t.get "frames").bind asArray = some frames' := by
      rw [Json.get, okOr_eq_ok.mp hobject]
      exact okOr_eq_ok.mp hframes
    obtain rfl : frames = frames' := Option.some.inj (h.symm.trans hget)
    exact forEach_eq_ok.mp ht

/-- The pairs of two valid module lists with the same triples are the same. -/
theorem namedIdentity_mem {v w : Json} (p : Parts v) (q : Parts w)
    (h : ∀ triple, triple ∈ (modulesOf v).map moduleTriple ↔
      triple ∈ (modulesOf w).map moduleTriple) (pair : Text × ModuleIdentity) :
    pair ∈ p.modules.filterMap namedIdentity ↔ pair ∈ q.modules.filterMap namedIdentity := by
  rw [modulesOf_parts p, modulesOf_parts q] at h
  have hfactor : ∀ m n : Json, moduleTriple m = moduleTriple n →
      namedIdentity m = namedIdentity n := by
    intro m n hmn
    simp only [moduleTriple, Prod.mk.injEq] at hmn
    unfold namedIdentity moduleIdentity
    rw [hmn.1, hmn.2.1, hmn.2.2]
  have hsub : ∀ {ms ns : List Json}, (∀ triple, triple ∈ ms.map moduleTriple →
      triple ∈ ns.map moduleTriple) → pair ∈ ms.filterMap namedIdentity →
      pair ∈ ns.filterMap namedIdentity := by
    intro ms ns hmem hpair
    obtain ⟨m, hm, hpair⟩ := List.mem_filterMap.mp hpair
    obtain ⟨n, hn, htriple⟩ := List.mem_map.mp (hmem _ (List.mem_map_of_mem hm))
    exact List.mem_filterMap.mpr ⟨n, hn, by rw [hfactor n m htriple, hpair]⟩
  exact ⟨hsub fun t => (h t).mp, hsub fun t => (h t).mpr⟩

theorem moduleIdentities_parts {v : Json} (p : Parts v) :
    ∃ found, moduleIdentities p.symbolication = .ok found ∧
      ∀ name, get name found = entryOf (p.modules.filterMap namedIdentity) name := by
  obtain ⟨found, hfound⟩ := addModules_ok [] fun m hm => textOf_module (p.modules_valid m hm)
  refine ⟨found, ?_, ?_⟩
  · rw [moduleIdentities, p.modules_eq]
    exact hfound
  · have hempty : ∀ name, get name ([] : ModuleIdentities) = entryOf [] name := fun _ => rfl
    exact addModules_entry hempty hfound

theorem frameEvidence_congr {v w : Json} (p : Parts v) (q : Parts w)
    (h : Agrees isUnderEngineSource v w) :
    frameEvidence p.symbolication = frameEvidence q.symbolication := by
  obtain ⟨modules, hmodules, hentries⟩ := moduleIdentities_parts p
  obtain ⟨modules', hmodules', hentries'⟩ := moduleIdentities_parts q
  have hget : ∀ name, get name modules = get name modules' := fun name => by
    rw [hentries, hentries', entryOf_ext (namedIdentity_mem p q h.modules)]
  have hframes := h.frames
  unfold frameEvidence
  rw [hmodules, hmodules', faultingFrames_parts p, faultingFrames_parts q, ok_bind, ok_bind]
  cases hv : faultingFramesOf v with
  | none =>
    cases hw : faultingFramesOf w with
    | none => rfl
    | some gs =>
      rw [hv, hw] at hframes
      cases hframes
  | some fs =>
    cases hw : faultingFramesOf w with
    | none =>
      rw [hv, hw] at hframes
      cases hframes
    | some gs =>
      rw [hv, hw] at hframes
      cases hframes with
      | some hall =>
        simp only [okOr_some, ok_bind, collectFrames_congr (frames_valid p hv) (frames_valid q hw)
          hget hall]

theorem gatherEvidence_congr {unicode : Char → Bool} {v w : Json} (p : Parts v) (q : Parts w)
    (h : Agrees isUnderEngineSource v w) : gatherEvidence unicode v = gatherEvidence unicode w := by
  have hcontext : ∀ {field : String}, textAt ["crash_context", field] v =
      textAt ["crash_context", field] w → strAt field p.context = strAt field q.context := by
    intro field hfield
    unfold textAt at hfield
    rwa [pointer_context p, pointer_context q] at hfield
  have hsymbolication : ∀ {field : String}, textAt ["current", "symbolication", field] v =
      textAt ["current", "symbolication", field] w →
      strAt field p.symbolication = strAt field q.symbolication := by
    intro field hfield
    unfold textAt at hfield
    rwa [pointer_symbolication p, pointer_symbolication q] at hfield
  have htype : p.crashType = q.crashType := by
    have hp := okOr_eq_ok.mp p.crashType_eq
    have hq := okOr_eq_ok.mp q.crashType_eq
    exact Option.some.inj (hp.symm.trans ((hcontext h.crashType).trans hq))
  have hplatform : (get "platform" p.context).bind (textOf "normalized") =
      (get "platform" q.context).bind (textOf "normalized") := by
    have htext : ∀ o : Option Json, o.bind (textOf "normalized") =
        ((o.bind (Json.get "normalized")).bind asStr).map String.toList := by
      intro o
      cases o <;> rfl
    have hnormalized := h.platform
    rw [pointer_platform p, pointer_platform q] at hnormalized
    rw [htext, htext, hnormalized]
  rw [gatherEvidence_parts p, gatherEvidence_parts q, frameEvidence_congr p q h]
  unfold partsEvidence
  simp only [htype, hplatform, h.classification, hcontext h.errorMessage,
    hsymbolication h.exceptionReason, hsymbolication h.assertion]

end Agreement

/-- Two valid results that agree on what is not volatile have one fingerprint. Of a source path
only its first normalized characters count. -/
theorem fingerprint_congr (unicode : Char → Bool) (sha256 : List UInt8 → List UInt8) (v w : Json)
    (hv : validateProcessingResult v none = .ok ()) (hw : validateProcessingResult w none = .ok ())
    (h : Agrees isUnderEngineSource v w) :
    fingerprint unicode sha256 v = fingerprint unicode sha256 w := by
  obtain ⟨p⟩ := parts_of_valid hv
  obtain ⟨q⟩ := parts_of_valid hw
  rw [fingerprint_of_valid hv, fingerprint_of_valid hw, gatherEvidence_congr p q h]

/-- A path lies under the engine's sources, at whatever length. -/
def liesUnderEngineSource (path : Text) : Bool :=
  let path := toAsciiLowercase (trim (replaceBackslashes path))
  "engine/source/".toList.isPrefixOf path || contains "/engine/source/".toList path

section Sample
variable (guid : String) (input : ProcessingInput) (previous : Option PreviousProcessing)

theorem context_built (field : String) :
    (built guid input previous).pointer ["crash_context", field] =
      input.context.toJson.get field := by
  rw [show ["crash_context", field] = ["crash_context"] ++ [field] from rfl, pointer_concat,
    pointer_context_built, Option.bind_some]

theorem symbolication_built (field : String) :
    (built guid input previous).pointer ["current", "symbolication", field] =
      SortedMap.get field input.symbolication.fields := by
  rw [show ["current", "symbolication", field] = ["current", "symbolication"] ++ [field] from rfl,
    pointer_concat, pointer_symbolication_built, Option.bind_some, SymbolicationResult.toJson,
    get_fields]

/-- Attempts at crashes with one context, symbolicated alike but for their threads. -/
theorem built_agrees {under : Text → Bool} {input' : ProcessingInput}
    (hcontext : input.context = input'.context)
    (hclassification : input.classification = input'.classification)
    (hsymbolication : ∀ field ∈ ["exception_reason", "assertion", "modules"],
      SortedMap.get field input.symbolication.fields =
        SortedMap.get field input'.symbolication.fields)
    (hframes : Option.Rel (List.Forall₂ (FrameAgrees under))
      (faultingFramesOf (built guid input previous))
      (faultingFramesOf (built guid input' previous))) :
    Agrees under (built guid input previous) (built guid input' previous) where
  crashType := by rw [textAt, textAt, context_built, context_built, hcontext]
  classification := by
    rw [get_classification_built, get_classification_built, hclassification]
  errorMessage := by rw [textAt, textAt, context_built, context_built, hcontext]
  platform := by
    rw [textAt, textAt, show ["crash_context", "platform", "normalized"] =
      ["crash_context", "platform"] ++ ["normalized"] from rfl, pointer_concat, pointer_concat,
      context_built, context_built, hcontext]
  exceptionReason := by
    rw [textAt, textAt, symbolication_built, symbolication_built, hsymbolication _ (by simp)]
  assertion := by
    rw [textAt, textAt, symbolication_built, symbolication_built, hsymbolication _ (by simp)]
  modules := by
    rw [modulesOf, modulesOf, symbolication_built, symbolication_built,
      hsymbolication _ (by simp)]
    exact fun _ => Iff.rfl
  frames := hframes

theorem frame_sample (a b : String) :
    ∀ field ∈ ["symbol_status", "module", "function", "inlines", "module_relative"],
      (sampleFrame a).toJson.get field = (sampleFrame b).toJson.get field := by
  have hget : ∀ c field, (sampleFrame c).toJson.get field = _ := fun c => get_fields _
  simp only [List.forall_mem_cons, hget]
  exact ⟨rfl, rfl, rfl, rfl, rfl, by rintro _ ⟨⟩⟩

theorem sampleFrame_agrees {under : Text → Bool} {a b : String}
    (h : under a.toList = under b.toList) :
    FrameAgrees under (sampleFrame a).toJson (sampleFrame b).toJson where
  resolved := by rw [isResolved, isResolved, frame_sample a b _ (by simp)]
  module := by rw [textOf, textOf, frame_sample a b _ (by simp)]
  function := by rw [textOf, textOf, frame_sample a b _ (by simp)]
  inlines := by
    rw [inlineFunctions, inlineFunctions, frameInlines, frameInlines, frame_sample a b _ (by simp)]
  relative := fun _ => by rw [textOf, textOf, frame_sample a b _ (by simp)]
  engine := by
    rw [sourcePaths_sample, sourcePaths_sample, List.any_cons, List.any_cons, h, List.any_nil]

theorem faultingFrames_tick (sourceFile : String) :
    faultingFramesOf (tickResult sourceFile) = some [(sampleFrame sourceFile).toJson] := by
  have hget : ∀ field, (tickThread sourceFile).toJson.get field = _ := get_fields _
  have hfaulting : isFaulting (tickThread sourceFile).toJson = true := by
    rw [isFaulting, hget]
    rfl
  have hthreads : SortedMap.get "threads" (sampleInput "Crash" ""
      (sampleSymbolication none [] [tickThread sourceFile])).symbolication.fields =
      some (.array [(tickThread sourceFile).toJson]) := rfl
  rw [faultingFramesOf, tickResult, sampleResult, symbolication_built, hthreads, Option.bind_some,
    asArray, Option.bind_some, List.find?_cons_of_pos hfaulting, Option.bind_some, hget]
  rfl

theorem context_sampleInput (crashType errorMessage : String) (s s' : SymbolicationResult) :
    (sampleInput crashType errorMessage s).context =
      (sampleInput crashType errorMessage s').context := by
  simp only [ProcessingInput.context, sampleInput]

/-- Two crashes at the same place in sources kept in different directories. -/
theorem tickResult_agrees {under : Text → Bool} {a b : String}
    (h : under a.toList = under b.toList) : Agrees under (tickResult a) (tickResult b) := by
  have hframes : Option.Rel (List.Forall₂ (FrameAgrees under)) (faultingFramesOf (tickResult a))
      (faultingFramesOf (tickResult b)) := by
    rw [faultingFrames_tick, faultingFrames_tick]
    exact .some (.cons (sampleFrame_agrees h) .nil)
  have hfields : ∀ field ∈ ["exception_reason", "assertion", "modules"],
      SortedMap.get field (sampleSymbolication none [] [tickThread a]).fields =
        SortedMap.get field (sampleSymbolication none [] [tickThread b]).fields := by
    have hreason : ∀ c, SortedMap.get "exception_reason"
        (sampleSymbolication none [] [tickThread c]).fields = some .null := fun _ => rfl
    have hassertion : ∀ c, SortedMap.get "assertion"
        (sampleSymbolication none [] [tickThread c]).fields = some .null := fun _ => rfl
    have hmodules : ∀ c, SortedMap.get "modules"
        (sampleSymbolication none [] [tickThread c]).fields = some (.array []) := fun _ => rfl
    simp only [List.forall_mem_cons, hreason, hassertion, hmodules, true_and]
    rintro _ ⟨⟩
  unfold tickResult sampleResult at hframes ⊢
  exact built_agrees _ _ _ (context_sampleInput _ _ _ _) rfl hfields hframes

end Sample

theorem fingerprint_congr_sample :
    fingerprint (fun _ => false) id (tickResult "D:/Arena.cpp") =
      fingerprint (fun _ => false) id (tickResult "/home/build/Arena.cpp") :=
  fingerprint_congr _ _ _ _ (valid_without_identity (tickResult_valid _ true))
    (valid_without_identity (tickResult_valid _ true)) (tickResult_agrees (by decide))

section DeepSource

theorem trim_of_ends {first last : Char} (middle : Text) (hfirst : isWhitespace first = false)
    (hlast : isWhitespace last = false) :
    trim (first :: middle ++ [last]) = first :: middle ++ [last] := by
  simp [trim, trimStart, trimEnd, hfirst, hlast]

/-- A source path whose engine directory comes after its first 512 characters. -/
def deepSourceFile : String :=
  String.ofList (List.replicate maxComponentChars 'a' ++ "/Engine/Source/Arena.cpp".toList)

theorem normalized_deepSourceFile :
    toAsciiLowercase (trim (replaceBackslashes deepSourceFile.toList)) =
      List.replicate maxComponentChars 'a' ++ "/engine/source/arena.cpp".toList := by
  have hchars : List.replicate maxComponentChars 'a' = 'a' :: List.replicate 511 'a' :=
    List.replicate_succ
  have hpath : replaceBackslashes deepSourceFile.toList =
      'a' :: (List.replicate 511 'a' ++ "/Engine/Source/Arena.cp".toList) ++ ['p'] := by
    rw [replaceBackslashes, deepSourceFile, String.toList_ofList, hchars, List.map_append,
      List.map_cons, List.map_replicate, List.cons_append, List.cons_append, List.append_assoc]
    rfl
  rw [hpath, trim_of_ends _ rfl rfl, toAsciiLowercase, hchars, List.map_append, List.map_cons,
    List.map_append, List.map_replicate, List.cons_append, List.cons_append, List.append_assoc]
  rfl

theorem isUnderEngineSource_deepSourceFile : isUnderEngineSource deepSourceFile.toList = false := by
  have hpath : normalizePath deepSourceFile.toList = List.replicate maxComponentChars 'a' := by
    rw [normalizePath, normalized_deepSourceFile, bounded, List.take_left' (by simp)]
  have hcontains : contains "/engine/source/".toList (List.replicate maxComponentChars 'a') =
      false := by
    by_contra h
    have hinfix := contains_iff.mp (by simpa using h)
    have hmem : '/' ∈ List.replicate maxComponentChars 'a' := hinfix.subset (by decide)
    exact absurd (List.eq_of_mem_replicate hmem) (by decide)
  rw [isUnderEngineSource, hpath, hcontains, maxComponentChars, List.replicate_succ]
  rfl

theorem liesUnderEngineSource_deepSourceFile :
    liesUnderEngineSource deepSourceFile.toList = true := by
  have hcontains : contains "/engine/source/".toList (List.replicate maxComponentChars 'a' ++
      "/engine/source/arena.cpp".toList) = true :=
    contains_iff.mpr ⟨List.replicate maxComponentChars 'a', "arena.cpp".toList, by simp⟩
  unfold liesUnderEngineSource
  simp only [normalized_deepSourceFile, hcontains, Bool.or_true]

end DeepSource

/-- Only the first 512 characters of a source path are searched. -/
theorem fingerprint_depends_on_path_length :
    ¬ ∀ (unicode : Char → Bool) (sha256 : List UInt8 → List UInt8) (v w : Json),
      validateProcessingResult v none = .ok () → validateProcessingResult w none = .ok () →
      Agrees liesUnderEngineSource v w →
      fingerprint unicode sha256 v = fingerprint unicode sha256 w := by
  intro h
  have hagrees : Agrees liesUnderEngineSource (tickResult deepSourceFile)
      (tickResult "Engine/Source/Arena.cpp") :=
    tickResult_agrees (liesUnderEngineSource_deepSourceFile.trans (by decide))
  have hengine : isUnderEngineSource "Engine/Source/Arena.cpp".toList = true := by decide
  have heq := h (fun _ => false) id _ _ (valid_without_identity (tickResult_valid _ true))
    (valid_without_identity (tickResult_valid _ true)) hagrees
  rw [fingerprint_tickResult, fingerprint_tickResult, isUnderEngineSource_deepSourceFile,
    hengine] at heq
  have houtcome := Except.ok.inj heq
  unfold Evidence.outcome at houtcome
  rw [if_neg (by decide), if_neg (by decide)] at houtcome
  have hquality := congrArg Fingerprint.groupingQuality (GroupingOutcome.grouped.inj houtcome)
  exact absurd hquality (by decide)

end FaultLane.GroupingVolatile

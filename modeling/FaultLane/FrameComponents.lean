import FaultLane.GroupingNames
import FaultLane.GroupingVolatile

set_option autoImplicit false

/-!
# What frame components identify

The component of a frame joins its module with its function names, or with the identifiers
of the module and the relative address, by plain separators. It identifies the frame exactly
when the text can be read in one way.
-/
namespace FaultLane.FrameComponents
open Fallible RustText SortedMap Json SortDedup GroupingText Grouping GroupingTemplate
  GroupingNames GroupingVolatile

/-- The ways to cut a text at a character. -/
def cutsAt (c : Char) : Text → List (Text × Text)
  | [] => []
  | d :: s => (if d = c then [([], s)] else []) ++ (cutsAt c s).map fun cut => (d :: cut.1, cut.2)

theorem mem_cutsAt {c : Char} {s : Text} {cut : Text × Text} :
    cut ∈ cutsAt c s ↔ s = cut.1 ++ c :: cut.2 := by
  obtain ⟨a, b⟩ := cut
  induction s generalizing a with
  | nil => simp [cutsAt]
  | cons d s ih =>
    rw [cutsAt, List.mem_append, List.mem_map]
    cases a with
    | nil =>
      split_ifs with hd
      · simp [hd, eq_comm]
      · simp [hd]
    | cons e a =>
      have htail : (∃ cut ∈ cutsAt c s, (d :: cut.1, cut.2) = (e :: a, b)) ↔
          d = e ∧ s = a ++ c :: b := by
        simp only [Prod.mk.injEq, List.cons.injEq, Prod.exists]
        constructor
        · rintro ⟨x, y, hmem, ⟨rfl, rfl⟩, rfl⟩
          exact ⟨rfl, (ih x).mp hmem⟩
        · rintro ⟨rfl, hs⟩
          exact ⟨a, b, (ih a).mpr hs, ⟨rfl, rfl⟩, rfl⟩
      rw [htail, List.cons_append, List.cons.injEq]
      split_ifs with hd <;> simp

section Joining

theorem joined_cons (c : Char) (part : Text) {rest : List Text} (h : rest ≠ []) :
    joined c (part :: rest) = part ++ c :: joined c rest := by
  cases rest with
  | nil => exact absurd rfl h
  | cons next rest => rfl

theorem joined_length {c : Char} {parts : List Text} {part : Text} (h : part ∈ parts) :
    part.length ≤ (joined c parts).length := by
  induction parts with
  | nil => cases h
  | cons first rest ih =>
    by_cases hrest : rest = []
    · subst hrest
      rw [List.mem_singleton.mp h]
      exact Nat.le_refl _
    · rw [joined_cons c first hrest, List.length_append, List.length_cons]
      rcases List.mem_cons.mp h with rfl | h
      · exact Nat.le_add_right _ _
      · have := ih h
        omega

/-- Function names joined are one function name. -/
theorem joined_clean {names : List Text} (hne : names ≠ [])
    (h : ∀ name ∈ names, name ≠ [] ∧ Clean name) :
    joined '>' names ≠ [] ∧ Clean (joined '>' names) := by
  induction names with
  | nil => exact absurd rfl hne
  | cons first rest ih =>
    obtain ⟨hfirst, hclean⟩ := h first List.mem_cons_self
    by_cases hrest : rest = []
    · subst hrest
      exact ⟨hfirst, hclean⟩
    · rw [joined_cons '>' first hrest]
      obtain ⟨-, htail⟩ := ih hrest fun name hname => h name (List.mem_cons_of_mem _ hname)
      exact ⟨by simp, hclean.join htail rfl rfl⟩

end Joining

/-! ## Resolved frames -/

/-- The names of the functions inlined at a frame, and then of its function. -/
def functionNames (frame : Json) : List Text :=
  ((((frameInlines frame).getD []).filterMap (textOf "function")).map normalizeFunction).filter
    (!·.isEmpty) ++ ((textOf "function" frame).map normalizeFunction).toList

/-- No other module and function names are joined to the same text. -/
def readsOneWay (module : Text) : List Text → Bool
  | [function] =>
    (cutsAt '>' function).all (fun cut => !(isFunctionName cut.1 && isFunctionName cut.2)) &&
      (cutsAt '|' (module ++ '|' :: function)).all fun cut =>
        !(isModuleName cut.1 && !cut.1.isEmpty && isFunctionName cut.2) || cut.1 == module
  | _ => false

/-- What the component of a resolved frame is made of. -/
structure ResolvedParts (module : Text) (names : List Text) (component : Text) : Prop where
  module_ne : module ≠ []
  isModule : isModuleName module = true
  names_ne : names ≠ []
  normalized : ∀ name ∈ names, name ≠ [] ∧ ∃ value, normalizeFunction value = name
  component_eq : component = module ++ '|' :: joined '>' names

theorem resolvedFrame_parts {frame : Json} {found : ResolvedFrame}
    (h : resolvedFrame frame = some found) :
    ResolvedParts found.module (functionNames frame) found.component := by
  have hstatus : isResolved frame = true := by
    by_contra hstatus
    simp [resolvedFrame, hstatus] at h
  rw [resolvedFrame, hstatus, Bool.not_true, if_neg Bool.false_ne_true] at h
  obtain ⟨module, hmodule, h⟩ := Option.bind_eq_some_iff.mp h
  obtain ⟨function, hfunction, h⟩ := Option.bind_eq_some_iff.mp h
  dsimp only at h
  split_ifs at h with hempty
  obtain ⟨inlines, hinlines, h⟩ := Option.bind_eq_some_iff.mp h
  cases h
  simp only [Bool.not_eq_true, Bool.or_eq_false_iff, List.isEmpty_eq_false_iff] at hempty
  have hnames : functionNames frame =
      ((inlines.filterMap (textOf "function")).map normalizeFunction).filter (!·.isEmpty) ++
        [normalizeFunction function] := by
    rw [functionNames, hinlines, hfunction]
    rfl
  refine ⟨hempty.1, isModuleName_normalizeModule module, ?_, ?_, ?_⟩
  · rw [hnames]
    simp
  · intro name hname
    rw [hnames, List.mem_append, List.mem_filter, List.mem_map] at hname
    rcases hname with ⟨⟨value, -, rfl⟩, hne⟩ | hname
    · exact ⟨by simpa using hne, value, rfl⟩
    · rw [List.mem_singleton.mp hname]
      exact ⟨hempty.2, function, rfl⟩
  · rw [hnames]
    rfl

theorem ResolvedParts.clean {module : Text} {names : List Text} {component : Text}
    (h : ResolvedParts module names component) (hfits : component.length ≤ maxComponentChars) :
    (joined '>' names).length < maxComponentChars ∧ ∀ name ∈ names, name ≠ [] ∧ Clean name := by
  have hlength : (joined '>' names).length < maxComponentChars := by
    rw [h.component_eq, List.length_append, List.length_cons] at hfits
    omega
  refine ⟨hlength, fun name hname => ?_⟩
  obtain ⟨hne, value, rfl⟩ := h.normalized name hname
  exact ⟨hne, clean_normalizeFunction (lt_of_le_of_lt (joined_length hname) hlength)⟩

/-- Where the text reads one way, equal components have equal parts. -/
theorem ResolvedParts.eq_of_readsOneWay {module module' : Text} {names names' : List Text}
    {component : Text} (h : ResolvedParts module names component)
    (h' : ResolvedParts module' names' component) (hfits : component.length ≤ maxComponentChars)
    (hone : readsOneWay module names = true) : module' = module ∧ names' = names := by
  obtain ⟨hlength', hnames'⟩ := h'.clean hfits
  match names, hone with
  | [function], hone =>
    simp only [readsOneWay, Bool.and_eq_true, List.all_eq_true] at hone
    obtain ⟨hangles, hbars⟩ := hone
    have htext : module ++ '|' :: function = module' ++ '|' :: joined '>' names' :=
      h.component_eq.symm.trans h'.component_eq
    obtain ⟨hne', hclean'⟩ := joined_clean h'.names_ne hnames'
    have hname' : isFunctionName (joined '>' names') = true :=
      (isFunctionName_iff hlength').mpr ⟨hne', hclean'⟩
    have hmodule : module' = module := by
      have hcut := hbars (module', joined '>' names') (mem_cutsAt.mpr htext)
      simpa [h'.isModule, h'.module_ne, hname'] using hcut
    subst hmodule
    refine ⟨rfl, ?_⟩
    have hfunction : function = joined '>' names' := by simpa using htext
    match names', h'.names_ne with
    | [name], _ => rw [hfunction]; rfl
    | first :: second :: rest, _ =>
      exfalso
      have hrest : second :: rest ≠ [] := List.cons_ne_nil _ _
      rw [joined_cons '>' first hrest] at hfunction hlength'
      rw [List.length_append, List.length_cons] at hlength'
      obtain ⟨hfirst, hcleanFirst⟩ := hnames' first List.mem_cons_self
      obtain ⟨htail, hcleanTail⟩ := joined_clean hrest fun name hname =>
        hnames' name (List.mem_cons_of_mem _ hname)
      have hcut := hangles (first, joined '>' (second :: rest)) (mem_cutsAt.mpr hfunction)
      rw [(isFunctionName_iff (by omega)).mpr ⟨hfirst, hcleanFirst⟩,
        (isFunctionName_iff (by omega)).mpr ⟨htail, hcleanTail⟩] at hcut
      cases hcut

/-- A frame with the given module and functions. -/
def resolvedJson (module : Text) (inlines : List Text) (function : Text) : Json :=
  .ofFields [("symbol_status", .string "resolved"), ("module", .string (String.ofList module)),
    ("function", .string (String.ofList function)),
    ("inlines", .array (inlines.map fun name =>
      .ofFields [("function", .string (String.ofList name))]))]

theorem resolvedFrame_json {module function : Text} {inlines : List Text}
    (hmodule : normalizeModule module ≠ [])
    (hnames : ∀ name ∈ inlines ++ [function], isFunctionName name = true) :
    ∃ found, resolvedFrame (resolvedJson module inlines function) = some found ∧
      found.module = normalizeModule module ∧
      functionNames (resolvedJson module inlines function) = inlines ++ [function] := by
  have hnormal : ∀ name ∈ inlines ++ [function], name ≠ [] ∧ normalizeFunction name = name := by
    intro name hname
    simpa [isFunctionName] using hnames name hname
  have hfunction := hnormal function (by simp)
  have hinlines : frameInlines (resolvedJson module inlines function) =
      some (inlines.map fun name => .ofFields [("function", .string (String.ofList name))]) := by
    simp [frameInlines, resolvedJson, Json.get_fields, asArray]
  have htext : textOf "function" (resolvedJson module inlines function) = some function := by
    simp [textOf, resolvedJson, Json.get_fields, asStr]
  have hlist : (inlines.map fun name => Json.ofFields
      [("function", .string (String.ofList name))]).filterMap (textOf "function") = inlines := by
    rw [List.filterMap_map]
    have hsome : (textOf "function" ∘ fun name : Text => Json.ofFields
        [("function", .string (String.ofList name))]) = some := by
      funext name
      simp [textOf, Json.get_fields, asStr]
    rw [hsome, List.filterMap_some]
  have hkept : (inlines.map normalizeFunction).filter (!·.isEmpty) = inlines := by
    have hmap : inlines.map normalizeFunction = inlines := by
      conv_rhs => rw [← List.map_id inlines]
      exact List.map_congr_left fun name hname => (hnormal name (by simp [hname])).2
    rw [hmap, List.filter_eq_self]
    intro name hname
    simpa using (hnormal name (by simp [hname])).1
  have hget : ∀ field, (resolvedJson module inlines function).get field = _ := get_fields _
  have hstatus : isResolved (resolvedJson module inlines function) = true := by
    rw [isResolved, hget]
    rfl
  have htextModule : textOf "module" (resolvedJson module inlines function) = some module := by
    rw [textOf, hget]
    exact congrArg some String.toList_ofList
  have hnames' : functionNames (resolvedJson module inlines function) = inlines ++ [function] := by
    rw [functionNames, hinlines, htext, Option.getD_some, hlist, hkept, Option.map_some,
      hfunction.2]
    rfl
  have hparts : ¬ ((normalizeModule module).isEmpty || (normalizeFunction function).isEmpty) =
      true := by
    rw [hfunction.2]
    simp [hmodule, hfunction.1]
  refine ⟨?found, ?_, ?_, hnames'⟩
  case found =>
    exact {
      category := frameCategory (normalizeModule module)
        (sourcePaths (resolvedJson module inlines function))
      component := joined '|' [normalizeModule module, joined '>' (inlines ++ [function])]
      module := normalizeModule module
      function := function }
  · rw [resolvedFrame, hstatus, Bool.not_true, if_neg Bool.false_ne_true, htextModule, htext,
      hinlines]
    simp only [Option.bind_eq_bind, Option.bind_some]
    rw [if_neg hparts, hlist, hkept, hfunction.2]
    rfl
  · rfl

/-- A resolved frame with the component, and whose module or function names are others. -/
def Confused (module : Text) (names : List Text) (component : Text) : Prop :=
  ∃ frame found, resolvedFrame frame = some found ∧ found.component = component ∧
    ¬ (found.module = module ∧ functionNames frame = names)

theorem confused_of_parts {module module' : Text} {names : List Text} (inlines : List Text)
    (function : Text) {component : Text} (hmodule : module' ≠ [])
    (hname : isModuleName module' = true)
    (hnames : ∀ name ∈ inlines ++ [function], isFunctionName name = true)
    (hcomponent : component = module' ++ '|' :: joined '>' (inlines ++ [function]))
    (hne : ¬ (module' = module ∧ inlines ++ [function] = names)) :
    Confused module names component := by
  obtain ⟨value, rfl⟩ := exists_module hname
  obtain ⟨found, hfound, hmodule', hnames'⟩ := resolvedFrame_json hmodule hnames
  refine ⟨_, found, hfound, ?_, ?_⟩
  · rw [(resolvedFrame_parts hfound).component_eq, hmodule', hnames', hcomponent]
  · rwa [hmodule', hnames']

/-- Where the text reads another way, there is a frame that is meant by it. -/
theorem ResolvedParts.confused {module : Text} {names : List Text} {component : Text}
    (h : ResolvedParts module names component) (hfits : component.length ≤ maxComponentChars)
    (hone : readsOneWay module names = false) : Confused module names component := by
  obtain ⟨hlength, hclean⟩ := h.clean hfits
  have hjoined : isFunctionName (joined '>' names) = true :=
    (isFunctionName_iff hlength).mpr (joined_clean h.names_ne hclean)
  match names, h.names_ne with
  | first :: second :: rest, _ =>
    refine confused_of_parts [] (joined '>' (first :: second :: rest)) h.module_ne h.isModule ?_
      h.component_eq fun heq => ?_
    · intro name hname
      rw [List.mem_singleton.mp hname]
      exact hjoined
    · have := congrArg List.length heq.2
      simp at this
  | [function], _ =>
    rw [readsOneWay, Bool.and_eq_false_iff, List.all_eq_false, List.all_eq_false] at hone
    rcases hone with ⟨cut, hcut, hnames⟩ | ⟨cut, hcut, hparts⟩
    · simp only [Bool.not_eq_true', Bool.not_eq_false, Bool.and_eq_true] at hnames
      have hfunction := mem_cutsAt.mp hcut
      refine confused_of_parts [cut.1] cut.2 h.module_ne h.isModule ?_ ?_ fun heq => ?_
      · intro name hname
        rcases List.mem_cons.mp hname with rfl | hname
        · exact hnames.1
        · rw [List.mem_singleton.mp hname]
          exact hnames.2
      · rw [h.component_eq]
        exact congrArg (fun text => module ++ '|' :: text) hfunction
      · have hlist := congrArg List.length heq.2
        simp at hlist
    · simp only [Bool.or_eq_true, Bool.not_eq_true', Bool.and_eq_false_iff, beq_iff_eq, not_or,
        Bool.not_eq_false, Bool.not_eq_false'] at hparts
      obtain ⟨⟨⟨hmodule, hne⟩, hname⟩, hother⟩ := hparts
      refine confused_of_parts [] cut.2 ?_ hmodule ?_ ?_ fun heq => hother heq.1
      · simpa using hne
      · intro name hmem
        rw [List.mem_singleton.mp hmem]
        exact hname
      · rw [h.component_eq]
        exact mem_cutsAt.mp hcut

/-- A resolved frame is identified by its component exactly when the text reads one way. -/
theorem resolved_identified_iff {frame : Json} {found : ResolvedFrame}
    (hfound : resolvedFrame frame = some found)
    (hfits : found.component.length ≤ maxComponentChars) :
    (∀ frame' found', resolvedFrame frame' = some found' →
      found'.component.length ≤ maxComponentChars → found'.component = found.component →
      found'.module = found.module ∧ functionNames frame' = functionNames frame) ↔
    readsOneWay found.module (functionNames frame) = true := by
  have hparts := resolvedFrame_parts hfound
  constructor
  · intro h
    by_contra hone
    obtain ⟨frame', found', hfound', hcomponent, hne⟩ :=
      hparts.confused hfits (Bool.not_eq_true _ ▸ hone)
    exact hne (h frame' found' hfound' (hcomponent ▸ hfits) hcomponent)
  · intro hone frame' found' hfound' _ hcomponent
    have hparts' := resolvedFrame_parts hfound'
    rw [hcomponent] at hparts'
    exact hparts.eq_of_readsOneWay hparts' hfits hone

/-! ## Unresolved frames -/

/-- The one identity of a module. -/
def soleIdentity (modules : ModuleIdentities) (module : Text) : Option ModuleIdentity :=
  match get module modules with
  | some [identity] => some identity
  | _ => none

def debugText (identity : ModuleIdentity) : Text := identity.debugId.getD []

def codeText (identity : ModuleIdentity) : Text := identity.codeId.getD []

def identityText (module : Text) (identity : ModuleIdentity) : Text :=
  module ++ '|' :: (debugText identity ++ '|' :: codeText identity)

/-- No other module and identifiers are joined to the same text. -/
def identityReadsOneWay (module : Text) (identity : ModuleIdentity) : Bool :=
  (cutsAt '|' (identityText module identity)).all fun cut =>
    (cutsAt '|' cut.2).all fun ids =>
      !(isModuleName cut.1 && isToken ids.1 && isToken ids.2 &&
          !(ids.1.isEmpty && ids.2.isEmpty)) ||
        cut.1 == module && ids.1 == debugText identity

/-- The identifiers are tokens, and one of them is there. -/
structure Identified (identity : ModuleIdentity) : Prop where
  known : ¬ (debugText identity = [] ∧ codeText identity = [])
  debugToken : ∀ text, identity.debugId = some text →
    text ≠ [] ∧ ∃ value, normalizeToken value = text
  codeToken : ∀ text, identity.codeId = some text →
    text ≠ [] ∧ ∃ value, normalizeToken value = text

/-- What the component of an unresolved frame is made of. -/
structure UnresolvedParts (module : Text) (identity : ModuleIdentity) (relative : Text)
    (component : Text) : Prop where
  isModule : isModuleName module = true
  identified : Identified identity
  relative_bars : '|' ∉ relative
  component_eq : component = identityText module identity ++ '|' :: relative

section Identities

theorem Identified.ext {identity identity' : ModuleIdentity} (h : Identified identity)
    (h' : Identified identity') (hdebug : debugText identity' = debugText identity)
    (hcode : codeText identity' = codeText identity) : identity' = identity := by
  have hopt : ∀ {o p : Option Text}, (∀ t, o = some t → t ≠ []) → (∀ t, p = some t → t ≠ []) →
      p.getD [] = o.getD [] → p = o := by
    intro o p ho hp heq
    cases o with
    | none =>
      cases p with
      | none => rfl
      | some t => exact absurd heq (hp t rfl)
    | some t =>
      cases p with
      | none => exact absurd heq.symm (ho t rfl)
      | some u => exact congrArg some heq
  have hdebugId := hopt (fun t ht => (h.debugToken t ht).1) (fun t ht => (h'.debugToken t ht).1)
    hdebug
  have hcodeId := hopt (fun t ht => (h.codeToken t ht).1) (fun t ht => (h'.codeToken t ht).1) hcode
  cases identity
  cases identity'
  cases hdebugId
  cases hcodeId
  rfl

theorem isToken_getD {o : Option Text} (h : ∀ text, o = some text → text ≠ [] ∧
    ∃ value, normalizeToken value = text) (hshort : (o.getD []).length < maxComponentChars) :
    isToken (o.getD []) = true := by
  cases o with
  | none => rfl
  | some text =>
    obtain ⟨-, value, rfl⟩ := h text rfl
    exact isToken_normalizeToken hshort

theorem mem_toDigits {n : Nat} {c : Char} (h : c ∈ Nat.toDigits 16 n) : c ≠ '|' := by
  have hdigit : ∀ d : Fin 16, Nat.digitChar d ≠ '|' := by decide
  induction n using Nat.strong_induction_on with
  | _ n ih =>
    rw [Nat.toDigits_eq_if (by decide)] at h
    split_ifs at h with hsmall
    · rw [List.mem_singleton.mp h]
      exact hdigit ⟨n, hsmall⟩
    · rcases List.mem_append.mp h with h | h
      · exact ih (n / 16) (by omega) h
      · rw [List.mem_singleton.mp h]
        exact hdigit ⟨n % 16, Nat.mod_lt n (by decide)⟩

theorem normalizeRelative_bars {value relative : Text}
    (h : normalizeRelative value = some relative) : '|' ∉ relative := by
  unfold normalizeRelative at h
  obtain ⟨digits, -, h⟩ := Option.bind_eq_some_iff.mp h
  obtain ⟨number, -, h⟩ := Option.bind_eq_some_iff.mp h
  cases h
  intro hmem
  rcases List.mem_append.mp hmem with hmem | hmem
  · exact absurd hmem (by decide)
  · exact mem_toDigits hmem rfl

/-- The last cut is where no other comes after it. -/
theorem cut_last {c : Char} {s s' t t' : Text} (ht : c ∉ t) (ht' : c ∉ t')
    (h : s ++ c :: t = s' ++ c :: t') : s = s' ∧ t = t' := by
  induction s generalizing s' with
  | nil =>
    cases s' with
    | nil => exact ⟨rfl, (List.cons.inj h).2⟩
    | cons d s' =>
      have htail := (List.cons.inj h).2
      exact absurd (htail ▸ List.mem_append_right s' List.mem_cons_self) ht
  | cons d s ih =>
    cases s' with
    | nil =>
      have htail := (List.cons.inj h).2
      exact absurd (htail ▸ List.mem_append_right s List.mem_cons_self) ht'
    | cons e s' =>
      obtain ⟨rfl, htail⟩ := List.cons.inj h
      obtain ⟨rfl, rfl⟩ := ih htail
      exact ⟨rfl, rfl⟩

theorem moduleIdentity_identified {module : Json}
    (h : ((moduleIdentity module).debugId.isNone && (moduleIdentity module).codeId.isNone) =
      false) : Identified (moduleIdentity module) := by
  have htoken : ∀ (field : String) (text : Text),
      ((textOf field module).map normalizeToken).filter (!·.isEmpty) = some text →
      text ≠ [] ∧ ∃ value, normalizeToken value = text := by
    intro field text htext
    obtain ⟨hmap, hne⟩ := Option.filter_eq_some_iff.mp htext
    obtain ⟨value, -, rfl⟩ := Option.map_eq_some_iff.mp hmap
    exact ⟨by simpa using hne, value, rfl⟩
  have hnone : ∀ (field : String) {o : Option Text},
      ((textOf field module).map normalizeToken).filter (!·.isEmpty) = o → o.getD [] = [] →
      o.isNone = true := by
    intro field o ho hnil
    cases o with
    | none => rfl
    | some text => exact absurd hnil (htoken field text ho).1
  refine ⟨fun hboth => ?_, fun text => htoken "debug_id" text, fun text => htoken "code_id" text⟩
  have hdebug : (moduleIdentity module).debugId.isNone = true := hnone "debug_id" rfl hboth.1
  have hcode : (moduleIdentity module).codeId.isNone = true := hnone "code_id" rfl hboth.2
  rw [hdebug, hcode] at h
  cases h

theorem soleIdentity_module {symbolication : JsonMap} {modules : ModuleIdentities} {name : Text}
    {identity : ModuleIdentity} (hmodules : moduleIdentities symbolication = .ok modules)
    (h : soleIdentity modules name = some identity) :
    ∃ module, moduleIdentity module = identity := by
  obtain ⟨list, -, hadded⟩ := bind_eq_ok.mp hmodules
  have hstart : ∀ name, get name ([] : ModuleIdentities) = entryOf [] name := fun _ => rfl
  have hentry := addModules_entry hstart hadded name
  unfold soleIdentity at h
  split at h
  · next hget =>
    cases h
    rw [hentry] at hget
    unfold entryOf at hget
    dsimp only at hget
    split_ifs at hget
    have hmem : identity ∈ sortDedup ModuleIdentity.key _ :=
      Option.some.inj hget ▸ List.mem_singleton.mpr rfl
    rw [mem_sortDedup, List.mem_map] at hmem
    obtain ⟨pair, hpair, rfl⟩ := hmem
    obtain ⟨module, -, hnamed⟩ := List.mem_filterMap.mp (List.mem_filter.mp hpair).1
    unfold namedIdentity at hnamed
    obtain ⟨text, -, rfl⟩ := Option.map_eq_some_iff.mp hnamed
    exact ⟨module, rfl⟩
  · cases h

end Identities

theorem unresolvedFrame_parts {symbolication : JsonMap} {modules : ModuleIdentities} {frame : Json}
    {found : UnresolvedFrame} (hmodules : moduleIdentities symbolication = .ok modules)
    (h : unresolvedFrame modules frame = some found) :
    ∃ identity text, soleIdentity modules found.module = some identity ∧
      UnresolvedParts found.module identity found.relative found.component ∧
      isResolved frame = false ∧ textOf "module_relative" frame = some text ∧
      normalizeRelative text = some found.relative := by
  have hstatus : isResolved frame = false := by
    by_contra hstatus
    rw [Bool.not_eq_false] at hstatus
    simp [unresolvedFrame, hstatus] at h
  rw [unresolvedFrame, hstatus, if_neg Bool.false_ne_true] at h
  obtain ⟨module, hmodule, h⟩ := Option.bind_eq_some_iff.mp h
  obtain ⟨text, htext, h⟩ := Option.bind_eq_some_iff.mp h
  obtain ⟨relative, hrelative, h⟩ := Option.bind_eq_some_iff.mp h
  obtain ⟨identities, hidentities, h⟩ := Option.bind_eq_some_iff.mp h
  match identities, hidentities, h with
  | [identity], hidentities, h =>
    dsimp only at h
    split_ifs at h with hknown
    cases h
    have hsole : soleIdentity modules (normalizeModule module) = some identity := by
      rw [soleIdentity, hidentities]
    obtain ⟨entry, rfl⟩ := soleIdentity_module hmodules hsole
    refine ⟨_, text, hsole, ?_, hstatus, htext, hrelative⟩
    exact {
      isModule := isModuleName_normalizeModule module
      identified := moduleIdentity_identified (Bool.not_eq_true _ ▸ hknown)
      relative_bars := normalizeRelative_bars hrelative
      component_eq := by simp [joined, identityText, debugText, codeText] }

/-- A frame in a module that is alone in its symbolication. -/
def unresolvedJson (module relative : Text) : Json :=
  .ofFields [("module", .string (String.ofList module)),
    ("module_relative", .string (String.ofList relative))]

def moduleJson (module debug code : Text) : Json :=
  .ofFields [("module", .string (String.ofList module)),
    ("debug_id", .string (String.ofList debug)), ("code_id", .string (String.ofList code))]

def identityJson (module debug code : Text) : JsonMap :=
  SortedMap.ofFields [("modules", .array [moduleJson module debug code])]

theorem moduleIdentity_json (module : Text) {debug code : Text} (hdebug : isToken debug = true)
    (hcode : isToken code = true) :
    debugText (moduleIdentity (moduleJson module debug code)) = debug ∧
      codeText (moduleIdentity (moduleJson module debug code)) = code ∧
      textOf "module" (moduleJson module debug code) = some module := by
  have hget : ∀ field, (moduleJson module debug code).get field = _ := get_fields _
  have htext : ∀ {text : Text}, isToken text = true →
      (((some text).map normalizeToken).filter (!·.isEmpty)).getD [] = text := by
    intro text htoken
    rw [Option.map_some, beq_iff_eq.mp htoken]
    cases text <;> rfl
  have hdebugOf : textOf "debug_id" (moduleJson module debug code) = some debug := by
    rw [textOf, hget]
    exact congrArg some String.toList_ofList
  have hcodeOf : textOf "code_id" (moduleJson module debug code) = some code := by
    rw [textOf, hget]
    exact congrArg some String.toList_ofList
  refine ⟨?_, ?_, ?_⟩
  · rw [debugText, moduleIdentity, hdebugOf]
    exact htext hdebug
  · rw [codeText, moduleIdentity, hcodeOf]
    exact htext hcode
  · rw [textOf, hget]
    exact congrArg some String.toList_ofList

theorem unresolvedFrame_json (module : Text) {text relative debug code : Text}
    (hdebug : isToken debug = true) (hcode : isToken code = true)
    (hknown : ¬ (debug = [] ∧ code = [])) (hrelative : normalizeRelative text = some relative) :
    ∃ modules found identity, moduleIdentities (identityJson module debug code) = .ok modules ∧
      unresolvedFrame modules (unresolvedJson module text) = some found ∧
      found.module = normalizeModule module ∧ found.relative = relative ∧
      soleIdentity modules found.module = some identity ∧
      debugText identity = debug ∧ codeText identity = code := by
  obtain ⟨hdebugText, hcodeText, hmodule⟩ := moduleIdentity_json module hdebug hcode
  have hadded : moduleIdentities (identityJson module debug code) =
      .ok (alter (normalizeModule module) (fun entry => sortDedup ModuleIdentity.key
        (entry.getD [] ++ [moduleIdentity (moduleJson module debug code)])) []) := by
    have harray : arrayAt "modules" (identityJson module debug code) =
        some [moduleJson module debug code] := by
      rw [arrayAt, identityJson, get_ofFields]
      rfl
    rw [moduleIdentities, harray]
    simp only [okOr_some, ok_bind, addModules, addModule, hmodule]
    rfl
  have hentry : get (normalizeModule module) (alter (normalizeModule module)
      (fun entry => sortDedup ModuleIdentity.key
        (entry.getD [] ++ [moduleIdentity (moduleJson module debug code)])) []) =
      some [moduleIdentity (moduleJson module debug code)] := by
    rw [get_alter, if_pos rfl]
    rfl
  have hget : ∀ field, (unresolvedJson module text).get field = _ := get_fields _
  have hstatus : isResolved (unresolvedJson module text) = false := by
    rw [isResolved, hget]
    rfl
  have htextModule : textOf "module" (unresolvedJson module text) = some module := by
    rw [textOf, hget]
    exact congrArg some String.toList_ofList
  have htextRelative : textOf "module_relative" (unresolvedJson module text) = some text := by
    rw [textOf, hget]
    exact congrArg some String.toList_ofList
  have hone : ¬ ((moduleIdentity (moduleJson module debug code)).debugId.isNone &&
      (moduleIdentity (moduleJson module debug code)).codeId.isNone) = true := by
    intro hboth
    rw [Bool.and_eq_true, Option.isNone_iff_eq_none, Option.isNone_iff_eq_none] at hboth
    rw [debugText, hboth.1] at hdebugText
    rw [codeText, hboth.2] at hcodeText
    exact hknown ⟨hdebugText.symm, hcodeText.symm⟩
  refine ⟨_, ?found, _, hadded, ?_, ?_, ?_, ?_, hdebugText, hcodeText⟩
  case found =>
    exact {
      category := frameCategory (normalizeModule module) []
      component := joined '|' [normalizeModule module,
        debugText (moduleIdentity (moduleJson module debug code)),
        codeText (moduleIdentity (moduleJson module debug code)), relative]
      module := normalizeModule module
      relative := relative }
  · rw [unresolvedFrame, hstatus, if_neg Bool.false_ne_true, htextModule, htextRelative]
    simp only [Option.bind_eq_bind, Option.bind_some, hrelative, hentry]
    rw [if_neg hone]
    rfl
  · rfl
  · rfl
  · rw [soleIdentity, hentry]

/-- Where the text reads one way, equal components have equal parts. -/
theorem UnresolvedParts.eq_of_readsOneWay {module module' relative relative' component : Text}
    {identity identity' : ModuleIdentity} (h : UnresolvedParts module identity relative component)
    (h' : UnresolvedParts module' identity' relative' component)
    (hfits : component.length ≤ maxComponentChars)
    (hone : identityReadsOneWay module identity = true) :
    module' = module ∧ identity' = identity ∧ relative' = relative := by
  obtain ⟨htext, hrelative⟩ := cut_last h'.relative_bars h.relative_bars
    (h'.component_eq.symm.trans h.component_eq)
  rw [h'.component_eq, identityText] at hfits
  simp only [List.length_append, List.length_cons] at hfits
  have hdebug : isToken (debugText identity') = true :=
    isToken_getD h'.identified.debugToken (by rw [debugText] at hfits; omega)
  have hcode : isToken (codeText identity') = true :=
    isToken_getD h'.identified.codeToken (by rw [codeText] at hfits; omega)
  simp only [identityReadsOneWay, List.all_eq_true] at hone
  have hcuts := hone (module', debugText identity' ++ '|' :: codeText identity')
    (mem_cutsAt.mpr htext.symm) (debugText identity', codeText identity') (mem_cutsAt.mpr rfl)
  have hknown : ((debugText identity').isEmpty && (codeText identity').isEmpty) = false := by
    rw [← Bool.not_eq_true, Bool.and_eq_true, List.isEmpty_iff, List.isEmpty_iff]
    exact h'.identified.known
  simp only [h'.isModule, hdebug, hcode, hknown, Bool.and_true, Bool.not_false, Bool.not_true,
    Bool.false_or, Bool.and_eq_true, beq_iff_eq] at hcuts
  obtain ⟨rfl, hdebugText⟩ := hcuts
  have hids : debugText identity' ++ '|' :: codeText identity' =
      debugText identity ++ '|' :: codeText identity := by simpa [identityText] using htext
  rw [hdebugText] at hids
  have hcodeText : codeText identity' = codeText identity := by simpa using hids
  exact ⟨rfl, h.identified.ext h'.identified hdebugText hcodeText, hrelative⟩

/-- An unresolved frame with the component, and whose parts are others. -/
theorem UnresolvedParts.confused {module relative text component : Text}
    {identity : ModuleIdentity} (h : UnresolvedParts module identity relative component)
    (htext : normalizeRelative text = some relative)
    (hone : identityReadsOneWay module identity = false) :
    ∃ symbolication modules frame found, moduleIdentities symbolication = .ok modules ∧
      unresolvedFrame modules frame = some found ∧ found.component = component ∧
      ¬ (found.module = module ∧ soleIdentity modules found.module = some identity) := by
  simp only [identityReadsOneWay, List.all_eq_false, Bool.not_eq_true, List.all_eq_false] at hone
  obtain ⟨cut, hcut, ids, hids, hparts⟩ := hone
  simp only [Bool.or_eq_false_iff, Bool.not_eq_false', Bool.and_eq_true, Bool.not_eq_true',
    Bool.and_eq_false_iff, beq_eq_false_iff_ne] at hparts
  obtain ⟨⟨⟨⟨hmodule, hdebug⟩, hcode⟩, hknown⟩, hother⟩ := hparts
  obtain ⟨value, hvalue⟩ := exists_module hmodule
  have hempty : ¬ (ids.1 = [] ∧ ids.2 = []) := by
    rintro ⟨hfirst, hsecond⟩
    rw [hfirst, hsecond] at hknown
    rcases hknown with hknown | hknown <;> cases hknown
  obtain ⟨modules, found, identity', hmodules, hfound, hname, hrelative, hsole, hdebugText,
    hcodeText⟩ := unresolvedFrame_json value hdebug hcode hempty htext
  refine ⟨_, modules, _, found, hmodules, hfound, ?_, ?_⟩
  · obtain ⟨identity'', -, hsole', hparts', -⟩ := unresolvedFrame_parts hmodules hfound
    rw [hsole] at hsole'
    cases hsole'
    rw [hparts'.component_eq, h.component_eq, identityText, hname, hrelative, hdebugText,
      hcodeText, hvalue, ← mem_cutsAt.mp hids, ← mem_cutsAt.mp hcut]
  · rintro ⟨hsame, hsame'⟩
    rw [hsole] at hsame'
    cases hsame'
    rw [hname, hvalue] at hsame
    exact hother.elim (· hsame) (· hdebugText.symm)

/-- An unresolved frame is identified by its component exactly when the text reads one way. -/
theorem unresolved_identified_iff {symbolication : JsonMap} {modules : ModuleIdentities}
    {frame : Json} {found : UnresolvedFrame}
    (hmodules : moduleIdentities symbolication = .ok modules)
    (hfound : unresolvedFrame modules frame = some found)
    (hfits : found.component.length ≤ maxComponentChars) :
    (∀ symbolication' modules' frame' found', moduleIdentities symbolication' = .ok modules' →
      unresolvedFrame modules' frame' = some found' →
      found'.component.length ≤ maxComponentChars → found'.component = found.component →
      found'.module = found.module ∧
        soleIdentity modules' found'.module = soleIdentity modules found.module ∧
        found'.relative = found.relative) ↔
    (soleIdentity modules found.module).any (identityReadsOneWay found.module) = true := by
  obtain ⟨identity, text, hsole, hparts, -, -, hrelative⟩ := unresolvedFrame_parts hmodules hfound
  rw [hsole, Option.any_some]
  constructor
  · intro h
    by_contra hone
    obtain ⟨symbolication', modules', frame', found', hmodules', hfound', hcomponent, hne⟩ :=
      hparts.confused hrelative (Bool.not_eq_true _ ▸ hone)
    obtain ⟨hmodule, hidentity, -⟩ :=
      h symbolication' modules' frame' found' hmodules' hfound' (hcomponent ▸ hfits) hcomponent
    exact hne ⟨hmodule, hidentity⟩
  · intro hone symbolication' modules' frame' found' hmodules' hfound' _ hcomponent
    obtain ⟨identity', -, hsole', hparts', -⟩ := unresolvedFrame_parts hmodules' hfound'
    rw [hcomponent] at hparts'
    obtain ⟨hmodule, hidentity, hsame⟩ := hparts.eq_of_readsOneWay hparts' hfits hone
    exact ⟨hmodule, by rw [hsole', hidentity], hsame⟩

/-- When a component identifies its frame, among all frames of its kind. -/
theorem component_identifies_iff (frame : Json) :
    (∀ found, resolvedFrame frame = some found →
      found.component.length ≤ maxComponentChars →
      ((∀ frame' found', resolvedFrame frame' = some found' →
        found'.component.length ≤ maxComponentChars → found'.component = found.component →
        found'.module = found.module ∧ functionNames frame' = functionNames frame) ↔
      readsOneWay found.module (functionNames frame) = true)) ∧
    ∀ symbolication modules found, moduleIdentities symbolication = .ok modules →
      unresolvedFrame modules frame = some found →
      found.component.length ≤ maxComponentChars →
      ((∀ symbolication' modules' frame' found', moduleIdentities symbolication' = .ok modules' →
        unresolvedFrame modules' frame' = some found' →
        found'.component.length ≤ maxComponentChars → found'.component = found.component →
        found'.module = found.module ∧
          soleIdentity modules' found'.module = soleIdentity modules found.module ∧
          found'.relative = found.relative) ↔
      (soleIdentity modules found.module).any (identityReadsOneWay found.module) = true) :=
  ⟨fun _ => resolved_identified_iff, fun _ _ _ => unresolved_identified_iff⟩

def tickFrame : Json := resolvedJson "Game.exe".toList [] "Arena::Tick()".toList

/-- The frame of a plain function and the frame of a module with one identifier. -/
theorem component_identifies_tick :
    (∃ found, resolvedFrame tickFrame = some found ∧
      ∀ frame' found', resolvedFrame frame' = some found' →
        found'.component.length ≤ maxComponentChars → found'.component = found.component →
        found'.module = found.module ∧ functionNames frame' = functionNames tickFrame) ∧
    ∃ modules found, moduleIdentities (identityJson "Game.exe".toList "ab-1".toList []) =
        .ok modules ∧
      unresolvedFrame modules (unresolvedJson "Game.exe".toList "0x10".toList) = some found ∧
      ∀ symbolication' modules' frame' found', moduleIdentities symbolication' = .ok modules' →
        unresolvedFrame modules' frame' = some found' →
        found'.component.length ≤ maxComponentChars → found'.component = found.component →
        found'.module = found.module ∧
          soleIdentity modules' found'.module = soleIdentity modules found.module ∧
          found'.relative = found.relative := by
  constructor
  · have hfound : resolvedFrame tickFrame = some ⟨.project, "game|Arena::Tick()".toList,
        "game".toList, "Arena::Tick()".toList⟩ := by decide
    exact ⟨_, hfound, ((component_identifies_iff tickFrame).1 _ hfound (by decide)).mpr
      (by decide)⟩
  · have hmodules : moduleIdentities (identityJson "Game.exe".toList "ab-1".toList []) =
        .ok [("game".toList, [⟨some "ab-1".toList, none⟩])] := by decide
    have hfound : unresolvedFrame [("game".toList, [⟨some "ab-1".toList, none⟩])]
        (unresolvedJson "Game.exe".toList "0x10".toList) = some ⟨.project,
          "game|ab-1||0x10".toList, "game".toList, "0x10".toList⟩ := by decide
    exact ⟨_, _, hmodules, hfound, ((component_identifies_iff _).2 _ _ _ hmodules hfound
      (by decide)).mpr (by decide)⟩

def inlinedFrame : Json :=
  resolvedJson "Game.exe".toList ["Arena::Step".toList] "Arena::Tick".toList

def namedFrame : Json := resolvedJson "Game.exe".toList [] "Arena::Step>Arena::Tick".toList

theorem component_confuses_inlined :
    ¬ ((∀ frame found frame' found', resolvedFrame frame = some found →
        resolvedFrame frame' = some found' → found.component.length ≤ maxComponentChars →
        found'.component.length ≤ maxComponentChars → found'.component = found.component →
        found'.module = found.module ∧ functionNames frame' = functionNames frame) ∧
      ∀ symbolication modules frame found symbolication' modules' frame' found',
        moduleIdentities symbolication = .ok modules →
        moduleIdentities symbolication' = .ok modules' →
        unresolvedFrame modules frame = some found →
        unresolvedFrame modules' frame' = some found' →
        found.component.length ≤ maxComponentChars →
        found'.component.length ≤ maxComponentChars → found'.component = found.component →
        found'.module = found.module ∧
          soleIdentity modules' found'.module = soleIdentity modules found.module ∧
          found'.relative = found.relative) := by
  rintro ⟨h, -⟩
  have hfound : resolvedFrame inlinedFrame = some ⟨.project,
      "game|Arena::Step>Arena::Tick".toList, "game".toList, "Arena::Tick".toList⟩ := by
    decide
  have hfound' : resolvedFrame namedFrame = some ⟨.project,
      "game|Arena::Step>Arena::Tick".toList, "game".toList, "Arena::Step>Arena::Tick".toList⟩ := by
    decide
  have hnames := (h _ _ _ _ hfound hfound' (by decide) (by decide) rfl).2
  exact absurd hnames (by decide)

end FaultLane.FrameComponents

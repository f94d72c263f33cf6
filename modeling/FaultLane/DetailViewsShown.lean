import FaultLane.DetailViews
import FaultLane.GroupingTotality
import FaultLane.PublishedText
import FaultLane.TextCuts
import Mathlib.Data.List.Forall2

set_option autoImplicit false

/-!
# What the event detail shows of a valid result

Every list is shown up to its limit and every text up to its bytes, and a flag is set exactly
when something that it covers is not shown whole or was stored cut.
-/
namespace FaultLane.DetailViews
open Fallible Json RustText ProcessingContract GroupingTotality TextCuts
open DashboardOverview (truncateText)

/-! ## The stored members -/

def storedText (key : String) (value : Json) : Option Text :=
  ((value.get key).bind asStr).map String.toList

def storedItems (key : String) (value : Json) : Option (List Json) := (value.get key).bind asArray

def storedTexts (key : String) (value : Json) : Option (List Text) :=
  (storedItems key value).bind fun items => items.mapM fun item => item.asStr.map String.toList

def storedNumber (key : String) (value : Json) : Option Nat := (value.get key).bind asU64

def storedFlag (key : String) (value : Json) : Option Bool := (value.get key).bind asBool

/-- An optional text is absent, or its longest start is shown. -/
abbrev TextShown (limit : Nat) : Option Text → Option Text → Prop := Option.Rel (Cut limit)

/-- A list is shown up to its limit. -/
def ListShown {α β : Type} (limit : Nat) (shows : α → β → Prop) (stored : Option (List α))
    (shown : List β) : Prop :=
  ∃ items, stored = some items ∧ List.Forall₂ shows (items.take limit) shown

/-- A list is not shown to its end. -/
def LeftOut {α β : Type} (stored : Option (List α)) (shown : List β) : Prop :=
  ∃ items ∈ stored, shown.length < items.length

/-! ## What is shown -/

structure InlineShown (value : Json) (v : InlineView) : Prop where
  function : TextShown maxTextBytes (storedText "function" value) (some v.function)
  sourceFile : TextShown maxTextBytes (storedText "source_file" value) v.sourceFile
  sourceLine : v.sourceLine = storedNumber "source_line" value
  truncated : v.truncated = true ↔ storedText "function" value ≠ some v.function ∨
    storedText "source_file" value ≠ v.sourceFile

structure FrameShown (value : Json) (v : FrameView) : Prop where
  instruction : TextShown 128 (storedText "instruction" value) (some v.instruction)
  module : TextShown maxTextBytes (storedText "module" value) v.module
  moduleRelative : TextShown maxTextBytes (storedText "module_relative" value) v.moduleRelative
  trust : TextShown 128 (storedText "trust" value) (some v.trust)
  symbolStatus : TextShown 128 (storedText "symbol_status" value) (some v.symbolStatus)
  function : TextShown maxTextBytes (storedText "function" value) v.function
  sourceFile : TextShown maxTextBytes (storedText "source_file" value) v.sourceFile
  sourceLine : v.sourceLine = storedNumber "source_line" value
  inlines : ListShown maxInlines InlineShown (storedItems "inlines" value) v.inlines
  inlinesTruncated : v.inlinesTruncated = true ↔ LeftOut (storedItems "inlines" value) v.inlines
  truncated : v.truncated = true ↔ storedText "instruction" value ≠ some v.instruction ∨
    storedText "module" value ≠ v.module ∨ storedText "module_relative" value ≠ v.moduleRelative ∨
    storedText "trust" value ≠ some v.trust ∨
    storedText "symbol_status" value ≠ some v.symbolStatus ∨
    storedText "function" value ≠ v.function ∨ storedText "source_file" value ≠ v.sourceFile ∨
    LeftOut (storedItems "inlines" value) v.inlines

structure ThreadShown (value : Json) (v : ThreadView) : Prop where
  threadId : some v.threadId = storedNumber "thread_id" value
  faulting : some v.faulting = storedFlag "faulting" value
  name : TextShown maxTextBytes (storedText "name" value) v.name
  nameTruncated : v.nameTruncated = true ↔ storedText "name" value ≠ v.name
  unwindStatus : TextShown 128 (storedText "unwind_status" value) (some v.unwindStatus)
  unwindStatusTruncated : v.unwindStatusTruncated = true ↔
    storedText "unwind_status" value ≠ some v.unwindStatus
  frames : ListShown maxFrames FrameShown (storedItems "frames" value) v.frames
  framesTruncated : v.framesTruncated = true ↔ storedFlag "frames_truncated" value = some true ∨
    LeftOut (storedItems "frames" value) v.frames

structure PropertyShown (property : Json) (v : PropertyView) : Prop where
  name : TextShown 256 (storedText "name" property) (some v.name)
  nameTruncated : v.nameTruncated = true ↔ storedText "name" property ≠ some v.name
  value : TextShown maxTextBytes (storedText "value" property) (some v.value)
  valueTruncated : v.valueTruncated = true ↔ storedText "value" property ≠ some v.value

structure SignalShown (value : Json) (v : SignalView) : Prop where
  kind : TextShown 128 (storedText "kind" value) (some v.kind)
  confidence : TextShown 128 (storedText "confidence" value) (some v.confidence)
  evidence : ListShown 32 (Cut 128) (storedTexts "evidence" value) v.evidence
  truncated : v.truncated = true ↔ storedText "kind" value ≠ some v.kind ∨
    storedText "confidence" value ≠ some v.confidence ∨
    storedTexts "evidence" value ≠ some v.evidence

structure ClassificationShown (value : Json) (v : ClassificationView) : Prop where
  crashType : TextShown 128 (storedText "crash_type" value) (some v.crashType)
  confidence : TextShown 128 (storedText "confidence" value) (some v.confidence)
  evidence : ListShown 32 (Cut 128) (storedTexts "evidence" value) v.evidence
  signals : ListShown 16 SignalShown (storedItems "signals" value) v.signals
  truncated : v.truncated = true ↔ storedText "crash_type" value ≠ some v.crashType ∨
    storedText "confidence" value ≠ some v.confidence ∨
    storedTexts "evidence" value ≠ some v.evidence ∨
    LeftOut (storedItems "signals" value) v.signals ∨ ∃ s ∈ v.signals, s.truncated = true

structure LogShown (projectId issueId eventId : Text) (value : Json) (v : LogView) : Prop where
  name : TextShown 256 (storedText "name" value) (some v.name)
  text : TextShown maxLogBytes ((value.get "tail").bind (storedText "text")) (some v.text)
  invalidUtf8 : some v.invalidUtf8 = (value.get "tail").bind (storedFlag "invalid_utf8")
  downloadPath : v.downloadPath = downloadPath projectId issueId eventId
  truncated : v.truncated = true ↔ storedText "name" value ≠ some v.name ∨
    (value.get "tail").bind (storedFlag "truncated") = some true ∨
    (value.get "tail").bind (storedText "text") ≠ some v.text

/-- A text of the crash context, and its flag. -/
structure ContextShown (key : String) (limit : Nat) (result : Json) (shown : Option Text)
    (truncated : Bool) : Prop where
  text : TextShown limit ((result.get "crash_context").bind (storedText key)) shown
  truncated : truncated = true ↔ (result.get "crash_context").bind (storedText key) ≠ shown

/-- A list of properties, and its flag. -/
structure PropertiesShown (key : String) (result : Json) (shown : List PropertyView)
    (truncated : Bool) : Prop where
  list : ListShown maxProperties PropertyShown
    ((result.get "crash_context").bind (storedItems key)) shown
  truncated : truncated = true ↔ LeftOut ((result.get "crash_context").bind (storedItems key)) shown

structure DetailShown (projectId issueId eventId : Text) (guid : Option String)
    (result : Json) (d : EventDetail) : Prop where
  crashGuid : TextShown maxTextBytes (guid.map String.toList) d.crashGuid
  crashGuidTruncated : d.crashGuidTruncated = true ↔ guid.map String.toList ≠ d.crashGuid
  classification : Option.Rel ClassificationShown (result.get "classification") d.classification
  errorMessage : ContextShown "error_message" maxTextBytes result d.errorMessage
    d.errorMessageTruncated
  buildVersion : ContextShown "build_version" maxTextBytes result d.buildVersion
    d.buildVersionTruncated
  buildConfiguration : ContextShown "build_configuration" maxTextBytes result d.buildConfiguration
    d.buildConfigurationTruncated
  userComment : ContextShown "user_comment" maxCommentBytes result d.userComment
    d.userCommentTruncated
  gameData : PropertiesShown "game_data" result d.gameData d.gameDataTruncated
  systemContext : PropertiesShown "system_metadata" result d.systemContext
    d.systemContextTruncated
  log : Option.Rel (LogShown projectId issueId eventId) (result.get "log") d.log
  threads : ListShown maxThreads ThreadShown
    ((result.pointer ["current", "symbolication", "threads"]).bind asArray) d.threads
  threadsTruncated : d.threadsTruncated = true ↔
    LeftOut ((result.pointer ["current", "symbolication", "threads"]).bind asArray) d.threads

/-! ## Parts of a view -/

section parts
variable {value : Json} {object : JsonMap} {key : String}

theorem get_of_object (h : value.asObject = some object) (key : String) :
    value.get key = SortedMap.get key object := by
  rw [Json.get, h]
  rfl

theorem storedText_of_object (h : value.asObject = some object) (key : String) :
    storedText key value = textAt key object := by
  rw [storedText, get_of_object h]
  rfl

theorem storedItems_of_object (h : value.asObject = some object) (key : String) :
    storedItems key value = arrayAt key object := by
  rw [storedItems, get_of_object h]
  rfl

theorem textAt_of_some {s : String} (h : strAt key object = some s) :
    textAt key object = some s.toList := by
  rw [textAt, h]
  rfl

theorem textShown (n : Nat) (text : Text) :
    TextShown n (some text) (some (truncateText text n).1) :=
  .some (cut_truncateText text n)

theorem textFlag (n : Nat) (text : Text) :
    (truncateText text n).2 = true ↔ some text ≠ some (truncateText text n).1 := by
  rw [truncateText_flag, ne_eq, ne_eq, Option.some.injEq]

theorem optionalShown (value : Option Text) (n : Nat) :
    TextShown n value (optionalBounded value n).1 := by
  cases value with
  | none => exact .none
  | some text => exact textShown n text

theorem optionalFlag (value : Option Text) (n : Nat) :
    (optionalBounded value n).2 = true ↔ value ≠ (optionalBounded value n).1 := by
  cases value with
  | none => exact ⟨nofun, fun h => absurd rfl h⟩
  | some text => exact textFlag n text

/-- A list of which each item has a view is shown. -/
theorem mapM_shown {α β : Type} {m : Type → Type} [Monad m] [LawfulMonad m] {f : α → m β}
    {shows : α → β → Prop} {items : List α} (h : ∀ a ∈ items, ∃ b, f a = pure b ∧ shows a b) :
    ∃ views, items.mapM f = pure views ∧ List.Forall₂ shows items views := by
  induction items with
  | nil => exact ⟨[], List.mapM_nil, .nil⟩
  | cons a rest ih =>
    obtain ⟨b, hb, hshows⟩ := h a List.mem_cons_self
    obtain ⟨views, hviews, hall⟩ := ih fun c hc => h c (List.mem_cons_of_mem a hc)
    refine ⟨b :: views, ?_, .cons hshows hall⟩
    rw [List.mapM_cons, hb, pure_bind, hviews, pure_bind]

theorem leftOut_iff {α β : Type} {shows : α → β → Prop} {items : List α} {views : List β} {n : Nat}
    (h : List.Forall₂ shows (items.take n) views) :
    LeftOut (some items) views ↔ n < items.length := by
  have hlength := h.length_eq
  rw [List.length_take] at hlength
  constructor
  · rintro ⟨_, ⟨⟩, hlt⟩
    omega
  · intro hlt
    exact ⟨items, rfl, by omega⟩

end parts

/-! ## Threads -/

section threads
variable {value : Json}

theorem inlineView_shown (h : validateInline value = .ok ()) :
    ∃ v, inlineView value = .ok v ∧ InlineShown value v := by
  obtain ⟨object, hobject, h⟩ := bind_eq_ok.mp h
  have hobject := okOr_eq_ok.mp hobject
  have hfields := refuse_eq_ok.mp h
  obtain ⟨function, hfunction⟩ :=
    Option.ne_none_iff_exists'.mp fun hnone : strAt "function" object = none => by
      simp [hnone] at hfields
  have hstored : storedText "function" value = some function.toList :=
    (storedText_of_object hobject _).trans (textAt_of_some hfunction)
  refine ⟨⟨(truncateText function.toList maxTextBytes).1,
    (optionalBounded (textAt "source_file" object) maxTextBytes).1, u64At "source_line" object,
    (truncateText function.toList maxTextBytes).2 ||
      (optionalBounded (textAt "source_file" object) maxTextBytes).2⟩, ?_, ?_, ?_, ?_, ?_⟩
  · simp only [inlineView, available, hobject, okOr_some, ok_bind, textAt_of_some hfunction]
  · rw [hstored]
    exact textShown _ _
  · rw [storedText_of_object hobject]
    exact optionalShown _ _
  · rw [storedNumber, get_of_object hobject]
    rfl
  · rw [hstored, storedText_of_object hobject, Bool.or_eq_true]
    exact or_congr (textFlag _ _) (optionalFlag _ _)

/-- The members that every frame of a valid result has. -/
theorem frame_members (h : validateFrame value = .ok ()) :
    ∃ object instruction trust status inlines, value.asObject = some object ∧
      strAt "instruction" object = some instruction ∧ strAt "trust" object = some trust ∧
      strAt "symbol_status" object = some status ∧ arrayAt "inlines" object = some inlines ∧
      ∀ i ∈ inlines, validateInline i = .ok () := by
  obtain ⟨object, hobject, h⟩ := bind_eq_ok.mp h
  obtain ⟨_, hfields, h⟩ := bind_eq_ok.mp h
  obtain ⟨inlines, hinlines, h⟩ := bind_eq_ok.mp h
  have hfields := refuse_eq_ok.mp hfields
  obtain ⟨instruction, hinstruction⟩ :=
    Option.ne_none_iff_exists'.mp fun hnone : strAt "instruction" object = none => by
      simp [hnone] at hfields
  obtain ⟨trust, htrust⟩ :=
    Option.ne_none_iff_exists'.mp fun hnone : strAt "trust" object = none => by
      simp [hnone, isNoneOr] at hfields
  obtain ⟨status, hstatus⟩ :=
    Option.ne_none_iff_exists'.mp fun hnone : strAt "symbol_status" object = none => by
      simp [hnone, isSomeAnd] at hfields
  exact ⟨object, instruction, trust, status, inlines, okOr_eq_ok.mp hobject, hinstruction, htrust,
    hstatus, okOr_eq_ok.mp hinlines, forEach_eq_ok.mp h⟩

theorem frameView_shown (h : validateFrame value = .ok ()) :
    ∃ v, frameView value = .ok v ∧ FrameShown value v := by
  obtain ⟨object, instruction, trust, status, inlines, hobject, hinstruction, htrust, hstatus,
    hinlines, hvalid⟩ := frame_members h
  obtain ⟨views, hviews, hall⟩ := mapM_shown (f := inlineView) fun i hi =>
    inlineView_shown (hvalid i (List.mem_of_mem_take (i := maxInlines) hi))
  have hviews : (inlines.take maxInlines).mapM inlineView = .ok views := hviews
  have hstored := storedText_of_object hobject
  have hitems : storedItems "inlines" value = some inlines :=
    (storedItems_of_object hobject _).trans hinlines
  have hrest : (decide (maxInlines < inlines.length)) = true ↔ LeftOut (some inlines) views :=
    decide_eq_true_iff.trans (leftOut_iff hall).symm
  refine ⟨⟨(truncateText instruction.toList 128).1,
    (optionalBounded (textAt "module" object) maxTextBytes).1,
    (optionalBounded (textAt "module_relative" object) maxTextBytes).1,
    (truncateText trust.toList 128).1, (truncateText status.toList 128).1,
    (optionalBounded (textAt "function" object) maxTextBytes).1,
    (optionalBounded (textAt "source_file" object) maxTextBytes).1,
    u64At "source_line" object, views, maxInlines < inlines.length,
    (truncateText instruction.toList 128).2 ||
      (optionalBounded (textAt "module" object) maxTextBytes).2 ||
      (optionalBounded (textAt "module_relative" object) maxTextBytes).2 ||
      (truncateText trust.toList 128).2 || (truncateText status.toList 128).2 ||
      (optionalBounded (textAt "function" object) maxTextBytes).2 ||
      (optionalBounded (textAt "source_file" object) maxTextBytes).2 ||
      maxInlines < inlines.length⟩,
    ?_, ?_, ?_, ?_, ?_, ?_, ?_, ?_, ?_, ?_, ?_, ?_⟩
  · simp only [frameView, available, hobject, hinlines, okOr_some, ok_bind, hviews,
      textAt_of_some hinstruction, textAt_of_some htrust, textAt_of_some hstatus]
  · rw [hstored, textAt_of_some hinstruction]
    exact textShown _ _
  · rw [hstored]
    exact optionalShown _ _
  · rw [hstored]
    exact optionalShown _ _
  · rw [hstored, textAt_of_some htrust]
    exact textShown _ _
  · rw [hstored, textAt_of_some hstatus]
    exact textShown _ _
  · rw [hstored]
    exact optionalShown _ _
  · rw [hstored]
    exact optionalShown _ _
  · rw [storedNumber, get_of_object hobject]
    rfl
  · exact ⟨inlines, hitems, hall⟩
  · rw [hitems]
    exact hrest
  · rw [hitems]
    simp only [hstored, textAt_of_some hinstruction, textAt_of_some htrust, textAt_of_some hstatus,
      Bool.or_eq_true, or_assoc, textFlag, optionalFlag, hrest]

theorem thread_members (h : validateThread value = .ok ()) :
    ∃ object threadId faulting status framesTruncated frames, value.asObject = some object ∧
      u64At "thread_id" object = some threadId ∧ boolAt "faulting" object = some faulting ∧
      strAt "unwind_status" object = some status ∧
      boolAt "frames_truncated" object = some framesTruncated ∧
      arrayAt "frames" object = some frames ∧ ∀ f ∈ frames, validateFrame f = .ok () := by
  obtain ⟨object, hobject, h⟩ := bind_eq_ok.mp h
  obtain ⟨_, hfields, h⟩ := bind_eq_ok.mp h
  obtain ⟨frames, hframes, h⟩ := bind_eq_ok.mp h
  have hfields := refuse_eq_ok.mp hfields
  obtain ⟨threadId, hthreadId⟩ :=
    Option.ne_none_iff_exists'.mp fun hnone : u64At "thread_id" object = none => by
      simp [hnone] at hfields
  obtain ⟨faulting, hfaulting⟩ :=
    Option.ne_none_iff_exists'.mp fun hnone : boolAt "faulting" object = none => by
      simp [hnone] at hfields
  obtain ⟨status, hstatus⟩ :=
    Option.ne_none_iff_exists'.mp fun hnone : strAt "unwind_status" object = none => by
      simp [hnone, isSomeAnd] at hfields
  obtain ⟨framesTruncated, htruncated⟩ :=
    Option.ne_none_iff_exists'.mp fun hnone : boolAt "frames_truncated" object = none => by
      simp [hnone] at hfields
  exact ⟨object, threadId, faulting, status, framesTruncated, frames, okOr_eq_ok.mp hobject,
    hthreadId, hfaulting, hstatus, htruncated, okOr_eq_ok.mp hframes, forEach_eq_ok.mp h⟩

theorem threadView_shown (h : validateThread value = .ok ()) :
    ∃ v, threadView value = .ok v ∧ ThreadShown value v := by
  obtain ⟨object, threadId, faulting, status, framesTruncated, frames, hobject, hthreadId,
    hfaulting, hstatus, htruncated, hframes, hvalid⟩ := thread_members h
  obtain ⟨views, hviews, hall⟩ := mapM_shown (f := frameView) fun f hf =>
    frameView_shown (hvalid f (List.mem_of_mem_take (i := maxFrames) hf))
  have hviews : (frames.take maxFrames).mapM frameView = .ok views := hviews
  have hstored := storedText_of_object hobject
  have hitems : storedItems "frames" value = some frames :=
    (storedItems_of_object hobject _).trans hframes
  have hrest : (decide (maxFrames < frames.length)) = true ↔ LeftOut (some frames) views :=
    decide_eq_true_iff.trans (leftOut_iff hall).symm
  have hflag : storedFlag "frames_truncated" value = some framesTruncated := by
    rw [storedFlag, get_of_object hobject]
    exact htruncated
  refine ⟨⟨threadId, faulting, (optionalBounded (textAt "name" object) maxTextBytes).1,
    (optionalBounded (textAt "name" object) maxTextBytes).2, (truncateText status.toList 128).1,
    (truncateText status.toList 128).2, framesTruncated || maxFrames < frames.length, views⟩,
    ?_, ?_, ?_, ?_, ?_, ?_, ?_, ?_, ?_⟩
  · simp only [threadView, available, hobject, hframes, okOr_some, ok_bind, hviews, hthreadId,
      hfaulting, htruncated, textAt_of_some hstatus]
  · rw [storedNumber, get_of_object hobject]
    exact hthreadId.symm
  · rw [storedFlag, get_of_object hobject]
    exact hfaulting.symm
  · rw [hstored]
    exact optionalShown _ _
  · rw [hstored]
    exact optionalFlag _ _
  · rw [hstored, textAt_of_some hstatus]
    exact textShown _ _
  · rw [hstored, textAt_of_some hstatus]
    exact textFlag _ _
  · exact ⟨frames, hitems, hall⟩
  · rw [hitems, hflag, Bool.or_eq_true, Option.some.injEq]
    exact or_congr_right hrest

theorem threadViews_shown {stored : Option Json} {items : List Json}
    (hitems : stored.bind asArray = some items) (h : ∀ t ∈ items, validateThread t = .ok ()) :
    ∃ views truncated, threadViews stored = .ok (views, truncated) ∧
      ListShown maxThreads ThreadShown (stored.bind asArray) views ∧
      (truncated = true ↔ LeftOut (stored.bind asArray) views) := by
  obtain ⟨views, hviews, hall⟩ := mapM_shown (f := threadView) fun t ht =>
    threadView_shown (h t (List.mem_of_mem_take (i := maxThreads) ht))
  have hviews : (items.take maxThreads).mapM threadView = .ok views := hviews
  refine ⟨views, maxThreads < items.length, ?_, ⟨items, hitems, hall⟩, ?_⟩
  · simp only [threadViews, available, hitems, okOr_some, ok_bind, hviews]
  · rw [hitems]
    exact decide_eq_true_iff.trans (leftOut_iff hall).symm

end threads

/-! ## Properties -/

section properties
variable {value : Json}

theorem isNoneOr_isString (key : String) (object : JsonMap) :
    isNoneOr (SortedMap.get key object) (fun v => !v.isString) = (strAt key object).isNone := by
  rw [strAt]
  cases SortedMap.get key object with
  | none => rfl
  | some v => cases v <;> rfl

theorem property_members (h : validateProperty value = .ok ()) :
    ∃ object name text, value.asObject = some object ∧ strAt "name" object = some name ∧
      strAt "value" object = some text := by
  obtain ⟨object, hobject, h⟩ := bind_eq_ok.mp h
  have hfields := refuse_eq_ok.mp h
  obtain ⟨name, hname⟩ :=
    Option.ne_none_iff_exists'.mp fun hnone : strAt "name" object = none => by
      simp [isNoneOr_isString, hnone] at hfields
  obtain ⟨text, htext⟩ :=
    Option.ne_none_iff_exists'.mp fun hnone : strAt "value" object = none => by
      simp [isNoneOr_isString, hnone] at hfields
  exact ⟨object, name, text, okOr_eq_ok.mp hobject, hname, htext⟩

theorem propertyView_shown (h : validateProperty value = .ok ()) :
    ∃ v, propertyView value = .ok v ∧ PropertyShown value v := by
  obtain ⟨object, name, text, hobject, hname, htext⟩ := property_members h
  have hstored := storedText_of_object hobject
  refine ⟨⟨(truncateText name.toList 256).1, (truncateText name.toList 256).2,
    (truncateText text.toList maxTextBytes).1, (truncateText text.toList maxTextBytes).2⟩,
    ?_, ?_, ?_, ?_, ?_⟩
  · simp only [propertyView, available, hobject, okOr_some, ok_bind, textAt_of_some hname,
      textAt_of_some htext]
  · rw [hstored, textAt_of_some hname]
    exact textShown _ _
  · rw [hstored, textAt_of_some hname]
    exact textFlag _ _
  · rw [hstored, textAt_of_some htext]
    exact textShown _ _
  · rw [hstored, textAt_of_some htext]
    exact textFlag _ _

theorem propertyViews_shown {object : JsonMap} {key : String}
    (h : validateArray object key validateProperty = .ok ()) :
    ∃ views truncated, propertyViews (SortedMap.get key object) = .ok (views, truncated) ∧
      ListShown maxProperties PropertyShown (arrayAt key object) views ∧
      (truncated = true ↔ LeftOut (arrayAt key object) views) := by
  obtain ⟨items, hitems, h⟩ := bind_eq_ok.mp h
  have hitems := okOr_eq_ok.mp hitems
  have hvalid := forEach_eq_ok.mp h
  obtain ⟨views, hviews, hall⟩ := mapM_shown (f := propertyView) fun p hp =>
    propertyView_shown (hvalid p (List.mem_of_mem_take (i := maxProperties) hp))
  have hviews : (items.take maxProperties).mapM propertyView = .ok views := hviews
  refine ⟨views, maxProperties < items.length, ?_, ⟨items, hitems, hall⟩, ?_⟩
  · have hbind : (SortedMap.get key object).bind asArray = some items := hitems
    simp only [propertyViews, available, hbind, okOr_some, ok_bind, hviews]
  · rw [hitems]
    exact decide_eq_true_iff.trans (leftOut_iff hall).symm

end properties

/-! ## Log -/

section log
variable {value : Json} (projectId issueId eventId : Text)

theorem logView_shown (h : validateLog value = .ok ()) :
    ∃ v, logView projectId issueId eventId value = .ok v ∧
      LogShown projectId issueId eventId value v := by
  obtain ⟨object, hobject, h⟩ := bind_eq_ok.mp h
  obtain ⟨_, hfields, h⟩ := bind_eq_ok.mp h
  obtain ⟨tail, htail, h⟩ := bind_eq_ok.mp h
  have hobject := okOr_eq_ok.mp hobject
  have htail := okOr_eq_ok.mp htail
  have hfields := refuse_eq_ok.mp hfields
  have htailFields := refuse_eq_ok.mp h
  obtain ⟨name, hname⟩ :=
    Option.ne_none_iff_exists'.mp fun hnone : strAt "name" object = none => by
      simp [hnone] at hfields
  obtain ⟨text, htext⟩ :=
    Option.ne_none_iff_exists'.mp fun hnone : strAt "text" tail = none => by
      simp [hnone] at htailFields
  obtain ⟨truncated, htruncated⟩ :=
    Option.ne_none_iff_exists'.mp fun hnone : boolAt "truncated" tail = none => by
      simp [hnone] at htailFields
  obtain ⟨invalid, hinvalid⟩ :=
    Option.ne_none_iff_exists'.mp fun hnone : boolAt "invalid_utf8" tail = none => by
      simp [hnone] at htailFields
  obtain ⟨found, hfound, htailObject⟩ := Option.bind_eq_some_iff.mp htail
  have hget : value.get "tail" = some found := (get_of_object hobject _).trans hfound
  have hstored : storedText "name" value = some name.toList :=
    (storedText_of_object hobject _).trans (textAt_of_some hname)
  have htailText : storedText "text" found = some text.toList :=
    (storedText_of_object htailObject _).trans (textAt_of_some htext)
  have hflag : ∀ key, storedFlag key found = boolAt key tail := fun key => by
    rw [storedFlag, get_of_object htailObject]
    rfl
  refine ⟨⟨(truncateText name.toList 256).1, (truncateText text.toList maxLogBytes).1,
    (truncateText name.toList 256).2 || truncated || (truncateText text.toList maxLogBytes).2,
    invalid, downloadPath projectId issueId eventId⟩, ?_, ?_, ?_, ?_, rfl, ?_⟩
  · simp only [logView, available, hobject, htail, okOr_some, ok_bind, textAt_of_some hname,
      textAt_of_some htext, htruncated, hinvalid]
  · rw [hstored]
    exact textShown _ _
  · rw [hget, Option.bind_some, htailText]
    exact textShown _ _
  · rw [hget, Option.bind_some, hflag]
    exact hinvalid.symm
  · rw [hget, Option.bind_some, Option.bind_some, hflag, htruncated, hstored, htailText]
    simp only [Bool.or_eq_true, or_assoc, textFlag, Option.some.injEq]

theorem projectLog_shown {result : Json} {object : JsonMap}
    (hobject : result.asObject = some object)
    (h : validateOptional "log" validateLog object = .ok ()) :
    ∃ v, projectLog projectId issueId eventId result = .ok v ∧
      Option.Rel (LogShown projectId issueId eventId) (result.get "log") v := by
  have hget := get_of_object hobject "log"
  unfold validateOptional at h
  unfold projectLog
  rw [hget]
  cases hlog : SortedMap.get "log" object with
  | none => exact ⟨none, rfl, .none⟩
  | some log =>
    rw [hlog] at h
    obtain ⟨v, hv, hshown⟩ := logView_shown projectId issueId eventId h
    have hnull : ¬ log.isNull = true := fun hnull => by
      cases log with
      | null => cases hv
      | _ => cases hnull
    exact ⟨some v, by simp only [if_neg hnull, hv]; rfl, .some hshown⟩

end log

/-! ## Classification -/

section classification
variable {value : Json} {object : JsonMap}

theorem texts_of_strings {items : List Json} (h : items.all Json.isString = true) :
    ∃ texts : List String, items = texts.map Json.string := by
  induction items with
  | nil => exact ⟨[], rfl⟩
  | cons item rest ih =>
    rw [List.all_cons, Bool.and_eq_true] at h
    obtain ⟨texts, rfl⟩ := ih h.2
    cases item with
    | string s => exact ⟨s :: texts, rfl⟩
    | _ => cases h.1

theorem mapM_strings {β : Type} (f : Text → β) (texts : List String) :
    (texts.map Json.string).mapM (fun item => item.asStr.map fun s => f s.toList) =
      some ((texts.map String.toList).map f) := by
  induction texts with
  | nil => rfl
  | cons s rest ih =>
    rw [List.map_cons, List.mapM_cons, ih]
    rfl

/-- A list of texts is shown whole exactly when it is not too long and no text of it is. -/
theorem textsFlag (texts : List Text) (count n : Nat) :
    (decide (count < texts.length) ||
        ((texts.take count).map (truncateText · n)).any Prod.snd) = true ↔
      texts ≠ (texts.take count).map fun text => (truncateText text n).1 := by
  have hwhole : ∀ text : Text, (truncateText text n).2 = false ↔
      (truncateText text n).1 = text := fun text => by
    rw [← Bool.not_eq_true, truncateText_flag, not_not, eq_comm]
  rw [← not_iff_not, Bool.not_eq_true, Bool.or_eq_false_iff, decide_eq_false_iff_not, not_lt,
    not_not, List.any_map, List.any_eq_false]
  constructor
  · rintro ⟨hlength, hall⟩
    rw [List.take_of_length_le hlength] at hall ⊢
    refine (List.map_id texts).symm.trans (List.map_congr_left fun text htext => ?_)
    exact ((hwhole text).mp (by simpa using hall text htext)).symm
  · intro heq
    have hlength := congrArg List.length heq
    rw [List.length_map, List.length_take] at hlength
    have hle : texts.length ≤ count := by omega
    rw [List.take_of_length_le hle] at heq ⊢
    refine ⟨hle, fun text htext => ?_⟩
    have hmap : texts.map (fun text => (truncateText text n).1) = texts.map id :=
      heq.symm.trans (List.map_id texts).symm
    simpa using (hwhole text).mpr (List.map_inj_left.mp hmap text htext)

theorem evidence_shown (hobject : value.asObject = some object)
    (h : isSomeAnd (SortedMap.get "evidence" object) stringArray = true) :
    ∃ found texts flag, SortedMap.get "evidence" object = some found ∧
      boundedStringValues found 32 128 = some (texts, flag) ∧
      ListShown 32 (Cut 128) (storedTexts "evidence" value) texts ∧
      (flag = true ↔ storedTexts "evidence" value ≠ some texts) := by
  obtain ⟨found, hfound, hstrings⟩ := (Option.any_eq_true ..).mp h
  obtain ⟨items, hitems, hall⟩ := (Option.any_eq_true ..).mp hstrings
  obtain ⟨texts, rfl⟩ := texts_of_strings hall
  let stored := texts.map String.toList
  let bounded := (stored.take 32).map (truncateText · 128)
  have hstored : storedTexts "evidence" value = some stored := by
    rw [storedTexts, storedItems_of_object hobject, arrayAt, hfound, Option.bind_some, hitems,
      Option.bind_some]
    exact (mapM_strings id texts).trans (congrArg some (List.map_id stored))
  have hbounded : ((texts.map Json.string).take 32).mapM (fun item =>
      item.asStr.map fun text => truncateText text.toList 128) = some bounded := by
    rw [← List.map_take, mapM_strings (truncateText · 128), List.map_take]
  refine ⟨found, bounded.map Prod.fst, 32 < stored.length || bounded.any Prod.snd, hfound, ?_, ?_,
    ?_⟩
  · have hlength : (texts.map Json.string).length = stored.length := by
      rw [List.length_map, List.length_map]
    simp only [boundedStringValues, hitems, Option.bind_eq_bind, Option.bind_some, hbounded,
      hlength]
  · refine ⟨stored, hstored, ?_⟩
    rw [List.map_map, List.forall₂_map_right_iff, List.forall₂_same]
    exact fun text _ => cut_truncateText text 128
  · rw [hstored, textsFlag, List.map_map, ne_eq, ne_eq, Option.some.injEq]
    rfl

theorem signal_members (h : validateSignal value = .ok ()) :
    ∃ object kind confidence, value.asObject = some object ∧ strAt "kind" object = some kind ∧
      strAt "confidence" object = some confidence ∧
      isSomeAnd (SortedMap.get "evidence" object) stringArray = true := by
  obtain ⟨object, hobject, h⟩ := bind_eq_ok.mp h
  have hfields := refuse_eq_ok.mp h
  obtain ⟨kind, hkind⟩ :=
    Option.ne_none_iff_exists'.mp fun hnone : strAt "kind" object = none => by
      simp [hnone, isSomeAnd] at hfields
  obtain ⟨confidence, hconfidence⟩ :=
    Option.ne_none_iff_exists'.mp fun hnone : strAt "confidence" object = none => by
      simp [hnone, isSomeAnd] at hfields
  simp only [Bool.or_eq_true, not_or, Bool.not_eq_true', Bool.not_eq_false] at hfields
  exact ⟨object, kind, confidence, okOr_eq_ok.mp hobject, hkind, hconfidence, hfields.2⟩

theorem signalView_shown (h : validateSignal value = .ok ()) :
    ∃ v, signalView value = some v ∧ SignalShown value v := by
  obtain ⟨object, kind, confidence, hobject, hkind, hconfidence, hstrings⟩ := signal_members h
  obtain ⟨found, texts, flag, hfound, hbounded, hshown, hflag⟩ := evidence_shown hobject hstrings
  have hstored := storedText_of_object hobject
  refine ⟨⟨(truncateText kind.toList 128).1, (truncateText confidence.toList 128).1, texts,
    (truncateText kind.toList 128).2 || (truncateText confidence.toList 128).2 || flag⟩,
    ?_, ?_, ?_, hshown, ?_⟩
  · simp only [signalView, hobject, Option.bind_eq_bind, Option.bind_some, textAt_of_some hkind,
      textAt_of_some hconfidence, hfound, hbounded]
  · rw [hstored, textAt_of_some hkind]
    exact textShown _ _
  · rw [hstored, textAt_of_some hconfidence]
    exact textShown _ _
  · rw [hstored, hstored, textAt_of_some hkind, textAt_of_some hconfidence]
    simp only [Bool.or_eq_true, or_assoc, textFlag, hflag]

theorem classification_members (h : validateClassification value = .ok ()) :
    ∃ object crashType confidence signals, value.asObject = some object ∧
      strAt "crash_type" object = some crashType ∧
      strAt "confidence" object = some confidence ∧
      isSomeAnd (SortedMap.get "evidence" object) stringArray = true ∧
      arrayAt "signals" object = some signals ∧ ∀ s ∈ signals, validateSignal s = .ok () := by
  obtain ⟨object, hobject, h⟩ := bind_eq_ok.mp h
  obtain ⟨_, hfields, h⟩ := bind_eq_ok.mp h
  obtain ⟨signals, hsignals, h⟩ := bind_eq_ok.mp h
  have hfields := refuse_eq_ok.mp hfields
  obtain ⟨crashType, hcrashType⟩ :=
    Option.ne_none_iff_exists'.mp fun hnone : strAt "crash_type" object = none => by
      simp [hnone, isSomeAnd] at hfields
  obtain ⟨confidence, hconfidence⟩ :=
    Option.ne_none_iff_exists'.mp fun hnone : strAt "confidence" object = none => by
      simp [hnone, isSomeAnd] at hfields
  simp only [Bool.or_eq_true, not_or, Bool.not_eq_true', Bool.not_eq_false] at hfields
  exact ⟨object, crashType, confidence, signals, okOr_eq_ok.mp hobject, hcrashType, hconfidence,
    hfields.2, okOr_eq_ok.mp hsignals, forEach_eq_ok.mp h⟩

theorem classificationView_shown (h : validateClassification value = .ok ()) :
    ∃ v, classificationView (some value) = some v ∧ ClassificationShown value v := by
  obtain ⟨object, crashType, confidence, signals, hobject, hcrashType, hconfidence, hstrings,
    hsignals, hvalid⟩ := classification_members h
  obtain ⟨found, texts, flag, hfound, hbounded, hshown, hflag⟩ := evidence_shown hobject hstrings
  obtain ⟨views, hviews, hall⟩ := mapM_shown (f := signalView) fun s hs =>
    signalView_shown (hvalid s (List.mem_of_mem_take (i := 16) hs))
  have hviews : (signals.take 16).mapM signalView = some views := hviews
  have hstored := storedText_of_object hobject
  have hitems : storedItems "signals" value = some signals :=
    (storedItems_of_object hobject _).trans hsignals
  have hrest : (decide (16 < signals.length)) = true ↔ LeftOut (some signals) views :=
    decide_eq_true_iff.trans (leftOut_iff hall).symm
  refine ⟨⟨(truncateText crashType.toList 128).1, (truncateText confidence.toList 128).1, texts,
    views, (truncateText crashType.toList 128).2 || (truncateText confidence.toList 128).2 ||
      flag || (16 < signals.length || views.any SignalView.truncated)⟩,
    ?_, ?_, ?_, hshown, ⟨signals, hitems, hall⟩, ?_⟩
  · simp only [classificationView, hobject, Option.bind_eq_bind, Option.bind_some,
      textAt_of_some hcrashType, textAt_of_some hconfidence, hfound, hbounded, hsignals, hviews]
  · rw [hstored, textAt_of_some hcrashType]
    exact textShown _ _
  · rw [hstored, textAt_of_some hconfidence]
    exact textShown _ _
  · rw [hstored, hstored, textAt_of_some hcrashType, textAt_of_some hconfidence, hitems]
    simp only [Bool.or_eq_true, or_assoc, textFlag, hflag, hrest, List.any_eq_true]

end classification

/-! ## The whole detail -/

section detail
variable {result : Json} {guid : Option String} {context : JsonMap}

/-- The checks of the members that a result may lack. -/
theorem optional_members (h : validateProcessingResult result guid = .ok ()) :
    ∃ object, result.asObject = some object ∧
      validateOptional "classification" validateClassification object = .ok () ∧
      validateOptional "log" validateLog object = .ok () := by
  obtain ⟨object, hobject, h⟩ := bind_eq_ok.mp h
  obtain ⟨_, -, h⟩ := bind_eq_ok.mp h
  obtain ⟨_, -, h⟩ := bind_eq_ok.mp h
  obtain ⟨_, -, h⟩ := bind_eq_ok.mp h
  obtain ⟨_, -, h⟩ := bind_eq_ok.mp h
  obtain ⟨_, -, h⟩ := bind_eq_ok.mp h
  obtain ⟨_, -, h⟩ := bind_eq_ok.mp h
  obtain ⟨_, -, h⟩ := bind_eq_ok.mp h
  obtain ⟨_, -, h⟩ := bind_eq_ok.mp h
  obtain ⟨_, -, h⟩ := bind_eq_ok.mp h
  obtain ⟨_, -, h⟩ := bind_eq_ok.mp h
  obtain ⟨_, -, h⟩ := bind_eq_ok.mp h
  obtain ⟨_, -, h⟩ := bind_eq_ok.mp h
  obtain ⟨_, -, h⟩ := bind_eq_ok.mp h
  obtain ⟨_, -, h⟩ := bind_eq_ok.mp h
  obtain ⟨_, -, h⟩ := bind_eq_ok.mp h
  obtain ⟨_, hclassification, hlog⟩ := bind_eq_ok.mp h
  exact ⟨object, okOr_eq_ok.mp hobject, hclassification, hlog⟩

theorem properties_of_context (h : validateCrashContext context = .ok ()) :
    validateArray context "system_metadata" validateProperty = .ok () ∧
      validateArray context "game_data" validateProperty = .ok () := by
  obtain ⟨_, -, h⟩ := bind_eq_ok.mp h
  obtain ⟨_, -, h⟩ := bind_eq_ok.mp h
  obtain ⟨_, -, h⟩ := bind_eq_ok.mp h
  obtain ⟨_, hmetadata, h⟩ := bind_eq_ok.mp h
  obtain ⟨_, hdata, -⟩ := bind_eq_ok.mp h
  exact ⟨hmetadata, hdata⟩

theorem contextShown {found : Json} (hget : result.get "crash_context" = some found)
    (hobject : found.asObject = some context) (key : String) (n : Nat) :
    ContextShown key n result (optionalBounded (textAt key context) n).1
      (optionalBounded (textAt key context) n).2 := by
  have hstored : (result.get "crash_context").bind (storedText key) = textAt key context := by
    rw [hget, Option.bind_some, storedText_of_object hobject]
  refine ⟨?_, ?_⟩
  · rw [hstored]
    exact optionalShown _ _
  · rw [hstored]
    exact optionalFlag _ _

theorem propertiesShown {found : Json} (hget : result.get "crash_context" = some found)
    (hobject : found.asObject = some context) {key : String}
    (h : validateArray context key validateProperty = .ok ()) :
    ∃ views truncated, propertyViews (SortedMap.get key context) = .ok (views, truncated) ∧
      PropertiesShown key result views truncated := by
  obtain ⟨views, truncated, hviews, hlist, hflag⟩ := propertyViews_shown h
  have hstored : (result.get "crash_context").bind (storedItems key) = arrayAt key context := by
    rw [hget, Option.bind_some, storedItems_of_object hobject]
  refine ⟨views, truncated, hviews, ?_, ?_⟩
  · rw [hstored]
    exact hlist
  · rw [hstored]
    exact hflag

theorem classification_shown {object : JsonMap} (hobject : result.asObject = some object)
    (h : validateOptional "classification" validateClassification object = .ok ()) :
    Option.Rel ClassificationShown (result.get "classification")
      (classificationView (result.get "classification")) := by
  unfold validateOptional at h
  rw [get_of_object hobject]
  cases hget : SortedMap.get "classification" object with
  | none => exact .none
  | some value =>
    rw [hget] at h
    obtain ⟨v, hv, hshown⟩ := classificationView_shown h
    rw [hv]
    exact .some hshown

end detail

/-- A valid result is shown, and all of it that is not shown is marked. -/
theorem loadEventDetail_shown (projectId issueId eventId : Text) (guid : Option String)
    (result : Json) (h : validateProcessingResult result guid = .ok ()) :
    ∃ d, loadEventDetail projectId issueId eventId guid (some result) = .ok d ∧
      DetailShown projectId issueId eventId guid result d := by
  obtain ⟨object, _, context, hobject, -, hcontext, -, hvalid⟩ := contract_steps h
  obtain ⟨object', hobject', hclassification, hlog⟩ := optional_members h
  obtain ⟨hmetadata, hdata⟩ := properties_of_context hvalid
  obtain ⟨parts⟩ := parts_of_valid h
  obtain ⟨found, hfound, hfoundObject⟩ := Option.bind_eq_some_iff.mp hcontext
  have hget : result.get "crash_context" = some found := (get_of_object hobject _).trans hfound
  obtain ⟨gameData, gameDataTruncated, hgameData, hgameShown⟩ :=
    propertiesShown hget hfoundObject hdata
  obtain ⟨systemContext, systemContextTruncated, hsystem, hsystemShown⟩ :=
    propertiesShown hget hfoundObject hmetadata
  obtain ⟨log, hlogView, hlogShown⟩ :=
    projectLog_shown projectId issueId eventId hobject' hlog
  obtain ⟨threads, threadsTruncated, hthreads, hthreadsShown, hthreadsFlag⟩ :=
    threadViews_shown (threads_of_parts parts) parts.threads_valid
  let text (key : String) (limit : Nat) := optionalBounded (textAt key context) limit
  refine ⟨⟨(optionalBounded (guid.map String.toList) maxTextBytes).1,
    (optionalBounded (guid.map String.toList) maxTextBytes).2,
    classificationView (result.get "classification"), (text "error_message" maxTextBytes).1,
    (text "error_message" maxTextBytes).2, (text "build_version" maxTextBytes).1,
    (text "build_version" maxTextBytes).2, (text "build_configuration" maxTextBytes).1,
    (text "build_configuration" maxTextBytes).2, (text "user_comment" maxCommentBytes).1,
    (text "user_comment" maxCommentBytes).2, gameData, gameDataTruncated, systemContext,
    systemContextTruncated, log, threads, threadsTruncated⟩,
    ?_, optionalShown _ _, optionalFlag _ _, classification_shown hobject' hclassification,
    contextShown hget hfoundObject "error_message" maxTextBytes,
    contextShown hget hfoundObject "build_version" maxTextBytes,
    contextShown hget hfoundObject "build_configuration" maxTextBytes,
    contextShown hget hfoundObject "user_comment" maxCommentBytes, hgameShown, hsystemShown,
    hlogShown, hthreadsShown, hthreadsFlag⟩
  simp only [loadEventDetail, available, okOr_some, ok_bind, h, Except.mapError, hget,
    Option.bind_some, hfoundObject, hgameData, hsystem, hlogView, hthreads]
  rfl

/-- A result with all members, of which one list is too long and one text was stored cut. -/
def cutSample : Json :=
  ofFields [("schema_version", ofNat 1), ("crash_guid", .string "UECC-1"),
    ("crash_context", PublishedText.contextSample "boss"),
    ("classification", ofFields [("crash_type", .string "crash"), ("confidence", .string "high"),
      ("evidence", .array (List.replicate 33 (.string "exception"))),
      ("signals", .array [ofFields [("kind", .string "gpu_crash"), ("confidence", .string "low"),
        ("evidence", .array [])]])]),
    ("log", ofFields [("name", .string "Game.log"), ("tail", ofFields [("text", .string "Fatal"),
      ("truncated", .bool true), ("invalid_utf8", .bool false)])]),
    ("current", PublishedText.attemptSample "D:/Boss.cpp"), ("history", .array [])]

theorem loadEventDetail_shown_cutSample :
    ∃ d, loadEventDetail "p".toList "i".toList "e".toList (some "UECC-1") (some cutSample) =
        .ok d ∧
      DetailShown "p".toList "i".toList "e".toList (some "UECC-1") cutSample d :=
  loadEventDetail_shown "p".toList "i".toList "e".toList (some "UECC-1") cutSample
    (by decide +kernel)

end FaultLane.DetailViews

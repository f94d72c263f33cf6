import FaultLane.GroupingTotality

set_option autoImplicit false

/-!
# Digests

The hashed encoding of a component list is unambiguous, and the variant list splits
back into the issue list and what the variant adds.
-/
namespace FaultLane.GroupingDigest
open Fallible RustText SortedMap Json LengthPrefix ProcessingContract GroupingText Grouping
  GroupingTotality ProcessingHistory Symbolication

theorem hexDigitChar_injective {m n : Nat} (hm : m < 16) (hn : n < 16)
    (h : hexDigitChar m = hexDigitChar n) : m = n := by
  have hall : ∀ a < 16, ∀ b < 16, hexDigitChar a = hexDigitChar b → a = b := by decide
  exact hall m hm n hn h

theorem lowerHex_injective : Function.Injective lowerHex := by
  intro as bs h
  have hlist := String.ofList_injective h
  clear h
  induction as generalizing bs with
  | nil =>
    cases bs with
    | nil => rfl
    | cons b bs => simp at hlist
  | cons a as ih =>
    cases bs with
    | nil => simp at hlist
    | cons b bs =>
      simp only [List.flatMap_cons, List.cons_append, List.nil_append, List.cons.injEq] at hlist
      obtain ⟨hhigh, hlow, hrest⟩ := hlist
      have ha := a.toNat_lt
      have hb := b.toNat_lt
      have h1 := hexDigitChar_injective (by omega) (by omega) hhigh
      have h2 := hexDigitChar_injective (by omega) (by omega) hlow
      have hab : a = b := by
        rw [← UInt8.toNat_inj]
        omega
      rw [hab, ih hrest]

theorem utf8_ofList_length_le (value : Text) :
    (utf8 (String.ofList value)).length ≤ 4 * value.length := by
  have h : utf8 (String.ofList value) = value.flatMap String.utf8EncodeChar := by
    simp [utf8, List.utf8Encode]
  rw [h]
  clear h
  induction value with
  | nil => simp
  | cons c rest ih =>
    have hc := c.utf8Size_le_four
    simp only [List.flatMap_cons, List.length_append, String.length_utf8EncodeChar,
      List.length_cons]
    omega

theorem tag_text_injective : Function.Injective ComponentTag.text := by
  intro s t h
  cases s <;> cases t <;> first | rfl | exact absurd h (by decide)

theorem componentFields_fit (c : Component) : ∀ f ∈ componentFields c, f.length < lengthLimit := by
  intro f hf
  rcases List.mem_cons.mp hf with rfl | hf
  · cases c.tag <;> decide
  · obtain rfl := List.mem_singleton.mp hf
    have h := utf8_ofList_length_le c.value
    have hb := c.bounded
    unfold maxComponentChars at hb
    unfold lengthLimit
    omega

theorem componentFields_injective {c d : Component} (h : componentFields c = componentFields d) :
    c = d := by
  simp only [componentFields, List.cons.injEq, and_true] at h
  obtain ⟨tag, value, nonempty, bounded⟩ := c
  obtain ⟨tag', value', nonempty', bounded'⟩ := d
  obtain rfl := tag_text_injective (utf8_injective h.1)
  obtain rfl := String.ofList_injective (utf8_injective h.2)
  rfl

theorem flatMap_componentFields_injective {cs ds : Components}
    (h : cs.flatMap componentFields = ds.flatMap componentFields) : cs = ds := by
  induction cs generalizing ds with
  | nil =>
    cases ds with
    | nil => rfl
    | cons d ds => simp [componentFields] at h
  | cons c cs ih =>
    cases ds with
    | nil => simp [componentFields] at h
    | cons d ds =>
      rw [List.flatMap_cons, List.flatMap_cons] at h
      obtain ⟨hc, hrest⟩ := List.append_inj h rfl
      rw [componentFields_injective hc, ih hrest]

theorem componentFields_all_fit (cs : Components) :
    ∀ f ∈ cs.flatMap componentFields, f.length < lengthLimit := by
  intro f hf
  obtain ⟨c, -, hf⟩ := List.mem_flatMap.mp hf
  exact componentFields_fit c f hf

section Variants

/-- The tags that only the variant list uses. -/
def isVariantTag : ComponentTag → Bool
  | .classificationConfidence | .classificationEvidence | .variantFrame => true
  | _ => false

theorem push_eq (components : Components) (tag : ComponentTag) (value : Text) :
    ∃ extra : Components, components.push tag value = components ++ extra ∧
      ∀ c ∈ extra, c.tag = tag := by
  unfold Components.push
  split_ifs with h
  · exact ⟨[], (List.append_nil _).symm, nofun⟩
  · exact ⟨_, rfl, fun c hc => by rw [List.mem_singleton.mp hc]⟩

theorem pushAll_eq (components : Components) (tag : ComponentTag) (values : List Text) :
    ∃ extra : Components, components.pushAll tag values = components ++ extra ∧
      ∀ c ∈ extra, c.tag = tag := by
  induction values generalizing components with
  | nil => exact ⟨[], (List.append_nil _).symm, nofun⟩
  | cons value rest ih =>
    obtain ⟨first, hfirst, htag⟩ := push_eq components tag value
    obtain ⟨extra, hextra, htags⟩ := ih (components.push tag value)
    refine ⟨first ++ extra, ?_, fun c hc => ?_⟩
    · change (components.push tag value).pushAll tag rest = _
      rw [hextra, hfirst, List.append_assoc]
    · rcases List.mem_append.mp hc with hc | hc
      · exact htag c hc
      · exact htags c hc

/-- Pushing under an issue tag keeps a list of issue tags one. -/
theorem pushAll_issue {components : Components} {tag : ComponentTag} {values : List Text}
    (h : ∀ c ∈ components, isVariantTag c.tag = false) (htag : isVariantTag tag = false) :
    ∀ c ∈ components.pushAll tag values, isVariantTag c.tag = false := by
  obtain ⟨extra, hextra, htags⟩ := pushAll_eq components tag values
  rw [hextra]
  intro c hc
  rcases List.mem_append.mp hc with hc | hc
  · exact h c hc
  · rw [htags c hc]
    exact htag

theorem issue_tags (e : Evidence) : ∀ c ∈ e.issue, isVariantTag c.tag = false := by
  obtain ⟨first, hfirst, htags⟩ := push_eq [] .crashType e.crashType.toList
  have hbase : ∀ c ∈ Components.push [] .crashType e.crashType.toList,
      isVariantTag c.tag = false := by
    rw [hfirst]
    intro c hc
    rw [htags c hc]
    rfl
  unfold Evidence.issue
  exact pushAll_issue (pushAll_issue (pushAll_issue (pushAll_issue (pushAll_issue (pushAll_issue
    (pushAll_issue (pushAll_issue hbase rfl) rfl) rfl) rfl) rfl) rfl) rfl) rfl

theorem addClassificationVariant_eq (classification : Option JsonMap) (components : Components) :
    ∃ extra : Components, addClassificationVariant classification components =
      components ++ extra ∧ ∀ c ∈ extra, isVariantTag c.tag = true := by
  cases classification with
  | none => exact ⟨[], (List.append_nil _).symm, nofun⟩
  | some classification =>
    obtain ⟨first, hfirst, hconfidence⟩ := pushAll_eq components .classificationConfidence
      ((Json.strAt "confidence" classification).map (normalizeToken ·.toList)).toList
    obtain ⟨second, hsecond, hevidence⟩ := pushAll_eq (components ++ first) .classificationEvidence
      (((Json.arrayAt "evidence" classification).map normalizedEvidence).getD [])
    refine ⟨first ++ second, ?_, fun c hc => ?_⟩
    · rw [addClassificationVariant, hfirst, hsecond, List.append_assoc]
    · rcases List.mem_append.mp hc with hc | hc
      · rw [hconfidence c hc]; rfl
      · rw [hevidence c hc]; rfl

theorem variant_eq (e : Evidence) : ∃ extra : Components, e.variant = e.issue ++ extra ∧
    ∀ c ∈ extra, isVariantTag c.tag = true := by
  obtain ⟨first, hfirst, htags⟩ := addClassificationVariant_eq e.classification e.issue
  obtain ⟨second, hsecond, hframes⟩ :=
    pushAll_eq (e.issue ++ first) .variantFrame e.frames.variant
  refine ⟨first ++ second, ?_, fun c hc => ?_⟩
  · rw [Evidence.variant, hfirst, hsecond, List.append_assoc]
  · rcases List.mem_append.mp hc with hc | hc
    · exact htags c hc
    · rw [hframes c hc]; rfl

/-- The issue list is what the variant list holds under issue tags. -/
theorem issue_of_variant (e : Evidence) :
    e.variant.filter (!isVariantTag ·.tag) = e.issue := by
  obtain ⟨extra, hextra, htags⟩ := variant_eq e
  rw [hextra, List.filter_append]
  have hissue : e.issue.filter (!isVariantTag ·.tag) = e.issue :=
    List.filter_eq_self.mpr fun c hc => by rw [issue_tags e c hc]; rfl
  have hrest : extra.filter (!isVariantTag ·.tag) = [] :=
    List.filter_eq_nil_iff.mpr fun c hc => by rw [htags c hc]; decide
  rw [hissue, hrest, List.append_nil]

end Variants

section Injectivity
variable {unicode : Char → Bool} {sha256 : List UInt8 → List UInt8}

theorem digestInput_of_digest (hsha : Function.Injective sha256) {d d' : String}
    {cs cs' : Components} (h : digest sha256 d cs = digest sha256 d' cs') :
    digestInput d cs = digestInput d' cs' := hsha (lowerHex_injective h)

theorem digest_injective (hsha : Function.Injective sha256) {domain : String}
    {cs cs' : Components} (h : digest sha256 domain cs = digest sha256 domain cs') : cs = cs' := by
  have hinput := digestInput_of_digest hsha h
  unfold digestInput at hinput
  rw [encodeFields_cons, encodeFields_cons] at hinput
  exact flatMap_componentFields_injective (encodeFields_inj (componentFields_all_fit cs)
    (componentFields_all_fit cs') (List.append_cancel_left hinput))

theorem digest_domains (hsha : Function.Injective sha256) (cs cs' : Components) :
    digest sha256 issueDomain cs ≠ digest sha256 variantDomain cs' := by
  intro h
  have hinput := digestInput_of_digest hsha h
  unfold digestInput at hinput
  rw [encodeFields_cons, encodeFields_cons] at hinput
  have hdomain := (lengthPrefixed_append_inj (by decide) (by decide) hinput).1
  exact absurd (utf8_injective hdomain) (by decide)

theorem fingerprint_grouped {result : Json} {f : Fingerprint}
    (h : fingerprint unicode sha256 result = .ok (.grouped f)) :
    ∃ e : Evidence, f.issueFingerprint = digest sha256 issueDomain e.issue ∧
      f.variantFingerprint = digest sha256 variantDomain e.variant := by
  obtain ⟨_, -, h⟩ := bind_eq_ok.mp h
  obtain ⟨e, -, h⟩ := bind_eq_ok.mp h
  have houtcome : e.outcome sha256 = .grouped f := Except.ok.inj h
  unfold Evidence.outcome at houtcome
  split_ifs at houtcome
  cases houtcome
  exact ⟨e, rfl, rfl⟩

end Injectivity

/-- The evidence of a crash with one function on its stack. -/
def tickEvidence (frames : FrameEvidence) : Evidence where
  crashType := "crash"
  classification := none
  signals := []
  exception := none
  assertion := none
  frames := frames
  errorTemplate := none
  platform := none

def tickFrame (category : FrameCategory) : ResolvedFrame :=
  ⟨category, "game|Arena::Tick()".toList, "game".toList, "Arena::Tick()".toList⟩

def tickVariant : List Text := ["resolved|game|Arena::Tick()".toList]

def projectTick : FrameEvidence := ⟨[tickFrame .project], [], [], tickVariant⟩
def engineTick : FrameEvidence := ⟨[], [tickFrame .engine], [], tickVariant⟩

def tickThread (sourceFile : String) : SymbolicatedThread :=
  sampleThread true [sampleFrame sourceFile]

theorem frameCategory_game (paths : List Text) :
    frameCategory "game".toList paths =
      if paths.any isUnderEngineSource then .engine else .project := by
  have hmodule : frameCategory "game".toList [] = .project := by decide
  unfold frameCategory at hmodule ⊢
  cases paths.any isUnderEngineSource
  · exact hmodule
  · simp

theorem sourcePaths_sample (sourceFile : String) :
    sourcePaths (sampleFrame sourceFile).toJson = [sourceFile.toList] := by
  have hget : ∀ field, (sampleFrame sourceFile).toJson.get field = _ := get_fields _
  rw [sourcePaths, textOf, frameInlines, hget, hget]
  rfl

theorem resolvedFrame_sample (sourceFile : String) :
    resolvedFrame (sampleFrame sourceFile).toJson =
      some (tickFrame (if isUnderEngineSource sourceFile.toList then .engine else .project)) := by
  have hget : ∀ field, (sampleFrame sourceFile).toJson.get field = _ := get_fields _
  have hresolved : isResolved (sampleFrame sourceFile).toJson = true := by
    rw [isResolved, hget]
    rfl
  have hmodule : textOf "module" (sampleFrame sourceFile).toJson = some "Game.exe".toList := by
    rw [textOf, hget]
    rfl
  have hfunction :
      textOf "function" (sampleFrame sourceFile).toJson = some "Arena::Tick()".toList := by
    rw [textOf, hget]
    rfl
  have hinlines : frameInlines (sampleFrame sourceFile).toJson = some [] := by
    rw [frameInlines, hget]
    rfl
  have hname : normalizeModule "Game.exe".toList = "game".toList := by decide
  have htick : normalizeFunction "Arena::Tick()".toList = "Arena::Tick()".toList := by decide
  have hcategory := frameCategory_game [sourceFile.toList]
  rw [List.any_cons, List.any_nil, Bool.or_false] at hcategory
  unfold resolvedFrame
  simp only [hresolved, hmodule, hfunction, hinlines, sourcePaths_sample, hname, htick,
    hcategory, Option.bind_eq_bind, Option.bind_some]
  rfl

theorem builtFrames_tick (sourceFile : String) :
    builtFrames (sampleSymbolication none [] [tickThread sourceFile]) =
      .ok (if isUnderEngineSource sourceFile.toList then engineTick else projectTick) := by
  have hget : ∀ field, (tickThread sourceFile).toJson.get field = _ := get_fields _
  have hfaulting : isFaulting (tickThread sourceFile).toJson = true := by
    rw [isFaulting, hget]
    rfl
  have hframes : ((tickThread sourceFile).toJson.get "frames").bind asArray =
      some [(sampleFrame sourceFile).toJson] := by
    rw [hget]
    rfl
  unfold builtFrames
  change (do
    let modules ← addModules [] []
    let frames ← okOr ((([(tickThread sourceFile).toJson].find? isFaulting).bind
      (Json.get "frames")).bind asArray) GroupingError.invalidProcessingResult
    return (frames.foldl (collectFrame modules) ⟨[], [], []⟩).evidence) = _
  rw [List.find?_cons_of_pos hfaulting, Option.bind_some, hframes]
  simp only [addModules, okOr_some, ok_bind, List.foldl_cons, List.foldl_nil, collectFrame,
    resolvedFrame_sample]
  cases isUnderEngineSource sourceFile.toList <;> rfl

def tickResult (sourceFile : String) : Json := sampleResult "Crash" "" [tickThread sourceFile]

theorem tickResult_valid (sourceFile : String) (requireCurrent : Bool) :
    validateProcessingContract (tickResult sourceFile) (some sampleGuid) requireCurrent = .ok () := by
  have hnamed : ∀ t ∈ [tickThread sourceFile], ∀ f ∈ t.frames, f.trust ≠ "" := by
    simp [tickThread, sampleThread, sampleFrame]
  exact sampleResult_valid "Crash" "" hnamed requireCurrent

theorem fingerprint_tickResult (sha256 : List UInt8 → List UInt8) (sourceFile : String) :
    fingerprint (fun _ => false) sha256 (tickResult sourceFile) =
      .ok ((tickEvidence (if isUnderEngineSource sourceFile.toList then engineTick
        else projectTick)).outcome sha256) := by
  have hvalid := tickResult_valid sourceFile true
  rw [fingerprint_of_valid (valid_without_identity hvalid), tickResult, sampleResult,
    gatherEvidence_built]
  change Except.map _ ((builtFrames (sampleSymbolication none [] _)).map _) = _
  rw [builtFrames_tick]
  rfl

/-- With an injective hash: a digest determines its component list, the two domains never
meet, and equal variants are equal issues. -/
theorem variants_refine_issues (unicode : Char → Bool) (sha256 : List UInt8 → List UInt8)
    (hsha : Function.Injective sha256) :
    (∀ (domain : String) (cs cs' : Components),
      digest sha256 domain cs = digest sha256 domain cs' → cs = cs') ∧
    (∀ cs cs' : Components, digest sha256 issueDomain cs ≠ digest sha256 variantDomain cs') ∧
    ∀ (result result' : Json) (f f' : Fingerprint),
      fingerprint unicode sha256 result = .ok (.grouped f) →
      fingerprint unicode sha256 result' = .ok (.grouped f') →
      f.variantFingerprint = f'.variantFingerprint → f.issueFingerprint = f'.issueFingerprint := by
  refine ⟨fun domain cs cs' => digest_injective hsha, digest_domains hsha, ?_⟩
  intro result result' f f' h h' hvariant
  obtain ⟨e, hissue, he⟩ := fingerprint_grouped h
  obtain ⟨e', hissue', he'⟩ := fingerprint_grouped h'
  rw [he, he'] at hvariant
  have hlist : e.variant = e'.variant := digest_injective hsha hvariant
  rw [hissue, hissue', ← issue_of_variant e, ← issue_of_variant e', hlist]

theorem variants_refine_issues_sample :
    ∃ f f', fingerprint (fun _ => false) id (tickResult "D:/Arena.cpp") = .ok (.grouped f) ∧
      fingerprint (fun _ => false) id (tickResult "E:/Arena.cpp") = .ok (.grouped f') ∧
      f.variantFingerprint = f'.variantFingerprint ∧ f.issueFingerprint = f'.issueFingerprint := by
  have h := fingerprint_tickResult id "D:/Arena.cpp"
  have h' := fingerprint_tickResult id "E:/Arena.cpp"
  rw [if_neg (by decide)] at h h'
  have hgrouped : ∃ f, (tickEvidence projectTick).outcome id = .grouped f :=
    ⟨_, if_neg (by decide)⟩
  obtain ⟨f, hf⟩ := hgrouped
  rw [hf] at h h'
  exact ⟨f, f, h, h', rfl,
    (variants_refine_issues (fun _ => false) id Function.injective_id).2.2 _ _ f f h h' rfl⟩

end FaultLane.GroupingDigest

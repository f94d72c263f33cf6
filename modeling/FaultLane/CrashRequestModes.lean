import FaultLane.CrashRequestGrammar

set_option autoImplicit false

/-!
# The envelope check and the full read

Both modes run one loop. They pass the same reader from file to file, so what the
envelope check has let through stops the full read only where a retained file has
a check of its own.
-/
namespace FaultLane.CrashRequestModes
open Fallible CrashContext CrashRequest CrashRequestReading
  CrashRequestGrammar

/-- What a full read may do at a place the envelope check got past with a result that is `Same`. -/
inductive ReadOutcome {α : Type} (Same : α → Prop) (Oversize : Prop) : Decoded α → Prop where
  | same (a : α) (h : Same a) : ReadOutcome Same Oversize (.ok a)
  | badContext (error : CrashRequestError)
      (h : error.kind = .invalidCrashContextUtf8 ∨ error.kind = .invalidCrashContext) :
      ReadOutcome Same Oversize (.error error)
  | oversize (h : Oversize) : ReadOutcome Same Oversize (reject .fileTooLarge)

theorem ReadOutcome.bind {α β : Type} {Same : α → Prop} {Same' : β → Prop} {O O' : Prop}
    {x : Decoded α} {f : α → Decoded β} (h : ReadOutcome Same O x) (hO : O → O')
    (hf : ∀ a, Same a → ReadOutcome Same' O' (f a)) : ReadOutcome Same' O' (x >>= f) := by
  cases h with
  | same a ha => exact hf a ha
  | badContext error he => exact .badContext error he
  | oversize ho => exact .oversize (hO ho)

/-- The gathered fields that both modes keep. -/
structure Agrees (s t : InspectedFiles) : Prop where
  files : s.files = t.files
  criticalFiles : s.criticalFiles = t.criticalFiles
  filenames : s.filenames = t.filenames

section Modes
variable (xmlParser : XmlParser) (limits : CrashRequestLimits)

theorem readCrashContext_outcome {r t : ExpandedReader} {size : Nat} (hr : Inv r)
    (hsize : ¬ limits.crashContextBytes < size) (hd : discard r size = .ok t) :
    ReadOutcome (fun found => found.2 = t) False
      (readCrashContext xmlParser limits r size) := by
  obtain ⟨bytes, hlen, hsteps⟩ := (discard_iff hr).mp hd
  have hread : readBytes r size = .ok (bytes, t) := (readExact_iff hr).mpr ⟨hlen, hsteps⟩
  unfold readCrashContext
  simp only [refuse_of_not hsize, hread, ok_bind]
  cases LogTail.fromUtf8 bytes with
  | none => exact .badContext _ (Or.inl rfl)
  | some xml =>
    simp only [okOr_some, ok_bind]
    cases parseCrashContext xmlParser limits.crashContextNodes xml with
    | error error => exact .badContext _ (Or.inr rfl)
    | ok document => exact .same _ rfl

/-- An envelope check discards; a full read that is not stopped ends at the same reader. -/
theorem readContents_outcome {s s' u : InspectedFiles} {name : String}
    {kind : CrashRequestFileKind} {size : Nat} {r t : ExpandedReader} (hr : Inv r)
    (hsu : Agrees s u)
    (h : readContents xmlParser limits false false s name kind size r = .ok (s', t)) :
    s' = s ∧ Inv t ∧
      ReadOutcome (fun found => Agrees s' found.1 ∧ found.2 = t)
        (kind = .minidump ∧ limits.minidumpBytes < size)
        (readContents xmlParser limits true true u name kind size r) := by
  obtain ⟨rfl, hd, hsize⟩ := readContents_discards h
  obtain ⟨bytes, hlen, hsteps⟩ := (discard_iff hr).mp hd
  have hread : readBytes r size = .ok (bytes, t) := (readExact_iff hr).mpr ⟨hlen, hsteps⟩
  refine ⟨rfl, hsteps.inv', ?_⟩
  cases kind with
  | crashContext =>
    refine ReadOutcome.bind
      (readCrashContext_outcome xmlParser limits hr (hsize rfl) hd) False.elim ?_
    rintro ⟨xml, t'⟩ rfl
    exact .same _ ⟨⟨hsu.files, hsu.criticalFiles, hsu.filenames⟩, rfl⟩
  | minidump =>
    simp only [readContents, ↓reduceIte]
    by_cases hdump : limits.minidumpBytes < size
    · rw [refuse_of hdump]
      exact .oversize ⟨trivial, hdump⟩
    · simp only [refuse_of_not hdump, hread, ok_bind]
      exact .same _ ⟨⟨hsu.files, hsu.criticalFiles, hsu.filenames⟩, rfl⟩
  | log =>
    simp only [readContents, Bool.true_and]
    split_ifs with hlog
    · have ht := readLogTail_eq hsteps limits.logTailBytes limits.logTailLines
      rw [hlen] at ht
      simp only [ht, ok_bind]
      exact .same _ ⟨⟨hsu.files, hsu.criticalFiles, hsu.filenames⟩, rfl⟩
    · simp only [hd, ok_bind]
      exact .same _ ⟨hsu, rfl⟩
  | unknown =>
    simp only [readContents, hd, ok_bind]
    exact .same _ ⟨hsu, rfl⟩

theorem readCount_inv {r t : ExpandedReader} {n : Nat} (hr : Inv r)
    (h : readCount r = .ok (n, t)) : Inv t :=
  ((readCount_iff hr).mp h).2.inv'

theorem readAnsiField_inv {r t : ExpandedReader} {name : String} (hr : Inv r)
    (h : readAnsiField r = .ok (name, t)) : Inv t := by
  obtain ⟨_, _, hs⟩ := readAnsiField_encoded hr h
  exact hs.inv'

/-- Both modes claim the names alike. -/
theorem claim_agrees {s s' u : InspectedFiles} {name : String} {kind : CrashRequestFileKind}
    (hsu : Agrees s u) (h : s.claim name kind = .ok s') :
    s'.files = s.files ∧ ∃ u', u.claim name kind = .ok u' ∧ Agrees s' u' := by
  obtain ⟨_, hcritical, h⟩ := bind_eq_ok.mp h
  obtain ⟨_, hname, h⟩ := bind_eq_ok.mp h
  cases h
  unfold InspectedFiles.claim
  rw [← hsu.criticalFiles, ← hsu.filenames, hcritical, hname]
  exact ⟨rfl, _, rfl, hsu.files, rfl, rfl⟩

theorem inspectFile_outcome {s s' u : InspectedFiles} {index : Nat} {r t : ExpandedReader}
    (hr : Inv r) (hsu : Agrees s u)
    (h : inspectFile xmlParser limits false false index s r = .ok (s', t)) :
    Inv t ∧ ∃ file : CrashRequestFile, s'.files = s.files ++ [file] ∧
      ReadOutcome (fun found => Agrees s' found.1 ∧ found.2 = t)
        (file.kind = .minidump ∧ limits.minidumpBytes < file.size)
        (inspectFile xmlParser limits true true index u r) := by
  obtain ⟨⟨found, r₁⟩, h₁, h⟩ := bind_eq_ok.mp h
  obtain ⟨_, hindex, h⟩ := bind_eq_ok.mp h
  obtain ⟨⟨name, r₂⟩, h₂, h⟩ := bind_eq_ok.mp h
  obtain ⟨s₁, hs₁, h⟩ := bind_eq_ok.mp h
  obtain ⟨⟨size, r₃⟩, h₃, h⟩ := bind_eq_ok.mp h
  obtain ⟨_, hsize, h⟩ := bind_eq_ok.mp h
  obtain ⟨⟨s₂, r₄⟩, h₄, h⟩ := bind_eq_ok.mp h
  cases h
  obtain ⟨hfiles, u₁, hu₁, hsu₁⟩ := claim_agrees hsu hs₁
  have hr₃ := readCount_inv (readAnsiField_inv (readCount_inv hr h₁) h₂) h₃
  obtain ⟨rfl, hr₄, houtcome⟩ := readContents_outcome xmlParser limits hr₃ hsu₁ h₄
  refine ⟨hr₄, ⟨found, name, size, fileKind name⟩, by rw [hfiles], ?_⟩
  unfold inspectFile
  simp only [h₁, hindex, h₂, hu₁, h₃, hsize, ok_bind]
  refine houtcome.bind id ?_
  rintro ⟨u₂, t'⟩ ⟨hu₂, rfl⟩
  exact .same _ ⟨⟨by rw [hu₂.files], hu₂.criticalFiles, hu₂.filenames⟩, rfl⟩

/-- The loop: induction on the files still to come, with the files gathered so far a prefix
of the final list. -/
theorem inspectFiles_outcome (remaining : Nat) {s s' u : InspectedFiles} {index : Nat}
    {r t : ExpandedReader} (hr : Inv r) (hsu : Agrees s u)
    (h : inspectFiles xmlParser limits false false remaining index s r = .ok (s', t)) :
    Inv t ∧ s.files <+: s'.files ∧
      ReadOutcome (fun found => Agrees s' found.1 ∧ found.2 = t)
        (∃ file ∈ s'.files, file.kind = .minidump ∧ limits.minidumpBytes < file.size)
        (inspectFiles xmlParser limits true true remaining index u r) := by
  induction remaining generalizing s u index r with
  | zero =>
    cases h
    exact ⟨hr, List.prefix_refl _, .same _ ⟨hsu, rfl⟩⟩
  | succ remaining ih =>
    obtain ⟨⟨s₁, r₁⟩, h₁, h⟩ := bind_eq_ok.mp h
    obtain ⟨hr₁, file, hfiles, houtcome⟩ := inspectFile_outcome xmlParser limits hr hsu h₁
    have hloop := fun v hv => ih (u := v) hr₁ hv h
    have hprefix := (hloop s₁ ⟨rfl, rfl, rfl⟩).2.1
    have hmem : file ∈ s'.files := hprefix.subset (by rw [hfiles]; simp)
    refine ⟨(hloop s₁ ⟨rfl, rfl, rfl⟩).1, ?_, ?_⟩
    · exact (hfiles ▸ List.prefix_append s.files [file]).trans hprefix
    · refine houtcome.bind (fun ho => ⟨file, hmem, ho⟩) ?_
      rintro ⟨u₁, t₁⟩ ⟨hu₁, rfl⟩
      exact (hloop u₁ hu₁).2.2

end Modes

def refusal {α : Type} : Decoded α → Option CrashRequestErrorKind
  | .ok _ => none
  | .error error => some error.kind

def noXml : XmlParser := fun _ _ => .error ⟨.other, 1, 1⟩

def dumpArchive : Archive where
  directoryName := ⟨"crash", by decide, by decide⟩
  archiveName := ⟨"crash.ue4crash", by decide, by decide⟩
  entries := [⟨⟨"UEMinidump.dmp", by decide, by decide⟩, [0x4d, 0x44], by decide⟩]

def oneByteDumps : CrashRequestLimits := { CrashRequestLimits.default with minidumpBytes := 1 }

/-- The envelope check never looks at the minidump limit. -/
theorem admissible_minidumpBytes {limits : CrashRequestLimits} {a : Archive}
    (h : Admissible limits a) (bytes : Nat) : Admissible { limits with minidumpBytes := bytes } a :=
  ⟨h.size_lt, h.size_le, h.count_lt, h.count_le, h.file_le, h.context_le, h.names_distinct,
    h.one_context, h.one_minidump⟩

theorem dumpArchive_admissible : Admissible .default dumpArchive where
  size_lt := by decide +kernel
  size_le := by decide +kernel
  count_lt := by decide
  count_le := by decide
  file_le := by decide
  context_le := by decide
  names_distinct := by decide
  one_context := by decide
  one_minidump := by decide

def dumpStream : CrashRequestStream := transparent [encode dumpArchive] 0

theorem inspectCrashEnvelope_dumpStream (bytes : Nat) :
    inspectCrashEnvelope noXml { CrashRequestLimits.default with minidumpBytes := bytes }
      dumpStream = .ok (manifestOf 0 dumpArchive) := by
  have hflat : [encode dumpArchive].flatten = encode dumpArchive := List.append_nil _
  exact inspectCrashEnvelope_encode noXml 0 (admissible_minidumpBytes dumpArchive_admissible bytes)
    hflat

/-- An accepted envelope is read with its manifest, or refused for its crash-context text, or
for a minidump beyond the limit that only retained minidumps have. -/
theorem readCrashRequest_of_inspectCrashEnvelope (xmlParser : XmlParser)
    (limits : CrashRequestLimits) (input : CrashRequestStream) (manifest : CrashRequestManifest)
    (hok : inspectCrashEnvelope xmlParser limits input = .ok manifest) :
    (∃ contents, readCrashRequest xmlParser limits input = .ok contents ∧
        contents.manifest = manifest) ∨
      (∃ error, readCrashRequest xmlParser limits input = .error error ∧
        (error.kind = .invalidCrashContextUtf8 ∨ error.kind = .invalidCrashContext)) ∨
      (readCrashRequest xmlParser limits input = reject .fileTooLarge ∧
        ∃ file ∈ manifest.files, file.kind = .minidump ∧ limits.minidumpBytes < file.size) := by
  obtain ⟨contents, h, hm⟩ := bind_eq_ok.mp hok
  cases hm
  obtain ⟨⟨magic, r₁⟩, h₁, h⟩ := bind_eq_ok.mp h
  obtain ⟨_, hmagic, h⟩ := bind_eq_ok.mp h
  obtain ⟨⟨directoryName, r₂⟩, h₂, h⟩ := bind_eq_ok.mp h
  obtain ⟨⟨archiveName, r₃⟩, h₃, h⟩ := bind_eq_ok.mp h
  obtain ⟨⟨reported, r₄⟩, h₄, h⟩ := bind_eq_ok.mp h
  obtain ⟨_, hreported, h⟩ := bind_eq_ok.mp h
  obtain ⟨⟨count, r₅⟩, h₅, h⟩ := bind_eq_ok.mp h
  obtain ⟨_, hcount, h⟩ := bind_eq_ok.mp h
  obtain ⟨⟨s, r₆⟩, h₆, h⟩ := bind_eq_ok.mp h
  obtain ⟨⟨extra, r₇⟩, h₇, h⟩ := bind_eq_ok.mp h
  obtain ⟨_, hextra, h⟩ := bind_eq_ok.mp h
  obtain ⟨_, hsize, h⟩ := bind_eq_ok.mp h
  obtain ⟨_, hfinish, h⟩ := bind_eq_ok.mp h
  cases h
  have hr₅ : Inv r₅ :=
    readCount_inv (readCount_inv (readAnsiField_inv (readAnsiField_inv
      ((readExact_iff (Nat.zero_le _)).mp h₁).2.inv' h₂) h₃) h₄) h₅
  have hloop := (inspectFiles_outcome xmlParser limits count hr₅ ⟨rfl, rfl, rfl⟩ h₆).2.2
  unfold readCrashRequest decodeCrashRequest
  simp only [h₁, hmagic, h₂, h₃, h₄, hreported, h₅, hcount, ok_bind]
  generalize inspectFiles xmlParser limits true true count 0 .empty r₅ = outcome at hloop ⊢
  cases hloop with
  | same found hfound =>
    obtain ⟨u, t⟩ := found
    obtain ⟨hfiles, rfl⟩ := hfound
    simp only [ok_bind, h₇, hextra, hsize, hfinish, pure_eq_ok, hfiles.files]
    exact Or.inl ⟨_, rfl, rfl⟩
  | badContext error herror => exact Or.inr (Or.inl ⟨error, rfl, herror⟩)
  | oversize hfile => exact Or.inr (Or.inr ⟨rfl, hfile⟩)

theorem readCrashRequest_of_dumpStream :
    inspectCrashEnvelope noXml .default dumpStream = .ok (manifestOf 0 dumpArchive) ∧
      ((∃ contents, readCrashRequest noXml .default dumpStream = .ok contents ∧
          contents.manifest = manifestOf 0 dumpArchive) ∨
        (∃ error, readCrashRequest noXml .default dumpStream = .error error ∧
          (error.kind = .invalidCrashContextUtf8 ∨ error.kind = .invalidCrashContext)) ∨
        (readCrashRequest noXml .default dumpStream = reject .fileTooLarge ∧
          ∃ file ∈ (manifestOf 0 dumpArchive).files, file.kind = .minidump ∧
            CrashRequestLimits.default.minidumpBytes < file.size)) := by
  have h := inspectCrashEnvelope_dumpStream (64 * 1024 * 1024)
  exact ⟨h, readCrashRequest_of_inspectCrashEnvelope noXml .default _ _ h⟩

/-- The capture caps retained minidumps, which the envelope check does not. -/
theorem readCrashRequest_refuses_dumpStream :
    ¬ ∀ (xmlParser : XmlParser) (limits : CrashRequestLimits) (input : CrashRequestStream)
        (manifest : CrashRequestManifest),
      inspectCrashEnvelope xmlParser limits input = .ok manifest →
      (∃ contents, readCrashRequest xmlParser limits input = .ok contents ∧
          contents.manifest = manifest) ∨
        (∃ error, readCrashRequest xmlParser limits input = .error error ∧
          (error.kind = .invalidCrashContextUtf8 ∨ error.kind = .invalidCrashContext)) := by
  intro h
  have hread : refusal (readCrashRequest noXml oneByteDumps dumpStream) = some .fileTooLarge := by
    decide +kernel
  rcases h noXml oneByteDumps _ _ (inspectCrashEnvelope_dumpStream 1) with
    ⟨contents, hc, -⟩ | ⟨error, he, hkind⟩
  · rw [hc] at hread
    cases hread
  · rw [he] at hread
    have hk : error.kind = .fileTooLarge := Option.some.inj hread
    rw [hk] at hkind
    rcases hkind with hkind | hkind <;> cases hkind

end FaultLane.CrashRequestModes

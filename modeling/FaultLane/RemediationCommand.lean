import FaultLane.ArtifactLimits
import FaultLane.PowerShellWords

set_option autoImplicit false

/-!
# The corrective command of an event

The command line that the detail of an event offers where symbols are missing, and what a
PowerShell makes of it. The release is one that a negotiation has accepted.
-/
namespace FaultLane.RemediationCommand
open RustText PowerShellWords ArtifactLimits

def maxSlugBytes : Nat := 63

def validSlug (value : String) : Bool :=
  value ≠ "" && value.utf8ByteSize ≤ maxSlugBytes && value.toList.head? != some '-' &&
    value.toList.getLast? != some '-' &&
    value.toList.all fun c => (0x61 ≤ c.toNat && c.toNat ≤ 0x7A) || isAsciiDigit c || c == '-'

/-- `format!("'{}'", value.replace('\'', "''"))` -/
def powershellLiteral (value : String) : Text :=
  [apostrophe] ++ (value.toList.flatMap fun c =>
    if c = apostrophe then [apostrophe, apostrophe] else [c]) ++ [apostrophe]

def remediationCommand (projectSlug release : String) (architecture configuration : Option String) :
    Text :=
  let command := "faultlane symbols upload ".toList ++ powershellLiteral "<build-directory>" ++
    " --project ".toList ++ powershellLiteral projectSlug ++
    " --release ".toList ++ powershellLiteral release
  let command := match architecture with
    | some architecture => command ++ " --architecture ".toList ++ powershellLiteral architecture
    | none => command
  match configuration with
  | some configuration => command ++ " --configuration ".toList ++ powershellLiteral configuration
  | none => command

/-- An option with its value, when there is one. -/
def optionWords (name : String) (value : Option String) : List String :=
  match value with
  | some value => [name, value]
  | none => []

/-- The words that the command stands for. -/
def commandWords (projectSlug release : String) (architecture configuration : Option String) :
    List String :=
  ["faultlane", "symbols", "upload", "<build-directory>", "--project", projectSlug, "--release",
    release] ++ optionWords "--architecture" architecture ++
      optionWords "--configuration" configuration

/-- It is read as one command of those words and nothing else. -/
def ReadAsMeant (projectSlug release : String) (architecture configuration : Option String) :
    Prop :=
  read .gap (remediationCommand projectSlug release architecture configuration) =
    some ((commandWords projectSlug release architecture configuration).map fun word =>
      .word word.toList)

def typographic (value : String) : Bool := value.toList.any isTypographicQuote

section pieces
variable {projectSlug release : String} {architecture configuration : Option String}

def optionPieces (name : String) (value : Option String) : List Piece :=
  match value with
  | some value => [.bare name.toList, .quoted value.toList]
  | none => []

def commandPieces (projectSlug release : String) (architecture configuration : Option String) :
    List Piece :=
  [.bare "faultlane".toList, .bare "symbols".toList, .bare "upload".toList,
    .quoted "<build-directory>".toList, .bare "--project".toList, .quoted projectSlug.toList,
    .bare "--release".toList, .quoted release.toList] ++
      optionPieces "--architecture" architecture ++ optionPieces "--configuration" configuration

theorem powershellLiteral_eq (value : String) : powershellLiteral value = quote value.toList := rfl

theorem spaced_commandPieces :
    ' ' :: remediationCommand projectSlug release architecture configuration =
      spaced (commandPieces projectSlug release architecture configuration) := by
  unfold remediationCommand spaced commandPieces
  simp only [powershellLiteral_eq]
  cases architecture <;> cases configuration <;>
    simp only [optionPieces, List.flatMap_cons, List.flatMap_nil,
      List.append_nil, Piece.text, List.append_assoc, List.cons_append, List.nil_append] <;>
    rfl

theorem values_commandPieces :
    (commandPieces projectSlug release architecture configuration).map (Token.word ·.value) =
      (commandWords projectSlug release architecture configuration).map fun word =>
        .word word.toList := by
  cases architecture <;> cases configuration <;> rfl

theorem plain_optionPieces {name : String} (hname : (Piece.bare name.toList).plain)
    (value : Option String) : ∀ p ∈ optionPieces name value, p.plain := by
  cases value with
  | none => exact nofun
  | some value => exact List.forall_mem_cons.mpr ⟨hname, List.forall_mem_singleton.mpr trivial⟩

theorem plain_commandPieces :
    ∀ p ∈ commandPieces projectSlug release architecture configuration, p.plain := by
  have hall : ∀ name ∈ ["faultlane", "symbols", "upload", "--project", "--release",
      "--architecture", "--configuration"], name.toList ≠ [] ∧ name.toList.all isPlain = true := by
    decide
  have hname : ∀ name ∈ ["faultlane", "symbols", "upload", "--project", "--release",
      "--architecture", "--configuration"], (Piece.bare name.toList).plain := fun name hmem =>
    ⟨(hall name hmem).1, List.all_eq_true.mp (hall name hmem).2⟩
  simp only [List.forall_mem_cons] at hname
  obtain ⟨hfaultlane, hsymbols, hupload, hproject, hrelease, harchitecture, hconfiguration, -⟩ :=
    hname
  unfold commandPieces
  simp only [List.forall_mem_append, List.forall_mem_cons]
  exact ⟨⟨⟨hfaultlane, hsymbols, hupload, trivial, hproject, trivial, hrelease, trivial, nofun⟩,
    plain_optionPieces harchitecture architecture⟩, plain_optionPieces hconfiguration configuration⟩

theorem clean_iff {value : String} : (Piece.quoted value.toList).clean ↔
    typographic value = false := by
  unfold Piece.clean typographic
  rw [List.any_eq_false]
  exact forall₂_congr fun _ _ => Bool.eq_false_iff

theorem clean_optionPieces {name : String} {value : Option String} :
    (∀ p ∈ optionPieces name value, p.clean) ↔ ∀ text ∈ value, typographic text = false := by
  cases value with
  | none => exact iff_of_true nofun nofun
  | some value =>
    change (∀ p ∈ [Piece.bare name.toList, .quoted value.toList], p.clean) ↔ _
    rw [List.forall_mem_cons, List.forall_mem_singleton, clean_iff]
    constructor
    · rintro ⟨-, h⟩ text ht
      rwa [← Option.some.inj ht]
    · intro h
      exact ⟨trivial, h value rfl⟩

/-- Which values the reader gives back. -/
theorem readAsMeant_iff : ReadAsMeant projectSlug release architecture configuration ↔
    (typographic projectSlug = false ∧ typographic release = false) ∧
      (∀ value ∈ architecture, typographic value = false) ∧
        ∀ value ∈ configuration, typographic value = false := by
  have hdirectory : typographic "<build-directory>" = false := by decide
  unfold ReadAsMeant
  rw [← values_commandPieces, ← read_space, spaced_commandPieces,
    read_spaced_iff plain_commandPieces]
  unfold commandPieces
  simp only [List.forall_mem_append, List.forall_mem_cons, clean_iff, clean_optionPieces]
  constructor
  · rintro ⟨⟨⟨-, -, -, -, -, hslug, -, hrelease, -⟩, harchitecture⟩, hconfiguration⟩
    exact ⟨⟨hslug, hrelease⟩, harchitecture, hconfiguration⟩
  · rintro ⟨⟨hslug, hrelease⟩, harchitecture, hconfiguration⟩
    exact ⟨⟨⟨trivial, trivial, trivial, hdirectory, trivial, hslug, trivial, hrelease, nofun⟩,
      harchitecture⟩, hconfiguration⟩

end pieces

/-! ## Accepted releases -/

theorem not_typographic_of_ascii {value : String} (h : ∀ c ∈ value.toList, c.toNat < 128) :
    typographic value = false := by
  unfold typographic
  rw [List.any_eq_false]
  intro c hc htypographic
  have hlt := h c hc
  unfold isTypographicQuote at htypographic
  simp only [Bool.and_eq_true, decide_eq_true_eq] at htypographic
  omega

theorem not_typographic_slug {value : String} (h : validSlug value = true) :
    typographic value = false := by
  refine not_typographic_of_ascii fun c hc => ?_
  have hall := (Bool.and_eq_true_iff.mp h).2
  have hchar := List.all_eq_true.mp hall c hc
  unfold isAsciiDigit at hchar
  simp only [Bool.or_eq_true, Bool.and_eq_true, decide_eq_true_eq, beq_iff_eq] at hchar
  rcases hchar with (hchar | hchar) | rfl
  · omega
  · omega
  · decide

theorem not_typographic_architecture {value : String} (h : validArchitecture value = true) :
    typographic value = false := by
  have hall : ∀ name ∈ ["x86", "x86_64", "arm64"], typographic name = false := by decide
  exact hall value (of_decide_eq_true h)

theorem tryFrom_release {parsesRfc3339 : String → Bool} {request : NegotiateRequest}
    {v : ValidatedNegotiation} (h : ValidatedNegotiation.tryFrom parsesRfc3339 request = some v) :
    v.release = request.release ∧ validArchitecture v.release.architecture = true := by
  unfold ValidatedNegotiation.tryFrom at h
  dsimp only at h
  split_ifs at h with hchecks
  obtain ⟨artifacts, -, h⟩ := Option.bind_eq_some_iff.mp h
  cases h
  refine ⟨rfl, ?_⟩
  by_contra harchitecture
  refine hchecks ?_
  rw [Bool.eq_false_iff.mpr harchitecture]
  simp only [Bool.not_false, Bool.or_true, Bool.true_or]

section accepted
variable {parsesRfc3339 : String → Bool} {request : NegotiateRequest} {v : ValidatedNegotiation}
variable {projectSlug : String} {architecture configuration : Option String}

/-- The command of an accepted release means what it says when and only when neither the version
nor the configuration has one of the four typographic quotes. -/
theorem remediationCommand_means_iff (hslug : validSlug projectSlug = true)
    (hv : ValidatedNegotiation.tryFrom parsesRfc3339 request = some v)
    (ha : ∀ value ∈ architecture, value = v.release.architecture)
    (hc : ∀ value ∈ configuration, value = v.release.configuration) :
    ReadAsMeant projectSlug v.release.version architecture configuration ↔
      typographic v.release.version = false ∧
        (configuration.isSome → typographic v.release.configuration = false) := by
  have harchitecture : ∀ value ∈ architecture, typographic value = false := by
    intro value hvalue
    rw [ha value hvalue]
    exact not_typographic_architecture (tryFrom_release hv).2
  rw [readAsMeant_iff]
  constructor
  · rintro ⟨⟨-, hrelease⟩, -, hconfiguration⟩
    refine ⟨hrelease, fun hsome => ?_⟩
    obtain ⟨value, hvalue⟩ := Option.isSome_iff_exists.mp hsome
    rw [← hc value hvalue]
    exact hconfiguration value hvalue
  · rintro ⟨hrelease, hconfiguration⟩
    refine ⟨⟨not_typographic_slug hslug, hrelease⟩, harchitecture, fun value hvalue => ?_⟩
    rw [hc value hvalue]
    exact hconfiguration (Option.isSome_iff_exists.mpr ⟨value, hvalue⟩)

end accepted

def releaseRequest (version : String) : NegotiateRequest :=
  { sampleRequest 10 with
    release := ⟨version, "windows", "x86_64", "Shipping", none, none, none⟩ }

theorem remediationCommand_means_apostrophe :
    ReadAsMeant "game" "1.0'b" (some "x86_64") (some "Shipping") := by
  have haccepted : (ValidatedNegotiation.tryFrom (fun _ => true)
      (releaseRequest "1.0'b")).isSome := by
    decide +kernel
  obtain ⟨v, hv⟩ := Option.isSome_iff_exists.mp haccepted
  have hrelease := (tryFrom_release hv).1
  have harchitecture : ∀ value ∈ some "x86_64", value = v.release.architecture := by
    rintro value ⟨⟩
    rw [hrelease]
    rfl
  have hconfiguration : ∀ value ∈ some "Shipping", value = v.release.configuration := by
    rintro value ⟨⟩
    rw [hrelease]
    rfl
  have hslug : validSlug "game" = true := by decide
  have hmeans := (remediationCommand_means_iff hslug hv harchitecture hconfiguration).mpr
  rw [hrelease] at hmeans
  exact hmeans ⟨by decide, fun _ => by decide⟩

/-- A version that ends its literal with U+2019 and opens another one with U+2018. -/
def piping : String :=
  "1.0" ++ String.ofList [Char.ofNat 0x2019] ++ ";calc;" ++ String.ofList [Char.ofNat 0x2018]

theorem not_means_piping : ¬ ∀ (parsesRfc3339 : String → Bool) (request : NegotiateRequest)
    (v : ValidatedNegotiation), ValidatedNegotiation.tryFrom parsesRfc3339 request = some v →
    ∀ (projectSlug : String) (architecture configuration : Option String),
      validSlug projectSlug = true → (∀ value ∈ architecture, value = v.release.architecture) →
      (∀ value ∈ configuration, value = v.release.configuration) →
      ReadAsMeant projectSlug v.release.version architecture configuration := by
  intro h
  have haccepted : (ValidatedNegotiation.tryFrom (fun _ => true)
      (releaseRequest piping)).isSome := by
    decide +kernel
  obtain ⟨v, hv⟩ := Option.isSome_iff_exists.mp haccepted
  have hrelease := (tryFrom_release hv).1
  have hmeans := h _ _ v hv "game" none none (by decide) nofun nofun
  rw [hrelease] at hmeans
  have hread : read .gap (remediationCommand "game" piping none none) =
      some ((["faultlane", "symbols", "upload", "<build-directory>", "--project", "game",
        "--release", "1.0"].map fun word => Token.word word.toList) ++
          [.other ';', .word "calc".toList, .other ';', .word []]) := by
    decide +kernel
  unfold ReadAsMeant at hmeans
  rw [show (releaseRequest piping).release.version = piping from rfl, hread] at hmeans
  revert hmeans
  decide +kernel

end FaultLane.RemediationCommand

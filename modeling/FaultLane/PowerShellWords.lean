import FaultLane.RustText

set_option autoImplicit false

/-!
# Words of a PowerShell command

The words of a command line, of which some stand between single quotes. Five characters are
single quotes. Any of them opens and closes a string, and two of them inside of it are one.
-/
namespace FaultLane.PowerShellWords
open RustText

def apostrophe : Char := Char.ofNat 0x27

/-- U+2018, U+2019, U+201A or U+201B. -/
def isTypographicQuote (c : Char) : Bool := 0x2018 ≤ c.toNat && c.toNat ≤ 0x201B

def isSingleQuote (c : Char) : Bool := c == apostrophe || isTypographicQuote c

/-- White space that parts words. The end of a line ends a command. -/
def isSpace (c : Char) : Bool := isWhitespace c && c.toNat ≠ 0x0A && c.toNat ≠ 0x0D

/-- The characters that are taken to stand for themselves outside of strings. -/
def isPlain (c : Char) : Bool := isAsciiAlphanumeric c || c == '-'

/-- What an open string holds, and what follows it. -/
def scan : Text → Option (Text × Text)
  | [] => none
  | [c] => if isSingleQuote c then some ([], []) else none
  | c :: d :: t =>
    if isSingleQuote c then
      if isSingleQuote d then (scan t).map fun r => (d :: r.1, r.2) else some ([], d :: t)
    else (scan (d :: t)).map fun r => (c :: r.1, r.2)

/-- What stands before the closing quote has two quotes for each one in the word. -/
theorem scan_eq_some {t word rest : Text} (h : scan t = some (word, rest)) :
    ∃ inner c, t = inner ++ c :: rest ∧ isSingleQuote c = true ∧
      inner.length = word.length + word.countP isSingleQuote ∧
      inner.countP isSingleQuote = 2 * word.countP isSingleQuote := by
  induction t using scan.induct generalizing word with
  | case1 => cases h
  | case2 c hc =>
    rw [scan, if_pos hc] at h
    cases h
    exact ⟨[], c, rfl, hc, rfl, rfl⟩
  | case3 c hc =>
    rw [scan, if_neg hc] at h
    cases h
  | case4 c d t hc hd ih =>
    rw [scan, if_pos hc, if_pos hd] at h
    obtain ⟨⟨w, r⟩, hr, heq⟩ := Option.map_eq_some_iff.mp h
    dsimp only at heq
    obtain ⟨rfl, rfl⟩ := Prod.mk.inj heq
    obtain ⟨inner, e, rfl, he, hlength, hcount⟩ := ih hr
    refine ⟨c :: d :: inner, e, rfl, he, ?_, ?_⟩
    · rw [List.length_cons, List.length_cons, List.length_cons, List.countP_cons_of_pos hd, hlength]
      omega
    · rw [List.countP_cons_of_pos hc, List.countP_cons_of_pos hd, List.countP_cons_of_pos hd,
        hcount]
      omega
  | case5 c d t hc hd =>
    rw [scan, if_pos hc, if_neg hd] at h
    cases h
    exact ⟨[], c, rfl, hc, rfl, rfl⟩
  | case6 c d t hc ih =>
    rw [scan, if_neg hc] at h
    obtain ⟨⟨w, r⟩, hr, heq⟩ := Option.map_eq_some_iff.mp h
    dsimp only at heq
    obtain ⟨rfl, rfl⟩ := Prod.mk.inj heq
    obtain ⟨inner, e, hinner, he, hlength, hcount⟩ := ih hr
    refine ⟨c :: inner, e, by rw [hinner]; rfl, he, ?_, ?_⟩
    · rw [List.length_cons, List.length_cons, List.countP_cons_of_neg hc, hlength]
      omega
    · rw [List.countP_cons_of_neg hc, List.countP_cons_of_neg hc, hcount]

/-- What the line is made of: words, and characters that belong to no plain word or string. -/
inductive Token where
  | word (text : Text)
  | other (c : Char)
  deriving DecidableEq, Repr

inductive Mode where
  | gap
  | bare (word : Text)
  | quoted (word : Text)

/-- A string that is not closed gives nothing. -/
def read : Mode → Text → Option (List Token)
  | .gap, [] => some []
  | .gap, c :: t =>
    if isSpace c then read .gap t
    else if isSingleQuote c then read (.quoted []) t
    else if isPlain c then read (.bare [c]) t
    else (read .gap t).map (.other c :: ·)
  | .bare word, [] => some [.word word]
  | .bare word, c :: t =>
    if isSpace c then (read .gap t).map (.word word :: ·)
    else if isPlain c then read (.bare (word ++ [c])) t
    else (read .gap t).map (.word word :: .other c :: ·)
  | .quoted _, [] => none
  | .quoted word, [c] => if isSingleQuote c then some [.word word] else none
  | .quoted word, c :: d :: t =>
    if isSingleQuote c then
      if isSingleQuote d then read (.quoted (word ++ [d])) t
      else (read .gap (d :: t)).map (.word word :: ·)
    else read (.quoted (word ++ [c])) (d :: t)

theorem read_quoted (word t : Text) : read (.quoted word) t =
    (scan t).bind fun r => (read .gap r.2).map (.word (word ++ r.1) :: ·) := by
  induction t using scan.induct generalizing word with
  | case1 => rfl
  | case2 c hc =>
    rw [read, scan, if_pos hc, if_pos hc, Option.bind_some, List.append_nil]
    rfl
  | case3 c hc =>
    rw [read, scan, if_neg hc, if_neg hc]
    rfl
  | case4 c d t hc hd ih =>
    rw [read, scan, if_pos hc, if_pos hc, if_pos hd, if_pos hd, ih, Option.bind_map]
    congr 1
    funext r
    rw [Function.comp_apply, List.append_assoc, List.singleton_append]
  | case5 c d t hc hd =>
    rw [read, scan, if_pos hc, if_pos hc, if_neg hd, if_neg hd, Option.bind_some, List.append_nil]
  | case6 c d t hc ih =>
    rw [read, scan, if_neg hc, if_neg hc, ih, Option.bind_map]
    congr 1
    funext r
    rw [Function.comp_apply, List.append_assoc, List.singleton_append]

/-! ## Strings in which only the apostrophe is doubled -/

def double (c : Char) : Text := if c = apostrophe then [apostrophe, apostrophe] else [c]

def quote (value : Text) : Text := apostrophe :: (value.flatMap double ++ [apostrophe])

section quotes
variable {value tail : Text}

theorem isSingleQuote_apostrophe : isSingleQuote apostrophe = true := by decide

theorem isSingleQuote_of_ne {c : Char} (hc : c ≠ apostrophe) :
    isSingleQuote c = isTypographicQuote c := by
  rw [isSingleQuote, beq_eq_false_iff_ne.mpr hc, Bool.false_or]

/-- No string is continued by what follows. -/
def Closes (tail : Text) : Prop := ∀ c ∈ tail.head?, isSingleQuote c = false

theorem scan_cons {c : Char} (hc : isSingleQuote c = false) (t : Text) :
    scan (c :: t) = (scan t).map fun r => (c :: r.1, r.2) := by
  cases t with
  | nil => exact if_neg (Bool.eq_false_iff.mp hc)
  | cons d t => rw [scan, if_neg (Bool.eq_false_iff.mp hc)]

theorem scan_close (h : Closes tail) : scan (apostrophe :: tail) = some ([], tail) := by
  cases tail with
  | nil => rw [scan, if_pos isSingleQuote_apostrophe]
  | cons d t =>
    have hd : isSingleQuote d = false := h d rfl
    rw [scan, if_pos isSingleQuote_apostrophe, hd, if_neg Bool.false_ne_true]

theorem scan_quote (h : Closes tail) (hv : ∀ c ∈ value, isTypographicQuote c = false) :
    scan (value.flatMap double ++ apostrophe :: tail) = some (value, tail) := by
  induction value with
  | nil => exact scan_close h
  | cons c value ih =>
    have hrest := ih fun d hd => hv d (List.mem_cons_of_mem c hd)
    rw [List.flatMap_cons, List.append_assoc, double]
    split_ifs with hc
    · rw [List.cons_append, List.cons_append, List.nil_append, scan,
        if_pos isSingleQuote_apostrophe, if_pos isSingleQuote_apostrophe, hrest, hc]
      rfl
    · have hplain : isSingleQuote c = false := by
        rw [isSingleQuote_of_ne hc]
        exact hv c List.mem_cons_self
      rw [List.singleton_append, scan_cons hplain, hrest]
      rfl

theorem length_double (value : Text) :
    (value.flatMap double).length = value.length + value.countP (· == apostrophe) := by
  induction value with
  | nil => rfl
  | cons c value ih =>
    rw [List.flatMap_cons, List.length_append, ih, List.length_cons, List.countP_cons, double]
    by_cases hc : c = apostrophe
    · rw [if_pos hc, if_pos (beq_iff_eq.mpr hc)]
      simp only [List.length_cons, List.length_nil]
      omega
    · rw [if_neg hc, if_neg (mt beq_iff_eq.mp hc)]
      simp only [List.length_cons, List.length_nil]
      omega

theorem countP_double (value : Text) : (value.flatMap double).countP isSingleQuote =
    2 * value.countP (· == apostrophe) + value.countP isTypographicQuote := by
  induction value with
  | nil => rfl
  | cons c value ih =>
    rw [List.flatMap_cons, List.countP_append, ih, List.countP_cons, List.countP_cons, double]
    by_cases hc : c = apostrophe
    · have htypographic : isTypographicQuote c = false := by
        rw [hc]
        decide
      rw [if_pos hc, if_pos (beq_iff_eq.mpr hc), htypographic, if_neg Bool.false_ne_true,
        List.countP_cons_of_pos isSingleQuote_apostrophe,
        List.countP_cons_of_pos isSingleQuote_apostrophe, List.countP_nil]
      omega
    · rw [if_neg hc, if_neg (mt beq_iff_eq.mp hc), List.countP_cons, List.countP_nil,
        isSingleQuote_of_ne hc]
      omega

theorem countP_isSingleQuote (value : Text) : value.countP isSingleQuote =
    value.countP (· == apostrophe) + value.countP isTypographicQuote := by
  induction value with
  | nil => rfl
  | cons c value ih =>
    rw [List.countP_cons, List.countP_cons, List.countP_cons, ih]
    by_cases hc : c = apostrophe
    · have htypographic : isTypographicQuote c = false := by
        rw [hc]
        decide
      rw [if_pos (hc ▸ isSingleQuote_apostrophe), if_pos (beq_iff_eq.mpr hc), htypographic,
        if_neg Bool.false_ne_true]
      omega
    · rw [if_neg (mt beq_iff_eq.mp hc), isSingleQuote_of_ne hc]
      omega

/-- A string that is read as the value it was made of has no typographic quotes. They would be
paired with one another, with the closing quote and with quotes that follow it, of which there
are none. -/
theorem clean_of_scan_quote (h : Closes tail) {rest : Text}
    (hscan : scan (value.flatMap double ++ apostrophe :: tail) = some (value, rest)) :
    ∀ c ∈ value, isTypographicQuote c = false := by
  obtain ⟨inner, e, hinner, he, hlength, hcount⟩ := scan_eq_some hscan
  have hdouble := length_double value
  have hquotes := countP_double value
  have hsingle := countP_isSingleQuote value
  by_contra hnot
  push Not at hnot
  obtain ⟨c, hc, htypographic⟩ := hnot
  have hpos : 0 < value.countP isTypographicQuote :=
    List.countP_pos_iff.mpr ⟨c, hc, Bool.ne_false_iff.mp htypographic⟩
  -- the string ends behind the closing quote
  have hlong : (value.flatMap double ++ [apostrophe]).length ≤ inner.length := by
    rw [List.length_append, List.length_singleton]
    omega
  have hwhole : value.flatMap double ++ [apostrophe] <+: inner ++ e :: rest := by
    rw [← hinner]
    exact ⟨tail, by rw [List.append_assoc]; rfl⟩
  have hprefix : value.flatMap double ++ [apostrophe] <+: inner :=
    List.prefix_of_prefix_length_le hwhole (List.prefix_append inner _) hlong
  obtain ⟨more, hmore⟩ := hprefix
  have htail : tail = more ++ e :: rest := by
    rw [← hmore, List.append_assoc, List.append_assoc] at hinner
    have heq := List.append_cancel_left hinner
    exact (List.cons.inj heq).2
  rw [← hmore, List.countP_append, List.countP_append,
    List.countP_cons_of_pos isSingleQuote_apostrophe, List.countP_nil] at hcount
  rw [← hmore, List.length_append, List.length_append, List.length_singleton] at hlength
  cases more with
  | nil =>
    rw [htail] at h
    have hne : isSingleQuote e = false := h e rfl
    rw [hne] at he
    cases he
  | cons d more =>
    rw [htail] at h
    have hd : isSingleQuote d = false := h d rfl
    have hle : more.countP isSingleQuote ≤ more.length := List.countP_le_length
    rw [List.countP_cons_of_neg (by rw [hd]; exact Bool.false_ne_true)] at hcount
    rw [List.length_cons] at hlength
    omega

end quotes

/-! ## Lines of plain words and quoted values -/

inductive Piece where
  | bare (word : Text)
  | quoted (value : Text)

def Piece.text : Piece → Text
  | .bare word => word
  | .quoted value => quote value

def Piece.value : Piece → Text
  | .bare word => word
  | .quoted value => value

/-- What stands for itself outside of strings, or a string. -/
def Piece.plain : Piece → Prop
  | .bare word => word ≠ [] ∧ ∀ c ∈ word, isPlain c = true
  | .quoted _ => True

/-- A plain word, or a value without typographic quotes. -/
def Piece.clean : Piece → Prop
  | .bare _ => True
  | .quoted value => ∀ c ∈ value, isTypographicQuote c = false

def spaced (pieces : List Piece) : Text := pieces.flatMap fun p => ' ' :: p.text

section lines
variable {pieces : List Piece}

theorem closes_spaced (pieces : List Piece) : Closes (spaced pieces) := by
  cases pieces with
  | nil => exact nofun
  | cons p rest =>
    rintro c ⟨⟩
    decide

theorem plain_not_space {c : Char} (hc : isPlain c = true) :
    isSpace c = false ∧ isSingleQuote c = false := by
  unfold isPlain isAsciiAlphanumeric isAsciiDigit at hc
  simp only [Bool.or_eq_true, Bool.and_eq_true, decide_eq_true_eq, beq_iff_eq] at hc
  have hbound : c.toNat < 0x7F ∧ 0x2D ≤ c.toNat := by
    rcases hc with ((hc | hc) | hc) | rfl
    · omega
    · omega
    · omega
    · decide
  constructor
  · have hwhite : isWhitespace c = false := by
      unfold isWhitespace
      simp only [Bool.or_eq_false_iff, Bool.and_eq_false_iff, decide_eq_false_iff_not,
        beq_eq_false_iff_ne, ne_eq]
      omega
    rw [isSpace, hwhite, Bool.false_and, Bool.false_and]
  · have hne : c ≠ apostrophe := by
      rintro rfl
      revert hbound
      decide
    rw [isSingleQuote_of_ne hne]
    unfold isTypographicQuote
    simp only [Bool.and_eq_false_iff, decide_eq_false_iff_not]
    omega

theorem read_bare {word more : Text} (h : ∀ c ∈ more, isPlain c = true)
    (pieces : List Piece) : read (.bare word) (more ++ spaced pieces) =
      (read .gap (spaced pieces)).map (.word (word ++ more) :: ·) := by
  induction more generalizing word with
  | nil =>
    rw [List.nil_append, List.append_nil]
    cases pieces with
    | nil => rfl
    | cons p rest =>
      have hspace : isSpace ' ' = true := by decide
      change read (.bare word) (' ' :: (p.text ++ spaced rest)) =
        (read .gap (' ' :: (p.text ++ spaced rest))).map _
      rw [read, read, if_pos hspace, if_pos hspace]
  | cons c more ih =>
    obtain ⟨hspace, -⟩ := plain_not_space (h c List.mem_cons_self)
    rw [List.cons_append, read, hspace, if_neg Bool.false_ne_true,
      if_pos (h c List.mem_cons_self), ih fun d hd => h d (List.mem_cons_of_mem c hd),
      List.append_assoc, List.singleton_append]

theorem read_space (t : Text) : read .gap (' ' :: t) = read .gap t := by
  rw [read, if_pos (by decide)]

theorem map_cons_eq_some {w v : Text} {x : Option (List Token)} {l : List Token} :
    x.map (.word w :: ·) = some (.word v :: l) ↔ w = v ∧ x = some l := by
  rw [Option.map_eq_some_iff]
  constructor
  · rintro ⟨y, rfl, heq⟩
    obtain ⟨hword, hrest⟩ := List.cons.inj heq
    exact ⟨Token.word.inj hword, congrArg some hrest⟩
  · rintro ⟨rfl, rfl⟩
    exact ⟨l, rfl, rfl⟩

/-- The line is read as its words and values when and only when no value has a typographic
quote. -/
theorem read_spaced_iff (hplain : ∀ p ∈ pieces, p.plain) :
    read .gap (spaced pieces) = some (pieces.map fun p => .word p.value) ↔
      ∀ p ∈ pieces, p.clean := by
  induction pieces with
  | nil => exact iff_of_true rfl nofun
  | cons p rest ih =>
    obtain ⟨hp, hrest⟩ := List.forall_mem_cons.mp hplain
    have hrest := ih hrest
    have htext : spaced (p :: rest) = ' ' :: (p.text ++ spaced rest) := rfl
    rw [htext, read_space, List.map_cons, List.forall_mem_cons, ← hrest]
    cases p with
    | bare word =>
      obtain ⟨hne, hplain⟩ := hp
      obtain ⟨c, more, rfl⟩ := List.exists_cons_of_ne_nil hne
      obtain ⟨hspace, hsingle⟩ := plain_not_space (hplain c List.mem_cons_self)
      rw [Piece.text, List.cons_append, read, hspace, if_neg Bool.false_ne_true, hsingle,
        if_neg Bool.false_ne_true, if_pos (hplain c List.mem_cons_self),
        read_bare (fun d hd => hplain d (List.mem_cons_of_mem c hd)), List.singleton_append]
      exact map_cons_eq_some.trans (and_congr_left' (iff_of_true rfl trivial))
    | quoted value =>
      have hquote : (Piece.quoted value).text ++ spaced rest =
          apostrophe :: (value.flatMap double ++ apostrophe :: spaced rest) := by
        rw [Piece.text, quote, List.cons_append, List.append_assoc, List.singleton_append]
      have hopen : isSpace apostrophe = false := by decide
      rw [hquote, read, hopen, if_neg Bool.false_ne_true, if_pos isSingleQuote_apostrophe,
        read_quoted]
      constructor
      · intro h
        obtain ⟨⟨word, after⟩, hscan, hread⟩ := Option.bind_eq_some_iff.mp h
        obtain ⟨rfl, hafter⟩ := map_cons_eq_some.mp hread
        have hclean := clean_of_scan_quote (closes_spaced rest) hscan
        rw [scan_quote (closes_spaced rest) hclean] at hscan
        cases hscan
        exact ⟨hclean, hafter⟩
      · rintro ⟨hclean, hread⟩
        rw [scan_quote (closes_spaced rest) hclean, Option.bind_some, hread]
        rfl

end lines
end FaultLane.PowerShellWords

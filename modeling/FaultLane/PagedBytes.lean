import Mathlib.Data.List.Infix
import Mathlib.Data.Nat.Digits.Defs

set_option autoImplicit false

/-!
# Byte files divided into pages

Little-endian words in a list of bytes, and contents that lie in a file page by page.
-/
namespace FaultLane.PagedBytes

/-! ## Words -/

def leValue (bytes : List UInt8) : Nat := Nat.ofDigits 256 (bytes.map UInt8.toNat)

def leBytes : Nat → Nat → List UInt8
  | 0, _ => []
  | width + 1, n => UInt8.ofNat (n % 256) :: leBytes width (n / 256)

theorem length_leBytes (width n : Nat) : (leBytes width n).length = width := by
  induction width generalizing n with
  | zero => rfl
  | succ width ih => rw [leBytes, List.length_cons, ih]

theorem leValue_leBytes {width n : Nat} (h : n < 256 ^ width) : leValue (leBytes width n) = n := by
  induction width generalizing n with
  | zero =>
    rw [pow_zero, Nat.lt_one_iff] at h
    rw [h]
    rfl
  | succ width ih =>
    have hrest : n / 256 < 256 ^ width := by
      rw [pow_succ] at h
      exact Nat.div_lt_of_lt_mul (by omega)
    have hbyte : (UInt8.ofNat (n % 256)).toNat = n % 256 :=
      UInt8.toNat_ofNat_of_lt' (Nat.mod_lt n (by decide))
    have hvalue : leValue (leBytes (width + 1) n) =
        (UInt8.ofNat (n % 256)).toNat + 256 * leValue (leBytes width (n / 256)) := rfl
    rw [hvalue, hbyte, ih hrest]
    exact Nat.mod_add_div n 256

/-- The words one after another, four bytes each. -/
def words (ws : List Nat) : List UInt8 := ws.flatMap (leBytes 4)

theorem words_append (ws ws' : List Nat) : words (ws ++ ws') = words ws ++ words ws' :=
  List.flatMap_append

theorem length_words (ws : List Nat) : (words ws).length = 4 * ws.length := by
  induction ws with
  | nil => rfl
  | cons w ws ih =>
    have hcons : words (w :: ws) = leBytes 4 w ++ words ws := rfl
    rw [hcons, List.length_append, length_leBytes, ih, List.length_cons]
    omega

/-- The word at an offset. -/
def WordAt (bytes : List UInt8) (offset w : Nat) : Prop :=
  w < 256 ^ 4 ∧ leBytes 4 w <+: bytes.drop offset

theorem WordAt.extend {bytes bytes' : List UInt8} {offset w : Nat} (h : WordAt bytes offset w)
    (hfront : bytes <+: bytes') : WordAt bytes' offset w :=
  ⟨h.1, h.2.trans (hfront.drop offset)⟩

theorem WordAt.take {bytes : List UInt8} {offset w n : Nat} (h : WordAt bytes offset w)
    (hn : offset + 4 ≤ n) : WordAt (bytes.take n) offset w := by
  refine ⟨h.1, ?_⟩
  rw [List.drop_take]
  refine List.prefix_take_iff.mpr ⟨h.2, ?_⟩
  rw [length_leBytes]
  omega

theorem WordAt.within {bytes : List UInt8} {offset w : Nat} (h : WordAt bytes offset w) :
    offset + 4 ≤ bytes.length := by
  have hlength := h.2.length_le
  rw [length_leBytes, List.length_drop] at hlength
  omega

theorem WordAt.value {bytes : List UInt8} {offset w : Nat} (h : WordAt bytes offset w) :
    leValue ((bytes.drop offset).take 4) = w := by
  have htake := List.prefix_iff_eq_take.mp h.2
  rw [length_leBytes] at htake
  rw [← htake]
  exact leValue_leBytes h.1

theorem wordAt_words {ws : List Nat} (h : ∀ w ∈ ws, w < 256 ^ 4) (before : List UInt8) {i w : Nat}
    (hw : ws[i]? = some w) : WordAt (before ++ words ws) (before.length + 4 * i) w := by
  obtain ⟨hi, rfl⟩ := List.getElem?_eq_some_iff.mp hw
  refine ⟨h _ (List.getElem_mem hi), ?_⟩
  have hsplit : ws = ws.take i ++ ws[i] :: ws.drop (i + 1) := by
    rw [← List.drop_eq_getElem_cons hi, List.take_append_drop]
  have hcons : words (ws[i] :: ws.drop (i + 1)) = leBytes 4 ws[i] ++ words (ws.drop (i + 1)) := rfl
  have hwords : words ws = words (ws.take i) ++ (leBytes 4 ws[i] ++ words (ws.drop (i + 1))) := by
    rw [← hcons, ← words_append, ← hsplit]
  have hlength : (words (ws.take i)).length = 4 * i := by
    rw [length_words, List.length_take, Nat.min_eq_left (Nat.le_of_lt hi)]
  rw [hwords, ← List.append_assoc, List.drop_left' (by rw [List.length_append, hlength])]
  exact List.prefix_append _ _

/-! ## Pages -/

/-- The pages that hold a number of bytes. -/
def pageCount (pageSize bytes : Nat) : Nat := (bytes + (pageSize - 1)) / pageSize

/-- The content lies in the file over the pages, each full but the last one. -/
def Stored (pageSize : Nat) (file : List UInt8) : List Nat → List UInt8 → Prop
  | [], content => content = []
  | page :: pages, content => content ≠ [] ∧
    content.take pageSize <+: file.drop (page * pageSize) ∧
      Stored pageSize file pages (content.drop pageSize)

instance (pageSize : Nat) (file : List UInt8) : (pages : List Nat) → (content : List UInt8) →
    Decidable (Stored pageSize file pages content)
  | [], content => inferInstanceAs (Decidable (content = []))
  | _ :: pages, content =>
    haveI := instDecidableStored pageSize file pages (content.drop pageSize)
    inferInstanceAs (Decidable (_ ∧ _ ∧ _))

section pages
variable {pageSize : Nat} {file content : List UInt8} {pages : List Nat}

theorem pageCount_zero (h : 0 < pageSize) : pageCount pageSize 0 = 0 :=
  Nat.div_eq_of_lt (by omega)

theorem pageCount_sub (h : 0 < pageSize) {bytes : Nat} (hbytes : 0 < bytes) :
    pageCount pageSize bytes = pageCount pageSize (bytes - pageSize) + 1 := by
  unfold pageCount
  by_cases hle : bytes ≤ pageSize
  · have hone : bytes + (pageSize - 1) = (bytes - 1) + pageSize := by omega
    rw [hone, Nat.add_div_right _ h, Nat.div_eq_of_lt (by omega), Nat.div_eq_of_lt (by omega)]
  · have hmore : bytes + (pageSize - 1) = (bytes - pageSize + (pageSize - 1)) + pageSize := by omega
    rw [hmore, Nat.add_div_right _ h]

theorem pageCount_eq_one {bytes : Nat} (hbytes : 0 < bytes) (hle : bytes ≤ pageSize) :
    pageCount pageSize bytes = 1 := by
  have h : 0 < pageSize := by omega
  rw [pageCount_sub h hbytes, Nat.sub_eq_zero_of_le hle, pageCount_zero h]

theorem Stored.length_pages (h : Stored pageSize file pages content) (hsize : 0 < pageSize) :
    pages.length = pageCount pageSize content.length := by
  induction pages generalizing content with
  | nil =>
    have hnil : content = [] := h
    rw [hnil, List.length_nil, List.length_nil, pageCount_zero hsize]
  | cons page pages ih =>
    obtain ⟨hne, -, hrest⟩ := h
    rw [List.length_cons, ih hrest, List.length_drop,
      ← pageCount_sub hsize (List.length_pos_iff.mpr hne)]

/-- The front of a content on its first page. -/
theorem Stored.first {page n : Nat} (h : Stored pageSize file (page :: pages) content)
    (hn : n ≤ pageSize) (hpos : 0 < n) : Stored pageSize file [page] (content.take n) := by
  obtain ⟨hne, hfront, -⟩ := h
  have hpositive := List.length_pos_iff.mpr hne
  refine ⟨?_, ?_, ?_⟩
  · apply List.ne_nil_of_length_pos
    rw [List.length_take]
    omega
  · rw [List.take_take, Nat.min_eq_right hn]
    exact (List.take_prefix_take_left hn).trans hfront
  · change List.drop pageSize (content.take n) = []
    apply List.drop_eq_nil_of_le
    rw [List.length_take]
    omega

end pages

end FaultLane.PagedBytes

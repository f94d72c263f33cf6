import FaultLane.PdbDebugHeader
import Mathlib.Tactic.Linarith

set_option autoImplicit false

/-!
# What the reader of a PDB header finds

On a file that is laid out in pages the reader follows the three levels to the beginning of
stream 3. On every other file it ends with an error or a value from inside the file.
-/
namespace FaultLane.PdbDebugHeader
open DumpSymbolication PagedBytes

/-! ## Steps -/

section steps
variable {α β : Type} {x : Outcome α} {f : α → Outcome β}

theorem ok_bind (a : α) (f : α → Outcome β) : Outcome.ok a >>= f = f a := rfl

theorem bind_eq_ok {b : β} : x >>= f = .ok b ↔ ∃ a, x = .ok a ∧ f a = .ok b := by
  constructor
  · intro h
    cases x with
    | ok a => exact ⟨a, rfl, h⟩
    | err code => cases h
    | fault reason => cases h
  · rintro ⟨a, rfl, h⟩
    exact h

theorem checkedAdd_ok {a b : Nat} (h : a + b < 2 ^ 64) : checkedAdd a b = .ok (a + b) := if_pos h

theorem checkedMul_ok {a b : Nat} (h : a * b < 2 ^ 64) : checkedMul a b = .ok (a * b) := if_pos h

theorem pagesNeeded_ok {bytes pageSize : Nat} (hsize : 0 < pageSize)
    (h : bytes + (pageSize - 1) < 2 ^ 64) :
    pagesNeeded bytes pageSize = .ok (pageCount pageSize bytes) := by
  unfold pagesNeeded
  rw [checkedAdd_ok h, ok_bind]
  exact if_neg (Nat.ne_of_gt hsize)

theorem getRange_ok {bytes : List UInt8} {start stop : Nat} (hle : start ≤ stop)
    (h : stop ≤ bytes.length) :
    getRange bytes start stop = some ((bytes.drop start).take (stop - start)) := if_pos ⟨hle, h⟩

theorem readUintAt_ok {bytes : List UInt8} {width offset : Nat}
    (h : offset + width ≤ bytes.length) (hsmall : offset + width < 2 ^ 64) :
    readUintAt width bytes offset = .ok (leValue ((bytes.drop offset).take width)) := by
  have hstop : saturatingAdd offset width = offset + width := Nat.min_eq_left (by
    unfold machineBits
    omega)
  have hlength : ((bytes.drop offset).take (offset + width - offset)).length = width := by
    rw [List.length_take, List.length_drop]
    omega
  unfold readUintAt
  rw [hstop, getRange_ok (Nat.le_add_right _ _) h]
  dsimp only
  rw [if_pos hlength, Nat.add_sub_cancel_left]

theorem readU32At_word {bytes : List UInt8} {offset w : Nat} (h : WordAt bytes offset w)
    (hsmall : offset + 4 < 2 ^ 64) : readU32At bytes offset = .ok w := by
  unfold readU32At
  rw [readUintAt_ok h.within hsmall, h.value]

theorem readPageNumber_word {bytes : List UInt8} {offset page pagesUsed : Nat}
    (h : WordAt bytes offset page) (hsmall : offset + 4 < 2 ^ 64) (hpos : 0 < page)
    (hlt : page < pagesUsed) : readPageNumber bytes offset pagesUsed = .ok page := by
  unfold readPageNumber
  rw [readU32At_word h hsmall, ok_bind]
  exact if_neg fun hout => by
    rcases hout with hzero | hle
    · exact Nat.ne_of_gt hpos hzero
    · exact Nat.not_le_of_lt hlt hle

theorem readFileBytes_ok {file : List UInt8} {offset bytes : Nat}
    (h : offset + bytes ≤ file.length) (hsmall : offset + bytes < 2 ^ 64) :
    readFileBytes file offset bytes file.length = .ok ((file.drop offset).take bytes) := by
  unfold readFileBytes
  rw [checkedAdd_ok hsmall, ok_bind, if_neg (Nat.not_lt.mpr h)]
  exact if_pos h

/-- A loop over an index that pushes the entries of a list. -/
theorem mapM_range {l : List α} {g : Nat → Outcome α}
    (h : ∀ i (hi : i < l.length), g i = .ok l[i]) : (List.range l.length).mapM g = .ok l := by
  induction l generalizing g with
  | nil => rfl
  | cons a l ih =>
    have hfirst := h 0 (Nat.succ_pos _)
    have hrest : (List.range l.length).mapM (g ∘ Nat.succ) = .ok l :=
      ih fun i hi => h (i + 1) (Nat.succ_lt_succ hi)
    rw [List.length_cons, List.range_succ_eq_map, List.mapM_cons, hfirst, ok_bind, List.mapM_map,
      hrest]
    rfl

/-- A loop that only checks. -/
theorem forM_ok {l : List α} {g : α → Outcome PUnit} (h : ∀ a ∈ l, g a = .ok ⟨⟩) :
    l.forM g = .ok ⟨⟩ := by
  induction l with
  | nil => rfl
  | cons a l ih =>
    have hrest := ih fun b hb => h b (List.mem_cons_of_mem _ hb)
    have hcons : (a :: l).forM g = (g a >>= fun _ => l.forM g) := rfl
    rw [hcons, h a List.mem_cons_self, ok_bind]
    exact hrest

end steps

/-! ## Pages -/

theorem readPdbPages_stored {file content : List UInt8} {pages : List Nat} {pageSize : Nat}
    (h : Stored pageSize file pages content) (hsize : 0 < pageSize)
    (hmax : pageSize ≤ maxPdbPageBytes) (hcontent : content.length < 2 ^ 32)
    (hpages : ∀ page ∈ pages, page < 2 ^ 32) :
    readPdbPages file pages pageSize content.length file.length = .ok content := by
  unfold maxPdbPageBytes at hmax
  have hfold (rest : List UInt8) (pages : List Nat) (hrest : Stored pageSize file pages rest)
      (hpages : ∀ page ∈ pages, page < 2 ^ 32) (output : List UInt8)
      (hlength : content.length = output.length + rest.length) :
      pages.foldlM (fun output page => do
        let remaining := content.length - output.length
        let chunkBytes := min remaining pageSize
        let pageOffset ← checkedMul page pageSize
        let chunk ← readFileBytes file pageOffset chunkBytes file.length
        pure (output ++ chunk)) output = Outcome.ok (output ++ rest) := by
    induction pages generalizing rest output with
    | nil =>
      have hnil : rest = [] := hrest
      rw [hnil, List.append_nil]
      rfl
    | cons page pages ih =>
      obtain ⟨hne, hfront, htail⟩ := hrest
      have hpage := hpages page List.mem_cons_self
      have hoffset : page * pageSize ≤ 2 ^ 32 * 2 ^ 16 :=
        Nat.mul_le_mul (Nat.le_of_lt hpage) hmax
      have hchunk : min (content.length - output.length) pageSize =
          (rest.take pageSize).length := by
        rw [List.length_take, hlength, Nat.add_sub_cancel_left, Nat.min_comm]
      have hread : (file.drop (page * pageSize)).take (rest.take pageSize).length =
          rest.take pageSize := (List.prefix_iff_eq_take.mp hfront).symm
      have hinside := hfront.length_le
      have hpositive : 0 < (rest.take pageSize).length := by
        rw [List.length_take]
        have := List.length_pos_iff.mpr hne
        omega
      rw [List.length_drop] at hinside
      have hsmall : (rest.take pageSize).length ≤ pageSize := List.length_take_le _ _
      rw [List.foldlM_cons]
      dsimp only
      rw [hchunk, checkedMul_ok (by omega), ok_bind, readFileBytes_ok (by omega) (by omega),
        ok_bind, hread]
      change pages.foldlM _ (output ++ rest.take pageSize) = _
      have hall := ih (rest.drop pageSize) htail (fun p hp => hpages p (List.mem_cons_of_mem _ hp))
        (output ++ rest.take pageSize) (by
          rw [hlength, List.length_append, List.length_drop, List.length_take]
          omega)
      rw [List.append_assoc, List.take_append_drop] at hall
      exact hall
  unfold readPdbPages
  have hcount := h.length_pages hsize
  rw [pagesNeeded_ok hsize (by omega), ok_bind, ← hcount, if_neg (Nat.lt_irrefl _),
    List.take_length]
  exact hfold content pages h hpages [] (by rw [List.length_nil, Nat.zero_add])

/-! ## Laid out files -/

structure MsfStream where
  content : Option (List UInt8)
  pages : List Nat

/-- The size of a stream in the directory. -/
def MsfStream.size (s : MsfStream) : Nat := s.content.elim u32Max List.length

def MsfStream.bytes (s : MsfStream) : List UInt8 := s.content.getD []

/-- The contents of an MSF 7.00 file and the pages they are given. -/
structure Msf where
  pageSize : Nat
  freePageMap : Nat
  pagesUsed : Nat
  reserved : Nat
  blockMapPages : List Nat
  directoryPages : List Nat
  streams : List MsfStream

section layout
variable (m : Msf)

def Msf.directoryWords : List Nat :=
  (m.streams.length :: m.streams.map MsfStream.size) ++ m.streams.flatMap MsfStream.pages

def Msf.directory : List UInt8 := words m.directoryWords

def Msf.blockMap : List UInt8 := words m.directoryPages

def Msf.headerWords : List Nat :=
  [m.pageSize, m.freePageMap, m.pagesUsed, m.directory.length, m.reserved] ++ m.blockMapPages

def Msf.header : List UInt8 := pdbMagic ++ words m.headerWords

def Msf.pages : List Nat :=
  m.blockMapPages ++ m.directoryPages ++ m.streams.flatMap MsfStream.pages

/-- The file holds the header at its beginning and each content on its pages. -/
structure Msf.LaidOut (file : List UInt8) : Prop where
  header : m.header <+: file
  blockMap : Stored m.pageSize file m.blockMapPages m.blockMap
  directory : Stored m.pageSize file m.directoryPages m.directory
  streams : ∀ s ∈ m.streams, Stored m.pageSize file s.pages s.bytes
  pages : ∀ page ∈ m.pages, 0 < page ∧ page < m.pagesUsed
  size : m.pagesUsed * m.pageSize ≤ file.length
  headerWords : ∀ w ∈ m.headerWords, w < 256 ^ 4
  streamCount : m.streams.length < 256 ^ 4
  streamSizes : ∀ s ∈ m.streams, ∀ content ∈ s.content, content.length < u32Max

/-- The limits of the reader on the page size, the file and its metadata. -/
structure Msf.WithinLimits (file : List UInt8) : Prop where
  pageSize : m.pageSize.isPowerOfTwo ∧ 0x100 ≤ m.pageSize ∧ m.pageSize ≤ maxPdbPageBytes
  file : pdbHeaderBytes ≤ file.length
  directory : m.directory.length ≤ maxMetadataReadBytes
  blockMap : pdbRawHeaderBytes + 4 * m.blockMapPages.length ≤ pdbHeaderBytes

end layout

section laidOut
variable {m : Msf} {file : List UInt8}

theorem length_directory : m.directory.length = 4 * m.directoryWords.length :=
  length_words _

theorem Msf.LaidOut.directory_ne_nil (h : m.LaidOut file) : m.directoryPages ≠ [] := by
  intro hnil
  have hstored := h.directory
  rw [hnil] at hstored
  have hempty : m.directory = [] := hstored
  have hlength := length_directory (m := m)
  rw [hempty] at hlength
  exact absurd hlength (by simp [directoryWords])

theorem Msf.LaidOut.pagesUsed_pos (h : m.LaidOut file) : 0 < m.pagesUsed := by
  obtain ⟨page, hpage⟩ := List.exists_mem_of_ne_nil _ h.directory_ne_nil
  have hin := h.pages page
    (List.mem_append_left _ (List.mem_append_right _ hpage))
  omega

/-- A word of the header that lies within the part that is read. -/
theorem Msf.LaidOut.headerWord (h : m.LaidOut file) {i w : Nat}
    (hw : m.headerWords[i]? = some w) (hread : 32 + 4 * i + 4 ≤ pdbHeaderBytes) :
    WordAt (file.take pdbHeaderBytes) (32 + 4 * i) w :=
  ((wordAt_words h.headerWords pdbMagic hw).extend h.header).take hread

theorem Msf.LaidOut.parsePdbLayout (h : m.LaidOut file) :
    parsePdbLayout (file.take pdbHeaderBytes) file.length =
      if m.pageSize.isPowerOfTwo ∧ (0x100 ≤ m.pageSize ∧ m.pageSize ≤ maxPdbPageBytes) ∧
        m.directory.length ≤ maxMetadataReadBytes then
        .ok ⟨m.pageSize, m.pagesUsed, m.directory.length, file.length⟩
      else .err .malformed := by
  have hmagic : getRange (file.take pdbHeaderBytes) 0 pdbMagic.length = some pdbMagic := by
    have hfront : pdbMagic <+: file.take pdbHeaderBytes :=
      List.prefix_take_iff.mpr ⟨(List.prefix_append _ _).trans h.header, by decide⟩
    rw [getRange_ok (Nat.zero_le _) hfront.length_le]
    exact congrArg some (List.prefix_iff_eq_take.mp hfront).symm
  have hword {i : Nat} (hi : i < 5) {w : Nat} (hw : m.headerWords[i]? = some w) :
      readU32At (file.take pdbHeaderBytes) (32 + 4 * i) = .ok w :=
    readU32At_word (h.headerWord hw (by unfold pdbHeaderBytes; omega)) (by omega)
  have hsize : readU32At (file.take pdbHeaderBytes) 32 = .ok m.pageSize :=
    hword (i := 0) (by decide) rfl
  have hused : readU32At (file.take pdbHeaderBytes) 40 = .ok m.pagesUsed :=
    hword (i := 2) (by decide) rfl
  have hbytes : readU32At (file.take pdbHeaderBytes) 44 = .ok m.directory.length :=
    hword (i := 3) (by decide) rfl
  have hpositive := h.pagesUsed_pos
  unfold PdbDebugHeader.parsePdbLayout
  rw [if_neg (by rw [hmagic]; exact not_not_intro rfl), hsize, ok_bind, hused, ok_bind, hbytes,
    ok_bind]
  by_cases hlimits : m.pageSize.isPowerOfTwo ∧ (0x100 ≤ m.pageSize ∧
      m.pageSize ≤ maxPdbPageBytes) ∧ m.directory.length ≤ maxMetadataReadBytes
  · have hgood : ¬ (¬ m.pageSize.isPowerOfTwo ∨ ¬ (0x100 ≤ m.pageSize ∧
        m.pageSize ≤ maxPdbPageBytes) ∨ m.pagesUsed = 0 ∨
          maxMetadataReadBytes < m.directory.length) := by
      rintro (hbad | hbad | hbad | hbad)
      · exact hbad hlimits.1
      · exact hbad hlimits.2.1
      · exact Nat.ne_of_gt hpositive hbad
      · exact Nat.not_lt.mpr hlimits.2.2 hbad
    have hin : m.pagesUsed ∈ m.headerWords := by simp [Msf.headerWords]
    have hsmall : m.pagesUsed * m.pageSize < 2 ^ 64 := by
      have hle : m.pagesUsed * m.pageSize ≤ 256 ^ 4 * (64 * 1024) :=
        Nat.mul_le_mul (Nat.le_of_lt (h.headerWords _ hin)) hlimits.2.1.2
      omega
    rw [if_neg hgood, if_pos hlimits, checkedMul_ok hsmall, ok_bind,
      if_neg (Nat.not_lt.mpr h.size)]
  · have hbad : ¬ m.pageSize.isPowerOfTwo ∨ ¬ (0x100 ≤ m.pageSize ∧
        m.pageSize ≤ maxPdbPageBytes) ∨ m.pagesUsed = 0 ∨
          maxMetadataReadBytes < m.directory.length := by
      by_contra hgood
      push Not at hgood
      exact hlimits ⟨hgood.1, hgood.2.1, hgood.2.2.2⟩
    rw [if_pos hbad, if_neg hlimits]

theorem Msf.LaidOut.page_lt (h : m.LaidOut file) {page : Nat} (hpage : page ∈ m.pages) :
    0 < page ∧ page < m.pagesUsed ∧ page < 2 ^ 32 := by
  obtain ⟨hpos, hlt⟩ := h.pages page hpage
  have hin : m.pagesUsed ∈ m.headerWords := by simp [Msf.headerWords]
  have hused := h.headerWords _ hin
  exact ⟨hpos, hlt, by omega⟩

/-- The block map leads to the directory. -/
theorem Msf.LaidOut.readPdbDirectory (h : m.LaidOut file) (hpos : 0 < m.pageSize)
    (hmax : m.pageSize ≤ maxPdbPageBytes) (hdirectory : m.directory.length ≤ maxMetadataReadBytes)
    (hfile : pdbHeaderBytes ≤ file.length) :
    readPdbDirectory file (file.take pdbHeaderBytes)
        ⟨m.pageSize, m.pagesUsed, m.directory.length, file.length⟩ =
      if pdbRawHeaderBytes + 4 * m.blockMapPages.length ≤ pdbHeaderBytes then .ok m.directory
      else .err .malformed := by
  have hdirectory' : m.directory.length ≤ 2 ^ 24 := hdirectory
  have hmax' : m.pageSize ≤ 2 ^ 16 := hmax
  have hpages := h.directory.length_pages hpos
  have hfew : m.directoryPages.length ≤ 2 ^ 24 + 2 ^ 16 := by
    rw [hpages]
    refine (Nat.div_le_self _ _).trans ?_
    omega
  have hmap : m.blockMap.length = m.directoryPages.length * 4 := by
    rw [Msf.blockMap, length_words, Nat.mul_comm]
  have hmapPages := h.blockMap.length_pages hpos
  rw [hmap] at hmapPages
  have hmapFew : m.blockMapPages.length ≤ 2 ^ 27 := by
    rw [hmapPages]
    refine (Nat.div_le_self _ _).trans ?_
    omega
  have hheader : (file.take pdbHeaderBytes).length = pdbHeaderBytes := by
    rw [List.length_take, Nat.min_eq_left hfile]
  unfold PdbDebugHeader.readPdbDirectory
  dsimp only
  rw [pagesNeeded_ok hpos (by omega), ok_bind, ← hpages, checkedMul_ok (by omega), ok_bind,
    pagesNeeded_ok hpos (by omega), ok_bind, ← hmapPages, checkedMul_ok (by omega), ok_bind,
    checkedAdd_ok (by unfold pdbRawHeaderBytes; omega), ok_bind, hheader]
  by_cases hfit : pdbRawHeaderBytes + 4 * m.blockMapPages.length ≤ pdbHeaderBytes
  · have hblockMap : ((List.range m.blockMapPages.length).mapM fun index => do
        let offset ← checkedAdd pdbRawHeaderBytes (← checkedMul index 4)
        readPageNumber (file.take pdbHeaderBytes) offset m.pagesUsed) = .ok m.blockMapPages := by
      apply mapM_range
      intro i hi
      have hmem : m.blockMapPages[i] ∈ m.pages :=
        List.mem_append_left _ (List.mem_append_left _ (List.getElem_mem hi))
      obtain ⟨hpage, hlt, -⟩ := h.page_lt hmem
      have hat : m.headerWords[i + 5]? = some m.blockMapPages[i] := List.getElem?_eq_getElem hi
      have hword := h.headerWord hat (by unfold pdbRawHeaderBytes at hfit; omega)
      have hoffset : 32 + 4 * (i + 5) = pdbRawHeaderBytes + i * 4 := by
        unfold pdbRawHeaderBytes
        omega
      rw [hoffset] at hword
      rw [checkedMul_ok (by omega), ok_bind,
        checkedAdd_ok (by unfold pdbRawHeaderBytes; omega), ok_bind]
      exact readPageNumber_word hword (by unfold pdbRawHeaderBytes; omega) hpage hlt
    have htable : ((List.range m.directoryPages.length).mapM fun index => do
        let offset ← checkedMul index 4
        readPageNumber m.blockMap offset m.pagesUsed) = .ok m.directoryPages := by
      apply mapM_range
      intro i hi
      have hmem : m.directoryPages[i] ∈ m.pages :=
        List.mem_append_left _ (List.mem_append_right _ (List.getElem_mem hi))
      obtain ⟨hpage, hlt, -⟩ := h.page_lt hmem
      have hwords : ∀ w ∈ m.directoryPages, w < 256 ^ 4 := fun w hw =>
        (h.page_lt (List.mem_append_left _ (List.mem_append_right _ hw))).2.2
      have hword := wordAt_words hwords [] (List.getElem?_eq_getElem hi)
      rw [List.nil_append, List.length_nil, Nat.zero_add, Nat.mul_comm] at hword
      rw [checkedMul_ok (by omega), ok_bind]
      exact readPageNumber_word hword (by omega) hpage hlt
    have hreadMap := readPdbPages_stored h.blockMap hpos hmax (by omega) fun page hpage =>
      (h.page_lt (List.mem_append_left _ (List.mem_append_left _ hpage))).2.2
    rw [hmap] at hreadMap
    rw [if_neg (by omega), if_pos hfit, hblockMap, ok_bind, hreadMap, ok_bind, htable, ok_bind]
    exact readPdbPages_stored h.directory hpos hmax (by omega) fun page hpage =>
      (h.page_lt (List.mem_append_left _ (List.mem_append_right _ hpage))).2.2
  · rw [if_pos (by omega), if_neg hfit]

theorem Msf.LaidOut.directoryWord (h : m.LaidOut file) {i w : Nat}
    (hw : m.directoryWords[i]? = some w) : WordAt m.directory (4 * i) w := by
  have hwords : ∀ w ∈ m.directoryWords, w < 256 ^ 4 := by
    intro w hw
    rcases List.mem_append.mp hw with hw | hw
    · rcases List.mem_cons.mp hw with rfl | hw
      · exact h.streamCount
      · obtain ⟨s, hs, rfl⟩ := List.mem_map.mp hw
        unfold MsfStream.size
        cases hcontent : s.content with
        | none => exact (by decide : u32Max < 256 ^ 4)
        | some content => exact (h.streamSizes s hs content hcontent).trans (by decide)
    · exact (h.page_lt (List.mem_append_right _ hw)).2.2
  have hword := wordAt_words hwords [] hw
  rw [List.nil_append, List.length_nil, Nat.zero_add] at hword
  exact hword

theorem Msf.LaidOut.streamSize (h : m.LaidOut file) {i : Nat} {s : MsfStream}
    (hs : m.streams[i]? = some s) : streamSize m.directory i = .ok s.size := by
  obtain ⟨hi, -⟩ := List.getElem?_eq_some_iff.mp hs
  have hcount := h.streamCount
  have hat : m.directoryWords[i + 1]? = some s.size := by
    have hsizes : (m.streams.map MsfStream.size)[i]? = some s.size := by
      rw [List.getElem?_map, hs]
      rfl
    unfold Msf.directoryWords
    rw [List.getElem?_append_left (by rw [List.length_cons, List.length_map]; omega),
      List.getElem?_cons_succ, hsizes]
  have hword := h.directoryWord hat
  have hoffset : 4 * (i + 1) = 4 + i * 4 := by omega
  rw [hoffset] at hword
  unfold PdbDebugHeader.streamSize
  rw [checkedMul_ok (by omega), ok_bind, checkedAdd_ok (by omega), ok_bind]
  exact readU32At_word hword (by omega)

/-- The pages of a stream that is not nil. -/
theorem Msf.LaidOut.pagesNeeded (h : m.LaidOut file) (hpos : 0 < m.pageSize)
    (hmax : m.pageSize ≤ maxPdbPageBytes) {s : MsfStream} (hs : s ∈ m.streams)
    {content : List UInt8} (hcontent : s.content = some content) :
    pagesNeeded content.length m.pageSize = .ok s.pages.length ∧ s.pages.length ≤ 2 ^ 33 := by
  have hmax' : m.pageSize ≤ 2 ^ 16 := hmax
  have hlength : content.length < 2 ^ 32 :=
    (h.streamSizes s hs content hcontent).trans (by decide)
  have hpages := (h.streams s hs).length_pages hpos
  rw [MsfStream.bytes, hcontent, Option.getD_some] at hpages
  refine ⟨?_, ?_⟩
  · rw [pagesNeeded_ok hpos (by omega), ← hpages]
  · rw [hpages]
    refine (Nat.div_le_self _ _).trans ?_
    omega

/-- The pages of a stream are counted, none for a nil stream. -/
theorem Msf.LaidOut.addPages (h : m.LaidOut file) (hpos : 0 < m.pageSize)
    (hmax : m.pageSize ≤ maxPdbPageBytes) {i n : Nat} {s : MsfStream}
    (hs : m.streams[i]? = some s) (hn : n ≤ 2 ^ 40) :
    (do
      let size ← PdbDebugHeader.streamSize m.directory i
      if size ≠ u32Max then checkedAdd n (← PdbDebugHeader.pagesNeeded size m.pageSize)
      else pure n) = Outcome.ok (n + s.pages.length) ∧ s.pages.length ≤ 2 ^ 33 := by
  have hmem := List.mem_of_getElem? hs
  rw [h.streamSize hs, ok_bind]
  cases hcontent : s.content with
  | none =>
    have hsize : s.size = u32Max := by
      unfold MsfStream.size
      rw [hcontent]
      rfl
    have hpages := (h.streams s hmem).length_pages hpos
    rw [MsfStream.bytes, hcontent, Option.getD_none, List.length_nil, pageCount_zero hpos] at hpages
    rw [if_neg (not_not_intro hsize), hpages]
    exact ⟨rfl, Nat.zero_le _⟩
  | some content =>
    have hsize : s.size = content.length := by
      unfold MsfStream.size
      rw [hcontent]
      rfl
    obtain ⟨hneeded, hfew⟩ := h.pagesNeeded hpos hmax hmem hcontent
    have hlt := h.streamSizes s hmem content hcontent
    rw [hsize, if_pos (Nat.ne_of_lt hlt), hneeded, ok_bind, checkedAdd_ok (by omega)]
    exact ⟨rfl, hfew⟩

/-- The page numbers before those of a stream. -/
def Msf.preceding (m : Msf) (i : Nat) : Nat :=
  ((m.streams.take i).flatMap MsfStream.pages).length

theorem preceding_succ {i : Nat} {s : MsfStream} (hs : m.streams[i]? = some s) :
    m.preceding (i + 1) = m.preceding i + s.pages.length := by
  unfold Msf.preceding
  rw [List.take_add_one, hs, Option.toList_some, List.flatMap_append, List.length_append,
    List.flatMap_singleton]

/-- The page numbers of a stream in the directory. -/
theorem directoryWords_pages {i : Nat} {s : MsfStream} (hs : m.streams[i]? = some s) :
    ∃ after, m.directoryWords = (m.streams.length :: m.streams.map MsfStream.size ++
      (m.streams.take i).flatMap MsfStream.pages) ++ (s.pages ++ after) := by
  obtain ⟨hi, hget⟩ := List.getElem?_eq_some_iff.mp hs
  refine ⟨(m.streams.drop (i + 1)).flatMap MsfStream.pages, ?_⟩
  have hsplit : m.streams = m.streams.take i ++ s :: m.streams.drop (i + 1) := by
    rw [← hget, ← List.drop_eq_getElem_cons hi, List.take_append_drop]
  have hflat : m.streams.flatMap MsfStream.pages = (m.streams.take i).flatMap MsfStream.pages ++
      (s.pages ++ (m.streams.drop (i + 1)).flatMap MsfStream.pages) := by
    rw [← List.flatMap_cons, ← List.flatMap_append, ← hsplit]
  unfold Msf.directoryWords
  rw [hflat, List.append_assoc]

/-- The loop over the streams before stream 3. -/
theorem Msf.LaidOut.precedingPages (h : m.LaidOut file) (hpos : 0 < m.pageSize)
    (hmax : m.pageSize ≤ maxPdbPageBytes) (hcount : pdbDbiStream < m.streams.length) :
    (List.range pdbDbiStream).foldlM (fun precedingPages stream => do
        let size ← PdbDebugHeader.streamSize m.directory stream
        if size ≠ u32Max then
          checkedAdd precedingPages (← PdbDebugHeader.pagesNeeded size m.pageSize)
        else pure precedingPages) 0 = Outcome.ok (m.preceding pdbDbiStream) := by
  have hget (i : Nat) (hi : i < m.streams.length) : ∃ s, m.streams[i]? = some s :=
    ⟨_, List.getElem?_eq_getElem hi⟩
  unfold pdbDbiStream at hcount
  obtain ⟨s0, hs0⟩ := hget 0 (by omega)
  obtain ⟨s1, hs1⟩ := hget 1 (by omega)
  obtain ⟨s2, hs2⟩ := hget 2 (by omega)
  have hzero : m.preceding 0 = 0 := rfl
  obtain ⟨hadd0, hfew0⟩ := h.addPages hpos hmax hs0 (n := m.preceding 0) (by omega)
  rw [← preceding_succ hs0, hzero] at hadd0
  have hone : m.preceding 1 = m.preceding 0 + s0.pages.length := preceding_succ hs0
  obtain ⟨hadd1, hfew1⟩ := h.addPages hpos hmax hs1 (n := m.preceding 1) (by omega)
  rw [← preceding_succ hs1] at hadd1
  have htwo : m.preceding 2 = m.preceding 1 + s1.pages.length := preceding_succ hs1
  obtain ⟨hadd2, hfew2⟩ := h.addPages hpos hmax hs2 (n := m.preceding 2) (by omega)
  rw [← preceding_succ hs2] at hadd2
  change List.foldlM _ 0 [0, 1, 2] = _
  rw [List.foldlM_cons, hadd0, ok_bind, List.foldlM_cons, hadd1, ok_bind, List.foldlM_cons, hadd2]
  rfl

/-- The directory leads to the first page of stream 3. -/
theorem Msf.LaidOut.pdbStreamFirstPage (h : m.LaidOut file) (hpos : 0 < m.pageSize)
    (hmax : m.pageSize ≤ maxPdbPageBytes) (hdirectory : m.directory.length ≤ maxMetadataReadBytes)
    {s : MsfStream} (hs : m.streams[pdbDbiStream]? = some s) {dbi : List UInt8}
    (hdbi : s.content = some dbi) (hlong : pdbDbiHeaderBytes ≤ dbi.length) :
    ∃ page pages, s.pages = page :: pages ∧
      pdbStreamFirstPage m.directory ⟨m.pageSize, m.pagesUsed, m.directory.length, file.length⟩ =
        .ok page := by
  have hdirectory' : m.directory.length ≤ 2 ^ 24 := hdirectory
  have hmem := List.mem_of_getElem? hs
  have hcount : pdbDbiStream < m.streams.length := (List.getElem?_eq_some_iff.mp hs).1
  obtain ⟨hneeded, -⟩ := h.pagesNeeded hpos hmax hmem hdbi
  have hsize : s.size = dbi.length := by
    unfold MsfStream.size
    rw [hdbi]
    rfl
  have hlt := h.streamSizes s hmem dbi hdbi
  have hcountWord : readU32At m.directory 0 = .ok m.streams.length :=
    readU32At_word (h.directoryWord (i := 0) rfl) (by decide)
  obtain ⟨after, hwords⟩ := directoryWords_pages hs
  have hbefore : (m.streams.length :: m.streams.map MsfStream.size ++
      (m.streams.take pdbDbiStream).flatMap MsfStream.pages).length =
        m.streams.length + 1 + m.preceding pdbDbiStream := by
    rw [List.length_append, List.length_cons, List.length_map, Msf.preceding]
  have htotal : m.directory.length = 4 * (m.streams.length + 1 + m.preceding pdbDbiStream +
      (s.pages.length + after.length)) := by
    rw [length_directory, hwords, List.length_append, hbefore, List.length_append]
  have hnumber (i : Nat) (hi : i < s.pages.length) : readPageNumber m.directory
      (4 + m.streams.length * 4 + m.preceding pdbDbiStream * 4 + 4 * i) m.pagesUsed =
        .ok s.pages[i] := by
    have hat : m.directoryWords[m.streams.length + 1 + m.preceding pdbDbiStream + i]? =
        some s.pages[i] := by
      rw [hwords, ← hbefore, List.getElem?_append_right (Nat.le_add_right _ _),
        Nat.add_sub_cancel_left, List.getElem?_append_left hi, List.getElem?_eq_getElem hi]
    have hword := h.directoryWord hat
    have hoffset : 4 * (m.streams.length + 1 + m.preceding pdbDbiStream + i) =
        4 + m.streams.length * 4 + m.preceding pdbDbiStream * 4 + 4 * i := by omega
    rw [hoffset] at hword
    have hin : s.pages[i] ∈ m.pages := List.mem_append_right _
      (List.mem_flatMap.mpr ⟨s, hmem, List.getElem_mem hi⟩)
    obtain ⟨hpage, hused, -⟩ := h.page_lt hin
    exact readPageNumber_word hword (by omega) hpage hused
  obtain ⟨page, pages, hpages⟩ : ∃ page pages, s.pages = page :: pages := by
    cases hp : s.pages with
    | nil =>
      have hstored := h.streams s hmem
      rw [hp, MsfStream.bytes, hdbi, Option.getD_some] at hstored
      have hnil : dbi = [] := hstored
      rw [hnil] at hlong
      cases hlong
    | cons page pages => exact ⟨page, pages, rfl⟩
  have hfirst : readPageNumber m.directory
      (4 + m.streams.length * 4 + m.preceding pdbDbiStream * 4) m.pagesUsed = .ok page := by
    have hzero := hnumber 0 (by rw [hpages]; exact Nat.succ_pos _)
    simp only [hpages, List.getElem_cons_zero] at hzero
    exact hzero
  have hcheck : (stepByFour (4 + m.streams.length * 4 + m.preceding pdbDbiStream * 4)
      (4 + m.streams.length * 4 + m.preceding pdbDbiStream * 4 + s.pages.length * 4)).forM
        (fun offset => do
          let _ ← readPageNumber m.directory offset m.pagesUsed) = Outcome.ok ⟨⟩ := by
    apply forM_ok
    intro offset hoffset
    obtain ⟨i, hi, rfl⟩ := List.mem_map.mp hoffset
    rw [List.mem_range] at hi
    rw [hnumber i (by omega)]
    rfl
  have hgood : ¬ (dbi.length = u32Max ∨ dbi.length < pdbDbiHeaderBytes) := by
    rintro (heq | hshort)
    · exact Nat.ne_of_lt hlt heq
    · exact Nat.not_le_of_lt hshort hlong
  refine ⟨page, pages, hpages, ?_⟩
  unfold PdbDebugHeader.pdbStreamFirstPage
  rw [hcountWord, ok_bind, if_neg (Nat.not_le.mpr hcount), checkedMul_ok (by omega), ok_bind,
    checkedAdd_ok (by omega), ok_bind, if_neg (by omega), h.precedingPages hpos hmax hcount,
    ok_bind, h.streamSize hs, ok_bind, hsize, if_neg hgood, hneeded, ok_bind,
    checkedMul_ok (by omega), ok_bind, checkedAdd_ok (by omega), ok_bind,
    checkedMul_ok (by omega), ok_bind, checkedAdd_ok (by omega), ok_bind, if_neg (by omega),
    hfirst, ok_bind, hcheck]
  rfl

end laidOut

/-! ## Every file -/

/-- The outcome is a result or the one error code. -/
def Handled {α : Type} (x : Outcome α) : Prop := x = .err .malformed ∨ ∃ value, x = .ok value

section handled
variable {α β : Type} {x : Outcome α} {f : α → Outcome β}

theorem Handled.ok (a : α) : Handled (Outcome.ok a) := .inr ⟨a, rfl⟩

theorem Handled.malformed : Handled (Outcome.err .malformed : Outcome α) := .inl rfl

theorem Handled.bind (hx : Handled x) (hf : ∀ a, x = .ok a → Handled (f a)) :
    Handled (x >>= f) := by
  rcases hx with rfl | ⟨a, rfl⟩
  · exact .inl rfl
  · exact hf a rfl

theorem Handled.ite {p : Prop} [Decidable p] {y : Outcome α} (hx : Handled x) (hy : Handled y) :
    Handled (if p then x else y) := by
  split_ifs
  · exact hx
  · exact hy

theorem Handled.mapM {g : α → Outcome β} (hg : ∀ a, Handled (g a)) (l : List α) :
    Handled (l.mapM g) := by
  induction l with
  | nil => exact .ok _
  | cons a l ih =>
    rw [List.mapM_cons]
    exact (hg a).bind fun _ _ => ih.bind fun _ _ => .ok _

theorem Handled.foldlM {g : β → α → Outcome β} (hg : ∀ b a, Handled (g b a)) (l : List α)
    (b : β) : Handled (l.foldlM g b) := by
  induction l generalizing b with
  | nil => exact .ok _
  | cons a l ih =>
    rw [List.foldlM_cons]
    exact (hg b a).bind fun b' _ => ih b'

theorem Handled.forM {g : α → Outcome PUnit} (hg : ∀ a, Handled (g a)) (l : List α) :
    Handled (l.forM g) := by
  induction l with
  | nil => exact .ok _
  | cons a l ih => exact (hg a).bind fun _ _ => ih

theorem Handled.checkedAdd (a b : Nat) : Handled (checkedAdd a b) := .ite (.ok _) .malformed

theorem Handled.checkedMul (a b : Nat) : Handled (checkedMul a b) := .ite (.ok _) .malformed

theorem Handled.pagesNeeded (bytes : Nat) {pageSize : Nat} (h : 0 < pageSize) :
    Handled (pagesNeeded bytes pageSize) := by
  refine (Handled.checkedAdd _ _).bind fun a _ => ?_
  rw [divide, if_neg (Nat.ne_of_gt h)]
  exact .ok _

theorem Handled.readUintAt (width : Nat) (bytes : List UInt8) (offset : Nat) :
    Handled (readUintAt width bytes offset) := by
  unfold PdbDebugHeader.readUintAt
  split
  · exact .ite (.ok _) .malformed
  · exact .malformed

theorem Handled.readPageNumber (bytes : List UInt8) (offset pagesUsed : Nat) :
    Handled (readPageNumber bytes offset pagesUsed) :=
  (Handled.readUintAt 4 bytes offset).bind fun _ _ => .ite .malformed (.ok _)

theorem readFileBytes_eq_ok {file value : List UInt8} {offset bytes : Nat}
    (h : readFileBytes file offset bytes file.length = .ok value) :
    offset + bytes ≤ file.length ∧ value = (file.drop offset).take bytes := by
  obtain ⟨stop, hstop, h⟩ := bind_eq_ok.mp h
  unfold PdbDebugHeader.checkedAdd at hstop
  split_ifs at hstop
  cases hstop
  split_ifs at h with hout
  have hle := Nat.not_lt.mp hout
  unfold readExact at h
  rw [if_pos hle] at h
  cases h
  exact ⟨hle, rfl⟩

/-- The bounds of a read are checked against the length of the file before it. -/
theorem Handled.readFileBytes (file : List UInt8) (offset bytes : Nat) :
    Handled (readFileBytes file offset bytes file.length) := by
  refine (Handled.checkedAdd offset bytes).bind fun stop hstop => ?_
  unfold PdbDebugHeader.checkedAdd at hstop
  split_ifs at hstop
  cases hstop
  split_ifs with hout
  · exact .malformed
  · rw [readExact, if_pos (Nat.not_lt.mp hout)]
    exact .ok _

theorem Handled.readPdbPages (file : List UInt8) (pages : List Nat) {pageSize : Nat}
    (h : 0 < pageSize) (bytes : Nat) :
    Handled (readPdbPages file pages pageSize bytes file.length) := by
  refine (Handled.pagesNeeded bytes h).bind fun required _ => .ite .malformed ?_
  refine Handled.foldlM (fun output page => ?_) _ _
  refine (Handled.checkedMul page pageSize).bind fun offset _ => ?_
  exact (Handled.readFileBytes file offset _).bind fun chunk _ => .ok _

theorem Handled.parsePdbLayout (header : List UInt8) (fileBytes : Nat) :
    Handled (parsePdbLayout header fileBytes) := by
  refine .ite .malformed ((Handled.readUintAt 4 header 32).bind fun pageSize _ => ?_)
  refine (Handled.readUintAt 4 header 40).bind fun pagesUsed _ => ?_
  refine (Handled.readUintAt 4 header 44).bind fun directoryBytes _ => .ite .malformed ?_
  exact (Handled.checkedMul pagesUsed pageSize).bind fun described _ => .ite .malformed (.ok _)

theorem parsePdbLayout_eq_ok {header : List UInt8} {fileBytes : Nat} {layout : PdbLayout}
    (h : parsePdbLayout header fileBytes = .ok layout) :
    layout.fileBytes = fileBytes ∧ 0x100 ≤ layout.pageSize ∧ layout.pageSize ≤ maxPdbPageBytes := by
  unfold PdbDebugHeader.parsePdbLayout at h
  split_ifs at h
  obtain ⟨pageSize, -, h⟩ := bind_eq_ok.mp h
  obtain ⟨pagesUsed, -, h⟩ := bind_eq_ok.mp h
  obtain ⟨directoryBytes, -, h⟩ := bind_eq_ok.mp h
  split_ifs at h with hlimits
  obtain ⟨described, -, h⟩ := bind_eq_ok.mp h
  split_ifs at h
  cases h
  push Not at hlimits
  exact ⟨rfl, hlimits.2.1⟩

theorem Handled.readPdbDirectory (file header : List UInt8) {layout : PdbLayout}
    (hfile : layout.fileBytes = file.length) (h : 0 < layout.pageSize) :
    Handled (readPdbDirectory file header layout) := by
  unfold PdbDebugHeader.readPdbDirectory
  rw [hfile]
  refine (Handled.pagesNeeded _ h).bind fun directoryPages _ => ?_
  refine (Handled.checkedMul directoryPages 4).bind fun blockMapBytes _ => ?_
  refine (Handled.pagesNeeded blockMapBytes h).bind fun blockMapPages _ => ?_
  refine (Handled.checkedMul blockMapPages 4).bind fun mapBytes _ => ?_
  refine (Handled.checkedAdd _ mapBytes).bind fun blockMapEnd _ => .ite .malformed ?_
  refine (Handled.mapM (fun index => ?_) _).bind fun blockMap _ => ?_
  · refine (Handled.checkedMul index 4).bind fun skip _ => ?_
    exact (Handled.checkedAdd _ skip).bind fun offset _ => .readPageNumber _ _ _
  refine (Handled.readPdbPages file blockMap h blockMapBytes).bind fun bytes _ => ?_
  refine (Handled.mapM (fun index => ?_) _).bind fun tablePages _ => .readPdbPages _ _ h _
  exact (Handled.checkedMul index 4).bind fun offset _ => .readPageNumber _ _ _

theorem Handled.streamSize (directory : List UInt8) (stream : Nat) :
    Handled (streamSize directory stream) := by
  refine (Handled.checkedMul stream 4).bind fun skip _ => ?_
  exact (Handled.checkedAdd 4 skip).bind fun offset _ => .readUintAt _ _ _

theorem Handled.pdbStreamFirstPage (directory : List UInt8) {layout : PdbLayout}
    (h : 0 < layout.pageSize) : Handled (pdbStreamFirstPage directory layout) := by
  refine (Handled.readUintAt 4 directory 0).bind fun streamCount _ => .ite .malformed ?_
  refine (Handled.checkedMul streamCount 4).bind fun sizesBytes _ => ?_
  refine (Handled.checkedAdd 4 sizesBytes).bind fun pagesOffset _ => .ite .malformed ?_
  refine (Handled.foldlM (fun preceding stream => ?_) _ _).bind fun preceding _ => ?_
  · refine (Handled.streamSize directory stream).bind fun size _ => .ite ?_ (.ok _)
    exact (Handled.pagesNeeded size h).bind fun pages _ => .checkedAdd _ _
  refine (Handled.streamSize directory pdbDbiStream).bind fun debugBytes _ => .ite .malformed ?_
  refine (Handled.pagesNeeded debugBytes h).bind fun debugPages _ => ?_
  refine (Handled.checkedMul preceding 4).bind fun skip _ => ?_
  refine (Handled.checkedAdd pagesOffset skip).bind fun first _ => ?_
  refine (Handled.checkedMul debugPages 4).bind fun listBytes _ => ?_
  refine (Handled.checkedAdd first listBytes).bind fun stop _ => .ite .malformed ?_
  refine (Handled.readPageNumber directory first layout.pagesUsed).bind fun page _ => ?_
  refine (Handled.forM (fun offset => ?_) _).bind fun _ _ => .ok page
  exact (Handled.readPageNumber directory offset layout.pagesUsed).bind fun _ _ => .ok _

end handled

/-! ## The debug header -/

section header
variable {file : List UInt8}

theorem readUintAt_take {bytes : List UInt8} {n width offset : Nat} (h : offset + width ≤ n)
    (hn : n ≤ bytes.length) (hsmall : offset + width < 2 ^ 64) :
    readUintAt width (bytes.take n) offset =
      .ok (leValue ((bytes.drop offset).take width)) := by
  have hlength : (bytes.take n).length = n := by
    rw [List.length_take, Nat.min_eq_left hn]
  rw [readUintAt_ok (by omega) hsmall, List.drop_take, List.take_take,
    Nat.min_eq_left (by omega)]

/-- What follows the read of the first bytes of the debug stream. -/
def debugHeaderFields (debugHeader : List UInt8) : Outcome (Nat × Nat) := do
  if (← readU32At debugHeader 0) ≠ u32Max then .err .malformed
  else
    let originalAge ← readU32At debugHeader 8
    let machine ← readU16At debugHeader 58
    pure (machine, originalAge)

theorem debugHeaderFields_take {bytes : List UInt8} (h : pdbDbiHeaderBytes ≤ bytes.length) :
    debugHeaderFields (bytes.take pdbDbiHeaderBytes) =
      if leValue (bytes.take 4) ≠ u32Max then .err .malformed
      else .ok (leValue ((bytes.drop 58).take 2), leValue ((bytes.drop 8).take 4)) := by
  unfold debugHeaderFields readU32At readU16At
  rw [readUintAt_take (by decide) h (by decide), ok_bind,
    readUintAt_take (by decide) h (by decide), ok_bind,
    readUintAt_take (by decide) h (by decide), ok_bind, List.drop_zero]
  rfl

theorem Msf.LaidOut.readPdbDebugHeader {m : Msf} (h : m.LaidOut file)
    (hlimits : m.WithinLimits file) {s : MsfStream} (hs : m.streams[pdbDbiStream]? = some s)
    {dbi : List UInt8} (hdbi : s.content = some dbi) (hlong : pdbDbiHeaderBytes ≤ dbi.length) :
    readPdbDebugHeader file = debugHeaderFields (dbi.take pdbDbiHeaderBytes) := by
  obtain ⟨hsize, hfile, hdirectory, hmap⟩ := hlimits
  have hpos : 0 < m.pageSize := by omega
  obtain ⟨page, pages, hpages, hfirst⟩ := h.pdbStreamFirstPage hpos hsize.2.2 hdirectory hs hdbi
    hlong
  have hmem := List.mem_of_getElem? hs
  have hstored := h.streams s hmem
  rw [hpages, MsfStream.bytes, hdbi, Option.getD_some] at hstored
  have hstored := hstored.first (n := pdbDbiHeaderBytes)
    (by unfold pdbDbiHeaderBytes; omega) (by decide)
  have hlength : (dbi.take pdbDbiHeaderBytes).length = pdbDbiHeaderBytes := by
    rw [List.length_take, Nat.min_eq_left hlong]
  have hin : page ∈ m.pages := List.mem_append_right _
    (List.mem_flatMap.mpr ⟨s, hmem, by rw [hpages]; exact List.mem_cons_self⟩)
  have hread := readPdbPages_stored hstored hpos hsize.2.2 (by rw [hlength]; decide)
    fun p hp => by
      rw [List.mem_singleton.mp hp]
      exact (h.page_lt hin).2.2
  rw [hlength] at hread
  have hheader : readFileBytes file 0 pdbHeaderBytes file.length =
      .ok (file.take pdbHeaderBytes) := by
    rw [readFileBytes_ok (by omega) (by decide), List.drop_zero]
  unfold PdbDebugHeader.readPdbDebugHeader
  dsimp only
  rw [hheader, ok_bind, h.parsePdbLayout, if_pos ⟨hsize.1, hsize.2, hdirectory⟩, ok_bind,
    h.readPdbDirectory hpos hsize.2.2 hdirectory hfile, if_pos hmap, ok_bind, hfirst, ok_bind,
    hread, ok_bind]
  rfl

theorem Msf.LaidOut.malformed {m : Msf} (h : m.LaidOut file) (hlimits : ¬ m.WithinLimits file) :
    PdbDebugHeader.readPdbDebugHeader file = .err .malformed := by
  unfold PdbDebugHeader.readPdbDebugHeader
  dsimp only
  by_cases hfile : pdbHeaderBytes ≤ file.length
  · have hheader : readFileBytes file 0 pdbHeaderBytes file.length =
        .ok (file.take pdbHeaderBytes) := by
      rw [readFileBytes_ok (by omega) (by decide), List.drop_zero]
    rw [hheader, ok_bind, h.parsePdbLayout]
    by_cases hlayout : m.pageSize.isPowerOfTwo ∧ (0x100 ≤ m.pageSize ∧
        m.pageSize ≤ maxPdbPageBytes) ∧ m.directory.length ≤ maxMetadataReadBytes
    · obtain ⟨hpower, hrange, hdirectory⟩ := hlayout
      have hmap : ¬ pdbRawHeaderBytes + 4 * m.blockMapPages.length ≤ pdbHeaderBytes :=
        fun hmap => hlimits ⟨⟨hpower, hrange⟩, hfile, hdirectory, hmap⟩
      rw [if_pos ⟨hpower, hrange, hdirectory⟩, ok_bind,
        h.readPdbDirectory (by omega) hrange.2 hdirectory hfile, if_neg hmap]
      rfl
    · rw [if_neg hlayout]
      rfl
  · unfold readFileBytes
    rw [checkedAdd_ok (by decide), ok_bind, if_pos (by omega)]
    rfl

/-- One page is read whole or in part. -/
theorem readPdbPages_singleton {page pageSize bytes : Nat} {value : List UInt8}
    (hpos : 0 < bytes) (hle : bytes ≤ pageSize)
    (h : readPdbPages file [page] pageSize bytes file.length = .ok value) :
    ∃ offset, offset + bytes ≤ file.length ∧ value = (file.drop offset).take bytes := by
  obtain ⟨required, hrequired, h⟩ := bind_eq_ok.mp h
  have hone : required = 1 := by
    obtain ⟨sum, hsum, hdivide⟩ := bind_eq_ok.mp hrequired
    unfold checkedAdd at hsum
    split_ifs at hsum
    cases hsum
    rw [divide, if_neg (by omega)] at hdivide
    cases hdivide
    exact pageCount_eq_one hpos hle
  rw [hone, List.length_singleton, if_neg (Nat.lt_irrefl _)] at h
  obtain ⟨output, hloop, h⟩ := bind_eq_ok.mp h
  cases h
  obtain ⟨offset, -, hloop⟩ := bind_eq_ok.mp hloop
  obtain ⟨chunk, hchunk, hloop⟩ := bind_eq_ok.mp hloop
  cases hloop
  rw [List.length_nil, Nat.sub_zero, Nat.min_eq_left hle] at hchunk
  exact ⟨offset, readFileBytes_eq_ok hchunk⟩

/-- Every file gives an error or the fields of 64 bytes of the file. -/
theorem readPdbDebugHeader_inside (file : List UInt8) :
    readPdbDebugHeader file = .err .malformed ∨ ∃ offset, offset + 64 ≤ file.length ∧
      readPdbDebugHeader file = .ok (leValue ((file.drop (offset + 58)).take 2),
        leValue ((file.drop (offset + 8)).take 4)) := by
  unfold readPdbDebugHeader
  dsimp only
  rcases Handled.readFileBytes file 0 pdbHeaderBytes with hheader | ⟨header, hheader⟩
  · rw [hheader]
    exact .inl rfl
  rw [hheader, ok_bind]
  rcases Handled.parsePdbLayout header file.length with hlayout | ⟨layout, hlayout⟩
  · rw [hlayout]
    exact .inl rfl
  obtain ⟨hfile, hmin, -⟩ := parsePdbLayout_eq_ok hlayout
  have hpos : 0 < layout.pageSize := by omega
  rw [hlayout, ok_bind]
  rcases Handled.readPdbDirectory file header hfile hpos with hdirectory | ⟨directory, hdirectory⟩
  · rw [hdirectory]
    exact .inl rfl
  rw [hdirectory, ok_bind]
  rcases Handled.pdbStreamFirstPage directory hpos with hpage | ⟨page, hpage⟩
  · rw [hpage]
    exact .inl rfl
  rw [hpage, ok_bind, hfile]
  rcases Handled.readPdbPages file [page] hpos pdbDbiHeaderBytes with hread | ⟨value, hread⟩
  · rw [hread]
    exact .inl rfl
  obtain ⟨offset, hinside, hvalue⟩ := readPdbPages_singleton (by decide)
    (by unfold pdbDbiHeaderBytes; omega) hread
  rw [hread, ok_bind, hvalue]
  change debugHeaderFields _ = _ ∨ ∃ offset, _ ∧ debugHeaderFields _ = _
  rw [debugHeaderFields_take (by rw [List.length_drop]; omega)]
  split_ifs with hsignature
  · exact .inl rfl
  · refine .inr ⟨offset, hinside, ?_⟩
    rw [List.drop_drop, List.drop_drop]

/-- The reader of a PDB header finds the machine and the age of every file that is laid out
within its limits. Every file gives `malformed` or fields that lie inside the file. -/
theorem readPdbDebugHeader_reads :
    (∀ (m : Msf) (file : List UInt8), m.LaidOut file → ∀ s ∈ m.streams[pdbDbiStream]?,
      ∀ dbi ∈ s.content, pdbDbiHeaderBytes ≤ dbi.length → leValue (dbi.take 4) = u32Max →
        (m.WithinLimits file → readPdbDebugHeader file =
          .ok (leValue ((dbi.drop 58).take 2), leValue ((dbi.drop 8).take 4))) ∧
        (¬ m.WithinLimits file → readPdbDebugHeader file = .err .malformed)) ∧
    ∀ file, readPdbDebugHeader file = .err .malformed ∨ ∃ offset, offset + 64 ≤ file.length ∧
      readPdbDebugHeader file = .ok (leValue ((file.drop (offset + 58)).take 2),
        leValue ((file.drop (offset + 8)).take 4)) := by
  refine ⟨?_, readPdbDebugHeader_inside⟩
  intro m file h s hs dbi hdbi hlong hsignature
  refine ⟨fun hlimits => ?_, h.malformed⟩
  rw [h.readPdbDebugHeader hlimits hs hdbi hlong, debugHeaderFields_take hlong,
    if_neg (not_not_intro hsignature)]

end header

section sample

def sampleDbi : List UInt8 :=
  leBytes 4 u32Max ++ leBytes 4 19990903 ++ leBytes 4 5 ++ List.replicate 46 0 ++
    leBytes 2 0x8664 ++ leBytes 4 0

/-- Eight pages of 512 bytes. The streams before the debug stream are one of two pages, a nil
stream and an empty one. -/
def sampleMsf : Msf where
  pageSize := 512
  freePageMap := 1
  pagesUsed := 8
  reserved := 0
  blockMapPages := [3]
  directoryPages := [6]
  streams := [⟨some (List.replicate 513 7), [5, 2]⟩, ⟨none, []⟩, ⟨some [], []⟩,
    ⟨some sampleDbi, [7]⟩]

def paged (content : List UInt8) : List UInt8 := content ++ List.replicate (512 - content.length) 0

def samplePdb : List UInt8 :=
  paged sampleMsf.header ++ paged [] ++ paged [7] ++ paged sampleMsf.blockMap ++ paged [] ++
    List.replicate 512 7 ++ paged sampleMsf.directory ++ paged sampleDbi

theorem sampleMsf_laidOut : sampleMsf.LaidOut samplePdb where
  header := by decide +kernel
  blockMap := by decide +kernel
  directory := by decide +kernel
  streams := by decide +kernel
  pages := by decide +kernel
  size := by decide +kernel
  headerWords := by decide +kernel
  streamCount := by decide
  streamSizes := by decide +kernel

theorem readPdbDebugHeader_samplePdb : sampleMsf.LaidOut samplePdb ∧
    readPdbDebugHeader samplePdb = .ok (0x8664, 5) := by
  have hlimits : sampleMsf.WithinLimits samplePdb :=
    ⟨⟨⟨9, rfl⟩, by decide, by decide⟩, by decide +kernel, by decide +kernel, by decide +kernel⟩
  obtain ⟨hread, -⟩ := readPdbDebugHeader_reads.1 sampleMsf samplePdb sampleMsf_laidOut
    ⟨some sampleDbi, [7]⟩ rfl sampleDbi rfl (by decide +kernel) (by decide +kernel)
  refine ⟨sampleMsf_laidOut, (hread hlimits).trans ?_⟩
  decide +kernel

end sample

end FaultLane.PdbDebugHeader

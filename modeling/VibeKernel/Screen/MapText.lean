import VibeKernel.Num.Words
import VibeKernel.Screen.Lines

/-!
# The rows of the memory map, read back

The rows of `draw_memory_map` are meant to be read. `readRow` takes the text of a row apart at its blanks
and reads each column as the number or the name that it is, and gets back what the row is about: no
column runs into the next one, however wide its value is. This is about the text in the array;
`put_pixel` leaves out what lies to the right of a narrow screen.
-/

namespace VibeKernel

open Num

/-! ## Reading a row -/

/-- What a row of the table says. -/
inductive ShownRow
  | hole (first last pages : Nat)
  /-- The type, if it has a name. -/
  | desc (index : Nat) (type : Option UInt64) (first last pages attributes : Nat)
deriving DecidableEq

def MapRow.shown : MapRow → ShownRow
  | .hole first last pages => .hole first.toNat last.toNat pages.toNat
  | .desc index d endInclusive =>
    .desc (UInt64.ofNat index).toNat (if d.type < 16 then some d.type.toUInt64 else none)
      d.physicalStart.toNat endInclusive.toNat d.numberOfPages.toNat d.attributes.toNat

/-- A number behind its `0X`. -/
def readHexText (cs : List UInt8) : Nat := readHex (cs.drop 2)

/-- The code that has this name. -/
def readName (names : List (UInt64 × String)) (cs : List UInt8) : Option UInt64 :=
  (names.find? fun e => ascii e.2 == cs).map Prod.fst

/-- A line of the table. -/
def readRow (text : List UInt8) : Option ShownRow :=
  match words 32 text with
  | [_, _, first, last, pages] =>
    some (.hole (readHexText first) (readHexText last) (readDecimal pages))
  | [index, type, first, last, pages, attributes] =>
    some (.desc (readDecimal index) (readName memoryTypeNames type) (readHexText first)
      (readHexText last) (readDecimal pages) (readHexText attributes))
  | _ => none

/-! ## The columns -/

section Columns

variable {q : Piece} {qs : List Piece}

theorem words_lineText_blank (q : Piece) (qs : List Piece) :
    words 32 (lineText (q :: putChar ' ' :: qs)) = words 32 q.text ++ words 32 (lineText qs) :=
  words_append_blank q.text (lineText qs)

theorem words_lineText_single (q : Piece) : words 32 (lineText [q]) = words 32 q.text := by
  rw [lineText_cons]
  exact congrArg (words 32) (List.append_nil _)

theorem words_decimal (n : Nat) : words 32 (decimal n) = [decimal n] := by
  refine words_eq_singleton (isDecimal_decimal n).nonempty ?_
  rintro c hc rfl
  exact absurd ((isDecimal_decimal n).digit _ hc).1 (by decide)

theorem words_hexText (digits value : Nat) :
    words 32 (hexText digits value) = [hexText digits value] := by
  refine words_eq_singleton nofun ?_
  rintro c hc rfl
  exact absurd (le_of_mem_hexText hc) (by decide)

theorem words_dec64Width (value : UInt64) (width : UInt32) :
    words 32 (Piece.dec64Width value width).text = [decimal value.toNat] :=
  (words_blanks_append _ _).trans (words_decimal _)

theorem words_hex64Width (value : UInt64) (width : UInt32) :
    words 32 (Piece.hex64Width value width).text = [hexText 16 value.toNat] :=
  (words_blanks_append _ _).trans (words_hexText _ _)

theorem words_left {cs : List UInt8} {width : UInt32} (hne : cs ≠ []) (hcs : ∀ c ∈ cs, c ≠ 32)
    (hlen : cs.length ≤ width.toNat) : words 32 (Piece.left cs width).text = [cs] := by
  have htext : (Piece.left cs width).text = cs ++ List.replicate (width.toNat - cs.length) 32 := by
    rw [Piece.text, leftText, List.take_of_length_le hlen]
  rw [htext, words_append_blanks, words_eq_singleton hne hcs]

/-- One word of at most `n` letters. -/
def wordOkay (n : Nat) (name : String) : Bool :=
  !(ascii name).isEmpty && (ascii name).all (· != 32) && (ascii name).length.ble n

theorem words_leftName {n : Nat} (name : String) (width : UInt32) (h : wordOkay n name = true)
    (hn : n ≤ width.toNat) : words 32 (Piece.left (ascii name) width).text = [ascii name] := by
  rw [wordOkay, Bool.and_eq_true, Bool.and_eq_true, Nat.ble_eq] at h
  obtain ⟨⟨hne, hall⟩, hlen⟩ := h
  refine words_left ?_ (fun c hc => bne_iff_ne.1 (List.all_eq_true.1 hall c hc)) (hlen.trans hn)
  intro hnil
  rw [hnil] at hne
  cases hne

theorem words_leftNil (width : UInt32) : words 32 (Piece.left [] width).text = [] := by
  rw [Piece.text, leftText, List.take_nil, words_append_blanks, words_nil]

theorem readHexText_hexText (value : UInt64) :
    readHexText (hexText 16 value.toNat) = value.toNat := by
  have hlead : ascii "0X" = [48, 88] := rfl
  have hlt : value.toNat < 16 ^ 16 := by
    rw [show 16 ^ 16 = 2 ^ 64 from by norm_num]
    exact value.toNat_lt
  rw [readHexText, hexText, hlead, List.cons_append, List.cons_append, List.nil_append,
    List.drop_succ_cons, List.drop_succ_cons, List.drop_zero, readHex_hexDigits hlt]

theorem readDecimal_decimal (n : Nat) : readDecimal (decimal n) = n := (isDecimal_decimal n).read

/-- A type is read back from its name. -/
theorem readName_memoryTypeName (type : UInt32) : readName memoryTypeNames (memoryTypeName type) =
    if type < 16 then some type.toUInt64 else none := by
  by_cases h : type < 16
  · rw [if_pos h]
    rw [UInt32.lt_iff_toNat_lt] at h
    have hof : type = UInt32.ofNat type.toNat := by simp
    have hlt : type.toNat < 16 := h
    rw [hof]
    generalize type.toNat = t at hlt
    -- no two names are the same
    interval_cases t <;> rfl
  · have hnone : memoryTypeNames.lookup type.toUInt64 = none := by
      rw [List.lookup_eq_none_iff]
      intro e he
      have hkey : e.1 < 16 := by
        have hkeys : (memoryTypeNames.all fun e => e.1 < 16) = true := rfl
        simpa using List.all_eq_true.1 hkeys e he
      rw [bne_iff_ne]
      intro heq
      rw [← heq, UInt64.lt_iff_toNat_lt, UInt32.toNat_toUInt64] at hkey
      exact h (UInt32.lt_iff_toNat_lt.2 hkey)
    rw [if_neg h, memoryTypeName, nameOf, hnone]
    rfl

end Columns

/-! ## The rows -/

theorem words_hole (first last pages : UInt64) :
    words 32 (lineText (MapRow.hole first last pages).pieces) =
      [ascii "---", ascii "HOLE", hexText 16 first.toNat, hexText 16 last.toNat,
        decimal pages.toNat] := by
  have hmark := words_leftName (n := 3) "---" 3 rfl (by decide)
  have hname := words_leftName (n := 4) "HOLE" 10 rfl (by decide)
  simp only [MapRow.pieces, words_lineText_blank, words_lineText_single, words_hex64Width,
    words_dec64Width, words_leftNil, hmark, hname]
  rfl

theorem words_desc (index : Nat) (d : EfiMemoryDescriptor) (endInclusive : UInt64) :
    words 32 (lineText (MapRow.desc index d endInclusive).pieces) =
      [decimal (UInt64.ofNat index).toNat, memoryTypeName d.type, hexText 16 d.physicalStart.toNat,
        hexText 16 endInclusive.toNat, decimal d.numberOfPages.toNat,
        hexText 16 d.attributes.toNat] := by
  have hokay : wordOkay 9 ((memoryTypeNames.lookup d.type.toUInt64).getD "UNKNOWN") = true :=
    nameOf_of_all rfl _
  have hname : words 32 (Piece.left (memoryTypeName d.type) 10).text = [memoryTypeName d.type] :=
    words_leftName _ 10 hokay (by decide)
  simp only [MapRow.pieces, words_lineText_blank, words_lineText_single, words_hex64Width,
    words_dec64Width, hname]
  rfl

theorem readRow_lineText (row : MapRow) : readRow (lineText row.pieces) = some row.shown := by
  cases row with
  | hole first last pages =>
    rw [readRow, words_hole]
    simp only [readHexText_hexText, readDecimal_decimal, MapRow.shown]
  | desc index d endInclusive =>
    rw [readRow, words_desc]
    simp only [readHexText_hexText, readDecimal_decimal, readName_memoryTypeName, MapRow.shown]

/-- The text that `draw_text` is given for a row is read back. -/
def MapRow.ReadsBack (row : MapRow) : Prop :=
  ∀ dst : CharBuffer, dst.size = 192 → ∃ dst' p, appendPieces row.pieces dst 0 = some (dst', p) ∧
    (drawTextChars dst' 0).bind readRow = some row.shown

/-- **Every row of the memory map is read back from its text.** -/
theorem mapRow_readsBack (row : MapRow) : row.ReadsBack := by
  intro dst hdst
  obtain ⟨dst', p, hline, htext⟩ := row_fits row dst hdst
  refine ⟨dst', p, hline, ?_⟩
  rw [htext]
  exact readRow_lineText row

end VibeKernel

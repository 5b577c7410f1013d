import VibeKernel.Num.Hex
import VibeKernel.Screen.Decimal

/-!
# Lines of text

The other `append_` functions, and lines that are put together from their pieces in a local array.
`exists_writeLine` is the specification of a whole line: it stays inside its array if its text does,
and the text is what stands in the array afterwards.
-/

namespace VibeKernel

open Num

/-- The characters of a string literal. -/
def ascii (s : String) : List UInt8 := s.toList.map fun c => c.val.toUInt8

theorem ne_zero_of_all {cs : List UInt8} (h : cs.all (· != 0) = true) : ∀ c ∈ cs, c ≠ 0 :=
  fun c hc => bne_iff_ne.1 (List.all_eq_true.1 h c hc)

/-- A string literal. -/
def CharBuffer.literal (cs : List UInt8) : CharBuffer := ⟨cs.length + 1, fun i => cs.getD i 0⟩

/-! ## The functions -/

/-- The first loop of `append_left`, with the columns that are left. -/
def copyLeft (dst s : CharBuffer) : Nat → Nat → Nat → Option (CharBuffer × Nat × Nat)
  | i, p, 0 => do
    let _ ← s.get i
    pure (dst, p, 0)
  | i, p, columns + 1 => do
    let c ← s.get i
    if c = 0 then pure (dst, p, columns + 1)
    else do
      let dst ← dst.put p c
      copyLeft dst s (i + 1) (p + 1) columns

/-- `append_left`. -/
def appendLeft (dst : CharBuffer) (p : Nat) (s : CharBuffer) (width : UInt32) : Appended := do
  let (dst, p, columns) ← copyLeft dst s 0 p width.toNat
  let (dst, p) ← putSpaces dst columns p
  endString dst p

/-- The loop of `append_hex64` and `append_hex32`, with the digits that are left. -/
def putHex (value : Nat) (dst : CharBuffer) : Nat → Nat → Appended
  | 0, p => some (dst, p)
  | digits + 1, p => do
    let dst ← dst.put p (hexChar ((value >>> (4 * digits)) &&& 0xf))
    putHex value dst digits (p + 1)

def appendHex (digits : Nat) (dst : CharBuffer) (p value : Nat) : Appended := do
  let (dst, p) ← appendStr dst p (.literal (ascii "0X")) 0
  let (dst, p) ← putHex value dst digits p
  endString dst p

/-- `append_hex64`. -/
def appendHex64 (dst : CharBuffer) (p : Nat) (value : UInt64) : Appended :=
  appendHex 16 dst p value.toNat

/-- `append_hex32`. -/
def appendHex32 (dst : CharBuffer) (p : Nat) (value : UInt32) : Appended :=
  appendHex 8 dst p value.toNat

/-- `append_hex64_width`. -/
def appendHex64Width (dst : CharBuffer) (p : Nat) (value : UInt64) (width : UInt32) :
    Appended := do
  let (tmp, _) ← appendHex64 (.fresh 19) 0 value
  let (dst, p) ← if width > 18 then appendSpaces dst p (width - 18) else some (dst, p)
  appendStr dst p tmp 0

/-! ## What they write -/

/-- A piece of code that writes `cs` and leaves the pointer behind it. -/
def Puts (f : CharBuffer → Nat → Appended) (cs : List UInt8) : Prop :=
  ∀ dst p, p + cs.length ≤ dst.size →
    ∃ dst', f dst p = some (dst', p + cs.length) ∧ Wrote dst p cs dst'

/-- A piece of code that writes the string `cs` and leaves the pointer at its end. -/
def Appends (f : CharBuffer → Nat → Appended) (cs : List UInt8) : Prop :=
  ∀ dst p, p + cs.length < dst.size →
    ∃ dst', f dst p = some (dst', p + cs.length) ∧ Wrote dst p (cs ++ [0]) dst'

section Writes

variable {f g : CharBuffer → Nat → Appended} {cs ds : List UInt8}

theorem Puts.nil : Puts (fun dst p => some (dst, p)) [] := fun dst p _ => ⟨dst, rfl, .nil dst p⟩

theorem Puts.char (c : UInt8) (hg : Puts g cs) :
    Puts (fun dst p => dst.put p c >>= fun dst => g dst (p + 1)) (c :: cs) := by
  intro dst p h
  rw [List.length_cons] at h ⊢
  obtain ⟨dst₁, hput, hw₁⟩ := exists_put dst p c (by omega)
  obtain ⟨dst₂, hrest, hw₂⟩ := hg dst₁ (p + 1) (by rw [hw₁.size]; omega)
  refine ⟨dst₂, ?_, hw₁.append hw₂⟩
  rw [Nat.add_comm cs.length, ← Nat.add_assoc]
  simp only [hput, hrest, Option.bind_eq_bind, Option.bind_some]

theorem Puts.ended (hf : Puts f cs) :
    Appends (fun dst p => f dst p >>= fun r => endString r.1 r.2) cs := by
  intro dst p h
  obtain ⟨dst₁, hput, hw₁⟩ := hf dst p h.le
  obtain ⟨dst₂, hend, hw₂⟩ := exists_put dst₁ (p + cs.length) 0 (by rw [hw₁.size]; exact h)
  refine ⟨dst₂, ?_, hw₁.append hw₂⟩
  simp only [hput, endString, hend, Option.bind_eq_bind, Option.bind_some]
  rfl

/-- The second string goes over the zero of the first one. -/
theorem Appends.seq (hf : Appends f cs) (hg : Appends g ds) :
    Appends (fun dst p => f dst p >>= fun r => g r.1 r.2) (cs ++ ds) := by
  intro dst p h
  rw [List.length_append] at h ⊢
  obtain ⟨dst₁, hfirst, hw₁⟩ := hf dst p (by omega)
  obtain ⟨dst₂, hrest, hw₂⟩ := hg dst₁ (p + cs.length) (by rw [hw₁.size]; omega)
  refine ⟨dst₂, ?_, ?_⟩
  · rw [← Nat.add_assoc]
    simp only [hfirst, hrest, Option.bind_eq_bind, Option.bind_some]
  · rw [List.append_assoc]
    exact hw₁.onto hw₂ (by simp)

theorem puts_spaces : ∀ count, Puts (fun dst p => putSpaces dst count p) (List.replicate count 32)
  | 0 => .nil
  | count + 1 => .char 32 (puts_spaces count)

/-- The digits are those of `value`, from the most significant one. -/
theorem puts_hex (value : Nat) : ∀ digits,
    Puts (fun dst p => putHex value dst digits p) (hexDigits digits value)
  | 0 => .nil
  | digits + 1 => by
    have hdigit : (value >>> (4 * digits)) &&& 0xf = value / 16 ^ digits % 16 := by
      rw [Nat.shiftRight_eq_div_pow, Nat.pow_mul]
      exact Nat.and_two_pow_sub_one_eq_mod _ 4
    rw [hexDigits_succ, ← hdigit]
    exact .char _ (puts_hex value digits)

theorem hasBytes_literal (cs : List UInt8) : HasBytes (CharBuffer.literal cs).chars 0 (cs ++ [0]) := by
  suffices h : ∀ (ds es : List UInt8) (page : Nat → UInt8), page = (fun i => (ds ++ es).getD i 0) →
      HasBytes page ds.length (es ++ [0]) from h [] cs _ rfl
  intro ds es page hpage
  induction es generalizing ds with
  | nil => exact ⟨by simp [hpage], trivial⟩
  | cons c es ih =>
    refine ⟨by simp [hpage], ?_⟩
    have hnext := ih (ds ++ [c]) (by simpa using hpage)
    rwa [List.length_append] at hnext

theorem appends_str (hcs : ∀ c ∈ cs, c ≠ 0) :
    Appends (fun dst p => appendStr dst p (.literal cs) 0) cs := fun dst p h =>
  exists_appendStr dst p (hasBytes_literal cs) hcs (by simp [CharBuffer.literal]) h

/-- The columns of `append_left`. -/
def leftText (cs : List UInt8) (width : Nat) : List UInt8 :=
  cs.take width ++ List.replicate (width - cs.length) 32

theorem length_leftText (cs : List UInt8) (width : Nat) : (leftText cs width).length = width := by
  rw [leftText, List.length_append, List.length_take, List.length_replicate]
  omega

theorem puts_left {s : CharBuffer} : ∀ {cs : List UInt8} {i : Nat} (width : Nat),
    HasBytes s.chars i (cs ++ [0]) → (∀ c ∈ cs, c ≠ 0) → i + cs.length < s.size →
      Puts (fun dst p => copyLeft dst s i p width >>= fun r => putSpaces r.1 r.2.2 r.2.1)
        (leftText cs width) := by
  intro cs
  induction cs with
  | nil =>
    intro i width hs _ hsize
    have hget : s.get i = some 0 := (if_pos (by simpa using hsize)).trans (congrArg some hs.1)
    have hcopy : ∀ dst p, copyLeft dst s i p width = some (dst, p, width) := by
      cases width <;> simp [copyLeft, hget]
    simpa [hcopy, leftText] using puts_spaces width
  | cons c cs ih =>
    intro i width hs hcs hsize
    rw [List.length_cons] at hsize
    have hget : s.get i = some c := (if_pos (by omega)).trans (congrArg some hs.1)
    have hne : c ≠ 0 := hcs c List.mem_cons_self
    cases width with
    | zero => simpa [copyLeft, hget, leftText] using puts_spaces 0
    | succ width =>
      have hrest := (ih width hs.2 (fun d hd => hcs d (List.mem_cons_of_mem _ hd)) (by omega)).char c
      simpa [copyLeft, hget, hne, leftText, Option.bind_assoc] using hrest

theorem appends_left (hcs : ∀ c ∈ cs, c ≠ 0) (width : UInt32) :
    Appends (fun dst p => appendLeft dst p (.literal cs) width) (leftText cs width.toNat) := by
  have hputs := (puts_left width.toNat (hasBytes_literal cs) hcs (by simp [CharBuffer.literal])).ended
  simp only [bind_assoc] at hputs
  exact hputs

/-- The text of `append_hex64` and `append_hex32`. -/
def hexText (digits value : Nat) : List UInt8 := ascii "0X" ++ hexDigits digits value

theorem appends_hex (digits value : Nat) :
    Appends (fun dst p => appendHex digits dst p value) (hexText digits value) :=
  (appends_str (ne_zero_of_all rfl)).seq (puts_hex value digits).ended

theorem le_of_mem_hexText {digits value : Nat} {c : UInt8} (h : c ∈ hexText digits value) :
    48 ≤ c.toNat := by
  rcases List.mem_append.1 h with hlead | hdigit
  · have hall : ((ascii "0X").all fun c => Nat.ble 48 c.toNat) = true := rfl
    exact Nat.le_of_ble_eq_true (List.all_eq_true.1 hall c hlead)
  · exact (mem_hexDigits hdigit).1

theorem hexText_ne_zero {digits value : Nat} {c : UInt8} (h : c ∈ hexText digits value) : c ≠ 0 := by
  rintro rfl
  exact absurd (le_of_mem_hexText h) (by decide)

theorem length_hexText (digits value : Nat) : (hexText digits value).length = digits + 2 := by
  rw [hexText, List.length_append, length_hexDigits, Nat.add_comm]
  rfl

theorem appends_hex64Width (value : UInt64) (width : UInt32) :
    Appends (fun dst p => appendHex64Width dst p value width)
      (List.replicate (width.toNat - 18) 32 ++ hexText 16 value.toNat) := by
  obtain ⟨tmp, hhex, hw⟩ := appends_hex 16 value.toNat (.fresh 19) 0 (by
    rw [length_hexText]
    decide)
  have htmp : Appends (fun dst p => appendStr dst p tmp 0) (hexText 16 value.toNat) := fun dst p h =>
    exists_appendStr dst p hw.shows (fun _ => hexText_ne_zero) (by
      rw [hw.size, length_hexText]
      decide) h
  have hcode : ∀ dst p, appendHex64Width dst p value width =
      (if width > 18 then appendSpaces dst p (width - 18) else some (dst, p)) >>= fun r =>
        appendStr r.1 r.2 tmp 0 := by
    intro dst p
    have hhex : appendHex64 (.fresh 19) 0 value = some (tmp, _) := hhex
    rw [appendHex64Width, hhex]
    split_ifs <;> rfl
  simp only [hcode]
  by_cases hwide : width > 18
  · have hcount : (width - 18).toNat = width.toNat - 18 :=
      UInt32.toNat_sub_of_le _ _ (UInt32.le_of_lt hwide)
    simp only [if_pos hwide, ← hcount]
    exact (puts_spaces (width - 18).toNat).ended.seq htmp
  · have hle : width.toNat ≤ 18 := UInt32.le_iff_toNat_le.1 (UInt32.not_lt.1 hwide)
    simp only [if_neg hwide, Nat.sub_eq_zero_of_le hle]
    exact htmp

end Writes

/-! ## Lines -/

/-- A piece of a line, with the function that appends it. -/
inductive Piece
  | str (cs : List UInt8)
  /-- `*p++ = c; *p = 0;` -/
  | char (c : UInt8)
  | dec (value : UInt32)
  | dec64 (value : UInt64)
  | hex64 (value : UInt64)
  | hex32 (value : UInt32)
  | left (cs : List UInt8) (width : UInt32)
  | dec64Width (value : UInt64) (width : UInt32)
  | hex64Width (value : UInt64) (width : UInt32)

namespace Piece

def append : Piece → CharBuffer → Nat → Appended
  | str cs, dst, p => appendStr dst p (.literal cs) 0
  | char c, dst, p => dst.put p c >>= fun dst => endString dst (p + 1)
  | dec value, dst, p => appendDec dst p value
  | dec64 value, dst, p => appendDec64 dst p value
  | hex64 value, dst, p => appendHex64 dst p value
  | hex32 value, dst, p => appendHex32 dst p value
  | left cs width, dst, p => appendLeft dst p (.literal cs) width
  | dec64Width value width, dst, p => appendDec64Width dst p value width
  | hex64Width value width, dst, p => appendHex64Width dst p value width

/-- The characters that are appended. -/
def text : Piece → List UInt8
  | str cs => cs
  | char c => [c]
  | dec value => decimal value.toNat
  | dec64 value => decimal value.toNat
  | hex64 value => hexText 16 value.toNat
  | hex32 value => hexText 8 value.toNat
  | left cs width => leftText cs width.toNat
  | dec64Width value width => padded value width
  | hex64Width value width => List.replicate (width.toNat - 18) 32 ++ hexText 16 value.toNat

/-- How many they can be. -/
def room : Piece → Nat
  | str cs => cs.length
  | char _ => 1
  | dec _ => 10
  | dec64 _ => 20
  | hex64 _ => 18
  | hex32 _ => 10
  | left _ width => width.toNat
  | dec64Width _ width => max width.toNat 20
  | hex64Width _ width => max width.toNat 18

/-- No literal has a zero in it. -/
def Ok : Piece → Prop
  | str cs | left cs _ => ∀ c ∈ cs, c ≠ 0
  | char c => c ≠ 0
  | _ => True

instance : DecidablePred Ok
  | str cs | left cs _ => inferInstanceAs (Decidable (∀ c ∈ cs, c ≠ 0))
  | char c => inferInstanceAs (Decidable (c ≠ 0))
  | dec _ | dec64 _ | hex64 _ | hex32 _ | dec64Width _ _ | hex64Width _ _ => .isTrue trivial

theorem length_text_le (q : Piece) : q.text.length ≤ q.room := by
  cases q with
  | str cs => exact le_rfl
  | char c => exact le_rfl
  | dec value => exact length_decimal_le (k := 10) (by decide) (value.toNat_lt.trans (by decide))
  | dec64 value => exact length_decimal_le (k := 20) (by decide) (value.toNat_lt.trans (by decide))
  | hex64 value => exact (length_hexText 16 _).le
  | hex32 value => exact (length_hexText 8 _).le
  | left cs width => exact (length_leftText cs _).le
  | dec64Width value width =>
    have hle := length_decimal_le (k := 20) (by decide) (value.toNat_lt.trans (by decide))
    rw [text, length_padded, room]
    omega
  | hex64Width value width =>
    rw [text, List.length_append, List.length_replicate, length_hexText, room]
    omega

/-- **Every piece is written as its text.** -/
theorem appends (q : Piece) (h : q.Ok) : Appends q.append q.text := by
  cases q with
  | str cs => exact appends_str h
  | char c =>
    have hchar := (Puts.char c .nil).ended
    simp only [Option.bind_eq_bind, Option.bind_assoc, Option.bind_some] at hchar
    exact hchar
  | dec value => exact fun dst p => exists_appendDecimal dst p (length_digitsUp_toNat32 value)
  | dec64 value => exact fun dst p => exists_appendDecimal dst p (length_digitsUp_toNat value)
  | hex64 value => exact appends_hex 16 _
  | hex32 value => exact appends_hex 8 _
  | left cs width => exact appends_left h width
  | dec64Width value width => exact fun dst p => exists_appendDec64Width dst p value width
  | hex64Width value width => exact appends_hex64Width value width

theorem ne_zero_of_mem_text {q : Piece} (h : q.Ok) {c : UInt8} (hc : c ∈ q.text) : c ≠ 0 := by
  have hspace : ∀ {n : Nat}, c ∈ List.replicate n 32 → c ≠ 0 := fun hc => by
    rw [List.eq_of_mem_replicate hc]
    decide
  cases q with
  | str cs => exact h c hc
  | char d => exact List.mem_singleton.1 hc ▸ h
  | dec value => exact digit_ne_zero hc
  | dec64 value => exact digit_ne_zero hc
  | hex64 value => exact hexText_ne_zero hc
  | hex32 value => exact hexText_ne_zero hc
  | left cs width => exact (List.mem_append.1 hc).elim (fun hc => h c (List.mem_of_mem_take hc)) hspace
  | dec64Width value width => exact (List.mem_append.1 hc).elim hspace digit_ne_zero
  | hex64Width value width => exact (List.mem_append.1 hc).elim hspace hexText_ne_zero

end Piece

/-- The pieces of a line, one after the other. -/
def appendPieces : List Piece → CharBuffer → Nat → Appended
  | [], dst, p => some (dst, p)
  | q :: qs, dst, p => q.append dst p >>= fun r => appendPieces qs r.1 r.2

def lineText (qs : List Piece) : List UInt8 := qs.flatMap Piece.text

/-- The characters that `draw_text` hands to `draw_char`, from index `i` on. -/
def drawTextChars (s : CharBuffer) (i : Nat) : Option (List UInt8) :=
  if i < s.size then
    if s.chars i = 0 then some []
    else (drawTextChars s (i + 1)).map (s.chars i :: ·)
  else none
termination_by s.size - i

section Lines

variable {q : Piece} {qs : List Piece}

theorem lineText_cons (q : Piece) (qs : List Piece) : lineText (q :: qs) = q.text ++ lineText qs := rfl

theorem appends_pieces (h : ∀ r ∈ q :: qs, r.Ok) :
    Appends (appendPieces (q :: qs)) (lineText (q :: qs)) := by
  induction qs generalizing q with
  | nil =>
    have hq := q.appends (h q List.mem_cons_self)
    simpa [appendPieces, lineText] using hq
  | cons r qs ih =>
    have hq := q.appends (h q List.mem_cons_self)
    exact hq.seq (ih fun r hr => h r (List.mem_cons_of_mem _ hr))

theorem drawTextChars_eq {s : CharBuffer} {cs : List UInt8} {i : Nat} (hs : HasBytes s.chars i (cs ++ [0]))
    (hcs : ∀ c ∈ cs, c ≠ 0) (hsize : i + cs.length < s.size) : drawTextChars s i = some cs := by
  induction cs generalizing i with
  | nil =>
    rw [drawTextChars, if_pos (by simpa using hsize), if_pos hs.1]
  | cons c cs ih =>
    rw [List.length_cons] at hsize
    have hc : s.chars i = c := hs.1
    rw [drawTextChars, if_pos (by omega), hc, if_neg (hcs c List.mem_cons_self),
      ih hs.2 (fun d hd => hcs d (List.mem_cons_of_mem _ hd)) (by omega)]
    rfl

/-- **A line whose text has room in its array stays inside of it**, and its text is what `draw_text`
goes through. -/
theorem exists_line {dst : CharBuffer} (h : ∀ r ∈ q :: qs, r.Ok)
    (hroom : (lineText (q :: qs)).length < dst.size) :
    ∃ dst' p, appendPieces (q :: qs) dst 0 = some (dst', p) ∧
      drawTextChars dst' 0 = some (lineText (q :: qs)) := by
  obtain ⟨dst', hline, hw⟩ := appends_pieces h dst 0 (by rwa [Nat.zero_add])
  refine ⟨dst', _, hline, drawTextChars_eq hw.shows (fun c hc => ?_) (by rwa [Nat.zero_add, hw.size])⟩
  obtain ⟨r, hr, hc⟩ := List.mem_flatMap.1 hc
  exact Piece.ne_zero_of_mem_text (h r hr) hc

theorem length_lineText_le (qs : List Piece) :
    (lineText qs).length ≤ (qs.map Piece.room).sum := by
  induction qs with
  | nil => exact le_rfl
  | cons q qs ih =>
    rw [lineText_cons, List.length_append, List.map_cons, List.sum_cons]
    exact Nat.add_le_add q.length_text_le ih

end Lines

end VibeKernel

import VibeKernel.Num.Bytes
import VibeKernel.Num.Decimal

/-!
# Writing text

The `append_` functions that write a number into a buffer of characters. An access outside of a buffer
ends in `none`.
-/

namespace VibeKernel

open Num

/-- An array of `char`. -/
structure CharBuffer where
  size : Nat
  chars : Nat → UInt8

namespace CharBuffer

/-- A local array. -/
def fresh (size : Nat) : CharBuffer := ⟨size, fun _ => 0⟩

def put (b : CharBuffer) (i : Nat) (c : UInt8) : Option CharBuffer :=
  if i < b.size then some { b with chars := Function.update b.chars i c } else none

def get (b : CharBuffer) (i : Nat) : Option UInt8 :=
  if i < b.size then some (b.chars i) else none

end CharBuffer

/-- A buffer and the pointer into it that an `append_` function returns. -/
abbrev Appended := Option (CharBuffer × Nat)

/-- `*p = 0; return p;` -/
def endString (dst : CharBuffer) (p : Nat) : Appended := do
  let dst ← dst.put p 0
  pure (dst, p)

/-- The loop that takes a number apart. -/
def emitDigits (tmp : CharBuffer) (n value : Nat) : Appended :=
  if value = 0 then some (tmp, n)
  else do
    let tmp ← tmp.put n (digitChar (value % 10))
    emitDigits tmp (n + 1) (value / 10)
termination_by value

/-- The loop that copies the digits back. -/
def copyDigits (tmp dst : CharBuffer) : Nat → Nat → Appended
  | 0, p => some (dst, p)
  | n + 1, p => do
    let c ← tmp.get n
    let dst ← dst.put p c
    copyDigits tmp dst n (p + 1)

/-- `append_dec` and `append_dec64`, with a `tmp` of `size` characters. -/
def appendDecimal (size : Nat) (dst : CharBuffer) (p value : Nat) : Appended :=
  if value = 0 then do
    let dst ← dst.put p (digitChar 0)
    endString dst (p + 1)
  else do
    let (tmp, n) ← emitDigits (.fresh size) 0 value
    let (dst, p) ← copyDigits tmp dst n p
    endString dst p

/-- `append_dec`. -/
def appendDec (dst : CharBuffer) (p : Nat) (value : UInt32) : Appended :=
  appendDecimal 10 dst p value.toNat

/-- `append_dec64`. -/
def appendDec64 (dst : CharBuffer) (p : Nat) (value : UInt64) : Appended :=
  appendDecimal 20 dst p value.toNat

/-- The loop of `append_spaces`. -/
def putSpaces (dst : CharBuffer) : Nat → Nat → Appended
  | 0, p => some (dst, p)
  | count + 1, p => do
    let dst ← dst.put p 32
    putSpaces dst count (p + 1)

/-- `append_spaces`. -/
def appendSpaces (dst : CharBuffer) (p : Nat) (count : UInt32) : Appended := do
  let (dst, p) ← putSpaces dst count.toNat p
  endString dst p

/-- `append_str`, from index `i` of `s` on. -/
def appendStr (dst : CharBuffer) (p : Nat) (s : CharBuffer) (i : Nat) : Appended :=
  if i < s.size then
    if s.chars i = 0 then endString dst p
    else do
      let dst ← dst.put p (s.chars i)
      appendStr dst (p + 1) s (i + 1)
  else none
termination_by s.size - i

/-- `append_dec64_width`. -/
def appendDec64Width (dst : CharBuffer) (p : Nat) (value : UInt64) (width : UInt32) :
    Appended := do
  let (tmp, strEnd) ← appendDec64 (.fresh 21) 0 value
  let n := strEnd.toUInt32
  let (dst, p) ← if n < width then appendSpaces dst p (width - n) else some (dst, p)
  appendStr dst p tmp 0

/-! ## What a piece of code wrote -/

/-- `b'` is `b` with `cs` written at `p`. -/
structure Wrote (b : CharBuffer) (p : Nat) (cs : List UInt8) (b' : CharBuffer) : Prop where
  size : b'.size = b.size
  shows : HasBytes b'.chars p cs
  frame : ∀ k, k < p ∨ p + cs.length ≤ k → b'.chars k = b.chars k

section Wrote

variable {b b' b'' : CharBuffer} {p : Nat} {c : UInt8} {cs ds : List UInt8}

theorem Wrote.nil (b : CharBuffer) (p : Nat) : Wrote b p [] b := ⟨rfl, trivial, fun _ _ => rfl⟩

theorem exists_put (b : CharBuffer) (p : Nat) (c : UInt8) (h : p < b.size) :
    ∃ b', b.put p c = some b' ∧ Wrote b p [c] b' := by
  refine ⟨_, if_pos h, rfl, ⟨by simp, trivial⟩, fun k hk => Function.update_of_ne ?_ _ _⟩
  rw [List.length_singleton] at hk
  omega

/-- One piece after the other, the second one over the end of the first one. -/
theorem Wrote.onto {es : List UInt8} (h : Wrote b p (cs ++ es) b')
    (h' : Wrote b' (p + cs.length) ds b'') (hle : es.length ≤ ds.length) :
    Wrote b p (cs ++ ds) b'' := by
  have hshows := (HasBytes.append.1 h.shows).1
  refine ⟨h'.size.trans h.size, HasBytes.append.2 ⟨hshows.congr fun k _ hk =>
    h'.frame k (Or.inl hk), h'.shows⟩, fun k hk => ?_⟩
  rw [List.length_append] at hk
  rw [h'.frame k (by omega), h.frame k (by rw [List.length_append]; omega)]

theorem Wrote.append (h : Wrote b p cs b') (h' : Wrote b' (p + cs.length) ds b'') :
    Wrote b p (cs ++ ds) b'' := by
  have h0 : Wrote b p (cs ++ []) b' := by rwa [List.append_nil]
  exact h0.onto h' (Nat.zero_le _)

end Wrote

/-! ## The loops -/

section Loops

variable (tmp dst : CharBuffer) (n p : Nat)

/-- The digits are taken out least significant first. -/
theorem exists_emitDigits (value : Nat) (h : n + (digitsUp value).length ≤ tmp.size) :
    ∃ tmp', emitDigits tmp n value = some (tmp', n + (digitsUp value).length) ∧
      Wrote tmp n (digitsUp value) tmp' := by
  induction value using Nat.strongRecOn generalizing tmp n with
  | ind value ih =>
    unfold emitDigits
    by_cases h0 : value = 0
    · subst h0
      exact ⟨tmp, rfl, .nil tmp n⟩
    · have hlt : value / 10 < value := Nat.div_lt_self (Nat.pos_of_ne_zero h0) (by decide)
      rw [digitsUp_pos h0, List.length_cons] at h ⊢
      obtain ⟨tmp₁, hput, hw₁⟩ := exists_put tmp n (digitChar (value % 10)) (by omega)
      have hroom : n + 1 + (digitsUp (value / 10)).length ≤ tmp₁.size := by
        rw [hw₁.size]
        omega
      obtain ⟨tmp₂, hemit, hw₂⟩ := ih _ hlt _ _ hroom
      refine ⟨tmp₂, ?_, hw₁.append hw₂⟩
      rw [if_neg h0, hput]
      simp only [Option.bind_eq_bind, Option.bind_some, hemit]
      rw [Nat.add_assoc, Nat.add_comm 1]

/-- Copying turns them around. -/
theorem exists_copyDigits {tmp : CharBuffer} {cs : List UInt8} (htmp : HasBytes tmp.chars 0 cs)
    (hsize : cs.length ≤ tmp.size) (h : p + cs.length ≤ dst.size) :
    ∃ dst', copyDigits tmp dst cs.length p = some (dst', p + cs.length) ∧
      Wrote dst p cs.reverse dst' := by
  induction cs using List.reverseRecOn generalizing dst p with
  | nil => exact ⟨dst, rfl, .nil dst p⟩
  | append_singleton cs c ih =>
    simp only [List.length_append, List.length_singleton] at hsize h ⊢
    obtain ⟨htmp, hc⟩ := HasBytes.append.1 htmp
    have hget : tmp.get cs.length = some c := by
      rw [CharBuffer.get, if_pos (by omega)]
      simpa using hc.1
    obtain ⟨dst₁, hput, hw₁⟩ := exists_put dst p c (by omega)
    have hroom : p + 1 + cs.length ≤ dst₁.size := by
      rw [hw₁.size]
      omega
    obtain ⟨dst₂, hcopy, hw₂⟩ := ih _ _ htmp (by omega) hroom
    refine ⟨dst₂, ?_, ?_⟩
    · rw [copyDigits, hget]
      simp only [Option.bind_eq_bind, Option.bind_some, hput, hcopy]
      rw [Nat.add_assoc, Nat.add_comm 1]
    · rw [List.reverse_append]
      exact hw₁.append hw₂

theorem exists_putSpaces (count : Nat) (h : p + count ≤ dst.size) :
    ∃ dst', putSpaces dst count p = some (dst', p + count) ∧
      Wrote dst p (List.replicate count 32) dst' := by
  induction count generalizing dst p with
  | zero => exact ⟨dst, rfl, .nil dst p⟩
  | succ count ih =>
    obtain ⟨dst₁, hput, hw₁⟩ := exists_put dst p 32 (by omega)
    have hroom : p + 1 + count ≤ dst₁.size := by
      rw [hw₁.size]
      omega
    obtain ⟨dst₂, hrest, hw₂⟩ := ih _ _ hroom
    refine ⟨dst₂, ?_, hw₁.append hw₂⟩
    rw [putSpaces, hput]
    simp only [Option.bind_eq_bind, Option.bind_some, hrest]
    rw [Nat.add_assoc, Nat.add_comm 1]

/-- The string that stands in `s` from index `i` on. -/
theorem exists_appendStr {s : CharBuffer} {cs : List UInt8} {i : Nat}
    (hs : HasBytes s.chars i (cs ++ [0])) (hcs : ∀ c ∈ cs, c ≠ 0) (hsize : i + cs.length < s.size)
    (h : p + cs.length < dst.size) :
    ∃ dst', appendStr dst p s i = some (dst', p + cs.length) ∧ Wrote dst p (cs ++ [0]) dst' := by
  induction cs generalizing dst p i with
  | nil =>
    obtain ⟨dst₁, hput, hw⟩ := exists_put dst p 0 h
    refine ⟨dst₁, ?_, hw⟩
    have h0 : s.chars i = 0 := hs.1
    unfold appendStr
    rw [if_pos (by simpa using hsize), if_pos h0, endString, hput]
    rfl
  | cons c cs ih =>
    rw [List.length_cons] at hsize h ⊢
    have hc : s.chars i = c := hs.1
    have hne : c ≠ 0 := hcs c List.mem_cons_self
    obtain ⟨dst₁, hput, hw₁⟩ := exists_put dst p c (by omega)
    have hroom : p + 1 + cs.length < dst₁.size := by
      rw [hw₁.size]
      omega
    obtain ⟨dst₂, hrest, hw₂⟩ :=
      ih _ _ hs.2 (fun c hc => hcs c (List.mem_cons_of_mem _ hc)) (by omega) hroom
    refine ⟨dst₂, ?_, hw₁.append hw₂⟩
    unfold appendStr
    rw [if_pos (by omega), hc, if_neg hne, hput]
    simp only [Option.bind_eq_bind, Option.bind_some, hrest]
    rw [Nat.add_assoc, Nat.add_comm 1]

end Loops

/-! ## Decimal numbers -/

section Dec

variable (dst : CharBuffer) (p : Nat)

/-- A `tmp` that has room for the digits is enough. -/
theorem exists_appendDecimal {size value : Nat} (hsize : (digitsUp value).length ≤ size)
    (h : p + (decimal value).length < dst.size) :
    ∃ dst', appendDecimal size dst p value = some (dst', p + (decimal value).length) ∧
      Wrote dst p (decimal value ++ [0]) dst' := by
  unfold appendDecimal
  by_cases h0 : value = 0
  · subst h0
    have hroom : p + 1 < dst.size := h
    obtain ⟨dst₁, hput₁, hw₁⟩ := exists_put dst p (digitChar 0) (by omega)
    obtain ⟨dst₂, hput₂, hw₂⟩ := exists_put dst₁ (p + 1) 0 (by rw [hw₁.size]; omega)
    refine ⟨dst₂, ?_, hw₁.append hw₂⟩
    rw [if_pos rfl, hput₁]
    simp only [Option.bind_eq_bind, Option.bind_some, endString, hput₂]
    rfl
  · rw [length_decimal h0] at h ⊢
    obtain ⟨tmp, hemit, hw⟩ := exists_emitDigits (.fresh size) 0 value
      (by simpa [CharBuffer.fresh] using hsize)
    rw [Nat.zero_add] at hemit
    have htmp : (digitsUp value).length ≤ tmp.size := by
      rw [hw.size]
      exact hsize
    obtain ⟨dst₁, hcopy, hw₁⟩ := exists_copyDigits dst p hw.shows htmp h.le
    obtain ⟨dst₂, hput, hw₂⟩ := exists_put dst₁ (p + (digitsUp value).length) 0
      (by rw [hw₁.size]; exact h)
    rw [← List.length_reverse] at hw₂
    refine ⟨dst₂, ?_, ?_⟩
    · rw [if_neg h0, hemit]
      simp only [Option.bind_eq_bind, Option.bind_some, hcopy, endString, hput]
      rfl
    · rw [decimal, if_neg h0]
      exact hw₁.append hw₂

/-- With room for the digits, the size of `tmp` does not matter. -/
theorem appendDecimal_congr {size size' value : Nat} (hsize : (digitsUp value).length ≤ size)
    (hsize' : (digitsUp value).length ≤ size') :
    appendDecimal size dst p value = appendDecimal size' dst p value := by
  have hemit : ∀ size, (digitsUp value).length ≤ size → ∃ tmp,
      emitDigits (.fresh size) 0 value = some (tmp, (digitsUp value).length) ∧
        ∀ (k : Nat) (hk : k < (digitsUp value).length), tmp.get k = some (digitsUp value)[k] := by
    intro size hle
    obtain ⟨tmp, hemit, hw⟩ := exists_emitDigits (.fresh size) 0 value
      (by simpa [CharBuffer.fresh] using hle)
    rw [Nat.zero_add] at hemit
    refine ⟨tmp, hemit, fun k hk => ?_⟩
    have hlt : k < tmp.size := by
      rw [hw.size]
      exact hk.trans_le hle
    have hchar := hw.shows.getElem hk
    rw [Nat.zero_add] at hchar
    rw [CharBuffer.get, if_pos hlt, hchar]
  obtain ⟨tmp, hemit₁, hget⟩ := hemit size hsize
  obtain ⟨tmp', hemit₂, hget'⟩ := hemit size' hsize'
  -- only the digits are copied out of `tmp`, never what lies behind them
  have hcopy : ∀ n, n ≤ (digitsUp value).length → ∀ dst p,
      copyDigits tmp dst n p = copyDigits tmp' dst n p := by
    intro n
    induction n with
    | zero => exact fun _ _ _ => rfl
    | succ n ih =>
      intro hn dst p
      rw [copyDigits, copyDigits, hget n hn, hget' n hn]
      simp only [ih (Nat.le_of_succ_le hn)]
  unfold appendDecimal
  rw [hemit₁, hemit₂]
  simp only [Option.bind_eq_bind, Option.bind_some, hcopy _ le_rfl]

theorem length_decimal_le {value k : Nat} (hk : 0 < k) (h : value < 10 ^ k) :
    (decimal value).length ≤ k := by
  by_cases h0 : value = 0
  · subst h0
    exact hk
  · rw [length_decimal h0]
    exact length_digitsUp_le h

/-- A 64-bit number has at most 20 digits. -/
theorem length_digitsUp_toNat (value : UInt64) : (digitsUp value.toNat).length ≤ 20 :=
  length_digitsUp_le (value.toNat_lt.trans (by decide))

/-- A 32-bit number has at most 10 digits. -/
theorem length_digitsUp_toNat32 (value : UInt32) : (digitsUp value.toNat).length ≤ 10 :=
  length_digitsUp_le (value.toNat_lt.trans (by decide))

/-- The spaces and digits that `append_dec64_width` writes. -/
def padded (value : UInt64) (width : UInt32) : List UInt8 :=
  List.replicate (width.toNat - (decimal value.toNat).length) 32 ++ decimal value.toNat

theorem length_padded (value : UInt64) (width : UInt32) :
    (padded value width).length = max width.toNat (decimal value.toNat).length := by
  rw [padded, List.length_append, List.length_replicate]
  omega

theorem digit_ne_zero {value : Nat} {c : UInt8} (h : c ∈ decimal value) : c ≠ 0 := by
  rintro rfl
  have hdigit := ((isDecimal_decimal value).digit 0 h).1
  exact absurd hdigit (by decide)

theorem exists_appendDec64Width (value : UInt64) (width : UInt32)
    (h : p + (padded value width).length < dst.size) :
    ∃ dst', appendDec64Width dst p value width = some (dst', p + (padded value width).length) ∧
      Wrote dst p (padded value width ++ [0]) dst' := by
  have hle : (decimal value.toNat).length ≤ 20 :=
    length_decimal_le (by decide) (value.toNat_lt.trans (by decide))
  obtain ⟨tmp, hdec, hw⟩ := exists_appendDecimal (.fresh 21) 0
    (length_digitsUp_toNat value) (by simpa [CharBuffer.fresh] using by omega)
  rw [Nat.zero_add] at hdec
  have hn : (decimal value.toNat).length.toUInt32.toNat = (decimal value.toNat).length := by
    rw [Nat.toUInt32, UInt32.toNat_ofNat', Nat.mod_eq_of_lt (by omega)]
  have htmp : 0 + (decimal value.toNat).length < tmp.size := by
    rw [hw.size]
    simpa [CharBuffer.fresh] using by omega
  rw [length_padded] at h ⊢
  unfold appendDec64Width appendDec64
  rw [hdec]
  simp only [Option.bind_eq_bind, Option.bind_some]
  -- spaces and then the digits, or the digits alone
  by_cases hlt : (decimal value.toNat).length.toUInt32 < width
  · have hlt' := UInt32.lt_iff_toNat_lt.1 hlt
    have hcount : (width - (decimal value.toNat).length.toUInt32).toNat =
        width.toNat - (decimal value.toNat).length := by
      rw [UInt32.toNat_sub_of_le _ _ (UInt32.le_of_lt hlt), hn]
    obtain ⟨dst₁, hspaces, hw₁⟩ := exists_putSpaces dst p
      (width.toNat - (decimal value.toNat).length) (by omega)
    obtain ⟨dst₂, hend, hw₂⟩ := exists_put dst₁
      (p + (width.toNat - (decimal value.toNat).length)) 0 (by rw [hw₁.size]; omega)
    obtain ⟨dst₃, hstr, hw₃⟩ := exists_appendStr dst₂
      (p + (width.toNat - (decimal value.toNat).length)) hw.shows
      (fun _ => digit_ne_zero) htmp (by rw [hw₂.size, hw₁.size]; omega)
    refine ⟨dst₃, ?_, ?_⟩
    · rw [if_pos hlt, appendSpaces, hcount, hspaces]
      simp only [Option.bind_eq_bind, Option.bind_some, endString, hend, Option.pure_def, hstr]
      congr 2
      omega
    · -- The digits go over the zero after the spaces.
      rw [padded, List.append_assoc]
      rw [← List.length_replicate (n := width.toNat - (decimal value.toNat).length)
        (a := (32 : UInt8))] at hw₂ hw₃
      exact (hw₁.append hw₂).onto hw₃ (by simp)
  · have hge : width.toNat ≤ (decimal value.toNat).length := by
      rw [UInt32.lt_iff_toNat_lt] at hlt
      omega
    obtain ⟨dst₁, hstr, hw₁⟩ := exists_appendStr dst p hw.shows
      (fun _ => digit_ne_zero) htmp (by omega)
    refine ⟨dst₁, ?_, ?_⟩
    · rw [if_neg hlt]
      simp only [hstr]
      congr 2
      omega
    · rw [padded, Nat.sub_eq_zero_of_le hge]
      exact hw₁

/-- The string is exact, and none of the buffers is left. -/
theorem appendDec64Width_exact (value : UInt64) (width : UInt32)
    (h : p + max width.toNat (decimal value.toNat).length < dst.size) :
    IsDecimal value.toNat (decimal value.toNat) ∧
      (∃ dst', appendDec64Width dst p value width =
          some (dst', p + max width.toNat (decimal value.toNat).length) ∧
        Wrote dst p (List.replicate (width.toNat - (decimal value.toNat).length) 32 ++
          decimal value.toNat ++ [0]) dst' ∧
        dst'.chars (p + max width.toNat (decimal value.toNat).length) = 0) ∧
      ∀ (v : UInt32) (dst : CharBuffer) (p : Nat),
        appendDec dst p v = appendDec64 dst p v.toUInt64 ∧
          (p + (decimal v.toNat).length < dst.size → ∃ dst',
            appendDec dst p v = some (dst', p + (decimal v.toNat).length) ∧
              Wrote dst p (decimal v.toNat ++ [0]) dst') := by
  rw [← length_padded] at h ⊢
  obtain ⟨dst', heq, hw⟩ := exists_appendDec64Width dst p value width h
  have hnul := (HasBytes.append.1 hw.shows).2.1
  refine ⟨isDecimal_decimal _, ⟨dst', heq, hw, hnul⟩, fun v dst p => ⟨?_, fun hroom => ?_⟩⟩
  · rw [appendDec, appendDec64, UInt32.toNat_toUInt64]
    have hdigits := length_digitsUp_toNat32 v
    exact appendDecimal_congr dst p hdigits (hdigits.trans (by decide))
  · exact exists_appendDecimal dst p (length_digitsUp_toNat32 v) hroom

/-- 42 in a column of six. -/
theorem appendDec64Width_exact_fortyTwo :
    2 + max (6 : UInt32).toNat (decimal (42 : UInt64).toNat).length < (CharBuffer.fresh 9).size ∧
      ∃ dst', appendDec64Width (.fresh 9) 2 42 6 =
        some (dst', 2 + max (6 : UInt32).toNat (decimal (42 : UInt64).toNat).length) := by
  have hroom : 2 + max (6 : UInt32).toNat (decimal (42 : UInt64).toNat).length <
      (CharBuffer.fresh 9).size := by
    have h2 : (decimal (42 : UInt64).toNat).length ≤ 2 := length_decimal_le (by decide) (by decide)
    have h6 : (6 : UInt32).toNat = 6 := rfl
    have h9 : (CharBuffer.fresh 9).size = 9 := rfl
    omega
  obtain ⟨-, ⟨dst', heq, -, -⟩, -⟩ := appendDec64Width_exact (.fresh 9) 2 42 6 hroom
  exact ⟨hroom, dst', heq⟩

end Dec

end VibeKernel

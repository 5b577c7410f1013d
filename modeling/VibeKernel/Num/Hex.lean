import VibeKernel.Num.Decimal

/-!
# Hexadecimal numerals

A number as a fixed count of hexadecimal digits, most significant first.
-/

namespace Num

/-- `"0123456789ABCDEF"[d]`. -/
def hexChar (d : Nat) : UInt8 := UInt8.ofNat (if d < 10 then 48 + d else 55 + d)

/-- What a hexadecimal digit stands for. -/
def hexValue (c : UInt8) : Nat := if c.toNat < 58 then c.toNat - 48 else c.toNat - 55

/-- What a string of hexadecimal digits stands for. -/
def readHex (cs : List UInt8) : Nat := cs.foldl (fun v c => 16 * v + hexValue c) 0

/-- The last `k` digits of `n`. -/
def hexDigits : Nat → Nat → List UInt8
  | 0, _ => []
  | k + 1, n => hexDigits k (n / 16) ++ [hexChar (n % 16)]

theorem toNat_hexChar {d : Nat} (h : d < 16) :
    (hexChar d).toNat = if d < 10 then 48 + d else 55 + d := by
  rw [hexChar, UInt8.toNat_ofNat', Nat.mod_eq_of_lt]
  split_ifs <;> omega

theorem hexValue_hexChar {d : Nat} (h : d < 16) : hexValue (hexChar d) = d := by
  rw [hexValue, toNat_hexChar h]
  split_ifs <;> omega

theorem readHex_append (cs : List UInt8) (c : UInt8) :
    readHex (cs ++ [c]) = 16 * readHex cs + hexValue c := by
  simp [readHex]

@[simp] theorem length_hexDigits (k n : Nat) : (hexDigits k n).length = k := by
  induction k generalizing n with
  | zero => rfl
  | succ k ih => rw [hexDigits, List.length_append, ih, List.length_singleton]

/-- **A number is read back from its digits.** -/
theorem readHex_hexDigits {k n : Nat} (h : n < 16 ^ k) : readHex (hexDigits k n) = n := by
  induction k generalizing n with
  | zero =>
    obtain rfl : n = 0 := Nat.lt_one_iff.1 h
    rfl
  | succ k ih =>
    have hlt : n / 16 < 16 ^ k := Nat.div_lt_of_lt_mul (by rwa [Nat.pow_succ'] at h)
    rw [hexDigits, readHex_append, ih hlt, hexValue_hexChar (Nat.mod_lt n (by decide))]
    exact Nat.div_add_mod n 16

/-- Digit by digit, from the most significant one. -/
theorem hexDigits_succ (k n : Nat) :
    hexDigits (k + 1) n = hexChar (n / 16 ^ k % 16) :: hexDigits k n := by
  induction k generalizing n with
  | zero => simp [hexDigits]
  | succ k ih =>
    rw [hexDigits, ih (n / 16), List.cons_append, Nat.div_div_eq_div_mul, ← Nat.pow_succ']
    rfl

theorem hexChar_bounds {d : Nat} (h : d < 16) : 48 ≤ (hexChar d).toNat ∧ (hexChar d).toNat ≤ 70 := by
  rw [toNat_hexChar h]
  split_ifs <;> omega

theorem mem_hexDigits {k n : Nat} {c : UInt8} (h : c ∈ hexDigits k n) :
    48 ≤ c.toNat ∧ c.toNat ≤ 70 := by
  induction k generalizing n with
  | zero => cases h
  | succ k ih =>
    rcases List.mem_append.1 h with h | h
    · exact ih h
    · obtain rfl := List.mem_singleton.1 h
      exact hexChar_bounds (Nat.mod_lt n (by decide))

end Num

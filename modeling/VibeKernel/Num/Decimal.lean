import Mathlib.Data.Nat.Digits.Lemmas

/-!
# Decimal numerals

A number as its ASCII digits, most significant first.
-/

namespace Num

/-- `'0' + d`. -/
def digitChar (d : Nat) : UInt8 := UInt8.ofNat (48 + d)

/-- What a string of digits stands for. -/
def readDecimal (cs : List UInt8) : Nat := cs.foldl (fun v c => 10 * v + (c.toNat - 48)) 0

/-- The digits of `n`, least significant first. None if `n` is 0. -/
def digitsUp (n : Nat) : List UInt8 := (Nat.digits 10 n).map digitChar

/-- The digits of `n`. -/
def decimal (n : Nat) : List UInt8 := if n = 0 then [digitChar 0] else (digitsUp n).reverse

/-- `cs` is the one way to write `n`. -/
structure IsDecimal (n : Nat) (cs : List UInt8) : Prop where
  digit : ∀ c ∈ cs, 48 ≤ c.toNat ∧ c.toNat ≤ 57
  read : readDecimal cs = n
  nonempty : cs ≠ []
  noLeadingZero : cs.head? = some 48 → n = 0 ∧ cs = [48]

theorem toNat_digitChar {d : Nat} (h : d < 10) : (digitChar d).toNat = 48 + d := by
  rw [digitChar, UInt8.toNat_ofNat', Nat.mod_eq_of_lt (by omega)]

theorem digitsUp_pos {n : Nat} (h : n ≠ 0) :
    digitsUp n = digitChar (n % 10) :: digitsUp (n / 10) := by
  rw [digitsUp, Nat.digits_def' (by decide) (Nat.pos_of_ne_zero h), List.map_cons, digitsUp]

theorem readDecimal_append (cs : List UInt8) (c : UInt8) :
    readDecimal (cs ++ [c]) = 10 * readDecimal cs + (c.toNat - 48) := by
  simp [readDecimal]

theorem readDecimal_reverse_digitsUp (n : Nat) : readDecimal (digitsUp n).reverse = n := by
  induction n using Nat.strongRecOn with
  | ind n ih =>
    by_cases h : n = 0
    · subst h
      rfl
    · have hlt : n / 10 < n := Nat.div_lt_self (Nat.pos_of_ne_zero h) (by decide)
      rw [digitsUp_pos h, List.reverse_cons, readDecimal_append, ih _ hlt,
        toNat_digitChar (Nat.mod_lt _ (by decide))]
      omega

theorem mem_digitsUp {n : Nat} {c : UInt8} (h : c ∈ digitsUp n) :
    48 ≤ c.toNat ∧ c.toNat ≤ 57 := by
  obtain ⟨d, hd, rfl⟩ := List.mem_map.1 h
  have hlt : d < 10 := Nat.digits_lt_base (by decide) hd
  rw [toNat_digitChar hlt]
  omega

/-- The most significant digit is not 0. -/
theorem head?_reverse_digitsUp {n : Nat} (h : n ≠ 0) : (digitsUp n).reverse.head? ≠ some 48 := by
  have hne : Nat.digits 10 n ≠ [] := Nat.digits_ne_nil_iff_ne_zero.2 h
  have hlast := Nat.getLast_digit_ne_zero 10 h
  have hlt : (Nat.digits 10 n).getLast hne < 10 :=
    Nat.digits_lt_base (by decide) (List.getLast_mem hne)
  rw [List.head?_reverse, digitsUp, List.getLast?_map, List.getLast?_eq_getLast_of_ne_nil hne]
  intro he
  have hchar : digitChar ((Nat.digits 10 n).getLast hne) = 48 := Option.some.inj he
  have hval := toNat_digitChar hlt
  rw [hchar] at hval
  have h48 : (48 : UInt8).toNat = 48 := rfl
  omega

theorem isDecimal_decimal (n : Nat) : IsDecimal n (decimal n) := by
  by_cases h : n = 0
  · subst h
    have hzero : decimal 0 = [48] := rfl
    rw [hzero]
    refine ⟨?_, rfl, List.cons_ne_nil _ _, fun _ => ⟨rfl, rfl⟩⟩
    intro c hc
    obtain rfl := List.mem_singleton.1 hc
    decide
  · rw [decimal, if_neg h]
    refine ⟨fun c hc => mem_digitsUp (List.mem_reverse.1 hc), readDecimal_reverse_digitsUp n, ?_,
      fun h0 => absurd h0 (head?_reverse_digitsUp h)⟩
    rw [digitsUp_pos h]
    simp

/-- A number below `10 ^ k` has at most `k` digits. -/
theorem length_digitsUp_le {n k : Nat} (h : n < 10 ^ k) : (digitsUp n).length ≤ k := by
  rw [digitsUp, List.length_map]
  exact (Nat.digits_length_le_iff (by decide) n).2 h

theorem length_decimal {n : Nat} (h : n ≠ 0) : (decimal n).length = (digitsUp n).length := by
  rw [decimal, if_neg h, List.length_reverse]

end Num

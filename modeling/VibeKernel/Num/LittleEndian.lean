import Mathlib.Tactic.Ring

/-!
# Little-endian numbers

The number in a run of bytes, lowest byte first. A buffer is a function from offsets to bytes.
-/

namespace Num

/-- The number in the first `n` bytes of `f`. -/
def le : Nat → (Nat → UInt8) → Nat
  | 0, _ => 0
  | n + 1, f => (f 0).toNat + 256 * le n fun k => f (k + 1)

/-- Byte `k` of `x`. -/
def byteOf (x k : Nat) : UInt8 := UInt8.ofNat (x / 256 ^ k)

theorem le_lt (n : Nat) (f : Nat → UInt8) : le n f < 256 ^ n := by
  induction n generalizing f with
  | zero => simp [le]
  | succ n ih =>
    have hrest := ih fun k => f (k + 1)
    have hbyte := (f 0).toNat_lt
    rw [le, pow_succ]
    omega

theorem le_congr {n : Nat} {f g : Nat → UInt8} (h : ∀ k < n, f k = g k) : le n f = le n g := by
  induction n generalizing f g with
  | zero => rfl
  | succ n ih => rw [le, le, h 0 (by omega), ih fun k hk => h (k + 1) (by omega)]

/-- Reading back the bytes of `x`. -/
theorem le_byteOf {n x : Nat} (h : x < 256 ^ n) : le n (byteOf x) = x := by
  induction n generalizing x with
  | zero => simp [le] at h ⊢; omega
  | succ n ih =>
    have hshift : (fun k => byteOf x (k + 1)) = byteOf (x / 256) := by
      funext k
      simp only [byteOf, pow_succ, Nat.div_div_eq_div_mul, Nat.mul_comm]
    have hrest := ih (x := x / 256) (by rw [pow_succ] at h; omega)
    rw [le, hshift, hrest]
    simp only [byteOf, pow_zero, Nat.div_one, UInt8.toNat_ofNat']
    omega

end Num

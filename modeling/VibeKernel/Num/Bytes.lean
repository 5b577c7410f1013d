import VibeKernel.Num.LittleEndian
import Mathlib.Logic.Function.Basic
import Mathlib.Data.List.Basic

/-!
# Byte stores

The bytes of a machine word, and pages that are filled by one byte store after another. A page is a
function from offsets to bytes.
-/

namespace Num

/-! ## Words -/

/-- The bytes of a 16-bit word, as a program stores them. -/
def bytes16 (v : UInt16) : List UInt8 := [(v &&& 0xff).toUInt8, ((v >>> 8) &&& 0xff).toUInt8]

/-- The bytes of a 32-bit word. -/
def bytes32 (v : UInt32) : List UInt8 :=
  [(v &&& 0xff).toUInt8, ((v >>> 8) &&& 0xff).toUInt8, ((v >>> 16) &&& 0xff).toUInt8,
    ((v >>> 24) &&& 0xff).toUInt8]

/-- The bytes of a 64-bit word, one half after the other. -/
def bytes64 (v : UInt64) : List UInt8 :=
  bytes32 (v &&& 0xffffffff).toUInt32 ++ bytes32 (v >>> 32).toUInt32

@[simp] theorem length_bytes16 (v : UInt16) : (bytes16 v).length = 2 := rfl
@[simp] theorem length_bytes32 (v : UInt32) : (bytes32 v).length = 4 := rfl
@[simp] theorem length_bytes64 (v : UInt64) : (bytes64 v).length = 8 := rfl

/-- The number in a list of bytes, lowest byte first. -/
def leList (bs : List UInt8) : Nat := le bs.length fun k => bs.getD k 0

theorem leList_cons (b : UInt8) (bs : List UInt8) :
    leList (b :: bs) = b.toNat + 256 * leList bs := by
  simp [leList, le]

theorem leList_bytes32 (v : UInt32) : leList (bytes32 v) = v.toNat := by
  have hv := v.toNat_lt
  have hmask : ∀ x : Nat, x &&& 255 = x % 256 := fun x => Nat.and_two_pow_sub_one_eq_mod x 8
  simp only [bytes32, leList_cons]
  simp [leList, le, hmask, Nat.shiftRight_eq_div_pow]
  omega

theorem leList_append (bs cs : List UInt8) :
    leList (bs ++ cs) = leList bs + 256 ^ bs.length * leList cs := by
  induction bs with
  | nil => simp [leList, le]
  | cons b bs ih =>
    rw [List.cons_append, leList_cons, leList_cons, ih, List.length_cons, pow_succ]
    ring

/-- A word is read back from its bytes. -/
theorem leList_bytes64 (v : UInt64) : leList (bytes64 v) = v.toNat := by
  have hv := v.toNat_lt
  have hmask : ∀ x : Nat, x &&& 4294967295 = x % 4294967296 := fun x =>
    Nat.and_two_pow_sub_one_eq_mod x 32
  rw [bytes64, leList_append, leList_bytes32, leList_bytes32]
  simp [hmask, Nat.shiftRight_eq_div_pow]
  omega

/-! ## Stores -/

/-- The stores of `bs` at `off` and on. -/
def emitAt : Nat → List UInt8 → List (Nat × UInt8)
  | _, [] => []
  | off, b :: bs => (off, b) :: emitAt (off + 1) bs

/-- The page after some stores. -/
def storeAll (page : Nat → UInt8) : List (Nat × UInt8) → Nat → UInt8
  | [] => page
  | w :: ws => storeAll (Function.update page w.1 w.2) ws

/-- `page` has the bytes `bs` at `off`. -/
def HasBytes (page : Nat → UInt8) : Nat → List UInt8 → Prop
  | _, [] => True
  | off, b :: bs => page off = b ∧ HasBytes page (off + 1) bs

theorem storeAll_append (page : Nat → UInt8) (ws us : List (Nat × UInt8)) :
    storeAll page (ws ++ us) = storeAll (storeAll page ws) us := by
  induction ws generalizing page with
  | nil => rfl
  | cons w ws ih => exact ih _

/-- A byte that no store hits. -/
theorem storeAll_of_ne {page : Nat → UInt8} {ws : List (Nat × UInt8)} {k : Nat}
    (h : ∀ w ∈ ws, w.1 ≠ k) : storeAll page ws k = page k := by
  induction ws generalizing page with
  | nil => rfl
  | cons w ws ih =>
    have hw : k ≠ w.1 := fun hk => h w List.mem_cons_self hk.symm
    rw [storeAll, ih fun u hu => h u (List.mem_cons_of_mem _ hu), Function.update_of_ne hw]

theorem mem_emitAt {off : Nat} {bs : List UInt8} {w : Nat × UInt8} (h : w ∈ emitAt off bs) :
    off ≤ w.1 ∧ w.1 < off + bs.length := by
  induction bs generalizing off with
  | nil => cases h
  | cons b bs ih =>
    rw [List.length_cons]
    rcases List.mem_cons.1 h with rfl | h
    · simp
    · have := ih h
      omega

theorem HasBytes.append {page : Nat → UInt8} {off : Nat} {bs cs : List UInt8} :
    HasBytes page off (bs ++ cs) ↔ HasBytes page off bs ∧ HasBytes page (off + bs.length) cs := by
  induction bs generalizing off with
  | nil => simp [HasBytes]
  | cons b bs ih =>
    rw [List.cons_append, HasBytes, HasBytes, ih, and_assoc, List.length_cons, Nat.add_assoc off 1,
      Nat.add_comm 1]

/-- Pages that agree on a range show the same there. -/
theorem HasBytes.congr {page page' : Nat → UInt8} {off : Nat} {bs : List UInt8}
    (h : HasBytes page off bs) (hp : ∀ k, off ≤ k → k < off + bs.length → page' k = page k) :
    HasBytes page' off bs := by
  induction bs generalizing off with
  | nil => trivial
  | cons b bs ih =>
    rw [List.length_cons] at hp
    refine ⟨?_, ih h.2 fun k hk hk' => hp k (by omega) (by omega)⟩
    rw [hp off le_rfl (by omega)]
    exact h.1

/-- A byte that is shown. -/
theorem HasBytes.getElem {page : Nat → UInt8} {off k : Nat} {bs : List UInt8}
    (h : HasBytes page off bs) (hk : k < bs.length) : page (off + k) = bs[k] := by
  induction bs generalizing off k with
  | nil => exact absurd hk (Nat.not_lt_zero _)
  | cons b bs ih =>
    cases k with
    | zero => exact h.1
    | succ k =>
      have hlt : k < bs.length := by simpa using hk
      have hbyte := ih h.2 hlt
      rwa [Nat.add_assoc, Nat.add_comm 1] at hbyte

/-- What is emitted at an offset is shown there. -/
theorem shows_emitAt (page : Nat → UInt8) (off : Nat) (bs : List UInt8) :
    HasBytes (storeAll page (emitAt off bs)) off bs := by
  induction bs generalizing page off with
  | nil => trivial
  | cons b bs ih =>
    refine ⟨?_, ih _ _⟩
    have hlater : ∀ w ∈ emitAt (off + 1) bs, w.1 ≠ off := by
      intro w hw
      have := mem_emitAt hw
      omega
    rw [emitAt, storeAll, storeAll_of_ne hlater]
    simp

/-- Stores elsewhere keep what is shown. -/
theorem HasBytes.storeAll {page : Nat → UInt8} {off : Nat} {bs : List UInt8}
    {ws : List (Nat × UInt8)} (h : HasBytes page off bs)
    (hw : ∀ w ∈ ws, w.1 < off ∨ off + bs.length ≤ w.1) : HasBytes (storeAll page ws) off bs := by
  refine h.congr fun k hk hk' => storeAll_of_ne fun w hmem heq => ?_
  have := hw w hmem
  omega

end Num

import Mathlib.Data.Fintype.Card
import Mathlib.Data.List.Forall2

/-!
# Counting

How many elements of a finite type, or of a list, a test admits, and how the count changes with the
test.
-/

namespace Num

variable {ι : Type*} [Fintype ι]

/-- How many elements `p` admits. -/
def countTrue (p : ι → Bool) : Nat := (Finset.univ.filter fun i => p i = true).card

variable {p q : ι → Bool} {i : ι}

theorem countTrue_le (p : ι → Bool) : countTrue p ≤ Fintype.card ι := Finset.card_filter_le _ _

@[simp] theorem countTrue_false : countTrue (fun _ : ι => false) = 0 := by simp [countTrue]

theorem countTrue_eq_zero_iff : countTrue p = 0 ↔ ∀ i, p i = false := by
  simp [countTrue, Finset.filter_eq_empty_iff]

/-- One more element is admitted. -/
theorem countTrue_succ (hp : p i = false) (hq : q i = true) (h : ∀ j ≠ i, q j = p j) :
    countTrue q = countTrue p + 1 := by
  classical
  have hset : (Finset.univ.filter fun j => q j = true) =
      insert i (Finset.univ.filter fun j => p j = true) := by
    ext j
    simp only [Finset.mem_filter, Finset.mem_univ, true_and, Finset.mem_insert]
    by_cases hj : j = i
    · subst hj
      simp [hq]
    · simp [hj, h j hj]
  rw [countTrue, countTrue, hset, Finset.card_insert_of_notMem (by simp [hp])]

/-- The elements that `p` admits, divided by another test. -/
theorem countTrue_and_add (p q : ι → Bool) :
    countTrue (fun i => p i && q i) + countTrue (fun i => p i && !q i) = countTrue p := by
  classical
  rw [countTrue, countTrue, countTrue, ← Finset.card_union_of_disjoint]
  · congr 1
    ext i
    cases hq : q i <;> simp [hq]
  · rw [Finset.disjoint_filter]
    intro i _ h
    simp_all

/-- Two lists that agree element by element. -/
theorem countP_eq_of_forall₂ {α β : Type*} {f : α → Bool} {g : β → Bool} {xs : List α} {ys : List β}
    (h : List.Forall₂ (fun x y => f x = g y) xs ys) : xs.countP f = ys.countP g := by
  induction h with
  | nil => rfl
  | cons hxy _ ih => rw [List.countP_cons, List.countP_cons, ih, hxy]

end Num

import Mathlib.Data.Int.CardIntervalMod

/-!
# Taking turns

Going round and round a list, one element at a time. Nobody in the list gets more than one turn more
than anybody else.
-/

namespace Num

variable {α : Type*} {l : List α} {a : α}

/-- The `n` elements from position `r` on, after the last the first again. -/
def turns (l : List α) : Nat → Nat → List α
  | 0, _ => []
  | n + 1, r => l[r % l.length]?.toList ++ turns l n (r + 1)

/-- Only the position in the list matters. -/
theorem turns_mod (l : List α) (n r : Nat) : turns l n (r % l.length) = turns l n r := by
  induction n generalizing r with
  | zero => rfl
  | succ n ih =>
    rw [turns, turns, Nat.mod_mod, ← ih (r + 1), ← ih (r % l.length + 1), Nat.mod_add_mod]

theorem mem_of_mem_turns {n r : Nat} (h : a ∈ turns l n r) : a ∈ l := by
  induction n generalizing r with
  | zero => cases h
  | succ n ih =>
    rcases List.mem_append.1 h with h | h
    · exact List.mem_of_getElem? (Option.mem_toList.1 h)
    · exact ih h

theorem length_turns (hl : l ≠ []) (n r : Nat) : (turns l n r).length = n := by
  induction n generalizing r with
  | zero => rfl
  | succ n ih =>
    have hlt : r % l.length < l.length := Nat.mod_lt _ (List.length_pos_iff.2 hl)
    rw [turns, List.getElem?_eq_getElem hlt, Option.toList_some, List.singleton_append,
      List.length_cons, ih]

section Count

variable [DecidableEq α]

/-- The turns of the element in position `j`. -/
theorem count_turns_eq_count (hl : l.Nodup) {j : Nat} (hj : l[j]? = some a) (n r : Nat) :
    (turns l n r).count a = Nat.count (fun k => (r + k) % l.length = j) n := by
  induction n generalizing r with
  | zero => rfl
  | succ n ih =>
    obtain ⟨hjlt, hja⟩ := List.getElem?_eq_some_iff.1 hj
    have hlt : r % l.length < l.length := Nat.mod_lt _ (by omega)
    have hhead : l[r % l.length] = a ↔ r % l.length = j := by
      rw [← hja]
      exact hl.getElem_inj_iff
    rw [turns, Nat.count_succ', List.getElem?_eq_getElem hlt, Option.toList_some,
      List.singleton_append, List.count_cons, ih]
    simp only [beq_iff_eq, hhead, Nat.add_zero, Nat.add_assoc, Nat.add_comm 1]

/-- Within `n` turns each element has its share, rounded down or up. -/
theorem count_turns (hl : l.Nodup) (ha : a ∈ l) (n r : Nat) :
    (turns l n r).count a = n / l.length ∨
      (turns l n r).count a = (n + l.length - 1) / l.length := by
  obtain ⟨j, hjlt, hj⟩ := List.getElem_of_mem ha
  have hpos : 0 < l.length := by omega
  have hr := Nat.mod_lt r hpos
  -- turn `k` is at position `j` if `k` is a fixed number modulo the length
  have hmod : ∀ k, (r + k) % l.length = j ↔ k ≡ j + (l.length - r % l.length) [MOD l.length] := by
    intro k
    have hr' : r ≡ r % l.length [MOD l.length] := (Nat.mod_modEq r _).symm
    constructor
    · intro h
      have hj' : r % l.length + k ≡ j [MOD l.length] := by
        rw [Nat.ModEq, Nat.mod_add_mod, h, Nat.mod_eq_of_lt hjlt]
      have hsum := hj'.add_right (l.length - r % l.length)
      rw [show r % l.length + k + (l.length - r % l.length) = k + l.length by omega] at hsum
      exact (Nat.add_modEq_right.symm.trans hsum)
    · intro h
      have hsum := h.add_left (r % l.length)
      rw [show r % l.length + (j + (l.length - r % l.length)) = j + l.length by omega] at hsum
      have hk := (hr'.add_right k).trans (hsum.trans Nat.add_modEq_right)
      rw [Nat.ModEq, Nat.mod_eq_of_lt hjlt] at hk
      exact hk
  rw [count_turns_eq_count hl (List.getElem?_eq_some_iff.2 ⟨hjlt, hj⟩)]
  simp only [hmod]
  rw [Nat.count_modEq_card _ hpos]
  split_ifs with hlt
  · right
    have hrest : 0 < n % l.length := by omega
    have hdiv := Nat.div_add_mod n l.length
    have hrlt := Nat.mod_lt n hpos
    have hup : n + l.length - 1 = (n % l.length - 1) + l.length * (n / l.length + 1) := by
      rw [Nat.mul_add, Nat.mul_one]
      omega
    rw [hup, Nat.add_mul_div_left _ _ hpos, Nat.div_eq_of_lt (show n % l.length - 1 < l.length by omega),
      Nat.zero_add]
  · exact Or.inl rfl

end Count

end Num

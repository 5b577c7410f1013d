import Mathlib.Algebra.BigOperators.Group.Finset.Basic
import Mathlib.Algebra.Order.BigOperators.Group.Finset
import Mathlib.Data.Finset.Card
import Mathlib.Data.Finset.Prod
import Mathlib.Data.Nat.ModEq

/-!
# Radix trees of tables

A tree of tables with `B` entries each, over leaves that are numbers. A table is named by its level
and by the prefix that the leaves below it share; level 0 holds the leaves. How many tables the
leaves below a bound can need does not depend on the order in which they are added.
-/

namespace Num.Radix

/-- A table: its level and its prefix. -/
abbrev Table := Nat × Nat

variable {B : Nat}

/-- The table of level `l` that leaf `p` is below. -/
def tableOver (B l p : Nat) : Table := (l, p / B ^ (l + 1))

/-- The index of leaf `p` in that table. -/
def index (B l p : Nat) : Nat := p / B ^ l % B

/-- The table at index `i` of table `t`. -/
def child (B : Nat) (t : Table) (i : Nat) : Table := (t.1 - 1, t.2 * B + i)

theorem index_lt (hB : 0 < B) (l p : Nat) : index B l p < B := Nat.mod_lt _ hB

/-- One step down towards leaf `p`. -/
theorem child_over (l p : Nat) : child B (tableOver B (l + 1) p) (index B (l + 1) p) = tableOver B l p := by
  have hprefix : p / B ^ (l + 1 + 1) = p / B ^ (l + 1) / B := by
    rw [Nat.div_div_eq_div_mul, pow_succ]
  simp only [child, tableOver, index, hprefix, Nat.add_sub_cancel, Prod.mk.injEq, true_and]
  exact Nat.div_add_mod' _ _

/-- The last step: the leaf itself. -/
theorem over_zero_mul_add_index (p : Nat) : (tableOver B 0 p).2 * B + index B 0 p = p := by
  simp only [tableOver, index, Nat.zero_add, Nat.pow_one, Nat.pow_zero, Nat.div_one]
  exact Nat.div_add_mod' _ _

/-- The tables of level `l` over the leaves below `m`. -/
def tablesAt (B m l : Nat) : Nat := (m + B ^ (l + 1) - 1) / B ^ (l + 1)

/-- A table over some leaf below `m`. -/
def Below (m top : Nat) (B : Nat) (t : Table) : Prop := t.1 ≤ top ∧ t.2 < tablesAt B m t.1

theorem below_over (hB : 0 < B) {m top l p : Nat} (hl : l ≤ top) (hp : p < m) :
    Below m top B (tableOver B l p) := by
  refine ⟨hl, ?_⟩
  have hpos : 0 < B ^ (l + 1) := Nat.pow_pos hB
  have hstep : p / B ^ (l + 1) + 1 = (p + B ^ (l + 1)) / B ^ (l + 1) := (Nat.add_div_right _ hpos).symm
  have hle : (p + B ^ (l + 1)) / B ^ (l + 1) ≤ (m + B ^ (l + 1) - 1) / B ^ (l + 1) :=
    Nat.div_le_div_right (by omega)
  show p / B ^ (l + 1) < tablesAt B m l
  unfold tablesAt
  omega

/-- **No set of leaves below `m` needs more tables than every level's rounded-up quotient.** -/
theorem length_le_of_below {m top : Nat} {ts : List Table} (hnodup : ts.Nodup)
    (h : ∀ t ∈ ts, Below m top B t) :
    ts.length ≤ ∑ l ∈ Finset.range (top + 1), tablesAt B m l := by
  classical
  have hsub : ts.toFinset ⊆ (Finset.range (top + 1)).biUnion fun l =>
      (Finset.range (tablesAt B m l)).image (Prod.mk l) := by
    intro t ht
    obtain ⟨hl, hq⟩ := h t (List.mem_toFinset.1 ht)
    simp only [Finset.mem_biUnion, Finset.mem_range, Finset.mem_image]
    exact ⟨t.1, by omega, t.2, hq, rfl⟩
  calc ts.length = ts.toFinset.card := (List.toFinset_card_of_nodup hnodup).symm
    _ ≤ _ := Finset.card_le_card hsub
    _ ≤ ∑ l ∈ Finset.range (top + 1), ((Finset.range (tablesAt B m l)).image (Prod.mk l)).card :=
      Finset.card_biUnion_le
    _ ≤ ∑ l ∈ Finset.range (top + 1), tablesAt B m l :=
      Finset.sum_le_sum fun l _ => Finset.card_image_le.trans (by simp)

end Num.Radix

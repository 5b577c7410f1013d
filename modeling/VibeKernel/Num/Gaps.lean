import Mathlib.Order.Lattice
import Mathlib.Order.Defs.LinearOrder
import Mathlib.Data.List.Pairwise

/-!
# Gaps between intervals

Half-open intervals in the order of their starts, with a cursor that has passed everything up to
the highest end so far. A gap is left where an interval starts after the cursor.
-/

namespace Num

variable {α β : Type*} [LinearOrder α]

/-- The gaps from `cursor` on, before the intervals `[lo b, hi b)` of `bs`. -/
def gaps (lo hi : β → α) : List β → α → List (α × α)
  | [], _ => []
  | b :: bs, cursor =>
    (if cursor < lo b then [(cursor, lo b)] else []) ++ gaps lo hi bs (max cursor (hi b))

variable {lo hi : β → α} {bs : List β} {cursor : α}

/-- Gaps are not empty and lie after the cursor. -/
theorem le_of_mem_gaps {g : α × α} (hg : g ∈ gaps lo hi bs cursor) : cursor ≤ g.1 ∧ g.1 < g.2 := by
  induction bs generalizing cursor with
  | nil => cases hg
  | cons b bs ih =>
    rcases List.mem_append.1 hg with hg | hg
    · split at hg
      · rename_i hlt
        obtain rfl := List.mem_singleton.1 hg
        exact ⟨le_rfl, hlt⟩
      · cases hg
    · obtain ⟨hle, hlt⟩ := ih hg
      exact ⟨(le_max_left _ _).trans hle, hlt⟩

/-- Each gap ends before the next one starts. -/
theorem pairwise_gaps (hspan : ∀ b ∈ bs, lo b ≤ hi b) :
    (gaps lo hi bs cursor).Pairwise fun g k => g.2 ≤ k.1 := by
  induction bs generalizing cursor with
  | nil => exact List.Pairwise.nil
  | cons b bs ih =>
    obtain ⟨hb, hbs⟩ := List.forall_mem_cons.1 hspan
    rw [gaps]
    split
    · refine List.pairwise_cons.2 ⟨fun k hk => ?_, ih hbs⟩
      exact hb.trans ((le_max_right _ _).trans (le_of_mem_gaps hk).1)
    · exact ih hbs

/-- The gaps are what no interval covers, up to the highest start. -/
theorem mem_gaps_iff (hsorted : bs.Pairwise fun b c => lo b ≤ lo c) {a : α} (ha : cursor ≤ a) :
    (∃ g ∈ gaps lo hi bs cursor, g.1 ≤ a ∧ a < g.2) ↔
      (∃ b ∈ bs, a < lo b) ∧ ∀ b ∈ bs, ¬ (lo b ≤ a ∧ a < hi b) := by
  induction bs generalizing cursor with
  | nil => simp [gaps]
  | cons b bs ih =>
    obtain ⟨hfirst, hrest⟩ := List.pairwise_cons.1 hsorted
    by_cases hbefore : a < lo b
    · -- in the gap before `b`
      have hgap : gaps lo hi (b :: bs) cursor = (cursor, lo b) :: gaps lo hi bs (max cursor (hi b)) := by
        rw [gaps, if_pos (ha.trans_lt hbefore)]
        rfl
      refine iff_of_true ⟨_, hgap ▸ List.mem_cons_self, ha, hbefore⟩ ⟨⟨b, List.mem_cons_self, hbefore⟩, ?_⟩
      refine List.forall_mem_cons.2 ⟨fun h => absurd hbefore (not_lt.2 h.1), fun c hc h => ?_⟩
      exact absurd hbefore (not_lt.2 ((hfirst c hc).trans h.1))
    · have hle : lo b ≤ a := not_lt.1 hbefore
      have hgap : (∃ g ∈ gaps lo hi (b :: bs) cursor, g.1 ≤ a ∧ a < g.2) ↔
          ∃ g ∈ gaps lo hi bs (max cursor (hi b)), g.1 ≤ a ∧ a < g.2 := by
        rw [gaps]
        constructor
        · rintro ⟨g, hg, hin⟩
          rcases List.mem_append.1 hg with hg | hg
          · split at hg
            · obtain rfl := List.mem_singleton.1 hg
              exact absurd hin.2 hbefore
            · cases hg
          · exact ⟨g, hg, hin⟩
        · rintro ⟨g, hg, hin⟩
          exact ⟨g, List.mem_append_right _ hg, hin⟩
      rw [hgap]
      by_cases hcovered : a < hi b
      · -- inside `b`, which the cursor has passed
        refine iff_of_false ?_ fun h => h.2 b List.mem_cons_self ⟨hle, hcovered⟩
        rintro ⟨g, hg, hin, -⟩
        have hpast := (le_max_right _ _).trans ((le_of_mem_gaps hg).1.trans hin)
        exact absurd hcovered (not_lt.2 hpast)
      · rw [ih hrest (max_le ha (not_lt.1 hcovered))]
        simp only [List.mem_cons, exists_eq_or_imp, forall_eq_or_imp, hbefore, false_or, hcovered,
          and_false, not_false_eq_true, true_and]

end Num

import Mathlib.Data.List.Basic

/-!
# Words

What stands between the blanks of a text. `words_append_blank` takes a text apart at any blank, so the
words of a table row are those of its columns.
-/

namespace Num

variable {α : Type} [DecidableEq α] {blank : α}

/-- The words of a text whose first letters so far are `st.1`. -/
def flush (st : List α × List (List α)) : List (List α) := if st.1 = [] then st.2 else st.1 :: st.2

/-- One more character in front. -/
def splitStep (blank c : α) (st : List α × List (List α)) : List α × List (List α) :=
  if c = blank then ([], flush st) else (c :: st.1, st.2)

/-- The parts between the blanks that are not empty. -/
def words (blank : α) (cs : List α) : List (List α) := flush (cs.foldr (splitStep blank) ([], []))

omit [DecidableEq α] in
theorem flush_append (w : List α) (vs ws : List (List α)) :
    flush (w, vs ++ ws) = flush (w, vs) ++ ws := by
  unfold flush
  split <;> rfl

/-- The words behind a text stay behind its words. -/
theorem foldr_splitStep (cs : List α) (ws : List (List α)) :
    cs.foldr (splitStep blank) ([], ws) =
      ((cs.foldr (splitStep blank) ([], [])).1, (cs.foldr (splitStep blank) ([], [])).2 ++ ws) := by
  induction cs with
  | nil => rfl
  | cons c cs ih =>
    rw [List.foldr_cons, List.foldr_cons, ih]
    generalize cs.foldr (splitStep blank) ([], []) = st
    unfold splitStep
    split
    · exact congrArg (Prod.mk []) (flush_append st.1 st.2 ws)
    · rfl

/-- **A blank separates.** -/
theorem words_append_blank (cs ds : List α) :
    words blank (cs ++ blank :: ds) = words blank cs ++ words blank ds := by
  have hblank : splitStep blank blank (ds.foldr (splitStep blank) ([], [])) = ([], words blank ds) :=
    if_pos rfl
  rw [words, List.foldr_append, List.foldr_cons, hblank, foldr_splitStep]
  exact flush_append _ _ _

@[simp] theorem words_nil : words blank [] = [] := rfl

/-- A word is one. -/
theorem words_eq_singleton {w : List α} (hne : w ≠ []) (hw : ∀ c ∈ w, c ≠ blank) :
    words blank w = [w] := by
  have hfold : w.foldr (splitStep blank) ([], []) = (w, []) := by
    clear hne
    induction w with
    | nil => rfl
    | cons c w ih =>
      rw [List.foldr_cons, ih fun d hd => hw d (List.mem_cons_of_mem _ hd), splitStep,
        if_neg (hw c List.mem_cons_self)]
  rw [words, hfold]
  exact if_neg hne

theorem words_blanks_append (n : Nat) (cs : List α) :
    words blank (List.replicate n blank ++ cs) = words blank cs := by
  induction n with
  | zero => rfl
  | succ n ih =>
    rw [List.replicate_succ, List.cons_append]
    exact (words_append_blank [] _).trans ih

theorem words_append_blanks (n : Nat) (cs : List α) :
    words blank (cs ++ List.replicate n blank) = words blank cs := by
  cases n with
  | zero => rw [List.replicate_zero, List.append_nil]
  | succ n =>
    have hnone : words blank (List.replicate n blank) = [] := by
      simpa using words_blanks_append n []
    rw [List.replicate_succ, words_append_blank, hnone, List.append_nil]

end Num

import VibeKernel.Conc.RelyGuarantee
import Mathlib.Data.Nat.Count
import Mathlib.Data.Nat.Find

/-!
# A processor that comes to an end

A `Prog` is finite, so a processor can go on for ever only by jumping from one piece of its code to the
next. `Halts` says that it does not, however accesses inside `E.rely` are interleaved: it is the least
assertion closed under the processor's own steps.

`Halts.loop` proves it with a measure that every piece lowers. `System.turns_end` draws the
conclusion about runs: the processor takes finitely many turns in each.
-/

namespace Conc

variable {ι σ α β : Type}

/-! ## More about how a program can end -/

namespace Prog

/-- One program after another that ended well. -/
theorem Ends.seq {P : α → Prop} {Q : β → Prop} {q : α → Prog σ β} (hq : ∀ a, P a → (q a).Ends Q) :
    ∀ {p : Prog σ α}, p.Ends P → (p >>= q).Ends Q := by
  intro p
  induction p with
  | ret a => exact hq a
  | act f k ih => exact fun hp b => ih b (hp b)
  | pick d k ih => exact fun hp b => ih b (hp b)

/-- A program ends with something. -/
theorem Ends.exists {P : α → Prop} (s : σ) : ∀ {p : Prog σ α}, p.Ends P → ∃ a, P a := by
  intro p
  induction p with
  | ret a => exact fun hp => ⟨a, hp⟩
  | act f k ih => exact fun hp => ih (f s).1 (hp _)
  | pick d k ih => exact fun hp => ih d (hp d)

theorem Ends.foldOver {γ : Type} {P : α → Prop} {f : α → γ → Prog σ α}
    (h : ∀ a c, P a → (f a c).Ends P) : ∀ (cs : List γ) (a : α), P a → (Prog.foldOver cs a f).Ends P
  | [], _, ha => ha
  | c :: cs, a, ha => .seq (fun a' ha' => Ends.foldOver h cs a' ha') (h a c ha)

end Prog

/-! ## Halting -/

/-- The same surroundings, with nothing to promise. -/
def Env.lax (E : Env σ) : Env σ := { E with guar := fun _ _ => True }

/-- Whatever the others do, the processor stops. -/
inductive Halts {P : Type} (E : Env σ) (body : P → Option (Prog σ P)) : Prog σ P → σ → Prop
  | stop {pc : P} {s : σ} (h : body pc = none) : Halts E body (.ret pc) s
  | jump {pc : P} {p : Prog σ P} {s : σ} (h : body pc = some p) (hp : Halts E body p s) :
      Halts E body (.ret pc) s
  | act {γ : Type} {f : σ → γ × σ} {k : γ → Prog σ P} {s : σ}
      (h : ∀ s', Relation.ReflTransGen E.rely s s' → E.inv s' → E.ok s' (f s').2 →
        Halts E body (k (f s').1) (f s').2) : Halts E body (.act f k) s
  | pick {γ : Type} {d : γ} {k : γ → Prog σ P} {s : σ} (h : ∀ b, Halts E body (k b) s) :
      Halts E body (.pick d k) s

namespace Halts

variable {P : Type} {E : Env σ} {body : P → Option (Prog σ P)}

/-- A piece of code, and what follows it. -/
theorem of_wp {Q : P → σ → Prop} (hQ : ∀ pc s, Q pc s → Halts E body (.ret pc) s) :
    ∀ (p : Prog σ P) (s : σ), wp E.lax p Q s → Halts E body p s := by
  intro p
  induction p with
  | ret pc => exact hQ pc
  | act f k ih => exact fun s h => .act fun s' hr hinv hok => ih _ _ (h s' hr hinv hok).2
  | pick d k ih => exact fun s h => .pick fun b => ih b s (h b)

/-- **A loop**, with a measure that every round lowers. -/
theorem loop {A : Type} {r : A → A → Prop} (hwf : WellFounded r) {I : A → P → σ → Prop}
    (h : ∀ x pc s, I x pc s → ∀ p, body pc = some p →
      wp E.lax p (fun pc' s' => body pc' = none ∨ ∃ y, r y x ∧ I y pc' s') s) :
    ∀ (x : A) (pc : P) (s : σ), I x pc s → Halts E body (.ret pc) s := by
  intro x
  induction x using hwf.induction with | h x ih
  intro pc s hI
  cases hb : body pc with
  | none => exact .stop hb
  | some p =>
    refine .jump hb (of_wp (fun pc' s' hpost => ?_) p s (h x pc s hI p hb))
    rcases hpost with hnone | ⟨y, hlt, hy⟩
    · exact .stop hnone
    · exact ih y hlt pc' s' hy

/-- A program, wherever it can end. -/
theorem of_ends {Q : P → Prop} (hQ : ∀ pc, Q pc → ∀ s, Halts E body (.ret pc) s) {p : Prog σ P} :
    p.Ends Q → ∀ s, Halts E body p s := by
  induction p with
  | ret pc => exact hQ pc
  | act f k ih => exact fun h s => .act fun s' _ _ _ => ih _ (h _) _
  | pick d k ih => exact fun h s => .pick fun b => ih b (h b) s

/-- **A loop that the others have no say in**: the measure is one of the control points. -/
theorem of_measure {Q : P → Prop} (μ : P → Nat)
    (h : ∀ pc p, Q pc → body pc = some p → p.Ends fun pc' => Q pc' ∧ μ pc' < μ pc) (pc : P)
    (hpc : Q pc) (s : σ) : Halts E body (.ret pc) s := by
  induction hm : μ pc using Nat.strong_induction_on generalizing pc s with | h m ih
  cases hb : body pc with
  | none => exact .stop hb
  | some p =>
    refine .jump hb (of_ends (fun pc' hpc' s' => ?_) (h pc p hpc hb) s)
    exact ih (μ pc') (hm ▸ hpc'.2) pc' hpc'.1 s' rfl

end Halts

/-! ## A bound with slack -/

/-- `μ` is at most `m`, and `P` holds while it has not dropped below `m`. -/
def Slack (μ : σ → Nat) (m : Nat) (P : σ → Prop) (s : σ) : Prop := μ s ≤ m ∧ (μ s = m → P s)

section Slack

variable {μ : σ → Nat} {m : Nat} {P Q : σ → Prop} {s s' : σ}

theorem Slack.of_lt (h : μ s < m) : Slack μ m P s := ⟨Nat.le_of_lt h, fun he => absurd he (Nat.ne_of_lt h)⟩

theorem Slack.mono (h : Slack μ m P s) (hPQ : P s → Q s) : Slack μ m Q s :=
  ⟨h.1, fun he => hPQ (h.2 he)⟩

/-- A step that does not raise `μ`, and keeps `P` where it does not lower it. -/
theorem Slack.step (h : Slack μ m P s) (hμ : μ s' ≤ μ s) (hP : μ s' = μ s → P s → Q s') :
    Slack μ m Q s' := by
  refine ⟨Nat.le_trans hμ h.1, fun he => ?_⟩
  have heq : μ s = m := Nat.le_antisymm h.1 (he ▸ hμ)
  exact hP (he.trans heq.symm) (h.2 heq)

end Slack

/-! ## Runs -/

namespace System

variable [DecidableEq ι] {S : System ι σ} {ok : ι → σ → σ → Prop} {t : ι}

/-- Processor `t` takes finitely many turns in every run from `c`. -/
def ComesToEnd (S : System ι σ) (ok : ι → σ → σ → Prop) (t : ι) (c : S.Config) : Prop :=
  ∀ run : Nat → S.Config, run 0 = c → (∀ k, S.Step ok (run k) (run (k + 1))) →
    ∃ n, ∀ k ≥ n, ¬ S.Turn ok t (run k) (run (k + 1))

/-- The accesses of a processor stay inside what its code is known to stay inside. -/
theorem Reach.within {G : σ → σ → Prop} (hbody : ∀ pc p, S.body t pc = some p → p.Within G)
    (htrap : ∀ x, (S.trap t x).Within G) {c c' : S.Config} (h : (c.prog t).Within G)
    (hr : S.Reach ok c c') : (c'.prog t).Within G := by
  induction hr with
  | refl => exact h
  | @tail c d _ hstep ih =>
    obtain ⟨u, hu⟩ := hstep
    by_cases htu : t = u
    · subst htu
      cases hu with
      | access hs =>
        revert hs ih
        generalize c.prog t = q
        intro ih hs
        cases hs with
        | act f k => simpa using ih.2 _
        | pick d k b => simpa using ih b
      | jump hp hb => simpa using hbody _ _ hb
      | trap => simpa using htrap _
    · cases hu <;> simpa [Function.update_of_ne htu] using ih

/-- A processor that has not stopped can take a turn. -/
theorem canTurn_or_stopped (hok : ∀ s s', ok t s s') (c : S.Config) :
    (∃ d, S.Turn ok t c d) ∨ ∃ pc, c.prog t = .ret pc ∧ S.body t pc = none := by
  cases hp : c.prog t with
  | ret pc =>
    cases hb : S.body t pc with
    | none => exact Or.inr ⟨pc, rfl, hb⟩
    | some p => exact Or.inl ⟨_, .jump hp hb⟩
  | act f k =>
    have hs : (c.prog t).Step c.mem (k (f c.mem).1) (f c.mem).2 := by
      rw [hp]
      exact .act f k c.mem
    exact Or.inl ⟨_, .access hs (hok _ _)⟩
  | pick d k =>
    have hs : (c.prog t).Step c.mem (k d) c.mem := by
      rw [hp]
      exact .pick d k d c.mem
    exact Or.inl ⟨_, .access hs (hok _ _)⟩

section Run

variable {run : Nat → S.Config}

/-- The part of a run up to some point. -/
theorem reach_along (hstep : ∀ k, S.Step ok (run k) (run (k + 1))) : ∀ k, S.Reach ok (run 0) (run k)
  | 0 => .refl
  | k + 1 => (reach_along hstep k).tail (hstep k)

/-- A processor that takes no turn stays where it is. -/
theorem prog_of_quiet (hstep : ∀ k, S.Step ok (run k) (run (k + 1))) (k : Nat) : ∀ m,
    (∀ j, k ≤ j → j < k + m → ¬ S.Turn ok t (run j) (run (j + 1))) →
      (run (k + m)).prog t = (run k).prog t
  | 0, _ => rfl
  | m + 1, hno => by
    have hprog := prog_of_quiet hstep k m fun j hkj hjm => hno j hkj (by omega)
    obtain ⟨u, hu⟩ := hstep (k + m)
    have hut : t ≠ u := by
      rintro rfl
      exact hno (k + m) (by omega) (by omega) hu
    refine Eq.trans ?_ hprog
    rw [← Nat.add_assoc]
    generalize run (k + m + 1) = d at hu
    cases hu <;> exact Function.update_of_ne hut _ _

/-- The next turn of a processor, if there is one. -/
theorem exists_first_turn {k j : Nat} (hkj : k ≤ j) (hj : S.Turn ok t (run j) (run (j + 1))) :
    ∃ m, S.Turn ok t (run (k + m)) (run (k + m + 1)) ∧
      ∀ i, k ≤ i → i < k + m → ¬ S.Turn ok t (run i) (run (i + 1)) := by
  classical
  have hex : ∃ m, S.Turn ok t (run (k + m)) (run (k + m + 1)) :=
    ⟨j - k, by rwa [Nat.add_sub_cancel' hkj]⟩
  refine ⟨Nat.find hex, Nat.find_spec hex, fun i hki him ht => ?_⟩
  refine Nat.find_min hex (m := i - k) (by omega) ?_
  rwa [Nat.add_sub_cancel' hki]

/-- The processor goes on from one piece of its code to the next. -/
def Starts (S : System ι σ) (ok : ι → σ → σ → Prop) (t : ι) (c d : S.Config) : Prop :=
  (∃ pc, c.prog t = .ret pc) ∧ S.Turn ok t c d

open Classical in
/-- **A measure of the control points bounds how many pieces of code are started**, in every run. -/
theorem count_starts_le {Q : S.PC t → Prop} {μ : S.PC t → Nat} {m : Nat} (htrap : S.Trap t → False)
    (hbody : ∀ pc p, Q pc → S.body t pc = some p → p.Ends fun pc' => Q pc' ∧ μ pc' < μ pc)
    (hstep : ∀ k, S.Step ok (run k) (run (k + 1)))
    (hstart : ((run 0).prog t).Ends fun pc => Q pc ∧ μ pc ≤ m) (n : Nat) :
    Nat.count (fun k => S.Starts ok t (run k) (run (k + 1))) n ≤ m := by
  -- What has been started and the measure of where the piece at hand ends make `m` at most.
  suffices hleft : ∀ n, ((run n).prog t).Ends fun pc =>
      Q pc ∧ Nat.count (fun k => S.Starts ok t (run k) (run (k + 1))) n + μ pc ≤ m by
    obtain ⟨pc, -, hle⟩ := (hleft n).exists (run n).mem
    omega
  intro n
  induction n with
  | zero => exact hstart.mono fun pc hpc => ⟨hpc.1, by simpa using hpc.2⟩
  | succ n ih =>
    rw [Nat.count_succ]
    by_cases hu : S.Turn ok t (run n) (run (n + 1))
    · -- only at the end of a piece of code does a turn start one
      have hstarts : S.Starts ok t (run n) (run (n + 1)) ↔ ∃ pc, (run n).prog t = .ret pc :=
        and_iff_left hu
      rw [if_congr hstarts rfl rfl]
      generalize run (n + 1) = d at hu
      cases hu with
      | access hs =>
        rw [if_neg (by rintro ⟨pc, hpc⟩; rw [hpc] at hs; cases hs), Nat.add_zero]
        revert hs ih
        generalize (run n).prog t = q
        intro ih hs
        cases hs with
        | act f k => simpa using ih _
        | pick d k b => simpa using ih b
      | @jump pc p hpc hb =>
        rw [hpc] at ih
        obtain ⟨hQ, hle⟩ := ih
        rw [if_pos ⟨pc, hpc⟩]
        have hnext : p.Ends fun pc' => Q pc' ∧ Nat.count
            (fun k => S.Starts ok t (run k) (run (k + 1))) n + 1 + μ pc' ≤ m :=
          (hbody pc p hQ hb).mono fun pc' h => ⟨h.1, by have := h.2; omega⟩
        simpa using hnext
      | @trap x => exact (htrap x).elim
    · have hprog : (run (n + 1)).prog t = (run n).prog t :=
        prog_of_quiet hstep n 1 fun j hnj hjn => by rwa [show j = n by omega]
      rw [hprog, if_neg fun h => hu h.2, Nat.add_zero]
      exact ih

/-- **A processor settles**: it gets to the end of the piece of code it is in, or into a trap, or it
takes no further turn. -/
theorem exists_settled (hstep : ∀ k, S.Step ok (run k) (run (k + 1))) (t : ι) :
    ∃ k, (∃ pc, (run k).prog t = .ret pc) ∨ (∃ x, (run k).prog t = S.trap t x) ∨
      ∀ j ≥ k, ¬ S.Turn ok t (run j) (run (j + 1)) := by
  suffices key : ∀ (p : Prog σ (S.PC t)) (k : Nat), (run k).prog t = p → ∃ j,
      (∃ pc, (run j).prog t = .ret pc) ∨ (∃ x, (run j).prog t = S.trap t x) ∨
        ∀ i ≥ j, ¬ S.Turn ok t (run i) (run (i + 1)) from key _ 0 rfl
  intro p
  -- one turn from a program that has not ended
  have hturn : ∀ (p : Prog σ (S.PC t)) (k : Nat), (run k).prog t = p → (∀ pc, p ≠ .ret pc) →
      (∀ q s s' j, p.Step s q s' → (run j).prog t = q → ∃ i, (∃ pc, (run i).prog t = .ret pc) ∨
        (∃ x, (run i).prog t = S.trap t x) ∨ ∀ l ≥ i, ¬ S.Turn ok t (run l) (run (l + 1))) →
      ∃ j, (∃ pc, (run j).prog t = .ret pc) ∨ (∃ x, (run j).prog t = S.trap t x) ∨
        ∀ i ≥ j, ¬ S.Turn ok t (run i) (run (i + 1)) := by
    intro p k hk hp ih
    by_cases hex : ∃ j ≥ k, S.Turn ok t (run j) (run (j + 1))
    · obtain ⟨j, hkj, hj⟩ := hex
      obtain ⟨m, hm, hno⟩ := exists_first_turn hkj hj
      have hprog : (run (k + m)).prog t = p := (prog_of_quiet hstep k m hno).trans hk
      cases hd : run (k + m + 1) with | mk mem prog
      rw [hd] at hm
      cases hm with
      | access hs =>
        rw [hprog] at hs
        exact ih _ _ _ (k + m + 1) hs (by rw [hd]; exact Function.update_self ..)
      | jump hpc => exact absurd (hprog.symm.trans hpc) (hp _)
      | trap => exact ⟨k + m + 1, Or.inr (Or.inl ⟨_, by rw [hd]; exact Function.update_self ..⟩)⟩
    · exact ⟨k, Or.inr (Or.inr fun j hj ht => hex ⟨j, hj, ht⟩)⟩
  induction p with
  | ret pc => exact fun k hk => ⟨k, Or.inl ⟨pc, hk⟩⟩
  | act f q ih =>
    refine fun k hk => hturn _ k hk nofun fun q' s s' j hs hj => ?_
    cases hs
    exact ih _ j hj
  | pick d q ih =>
    refine fun k hk => hturn _ k hk nofun fun q' s s' j hs hj => ?_
    cases hs
    exact ih _ j hj

variable {E : Env σ} {n : Nat}

/-- A stretch of a run in which the processor takes no turn. -/
theorem rely_of_quiet (hstep : ∀ k, S.Step ok (run k) (run (k + 1)))
    (hrely : ∀ k ≥ n, ∀ u ≠ t, S.Turn ok u (run k) (run (k + 1)) →
      Relation.ReflTransGen E.rely (run k).mem (run (k + 1)).mem) {k : Nat} (hk : n ≤ k) : ∀ m,
    (∀ j, k ≤ j → j < k + m → ¬ S.Turn ok t (run j) (run (j + 1))) →
      Relation.ReflTransGen E.rely (run k).mem (run (k + m)).mem
  | 0, _ => .refl
  | m + 1, hno => by
    have hmem := rely_of_quiet hstep hrely hk m fun j hkj hjm => hno j hkj (by omega)
    obtain ⟨u, hu⟩ := hstep (k + m)
    have hut : u ≠ t := by
      rintro rfl
      exact hno (k + m) (by omega) (by omega) hu
    exact hmem.trans (hrely (k + m) (by omega) u hut hu)

/-- **A processor whose code halts takes finitely many turns.** From point `n` on, the others stay
inside what it relies on. -/
theorem turns_end (htrap : S.Trap t → False) (hstep : ∀ k, S.Step ok (run k) (run (k + 1)))
    (hinv : ∀ k ≥ n, E.inv (run k).mem) (hok : ∀ s s', ok t s s' → E.ok s s')
    (hrely : ∀ k ≥ n, ∀ u ≠ t, S.Turn ok u (run k) (run (k + 1)) →
      Relation.ReflTransGen E.rely (run k).mem (run (k + 1)).mem)
    (hhalts : Halts E (S.body t) ((run n).prog t) (run n).mem) :
    ∃ j, ∀ k ≥ j, ¬ S.Turn ok t (run k) (run (k + 1)) := by
  suffices key : ∀ (p : Prog σ (S.PC t)) (s : σ), Halts E (S.body t) p s → ∀ k ≥ n,
      (run k).prog t = p → Relation.ReflTransGen E.rely s (run k).mem →
        ∃ j, ∀ i ≥ j, ¬ S.Turn ok t (run i) (run (i + 1)) from key _ _ hhalts n le_rfl rfl .refl
  intro p s hp
  -- the next turn of the processor, if there is one, is a step of its code
  have hnext : ∀ {p : Prog σ (S.PC t)} {s : σ} {k : Nat}, n ≤ k → (run k).prog t = p →
      Relation.ReflTransGen E.rely s (run k).mem →
      (∀ j ≥ n, S.Turn ok t (run j) (run (j + 1)) → (run j).prog t = p →
        Relation.ReflTransGen E.rely s (run j).mem →
          ∃ l, ∀ i ≥ l, ¬ S.Turn ok t (run i) (run (i + 1))) →
      ∃ l, ∀ i ≥ l, ¬ S.Turn ok t (run i) (run (i + 1)) := by
    intro p s k hnk hk hr hturn
    by_cases hex : ∃ j ≥ k, S.Turn ok t (run j) (run (j + 1))
    · obtain ⟨j, hkj, hj⟩ := hex
      obtain ⟨m, hm, hno⟩ := exists_first_turn hkj hj
      exact hturn (k + m) (by omega) hm ((prog_of_quiet hstep k m hno).trans hk)
        (hr.trans (rely_of_quiet hstep hrely hnk m hno))
    · exact ⟨k, fun j hj ht => hex ⟨j, hj, ht⟩⟩
  induction hp with
  | stop hb =>
    intro k hnk hk hr
    refine hnext hnk hk hr fun j _ ht hj _ => ?_
    generalize run (j + 1) = d at ht
    cases ht with
    | access hs => rw [hj] at hs; cases hs
    | jump hpc hb' =>
      rw [hj] at hpc
      cases hpc
      rw [hb] at hb'
      cases hb'
    | @trap x => exact (htrap x).elim
  | @jump pc q s hb _ ih =>
    intro k hnk hk hr
    refine hnext hnk hk hr fun j hnj ht hj hrj => ?_
    refine ih (j + 1) (by omega) ?_ ?_ <;> generalize run (j + 1) = d at ht
    all_goals
      cases ht with
      | access hs => rw [hj] at hs; cases hs
      | jump hpc hb' =>
        rw [hj] at hpc
        cases hpc
        rw [hb] at hb'
        obtain rfl := Option.some.inj hb'
        first | exact Function.update_self .. | exact hrj
      | @trap x => exact (htrap x).elim
  | @act γ f q s _ ih =>
    intro k hnk hk hr
    refine hnext hnk hk hr fun j hnj ht hj hrj => ?_
    have hd : (run (j + 1)).prog t = q (f (run j).mem).1 ∧ (run (j + 1)).mem = (f (run j).mem).2 ∧
        E.ok (run j).mem (f (run j).mem).2 := by
      generalize run (j + 1) = d at ht
      cases ht with
      | access hs hadm =>
        rw [hj] at hs
        cases hs
        exact ⟨Function.update_self .., rfl, hok _ _ hadm⟩
      | jump hpc => rw [hj] at hpc; cases hpc
      | @trap x => exact (htrap x).elim
    refine ih _ hrj (hinv j hnj) hd.2.2 (j + 1) (by omega) hd.1 ?_
    rw [hd.2.1]
  | @pick γ d q s _ ih =>
    intro k hnk hk hr
    refine hnext hnk hk hr fun j hnj ht hj hrj => ?_
    have hd : ∃ b, (run (j + 1)).prog t = q b ∧ (run (j + 1)).mem = (run j).mem := by
      generalize run (j + 1) = e at ht
      cases ht with
      | access hs =>
        rw [hj] at hs
        cases hs with
        | pick _ _ b => exact ⟨b, Function.update_self .., rfl⟩
      | jump hpc => rw [hj] at hpc; cases hpc
      | @trap x => exact (htrap x).elim
    obtain ⟨b, hprog, hmem⟩ := hd
    refine ih b (j + 1) (by omega) hprog ?_
    rw [hmem]
    exact hrj

end Run

end System

/-- What the turn of another processor is to this one. -/
theorem Outline.Holds.rely_of_turn [DecidableEq ι] {S : System ι σ} {O : Outline S} {t u : ι}
    (hO : O.Valid) {c c' : S.Config} (h : O.Holds c) (hu : u ≠ t) (ht : S.Turn O.ok u c c') :
    Relation.ReflTransGen (O.env t).rely c.mem c'.mem := by
  obtain ⟨hnext, hmem⟩ := h.turn hO ht
  rcases hmem with he | ⟨hok, hg⟩
  · rw [he]
  · exact .single ⟨u, hu, h.inv, hok, hg, hnext.inv⟩

end Conc

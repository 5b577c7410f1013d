import Mathlib.Logic.Relation
import Mathlib.Logic.Function.Basic

/-!
# Programs over a shared memory

A processor runs a `Prog`: a tree whose every inner node is one access of the shared memory.
Several processors take turns, one access at a time, so the memory is sequentially consistent.

## Loops

A `Prog` is well-founded, so it cannot loop. An endless loop is cut at its head: the program
of one round ends in `ret pc` and `System.body` says what runs from `pc`. A `pc` without a body
is where the processor stops.

## Traps

A trap replaces whatever a processor was about to do by the trap's own program.
`System.enter` says in which states the trap can be taken and what taking it changes.
-/

namespace Conc

/-- A program whose inner nodes are single accesses of a shared memory `σ`. -/
inductive Prog (σ α : Type) : Type 1
  | ret (a : α)
  | act {β : Type} (f : σ → β × σ) (k : β → Prog σ α)
  | pick {β : Type} (d : β) (k : β → Prog σ α)

namespace Prog

variable {σ α β : Type}

protected def bind : Prog σ α → (α → Prog σ β) → Prog σ β
  | .ret a, g => g a
  | .act f k, g => .act f fun b => (k b).bind g
  | .pick d k, g => .pick d fun b => (k b).bind g

instance : Monad (Prog σ) where
  pure := .ret
  bind := Prog.bind

/-- One read. -/
def load (f : σ → β) : Prog σ β := .act (fun s => (f s, s)) .ret

/-- One write. -/
def store (f : σ → σ) : Prog σ Unit := .act (fun s => ((), f s)) .ret

/-- One access that reads and writes at once. -/
def swap (f : σ → β × σ) : Prog σ β := .act f .ret

/-- A value the memory does not determine. -/
def any (β : Type) [Inhabited β] : Prog σ β := .pick default .ret

/-- Runs `f` on each element in turn. -/
def forEach : List β → (β → Prog σ Unit) → Prog σ Unit
  | [], _ => .ret ()
  | b :: bs, f => f b >>= fun _ => forEach bs f

/-- A loop over a list that carries a value. -/
def foldOver : List β → α → (α → β → Prog σ α) → Prog σ α
  | [], a, _ => .ret a
  | b :: bs, a, f => f a b >>= fun a' => foldOver bs a' f

/-- Whether `f` answers `true` on every element. Stops at the first `false`. -/
def allOf : List β → (β → Prog σ Bool) → Prog σ Bool
  | [], _ => .ret true
  | b :: bs, f => f b >>= fun ok => if ok then allOf bs f else .ret false

/-- Whether `f` answers `true` on some element. Stops at the first `true`. -/
def someOf : List β → (β → Prog σ Bool) → Prog σ Bool
  | [], _ => .ret false
  | b :: bs, f => f b >>= fun ok => if ok then .ret true else someOf bs f

/-- Every value that `p` can end with satisfies `P`. -/
def Ends (P : α → Prop) : Prog σ α → Prop
  | .ret a => P a
  | .act _ k => ∀ b, (k b).Ends P
  | .pick _ k => ∀ b, (k b).Ends P

theorem Ends.mono {P Q : α → Prop} (h : ∀ a, P a → Q a) : ∀ {p : Prog σ α}, p.Ends P → p.Ends Q := by
  intro p
  induction p with
  | ret a => exact h a
  | act f k ih => exact fun hp b => ih b (hp b)
  | pick d k ih => exact fun hp b => ih b (hp b)

theorem Ends.ret {P : α → Prop} {a : α} (h : P a) : (pure a : Prog σ α).Ends P := h

theorem Ends.bind {P : β → Prop} {q : α → Prog σ β} (hq : ∀ a, (q a).Ends P) :
    ∀ p : Prog σ α, (p >>= q).Ends P := by
  intro p
  induction p with
  | ret a => exact hq a
  | act f k ih => exact ih
  | pick d k ih => exact ih

theorem Ends.cond {P : α → Prop} {c : Prop} [Decidable c] {p q : Prog σ α} (hp : p.Ends P)
    (hq : q.Ends P) : (if c then p else q).Ends P := by
  by_cases h : c
  · simpa [h] using hp
  · simpa [h] using hq

/-- One access of a single processor. -/
inductive Step : Prog σ α → σ → Prog σ α → σ → Prop
  | act {β : Type} (f : σ → β × σ) (k : β → Prog σ α) (s : σ) :
      Step (.act f k) s (k (f s).1) (f s).2
  | pick {β : Type} (d : β) (k : β → Prog σ α) (b : β) (s : σ) : Step (.pick d k) s (k b) s

end Prog

/-! ## Processors taking turns -/

/-- Several processors `ι`, each with its control points, its code and its traps. -/
structure System (ι σ : Type) where
  PC : ι → Type
  body : ∀ t, PC t → Option (Prog σ (PC t))
  Trap : ι → Type
  enter : ∀ t, Trap t → σ → Option σ
  trap : ∀ t, Trap t → Prog σ (PC t)

namespace System

variable {ι σ : Type} [DecidableEq ι]

/-- The memory and what each processor has left to run. -/
structure Config (S : System ι σ) where
  mem : σ
  prog : ∀ t, Prog σ (S.PC t)

/-- One turn of processor `t`. Only accesses that `ok` admits are taken. -/
inductive Turn (S : System ι σ) (ok : ι → σ → σ → Prop) (t : ι) : S.Config → S.Config → Prop
  | access {c : S.Config} {p : Prog σ (S.PC t)} {m : σ} (h : (c.prog t).Step c.mem p m)
      (hok : ok t c.mem m) : Turn S ok t c ⟨m, Function.update c.prog t p⟩
  | jump {c : S.Config} {pc : S.PC t} {p : Prog σ (S.PC t)} (h : c.prog t = .ret pc)
      (hb : S.body t pc = some p) : Turn S ok t c ⟨c.mem, Function.update c.prog t p⟩
  | trap {c : S.Config} {x : S.Trap t} {m : σ} (h : S.enter t x c.mem = some m)
      (hok : ok t c.mem m) : Turn S ok t c ⟨m, Function.update c.prog t (S.trap t x)⟩

/-- Some processor takes a turn. -/
def Step (S : System ι σ) (ok : ι → σ → σ → Prop) (c c' : S.Config) : Prop :=
  ∃ t, S.Turn ok t c c'

/-- The configurations a run can reach. -/
abbrev Reach (S : System ι σ) (ok : ι → σ → σ → Prop) : S.Config → S.Config → Prop :=
  Relation.ReflTransGen (S.Step ok)

/-- A run under a stricter condition is a run. -/
theorem Reach.mono {S : System ι σ} {ok ok' : ι → σ → σ → Prop}
    (h : ∀ t s s', ok' t s s' → ok t s s') {c c' : S.Config} (hr : S.Reach ok' c c') :
    S.Reach ok c c' := by
  refine Relation.ReflTransGen.mono ?_ _ _ hr
  rintro a b ⟨t, ht⟩
  refine ⟨t, ?_⟩
  cases ht with
  | access hs hok => exact .access hs (h t _ _ hok)
  | jump hp hb => exact .jump hp hb
  | trap he hok => exact .trap he (h t _ _ hok)

/-- A processor never leaves the control points that its code stays in. -/
theorem Reach.ends {S : System ι σ} {ok : ι → σ → σ → Prop} {t : ι} {P : S.PC t → Prop}
    (hbody : ∀ pc p, P pc → S.body t pc = some p → p.Ends P) (htrap : ∀ x, (S.trap t x).Ends P)
    {c c' : S.Config} (h : (c.prog t).Ends P) (hr : S.Reach ok c c') : (c'.prog t).Ends P := by
  induction hr with
  | refl => exact h
  | @tail c d _ hstep ih =>
    obtain ⟨u, hu⟩ := hstep
    by_cases htu : t = u
    · subst htu
      cases hu with
      | access hs =>
        revert hs ih
        generalize c.prog t = q
        intro ih hs
        cases hs with
        | act f k => simpa using ih _
        | pick d k b => simpa using ih b
      | jump hp hb =>
        rw [hp] at ih
        simpa using hbody _ _ ih hb
      | trap => simpa using htrap _
    · cases hu <;> simpa [Function.update_of_ne htu] using ih

end System

end Conc

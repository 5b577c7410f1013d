import Mathlib.Data.List.Basic

/-!
# Programs that only read

A `Peek` reads a memory that nobody writes. Its value is `run`, and `touched` lists the addresses
that it reads, in order.
-/

namespace Conc

/-- A program whose only accesses are reads of single cells. -/
inductive Peek (A V α : Type)
  | ret (a : α)
  | read (addr : A) (k : V → Peek A V α)

namespace Peek

variable {A V α β : Type}

protected def bind : Peek A V α → (α → Peek A V β) → Peek A V β
  | .ret a, g => g a
  | .read addr k, g => .read addr fun v => (k v).bind g

instance : Monad (Peek A V) where
  pure := .ret
  bind := Peek.bind

/-- The value at one address. -/
def get (addr : A) : Peek A V V := .read addr .ret

def run (mem : A → V) : Peek A V α → α
  | .ret a => a
  | .read addr k => (k (mem addr)).run mem

def touched (mem : A → V) : Peek A V α → List A
  | .ret _ => []
  | .read addr k => addr :: (k (mem addr)).touched mem

section Simp

variable (mem : A → V)

@[simp] theorem run_pure (a : α) : (pure a : Peek A V α).run mem = a := rfl

@[simp] theorem touched_pure (a : α) : (pure a : Peek A V α).touched mem = [] := rfl

@[simp] theorem run_get (addr : A) : (get addr : Peek A V V).run mem = mem addr := rfl

@[simp] theorem touched_get (addr : A) : (get addr : Peek A V V).touched mem = [addr] := rfl

@[simp] theorem run_bind (p : Peek A V α) (q : α → Peek A V β) :
    (p >>= q).run mem = (q (p.run mem)).run mem := by
  induction p with
  | ret a => rfl
  | read addr k ih => exact ih (mem addr)

@[simp] theorem touched_bind (p : Peek A V α) (q : α → Peek A V β) :
    (p >>= q).touched mem = p.touched mem ++ (q (p.run mem)).touched mem := by
  induction p with
  | ret a => rfl
  | read addr k ih => exact congrArg (addr :: ·) (ih (mem addr))

end Simp

/-- The value depends on what was touched only. -/
theorem run_congr {mem mem' : A → V} :
    ∀ {p : Peek A V α}, (∀ a ∈ p.touched mem, mem a = mem' a) → p.run mem = p.run mem'
  | .ret _, _ => rfl
  | .read addr k, h => by
    have haddr : mem addr = mem' addr := h addr List.mem_cons_self
    have hrest : ∀ a ∈ (k (mem addr)).touched mem, mem a = mem' a := fun a ha =>
      h a (List.mem_cons_of_mem _ ha)
    show (k (mem addr)).run mem = (k (mem' addr)).run mem'
    rw [← haddr]
    exact run_congr hrest

/-- Every touched address is one of `R`. -/
def Touches (mem : A → V) (R : A → Prop) (p : Peek A V α) : Prop := ∀ a ∈ p.touched mem, R a

section Touches

variable {mem : A → V} {R : A → Prop}

theorem Touches.pure (a : α) : (pure a : Peek A V α).Touches mem R := nofun

theorem Touches.get {addr : A} (h : R addr) : (get addr : Peek A V V).Touches mem R := by
  intro a ha
  obtain rfl := List.mem_singleton.1 ha
  exact h

theorem Touches.bind {p : Peek A V α} {q : α → Peek A V β} (hp : p.Touches mem R)
    (hq : (q (p.run mem)).Touches mem R) : (p >>= q).Touches mem R := by
  intro a ha
  rw [touched_bind, List.mem_append] at ha
  exact ha.elim (hp a) (hq a)

theorem Touches.cond {c : Prop} [Decidable c] {p q : Peek A V α} (hp : c → p.Touches mem R)
    (hq : ¬ c → q.Touches mem R) : (if c then p else q).Touches mem R := by
  by_cases h : c
  · simpa [h] using hp h
  · simpa [h] using hq h

theorem Touches.mono {R' : A → Prop} {p : Peek A V α} (h : p.Touches mem R)
    (hR : ∀ a, R a → R' a) : p.Touches mem R' := fun a ha => hR a (h a ha)

end Touches

end Peek

end Conc

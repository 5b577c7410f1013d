import VibeKernel.Conc.RelyGuarantee

/-!
# One processor alone

A program that nobody disturbs is a function of the memory. `Throughout` says what holds after each
of its accesses. Both follow from the rules of `Triple`, with nobody to rely on.
-/

namespace Conc

variable {σ α β : Type}

namespace Prog

/-- What `p` returns and leaves when nobody else runs. A value that nothing decides is the default
one. -/
def run : Prog σ α → σ → α × σ
  | .ret a, s => (a, s)
  | .act f k, s => (k (f s).1).run (f s).2
  | .pick d k, s => (k d).run s

/-- `J` holds after every access of `p`, from `s` on. -/
def Throughout (J : σ → Prop) : Prog σ α → σ → Prop
  | .ret _, _ => True
  | .act f k, s => J (f s).2 ∧ (k (f s).1).Throughout J (f s).2
  | .pick d k, s => (k d).Throughout J s

section Run

variable (s : σ)

@[simp] theorem run_pure (a : α) : (pure a : Prog σ α).run s = (a, s) := rfl

@[simp] theorem run_load (f : σ → α) : (load f).run s = (f s, s) := rfl

@[simp] theorem run_store (f : σ → σ) : (store f).run s = ((), f s) := rfl

@[simp] theorem run_swap (f : σ → α × σ) : (swap f).run s = f s := rfl

@[simp] theorem run_any [Inhabited α] : (any α : Prog σ α).run s = (default, s) := rfl

@[simp] theorem run_bind (p : Prog σ α) (q : α → Prog σ β) :
    (p >>= q).run s = (q (p.run s).1).run (p.run s).2 := by
  induction p generalizing s with
  | ret a => rfl
  | act f k ih => exact ih _ _
  | pick d k ih => exact ih _ _

theorem run_forEach_store {γ : Type} (f : γ → σ → σ) (cs : List γ) :
    (forEach cs fun c => store (f c)).run s = ((), cs.foldl (fun s c => f c s) s) := by
  induction cs generalizing s with
  | nil => rfl
  | cons c cs ih => exact ih (f c s)

end Run

/-- Run alone from `P`, `p` ends in `Q`. Unlike `Triple`, it settles what nothing decides. -/
def Leads (P : σ → Prop) (p : Prog σ α) (Q : α → σ → Prop) : Prop :=
  ∀ s, P s → Q (p.run s).1 (p.run s).2

section Leads

variable {P : σ → Prop} {Q : α → σ → Prop}

theorem Leads.ret {a : α} (h : ∀ s, P s → Q a s) : (pure a : Prog σ α).Leads P Q := h

theorem Leads.load {f : σ → α} (h : ∀ s, P s → Q (f s) s) : (Prog.load f).Leads P Q := h

theorem Leads.store {f : σ → σ} {Q : Unit → σ → Prop} (h : ∀ s, P s → Q () (f s)) :
    (Prog.store f).Leads P Q := h

theorem Leads.keep {f : σ → σ} (h : ∀ s, P s → P (f s)) : (Prog.store f).Leads P fun _ => P := h

theorem Leads.any [Inhabited α] : (Prog.any α).Leads P fun a s => a = default ∧ P s :=
  fun _ hs => ⟨rfl, hs⟩

theorem Leads.bind {R : β → σ → Prop} {p : Prog σ β} {q : β → Prog σ α} (hp : p.Leads P R)
    (hq : ∀ b, (q b).Leads (R b) Q) : (p >>= q).Leads P Q := by
  intro s hs
  rw [run_bind]
  exact hq _ _ (hp s hs)

theorem Leads.cond {c : Prop} [Decidable c] {p q : Prog σ α} (hp : c → p.Leads P Q)
    (hq : ¬ c → q.Leads P Q) : (if c then p else q).Leads P Q := by
  by_cases h : c
  · simpa [h] using hp h
  · simpa [h] using hq h

theorem Leads.lift {φ : Prop} {p : Prog σ α} (h : φ → p.Leads P Q) :
    p.Leads (fun s => φ ∧ P s) Q := fun s hs => h hs.1 s hs.2

theorem Leads.forEach_store {γ : Type} {f : γ → σ → σ} {cs : List γ} {Q : Unit → σ → Prop}
    (h : ∀ s, P s → Q () (cs.foldl (fun s c => f c s) s)) :
    (Prog.forEach cs fun c => Prog.store (f c)).Leads P Q := by
  intro s hs
  rw [run_forEach_store]
  exact h s hs

end Leads

/-- Every access of `p`, from `s` on, is inside `R`. -/
def Steps (R : σ → σ → Prop) : Prog σ α → σ → Prop
  | .ret _, _ => True
  | .act f k, s => R s (f s).2 ∧ (k (f s).1).Steps R (f s).2
  | .pick d k, s => R s s ∧ (k d).Steps R s

variable {R : σ → σ → Prop}

theorem Steps.of_forall (h : ∀ s s', R s s') : ∀ (p : Prog σ α) (s : σ), p.Steps R s := by
  intro p
  induction p with
  | ret a => exact fun _ => trivial
  | act f k ih => exact fun s => ⟨h _ _, ih _ _⟩
  | pick d k ih => exact fun s => ⟨h _ _, ih _ _⟩

/-- A program that changes nothing. -/
theorem Steps.of_still {s : σ} (h : R s s) :
    ∀ {p : Prog σ α}, p.Within (fun s s' => s' = s) → p.Steps R s := by
  intro p
  induction p with
  | ret a => exact fun _ => trivial
  | act f k ih =>
    intro hp
    have hs : (f s).2 = s := hp.1 s
    refine ⟨by rw [hs]; exact h, ?_⟩
    rw [hs]
    exact ih _ (hp.2 _)
  | pick d k ih => exact fun hp => ⟨h, ih _ (hp _)⟩

end Prog

/-- A processor that nobody disturbs runs to the end of its program. -/
theorem System.reach_of_run {ι : Type} [DecidableEq ι] {S : System ι σ} {ok : ι → σ → σ → Prop}
    {t : ι} {g : ∀ t, Prog σ (S.PC t)} : ∀ {p : Prog σ (S.PC t)} {s : σ}, p.Steps (ok t) s →
    S.Reach ok ⟨s, Function.update g t p⟩
      ⟨(p.run s).2, Function.update g t (.ret (p.run s).1)⟩ := by
  intro p
  induction p with
  | ret a => exact fun _ => .refl
  | act f k ih =>
    intro s hp
    have hturn : S.Turn ok t ⟨s, Function.update g t (.act f k)⟩
        ⟨(f s).2, Function.update (Function.update g t (.act f k)) t (k (f s).1)⟩ :=
      .access (by simpa using .act f k s) hp.1
    rw [Function.update_idem] at hturn
    exact .head ⟨t, hturn⟩ (ih _ hp.2)
  | pick d k ih =>
    intro s hp
    have hturn : S.Turn ok t ⟨s, Function.update g t (.pick d k)⟩
        ⟨s, Function.update (Function.update g t (.pick d k)) t (k d)⟩ :=
      .access (by simpa using .pick d k d s) hp.1
    rw [Function.update_idem] at hturn
    exact .head ⟨t, hturn⟩ (ih _ hp.2)

/-- The same for one piece of its code. -/
theorem System.reach_of_body {ι : Type} [DecidableEq ι] {S : System ι σ} {ok : ι → σ → σ → Prop}
    {t : ι} {c : S.Config} {pc : S.PC t} {p : Prog σ (S.PC t)} (hpc : c.prog t = .ret pc)
    (hb : S.body t pc = some p) (hp : p.Steps (ok t) c.mem) :
    S.Reach ok c ⟨(p.run c.mem).2, Function.update c.prog t (.ret (p.run c.mem).1)⟩ :=
  .head ⟨t, .jump hpc hb⟩ (S.reach_of_run hp)

/-- The same for a trap. -/
theorem System.reach_of_trap {ι : Type} [DecidableEq ι] {S : System ι σ} {ok : ι → σ → σ → Prop}
    {t : ι} {c : S.Config} {x : S.Trap t} {s : σ} (he : S.enter t x c.mem = some s)
    (hok : ok t c.mem s) (hp : (S.trap t x).Steps (ok t) s) :
    S.Reach ok c ⟨((S.trap t x).run s).2,
      Function.update c.prog t (.ret ((S.trap t x).run s).1)⟩ :=
  .head ⟨t, .trap he hok⟩ (S.reach_of_run hp)

/-- Nobody else, and a promise about every memory that an access leaves. -/
def alone (J : σ → Prop) : Env σ where
  inv _ := True
  ok _ _ := True
  rely _ _ := False
  guar _ s' := J s'

variable {J : σ → Prop}

theorem stable_alone (P : σ → Prop) : Stable (alone J) P := fun _ _ h => h.elim

theorem run_of_wp {Q : α → σ → Prop} :
    ∀ (p : Prog σ α) (s : σ), wp (alone J) p Q s → Q (p.run s).1 (p.run s).2 := by
  intro p
  induction p with
  | ret a => exact fun s h => h
  | act f k ih => exact fun s h => ih _ _ (h s .refl trivial trivial).2
  | pick d k ih => exact fun s h => ih d s (h d)

theorem throughout_of_wp {Q : α → σ → Prop} :
    ∀ (p : Prog σ α) (s : σ), wp (alone J) p Q s → p.Throughout J s := by
  intro p
  induction p with
  | ret a => exact fun _ _ => trivial
  | act f k ih =>
    intro s h
    obtain ⟨hg, hk⟩ := h s .refl trivial trivial
    exact ⟨hg, ih _ _ hk⟩
  | pick d k ih => exact fun s h => ih d s (h d)

/-- What holds throughout holds in the end. -/
theorem Prog.Throughout.run :
    ∀ {p : Prog σ α} {s : σ}, p.Throughout J s → J s → J (p.run s).2 := by
  intro p
  induction p with
  | ret a => exact fun _ hs => hs
  | act f k ih => exact fun h _ => ih _ h.2 h.1
  | pick d k ih => exact fun h hs => ih d h hs

/-! ## The rules again, with nothing to be stable against -/

section Rules

variable {P : σ → Prop}

theorem Triple.alone_swap {f : σ → α × σ} {Q : α → σ → Prop}
    (h : ∀ s, P s → J (f s).2 ∧ Q (f s).1 (f s).2) : Triple (alone J) P (Prog.swap f) Q :=
  .swap (stable_alone P) fun s _ _ hs => h s hs

theorem Triple.alone_load {f : σ → α} {Q : α → σ → Prop} (h : ∀ s, P s → J s ∧ Q (f s) s) :
    Triple (alone J) P (Prog.load f) Q := .alone_swap h

theorem Triple.alone_store {f : σ → σ} {Q : Unit → σ → Prop} (h : ∀ s, P s → J (f s) ∧ Q () (f s)) :
    Triple (alone J) P (Prog.store f) Q := .alone_swap h

end Rules

end Conc

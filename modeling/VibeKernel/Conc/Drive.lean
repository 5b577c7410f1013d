import VibeKernel.Conc.Prog

/-!
# Schedules

A run can be given by its schedule: which processor moves, and how far. A schedule is computed, so
that a run with many accesses is a short list of moves.
-/

namespace Conc.System

variable {ι σ : Type} [DecidableEq ι] (S : System ι σ) (ok : ι → σ → σ → Prop)

/-- Something some processors can do, in zero or more turns. -/
structure Move where
  go : S.Config → Option S.Config
  sound : ∀ {c c' : S.Config}, go c = some c' → S.Reach ok c c'

section Alone

variable [∀ t s s', Decidable (ok t s s')]

/-- At most `n` turns of processor `t` alone, until it has nothing to run or `stop` holds of the
memory after an access. A value that nothing decides is the default one. -/
def alone (t : ι) (stop : σ → Bool) : Nat → Prog σ (S.PC t) → σ → Option (Prog σ (S.PC t) × σ)
  | 0, p, s => some (p, s)
  | n + 1, .act f k, s =>
    if ok t s (f s).2 then
      if stop (f s).2 then some (k (f s).1, (f s).2) else alone t stop n (k (f s).1) (f s).2
    else none
  | n + 1, .pick d k, s => if ok t s s then alone t stop n (k d) s else none
  | n + 1, .ret pc, s =>
    match S.body t pc with
    | some p => alone t stop n p s
    | none => some (.ret pc, s)

variable {S ok}

theorem reach_of_alone {t : ι} {stop : σ → Bool} : ∀ {n : Nat} {p p' : Prog σ (S.PC t)} {s s' : σ}
    {g : ∀ t, Prog σ (S.PC t)}, S.alone ok t stop n p s = some (p', s') →
    S.Reach ok ⟨s, Function.update g t p⟩ ⟨s', Function.update g t p'⟩ := by
  intro n
  -- on the number of turns; each is an access, a choice or a jump
  induction n with
  | zero =>
    intro p p' s s' g h
    obtain ⟨rfl, rfl⟩ := Prod.mk.inj (Option.some.inj h)
    exact .refl
  | succ n ih =>
    intro p p' s s' g h
    cases p with
    | act f k =>
      simp only [alone] at h
      split at h
      · rename_i hok
        have hturn : S.Turn ok t ⟨s, Function.update g t (.act f k)⟩
            ⟨(f s).2, Function.update (Function.update g t (.act f k)) t (k (f s).1)⟩ :=
          .access (by simpa using .act f k s) hok
        rw [Function.update_idem] at hturn
        split at h
        · obtain ⟨rfl, rfl⟩ := Prod.mk.inj (Option.some.inj h)
          exact .single ⟨t, hturn⟩
        · exact .head ⟨t, hturn⟩ (ih h)
      · cases h
    | pick d k =>
      simp only [alone] at h
      split at h
      · rename_i hok
        have hturn : S.Turn ok t ⟨s, Function.update g t (.pick d k)⟩
            ⟨s, Function.update (Function.update g t (.pick d k)) t (k d)⟩ :=
          .access (by simpa using .pick d k d s) hok
        rw [Function.update_idem] at hturn
        exact .head ⟨t, hturn⟩ (ih h)
      · cases h
    | ret pc =>
      simp only [alone] at h
      split at h
      · rename_i q hq
        have hturn : S.Turn ok t ⟨s, Function.update g t (.ret pc)⟩
            ⟨s, Function.update (Function.update g t (.ret pc)) t q⟩ :=
          .jump (by simp) hq
        rw [Function.update_idem] at hturn
        exact .head ⟨t, hturn⟩ (ih h)
      · obtain ⟨rfl, rfl⟩ := Prod.mk.inj (Option.some.inj h)
        exact .refl

/-- Processor `t` goes on alone, for `n` turns at most. -/
def Move.until (t : ι) (n : Nat) (stop : σ → Bool) : Move S ok where
  go c := (S.alone ok t stop n (c.prog t) c.mem).map fun r => ⟨r.2, Function.update c.prog t r.1⟩
  sound {c c'} h := by
    obtain ⟨⟨p, s⟩, hr, rfl⟩ := Option.map_eq_some_iff.1 h
    simpa using reach_of_alone (g := c.prog) hr

/-- `n` turns of processor `t`. -/
def Move.turns (t : ι) (n : Nat) : Move S ok := .until t n fun _ => false

/-- Processor `t` takes a trap. -/
def Move.trap (t : ι) (x : S.Trap t) : Move S ok where
  go c :=
    match S.enter t x c.mem with
    | some m => if ok t c.mem m then some ⟨m, Function.update c.prog t (S.trap t x)⟩ else none
    | none => none
  sound {c c'} h := by
    split at h
    · rename_i m hm
      split at h
      · rename_i hok
        obtain rfl := Option.some.inj h
        exact .single ⟨t, .trap hm hok⟩
      · cases h
    · cases h

end Alone

variable {S ok}

/-- Into a piece of code that starts with a choice, and the choice. -/
theorem reach_of_choice {t : ι} {c : S.Config} {pc : S.PC t} {β : Type} {d : β}
    {k : β → Prog σ (S.PC t)} (hp : c.prog t = .ret pc) (hb : S.body t pc = some (.pick d k))
    (hok : ok t c.mem c.mem) (b : β) : S.Reach ok c ⟨c.mem, Function.update c.prog t (k b)⟩ := by
  have hturn : S.Turn ok t ⟨c.mem, Function.update c.prog t (.pick d k)⟩
      ⟨c.mem, Function.update (Function.update c.prog t (.pick d k)) t (k b)⟩ :=
    .access (by simpa using .pick d k b c.mem) hok
  rw [Function.update_idem] at hturn
  exact .head ⟨t, .jump hp hb⟩ (.single ⟨t, hturn⟩)

/-- One move after another. -/
def drive : List (Move S ok) → S.Config → Option S.Config
  | [], c => some c
  | m :: ms, c => (m.go c).bind (drive ms)

/-- A schedule is a run. -/
theorem reach_of_drive : ∀ {ms : List (Move S ok)} {c c' : S.Config}, drive ms c = some c' →
    S.Reach ok c c'
  | [], _, _, h => by
    obtain rfl := Option.some.inj h
    exact .refl
  | m :: ms, c, c', h => by
    obtain ⟨d, hm, hd⟩ := Option.bind_eq_some_iff.1 h
    exact (m.sound hm).trans (reach_of_drive hd)

/-- A schedule that ends with `P` shows that some run ends with `P`. -/
theorem exists_reach (ms : List (Move S ok)) {c : S.Config} {P : S.Config → Prop}
    (h : ∃ c' ∈ drive ms c, P c') : ∃ c', S.Reach ok c c' ∧ P c' := by
  obtain ⟨c', hc, hp⟩ := h
  exact ⟨c', reach_of_drive hc, hp⟩

section Turn

variable [∀ t s s', Decidable (ok t s s')]

variable (ok) in
/-- The next access of processor `t`, if it is at one. -/
def access (t : ι) (c : S.Config) : Option S.Config :=
  match c.prog t with
  | .act f k =>
    if ok t c.mem (f c.mem).2 then
      some ⟨(f c.mem).2, Function.update c.prog t (k (f c.mem).1)⟩
    else none
  | _ => none

theorem turn_of_access {t : ι} {c c' : S.Config} (h : S.access ok t c = some c') :
    S.Turn ok t c c' := by
  unfold access at h
  split at h
  · rename_i f k hp
    split at h
    · rename_i hok
      obtain rfl := Option.some.inj h
      exact .access (hp ▸ .act f k c.mem) hok
    · cases h
  · cases h

variable (ok) in
/-- A schedule and one more access show that some run makes such a turn. -/
theorem exists_turn (ms : List (Move S ok)) (t : ι) {c : S.Config}
    {P : S.Config → S.Config → Prop} (h : ∃ d ∈ drive ms c, ∃ d' ∈ S.access ok t d, P d d') :
    ∃ d d', S.Reach ok c d ∧ S.Turn ok t d d' ∧ P d d' := by
  obtain ⟨d, hd, d', hd', hp⟩ := h
  exact ⟨d, d', reach_of_drive hd, turn_of_access hd', hp⟩

end Turn

end Conc.System

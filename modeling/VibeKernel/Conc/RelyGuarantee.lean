import VibeKernel.Conc.Prog

/-!
# Rely and guarantee

A processor is verified alone, against a relation that bounds what the others do.

## What is proved about one processor

`wp E p Q s` says that `p`, started in `s`, makes only accesses inside `E.guar` and ends in `Q`,
however accesses inside `E.rely` are interleaved. An assertion between two accesses has to be
`Stable`. The rules below are the usual ones, one per construct.

## What follows for all of them

`Outline` collects the guarantees, an invariant that every guarantee keeps and an assertion for
every control point. `Outline.sound`: in a run, the invariant holds and every processor is
at a point of its outline. `Outline.invariant` then adds further invariants from the guarantees
alone, without looking at the programs again.
-/

namespace Conc

variable {ι σ α β : Type}

/-- What a processor assumes of the others and what it promises. -/
structure Env (σ : Type) where
  inv : σ → Prop
  ok : σ → σ → Prop
  rely : σ → σ → Prop
  guar : σ → σ → Prop

/-- The others cannot falsify `P`. -/
def Stable (E : Env σ) (P : σ → Prop) : Prop :=
  ∀ s s', E.rely s s' → P s → P s'

theorem Stable.and {E : Env σ} {P Q : σ → Prop} (hP : Stable E P) (hQ : Stable E Q) :
    Stable E fun s => P s ∧ Q s :=
  fun s s' hr h => ⟨hP s s' hr h.1, hQ s s' hr h.2⟩

theorem Stable.true {E : Env σ} : Stable E fun _ => True := fun _ _ _ _ => trivial

theorem Stable.star {E : Env σ} {P : σ → Prop} (hP : Stable E P) {s s' : σ}
    (hr : Relation.ReflTransGen E.rely s s') (h : P s) : P s' := by
  induction hr with
  | refl => exact h
  | tail _ hstep ih => exact hP _ _ hstep ih

/-- The states from which `p` keeps its promise and ends in `Q`. -/
def wp (E : Env σ) : Prog σ α → (α → σ → Prop) → σ → Prop
  | .ret a, Q => Q a
  | .act f k, Q => fun s => ∀ s', Relation.ReflTransGen E.rely s s' → E.inv s' →
      E.ok s' (f s').2 → E.guar s' (f s').2 ∧ wp E (k (f s').1) Q (f s').2
  | .pick _ k, Q => fun s => ∀ b, wp E (k b) Q s

theorem wp_stable {E : Env σ} {Q : α → σ → Prop} (hQ : ∀ a, Stable E (Q a)) :
    ∀ p : Prog σ α, Stable E (wp E p Q) := by
  intro p
  induction p with
  | ret a => exact hQ a
  | act f k ih =>
    intro s s' hr h s'' hr' hinv hok
    exact h s'' (Relation.ReflTransGen.head hr hr') hinv hok
  | pick d k ih => exact fun s s' hr h b => ih b s s' hr (h b)

theorem wp_mono {E : Env σ} {Q K : α → σ → Prop} (hQ : ∀ a s, Q a s → K a s) :
    ∀ (p : Prog σ α) (s : σ), wp E p Q s → wp E p K s := by
  intro p
  induction p with
  | ret a => exact hQ a
  | act f k ih =>
    intro s h s' hr hinv hok
    obtain ⟨hg, hk⟩ := h s' hr hinv hok
    exact ⟨hg, ih _ _ hk⟩
  | pick d k ih => exact fun s h b => ih b s (h b)

theorem wp_and {E : Env σ} {Q K : α → σ → Prop} :
    ∀ (p : Prog σ α) (s : σ), wp E p Q s → wp E p K s → wp E p (fun a s => Q a s ∧ K a s) s := by
  intro p
  induction p with
  | ret a => exact fun s h h' => ⟨h, h'⟩
  | act f k ih =>
    intro s h h' s' hr hinv hok
    obtain ⟨hg, hk⟩ := h s' hr hinv hok
    obtain ⟨-, hk'⟩ := h' s' hr hinv hok
    exact ⟨hg, ih _ _ hk hk'⟩
  | pick d k ih => exact fun s h h' b => ih b s (h b) (h' b)

theorem wp_bind {E : Env σ} (q : α → Prog σ β) (Q : β → σ → Prop) :
    ∀ (p : Prog σ α) (s : σ), wp E p (fun a => wp E (q a) Q) s → wp E (p >>= q) Q s := by
  intro p
  induction p with
  | ret a => exact fun s h => h
  | act f k ih =>
    intro s h s' hr hinv hok
    obtain ⟨hg, hk⟩ := h s' hr hinv hok
    exact ⟨hg, ih _ _ hk⟩
  | pick d k ih => exact fun s h b => ih b s (h b)

/-! ## Triples -/

/-- From `P`, `p` keeps its promise and ends in `Q`. -/
def Triple (E : Env σ) (P : σ → Prop) (p : Prog σ α) (Q : α → σ → Prop) : Prop :=
  ∀ s, P s → wp E p Q s

section Rules

variable {E : Env σ} {P H : σ → Prop} {Q K : α → σ → Prop}

theorem Triple.conseq {p : Prog σ α} (h : Triple E H p K) (hP : ∀ s, P s → H s)
    (hQ : ∀ a s, K a s → Q a s) : Triple E P p Q :=
  fun s hs => wp_mono hQ p s (h s (hP s hs))

theorem Triple.pre {p : Prog σ α} (h : Triple E H p Q) (hP : ∀ s, P s → H s) :
    Triple E P p Q :=
  fun s hs => h s (hP s hs)

theorem Triple.post {p : Prog σ α} (h : Triple E P p K) (hQ : ∀ a s, K a s → Q a s) :
    Triple E P p Q :=
  fun s hs => wp_mono hQ p s (h s hs)

/-- Two proofs about one program. -/
theorem Triple.and {p : Prog σ α} (h : Triple E P p Q) (h' : Triple E P p K) :
    Triple E P p fun a s => Q a s ∧ K a s :=
  fun s hs => wp_and p s (h s hs) (h' s hs)

/-- A part of the precondition that does not mention the memory. -/
theorem Triple.lift {φ : Prop} {p : Prog σ α} (h : φ → Triple E P p Q) :
    Triple E (fun s => φ ∧ P s) p Q :=
  fun s hs => h hs.1 s hs.2

theorem Triple.exists {γ : Type} {R : γ → σ → Prop} {p : Prog σ α}
    (h : ∀ x, Triple E (R x) p Q) : Triple E (fun s => ∃ x, R x s) p Q :=
  fun s ⟨x, hx⟩ => h x s hx

theorem Triple.ret {a : α} (h : ∀ s, P s → Q a s) : Triple E P (pure a) Q := h

theorem Triple.bind {R : β → σ → Prop} {p : Prog σ β} {q : β → Prog σ α}
    (hp : Triple E P p R) (hq : ∀ b, Triple E (R b) (q b) Q) : Triple E P (p >>= q) Q :=
  fun s hs => wp_bind q Q p s (wp_mono (fun b s' h => hq b s' h) p s (hp s hs))

/-- One access. -/
theorem Triple.swap {f : σ → α × σ} (hP : Stable E P)
    (h : ∀ s, E.inv s → E.ok s (f s).2 → P s → E.guar s (f s).2 ∧ Q (f s).1 (f s).2) :
    Triple E P (Prog.swap f) Q :=
  fun _ hs s' hr hinv hok => h s' hinv hok (hP.star hr hs)

/-- One read. -/
theorem Triple.load {f : σ → α} (hP : Stable E P) (hg : ∀ s, E.inv s → E.guar s s)
    (h : ∀ s, E.inv s → P s → Q (f s) s) : Triple E P (Prog.load f) Q :=
  fun _ hs s' hr hinv _ => ⟨hg s' hinv, h s' hinv (hP.star hr hs)⟩

/-- One write. -/
theorem Triple.store {f : σ → σ} {Q : Unit → σ → Prop} (hP : Stable E P)
    (h : ∀ s, E.inv s → E.ok s (f s) → P s → E.guar s (f s) ∧ Q () (f s)) :
    Triple E P (Prog.store f) Q :=
  fun _ hs s' hr hinv hok => h s' hinv hok (hP.star hr hs)

theorem Triple.any {γ : Type} [Inhabited γ] : Triple E P (Prog.any γ) fun _ => P := fun _ hs _ => hs

/-- A loop over a list, with an assertion that knows what is left to do. -/
theorem Triple.forEach {γ : Type} {f : γ → Prog σ Unit} {I : List γ → σ → Prop}
    (h : ∀ c cs, Triple E (I (c :: cs)) (f c) fun _ => I cs) :
    ∀ cs, Triple E (I cs) (Prog.forEach cs f) fun _ => I []
  | [] => Triple.ret fun _ hs => hs
  | c :: cs => Triple.bind (h c cs) fun _ => Triple.forEach h cs

/-- A loop over a list that keeps one assertion. -/
theorem Triple.forEach_keep {γ : Type} {f : γ → Prog σ Unit} :
    ∀ {cs : List γ}, (∀ c ∈ cs, Triple E P (f c) fun _ => P) →
      Triple E P (Prog.forEach cs f) fun _ => P
  | [], _ => Triple.ret fun _ hs => hs
  | c :: _, h => Triple.bind (h c (by simp)) fun _ =>
      Triple.forEach_keep fun d hd => h d (by simp [hd])

theorem Triple.cond {c : Prop} [Decidable c] {p q : Prog σ α} (hp : c → Triple E P p Q)
    (hq : ¬ c → Triple E P q Q) : Triple E P (if c then p else q) Q := by
  by_cases h : c
  · simpa [h] using hp h
  · simpa [h] using hq h

/-- A search that stops at the first `false`. -/
theorem Triple.allOf {γ : Type} {f : γ → Prog σ Bool} {I : List γ → σ → Prop}
    {R : Bool → σ → Prop} (hnil : ∀ s, I [] s → R true s) (h : ∀ c cs,
      Triple E (I (c :: cs)) (f c) fun ok s => if ok then I cs s else R false s) :
    ∀ cs, Triple E (I cs) (Prog.allOf cs f) R
  | [] => Triple.ret hnil
  | c :: cs => by
    refine Triple.bind (h c cs) fun ok => ?_
    cases ok with
    | true => exact (Triple.allOf hnil h cs).pre fun s hs => by simpa using hs
    | false => exact Triple.ret fun s hs => by simpa using hs

/-- A search that stops at the first `true`. -/
theorem Triple.someOf {γ : Type} {f : γ → Prog σ Bool} {I : List γ → σ → Prop}
    {R : Bool → σ → Prop} (hnil : ∀ s, I [] s → R false s) (h : ∀ c cs,
      Triple E (I (c :: cs)) (f c) fun ok s => if ok then R true s else I cs s) :
    ∀ cs, Triple E (I cs) (Prog.someOf cs f) R
  | [] => Triple.ret hnil
  | c :: cs => by
    refine Triple.bind (h c cs) fun ok => ?_
    cases ok with
    | true => exact Triple.ret fun s hs => by simpa using hs
    | false => exact (Triple.someOf hnil h cs).pre fun s hs => by simpa using hs

theorem Triple.foldOver {γ : Type} {f : α → γ → Prog σ α} {I : List γ → α → σ → Prop}
    (h : ∀ c cs a, Triple E (I (c :: cs) a) (f a c) (I cs)) :
    ∀ cs a, Triple E (I cs a) (Prog.foldOver cs a f) (I [])
  | [], _ => Triple.ret fun _ hs => hs
  | c :: cs, a => Triple.bind (h c cs a) fun a' => Triple.foldOver h cs a'

end Rules

/-! ## Programs whose accesses need no assertion -/

namespace Prog

/-- Every access of `p` is inside `G`, whatever the memory holds. -/
def Within (G : σ → σ → Prop) : Prog σ α → Prop
  | .ret _ => True
  | .act f k => (∀ s, G s (f s).2) ∧ ∀ b, (k b).Within G
  | .pick _ k => ∀ b, (k b).Within G

/-- What can be left of `p` after some of its accesses. -/
inductive Rest : Prog σ α → Prog σ α → Prop
  | refl (p : Prog σ α) : Rest p p
  | act {γ : Type} {f : σ → γ × σ} {k : γ → Prog σ α} (b : γ) {p : Prog σ α} (h : Rest (k b) p) :
      Rest (.act f k) p
  | pick {γ : Type} {d : γ} {k : γ → Prog σ α} (b : γ) {p : Prog σ α} (h : Rest (k b) p) :
      Rest (.pick d k) p

variable {G : σ → σ → Prop}

theorem Within.rest {p q : Prog σ α} (h : p.Within G) (hr : Rest p q) : q.Within G := by
  induction hr with
  | refl => exact h
  | act b _ ih => exact ih (h.2 b)
  | pick b _ ih => exact ih (h b)

theorem Within.seq {q : β → Prog σ α} {p : Prog σ β} (hp : p.Within G) (hq : ∀ b, (q b).Within G) :
    (p >>= q).Within G := by
  induction p with
  | ret b => exact hq b
  | act f k ih => exact ⟨hp.1, fun b => ih b (hp.2 b)⟩
  | pick d k ih => exact fun b => ih b (hp b)

theorem Within.ret (a : α) : (pure a : Prog σ α).Within G := trivial

theorem Within.swap {f : σ → α × σ} (h : ∀ s, G s (f s).2) : (Prog.swap f).Within G :=
  ⟨h, fun _ => trivial⟩

theorem Within.store {f : σ → σ} (h : ∀ s, G s (f s)) : (Prog.store f).Within G :=
  ⟨h, fun _ => trivial⟩

theorem Within.load {f : σ → α} (h : ∀ s, G s s) : (Prog.load f).Within G :=
  ⟨h, fun _ => trivial⟩

theorem Within.any [Inhabited β] : (Prog.any β : Prog σ β).Within G := fun _ => trivial

theorem Within.cond {c : Prop} [Decidable c] {p q : Prog σ α} (hp : c → p.Within G)
    (hq : ¬ c → q.Within G) : (if c then p else q).Within G := by
  by_cases h : c
  · simpa [h] using hp h
  · simpa [h] using hq h

theorem Within.forEach {γ : Type} {f : γ → Prog σ Unit} (h : ∀ c, (f c).Within G) :
    ∀ cs, (Prog.forEach cs f).Within G
  | [] => trivial
  | c :: cs => (h c).seq fun _ => Within.forEach h cs

theorem Within.allOf {γ : Type} {f : γ → Prog σ Bool} (h : ∀ c, (f c).Within G) :
    ∀ cs, (Prog.allOf cs f).Within G
  | [] => trivial
  | c :: cs => (h c).seq fun _ => .cond (fun _ => Within.allOf h cs) fun _ => .ret _

end Prog

/-- Such a program keeps its promise from every state. -/
theorem wp_of_within {E : Env σ} {G : σ → σ → Prop} (hG : ∀ s s', G s s' → E.guar s s')
    {Q : α → σ → Prop} (hQ : ∀ a s, Q a s) :
    ∀ (p : Prog σ α) (s : σ), p.Within G → wp E p Q s := by
  intro p
  induction p with
  | ret a => exact fun s _ => hQ a s
  | act f k ih => exact fun s h s' _ _ _ => ⟨hG _ _ (h.1 s'), ih _ _ (h.2 _)⟩
  | pick d k ih => exact fun s h b => ih b s (h b)

/-! ## All processors together -/

/-- Guarantees, an invariant and an assertion for every control point. -/
structure Outline (S : System ι σ) where
  inv : σ → Prop
  ok : ι → σ → σ → Prop
  guar : ι → σ → σ → Prop
  cut : ∀ t, S.PC t → σ → Prop

namespace Outline

variable {S : System ι σ}

/-- What processor `t` sees of one access of another one. -/
def rely (O : Outline S) (t : ι) (s s' : σ) : Prop :=
  ∃ u, u ≠ t ∧ O.inv s ∧ O.ok u s s' ∧ O.guar u s s' ∧ O.inv s'

/-- The outline as processor `t` sees it. -/
def env (O : Outline S) (t : ι) : Env σ where
  inv := O.inv
  ok := O.ok t
  rely := O.rely t
  guar := O.guar t

/-- The obligations of an outline. -/
structure Valid (O : Outline S) : Prop where
  inv_guar : ∀ t s s', O.inv s → O.ok t s s' → O.guar t s s' → O.inv s'
  stable : ∀ t pc, Stable (O.env t) (O.cut t pc)
  body : ∀ t pc p, S.body t pc = some p → Triple (O.env t) (O.cut t pc) p (O.cut t)
  trap : ∀ t x s s', O.inv s → S.enter t x s = some s' → O.ok t s s' →
    O.guar t s s' ∧ wp (O.env t) (S.trap t x) (O.cut t) s'

/-- A configuration every processor of which is at a point of its outline. -/
structure Holds (O : Outline S) (c : S.Config) : Prop where
  inv : O.inv c.mem
  at_ : ∀ t, wp (O.env t) (c.prog t) (O.cut t) c.mem

variable [DecidableEq ι]

/-- An access inside the guarantee leaves the other processors at their points. -/
theorem Holds.update {O : Outline S} (hO : O.Valid) {c : S.Config} (h : O.Holds c) {t : ι}
    {p : Prog σ (S.PC t)} {m : σ} (hok : O.ok t c.mem m) (hg : O.guar t c.mem m)
    (hp : wp (O.env t) p (O.cut t) m) : O.Holds ⟨m, Function.update c.prog t p⟩ := by
  have hinv : O.inv m := hO.inv_guar t _ _ h.inv hok hg
  refine ⟨hinv, fun u => ?_⟩
  by_cases hu : u = t
  · subst hu
    simpa using hp
  · have hr : (O.env u).rely c.mem m := ⟨t, Ne.symm hu, h.inv, hok, hg, hinv⟩
    have := wp_stable (hO.stable u) (c.prog u) _ _ hr (h.at_ u)
    simpa [Function.update_of_ne hu] using this

/-- One turn goes from a point of the outline to the next, inside the guarantee. -/
theorem Holds.turn {O : Outline S} (hO : O.Valid) {c c' : S.Config} (h : O.Holds c) {t : ι}
    (ht : S.Turn O.ok t c c') :
    O.Holds c' ∧ (c'.mem = c.mem ∨ O.ok t c.mem c'.mem ∧ O.guar t c.mem c'.mem) := by
  cases ht with
  | @access p m hs hok =>
    have hw := h.at_ t
    revert hs hw
    generalize c.prog t = q
    intro hs hw
    cases hs with
    | act f k =>
      obtain ⟨hg, hk⟩ := hw c.mem .refl h.inv hok
      exact ⟨h.update hO hok hg hk, Or.inr ⟨hok, hg⟩⟩
    | pick d k b =>
      refine ⟨⟨h.inv, fun u => ?_⟩, Or.inl rfl⟩
      by_cases hu : u = t
      · subst hu
        simpa using hw b
      · simpa [Function.update_of_ne hu] using h.at_ u
  | @jump pc p hp hb =>
    refine ⟨⟨h.inv, fun u => ?_⟩, Or.inl rfl⟩
    by_cases hu : u = t
    · subst hu
      have hw := h.at_ u
      rw [hp] at hw
      simpa using hO.body u pc p hb c.mem hw
    · simpa [Function.update_of_ne hu] using h.at_ u
  | @trap x m he hok =>
    obtain ⟨hg, hk⟩ := hO.trap t x _ _ h.inv he hok
    exact ⟨h.update hO hok hg hk, Or.inr ⟨hok, hg⟩⟩

/-- **Soundness.** A run never leaves the outline. -/
theorem sound {O : Outline S} (hO : O.Valid) {c c' : S.Config} (h : O.Holds c)
    (hr : S.Reach O.ok c c') : O.Holds c' := by
  induction hr with
  | refl => exact h
  | tail _ hstep ih =>
    obtain ⟨t, ht⟩ := hstep
    exact (ih.turn hO ht).1

/-- **Further invariants need only the guarantees.** -/
theorem invariant {O : Outline S} (hO : O.Valid) {ok' : ι → σ → σ → Prop}
    (hok : ∀ t s s', ok' t s s' → O.ok t s s') {J : σ → Prop}
    (hJ : ∀ t s s', O.inv s → J s → ok' t s s' → O.guar t s s' → J s')
    {c c' : S.Config} (h : O.Holds c) (h0 : J c.mem) (hr : S.Reach ok' c c') : J c'.mem := by
  have key : O.Holds c' ∧ J c'.mem := by
    induction hr with
    | refl => exact ⟨h, h0⟩
    | @tail b d _ hstep ih =>
      obtain ⟨hb, hJb⟩ := ih
      obtain ⟨t, ht⟩ := hstep
      -- the outline allows the turn, and `ok'` speaks of the same access
      have ht' : S.Turn O.ok t b d := by
        cases ht with
        | access hs ho => exact .access hs (hok t _ _ ho)
        | jump hp hbd => exact .jump hp hbd
        | trap he ho => exact .trap he (hok t _ _ ho)
      have hok'' : d.mem = b.mem ∨ ok' t b.mem d.mem := by
        cases ht with
        | access hs ho => exact Or.inr ho
        | jump hp hbd => exact Or.inl rfl
        | trap he ho => exact Or.inr ho
      obtain ⟨hd, hmem⟩ := hb.turn hO ht'
      refine ⟨hd, ?_⟩
      rcases hmem with he | ⟨-, hg⟩
      · rw [he]; exact hJb
      · rcases hok'' with he | ho
        · rw [he]; exact hJb
        · exact hJ t _ _ hb.inv hJb ho hg
  exact key.2

end Outline

end Conc

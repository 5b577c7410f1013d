import VibeKernel.Conc.RelyGuarantee

/-!
# A second walk

An outline that is already valid can be strengthened: a further invariant, a further guarantee and a
further assertion at every control point. The second walk looks only at what it adds. It may use
everything the first one established about the other processors.
-/

namespace Conc

variable {ι σ α β : Type}

/-- What two walks in two surroundings say together in a third that offers both. -/
theorem wp_both {E F G : Env σ} (hinv : ∀ s, G.inv s → E.inv s ∧ F.inv s)
    (hok : ∀ s s', G.ok s s' → E.ok s s' ∧ F.ok s s')
    (hrely : ∀ s s', G.rely s s' → E.rely s s' ∧ F.rely s s')
    (hguar : ∀ s s', G.inv s → E.guar s s' → F.guar s s' → G.guar s s')
    {Q R : α → σ → Prop} : ∀ (p : Prog σ α) (s : σ), wp E p Q s → wp F p R s →
      wp G p (fun a s => Q a s ∧ R a s) s := by
  have hstar : ∀ s s', Relation.ReflTransGen G.rely s s' →
      Relation.ReflTransGen E.rely s s' ∧ Relation.ReflTransGen F.rely s s' := fun s s' hr =>
    ⟨Relation.ReflTransGen.mono (fun a b h => (hrely a b h).1) _ _ hr,
      Relation.ReflTransGen.mono (fun a b h => (hrely a b h).2) _ _ hr⟩
  intro p
  induction p with
  | ret a => exact fun s h h' => ⟨h, h'⟩
  | act f k ih =>
    intro s h h' s' hr hi hk
    obtain ⟨hr₁, hr₂⟩ := hstar s s' hr
    obtain ⟨hg₁, hw₁⟩ := h s' hr₁ (hinv s' hi).1 (hok _ _ hk).1
    obtain ⟨hg₂, hw₂⟩ := h' s' hr₂ (hinv s' hi).2 (hok _ _ hk).2
    exact ⟨hguar _ _ hi hg₁ hg₂, ih _ _ hw₁ hw₂⟩
  | pick d k ih => exact fun s h h' b => ih b s (h b) (h' b)

/-- What a program ends with whatever the memory holds. -/
theorem wp_ends {E : Env σ} {Q : α → σ → Prop} {P : α → Prop} :
    ∀ (p : Prog σ α) (s : σ), p.Ends P → wp E p Q s → wp E p (fun a s => P a ∧ Q a s) s := by
  intro p
  induction p with
  | ret a => exact fun s hp h => ⟨hp, h⟩
  | act f k ih =>
    intro s hp h s' hr hi hk
    obtain ⟨hg, hw⟩ := h s' hr hi hk
    exact ⟨hg, ih _ _ (hp _) hw⟩
  | pick d k ih => exact fun s hp h b => ih b s (hp b) (h b)

/-- A program all of whose accesses `P` survives. -/
theorem Triple.within {E : Env σ} {P : σ → Prop} {G : σ → σ → Prop} (hP : Stable E P)
    (hG : ∀ s s', E.inv s → G s s' → P s → E.guar s s' ∧ P s') :
    ∀ {p : Prog σ α}, p.Within G → Triple E P p fun _ => P := by
  intro p
  induction p with
  | ret a => exact fun _ s h => h
  | act f k ih =>
    intro hw s hs s' hr hi _
    obtain ⟨hg, hp⟩ := hG s' _ hi (hw.1 s') (hP.star hr hs)
    exact ⟨hg, ih _ (hw.2 _) _ hp⟩
  | pick d k ih => exact fun hw s hs b => ih b (hw b) s hs

/-- A program and an assertion that none of its accesses touches. -/
theorem Triple.beside {E : Env σ} {P R : σ → Prop} {Q : α → σ → Prop} {G : σ → σ → Prop}
    {p : Prog σ α} (h : Triple E P p Q) (hR : Stable E R)
    (hG : ∀ s s', E.inv s → G s s' → R s → R s') (hw : p.Within G) :
    Triple E (fun s => P s ∧ R s) p fun a s => Q a s ∧ R s := by
  suffices hwp : ∀ (p : Prog σ α) (s : σ), p.Within G → wp E p Q s → R s →
      wp E p (fun a s => Q a s ∧ R s) s from
    fun s hs => hwp p s hw (h s hs.1) hs.2
  intro p
  induction p with
  | ret a => exact fun s _ hq hr => ⟨hq, hr⟩
  | act f k ih =>
    intro s hw hq hr s' hrely hinv hok
    obtain ⟨hg, hk⟩ := hq s' hrely hinv hok
    exact ⟨hg, ih _ _ (hw.2 _) hk (hG s' _ hinv (hw.1 s') (hR.star hrely hr))⟩
  | pick d k ih => exact fun s hw hq hr b => ih b s (hw b) (hq b) hr

namespace Prog

variable {G : σ → σ → Prop}

theorem Within.mono {H : σ → σ → Prop} (h : ∀ s s', G s s' → H s s') :
    ∀ {p : Prog σ α}, p.Within G → p.Within H := by
  intro p
  induction p with
  | ret a => exact fun _ => trivial
  | act f k ih => exact fun hp => ⟨fun s => h _ _ (hp.1 s), fun b => ih b (hp.2 b)⟩
  | pick d k ih => exact fun hp b => ih b (hp b)

/-- Every access of `p` only reads. -/
abbrev Reads (p : Prog σ α) : Prop := p.Within fun s s' => s' = s

/-- Reading is within whatever allows to change nothing. -/
theorem Reads.within (hG : ∀ s, G s s) {p : Prog σ α} (hp : p.Reads) : p.Within G := by
  refine hp.mono fun s s' h => ?_
  rw [h]
  exact hG s

theorem Within.top : ∀ p : Prog σ α, p.Within fun _ _ => True := by
  intro p
  induction p with
  | ret a => trivial
  | act f k ih => exact ⟨fun _ => trivial, ih⟩
  | pick d k ih => exact ih

theorem Within.foldOver {γ : Type} {f : α → γ → Prog σ α} (h : ∀ a c, (f a c).Within G) :
    ∀ cs a, (Prog.foldOver cs a f).Within G
  | [], _ => trivial
  | c :: cs, a => (h a c).seq fun a' => Within.foldOver h cs a'

theorem Within.forEach_mem {γ : Type} {f : γ → Prog σ Unit} :
    ∀ {cs : List γ}, (∀ c ∈ cs, (f c).Within G) → (Prog.forEach cs f).Within G
  | [], _ => trivial
  | c :: _, h => (h c (by simp)).seq fun _ => Within.forEach_mem fun d hd => h d (by simp [hd])

theorem Within.someOf {γ : Type} {f : γ → Prog σ Bool} (h : ∀ c, (f c).Within G) :
    ∀ cs, (Prog.someOf cs f).Within G
  | [] => trivial
  | c :: cs => (h c).seq fun _ => .cond (fun _ => .ret _) fun _ => Within.someOf h cs

end Prog

namespace Outline

variable {S : System ι σ}

/-- What a second walk adds to an outline. -/
structure Addition (S : System ι σ) where
  inv : σ → Prop
  guar : ι → σ → σ → Prop
  cut : ∀ t, S.PC t → σ → Prop

/-- An outline with an addition. -/
def also (O : Outline S) (A : Addition S) : Outline S where
  inv s := O.inv s ∧ A.inv s
  ok := O.ok
  guar t s s' := O.guar t s s' ∧ A.guar t s s'
  cut t pc s := O.cut t pc s ∧ A.cut t pc s

/-- The surroundings of the second walk of processor `t`. -/
def second (O : Outline S) (A : Addition S) (t : ι) : Env σ :=
  { (O.also A).env t with guar := A.guar t }

/-- The obligations of the second walk. -/
structure Addition.Valid (O : Outline S) (A : Addition S) : Prop where
  inv_guar : ∀ t s s', O.inv s → A.inv s → O.ok t s s' → O.guar t s s' → A.guar t s s' → A.inv s'
  stable : ∀ t pc, Stable ((O.also A).env t) fun s => O.cut t pc s ∧ A.cut t pc s
  body : ∀ t pc p, S.body t pc = some p →
    Triple (O.second A t) (fun s => O.cut t pc s ∧ A.cut t pc s) p (A.cut t)
  trap : ∀ t x s s', O.inv s → A.inv s → S.enter t x s = some s' → O.ok t s s' →
    A.guar t s s' ∧ wp (O.second A t) (S.trap t x) (A.cut t) s'

variable {O : Outline S} {A : Addition S}

theorem rely_of_also {t : ι} {s s' : σ} (h : (O.also A).rely t s s') : O.rely t s s' := by
  obtain ⟨u, hu, hi, hok, hg, hi'⟩ := h
  exact ⟨u, hu, hi.1, hok, hg.1, hi'.1⟩

/-- What the others could not falsify before, they cannot falsify now. -/
theorem stable_also {t : ι} {P : σ → Prop} (h : Stable (O.env t) P) :
    Stable ((O.also A).env t) P :=
  fun s s' hr => h s s' (rely_of_also hr)

/-- Both walks of one program. -/
theorem wp_also {t : ι} {p : Prog σ α} {s : σ} {Q R : α → σ → Prop} (h : wp (O.env t) p Q s)
    (h' : wp (O.second A t) p R s) : wp ((O.also A).env t) p (fun a s => Q a s ∧ R a s) s :=
  wp_both (E := O.env t) (F := O.second A t) (G := (O.also A).env t)
    (fun _ hi => ⟨hi.1, hi⟩) (fun _ _ hok => ⟨hok, hok⟩)
    (fun _ _ hr => ⟨rely_of_also hr, hr⟩) (fun _ _ _ hg hg' => ⟨hg, hg'⟩) p s h h'

/-- **Two valid walks are one.** -/
theorem Valid.also (hO : O.Valid) (hA : A.Valid O) : (O.also A).Valid where
  inv_guar t s s' hi hok hg :=
    ⟨hO.inv_guar t s s' hi.1 hok hg.1, hA.inv_guar t s s' hi.1 hi.2 hok hg.1 hg.2⟩
  stable := hA.stable
  body t pc p hp s hs := wp_also (hO.body t pc p hp s hs.1) (hA.body t pc p hp s hs)
  trap t x s s' hi he hok := by
    obtain ⟨hg, hw⟩ := hO.trap t x s s' hi.1 he hok
    obtain ⟨hg', hw'⟩ := hA.trap t x s s' hi.1 hi.2 he hok
    exact ⟨⟨hg, hg'⟩, wp_also hw hw'⟩

/-- A configuration at a point of both. -/
theorem Holds.also {c : S.Config} (h : O.Holds c) (hi : A.inv c.mem)
    (hat : ∀ t, wp (O.second A t) (c.prog t) (A.cut t) c.mem) : (O.also A).Holds c where
  inv := ⟨h.inv, hi⟩
  at_ t := wp_also (h.at_ t) (hat t)

end Outline

end Conc

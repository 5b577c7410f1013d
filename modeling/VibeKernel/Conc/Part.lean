import VibeKernel.Conc.SecondWalk
import VibeKernel.Conc.Alone

/-!
# A part of a larger memory

A program over `σ` runs on a memory `τ` that has a `σ` as one of its parts. Nothing else of `τ`
changes.
-/

namespace Conc

/-- A part of a memory. -/
structure Part (τ σ : Type) where
  get : τ → σ
  put : σ → τ → τ
  get_put : ∀ s t, get (put s t) = s
  put_get : ∀ t, put (get t) t = t
  put_put : ∀ s s' t, put s' (put s t) = put s' t

variable {τ σ α β : Type}

namespace Prog

/-- `p` on one part of the memory. -/
def onPart (L : Part τ σ) : Prog σ α → Prog τ α
  | .ret a => .ret a
  | .act f k => .act (fun t => ((f (L.get t)).1, L.put (f (L.get t)).2 t)) fun b => (k b).onPart L
  | .pick d k => .pick d fun b => (k b).onPart L

variable {L : Part τ σ}

theorem onPart_bind (q : α → Prog σ β) :
    ∀ p : Prog σ α, (p >>= q).onPart L = p.onPart L >>= fun a => (q a).onPart L := by
  intro p
  induction p with
  | ret a => rfl
  | act f k ih => exact congrArg (Prog.act _) (funext ih)
  | pick d k ih => exact congrArg (Prog.pick d) (funext ih)

theorem Ends.onPart {P : α → Prop} : ∀ {p : Prog σ α}, p.Ends P → (p.onPart L).Ends P := by
  intro p
  induction p with
  | ret a => exact id
  | act f k ih => exact fun h b => ih b (h b)
  | pick d k ih => exact fun h b => ih b (h b)

/-- An access of `p` is an access of the part. -/
theorem Within.onPart {G : σ → σ → Prop} : ∀ {p : Prog σ α}, p.Within G →
    (p.onPart L).Within fun t t' => ∃ s', G (L.get t) s' ∧ t' = L.put s' t := by
  intro p
  induction p with
  | ret a => exact fun _ => trivial
  | act f k ih => exact fun h => ⟨fun t => ⟨_, h.1 _, rfl⟩, fun b => ih b (h.2 b)⟩
  | pick d k ih => exact fun h b => ih b (h b)

end Prog

/-! ## Proofs about one part -/

/-- The surroundings `E`, as far as the part is concerned. What the others do to the rest of the
memory is not seen. -/
structure Part.Sees (L : Part τ σ) (E : Env τ) (E' : Env σ) : Prop where
  inv : ∀ t, E.inv t → E'.inv (L.get t)
  ok : ∀ t s, E.ok t (L.put s t) → E'.ok (L.get t) s
  rely : ∀ t t', E.rely t t' → L.get t' = L.get t ∨ E'.rely (L.get t) (L.get t')
  guar : ∀ t s, E.inv t → E'.guar (L.get t) s → E.guar t (L.put s t)

section Sees

variable {L : Part τ σ} {E : Env τ} {E' : Env σ}

theorem Part.Sees.star (h : L.Sees E E') {t t' : τ} (hr : Relation.ReflTransGen E.rely t t') :
    Relation.ReflTransGen E'.rely (L.get t) (L.get t') := by
  induction hr with
  | refl => exact .refl
  | tail _ hstep ih =>
    rcases h.rely _ _ hstep with he | hr
    · rw [he]
      exact ih
    · exact ih.tail hr

theorem Stable.onPart (h : L.Sees E E') {P : σ → Prop} (hP : Stable E' P) :
    Stable E fun t => P (L.get t) := by
  intro t t' hr hp
  rcases h.rely t t' hr with he | hr'
  · rw [he]
    exact hp
  · exact hP _ _ hr' hp

/-- A program keeps its promise on the part, and what does not depend on the part is kept. -/
theorem wp_onPart (h : L.Sees E E') {F : τ → Prop} (hF : Stable E F)
    (hframe : ∀ t s, F t → F (L.put s t)) {Q : α → σ → Prop} :
    ∀ (p : Prog σ α) (t : τ), wp E' p Q (L.get t) → F t →
      wp E (p.onPart L) (fun a t => Q a (L.get t) ∧ F t) t := by
  intro p
  induction p with
  | ret a => exact fun t hq hf => ⟨hq, hf⟩
  | act f k ih =>
    intro t hq hf t' hr hinv hok
    obtain ⟨hg, hk⟩ := hq (L.get t') (h.star hr) (h.inv t' hinv) (h.ok t' _ hok)
    refine ⟨h.guar t' _ hinv hg, ih _ _ ?_ (hframe _ _ (hF.star hr hf))⟩
    rw [L.get_put]
    exact hk
  | pick d k ih => exact fun t hq hf b => ih b t (hq b) hf

theorem Triple.onPart (h : L.Sees E E') {F : τ → Prop} (hF : Stable E F)
    (hframe : ∀ t s, F t → F (L.put s t)) {P : σ → Prop} {p : Prog σ α} {Q : α → σ → Prop}
    (hp : Triple E' P p Q) :
    Triple E (fun t => P (L.get t) ∧ F t) (p.onPart L) fun a t => Q a (L.get t) ∧ F t :=
  fun t ht => wp_onPart h hF hframe p t (hp _ ht.1) ht.2

end Sees

end Conc

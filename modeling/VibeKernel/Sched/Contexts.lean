import VibeKernel.Ap.Done
import VibeKernel.Conc.Part
import VibeKernel.Sched.Route

/-!
# All contexts together

The BSP and the APs of all contexts take turns on one memory. Every AP runs `ap_request_loop` on its
own context. What the BSP runs is a parameter.

What is known about one context and its AP holds here for each of them: `kernelOutline_valid`. Only
the BSP's code is left to look at.
-/

namespace VibeKernel

open Conc

/-! ## The system -/

/-- `ap_broadcast_ping_summary_t`. -/
structure BroadcastPingSummary where
  plannedCount : UInt32 := 0
  completedCount : UInt32 := 0
  okCount : UInt32 := 0
  failCount : UInt32 := 0
  entries : ApContextIndex → ApBroadcastPingEntry := fun _ => {}

/-- `ap_contexts` and `ap_broadcast_ping_summary`. -/
structure KernelMemory where
  contexts : ApContexts
  summary : BroadcastPingSummary := {}

/-- Context `i` as a part of the memory. -/
def kernelPart (i : ApContextIndex) : Part KernelMemory Machine where
  get t := t.contexts i
  put s t := { t with contexts := Function.update t.contexts i s }
  get_put s t := by simp
  put_get t := by simp
  put_put s s' t := by simp

inductive Processor
  | bsp
  | ap (i : ApContextIndex)
deriving DecidableEq

/-- The macros, with the index of the context. -/
def Build.on (b : Build) (i : ApContextIndex) : Build := { b with apContextIndex := VibeKernel.apContextIndex i }

/-- The BSP runs `body`, the APs their loops. -/
def kernelSystem (b : Build) {PC : Type} (body : PC → Option (Prog KernelMemory PC)) :
    System Processor KernelMemory where
  PC
    | .bsp => PC
    | .ap _ => ApPc
  body
    | .bsp => body
    | .ap i => fun pc => (apBody (b.on i) pc).map (·.onPart (kernelPart i))
  Trap
    | .bsp => Empty
    | .ap _ => FaultFrame
  enter
    | .bsp => fun x => x.elim
    | .ap i => fun frame t => (enterFault frame (t.contexts i)).map fun s => (kernelPart i).put s t
  trap
    | .bsp => fun x => x.elim
    | .ap i => fun frame => (apFaultDispatch frame).onPart (kernelPart i)

/-- Every access is admitted. -/
abbrev anyTurn : Processor → KernelMemory → KernelMemory → Prop := fun _ _ _ => True

/-- A start: the contexts, where each AP is, and what the BSP runs. -/
def kernelStart (b : Build) {PC : Type} (body : PC → Option (Prog KernelMemory PC))
    (contexts : ApContexts) (aps : ApContextIndex → Prog Machine ApPc)
    (bsp : Prog KernelMemory PC) : (kernelSystem b body).Config where
  mem := { contexts }
  prog
    | .bsp => bsp
    | .ap i => (aps i).onPart (kernelPart i)

/-- What the kernel left of context `i`, and where its AP is: after pings and streams, one after
another, from a proper start. -/
def LeftBy (b : Build) (i : ApContextIndex) (s : Machine) (ap : Prog Machine ApPc) : Prop :=
  ∃ s₀ pc, Fresh s₀ ∧ pc.looping = true ∧ ∃ c : (apSystem (b.on i) true).Config,
    (apSystem (b.on i) true).Reach anyAccess (apConfig (b.on i) true s₀ (.ret pc) (.ret .next)) c ∧
      c.prog .bsp = .ret BspPc.next ∧ c.prog .ap = ap ∧ c.mem = s

/-- Contexts that nothing has happened to. -/
def freshContexts : ApContexts := fun _ => {}

theorem LeftBy.default (b : Build) (i : ApContextIndex) : LeftBy b i {} (.ret (.scan 0 false)) :=
  ⟨{}, .scan 0 false, .default, rfl, _, .refl, rfl, rfl, rfl⟩

/-- Processor `u` goes on until `stop` holds. -/
def runsUntil {b : Build} {PC : Type} {body : PC → Option (Prog KernelMemory PC)} (u : Processor)
    (stop : KernelMemory → Bool) : System.Move (kernelSystem b body) anyTurn :=
  .until u 4000 stop

/-! ## What is known about each context -/

/-- The protocol of every context, and what is known between two pieces of the BSP's code. The BSP
stays in the contexts of `own`. -/
def kernelOutline (b : Build) {PC : Type} (body : PC → Option (Prog KernelMemory PC))
    (c0 : ApContextIndex → UInt32) (own : ApContextIndex → Prop) (cut : PC → KernelMemory → Prop) :
    Outline (kernelSystem b body) where
  inv t := ∀ i, MachineInv (b.on i) (c0 i) (t.contexts i)
  ok := anyTurn
  guar
    | .bsp => fun t t' => ∀ i, t'.contexts i = t.contexts i ∨
        own i ∧ BspAct (b.on i) .started (c0 i) (t.contexts i) (t'.contexts i)
    | .ap i => fun t t' => ∃ s, ApAct (b.on i) (c0 i) (t.contexts i) s ∧ t' = (kernelPart i).put s t
  cut
    | .bsp => cut
    | .ap i => fun pc t => apCut pc (t.contexts i)

section Outline

variable {b : Build} {c0 : ApContextIndex → UInt32} {own : ApContextIndex → Prop} {PC : Type}
  {body : PC → Option (Prog KernelMemory PC)} {cut : PC → KernelMemory → Prop}
  {i j : ApContextIndex} {s : Machine} {t t' : KernelMemory} {ap : Prog Machine ApPc}

@[simp] theorem kernelPart_get : (kernelPart i).get t = t.contexts i := rfl
@[simp] theorem kernelPart_contexts_self : ((kernelPart i).put s t).contexts i = s := by
  simp [kernelPart]
@[simp] theorem kernelPart_contexts_ne (h : j ≠ i) :
    ((kernelPart i).put s t).contexts j = t.contexts j := by
  simp [kernelPart, h]
@[simp] theorem kernelPart_summary : ((kernelPart i).put s t).summary = t.summary := rfl

/-- One context, in a run of all of them. -/
abbrev contextOutline (b : Build) (c0 : ApContextIndex → UInt32) (i : ApContextIndex) :
    Outline (apSystem (b.on i) true) :=
  (anyCalls (b.on i) (c0 i)).outline

theorem contextInv (h : MachineInv (b.on i) (c0 i) s) : (contextOutline b c0 i).inv s :=
  ⟨h, False.elim, trivial⟩

/-- What an AP sees of the others. -/
theorem kernelPart_sees_ap (i : ApContextIndex) :
    (kernelPart i).Sees ((kernelOutline b body c0 own cut).env (.ap i))
      ((contextOutline b c0 i).env .ap) where
  inv t h := contextInv (h i)
  ok _ _ _ := trivial
  rely t t' := by
    rintro ⟨u, hu, hinv, -, hg, hinv'⟩
    cases u with
    | bsp =>
      rcases hg i with he | ha
      · exact Or.inl he
      · exact Or.inr ⟨.bsp, nofun, contextInv (hinv i), trivial, ha.2, contextInv (hinv' i)⟩
    | ap j =>
      obtain ⟨s, -, rfl⟩ := hg
      have hij : i ≠ j := fun he => hu (he ▸ rfl)
      exact Or.inl (kernelPart_contexts_ne hij)
  guar t s _ hg := ⟨s, hg, rfl⟩

/-- What the BSP sees of the AP of context `i`. -/
theorem kernelPart_sees_bsp (hi : own i) :
    (kernelPart i).Sees ((kernelOutline b body c0 own cut).env .bsp)
      ((contextOutline b c0 i).env .bsp) where
  inv t h := contextInv (h i)
  ok _ _ _ := trivial
  rely t t' := by
    rintro ⟨u, hu, hinv, -, hg, hinv'⟩
    cases u with
    | bsp => exact absurd rfl hu
    | ap j =>
      obtain ⟨s, ha, rfl⟩ := hg
      by_cases hij : i = j
      · subst hij
        refine Or.inr ⟨.ap, nofun, contextInv (hinv i), trivial, ?_, contextInv (hinv' i)⟩
        show ApAct (b.on i) (c0 i) (t.contexts i) (((kernelPart i).put s t).contexts i)
        rw [kernelPart_contexts_self]
        exact ha
      · exact Or.inl (kernelPart_contexts_ne hij)
  guar t s _ hg j := by
    by_cases hj : j = i
    · subst hj
      rw [kernelPart_contexts_self]
      exact Or.inr ⟨hi, hg⟩
    · exact Or.inl (kernelPart_contexts_ne hj)

/-- Code of an AP, on its context. -/
theorem wp_onPart_ap {p : Prog Machine ApPc}
    (h : wp ((contextOutline b c0 i).env .ap) p apCut (t.contexts i)) :
    wp ((kernelOutline b body c0 own cut).env (.ap i)) (p.onPart (kernelPart i))
      ((kernelOutline b body c0 own cut).cut (.ap i)) t :=
  wp_mono (fun _ _ hq => hq.1) _ _
    (wp_onPart (kernelPart_sees_ap i) (F := fun _ => True) Stable.true (fun _ _ => id) p t h trivial)

theorem kernelOutline_inv (h : ∀ i, MachineInv (b.on i) (c0 i) (t.contexts i)) {u : Processor}
    (hg : (kernelOutline b body c0 own cut).guar u t t') :
    ∀ i, MachineInv (b.on i) (c0 i) (t'.contexts i) := by
  intro i
  cases u with
  | bsp =>
    rcases hg i with he | ha
    · rw [he]
      exact h i
    · exact (h i).bspAct trivial ha.2
  | ap j =>
    obtain ⟨s, ha, rfl⟩ := hg
    by_cases hij : i = j
    · subst hij
      rw [kernelPart_contexts_self]
      exact (h i).apAct ha
    · rw [kernelPart_contexts_ne hij]
      exact h i

/-- **The APs stay inside the protocol of their contexts.** -/
theorem kernelOutline_valid
    (hstable : ∀ pc, Stable ((kernelOutline b body c0 own cut).env .bsp) (cut pc))
    (hbody : ∀ pc p, body pc = some p →
      Triple ((kernelOutline b body c0 own cut).env .bsp) (cut pc) p cut) :
    (kernelOutline b body c0 own cut).Valid where
  inv_guar _ _ _ h _ hg := kernelOutline_inv h hg
  stable u pc := by
    cases u with
    | bsp => exact hstable pc
    | ap i => exact Stable.onPart (kernelPart_sees_ap i) (apCut_stable (anyCalls _ _).apEnv pc)
  body u pc p hp := by
    cases u with
    | bsp => exact hbody pc p hp
    | ap i =>
      obtain ⟨q, hq, rfl⟩ := Option.map_eq_some_iff.1 hp
      exact fun t ht => wp_onPart_ap (apBody_triple (anyCalls _ _).apEnv pc q hq _ ht)
  trap u x t t' h he _ := by
    cases u with
    | bsp => exact x.elim
    | ap i =>
      obtain ⟨s, hs, rfl⟩ := Option.map_eq_some_iff.1 he
      obtain ⟨hg, hw⟩ := (anyCalls (b.on i) (c0 i)).valid.trap .ap x _ _ (contextInv (h i)) hs trivial
      refine ⟨⟨s, hg, rfl⟩, wp_onPart_ap ?_⟩
      rw [kernelPart_contexts_self]
      exact hw

/-- A context that was left behind is inside its protocol, and so is its AP. -/
theorem LeftBy.holds (h : LeftBy b i s ap) : ∃ c0 : UInt32,
    MachineInv (b.on i) c0 s ∧ Settled s ∧
      wp ((anyCalls (b.on i) c0).outline.env .ap) ap apCut s := by
  obtain ⟨s₀, pc, hs, hpc, c, hr, hbsp, rfl, rfl⟩ := h
  have hholds := Outline.sound (anyCalls (b.on i) s₀.counterValue).valid
    (anyCalls_holds (b.on i) hs hpc) hr
  refine ⟨s₀.counterValue, hholds.inv.machine, ?_, hholds.at_ .ap⟩
  have hcut := hholds.at_ .bsp
  rw [hbsp] at hcut
  exact hcut trivial

/-- A start whose contexts were left behind. -/
theorem kernelOutline_holds {contexts : ApContexts} {aps : ApContextIndex → Prog Machine ApPc}
    (hinv : ∀ i, MachineInv (b.on i) (c0 i) (contexts i))
    (hap : ∀ i, wp ((contextOutline b c0 i).env .ap) (aps i) apCut (contexts i))
    {p : Prog KernelMemory PC}
    (hbsp : wp ((kernelOutline b body c0 own cut).env .bsp) p cut { contexts }) :
    (kernelOutline b body c0 own cut).Holds (kernelStart b body contexts aps p) where
  inv := hinv
  at_ u := by
    cases u with
    | bsp => exact hbsp
    | ap i => exact wp_onPart_ap (t := { contexts }) (hap i)

end Outline

end VibeKernel

import VibeKernel.Ap.LoopOutline
import VibeKernel.Ap.ApView
import VibeKernel.Ap.CallOutline

/-!
# The AP and the BSP together

Both walks, put side by side. `anyStart` assumes nothing about where the runs start. A `Setting` is
a group of runs that start properly; it says which accesses are admitted and may add an invariant
of its own.
-/

namespace VibeKernel

open Conc

variable {b : Build} {again : Bool} {k : Know} {c0 : UInt32}

/-- Every access is admitted. -/
abbrev anyAccess : Cpu → Machine → Machine → Prop := fun _ _ _ => True

/-! ## Any start -/

/-- The BSP knows nothing. -/
def Know.nothing : Know := ⟨False, False, False, id, id⟩

/-- The outline of runs that start anywhere. -/
def anyStart (b : Build) (again : Bool) : Outline (apSystem b again) where
  inv _ := True
  ok := anyAccess
  guar
    | .ap => ApTouch
    | .bsp => BspAct b .nothing 0
  cut
    | .ap => fun _ _ => True
    | .bsp => bspCut b .nothing 0

theorem ApSeen.of_touch {s s' : Machine} (h : ApTouch s s') : ApSeen .nothing s s' where
  toApTouch := h
  down := False.elim
  stuck := False.elim
  posted := False.elim
  keep := False.elim
  waits := False.elim
  runIndex := False.elim
  later := False.elim
  unseen := False.elim

theorem anyStart_bspEnv : BspEnv b .nothing 0 ((anyStart b again).env .bsp) where
  inv _ _ := False.elim
  guar _ _ _ h := h
  rely s s' := by
    rintro ⟨u, hu, -, -, hg, -⟩
    cases u with
    | ap => exact .of_touch hg
    | bsp => exact absurd rfl hu
  overdue _ _ _ := False.elim
  faithful _ _ := False.elim

theorem enterFault_eq {frame : FaultFrame} {s s' : Machine} (h : enterFault frame s = some s') :
    s' = s.note (.faulted frame.vector) ∧ ∀ v g, s.log.phase ≠ .faulted v g := by
  unfold enterFault at h
  split at h
  · cases h
  · rename_i hp
    exact ⟨(Option.some.inj h).symm, hp⟩

theorem anyStart_valid : (anyStart b again).Valid where
  inv_guar _ _ _ _ _ _ := trivial
  stable t pc := by
    cases t with
    | ap => exact fun _ _ _ _ => trivial
    | bsp => exact anyStart_bspEnv.stable fun _ _ hs h => bspCut_seen pc hs h
  body t pc p hp := by
    cases t with
    | ap => exact fun s _ => wp_of_within (fun _ _ h => h) (fun _ _ => trivial) p s (apBody_touch pc p hp)
    | bsp => exact bspBody_triple anyStart_bspEnv (fun _ => id) pc p hp
  trap t x s s' _ he _ := by
    cases t with
    | ap =>
      obtain ⟨rfl, -⟩ := enterFault_eq he
      exact ⟨(ApTouch.refl s).note rfl rfl,
        wp_of_within (fun _ _ h => h) (fun _ _ => trivial) _ _ (apFaultDispatch_touch x)⟩
    | bsp => exact x.elim

/-- Somewhere in the AP's code. -/
inductive ApPlace (b : Build) : Prog Machine ApPc → Prop
  | cut (pc : ApPc) : ApPlace b (.ret pc)
  | body {pc : ApPc} {p q : Prog Machine ApPc} (h : apBody b pc = some p) (hr : p.Rest q) :
      ApPlace b q
  | fault {frame : FaultFrame} {q : Prog Machine ApPc} (hr : (apFaultDispatch frame).Rest q) :
      ApPlace b q

theorem ApPlace.touches {p : Prog Machine ApPc} (h : ApPlace b p) : p.Within ApTouch := by
  cases h with
  | cut pc => exact .ret pc
  | body hp hr => exact (apBody_touch _ _ hp).rest hr
  | fault hr => exact (apFaultDispatch_touch _).rest hr

/-- Runs of one stream from any memory, with the AP anywhere in its code. -/
theorem anyStart_holds {s : Machine} {ap : Prog Machine ApPc} (hap : ApPlace b ap)
    (plan : List ApRequestPlan) :
    (anyStart b again).Holds (apConfig b again s ap (runApRequestStream b plan)) where
  inv := trivial
  at_ t := by
    cases t with
    | ap => exact wp_of_within (fun _ _ h => h) (fun _ _ => trivial) _ _ hap.touches
    | bsp => exact runApRequestStream_triple anyStart_bspEnv s ⟨False.elim, False.elim, False.elim⟩

/-! ## A proper start -/

/-- A group of runs that start properly: the accesses it admits and what it adds to the
invariant. -/
structure Setting (b : Build) (again : Bool) (k : Know) (c0 : UInt32) where
  ok : Cpu → Machine → Machine → Prop
  extra : Machine → Prop
  strong : k.strong
  again_calm : again = true → ¬ k.calm
  fault : ∀ s v, k.calm → ok .ap s (s.note (.faulted v)) → s.log.phase.inHandler = true
  overdue : ∀ s i, k.calm → ¬ ok .bsp s (s.note (.overdue i))
  unseen : ∀ s s', k.ordered → ok .ap s s' → Unseen s s'
  faithful : ∀ s, MachineInv b c0 s → extra s → k.ordered → OrderFaithful s
  extra_ap : ∀ s s', MachineInv b c0 s → (k.calm → CalmInv b s) → extra s → ok .ap s s' →
    ApAct b c0 s s' → extra s'
  extra_bsp : ∀ s s', MachineInv b c0 s → (k.calm → CalmInv b s) → extra s → ok .bsp s s' →
    BspAct b k c0 s s' → extra s'

namespace Setting

variable (S : Setting b again k c0)

/-- The invariant of a setting. -/
structure Inv (s : Machine) : Prop where
  machine : MachineInv b c0 s
  calm : k.calm → CalmInv b s
  extra : S.extra s

/-- The outline of a setting. -/
def outline : Outline (apSystem b again) where
  inv := S.Inv
  ok := S.ok
  guar
    | .ap => ApAct b c0
    | .bsp => BspAct b k c0
  cut
    | .ap => apCut
    | .bsp => bspCut b k c0

theorem apEnv : ApEnv b c0 (S.outline.env .ap) where
  inv _ h := h.machine
  guar _ _ _ h := h
  rely s s' := by
    rintro ⟨u, hu, hinv, -, hg, -⟩
    cases u with
    | ap => exact absurd rfl hu
    | bsp => exact ⟨hinv.machine, hg.seen S.strong⟩

theorem bspEnv : BspEnv b k c0 (S.outline.env .bsp) where
  inv _ h _ := h.machine
  guar _ _ _ h := h
  rely s s' := by
    rintro ⟨u, hu, hinv, hok, hg, -⟩
    cases u with
    | ap => exact hg.seen hinv.machine hinv.calm fun ho => S.unseen _ _ ho hok
    | bsp => exact absurd rfl hu
  overdue s i _ hk := S.overdue s i hk
  faithful s h := S.faithful s h.machine h.extra

theorem inv_step {t : Cpu} {s s' : Machine} (h : S.Inv s) (hok : S.ok t s s')
    (hg : S.outline.guar t s s') : S.Inv s' := by
  cases t with
  | ap =>
    have hg : ApAct b c0 s s' := hg
    refine ⟨h.machine.apAct hg, fun hk => (h.calm hk).apAct h.machine hg fun v hv => ?_,
      S.extra_ap _ _ h.machine h.calm h.extra hok hg⟩
    subst hv
    exact S.fault s v hk hok
  | bsp =>
    have hg : BspAct b k c0 s s' := hg
    exact ⟨h.machine.bspAct S.strong hg, fun hk => (h.calm hk).bspAct hk h.machine hg,
      S.extra_bsp _ _ h.machine h.calm h.extra hok hg⟩

theorem valid : S.outline.Valid where
  inv_guar t s s' h hok hg := S.inv_step h hok hg
  stable t pc := by
    cases t with
    | ap => exact apCut_stable S.apEnv pc
    | bsp => exact S.bspEnv.stable fun _ _ hs h => bspCut_seen pc hs h
  body t pc p hp := by
    cases t with
    | ap => exact apBody_triple S.apEnv pc p hp
    | bsp => exact bspBody_triple S.bspEnv S.again_calm pc p hp
  trap t x s s' h he hok := by
    cases t with
    | ap =>
      obtain ⟨rfl, hp⟩ := enterFault_eq he
      refine ⟨.fault _ hp, apFaultDispatch_triple S.apEnv x _ ⟨⟨_, rfl⟩, fun hf => ?_⟩⟩
      obtain ⟨v, g, hph, -⟩ := h.machine.faulted hf
      exact hp v g hph
    | bsp => exact x.elim

/-- The start of a setting: the AP between two pieces of its code with no request in hand, the BSP
at the head of one of its calls. -/
theorem holds {s : Machine} (h : S.Inv s) {pc : ApPc} (hap : apCut pc s)
    {p : Prog Machine BspPc} (hbsp : wp (S.outline.env .bsp) p (bspCut b k c0) s) :
    S.outline.Holds (apConfig b again s (.ret pc) p) where
  inv := h
  at_ t := by
    cases t with
    | ap => exact hap
    | bsp => exact hbsp

end Setting

/-! ## Starting states -/

/-- Nothing has happened yet: no slot is waiting, the AP has not stopped. -/
structure Fresh (s : Machine) : Prop where
  log : s.log = []
  settled : Settled s
  up : s.apState ≠ .faulted ∧ s.apState ≠ .halted
  online : s.error = .ok → s.online = true

/-- The memory after `ap_request_loop` has entered its loop for the first time. -/
theorem Fresh.default : Fresh {} where
  log := rfl
  settled _ := ⟨nofun, nofun⟩
  up := ⟨nofun, nofun⟩
  online _ := rfl

theorem Fresh.machineInv {s : Machine} (h : Fresh s) : MachineInv b s.counterValue s where
  log := by rw [h.log]; exact .nil
  slot i := by
    rw [h.log]
    constructor <;> simp [(h.settled i).1, (h.settled i).2]
  faulted hf := absurd hf h.up.1
  halted hf := absurd hf h.up.2
  online := h.online
  counter := ⟨0, by simp, by simp⟩

theorem Fresh.calmInv {s : Machine} (h : Fresh s) : CalmInv b s :=
  .away (by rw [h.log]; rfl)

end VibeKernel

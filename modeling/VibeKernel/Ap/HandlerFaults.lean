import VibeKernel.Ap.Done

/-!
# Faults in handlers

The runs in which a fault enters `ap_fault_dispatch` from a handler only, as every fault of the AP's
own tests does. In these runs the AP that faulted has its slot in `current_request_slot`, and an AP
that halted has not faulted.

The AP reads the state of the slot a fault hit and then stores `FAULT` if it read `EMPTY`. Between
the two the BSP can publish and even give up the slot. `liveFaults` leaves out the runs in which that
store hits a slot that is neither `PENDING` nor `RUNNING`.
-/

namespace VibeKernel

open Conc

/-! ## The runs -/

/-- A fault enters `ap_fault_dispatch`. -/
def Machine.faultEnters (s s' : Machine) : Bool :=
  match s'.log with
  | .faulted _ :: l => l.length == s.log.length
  | _ => false

/-- Faults enter from handlers only. -/
def handlerFaults : Cpu → Machine → Machine → Prop
  | .ap, s, s' => s.faultEnters s' = true → s.log.phase.inHandler = true
  | .bsp, _, _ => True

/-- The AP stores `FAULT` only where a request is waiting or running. -/
def liveFaults : Cpu → Machine → Machine → Prop
  | .ap, s, s' => ∀ i, (s'.slots i).state = .fault →
      (s.slots i).state = .fault ∨ (s.slots i).state = .pending ∨ (s.slots i).state = .running
  | .bsp, _, _ => True

/-- Both. -/
def finalOk (t : Cpu) (s s' : Machine) : Prop := handlerFaults t s s' ∧ liveFaults t s s'

instance (t : Cpu) (s s' : Machine) : Decidable (handlerFaults t s s') := by
  cases t <;> unfold handlerFaults <;> infer_instance

instance (t : Cpu) (s s' : Machine) : Decidable (liveFaults t s s') := by
  cases t <;> unfold liveFaults <;> infer_instance

instance (t : Cpu) (s s' : Machine) : Decidable (finalOk t s s') := by
  unfold finalOk
  infer_instance

/-- The BSP gives up on a slot. -/
def Machine.givesUp (s s' : Machine) : Bool :=
  match s'.log with
  | .overdue _ :: l => l.length == s.log.length
  | _ => false

theorem handlerFaults_fault {s : Machine} {v : UInt64}
    (h : handlerFaults .ap s (s.note (.faulted v))) : s.log.phase.inHandler = true :=
  h (by simp [Machine.faultEnters])

/-! ## Where the AP is after a fault -/

/-- `current_request_slot` names the slot in hand. -/
@[simp] def ApPhase.names : ApPhase → Bool
  | .took .. | .readService .. | .lookedUp .. | .incremented .. | .counted .. | .ran ..
  | .rereadService .. | .missed .. | .faulted .. => true
  | _ => false

theorem ApPhase.names_of_inHandler {p : ApPhase} (h : p.inHandler = true) :
    p.names = true ∧ ∃ n i, p.held = some (n, i) := by
  cases p <;> simp_all

theorem ApPhase.not_names_of_idle {p : ApPhase} (h : p.idle = true) : p.names = false := by
  cases p <;> simp_all

/-- What faults in handlers only add to the invariant. -/
structure HandlerFaultInv (s : Machine) : Prop where
  current : ∀ n i, s.log.phase.held = some (n, i) → s.log.phase.names = true →
    s.currentRequestSlot = some i
  halted : s.apState = .halted → ∃ n i, s.log.phase = .halted n i
  badOp : ∀ i, (s.slots i).state = .badOp → s.log.latest i ≠ 0 → ∃ n j, s.log.phase = .halted n j
  fault : ∀ i, (s.slots i).state = .fault → s.log.latest i ≠ 0 →
    s.apState = .faulted ∨ (∃ v h, s.log.phase = .faulted v h) ∧ s.currentRequestSlot = some i

section Invariant

variable {b : Build} {k : Know} {c0 : UInt32} {s s' : Machine}

theorem HandlerFaultInv.current_apAct (h : HandlerFaultInv s)
    (hf : ∀ v, s' = s.note (.faulted v) → s.log.phase.inHandler = true) (ha : ApAct b c0 s s') :
    ∀ n i, s'.log.phase.held = some (n, i) → s'.log.phase.names = true →
      s'.currentRequestSlot = some i := by
  intro n i hh hn
  cases ha with
  | own hs =>
    rw [hs.log] at hh hn
    rw [hs.current]
    exact h.current n i hh hn
  | dropCurrent hp =>
    rw [ApPhase.not_names_of_idle hp] at hn
    cases hn
  | goOnline | backOnline | reply | metrics | badOp | faultVector | faultReply | faultSlot =>
    exact h.current n i hh hn
  | claim | complete | reject | halt => simp at hh hn
  | take hp =>
    simp only [Machine.note_log, Log.phase, ApPhase.held, Option.some.injEq, Prod.mk.injEq] at hh
    simp [hh.2]
  | readService hp | lookUp hp | increment v hp | run hp | rereadService hp | miss hp =>
    exact h.current n i (by rw [hp]; exact hh) (by rw [hp]; rfl)
  | count v hp =>
    rcases hp with ⟨svc, ifc, hp, -⟩ | ⟨hp, -⟩ <;>
    exact h.current n i (by rw [hp]; exact hh) (by rw [hp]; rfl)
  | fault v =>
    exact h.current n i (by simpa using hh) (ApPhase.names_of_inHandler (hf v rfl)).1
  | post hp => exact h.current n i (by simpa using hh) (by rw [hp]; rfl)

/-- The AP halts for good, and only on a dispatch miss. -/
theorem HandlerFaultInv.halted_apAct (h : HandlerFaultInv s)
    (hf : ∀ v, s' = s.note (.faulted v) → s.log.phase.inHandler = true) (ha : ApAct b c0 s s') :
    (s'.apState = .halted → ∃ n i, s'.log.phase = .halted n i) ∧
      ∀ n i, s.log.phase = .halted n i → s'.log.phase = .halted n i := by
  cases ha with
  | own hs => rw [hs.apState, hs.log]; exact ⟨h.halted, fun n i hp => hp⟩
  | dropCurrent | goOnline | reply | metrics | badOp | faultVector | faultReply | faultSlot =>
    exact ⟨h.halted, fun n i hp => hp⟩
  | backOnline => exact ⟨nofun, fun n i hp => hp⟩
  | halt hp => exact ⟨fun _ => ⟨_, _, rfl⟩, fun n i hp' => by rw [hp] at hp'; cases hp'⟩
  | post hp => exact ⟨nofun, fun n i hp' => by rw [hp] at hp'; cases hp'⟩
  | claim i hp | take hp | readService hp | lookUp hp | increment v hp | run hp | complete hp
  | reject hp | rereadService hp | miss hp =>
    refine ⟨fun ht => ?_, fun n i hp' => by rw [hp] at hp'; cases hp'⟩
    obtain ⟨n, i, hp'⟩ := h.halted ht
    rw [hp] at hp'
    cases hp'
  | count v hp =>
    have hno : ∀ n i, s.log.phase ≠ .halted n i := by
      rintro n i hp'
      rw [hp'] at hp
      simp at hp
    exact ⟨fun ht => absurd (h.halted ht) (by simpa using hno), fun n i hp' => absurd hp' (hno n i)⟩
  | fault v =>
    -- a handler runs, so the AP has not halted
    have hin := hf v rfl
    have hno : ∀ n i, s.log.phase ≠ .halted n i := by
      rintro n i hp'
      rw [hp'] at hin
      simp at hin
    exact ⟨fun ht => absurd (h.halted ht) (by simpa using hno), fun n i hp' => absurd hp' (hno n i)⟩

theorem HandlerFaultInv.badOp_apAct (h : HandlerFaultInv s)
    (hf : ∀ v, s' = s.note (.faulted v) → s.log.phase.inHandler = true) (ha : ApAct b c0 s s') :
    ∀ i, (s'.slots i).state = .badOp → s'.log.latest i ≠ 0 → ∃ n j, s'.log.phase = .halted n j := by
  have hold : ∀ i, (s.slots i).state = .badOp → s.log.latest i ≠ 0 →
      ∃ n j, s'.log.phase = .halted n j := by
    intro i hi h0
    obtain ⟨n, j, hp⟩ := h.badOp i hi h0
    exact ⟨n, j, (h.halted_apAct hf ha).2 n j hp⟩
  intro i hi h0
  cases ha with
  | own hs =>
    rw [hs.slots] at hi
    rw [hs.log] at h0
    exact hold i hi h0
  | dropCurrent | goOnline | backOnline | faultVector | take | readService | lookUp | increment
  | count | reject | rereadService | miss | halt | fault | post => exact hold i hi h0
  | reply | metrics | faultReply =>
    rw [state_setSlot rfl] at hi
    exact hold i hi h0
  | run => exact hold i (by rwa [Machine.note_slots, state_setSlot rfl] at hi) h0
  | claim | complete | faultSlot =>
    simp only [Machine.note_slots, state_setState] at hi
    split at hi
    · cases hi
    · exact hold i hi h0
  | @badOp n j hp => exact ⟨n, j, hp⟩

theorem HandlerFaultInv.fault_apAct (hm : MachineInv b c0 s) (h : HandlerFaultInv s)
    (ha : ApAct b c0 s s') :
    ∀ i, (s'.slots i).state = .fault → s'.log.latest i ≠ 0 → s'.apState = .faulted ∨
      (∃ v h, s'.log.phase = .faulted v h) ∧ s'.currentRequestSlot = some i := by
  -- a slot that shows a fault, and an AP that goes on as if there had been none
  have hup : s.log.phase.down = false → ∀ i, (s.slots i).state = .fault → s.log.latest i ≠ 0 →
      False := by
    intro hd i hi h0
    rcases h.fault i hi h0 with hp | ⟨⟨v, g, hp⟩, -⟩
    · obtain ⟨v, g, hp, -⟩ := hm.faulted hp
      simp [hp] at hd
    · simp [hp] at hd
  intro i hi h0
  cases ha with
  | own hs =>
    rw [hs.slots] at hi
    rw [hs.log] at h0 ⊢
    rw [hs.apState, hs.current]
    exact h.fault i hi h0
  | dropCurrent hp =>
    rcases h.fault i hi h0 with hf | ⟨⟨v, g, hf⟩, -⟩
    · exact Or.inl hf
    · rw [hf] at hp
      cases hp
  | goOnline | faultVector => exact h.fault i hi h0
  | reply | metrics | faultReply =>
    rw [state_setSlot rfl] at hi
    exact h.fault i hi h0
  | backOnline hd => exact (hup hd i hi h0).elim
  | take hp | readService hp | lookUp hp | increment v hp | reject hp | rereadService hp
  | miss hp | halt hp => exact (hup (by rw [hp]; rfl) i hi h0).elim
  | count v hp =>
    refine (hup ?_ i hi h0).elim
    rcases hp with ⟨svc, ifc, hp, -⟩ | ⟨hp, -⟩ <;> rw [hp] <;> rfl
  | run hp =>
    rw [Machine.note_slots, state_setSlot rfl] at hi
    exact (hup (by rw [hp]; rfl) i hi h0).elim
  | claim j hp | complete hp =>
    simp only [Machine.note_slots, state_setState] at hi
    split at hi
    · cases hi
    · exact (hup (by rw [hp]; rfl) i hi h0).elim
  | badOp hp =>
    simp only [state_setState] at hi
    split at hi
    · cases hi
    · rcases h.fault i hi h0 with hf | ⟨⟨v, g, hf⟩, -⟩
      · exact Or.inl hf
      · rw [hp] at hf
        cases hf
  | @faultSlot v g j hp hc =>
    simp only [state_setState] at hi
    split at hi
    · rename_i hij
      exact Or.inr ⟨⟨v, g, hp⟩, hij ▸ hc⟩
    · exact h.fault i hi h0
  | fault v hp =>
    rcases h.fault i hi h0 with hf | ⟨⟨v', g, hf⟩, -⟩
    · exact Or.inl hf
    · exact absurd hf (hp v' g)
  | post => exact Or.inl rfl

theorem HandlerFaultInv.apAct (hm : MachineInv b c0 s) (h : HandlerFaultInv s)
    (hf : ∀ v, s' = s.note (.faulted v) → s.log.phase.inHandler = true) (ha : ApAct b c0 s s') :
    HandlerFaultInv s' :=
  ⟨h.current_apAct hf ha, (h.halted_apAct hf ha).1, h.badOp_apAct hf ha, h.fault_apAct hm ha⟩

/-- The BSP's accesses leave the AP's side of the invariant alone. -/
theorem HandlerFaultInv.bspAct (hk : k.strong) (h : HandlerFaultInv s) (ha : BspAct b k c0 s s') :
    HandlerFaultInv s' := by
  have hother : ∀ {s' : Machine}, s'.apState = s.apState → s'.currentRequestSlot = s.currentRequestSlot →
      s'.log.phase = s.log.phase →
      (∀ i, (s'.slots i).state = .badOp ∨ (s'.slots i).state = .fault → s'.log.latest i ≠ 0 →
        s.apState = .faulted ∧ (s'.slots i).state = .fault ∨
        (s'.slots i).state = (s.slots i).state ∧ s'.log.latest i = s.log.latest i) →
      HandlerFaultInv s' := by
    intro s' hap hcur hph hst
    refine ⟨?_, ?_, fun i hi h0 => ?_, fun i hi h0 => ?_⟩
    · rw [hph, hcur]; exact h.current
    · rw [hap, hph]; exact h.halted
    · rw [hph]
      rcases hst i (Or.inl hi) h0 with ⟨-, hf⟩ | ⟨hs, hl⟩
      · rw [hi] at hf; cases hf
      · exact h.badOp i (hs ▸ hi) (hl ▸ h0)
    · rw [hap, hph, hcur]
      rcases hst i (Or.inr hi) h0 with ⟨hf, -⟩ | ⟨hs, hl⟩
      · exact Or.inl hf
      · exact h.fault i (hs ▸ hi) (hl ▸ h0)
  -- the BSP makes no slot `BAD_OP`, and `FAULT` only once the AP has posted
  cases ha with
  | own hs =>
    exact hother hs.apState hs.current (by rw [hs.log]) fun i _ _ =>
      Or.inr ⟨by rw [hs.slots], by rw [hs.log]⟩
  | began | overdue => exact hother rfl rfl rfl fun i _ _ => Or.inr ⟨rfl, rfl⟩
  | mark e he =>
    have hsame := Log.SameAp.cons (Event.not_byAp_of_isMark he) s.log
    refine hother rfl rfl hsame.phase fun i _ _ => Or.inr ⟨rfl, ?_⟩
    cases e <;> first | rfl | exact nomatch he
  | restoreHandled | restoreCounter => exact hother rfl rfl rfl fun i _ _ => Or.inr ⟨rfl, rfl⟩
  | waitLoops | stopReply => exact hother rfl rfl rfl fun i _ _ => Or.inr ⟨state_setSlot rfl i, rfl⟩
  | prepare hw =>
    exact hother rfl rfl rfl fun i _ _ =>
      Or.inr ⟨state_setSlot (SlotStore.apply_state_of_isField hw _) i, rfl⟩
  | finish =>
    refine hother rfl rfl rfl fun i _ _ => Or.inr ⟨?_, rfl⟩
    simp only [finishStore, Machine.note_slots]
    exact state_setSlot rfl i
  | reset | stopSkip | timeout =>
    refine hother rfl rfl rfl fun i hi _ => Or.inr ⟨?_, rfl⟩
    simp only [state_setState] at hi ⊢
    split at hi
    · simp at hi
    · rename_i hij
      rw [if_neg hij]
  | stopFault j hs =>
    refine hother rfl rfl rfl fun i hi _ => ?_
    simp only [state_setState]
    split
    · exact Or.inl ⟨(hs hk).1, rfl⟩
    · exact Or.inr ⟨rfl, rfl⟩
  | @publish j p st hj hr hs =>
    refine hother rfl rfl rfl fun i hi _ => ?_
    simp only [publishState, Machine.note_slots, state_setState] at hi ⊢
    split at hi
    · rename_i hij
      rw [if_pos hij]
      rcases hs hk with ⟨rfl, -⟩ | ⟨rfl, -⟩ | ⟨rfl, hf, -⟩
      · simp at hi
      · simp at hi
      · exact Or.inl ⟨hf, rfl⟩
    · rename_i hij
      rw [if_neg hij]
      exact Or.inr ⟨rfl, by simp [Ne.symm hij]⟩

end Invariant

/-! ## The setting -/

theorem HandlerFaultInv.of_fresh {s : Machine} (h : Fresh s) : HandlerFaultInv s := by
  constructor <;> simp [h.log, h.up.2]

/-- Any calls, with faults in handlers and none that hits an idle slot. -/
def liveCalls (b : Build) (c0 : UInt32) : Setting b true .started c0 where
  ok := finalOk
  extra := HandlerFaultInv
  strong := trivial
  again_calm := Know.started_not_calm
  fault _ _ := False.elim
  overdue _ _ := False.elim
  unseen _ _ := False.elim
  faithful _ _ _ := False.elim
  extra_ap _ _ hm _ h hok ha := h.apAct hm (fun _ hv => handlerFaults_fault (hv ▸ hok.1)) ha
  extra_bsp _ _ _ _ h _ ha := h.bspAct trivial ha

end VibeKernel

import VibeKernel.Ap.SystemOutline
import VibeKernel.Ap.Schedule

/-!
# `DONE` means that the current request ran

For any calls of the BSP on one context, one after another, and any faults of the AP.

`SlotOk` already says that a slot that is `DONE` was claimed and run under its latest publication.
What is left is that the cmpxchg to `DONE` was that claim's own: a completion begun for an earlier
publication of the slot never succeeds once the slot is published again.
-/

namespace VibeKernel

open Conc

/-- The AP is in `ap_request_loop`, between two requests. -/
def ApPc.looping : ApPc → Bool
  | .start | .scan .. => true
  | _ => false

theorem apCut_of_looping {pc : ApPc} (h : pc.looping = true) {s : Machine} (hs : Fresh s) :
    apCut pc s := by
  have hp : s.log.phase = .away := by rw [hs.log]; rfl
  cases pc <;> first | exact hp | exact nomatch h

/-- The BSP knows that the AP started properly, and nothing else. -/
def Know.started : Know := ⟨True, False, False, fun _ => trivial, id⟩

theorem Know.started_not_calm : true = true → ¬ Know.started.calm := fun _ => id

/-- Any calls, from a proper start. -/
def anyCalls (b : Build) (c0 : UInt32) : Setting b true .started c0 where
  ok := anyAccess
  extra _ := True
  strong := trivial
  again_calm := Know.started_not_calm
  fault _ _ := False.elim
  overdue _ _ := False.elim
  unseen _ _ := False.elim
  faithful _ _ _ := False.elim
  extra_ap _ _ _ _ _ _ _ := trivial
  extra_bsp _ _ _ _ _ _ _ := trivial

theorem anyCalls_holds (b : Build) {s : Machine} (hs : Fresh s) {pc : ApPc}
    (hpc : pc.looping = true) :
    (anyCalls b s.counterValue).outline.Holds (apConfig b true s (.ret pc) (.ret .next)) :=
  (anyCalls b s.counterValue).holds ⟨hs.machineInv, False.elim, trivial⟩ (apCut_of_looping hpc hs)
    fun _ => hs.settled

section Ap

variable {b : Build} {c0 : UInt32} {s s' : Machine}

/-- The AP leaves a slot alone that is `DONE`. -/
theorem ApAct.slots_of_done (hm : MachineInv b c0 s) (ha : ApAct b c0 s s') {i : SlotIndex}
    (hd : (s.slots i).state = .done) : s'.slots i = s.slots i := by
  have hne : ∀ {n j}, s.log.phase.held = some (n, j) → i ≠ j := by
    rintro n j hh rfl
    exact hm.not_done_of_held hh hd
  cases ha with
  | own hs => rw [hs.slots]
  | claim j hp hj =>
    have hij : i ≠ j := by
      rintro rfl
      rw [hd] at hj
      cases hj
    simp [hij]
  | reply f hp => exact Machine.setSlot_slots_ne _ _ (hne hp)
  | metrics v hp => exact Machine.setSlot_slots_ne _ _ (hne hp)
  | @run n j r hp | @complete n j r hp | @badOp n j hp =>
    have hij : i ≠ j := hne (by rw [hp]; rfl)
    simp [hij]
  | @faultReply _ _ j f hp hc ha hs =>
    exact Machine.setSlot_slots_ne _ _ (fun he : i = j => hs.1 (he ▸ hd))
  | @faultSlot _ _ j hp hc ha hs =>
    exact Machine.setSlot_slots_ne _ _ (fun he : i = j => hs.1 (he ▸ hd))
  | _ => rfl

/-- A slot that is finished but not `DONE` does not become `DONE`. -/
theorem ApAct.not_done (ha : ApAct b c0 s s') {i : SlotIndex}
    (hf : (s.slots i).state.finished = true) (hd : (s.slots i).state ≠ .done) :
    (s'.slots i).state ≠ .done := by
  cases ha with
  | own hs =>
    rw [hs.slots]
    exact hd
  | @complete n j r hp hr =>
    by_cases hij : i = j
    · subst hij
      rw [hr] at hf
      cases hf
    · simpa [hij] using hd
  | claim j | @badOp _ j | @faultSlot _ _ j =>
    by_cases hij : i = j
    · subst hij
      simp
    · simpa [hij] using hd
  | @reply _ j | @metrics _ j | @run _ j | @faultReply _ _ j =>
    by_cases hij : i = j
    · subst hij
      simpa using hd
    · simpa [hij] using hd
  | _ => exact hd

end Ap

/-- The latest request of slot `i` was claimed once, one handler ran under that claim, the slot shows
what it wrote, and the same claim completed the request. -/
structure ReallyRan (b : Build) (i : SlotIndex) (s : Machine) : Prop where
  published : s.log.latest i ≠ 0
  claimed : s.log.claims.count (s.log.latest i) = 1
  ran : ∃ run, s.log.runsOf (s.log.latest i) = [run] ∧ Matches b run (s.slots i)
  completed : Event.completed (s.log.latest i) i ∈ s.log

/-- A slot that is `DONE` was completed under its latest publication. -/
def Completed (s : Machine) : Prop :=
  ∀ i, (s.slots i).state = .done →
    s.log.latest i ≠ 0 ∧ Event.completed (s.log.latest i) i ∈ s.log

section Step

variable {b : Build} {k : Know} {c0 : UInt32} {s s' : Machine}

/-- Nothing became `DONE`, and no slot that is `DONE` was published. -/
theorem Completed.keep (h : Completed s) (hlog : ∀ e ∈ s.log, e ∈ s'.log)
    (hst : ∀ i, (s'.slots i).state = .done →
      (s.slots i).state = .done ∧ s'.log.latest i = s.log.latest i) : Completed s' := by
  intro i hd
  obtain ⟨hd', hl⟩ := hst i hd
  rw [hl]
  obtain ⟨h0, hc⟩ := h i hd'
  exact ⟨h0, hlog _ hc⟩

/-- Only slot `i` changed. It is `DONE` only if it was. -/
theorem Completed.setSlot (h : Completed s) {i : SlotIndex} {f : ApRequestSlot → ApRequestSlot}
    (hf : (f (s.slots i)).state = .done → (s.slots i).state = .done) :
    Completed (s.setSlot i f) := by
  refine h.keep (fun _ he => he) fun j hd => ⟨?_, rfl⟩
  by_cases hj : j = i
  · subst hj
    exact hf (by simpa using hd)
  · simpa [hj] using hd

theorem Completed.note (h : Completed s) {e : Event} (hl : ∀ i, Log.latest i (e :: s.log) = s.log.latest i) :
    Completed (s.note e) :=
  h.keep (fun _ he => List.mem_cons_of_mem _ he) fun i hd => ⟨hd, hl i⟩

/-- The AP completes no request but the one it claimed. -/
theorem Completed.apAct (hm : MachineInv b c0 s) (h : Completed s) (ha : ApAct b c0 s s') :
    Completed s' := by
  cases ha with
  | own hs =>
    refine h.keep (fun _ he => by rw [hs.log]; exact he) fun i hd => ?_
    rw [hs.slots] at hd
    exact ⟨hd, by rw [hs.log]⟩
  | dropCurrent | goOnline | backOnline | faultVector => exact h
  | reply | metrics | faultReply => exact h.setSlot id
  | badOp | faultSlot => exact h.setSlot (by simp)
  | take | readService | lookUp | increment | count | reject | rereadService | miss | halt | fault
  | post => exact h.note fun _ => rfl
  | claim i =>
    have hset : Completed (s.setState i .running) := h.setSlot (by simp)
    exact hset.note fun _ => rfl
  | @run n i r =>
    have hset : Completed (s.setMetrics i fun m => { m with handledCount := r.handledCount }) :=
      h.setSlot id
    exact hset.note fun _ => rfl
  | @complete n i r hp hr =>
    intro j hd
    by_cases hj : j = i
    · subst hj
      have hh := ((hm.slot j).running hr).2
      have hn : s.log.latest j = n := by
        rw [hp] at hh
        exact (Prod.mk.inj (Option.some.inj hh)).1.symm
      obtain ⟨-, p, hpub⟩ := hm.log.held _ _ hh
      exact ⟨(hm.log.stamp _ _ _ _ hpub).1, by simp [hn]⟩
    · obtain ⟨h0, hc⟩ := h j (by simpa [hj] using hd)
      exact ⟨h0, List.mem_cons_of_mem _ hc⟩

/-- The BSP makes no slot `DONE`. -/
theorem Completed.bspAct (hk : k.strong) (h : Completed s) (ha : BspAct b k c0 s s') :
    Completed s' := by
  cases ha with
  | own hs =>
    refine h.keep (fun _ he => by rw [hs.log]; exact he) fun i hd => ?_
    rw [hs.slots] at hd
    exact ⟨hd, by rw [hs.log]⟩
  | mark e he =>
    refine h.note fun _ => ?_
    cases e <;> first | rfl | exact nomatch he
  | began | overdue => exact h.note fun _ => rfl
  | restoreHandled v => exact Completed.note (s := { s with requestHandledCount := v }) h fun _ => rfl
  | restoreCounter v => exact Completed.note (s := { s with counterValue := v }) h fun _ => rfl
  | reset | stopFault | stopSkip | timeout => exact h.setSlot (by simp)
  | prepare hw =>
    refine h.setSlot fun hd => ?_
    rwa [SlotStore.apply_state_of_isField hw] at hd
  | waitLoops | stopReply => exact h.setSlot id
  | finish i v =>
    have hset : Completed (s.setMetrics i fun m => { m with waitLoops := v }) := h.setSlot id
    exact hset.note fun _ => rfl
  | @publish i p st hi hr hs =>
    refine h.keep (fun _ he => List.mem_cons_of_mem _ he) fun j hd => ?_
    have hj : j ≠ i := by
      rintro rfl
      rcases hs hk with ⟨rfl, -⟩ | ⟨rfl, -⟩ | ⟨rfl, -⟩ <;> simp [publishState] at hd
    exact ⟨by simpa [publishState, hj] using hd, if_neg (Ne.symm hj)⟩

end Step

/-- **A slot that is `DONE` shows the run of its own latest request.** -/
theorem reallyRan_of_done (b : Build) {s : Machine} {c : (apSystem b true).Config} {pc : ApPc}
    (hs : Fresh s) (hnone : ∀ i, (s.slots i).state ≠ .done) (hpc : pc.looping = true)
    (hr : (apSystem b true).Reach anyAccess (apConfig b true s (.ret pc) (.ret .next)) c)
    {i : SlotIndex} (hd : (c.mem.slots i).state = .done) : ReallyRan b i c.mem := by
  have hholds := anyCalls_holds b hs hpc
  have hinv : MachineInv b s.counterValue c.mem :=
    ((Outline.sound (anyCalls b s.counterValue).valid hholds hr).inv).machine
  have hcomp : Completed c.mem := by
    refine Outline.invariant (anyCalls b s.counterValue).valid (fun _ _ _ h => h)
      (fun t a a' ha hJ _ hg => ?_) hholds (fun i hd => absurd hd (hnone i)) hr
    cases t with
    | ap => exact hJ.apAct ha.machine hg
    | bsp => exact hJ.bspAct trivial hg
  obtain ⟨h0, hc⟩ := hcomp i hd
  obtain ⟨hclaim, -, hrun⟩ := (hinv.slot i).done h0 hd
  exact ⟨h0, List.count_eq_one_of_mem hinv.log.claimedOnce hclaim, hrun, hc⟩

/-- A stream of one ping, and the AP up to its first `DONE`. -/
theorem reallyRan_of_done_ping :
    ∃ c, (apSystem {} true).Reach anyAccess (apConfig {} true {} (.ret (.scan 0 false))
      (.ret .next)) c ∧ ReallyRan {} 0 c.mem := by
  obtain ⟨c, hr, hd⟩ : ∃ c, (apSystem {} true).Reach anyAccess
      (apConfig {} true {} (.ret (.scan 0 false)) (.ret .next)) c ∧
        (c.mem.slots 0).state = .done := by
    refine System.exists_reach [calls (.stream [broadcastPingPlan {}]),
      goesOn .bsp Event.isPublished, goesOn .ap Event.isCompleted] ?_
    decide +kernel
  exact ⟨c, hr, reallyRan_of_done {} .default (fun _ => nofun) rfl hr hd⟩

end VibeKernel

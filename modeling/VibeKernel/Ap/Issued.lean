import VibeKernel.Ap.HandlerFaults

/-!
# What came back was published

In calm there is one stream and it is the first. Every completion is then one of its publications, and
while that publication is the latest of its slot, the slot does not wait for the AP again.
-/

namespace VibeKernel

open Conc

/-- The completions are publications, each settled. -/
structure Issued (s : Machine) : Prop where
  base : s.log.streamBase = 0
  issued : ∀ c ∈ s.log.completions, ∃ p st, Event.published c.n c.i p st ∈ s.log
  back : ∀ c ∈ s.log.completions, c.n = s.log.latest c.i →
    (s.slots c.i).state ≠ .pending ∧ (s.slots c.i).state ≠ .running

namespace Issued

variable {b : Build} {k : Know} {c0 : UInt32} {s s' : Machine}

theorem nil (h : s.log = []) : Issued s := by
  constructor <;> simp [h]

/-- No slot begins to wait. -/
theorem keep (h : Issued s) (hstream : s.log.SameStream s'.log)
    (hpub : ∀ n i p st, Event.published n i p st ∈ s.log → Event.published n i p st ∈ s'.log)
    (hback : ∀ i, (s'.slots i).state = .pending ∨ (s'.slots i).state = .running →
      (s.slots i).state = .pending ∨ (s.slots i).state = .running) : Issued s' where
  base := by rw [hstream.streamBase]; exact h.base
  issued c hc := by
    rw [hstream.completions] at hc
    obtain ⟨p, st, hp⟩ := h.issued c hc
    exact ⟨p, st, hpub _ _ _ _ hp⟩
  back c hc hn := by
    rw [hstream.completions] at hc
    rw [hstream.latest] at hn
    obtain ⟨hp, hr⟩ := h.back c hc hn
    have hno : ¬ ((s.slots c.i).state = .pending ∨ (s.slots c.i).state = .running) :=
      fun he => he.elim hp hr
    exact ⟨fun he => hno (hback c.i (Or.inl he)), fun he => hno (hback c.i (Or.inr he))⟩

/-- The AP brings nothing back. -/
theorem touch (h : Issued s) (ht : ApTouch s s') : Issued s' :=
  h.keep ht.log.toSameStream (fun n i p st => (ht.log.published n i p st).2)
    fun i => Or.rec (fun hp => Or.inl (ht.pending i hp)) (ht.running i)

/-- A change of one slot. -/
theorem setSlot (h : Issued s) {i : SlotIndex} {f : ApRequestSlot → ApRequestSlot}
    (hf : (f (s.slots i)).state = .pending ∨ (f (s.slots i)).state = .running →
      (s.slots i).state = .pending ∨ (s.slots i).state = .running) : Issued (s.setSlot i f) := by
  refine h.keep (.refl _) (fun _ _ _ _ => id) fun j hj => ?_
  by_cases hji : j = i
  · subst hji
    simp only [Machine.setSlot_slots_self] at hj
    exact hf hj
  · simpa [hji] using hj

/-- A completion is not a request that is out. -/
theorem ne_latest (hm : MachineInv b c0 s) (h : Issued s) {i : SlotIndex} {p : ApRequestPlan}
    {st : ApRequestStatus} (hp : Event.published (s.log.latest i) i p st ∈ s.log)
    (hi : (s.slots i).state = .pending ∨ (s.slots i).state = .running) :
    ∀ c ∈ s.log.completions, c.n ≠ s.log.latest i := by
  intro c hc hn
  obtain ⟨q, st', hq⟩ := h.issued c hc
  rw [hn] at hq
  obtain ⟨rfl, -, -⟩ := hm.log.unique _ _ _ _ _ _ _ hp hq
  obtain ⟨hpend, hrun⟩ := h.back c hc hn
  exact hi.elim hpend hrun

/-- A publication. -/
theorem publish (hm : MachineInv b c0 s) (h : Issued s) {i : SlotIndex} {plan : ApRequestPlan}
    {st : ApRequestStatus} : Issued (publishState i plan st s) := by
  refine ⟨h.base, fun c hc => ?_, fun c hc hn => ?_⟩
  · obtain ⟨p, st', hp⟩ := h.issued c hc
    exact ⟨p, st', List.mem_cons_of_mem _ hp⟩
  · obtain ⟨p, st', hp⟩ := h.issued c hc
    have hle := (hm.log.stamp _ _ _ _ hp).2
    have hci : c.i ≠ i := by
      intro hci
      simp only [publishState, Machine.note_log, Log.latest, hci, if_true, Machine.setSlot_log] at hn
      omega
    have hn' : c.n = s.log.latest c.i := by
      simpa [publishState, Ne.symm hci] using hn
    simpa [publishState, hci] using h.back c hc hn'

/-- A request comes back. -/
theorem finish (hm : MachineInv b c0 s) (h : Issued s) {i : SlotIndex} (v : UInt32)
    (hfin : (s.slots i).state.finished = true) (hu : s.log.Unrecorded i) :
    Issued (finishStore i v s) := by
  have hst : ∀ j, ((finishStore i v s).slots j).state = (s.slots j).state :=
    state_setSlot (f := fun slot => { slot with metrics := { slot.metrics with waitLoops := v } }) rfl
  have hcompletions := Tally.completions_finishStore i v s
  refine ⟨h.base, fun c hc => ?_, fun c hc hn => ?_⟩
  · rw [hcompletions, List.mem_append, List.mem_singleton] at hc
    rcases hc with hc | rfl
    · obtain ⟨p, st, hp⟩ := h.issued c hc
      exact ⟨p, st, List.mem_cons_of_mem _ hp⟩
    · obtain ⟨p, st, hp⟩ := hm.log.latest i (by have := hu.1; omega)
      exact ⟨p, st, List.mem_cons_of_mem _ hp⟩
  · rw [hcompletions, List.mem_append, List.mem_singleton] at hc
    rw [hst]
    rcases hc with hc | rfl
    · exact h.back c hc hn
    · exact (ApRequestStatus.finished_iff.1 hfin).2

/-- **The BSP takes back what it published.** -/
theorem bspAct (hk : k.calm) (hm : MachineInv b c0 s) (h : Issued s) (ha : BspAct b k c0 s s') :
    Issued s' := by
  cases ha with
  | own hs =>
    exact h.keep (by rw [hs.log]; exact .refl _) (by rw [hs.log]; exact fun _ _ _ _ => id)
      fun i hi => by rw [hs.slots] at hi; exact hi
  | began plan hnone => exact ⟨hnone hk, nofun, nofun⟩
  | mark e he =>
    refine h.keep ?_ (fun _ _ _ _ => List.mem_cons_of_mem _) fun _ => id
    cases e <;> first | exact ⟨rfl, rfl, fun _ => rfl, rfl, rfl, rfl, rfl⟩ | exact nomatch he
  | overdue i hno | timeout i hno | restoreHandled v hno | restoreCounter v hno => exact absurd hk hno
  | reset | stopFault | stopSkip => exact h.setSlot nofun
  | @prepare i w hw =>
    refine h.setSlot fun hi => ?_
    rwa [SlotStore.apply_state_of_isField hw] at hi
  | publish => exact h.publish hm
  | waitLoops | stopReply => exact h.setSlot id
  | finish i v hfin hu => exact h.finish hm v hfin hu

end Issued

end VibeKernel

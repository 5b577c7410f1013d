import VibeKernel.Ap.LogInvariant

/-!
# What every slot satisfies

The invariant ties the state word of a slot to the publication it carries and to where the AP is.
A slot that is `DONE` was claimed once under its current publication, and the one handler run under
that claim wrote what the slot shows.
-/

namespace VibeKernel

/-- What the log `l` says about a slot `i` that holds `slot`. -/
structure SlotOk (b : Build) (error : ApBootError) (l : Log) (i : SlotIndex)
    (slot : ApRequestSlot) : Prop where
  pending : slot.state = .pending → error = .ok ∧ l.latest i ∉ l.claims ∧
    ∃ p, Event.published (l.latest i) i p .pending ∈ l
  running : slot.state = .running → error = .ok ∧ l.phase.held = some (l.latest i, i)
  done : l.latest i ≠ 0 → slot.state = .done → l.latest i ∈ l.claims ∧ (∀ n, l.phase.held ≠ some (n, i)) ∧
    ∃ run, l.runsOf (l.latest i) = [run] ∧ Matches b run slot
  header : slot.state = .pending ∨ slot.state = .running →
    ∃ p, Event.published (l.latest i) i p .pending ∈ l ∧
      slot.request = preparedHeader (b.apContextIndex + 1) p
  stopped : l.latest i ≠ 0 →
    slot.state = .badOp ∨ slot.state = .fault ∨ slot.state = .skipped →
    l.phase.down = true ∨ error ≠ .ok

/-- The invariant of every run that starts properly. -/
structure MachineInv (b : Build) (c0 : UInt32) (s : Machine) : Prop where
  log : LogInv s.log
  slot : ∀ i, SlotOk b s.error s.log i (s.slots i)
  faulted : s.apState = .faulted → ∃ v h, s.log.phase = .faulted v h ∧ s.faultVector = v
  halted : s.apState = .halted → s.log.phase.down = true
  online : s.error = .ok → s.online = true
  counter : CounterOk c0 s.log s.counterValue

namespace SlotOk

variable {b : Build} {error : ApBootError} {l l' : Log} {i : SlotIndex} {slot slot' : ApRequestSlot}

/-- A state about which nothing is claimed. -/
theorem vacant (h : slot.state = .empty ∨ slot.state = .timeout) : SlotOk b error l i slot := by
  rcases h with h | h <;> constructor <;> simp [h]

/-- A state that says the AP stopped. -/
theorem stop (h : slot.state = .badOp ∨ slot.state = .fault ∨ slot.state = .skipped)
    (hd : l.phase.down = true ∨ error ≠ .ok) : SlotOk b error l i slot := by
  refine ⟨?_, ?_, ?_, ?_, fun _ _ => hd⟩
  all_goals rcases h with h | h | h <;> simp [h]

/-- A change of fields that leaves the state and the header alone. -/
theorem fields (h : SlotOk b error l i slot) (hs : slot'.state = slot.state)
    (hr : slot'.state = .pending ∨ slot'.state = .running → slot'.request = slot.request)
    (hd : slot.state = .done → ∀ run, Matches b run slot → Matches b run slot') :
    SlotOk b error l i slot' where
  pending hp := h.pending (hs ▸ hp)
  running hp := h.running (hs ▸ hp)
  done h0 hp := by
    obtain ⟨hc, hh, run, hr, hm⟩ := h.done h0 (hs ▸ hp)
    exact ⟨hc, hh, run, hr, hd (hs ▸ hp) run hm⟩
  header hp := by
    obtain ⟨p, hpub, hreq⟩ := h.header (hs ▸ hp)
    exact ⟨p, hpub, (hr hp).trans hreq⟩
  stopped h0 hp := h.stopped h0 (hs ▸ hp)

/-- An event after which the slot's story is the same. -/
theorem later (h : SlotOk b error l i slot) (hb : l.latest i = l'.latest i)
    (hp : ∀ n i p st, Event.published n i p st ∈ l → Event.published n i p st ∈ l')
    (hc : l'.latest i ∈ l'.claims ↔ l.latest i ∈ l.claims)
    (hr : slot.state = .done → l'.runsOf (l'.latest i) = l.runsOf (l.latest i))
    (hrun : slot.state = .running → l.phase.held = some (l.latest i, i) →
      l'.phase.held = some (l.latest i, i))
    (hdone : slot.state = .done → ∀ n, l'.phase.held = some (n, i) → l.phase.held = some (n, i))
    (hd : l.phase.down = true → l'.phase.down = true) : SlotOk b error l' i slot where
  pending hs := by
    obtain ⟨he, hn, p, hpub⟩ := h.pending hs
    exact ⟨he, fun hm => hn (hc.1 hm), p, hp _ _ _ _ (hb ▸ hpub)⟩
  running hs := ⟨(h.running hs).1, hb ▸ hrun hs (h.running hs).2⟩
  done h0 hs := by
    obtain ⟨hm, hh, run, hru, hma⟩ := h.done (hb ▸ h0) hs
    exact ⟨hc.2 hm, fun n hn => hh n (hdone hs n hn), run, (hr hs).trans hru, hma⟩
  header hs := by
    obtain ⟨p, hpub, hreq⟩ := h.header hs
    exact ⟨p, hp _ _ _ _ (hb ▸ hpub), hreq⟩
  stopped h0 hs := (h.stopped (hb ▸ h0) hs).imp_left hd

/-- An event of the AP that neither claims, runs, gives a claim back nor stops. -/
theorem apNote (h : SlotOk b error l i slot) (hb : l.SameBsp l') (hc : l'.claims = l.claims)
    (hr : ∀ n, l'.runsOf n = l.runsOf n) (hh : l'.phase.held = l.phase.held)
    (hd : l.phase.down = true → l'.phase.down = true) : SlotOk b error l' i slot :=
  h.later (hb.latest i).symm (fun n i p st => (hb.published n i p st).2)
    (by rw [hb.latest, hc]) (fun _ => by rw [hb.latest, hr]) (fun _ he => by rw [hh, he])
    (fun _ n hn => by rw [← hh, hn]) hd

/-- An event of the BSP other than a publication. -/
theorem bspNote (h : SlotOk b error l i slot) (ha : l.SameAp l') (hb : l'.latest i = l.latest i)
    (hp : ∀ n i p st, Event.published n i p st ∈ l → Event.published n i p st ∈ l') :
    SlotOk b error l' i slot :=
  h.later hb.symm hp (by rw [hb, ha.claims]) (fun _ => by rw [hb, ha.runsOf])
    (fun _ he => by rw [ha.phase, he]) (fun _ n hn => by rw [← ha.phase, hn])
    (fun hd => by rw [ha.phase, hd])

end SlotOk

/-- All slots at once, when only slot `i` changed and the log did not. -/
theorem forall_slotOk_setSlot {b : Build} {s : Machine} {i : SlotIndex}
    {f : ApRequestSlot → ApRequestSlot} (h : ∀ j, SlotOk b s.error s.log j (s.slots j))
    (hi : SlotOk b s.error s.log i (f (s.slots i))) (j : SlotIndex) :
    SlotOk b s.error s.log j ((s.setSlot i f).slots j) := by
  by_cases hj : j = i
  · subst hj
    simpa using hi
  · simpa [hj] using h j

theorem Matches.of_eq {b : Build} {run : HandlerRun} {slot slot' : ApRequestSlot}
    (h : Matches b run slot) (hq : slot'.request = slot.request) (hr : slot'.reply = slot.reply)
    (hm : slot'.metrics.handledCount = slot.metrics.handledCount) : Matches b run slot' where
  handler := by rw [hq]; exact h.handler
  idHigh := by rw [hq, hr]; exact h.idHigh
  idLow := by rw [hq, hr]; exact h.idLow
  resultCode := by rw [hr]; exact h.resultCode
  faultCode := by rw [hr]; exact h.faultCode
  handledCount := by rw [hm]; exact h.handledCount

namespace MachineInv

variable {b : Build} {k : Know} {c0 : UInt32} {s s' : Machine}

theorem pending (h : MachineInv b c0 s) (i : SlotIndex) (hi : (s.slots i).state = .pending) :
    s.log.latest i ∉ s.log.claims ∧ ∃ p, Event.published (s.log.latest i) i p .pending ∈ s.log :=
  ((h.slot i).pending hi).2

theorem latest_ne_zero (h : MachineInv b c0 s) {i : SlotIndex} {p : ApRequestPlan}
    {st : ApRequestStatus} (hp : Event.published (s.log.latest i) i p st ∈ s.log) :
    s.log.latest i ≠ 0 :=
  (h.log.stamp _ _ _ _ hp).1

theorem not_done_of_held (h : MachineInv b c0 s) {n : Nat} {i : SlotIndex}
    (hh : s.log.phase.held = some (n, i)) : (s.slots i).state ≠ .done := by
  obtain ⟨-, p, hp⟩ := h.log.held n i hh
  have hn := (h.log.stamp _ _ _ _ hp).1
  have hle := h.log.le_latest _ _ _ _ hp
  exact fun hd => ((h.slot i).done (by omega) hd).2.1 n hh

/-- The claim of a slot that is not the latest publication of any other. -/
theorem claim_slot (h : MachineInv b c0 s) {i : SlotIndex} (hp : s.log.phase = .away)
    (hi : (s.slots i).state = .pending) (j : SlotIndex) :
    SlotOk b s.error (.claimed (s.log.latest i) i :: s.log) j
      ((s.setState i .running).slots j) := by
  obtain ⟨he, hn, p, hpub⟩ := (h.slot i).pending hi
  have h0 := h.latest_ne_zero hpub
  by_cases hj : j = i
  · subst hj
    obtain ⟨q, hq, hreq⟩ := (h.slot j).header (Or.inl hi)
    constructor <;> simp [Machine.setState, he]
    exact ⟨q, hq, hreq⟩
  · have hne : s.log.latest j ≠ s.log.latest i := fun he => hj (h.log.latest_inj h0 he.symm).symm
    rw [show (s.setState i .running).slots j = s.slots j by simp [Machine.setState, hj]]
    refine (h.slot j).later rfl (fun _ _ _ _ => List.mem_cons_of_mem _) ?_ (fun _ => rfl) ?_ ?_ ?_
    · simp [hne]
    · intro _ hh
      simp [hp] at hh
    · rintro _ n ⟨⟩
      exact absurd rfl hj
    · simp [hp]

/-- The end of a handler's run. -/
theorem run_slot (h : MachineInv b c0 s) {n : Nat} {i : SlotIndex} {r : HandlerRun}
    (hp : s.log.phase = .counted n i r.handler) (j : SlotIndex) :
    SlotOk b s.error (.ran n i r :: s.log) j
      ((s.setMetrics i fun m => { m with handledCount := r.handledCount }).slots j) := by
  have hh : s.log.phase.held = some (n, i) := by simp [hp]
  have hslot : SlotOk b s.error s.log j
      ((s.setMetrics i fun m => { m with handledCount := r.handledCount }).slots j) := by
    refine forall_slotOk_setSlot h.slot ?_ j
    exact (h.slot i).fields rfl (fun _ => rfl) fun hd => absurd hd (h.not_done_of_held hh)
  refine hslot.later rfl (fun _ _ _ _ => List.mem_cons_of_mem _) Iff.rfl ?_ ?_ ?_ (by simp [hp])
  · intro hd
    have hne : n ≠ s.log.latest j := by
      intro he
      have hji := h.log.held_slot hh he.symm
      subst hji
      have : (s.slots j).state = .done := by simpa [Machine.setMetrics] using hd
      exact h.not_done_of_held hh this
    simp [hne]
  · intro _ he
    simpa [hp] using he
  · intro _ m he
    simpa [hp] using he

/-- The cmpxchg that completes a request. -/
theorem complete_slot (h : MachineInv b c0 s) {n : Nat} {i : SlotIndex} {r : HandlerRun}
    (hp : s.log.phase = .ran n i r) (hi : (s.slots i).state = .running)
    (hm : Matches b r (s.slots i)) (j : SlotIndex) :
    SlotOk b s.error (.completed n i :: s.log) j ((s.setState i .done).slots j) := by
  have hh : s.log.phase.held = some (n, i) := by simp [hp]
  have hlat : s.log.latest i = n := by
    have he := ((h.slot i).running hi).2
    rw [hh] at he
    exact (Prod.mk.inj (Option.some.inj he)).1.symm
  by_cases hj : j = i
  · subst hj
    have hdone : s.log.latest j ∈ s.log.claims ∧
        ∃ run, s.log.runsOf (s.log.latest j) = [run] ∧ Matches b run (s.slots j) := by
      rw [hlat]
      exact ⟨(h.log.held n j hh).1, r, h.log.ran n j r hp, hm⟩
    obtain ⟨hc, run, hr, hma⟩ := hdone
    constructor <;> simp [Machine.setState]
    exact fun _ => ⟨hc, run, hr, hma.of_eq rfl rfl rfl⟩
  · rw [show (s.setState i .done).slots j = s.slots j by simp [Machine.setState, hj]]
    refine (h.slot j).later rfl (fun _ _ _ _ => List.mem_cons_of_mem _) Iff.rfl (fun _ => rfl) ?_
      (by simp) (by simp [hp])
    intro _ he
    simp only [hh, Option.some.injEq, Prod.mk.injEq] at he
    exact absurd he.2.symm hj

/-- The AP keeps every slot's story straight. -/
theorem apAct_slot (h : MachineInv b c0 s) (ha : ApAct b c0 s s') (j : SlotIndex) :
    SlotOk b s'.error s'.log j (s'.slots j) := by
  cases ha with
  | own hs => rw [hs.error, hs.log, hs.slots]; exact h.slot j
  | dropCurrent | goOnline | backOnline | faultVector => exact h.slot j
  | claim i hp hi => exact h.claim_slot hp hi j
  | run hp => exact h.run_slot hp j
  | complete hp hi hm => exact h.complete_slot hp hi hm j
  | reply f hp | metrics v hp =>
    refine forall_slotOk_setSlot h.slot ?_ j
    exact (h.slot _).fields rfl (fun _ => rfl) fun hd => absurd hd (h.not_done_of_held hp)
  | take hp | readService hp | lookUp hp | increment v hp | rereadService hp | miss hp | halt hp =>
    exact (h.slot j).apNote (.cons rfl _) rfl (fun _ => rfl) (by simp [hp]) (by simp [hp])
  | count v hp =>
    rcases hp with ⟨svc, ifc, hp, -⟩ | ⟨hp, -⟩ <;>
    exact (h.slot j).apNote (.cons rfl _) rfl (fun _ => rfl) (by simp [hp]) (by simp [hp])
  | @reject n i r hp hi =>
    refine (h.slot j).later rfl (fun _ _ _ _ => List.mem_cons_of_mem _) Iff.rfl (fun _ => rfl) ?_
      (by simp) (by simp [hp])
    intro hr he
    simp only [hp, ApPhase.held, Option.some.injEq, Prod.mk.injEq] at he
    exact absurd (he.2 ▸ hr) hi
  | @badOp n i hp =>
    exact forall_slotOk_setSlot h.slot (.stop (Or.inl rfl) (Or.inl (by simp [hp]))) j
  | fault v =>
    exact (h.slot j).apNote (.cons rfl _) rfl (fun _ => rfl) rfl (fun _ => rfl)
  | faultReply f hp hc ha hs =>
    refine forall_slotOk_setSlot h.slot ?_ j
    exact (h.slot _).fields rfl (fun _ => rfl) fun hd => absurd hd hs.1
  | faultSlot hp =>
    exact forall_slotOk_setSlot h.slot (.stop (Or.inr (Or.inl rfl)) (Or.inl (by simp [hp]))) j
  | post hp =>
    exact (h.slot j).apNote (.cons rfl _) rfl (fun _ => rfl) (by simp) (by simp)

/-- **The AP keeps the invariant.** -/
theorem apAct (h : MachineInv b c0 s) (ha : ApAct b c0 s s') : MachineInv b c0 s' where
  log := h.log.apAct ha h.pending
  slot := h.apAct_slot ha
  faulted := by
    cases ha with
    | own hs => rw [hs.apState, hs.log, hs.faultVector]; exact h.faulted
    | backOnline => simp
    | halt => exact fun hf => by cases hf
    | faultVector hp ha => exact fun hf => absurd hf ha
    | post hp hv => exact fun _ => ⟨_, _, by simpa using hp, hv⟩
    | dropCurrent | goOnline | reply | metrics | faultReply | faultSlot | badOp => exact h.faulted
    | claim i hp | run hp | complete hp | take hp | readService hp | lookUp hp | increment v hp | reject hp
    | rereadService hp | miss hp =>
      intro hf
      obtain ⟨v, hd, he, -⟩ := h.faulted hf
      simp [hp] at he
    | count v hp =>
      intro hf
      obtain ⟨v, hd, he, -⟩ := h.faulted hf
      rcases hp with ⟨svc, ifc, hp, -⟩ | ⟨hp, -⟩ <;> simp [hp] at he
    | fault v hp =>
      intro hf
      obtain ⟨v, hd, he, -⟩ := h.faulted hf
      exact absurd he (hp v hd)
  halted := by
    cases ha with
    | own hs => rw [hs.apState, hs.log]; exact h.halted
    | backOnline => simp
    | halt => simp
    | faultVector | dropCurrent | goOnline | reply | metrics | faultReply | faultSlot | badOp =>
      exact h.halted
    | post => exact fun hf => by cases hf
    | fault => simp
    | claim i hp | run hp | complete hp | take hp | readService hp | lookUp hp | increment v hp | reject hp
    | rereadService hp | miss hp =>
      intro hf
      have := h.halted hf
      simp [hp] at this
    | count v hp =>
      intro hf
      have := h.halted hf
      rcases hp with ⟨svc, ifc, hp, -⟩ | ⟨hp, -⟩ <;> simp [hp] at this
  online := by
    cases ha with
    | own hs => rw [hs.error, hs.online]; exact h.online
    | goOnline => simp
    | _ => exact h.online
  counter := by
    cases ha with
    | own hs => rw [hs.log, hs.counter]; exact h.counter
    | increment v hp hv =>
      obtain ⟨m, hm, rfl⟩ := hv
      exact ⟨m + 1, by simpa using hm, by simp [Machine.note, UInt32.add_assoc]⟩
    | _ => exact h.counter

/-- The store that ends a publication. -/
theorem publish_slot (h : MachineInv b c0 s) {i : SlotIndex} {plan : ApRequestPlan}
    {st : ApRequestStatus}
    (hr : (s.slots i).request = preparedHeader (b.apContextIndex + 1) plan)
    (hs : st = .pending ∧ s.error = .ok ∨
      (st = .skipped ∨ st = .fault) ∧ (s.log.phase.down = true ∨ s.error ≠ .ok))
    (j : SlotIndex) :
    SlotOk b s.error (publishState i plan st s).log j ((publishState i plan st s).slots j) := by
  have hnew : s.log.publications + 1 ∉ s.log.claims := by
    intro hm
    obtain ⟨i', p, hp⟩ := h.log.claimed _ hm
    have := (h.log.stamp _ _ _ _ hp).2
    omega
  by_cases hj : j = i
  · subst hj
    rcases hs with ⟨rfl, he⟩ | ⟨hst, hd⟩
    · refine ⟨?_, ?_, ?_, ?_, ?_⟩
      · intro _
        exact ⟨he, by simpa [publishState] using hnew, plan, by simp [publishState]⟩
      · simp [publishState]
      · simp [publishState]
      · intro _
        exact ⟨plan, by simp [publishState], by simpa [publishState] using hr⟩
      · simp [publishState]
    · refine .stop ?_ hd
      rcases hst with rfl | rfl <;> simp [publishState]
  · rw [show (publishState i plan st s).slots j = s.slots j by simp [publishState, hj]]
    refine (h.slot j).bspNote (.cons rfl _) ?_ fun _ _ _ _ => List.mem_cons_of_mem _
    exact if_neg (Ne.symm hj)

/-- The BSP keeps every slot's story straight. -/
theorem bspAct_slot (hk : k.strong) (h : MachineInv b c0 s) (ha : BspAct b k c0 s s')
    (j : SlotIndex) : SlotOk b s'.error s'.log j (s'.slots j) := by
  cases ha with
  | own hs => rw [hs.error, hs.log, hs.slots]; exact h.slot j
  | mark e he =>
    exact (h.slot j).bspNote (.cons (Event.not_byAp_of_isMark he) _)
      (by cases e <;> first | rfl | cases he) fun _ _ _ _ => List.mem_cons_of_mem _
  | began | overdue | restoreHandled | restoreCounter =>
    exact (h.slot j).bspNote (.cons rfl _) rfl fun _ _ _ _ => List.mem_cons_of_mem _
  | reset i => exact forall_slotOk_setSlot h.slot (.vacant (Or.inl rfl)) j
  | @prepare i w hw hi =>
    refine forall_slotOk_setSlot h.slot ?_ j
    have hst := SlotStore.apply_state_of_isField hw (s.slots i)
    refine (h.slot i).fields hst ?_ ?_
    · rw [hst]
      rcases hi with hi | hi <;> simp [hi]
    · intro hd
      rcases hi with hi | hi <;> simp [hi] at hd
  | publish hi hr hs =>
    refine h.publish_slot hr ?_ j
    -- a pending request, or one that the BSP answers itself, for an AP that is down
    rcases hs hk with ⟨hst, he⟩ | ⟨hst, hd⟩ | ⟨hst, hf, -⟩
    · exact Or.inl ⟨hst, he⟩
    · exact Or.inr ⟨Or.inl hst, hd⟩
    · obtain ⟨v, hh, hp, -⟩ := h.faulted hf
      exact Or.inr ⟨Or.inr hst, Or.inl (by simp [hp])⟩
  | waitLoops i v =>
    refine forall_slotOk_setSlot h.slot ?_ j
    exact (h.slot i).fields rfl (fun _ => rfl) fun _ _ hm => hm.of_eq rfl rfl rfl
  | stopReply i v hs =>
    refine forall_slotOk_setSlot h.slot ?_ j
    exact (h.slot i).fields rfl (fun _ => rfl) fun hd => absurd hd (hs hk).2.2
  | stopFault i hs =>
    obtain ⟨v, hh, hp, -⟩ := h.faulted (hs hk).1
    exact forall_slotOk_setSlot h.slot (.stop (Or.inr (Or.inl rfl)) (Or.inl (by simp [hp]))) j
  | stopSkip i hs =>
    exact forall_slotOk_setSlot h.slot (.stop (Or.inr (Or.inr rfl)) (hs hk).1) j
  | timeout i => exact forall_slotOk_setSlot h.slot (.vacant (Or.inr rfl)) j
  | finish i v =>
    have hslot : ∀ j, SlotOk b s.error s.log j
        ((s.setMetrics i fun m => { m with waitLoops := v }).slots j) :=
      forall_slotOk_setSlot h.slot
        ((h.slot i).fields rfl (fun _ => rfl) fun _ _ hm => hm.of_eq rfl rfl rfl)
    exact (hslot j).bspNote (.cons rfl _) rfl fun _ _ _ _ => List.mem_cons_of_mem _

/-- **The BSP keeps the invariant.** -/
theorem bspAct (hk : k.strong) (h : MachineInv b c0 s) (ha : BspAct b k c0 s s') :
    MachineInv b c0 s' where
  log := h.log.bspAct ha
  slot := h.bspAct_slot hk ha
  faulted := by
    cases ha with
    | own hs => rw [hs.apState, hs.log, hs.faultVector]; exact h.faulted
    | mark e he =>
      rw [Machine.note_log, (Log.SameAp.cons (Event.not_byAp_of_isMark he) s.log).phase]
      exact h.faulted
    | _ => exact h.faulted
  halted := by
    cases ha with
    | own hs => rw [hs.apState, hs.log]; exact h.halted
    | mark e he =>
      rw [Machine.note_log, (Log.SameAp.cons (Event.not_byAp_of_isMark he) s.log).phase]
      exact h.halted
    | _ => exact h.halted
  online := by
    cases ha with
    | own hs => rw [hs.error, hs.online]; exact h.online
    | _ => exact h.online
  counter := by
    cases ha with
    | own hs => rw [hs.log, hs.counter]; exact h.counter
    | mark e he =>
      have := (Log.SameAp.cons (Event.not_byAp_of_isMark he) s.log).increments
      simpa only [CounterOk, Machine.note_log, Machine.note_counter, this] using h.counter
    | restoreCounter v _ hv => exact hv hk
    | _ => exact h.counter

end MachineInv

end VibeKernel

import VibeKernel.Ap.FinishOutline

/-!
# A stream stays inside the protocol

`run_ap_request_stream` is walked once, against what it can see of the AP, with the books of `Tally`
as the assertion of its loop.
-/

namespace VibeKernel

open Conc

section Walk

variable {b : Build} {k : Know} {c0 : UInt32} {E : Env Machine}
variable {P F : Machine → Prop} {i : SlotIndex} {plan : List ApRequestPlan} {l : StreamLocals}

/-- The stream has not timed anything out, and stopped only for a reason. -/
structure Running (k : Know) (l : StreamLocals) (s : Machine) : Prop where
  noTimeout : ∀ i, l.active i = true → (s.slots i).state ≠ .timeout
  stopped : k.strong → l.stopped = true → Down s

/-- What holds whenever the loop looks at a slot. -/
structure InLoop (b : Build) (k : Know) (plan : List ApRequestPlan) (l : StreamLocals) (s : Machine) :
    Prop where
  books : Books b k plan l s
  running : Running k l s

theorem Running.coarse : Coarse k (Running k l) where
  seen _ _ hs h := ⟨fun i hi ht => h.noTimeout i hi (hs.timeout i ht),
    fun hk hst => (h.stopped hk hst).seen hk hs⟩
  mono s s' hj hp he h := ⟨fun i hi => by rw [hj]; exact h.noTimeout i hi,
    fun hk hst => by
      have hd := h.stopped hk hst
      unfold Down at hd ⊢
      rwa [hp, he]⟩

theorem InLoop.seen {s s' : Machine} (hs : ApSeen k s s') (h : InLoop b k plan l s) :
    InLoop b k plan l s' :=
  ⟨h.books.seen hs, Running.coarse.seen s s' hs h.running⟩

/-- Locals that differ in the loop count only. -/
theorem InLoop.waitLoops {s : Machine} (h : InLoop b k plan l s) (w : UInt32) :
    InLoop b k plan { l with waitLoops := w } s :=
  ⟨{ h.books with }, ⟨h.running.noTimeout, h.running.stopped⟩⟩

/-- Locals that differ in `stopped` only. -/
theorem InLoop.stop {s : Machine} (h : InLoop b k plan l s) {x : Bool}
    (hx : x = true → k.strong → Down s) :
    InLoop b k plan { l with stopped := l.stopped || x } s := by
  refine ⟨{ h.books with }, h.running.noTimeout, fun hk hst => ?_⟩
  simp only [Bool.or_eq_true] at hst
  exact hst.elim (h.running.stopped hk) fun h' => hx h' hk

/-- A change of the state of a slot that is out. -/
theorem InLoop.setActive {s : Machine} (h : InLoop b k plan l s) (hi : l.active i = true)
    {f : ApRequestSlot → ApRequestSlot} (hr : (f (s.slots i)).request = (s.slots i).request)
    (he : (f (s.slots i)).state ≠ .empty) (ht : (f (s.slots i)).state ≠ .timeout) :
    InLoop b k plan l (s.setSlot i f) := by
  refine ⟨h.books.setActive hi hr he, fun j hj => ?_, h.running.stopped⟩
  by_cases hji : j = i
  · subst hji
    simpa using ht
  · simpa [hji] using h.running.noTimeout j hj

/-! ## Stopping -/

/-- The slot was `RUNNING` when it was read, and the AP is down. -/
def WasRunning (k : Know) (i : SlotIndex) (s : Machine) : Prop :=
  k.strong → s.log.phase.down = true ∧ ((s.slots i).state = .running ∨
    (s.slots i).state = .fault ∨ (s.slots i).state = .badOp)

/-- The slot was `PENDING` when it was read, and the AP is down. -/
def WasPending (k : Know) (i : SlotIndex) (s : Machine) : Prop :=
  (k.strong → s.log.phase.down = true ∧
    ((s.slots i).state = .pending ∨ (s.slots i).state = .fault)) ∧
  (k.calm → (s.slots i).state = .pending)

theorem WasRunning.seen {s s' : Machine} (hs : ApSeen k s s') (h : WasRunning k i s) :
    WasRunning k i s' :=
  fun hk => ⟨hs.down hk (h hk).1, (hs.stuck hk (h hk).1 i).2 (h hk).2⟩

theorem WasPending.seen {s s' : Machine} (hs : ApSeen k s s') (h : WasPending k i s) :
    WasPending k i s' := by
  refine ⟨fun hk => ⟨hs.down hk (h.1 hk).1, ?_⟩, fun hk => ?_⟩
  · rcases (h.1 hk).2 with hp | hf
    · exact (hs.stuck hk (h.1 hk).1 i).1 hp
    · have hne := hs.nonempty i (by simp [hf])
      exact Or.inr ((hs.vacant i (Or.inr hf)).resolve_left hne)
  · exact hs.waits hk (h.1 (k.calm_strong hk)).1 i (h.2 hk)

/-- What the read of the state says, once the AP is known to have stopped. -/
def StopRead (k : Know) (i : SlotIndex) (st : ApRequestStatus) (s : Machine) : Prop :=
  (st = .running → WasRunning k i s) ∧ (st = .pending → WasPending k i s)

theorem StopRead.seen {st : ApRequestStatus} {s s' : Machine} (hs : ApSeen k s s')
    (h : StopRead k i st s) : StopRead k i st s' :=
  ⟨fun hst => (h.1 hst).seen hs, fun hst => (h.2 hst).seen hs⟩

theorem StopRead.of_states {st : ApRequestStatus} {s s' : Machine}
    (hst : (s'.slots i).state = (s.slots i).state) (hp : s'.log.phase = s.log.phase)
    (h : StopRead k i st s) : StopRead k i st s' := by
  unfold StopRead WasRunning WasPending at h ⊢
  rwa [hst, hp]

theorem stopRead_of_inv (hE : BspEnv b k c0 E) {s : Machine} (hs : E.inv s)
    (hd : k.strong → Down s) : StopRead k i (s.slots i).state s := by
  have hdown : k.strong → s.error = .ok → s.log.phase.down = true := fun hk he =>
    (hd hk).resolve_right (by simp [he])
  refine ⟨fun hst hk => ?_, fun hst => ⟨fun hk => ?_, fun _ => hst⟩⟩
  · have he := (((hE.inv s hs hk).slot i).running hst).1
    exact ⟨hdown hk he, Or.inl hst⟩
  · have he := (((hE.inv s hs hk).slot i).pending hst).1
    exact ⟨hdown hk he, Or.inl hst⟩

/-- The branch of `stop_ap_request_stream` that marks a running request `FAULT`. -/
theorem stopFault_triple (hE : BspEnv b k c0 E) (hi : l.active i = true) :
    Triple E (fun s => InLoop b k plan l s ∧ WasRunning k i s ∧ (k.strong → s.apState = .faulted))
      (do
        let v ← .load fun s => s.faultVector
        .store fun s => s.setReply i fun r => { r with faultCode := v.toUInt32 }
        .store fun s => s.setState i .fault) fun _ => InLoop b k plan l := by
  have hseen : ∀ s s', ApSeen k s s' → (InLoop b k plan l s ∧ WasRunning k i s ∧
      (k.strong → s.apState = .faulted)) → InLoop b k plan l s' ∧ WasRunning k i s' ∧
      (k.strong → s'.apState = .faulted) := fun s s' hs h =>
    ⟨h.1.seen hs, h.2.1.seen hs, fun hk => (hs.posted hk (h.2.2 hk)).1⟩
  -- the AP is down, so the slot that it left `RUNNING` does not become `DONE`
  have hnot : ∀ {s : Machine}, WasRunning k i s → k.strong → (s.slots i).state ≠ .done := by
    intro s hw hk hd
    have := (hw hk).2
    simp [hd] at this
  refine .bind (R := fun v s => InLoop b k plan l s ∧ WasRunning k i s ∧
    (k.strong → s.apState = .faulted ∧ v = s.faultVector)) ?_ fun v => ?_
  · exact .load (hE.stable hseen) hE.refl fun s _ hp =>
      ⟨hp.1, hp.2.1, fun hk => ⟨hp.2.2 hk, rfl⟩⟩
  refine .bind (R := fun _ s => InLoop b k plan l s ∧ WasRunning k i s ∧ (k.strong →
    s.apState = .faulted ∧ (s.slots i).reply.faultCode = s.faultVector.toUInt32)) ?_ fun _ => ?_
  · refine .store (hE.stable fun s s' hs h => ⟨h.1.seen hs, h.2.1.seen hs, fun hk => ?_⟩)
      fun s hs _ hp => ?_
    · obtain ⟨hf, hv, -⟩ := hs.posted hk (h.2.2 hk).1
      exact ⟨hf, (h.2.2 hk).2.trans hv.symm⟩
    · obtain ⟨hloop, hw, hf⟩ := hp
      refine ⟨hE.guar _ _ hs (.stopReply i _ fun hk => ⟨(hf hk).1, by rw [(hf hk).2], hnot hw hk⟩),
        hloop.setActive hi rfl ?_ ?_, fun hk => ?_, fun hk => ⟨(hf hk).1, by simp [(hf hk).2]⟩⟩
      · exact hloop.books.nonempty i hi
      · exact hloop.running.noTimeout i hi
      · simpa [WasRunning] using hw hk
  · refine .store (hE.stable fun s s' hs h => ⟨h.1.seen hs, h.2.1.seen hs, fun hk => ?_⟩)
      fun s hs _ hp => ?_
    · obtain ⟨hf, hv, hslots⟩ := hs.posted hk (h.2.2 hk).1
      exact ⟨hf, by rw [hslots, hv]; exact (h.2.2 hk).2⟩
    · obtain ⟨hloop, hw, hf⟩ := hp
      exact ⟨hE.guar _ _ hs (.stopFault i fun hk => ⟨(hf hk).1, hnot hw hk, (hw hk).2, (hf hk).2⟩),
        hloop.setActive hi rfl (by simp) (by simp)⟩

/-- The branch of `stop_ap_request_stream` that marks a pending request `SKIPPED`. -/
theorem stopSkip_triple (hE : BspEnv b k c0 E) (hi : l.active i = true) :
    Triple E (fun s => InLoop b k plan l s ∧ WasPending k i s)
      (.store fun s => s.setState i .skipped) fun _ => InLoop b k plan l := by
  refine .store (hE.stable fun s s' hs h => ⟨h.1.seen hs, h.2.seen hs⟩) fun s hs _ hp => ?_
  obtain ⟨hloop, hstrong, hcalm⟩ := hp
  refine ⟨hE.guar _ _ hs (.stopSkip i (fun hk => ?_) hcalm),
    hloop.setActive hi rfl (by simp) (by simp)⟩
  exact ⟨Or.inl (hstrong hk).1, (hstrong hk).2⟩

/-- `stop_ap_request_stream` on one slot. -/
theorem stopSlot_triple (hE : BspEnv b k c0 E) (hi : l.active i = true) (hl : l.stopped = true)
    (w : UInt32) :
    Triple E (InLoop b k plan l) (stopSlot w i) fun _ => InLoop b k plan l := by
  let Read (st : ApRequestStatus) (s : Machine) : Prop := InLoop b k plan l s ∧ StopRead k i st s
  have hread : ∀ st s s', ApSeen k s s' → Read st s → Read st s' := fun st s s' hs h =>
    ⟨h.1.seen hs, h.2.seen hs⟩
  refine .bind (R := Read) ?_ fun st => ?_
  · exact .load (hE.stable fun s s' hs h => h.seen hs) hE.refl
      fun s hs hp => ⟨hp, stopRead_of_inv hE hs fun hk => hp.running.stopped hk hl⟩
  refine .cond (fun _ => .ret fun s hp => hp.1) fun _ => ?_
  refine .bind (R := fun _ => Read st) ?_ fun _ => ?_
  · refine .store (hE.stable (hread st)) fun s hs _ hp => ?_
    obtain ⟨hloop, hst⟩ := hp
    refine ⟨hE.guar _ _ hs (.waitLoops i w), hloop.setActive hi rfl ?_ ?_, ?_⟩
    · exact hloop.books.nonempty i hi
    · exact hloop.running.noTimeout i hi
    · exact StopRead.of_states (s := s) (by simp) rfl hst
  refine .bind (R := fun ap s => Read st s ∧ (k.strong → ap = .faulted → s.apState = .faulted)) ?_
    fun ap => ?_
  · exact .load (hE.stable (hread st)) hE.refl fun s _ hp => ⟨hp, fun _ ha => ha⟩
  refine .cond (fun hap => ?_) fun _ => .cond (fun hst => ?_) fun _ => .ret fun s hp => hp.1.1
  · exact (stopFault_triple hE hi).pre fun s hp =>
      ⟨hp.1.1, hp.1.2.1 hap.2, fun hk => hp.2 hk hap.1⟩
  · exact (stopSkip_triple hE hi).pre fun s hp => ⟨hp.1.1, hp.1.2.2 hst⟩

/-- `stop_ap_request_stream`. -/
theorem stopApRequestStream_triple (hE : BspEnv b k c0 E) (hl : l.stopped = true) :
    Triple E (InLoop b k plan l) (stopApRequestStream l) fun _ => InLoop b k plan l :=
  .forEach_keep fun _ _ => .cond (fun hi => stopSlot_triple hE hi hl _) fun _ => .ret fun _ hp => hp

/-! ## Refilling -/

/-- The slots of `js` have not been used in this stream. -/
def Unused (k : Know) (js : List SlotIndex) (l : StreamLocals) (s : Machine) : Prop :=
  ∀ j ∈ js, l.active j = false ∧ (k.calm → s.log.latest j = 0)

theorem publishState_latest (j : SlotIndex) (p : ApRequestPlan) (st : ApRequestStatus)
    (s : Machine) : (publishState i p st s).log.latest j
      = if i = j then s.log.publications + 1 else s.log.latest j := rfl

/-- The loop's assertion while slot `i` is out of the books and being written. -/
def Publishing (b : Build) (k : Know) (plan : List ApRequestPlan) (l : StreamLocals)
    (i : SlotIndex) (js : List SlotIndex) (s : Machine) : Prop :=
  (Tally b k plan (some i) l.completedCount l s ∧ Running k l s) ∧ Unused k js l s

theorem Unused.seen {js : List SlotIndex} {s s' : Machine} (hs : ApSeen k s s')
    (h : Unused k js l s) : Unused k js l s' :=
  fun j hj => ⟨(h j hj).1, fun hk => by rw [hs.log.latest]; exact (h j hj).2 hk⟩

theorem Publishing.beside (hi : l.active i = false) {js : List SlotIndex} :
    Beside k i (Publishing b k plan l i js) := by
  refine ⟨⟨fun s s' hs h => ?_, fun s s' hs hh h => ?_⟩, fun s f h => ?_⟩
  · exact ⟨⟨h.1.1.seen hs, Running.coarse.seen s s' hs h.1.2⟩, h.2.seen hs⟩
  · refine ⟨⟨h.1.1.mono (by rw [hs.log]; exact .refl _) ?_ ?_ hh ?_ ?_,
      Running.coarse.mono s s' (fun j => by rw [hs.slots]) (by rw [hs.log]) hs.error h.1.2⟩,
      fun j hj => ⟨(h.2 j hj).1, by rw [hs.log]; exact (h.2 j hj).2⟩⟩
    all_goals rw [hs.slots]
    · exact fun _ _ => rfl
    · exact h.1.1.nonempty
    · exact h.1.1.settled
    · exact fun _ _ _ _ _ => rfl
  · refine ⟨⟨h.1.1.setBusy hi f, fun j hj => ?_, h.1.2.stopped⟩, h.2⟩
    have hji : j ≠ i := by
      rintro rfl
      simp [hi] at hj
    simpa [hji] using h.1.2.noTimeout j hj

/-- A publication begins. -/
theorem InLoop.begin {s : Machine} {js : List SlotIndex} (h : InLoop b k plan l s)
    (hready : Ready k i s) (hun : Unused k js l s) : Publishing b k plan l i js s := by
  refine ⟨⟨h.books.begin fun hk c hc hci => ?_, h.running⟩, hun⟩
  subst hci
  by_cases hn : c.n = s.log.latest c.i
  · have h0 : s.log.latest c.i ≠ 0 := by
      have := (Tally.numbered_le (h.books.recorded c hc)).1
      omega
    rw [← h.books.kept hk c hc hn (by simp)]
    exact (hready.2 hk h0).1
  · exact h.books.replaced hk c hc (Or.inl hn)

/-- `publish_ap_stream_slot`. -/
theorem publishNext_triple (hE : BspEnv b k c0 E) (hi : l.active i = false) (js : List SlotIndex)
    (hjs : i ∉ js) :
    Triple E (fun s => (InLoop b k plan l s ∧ Ready k i s) ∧ Unused k js l s)
      (publishNext b plan l i) fun l' s => InLoop b k plan l' s ∧ Unused k js l' s := by
  unfold publishNext
  split
  case h_1 => exact .ret fun s hp => ⟨hp.1.1, hp.2⟩
  case h_2 p hp =>
    have hbeside : Beside k i (Publishing b k plan l i js) := Publishing.beside hi
    refine .bind (R := fun _ s => InLoop b k plan (Tally.afterPublish l i) s ∧
      Unused k js (Tally.afterPublish l i) s) ?_ fun _ => .ret fun s hp => hp
    refine (publishApInboxRequest_triple hE hbeside fun s st h hprep hst => ?_).pre fun s hs => ?_
    · have hne : st ≠ .empty ∧ st ≠ .timeout := by
        rcases hst with rfl | rfl | rfl <;> simp
      refine ⟨⟨h.1.1.publish hi hp hprep.2 hne.1, fun j hj => ?_, h.1.2.stopped⟩, fun j hj => ?_⟩
      · by_cases hji : j = i
        · subst hji
          simpa [publishState] using hne.2
        · have hj' : l.active j = true := by simpa [hji] using hj
          simpa [publishState, hji] using h.1.2.noTimeout j hj'
      · have hji : j ≠ i := fun he => hjs (he ▸ hj)
        refine ⟨by simpa [hji] using (h.2 j hj).1, fun hk => ?_⟩
        rw [publishState_latest, if_neg (Ne.symm hji)]
        exact (h.2 j hj).2 hk
    · exact ⟨hs.1.1.begin hs.1.2 hs.2, hs.1.2⟩

/-- The refill of a slot that was just taken back. -/
theorem refillSlot_triple (hE : BspEnv b k c0 E) (hi : l.active i = false) (done : Bool) :
    Triple E (fun s => InLoop b k plan l s ∧ (done = true → k.calm → (s.slots i).state = .done))
      (refillSlot b plan l i done) fun l' => InLoop b k plan l' := by
  refine .cond (fun hc => ?_) fun _ => .ret fun s hp => hp.1
  have hseen : ∀ s s', ApSeen k s s' → (InLoop b k plan l s ∧
      (k.calm → (s.slots i).state = .done)) → InLoop b k plan l s' ∧
      (k.calm → (s'.slots i).state = .done) := by
    refine fun s s' hs h => ⟨h.1.seen hs, fun hk => ?_⟩
    have hd := h.2 hk
    rw [hs.keep hk i (by simp [hd]) (by simp [hd])]
    exact hd
  refine .bind ((apRequestStreamShouldStop_triple hE hseen).pre fun s hp =>
    ⟨hp.1, hp.2 hc.1⟩) fun stop => .cond (fun hst => .ret fun s hp => ?_) fun _ => ?_
  · have := hp.1.1.stop (x := true) fun _ hk => Or.inl (hp.2 hst hk)
    simpa using this
  · refine (publishNext_triple hE hi [] (by simp)).conseq (fun s hp => ?_) fun l' s hp => hp.1
    refine ⟨⟨hp.1.1, fun hk => ?_, fun hk _ => ⟨hp.1.2 hk, hp.1.1.books.not_unrecorded hk hi⟩⟩,
      by simp [Unused]⟩
    exact hp.1.1.books.settled hk i hi (by simp)

/-- What follows `finish_ap_stream_slot` in a pass. -/
theorem afterFinish_triple (hE : BspEnv b k c0 E) (hi : l.active i = true)
    (r : StreamLocals × Bool) :
    Triple E (Finished b k plan l i (Running k l) r) (afterFinish b plan r.1 i r.2)
      fun l' => InLoop b k plan l' := by
  rintro s ⟨hrun, ⟨rfl, hbooks, -⟩ | ⟨st, v, hfin, rfl, ⟨s₀, hrun₀, hst₀⟩, hbooks,
    hstop, hstate⟩⟩
  · have hret : afterFinish b plan l i false = pure { l with stopped := l.stopped || false } := by
      simp [afterFinish, refillSlot, hi]
    rw [hret]
    exact InLoop.stop ⟨hbooks, hrun⟩ (by simp)
  · have hne : st ≠ .timeout := hst₀ ▸ hrun₀.noTimeout i hi
    have hact : ∀ j, (Tally.afterTake l i).active j = true → l.active j = true := by
      intro j hj
      by_cases hji : j = i
      · subst hji
        exact hi
      · simpa [hji] using hj
    have hloop : InLoop b k plan { Tally.afterTake l i with counterBase := v } s :=
      ⟨hbooks, fun j hj => hrun.noTimeout j (hact j hj), hrun.stopped⟩
    refine refillSlot_triple hE (by simp) _ s ⟨hloop.stop fun hx hk => ?_, fun hd hk => ?_⟩
    · have hnd : st ≠ .done := by
        rintro rfl
        simp at hx
      exact hstop hk hfin hnd hne
    · rw [hstate hk]
      simpa using hd

/-! ## The order of two finished slots -/

/-- A loop of reads keeps what the AP cannot falsify. -/
theorem apStreamFinishedSlotOrder_keep (hE : BspEnv b k c0 E)
    (hP : ∀ s s', ApSeen k s s' → P s → P s') (j : SlotIndex) :
    Triple E P (apStreamFinishedSlotOrder j) fun _ => P := by
  refine .bind (bsp_read hE hP _) fun st => ?_
  refine .bind (.cond (fun _ => bsp_read hE hP _) fun _ => .ret fun _ hp => hp) fun handled => ?_
  exact .cond (fun _ => bsp_read hE hP _) fun _ => .ret fun _ hp => hp

theorem apStreamHasEarlierFinishedSlot_keep (hE : BspEnv b k c0 E)
    (hP : ∀ s s', ApSeen k s s' → P s → P s') (active : SlotIndex → Bool) :
    Triple E P (apStreamHasEarlierFinishedSlot active i) fun _ => P := by
  refine .bind (apStreamFinishedSlotOrder_keep hE hP i) fun o => ?_
  refine Triple.someOf (I := fun _ => P) (fun _ hp => hp) (fun j js => ?_) _
  refine .cond (fun _ => .ret fun s hp => by simpa using hp) fun _ => ?_
  refine .bind (bsp_read hE hP _) fun st => ?_
  refine .cond (fun _ => ?_) fun _ => .ret fun s hp => by simpa using hp
  refine .bind (apStreamFinishedSlotOrder_keep hE hP j) fun _ => .ret fun s hp => ?_
  split <;> exact hp

/-- `ap_stream_finished_slot_order` of a slot that stands still. -/
theorem apStreamFinishedSlotOrder_triple (hE : BspEnv b k c0 E) (hk : k.calm)
    (hP : ∀ s s', ApSeen k s s' → P s → P s') (j : SlotIndex) {slot : ApRequestSlot}
    (hfin : slot.state.finished = true) :
    Triple E (fun s => P s ∧ s.slots j = slot) (apStreamFinishedSlotOrder j) fun o s =>
      o = finishedSlotOrder j slot ∧ P s ∧ s.slots j = slot := by
  obtain ⟨-, hp, hr⟩ := ApRequestStatus.finished_iff.1 hfin
  have hseen : ∀ s s', ApSeen k s s' → (P s ∧ s.slots j = slot) → P s' ∧ s'.slots j = slot :=
    fun s s' hs h => ⟨hP s s' hs h.1, (hs.keep hk j (h.2 ▸ hp) (h.2 ▸ hr)).trans h.2⟩
  -- in calm a finished slot does not change, so all the reads are of one slot
  have hread : ∀ {α : Type} (f : ApRequestSlot → α), Triple E (fun s => P s ∧ s.slots j = slot)
      (.load fun s => f (s.slots j)) fun a s => a = f slot ∧ P s ∧ s.slots j = slot := fun f =>
    .load (hE.stable hseen) hE.refl fun s _ hp => ⟨by rw [hp.2], hp⟩
  refine .bind (hread (·.state)) fun st => Triple.lift fun hst => ?_
  refine .bind (R := fun handled s => (handled = if slot.state = .done then
    slot.metrics.handledCount else 0) ∧ P s ∧ s.slots j = slot) ?_ fun handled =>
      Triple.lift fun hh => .cond (fun h0 => ?_) fun h0 => .ret fun s hp => ⟨?_, hp⟩
  · refine .cond (fun hd => ?_) fun hd => .ret fun s hp => ⟨?_, hp⟩
    · exact (hread (·.metrics.handledCount)).post fun a s hp =>
        ⟨by rw [if_pos (hst ▸ hd)]; exact hp.1, hp.2⟩
    · rw [if_neg (hst ▸ hd)]
  · refine (hread (·.metrics.handledCount)).post fun a s hp => ⟨?_, hp.2⟩
    by_cases hd : slot.state = .done
    · rw [hh, if_pos hd] at h0
      rw [hp.1, finishedSlotOrder, if_pos ⟨hd, h0⟩]
    · rw [hh, if_neg hd] at h0
      exact absurd rfl h0
  · rw [finishedSlotOrder, if_neg]
    rintro ⟨hd, h0'⟩
    rw [hh, if_pos hd] at h0
    exact h0 h0'

/-- Slots `js` have not been compared with slot `i` yet. Of the others, none was done before it. -/
def Compared (i : SlotIndex) (js : List SlotIndex) (s : Machine) : Prop :=
  (s.slots i).state = .done → ∀ j ∉ js, j ≠ i → s.log.Unrecorded j → (s.slots j).state = .done →
    s.log.runIndex (s.log.latest i) < s.log.runIndex (s.log.latest j)

theorem Compared.seen (ho : k.ordered) {js : List SlotIndex} {s s' : Machine} (hs : ApSeen k s s')
    (hfin : (s.slots i).state.finished = true) (h : Compared i js s) : Compared i js s' := by
  intro hd j hj hji hu hd'
  obtain ⟨-, hp, hr⟩ := ApRequestStatus.finished_iff.1 hfin
  have hi : (s.slots i).state = .done := by
    rw [← hs.keep (k.ordered_calm ho) i hp hr]
    exact hd
  rw [hs.log.latest, hs.log.latest, hs.runIndex ho i hi]
  by_cases hj' : (s.slots j).state = .done
  · rw [hs.runIndex ho j hj']
    exact h hi j hj hji ((hs.log.unrecorded j).1 hu) hj'
  · exact hs.later ho j hd' hj' i (Ne.symm hji) hi

/-- **`ap_stream_has_earlier_finished_slot` misses no slot that was done earlier.** -/
theorem apStreamHasEarlierFinishedSlot_triple (hE : BspEnv b k c0 E) (ho : k.ordered)
    {slot : ApRequestSlot} (hfin : slot.state.finished = true) (hi : l.active i = true) :
    Triple E (fun s => Books b k plan l s ∧ s.slots i = slot)
      (apStreamHasEarlierFinishedSlot l.active i) fun earlier s =>
        earlier = false → ClearToRecord i s := by
  have hk : k.calm := k.ordered_calm ho
  obtain ⟨-, hp, hr⟩ := ApRequestStatus.finished_iff.1 hfin
  have hbooks : ∀ s s', ApSeen k s s' → Books b k plan l s → Books b k plan l s' :=
    fun s s' hs h => h.seen hs
  -- what holds when the slots of `js` are still to be compared
  let I (js : List SlotIndex) (s : Machine) : Prop :=
    (Books b k plan l s ∧ s.slots i = slot) ∧ Compared i js s
  have hI : ∀ js s s', ApSeen k s s' → I js s → I js s' := fun js s s' hs h =>
    ⟨⟨h.1.1.seen hs, (hs.keep hk i (h.1.2 ▸ hp) (h.1.2 ▸ hr)).trans h.1.2⟩,
      h.2.seen ho hs (h.1.2 ▸ hfin)⟩
  -- slot `j` needs no comparison, or survived it
  have hdrop : ∀ {j js s}, I (j :: js) s → (j ≠ i → (s.slots i).state = .done →
      s.log.Unrecorded j → (s.slots j).state = .done →
      s.log.runIndex (s.log.latest i) < s.log.runIndex (s.log.latest j)) → I js s := by
    rintro j js s ⟨hb, hc⟩ hj
    refine ⟨hb, fun hd j' hj' hji hu hd' => ?_⟩
    by_cases he : j' = j
    · subst he
      exact hj hji hd hu hd'
    · exact hc hd j' (by simp [he, hj']) hji hu hd'
  refine .bind (apStreamFinishedSlotOrder_triple hE hk hbooks i hfin) fun o =>
    Triple.lift fun hoi => ?_
  refine (Triple.someOf (I := I) (R := fun earlier s => earlier = false → ClearToRecord i s)
    (fun s h _ hd j hji hu hd' => h.2 hd j (by simp) hji hu hd') (fun j js => ?_) _).pre
    fun s h => ⟨h, fun hd j hj => absurd (mem_allSlots j) hj⟩
  refine .cond (fun hc => .ret fun s h => ?_) fun hc => ?_
  · refine hdrop h fun hji _ hu _ => ?_
    have hj : l.active j = false := hc.resolve_left hji
    exact absurd hu (h.1.1.not_unrecorded hk hj)
  · simp only [not_or, Bool.not_eq_false] at hc
    obtain ⟨hji, hj⟩ := hc
    -- the two orders, read while both slots stand still, are right
    let Right (slot' : ApRequestSlot) (s : Machine) : Prop := I (j :: js) s ∧
      (¬ finishedSlotOrder j slot' < finishedSlotOrder i slot → slot.state = .done →
        slot'.state = .done → s.log.Unrecorded j →
        s.log.runIndex (s.log.latest i) < s.log.runIndex (s.log.latest j))
    refine .bind (R := fun st s => (st.finished = false → I js s) ∧ (st.finished = true →
      ∃ slot', slot'.state.finished = true ∧ Right slot' s ∧ s.slots j = slot')) ?_ fun st =>
        .cond (fun hst => ?_) fun hst => .ret fun s h => ?_
    · refine .load (hE.stable (hI _)) hE.refl fun s hs h => ⟨fun hf => ?_, fun hf => ?_⟩
      · refine hdrop h fun _ _ _ hd => ?_
        rw [hd] at hf
        exact absurd hf (by decide)
      · refine ⟨s.slots j, hf, ⟨h, fun hlt hd hd' hu => ?_⟩, rfl⟩
        have hui := h.1.1.unrecorded i hi
        exact hE.faithful s hs ho i j (Ne.symm hji) hui hu (h.1.2 ▸ hd) hd' (h.1.2 ▸ hlt)
    · refine Triple.pre (H := fun s => ∃ slot', slot'.state.finished = true ∧ Right slot' s ∧
        s.slots j = slot') (Triple.exists fun slot' => Triple.lift fun hfin' => ?_)
        fun s h => h.2 hst
      obtain ⟨-, hp', hr'⟩ := ApRequestStatus.finished_iff.1 hfin'
      have hright : ∀ s s', ApSeen k s s' → (Right slot' s ∧ s.slots j = slot') →
          Right slot' s' ∧ s'.slots j = slot' := by
        refine fun s s' hs h => ⟨⟨hI _ s s' hs h.1.1, fun hlt hd hd' hu => ?_⟩,
          (hs.keep hk j (h.2 ▸ hp') (h.2 ▸ hr')).trans h.2⟩
        rw [hs.log.latest, hs.log.latest, hs.runIndex ho i (h.1.1.1.2 ▸ hd),
          hs.runIndex ho j (h.2 ▸ hd')]
        exact h.1.2 hlt hd hd' ((hs.log.unrecorded j).1 hu)
      refine .bind ((apStreamFinishedSlotOrder_triple hE hk hright j hfin').pre
        fun s h => ⟨h, h.2⟩) fun o' => Triple.lift fun ho' => .ret fun s h => ?_
      by_cases hlt : o' < o
      · simp [hlt]
      · simp only [hlt, decide_false, Bool.false_eq_true, if_false]
        refine hdrop h.1.1.1 fun _ hd hu hd' => ?_
        exact h.1.1.2 (by rw [← ho', ← hoi]; exact hlt) (h.1.1.1.1.2 ▸ hd) (h.2 ▸ hd') hu
    · simpa using h.1 (by simpa using hst)

/-! ## A visit -/

/-- The first read of the state of slot `i` gave `st`. -/
structure Visited (b : Build) (k : Know) (plan : List ApRequestPlan) (l : StreamLocals)
    (i : SlotIndex) (st : ApRequestStatus) (s : Machine) : Prop where
  loop : InLoop b k plan l s
  finished : st.finished = true → (s.slots i).state.finished = true
  clear : st.finished = false → Clear k i s
  glanced : s.log.glanced = some i

theorem InLoop.mark {s : Machine} (h : InLoop b k plan l s) {e : Event}
    (he : s.log.SameStream (e :: s.log)) (hp : Log.phase (e :: s.log) = s.log.phase) :
    InLoop b k plan l (s.note e) :=
  ⟨h.books.mark he, Running.coarse.mono s _ (fun _ => rfl) hp rfl h.running⟩

/-- The check for an earlier finished slot, if the slot was finished when it was read. -/
theorem deferred_triple (hE : BspEnv b k c0 E) (hi : l.active i = true) (st : ApRequestStatus) :
    Triple E (Visited b k plan l i st)
      (if st.finished then apStreamHasEarlierFinishedSlot l.active i else pure false)
      fun deferred s => InLoop b k plan l s ∧ (deferred = false → Clear k i s) := by
  refine .cond (fun hst => ?_) fun hst => .ret fun s h => ⟨h.loop, fun _ => h.clear (by simpa using hst)⟩
  have hseen : ∀ s s', ApSeen k s s' → (InLoop b k plan l s ∧ (s.slots i).state.finished = true) →
      InLoop b k plan l s' ∧ (s'.slots i).state.finished = true :=
    fun s s' hs h => ⟨h.1.seen hs, hs.finished i h.2⟩
  by_cases ho : k.ordered
  · refine ((Triple.and (K := fun earlier s => earlier = false → ClearToRecord i s)
      ((apStreamHasEarlierFinishedSlot_keep hE hseen _).pre
        fun s h => ⟨h.loop, h.finished hst⟩) ?_).post fun d s h =>
        ⟨h.1.1, fun hd _ => ⟨h.2 hd, Or.inl h.1.2⟩⟩)
    refine Triple.pre (H := fun s => ∃ slot : ApRequestSlot, slot.state.finished = true ∧
      Books b k plan l s ∧ s.slots i = slot) (Triple.exists fun slot => Triple.lift fun hfin => ?_)
        fun s h => ⟨_, h.finished hst, h.loop.books, rfl⟩
    exact apStreamHasEarlierFinishedSlot_triple hE ho hfin hi
  · exact (apStreamHasEarlierFinishedSlot_keep hE (fun s s' hs h => h.seen hs) _).conseq
      (fun s h => h.loop) fun _ s h => ⟨h, fun _ ho' => absurd ho' ho⟩

/-- The note that ends a visit. -/
theorem visitEnded_triple (hE : BspEnv b k c0 E) (hP : ∀ s s', ApSeen k s s' → P s → P s')
    (hm : ∀ s, P s → P (s.note .visitEnded)) :
    Triple E P (.store fun s => s.note .visitEnded) fun _ => P :=
  .store (hE.stable hP) fun s hs _ h => ⟨hE.guar _ _ hs (.mark _ rfl), hm s h⟩

/-- **A visit.** -/
theorem visitSlot_triple (hE : BspEnv b k c0 E) :
    Triple E (InLoop b k plan l) (visitSlot b plan l i) fun l' => InLoop b k plan l' := by
  refine .cond (fun _ => .ret fun s h => h) fun hi => ?_
  have hi : l.active i = true := by simpa using hi
  refine .bind (R := Visited b k plan l i) ?_ fun st => ?_
  · refine .swap (hE.stable fun _ _ => InLoop.seen) fun s hs _ h => ⟨hE.guar _ _ hs (.mark _ rfl), ?_⟩
    refine ⟨h.mark ⟨rfl, rfl, fun _ => rfl, rfl, rfl, rfl, rfl⟩ rfl, fun hf => hf, fun hf _ => ?_, rfl⟩
    refine ⟨fun hdone => ?_, Or.inr rfl⟩
    have hdone : (s.slots i).state = .done := hdone
    simp [hdone, ApRequestStatus.finished, ApRequestStatus.terminal] at hf
  refine .bind (deferred_triple hE hi st) fun deferred => .cond (fun _ => ?_) fun hd => ?_
  · refine .bind (R := fun _ => InLoop b k plan l) ?_ fun _ => .ret fun s h => h
    refine (visitEnded_triple (P := InLoop b k plan l) hE (fun s s' hs h => h.seen hs)
      fun s h => ?_).pre fun s h => h.1
    exact h.mark ⟨rfl, rfl, fun _ => rfl, rfl, rfl, rfl, rfl⟩ rfl
  · refine Triple.bind (R := Finished b k plan l i (Running k l)) ?_ fun r => ?_
    · refine (finishApStreamSlot_triple hE Running.coarse hi _).pre fun s h => ?_
      exact ⟨h.1.books, h.1.running, h.2 (by simpa using hd)⟩
    refine .bind (visitEnded_triple hE (fun s s' hs h => ?_) fun s h => ?_) fun _ =>
      afterFinish_triple hE hi r
    · exact h.seen Running.coarse hs
    · exact h.note Running.coarse ⟨rfl, rfl, fun _ => rfl, rfl, rfl, rfl, rfl⟩ rfl

/-! ## Between two pieces of code -/

/-- No slot is waiting for the AP. -/
def Settled (s : Machine) : Prop :=
  ∀ i, (s.slots i).state ≠ .pending ∧ (s.slots i).state ≠ .running

/-- A ping whose request is out, if `l.active`. -/
structure InPing (k : Know) (c0 : UInt32) (l : PingLocals) (s : Machine) : Prop where
  settled : k.strong → ∀ i, i ≠ apBroadcastPingSlotIndex ∨ l.active = false →
    (s.slots i).state ≠ .pending ∧ (s.slots i).state ≠ .running
  nonempty : l.active = true → (s.slots apBroadcastPingSlotIndex).state ≠ .empty
  counter : k.strong → l.isTarget = true → CounterOk c0 s.log l.targetCounterValue
  notCalm : ¬ k.calm

/-- A stream that has returned. -/
structure Returned (b : Build) (k : Know) (plan : List ApRequestPlan) (l : StreamLocals)
    (result : Bool) (s : Machine) : Prop where
  books : Books b k plan l s
  inactive : ∀ i, l.active i = false
  result : k.calm → result = true → ∀ c ∈ s.log.completions, c.slot.state = .done

/-- Where the BSP is between two pieces of its code. -/
def bspCut (b : Build) (k : Know) (c0 : UInt32) : BspPc → Machine → Prop
  | .next, s => k.strong → Settled s
  | .streamLoop plan l, s => InLoop b k plan l s
  | .streamReturned plan l result, s => Returned b k plan l result s
  | .pingLoop l, s => InPing k c0 l s

theorem Settled.seen {s s' : Machine} (hs : ApSeen k s s') (h : Settled s) : Settled s' :=
  fun i => ⟨fun hp => (h i).1 (hs.pending i hp),
    fun hr => (hs.running i hr).elim (h i).1 (h i).2⟩

theorem CounterOk.grow {l l' : Log} {v : UInt32} (hle : l.increments.length ≤ l'.increments.length)
    (h : CounterOk c0 l v) : CounterOk c0 l' v := by
  obtain ⟨m, hm, hv⟩ := h
  exact ⟨m, hm.trans hle, hv⟩

theorem InPing.seen {p : PingLocals} {s s' : Machine} (hs : ApSeen k s s') (h : InPing k c0 p s) :
    InPing k c0 p s' where
  settled hk i hi := by
    obtain ⟨hp, hr⟩ := h.settled hk i hi
    exact ⟨fun hp' => hp (hs.pending i hp'), fun hr' => (hs.running i hr').elim hp hr⟩
  nonempty ha := hs.nonempty _ (h.nonempty ha)
  counter hk ht := (h.counter hk ht).grow hs.increments
  notCalm := h.notCalm

theorem Returned.seen {result : Bool} {s s' : Machine} (hs : ApSeen k s s')
    (h : Returned b k plan l result s) : Returned b k plan l result s' :=
  ⟨h.books.seen hs, h.inactive, by rw [hs.log.completions]; exact h.result⟩

/-- The AP cannot falsify where the BSP is. -/
theorem bspCut_seen (pc : BspPc) {s s' : Machine} (hs : ApSeen k s s') (h : bspCut b k c0 pc s) :
    bspCut b k c0 pc s' := by
  cases pc with
  | next => exact fun hk => (h hk).seen hs
  | streamLoop plan l => exact InLoop.seen hs h
  | streamReturned plan l result => exact Returned.seen hs h
  | pingLoop l => exact InPing.seen hs h

/-! ## The end of a stream -/

/-- The two cmpxchgs leave the slot finished. -/
theorem timeOutSlot_triple (hE : BspEnv b k c0 E) (hk : ¬ k.calm) (hi : l.active i = true)
    (st : ApRequestStatus) :
    Triple E (fun s => Books b k plan l s ∧ (st.finished = true → (s.slots i).state.finished = true))
      (timeOutSlot b i st) fun _ s => Books b k plan l s ∧ (s.slots i).state.finished = true := by
  refine .cond (fun hst => .ret fun s h => ⟨h.1, h.2 hst⟩) fun hst => ?_
  have hdone : ∀ {s : Machine}, Books b k plan l s → (s.slots i).state = .pending ∨
      (s.slots i).state = .running → BspAct b k c0 s (s.setState i .timeout) ∧
      Books b k plan l (s.setState i .timeout) := fun h hs =>
    ⟨.timeout i hk hs, h.setActive hi rfl (by simp)⟩
  refine .bind (R := fun _ => Books b k plan l) ?_ fun _ => ?_
  · refine .store (hE.stable fun s s' hs h => ⟨h.1.seen hs, fun hf => absurd hf hst⟩)
      fun s hs _ h => ⟨hE.guar _ _ hs (.waitLoops i _), h.1.setActive hi rfl ?_⟩
    exact h.1.nonempty i hi
  refine .bind (R := fun ok s => Books b k plan l s ∧ (ok = true → (s.slots i).state.finished = true) ∧
    (ok = false → (s.slots i).state ≠ .pending)) ?_ fun ok =>
      .cond (fun hok => .ret fun s h => ⟨h.1, h.2.1 hok⟩) fun hok => ?_
  · refine .swap (hE.stable fun s s' hs h => h.seen hs) fun s hs _ h => ?_
    by_cases hp : (s.slots i).state = .pending
    · simp only [cmpxchgState, hp, if_true]
      obtain ⟨hact, hb⟩ := hdone h (Or.inl hp)
      exact ⟨hE.guar _ _ hs hact, hb, fun _ => by simp; rfl, by simp⟩
    · simp only [cmpxchgState, hp, if_false]
      exact ⟨hE.refl s hs, h, by simp, fun _ => hp⟩
  · refine .bind (R := fun _ s => Books b k plan l s ∧ (s.slots i).state.finished = true) ?_
      fun _ => .ret fun s h => h
    refine Triple.pre (H := fun s => Books b k plan l s ∧ (s.slots i).state ≠ .pending) ?_
      fun s h => ⟨h.1, h.2.2 (by simpa using hok)⟩
    refine .swap (hE.stable fun s s' hs h => ⟨h.1.seen hs, fun hp => h.2 (hs.pending i hp)⟩)
      fun s hs _ h => ?_
    -- if both `cmpxchg` miss, the AP has finished the request in between
    by_cases hr : (s.slots i).state = .running
    · simp only [cmpxchgState, hr, if_true]
      obtain ⟨hact, hb⟩ := hdone h.1 (Or.inr hr)
      exact ⟨hE.guar _ _ hs hact, hb, by simp; rfl⟩
    · simp only [cmpxchgState, hr, if_false]
      exact ⟨hE.refl s hs, h.1, ApRequestStatus.finished_iff.2 ⟨h.1.nonempty i hi, h.2, hr⟩⟩

/-- `finish_timed_out_ap_stream_slots` on one slot. -/
theorem finishTimedOutSlot_triple (hE : BspEnv b k c0 E) (js : List SlotIndex) :
    Triple E (fun s => Books b k plan l s ∧ ∀ j ∉ i :: js, l.active j = false)
      (finishTimedOutSlot b l i) fun l' s => Books b k plan l' s ∧ ∀ j ∉ js, l'.active j = false := by
  refine .cond (fun hi => .ret fun s h => ⟨h.1, fun j hj => ?_⟩) fun hi => ?_
  · by_cases hji : j = i
    · exact hji ▸ hi
    · exact h.2 j (by simp [hji, hj])
  have hi : l.active i = true := by simpa using hi
  refine .bind (R := fun st s => (¬ k.calm ∧ ∀ j ∉ i :: js, l.active j = false) ∧
    Books b k plan l s ∧ (st.finished = true → (s.slots i).state.finished = true)) ?_ fun st =>
      Triple.lift fun ⟨hk, hact⟩ => ?_
  · refine .swap (hE.stable fun s s' hs h => ⟨h.1.seen hs, h.2⟩) fun s hs hok h => ?_
    have hk : ¬ k.calm := fun hk => hE.overdue s i hs hk hok
    exact ⟨hE.guar _ _ hs (.overdue i hk), ⟨hk, h.2⟩,
      h.1.mark ⟨rfl, rfl, fun _ => rfl, rfl, rfl, rfl, rfl⟩, fun hf => hf⟩
  have hF : Coarse k fun s : Machine => (s.slots i).state.finished = true :=
    ⟨fun s s' hs h => hs.finished i h, fun s s' hj _ _ h => by rw [hj]; exact h⟩
  have hno : ∀ s : Machine, Clear k i s := fun s ho => absurd (k.ordered_calm ho) hk
  refine .bind (timeOutSlot_triple hE hk hi st) fun _ => ?_
  refine .bind ((finishApStreamSlot_triple hE hF hi b.apRequestTimeoutLoops).pre
    fun s h => ⟨h.1, h.2, hno s⟩) fun r => ?_
  -- the slot is finished now, so it is not found unfinished
  rintro s ⟨-, ⟨-, -, hn⟩ | ⟨st, v, -, rfl, -, hbooks, -, -⟩⟩
  · obtain ⟨s₀, hfin, hnot⟩ := hn hi
    rw [hfin] at hnot
    cases hnot
  · refine ⟨hbooks, fun j hj => ?_⟩
    by_cases hji : j = i
    · simp [hji]
    · simpa [hji] using hact j (by simp [hji, hj])

/-- `ap_request_all_done` at the end of a stream. -/
theorem apRequestAllDone_triple (hE : BspEnv b k c0 E) (hact : ∀ i, l.active i = false) :
    Triple E (Books b k plan l) apRequestAllDone fun result => Returned b k plan l result := by
  -- the slots not in `js` were seen `DONE`, and stay so
  let I (js : List SlotIndex) (s : Machine) : Prop :=
    Books b k plan l s ∧ (k.calm → ∀ j ∉ js, (s.slots j).state = .done)
  have hI : ∀ js s s', ApSeen k s s' → I js s → I js s' := by
    refine fun js s s' hs h => ⟨h.1.seen hs, fun hk j hj => ?_⟩
    have hd := h.2 hk j hj
    rw [hs.keep hk j (by simp [hd]) (by simp [hd])]
    exact hd
  have hnil : ∀ s, I [] s → Returned b k plan l true s := by
    refine fun s h => ⟨h.1, hact, fun hk _ c hc => ?_⟩
    by_cases hn : c.n = s.log.latest c.i
    · rw [← h.1.kept hk c hc hn (by simp)]
      exact h.2 hk c.i (by simp)
    · exact h.1.replaced hk c hc (Or.inl hn)
  refine (Triple.allOf hnil (fun j js => ?_) allSlots).pre
    fun s h => ⟨h, fun _ j hj => absurd (mem_allSlots j) hj⟩
  refine .load (hE.stable (hI _)) hE.refl fun s _ h => ?_
  by_cases hd : (s.slots j).state = .done
  · simp only [hd, beq_self_eq_true, if_true]
    refine ⟨h.1, fun hk j' hj' => ?_⟩
    by_cases hjj : j' = j
    · exact hjj ▸ hd
    · exact h.2 hk j' (by simp [hjj, hj'])
  · have hb : ((s.slots j).state == .done) = false := by simpa using hd
    simp only [hb, Bool.false_eq_true, if_false]
    exact ⟨h.1, hact, by simp⟩

/-- What `run_ap_request_stream` does after its loop. -/
theorem streamEpilogue_triple (hE : BspEnv b k c0 E) :
    Triple E (InLoop b k plan l) (streamEpilogue b plan l) (bspCut b k c0) := by
  refine .bind (R := fun l' s => (∀ i, l'.active i = false) ∧ Books b k plan l' s) ?_ fun l' =>
    Triple.lift fun hact => ?_
  · refine (Triple.foldOver (I := fun js l' s => Books b k plan l' s ∧
      ∀ j ∉ js, l'.active j = false) (fun j js l' => finishTimedOutSlot_triple hE js) _ l).conseq
        (fun s h => ⟨h.books, fun j hj => absurd (mem_allSlots j) hj⟩) fun l' s h => ⟨?_, h.1⟩
    exact fun j => h.2 j (by simp)
  · have hresult : Triple E (Books b k plan l')
        (if l'.completedCount = plan.length then apRequestAllDone else pure false)
        fun result => Returned b k plan l' result :=
      .cond (fun _ => apRequestAllDone_triple hE hact) fun _ => .ret fun s h => ⟨h, hact, by simp⟩
    exact Triple.bind hresult fun result => .ret fun s h => h

/-- What a pass ends with. -/
theorem streamDecide_triple (hE : BspEnv b k c0 E) :
    Triple E (InLoop b k plan l) (streamDecide b plan l) (bspCut b k c0) := by
  have hread : Triple E (InLoop b k plan l) (apRequestStreamHasFinishedSlot l)
      fun _ => InLoop b k plan l := by
    refine Triple.someOf (I := fun _ => InLoop b k plan l) (fun _ h => h) (fun j js => ?_) _
    refine .cond (fun _ => ?_) fun _ => .ret fun s h => by simpa using h
    exact (bsp_read hE (fun s s' hs h => h.seen hs) _).post fun a s h => by simpa using h
  refine .cond (fun _ => streamEpilogue_triple hE) fun _ => .cond (fun _ => ?_) fun _ =>
    .cond (fun _ => streamEpilogue_triple hE) fun _ => ?_
  · refine .bind hread fun more => .cond (fun _ => .ret fun s h => h) fun _ =>
      .cond (fun _ => streamEpilogue_triple hE) fun _ => .ret fun s h => ?_
    exact InLoop.waitLoops h _
  · exact .bind .any fun timer => .ret fun s h => InLoop.waitLoops h _

/-- **One round of the loop of `run_ap_request_stream`.** -/
theorem streamRound_triple (hE : BspEnv b k c0 E) :
    Triple E (InLoop b k plan l) (streamRound b plan l) (bspCut b k c0) := by
  refine .bind (apRequestStreamShouldStop_triple hE fun s s' hs h => h.seen hs) fun stop => ?_
  refine Triple.pre (H := InLoop b k plan { l with stopped := l.stopped || stop }) ?_
    fun s h => h.1.stop fun hst hk => Or.inl (h.2 hst hk)
  refine .bind (R := fun _ => InLoop b k plan { l with stopped := l.stopped || stop }) ?_ fun _ => ?_
  · exact .cond (fun hst => stopApRequestStream_triple hE (by simp [hst])) fun _ => .ret fun _ h => h
  refine .bind (R := fun l' => InLoop b k plan l') ?_ fun l' => ?_
  · exact Triple.foldOver (I := fun _ l' => InLoop b k plan l') (fun j js l' => visitSlot_triple hE) _ _
  refine .bind (R := fun _ => InLoop b k plan l') ?_ fun _ => streamDecide_triple hE
  exact .cond (fun hst => stopApRequestStream_triple hE hst) fun _ => .ret fun _ h => h

end Walk

end VibeKernel

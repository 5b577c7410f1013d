import VibeKernel.Ap.StreamTally

/-!
# Publishing stays inside the protocol

What the walk through the BSP's code needs of its surroundings, and the part of the code that a
stream and a ping share. `Know` decides which of the BSP's conclusions about the AP are true.
-/

namespace VibeKernel

open Conc

/-- `ap_stream_finished_slot_order`, on a slot that stands still. -/
def finishedSlotOrder (i : SlotIndex) (slot : ApRequestSlot) : UInt32 :=
  if slot.state = .done ∧ slot.metrics.handledCount ≠ 0 then slot.metrics.handledCount
  else 0x80000000 + i.val.toUInt32

/-- Where the code's order does not put `j` before `i`, `i` ran first. -/
def OrderFaithful (s : Machine) : Prop :=
  ∀ i j, i ≠ j → s.log.Unrecorded i → s.log.Unrecorded j → (s.slots i).state = .done →
    (s.slots j).state = .done →
    ¬ finishedSlotOrder j (s.slots j) < finishedSlotOrder i (s.slots i) →
    s.log.runIndex (s.log.latest i) < s.log.runIndex (s.log.latest j)

/-- What the walk needs of its surroundings. -/
structure BspEnv (b : Build) (k : Know) (c0 : UInt32) (E : Env Machine) : Prop where
  inv : ∀ s, E.inv s → k.strong → MachineInv b c0 s
  guar : ∀ s s', E.inv s → BspAct b k c0 s s' → E.guar s s'
  rely : ∀ s s', E.rely s s' → ApSeen k s s'
  overdue : ∀ s i, E.inv s → k.calm → ¬ E.ok s (s.note (.overdue i))
  faithful : ∀ s, E.inv s → k.ordered → OrderFaithful s

theorem SameShared.refl (s : Machine) : SameShared s s :=
  ⟨rfl, rfl, rfl, rfl, rfl, rfl, rfl, rfl, rfl⟩

/-- An assertion that neither the AP nor a store outside the protocol can falsify. -/
structure Quiet (k : Know) (P : Machine → Prop) : Prop where
  seen : ∀ s s', ApSeen k s s' → P s → P s'
  own : ∀ s s', SameShared s s' → s'.history = s.history → P s → P s'

/-- An assertion that has nothing to say about slot `i`. -/
structure Beside (k : Know) (i : SlotIndex) (P : Machine → Prop) : Prop extends Quiet k P where
  slot : ∀ s f, P s → P (s.setSlot i f)

/-- An assertion about the slots' states and where the AP is. -/
structure Coarse (k : Know) (F : Machine → Prop) : Prop where
  seen : ∀ s s', ApSeen k s s' → F s → F s'
  mono : ∀ s s', (∀ j, (s'.slots j).state = (s.slots j).state) → s'.log.phase = s.log.phase →
    s'.error = s.error → F s → F s'

theorem Quiet.and {k : Know} {P Q : Machine → Prop} (hP : Quiet k P) (hQ : Quiet k Q) :
    Quiet k fun s => P s ∧ Q s :=
  ⟨fun s s' h hs => ⟨hP.seen s s' h hs.1, hQ.seen s s' h hs.2⟩,
    fun s s' h hh hs => ⟨hP.own s s' h hh hs.1, hQ.own s s' h hh hs.2⟩⟩

theorem Coarse.and {k : Know} {F G : Machine → Prop} (hF : Coarse k F) (hG : Coarse k G) :
    Coarse k fun s => F s ∧ G s :=
  ⟨fun s s' h hs => ⟨hF.seen s s' h hs.1, hG.seen s s' h hs.2⟩,
    fun s s' hj hp he hs => ⟨hF.mono s s' hj hp he hs.1, hG.mono s s' hj hp he hs.2⟩⟩

/-- The AP is down, or was never up. -/
def Down (s : Machine) : Prop := s.log.phase.down = true ∨ s.error ≠ .ok

section Walk

variable {b : Build} {k : Know} {c0 : UInt32} {E : Env Machine}
variable {P Q F : Machine → Prop} {i : SlotIndex} {plan : List ApRequestPlan} {l : StreamLocals}

namespace BspEnv

theorem refl (hE : BspEnv b k c0 E) (s : Machine) (hs : E.inv s) : E.guar s s :=
  hE.guar s s hs (.own (.refl s))

theorem stable (hE : BspEnv b k c0 E) (h : ∀ s s', ApSeen k s s' → P s → P s') : Stable E P :=
  fun s s' hr hs => h s s' (hE.rely s s' hr) hs

end BspEnv

theorem Down.seen (hk : k.strong) {s s' : Machine} (h : ApSeen k s s') (hd : Down s) : Down s' := by
  rcases hd with hd | hd
  · exact Or.inl (h.down hk hd)
  · exact Or.inr (by rw [h.error]; exact hd)

/-! ## Single accesses -/

theorem bsp_read (hE : BspEnv b k c0 E) (hP : ∀ s s', ApSeen k s s' → P s → P s') {α : Type}
    (f : Machine → α) : Triple E P (.load f) fun _ => P :=
  .load (hE.stable hP) hE.refl fun _ _ hs => hs

/-- A store outside the protocol. -/
theorem bsp_own (hE : BspEnv b k c0 E) (hP : Quiet k P) {f : Machine → Machine}
    (hf : ∀ s, SameShared s (f s)) (hh : ∀ s, (f s).history = s.history) :
    Triple E P (.store f) fun _ => P :=
  .store (hE.stable hP.seen) fun s hs _ hp =>
    ⟨hE.guar _ _ hs (.own (hf s)), hP.own s (f s) (hf s) (hh s) hp⟩

/-- `ap_request_stream_should_stop` is right about the AP. -/
theorem apRequestStreamShouldStop_triple (hE : BspEnv b k c0 E)
    (hP : ∀ s s', ApSeen k s s' → P s → P s') :
    Triple E P apRequestStreamShouldStop fun stop s =>
      P s ∧ (stop = true → k.strong → s.log.phase.down = true) := by
  have hfaulted : ∀ s, E.inv s → k.strong → s.apState = .faulted → s.log.phase.down = true := by
    intro s hs hk ha
    obtain ⟨v, h, hp, -⟩ := (hE.inv s hs hk).faulted ha
    simp [hp]
  refine .bind (R := fun st s => P s ∧ (st = .faulted → k.strong → s.log.phase.down = true)) ?_
    fun st => .cond (fun hst => ?_) fun _ => ?_
  · exact .load (hE.stable hP) hE.refl fun s hs hp => ⟨hp, fun ha hk => hfaulted s hs hk ha⟩
  · exact .ret fun s hp => ⟨hp.1, fun _ => hp.2 hst⟩
  · refine .bind (R := fun st s => P s ∧ (st = .halted → k.strong → s.log.phase.down = true)) ?_
      fun st => ?_
    · refine Triple.pre (H := P) ?_ fun s hp => hp.1
      exact .load (hE.stable hP) hE.refl fun s hs hp => ⟨hp, fun ha hk => (hE.inv s hs hk).halted ha⟩
    · exact .ret fun s hp => ⟨hp.1, fun ht => hp.2 (by simpa using ht)⟩

/-! ## Publishing -/

/-- Slot `i` may be reset. -/
def Ready (k : Know) (i : SlotIndex) (s : Machine) : Prop :=
  (k.strong → (s.slots i).state ≠ .pending ∧ (s.slots i).state ≠ .running) ∧
    (k.calm → s.log.latest i ≠ 0 → (s.slots i).state = .done ∧ ¬ s.log.Unrecorded i)

/-- Slot `i` has been reset and not published. -/
def Vacant (k : Know) (i : SlotIndex) (s : Machine) : Prop :=
  ((s.slots i).state = .empty ∨ (s.slots i).state = .fault) ∧
    (k.calm → (s.slots i).state = .empty)

theorem Ready.seen {s s' : Machine} (h : ApSeen k s s') (hr : Ready k i s) : Ready k i s' := by
  refine ⟨fun hk => ?_, fun hk h0 => ?_⟩
  · obtain ⟨hp, hrun⟩ := hr.1 hk
    exact ⟨fun hp' => hp (h.pending i hp'), fun hr' => (h.running i hr').elim hp hrun⟩
  · rw [h.log.latest] at h0
    obtain ⟨hd, hu⟩ := hr.2 hk h0
    refine ⟨?_, fun hu' => hu ((h.log.unrecorded i).1 hu')⟩
    rw [h.keep hk i (by simp [hd]) (by simp [hd])]
    exact hd

theorem Vacant.seen {s s' : Machine} (h : ApSeen k s s') (hv : Vacant k i s) : Vacant k i s' := by
  refine ⟨h.vacant i hv.1, fun hk => ?_⟩
  have he := hv.2 hk
  rw [h.keep hk i (by simp [he]) (by simp [he])]
  exact he

theorem Vacant.of_state {s s' : Machine} (hs : (s'.slots i).state = (s.slots i).state)
    (hv : Vacant k i s) : Vacant k i s' := by
  unfold Vacant at hv ⊢
  rwa [hs]

theorem Vacant.quiet : Quiet k (Vacant k i) :=
  ⟨fun _ _ => Vacant.seen, fun _ _ h _ hv => hv.of_state (by rw [h.slots])⟩

theorem resetApInboxSlot_triple (hE : BspEnv b k c0 E) (hP : Beside k i P) :
    Triple E (fun s => P s ∧ Ready k i s) (resetApInboxSlot i) fun _ s => P s ∧ Vacant k i s := by
  have hvac : Quiet k fun s => P s ∧ Vacant k i s := hP.toQuiet.and Vacant.quiet
  refine .bind (R := fun _ s => P s ∧ Vacant k i s) ?_ fun _ => ?_
  · refine .bind (R := fun _ s => P s ∧ Vacant k i s) ?_ fun _ => .forEach_keep fun w hw => ?_
    · refine .store (hE.stable fun s s' h hp => ⟨hP.seen s s' h hp.1, hp.2.seen h⟩)
        fun s hs _ hp => ?_
      refine ⟨hE.guar _ _ hs (.reset i hp.2.1 hp.2.2), hP.slot s _ hp.1, ?_⟩
      simp [Vacant, SlotStore.apply]
    · have hfield := resetApRequestSlotFields_isField w hw
      refine .store (hE.stable hvac.seen) fun s hs _ hp => ⟨hE.guar _ _ hs ?_, hP.slot s _ hp.1, ?_⟩
      · exact .prepare hfield hp.2.1 hp.2.2
      · exact hp.2.of_state (by simpa using SlotStore.apply_state_of_isField hfield _)
  · exact .forEach_keep fun w _ => bsp_own hE hvac
      (fun _ => ⟨rfl, rfl, rfl, rfl, rfl, rfl, rfl, rfl, rfl⟩) fun _ => rfl

/-- Slot `i` carries the header of `p` and waits for its state. -/
def Prepared (b : Build) (k : Know) (i : SlotIndex) (p : ApRequestPlan) (s : Machine) : Prop :=
  Vacant k i s ∧ (s.slots i).request = preparedHeader (b.apContextIndex + 1) p

theorem Prepared.seen {p : ApRequestPlan} {s s' : Machine} (h : ApSeen k s s')
    (hv : Prepared b k i p s) : Prepared b k i p s' :=
  ⟨hv.1.seen h, (h.request i).trans hv.2⟩

theorem prepareSlot_triple (hE : BspEnv b k c0 E) (hP : Beside k i P) (p : ApRequestPlan) :
    Triple E (fun s => P s ∧ Vacant k i s)
      (storeSlot i (prepareApRequestSlotFromPlan (b.apContextIndex + 1) p))
      fun _ s => P s ∧ Prepared b k i p s := by
  -- the header at the end is already decided by the stores still to come
  let I (ws : List SlotStore) (s : Machine) : Prop := (∀ w ∈ ws, w.IsField) ∧ P s ∧ Vacant k i s ∧
    headerAfter ws (s.slots i).request = preparedHeader (b.apContextIndex + 1) p
  have hseen : ∀ ws s s', ApSeen k s s' → I ws s → I ws s' := fun ws s s' h hp =>
    ⟨hp.1, hP.seen s s' h hp.2.1, hp.2.2.1.seen h, by rw [h.request]; exact hp.2.2.2⟩
  have hstep : ∀ w ws, Triple E (I (w :: ws)) (.store fun s => s.setSlot i w.apply)
      fun _ => I ws := by
    intro w ws
    refine .store (hE.stable (hseen _)) fun s hs _ hp => ?_
    obtain ⟨hfield, hP', hv, hreq⟩ := hp
    simp only [List.forall_mem_cons] at hfield
    refine ⟨hE.guar _ _ hs (.prepare hfield.1 hv.1 hv.2), hfield.2, hP.slot s _ hP', ?_, ?_⟩
    · exact hv.of_state (by simpa using SlotStore.apply_state_of_isField hfield.1 _)
    · rw [Machine.setSlot_slots_self, SlotStore.apply_request]
      exact hreq
  refine (Triple.forEach hstep _).conseq (fun s hp => ?_) fun _ s hp => ?_
  · exact ⟨prepareApRequestSlotFromPlan_isField _ p, hp.1, hp.2, headerAfter_prepare _ p _⟩
  · exact ⟨hp.2.1, hp.2.2.1, hp.2.2.2⟩

/-- A publication with state `st` is right. -/
def Announced (k : Know) (i : SlotIndex) (st : ApRequestStatus) (s : Machine) : Prop :=
  k.strong → st = .pending ∧ s.error = .ok ∨ st = .skipped ∧ Down s ∨
    st = .fault ∧ s.apState = .faulted ∧ (s.slots i).reply.faultCode = s.faultVector.toUInt32

theorem Announced.seen {st : ApRequestStatus} {s s' : Machine} (h : ApSeen k s s')
    (ha : Announced k i st s) : Announced k i st s' := by
  intro hk
  rcases ha hk with ⟨hst, he⟩ | ⟨hst, hd⟩ | ⟨hst, hf, hv⟩
  · exact Or.inl ⟨hst, by rw [h.error]; exact he⟩
  · exact Or.inr (Or.inl ⟨hst, hd.seen hk h⟩)
  · obtain ⟨hf', hv', hs'⟩ := h.posted hk hf
    exact Or.inr (Or.inr ⟨hst, hf', by rw [hv', hs']; exact hv⟩)

/-- The states a publication can end with. -/
def Published (st : ApRequestStatus) : Prop := st = .pending ∨ st = .skipped ∨ st = .fault

theorem publishState_triple (hE : BspEnv b k c0 E) {p : ApRequestPlan} {st : ApRequestStatus}
    (hP : Beside k i P) (hst : Published st)
    (hQ : ∀ s st, P s → Prepared b k i p s → Published st → Q (publishState i p st s)) :
    Triple E (fun s => (P s ∧ Prepared b k i p s) ∧ Announced k i st s)
      (.store (publishState i p st)) fun _ => Q := by
  refine .store (hE.stable fun s s' h hp => ?_) fun s hs _ hp => ?_
  · exact ⟨⟨hP.seen s s' h hp.1.1, hp.1.2.seen h⟩, hp.2.seen h⟩
  · obtain ⟨⟨hP', hv, hreq⟩, ha⟩ := hp
    exact ⟨hE.guar _ _ hs (.publish hv.1 hreq ha hv.2), hQ s st hP' ⟨hv, hreq⟩ hst⟩

/-- `boot->error != AP_BOOT_OK || !boot->online`. -/
theorem apBarred_triple (hE : BspEnv b k c0 E) (hP : ∀ s s', ApSeen k s s' → P s → P s') :
    Triple E P apBarred fun barred s =>
      P s ∧ (barred = true → k.strong → s.error ≠ .ok) ∧ (barred = false → s.error = .ok) := by
  refine .bind (R := fun e s => P s ∧ s.error = e) ?_ fun e => .cond (fun he => ?_) fun he => ?_
  · exact .load (hE.stable hP) hE.refl fun s _ hp => ⟨hp, rfl⟩
  · exact .ret fun s hp => ⟨hp.1, fun _ _ => by rw [hp.2]; exact he, by simp⟩
  · refine .load (hE.stable fun s s' h hp => ⟨hP s s' h hp.1, h.error.trans hp.2⟩) hE.refl
      fun s hs hp => ⟨hp.1, fun hb hk => ?_, fun _ => hp.2.trans (by simpa using he)⟩
    have hon := (hE.inv s hs hk).online (hp.2.trans (by simpa using he))
    simp [hon] at hb

/-- **A publication.** -/
theorem publishApInboxRequest_triple (hE : BspEnv b k c0 E) {p : ApRequestPlan}
    (hP : Beside k i P)
    (hQ : ∀ s st, P s → Prepared b k i p s → Published st → Q (publishState i p st s)) :
    Triple E (fun s => P s ∧ Ready k i s) (publishApInboxRequest b i p) fun _ => Q := by
  have hseen : ∀ s s', ApSeen k s s' → P s ∧ Prepared b k i p s → P s' ∧ Prepared b k i p s' :=
    fun s s' h hp => ⟨hP.seen s s' h hp.1, hp.2.seen h⟩
  refine .bind (resetApInboxSlot_triple hE hP) fun _ => ?_
  refine .bind (prepareSlot_triple hE hP p) fun _ => ?_
  refine .bind (R := fun st s => (P s ∧ Prepared b k i p s) ∧
    (k.strong → st = .faulted → s.apState = .faulted)) ?_ fun st => ?_
  · exact .load (hE.stable hseen) hE.refl fun s _ hp => ⟨hp, fun _ ha => ha⟩
  refine .cond (fun hst => ?_) fun _ => ?_
  · -- the AP has posted a fault: the request gets its vector, and never runs
    have hfaulted : ∀ s s', ApSeen k s s' → (k.strong → s.apState = .faulted) →
        k.strong → s'.apState = .faulted := fun s s' h hf hk => (h.posted hk (hf hk)).1
    refine .bind (R := fun v s => (P s ∧ Prepared b k i p s) ∧
      (k.strong → s.apState = .faulted ∧ v = s.faultVector)) ?_ fun v => ?_
    · refine Triple.pre (H := fun s => (P s ∧ Prepared b k i p s) ∧
        (k.strong → s.apState = .faulted)) ?_ fun s hp => ⟨hp.1, fun hk => hp.2 hk hst⟩
      exact .load (hE.stable fun s s' h hp => ⟨hseen s s' h hp.1, hfaulted s s' h hp.2⟩) hE.refl
        fun s _ hp => ⟨hp.1, fun hk => ⟨hp.2 hk, rfl⟩⟩
    · refine .bind (R := fun _ s => (P s ∧ Prepared b k i p s) ∧ Announced k i .fault s) ?_
        fun _ => publishState_triple hE hP (Or.inr (Or.inr rfl)) hQ
      refine .store (hE.stable fun s s' h hp => ⟨hseen s s' h hp.1, fun hk => ?_⟩)
        fun s hs _ hp => ?_
      · obtain ⟨hf, hv, -⟩ := h.posted hk (hp.2 hk).1
        exact ⟨hf, by rw [hv]; exact (hp.2 hk).2⟩
      · obtain ⟨⟨hP', hv, hreq⟩, hf⟩ := hp
        refine ⟨hE.guar _ _ hs ?_, ⟨hP.slot s _ hP', ?_⟩, fun hk => ?_⟩
        · exact .prepare (w := .reply fun r => { r with faultCode := v.toUInt32 }) trivial hv.1 hv.2
        · exact ⟨hv.of_state (by simp), by simpa using hreq⟩
        · exact Or.inr (Or.inr ⟨rfl, (hf hk).1, by simp [(hf hk).2]⟩)
  · refine .bind ((apBarred_triple hE hseen).pre fun s hp => hp.1) fun barred => ?_
    -- barred, halted, or pending
    refine .cond (fun hb => ?_) fun hb => ?_
    · refine (publishState_triple hE hP (Or.inr (Or.inl rfl)) hQ).pre fun s hp => ⟨hp.1, ?_⟩
      exact fun hk => Or.inr (Or.inl ⟨rfl, Or.inr (hp.2.1 hb hk)⟩)
    · refine .bind (R := fun st s => (P s ∧ Prepared b k i p s) ∧ s.error = .ok ∧
        (st = .halted → k.strong → s.log.phase.down = true)) ?_ fun st => ?_
      · refine Triple.pre (H := fun s => (P s ∧ Prepared b k i p s) ∧ s.error = .ok) ?_
          fun s hp => ⟨hp.1, hp.2.2 (by simpa using hb)⟩
        exact .load (hE.stable fun s s' h hp => ⟨hseen s s' h hp.1, h.error.trans hp.2⟩) hE.refl
          fun s hs hp => ⟨hp.1, hp.2, fun ha hk => (hE.inv s hs hk).halted ha⟩
      refine .cond (fun hst => ?_) fun _ => ?_
      · refine (publishState_triple hE hP (Or.inr (Or.inl rfl)) hQ).pre fun s hp => ⟨hp.1, ?_⟩
        exact fun hk => Or.inr (Or.inl ⟨rfl, Or.inl (hp.2.2 hst hk)⟩)
      · refine (publishState_triple hE hP (Or.inl rfl) hQ).pre fun s hp => ⟨hp.1, ?_⟩
        exact fun _ => Or.inl ⟨rfl, hp.2.1⟩

end Walk

end VibeKernel

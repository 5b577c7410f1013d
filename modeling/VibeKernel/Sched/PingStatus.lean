import VibeKernel.Ap.BspAccesses
import VibeKernel.Sched.Broadcast

/-!
# What one context goes through in a broadcast ping

A context starts at rest. It may be sent a ping, and a ping comes back. Each piece of
`run_ap_broadcast_ping` that works on one context is verified here against the AP of that context.
-/

namespace VibeKernel

open Conc

/-! ## Status -/

/-- No ping was sent to the context since `s₀`. -/
structure NotSent (c0 : UInt32) (s₀ s : Machine) : Prop where
  publications : s.log.publications = s₀.log.publications
  resting : Resting s
  counter : s.counterValue = s₀.counterValue
  handled : s.requestHandledCount = s₀.requestHandledCount
  saved : CounterOk c0 s.log s₀.counterValue

/-- What is known of a ping besides slot 0. -/
structure Mailed (c0 : UInt32) (s₀ s : Machine) : Prop where
  publications : s.log.publications = s₀.log.publications + 1
  latest : s.log.latest apBroadcastPingSlotIndex ≠ 0
  error : s.error = .ok
  saved : CounterOk c0 s.log s₀.counterValue

/-- Slot 0 carries the ping, and the AP has nothing else to do. -/
structure Carries (b : Build) (s : Machine) : Prop where
  request : (s.slots apBroadcastPingSlotIndex).request =
    preparedHeader (b.apContextIndex + 1) (broadcastPingPlan b)
  only : OnlyPing s

/-- One ping was sent to the context since `s₀`. -/
structure Sent (b : Build) (c0 : UInt32) (s₀ s : Machine) : Prop extends
    Mailed c0 s₀ s, Carries b s where
  out : PingOut s

/-- The ping is back. -/
structure Back (b : Build) (c0 : UInt32) (s₀ s : Machine) : Prop extends Sent b c0 s₀ s where
  back : PingBack s

section Status

variable {b : Build} {c0 : UInt32} {s₀ s s' : Machine}

theorem NotSent.apAct (h : NotSent c0 s₀ s) (ha : ApAct b c0 s s') : NotSent c0 s₀ s' := by
  obtain ⟨hrest, hcounter, hhandled⟩ := h.resting.apAct ha
  refine ⟨?_, hrest, hcounter.trans h.counter, hhandled.trans h.handled,
    h.saved.grow ha.touch.increments⟩
  rw [ha.touch.log.publications]
  exact h.publications

theorem Mailed.seen {k : Know} (h : Mailed c0 s₀ s) (hs : ApSeen k s s') : Mailed c0 s₀ s' where
  publications := by rw [hs.log.publications]; exact h.publications
  latest := by rw [hs.log.latest]; exact h.latest
  error := hs.error.trans h.error
  saved := h.saved.grow hs.increments

theorem Mailed.beside {k : Know} : Beside k apBroadcastPingSlotIndex (Mailed c0 s₀) where
  seen _ _ hs h := h.seen hs
  own s s' hs _ h := by
    refine ⟨?_, ?_, hs.error.trans h.error, ?_⟩
    · rw [hs.log]
      exact h.publications
    · rw [hs.log]
      exact h.latest
    · rw [hs.log]
      exact h.saved
  slot _ _ h := ⟨h.publications, h.latest, h.error, h.saved⟩

theorem Carries.apAct (h : Carries b s) (ha : ApAct b c0 s s') : Carries b s' :=
  ⟨(ha.touch.request _).trans h.request, h.only.apAct ha⟩

theorem Sent.apAct (h : Sent b c0 s₀ s) (ha : ApAct b c0 s s') : Sent b c0 s₀ s' :=
  ⟨h.toMailed.seen (k := .nothing) (.of_touch ha.touch), h.toCarries.apAct ha,
    ha.touch.nonempty _ h.out⟩

theorem Back.apAct (h : Back b c0 s₀ s) (ha : ApAct b c0 s s') : Back b c0 s₀ s' :=
  ⟨h.toSent.apAct ha, ha.touch.finished _ h.back⟩

/-- A ping that came back other than by a timeout leaves the AP at rest. -/
theorem Back.resting (h : Back b c0 s₀ s) (hm : MachineInv b c0 s)
    (ht : (s.slots apBroadcastPingSlotIndex).state ≠ .timeout) : Resting s :=
  h.only.resting hm h.error h.latest h.back ht

end Status

/-! ## The pieces -/

section Pieces

variable {b : Build} {c0 : UInt32} {s₀ : Machine} {P : Machine → Prop}

/-- The BSP's surroundings on one context. -/
abbrev pingEnv (b : Build) (c0 : UInt32) : Env Machine := (anyCalls b c0).outline.env .bsp

theorem pingEnv_bspEnv : BspEnv b .started c0 (pingEnv b c0) := (anyCalls b c0).bspEnv

/-- What no access of the AP falsifies. -/
theorem pingEnv_stable (h : ∀ s s', MachineInv b c0 s → ApAct b c0 s s' → P s → P s') :
    Stable (pingEnv b c0) P := by
  rintro s s' ⟨u, hu, hinv, -, hg, -⟩ hp
  cases u with
  | ap => exact h s s' hinv.machine hg hp
  | bsp => exact absurd rfl hu

theorem NotSent.stable : Stable (pingEnv b c0) (NotSent c0 s₀) :=
  pingEnv_stable fun _ _ _ ha h => h.apAct ha

theorem Sent.stable : Stable (pingEnv b c0) (Sent b c0 s₀) :=
  pingEnv_stable fun _ _ _ ha h => h.apAct ha

theorem Back.stable : Stable (pingEnv b c0) (Back b c0 s₀) :=
  pingEnv_stable fun _ _ _ ha h => h.apAct ha

/-- `ap_context_can_accept_broadcast_ping`. -/
theorem apContextCanAcceptBroadcastPing_triple :
    Triple (pingEnv b c0) (NotSent c0 s₀) apContextCanAcceptBroadcastPing fun ok s =>
      NotSent c0 s₀ s ∧ (ok = true → s.error = .ok) := by
  have herror : Stable (pingEnv b c0) fun s => NotSent c0 s₀ s ∧ s.error = .ok :=
    pingEnv_stable fun _ _ _ ha h => ⟨h.1.apAct ha, ha.touch.error.trans h.2⟩
  have hread : ∀ f : Machine → Bool, Triple (pingEnv b c0)
      (fun s => NotSent c0 s₀ s ∧ s.error = .ok) (.load f)
      fun ok s => if ok = true then NotSent c0 s₀ s ∧ s.error = .ok
        else NotSent c0 s₀ s ∧ (false = true → s.error = .ok) := by
    intro f
    refine .load herror pingEnv_bspEnv.refl fun s _ h => ?_
    split
    · exact h
    · exact ⟨h.1, nofun⟩
  refine .bind (R := fun ok s => NotSent c0 s₀ s ∧ (ok = true → s.error = .ok)) ?_ fun ok =>
    .cond (fun hok => ?_) fun _ => .ret fun s h => ⟨h.1, nofun⟩
  · refine .load NotSent.stable pingEnv_bspEnv.refl fun s _ h => ⟨h, fun he => ?_⟩
    simpa using he
  · refine Triple.pre (H := fun s => NotSent c0 s₀ s ∧ s.error = .ok) ?_ fun s h => ⟨h.1, h.2 hok⟩
    exact Triple.allOf (I := fun _ s => NotSent c0 s₀ s ∧ s.error = .ok)
      (fun s h => ⟨h.1, fun _ => h.2⟩) (fun f _ => hread f) _

/-- An access of slot 0 that leaves the AP's place alone. -/
structure OnSlot0 (s s' : Machine) : Prop where
  slots : ∀ i ≠ apBroadcastPingSlotIndex, s'.slots i = s.slots i
  phase : s'.log.phase = s.log.phase

theorem OnSlot0.refl (s : Machine) : OnSlot0 s s := ⟨fun _ _ => rfl, rfl⟩

theorem OnSlot0.setSlot (s : Machine) (f : ApRequestSlot → ApRequestSlot) :
    OnSlot0 s (s.setSlot apBroadcastPingSlotIndex f) :=
  ⟨fun _ hi => Machine.setSlot_slots_ne _ _ hi, rfl⟩

theorem OnlyPing.onSlot0 {s s' : Machine} (hs : OnSlot0 s s') (h : OnlyPing s) : OnlyPing s' where
  settled i hi := by
    rw [hs.slots i hi]
    exact h.settled i hi
  held n i hh := by
    rw [hs.phase] at hh ⊢
    exact h.held n i hh

theorem publishApInboxRequest_onSlot0 (plan : ApRequestPlan) :
    (publishApInboxRequest b apBroadcastPingSlotIndex plan).Within OnSlot0 := by
  have hload : ∀ {α : Type} (f : Machine → α), (Prog.load f).Within OnSlot0 := fun f =>
    .load OnSlot0.refl
  have hpublish : ∀ st, (Prog.store (publishState apBroadcastPingSlotIndex plan st)).Within OnSlot0 :=
    fun st => .store fun s => ⟨fun i hi => by simp [publishState, hi], rfl⟩
  have hslot : ∀ ws, (storeSlot apBroadcastPingSlotIndex ws).Within OnSlot0 := fun ws =>
    .forEach (fun w => .store fun s => OnSlot0.setSlot s _) ws
  refine .seq (.seq (hslot _) fun _ => .forEach (fun w => ?_) _) fun _ => ?_
  · exact .store fun s => ⟨fun _ _ => rfl, rfl⟩
  refine .seq (hslot _) fun _ => ?_
  refine .seq (hload _) fun st => .cond (fun _ => ?_) fun _ => ?_
  · refine .seq (hload _) fun v => ?_
    exact .seq (.store fun s => OnSlot0.setSlot s _) fun _ => hpublish _
  · refine .seq (Reading.apBarred.within OnSlot0.refl) fun barred => ?_
    refine .cond (fun _ => hpublish _) fun _ => ?_
    exact .seq (hload _) fun st => .cond (fun _ => hpublish _) fun _ => hpublish _

/-- The ping is sent. -/
theorem sendPing_triple : Triple (pingEnv b c0) (fun s => NotSent c0 s₀ s ∧ s.error = .ok)
    (publishApInboxRequest b apBroadcastPingSlotIndex (broadcastPingPlan b)) fun _ =>
      Sent b c0 s₀ := by
  let P (s : Machine) : Prop := s.log.publications = s₀.log.publications ∧ s.error = .ok ∧
    CounterOk c0 s.log s₀.counterValue
  let Q (s : Machine) : Prop := (Mailed c0 s₀ s ∧ (s.slots apBroadcastPingSlotIndex).request =
    preparedHeader (b.apContextIndex + 1) (broadcastPingPlan b)) ∧ PingOut s
  have hP : Beside .started apBroadcastPingSlotIndex P := by
    refine ⟨⟨fun s s' hs h => ⟨?_, hs.error.trans h.2.1, h.2.2.grow hs.increments⟩,
      fun s s' hs _ h => ⟨?_, hs.error.trans h.2.1, ?_⟩⟩, fun s f h => h⟩
    · rw [hs.log.publications]
      exact h.1
    · rw [hs.log]
      exact h.1
    · rw [hs.log]
      exact h.2.2
  have hpublish : Triple (pingEnv b c0) (fun s => P s ∧ Ready .started apBroadcastPingSlotIndex s)
      (publishApInboxRequest b apBroadcastPingSlotIndex (broadcastPingPlan b)) fun _ => Q := by
    refine publishApInboxRequest_triple pingEnv_bspEnv hP fun s st h hprep hst => ?_
    refine ⟨⟨⟨?_, ?_, h.2.1, h.2.2⟩, ?_⟩, ?_⟩
    · show s.log.publications + 1 = _
      rw [h.1]
    · simp [publishState]
    · simpa [publishState] using hprep.2
    · rcases hst with rfl | rfl | rfl <;> simp [PingOut, publishState]
  refine (hpublish.beside (R := OnlyPing) (pingEnv_stable fun _ _ _ ha h => h.apAct ha)
    (fun s s' _ hs h => h.onSlot0 hs) (publishApInboxRequest_onSlot0 _)).conseq (fun s h => ?_)
      fun _ s h => ⟨h.1.1.1, ⟨h.1.1.2, h.2⟩, h.1.2⟩
  have hready : Ready .started apBroadcastPingSlotIndex s := ⟨fun _ => h.1.resting.settled _, False.elim⟩
  exact ⟨⟨⟨h.1.publications, h.2, h.1.saved⟩, hready⟩, h.1.resting.onlyPing⟩

/-- An access of slot 0 that leaves the request alone, too. -/
structure KeepsRequest (s s' : Machine) : Prop extends OnSlot0 s s' where
  request : (s'.slots apBroadcastPingSlotIndex).request =
    (s.slots apBroadcastPingSlotIndex).request

theorem KeepsRequest.refl (s : Machine) : KeepsRequest s s := ⟨.refl s, rfl⟩

theorem Carries.keepsRequest {s s' : Machine} (hs : KeepsRequest s s') (h : Carries b s) :
    Carries b s' :=
  ⟨hs.request.trans h.request, h.only.onSlot0 hs.toOnSlot0⟩

theorem KeepsRequest.setSlot (s : Machine) {f : ApRequestSlot → ApRequestSlot}
    (hf : ∀ slot, (f slot).request = slot.request) :
    KeepsRequest s (s.setSlot apBroadcastPingSlotIndex f) :=
  ⟨.setSlot s f, by simpa using hf _⟩

theorem KeepsRequest.cmpxchg (s : Machine) (st st' : ApRequestStatus) :
    KeepsRequest s (cmpxchgState apBroadcastPingSlotIndex st st' s).2 := by
  unfold cmpxchgState
  split
  · exact .setSlot s (f := fun slot => { slot with state := st' }) fun _ => rfl
  · exact .refl s

/-- The BSP gives the ping up, if it is not back. -/
theorem timeOutPing_triple : Triple (pingEnv b c0) (Sent b c0 s₀)
    (timeoutApBroadcastPingSlot b apBroadcastPingSlotIndex) fun _ => Back b c0 s₀ := by
  have hwithin : (timeoutApBroadcastPingSlot b apBroadcastPingSlotIndex).Within KeepsRequest := by
    refine .seq (.store fun s => .setSlot s fun _ => rfl) fun _ => ?_
    refine .seq (.load KeepsRequest.refl) fun st => .cond (fun _ => .ret _) fun _ => ?_
    refine .seq (.swap fun s => .cmpxchg s _ _) fun ok => .cond (fun _ => .ret _) fun _ => ?_
    exact .seq (.swap fun s => .cmpxchg s _ _) fun _ => .ret _
  have hmailed : Beside .started apBroadcastPingSlotIndex (Mailed c0 s₀) := Mailed.beside
  refine ((timeoutApBroadcastPingSlot_triple pingEnv_bspEnv id hmailed).beside
    (R := Carries b) (pingEnv_stable fun _ _ _ ha h => h.apAct ha)
      (fun s s' _ hs h => h.keepsRequest hs) hwithin).conseq (fun s h => ?_) fun _ s h => ?_
  · exact ⟨⟨h.toMailed, h.out⟩, h.toCarries⟩
  · obtain ⟨hne, -, -⟩ := ApRequestStatus.finished_iff.1 h.1.2
    exact ⟨⟨h.1.1, h.2, hne⟩, h.1.2⟩

/-- The BSP stores how long the ping took. -/
theorem storePingWait_triple (w : UInt32) : Triple (pingEnv b c0) (Back b c0 s₀)
    (.store fun s => s.setMetrics apBroadcastPingSlotIndex fun m => { m with waitLoops := w })
    fun _ => Back b c0 s₀ := by
  refine .store Back.stable fun s hs _ h => ⟨pingEnv_bspEnv.guar _ _ hs (.waitLoops _ w), ?_⟩
  have hmailed : Beside .started apBroadcastPingSlotIndex (Mailed c0 s₀) := Mailed.beside
  refine ⟨⟨hmailed.slot s _ h.toMailed, h.toCarries.keepsRequest (.setSlot s fun _ => rfl), ?_⟩, ?_⟩
  · simpa [PingOut] using h.out
  · simpa [PingBack] using h.back

/-- Depends on slot 0 only. -/
def OfSlot0 (f : Machine → Bool) : Prop :=
  ∀ s s' : Machine, s'.slots apBroadcastPingSlotIndex = s.slots apBroadcastPingSlotIndex → f s' = f s

theorem pingSucceeded_ofSlot0 : OfSlot0 pingSucceeded := by
  intro s s' h
  unfold pingSucceeded
  rw [h]

/-- `DONE`, and the ping succeeded if and only if the comparisons of `fs` hold. -/
structure Comparing (b : Build) (c0 : UInt32) (s₀ : Machine) (fs : List (Machine → Bool))
    (s : Machine) : Prop extends Back b c0 s₀ s where
  done : (s.slots apBroadcastPingSlotIndex).state = .done
  ofSlot0 : ∀ f ∈ fs, OfSlot0 f
  succeeded : pingSucceeded s = true ↔ ∀ f ∈ fs, f s = true

theorem Comparing.stable (fs : List (Machine → Bool)) :
    Stable (pingEnv b c0) (Comparing b c0 s₀ fs) := by
  refine pingEnv_stable fun s s' hm ha h => ?_
  have hslot := ha.slots_of_done hm h.done
  refine ⟨h.toBack.apAct ha, by rw [hslot]; exact h.done, h.ofSlot0, ?_⟩
  rw [pingSucceeded_ofSlot0 s s' hslot, h.succeeded]
  exact forall₂_congr fun f hf => by rw [h.ofSlot0 f hf s s' hslot]

/-- What `ap_broadcast_ping_result_ok` finds is whether the ping succeeded. -/
theorem pingResult_triple : Triple (pingEnv b c0) (Back b c0 s₀)
    (apBroadcastPingResultOk apBroadcastPingSlotIndex) fun ok s =>
      Back b c0 s₀ s ∧ pingSucceeded s = ok := by
  refine .bind (R := fun done s => Back b c0 s₀ s ∧
    ((s.slots apBroadcastPingSlotIndex).state == .done) = done) ?_ fun done => .cond (fun hd => ?_)
      fun hd => .ret fun s h => ⟨h.1, ?_⟩
  · exact .load Back.stable pingEnv_bspEnv.refl fun s _ h => ⟨h, rfl⟩
  · subst hd
    -- the comparisons that are still to come decide, those made before were true
    refine (Triple.allOf (I := Comparing b c0 s₀)
      (R := fun ok s => Back b c0 s₀ s ∧ pingSucceeded s = ok) (fun s h => ?_) (fun f fs => ?_) _).pre
        fun s h => ?_
    · exact ⟨h.toBack, h.succeeded.2 nofun⟩
    · refine .load (Comparing.stable _) pingEnv_bspEnv.refl fun s _ h => ?_
      obtain ⟨hf, hfs⟩ := List.forall_mem_cons.1 h.ofSlot0
      by_cases hfs' : f s = true
      · rw [if_pos hfs']
        refine ⟨h.toBack, h.done, hfs, h.succeeded.trans ?_⟩
        rw [List.forall_mem_cons]
        exact and_iff_right hfs'
      · rw [if_neg hfs']
        refine ⟨h.toBack, Bool.eq_false_iff.2 fun hs => hfs' ?_⟩
        exact h.succeeded.1 hs f List.mem_cons_self
    · have hstate : (s.slots apBroadcastPingSlotIndex).state = .done := by simpa using h.2
      refine ⟨h.1, hstate, ?_, ?_⟩
      · simp only [List.forall_mem_cons, List.not_mem_nil, false_imp_iff, implies_true, and_true]
        refine ⟨?_, ?_, ?_, ?_, ?_, ?_, ?_⟩ <;> exact fun s s' he => by simp only [he]
      · -- the other comparisons are about the header that the BSP stored
        simp [pingSucceeded, hstate, h.1.request, preparedHeader, broadcastPingPlan]
        constructor
        · rintro ⟨⟨⟨hhigh, hlow⟩, hresult⟩, hfault⟩
          exact ⟨hresult, hfault, hhigh.symm, hlow.symm⟩
        · rintro ⟨hresult, hfault, hhigh, hlow⟩
          exact ⟨⟨⟨hhigh.symm, hlow.symm⟩, hresult⟩, hfault⟩
  · obtain rfl : done = false := by simpa using hd
    simp only [pingSucceeded, h.2, Bool.false_and]

end Pieces

end VibeKernel

import VibeKernel.Sched.Contexts

/-!
# The broadcast ping on all contexts

`run_ap_broadcast_ping` as the source has it: a ping to every context that can accept one, one loop that
waits for all of them, one summary.

The delays, the timer and the counters of IPIs are left out; the wait for an event ends for either
of its two reasons.
-/

namespace VibeKernel

open Conc

/-! ## The program -/

/-- `run_ap_broadcast_ping` from `cli` on. -/
structure BroadcastLocals where
  active : ApContextIndex → Bool := fun _ => false
  activeCount : Nat := 0
  targetHandledCount : UInt32 := 0
  targetCounterValue : UInt32 := 0
  waitLoops : UInt32 := 0

/-- Where a loop of `run_ap_broadcast_ping` is cut. -/
inductive BroadcastPc
  | loop (l : BroadcastLocals)
  | returned

/-- The indices below `context_count`, after the clamp. -/
def contextIndices (contextCount : Nat) : List ApContextIndex :=
  (List.finRange maxApContexts).filter fun i => decide (i.val < contextCount)

namespace KernelMemory

def setSummary (t : KernelMemory) (f : BroadcastPingSummary → BroadcastPingSummary) : KernelMemory :=
  { t with summary := f t.summary }

/-- `ap_broadcast_ping_summary.entries[i]`. -/
def setEntry (t : KernelMemory) (i : ApContextIndex)
    (f : ApBroadcastPingEntry → ApBroadcastPingEntry) : KernelMemory :=
  t.setSummary fun sm => { sm with entries := Function.update sm.entries i (f (sm.entries i)) }

/-- `ap_inbox_slot(&contexts[i], AP_BROADCAST_PING_SLOT_INDEX)`. -/
def pingSlot (t : KernelMemory) (i : ApContextIndex) : ApRequestSlot :=
  (t.contexts i).slots apBroadcastPingSlotIndex

end KernelMemory

/-- The first loop. -/
def sendBroadcastPing (b : Build) (l : BroadcastLocals) (i : ApContextIndex) :
    Prog KernelMemory BroadcastLocals := do
  let accepts ← apContextCanAcceptBroadcastPing.onPart (kernelPart i)
  if accepts then do
    (publishApInboxRequest (b.on i) apBroadcastPingSlotIndex (broadcastPingPlan (b.on i))).onPart
      (kernelPart i)
    .store fun t => t.setSummary fun sm => { sm with plannedCount := sm.plannedCount + 1 }
    pure { l with active := Function.update l.active i true, activeCount := l.activeCount + 1 }
  else pure l

/-- `record_ap_broadcast_ping_result`. -/
def recordBroadcastPing (i : ApContextIndex) (waitLoops : UInt32) : Prog KernelMemory Unit := do
  .store fun t => t.setEntry i fun e => { e with valid := true }
  .store fun t => t.setEntry i fun e => { e with apicId := (t.contexts i).targetApicId }
  .store fun t => t.setEntry i fun e => { e with state := (t.pingSlot i).state }
  .store fun t => t.setEntry i fun e => { e with resultCode := (t.pingSlot i).reply.resultCode }
  .store fun t => t.setEntry i fun e => { e with faultCode := (t.pingSlot i).reply.faultCode }
  .store fun t => t.setEntry i fun e => { e with waitLoops := waitLoops }
  .store fun t => t.setSummary fun sm => { sm with completedCount := sm.completedCount + 1 }
  let ok ← (apBroadcastPingResultOk apBroadcastPingSlotIndex).onPart (kernelPart i)
  if ok then
    .store fun t => t.setSummary fun sm => { sm with okCount := sm.okCount + 1 }
  else
    .store fun t => t.setSummary fun sm => { sm with failCount := sm.failCount + 1 }

/-- The body of the loop inside the wait. -/
def takeBroadcastPing (l : BroadcastLocals) (i : ApContextIndex) :
    Prog KernelMemory BroadcastLocals :=
  if l.active i then do
    let st ← .load fun t => (t.pingSlot i).state
    if st.finished then do
      (Prog.store fun s => s.setMetrics apBroadcastPingSlotIndex fun m =>
        { m with waitLoops := l.waitLoops }).onPart (kernelPart i)
      recordBroadcastPing i l.waitLoops
      pure { l with active := Function.update l.active i false, activeCount := l.activeCount - 1 }
    else pure l
  else pure l

/-- The body of the loop after the wait. -/
def timeOutBroadcastPing (b : Build) (l : BroadcastLocals) (i : ApContextIndex) :
    Prog KernelMemory BroadcastLocals :=
  if l.active i then do
    (timeoutApBroadcastPingSlot (b.on i) apBroadcastPingSlotIndex).onPart (kernelPart i)
    recordBroadcastPing i b.apRequestTimeoutLoops
    pure { l with active := Function.update l.active i false }
  else pure l

/-- The stores that put the counters of `request_target` back. -/
def restoreRequestTarget (l : BroadcastLocals) : Option ApContextIndex → Prog KernelMemory Unit
  | none => pure ()
  | some i => do
    (Prog.store fun s =>
      { s with requestHandledCount := l.targetHandledCount }.note .restored).onPart (kernelPart i)
    (Prog.store fun s =>
      { s with counterValue := l.targetCounterValue }.note .restored).onPart (kernelPart i)

/-- One round of the wait, or what follows it. -/
def broadcastRound (b : Build) (contextCount : Nat) (target : Option ApContextIndex)
    (l : BroadcastLocals) : Prog KernelMemory BroadcastPc :=
  if 0 < l.activeCount ∧ l.waitLoops < b.apRequestTimeoutLoops then do
    let l ← .foldOver (contextIndices contextCount) l takeBroadcastPing
    if l.activeCount = 0 then pure (.loop l)
    else do
      -- `bsp_wait_for_ap_request_event`
      let timer ← .any Bool
      let step := if timer then b.bspWaitTimerTimeoutStep else 1
      pure (.loop { l with waitLoops := advanceApRequestWaitLoops b l.waitLoops step })
  else do
    let l ← (if 0 < l.activeCount then
      .foldOver (contextIndices contextCount) l (timeOutBroadcastPing b) else pure l)
    restoreRequestTarget l target
    pure .returned

/-- `run_ap_broadcast_ping` up to its wait. -/
def runBroadcastPing (b : Build) (contextCount : Nat) (target : Option ApContextIndex) :
    Prog KernelMemory BroadcastPc := do
  let handled ← (match target with
    | some i => .load fun t => (t.contexts i).requestHandledCount
    | none => pure 0)
  let counter ← (match target with
    | some i => .load fun t => (t.contexts i).counterValue
    | none => pure 0)
  .store fun t => t.setSummary fun _ => {}
  let l ← .foldOver (contextIndices contextCount)
    { targetHandledCount := handled, targetCounterValue := counter } (sendBroadcastPing b)
  pure (.loop l)

def broadcastBody (b : Build) (contextCount : Nat) (target : Option ApContextIndex) :
    BroadcastPc → Option (Prog KernelMemory BroadcastPc)
  | .loop l => some (broadcastRound b contextCount target l)
  | .returned => none

/-- `run_ap_broadcast_ping` is called. -/
def broadcastStart (b : Build) (contextCount : Nat) (target : Option ApContextIndex)
    (contexts : ApContexts) (aps : ApContextIndex → Prog Machine ApPc) :
    (kernelSystem b (broadcastBody b contextCount target)).Config :=
  kernelStart b (broadcastBody b contextCount target) contexts aps
    (runBroadcastPing b contextCount target)

/-! ## Where one context is -/

/-- No request is waiting or running, and the AP is not in the middle of one. -/
structure Resting (s : Machine) : Prop where
  settled : Settled s
  away : ∀ n i, s.log.phase.held = some (n, i) → s.log.phase.down = true

/-- The AP can only be in the middle of a ping. -/
structure OnlyPing (s : Machine) : Prop where
  settled : ∀ i ≠ apBroadcastPingSlotIndex,
    (s.slots i).state ≠ .pending ∧ (s.slots i).state ≠ .running
  held : ∀ n i, s.log.phase.held = some (n, i) →
    s.log.phase.down = true ∨ i = apBroadcastPingSlotIndex

/-- What `ap_broadcast_ping_result_ok` should find: the ping is `DONE`, its reply carries its id, and
both codes are zero. -/
def pingSucceeded (s : Machine) : Bool :=
  let slot := s.slots apBroadcastPingSlotIndex
  slot.state == .done && slot.reply.requestIdHigh == slot.request.idHigh &&
    slot.reply.requestIdLow == slot.request.idLow && slot.reply.resultCode == 0 &&
      slot.reply.faultCode == 0

theorem Resting.onlyPing {s : Machine} (h : Resting s) : OnlyPing s :=
  ⟨fun i _ => h.settled i, fun n i hh => Or.inl (h.away n i hh)⟩

section Ap

variable {b : Build} {k : Know} {c0 : UInt32} {s s' : Machine}

theorem Settled.touch (h : Settled s) (ht : ApTouch s s') : Settled s' := fun i =>
  ⟨fun hp => (h i).1 (ht.pending i hp), fun hr => (ht.running i hr).elim (h i).1 (h i).2⟩

/-- An AP at rest stays at rest, and touches no counter. -/
theorem Resting.apAct (h : Resting s) (ha : ApAct b c0 s s') :
    Resting s' ∧ s'.counterValue = s.counterValue ∧
      s'.requestHandledCount = s.requestHandledCount := by
  have hnot : ∀ {n i}, s.log.phase.held = some (n, i) → s.log.phase.down = false → False := by
    intro n i hh hd
    rw [h.away n i hh] at hd
    cases hd
  refine ⟨⟨h.settled.touch ha.touch, ?_⟩, ?_⟩
  · intro n i hh
    cases ha with
    | own hs =>
      rw [hs.log] at hh ⊢
      exact h.away n i hh
    | claim j hp hj => exact absurd hj (h.settled j).1
    | take hp | readService hp | lookUp hp | increment v hp | rereadService hp | miss hp | halt hp
    | run hp => exact (hnot (by rw [hp]; rfl) (by rw [hp]; rfl)).elim
    | count v hp =>
      rcases hp with ⟨svc, ifc, hp, -⟩ | ⟨hp, -⟩ <;>
      exact (hnot (by rw [hp]; rfl) (by rw [hp]; rfl)).elim
    | complete hp | reject hp => simp at hh
    | fault => simp
    | post hp => simp [hp]
    | _ => exact h.away n i hh
  · cases ha with
    | own hs => exact ⟨hs.counter, hs.handled⟩
    | increment v hp => exact (hnot (by rw [hp]; rfl) (by rw [hp]; rfl)).elim
    | count v hp =>
      rcases hp with ⟨svc, ifc, hp, -⟩ | ⟨hp, -⟩ <;>
      exact (hnot (by rw [hp]; rfl) (by rw [hp]; rfl)).elim
    | _ => exact ⟨rfl, rfl⟩

theorem OnlyPing.apAct (h : OnlyPing s) (ha : ApAct b c0 s s') : OnlyPing s' := by
  have ht := ha.touch
  refine ⟨fun i hi => ?_, fun n i hh => ?_⟩
  · obtain ⟨hp, hr⟩ := h.settled i hi
    exact ⟨fun hp' => hp (ht.pending i hp'), fun hr' => (ht.running i hr').elim hp hr⟩
  · cases ha with
    | own hs =>
      rw [hs.log] at hh ⊢
      exact h.held n i hh
    | claim j hp hj =>
      simp only [Machine.note_log, Log.phase, ApPhase.held, Option.some.injEq, Prod.mk.injEq] at hh
      by_contra hne
      rw [not_or] at hne
      exact (h.settled j (by rw [hh.2]; exact hne.2)).1 hj
    | take hp | readService hp | lookUp hp | increment v hp | rereadService hp | miss hp | halt hp
    | run hp =>
      have hi := h.held n i (by rw [hp]; exact hh)
      rw [hp] at hi
      exact Or.inr (hi.resolve_left (by simp))
    | count v hp =>
      rcases hp with ⟨svc, ifc, hp, -⟩ | ⟨hp, -⟩
      all_goals
        have hi := h.held n i (by rw [hp]; exact hh)
        rw [hp] at hi
        exact Or.inr (hi.resolve_left (by simp))
    | complete hp | reject hp => simp at hh
    | fault => simp
    | post hp => simp [hp]
    | _ => exact h.held n i hh

/-- The AP cannot change whether a ping that is back succeeded. -/
theorem pingSucceeded_apAct (hm : MachineInv b c0 s) (ha : ApAct b c0 s s') (hb : PingBack s) :
    pingSucceeded s' = pingSucceeded s := by
  unfold pingSucceeded
  by_cases hd : (s.slots apBroadcastPingSlotIndex).state = .done
  · rw [ha.slots_of_done hm hd]
  · have h : ((s.slots apBroadcastPingSlotIndex).state == .done) = false := beq_false_of_ne hd
    have h' : ((s'.slots apBroadcastPingSlotIndex).state == .done) = false :=
      beq_false_of_ne (ha.not_done hb hd)
    simp only [h, h', Bool.false_and]

/-- A ping that came back other than by a timeout leaves the AP at rest. -/
theorem OnlyPing.resting (h : OnlyPing s) (hm : MachineInv b c0 s) (he : s.error = .ok)
    (h0 : s.log.latest apBroadcastPingSlotIndex ≠ 0) (hb : PingBack s)
    (ht : (s.slots apBroadcastPingSlotIndex).state ≠ .timeout) : Resting s := by
  obtain ⟨hempty, hpending, hrunning⟩ := ApRequestStatus.finished_iff.1 hb
  refine ⟨fun i => ?_, fun n i hh => ?_⟩
  · by_cases hi : i = apBroadcastPingSlotIndex
    · rw [hi]
      exact ⟨hpending, hrunning⟩
    · exact h.settled i hi
  · rcases h.held n i hh with hd | rfl
    · exact hd
    · by_cases hdone : (s.slots apBroadcastPingSlotIndex).state = .done
      · exact absurd hh (((hm.slot _).done h0 hdone).2.1 n)
      · refine ((hm.slot apBroadcastPingSlotIndex).stopped h0 ?_).resolve_right (fun hne => hne he)
        generalize (s.slots apBroadcastPingSlotIndex).state = st at *
        cases st <;> simp_all

end Ap

end VibeKernel

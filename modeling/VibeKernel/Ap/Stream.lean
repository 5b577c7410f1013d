import VibeKernel.Ap.Machine

/-!
# The BSP's program

`run_ap_request_stream` and what it calls, one access of the shared memory at a time.

What only the BSP writes while it runs (a slot's request header, the history) is read together
with the store or the decision that uses it. Every other field is read on its own, as often as
the source reads it. The wait for an event between two passes touches nothing that the AP touches,
so only its answer is modelled: one loop, or the timer step.
-/

namespace VibeKernel

open Conc

/-- The locals of `run_ap_request_stream` that live through its loop. -/
structure StreamLocals where
  active : SlotIndex → Bool := fun _ => false
  nextPlan : Nat := 0
  completedCount : Nat := 0
  counterBase : UInt32
  stopped : Bool := false
  waitLoops : UInt32 := 0

/-- The locals of `run_ap_broadcast_ping` that live through its loop. -/
structure PingLocals where
  /-- The context is `request_target`. -/
  isTarget : Bool
  targetHandledCount : UInt32
  targetCounterValue : UInt32
  active : Bool
  waitLoops : UInt32 := 0

/-- Where the BSP stands between two pieces of its code. -/
inductive BspPc
  /-- Between two calls. -/
  | next
  | streamLoop (plan : List ApRequestPlan) (l : StreamLocals)
  | streamReturned (plan : List ApRequestPlan) (l : StreamLocals) (result : Bool)
  | pingLoop (l : PingLocals)

def allSlots : List SlotIndex := List.finRange apRequestSlotCount

/-! ## Publishing -/

def storeSlot (i : SlotIndex) (ws : List SlotStore) : Prog Machine Unit :=
  .forEach ws fun w => .store fun s => s.setSlot i w.apply

/-- `reset_ap_inbox_slot`. -/
def resetApInboxSlot (i : SlotIndex) : Prog Machine Unit := do
  storeSlot i resetApRequestSlot
  .forEach resetApRequestOutbox fun w => .store fun s => s.setOutbox i w

/-- The store that ends a publication. -/
def publishState (i : SlotIndex) (plan : ApRequestPlan) (st : ApRequestStatus) (s : Machine) :
    Machine :=
  (s.setState i st).note (.published (s.log.publications + 1) i plan st)

/-- `boot->error != AP_BOOT_OK || !boot->online`. -/
def apBarred : Prog Machine Bool := do
  let error ← .load fun s => s.error
  if error ≠ .ok then pure true
  else .load fun s => !s.online

/-- `publish_ap_inbox_request`. -/
def publishApInboxRequest (b : Build) (i : SlotIndex) (plan : ApRequestPlan) :
    Prog Machine Unit := do
  resetApInboxSlot i
  storeSlot i (prepareApRequestSlotFromPlan (b.apContextIndex + 1) plan)
  let st ← .load fun s => s.apState
  if st = .faulted then do
    let v ← .load fun s => s.faultVector
    .store fun s => s.setReply i fun r => { r with faultCode := v.toUInt32 }
    .store (publishState i plan .fault)
  else do
    let barred ← apBarred
    if barred then .store (publishState i plan .skipped)
    else do
      let st ← .load fun s => s.apState
      if st = .halted then .store (publishState i plan .skipped)
      else .store (publishState i plan .pending)

/-- `ap_request_stream_should_stop`. -/
def apRequestStreamShouldStop : Prog Machine Bool := do
  let st ← .load fun s => s.apState
  if st = .faulted then pure true
  else do
    let st ← .load fun s => s.apState
    pure (st == .halted)

/-! ## Taking a request back -/

/-- `record_ap_request_history`. -/
def recordApRequestHistory (index : Nat) (i : SlotIndex) (counterValue : UInt32) :
    Prog Machine Unit :=
  if h : index < apRequestHistoryCount then do
    .forEach copyApRequestSlot fun c => .store fun s =>
      s.setHistory ⟨index, h⟩ fun e => { e with request := c (s.slots i) e.request }
    .store fun s => s.setHistory ⟨index, h⟩ fun e => { e with counterValue := counterValue }
    .store fun s => s.setHistory ⟨index, h⟩ fun e => { e with slot := i.val.toUInt32 + 1 }
    .store fun s => s.setHistory ⟨index, h⟩ fun e => { e with valid := true }
  else pure ()

/-- The condition of `record_ap_stream_slot`. -/
def countsAsIncrement (i : SlotIndex) : Prog Machine Bool := do
  let isIncrement ← .load fun s => apRequestIsCounterIncrement (s.slots i).request
  if isIncrement then do
    let st ← .load fun s => (s.slots i).state
    if st = .done then do
      let faultCode ← .load fun s => (s.slots i).reply.faultCode
      pure (faultCode == 0)
    else pure false
  else pure false

/-- `record_ap_stream_slot`, with the counter value it leaves. -/
def recordApStreamSlot (index : Nat) (i : SlotIndex) (counterValue : UInt32) :
    Prog Machine UInt32 := do
  let counts ← countsAsIncrement i
  let counterValue := if counts then counterValue + 1 else counterValue
  recordApRequestHistory index i counterValue
  pure counterValue

/-- The store of `wait_loops` in `finish_ap_stream_slot`. -/
def finishStore (i : SlotIndex) (waitLoops : UInt32) (s : Machine) : Machine :=
  let s' := s.setMetrics i fun m => { m with waitLoops := waitLoops }
  s'.note (.finished (s.log.latest i) i (s'.slots i))

/-- `finish_ap_stream_slot`. -/
def finishApStreamSlot (l : StreamLocals) (i : SlotIndex) (waitLoops : UInt32) :
    Prog Machine (StreamLocals × Bool) := do
  let st ← .swap fun s => ((s.slots i).state, s.note (.inspected i (s.slots i).state))
  if !l.active i || !st.finished then pure (l, false)
  else do
    .store (finishStore i waitLoops)
    let counterValue ← recordApStreamSlot l.completedCount i l.counterBase
    pure ({ l with counterBase := counterValue, active := Function.update l.active i false,
                   completedCount := l.completedCount + 1 }, st == .done)

/-- `ap_stream_finished_slot_order`. -/
def apStreamFinishedSlotOrder (i : SlotIndex) : Prog Machine UInt32 := do
  let st ← .load fun s => (s.slots i).state
  let handled ← (if st = .done then .load fun s => (s.slots i).metrics.handledCount else pure 0)
  if handled ≠ 0 then .load fun s => (s.slots i).metrics.handledCount
  else pure (0x80000000 + i.val.toUInt32)

/-- `ap_stream_has_earlier_finished_slot`. -/
def apStreamHasEarlierFinishedSlot (active : SlotIndex → Bool) (i : SlotIndex) :
    Prog Machine Bool := do
  let slotOrder ← apStreamFinishedSlotOrder i
  .someOf allSlots fun j =>
    if j = i ∨ active j = false then pure false
    else do
      let st ← .load fun s => (s.slots j).state
      if st.finished then do
        let order ← apStreamFinishedSlotOrder j
        pure (decide (order < slotOrder))
      else pure false

/-- `stop_ap_request_stream` on one slot. -/
def stopSlot (waitLoops : UInt32) (i : SlotIndex) : Prog Machine Unit := do
  let st ← .load fun s => (s.slots i).state
  if st.finished then pure ()
  else do
    .store fun s => s.setMetrics i fun m => { m with waitLoops := waitLoops }
    let ap ← .load fun s => s.apState
    if ap = .faulted ∧ st = .running then do
      let v ← .load fun s => s.faultVector
      .store fun s => s.setReply i fun r => { r with faultCode := v.toUInt32 }
      .store fun s => s.setState i .fault
    else if st = .pending then .store fun s => s.setState i .skipped
    else pure ()

/-- `stop_ap_request_stream`. -/
def stopApRequestStream (l : StreamLocals) : Prog Machine Unit :=
  .forEach allSlots fun i => if l.active i then stopSlot l.waitLoops i else pure ()

/-- `ap_request_stream_has_finished_slot`. -/
def apRequestStreamHasFinishedSlot (l : StreamLocals) : Prog Machine Bool :=
  .someOf allSlots fun i =>
    if l.active i then .load fun s => (s.slots i).state.finished else pure false

/-- `ap_request_all_done`. -/
def apRequestAllDone : Prog Machine Bool :=
  .allOf allSlots fun i => .load fun s => (s.slots i).state == .done

/-- `active_ap_request_slot_count`. -/
def activeApRequestSlotCount (active : SlotIndex → Bool) : Nat :=
  allSlots.countP fun i => active i

/-- `advance_ap_request_wait_loops`. -/
def advanceApRequestWaitLoops (b : Build) (waitLoops step : UInt32) : UInt32 :=
  if b.apRequestTimeoutLoops - waitLoops ≤ step then b.apRequestTimeoutLoops
  else waitLoops + step

/-! ## `run_ap_request_stream` -/

/-- `publish_ap_stream_slot` for the next request of the plan, if there is one. -/
def publishNext (b : Build) (plan : List ApRequestPlan) (l : StreamLocals) (i : SlotIndex) :
    Prog Machine StreamLocals :=
  match plan[l.nextPlan]? with
  | none => pure l
  | some request => do
    publishApInboxRequest b i request
    pure { l with active := Function.update l.active i true, nextPlan := l.nextPlan + 1 }

/-- The refill of a slot that was just taken back. -/
def refillSlot (b : Build) (plan : List ApRequestPlan) (l : StreamLocals) (i : SlotIndex)
    (done : Bool) : Prog Machine StreamLocals :=
  if done ∧ l.stopped = false ∧ l.waitLoops < b.apRequestTimeoutLoops ∧ l.nextPlan < plan.length
  then do
    let stop ← apRequestStreamShouldStop
    if stop then pure { l with stopped := true }
    else publishNext b plan l i
  else pure l

/-- What follows `finish_ap_stream_slot` in a pass. -/
def afterFinish (b : Build) (plan : List ApRequestPlan) (l : StreamLocals) (i : SlotIndex)
    (done : Bool) : Prog Machine StreamLocals :=
  refillSlot b plan { l with stopped := l.stopped || (!l.active i && !done) } i done

/-- One slot of one pass. The visit proper ends with `finish_ap_stream_slot`. -/
def visitSlot (b : Build) (plan : List ApRequestPlan) (l : StreamLocals) (i : SlotIndex) :
    Prog Machine StreamLocals :=
  if l.active i = false then pure l
  else do
    let st ← .swap fun s => ((s.slots i).state, s.note (.visited i (s.slots i).state))
    let deferred ← (if st.finished then apStreamHasEarlierFinishedSlot l.active i else pure false)
    if deferred then do
      .store fun s => s.note .visitEnded
      pure l
    else do
      let r ← finishApStreamSlot l i l.waitLoops
      .store fun s => s.note .visitEnded
      afterFinish b plan r.1 i r.2

/-- The two cmpxchgs that give up on a slot in state `st`. -/
def timeOutSlot (b : Build) (i : SlotIndex) (st : ApRequestStatus) : Prog Machine Unit :=
  if st.finished then pure ()
  else do
    .store fun s => s.setMetrics i fun m => { m with waitLoops := b.apRequestTimeoutLoops }
    let ok ← .swap (cmpxchgState i .pending .timeout)
    if ok then pure ()
    else do
      let _ ← .swap (cmpxchgState i .running .timeout)
      pure ()

/-- `finish_timed_out_ap_stream_slots` on one slot. -/
def finishTimedOutSlot (b : Build) (l : StreamLocals) (i : SlotIndex) :
    Prog Machine StreamLocals :=
  if l.active i = false then pure l
  else do
    let st ← .swap fun s => ((s.slots i).state, s.note (.overdue i))
    timeOutSlot b i st
    let r ← finishApStreamSlot l i b.apRequestTimeoutLoops
    pure r.1

/-- What `run_ap_request_stream` does after its loop. -/
def streamEpilogue (b : Build) (plan : List ApRequestPlan) (l : StreamLocals) :
    Prog Machine BspPc := do
  let l ← .foldOver allSlots l (finishTimedOutSlot b)
  let result ← (if l.completedCount = plan.length then apRequestAllDone else pure false)
  pure (.streamReturned plan l result)

/-- What a pass ends with: out of the loop, or into the next round. -/
def streamDecide (b : Build) (plan : List ApRequestPlan) (l : StreamLocals) :
    Prog Machine BspPc :=
  if (plan.length ≤ l.nextPlan ∨ l.stopped) ∧ activeApRequestSlotCount l.active = 0 then
    streamEpilogue b plan l
  else if l.stopped then do
    let more ← apRequestStreamHasFinishedSlot l
    if more then pure (.streamLoop plan l)
    else if b.apRequestTimeoutLoops ≤ l.waitLoops then streamEpilogue b plan l
    else pure (.streamLoop plan { l with waitLoops := advanceApRequestWaitLoops b l.waitLoops 1 })
  else if b.apRequestTimeoutLoops ≤ l.waitLoops then streamEpilogue b plan l
  else do
    -- `bsp_wait_for_ap_request_event`
    let timer ← .any Bool
    let step := if timer then b.bspWaitTimerTimeoutStep else 1
    pure (.streamLoop plan { l with waitLoops := advanceApRequestWaitLoops b l.waitLoops step })

/-- One round of the loop of `run_ap_request_stream`. -/
def streamRound (b : Build) (plan : List ApRequestPlan) (l : StreamLocals) :
    Prog Machine BspPc := do
  let stop ← apRequestStreamShouldStop
  let l := { l with stopped := l.stopped || stop }
  (if stop then stopApRequestStream l else pure ())
  let l ← .foldOver allSlots l (visitSlot b plan)
  (if l.stopped then stopApRequestStream l else pure ())
  streamDecide b plan l

/-- `reset_ap_queue_summary`. -/
def resetApQueueSummary : Prog Machine Unit := do
  .store fun s => { s with queueSummary.currentSlot := 0 }
  .store fun s => { s with queueSummary.handledCount := 0 }
  .store fun s => { s with queueSummary.lastSlot := 0 }
  .store fun s => { s with queueSummary.lastState := .empty }
  .store fun s => { s with queueSummary.stopReason := .none }
  .store fun s => { s with queueSummary.plannedCount := apRequestSlotCount.toUInt32 }

/-- `reset_ap_request_history`. -/
def resetApRequestHistory : Prog Machine Unit :=
  .forEach (List.finRange apRequestHistoryCount) fun k => do
    .forEach resetApRequestSlot fun w => .store fun s =>
      s.setHistory k fun e => { e with request := w.apply e.request }
    .store fun s => s.setHistory k fun e => { e with counterValue := 0 }
    .store fun s => s.setHistory k fun e => { e with slot := 0 }
    .store fun s => s.setHistory k fun e => { e with valid := false }

/-- `run_ap_request_stream` up to its loop. -/
def runApRequestStream (b : Build) (plan : List ApRequestPlan) : Prog Machine BspPc := do
  let counterBase ← .swap fun s => (s.counterValue, s.note (.streamBegan plan s.counterValue))
  resetApQueueSummary
  resetApRequestHistory
  .store fun s => { s with queueSummary.plannedCount := plan.length.toUInt32 }
  .forEach allSlots resetApInboxSlot
  let l : StreamLocals := { counterBase }
  let stop ← apRequestStreamShouldStop
  if stop then do
    let st ← .load fun s => s.apState
    .store fun s => { s with queueSummary.stopReason := if st = .faulted then .fault else .badOp }
    pure (.streamReturned plan l false)
  else do
    let l ← .foldOver allSlots l (publishNext b plan)
    pure (.streamLoop plan l)

end VibeKernel

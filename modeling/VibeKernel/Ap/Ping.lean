import VibeKernel.Ap.Loop
import VibeKernel.Ap.Stream

/-!
# The broadcast ping, and the whole system

`run_ap_broadcast_ping` as one context sees it: `contexts` has this context only, and
`request_target` is this context or not.

The system is the AP and the BSP taking turns. The AP can fault at any access. The BSP can go on to
any further call when one returns.
-/

namespace VibeKernel

open Conc

/-- `AP_BROADCAST_PING_SLOT_INDEX`. -/
def apBroadcastPingSlotIndex : SlotIndex := 0

/-- `broadcast_ping_plan`. -/
def broadcastPingPlan (b : Build) : ApRequestPlan where
  opcode := apRequestOpPing
  serviceId := apRequestServicePing
  interfaceId := apRequestInterfacePing
  sequence := 0xb000 + b.apContextIndex

/-- `ap_context_can_accept_broadcast_ping`. -/
def apContextCanAcceptBroadcastPing : Prog Machine Bool :=
  .allOf [fun s => s.error == .ok, fun s => s.online, fun s => s.apState != .halted,
      fun s => s.apState != .faulted] .load

/-- `ap_broadcast_ping_result_ok`. -/
def apBroadcastPingResultOk (i : SlotIndex) : Prog Machine Bool :=
  .allOf [fun s => (s.slots i).state == .done,
      fun s => (s.slots i).request.opcode == apRequestOpPing,
      fun s => (s.slots i).request.serviceId == apRequestServicePing,
      fun s => (s.slots i).request.interfaceId == apRequestInterfacePing,
      fun s => (s.slots i).reply.resultCode == 0,
      fun s => (s.slots i).reply.faultCode == 0,
      fun s => (s.slots i).request.idHigh == (s.slots i).reply.requestIdHigh,
      fun s => (s.slots i).request.idLow == (s.slots i).reply.requestIdLow] .load

/-- `record_ap_broadcast_ping_result`. -/
def recordApBroadcastPingResult (i : SlotIndex) (waitLoops : UInt32) : Prog Machine Unit := do
  .forEach [fun s => { s.pingSummary with entry.valid := true },
      fun s => { s.pingSummary with entry.apicId := s.targetApicId },
      fun s => { s.pingSummary with entry.state := (s.slots i).state },
      fun s => { s.pingSummary with entry.resultCode := (s.slots i).reply.resultCode },
      fun s => { s.pingSummary with entry.faultCode := (s.slots i).reply.faultCode },
      fun s => { s.pingSummary with entry.waitLoops := waitLoops },
      fun s => { s.pingSummary with completedCount := s.pingSummary.completedCount + 1 }]
    fun (w : Machine → ApBroadcastPingSummary) => .store fun s => { s with pingSummary := w s }
  let ok ← apBroadcastPingResultOk i
  if ok then
    .store fun s => { s with pingSummary.okCount := s.pingSummary.okCount + 1 }
  else
    .store fun s => { s with pingSummary.failCount := s.pingSummary.failCount + 1 }

/-- `timeout_ap_broadcast_ping_slot`. -/
def timeoutApBroadcastPingSlot (b : Build) (i : SlotIndex) : Prog Machine Unit := do
  .store fun s => s.setMetrics i fun m => { m with waitLoops := b.apRequestTimeoutLoops }
  let st ← .load fun s => (s.slots i).state
  if st.finished then pure ()
  else do
    let ok ← .swap (cmpxchgState i .pending .timeout)
    if ok then pure ()
    else do
      let _ ← .swap (cmpxchgState i .running .timeout)
      pure ()

/-- What `run_ap_broadcast_ping` does to a context that is still active after its loop. -/
def timeOutPing (b : Build) : Prog Machine Unit := do
  timeoutApBroadcastPingSlot b apBroadcastPingSlotIndex
  recordApBroadcastPingResult apBroadcastPingSlotIndex b.apRequestTimeoutLoops

/-- The stores that put the target's counters back. -/
def restoreTarget (l : PingLocals) : Prog Machine Unit :=
  if l.isTarget then do
    .store fun s => { s with requestHandledCount := l.targetHandledCount }.note .restored
    .store fun s => { s with counterValue := l.targetCounterValue }.note .restored
  else pure ()

/-- One round of the loop of `run_ap_broadcast_ping`, or what follows it. -/
def pingRound (b : Build) (l : PingLocals) : Prog Machine BspPc :=
  if l.active ∧ l.waitLoops < b.apRequestTimeoutLoops then do
    let st ← .load fun s => (s.slots apBroadcastPingSlotIndex).state
    if st.finished then do
      .store fun s =>
        s.setMetrics apBroadcastPingSlotIndex fun m => { m with waitLoops := l.waitLoops }
      recordApBroadcastPingResult apBroadcastPingSlotIndex l.waitLoops
      pure (.pingLoop { l with active := false })
    else do
      -- `bsp_wait_for_ap_request_event`
      let timer ← .any Bool
      let step := if timer then b.bspWaitTimerTimeoutStep else 1
      pure (.pingLoop { l with waitLoops := advanceApRequestWaitLoops b l.waitLoops step })
  else do
    (if l.active then timeOutPing b else pure ())
    restoreTarget l
    pure .next

/-- The publication of `run_ap_broadcast_ping`. -/
def publishPing (b : Build) : Prog Machine Unit := do
  publishApInboxRequest b apBroadcastPingSlotIndex (broadcastPingPlan b)
  .store fun s => { s with pingSummary.plannedCount := s.pingSummary.plannedCount + 1 }

/-- `run_ap_broadcast_ping` up to its loop. -/
def runApBroadcastPing (b : Build) (isTarget : Bool) : Prog Machine BspPc := do
  let handled ← (if isTarget then .load fun s => s.requestHandledCount else pure 0)
  let counter ← (if isTarget then .load fun s => s.counterValue else pure 0)
  .store fun s => { s with pingSummary := {} }
  let accepts ← apContextCanAcceptBroadcastPing
  (if accepts then publishPing b else pure ())
  pure (.pingLoop { isTarget, targetHandledCount := handled, targetCounterValue := counter,
                    active := accepts })

/-! ## The system -/

/-- A call the BSP makes on the context. -/
inductive BspCall
  | ping (isTarget : Bool)
  | stream (plan : List ApRequestPlan)
deriving Inhabited

def runCall (b : Build) : BspCall → Prog Machine BspPc
  | .ping isTarget => runApBroadcastPing b isTarget
  | .stream plan => runApRequestStream b plan

/-- What runs from each point. With `again`, the BSP makes one call after another. -/
def bspBody (b : Build) (again : Bool) : BspPc → Option (Prog Machine BspPc)
  | .next => if again then some (.any BspCall >>= runCall b) else none
  | .streamLoop plan l => some (streamRound b plan l)
  | .streamReturned _ _ _ => if again then some (pure .next) else none
  | .pingLoop l => some (pingRound b l)

inductive Cpu
  | ap
  | bsp
deriving DecidableEq

/-- One AP and the BSP on one context. -/
def apSystem (b : Build) (again : Bool) : System Cpu Machine where
  PC
    | .ap => ApPc
    | .bsp => BspPc
  body
    | .ap => apBody b
    | .bsp => bspBody b again
  Trap
    | .ap => FaultFrame
    | .bsp => Empty
  enter
    | .ap => enterFault
    | .bsp => fun x => x.elim
  trap
    | .ap => apFaultDispatch
    | .bsp => fun x => x.elim

/-- A configuration from its parts. -/
def apConfig (b : Build) (again : Bool) (s : Machine) (ap : Prog Machine ApPc)
    (bsp : Prog Machine BspPc) : (apSystem b again).Config where
  mem := s
  prog
    | .ap => ap
    | .bsp => bsp

end VibeKernel

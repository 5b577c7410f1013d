import VibeKernel.Ap.Ping
import VibeKernel.Conc.Part
import VibeKernel.Cpu.Lapic
import VibeKernel.Cpu.Tables

/-!
# Waiting for each other

An idle AP halts until an interrupt, and so does the BSP between two looks at the slots. The BSP
kicks the AP with an IPI after it published, the AP tells the BSP that it completed a request, and
each of them starts a timer before it halts, in case nobody does.

The memory is one context and, for each processor, its LAPIC and its interrupt flag. `lidt` comes behind
a `cli`, and from then on interrupts are on in three windows only: in `sti; nop; pause; cli`, in
`sti; hlt; cli`, and on the BSP in `sti; drain_ap_request_ipis(); cli`, with which the stream and the
broadcast ping end. An interrupt that is taken there returns into the window.

## The processors

The AP runs `ap_request_loop` as in `apBody`, with what it does between two scans. The BSP calls, in
any order, the parts that `run_ap_request_stream` and `run_ap_broadcast_ping` are made of. The
hardware lets the timers tick and the IPIs arrive. Which stub an interrupt runs is read off the gates
of the two IDTs.

## Left out

Faults: an AP that has faulted never comes back to its idle loop. The wait for the ICR has any
answer. Which APIC id an IPI is sent to is left out, it is that of the other processor. The window of
`drain_ap_request_ipis` stays open for as long as it likes.
-/

namespace VibeKernel.Idle

open Conc Apic

def apRequestKickIpiVector : UInt8 := 0xf0
def apRequestIpiVector : UInt8 := 0xf1
def apIdleTimerVector : UInt8 := 0xf2
def apIdleTimerInitialCount : UInt32 := 1000000
def bspWaitTimerVector : UInt8 := 0xf3
def bspWaitTimerInitialCount : UInt32 := 1000000
def lapicSpuriousVector : UInt8 := 0xff
def lapicLvtMasked : UInt32 := 0x10000

/-! ## The memory -/

/-- Where an interrupt returns to: into `sti; nop; pause; cli`, behind the `hlt` of `sti; hlt; cli`, or
into the loop of `drain_ap_request_ipis`. The local of `bsp_wait_for_ap_request_event` lives through the
first two. -/
inductive Resume
  | paused (timerCountBefore : UInt32)
  | awake (timerCountBefore : UInt32)
  | draining
deriving DecidableEq

/-- A processor, as far as interrupts are concerned. -/
structure IdleCpu where
  lapic : Lapic := {}
  /-- The window that the processor is in, which is where it takes interrupts. -/
  window : Option Resume := none
  halted : Bool := false

/-- `interrupt_trace_t`. -/
structure InterruptTrace where
  vector : UInt32 := 0
  count : UInt32 := 0
  rip : UInt64 := 0
  cs : UInt64 := 0
  rflags : UInt64 := 0

/-- `ap_interrupt_observe_t`, of the request target. -/
structure ApInterruptObserve where
  kickIpi : InterruptTrace := {}
  completionIpi : InterruptTrace := {}
  idleTimerCount : UInt32 := 0

/-- `bsp_wait_observe_t`. -/
structure BspWaitObserve where
  haltCount : UInt32 := 0
  wakeCount : UInt32 := 0
  timerCount : UInt32 := 0

/-- The counters of `ap_context_t` that only the idle loop and the IPIs use. -/
structure IdleCounts where
  idleHaltCount : UInt32 := 0
  idleWakeCount : UInt32 := 0
  requestIpiSendCount : UInt32 := 0
  requestIpiSendFailCount : UInt32 := 0
  requestKickIpiSendCount : UInt32 := 0
  requestKickIpiSendFailCount : UInt32 := 0

structure IdleMemory where
  ctx : Machine
  cpus : Cpu → IdleCpu
  /-- `ap_context_is_request_target`. -/
  isTarget : Bool := false
  /-- The IPIs that were sent to a processor and have not arrived. -/
  bus : Cpu → List UInt8 := fun _ => []
  /-- The kick for what was last published in the slot has been sent. -/
  kicked : SlotIndex → Bool := fun _ => false
  counts : IdleCounts := {}
  interrupts : ApInterruptObserve := {}
  bspWait : BspWaitObserve := {}
  spurious : InterruptTrace := {}

namespace IdleMemory

def setCpu (s : IdleMemory) (c : Cpu) (f : IdleCpu → IdleCpu) : IdleMemory :=
  { s with cpus := Function.update s.cpus c (f (s.cpus c)) }

abbrev setLapic (s : IdleMemory) (c : Cpu) (f : Lapic → Lapic) : IdleMemory :=
  s.setCpu c fun p => { p with lapic := f p.lapic }

def send (s : IdleMemory) (c : Cpu) (v : UInt8) : IdleMemory :=
  { s with bus := Function.update s.bus c (v :: s.bus c) }

end IdleMemory

/-- The context in the memory. -/
def ctxPart : Part IdleMemory Machine where
  get s := s.ctx
  put m s := { s with ctx := m }
  get_put _ _ := rfl
  put_get _ := rfl
  put_put _ _ _ := rfl

/-- Code that works on the context only. -/
abbrev onCtx {α : Type} (p : Prog Machine α) : Prog IdleMemory α := p.onPart ctxPart

/-! ## The LAPIC -/

/-- `lapic_write32` to the LAPIC of processor `c`. -/
def lapicWrite32 (c : Cpu) (reg value : UInt32) : Prog IdleMemory Unit :=
  .store fun s => s.setLapic c (Lapic.write32 reg value)

/-- `enable_lapic_if_needed`. -/
def enableLapicIfNeeded (c : Cpu) : Prog IdleMemory Unit := do
  let svr ← .load fun s => (s.cpus c).lapic.spurious
  let desired := (svr &&& 0xffffff00) ||| 0x100 ||| lapicSpuriousVector.toUInt32
  if svr ≠ desired then lapicWrite32 c 0xf0 desired else pure ()

/-- `lapic_send_ipi`. `mark` notes that the IPI is on its way. -/
def lapicSendIpi (target : Cpu) (v : UInt8) (mark : IdleMemory → IdleMemory) :
    Prog IdleMemory Bool := do
  let busy ← .any Bool
  if busy then pure false
  else do
    .store fun s => mark (s.send target v)
    let busy ← .any Bool
    pure (!busy)

/-- `ap_disarm_idle_timer` and `bsp_disarm_wait_timer`. -/
def disarmTimer (base : UInt64) (c : Cpu) (v : UInt8) : Prog IdleMemory Unit :=
  if base = 0 then pure ()
  else do
    lapicWrite32 c 0x380 0
    lapicWrite32 c 0x320 (v.toUInt32 ||| lapicLvtMasked)

/-- The three stores of `ap_arm_idle_timer` and `bsp_arm_wait_timer`. -/
def startTimer (c : Cpu) (v : UInt8) (count : UInt32) : Prog IdleMemory Unit := do
  lapicWrite32 c 0x3e0 3
  lapicWrite32 c 0x320 v.toUInt32
  lapicWrite32 c 0x380 count

/-- `ap_disarm_idle_timer`. -/
def apDisarmIdleTimer (base : UInt64) : Prog IdleMemory Unit := disarmTimer base .ap apIdleTimerVector

/-- `bsp_disarm_wait_timer`. -/
def bspDisarmWaitTimer (base : UInt64) : Prog IdleMemory Unit :=
  disarmTimer base .bsp bspWaitTimerVector

/-- `ap_arm_idle_timer`. -/
def apArmIdleTimer (base : UInt64) : Prog IdleMemory Bool :=
  if base = 0 then pure false
  else do
    startTimer .ap apIdleTimerVector apIdleTimerInitialCount
    pure true

/-- `bsp_arm_wait_timer`. -/
def bspArmWaitTimer (base : UInt64) : Prog IdleMemory Bool :=
  if base = 0 then pure false
  else do
    enableLapicIfNeeded .bsp
    startTimer .bsp bspWaitTimerVector bspWaitTimerInitialCount
    pure true

/-! ## Windows -/

/-- `sti; hlt`. The processor takes no interrupt between the two. -/
def stiHlt (c : Cpu) (timerCountBefore : UInt32) : Prog IdleMemory Unit :=
  .store fun s => s.setCpu c fun p =>
    { p with window := some (.awake timerCountBefore), halted := true }

/-- `sti; nop`. -/
def stiNop (c : Cpu) (timerCountBefore : UInt32) : Prog IdleMemory Unit :=
  .store fun s => s.setCpu c fun p => { p with window := some (.paused timerCountBefore) }

/-- `sti`, with `drain_ap_request_ipis` behind it. -/
def stiDrain (c : Cpu) : Prog IdleMemory Unit :=
  .store fun s => s.setCpu c fun p => { p with window := some .draining }

/-- `cli`. -/
def cli (c : Cpu) : Prog IdleMemory Unit :=
  .store fun s => s.setCpu c fun p => { p with window := none }

/-! ## Notifications -/

/-- `ap_notify_bsp_request_complete`. -/
def apNotifyBspRequestComplete (base : UInt64) : Prog IdleMemory Unit :=
  if base = 0 then pure ()
  else do
    enableLapicIfNeeded .ap
    let sent ← lapicSendIpi .bsp apRequestIpiVector id
    if sent then .store fun s =>
      { s with counts.requestIpiSendCount := s.counts.requestIpiSendCount + 1 }
    else .store fun s =>
      { s with counts.requestIpiSendFailCount := s.counts.requestIpiSendFailCount + 1 }

/-- The kick for slot `i` has been sent. -/
def markKicked (i : SlotIndex) (s : IdleMemory) : IdleMemory :=
  { s with kicked := Function.update s.kicked i true }

/-- `boot->ap_state == AP_BOOT_STATE_HALTED || boot->ap_state == AP_BOOT_STATE_FAULTED`. -/
def apDown : Prog Machine Bool := do
  let st ← .load fun s => s.apState
  if st = .halted then pure true
  else do
    let st ← .load fun s => s.apState
    pure (st == .faulted)

/-- `bsp_notify_ap_request_pending`, for what was published in slot `i`. -/
def bspNotifyApRequestPending (base : UInt64) (i : SlotIndex) : Prog IdleMemory Unit := do
  let barred ← (if base = 0 then pure true else onCtx apBarred)
  let down ← (if barred then pure true else onCtx apDown)
  if down then pure ()
  else do
    enableLapicIfNeeded .bsp
    let sent ← lapicSendIpi .ap apRequestKickIpiVector (markKicked i)
    if sent then .store fun s =>
      { s with counts.requestKickIpiSendCount := s.counts.requestKickIpiSendCount + 1 }
    else .store fun s =>
      { s with counts.requestKickIpiSendFailCount := s.counts.requestKickIpiSendFailCount + 1 }

/-- The store of `PENDING` in `publish_ap_inbox_request`. -/
def publishPending (i : SlotIndex) (plan : ApRequestPlan) (s : IdleMemory) : IdleMemory :=
  { s with ctx := publishState i plan .pending s.ctx, kicked := Function.update s.kicked i false }

/-- `publish_ap_inbox_request`, with its `send_kick`. -/
def publishApInboxRequest (b : Build) (base : UInt64) (i : SlotIndex) (plan : ApRequestPlan)
    (sendKick : Bool) : Prog IdleMemory Unit := do
  onCtx (resetApInboxSlot i)
  onCtx (storeSlot i (prepareApRequestSlotFromPlan (b.apContextIndex + 1) plan))
  let st ← .load fun s => s.ctx.apState
  if st = .faulted then do
    let v ← .load fun s => s.ctx.faultVector
    onCtx (.store fun s => s.setReply i fun r => { r with faultCode := v.toUInt32 })
    onCtx (.store (publishState i plan .fault))
  else do
    let barred ← onCtx apBarred
    if barred then onCtx (.store (publishState i plan .skipped))
    else do
      let st ← .load fun s => s.ctx.apState
      if st = .halted then onCtx (.store (publishState i plan .skipped))
      else do
        .store (publishPending i plan)
        if sendKick then bspNotifyApRequestPending base i else pure ()

/-! ## Interrupts -/

/-- What the processor pushes, as far as the handlers look at it. -/
structure InterruptFrame where
  rip : UInt64
  cs : UInt64
  rflags : UInt64

/-- The stores of a handler to its trace. -/
def storeTrace (f : (InterruptTrace → InterruptTrace) → IdleMemory → IdleMemory) (vector : UInt32)
    (frame : InterruptFrame) : Prog IdleMemory Unit := do
  .store (f fun t => { t with rip := frame.rip })
  .store (f fun t => { t with cs := frame.cs })
  .store (f fun t => { t with rflags := frame.rflags })
  .store (f fun t => { t with vector := vector })
  .store (f fun t => { t with count := t.count + 1 })

/-- The store to the EOI register. -/
def sendEoi (base : UInt64) (c : Cpu) : Prog IdleMemory Unit :=
  if base = 0 then pure () else lapicWrite32 c 0xb0 0

/-- `isr_ap_request_kick_ipi`. -/
def isrApRequestKickIpi (base : UInt64) (c : Cpu) (frame : InterruptFrame) :
    Prog IdleMemory Unit := do
  storeTrace (fun f s => { s with interrupts.kickIpi := f s.interrupts.kickIpi }) 0xf0 frame
  sendEoi base c

/-- `isr_ap_request_ipi`. -/
def isrApRequestIpi (base : UInt64) (c : Cpu) (frame : InterruptFrame) : Prog IdleMemory Unit := do
  storeTrace (fun f s => { s with interrupts.completionIpi := f s.interrupts.completionIpi }) 0xf1
    frame
  sendEoi base c

/-- `isr_ap_idle_timer`. -/
def isrApIdleTimer (base : UInt64) (c : Cpu) : Prog IdleMemory Unit := do
  .store fun s => { s with interrupts.idleTimerCount := s.interrupts.idleTimerCount + 1 }
  sendEoi base c

/-- `isr_bsp_wait_timer`. -/
def isrBspWaitTimer (base : UInt64) (c : Cpu) : Prog IdleMemory Unit := do
  .store fun s => { s with bspWait.timerCount := s.bspWait.timerCount + 1 }
  sendEoi base c

/-- `isr_spurious_interrupt`. It sends no EOI. -/
def isrSpuriousInterrupt (frame : InterruptFrame) : Prog IdleMemory Unit :=
  storeTrace (fun f s => { s with spurious := f s.spurious }) 0xff frame

/-- The stubs for interrupts. Those of exceptions are left out, and `isr_unhandled` and
`isr_ap_unhandled` never return. -/
def runIsr (base : UInt64) (c : Cpu) (frame : InterruptFrame) : Isr → Option (Prog IdleMemory Unit)
  | .apRequestKickIpi => some (isrApRequestKickIpi base c frame)
  | .apRequestIpi => some (isrApRequestIpi base c frame)
  | .apIdleTimer => some (isrApIdleTimer base c)
  | .bspWaitTimer => some (isrBspWaitTimer base c)
  | .spuriousInterrupt => some (isrSpuriousInterrupt frame)
  | _ => none

/-- The gates of the IDT of processor `c`. -/
def gateAt : Cpu → Nat → IdtGate
  | .ap => apGateAt
  | .bsp => bspGateAt

/-- The handler that the gate for `v` in the IDT of processor `c` leads to. -/
def isr (base : UInt64) (c : Cpu) (v : UInt8) (frame : InterruptFrame) :
    Option (Prog IdleMemory Unit) :=
  runIsr base c frame (gateAt c v.toNat).isr

/-- Where a processor stands between two pieces of its code. -/
inductive Point
  /-- The AP at the end of `ap_entry_one`. -/
  | apEntry
  /-- The AP in `ap_request_loop`. -/
  | work (pc : ApPc)
  /-- The BSP between two calls, and the hardware. -/
  | next
  /-- `bsp_wait_for_ap_request_event` returns. -/
  | waited (step : UInt32)
  | paused (timerCountBefore : UInt32)
  | asleep
  /-- Behind a `hlt`, with interrupts on. -/
  | awake (timerCountBefore : UInt32)
  /-- In the loop of `drain_ap_request_ipis`. -/
  | draining
  /-- In `isr_unhandled` or `isr_ap_unhandled`. -/
  | stuck

def Resume.point : Resume → Point
  | paused timerCountBefore => .paused timerCountBefore
  | awake timerCountBefore => .awake timerCountBefore
  | draining => .draining

/-- An interrupt that is taken in a window. A spurious one is not counted as in service. -/
structure Interrupt where
  vector : UInt8
  spurious : Bool
  resume : Resume
  frame : InterruptFrame

/-- The processor takes the interrupt: interrupts are off, and it does not halt any more. -/
def takeInterrupt (c : Cpu) (x : Interrupt) (s : IdleMemory) : Option IdleMemory :=
  if (s.cpus c).window ≠ some x.resume then none
  else if x.spurious then
    if x.vector = lapicSpuriousVector then
      some (s.setCpu c fun p => { p with window := none, halted := false })
    else none
  else if (s.cpus c).lapic.Offers x.vector then
    some (s.setCpu c fun p =>
      { lapic := p.lapic.accept x.vector, window := none, halted := false })
  else none

/-- The handler, and `iretq`. -/
def handleInterrupt (base : UInt64) (c : Cpu) (x : Interrupt) : Prog IdleMemory Point :=
  match isr base c x.vector x.frame with
  | none => pure .stuck
  | some p => do
    p
    .store fun s => s.setCpu c fun p => { p with window := some x.resume }
    pure x.resume.point

/-! ## The AP -/

/-- The end of `ap_entry_one`. -/
def apEntryOne (base : UInt64) : Prog IdleMemory Point := do
  (if base = 0 then pure ()
   else do
    enableLapicIfNeeded .ap
    apDisarmIdleTimer base)
  pure (.work .start)

/-- What `ap_request_loop` does after it handled a slot: it notifies the BSP, unless the slot had been
taken back. A slot that it passed after it handled another one may do for a slot that had been. -/
def afterScan (base : UInt64) : ApPc → Prog IdleMemory Point
  | .scan i true => do
    let takenBack ← .any Bool
    (if takenBack then pure () else apNotifyBspRequestComplete base)
    pure (.work (.scan i true))
  | .halted => do
    apNotifyBspRequestComplete base
    apDisarmIdleTimer base
    pure (.work .halted)
  | pc => pure (.work pc)

/-- The end of a round of `ap_request_loop` in which no slot was handled. -/
def apIdle (base : UInt64) : Prog IdleMemory Point := do
  let target ← .load fun s => s.isTarget
  let armed ← (if target then apArmIdleTimer base else pure false)
  if armed then do
    .store fun s => { s with counts.idleHaltCount := s.counts.idleHaltCount + 1 }
    stiHlt .ap 0
    pure .asleep
  else do
    stiNop .ap 0
    pure (.paused 0)

/-- The rest of the round once the AP is awake. -/
def apWake (base : UInt64) : Prog IdleMemory Point := do
  cli .ap
  apDisarmIdleTimer base
  .store fun s => { s with counts.idleWakeCount := s.counts.idleWakeCount + 1 }
  pure (.work (.scan 0 false))

def apBody (b : Build) (base : UInt64) : Point → Option (Prog IdleMemory Point)
  | .apEntry => some (apEntryOne base)
  | .work .start => some (onCtx apRequestLoopEntry >>= fun pc => pure (.work pc))
  | .work (.scan i handledWork) =>
    if h : i < apRequestSlotCount then
      some (onCtx (scanSlot b ⟨i, h⟩ handledWork) >>= afterScan base)
    else if handledWork then some (pure (.work (.scan 0 false)))
    else some (apIdle base)
  | .paused _ => some (cli .ap >>= fun _ => pure (.work (.scan 0 false)))
  | .awake _ => some (apWake base)
  | _ => none

/-! ## The BSP -/

/-- A part of the BSP's code that works on the context and publishes nothing. -/
inductive BspTask
  | shouldStop
  | stop (l : StreamLocals)
  | hasFinished (l : StreamLocals)
  | hasEarlierFinished (active : SlotIndex → Bool) (i : SlotIndex)
  | allDone
  | finish (l : StreamLocals) (i : SlotIndex) (waitLoops : UInt32)
  | timeOut (i : SlotIndex) (st : ApRequestStatus)
  | reset (i : SlotIndex)
  | resetSummary
  | resetHistory
  | accepts
  | recordPing (i : SlotIndex) (waitLoops : UInt32)
  | timeOutPing (i : SlotIndex)
  | restore (l : PingLocals)

def BspTask.run (b : Build) : BspTask → Prog Machine Unit
  | shouldStop => apRequestStreamShouldStop >>= fun _ => pure ()
  | stop l => stopApRequestStream l
  | hasFinished l => apRequestStreamHasFinishedSlot l >>= fun _ => pure ()
  | hasEarlierFinished active i => apStreamHasEarlierFinishedSlot active i >>= fun _ => pure ()
  | allDone => apRequestAllDone >>= fun _ => pure ()
  | finish l i w => finishApStreamSlot l i w >>= fun _ => pure ()
  | timeOut i st => timeOutSlot b i st
  | reset i => resetApInboxSlot i
  | resetSummary => resetApQueueSummary
  | resetHistory => resetApRequestHistory
  | accepts => apContextCanAcceptBroadcastPing >>= fun _ => pure ()
  | recordPing i w => recordApBroadcastPingResult i w
  | timeOutPing i => timeoutApBroadcastPingSlot b i
  | restore l => restoreTarget l

/-- What the BSP does next. -/
inductive BspStep
  | publish (i : SlotIndex) (plan : ApRequestPlan) (sendKick : Bool)
  | task (t : BspTask)
  /-- `set_ap_request_target_context`, with this context or another one. -/
  | setTarget (isThis : Bool)
  | wait
  /-- Behind the loop of a stream or a broadcast ping. -/
  | drain

instance : Inhabited BspStep := ⟨.wait⟩

/-- `bsp_wait_for_ap_request_event` up to its window. -/
def bspWait (base : UInt64) : Prog IdleMemory Point := do
  let timerCountBefore ← .load fun s => s.bspWait.timerCount
  let armed ← bspArmWaitTimer base
  if armed then do
    .store fun s => { s with bspWait.haltCount := s.bspWait.haltCount + 1 }
    stiHlt .bsp timerCountBefore
    pure .asleep
  else do
    stiNop .bsp timerCountBefore
    pure (.paused timerCountBefore)

/-- The rest of `bsp_wait_for_ap_request_event` once the BSP is awake. -/
def bspWake (b : Build) (base : UInt64) (timerCountBefore : UInt32) : Prog IdleMemory Point := do
  cli .bsp
  bspDisarmWaitTimer base
  .store fun s => { s with bspWait.wakeCount := s.bspWait.wakeCount + 1 }
  let timerCount ← .load fun s => s.bspWait.timerCount
  pure (.waited (if timerCount ≠ timerCountBefore then b.bspWaitTimerTimeoutStep else 1))

/-- `bsp_disarm_wait_timer`, `sti` and `drain_ap_request_ipis`. -/
def bspDrain (base : UInt64) : Prog IdleMemory Point := do
  bspDisarmWaitTimer base
  stiDrain .bsp
  pure .draining

def bspStep (b : Build) (base : UInt64) : BspStep → Prog IdleMemory Point
  | .publish i plan sendKick => publishApInboxRequest b base i plan sendKick >>= fun _ => pure .next
  | .task t => onCtx (t.run b) >>= fun _ => pure .next
  | .setTarget isThis => do
    .store fun s => { s with isTarget := isThis }
    pure .next
  | .wait => bspWait base
  | .drain => bspDrain base

def bspBody (b : Build) (base : UInt64) : Point → Option (Prog IdleMemory Point)
  | .next => some (.any BspStep >>= bspStep b base)
  | .waited _ => some (pure .next)
  | .paused _ => some (cli .bsp >>= fun _ => pure (.waited 1))
  | .awake timerCountBefore => some (bspWake b base timerCountBefore)
  | .draining => some (cli .bsp >>= fun _ => pure .next)
  | _ => none

/-! ## The system -/

/-- What the hardware does by itself. -/
inductive HardwareEvent
  | tick (c : Cpu)
  | arrive (c : Cpu) (v : UInt8)

instance : Inhabited HardwareEvent := ⟨.tick .ap⟩

def hardwareStep : HardwareEvent → IdleMemory → IdleMemory
  | .tick c, s => s.setLapic c Lapic.tick
  | .arrive c v, s =>
    if v ∈ s.bus c then
      { s.setLapic c (Lapic.raise v) with bus := Function.update s.bus c ((s.bus c).erase v) }
    else s

inductive Agent
  | cpu (c : Cpu)
  | hardware
deriving DecidableEq

/-- One AP, the BSP, and the hardware. -/
def idleSystem (b : Build) (base : UInt64) : System Agent IdleMemory where
  PC _ := Point
  body
    | .cpu .ap => apBody b base
    | .cpu .bsp => bspBody b base
    | .hardware => fun _ => some (do
      let e ← .any HardwareEvent
      .store (hardwareStep e)
      pure .next)
  Trap _ := Interrupt
  enter
    | .cpu c => takeInterrupt c
    | .hardware => fun _ _ => none
  trap
    | .cpu c => handleInterrupt base c
    | .hardware => fun _ => pure .next

end VibeKernel.Idle

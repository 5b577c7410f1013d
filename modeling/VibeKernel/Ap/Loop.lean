import VibeKernel.Ap.Machine

/-!
# The AP's program

`ap_request_loop`, the handlers of `ap_services.c` and `ap_fault_dispatch`, one access of the shared
memory at a time.

What only the AP touches while it runs (its scratch outbox, `entry_state`) is read together with
the store that uses it. `n` is the publication that the claim won; it goes into the log and
nowhere else.
-/

namespace VibeKernel

open Conc

/-- Where the AP stands between two pieces of its code. -/
inductive ApPc
  | start
  | scan (i : Nat) (handledWork : Bool)
  /-- In the endless loop of the hang test. -/
  | hung
  /-- At the `ud2` of the fault test. -/
  | ud2
  | halted
  | faulted
deriving DecidableEq, Repr

/-! ## Bookkeeping -/

/-- `ap_queue_note_slot_start`. -/
def apQueueNoteSlotStart (i : SlotIndex) : Prog Machine Unit := do
  .store fun s => { s with queueSummary.currentSlot := i.val.toUInt32 + 1 }
  .store fun s => { s with queueSummary.stopReason := .none }

/-- `ap_queue_all_other_slots_done`. -/
def apQueueAllOtherSlotsDone (current : SlotIndex) : Prog Machine Bool :=
  .allOf (List.finRange apRequestSlotCount) fun i =>
    if i = current then pure true
    else .load fun s => (s.slots i).state == .done

/-- `ap_queue_note_slot_terminal`. -/
def apQueueNoteSlotTerminal (i : SlotIndex) (st : ApRequestStatus) (stopReason : ApQueueStop) :
    Prog Machine Unit := do
  .store fun s => { s with queueSummary.currentSlot := 0 }
  let handled ← .load fun s => s.queueSummary.handledCount
  .store fun s => { s with queueSummary.handledCount := handled + 1 }
  .store fun s => { s with queueSummary.lastSlot := i.val.toUInt32 + 1 }
  .store fun s => { s with queueSummary.lastState := st }
  let drained ← (if stopReason = .none then apQueueAllOtherSlotsDone i else pure false)
  .store fun s => { s with queueSummary.stopReason := if drained then .drained else stopReason }

/-- The copy of the request's id, as `begin_ap_reply` and `ap_fault_dispatch` make it. -/
def copyRequestId (i : SlotIndex) : Prog Machine Unit := do
  let idHigh ← .load fun s => (s.slots i).request.idHigh
  .store fun s => s.setReply i fun r => { r with requestIdHigh := idHigh }
  let idLow ← .load fun s => (s.slots i).request.idLow
  .store fun s => s.setReply i fun r => { r with requestIdLow := idLow }

/-- `begin_ap_reply`. -/
def beginApReply (i : SlotIndex) : Prog Machine Unit := do
  copyRequestId i
  .store fun s => s.setReply i fun r => { r with resultCode := 0 }
  .store fun s => s.setReply i fun r => { r with faultCode := 0 }

/-- The reset of the scratch outbox in `prepare_ap_service_context`. -/
def prepareApServiceContext : Prog Machine Unit :=
  .forEach resetApRequestOutbox fun w =>
    .store fun s => { s with serviceOutbox := w s.serviceOutbox }

/-! ## Handlers -/

/-- `run_ap_request_test_hook`, with where it gets stuck if it does. The ping handler passes
`hang_enabled`. -/
def runApRequestTestHook (b : Build) (h : ApRequestHandler) : Option ApPc :=
  match b.apRequestFaultTest with
  | .none => none
  | .ud2 => some .ud2
  | .hang => if h = .pingRequest then some .hung else none

/-- `ap_service_enqueue_request` for each plan the handler enqueues. The handlers of `ap_services.c`
enqueue none, but the service interface lets a handler enqueue any. -/
def enqueueChildren : Prog Machine Unit := do
  let children ← .any (List ApRequestPlan)
  .forEach children fun plan =>
    .store fun s => { s with serviceOutbox := appendApRequestOutbox s.serviceOutbox plan }

/-- `note_ap_request_handled`. -/
def noteApRequestHandled (n : Nat) (i : SlotIndex) (h : ApRequestHandler) :
    Prog Machine UInt32 := do
  let handled ← .load fun s => s.requestHandledCount
  .store fun s => { s with requestHandledCount := handled + 1 }.note (.counted n i h)
  .load fun s => s.requestHandledCount

/-- The reads of CS and TR and the stores of both, as every handler makes them. -/
def storeSelectors (i : SlotIndex) : Prog Machine Unit := do
  let cs ← .any UInt64
  .store fun s => s.setReply i fun r => { r with resultCs := cs }
  let tr ← .any UInt64
  .store fun s => s.setReply i fun r => { r with resultTr := tr }

/-- The end of every handler: the reply, the count, the metrics. -/
def storeResult (n : Nat) (i : SlotIndex) (h : ApRequestHandler) (resultCode : UInt32) :
    Prog Machine Unit := do
  .store fun s => s.setReply i fun r => { r with resultCode := resultCode }
  .store fun s => s.setReply i fun r => { r with faultCode := 0 }
  let handled ← noteApRequestHandled n i h
  .store fun s => (s.setMetrics i fun m => { m with handledCount := handled }).note
    (.ran n i ⟨h, resultCode, 0, handled⟩)

/-- `ap_handle_ping_request`. -/
def apHandlePingRequest (n : Nat) (i : SlotIndex) : Prog Machine Unit := do
  enqueueChildren
  storeSelectors i
  storeResult n i .pingRequest 0

/-- `ap_handle_counter_increment`. -/
def apHandleCounterIncrement (n : Nat) (i : SlotIndex) : Prog Machine Unit := do
  enqueueChildren
  let v ← .load fun s => s.counterValue
  .store fun s => { s with counterValue := v + 1 }.note (.incremented n i)
  storeSelectors i
  let v ← .load fun s => s.counterValue
  storeResult n i .counterIncrement v

/-- The call through the handler pointer. -/
def callHandler (n : Nat) (i : SlotIndex) : ApRequestHandler → Prog Machine Unit
  | .pingRequest => apHandlePingRequest n i
  | .counterIncrement => apHandleCounterIncrement n i

/-! ## One request -/

def storeCommitted (i : SlotIndex) (ws : List OutboxStore) : Prog Machine Unit :=
  .forEach ws fun w => .store fun s => s.setOutbox i w

/-- The cmpxchg from `RUNNING` to `DONE`. -/
def completeSlot (n : Nat) (i : SlotIndex) (s : Machine) : Bool × Machine :=
  if (s.slots i).state = .running then (true, (s.setState i .done).note (.completed n i))
  else (false, s.note (.rejected n i))

/-- `complete_ap_request_done_with_outbox`. -/
def completeApRequestDoneWithOutbox (n : Nat) (i : SlotIndex) : Prog Machine Bool := do
  let scratch ← .load fun s => s.serviceOutbox
  storeCommitted i (copyApRequestOutbox scratch)
  let ok ← .swap (completeSlot n i)
  if ok then pure true
  else do
    storeCommitted i resetApRequestOutbox
    pure false

/-- The branch of `ap_request_loop` that found a handler. -/
def handleRequest (b : Build) (n : Nat) (i : SlotIndex) (h : ApRequestHandler) :
    Prog Machine ApPc :=
  match runApRequestTestHook b h with
  | some pc => pure pc
  | none => do
    callHandler n i h
    .store fun s => { s with apState := .online }
    .store fun s => { s with entryState := .loop }
    let ok ← completeApRequestDoneWithOutbox n i
    (if ok then apQueueNoteSlotTerminal i .done .none else pure ())
    .store fun s => { s with currentRequestSlot := none }
    pure (.scan (i.val + 1) true)

/-- The branch of `ap_request_loop` that found none. -/
def missRequest (b : Build) (n : Nat) (i : SlotIndex) : Prog Machine ApPc := do
  let svc ← .swap fun s =>
    ((s.slots i).request.serviceId, s.note (.rereadService n i (s.slots i).request.serviceId))
  let ifc ← .swap fun s =>
    ((s.slots i).request.interfaceId, s.note (.missed n i svc (s.slots i).request.interfaceId))
  .store fun s => s.setReply i fun r => { r with resultCode := apDispatchMissResultCode b svc ifc }
  .store fun s => s.setReply i fun r => { r with faultCode := 0 }
  .store fun s => { s with apState := .halted }.note (.halted n i)
  .store fun s => { s with entryState := .halted }
  apQueueNoteSlotTerminal i .badOp .badOp
  .store fun s => { s with currentRequestSlot := none }
  let _ ← .swap (cmpxchgState i .running .badOp)
  pure .halted

/-- From the claim to the lookup, then the branch taken. -/
def dispatchRequest (b : Build) (n : Nat) (i : SlotIndex) : Prog Machine ApPc := do
  .store fun s => { s with currentRequestSlot := some i }.note (.took n i)
  apQueueNoteSlotStart i
  let handled ← .load fun s => s.requestHandledCount
  .store fun s => s.setMetrics i fun m => { m with handledCount := handled }
  beginApReply i
  .store fun s => { s with entryState := .request }
  prepareApServiceContext
  let svc ← .swap fun s =>
    ((s.slots i).request.serviceId, s.note (.readService n i (s.slots i).request.serviceId))
  let handler ← .swap fun s =>
    let ifc := (s.slots i).request.interfaceId
    let handler := findApRequestHandler b svc ifc
    (handler, s.note (.lookedUp n i svc ifc handler))
  match handler with
  | some h => handleRequest b n i h
  | none => missRequest b n i

/-- The cmpxchg from `PENDING` to `RUNNING`, with the publication it won. -/
def claimSlot (i : SlotIndex) (s : Machine) : Option Nat × Machine :=
  if (s.slots i).state = .pending then
    (some (s.log.latest i), (s.setState i .running).note (.claimed (s.log.latest i) i))
  else (none, s)

/-- The body of the scan for slot `i`. -/
def scanSlot (b : Build) (i : SlotIndex) (handledWork : Bool) : Prog Machine ApPc := do
  let st ← .load fun s => (s.slots i).state
  if st ≠ .pending then pure (.scan (i.val + 1) handledWork)
  else do
    let claim ← .swap (claimSlot i)
    match claim with
    | none => pure (.scan (i.val + 1) handledWork)
    | some n => dispatchRequest b n i

/-- The stores of `ap_request_loop` before its loop. -/
def apRequestLoopEntry : Prog Machine ApPc := do
  .store fun s => { s with apState := .online }
  .store fun s => { s with entryState := .loop }
  .store fun s => { s with online := true }
  pure (.scan 0 false)

/-- What runs from each point. After the last slot the AP scans again, at once when it handled
something and after an idle wait otherwise. -/
def apBody (b : Build) : ApPc → Option (Prog Machine ApPc)
  | .start => some apRequestLoopEntry
  | .scan i handledWork =>
    if h : i < apRequestSlotCount then some (scanSlot b ⟨i, h⟩ handledWork)
    else some (pure (.scan 0 false))
  | .hung | .ud2 | .halted | .faulted => none

/-! ## Faults -/

/-- The fault is in a request, in the idle loop or before either. -/
def apFaultPhase (slot : Option SlotIndex) (entry : ApEntryState) (st : ApRequestStatus) :
    ApFaultPhase :=
  if slot.isSome ∧ (entry = .request ∨ st = .running) then .request
  else if entry = .loop then .loop
  else .startup

/-- What `ap_fault_dispatch` records after `fault_vector`, in source order. -/
def faultRecordStores (frame : FaultFrame) (phase : ApFaultPhase) (slot : Option SlotIndex)
    (st : ApRequestStatus) : List (Machine → ApFaultRecord) :=
  let request (s : Machine) : ApRequestHeader :=
    match slot with
    | some i => (s.slots i).request
    | none => {}
  [fun s => { s.fault with errorCode := frame.errorCode },
   fun s => { s.fault with rip := frame.rip },
   fun s => { s.fault with cs := frame.cs },
   fun s => { s.fault with rflags := frame.rflags },
   fun s => { s.fault with cr2 := frame.cr2 },
   fun s => { s.fault with phase := phase },
   fun s => { s.fault with requestState := st },
   fun s => { s.fault with requestOpcode := (request s).opcode },
   fun s => { s.fault with requestSequence := (request s).sequence },
   fun s => { s.fault with requestServiceId := (request s).serviceId },
   fun s => { s.fault with requestInterfaceId := (request s).interfaceId },
   fun s => { s.fault with requestIdHigh := (request s).idHigh },
   fun s => { s.fault with requestIdLow := (request s).idLow }]

/-- The stores to the reply of the slot a fault hit. -/
def faultReply (vector : UInt64) (i : SlotIndex) (st : ApRequestStatus) : Prog Machine Unit :=
  if st = .empty ∨ st = .pending ∨ st = .running then do
    (if st = .pending ∨ st = .running then copyRequestId i else pure ())
    .store fun s => s.setReply i fun r => { r with faultCode := vector.toUInt32 }
  else pure ()

/-- The stores to the queue summary and the state of the slot a fault hit. -/
def faultSlot (i : SlotIndex) : Prog Machine Unit := do
  .store fun s => { s with queueSummary.currentSlot := i.val.toUInt32 + 1 }
  .store fun s => { s with queueSummary.lastSlot := i.val.toUInt32 + 1 }
  .store fun s => { s with queueSummary.lastState := .fault }
  .store fun s => { s with queueSummary.stopReason := .fault }
  let ok ← .swap (cmpxchgState i .pending .fault)
  if ok then pure ()
  else do
    let ok ← .swap (cmpxchgState i .running .fault)
    if ok then pure ()
    else do
      let st ← .load fun s => (s.slots i).state
      if st = .empty then .store fun s => s.setState i .fault
      else pure ()

/-- `request_state` in `ap_fault_dispatch`. -/
def faultRequestState : Option SlotIndex → Prog Machine ApRequestStatus
  | some i => .load fun s => (s.slots i).state
  | none => pure .empty

/-- What `ap_fault_dispatch` does to the slot the fault hit, if any. -/
def faultRequest (vector : UInt64) (st : ApRequestStatus) : Option SlotIndex → Prog Machine Unit
  | some i => do
    faultReply vector i st
    faultSlot i
  | none => pure ()

/-- `ap_fault_dispatch`. -/
def apFaultDispatch (frame : FaultFrame) : Prog Machine ApPc := do
  let slot ← .load fun s => s.currentRequestSlot
  let st ← faultRequestState slot
  let entry ← .load fun s => s.entryState
  .store fun s => { s with faultVector := frame.vector }
  .forEach (faultRecordStores frame (apFaultPhase slot entry st) slot st) fun w =>
    .store fun s => { s with fault := w s }
  faultRequest frame.vector st slot
  .store fun s => { s with entryState := .fault }
  .store fun s => { s with apState := .faulted }.note .faultPosted
  .store fun s => { s with online := true }
  pure .faulted

/-- A fault enters the dispatcher unless one already has. -/
def enterFault (frame : FaultFrame) (s : Machine) : Option Machine :=
  match s.log.phase with
  | .faulted _ _ => none
  | _ => some (s.note (.faulted frame.vector))

end VibeKernel

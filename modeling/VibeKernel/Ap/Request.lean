import Mathlib.Logic.Function.Basic
import Mathlib.Data.List.FinRange

/-!
# Request slots and outboxes

The data of `ap_request.h` and the functions of `ap_request.c` that write it.

## One store at a time

Slots are shared between two processors, so a function that fills a slot is the list of its
field stores in source order (`SlotStore`), not their sum. `ap_request.c` writes an outbox in
the same way (`OutboxStore`). Running a list to its end gives the function's effect on a slot nobody else
touches.
-/

namespace VibeKernel

/-! ## Constants -/

def apRequestServicePing : UInt64 := 0x41502d5356430001
def apRequestInterfacePing : UInt64 := 0x41502d4946430001
def apRequestServiceCounter : UInt64 := 0x41502d5356430002
def apRequestInterfaceCounterIncrement : UInt64 := 0x41502d4946430002
def apRequestIdHighDefault : UInt64 := 0x41502d50494e4721

def apRequestOpNone : UInt32 := 0
def apRequestOpPing : UInt32 := 1
def apRequestOpCounter : UInt32 := 2

/-- The value of a slot's `state` word. -/
inductive ApRequestStatus
  | empty
  | pending
  | running
  | done
  | timeout
  | badOp
  | fault
  | skipped
deriving DecidableEq, Repr

/-! ## Slots -/

structure ApRequestHeader where
  sourceCpu : UInt32 := 0
  targetCpu : UInt32 := 0
  opcode : UInt32 := apRequestOpNone
  sequence : UInt32 := 0
  serviceId : UInt64 := 0
  interfaceId : UInt64 := 0
  idHigh : UInt64 := 0
  idLow : UInt64 := 0
  parentIdHigh : UInt64 := 0
  parentIdLow : UInt64 := 0
  replyServiceId : UInt64 := 0
  replyInterfaceId : UInt64 := 0
  payloadAddr : UInt64 := 0
  payloadLen : UInt32 := 0
  flags : UInt32 := 0
deriving DecidableEq, Repr

structure ApReplyHeader where
  resultCode : UInt32 := 0
  faultCode : UInt32 := 0
  requestIdHigh : UInt64 := 0
  requestIdLow : UInt64 := 0
  resultCs : UInt64 := 0
  resultTr : UInt64 := 0
deriving DecidableEq, Repr

structure ApRequestMetrics where
  handledCount : UInt32 := 0
  waitLoops : UInt32 := 0
deriving DecidableEq, Repr

structure ApRequestSlot where
  state : ApRequestStatus := .empty
  request : ApRequestHeader := {}
  reply : ApReplyHeader := {}
  metrics : ApRequestMetrics := {}
deriving DecidableEq, Repr

structure ApRequestEnvelope where
  parentIdHigh : UInt64 := 0
  parentIdLow : UInt64 := 0
  replyServiceId : UInt64 := 0
  replyInterfaceId : UInt64 := 0
  payloadAddr : UInt64 := 0
  payloadLen : UInt32 := 0
  flags : UInt32 := 0
deriving DecidableEq, Repr

structure ApRequestPlan where
  opcode : UInt32 := 0
  serviceId : UInt64 := 0
  interfaceId : UInt64 := 0
  sequence : UInt32 := 0
  envelope : ApRequestEnvelope := {}
deriving DecidableEq, Repr

/-- One store to a slot. -/
inductive SlotStore
  | state (st : ApRequestStatus)
  | request (f : ApRequestHeader → ApRequestHeader)
  | reply (f : ApReplyHeader → ApReplyHeader)
  | metrics (f : ApRequestMetrics → ApRequestMetrics)

namespace SlotStore

def apply : SlotStore → ApRequestSlot → ApRequestSlot
  | .state st, s => { s with state := st }
  | .request f, s => { s with request := f s.request }
  | .reply f, s => { s with reply := f s.reply }
  | .metrics f, s => { s with metrics := f s.metrics }

/-- What a store does to the request header. -/
def onRequest : SlotStore → ApRequestHeader → ApRequestHeader
  | .request f, r => f r
  | _, r => r

/-- A store to anything but the state word. -/
def IsField : SlotStore → Prop
  | .state _ => False
  | _ => True

theorem apply_request (w : SlotStore) (s : ApRequestSlot) :
    (w.apply s).request = w.onRequest s.request := by
  cases w <;> rfl

theorem apply_state_of_isField {w : SlotStore} (h : w.IsField) (s : ApRequestSlot) :
    (w.apply s).state = s.state := by
  cases w <;> first | rfl | exact h.elim

end SlotStore

/-- The request header after a list of stores. -/
def headerAfter (ws : List SlotStore) (r : ApRequestHeader) : ApRequestHeader :=
  ws.foldl (fun r w => w.onRequest r) r

@[simp] theorem headerAfter_cons (w : SlotStore) (ws : List SlotStore) (r : ApRequestHeader) :
    headerAfter (w :: ws) r = headerAfter ws (w.onRequest r) := rfl

/-- `reset_ap_request_slot` after its store of `AP_REQUEST_STATUS_EMPTY`. -/
def resetApRequestSlotFields : List SlotStore :=
  [.request fun r => { r with sourceCpu := 0 },
   .request fun r => { r with targetCpu := 0 },
   .request fun r => { r with opcode := apRequestOpNone },
   .request fun r => { r with sequence := 0 },
   .request fun r => { r with serviceId := 0 },
   .request fun r => { r with interfaceId := 0 },
   .request fun r => { r with idHigh := 0 },
   .request fun r => { r with idLow := 0 },
   .request fun r => { r with parentIdHigh := 0 },
   .request fun r => { r with parentIdLow := 0 },
   .request fun r => { r with replyServiceId := 0 },
   .request fun r => { r with replyInterfaceId := 0 },
   .request fun r => { r with payloadAddr := 0 },
   .request fun r => { r with payloadLen := 0 },
   .request fun r => { r with flags := 0 },
   .reply fun r => { r with resultCode := 0 },
   .reply fun r => { r with faultCode := 0 },
   .reply fun r => { r with requestIdHigh := 0 },
   .reply fun r => { r with requestIdLow := 0 },
   .reply fun r => { r with resultCs := 0 },
   .reply fun r => { r with resultTr := 0 },
   .metrics fun m => { m with handledCount := 0 },
   .metrics fun m => { m with waitLoops := 0 }]

/-- `reset_ap_request_slot`. -/
def resetApRequestSlot : List SlotStore := .state .empty :: resetApRequestSlotFields

/-- `prepare_ap_request_slot_with_envelope`. A missing envelope counts as all zero. -/
def prepareApRequestSlotWithEnvelope (targetCpu opcode : UInt32) (serviceId interfaceId : UInt64)
    (sequence : UInt32) (envelope : Option ApRequestEnvelope) : List SlotStore :=
  let e := envelope.getD {}
  [.metrics fun m => { m with handledCount := 0 },
   .request fun r => { r with sourceCpu := 0 },
   .request fun r => { r with targetCpu := targetCpu },
   .request fun r => { r with opcode := opcode },
   .request fun r => { r with sequence := sequence },
   .request fun r => { r with serviceId := serviceId },
   .request fun r => { r with interfaceId := interfaceId },
   .request fun r => { r with idHigh := apRequestIdHighDefault },
   .request fun r => { r with idLow := sequence.toUInt64 },
   .request fun r => { r with parentIdHigh := e.parentIdHigh },
   .request fun r => { r with parentIdLow := e.parentIdLow },
   .request fun r => { r with replyServiceId := e.replyServiceId },
   .request fun r => { r with replyInterfaceId := e.replyInterfaceId },
   .request fun r => { r with payloadAddr := e.payloadAddr },
   .request fun r => { r with payloadLen := e.payloadLen },
   .request fun r => { r with flags := e.flags }]

/-- `prepare_ap_request_slot_from_plan`. -/
def prepareApRequestSlotFromPlan (targetCpu : UInt32) (plan : ApRequestPlan) : List SlotStore :=
  prepareApRequestSlotWithEnvelope targetCpu plan.opcode plan.serviceId plan.interfaceId
    plan.sequence (some plan.envelope)

/-- The header a prepared slot carries. -/
def preparedHeader (targetCpu : UInt32) (plan : ApRequestPlan) : ApRequestHeader where
  sourceCpu := 0
  targetCpu := targetCpu
  opcode := plan.opcode
  sequence := plan.sequence
  serviceId := plan.serviceId
  interfaceId := plan.interfaceId
  idHigh := apRequestIdHighDefault
  idLow := plan.sequence.toUInt64
  parentIdHigh := plan.envelope.parentIdHigh
  parentIdLow := plan.envelope.parentIdLow
  replyServiceId := plan.envelope.replyServiceId
  replyInterfaceId := plan.envelope.replyInterfaceId
  payloadAddr := plan.envelope.payloadAddr
  payloadLen := plan.envelope.payloadLen
  flags := plan.envelope.flags

/-- Whatever the header was, preparing a slot leaves the plan's header. -/
theorem headerAfter_prepare (targetCpu : UInt32) (plan : ApRequestPlan) (r : ApRequestHeader) :
    headerAfter (prepareApRequestSlotFromPlan targetCpu plan) r
      = preparedHeader targetCpu plan := rfl

theorem resetApRequestSlotFields_isField : ∀ w ∈ resetApRequestSlotFields, w.IsField := by
  simp [resetApRequestSlotFields, SlotStore.IsField]

theorem prepareApRequestSlotFromPlan_isField (targetCpu : UInt32) (plan : ApRequestPlan) :
    ∀ w ∈ prepareApRequestSlotFromPlan targetCpu plan, w.IsField := by
  simp [prepareApRequestSlotFromPlan, prepareApRequestSlotWithEnvelope, SlotStore.IsField]

/-! ## Copying a slot

`copy_ap_request_slot` reads the source field by field. Each entry below reads one field of the
source and stores it in the copy.
-/

/-- The copies of `request`'s fields, in source order. -/
def copyApRequestHeader : List (ApRequestHeader → ApRequestHeader → ApRequestHeader) :=
  [fun src dst => { dst with sourceCpu := src.sourceCpu },
   fun src dst => { dst with targetCpu := src.targetCpu },
   fun src dst => { dst with opcode := src.opcode },
   fun src dst => { dst with sequence := src.sequence },
   fun src dst => { dst with serviceId := src.serviceId },
   fun src dst => { dst with interfaceId := src.interfaceId },
   fun src dst => { dst with idHigh := src.idHigh },
   fun src dst => { dst with idLow := src.idLow },
   fun src dst => { dst with parentIdHigh := src.parentIdHigh },
   fun src dst => { dst with parentIdLow := src.parentIdLow },
   fun src dst => { dst with replyServiceId := src.replyServiceId },
   fun src dst => { dst with replyInterfaceId := src.replyInterfaceId },
   fun src dst => { dst with payloadAddr := src.payloadAddr },
   fun src dst => { dst with payloadLen := src.payloadLen },
   fun src dst => { dst with flags := src.flags }]

/-- The copies of `reply`'s fields, in source order. -/
def copyApReplyHeader : List (ApReplyHeader → ApReplyHeader → ApReplyHeader) :=
  [fun src dst => { dst with resultCode := src.resultCode },
   fun src dst => { dst with faultCode := src.faultCode },
   fun src dst => { dst with requestIdHigh := src.requestIdHigh },
   fun src dst => { dst with requestIdLow := src.requestIdLow },
   fun src dst => { dst with resultCs := src.resultCs },
   fun src dst => { dst with resultTr := src.resultTr }]

/-- The copies of `metrics`' fields, in source order. -/
def copyApRequestMetrics : List (ApRequestMetrics → ApRequestMetrics → ApRequestMetrics) :=
  [fun src dst => { dst with handledCount := src.handledCount },
   fun src dst => { dst with waitLoops := src.waitLoops }]

/-- One access of `copy_ap_request_slot`: a field read from `src` and stored in `dst`. -/
abbrev SlotCopy := ApRequestSlot → ApRequestSlot → ApRequestSlot

/-- `copy_ap_request_slot` after its copy of `state`. -/
def copyApRequestSlotFields : List SlotCopy :=
  copyApRequestHeader.map (fun c src dst => { dst with request := c src.request dst.request })
    ++ copyApReplyHeader.map (fun c src dst => { dst with reply := c src.reply dst.reply })
    ++ copyApRequestMetrics.map (fun c src dst => { dst with metrics := c src.metrics dst.metrics })

/-- `copy_ap_request_slot`. -/
def copyApRequestSlot : List SlotCopy :=
  (fun src dst => { dst with state := src.state }) :: copyApRequestSlotFields

/-- The copy after a list of field copies from a source that stands still. -/
def copyAfter (cs : List SlotCopy) (src dst : ApRequestSlot) : ApRequestSlot :=
  cs.foldl (fun dst c => c src dst) dst

@[simp] theorem copyAfter_cons (c : SlotCopy) (cs : List SlotCopy) (src dst : ApRequestSlot) :
    copyAfter (c :: cs) src dst = copyAfter cs src (c src dst) := rfl

/-- A copy that leaves the state alone and makes the header from the two headers. -/
structure SlotCopy.IsField (c : SlotCopy) : Prop where
  state : ∀ src dst, (c src dst).state = dst.state
  request : ∀ {src src' dst dst' : ApRequestSlot}, src.request = src'.request →
    dst.request = dst'.request → (c src dst).request = (c src' dst').request

theorem copyApRequestSlotFields_isField : ∀ c ∈ copyApRequestSlotFields, SlotCopy.IsField c := by
  intro c hc
  simp only [copyApRequestSlotFields, List.mem_append, List.mem_map] at hc
  rcases hc with (⟨c, -, rfl⟩ | ⟨c, -, rfl⟩) | ⟨c, -, rfl⟩
  · exact ⟨fun _ _ => rfl, fun hs hd => by simp only [hs, hd]⟩
  · exact ⟨fun _ _ => rfl, fun _ hd => hd⟩
  · exact ⟨fun _ _ => rfl, fun _ hd => hd⟩

/-- The copied header depends on the headers only. -/
theorem copyAfter_request {cs : List SlotCopy} (hcs : ∀ c ∈ cs, SlotCopy.IsField c)
    {src dst dst' : ApRequestSlot} (hd : dst.request = dst'.request) :
    (copyAfter cs src dst).request = (copyAfter cs src dst').request := by
  induction cs generalizing dst dst' with
  | nil => exact hd
  | cons c cs ih =>
    simp only [List.forall_mem_cons] at hcs
    exact ih hcs.2 (hcs.1.request rfl hd)

/-- A slot copied while nobody writes it is copied whole. -/
theorem copyAfter_copyApRequestSlot (src dst : ApRequestSlot) :
    copyAfter copyApRequestSlot src dst = src := rfl

/-! ## Outboxes -/

/-- `AP_REQUEST_OUTBOX_CAPACITY`. -/
abbrev apRequestOutboxCapacity : Nat := 4

structure ApRequestOutbox where
  count : UInt32 := 0
  entries : Fin apRequestOutboxCapacity → ApRequestPlan := fun _ => {}

/-- The fields of a plan, each as the store that copies it, in source order. -/
def copyApRequestPlan : List (ApRequestPlan → ApRequestPlan → ApRequestPlan) :=
  [fun src dst => { dst with opcode := src.opcode },
   fun src dst => { dst with serviceId := src.serviceId },
   fun src dst => { dst with interfaceId := src.interfaceId },
   fun src dst => { dst with sequence := src.sequence },
   fun src dst => { dst with envelope.parentIdHigh := src.envelope.parentIdHigh },
   fun src dst => { dst with envelope.parentIdLow := src.envelope.parentIdLow },
   fun src dst => { dst with envelope.replyServiceId := src.envelope.replyServiceId },
   fun src dst => { dst with envelope.replyInterfaceId := src.envelope.replyInterfaceId },
   fun src dst => { dst with envelope.payloadAddr := src.envelope.payloadAddr },
   fun src dst => { dst with envelope.payloadLen := src.envelope.payloadLen },
   fun src dst => { dst with envelope.flags := src.envelope.flags }]

/-- One store to an outbox. -/
abbrev OutboxStore := ApRequestOutbox → ApRequestOutbox

/-- The stores that make entry `i` of an outbox equal to `plan`. -/
def setOutboxEntry (i : Fin apRequestOutboxCapacity) (plan : ApRequestPlan) : List OutboxStore :=
  copyApRequestPlan.map fun c o => { o with entries := Function.update o.entries i (c plan (o.entries i)) }

/-- `reset_ap_request_outbox`. -/
def resetApRequestOutbox : List OutboxStore :=
  (fun o => { o with count := 0 })
    :: (List.finRange apRequestOutboxCapacity).flatMap fun i => setOutboxEntry i {}

/-- `append_ap_request_outbox`. -/
def appendApRequestOutbox (o : ApRequestOutbox) (plan : ApRequestPlan) : ApRequestOutbox :=
  if h : o.count.toNat < apRequestOutboxCapacity then
    { count := o.count + 1, entries := Function.update o.entries ⟨o.count.toNat, h⟩ plan }
  else o

/-- `copy_ap_request_outbox`, from a source that only the copying processor writes. -/
def copyApRequestOutbox (src : ApRequestOutbox) : List OutboxStore :=
  let count := if apRequestOutboxCapacity.toUInt32 < src.count then apRequestOutboxCapacity.toUInt32
    else src.count
  (fun o => { o with count := count })
    :: (List.finRange apRequestOutboxCapacity).flatMap fun i =>
      setOutboxEntry i (if i.val < count.toNat then src.entries i else {})

end VibeKernel

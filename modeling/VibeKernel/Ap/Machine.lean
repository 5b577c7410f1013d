import VibeKernel.Conc.Prog
import VibeKernel.Ap.Log

/-!
# The memory of one context

One `ap_context_t`, its outboxes and the broadcast ping's summary, as far as the request path reads
or writes them, together with the event log.

The idle counters, the IPI counters and the LAPIC registers are left out: nothing below reads them.
-/

namespace VibeKernel

/-- `AP_BOOT_OK` and the `AP_BOOT_ERR_` codes. -/
inductive ApBootError
  | ok
  | noTrampoline
  | noTarget
  | x2apic
  | badTrampoline
  | highCr3
  | lapicRange
  | icrTimeout
  | onlineTimeout
deriving DecidableEq, Repr

/-- `ap_state`. -/
inductive ApBootState
  | none
  | ready
  | sentInit
  | sentSipi
  | online
  | halted
  | faulted
deriving DecidableEq, Repr

/-- `entry_state`. -/
inductive ApEntryState
  | none
  | c
  | tables
  | halted
  | fault
  | loop
  | request
deriving DecidableEq, Repr

/-- `fault_phase`. -/
inductive ApFaultPhase
  | none
  | startup
  | loop
  | request
deriving DecidableEq, Repr

/-- `stop_reason`. -/
inductive ApQueueStop
  | none
  | drained
  | badOp
  | fault
deriving DecidableEq, Repr

/-- `fault_frame_t`, and the CR2 the handler reads. -/
structure FaultFrame where
  vector : UInt64
  errorCode : UInt64 := 0
  rip : UInt64 := 0
  cs : UInt64 := 0
  rflags : UInt64 := 0
  cr2 : UInt64 := 0

/-- The `fault_` fields of `ap_boot_info_t`, less `fault_vector`. -/
structure ApFaultRecord where
  errorCode : UInt64 := 0
  rip : UInt64 := 0
  cs : UInt64 := 0
  rflags : UInt64 := 0
  cr2 : UInt64 := 0
  phase : ApFaultPhase := .none
  requestState : ApRequestStatus := .empty
  requestOpcode : UInt32 := 0
  requestSequence : UInt32 := 0
  requestServiceId : UInt64 := 0
  requestInterfaceId : UInt64 := 0
  requestIdHigh : UInt64 := 0
  requestIdLow : UInt64 := 0

structure ApQueueSummary where
  currentSlot : UInt32 := 0
  handledCount : UInt32 := 0
  lastSlot : UInt32 := 0
  lastState : ApRequestStatus := .empty
  stopReason : ApQueueStop := .none
  plannedCount : UInt32 := 0

structure ApRequestHistoryEntry where
  request : ApRequestSlot := {}
  counterValue : UInt32 := 0
  slot : UInt32 := 0
  valid : Bool := false

/-- `AP_REQUEST_HISTORY_COUNT`. -/
abbrev apRequestHistoryCount : Nat := 8

/-- `ap_broadcast_ping_entry_t`. -/
structure ApBroadcastPingEntry where
  valid : Bool := false
  apicId : UInt32 := 0
  state : ApRequestStatus := .empty
  resultCode : UInt32 := 0
  faultCode : UInt32 := 0
  waitLoops : UInt32 := 0

/-- `ap_broadcast_ping_summary_t`, with the entry of this context. -/
structure ApBroadcastPingSummary where
  plannedCount : UInt32 := 0
  completedCount : UInt32 := 0
  okCount : UInt32 := 0
  failCount : UInt32 := 0
  entry : ApBroadcastPingEntry := {}

structure Machine where
  error : ApBootError := .ok
  online : Bool := true
  apState : ApBootState := .online
  entryState : ApEntryState := .loop
  targetApicId : UInt32 := 0
  faultVector : UInt64 := 0
  fault : ApFaultRecord := {}
  slots : SlotIndex → ApRequestSlot := fun _ => {}
  history : Fin apRequestHistoryCount → ApRequestHistoryEntry := fun _ => {}
  queueSummary : ApQueueSummary := {}
  /-- `none` is `AP_REQUEST_NO_SLOT`. -/
  currentRequestSlot : Option SlotIndex := none
  requestHandledCount : UInt32 := 0
  counterValue : UInt32 := 0
  serviceOutbox : ApRequestOutbox := {}
  committedOutboxes : SlotIndex → ApRequestOutbox := fun _ => {}
  pingSummary : ApBroadcastPingSummary := {}
  log : Log := []

namespace Machine

def note (s : Machine) (e : Event) : Machine := { s with log := e :: s.log }

def setSlot (s : Machine) (i : SlotIndex) (f : ApRequestSlot → ApRequestSlot) : Machine :=
  { s with slots := Function.update s.slots i (f (s.slots i)) }

abbrev setState (s : Machine) (i : SlotIndex) (st : ApRequestStatus) : Machine :=
  s.setSlot i fun slot => { slot with state := st }

abbrev setReply (s : Machine) (i : SlotIndex) (f : ApReplyHeader → ApReplyHeader) : Machine :=
  s.setSlot i fun slot => { slot with reply := f slot.reply }

abbrev setMetrics (s : Machine) (i : SlotIndex) (f : ApRequestMetrics → ApRequestMetrics) : Machine :=
  s.setSlot i fun slot => { slot with metrics := f slot.metrics }

def setOutbox (s : Machine) (i : SlotIndex) (w : OutboxStore) : Machine :=
  { s with committedOutboxes := Function.update s.committedOutboxes i (w (s.committedOutboxes i)) }

def setHistory (s : Machine) (k : Fin apRequestHistoryCount)
    (f : ApRequestHistoryEntry → ApRequestHistoryEntry) : Machine :=
  { s with history := Function.update s.history k (f (s.history k)) }

@[simp] theorem note_log (s : Machine) (e : Event) : (s.note e).log = e :: s.log := rfl
@[simp] theorem note_slots (s : Machine) (e : Event) : (s.note e).slots = s.slots := rfl
@[simp] theorem note_error (s : Machine) (e : Event) :
    (s.note e).error = s.error := rfl
@[simp] theorem note_online (s : Machine) (e : Event) :
    (s.note e).online = s.online := rfl
@[simp] theorem note_apState (s : Machine) (e : Event) :
    (s.note e).apState = s.apState := rfl
@[simp] theorem note_faultVector (s : Machine) (e : Event) :
    (s.note e).faultVector = s.faultVector := rfl
@[simp] theorem note_current (s : Machine) (e : Event) :
    (s.note e).currentRequestSlot = s.currentRequestSlot := rfl
@[simp] theorem note_handled (s : Machine) (e : Event) :
    (s.note e).requestHandledCount = s.requestHandledCount := rfl
@[simp] theorem note_counter (s : Machine) (e : Event) :
    (s.note e).counterValue = s.counterValue := rfl
@[simp] theorem note_history (s : Machine) (e : Event) :
    (s.note e).history = s.history := rfl

section Slot

variable (s : Machine) (i : SlotIndex) (f : ApRequestSlot → ApRequestSlot)

@[simp] theorem setSlot_slots_self : (s.setSlot i f).slots i = f (s.slots i) := by
  simp [setSlot]

@[simp] theorem setSlot_slots_ne {i j : SlotIndex} (h : j ≠ i) :
    (s.setSlot i f).slots j = s.slots j := by
  simp [setSlot, h]

@[simp] theorem setSlot_log : (s.setSlot i f).log = s.log := rfl
@[simp] theorem setSlot_error : (s.setSlot i f).error = s.error := rfl
@[simp] theorem setSlot_online : (s.setSlot i f).online = s.online := rfl
@[simp] theorem setSlot_apState : (s.setSlot i f).apState = s.apState := rfl
@[simp] theorem setSlot_faultVector : (s.setSlot i f).faultVector = s.faultVector := rfl
@[simp] theorem setSlot_current : (s.setSlot i f).currentRequestSlot = s.currentRequestSlot := rfl
@[simp] theorem setSlot_handled : (s.setSlot i f).requestHandledCount = s.requestHandledCount := rfl
@[simp] theorem setSlot_counter : (s.setSlot i f).counterValue = s.counterValue := rfl
@[simp] theorem setSlot_history : (s.setSlot i f).history = s.history := rfl

end Slot

end Machine

/-- The state of slot `j` after a change of the state of slot `i`. -/
theorem state_setState (s : Machine) (i j : SlotIndex) (st : ApRequestStatus) :
    ((s.setState i st).slots j).state = if j = i then st else (s.slots j).state := by
  by_cases hj : j = i
  · subst hj
    simp
  · simp [hj]

/-- A change of slot `i` that leaves its state alone. -/
theorem state_setSlot {s : Machine} {i : SlotIndex} {f : ApRequestSlot → ApRequestSlot}
    (hf : (f (s.slots i)).state = (s.slots i).state) (j : SlotIndex) :
    ((s.setSlot i f).slots j).state = (s.slots j).state := by
  by_cases hj : j = i
  · subst hj
    simpa using hf
  · simp [hj]

/-! ## Slot states -/

namespace ApRequestStatus

/-- `ap_request_state_terminal`. -/
def terminal (st : ApRequestStatus) : Bool :=
  st == .done || st == .badOp || st == .fault

/-- `ap_request_state_finished`. -/
def finished (st : ApRequestStatus) : Bool :=
  st.terminal || st == .timeout || st == .skipped

theorem finished_iff {st : ApRequestStatus} :
    st.finished = true ↔ st ≠ .empty ∧ st ≠ .pending ∧ st ≠ .running := by
  cases st <;> decide

end ApRequestStatus

/-- `cmpxchg_u32` on the state of slot `i`. -/
def cmpxchgState (i : SlotIndex) (expected desired : ApRequestStatus) (s : Machine) :
    Bool × Machine :=
  if (s.slots i).state = expected then (true, s.setState i desired) else (false, s)

end VibeKernel

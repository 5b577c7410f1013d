import VibeKernel.Ap.Services

/-!
# The event log

A record of what happened, beside the memory. No step of the program depends on it.

Publications are numbered from 1 in the order of the stores that end `publish_ap_inbox_request`.
A claim is stamped with the publication it won, and so is everything the AP does until it gives
the slot back. The log is kept newest first, so a function of the past is a recursion on it.
-/

namespace VibeKernel

/-- `AP_REQUEST_SLOT_COUNT`. -/
abbrev apRequestSlotCount : Nat := 4

abbrev SlotIndex := Fin apRequestSlotCount

/-- What one run of a handler wrote. -/
structure HandlerRun where
  handler : ApRequestHandler
  resultCode : UInt32
  faultCode : UInt32
  handledCount : UInt32
deriving DecidableEq, Repr

inductive Event
  /-- `run_ap_request_stream` read `counter_value`. -/
  | streamBegan (plan : List ApRequestPlan) (counterValue : UInt32)
  /-- `publish_ap_inbox_request` stored the slot's state. -/
  | published (n : Nat) (i : SlotIndex) (plan : ApRequestPlan) (st : ApRequestStatus)
  /-- A visit of an active slot read its state for the first time. -/
  | visited (i : SlotIndex) (st : ApRequestStatus)
  /-- `finish_ap_stream_slot` read the state. -/
  | inspected (i : SlotIndex) (st : ApRequestStatus)
  | visitEnded
  /-- `finish_timed_out_ap_stream_slots` met an active slot. -/
  | overdue (i : SlotIndex)
  /-- `finish_ap_stream_slot` found the slot finished and stored `wait_loops`. -/
  | finished (n : Nat) (i : SlotIndex) (slot : ApRequestSlot)
  /-- `run_ap_broadcast_ping` put a counter of the target back. -/
  | restored
  /-- The AP's cmpxchg from `PENDING` to `RUNNING` succeeded. -/
  | claimed (n : Nat) (i : SlotIndex)
  /-- The AP stored `current_request_slot`. -/
  | took (n : Nat) (i : SlotIndex)
  | readService (n : Nat) (i : SlotIndex) (serviceId : UInt64)
  /-- The AP read the second id and looked the pair up. -/
  | lookedUp (n : Nat) (i : SlotIndex) (serviceId interfaceId : UInt64)
      (handler : Option ApRequestHandler)
  /-- The counter handler stored the increment. -/
  | incremented (n : Nat) (i : SlotIndex)
  /-- The handler stored `request_handled_count`. -/
  | counted (n : Nat) (i : SlotIndex) (handler : ApRequestHandler)
  /-- The handler's last store. -/
  | ran (n : Nat) (i : SlotIndex) (run : HandlerRun)
  /-- The cmpxchg from `RUNNING` to `DONE` succeeded. -/
  | completed (n : Nat) (i : SlotIndex)
  /-- The cmpxchg from `RUNNING` to `DONE` failed. -/
  | rejected (n : Nat) (i : SlotIndex)
  | rereadService (n : Nat) (i : SlotIndex) (serviceId : UInt64)
  /-- The AP read the ids for `ap_dispatch_miss_result_code`. -/
  | missed (n : Nat) (i : SlotIndex) (serviceId interfaceId : UInt64)
  /-- The AP stored `AP_BOOT_STATE_HALTED`. -/
  | halted (n : Nat) (i : SlotIndex)
  /-- A fault with this vector entered `ap_fault_dispatch`. -/
  | faulted (vector : UInt64)
  /-- The AP stored `AP_BOOT_STATE_FAULTED`. -/
  | faultPosted

/-- The AP's events. -/
def Event.byAp : Event → Bool
  | .claimed .. | .took .. | .readService .. | .lookedUp .. | .incremented .. | .counted ..
  | .ran .. | .completed .. | .rejected .. | .rereadService .. | .missed .. | .halted ..
  | .faulted .. | .faultPosted => true
  | _ => false

abbrev Log := List Event

namespace Log

/-! ## Publications -/

/-- How many requests have been published. -/
@[simp] def publications : Log → Nat
  | [] => 0
  | .published .. :: l => publications l + 1
  | _ :: l => publications l

/-- The latest publication of slot `i`, or 0. -/
@[simp] def latest (i : SlotIndex) : Log → Nat
  | [] => 0
  | .published n j _ _ :: l => if j = i then n else latest i l
  | _ :: l => latest i l

/-- The publications whose plan `p` admits. -/
@[simp] def publishedWith (p : ApRequestPlan → Bool) : Log → List Nat
  | [] => []
  | .published n _ plan _ :: l =>
    if p plan then n :: publishedWith p l else publishedWith p l
  | _ :: l => publishedWith p l

/-! ## What the AP did -/

/-- The publications the AP claimed, newest first. -/
@[simp] def claims : Log → List Nat
  | [] => []
  | .claimed n _ :: l => n :: claims l
  | _ :: l => claims l

/-- The publications for which a handler ran to its end, newest first. -/
@[simp] def runs : Log → List Nat
  | [] => []
  | .ran n _ _ :: l => n :: runs l
  | _ :: l => runs l

/-- The publications for which the counter was incremented, newest first. -/
@[simp] def increments : Log → List Nat
  | [] => []
  | .incremented n _ :: l => n :: increments l
  | _ :: l => increments l

/-- The handler runs under the claim of publication `n`. -/
@[simp] def runsOf (n : Nat) : Log → List HandlerRun
  | [] => []
  | .ran m _ run :: l => if m = n then run :: runsOf n l else runsOf n l
  | _ :: l => runsOf n l

/-! ## The current stream -/

/-- A stream has begun. -/
@[simp] def began : Log → Bool
  | [] => false
  | .streamBegan .. :: _ => true
  | _ :: l => began l

/-- The publications before the stream began. -/
@[simp] def streamBase : Log → Nat
  | [] => 0
  | .streamBegan .. :: l => publications l
  | _ :: l => streamBase l

/-- `counter_value` when the stream began. -/
@[simp] def streamCounter : Log → UInt32
  | [] => 0
  | .streamBegan _ v :: _ => v
  | _ :: l => streamCounter l

/-- What the stream published, oldest first. -/
@[simp] def streamPlans : Log → List ApRequestPlan
  | [] => []
  | .streamBegan .. :: _ => []
  | .published _ _ plan _ :: l => streamPlans l ++ [plan]
  | _ :: l => streamPlans l

/-- A request the stream took back: its publication, its slot and what was in it. -/
structure Completion where
  n : Nat
  i : SlotIndex
  slot : ApRequestSlot
deriving DecidableEq, Repr

/-- What the stream took back, oldest first. -/
@[simp] def completions : Log → List Completion
  | [] => []
  | .streamBegan .. :: _ => []
  | .finished n i slot :: l => completions l ++ [⟨n, i, slot⟩]
  | _ :: l => completions l

/-! ## Visits -/

/-- A visit read the slot's state once and `finish_ap_stream_slot` has not read it yet. -/
@[simp] def glanced : Log → Option SlotIndex
  | [] => none
  | .visited i _ :: _ => some i
  | .inspected .. :: _ => none
  | .visitEnded :: _ => none
  | _ :: l => glanced l

/-- A visit is under way. -/
@[simp] def inVisit : Log → Bool
  | [] => false
  | .visited .. :: _ => true
  | .visitEnded :: _ => false
  | _ :: l => inVisit l

/-- The stream published a request in slot `i` and has not taken it back. -/
def Unrecorded (i : SlotIndex) (l : Log) : Prop :=
  streamBase l < latest i l ∧ ∀ c ∈ completions l, c.n ≠ latest i l

/-- A `restored` since the latest claim. -/
@[simp] def tampered : Log → Bool
  | [] => false
  | .claimed .. :: _ => false
  | .restored :: _ => true
  | _ :: l => tampered l

/-- The position of publication `n` in the order of execution, from 1, or 0. -/
@[simp] def runIndex (n : Nat) : Log → Nat
  | [] => 0
  | .ran m _ _ :: l => if m = n then (runs l).length + 1 else runIndex n l
  | _ :: l => runIndex n l

end Log

/-! ## Where the AP is -/

/-- How far the AP got with the request it claimed. -/
inductive ApPhase
  | away
  | claimed (n : Nat) (i : SlotIndex)
  | took (n : Nat) (i : SlotIndex)
  | readService (n : Nat) (i : SlotIndex) (serviceId : UInt64)
  | lookedUp (n : Nat) (i : SlotIndex) (serviceId interfaceId : UInt64)
      (handler : Option ApRequestHandler)
  | incremented (n : Nat) (i : SlotIndex)
  | counted (n : Nat) (i : SlotIndex) (handler : ApRequestHandler)
  | ran (n : Nat) (i : SlotIndex) (run : HandlerRun)
  | rereadService (n : Nat) (i : SlotIndex) (serviceId : UInt64)
  | missed (n : Nat) (i : SlotIndex) (serviceId interfaceId : UInt64)
  | halted (n : Nat) (i : SlotIndex)
  | faulted (vector : UInt64) (held : Option (Nat × SlotIndex))

namespace ApPhase

/-- The claim the AP has not given back. -/
@[simp] def held : ApPhase → Option (Nat × SlotIndex)
  | .away => none
  | .claimed n i | .took n i | .readService n i _ | .lookedUp n i _ _ _ | .incremented n i | .counted n i _
  | .ran n i _ | .rereadService n i _ | .missed n i _ _ | .halted n i => some (n, i)
  | .faulted _ h => h

/-- The AP has left its loop for good. -/
@[simp] def down : ApPhase → Bool
  | .halted .. | .faulted .. => true
  | _ => false

/-- The AP is still going to read the slot's ids. -/
@[simp] def readsIds : ApPhase → Bool
  | .claimed .. | .took .. | .readService .. | .lookedUp _ _ _ _ none | .rereadService .. => true
  | _ => false

/-- The AP has no slot in hand, or is done with the one it had. -/
@[simp] def idle : ApPhase → Bool
  | .away | .halted .. => true
  | _ => false

/-- No handler has returned under this claim. -/
@[simp] def beforeRun : ApPhase → Bool
  | .away | .ran .. | .faulted .. => false
  | _ => true

/-- The counter has not been incremented under this claim. -/
@[simp] def beforeIncrement : ApPhase → Bool
  | .claimed .. | .took .. | .readService .. | .lookedUp .. => true
  | _ => false

/-- The handler is running. -/
@[simp] def inHandler : ApPhase → Bool
  | .lookedUp _ _ _ _ (some _) | .incremented .. | .counted .. => true
  | _ => false

end ApPhase

/-- The AP's place, from its latest event. -/
@[simp] def Log.phase : Log → ApPhase
  | [] => .away
  | .claimed n i :: _ => .claimed n i
  | .took n i :: _ => .took n i
  | .readService n i svc :: _ => .readService n i svc
  | .lookedUp n i svc ifc h :: _ => .lookedUp n i svc ifc h
  | .incremented n i :: _ => .incremented n i
  | .counted n i h :: _ => .counted n i h
  | .ran n i run :: _ => .ran n i run
  | .completed .. :: _ => .away
  | .rejected .. :: _ => .away
  | .rereadService n i svc :: _ => .rereadService n i svc
  | .missed n i svc ifc :: _ => .missed n i svc ifc
  | .halted n i :: _ => .halted n i
  | .faulted v :: l => .faulted v (phase l).held
  | _ :: l => phase l

/-! ## Whose events a function depends on -/

namespace Log

/-- Two logs that agree on what a stream published and took back. -/
structure SameStream (l l' : Log) : Prop where
  began : began l' = began l
  publications : publications l' = publications l
  latest : ∀ i, latest i l' = latest i l
  streamBase : streamBase l' = streamBase l
  streamCounter : streamCounter l' = streamCounter l
  streamPlans : streamPlans l' = streamPlans l
  completions : completions l' = completions l

theorem SameStream.refl (l : Log) : SameStream l l :=
  ⟨rfl, rfl, fun _ => rfl, rfl, rfl, rfl, rfl⟩

theorem SameStream.unrecorded {l l' : Log} (h : SameStream l l') (i : SlotIndex) :
    Unrecorded i l' ↔ Unrecorded i l := by
  simp [Unrecorded, h.latest, h.streamBase, h.completions]

/-- Two logs that differ in events of the AP only. -/
structure SameBsp (l l' : Log) : Prop extends SameStream l l' where
  glanced : glanced l' = glanced l
  inVisit : inVisit l' = inVisit l
  published : ∀ n i p st, Event.published n i p st ∈ l' ↔ Event.published n i p st ∈ l

theorem SameBsp.refl (l : Log) : SameBsp l l :=
  ⟨.refl l, rfl, rfl, fun _ _ _ _ => Iff.rfl⟩

theorem SameBsp.cons {e : Event} (h : e.byAp = true) (l : Log) : SameBsp l (e :: l) := by
  cases e <;> simp [Event.byAp] at h
  all_goals exact ⟨⟨rfl, rfl, fun _ => rfl, rfl, rfl, rfl, rfl⟩, rfl, rfl, by simp⟩

/-- Two logs that differ in events of the BSP only. -/
structure SameAp (l l' : Log) : Prop where
  phase : l'.phase = l.phase
  claims : claims l' = claims l
  runs : runs l' = runs l
  increments : increments l' = increments l
  runsOf : ∀ n, runsOf n l' = runsOf n l
  runIndex : ∀ n, runIndex n l' = runIndex n l

theorem SameAp.refl (l : Log) : SameAp l l :=
  ⟨rfl, rfl, rfl, rfl, fun _ => rfl, fun _ => rfl⟩

theorem SameAp.cons {e : Event} (h : e.byAp = false) (l : Log) : SameAp l (e :: l) := by
  cases e <;> simp [Event.byAp] at h
  all_goals exact ⟨rfl, rfl, rfl, rfl, fun _ => rfl, fun _ => rfl⟩

end Log

end VibeKernel

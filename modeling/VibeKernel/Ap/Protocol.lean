import VibeKernel.Ap.Ping

/-!
# The protocol

What one access of the AP, and one access of the BSP, can do to the shared memory. The two programs
are shown to stay inside these relations once; every invariant is then proved from the relations.

## Knowledge

What the BSP knows when it acts depends on where the runs start. `Know` says how much a group of
runs offers:

* nothing: any memory, and the AP anywhere in its code;
* `strong`: the AP started properly, so `FAULTED` and `HALTED` are true and no claim is stale;
* `calm`: one stream, no timeout, and faults in handlers only;
* `ordered`: as `calm`, and slots finish in an order the BSP can see.
-/

namespace VibeKernel

/-- How much a group of runs lets the BSP know. -/
structure Know where
  strong : Prop
  calm : Prop
  ordered : Prop
  calm_strong : calm → strong
  ordered_calm : ordered → calm

/-! ## Parts of the memory -/

/-- Everything the request protocol looks at is as before. -/
structure SameShared (s s' : Machine) : Prop where
  error : s'.error = s.error
  online : s'.online = s.online
  apState : s'.apState = s.apState
  faultVector : s'.faultVector = s.faultVector
  slots : s'.slots = s.slots
  current : s'.currentRequestSlot = s.currentRequestSlot
  handled : s'.requestHandledCount = s.requestHandledCount
  counter : s'.counterValue = s.counterValue
  log : s'.log = s.log

/-- The reply and the metrics of a slot are what `run` wrote, for the request the slot names. -/
structure Matches (b : Build) (run : HandlerRun) (slot : ApRequestSlot) : Prop where
  handler : findApRequestHandler b slot.request.serviceId slot.request.interfaceId
    = some run.handler
  idHigh : slot.reply.requestIdHigh = slot.request.idHigh
  idLow : slot.reply.requestIdLow = slot.request.idLow
  resultCode : slot.reply.resultCode = run.resultCode
  faultCode : slot.reply.faultCode = run.faultCode
  handledCount : slot.metrics.handledCount = run.handledCount

/-- The reply of a slot is that of a dispatch miss for the request the slot names. -/
structure MissReply (b : Build) (slot : ApRequestSlot) : Prop where
  unregistered : findApRequestHandler b slot.request.serviceId slot.request.interfaceId = none
  resultCode : slot.reply.resultCode
    = apDispatchMissResultCode b slot.request.serviceId slot.request.interfaceId
  faultCode : slot.reply.faultCode = 0

/-- A value the counter can have had: `c0` and at most one for each increment in the log. -/
def CounterOk (c0 : UInt32) (l : Log) (v : UInt32) : Prop :=
  ∃ k ≤ l.increments.length, v = c0 + UInt32.ofNat k

/-! ## The AP -/

/-- One access of the AP. -/
inductive ApAct (b : Build) (c0 : UInt32) (s : Machine) : Machine → Prop
  | own {s'} (h : SameShared s s') (hh : s'.history = s.history) : ApAct b c0 s s'
  | dropCurrent (h : s.log.phase.idle = true) :
      ApAct b c0 s { s with currentRequestSlot := none }
  | goOnline : ApAct b c0 s { s with online := true }
  | backOnline (h : s.log.phase.down = false) : ApAct b c0 s { s with apState := .online }
  | claim (i : SlotIndex) (hp : s.log.phase = .away) (h : (s.slots i).state = .pending) :
      ApAct b c0 s ((s.setState i .running).note (.claimed (s.log.latest i) i))
  | reply {n : Nat} {i : SlotIndex} (f : ApReplyHeader → ApReplyHeader)
      (hp : s.log.phase.held = some (n, i)) (hd : s.log.phase.down = false) :
      ApAct b c0 s (s.setReply i f)
  | metrics {n : Nat} {i : SlotIndex} (v : UInt32)
      (hp : s.log.phase.held = some (n, i)) (hd : s.log.phase.down = false) :
      ApAct b c0 s (s.setMetrics i fun m => { m with handledCount := v })
  | take {n : Nat} {i : SlotIndex} (hp : s.log.phase = .claimed n i) :
      ApAct b c0 s ({ s with currentRequestSlot := some i }.note (.took n i))
  | readService {n : Nat} {i : SlotIndex} (hp : s.log.phase = .took n i) :
      ApAct b c0 s (s.note (.readService n i (s.slots i).request.serviceId))
  | lookUp {n : Nat} {i : SlotIndex} {svc : UInt64} (hp : s.log.phase = .readService n i svc) :
      ApAct b c0 s (s.note (.lookedUp n i svc (s.slots i).request.interfaceId
        (findApRequestHandler b svc (s.slots i).request.interfaceId)))
  | increment {n : Nat} {i : SlotIndex} {svc ifc : UInt64} (v : UInt32)
      (hp : s.log.phase = .lookedUp n i svc ifc (some .counterIncrement))
      (hv : CounterOk c0 s.log v) (hf : s.log.tampered = false → v = s.counterValue) :
      ApAct b c0 s ({ s with counterValue := v + 1 }.note (.incremented n i))
  | count {n : Nat} {i : SlotIndex} {h : ApRequestHandler} (v : UInt32)
      (hp : (∃ svc ifc, s.log.phase = .lookedUp n i svc ifc (some h) ∧ h = .pingRequest) ∨
        s.log.phase = .incremented n i ∧ h = .counterIncrement)
      (hf : s.log.tampered = false → v = s.requestHandledCount) :
      ApAct b c0 s ({ s with requestHandledCount := v + 1 }.note (.counted n i h))
  | run {n : Nat} {i : SlotIndex} {r : HandlerRun} (hp : s.log.phase = .counted n i r.handler)
      (h0 : r.faultCode = 0)
      (hf : s.log.tampered = false → r.handledCount = s.requestHandledCount ∧
        (r.handler = .counterIncrement → r.resultCode = s.counterValue)) :
      ApAct b c0 s ((s.setMetrics i fun m => { m with handledCount := r.handledCount }).note
        (.ran n i r))
  | complete {n : Nat} {i : SlotIndex} {r : HandlerRun} (hp : s.log.phase = .ran n i r)
      (h : (s.slots i).state = .running) (hm : Matches b r (s.slots i)) :
      ApAct b c0 s ((s.setState i .done).note (.completed n i))
  | reject {n : Nat} {i : SlotIndex} {r : HandlerRun} (hp : s.log.phase = .ran n i r)
      (h : (s.slots i).state ≠ .running) : ApAct b c0 s (s.note (.rejected n i))
  | rereadService {n : Nat} {i : SlotIndex} {svc ifc : UInt64}
      (hp : s.log.phase = .lookedUp n i svc ifc none) :
      ApAct b c0 s (s.note (.rereadService n i (s.slots i).request.serviceId))
  | miss {n : Nat} {i : SlotIndex} {svc : UInt64} (hp : s.log.phase = .rereadService n i svc) :
      ApAct b c0 s (s.note (.missed n i svc (s.slots i).request.interfaceId))
  | halt {n : Nat} {i : SlotIndex} {svc ifc : UInt64} (hp : s.log.phase = .missed n i svc ifc) :
      ApAct b c0 s ({ s with apState := .halted }.note (.halted n i))
  | badOp {n : Nat} {i : SlotIndex} (hp : s.log.phase = .halted n i)
      (h : (s.slots i).state = .running) (hm : MissReply b (s.slots i)) :
      ApAct b c0 s (s.setState i .badOp)
  | fault (v : UInt64) (hp : ∀ v' h, s.log.phase ≠ .faulted v' h) :
      ApAct b c0 s (s.note (.faulted v))
  | faultVector {v : UInt64} {h : Option (Nat × SlotIndex)} (hp : s.log.phase = .faulted v h)
      (ha : s.apState ≠ .faulted) : ApAct b c0 s { s with faultVector := v }
  | faultReply {v : UInt64} {h : Option (Nat × SlotIndex)} {i : SlotIndex}
      (f : ApReplyHeader → ApReplyHeader) (hp : s.log.phase = .faulted v h)
      (hc : s.currentRequestSlot = some i) (ha : s.apState ≠ .faulted)
      (hs : (s.slots i).state ≠ .done ∧ (s.slots i).state ≠ .badOp ∧ (s.slots i).state ≠ .fault) :
      ApAct b c0 s (s.setReply i f)
  | faultSlot {v : UInt64} {h : Option (Nat × SlotIndex)} {i : SlotIndex}
      (hp : s.log.phase = .faulted v h) (hc : s.currentRequestSlot = some i)
      (ha : s.apState ≠ .faulted)
      (hs : (s.slots i).state ≠ .done ∧ (s.slots i).state ≠ .badOp)
      (hr : (s.slots i).state = .running → (s.slots i).reply.faultCode = v.toUInt32) :
      ApAct b c0 s (s.setState i .fault)
  | post {v : UInt64} {h : Option (Nat × SlotIndex)} (hp : s.log.phase = .faulted v h)
      (hv : s.faultVector = v)
      (hs : ∀ i, s.currentRequestSlot = some i → (s.slots i).state ≠ .running) :
      ApAct b c0 s ({ s with apState := .faulted }.note .faultPosted)

/-! ## The BSP -/

/-- The notes that only mark where the BSP is. -/
def Event.isMark : Event → Bool
  | .visited .. | .inspected .. | .visitEnded => true
  | _ => false

theorem Event.not_byAp_of_isMark {e : Event} (h : e.isMark = true) : e.byAp = false := by
  cases e <;> simp_all [Event.isMark, Event.byAp]

/-- The BSP may record slot `i` now: no other unrecorded slot was done before it. -/
def ClearToRecord (i : SlotIndex) (s : Machine) : Prop :=
  (s.slots i).state = .done → ∀ j ≠ i, s.log.Unrecorded j → (s.slots j).state = .done →
    s.log.runIndex (s.log.latest i) < s.log.runIndex (s.log.latest j)

/-- One access of the BSP. -/
inductive BspAct (b : Build) (k : Know) (c0 : UInt32) (s : Machine) : Machine → Prop
  | own {s'} (h : SameShared s s') : BspAct b k c0 s s'
  | began (plan : List ApRequestPlan) (hc : k.calm → s.log.publications = 0) :
      BspAct b k c0 s (s.note (.streamBegan plan s.counterValue))
  | mark (e : Event) (h : e.isMark = true) : BspAct b k c0 s (s.note e)
  | overdue (i : SlotIndex) (hk : ¬ k.calm) : BspAct b k c0 s (s.note (.overdue i))
  | reset (i : SlotIndex)
      (h : k.strong → (s.slots i).state ≠ .pending ∧ (s.slots i).state ≠ .running)
      (hc : k.calm → s.log.latest i ≠ 0 → (s.slots i).state = .done ∧ ¬ s.log.Unrecorded i) :
      BspAct b k c0 s (s.setState i .empty)
  | prepare {i : SlotIndex} {w : SlotStore} (hw : w.IsField)
      (h : (s.slots i).state = .empty ∨ (s.slots i).state = .fault)
      (hc : k.calm → (s.slots i).state = .empty) :
      BspAct b k c0 s (s.setSlot i w.apply)
  | publish {i : SlotIndex} {plan : ApRequestPlan} {st : ApRequestStatus}
      (h : (s.slots i).state = .empty ∨ (s.slots i).state = .fault)
      (hr : (s.slots i).request = preparedHeader (b.apContextIndex + 1) plan)
      (hs : k.strong → st = .pending ∧ s.error = .ok ∨ st = .skipped ∧
          (s.log.phase.down = true ∨ s.error ≠ .ok) ∨
        st = .fault ∧ s.apState = .faulted ∧
          (s.slots i).reply.faultCode = s.faultVector.toUInt32)
      (hc : k.calm → (s.slots i).state = .empty) :
      BspAct b k c0 s (publishState i plan st s)
  | waitLoops (i : SlotIndex) (v : UInt32) :
      BspAct b k c0 s (s.setMetrics i fun m => { m with waitLoops := v })
  | stopReply (i : SlotIndex) (v : UInt32)
      (h : k.strong → s.apState = .faulted ∧ v = s.faultVector.toUInt32 ∧
        (s.slots i).state ≠ .done) :
      BspAct b k c0 s (s.setReply i fun r => { r with faultCode := v })
  | stopFault (i : SlotIndex)
      (h : k.strong → s.apState = .faulted ∧ (s.slots i).state ≠ .done ∧
        ((s.slots i).state = .running ∨ (s.slots i).state = .fault ∨
          (s.slots i).state = .badOp) ∧ (s.slots i).reply.faultCode = s.faultVector.toUInt32) :
      BspAct b k c0 s (s.setState i .fault)
  | stopSkip (i : SlotIndex)
      (h : k.strong → (s.log.phase.down = true ∨ s.error ≠ .ok) ∧
        ((s.slots i).state = .pending ∨ (s.slots i).state = .fault))
      (hc : k.calm → (s.slots i).state = .pending) :
      BspAct b k c0 s (s.setState i .skipped)
  | timeout (i : SlotIndex) (hk : ¬ k.calm)
      (h : (s.slots i).state = .pending ∨ (s.slots i).state = .running) :
      BspAct b k c0 s (s.setState i .timeout)
  | finish (i : SlotIndex) (v : UInt32) (h : (s.slots i).state.finished = true)
      (hu : s.log.Unrecorded i) (hc : k.ordered → ClearToRecord i s) :
      BspAct b k c0 s (finishStore i v s)
  | restoreHandled (v : UInt32) (hk : ¬ k.calm) :
      BspAct b k c0 s ({ s with requestHandledCount := v }.note .restored)
  | restoreCounter (v : UInt32) (hk : ¬ k.calm) (hv : k.strong → CounterOk c0 s.log v) :
      BspAct b k c0 s ({ s with counterValue := v }.note .restored)

end VibeKernel

import VibeKernel.Ap.Accesses

/-!
# What the BSP's code stores

The same walk through the BSP's code: which of it only reads, and which states the rest stores in which
slots, over which ones.
-/

namespace VibeKernel

open Conc

/-! ## Code that only reads -/

namespace Reading

open Prog (Within Reads)

theorem load {α : Type} (f : Machine → α) : Reads (.load f) := Within.load fun _ => rfl

theorem apBarred : Reads apBarred := by
  refine .seq (load _) fun error => ?_
  exact .cond (fun _ => .ret _) fun _ => load _

theorem apRequestStreamShouldStop : Reads apRequestStreamShouldStop := by
  refine .seq (load _) fun st => .cond (fun _ => .ret _) fun _ => ?_
  exact .seq (load _) fun st => .ret _

theorem countsAsIncrement (i : SlotIndex) : Reads (countsAsIncrement i) := by
  refine .seq (load _) fun isIncrement => .cond (fun _ => ?_) fun _ => .ret _
  refine .seq (load _) fun st => .cond (fun _ => ?_) fun _ => .ret _
  exact .seq (load _) fun faultCode => .ret _

theorem apStreamFinishedSlotOrder (i : SlotIndex) : Reads (apStreamFinishedSlotOrder i) := by
  refine .seq (load _) fun st => ?_
  refine .seq (.cond (fun _ => load _) fun _ => .ret _) fun handled => ?_
  exact .cond (fun _ => load _) fun _ => .ret _

theorem apStreamHasEarlierFinishedSlot (active : SlotIndex → Bool) (i : SlotIndex) :
    Reads (apStreamHasEarlierFinishedSlot active i) := by
  refine .seq (apStreamFinishedSlotOrder i) fun slotOrder => Within.someOf (fun j => ?_) _
  refine .cond (fun _ => .ret _) fun _ => ?_
  refine .seq (load _) fun st => .cond (fun _ => ?_) fun _ => .ret _
  exact .seq (apStreamFinishedSlotOrder j) fun order => .ret _

theorem apRequestStreamHasFinishedSlot (l : StreamLocals) :
    Reads (apRequestStreamHasFinishedSlot l) := by
  refine Within.someOf (fun i => ?_) _
  exact .cond (fun _ => load _) fun _ => .ret _

theorem apRequestAllDone : Reads apRequestAllDone := .allOf (fun _ => load _) _

theorem apContextCanAcceptBroadcastPing : Reads apContextCanAcceptBroadcastPing :=
  .allOf (fun _ => load _) _

end Reading

/-! ## Code that stores -/

/-- Every access of `p` is a `SlotAccess`. -/
abbrev BspCode (W : SlotIndex → Prop) (M : ApRequestStatus → ApRequestStatus → Prop) {α : Type}
    (p : Prog Machine α) : Prop :=
  p.Within (SlotAccess W M)

/-- `M` has the ends that the BSP itself gives a request. -/
def GivesUp (M : ApRequestStatus → ApRequestStatus → Prop) : Prop :=
  ∀ st st', st' = .fault ∨ st' = .skipped ∨ st' = .timeout → M st st'

/-- `M` has the end of a request that took too long. -/
structure TimesOut (M : ApRequestStatus → ApRequestStatus → Prop) : Prop where
  pending : M .pending .timeout
  running : M .running .timeout

theorem GivesUp.timesOut {M : ApRequestStatus → ApRequestStatus → Prop} (h : GivesUp M) : TimesOut M :=
  ⟨h _ _ (.inr (.inr rfl)), h _ _ (.inr (.inr rfl))⟩

/-- `W` and `M` let the BSP publish in every slot. -/
structure Publishes (W : SlotIndex → Prop) (M : ApRequestStatus → ApRequestStatus → Prop) : Prop where
  givesUp : GivesUp M
  empty : ∀ st, M st .empty
  pending : ∀ st, M st .pending
  slots : ∀ i, W i

namespace BspCode

open Prog (Within)

variable {W : SlotIndex → Prop} {M : ApRequestStatus → ApRequestStatus → Prop}
variable {α : Type} {b : Build} {i : SlotIndex} {plan : List ApRequestPlan} {l : StreamLocals}

theorem reads {p : Prog Machine α} (hp : p.Reads) : BspCode W M p := hp.within fun _ => .of_slots rfl

theorem load (f : Machine → α) : BspCode W M (.load f) := reads (Reading.load f)

/-- A store beside the slots. -/
theorem beside {f : Machine → Machine} (h : ∀ s, (f s).slots = s.slots) : BspCode W M (.store f) :=
  Within.store fun s => .of_slots (h s)

/-- A read that is noted. -/
theorem noted (f : Machine → α) (e : Machine → Event) :
    BspCode W M (.swap fun s => (f s, s.note (e s))) :=
  Within.swap fun _ => .of_slots rfl

/-- A store to a slot, beside its state and its count. -/
theorem slot (i : SlotIndex) {f : Machine → ApRequestSlot → ApRequestSlot}
    (hst : ∀ s, (f s (s.slots i)).state = (s.slots i).state)
    (hc : ∀ s, (f s (s.slots i)).metrics.handledCount = (s.slots i).metrics.handledCount) :
    BspCode W M (.store fun s => s.setSlot i (f s)) :=
  Within.store fun s => .setSlot (.inl (hst s)) (.inr (hc s))

theorem reply (i : SlotIndex) (f : Machine → ApReplyHeader → ApReplyHeader) :
    BspCode W M (.store fun s => s.setReply i (f s)) :=
  slot i (f := fun s slot => { slot with reply := f s slot.reply }) (fun _ => rfl) fun _ => rfl

theorem waitLoops (i : SlotIndex) (w : UInt32) :
    BspCode W M (.store fun s => s.setMetrics i fun m => { m with waitLoops := w }) :=
  slot i (f := fun _ slot => { slot with metrics.waitLoops := w }) (fun _ => rfl) fun _ => rfl

theorem state (i : SlotIndex) {st : ApRequestStatus} (h : ∀ st₀, M st₀ st) :
    BspCode W M (.store fun s => s.setState i st) :=
  Within.store fun _ => .setState (h _)

theorem cmpxchg (i : SlotIndex) (st : ApRequestStatus) {st' : ApRequestStatus} (h : M st st') :
    BspCode W M (.swap (cmpxchgState i st st')) := by
  refine Within.swap fun s => ?_
  unfold cmpxchgState
  split
  · rename_i hs
    exact .setState (hs ▸ h)
  · exact .of_slots rfl

/-! ### Publishing -/

/-- Stores to one slot, of which those to its state are the one of `EMPTY`. -/
theorem stores (hE : ∀ st, M st .empty) (hi : W i) {ws : List SlotStore}
    (h : ∀ w ∈ ws, w = .state .empty ∨ w.IsField) : BspCode W M (storeSlot i ws) := by
  refine Within.forEach_mem fun w hw => Within.store fun s => .setSlot ?_ (.inl hi)
  rcases h w hw with rfl | hf
  · exact .inr (hE _)
  · exact .inl (SlotStore.apply_state_of_isField hf _)

theorem resetApInboxSlot (hE : ∀ st, M st .empty) (hi : W i) : BspCode W M (resetApInboxSlot i) := by
  refine .seq (stores hE hi fun w hw => ?_) fun _ => .forEach (fun w => ?_) _
  · exact (List.mem_cons.1 hw).imp_right (resetApRequestSlotFields_isField w)
  · exact beside fun _ => rfl

theorem published (i : SlotIndex) (p : ApRequestPlan) {st : ApRequestStatus} (h : ∀ st₀, M st₀ st) :
    BspCode W M (.store (publishState i p st)) :=
  Within.store fun s => (SlotAccess.setState (i := i) (h (s.slots i).state)).note _

theorem publishApInboxRequest (h : Publishes W M) (p : ApRequestPlan) :
    BspCode W M (publishApInboxRequest b i p) := by
  have hskipped : BspCode W M (.store (publishState i p .skipped)) :=
    published i p fun st => h.givesUp st _ (.inr (.inl rfl))
  refine .seq (resetApInboxSlot h.empty (h.slots i)) fun _ => ?_
  refine .seq (stores h.empty (h.slots i) fun w hw =>
    .inr (prepareApRequestSlotFromPlan_isField _ _ w hw)) fun _ => ?_
  refine .seq (load _) fun st => .cond (fun _ => ?_) fun _ => ?_
  · refine .seq (load _) fun v => ?_
    exact .seq (reply _ _) fun _ => published i p fun st => h.givesUp st _ (.inl rfl)
  · refine .seq (reads Reading.apBarred) fun barred => .cond (fun _ => hskipped) fun _ => ?_
    refine .seq (load _) fun st => .cond (fun _ => hskipped) fun _ => ?_
    exact published i p h.pending

/-! ### Taking a request back -/

theorem recordApRequestHistory (index : Nat) (i : SlotIndex) (v : UInt32) :
    BspCode W M (recordApRequestHistory index i v) := by
  unfold VibeKernel.recordApRequestHistory
  split
  · refine .seq (.forEach (fun c => ?_) _) fun _ => ?_
    · exact beside fun _ => rfl
    refine .seq (beside fun _ => rfl) fun _ => ?_
    exact .seq (beside fun _ => rfl) fun _ => beside fun _ => rfl
  · exact .ret _

theorem recordApStreamSlot (index : Nat) (i : SlotIndex) (v : UInt32) :
    BspCode W M (recordApStreamSlot index i v) := by
  refine .seq (reads (Reading.countsAsIncrement i)) fun counts => ?_
  exact .seq (recordApRequestHistory _ _ _) fun _ => .ret _

theorem finishStore (i : SlotIndex) (w : UInt32) : BspCode W M (.store (finishStore i w)) :=
  Within.store fun _ => (SlotAccess.setSlot (.inl rfl) (.inr rfl)).note _

theorem finishApStreamSlot (l : StreamLocals) (i : SlotIndex) (w : UInt32) :
    BspCode W M (finishApStreamSlot l i w) := by
  refine .seq (noted _ _) fun st => .cond (fun _ => .ret _) fun _ => ?_
  refine .seq (finishStore i w) fun _ => ?_
  exact .seq (recordApStreamSlot _ _ _) fun v => .ret _

theorem stopSlot (hM : GivesUp M) (w : UInt32) (i : SlotIndex) : BspCode W M (stopSlot w i) := by
  refine .seq (load _) fun st => .cond (fun _ => .ret _) fun _ => ?_
  refine .seq (waitLoops i w) fun _ => ?_
  refine .seq (load _) fun ap => .cond (fun _ => ?_) fun _ => .cond (fun _ => ?_) fun _ => .ret _
  · refine .seq (load _) fun v => ?_
    exact .seq (reply _ _) fun _ => state i fun st => hM st _ (.inl rfl)
  · exact state i fun st => hM st _ (.inr (.inl rfl))

theorem stopApRequestStream (hM : GivesUp M) (l : StreamLocals) :
    BspCode W M (stopApRequestStream l) := by
  refine .forEach (fun i => ?_) _
  exact .cond (fun _ => stopSlot hM _ i) fun _ => .ret _

/-! ### The stream -/

theorem publishNext (h : Publishes W M) (i : SlotIndex) : BspCode W M (publishNext b plan l i) := by
  unfold VibeKernel.publishNext
  split
  · exact .ret _
  · exact .seq (publishApInboxRequest h _) fun _ => .ret _

theorem refillSlot (h : Publishes W M) (i : SlotIndex) (done : Bool) :
    BspCode W M (refillSlot b plan l i done) := by
  refine .cond (fun _ => ?_) fun _ => .ret _
  refine .seq (reads Reading.apRequestStreamShouldStop) fun stop => ?_
  exact .cond (fun _ => .ret _) fun _ => publishNext h i

theorem visitSlot (h : Publishes W M) (i : SlotIndex) : BspCode W M (visitSlot b plan l i) := by
  refine .cond (fun _ => .ret _) fun _ => ?_
  refine .seq (noted _ _) fun st => ?_
  refine .seq (.cond (fun _ => reads (Reading.apStreamHasEarlierFinishedSlot _ _)) fun _ => .ret _)
    fun deferred => ?_
  refine .cond (fun _ => ?_) fun _ => ?_
  · exact .seq (beside fun _ => rfl) fun _ => .ret _
  · refine .seq (finishApStreamSlot _ _ _) fun r => ?_
    exact .seq (beside fun _ => rfl) fun _ => refillSlot h i _

/-- The two cmpxchgs that give up on a slot. -/
theorem giveUp (hM : TimesOut M) (i : SlotIndex) : BspCode W M (do
    let ok ← .swap (cmpxchgState i .pending .timeout)
    if ok then pure ()
    else do
      let _ ← .swap (cmpxchgState i .running .timeout)
      pure ()) := by
  refine .seq (cmpxchg i _ hM.pending) fun ok => .cond (fun _ => .ret _) fun _ => ?_
  exact .seq (cmpxchg i _ hM.running) fun _ => .ret _

theorem timeOutSlot (hM : TimesOut M) (i : SlotIndex) (st : ApRequestStatus) :
    BspCode W M (timeOutSlot b i st) := by
  refine .cond (fun _ => .ret _) fun _ => ?_
  exact .seq (waitLoops i _) fun _ => giveUp hM i

theorem finishTimedOutSlot (hM : TimesOut M) (l : StreamLocals) (i : SlotIndex) :
    BspCode W M (finishTimedOutSlot b l i) := by
  refine .cond (fun _ => .ret _) fun _ => ?_
  refine .seq (noted _ _) fun st => ?_
  refine .seq (timeOutSlot hM i st) fun _ => ?_
  exact .seq (finishApStreamSlot _ _ _) fun r => .ret _

theorem streamEpilogue (hM : TimesOut M) : BspCode W M (streamEpilogue b plan l) := by
  refine .seq (.foldOver (finishTimedOutSlot hM) _ _) fun l => ?_
  exact .seq (.cond (fun _ => reads Reading.apRequestAllDone) fun _ => .ret _) fun result => .ret _

theorem streamDecide (hM : GivesUp M) : BspCode W M (streamDecide b plan l) := by
  refine .cond (fun _ => streamEpilogue hM.timesOut) fun _ => .cond (fun _ => ?_) fun _ => ?_
  · refine .seq (reads (Reading.apRequestStreamHasFinishedSlot l)) fun more => ?_
    refine .cond (fun _ => .ret _) fun _ => ?_
    exact .cond (fun _ => streamEpilogue hM.timesOut) fun _ => .ret _
  · refine .cond (fun _ => streamEpilogue hM.timesOut) fun _ => ?_
    exact .seq .any fun timer => .ret _

theorem streamRound (h : Publishes W M) : BspCode W M (streamRound b plan l) := by
  refine .seq (reads Reading.apRequestStreamShouldStop) fun stop => ?_
  refine .seq (.cond (fun _ => stopApRequestStream h.givesUp _) fun _ => .ret _) fun _ => ?_
  refine .seq (.foldOver (fun l i => visitSlot h i) _ _) fun l => ?_
  refine .seq (.cond (fun _ => stopApRequestStream h.givesUp _) fun _ => .ret _) fun _ => ?_
  exact streamDecide h.givesUp

theorem resetApQueueSummary : BspCode W M resetApQueueSummary := by
  have hsummary : ∀ g : Machine → ApQueueSummary,
      BspCode W M (.store fun s => { s with queueSummary := g s }) := fun g => beside fun _ => rfl
  refine .seq (hsummary _) fun _ => ?_
  refine .seq (hsummary _) fun _ => ?_
  refine .seq (hsummary _) fun _ => ?_
  refine .seq (hsummary _) fun _ => ?_
  exact .seq (hsummary _) fun _ => hsummary _

theorem resetApRequestHistory : BspCode W M resetApRequestHistory := by
  refine .forEach (fun k => ?_) _
  refine .seq (.forEach (fun w => ?_) _) fun _ => ?_
  · exact beside fun _ => rfl
  refine .seq (beside fun _ => rfl) fun _ => ?_
  exact .seq (beside fun _ => rfl) fun _ => beside fun _ => rfl

theorem runApRequestStream (h : Publishes W M) : BspCode W M (runApRequestStream b plan) := by
  refine .seq (noted _ _) fun counterBase => ?_
  refine .seq resetApQueueSummary fun _ => ?_
  refine .seq resetApRequestHistory fun _ => ?_
  refine .seq (beside fun _ => rfl) fun _ => ?_
  refine .seq (.forEach (fun i => resetApInboxSlot h.empty (h.slots i)) _) fun _ => ?_
  refine .seq (reads Reading.apRequestStreamShouldStop) fun stop => .cond (fun _ => ?_) fun _ => ?_
  · refine .seq (load _) fun st => ?_
    exact .seq (beside fun _ => rfl) fun _ => .ret _
  · exact .seq (.foldOver (fun l i => publishNext h i) _ _) fun l => .ret _

/-! ### The broadcast ping -/

theorem recordApBroadcastPingResult (i : SlotIndex) (w : UInt32) :
    BspCode W M (recordApBroadcastPingResult i w) := by
  refine .seq (.forEach (fun w => ?_) _) fun _ => ?_
  · exact beside fun _ => rfl
  refine .seq (.allOf (fun _ => load _) _) fun ok => ?_
  exact .cond (fun _ => beside fun _ => rfl) fun _ => beside fun _ => rfl

theorem timeoutApBroadcastPingSlot (hM : TimesOut M) (i : SlotIndex) :
    BspCode W M (timeoutApBroadcastPingSlot b i) := by
  refine .seq (waitLoops i _) fun _ => ?_
  exact .seq (load _) fun st => .cond (fun _ => .ret _) fun _ => giveUp hM i

theorem timeOutPing (hM : TimesOut M) : BspCode W M (timeOutPing b) :=
  .seq (timeoutApBroadcastPingSlot hM _) fun _ => recordApBroadcastPingResult _ _

theorem restoreTarget (l : PingLocals) : BspCode W M (restoreTarget l) := by
  refine .cond (fun _ => ?_) fun _ => .ret _
  exact .seq (beside fun _ => rfl) fun _ => beside fun _ => rfl

theorem pingRound (hM : TimesOut M) (l : PingLocals) : BspCode W M (pingRound b l) := by
  refine .cond (fun _ => ?_) fun _ => ?_
  · refine .seq (load _) fun st => .cond (fun _ => ?_) fun _ => ?_
    · refine .seq (waitLoops _ _) fun _ => ?_
      exact .seq (recordApBroadcastPingResult _ _) fun _ => .ret _
    · exact .seq .any fun timer => .ret _
  · refine .seq (.cond (fun _ => timeOutPing hM) fun _ => .ret _) fun _ => ?_
    exact .seq (restoreTarget l) fun _ => .ret _

theorem runApBroadcastPing (h : Publishes W M) (isTarget : Bool) :
    BspCode W M (runApBroadcastPing b isTarget) := by
  refine .seq (.cond (fun _ => load _) fun _ => .ret _) fun handled => ?_
  refine .seq (.cond (fun _ => load _) fun _ => .ret _) fun counter => ?_
  refine .seq (beside fun _ => rfl) fun _ => ?_
  refine .seq (reads Reading.apContextCanAcceptBroadcastPing) fun accepts => ?_
  refine .seq (.cond (fun _ => ?_) fun _ => .ret _) fun _ => .ret _
  exact .seq (publishApInboxRequest h _) fun _ => beside fun _ => rfl

/-- **The BSP's code**, from any of its control points. -/
theorem bspBody (h : Publishes W M)
    {again : Bool} (pc : BspPc) (p : Prog Machine BspPc) (hp : bspBody b again pc = some p) :
    BspCode W M p := by
  cases pc with
  | next =>
    cases again with
    | true =>
      obtain rfl := Option.some.inj hp
      refine .seq .any fun call => ?_
      cases call with
      | ping isTarget => exact runApBroadcastPing h isTarget
      | stream plan => exact runApRequestStream h
    | false => cases hp
  | streamLoop plan l =>
    obtain rfl := Option.some.inj hp
    exact streamRound h
  | streamReturned plan l result =>
    cases again with
    | true =>
      obtain rfl := Option.some.inj hp
      exact .ret _
    | false => cases hp
  | pingLoop l =>
    obtain rfl := Option.some.inj hp
    exact pingRound h.givesUp.timesOut l

end BspCode

/-! ## Where the code of a ping ends -/

/-- A point outside of a stream. -/
def BspPc.offStream : BspPc → Prop
  | .next | .pingLoop _ => True
  | .streamLoop .. | .streamReturned .. => False

theorem runApBroadcastPing_offStream (b : Build) (isTarget : Bool) :
    (runApBroadcastPing b isTarget).Ends BspPc.offStream := by
  unfold runApBroadcastPing
  iterate 5 refine .bind (fun _ => ?_) _
  exact .ret trivial

theorem pingRound_offStream (b : Build) (l : PingLocals) : (pingRound b l).Ends BspPc.offStream := by
  unfold pingRound
  refine .cond (.bind (fun st => .cond ?_ ?_) _) ?_
  · iterate 2 refine .bind (fun _ => ?_) _
    exact .ret trivial
  · refine .bind (fun timer => ?_) _
    exact .ret trivial
  · iterate 2 refine .bind (fun _ => ?_) _
    exact .ret trivial

end VibeKernel

import VibeKernel.Conc.SecondWalk
import VibeKernel.Ap.Ping

/-!
# What the AP's code stores

The AP's code is walked once, for all that is proved of it from any memory: which states an access
stores, over which ones, and whose counts it writes.
-/

namespace VibeKernel

open Conc

/-! ## Accesses -/

/-- An access that replaces a state only where `M` relates the old one to the new one, and writes the
counts of the slots in `W` only. -/
structure SlotAccess (W : SlotIndex → Prop) (M : ApRequestStatus → ApRequestStatus → Prop)
    (s s' : Machine) : Prop where
  state : ∀ i, (s'.slots i).state = (s.slots i).state ∨ M (s.slots i).state (s'.slots i).state
  count : ∀ i, ¬ W i → (s'.slots i).metrics.handledCount = (s.slots i).metrics.handledCount

/-- The states one access of the AP can take a slot from and to. -/
def ApMove (st st' : ApRequestStatus) : Prop :=
  st' = .fault ∨ st = .pending ∧ st' = .running ∨ st = .running ∧ (st' = .done ∨ st' = .badOp)

/-- Nothing but what is the AP's own business has changed. -/
structure ApAside (s s' : Machine) : Prop where
  slots : s'.slots = s.slots
  history : s'.history = s.history
  error : s'.error = s.error
  targetApicId : s'.targetApicId = s.targetApicId
  log : s'.log = s.log

/-- One access of the AP's code. -/
structure ApAccess (W : SlotIndex → Prop) (M : ApRequestStatus → ApRequestStatus → Prop)
    (s s' : Machine) : Prop extends SlotAccess W M s s' where
  request : ∀ i, (s'.slots i).request = (s.slots i).request
  history : s'.history = s.history
  error : s'.error = s.error
  targetApicId : s'.targetApicId = s.targetApicId
  log : s'.log = s.log ∨ ∃ e : Event, e.byAp = true ∧ s'.log = e :: s.log

section Access

variable {W : SlotIndex → Prop} {M : ApRequestStatus → ApRequestStatus → Prop}
variable {s s' : Machine} {i : SlotIndex} {f : ApRequestSlot → ApRequestSlot}

theorem SlotAccess.of_slots (h : s'.slots = s.slots) : SlotAccess W M s s' :=
  ⟨fun _ => .inl (by rw [h]), fun _ _ => by rw [h]⟩

theorem SlotAccess.setSlot
    (hst : (f (s.slots i)).state = (s.slots i).state ∨ M (s.slots i).state (f (s.slots i)).state)
    (hc : W i ∨ (f (s.slots i)).metrics.handledCount = (s.slots i).metrics.handledCount) :
    SlotAccess W M s (s.setSlot i f) := by
  constructor
  · intro j
    by_cases hj : j = i
    · subst hj
      simpa using hst
    · simp [hj]
  · intro j hW
    by_cases hj : j = i
    · subst hj
      simpa using hc.resolve_left hW
    · simp [hj]

theorem SlotAccess.setState {st : ApRequestStatus} (h : M (s.slots i).state st) :
    SlotAccess W M s (s.setState i st) :=
  .setSlot (.inr h) (.inr rfl)

/-- A note in the log stores nothing. -/
theorem SlotAccess.note (h : SlotAccess W M s s') (e : Event) : SlotAccess W M s (s'.note e) :=
  ⟨h.state, h.count⟩

theorem ApAccess.of_aside (h : ApAside s s') : ApAccess W M s s' where
  toSlotAccess := .of_slots h.slots
  request _ := by rw [h.slots]
  history := h.history
  error := h.error
  targetApicId := h.targetApicId
  log := .inl h.log

theorem ApAccess.setSlot (h : SlotAccess W M s (s.setSlot i f))
    (hr : (f (s.slots i)).request = (s.slots i).request) : ApAccess W M s (s.setSlot i f) where
  toSlotAccess := h
  request j := by
    by_cases hj : j = i
    · subst hj
      simpa using hr
    · simp [hj]
  history := rfl
  error := rfl
  targetApicId := rfl
  log := .inl rfl

theorem ApAccess.setState {st : ApRequestStatus} (h : M (s.slots i).state st) :
    ApAccess W M s (s.setState i st) :=
  .setSlot (.setState h) rfl

/-- An access that the AP notes. -/
theorem ApAccess.note (h : ApAccess W M s s') (hl : s'.log = s.log) {e : Event} (he : e.byAp = true) :
    ApAccess W M s (s'.note e) where
  toSlotAccess := h.toSlotAccess.note e
  request := h.request
  history := h.history
  error := h.error
  targetApicId := h.targetApicId
  log := .inr ⟨e, he, by rw [Machine.note_log, hl]⟩

end Access

/-! ## The AP's code -/

/-- Every access of `p` is one of the AP's. -/
abbrev ApCode (W : SlotIndex → Prop) (M : ApRequestStatus → ApRequestStatus → Prop) {α : Type}
    (p : Prog Machine α) : Prop :=
  p.Within (ApAccess W M)

/-- `M` has the moves of the AP, with the exception of that to `DONE`. -/
def Moves (M : ApRequestStatus → ApRequestStatus → Prop) : Prop :=
  ∀ st st', ApMove st st' → st' ≠ .done → M st st'

namespace ApCode

open Prog (Within)

variable {W : SlotIndex → Prop} {M : ApRequestStatus → ApRequestStatus → Prop}
variable {α : Type} {b : Build} {n : Nat} {i : SlotIndex}

theorem load (f : Machine → α) : ApCode W M (.load f) :=
  Within.load fun _ => .of_aside ⟨rfl, rfl, rfl, rfl, rfl⟩

theorem aside {f : Machine → Machine} (h : ∀ s, ApAside s (f s)) : ApCode W M (.store f) :=
  Within.store fun s => .of_aside (h s)

/-- A store aside that is noted. -/
theorem asideNote {f : Machine → Machine} {e : Event} (he : e.byAp = true) (h : ∀ s, ApAside s (f s)) :
    ApCode W M (.store fun s => (f s).note e) :=
  Within.store fun s => (ApAccess.of_aside (h s)).note (h s).log he

/-- A read that is noted. -/
theorem noted (f : Machine → α) {e : Machine → Event} (he : ∀ s, (e s).byAp = true) :
    ApCode W M (.swap fun s => (f s, s.note (e s))) :=
  Within.swap fun s => (ApAccess.of_aside ⟨rfl, rfl, rfl, rfl, rfl⟩).note rfl (he s)

theorem summary (g : Machine → ApQueueSummary) :
    ApCode W M (.store fun s => { s with queueSummary := g s }) :=
  aside fun _ => ⟨rfl, rfl, rfl, rfl, rfl⟩

theorem reply (i : SlotIndex) (f : ApReplyHeader → ApReplyHeader) :
    ApCode W M (.store fun s => s.setReply i f) :=
  Within.store fun _ => .setSlot (.setSlot (.inl rfl) (.inr rfl)) rfl

theorem metrics (hi : W i) (f : ApRequestMetrics → ApRequestMetrics) :
    ApCode W M (.store fun s => s.setMetrics i f) :=
  Within.store fun _ => .setSlot (.setSlot (.inl rfl) (.inl hi)) rfl

theorem cmpxchg (i : SlotIndex) {st st' : ApRequestStatus} (h : M st st') :
    ApCode W M (.swap (cmpxchgState i st st')) := by
  refine Within.swap fun s => ?_
  unfold cmpxchgState
  split
  · rename_i hs
    exact .setState (hs ▸ h)
  · exact .of_aside ⟨rfl, rfl, rfl, rfl, rfl⟩

theorem apQueueNoteSlotStart : ApCode W M (apQueueNoteSlotStart i) :=
  .seq (summary _) fun _ => summary _

theorem apQueueNoteSlotTerminal (st : ApRequestStatus) (r : ApQueueStop) :
    ApCode W M (apQueueNoteSlotTerminal i st r) := by
  refine .seq (summary _) fun _ => ?_
  refine .seq (load _) fun handled => ?_
  refine .seq (summary _) fun _ => ?_
  refine .seq (summary _) fun _ => ?_
  refine .seq (summary _) fun _ => ?_
  refine .seq ?_ fun drained => summary _
  refine .cond (fun _ => .allOf (fun j => ?_) _) fun _ => .ret _
  exact .cond (fun _ => .ret _) fun _ => load _

theorem copyRequestId : ApCode W M (copyRequestId i) := by
  refine .seq (load _) fun idHigh => ?_
  refine .seq (reply _ _) fun _ => ?_
  exact .seq (load _) fun idLow => reply _ _

theorem beginApReply : ApCode W M (beginApReply i) := by
  refine .seq copyRequestId fun _ => ?_
  exact .seq (reply _ _) fun _ => reply _ _

theorem prepareApServiceContext : ApCode W M prepareApServiceContext := by
  refine .forEach (fun w => ?_) _
  exact aside fun _ => ⟨rfl, rfl, rfl, rfl, rfl⟩

theorem enqueueChildren : ApCode W M enqueueChildren := by
  refine .seq .any fun children => .forEach (fun plan => ?_) children
  exact aside fun _ => ⟨rfl, rfl, rfl, rfl, rfl⟩

theorem noteApRequestHandled (h : ApRequestHandler) : ApCode W M (noteApRequestHandled n i h) := by
  refine .seq (load _) fun handled => ?_
  refine .seq (asideNote rfl fun _ => ⟨rfl, rfl, rfl, rfl, rfl⟩) fun _ => ?_
  exact load _

theorem storeSelectors : ApCode W M (storeSelectors i) := by
  refine .seq .any fun cs => ?_
  refine .seq (reply _ _) fun _ => ?_
  exact .seq .any fun tr => reply _ _

theorem storeResult (hi : W i) (h : ApRequestHandler) (v : UInt32) :
    ApCode W M (storeResult n i h v) := by
  refine .seq (reply _ _) fun _ => ?_
  refine .seq (reply _ _) fun _ => ?_
  refine .seq (noteApRequestHandled h) fun handled => Within.store fun s => ?_
  exact ApAccess.note (.setSlot (.setSlot (.inl rfl) (.inl hi)) rfl) rfl rfl

theorem callHandler (hi : W i) (h : ApRequestHandler) : ApCode W M (callHandler n i h) := by
  cases h with
  | pingRequest =>
    refine .seq enqueueChildren fun _ => ?_
    exact .seq storeSelectors fun _ => storeResult hi _ _
  | counterIncrement =>
    refine .seq enqueueChildren fun _ => ?_
    refine .seq (load _) fun v => ?_
    refine .seq (asideNote rfl fun _ => ⟨rfl, rfl, rfl, rfl, rfl⟩) fun _ => ?_
    refine .seq storeSelectors fun _ => ?_
    exact .seq (load _) fun v => storeResult hi _ _

theorem storeCommitted (ws : List OutboxStore) : ApCode W M (storeCommitted i ws) := by
  refine .forEach (fun w => ?_) ws
  exact aside fun _ => ⟨rfl, rfl, rfl, rfl, rfl⟩

theorem completeApRequestDoneWithOutbox (hd : M .running .done) :
    ApCode W M (completeApRequestDoneWithOutbox n i) := by
  refine .seq (load _) fun scratch => ?_
  refine .seq (storeCommitted _) fun _ => ?_
  refine .seq (Within.swap fun s => ?_) fun ok => ?_
  · unfold completeSlot
    split
    · rename_i hr
      exact (ApAccess.setState (hr ▸ hd)).note rfl rfl
    · exact (ApAccess.of_aside ⟨rfl, rfl, rfl, rfl, rfl⟩).note rfl rfl
  · refine .cond (fun _ => .ret _) fun _ => ?_
    exact .seq (storeCommitted _) fun _ => .ret _

theorem handleRequest (hd : M .running .done) (hi : W i) (h : ApRequestHandler) :
    ApCode W M (handleRequest b n i h) := by
  unfold VibeKernel.handleRequest
  split
  · exact .ret _
  · refine .seq (callHandler hi h) fun _ => ?_
    refine .seq (aside fun _ => ⟨rfl, rfl, rfl, rfl, rfl⟩) fun _ => ?_
    refine .seq (aside fun _ => ⟨rfl, rfl, rfl, rfl, rfl⟩) fun _ => ?_
    refine .seq (completeApRequestDoneWithOutbox hd) fun ok => ?_
    refine .seq (.cond (fun _ => apQueueNoteSlotTerminal _ _) fun _ => .ret _) fun _ => ?_
    exact .seq (aside fun _ => ⟨rfl, rfl, rfl, rfl, rfl⟩) fun _ => .ret _

theorem missRequest (hM : Moves M) : ApCode W M (missRequest b n i) := by
  have hbadOp : M .running .badOp := hM _ _ (.inr (.inr ⟨rfl, .inr rfl⟩)) nofun
  refine .seq (noted _ fun _ => rfl) fun svc => ?_
  refine .seq (noted _ fun _ => rfl) fun ifc => ?_
  refine .seq (reply _ _) fun _ => ?_
  refine .seq (reply _ _) fun _ => ?_
  refine .seq (asideNote rfl fun _ => ⟨rfl, rfl, rfl, rfl, rfl⟩) fun _ => ?_
  refine .seq (aside fun _ => ⟨rfl, rfl, rfl, rfl, rfl⟩) fun _ => ?_
  refine .seq (apQueueNoteSlotTerminal _ _) fun _ => ?_
  refine .seq (aside fun _ => ⟨rfl, rfl, rfl, rfl, rfl⟩) fun _ => ?_
  exact .seq (cmpxchg i hbadOp) fun _ => .ret _

theorem dispatchRequest (hM : Moves M) (hd : M .running .done) (hi : W i) :
    ApCode W M (dispatchRequest b n i) := by
  refine .seq (asideNote rfl fun _ => ⟨rfl, rfl, rfl, rfl, rfl⟩) fun _ => ?_
  refine .seq apQueueNoteSlotStart fun _ => ?_
  refine .seq (load _) fun handled => ?_
  refine .seq (metrics hi _) fun _ => ?_
  refine .seq beginApReply fun _ => ?_
  refine .seq (aside fun _ => ⟨rfl, rfl, rfl, rfl, rfl⟩) fun _ => ?_
  refine .seq prepareApServiceContext fun _ => ?_
  refine .seq (noted _ fun _ => rfl) fun svc => ?_
  refine .seq (noted _ fun _ => rfl) fun handler => ?_
  cases handler with
  | some h => exact handleRequest hd hi h
  | none => exact missRequest hM

theorem claim (hM : Moves M) : ApCode W M (.swap (claimSlot i)) := by
  refine Within.swap fun s => ?_
  unfold claimSlot
  split
  · rename_i hp
    have hclaim : M (s.slots i).state .running := hM _ _ (.inr (.inl ⟨hp, rfl⟩)) nofun
    exact (ApAccess.setState hclaim).note rfl rfl
  · exact .of_aside ⟨rfl, rfl, rfl, rfl, rfl⟩

theorem scanSlot (hM : Moves M) (hd : M .running .done) (hi : W i) (w : Bool) :
    ApCode W M (scanSlot b i w) := by
  refine .seq (load _) fun st => ?_
  refine .cond (fun _ => .ret _) fun _ => ?_
  refine .seq (claim hM) fun won => ?_
  cases won with
  | none => exact .ret _
  | some n => exact dispatchRequest hM hd hi

theorem apRequestLoopEntry : ApCode W M apRequestLoopEntry := by
  refine .seq (aside fun _ => ⟨rfl, rfl, rfl, rfl, rfl⟩) fun _ => ?_
  refine .seq (aside fun _ => ⟨rfl, rfl, rfl, rfl, rfl⟩) fun _ => ?_
  exact .seq (aside fun _ => ⟨rfl, rfl, rfl, rfl, rfl⟩) fun _ => .ret _

/-- **The AP's code**, from any of its control points. -/
theorem apBody (hM : Moves M) (hd : M .running .done) (hW : ∀ i, W i) (pc : ApPc)
    (p : Prog Machine ApPc) (hp : apBody b pc = some p) : ApCode W M p := by
  cases pc with
  | start =>
    obtain rfl := Option.some.inj hp
    exact apRequestLoopEntry
  | scan i w =>
    rw [VibeKernel.apBody] at hp
    split at hp
    · obtain rfl := Option.some.inj hp
      exact scanSlot hM hd (hW _) w
    · obtain rfl := Option.some.inj hp
      exact .ret _
  | hung | ud2 | halted | faulted => cases hp

theorem faultReply (v : UInt64) (st : ApRequestStatus) : ApCode W M (faultReply v i st) := by
  refine .cond (fun _ => ?_) fun _ => .ret _
  refine .seq (.cond (fun _ => copyRequestId) fun _ => .ret _) fun _ => ?_
  exact reply _ _

theorem faultSlot (hM : Moves M) : ApCode W M (faultSlot i) := by
  have hfault : ∀ st, M st .fault := fun st => hM st _ (.inl rfl) nofun
  refine .seq (summary _) fun _ => ?_
  refine .seq (summary _) fun _ => ?_
  refine .seq (summary _) fun _ => ?_
  refine .seq (summary _) fun _ => ?_
  refine .seq (cmpxchg i (hfault _)) fun ok => .cond (fun _ => .ret _) fun _ => ?_
  refine .seq (cmpxchg i (hfault _)) fun ok => .cond (fun _ => .ret _) fun _ => ?_
  refine .seq (load _) fun st => .cond (fun _ => ?_) fun _ => .ret _
  exact Within.store fun s => .setState (hfault _)

theorem faultRequestState (slot : Option SlotIndex) : ApCode W M (faultRequestState slot) := by
  cases slot with
  | none => exact .ret _
  | some i => exact load _

theorem faultRequest (hM : Moves M) (v : UInt64) (st : ApRequestStatus) (slot : Option SlotIndex) :
    ApCode W M (faultRequest v st slot) := by
  cases slot with
  | none => exact .ret _
  | some i => exact .seq (faultReply _ _) fun _ => faultSlot hM

/-- **`ap_fault_dispatch`.** -/
theorem apFaultDispatch (hM : Moves M) (frame : FaultFrame) : ApCode W M (apFaultDispatch frame) := by
  refine .seq (load _) fun slot => ?_
  refine .seq (faultRequestState slot) fun st => ?_
  refine .seq (load _) fun entry => ?_
  refine .seq (aside fun _ => ⟨rfl, rfl, rfl, rfl, rfl⟩) fun _ => ?_
  refine .seq (.forEach (fun w => ?_) _) fun _ => ?_
  · exact aside fun _ => ⟨rfl, rfl, rfl, rfl, rfl⟩
  refine .seq (faultRequest hM _ _ _) fun _ => ?_
  refine .seq (aside fun _ => ⟨rfl, rfl, rfl, rfl, rfl⟩) fun _ => ?_
  refine .seq (asideNote rfl fun _ => ⟨rfl, rfl, rfl, rfl, rfl⟩) fun _ => ?_
  exact .seq (aside fun _ => ⟨rfl, rfl, rfl, rfl, rfl⟩) fun _ => .ret _

end ApCode

end VibeKernel

import VibeKernel.Conc.RelyGuarantee
import VibeKernel.Ap.SlotInvariant

/-!
# The AP stays inside the protocol

The AP's program is walked once, against what it can see of the BSP. While a claim is open and its
slot is still `RUNNING`, nobody else writes the slot, so what the AP wrote is there to the end.
-/

namespace VibeKernel

open Conc

/-! ## What the AP sees of the BSP -/

/-- One access of the BSP, as the AP sees it. -/
structure BspSeen (s s' : Machine) : Prop where
  phase : s'.log.phase = s.log.phase
  increments : s'.log.increments = s.log.increments
  current : s'.currentRequestSlot = s.currentRequestSlot
  apState : s'.apState = s.apState
  faultVector : s'.faultVector = s.faultVector
  counts : s'.log.tampered = false → s.log.tampered = false ∧
    s'.requestHandledCount = s.requestHandledCount ∧ s'.counterValue = s.counterValue
  running : ∀ i, (s'.slots i).state = .running → (s.slots i).state = .running ∧
    (s'.slots i).request = (s.slots i).request ∧
    (s'.slots i).metrics.handledCount = (s.slots i).metrics.handledCount ∧
    (s.apState ≠ .faulted → (s'.slots i).reply = (s.slots i).reply)
  ended : ∀ i, (s'.slots i).state = .done ∨ (s'.slots i).state = .badOp →
    (s'.slots i).state = (s.slots i).state
  fault : ∀ i, (s'.slots i).state = .fault → (s.slots i).state = .fault ∨ s.apState = .faulted

/-- A change of slot `i` that the AP cannot mind. -/
theorem bspSeen_setSlot {s : Machine} {i : SlotIndex} {f : ApRequestSlot → ApRequestSlot}
    (hr : (f (s.slots i)).state = .running → (s.slots i).state = .running ∧
      (f (s.slots i)).request = (s.slots i).request ∧
      (f (s.slots i)).metrics.handledCount = (s.slots i).metrics.handledCount ∧
      (s.apState ≠ .faulted → (f (s.slots i)).reply = (s.slots i).reply))
    (he : (f (s.slots i)).state = .done ∨ (f (s.slots i)).state = .badOp →
      (f (s.slots i)).state = (s.slots i).state)
    (hf : (f (s.slots i)).state = .fault → (s.slots i).state = .fault ∨ s.apState = .faulted) :
    BspSeen s (s.setSlot i f) := by
  refine ⟨rfl, rfl, rfl, rfl, rfl, fun h => ⟨h, rfl, rfl⟩, ?_, ?_, ?_⟩ <;> intro j
  all_goals
    by_cases hj : j = i
    · subst hj
      first | simpa using hr | simpa using he | simpa using hf
    · simp +contextual [hj]

/-- Noting an event of the BSP. -/
theorem BspSeen.note {s s' : Machine} (h : BspSeen s s') {e : Event} (he : e.byAp = false)
    (hr : e ≠ .restored) : BspSeen s (s'.note e) := by
  have ha := Log.SameAp.cons he s'.log
  have ht : Log.tampered (e :: s'.log) = s'.log.tampered := by
    cases e <;> first | rfl | exact (hr rfl).elim | simp [Event.byAp] at he
  refine { h with phase := ?_, increments := ?_, counts := ?_ }
  · rw [Machine.note_log, ha.phase]
    exact h.phase
  · rw [Machine.note_log, ha.increments]
    exact h.increments
  · rw [Machine.note_log, ht]
    exact h.counts

theorem BspSeen.refl (s : Machine) : BspSeen s s :=
  ⟨rfl, rfl, rfl, rfl, rfl, fun h => ⟨h, rfl, rfl⟩, fun _ h => ⟨h, rfl, rfl, fun _ => rfl⟩,
    fun _ _ => rfl, fun _ h => Or.inl h⟩

/-- Every access of the BSP looks like this to the AP. -/
theorem BspAct.seen {b : Build} {k : Know} {c0 : UInt32} {s s' : Machine} (hk : k.strong)
    (ha : BspAct b k c0 s s') : BspSeen s s' := by
  cases ha with
  | own h =>
    refine ⟨by rw [h.log], by rw [h.log], h.current, h.apState, h.faultVector, ?_, ?_, ?_, ?_⟩
    · rw [h.log]
      exact fun ht => ⟨ht, h.handled, h.counter⟩
    all_goals rw [h.slots]
    · exact fun i hi => ⟨hi, rfl, rfl, fun _ => rfl⟩
    · exact fun _ _ => rfl
    · exact fun _ hi => Or.inl hi
  | mark e he =>
    exact (BspSeen.refl s).note (Event.not_byAp_of_isMark he) (by rintro rfl; cases he)
  | began | overdue => exact (BspSeen.refl s).note rfl (by simp)
  | reset i => exact bspSeen_setSlot (by simp) (by simp) (by simp)
  | @prepare i w hw hi =>
    have hst := SlotStore.apply_state_of_isField hw (s.slots i)
    refine bspSeen_setSlot ?_ (fun _ => hst) (fun hf => Or.inl (hst ▸ hf))
    intro hr
    rw [hst] at hr
    rcases hi with hi | hi <;> simp [hi] at hr
  | @publish i plan st hi hr hs =>
    have hst := hs hk
    refine BspSeen.note (bspSeen_setSlot ?_ ?_ ?_) rfl (by simp)
    · rcases hst with ⟨rfl, -⟩ | ⟨rfl, -⟩ | ⟨rfl, -⟩ <;> simp
    · rcases hst with ⟨rfl, -⟩ | ⟨rfl, -⟩ | ⟨rfl, -⟩ <;> simp
    · rcases hst with ⟨rfl, -⟩ | ⟨rfl, -⟩ | ⟨rfl, hf, -⟩ <;> simp_all
  | waitLoops i v => exact bspSeen_setSlot (by simp) (by simp) (by simp +contextual)
  | stopReply i v hs =>
    -- only after the AP has posted its fault, so the reply is not the AP's to write any more
    have hf := (hs hk).1
    exact bspSeen_setSlot (by simp [hf]) (by simp) (by simp [hf])
  | stopFault i hs => exact bspSeen_setSlot (by simp) (by simp) (by simp [(hs hk).1])
  | stopSkip i => exact bspSeen_setSlot (by simp) (by simp) (by simp)
  | timeout i => exact bspSeen_setSlot (by simp) (by simp) (by simp)
  | finish i v =>
    exact BspSeen.note (bspSeen_setSlot (by simp) (by simp) (by simp +contextual)) rfl (by simp)
  | restoreHandled v | restoreCounter v =>
    exact ⟨rfl, rfl, rfl, rfl, rfl, by simp, fun _ h => ⟨h, rfl, rfl, fun _ => rfl⟩,
      fun _ _ => rfl, fun _ h => Or.inl h⟩

/-! ## Assertions -/

/-- What the walk needs of its surroundings. -/
structure ApEnv (b : Build) (c0 : UInt32) (E : Env Machine) : Prop where
  inv : ∀ s, E.inv s → MachineInv b c0 s
  guar : ∀ s s', E.inv s → ApAct b c0 s s' → E.guar s s'
  rely : ∀ s s', E.rely s s' → MachineInv b c0 s ∧ BspSeen s s'

/-- An assertion that neither the BSP nor the AP's own bookkeeping can falsify. -/
structure Local (E : Env Machine) (P : Machine → Prop) : Prop where
  stable : Stable E P
  shared : ∀ s s', SameShared s s' → P s → P s'

theorem Local.and {E : Env Machine} {P Q : Machine → Prop} (hP : Local E P) (hQ : Local E Q) :
    Local E fun s => P s ∧ Q s :=
  ⟨hP.stable.and hQ.stable, fun s s' h hs => ⟨hP.shared s s' h hs.1, hQ.shared s s' h hs.2⟩⟩

/-- The AP is at `ph`. If the slot it works on is still `RUNNING`, then `Q` holds of what is in it.
If the counters were not put back since the claim, then `W` holds of them. -/
structure Work (i : SlotIndex) (ph : ApPhase)
    (Q : ApRequestHeader → ApReplyHeader → UInt32 → Prop) (W : UInt32 → UInt32 → Prop)
    (s : Machine) : Prop where
  phase : s.log.phase = ph
  slot : (s.slots i).state = .running →
    Q (s.slots i).request (s.slots i).reply (s.slots i).metrics.handledCount
  counts : s.log.tampered = false → W s.requestHandledCount s.counterValue

section Walk

variable {b : Build} {c0 : UInt32} {E : Env Machine} {n : Nat} {i : SlotIndex} {ph : ApPhase}
variable {Q K : ApRequestHeader → ApReplyHeader → UInt32 → Prop} {W W' : UInt32 → UInt32 → Prop}
variable {P : Machine → Prop}

theorem Work.local (hE : ApEnv b c0 E) (hph : ∀ v h, ph ≠ .faulted v h) :
    Local E (Work i ph Q W) where
  stable s s' hr hs := by
    obtain ⟨hinv, hseen⟩ := hE.rely s s' hr
    refine ⟨hseen.phase.trans hs.phase, fun hrun => ?_, fun ht => ?_⟩
    · obtain ⟨hrun', hreq, hcount, hreply⟩ := hseen.running i hrun
      have hf : s.apState ≠ .faulted := by
        intro hf
        obtain ⟨v, h, hp, -⟩ := hinv.faulted hf
        exact hph v h (hs.phase.symm.trans hp)
      rw [hreq, hcount, hreply hf]
      exact hs.slot hrun'
    · obtain ⟨ht', hh, hc⟩ := hseen.counts ht
      rw [hh, hc]
      exact hs.counts ht'
  shared s s' h hs := by
    refine ⟨by rw [h.log]; exact hs.phase, ?_, ?_⟩
    · rw [h.slots]
      exact hs.slot
    · rw [h.log, h.handled, h.counter]
      exact hs.counts

theorem phase_local (hE : ApEnv b c0 E) : Local E fun s => s.log.phase = ph :=
  ⟨fun s s' hr hs => (hE.rely s s' hr).2.phase.trans hs, fun _ _ h hs => by rw [h.log]; exact hs⟩

theorem counterOk_local (hE : ApEnv b c0 E) {v : UInt32} :
    Local E fun s => CounterOk c0 s.log v :=
  ⟨fun s s' hr hs => by simpa only [CounterOk, (hE.rely s s' hr).2.increments] using hs,
    fun _ _ h hs => by rw [h.log]; exact hs⟩

theorem ApEnv.refl (hE : ApEnv b c0 E) (s : Machine) (hs : E.inv s) : E.guar s s :=
  hE.guar s s hs (.own ⟨rfl, rfl, rfl, rfl, rfl, rfl, rfl, rfl, rfl⟩ rfl)

/-! ## Single accesses -/

/-- A read whose answer does not matter. -/
theorem read_keep {α : Type} (hE : ApEnv b c0 E) (hP : Local E P) (f : Machine → α) :
    Triple E P (.load f) fun _ => P :=
  .load hP.stable hE.refl fun _ _ hs => hs

/-- A store to the AP's own bookkeeping. -/
theorem own_keep (hE : ApEnv b c0 E) (hP : Local E P) {f : Machine → Machine}
    (hf : ∀ s, SameShared s (f s)) (hh : ∀ s, (f s).history = s.history) :
    Triple E P (.store f) fun _ => P :=
  .store hP.stable fun s hs _ hp => ⟨hE.guar _ _ hs (.own (hf s) (hh s)), hP.shared _ _ (hf s) hp⟩

/-- A read of the slot the AP works on. -/
theorem read_slot {α : Type} (hE : ApEnv b c0 E) (hph : ∀ v h, ph ≠ .faulted v h)
    (f : ApRequestHeader → α) :
    Triple E (Work i ph Q W) (.load fun s => f (s.slots i).request) fun a =>
      Work i ph (fun req rep c => Q req rep c ∧ a = f req) W :=
  .load (Work.local hE hph).stable hE.refl fun _ _ hs =>
    ⟨hs.phase, fun hr => ⟨hs.slot hr, rfl⟩, hs.counts⟩

/-- A store to the reply of the slot the AP works on. -/
theorem store_reply (hE : ApEnv b c0 E) (hh : ph.held = some (n, i)) (hd : ph.down = false)
    (f : ApReplyHeader → ApReplyHeader) (hQ : ∀ req rep c, Q req rep c → K req (f rep) c) :
    Triple E (Work i ph Q W) (.store fun s => s.setReply i f) fun _ => Work i ph K W := by
  have hph : ∀ v h, ph ≠ .faulted v h := by rintro v h rfl; simp at hd
  refine .store (Work.local hE hph).stable fun s hs _ hp => ⟨hE.guar _ _ hs ?_, ?_⟩
  · exact .reply f (hp.phase ▸ hh) (hp.phase ▸ hd)
  · refine ⟨hp.phase, fun hr => ?_, hp.counts⟩
    simp only [Machine.setSlot_slots_self] at hr ⊢
    exact hQ _ _ _ (hp.slot hr)

/-- A store to the reply that keeps what was known. -/
theorem store_reply_keep (hE : ApEnv b c0 E) (hh : ph.held = some (n, i)) (hd : ph.down = false)
    {f : ApReplyHeader → ApReplyHeader} (hQ : ∀ req rep c, Q req rep c → Q req (f rep) c) :
    Triple E (Work i ph Q W) (.store fun s => s.setReply i f) fun _ => Work i ph Q W :=
  store_reply hE hh hd f hQ

/-- A store to `handled_count` of the slot the AP works on. -/
theorem store_handled (hE : ApEnv b c0 E) (hh : ph.held = some (n, i)) (hd : ph.down = false)
    (v : UInt32) (hQ : ∀ req rep c, Q req rep c → K req rep v) :
    Triple E (Work i ph Q W) (.store fun s => s.setMetrics i fun m => { m with handledCount := v })
      fun _ => Work i ph K W := by
  have hph : ∀ v h, ph ≠ .faulted v h := by rintro v h rfl; simp at hd
  refine .store (Work.local hE hph).stable fun s hs _ hp => ⟨hE.guar _ _ hs ?_, ?_⟩
  · exact .metrics v (hp.phase ▸ hh) (hp.phase ▸ hd)
  · refine ⟨hp.phase, fun hr => ?_, hp.counts⟩
    simp only [Machine.setSlot_slots_self] at hr ⊢
    exact hQ _ _ _ (hp.slot hr)

/-! ## Bookkeeping -/

theorem apQueueNoteSlotStart_keep (hE : ApEnv b c0 E) (hP : Local E P) (j : SlotIndex) :
    Triple E P (apQueueNoteSlotStart j) fun _ => P :=
  .bind (own_keep hE hP (fun _ => ⟨rfl, rfl, rfl, rfl, rfl, rfl, rfl, rfl, rfl⟩) fun _ => rfl)
    fun _ => own_keep hE hP (fun _ => ⟨rfl, rfl, rfl, rfl, rfl, rfl, rfl, rfl, rfl⟩) fun _ => rfl

theorem apQueueAllOtherSlotsDone_keep (hE : ApEnv b c0 E) (hP : Local E P) (j : SlotIndex) :
    Triple E P (apQueueAllOtherSlotsDone j) fun _ => P := by
  refine Triple.allOf (I := fun _ => P) (fun _ hs => hs) (fun c cs => ?_) _
  refine Triple.cond (fun _ => Triple.ret fun s hs => by simpa using hs) fun _ => ?_
  exact (read_keep hE hP _).post fun a s hs => by simpa using hs

theorem apQueueNoteSlotTerminal_keep (hE : ApEnv b c0 E) (hP : Local E P) (j : SlotIndex)
    (st : ApRequestStatus) (r : ApQueueStop) :
    Triple E P (apQueueNoteSlotTerminal j st r) fun _ => P := by
  have hown : ∀ g : Machine → ApQueueSummary,
      Triple E P (.store fun s => { s with queueSummary := g s }) fun _ => P := fun g =>
    own_keep hE hP (fun _ => ⟨rfl, rfl, rfl, rfl, rfl, rfl, rfl, rfl, rfl⟩) fun _ => rfl
  refine .bind (hown _) fun _ => ?_
  refine .bind (read_keep hE hP _) fun v => ?_
  iterate 3 refine .bind (hown _) fun _ => ?_
  refine .bind ?_ fun d => hown _
  exact Triple.cond (fun _ => apQueueAllOtherSlotsDone_keep hE hP j) fun _ => .ret fun _ hs => hs

theorem prepareApServiceContext_keep (hE : ApEnv b c0 E) (hP : Local E P) :
    Triple E P prepareApServiceContext fun _ => P :=
  .forEach_keep fun _ _ =>
    own_keep hE hP (fun _ => ⟨rfl, rfl, rfl, rfl, rfl, rfl, rfl, rfl, rfl⟩) fun _ => rfl

theorem enqueueChildren_keep (hE : ApEnv b c0 E) (hP : Local E P) :
    Triple E P enqueueChildren fun _ => P :=
  .bind Triple.any fun _ => .forEach_keep fun _ _ =>
    own_keep hE hP (fun _ => ⟨rfl, rfl, rfl, rfl, rfl, rfl, rfl, rfl, rfl⟩) fun _ => rfl

theorem storeCommitted_keep (hE : ApEnv b c0 E) (hP : Local E P) (j : SlotIndex)
    (ws : List OutboxStore) : Triple E P (storeCommitted j ws) fun _ => P :=
  .forEach_keep fun _ _ =>
    own_keep hE hP (fun _ => ⟨rfl, rfl, rfl, rfl, rfl, rfl, rfl, rfl, rfl⟩) fun _ => rfl

/-! ## From the claim to the lookup -/

/-- `begin_ap_reply` copied the id of the request. -/
def Begun (req : ApRequestHeader) (rep : ApReplyHeader) : Prop :=
  rep.requestIdHigh = req.idHigh ∧ rep.requestIdLow = req.idLow

theorem copyRequestId_triple (hE : ApEnv b c0 E) (hh : ph.held = some (n, i))
    (hd : ph.down = false) :
    Triple E (Work i ph (fun _ _ _ => True) W) (copyRequestId i) fun _ =>
      Work i ph (fun req rep _ => Begun req rep) W := by
  have hph : ∀ v h, ph ≠ .faulted v h := by rintro v h rfl; simp at hd
  refine .bind (read_slot hE hph (·.idHigh)) fun idHigh => ?_
  refine .bind (store_reply hE hh hd _ (K := fun req rep _ => rep.requestIdHigh = req.idHigh)
    fun req rep c hq => hq.2) fun _ => ?_
  refine .bind (read_slot hE hph (·.idLow)) fun idLow => ?_
  exact store_reply hE hh hd _ fun req rep c hq => hq

theorem beginApReply_triple (hE : ApEnv b c0 E) (hh : ph.held = some (n, i))
    (hd : ph.down = false) :
    Triple E (Work i ph (fun _ _ _ => True) W) (beginApReply i) fun _ =>
      Work i ph (fun req rep _ => Begun req rep) W := by
  refine .bind (copyRequestId_triple hE hh hd) fun _ => ?_
  refine .bind (store_reply_keep hE hh hd fun _ _ _ hq => hq) fun _ => ?_
  exact store_reply_keep hE hh hd fun _ _ _ hq => hq

/-- The two reads of ids and the lookup. `Found` is what they leave. -/
def Found (svc ifc : UInt64) (req : ApRequestHeader) (rep : ApReplyHeader) : Prop :=
  Begun req rep ∧ req.serviceId = svc ∧ req.interfaceId = ifc

theorem readService_triple (hE : ApEnv b c0 E) :
    Triple E (Work i (.took n i) (fun req rep _ => Begun req rep) W)
      (.swap fun s =>
        ((s.slots i).request.serviceId, s.note (.readService n i (s.slots i).request.serviceId)))
      fun svc => Work i (.readService n i svc)
        (fun req rep _ => Begun req rep ∧ req.serviceId = svc) W := by
  refine .swap (Work.local hE (by simp)).stable fun s hs _ hp => ⟨?_, ?_⟩
  · exact hE.guar _ _ hs (.readService hp.phase)
  · exact ⟨rfl, fun hr => ⟨hp.slot hr, rfl⟩, hp.counts⟩

theorem lookUp_triple (hE : ApEnv b c0 E) (svc : UInt64) :
    Triple E (Work i (.readService n i svc)
        (fun req rep _ => Begun req rep ∧ req.serviceId = svc) W)
      (.swap fun s =>
        let ifc := (s.slots i).request.interfaceId
        let handler := findApRequestHandler b svc ifc
        (handler, s.note (.lookedUp n i svc ifc handler)))
      fun handler s => ∃ ifc, handler = findApRequestHandler b svc ifc ∧
        Work i (.lookedUp n i svc ifc handler) (fun req rep _ => Found svc ifc req rep) W s := by
  refine .swap (Work.local hE (by simp)).stable fun s hs _ hp => ⟨?_, ?_⟩
  · exact hE.guar _ _ hs (.lookUp hp.phase)
  · exact ⟨_, rfl, rfl, fun hr => ⟨(hp.slot hr).1, (hp.slot hr).2, rfl⟩, hp.counts⟩

/-! ## Handlers -/

theorem storeSelectors_triple (hE : ApEnv b c0 E) {svc ifc : UInt64}
    (hh : ph.held = some (n, i)) (hd : ph.down = false) :
    Triple E (Work i ph (fun req rep _ => Found svc ifc req rep) W) (storeSelectors i) fun _ =>
      Work i ph (fun req rep _ => Found svc ifc req rep) W := by
  refine .bind .any fun _ => ?_
  refine .bind (store_reply_keep hE hh hd fun _ _ _ hq => hq) fun _ => ?_
  exact .bind .any fun _ => store_reply_keep hE hh hd fun _ _ _ hq => hq

/-- Where a handler stands when it is about to count the request. -/
def ReadyToCount (n : Nat) (i : SlotIndex) (svc ifc : UInt64) :
    ApRequestHandler → ApPhase
  | .pingRequest => .lookedUp n i svc ifc (some .pingRequest)
  | .counterIncrement => .incremented n i

/-- What a handler's reply says about the counter. -/
def ResultFresh (h : ApRequestHandler) (resultCode counter : UInt32) : Prop :=
  h = .counterIncrement → resultCode = counter

theorem noteApRequestHandled_triple (hE : ApEnv b c0 E) {svc ifc : UInt64}
    (h : ApRequestHandler) (resultCode : UInt32) :
    Triple E (Work i (ReadyToCount n i svc ifc h) Q fun _ counter => ResultFresh h resultCode counter)
      (noteApRequestHandled n i h) fun handled => Work i (.counted n i h) Q
        fun count counter => handled = count ∧ ResultFresh h resultCode counter := by
  have hready : ∀ v h', ReadyToCount n i svc ifc h ≠ .faulted v h' := by
    cases h <;> simp [ReadyToCount]
  refine .bind (R := fun v => Work i (ReadyToCount n i svc ifc h) Q
    fun count counter => v = count ∧ ResultFresh h resultCode counter) ?_ fun v => ?_
  · exact .load (Work.local hE hready).stable hE.refl fun s _ hp =>
      ⟨hp.phase, hp.slot, fun ht => ⟨rfl, hp.counts ht⟩⟩
  refine .bind (R := fun _ => Work i (.counted n i h) Q
    fun count counter => v + 1 = count ∧ ResultFresh h resultCode counter) ?_ fun _ => ?_
  · refine .store (Work.local hE hready).stable fun s hs _ hp => ⟨hE.guar _ _ hs ?_, ?_⟩
    · refine .count v ?_ fun ht => (hp.counts ht).1
      cases h with
      | pingRequest => exact Or.inl ⟨svc, ifc, hp.phase, rfl⟩
      | counterIncrement => exact Or.inr ⟨hp.phase, rfl⟩
    · exact ⟨rfl, hp.slot, fun ht => ⟨rfl, (hp.counts ht).2⟩⟩
  · exact .load (Work.local hE (by simp)).stable hE.refl fun s _ hp =>
      ⟨hp.phase, hp.slot, fun ht => ⟨rfl, (hp.counts ht).2⟩⟩

/-- The slot shows the run `r`. -/
def Shows (b : Build) (r : HandlerRun) (req : ApRequestHeader) (rep : ApReplyHeader)
    (handled : UInt32) : Prop :=
  findApRequestHandler b req.serviceId req.interfaceId = some r.handler ∧ Begun req rep ∧
    rep.resultCode = r.resultCode ∧ rep.faultCode = r.faultCode ∧ handled = r.handledCount

theorem Shows.matches {r : HandlerRun} {slot : ApRequestSlot}
    (h : Shows b r slot.request slot.reply slot.metrics.handledCount) : Matches b r slot :=
  ⟨h.1, h.2.1.1, h.2.1.2, h.2.2.1, h.2.2.2.1, h.2.2.2.2⟩

/-- The end of a handler. -/
theorem storeResult_triple (hE : ApEnv b c0 E) {svc ifc : UInt64} (h : ApRequestHandler)
    (hf : findApRequestHandler b svc ifc = some h) (resultCode : UInt32) :
    Triple E (Work i (ReadyToCount n i svc ifc h) (fun req rep _ => Found svc ifc req rep)
        fun _ counter => ResultFresh h resultCode counter)
      (storeResult n i h resultCode) fun _ s => ∃ r, Work i (.ran n i r) (Shows b r)
        (fun _ _ => True) s := by
  have hheld : (ReadyToCount n i svc ifc h).held = some (n, i) := by
    cases h <;> simp [ReadyToCount]
  have hdown : (ReadyToCount n i svc ifc h).down = false := by
    cases h <;> simp [ReadyToCount]
  refine .bind (store_reply hE hheld hdown _
    (K := fun req rep _ => Found svc ifc req rep ∧ rep.resultCode = resultCode)
    fun req rep c hq => ⟨hq, rfl⟩) fun _ => ?_
  refine .bind (store_reply hE hheld hdown _ (K := fun req rep _ => Found svc ifc req rep ∧
    rep.resultCode = resultCode ∧ rep.faultCode = 0) fun req rep c hq => ⟨hq.1, hq.2, rfl⟩)
    fun _ => ?_
  refine .bind (noteApRequestHandled_triple hE h resultCode) fun handled => ?_
  refine .store (Work.local hE (by simp)).stable fun s hs _ hp => ⟨hE.guar _ _ hs ?_, ?_⟩
  · exact .run (r := ⟨h, resultCode, 0, handled⟩) hp.phase rfl fun ht =>
      ⟨(hp.counts ht).1, (hp.counts ht).2⟩
  · refine ⟨⟨h, resultCode, 0, handled⟩, rfl, fun hr => ?_, fun _ => trivial⟩
    simp only [Machine.note_slots, Machine.setSlot_slots_self] at hr ⊢
    obtain ⟨⟨hb, hsvc, hifc⟩, hres, hfault⟩ := hp.slot hr
    exact ⟨by rw [hsvc, hifc, hf], hb, hres, hfault, rfl⟩

/-- **A handler, from the lookup to its last store.** -/
theorem callHandler_triple (hE : ApEnv b c0 E) {svc ifc : UInt64} (h : ApRequestHandler)
    (hf : findApRequestHandler b svc ifc = some h) :
    Triple E (Work i (.lookedUp n i svc ifc (some h)) (fun req rep _ => Found svc ifc req rep)
        fun _ _ => True)
      (callHandler n i h) fun _ s => ∃ r, Work i (.ran n i r) (Shows b r) (fun _ _ => True) s := by
  cases h with
  | pingRequest =>
    refine .bind (enqueueChildren_keep hE (Work.local hE (by simp))) fun _ => ?_
    refine .bind (storeSelectors_triple hE rfl rfl) fun _ => ?_
    exact (storeResult_triple hE .pingRequest hf 0).pre fun s hp =>
        ⟨hp.phase, hp.slot, fun _ h => by cases h⟩
  | counterIncrement =>
    refine .bind (enqueueChildren_keep hE (Work.local hE (by simp))) fun _ => ?_
    refine .bind (R := fun v s => Work i (.lookedUp n i svc ifc (some .counterIncrement))
      (fun req rep _ => Found svc ifc req rep) (fun _ counter => v = counter) s ∧
        CounterOk c0 s.log v) ?_ fun v => ?_
    · exact .load (Work.local hE (by simp)).stable hE.refl fun s hs hp =>
        ⟨⟨hp.phase, hp.slot, fun _ => rfl⟩, (hE.inv s hs).counter⟩
    refine .bind (R := fun _ => Work i (.incremented n i)
      (fun req rep _ => Found svc ifc req rep) fun _ _ => True) ?_ fun _ => ?_
    · -- the BSP may have restored the counter since the read, so only `CounterOk` is known of it
      refine .store ((Work.local hE (by simp)).and (counterOk_local hE)).stable
        fun s hs _ hp => ⟨hE.guar _ _ hs ?_, rfl, hp.1.slot, fun _ => trivial⟩
      exact .increment v hp.1.phase hp.2 hp.1.counts
    refine .bind (storeSelectors_triple hE rfl rfl) fun _ => ?_
    refine .bind (R := fun v => Work i (.incremented n i)
      (fun req rep _ => Found svc ifc req rep) fun _ counter => v = counter) ?_ fun v => ?_
    · exact .load (Work.local hE (by simp)).stable hE.refl fun s _ hp =>
        ⟨hp.phase, hp.slot, fun _ => rfl⟩
    · exact (storeResult_triple hE .counterIncrement hf v).pre fun s hp =>
        ⟨hp.phase, hp.slot, fun ht _ => hp.counts ht⟩

/-! ## After the lookup -/

theorem completeApRequestDoneWithOutbox_triple (hE : ApEnv b c0 E) (r : HandlerRun) :
    Triple E (Work i (.ran n i r) (Shows b r) fun _ _ => True)
      (completeApRequestDoneWithOutbox n i) fun _ s => s.log.phase = .away := by
  have hloc : Local E (Work i (.ran n i r) (Shows b r) fun _ _ => True) :=
    Work.local hE (by simp)
  refine .bind (read_keep hE hloc _) fun scratch => ?_
  refine .bind (storeCommitted_keep hE hloc i _) fun _ => ?_
  refine .bind (R := fun _ s => s.log.phase = .away) ?_ fun ok => ?_
  · refine .swap hloc.stable fun s hs _ hp => ?_
    by_cases hr : (s.slots i).state = .running
    · simp only [completeSlot, hr, if_true]
      exact ⟨hE.guar _ _ hs (.complete hp.phase hr (hp.slot hr).matches), rfl⟩
    · simp only [completeSlot, hr, if_false]
      exact ⟨hE.guar _ _ hs (.reject hp.phase hr), rfl⟩
  · exact Triple.cond (fun _ => .ret fun _ hs => hs) fun _ =>
      .bind (storeCommitted_keep hE (phase_local hE) i _) fun _ => .ret fun _ hs => hs

/-- Where the AP is between two pieces of its code. -/
def apCut : ApPc → Machine → Prop
  | .start, s | .scan _ _, s => s.log.phase = .away
  | .hung, _ | .ud2, _ | .halted, _ | .faulted, _ => True

theorem dropCurrent_keep (hE : ApEnv b c0 E) (hP : Local E P)
    (hidle : ∀ s, P s → s.log.phase.idle = true)
    (hkeep : ∀ s, P s → P { s with currentRequestSlot := none }) :
    Triple E P (.store fun s => { s with currentRequestSlot := none }) fun _ => P :=
  .store hP.stable fun s hs _ hp => ⟨hE.guar _ _ hs (.dropCurrent (hidle s hp)), hkeep s hp⟩

/-- A handled request, to the next slot of the scan. -/
theorem handleRequest_triple (hE : ApEnv b c0 E) {svc ifc : UInt64} (h : ApRequestHandler)
    (hf : findApRequestHandler b svc ifc = some h) :
    Triple E (Work i (.lookedUp n i svc ifc (some h)) (fun req rep _ => Found svc ifc req rep)
        fun _ _ => True) (handleRequest b n i h) apCut := by
  unfold handleRequest
  cases hook : runApRequestTestHook b h with
  | some pc =>
    refine .ret fun s _ => ?_
    unfold runApRequestTestHook at hook
    split at hook
    · cases hook
    · cases hook; trivial
    · split at hook <;> cases hook
      trivial
  | none =>
    refine .bind (callHandler_triple hE h hf) fun _ => Triple.exists fun r => ?_
    have hloc : Local E (Work i (.ran n i r) (Shows b r) fun _ _ => True) :=
      Work.local hE (by simp)
    refine .bind (R := fun _ => Work i (.ran n i r) (Shows b r) fun _ _ => True) ?_ fun _ => ?_
    · exact .store hloc.stable fun s hs _ hp =>
        ⟨hE.guar _ _ hs (.backOnline (by simp [hp.phase])), hp.phase, hp.slot, hp.counts⟩
    refine .bind (own_keep hE hloc (fun _ => ⟨rfl, rfl, rfl, rfl, rfl, rfl, rfl, rfl, rfl⟩)
      fun _ => rfl) fun _ => ?_
    refine .bind (completeApRequestDoneWithOutbox_triple hE r) fun ok => ?_
    have haway : Local E fun s => s.log.phase = .away := phase_local hE
    refine .bind (R := fun _ s => s.log.phase = .away) ?_ fun _ => ?_
    · exact .cond (fun _ => apQueueNoteSlotTerminal_keep hE haway i _ _) fun _ =>
        .ret fun _ hs => hs
    refine .bind (dropCurrent_keep hE haway (fun s hp => by simp [hp]) fun _ hp => hp) fun _ => ?_
    exact .ret fun _ hs => hs

/-- What `ap_dispatch_miss_result_code` gets for the request the slot names. -/
def Missed (b : Build) (svc ifc : UInt64) (req : ApRequestHeader) : Prop :=
  req.serviceId = svc ∧ req.interfaceId = ifc ∧ findApRequestHandler b svc ifc = none

/-- A dispatch miss, to the halt. -/
theorem missRequest_triple (hE : ApEnv b c0 E) {svc ifc : UInt64}
    (hf : findApRequestHandler b svc ifc = none) :
    Triple E (Work i (.lookedUp n i svc ifc none) (fun req rep _ => Found svc ifc req rep)
        fun _ _ => True) (missRequest b n i) apCut := by
  refine .bind (R := fun svc' => Work i (.rereadService n i svc')
    (fun req _ _ => Missed b svc ifc req ∧ req.serviceId = svc') fun _ _ => True) ?_ fun svc' => ?_
  · refine .swap (Work.local hE (by simp)).stable fun s hs _ hp =>
      ⟨hE.guar _ _ hs (.rereadService hp.phase), rfl, fun hr => ?_, fun _ => trivial⟩
    exact ⟨⟨(hp.slot hr).2.1, (hp.slot hr).2.2, hf⟩, rfl⟩
  refine .bind (R := fun ifc' => Work i (.missed n i svc' ifc')
    (fun req _ _ => Missed b svc' ifc' req) fun _ _ => True) ?_ fun ifc' => ?_
  · refine .swap (Work.local hE (by simp)).stable fun s hs _ hp =>
      ⟨hE.guar _ _ hs (.miss hp.phase), rfl, fun hr => ?_, fun _ => trivial⟩
    obtain ⟨⟨hsvc, hifc, hnone⟩, hsvc'⟩ := hp.slot hr
    exact ⟨hsvc', rfl, by rw [← hsvc', show (s.slots i).request.interfaceId = ifc from hifc]
                          exact hsvc ▸ hnone⟩
  refine .bind (store_reply (K := fun req rep _ => Missed b svc' ifc' req ∧
    rep.resultCode = apDispatchMissResultCode b svc' ifc') hE rfl rfl _
    fun _ _ _ hq => ⟨hq, rfl⟩) fun _ => ?_
  refine .bind (store_reply (K := fun req rep _ => Missed b svc' ifc' req ∧
    rep.resultCode = apDispatchMissResultCode b svc' ifc' ∧ rep.faultCode = 0) hE rfl rfl _
    fun _ _ _ hq => ⟨hq.1, hq.2, rfl⟩) fun _ => ?_
  -- Behind the next store the AP is down. The BSP may then stop the stream, so that the slot is
  -- not `RUNNING` any more, and the last `cmpxchg` does nothing.
  have hloc : Local E (Work i (.halted n i) (fun req rep _ => Missed b svc' ifc' req ∧
      rep.resultCode = apDispatchMissResultCode b svc' ifc' ∧ rep.faultCode = 0)
      fun _ _ => True) := Work.local hE (by simp)
  refine .bind (R := fun _ => Work i (.halted n i) (fun req rep _ => Missed b svc' ifc' req ∧
    rep.resultCode = apDispatchMissResultCode b svc' ifc' ∧ rep.faultCode = 0)
    fun _ _ => True) ?_ fun _ => ?_
  · exact .store (Work.local hE (by simp)).stable fun s hs _ hp =>
      ⟨hE.guar _ _ hs (.halt hp.phase), rfl, hp.slot, hp.counts⟩
  refine .bind (own_keep hE hloc (fun _ => ⟨rfl, rfl, rfl, rfl, rfl, rfl, rfl, rfl, rfl⟩)
    fun _ => rfl) fun _ => ?_
  refine .bind (apQueueNoteSlotTerminal_keep hE hloc i _ _) fun _ => ?_
  refine .bind (dropCurrent_keep hE hloc (fun s hp => by simp [hp.phase])
    fun _ hp => ⟨hp.phase, hp.slot, hp.counts⟩) fun _ => ?_
  refine .bind (R := fun _ _ => True) ?_ fun _ => .ret fun _ _ => trivial
  refine .swap hloc.stable fun s hs _ hp => ⟨?_, trivial⟩
  by_cases hr : (s.slots i).state = .running
  · simp only [cmpxchgState, hr, if_true]
    obtain ⟨⟨hsvc, hifc, hnone⟩, hres, hfault⟩ := hp.slot hr
    exact hE.guar _ _ hs (.badOp hp.phase hr
      ⟨by rw [hsvc, hifc, hnone], by rw [hsvc, hifc, hres], hfault⟩)
  · simp only [cmpxchgState, hr, if_false]
    exact hE.refl s hs

/-- A claimed request, to the next point of the AP's code. -/
theorem dispatchRequest_triple (hE : ApEnv b c0 E) :
    Triple E (fun s => s.log.phase = .claimed n i) (dispatchRequest b n i) apCut := by
  have hloc : ∀ {Q : ApRequestHeader → ApReplyHeader → UInt32 → Prop},
      Local E (Work i (.took n i) Q fun _ _ => True) := fun {Q} => Work.local hE (by simp)
  refine .bind (R := fun _ => Work i (.took n i) (fun _ _ _ => True) fun _ _ => True) ?_
    fun _ => ?_
  · exact .store (phase_local hE).stable fun s hs _ hp =>
      ⟨hE.guar _ _ hs (.take hp), rfl, fun _ => trivial, fun _ => trivial⟩
  refine .bind (apQueueNoteSlotStart_keep hE hloc i) fun _ => ?_
  refine .bind (read_keep hE hloc _) fun handled => ?_
  refine .bind (store_handled (K := fun _ _ _ => True) hE rfl rfl handled fun _ _ _ hq => hq)
    fun _ => ?_
  refine .bind (beginApReply_triple hE rfl rfl) fun _ => ?_
  refine .bind (own_keep hE hloc (fun _ => ⟨rfl, rfl, rfl, rfl, rfl, rfl, rfl, rfl, rfl⟩)
    fun _ => rfl) fun _ => ?_
  refine .bind (prepareApServiceContext_keep hE hloc) fun _ => ?_
  refine .bind (readService_triple hE) fun svc => ?_
  refine .bind (lookUp_triple hE svc) fun handler => Triple.exists fun ifc => Triple.lift fun hf => ?_
  cases handler with
  | some h => exact handleRequest_triple hE h hf.symm
  | none => exact missRequest_triple hE hf.symm

/-- What the cmpxchg of the claim says about the log. -/
def ClaimSeen (i : SlotIndex) : Option Nat → Machine → Prop
  | none, s => s.log.phase = .away
  | some n, s => s.log.phase = .claimed n i

/-- One slot of the scan. -/
theorem scanSlot_triple (hE : ApEnv b c0 E) (w : Bool) :
    Triple E (fun s => s.log.phase = .away) (scanSlot b i w) apCut := by
  have haway : Local E fun s => s.log.phase = .away := phase_local hE
  refine .bind (read_keep hE haway _) fun st => .cond (fun _ => .ret fun _ hs => hs) fun _ => ?_
  refine .bind (R := ClaimSeen i) ?_ fun claim => ?_
  · refine .swap haway.stable fun s hs _ hp => ?_
    by_cases hi : (s.slots i).state = .pending
    · simp only [claimSlot, hi, if_true]
      exact ⟨hE.guar _ _ hs (.claim i hp hi), rfl⟩
    · simp only [claimSlot, hi, if_false]
      exact ⟨hE.refl s hs, hp⟩
  · cases claim with
    | none => exact .ret fun _ hs => hs
    | some n => exact dispatchRequest_triple hE

theorem apRequestLoopEntry_triple (hE : ApEnv b c0 E) :
    Triple E (fun s => s.log.phase = .away) apRequestLoopEntry apCut := by
  have haway : Local E fun s => s.log.phase = .away := phase_local hE
  refine .bind (R := fun _ s => s.log.phase = .away) ?_ fun _ => ?_
  · exact .store haway.stable fun s hs _ hp => ⟨hE.guar _ _ hs (.backOnline (by simp [hp])), hp⟩
  refine .bind (own_keep hE haway (fun _ => ⟨rfl, rfl, rfl, rfl, rfl, rfl, rfl, rfl, rfl⟩)
    fun _ => rfl) fun _ => ?_
  refine .bind (R := fun _ s => s.log.phase = .away) ?_ fun _ => ?_
  · exact .store haway.stable fun s hs _ hp => ⟨hE.guar _ _ hs .goOnline, hp⟩
  · exact Triple.ret fun _ hs => hs

/-- **The AP's code stays inside the protocol.** -/
theorem apBody_triple (hE : ApEnv b c0 E) (pc : ApPc) (p : Prog Machine ApPc)
    (hp : apBody b pc = some p) : Triple E (apCut pc) p apCut := by
  cases pc with
  | start => cases hp; exact apRequestLoopEntry_triple hE
  | scan i w =>
    simp only [apBody] at hp
    split at hp <;> cases hp
    · exact scanSlot_triple hE w
    · exact .ret fun _ hs => hs
  | hung | ud2 | halted | faulted => cases hp

/-! ## Faults -/

variable {v : UInt64} {slot : Option SlotIndex} {vec : UInt64 → Prop}

/-- The AP is in `ap_fault_dispatch` and has not posted the fault. -/
def FaultAt (v : UInt64) (slot : Option SlotIndex) (vec : UInt64 → Prop) (s : Machine) : Prop :=
  (∃ h, s.log.phase = .faulted v h) ∧ s.apState ≠ .faulted ∧ s.currentRequestSlot = slot ∧
    vec s.faultVector

theorem FaultAt.local (hE : ApEnv b c0 E) : Local E (FaultAt v slot vec) where
  stable s s' hr hs := by
    have hseen := (hE.rely s s' hr).2
    exact ⟨by rw [hseen.phase]; exact hs.1, by rw [hseen.apState]; exact hs.2.1,
      hseen.current.trans hs.2.2.1, by rw [hseen.faultVector]; exact hs.2.2.2⟩
  shared s s' h hs :=
    ⟨by rw [h.log]; exact hs.1, by rw [h.apState]; exact hs.2.1, h.current.trans hs.2.2.1,
      by rw [h.faultVector]; exact hs.2.2.2⟩

/-- What the dispatcher's read of the slot's state still says later. -/
def FaultSaw (i : SlotIndex) (st : ApRequestStatus) (s : Machine) : Prop :=
  ((s.slots i).state = .running → st = .running) ∧
  (st = .empty ∨ st = .pending ∨ st = .running →
    (s.slots i).state ≠ .done ∧ (s.slots i).state ≠ .badOp ∧ (s.slots i).state ≠ .fault)

theorem FaultSaw.local (hE : ApEnv b c0 E) {st : ApRequestStatus} :
    Local E fun s => FaultAt v slot vec s ∧ FaultSaw i st s where
  stable s s' hr hs := by
    have hseen := (hE.rely s s' hr).2
    refine ⟨(FaultAt.local hE).stable s s' hr hs.1, fun hrun => ?_, fun hst => ⟨?_, ?_, ?_⟩⟩
    · exact hs.2.1 (hseen.running i hrun).1
    · exact fun hd => (hs.2.2 hst).1 ((hseen.ended i (Or.inl hd)).symm.trans hd)
    · exact fun hd => (hs.2.2 hst).2.1 ((hseen.ended i (Or.inr hd)).symm.trans hd)
    · intro hf
      rcases hseen.fault i hf with hf | hf
      · exact (hs.2.2 hst).2.2 hf
      · exact hs.1.2.1 hf
  shared s s' h hs := ⟨(FaultAt.local hE).shared s s' h hs.1, by
    unfold FaultSaw
    rw [h.slots]
    exact hs.2⟩

/-- If the slot is still `RUNNING` then its reply names the fault. -/
def ReplyNames (v : UInt64) (i : SlotIndex) (s : Machine) : Prop :=
  (s.slots i).state = .running → (s.slots i).reply.faultCode = v.toUInt32

theorem ReplyNames.local (hE : ApEnv b c0 E) :
    Local E fun s => FaultAt v slot vec s ∧ ReplyNames v i s where
  stable s s' hr hs := by
    have hseen := (hE.rely s s' hr).2
    refine ⟨(FaultAt.local hE).stable s s' hr hs.1, fun hrun => ?_⟩
    obtain ⟨hrun', -, -, hreply⟩ := hseen.running i hrun
    rw [hreply hs.1.2.1]
    exact hs.2 hrun'
  shared s s' h hs := ⟨(FaultAt.local hE).shared s s' h hs.1, by
    unfold ReplyNames
    rw [h.slots]
    exact hs.2⟩

theorem notRunning_local (hE : ApEnv b c0 E) : Local E fun s => (s.slots i).state ≠ .running :=
  ⟨fun s s' hr hs hrun => hs ((hE.rely s s' hr).2.running i hrun).1,
    fun _ _ h hs => by rw [h.slots]; exact hs⟩

/-- A store to the reply of the slot the fault hit. -/
theorem store_faultReply (hE : ApEnv b c0 E) {st : ApRequestStatus} {R : Machine → Prop}
    (hst : st = .empty ∨ st = .pending ∨ st = .running) (f : ApReplyHeader → ApReplyHeader)
    (hR : ∀ s : Machine, FaultAt v (some i) vec (s.setReply i f) → FaultSaw i st (s.setReply i f) →
      ((s.setReply i f).slots i).reply = f (s.slots i).reply → R (s.setReply i f)) :
    Triple E (fun s => FaultAt v (some i) vec s ∧ FaultSaw i st s)
      (.store fun s => s.setReply i f) fun _ => R := by
  refine .store (FaultSaw.local hE).stable fun s hs _ hp => ⟨?_, hR s hp.1 ?_ (by simp)⟩
  · obtain ⟨⟨⟨h, hph⟩, ha, hc, -⟩, hsaw⟩ := hp
    exact hE.guar _ _ hs (.faultReply f hph hc ha (hsaw.2 hst))
  · simpa [FaultSaw] using hp.2

theorem faultReply_triple (hE : ApEnv b c0 E) {st : ApRequestStatus} :
    Triple E (fun s => FaultAt v (some i) vec s ∧ FaultSaw i st s) (faultReply v i st)
      fun _ s => FaultAt v (some i) vec s ∧ ReplyNames v i s := by
  refine Triple.cond (fun hst => ?_) fun hst => ?_
  · have hloc : Local E fun s => FaultAt v (some i) vec s ∧ FaultSaw i st s := FaultSaw.local hE
    have hstore := fun f => store_faultReply (v := v)
      (R := fun s => FaultAt v (some i) vec s ∧ FaultSaw i st s)
      hE hst f fun _ hat hsaw _ => ⟨hat, hsaw⟩
    refine .bind (R := fun _ s => FaultAt v (some i) vec s ∧ FaultSaw i st s) ?_ fun _ => ?_
    · refine .cond (fun _ => ?_) fun _ => .ret fun _ hs => hs
      refine .bind (read_keep hE hloc _) fun _ => ?_
      refine .bind (hstore _) fun _ => ?_
      exact .bind (read_keep hE hloc _) fun _ => hstore _
    · exact store_faultReply hE hst _ fun s hat _ hrep => ⟨hat, fun _ => by rw [hrep]⟩
  · refine .ret fun s hp => ⟨hp.1, fun hrun => ?_⟩
    exact absurd (Or.inr (Or.inr (hp.2.1 hrun))) hst

/-- A change of the state of the slot the fault hit. -/
theorem faultSlot_act (hE : ApEnv b c0 E) {s : Machine} (hs : E.inv s)
    (hp : FaultAt v (some i) vec s) (hr : ReplyNames v i s)
    (hd : (s.slots i).state ≠ .done ∧ (s.slots i).state ≠ .badOp) :
    E.guar s (s.setState i .fault) ∧ FaultAt v (some i) vec (s.setState i .fault) ∧
      ((s.setState i .fault).slots i).state ≠ .running := by
  obtain ⟨⟨h, hph⟩, ha, hc, hv⟩ := hp
  exact ⟨hE.guar _ _ hs (.faultSlot hph hc ha hd hr), ⟨⟨h, hph⟩, ha, hc, hv⟩, by simp⟩

theorem faultSlot_triple (hE : ApEnv b c0 E) :
    Triple E (fun s => FaultAt v (some i) vec s ∧ ReplyNames v i s) (faultSlot i)
      fun _ s => FaultAt v (some i) vec s ∧ (s.slots i).state ≠ .running := by
  have hloc : Local E fun s => FaultAt v (some i) vec s ∧ ReplyNames v i s := ReplyNames.local hE
  have hown : ∀ g : Machine → ApQueueSummary,
      Triple E _ (.store fun s => { s with queueSummary := g s }) fun _ => _ := fun g =>
    own_keep hE hloc (fun _ => ⟨rfl, rfl, rfl, rfl, rfl, rfl, rfl, rfl, rfl⟩) fun _ => rfl
  unfold faultSlot
  iterate 4 refine .bind (hown _) fun _ => ?_
  refine .bind (R := fun ok s => (FaultAt v (some i) vec s ∧ ReplyNames v i s) ∧
    (ok = true → (s.slots i).state ≠ .running)) ?_ fun ok => ?_
  · refine .swap hloc.stable fun s hs _ hp => ?_
    by_cases hi : (s.slots i).state = .pending
    · simp only [cmpxchgState, hi, if_true]
      obtain ⟨hg, hat, hn⟩ := faultSlot_act hE hs hp.1 hp.2 (by simp [hi])
      exact ⟨hg, ⟨hat, fun hr => absurd hr hn⟩, fun _ => hn⟩
    · simp only [cmpxchgState, hi, if_false]
      exact ⟨hE.refl s hs, hp, by simp⟩
  -- not `PENDING`: the second `cmpxchg` is for a slot that the AP was running
  refine .cond (fun hok => .ret fun s hp => ⟨hp.1.1, hp.2 hok⟩) fun _ => ?_
  refine .bind (R := fun _ s => FaultAt v (some i) vec s ∧ (s.slots i).state ≠ .running) ?_
    fun ok => ?_
  · refine Triple.pre (H := fun s => FaultAt v (some i) vec s ∧ ReplyNames v i s) ?_ fun _ hp => hp.1
    refine .swap hloc.stable fun s hs _ hp => ?_
    by_cases hi : (s.slots i).state = .running
    · simp only [cmpxchgState, hi, if_true]
      exact faultSlot_act hE hs hp.1 hp.2 (by simp [hi])
    · simp only [cmpxchgState, hi, if_false]
      exact ⟨hE.refl s hs, hp.1, hi⟩
  refine .cond (fun _ => .ret fun _ hp => hp) fun _ => ?_
  -- Neither: the plain store goes by a read just before it. The BSP may have changed the slot in
  -- between, but never makes one `RUNNING`.
  refine .bind (R := fun st s => (FaultAt v (some i) vec s ∧ FaultSaw i st s) ∧
    (s.slots i).state ≠ .running) ?_ fun st => ?_
  · refine .load ((FaultAt.local hE).and (notRunning_local hE)).stable hE.refl fun s _ hp => ?_
    refine ⟨⟨hp.1, id, fun hst => ?_⟩, hp.2⟩
    rcases hst with hst | hst | hst <;> simp [hst]
  refine .cond (fun hst => ?_) fun _ => .ret fun _ hp => ⟨hp.1.1, hp.2⟩
  refine .store ((FaultSaw.local hE).and (notRunning_local hE)).stable fun s hs _ hp => ?_
  obtain ⟨hd, hb, -⟩ := hp.1.2.2 (Or.inl hst)
  exact faultSlot_act hE hs hp.1.1 (fun hr => absurd hr hp.2) ⟨hd, hb⟩

/-- `FaultSaw` for the slot the fault hit, if any. -/
def FaultSawIn (v : UInt64) (slot : Option SlotIndex) (vec : UInt64 → Prop) (st : ApRequestStatus)
    (s : Machine) : Prop :=
  FaultAt v slot vec s ∧ ∀ i, slot = some i → FaultSaw i st s

theorem FaultSawIn.local (hE : ApEnv b c0 E) {st : ApRequestStatus} :
    Local E (FaultSawIn v slot vec st) where
  stable s s' hr hs := ⟨(FaultAt.local hE).stable s s' hr hs.1, fun i hi =>
    ((FaultSaw.local hE).stable s s' hr ⟨hs.1, hs.2 i hi⟩).2⟩
  shared s s' h hs := ⟨(FaultAt.local hE).shared s s' h hs.1, fun i hi =>
    ((FaultSaw.local hE).shared s s' h ⟨hs.1, hs.2 i hi⟩).2⟩

theorem faultRequestState_triple (hE : ApEnv b c0 E) :
    Triple E (FaultAt v slot vec) (faultRequestState slot) (FaultSawIn v slot vec) := by
  cases slot with
  | none => exact .ret fun s hp => ⟨hp, fun i hi => by cases hi⟩
  | some i =>
    refine .load (FaultAt.local hE).stable hE.refl fun s _ hp => ⟨hp, ?_⟩
    rintro j ⟨⟩
    refine ⟨id, fun hst => ?_⟩
    rcases hst with hst | hst | hst <;> simp [hst]

/-- The dispatcher is done with the slot the fault hit. -/
def FaultDone (v : UInt64) (slot : Option SlotIndex) (vec : UInt64 → Prop) (s : Machine) : Prop :=
  FaultAt v slot vec s ∧ ∀ i, slot = some i → (s.slots i).state ≠ .running

theorem FaultDone.local (hE : ApEnv b c0 E) : Local E (FaultDone v slot vec) where
  stable s s' hr hs := ⟨(FaultAt.local hE).stable s s' hr hs.1, fun i hi =>
    (notRunning_local hE).stable s s' hr (hs.2 i hi)⟩
  shared s s' h hs := ⟨(FaultAt.local hE).shared s s' h hs.1, fun i hi =>
    (notRunning_local hE).shared s s' h (hs.2 i hi)⟩

theorem faultRequest_triple (hE : ApEnv b c0 E) {st : ApRequestStatus} :
    Triple E (FaultSawIn v slot vec st) (faultRequest v st slot)
      fun _ => FaultDone v slot vec := by
  cases slot with
  | none => exact .ret fun s hp => ⟨hp.1, fun i hi => by cases hi⟩
  | some i =>
    refine .bind ((faultReply_triple hE).pre fun s hp => ⟨hp.1, hp.2 i rfl⟩) fun _ => ?_
    refine (faultSlot_triple hE).post fun _ s hp => ⟨hp.1, ?_⟩
    rintro j ⟨⟩
    exact hp.2

/-- **A fault, from the dispatcher's first access to its end.** -/
theorem apFaultDispatch_triple (hE : ApEnv b c0 E) (frame : FaultFrame) :
    Triple E (fun s => (∃ h, s.log.phase = .faulted frame.vector h) ∧ s.apState ≠ .faulted)
      (apFaultDispatch frame) apCut := by
  refine .bind (R := fun slot => FaultAt frame.vector slot fun _ => True) ?_ fun slot => ?_
  · refine .load ?_ hE.refl fun s _ hp => ⟨hp.1, hp.2, rfl, trivial⟩
    intro s s' hr hs
    have hseen := (hE.rely s s' hr).2
    exact ⟨by rw [hseen.phase]; exact hs.1, by rw [hseen.apState]; exact hs.2⟩
  refine .bind (faultRequestState_triple hE) fun st => ?_
  refine .bind (read_keep hE (FaultSawIn.local hE) _) fun entry => ?_
  refine .bind (R := fun _ => FaultSawIn frame.vector slot (· = frame.vector) st) ?_ fun _ => ?_
  · refine .store (FaultSawIn.local hE).stable fun s hs _ hp => ?_
    obtain ⟨⟨⟨h, hph⟩, ha, hc, -⟩, hsaw⟩ := hp
    exact ⟨hE.guar _ _ hs (.faultVector hph ha), ⟨⟨h, hph⟩, ha, hc, rfl⟩, hsaw⟩
  refine .bind (.forEach_keep fun w _ => own_keep hE (FaultSawIn.local hE)
    (fun _ => ⟨rfl, rfl, rfl, rfl, rfl, rfl, rfl, rfl, rfl⟩) fun _ => rfl) fun _ => ?_
  refine .bind (faultRequest_triple hE) fun _ => ?_
  refine .bind (own_keep hE (FaultDone.local hE)
    (fun _ => ⟨rfl, rfl, rfl, rfl, rfl, rfl, rfl, rfl, rfl⟩) fun _ => rfl) fun _ => ?_
  refine .bind (R := fun _ _ => True) ?_ fun _ => ?_
  · refine .store (FaultDone.local hE).stable fun s hs _ hp => ⟨?_, trivial⟩
    obtain ⟨⟨⟨h, hph⟩, ha, hc, hv⟩, hdone⟩ := hp
    exact hE.guar _ _ hs (.post hph hv fun i hi => hdone i (hc.symm.trans hi))
  refine .bind (R := fun _ _ => True) ?_ fun _ => .ret fun _ _ => trivial
  exact .store Stable.true fun s hs _ _ => ⟨hE.guar _ _ hs .goOnline, trivial⟩

theorem apCut_stable (hE : ApEnv b c0 E) (pc : ApPc) : Stable E (apCut pc) := by
  cases pc with
  | start | scan => exact (phase_local hE).stable
  | hung | ud2 | halted | faulted => exact Stable.true

end Walk

end VibeKernel

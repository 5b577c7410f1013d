import VibeKernel.Ap.BspAccesses
import VibeKernel.Ap.HandlerFaults

/-!
# The BSP overwrites nothing finished

A second walk through the BSP's code, for runs whose faults hit the handlers of the AP and never an
idle slot. `FinalAct` is the guarantee: a finished slot only ever becomes empty.

Two places need an argument. A publication stores the state of a slot that is `EMPTY` since its reset,
because the AP leaves an empty slot alone. `stop_ap_request_stream` stores `FAULT` or `SKIPPED` after
a separate read, and is right because the AP is through with the slots that are out: it has halted,
or posted its fault, or its fault is charged to a slot that has been taken back (`Stopped`).
-/

namespace VibeKernel

open Conc

/-! ## What the BSP can rely on -/

section Walk

variable {b : Build} {c0 : UInt32} {E : Env Machine} {P : Machine → Prop}
variable {i : SlotIndex} {plan : List ApRequestPlan} {l : StreamLocals} {s s' : Machine}

/-- One access of the AP in these runs, as the BSP sees it. -/
structure ApSettles (s s' : Machine) : Prop extends ApSeen .started s s' where
  halted : ∀ n i, s.log.phase = .halted n i → s'.log.phase = .halted n i
  current : ∀ v h, s.log.phase = .faulted v h →
    s'.log.phase = .faulted v h ∧ s'.currentRequestSlot = s.currentRequestSlot
  empty : ∀ i, (s.slots i).state = .empty → (s'.slots i).state = .empty
  skipped : ∀ i, (s'.slots i).state = .skipped → (s.slots i).state = .skipped
  spared : ∀ i, (s.slots i).state = .pending → (∃ n j, s.log.phase = .halted n j) ∨
    (∃ v h, s.log.phase = .faulted v h) ∧ s.currentRequestSlot ≠ some i →
      (s'.slots i).state = .pending

theorem ApAct.current_of_faulted (ha : ApAct b c0 s s') {v : UInt64}
    {h : Option (Nat × SlotIndex)} (hp : s.log.phase = .faulted v h) :
    s'.log.phase = .faulted v h ∧ s'.currentRequestSlot = s.currentRequestSlot := by
  cases ha with
  | own hs => rw [hs.log, hs.current]; exact ⟨hp, rfl⟩
  | dropCurrent hp' => simp [hp] at hp'
  | fault v' hp' => exact absurd hp (hp' v h)
  | post => exact ⟨by simpa using hp, rfl⟩
  | goOnline | backOnline | reply | metrics | badOp | faultVector | faultReply | faultSlot =>
    exact ⟨hp, rfl⟩
  | claim i hp' | take hp' | readService hp' | lookUp hp' | increment v hp' | run hp'
  | complete hp' | reject hp' | rereadService hp' | miss hp' | halt hp' =>
    rw [hp] at hp'
    cases hp'
  | count v hp' => simp [hp] at hp'

/-- A slot with no request changes its state only if a fault is charged to it. -/
theorem ApAct.state_eq (ha : ApAct b c0 s s') (i : SlotIndex) :
    (s'.slots i).state = (s.slots i).state ∨
    (s.slots i).state = .pending ∧ s.log.phase = .away ∧ (s'.slots i).state = .running ∨
    (s.slots i).state = .running ∧ ((s'.slots i).state = .done ∨ (s'.slots i).state = .badOp) ∨
    (s'.slots i).state = .fault ∧ (∃ v h, s.log.phase = .faulted v h) ∧
      s.currentRequestSlot = some i := by
  cases ha with
  | own hs => exact Or.inl (by rw [hs.slots])
  | dropCurrent | goOnline | backOnline | faultVector | take | readService | lookUp | increment
  | count | reject | rereadService | miss | halt | fault | post => exact Or.inl rfl
  | reply | metrics | faultReply => exact Or.inl (state_setSlot rfl i)
  | run => exact Or.inl (by rw [Machine.note_slots]; exact state_setSlot rfl i)
  | claim j hp hj =>
    simp only [Machine.note_slots, state_setState]
    split
    · rename_i hij
      exact Or.inr (Or.inl ⟨hij ▸ hj, hp, rfl⟩)
    · exact Or.inl rfl
  | complete hp hj | badOp hp hj =>
    simp only [Machine.note_slots, state_setState]
    split
    · rename_i hij
      exact Or.inr (Or.inr (Or.inl ⟨hij ▸ hj, by simp⟩))
    · exact Or.inl rfl
  | faultSlot hp hc =>
    simp only [state_setState]
    split
    · rename_i hij
      exact Or.inr (Or.inr (Or.inr ⟨rfl, ⟨_, _, hp⟩, hij ▸ hc⟩))
    · exact Or.inl rfl

theorem ApAct.settles (hm : MachineInv b c0 s) (h : HandlerFaultInv s) (hok : finalOk .ap s s')
    (ha : ApAct b c0 s s') : ApSettles s s' := by
  have hhalted := (h.halted_apAct (fun _ hv => handlerFaults_fault (hv ▸ hok.1)) ha).2
  refine { ha.seen (k := .started) hm False.elim False.elim with
    halted := hhalted, current := fun v g hp => ha.current_of_faulted hp, empty := fun i hi => ?_,
    skipped := fun i hi => ?_, spared := fun i hi hdown => ?_ }
  · rcases ha.state_eq i with he | ⟨hp, -⟩ | ⟨hr, -⟩ | ⟨hf, -⟩
    · exact he.trans hi
    · rw [hi] at hp; cases hp
    · rw [hi] at hr; cases hr
    · have := hok.2 i hf
      simp [hi] at this
  · rcases ha.state_eq i with he | ⟨-, -, hr⟩ | ⟨-, hr | hr⟩ | ⟨hf, -⟩
    · exact he ▸ hi
    all_goals simp_all
  · rcases ha.state_eq i with he | ⟨-, hp, -⟩ | ⟨hr, -⟩ | ⟨-, hp, hc⟩
    · exact he.trans hi
    · rcases hdown with ⟨n, j, hd⟩ | ⟨⟨v, g, hd⟩, -⟩ <;> simp [hp] at hd
    · rw [hi] at hr; cases hr
    · obtain ⟨v, g, hp⟩ := hp
      rcases hdown with ⟨n, j, hd⟩ | ⟨-, hd⟩
      · simp [hp] at hd
      · exact absurd hc hd

/-! ## Accesses that leave the states alone -/

/-- Nothing that decides about the states of the slots has changed. -/
structure SameView (s s' : Machine) : Prop where
  error : s'.error = s.error
  apState : s'.apState = s.apState
  current : s'.currentRequestSlot = s.currentRequestSlot
  phase : s'.log.phase = s.log.phase
  latest : ∀ i, s'.log.latest i = s.log.latest i
  state : ∀ i, (s'.slots i).state = (s.slots i).state

theorem SameView.refl (s : Machine) : SameView s s :=
  ⟨rfl, rfl, rfl, rfl, fun _ => rfl, fun _ => rfl⟩

theorem SameView.setSlot {f : ApRequestSlot → ApRequestSlot}
    (hf : (f (s.slots i)).state = (s.slots i).state) : SameView s (s.setSlot i f) :=
  ⟨rfl, rfl, rfl, rfl, fun _ => rfl, state_setSlot hf⟩

/-- A finished slot only ever becomes empty. -/
def FinalAct (s s' : Machine) : Prop :=
  ∀ i, (s.slots i).state.finished = true → (s'.slots i).state ≠ (s.slots i).state →
    s' = s.setState i .empty

theorem SameView.final (h : SameView s s') : FinalAct s s' :=
  fun i _ hne => absurd (h.state i) hne

/-- Every access of `p` leaves the states alone. -/
abbrev Still {α : Type} (p : Prog Machine α) : Prop := p.Within SameView

namespace Still

open Prog (Within)

theorem reads {α : Type} {p : Prog Machine α} (hp : p.Reads) : Still p := hp.within SameView.refl

theorem load {α : Type} (f : Machine → α) : Still (.load f) := reads (Reading.load f)

theorem fields {ws : List SlotStore} (hws : ∀ w ∈ ws, w.IsField) :
    ∀ i, Still (storeSlot i ws) := by
  intro i
  induction ws with
  | nil => trivial
  | cons w ws ih =>
    rw [List.forall_mem_cons] at hws
    refine .seq (Within.store fun s => ?_) fun _ => ih hws.2
    exact .setSlot (SlotStore.apply_state_of_isField hws.1 _)

theorem outbox (i : SlotIndex) (ws : List OutboxStore) :
    Still (.forEach ws fun w => .store fun s => s.setOutbox i w) :=
  Within.forEach (fun w => Within.store fun s => (⟨rfl, rfl, rfl, rfl, fun _ => rfl, fun _ => rfl⟩ :
    SameView s (s.setOutbox i w))) ws

theorem history (f : Machine → Machine) (hf : ∀ s, ∃ h, f s = { s with history := h }) :
    Still (.store f) := by
  refine Within.store fun s => ?_
  obtain ⟨h, he⟩ := hf s
  rw [he]
  exact ⟨rfl, rfl, rfl, rfl, fun _ => rfl, fun _ => rfl⟩

theorem recordHistory (index : Nat) (i : SlotIndex) (v : UInt32) :
    Still (recordApRequestHistory index i v) := by
  unfold recordApRequestHistory
  split
  · refine .seq (.forEach (fun c => ?_) _) fun _ => ?_
    · exact history _ fun _ => ⟨_, rfl⟩
    refine .seq (history _ fun _ => ⟨_, rfl⟩) fun _ => ?_
    refine .seq (history _ fun _ => ⟨_, rfl⟩) fun _ => ?_
    exact history _ fun _ => ⟨_, rfl⟩
  · exact .ret _

theorem recordSlot (index : Nat) (i : SlotIndex) (v : UInt32) :
    Still (recordApStreamSlot index i v) := by
  refine .seq (reads (Reading.countsAsIncrement i)) fun counts => ?_
  exact .seq (recordHistory _ _ _) fun _ => .ret _

end Still

/-! ## The walk -/

/-- What the second walk needs of its surroundings. -/
structure FinalEnv (b : Build) (c0 : UInt32) (E : Env Machine) : Prop where
  inv : ∀ s, E.inv s → MachineInv b c0 s ∧ HandlerFaultInv s
  guar : ∀ s s', FinalAct s s' → E.guar s s'
  rely : ∀ s s', E.rely s s' → ApSettles s s'

/-- An assertion about what decides the states. -/
structure Viewed (P : Machine → Prop) : Prop where
  seen : ∀ s s', ApSettles s s' → P s → P s'
  view : ∀ s s', SameView s s' → P s → P s'

/-- Nothing that decides about the states has changed, slot `i` aside. -/
structure SameBeside (i : SlotIndex) (s s' : Machine) : Prop where
  error : s'.error = s.error
  apState : s'.apState = s.apState
  current : s'.currentRequestSlot = s.currentRequestSlot
  phase : s'.log.phase = s.log.phase
  latest : ∀ j ≠ i, s'.log.latest j = s.log.latest j
  state : ∀ j ≠ i, (s'.slots j).state = (s.slots j).state

theorem SameView.beside (h : SameView s s') (i : SlotIndex) : SameBeside i s s' :=
  ⟨h.error, h.apState, h.current, h.phase, fun j _ => h.latest j, fun j _ => h.state j⟩

theorem SameBeside.setState (s : Machine) (i : SlotIndex) (st : ApRequestStatus) :
    SameBeside i s (s.setState i st) :=
  ⟨rfl, rfl, rfl, rfl, fun _ _ => rfl, fun j hj => by rw [state_setState, if_neg hj]⟩

/-- An assertion that has nothing to say about slot `i`. -/
structure ViewedBeside (i : SlotIndex) (P : Machine → Prop) : Prop where
  seen : ∀ s s', ApSettles s s' → P s → P s'
  beside : ∀ s s', SameBeside i s s' → P s → P s'

theorem ViewedBeside.viewed (h : ViewedBeside i P) : Viewed P :=
  ⟨h.seen, fun s s' hv => h.beside s s' (hv.beside i)⟩

theorem Viewed.and {Q : Machine → Prop} (hP : Viewed P) (hQ : Viewed Q) :
    Viewed fun s => P s ∧ Q s :=
  ⟨fun s s' hs h => ⟨hP.seen s s' hs h.1, hQ.seen s s' hs h.2⟩,
    fun s s' hs h => ⟨hP.view s s' hs h.1, hQ.view s s' hs h.2⟩⟩

namespace FinalEnv

theorem stable (hE : FinalEnv b c0 E) (h : ∀ s s', ApSettles s s' → P s → P s') : Stable E P :=
  fun s s' hr hs => h s s' (hE.rely s s' hr) hs

theorem refl (hE : FinalEnv b c0 E) (s : Machine) (_ : E.inv s) : E.guar s s :=
  hE.guar s s (SameView.refl s).final

/-- A piece of code that leaves the states alone. -/
theorem still (hE : FinalEnv b c0 E) (hP : Viewed P) {α : Type} {p : Prog Machine α}
    (hp : Still p) : Triple E P p fun _ => P :=
  .within (hE.stable hP.seen)
    (fun s s' _ hv h => ⟨hE.guar _ _ hv.final, hP.view s s' hv h⟩) hp

end FinalEnv

/-- The AP does nothing to a slot any more. -/
def Hard (s : Machine) : Prop :=
  s.error ≠ .ok ∨ (∃ n i, s.log.phase = .halted n i) ∨ s.apState = .faulted

theorem Hard.viewedBeside (i : SlotIndex) : ViewedBeside i Hard := by
  refine ⟨fun s s' hs h => ?_, fun s s' hs h => ?_⟩
  · rcases h with h | ⟨n, j, h⟩ | h
    · exact Or.inl (by rw [hs.error]; exact h)
    · exact Or.inr (Or.inl ⟨n, j, hs.halted n j h⟩)
    · exact Or.inr (Or.inr (hs.posted trivial h).1)
  · unfold Hard at h ⊢
    rwa [hs.error, hs.phase, hs.apState]

/-- `ap_request_stream_should_stop` answers `true` only when the AP is through with its slots. -/
theorem shouldStop_final (hE : FinalEnv b c0 E) (hP : Viewed P) :
    Triple E P apRequestStreamShouldStop fun stop s => P s ∧ (stop = true → Hard s) := by
  refine .bind (R := fun st s => P s ∧ (st = .faulted → Hard s)) ?_ fun st => ?_
  · exact .load (hE.stable hP.seen) hE.refl fun s _ h => ⟨h, fun ha => Or.inr (Or.inr ha)⟩
  refine .cond (fun hst => .ret fun s h => ⟨h.1, fun _ => h.2 hst⟩) fun _ => ?_
  refine .bind (R := fun st s => P s ∧ (st = .halted → Hard s)) ?_ fun st => ?_
  · refine Triple.pre (H := P) ?_ fun s h => h.1
    refine .load (hE.stable hP.seen) hE.refl fun s hs h => ⟨h, fun ha => ?_⟩
    exact Or.inr (Or.inl ((hE.inv s hs).2.halted ha))
  · exact .ret fun s h => ⟨h.1, fun ht => h.2 (by simpa using ht)⟩

/-! ## Publishing -/

theorem reset_final (s : Machine) (i : SlotIndex) : FinalAct s (s.setState i .empty) := by
  intro j _ hne
  by_cases hj : j = i
  · rw [hj]
  · rw [state_setState, if_neg hj] at hne
    exact absurd rfl hne

/-- A store to a slot that is not finished. -/
theorem final_of_unfinished {st : ApRequestStatus} (h : (s.slots i).state.finished = false) :
    FinalAct s (s.setState i st) := by
  intro j hj hne
  rw [state_setState] at hne
  split at hne
  · rename_i hji
    rw [hji, h] at hj
    cases hj
  · exact absurd rfl hne

/-- Slot `i` is empty. -/
def Cleared (i : SlotIndex) (s : Machine) : Prop := (s.slots i).state = .empty

theorem Cleared.viewed : Viewed (Cleared i) :=
  ⟨fun _ _ hs h => hs.empty i h, fun _ _ hs h => (hs.state i).trans h⟩

theorem resetApInboxSlot_final (hE : FinalEnv b c0 E) (hP : ViewedBeside i P) :
    Triple E P (resetApInboxSlot i) fun _ s => P s ∧ Cleared i s := by
  have hboth : Viewed fun s => P s ∧ Cleared i s := hP.viewed.and Cleared.viewed
  refine .bind (R := fun _ s => P s ∧ Cleared i s) ?_ fun _ => hE.still hboth (Still.outbox i _)
  refine .bind (R := fun _ s => P s ∧ Cleared i s) ?_ fun _ => ?_
  swap
  · exact hE.still hboth (Still.fields resetApRequestSlotFields_isField i)
  refine .store (hE.stable hP.seen) fun s _ _ h => ⟨hE.guar _ _ (reset_final s i), ?_, ?_⟩
  · exact hP.beside _ _ (SameBeside.setState s i .empty) h
  · simp [Cleared, SlotStore.apply]

/-- What a publication in slot `i` leaves. -/
structure Posted (i : SlotIndex) (s : Machine) : Prop where
  used : s.log.latest i ≠ 0
  noTimeout : (s.slots i).state ≠ .timeout
  skipped : (s.slots i).state = .skipped → Hard s

theorem publishState_final (hE : FinalEnv b c0 E) (hP : ViewedBeside i P) {p : ApRequestPlan}
    {st : ApRequestStatus} (ht : st ≠ .timeout) :
    Triple E (fun s => (P s ∧ Cleared i s) ∧ (st = .skipped → Hard s)) (.store (publishState i p st))
      fun _ s => P s ∧ Posted i s := by
  refine .store (hE.stable fun s s' hs h => ?_) fun s _ _ h => ?_
  · exact ⟨⟨hP.seen s s' hs h.1.1, Cleared.viewed.seen s s' hs h.1.2⟩,
      fun hst => (Hard.viewedBeside i).seen s s' hs (h.2 hst)⟩
  · obtain ⟨⟨hp, he⟩, hhard⟩ := h
    have hbeside : SameBeside i s (publishState i p st s) :=
      ⟨rfl, rfl, rfl, rfl, fun j hj => by simp [publishState, Ne.symm hj],
        fun j hj => by simp [publishState, hj]⟩
    have hfinal : FinalAct s (s.setState i st) := final_of_unfinished (by rw [he]; rfl)
    refine ⟨hE.guar _ _ fun j hj hne => ?_, hP.beside _ _ hbeside hp, ?_, ?_, fun hs => ?_⟩
    · have := hfinal j hj hne
      have hji : j ≠ i := fun hji => by rw [hji, he] at hj; cases hj
      exact absurd (hbeside.state j hji) hne
    · simp [publishState]
    · simpa [publishState] using ht
    · exact (Hard.viewedBeside i).beside _ _ hbeside (hhard (by simpa [publishState] using hs))

theorem apBarred_final (hE : FinalEnv b c0 E) (hP : Viewed P) :
    Triple E P apBarred fun barred s => P s ∧ (barred = true → Hard s) := by
  refine .bind (R := fun e s => P s ∧ s.error = e) ?_ fun e => .cond (fun he => ?_) fun he => ?_
  · exact .load (hE.stable hP.seen) hE.refl fun s _ h => ⟨h, rfl⟩
  · exact .ret fun s h => ⟨h.1, fun _ => Or.inl (by rw [h.2]; exact he)⟩
  · refine .load (hE.stable fun s s' hs h => ⟨hP.seen s s' hs h.1, hs.error.trans h.2⟩) hE.refl
      fun s hs h => ⟨h.1, fun hb => ?_⟩
    have hon := (hE.inv s hs).1.online (h.2.trans (by simpa using he))
    simp [hon] at hb

/-- **A publication overwrites nothing finished.** -/
theorem publishApInboxRequest_final (hE : FinalEnv b c0 E) (hP : ViewedBeside i P)
    (p : ApRequestPlan) :
    Triple E P (publishApInboxRequest b i p) fun _ s => P s ∧ Posted i s := by
  have hboth : Viewed fun s => P s ∧ Cleared i s := hP.viewed.and Cleared.viewed
  have hstill : ∀ {α : Type} {q : Prog Machine α}, Still q →
      Triple E (fun s => P s ∧ Cleared i s) q fun _ s => P s ∧ Cleared i s := fun hq => hE.still hboth hq
  refine .bind (resetApInboxSlot_final hE hP) fun _ => ?_
  refine .bind (hstill (Still.fields (prepareApRequestSlotFromPlan_isField _ p) i)) fun _ => ?_
  refine .bind (hstill (Still.load _)) fun st => .cond (fun _ => ?_) fun _ => ?_
  · refine .bind (hstill (Still.load _)) fun v => ?_
    refine .bind (hstill (Prog.Within.store fun s => .setSlot rfl)) fun _ => ?_
    exact (publishState_final hE hP (by simp)).pre fun s h => ⟨h, nofun⟩
  refine .bind (apBarred_final hE hboth) fun barred => .cond (fun hb => ?_) fun _ => ?_
  · exact (publishState_final hE hP (by simp)).pre fun s h => ⟨h.1, fun _ => h.2 hb⟩
  refine .bind (R := fun st s => (P s ∧ Cleared i s) ∧ (st = .halted → Hard s)) ?_ fun st => ?_
  · refine Triple.pre (H := fun s => P s ∧ Cleared i s) ?_ fun s h => h.1
    refine .load (hE.stable hboth.seen) hE.refl fun s hs h => ⟨h, fun ha => ?_⟩
    exact Or.inr (Or.inl ((hE.inv s hs).2.halted ha))
  refine .cond (fun hst => ?_) fun _ => ?_
  · exact (publishState_final hE hP (by simp)).pre fun s h => ⟨h.1, fun _ => h.2 hst⟩
  · exact (publishState_final hE hP (by simp)).pre fun s h => ⟨h.1, nofun⟩

/-! ## The loop -/

/-- The AP does nothing to the slots that are out any more. -/
def Stopped (active : SlotIndex → Bool) (s : Machine) : Prop :=
  Hard s ∨ (∃ v h, s.log.phase = .faulted v h) ∧
    ∃ j, s.currentRequestSlot = some j ∧ active j = false

/-- What the loop knows about the slots that are out. -/
structure Live (l : StreamLocals) (s : Machine) : Prop where
  used : ∀ i, l.active i = true → s.log.latest i ≠ 0
  noTimeout : ∀ i, l.active i = true → (s.slots i).state ≠ .timeout
  skipped : ∀ i, l.active i = true → (s.slots i).state = .skipped → Hard s ∨ l.stopped = true
  stopped : l.stopped = true → Stopped l.active s

theorem Stopped.viewedBeside (active : SlotIndex → Bool) (i : SlotIndex) :
    ViewedBeside i (Stopped active) := by
  refine ⟨fun s s' hs h => ?_, fun s s' hs h => ?_⟩
  · refine h.imp ((Hard.viewedBeside i).seen s s' hs) fun ⟨⟨v, g, hp⟩, hc⟩ => ?_
    obtain ⟨hp', hc'⟩ := hs.current v g hp
    exact ⟨⟨v, g, hp'⟩, by rw [hc']; exact hc⟩
  · refine h.imp ((Hard.viewedBeside i).beside s s' hs) fun hf => ?_
    rwa [hs.phase, hs.current]

theorem Stopped.mono {active active' : SlotIndex → Bool}
    (ha : ∀ j, active j = false → active' j = false) (h : Stopped active s) : Stopped active' s :=
  h.imp_right fun ⟨hp, j, hc, hj⟩ => ⟨hp, j, hc, ha j hj⟩

theorem Live.seen (hs : ApSettles s s') (h : Live l s) : Live l s' where
  used i hi := by rw [hs.log.latest]; exact h.used i hi
  noTimeout i hi ht := h.noTimeout i hi (hs.timeout i ht)
  skipped i hi hk := (h.skipped i hi (hs.skipped i hk)).imp_left
    ((Hard.viewedBeside i).seen s s' hs)
  stopped hst := (Stopped.viewedBeside _ 0).seen s s' hs (h.stopped hst)

theorem Live.viewedBeside (hi : l.active i = false) : ViewedBeside i (Live l) := by
  refine ⟨fun s s' hs h => h.seen hs, fun s s' hs h => ⟨?_, ?_, ?_, ?_⟩⟩
  · intro j hj
    rw [hs.latest j fun he => by rw [he, hi] at hj; cases hj]
    exact h.used j hj
  · intro j hj
    rw [hs.state j fun he => by rw [he, hi] at hj; cases hj]
    exact h.noTimeout j hj
  · intro j hj
    rw [hs.state j fun he => by rw [he, hi] at hj; cases hj]
    exact fun hk => (h.skipped j hj hk).imp_left ((Hard.viewedBeside i).beside s s' hs)
  · exact fun hst => (Stopped.viewedBeside _ i).beside s s' hs (h.stopped hst)

theorem Live.viewed : Viewed (Live l) := by
  refine ⟨fun s s' hs h => h.seen hs, fun s s' hs h => ⟨?_, ?_, ?_, ?_⟩⟩
  · exact fun j hj => by rw [hs.latest]; exact h.used j hj
  · exact fun j hj => by rw [hs.state]; exact h.noTimeout j hj
  · intro j hj
    rw [hs.state]
    exact fun hk => (h.skipped j hj hk).imp_left
      ((Hard.viewedBeside j).beside s s' (hs.beside j))
  · exact fun hst => (Stopped.viewedBeside _ 0).beside s s' (hs.beside 0) (h.stopped hst)

/-- A stop that is found out. -/
theorem Live.stop (h : Live l s) {x : Bool} (hx : x = true → Stopped l.active s) :
    Live { l with stopped := l.stopped || x } s where
  used := h.used
  noTimeout := h.noTimeout
  skipped i hi hk := (h.skipped i hi hk).imp_right fun hst => by simp [hst]
  stopped hst := by
    simp only [Bool.or_eq_true] at hst
    exact hst.elim h.stopped hx

/-! ### Stopping -/

/-- Slot `i` was `PENDING` when it was read, and stays so. -/
def StaysPending (l : StreamLocals) (i : SlotIndex) (s : Machine) : Prop :=
  (s.slots i).state = .pending ∧ s.error = .ok ∧ Stopped l.active s

theorem StaysPending.viewed (hi : l.active i = true) : Viewed (StaysPending l i) := by
  refine ⟨fun s s' hs h => ?_, fun s s' hs h => ?_⟩
  · obtain ⟨hp, he, hst⟩ := h
    refine ⟨?_, hs.error.trans he, (Stopped.viewedBeside _ i).seen s s' hs hst⟩
    rcases hst with (h | h | h) | ⟨hf, j, hc, hj⟩
    · exact absurd he h
    · exact hs.spared i hp (Or.inl h)
    · rw [(hs.posted trivial h).2.2]
      exact hp
    · refine hs.spared i hp (Or.inr ⟨hf, fun hci => ?_⟩)
      rw [hc] at hci
      obtain rfl := Option.some.inj hci
      rw [hi] at hj
      cases hj
  · exact ⟨(hs.state i).trans h.1, hs.error.trans h.2.1,
      (Stopped.viewedBeside _ i).beside s s' (hs.beside i) h.2.2⟩

/-- Slot `i` was `RUNNING` when it was read, and nothing completes it. -/
def LeftRunning (i : SlotIndex) (s : Machine) : Prop :=
  s.log.phase.down = true ∧ ((s.slots i).state = .running ∨ (s.slots i).state = .fault ∨
    (s.slots i).state = .badOp)

theorem LeftRunning.viewed : Viewed (LeftRunning i) := by
  refine ⟨fun s s' hs h => ?_, fun s s' hs h => ?_⟩
  · exact ⟨hs.down trivial h.1, (hs.stuck trivial h.1 i).2 h.2⟩
  · unfold LeftRunning at h ⊢
    rwa [hs.phase, hs.state]

theorem down_of_stopped (hm : MachineInv b c0 s) {active : SlotIndex → Bool}
    (h : Stopped active s) (he : s.error = .ok) : s.log.phase.down = true := by
  rcases h with (h | ⟨n, j, h⟩ | h) | ⟨⟨v, g, h⟩, -⟩
  · exact absurd he h
  · rw [h]; rfl
  · obtain ⟨v, g, h, -⟩ := hm.faulted h
    rw [h]; rfl
  · rw [h]; rfl

/-- What the read of the state says, once the AP has stopped. -/
def StateSeen (l : StreamLocals) (i : SlotIndex) (st : ApRequestStatus) (s : Machine) : Prop :=
  (st = .pending → StaysPending l i s) ∧ (st = .running → LeftRunning i s)

theorem StateSeen.viewed (hi : l.active i = true) (st : ApRequestStatus) :
    Viewed (StateSeen l i st) :=
  ⟨fun s s' hs h => ⟨fun ht => (StaysPending.viewed hi).seen s s' hs (h.1 ht),
      fun ht => LeftRunning.viewed.seen s s' hs (h.2 ht)⟩,
    fun s s' hs h => ⟨fun ht => (StaysPending.viewed hi).view s s' hs (h.1 ht),
      fun ht => LeftRunning.viewed.view s s' hs (h.2 ht)⟩⟩

theorem stateSeen_of_inv (hm : MachineInv b c0 s) (hst : Stopped l.active s) :
    StateSeen l i (s.slots i).state s :=
  ⟨fun hp => ⟨hp, ((hm.slot i).pending hp).1, hst⟩,
    fun hr => ⟨down_of_stopped hm hst ((hm.slot i).running hr).1, Or.inl hr⟩⟩

theorem setActive_live (h : Live l s) {st : ApRequestStatus} (hl : l.stopped = true)
    (ht : st ≠ .timeout) : Live l (s.setState i st) where
  used := h.used
  noTimeout j hj := by
    rw [state_setState]
    split
    · exact ht
    · exact h.noTimeout j hj
  skipped _ _ _ := Or.inr hl
  stopped hst := h.stopped hst

/-- `stop_ap_request_stream` on one slot. -/
theorem stopSlot_final (hE : FinalEnv b c0 E) (hi : l.active i = true) (hl : l.stopped = true)
    (w : UInt32) : Triple E (Live l) (stopSlot w i) fun _ => Live l := by
  have hread : ∀ st, Viewed fun s => Live l s ∧ StateSeen l i st s := fun st =>
    Live.viewed.and (StateSeen.viewed hi st)
  refine .bind (R := fun st s => Live l s ∧ StateSeen l i st s) ?_ fun st => ?_
  · exact .load (hE.stable Live.viewed.seen) hE.refl fun s hs h =>
      ⟨h, stateSeen_of_inv (hE.inv s hs).1 (h.stopped hl)⟩
  refine .cond (fun _ => .ret fun s h => h.1) fun _ => ?_
  refine .bind (hE.still (hread st) (Prog.Within.store fun s => .setSlot rfl)) fun _ => ?_
  refine .bind (R := fun ap s => (Live l s ∧ StateSeen l i st s) ∧ (ap = .faulted →
    s.apState = .faulted)) ?_ fun ap => ?_
  · exact .load (hE.stable (hread st).seen) hE.refl fun s _ h => ⟨h, id⟩
  refine .cond (fun hap => ?_) fun _ => .cond (fun hst => ?_) fun _ => .ret fun s h => h.1.1
  · -- the AP has posted its fault, so the slot it left `RUNNING` is `RUNNING` or `FAULT`
    let Q (s : Machine) : Prop := (Live l s ∧ LeftRunning i s) ∧ s.apState = .faulted
    have hQ : Viewed Q := by
      refine (Live.viewed.and LeftRunning.viewed).and ⟨fun s s' hs h => ?_, fun s s' hs h => ?_⟩
      · exact (hs.posted trivial h).1
      · exact hs.apState.trans h
    refine Triple.pre (H := Q) ?_ fun s h => ⟨⟨h.1.1, h.1.2.2 hap.2⟩, h.2 hap.1⟩
    refine .bind (hE.still hQ (Still.load _)) fun v => ?_
    refine .bind (hE.still hQ (Prog.Within.store fun s => .setSlot rfl)) fun _ => ?_
    refine .store (hE.stable hQ.seen) fun s hs _ h => ?_
    obtain ⟨⟨hlive, -, hst⟩, hf⟩ := h
    refine ⟨hE.guar _ _ fun j hj hne => ?_, setActive_live hlive hl (by simp)⟩
    rw [state_setState] at hne
    split at hne
    · rename_i hji
      subst hji
      rcases hst with hr | hr | hr
      · rw [hr] at hj; cases hj
      · exact absurd hr.symm hne
      · -- `BAD_OP` would mean that the AP has halted, and it has faulted
        obtain ⟨n, m, hp⟩ := (hE.inv s hs).2.badOp j hr (hlive.used j hi)
        obtain ⟨v, g, hp', -⟩ := (hE.inv s hs).1.faulted hf
        rw [hp] at hp'
        cases hp'
    · exact absurd rfl hne
  · -- the AP is down and was not in this slot, so the slot stays `PENDING`
    refine Triple.pre (H := fun s => Live l s ∧ StaysPending l i s) ?_
      fun s h => ⟨h.1.1, h.1.2.1 hst⟩
    refine .store (hE.stable (Live.viewed.and (StaysPending.viewed hi)).seen) fun s _ _ h => ?_
    exact ⟨hE.guar _ _ (final_of_unfinished (by rw [h.2.1]; rfl)), setActive_live h.1 hl (by simp)⟩

theorem stopApRequestStream_final (hE : FinalEnv b c0 E) (hl : l.stopped = true) :
    Triple E (Live l) (stopApRequestStream l) fun _ => Live l :=
  .forEach_keep fun _ _ => .cond (fun hi => stopSlot_final hE hi hl _) fun _ => .ret fun _ h => h

/-! ### Taking a request back -/

/-- The slots that are out when slot `i` is taken back. -/
abbrev withoutSlot (l : StreamLocals) (i : SlotIndex) : SlotIndex → Bool :=
  Function.update l.active i false

theorem withoutSlot_of_inactive {j : SlotIndex} (h : l.active j = false) :
    withoutSlot l i j = false := by
  by_cases hj : j = i
  · simp [withoutSlot, hj]
  · simpa [withoutSlot, hj] using h

/-- Slot `i` was found finished, but not `DONE`, only because the AP has stopped. -/
def StopFound (l : StreamLocals) (i : SlotIndex) (st : ApRequestStatus) (s : Machine) : Prop :=
  st.finished = true → st ≠ .done → Stopped (withoutSlot l i) s

theorem StopFound.viewed (st : ApRequestStatus) : Viewed (StopFound l i st) :=
  ⟨fun s s' hs h hf hd => (Stopped.viewedBeside _ i).seen s s' hs (h hf hd),
    fun s s' hs h hf hd => (Stopped.viewedBeside _ i).beside s s' (hs.beside i) (h hf hd)⟩

theorem stopFound_of_live (hi : l.active i = true) (hinv : HandlerFaultInv s) (h : Live l s) :
    StopFound l i (s.slots i).state s := by
  intro hfin hnd
  cases hst : (s.slots i).state with
  | empty | pending | running => rw [hst] at hfin; cases hfin
  | done => exact absurd hst hnd
  | timeout => exact absurd hst (h.noTimeout i hi)
  | badOp => exact Or.inl (Or.inr (Or.inl (hinv.badOp i hst (h.used i hi))))
  | fault =>
    rcases hinv.fault i hst (h.used i hi) with hf | ⟨hp, hc⟩
    · exact Or.inl (Or.inr (Or.inr hf))
    · exact Or.inr ⟨hp, i, hc, by simp [withoutSlot]⟩
  | skipped =>
    rcases h.skipped i hi hst with hh | hl
    · exact Or.inl hh
    · exact (h.stopped hl).mono fun j hj => withoutSlot_of_inactive hj

/-- What `finish_ap_stream_slot` leaves. -/
def TakenBack (l : StreamLocals) (i : SlotIndex) (r : StreamLocals × Bool) (s : Machine) : Prop :=
  Live l s ∧ (r = (l, false) ∨ ∃ v n st, st.finished = true ∧ StopFound l i st s ∧
    r = ({ l with counterBase := v, active := withoutSlot l i, completedCount := n }, st == .done))

theorem TakenBack.viewed (r : StreamLocals × Bool) : Viewed (TakenBack l i r) := by
  refine ⟨fun s s' hs h => ⟨Live.viewed.seen s s' hs h.1, ?_⟩,
    fun s s' hs h => ⟨Live.viewed.view s s' hs h.1, ?_⟩⟩
  · exact h.2.imp_right fun ⟨v, n, st, hf, hst, hr⟩ =>
      ⟨v, n, st, hf, (StopFound.viewed st).seen s s' hs hst, hr⟩
  · exact h.2.imp_right fun ⟨v, n, st, hf, hst, hr⟩ =>
      ⟨v, n, st, hf, (StopFound.viewed st).view s s' hs hst, hr⟩

theorem finishApStreamSlot_final (hE : FinalEnv b c0 E) (hi : l.active i = true) (w : UInt32) :
    Triple E (Live l) (finishApStreamSlot l i w) fun r => TakenBack l i r := by
  have hboth : ∀ st, Viewed fun s => Live l s ∧ StopFound l i st s := fun st =>
    Live.viewed.and (StopFound.viewed st)
  refine .bind (R := fun st s => Live l s ∧ StopFound l i st s) ?_ fun st => ?_
  · refine .swap (hE.stable Live.viewed.seen) fun s hs _ h => ?_
    have hview : SameView s (s.note (.inspected i (s.slots i).state)) :=
      ⟨rfl, rfl, rfl, rfl, fun _ => rfl, fun _ => rfl⟩
    have hfound := stopFound_of_live hi (hE.inv s hs).2 h
    exact ⟨hE.guar _ _ hview.final, Live.viewed.view _ _ hview h,
      (StopFound.viewed _).view _ _ hview hfound⟩
  refine .cond (fun _ => .ret fun s h => ⟨h.1, Or.inl rfl⟩) fun hst => ?_
  have hfin : st.finished = true := by
    simp only [hi, Bool.not_true, Bool.false_or, Bool.not_eq_true', Bool.not_eq_false] at hst
    exact hst
  refine .bind (hE.still (hboth st) (Prog.Within.store fun s => ?_)) fun _ => ?_
  · refine ⟨rfl, rfl, rfl, rfl, fun _ => rfl, fun j => ?_⟩
    simp only [finishStore, Machine.note_slots]
    exact state_setSlot rfl j
  refine .bind (hE.still (hboth st) (Still.recordSlot _ _ _)) fun v => ?_
  exact .ret fun s h => ⟨h.1, Or.inr ⟨v, _, st, hfin, h.2, rfl⟩⟩

/-! ### Refilling -/

theorem Live.publish (h : Live l s) (hp : Posted i s) (hl : l.stopped = false) :
    Live { l with active := Function.update l.active i true, nextPlan := l.nextPlan + 1 } s := by
  refine ⟨fun j hj => ?_, fun j hj => ?_, fun j hj hk => ?_, fun hst => ?_⟩
  · by_cases hji : j = i
    · rw [hji]; exact hp.used
    · exact h.used j (by simpa [hji] using hj)
  · by_cases hji : j = i
    · rw [hji]; exact hp.noTimeout
    · exact h.noTimeout j (by simpa [hji] using hj)
  · by_cases hji : j = i
    · exact Or.inl (hp.skipped (hji ▸ hk))
    · exact h.skipped j (by simpa [hji] using hj) hk
  · rw [hl] at hst
    cases hst

theorem publishNext_final (hE : FinalEnv b c0 E) (hi : l.active i = false)
    (hl : l.stopped = false) :
    Triple E (Live l) (publishNext b plan l i) fun l' s =>
      Live l' s ∧ l'.stopped = false ∧ ∀ j, l.active j = false → j ≠ i → l'.active j = false := by
  unfold publishNext
  split
  · exact .ret fun s h => ⟨h, hl, fun j hj _ => hj⟩
  · refine .bind (publishApInboxRequest_final hE (Live.viewedBeside hi) _) fun _ => ?_
    exact .ret fun s h => ⟨h.1.publish h.2 hl, hl, fun j hj hji => by simpa [hji] using hj⟩

theorem refillSlot_final (hE : FinalEnv b c0 E) (hi : l.active i = false) (done : Bool) :
    Triple E (Live l) (refillSlot b plan l i done) fun l' => Live l' := by
  refine .cond (fun hc => ?_) fun _ => .ret fun s h => h
  refine .bind (shouldStop_final hE Live.viewed) fun stop => ?_
  refine .cond (fun hst => .ret fun s h => ?_) fun _ => ?_
  · have := h.1.stop (x := true) fun _ => Or.inl (h.2 hst)
    simpa using this
  · exact (publishNext_final hE hi hc.2.1).conseq (fun s h => h.1) fun l' s h => h.1

theorem afterFinish_final (hE : FinalEnv b c0 E) (hi : l.active i = true)
    (r : StreamLocals × Bool) :
    Triple E (TakenBack l i r) (afterFinish b plan r.1 i r.2) fun l' => Live l' := by
  rintro s ⟨hlive, rfl | ⟨v, n, st, hfin, hfound, rfl⟩⟩
  · have hret : afterFinish b plan l i false = pure { l with stopped := l.stopped || false } := by
      simp [afterFinish, refillSlot, hi]
    rw [hret]
    exact hlive.stop fun h => by cases h
  · have hact : ∀ {j}, withoutSlot l i j = true → l.active j = true := fun hj =>
      Bool.eq_true_of_not_eq_false fun hno => by rw [withoutSlot_of_inactive hno] at hj; cases hj
    have hback : Live { l with counterBase := v, active := withoutSlot l i, completedCount := n } s :=
      ⟨fun j hj => hlive.used j (hact hj), fun j hj => hlive.noTimeout j (hact hj),
        fun j hj => hlive.skipped j (hact hj),
        fun hst => (hlive.stopped hst).mono fun j hj => withoutSlot_of_inactive hj⟩
    refine refillSlot_final hE (by simp [withoutSlot]) _ s (hback.stop fun hx => ?_)
    refine hfound hfin fun hd => ?_
    simp [hd] at hx

/-- A visit. -/
theorem visitSlot_final (hE : FinalEnv b c0 E) :
    Triple E (Live l) (visitSlot b plan l i) fun l' => Live l' := by
  refine .cond (fun _ => .ret fun s h => h) fun hi => ?_
  have hi : l.active i = true := by simpa using hi
  refine .bind (hE.still Live.viewed (Prog.Within.swap fun s => ?_)) fun st => ?_
  · exact ⟨rfl, rfl, rfl, rfl, fun _ => rfl, fun _ => rfl⟩
  refine .bind (hE.still Live.viewed (.cond (fun _ => ?_) fun _ => .ret _)) fun deferred => ?_
  · exact Still.reads (Reading.apStreamHasEarlierFinishedSlot _ _)
  refine .cond (fun _ => ?_) fun _ => ?_
  · refine .bind (hE.still Live.viewed (Prog.Within.store fun s => ?_)) fun _ => .ret fun s h => h
    exact ⟨rfl, rfl, rfl, rfl, fun _ => rfl, fun _ => rfl⟩
  · refine .bind (finishApStreamSlot_final hE hi _) fun r => ?_
    refine .bind (hE.still (TakenBack.viewed r) (Prog.Within.store fun s => ?_)) fun _ => ?_
    · exact ⟨rfl, rfl, rfl, rfl, fun _ => rfl, fun _ => rfl⟩
    · exact afterFinish_final hE hi r

/-! ### Code that needs no knowledge -/

/-- A store over a state that is not finished. -/
def Unfinished (st _ : ApRequestStatus) : Prop := st.finished = false

theorem timesOut_unfinished : TimesOut Unfinished := ⟨rfl, rfl⟩

theorem SlotAccess.final {W : SlotIndex → Prop} (h : SlotAccess W Unfinished s s') : FinalAct s s' := by
  intro i hfin hne
  have hopen : (s.slots i).state.finished = false := (h.state i).resolve_left hne
  rw [hfin] at hopen
  cases hopen

/-- Code that overwrites nothing finished, whatever the memory holds. -/
theorem FinalEnv.harmless (hE : FinalEnv b c0 E) {α : Type} {p : Prog Machine α}
    (h : p.Within FinalAct) : Triple E P p fun _ _ => True := fun s _ =>
  wp_of_within (fun _ _ hf => hE.guar _ _ hf) (fun _ _ => trivial) p s h

theorem FinalEnv.unfinished (hE : FinalEnv b c0 E) {α : Type} {p : Prog Machine α}
    (h : BspCode (fun _ => False) Unfinished p) : Triple E P p fun _ _ => True :=
  hE.harmless (h.mono fun _ _ ha => ha.final)

theorem resetApInboxSlot_harmless (i : SlotIndex) : (resetApInboxSlot i).Within FinalAct := by
  refine .seq (.seq (Prog.Within.store fun s => reset_final s i) fun _ => ?_) fun _ => ?_
  · exact (Still.fields resetApRequestSlotFields_isField i).mono fun _ _ hv => hv.final
  · exact (Still.outbox i _).mono fun _ _ hv => hv.final

/-! ### The calls -/

/-- What the second walk asserts between two pieces of the BSP's code. -/
def finalCut : BspPc → Machine → Prop
  | .streamLoop _ l, s => Live l s
  | .next, _ | .streamReturned .., _ | .pingLoop _, _ => True

/-- A point at which the second walk asserts nothing. -/
def BspPc.outside : BspPc → Prop
  | .streamLoop .. => False
  | _ => True

/-- Code that needs no knowledge and ends outside of a stream's loop. -/
theorem harmless_final (hE : FinalEnv b c0 E) {p : Prog Machine BspPc}
    (h : BspCode (fun _ => False) Unfinished p) (he : p.Ends BspPc.outside) : Triple E P p finalCut := by
  intro s hs
  refine wp_mono (fun pc s hpc => ?_) p s (wp_ends p s he (hE.unfinished h s hs))
  cases pc with
  | streamLoop => exact hpc.1.elim
  | next | streamReturned | pingLoop => trivial

theorem streamEpilogue_final (hE : FinalEnv b c0 E) :
    Triple E P (streamEpilogue b plan l) finalCut := by
  refine harmless_final hE (BspCode.streamEpilogue timesOut_unfinished) ?_
  unfold streamEpilogue
  iterate 2 refine .bind (fun _ => ?_) _
  exact .ret trivial

/-- Only the loop count differs. -/
theorem Live.waitLoops (h : Live l s) (w : UInt32) : Live { l with waitLoops := w } s :=
  ⟨h.used, h.noTimeout, h.skipped, h.stopped⟩

theorem streamDecide_final (hE : FinalEnv b c0 E) :
    Triple E (Live l) (streamDecide b plan l) finalCut := by
  refine .cond (fun _ => streamEpilogue_final hE) fun _ => .cond (fun _ => ?_) fun _ => ?_
  · refine .bind (hE.still Live.viewed ?_) fun more => .cond (fun _ => .ret fun s h => h) fun _ => ?_
    · exact Still.reads (Reading.apRequestStreamHasFinishedSlot l)
    · exact .cond (fun _ => streamEpilogue_final hE) fun _ => .ret fun s h => h.waitLoops _
  · refine .cond (fun _ => streamEpilogue_final hE) fun _ => ?_
    exact .bind .any fun timer => .ret fun s h => Live.waitLoops h _

theorem streamRound_final (hE : FinalEnv b c0 E) :
    Triple E (Live l) (streamRound b plan l) finalCut := by
  refine .bind (shouldStop_final hE Live.viewed) fun stop => ?_
  refine Triple.pre (H := Live { l with stopped := l.stopped || stop }) ?_
    fun s h => h.1.stop fun hst => Or.inl (h.2 hst)
  refine .bind (R := fun _ => Live { l with stopped := l.stopped || stop }) ?_ fun _ => ?_
  · exact .cond (fun hst => stopApRequestStream_final hE (by simp [hst])) fun _ => .ret fun _ h => h
  refine .bind (R := fun l' => Live l') ?_ fun l' => ?_
  · exact Triple.foldOver (I := fun _ l' => Live l') (fun j js l' => visitSlot_final hE) _ _
  refine .bind (R := fun _ => Live l') ?_ fun _ => streamDecide_final hE
  exact .cond (fun hst => stopApRequestStream_final hE hst) fun _ => .ret fun _ h => h

/-- A stream that has published nothing. -/
theorem Live.start (v : UInt32) (s : Machine) : Live { counterBase := v } s :=
  ⟨nofun, nofun, nofun, nofun⟩

/-- The first publications. -/
theorem firstPublications_final (hE : FinalEnv b c0 E) (v : UInt32) :
    Triple E (fun _ => True) (.foldOver allSlots { counterBase := v } (publishNext b plan))
      fun l => Live l := by
  -- the slots not reached yet are not out
  let I (js : List SlotIndex) (l : StreamLocals) (s : Machine) : Prop :=
    (js.Nodup ∧ l.stopped = false ∧ ∀ j ∈ js, l.active j = false) ∧ Live l s
  refine (Triple.foldOver (I := I) (fun j js l => ?_) allSlots _).conseq (fun s _ => ?_) fun l s h => h.2
  · refine Triple.lift fun ⟨hnodup, hl, hact⟩ => ?_
    obtain ⟨hj, hjs⟩ := List.nodup_cons.1 hnodup
    refine (publishNext_final hE (hact j (by simp)) hl).post fun l' s h => ⟨⟨hjs, h.2.1, ?_⟩, h.1⟩
    exact fun m hm => h.2.2 m (hact m (by simp [hm])) fun he => hj (he ▸ hm)
  · exact ⟨⟨List.nodup_finRange _, rfl, fun _ _ => rfl⟩, Live.start v s⟩

theorem runApRequestStream_final (hE : FinalEnv b c0 E) :
    Triple E P (runApRequestStream b plan) finalCut := by
  refine .bind (hE.unfinished (BspCode.noted _ _)) fun v => ?_
  refine .bind (hE.unfinished BspCode.resetApQueueSummary) fun _ => ?_
  refine .bind (hE.unfinished BspCode.resetApRequestHistory) fun _ => ?_
  refine .bind (hE.unfinished (BspCode.beside fun _ => rfl)) fun _ => ?_
  refine .bind (hE.harmless (.forEach resetApInboxSlot_harmless _)) fun _ => ?_
  refine .bind (hE.unfinished (BspCode.reads Reading.apRequestStreamShouldStop)) fun stop => ?_
  refine .cond (fun _ => ?_) fun _ => ?_
  · refine .bind (hE.unfinished (BspCode.load _)) fun st => ?_
    exact .bind (hE.unfinished (BspCode.beside fun _ => rfl)) fun _ => .ret fun _ _ => trivial
  · exact .bind (firstPublications_final hE v) fun l => .ret fun s h => h

theorem runApBroadcastPing_final (hE : FinalEnv b c0 E) (isTarget : Bool) :
    Triple E P (runApBroadcastPing b isTarget) finalCut := by
  have htrue : ViewedBeside apBroadcastPingSlotIndex fun _ => True :=
    ⟨fun _ _ _ _ => trivial, fun _ _ _ _ => trivial⟩
  refine .bind (hE.unfinished (.cond (fun _ => BspCode.load _) fun _ => .ret _)) fun handled => ?_
  refine .bind (hE.unfinished (.cond (fun _ => BspCode.load _) fun _ => .ret _)) fun counter => ?_
  refine .bind (hE.unfinished (BspCode.beside fun _ => rfl)) fun _ => ?_
  refine .bind (hE.unfinished (BspCode.reads Reading.apContextCanAcceptBroadcastPing)) fun accepts => ?_
  refine .bind (R := fun _ _ => True) (.cond (fun _ => ?_) fun _ => .ret fun _ _ => trivial) fun _ => ?_
  · refine .bind (publishApInboxRequest_final hE htrue _) fun _ => ?_
    exact hE.unfinished (BspCode.beside fun _ => rfl)
  · exact .ret fun _ _ => trivial

/-- **The BSP overwrites nothing finished.** -/
theorem bspBody_final (hE : FinalEnv b c0 E) (pc : BspPc) (p : Prog Machine BspPc)
    (hp : bspBody b true pc = some p) : Triple E (finalCut pc) p finalCut := by
  cases pc with
  | next =>
    obtain rfl := Option.some.inj hp
    refine .bind .any fun call => ?_
    cases call with
    | ping isTarget => exact runApBroadcastPing_final hE isTarget
    | stream plan => exact runApRequestStream_final hE
  | streamLoop plan l =>
    obtain rfl := Option.some.inj hp
    exact streamRound_final hE
  | streamReturned plan l result =>
    obtain rfl := Option.some.inj hp
    exact .ret fun _ _ => trivial
  | pingLoop l =>
    obtain rfl := Option.some.inj hp
    refine harmless_final hE (BspCode.pingRound timesOut_unfinished l) ?_
    refine (pingRound_offStream b l).mono fun pc h => ?_
    cases pc with
    | streamLoop => exact h.elim
    | next | streamReturned | pingLoop => trivial

end Walk

end VibeKernel

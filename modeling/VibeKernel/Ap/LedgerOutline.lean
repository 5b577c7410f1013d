import VibeKernel.Ap.BspAccesses
import VibeKernel.Ap.Ledger

/-!
# A stream keeps its ledger

The second walk through `run_ap_request_stream`, with `Ledger` as the assertion of its loop. The
guarantee is empty, so most of the code needs only a look at which slots it writes.
-/

namespace VibeKernel

open Conc

section Walk

variable {b : Build} {E : Env Machine} {U W : SlotIndex → Prop} {busy : Option SlotIndex}
variable {hist : Nat} {i : SlotIndex} {plan : List ApRequestPlan} {l : StreamLocals}
variable {P : Machine → Prop}

/-- What the walk needs of its surroundings. -/
structure LedgerEnv (E : Env Machine) : Prop where
  inv : ∀ s, E.inv s → LogInv s.log
  guar : ∀ s s', E.guar s s'
  rely : ∀ s s', E.rely s s' → ApKeepsDone s s'

theorem LedgerEnv.stable (hE : LedgerEnv E) (h : ∀ s s', ApKeepsDone s s' → P s → P s') : Stable E P :=
  fun s s' hr hs => h s s' (hE.rely s s' hr) hs

/-! ## Code that stays inside some slots -/

/-- Every access of `p` stays inside the slots of `W`. -/
abbrev Confined (W : SlotIndex → Prop) {α : Type} (p : Prog Machine α) : Prop := p.Within (OnlyIn W)

namespace Confined

open Prog (Within)

theorem reads {α : Type} {p : Prog Machine α} (hp : p.Reads) : Confined W p := hp.within (OnlyIn.refl W)

theorem load {α : Type} (f : Machine → α) : Confined W (.load f) := reads (Reading.load f)

/-- A store to fields outside of the ledger. -/
theorem store {f : Machine → Machine} (hl : ∀ s, (f s).log = s.log) (hs : ∀ s, (f s).slots = s.slots)
    (hh : ∀ s, (f s).history = s.history) : Confined W (.store f) :=
  Within.store fun s => ⟨⟨by rw [hl s]; exact .refl _, fun _ _ => by rw [hs s]⟩, fun _ => by rw [hh s]⟩

/-- A read that is noted. -/
theorem mark {α : Type} (f : Machine → α) {e : Machine → Event} (he : ∀ s, (e s).isMark = true) :
    Confined W (.swap fun s => (f s, s.note (e s))) := by
  refine Within.swap fun s => ⟨⟨?_, fun _ _ => rfl⟩, fun _ => rfl⟩
  have := he s
  generalize e s = e' at *
  cases e' <;> first | exact ⟨rfl, rfl, fun _ => rfl, rfl, rfl, rfl, rfl⟩ | exact nomatch this

/-- An event that is only a mark. -/
theorem noted {e : Event} (he : e.isMark = true) : Confined W (.store fun s => s.note e) := by
  refine Within.store fun s => ⟨⟨?_, fun _ _ => rfl⟩, fun _ => rfl⟩
  cases e <;> first | exact ⟨rfl, rfl, fun _ => rfl, rfl, rfl, rfl, rfl⟩ | exact nomatch he

theorem slot (hi : W i) (f : Machine → ApRequestSlot → ApRequestSlot) :
    Confined W (.store fun s => s.setSlot i (f s)) :=
  Within.store fun s => .setSlot hi s (f s)

theorem stores (hi : W i) (ws : List SlotStore) : Confined W (storeSlot i ws) := by
  refine Within.forEach (fun w => ?_) ws
  exact slot hi fun _ => w.apply

theorem outbox (ws : List OutboxStore) :
    Confined W (.forEach ws fun w => .store fun s => s.setOutbox i w) := by
  refine Within.forEach (fun w => ?_) ws
  exact store (fun _ => rfl) (fun _ => rfl) fun _ => rfl

theorem resetSlot (hi : W i) : Confined W (resetApInboxSlot i) := by
  exact .seq (stores hi _) fun _ => outbox _

theorem stopSlot (hi : W i) (w : UInt32) : Confined W (stopSlot w i) := by
  refine .seq (load _) fun st => .cond (fun _ => .ret _) fun _ => ?_
  refine .seq (slot hi _) fun _ => ?_
  refine .seq (load _) fun ap => .cond (fun _ => ?_) fun _ => .cond (fun _ => slot hi _) fun _ => .ret _
  refine .seq (load _) fun v => ?_
  exact .seq (slot hi _) fun _ => slot hi _

/-- `stop_ap_request_stream` stays inside the slots that are out. -/
theorem stop (l : StreamLocals) : Confined (fun i => l.active i = true) (stopApRequestStream l) := by
  refine .forEach (fun i => ?_) _
  exact .cond (fun hi => stopSlot hi _) fun _ => .ret _

theorem cmpxchg (hi : W i) (st st' : ApRequestStatus) : Confined W (.swap (cmpxchgState i st st')) := by
  refine Within.swap fun s => ?_
  unfold cmpxchgState
  split
  · exact OnlyIn.setSlot hi s fun slot => { slot with state := st' }
  · exact .refl W s

theorem timeOut (hi : W i) (st : ApRequestStatus) : Confined W (timeOutSlot b i st) := by
  refine .cond (fun _ => .ret _) fun _ => ?_
  refine .seq (slot hi _) fun _ => ?_
  refine .seq (cmpxchg hi _ _) fun ok => .cond (fun _ => .ret _) fun _ => ?_
  exact .seq (cmpxchg hi _ _) fun _ => .ret _

end Confined

/-- Confined code keeps what no access in `W` touches. -/
theorem LedgerEnv.keep (hE : LedgerEnv E) (hs : ∀ s s', ApKeepsDone s s' → P s → P s')
    (hW : ∀ s s', OnlyIn W s s' → P s → P s') {α : Type} {p : Prog Machine α} (hp : Confined W p) :
    Triple E P p fun _ => P :=
  .within (hE.stable hs) (fun s s' _ ha h => ⟨hE.guar s s', hW s s' ha h⟩) hp

/-- Confined code keeps the ledger. -/
theorem LedgerEnv.confined (hE : LedgerEnv E) (hW : ∀ i, W i → l.active i = true ∨ busy = some i)
    {α : Type} {p : Prog Machine α} (hp : Confined W p) :
    Triple E (Ledger U busy hist l) p fun _ => Ledger U busy hist l :=
  hE.keep (fun _ _ => Ledger.seen) (fun _ _ ha h => h.onlyIn hW ha) hp

/-! ## Publishing -/

/-- **A publication.** -/
theorem publishApInboxRequest_ledger (hE : LedgerEnv E) {V : SlotIndex → Prop}
    (hV : ∀ j, V j → U j ∨ j = i) (p : ApRequestPlan) :
    Triple E (Ledger U (some i) hist l) (publishApInboxRequest b i p) fun _ =>
      Ledger V none hist (Tally.afterPublish l i) := by
  have hlast : ∀ st, Triple E (Ledger U (some i) hist l) (.store (publishState i p st))
      fun _ => Ledger V none hist (Tally.afterPublish l i) := fun st =>
    .store (hE.stable fun _ _ => Ledger.seen) fun s _ _ h => ⟨hE.guar _ _, h.publish hV⟩
  have hkeep : ∀ {α : Type} {q : Prog Machine α}, Confined (fun j => j = i) q →
      Triple E (Ledger U (some i) hist l) q fun _ => Ledger U (some i) hist l := fun hq =>
    hE.confined (fun j hj => Or.inr (congrArg some hj.symm)) hq
  refine .bind (hkeep (Confined.resetSlot rfl)) fun _ => ?_
  refine .bind (hkeep (Confined.stores (W := fun j => j = i) rfl _)) fun _ => ?_
  refine .bind (hkeep (Confined.load _)) fun st => .cond (fun _ => ?_) fun _ => ?_
  · refine .bind (hkeep (Confined.load _)) fun v => ?_
    exact .bind (hkeep (Confined.slot (W := fun j => j = i) rfl _)) fun _ => hlast _
  · refine .bind (hkeep (Confined.reads Reading.apBarred)) fun barred => ?_
    refine .cond (fun _ => hlast _) fun _ => ?_
    exact .bind (hkeep (Confined.load _)) fun st => .cond (fun _ => hlast _) fun _ => hlast _

/-- The slot can be published again, or nothing has come back yet. -/
def Free (i : SlotIndex) (l : StreamLocals) (s : Machine) : Prop :=
  l.active i = false ∧ ((s.slots i).state = .done ∨ l.completedCount = 0)

theorem Free.seen {s s' : Machine} (hs : ApKeepsDone s s') (h : Free i l s) : Free i l s' :=
  ⟨h.1, h.2.imp_left (hs.done i)⟩

theorem publishNext_ledger (hE : LedgerEnv E) {V : SlotIndex → Prop} (hU : ∀ j, V j → U j ∨ j = i)
    (hV : plan.length ≤ l.nextPlan → ∀ j, V j → U j) :
    Triple E (fun s => Ledger U none l.completedCount l s ∧ Free i l s) (publishNext b plan l i)
      fun l' s => Ledger V none l'.completedCount l' s ∧ l'.completedCount = l.completedCount ∧
        l'.nextPlan ≤ l.nextPlan + 1 ∧ ∀ j ≠ i, l'.active j = l.active j := by
  unfold publishNext
  split
  · rename_i hnone
    have hle : plan.length ≤ l.nextPlan := List.getElem?_eq_none_iff.1 hnone
    exact .ret fun s h => ⟨{ h.1 with used := fun j hj => h.1.used j (hV hle j hj) }, rfl, by omega,
      fun _ _ => rfl⟩
  · rename_i p hp
    refine .bind ((publishApInboxRequest_ledger hE hU p).pre fun s h => h.1.begin h.2.2) fun _ => ?_
    exact .ret fun s h => ⟨h, rfl, le_refl _, fun j hj => by simp [hj]⟩

/-! ## Taking a request back -/

/-- The request in slot `i` came back as completion `n`, from a slot in state `st`. -/
structure CameBack (U : SlotIndex → Prop) (hist : Nat) (l : StreamLocals) (i : SlotIndex) (n : Nat)
    (st : ApRequestStatus) (s : Machine) : Prop where
  ledger : Ledger U none hist l s
  last : ∃ c, s.log.completions[n]? = some c ∧ c.n = s.log.latest c.i ∧ c.i = i ∧
    (st = .done → c.slot.state = .done)

section CameBack

variable {n : Nat} {st : ApRequestStatus} {s s' : Machine}

theorem CameBack.seen (hs : ApKeepsDone s s') (h : CameBack U hist l i n st s) :
    CameBack U hist l i n st s' := by
  obtain ⟨c, hc, hn, hi, hd⟩ := h.last
  refine ⟨h.ledger.seen hs, c, ?_, ?_, hi, hd⟩
  · rw [hs.log.completions]
    exact hc
  · rw [hs.log.latest]
    exact hn

theorem CameBack.onlyIn (ha : OnlyIn (fun _ => False) s s') (h : CameBack U hist l i n st s) :
    CameBack U hist l i n st s' := by
  obtain ⟨c, hc, hn, hi, hd⟩ := h.last
  refine ⟨h.ledger.onlyIn (fun _ => False.elim) ha, c, ?_, ?_, hi, hd⟩
  · rw [ha.log.completions]
    exact hc
  · rw [ha.log.latest]
    exact hn

/-- A slot whose request came back `DONE` still shows it. -/
theorem CameBack.done (h : CameBack U hist l i n .done s) : (s.slots i).state = .done := by
  obtain ⟨c, hc, hn, rfl, hd⟩ := h.last
  exact (h.ledger.kept c (List.mem_of_getElem? hc) hn (by simp)).2.2 (hd rfl)

end CameBack

/-- The copy of a slot into the history. -/
theorem recordApRequestHistory_ledger (hE : LedgerEnv E) {st : ApRequestStatus} (v : UInt32) :
    Triple E (CameBack U hist l i hist st) (recordApRequestHistory hist i v) fun _ =>
      CameBack U (hist + 1) l i hist st := by
  unfold recordApRequestHistory
  split
  · rename_i hlt
    have hkeep : ∀ {α : Type} {q : Prog Machine α}, Confined (fun _ => False) q →
        Triple E (CameBack U (hist + 1) l i hist st) q fun _ => CameBack U (hist + 1) l i hist st := fun hq =>
      hE.keep (fun _ _ => CameBack.seen) (fun _ _ => CameBack.onlyIn) hq
    have hfield : ∀ f : Machine → Machine, (∀ s, OnlyIn (fun _ => False) s (f s)) →
        Triple E (CameBack U (hist + 1) l i hist st) (.store f) fun _ =>
          CameBack U (hist + 1) l i hist st := fun f hf => hkeep (Prog.Within.store hf)
    refine .bind (R := fun _ => CameBack U (hist + 1) l i hist st) ?_ fun _ => ?_
    · -- of the copies, the one of the state counts
      refine .bind (R := fun _ => CameBack U (hist + 1) l i hist st) ?_ fun _ => ?_
      · refine .store (hE.stable fun _ _ => CameBack.seen) fun s _ _ h => ⟨hE.guar _ _, ?_⟩
        obtain ⟨c, hc, hn, rfl, hd⟩ := h.last
        have hkept := h.ledger.kept c (List.mem_of_getElem? hc) hn (by simp)
        exact ⟨h.ledger.record rfl hc hkept.2, c, hc, hn, rfl, hd⟩
      · refine hkeep (Prog.Within.forEach_mem fun c hc => Prog.Within.store fun s => ?_)
        exact OnlyIn.setHistory ((copyApRequestSlotFields_isField c hc).state _ _)
    refine .bind (hfield _ fun s => .setHistory rfl) fun _ => ?_
    exact .bind (hfield _ fun s => .setHistory rfl) fun _ => hfield _ fun s => .setHistory rfl
  · exact .ret fun s h => ⟨h.ledger.overflow (by omega), h.last⟩

/-- `finish_ap_stream_slot` answers `true` only for a slot that is `DONE`. -/
theorem finishApStreamSlot_ledger (hE : LedgerEnv E) (hi : l.active i = true) (w : UInt32) :
    Triple E (Ledger U none l.completedCount l) (finishApStreamSlot l i w) fun r s =>
      Ledger U none r.1.completedCount r.1 s ∧ (r.2 = true → Free i r.1 s) := by
  -- what the read of the state says
  let Read (st : ApRequestStatus) (s : Machine) : Prop :=
    st.finished = true → (s.slots i).state.finished = true ∧ (st = .done → (s.slots i).state = .done)
  have hread : ∀ st s s', ApKeepsDone s s' → Ledger U none l.completedCount l s ∧ Read st s →
      Ledger U none l.completedCount l s' ∧ Read st s' := fun st s s' hs h =>
    ⟨h.1.seen hs, fun hf => ⟨hs.finished i (h.2 hf).1, fun hd => hs.done i ((h.2 hf).2 hd)⟩⟩
  refine .bind (R := fun st s => Ledger U none l.completedCount l s ∧ Read st s) ?_ fun st => ?_
  · refine .swap (hE.stable fun _ _ => Ledger.seen) fun s _ _ h => ⟨hE.guar _ _, ?_, fun hf => ⟨hf, id⟩⟩
    have hmark : OnlyIn (fun _ => False) s (s.note (.inspected i (s.slots i).state)) :=
      ⟨⟨⟨rfl, rfl, fun _ => rfl, rfl, rfl, rfl, rfl⟩, fun _ _ => rfl⟩, fun _ => rfl⟩
    exact h.onlyIn (fun _ => False.elim) hmark
  refine .cond (fun _ => .ret fun s h => ⟨h.1, nofun⟩) fun hf => ?_
  have hf : st.finished = true := by
    by_contra hno
    simp [hno] at hf
  let l' : StreamLocals := Tally.afterTake l i
  refine .bind (R := fun _ => CameBack U l.completedCount l' i l.completedCount st) ?_ fun _ => ?_
  · refine .store (hE.stable (hread st)) fun s hinv _ h => ⟨hE.guar _ _,
      h.1.finish hi (h.2 hf).1 (hE.inv s hinv) w, Tally.completionOf i w s, ?_, rfl, rfl, (h.2 hf).2⟩
    rw [Tally.completions_finishStore, ← h.1.completed]
    simp
  refine .bind (R := fun _ => CameBack U (l.completedCount + 1) l' i l.completedCount st) ?_ fun v => ?_
  · refine .bind (hE.keep (W := fun _ => False) (fun _ _ => CameBack.seen)
      (fun _ _ => CameBack.onlyIn) ?_) fun counts => ?_
    · exact Confined.reads (Reading.countsAsIncrement i)
    · exact .bind (recordApRequestHistory_ledger hE _) fun _ => .ret fun s h => h
  · refine .ret fun s h => ⟨h.ledger.locals rfl rfl, fun hd => ⟨by simp, Or.inl ?_⟩⟩
    obtain rfl : st = .done := by simpa using hd
    exact h.done

/-! ## The loop -/

/-- What the loop knows: every slot is used if the plan is long enough. -/
abbrev InLedger (plan : List ApRequestPlan) (l : StreamLocals) : Machine → Prop :=
  Ledger (fun _ => apRequestSlotCount ≤ plan.length) none l.completedCount l

theorem refillSlot_ledger (hE : LedgerEnv E) {done : Bool} :
    Triple E (fun s => InLedger plan l s ∧ (done = true → Free i l s)) (refillSlot b plan l i done)
      fun l' => InLedger plan l' := by
  refine .cond (fun hc => ?_) fun _ => .ret fun s h => h.1
  have hseen : ∀ s s', ApKeepsDone s s' → InLedger plan l s ∧ (done = true → Free i l s) →
      InLedger plan l s' ∧ (done = true → Free i l s') := fun s s' hs h =>
    ⟨h.1.seen hs, fun hd => (h.2 hd).seen hs⟩
  refine .bind (hE.keep (W := fun _ => False) hseen (fun s s' ha h => ?_)
    (Confined.reads Reading.apRequestStreamShouldStop)) fun stop => ?_
  · refine ⟨h.1.onlyIn (fun _ => False.elim) ha, fun hd => ?_⟩
    obtain ⟨hi, hst⟩ := h.2 hd
    exact ⟨hi, by rw [ha.slot i id]; exact hst⟩
  · refine .cond (fun _ => .ret fun s h => h.1.locals rfl rfl) fun _ => ?_
    exact (publishNext_ledger hE (fun _ => Or.inl) fun _ _ => id).conseq
      (fun s h => ⟨h.1, h.2 hc.1⟩) fun l' s h => h.1

theorem visitSlot_ledger (hE : LedgerEnv E) :
    Triple E (InLedger plan l) (visitSlot b plan l i) fun l' => InLedger plan l' := by
  have hkeep : ∀ {α : Type} {q : Prog Machine α}, Confined (fun _ => False) q →
      Triple E (InLedger plan l) q fun _ => InLedger plan l := fun hq =>
    hE.confined (fun _ => False.elim) hq
  refine .cond (fun _ => .ret fun s h => h) fun hi => ?_
  have hi : l.active i = true := by simpa using hi
  refine .bind (hkeep (Confined.mark _ fun _ => rfl)) fun st => ?_
  refine .bind (hkeep (.cond (fun _ => ?_) fun _ => .ret _)) fun deferred => ?_
  · exact Confined.reads (Reading.apStreamHasEarlierFinishedSlot _ _)
  refine .cond (fun _ => ?_) fun _ => ?_
  · exact .bind (hkeep (Confined.noted rfl)) fun _ => .ret fun s h => h
  · refine .bind (finishApStreamSlot_ledger hE hi _) fun r => ?_
    refine .bind (R := fun _ s => InLedger plan r.1 s ∧ (r.2 = true → Free i r.1 s)) ?_ fun _ => ?_
    · refine hE.keep (W := fun _ => False) (fun s s' hs h => ⟨h.1.seen hs, fun hd => (h.2 hd).seen hs⟩)
        (fun s s' ha h => ⟨h.1.onlyIn (fun _ => False.elim) ha, fun hd => ?_⟩)
          (Confined.noted rfl)
      obtain ⟨hact, hst⟩ := h.2 hd
      exact ⟨hact, by rw [ha.slot i id]; exact hst⟩
    · exact (refillSlot_ledger hE).pre fun s h => ⟨h.1.locals rfl rfl, h.2⟩

/-! ## The end -/

theorem finishTimedOutSlot_ledger (hE : LedgerEnv E) :
    Triple E (InLedger plan l) (finishTimedOutSlot b l i) fun l' => InLedger plan l' := by
  refine .cond (fun _ => .ret fun s h => h) fun hi => ?_
  have hi : l.active i = true := by simpa using hi
  have hkeep : ∀ {α : Type} {q : Prog Machine α}, Confined (fun j => j = i) q →
      Triple E (InLedger plan l) q fun _ => InLedger plan l := fun hq =>
    hE.confined (fun j hj => Or.inl (hj ▸ hi)) hq
  refine .bind (hkeep (Prog.Within.swap fun s => ?_)) fun st => ?_
  · exact ⟨⟨⟨rfl, rfl, fun _ => rfl, rfl, rfl, rfl, rfl⟩, fun _ _ => rfl⟩, fun _ => rfl⟩
  refine .bind (hkeep (Confined.timeOut (W := fun j => j = i) rfl st)) fun _ => ?_
  exact .bind (finishApStreamSlot_ledger hE hi _) fun r => .ret fun s h => h.1

/-- Every request of the plan came back, every one of them `DONE`. -/
structure AllDone (plan : List ApRequestPlan) (l : StreamLocals) (s : Machine) : Prop where
  completedCount : l.completedCount = plan.length
  done : ∀ c ∈ s.log.completions, c.slot.state = .done

/-- What the walk knows of the result. -/
structure Verdict (plan : List ApRequestPlan) (l : StreamLocals) (result : Bool) (s : Machine) : Prop where
  history : ∀ (m : Fin apRequestHistoryCount) (c : Log.Completion),
    s.log.completions[m.val]? = some c → ((s.history m).request.state = .done ↔ c.slot.state = .done)
  sound : result = true → AllDone plan l s ∧ ∀ i, Used i s.log
  complete : apRequestSlotCount ≤ plan.length → (∀ i, l.active i = false) → AllDone plan l s →
    result = true

theorem Verdict.seen {result : Bool} {s s' : Machine} (hs : ApKeepsDone s s')
    (h : Verdict plan l result s) : Verdict plan l result s' := by
  have hc := hs.log.completions
  have hall : AllDone plan l s' ↔ AllDone plan l s :=
    ⟨fun ha => ⟨ha.completedCount, by rw [← hc]; exact ha.done⟩,
      fun ha => ⟨ha.completedCount, by rw [hc]; exact ha.done⟩⟩
  refine ⟨?_, fun hr => ?_, fun hlen hi ha => h.complete hlen hi (hall.1 ha)⟩
  · rw [hc, hs.history]
    exact h.history
  · exact ⟨hall.2 (h.sound hr).1, fun i => (hs.log.used i).2 ((h.sound hr).2 i)⟩

theorem Ledger.entries {U : SlotIndex → Prop} {s : Machine} (h : Ledger U none l.completedCount l s)
    (m : Fin apRequestHistoryCount) (c : Log.Completion) (hc : s.log.completions[m.val]? = some c) :
    (s.history m).request.state = .done ↔ c.slot.state = .done := by
  have hlt := (List.getElem?_eq_some_iff.1 hc).1
  rw [h.completed] at hlt
  exact h.history m c hlt hc

/-- `ap_request_all_done` agrees with the ledger. -/
theorem apRequestAllDone_ledger (hE : LedgerEnv E) (hcount : l.completedCount = plan.length) :
    Triple E (InLedger plan l) apRequestAllDone (Verdict plan l) := by
  -- the slots that were read show `DONE`
  let I (js : List SlotIndex) (s : Machine) : Prop :=
    InLedger plan l s ∧ ∀ i ∉ js, (s.slots i).state = .done
  have hI : ∀ js s s', ApKeepsDone s s' → I js s → I js s' := fun js s s' hs h =>
    ⟨h.1.seen hs, fun i hi => hs.done i (h.2 i hi)⟩
  refine (Triple.allOf (I := I) (fun s h => ?_) (fun j js => ?_) allSlots).pre
    fun s h => ⟨h, fun i hi => absurd (mem_allSlots i) hi⟩
  · have hdone : ∀ i, (s.slots i).state = .done := fun i => h.2 i List.not_mem_nil
    refine ⟨h.1.entries, fun _ => ⟨⟨hcount, fun c hc => ?_⟩, fun i => ?_⟩, fun _ _ _ => rfl⟩
    · by_cases hn : c.n = s.log.latest c.i
      · exact (h.1.kept c hc hn (by simp)).2.1 (hdone c.i)
      · exact h.1.replaced c hc (Or.inl hn)
    · by_contra hno
      rcases h.1.idle i hno (by simp) with he | he <;>
      · rw [hdone i] at he
        cases he
  · refine .load (hE.stable (hI _)) (fun s _ => hE.guar s s) fun s _ h => ?_
    split
    · rename_i hj
      refine ⟨h.1, fun i hi => ?_⟩
      by_cases hij : i = j
      · rw [hij]
        simpa using hj
      · exact h.2 i (by simp [hij, hi])
    · rename_i hj
      refine ⟨h.1.entries, nofun, fun hlen hact hall => ?_⟩
      -- the slot that is not `DONE` was used, and its last request came back
      obtain ⟨c, hc, hn, rfl⟩ := h.1.returned j (hact j) (h.1.used j hlen)
      exact absurd ((h.1.kept c hc hn (by simp)).2.2 (hall.done c hc)) (by simpa using hj)

/-- What the second walk asserts between two pieces of the BSP's code. -/
def ledgerCut : BspPc → Machine → Prop
  | .streamLoop plan l, s => InLedger plan l s
  | .streamReturned plan l result, s => Verdict plan l result s
  | .next, _ | .pingLoop _, _ => True

theorem streamEpilogue_ledger (hE : LedgerEnv E) :
    Triple E (InLedger plan l) (streamEpilogue b plan l) ledgerCut := by
  refine .bind (Triple.foldOver (I := fun _ l => InLedger plan l)
    (fun i is l => finishTimedOutSlot_ledger hE) _ _) fun l' => ?_
  refine .bind (R := Verdict plan l') ?_ fun result => .ret fun s h => h
  refine .cond (fun hcount => apRequestAllDone_ledger hE hcount) fun hne => .ret fun s h => ?_
  exact ⟨h.entries, nofun, fun _ _ hall => absurd hall.completedCount hne⟩

theorem streamDecide_ledger (hE : LedgerEnv E) :
    Triple E (InLedger plan l) (streamDecide b plan l) ledgerCut := by
  refine .cond (fun _ => streamEpilogue_ledger hE) fun _ => .cond (fun _ => ?_) fun _ => ?_
  · refine .bind (hE.confined (W := fun _ => False) (fun _ => False.elim) ?_) fun more => ?_
    · exact Confined.reads (Reading.apRequestStreamHasFinishedSlot l)
    refine .cond (fun _ => .ret fun s h => h) fun _ => ?_
    exact .cond (fun _ => streamEpilogue_ledger hE) fun _ => .ret fun s h => h.locals rfl rfl
  · refine .cond (fun _ => streamEpilogue_ledger hE) fun _ => ?_
    exact .bind .any fun timer => .ret fun s h => Ledger.locals h rfl rfl

theorem streamRound_ledger (hE : LedgerEnv E) :
    Triple E (InLedger plan l) (streamRound b plan l) ledgerCut := by
  have hstop : ∀ l : StreamLocals, Triple E (InLedger plan l) (stopApRequestStream l)
      fun _ => InLedger plan l := fun l => hE.confined (fun _ => Or.inl) (Confined.stop l)
  refine .bind (hE.confined (W := fun _ => False) (fun _ => False.elim)
    (Confined.reads Reading.apRequestStreamShouldStop)) fun stop => ?_
  refine Triple.pre (H := InLedger plan { l with stopped := l.stopped || stop }) ?_
    fun s h => h.locals rfl rfl
  refine .bind (R := fun _ => InLedger plan { l with stopped := l.stopped || stop }) ?_ fun _ => ?_
  · exact .cond (fun _ => hstop _) fun _ => .ret fun s h => h
  refine .bind (R := fun l' => InLedger plan l') ?_ fun l' => ?_
  · exact Triple.foldOver (I := fun _ l => InLedger plan l) (fun i is l => visitSlot_ledger hE) _ _
  refine .bind (R := fun _ => InLedger plan l') ?_ fun _ => streamDecide_ledger hE
  exact .cond (fun _ => hstop _) fun _ => .ret fun s h => h

/-! ## The start -/

/-- The stream has begun and published nothing. The slots of `W` have been reset. -/
structure Opened (W : SlotIndex → Prop) (s : Machine) : Prop where
  base : s.log.streamBase = s.log.publications
  completions : s.log.completions = []
  unused : ∀ i, ¬ Used i s.log
  reset : ∀ i, W i → (s.slots i).state = .empty ∨ (s.slots i).state = .fault

theorem Opened.mono {W' : SlotIndex → Prop} {s s' : Machine} (h : Opened W s)
    (hlog : s.log.SameStream s'.log)
    (hreset : ∀ i, W' i → (s'.slots i).state = .empty ∨ (s'.slots i).state = .fault) : Opened W' s' where
  base := by rw [hlog.streamBase, hlog.publications]; exact h.base
  completions := hlog.completions.trans h.completions
  unused i hu := h.unused i ((hlog.used i).1 hu)
  reset := hreset

theorem Opened.seen {s s' : Machine} (hs : ApKeepsDone s s') (h : Opened W s) : Opened W s' :=
  h.mono hs.log.toSameStream fun i hi => hs.vacant i (h.reset i hi)

theorem Opened.sameStates {s s' : Machine} (ha : SameStates (fun _ => False) s s') (h : Opened W s) :
    Opened W s' :=
  h.mono ha.log fun i hi => by rw [ha.slot i id]; exact h.reset i hi

/-- The ledger of a stream that has published nothing. -/
theorem Opened.ledger {s : Machine} (h : Opened (fun _ => True) s) (v : UInt32) :
    Ledger (fun _ => False) none 0 { counterBase := v } s := by
  refine ⟨fun _ => False.elim, h.base.le, ?_, ?_, nofun, fun i _ _ => h.reset i trivial, ?_, ?_,
    fun i _ hu => absurd hu (h.unused i), fun m c hm => absurd hm (Nat.not_lt_zero _)⟩
  all_goals simp [h.completions]

/-- A slot is reset. -/
theorem resetApInboxSlot_opened (hE : LedgerEnv E) :
    Triple E (Opened W) (resetApInboxSlot i) fun _ => Opened fun j => j = i ∨ W j := by
  have hkeep : ∀ {q : Prog Machine Unit}, Confined (fun _ => False) q →
      Triple E (Opened fun j => j = i ∨ W j) q fun _ => Opened fun j => j = i ∨ W j := fun hq =>
    hE.keep (fun _ _ => Opened.seen) (fun _ _ ha h => h.sameStates ha.toSameStates) hq
  refine .bind (R := fun _ => Opened fun j => j = i ∨ W j) ?_ fun _ => hkeep (Confined.outbox _)
  refine .bind (R := fun _ => Opened fun j => j = i ∨ W j) ?_ fun _ => ?_
  · refine .store (hE.stable fun _ _ => Opened.seen) fun s _ _ h => ⟨hE.guar _ _, ?_⟩
    refine h.mono (.refl _) fun j hj => ?_
    by_cases hji : j = i
    · subst hji
      exact Or.inl (by simp [SlotStore.apply])
    · simpa [hji] using h.reset j (hj.resolve_left hji)
  · refine hkeep (Prog.Within.forEach_mem fun w hw => Prog.Within.store fun s => OnlyIn.field ?_)
    exact SlotStore.apply_state_of_isField (resetApRequestSlotFields_isField w hw) _

/-- A store that touches neither the log nor the slots. -/
theorem store_opened (hE : LedgerEnv E) {f : Machine → Machine} (hl : ∀ s, (f s).log = s.log)
    (hs : ∀ s, (f s).slots = s.slots) : Triple E (Opened W) (.store f) fun _ => Opened W :=
  .store (hE.stable fun _ _ => Opened.seen) fun s _ _ h => ⟨hE.guar _ _,
    h.sameStates ⟨by rw [hl]; exact .refl _, fun _ _ => by rw [hs]⟩⟩

theorem resetApRequestHistory_opened (hE : LedgerEnv E) :
    Triple E (Opened W) resetApRequestHistory fun _ => Opened W := by
  refine .forEach_keep fun m _ => ?_
  refine .bind (.forEach_keep fun w _ => store_opened hE (fun _ => rfl) fun _ => rfl) fun _ => ?_
  iterate 2 refine .bind (store_opened hE (fun _ => rfl) fun _ => rfl) fun _ => ?_
  exact store_opened hE (fun _ => rfl) fun _ => rfl

theorem resetApQueueSummary_opened (hE : LedgerEnv E) :
    Triple E (Opened W) resetApQueueSummary fun _ => Opened W := by
  unfold resetApQueueSummary
  iterate 5 refine .bind (store_opened hE (fun _ => rfl) fun _ => rfl) fun _ => ?_
  exact store_opened hE (fun _ => rfl) fun _ => rfl

/-- The publications of the first pass. They use every slot, unless the plan runs out. -/
theorem firstPublications_ledger (hE : LedgerEnv E) (v : UInt32) :
    Triple E (Ledger (fun _ => False) none 0 { counterBase := v })
      (.foldOver allSlots { counterBase := v } (publishNext b plan)) fun l => InLedger plan l := by
  let U (js : List SlotIndex) (i : SlotIndex) : Prop := apRequestSlotCount ≤ plan.length ∧ i ∉ js
  let Left (js : List SlotIndex) (l : StreamLocals) : Prop := js.Nodup ∧
    l.nextPlan + js.length ≤ apRequestSlotCount ∧ (∀ j ∈ js, l.active j = false) ∧ l.completedCount = 0
  let I (js : List SlotIndex) (l : StreamLocals) (s : Machine) : Prop :=
    Left js l ∧ Ledger (U js) none l.completedCount l s
  refine (Triple.foldOver (I := I) (fun j js l => ?_) allSlots _).conseq (fun s h => ?_) fun l s h => ?_
  · refine Triple.lift fun ⟨hnodup, hlen, hact, hcount⟩ => ?_
    obtain ⟨hj, hjs⟩ := List.nodup_cons.1 hnodup
    rw [List.length_cons] at hlen
    have hnew : ∀ i, U js i → U (j :: js) i ∨ i = j := by
      rintro i ⟨hplan, hi⟩
      by_cases hij : i = j
      · exact Or.inr hij
      · exact Or.inl ⟨hplan, by simp [hij, hi]⟩
    have hout : plan.length ≤ l.nextPlan → ∀ i, U js i → U (j :: js) i := fun hle i hi =>
      absurd hi.1 (by omega)
    refine (publishNext_ledger hE hnew hout).conseq (fun s h => ⟨h, hact j (by simp), Or.inr hcount⟩)
      fun l' s ⟨hledger, hcount', hnext, hact'⟩ => ⟨⟨hjs, by omega, fun i hi => ?_, ?_⟩, hledger⟩
    · rw [hact' i fun he => hj (he ▸ hi)]
      exact hact i (by simp [hi])
    · exact hcount'.trans hcount
  · refine ⟨⟨List.nodup_finRange _, by simp [allSlots], fun _ _ => rfl, rfl⟩, { h with used := ?_ }⟩
    exact fun i hi => absurd (mem_allSlots i) hi.2
  · exact { h.2 with used := fun i hi => h.2.used i ⟨hi, List.not_mem_nil⟩ }

/-- The slots are reset one after the other. -/
theorem resetSlots_ledger (hE : LedgerEnv E) (v : UInt32) :
    Triple E (Opened fun _ => False) (.forEach allSlots resetApInboxSlot) fun _ =>
      Ledger (fun _ => False) none 0 { counterBase := v } := by
  refine (Triple.forEach (I := fun js => Opened fun i => i ∉ js) (fun j js => ?_) allSlots).conseq
    (fun s h => h.mono (.refl _) fun i hi => absurd (mem_allSlots i) hi) fun _ s h => ?_
  · refine (resetApInboxSlot_opened hE).post fun _ s h => h.mono (.refl _) fun i hi => h.reset i ?_
    by_cases hij : i = j
    · exact Or.inl hij
    · exact Or.inr (by simp [hij, hi])
  · exact (h.mono (.refl _) fun i _ => h.reset i List.not_mem_nil).ledger v

theorem runApRequestStream_ledger (hE : LedgerEnv E) :
    Triple E (fun _ => True) (runApRequestStream b plan) ledgerCut := by
  have hkeep : ∀ {α : Type} {q : Prog Machine α} (v : UInt32), Confined (fun _ => False) q →
      Triple E (Ledger (fun _ => False) none 0 { counterBase := v }) q
        fun _ => Ledger (fun _ => False) none 0 { counterBase := v } := fun v hq =>
    hE.confined (fun _ => False.elim) hq
  refine .bind (R := fun _ => Opened fun _ => False) ?_ fun v => ?_
  · refine .swap .true fun s hs _ _ => ⟨hE.guar _ _, rfl, rfl, fun i hu => ?_, fun _ => False.elim⟩
    have hle : s.log.latest i ≤ s.log.publications := (hE.inv s hs).latest_le i
    have hlt : s.log.publications < s.log.latest i := hu
    omega
  refine .bind (resetApQueueSummary_opened hE) fun _ => ?_
  refine .bind (resetApRequestHistory_opened hE) fun _ => ?_
  refine .bind (store_opened hE (fun _ => rfl) fun _ => rfl) fun _ => ?_
  refine .bind (resetSlots_ledger hE v) fun _ => ?_
  refine .bind (hkeep v (Confined.reads Reading.apRequestStreamShouldStop)) fun stop => ?_
  refine .cond (fun _ => ?_) fun _ => .bind (firstPublications_ledger hE v) fun l => .ret fun s h => h
  refine .bind (hkeep v (Confined.load _)) fun st => ?_
  refine .bind (hkeep v (Confined.store (fun _ => rfl) (fun _ => rfl) fun _ => rfl)) fun _ => ?_
  refine .ret fun s h => ⟨?_, nofun, fun hlen _ hall => absurd hall.completedCount ?_⟩
  · exact Ledger.entries (l := ({ counterBase := v } : StreamLocals)) h
  · have : apRequestSlotCount = 4 := rfl
    simp only
    omega

/-- Code that ends outside of a stream. -/
theorem offStream_ledger (hE : LedgerEnv E) {p : Prog Machine BspPc} (he : p.Ends BspPc.offStream) :
    Triple E P p ledgerCut := by
  intro s _
  refine wp_mono (fun pc s hpc => ?_) p s (wp_ends p s he (wp_of_within (Q := fun _ _ => True)
    (fun s s' _ => hE.guar s s') (fun _ _ => trivial) p s (Prog.Within.top p)))
  cases pc with
  | streamLoop | streamReturned => exact hpc.1.elim
  | next | pingLoop => trivial

/-- **The stream keeps its ledger.** -/
theorem bspBody_ledger (hE : LedgerEnv E) (pc : BspPc) (p : Prog Machine BspPc)
    (hp : bspBody b true pc = some p) : Triple E (ledgerCut pc) p ledgerCut := by
  cases pc with
  | next =>
    obtain rfl := Option.some.inj hp
    refine .bind .any fun call => ?_
    cases call with
    | ping isTarget =>
      exact offStream_ledger hE (runApBroadcastPing_offStream b isTarget)
    | stream plan => exact runApRequestStream_ledger hE
  | streamLoop plan l =>
    obtain rfl := Option.some.inj hp
    exact streamRound_ledger hE
  | streamReturned plan l result =>
    obtain rfl := Option.some.inj hp
    exact .ret fun _ _ => trivial
  | pingLoop l =>
    obtain rfl := Option.some.inj hp
    exact offStream_ledger hE (pingRound_offStream b l)

end Walk

end VibeKernel

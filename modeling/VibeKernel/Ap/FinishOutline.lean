import VibeKernel.Ap.PublishOutline

/-!
# Taking a request back

`finish_ap_stream_slot` reads the state of a slot, and if the request is finished it counts the
request and copies the slot into the history. The AP may still write to the slot while it is copied,
unless the start was calm.
-/

namespace VibeKernel

open Conc

section Walk

variable {b : Build} {k : Know} {c0 : UInt32} {E : Env Machine}
variable {P F : Machine → Prop} {i : SlotIndex} {plan : List ApRequestPlan} {l : StreamLocals}
variable {hist : Nat} {c : Log.Completion}

/-- The books between two stores to the history. -/
abbrev Books (b : Build) (k : Know) (plan : List ApRequestPlan) (l : StreamLocals) (s : Machine) :
    Prop :=
  Tally b k plan none l.completedCount l s

/-- Completion `c` is the latest one, and its slot has not been used again. -/
structure Taken (b : Build) (k : Know) (plan : List ApRequestPlan) (hist : Nat) (l : StreamLocals)
    (c : Log.Completion) (F : Machine → Prop) (s : Machine) : Prop where
  tally : Tally b k plan none hist l s
  last : s.log.completions[hist]? = some c
  latest : c.n = s.log.latest c.i
  finished : (s.slots c.i).state.finished = true
  request : (s.slots c.i).request = c.slot.request
  frame : F s

theorem Taken.slot {s : Machine} (h : Taken b k plan hist l c F s) (hk : k.calm) :
    s.slots c.i = c.slot :=
  h.tally.kept hk c (List.mem_of_getElem? h.last) h.latest (by simp)

theorem Taken.seen (hF : Coarse k F) {s s' : Machine} (hs : ApSeen k s s')
    (h : Taken b k plan hist l c F s) : Taken b k plan hist l c F s' where
  tally := h.tally.seen hs
  last := by rw [hs.log.completions]; exact h.last
  latest := by rw [hs.log.latest]; exact h.latest
  finished := hs.finished c.i h.finished
  request := (hs.request c.i).trans h.request
  frame := hF.seen s s' hs h.frame

theorem Taken.setHistory (hF : Coarse k F) {s : Machine} (h : Taken b k plan hist l c F s)
    {m : Fin apRequestHistoryCount} (hm : m.val = hist)
    {f : ApRequestHistoryEntry → ApRequestHistoryEntry}
    (hv : (f (s.history m)).valid = (s.history m).valid) :
    Taken b k plan hist l c F (s.setHistory m f) :=
  ⟨h.tally.setHistory hm hv, h.last, h.latest, h.finished, h.request,
    hF.mono s _ (fun _ => rfl) rfl rfl h.frame⟩

/-! ## Counting -/

/-- A read of the slot just taken back. -/
theorem Taken.read {α : Type} (hE : BspEnv b k c0 E) (hF : Coarse k F) (f : ApRequestSlot → α) :
    Triple E (Taken b k plan hist l c F) (.load fun s => f (s.slots c.i)) fun a s =>
      (k.calm → a = f c.slot) ∧ Taken b k plan hist l c F s :=
  .load (hE.stable fun _ _ => Taken.seen hF) hE.refl fun s _ hp =>
    ⟨fun hk => by rw [hp.slot hk], hp⟩

/-- `record_ap_stream_slot` counts what the slot says, if the slot stands still. -/
theorem countsAsIncrement_triple (hE : BspEnv b k c0 E) (hF : Coarse k F) :
    Triple E (Taken b k plan hist l c F) (countsAsIncrement c.i) fun counts s =>
      (k.calm → counts = c.counted) ∧ Taken b k plan hist l c F s := by
  refine .bind (Taken.read hE hF fun slot => apRequestIsCounterIncrement slot.request) fun a =>
    Triple.lift fun ha => .cond (fun hinc => ?_) fun hinc => .ret fun s hp => ⟨fun hk => ?_, hp⟩
  · refine .bind (Taken.read hE hF (·.state)) fun st =>
      Triple.lift fun hst => .cond (fun hdone => ?_) fun hdone => .ret fun s hp => ⟨fun hk => ?_, hp⟩
    · refine .bind (Taken.read hE hF (·.reply.faultCode)) fun fc =>
        Triple.lift fun hfc => .ret fun s hp => ⟨fun hk => ?_, hp⟩
      have h1 := ha hk
      have h2 := hst hk
      have h3 := hfc hk
      simp [Log.Completion.counted, ← h1, ← h2, ← h3, hinc, hdone]
    · have h2 := hst hk
      simp [Log.Completion.counted, ← h2, hdone]
  · have h1 := ha hk
    simp [Log.Completion.counted, ← h1, hinc]

/-! ## The history entry -/

/-- The copy of the slot into entry `m`, with `cs` still to do. The copies to come decide the
header, so it can be stated from the start. -/
structure Copying (b : Build) (k : Know) (plan : List ApRequestPlan) (l : StreamLocals)
    (c : Log.Completion) (F : Machine → Prop) (m : Fin apRequestHistoryCount) (cs : List SlotCopy)
    (s : Machine) : Prop where
  fields : ∀ copy ∈ cs, copy.IsField
  taken : Taken b k plan m.val l c F s
  state : (s.history m).request.state.finished = true
  request : (copyAfter cs c.slot (s.history m).request).request = c.slot.request
  exact : k.calm → copyAfter cs c.slot (s.history m).request = c.slot

theorem Copying.seen (hF : Coarse k F) {m : Fin apRequestHistoryCount} {cs : List SlotCopy}
    {s s' : Machine} (hs : ApSeen k s s') (h : Copying b k plan l c F m cs s) :
    Copying b k plan l c F m cs s' where
  fields := h.fields
  taken := h.taken.seen hF hs
  state := by rw [hs.history]; exact h.state
  request := by rw [hs.history]; exact h.request
  exact := by rw [hs.history]; exact h.exact

/-- A store to the history entry being written. -/
theorem store_entry (hE : BspEnv b k c0 E) {P Q : Machine → Prop}
    (hP : ∀ s s', ApSeen k s s' → P s → P s') (m : Fin apRequestHistoryCount)
    (f : Machine → ApRequestHistoryEntry → ApRequestHistoryEntry)
    (hQ : ∀ s, P s → Q (s.setHistory m (f s))) :
    Triple E P (.store fun s => s.setHistory m (f s)) fun _ => Q :=
  .store (hE.stable hP) fun s hs _ hp => ⟨hE.guar _ _ hs
    (.own ⟨rfl, rfl, rfl, rfl, rfl, rfl, rfl, rfl, rfl⟩), hQ s hp⟩

theorem copySlot_triple (hE : BspEnv b k c0 E) (hF : Coarse k F) (m : Fin apRequestHistoryCount) :
    Triple E (Taken b k plan m.val l c F)
      (.forEach copyApRequestSlot fun copy => .store fun s =>
        s.setHistory m fun e => { e with request := copy (s.slots c.i) e.request })
      fun _ => Copying b k plan l c F m [] := by
  refine .bind (R := fun _ => Copying b k plan l c F m copyApRequestSlotFields) ?_ fun _ =>
    Triple.forEach (I := Copying b k plan l c F m) (fun copy cs => ?_) _
  · refine store_entry hE (fun _ _ => Taken.seen hF) m _ fun s hp => ?_
    have hcopy := copyAfter_copyApRequestSlot c.slot (s.history m).request
    refine ⟨copyApRequestSlotFields_isField, hp.setHistory hF rfl rfl, ?_, ?_, fun hk => ?_⟩
    · simpa [Machine.setHistory] using hp.finished
    · rw [← congrArg ApRequestSlot.request hcopy]
      simp only [Machine.setHistory, Function.update_self, copyApRequestSlot, copyAfter_cons]
      exact copyAfter_request copyApRequestSlotFields_isField rfl
    · simp only [Machine.setHistory, Function.update_self, hp.slot hk]
      exact hcopy
  · refine store_entry hE (fun _ _ => Copying.seen hF) m _ fun s hp => ?_
    obtain ⟨hfields, htaken, hstate, hreq, hexact⟩ := hp
    simp only [List.forall_mem_cons] at hfields
    refine ⟨hfields.2, htaken.setHistory hF rfl rfl, ?_, ?_, fun hk => ?_⟩
    · simpa [Machine.setHistory, hfields.1.state] using hstate
    · rw [← hreq, copyAfter_cons]
      simp only [Machine.setHistory, Function.update_self]
      exact copyAfter_request hfields.2 (hfields.1.request htaken.request rfl)
    · have hcalm := hexact hk
      rw [copyAfter_cons] at hcalm
      simp only [Machine.setHistory, Function.update_self, htaken.slot hk]
      exact hcalm

/-- `record_ap_request_history`. -/
theorem recordApRequestHistory_triple (hE : BspEnv b k c0 E) (hF : Coarse k F) {v : UInt32}
    (hv : k.calm → v = if c.counted then l.counterBase + 1 else l.counterBase) :
    Triple E (Taken b k plan hist l c F) (recordApRequestHistory hist c.i v) fun _ s =>
      Tally b k plan none (hist + 1) { l with counterBase := v } s ∧ F s := by
  unfold recordApRequestHistory
  split
  case isTrue h =>
    let m : Fin apRequestHistoryCount := ⟨hist, h⟩
    -- the entry before the stores of its counter, its slot and `valid`
    let Copied (s : Machine) : Prop := Copying b k plan l c F m [] s
    refine .bind (copySlot_triple hE hF m) fun _ => ?_
    refine .bind (R := fun _ s => Copied s ∧ (s.history m).counterValue = v) ?_ fun _ => ?_
    · refine store_entry hE (fun _ _ => Copying.seen hF) m _ fun s hp => ⟨?_, ?_⟩
      · exact ⟨hp.fields, hp.taken.setHistory hF rfl rfl, by simpa [Machine.setHistory] using hp.state,
          by simpa [Machine.setHistory] using hp.request, by simpa [Machine.setHistory] using hp.exact⟩
      · simp [Machine.setHistory]
    refine .bind (R := fun _ s => Copied s ∧ (s.history m).counterValue = v ∧
      (s.history m).slot = c.i.val.toUInt32 + 1) ?_ fun _ => ?_
    · refine store_entry hE (fun s s' hs hp => ⟨hp.1.seen hF hs, by rw [hs.history]; exact hp.2⟩) m _
        fun s hp => ⟨?_, ?_, ?_⟩
      · obtain ⟨hp, -⟩ := hp
        exact ⟨hp.fields, hp.taken.setHistory hF rfl rfl, by simpa [Machine.setHistory] using hp.state,
          by simpa [Machine.setHistory] using hp.request, by simpa [Machine.setHistory] using hp.exact⟩
      · simpa [Machine.setHistory] using hp.2
      · simp [Machine.setHistory]
    · refine store_entry hE (fun s s' hs hp => ⟨hp.1.seen hF hs, by rw [hs.history]; exact hp.2⟩) m _
        fun s hp => ?_
      obtain ⟨hcopied, hval, hslot⟩ := hp
      let e : ApRequestHistoryEntry := { s.history m with valid := true }
      have he : EntryOf k c e := ⟨rfl, hslot, hcopied.request, hcopied.state, hcopied.exact⟩
      have hrec := hcopied.taken.tally.record (m := m) rfl hcopied.taken.last he
        fun hk => hval.trans (hv hk)
      refine ⟨?_, hF.mono s _ (fun _ => rfl) rfl rfl hcopied.taken.frame⟩
      rw [show v = e.counterValue from hval.symm]
      exact hrec
  case isFalse h =>
    refine .ret fun s hp => ⟨hp.tally.overflow ?_ hp.last hv, hp.frame⟩
    exact Nat.le_of_not_lt h

/-- `record_ap_stream_slot`. -/
theorem recordApStreamSlot_triple (hE : BspEnv b k c0 E) (hF : Coarse k F) :
    Triple E (Taken b k plan hist l c F) (recordApStreamSlot hist c.i l.counterBase) fun v s =>
      Tally b k plan none (hist + 1) { l with counterBase := v } s ∧ F s := by
  refine .bind (countsAsIncrement_triple hE hF) fun _ => Triple.lift fun hcounts => ?_
  refine .bind (recordApRequestHistory_triple hE hF fun hk => by rw [hcounts hk]) fun _ => ?_
  exact .ret fun _ hp => hp

/-! ## `finish_ap_stream_slot` -/

/-- The state read tells whether the AP stopped. -/
def StopSeen (k : Know) (st : ApRequestStatus) (s : Machine) : Prop :=
  k.strong → st.finished = true → st ≠ .done → st ≠ .timeout → Down s

theorem StopSeen.coarse {st : ApRequestStatus} : Coarse k (StopSeen k st) where
  seen _ _ hs h hk hf hd ht := (h hk hf hd ht).seen hk hs
  mono s s' _ hp he h hk hf hd ht := by
    rcases h hk hf hd ht with hdown | herr
    · exact Or.inl (by rw [hp]; exact hdown)
    · exact Or.inr (by rw [he]; exact herr)

/-- What `finish_ap_stream_slot` leaves: the slot as it was, or a request taken back that was in
state `st`. -/
def Finished (b : Build) (k : Know) (plan : List ApRequestPlan) (l : StreamLocals) (i : SlotIndex)
    (F : Machine → Prop) (r : StreamLocals × Bool) (s : Machine) : Prop :=
  F s ∧ ((r = (l, false) ∧ Books b k plan l s ∧
      (l.active i = true → ∃ s₀, F s₀ ∧ (s₀.slots i).state.finished = false)) ∨
    ∃ st v, st.finished = true ∧
      r = ({ Tally.afterTake l i with counterBase := v }, st == .done) ∧
      (∃ s₀, F s₀ ∧ (s₀.slots i).state = st) ∧
      Books b k plan r.1 s ∧ StopSeen k st s ∧ (k.calm → (s.slots i).state = st))

theorem Finished.seen (hF : Coarse k F) {r : StreamLocals × Bool} {s s' : Machine}
    (hs : ApSeen k s s') (h : Finished b k plan l i F r s) : Finished b k plan l i F r s' := by
  refine ⟨hF.seen s s' hs h.1, ?_⟩
  rcases h.2 with ⟨hr, hb, hn⟩ | ⟨st, v, hfin, hr, hread, hb, hstop, hst⟩
  · exact Or.inl ⟨hr, hb.seen hs, hn⟩
  · refine Or.inr ⟨st, v, hfin, hr, hread, hb.seen hs, StopSeen.coarse.seen s s' hs hstop,
      fun hk => ?_⟩
    obtain ⟨-, hp, hrun⟩ := ApRequestStatus.finished_iff.1 hfin
    rw [hs.keep hk i (hst hk ▸ hp) (hst hk ▸ hrun)]
    exact hst hk

theorem Finished.note (hF : Coarse k F) {r : StreamLocals × Bool} {s : Machine} {e : Event}
    (he : s.log.SameStream (e :: s.log)) (hp : Log.phase (e :: s.log) = s.log.phase)
    (h : Finished b k plan l i F r s) : Finished b k plan l i F r (s.note e) := by
  refine ⟨hF.mono s _ (fun _ => rfl) hp rfl h.1, ?_⟩
  rcases h.2 with ⟨hr, hb, hn⟩ | ⟨st, v, hfin, hr, hread, hb, hstop, hst⟩
  · exact Or.inl ⟨hr, hb.mark he, hn⟩
  · exact Or.inr ⟨st, v, hfin, hr, hread, hb.mark he,
      StopSeen.coarse.mono s _ (fun _ => rfl) hp rfl hstop, hst⟩

/-- The state of the slot is `st`, or it is finished and so was `st`. -/
def StateRead (k : Know) (i : SlotIndex) (st : ApRequestStatus) (s : Machine) : Prop :=
  st.finished = true → (s.slots i).state.finished = true ∧ (k.calm → (s.slots i).state = st)

theorem StateRead.coarse {st : ApRequestStatus} : Coarse k (StateRead k i st) where
  seen s s' hs h hf := by
    obtain ⟨hfin, hst⟩ := h hf
    refine ⟨hs.finished i hfin, fun hk => ?_⟩
    obtain ⟨-, hp, hr⟩ := ApRequestStatus.finished_iff.1 hfin
    rw [hs.keep hk i hp hr]
    exact hst hk
  mono s s' hst _ _ h hf := by rw [hst]; exact h hf

/-- Slot `i` may be recorded, now and later. -/
def Clear (k : Know) (i : SlotIndex) (s : Machine) : Prop :=
  k.ordered → ClearToRecord i s ∧
    ((s.slots i).state.finished = true ∨ s.log.glanced = some i)

theorem Clear.seen {s s' : Machine} (hs : ApSeen k s s') (h : Clear k i s) : Clear k i s' := by
  intro ho
  obtain ⟨hclear, hfix⟩ := h ho
  have hkeep := hs.keep (k.ordered_calm ho)
  refine ⟨fun hdone j hj hu hdone' => ?_, ?_⟩
  · have hu' : s.log.Unrecorded j := (hs.log.unrecorded j).1 hu
    by_cases hi : (s.slots i).state = .done
    · rw [hs.log.latest, hs.log.latest, hs.runIndex ho i hi]
      by_cases hj' : (s.slots j).state = .done
      · rw [hs.runIndex ho j hj']
        exact hclear hi j hj hu' hj'
      · exact hs.later ho j hdone' hj' i (Ne.symm hj) hi
    · rcases hfix with hfin | hgl
      · obtain ⟨-, hp, hr⟩ := ApRequestStatus.finished_iff.1 hfin
        rw [hkeep i hp hr] at hdone
        exact absurd hdone hi
      · exact absurd hdone' (hs.unseen ho i hdone hi hgl j hj hu')
  · rcases hfix with hfin | hgl
    · exact Or.inl (hs.finished i hfin)
    · exact Or.inr (by rw [hs.log.glanced]; exact hgl)

/-- The note of the second read. -/
theorem Tally.inspected {busy : Option SlotIndex} {s : Machine} (h : Tally b k plan busy hist l s)
    (st : ApRequestStatus) : Tally b k plan busy hist l (s.note (.inspected i st)) :=
  h.mark ⟨rfl, rfl, fun _ => rfl, rfl, rfl, rfl, rfl⟩

/-- What the read of the state of an active slot leaves. -/
structure Inspected (b : Build) (k : Know) (plan : List ApRequestPlan) (l : StreamLocals)
    (i : SlotIndex) (F : Machine → Prop) (st : ApRequestStatus) (s : Machine) : Prop where
  books : Books b k plan l s
  frame : F s
  stop : StopSeen k st s
  state : StateRead k i st s
  clear : st.finished = true → Clear k i s

theorem Inspected.seen (hF : Coarse k F) {st : ApRequestStatus} {s s' : Machine}
    (hs : ApSeen k s s') (h : Inspected b k plan l i F st s) : Inspected b k plan l i F st s' :=
  ⟨h.books.seen hs, hF.seen s s' hs h.frame, StopSeen.coarse.seen s s' hs h.stop,
    StateRead.coarse.seen s s' hs h.state, fun hf => (h.clear hf).seen hs⟩

/-- The read of the state in `finish_ap_stream_slot`. -/
theorem inspect_triple (hE : BspEnv b k c0 E) (hF : Coarse k F) (ha : l.active i = true) :
    Triple E (fun s => Books b k plan l s ∧ F s ∧ Clear k i s)
      (.swap fun s => ((s.slots i).state, s.note (.inspected i (s.slots i).state)))
      fun st s => (∃ s₀, F s₀ ∧ (s₀.slots i).state = st) ∧ Inspected b k plan l i F st s := by
  refine .swap (hE.stable fun s s' hs h => ⟨h.1.seen hs, hF.seen s s' hs h.2.1, h.2.2.seen hs⟩)
    fun s hs _ hp => ?_
  obtain ⟨hbooks, hf, hclear⟩ := hp
  refine ⟨hE.guar _ _ hs (.mark _ rfl), ⟨s, hf, rfl⟩, hbooks.inspected _,
    hF.mono s _ (fun _ => rfl) rfl rfl hf, fun hk hfin hd ht => ?_, fun hfin => ⟨hfin, fun _ => rfl⟩,
    fun hfin ho => ⟨(hclear ho).1, Or.inl hfin⟩⟩
  have hlast : s.log.latest i ≠ 0 := by
    have := (hbooks.unrecorded i ha).1
    omega
  refine ((hE.inv s hs hk).slot i).stopped hlast ?_
  revert hfin hd ht
  cases (s.slots i).state <;> simp [ApRequestStatus.finished, ApRequestStatus.terminal]

/-- The store of `wait_loops`, with which the request is taken back. -/
theorem finishStore_triple (hE : BspEnv b k c0 E) (hF : Coarse k F) (ha : l.active i = true)
    {st : ApRequestStatus} (hfin : st.finished = true) (w : UInt32) :
    Triple E (Inspected b k plan l i F st) (.store (finishStore i w)) fun _ s => ∃ c, c.i = i ∧
      Taken b k plan l.completedCount (Tally.afterTake l i) c
        (fun s => F s ∧ StopSeen k st s ∧ StateRead k i st s) s := by
  refine .store (hE.stable fun _ _ => Inspected.seen hF) fun s hs _ hp => ⟨?_, ?_⟩
  · refine hE.guar _ _ hs (.finish i w (hp.state hfin).1 (hp.books.unrecorded i ha) ?_)
    exact fun ho => (hp.clear hfin ho).1
  · have hstate : ∀ j, ((finishStore i w s).slots j).state = (s.slots j).state := by
      intro j
      by_cases hj : j = i
      · subst hj
        simp [finishStore]
      · simp [finishStore, hj]
    refine ⟨Tally.completionOf i w s, rfl, hp.books.finish ha (hp.state hfin).1 w, ?_, rfl, ?_, ?_,
      hF.mono s _ hstate rfl rfl hp.frame, StopSeen.coarse.mono s _ hstate rfl rfl hp.stop,
      StateRead.coarse.mono s _ hstate rfl rfl hp.state⟩
    · rw [Tally.completions_finishStore, ← hp.books.completed]
      simp
    · rw [hstate]
      exact (hp.state hfin).1
    · simp [finishStore]

/-- **`finish_ap_stream_slot`.** -/
theorem finishApStreamSlot_triple (hE : BspEnv b k c0 E) (hF : Coarse k F) (ha : l.active i = true)
    (w : UInt32) :
    Triple E (fun s => Books b k plan l s ∧ F s ∧ Clear k i s)
      (finishApStreamSlot l i w) (Finished b k plan l i F) := by
  refine .bind (inspect_triple hE hF ha) fun st => Triple.lift fun hread =>
    .cond (fun hst => .ret fun s hp => ?_) fun hst => ?_
  · have hfin : st.finished = false := by simpa [ha] using hst
    obtain ⟨s₀, hf, hs₀⟩ := hread
    exact ⟨hp.frame, Or.inl ⟨rfl, hp.books, fun _ => ⟨s₀, hf, hs₀ ▸ hfin⟩⟩⟩
  · have hfin : st.finished = true := by simpa [ha] using hst
    have hG : Coarse k fun s => F s ∧ StopSeen k st s ∧ StateRead k i st s :=
      hF.and (StopSeen.coarse.and StateRead.coarse)
    refine .bind (finishStore_triple hE hF ha hfin w) fun _ => Triple.exists fun c =>
      Triple.lift fun hc => ?_
    subst hc
    refine .bind (recordApStreamSlot_triple hE hG) fun v => .ret fun s hp => ?_
    obtain ⟨htally, hf, hstop, hstate⟩ := hp
    exact ⟨hf, Or.inr ⟨st, _, hfin, rfl, hread, htally, hstop, (hstate hfin).2⟩⟩

end Walk

end VibeKernel

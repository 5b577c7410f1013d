import VibeKernel.Conc.SecondWalk
import VibeKernel.Ap.Account
import VibeKernel.Ap.Done

/-!
# The ledger of a stream

Which of the requests a stream took back were `DONE`, and what the slots and the history still show
of them. `Ledger` is the assertion of a second walk through `run_ap_request_stream`: the first walk
already counts the requests, and all that is added is how they ended.

A slot is published again only after its last request came back `DONE`, so a request that a slot no
longer shows was `DONE`.
-/

namespace VibeKernel

open Conc

/-! ## What changes nothing in the ledger -/

/-- One access of the AP: it takes no slot out of `DONE`, and no finished slot into it. -/
structure ApKeepsDone (s s' : Machine) : Prop extends ApTouch s s' where
  done : ∀ i, (s.slots i).state = .done → (s'.slots i).state = .done
  undone : ∀ i, (s.slots i).state.finished = true → (s'.slots i).state = .done →
    (s.slots i).state = .done

theorem ApAct.keepsDone {b : Build} {c0 : UInt32} {s s' : Machine} (hm : MachineInv b c0 s)
    (ha : ApAct b c0 s s') : ApKeepsDone s s' where
  toApTouch := ha.touch
  done i hd := by rw [ha.slots_of_done hm hd]; exact hd
  undone i hf hd := by
    by_contra hne
    exact ha.not_done hf hne hd

/-- What the stream published and took back is as before, and so are the states of the slots
outside of `W`. -/
structure SameStates (W : SlotIndex → Prop) (s s' : Machine) : Prop where
  log : s.log.SameStream s'.log
  slot : ∀ i, ¬ W i → (s'.slots i).state = (s.slots i).state

/-- An access of the BSP that changes the states of no slots but those of `W`, and no state in the
history. -/
structure OnlyIn (W : SlotIndex → Prop) (s s' : Machine) : Prop extends SameStates W s s' where
  entry : ∀ m, (s'.history m).request.state = (s.history m).request.state

theorem OnlyIn.refl (W : SlotIndex → Prop) (s : Machine) : OnlyIn W s s :=
  ⟨⟨.refl _, fun _ _ => rfl⟩, fun _ => rfl⟩

/-- A change of a slot of `W`. -/
theorem OnlyIn.setSlot {W : SlotIndex → Prop} {i : SlotIndex} (hi : W i) (s : Machine)
    (f : ApRequestSlot → ApRequestSlot) : OnlyIn W s (s.setSlot i f) := by
  refine ⟨⟨.refl _, fun j hj => ?_⟩, fun _ => rfl⟩
  have hji : j ≠ i := fun he => hj (he ▸ hi)
  simp [hji]

/-- A change of a slot that leaves its state alone. -/
theorem OnlyIn.field {W : SlotIndex → Prop} {i : SlotIndex} {s : Machine}
    {f : ApRequestSlot → ApRequestSlot} (hf : (f (s.slots i)).state = (s.slots i).state) :
    OnlyIn W s (s.setSlot i f) :=
  ⟨⟨.refl _, fun j _ => state_setSlot hf j⟩, fun _ => rfl⟩

/-- A change of a history entry that leaves its state alone. -/
theorem OnlyIn.setHistory {W : SlotIndex → Prop} {s : Machine} {m : Fin apRequestHistoryCount}
    {f : ApRequestHistoryEntry → ApRequestHistoryEntry}
    (hf : (f (s.history m)).request.state = (s.history m).request.state) :
    OnlyIn W s (s.setHistory m f) := by
  refine ⟨⟨.refl _, fun _ _ => rfl⟩, fun k => ?_⟩
  by_cases hk : k = m
  · subst hk
    simpa [Machine.setHistory] using hf
  · simp [Machine.setHistory, hk]

/-! ## The ledger -/

/-- The stream published a request in slot `i`. -/
def Used (i : SlotIndex) (l : Log) : Prop := l.streamBase < l.latest i

theorem Log.SameStream.used {l l' : Log} (h : l.SameStream l') (i : SlotIndex) :
    Used i l' ↔ Used i l := by
  simp [Used, h.streamBase, h.latest]

/-- How the requests ended that the stream took back. The slots of `U` have been used, `busy` is the
slot being published, and the first `hist` completions are in the history. -/
structure Ledger (U : SlotIndex → Prop) (busy : Option SlotIndex) (hist : Nat) (l : StreamLocals)
    (s : Machine) : Prop where
  used : ∀ i, U i → Used i s.log
  base : s.log.streamBase ≤ s.log.publications
  bounded : ∀ c ∈ s.log.completions, c.n ≤ s.log.publications
  completed : s.log.completions.length = l.completedCount
  unrecorded : ∀ i, l.active i = true → s.log.Unrecorded i
  idle : ∀ i, ¬ Used i s.log → busy ≠ some i → (s.slots i).state = .empty ∨ (s.slots i).state = .fault
  kept : ∀ c ∈ s.log.completions, c.n = s.log.latest c.i → busy ≠ some c.i →
    (s.slots c.i).state.finished = true ∧ ((s.slots c.i).state = .done ↔ c.slot.state = .done)
  replaced : ∀ c ∈ s.log.completions, c.n ≠ s.log.latest c.i ∨ busy = some c.i → c.slot.state = .done
  returned : ∀ i, l.active i = false → Used i s.log →
    ∃ c ∈ s.log.completions, c.n = s.log.latest i ∧ c.i = i
  history : ∀ (m : Fin apRequestHistoryCount) (c : Log.Completion), m.val < hist →
    s.log.completions[m.val]? = some c → ((s.history m).request.state = .done ↔ c.slot.state = .done)

namespace Ledger

variable {U : SlotIndex → Prop} {busy : Option SlotIndex} {hist : Nat} {l l' : StreamLocals}
variable {s s' : Machine} {i : SlotIndex}

/-- The ledger does not depend on the other locals. -/
theorem locals (h : Ledger U busy hist l s) (ha : l'.active = l.active)
    (hc : l'.completedCount = l.completedCount) : Ledger U busy hist l' s :=
  { h with
    completed := hc ▸ h.completed
    unrecorded := ha ▸ h.unrecorded
    returned := ha ▸ h.returned }

/-- What the ledger depends on. -/
theorem mono (h : Ledger U busy hist l s) (hlog : s.log.SameStream s'.log)
    (hidle : ∀ i, ¬ Used i s.log → busy ≠ some i →
      (s'.slots i).state = .empty ∨ (s'.slots i).state = .fault)
    (hkept : ∀ c ∈ s.log.completions, c.n = s.log.latest c.i → busy ≠ some c.i →
      (s'.slots c.i).state.finished = true ∧ ((s'.slots c.i).state = .done ↔ c.slot.state = .done))
    (hhist : ∀ m, (s'.history m).request.state = (s.history m).request.state) :
    Ledger U busy hist l s' where
  used i hi := (hlog.used i).2 (h.used i hi)
  base := by rw [hlog.streamBase, hlog.publications]; exact h.base
  bounded := by rw [hlog.completions, hlog.publications]; exact h.bounded
  completed := by rw [hlog.completions]; exact h.completed
  unrecorded i hi := (hlog.unrecorded i).2 (h.unrecorded i hi)
  idle i hi := hidle i fun hu => hi ((hlog.used i).2 hu)
  kept := by simpa only [hlog.completions, hlog.latest] using hkept
  replaced := by simpa only [hlog.completions, hlog.latest] using h.replaced
  returned i hi hu := by
    rw [hlog.completions, hlog.latest]
    exact h.returned i hi ((hlog.used i).1 hu)
  history m c hm hc := by
    rw [hlog.completions] at hc
    rw [hhist]
    exact h.history m c hm hc

/-- The AP does not touch the ledger. -/
theorem seen (hs : ApKeepsDone s s') (h : Ledger U busy hist l s) : Ledger U busy hist l s' := by
  refine h.mono hs.log.toSameStream (fun i hi hb => hs.vacant i (h.idle i hi hb)) (fun c hc hn hb => ?_)
    fun m => by rw [hs.history]
  obtain ⟨hfin, hdone⟩ := h.kept c hc hn hb
  exact ⟨hs.finished _ hfin, fun hd => hdone.1 (hs.undone _ hfin hd), fun hd => hs.done _ (hdone.2 hd)⟩

/-- Accesses to the slots that are out, or to the one being published. -/
theorem onlyIn {W : SlotIndex → Prop} (hW : ∀ i, W i → l.active i = true ∨ busy = some i)
    (ha : OnlyIn W s s') (h : Ledger U busy hist l s) : Ledger U busy hist l s' := by
  refine h.mono ha.log (fun i hi hb => ?_) (fun c hc hn hb => ?_) ha.entry
  · have hout : ¬ W i := fun hw => (hW i hw).elim (fun hact => hi (h.unrecorded i hact).1) hb
    rw [ha.slot i hout]
    exact h.idle i hi hb
  · have hout : ¬ W c.i := fun hw => (hW c.i hw).elim
      (fun hact => (h.unrecorded c.i hact).2 c hc hn) hb
    rw [ha.slot c.i hout]
    exact h.kept c hc hn hb

/-- A publication begins. -/
theorem begin (h : Ledger U none hist l s) (hi : (s.slots i).state = .done ∨ l.completedCount = 0) :
    Ledger U (some i) hist l s :=
  { h with
    idle := fun j hj _ => h.idle j hj (by simp)
    kept := fun c hc hn _ => h.kept c hc hn (by simp)
    replaced := fun c hc hn => by
      rcases hi with hi | hi
      · by_cases hl : c.n = s.log.latest c.i
        · have hci : c.i = i := (Option.some.inj (hn.resolve_left fun hne => hne hl)).symm
          exact (h.kept c hc hl (by simp)).2.1 (hci ▸ hi)
        · exact h.replaced c hc (Or.inl hl)
      · rw [List.eq_nil_of_length_eq_zero (h.completed.trans hi)] at hc
        exact absurd hc List.not_mem_nil }

/-- A publication ends. -/
theorem publish {V : SlotIndex → Prop} {p : ApRequestPlan} {st : ApRequestStatus}
    (h : Ledger U (some i) hist l s) (hV : ∀ j, V j → U j ∨ j = i) :
    Ledger V none hist (Tally.afterPublish l i) (publishState i p st s) := by
  have hlast : ∀ j, Log.latest j (publishState i p st s).log
      = if i = j then s.log.publications + 1 else s.log.latest j := fun _ => rfl
  have hbase : (publishState i p st s).log.streamBase = s.log.streamBase := rfl
  have hpub : (publishState i p st s).log.publications = s.log.publications + 1 := rfl
  have hcomp : (publishState i p st s).log.completions = s.log.completions := rfl
  have hused : ∀ j, Used j (publishState i p st s).log ↔ j = i ∨ Used j s.log := by
    intro j
    have := h.base
    unfold Used
    rw [hbase, hlast]
    by_cases hji : i = j
    · rw [if_pos hji]
      exact ⟨fun _ => Or.inl hji.symm, fun _ => by omega⟩
    · rw [if_neg hji]
      exact ⟨Or.inr, fun hu => hu.resolve_left (Ne.symm hji)⟩
  -- what is recorded was published before, so it is not what stands in slot `i` now
  have hold : ∀ c ∈ s.log.completions, c.n = Log.latest c.i (publishState i p st s).log →
      c.i ≠ i ∧ c.n = s.log.latest c.i := by
    intro c hc hn
    have := h.bounded c hc
    rw [hlast] at hn
    by_cases hci : i = c.i
    · rw [if_pos hci] at hn
      omega
    · rw [if_neg hci] at hn
      exact ⟨Ne.symm hci, hn⟩
  have hslot : ∀ j, j ≠ i → (publishState i p st s).slots j = s.slots j := fun j hj => by
    simp [publishState, hj]
  refine ⟨fun j hj => (hused j).2 ((hV j hj).symm.imp_right (h.used j)), ?_, ?_, h.completed, ?_, ?_, ?_, ?_, ?_,
    h.history⟩
  · have := h.base
    rw [hbase, hpub]
    omega
  · intro c hc
    have := h.bounded c hc
    rw [hpub]
    omega
  · intro j hj
    refine ⟨(hused j).2 ?_, fun c hc hn => ?_⟩
    · by_cases hji : j = i
      · exact Or.inl hji
      · exact Or.inr (h.unrecorded j (by simpa [hji] using hj)).1
    · rw [hcomp] at hc
      rw [hlast] at hn
      by_cases hji : i = j
      · have := h.bounded c hc
        rw [if_pos hji] at hn
        omega
      · rw [if_neg hji] at hn
        exact (h.unrecorded j (by simpa [Ne.symm hji] using hj)).2 c hc hn
  · intro j hj _
    have hji : j ≠ i := fun he => hj ((hused j).2 (Or.inl he))
    rw [hslot j hji]
    exact h.idle j (fun hu => hj ((hused j).2 (Or.inr hu))) fun hb => hji (Option.some.inj hb).symm
  · intro c hc hn _
    obtain ⟨hci, hn'⟩ := hold c hc hn
    rw [hslot c.i hci]
    exact h.kept c hc hn' fun hb => hci (Option.some.inj hb).symm
  · intro c hc hn
    refine h.replaced c hc ?_
    by_cases hci : i = c.i
    · exact Or.inr (congrArg some hci)
    · rw [hlast, if_neg hci] at hn
      exact Or.inl (hn.resolve_right (by simp))
  · intro j hj hu
    have hji : j ≠ i := by
      rintro rfl
      simp at hj
    rw [hlast, if_neg (Ne.symm hji)]
    exact h.returned j (by simpa [hji] using hj) (((hused j).1 hu).resolve_left hji)

/-- A request is taken back. -/
theorem finish (h : Ledger U none l.completedCount l s) (hi : l.active i = true)
    (hf : (s.slots i).state.finished = true) (hinv : LogInv s.log) (v : UInt32) :
    Ledger U none l.completedCount (Tally.afterTake l i) (finishStore i v s) := by
  have hc := Tally.completions_finishStore i v s
  have hst : ∀ j, ((finishStore i v s).slots j).state = (s.slots j).state := fun j =>
    state_setSlot (s := s) (f := fun slot => { slot with metrics := { slot.metrics with waitLoops := v } })
      rfl j
  have hsplit : ∀ c ∈ (finishStore i v s).log.completions,
      c ∈ s.log.completions ∨ c = Tally.completionOf i v s := by
    intro c hm
    rw [hc, List.mem_append, List.mem_singleton] at hm
    exact hm
  have hlen := h.completed
  have hact : ∀ j, (Tally.afterTake l i).active j = true → j ≠ i ∧ l.active j = true := by
    intro j hj
    by_cases hji : j = i
    · subst hji
      simp at hj
    · exact ⟨hji, by simpa [hji] using hj⟩
  -- A completion is an old one or the new one of slot `i`, and slot `i` is not out any more.
  refine ⟨h.used, h.base, ?_, ?_, ?_, ?_, ?_, ?_, ?_, ?_⟩
  · intro c hm
    rcases hsplit c hm with hm | rfl
    · exact h.bounded c hm
    · exact hinv.latest_le i
  · rw [hc]
    simp [hlen]
  · intro j hj
    obtain ⟨hji, hj'⟩ := hact j hj
    refine ⟨(h.unrecorded j hj').1, fun c hm hn => ?_⟩
    rcases hsplit c hm with hm | rfl
    · exact (h.unrecorded j hj').2 c hm hn
    · have h0 : s.log.latest j ≠ 0 := by
        have := (h.unrecorded j hj').1
        omega
      exact hji (hinv.latest_inj h0 hn.symm)
  · intro j hj hb
    rw [hst]
    exact h.idle j hj hb
  · intro c hm hn hb
    rw [hst]
    rcases hsplit c hm with hm | rfl
    · exact h.kept c hm hn hb
    · exact ⟨hf, Iff.rfl⟩
  · intro c hm hn
    rcases hsplit c hm with hm | rfl
    · exact h.replaced c hm hn
    · exact absurd rfl (hn.resolve_right (by simp))
  · intro j hj hu
    rw [hc]
    by_cases hji : j = i
    · subst hji
      exact ⟨Tally.completionOf j v s, by simp, rfl, rfl⟩
    · obtain ⟨c, hm, hn⟩ := h.returned j (by simpa [hji] using hj) hu
      exact ⟨c, by simp [hm], hn⟩
  · intro m c hm hget
    rw [hc, List.getElem?_append_left (by omega)] at hget
    exact h.history m c hm hget

/-- The next completion goes into the history. -/
theorem record (h : Ledger U busy hist l s) {m : Fin apRequestHistoryCount} (hm : m.val = hist)
    {c : Log.Completion} (hc : s.log.completions[hist]? = some c)
    {f : ApRequestHistoryEntry → ApRequestHistoryEntry}
    (hf : (f (s.history m)).request.state = .done ↔ c.slot.state = .done) :
    Ledger U busy (hist + 1) l (s.setHistory m f) := by
  refine { h with history := fun m' c' hm' hget => ?_ }
  by_cases hmm : m' = m
  · subst hmm
    rw [hm, show (s.setHistory m' f).log = s.log from rfl, hc] at hget
    cases hget
    simpa [Machine.setHistory] using hf
  · have hne : m'.val ≠ m.val := fun heq => hmm (Fin.ext heq)
    simpa [Machine.setHistory, hmm] using h.history m' c' (by omega) hget

/-- The history is full. -/
theorem overflow (h : Ledger U busy hist l s) (hm : apRequestHistoryCount ≤ hist) :
    Ledger U busy (hist + 1) l s :=
  { h with history := fun m c _ hget => h.history m c (lt_of_lt_of_le m.isLt hm) hget }

end Ledger

end VibeKernel

import VibeKernel.Conc.RelyGuarantee
import VibeKernel.Ap.SlotInvariant

/-!
# The books of a stream

`Tally` is what holds at every access of `run_ap_request_stream`: which requests of the plan are
out, which came back, and what the history says about them. Nothing in it needs the AP to behave
beyond not touching the headers and the history; what a better start offers is under `Know`.
-/

namespace VibeKernel

open Conc

/-! ## What the BSP sees of the AP -/

/-- One access of the AP, wherever it is in its code. -/
structure ApTouch (s s' : Machine) : Prop where
  request : ∀ i, (s'.slots i).request = (s.slots i).request
  history : s'.history = s.history
  error : s'.error = s.error
  log : s.log.SameBsp s'.log
  increments : s.log.increments.length ≤ s'.log.increments.length
  nonempty : ∀ i, (s.slots i).state ≠ .empty → (s'.slots i).state ≠ .empty
  vacant : ∀ i, (s.slots i).state = .empty ∨ (s.slots i).state = .fault →
    (s'.slots i).state = .empty ∨ (s'.slots i).state = .fault
  finished : ∀ i, (s.slots i).state.finished = true → (s'.slots i).state.finished = true
  timeout : ∀ i, (s'.slots i).state = .timeout → (s.slots i).state = .timeout
  pending : ∀ i, (s'.slots i).state = .pending → (s.slots i).state = .pending
  running : ∀ i, (s'.slots i).state = .running →
    (s.slots i).state = .pending ∨ (s.slots i).state = .running

/-- No slot is done just after its first read by a visit while another waits to be recorded. -/
def Unseen (s s' : Machine) : Prop :=
  ∀ j, (s'.slots j).state = .done → (s.slots j).state ≠ .done → s.log.glanced = some j →
    ∀ i ≠ j, s.log.Unrecorded i → (s'.slots i).state ≠ .done

/-- One access of the AP, as the BSP sees it. -/
structure ApSeen (k : Know) (s s' : Machine) : Prop extends ApTouch s s' where
  down : k.strong → s.log.phase.down = true → s'.log.phase.down = true
  stuck : k.strong → s.log.phase.down = true → ∀ i,
    ((s.slots i).state = .pending →
      (s'.slots i).state = .pending ∨ (s'.slots i).state = .fault) ∧
    ((s.slots i).state = .running ∨ (s.slots i).state = .fault ∨ (s.slots i).state = .badOp →
      (s'.slots i).state = .running ∨ (s'.slots i).state = .fault ∨ (s'.slots i).state = .badOp)
  posted : k.strong → s.apState = .faulted →
    s'.apState = .faulted ∧ s'.faultVector = s.faultVector ∧ s'.slots = s.slots
  keep : k.calm → ∀ i, (s.slots i).state ≠ .pending → (s.slots i).state ≠ .running →
    s'.slots i = s.slots i
  waits : k.calm → s.log.phase.down = true → ∀ i, (s.slots i).state = .pending →
    (s'.slots i).state = .pending
  runIndex : k.ordered → ∀ i, (s.slots i).state = .done →
    s'.log.runIndex (s.log.latest i) = s.log.runIndex (s.log.latest i)
  later : k.ordered → ∀ j, (s'.slots j).state = .done → (s.slots j).state ≠ .done →
    ∀ i ≠ j, (s.slots i).state = .done →
      s.log.runIndex (s.log.latest i) < s'.log.runIndex (s.log.latest j)
  unseen : k.ordered → Unseen s s'

/-! ## Counting active slots -/

theorem mem_allSlots (i : SlotIndex) : i ∈ allSlots := List.mem_finRange i

/-- The count, with one slot taken out. -/
theorem activeApRequestSlotCount_eq (active : SlotIndex → Bool) (i : SlotIndex) (x : Bool) :
    activeApRequestSlotCount (Function.update active i x)
      = (allSlots.erase i).countP (fun j => active j) + if x then 1 else 0 := by
  have hperm := List.perm_cons_erase (mem_allSlots i)
  have hrest : (allSlots.erase i).countP (fun j => Function.update active i x j)
      = (allSlots.erase i).countP (fun j => active j) := by
    refine List.countP_congr fun j hj => ?_
    have hne : j ≠ i := (List.Nodup.mem_erase_iff (List.nodup_finRange _)).1 hj |>.1
    simp [hne]
  rw [activeApRequestSlotCount, hperm.countP_eq, List.countP_cons, hrest]
  simp

theorem activeApRequestSlotCount_update_true {active : SlotIndex → Bool} {i : SlotIndex}
    (h : active i = false) :
    activeApRequestSlotCount (Function.update active i true)
      = activeApRequestSlotCount active + 1 := by
  have hsame := activeApRequestSlotCount_eq active i (active i)
  rw [Function.update_eq_self, h] at hsame
  rw [activeApRequestSlotCount_eq, hsame]
  simp

theorem activeApRequestSlotCount_update_false {active : SlotIndex → Bool} {i : SlotIndex}
    (h : active i = true) :
    activeApRequestSlotCount (Function.update active i false) + 1
      = activeApRequestSlotCount active := by
  have hsame := activeApRequestSlotCount_eq active i (active i)
  rw [Function.update_eq_self, h] at hsame
  rw [activeApRequestSlotCount_eq, hsame]
  simp

/-! ## The books -/

/-- Publication `n` is request `m < next` of the plan, and `header` is its header. -/
def Numbered (b : Build) (plan : List ApRequestPlan) (base next n : Nat)
    (header : ApRequestHeader) : Prop :=
  ∃ m p, m < next ∧ plan[m]? = some p ∧ n = base + m + 1 ∧
    header = preparedHeader (b.apContextIndex + 1) p

/-- `record_ap_stream_slot` counts this completion as an increment. -/
def Log.Completion.counted (c : Log.Completion) : Bool :=
  apRequestIsCounterIncrement c.slot.request && c.slot.state == .done
    && c.slot.reply.faultCode == 0

/-- A history entry shows a completion. -/
structure EntryOf (k : Know) (c : Log.Completion) (e : ApRequestHistoryEntry) : Prop where
  valid : e.valid = true
  slot : e.slot = c.i.val.toUInt32 + 1
  request : e.request.request = c.slot.request
  finished : e.request.state.finished = true
  exact : k.calm → e.request = c.slot

/-- The books of a stream. `busy` is the slot being published, and the first `hist` completions
are in the history. -/
structure Tally (b : Build) (k : Know) (plan : List ApRequestPlan) (busy : Option SlotIndex)
    (hist : Nat) (l : StreamLocals) (s : Machine) : Prop where
  began : s.log.began = true
  plans : s.log.streamPlans = plan.take l.nextPlan
  nextPlan_le : l.nextPlan ≤ plan.length
  publications : s.log.publications = s.log.streamBase + l.nextPlan
  completed : s.log.completions.length = l.completedCount
  count : l.completedCount + activeApRequestSlotCount l.active = l.nextPlan
  nonempty : ∀ i, l.active i = true → (s.slots i).state ≠ .empty
  unrecorded : ∀ i, l.active i = true → s.log.Unrecorded i
  numbered : ∀ i, l.active i = true →
    Numbered b plan s.log.streamBase l.nextPlan (s.log.latest i) (s.slots i).request
  distinct : ∀ i j, l.active i = true → l.active j = true → s.log.latest i = s.log.latest j → i = j
  recorded : ∀ c ∈ s.log.completions,
    Numbered b plan s.log.streamBase l.nextPlan c.n c.slot.request
  finished : ∀ c ∈ s.log.completions, c.slot.state.finished = true
  nodup : (s.log.completions.map (·.n)).Nodup
  entry : ∀ (m : Fin apRequestHistoryCount) (c : Log.Completion), m.val < hist →
    s.log.completions[m.val]? = some c → EntryOf k c (s.history m)
  blank : ∀ m : Fin apRequestHistoryCount, hist ≤ m.val → (s.history m).valid = false
  settled : k.strong → ∀ i, l.active i = false → busy ≠ some i →
    (s.slots i).state ≠ .pending ∧ (s.slots i).state ≠ .running
  counter : k.calm → l.counterBase = s.log.streamCounter +
    UInt32.ofNat ((s.log.completions.take hist).countP (·.counted))
  entryCounter : k.calm → ∀ m : Fin apRequestHistoryCount, m.val < hist →
    (s.history m).counterValue = s.log.streamCounter +
      UInt32.ofNat ((s.log.completions.take (m.val + 1)).countP (·.counted))
  kept : k.calm → ∀ c ∈ s.log.completions, c.n = s.log.latest c.i → busy ≠ some c.i →
    s.slots c.i = c.slot
  replaced : k.calm → ∀ c ∈ s.log.completions, c.n ≠ s.log.latest c.i ∨ busy = some c.i →
    c.slot.state = .done
  returned : k.calm → ∀ i, l.active i = false → s.log.latest i ≠ 0 →
    ∃ c ∈ s.log.completions, c.n = s.log.latest i ∧ c.i = i

namespace Tally

variable {b : Build} {k : Know} {plan : List ApRequestPlan} {busy : Option SlotIndex} {hist : Nat}
variable {l : StreamLocals} {s s' : Machine}

/-- What the books depend on. -/
theorem mono (h : Tally b k plan busy hist l s) (hlog : s.log.SameStream s'.log)
    (hreq : ∀ i, l.active i = true → (s'.slots i).request = (s.slots i).request)
    (hne : ∀ i, l.active i = true → (s'.slots i).state ≠ .empty)
    (hhist : s'.history = s.history)
    (hset : k.strong → ∀ i, l.active i = false → busy ≠ some i →
      (s'.slots i).state ≠ .pending ∧ (s'.slots i).state ≠ .running)
    (hkeep : k.calm → ∀ c ∈ s.log.completions, c.n = s.log.latest c.i → busy ≠ some c.i →
      s'.slots c.i = s.slots c.i) :
    Tally b k plan busy hist l s' where
  began := by rw [hlog.began]; exact h.began
  plans := by rw [hlog.streamPlans]; exact h.plans
  nextPlan_le := h.nextPlan_le
  publications := by rw [hlog.publications, hlog.streamBase]; exact h.publications
  completed := by rw [hlog.completions]; exact h.completed
  count := h.count
  nonempty := hne
  unrecorded i hi := (hlog.unrecorded i).2 (h.unrecorded i hi)
  numbered i hi := by rw [hlog.streamBase, hlog.latest, hreq i hi]; exact h.numbered i hi
  distinct i j hi hj he := h.distinct i j hi hj (by rwa [hlog.latest, hlog.latest] at he)
  recorded := by rw [hlog.completions, hlog.streamBase]; exact h.recorded
  finished := by rw [hlog.completions]; exact h.finished
  nodup := by rw [hlog.completions]; exact h.nodup
  entry := by rw [hlog.completions, hhist]; exact h.entry
  blank := by rw [hhist]; exact h.blank
  settled := hset
  counter := by rw [hlog.streamCounter, hlog.completions]; exact h.counter
  entryCounter := by rw [hlog.streamCounter, hlog.completions, hhist]; exact h.entryCounter
  kept hk c hc hn hb := by
    rw [hlog.completions] at hc
    rw [hlog.latest] at hn
    exact (hkeep hk c hc hn hb).trans (h.kept hk c hc hn hb)
  replaced hk c hc hn := by
    rw [hlog.completions] at hc
    rw [hlog.latest] at hn
    exact h.replaced hk c hc hn
  returned := by
    simpa only [hlog.completions, hlog.latest] using h.returned

/-- A slot that is out of the books holds nothing of the stream. -/
theorem not_unrecorded (hk : k.calm) (h : Tally b k plan busy hist l s) {j : SlotIndex}
    (hj : l.active j = false) : ¬ s.log.Unrecorded j := by
  rintro ⟨hlt, hne⟩
  obtain ⟨c, hc, hn, -⟩ := h.returned hk j hj (by omega)
  exact hne c hc hn

/-- The AP does not touch the books. -/
theorem seen (h : Tally b k plan busy hist l s) (hs : ApSeen k s s') :
    Tally b k plan busy hist l s' := by
  refine h.mono hs.log.toSameStream (fun i _ => hs.request i)
    (fun i hi => hs.nonempty i (h.nonempty i hi)) hs.history ?_ ?_
  · intro hk i hi hb
    obtain ⟨hp, hr⟩ := h.settled hk i hi hb
    exact ⟨fun hp' => hp (hs.pending i hp'), fun hr' => (hs.running i hr').elim hp hr⟩
  · intro hk c hc hn hb
    have hfin : (s.slots c.i).state.finished = true := by
      rw [h.kept hk c hc hn hb]
      exact h.finished c hc
    obtain ⟨-, hp, hr⟩ := ApRequestStatus.finished_iff.1 hfin
    exact hs.keep hk c.i hp hr

/-- Nothing but the log's marks changed. -/
theorem mark (h : Tally b k plan busy hist l s) {e : Event}
    (he : s.log.SameStream (e :: s.log)) : Tally b k plan busy hist l (s.note e) :=
  h.mono he (fun _ _ => rfl) h.nonempty rfl h.settled fun _ _ _ _ _ => rfl

/-- A change of a slot that is out. -/
theorem setActive (h : Tally b k plan busy hist l s) {i : SlotIndex} (hi : l.active i = true)
    {f : ApRequestSlot → ApRequestSlot} (hr : (f (s.slots i)).request = (s.slots i).request)
    (he : (f (s.slots i)).state ≠ .empty) : Tally b k plan busy hist l (s.setSlot i f) := by
  refine h.mono (.refl _) ?_ ?_ rfl ?_ ?_
  · intro j _
    by_cases hj : j = i
    · subst hj; simpa using hr
    · simp [hj]
  · intro j hj'
    by_cases hj : j = i
    · subst hj; simpa using he
    · simpa [hj] using h.nonempty j hj'
  · intro hk j hj' hb
    have hj : j ≠ i := fun he => by simp [he, hi] at hj'
    simpa [hj] using h.settled hk j hj' hb
  · intro hk c hc hn hb
    have hj : c.i ≠ i := fun he => (h.unrecorded i hi).2 c hc (he ▸ hn)
    simp [hj]

/-- A change of the slot being published. -/
theorem setBusy {i : SlotIndex} (h : Tally b k plan (some i) hist l s) (hi : l.active i = false)
    (f : ApRequestSlot → ApRequestSlot) : Tally b k plan (some i) hist l (s.setSlot i f) := by
  have hne : ∀ j, l.active j = true → j ≠ i := fun j hj he => by simp [he, hi] at hj
  refine h.mono (.refl _) ?_ ?_ rfl ?_ ?_
  · intro j hj
    simp [hne j hj]
  · intro j hj
    simpa [hne j hj] using h.nonempty j hj
  · intro hk j hj hb
    have hji : j ≠ i := fun he => hb (he ▸ rfl)
    simpa [hji] using h.settled hk j hj hb
  · intro hk c hc hn hb
    have hji : c.i ≠ i := fun he => hb (he ▸ rfl)
    simp [hji]

/-- A publication begins. -/
theorem begin (h : Tally b k plan none hist l s) {i : SlotIndex}
    (hd : k.calm → ∀ c ∈ s.log.completions, c.i = i → c.slot.state = .done) :
    Tally b k plan (some i) hist l s :=
  { h with
    settled := fun hk j hj _ => h.settled hk j hj (by simp)
    kept := fun hk c hc hn _ => h.kept hk c hc hn (by simp)
    replaced := fun hk c hc hn => by
      rcases hn with hn | hn
      · exact h.replaced hk c hc (Or.inl hn)
      · exact hd hk c hc (Option.some.inj hn).symm }

/-- The numbers of a stream's requests grow with the plan. -/
theorem numbered_mono {base next next' n : Nat} {r : ApRequestHeader} (hle : next ≤ next')
    (h : Numbered b plan base next n r) : Numbered b plan base next' n r := by
  obtain ⟨m, p, hm, hp, hn, hr⟩ := h
  exact ⟨m, p, by omega, hp, hn, hr⟩

theorem numbered_le {base next n : Nat} {r : ApRequestHeader}
    (h : Numbered b plan base next n r) : base < n ∧ n ≤ base + next := by
  obtain ⟨m, p, hm, -, hn, -⟩ := h
  omega

/-- The locals after a publication in slot `i`. -/
abbrev afterPublish (l : StreamLocals) (i : SlotIndex) : StreamLocals :=
  { l with active := Function.update l.active i true, nextPlan := l.nextPlan + 1 }

/-- A publication ends. -/
theorem publish {i : SlotIndex} {p : ApRequestPlan} {st : ApRequestStatus}
    (h : Tally b k plan (some i) hist l s) (hi : l.active i = false)
    (hp : plan[l.nextPlan]? = some p)
    (hr : (s.slots i).request = preparedHeader (b.apContextIndex + 1) p) (hst : st ≠ .empty) :
    Tally b k plan none hist (afterPublish l i) (publishState i p st s) := by
  have hlen : l.nextPlan < plan.length := (List.getElem?_eq_some_iff.1 hp).1
  have hlast : ∀ j, Log.latest j (publishState i p st s).log
      = if i = j then s.log.publications + 1 else s.log.latest j := fun _ => rfl
  -- the new publication is later than all that are out
  have hle : ∀ j, l.active j = true → s.log.latest j ≤ s.log.publications := fun j hj => by
    have := (numbered_le (h.numbered j hj)).2
    have := h.publications
    omega
  have hact : ∀ j, (afterPublish l i).active j = true → j ≠ i → l.active j = true :=
    fun j hj hji => by simpa [hji] using hj
  refine
    { began := h.began, plans := ?_, nextPlan_le := hlen, publications := ?_,
      completed := h.completed, count := ?_, nonempty := ?_, unrecorded := ?_,
      numbered := ?_, distinct := ?_, recorded := ?_,
      finished := h.finished, nodup := h.nodup, entry := h.entry, blank := h.blank, settled := ?_,
      counter := h.counter, entryCounter := h.entryCounter, kept := ?_, replaced := ?_,
      returned := ?_ }
  · have hplans := h.plans
    rw [List.take_add_one, hp]
    simp [publishState, hplans]
  · have hpub := h.publications
    simp only [publishState, Machine.note_log, Machine.setSlot_log, Log.publications,
      Log.streamBase]
    omega
  · have hcount := h.count
    rw [activeApRequestSlotCount_update_true hi]
    simp only
    omega
  · intro j hj
    by_cases hji : j = i
    · subst hji
      simpa [publishState] using hst
    · simpa [publishState, hji] using h.nonempty j (hact j hj hji)
  · intro j hj
    by_cases hji : j = i
    · subst hji
      refine ⟨?_, fun c hc => ?_⟩
      · have hpub := h.publications
        rw [hlast, if_pos rfl]
        simp only [publishState, Machine.note_log, Machine.setSlot_log, Log.streamBase]
        omega
      · have := (numbered_le (h.recorded c hc)).2
        have hpub := h.publications
        rw [hlast, if_pos rfl]
        omega
    · have hu := h.unrecorded j (hact j hj hji)
      refine ⟨?_, fun c hc => ?_⟩
      · rw [hlast, if_neg (Ne.symm hji)]
        exact hu.1
      · rw [hlast, if_neg (Ne.symm hji)]
        exact hu.2 c hc
  · intro j hj
    by_cases hji : j = i
    · subst hji
      refine ⟨l.nextPlan, p, by simp, hp, ?_, by simpa [publishState] using hr⟩
      have hpub := h.publications
      rw [hlast, if_pos rfl, hpub]
      rfl
    · rw [hlast, if_neg (Ne.symm hji)]
      have := numbered_mono (Nat.le_succ _) (h.numbered j (hact j hj hji))
      simpa [publishState, hji] using this
  · -- only slot `i` has the new number
    intro j j' hj hj' he
    rw [hlast, hlast] at he
    by_cases hji : i = j <;> by_cases hji' : i = j'
    · exact hji.symm.trans hji'
    · rw [if_pos hji, if_neg hji'] at he
      have := hle j' (hact j' hj' (Ne.symm hji'))
      omega
    · rw [if_neg hji, if_pos hji'] at he
      have := hle j (hact j hj (Ne.symm hji))
      omega
    · rw [if_neg hji, if_neg hji'] at he
      exact h.distinct j j' (hact j hj (Ne.symm hji)) (hact j' hj' (Ne.symm hji')) he
  · exact fun c hc => numbered_mono (Nat.le_succ _) (h.recorded c hc)
  · intro hk j hj _
    have hji : j ≠ i := by
      rintro rfl
      simp at hj
    have hset := h.settled hk j (by simpa [hji] using hj) (by simpa using Ne.symm hji)
    simpa [publishState, hji] using hset
  · -- a record of slot `i` is of an earlier publication now
    intro hk c hc hn _
    have hci : i ≠ c.i := by
      intro hci
      have := (numbered_le (h.recorded c hc)).2
      have hpub := h.publications
      rw [hlast, if_pos hci] at hn
      omega
    rw [hlast, if_neg hci] at hn
    have := h.kept hk c hc hn (by simpa using hci)
    simpa [publishState, Ne.symm hci] using this
  · intro hk c hc hn
    by_cases hci : i = c.i
    · exact h.replaced hk c hc (Or.inr (by rw [hci]))
    · rw [hlast, if_neg hci] at hn
      exact h.replaced hk c hc (Or.inl (hn.resolve_right (by simp)))
  · intro hk j hj h0
    have hji : j ≠ i := by
      rintro rfl
      simp at hj
    rw [hlast, if_neg (Ne.symm hji)] at h0 ⊢
    exact h.returned hk j (by simpa [hji] using hj) h0

/-- The locals after slot `i` was taken back. -/
abbrev afterTake (l : StreamLocals) (i : SlotIndex) : StreamLocals :=
  { l with active := Function.update l.active i false, completedCount := l.completedCount + 1 }

/-- The completion that `finishStore` notes. -/
abbrev completionOf (i : SlotIndex) (v : UInt32) (s : Machine) : Log.Completion :=
  ⟨s.log.latest i, i, { s.slots i with metrics := { (s.slots i).metrics with waitLoops := v } }⟩

theorem completions_finishStore (i : SlotIndex) (v : UInt32) (s : Machine) :
    (finishStore i v s).log.completions = s.log.completions ++ [completionOf i v s] := by
  simp [finishStore]

/-- A request is taken back. -/
theorem finish {i : SlotIndex} (h : Tally b k plan none l.completedCount l s)
    (hi : l.active i = true) (hf : (s.slots i).state.finished = true) (v : UInt32) :
    Tally b k plan none l.completedCount (afterTake l i) (finishStore i v s) := by
  have hc := completions_finishStore i v s
  have hlen := h.completed
  have hlast : ∀ j, Log.latest j (finishStore i v s).log = s.log.latest j := fun _ => rfl
  have hact : ∀ j, (afterTake l i).active j = true → j ≠ i ∧ l.active j = true := by
    intro j hj
    by_cases hji : j = i
    · subst hji
      simp at hj
    · exact ⟨hji, by simpa [hji] using hj⟩
  have hslot : ∀ j, j ≠ i → (finishStore i v s).slots j = s.slots j := fun j hji => by
    simp [finishStore, hji]
  -- Most fields split the completions into the old ones and the new one, and the slots into
  -- slot `i`, which is not out any more, and the others, which are as before.
  refine
    { began := h.began, plans := h.plans, nextPlan_le := h.nextPlan_le, publications := h.publications,
      completed := ?_, count := ?_, nonempty := ?_, unrecorded := ?_, numbered := ?_,
      distinct := ?_, recorded := ?_, finished := ?_, nodup := ?_, entry := ?_, blank := h.blank,
      settled := ?_, counter := ?_, entryCounter := ?_, kept := ?_, replaced := ?_,
      returned := ?_ }
  · rw [hc]
    simp [hlen]
  · have hcount := h.count
    have := activeApRequestSlotCount_update_false hi
    simp only
    omega
  · intro j hj
    obtain ⟨hji, hj'⟩ := hact j hj
    rw [hslot j hji]
    exact h.nonempty j hj'
  · intro j hj
    obtain ⟨hji, hj'⟩ := hact j hj
    have hu := h.unrecorded j hj'
    refine ⟨hu.1, fun c hm => ?_⟩
    rw [hc, List.mem_append, List.mem_singleton] at hm
    rcases hm with hm | rfl
    · exact hu.2 c hm
    · exact fun he => hji (h.distinct i j hi hj' he).symm
  · intro j hj
    obtain ⟨hji, hj'⟩ := hact j hj
    rw [hslot j hji]
    exact h.numbered j hj'
  · intro j j' hj hj' he
    exact h.distinct j j' (hact j hj).2 (hact j' hj').2 he
  · intro c hm
    rw [hc, List.mem_append, List.mem_singleton] at hm
    rcases hm with hm | rfl
    · exact h.recorded c hm
    · exact h.numbered i hi
  · intro c hm
    rw [hc, List.mem_append, List.mem_singleton] at hm
    rcases hm with hm | rfl
    · exact h.finished c hm
    · exact hf
  · -- the publication in slot `i` was not recorded before
    rw [hc, List.map_append, List.nodup_append]
    refine ⟨h.nodup, by simp, ?_⟩
    intro n hn n' hn'
    simp only [List.map_cons, List.map_nil, List.mem_singleton] at hn'
    obtain ⟨c, hm, rfl⟩ := List.mem_map.1 hn
    exact fun he => (h.unrecorded i hi).2 c hm (he.trans hn')
  · intro m c hm hget
    rw [hc, List.getElem?_append_left (by omega)] at hget
    exact h.entry m c hm hget
  · intro hk j hj _
    by_cases hji : j = i
    · subst hji
      obtain ⟨-, hp, hr⟩ := ApRequestStatus.finished_iff.1 hf
      simpa [finishStore] using And.intro hp hr
    · rw [hslot j hji]
      exact h.settled hk j (by simpa [hji] using hj) (by simp)
  · intro hk
    rw [hc, List.take_append_of_le_length (by omega)]
    exact h.counter hk
  · intro hk m hm
    rw [hc, List.take_append_of_le_length (by omega)]
    exact h.entryCounter hk m hm
  · intro hk c hm hn _
    rw [hc, List.mem_append, List.mem_singleton] at hm
    rcases hm with hm | rfl
    · have hci : c.i ≠ i := by
        intro hci
        exact (h.unrecorded i hi).2 c hm (hci ▸ hn)
      rw [hslot _ hci]
      exact h.kept hk c hm hn (by simp)
    · simp [finishStore]
  · intro hk c hm hn
    rw [hc, List.mem_append, List.mem_singleton] at hm
    rcases hm with hm | rfl
    · exact h.replaced hk c hm hn
    · simp [hlast] at hn
  · intro hk j hj h0
    rw [hc]
    by_cases hji : j = i
    · subst hji
      exact ⟨completionOf j v s, by simp, rfl, rfl⟩
    · obtain ⟨c, hm, hn⟩ := h.returned hk j (by simpa [hji] using hj) h0
      exact ⟨c, by simp [hm], hn⟩

/-- Writing a history entry that is not valid yet. -/
theorem setHistory (h : Tally b k plan busy hist l s) {m : Fin apRequestHistoryCount}
    (hm : m.val = hist) {f : ApRequestHistoryEntry → ApRequestHistoryEntry}
    (hv : (f (s.history m)).valid = (s.history m).valid) :
    Tally b k plan busy hist l (s.setHistory m f) := by
  have hne : ∀ m' : Fin apRequestHistoryCount, m'.val < hist → m' ≠ m := by
    rintro m' hlt rfl
    omega
  refine { h with entry := ?_, blank := ?_, entryCounter := ?_ }
  · intro m' c hlt hget
    simpa [Machine.setHistory, hne m' hlt] using h.entry m' c hlt hget
  · intro m' hle
    by_cases hmm : m' = m
    · subst hmm
      simpa [Machine.setHistory, hv] using h.blank m' hle
    · simpa [Machine.setHistory, hmm] using h.blank m' hle
  · intro hk m' hlt
    simpa [Machine.setHistory, hne m' hlt] using h.entryCounter hk m' hlt

/-- The counter after the next entry. -/
theorem counter_succ (h : Tally b k plan busy hist l s) (hk : k.calm) {c : Log.Completion}
    (hc : s.log.completions[hist]? = some c) :
    s.log.streamCounter + UInt32.ofNat ((s.log.completions.take (hist + 1)).countP (·.counted))
      = if c.counted then l.counterBase + 1 else l.counterBase := by
  rw [List.take_add_one, hc, List.countP_append, h.counter hk]
  by_cases hcnt : c.counted = true
  · simp [hcnt, UInt32.add_assoc]
  · simp [hcnt]

/-- An entry becomes valid. -/
theorem record (h : Tally b k plan busy hist l s) {m : Fin apRequestHistoryCount}
    (hm : m.val = hist) {c : Log.Completion} (hc : s.log.completions[hist]? = some c)
    {e : ApRequestHistoryEntry} (he : EntryOf k c e)
    (hv : k.calm → e.counterValue = if c.counted then l.counterBase + 1 else l.counterBase) :
    Tally b k plan busy (hist + 1) { l with counterBase := e.counterValue }
      { s with history := Function.update s.history m e } := by
  have hlt : ∀ m' : Fin apRequestHistoryCount, m'.val < hist + 1 → m' ≠ m → m'.val < hist := by
    intro m' hm' hne
    have : m'.val ≠ m.val := fun heq => hne (Fin.ext heq)
    omega
  refine { h with entry := ?_, blank := ?_, counter := ?_, entryCounter := ?_ }
  · intro m' c' hm' hget
    by_cases hmm : m' = m
    · subst hmm
      rw [hm, hc] at hget
      cases hget
      simpa using he
    · simpa [hmm] using h.entry m' c' (hlt m' hm' hmm) hget
  · intro m' hle
    have hmm : m' ≠ m := by
      rintro rfl
      omega
    simpa [hmm] using h.blank m' (by omega)
  · exact fun hk => (hv hk).trans (h.counter_succ hk hc).symm
  · intro hk m' hm'
    by_cases hmm : m' = m
    · subst hmm
      rw [hm]
      simpa [hv hk] using (h.counter_succ hk hc).symm
    · simpa [hmm] using h.entryCounter hk m' (hlt m' hm' hmm)

/-- The history is full: nothing more goes into it. -/
theorem overflow (h : Tally b k plan busy hist l s) (hm : apRequestHistoryCount ≤ hist)
    {c : Log.Completion} (hc : s.log.completions[hist]? = some c) {v : UInt32}
    (hv : k.calm → v = if c.counted then l.counterBase + 1 else l.counterBase) :
    Tally b k plan busy (hist + 1) { l with counterBase := v } s := by
  refine { h with entry := ?_, blank := ?_, counter := ?_, entryCounter := ?_ }
  · exact fun m' c' _ hget => h.entry m' c' (lt_of_lt_of_le m'.isLt hm) hget
  · intro m' hle
    have := m'.isLt
    omega
  · exact fun hk => (hv hk).trans (h.counter_succ hk hc).symm
  · exact fun hk m' _ => h.entryCounter hk m' (lt_of_lt_of_le m'.isLt hm)

end Tally

end VibeKernel

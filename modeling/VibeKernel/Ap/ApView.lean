import VibeKernel.Ap.Accesses
import VibeKernel.Ap.CalmInvariant
import VibeKernel.Ap.StreamTally

/-!
# What the BSP sees of the AP

Two answers. Wherever the AP is in its code and whatever the memory holds, one access of it is an
`ApTouch`. An access inside the protocol is an `ApSeen`.
-/

namespace VibeKernel

open Conc

/-! ## Changes that an access can make -/

section Touch

variable {s s' : Machine} {i : SlotIndex}

theorem ApTouch.same (hs : s'.slots = s.slots) (hh : s'.history = s.history)
    (he : s'.error = s.error) (hl : s'.log = s.log) : ApTouch s s' where
  request _ := by rw [hs]
  history := hh
  error := he
  log := by rw [hl]; exact .refl _
  increments := by rw [hl]
  nonempty _ h := by rwa [hs]
  vacant _ h := by rwa [hs]
  finished _ h := by rwa [hs]
  timeout _ h := by rwa [hs] at h
  pending _ h := by rwa [hs] at h
  running _ h := by rw [hs] at h; exact Or.inr h

theorem ApTouch.refl (s : Machine) : ApTouch s s := .same rfl rfl rfl rfl

/-- Noting an event of the AP. -/
theorem ApTouch.note (h : ApTouch s s') (hl : s'.log = s.log) {e : Event} (he : e.byAp = true) :
    ApTouch s (s'.note e) := by
  refine { h with log := ?_, increments := ?_ }
  · rw [Machine.note_log, hl]
    exact .cons he _
  · rw [Machine.note_log, hl]
    cases e <;> simp

/-- A change of fields the BSP does not read the requests from. -/
theorem ApTouch.fields {f : ApRequestSlot → ApRequestSlot}
    (hr : (f (s.slots i)).request = (s.slots i).request)
    (hs : (f (s.slots i)).state = (s.slots i).state) : ApTouch s (s.setSlot i f) := by
  have hreq : ∀ j, ((s.setSlot i f).slots j).request = (s.slots j).request := by
    intro j
    by_cases hj : j = i
    · subst hj
      simpa using hr
    · simp [hj]
  have hst : ∀ j, ((s.setSlot i f).slots j).state = (s.slots j).state := by
    intro j
    by_cases hj : j = i
    · subst hj
      simpa using hs
    · simp [hj]
  refine ⟨hreq, rfl, rfl, .refl _, le_refl _, ?_, ?_, ?_, ?_, ?_, ?_⟩ <;> intro j <;> rw [hst]
  · exact id
  · exact id
  · exact id
  · exact id
  · exact id
  · exact Or.inr

theorem ApTouch.move {st : ApRequestStatus} (hm : ApMove (s.slots i).state st) :
    ApTouch s (s.setState i st) := by
  have hreq : ∀ j, ((s.setState i st).slots j).request = (s.slots j).request := by
    intro j
    by_cases hj : j = i
    · subst hj
      simp
    · simp [hj]
  refine ⟨hreq, rfl, rfl, .refl _, le_refl _, ?_, ?_, ?_, ?_, ?_, ?_⟩
  all_goals
    intro j
    by_cases hj : j = i
    · subst hj
      rcases hm with rfl | ⟨hp, rfl⟩ | ⟨hp, rfl | rfl⟩ <;>
        simp_all [ApRequestStatus.finished, ApRequestStatus.terminal]
    · simp +contextual [hj]

end Touch

/-! ## An AP anywhere in its code -/

section Anywhere

variable {W : SlotIndex → Prop} {s s' : Machine} {b : Build}

/-- What the BSP sees of any access of the AP's code. -/
theorem ApAccess.touch (h : ApAccess W ApMove s s') : ApTouch s s' where
  request := h.request
  history := h.history
  error := h.error
  log := by
    rcases h.log with hl | ⟨e, he, hl⟩
    · rw [hl]
      exact .refl _
    · rw [hl]
      exact .cons he _
  increments := by
    rcases h.log with hl | ⟨e, -, hl⟩
    · rw [hl]
    · rw [hl]
      cases e <;> simp
  nonempty i hne := by
    rcases h.state i with heq | hst | ⟨-, hst⟩ | ⟨-, hst | hst⟩
    · rwa [heq]
    all_goals simp [*]
  vacant i hv := by
    rcases h.state i with heq | hst | ⟨hp, -⟩ | ⟨hr, -⟩
    · rwa [heq]
    · exact .inr hst
    · simp [hp] at hv
    · simp [hr] at hv
  finished i hf := by
    rcases h.state i with heq | hst | ⟨hp, -⟩ | ⟨hr, -⟩
    · rwa [heq]
    · rw [hst]
      rfl
    · rw [hp] at hf
      cases hf
    · rw [hr] at hf
      cases hf
  timeout i ht := by
    rcases h.state i with heq | hst | ⟨-, hst⟩ | ⟨-, hst | hst⟩
    · rwa [heq] at ht
    all_goals
      rw [hst] at ht
      cases ht
  pending i hp := by
    rcases h.state i with heq | hst | ⟨-, hst⟩ | ⟨-, hst | hst⟩
    · rwa [heq] at hp
    all_goals
      rw [hst] at hp
      cases hp
  running i hr := by
    rcases h.state i with heq | hst | ⟨hp, -⟩ | ⟨-, hst | hst⟩
    · exact .inr (heq ▸ hr)
    · rw [hst] at hr
      cases hr
    · exact .inl hp
    all_goals
      rw [hst] at hr
      cases hr

/-- **The AP's code**, from any of its control points. -/
theorem apBody_touch (pc : ApPc) (p : Prog Machine ApPc) (hp : apBody b pc = some p) :
    p.Within ApTouch := by
  have hcode : ApCode (fun _ => True) ApMove p :=
    ApCode.apBody (fun _ _ h _ => h) (.inr (.inr ⟨rfl, .inl rfl⟩)) (fun _ => trivial) pc p hp
  exact hcode.mono fun _ _ h => h.touch

/-- **`ap_fault_dispatch`.** -/
theorem apFaultDispatch_touch (frame : FaultFrame) : (apFaultDispatch frame).Within ApTouch := by
  have hcode : ApCode (fun _ => True) ApMove (apFaultDispatch frame) :=
    ApCode.apFaultDispatch (fun _ _ h _ => h) frame
  exact hcode.mono fun _ _ h => h.touch

end Anywhere

/-! ## An AP inside the protocol -/

namespace Log

/-- No position is beyond the runs so far. -/
theorem runIndex_le (n : Nat) (l : Log) : l.runIndex n ≤ l.runs.length := by
  induction l with
  | nil => simp
  | cons e l ih =>
    cases e with
    | ran m i r =>
      simp only [runIndex, runs, List.length_cons]
      split <;> omega
    | _ => simpa using ih

/-- The run that the AP has just finished is the last one. -/
theorem runIndex_lt_of_ran {l : Log} {n m : Nat} {i : SlotIndex} {r : HandlerRun}
    (hp : l.phase = .ran n i r) (hm : m ≠ n) : l.runIndex m < l.runIndex n := by
  induction l with
  | nil => simp at hp
  | cons e l ih =>
    cases e with
    | ran n' i' r' =>
      simp only [phase, ApPhase.ran.injEq] at hp
      obtain ⟨rfl, -, -⟩ := hp
      have := runIndex_le m l
      simp only [runIndex, if_neg (Ne.symm hm), if_true]
      omega
    | streamBegan | published | visited | inspected | visitEnded | overdue | finished | restored =>
      exact ih (by simpa using hp)
    | faultPosted => exact ih (by simpa using hp)
    | _ => simp at hp

end Log

namespace ApAct

variable {b : Build} {k : Know} {c0 : UInt32} {s s' : Machine}

/-- An access inside the protocol is one that the AP's code can make. -/
theorem touch (ha : ApAct b c0 s s') : ApTouch s s' := by
  cases ha with
  | own h hh => exact .same h.slots hh h.error h.log
  | dropCurrent | goOnline | backOnline | faultVector => exact .same rfl rfl rfl rfl
  | claim i hp h => exact (ApTouch.move (Or.inr (Or.inl ⟨h, rfl⟩))).note rfl rfl
  | reply | metrics | faultReply => exact .fields rfl rfl
  | take | increment | count | halt | post =>
    refine ApTouch.note (.same ?_ ?_ ?_ ?_) ?_ ?_ <;> rfl
  | readService | lookUp | rereadService | miss | reject | fault =>
    exact (ApTouch.refl s).note rfl rfl
  | run => exact ApTouch.note (.fields rfl rfl) rfl rfl
  | complete hp h => exact (ApTouch.move (Or.inr (Or.inr ⟨h, Or.inl rfl⟩))).note rfl rfl
  | badOp hp h => exact .move (Or.inr (Or.inr ⟨h, Or.inr rfl⟩))
  | faultSlot => exact .move (Or.inl rfl)

/-- An AP that is down stays down. -/
theorem down (ha : ApAct b c0 s s') (hd : s.log.phase.down = true) : s'.log.phase.down = true := by
  cases ha with
  | own h => rw [h.log]; exact hd
  | claim i hp | take hp | readService hp | lookUp hp | increment v hp | run hp | complete hp
  | reject hp | rereadService hp | miss hp | halt hp => simp [hp] at hd
  | count v hp => rcases hp with ⟨svc, ifc, hp, -⟩ | ⟨hp, -⟩ <;> simp [hp] at hd
  | fault => simp
  | _ => exact hd

/-- What the AP can do to a slot once it is down. -/
theorem stuck (ha : ApAct b c0 s s') (hd : s.log.phase.down = true) (j : SlotIndex) :
    s'.slots j = s.slots j ∨ (s'.slots j).state = (s.slots j).state ∨
    (s'.slots j).state = .fault ∧ (s.slots j).state ≠ .done ∨
    (s'.slots j).state = .badOp ∧ (s.slots j).state = .running := by
  cases ha with
  | own h => exact Or.inl (by rw [h.slots])
  | claim i hp | take hp | readService hp | lookUp hp | increment v hp | run hp | complete hp
  | reject hp | rereadService hp | miss hp | halt hp => simp [hp] at hd
  | count v hp => rcases hp with ⟨svc, ifc, hp, -⟩ | ⟨hp, -⟩ <;> simp [hp] at hd
  | reply f hp hd' | metrics f hp hd' => exact absurd (hd'.symm.trans hd) (by decide)
  | dropCurrent | goOnline | backOnline | fault | faultVector | post => exact Or.inl rfl
  | @badOp n i hp h =>
    by_cases hj : j = i
    · subst hj
      exact Or.inr (Or.inr (Or.inr ⟨by simp, h⟩))
    · exact Or.inl (by simp [hj])
  | @faultReply v g i f hp hc =>
    by_cases hj : j = i
    · subst hj
      exact Or.inr (Or.inl (by simp))
    · exact Or.inl (by simp [hj])
  | @faultSlot v g i hp hc ha hs =>
    by_cases hj : j = i
    · subst hj
      exact Or.inr (Or.inr (Or.inl ⟨by simp, hs.1⟩))
    · exact Or.inl (by simp [hj])

/-- Once the fault is posted, the AP leaves everything as it is. -/
theorem posted (hm : MachineInv b c0 s) (ha : ApAct b c0 s s') (hf : s.apState = .faulted) :
    s'.apState = .faulted ∧ s'.faultVector = s.faultVector ∧ s'.slots = s.slots := by
  obtain ⟨v, g, hph, hv⟩ := hm.faulted hf
  cases ha with
  | own h => exact ⟨h.apState.trans hf, h.faultVector, h.slots⟩
  | goOnline => exact ⟨hf, rfl, rfl⟩
  | post => exact ⟨rfl, rfl, rfl⟩
  | fault v' hp => exact absurd hph (hp v g)
  | dropCurrent h => simp [hph] at h
  | backOnline h => simp [hph] at h
  | reply f hp hd | metrics f hp hd => simp [hph] at hd
  | claim i hp | take hp | readService hp | lookUp hp | increment v hp | run hp | complete hp
  | reject hp | rereadService hp | miss hp | halt hp | badOp hp => simp [hph] at hp
  | count v hp => rcases hp with ⟨svc, ifc, hp, -⟩ | ⟨hp, -⟩ <;> simp [hph] at hp
  | faultVector hp ha | faultReply f hp hc ha | faultSlot hp hc ha => exact absurd hf ha

/-- In calm, the AP writes to the slot it works on and to a slot it claims. -/
theorem keep (hc : CalmInv b s) (ha : ApAct b c0 s s') {j : SlotIndex}
    (hp : (s.slots j).state ≠ .pending) (hr : (s.slots j).state ≠ .running) :
    s'.slots j = s.slots j := by
  cases ha with
  | own h => rw [h.slots]
  -- every store of the AP goes to a slot that is `PENDING` or `RUNNING`, or that it marks `FAULT` again
  | claim i hph hi =>
    have hj : j ≠ i := fun he => hp (he ▸ hi)
    simp [hj]
  | @reply n i f hh hd | @metrics n i f hh hd =>
    have hj : j ≠ i := fun he => hr (he ▸ hc.held n i hh hd)
    simp [hj]
  | @run n i r hph =>
    have hj : j ≠ i := fun he => hr (he ▸ hc.held n i (by simp [hph]) (by simp [hph]))
    simp [hj]
  | @complete n i r hph hi | @badOp n i hph hi =>
    have hj : j ≠ i := fun he => hr (he ▸ hi)
    simp [hj]
  | @faultReply v g i f hph hcur ha hs =>
    obtain ⟨n, i', -, -, hi, hst⟩ := hc.faulted v g hph
    have hii : i' = i := Option.some.inj ((hi ha).symm.trans hcur)
    subst hii
    have hj : j ≠ i' := fun he => hst.elim (fun h => hr (he ▸ h)) fun h => hs.2.2 h
    simp [hj]
  | @faultSlot v g i hph hcur ha hs =>
    obtain ⟨n, i', -, -, hi, hst⟩ := hc.faulted v g hph
    have hii : i' = i := Option.some.inj ((hi ha).symm.trans hcur)
    subst hii
    by_cases hj : j = i'
    · subst hj
      have hf := hst.resolve_left hr
      rw [Machine.setSlot_slots_self, ← hf]
    · simp [hj]
  | _ => rfl

/-- In calm, a pending slot waits for ever once the AP is down. -/
theorem waits (hc : CalmInv b s) (ha : ApAct b c0 s s') (hd : s.log.phase.down = true)
    {j : SlotIndex} (hp : (s.slots j).state = .pending) : (s'.slots j).state = .pending := by
  cases ha with
  | own h => rw [h.slots]; exact hp
  | claim i hph | take hph | readService hph | lookUp hph | increment v hph | run hph
  | complete hph | reject hph | rereadService hph | miss hph | halt hph => simp [hph] at hd
  | count v hph => rcases hph with ⟨svc, ifc, hph, -⟩ | ⟨hph, -⟩ <;> simp [hph] at hd
  | reply f hh hd' | metrics f hh hd' => exact absurd (hd'.symm.trans hd) (by decide)
  | dropCurrent | goOnline | backOnline | fault | faultVector | post => exact hp
  | @badOp n i hph hi =>
    have hj : j ≠ i := by
      rintro rfl
      simp [hp] at hi
    simpa [hj] using hp
  | @faultReply v g i f hph hcur ha hs | @faultSlot v g i hph hcur ha hs =>
    obtain ⟨n, i', -, -, hi, hst⟩ := hc.faulted v g hph
    have hii : i' = i := Option.some.inj ((hi ha).symm.trans hcur)
    subst hii
    have hj : j ≠ i' := by
      rintro rfl
      simp [hp] at hst
    simpa [hj] using hp

/-- In calm, a slot that is done keeps its place in the order of execution. -/
theorem runIndex (hm : MachineInv b c0 s) (hc : CalmInv b s) (ha : ApAct b c0 s s')
    {j : SlotIndex} (hd : (s.slots j).state = .done) :
    s'.log.runIndex (s.log.latest j) = s.log.runIndex (s.log.latest j) := by
  cases ha with
  | own h => rw [h.log]
  | @run n i r hp =>
    have hh : s.log.phase.held = some (n, i) := by simp [hp]
    have hne : n ≠ s.log.latest j := by
      intro he
      have hji := hm.log.held_slot hh he.symm
      have hr := hc.held n i hh (by simp [hp])
      rw [← hji, hd] at hr
      cases hr
    simp [hne]
  | _ => rfl

/-- In calm, a slot that becomes done was run after every slot that is done already. -/
theorem later (hm : MachineInv b c0 s) (ha : ApAct b c0 s s') {j : SlotIndex}
    (hd' : (s'.slots j).state = .done) (hd : (s.slots j).state ≠ .done) {i : SlotIndex}
    (hij : i ≠ j) : s.log.runIndex (s.log.latest i) < s'.log.runIndex (s.log.latest j) := by
  cases ha with
  -- only `complete` makes a slot `DONE`, and its run is the last in the log
  | @complete n i' r hp hr =>
    by_cases hj : j = i'
    · subst hj
      have hh := ((hm.slot j).running hr).2
      have hn : s.log.latest j = n := by
        rw [hp] at hh
        exact (Prod.mk.inj (Option.some.inj hh)).1.symm
      obtain ⟨-, p, hpub⟩ := hm.log.held _ _ hh
      have hne : s.log.latest i ≠ n := by
        intro he
        exact hij (hm.log.held_slot hh (he.trans hn.symm))
      rw [hn]
      exact Log.runIndex_lt_of_ran hp hne
    · exact absurd (by simpa [hj] using hd') hd
  | own h => rw [h.slots] at hd'; exact absurd hd' hd
  | claim i' | @badOp _ i' | @faultSlot _ _ i' =>
    by_cases hj : j = i'
    · subst hj
      simp at hd'
    · exact absurd (by simpa [hj] using hd') hd
  | @reply _ i' | @metrics _ i' | @run _ i' | @faultReply _ _ i' =>
    by_cases hj : j = i'
    · subst hj
      exact absurd (by simpa using hd') hd
    · exact absurd (by simpa [hj] using hd') hd
  | _ => exact absurd hd' hd

/-- **What the BSP sees of an access inside the protocol.** -/
theorem seen (hm : MachineInv b c0 s) (hc : k.calm → CalmInv b s) (hu : k.ordered → Unseen s s')
    (ha : ApAct b c0 s s') : ApSeen k s s' where
  toApTouch := ha.touch
  down _ := ha.down
  stuck _ hd j := by
    rcases ha.stuck hd j with h | h | ⟨h, -⟩ | ⟨h, hr⟩
    · rw [h]
      exact ⟨Or.inl, id⟩
    · rw [h]
      exact ⟨Or.inl, id⟩
    · exact ⟨fun _ => Or.inr h, fun _ => Or.inr (Or.inl h)⟩
    · exact ⟨fun hp => by simp [hr] at hp, fun _ => Or.inr (Or.inr h)⟩
  posted _ := ha.posted hm
  keep hk _ := ha.keep (hc hk)
  waits hk hd _ := ha.waits (hc hk) hd
  runIndex ho _ := ha.runIndex hm (hc (k.ordered_calm ho))
  later _ _ hd' hd _ hij _ := ha.later hm hd' hd hij
  unseen := hu

end ApAct

end VibeKernel

import VibeKernel.Ap.SlotInvariant

/-!
# A calm start

When nothing times out and faults strike in handlers only, the request that the AP works on keeps
its slot: it is `RUNNING` until the AP ends it, and when the AP stops, the slot still names it.
-/

namespace VibeKernel

/-- What a calm start adds to the invariant. -/
structure CalmInv (b : Build) (s : Machine) : Prop where
  held : ∀ n i, s.log.phase.held = some (n, i) → s.log.phase.down = false →
    (s.slots i).state = .running
  current : ∀ n i, s.log.phase.held = some (n, i) → s.log.phase.down = false →
    s.log.phase ≠ .claimed n i → s.currentRequestSlot = some i
  halted : ∀ n i, s.log.phase = .halted n i → s.log.latest i = n ∧
    ((s.slots i).state = .running ∨ (s.slots i).state = .badOp ∧ MissReply b (s.slots i))
  faulted : ∀ v h, s.log.phase = .faulted v h → ∃ n i, h = some (n, i) ∧ s.log.latest i = n ∧
    (s.apState ≠ .faulted → s.currentRequestSlot = some i) ∧
    ((s.slots i).state = .running ∨ (s.slots i).state = .fault)

namespace CalmInv

variable {b : Build} {k : Know} {c0 : UInt32} {s s' : Machine}

/-- An access that changes no slot's state and leaves the AP where it is. -/
theorem keep (h : CalmInv b s) (hp : s'.log.phase = s.log.phase)
    (hl : ∀ i, s'.log.latest i = s.log.latest i)
    (hs : ∀ i, (s'.slots i).state = (s.slots i).state)
    (hm : ∀ n i, s.log.phase = .halted n i → MissReply b (s.slots i) → MissReply b (s'.slots i))
    (hc : s'.currentRequestSlot = s.currentRequestSlot) (ha : s'.apState = s.apState) :
    CalmInv b s' where
  held n i hh hd := by
    rw [hs]
    exact h.held n i (hp ▸ hh) (hp ▸ hd)
  current n i hh hd hn := by
    rw [hc]
    exact h.current n i (hp ▸ hh) (hp ▸ hd) (hp ▸ hn)
  halted n i hh := by
    rw [hl, hs]
    obtain ⟨hn, hst⟩ := h.halted n i (hp ▸ hh)
    exact ⟨hn, hst.imp_right fun hb => ⟨hb.1, hm n i (hp ▸ hh) hb.2⟩⟩
  faulted v g hh := by
    obtain ⟨n, i, hg, hn, hcur, hst⟩ := h.faulted v g (hp ▸ hh)
    exact ⟨n, i, hg, by rw [hl]; exact hn, by rw [ha, hc]; exact hcur, by rw [hs]; exact hst⟩

/-- The AP goes on with the request it has. -/
theorem advance (h : CalmInv b s) {n : Nat} {i : SlotIndex} (hh : s.log.phase.held = some (n, i))
    (hd : s.log.phase.down = false) (hc : s.log.phase ≠ .claimed n i)
    (hh' : s'.log.phase.held = some (n, i)) (hd' : s'.log.phase.down = false)
    (hs : ∀ i, (s'.slots i).state = (s.slots i).state)
    (hcur : s'.currentRequestSlot = s.currentRequestSlot) : CalmInv b s' where
  held m j hm _ := by
    rw [hh'] at hm
    cases hm
    rw [hs]
    exact h.held n i hh hd
  current m j hm _ _ := by
    rw [hh'] at hm
    cases hm
    rw [hcur]
    exact h.current n i hh hd hc
  halted m j hm := by simp [hm] at hd'
  faulted v g hm := by simp [hm] at hd'

/-- The AP is done with the request it had. -/
theorem away (hp : s.log.phase = .away) : CalmInv b s := by
  constructor <;> simp [hp]

theorem missReply_of_eq {slot slot' : ApRequestSlot} (h : MissReply b slot)
    (hq : slot'.request = slot.request) (hr : slot'.reply = slot.reply) : MissReply b slot' where
  unregistered := by rw [hq]; exact h.unregistered
  resultCode := by rw [hq, hr]; exact h.resultCode
  faultCode := by rw [hr]; exact h.faultCode

/-- A change of fields of slot `i`. -/
theorem setSlot (h : CalmInv b s) {i : SlotIndex} {f : ApRequestSlot → ApRequestSlot}
    (hs : (f (s.slots i)).state = (s.slots i).state)
    (hm : ∀ n, s.log.phase = .halted n i → MissReply b (s.slots i) → MissReply b (f (s.slots i))) :
    CalmInv b (s.setSlot i f) := by
  refine h.keep rfl (fun _ => rfl) (fun j => ?_) (fun n j hp hmiss => ?_) rfl rfl
  · by_cases hj : j = i
    · subst hj
      simpa using hs
    · simp [hj]
  · by_cases hj : j = i
    · subst hj
      simpa using hm n hp hmiss
    · simpa [hj] using hmiss

/-- The slot that the AP works on, or stopped on. -/
theorem held_state (h : CalmInv b s) {n : Nat} {i : SlotIndex}
    (hh : s.log.phase.held = some (n, i)) :
    (s.slots i).state = .running ∨ (s.slots i).state = .badOp ∨ (s.slots i).state = .fault := by
  cases hd : s.log.phase.down with
  | false => exact Or.inl (h.held n i hh hd)
  | true =>
    cases hp : s.log.phase with
    | halted m j =>
      rw [hp] at hh
      cases hh
      rcases (h.halted _ _ hp).2 with hr | hb
      · exact Or.inl hr
      · exact Or.inr (Or.inl hb.1)
    | faulted v g =>
      rw [hp] at hh
      obtain ⟨m, j, hg, -, -, hst⟩ := h.faulted v g hp
      cases hg
      cases hh
      rcases hst with hr | hf
      · exact Or.inl hr
      · exact Or.inr (Or.inr hf)
    | _ => simp [hp] at hd

/-- A change of a slot that the AP does not work on. -/
theorem other (h : CalmInv b s) {i : SlotIndex} (hi : ∀ n, s.log.phase.held ≠ some (n, i))
    (hp : s'.log.phase = s.log.phase) (hl : ∀ j ≠ i, s'.log.latest j = s.log.latest j)
    (hs : ∀ j ≠ i, s'.slots j = s.slots j) (hc : s'.currentRequestSlot = s.currentRequestSlot)
    (ha : s'.apState = s.apState) : CalmInv b s' where
  held n j hh hd := by
    have hj : j ≠ i := fun he => hi n (he ▸ hp ▸ hh)
    rw [hs j hj]
    exact h.held n j (hp ▸ hh) (hp ▸ hd)
  current n j hh hd hn := by
    rw [hc]
    exact h.current n j (hp ▸ hh) (hp ▸ hd) (hp ▸ hn)
  halted n j hh := by
    have hj : j ≠ i := fun he => hi n (by rw [← hp, hh, he]; rfl)
    rw [hs j hj, hl j hj]
    exact h.halted n j (hp ▸ hh)
  faulted v g hh := by
    obtain ⟨n, j, hg, hn, hcur, hst⟩ := h.faulted v g (hp ▸ hh)
    have hj : j ≠ i := fun he => hi n (by rw [← hp, hh, hg, he]; rfl)
    exact ⟨n, j, hg, by rw [hl j hj]; exact hn, by rw [ha, hc]; exact hcur, by rw [hs j hj]; exact hst⟩

/-- **The AP keeps it**, if it only faults in handlers. -/
theorem apAct (hm : MachineInv b c0 s) (h : CalmInv b s) (ha : ApAct b c0 s s')
    (hf : ∀ v, s' = s.note (.faulted v) → s.log.phase.inHandler = true) : CalmInv b s' := by
  cases ha with
  | own hs =>
    exact h.keep (by rw [hs.log]) (fun _ => by rw [hs.log]) (fun _ => by rw [hs.slots])
      (fun _ _ _ hmiss => by rw [hs.slots]; exact hmiss) hs.current hs.apState
  | dropCurrent hp =>
    refine { h with current := fun n i hh hd _ => ?_, faulted := fun v g hg => ?_ }
    · have hh : s.log.phase.held = some (n, i) := hh
      have hd : s.log.phase.down = false := hd
      cases hph : s.log.phase <;> simp [hph] at hp hh hd
    · have hg : s.log.phase = .faulted v g := hg
      simp [hg] at hp
  | goOnline => exact h.keep rfl (fun _ => rfl) (fun _ => rfl) (fun _ _ _ hmiss => hmiss) rfl rfl
  | backOnline hd =>
    refine { h with faulted := fun v g hg => ?_ }
    have hg : s.log.phase = .faulted v g := hg
    simp [hg] at hd
  | claim i hp hi =>
    refine ⟨?_, ?_, ?_, ?_⟩
    · rintro n j ⟨⟩ -
      simp
    · rintro n j ⟨⟩ - hn
      exact absurd rfl hn
    · rintro n j ⟨⟩
    · rintro v g ⟨⟩
  | reply f hh hd => exact h.setSlot rfl fun n hp => by simp [hp] at hd
  | metrics v hh hd => exact h.setSlot rfl fun n hp => by simp [hp] at hd
  | @take n i hp =>
    have hr := h.held n i (by simp [hp]) (by simp [hp])
    refine ⟨?_, ?_, ?_, ?_⟩
    · rintro m j ⟨⟩ -
      exact hr
    · rintro m j ⟨⟩ - -
      rfl
    · rintro m j ⟨⟩
    · rintro v g ⟨⟩
  | @readService n i hp =>
    exact h.advance (n := n) (i := i) (by simp [hp]) (by simp [hp]) (by simp [hp]) rfl rfl
      (fun _ => rfl) rfl
  | @lookUp n i svc hp =>
    exact h.advance (n := n) (i := i) (by simp [hp]) (by simp [hp]) (by simp [hp]) rfl rfl
      (fun _ => rfl) rfl
  | @increment n i svc ifc v hp =>
    exact h.advance (n := n) (i := i) (by simp [hp]) (by simp [hp]) (by simp [hp]) rfl rfl
      (fun _ => rfl) rfl
  | @count n i hd v hp =>
    rcases hp with ⟨svc, ifc, hp, -⟩ | ⟨hp, -⟩ <;>
    exact h.advance (n := n) (i := i) (by simp [hp]) (by simp [hp]) (by simp [hp]) rfl rfl
      (fun _ => rfl) rfl
  | @run n i r hp =>
    refine h.advance (n := n) (i := i) (by simp [hp]) (by simp [hp]) (by simp [hp]) rfl rfl
      (fun j => ?_) rfl
    by_cases hj : j = i
    · subst hj
      simp
    · simp [hj]
  | complete hp => exact away rfl
  | reject hp => exact away rfl
  | @rereadService n i svc ifc hp =>
    exact h.advance (n := n) (i := i) (by simp [hp]) (by simp [hp]) (by simp [hp]) rfl rfl
      (fun _ => rfl) rfl
  | @miss n i svc hp =>
    exact h.advance (n := n) (i := i) (by simp [hp]) (by simp [hp]) (by simp [hp]) rfl rfl
      (fun _ => rfl) rfl
  | @halt n i svc ifc hp =>
    have hh : s.log.phase.held = some (n, i) := by simp [hp]
    -- the slot is the latest one that the AP has in hand, since it was running
    have hr := h.held n i hh (by simp [hp])
    have hlast := ((hm.slot i).running hr).2
    rw [hh] at hlast
    cases hlast
    refine ⟨?_, ?_, ?_, ?_⟩
    · rintro m j ⟨⟩ hd
      cases hd
    · rintro m j ⟨⟩ hd
      cases hd
    · rintro m j ⟨⟩
      exact ⟨rfl, Or.inl hr⟩
    · rintro v g ⟨⟩
  | @badOp n i hp hr hmiss =>
    have hph : (s.setState i .badOp).log.phase = .halted n i := hp
    refine ⟨fun m j hh hd => ?_, fun m j hh hd => ?_, fun m j hh => ?_, fun v g hg => ?_⟩
    · rw [hph] at hd
      cases hd
    · rw [hph] at hd
      cases hd
    · rw [hph] at hh
      cases hh
      exact ⟨(h.halted _ _ hp).1, Or.inr ⟨by simp, by
        rw [Machine.setSlot_slots_self]
        exact missReply_of_eq hmiss rfl rfl⟩⟩
    · rw [hph] at hg
      cases hg
  | fault v =>
    -- the fault hits a handler, so a slot is in hand, and `current_request_slot`
    -- names it: it was stored after the claim
    have hin := hf v rfl
    refine ⟨fun n i hh hd => (by cases hd), fun n i hh hd => (by cases hd), fun n i hh => (by cases hh), ?_⟩
    rintro v' g ⟨⟩
    have hsome : ∃ n i, s.log.phase.held = some (n, i) ∧ s.log.phase.down = false ∧
        s.log.phase ≠ .claimed n i := by
      cases hp : s.log.phase <;> simp [hp] at hin <;> simp
    obtain ⟨n, i, hh, hd, hn⟩ := hsome
    have hr := h.held n i hh hd
    have hlast := ((hm.slot i).running hr).2
    rw [hh] at hlast
    cases hlast
    exact ⟨_, i, hh, rfl, fun _ => h.current _ i hh hd hn, Or.inl hr⟩
  | faultVector hp =>
    exact h.keep rfl (fun _ => rfl) (fun _ => rfl) (fun _ _ _ hmiss => hmiss) rfl rfl
  | faultReply f hp hc ha hs => exact h.setSlot rfl fun n hh => by simp [hh] at hp
  | @faultSlot v g i hp hc ha hs =>
    -- the slot that the dispatcher is about to mark is the one the fault is charged to
    obtain ⟨n, j, hg, hn, hcur, hst⟩ := h.faulted v g hp
    have hij : j = i := Option.some.inj ((hcur ha).symm.trans hc)
    subst hij
    have hph : (s.setState j .fault).log.phase = .faulted v g := hp
    refine ⟨fun m j hh hd => ?_, fun m j hh hd => ?_, fun m j hh => ?_, fun v' g' hg' => ?_⟩
    · rw [hph] at hd
      cases hd
    · rw [hph] at hd
      cases hd
    · rw [hph] at hh
      cases hh
    · rw [hph] at hg'
      cases hg'
      exact ⟨n, j, hg, hn, hcur, Or.inr (by simp)⟩
  | @post v g hp hv =>
    refine ⟨fun m j hh hd => ?_, fun m j hh hd => ?_, fun m j hh => ?_, fun v' g' hg' => ?_⟩
    · have hd : s.log.phase.down = false := hd
      simp [hp] at hd
    · have hd : s.log.phase.down = false := hd
      simp [hp] at hd
    · have hh : s.log.phase = .halted m j := hh
      rw [hp] at hh
      cases hh
    · obtain ⟨n, i, hg, hn, -, hst⟩ := h.faulted v' g' hg'
      exact ⟨n, i, hg, hn, fun hne => absurd rfl hne, hst⟩

/-- **The BSP keeps it.** -/
theorem bspAct (hk : k.calm) (hm : MachineInv b c0 s) (h : CalmInv b s)
    (ha : BspAct b k c0 s s') : CalmInv b s' := by
  have hstrong := k.calm_strong hk
  -- a slot in any other state is not the AP's
  have hfree : ∀ {i}, (s.slots i).state ≠ .running → (s.slots i).state ≠ .badOp →
      (s.slots i).state ≠ .fault → ∀ n, s.log.phase.held ≠ some (n, i) := by
    intro i hr hb hf n hh
    rcases h.held_state hh with h' | h' | h'
    · exact hr h'
    · exact hb h'
    · exact hf h'
  have hposted : s.apState = .faulted → ∀ n i, s.log.phase ≠ .halted n i := by
    intro hf n i hh
    obtain ⟨v, g, hp, -⟩ := hm.faulted hf
    rw [hh] at hp
    cases hp
  cases ha with
  | own hs =>
    exact h.keep (by rw [hs.log]) (fun _ => by rw [hs.log]) (fun _ => by rw [hs.slots])
      (fun _ _ _ hmiss => by rw [hs.slots]; exact hmiss) hs.current hs.apState
  | mark e he =>
    refine h.keep (Log.SameAp.cons (Event.not_byAp_of_isMark he) s.log).phase (fun i => ?_)
      (fun _ => rfl) (fun _ _ _ hmiss => hmiss) rfl rfl
    cases e <;> first | rfl | cases he
  | began =>
    exact h.keep rfl (fun _ => rfl) (fun _ => rfl) (fun _ _ _ hmiss => hmiss) rfl rfl
  | overdue | timeout | restoreHandled | restoreCounter => exact absurd hk (by assumption)
  | reset i hset hc =>
    refine h.other (i := i) (fun n hh => ?_) rfl (fun _ _ => rfl) (fun j hj => by simp [hj]) rfl rfl
    obtain ⟨-, p, hp⟩ := hm.log.held n i hh
    have hn := (hm.log.stamp _ _ _ _ hp).1
    have hle := hm.log.le_latest _ _ _ _ hp
    have hdone := (hc hk (by omega)).1
    exact hfree (by simp [hdone]) (by simp [hdone]) (by simp [hdone]) n hh
  | @prepare i w hw hi hc =>
    have he := hc hk
    exact h.other (i := i) (hfree (by simp [he]) (by simp [he]) (by simp [he])) rfl (fun _ _ => rfl)
      (fun j hj => by simp [hj]) rfl rfl
  | @publish i p st hi hr hs hc =>
    have he := hc hk
    refine h.other (i := i) (hfree (by simp [he]) (by simp [he]) (by simp [he])) rfl (fun j hj => ?_)
      (fun j hj => by simp [publishState, hj]) rfl rfl
    exact if_neg (Ne.symm hj)
  | waitLoops i v => exact h.setSlot rfl fun n _ hmiss => missReply_of_eq hmiss rfl rfl
  | stopReply i v hs => exact h.setSlot rfl fun n hp => absurd hp (hposted (hs hstrong).1 n i)
  | stopFault i hs =>
    obtain ⟨v, g, hp, -⟩ := hm.faulted (hs hstrong).1
    obtain ⟨n, j, hg, hn, hcur, hst⟩ := h.faulted v g hp
    have hph : (s.setState i .fault).log.phase = .faulted v g := hp
    refine ⟨fun m j hh hd => ?_, fun m j hh hd => ?_, fun m j hh => ?_, fun v' g' hg' => ?_⟩
    · rw [hph] at hd
      cases hd
    · rw [hph] at hd
      cases hd
    · rw [hph] at hh
      cases hh
    · rw [hph] at hg'
      cases hg'
      refine ⟨n, j, hg, hn, hcur, ?_⟩
      by_cases hji : j = i
      · subst hji
        simp
      · simpa [hji] using hst
  | @stopSkip i hs hc =>
    have hp := hc hk
    exact h.other (i := i) (hfree (by simp [hp]) (by simp [hp]) (by simp [hp])) rfl (fun _ _ => rfl)
      (fun j hj => by simp [hj]) rfl rfl
  | finish i v =>
    have hset : CalmInv b (s.setMetrics i fun m => { m with waitLoops := v }) :=
      h.setSlot rfl fun n _ hmiss => missReply_of_eq hmiss rfl rfl
    exact hset.keep rfl (fun _ => rfl) (fun _ => rfl) (fun _ _ _ hmiss => hmiss) rfl rfl

end CalmInv

end VibeKernel

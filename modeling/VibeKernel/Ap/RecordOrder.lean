import VibeKernel.Ap.Executions
import VibeKernel.Ap.Issued
import Mathlib.Data.List.Forall2

/-!
# The order of recording

Between the executions and the history stands one queue: the requests that ran and are not recorded.
Each of them is `DONE` in its slot, or the AP is about to complete it. The BSP takes from the queue
what `ClearToRecord` lets it take, and that is the head.

`orderly` collects the runs in which the BSP lets only the head be taken: no slot is done after its
visit read it once, while another that is done waits.
-/

namespace VibeKernel

open Conc

/-! ## The queue -/

/-- The recorded requests that were `DONE`, oldest first. -/
def Log.doneCompletions (l : Log) : List Log.Completion :=
  l.completions.filter fun c => c.slot.state == .done

/-- Publication `n` ran and is not recorded. -/
def Awaiting (s : Machine) (n : Nat) : Prop :=
  (∃ i, s.log.latest i = n ∧ s.log.Unrecorded i ∧ (s.slots i).state = .done) ∨
    ∃ i r, s.log.phase = .ran n i r

/-- The completion shows what the run wrote. -/
def ShowsRun (b : Build) (c : Log.Completion) (x : Nat × HandlerRun) : Prop :=
  x.1 = c.n ∧ Matches b x.2 c.slot

/-- The recorded requests are the first that ran. -/
structure RecordOrder (b : Build) (c0 : UInt32) (s : Machine) : Prop extends Issued s where
  counter : s.log.began = true → s.log.streamCounter = c0
  order : ∃ xs ys, s.log.executions = xs ++ ys ∧ List.Forall₂ (ShowsRun b) s.log.doneCompletions xs ∧
    ∀ y ∈ ys, Awaiting s y.1

section Step

variable {b : Build} {k : Know} {h0 c0 : UInt32} {s s' : Machine}

theorem RecordOrder.nil (h : s.log = []) : RecordOrder b c0 s := by
  refine ⟨.nil h, ?_, ?_⟩ <;> simp [h, Log.doneCompletions]

/-- The queue is as it was. -/
theorem RecordOrder.keep (h : RecordOrder b c0 s) (hissued : Issued s')
    (hstream : s.log.SameStream s'.log) (hex : s'.log.executions = s.log.executions)
    (hran : ∀ n i r, s.log.phase = .ran n i r → s'.log.phase = .ran n i r)
    (hdone : ∀ i, s.log.Unrecorded i → (s.slots i).state = .done → (s'.slots i).state = .done) :
    RecordOrder b c0 s' where
  toIssued := hissued
  counter := by rw [hstream.began, hstream.streamCounter]; exact h.counter
  order := by
    obtain ⟨xs, ys, he, hxs, hys⟩ := h.order
    refine ⟨xs, ys, hex.trans he, ?_, fun y hy => ?_⟩
    · rw [Log.doneCompletions, hstream.completions]
      exact hxs
    · rcases hys y hy with ⟨i, hn, hu, hd⟩ | ⟨i, r, hp⟩
      · exact Or.inl ⟨i, (hstream.latest i).trans hn, (hstream.unrecorded i).2 hu, hdone i hu hd⟩
      · exact Or.inr ⟨i, r, hran _ _ _ hp⟩

/-- The AP runs a handler: the request goes to the end of the queue. -/
theorem RecordOrder.ran (h : RecordOrder b c0 s) {n : Nat} {i : SlotIndex} {r : HandlerRun}
    (hissued : Issued ((s.setMetrics i fun m => { m with handledCount := r.handledCount }).note
      (.ran n i r))) (hp : s.log.phase = .counted n i r.handler) :
    RecordOrder b c0 ((s.setMetrics i fun m => { m with handledCount := r.handledCount }).note
      (.ran n i r)) := by
  have hst : ∀ j, ((s.setMetrics i fun m => { m with handledCount := r.handledCount }).slots j).state
      = (s.slots j).state := state_setSlot rfl
  obtain ⟨xs, ys, he, hxs, hys⟩ := h.order
  refine ⟨hissued, h.counter, xs, ys ++ [(n, r)], by simp [he], hxs, fun y hy => ?_⟩
  rcases List.mem_append.1 hy with hy | hy
  · rcases hys y hy with ⟨j, hn, hu, hd⟩ | ⟨j, r', hp'⟩
    · refine Or.inl ⟨j, hn, hu, ?_⟩
      rw [Machine.note_slots, hst]
      exact hd
    · rw [hp] at hp'
      cases hp'
  · obtain rfl := List.mem_singleton.1 hy
    exact Or.inr ⟨i, r, rfl⟩

/-- The AP completes a request: it stays where it is in the queue. -/
theorem RecordOrder.complete (hm : MachineInv b c0 s) (h : RecordOrder b c0 s) {n : Nat} {i : SlotIndex}
    {r : HandlerRun} (hissued : Issued ((s.setState i .done).note (.completed n i)))
    (hp : s.log.phase = .ran n i r) (hr : (s.slots i).state = .running) :
    RecordOrder b c0 ((s.setState i .done).note (.completed n i)) := by
  have hlat : s.log.latest i = n := by
    have hh := ((hm.slot i).running hr).2
    rw [hp] at hh
    exact (Prod.mk.inj (Option.some.inj hh)).1.symm
  have hu : s.log.Unrecorded i := by
    obtain ⟨p, hpub, -⟩ := (hm.slot i).header (Or.inr hr)
    have := hm.latest_ne_zero hpub
    exact ⟨by rw [h.base]; omega, h.toIssued.ne_latest hm hpub (Or.inr hr)⟩
  obtain ⟨xs, ys, he, hxs, hys⟩ := h.order
  refine ⟨hissued, h.counter, xs, ys, he, hxs, fun y hy => Or.inl ?_⟩
  rcases hys y hy with ⟨j, hn, hu, hd⟩ | ⟨j, r', hp'⟩
  · refine ⟨j, hn, hu, ?_⟩
    rw [Machine.note_slots, state_setState]
    split
    · rfl
    · exact hd
  · rw [hp] at hp'
    obtain ⟨rfl, -, -⟩ := ApPhase.ran.inj hp'
    exact ⟨i, hlat, hu, by simp⟩

/-- **The AP keeps the queue.** -/
theorem RecordOrder.apAct (hm : MachineInv b c0 s) (hc : CalmInv b s) (h : RecordOrder b c0 s)
    {bound : Nat} (hok : Smooth bound .ap s s') (ha : ApAct b c0 s s') : RecordOrder b c0 s' := by
  have hissued := h.toIssued.touch ha.touch
  have hstream := ha.touch.log.toSameStream
  have hdone : ∀ i, s.log.Unrecorded i → (s.slots i).state = .done → (s'.slots i).state = .done :=
    fun i _ hd => by rw [ha.slots_of_done hm hd]; exact hd
  cases ha with
  | own hs =>
    exact h.keep hissued hstream (by rw [hs.log]) (by rw [hs.log]; exact fun _ _ _ => id) hdone
  | dropCurrent | goOnline | backOnline | reply | metrics | badOp | faultVector | faultReply | faultSlot =>
    exact h.keep hissued hstream rfl (fun _ _ _ => id) hdone
  | claim i hp | take hp | readService hp | lookUp hp | increment v hp | rereadService hp | miss hp
  | halt hp =>
    exact h.keep hissued hstream rfl (by simp [hp]) hdone
  | count v hp =>
    rcases hp with ⟨svc, ifc, hp, -⟩ | ⟨hp, -⟩ <;> exact h.keep hissued hstream rfl (by simp [hp]) hdone
  | run hp => exact h.ran hissued hp
  | complete hp hr => exact h.complete hm hissued hp hr
  | reject hp hr => exact absurd (hc.held _ _ (by rw [hp]; rfl) (by rw [hp]; rfl)) hr
  | fault v => exact absurd hok not_smooth_fault
  | post hp => exact h.keep hissued hstream rfl (fun _ _ _ => id) hdone

/-! ## The BSP takes the head -/

/-- A request that is done in its slot has one run among the executions. -/
theorem mem_executions_of_done (hm : MachineInv b c0 s) {i : SlotIndex} (h0 : s.log.latest i ≠ 0)
    (hd : (s.slots i).state = .done) :
    ∃ r, (s.log.latest i, r) ∈ s.log.executions ∧ s.log.runsOf (s.log.latest i) = [r] ∧
      Matches b r (s.slots i) := by
  obtain ⟨-, -, r, hr, hmatch⟩ := (hm.slot i).done h0 hd
  exact ⟨r, Log.mem_executions.2 (by rw [hr]; simp), hr, hmatch⟩

/-- What may be recorded now ran before everything else in the queue. -/
theorem runIndex_lt_of_awaiting {i : SlotIndex} (hclear : ClearToRecord i s)
    (hd : (s.slots i).state = .done) {m : Nat} (hm : Awaiting s m) (hne : s.log.latest i ≠ m) :
    s.log.runIndex (s.log.latest i) < s.log.runIndex m := by
  rcases hm with ⟨j, rfl, hu, hj⟩ | ⟨j, r, hp⟩
  · refine hclear hd j ?_ hu hj
    rintro rfl
    exact hne rfl
  · exact Log.runIndex_lt_of_ran hp hne

/-- The head of the queue is the request that may be recorded. -/
theorem head_of_clear (hm : MachineInv b c0 s) (hex : ExecInv h0 c0 s) {i : SlotIndex}
    (hu : s.log.Unrecorded i) (hclear : ClearToRecord i s) (hd : (s.slots i).state = .done)
    {xs ys : List (Nat × HandlerRun)} (he : s.log.executions = xs ++ ys)
    (hxs : List.Forall₂ (ShowsRun b) s.log.doneCompletions xs) (hys : ∀ y ∈ ys, Awaiting s y.1) :
    ∃ r zs, ys = (s.log.latest i, r) :: zs ∧ Matches b r (s.slots i) := by
  have hpos : s.log.latest i ≠ 0 := by
    have := hu.1
    omega
  obtain ⟨r, hmem, hruns, hmatch⟩ := mem_executions_of_done hm hpos hd
  -- the run of slot `i` is among those that are still awaited
  have hnot : (s.log.latest i, r) ∉ xs := by
    intro hx
    obtain ⟨a, ha, hxa⟩ := List.getElem_of_mem hx
    have hlen := hxs.length_eq
    have hshow : ShowsRun b (s.log.doneCompletions.get ⟨a, by omega⟩) (xs.get ⟨a, ha⟩) := hxs.get _ _
    rw [show xs.get ⟨a, ha⟩ = (s.log.latest i, r) from hxa] at hshow
    exact hu.2 _ (List.mem_of_mem_filter (List.get_mem _ _)) hshow.1.symm
  have hin : (s.log.latest i, r) ∈ ys := by
    rw [he] at hmem
    exact (List.mem_append.1 hmem).resolve_left hnot
  cases ys with
  | nil => cases hin
  | cons y zs =>
    have hhead : s.log.runIndex y.1 = xs.length + 1 :=
      Log.runIndex_of_executions hex.once (r := y.2) (by rw [he]; simp)
    -- an earlier one would still be in a slot that was looked at, with a lower number
    have hy : s.log.latest i = y.1 := by
      by_contra hne
      have hlt := runIndex_lt_of_awaiting hclear hd (hys y (by simp)) hne
      obtain ⟨a, ha, hya⟩ := List.getElem_of_mem hin
      have hat : s.log.runIndex (s.log.latest i) = (xs.length + a) + 1 :=
        Log.runIndex_of_executions hex.once (by
          rw [he, List.getElem?_append_right (by omega), Nat.add_sub_cancel_left,
            List.getElem?_eq_getElem ha, hya])
      omega
    have hr : y.2 = r := by
      have hy2 : (y.1, y.2) ∈ s.log.executions := by simp [he]
      rw [Log.mem_executions, ← hy, hruns] at hy2
      exact List.mem_singleton.1 hy2
    exact ⟨r, zs, by rw [hy, ← hr], hmatch⟩

/-- A request is recorded. -/
theorem RecordOrder.finish (hm : MachineInv b c0 s) (hex : ExecInv h0 c0 s) (h : RecordOrder b c0 s)
    {i : SlotIndex} (v : UInt32) (hfin : (s.slots i).state.finished = true) (hu : s.log.Unrecorded i)
    (hclear : ClearToRecord i s) : RecordOrder b c0 (finishStore i v s) := by
  have hst : ∀ j, ((finishStore i v s).slots j).state = (s.slots j).state :=
    state_setSlot (f := fun slot => { slot with metrics := { slot.metrics with waitLoops := v } }) rfl
  have hcompletions := Tally.completions_finishStore i v s
  have hpos : s.log.latest i ≠ 0 := by
    have := hu.1
    omega
  -- what waits in another slot still waits
  have hother : ∀ j, (s.log.latest j ≠ s.log.latest i) → s.log.Unrecorded j →
      (finishStore i v s).log.Unrecorded j := by
    intro j hne hj
    refine ⟨hj.1, fun c hc => ?_⟩
    rw [hcompletions, List.mem_append, List.mem_singleton] at hc
    rcases hc with hc | rfl
    · exact hj.2 c hc
    · exact fun he => hne he.symm
  refine ⟨h.toIssued.finish hm v hfin hu, h.counter, ?_⟩
  obtain ⟨xs, ys, he, hxs, hys⟩ := h.order
  have hexec : (finishStore i v s).log.executions = xs ++ ys := he
  rw [Log.doneCompletions, hcompletions, List.filter_append]
  by_cases hd : (s.slots i).state = .done
  · obtain ⟨r, zs, rfl, hmatch⟩ := head_of_clear hm hex hu hclear hd he hxs hys
    have hslot : ((Tally.completionOf i v s).slot.state == .done) = true := by
      simpa using hd
    refine ⟨xs ++ [(s.log.latest i, r)], zs, by rw [hexec]; simp, ?_, fun y hy => ?_⟩
    · rw [List.filter_singleton, hslot]
      refine List.rel_append hxs (.cons ⟨rfl, ?_⟩ .nil)
      exact hmatch.of_eq rfl rfl rfl
    · have hne : y.1 ≠ s.log.latest i := by
        have honce := hex.once
        rw [he, List.map_append, List.map_cons] at honce
        have htail := (List.nodup_cons.1 (List.nodup_append.1 honce).2.1).1
        exact fun hy' => htail (List.mem_map.2 ⟨y, hy, hy'⟩)
      rcases hys y (by simp [hy]) with ⟨j, hn, hj, hjd⟩ | hp
      · exact Or.inl ⟨j, hn, hother j (hn ▸ hne) hj, by rw [hst]; exact hjd⟩
      · exact Or.inr hp
  · have hslot : ((Tally.completionOf i v s).slot.state == .done) = false := by
      simpa using hd
    refine ⟨xs, ys, hexec, ?_, fun y hy => ?_⟩
    · rw [List.filter_singleton, hslot]
      simpa [Log.doneCompletions] using hxs
    · rcases hys y hy with ⟨j, hn, hj, hjd⟩ | hp
      · refine Or.inl ⟨j, hn, hother j (fun heq => ?_) hj, by rw [hst]; exact hjd⟩
        obtain rfl := hm.log.latest_inj hpos heq.symm
        exact hd hjd
      · exact Or.inr hp

/-- A publication in a slot that holds nothing. -/
theorem RecordOrder.publish (hm : MachineInv b c0 s) (h : RecordOrder b c0 s) {i : SlotIndex}
    {plan : ApRequestPlan} {st : ApRequestStatus} (hempty : (s.slots i).state = .empty) :
    RecordOrder b c0 (publishState i plan st s) := by
  obtain ⟨xs, ys, he, hxs, hys⟩ := h.order
  refine ⟨h.toIssued.publish hm, h.counter, xs, ys, he, hxs, fun y hy => ?_⟩
  rcases hys y hy with ⟨j, hn, hu, hd⟩ | hp
  · have hji : j ≠ i := by
      rintro rfl
      rw [hempty] at hd
      cases hd
    refine Or.inl ⟨j, ?_, ?_, ?_⟩
    · simpa [publishState, Ne.symm hji] using hn
    · simpa [publishState, Log.Unrecorded, Ne.symm hji] using hu
    · simpa [publishState, hji] using hd
  · exact Or.inr hp

/-- A stream begins before anything was published. -/
theorem RecordOrder.begin (hm : MachineInv b c0 s) (hex : ExecInv h0 c0 s)
    (hnone : s.log.publications = 0) (plan : List ApRequestPlan) :
    RecordOrder b c0 (s.note (.streamBegan plan s.counterValue)) := by
  have hpub : ∀ n i p st, Event.published n i p st ∉ s.log := by
    intro n i p st hp
    have := hm.log.stamp _ _ _ _ hp
    omega
  have hclaims : ∀ n, n ∉ s.log.claims := by
    intro n hn
    obtain ⟨i, p, hp⟩ := hm.log.claimed n hn
    exact hpub _ _ _ _ hp
  have hruns : s.log.executions = [] := by
    refine List.eq_nil_iff_forall_not_mem.2 fun x hx => ?_
    have := Log.mem_executions.1 (show (x.1, x.2) ∈ s.log.executions from hx)
    rw [hm.log.runs x.1 (hclaims x.1)] at this
    cases this
  have hahead : s.log.phase.counterAhead = 0 := by
    have hheld : ∀ n i, s.log.phase.held ≠ some (n, i) := fun n i hh => hclaims n (hm.log.held n i hh).1
    cases hp : s.log.phase <;> simp_all
  refine ⟨⟨hnone, nofun, nofun⟩, fun _ => ?_, [], [], hruns, .nil, nofun⟩
  have hcounter := hex.counter
  rw [hruns, hahead] at hcounter
  simpa using hcounter

/-- **The BSP records the head of the queue.** -/
theorem RecordOrder.bspAct (ho : k.ordered) (hm : MachineInv b c0 s) (hex : ExecInv h0 c0 s)
    (h : RecordOrder b c0 s) (ha : BspAct b k c0 s s') : RecordOrder b c0 s' := by
  have hk := k.ordered_calm ho
  have hst := k.calm_strong hk
  have hissued := h.toIssued.bspAct hk hm ha
  -- a change of slot `i` that leaves the log alone
  have hslot : ∀ {i} {f : ApRequestSlot → ApRequestSlot}, Issued (s.setSlot i f) →
      (s.log.Unrecorded i → (s.slots i).state = .done → (f (s.slots i)).state = .done) →
      RecordOrder b c0 (s.setSlot i f) := by
    intro i f hi hdone
    refine h.keep hi (.refl _) rfl (fun _ _ _ => id) fun j hj hd => ?_
    by_cases hji : j = i
    · subst hji
      simpa using hdone hj hd
    · simpa [hji] using hd
  cases ha with
  | own hs =>
    exact h.keep hissued (by rw [hs.log]; exact .refl _) (by rw [hs.log])
      (by rw [hs.log]; exact fun _ _ _ => id)
      fun i _ hd => by rw [hs.slots]; exact hd
  | began plan hnone => exact .begin hm hex (hnone hk) plan
  | mark e he =>
    have hap := Log.SameAp.cons (Event.not_byAp_of_isMark he) s.log
    refine h.keep hissued ?_ (Log.executions_of_not_byAp (Event.not_byAp_of_isMark he) _)
      (fun n i r hp => hap.phase.trans hp) fun _ _ => id
    cases e <;> first | exact ⟨rfl, rfl, fun _ => rfl, rfl, rfl, rfl, rfl⟩ | exact nomatch he
  | overdue i hno | timeout i hno | restoreHandled v hno | restoreCounter v hno => exact absurd hk hno
  | reset i hr hc =>
    exact hslot hissued fun hu _ => absurd hu (hc hk (by have := hu.1; omega)).2
  | @prepare i w hw =>
    exact hslot hissued fun _ hd => (SlotStore.apply_state_of_isField hw (s.slots i)).trans hd
  | publish hi hr hs hc => exact h.publish hm (hc hk)
  | waitLoops i v | stopReply i v => exact hslot hissued fun _ => id
  | stopFault i hs => exact hslot hissued fun _ hd => absurd hd (hs hst).2.1
  | stopSkip i hs hc =>
    refine hslot hissued fun _ hd => ?_
    rw [hc hk] at hd
    cases hd
  | finish i v hfin hu hclear => exact h.finish hm hex v hfin hu (hclear ho)

/-! ## The order that the BSP reads -/

/-- The order of a slot that is done is the position of its run, above the count at the start. -/
theorem finishedSlotOrder_of_done (hm : MachineInv b c0 s) (hex : ExecInv h0 c0 s) {i : SlotIndex}
    (hi : s.log.latest i ≠ 0) (hd : (s.slots i).state = .done) :
    0 < s.log.runIndex (s.log.latest i) ∧
      (finishedSlotOrder i (s.slots i)).toNat = h0.toNat + s.log.runIndex (s.log.latest i) := by
  obtain ⟨r, hmem, -, hmatch⟩ := mem_executions_of_done hm hi hd
  obtain ⟨xs, ys, he⟩ := List.append_of_mem hmem
  have hread := hex.run xs _ r ys he
  have hat : s.log.runIndex (s.log.latest i) = xs.length + 1 :=
    Log.runIndex_of_executions hex.once (r := r) (by rw [he]; simp)
  have hne : (s.slots i).metrics.handledCount ≠ 0 := by
    intro h0
    have hcount := hread.handledCount
    rw [← hmatch.handledCount, h0, UInt32.toNat_zero] at hcount
    omega
  refine ⟨by omega, ?_⟩
  rw [finishedSlotOrder, if_pos ⟨hd, hne⟩, hmatch.handledCount, hread.handledCount, hat]
  omega

/-- **The code's order of the slots that are done is the order of their runs.** -/
theorem ExecInv.orderFaithful (hm : MachineInv b c0 s) (hex : ExecInv h0 c0 s) : OrderFaithful s := by
  intro i j hij hui huj hdi hdj hle
  have hi0 : s.log.latest i ≠ 0 := by
    have := hui.1
    omega
  have hj0 : s.log.latest j ≠ 0 := by
    have := huj.1
    omega
  obtain ⟨hposi, hoi⟩ := finishedSlotOrder_of_done hm hex hi0 hdi
  obtain ⟨hposj, hoj⟩ := finishedSlotOrder_of_done hm hex hj0 hdj
  rw [UInt32.lt_iff_toNat_lt] at hle
  have hne : s.log.runIndex (s.log.latest i) ≠ s.log.runIndex (s.log.latest j) := fun heq =>
    hij (hm.log.latest_inj hi0 (Log.runIndex_inj heq hposi))
  omega

end Step

/-! ## The runs -/

/-- Everything that can be known. -/
def Know.all : Know := ⟨True, True, True, id, id⟩

/-- Nothing times out or faults, and the BSP sees what is done before it records something else. -/
def orderlyAccess (bound : Nat) (t : Cpu) (s s' : Machine) : Prop :=
  Smooth bound t s s' ∧ (t = .ap → Unseen s s')

instance (i : SlotIndex) (l : Log) : Decidable (l.Unrecorded i) := by
  unfold Log.Unrecorded
  infer_instance

instance (s s' : Machine) : Decidable (Unseen s s') := by
  unfold Unseen
  infer_instance

instance (bound : Nat) (t : Cpu) (s s' : Machine) : Decidable (orderlyAccess bound t s s') := by
  unfold orderlyAccess
  infer_instance

/-- One stream whose history follows the order of execution. -/
def orderly (b : Build) (h0 c0 : UInt32) : Setting b false .all c0 where
  ok := orderlyAccess (2 ^ 32)
  extra s := ExecInv h0 c0 s ∧ RecordOrder b c0 s
  strong := trivial
  again_calm := nofun
  fault _ _ _ h := absurd h.1 not_smooth_fault
  overdue _ _ _ h := not_smooth_overdue h.1
  unseen _ _ _ h := h.2 rfl
  faithful _ hm hx _ := hx.1.orderFaithful hm
  extra_ap _ _ hm hc hx hok ha := ⟨hx.1.apAct hm hok.1 ha, hx.2.apAct hm (hc trivial) hok.1 ha⟩
  extra_bsp _ _ hm _ hx _ ha := ⟨hx.1.bspAct trivial ha, hx.2.bspAct trivial hm hx.1 ha⟩

theorem orderly_holds (b : Build) {plan : List ApRequestPlan} {s : Machine} (hs : Fresh s) {pc : ApPc}
    (hpc : pc.looping = true) :
    (orderly b s.requestHandledCount s.counterValue).outline.Holds
      (apConfig b false s (.ret pc) (runApRequestStream b plan)) := by
  refine (orderly b s.requestHandledCount s.counterValue).holds
    ⟨hs.machineInv, fun _ => hs.calmInv, .nil hs.log, .nil hs.log⟩ (apCut_of_looping hpc hs) ?_
  exact runApRequestStream_triple (orderly b s.requestHandledCount s.counterValue).bspEnv s
    ⟨fun _ => hs.settled, fun _ i => by rw [hs.log]; rfl, fun _ => by rw [hs.log]; rfl⟩

end VibeKernel

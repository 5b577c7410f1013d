import VibeKernel.Ap.Issued
import VibeKernel.Ap.Account

/-!
# A stop is contained

The AP stops at a request when its handler faults or when nobody handles it. `Outcome` says what a
finished slot tells about its publication then; it holds of every slot and of everything that came
back, whatever order the signs of the stop become visible in.
-/

namespace VibeKernel

open Conc

/-! ## Outcomes -/

/-- Publication `n` was stored after the AP had posted its fault. -/
def Log.PublishedAfterPost (l : Log) (n : Nat) : Prop :=
  ∃ later i p st earlier, l = later ++ Event.published n i p st :: earlier ∧
    Event.faultPosted ∈ earlier

theorem Log.PublishedAfterPost.cons {l : Log} {n : Nat} (h : l.PublishedAfterPost n) (e : Event) :
    Log.PublishedAfterPost (e :: l) n := by
  obtain ⟨later, i, p, st, earlier, rfl, hp⟩ := h
  exact ⟨e :: later, i, p, st, earlier, rfl, hp⟩

/-- What a slot in this state tells about publication `n`. -/
def Outcome (b : Build) (l : Log) (n : Nat) (slot : ApRequestSlot) : Prop :=
  match slot.state with
  | .done => n ∈ l.claims ∧ ∃ r, l.runsOf n = [r] ∧ Matches b r slot
  | .skipped => n ∉ l.claims
  | .badOp => (∃ i, l.phase = .halted n i) ∧ MissReply b slot
  | .fault => ∃ v h, l.phase = .faulted v h ∧ slot.reply.faultCode = v.toUInt32 ∧
      ((∃ i, h = some (n, i)) ∨ n ∉ l.claims ∧ l.PublishedAfterPost n)
  | .timeout => False
  | .empty | .pending | .running => True

section

variable {b : Build} {k : Know} {c0 : UInt32} {s s' : Machine} {l l' : Log} {n : Nat}
variable {slot slot' : ApRequestSlot}

/-- A slot that is not finished tells nothing. -/
theorem Outcome.of_unfinished (h : slot.state = .empty ∨ slot.state = .pending ∨ slot.state = .running) :
    Outcome b l n slot := by
  unfold Outcome
  rcases h with h | h | h <;> rw [h] <;> trivial

/-- A later log in which the publication fared no differently. -/
theorem Outcome.later (h : Outcome b l n slot) (hclaims : n ∈ l'.claims ↔ n ∈ l.claims)
    (hruns : l.runsOf n ≠ [] → l'.runsOf n = l.runsOf n)
    (hphase : l.phase.down = true → l'.phase = l.phase)
    (hpost : l.PublishedAfterPost n → l'.PublishedAfterPost n) : Outcome b l' n slot := by
  unfold Outcome at h ⊢
  split at h
  · obtain ⟨hc, r, hr, hm⟩ := h
    exact ⟨hclaims.2 hc, r, (hruns (by simp [hr])).trans hr, hm⟩
  · exact fun hc => h (hclaims.1 hc)
  · obtain ⟨⟨i, hp⟩, hm⟩ := h
    exact ⟨⟨i, (hphase (by rw [hp]; rfl)).trans hp⟩, hm⟩
  · obtain ⟨v, g, hp, hv, hg⟩ := h
    refine ⟨v, g, (hphase (by rw [hp]; rfl)).trans hp, hv, hg.imp_right fun hn => ?_⟩
    exact ⟨fun hc => hn.1 (hclaims.1 hc), hpost hn.2⟩
  · exact h
  · trivial
  · trivial
  · trivial

/-- A slot that shows the same. -/
theorem Outcome.of_eq (h : Outcome b l n slot) (hs : slot'.state = slot.state)
    (hq : slot'.request = slot.request) (hr : slot'.reply = slot.reply)
    (hm : slot'.metrics.handledCount = slot.metrics.handledCount) : Outcome b l n slot' := by
  unfold Outcome at h ⊢
  rw [hs, hr]
  split at h
  · obtain ⟨hc, r, hr', hmatch⟩ := h
    exact ⟨hc, r, hr', hmatch.of_eq hq hr hm⟩
  · exact h
  · exact ⟨h.1, ⟨by rw [hq]; exact h.2.unregistered, by rw [hr, hq]; exact h.2.resultCode,
      by rw [hr]; exact h.2.faultCode⟩⟩
  · exact h
  · exact h
  · trivial
  · trivial
  · trivial

/-- The AP changes nothing about a publication that is not waiting for it. -/
theorem Outcome.apAct (hm : MachineInv b c0 s) (hok : handlerFaults .ap s s') (ha : ApAct b c0 s s')
    (hn : ∀ i, (s.slots i).state = .pending → s.log.latest i ≠ n) (h : Outcome b s.log n slot) :
    Outcome b s'.log n slot := by
  cases ha with
  | own hs => rw [hs.log]; exact h
  | dropCurrent | goOnline | backOnline | reply | metrics | badOp | faultVector | faultReply | faultSlot =>
    exact h
  | claim i hp hi =>
    refine h.later ?_ (fun _ => rfl) (by simp [hp]) fun hpost => hpost.cons _
    simp [Ne.symm (hn i hi)]
  | take hp | readService hp | lookUp hp | increment v hp | rereadService hp | miss hp | halt hp
  | complete hp | reject hp =>
    exact h.later Iff.rfl (fun _ => rfl) (by simp [hp]) fun hpost => hpost.cons _
  | count v hp =>
    rcases hp with ⟨svc, ifc, hp, -⟩ | ⟨hp, -⟩ <;>
    exact h.later Iff.rfl (fun _ => rfl) (by simp [hp]) fun hpost => hpost.cons _
  | @run m i r hp =>
    refine h.later Iff.rfl (fun hne => ?_) (by simp [hp]) fun hpost => hpost.cons _
    have hmn : m ≠ n := by
      rintro rfl
      exact hne (hm.log.beforeRun m i (by rw [hp]; rfl) (by rw [hp]; rfl))
    simp [hmn]
  | fault v =>
    refine h.later Iff.rfl (fun _ => rfl) (fun hd => ?_) fun hpost => hpost.cons _
    have hin := handlerFaults_fault hok
    cases hp : s.log.phase <;> simp [hp] at hd hin
  | post => exact h.later Iff.rfl (fun _ => rfl) (fun _ => rfl) fun hpost => hpost.cons _

/-- Nor does what the BSP notes. -/
theorem Outcome.bspNote {e : Event} (he : e.byAp = false) (h : Outcome b l n slot) :
    Outcome b (e :: l) n slot :=
  have hap := Log.SameAp.cons he l
  h.later (by rw [hap.claims]) (fun _ => hap.runsOf n) (fun _ => hap.phase) fun hpost => hpost.cons e

/-! ## The outcomes of a run -/

/-- Every slot and every completion tells the truth. -/
structure Outcomes (b : Build) (s : Machine) : Prop extends Issued s where
  slot : ∀ i, s.log.latest i ≠ 0 → Outcome b s.log (s.log.latest i) (s.slots i)
  completion : ∀ c ∈ s.log.completions, Outcome b s.log c.n c.slot
  posted : s.apState = .faulted → Event.faultPosted ∈ s.log

theorem Outcomes.of_fresh (h : Fresh s) : Outcomes b s := by
  refine ⟨.nil h.log, ?_, ?_, fun hf => absurd hf h.up.1⟩ <;> simp [h.log]

/-- The slot that an access of the AP finishes. -/
theorem Outcome.finishes (hm : MachineInv b c0 s) (hc : CalmInv b s) (ha : ApAct b c0 s s')
    {j : SlotIndex} (hj : (s.slots j).state = .pending ∨ (s.slots j).state = .running) :
    Outcome b s'.log (s.log.latest j) (s'.slots j) := by
  have hout : ∀ {l}, Outcome b l (s.log.latest j) (s.slots j) := .of_unfinished (Or.inr hj)
  -- an access that leaves the state of slot `j` alone
  have hsame : ∀ {l}, (s'.slots j).state = (s.slots j).state → Outcome b l (s.log.latest j) (s'.slots j) :=
    fun he => .of_unfinished (Or.inr (he ▸ hj))
  have hlater := hm.apAct ha
  cases ha with
  | own hs => rw [hs.slots]; exact hout
  | claim i hp hi =>
    by_cases hji : j = i
    · subst hji
      exact .of_unfinished (by simp)
    · simpa [hji] using hout
  | reply | metrics | faultReply => exact hsame (state_setSlot rfl j)
  | run => exact hsame (by rw [Machine.note_slots]; exact state_setSlot rfl j)
  | @complete n i r hp hr =>
    by_cases hji : j = i
    · subst hji
      obtain ⟨p, hpub, -⟩ := (hm.slot j).header hj
      obtain ⟨hclaimed, -, hrun⟩ := (hlater.slot j).done (hm.latest_ne_zero hpub) (by simp)
      unfold Outcome
      simp only [Machine.note_slots, Machine.setSlot_slots_self]
      exact ⟨hclaimed, by simpa using hrun⟩
    · simpa [hji] using hout
  | @badOp n i hp hr hmiss =>
    by_cases hji : j = i
    · subst hji
      obtain ⟨hlat, -⟩ := hc.halted n j hp
      unfold Outcome
      simp only [Machine.setSlot_slots_self]
      exact ⟨⟨j, by rw [hlat]; exact hp⟩, hmiss.unregistered, hmiss.resultCode, hmiss.faultCode⟩
    · simpa [hji] using hout
  | @faultSlot v g i hp hcur ha hs hcode =>
    by_cases hji : j = i
    · subst hji
      obtain ⟨n, i', hg, hlat, hi, hst⟩ := hc.faulted v g hp
      obtain rfl := Option.some.inj ((hi ha).symm.trans hcur)
      have hrun : (s.slots i').state = .running := by
        rcases hst with hr | hf
        · exact hr
        · simp [hf] at hj
      unfold Outcome
      simp only [Machine.setSlot_slots_self]
      exact ⟨v, g, hp, hcode hrun, Or.inl ⟨i', by rw [hg, hlat]⟩⟩
    · simpa [hji] using hout
  | _ => exact hout

/-- **The AP keeps the outcomes**, if it only faults in handlers. -/
theorem Outcomes.apAct (hm : MachineInv b c0 s) (hc : CalmInv b s) (h : Outcomes b s)
    (hok : handlerFaults .ap s s') (ha : ApAct b c0 s s') : Outcomes b s' := by
  have htouch := ha.touch
  refine ⟨h.toIssued.touch htouch, fun j h0 => ?_, fun c hcm => ?_, ?_⟩
  · rw [htouch.log.latest] at h0 ⊢
    by_cases hj : (s.slots j).state = .pending ∨ (s.slots j).state = .running
    · exact .finishes hm hc ha hj
    · rw [not_or] at hj
      rw [ha.keep hc hj.1 hj.2]
      refine (h.slot j h0).apAct hm hok ha fun i hi he => ?_
      obtain rfl := hm.log.latest_inj h0 he.symm
      exact hj.1 hi
  · rw [htouch.log.completions] at hcm
    refine (h.completion c hcm).apAct hm hok ha fun i hi he => ?_
    obtain ⟨-, p, hp⟩ := hm.pending i hi
    exact h.toIssued.ne_latest hm hp (Or.inl hi) c hcm he.symm
  · cases ha with
    | own hs => rw [hs.apState, hs.log]; exact h.posted
    | backOnline | halt => exact nofun
    | post => exact fun _ => List.mem_cons_self
    | dropCurrent | goOnline | reply | metrics | badOp | faultVector | faultReply | faultSlot =>
      exact h.posted
    | _ => exact fun hf => List.mem_cons_of_mem _ (h.posted hf)

/-- What the BSP stores when a publication ends. -/
theorem Outcome.publish (hm : MachineInv b c0 s) (h : Outcomes b s) {i : SlotIndex}
    {plan : ApRequestPlan} {st : ApRequestStatus}
    (hs : st = .pending ∧ s.error = .ok ∨ st = .skipped ∧ (s.log.phase.down = true ∨ s.error ≠ .ok) ∨
      st = .fault ∧ s.apState = .faulted ∧ (s.slots i).reply.faultCode = s.faultVector.toUInt32) :
    Outcome b (publishState i plan st s).log (s.log.publications + 1)
      ((publishState i plan st s).slots i) := by
  have hnew : s.log.publications + 1 ∉ s.log.claims := by
    intro hmem
    obtain ⟨i', p, hp⟩ := hm.log.claimed _ hmem
    have := (hm.log.stamp _ _ _ _ hp).2
    omega
  rcases hs with ⟨rfl, -⟩ | ⟨rfl, -⟩ | ⟨rfl, hf, hv⟩
  · exact .of_unfinished (by simp [publishState])
  · unfold Outcome
    simpa [publishState] using hnew
  · obtain ⟨v, g, hp, hvec⟩ := hm.faulted hf
    unfold Outcome
    simp only [publishState, Machine.note_slots, Machine.setSlot_slots_self]
    refine ⟨v, g, hp, by rw [hv, hvec], Or.inr ⟨by simpa using hnew, ?_⟩⟩
    exact ⟨[], i, plan, .fault, s.log, rfl, h.posted hf⟩

/-- The BSP's fault store, on a slot that was running. -/
theorem Outcome.stop (hm : MachineInv b c0 s) (h : Outcomes b s) {i : SlotIndex}
    (hf : s.apState = .faulted) (hcode : (s.slots i).reply.faultCode = s.faultVector.toUInt32)
    (hst : (s.slots i).state = .running ∨ (s.slots i).state = .fault ∨ (s.slots i).state = .badOp)
    (h0 : s.log.latest i ≠ 0) :
    Outcome b s.log (s.log.latest i) { s.slots i with state := .fault } := by
  obtain ⟨v, g, hp, hvec⟩ := hm.faulted hf
  rw [hvec] at hcode
  unfold Outcome
  simp only
  rcases hst with hr | hr | hr
  · have hheld := ((hm.slot i).running hr).2
    rw [hp] at hheld
    exact ⟨v, g, hp, hcode, Or.inl ⟨i, hheld⟩⟩
  · have hout := h.slot i h0
    unfold Outcome at hout
    rw [hr] at hout
    exact hout
  · have hout := h.slot i h0
    unfold Outcome at hout
    rw [hr] at hout
    obtain ⟨⟨j, hhalted⟩, -⟩ := hout
    rw [hp] at hhalted
    cases hhalted

/-- The fault code that the BSP stores is the AP's. -/
theorem Outcome.stopReply (hm : MachineInv b c0 s) (hf : s.apState = .faulted) {v : UInt32}
    (hv : v = s.faultVector.toUInt32) (hd : slot.state ≠ .done) (h : Outcome b s.log n slot) :
    Outcome b s.log n { slot with reply := { slot.reply with faultCode := v } } := by
  obtain ⟨w, g, hp, hvec⟩ := hm.faulted hf
  unfold Outcome at h ⊢
  simp only
  split at h
  · rename_i hst
    exact absurd hst hd
  · exact h
  · obtain ⟨⟨i, hhalted⟩, -⟩ := h
    rw [hp] at hhalted
    cases hhalted
  · obtain ⟨w', g', hp', -, hg⟩ := h
    rw [hp] at hp'
    obtain ⟨rfl, rfl⟩ := ApPhase.faulted.inj hp'
    exact ⟨w, g, hp, by rw [hv, hvec], hg⟩
  · exact h
  · trivial
  · trivial
  · trivial

/-- **The BSP keeps the outcomes.** -/
theorem Outcomes.bspAct (hk : k.calm) (hm : MachineInv b c0 s) (h : Outcomes b s)
    (ha : BspAct b k c0 s s') : Outcomes b s' := by
  have hst := k.calm_strong hk
  have hissued := h.toIssued.bspAct hk hm ha
  -- a change of slot `i` that leaves the log alone
  have hslot : ∀ {i} {f : ApRequestSlot → ApRequestSlot}, Issued (s.setSlot i f) →
      (s.log.latest i ≠ 0 → Outcome b s.log (s.log.latest i) (f (s.slots i))) →
      Outcomes b (s.setSlot i f) := by
    intro i f hi hf
    refine ⟨hi, fun j h0 => ?_, h.completion, h.posted⟩
    by_cases hji : j = i
    · subst hji
      simpa using hf h0
    · simpa [hji] using h.slot j h0
  cases ha with
  | own hs =>
    refine ⟨hissued, ?_, ?_, ?_⟩
    · rw [hs.log, hs.slots]
      exact h.slot
    · rw [hs.log]
      exact h.completion
    · rw [hs.apState, hs.log]
      exact h.posted
  | began plan hnone =>
    exact ⟨hissued, fun i h0 => (h.slot i h0).bspNote rfl, nofun,
      fun hf => List.mem_cons_of_mem _ (h.posted hf)⟩
  | mark e he =>
    have hby := Event.not_byAp_of_isMark he
    refine ⟨hissued, fun i h0 => ?_, fun c hc => ?_, fun hf => List.mem_cons_of_mem _ (h.posted hf)⟩
    · have hlat : Log.latest i (e :: s.log) = s.log.latest i := by
        cases e <;> first | rfl | exact nomatch he
      rw [Machine.note_log, hlat] at h0 ⊢
      exact (h.slot i h0).bspNote hby
    · have hcs : Log.completions (e :: s.log) = s.log.completions := by
        cases e <;> first | rfl | exact nomatch he
      rw [Machine.note_log, hcs] at hc
      exact (h.completion c hc).bspNote hby
  | overdue i hno | timeout i hno | restoreHandled v hno | restoreCounter v hno => exact absurd hk hno
  | reset i => exact hslot hissued fun _ => .of_unfinished (Or.inl rfl)
  | @prepare i w hw hi hc =>
    exact hslot hissued fun _ =>
      .of_unfinished (Or.inl ((SlotStore.apply_state_of_isField hw _).trans (hc hk)))
  | @publish i plan st hi hr hs hc =>
    refine ⟨hissued, fun j h0 => ?_, fun c hcm => (h.completion c hcm).bspNote rfl,
      fun hf => List.mem_cons_of_mem _ (h.posted hf)⟩
    by_cases hji : j = i
    · subst hji
      have hlat : (publishState j plan st s).log.latest j = s.log.publications + 1 := if_pos rfl
      rw [hlat]
      exact .publish hm h (hs hst)
    · have hlat : (publishState i plan st s).log.latest j = s.log.latest j := if_neg (Ne.symm hji)
      have hsl : (publishState i plan st s).slots j = s.slots j := by simp [publishState, hji]
      rw [hlat] at h0 ⊢
      rw [hsl]
      exact (h.slot j h0).bspNote rfl
  | waitLoops i v => exact hslot hissued fun h0 => (h.slot i h0).of_eq rfl rfl rfl rfl
  | stopReply i v hs =>
    obtain ⟨hf, hv, hd⟩ := hs hst
    exact hslot hissued fun h0 => .stopReply hm hf hv hd (h.slot i h0)
  | stopFault i hs =>
    obtain ⟨hf, -, hstate, hcode⟩ := hs hst
    exact hslot hissued fun h0 => .stop hm h hf hcode hstate h0
  | stopSkip i hs hc =>
    refine hslot hissued fun h0 => ?_
    unfold Outcome
    exact (hm.pending i (hc hk)).1
  | finish i v hfin hu =>
    have h0 : s.log.latest i ≠ 0 := by
      have := hu.1
      omega
    have hout : Outcome b s.log (s.log.latest i) (Tally.completionOf i v s).slot :=
      (h.slot i h0).of_eq rfl rfl rfl rfl
    refine ⟨hissued, fun j hj => ?_, fun c hc => ?_, fun hf => List.mem_cons_of_mem _ (h.posted hf)⟩
    · by_cases hji : j = i
      · subst hji
        have hsl : (finishStore j v s).slots j = (Tally.completionOf j v s).slot := by simp [finishStore]
        rw [hsl]
        exact hout.bspNote rfl
      · have hsl : (finishStore i v s).slots j = s.slots j := by simp [finishStore, hji]
        rw [hsl]
        exact (h.slot j hj).bspNote rfl
    · rw [Tally.completions_finishStore, List.mem_append, List.mem_singleton] at hc
      rcases hc with hc | rfl
      · exact (h.completion c hc).bspNote rfl
      · exact hout.bspNote rfl

end

/-! ## The runs -/

/-- Faults enter from handlers only, and the BSP gives up on nothing. -/
def patient (t : Cpu) (s s' : Machine) : Prop :=
  handlerFaults t s s' ∧ (t = .bsp → s.givesUp s' = false)

instance (t : Cpu) (s s' : Machine) : Decidable (patient t s s') := by
  unfold patient
  infer_instance

/-- A calm start, whatever order the slots finish in. -/
def Know.unordered : Know := ⟨True, True, False, id, False.elim⟩

/-- One stream that waits as long as it takes. -/
def waitsForAll (b : Build) (c0 : UInt32) : Setting b false .unordered c0 where
  ok := patient
  extra := Outcomes b
  strong := trivial
  again_calm := nofun
  fault _ _ _ h := handlerFaults_fault h.1
  overdue s i _ h := absurd (h.2 rfl) (by simp [Machine.givesUp])
  unseen _ _ := False.elim
  faithful _ _ _ := False.elim
  extra_ap _ _ hm hc hx hok ha := hx.apAct hm (hc trivial) hok.1 ha
  extra_bsp _ _ hm _ hx _ ha := hx.bspAct trivial hm ha

theorem waitsForAll_holds (b : Build) {plan : List ApRequestPlan} {s : Machine} (hs : Fresh s) {pc : ApPc}
    (hpc : pc.looping = true) : (waitsForAll b s.counterValue).outline.Holds
      (apConfig b false s (.ret pc) (runApRequestStream b plan)) := by
  refine (waitsForAll b s.counterValue).holds
    ⟨hs.machineInv, fun _ => hs.calmInv, .of_fresh hs⟩ (apCut_of_looping hpc hs) ?_
  exact runApRequestStream_triple (waitsForAll b s.counterValue).bspEnv s
    ⟨fun _ => hs.settled, fun _ i => by rw [hs.log]; rfl, fun _ => by rw [hs.log]; rfl⟩

/-! ## What is on record when the stream is back -/

/-- The completion is that of the request the AP stopped at, and says why it stopped. -/
def StoppedAt (b : Build) (s : Machine) (c : Log.Completion) : Prop :=
  match s.log.phase with
  | .faulted v h => h = some (c.n, c.i) ∧ c.slot.state = .fault ∧ c.slot.reply.faultCode = v.toUInt32
  | .halted n i => (n, i) = (c.n, c.i) ∧ c.slot.state = .badOp ∧ c.slot.reply.resultCode =
      apDispatchMissResultCode b c.slot.request.serviceId c.slot.request.interfaceId
  | _ => False

/-- The handler ran for the request, once and to its end. -/
def RanOnce (b : Build) (l : Log) (c : Log.Completion) : Prop :=
  c.slot.state = .done ∧ c.n ∈ l.claims ∧ l.claims.Nodup ∧ ∃ r, l.runsOf c.n = [r] ∧ Matches b r c.slot

/-- The request was published to an AP whose fault it shows. -/
def ShowsEarlierFault (l : Log) (c : Log.Completion) : Prop :=
  c.slot.state = .fault ∧ c.n ∉ l.claims ∧ l.PublishedAfterPost c.n ∧
    ∃ v h, l.phase = .faulted v h ∧ c.slot.reply.faultCode = v.toUInt32

/-- One request shows the stop; each of the others ran once or never. -/
structure StopContained (b : Build) (plan : List ApRequestPlan) (l : StreamLocals) (s : Machine) :
    Prop where
  account : ∃ m, StreamAccount b plan l m s
  history : ∀ (t : Fin apRequestHistoryCount) c, s.log.completions[t.val]? = some c →
    (s.history t).request = c.slot
  stopped : ∃ c ∈ s.log.completions, StoppedAt b s c
  others : ∀ c ∈ s.log.completions, StoppedAt b s c ∨ RanOnce b s.log c ∨
    c.slot.state = .skipped ∧ c.n ∉ s.log.claims ∨ ShowsEarlierFault s.log c

section

variable {b : Build} {c0 : UInt32} {s : Machine} {k : Know} {plan : List ApRequestPlan}
variable {l : StreamLocals} {result : Bool}

/-- What any completion shows. -/
theorem Outcomes.classify (hm : MachineInv b c0 s) (h : Outcomes b s) {c : Log.Completion}
    (hmem : c ∈ s.log.completions) (hfin : c.slot.state.finished = true) :
    StoppedAt b s c ∨ RanOnce b s.log c ∨ c.slot.state = .skipped ∧ c.n ∉ s.log.claims ∨
      ShowsEarlierFault s.log c := by
  -- a publication is of one slot
  have hslot : ∀ {i}, s.log.phase.held = some (c.n, i) → i = c.i := by
    intro i hh
    obtain ⟨-, p, hp⟩ := hm.log.held _ _ hh
    obtain ⟨q, st, hq⟩ := h.issued c hmem
    exact (hm.log.unique _ _ _ _ _ _ _ hp hq).1
  have hout := h.completion c hmem
  unfold Outcome at hout
  split at hout
  · rename_i hst
    exact Or.inr (Or.inl ⟨hst, hout.1, hm.log.claimedOnce, hout.2⟩)
  · rename_i hst
    exact Or.inr (Or.inr (Or.inl ⟨hst, hout⟩))
  · rename_i hst
    obtain ⟨⟨i, hp⟩, hmiss⟩ := hout
    have hi : i = c.i := hslot (by rw [hp]; rfl)
    refine Or.inl ?_
    unfold StoppedAt
    rw [hp, hi]
    exact ⟨rfl, hst, hmiss.resultCode⟩
  · rename_i hst
    obtain ⟨v, g, hp, hcode, ⟨i, hg⟩ | ⟨hclaims, hpost⟩⟩ := hout
    · have hi : i = c.i := hslot (by rw [hp, hg]; rfl)
      refine Or.inl ?_
      unfold StoppedAt
      rw [hp, hg, hi]
      exact ⟨rfl, hst, hcode⟩
    · exact Or.inr (Or.inr (Or.inr ⟨hst, hclaims, hpost, v, g, hp, hcode⟩))
  · exact hout.elim
  all_goals
    rename_i hst
    simp [hst, ApRequestStatus.finished, ApRequestStatus.terminal] at hfin

/-- The request that the AP holds is on record. -/
theorem Returned.exists_stopped (hk : k.calm) (hm : MachineInv b c0 s) (hc : CalmInv b s)
    (h : Outcomes b s) (hret : Returned b k plan l result s) (hdown : s.log.phase.down = true) :
    ∃ c ∈ s.log.completions, StoppedAt b s c := by
  obtain ⟨n, i, hheld, hlat⟩ : ∃ n i, s.log.phase.held = some (n, i) ∧ s.log.latest i = n := by
    cases hp : s.log.phase <;> simp [hp] at hdown
    · rename_i n i
      exact ⟨n, i, rfl, (hc.halted n i hp).1⟩
    · rename_i v g
      obtain ⟨n, i, hg, hlat, -⟩ := hc.faulted v g hp
      exact ⟨n, i, hg, hlat⟩
  obtain ⟨hclaimed, p, hpub⟩ := hm.log.held n i hheld
  have h0 : s.log.latest i ≠ 0 := hlat ▸ (hm.log.stamp _ _ _ _ hpub).1
  obtain ⟨c, hmem, hcn, hci⟩ := hret.books.returned hk i (hret.inactive i) h0
  have hfin := hret.books.finished c hmem
  refine ⟨c, hmem, ?_⟩
  rcases h.classify hm hmem hfin with hstop | ⟨hd, -⟩ | ⟨-, hnot⟩ | ⟨-, hnot, -⟩
  · exact hstop
  · -- it cannot be done: the AP has not given it back
    have hkept := hret.books.kept hk c hmem (by rw [hci]; exact hcn) (by simp)
    rw [← hkept, hci] at hd
    exact absurd hd (hm.not_done_of_held hheld)
  · exact absurd (hcn.trans hlat ▸ hclaimed) hnot
  · exact absurd (hcn.trans hlat ▸ hclaimed) hnot

end

/-- **A stop is contained.** -/
theorem stopContained_of_returned (b : Build) (plan : List ApRequestPlan) {s : Machine}
    {c : (apSystem b false).Config} {pc : ApPc} (hs : Fresh s) (hpc : pc.looping = true)
    (hr : (apSystem b false).Reach patient (apConfig b false s (.ret pc) (runApRequestStream b plan)) c)
    {plan' : List ApRequestPlan} {l : StreamLocals} {result : Bool}
    (hret : c.prog .bsp = .ret (BspPc.streamReturned plan' l result))
    (hdown : c.mem.log.phase.down = true) : StopContained b plan l c.mem ∧ result = false := by
  have hserves := serves_of_reach hr
  rw [hret] at hserves
  obtain rfl : plan' = plan := hserves
  have hholds := Outline.sound (waitsForAll b s.counterValue).valid (waitsForAll_holds b hs hpc) hr
  have hinv := hholds.inv
  have hcut := hholds.at_ .bsp
  rw [hret] at hcut
  have hreturned : Returned b .unordered plan' l result c.mem := hcut
  have hcalm := hinv.calm trivial
  obtain ⟨d, hmem, hstop⟩ := hreturned.exists_stopped trivial hinv.machine hcalm hinv.extra hdown
  refine ⟨⟨⟨_, hreturned.account⟩, fun t e he => ?_, ⟨d, hmem, hstop⟩, fun e he =>
    hinv.extra.classify hinv.machine he (hreturned.books.finished e he)⟩, ?_⟩
  · have hlt : t.val < l.completedCount := by
      have := (List.getElem?_eq_some_iff.1 he).1
      have := hreturned.books.completed
      omega
    exact (hreturned.books.entry t e hlt he).exact trivial
  · by_contra hne
    -- a result of 1 means that all are `DONE`, the request that stopped the AP included
    have hdone := hreturned.result trivial (by simpa using hne) d hmem
    unfold StoppedAt at hstop
    split at hstop
    · simp [hdone] at hstop
    · simp [hdone] at hstop
    · exact hstop

/-- The first of two pings faults in its handler. -/
theorem stopContained_of_returned_fault : ∃ (c : (apSystem {} false).Config) (plan : _) (l : _),
    (apSystem {} false).Reach patient (apConfig {} false {} (.ret (.scan 0 false))
      (runApRequestStream {} plan)) c ∧
    plan.length = 2 ∧ c.mem.log.phase.down = true ∧ StopContained {} plan l c.mem := by
  obtain ⟨c, hr, hret, hdown⟩ : ∃ c : (apSystem {} false).Config,
      (apSystem {} false).Reach patient (apConfig {} false {} (.ret (.scan 0 false))
        (runApRequestStream {} (List.replicate 2 (broadcastPingPlan {})))) c ∧
      streamIsBack (c.prog .bsp) = true ∧ c.mem.log.phase.down = true := by
    refine System.exists_reach [.until .bsp 4000 fun s => s.log.publications == 2,
      goesOn .ap Event.isLookedUp, .trap .ap { vector := 6 }, goesToEnd .ap,
      goesToEnd .bsp] ?_
    decide +kernel
  obtain ⟨plan, l, result, hret⟩ := streamIsBack_iff.1 hret
  exact ⟨c, _, l, hr, rfl, hdown, (stopContained_of_returned {} _ .default rfl hr hret hdown).1⟩

end VibeKernel

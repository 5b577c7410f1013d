import VibeKernel.Ap.HistoryOrder
import VibeKernel.Ap.Dispatch
import VibeKernel.Num.Count

/-!
# The counter in the history

The BSP counts increments again when it records a request, by the opcode and both ids; the AP
increments by the two ids alone. The two counts agree as long as the requests are recorded in the
order in which they ran and every request of the plan that names the counter carries its opcode.
-/

namespace VibeKernel

open Conc

/-! ## What the report accepts -/

/-- `ap_request_result_ok`. -/
def apRequestResultOk (request : ApRequestSlot) (counterValue : UInt32) : Bool :=
  if request.state ≠ .done ∨ request.reply.faultCode ≠ 0 ∨
      request.request.idHigh ≠ request.reply.requestIdHigh ∨
      request.request.idLow ≠ request.reply.requestIdLow then false
  else if request.request.serviceId = apRequestServicePing ∧
      request.request.interfaceId = apRequestInterfacePing then
    request.request.opcode == apRequestOpPing && request.reply.resultCode == 0
  else if request.request.serviceId = apRequestServiceCounter ∧
      request.request.interfaceId = apRequestInterfaceCounterIncrement then
    request.request.opcode == apRequestOpCounter && request.reply.resultCode == counterValue
      && decide (0 < counterValue)
  else false

/-- Every entry of the counter shows the count that its request answered, and the report accepts it
unless that is zero. -/
def CounterAgrees (s : Machine) : Prop :=
  ∀ t, (s.history t).valid = true → (s.history t).request.state = .done →
    apRequestIsCounterIncrement (s.history t).request.request = true →
      (s.history t).counterValue = (s.history t).request.reply.resultCode ∧
        ((s.history t).counterValue ≠ 0 →
          apRequestResultOk (s.history t).request (s.history t).counterValue = true)

instance (s : Machine) : Decidable (CounterAgrees s) := by
  unfold CounterAgrees
  infer_instance

section

variable {b : Build} {h0 c0 : UInt32} {s : Machine} {plan : List ApRequestPlan}

/-- What a request of the counter is worth, once it is known to agree. -/
theorem apRequestResultOk_of_matches {r : HandlerRun} {slot : ApRequestSlot} (hm : Matches b r slot)
    (hd : slot.state = .done) (hfault : r.faultCode = 0)
    (hi : apRequestIsCounterIncrement slot.request = true) (hne : r.resultCode ≠ 0) :
    apRequestResultOk slot r.resultCode = true := by
  simp only [apRequestIsCounterIncrement, Bool.and_eq_true, beq_iff_eq] at hi
  obtain ⟨⟨hsvc, hifc⟩, hop⟩ := hi
  have hfirst : ¬ (slot.state ≠ .done ∨ slot.reply.faultCode ≠ 0 ∨
      slot.request.idHigh ≠ slot.reply.requestIdHigh ∨ slot.request.idLow ≠ slot.reply.requestIdLow) := by
    simp [hd, hm.faultCode, hfault, hm.idHigh, hm.idLow]
  have hping : ¬ (slot.request.serviceId = apRequestServicePing ∧
      slot.request.interfaceId = apRequestInterfacePing) := by
    rw [hsvc, hifc]
    decide
  rw [apRequestResultOk, if_neg hfirst, if_neg hping, if_pos ⟨hsvc, hifc⟩]
  simp [hop, hm.resultCode, UInt32.pos_iff_ne_zero, hne]

/-- The plan asks for the counter in one way only. -/
def CounterPlansTagged (plan : List ApRequestPlan) : Prop :=
  ∀ p ∈ plan, p.namesCounter = true → p.opcode = apRequestOpCounter

instance (plan : List ApRequestPlan) : Decidable (CounterPlansTagged plan) := by
  unfold CounterPlansTagged
  infer_instance

/-- The BSP counts a completion exactly when the AP's run incremented the counter. -/
theorem counted_eq_increments (hplan : CounterPlansTagged plan) {base next : Nat} {c : Log.Completion}
    (hn : Numbered b plan base next c.n c.slot.request) (hd : c.slot.state = .done) {r : HandlerRun}
    (hm : Matches b r c.slot) (hfault : r.faultCode = 0) : c.counted = r.increments := by
  have hcount : c.counted = apRequestIsCounterIncrement c.slot.request := by
    simp [Log.Completion.counted, hd, hm.faultCode, hfault]
  rw [hcount, Bool.eq_iff_iff]
  constructor
  · intro hi
    have hfind := findApRequestHandler_of_isCounterIncrement (b := b) hi
    rw [hm.handler] at hfind
    simpa [HandlerRun.increments] using hfind
  · intro hi
    have hhandler : r.handler = .counterIncrement := by simpa [HandlerRun.increments] using hi
    have hfind := hm.handler
    rw [hhandler] at hfind
    obtain ⟨hsvc, hifc⟩ := findApRequestHandler_eq_counterIncrement_iff.1 hfind
    obtain ⟨m, p, -, hp, -, hreq⟩ := hn
    have hop := hplan p (List.mem_of_getElem? hp)
    rw [hreq] at hsvc hifc ⊢
    have hnames : p.namesCounter = true := by
      simp only [ApRequestPlan.namesCounter, Bool.and_eq_true, beq_iff_eq]
      exact ⟨hsvc, hifc⟩
    simp only [apRequestIsCounterIncrement, Bool.and_eq_true, beq_iff_eq]
    exact ⟨⟨hsvc, hifc⟩, hop hnames⟩

/-- Up to any recorded request, the BSP counts as many increments as the AP made. -/
theorem RecordOrder.count_eq (hex : ExecInv h0 c0 s) (h : RecordOrder b c0 s)
    (hplan : CounterPlansTagged plan) {next : Nat}
    (hn : ∀ c ∈ s.log.completions, Numbered b plan s.log.streamBase next c.n c.slot.request) (m : Nat) :
    (s.log.completions.take m).countP (·.counted) = incrementsOf
      (s.log.executions.take ((s.log.completions.take m).filter fun c => c.slot.state == .done).length) := by
  obtain ⟨xs, ys, he, hxs, -⟩ := h.order
  have hagree : List.Forall₂ (fun c x => c.counted = x.2.increments) s.log.doneCompletions xs := by
    refine List.forall₂_iff_get.2 ⟨hxs.length_eq, fun a ha hx => ?_⟩
    obtain ⟨hc, hd⟩ := List.mem_filter.1 (List.get_mem s.log.doneCompletions ⟨a, ha⟩)
    obtain ⟨-, hmatch⟩ : ShowsRun b (s.log.doneCompletions.get ⟨a, ha⟩) (xs.get ⟨a, hx⟩) := hxs.get _ _
    obtain ⟨us, vs, hsplit⟩ := List.append_of_mem (List.get_mem xs ⟨a, hx⟩)
    have hread := hex.run us (xs.get ⟨a, hx⟩).1 (xs.get ⟨a, hx⟩).2 (vs ++ ys) (by
      rw [he]
      conv_lhs => rw [hsplit]
      simp)
    exact counted_eq_increments hplan (hn _ hc) (by simpa using hd) hmatch hread.faultCode
  -- the completions that were done, up to `m`, are the first of all that were done
  obtain ⟨rest, hrest⟩ : ∃ rest, s.log.doneCompletions =
      (s.log.completions.take m).filter (fun c => c.slot.state == .done) ++ rest := by
    refine ⟨(s.log.completions.drop m).filter fun c => c.slot.state == .done, ?_⟩
    rw [← List.filter_append, List.take_append_drop]
    rfl
  have hdone : ∀ c ∈ s.log.completions.take m,
      c.counted = (c.counted && (c.slot.state == .done)) := by
    intro c _
    by_cases hd : c.slot.state = .done <;> simp [Log.Completion.counted, hd]
  have hlen : ((s.log.completions.take m).filter fun c => c.slot.state == .done).length ≤ xs.length := by
    rw [← hxs.length_eq, hrest, List.length_append]
    omega
  calc (s.log.completions.take m).countP (·.counted)
      = ((s.log.completions.take m).filter fun c => c.slot.state == .done).countP (·.counted) := by
        rw [List.countP_filter]
        exact List.countP_congr fun c hc => by rw [← hdone c hc]
    _ = (s.log.doneCompletions.take
          ((s.log.completions.take m).filter fun c => c.slot.state == .done).length).countP (·.counted) := by
        rw [hrest, List.take_left]
    _ = incrementsOf (xs.take
          ((s.log.completions.take m).filter fun c => c.slot.state == .done).length) :=
        Num.countP_eq_of_forall₂ (List.forall₂_take _ hagree)
    _ = _ := by rw [he, List.take_append_of_le_length hlen]

/-- The history of a stream that returned. -/
theorem Returned.counterAgrees {k : Know} {l : StreamLocals} {result : Bool} (hk : k.calm)
    (hret : Returned b k plan l result s) (hex : ExecInv h0 c0 s) (h : RecordOrder b c0 s)
    (hplan : CounterPlansTagged plan) : CounterAgrees s := by
  intro t hv hd hi
  have hlt : t.val < l.completedCount := by
    by_contra hge
    rw [hret.books.blank t (by omega)] at hv
    cases hv
  have hlen := hret.books.completed
  have hm : t.val < s.log.completions.length := by omega
  have hentry := (hret.books.entry t _ hlt (List.getElem?_eq_getElem hm)).exact hk
  have hvalue := hret.books.entryCounter hk t hlt
  rw [hentry] at hd hi ⊢
  -- the position of this completion among those that were done
  have hfilter : s.log.doneCompletions =
      (s.log.completions.take t.val).filter (fun c => c.slot.state == .done) ++
        s.log.completions[t.val] :: (s.log.completions.drop (t.val + 1)).filter
          (fun c => c.slot.state == .done) := by
    rw [Log.doneCompletions, ← List.filter_cons_of_pos (by simpa using hd), ← List.filter_append,
      ← List.drop_eq_getElem_cons hm, List.take_append_drop]
  obtain ⟨r, hmatch, hread⟩ := h.shows hex (c := s.log.completions[t.val])
    (a := ((s.log.completions.take t.val).filter fun c => c.slot.state == .done).length) (by
      rw [hfilter]
      simp)
  have hnumbered := hret.books.recorded _ (List.getElem_mem hm)
  have hcounted : s.log.completions[t.val].counted = true := by
    simp [Log.Completion.counted, hi, hd, hmatch.faultCode, hread.faultCode]
  have hincrements : r.increments = true := by
    rw [← counted_eq_increments hplan hnumbered hd hmatch hread.faultCode]
    exact hcounted
  have hagree : (s.history t).counterValue = r.resultCode := by
    rw [hvalue, h.counter hret.books.began, hread.resultCode hincrements, List.take_add_one,
      List.getElem?_eq_getElem hm, List.countP_append, h.count_eq hex hplan hret.books.recorded]
    simp [hcounted]
  rw [hagree, hmatch.resultCode]
  exact ⟨rfl, apRequestResultOk_of_matches hmatch hd hread.faultCode hi⟩

end

/-! ## Visits that the AP does not come between -/

/-- Nothing times out or faults, and the AP stands still while the BSP visits a slot. -/
def AtomicVisits (bound : Nat) (t : Cpu) (s s' : Machine) : Prop :=
  Smooth bound t s s' ∧ (t = .ap → s.log.inVisit = false)

instance (bound : Nat) (t : Cpu) (s s' : Machine) : Decidable (AtomicVisits bound t s s') := by
  unfold AtomicVisits
  infer_instance

theorem Log.inVisit_of_glanced {l : Log} {i : SlotIndex} (h : l.glanced = some i) : l.inVisit = true := by
  induction l with
  | nil => cases h
  | cons e l ih => cases e <;> first | rfl | exact ih h | cases h

/-- Between two visits there is nothing to overlook. -/
theorem AtomicVisits.orderly {bound : Nat} {t : Cpu} {s s' : Machine} (h : AtomicVisits bound t s s') :
    orderlyAccess bound t s s' := by
  refine ⟨h.1, fun ht j _ _ hj => ?_⟩
  have hout := h.2 ht
  rw [Log.inVisit_of_glanced hj] at hout
  cases hout

/-- **The BSP's counter agrees with the service's.** -/
theorem counterAgrees_of_returned (b : Build) {plan : List ApRequestPlan} (hplan : CounterPlansTagged plan)
    {s : Machine} {c : (apSystem b false).Config} {pc : ApPc} (hs : Fresh s) (hpc : pc.looping = true)
    (hr : (apSystem b false).Reach (AtomicVisits (2 ^ 32))
      (apConfig b false s (.ret pc) (runApRequestStream b plan)) c)
    {plan' : List ApRequestPlan} {l : StreamLocals} {result : Bool}
    (hret : c.prog .bsp = .ret (BspPc.streamReturned plan' l result)) : CounterAgrees c.mem := by
  have hserves := serves_of_reach hr
  rw [hret] at hserves
  obtain rfl : plan' = plan := hserves
  have hholds := Outline.sound (orderly b s.requestHandledCount s.counterValue).valid
    (orderly_holds b hs hpc) (hr.mono fun _ _ _ => AtomicVisits.orderly)
  have hcut := hholds.at_ .bsp
  rw [hret] at hcut
  have hreturned : Returned b .all plan' l result c.mem := hcut
  exact hreturned.counterAgrees trivial hholds.inv.extra.1 hholds.inv.extra.2 hplan

/-- A ping and an increment. -/
theorem counterAgrees_of_returned_ping_counter : ∃ c : (apSystem {} false).Config,
    (apSystem {} false).Reach (AtomicVisits (2 ^ 32)) (apConfig {} false {} (.ret (.scan 0 false))
      (runApRequestStream {} [broadcastPingPlan {}, counterPlan])) c ∧
    (c.mem.history 1).valid = true ∧ CounterAgrees c.mem := by
  obtain ⟨c, hr, hret, hvalid⟩ : ∃ c : (apSystem {} false).Config,
      (apSystem {} false).Reach (AtomicVisits (2 ^ 32)) (apConfig {} false {} (.ret (.scan 0 false))
        (runApRequestStream {} [broadcastPingPlan {}, counterPlan])) c ∧
      streamIsBack (c.prog .bsp) = true ∧ (c.mem.history 1).valid = true := by
    refine System.exists_reach [.until .bsp 4000 fun s => s.log.publications == 2,
      .until .ap 4000 fun s => (s.slots 1).state == .done, goesToEnd .bsp] ?_
    decide +kernel
  obtain ⟨plan, l, result, hret⟩ := streamIsBack_iff.1 hret
  refine ⟨c, hr, hvalid, counterAgrees_of_returned {} ?_ .default rfl hr hret⟩
  decide

/-! ## A request of the counter under another opcode -/

/-- An increment that says it is a ping. -/
def mistaggedPlan : ApRequestPlan := { counterPlan with opcode := apRequestOpPing }

/-- The AP increments for both requests, the BSP counts the second only. -/
theorem not_counterAgrees_of_returned : ¬ ∀ (b : Build) (plan : List ApRequestPlan) (s : Machine)
    (c : (apSystem b false).Config) (pc : ApPc), Fresh s → pc.looping = true →
    (apSystem b false).Reach (AtomicVisits (2 ^ 32))
      (apConfig b false s (.ret pc) (runApRequestStream b plan)) c →
    ∀ plan' l result, c.prog .bsp = .ret (BspPc.streamReturned plan' l result) → CounterAgrees c.mem := by
  intro h
  obtain ⟨c, hr, hret, hno⟩ : ∃ c : (apSystem {} false).Config,
      (apSystem {} false).Reach (AtomicVisits (2 ^ 32)) (apConfig {} false {} (.ret (.scan 0 false))
        (runApRequestStream {} [mistaggedPlan, counterPlan])) c ∧
      streamIsBack (c.prog .bsp) = true ∧ ¬ CounterAgrees c.mem := by
    refine System.exists_reach [.until .bsp 4000 fun s => s.log.publications == 2,
      .until .ap 4000 fun s => (s.slots 1).state == .done, goesToEnd .bsp] ?_
    decide +kernel
  obtain ⟨plan, l, result, hret⟩ := streamIsBack_iff.1 hret
  exact hno (h {} _ {} c _ .default rfl hr plan l result hret)

end VibeKernel

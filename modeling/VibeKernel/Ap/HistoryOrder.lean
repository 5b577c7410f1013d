import VibeKernel.Ap.RecordOrder
import VibeKernel.Ap.Account

/-!
# The history follows the order of execution

A visit reads the state of its slot twice. What the AP finishes between the two reads is recorded at
once, also when another slot was finished before it. `Unseen` says that this does not happen; then
the entries that are `DONE` stand in the order in which the AP ran them.
-/

namespace VibeKernel

open Conc

variable {b : Build} {h0 c0 : UInt32} {s : Machine}

/-- The entries that are `DONE` have strictly increasing counts. -/
def InExecutionOrder (s : Machine) : Prop :=
  ∀ t u : Fin apRequestHistoryCount, t < u → (s.history t).valid = true → (s.history u).valid = true →
    (s.history t).request.state = .done → (s.history u).request.state = .done →
      (s.history t).request.metrics.handledCount < (s.history u).request.metrics.handledCount

instance (s : Machine) : Decidable (InExecutionOrder s) := by
  unfold InExecutionOrder
  infer_instance

/-- The `a`-th request that was recorded `DONE` is the `a`-th that ran. -/
theorem RecordOrder.shows (hex : ExecInv h0 c0 s) (h : RecordOrder b c0 s) {a : Nat} {c : Log.Completion}
    (hc : s.log.doneCompletions[a]? = some c) :
    ∃ r, Matches b r c.slot ∧ ReadAfter h0 c0 (s.log.executions.take a) r := by
  obtain ⟨xs, ys, he, hxs, -⟩ := h.order
  obtain ⟨ha, rfl⟩ := List.getElem?_eq_some_iff.1 hc
  have ha' : a < xs.length := hxs.length_eq ▸ ha
  obtain ⟨-, hmatch⟩ : ShowsRun b (s.log.doneCompletions.get ⟨a, ha⟩) (xs.get ⟨a, ha'⟩) := hxs.get _ _
  refine ⟨(xs.get ⟨a, ha'⟩).2, hmatch, ?_⟩
  have hlt : a < s.log.executions.length := by
    rw [he, List.length_append]
    omega
  have hat : s.log.executions[a] = xs.get ⟨a, ha'⟩ := by
    simp [he, List.getElem_append_left ha']
  have hsplit := List.take_append_drop a s.log.executions
  rw [List.drop_eq_getElem_cons hlt, hat] at hsplit
  exact hex.run _ _ _ _ hsplit.symm

/-- The requests that were recorded `DONE` have increasing counts. -/
theorem RecordOrder.pairwise (hex : ExecInv h0 c0 s) (h : RecordOrder b c0 s) :
    s.log.doneCompletions.Pairwise fun c d =>
      c.slot.metrics.handledCount < d.slot.metrics.handledCount := by
  refine List.pairwise_iff_getElem.2 fun a d ha hd hlt => ?_
  obtain ⟨r, hr, hra⟩ := h.shows hex (List.getElem?_eq_getElem ha)
  obtain ⟨q, hq, hqd⟩ := h.shows hex (List.getElem?_eq_getElem hd)
  obtain ⟨xs, ys, he, hxs, -⟩ := h.order
  have hlen := hxs.length_eq
  have hra' := hra.handledCount
  have hqd' := hqd.handledCount
  rw [List.length_take, he, List.length_append] at hra' hqd'
  rw [hr.handledCount, hq.handledCount, UInt32.lt_iff_toNat_lt]
  omega

/-- The history of a stream that returned. -/
theorem Returned.inExecutionOrder {k : Know} {plan : List ApRequestPlan} {l : StreamLocals}
    {result : Bool} (hk : k.calm) (hret : Returned b k plan l result s) (hex : ExecInv h0 c0 s)
    (h : RecordOrder b c0 s) : InExecutionOrder s := by
  have hpairwise := h.pairwise hex
  rw [Log.doneCompletions, List.pairwise_filter] at hpairwise
  -- a valid entry shows the completion of its number
  have hentry : ∀ t : Fin apRequestHistoryCount, (s.history t).valid = true →
      ∃ hlt : t.val < s.log.completions.length, (s.history t).request = s.log.completions[t.val].slot := by
    intro t hv
    have hlt : t.val < l.completedCount := by
      by_contra hge
      rw [hret.books.blank t (by omega)] at hv
      cases hv
    have hlen := hret.books.completed
    exact ⟨by omega, (hret.books.entry t _ hlt (List.getElem?_eq_getElem (by omega))).exact hk⟩
  intro t u htu hvt hvu hdt hdu
  obtain ⟨ht, het⟩ := hentry t hvt
  obtain ⟨hu, heu⟩ := hentry u hvu
  rw [het] at hdt ⊢
  rw [heu] at hdu ⊢
  exact List.pairwise_iff_getElem.1 hpairwise t.val u.val ht hu htu (by simp [hdt]) (by simp [hdu])

/-- **The history follows the order of execution.** -/
theorem inExecutionOrder_of_returned (b : Build) (plan : List ApRequestPlan) {s : Machine}
    {c : (apSystem b false).Config} {pc : ApPc} (hs : Fresh s) (hpc : pc.looping = true)
    (hr : (apSystem b false).Reach (orderlyAccess (2 ^ 31))
      (apConfig b false s (.ret pc) (runApRequestStream b plan)) c)
    {plan' : List ApRequestPlan} {l : StreamLocals} {result : Bool}
    (hret : c.prog .bsp = .ret (BspPc.streamReturned plan' l result)) : InExecutionOrder c.mem := by
  have hr' : (apSystem b false).Reach (orderlyAccess (2 ^ 32))
      (apConfig b false s (.ret pc) (runApRequestStream b plan)) c :=
    hr.mono fun _ _ _ hok => ⟨hok.1.mono (by omega), hok.2⟩
  have hholds := Outline.sound (orderly b s.requestHandledCount s.counterValue).valid
    (orderly_holds b hs hpc) hr'
  have hcut := hholds.at_ .bsp
  rw [hret] at hcut
  have hreturned : Returned b .all plan' l result c.mem := hcut
  exact hreturned.inExecutionOrder trivial hholds.inv.extra.1 hholds.inv.extra.2

/-- Two pings, each recorded before the AP has the next. -/
theorem inExecutionOrder_of_returned_pings : ∃ c : (apSystem {} false).Config,
    (apSystem {} false).Reach (orderlyAccess (2 ^ 31)) (apConfig {} false {} (.ret (.scan 0 false))
      (runApRequestStream {} (List.replicate 2 (broadcastPingPlan {})))) c ∧
    ((c.mem.history 0).valid && (c.mem.history 1).valid) = true ∧ InExecutionOrder c.mem := by
  obtain ⟨c, hr, hret, hvalid⟩ : ∃ c : (apSystem {} false).Config,
      (apSystem {} false).Reach (orderlyAccess (2 ^ 31)) (apConfig {} false {} (.ret (.scan 0 false))
        (runApRequestStream {} (List.replicate 2 (broadcastPingPlan {})))) c ∧
      streamIsBack (c.prog .bsp) = true ∧
      ((c.mem.history 0).valid && (c.mem.history 1).valid) = true := by
    refine System.exists_reach [.until .bsp 4000 fun s => s.log.publications == 2,
      .until .ap 4000 fun s => (s.slots 1).state == .done, goesToEnd .bsp] ?_
    decide +kernel
  obtain ⟨plan, l, result, hret⟩ := streamIsBack_iff.1 hret
  exact ⟨c, hr, hvalid, inExecutionOrder_of_returned {} _ .default rfl hr hret⟩

/-! ## A slot that is done between the two reads -/

/-- The visit of slot 0 reads it before the AP is done with it. The AP then completes slot 1 and
slot 0, in this order, and the visit records slot 0. -/
theorem not_inExecutionOrder_of_returned : ¬ ∀ (b : Build) (plan : List ApRequestPlan) (s : Machine)
    (c : (apSystem b false).Config) (pc : ApPc), Fresh s → pc.looping = true →
    (apSystem b false).Reach (Smooth (2 ^ 31)) (apConfig b false s (.ret pc) (runApRequestStream b plan)) c →
    ∀ plan' l result, c.prog .bsp = .ret (BspPc.streamReturned plan' l result) →
      InExecutionOrder c.mem := by
  intro h
  obtain ⟨c, hr, hret, hno⟩ : ∃ c : (apSystem {} false).Config,
      (apSystem {} false).Reach (Smooth (2 ^ 31)) (apConfig {} false {} (.ret (.scan 1 false))
        (runApRequestStream {} (List.replicate 2 (broadcastPingPlan {})))) c ∧
      streamIsBack (c.prog .bsp) = true ∧ ¬ InExecutionOrder c.mem := by
    refine System.exists_reach [goesOn .bsp Event.isVisited, .until .ap 4000 fun s => (s.slots 0).state == .done,
      goesToEnd .bsp] ?_
    decide +kernel
  obtain ⟨plan, l, result, hret⟩ := streamIsBack_iff.1 hret
  exact hno (h {} _ {} c _ .default rfl hr plan l result hret)

end VibeKernel

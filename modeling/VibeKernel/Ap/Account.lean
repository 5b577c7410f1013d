import VibeKernel.Ap.SystemOutline
import VibeKernel.Ap.Schedule

/-!
# The account of a stream

No request is lost or recorded twice, wherever the AP is when `run_ap_request_stream` begins and
whatever it does.

`Returned` is the assertion of the point after the call. It is read here as a statement about the
memory, and the plan it speaks of is the plan of the call.
-/

namespace VibeKernel

open Conc

variable {b : Build} {again : Bool} {plan : List ApRequestPlan}

/-! ## One call, one plan -/

/-- A point of the stream that carries out `plan`. -/
def BspPc.serves (plan : List ApRequestPlan) : BspPc → Prop
  | .streamLoop plan' _ | .streamReturned plan' _ _ => plan' = plan
  | .next | .pingLoop _ => False

theorem serves_loop (l : StreamLocals) :
    (pure (.streamLoop plan l) : Prog Machine BspPc).Ends (BspPc.serves plan) := rfl

theorem serves_returned (l : StreamLocals) (result : Bool) :
    (pure (.streamReturned plan l result) : Prog Machine BspPc).Ends (BspPc.serves plan) := rfl

theorem streamEpilogue_serves (l : StreamLocals) :
    (streamEpilogue b plan l).Ends (BspPc.serves plan) := by
  refine .bind (fun l' => ?_) _
  exact .bind (serves_returned l') _

theorem streamDecide_serves (l : StreamLocals) :
    (streamDecide b plan l).Ends (BspPc.serves plan) := by
  refine .cond (streamEpilogue_serves l) (.cond ?_ ?_)
  · refine .bind (fun more => .cond (serves_loop l) ?_) _
    exact .cond (streamEpilogue_serves l) (serves_loop _)
  · exact .cond (streamEpilogue_serves l) (.bind (fun timer => serves_loop _) _)

theorem streamRound_serves (l : StreamLocals) :
    (streamRound b plan l).Ends (BspPc.serves plan) := by
  refine .bind (fun stop => ?_) _
  refine .bind (fun _ => ?_) _
  refine .bind (fun l' => ?_) _
  exact .bind (fun _ => streamDecide_serves l') _

theorem runApRequestStream_serves :
    (runApRequestStream b plan).Ends (BspPc.serves plan) := by
  refine .bind (fun counterBase => ?_) _
  iterate 4 refine .bind (fun _ => ?_) _
  refine .bind (fun stop => .cond ?_ ?_) _
  · refine .bind (fun st => ?_) _
    exact .bind (fun _ => serves_returned _ _) _
  · exact .bind (fun l => serves_loop l) _

/-- A run of one stream stays with its plan. -/
theorem serves_of_reach {ok : Cpu → Machine → Machine → Prop} {s : Machine}
    {ap : Prog Machine ApPc} {c : (apSystem b false).Config}
    (hr : (apSystem b false).Reach ok (apConfig b false s ap (runApRequestStream b plan)) c) :
    Prog.Ends (BspPc.serves plan) (c.prog .bsp) := by
  refine System.Reach.ends (t := Cpu.bsp) (fun pc p hpc hb => ?_) (fun x => nomatch (x : Empty))
    runApRequestStream_serves hr
  cases pc with
  | next | pingLoop => exact hpc.elim
  | streamLoop plan' l =>
    obtain rfl : plan' = plan := hpc
    obtain rfl := Option.some.inj hb
    exact streamRound_serves l
  | streamReturned => cases hb

/-! ## The account -/

/-- What a stream over `plan` that returned with the locals `l` has done: it published the first `m`
requests, each once, got every one of them back, and wrote the first eight that came back into the
history, in that order. Request `j` of the plan is publication `j + 1` since the stream began. -/
structure StreamAccount (b : Build) (plan : List ApRequestPlan) (l : StreamLocals) (m : Nat)
    (s : Machine) : Prop where
  le_length : m ≤ plan.length
  publications : s.log.publications = s.log.streamBase + m
  published : s.log.streamPlans = plan.take m
  inactive : ∀ i, l.active i = false
  completedCount : l.completedCount = m
  completions : s.log.completions.length = m
  valid : ∀ t, (s.history t).valid = true ↔ t.val < m
  recorded : ∃ idx : List Nat, idx.Nodup ∧ idx.length = m ∧ (∀ j ∈ idx, j < m) ∧
    ∀ (t : Fin apRequestHistoryCount) (j : Nat), idx[t.val]? = some j →
      (∃ c, s.log.completions[t.val]? = some c ∧ c.n = s.log.streamBase + j + 1 ∧
        (s.history t).slot = c.i.val.toUInt32 + 1) ∧
      (s.history t).request.state.finished = true ∧
      ∃ p, plan[j]? = some p ∧
        (s.history t).request.request = preparedHeader (b.apContextIndex + 1) p

/-- The books of a stream that returned are an account. -/
theorem Returned.account {k : Know} {l : StreamLocals} {result : Bool} {s : Machine}
    (h : Returned b k plan l result s) :
    StreamAccount b plan l l.nextPlan s := by
  -- no slot is out any more, so as many are recorded as were published
  have hcount : activeApRequestSlotCount l.active = 0 := by
    simp [activeApRequestSlotCount, h.inactive]
  have hcompleted : l.completedCount = l.nextPlan := by
    have := h.books.count
    omega
  have hlen : s.log.completions.length = l.nextPlan := by rw [h.books.completed, hcompleted]
  have hnumbered : ∀ c ∈ s.log.completions, ∃ p, c.n - (s.log.streamBase + 1) < l.nextPlan ∧
      c.n = s.log.streamBase + (c.n - (s.log.streamBase + 1)) + 1 ∧
      plan[c.n - (s.log.streamBase + 1)]? = some p ∧
      c.slot.request = preparedHeader (b.apContextIndex + 1) p := by
    intro c hc
    obtain ⟨j, p, hj, hp, hn, hreq⟩ := h.books.recorded c hc
    obtain rfl : c.n - (s.log.streamBase + 1) = j := by omega
    exact ⟨p, hj, by omega, hp, hreq⟩
  refine ⟨h.books.nextPlan_le, h.books.publications, h.books.plans,
    h.inactive, hcompleted, hlen, fun t => ⟨fun hv => ?_, fun ht => ?_⟩, ?_⟩
  · by_contra ht
    rw [h.books.blank t (by omega)] at hv
    cases hv
  · exact (h.books.entry t s.log.completions[t.val] (by omega) (List.getElem?_eq_getElem _)).valid
  · refine ⟨s.log.completions.map fun c => c.n - (s.log.streamBase + 1), ?_, by simpa using hlen, ?_,
      fun t j hj => ?_⟩
    · -- an index into the plan is the number of the publication, counted from the start of the stream
      have hinj : ∀ c ∈ s.log.completions, ∀ d ∈ s.log.completions,
          c.n - (s.log.streamBase + 1) = d.n - (s.log.streamBase + 1) → c.n = d.n := by
        intro c hc d hd he
        obtain ⟨-, -, hcn, -⟩ := hnumbered c hc
        obtain ⟨-, -, hdn, -⟩ := hnumbered d hd
        omega
      have hnodup := List.pairwise_map.1 h.books.nodup
      exact List.pairwise_map.2 (hnodup.imp_of_mem fun hc hd hne he => hne (hinj _ hc _ hd he))
    · intro j hj
      obtain ⟨c, hc, rfl⟩ := List.mem_map.1 hj
      obtain ⟨-, hlt, -⟩ := hnumbered c hc
      exact hlt
    · rw [List.getElem?_map, Option.map_eq_some_iff] at hj
      obtain ⟨c, hc, rfl⟩ := hj
      have hmem : c ∈ s.log.completions := List.mem_of_getElem? hc
      have ht : t.val < l.completedCount := by
        have := (List.getElem?_eq_some_iff.1 hc).1
        omega
      obtain ⟨p, -, hn, hp, hreq⟩ := hnumbered c hmem
      have hentry := h.books.entry t c ht hc
      exact ⟨⟨c, hc, hn, hentry.slot⟩, hentry.finished, p, hp, hentry.request.trans hreq⟩

/-- **No request is lost or recorded twice.** -/
theorem streamAccount_of_returned (b : Build) (plan : List ApRequestPlan) {s : Machine}
    {ap : Prog Machine ApPc} (hap : ApPlace b ap) {c : (apSystem b false).Config}
    (hr : (apSystem b false).Reach anyAccess (apConfig b false s ap (runApRequestStream b plan)) c)
    {plan' : List ApRequestPlan} {l : StreamLocals} {result : Bool}
    (hret : c.prog .bsp = .ret (BspPc.streamReturned plan' l result)) :
    ∃ m, StreamAccount b plan l m c.mem := by
  have hserves := serves_of_reach hr
  rw [hret] at hserves
  obtain rfl : plan' = plan := hserves
  have hcut := (Outline.sound anyStart_valid (anyStart_holds hap plan') hr).at_ .bsp
  rw [hret] at hcut
  have hreturned : Returned b .nothing plan' l result c.mem := hcut
  exact ⟨l.nextPlan, hreturned.account⟩

/-- A stream of one ping, from its first access to its return. -/
theorem streamAccount_of_returned_ping : ∃ c l m,
    (apSystem {} false).Reach anyAccess
      (apConfig {} false {} (.ret (.scan 0 false)) (runApRequestStream {} [broadcastPingPlan {}])) c ∧
    StreamAccount {} [broadcastPingPlan {}] l m c.mem := by
  obtain ⟨c, hr, hret⟩ : ∃ c : (apSystem {} false).Config, (apSystem {} false).Reach anyAccess
      (apConfig {} false {} (.ret (.scan 0 false)) (runApRequestStream {} [broadcastPingPlan {}])) c ∧
        streamIsBack (c.prog .bsp) = true := by
    refine System.exists_reach [goesOn .bsp Event.isPublished,
      goesOn .ap Event.isCompleted, goesToEnd .bsp] ?_
    decide +kernel
  obtain ⟨plan, l, result, hret⟩ := streamIsBack_iff.1 hret
  obtain ⟨m, hm⟩ := streamAccount_of_returned {} [broadcastPingPlan {}] (.cut _) hr hret
  exact ⟨c, l, m, hr, hm⟩

end VibeKernel

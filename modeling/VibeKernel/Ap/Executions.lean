import VibeKernel.Ap.HandlerFaults
import Mathlib.Algebra.Group.Nat.Defs

/-!
# The order of execution

The handler runs of the log, oldest first. While no fault strikes, nobody puts the counters back and
`request_handled_count` does not wrap, the `k`-th run reads that count as it was at the start plus
`k`, and a run of the counter's handler answers with the number of increments up to its own.
-/

namespace VibeKernel

open Conc

/-! ## The runs of the log -/

/-- The handler runs, each with the publication it belongs to. -/
@[simp] def Log.executions : Log → List (Nat × HandlerRun)
  | [] => []
  | .ran n _ r :: l => executions l ++ [(n, r)]
  | _ :: l => executions l

namespace Log

theorem length_executions (l : Log) : l.executions.length = l.runs.length := by
  induction l with
  | nil => rfl
  | cons e l ih => cases e <;> simp [ih]

theorem mem_executions {l : Log} {n : Nat} {r : HandlerRun} :
    (n, r) ∈ l.executions ↔ r ∈ l.runsOf n := by
  induction l with
  | nil => simp
  | cons e l ih =>
    cases e with
    | ran m i r' =>
      by_cases hm : m = n
      · simp [ih, hm, or_comm]
      · simp [ih, hm, Ne.symm hm]
    | _ => exact ih

theorem executions_of_not_byAp {e : Event} (he : e.byAp = false) (l : Log) :
    executions (e :: l) = executions l := by
  cases e <;> simp_all [Event.byAp]

/-- The position of a run in the list is its position in the order of execution. -/
theorem runIndex_of_executions {l : Log} (hnodup : (l.executions.map Prod.fst).Nodup) {k n : Nat}
    {r : HandlerRun} (hk : l.executions[k]? = some (n, r)) : l.runIndex n = k + 1 := by
  induction l with
  | nil => simp at hk
  | cons e l ih =>
    cases e with
    | ran m i r' =>
      simp only [executions, List.map_append, List.map_cons, List.map_nil] at hnodup hk
      obtain ⟨hold, -, hne⟩ := List.nodup_append.1 hnodup
      by_cases hlt : k < (executions l).length
      · rw [List.getElem?_append_left hlt] at hk
        have hmem : n ∈ (executions l).map Prod.fst :=
          List.mem_map.2 ⟨(n, r), List.mem_of_getElem? hk, rfl⟩
        have hnm : m ≠ n := fun he => hne n hmem m (by simp) he.symm
        simp [hnm, ih hold hk]
      · rw [List.getElem?_append_right (by omega), List.getElem?_singleton] at hk
        split at hk
        · simp only [Option.some.injEq, Prod.mk.injEq] at hk
          simp only [runIndex, if_pos hk.1, ← length_executions]
          omega
        · cases hk
    | _ => exact ih hnodup hk

/-- Two publications never have the same position. -/
theorem runIndex_inj {l : Log} {n m : Nat} (he : l.runIndex n = l.runIndex m)
    (h0 : 0 < l.runIndex n) : n = m := by
  induction l with
  | nil => simp at h0
  | cons e l ih =>
    cases e with
    | ran k i r =>
      have hn := runIndex_le n l
      have hm := runIndex_le m l
      simp only [runIndex] at he h0
      split at he <;> split at he
      · rename_i hkn hkm
        exact hkn.symm.trans hkm
      · omega
      · omega
      · rename_i hkn _
        rw [if_neg hkn] at h0
        exact ih he h0
    | _ => exact ih he h0

end Log

/-! ## What the runs read -/

/-- The run is of the counter's handler. -/
def HandlerRun.increments (r : HandlerRun) : Bool := r.handler == .counterIncrement

namespace ApPhase

/-- `request_handled_count` is one ahead of the runs. -/
@[simp] def handledAhead : ApPhase → Nat
  | .counted .. => 1
  | _ => 0

/-- `counter_value` is one ahead of the runs. -/
@[simp] def counterAhead : ApPhase → Nat
  | .incremented .. => 1
  | .counted _ _ .counterIncrement => 1
  | _ => 0

end ApPhase

/-- How many of the runs incremented the counter. -/
abbrev incrementsOf (xs : List (Nat × HandlerRun)) : Nat := xs.countP fun x => x.2.increments

/-- What a run reads that follows the runs `xs`. -/
structure ReadAfter (h0 c0 : UInt32) (xs : List (Nat × HandlerRun)) (r : HandlerRun) : Prop where
  faultCode : r.faultCode = 0
  handledCount : r.handledCount.toNat = h0.toNat + xs.length + 1
  resultCode : r.increments = true → r.resultCode = c0 + UInt32.ofNat (incrementsOf xs + 1)

/-- The two counters count the runs, since they were `h0` and `c0`. -/
structure ExecInv (h0 c0 : UInt32) (s : Machine) : Prop where
  once : (s.log.executions.map Prod.fst).Nodup
  untampered : s.log.tampered = false
  handled : s.requestHandledCount.toNat =
    h0.toNat + s.log.executions.length + s.log.phase.handledAhead
  counter : s.counterValue =
    c0 + UInt32.ofNat (incrementsOf s.log.executions + s.log.phase.counterAhead)
  run : ∀ xs n r ys, s.log.executions = xs ++ (n, r) :: ys → ReadAfter h0 c0 xs r

theorem ExecInv.nil {s : Machine} (h : s.log = []) :
    ExecInv s.requestHandledCount s.counterValue s := by
  constructor <;> simp [h]

/-- Nothing times out, nothing faults, and `request_handled_count` stays below `bound`. -/
def Smooth (bound : Nat) : Cpu → Machine → Machine → Prop
  | .ap, s, s' => s.faultEnters s' = false ∧
      (s'.requestHandledCount ≠ s.requestHandledCount → s.requestHandledCount.toNat + 1 < bound)
  | .bsp, s, s' => s.givesUp s' = false

instance (bound : Nat) (t : Cpu) (s s' : Machine) : Decidable (Smooth bound t s s') := by
  cases t <;> unfold Smooth <;> infer_instance

theorem Smooth.mono {m m' : Nat} (hm : m ≤ m') {t : Cpu} {s s' : Machine} (h : Smooth m t s s') :
    Smooth m' t s s' := by
  cases t with
  | ap => exact ⟨h.1, fun hne => lt_of_lt_of_le (h.2 hne) hm⟩
  | bsp => exact h

section Step

variable {b : Build} {k : Know} {h0 c0 : UInt32} {s s' : Machine}

theorem not_smooth_fault {m : Nat} {v : UInt64} : ¬ Smooth m .ap s (s.note (.faulted v)) := by
  simp [Smooth, Machine.faultEnters]

theorem not_smooth_overdue {m : Nat} {i : SlotIndex} : ¬ Smooth m .bsp s (s.note (.overdue i)) := by
  simp [Smooth, Machine.givesUp]

/-- No run more and nothing counted. -/
theorem ExecInv.keep (h : ExecInv h0 c0 s) (he : s'.log.executions = s.log.executions)
    (ht : s'.log.tampered = false) (hh : s'.requestHandledCount = s.requestHandledCount)
    (hc : s'.counterValue = s.counterValue)
    (hha : s'.log.phase.handledAhead = s.log.phase.handledAhead)
    (hca : s'.log.phase.counterAhead = s.log.phase.counterAhead) : ExecInv h0 c0 s' where
  once := by rw [he]; exact h.once
  untampered := ht
  handled := by rw [he, hh, hha]; exact h.handled
  counter := by rw [he, hc, hca]; exact h.counter
  run := by rw [he]; exact h.run

/-- The count of one more request. -/
theorem ExecInv.count (h : ExecInv h0 c0 s) {n : Nat} {i : SlotIndex} {hd : ApRequestHandler} {v : UInt32}
    (hv : v = s.requestHandledCount) (hlt : v.toNat + 1 < 2 ^ 32)
    (hha : s.log.phase.handledAhead = 0)
    (hca : s.log.phase.counterAhead = (ApPhase.counted n i hd).counterAhead) :
    ExecInv h0 c0 ({ s with requestHandledCount := v + 1 }.note (.counted n i hd)) where
  once := h.once
  untampered := h.untampered
  handled := by
    have hold := h.handled
    rw [hha, ← hv] at hold
    simp only [Machine.note_handled, Machine.note_log, Log.executions, Log.phase, ApPhase.handledAhead,
      UInt32.toNat_add, UInt32.toNat_one]
    omega
  counter := by
    have hold := h.counter
    rw [hca] at hold
    exact hold
  run := h.run

/-- One more run. -/
theorem ExecInv.ran (hm : MachineInv b c0 s) (h : ExecInv h0 c0 s) {n : Nat} {i : SlotIndex}
    {r : HandlerRun} (hp : s.log.phase = .counted n i r.handler) (hfault : r.faultCode = 0)
    (hread : r.handledCount = s.requestHandledCount ∧
      (r.handler = .counterIncrement → r.resultCode = s.counterValue)) :
    ExecInv h0 c0 ((s.setMetrics i fun m => { m with handledCount := r.handledCount }).note
      (.ran n i r)) := by
  have hhandled := h.handled
  have hcounter := h.counter
  rw [hp] at hhandled hcounter
  -- the counter is ahead by the increment of this run, which is logged now
  have hone : (if r.increments then 1 else 0) = (ApPhase.counted n i r.handler).counterAhead := by
    unfold HandlerRun.increments
    cases r.handler <;> rfl
  refine ⟨?_, h.untampered, ?_, ?_, fun xs m r' ys he => ?_⟩
  · -- the publication has not run before
    have hnew : n ∉ s.log.executions.map Prod.fst := by
      intro hmem
      obtain ⟨⟨m, r'⟩, hx, rfl⟩ := List.mem_map.1 hmem
      have hnone := hm.log.beforeRun m i (by rw [hp]; rfl) (by rw [hp]; rfl)
      rw [Log.mem_executions, hnone] at hx
      cases hx
    simp only [Machine.note_log, Machine.setSlot_log, Log.executions, List.map_append, List.map_cons,
      List.map_nil]
    refine List.nodup_append.2 ⟨h.once, List.nodup_singleton _, fun a ha a' ha' => ?_⟩
    obtain rfl := List.mem_singleton.1 ha'
    exact fun he => hnew (he ▸ ha)
  · simpa [Nat.add_assoc] using hhandled
  · simpa [List.countP_append, List.countP_cons, hone] using hcounter
  · simp only [Machine.note_log, Machine.setSlot_log, Log.executions] at he
    rcases List.eq_nil_or_concat ys with rfl | ⟨ys, y, rfl⟩
    · obtain ⟨rfl, hx⟩ := List.append_inj' he rfl
      obtain ⟨rfl, rfl⟩ := Prod.mk.inj (List.cons.inj hx).1
      refine ⟨hfault, by rw [hread.1]; exact hhandled, fun hi => ?_⟩
      rw [if_pos hi] at hone
      rw [hread.2 (by simpa [HandlerRun.increments] using hi), hcounter, ← hone]
    · refine h.run xs m r' ys ?_
      rw [List.concat_eq_append, ← List.cons_append, ← List.append_assoc] at he
      exact (List.append_inj' he rfl).1

/-- The increment. -/
theorem ExecInv.increment (h : ExecInv h0 c0 s) {n : Nat} {i : SlotIndex} {v : UInt32}
    (hv : v = s.counterValue) (hha : s.log.phase.handledAhead = 0)
    (hca : s.log.phase.counterAhead = 0) :
    ExecInv h0 c0 ({ s with counterValue := v + 1 }.note (.incremented n i)) where
  once := h.once
  untampered := h.untampered
  handled := by
    have hold := h.handled
    rw [hha] at hold
    exact hold
  counter := by
    have hold := h.counter
    rw [hca] at hold
    simp only [Machine.note_counter, Machine.note_log, Log.executions, Log.phase, ApPhase.counterAhead, hv,
      hold, UInt32.ofNat_add, UInt32.add_assoc]
    rfl
  run := h.run

/-- **The AP counts its runs.** -/
theorem ExecInv.apAct (hm : MachineInv b c0 s) (h : ExecInv h0 c0 s) (hok : Smooth (2 ^ 32) .ap s s')
    (ha : ApAct b c0 s s') : ExecInv h0 c0 s' := by
  have hclean := h.untampered
  cases ha with
  | own hs =>
    exact h.keep (by rw [hs.log]) (by rw [hs.log]; exact hclean) hs.handled hs.counter (by rw [hs.log])
      (by rw [hs.log])
  | dropCurrent | goOnline | backOnline | reply | metrics | badOp | faultVector | faultReply | faultSlot =>
    exact h.keep rfl hclean rfl rfl rfl rfl
  | claim i hp | take hp | readService hp | lookUp hp | rereadService hp | miss hp | halt hp | reject hp
  | complete hp =>
    exact h.keep rfl (by first | exact hclean | rfl) rfl rfl (by rw [hp]; rfl) (by rw [hp]; rfl)
  | increment v hp hv hf =>
    exact h.increment (hf hclean) (by rw [hp]; rfl) (by rw [hp]; rfl)
  | @count n i hd v hp hf =>
    have hv := hf hclean
    have hlt : v.toNat + 1 < 2 ^ 32 := by
      rw [hv]
      refine hok.2 fun he => ?_
      simp [hv] at he
    rcases hp with ⟨svc, ifc, hp, rfl⟩ | ⟨hp, rfl⟩ <;>
    exact h.count hv hlt (by rw [hp]; rfl) (by rw [hp]; rfl)
  | run hp hfault hf => exact h.ran hm hp hfault (hf hclean)
  | fault v => exact absurd hok not_smooth_fault
  | post hp => exact h.keep rfl hclean rfl rfl rfl rfl

/-- **The BSP leaves the counters alone.** -/
theorem ExecInv.bspAct (hk : k.calm) (h : ExecInv h0 c0 s) (ha : BspAct b k c0 s s') :
    ExecInv h0 c0 s' := by
  have hclean := h.untampered
  cases ha with
  | own hs =>
    exact h.keep (by rw [hs.log]) (by rw [hs.log]; exact hclean) hs.handled hs.counter (by rw [hs.log])
      (by rw [hs.log])
  | mark e he => cases e <;> first | exact h.keep rfl hclean rfl rfl rfl rfl | exact nomatch he
  | began | finish | publish => exact h.keep rfl hclean rfl rfl rfl rfl
  | overdue i hno | timeout i hno | restoreHandled v hno | restoreCounter v hno => exact absurd hk hno
  | reset | prepare | waitLoops | stopReply | stopFault | stopSkip =>
    exact h.keep rfl hclean rfl rfl rfl rfl

end Step

end VibeKernel

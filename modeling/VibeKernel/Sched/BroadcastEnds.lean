import VibeKernel.Ap.StreamEnds
import VibeKernel.Sched.Broadcast

/-!
# The broadcast ping ends

`run_ap_broadcast_ping` waits for APs that may be slow, faulted or gone. Every round of its wait either
takes the last ping back or advances `wait_loops`, which is all that the rounds are counted by: the APs
have no say in it.
-/

namespace VibeKernel

open Conc

/-- At most this many rounds follow. -/
def BroadcastPc.roundsLeft (b : Build) : BroadcastPc → Nat
  | .loop l =>
    if l.activeCount = 0 then 1 else b.apRequestTimeoutLoops.toNat - l.waitLoops.toNat + 2
  | .returned => 0

/-- `wait_loops` has not passed the timeout. -/
def BroadcastPc.InBudget (b : Build) : BroadcastPc → Prop
  | .loop l => l.waitLoops ≤ b.apRequestTimeoutLoops
  | .returned => True

section Rounds

variable {b : Build} {contextCount : Nat} {target : Option ApContextIndex} {l : BroadcastLocals}
  {w : UInt32}

theorem sendBroadcastPing_waitLoops (h : l.waitLoops = w) (i : ApContextIndex) :
    (sendBroadcastPing b l i).Ends fun l' => l'.waitLoops = w := by
  refine .bind (fun accepts => ?_) _
  refine .cond (.bind (fun _ => ?_) _) (.ret h)
  exact .bind (fun _ => .ret (by exact h)) _

theorem takeBroadcastPing_waitLoops (h : l.waitLoops = w) (i : ApContextIndex) :
    (takeBroadcastPing l i).Ends fun l' => l'.waitLoops = w := by
  refine .cond (.bind (fun st => ?_) _) (.ret h)
  refine .cond (.bind (fun _ => ?_) _) (.ret h)
  exact .bind (fun _ => .ret (by exact h)) _

theorem runBroadcastPing_inBudget :
    (runBroadcastPing b contextCount target).Ends (BroadcastPc.InBudget b) := by
  refine .bind (fun handled => ?_) _
  refine .bind (fun counter => ?_) _
  refine .bind (fun _ => ?_) _
  refine .seq (P := fun l => l.waitLoops = 0) (fun l hl => .ret ?_)
    (.foldOver (P := fun l : BroadcastLocals => l.waitLoops = 0)
      (fun l i hl => sendBroadcastPing_waitLoops hl i) _ _ rfl)
  show l.waitLoops ≤ b.apRequestTimeoutLoops
  rw [hl]
  exact UInt32.le_iff_toNat_le.2 (Nat.zero_le _)

/-- **One round** of the wait, whatever the APs do. -/
theorem broadcastRound_ends (hstep : 1 ≤ b.bspWaitTimerTimeoutStep)
    (hl : l.waitLoops ≤ b.apRequestTimeoutLoops) :
    (broadcastRound b contextCount target l).Ends fun pc =>
      pc.InBudget b ∧ pc.roundsLeft b < (BroadcastPc.loop l).roundsLeft b := by
  unfold broadcastRound
  split
  · -- a round of the wait: taking pings back leaves `wait_loops` alone
    rename_i hwaits
    obtain ⟨hactive, hlt⟩ := hwaits
    have hleft : (BroadcastPc.loop l).roundsLeft b =
        b.apRequestTimeoutLoops.toNat - l.waitLoops.toNat + 2 := if_neg (by omega)
    refine .seq (P := fun l' => l'.waitLoops = l.waitLoops) (fun l' hl' => ?_)
      (.foldOver (fun l' i hl' => takeBroadcastPing_waitLoops hl' i) _ _ rfl)
    split
    · rename_i hnone
      have hone : (BroadcastPc.loop l').roundsLeft b = 1 := if_pos hnone
      refine .ret ⟨?_, by omega⟩
      rw [← hl'] at hl
      exact hl
    · rename_i hsome
      refine .bind (fun timer => .ret ?_) _
      have hpos : 1 ≤ (if timer then b.bspWaitTimerTimeoutStep else 1) := by
        split
        · exact hstep
        · decide
      have hlt' : l'.waitLoops < b.apRequestTimeoutLoops := by rwa [hl']
      obtain ⟨hadv, hle⟩ := advanceApRequestWaitLoops_lt hlt' hpos
      refine ⟨hle, ?_⟩
      rw [hleft]
      show (if l'.activeCount = 0 then 1 else _) < _
      rw [if_neg hsome]
      rw [UInt32.lt_iff_toNat_lt, hl'] at hadv
      rw [UInt32.le_iff_toNat_le, hl'] at hle
      simp only [hl']
      omega
  · -- the wait is over, and what is still out is timed out
    have hpos : 0 < (BroadcastPc.loop l).roundsLeft b := by
      rw [BroadcastPc.roundsLeft]
      split <;> omega
    refine .bind (fun l' => ?_) _
    exact .bind (fun _ => .ret ⟨trivial, hpos⟩) _

theorem broadcastBody_ends (hstep : 1 ≤ b.bspWaitTimerTimeoutStep) (pc : BroadcastPc)
    (p : Prog KernelMemory BroadcastPc) (hpc : pc.InBudget b)
    (hp : broadcastBody b contextCount target pc = some p) :
    p.Ends fun pc' => pc'.InBudget b ∧ pc'.roundsLeft b < pc.roundsLeft b := by
  cases pc with
  | loop l =>
    obtain rfl := Option.some.inj hp
    exact broadcastRound_ends hstep hpc
  | returned => cases hp

end Rounds

/-! ## Runs -/

section Runs

variable {b : Build} {contextCount : Nat} {target : Option ApContextIndex} {l : BroadcastLocals}

/-- `run_ap_broadcast_ping`, beside all APs. -/
abbrev broadcastSystem (b : Build) (contextCount : Nat) (target : Option ApContextIndex) :
    System Processor KernelMemory :=
  kernelSystem b (broadcastBody b contextCount target)

open Classical in
/-- What the end of a broadcast ping is about: every run of the BSP and the APs from `c0`. -/
structure BroadcastEnds (b : Build) (contextCount : Nat) (target : Option ApContextIndex)
    (c0 : (broadcastSystem b contextCount target).Config) : Prop where
  /-- The BSP takes finitely many turns. -/
  ends : (broadcastSystem b contextCount target).ComesToEnd anyTurn .bsp c0
  /-- It can always take one until it has returned. -/
  returns : ∀ c, (broadcastSystem b contextCount target).Reach anyTurn c0 c →
    (∃ d, (broadcastSystem b contextCount target).Turn anyTurn .bsp c d) ∨
      c.prog .bsp = .ret BroadcastPc.returned
  budget : ∀ c, (broadcastSystem b contextCount target).Reach anyTurn c0 c →
    ∀ l, c.prog .bsp = .ret (BroadcastPc.loop l) → l.waitLoops ≤ b.apRequestTimeoutLoops
  /-- It starts no more rounds than the timeout has loops, and two. -/
  rounds : ∀ run : Nat → (broadcastSystem b contextCount target).Config, run 0 = c0 →
    (∀ k, (broadcastSystem b contextCount target).Step anyTurn (run k) (run (k + 1))) →
      ∀ n, Nat.count (fun k => (broadcastSystem b contextCount target).Starts anyTurn .bsp
        (run k) (run (k + 1))) n ≤ b.apRequestTimeoutLoops.toNat + 2

theorem roundsLeft_le (pc : BroadcastPc) : pc.roundsLeft b ≤ b.apRequestTimeoutLoops.toNat + 2 := by
  cases pc with
  | loop l =>
    rw [BroadcastPc.roundsLeft]
    split <;> omega
  | returned => exact Nat.zero_le _

/-- **The broadcast ping always ends**, from any memory and with every AP anywhere in its code. -/
theorem broadcastPing_alwaysEnds (hstep : 1 ≤ b.bspWaitTimerTimeoutStep) (contextCount : Nat)
    (target : Option ApContextIndex) (contexts : ApContexts)
    (aps : ApContextIndex → Prog Machine ApPc) :
    BroadcastEnds b contextCount target (broadcastStart b contextCount target contexts aps) := by
  have hstart : (runBroadcastPing b contextCount target).Ends (BroadcastPc.InBudget b) :=
    runBroadcastPing_inBudget
  have hreach : ∀ {c}, (broadcastSystem b contextCount target).Reach anyTurn
      (broadcastStart b contextCount target contexts aps) c →
        (c.prog .bsp : Prog KernelMemory BroadcastPc).Ends (BroadcastPc.InBudget b) := fun hr =>
    System.Reach.ends (S := broadcastSystem b contextCount target) (t := .bsp)
      (fun pc p hpc hp => (broadcastBody_ends hstep pc p hpc hp).mono fun _ h => h.1)
      (fun x : Empty => x.elim) hstart hr
  refine ⟨fun run h0 hrun => ?_, fun c hc => ?_, fun c hc l hl => ?_, fun run h0 hrun n => ?_⟩
  · -- nothing is relied on
    let E : Env KernelMemory := ⟨fun _ => True, fun _ _ => True, fun _ _ => True, fun _ _ => True⟩
    have hhalts : Halts E (broadcastBody b contextCount target) ((run 0).prog .bsp) (run 0).mem :=
      Halts.of_ends (fun pc hpc s => Halts.of_measure (BroadcastPc.roundsLeft b)
        (fun pc p => broadcastBody_ends hstep pc p) pc hpc s) (hreach (h0 ▸ .refl)) _
    exact System.turns_end (E := E) (n := 0) (fun x : Empty => x.elim) hrun (fun _ _ => trivial)
      (fun _ _ _ => trivial) (fun _ _ _ _ _ => .single trivial) hhalts
  · -- the BSP has no next turn only where the function has returned
    have hturn : (∃ d, (broadcastSystem b contextCount target).Turn anyTurn .bsp c d) ∨ ∃ pc,
        c.prog .bsp = .ret pc ∧ broadcastBody b contextCount target pc = none :=
      System.canTurn_or_stopped (fun _ _ => trivial) c
    refine hturn.imp_right ?_
    rintro ⟨pc, hpc, hnone⟩
    cases pc with
    | loop l => cases hnone
    | returned => exact hpc
  · have hpc := hreach hc
    rw [hl] at hpc
    exact hpc
  · refine System.count_starts_le (S := broadcastSystem b contextCount target) (t := .bsp)
      (Q := BroadcastPc.InBudget b) (μ := BroadcastPc.roundsLeft b) (fun x : Empty => x.elim)
      (fun pc p => broadcastBody_ends hstep pc p) hrun ?_ n
    rw [h0]
    exact hstart.mono fun pc hpc => ⟨hpc, roundsLeft_le pc⟩

theorem broadcastPing_alwaysEnds_default :
    BroadcastEnds {} 2 (some 1) (broadcastStart {} 2 (some 1) freshContexts fun _ => .ret .start) :=
  broadcastPing_alwaysEnds (by decide) 2 (some 1) freshContexts _

end Runs

end VibeKernel

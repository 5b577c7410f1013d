import VibeKernel.Idle.Wakes

/-!
# Every interrupt is handled

Whatever a processor is interrupted by in one of its windows, the gate for it in its IDT leads to a
handler that comes back.
-/

namespace VibeKernel.Idle

open Conc Apic

variable {b : Build} {base : UInt64} {c c' : (idleSystem b base).Config}

/-- The kernel has a handler for every vector it uses. -/
theorem isr_of_may {p : Cpu} {v : UInt8} (h : kernelVectors.may p v) (frame : InterruptFrame) :
    (isr base p v frame).isSome := by
  cases p with
  | ap =>
    rcases h with rfl | rfl
    · rfl
    · rfl
  | bsp =>
    rcases h with rfl | rfl
    · rfl
    · rfl

/-- An interrupt that is taken is the spurious one, or its vector waits in the LAPIC. -/
theorem vector_of_takeInterrupt {p : Cpu} {x : Interrupt} {s s' : IdleMemory}
    (h : takeInterrupt p x s = some s') :
    x.vector = lapicSpuriousVector ∨ x.vector ∈ (s.cpus p).lapic.requests := by
  unfold takeInterrupt at h
  split_ifs at h with hwindow hspurious hvector hoffers
  · exact .inl hvector
  · exact .inr hoffers.waits

/-- **Every interrupt is handled.** If no other vectors wait at the start, the gate for whatever a
processor is interrupted by leads to a handler, and no processor ever ends up in `isr_unhandled` or
`isr_ap_unhandled`. -/
theorem interrupts_handled (hc : IdleStart kernelVectors c)
    (hr : (idleSystem b base).Reach anyTurn c c') (p : Cpu) :
    c'.prog (.cpu p) ≠ .ret .stuck ∧ ∀ x s', takeInterrupt p x c'.mem = some s' →
      (isr base p x.vector x.frame).isSome := by
  have hholds := hc.invariant hr
  constructor
  · intro hstuck
    have hat := hholds.at_ (.cpu p)
    rw [hstuck] at hat
    obtain ⟨v, frame, hv, hnone⟩ := hat
    have hsome : (isr base p v frame).isSome := isr_of_may hv frame
    rw [hnone] at hsome
    cases hsome
  · intro x s' hx
    rcases vector_of_takeInterrupt hx with hv | hv
    · rw [hv]
      cases p <;> rfl
    · exact isr_of_may ((hholds.inv.cpu p).requests _ hv) x.frame

/-! ## A run with interrupts -/

/-- The memory is `s`, and the hardware has nothing begun. -/
def withMemory (c : (idleSystem b base).Config) (s : IdleMemory) : (idleSystem b base).Config :=
  ⟨s, Function.update c.prog .hardware (.ret .next)⟩

theorem withMemory_withMemory (s s' : IdleMemory) :
    withMemory (withMemory c s) s' = withMemory c s' := by
  simp [withMemory]

theorem withMemory_mem (hp : c.prog .hardware = .ret .next) : withMemory c c.mem = c := by
  rw [withMemory, ← hp, Function.update_eq_self]

/-- The hardware can do `e`. -/
theorem reach_event (e : HardwareEvent) (hp : c.prog .hardware = .ret .next) :
    (idleSystem b base).Reach anyTurn c (withMemory c (hardwareStep e c.mem)) := by
  have hchoose : (idleSystem b base).Reach anyTurn c ⟨c.mem, Function.update c.prog .hardware
      (.act (fun s => ((), hardwareStep e s)) fun _ => .ret .next)⟩ :=
    System.reach_of_choice hp rfl trivial e
  exact hchoose.trans ((System.Move.turns .hardware 1).sound
    (by simp [System.Move.turns, System.Move.until, System.alone, withMemory]))

/-- The hardware can tick as often as it likes. -/
theorem reach_ticks (p : Cpu) (hp : c.prog .hardware = .ret .next) (k : Nat) :
    (idleSystem b base).Reach anyTurn c (withMemory c ((hardwareStep (.tick p))^[k] c.mem)) := by
  induction k with
  | zero =>
    have hsame : withMemory c ((hardwareStep (.tick p))^[0] c.mem) = c := withMemory_mem hp
    rw [hsame]
  | succ k ih =>
    have hnext := reach_event (.tick p) (c := withMemory c ((hardwareStep (.tick p))^[k] c.mem))
      (by simp [withMemory])
    rw [withMemory_withMemory, withMemory, ← Function.iterate_succ_apply' (hardwareStep (.tick p))]
      at hnext
    exact ih.trans hnext

/-- The hardware does `e`. -/
def event (e : HardwareEvent) : System.Move (idleSystem b base) anyTurn where
  go d :=
    match d.prog .hardware with
    | .ret .next => some (withMemory d (hardwareStep e d.mem))
    | _ => none
  sound {d d'} h := by
    split at h
    · rename_i hp
      obtain rfl := Option.some.inj h
      exact reach_event e hp
    · cases h

/-- The timer of processor `p` ticks `k` times, and is still running. -/
def countDown (p : Cpu) (k : Nat) : System.Move (idleSystem b base) anyTurn where
  go d :=
    match d.prog .hardware with
    | .ret .next =>
      if k < (d.mem.cpus p).lapic.currentCount.toNat then
        some (withMemory d (d.mem.setLapic p fun l =>
          { l with currentCount := l.currentCount - UInt32.ofNat k }))
      else none
    | _ => none
  sound {d d'} h := by
    split at h
    · rename_i hp
      split at h
      · rename_i hk
        obtain rfl := Option.some.inj h
        have hticks := reach_ticks p hp k
        rw [iterate_tick, IdleMemory.setLapic, IdleMemory.setCpu, Lapic.iterate_tick_of_lt hk] at hticks
        exact hticks
      · cases h
    · cases h

/-- The BSP does `x` next. -/
def bspDoes (x : BspStep) : System.Move (idleSystem b base) anyTurn where
  go d :=
    match d.prog (.cpu .bsp) with
    | .ret .next => some ⟨d.mem, Function.update d.prog (.cpu .bsp) (bspStep b base x)⟩
    | _ => none
  sound {d d'} h := by
    split at h
    · rename_i hp
      obtain rfl := Option.some.inj h
      exact System.reach_of_choice (t := Agent.cpu .bsp) hp rfl trivial x
    · cases h

/-- Processor `p` takes vector `v`, in window `r`. -/
def taking (p : Cpu) (v : UInt8) (r : Resume) : System.Move (idleSystem b base) anyTurn :=
  .trap (.cpu p) ⟨v, false, r, ⟨0x100000, 8, 0x202⟩⟩

/-- The BSP publishes in slot `i`, as its `n`th publication, and kicks the AP. -/
def kicking (i : SlotIndex) (n : UInt32) : List (System.Move (idleSystem {} 0xfee00000) anyTurn) :=
  [bspDoes (.publish i (broadcastPingPlan {}) true),
    .until (.cpu .bsp) 400 fun s => s.counts.requestKickIpiSendCount = n]

/-- The AP sleeps, the BSP gives it a request in every slot and sleeps as well. The kick wakes the AP,
which handles the requests, tells the BSP and sleeps again. The BSP's timer runs out, and the IPI that
tells it finds it in its last window. The AP's timer runs out, too. -/
def wakeUps : List (System.Move (idleSystem {} 0xfee00000) anyTurn) :=
  [.until (.cpu .ap) 400 fun s => (s.cpus .ap).halted] ++
  (allSlots.flatMap fun i => kicking i (.ofNat (i.val + 1))) ++
  [bspDoes .wait,
    .until (.cpu .bsp) 400 fun s => (s.cpus .bsp).halted,
    event (.arrive .ap apRequestKickIpiVector),
    taking .ap apRequestKickIpiVector (.awake 0),
    .until (.cpu .ap) 2000 fun s => (s.cpus .ap).halted,
    countDown .bsp 999999,
    event (.tick .bsp),
    taking .bsp bspWaitTimerVector (.awake 0),
    .until (.cpu .bsp) 400 fun s => s.bspWait.wakeCount = 1,
    .turns (.cpu .bsp) 2,
    event (.arrive .bsp apRequestIpiVector),
    bspDoes .drain,
    .until (.cpu .bsp) 400 fun s => (s.cpus .bsp).window.isSome,
    taking .bsp apRequestIpiVector .draining,
    .until (.cpu .bsp) 400 fun s => (s.cpus .bsp).window.isSome,
    countDown .ap 999999,
    event (.tick .ap),
    taking .ap apIdleTimerVector (.awake 0),
    .until (.cpu .ap) 400 fun s => (s.cpus .ap).window.isSome]

/-- Both IPIs and both timers interrupt. -/
theorem interrupts_handled_wakeUps : ∃ c, (idleSystem {} 0xfee00000).Reach anyTurn quietStart c ∧
    (c.mem.interrupts.kickIpi.count = 1 ∧ c.mem.interrupts.completionIpi.count = 1 ∧
      c.mem.interrupts.idleTimerCount = 1 ∧ c.mem.bspWait.timerCount = 1) ∧
    ∀ p, c.prog (.cpu p) ≠ .ret .stuck ∧ ∀ x s', takeInterrupt p x c.mem = some s' →
      (isr 0xfee00000 p x.vector x.frame).isSome := by
  have hrun : ∃ c, (idleSystem {} 0xfee00000).Reach anyTurn quietStart c ∧
      c.mem.interrupts.kickIpi.count = 1 ∧ c.mem.interrupts.completionIpi.count = 1 ∧
      c.mem.interrupts.idleTimerCount = 1 ∧ c.mem.bspWait.timerCount = 1 := by
    refine System.exists_reach wakeUps ?_
    decide +kernel
  obtain ⟨c, hr, hcounts⟩ := hrun
  exact ⟨c, hr, hcounts, interrupts_handled quietStart_start hr⟩

end VibeKernel.Idle

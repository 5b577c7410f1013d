import VibeKernel.Conc.Drive
import VibeKernel.Idle.Invariant

/-!
# Nobody sleeps through a kick

A processor that halts goes on, and an AP that halts has heard of every kick. The first is kept by
the timer, which is started before the window opens and stopped after it closed, and by the EOI of
every handler. The second is kept by the scan: a slot that the scan passed was not `PENDING` then, so
its kick comes later, and no interrupt is taken before the next window.
-/

namespace VibeKernel.Idle

open Conc Apic

section Own

variable {V : Vectors} {b : Build} {base : UInt64} {c : Cpu} {L : Lapic → Prop} {K : SlotIndex → Prop}

/-! ## The AP -/

theorem handleRequest_handled (n : Nat) (i : SlotIndex) (h : ApRequestHandler) :
    (handleRequest b n i h).Ends fun pc => ∀ j, pc ≠ .scan j false := by
  unfold handleRequest
  split
  · rename_i pc hpc
    refine .ret fun j => ?_
    rintro rfl
    unfold runApRequestTestHook at hpc
    split at hpc
    · cases hpc
    · cases hpc
    · split_ifs at hpc
      cases hpc
  · -- whatever the six steps do, the scan goes on behind the slot
    iterate 6 refine .bind (fun _ => ?_) _
    exact .ret nofun

theorem missRequest_handled (n : Nat) (i : SlotIndex) :
    (missRequest b n i).Ends fun pc => ∀ j, pc ≠ .scan j false := by
  iterate 9 refine .bind (fun _ => ?_) _
  exact .ret nofun

/-- A scan that handled a slot goes on as one that handled something. -/
theorem dispatchRequest_handled (n : Nat) (i : SlotIndex) :
    (dispatchRequest b n i).Ends fun pc => ∀ j, pc ≠ .scan j false := by
  -- up to the lookup
  iterate 8 refine .bind (fun _ => ?_) _
  refine .bind (fun handler => ?_) _
  cases handler with
  | none => exact missRequest_handled n i
  | some h => exact handleRequest_handled n i h

theorem apEntryOne_triple :
    Triple (cpuEnv V b base .ap) (Knows .ap (Free base) fun _ => False) (apEntryOne base)
      (PointOk V base .ap) := by
  refine .bind (R := fun _ => Knows .ap (Ready base) fun _ => False) ?_ fun _ => .ret fun _ h => h
  refine .cond (fun h0 => .ret fun s h => ⟨⟨h.own.window, h.own.halted, fun hb => absurd h0 hb⟩,
    h.heard⟩) fun _ => ?_
  exact .bind enable_triple fun _ => disarm_ready

/-- A slot that the AP passes is not `PENDING`, so its kick is still to come. -/
theorem Knows.pass {s : IdleMemory} {i : SlotIndex} {handledWork : Bool}
    (h : PointOk V base .ap (.work (.scan i handledWork)) s) (hst : (s.ctx.slots i).state ≠ .pending) :
    PointOk V base .ap (.work (.scan (i.val + 1) handledWork)) s := by
  refine ⟨h.own, fun hc k hk => ?_⟩
  rcases Nat.lt_succ_iff_lt_or_eq.1 hk.2 with hlt | heq
  · exact h.heard hc k ⟨hk.1, hlt⟩
  · obtain rfl : k = i := Fin.ext heq
    exact fun hp => absurd hp hst

theorem claim_triple (i : SlotIndex) :
    Triple (cpuEnv V b base c) (Knows c (Ready base) K) (onCtx (.swap (claimSlot i)))
      fun claim s => (claim = none → (s.ctx.slots i).state ≠ .pending) ∧ Knows c (Ready base) K s := by
  refine .swap (f := fun s : IdleMemory => ((claimSlot i s.ctx).1, ctxPart.put (claimSlot i s.ctx).2 s))
    (Knows.stable Ready.steady) fun s hinv _ h => ?_
  by_cases hst : (s.ctx.slots i).state = .pending
  · have hclaim : claimSlot i s.ctx = (some (s.ctx.log.latest i),
        (s.ctx.setState i .running).note (.claimed (s.ctx.log.latest i) i)) := if_pos hst
    rw [hclaim]
    have hmute : NoPublish s.ctx ((s.ctx.setState i .running).note (.claimed (s.ctx.log.latest i) i)) :=
      SlotAccess.note (.setState nofun) _
    obtain ⟨hact, hk⟩ := onCtx_act hinv hmute h
    exact ⟨hact, nofun, hk⟩
  · have hclaim : claimSlot i s.ctx = (none, s.ctx) := if_neg hst
    rw [hclaim]
    obtain ⟨hact, hk⟩ := onCtx_act hinv (.of_slots rfl) h
    exact ⟨hact, fun _ => hst, hk⟩

theorem dispatch_triple (n : Nat) (i : SlotIndex) :
    Triple (cpuEnv V b base .ap) (Knows .ap (Ready base) K) (onCtx (dispatchRequest b n i))
      fun pc => PointOk V base .ap (.work pc) := by
  have hkeep : Triple (cpuEnv V b base .ap) (Knows .ap (Ready base) K) (onCtx (dispatchRequest b n i))
      fun _ => Knows .ap (Ready base) K := onCtx_triple Ready.steady Mute.dispatchRequest
  intro s h
  refine wp_mono (fun pc s' ⟨hpc, hk⟩ => ?_) _ s
    (wp_ends _ s (Prog.Ends.onPart (dispatchRequest_handled n i)) (hkeep s h))
  cases pc with
  | scan j handledWork =>
    cases handledWork with
    | false => exact absurd rfl (hpc j)
    | true => exact ⟨hk.own, fun _ _ hfalse => nomatch hfalse.1⟩
  | start | hung | ud2 | halted | faulted => exact ⟨hk.own, fun _ _ => False.elim⟩

/-- **What a scan learns.** -/
theorem scanSlot_triple (i : SlotIndex) (handledWork : Bool) :
    Triple (cpuEnv V b base .ap) (PointOk V base .ap (.work (.scan i handledWork)))
      (onCtx (scanSlot b i handledWork)) fun pc => PointOk V base .ap (.work pc) := by
  rw [onCtx, scanSlot, Prog.onPart_bind]
  refine .bind (R := fun st s => (st ≠ .pending → (s.ctx.slots i).state ≠ .pending) ∧
    PointOk V base .ap (.work (.scan i handledWork)) s) ?_ fun st => ?_
  · exact .load (f := fun s : IdleMemory => (s.ctx.slots i).state) (Knows.stable Ready.steady)
      (fun s hinv => (IdleAct.beside hinv rfl rfl rfl (.of_slots rfl)).1) fun s _ h => ⟨id, h⟩
  by_cases hst : st ≠ .pending
  · rw [if_pos hst]
    exact .ret fun s h => Knows.pass h.2 (h.1 hst)
  · rw [if_neg hst, Prog.onPart_bind]
    refine .bind ((claim_triple i).pre fun s h => h.2) fun claim => ?_
    cases claim with
    | none => exact .ret fun s h => Knows.pass h.2 (h.1 rfl)
    | some n => exact (dispatch_triple n i).pre fun s h => h.2

/-- The AP notifies the BSP of what it did, and does not forget what it learned. -/
theorem afterScan_triple (pc : ApPc) :
    Triple (cpuEnv V b base .ap) (PointOk V base .ap (.work pc)) (afterScan base pc)
      (PointOk V base .ap) := by
  cases pc with
  | scan i handledWork =>
    cases handledWork with
    | false => exact .ret fun _ h => h
    | true =>
      refine .bind .any fun takenBack => ?_
      refine .bind (R := fun _ => PointOk V base .ap (.work (.scan i true))) ?_ fun _ => .ret fun _ h => h
      exact .cond (fun _ => .ret fun _ h => h) fun _ => apNotify_triple
  | halted => exact .bind apNotify_triple fun _ => .bind disarm_ready fun _ => .ret fun _ h => h
  | start | hung | ud2 | faulted => exact .ret fun _ h => h

/-- **An AP that has passed every slot may halt.** -/
theorem apIdle_triple {i : Nat} (hi : apRequestSlotCount ≤ i) :
    Triple (cpuEnv V b base .ap) (PointOk V base .ap (.work (.scan i false))) (apIdle base)
      (PointOk V base .ap) := by
  have hall : ∀ s, PointOk V base .ap (.work (.scan i false)) s →
      Knows .ap (Ready base) (fun _ => True) s := fun s h =>
    ⟨h.own, fun hc k _ => h.heard hc k ⟨rfl, k.isLt.trans_le hi⟩⟩
  refine Triple.pre ?_ hall
  refine .bind (load_triple Ready.steady _) fun target => ?_
  refine .bind (R := fun armed s => if armed then base ≠ 0 ∧ Knows .ap Armed (fun _ => True) s
    else Knows .ap (Ready base) (fun _ => True) s) ?_ fun armed => ?_
  · refine .cond (fun _ => .cond (fun _ => .ret fun _ h => h) fun hbase => ?_) fun _ => .ret fun _ h => h
    exact .bind (start_triple hbase V.idleTimer (by decide) (by decide) (by decide)) fun _ =>
      .ret fun _ h => ⟨hbase, h⟩
  cases armed with
  | false => exact .bind open_ready fun _ => .ret fun _ h => h
  | true =>
    refine Triple.lift fun hbase => ?_
    refine .bind (beside_triple Armed.steady (fun _ => rfl) (fun _ => rfl) (fun _ => rfl) fun _ => rfl)
      fun _ => ?_
    exact .bind (stiHlt_triple hbase 0) fun _ => .ret fun _ _ => trivial

theorem apWake_triple (before : UInt32) :
    Triple (cpuEnv V b base .ap) (PointOk V base .ap (.awake before)) (apWake base)
      (PointOk V base .ap) := by
  refine .bind (cli_ready nofun) fun _ => ?_
  refine .bind disarm_ready fun _ => ?_
  refine .bind (beside_triple Ready.steady (fun _ => rfl) (fun _ => rfl) (fun _ => rfl) fun _ => rfl)
    fun _ => ?_
  exact .ret fun s h => ⟨h.own, fun _ k hk => absurd hk.2 (Nat.not_lt_zero _)⟩

/-- At the start of a scan nothing is learned yet. -/
theorem Knows.start {s : IdleMemory} {handledWork : Bool} (h : Knows .ap (Ready base) (fun _ => False) s) :
    PointOk V base .ap (.work (.scan 0 handledWork)) s :=
  ⟨h.own, fun _ _ hk => absurd hk.2 (Nat.not_lt_zero _)⟩

theorem loopEntry_triple :
    Triple (cpuEnv V b base .ap) (Knows .ap (Ready base) fun _ => False) (onCtx apRequestLoopEntry)
      fun pc s => pc = .scan 0 false ∧ Knows .ap (Ready base) (fun _ => False) s := by
  have hends : apRequestLoopEntry.Ends fun pc => pc = .scan 0 false :=
    fun _ _ _ => rfl
  exact fun s h => wp_ends _ s (Prog.Ends.onPart hends)
    (onCtx_triple Ready.steady (.of_apCode ApCode.apRequestLoopEntry) s h)

theorem apBody_triple {pc : Point} {p : Prog IdleMemory Point} (h : apBody b base pc = some p) :
    Triple (cpuEnv V b base .ap) (PointOk V base .ap pc) p (PointOk V base .ap) := by
  cases pc with
  | apEntry =>
    obtain rfl := Option.some.inj h
    exact apEntryOne_triple
  | work pc =>
    cases pc with
    | start =>
      obtain rfl := Option.some.inj h
      exact .bind loopEntry_triple fun pc => .ret fun s h => h.1 ▸ Knows.start h.2
    | scan i handledWork =>
      rw [apBody] at h
      split_ifs at h with hi hhandled
      · obtain rfl := Option.some.inj h
        exact .bind (scanSlot_triple ⟨i, hi⟩ handledWork) afterScan_triple
      · obtain rfl := Option.some.inj h
        exact .ret fun s hs => Knows.start ⟨hs.own, fun _ _ => False.elim⟩
      · obtain rfl := Option.some.inj h
        obtain rfl : handledWork = false := eq_false_of_ne_true hhandled
        exact apIdle_triple (Nat.le_of_not_lt hi)
    | hung | ud2 | halted | faulted => cases h
  | paused before =>
    obtain rfl := Option.some.inj h
    exact .bind (cli_ready nofun) fun _ => .ret fun _ => Knows.start
  | awake before =>
    obtain rfl := Option.some.inj h
    exact apWake_triple before
  | next | waited | asleep | draining | stuck => cases h

/-! ## The BSP -/

/-- The kick for slot `i` has not been sent when the slot becomes `PENDING`. -/
theorem publishPending_triple (hL : Steady L) (i : SlotIndex) (plan : ApRequestPlan) :
    Triple (cpuEnv V b base .bsp) (Knows .bsp L fun _ => False) (.store (publishPending i plan))
      fun _ => Knows .bsp L fun _ => False := by
  refine .store (Knows.stable hL) fun s hinv _ h => ?_
  have hheard : ∀ k, Heard k s → Heard k (publishPending i plan s) := by
    intro k hk hp hkicked
    by_cases hki : k = i
    · subst hki
      simp [publishPending] at hkicked
    · refine hk ?_ ?_
      · simpa [publishPending, publishState, Machine.setState, hki] using hp
      · simpa [publishPending, hki] using hkicked
  exact ⟨⟨⟨hinv.cpu, hinv.bus, fun hh k => hheard k (hinv.heard hh k)⟩, fun _ _ => .refl _,
    fun _ => hheard⟩, ⟨h.own, fun hc => by cases hc⟩⟩

theorem publish_triple (i : SlotIndex) (plan : ApRequestPlan) (sendKick : Bool) :
    Triple (cpuEnv V b base .bsp) (Knows .bsp (Free base) fun _ => False)
      (publishApInboxRequest b base i plan sendKick) fun _ => Knows .bsp (Free base) fun _ => False := by
  have hmute : ∀ {α : Type} {p : Prog Machine α}, Mute p → Triple (cpuEnv V b base .bsp)
      (Knows .bsp (Free base) fun _ => False) (onCtx p) fun _ => Knows .bsp (Free base) fun _ => False :=
    fun hp => onCtx_triple Free.steady hp
  have hpublished : ∀ {st : ApRequestStatus}, st ≠ .pending → Triple (cpuEnv V b base .bsp)
      (Knows .bsp (Free base) fun _ => False) (onCtx (.store (publishState i plan st)))
      fun _ => Knows .bsp (Free base) fun _ => False := fun h => hmute (BspCode.published i plan fun _ => h)
  refine .bind (hmute (BspCode.resetApInboxSlot (fun _ => nofun) trivial)) fun _ => ?_
  refine .bind (hmute (BspCode.stores (fun _ => nofun) trivial fun w hw =>
    .inr (prepareApRequestSlotFromPlan_isField _ _ w hw))) fun _ => ?_
  refine .bind (load_triple Free.steady _) fun st => .cond (fun _ => ?_) fun _ => ?_
  · refine .bind (load_triple Free.steady _) fun v => ?_
    exact .bind (hmute (BspCode.reply _ _)) fun _ => hpublished (by decide)
  refine .bind (hmute (BspCode.reads Reading.apBarred)) fun barred => ?_
  refine .cond (fun _ => hpublished (by decide)) fun _ => ?_
  refine .bind (load_triple Free.steady _) fun st => ?_
  refine .cond (fun _ => hpublished (by decide)) fun _ => ?_
  refine .bind (publishPending_triple Free.steady i plan) fun _ => ?_
  exact .cond (fun _ => bspNotify_triple i) fun _ => .ret fun _ h => h

theorem bspWait_triple :
    Triple (cpuEnv V b base .bsp) (Knows .bsp (Free base) fun _ => False) (bspWait base)
      (PointOk V base .bsp) := by
  refine .bind (load_triple Free.steady _) fun before => ?_
  refine .bind (R := fun armed s => if armed then base ≠ 0 ∧ Knows .bsp Armed (fun _ => True) s
    else Knows .bsp (Ready base) (fun _ => True) s) ?_ fun armed => ?_
  · refine .cond (fun h0 => ?_) fun hbase => ?_
    · exact .ret fun s h => ⟨⟨h.own.window, h.own.halted, fun hb => absurd h0 hb⟩, nofun⟩
    refine .bind (R := fun _ => Knows .bsp (Ready base) fun _ => True)
      (enable_triple.pre fun s h => ⟨h.own, nofun⟩) fun _ => ?_
    refine .bind (start_triple hbase V.waitTimer (by decide) (by decide) (by decide)) fun _ => ?_
    exact .ret fun _ h => ⟨hbase, h⟩
  cases armed with
  | false => exact .bind open_ready fun _ => .ret fun _ h => h
  | true =>
    refine Triple.lift fun hbase => ?_
    refine .bind (beside_triple Armed.steady (fun _ => rfl) (fun _ => rfl) (fun _ => rfl) fun _ => rfl)
      fun _ => ?_
    exact .bind (stiHlt_triple hbase before) fun _ => .ret fun _ _ => trivial

theorem bspWake_triple (before : UInt32) :
    Triple (cpuEnv V b base .bsp) (PointOk V base .bsp (.awake before)) (bspWake b base before)
      (PointOk V base .bsp) := by
  refine .bind (cli_ready nofun) fun _ => ?_
  refine .bind disarm_ready fun _ => ?_
  refine .bind (beside_triple Ready.steady (fun _ => rfl) (fun _ => rfl) (fun _ => rfl) fun _ => rfl)
    fun _ => ?_
  refine .bind (load_triple Ready.steady _) fun after => ?_
  exact .ret fun s h => h.mono fun _ hl hb => (hl hb).1

/-- The last window is opened: the LAPIC need not be enabled. -/
theorem bspDrain_triple :
    Triple (cpuEnv V b base .bsp) (Knows .bsp (Free base) fun _ => False) (bspDrain base)
      (PointOk V base .bsp) := by
  refine .bind disarm_free fun _ => ?_
  have hcalm : ∀ s, Knows .bsp (Free base) (fun _ => False) s →
      Knows .bsp (Calm base .draining) (fun _ => False) s := fun s h =>
    h.mono fun _ hl hb => ⟨hl hb, fun hne => absurd rfl hne⟩
  exact .bind (open_triple.pre hcalm) fun _ => .ret fun _ h => h

theorem bspBody_triple {pc : Point} {p : Prog IdleMemory Point} (h : bspBody b base pc = some p) :
    Triple (cpuEnv V b base .bsp) (PointOk V base .bsp pc) p (PointOk V base .bsp) := by
  cases pc with
  | next =>
    obtain rfl := Option.some.inj h
    refine .bind .any fun x => ?_
    cases x with
    | publish i plan sendKick => exact .bind (publish_triple i plan sendKick) fun _ => .ret fun _ h => h
    | task t => exact .bind (onCtx_triple Free.steady (Mute.task t)) fun _ => .ret fun _ h => h
    | setTarget isThis =>
      exact .bind (beside_triple Free.steady (fun _ => rfl) (fun _ => rfl) (fun _ => rfl) fun _ => rfl)
        fun _ => .ret fun _ h => h
    | wait => exact bspWait_triple
    | drain => exact bspDrain_triple
  | waited =>
    obtain rfl := Option.some.inj h
    exact .ret fun _ h => h
  | paused before =>
    obtain rfl := Option.some.inj h
    exact .bind cli_triple fun _ => .ret fun _ h => h.mono fun _ hl hb => (hl hb).1
  | awake before =>
    obtain rfl := Option.some.inj h
    exact bspWake_triple before
  | draining =>
    obtain rfl := Option.some.inj h
    exact .bind cli_triple fun _ => .ret fun _ h => h.mono fun _ hl hb => (hl hb).1
  | apEntry | work | asleep | stuck => cases h

/-! ## The hardware -/

theorem CpuOk.drift {p p' : IdleCpu} (h : CpuOk V base c p) (hd : CpuDrift p p')
    (hr : ∀ v ∈ p'.lapic.requests, V.may c v) : CpuOk V base c p' := by
  refine ⟨hr, ?_, fun r hw => ?_, fun hh => ?_⟩
  · rw [Lapic.Masked, hd.lapic.lvtTimer]
    exact h.timer
  · exact Calm.steady _ _ hd.lapic (h.calm r (hd.window ▸ hw))
  · obtain ⟨hb, hw, hrings⟩ := h.wakes (hd.halted ▸ hh)
    exact ⟨hb, hd.window ▸ hw, hd.lapic.rings hrings⟩

theorem hardwareStep_drift (e : HardwareEvent) (s : IdleMemory) (c : Cpu) :
    CpuDrift (s.cpus c) ((hardwareStep e s).cpus c) := by
  have hset : ∀ (d : Cpu) (f : Lapic → Lapic), (∀ l, Lapic.Drift l (f l)) →
      CpuDrift (s.cpus c) ((s.setLapic d f).cpus c) := by
    intro d f hf
    by_cases hc : c = d
    · subst hc
      rw [setCpu_self]
      exact ⟨hf _, rfl, rfl⟩
    · rw [setCpu_ne s hc]
      exact .refl _
  cases e with
  | tick d => exact hset d _ .tick
  | arrive d v =>
    rw [hardwareStep]
    split_ifs
    · exact hset d _ (.raise v)
    · exact .refl _

/-- An IPI that is on its way goes on or arrives. -/
theorem hardwareStep_bus (e : HardwareEvent) {s : IdleMemory} {c : Cpu} {v : UInt8} (h : v ∈ s.bus c) :
    v ∈ ((hardwareStep e s).cpus c).lapic.requests ∨ v ∈ (hardwareStep e s).bus c := by
  cases e with
  | tick d => exact .inr h
  | arrive d u =>
    rw [hardwareStep]
    split_ifs with hu
    · by_cases hc : c = d
      · subst hc
        by_cases hvu : v = u
        · subst hvu
          exact .inl (by simp [IdleMemory.setCpu, Lapic.raise])
        · exact .inr (by simpa using (List.mem_erase_of_ne hvu).2 h)
      · exact .inr (by simpa [hc] using h)
    · exact .inr h

/-- Nothing arrives that was not on its way. -/
theorem hardwareStep_may {s : IdleMemory} (hinv : IdleInv V base s) (e : HardwareEvent) (c : Cpu) :
    (∀ v ∈ ((hardwareStep e s).cpus c).lapic.requests, V.may c v) ∧
      ∀ v ∈ (hardwareStep e s).bus c, V.may c v := by
  have hok := hinv.cpu c
  cases e with
  | tick d =>
    refine ⟨fun v hv => ?_, hinv.bus c⟩
    by_cases hc : c = d
    · subst hc
      rw [hardwareStep, setCpu_self] at hv
      rcases Lapic.mem_tick_requests hv with hv | ⟨hm, rfl⟩
      · exact hok.requests v hv
      · exact hok.timer hm
    · rw [hardwareStep, setCpu_ne s hc] at hv
      exact hok.requests v hv
  | arrive d u =>
    rw [hardwareStep]
    split_ifs with hu
    · by_cases hc : c = d
      · subst hc
        refine ⟨fun v hv => ?_, fun v hv => ?_⟩
        · have hv : v = u ∨ v ∈ (s.cpus c).lapic.requests := by
            simpa [IdleMemory.setCpu, Lapic.raise] using hv
          rcases hv with rfl | hv
          · exact hinv.bus c v hu
          · exact hok.requests v hv
        · exact hinv.bus c v (List.mem_of_mem_erase (by simpa using hv))
      · refine ⟨fun v hv => hok.requests v ?_, fun v hv => hinv.bus c v ?_⟩
        · simpa [IdleMemory.setCpu, hc] using hv
        · simpa [hc] using hv
    · exact ⟨hok.requests, hinv.bus c⟩

theorem hardwareStep_heard (e : HardwareEvent) {s : IdleMemory} {i : SlotIndex} (h : Heard i s) :
    Heard i (hardwareStep e s) := by
  have hsame : (hardwareStep e s).ctx = s.ctx ∧ (hardwareStep e s).kicked = s.kicked := by
    cases e with
    | tick => exact ⟨rfl, rfl⟩
    | arrive =>
      rw [hardwareStep]
      split_ifs <;> exact ⟨rfl, rfl⟩
  intro hp hk
  rw [hsame.1] at hp
  rw [hsame.2] at hk
  rcases h hp hk with hr | hb
  · exact .inl ((hardwareStep_drift e s .ap).lapic.requests _ hr)
  · exact hardwareStep_bus e hb

theorem hardwareStep_act {s : IdleMemory} (hinv : IdleInv V base s) (e : HardwareEvent) :
    IdleAct V base .hardware s (hardwareStep e s) := by
  have hdrift := hardwareStep_drift e s
  have hmay := hardwareStep_may hinv e
  refine ⟨⟨fun c => (hinv.cpu c).drift (hdrift c) (hmay c).1, fun c => (hmay c).2, fun hh i => ?_⟩,
    fun c _ => hdrift c, fun _ i => hardwareStep_heard e⟩
  exact hardwareStep_heard e (hinv.heard ((hdrift .ap).halted ▸ hh) i)

theorem PointOk.stable (pc : Point) : Stable (cpuEnv V b base c) (PointOk V base c pc) := by
  cases pc with
  | apEntry | next | waited => exact Knows.stable Free.steady
  | work pc => cases pc <;> exact Knows.stable Ready.steady
  | paused | awake | draining => exact InWindow.stable
  | asleep | stuck => exact fun _ _ _ h => h

end Own

theorem idleOutline_body (V : Vectors) (b : Build) (base : UInt64) (t : Agent) (pc : Point)
    (p : Prog IdleMemory Point) (h : (idleSystem b base).body t pc = some p) :
    Triple ((idleOutline V b base).env t) ((idleOutline V b base).cut t pc) p
      ((idleOutline V b base).cut t) := by
  cases t with
  | cpu c =>
    cases c with
    | ap => exact apBody_triple h
    | bsp => exact bspBody_triple h
  | hardware =>
    obtain rfl := Option.some.inj h
    refine .bind .any fun e => .bind (R := fun _ _ => True) ?_ fun _ => .ret fun _ _ => trivial
    exact .store (fun _ _ _ _ => trivial) fun s hinv _ _ => ⟨hardwareStep_act hinv e, trivial⟩

theorem idleOutline_valid (V : Vectors) (b : Build) (base : UInt64) : (idleOutline V b base).Valid where
  inv_guar _ _ _ _ _ h := h.inv
  stable t pc := by
    cases t with
    | cpu c => exact PointOk.stable pc
    | hardware => exact fun _ _ _ h => h
  body := idleOutline_body V b base
  trap t x s s' hinv h _ := by
    cases t with
    | cpu c => exact interrupt_ok hinv h
    | hardware => cases h

/-! ## Every run -/

/-- Where the idle system starts: both processors at work, with nothing in service, and no vector
waiting that is not in `V`. -/
structure IdleStart (V : Vectors) {b : Build} {base : UInt64} (c : (idleSystem b base).Config) : Prop where
  ap : c.prog (.cpu .ap) = .ret .apEntry
  bsp : c.prog (.cpu .bsp) = .ret .next
  hardware : c.prog .hardware = .ret .next
  free : ∀ p, AtWork (Free base) (c.mem.cpus p)
  requests : ∀ p, ∀ v ∈ (c.mem.cpus p).lapic.requests, V.may p v
  timer : ∀ p, ¬ (c.mem.cpus p).lapic.Masked → V.may p (c.mem.cpus p).lapic.lvtTimer.toUInt8
  bus : ∀ p, ∀ v ∈ c.mem.bus p, V.may p v

/-- The vectors that the kernel itself uses. -/
def kernelVectors : Vectors where
  may
    | .ap, v => v = apRequestKickIpiVector ∨ v = apIdleTimerVector
    | .bsp, v => v = apRequestIpiVector ∨ v = bspWaitTimerVector
  kick := .inl rfl
  idleTimer := .inr rfl
  complete := .inl rfl
  waitTimer := .inr rfl
  notSpurious c := by cases c <;> decide

/-- Any access is admitted. -/
abbrev anyTurn (_ : Agent) (_ _ : IdleMemory) : Prop := True

section Runs

variable {V : Vectors} {b : Build} {base : UInt64} {c c' : (idleSystem b base).Config}

theorem IdleStart.holds (h : IdleStart V c) : (idleOutline V b base).Holds c := by
  have hknows : ∀ p, Knows p (Free base) (fun _ => False) c.mem := fun p => ⟨h.free p, fun _ _ => False.elim⟩
  refine ⟨⟨fun p => ⟨h.requests p, h.timer p, fun _ hw => ?_, fun hh => ?_⟩, h.bus, fun hh => ?_⟩,
    fun t => ?_⟩
  · rw [(h.free p).window] at hw
    cases hw
  · rw [(h.free p).halted] at hh
    cases hh
  · rw [(h.free .ap).halted] at hh
    cases hh
  · cases t with
    | cpu p =>
      cases p with
      | ap => exact h.ap ▸ hknows .ap
      | bsp => exact h.bsp ▸ hknows .bsp
    | hardware => exact h.hardware ▸ trivial

theorem IdleStart.invariant (h : IdleStart V c) (hr : (idleSystem b base).Reach anyTurn c c') :
    (idleOutline V b base).Holds c' := (idleOutline V b base).sound (idleOutline_valid V b base) h.holds hr

/-- In a window, a vector that the LAPIC offers is taken. -/
theorem exists_takeInterrupt {s : IdleMemory} {p : Cpu} {v : UInt8} (hw : (s.cpus p).window.isSome)
    (hv : (s.cpus p).lapic.Offers v) : ∃ x s', x.spurious = false ∧ takeInterrupt p x s = some s' := by
  obtain ⟨r, hr⟩ := Option.isSome_iff_exists.1 hw
  exact ⟨⟨v, false, r, ⟨0, 0, 0⟩⟩, _, rfl, (if_neg (not_not.2 hr)).trans (if_pos hv)⟩

theorem iterate_tick (p : Cpu) (k : Nat) (s : IdleMemory) :
    (hardwareStep (.tick p))^[k] s = s.setLapic p Lapic.tick^[k] := by
  induction k generalizing s with
  | zero => simp [IdleMemory.setCpu]
  | succ k ih =>
    rw [Function.iterate_succ_apply, ih]
    simp [hardwareStep, IdleMemory.setCpu]

/-- **Nobody halts for good.** However the AP, the BSP, the timers and the IPIs take turns, a
processor that has halted takes an interrupt after at most 1000000 ticks of its own timer. -/
theorem halted_goesOn (hc : IdleStart V c) (hr : (idleSystem b base).Reach anyTurn c c') (p : Cpu)
    (hh : (c'.mem.cpus p).halted = true) :
    ∃ k ≤ 1000000, ∃ x s', x.spurious = false ∧
      takeInterrupt p x ((hardwareStep (.tick p))^[k] c'.mem) = some s' := by
  have hinv := (hc.invariant hr).inv
  obtain ⟨hb, hw, hrings⟩ := (hinv.cpu p).wakes hh
  obtain ⟨k, hk, v, hv⟩ := hrings.offers ((hinv.cpu p).free hb hw)
  refine ⟨k, hk, ?_⟩
  rw [iterate_tick]
  exact exists_takeInterrupt (by rw [setCpu_self]; exact hw) (by rw [setCpu_self]; exact hv)

/-- The AP is the request target, and nobody has done anything yet. -/
def quietStart : (idleSystem {} 0xfee00000).Config where
  mem := { ctx := {}, cpus := fun _ => {}, isTarget := true }
  prog
    | .cpu .ap => .ret .apEntry
    | .cpu .bsp => .ret .next
    | .hardware => .ret .next

theorem quietStart_start : IdleStart kernelVectors quietStart where
  ap := rfl
  bsp := rfl
  hardware := rfl
  free _ := ⟨rfl, rfl, fun _ => rfl⟩
  requests _ _ := nofun
  timer _ hm := absurd (by decide : Lapic.Masked {}) hm
  bus _ _ := nofun

/-- The AP has nothing to do, and goes to sleep. -/
theorem quietStart_halts : ∃ c, (idleSystem {} 0xfee00000).Reach anyTurn quietStart c ∧
    (c.mem.cpus .ap).halted = true := by
  refine System.exists_reach [.until (.cpu .ap) 400 fun s => (s.cpus .ap).halted] ?_
  decide +kernel

theorem halted_goesOn_quiet : ∃ c, (idleSystem {} 0xfee00000).Reach anyTurn quietStart c ∧
    (c.mem.cpus .ap).halted = true ∧ ∃ k ≤ 1000000, ∃ x s', x.spurious = false ∧
      takeInterrupt .ap x ((hardwareStep (.tick .ap))^[k] c.mem) = some s' := by
  obtain ⟨c, hr, hh⟩ := quietStart_halts
  exact ⟨c, hr, hh, halted_goesOn quietStart_start hr .ap hh⟩

/-- **No kick is lost.** If the AP has halted while a slot is `PENDING` whose kick has been sent, the
kick is still on its way, or the AP is asked to go on at once. -/
theorem kick_isHeard (hc : IdleStart V c) (hr : (idleSystem b base).Reach anyTurn c c')
    (hh : (c'.mem.cpus .ap).halted = true) (i : SlotIndex) (hp : (c'.mem.ctx.slots i).state = .pending)
    (hk : c'.mem.kicked i = true) :
    (∃ x s', x.spurious = false ∧ takeInterrupt .ap x c'.mem = some s') ∨
      apRequestKickIpiVector ∈ c'.mem.bus .ap := by
  have hinv := (hc.invariant hr).inv
  obtain ⟨hb, hw, -⟩ := (hinv.cpu .ap).wakes hh
  refine (hinv.heard hh i hp hk).imp_left fun hreq => ?_
  obtain ⟨v, hv⟩ := Lapic.exists_offer (List.ne_nil_of_mem hreq) ((hinv.cpu .ap).free hb hw)
  exact exists_takeInterrupt hw hv

/-- The BSP is about to publish a request. -/
def publishing : (idleSystem {} 0xfee00000).Config where
  mem := quietStart.mem
  prog := Function.update quietStart.prog (.cpu .bsp)
    (bspStep {} 0xfee00000 (.publish apBroadcastPingSlotIndex (broadcastPingPlan {}) true))

/-- It does so while the AP sleeps. -/
theorem kick_isHeard_quiet : ∃ c i, (idleSystem {} 0xfee00000).Reach anyTurn quietStart c ∧
    (c.mem.cpus .ap).halted = true ∧
    ((c.mem.ctx.slots i).state = .pending ∧ c.mem.kicked i = true) ∧
      ((∃ x s', x.spurious = false ∧ takeInterrupt .ap x c.mem = some s') ∨
        apRequestKickIpiVector ∈ c.mem.bus .ap) := by
  have hpublish : (idleSystem {} 0xfee00000).Reach anyTurn quietStart publishing :=
    System.reach_of_choice (t := Agent.cpu .bsp) rfl rfl trivial
      (BspStep.publish apBroadcastPingSlotIndex (broadcastPingPlan {}) true)
  obtain ⟨c, hr, hh, hout⟩ : ∃ c, (idleSystem {} 0xfee00000).Reach anyTurn publishing c ∧
      (c.mem.cpus .ap).halted = true ∧
      (c.mem.ctx.slots apBroadcastPingSlotIndex).state = .pending ∧
      c.mem.kicked apBroadcastPingSlotIndex = true := by
    refine System.exists_reach [.until (.cpu .ap) 400 fun s => (s.cpus .ap).halted,
      .until (.cpu .bsp) 400 fun s => s.kicked apBroadcastPingSlotIndex] ?_
    decide +kernel
  exact ⟨c, _, hpublish.trans hr, hh, hout,
    kick_isHeard quietStart_start (hpublish.trans hr) hh _ hout.1 hout.2⟩

end Runs

end VibeKernel.Idle

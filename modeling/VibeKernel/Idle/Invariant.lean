import VibeKernel.Idle.Unpublished

/-!
# What a processor knows while it waits

What the idle system keeps, and the accesses of `kernel.c` to the LAPIC, one rule for each: in a
window nothing is in service, a processor that halts has a LAPIC that rings, and an AP that halts has
heard of every kick.
-/

namespace VibeKernel.Idle

open Conc Apic

/-! ## The invariant -/

/-- What the others can do to a processor. -/
structure CpuDrift (p p' : IdleCpu) : Prop where
  lapic : p.lapic.Drift p'.lapic
  window : p'.window = p.window
  halted : p'.halted = p.halted

theorem CpuDrift.refl (p : IdleCpu) : CpuDrift p p := ⟨.none _, rfl, rfl⟩

/-- The vectors that a LAPIC can offer to its processor. -/
structure Vectors where
  may : Cpu → UInt8 → Prop
  kick : may .ap apRequestKickIpiVector
  idleTimer : may .ap apIdleTimerVector
  complete : may .bsp apRequestIpiVector
  waitTimer : may .bsp bspWaitTimerVector
  notSpurious : ∀ c, ¬ may c lapicSpuriousVector

/-- What holds of the LAPIC in window `r`: no vector is in service. It is enabled, except perhaps in the
last window of a stream that published nothing. -/
def Calm (base : UInt64) (r : Resume) (l : Lapic) : Prop :=
  base ≠ 0 → l.inService = [] ∧ (r ≠ .draining → l.Enabled)

/-- In a window the LAPIC is calm, and a processor that halts will be asked to go on. -/
structure CpuOk (V : Vectors) (base : UInt64) (c : Cpu) (p : IdleCpu) : Prop where
  requests : ∀ v ∈ p.lapic.requests, V.may c v
  timer : ¬ p.lapic.Masked → V.may c p.lapic.lvtTimer.toUInt8
  calm : ∀ r, p.window = some r → Calm base r p.lapic
  wakes : p.halted = true → base ≠ 0 ∧ p.window.isSome ∧ p.lapic.Rings 1000000

/-- In any window nothing is in service. -/
theorem CpuOk.free {V : Vectors} {base : UInt64} {c : Cpu} {p : IdleCpu} (h : CpuOk V base c p)
    (hbase : base ≠ 0) (hw : p.window.isSome) : p.lapic.inService = [] := by
  obtain ⟨r, hr⟩ := Option.isSome_iff_exists.1 hw
  exact (h.calm r hr hbase).1

/-- If slot `i` is out and its kick has been sent, then the kick waits for the AP or is on its way. -/
def Heard (i : SlotIndex) (s : IdleMemory) : Prop :=
  (s.ctx.slots i).state = .pending → s.kicked i = true →
    apRequestKickIpiVector ∈ (s.cpus .ap).lapic.requests ∨ apRequestKickIpiVector ∈ s.bus .ap

structure IdleInv (V : Vectors) (base : UInt64) (s : IdleMemory) : Prop where
  cpu : ∀ c, CpuOk V base c (s.cpus c)
  bus : ∀ c, ∀ v ∈ s.bus c, V.may c v
  heard : (s.cpus .ap).halted = true → ∀ i, Heard i s

/-- One access of `t`. Only the AP forgets a kick that it has heard of. -/
structure IdleAct (V : Vectors) (base : UInt64) (t : Agent) (s s' : IdleMemory) : Prop where
  inv : IdleInv V base s'
  drift : ∀ c, t ≠ .cpu c → CpuDrift (s.cpus c) (s'.cpus c)
  heard : t ≠ .cpu .ap → ∀ i, Heard i s → Heard i s'

section Acts

variable {V : Vectors} {base : UInt64} {s s' : IdleMemory} {c : Cpu}

@[simp] theorem setCpu_self (s : IdleMemory) (c : Cpu) (f : IdleCpu → IdleCpu) :
    (s.setCpu c f).cpus c = f (s.cpus c) := by simp [IdleMemory.setCpu]

theorem setCpu_ne (s : IdleMemory) {c d : Cpu} (h : d ≠ c) (f : IdleCpu → IdleCpu) :
    (s.setCpu c f).cpus d = s.cpus d := by simp [IdleMemory.setCpu, h]

/-- A change of the processor's own state. -/
theorem IdleAct.setCpu (h : IdleInv V base s) {f : IdleCpu → IdleCpu} (hok : CpuOk V base c (f (s.cpus c)))
    (hheard : c = .ap → (f (s.cpus c)).halted = true → ∀ i, Heard i (s.setCpu c f)) :
    IdleAct V base (.cpu c) s (s.setCpu c f) := by
  refine ⟨⟨fun d => ?_, h.bus, fun hh i => ?_⟩, fun d hd => ?_, fun hap i hi => ?_⟩
  · by_cases hdc : d = c
    · subst hdc
      rwa [setCpu_self]
    · rw [setCpu_ne s hdc]
      exact h.cpu d
  · by_cases hc : c = .ap
    · subst hc
      rw [setCpu_self] at hh
      exact hheard rfl hh i
    · rw [setCpu_ne s (Ne.symm hc)] at hh
      have hi := h.heard hh i
      rwa [Heard, ← setCpu_ne s (Ne.symm hc) f] at hi
  · have hdc : d ≠ c := fun he => hd (he ▸ rfl)
    rw [setCpu_ne s hdc]
    exact .refl _
  · have hc : c ≠ .ap := fun he => hap (he ▸ rfl)
    rwa [Heard, ← setCpu_ne s (Ne.symm hc) f] at hi

/-- An access that publishes nothing, sends nothing and leaves the processors alone. -/
theorem IdleAct.beside (h : IdleInv V base s) {t : Agent} (hcpus : s'.cpus = s.cpus)
    (hbus : s'.bus = s.bus) (hkicked : s'.kicked = s.kicked) (hctx : NoPublish s.ctx s'.ctx) :
    IdleAct V base t s s' ∧ ∀ i, Heard i s → Heard i s' := by
  have hheard : ∀ i, Heard i s → Heard i s' := fun i hi hp hk => by
    rw [hcpus, hbus]
    exact hi (hctx.pending i hp) (by rwa [hkicked] at hk)
  refine ⟨⟨⟨fun c => ?_, fun c => ?_, fun hh i => ?_⟩, fun c _ => ?_, fun _ => hheard⟩, hheard⟩
  · rw [hcpus]
    exact h.cpu c
  · rw [hbus]
    exact h.bus c
  · exact hheard i (h.heard (by rwa [hcpus] at hh) i)
  · rw [hcpus]
    exact .refl _

end Acts

/-! ## What a processor knows -/

/-- What the others cannot falsify about a LAPIC. -/
def Steady (L : Lapic → Prop) : Prop := ∀ l l', Lapic.Drift l l' → L l → L l'

/-- Outside its windows, with its LAPIC in `L`. -/
structure AtWork (L : Lapic → Prop) (p : IdleCpu) : Prop where
  window : p.window = none
  halted : p.halted = false
  lapic : L p.lapic

/-- Processor `c` is at work, and if it is the AP it has heard of the kicks for the slots in `K`. -/
structure Knows (c : Cpu) (L : Lapic → Prop) (K : SlotIndex → Prop) (s : IdleMemory) : Prop where
  own : AtWork L (s.cpus c)
  heard : c = .ap → ∀ i, K i → Heard i s

/-- No vector is in service. -/
def Free (base : UInt64) (l : Lapic) : Prop := base ≠ 0 → l.inService = []

/-- No vector is in service, and the LAPIC is enabled. -/
def Ready (base : UInt64) (l : Lapic) : Prop := base ≠ 0 → l.inService = [] ∧ l.Enabled

theorem Free.steady {base : UInt64} : Steady (Free base) := fun _ _ h hl hb => h.inService.trans (hl hb)

theorem Ready.steady {base : UInt64} : Steady (Ready base) := fun _ _ h hl hb =>
  ⟨h.inService.trans (hl hb).1, by rw [Lapic.Enabled, h.spurious]; exact (hl hb).2⟩

theorem Calm.steady {base : UInt64} {r : Resume} : Steady (Calm base r) := fun _ _ h hl hb =>
  ⟨h.inService.trans (hl hb).1, fun hr => by rw [Lapic.Enabled, h.spurious]; exact (hl hb).2 hr⟩

theorem Ready.calm {base : UInt64} {l : Lapic} (h : Ready base l) (r : Resume) : Calm base r l :=
  fun hb => ⟨(h hb).1, fun _ => (h hb).2⟩

theorem Calm.ready {base : UInt64} {r : Resume} {l : Lapic} (h : Calm base r l) (hr : r ≠ .draining) :
    Ready base l := fun hb => ⟨(h hb).1, (h hb).2 hr⟩

/-- What holds of the LAPIC is weakened. -/
theorem Knows.mono {c : Cpu} {L M : Lapic → Prop} {K : SlotIndex → Prop} {s : IdleMemory}
    (h : Knows c L K s) (hL : ∀ l, L l → M l) : Knows c M K s :=
  ⟨⟨h.own.window, h.own.halted, hL _ h.own.lapic⟩, h.heard⟩

/-- In window `r`, and going on. -/
def InWindow (c : Cpu) (r : Resume) (s : IdleMemory) : Prop :=
  (s.cpus c).window = some r ∧ (s.cpus c).halted = false

/-- What is true of processor `c` at a point of its code. -/
def PointOk (V : Vectors) (base : UInt64) (c : Cpu) : Point → IdleMemory → Prop
  | .apEntry | .next | .waited _ => Knows c (Free base) fun _ => False
  | .work (.scan i handledWork) =>
    Knows c (Ready base) fun k => handledWork = false ∧ k.val < i
  | .work _ => Knows c (Ready base) fun _ => False
  | .paused before => InWindow c (.paused before)
  | .awake before => InWindow c (.awake before)
  | .draining => InWindow c .draining
  | .asleep => fun _ => True
  | .stuck => fun _ => ∃ v frame, V.may c v ∧ isr base c v frame = none

def idleOutline (V : Vectors) (b : Build) (base : UInt64) : Outline (idleSystem b base) where
  inv := IdleInv V base
  ok _ _ _ := True
  guar := IdleAct V base
  cut
    | .cpu c => PointOk V base c
    | .hardware => fun _ _ => True

section Own

variable {V : Vectors} {b : Build} {base : UInt64} {c : Cpu} {L M : Lapic → Prop}
  {K : SlotIndex → Prop}

/-- The outline as processor `c` sees it. -/
abbrev cpuEnv (V : Vectors) (b : Build) (base : UInt64) (c : Cpu) : Env IdleMemory :=
  (idleOutline V b base).env (.cpu c)

theorem rely_drift {s s' : IdleMemory} (h : (cpuEnv V b base c).rely s s') :
    CpuDrift (s.cpus c) (s'.cpus c) ∧ (c = .ap → ∀ i, Heard i s → Heard i s') := by
  obtain ⟨u, hu, -, -, hg, -⟩ := h
  exact ⟨hg.drift c hu, fun hc => hg.heard (hc ▸ hu)⟩

theorem Knows.stable (hL : Steady L) : Stable (cpuEnv V b base c) (Knows c L K) := by
  intro s s' hr h
  obtain ⟨hd, hh⟩ := rely_drift hr
  exact ⟨⟨hd.window.trans h.own.window, hd.halted.trans h.own.halted, hL _ _ hd.lapic h.own.lapic⟩,
    fun hc i hi => hh hc i (h.heard hc i hi)⟩

/-- A store beside the processors and the buses. -/
theorem beside_triple (hL : Steady L) {f : IdleMemory → IdleMemory} (hcpus : ∀ s, (f s).cpus = s.cpus)
    (hbus : ∀ s, (f s).bus = s.bus) (hkicked : ∀ s, (f s).kicked = s.kicked)
    (hctx : ∀ s, (f s).ctx = s.ctx) :
    Triple (cpuEnv V b base c) (Knows c L K) (.store f) fun _ => Knows c L K := by
  refine .store (Knows.stable hL) fun s hinv _ h => ?_
  obtain ⟨hact, hheard⟩ := IdleAct.beside hinv (t := .cpu c) (hcpus s) (hbus s) (hkicked s)
    (.of_slots (by rw [hctx]))
  exact ⟨hact, ⟨by rw [hcpus]; exact h.own, fun hc i hi => hheard i (h.heard hc i hi)⟩⟩

/-- A change of the context that publishes nothing. -/
theorem onCtx_act {s : IdleMemory} {m : Machine} (hinv : IdleInv V base s) (hm : NoPublish s.ctx m)
    (h : Knows c L K s) :
    IdleAct V base (.cpu c) s (ctxPart.put m s) ∧ Knows c L K (ctxPart.put m s) := by
  have hbeside : IdleAct V base (.cpu c) s (ctxPart.put m s) ∧
      ∀ i, Heard i s → Heard i (ctxPart.put m s) := IdleAct.beside hinv rfl rfl rfl hm
  obtain ⟨hact, hheard⟩ := hbeside
  exact ⟨hact, ⟨h.own, fun hc i hi => hheard i (h.heard hc i hi)⟩⟩

/-- Code that works on the context and publishes nothing. -/
theorem onCtx_triple (hL : Steady L) {α : Type} {p : Prog Machine α} (hp : Mute p) :
    Triple (cpuEnv V b base c) (Knows c L K) (onCtx p) fun _ => Knows c L K := by
  refine .within (Knows.stable hL) (fun s s' hinv hg h => ?_) (Prog.Within.onPart hp)
  obtain ⟨m, hm, rfl⟩ := hg
  exact onCtx_act hinv hm h

theorem load_triple (hL : Steady L) {α : Type} (f : IdleMemory → α) :
    Triple (cpuEnv V b base c) (Knows c L K) (.load f) fun _ => Knows c L K :=
  .load (Knows.stable hL)
    (fun _ hinv => (IdleAct.beside hinv rfl rfl rfl (.of_slots rfl)).1) fun _ _ h => h

theorem write32_requests (reg value : UInt32) (l : Lapic) :
    (l.write32 reg value).requests = l.requests := by
  unfold Lapic.write32
  split_ifs <;> rfl

theorem write32_lvtTimer {reg : UInt32} (h : reg ≠ 0x320) (value : UInt32) (l : Lapic) :
    (l.write32 reg value).lvtTimer = l.lvtTimer := by
  unfold Lapic.write32
  split_ifs <;> rfl

theorem heard_setLapic {s : IdleMemory} {f : Lapic → Lapic}
    (hf : ∀ l, (f l).requests = l.requests) (i : SlotIndex) (h : Heard i s) :
    Heard i (s.setLapic c f) := by
  intro hp hk
  rcases h hp hk with hr | hb
  · refine .inl ?_
    by_cases hc : c = .ap
    · subst hc
      rw [setCpu_self]
      exact (hf _).symm ▸ hr
    · rw [setCpu_ne s (Ne.symm hc)]
      exact hr
  · exact .inr hb

theorem write_triple (hL : Steady L) {reg value : UInt32}
    (hvec : reg = 0x320 → value &&& 0x10000 ≠ 0 ∨ V.may c value.toUInt8)
    (hM : ∀ l, L l → M (l.write32 reg value)) :
    Triple (cpuEnv V b base c) (Knows c L K) (lapicWrite32 c reg value) fun _ => Knows c M K := by
  refine .store (Knows.stable hL) fun s hinv _ h => ⟨IdleAct.setCpu hinv ?_ fun _ hh => ?_, ⟨?_, ?_⟩⟩
  · have hok := hinv.cpu c
    refine ⟨by rw [write32_requests]; exact hok.requests, ?_, fun _ hw => ?_, fun hh => ?_⟩
    · by_cases hreg : reg = 0x320
      · subst hreg
        exact fun hm => (hvec rfl).resolve_left hm
      · rw [Lapic.Masked, write32_lvtTimer hreg]
        exact hok.timer
    · rw [h.own.window] at hw
      cases hw
    · rw [h.own.halted] at hh
      cases hh
  · rw [h.own.halted] at hh
    cases hh
  · rw [setCpu_self]
    exact ⟨h.own.window, h.own.halted, hM _ h.own.lapic⟩
  · exact fun hc i hi => heard_setLapic (write32_requests reg value) i (h.heard hc i hi)

/-! ## The LAPIC's registers -/

theorem enabled_desired (svr : UInt32) :
    (svr &&& 0xffffff00 ||| 0x100 ||| lapicSpuriousVector.toUInt32) &&& 0x100 ≠ 0 := by
  intro h
  have hbit := congrArg (fun x : UInt32 => x.toBitVec.getLsbD 8) h
  simp at hbit

theorem enable_triple :
    Triple (cpuEnv V b base c) (Knows c (Free base) K) (enableLapicIfNeeded c)
      fun _ => Knows c (Ready base) K := by
  have hread : ∀ svr, Steady fun l => Free base l ∧ l.spurious = svr := fun svr l l' hd hl =>
    ⟨Free.steady _ _ hd hl.1, hd.spurious.trans hl.2⟩
  refine .bind (R := fun svr => Knows c (fun l => Free base l ∧ l.spurious = svr) K)
    (.load (Knows.stable Free.steady)
      (fun _ hinv => (IdleAct.beside hinv rfl rfl rfl (.of_slots rfl)).1)
      fun _ _ h => ⟨⟨h.own.window, h.own.halted, h.own.lapic, rfl⟩, h.heard⟩) fun svr => ?_
  refine .cond (fun _ => ?_) fun heq => .ret fun s h => ?_
  · refine write_triple (hread svr) nofun fun l hl hb => ⟨hl.1 hb, ?_⟩
    exact enabled_desired svr
  · refine ⟨⟨h.own.window, h.own.halted, fun hb => ⟨h.own.lapic.1 hb, ?_⟩⟩, h.heard⟩
    rw [Lapic.Enabled, h.own.lapic.2, not_not.1 heq]
    exact enabled_desired svr

theorem masked_lvt (x : UInt32) : (x ||| lapicLvtMasked) &&& 0x10000 ≠ 0 := by
  intro h
  have hbit := congrArg (fun x : UInt32 => x.toBitVec.getLsbD 16) h
  simp [lapicLvtMasked] at hbit

/-- Stopping a timer leaves what is in service alone, and whether the LAPIC is enabled. -/
theorem disarm_triple (hL : Steady L) (hstop : ∀ l, L l → L (l.write32 0x380 0))
    (hmask : ∀ l value, L l → L (l.write32 0x320 value)) {v : UInt8} :
    Triple (cpuEnv V b base c) (Knows c L K) (disarmTimer base c v) fun _ => Knows c L K := by
  refine .cond (fun _ => .ret fun _ h => h) fun _ => ?_
  exact .bind (write_triple hL nofun hstop) fun _ =>
    write_triple hL (fun _ => .inl (masked_lvt _)) fun l hl => hmask l _ hl

theorem disarm_ready {v : UInt8} :
    Triple (cpuEnv V b base c) (Knows c (Ready base) K) (disarmTimer base c v)
      fun _ => Knows c (Ready base) K :=
  disarm_triple Ready.steady (fun _ hl => hl) fun _ _ hl => hl

theorem disarm_free {v : UInt8} :
    Triple (cpuEnv V b base c) (Knows c (Free base) K) (disarmTimer base c v)
      fun _ => Knows c (Free base) K :=
  disarm_triple Free.steady (fun _ hl => hl) fun _ _ hl => hl

/-- A LAPIC that may be left alone in a window: it rings. -/
structure Armed (l : Lapic) : Prop where
  inService : l.inService = []
  enabled : l.Enabled
  rings : l.Rings 1000000

theorem Armed.steady : Steady Armed := fun _ _ h hl =>
  ⟨h.inService.trans hl.inService, by rw [Lapic.Enabled, h.spurious]; exact hl.enabled, h.rings hl.rings⟩

theorem start_triple (hbase : base ≠ 0) {v : UInt8} {count : UInt32}
    (hv : V.may c v.toUInt32.toUInt8) (hmask : v.toUInt32 &&& 0x10000 = 0)
    (hcount : count ≠ 0) (hle : count.toNat ≤ 1000000) :
    Triple (cpuEnv V b base c) (Knows c (Ready base) K) (startTimer c v count)
      fun _ => Knows c Armed K := by
  refine .bind (write_triple (M := Ready base) Ready.steady nofun fun _ hl => hl) fun _ => ?_
  refine .bind (write_triple (M := fun l => (l.inService = [] ∧ l.Enabled) ∧ ¬ l.Masked) Ready.steady
    (fun _ => .inr hv) fun l hl => ⟨hl hbase, not_not.2 hmask⟩) fun _ => ?_
  refine write_triple (fun l l' hd hl => ?_) nofun fun l hl => ⟨hl.1.1, hl.1.2, ?_⟩
  · rw [hd.inService, Lapic.Enabled, hd.spurious, Lapic.Masked, hd.lvtTimer]
    exact hl
  · exact (Lapic.rings_started hl.1.2 hl.2 hcount).imp_right fun h =>
      ⟨h.enabled, h.unmasked, h.started, h.soon.trans hle⟩

/-! ## Windows -/

theorem InWindow.stable {r : Resume} : Stable (cpuEnv V b base c) (InWindow c r) := by
  intro s s' hr h
  obtain ⟨hd, -⟩ := rely_drift hr
  rwa [InWindow, hd.window, hd.halted]

/-- A processor that halts has a LAPIC that rings, and the AP has heard of every kick. -/
theorem stiHlt_triple (hbase : base ≠ 0) (before : UInt32) :
    Triple (cpuEnv V b base c) (Knows c Armed fun _ => True) (stiHlt c before) fun _ _ => True := by
  refine .store (Knows.stable Armed.steady) fun s hinv _ h => ⟨IdleAct.setCpu hinv ?_ ?_, trivial⟩
  · have hok := hinv.cpu c
    have hl := h.own.lapic
    exact ⟨hok.requests, hok.timer, fun _ _ _ => ⟨hl.inService, fun _ => hl.enabled⟩,
      fun _ => ⟨hbase, rfl, hl.rings⟩⟩
  · rintro rfl - i hp hk
    have hi := h.heard rfl i trivial hp hk
    rwa [setCpu_self]

/-- A window without a halt is opened: by `sti`, or by an `iretq`. -/
theorem open_triple {r : Resume} :
    Triple (cpuEnv V b base c) (Knows c (Calm base r) K)
      (.store fun s => s.setCpu c fun p => { p with window := some r }) fun _ => InWindow c r := by
  refine .store (Knows.stable Calm.steady) fun s hinv _ h => ⟨IdleAct.setCpu hinv ?_ fun _ hh => ?_, ?_⟩
  · have hok := hinv.cpu c
    refine ⟨hok.requests, hok.timer, fun r' hr' => ?_, fun hh => ?_⟩
    · obtain rfl := Option.some.inj hr'
      exact h.own.lapic
    · rw [h.own.halted] at hh
      cases hh
  · rw [h.own.halted] at hh
    cases hh
  · rw [InWindow, setCpu_self]
    exact ⟨rfl, h.own.halted⟩

/-- A window is opened in which the LAPIC is enabled. -/
theorem open_ready {r : Resume} :
    Triple (cpuEnv V b base c) (Knows c (Ready base) K)
      (.store fun s => s.setCpu c fun p => { p with window := some r }) fun _ => InWindow c r :=
  open_triple.pre fun _ h => h.mono fun _ hl => hl.calm r

theorem cli_triple {r : Resume} :
    Triple (cpuEnv V b base c) (InWindow c r) (cli c) fun _ => Knows c (Calm base r) fun _ => False := by
  refine .store InWindow.stable fun s hinv _ h => ⟨IdleAct.setCpu hinv ?_ fun _ hh => ?_, ⟨?_, nofun⟩⟩
  · have hok := hinv.cpu c
    refine ⟨hok.requests, hok.timer, fun _ hw => ?_, fun hh => ?_⟩
    · cases hw
    · rw [h.2] at hh
      cases hh
  · rw [h.2] at hh
    cases hh
  · rw [setCpu_self]
    exact ⟨rfl, h.2, (hinv.cpu c).calm r h.1⟩

/-- A window in which the LAPIC is enabled is closed. -/
theorem cli_ready {r : Resume} (hr : r ≠ .draining) :
    Triple (cpuEnv V b base c) (InWindow c r) (cli c) fun _ => Knows c (Ready base) fun _ => False :=
  cli_triple.post fun _ _ h => h.mono fun _ hl => hl.ready hr

/-! ## Notifications -/

/-- An IPI to the other processor. The mark may only say that the AP is kicked. -/
theorem send_triple {target : Cpu} {v : UInt8} {mark : IdleMemory → IdleMemory}
    (hsend : ∀ s, IdleInv V base s → IdleAct V base (.cpu c) s (mark (s.send target v)) ∧
      (mark (s.send target v)).cpus = s.cpus ∧ ∀ i, Heard i s → Heard i (mark (s.send target v))) :
    Triple (cpuEnv V b base c) (Knows c (Ready base) K) (lapicSendIpi target v mark)
      fun _ => Knows c (Ready base) K := by
  refine .bind .any fun busy => .cond (fun _ => .ret fun _ h => h) fun _ => ?_
  refine .bind (R := fun _ => Knows c (Ready base) K) ?_ fun _ => ?_
  · refine .store (Knows.stable Ready.steady) fun s hinv _ h => ?_
    obtain ⟨hact, hcpus, hheard⟩ := hsend s hinv
    exact ⟨hact, ⟨by rw [hcpus]; exact h.own, fun hc i hi => hheard i (h.heard hc i hi)⟩⟩
  · exact .bind .any fun _ => .ret fun _ h => h

theorem send_bus {s : IdleMemory} (h : ∀ c, ∀ v ∈ s.bus c, V.may c v) {target : Cpu} {v : UInt8}
    (hv : V.may target v) (c : Cpu) : ∀ u ∈ (s.send target v).bus c, V.may c u := by
  intro u hu
  by_cases hc : c = target
  · subst hc
    have hu : u ∈ v :: s.bus c := by simpa [IdleMemory.send] using hu
    rcases List.mem_cons.1 hu with rfl | hu
    · exact hv
    · exact h c u hu
  · exact h c u (by simpa [IdleMemory.send, hc] using hu)

theorem send_complete {s : IdleMemory} (hinv : IdleInv V base s) :
    IdleAct V base (.cpu .ap) s (s.send .bsp apRequestIpiVector) ∧
      (s.send .bsp apRequestIpiVector).cpus = s.cpus ∧
        ∀ i, Heard i s → Heard i (s.send .bsp apRequestIpiVector) := by
  have hheard : ∀ i, Heard i s → Heard i (s.send .bsp apRequestIpiVector) := fun _ hi => hi
  exact ⟨⟨⟨hinv.cpu, send_bus hinv.bus V.complete, fun hh i => hheard i (hinv.heard hh i)⟩,
    fun _ _ => .refl _, fun _ => hheard⟩, rfl, hheard⟩

theorem send_kick {s : IdleMemory} (hinv : IdleInv V base s) (j : SlotIndex) :
    IdleAct V base (.cpu .bsp) s (markKicked j (s.send .ap apRequestKickIpiVector)) ∧
      (markKicked j (s.send .ap apRequestKickIpiVector)).cpus = s.cpus ∧
        ∀ i, Heard i s → Heard i (markKicked j (s.send .ap apRequestKickIpiVector)) := by
  have hheard : ∀ i, Heard i (markKicked j (s.send .ap apRequestKickIpiVector)) := fun _ _ _ =>
    .inr (by simp [markKicked, IdleMemory.send])
  exact ⟨⟨⟨hinv.cpu, send_bus hinv.bus V.kick, fun _ i => hheard i⟩, fun _ _ => .refl _,
    fun _ i _ => hheard i⟩, rfl, fun i _ => hheard i⟩

theorem apNotify_triple :
    Triple (cpuEnv V b base .ap) (Knows .ap (Ready base) K) (apNotifyBspRequestComplete base)
      fun _ => Knows .ap (Ready base) K := by
  refine .cond (fun _ => .ret fun _ h => h) fun _ => ?_
  refine .bind (enable_triple.pre fun s h => ⟨⟨h.own.window, h.own.halted,
    fun hb => (h.own.lapic hb).1⟩, h.heard⟩) fun _ => ?_
  refine .bind (send_triple fun s hinv => send_complete hinv) fun sent => .cond (fun _ => ?_) fun _ => ?_
  all_goals exact beside_triple Ready.steady (fun _ => rfl) (fun _ => rfl) (fun _ => rfl) fun _ => rfl

theorem bspNotify_triple (i : SlotIndex) :
    Triple (cpuEnv V b base .bsp) (Knows .bsp (Free base) K) (bspNotifyApRequestPending base i)
      fun _ => Knows .bsp (Free base) K := by
  have hbarred : Mute apBarred := BspCode.reads Reading.apBarred
  have hdown : Mute apDown := by
    refine .seq (BspCode.load _) fun st => .cond (fun _ => .ret _) fun _ => ?_
    exact .seq (BspCode.load _) fun st => .ret _
  refine .bind (.cond (fun _ => .ret fun _ h => h) fun _ => onCtx_triple Free.steady hbarred) fun _ => ?_
  refine .bind (.cond (fun _ => .ret fun _ h => h) fun _ => onCtx_triple Free.steady hdown) fun _ => ?_
  refine .cond (fun _ => .ret fun _ h => h) fun _ => .bind enable_triple fun _ => ?_
  refine Triple.post (K := fun _ => Knows .bsp (Ready base) K) ?_ fun _ s h =>
    ⟨⟨h.own.window, h.own.halted, fun hb => (h.own.lapic hb).1⟩, h.heard⟩
  refine .bind (send_triple fun s hinv => send_kick hinv i) fun sent => .cond (fun _ => ?_) fun _ => ?_
  all_goals exact beside_triple Ready.steady (fun _ => rfl) (fun _ => rfl) (fun _ => rfl) fun _ => rfl

/-! ## Interrupts -/

/-- In a handler that returns to window `r`: nothing but its own vector is in service. -/
def Serving (base : UInt64) (r : Resume) (l : Lapic) : Prop :=
  base ≠ 0 → l.inService.tail = [] ∧ (r ≠ .draining → l.Enabled)

theorem Serving.steady {r : Resume} : Steady (Serving base r) := fun _ _ h hl hb =>
  ⟨h.inService ▸ (hl hb).1, fun hr => by rw [Lapic.Enabled, h.spurious]; exact (hl hb).2 hr⟩

theorem trace_triple (hL : Steady L) {f : (InterruptTrace → InterruptTrace) → IdleMemory → IdleMemory}
    (hcpus : ∀ g s, (f g s).cpus = s.cpus) (hbus : ∀ g s, (f g s).bus = s.bus)
    (hkicked : ∀ g s, (f g s).kicked = s.kicked) (hctx : ∀ g s, (f g s).ctx = s.ctx)
    (vector : UInt32) (frame : InterruptFrame) :
    Triple (cpuEnv V b base c) (Knows c L K) (storeTrace f vector frame) fun _ => Knows c L K := by
  have hstore : ∀ g, Triple (cpuEnv V b base c) (Knows c L K) (.store (f g)) fun _ => Knows c L K :=
    fun g => beside_triple hL (hcpus g) (hbus g) (hkicked g) (hctx g)
  unfold storeTrace
  iterate 4 refine .bind (hstore _) fun _ => ?_
  exact hstore _

theorem eoi_triple {r : Resume} :
    Triple (cpuEnv V b base c) (Knows c (Serving base r) K) (sendEoi base c)
      fun _ => Knows c (Calm base r) K := by
  refine .cond (fun h0 => .ret fun _ h => h.mono fun _ _ hb => absurd h0 hb) fun _ => ?_
  exact write_triple Serving.steady nofun fun _ hl hb => hl hb

/-- The gate of `isr_spurious_interrupt` is the one for the spurious vector. -/
theorem eq_of_gateAt_spurious {v : UInt8} (h : (gateAt c v.toNat).isr = .spuriousInterrupt) :
    v = lapicSpuriousVector := by
  have hgates : ∀ n : Fin 256, (gateAt c n).isr = .spuriousInterrupt → n.val = 255 := by
    cases c <;> decide +kernel
  exact UInt8.toNat_inj.1 (hgates ⟨v.toNat, v.toNat_lt⟩ h)

/-- Every handler but that of the spurious interrupt ends the service of its vector. -/
theorem isr_triple {v : UInt8} {frame : InterruptFrame} {p : Prog IdleMemory Unit} {r : Resume}
    (h : isr base c v frame = some p) (hv : v ≠ lapicSpuriousVector) :
    Triple (cpuEnv V b base c) (Knows c (Serving base r) K) p fun _ => Knows c (Calm base r) K := by
  -- a handler either leaves a trace or counts a tick, and then sends the EOI
  have htrace : ∀ f : (InterruptTrace → InterruptTrace) → IdleMemory → IdleMemory,
      (∀ g s, (f g s).cpus = s.cpus) → (∀ g s, (f g s).bus = s.bus) →
      (∀ g s, (f g s).kicked = s.kicked) → (∀ g s, (f g s).ctx = s.ctx) → ∀ vector,
      Triple (cpuEnv V b base c) (Knows c (Serving base r) K)
        (storeTrace f vector frame >>= fun _ => sendEoi base c) fun _ => Knows c (Calm base r) K :=
    fun f h1 h2 h3 h4 vector =>
      .bind (trace_triple Serving.steady h1 h2 h3 h4 vector frame) fun _ => eoi_triple
  have hcount : ∀ f : IdleMemory → IdleMemory, (∀ s, (f s).cpus = s.cpus) → (∀ s, (f s).bus = s.bus) →
      (∀ s, (f s).kicked = s.kicked) → (∀ s, (f s).ctx = s.ctx) →
      Triple (cpuEnv V b base c) (Knows c (Serving base r) K) (.store f >>= fun _ => sendEoi base c)
        fun _ => Knows c (Calm base r) K := fun f h1 h2 h3 h4 =>
    .bind (beside_triple Serving.steady h1 h2 h3 h4) fun _ => eoi_triple
  cases hstub : (gateAt c v.toNat).isr <;> rw [isr, hstub] at h
  case spuriousInterrupt => exact absurd (eq_of_gateAt_spurious hstub) hv
  case apRequestKickIpi | apRequestIpi =>
    obtain rfl := Option.some.inj h
    refine htrace _ ?_ ?_ ?_ ?_ _ <;> exact fun _ _ => rfl
  case apIdleTimer | bspWaitTimer =>
    obtain rfl := Option.some.inj h
    exact hcount _ (fun _ => rfl) (fun _ => rfl) (fun _ => rfl) fun _ => rfl
  all_goals cases h

theorem return_triple (x : Interrupt) :
    Triple (cpuEnv V b base c) (Knows c (Calm base x.resume) K)
      (do
        .store fun s => s.setCpu c fun p => { p with window := some x.resume }
        pure x.resume.point) (PointOk V base c) := by
  refine .bind open_triple fun _ => .ret fun s h => ?_
  cases hr : x.resume <;> rwa [hr] at h

/-- An interrupt is taken where nothing is in service, and returns to where it was taken. -/
theorem interrupt_ok {x : Interrupt} {s s' : IdleMemory} (hinv : IdleInv V base s)
    (h : takeInterrupt c x s = some s') : IdleAct V base (.cpu c) s s' ∧
      wp (cpuEnv V b base c) (handleInterrupt base c x) (PointOk V base c) s' := by
  have hok := hinv.cpu c
  unfold takeInterrupt at h
  split_ifs at h with hwindow hspurious hvector hoffers
  · obtain rfl := Option.some.inj h
    have hcalm := hok.calm x.resume (not_not.1 hwindow)
    refine ⟨IdleAct.setCpu hinv ⟨hok.requests, hok.timer, nofun, nofun⟩ fun _ => nofun, ?_⟩
    have hknows : Knows c (Calm base x.resume) (fun _ => False)
        (s.setCpu c fun p => { p with window := none, halted := false }) :=
      ⟨by rw [setCpu_self]; exact ⟨rfl, rfl, hcalm⟩, nofun⟩
    -- a spurious one: no bit in service, and no EOI
    have hisr : isr base c x.vector x.frame = some (isrSpuriousInterrupt x.frame) := by
      rw [hvector]
      cases c <;> rfl
    rw [handleInterrupt, hisr]
    have htrace : Triple (cpuEnv V b base c) (Knows c (Calm base x.resume) fun _ => False)
        (isrSpuriousInterrupt x.frame) fun _ => Knows c (Calm base x.resume) fun _ => False := by
      refine trace_triple Calm.steady ?_ ?_ ?_ ?_ _ _ <;> exact fun _ _ => rfl
    exact Triple.bind htrace (fun _ => return_triple x) _ hknows
  · obtain rfl := Option.some.inj h
    have hcalm := hok.calm x.resume (not_not.1 hwindow)
    have hmay : V.may c x.vector := hok.requests _ hoffers.waits
    refine ⟨IdleAct.setCpu hinv ⟨fun v hv => hok.requests v (List.mem_of_mem_filter hv), hok.timer,
      nofun, nofun⟩ fun _ => nofun, ?_⟩
    have hknows : Knows c (Serving base x.resume) (fun _ => False) (s.setCpu c fun p =>
        { lapic := p.lapic.accept x.vector, window := none, halted := false }) :=
      ⟨by rw [setCpu_self]; exact ⟨rfl, rfl, hcalm⟩, nofun⟩
    rw [handleInterrupt]
    split
    · rename_i hnone
      exact ⟨x.vector, x.frame, hmay, hnone⟩
    · rename_i p hp
      -- every other handler ends with its EOI
      have hne : x.vector ≠ lapicSpuriousVector := fun he => V.notSpurious c (he ▸ hmay)
      exact Triple.bind (isr_triple hp hne) (fun _ => return_triple x) _ hknows

end Own

end VibeKernel.Idle

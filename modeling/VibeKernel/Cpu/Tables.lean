import VibeKernel.Boot.BringUp
import VibeKernel.Num.Memory
import VibeKernel.Num.Word
import Mathlib.Tactic.IntervalCases

/-!
# The tables of a processor

The GDT, the TSS and the IDT that the kernel builds, byte by byte, and what a processor finds in
them: the base of the TSS in its descriptor, the stacks of the interrupt stack table, and for every
vector the gate that was set last.

A processor splits the words of a descriptor in its own way, so the readers below are not the
writers run backwards.
-/

namespace VibeKernel

open Num

/-! ## Where the parts stand -/

/-- `CPU_FAULT_STACK_SIZE`. -/
def cpuFaultStackSize : Nat := 16 * 1024

/-- `KERNEL_TSS_SELECTOR`. -/
def kernelTssSelector : UInt16 := 0x18

namespace CpuLocal

/-- `sizeof(cpu_local_t)`. -/
@[irreducible] def size : Nat := 32928

variable (cpu : Nat)

def loadedTr : Nat := cpu + 4
def tssReady : Nat := cpu + 6
def gdt : Nat := cpu + 8
def tss : Nat := cpu + 48
/-- `tss.ist[k - 1]`. -/
def ist (k : Nat) : Nat := tss cpu + 28 + 8 * k
def ioMapBase : Nat := tss cpu + 102
def faultStack : Nat := cpu + 160
def doubleFaultStack : Nat := cpu + 16544

end CpuLocal

/-- `sizeof(tss64_t)`. -/
def tss64Size : Nat := 104

/-! ## GDT and TSS -/

/-- The low word of `set_tss_descriptor`. -/
def tssDescriptorLow (base : UInt64) (limit : UInt32) : UInt64 :=
  (limit &&& 0xffff).toUInt64 ||| (base &&& 0x00ffffff) <<< 16 ||| (0x89 : UInt64) <<< 40 |||
    ((limit >>> 16) &&& 0x0f).toUInt64 <<< 48 ||| ((base >>> 24) &&& 0xff) <<< 56

/-- The stores of `set_tss_descriptor`. -/
def setTssDescriptor (gdt index : Nat) (base : UInt64) (limit : UInt32) :
    List (Nat × List UInt8) :=
  [(gdt + 8 * index, bytes64 (tssDescriptorLow base limit)),
   (gdt + 8 * (index + 1), bytes64 ((base >>> 32) &&& 0xffffffff))]

/-- The stores of `init_cpu_local` after it cleared the record. -/
def fillCpuLocal (cpu : Nat) (id : UInt32) : List (Nat × List UInt8) :=
  [(cpu, bytes32 id),
   (CpuLocal.gdt cpu, bytes64 0x0000000000000000),
   (CpuLocal.gdt cpu + 8, bytes64 0x00af9a000000ffff),
   (CpuLocal.gdt cpu + 16, bytes64 0x00cf92000000ffff),
   (CpuLocal.ist cpu 1,
    bytes64 (UInt64.ofNat (CpuLocal.faultStack cpu + cpuFaultStackSize))),
   (CpuLocal.ist cpu 2,
    bytes64 (UInt64.ofNat (CpuLocal.doubleFaultStack cpu + cpuFaultStackSize))),
   (CpuLocal.ioMapBase cpu, bytes16 (UInt16.ofNat tss64Size))] ++
  setTssDescriptor (CpuLocal.gdt cpu) (kernelTssSelector.toNat / 8)
    (UInt64.ofNat (CpuLocal.tss cpu)) (UInt32.ofNat (tss64Size - 1)) ++
  [(CpuLocal.tssReady cpu, [1])]

/-- `init_cpu_local`. -/
def initCpuLocal (cpu : Nat) (id : UInt32) (mem : Memory) : Memory :=
  putAll (put mem cpu (List.replicate CpuLocal.size 0)) (fillCpuLocal cpu id)

/-- The base in the TSS descriptor at `d`, as `ltr` reads it. -/
def readTssBase (mem : Memory) (d : Nat) : Nat :=
  load 3 mem (d + 2) + 2 ^ 24 * load 1 mem (d + 7) + 2 ^ 32 * load 4 mem (d + 8)

/-- The parts of the word lie side by side. -/
theorem toNat_tssDescriptorLow (base : UInt64) (limit : UInt32) :
    (tssDescriptorLow base limit).toNat =
      limit.toNat % 2 ^ 16 + 2 ^ 16 * (base.toNat % 2 ^ 24) + 2 ^ 40 * 0x89 +
        2 ^ 48 * (limit.toNat / 2 ^ 16 % 2 ^ 4) + 2 ^ 56 * (base.toNat / 2 ^ 24 % 2 ^ 8) := by
  have h0 : (limit &&& 0xffff).toUInt64.toNat = limit.toNat % 2 ^ 16 := by
    simpa using Nat.and_two_pow_sub_one_eq_mod limit.toNat 16
  have h1 : ((base &&& 0x00ffffff) <<< 16).toNat = 2 ^ 16 * (base.toNat % 2 ^ 24) := by
    rw [UInt64.toNat_shiftLeft, toNat_and_of_mask base (k := 24) rfl, Nat.shiftLeft_eq]
    change _ * 2 ^ 16 % 2 ^ 64 = _
    omega
  have h2 : ((0x89 : UInt64) <<< 40).toNat = 2 ^ 40 * 0x89 := by rfl
  have h3 : (((limit >>> 16) &&& 0x0f).toUInt64 <<< 48).toNat =
      2 ^ 48 * (limit.toNat / 2 ^ 16 % 2 ^ 4) := by
    have hnibble : ((limit >>> 16) &&& 0x0f).toUInt64.toNat = limit.toNat / 2 ^ 16 % 2 ^ 4 := by
      simpa [Nat.shiftRight_eq_div_pow] using Nat.and_two_pow_sub_one_eq_mod (limit.toNat >>> 16) 4
    rw [UInt64.toNat_shiftLeft, hnibble, Nat.shiftLeft_eq]
    change _ * 2 ^ 48 % 2 ^ 64 = _
    omega
  have h4 : (((base >>> 24) &&& 0xff) <<< 56).toNat = 2 ^ 56 * (base.toNat / 2 ^ 24 % 2 ^ 8) := by
    have hbyte : ((base >>> 24) &&& 0xff).toNat = base.toNat / 2 ^ 24 % 2 ^ 8 := by
      rw [toNat_and_of_mask _ (k := 8) rfl, UInt64.toNat_shiftRight, Nat.shiftRight_eq_div_pow]
      rfl
    rw [UInt64.toNat_shiftLeft, hbyte, Nat.shiftLeft_eq]
    change _ * 2 ^ 56 % 2 ^ 64 = _
    omega
  -- the fields do not overlap, so `|` adds them up
  have e1 := toNat_or_of_lt (k := 16) (h0.trans_lt (Nat.mod_lt _ (by decide))) ⟨_, h1⟩
  have e2 := toNat_or_of_lt (k := 40) (e1.trans_lt (by omega)) ⟨_, h2⟩
  have e3 := toNat_or_of_lt (k := 48) (e2.trans_lt (by omega)) ⟨_, h3⟩
  have e4 := toNat_or_of_lt (k := 56) (e3.trans_lt (by omega)) ⟨_, h4⟩
  unfold tssDescriptorLow
  omega

/-- What a processor reads in the tables of one `cpu_local_t`. The TSS is marked available or, once
`ltr` loaded it, busy. -/
structure CpuTables (cpu : Nat) (mem : Memory) : Prop where
  code : load 8 mem (CpuLocal.gdt cpu + 8) = 0x00af9a000000ffff
  tssBase : readTssBase mem (CpuLocal.gdt cpu + 24) = CpuLocal.tss cpu
  fault : load 8 mem (CpuLocal.ist cpu 1) = CpuLocal.faultStack cpu + cpuFaultStackSize
  doubleFault : load 8 mem (CpuLocal.ist cpu 2) = CpuLocal.doubleFaultStack cpu + cpuFaultStackSize

section InitCpuLocal

variable {cpu : Nat} {id : UInt32} {mem : Memory}

theorem fillCpuLocal_pairwise : (fillCpuLocal cpu id).Pairwise Apart := by
  simp [Apart, fillCpuLocal, setTssDescriptor, CpuLocal.gdt, CpuLocal.tssReady, CpuLocal.ist,
    CpuLocal.tss, CpuLocal.ioMapBase, kernelTssSelector]

/-- Each store is read back. -/
theorem load_initCpuLocal {a : Nat} {bs : List UInt8} (k : Nat)
    (h : (fillCpuLocal cpu id)[k]? = some (a, bs)) :
    load bs.length (initCpuLocal cpu id mem) a = leList bs :=
  load_putAll_get fillCpuLocal_pairwise h

/-- The base is cut into three pieces, which the processor puts together again. -/
theorem readTssBase_initCpuLocal (h : cpu + CpuLocal.size < 2 ^ 64) :
    readTssBase (initCpuLocal cpu id mem) (CpuLocal.gdt cpu + 24) = CpuLocal.tss cpu := by
  have hbase : (UInt64.ofNat (CpuLocal.tss cpu)).toNat = CpuLocal.tss cpu := by
    rw [UInt64.toNat_ofNat', Nat.mod_eq_of_lt]
    simp only [CpuLocal.tss, CpuLocal.size] at h ⊢
    omega
  have hlow : load 8 (initCpuLocal cpu id mem) (CpuLocal.gdt cpu + 24) = _ :=
    (load_initCpuLocal 7 rfl).trans (leList_bytes64 _)
  have hhigh : load 8 (initCpuLocal cpu id mem) (CpuLocal.gdt cpu + 32) = _ :=
    (load_initCpuLocal 8 rfl).trans (leList_bytes64 _)
  rw [toNat_tssDescriptorLow, hbase] at hlow
  rw [toNat_and_of_mask _ (k := 32) rfl, UInt64.toNat_shiftRight, hbase,
    Nat.shiftRight_eq_div_pow] at hhigh
  generalize initCpuLocal cpu id mem = mem' at hlow hhigh ⊢
  have hmid : load 3 mem' (CpuLocal.gdt cpu + 24 + 2) = CpuLocal.tss cpu % 2 ^ 24 := by
    refine (load_part (m := 8) (by decide) _ _).trans ?_
    rw [hlow]
    omega
  have hbyte : load 1 mem' (CpuLocal.gdt cpu + 24 + 7) = CpuLocal.tss cpu / 2 ^ 24 % 2 ^ 8 := by
    refine (load_part (m := 8) (by decide) _ _).trans ?_
    rw [hlow]
    omega
  have htop : load 4 mem' (CpuLocal.gdt cpu + 24 + 8) = CpuLocal.tss cpu / 2 ^ 32 % 2 ^ 32 := by
    refine (load_part (k := 0) (m := 8) (by decide) mem' (CpuLocal.gdt cpu + 32)).trans ?_
    change load 8 mem' (CpuLocal.gdt cpu + 32) = CpuLocal.tss cpu / 2 ^ 32 % 2 ^ 32 at hhigh
    rw [hhigh]
    omega
  rw [readTssBase, hmid, hbyte, htop]
  simp only [CpuLocal.tss, CpuLocal.size] at h ⊢
  omega

end InitCpuLocal

/-- `init_cpu_local` makes the tables. -/
theorem initCpuLocal_tables {cpu : Nat} (id : UInt32) (mem : Memory)
    (h : cpu + CpuLocal.size < 2 ^ 64) : CpuTables cpu (initCpuLocal cpu id mem) := by
  have hstack : ∀ x ≤ cpu + CpuLocal.size, (UInt64.ofNat x).toNat = x := by
    intro x hx
    rw [UInt64.toNat_ofNat', Nat.mod_eq_of_lt (by omega)]
  refine ⟨?_, readTssBase_initCpuLocal h, ?_, ?_⟩
  · exact (load_initCpuLocal 2 rfl).trans (leList_bytes64 _)
  · refine (load_initCpuLocal 4 rfl).trans ((leList_bytes64 _).trans (hstack _ ?_))
    simp only [CpuLocal.faultStack, cpuFaultStackSize, CpuLocal.size]
    omega
  · refine (load_initCpuLocal 5 rfl).trans ((leList_bytes64 _).trans (hstack _ ?_))
    simp only [CpuLocal.doubleFaultStack, cpuFaultStackSize, CpuLocal.size]
    omega

/-! ## IDT -/

/-- The interrupt stubs. -/
inductive Isr
  | breakpoint
  | unhandled
  | faultUd
  | faultDf
  | faultGp
  | faultPf
  | apRequestKickIpi
  | apRequestIpi
  | apIdleTimer
  | bspWaitTimer
  | spuriousInterrupt
  | apFaultUd
  | apFaultDf
  | apFaultGp
  | apFaultPf
  | apUnhandled
deriving DecidableEq

/-- Where the linker put the stubs. -/
structure IsrSymbols where
  addr : Isr → UInt64
  addr_inj : Function.Injective addr

/-- One call of `set_idt_gate_in`. -/
structure IdtGate where
  vector : Nat
  isr : Isr
  ist : UInt8
  typeAttr : UInt8
deriving DecidableEq

/-- The stores of `set_idt_gate_in`. -/
def setIdtGateIn (S : IsrSymbols) (selector : UInt16) (table : Nat) (g : IdtGate) :
    List (Nat × List UInt8) :=
  let addr := S.addr g.isr
  [(table + 16 * g.vector, bytes16 (addr &&& 0xffff).toUInt16),
   (table + 16 * g.vector + 2, bytes16 selector),
   (table + 16 * g.vector + 4, [g.ist &&& 0x7]),
   (table + 16 * g.vector + 5, [g.typeAttr]),
   (table + 16 * g.vector + 6, bytes16 ((addr >>> 16) &&& 0xffff).toUInt16),
   (table + 16 * g.vector + 8, bytes32 (addr >>> 32).toUInt32),
   (table + 16 * g.vector + 12, bytes32 0)]

/-- Sets the gates `gs`, one after the other. -/
def setGates (S : IsrSymbols) (selector : UInt16) (table : Nat) (gs : List IdtGate)
    (mem : Memory) : Memory :=
  gs.foldl (fun m g => putAll m (setIdtGateIn S selector table g)) mem

/-- `CPU_IST_FAULT`. -/
def cpuIstFault : UInt8 := 1

/-- `CPU_IST_DOUBLE_FAULT`. -/
def cpuIstDoubleFault : UInt8 := 2

def apRequestKickIpiVector : Nat := 0xf0
def apRequestIpiVector : Nat := 0xf1
def apIdleTimerVector : Nat := 0xf2
def bspWaitTimerVector : Nat := 0xf3
def lapicSpuriousVector : Nat := 0xff

/-- The loop that sends every vector to one stub. -/
def unhandledGates (isr : Isr) : List IdtGate := (List.range 256).map (⟨·, isr, 0, 0x8e⟩)

/-- The gates that `install_bsp_idt` sets after its loop. -/
def bspOwnGates : List IdtGate :=
  [⟨3, .breakpoint, 0, 0xef⟩,
   ⟨6, .faultUd, cpuIstFault, 0x8e⟩,
   ⟨8, .faultDf, cpuIstDoubleFault, 0x8e⟩,
   ⟨13, .faultGp, cpuIstFault, 0x8e⟩,
   ⟨14, .faultPf, cpuIstFault, 0x8e⟩,
   ⟨apRequestKickIpiVector, .apRequestKickIpi, 0, 0x8e⟩,
   ⟨apRequestIpiVector, .apRequestIpi, 0, 0x8e⟩,
   ⟨bspWaitTimerVector, .bspWaitTimer, 0, 0x8e⟩,
   ⟨lapicSpuriousVector, .spuriousInterrupt, 0, 0x8e⟩]

/-- The gates of `install_bsp_idt`. -/
def bspGates : List IdtGate := unhandledGates .unhandled ++ bspOwnGates

/-- The gates that `init_ap_idt` sets after its loop. -/
def apOwnGates : List IdtGate :=
  [⟨6, .apFaultUd, cpuIstFault, 0x8e⟩,
   ⟨8, .apFaultDf, cpuIstDoubleFault, 0x8e⟩,
   ⟨13, .apFaultGp, cpuIstFault, 0x8e⟩,
   ⟨14, .apFaultPf, cpuIstFault, 0x8e⟩,
   ⟨apRequestKickIpiVector, .apRequestKickIpi, 0, 0x8e⟩,
   ⟨apIdleTimerVector, .apIdleTimer, 0, 0x8e⟩,
   ⟨lapicSpuriousVector, .spuriousInterrupt, 0, 0x8e⟩]

/-- The gates of `init_ap_idt`. -/
def apGates : List IdtGate := unhandledGates .apUnhandled ++ apOwnGates

/-- A gate as a processor reads it. -/
structure GateView where
  offset : Nat
  selector : Nat
  ist : Nat
  typeAttr : Nat

/-- The gate for `vector` in the table at `table`. -/
def readGate (mem : Memory) (table vector : Nat) : GateView where
  offset := load 2 mem (table + 16 * vector) + 2 ^ 16 * load 2 mem (table + 16 * vector + 6) +
    2 ^ 32 * load 4 mem (table + 16 * vector + 8)
  selector := load 2 mem (table + 16 * vector + 2)
  ist := load 1 mem (table + 16 * vector + 4) % 8
  typeAttr := load 1 mem (table + 16 * vector + 5)

/-- What a processor is to read. -/
def IdtGate.view (S : IsrSymbols) (selector : UInt16) (g : IdtGate) : GateView where
  offset := (S.addr g.isr).toNat
  selector := selector.toNat
  ist := g.ist.toNat % 8
  typeAttr := g.typeAttr.toNat

section Gates

variable {S : IsrSymbols} {selector : UInt16} {table : Nat} {mem : Memory}

theorem setIdtGateIn_inside {g : IdtGate} {w : Nat × List UInt8}
    (h : w ∈ setIdtGateIn S selector table g) :
    table + 16 * g.vector ≤ w.1 ∧ w.1 + w.2.length ≤ table + 16 * (g.vector + 1) := by
  simp only [setIdtGateIn, List.mem_cons, List.not_mem_nil, or_false] at h
  rcases h with rfl | rfl | rfl | rfl | rfl | rfl | rfl <;> simp <;> omega

theorem setIdtGateIn_pairwise (g : IdtGate) : (setIdtGateIn S selector table g).Pairwise Apart := by
  simp [Apart, setIdtGateIn]

/-- The offset is cut into three pieces, which the processor puts together again. -/
theorem readGate_setIdtGateIn (g : IdtGate) :
    readGate (putAll mem (setIdtGateIn S selector table g)) table g.vector = g.view S selector := by
  have hget : ∀ {a : Nat} {bs : List UInt8} (k : Nat),
      (setIdtGateIn S selector table g)[k]? = some (a, bs) →
        load bs.length (putAll mem (setIdtGateIn S selector table g)) a = leList bs := fun _ h =>
    load_putAll_get (setIdtGateIn_pairwise g) h
  have hlow := (hget 0 rfl).trans (leList_bytes16 _)
  have hsel := (hget 1 rfl).trans (leList_bytes16 _)
  have hist := (hget 2 rfl).trans (leList_singleton _)
  have hattr := (hget 3 rfl).trans (leList_singleton _)
  have hmid := (hget 4 rfl).trans (leList_bytes16 _)
  have hhigh := (hget 5 rfl).trans (leList_bytes32 _)
  have hoffset := (S.addr g.isr).toNat_lt
  have hmask : ∀ x : Nat, x &&& 65535 = x % 65536 := fun x => Nat.and_two_pow_sub_one_eq_mod x 16
  have hmask' : ∀ x : Nat, x &&& 7 = x % 8 := fun x => Nat.and_two_pow_sub_one_eq_mod x 3
  simp only [List.length_cons, List.length_nil, length_bytes16, length_bytes32, Nat.zero_add] at *
  simp [readGate, IdtGate.view, hlow, hsel, hist, hattr, hmid, hhigh, hmask, hmask',
    Nat.shiftRight_eq_div_pow]
  omega

/-- A gate depends on its own bytes only. -/
theorem readGate_congr {mem' : Memory} {vector : Nat} (h : ∀ n k, k + n ≤ 16 →
    load n mem' (table + 16 * vector + k) = load n mem (table + 16 * vector + k)) :
    readGate mem' table vector = readGate mem table vector := by
  have hlow := h 2 0 (by decide)
  simp only [Nat.add_zero] at hlow
  simp only [readGate, hlow, h 2 2 (by decide), h 1 4 (by decide), h 1 5 (by decide),
    h 2 6 (by decide), h 4 8 (by decide)]

/-- The gates of other vectors stay. -/
theorem readGate_of_ne {g : IdtGate} {vector : Nat} (h : vector ≠ g.vector) :
    readGate (putAll mem (setIdtGateIn S selector table g)) table vector =
      readGate mem table vector := by
  refine readGate_congr fun n k hk => load_putAll_of_apart fun w hw => ?_
  have := setIdtGateIn_inside hw
  omega

/-- The last gate that is set for a vector counts. -/
theorem readGate_setGates {gs : List IdtGate} {g : IdtGate} {vector : Nat}
    (h : gs.reverse.find? (·.vector == vector) = some g) :
    readGate (setGates S selector table gs mem) table vector = g.view S selector := by
  induction gs using List.reverseRecOn with
  | nil => cases h
  | append_singleton gs g' ih =>
    rw [List.reverse_append, List.reverse_singleton, List.singleton_append, List.find?_cons] at h
    rw [setGates, List.foldl_append, List.foldl_cons, List.foldl_nil]
    by_cases hv : g'.vector = vector
    · subst hv
      obtain rfl : g' = g := by simpa using h
      exact readGate_setIdtGateIn g'
    · rw [readGate_of_ne (Ne.symm hv)]
      rw [beq_false_of_ne hv] at h
      exact ih h

/-- Only the table changes. -/
theorem setGates_of_outside {gs : List IdtGate} {n x : Nat} (hgs : ∀ g ∈ gs, g.vector < n)
    (hx : x < table ∨ table + 16 * n ≤ x) : setGates S selector table gs mem x = mem x := by
  induction gs generalizing mem with
  | nil => rfl
  | cons g gs ih =>
    have hg := hgs g List.mem_cons_self
    refine (ih fun g' hg' => hgs g' (List.mem_cons_of_mem _ hg')).trans ?_
    refine putAll_of_outside fun w hw => ?_
    have := setIdtGateIn_inside hw
    omega

end Gates

/-! ### Which gate -/

/-- The gates of the BSP, vector by vector. -/
def bspGateAt (vector : Nat) : IdtGate :=
  match vector with
  | 3 => ⟨3, .breakpoint, 0, 0xef⟩
  | 6 => ⟨6, .faultUd, cpuIstFault, 0x8e⟩
  | 8 => ⟨8, .faultDf, cpuIstDoubleFault, 0x8e⟩
  | 13 => ⟨13, .faultGp, cpuIstFault, 0x8e⟩
  | 14 => ⟨14, .faultPf, cpuIstFault, 0x8e⟩
  | 0xf0 => ⟨0xf0, .apRequestKickIpi, 0, 0x8e⟩
  | 0xf1 => ⟨0xf1, .apRequestIpi, 0, 0x8e⟩
  | 0xf3 => ⟨0xf3, .bspWaitTimer, 0, 0x8e⟩
  | 0xff => ⟨0xff, .spuriousInterrupt, 0, 0x8e⟩
  | v => ⟨v, .unhandled, 0, 0x8e⟩

/-- The gates of an AP, vector by vector. -/
def apGateAt (vector : Nat) : IdtGate :=
  match vector with
  | 6 => ⟨6, .apFaultUd, cpuIstFault, 0x8e⟩
  | 8 => ⟨8, .apFaultDf, cpuIstDoubleFault, 0x8e⟩
  | 13 => ⟨13, .apFaultGp, cpuIstFault, 0x8e⟩
  | 14 => ⟨14, .apFaultPf, cpuIstFault, 0x8e⟩
  | 0xf0 => ⟨0xf0, .apRequestKickIpi, 0, 0x8e⟩
  | 0xf2 => ⟨0xf2, .apIdleTimer, 0, 0x8e⟩
  | 0xff => ⟨0xff, .spuriousInterrupt, 0, 0x8e⟩
  | v => ⟨v, .apUnhandled, 0, 0x8e⟩

theorem unhandledGates_find (isr : Isr) (vector : Fin 256) :
    (unhandledGates isr).reverse.find? (·.vector == vector.val) = some ⟨vector, isr, 0, 0x8e⟩ := by
  have hsome : ((unhandledGates isr).reverse.find? (·.vector == vector.val)).isSome := by
    rw [List.find?_isSome]
    exact ⟨⟨vector, isr, 0, 0x8e⟩, by simp [unhandledGates], by simp⟩
  obtain ⟨g, hg⟩ := Option.isSome_iff_exists.1 hsome
  have hmem := List.mem_of_find?_eq_some hg
  have hvector := List.find?_some hg
  simp only [unhandledGates, List.mem_reverse, List.mem_map, beq_iff_eq] at hmem hvector
  obtain ⟨v, -, rfl⟩ := hmem
  rw [hg, ← hvector]

/-- A gate that is set after the loop hides the one of the loop. -/
theorem gates_find {isr : Isr} {own : List IdtGate} {vector : Fin 256} {g : IdtGate}
    (h : (own.reverse.find? (·.vector == vector.val)).or (some ⟨vector, isr, 0, 0x8e⟩) = some g) :
    (unhandledGates isr ++ own).reverse.find? (·.vector == vector.val) = some g := by
  rw [List.reverse_append, List.find?_append, unhandledGates_find, h]

theorem bspOwnGates_find : ∀ vector : Fin 256,
    (bspOwnGates.reverse.find? (·.vector == vector.val)).or
      (some ⟨vector, .unhandled, 0, 0x8e⟩) = some (bspGateAt vector) := by decide +kernel

theorem apOwnGates_find : ∀ vector : Fin 256,
    (apOwnGates.reverse.find? (·.vector == vector.val)).or
      (some ⟨vector, .apUnhandled, 0, 0x8e⟩) = some (apGateAt vector) := by decide +kernel

/-- Every vector has its gate in the table that `install_bsp_idt` fills. -/
theorem readGate_bsp (S : IsrSymbols) (selector : UInt16) (table : Nat) (mem : Memory)
    (vector : Fin 256) :
    readGate (setGates S selector table bspGates mem) table vector =
      (bspGateAt vector).view S selector :=
  readGate_setGates (gates_find (bspOwnGates_find vector))

/-- Every vector has its gate in the table that `init_ap_idt` fills. -/
theorem readGate_ap (S : IsrSymbols) (selector : UInt16) (table : Nat) (mem : Memory)
    (vector : Fin 256) :
    readGate (setGates S selector table apGates mem) table vector =
      (apGateAt vector).view S selector :=
  readGate_setGates (gates_find (apOwnGates_find vector))

end VibeKernel

import VibeKernel.Cpu.Tables
import VibeKernel.Sched.Route

/-!
# From an exception to the fault dispatcher

What a processor does on an exception in 64-bit mode, the stubs of the kernel, and
`ap_context_from_fault_frame`. Whatever an AP was doing, a fault of its own reaches
`ap_fault_dispatch` with a frame that names its own context and tells what was interrupted, and no
other vector reaches it.

The processor is given by its registers. A page that holds tables or a stack is mapped.
-/

namespace VibeKernel

open Num

/-! ## The contexts -/

/-- `ap_contexts` in memory. -/
structure ContextArray where
  base : Nat
  aligned : 16 ∣ base
  /-- `sizeof(ap_context_t)` is 55696. -/
  fits : base + 55696 * maxApContexts ≤ 2 ^ 64

namespace ContextArray

variable (A : ContextArray) (i : ApContextIndex)

/-- `&ap_contexts[i].cpu`. -/
def cpu : Nat := A.base + 55696 * i + 16576

/-- `ap_contexts[i].idt`. -/
def idt : Nat := A.base + 55696 * i + 49504

end ContextArray

/-- `address_in_range`. -/
def addressInRange (addr start size : UInt64) : Bool := start ≤ addr && addr < start + size

/-- The frame stands on a fault stack of context `i`. -/
def onFaultStacks (A : ContextArray) (frame : UInt64) (i : ApContextIndex) : Bool :=
  addressInRange frame (UInt64.ofNat (CpuLocal.faultStack (A.cpu i)))
      (UInt64.ofNat cpuFaultStackSize) ||
    addressInRange frame (UInt64.ofNat (CpuLocal.doubleFaultStack (A.cpu i)))
      (UInt64.ofNat cpuFaultStackSize)

/-- `ap_context_from_fault_frame`. -/
def apContextFromFaultFrame (A : ContextArray) (frame : UInt64) : ApContextIndex :=
  ((List.finRange maxApContexts).find? (onFaultStacks A frame)).getD ap0Context

/-! ## A processor -/

/-- The registers that matter here. `tssBase` is the base that `ltr` cached. -/
structure CpuRegisters where
  gdtrBase : Nat
  gdtrLimit : Nat
  idtrBase : Nat
  idtrLimit : Nat
  tssBase : Nat
  cs : UInt64
  ss : UInt64
  rip : UInt64
  rflags : UInt64
  rsp : UInt64
  rax : UInt64

/-- The selector names a present 64-bit code segment of the GDT. -/
def IsCode64 (p : CpuRegisters) (mem : Memory) (selector : Nat) : Prop :=
  selector % 8 = 0 ∧ selector + 7 ≤ p.gdtrLimit ∧
    load 1 mem (p.gdtrBase + selector + 5) / 8 % 32 = 0x13 ∧
    load 1 mem (p.gdtrBase + selector + 6) / 32 % 4 = 1

instance (p : CpuRegisters) (mem : Memory) (selector : Nat) : Decidable (IsCode64 p mem selector) :=
  inferInstanceAs (Decidable (_ ∧ _))

/-- The exceptions that push an error code. -/
def pushesErrorCode (vector : Nat) : Bool := vector ∈ [8, 10, 11, 12, 13, 14, 17, 21]

/-- The stack that the gate asks for. -/
def gateStack (p : CpuRegisters) (mem : Memory) (ist : Nat) : Nat :=
  if ist = 0 then p.rsp.toNat else load 8 mem (p.tssBase + 28 + 8 * ist)

/-- The words that the processor pushes. -/
def exceptionWords (p : CpuRegisters) (vector : Nat) (errorCode : UInt64) : List UInt64 :=
  [p.ss, p.rsp, p.rflags, p.cs, p.rip] ++ if pushesErrorCode vector then [errorCode] else []

/-- An exception: the address it goes to, the stack pointer and the memory. `none` if it cannot be
delivered. -/
def deliver (p : CpuRegisters) (vector : Nat) (errorCode : UInt64) (mem : Memory) :
    Option (Nat × Nat × Memory) :=
  let g := readGate mem p.idtrBase vector
  if 16 * vector + 15 ≤ p.idtrLimit ∧ g.typeAttr % 16 ∈ [0xe, 0xf] ∧ 128 ≤ g.typeAttr ∧
      IsCode64 p mem g.selector then
    some (g.offset, pushAll mem (gateStack p mem g.ist / 16 * 16)
      (exceptionWords p vector errorCode))
  else none

/-- The words that a fault stub pushes before it calls the dispatcher with the stack pointer. The
other stubs call none. -/
def Isr.faultWords : Isr → Option (List UInt64)
  | .faultUd | .apFaultUd => some [0, 6]
  | .faultDf | .apFaultDf => some [8]
  | .faultGp | .apFaultGp => some [13]
  | .faultPf | .apFaultPf => some [14]
  | _ => none

/-- The fault stubs of the APs call `ap_fault_dispatch`, those of the BSP `fault_dispatch`. -/
def Isr.callsApFaultDispatch : Isr → Bool
  | .apFaultUd | .apFaultDf | .apFaultGp | .apFaultPf => true
  | _ => false

def Isr.all : List Isr :=
  [.breakpoint, .unhandled, .faultUd, .faultDf, .faultGp, .faultPf, .apRequestKickIpi,
   .apRequestIpi, .apIdleTimer, .bspWaitTimer, .spuriousInterrupt, .apFaultUd, .apFaultDf,
   .apFaultGp, .apFaultPf, .apUnhandled]

theorem Isr.mem_all (isr : Isr) : isr ∈ Isr.all := by cases isr <;> decide

/-- The stub at an address. -/
def IsrSymbols.isrAt (S : IsrSymbols) (addr : Nat) : Option Isr :=
  Isr.all.find? fun isr => (S.addr isr).toNat == addr

/-- A call of a dispatcher: the stub, the frame and the memory. -/
structure DispatchCall where
  isr : Isr
  frame : Nat
  mem : Memory

/-- What an exception comes to, if it comes to a dispatcher. -/
def dispatchCall (S : IsrSymbols) (p : CpuRegisters) (vector : Nat)
    (errorCode : UInt64) (mem : Memory) : Option DispatchCall := do
  let (target, rsp, mem) ← deliver p vector errorCode mem
  let isr ← S.isrAt target
  let words ← isr.faultWords
  let (frame, mem) := pushAll mem rsp words
  pure ⟨isr, frame, mem⟩

/-- The frame at an address, with CR2. -/
def readFaultFrame (mem : Memory) (frame : Nat) (cr2 : UInt64) : FaultFrame where
  vector := UInt64.ofNat (load 8 mem frame)
  errorCode := UInt64.ofNat (load 8 mem (frame + 8))
  rip := UInt64.ofNat (load 8 mem (frame + 16))
  cs := UInt64.ofNat (load 8 mem (frame + 24))
  rflags := UInt64.ofNat (load 8 mem (frame + 32))
  cr2 := cr2

/-! ## Loading the tables -/

/-- `load_cpu_tables`. The load of TR marks the TSS busy. -/
def loadCpuTables (cpu : Nat) (p : CpuRegisters) (mem : Memory) : CpuRegisters × Memory :=
  ({ p with
      gdtrBase := CpuLocal.gdt cpu
      gdtrLimit := 5 * 8 - 1
      tssBase := readTssBase mem (CpuLocal.gdt cpu + kernelTssSelector.toNat)
      cs := kernelCodeSelector.toUInt64
      ss := kernelDataSelector.toUInt64 },
    putAll mem [(CpuLocal.gdt cpu + kernelTssSelector.toNat + 5, [0x8b]),
      (CpuLocal.loadedTr cpu, bytes16 kernelTssSelector)])

/-- `load_idt_entries`. -/
def loadIdtEntries (table : Nat) (p : CpuRegisters) : CpuRegisters :=
  { p with idtrBase := table, idtrLimit := 16 * 256 - 1 }

/-- The part of `ap_entry_one` that makes and loads the tables. -/
def apEntryTables (S : IsrSymbols) (A : ContextArray) (i : ApContextIndex) (p : CpuRegisters)
    (mem : Memory) : CpuRegisters × Memory :=
  let mem := initCpuLocal (A.cpu i) (apContextIndex i + 1) mem
  let loaded := loadCpuTables (A.cpu i) p mem
  (loadIdtEntries (A.idt i) loaded.1,
    setGates S kernelCodeSelector (A.idt i) apGates loaded.2)

/-- The table registers of a processor. -/
structure CpuRegisters.Loaded (p : CpuRegisters) (cpu idt : Nat) : Prop where
  gdtrBase : p.gdtrBase = CpuLocal.gdt cpu
  gdtrLimit : p.gdtrLimit = 39
  idtrBase : p.idtrBase = idt
  idtrLimit : p.idtrLimit = 4095
  tssBase : p.tssBase = CpuLocal.tss cpu

/-- The tables of a processor stand in memory. -/
structure TablesReady (S : IsrSymbols) (gateAt : Nat → IdtGate) (cpu idt : Nat) (mem : Memory) :
    Prop extends CpuTables cpu mem where
  gate : ∀ v : Fin 256, readGate mem idt v = (gateAt v).view S kernelCodeSelector

/-- No byte of the tables has changed. -/
def KeepsTables (cpu idt : Nat) (mem mem' : Memory) : Prop :=
  ∀ x, cpu ≤ x ∧ x < CpuLocal.faultStack cpu ∨ idt ≤ x ∧ x < idt + 4096 → mem' x = mem x

section Ready

variable {S : IsrSymbols} {gateAt : Nat → IdtGate} {cpu idt : Nat} {mem mem' : Memory}

theorem CpuTables.of_agrees (h : CpuTables cpu mem)
    (hk : ∀ x, cpu ≤ x → x < CpuLocal.faultStack cpu → mem' x = mem x) : CpuTables cpu mem' := by
  have hload : ∀ n k, k + n ≤ 160 → load n mem' (cpu + k) = load n mem (cpu + k) := by
    intro n k hle
    refine load_congr fun x hx hx' => hk x (by omega) ?_
    simp only [CpuLocal.faultStack]
    omega
  refine ⟨(hload 8 16 (by decide)).trans h.code, ?_, (hload 8 84 (by decide)).trans h.fault,
    (hload 8 92 (by decide)).trans h.doubleFault⟩
  have h3 := hload 3 34 (by decide)
  have h1 := hload 1 39 (by decide)
  have h4 := hload 4 40 (by decide)
  have hbase := h.tssBase
  simp only [readTssBase, CpuLocal.gdt, Nat.add_assoc, Nat.reduceAdd] at hbase ⊢
  rw [h3, h1, h4, hbase]

theorem TablesReady.of_keeps (h : TablesReady S gateAt cpu idt mem)
    (hk : KeepsTables cpu idt mem mem') : TablesReady S gateAt cpu idt mem' := by
  refine ⟨h.toCpuTables.of_agrees fun x hx hx' => hk x (.inl ⟨hx, hx'⟩), fun v => ?_⟩
  have hv := v.isLt
  rw [← h.gate v]
  exact readGate_congr fun n k hle => load_congr fun x hx hx' => hk x (.inr (by omega))

theorem isrAt_addr (isr : Isr) : S.isrAt (S.addr isr).toNat = some isr := by
  have hsome : (S.isrAt (S.addr isr).toNat).isSome := by
    rw [IsrSymbols.isrAt, List.find?_isSome]
    exact ⟨isr, Isr.mem_all isr, by simp⟩
  obtain ⟨isr', h⟩ := Option.isSome_iff_exists.1 hsome
  have haddr := List.find?_some h
  rw [beq_iff_eq, UInt64.toNat_inj] at haddr
  rw [h, S.addr_inj haddr]

theorem isCode64_kernel {p : CpuRegisters} (hp : p.Loaded cpu idt) (h : CpuTables cpu mem) :
    IsCode64 p mem kernelCodeSelector.toNat := by
  have haccess : load 1 mem (CpuLocal.gdt cpu + 8 + 5) = 0x9a := by
    rw [load_part (m := 8) (by decide), h.code]
    rfl
  have hflags : load 1 mem (CpuLocal.gdt cpu + 8 + 6) = 0xaf := by
    rw [load_part (m := 8) (by decide), h.code]
    rfl
  refine ⟨rfl, ?_, ?_, ?_⟩
  · rw [hp.gdtrLimit]
    decide
  · rw [hp.gdtrBase]
    change load 1 mem (CpuLocal.gdt cpu + 8 + 5) / 8 % 32 = _
    rw [haccess]
  · rw [hp.gdtrBase]
    change load 1 mem (CpuLocal.gdt cpu + 8 + 6) / 32 % 4 = _
    rw [hflags]

/-- Every exception is delivered through the gate of its vector. -/
theorem deliver_eq {p : CpuRegisters} (hp : p.Loaded cpu idt) (h : TablesReady S gateAt cpu idt mem)
    (v : Fin 256) (hattr : (gateAt v).typeAttr = 0x8e ∨ (gateAt v).typeAttr = 0xef)
    (errorCode : UInt64) :
    deliver p v errorCode mem = some ((S.addr (gateAt v).isr).toNat,
      pushAll mem (gateStack p mem ((gateAt v).ist.toNat % 8) / 16 * 16)
        (exceptionWords p v errorCode)) := by
  have hv := v.isLt
  have hcode : IsCode64 p mem ((gateAt v).view S kernelCodeSelector).selector :=
    isCode64_kernel hp h.toCpuTables
  have htype : ((gateAt v).view S kernelCodeSelector).typeAttr % 16 ∈ [0xe, 0xf] ∧
      128 ≤ ((gateAt v).view S kernelCodeSelector).typeAttr := by
    rcases hattr with hattr | hattr <;> simp [IdtGate.view, hattr]
  rw [deliver, hp.idtrBase, h.gate v, hp.idtrLimit, if_pos ⟨by omega, htype.1, htype.2, hcode⟩]
  rfl

end Ready

/-! ## The call of the dispatcher -/

/-- The vectors with a fault stub: `#UD`, `#DF`, `#GP` and `#PF`. -/
def faultVectors : List Nat := [6, 8, 13, 14]

/-- The gate for `vector` fits a kernel that dispatches the fault vectors and no other. -/
structure FitsFaults (vector : Nat) (g : IdtGate) : Prop where
  typeAttr : g.typeAttr = 0x8e ∨ g.typeAttr = 0xef
  words : g.isr.faultWords = if vector ∈ faultVectors then
    some ((if pushesErrorCode vector then [] else [0]) ++ [UInt64.ofNat vector]) else none
  ist : vector ∈ faultVectors → g.ist.toNat % 8 = if vector = 8 then 2 else 1

theorem apGateAt_fits (v : Fin 256) : FitsFaults v (apGateAt v) := by
  have h : (apGateAt v).typeAttr = 0x8e ∧
      (apGateAt v).isr.faultWords = (if v.val ∈ faultVectors then
      some ((if pushesErrorCode v then [] else [0]) ++ [UInt64.ofNat v]) else none) ∧
      (v.val ∈ faultVectors → (apGateAt v).ist.toNat % 8 = if v.val = 8 then 2 else 1) := by
    revert v
    decide +kernel
  exact ⟨.inl h.1, h.2.1, h.2.2⟩

theorem apGateAt_calls (v : Fin 256) (hv : v.val ∈ faultVectors) :
    (apGateAt v).isr.callsApFaultDispatch = true := by
  revert v
  decide +kernel

theorem bspGateAt_calls (v : Fin 256) (hv : v.val ∈ faultVectors) :
    (bspGateAt v).isr.callsApFaultDispatch = false := by
  revert v
  decide +kernel

theorem bspGateAt_fits (v : Fin 256) : FitsFaults v (bspGateAt v) := by
  have h : ((bspGateAt v).typeAttr = 0x8e ∨ (bspGateAt v).typeAttr = 0xef) ∧
      (bspGateAt v).isr.faultWords = (if v.val ∈ faultVectors then
      some ((if pushesErrorCode v then [] else [0]) ++ [UInt64.ofNat v]) else none) ∧
      (v.val ∈ faultVectors → (bspGateAt v).ist.toNat % 8 = if v.val = 8 then 2 else 1) := by
    revert v
    decide +kernel
  exact ⟨h.1, h.2.1, h.2.2⟩

/-- The top of the stack for `vector`. -/
def faultStackTop (cpu vector : Nat) : Nat :=
  (if vector = 8 then CpuLocal.doubleFaultStack cpu else CpuLocal.faultStack cpu) +
    cpuFaultStackSize

/-- Everything that is pushed, by the processor and by the stub. -/
def faultPushes (p : CpuRegisters) (vector : Nat) (errorCode : UInt64) : List UInt64 :=
  [p.ss, p.rsp, p.rflags, p.cs, p.rip, if pushesErrorCode vector then errorCode else 0,
    UInt64.ofNat vector]

section Call

variable {S : IsrSymbols} {gateAt : Nat → IdtGate} {cpu idt : Nat} {mem : Memory} {p : CpuRegisters}

theorem gateStack_fault (hp : p.Loaded cpu idt) (h : CpuTables cpu mem) (halign : 16 ∣ cpu)
    {vector ist : Nat} (hist : ist = if vector = 8 then 2 else 1) :
    gateStack p mem ist / 16 * 16 = faultStackTop cpu vector := by
  obtain ⟨c, rfl⟩ := halign
  have hstack : gateStack p mem ist = faultStackTop (16 * c) vector := by
    rw [gateStack, hp.tssBase, hist, faultStackTop]
    split
    · exact h.doubleFault
    · exact h.fault
  rw [hstack, faultStackTop]
  simp only [CpuLocal.doubleFaultStack, CpuLocal.faultStack, cpuFaultStackSize]
  split <;> omega

/-- **The fault vectors reach the dispatcher, and no other vector does.** -/
theorem dispatchCall_eq (hp : p.Loaded cpu idt) (h : TablesReady S gateAt cpu idt mem)
    (halign : 16 ∣ cpu) (v : Fin 256) (hfits : FitsFaults v (gateAt v)) (errorCode : UInt64) :
    dispatchCall S p v errorCode mem = if v.val ∈ faultVectors then
      some ⟨(gateAt v).isr, faultStackTop cpu v - 56,
        (pushAll mem (faultStackTop cpu v) (faultPushes p v errorCode)).2⟩ else none := by
  rw [dispatchCall, deliver_eq hp h v hfits.typeAttr]
  simp only [Option.bind_eq_bind, Option.bind_some, isrAt_addr, hfits.words]
  by_cases hv : v.val ∈ faultVectors
  · have hpushes : exceptionWords p v errorCode ++
        ((if pushesErrorCode v then [] else [0]) ++ [UInt64.ofNat v]) =
          faultPushes p v errorCode := by
      rw [exceptionWords, faultPushes]
      split <;> rfl
    have hpush := (pushAll_append mem (faultStackTop cpu v) _ _).symm.trans
      (congrArg (pushAll mem (faultStackTop cpu v)) hpushes)
    rw [if_pos hv, if_pos hv, gateStack_fault hp h.toCpuTables halign (hfits.ist hv)]
    simp only [Option.bind_some]
    rw [hpush, pushAll_fst]
    rfl
  · rw [if_neg hv, if_neg hv]
    rfl

/-- The frame tells what was interrupted. -/
theorem readFaultFrame_faultPushes (vector : Nat) (errorCode cr2 : UInt64) :
    readFaultFrame (pushAll mem (faultStackTop cpu vector) (faultPushes p vector errorCode)).2
        (faultStackTop cpu vector - 56) cr2 =
      ⟨UInt64.ofNat vector, if pushesErrorCode vector then errorCode else 0, p.rip, p.cs, p.rflags,
        cr2⟩ := by
  have htop : 56 ≤ faultStackTop cpu vector := by
    simp only [faultStackTop, cpuFaultStackSize]
    omega
  have hword : ∀ {k : Nat} {v : UInt64}, (faultPushes p vector errorCode)[k]? = some v →
      UInt64.ofNat (load 8 (pushAll mem (faultStackTop cpu vector)
        (faultPushes p vector errorCode)).2 (faultStackTop cpu vector - 8 * (k + 1))) = v := by
    intro k v hk
    rw [load_pushAll htop hk, UInt64.ofNat_toNat]
  generalize faultStackTop cpu vector = top at htop hword ⊢
  have hvector : top - 56 = top - 8 * (6 + 1) := rfl
  have herror : top - 56 + 8 = top - 8 * (5 + 1) := by omega
  have hrip : top - 56 + 16 = top - 8 * (4 + 1) := by omega
  have hcs : top - 56 + 24 = top - 8 * (3 + 1) := by omega
  have hrflags : top - 56 + 32 = top - 8 * (2 + 1) := by omega
  rw [readFaultFrame, herror, hrip, hcs, hrflags, hvector, hword (k := 6) rfl, hword (k := 5) rfl,
    hword (k := 4) rfl, hword (k := 3) rfl, hword (k := 2) rfl]

end Call

/-! ## Whose fault it was -/

theorem addressInRange_iff {a start size : Nat} (ha : a < 2 ^ 64) (hend : start + size < 2 ^ 64) :
    addressInRange (UInt64.ofNat a) (UInt64.ofNat start) (UInt64.ofNat size) = true ↔
      start ≤ a ∧ a < start + size := by
  have hstart : (UInt64.ofNat start).toNat = start := by
    rw [UInt64.toNat_ofNat', Nat.mod_eq_of_lt (by omega)]
  have haddr : (UInt64.ofNat a).toNat = a := by
    rw [UInt64.toNat_ofNat', Nat.mod_eq_of_lt (by omega)]
  have hsum : (UInt64.ofNat start + UInt64.ofNat size).toNat = start + size := by
    rw [toNat_add_of_lt] <;> rw [hstart, UInt64.toNat_ofNat', Nat.mod_eq_of_lt (by omega)]
    exact hend
  rw [addressInRange, Bool.and_eq_true, decide_eq_true_iff, decide_eq_true_iff,
    UInt64.le_iff_toNat_le, UInt64.lt_iff_toNat_lt, hstart, haddr, hsum]

section Contexts

variable {A : ContextArray} {i : ApContextIndex}

/-- The fault stacks of different contexts do not meet. -/
theorem apContextFromFaultFrame_eq {frame : Nat}
    (h : CpuLocal.faultStack (A.cpu i) ≤ frame ∧ frame < A.cpu i + 32928) :
    apContextFromFaultFrame A (UInt64.ofNat frame) = i := by
  have hfits := A.fits
  have hi := i.isLt
  have hstack : ∀ j, onFaultStacks A (UInt64.ofNat frame) j = true ↔ j = i := by
    intro j
    have hj := j.isLt
    simp only [ContextArray.cpu, CpuLocal.faultStack, maxApContexts] at h hfits hi hj
    have hframe : frame < 2 ^ 64 := by omega
    have hfault : CpuLocal.faultStack (A.cpu j) + cpuFaultStackSize < 2 ^ 64 := by
      simp only [ContextArray.cpu, CpuLocal.faultStack, cpuFaultStackSize]
      omega
    have hdouble : CpuLocal.doubleFaultStack (A.cpu j) + cpuFaultStackSize < 2 ^ 64 := by
      simp only [ContextArray.cpu, CpuLocal.doubleFaultStack, cpuFaultStackSize]
      omega
    rw [onFaultStacks, Bool.or_eq_true, addressInRange_iff hframe hfault,
      addressInRange_iff hframe hdouble, Fin.ext_iff]
    simp only [ContextArray.cpu, CpuLocal.faultStack, CpuLocal.doubleFaultStack, cpuFaultStackSize]
    omega
  have hsome : ((List.finRange maxApContexts).find?
      (onFaultStacks A (UInt64.ofNat frame))).isSome := by
    rw [List.find?_isSome]
    exact ⟨i, List.mem_finRange i, (hstack i).2 rfl⟩
  obtain ⟨j, hj⟩ := Option.isSome_iff_exists.1 hsome
  rw [apContextFromFaultFrame, hj, ← (hstack j).1 (List.find?_some hj)]
  rfl

end Contexts

/-! ## The tables that are loaded -/

section Loading

variable {S : IsrSymbols} {cpu idt : Nat} {mem : Memory}

/-- The busy mark and `loaded_tr` are beside what the processor reads. -/
theorem CpuTables.loadCpuTables (h : CpuTables cpu mem) (p : CpuRegisters) :
    CpuTables cpu (loadCpuTables cpu p mem).2 := by
  have hload : ∀ n k, 6 ≤ k → k + n ≤ 37 ∨ 38 ≤ k →
      load n (VibeKernel.loadCpuTables cpu p mem).2 (cpu + k) = load n mem (cpu + k) := by
    intro n k hk hk'
    refine load_putAll_of_apart fun w hw => ?_
    simp only [List.mem_cons, List.not_mem_nil, or_false] at hw
    rcases hw with rfl | rfl <;>
      simp [CpuLocal.gdt, CpuLocal.loadedTr, kernelTssSelector] <;> omega
  refine ⟨(hload 8 16 (by decide) (.inl (by decide))).trans h.code, ?_,
    (hload 8 84 (by decide) (.inr (by decide))).trans h.fault,
    (hload 8 92 (by decide) (.inr (by decide))).trans h.doubleFault⟩
  have h3 := hload 3 34 (by decide) (.inl (by decide))
  have h1 := hload 1 39 (by decide) (.inr (by decide))
  have h4 := hload 4 40 (by decide) (.inr (by decide))
  have hbase := h.tssBase
  simp only [readTssBase, CpuLocal.gdt, Nat.add_assoc, Nat.reduceAdd] at hbase ⊢
  rw [h3, h1, h4, hbase]

/-- The gates of the IDT are set last, outside the other tables. -/
theorem CpuTables.setGates (h : CpuTables cpu mem) {gs : List IdtGate} {selector : UInt16}
    (hgs : ∀ g ∈ gs, g.vector < 256) (hidt : CpuLocal.faultStack cpu ≤ idt) :
    CpuTables cpu (setGates S selector idt gs mem) :=
  h.of_agrees fun _ _ hx => setGates_of_outside hgs (.inl (by omega))

end Loading

theorem vector_of_mem_gates {isr : Isr} {own : List IdtGate} (hown : ∀ g ∈ own, g.vector < 256) :
    ∀ g ∈ unhandledGates isr ++ own, g.vector < 256 := by
  intro g hg
  rcases List.mem_append.1 hg with hg | hg
  · obtain ⟨v, hv, rfl⟩ := List.mem_map.1 hg
    exact List.mem_range.1 hv
  · exact hown g hg

theorem vector_of_mem_apGates : ∀ g ∈ apGates, g.vector < 256 := vector_of_mem_gates (by decide)

theorem vector_of_mem_bspGates : ∀ g ∈ bspGates, g.vector < 256 := vector_of_mem_gates (by decide)

/-- The table registers are the same. -/
structure CpuRegisters.SameTables (p p' : CpuRegisters) : Prop where
  gdtrBase : p.gdtrBase = p'.gdtrBase
  gdtrLimit : p.gdtrLimit = p'.gdtrLimit
  idtrBase : p.idtrBase = p'.idtrBase
  idtrLimit : p.idtrLimit = p'.idtrLimit
  tssBase : p.tssBase = p'.tssBase

theorem CpuRegisters.Loaded.of_same {p p' : CpuRegisters} {cpu idt : Nat} (h : p'.Loaded cpu idt)
    (hs : p.SameTables p') : p.Loaded cpu idt :=
  ⟨hs.gdtrBase.trans h.gdtrBase, hs.gdtrLimit.trans h.gdtrLimit, hs.idtrBase.trans h.idtrBase,
    hs.idtrLimit.trans h.idtrLimit, hs.tssBase.trans h.tssBase⟩

theorem ContextArray.cpu_lt (A : ContextArray) (i : ApContextIndex) :
    A.cpu i + CpuLocal.size < 2 ^ 64 := by
  have hfits := A.fits
  have hi := i.isLt
  simp only [maxApContexts] at hfits hi
  rw [CpuLocal.size, ContextArray.cpu]
  omega

/-- What `ap_entry_one` leaves in the tables and in the registers. -/
theorem apEntryTables_ready (S : IsrSymbols) (A : ContextArray) (i : ApContextIndex)
    (p : CpuRegisters) (mem : Memory) :
    TablesReady S apGateAt (A.cpu i) (A.idt i) (apEntryTables S A i p mem).2 ∧
      (apEntryTables S A i p mem).1.Loaded (A.cpu i) (A.idt i) := by
  have htables := initCpuLocal_tables (apContextIndex i + 1) mem (A.cpu_lt i)
  have hidt : CpuLocal.faultStack (A.cpu i) ≤ A.idt i := by
    simp only [CpuLocal.faultStack, ContextArray.cpu, ContextArray.idt]
    omega
  have hgates : CpuTables (A.cpu i) (setGates S kernelCodeSelector (A.idt i) apGates
      (loadCpuTables (A.cpu i) p (initCpuLocal (A.cpu i) (apContextIndex i + 1) mem)).2) :=
    (htables.loadCpuTables p).setGates vector_of_mem_apGates hidt
  have hidtGates := readGate_ap S kernelCodeSelector (A.idt i)
    (loadCpuTables (A.cpu i) p (initCpuLocal (A.cpu i) (apContextIndex i + 1) mem)).2
  simp only [apEntryTables]
  refine ⟨⟨hgates, hidtGates⟩, ?_⟩
  exact ⟨rfl, rfl, rfl, rfl, htables.tssBase⟩

/-- **A fault of an AP is its own.** Whatever the AP did since `ap_entry_one`, as long as nothing
stored into its tables: the vectors 6, 8, 13 and 14 call `ap_fault_dispatch` with a frame from which
`ap_context_from_fault_frame` finds the AP's own context and which tells the vector, the error code
and what was interrupted. No other vector calls it. -/
theorem apFault_ownContext (S : IsrSymbols) (A : ContextArray) (i : ApContextIndex)
    (p₀ : CpuRegisters) (mem₀ : Memory) {p : CpuRegisters} {mem : Memory}
    (hp : p.SameTables (apEntryTables S A i p₀ mem₀).1)
    (hmem : KeepsTables (A.cpu i) (A.idt i) (apEntryTables S A i p₀ mem₀).2 mem) (v : Fin 256)
    (errorCode cr2 : UInt64) :
    if v.val ∈ faultVectors then
      ∃ call, dispatchCall S p v errorCode mem = some call ∧
        call.isr.callsApFaultDispatch = true ∧
        apContextFromFaultFrame A (UInt64.ofNat call.frame) = i ∧
        readFaultFrame call.mem call.frame cr2 =
          ⟨UInt64.ofNat v, if pushesErrorCode v then errorCode else 0, p.rip, p.cs, p.rflags, cr2⟩
    else dispatchCall S p v errorCode mem = none := by
  obtain ⟨hready, hl⟩ := apEntryTables_ready S A i p₀ mem₀
  have halign : 16 ∣ A.cpu i := by
    obtain ⟨c, hc⟩ := A.aligned
    refine ⟨c + 3481 * i + 1036, ?_⟩
    rw [ContextArray.cpu, hc]
    omega
  have hcall := dispatchCall_eq (hl.of_same hp) (hready.of_keeps hmem) halign v
    (apGateAt_fits v) errorCode
  by_cases hv : v.val ∈ faultVectors
  · rw [if_pos hv] at hcall ⊢
    refine ⟨_, hcall, ?_, apContextFromFaultFrame_eq ?_, readFaultFrame_faultPushes _ _ _⟩
    · exact apGateAt_calls v hv
    · -- the frame stands on one of the two fault stacks, which are inside the context
      simp only [faultStackTop, CpuLocal.faultStack, CpuLocal.doubleFaultStack, cpuFaultStackSize]
      split <;> omega
  · rw [if_neg hv] at hcall ⊢
    exact hcall

/-- Where `ap_contexts` could stand. -/
def lowContexts : ContextArray where
  base := 0x100000
  aligned := ⟨0x10000, rfl⟩
  fits := by decide

/-- Where the stubs could stand. -/
def lowStubs : IsrSymbols where
  addr isr := UInt64.ofNat (0x1000 + 16 * Isr.all.idxOf isr)
  addr_inj := by
    intro isr isr' h
    have hinj : ∀ x ∈ Isr.all, ∀ y ∈ Isr.all,
        UInt64.ofNat (0x1000 + 16 * Isr.all.idxOf x) =
          UInt64.ofNat (0x1000 + 16 * Isr.all.idxOf y) → x = y := by
      decide +kernel
    exact hinj isr (Isr.mem_all isr) isr' (Isr.mem_all isr') h

/-- A processor with code at 0x2000. -/
def someRegisters : CpuRegisters := ⟨0, 0, 0, 0, 0, 8, 0x10, 0x2000, 0x202, 0x80000, 0x77⟩

/-- A page fault on the AP of context 3. -/
theorem apFault_ownContext_three :
    let tables := apEntryTables lowStubs lowContexts 3 someRegisters fun _ => 0
    ∃ call, dispatchCall lowStubs tables.1 14 2 tables.2 = some call ∧
      apContextFromFaultFrame lowContexts (UInt64.ofNat call.frame) = 3 := by
  have h := apFault_ownContext lowStubs lowContexts 3 someRegisters (fun _ => 0)
    ⟨rfl, rfl, rfl, rfl, rfl⟩ (fun _ _ => rfl) 14 2 0
  rw [if_pos (by decide)] at h
  obtain ⟨call, hcall, -, hctx, -⟩ := h
  exact ⟨call, hcall, hctx⟩

/-! ## The BSP -/

/-- `bsp_context` in memory. -/
structure BspPlace where
  base : Nat
  aligned : 16 ∣ base
  /-- `sizeof(bsp_context_t)` is 37024. -/
  fits : base + 37024 ≤ 2 ^ 64

/-- `bsp_context.idt`. -/
def BspPlace.idt (B : BspPlace) : Nat := B.base + 32928

/-- `init_cpu_local`, `install_cpu_tables` and `install_bsp_idt`, as `efi_main` calls them. -/
def installBspTables (S : IsrSymbols) (B : BspPlace) (p : CpuRegisters) (mem : Memory) :
    CpuRegisters × Memory :=
  let mem := initCpuLocal B.base 0 mem
  let loaded := loadCpuTables B.base p mem
  (loadIdtEntries B.idt loaded.1, setGates S kernelCodeSelector B.idt bspGates loaded.2)

theorem installBspTables_ready (S : IsrSymbols) (B : BspPlace) (p : CpuRegisters) (mem : Memory) :
    TablesReady S bspGateAt B.base B.idt (installBspTables S B p mem).2 ∧
      (installBspTables S B p mem).1.Loaded B.base B.idt := by
  have hfits : B.base + CpuLocal.size < 2 ^ 64 := by
    have := B.fits
    rw [CpuLocal.size]
    omega
  have htables := initCpuLocal_tables 0 mem hfits
  have hidt : CpuLocal.faultStack B.base ≤ B.idt := by
    simp only [CpuLocal.faultStack, BspPlace.idt]
    omega
  have hgates : CpuTables B.base (setGates S kernelCodeSelector B.idt bspGates
      (loadCpuTables B.base p (initCpuLocal B.base 0 mem)).2) :=
    (htables.loadCpuTables p).setGates vector_of_mem_bspGates hidt
  have hidtGates := readGate_bsp S kernelCodeSelector B.idt
    (loadCpuTables B.base p (initCpuLocal B.base 0 mem)).2
  simp only [installBspTables]
  refine ⟨⟨hgates, hidtGates⟩, ?_⟩
  exact ⟨rfl, rfl, rfl, rfl, htables.tssBase⟩

/-! ## The self test -/

/-- `pushq %rax`. -/
def pushRax (p : CpuRegisters) (mem : Memory) : CpuRegisters × Memory :=
  let rsp := p.rsp - 8
  ({ p with rsp := rsp }, put mem rsp.toNat (bytes64 p.rax))

/-- `popq %rax`. -/
def popRax (p : CpuRegisters) (mem : Memory) : CpuRegisters :=
  { p with rax := UInt64.ofNat (load 8 mem p.rsp.toNat), rsp := p.rsp + 8 }

/-- `movq offset(%rsp), %rax` and `movq %rax, dst`. -/
def copyWord (p : CpuRegisters) (mem : Memory) (offset dst : Nat) : CpuRegisters × Memory :=
  let rax := UInt64.ofNat (load 8 mem (p.rsp.toNat + offset))
  ({ p with rax := rax }, put mem dst (bytes64 rax))

/-- `isr_breakpoint` up to its `iretq`, with `trace` at `bsp_interrupt_observe`. The flags that `addl`
changes come back with the `iretq`. -/
def isrBreakpoint (trace : Nat) (p : CpuRegisters) (mem : Memory) : CpuRegisters × Memory :=
  let (p, mem) := pushRax p mem
  let (p, mem) := copyWord p mem 8 (trace + 8)
  let (p, mem) := copyWord p mem 16 (trace + 16)
  let (p, mem) := copyWord p mem 24 (trace + 24)
  let mem := put mem trace (bytes32 3)
  let eax := UInt32.ofNat (load 4 mem (trace + 4)) + 1
  let p := { p with rax := eax.toUInt64 }
  let mem := put mem (trace + 4) (bytes32 eax)
  (popRax p mem, mem)

/-- `iretq`. -/
def iretq (p : CpuRegisters) (mem : Memory) : CpuRegisters :=
  let rsp := p.rsp.toNat
  { p with
    rip := UInt64.ofNat (load 8 mem rsp)
    cs := UInt64.ofNat (load 8 mem (rsp + 8))
    rflags := UInt64.ofNat (load 8 mem (rsp + 16))
    rsp := UInt64.ofNat (load 8 mem (rsp + 24))
    ss := UInt64.ofNat (load 8 mem (rsp + 32)) }

/-- The stores of `run_idt_self_test` before its `int3`. -/
def clearTrace (trace : Nat) : List (Nat × List UInt8) :=
  [(trace, bytes32 0), (trace + 4, bytes32 0), (trace + 8, bytes64 0), (trace + 16, bytes64 0),
   (trace + 24, bytes64 0)]

/-- `run_idt_self_test`: the answer, and the registers that the `int3` comes back with. `none` if it
does not come back. -/
def runIdtSelfTest (S : IsrSymbols) (trace : Nat) (p : CpuRegisters) (mem : Memory) :
    Option (Bool × CpuRegisters) := do
  let (target, rsp, mem) ← deliver p 3 0 (putAll mem (clearTrace trace))
  let isr ← S.isrAt target
  if isr = .breakpoint then
    let p := { p with rip := UInt64.ofNat target, rsp := UInt64.ofNat rsp }
    let (p, mem) := isrBreakpoint trace p mem
    pure (load 4 mem trace == 3 && load 4 mem (trace + 4) == 1, iretq p mem)
  else none

section SelfTest

variable {trace : Nat} {p : CpuRegisters} {mem : Memory}

theorem load_isrBreakpoint_of_apart {n b : Nat}
    (hstack : b + n ≤ (p.rsp - 8).toNat ∨ (p.rsp - 8).toNat + 8 ≤ b)
    (htrace : b + n ≤ trace ∨ trace + 32 ≤ b) :
    load n (isrBreakpoint trace p mem).2 b = load n mem b := by
  simp only [isrBreakpoint, pushRax, copyWord]
  iterate 6 rw [load_put_of_apart (by simp only [length_bytes64, length_bytes32]; omega)]

/-- The stub pops the `rax` that it pushed: it comes to its `iretq` with the registers it had. -/
theorem isrBreakpoint_fst (hapart : trace + 32 ≤ (p.rsp - 8).toNat ∨ (p.rsp - 8).toNat + 8 ≤ trace) :
    (isrBreakpoint trace p mem).1 = p := by
  have hrsp : p.rsp - 8 + 8 = p.rsp := UInt64.sub_add_cancel _ _
  simp only [isrBreakpoint, pushRax, copyWord, popRax]
  iterate 5 rw [load_put_of_apart (by simp only [length_bytes64, length_bytes32]; omega)]
  rw [load_put (length_bytes64 _), leList_bytes64, UInt64.ofNat_toNat, hrsp]

/-- The stub stores the vector and counts. -/
theorem isrBreakpoint_trace (trace : Nat) (p : CpuRegisters) (mem : Memory)
    (hapart : trace + 32 ≤ (p.rsp - 8).toNat ∨ (p.rsp - 8).toNat + 8 ≤ trace) :
    load 4 (isrBreakpoint trace p mem).2 trace = 3 ∧
      load 4 (isrBreakpoint trace p mem).2 (trace + 4) = (load 4 mem (trace + 4) + 1) % 2 ^ 32 := by
  constructor
  · simp only [isrBreakpoint, pushRax, copyWord]
    rw [load_put_of_apart (.inl le_rfl), load_put (length_bytes32 3), leList_bytes32]
    rfl
  · have hcount : ∀ m : Memory, load 4 (put m trace (bytes32 3)) (trace + 4) = load 4 m (trace + 4) :=
      fun m => load_put_of_apart (.inr le_rfl)
    simp only [isrBreakpoint, pushRax, copyWord]
    rw [load_put (length_bytes32 _), leList_bytes32, hcount]
    iterate 4 rw [load_put_of_apart (by simp only [length_bytes64]; omega)]
    rw [UInt32.toNat_add, UInt32.toNat_ofNat']
    have hlt := load_lt 4 mem (trace + 4)
    exact congrArg (fun x => (x + 1) % 2 ^ 32) (Nat.mod_eq_of_lt hlt)

theorem clearTrace_pairwise : (clearTrace trace).Pairwise Apart := by
  simp [Apart, clearTrace]

theorem clearTrace_inside {w : Nat × List UInt8} (h : w ∈ clearTrace trace) :
    trace ≤ w.1 ∧ w.1 + w.2.length ≤ trace + 32 := by
  simp only [clearTrace, List.mem_cons, List.not_mem_nil, or_false] at h
  rcases h with rfl | rfl | rfl | rfl | rfl <;> simp

/-- The frame of an interrupt. -/
abbrev interruptWords (p : CpuRegisters) : List UInt64 := [p.ss, p.rsp, p.rflags, p.cs, p.rip]

/-- The processor at the first instruction of a stub, below the frame that ends at `top`. -/
abbrev atStub (p : CpuRegisters) (target : UInt64) (top : Nat) : CpuRegisters :=
  { p with rip := target, rsp := UInt64.ofNat (top - 40) }

theorem toNat_atStub_rsp (p : CpuRegisters) (target : UInt64) {top : Nat} (hroom : 48 ≤ top)
    (htop : top < 2 ^ 64) :
    (atStub p target top).rsp.toNat = top - 40 ∧ ((atStub p target top).rsp - 8).toNat = top - 48 := by
  have hrsp : (atStub p target top).rsp.toNat = top - 40 := by
    rw [UInt64.toNat_ofNat', Nat.mod_eq_of_lt (by omega)]
  refine ⟨hrsp, ?_⟩
  rw [UInt64.toNat_sub_of_le _ _ (UInt64.le_iff_toNat_le.2 _), hrsp] <;>
    rw [show (8 : UInt64).toNat = 8 from rfl]
  · omega
  · rw [hrsp]
    omega

/-- `isr_breakpoint` leaves the frame alone, so it comes back to what it interrupted. -/
theorem iretq_isrBreakpoint (p : CpuRegisters) (target : UInt64) (mem : Memory) {top : Nat}
    (hroom : 48 ≤ top) (htop : top < 2 ^ 64) (hstack : trace + 32 ≤ top - 48 ∨ top ≤ trace) :
    let r := isrBreakpoint trace (atStub p target top) (pushAll mem top (interruptWords p)).2
    iretq r.1 r.2 = p := by
  intro r
  obtain ⟨hrsp, hpush⟩ := toNat_atStub_rsp p target hroom htop
  have hregs : r.1 = atStub p target top := isrBreakpoint_fst (by rw [hpush]; omega)
  have hword : ∀ {k : Nat} {v : UInt64}, (interruptWords p)[k]? = some v →
      UInt64.ofNat (load 8 r.2 (top - 8 * (k + 1))) = v := by
    intro k v hk
    have hlt : k < 5 := (List.getElem?_eq_some_iff.1 hk).1
    have hlen : 8 * (interruptWords p).length ≤ top := Nat.le_trans (by decide : 8 * 5 ≤ 48) hroom
    rw [load_isrBreakpoint_of_apart (by rw [hpush]; omega) (by omega), load_pushAll hlen hk,
      UInt64.ofNat_toNat]
  have hrip : top - 40 = top - 8 * (4 + 1) := rfl
  have hcs : top - 40 + 8 = top - 8 * (3 + 1) := by omega
  have hrflags : top - 40 + 16 = top - 8 * (2 + 1) := by omega
  have hrsp' : top - 40 + 24 = top - 8 * (1 + 1) := by omega
  have hss : top - 40 + 32 = top - 8 * (0 + 1) := by omega
  simp only [iretq, hregs, hrsp]
  rw [hcs, hrflags, hrsp', hss, hword (k := 3) rfl, hword (k := 2) rfl, hword (k := 1) rfl,
    hword (k := 0) rfl, hrip, hword (k := 4) rfl]

/-- The trace is cleared, and then the stub counts one breakpoint. -/
theorem isrBreakpoint_cleared (p : CpuRegisters) (target : UInt64) (mem : Memory) {words : List UInt64}
    {top : Nat} (hlen : words.length = 5) (hroom : 48 ≤ top) (htop : top < 2 ^ 64)
    (hstack : trace + 32 ≤ top - 48 ∨ top ≤ trace) :
    let mem' := (isrBreakpoint trace (atStub p target top)
      (pushAll (putAll mem (clearTrace trace)) top words).2).2
    load 4 mem' trace = 3 ∧ load 4 mem' (trace + 4) = 1 := by
  have hcount : load 4 (putAll mem (clearTrace trace)) (trace + 4) = 0 :=
    (load_putAll_get clearTrace_pairwise (k := 1) rfl).trans (leList_bytes32 0)
  have hkept : load 4 (pushAll (putAll mem (clearTrace trace)) top words).2 (trace + 4) =
      load 4 (putAll mem (clearTrace trace)) (trace + 4) :=
    load_pushAll_of_apart (by omega) (by omega)
  obtain ⟨-, hpush⟩ := toNat_atStub_rsp p target hroom htop
  have hseen := isrBreakpoint_trace trace (atStub p target top)
    (pushAll (putAll mem (clearTrace trace)) top words).2 (by rw [hpush]; omega)
  rw [hkept, hcount] at hseen
  exact hseen

/-- **The self test of the IDT passes**, and the code after the `int3` goes on with the registers it
had, the one that the stub works with among them. -/
theorem runIdtSelfTest_passes (S : IsrSymbols) (B : BspPlace) (p₀ : CpuRegisters) (mem₀ : Memory)
    {p : CpuRegisters} {mem : Memory} {trace : Nat}
    (hp : p.SameTables (installBspTables S B p₀ mem₀).1)
    (hmem : KeepsTables B.base B.idt (installBspTables S B p₀ mem₀).2 mem)
    (htrace : trace + 32 ≤ B.base ∨ B.base + 37024 ≤ trace) (hroom : 64 ≤ p.rsp.toNat)
    (hstack : trace + 32 ≤ p.rsp.toNat - 64 ∨ p.rsp.toNat ≤ trace) :
    runIdtSelfTest S trace p mem = some (true, p) := by
  obtain ⟨hready, hl⟩ := installBspTables_ready S B p₀ mem₀
  have hclear : KeepsTables B.base B.idt mem (putAll mem (clearTrace trace)) := by
    intro x hx
    refine putAll_of_outside fun w hw => ?_
    have := clearTrace_inside hw
    simp only [CpuLocal.faultStack, BspPlace.idt] at hx
    omega
  have hdeliver := deliver_eq (hl.of_same hp) ((hready.of_keeps hmem).of_keeps hclear) 3
    (.inr rfl) 0
  -- the frame stands below the interrupted stack, apart from the trace
  let top := p.rsp.toNat / 16 * 16
  have hlt := p.rsp.toNat_lt
  have htop : 48 ≤ top ∧ top < 2 ^ 64 ∧ (trace + 32 ≤ top - 48 ∨ top ≤ trace) := by
    simp only [top]
    omega
  have hback := iretq_isrBreakpoint p (S.addr .breakpoint) (putAll mem (clearTrace trace))
    htop.1 htop.2.1 htop.2.2
  have hseen := isrBreakpoint_cleared p (S.addr .breakpoint) mem
    (show (interruptWords p).length = 5 from rfl) htop.1 htop.2.1 htop.2.2
  have hframe : (pushAll (putAll mem (clearTrace trace)) top (interruptWords p)).1 = top - 40 :=
    pushAll_fst _ _ _
  change deliver p 3 0 (putAll mem (clearTrace trace)) = some ((S.addr .breakpoint).toNat,
    pushAll (putAll mem (clearTrace trace)) top (interruptWords p)) at hdeliver
  rw [runIdtSelfTest]
  simp only [hdeliver, Option.bind_eq_bind, Option.bind_some, isrAt_addr, hframe, UInt64.ofNat_toNat,
    hseen, hback]
  rfl

/-- Where `bsp_context` could stand. -/
def lowBsp : BspPlace where
  base := 0x200000
  aligned := ⟨0x20000, rfl⟩
  fits := by decide

theorem runIdtSelfTest_passes_low :
    let tables := installBspTables lowStubs lowBsp someRegisters fun _ => 0
    runIdtSelfTest lowStubs 0x300000 tables.1 tables.2 = some (true, tables.1) :=
  runIdtSelfTest_passes lowStubs lowBsp someRegisters (fun _ => 0) ⟨rfl, rfl, rfl, rfl, rfl⟩
    (fun _ _ => rfl) (.inr (by decide)) (by decide) (.inr (by decide))

end SelfTest

/-- **A fault of the BSP reaches its dispatcher** with a frame on its own stacks that tells what was
interrupted, and no other vector does. -/
theorem bspFault_dispatched (S : IsrSymbols) (B : BspPlace) (p₀ : CpuRegisters) (mem₀ : Memory)
    {p : CpuRegisters} {mem : Memory} (hp : p.SameTables (installBspTables S B p₀ mem₀).1)
    (hmem : KeepsTables B.base B.idt (installBspTables S B p₀ mem₀).2 mem) (v : Fin 256)
    (errorCode cr2 : UInt64) :
    if v.val ∈ faultVectors then
      ∃ call, dispatchCall S p v errorCode mem = some call ∧
        call.isr.callsApFaultDispatch = false ∧
        call.frame = faultStackTop B.base v - 56 ∧
        readFaultFrame call.mem call.frame cr2 =
          ⟨UInt64.ofNat v, if pushesErrorCode v then errorCode else 0, p.rip, p.cs, p.rflags, cr2⟩
    else dispatchCall S p v errorCode mem = none := by
  obtain ⟨hready, hl⟩ := installBspTables_ready S B p₀ mem₀
  have hcall := dispatchCall_eq (hl.of_same hp) (hready.of_keeps hmem) B.aligned v
    (bspGateAt_fits v) errorCode
  by_cases hv : v.val ∈ faultVectors
  · rw [if_pos hv] at hcall ⊢
    exact ⟨_, hcall, bspGateAt_calls v hv, rfl, readFaultFrame_faultPushes _ _ _⟩
  · rw [if_neg hv] at hcall ⊢
    exact hcall

/-- The `ud2` of a test build. -/
theorem bspFault_dispatched_ud2 :
    let tables := installBspTables lowStubs lowBsp someRegisters fun _ => 0
    ∃ call, dispatchCall lowStubs tables.1 6 0 tables.2 = some call ∧
      readFaultFrame call.mem call.frame 0 = ⟨6, 0, 0x2000, 8, 0x202, 0⟩ := by
  have h := bspFault_dispatched lowStubs lowBsp someRegisters (fun _ => 0)
    ⟨rfl, rfl, rfl, rfl, rfl⟩ (fun _ _ => rfl) 6 0 0
  rw [if_pos (by decide)] at h
  obtain ⟨call, hcall, -, -, hframe⟩ := h
  exact ⟨call, hcall, hframe⟩

end VibeKernel

import VibeKernel.Ap.Ping
import VibeKernel.Boot.Acpi
import VibeKernel.Conc.Part
import VibeKernel.Num.Bytes

/-!
# Bringing the APs up

The loop of `efi_main` over `bring_up_one_ap`, one access of the shared memory at a time, and what
an AP does between its SIPI and `ap_request_loop`.

## The trampoline page

`build_ap_trampoline` fills one page byte by byte, and every AP starts in that page. An AP reads the
bytes it executes one by one. It follows the code that the source emits; once it has read any other
byte it is `lost`, and nothing is said about it any more.

## Left out

The delays touch nothing. What `ap_entry_one` does to tables that only its own processor uses is
left out, and so are the APs' own LAPIC accesses.
-/

namespace VibeKernel

open Conc Num

/-! ## Which processors -/

/-- `MAX_AP_CONTEXTS`. -/
abbrev maxApContexts : Nat := 8

instance : NeZero maxApContexts := ⟨by decide⟩

/-- An index into `ap_contexts`. -/
abbrev ApContextIndex := Fin maxApContexts

/-- `acpi_cpu_is_supported_ap`. -/
def acpiCpuIsSupportedAp (acpi : AcpiInfo) (cpu : AcpiCpu) : Bool :=
  !cpu.x2apic && cpu.apicId != acpi.bspApicId && cpu.apicId < 256

/-- `count_supported_ap_targets`. -/
def countSupportedApTargets (acpi : AcpiInfo) : Nat :=
  if acpi.error ≠ .ok then 0 else acpi.cpus.countP (acpiCpuIsSupportedAp acpi)

/-- The loop of `select_ap_target`. -/
def selectApTargetFrom (acpi : AcpiInfo) (targetIndex : Nat) : List AcpiCpu → Nat → Option AcpiCpu
  | [], _ => none
  | cpu :: cpus, supportedIndex =>
    if acpiCpuIsSupportedAp acpi cpu then
      if supportedIndex ≠ targetIndex then
        selectApTargetFrom acpi targetIndex cpus (supportedIndex + 1)
      else some cpu
    else selectApTargetFrom acpi targetIndex cpus supportedIndex

/-- `select_ap_target`. -/
def selectApTarget (acpi : AcpiInfo) (targetIndex : Nat) : Option AcpiCpu :=
  if acpi.error ≠ .ok then none else selectApTargetFrom acpi targetIndex acpi.cpus 0

/-- What the loop is given: ACPI, the memory map, CR3 and the trampoline page. -/
structure BringUpInput where
  acpi : AcpiInfo
  map : EfiMemoryMap
  loadedCr3 : UInt64
  /-- `trampoline_base` and `sipi_vector`, the same in every context. -/
  trampolineBase : UInt64
  sipiVector : UInt32

/-- Where the objects of the kernel stand. Different objects have different addresses. -/
structure Layout where
  /-- `&ap_contexts[i]`. -/
  apContext : ApContextIndex → UInt64
  /-- `ctx->boot_stack + sizeof(ctx->boot_stack)`. -/
  bootStackTop : ApContextIndex → UInt64
  apEntryOne : UInt64
  apContext_inj : Function.Injective apContext
  bootStackTop_inj : Function.Injective bootStackTop

/-! ## The memory -/

/-- The fields of `ap_boot_info_t` that only bringing up uses. -/
structure ApWake where
  stackTop : UInt64 := 0
  targetAcpiUid : UInt32 := 0
  waitLoops : UInt32 := 0
  icrTimeouts : UInt32 := 0

/-- What an AP enters `ap_entry_one` with. -/
structure ApEntry where
  ctx : UInt64
  rsp : UInt64
deriving DecidableEq

/-- The contexts, the trampoline page and what was sent to the APs. -/
structure BootMemory where
  contexts : ApContextIndex → Machine
  wake : ApContextIndex → ApWake := fun _ => {}
  page : Nat → UInt8 := fun _ => 0
  /-- The LAPIC registers accessed so far, the latest first. -/
  lapicTouched : List UInt64 := []
  /-- The context whose `build_ap_trampoline` stored into the page last. -/
  builtFor : Option ApContextIndex := none
  /-- A SIPI was sent to the processor of context `i`. -/
  sipiSent : ApContextIndex → Bool := fun _ => false
  /-- The processor of context `i` has left its wait for a SIPI. -/
  started : ApContextIndex → Bool := fun _ => false
  /-- The processor of context `i` has called `ap_entry_one`. -/
  entries : ApContextIndex → Option ApEntry := fun _ => none

namespace BootMemory

def setContext (s : BootMemory) (i : ApContextIndex) (f : Machine → Machine) : BootMemory :=
  { s with contexts := Function.update s.contexts i (f (s.contexts i)) }

def setWake (s : BootMemory) (i : ApContextIndex) (f : ApWake → ApWake) : BootMemory :=
  { s with wake := Function.update s.wake i (f (s.wake i)) }

def touch (s : BootMemory) (addr : UInt64) : BootMemory :=
  { s with lapicTouched := addr :: s.lapicTouched }

/-- One byte of the page, stored for context `i`. -/
def storePage (s : BootMemory) (i : ApContextIndex) (w : Nat × UInt8) : BootMemory :=
  { s with page := Function.update s.page w.1 w.2, builtFor := some i }

end BootMemory

/-! ## The trampoline -/

def apTrampolineProt32Offset : Nat := 0x60
def apTrampolineLongOffset : Nat := 0xC0
def apTrampolineGdtrOffset : Nat := 0x180
def apTrampolineGdtOffset : Nat := 0x190
def apTrampolineProt32Selector : UInt16 := 0x18
def kernelCodeSelector : UInt16 := 0x08
def kernelDataSelector : UInt16 := 0x10

/-- `emit_mov_rax_imm64`. -/
def emitMovRaxImm64 (value : UInt64) : List UInt8 := [0x48, 0xb8] ++ bytes64 value

/-- The real mode part. -/
def realCode (base : UInt64) : List UInt8 :=
  [0xfa, 0xfc, 0x8c, 0xc8, 0x8e, 0xd8, 0x8e, 0xc0, 0x8e, 0xd0] ++
  [0xbc] ++ bytes16 0x0ff0 ++
  [0x0f, 0x01, 0x16] ++ bytes16 apTrampolineGdtrOffset.toUInt16 ++
  [0x0f, 0x20, 0xc0, 0x66, 0x0d] ++ bytes32 0x1 ++ [0x0f, 0x22, 0xc0, 0x66, 0xea] ++
  bytes32 (base + apTrampolineProt32Offset.toUInt64).toUInt32 ++ bytes16 apTrampolineProt32Selector

/-- The protected mode part. -/
def prot32Code (base cr3 : UInt64) : List UInt8 :=
  [0x66, 0xb8] ++ bytes16 kernelDataSelector ++ [0x8e, 0xd8, 0x8e, 0xc0, 0x8e, 0xd0] ++
  [0x0f, 0x20, 0xe0, 0x0d] ++ bytes32 0x20 ++ [0x0f, 0x22, 0xe0, 0xb8] ++ bytes32 cr3.toUInt32 ++
  [0x0f, 0x22, 0xd8, 0xb9] ++ bytes32 0xc0000080 ++ [0x0f, 0x32, 0x0d] ++ bytes32 0x100 ++
  [0x0f, 0x30, 0x0f, 0x20, 0xc0, 0x0d] ++ bytes32 0x80000000 ++ [0x0f, 0x22, 0xc0, 0xea] ++
  bytes32 (base + apTrampolineLongOffset.toUInt64).toUInt32 ++ bytes16 kernelCodeSelector

/-- The long mode part up to the first `mov rax, imm64`. -/
def longHead : List UInt8 :=
  [0x66, 0xb8] ++ bytes16 kernelDataSelector ++ [0x8e, 0xd8, 0x8e, 0xc0, 0x8e, 0xd0]

/-- `mov rsp, rax`. -/
def movRspRax : List UInt8 := [0x48, 0x89, 0xc4]

/-- `mov rdi, rax`. -/
def movRdiRax : List UInt8 := [0x48, 0x89, 0xc7]

/-- `call rax`. -/
def callRax : List UInt8 := [0xff, 0xd0]

/-- The long mode part. -/
def longCode (stackTop ctx entry : UInt64) : List UInt8 :=
  longHead ++ (emitMovRaxImm64 stackTop ++ (movRspRax ++ (emitMovRaxImm64 ctx ++ (movRdiRax ++
    (emitMovRaxImm64 entry ++ (callRax ++ [0xfa, 0xf4, 0xeb, 0xfd]))))))

/-- The pseudo-descriptor that `lgdt` loads. -/
def gdtrBytes (base : UInt64) : List UInt8 :=
  bytes16 (4 * 8 - 1) ++ bytes32 (base + apTrampolineGdtOffset.toUInt64).toUInt32

def gdtBytes : List UInt8 :=
  bytes64 0x0000000000000000 ++ bytes64 0x00af9a000000ffff ++ bytes64 0x00cf92000000ffff ++
    bytes64 0x00cf9a000000ffff

/-- The stores that clear the first `n` bytes of the page. -/
def clearStores (n : Nat) : List (Nat × UInt8) := (List.range n).map (·, 0)

/-- `PAGE_SIZE_4K`. -/
@[irreducible] def trampolineSize : Nat := 4096

/-- The stores of `build_ap_trampoline` into the page, in source order. -/
def trampolineStores (P : BringUpInput) (L : Layout) (i : ApContextIndex) : List (Nat × UInt8) :=
  clearStores trampolineSize ++
  (emitAt 0 (realCode P.trampolineBase) ++
  (emitAt apTrampolineProt32Offset (prot32Code P.trampolineBase P.loadedCr3) ++
  (emitAt apTrampolineLongOffset (longCode (L.bootStackTop i) (L.apContext i) L.apEntryOne) ++
  (emitAt apTrampolineGdtrOffset (gdtrBytes P.trampolineBase) ++
  emitAt apTrampolineGdtOffset gdtBytes))))

/-- `boot->error = error`. -/
def storeError (i : ApContextIndex) (error : ApBootError) : Prog BootMemory Unit :=
  .store fun s => s.setContext i fun m => { m with error := error }

def storeApState (i : ApContextIndex) (st : ApBootState) : Prog BootMemory Unit :=
  .store fun s => s.setContext i fun m => { m with apState := st }

/-- The first test of `build_ap_trampoline`. -/
def badTrampoline (P : BringUpInput) : Bool :=
  P.trampolineBase == 0 || P.trampolineBase ≥ 0x100000 || P.trampolineBase &&& 0xfff != 0 ||
    P.sipiVector == 0 || P.sipiVector > 0xff

/-- `build_ap_trampoline`. The stack top that the page gets is the one just stored, since nobody else
stores one. -/
def buildApTrampoline (P : BringUpInput) (L : Layout) (i : ApContextIndex) :
    Prog BootMemory Bool :=
  if badTrampoline P then do
    storeError i .badTrampoline
    pure false
  else if P.loadedCr3 > 0xffffffff then do
    storeError i .highCr3
    pure false
  else do
    .store fun s => s.setWake i fun w => { w with stackTop := L.bootStackTop i }
    .forEach (trampolineStores P L i) fun w => .store fun s => s.storePage i w
    storeApState i .ready
    pure true

/-! ## The LAPIC -/

/-- `lapic_read32`. What the LAPIC answers is not determined. -/
def lapicRead32 (base : UInt64) (reg : UInt32) : Prog BootMemory UInt32 := do
  .store fun s => s.touch (base + reg.toUInt64)
  .any UInt32

/-- `lapic_write32`, less the value. -/
def lapicWrite32 (base : UInt64) (reg : UInt32) : Prog BootMemory Unit :=
  .store fun s => s.touch (base + reg.toUInt64)

/-- The loop of `lapic_wait_icr_idle`. -/
def lapicWaitIcrIdle (base : UInt64) (i : ApContextIndex) : Nat → Prog BootMemory Bool
  | 0 => do
    .store fun s => s.setWake i fun w => { w with icrTimeouts := w.icrTimeouts + 1 }
    pure false
  | n + 1 => do
    let icr ← lapicRead32 base 0x300
    if icr &&& 0x1000 = 0 then pure true else lapicWaitIcrIdle base i n

/-- The bound of the loop of `lapic_wait_icr_idle`. -/
def icrIdleLoops : Nat := 1000000

/-- `lapic_send_ipi`. `sipi` tells a SIPI from an INIT. The IPI is sent by the store to the ICR. -/
def lapicSendIpi (base : UInt64) (i : ApContextIndex) (sipi : Bool) : Prog BootMemory Bool := do
  let idle ← lapicWaitIcrIdle base i icrIdleLoops
  if !idle then pure false
  else do
    lapicWrite32 base 0x310
    .store fun s =>
      let s := s.touch (base + 0x300)
      if sipi then { s with sipiSent := Function.update s.sipiSent i true } else s
    lapicWaitIcrIdle base i icrIdleLoops

/-- `enable_lapic_if_needed`. -/
def enableLapicIfNeeded (base : UInt64) : Prog BootMemory Unit := do
  let svr ← lapicRead32 base 0x0f0
  if svr ≠ (svr &&& 0xffffff00) ||| 0x100 ||| 0xff then lapicWrite32 base 0x0f0 else pure ()

/-! ## `bring_up_one_ap` -/

/-- The stores that `bring_up_one_ap` begins with, to the fields the request path shares. -/
def resetApBoot : List (Machine → Machine) :=
  [fun m => { m with online := false },
   fun m => { m with apState := .none },
   fun m => { m with entryState := .none },
   fun m => { m with faultVector := 0 },
   fun m => { m with fault.errorCode := 0 },
   fun m => { m with fault.rip := 0 },
   fun m => { m with fault.cs := 0 },
   fun m => { m with fault.rflags := 0 },
   fun m => { m with fault.cr2 := 0 },
   fun m => { m with fault.phase := .none },
   fun m => { m with fault.requestState := .empty },
   fun m => { m with fault.requestOpcode := 0 },
   fun m => { m with fault.requestSequence := 0 },
   fun m => { m with fault.requestServiceId := 0 },
   fun m => { m with fault.requestInterfaceId := 0 },
   fun m => { m with fault.requestIdHigh := 0 },
   fun m => { m with fault.requestIdLow := 0 }]

/-- The stores to the fields that only bringing up uses. -/
def resetApWake : List (ApWake → ApWake) :=
  [fun w => { w with targetAcpiUid := 0 },
   fun w => { w with waitLoops := 0 },
   fun w => { w with icrTimeouts := 0 }]

/-- `AP_ONLINE_TIMEOUT_LOOPS`. -/
def apOnlineTimeoutLoops : Nat := 100000000

/-- The store of `ONLINE`, unless the AP has stopped already. -/
def noteOnline (i : ApContextIndex) : Prog BootMemory Unit := do
  let st ← .load fun s => (s.contexts i).apState
  if st = .halted then pure ()
  else do
    let st ← .load fun s => (s.contexts i).apState
    if st = .faulted then pure () else storeApState i .online

/-- The last loop of `bring_up_one_ap`, with `n` rounds to go. -/
def waitOnline (i : ApContextIndex) : Nat → Prog BootMemory Unit
  | 0 => do
    .store fun s => s.setWake i fun w => { w with waitLoops := apOnlineTimeoutLoops.toUInt32 }
    storeError i .onlineTimeout
  | n + 1 => do
    let online ← .load fun s => (s.contexts i).online
    if online then do
      noteOnline i
      storeError i .ok
      .store fun s => s.setWake i fun w =>
        { w with waitLoops := (apOnlineTimeoutLoops - (n + 1)).toUInt32 }
    else waitOnline i n

/-- `bring_up_one_ap` from its first SIPI on. -/
def sendSipis (base : UInt64) (i : ApContextIndex) : Prog BootMemory Unit := do
  let sent ← lapicSendIpi base i true
  if !sent then storeError i .icrTimeout
  else do
    storeApState i .sentSipi
    let online ← .load fun s => (s.contexts i).online
    let sent ← (if online then pure true else lapicSendIpi base i true)
    if !sent then storeError i .icrTimeout else waitOnline i apOnlineTimeoutLoops

/-- `bring_up_one_ap` once the trampoline is built. -/
def startAp (base : UInt64) (i : ApContextIndex) : Prog BootMemory Unit := do
  enableLapicIfNeeded base
  let sent ← lapicSendIpi base i false
  if !sent then storeError i .icrTimeout
  else do
    storeApState i .sentInit
    let sent ← lapicSendIpi base i false
    if !sent then storeError i .icrTimeout else sendSipis base i

/-- The stores that `bring_up_one_ap` begins with. -/
def resetBoot (i : ApContextIndex) : Prog BootMemory Unit := do
  .forEach resetApBoot fun w => .store fun s => s.setContext i w
  .store fun s => s.setContext i fun m => { m with targetApicId := 0 }
  .forEach resetApWake fun w => .store fun s => s.setWake i w

/-- `bring_up_one_ap` once a target is selected. -/
def wakeTarget (P : BringUpInput) (L : Layout) (i : ApContextIndex) (cpu : AcpiCpu) :
    Prog BootMemory Unit := do
  .store fun s => s.setWake i fun w => { w with targetAcpiUid := cpu.acpiUid }
  .store fun s => s.setContext i fun m => { m with targetApicId := cpu.apicId }
  -- `read_msr(0x1b)`
  let apicBase ← .any UInt64
  if apicBase &&& 0x400 ≠ 0 then storeError i .x2apic
  else if !memoryMapContainsRange P.map P.acpi.localApicBase 4096 then storeError i .lapicRange
  else do
    let built ← buildApTrampoline P L i
    if built then startAp P.acpi.localApicBase i else pure ()

/-- `bring_up_one_ap`. -/
def bringUpOneAp (P : BringUpInput) (L : Layout) (i : ApContextIndex) (targetIndex : Nat) :
    Prog BootMemory Unit := do
  resetBoot i
  let error ← .load fun s => (s.contexts i).error
  if error ≠ .ok then pure ()
  else
    match selectApTarget P.acpi targetIndex with
    | none => storeError i .noTarget
    | some cpu => wakeTarget P L i cpu

/-- `ap_context_count`. -/
def apContextCount (acpi : AcpiInfo) : Nat := min (countSupportedApTargets acpi) maxApContexts

/-- Where the BSP stands in the loop of `efi_main`. -/
inductive BootPc
  | bringUp (i : Nat)
  | broughtUp
deriving DecidableEq

/-- The loop of `efi_main` over the contexts. -/
def bspBootBody (P : BringUpInput) (L : Layout) : BootPc → Option (Prog BootMemory BootPc)
  | .bringUp i =>
    if apContextCount P.acpi = 0 then
      some (bringUpOneAp P L 0 0 >>= fun _ => pure .broughtUp)
    else if h : i < maxApContexts then
      if i < apContextCount P.acpi then
        some (bringUpOneAp P L ⟨i, h⟩ i >>= fun _ => pure (.bringUp (i + 1)))
      else some (pure .broughtUp)
    else some (pure .broughtUp)
  | .broughtUp => none

/-! ## An AP from its SIPI on -/

/-- Where the processor of a context stands. -/
inductive ApBootPc
  | waitForSipi
  | lost
  /-- At the `call rax` of the trampoline. -/
  | call (target : UInt64) (e : ApEntry)
  /-- In `ap_request_loop` with context `j`. -/
  | loop (j : ApContextIndex) (pc : ApPc)

/-- Reads the code `bs` at `off`. Whether it was there. -/
def fetchCode : Nat → List UInt8 → Prog BootMemory Bool
  | _, [] => pure true
  | off, b :: bs => do
    let b' ← .load fun s => s.page off
    if b' = b then fetchCode (off + 1) bs else pure false

/-- Reads `n` bytes of an immediate operand. -/
def fetchBytes : Nat → Nat → Prog BootMemory (List UInt8)
  | _, 0 => pure []
  | off, n + 1 => do
    let b ← .load fun s => s.page off
    let bs ← fetchBytes (off + 1) n
    pure (b :: bs)

/-- Executes `mov rax, imm64` at `off` and then the code `next`. -/
def movRax (off : Nat) (next : List UInt8) : Prog BootMemory (Option UInt64) := do
  let ok ← fetchCode off [0x48, 0xb8]
  if !ok then pure none
  else do
    let imm ← fetchBytes (off + 2) 8
    let ok ← fetchCode (off + 10) next
    pure (if ok then some (UInt64.ofNat (leList imm)) else none)

/-- The long mode part of the trampoline. -/
def runLongCode : Prog BootMemory ApBootPc := do
  let ok ← fetchCode apTrampolineLongOffset longHead
  if !ok then pure .lost
  else do
    let rsp ← movRax (apTrampolineLongOffset + 10) movRspRax
    let rdi ← movRax (apTrampolineLongOffset + 23) movRdiRax
    let target ← movRax (apTrampolineLongOffset + 36) callRax
    match rsp, rdi, target with
    | some rsp, some rdi, some target => pure (.call target ⟨rdi, rsp⟩)
    | _, _, _ => pure .lost

/-- The trampoline, in the order in which a processor reads it. -/
def runTrampoline (P : BringUpInput) : Prog BootMemory ApBootPc := do
  let real ← fetchCode 0 (realCode P.trampolineBase)
  let gdtr ← fetchCode apTrampolineGdtrOffset (gdtrBytes P.trampolineBase)
  let gdt ← fetchCode apTrampolineGdtOffset gdtBytes
  let prot32 ← fetchCode apTrampolineProt32Offset (prot32Code P.trampolineBase P.loadedCr3)
  if real && gdtr && gdt && prot32 then runLongCode else pure .lost

/-- The context at an address. -/
def Layout.contextAt (L : Layout) (addr : UInt64) : Option ApContextIndex :=
  (List.finRange maxApContexts).find? fun j => L.apContext j == addr

/-- Context `j` as a part of the memory. -/
def contextPart (j : ApContextIndex) : Part BootMemory Machine where
  get s := s.contexts j
  put m s := { s with contexts := Function.update s.contexts j m }
  get_put m s := by simp
  put_get s := by simp
  put_put m m' s := by simp

/-- `p` on context `j`, and where it ends. -/
def inContext (j : ApContextIndex) (p : Prog Machine ApPc) : Prog BootMemory ApBootPc :=
  p.onPart (contextPart j) >>= fun pc => pure (.loop j pc)

/-- The stores of `ap_entry_one` before `ap_request_loop`. -/
def apEntryOne (j : ApContextIndex) : Prog BootMemory ApBootPc := do
  .store fun s => s.setContext j fun m => { m with entryState := .c }
  .store fun s => s.setContext j fun m => { m with entryState := .tables }
  pure (.loop j .start)

/-- The call at the end of the trampoline, by the processor of context `i`. -/
def callEntry (L : Layout) (i : ApContextIndex) (target : UInt64) (e : ApEntry) :
    Prog BootMemory ApBootPc :=
  if target = L.apEntryOne then do
    .store fun s => { s with entries := Function.update s.entries i (some e) }
    match L.contextAt e.ctx with
    | some j => apEntryOne j
    | none => pure .lost
  else pure .lost

def apBootBody (b : Build) (L : Layout) (i : ApContextIndex) :
    ApBootPc → Option (Prog BootMemory ApBootPc)
  | .waitForSipi | .lost => none
  | .call target e => some (callEntry L i target e)
  | .loop j pc => (apBody b pc).map (inContext j)

/-- What can happen to an AP at any time. -/
inductive ApBootTrap
  /-- A SIPI starts it. -/
  | sipi
  /-- It faults while it runs on context `j`. -/
  | fault (j : ApContextIndex) (frame : FaultFrame)

/-- A SIPI starts a processor that waits for one. A fault hits the context that runs. -/
def enterApBoot (L : Layout) (i : ApContextIndex) : ApBootTrap → BootMemory → Option BootMemory
  | .sipi, s =>
    if s.sipiSent i ∧ s.started i = false then
      some { s with started := Function.update s.started i true }
    else none
  | .fault j frame, s =>
    if (s.entries i).any fun e => L.contextAt e.ctx == some j then
      (enterFault frame (s.contexts j)).map fun m => s.setContext j fun _ => m
    else none

inductive BootCpu
  | bsp
  | ap (i : ApContextIndex)
deriving DecidableEq

/-- The BSP in the loop of `efi_main`, and the processor of each context. Every IPI reaches the one
processor it names. -/
def bootSystem (b : Build) (P : BringUpInput) (L : Layout) : System BootCpu BootMemory where
  PC
    | .bsp => BootPc
    | .ap _ => ApBootPc
  body
    | .bsp => bspBootBody P L
    | .ap i => apBootBody b L i
  Trap
    | .bsp => Empty
    | .ap _ => ApBootTrap
  enter
    | .bsp => fun x => x.elim
    | .ap i => enterApBoot L i
  trap
    | .bsp => fun x => x.elim
    | .ap _ => fun
      | .sipi => runTrampoline P
      | .fault j frame => inContext j (apFaultDispatch frame)

/-- The start of the loop: the APs wait for their SIPIs. -/
def bootStart (b : Build) (P : BringUpInput) (L : Layout) (s : BootMemory) :
    (bootSystem b P L).Config where
  mem := s
  prog
    | .bsp => .ret (.bringUp 0)
    | .ap _ => .ret .waitForSipi

end VibeKernel

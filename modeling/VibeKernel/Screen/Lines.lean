import VibeKernel.Ap.CounterBooks
import VibeKernel.Idle.System
import VibeKernel.Sched.Broadcast
import VibeKernel.Screen.MapTable
import VibeKernel.Screen.Text

/-!
# The lines of the screen

What `draw_memory_map`, `draw_paging_failure` and `fault_dispatch` write, line by line, and that no
line leaves the array it is put together in. A field that is an enumeration has no other values here,
so `UNKNOWN` stands only where the source has a number.
-/

namespace VibeKernel

open Num

/-- A line that is put together in `char line[size]`, or a literal. -/
inductive ScreenLine
  | built (size : Nat) (pieces : List Piece)
  | literal (text : List UInt8)

/-- `append_str` of a literal. -/
abbrev str (s : String) : Piece := .str (ascii s)

abbrev putChar (c : Char) : Piece := .char c.val.toUInt8

/-! ## Names -/

/-- A `switch` over codes that returns a name. -/
def nameOf (names : List (UInt64 × String)) (code : UInt64) : List UInt8 :=
  ascii ((names.lookup code).getD "UNKNOWN")

def memoryTypeNames : List (UInt64 × String) :=
  [(0, "RSV"), (1, "LOAD-CODE"), (2, "LOAD-DATA"), (3, "BS-CODE"), (4, "BS-DATA"), (5, "RT-CODE"),
    (6, "RT-DATA"), (7, "CONV"), (8, "UNUSABLE"), (9, "ACPI-R"), (10, "ACPI-NVS"), (11, "MMIO"),
    (12, "MMIO-PORT"), (13, "PAL"), (14, "PERSIST"), (15, "UNACCEPT")]

/-- `memory_type_name`. -/
def memoryTypeName (type : UInt32) : List UInt8 := nameOf memoryTypeNames type.toUInt64

def faultVectorNames : List (UInt64 × String) :=
  [(6, "INVALID OPCODE"), (8, "DOUBLE FAULT"), (13, "GENERAL PROTECTION"), (14, "PAGE FAULT")]

/-- `fault_vector_name`. -/
def faultVectorName (vector : UInt64) : List UInt8 := nameOf faultVectorNames vector

def apRequestOpNames : List (UInt64 × String) := [(0, "NONE"), (1, "PING"), (2, "COUNTER")]

/-- `ap_request_op_name`. -/
def apRequestOpName (opcode : UInt32) : List UInt8 := nameOf apRequestOpNames opcode.toUInt64

/-- `paging_error_name`. -/
def pagingErrorName : PagingError → String
  | .ok => "OK"
  | .la57 => "LA57"
  | .range => "RANGE"
  | .noPool => "NO-POOL"
  | .poolEmpty => "POOL-EMPTY"
  | .tableEntry => "TABLE-ENTRY"
  | .mapFull => "MAP-FULL"

/-- `acpi_error_name`. -/
def acpiErrorName : AcpiError → String
  | .ok => "OK"
  | .noRsdp => "NO-RSDP"
  | .badRsdp => "BAD-RSDP"
  | .noXsdt => "NO-XSDT"
  | .badXsdt => "BAD-XSDT"
  | .noMadt => "NO-MADT"
  | .badMadt => "BAD-MADT"
  | .badEntry => "BAD-ENTRY"
  | .range => "RANGE"

/-- `ap_boot_error_name`. -/
def apBootErrorName : ApBootError → String
  | .ok => "OK"
  | .noTrampoline => "NO-TRAMP"
  | .noTarget => "NO-TARGET"
  | .x2apic => "X2APIC"
  | .badTrampoline => "BAD-TRAMP"
  | .highCr3 => "HIGH-CR3"
  | .lapicRange => "LAPIC-RANGE"
  | .icrTimeout => "ICR-TIMEOUT"
  | .onlineTimeout => "ONLINE-TIMEOUT"

/-- `ap_boot_state_name`. -/
def apBootStateName : ApBootState → String
  | .none => "NONE"
  | .ready => "READY"
  | .sentInit => "SENT-INIT"
  | .sentSipi => "SENT-SIPI"
  | .online => "ONLINE"
  | .halted => "HALTED"
  | .faulted => "FAULTED"

/-- `ap_entry_state_name`. -/
def apEntryStateName : ApEntryState → String
  | .none => "NONE"
  | .c => "C"
  | .tables => "TABLES"
  | .halted => "HALTED"
  | .fault => "FAULT"
  | .loop => "LOOP"
  | .request => "REQUEST"

/-- `ap_fault_phase_name`. -/
def apFaultPhaseName : ApFaultPhase → String
  | .none => "NONE"
  | .startup => "STARTUP"
  | .loop => "LOOP"
  | .request => "REQUEST"

/-- `ap_request_state_name`. -/
def apRequestStateName : ApRequestStatus → String
  | .empty => "EMPTY"
  | .pending => "PENDING"
  | .running => "RUNNING"
  | .done => "DONE"
  | .timeout => "TIMEOUT"
  | .badOp => "BAD-OP"
  | .fault => "FAULT"
  | .skipped => "SKIPPED"

/-- `ap_queue_stop_reason_name`. -/
def apQueueStopReasonName : ApQueueStop → String
  | .none => "NONE"
  | .drained => "DRAINED"
  | .badOp => "BAD-OP"
  | .fault => "FAULT"

/-- `ap_request_route_mode_name`. -/
def apRequestRouteModeName : ApRequestRouteMode → String
  | .owner => "OWNER"
  | .explicit => "EXPLICIT"
  | .schedulerFallback => "FALLBACK"

/-! ## What the functions draw -/

/-- `fault_dispatch`, from what it reads of the processor and of `bsp_context.cpu`. -/
structure FaultDisplay where
  frame : FaultFrame
  cr3 : UInt64
  tr : UInt64
  cpuId : UInt32
  loadedTr : UInt64
  tssReady : Bool
  ist1 : UInt64
  ist2 : UInt64

def faultDispatchLines (d : FaultDisplay) : List ScreenLine :=
  [.literal (ascii "BSP FAULT"),
    .built 192 [str "VECTOR: ", .dec64 d.frame.vector, str "  ", .str (faultVectorName d.frame.vector),
      str "  ERROR: ", .hex64 d.frame.errorCode],
    .built 192 [str "RIP: ", .hex64 d.frame.rip, str "  CS: ", .hex64 d.frame.cs, str "  RFLAGS: ",
      .hex64 d.frame.rflags],
    .built 192 [str "CR2: ", .hex64 d.frame.cr2, str "  CR3: ", .hex64 d.cr3],
    .built 192 [str "CPU: ", .dec d.cpuId, str "  TR: ", .hex64 d.tr, str "  LOADED TR: ",
      .hex64 d.loadedTr, str "  TSS: ", str (if d.tssReady then "READY" else "NOT-READY")],
    .built 192 [str "IST1: ", .hex64 d.ist1, str "  IST2: ", .hex64 d.ist2],
    .literal (ascii "CURRENT REQUEST: N/A"), .literal (ascii "HALTED")]

/-- `draw_paging_failure`. -/
def drawPagingFailure (paging : PagingInfo) : List ScreenLine :=
  [.literal (ascii "PAGING FAILED"),
    .built 192 [str "ERROR: ", str (pagingErrorName paging.error), str "  RESERVED PAGES: ",
      .dec64 paging.reservedPages, str "  USED: ", .dec64 paging.allocatedPages],
    .built 192 [str "PT POOL: ", .hex64 paging.poolStart, str "-", .hex64 paging.poolEnd]]

/-- The first lines of `draw_memory_map`. -/
def pagingLines (paging : PagingInfo) (idtSelfTestOk : Bool) : List ScreenLine :=
  [.built 192 [str "PAGING: 4K IDENTITY  CR3: ", .hex64 paging.loadedCr3, str "  IDT: ",
      str (if idtSelfTestOk then "OK" else "FAIL")],
    .built 192 [str "PT POOL: ", .hex64 paging.poolStart, str "-", .hex64 (paging.poolEnd - 1),
      str "  RESERVED: ", .dec64 paging.reservedPages, str "  USED: ", .dec64 paging.allocatedPages],
    .built 192 [str "IDENTITY END: ", .hex64 paging.maxIdentityEnd, str "  MAPPED PAGES: ",
      .dec64 paging.mappedPages, str "  RANGES: ", .dec64 paging.mappedRanges]]

/-- One processor of the list, behind a blank unless it is the first one. -/
def cpuPieces (first : Bool) (cpu : AcpiCpu) : List Piece :=
  (if first then [] else [putChar ' ']) ++ [.dec cpu.acpiUid, putChar '/', .dec cpu.apicId] ++
    if cpu.x2apic then [str "(X2)"] else []

/-- `ACPI_CPU_LIST_OUTPUT_LIMIT`. -/
def acpiCpuListOutputLimit : Nat := 5

/-- `draw_acpi_info`. -/
def drawAcpiInfo (acpi : AcpiInfo) : List ScreenLine :=
  let listed := acpi.cpus.take acpiCpuListOutputLimit
  [.built 192 [str "ACPI: ", str (acpiErrorName acpi.error), str "  RSDP: ", .hex64 acpi.rsdp,
      str "  XSDT: ", .hex64 acpi.xsdt, str "  ENTRIES: ", .dec acpi.xsdtEntries],
    .built 192 [str "MADT: ", .hex64 acpi.madt, str "  LAPIC BASE: ", .hex64 acpi.localApicBase,
      str "  FLAGS: ", .hex64 acpi.madtFlags.toUInt64, str "  BSP APIC ID: ", .dec acpi.bspApicId],
    .built 192 <| [str "ENABLED CPU/APIC: ", .dec acpi.enabledCpuCount, str "  LIST: "] ++
      (listed.zipIdx.flatMap fun c => cpuPieces (c.2 == 0) c.1) ++
      if acpi.enabledCpuCount.toNat > listed.length then
        [str " +", .dec (acpi.enabledCpuCount - listed.length.toUInt32)] else []]

/-- The fields of `ap_boot_info_t` that only the screen reads. -/
structure ApBootDetails where
  targetAcpiUid : UInt32 := 0
  trampolineBase : UInt64 := 0
  sipiVector : UInt32 := 0
  icrTimeouts : UInt32 := 0
  gdtOk : Bool := false
  tssOk : Bool := false
  idtOk : Bool := false
  apCs : UInt64 := 0
  apTr : UInt64 := 0
  apIst1 : UInt64 := 0
  apIst2 : UInt64 := 0

def yesNo (ok : Bool) : Piece := str (if ok then "OK" else "NO")

/-- `draw_ap_boot_info`. -/
def drawApBootInfo (boot : Machine) (d : ApBootDetails) : List ScreenLine :=
  [.built 192 [str "AP START: ", str (apBootErrorName boot.error), str "  TARGET UID/APIC: ",
      .dec d.targetAcpiUid, putChar '/', .dec boot.targetApicId, str "  ONLINE: ",
      .dec (if boot.online then 1 else 0)],
    .built 192 [str "AP STATE: ", str (apBootStateName boot.apState), str "  TRAMP: ",
      .hex64 d.trampolineBase, str "  SIPI: ", .dec d.sipiVector, str "  ICR-TO: ", .dec d.icrTimeouts],
    .built 192 [str "AP ENTRY: ", str (apEntryStateName boot.entryState), str "  GDT: ", yesNo d.gdtOk,
      str "  TSS: ", yesNo d.tssOk, str "  IDT: ", yesNo d.idtOk, str "  CS: ", .hex64 d.apCs,
      str "  TR: ", .hex64 d.apTr],
    .built 192 [str "AP IST1: ", .hex64 d.apIst1, str "  IST2: ", .hex64 d.apIst2]] ++
  if boot.faultVector = 0 then []
  else
    [.built 192 [str "AP FAULT: ", str (apFaultPhaseName boot.fault.phase), str "  VEC: ",
        .dec64 boot.faultVector, str " ", .str (faultVectorName boot.faultVector), str "  ERR: ",
        .hex64 boot.fault.errorCode, str "  CR2: ", .hex64 boot.fault.cr2],
      .built 192 [str "AP RIP: ", .hex64 boot.fault.rip, str "  CS: ", .hex64 boot.fault.cs,
        str "  RFLAGS: ", .hex64 boot.fault.rflags]] ++
    if boot.fault.phase = .request then
      [.built 192 [str "AP FAULT REQ: ", .str (apRequestOpName boot.fault.requestOpcode),
          str "  STATE: ", str (apRequestStateName boot.fault.requestState), str "  SEQ: ",
          .dec boot.fault.requestSequence, str "  ID: ", .hex64 boot.fault.requestIdHigh, putChar '-',
          .hex64 boot.fault.requestIdLow],
        .built 192 [str "AP FAULT KEY: SVC: ", .hex64 boot.fault.requestServiceId, str "  IFACE: ",
          .hex64 boot.fault.requestInterfaceId]]
    else []

/-- `draw_ap_queue_summary`. -/
def drawApQueueSummary (queue : ApQueueSummary) (completionIpi : Idle.InterruptTrace)
    (counts : Idle.IdleCounts) : List ScreenLine :=
  [.built 192 [str "AP QUEUE: HANDLED ", .dec queue.handledCount, putChar '/',
    .dec (if queue.plannedCount ≠ 0 then queue.plannedCount else 4), str "  LAST: ",
    .dec queue.lastSlot, putChar ' ', str (apRequestStateName queue.lastState), str "  STOP: ",
    str (apQueueStopReasonName queue.stopReason), str "  CURRENT: ", .dec queue.currentSlot,
    str "  IPI RX/TX/FAIL: ", .dec completionIpi.count, putChar '/', .dec counts.requestIpiSendCount,
    putChar '/', .dec counts.requestIpiSendFailCount]]

/-- `draw_ap_kick_summary`. -/
def drawApKickSummary (interrupts : Idle.ApInterruptObserve) (counts : Idle.IdleCounts)
    (bspWait : Idle.BspWaitObserve) : List ScreenLine :=
  [.built 192 [str "AP KICK: RX/TX/FAIL: ", .dec interrupts.kickIpi.count, putChar '/',
      .dec counts.requestKickIpiSendCount, putChar '/', .dec counts.requestKickIpiSendFailCount],
    .built 192 [str "AP IDLE: HALT/WAKE/TIMER: ", .dec counts.idleHaltCount, putChar '/',
      .dec counts.idleWakeCount, putChar '/', .dec interrupts.idleTimerCount],
    .built 192 [str "BSP WAIT: HALT/WAKE/TIMER: ", .dec bspWait.haltCount, putChar '/',
      .dec bspWait.wakeCount, putChar '/', .dec bspWait.timerCount]]

/-- `draw_ap_request_history_entry`. -/
def drawApRequestHistoryEntry (entry : ApRequestHistoryEntry) (historyNumber : UInt32) : ScreenLine :=
  let request := entry.request
  .built 256 [str "AP HIST ", .dec historyNumber, str " SLOT ", .dec entry.slot, str ": ",
    .str (apRequestOpName request.request.opcode),
    str (if apRequestResultOk request entry.counterValue then " OK" else " NOT-OK"), str "  STATE: ",
    str (apRequestStateName request.state), str "  SEQ: ", .dec request.request.sequence,
    str "  WAIT: ", .dec request.metrics.waitLoops, str "  COUNT: ", .dec request.metrics.handledCount,
    str "  RESULT: ", .dec request.reply.resultCode, str "  FAULT: ", .dec request.reply.faultCode,
    str "  S/I: ", .hex32 request.request.serviceId.toUInt32, putChar '/',
    .hex32 request.request.interfaceId.toUInt32]

/-- `draw_ap_request_history`. -/
def drawApRequestHistory (history : Fin apRequestHistoryCount → ApRequestHistoryEntry) :
    List ScreenLine :=
  let drawn := (List.finRange apRequestHistoryCount).filter fun k => (history k).valid
  if drawn = [] then [.literal (ascii "AP HISTORY: NONE")]
  else drawn.map fun k => drawApRequestHistoryEntry (history k) (UInt32.ofNat (k.val + 1))

/-- `draw_ap_context_summary`. -/
def drawApContextSummary (contexts : ApContexts) (contextCount : Nat) (target : ApContextIndex) :
    List ScreenLine :=
  let drawn := contextIndices contextCount
  [.built 192 <| [str "AP ONLINE: ", .dec (drawn.countP fun i => (contexts i).online).toUInt32,
      putChar '/', .dec drawn.length.toUInt32, str "  TARGET: ", .dec (apContextIndex target + 1),
      putChar '/', .dec (contexts target).targetApicId, str "  APIC:"] ++
    (if drawn = [] then [str " NONE"] else []) ++
    drawn.flatMap fun i => [putChar ' ', .dec (contexts i).targetApicId] ++
      if (contexts i).online then [] else [str "!"]]

/-- `draw_ap_scheduler_summary`. -/
def drawApSchedulerSummary (scheduler : ApScheduler) : List ScreenLine :=
  let onlineCount := scheduler.online.length.toUInt32
  [.built 192 <| [str "AP SCHED: ", str (if scheduler.explicitTarget then "EXPLICIT" else "RR"),
      str "  ONLINE: ", .dec onlineCount, str "  PICK: "] ++
    (if scheduler.selectedContextIndex = apRequestTargetScheduler then [str "NONE"]
      else [.dec (scheduler.selectedContextIndex + 1), putChar '/', .dec scheduler.selectedApicId]) ++
    [str "  NEXT: ", .dec (if onlineCount ≠ 0 then scheduler.nextIndex + 1 else 0)]]

/-- `draw_ap_request_route_summary`. -/
def drawApRequestRouteSummary (route : ApRequestRoute) : List ScreenLine :=
  [.built 192 <| [str "AP ROUTE: ", str (apRequestRouteModeName route.mode), str "  TARGET: ",
      .dec (route.targetContextIndex + 1), putChar '/', .dec route.targetApicId] ++
    if route.ownerContextIndex = apRequestTargetScheduler then []
    else [str "  OWNER: ", .dec (route.ownerContextIndex + 1)]]

/-- `ok` in `draw_ap_broadcast_ping_summary`. -/
def pingEntryOk (entry : ApBroadcastPingEntry) : Bool :=
  entry.state = .done ∧ entry.resultCode = 0 ∧ entry.faultCode = 0

/-- `draw_ap_broadcast_ping_summary`. -/
def drawApBroadcastPingSummary (summary : BroadcastPingSummary) : List ScreenLine :=
  let drawn := (List.finRange maxApContexts).filter fun i => (summary.entries i).valid
  [.built 256 <| [str "AP BCAST PING: OK ", .dec summary.okCount, putChar '/',
      .dec summary.plannedCount, str "  FAIL: ", .dec summary.failCount, str "  APIC:"] ++
    (if summary.plannedCount = 0 then [str " NONE"] else []) ++
    drawn.flatMap fun i => [putChar ' ', .dec (summary.entries i).apicId, putChar ':',
      str (if pingEntryOk (summary.entries i) then "OK" else "FAIL")]]

/-! ## The memory map -/

/-- The sums at the start of `draw_memory_map`. -/
structure MemoryTotals where
  conventional : UInt64 := 0
  loader : UInt64 := 0
  boot : UInt64 := 0
  runtime : UInt64 := 0
  acpi : UInt64 := 0
  mmio : UInt64 := 0
  reserved : UInt64 := 0
  total : UInt64 := 0
  maxEnd : UInt64 := 0

/-- The body of the first loop. -/
def MemoryTotals.add (t : MemoryTotals) (d : EfiMemoryDescriptor) : MemoryTotals :=
  let t := { t with
    total := t.total + d.numberOfPages
    maxEnd := if endExclusive d > t.maxEnd then endExclusive d else t.maxEnd }
  if d.type = 7 then { t with conventional := t.conventional + d.numberOfPages }
  else if d.type = 1 ∨ d.type = 2 then { t with loader := t.loader + d.numberOfPages }
  else if d.type = 3 ∨ d.type = 4 then { t with boot := t.boot + d.numberOfPages }
  else if d.type = 5 ∨ d.type = 6 then { t with runtime := t.runtime + d.numberOfPages }
  else if d.type = 9 ∨ d.type = 10 then { t with acpi := t.acpi + d.numberOfPages }
  else if d.type = 11 ∨ d.type = 12 then { t with mmio := t.mmio + d.numberOfPages }
  else { t with reserved := t.reserved + d.numberOfPages }

def memoryTotals (map : EfiMemoryMap) : MemoryTotals := map.descriptors.foldl MemoryTotals.add {}

def totalLines (map : EfiMemoryMap) (descriptorVersion : UInt32) : List ScreenLine :=
  let t := memoryTotals map
  [.built 192 [str "DESCRIPTORS: ", .dec64 map.descriptorCount, str "  DESC SIZE: ",
      .dec64 map.descriptorSize, str "  VERSION: ", .dec descriptorVersion],
    .built 192 [str "TOTAL PAGES: ", .dec64 t.total, str "  MAX END: ", .hex64 t.maxEnd],
    .built 192 [str "CONV: ", .dec64 t.conventional, str " PGS (", .dec64 (t.conventional / 256),
      str " MIB)  BOOT: ", .dec64 t.boot, str "  LOADER: ", .dec64 t.loader],
    .built 192 [str "RUNTIME: ", .dec64 t.runtime, str "  ACPI: ", .dec64 t.acpi, str "  MMIO: ",
      .dec64 t.mmio, str "  RESERVED-OTHER: ", .dec64 t.reserved]]

/-- The head of the table. -/
def tableHead : ScreenLine :=
  .built 192 [.left (ascii "IDX") 3, putChar ' ', .left (ascii "TYPE") 10, putChar ' ',
    .left (ascii "START") 18, putChar ' ', .left (ascii "END") 18, putChar ' ',
    .left (ascii "PAGES") 8, putChar ' ', .left (ascii "ATTR") 18]

/-- A row of the table. -/
def MapRow.pieces : MapRow → List Piece
  | .hole first last pages =>
    [.left (ascii "---") 3, putChar ' ', .left (ascii "HOLE") 10, putChar ' ', .hex64Width first 18,
      putChar ' ', .hex64Width last 18, putChar ' ', .dec64Width pages 8, putChar ' ', .left [] 18]
  | .desc index d endInclusive =>
    [.dec64Width (UInt64.ofNat index) 3, putChar ' ', .left (memoryTypeName d.type) 10, putChar ' ',
      .hex64Width d.physicalStart 18, putChar ' ', .hex64Width endInclusive 18, putChar ' ',
      .dec64Width d.numberOfPages 8, putChar ' ', .hex64Width d.attributes 18]

/-- What `draw_memory_map` reads. -/
structure KernelView where
  map : EfiMemoryMap
  descriptorVersion : UInt32
  paging : PagingInfo
  idtSelfTestOk : Bool
  acpi : AcpiInfo
  contexts : ApContexts
  contextCount : Nat
  target : ApContextIndex
  scheduler : ApScheduler
  route : ApRequestRoute
  summary : BroadcastPingSummary
  boot : ApBootDetails
  counts : Idle.IdleCounts
  interrupts : Idle.ApInterruptObserve
  bspWait : Idle.BspWaitObserve

/-- The lines about the APs. -/
def contextLines (v : KernelView) : List ScreenLine :=
  let target := v.contexts v.target
  drawApContextSummary v.contexts v.contextCount v.target ++ drawApSchedulerSummary v.scheduler ++
    drawApRequestRouteSummary v.route ++ drawApBroadcastPingSummary v.summary ++
    drawApBootInfo target v.boot ++
    drawApQueueSummary target.queueSummary v.interrupts.completionIpi v.counts ++
    drawApKickSummary v.interrupts v.counts v.bspWait ++ drawApRequestHistory target.history

/-- The lines above the table. -/
def linesAbove (v : KernelView) : List ScreenLine :=
  pagingLines v.paging v.idtSelfTestOk ++ drawAcpiInfo v.acpi ++ contextLines v ++
    totalLines v.map v.descriptorVersion ++ [tableHead] ++
    if v.map.descriptorCount > 512 then [.literal (ascii "OUTPUT TRUNCATED TO 512 DESCRIPTORS")] else []

/-- Every line that `draw_memory_map` draws on a screen of this height. -/
def memoryMapLines (v : KernelView) (height : UInt32) : List ScreenLine :=
  let above := linesAbove v
  -- the title takes 58 rows, a line 20, and there are four gaps of 8
  let y : UInt32 := 42 + 58 + 20 * above.length.toUInt32 + 4 * 8
  .literal (ascii "UEFI MEMORY MAP") :: above ++
    (drawMemoryMap v.map height y).map fun row => .built 192 row.pieces

/-! ## No line leaves its array -/

/-- Whatever was in the array before, the line stays inside of it, and `draw_text` goes through its
text. -/
def ScreenLine.Fits : ScreenLine → Prop
  | .built size pieces => ∀ dst : CharBuffer, dst.size = size → ∃ dst' p,
      appendPieces pieces dst 0 = some (dst', p) ∧ drawTextChars dst' 0 = some (lineText pieces)
  | .literal _ => True

/-- `Piece.Ok`, computed. -/
def Piece.okay : Piece → Bool
  | str cs | left cs _ => cs.all (· != 0)
  | char c => c != 0
  | _ => true

theorem Piece.ok_of_okay {q : Piece} (h : q.okay = true) : q.Ok := by
  cases q with
  | str cs | left cs => exact ne_zero_of_all h
  | char c => exact bne_iff_ne.1 h
  | _ => trivial

/-- The pieces need at most `room` characters, and none of them is a zero. -/
def Spans (pieces : List Piece) (room : Nat) : Prop :=
  pieces.all Piece.okay = true ∧ (pieces.map Piece.room).sum ≤ room

section Spans

variable {qs rs : List Piece} {m n room size : Nat}

theorem Spans.ok (n : Nat)
    (h : (qs.all Piece.okay && ((qs.map Piece.room).sum).ble n) = true) : Spans qs n := by
  rw [Bool.and_eq_true, Nat.ble_eq] at h
  exact h

theorem Spans.mono (h : Spans qs m) (hle : m ≤ n) : Spans qs n := ⟨h.1, h.2.trans hle⟩

theorem Spans.append (hq : Spans qs m) (hr : Spans rs n) : Spans (qs ++ rs) (m + n) := by
  refine ⟨by rw [List.all_append, hq.1, hr.1]; rfl, ?_⟩
  rw [List.map_append, List.sum_append]
  exact Nat.add_le_add hq.2 hr.2

/-- The first `k` pieces and the others. -/
theorem Spans.split (k : Nat) (hfirst : Spans (qs.take k) m) (hrest : Spans (qs.drop k) n) :
    Spans qs (m + n) := by
  rw [← List.take_append_drop k qs]
  exact hfirst.append hrest

theorem Spans.ite {c : Prop} [Decidable c] (hq : Spans qs m) (hr : Spans rs n) :
    Spans (if c then qs else rs) (max m n) := by
  split_ifs
  · exact hq.mono (le_max_left m n)
  · exact hr.mono (le_max_right m n)

theorem Spans.flatMap {α : Type} {f : α → List Piece} {xs : List α} (h : ∀ x, Spans (f x) n)
    (hlen : xs.length ≤ m) : Spans (xs.flatMap f) (n * m) := by
  suffices hxs : Spans (xs.flatMap f) (n * xs.length) from hxs.mono (Nat.mul_le_mul_left n hlen)
  clear hlen
  induction xs with
  | nil => exact ⟨rfl, Nat.zero_le _⟩
  | cons x xs ih =>
    have hrest := (h x).append ih
    rw [List.length_cons, Nat.mul_succ, Nat.add_comm]
    exact hrest

theorem Spans.fits (h : Spans qs room) (hlt : ((room + 1).ble size && !qs.isEmpty) = true) :
    (ScreenLine.built size qs).Fits := by
  rw [Bool.and_eq_true] at hlt
  cases qs with
  | nil => cases hlt.2
  | cons q qs =>
    intro dst hdst
    refine exists_line (fun r hr => Piece.ok_of_okay (List.all_eq_true.1 h.1 r hr)) ?_
    rw [hdst]
    exact ((length_lineText_le _).trans h.2).trans_lt (Nat.le_of_ble_eq_true hlt.1)

end Spans

/-! ### Names -/

section Names

/-- A name of at most `n` characters. -/
def nameOkay (n : Nat) (name : String) : Bool :=
  (ascii name).all (· != 0) && (ascii name).length.ble n

theorem spans_name {n : Nat} {name : String} (h : nameOkay n name = true) : Spans [str name] n := by
  rw [nameOkay, Bool.and_eq_true, Nat.ble_eq] at h
  refine ⟨?_, ?_⟩
  · simpa [Piece.okay] using h.1
  · simpa [Piece.room] using h.2

/-- What all names satisfy. -/
theorem nameOf_of_all {names : List (UInt64 × String)} {f : String → Bool}
    (h : ("UNKNOWN" :: names.map Prod.snd).all f = true) (code : UInt64) :
    f ((names.lookup code).getD "UNKNOWN") = true := by
  refine List.all_eq_true.1 h _ ?_
  cases hlookup : names.lookup code with
  | none => exact List.mem_cons_self
  | some name =>
    obtain ⟨before, behind, rfl, -⟩ := List.lookup_eq_some_iff.1 hlookup
    simp

theorem spans_nameOf {names : List (UInt64 × String)} {n : Nat}
    (h : ("UNKNOWN" :: names.map Prod.snd).all (nameOkay n) = true) (code : UInt64) :
    Spans [.str (nameOf names code)] n :=
  spans_name (nameOf_of_all h code)

theorem spans_memoryTypeName (type : UInt32) : Spans [.str (memoryTypeName type)] 9 :=
  spans_nameOf rfl _

theorem spans_faultVectorName (vector : UInt64) : Spans [.str (faultVectorName vector)] 18 :=
  spans_nameOf rfl _

theorem spans_apRequestOpName (opcode : UInt32) : Spans [.str (apRequestOpName opcode)] 7 :=
  spans_nameOf rfl _

theorem spans_pagingErrorName (e : PagingError) : Spans [str (pagingErrorName e)] 11 := by
  cases e <;> exact spans_name rfl

theorem spans_acpiErrorName (e : AcpiError) : Spans [str (acpiErrorName e)] 9 := by
  cases e <;> exact spans_name rfl

theorem spans_apBootErrorName (e : ApBootError) : Spans [str (apBootErrorName e)] 14 := by
  cases e <;> exact spans_name rfl

theorem spans_apBootStateName (st : ApBootState) : Spans [str (apBootStateName st)] 9 := by
  cases st <;> exact spans_name rfl

theorem spans_apEntryStateName (st : ApEntryState) : Spans [str (apEntryStateName st)] 7 := by
  cases st <;> exact spans_name rfl

theorem spans_apFaultPhaseName (p : ApFaultPhase) : Spans [str (apFaultPhaseName p)] 7 := by
  cases p <;> exact spans_name rfl

theorem spans_apRequestStateName (st : ApRequestStatus) : Spans [str (apRequestStateName st)] 7 := by
  cases st <;> exact spans_name rfl

theorem spans_apQueueStopReasonName (r : ApQueueStop) : Spans [str (apQueueStopReasonName r)] 7 := by
  cases r <;> exact spans_name rfl

theorem spans_apRequestRouteModeName (m : ApRequestRouteMode) :
    Spans [str (apRequestRouteModeName m)] 8 := by
  cases m <;> exact spans_name rfl

theorem spans_ite {c : Prop} [Decidable c] {yes no : String} (n : Nat)
    (hyes : nameOkay n yes = true) (hno : nameOkay n no = true) :
    Spans [str (if c then yes else no)] n := by
  split_ifs
  · exact spans_name hyes
  · exact spans_name hno

theorem spans_yesNo (ok : Bool) : Spans [yesNo ok] 2 := spans_ite 2 rfl rfl

end Names

/-! ### Lines -/

def AllFit (lines : List ScreenLine) : Prop := ∀ line ∈ lines, line.Fits

section Lines

variable {line : ScreenLine} {lines rest : List ScreenLine}

theorem AllFit.nil : AllFit [] := nofun

theorem AllFit.cons (h : line.Fits) (hs : AllFit lines) : AllFit (line :: lines) :=
  List.forall_mem_cons.2 ⟨h, hs⟩

theorem AllFit.one (h : line.Fits) : AllFit [line] := .cons h .nil

theorem AllFit.append (hl : AllFit lines) (hr : AllFit rest) : AllFit (lines ++ rest) :=
  List.forall_mem_append.2 ⟨hl, hr⟩

theorem AllFit.ite {c : Prop} [Decidable c] (hl : AllFit lines) (hr : AllFit rest) :
    AllFit (if c then lines else rest) := by
  split_ifs <;> assumption

end Lines

theorem faultDispatchLines_fit (d : FaultDisplay) : AllFit (faultDispatchLines d) := by
  -- a bound for each part of a line; only their sum has to stay below the size of the array
  refine .cons trivial <| .cons ?_ <| .cons ?_ <| .cons ?_ <| .cons ?_ <| .cons ?_ <|
    .cons trivial <| .one trivial
  · exact Spans.fits (.split 3 (.ok 40 rfl) <| .split 1 (spans_faultVectorName _) <| .ok 40 rfl) rfl
  · exact Spans.fits (.ok 100 rfl) rfl
  · exact Spans.fits (.ok 100 rfl) rfl
  · exact Spans.fits (.split 7 (.ok 100 rfl) (spans_ite 9 rfl rfl)) rfl
  · exact Spans.fits (.ok 100 rfl) rfl

theorem drawPagingFailure_fit (paging : PagingInfo) : AllFit (drawPagingFailure paging) := by
  refine .cons trivial <| .cons ?_ <| .one ?_
  · exact Spans.fits (.split 1 (.ok 20 rfl) <| .split 1 (spans_pagingErrorName _) <| .ok 80 rfl) rfl
  · exact Spans.fits (.ok 100 rfl) rfl

theorem pagingLines_fit (paging : PagingInfo) (ok : Bool) : AllFit (pagingLines paging ok) := by
  refine .cons ?_ <| .cons ?_ <| .one ?_
  · exact Spans.fits (.split 3 (.ok 60 rfl) (spans_ite 4 rfl rfl)) rfl
  · exact Spans.fits (.ok 150 rfl) rfl
  · exact Spans.fits (.ok 150 rfl) rfl

theorem cpuPieces_spans (first : Bool) (cpu : AcpiCpu) : Spans (cpuPieces first cpu) 26 := by
  have hx2apic : Spans (if cpu.x2apic then [str "(X2)"] else []) 4 := Spans.ite (.ok 4 rfl) (.ok 0 rfl)
  have hblank : Spans (if first then [] else [putChar ' ']) 1 := Spans.ite (.ok 0 rfl) (.ok 1 rfl)
  exact (hblank.append (.ok 21 rfl)).append hx2apic

theorem drawAcpiInfo_fit (acpi : AcpiInfo) : AllFit (drawAcpiInfo acpi) := by
  refine .cons ?_ <| .cons ?_ <| .one ?_
  · exact Spans.fits (.split 1 (.ok 20 rfl) <| .split 1 (spans_acpiErrorName _) <| .ok 80 rfl) rfl
  · exact Spans.fits (.ok 150 rfl) rfl
  · -- five processors of 26 characters each
    have hlisted : (acpi.cpus.take acpiCpuListOutputLimit).zipIdx.length ≤ 5 := by
      rw [List.length_zipIdx]
      exact List.length_take_le _ _
    exact Spans.fits (.append (.append (.ok 40 rfl)
      (.flatMap (fun c => cpuPieces_spans (c.2 == 0) c.1) hlisted)) (.ite (.ok 12 rfl) (.ok 0 rfl))) rfl

theorem drawApBootInfo_fit (boot : Machine) (d : ApBootDetails) :
    AllFit (drawApBootInfo boot d) := by
  refine .append (.cons ?_ <| .cons ?_ <| .cons ?_ <| .one ?_) <| .ite .nil <|
    .append (.cons ?_ <| .one ?_) <| .ite (.cons ?_ <| .one ?_) .nil
  · exact Spans.fits (.split 1 (.ok 20 rfl) <| .split 1 (spans_apBootErrorName _) <| .ok 80 rfl) rfl
  · exact Spans.fits (.split 1 (.ok 20 rfl) <| .split 1 (spans_apBootStateName _) <| .ok 80 rfl) rfl
  · exact Spans.fits (.split 1 (.ok 20 rfl) <| .split 1 (spans_apEntryStateName _) <|
      .split 1 (.ok 20 rfl) <| .split 1 (spans_yesNo _) <| .split 1 (.ok 20 rfl) <|
      .split 1 (spans_yesNo _) <| .split 1 (.ok 20 rfl) <| .split 1 (spans_yesNo _) <| .ok 60 rfl) rfl
  · exact Spans.fits (.ok 100 rfl) rfl
  · exact Spans.fits (.split 1 (.ok 20 rfl) <| .split 1 (spans_apFaultPhaseName _) <|
      .split 3 (.ok 40 rfl) <| .split 1 (spans_faultVectorName _) <| .ok 60 rfl) rfl
  · exact Spans.fits (.ok 100 rfl) rfl
  · exact Spans.fits (.split 1 (.ok 20 rfl) <| .split 1 (spans_apRequestOpName _) <|
      .split 1 (.ok 20 rfl) <| .split 1 (spans_apRequestStateName _) <| .ok 80 rfl) rfl
  · exact Spans.fits (.ok 100 rfl) rfl

theorem drawApQueueSummary_fit (queue : ApQueueSummary) (completionIpi : Idle.InterruptTrace)
    (counts : Idle.IdleCounts) : AllFit (drawApQueueSummary queue completionIpi counts) := by
  unfold drawApQueueSummary
  exact .one <| Spans.fits (.split 7 (.ok 60 rfl) <| .split 1 (spans_apRequestStateName _) <|
    .split 1 (.ok 20 rfl) <| .split 1 (spans_apQueueStopReasonName _) <| .ok 80 rfl) rfl

theorem drawApKickSummary_fit (interrupts : Idle.ApInterruptObserve) (counts : Idle.IdleCounts)
    (bspWait : Idle.BspWaitObserve) : AllFit (drawApKickSummary interrupts counts bspWait) := by
  refine .cons ?_ <| .cons ?_ <| .one ?_
  · exact Spans.fits (.ok 100 rfl) rfl
  · exact Spans.fits (.ok 100 rfl) rfl
  · exact Spans.fits (.ok 100 rfl) rfl

theorem drawApRequestHistoryEntry_fits (entry : ApRequestHistoryEntry) (historyNumber : UInt32) :
    (drawApRequestHistoryEntry entry historyNumber).Fits := by
  unfold drawApRequestHistoryEntry
  exact Spans.fits (.split 5 (.ok 40 rfl) <| .split 1 (spans_apRequestOpName _) <|
    .split 1 (spans_ite 7 rfl rfl) <| .split 1 (.ok 10 rfl) <|
    .split 1 (spans_apRequestStateName _) <| .split 8 (.ok 80 rfl) <| .ok 50 rfl) rfl

theorem drawApRequestHistory_fit (history : Fin apRequestHistoryCount → ApRequestHistoryEntry) :
    AllFit (drawApRequestHistory history) := by
  refine .ite (.one trivial) fun line hline => ?_
  obtain ⟨k, -, rfl⟩ := List.mem_map.1 hline
  exact drawApRequestHistoryEntry_fits _ _

theorem drawApContextSummary_fit (contexts : ApContexts) (contextCount : Nat)
    (target : ApContextIndex) : AllFit (drawApContextSummary contexts contextCount target) := by
  have hentry : ∀ i, Spans ([putChar ' ', .dec (contexts i).targetApicId] ++
      if (contexts i).online then [] else [str "!"]) 12 := fun i =>
    .append (.ok 11 rfl) (.ite (.ok 0 rfl) (.ok 1 rfl))
  have hdrawn : (contextIndices contextCount).length ≤ 8 := List.length_filter_le _ _
  exact .one <| Spans.fits (.append (.append (.ok 70 rfl) (.ite (.ok 5 rfl) (.ok 0 rfl)))
    (.flatMap hentry hdrawn)) rfl

theorem drawApSchedulerSummary_fit (scheduler : ApScheduler) :
    AllFit (drawApSchedulerSummary scheduler) := by
  unfold drawApSchedulerSummary
  exact .one <| Spans.fits (.append (.append
    (.split 1 (.ok 20 rfl) <| .split 1 (spans_ite 8 rfl rfl) <| .ok 40 rfl)
    (.ite (.ok 30 rfl) (.ok 30 rfl))) (.ok 30 rfl)) rfl

theorem drawApRequestRouteSummary_fit (route : ApRequestRoute) :
    AllFit (drawApRequestRouteSummary route) := by
  unfold drawApRequestRouteSummary
  exact .one <| Spans.fits (.append (.split 1 (.ok 20 rfl) <| .split 1 (spans_apRequestRouteModeName _) <|
    .ok 40 rfl) (.ite (.ok 0 rfl) (.ok 30 rfl))) rfl

theorem drawApBroadcastPingSummary_fit (summary : BroadcastPingSummary) :
    AllFit (drawApBroadcastPingSummary summary) := by
  have hentry : ∀ i, Spans [putChar ' ', .dec (summary.entries i).apicId, putChar ':',
      str (if pingEntryOk (summary.entries i) then "OK" else "FAIL")] 16 := fun i =>
    .mono (.split 3 (.ok 12 rfl) (spans_ite 4 rfl rfl)) le_rfl
  have hdrawn : ((List.finRange maxApContexts).filter fun i => (summary.entries i).valid).length ≤ 8 :=
    List.length_filter_le _ _
  exact .one <| Spans.fits (.append (.append (.ok 70 rfl) (.ite (.ok 5 rfl) (.ok 0 rfl)))
    (.flatMap hentry hdrawn)) rfl

theorem totalLines_fit (map : EfiMemoryMap) (descriptorVersion : UInt32) :
    AllFit (totalLines map descriptorVersion) := by
  refine .cons ?_ <| .cons ?_ <| .cons ?_ <| .one ?_
  · exact Spans.fits (.ok 150 rfl) rfl
  · exact Spans.fits (.ok 150 rfl) rfl
  · exact Spans.fits (.ok 150 rfl) rfl
  · exact Spans.fits (.ok 180 rfl) rfl

theorem row_fits (row : MapRow) : (ScreenLine.built 192 row.pieces).Fits := by
  cases row with
  | hole first last pages => exact Spans.fits (.ok 100 rfl) rfl
  | desc index d endInclusive =>
    have htype : Spans [.left (memoryTypeName d.type) 10] 10 :=
      ⟨by simpa [Piece.okay] using (spans_memoryTypeName d.type).1, le_rfl⟩
    exact Spans.fits (.split 2 (.ok 30 rfl) <| .split 1 htype <| .ok 80 rfl) rfl

theorem linesAbove_fit (v : KernelView) : AllFit (linesAbove v) := by
  have hcontexts : AllFit (contextLines v) :=
    (((((((drawApContextSummary_fit _ _ _).append (drawApSchedulerSummary_fit _)).append
      (drawApRequestRouteSummary_fit _)).append (drawApBroadcastPingSummary_fit _)).append
      (drawApBootInfo_fit _ _)).append (drawApQueueSummary_fit _ _ _)).append
      (drawApKickSummary_fit _ _ _)).append (drawApRequestHistory_fit _)
  have hhead : AllFit [tableHead] := .one <| Spans.fits (.ok 100 rfl) rfl
  exact (((((pagingLines_fit _ _).append (drawAcpiInfo_fit _)).append hcontexts).append
    (totalLines_fit _ _)).append hhead).append (.ite (.one trivial) .nil)

/-- **No line of the screen leaves the array that it is put together in**, whatever the values are, and
the characters that `draw_text` is given are its text. -/
theorem screenLines_fit (v : KernelView) (height : UInt32) (paging : PagingInfo) (d : FaultDisplay) :
    AllFit (memoryMapLines v height) ∧ AllFit (drawPagingFailure paging) ∧
      AllFit (faultDispatchLines d) := by
  refine ⟨?_, drawPagingFailure_fit paging, faultDispatchLines_fit d⟩
  refine .append (.cons trivial (linesAbove_fit v)) fun line hline => ?_
  obtain ⟨row, -, rfl⟩ := List.mem_map.1 hline
  exact row_fits row

end VibeKernel

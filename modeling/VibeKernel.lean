import VibeKernel.Conc.Prog
import VibeKernel.Conc.RelyGuarantee
import VibeKernel.Conc.SecondWalk
import VibeKernel.Conc.Drive
import VibeKernel.Conc.Alone
import VibeKernel.Conc.Part
import VibeKernel.Ap.Request
import VibeKernel.Ap.Services
import VibeKernel.Ap.Log
import VibeKernel.Ap.Machine
import VibeKernel.Ap.Loop
import VibeKernel.Ap.Stream
import VibeKernel.Ap.Ping
import VibeKernel.Ap.Schedule
import VibeKernel.Ap.Protocol
import VibeKernel.Ap.LogInvariant
import VibeKernel.Ap.SlotInvariant
import VibeKernel.Ap.CalmInvariant
import VibeKernel.Ap.LoopOutline
import VibeKernel.Ap.StreamTally
import VibeKernel.Ap.ApView
import VibeKernel.Ap.PublishOutline
import VibeKernel.Ap.FinishOutline
import VibeKernel.Ap.StreamOutline
import VibeKernel.Ap.CallOutline
import VibeKernel.Ap.SystemOutline
import VibeKernel.Ap.Done
import VibeKernel.Ap.Account
import VibeKernel.Ap.HandlerFaults
import VibeKernel.Ap.FinalOutline
import VibeKernel.Ap.Final
import VibeKernel.Num.LittleEndian
import VibeKernel.Num.Word
import VibeKernel.Num.Bytes
import VibeKernel.Num.Memory
import VibeKernel.Num.Radix
import VibeKernel.Boot.MemoryMap
import VibeKernel.Boot.Firmware
import VibeKernel.Boot.PagePool
import VibeKernel.Boot.PageTable
import VibeKernel.Boot.TableTree
import VibeKernel.Boot.IdentityMap
import VibeKernel.Boot.SetupPaging
import VibeKernel.Boot.PagingErrors
import VibeKernel.Boot.AcpiRange
import VibeKernel.Boot.Acpi
import VibeKernel.Boot.MadtGrammar
import VibeKernel.Boot.BringUp
import VibeKernel.Boot.Trampoline
import VibeKernel.Boot.SlowStart
import VibeKernel.Boot.LowCr3
import VibeKernel.Boot.Handover
import VibeKernel.Boot.Starting
import VibeKernel.Boot.Targets
import VibeKernel.Num.Decimal
import VibeKernel.Num.Turns
import VibeKernel.Num.Gaps
import VibeKernel.Screen.Decimal
import VibeKernel.Screen.Pixels
import VibeKernel.Screen.MapTable
import VibeKernel.Sched.Route
import VibeKernel.Sched.RoundRobin
import VibeKernel.Sched.Contexts
import VibeKernel.Sched.StreamOwner
import VibeKernel.Num.Count
import VibeKernel.Sched.Broadcast
import VibeKernel.Sched.BroadcastOutline
import VibeKernel.Ap.Accesses
import VibeKernel.Ap.BspAccesses
import VibeKernel.Ap.Ledger
import VibeKernel.Ap.LedgerOutline
import VibeKernel.Ap.Result
import VibeKernel.Ap.Dispatch
import VibeKernel.Ap.Issued
import VibeKernel.Ap.Contained
import VibeKernel.Ap.Executions
import VibeKernel.Ap.RecordOrder
import VibeKernel.Ap.HistoryOrder
import VibeKernel.Ap.CounterBooks
import VibeKernel.Conc.Terminates
import VibeKernel.Ap.SlotCounts
import VibeKernel.Ap.StreamEnds
import VibeKernel.Cpu.Lapic
import VibeKernel.Cpu.Tables
import VibeKernel.Cpu.Faults
import VibeKernel.Idle.System
import VibeKernel.Idle.Unpublished
import VibeKernel.Idle.Invariant
import VibeKernel.Idle.Wakes
import VibeKernel.Idle.Interrupts
import VibeKernel.Num.Hex
import VibeKernel.Screen.Text
import VibeKernel.Sched.BroadcastEnds
import VibeKernel.Num.Words
import VibeKernel.Screen.Lines
import VibeKernel.Screen.MapText
import VibeKernel.Screen.Totals

import VibeKernel.Ap.Accesses
import VibeKernel.Boot.BringUp

/-!
# What starting an AP does

The accesses of `bring_up_one_ap`, one kind at a time, and what an AP's own code leaves alone.
-/

namespace VibeKernel

open Conc
open Prog (Within)

/-! ## The BSP -/

/-- One access of `bring_up_one_ap` for context `i` once a target is selected, with the LAPIC at
`base`, that changes neither the page nor a SIPI. -/
inductive QuietStep (base : UInt64) (i : ApContextIndex) (s : BootMemory) : BootMemory → Prop
  | still : QuietStep base i s s
  | touch (reg : UInt32) (h : reg < 4096) : QuietStep base i s (s.touch (base + reg.toUInt64))
  | error (error : ApBootError) :
      QuietStep base i s (s.setContext i fun m => { m with error := error })
  | apState (st : ApBootState) :
      QuietStep base i s (s.setContext i fun m => { m with apState := st })
  | wake (f : ApWake → ApWake) (h : ∀ w, (f w).targetAcpiUid = w.targetAcpiUid) :
      QuietStep base i s (s.setWake i f)

/-- Any access of `bring_up_one_ap` once a target is selected. -/
inductive StartStep (base : UInt64) (i : ApContextIndex) (s : BootMemory) : BootMemory → Prop
  | quiet {s'} (h : QuietStep base i s s') : StartStep base i s s'
  | sipi : StartStep base i s
      { s.touch (base + 0x300) with sipiSent := Function.update s.sipiSent i true }
  | page (w : Nat × UInt8) : StartStep base i s (s.storePage i w)

/-- Every access of `p` is a quiet one. -/
abbrev Quietly {α : Type} (base : UInt64) (i : ApContextIndex) (p : Prog BootMemory α) : Prop :=
  p.Within (QuietStep base i)

/-- Every access of `p` is one of `bring_up_one_ap`. -/
abbrev Starts {α : Type} (base : UInt64) (i : ApContextIndex) (p : Prog BootMemory α) : Prop :=
  p.Within (StartStep base i)

section Walk

variable {base : UInt64} {i : ApContextIndex} {α : Type}

namespace Quietly

theorem load (f : BootMemory → α) : Quietly base i (.load f) :=
  Within.load fun _ => .still

theorem storeError (error : ApBootError) : Quietly base i (storeError i error) :=
  Within.store fun _ => .error error

theorem storeApState (st : ApBootState) : Quietly base i (storeApState i st) :=
  Within.store fun _ => .apState st

theorem wake (f : ApWake → ApWake) (h : ∀ w, (f w).targetAcpiUid = w.targetAcpiUid) :
    Quietly base i (.store fun s => s.setWake i f) :=
  Within.store fun _ => .wake f h

theorem lapicRead32 {reg : UInt32} (h : reg < 4096) : Quietly base i (lapicRead32 base reg) :=
  .seq (Within.store fun _ => .touch reg h) fun _ => .any

theorem lapicWrite32 {reg : UInt32} (h : reg < 4096) : Quietly base i (lapicWrite32 base reg) :=
  Within.store fun _ => .touch reg h

theorem lapicWaitIcrIdle : ∀ n, Quietly base i (lapicWaitIcrIdle base i n)
  | 0 => .seq (wake _ fun _ => rfl) fun _ => .ret _
  | n + 1 => by
    refine .seq (lapicRead32 (by decide)) fun icr => ?_
    exact .cond (fun _ => .ret _) fun _ => lapicWaitIcrIdle n

theorem enableLapicIfNeeded : Quietly base i (enableLapicIfNeeded base) := by
  refine .seq (lapicRead32 (by decide)) fun svr => ?_
  exact .cond (fun _ => lapicWrite32 (by decide)) fun _ => .ret _

/-- An INIT. -/
theorem lapicSendIpi : Quietly base i (lapicSendIpi base i false) := by
  refine .seq (lapicWaitIcrIdle _) fun idle => .cond (fun _ => .ret _) fun _ => ?_
  refine .seq (lapicWrite32 (by decide)) fun _ => ?_
  exact .seq (Within.store fun _ => .touch 0x300 (by decide)) fun _ => lapicWaitIcrIdle _

theorem noteOnline : Quietly base i (noteOnline i) := by
  refine .seq (load _) fun _ => .cond (fun _ => .ret _) fun _ => ?_
  exact .seq (load _) fun _ => .cond (fun _ => .ret _) fun _ => storeApState _

theorem waitOnline : ∀ n, Quietly base i (waitOnline i n)
  | 0 => .seq (wake _ fun _ => rfl) fun _ => storeError _
  | n + 1 => by
    unfold VibeKernel.waitOnline
    refine .seq (load _) fun _ => .cond (fun _ => ?_) fun _ => waitOnline n
    refine .seq noteOnline fun _ => ?_
    exact .seq (storeError _) fun _ => wake _ fun _ => rfl

end Quietly

namespace Starts

theorem quiet {p : Prog BootMemory α} (hp : Quietly base i p) : Starts base i p :=
  hp.mono fun _ _ => .quiet

theorem storeError (error : ApBootError) : Starts base i (storeError i error) :=
  quiet (Quietly.storeError error)

theorem storeApState (st : ApBootState) : Starts base i (storeApState i st) :=
  quiet (Quietly.storeApState st)

/-- A SIPI. -/
theorem lapicSendIpi : Starts base i (lapicSendIpi base i true) := by
  refine .seq (quiet (Quietly.lapicWaitIcrIdle _)) fun idle => .cond (fun _ => .ret _) fun _ => ?_
  refine .seq (quiet (Quietly.lapicWrite32 (by decide))) fun _ => ?_
  exact .seq (Within.store fun _ => .sipi) fun _ => quiet (Quietly.lapicWaitIcrIdle _)

theorem sendSipis : Starts base i (sendSipis base i) := by
  refine .seq lapicSendIpi fun ok => .cond (fun _ => storeError _) fun _ => ?_
  refine .seq (storeApState _) fun _ => ?_
  refine .seq (quiet (Quietly.load _)) fun online => ?_
  refine .seq (.cond (fun _ => .ret _) fun _ => lapicSendIpi) fun ok => ?_
  exact .cond (fun _ => storeError _) fun _ => quiet (Quietly.waitOnline _)

theorem startAp : Starts base i (startAp base i) := by
  refine .seq (quiet Quietly.enableLapicIfNeeded) fun _ => ?_
  refine .seq (quiet Quietly.lapicSendIpi) fun ok => .cond (fun _ => storeError _) fun _ => ?_
  refine .seq (storeApState _) fun _ => ?_
  refine .seq (quiet Quietly.lapicSendIpi) fun ok => ?_
  exact .cond (fun _ => storeError _) fun _ => sendSipis

theorem buildApTrampoline (P : BringUpInput) (L : Layout) :
    Starts base i (buildApTrampoline P L i) := by
  refine .cond (fun _ => .seq (storeError _) fun _ => .ret _) fun _ => ?_
  refine .cond (fun _ => .seq (storeError _) fun _ => .ret _) fun _ => ?_
  refine .seq (quiet (Quietly.wake _ fun _ => rfl)) fun _ => ?_
  refine .seq (Within.forEach (fun w => Within.store fun _ => .page w) _) fun _ => ?_
  exact .seq (storeApState _) fun _ => .ret _

end Starts

end Walk

/-! ## The APs -/

/-- What `bring_up_one_ap` stored about the target is as before. -/
structure SameTarget (m m' : Machine) : Prop where
  error : m'.error = m.error
  apicId : m'.targetApicId = m.targetApicId

theorem ApAccess.sameTarget {W : SlotIndex → Prop} {M : ApRequestStatus → ApRequestStatus → Prop}
    {m m' : Machine} (h : ApAccess W M m m') : SameTarget m m' :=
  ⟨h.error, h.targetApicId⟩

/-- The AP's code, from any of its control points, leaves the target alone. -/
theorem apBody_sameTarget {b : Build} (pc : ApPc) (p : Prog Machine ApPc) (hp : apBody b pc = some p) :
    p.Within SameTarget := by
  have hcode : ApCode (fun _ => True) (fun _ _ => True) p :=
    ApCode.apBody (fun _ _ _ _ => trivial) trivial (fun _ => trivial) pc p hp
  exact hcode.mono fun _ _ h => h.sameTarget

/-- So does `ap_fault_dispatch`. -/
theorem apFaultDispatch_sameTarget (frame : FaultFrame) : (apFaultDispatch frame).Within SameTarget := by
  have hcode : ApCode (fun _ => True) (fun _ _ => True) (apFaultDispatch frame) :=
    ApCode.apFaultDispatch (fun _ _ _ _ => trivial) frame
  exact hcode.mono fun _ _ h => h.sameTarget

end VibeKernel

import VibeKernel.Ap.BspAccesses
import VibeKernel.Idle.System

/-!
# Code that publishes nothing

Only `publish_ap_inbox_request` makes a slot `PENDING`. The rest of the code, the AP's and the BSP's,
does not.
-/

namespace VibeKernel.Idle

open Conc

/-- Any state but `PENDING` may be stored. -/
def Unpublished (_ st : ApRequestStatus) : Prop := st ≠ .pending

/-- An access that makes no slot `PENDING`. -/
abbrev NoPublish : Machine → Machine → Prop := SlotAccess (fun _ => True) Unpublished

theorem NoPublish.pending {s s' : Machine} (h : NoPublish s s') (i : SlotIndex)
    (hp : (s'.slots i).state = .pending) : (s.slots i).state = .pending := by
  rcases h.state i with heq | hne
  · exact heq ▸ hp
  · exact absurd hp hne

theorem moves_unpublished : Moves Unpublished := by
  rintro _ _ (rfl | ⟨-, rfl⟩ | ⟨-, rfl | rfl⟩) -
  · exact nofun
  · exact nofun
  · exact nofun
  · exact nofun

theorem givesUp_unpublished : GivesUp Unpublished := by
  rintro _ _ (rfl | rfl | rfl)
  · exact nofun
  · exact nofun
  · exact nofun

/-- Every access of `p` leaves the publishing to others. -/
abbrev Mute {α : Type} (p : Prog Machine α) : Prop := BspCode (fun _ => True) Unpublished p

variable {b : Build} {n : Nat} {i : SlotIndex}

theorem Mute.of_apCode {α : Type} {p : Prog Machine α} (h : ApCode (fun _ => True) Unpublished p) :
    Mute p :=
  h.mono fun _ _ ha => ha.toSlotAccess

theorem Mute.dispatchRequest : Mute (dispatchRequest b n i) :=
  .of_apCode (ApCode.dispatchRequest moves_unpublished nofun trivial)

/-- **The BSP's tasks publish nothing.** -/
theorem Mute.task (t : BspTask) : Mute (t.run b) := by
  have hM := givesUp_unpublished
  cases t with
  | shouldStop => exact .seq (BspCode.reads Reading.apRequestStreamShouldStop) fun _ => .ret _
  | stop l => exact BspCode.stopApRequestStream hM l
  | hasFinished l => exact .seq (BspCode.reads (Reading.apRequestStreamHasFinishedSlot l)) fun _ => .ret _
  | hasEarlierFinished active i =>
    exact .seq (BspCode.reads (Reading.apStreamHasEarlierFinishedSlot active i)) fun _ => .ret _
  | allDone => exact .seq (BspCode.reads Reading.apRequestAllDone) fun _ => .ret _
  | finish l i w => exact .seq (BspCode.finishApStreamSlot l i w) fun _ => .ret _
  | timeOut i st => exact BspCode.timeOutSlot hM.timesOut i st
  | reset i => exact BspCode.resetApInboxSlot (fun _ => nofun) trivial
  | resetSummary => exact BspCode.resetApQueueSummary
  | resetHistory => exact BspCode.resetApRequestHistory
  | accepts => exact .seq (BspCode.reads Reading.apContextCanAcceptBroadcastPing) fun _ => .ret _
  | recordPing i w => exact BspCode.recordApBroadcastPingResult i w
  | timeOutPing i => exact BspCode.timeoutApBroadcastPingSlot hM.timesOut i
  | restore l => exact BspCode.restoreTarget l

end VibeKernel.Idle

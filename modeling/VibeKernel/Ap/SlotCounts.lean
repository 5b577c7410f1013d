import VibeKernel.Ap.FinalOutline
import VibeKernel.Ap.BspAccesses

/-!
# The count of a slot that is done

From any memory. The AP writes the metrics of the slot that it has in hand and of no other, and that
slot is not `DONE` until the AP makes it so: the BSP never stores `DONE`.
-/

namespace VibeKernel

open Conc

/-! ## Accesses -/

/-- Any state but `DONE` may be stored. -/
def Undone (_ st : ApRequestStatus) : Prop := st ≠ .done

/-- An access that makes no slot `DONE` and writes the counts of slots in `W` only. -/
abbrev Working (W : SlotIndex → Prop) : Machine → Machine → Prop := SlotAccess W Undone

theorem Working.undone {W : SlotIndex → Prop} {s s' : Machine} (h : Working W s s') (i : SlotIndex)
    (hd : (s'.slots i).state = .done) : (s.slots i).state = .done := by
  rcases h.state i with heq | hne
  · exact heq ▸ hd
  · exact absurd hd hne

theorem moves_undone : Moves Undone := fun _ _ _ hne => hne

theorem publishes_undone : Publishes (fun _ => True) Undone where
  givesUp := by
    rintro _ _ (rfl | rfl | rfl)
    · exact nofun
    · exact nofun
    · exact nofun
  empty _ := nofun
  pending _ := nofun
  slots _ := trivial

/-- One access of the AP: what is `DONE` keeps its count, and what becomes `DONE` was running. -/
structure KeepsCounts (s s' : Machine) : Prop where
  count : ∀ i, (s.slots i).state = .done →
    (s'.slots i).metrics.handledCount = (s.slots i).metrics.handledCount
  made : ∀ i, (s'.slots i).state = .done → (s.slots i).state = .done ∨ (s.slots i).state = .running

/-! ## The AP's code with a slot in hand -/

/-- What the walk needs of its surroundings. -/
structure CountEnv (E : Env Machine) : Prop where
  guar : ∀ s s', KeepsCounts s s' → E.guar s s'
  rely : ∀ s s', E.rely s s' → Working (fun _ => True) s s'

section Walk

variable {E : Env Machine} {α : Type} {b : Build} {n : Nat} {i : SlotIndex} {P : Machine → Prop}

/-- Slot `i` is not `DONE`. -/
abbrev NotDone (i : SlotIndex) (s : Machine) : Prop := (s.slots i).state ≠ .done

theorem Working.keepsCounts {W : SlotIndex → Prop} {s s' : Machine} (h : Working W s s')
    (hW : ∀ i, W i → NotDone i s) : KeepsCounts s s' where
  count i hd := h.count i fun hi => hW i hi hd
  made i hd := Or.inl (h.undone i hd)

theorem CountEnv.stable (hE : CountEnv E) : Stable E (NotDone i) :=
  fun s s' hr hs hd => hs ((hE.rely s s' hr).undone i hd)

/-- Code that works in a slot that is not `DONE`. -/
theorem CountEnv.works (hE : CountEnv E) {p : Prog Machine α} (hp : ApCode (fun j => j = i) Undone p) :
    Triple E (NotDone i) p fun _ => NotDone i := by
  refine .within hE.stable (fun s s' _ ha hs => ?_) hp
  have hw : Working (fun j => j = i) s s' := ha.toSlotAccess
  refine ⟨hE.guar _ _ (hw.keepsCounts ?_), fun hd => hs (hw.undone i hd)⟩
  rintro j rfl
  exact hs

/-- Code that works in no slot. -/
theorem CountEnv.idle (hE : CountEnv E) {p : Prog Machine α} (hp : ApCode (fun _ => False) Undone p) :
    Triple E P p fun _ _ => True := by
  refine fun s _ => wp_of_within (fun s s' ha => ?_) (fun _ _ => trivial) p s hp
  have hw : Working (fun _ => False) s s' := ha.toSlotAccess
  exact hE.guar _ _ (hw.keepsCounts fun _ => False.elim)

theorem completeApRequestDoneWithOutbox_counts (hE : CountEnv E) :
    Triple E (NotDone i) (completeApRequestDoneWithOutbox n i) fun _ _ => True := by
  refine .bind (hE.works (ApCode.load _)) fun scratch => ?_
  refine .bind (hE.works (ApCode.storeCommitted _)) fun _ => ?_
  refine .bind (R := fun _ _ => True) (.swap hE.stable fun s _ _ hs => ⟨hE.guar _ _ ?_, trivial⟩)
    fun ok => hE.idle (.cond (fun _ => .ret _) fun _ => .seq (ApCode.storeCommitted _) fun _ => .ret _)
  unfold completeSlot
  split
  · rename_i hrun
    refine ⟨fun j hj => ?_, fun j hj => ?_⟩
    · have hji : j ≠ i := fun he => hs (he ▸ hj)
      simp [hji]
    · by_cases hji : j = i
      · exact Or.inr (hji ▸ hrun)
      · exact Or.inl (by simpa [hji] using hj)
  · exact ⟨fun _ _ => rfl, fun _ hj => Or.inl hj⟩

theorem handleRequest_counts (hE : CountEnv E) (h : ApRequestHandler) :
    Triple E (NotDone i) (handleRequest b n i h) fun _ _ => True := by
  unfold handleRequest
  split
  · exact .ret fun _ _ => trivial
  · refine .bind (hE.works (ApCode.callHandler (by rfl) h)) fun _ => ?_
    refine .bind (hE.works (ApCode.aside fun _ => ⟨rfl, rfl, rfl, rfl, rfl⟩)) fun _ => ?_
    refine .bind (hE.works (ApCode.aside fun _ => ⟨rfl, rfl, rfl, rfl, rfl⟩)) fun _ => ?_
    refine .bind (completeApRequestDoneWithOutbox_counts hE) fun ok => hE.idle ?_
    refine .seq (.cond (fun _ => ApCode.apQueueNoteSlotTerminal _ _) fun _ => .ret _) fun _ => ?_
    exact .seq (ApCode.aside fun _ => ⟨rfl, rfl, rfl, rfl, rfl⟩) fun _ => .ret _

theorem dispatchRequest_counts (hE : CountEnv E) :
    Triple E (NotDone i) (dispatchRequest b n i) fun _ _ => True := by
  refine .bind (hE.works (ApCode.asideNote rfl fun _ => ⟨rfl, rfl, rfl, rfl, rfl⟩)) fun _ => ?_
  refine .bind (hE.works ApCode.apQueueNoteSlotStart) fun _ => ?_
  refine .bind (hE.works (ApCode.load _)) fun handled => ?_
  refine .bind (hE.works (ApCode.metrics (by rfl) _)) fun _ => ?_
  refine .bind (hE.works ApCode.beginApReply) fun _ => ?_
  refine .bind (hE.works (ApCode.aside fun _ => ⟨rfl, rfl, rfl, rfl, rfl⟩)) fun _ => ?_
  refine .bind (hE.works ApCode.prepareApServiceContext) fun _ => ?_
  refine .bind (hE.works (ApCode.noted _ fun _ => rfl)) fun svc => ?_
  refine .bind (hE.works (ApCode.noted _ fun _ => rfl)) fun handler => ?_
  cases handler with
  | none => exact hE.idle (ApCode.missRequest moves_undone)
  | some h => exact handleRequest_counts hE h

/-- A slot that was claimed is not `DONE`. -/
theorem claim_counts (hE : CountEnv E) :
    Triple E (fun _ => True) (.swap (claimSlot i)) fun claim s => claim ≠ none → NotDone i s := by
  refine .swap .true fun s _ _ _ => ?_
  unfold claimSlot
  split
  · have hw : Working (fun _ => False) s ((s.setState i .running).note (.claimed (s.log.latest i) i)) :=
      SlotAccess.note (.setState nofun) _
    exact ⟨hE.guar _ _ (hw.keepsCounts fun _ => False.elim), fun _ => by simp⟩
  · exact ⟨hE.guar _ _ ⟨fun _ _ => rfl, fun _ hj => Or.inl hj⟩, fun h => absurd rfl h⟩

theorem scanSlot_counts (hE : CountEnv E) (handledWork : Bool) :
    Triple E P (scanSlot b i handledWork) fun _ _ => True := by
  refine .bind (hE.idle (ApCode.load _)) fun st => ?_
  refine .cond (fun _ => .ret fun _ _ => trivial) fun _ => ?_
  refine .bind (claim_counts hE) fun claim => ?_
  cases claim with
  | none => exact .ret fun _ _ => trivial
  | some n => exact (dispatchRequest_counts hE).pre fun s h => h (by simp)

theorem apBody_counts (hE : CountEnv E) (pc : ApPc) (p : Prog Machine ApPc) (hp : apBody b pc = some p) :
    Triple E P p fun _ _ => True := by
  cases pc with
  | start =>
    obtain rfl := Option.some.inj hp
    exact hE.idle ApCode.apRequestLoopEntry
  | scan i handledWork =>
    simp only [apBody] at hp
    split at hp <;> obtain rfl := Option.some.inj hp
    · exact scanSlot_counts hE handledWork
    · exact .ret fun _ _ => trivial
  | hung | ud2 | halted | faulted => cases hp

end Walk

/-! ## Runs -/

/-- What the second walk adds to an outline that assumes nothing. -/
def countWalk (b : Build) (again : Bool) : Outline.Addition (apSystem b again) where
  inv _ := True
  guar
    | .ap => KeepsCounts
    | .bsp => Working fun _ => True
  cut _ _ _ := True

variable {b : Build} {again : Bool}

theorem countWalk_apEnv : CountEnv ((anyStart b again).second (countWalk b again) .ap) where
  guar _ _ h := h
  rely s s' := by
    rintro ⟨u, hu, -, -, hg, -⟩
    cases u with
    | ap => exact absurd rfl hu
    | bsp => exact hg.2

theorem countWalk_valid : (countWalk b again).Valid (anyStart b again) where
  inv_guar _ _ _ _ _ _ _ _ := trivial
  stable t pc := by
    have h := Outline.stable_also (A := countWalk b again) (anyStart_valid.stable t pc)
    exact h.and .true
  body t pc p hp := by
    cases t with
    | ap => exact apBody_counts countWalk_apEnv pc p hp
    | bsp =>
      have hcode := BspCode.bspBody publishes_undone pc p hp
      exact fun s _ => wp_of_within (fun _ _ h => h) (fun _ _ => trivial) p s hcode
  trap t x s s' _ _ he _ := by
    cases t with
    | ap =>
      obtain ⟨rfl, -⟩ := enterFault_eq he
      exact ⟨⟨fun _ _ => rfl, fun _ hj => Or.inl hj⟩,
        countWalk_apEnv.idle (P := fun _ => True) (ApCode.apFaultDispatch moves_undone x) _ trivial⟩
    | bsp => exact x.elim

/-- The outline of runs that start anywhere, with the counts. -/
abbrev counted (b : Build) (again : Bool) : Outline (apSystem b again) :=
  (anyStart b again).also (countWalk b again)

theorem counted_valid : (counted b again).Valid := anyStart_valid.also countWalk_valid

end VibeKernel

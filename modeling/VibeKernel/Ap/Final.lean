import VibeKernel.Ap.FinalOutline

/-!
# Finished is final

Who may move a slot out of a finished state.
-/

namespace VibeKernel

open Conc

/-- The only turn that changes the state of a finished slot is the BSP's reset of it. -/
def FinalTurn (t : Cpu) (s s' : Machine) : Prop :=
  ∀ i, (s.slots i).state.finished = true → (s'.slots i).state ≠ (s.slots i).state →
    t = .bsp ∧ s' = s.setState i .empty

/-- What the second walk adds. -/
def finalAddition (b : Build) : Outline.Addition (apSystem b true) where
  inv _ := True
  guar
    | .ap => fun _ _ => True
    | .bsp => FinalAct
  cut
    | .ap => fun _ _ => True
    | .bsp => finalCut

section

variable {b : Build} {c0 : UInt32}

theorem finalEnv : FinalEnv b c0 ((liveCalls b c0).outline.second (finalAddition b) .bsp) where
  inv _ h := ⟨h.1.machine, h.1.extra⟩
  guar _ _ h := h
  rely s s' := by
    rintro ⟨u, hu, hi, hok, hg, -⟩
    cases u with
    | ap => exact ApAct.settles hi.1.machine hi.1.extra hok hg.1
    | bsp => exact absurd rfl hu

theorem finalAddition_valid : (finalAddition b).Valid (liveCalls b c0).outline where
  inv_guar _ _ _ _ _ _ _ _ := trivial
  stable t pc := by
    have hfirst := Outline.stable_also (A := finalAddition b) ((liveCalls b c0).valid.stable t pc)
    cases t with
    | ap => exact hfirst.and .true
    | bsp =>
      refine hfirst.and fun s s' hr h => ?_
      cases pc with
      | streamLoop plan l => exact Live.seen (finalEnv.rely s s' hr) h
      | next | streamReturned | pingLoop => trivial
  body t pc p hp := by
    cases t with
    | ap =>
      intro s _
      exact wp_of_within (G := fun _ _ => True) (fun _ _ _ => trivial) (fun _ _ => trivial) p s
        (Prog.Within.top p)
    | bsp => exact (bspBody_final finalEnv pc p hp).pre fun s h => h.2
  trap t x s s' _ _ _ _ := by
    cases t with
    | ap =>
      exact ⟨trivial, wp_of_within (G := fun _ _ => True) (fun _ _ _ => trivial)
        (fun _ _ => trivial) _ s' (Prog.Within.top _)⟩
    | bsp => exact x.elim

/-- The AP overwrites nothing finished. -/
theorem ApAct.final {s s' : Machine} (hok : finalOk .ap s s') (ha : ApAct b c0 s s')
    (i : SlotIndex) (hfin : (s.slots i).state.finished = true) :
    (s'.slots i).state = (s.slots i).state := by
  obtain ⟨-, hp, hr⟩ := ApRequestStatus.finished_iff.1 hfin
  rcases ha.state_eq i with he | ⟨he, -⟩ | ⟨he, -⟩ | ⟨hf, -⟩
  · exact he
  · exact absurd he hp
  · exact absurd he hr
  · rcases hok.2 i hf with he | he | he
    · rw [hf, he]
    · exact absurd he hp
    · exact absurd he hr

end

/-- **Finished is final, when no fault is charged to an idle slot.** -/
theorem finalTurn_of_reach (b : Build) {s : Machine} {c c' : (apSystem b true).Config} {pc : ApPc}
    (hs : Fresh s) (hpc : pc.looping = true)
    (hr : (apSystem b true).Reach finalOk (apConfig b true s (.ret pc) (.ret .next)) c)
    {t : Cpu} (ht : (apSystem b true).Turn finalOk t c c') : FinalTurn t c.mem c'.mem := by
  have hvalid := (liveCalls b s.counterValue).valid.also finalAddition_valid
  have hstart : (liveCalls b s.counterValue).outline.Holds
      (apConfig b true s (.ret pc) (.ret .next)) :=
    (liveCalls b s.counterValue).holds ⟨hs.machineInv, False.elim, .of_fresh hs⟩
      (apCut_of_looping hpc hs) fun _ => hs.settled
  have hholds := Outline.sound hvalid (hstart.also trivial fun t => by cases t <;> trivial) hr
  intro i hfin hne
  rcases (hholds.turn hvalid ht).2 with he | ⟨hok, hg⟩
  · rw [he] at hne
    exact absurd rfl hne
  · cases t with
    | ap => exact absurd (ApAct.final hok hg.1 i hfin) hne
    | bsp => exact ⟨rfl, hg.2 i hfin hne⟩

/-! ## Runs -/

/-- In a stream of five pings, slot 0 is reset for the fifth after the first is done. -/
theorem finalTurn_of_reach_pings : ∃ c c', (apSystem {} true).Turn finalOk .bsp c c' ∧
    (c'.mem.slots 0).state ≠ (c.mem.slots 0).state ∧ FinalTurn .bsp c.mem c'.mem := by
  obtain ⟨c, c', hr, ht, hne⟩ := System.exists_turn finalOk
    (c := apConfig {} true {} (.ret (.scan 0 false)) (.ret .next))
    (P := fun c c' => (c'.mem.slots 0).state ≠ (c.mem.slots 0).state)
    [calls (.stream (List.replicate 5 (broadcastPingPlan {}))),
      .until .bsp 4000 fun s => s.log.publications == 4, goesOn .ap Event.isCompleted,
      .until .bsp 4000 fun s => (s.history 0).valid, .turns .bsp 3] .bsp (by decide +kernel)
  exact ⟨c, c', ht, hne, finalTurn_of_reach {} .default rfl hr ht⟩

/-- A ping times out in its handler, which then faults. The AP reads `EMPTY` while the next stream
resets the slot, and stores `FAULT` when that stream has published it and given it up too. -/
theorem not_finalTurn_of_staleFault : ∃ c c',
    (apSystem hastyBuild true).Reach handlerFaults
      (apConfig hastyBuild true {} (.ret (.scan 0 false)) (.ret .next)) c ∧
    (apSystem hastyBuild true).Turn handlerFaults .ap c c' ∧ ¬ FinalTurn .ap c.mem c'.mem := by
  let frame : FaultFrame := { vector := 6 }
  let call : BspCall := .stream [broadcastPingPlan hastyBuild]
  obtain ⟨c, c', hr, ht, hfrom, hto⟩ := System.exists_turn handlerFaults
    (c := apConfig hastyBuild true {} (.ret (.scan 0 false)) (.ret .next))
    (P := fun c c' => (c.mem.slots 0).state = .timeout ∧ (c'.mem.slots 0).state = .fault)
    [calls call, goesOn .bsp Event.isPublished, goesOn .ap Event.isLookedUp,
      .until .bsp 4000 fun s => (s.history 0).valid, .turns .bsp 2, .trap .ap frame,
      .until .ap 400 fun s => s.queueSummary.stopReason == .fault, .turns .ap 2, calls call,
      .until .bsp 4000 fun s => (s.slots 0).state == .empty, .turns .ap 1,
      .until .bsp 4000 fun s => (s.slots 0).state == .timeout] .ap (by decide +kernel)
  refine ⟨c, c', hr, ht, fun h => ?_⟩
  obtain ⟨hcpu, -⟩ := h 0 (by rw [hfrom]; rfl) (by rw [hfrom, hto]; decide)
  cases hcpu

end VibeKernel

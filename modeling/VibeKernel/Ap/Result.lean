import VibeKernel.Ap.LedgerOutline
import Mathlib.Data.Fintype.EquivFin

/-!
# What a stream returns

`run_ap_request_stream` returns true when every request came back and all four slots are `DONE`. A plan
with fewer requests than there are slots leaves a slot unused, and an unused slot is never `DONE`.
-/

namespace VibeKernel

open Conc

variable {b : Build} {c0 : UInt32} {plan : List ApRequestPlan} {l : StreamLocals} {result : Bool}

/-! ## Both walks -/

/-- What the second walk adds. -/
def ledgerAddition (b : Build) : Outline.Addition (apSystem b true) where
  inv _ := True
  guar _ _ _ := True
  cut
    | .ap => fun _ _ => True
    | .bsp => ledgerCut

theorem ledgerEnv : LedgerEnv ((anyCalls b c0).outline.second (ledgerAddition b) .bsp) where
  inv _ h := h.1.machine.log
  guar _ _ := trivial
  rely s s' := by
    rintro ⟨u, hu, hi, -, hg, -⟩
    cases u with
    | ap => exact ApAct.keepsDone hi.1.machine hg.1
    | bsp => exact absurd rfl hu

theorem ledgerCut_seen {s s' : Machine} (hs : ApKeepsDone s s') (pc : BspPc) (h : ledgerCut pc s) :
    ledgerCut pc s' := by
  cases pc with
  | streamLoop plan l => exact Ledger.seen hs h
  | streamReturned plan l result => exact Verdict.seen hs h
  | next | pingLoop => trivial

theorem ledgerAddition_valid : (ledgerAddition b).Valid (anyCalls b c0).outline where
  inv_guar _ _ _ _ _ _ _ _ := trivial
  stable t pc := by
    have hfirst := Outline.stable_also (A := ledgerAddition b) ((anyCalls b c0).valid.stable t pc)
    cases t with
    | ap => exact hfirst.and .true
    | bsp => exact hfirst.and fun s s' hr h => ledgerCut_seen (ledgerEnv.rely s s' hr) pc h
  body t pc p hp := by
    cases t with
    | ap =>
      intro s _
      exact wp_of_within (G := fun _ _ => True) (fun _ _ _ => trivial) (fun _ _ => trivial) p s
        (Prog.Within.top p)
    | bsp => exact (bspBody_ledger ledgerEnv pc p hp).pre fun s h => h.2
  trap t x s s' _ _ _ _ := by
    cases t with
    | ap =>
      exact ⟨trivial, wp_of_within (G := fun _ _ => True) (fun _ _ _ => trivial)
        (fun _ _ => trivial) _ s' (Prog.Within.top _)⟩
    | bsp => exact x.elim

/-! ## The result -/

/-- Each request of the plan was published once, came back once and was recorded `DONE`. -/
structure PlanDone (b : Build) (plan : List ApRequestPlan) (l : StreamLocals) (s : Machine) : Prop where
  account : StreamAccount b plan l plan.length s
  done : ∀ c ∈ s.log.completions, c.slot.state = .done
  recorded : ∀ m, (s.history m).valid = true → (s.history m).request.state = .done

/-- Four slots in use are four publications. -/
theorem le_publications_of_used {s : Machine} (hinv : LogInv s.log) (hused : ∀ i, Used i s.log) {m : Nat}
    (hm : s.log.publications = s.log.streamBase + m) : apRequestSlotCount ≤ m := by
  have hbound : ∀ i, s.log.latest i - (s.log.streamBase + 1) < m := by
    intro i
    have := hinv.latest_le i
    have := hused i
    unfold Used at this
    omega
  have hinj : Function.Injective fun i : SlotIndex => (⟨_, hbound i⟩ : Fin m) := by
    intro i j he
    have hi := hused i
    have hj := hused j
    unfold Used at hi hj
    have heq : s.log.latest i - (s.log.streamBase + 1) = s.log.latest j - (s.log.streamBase + 1) :=
      Fin.mk.inj he
    exact hinv.latest_inj (by omega) (by omega)
  simpa using Fintype.card_le_of_injective _ hinj

/-- **The stream returns true exactly when a plan of at least four requests was done.** -/
theorem result_iff_planDone (b : Build) {s : Machine} {c : (apSystem b true).Config} {pc : ApPc}
    (hs : Fresh s) (hpc : pc.looping = true)
    (hr : (apSystem b true).Reach anyAccess (apConfig b true s (.ret pc) (.ret .next)) c)
    {plan : List ApRequestPlan} {l : StreamLocals} {result : Bool}
    (hret : c.prog .bsp = .ret (BspPc.streamReturned plan l result)) :
    result = true ↔ apRequestSlotCount ≤ plan.length ∧ PlanDone b plan l c.mem := by
  have hvalid := (anyCalls b s.counterValue).valid.also ledgerAddition_valid
  have hholds := Outline.sound hvalid
    ((anyCalls_holds b hs hpc).also trivial fun t => by cases t <;> trivial) hr
  have hcut := hholds.at_ .bsp
  rw [hret] at hcut
  have hreturned : Returned b .started plan l result c.mem := hcut.1
  have hverdict : Verdict plan l result c.mem := hcut.2
  have haccount := hreturned.account
  constructor
  · intro htrue
    obtain ⟨hall, hused⟩ := hverdict.sound htrue
    have hlen : l.nextPlan = plan.length := haccount.completedCount.symm.trans hall.completedCount
    rw [hlen] at haccount
    refine ⟨le_publications_of_used hholds.inv.1.machine.log hused haccount.publications, haccount, hall.done,
      fun m hv => ?_⟩
    have hm : m.val < c.mem.log.completions.length := by
      rw [haccount.completions]
      exact (haccount.valid m).1 hv
    exact (hverdict.history m _ (List.getElem?_eq_getElem hm)).2 (hall.done _ (List.getElem_mem hm))
  · rintro ⟨hlen, hdone⟩
    exact hverdict.complete hlen hdone.account.inactive ⟨hdone.account.completedCount, hdone.done⟩

/-! ## Four pings, and one -/

/-- The BSP is back from a stream over `n` requests, with the answer `result`. -/
def streamIsBackWith (n : Nat) (result : Bool) : Prog Machine BspPc → Bool
  | .ret (.streamReturned plan l r) => plan.length == n && l.nextPlan == n && r == result
  | _ => false

theorem streamIsBackWith_iff {n : Nat} {result : Bool} {p : Prog Machine BspPc} :
    streamIsBackWith n result p = true ↔ ∃ plan l, p = .ret (.streamReturned plan l result) ∧
      plan.length = n ∧ l.nextPlan = n := by
  constructor
  · intro h
    unfold streamIsBackWith at h
    split at h
    · simp only [Bool.and_eq_true, beq_iff_eq] at h
      obtain ⟨⟨hplan, hnext⟩, rfl⟩ := h
      exact ⟨_, _, rfl, hplan, hnext⟩
    · cases h
  · rintro ⟨plan, l, rfl, hplan, hnext⟩
    simp [streamIsBackWith, hplan, hnext]

/-- A plan of four pings. -/
theorem result_iff_planDone_pings : ∃ c : (apSystem {} true).Config, ∃ plan l,
    (apSystem {} true).Reach anyAccess (apConfig {} true {} (.ret (.scan 0 false)) (.ret .next)) c ∧
      c.prog .bsp = .ret (BspPc.streamReturned plan l true) ∧
        apRequestSlotCount ≤ plan.length ∧ PlanDone {} plan l c.mem := by
  obtain ⟨c, hr, hret⟩ : ∃ c : (apSystem {} true).Config, (apSystem {} true).Reach anyAccess
      (apConfig {} true {} (.ret (.scan 0 false)) (.ret .next)) c ∧
        streamIsBackWith 4 true (c.prog .bsp) = true := by
    refine System.exists_reach [calls (.stream (List.replicate 4 (broadcastPingPlan {}))),
      .until .bsp 4000 fun s => s.log.publications == 4, .until .ap 4000 fun s => (s.slots 3).state == .done,
      .until .bsp 4000 fun s => (s.history 3).valid, .turns .bsp 5] ?_
    decide +kernel
  obtain ⟨plan, l, hret, -⟩ := streamIsBackWith_iff.1 hret
  exact ⟨c, plan, l, hr, hret, (result_iff_planDone {} .default rfl hr hret).1 rfl⟩

/-- One ping, done, and the stream returns false. -/
theorem not_result_iff_planDone : ¬ ∀ (b : Build) (s : Machine) (c : (apSystem b true).Config) (pc : ApPc),
    Fresh s → pc.looping = true →
    (apSystem b true).Reach anyAccess (apConfig b true s (.ret pc) (.ret .next)) c →
    ∀ plan l result, c.prog .bsp = .ret (BspPc.streamReturned plan l result) →
      (result = true ↔ PlanDone b plan l c.mem) := by
  intro h
  obtain ⟨c, hr, hret, hdone, hrecorded⟩ : ∃ c : (apSystem {} true).Config,
      (apSystem {} true).Reach anyAccess (apConfig {} true {} (.ret (.scan 0 false)) (.ret .next)) c ∧
        streamIsBackWith 1 false (c.prog .bsp) = true ∧
          (∀ d ∈ c.mem.log.completions, d.slot.state = .done) ∧
            ∀ m, (c.mem.history m).valid = true → (c.mem.history m).request.state = .done := by
    refine System.exists_reach [calls (.stream [broadcastPingPlan {}]),
      goesOn .bsp Event.isPublished, goesOn .ap Event.isCompleted,
      .until .bsp 4000 fun s => (s.history 0).valid, .turns .bsp 3] ?_
    decide +kernel
  obtain ⟨plan, l, hret, hlen, hnext⟩ := streamIsBackWith_iff.1 hret
  have hreturned := (Outline.sound (anyCalls {} 0).valid (anyCalls_holds {} .default rfl) hr).at_ .bsp
  rw [hret] at hreturned
  have haccount := Returned.account (k := .started) hreturned
  rw [hnext, ← hlen] at haccount
  have hfalse := (h {} {} c _ .default rfl hr plan l false hret).2 ⟨haccount, hdone, hrecorded⟩
  cases hfalse

end VibeKernel

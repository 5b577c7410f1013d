import VibeKernel.Ap.SlotCounts
import VibeKernel.Conc.Terminates
import Mathlib.Algebra.Order.BigOperators.Group.Finset
import Mathlib.Data.Fintype.BigOperators

/-!
# The stream ends

A round of `run_ap_request_stream` that neither publishes nor advances `wait_loops` is one of a stopped
stream that still has a finished slot out. `work` is what is left to do in the slots that are out, and
such a round lowers it: either a slot finished, or one was taken back. One was, since of the finished
slots the one that comes first in `ap_stream_finished_slot_order` is not deferred, and an order that
changed would have lowered `work` as well.
-/

namespace VibeKernel

open Conc

/-! ## What is left to do -/

/-- What is left to do with a slot in state `st` before it can be taken back. -/
def rank (st : ApRequestStatus) : Nat :=
  if st = .done then 2 else if st.finished then 1 else 3

theorem rank_pos (st : ApRequestStatus) : 1 ≤ rank st := by cases st <;> decide

theorem rank_le (st : ApRequestStatus) : rank st ≤ 3 := by cases st <;> decide

theorem rank_eq_three {st : ApRequestStatus} : rank st = 3 ↔ st.finished = false := by
  cases st <;> decide

theorem rank_eq_two {st : ApRequestStatus} : rank st = 2 ↔ st = .done := by cases st <;> decide

/-- What a pass can see of a slot. -/
def shown (slot : ApRequestSlot) : Nat × UInt32 :=
  (rank slot.state, if slot.state = .done then slot.metrics.handledCount else 0)

/-- `ap_stream_finished_slot_order`, from what is seen. -/
def shownOrder (i : SlotIndex) (w : Nat × UInt32) : UInt32 :=
  if w.2 ≠ 0 then w.2 else 0x80000000 + i.val.toUInt32

/-- What a pass can see of the slots that are out. -/
def view (active : SlotIndex → Bool) (s : Machine) (i : SlotIndex) : Option (Nat × UInt32) :=
  if active i then some (shown (s.slots i)) else none

/-- What is left to do in the slots that are out. -/
def work (active : SlotIndex → Bool) (s : Machine) : Nat :=
  ∑ i, if active i then rank (s.slots i).state else 0

variable {active : SlotIndex → Bool} {s s' : Machine} {i j : SlotIndex}

theorem view_of_active (h : active i = true) : view active s i = some (shown (s.slots i)) := if_pos h

/-- Taking a slot back lowers the work. -/
theorem work_update_lt (h : active i = true) :
    work (Function.update active i false) s < work active s := by
  refine Finset.sum_lt_sum (fun j _ => ?_) ⟨i, Finset.mem_univ i, ?_⟩
  · by_cases hj : j = i
    · simp [hj]
    · simp [hj]
  · have := rank_pos (s.slots i).state
    simp only [Function.update_self, h]
    simp
    omega

/-- No slot is further from being taken back, and what stayed `DONE` kept its count. -/
structure Descends (s s' : Machine) : Prop where
  rank : ∀ i, rank (s'.slots i).state ≤ rank (s.slots i).state
  count : ∀ i, (s.slots i).state = .done → (s'.slots i).state = .done →
    (s'.slots i).metrics.handledCount = (s.slots i).metrics.handledCount

namespace Descends

theorem of_slots (h : s'.slots = s.slots) : Descends s s' :=
  ⟨fun _ => by rw [h], fun _ _ _ => by rw [h]⟩

/-- An access of the AP. -/
theorem of_ap (ht : ApTouch s s') (hk : KeepsCounts s s') : Descends s s' := by
  refine ⟨fun i => ?_, fun i hd _ => hk.count i hd⟩
  by_cases hf : (s.slots i).state.finished = true
  · have hf' := ht.finished i hf
    have hlt : VibeKernel.rank (s'.slots i).state ≠ 3 := by simp [rank_eq_three, hf']
    have hle := rank_le (s'.slots i).state
    by_cases hd : (s'.slots i).state = .done
    · -- what shows `DONE` did so before: it was finished, so it was not running
      rcases hk.made i hd with h | h
      · rw [h, hd]
      · rw [h] at hf
        cases hf
    · have hne : VibeKernel.rank (s'.slots i).state ≠ 2 := by simp [rank_eq_two, hd]
      have := rank_pos (s.slots i).state
      omega
  · have hthree : VibeKernel.rank (s.slots i).state = 3 := rank_eq_three.2 (by simpa using hf)
    rw [hthree]
    exact rank_le _

theorem slot_le (h : Descends s s') (i : SlotIndex) :
    (if active i then VibeKernel.rank (s'.slots i).state else 0)
      ≤ if active i then VibeKernel.rank (s.slots i).state else 0 := by
  split
  · exact h.rank i
  · exact le_rfl

theorem work_le (h : Descends s s') : work active s' ≤ work active s :=
  Finset.sum_le_sum fun i _ => h.slot_le i

/-- Where the work is the same, so is all that a pass can see. -/
theorem view_eq (h : Descends s s') (hw : work active s' = work active s) :
    view active s' = view active s := by
  have hrank : ∀ i, active i = true →
      VibeKernel.rank (s'.slots i).state = VibeKernel.rank (s.slots i).state := by
    intro i hi
    have heq := (Finset.sum_eq_sum_iff_of_le fun i _ => h.slot_le i).1 hw i (Finset.mem_univ i)
    rwa [if_pos hi, if_pos hi] at heq
  funext i
  by_cases hi : active i = true
  · have hr := hrank i hi
    have hd : (s'.slots i).state = .done ↔ (s.slots i).state = .done := by
      rw [← rank_eq_two, ← rank_eq_two, hr]
    rw [view_of_active hi, view_of_active hi, shown, shown, hr]
    by_cases hdone : (s.slots i).state = .done
    · rw [if_pos hdone, if_pos (hd.2 hdone), h.count i hdone (hd.2 hdone)]
    · rw [if_neg hdone, if_neg (mt hd.1 hdone)]
  · simp [view, hi]

end Descends

/-! ## Assertions about what a pass sees -/

/-- The work is at most `m`, and `P` is true of what is seen while it is not less. -/
abbrev Bounded (active : SlotIndex → Bool) (m : Nat)
    (P : (SlotIndex → Option (Nat × UInt32)) → Prop) : Machine → Prop :=
  Slack (work active) m fun s => P (view active s)

/-- What the walk needs of its surroundings. -/
structure EndsEnv (E : Env Machine) : Prop where
  guar : ∀ s s', E.guar s s'
  rely : ∀ s s', E.rely s s' → Descends s s'

/-- A state that is stored is one step from being taken back. -/
def Ended (_ st : ApRequestStatus) : Prop := rank st = 1

/-- Every access of `p` descends: it stores no counts, and no states but such. -/
abbrev Descending {α : Type} (p : Prog Machine α) : Prop := BspCode (fun _ => False) Ended p

theorem givesUp_ended : GivesUp Ended := by
  rintro _ _ (rfl | rfl | rfl)
  · exact rfl
  · exact rfl
  · exact rfl

theorem SlotAccess.descends (h : SlotAccess (fun _ => False) Ended s s') : Descends s s' := by
  refine ⟨fun i => ?_, fun i _ _ => h.count i id⟩
  rcases h.state i with heq | hone
  · exact (congrArg rank heq).le
  · exact hone.le.trans (rank_pos _)

section Walk

variable {b : Build} {E : Env Machine} {α : Type} {m : Nat} {plan : List ApRequestPlan}
variable {l l' : StreamLocals} {js : List SlotIndex}
variable {P Q : (SlotIndex → Option (Nat × UInt32)) → Prop}

theorem Descends.bounded (h : Descends s s') (hs : Bounded active m P s) : Bounded active m P s' :=
  hs.step h.work_le fun hw hP => by rwa [h.view_eq hw]

theorem EndsEnv.stable (hE : EndsEnv E) : Stable E (Bounded active m P) :=
  fun _ _ hr hs => (hE.rely _ _ hr).bounded hs

theorem EndsEnv.keep (hE : EndsEnv E) {p : Prog Machine α} (hp : Descending p) :
    Triple E (Bounded active m P) p fun _ => Bounded active m P :=
  .within hE.stable (fun s s' _ hd hs => ⟨hE.guar s s', hd.descends.bounded hs⟩) hp

/-- A read, and what follows from it about what is seen. -/
theorem EndsEnv.read (hE : EndsEnv E) {f : Machine → α} {R : α → (SlotIndex → Option (Nat × UInt32)) → Prop}
    (h : ∀ s, P (view active s) → R (f s) (view active s)) :
    Triple E (Bounded active m P) (.load f) fun a => Bounded active m (R a) :=
  .load hE.stable (fun s _ => hE.guar s s) fun s _ hs => hs.mono (h s)

/-- Code that descends leaves no more work. -/
theorem EndsEnv.noMore (hE : EndsEnv E) {p : Prog Machine α} (hp : Descending p) :
    Triple E (fun s => work active s ≤ m) p fun _ s => work active s ≤ m :=
  .within (fun s s' hr hs => (hE.rely s s' hr).work_le.trans hs)
    (fun s s' _ hd hs => ⟨hE.guar s s', hd.descends.work_le.trans hs⟩) hp

/-- Code of which only the end counts. -/
theorem EndsEnv.any (hE : EndsEnv E) {K : Machine → Prop} (p : Prog Machine α) :
    Triple E K p fun _ _ => True :=
  fun s _ => wp_of_within (fun s s' _ => hE.guar s s') (fun _ _ => trivial) p s (Prog.Within.top p)

/-! ## Finished slots -/

/-- A finished slot that comes before slot `i` is seen. -/
def EarlierSeen (i : SlotIndex) (v : SlotIndex → Option (Nat × UInt32)) : Prop :=
  ∃ w, v i = some w ∧ ∃ j u, v j = some u ∧ u.1 ≠ 3 ∧ shownOrder j u < shownOrder i w

/-- Every finished slot, those in `js` aside, has another one before it. -/
def Deferred (js : List SlotIndex) (v : SlotIndex → Option (Nat × UInt32)) : Prop :=
  ∀ i ∉ js, ∀ w, v i = some w → w.1 ≠ 3 → EarlierSeen i v

/-- No finished slot is out. -/
def NoneFinished (v : SlotIndex → Option (Nat × UInt32)) : Prop := ∀ i w, v i = some w → w.1 = 3

/-- One of the finished slots comes first. -/
theorem Deferred.noneFinished {v : SlotIndex → Option (Nat × UInt32)} (h : Deferred [] v) :
    NoneFinished v := by
  suffices key : ∀ n i w, v i = some w → (shownOrder i w).toNat = n → w.1 = 3 from
    fun i w hw => key _ i w hw rfl
  intro n
  induction n using Nat.strong_induction_on with | h n ih
  intro i w hw hn
  by_contra hne
  obtain ⟨w', hw', j, u, hu, hfin, hlt⟩ := h i List.not_mem_nil w hw hne
  obtain rfl := Option.some.inj (hw.symm.trans hw')
  exact hfin (ih _ (hn ▸ UInt32.lt_iff_toNat_lt.1 hlt) j u hu rfl)

theorem Deferred.visited (h : Deferred (i :: js) (view active s))
    (hi : ∀ w, view active s i = some w → w.1 ≠ 3 → EarlierSeen i (view active s)) :
    Deferred js (view active s) := by
  intro k hk w hw hfin
  by_cases hki : k = i
  · subst hki
    exact hi w hw hfin
  · exact h k (by simp [hki, hk]) w hw hfin

/-- The order that `ap_stream_finished_slot_order` returns is the one that is seen. -/
theorem apStreamFinishedSlotOrder_ends (hE : EndsEnv E) (hj : active j = true) :
    Triple E (Bounded active m P) (apStreamFinishedSlotOrder j) fun o => Bounded active m fun v =>
      P v ∧ ∃ w, v j = some w ∧ o = shownOrder j w := by
  refine .bind (hE.read (R := fun st v => P v ∧ ∃ w, v j = some w ∧ (st = .done → w.1 = 2) ∧
    (st ≠ .done → w.2 = 0)) fun s hs => ?_) fun st => ?_
  · exact ⟨hs, _, view_of_active hj, rank_eq_two.2, fun hd => if_neg hd⟩
  -- `Bounded` drops the view when the work goes down, so the reads are of one view
  refine .bind (R := fun handled => Bounded active m fun v =>
    P v ∧ ∃ w, v j = some w ∧ handled = w.2) ?_ fun handled => ?_
  · refine .cond (fun hd => ?_) fun hd => .ret fun s hs => hs.mono ?_
    · refine hE.read fun s ⟨hP, w, hw, htwo, _⟩ => ⟨hP, w, hw, ?_⟩
      obtain rfl := Option.some.inj ((view_of_active hj).symm.trans hw)
      have hdone : (s.slots j).state = .done := rank_eq_two.1 (htwo hd)
      exact (if_pos hdone).symm
    · rintro ⟨hP, w, hw, -, hzero⟩
      exact ⟨hP, w, hw, (hzero hd).symm⟩
  refine .cond (fun h0 => ?_) fun h0 => .ret fun s hs => hs.mono ?_
  · refine hE.read fun s ⟨hP, w, hw, hh⟩ => ⟨hP, w, hw, ?_⟩
    obtain rfl := Option.some.inj ((view_of_active hj).symm.trans hw)
    have hne : (shown (s.slots j)).2 ≠ 0 := hh ▸ h0
    rw [shownOrder, if_pos hne]
    have hdone : (s.slots j).state = .done := by
      by_contra hno
      exact hne (if_neg hno)
    exact (if_pos hdone).symm
  · rintro ⟨hP, w, hw, hh⟩
    refine ⟨hP, w, hw, ?_⟩
    rw [shownOrder, if_neg]
    simpa [hh] using h0

theorem apStreamHasEarlierFinishedSlot_ends (hE : EndsEnv E) (hi : active i = true) :
    Triple E (Bounded active m P) (apStreamHasEarlierFinishedSlot active i) fun earlier =>
      Bounded active m fun v => P v ∧ (earlier = true → EarlierSeen i v) := by
  refine .bind (apStreamFinishedSlotOrder_ends hE hi) fun o => ?_
  refine Triple.someOf (I := fun _ => Bounded active m fun v => P v ∧ ∃ w, v i = some w ∧ o = shownOrder i w)
    (fun s hs => hs.mono fun h => ⟨h.1, nofun⟩) (fun j js => ?_) allSlots
  refine .cond (fun _ => .ret fun s hs => by simpa using hs) fun hj => ?_
  have hj : active j = true := by
    by_contra hno
    exact hj (Or.inr (by simpa using hno))
  refine .bind (hE.read (R := fun st v => (P v ∧ ∃ w, v i = some w ∧ o = shownOrder i w) ∧
    (st.finished = true → ∃ u, v j = some u ∧ u.1 ≠ 3)) fun s hs => ?_) fun st => ?_
  · refine ⟨hs, fun hf => ⟨_, view_of_active hj, fun h3 => ?_⟩⟩
    rw [rank_eq_three.1 h3] at hf
    cases hf
  refine .cond (fun hf => ?_) fun _ => .ret fun s hs => ?_
  · refine .bind (apStreamFinishedSlotOrder_ends hE hj) fun o' => .ret fun s hs => ?_
    split
    · rename_i hlt
      -- slot `j` comes before slot `i`, in the view in which both were read
      refine hs.mono fun ⟨⟨⟨hP, w, hw, ho⟩, hfin⟩, u, hu, ho'⟩ => ⟨hP, fun _ => ⟨w, hw, j, u, hu, ?_, ?_⟩⟩
      · obtain ⟨u', hu', hne⟩ := hfin hf
        obtain rfl := Option.some.inj (hu.symm.trans hu')
        exact hne
      · rw [← ho, ← ho']
        exact of_decide_eq_true hlt
    · exact hs.mono fun h => h.1.1
  · rw [if_neg (by decide)]
    exact hs.mono fun h => h.1

/-! ## One pass -/

/-- The locals later in the same round. -/
structure Later (plan : List ApRequestPlan) (l l' : StreamLocals) : Prop where
  waitLoops : l'.waitLoops = l.waitLoops
  nextPlan : l.nextPlan ≤ l'.nextPlan
  inPlan : l.nextPlan < l'.nextPlan → l'.nextPlan ≤ plan.length

theorem Later.refl (l : StreamLocals) : Later plan l l := ⟨rfl, le_rfl, fun h => absurd h (lt_irrefl _)⟩

theorem Later.trans {l'' : StreamLocals} (h : Later plan l l') (h' : Later plan l' l'') :
    Later plan l l'' := by
  refine ⟨h'.waitLoops.trans h.waitLoops, h.nextPlan.trans h'.nextPlan, fun hlt => ?_⟩
  by_cases hlt' : l'.nextPlan < l''.nextPlan
  · exact h'.inPlan hlt'
  · have heq : l''.nextPlan = l'.nextPlan := le_antisymm (not_lt.1 hlt') h'.nextPlan
    rw [heq] at hlt ⊢
    exact h.inPlan hlt

theorem publishNext_later (i : SlotIndex) : (publishNext b plan l i).Ends (Later plan l) := by
  unfold publishNext
  split
  · exact .ret (.refl l)
  · rename_i p hp
    have hlt := (List.getElem?_eq_some_iff.1 hp).1
    exact .bind (fun _ => .ret ⟨rfl, Nat.le_succ _, fun _ => hlt⟩) _

theorem visitSlot_later (i : SlotIndex) : (visitSlot b plan l i).Ends (Later plan l) := by
  have hsame : ∀ {l' : StreamLocals}, l'.waitLoops = l.waitLoops → l'.nextPlan = l.nextPlan →
      Later plan l l' := fun hw hn => ⟨hw, hn.ge, fun hlt => absurd hn hlt.ne'⟩
  refine .cond (.ret (.refl l)) ?_
  refine .bind (fun st => ?_) _
  refine .bind (fun deferred => .cond (.bind (fun _ => .ret (.refl l)) _) ?_) _
  refine .seq (P := fun r => Later plan l r.1) (fun r hr => ?_) ?_
  · refine .bind (fun _ => .cond ?_ (.ret ⟨hr.waitLoops, hr.nextPlan, hr.inPlan⟩)) _
    refine .bind (fun stop => .cond (.ret ⟨hr.waitLoops, hr.nextPlan, hr.inPlan⟩) ?_) _
    exact (publishNext_later i).mono fun l' h => hr.trans ⟨h.waitLoops, h.nextPlan, h.inPlan⟩
  · refine .bind (fun st => .cond (.ret (by exact .refl l)) ?_) _
    refine .bind (fun _ => ?_) _
    exact .bind (fun v => .ret (by exact hsame rfl rfl)) _

/-- Taking a slot back, or finding that it is not finished. -/
theorem finishApStreamSlot_ends (hE : EndsEnv E) (hi : l.active i = true) (w : UInt32) :
    Triple E (Bounded l.active m (Deferred (i :: js))) (finishApStreamSlot l i w) fun r s =>
      r.1.nextPlan = l.nextPlan ∧ Bounded r.1.active m (Deferred js) s := by
  refine .bind (R := fun st => Bounded l.active m fun v => Deferred (i :: js) v ∧
    (st.finished = false → ∀ w, v i = some w → w.1 = 3)) ?_ fun st => ?_
  · refine .swap hE.stable fun s _ _ hs => ⟨hE.guar _ _, ?_⟩
    have hd : Descends s (s.note (.inspected i (s.slots i).state)) := .of_slots rfl
    refine (hd.bounded hs).mono fun hP => ⟨hP, fun hf w hw => ?_⟩
    rw [view_of_active hi] at hw
    obtain rfl := Option.some.inj hw
    exact rank_eq_three.2 hf
  refine .cond (fun hc => ?_) fun _ => ?_
  · refine .ret fun s hs => ⟨rfl, Slack.mono hs fun ⟨hdef, hst⟩ => ?_⟩
    have hf : st.finished = false := by simpa [hi] using hc
    exact hdef.visited fun w hw hne => absurd (hst hf w hw) hne
  · refine .bind (hE.keep (BspCode.finishStore i w)) fun _ => ?_
    refine .bind (hE.keep (BspCode.recordApStreamSlot _ _ _)) fun v => ?_
    exact .ret fun s hs => ⟨rfl, .of_lt ((work_update_lt hi).trans_le hs.1)⟩

theorem afterFinish_ends (hE : EndsEnv E) {done : Bool} :
    Triple E (Bounded l.active m P) (afterFinish b plan l i done) fun l' s =>
      l.nextPlan < l'.nextPlan ∨ Bounded l'.active m P s := by
  refine .cond (fun _ => ?_) fun _ => .ret fun s hs => Or.inr hs
  refine .bind (hE.keep (BspCode.reads Reading.apRequestStreamShouldStop)) fun stop => ?_
  refine .cond (fun _ => .ret fun s hs => Or.inr hs) fun _ => ?_
  unfold publishNext
  split
  · exact .ret fun s hs => Or.inr hs
  · exact .bind (hE.any _) fun _ => .ret fun s _ => Or.inl (Nat.lt_succ_self _)

theorem visitSlot_ends (hE : EndsEnv E) :
    Triple E (Bounded l.active m (Deferred (i :: js))) (visitSlot b plan l i) fun l' s =>
      l.nextPlan < l'.nextPlan ∨ Bounded l'.active m (Deferred js) s := by
  refine .cond (fun hi => .ret fun s hs => Or.inr (Slack.mono hs fun h => ?_)) fun hi => ?_
  · exact h.visited fun w hw => by simp [view, hi] at hw
  have hi : l.active i = true := by simpa using hi
  refine .bind (hE.keep (BspCode.noted _ _)) fun st => ?_
  refine .bind (R := fun deferred => Bounded l.active m fun v =>
    Deferred (i :: js) v ∧ (deferred = true → EarlierSeen i v)) ?_ fun deferred => ?_
  · exact .cond (fun _ => apStreamHasEarlierFinishedSlot_ends hE hi) fun _ =>
      .ret fun s hs => Slack.mono hs fun h => ⟨h, nofun⟩
  refine .cond (fun hd => ?_) fun _ => ?_
  · refine .bind (hE.keep (BspCode.beside fun _ => rfl)) fun _ => .ret fun s hs => ?_
    exact Or.inr (Slack.mono hs fun h => h.1.visited fun w _ _ => h.2 hd)
  · refine .bind ((finishApStreamSlot_ends hE hi _).pre
      fun s hs => Slack.mono hs fun h => h.1) fun r => ?_
    refine Triple.lift fun hr => .bind (hE.keep (BspCode.beside fun _ => rfl)) fun _ => ?_
    rw [← hr]
    exact afterFinish_ends hE

/-- **A pass** that publishes nothing and lowers no work leaves no finished slot out. -/
theorem pass_ends (hE : EndsEnv E) :
    Triple E (fun s => work l.active s ≤ m) (.foldOver allSlots l (visitSlot b plan)) fun l' s =>
      Later plan l l' ∧ (l.nextPlan < l'.nextPlan ∨ Bounded l'.active m NoneFinished s) := by
  let I (js : List SlotIndex) (l' : StreamLocals) (s : Machine) : Prop :=
    Later plan l l' ∧ (l.nextPlan < l'.nextPlan ∨ Bounded l'.active m (Deferred js) s)
  refine (Triple.foldOver (I := I) (fun i js l' => ?_) allSlots l).conseq
    (fun s hs => ⟨.refl l, Or.inr ⟨hs, fun _ i hi => absurd (mem_allSlots i) hi⟩⟩)
      fun l' s h => ⟨h.1, h.2.imp_right fun hs => Slack.mono hs Deferred.noneFinished⟩
  refine Triple.lift fun hl s hs => ?_
  have hvisit : wp E (visitSlot b plan l' i) (fun l'' s => l.nextPlan < l'.nextPlan ∨
      l'.nextPlan < l''.nextPlan ∨ Bounded l''.active m (Deferred js) s) s := by
    rcases hs with hlt | hs
    · exact wp_mono (fun _ _ _ => Or.inl hlt) _ s (hE.any (K := fun _ => True) _ s trivial)
    · exact wp_mono (fun _ _ => Or.inr) _ s (visitSlot_ends hE s hs)
  refine wp_mono (fun l'' s' ⟨hl', h⟩ => ⟨hl.trans hl', ?_⟩) _ s (wp_ends _ s (visitSlot_later i) hvisit)
  rcases h with h | h | h
  · exact Or.inl (h.trans_le hl'.nextPlan)
  · exact Or.inl (hl.nextPlan.trans_lt h)
  · exact Or.inr h

/-! ## One round -/

/-- `advance_ap_request_wait_loops` advances, and stays within the timeout. -/
theorem advanceApRequestWaitLoops_lt {w step : UInt32} (hw : w < b.apRequestTimeoutLoops) (hs : 1 ≤ step) :
    w < advanceApRequestWaitLoops b w step ∧ advanceApRequestWaitLoops b w step ≤ b.apRequestTimeoutLoops := by
  unfold advanceApRequestWaitLoops
  generalize b.apRequestTimeoutLoops = t at *
  have hsub : (t - w).toNat = t.toNat - w.toNat := UInt32.toNat_sub_of_le _ _ (UInt32.le_of_lt hw)
  rw [UInt32.lt_iff_toNat_lt] at hw
  rw [UInt32.le_iff_toNat_le] at hs
  have ht := t.toNat_lt
  split
  · rename_i hle
    exact ⟨UInt32.lt_iff_toNat_lt.2 hw, UInt32.le_refl _⟩
  · rename_i hle
    rw [UInt32.le_iff_toNat_le, hsub] at hle
    have hadd : (w + step).toNat = w.toNat + step.toNat := by
      rw [UInt32.toNat_add, Nat.mod_eq_of_lt]
      omega
    rw [UInt32.lt_iff_toNat_lt, UInt32.le_iff_toNat_le, hadd]
    have hone : (1 : UInt32).toNat = 1 := rfl
    omega

/-- One round has brought the stream closer to its end. -/
inductive Closer (b : Build) (plan : List ApRequestPlan) (l : StreamLocals) (m : Nat) (l' : StreamLocals)
    (s : Machine) : Prop
  | published (h : l.nextPlan < l'.nextPlan) (hp : l'.nextPlan ≤ plan.length)
  | waited (hn : l'.nextPlan = l.nextPlan) (h : l.waitLoops < l'.waitLoops)
      (ht : l'.waitLoops ≤ b.apRequestTimeoutLoops)
  | worked (hn : l'.nextPlan = l.nextPlan) (hw : l'.waitLoops = l.waitLoops) (h : work l'.active s < m)

/-- After a round: returned, or closer to it. -/
def CloserCut (b : Build) (plan : List ApRequestPlan) (l : StreamLocals) (m : Nat) (pc : BspPc) (s : Machine) :
    Prop :=
  (∃ l' r, pc = .streamReturned plan l' r) ∨ ∃ l', pc = .streamLoop plan l' ∧ Closer b plan l m l' s

/-- A finished slot that is still out after the pass finished since. -/
theorem apRequestStreamHasFinishedSlot_ends (hE : EndsEnv E) :
    Triple E (Bounded l.active m NoneFinished) (apRequestStreamHasFinishedSlot l) fun more s =>
      more = true → work l.active s < m := by
  refine Triple.someOf (I := fun _ => Bounded l.active m NoneFinished) (fun _ _ => nofun)
    (fun i js => .cond (fun hi => ?_) fun _ => .ret fun s hs => by simpa using hs) allSlots
  refine .load hE.stable (fun s _ => hE.guar s s) fun s _ hs => ?_
  split
  · rename_i hf
    refine fun _ => lt_of_le_of_ne hs.1 fun hw => ?_
    have hthree := rank_eq_three.1 (hs.2 hw i _ (view_of_active hi))
    rw [hf] at hthree
    cases hthree
  · exact hs

theorem streamEpilogue_returned (l : StreamLocals) :
    (streamEpilogue b plan l).Ends fun pc => ∃ l' r, pc = .streamReturned plan l' r := by
  refine .bind (fun l' => ?_) _
  exact .bind (fun result => .ret ⟨_, _, rfl⟩) _

theorem streamDecide_ends (hE : EndsEnv E) (hstep : 1 ≤ b.bspWaitTimerTimeoutStep) (hl : Later plan l l') :
    Triple E (fun s => l.nextPlan < l'.nextPlan ∨ Bounded l'.active m NoneFinished s)
      (streamDecide b plan l') (CloserCut b plan l m) := by
  have hepilogue : ∀ {K : Machine → Prop}, Triple E K (streamEpilogue b plan l') (CloserCut b plan l m) :=
    fun s hs => wp_mono (fun pc s' h => Or.inl h.1) _ s
      (wp_ends _ s (streamEpilogue_returned l') (hE.any _ s hs))
  -- a round that waits
  have hwaits : ∀ {step : UInt32} {s : Machine}, l'.waitLoops < b.apRequestTimeoutLoops → 1 ≤ step →
      CloserCut b plan l m
        (.streamLoop plan { l' with waitLoops := advanceApRequestWaitLoops b l'.waitLoops step }) s := by
    intro step s hw hs
    refine Or.inr ⟨_, rfl, ?_⟩
    obtain ⟨hlt, hle⟩ := advanceApRequestWaitLoops_lt hw hs
    rcases hl.nextPlan.lt_or_eq with hn | hn
    · exact .published hn (hl.inPlan hn)
    · exact .waited hn.symm (by rwa [← hl.waitLoops]) hle
  refine .cond (fun _ => hepilogue) fun _ => .cond (fun _ => ?_) fun _ => ?_
  · refine .bind (R := fun more s => more = true → l.nextPlan < l'.nextPlan ∨ work l'.active s < m)
      (fun s hs => ?_) fun more => .cond (fun hm => .ret fun s hs => Or.inr ⟨l', rfl, ?_⟩) fun _ => ?_
    · rcases hs with hlt | hs
      · exact wp_mono (fun _ _ _ _ => Or.inl hlt) _ s (hE.any (K := fun _ => True) _ s trivial)
      · exact wp_mono (fun _ _ h hm => Or.inr (h hm)) _ s (apRequestStreamHasFinishedSlot_ends hE s hs)
    · rcases hl.nextPlan.lt_or_eq with hn | hn
      · exact .published hn (hl.inPlan hn)
      · exact .worked hn.symm hl.waitLoops ((hs hm).resolve_left (by omega))
    · exact .cond (fun _ => hepilogue) fun ht => .ret fun s _ => hwaits (UInt32.not_le.1 ht) (by decide)
  · refine .cond (fun _ => hepilogue) fun ht => ?_
    refine .bind (hE.any _) fun timer => .ret fun s _ => hwaits (UInt32.not_le.1 ht) ?_
    split
    · exact hstep
    · decide

theorem Closer.locals {k : StreamLocals} (h : Closer b plan k m l' s) (hn : k.nextPlan = l.nextPlan)
    (hw : k.waitLoops = l.waitLoops) : Closer b plan l m l' s := by
  cases h with
  | published h hp => exact .published (hn ▸ h) hp
  | waited h' h ht => exact .waited (h'.trans hn) (hw ▸ h) ht
  | worked h' hw' h => exact .worked (h'.trans hn) (hw'.trans hw) h

/-- A round after its first look at the AP. -/
theorem streamPass_ends (hE : EndsEnv E) (hstep : 1 ≤ b.bspWaitTimerTimeoutStep) (stop : Bool) :
    Triple E (fun s => work l.active s ≤ m) (do
      (if stop then stopApRequestStream l else pure ())
      let l ← .foldOver allSlots l (visitSlot b plan)
      (if l.stopped then stopApRequestStream l else pure ())
      streamDecide b plan l) (CloserCut b plan l m) := by
  have hstop : ∀ l : StreamLocals, BspCode (fun _ => False) Ended (stopApRequestStream l) :=
    BspCode.stopApRequestStream givesUp_ended
  refine .bind (R := fun _ s => work l.active s ≤ m) ?_ fun _ => ?_
  · exact .cond (fun _ => hE.noMore (hstop l)) fun _ => .ret fun s hs => hs
  refine .bind (pass_ends hE) fun l' => .lift fun hl => ?_
  refine .bind (R := fun _ s => l.nextPlan < l'.nextPlan ∨ Bounded l'.active m NoneFinished s) ?_
    fun _ => streamDecide_ends hE hstep hl
  refine .cond (fun _ s hs => ?_) fun _ => .ret fun s hs => hs
  rcases hs with hlt | hs
  · exact wp_mono (fun _ _ _ => Or.inl hlt) _ s (hE.any (K := fun _ => True) _ s trivial)
  · exact wp_mono (fun _ _ => Or.inr) _ s (hE.keep (hstop l') s hs)

/-- **One round** brings the stream closer to its end. -/
theorem streamRound_ends (hE : EndsEnv E) (hstep : 1 ≤ b.bspWaitTimerTimeoutStep) :
    Triple E (fun s => work l.active s ≤ m) (streamRound b plan l) (CloserCut b plan l m) := by
  refine .bind (hE.noMore (BspCode.reads Reading.apRequestStreamShouldStop)) fun stop =>
    (streamPass_ends (l := { l with stopped := l.stopped || stop }) hE hstep stop).post fun pc s h => ?_
  exact h.imp_right fun ⟨l', hpc, hc⟩ => ⟨l', hpc, hc.locals rfl rfl⟩

end Walk

/-! ## The wait budget -/

section Budget

variable {b : Build} {plan : List ApRequestPlan} {l : StreamLocals} {w : UInt32}

/-- Inside the stream, with at least `w` of the budget used and no more than there is. -/
def BspPc.inStream (b : Build) (plan : List ApRequestPlan) (w : UInt32) : BspPc → Prop
  | .streamLoop plan' l => plan' = plan ∧ w ≤ l.waitLoops ∧ l.waitLoops ≤ b.apRequestTimeoutLoops
  | .streamReturned plan' _ _ => plan' = plan
  | .next | .pingLoop _ => False

theorem streamDecide_inStream (hstep : 1 ≤ b.bspWaitTimerTimeoutStep) (hw : w ≤ l.waitLoops)
    (ht : l.waitLoops ≤ b.apRequestTimeoutLoops) : (streamDecide b plan l).Ends (BspPc.inStream b plan w) := by
  have hepilogue : (streamEpilogue b plan l).Ends (BspPc.inStream b plan w) :=
    (streamEpilogue_returned l).mono fun pc ⟨_, _, h⟩ => by rw [h]; exact rfl
  have hwaits : ∀ {step : UInt32}, ¬ b.apRequestTimeoutLoops ≤ l.waitLoops → 1 ≤ step → BspPc.inStream b plan w
      (.streamLoop plan { l with waitLoops := advanceApRequestWaitLoops b l.waitLoops step }) := by
    intro step hlt hs
    obtain ⟨hadv, hle⟩ := advanceApRequestWaitLoops_lt (UInt32.not_le.1 hlt) hs
    exact ⟨rfl, UInt32.le_trans hw (UInt32.le_of_lt hadv), hle⟩
  unfold streamDecide
  split
  · exact hepilogue
  split
  · refine .bind (fun more => ?_) _
    split
    · exact .ret ⟨rfl, hw, ht⟩
    split
    · exact hepilogue
    · rename_i hlt
      exact .ret (hwaits hlt (by decide))
  split
  · exact hepilogue
  · rename_i hlt
    refine .bind (fun timer => .ret (hwaits hlt ?_)) _
    split
    · exact hstep
    · decide

/-- `wait_loops` never falls in a round, nor passes the timeout. -/
theorem streamRound_inStream (hstep : 1 ≤ b.bspWaitTimerTimeoutStep) (hw : w ≤ l.waitLoops)
    (ht : l.waitLoops ≤ b.apRequestTimeoutLoops) : (streamRound b plan l).Ends (BspPc.inStream b plan w) := by
  refine .bind (fun stop => ?_) _
  refine .bind (fun _ => ?_) _
  refine .seq (P := fun l' => l'.waitLoops = l.waitLoops) (fun l' hl => ?_) ?_
  · exact .bind (fun _ => streamDecide_inStream hstep (by rwa [hl]) (by rwa [hl])) _
  · exact .foldOver (fun l' i hl => (visitSlot_later i).mono fun l'' h => h.waitLoops.trans hl) _ _ rfl

theorem bspBody_inStream (hstep : 1 ≤ b.bspWaitTimerTimeoutStep) (pc : BspPc) (p : Prog Machine BspPc)
    (hpc : pc.inStream b plan w) (hp : bspBody b false pc = some p) : p.Ends (BspPc.inStream b plan w) := by
  cases pc with
  | streamLoop plan' l =>
    obtain ⟨rfl, hw, ht⟩ := hpc
    obtain rfl := Option.some.inj hp
    exact streamRound_inStream hstep hw ht
  | streamReturned => cases hp
  | next | pingLoop => exact hpc.elim

theorem runApRequestStream_inStream : (runApRequestStream b plan).Ends (BspPc.inStream b plan 0) := by
  refine .bind (fun counterBase => ?_) _
  iterate 4 refine .bind (fun _ => ?_) _
  refine .bind (fun stop => .cond ?_ ?_) _
  · refine .bind (fun st => ?_) _
    exact .bind (fun _ => .ret (by exact rfl)) _
  have hzero : ∀ t : UInt32, 0 ≤ t := fun t => UInt32.le_iff_toNat_le.2 (Nat.zero_le _)
  refine .seq (P := fun l => l.waitLoops = 0) (fun l hl => ?_) ?_
  · refine .ret ⟨rfl, hzero _, ?_⟩
    rw [hl]
    exact hzero _
  · exact .foldOver (fun l i hl => (publishNext_later i).mono fun l' h => h.waitLoops.trans hl) _ _ rfl

end Budget

/-! ## Runs -/

section Runs

variable {b : Build} {plan : List ApRequestPlan} {E : Env Machine} {w : UInt32}

/-- **The loop of `run_ap_request_stream` halts.** What can still be published, what can still be waited
and what is left to do decrease in this order. -/
theorem streamLoop_halts (hrely : ∀ s s', E.rely s s' → Descends s s') (hstep : 1 ≤ b.bspWaitTimerTimeoutStep)
    (l : StreamLocals) (s : Machine) : Halts E (bspBody b false) (.ret (.streamLoop plan l)) s := by
  have hE : EndsEnv E.lax := ⟨fun _ _ => trivial, hrely⟩
  let lt : Nat × Nat × Nat → Nat × Nat × Nat → Prop := Prod.Lex (· < ·) (Prod.Lex (· < ·) (· < ·))
  let At (x : Nat × Nat × Nat) (l : StreamLocals) (s : Machine) : Prop := x.1 = plan.length - l.nextPlan ∧
    x.2.1 = b.apRequestTimeoutLoops.toNat - l.waitLoops.toNat ∧ work l.active s ≤ x.2.2
  refine Halts.loop (r := lt) (I := fun x pc s => ∃ l, pc = .streamLoop plan l ∧ At x l s)
    (Prod.lex Nat.lt_wfRel (Prod.lex Nat.lt_wfRel Nat.lt_wfRel)).wf ?_ (plan.length - l.nextPlan,
      b.apRequestTimeoutLoops.toNat - l.waitLoops.toNat, work l.active s) _ s ⟨l, rfl, rfl, rfl, le_rfl⟩
  rintro ⟨n, t, m⟩ pc s ⟨l, rfl, rfl, rfl, hm⟩ p hp
  obtain rfl := Option.some.inj hp
  refine wp_mono (fun pc' s' h => ?_) _ s (streamRound_ends hE hstep s hm)
  rcases h with ⟨l', r, rfl⟩ | ⟨l', rfl, hcloser⟩
  · exact Or.inl rfl
  refine Or.inr ⟨(plan.length - l'.nextPlan, b.apRequestTimeoutLoops.toNat - l'.waitLoops.toNat,
    work l'.active s'), ?_, l', rfl, rfl, rfl, le_rfl⟩
  cases hcloser with
  | published hlt hle => exact .left _ _ (by omega)
  | waited hn hlt hle =>
    rw [hn]
    rw [UInt32.lt_iff_toNat_lt] at hlt
    rw [UInt32.le_iff_toNat_le] at hle
    exact .right _ (.left _ _ (by omega))
  | worked hn hw hlt =>
    rw [hn, hw]
    exact .right _ (.right _ hlt)

/-- Anywhere in a stream. -/
theorem stream_halts (hrely : ∀ s s', E.rely s s' → Descends s s') (hstep : 1 ≤ b.bspWaitTimerTimeoutStep)
    {p : Prog Machine BspPc} (hp : p.Ends (BspPc.inStream b plan w)) (s : Machine) :
    Halts E (bspBody b false) p s := by
  have hE : EndsEnv E.lax := ⟨fun _ _ => trivial, hrely⟩
  refine Halts.of_wp (Q := fun pc _ => pc.inStream b plan w ∧ True) (fun pc s hpc => ?_) p s
    (wp_ends p s hp (hE.any (K := fun _ => True) p s trivial))
  cases pc with
  | streamLoop plan' l => exact streamLoop_halts hrely hstep l s
  | streamReturned => exact .stop rfl
  | next | pingLoop => exact hpc.1.elim

/-- Neither the subtraction nor the addition of `advance_ap_request_wait_loops` wraps. -/
structure NoWrap (b : Build) (waitLoops step : UInt32) : Prop where
  sub : waitLoops.toNat + (b.apRequestTimeoutLoops - waitLoops).toNat = b.apRequestTimeoutLoops.toNat
  add : ¬ b.apRequestTimeoutLoops - waitLoops ≤ step →
    (waitLoops + step).toNat = waitLoops.toNat + step.toNat

theorem NoWrap.of_le {waitLoops : UInt32} (h : waitLoops ≤ b.apRequestTimeoutLoops) (step : UInt32) :
    NoWrap b waitLoops step := by
  have hsub : (b.apRequestTimeoutLoops - waitLoops).toNat = b.apRequestTimeoutLoops.toNat - waitLoops.toNat :=
    UInt32.toNat_sub_of_le _ _ h
  rw [UInt32.le_iff_toNat_le] at h
  have ht := b.apRequestTimeoutLoops.toNat_lt
  refine ⟨by omega, fun hlt => ?_⟩
  rw [UInt32.le_iff_toNat_le, hsub] at hlt
  rw [UInt32.toNat_add, Nat.mod_eq_of_lt]
  omega

/-- What the end of a stream is about: every run of the AP and the BSP from `c0`. -/
structure AlwaysEnds (b : Build) (plan : List ApRequestPlan) (c0 : (apSystem b false).Config) : Prop where
  /-- The BSP takes finitely many turns. -/
  ends : (apSystem b false).ComesToEnd anyAccess .bsp c0
  /-- It can always take one until it has returned. -/
  returns : ∀ c, (apSystem b false).Reach anyAccess c0 c → (∃ d, (apSystem b false).Turn anyAccess .bsp c d) ∨
    ∃ l result, c.prog .bsp = .ret (.streamReturned plan l result)
  budget : ∀ c, (apSystem b false).Reach anyAccess c0 c → ∀ plan' l, c.prog .bsp = .ret (.streamLoop plan' l) →
    l.waitLoops ≤ b.apRequestTimeoutLoops ∧ ∀ step, NoWrap b l.waitLoops step
  monotone : ∀ c d, (apSystem b false).Reach anyAccess c0 c → (apSystem b false).Reach anyAccess c d →
    ∀ plan₁ l₁ plan₂ l₂, c.prog .bsp = .ret (.streamLoop plan₁ l₁) →
      d.prog .bsp = .ret (.streamLoop plan₂ l₂) → l₁.waitLoops ≤ l₂.waitLoops

/-- A processor that has not ended its piece of code can take a turn. -/
theorem exists_turn_of_bsp {c : (apSystem b false).Config} (hc : (c.prog .bsp).Ends (BspPc.inStream b plan w)) :
    (∃ d, (apSystem b false).Turn anyAccess .bsp c d) ∨
      ∃ l result, c.prog .bsp = .ret (.streamReturned plan l result) := by
  cases hp : c.prog .bsp with
  | ret pc =>
    rw [hp] at hc
    cases pc with
    | streamLoop plan' l => exact Or.inl ⟨_, .jump hp rfl⟩
    | streamReturned plan' l result =>
      obtain rfl : plan' = plan := hc
      exact Or.inr ⟨l, result, rfl⟩
    | next | pingLoop => exact hc.elim
  | act f k =>
    have hs : (c.prog .bsp).Step c.mem (k (f c.mem).1) (f c.mem).2 := by
      rw [hp]
      exact .act f k c.mem
    exact Or.inl ⟨_, .access hs trivial⟩
  | pick d k =>
    have hs : (c.prog .bsp).Step c.mem (k d) c.mem := by
      rw [hp]
      exact .pick d k d c.mem
    exact Or.inl ⟨_, .access hs trivial⟩

theorem reach_inStream (hstep : 1 ≤ b.bspWaitTimerTimeoutStep) {c d : (apSystem b false).Config}
    (hc : (c.prog .bsp).Ends (BspPc.inStream b plan w)) (hr : (apSystem b false).Reach anyAccess c d) :
    (d.prog .bsp).Ends (BspPc.inStream b plan w) :=
  System.Reach.ends (S := apSystem b false) (t := .bsp)
    (fun pc p hpc hp => bspBody_inStream hstep pc p hpc hp) (fun x : Empty => x.elim) hc hr

/-- A stream whose AP has got to the end of a piece of code keeps to the counts from then on. -/
theorem counted_holds {c : (apSystem b false).Config} (h : (anyStart b false).Holds c)
    (hap : (∃ pc, c.prog .ap = .ret pc) ∨ ∃ x, c.prog .ap = apFaultDispatch x)
    (hbsp : BspCode (fun _ => True) Undone (c.prog .bsp : Prog Machine BspPc)) : (counted b false).Holds c := by
  refine h.also trivial fun t => ?_
  cases t with
  | ap =>
    rcases hap with ⟨pc, hpc⟩ | ⟨x, hx⟩
    · rw [hpc]
      exact trivial
    · rw [hx]
      exact countWalk_apEnv.idle (P := fun _ => True) (ApCode.apFaultDispatch moves_undone x) _ trivial
  | bsp => exact wp_of_within (fun _ _ hg => hg) (fun _ _ => trivial) _ _ hbsp

theorem counted_rely : ∀ s s', ((counted b false).env .bsp).rely s s' → Descends s s' := by
  rintro s s' ⟨u, hu, -, -, hg, -⟩
  cases u with
  | ap => exact .of_ap hg.1 hg.2
  | bsp => exact absurd rfl hu

/-- **The stream always ends**, from any memory and with the AP anywhere in its code. -/
theorem stream_alwaysEnds (hstep : 1 ≤ b.bspWaitTimerTimeoutStep) (plan : List ApRequestPlan) (s : Machine)
    {ap : Prog Machine ApPc} (hap : ApPlace b ap) :
    AlwaysEnds b plan (apConfig b false s ap (runApRequestStream b plan)) := by
  have hstart : ((apConfig b false s ap (runApRequestStream b plan)).prog .bsp).Ends (BspPc.inStream b plan 0) :=
    runApRequestStream_inStream
  refine ⟨fun run h0 hrun => ?_, fun c hc => exists_turn_of_bsp (reach_inStream hstep hstart hc),
    fun c hc plan' l hl => ?_, fun c d hc hd plan₁ l₁ plan₂ l₂ h₁ h₂ => ?_⟩
  · have hreach : ∀ k, (apSystem b false).Reach anyAccess _ (run k) := fun k => h0 ▸ System.reach_along hrun k
    obtain ⟨k, hset⟩ := System.exists_settled hrun .ap
    have hends := reach_inStream hstep hstart (hreach k)
    -- either the AP gets to the end of a piece of code, or it stands still from some point on
    have hcases : ((∃ pc, (run k).prog .ap = .ret pc) ∨ ∃ x, (run k).prog .ap = apFaultDispatch x) ∨
        ∀ j ≥ k, ¬ (apSystem b false).Turn anyAccess .ap (run j) (run (j + 1)) := by
      rcases hset with h | h | h
      · exact Or.inl (Or.inl h)
      · exact Or.inl (Or.inr h)
      · exact Or.inr h
    rcases hcases with hmoves | hquiet
    · have hbsp : BspCode (fun _ => True) Undone ((run k).prog .bsp : Prog Machine BspPc) :=
        System.Reach.within (S := apSystem b false) (t := .bsp)
          (fun pc p hp => BspCode.bspBody publishes_undone pc p hp) (fun x : Empty => x.elim)
          (BspCode.runApRequestStream publishes_undone) (hreach k)
      have hholds : ∀ j ≥ k, (counted b false).Holds (run j) := by
        intro j hj
        induction j, hj using Nat.le_induction with
        | base =>
          have hany := Outline.sound anyStart_valid (anyStart_holds hap plan) (hreach k)
          exact counted_holds hany hmoves hbsp
        | succ j _ ih =>
          obtain ⟨u, hu⟩ := hrun j
          exact (ih.turn counted_valid hu).1
      exact System.turns_end (E := (counted b false).env .bsp) (n := k) (fun x : Empty => x.elim) hrun
        (fun j hj => (hholds j hj).inv) (fun _ _ h => h)
        (fun j hj u hu ht => (hholds j hj).rely_of_turn counted_valid hu ht)
        (stream_halts counted_rely hstep hends _)
    · refine System.turns_end (E := ⟨fun _ => True, fun _ _ => True, fun _ _ => False, fun _ _ => True⟩) (n := k)
        (fun x : Empty => x.elim) hrun (fun _ _ => trivial) (fun _ _ _ => trivial) (fun j hj u hu ht => ?_)
          (stream_halts (fun _ _ => False.elim) hstep hends _)
      cases u with
      | ap => exact absurd ht (hquiet j hj)
      | bsp => exact absurd rfl hu
  · have hpc := reach_inStream hstep hstart hc
    rw [hl] at hpc
    exact ⟨hpc.2.2, NoWrap.of_le hpc.2.2⟩
  · have hpc := reach_inStream hstep hstart hc
    rw [h₁] at hpc
    have hfrom : (c.prog .bsp).Ends (BspPc.inStream b plan₁ l₁.waitLoops) := by
      rw [h₁]
      exact ⟨rfl, UInt32.le_refl _, hpc.2.2⟩
    have hto := reach_inStream hstep hfrom hd
    rw [h₂] at hto
    exact hto.2.1

/-- Six requests: more than there are slots, and one that no service answers. -/
def sixRequests : List ApRequestPlan :=
  [counterPlan, { counterPlan with sequence := 2 }, { counterPlan with sequence := 3, serviceId := 99 },
    { counterPlan with sequence := 4 }, { counterPlan with sequence := 5 },
    { counterPlan with sequence := 6 }]

/-- The AP is in the middle of a scan of its inbox, and a slot has been left over. -/
theorem stream_alwaysEnds_sixRequests :
    let left : Machine := { slots := fun i => if i.val = 0 then { state := .done } else {} }
    AlwaysEnds {} sixRequests (apConfig {} false left (.ret (.scan 2 true))
      (runApRequestStream {} sixRequests)) :=
  stream_alwaysEnds (by decide) sixRequests _ (.cut (.scan 2 true))

end Runs

end VibeKernel

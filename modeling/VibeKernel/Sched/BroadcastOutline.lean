import VibeKernel.Num.Count
import VibeKernel.Sched.PingStatus

/-!
# The accounts of a broadcast ping

The walk through `run_ap_broadcast_ping` on all contexts. Only the BSP touches the summary, so it stands
still while the APs run; every context has its own status meanwhile.
-/

namespace VibeKernel

open Conc Num

/-! ## The books -/

/-- Where a context is. `active` is `active[i]`, `ok` what `ap_broadcast_ping_result_ok` said. -/
inductive PingStatus (b : Build) (c0 : UInt32) (s₀ : Machine) :
    Bool → Bool → ApBroadcastPingEntry → Machine → Prop
  | unsent {ok : Bool} {e : ApBroadcastPingEntry} {s : Machine} (he : e.valid = false)
      (h : NotSent c0 s₀ s) : PingStatus b c0 s₀ false ok e s
  | sent {ok : Bool} {e : ApBroadcastPingEntry} {s : Machine} (he : e.valid = false)
      (h : Sent b c0 s₀ s) : PingStatus b c0 s₀ true ok e s
  | back {ok : Bool} {e : ApBroadcastPingEntry} {s : Machine} (he : e.valid = true)
      (h : Back b c0 s₀ s) (hok : pingSucceeded s = ok) (hrest : e.state ≠ .timeout → Resting s) :
      PingStatus b c0 s₀ false ok e s

/-- The counts of the summary. -/
structure Counted (active good : ApContextIndex → Bool) (sm : BroadcastPingSummary) : Prop where
  planned : sm.plannedCount.toNat = countTrue fun i => active i || (sm.entries i).valid
  completed : sm.completedCount.toNat = countTrue fun i => (sm.entries i).valid
  ok : sm.okCount.toNat = countTrue fun i => (sm.entries i).valid && good i
  fail : sm.failCount.toNat = countTrue fun i => (sm.entries i).valid && !good i

namespace BroadcastPingSummary

def setEntry (sm : BroadcastPingSummary) (i : ApContextIndex) (e : ApBroadcastPingEntry) :
    BroadcastPingSummary :=
  { sm with entries := Function.update sm.entries i e }

/-- One more ping came back. -/
def count (sm : BroadcastPingSummary) : Bool → BroadcastPingSummary
  | true => { sm with completedCount := sm.completedCount + 1, okCount := sm.okCount + 1 }
  | false => { sm with completedCount := sm.completedCount + 1, failCount := sm.failCount + 1 }

end BroadcastPingSummary

section Counts

variable {active good : ApContextIndex → Bool} {sm : BroadcastPingSummary} {i : ApContextIndex}

/-- A counter that counts contexts does not overflow. -/
theorem toNat_succ_of_countTrue {x : UInt32} {p q : ApContextIndex → Bool}
    (hx : x.toNat = countTrue p) (hp : p i = false) (hq : q i = true) (h : ∀ j ≠ i, q j = p j) :
    (x + 1).toNat = countTrue q := by
  have hle : countTrue q ≤ 8 := (countTrue_le q).trans (Fintype.card_fin 8).le
  rw [countTrue_succ hp hq h] at hle ⊢
  rw [UInt32.toNat_add, UInt32.toNat_one, hx, Nat.mod_eq_of_lt (by omega)]

theorem countTrue_congr {p q : ApContextIndex → Bool} (h : ∀ j, q j = p j) :
    countTrue q = countTrue p :=
  congrArg countTrue (funext h)

theorem Counted.start : Counted (fun _ => false) good {} := by
  constructor <;> exact countTrue_false.symm

/-- A ping is sent. -/
theorem Counted.send (h : Counted active good sm) (ha : active i = false)
    (hi : (sm.entries i).valid = false) :
    Counted (Function.update active i true) good { sm with plannedCount := sm.plannedCount + 1 } where
  planned := by
    refine toNat_succ_of_countTrue (i := i) h.planned (by simp [ha, hi]) (by simp) fun j hj => ?_
    simp [hj]
  completed := h.completed
  ok := h.ok
  fail := h.fail

/-- A ping came back and is recorded. -/
theorem Counted.record (h : Counted active good sm) (ha : active i = true)
    (hi : (sm.entries i).valid = false) {e : ApBroadcastPingEntry} (he : e.valid = true) (r : Bool) :
    Counted (Function.update active i false) (Function.update good i r)
      ((sm.setEntry i e).count r) := by
  have hvalid : ∀ j, j ≠ i → ((sm.setEntry i e).entries j) = sm.entries j := fun j hj => by
    simp [BroadcastPingSummary.setEntry, hj]
  have hself : (sm.setEntry i e).entries i = e := by simp [BroadcastPingSummary.setEntry]
  have hentries : ∀ r, ((sm.setEntry i e).count r).entries = (sm.setEntry i e).entries := by
    intro r
    cases r <;> rfl
  have hplanned : ((sm.setEntry i e).count r).plannedCount = sm.plannedCount := by
    cases r <;> rfl
  have hcompleted : ((sm.setEntry i e).count r).completedCount = sm.completedCount + 1 := by
    cases r <;> rfl
  -- Slot `i` goes from the active ones to the recorded ones, and into one of the two counts.
  refine ⟨?_, ?_, ?_, ?_⟩ <;> rw [hentries]
  · rw [hplanned, h.planned]
    refine (countTrue_congr fun j => ?_).symm
    by_cases hj : j = i
    · subst hj
      simp [hself, he, ha]
    · simp [hj, hvalid j hj]
  · rw [hcompleted]
    refine toNat_succ_of_countTrue h.completed hi (by rw [hself, he]) fun j hj => ?_
    rw [hvalid j hj]
  · cases r with
    | true =>
      refine toNat_succ_of_countTrue (i := i) h.ok (by simp [hi]) (by simp [hself, he]) fun j hj => ?_
      simp [hj, hvalid j hj]
    | false =>
      refine h.ok.trans (countTrue_congr fun j => ?_).symm
      by_cases hj : j = i
      · subst hj
        simp [hi]
      · simp [hj, hvalid j hj]
  · cases r with
    | false =>
      refine toNat_succ_of_countTrue (i := i) h.fail (by simp [hi]) (by simp [hself, he]) fun j hj => ?_
      simp [hj, hvalid j hj]
    | true =>
      refine h.fail.trans (countTrue_congr fun j => ?_).symm
      by_cases hj : j = i
      · subst hj
        simp [hi]
      · simp [hj, hvalid j hj]

end Counts

/-! ## Accesses -/

section Accesses

variable {b : Build} {PC : Type} {body : PC → Option (Prog KernelMemory PC)}
  {c0 : ApContextIndex → UInt32} {cut : PC → KernelMemory → Prop}
  {i : ApContextIndex} {sm : BroadcastPingSummary} {Φ : ApContextIndex → Machine → Prop}

/-- The BSP's surroundings. -/
abbrev broadcastEnv (b : Build) {PC : Type} (body : PC → Option (Prog KernelMemory PC))
    (c0 : ApContextIndex → UInt32) (cut : PC → KernelMemory → Prop) : Env KernelMemory :=
  (kernelOutline b body c0 (fun _ => True) cut).env .bsp

theorem broadcastEnv_sees (i : ApContextIndex) :
    (kernelPart i).Sees (broadcastEnv b body c0 cut) (pingEnv (b.on i) (c0 i)) :=
  kernelPart_sees_bsp trivial

theorem summary_stable : Stable (broadcastEnv b body c0 cut) fun t => t.summary = sm := by
  rintro t t' ⟨u, hu, -, -, hg, -⟩ h
  cases u with
  | bsp => exact absurd rfl hu
  | ap j =>
    obtain ⟨s, -, rfl⟩ := hg
    exact h

theorem contexts_stable (hΦ : ∀ j, Stable (pingEnv (b.on j) (c0 j)) (Φ j)) :
    Stable (broadcastEnv b body c0 cut) fun t => ∀ j, Φ j (t.contexts j) :=
  fun _ _ hr h j => Stable.onPart (broadcastEnv_sees j) (hΦ j) _ _ hr (h j)

/-- The summary, and what is known of the contexts other than `i`. -/
structure Apart (i : ApContextIndex) (Φ : ApContextIndex → Machine → Prop)
    (sm : BroadcastPingSummary) (t : KernelMemory) : Prop where
  summary : t.summary = sm
  others : ∀ j ≠ i, Φ j (t.contexts j)

theorem Apart.stable (hΦ : ∀ j, Stable (pingEnv (b.on j) (c0 j)) (Φ j)) :
    Stable (broadcastEnv b body c0 cut) (Apart i Φ sm) := fun _ _ hr h =>
  ⟨summary_stable _ _ hr h.summary, fun j hj =>
    Stable.onPart (broadcastEnv_sees j) (hΦ j) _ _ hr (h.others j hj)⟩

theorem Apart.put {t : KernelMemory} (s : Machine) (h : Apart i Φ sm t) :
    Apart i Φ sm ((kernelPart i).put s t) := by
  refine ⟨h.summary, fun j hj => ?_⟩
  rw [kernelPart_contexts_ne hj]
  exact h.others j hj

/-- A piece of code that works on context `i`. -/
theorem onContext_triple (hΦ : ∀ j, Stable (pingEnv (b.on j) (c0 j)) (Φ j)) {α : Type}
    {P : Machine → Prop} {p : Prog Machine α} {Q : α → Machine → Prop}
    (hp : Triple (pingEnv (b.on i) (c0 i)) P p Q) :
    Triple (broadcastEnv b body c0 cut) (fun t => P (t.contexts i) ∧ Apart i Φ sm t)
      (p.onPart (kernelPart i)) fun a t => Q a (t.contexts i) ∧ Apart i Φ sm t :=
  Triple.onPart (broadcastEnv_sees i) (Apart.stable hΦ) (fun _ s => Apart.put s) hp

/-- A store to the summary. -/
theorem storeSummary_triple (hΦ : ∀ j, Stable (pingEnv (b.on j) (c0 j)) (Φ j)) {P : Machine → Prop}
    (hP : Stable (pingEnv (b.on i) (c0 i)) P) {sm' : BroadcastPingSummary}
    {f : BroadcastPingSummary → BroadcastPingSummary} (hf : f sm = sm') :
    Triple (broadcastEnv b body c0 cut) (fun t => P (t.contexts i) ∧ Apart i Φ sm t)
      (.store fun t => t.setSummary f) fun _ t => P (t.contexts i) ∧ Apart i Φ sm' t := by
  refine .store ((Stable.onPart (broadcastEnv_sees i) hP).and (Apart.stable hΦ)) fun t _ _ h => ?_
  exact ⟨fun _ => Or.inl rfl, h.1, (congrArg f h.2.summary).trans hf, h.2.others⟩

/-- The entry of context `i` is being written. -/
def Recording (i : ApContextIndex) (Φ : ApContextIndex → Machine → Prop) (sm : BroadcastPingSummary)
    (P : ApBroadcastPingEntry → Machine → Prop) (t : KernelMemory) : Prop :=
  ∃ e, P e (t.contexts i) ∧ Apart i Φ (sm.setEntry i e) t

theorem setEntry_setEntry (sm : BroadcastPingSummary) (i : ApContextIndex)
    (e e' : ApBroadcastPingEntry) : (sm.setEntry i e).setEntry i e' = sm.setEntry i e' := by
  simp [BroadcastPingSummary.setEntry]

theorem setEntry_entries (sm : BroadcastPingSummary) (i : ApContextIndex)
    (e : ApBroadcastPingEntry) : (sm.setEntry i e).entries i = e := by
  simp [BroadcastPingSummary.setEntry]

theorem storeEntry_triple (hΦ : ∀ j, Stable (pingEnv (b.on j) (c0 j)) (Φ j))
    {P Q : ApBroadcastPingEntry → Machine → Prop}
    (hP : ∀ e, Stable (pingEnv (b.on i) (c0 i)) (P e))
    {f : KernelMemory → ApBroadcastPingEntry → ApBroadcastPingEntry}
    (hf : ∀ t e, MachineInv (b.on i) (c0 i) (t.contexts i) → P e (t.contexts i) →
      Q (f t e) (t.contexts i)) :
    Triple (broadcastEnv b body c0 cut) (Recording i Φ sm P) (.store fun t => t.setEntry i (f t))
      fun _ => Recording i Φ sm Q := by
  refine Triple.exists fun e => ?_
  refine .store ((Stable.onPart (broadcastEnv_sees i) (hP e)).and (Apart.stable hΦ))
    fun t ht _ h => ⟨fun _ => Or.inl rfl, f t e, hf t e (ht i) h.1, ?_, h.2.others⟩
  show t.summary.setEntry i (f t (t.summary.entries i)) = _
  rw [h.2.summary, setEntry_entries, setEntry_setEntry]

/-- The ping of context `i` is back, and its entry says so. -/
structure Recorded (b : Build) (c0 : UInt32) (s₀ : Machine) (e : ApBroadcastPingEntry) (s : Machine) :
    Prop extends Back b c0 s₀ s where
  valid : e.valid = true
  rest : e.state ≠ .timeout → Resting s

theorem Recorded.stable {b : Build} {c0 : UInt32} {s₀ : Machine} (e : ApBroadcastPingEntry) :
    Stable (pingEnv b c0) (Recorded b c0 s₀ e) :=
  pingEnv_stable fun _ _ _ ha h =>
    ⟨h.toBack.apAct ha, h.valid, fun he => ((h.rest he).apAct ha).1⟩

/-- **`record_ap_broadcast_ping_result`.** -/
theorem recordBroadcastPing_triple {s₀ : Machine}
    (hΦ : ∀ j, Stable (pingEnv (b.on j) (c0 j)) (Φ j)) (w : UInt32) :
    Triple (broadcastEnv b body c0 cut)
      (fun t => Back (b.on i) (c0 i) s₀ (t.contexts i) ∧ Apart i Φ sm t) (recordBroadcastPing i w)
      fun _ t => ∃ e r, (Recorded (b.on i) (c0 i) s₀ e (t.contexts i) ∧
        pingSucceeded (t.contexts i) = r) ∧ Apart i Φ ((sm.setEntry i e).count r) t := by
  let Valid (e : ApBroadcastPingEntry) (s : Machine) : Prop :=
    e.valid = true ∧ Back (b.on i) (c0 i) s₀ s
  have hvalid : ∀ e, Stable (pingEnv (b.on i) (c0 i)) (Valid e) := fun e =>
    pingEnv_stable fun _ _ _ ha h => ⟨h.1, h.2.apAct ha⟩
  refine Triple.pre (H := Recording i Φ sm fun _ => Back (b.on i) (c0 i) s₀) ?_ fun t h => ?_
  refine .bind (R := fun _ => Recording i Φ sm Valid)
    (storeEntry_triple hΦ (fun _ => Back.stable) fun _ _ _ h => ⟨rfl, h⟩) fun _ => ?_
  refine .bind (R := fun _ => Recording i Φ sm Valid)
    (storeEntry_triple hΦ hvalid fun _ _ _ h => h) fun _ => ?_
  refine .bind (R := fun _ => Recording i Φ sm (Recorded (b.on i) (c0 i) s₀))
    (storeEntry_triple hΦ hvalid fun t _ hm h => ⟨h.2, h.1, fun he => h.2.resting hm he⟩) fun _ => ?_
  -- the three stores behind that of the state leave `valid` and the state as they are
  have hkeep : ∀ {f : KernelMemory → ApBroadcastPingEntry → ApBroadcastPingEntry},
      (∀ t e, (f t e).valid = e.valid ∧ (f t e).state = e.state) →
        Triple (broadcastEnv b body c0 cut) (Recording i Φ sm (Recorded (b.on i) (c0 i) s₀))
          (.store fun t => t.setEntry i (f t))
            fun _ => Recording i Φ sm (Recorded (b.on i) (c0 i) s₀) := fun hf =>
    storeEntry_triple hΦ Recorded.stable fun t e _ h =>
      ⟨h.toBack, (hf t e).1.trans h.valid, fun he => h.rest (by rwa [(hf t e).2] at he)⟩
  iterate 3 refine .bind (hkeep fun _ _ => ⟨rfl, rfl⟩) fun _ => ?_
  refine Triple.exists fun e => ?_
  refine .bind (storeSummary_triple hΦ (Recorded.stable e) rfl) fun _ => ?_
  refine .bind (onContext_triple hΦ
    (Q := fun r s => Recorded (b.on i) (c0 i) s₀ e s ∧ pingSucceeded s = r) ?_) fun r => ?_
  · -- the comparisons only read
    have hreads : (apBroadcastPingResultOk apBroadcastPingSlotIndex).Within Eq :=
      .allOf (fun f => .load fun _ => rfl) _
    refine (pingResult_triple.beside (R := fun s => e.valid = true ∧ (e.state ≠ .timeout → Resting s))
      (G := Eq) ?_ (fun s s' _ he h => he ▸ h) hreads).conseq (fun s h => ⟨h.toBack, h.valid, h.rest⟩)
        fun r s h => ⟨⟨h.1.1, h.2.1, h.2.2⟩, h.1.2⟩
    exact pingEnv_stable fun _ _ _ ha h => ⟨h.1, fun he => ((h.2 he).apAct ha).1⟩
  · -- the AP is through with the ping, so what the comparisons saw stays so
    have hresult : Stable (pingEnv (b.on i) (c0 i)) fun s =>
        Recorded (b.on i) (c0 i) s₀ e s ∧ pingSucceeded s = r :=
      pingEnv_stable fun s s' hm ha h => ⟨⟨h.1.toBack.apAct ha, h.1.valid, fun he =>
        ((h.1.rest he).apAct ha).1⟩, (pingSucceeded_apAct hm ha h.1.back).trans h.2⟩
    refine .cond (fun hr => ?_) fun hr => ?_
    · subst hr
      exact (storeSummary_triple hΦ hresult rfl).post fun _ t h => ⟨e, true, h⟩
    · obtain rfl : r = false := by simpa using hr
      exact (storeSummary_triple hΦ hresult rfl).post fun _ t h => ⟨e, false, h⟩
  · refine ⟨sm.entries i, h.1, ?_⟩
    rw [BroadcastPingSummary.setEntry, Function.update_eq_self]
    exact h.2

end Accesses

/-! ## The walk -/

section Walk

variable {b : Build} {PC : Type} {body : PC → Option (Prog KernelMemory PC)}
  {c0 : ApContextIndex → UInt32} {cut : PC → KernelMemory → Prop} {start : ApContexts}
  {i : ApContextIndex} {active good : ApContextIndex → Bool} {sm : BroadcastPingSummary}
  {t : KernelMemory} {contextCount : Nat} {target : Option ApContextIndex} {l : BroadcastLocals}

theorem PingStatus.apAct {b : Build} {c0 : UInt32} {s₀ s s' : Machine} {a r : Bool}
    {e : ApBroadcastPingEntry} (h : PingStatus b c0 s₀ a r e s) (hm : MachineInv b c0 s)
    (ha : ApAct b c0 s s') : PingStatus b c0 s₀ a r e s' := by
  cases h with
  | unsent he h => exact .unsent he (h.apAct ha)
  | sent he h => exact .sent he (h.apAct ha)
  | back he h hok hrest =>
    exact .back he (h.apAct ha) ((pingSucceeded_apAct hm ha h.back).trans hok) fun ht =>
      ((hrest ht).apAct ha).1

theorem PingStatus.stable {b : Build} {c0 : UInt32} {s₀ : Machine} {a r : Bool}
    {e : ApBroadcastPingEntry} : Stable (pingEnv b c0) (PingStatus b c0 s₀ a r e) :=
  pingEnv_stable fun _ _ hm ha h => h.apAct hm ha

/-- Where every context is. -/
def Statuses (b : Build) (c0 : ApContextIndex → UInt32) (start : ApContexts)
    (active good : ApContextIndex → Bool) (sm : BroadcastPingSummary) (i : ApContextIndex) :
    Machine → Prop :=
  PingStatus (b.on i) (c0 i) (start i) (active i) (good i) (sm.entries i)

/-- The summary and the contexts. -/
structure Standing (b : Build) (c0 : ApContextIndex → UInt32) (start : ApContexts)
    (active good : ApContextIndex → Bool) (sm : BroadcastPingSummary) (t : KernelMemory) : Prop where
  summary : t.summary = sm
  status : ∀ i, Statuses b c0 start active good sm i (t.contexts i)

/-- Some summary counts the contexts. -/
def Accounts (b : Build) (c0 : ApContextIndex → UInt32) (start : ApContexts)
    (active : ApContextIndex → Bool) (t : KernelMemory) : Prop :=
  ∃ good sm, Counted active good sm ∧ Standing b c0 start active good sm t

theorem statuses_stable (j : ApContextIndex) :
    Stable (pingEnv (b.on j) (c0 j)) (Statuses b c0 start active good sm j) :=
  PingStatus.stable

theorem Standing.stable : Stable (broadcastEnv b body c0 cut) (Standing b c0 start active good sm) :=
  fun _ _ hr h => ⟨summary_stable _ _ hr h.summary, contexts_stable statuses_stable _ _ hr h.status⟩

theorem Accounts.stable : Stable (broadcastEnv b body c0 cut) (Accounts b c0 start active) :=
  fun _ _ hr ⟨good, sm, hcount, hstand⟩ => ⟨good, sm, hcount, Standing.stable _ _ hr hstand⟩

theorem Standing.apart (h : Standing b c0 start active good sm t) (i : ApContextIndex) :
    Apart i (Statuses b c0 start active good sm) sm t :=
  ⟨h.summary, fun j _ => h.status j⟩

/-- A ping that is back is recorded. -/
theorem recordActive_triple (w : UInt32) (hcount : Counted active good sm) (ha : active i = true)
    (hi : (sm.entries i).valid = false) :
    Triple (broadcastEnv b body c0 cut) (fun t => Back (b.on i) (c0 i) (start i) (t.contexts i) ∧
        Apart i (Statuses b c0 start active good sm) sm t)
      (recordBroadcastPing i w) fun _ => Accounts b c0 start (Function.update active i false) := by
  refine (recordBroadcastPing_triple statuses_stable w).post fun _ t ⟨e, r, h, hapart⟩ => ?_
  refine ⟨Function.update good i r, _, hcount.record ha hi h.1.valid r, hapart.summary, fun j => ?_⟩
  have hentries : ((sm.setEntry i e).count r).entries = Function.update sm.entries i e := by
    cases r <;> rfl
  unfold Statuses
  rw [hentries]
  by_cases hj : j = i
  · subst hj
    simp only [Function.update_self]
    exact .back h.1.valid h.1.toBack h.2 h.1.rest
  · simp only [Function.update_of_ne hj]
    exact hapart.others j hj

/-- An active context has been sent its ping. -/
theorem Standing.sent (h : Standing b c0 start active good sm t) (ha : active i = true) :
    (sm.entries i).valid = false ∧ Sent (b.on i) (c0 i) (start i) (t.contexts i) := by
  have hstatus := h.status i
  unfold Statuses at hstatus
  rw [ha] at hstatus
  cases hstatus with
  | sent he h => exact ⟨he, h⟩

theorem takeBroadcastPing_triple :
    Triple (broadcastEnv b body c0 cut) (Accounts b c0 start l.active) (takeBroadcastPing l i)
      fun l' t => Accounts b c0 start l'.active t ∧ (l' = l ∨ l.active i = true ∧
        l' = { l with
          active := Function.update l.active i false
          activeCount := l.activeCount - 1 }) := by
  refine .cond (fun ha => ?_) fun _ => .ret fun t h => ⟨h, Or.inl rfl⟩
  refine Triple.exists fun good => Triple.exists fun sm => Triple.lift fun hcount => ?_
  refine .bind (R := fun st t => Standing b c0 start l.active good sm t ∧
    (st.finished = true → PingBack (t.contexts i))) ?_ fun st => ?_
  · exact .load Standing.stable (fun t _ _ => Or.inl rfl) fun t _ h => ⟨h, fun hf => hf⟩
  refine .cond (fun hst => ?_) fun _ => .ret fun t h => ⟨⟨good, sm, hcount, h.1⟩, Or.inl rfl⟩
  refine Triple.pre (H := fun t => (sm.entries i).valid = false ∧
    (Back (b.on i) (c0 i) (start i) (t.contexts i) ∧
      Apart i (Statuses b c0 start l.active good sm) sm t)) (Triple.lift fun hi => ?_) fun t h => ?_
  · refine .bind (onContext_triple statuses_stable (storePingWait_triple _)) fun _ => ?_
    refine .bind (recordActive_triple _ hcount ha hi) fun _ => ?_
    exact .ret fun t h => ⟨h, Or.inr ⟨ha, rfl⟩⟩
  · obtain ⟨hi, hsent⟩ := h.1.sent ha
    exact ⟨hi, ⟨hsent, h.2 hst⟩, h.1.apart i⟩

theorem timeOutBroadcastPing_triple :
    Triple (broadcastEnv b body c0 cut) (Accounts b c0 start l.active) (timeOutBroadcastPing b l i)
      fun l' t => Accounts b c0 start l'.active t ∧
        l' = { l with active := Function.update l.active i false } := by
  refine .cond (fun ha => ?_) fun ha => .ret fun t h => ⟨h, ?_⟩
  · refine Triple.exists fun good => Triple.exists fun sm => Triple.lift fun hcount => ?_
    refine Triple.pre (H := fun t => (sm.entries i).valid = false ∧
      (Sent (b.on i) (c0 i) (start i) (t.contexts i) ∧
        Apart i (Statuses b c0 start l.active good sm) sm t)) (Triple.lift fun hi => ?_) fun t h => ?_
    · refine .bind (onContext_triple statuses_stable timeOutPing_triple) fun _ => ?_
      exact .bind (recordActive_triple _ hcount ha hi) fun _ => .ret fun t h => ⟨h, rfl⟩
    · obtain ⟨hi, hsent⟩ := h.sent ha
      exact ⟨hi, hsent, h.apart i⟩
  · obtain ha : l.active i = false := by simpa using ha
    rw [← ha, Function.update_eq_self]

/-- The locals agree with each other and with the start. -/
structure LocalsOk (start : ApContexts) (contextCount : Nat) (target : Option ApContextIndex)
    (l : BroadcastLocals) : Prop where
  count : l.activeCount = countTrue l.active
  inRange : ∀ i, l.active i = true → i ∈ contextIndices contextCount
  saved : ∀ i, target = some i → l.targetHandledCount = (start i).requestHandledCount ∧
    l.targetCounterValue = (start i).counterValue

theorem LocalsOk.take (h : LocalsOk start contextCount target l) (ha : l.active i = true) :
    LocalsOk start contextCount target { l with
      active := Function.update l.active i false
      activeCount := l.activeCount - 1 } where
  count := by
    have hsucc : countTrue l.active = countTrue (Function.update l.active i false) + 1 :=
      countTrue_succ (i := i) (by simp) ha fun j hj => by simp [hj]
    have hcount := h.count
    show l.activeCount - 1 = countTrue (Function.update l.active i false)
    omega
  inRange j hj := by
    by_cases hji : j = i
    · subst hji
      simp at hj
    · exact h.inRange j (by simpa [hji] using hj)
  saved := h.saved

theorem LocalsOk.send (h : LocalsOk start contextCount target l) (ha : l.active i = false)
    (hi : i ∈ contextIndices contextCount) :
    LocalsOk start contextCount target { l with
      active := Function.update l.active i true
      activeCount := l.activeCount + 1 } where
  count := by
    rw [h.count]
    exact (countTrue_succ ha (by simp) fun j hj => by simp [hj]).symm
  inRange j hj := by
    by_cases hji : j = i
    · rw [hji]
      exact hi
    · exact h.inRange j (by simpa [hji] using hj)
  saved := h.saved

/-! ### Sending -/

/-- Nothing is back yet, and nothing was sent to the contexts of `is`. -/
structure Sending (b : Build) (c0 : ApContextIndex → UInt32) (start : ApContexts)
    (contextCount : Nat) (target : Option ApContextIndex) (is : List ApContextIndex)
    (l : BroadcastLocals) (sm : BroadcastPingSummary) (t : KernelMemory) : Prop where
  locals : LocalsOk start contextCount target l
  nodup : is.Nodup
  mem : ∀ i ∈ is, i ∈ contextIndices contextCount
  ahead : ∀ i ∈ is, l.active i = false
  blank : ∀ i, (sm.entries i).valid = false
  counted : Counted l.active (fun _ => false) sm
  standing : Standing b c0 start l.active (fun _ => false) sm t

theorem Standing.unsent (h : Standing b c0 start active good sm t) (ha : active i = false)
    (hi : (sm.entries i).valid = false) : NotSent (c0 i) (start i) (t.contexts i) := by
  have hstatus := h.status i
  unfold Statuses at hstatus
  rw [ha] at hstatus
  cases hstatus with
  | unsent _ h => exact h
  | back he =>
    rw [hi] at he
    cases he

theorem sendBroadcastPing_triple (i : ApContextIndex) (is : List ApContextIndex)
    (l : BroadcastLocals) :
    Triple (broadcastEnv b body c0 cut)
      (fun t => ∃ sm, Sending b c0 start contextCount target (i :: is) l sm t)
      (sendBroadcastPing b l i)
      fun l' t => ∃ sm, Sending b c0 start contextCount target is l' sm t := by
  refine Triple.exists fun sm => ?_
  let Φ := Statuses b c0 start l.active (fun _ => false) sm
  -- what the accesses cannot change
  let Known : Prop := LocalsOk start contextCount target l ∧ (i :: is).Nodup ∧
    (∀ j ∈ i :: is, j ∈ contextIndices contextCount) ∧ (∀ j ∈ i :: is, l.active j = false) ∧
      (∀ j, (sm.entries j).valid = false) ∧ Counted l.active (fun _ => false) sm
  refine Triple.pre (H := fun t => Known ∧ (NotSent (c0 i) (start i) (t.contexts i) ∧ Apart i Φ sm t))
    (Triple.lift fun ⟨hlocals, hnodup, hmem, hahead, hblank, hcount⟩ => ?_) fun t h =>
      ⟨⟨h.locals, h.nodup, h.mem, h.ahead, h.blank, h.counted⟩,
        h.standing.unsent (h.ahead i List.mem_cons_self) (h.blank i), h.standing.apart i⟩
  obtain ⟨hi, hnodup⟩ := List.nodup_cons.1 hnodup
  have hai := hahead i List.mem_cons_self
  have hmem' : ∀ j ∈ is, j ∈ contextIndices contextCount := fun j hj => hmem j (List.mem_cons_of_mem _ hj)
  refine .bind (onContext_triple statuses_stable apContextCanAcceptBroadcastPing_triple) fun ok => ?_
  refine .cond (fun hok => ?_) fun _ => .ret fun t h => ⟨sm, hlocals, hnodup, hmem',
    fun j hj => hahead j (List.mem_cons_of_mem _ hj), hblank, hcount, h.2.summary, fun j => ?_⟩
  · refine .bind (R := fun _ t => Sent (b.on i) (c0 i) (start i) (t.contexts i) ∧ Apart i Φ sm t)
      ((onContext_triple statuses_stable sendPing_triple).pre fun t h => ⟨⟨h.1.1, h.1.2 hok⟩, h.2⟩)
        fun _ => ?_
    refine .bind (storeSummary_triple statuses_stable Sent.stable rfl) fun _ => .ret fun t h => ?_
    refine ⟨{ sm with plannedCount := sm.plannedCount + 1 },
      hlocals.send hai (hmem i List.mem_cons_self), hnodup, hmem', fun j hj => ?_, hblank,
      hcount.send hai (hblank i), h.2.summary, fun j => ?_⟩
    · have hji : j ≠ i := fun he => hi (he ▸ hj)
      simpa [hji] using hahead j (List.mem_cons_of_mem _ hj)
    · unfold Statuses
      by_cases hj : j = i
      · subst hj
        simp only [Function.update_self]
        exact .sent (hblank j) h.1
      · simp only [Function.update_of_ne hj]
        exact h.2.others j hj
  · by_cases hj : j = i
    · subst hj
      unfold Statuses
      rw [hai]
      exact .unsent (hblank j) h.1.1
    · exact h.2.others j hj

/-! ### Putting the counters back -/

section Restore

variable {b : Build} {c0 : UInt32} {s₀ s s' : Machine} {r : Bool} {e : ApBroadcastPingEntry}

/-- The counters are those of `s₀`, unless the ping timed out. -/
def Restored (e : ApBroadcastPingEntry) (s₀ s : Machine) : Prop :=
  e.state ≠ .timeout →
    s.requestHandledCount = s₀.requestHandledCount ∧ s.counterValue = s₀.counterValue

/-- The AP of a context that is not active touches no counter, unless the ping timed out. -/
theorem PingStatus.counters (h : PingStatus b c0 s₀ false r e s) (ha : ApAct b c0 s s')
    (ht : e.state ≠ .timeout) :
    s'.requestHandledCount = s.requestHandledCount ∧ s'.counterValue = s.counterValue := by
  have hrest : Resting s := by
    cases h with
    | unsent _ h => exact h.resting
    | back _ _ _ hrest => exact hrest ht
  exact (hrest.apAct ha).2.symm

theorem PingStatus.saved (h : PingStatus b c0 s₀ false r e s) : CounterOk c0 s.log s₀.counterValue := by
  cases h with
  | unsent _ h => exact h.saved
  | back _ h => exact h.saved

/-- A store that puts a counter back. -/
theorem PingStatus.restore (h : PingStatus b c0 s₀ false r e s) (hslots : s'.slots = s.slots)
    (hlog : s'.log = .restored :: s.log) (herror : s'.error = s.error)
    (hcounter : s'.counterValue = s.counterValue ∨ s'.counterValue = s₀.counterValue)
    (hhandled : s'.requestHandledCount = s.requestHandledCount ∨
      s'.requestHandledCount = s₀.requestHandledCount) : PingStatus b c0 s₀ false r e s' := by
  have hsaved : CounterOk c0 s'.log s₀.counterValue := by
    rw [hlog]
    exact h.saved
  have hrest : Resting s → Resting s' := by
    intro hr
    refine ⟨fun i => ?_, fun n i hh => ?_⟩
    · rw [hslots]
      exact hr.settled i
    · rw [hlog] at hh ⊢
      exact hr.away n i hh
  -- a context without a ping is as it was; of one with a ping only slot 0 and the log matter
  cases h with
  | unsent he h =>
    refine .unsent he ⟨?_, hrest h.resting, ?_, ?_, hsaved⟩
    · rw [hlog]
      exact h.publications
    · exact hcounter.elim (fun hc => hc.trans h.counter) id
    · exact hhandled.elim (fun hc => hc.trans h.handled) id
  | back he h hok ht =>
    have honly : OnlyPing s' := h.only.onSlot0 ⟨fun i _ => by rw [hslots], by rw [hlog]; rfl⟩
    refine .back he ⟨⟨⟨?_, ?_, herror.trans h.error, hsaved⟩, ⟨?_, honly⟩, ?_⟩, ?_⟩ ?_ fun hne =>
      hrest (ht hne)
    · rw [hlog]
      exact h.publications
    · rw [hlog]
      exact h.latest
    · rw [hslots]
      exact h.request
    · unfold PingOut
      rw [hslots]
      exact h.out
    · unfold PingBack
      rw [hslots]
      exact h.back
    · exact (pingSucceeded_ofSlot0 s s' (by rw [hslots])).trans hok

theorem restoreHandled_triple {v : UInt32} (hv : v = s₀.requestHandledCount) :
    Triple (pingEnv b c0) (PingStatus b c0 s₀ false r e)
      (.store fun s => { s with requestHandledCount := v }.note .restored) fun _ s =>
        PingStatus b c0 s₀ false r e s ∧
          (e.state ≠ .timeout → s.requestHandledCount = s₀.requestHandledCount) :=
  .store PingStatus.stable fun _ hs _ h => ⟨pingEnv_bspEnv.guar _ _ hs (.restoreHandled v id),
    h.restore rfl rfl rfl (Or.inl rfl) (Or.inr hv), fun _ => hv⟩

theorem restoreCounter_triple {v : UInt32} (hv : v = s₀.counterValue) :
    Triple (pingEnv b c0) (fun s => PingStatus b c0 s₀ false r e s ∧
        (e.state ≠ .timeout → s.requestHandledCount = s₀.requestHandledCount))
      (.store fun s => { s with counterValue := v }.note .restored) fun _ s =>
        PingStatus b c0 s₀ false r e s ∧ Restored e s₀ s := by
  refine .store (pingEnv_stable fun s s' hm ha h => ⟨h.1.apAct hm ha, fun ht => ?_⟩)
    fun s hs _ h => ⟨pingEnv_bspEnv.guar _ _ hs (.restoreCounter v id fun _ => hv ▸ h.1.saved),
      h.1.restore rfl rfl rfl (Or.inr hv) (Or.inl rfl), fun ht => ⟨h.2 ht, hv⟩⟩
  exact (h.1.counters ha ht).1.trans (h.2 ht)

theorem restored_stable :
    Stable (pingEnv b c0) fun s => PingStatus b c0 s₀ false r e s ∧ Restored e s₀ s := by
  refine pingEnv_stable fun s s' hm ha h => ⟨h.1.apAct hm ha, fun ht => ?_⟩
  obtain ⟨hhandled, hcounter⟩ := h.1.counters ha ht
  exact ⟨hhandled.trans (h.2 ht).1, hcounter.trans (h.2 ht).2⟩

end Restore

/-! ### The rounds -/

/-- What is known when `run_ap_broadcast_ping` returns. -/
structure BroadcastReturned (b : Build) (c0 : ApContextIndex → UInt32) (start : ApContexts)
    (target : Option ApContextIndex) (good : ApContextIndex → Bool) (sm : BroadcastPingSummary)
    (t : KernelMemory) : Prop extends Standing b c0 start (fun _ => false) good sm t where
  counted : Counted (fun _ => false) good sm
  restored : ∀ i, target = some i → Restored (sm.entries i) (start i) (t.contexts i)

/-- The assertions of the walk. -/
def broadcastCut (b : Build) (c0 : ApContextIndex → UInt32) (start : ApContexts) (contextCount : Nat)
    (target : Option ApContextIndex) : BroadcastPc → KernelMemory → Prop
  | .loop l => fun t => LocalsOk start contextCount target l ∧ Accounts b c0 start l.active t
  | .returned => fun t => ∃ good sm, BroadcastReturned b c0 start target good sm t

theorem BroadcastReturned.stable :
    Stable (broadcastEnv b body c0 cut) (BroadcastReturned b c0 start target good sm) := by
  intro t t' hr h
  refine ⟨Standing.stable _ _ hr h.toStanding, h.counted, fun i hi => ?_⟩
  exact (Stable.onPart (broadcastEnv_sees i) restored_stable _ _ hr ⟨h.status i, h.restored i hi⟩).2

theorem broadcastCut_stable (pc : BroadcastPc) :
    Stable (broadcastEnv b body c0 cut) (broadcastCut b c0 start contextCount target pc) := by
  cases pc with
  | loop l => exact fun t t' hr h => ⟨h.1, Accounts.stable _ _ hr h.2⟩
  | returned => exact fun t t' hr ⟨good, sm, h⟩ => ⟨good, sm, BroadcastReturned.stable _ _ hr h⟩

theorem restoreRequestTarget_triple (hl : ∀ i, target = some i →
      l.targetHandledCount = (start i).requestHandledCount ∧
        l.targetCounterValue = (start i).counterValue) :
    Triple (broadcastEnv b body c0 cut) (Accounts b c0 start fun _ => false)
      (restoreRequestTarget l target) fun _ t => ∃ good sm,
        BroadcastReturned b c0 start target good sm t := by
  refine Triple.exists fun good => Triple.exists fun sm => Triple.lift fun hcount => ?_
  cases target with
  | none => exact .ret fun t h => ⟨good, sm, h, hcount, nofun⟩
  | some i =>
    obtain ⟨hhandled, hcounter⟩ := hl i rfl
    let P : Machine → Prop := PingStatus (b.on i) (c0 i) (start i) false (good i) (sm.entries i)
    have hpre : ∀ t, Standing b c0 start (fun _ => false) good sm t →
        P (t.contexts i) ∧ Apart i (Statuses b c0 start (fun _ => false) good sm) sm t :=
      fun t h => ⟨h.status i, h.apart i⟩
    refine Triple.pre ?_ hpre
    refine .bind (onContext_triple statuses_stable (restoreHandled_triple hhandled)) fun _ => ?_
    refine (onContext_triple statuses_stable (restoreCounter_triple hcounter)).post fun _ t h =>
      ⟨good, sm, ⟨h.2.summary, fun j => ?_⟩, hcount, fun j hj => ?_⟩
    · by_cases hj : j = i
      · rw [hj]
        exact h.1.1
      · exact h.2.others j hj
    · obtain rfl := Option.some.inj hj
      exact h.1.2

theorem broadcastRound_triple (l : BroadcastLocals) :
    Triple (broadcastEnv b body c0 cut)
      (fun t => LocalsOk start contextCount target l ∧ Accounts b c0 start l.active t)
      (broadcastRound b contextCount target l) (broadcastCut b c0 start contextCount target) := by
  refine .cond (fun _ => ?_) fun _ => ?_
  · let Held (l : BroadcastLocals) (t : KernelMemory) : Prop :=
      LocalsOk start contextCount target l ∧ Accounts b c0 start l.active t
    refine .bind (R := Held) (Triple.foldOver (I := fun _ => Held) (fun i _ l => ?_) _ _) fun l' => ?_
    · refine Triple.lift fun hlocals => takeBroadcastPing_triple.post fun l' t h => ?_
      rcases h.2 with rfl | ⟨ha, rfl⟩
      · exact ⟨hlocals, h.1⟩
      · exact ⟨hlocals.take ha, h.1⟩
    · refine .cond (fun _ => .ret fun t h => h) fun _ => ?_
      exact .bind .any fun timer => .ret fun t h => ⟨⟨h.1.count, h.1.inRange, h.1.saved⟩, h.2⟩
  · -- `active` is used up by the second loop
    let Saved (l : BroadcastLocals) : Prop := ∀ i, target = some i →
      l.targetHandledCount = (start i).requestHandledCount ∧
        l.targetCounterValue = (start i).counterValue
    refine .bind (R := fun l t => Saved l ∧ Accounts b c0 start (fun _ => false) t)
      (.cond (fun _ => ?_) fun hnone => .ret fun t h => ⟨h.1.saved, ?_⟩) fun l' => ?_
    rotate_right
    · refine .bind (Triple.lift fun hsaved => restoreRequestTarget_triple hsaved) fun _ => ?_
      exact .ret fun t h => h
    · refine (Triple.foldOver (I := fun is l t => ((∀ i, l.active i = true → i ∈ is) ∧ Saved l) ∧
        Accounts b c0 start l.active t) (fun i is l => ?_) _ _).conseq
          (fun t h => ⟨⟨h.1.inRange, h.1.saved⟩, h.2⟩) fun l t h => ⟨h.1.2, ?_⟩
      · refine Triple.lift fun hl => timeOutBroadcastPing_triple.post fun l' t h => ?_
        obtain ⟨haccounts, rfl⟩ := h
        refine ⟨⟨fun j hj => ?_, hl.2⟩, haccounts⟩
        by_cases hji : j = i
        · subst hji
          simp at hj
        · exact (List.mem_cons.1 (hl.1 j (by simpa [hji] using hj))).resolve_left hji
      · -- what was active was in the list of the loop
        have hactive : l.active = fun _ => false := funext fun i =>
          Bool.eq_false_iff.2 fun hi => List.not_mem_nil (h.1.1 i hi)
        rw [hactive] at h
        exact h.2
    · -- no ping is out
      have hzero : countTrue l.active = 0 := by
        rw [← h.1.count]
        omega
      have hactive : l.active = fun _ => false := funext (countTrue_eq_zero_iff.1 hzero)
      rw [hactive] at h
      exact h.2

/-- **`run_ap_broadcast_ping` up to its wait.** -/
theorem runBroadcastPing_triple :
    Triple (broadcastEnv b body c0 cut) (fun t => ∀ i, NotSent (c0 i) (start i) (t.contexts i))
      (runBroadcastPing b contextCount target) (broadcastCut b c0 start contextCount target) := by
  let Start (t : KernelMemory) : Prop := ∀ i, NotSent (c0 i) (start i) (t.contexts i)
  have hstart : Stable (broadcastEnv b body c0 cut) Start := contexts_stable fun _ => NotSent.stable
  refine .bind (R := fun v t => (∀ i, target = some i → v = (start i).requestHandledCount) ∧ Start t)
    ?_ fun handled => ?_
  · cases target with
    | none => exact .ret fun t h => ⟨nofun, h⟩
    | some i =>
      refine .load hstart (fun t _ _ => Or.inl rfl) fun t _ h => ⟨fun j hj => ?_, h⟩
      obtain rfl := Option.some.inj hj
      exact (h i).handled
  refine Triple.lift fun hhandled => ?_
  refine .bind (R := fun v t => (∀ i, target = some i → v = (start i).counterValue) ∧ Start t)
    ?_ fun counter => ?_
  · cases target with
    | none => exact .ret fun t h => ⟨nofun, h⟩
    | some i =>
      refine .load hstart (fun t _ _ => Or.inl rfl) fun t _ h => ⟨fun j hj => ?_, h⟩
      obtain rfl := Option.some.inj hj
      exact (h i).counter
  refine Triple.lift fun hcounter => ?_
  -- nothing has been sent yet, so the summary starts from zero
  let l₀ : BroadcastLocals := { targetHandledCount := handled, targetCounterValue := counter }
  have hfold : Triple (broadcastEnv b body c0 cut) (fun t => ∃ sm,
      Sending b c0 start contextCount target (contextIndices contextCount) l₀ sm t)
      (.foldOver (contextIndices contextCount) l₀ (sendBroadcastPing b)) fun l t => ∃ sm,
        Sending b c0 start contextCount target [] l sm t :=
    Triple.foldOver (I := fun is l t => ∃ sm, Sending b c0 start contextCount target is l sm t)
      sendBroadcastPing_triple _ _
  refine .bind (R := fun _ t => ∃ sm,
    Sending b c0 start contextCount target (contextIndices contextCount) l₀ sm t) ?_ fun _ => ?_
  · refine .store hstart fun t _ _ h => ⟨fun _ => Or.inl rfl, {}, ?_⟩
    have hlocals : LocalsOk start contextCount target l₀ :=
      ⟨countTrue_false.symm, nofun, fun i hi => ⟨hhandled i hi, hcounter i hi⟩⟩
    exact ⟨hlocals, (List.nodup_finRange _).filter _, fun _ hi => hi, fun _ _ => rfl, fun _ => rfl,
      .start, rfl, fun i => .unsent rfl (h i)⟩
  · refine .bind hfold fun l => .ret fun t h => ?_
    obtain ⟨sm, h⟩ := h
    exact ⟨h.locals, _, sm, h.counted, h.standing⟩

end Walk

/-! ## The accounts -/

/-- Context `i` was sent a ping. -/
def WasPinged (start : ApContexts) (t : KernelMemory) (i : ApContextIndex) : Prop :=
  (start i).log.publications < (t.contexts i).log.publications

instance {start : ApContexts} {t : KernelMemory} {i : ApContextIndex} :
    Decidable (WasPinged start t i) :=
  inferInstanceAs (Decidable (_ < _))

/-- The summary of a broadcast ping is right, and the target's counters are as before. -/
structure BroadcastAccount (start : ApContexts) (target : Option ApContextIndex)
    (t : KernelMemory) : Prop where
  planned : t.summary.plannedCount = t.summary.completedCount
  completed : t.summary.completedCount.toNat = t.summary.okCount.toNat + t.summary.failCount.toNat
  valid : ∀ i, (t.summary.entries i).valid = true ↔ WasPinged start t i
  ok : t.summary.okCount.toNat =
    (Finset.univ.filter fun i => WasPinged start t i ∧ pingSucceeded (t.contexts i) = true).card
  target : ∀ i, target = some i → WasPinged start t i → (t.summary.entries i).state ≠ .timeout →
    (t.contexts i).counterValue = (start i).counterValue ∧
      (t.contexts i).requestHandledCount = (start i).requestHandledCount

theorem BroadcastReturned.account {b : Build} {c0 : ApContextIndex → UInt32} {start : ApContexts}
    {target : Option ApContextIndex} {good : ApContextIndex → Bool} {sm : BroadcastPingSummary}
    {t : KernelMemory} (h : BroadcastReturned b c0 start target good sm t) :
    BroadcastAccount start target t := by
  have hvalid : ∀ i, (sm.entries i).valid = true ↔ WasPinged start t i := by
    intro i
    have hstatus : PingStatus (b.on i) (c0 i) (start i) false (good i) (sm.entries i)
      (t.contexts i) := h.status i
    unfold WasPinged
    cases hstatus with
    | unsent he h => simp [he, h.publications]
    | back he h => simp [he, h.publications]
  have hgood : ∀ i, (sm.entries i).valid = true → pingSucceeded (t.contexts i) = good i := by
    intro i hi
    have hstatus : PingStatus (b.on i) (c0 i) (start i) false (good i) (sm.entries i)
      (t.contexts i) := h.status i
    cases hstatus with
    | unsent he =>
      rw [hi] at he
      cases he
    | back _ _ hok => exact hok
  refine ⟨?_, ?_, ?_, ?_, ?_⟩ <;> rw [h.summary]
  · rw [← UInt32.toNat_inj, h.counted.planned, h.counted.completed]
    rfl
  · rw [h.counted.completed, h.counted.ok, h.counted.fail, countTrue_and_add]
  · exact hvalid
  · rw [h.counted.ok, countTrue]
    congr 1
    ext i
    simp only [Finset.mem_filter, Finset.mem_univ, true_and, Bool.and_eq_true, hvalid]
    refine and_congr_right fun hi => ?_
    rw [hgood i ((hvalid i).2 hi)]
  · exact fun i hi _ ht => (h.restored i hi ht).symm

/-- **The broadcast ping counts every context once**, and puts the target's counters back. -/
theorem broadcastAccount_of_returned (b : Build) (contextCount : Nat) (target : Option ApContextIndex)
    (contexts : ApContexts) (aps : ApContextIndex → Prog Machine ApPc)
    (hleft : ∀ i, LeftBy b i (contexts i) (aps i))
    (hidle : ∀ i, Resting (contexts i))
    {c : (kernelSystem b (broadcastBody b contextCount target)).Config}
    (hr : (kernelSystem b (broadcastBody b contextCount target)).Reach anyTurn
      (broadcastStart b contextCount target contexts aps) c)
    (hret : c.prog .bsp = .ret BroadcastPc.returned) : BroadcastAccount contexts target c.mem := by
  choose c0 hinv hsettled hap using fun i => (hleft i).holds
  have hvalid : (kernelOutline b (broadcastBody b contextCount target) c0 (fun _ => True)
      (broadcastCut b c0 contexts contextCount target)).Valid := by
    refine kernelOutline_valid broadcastCut_stable fun pc p hp => ?_
    cases pc with
    | loop l =>
      cases hp
      exact broadcastRound_triple l
    | returned => cases hp
  have hunsent : ∀ i, NotSent (c0 i) (contexts i) (contexts i) := fun i =>
    ⟨rfl, hidle i, rfl, rfl, (hinv i).counter⟩
  have hholds := Outline.sound hvalid (kernelOutline_holds hinv hap
    (runBroadcastPing_triple { contexts } hunsent)) hr
  have hcut := hholds.at_ .bsp
  rw [hret] at hcut
  obtain ⟨good, sm, h⟩ := hcut
  exact h.account

/-- `run_ap_broadcast_ping` has returned. -/
def broadcastIsBack : Prog KernelMemory BroadcastPc → Bool
  | .ret .returned => true
  | _ => false

theorem broadcastIsBack_iff {p : Prog KernelMemory BroadcastPc} :
    broadcastIsBack p = true ↔ p = .ret .returned := by
  constructor
  · intro h
    unfold broadcastIsBack at h
    split at h
    · rfl
    · cases h
  · rintro rfl
    rfl

/-- Two contexts, each of which answers its ping. -/
theorem broadcastAccount_of_returned_two : ∃ c,
    (kernelSystem {} (broadcastBody {} 2 (some 0))).Reach anyTurn
      (broadcastStart {} 2 (some 0) freshContexts fun _ => .ret (.scan 0 false)) c ∧
    c.mem.summary.okCount = 2 ∧ BroadcastAccount freshContexts (some 0) c.mem := by
  obtain ⟨c, hr, hok, hret⟩ : ∃ c : (kernelSystem {} (broadcastBody {} 2 (some 0))).Config,
      (kernelSystem {} (broadcastBody {} 2 (some 0))).Reach anyTurn
        (broadcastStart {} 2 (some 0) freshContexts fun _ => .ret (.scan 0 false)) c ∧
      c.mem.summary.okCount = 2 ∧ broadcastIsBack (c.prog .bsp) = true := by
    refine System.exists_reach [runsUntil .bsp fun t => (t.contexts 1).log.publications == 1,
      runsUntil (.ap 0) fun t => ((t.contexts 0).slots apBroadcastPingSlotIndex).state == .done,
      runsUntil (.ap 1) fun t => ((t.contexts 1).slots apBroadcastPingSlotIndex).state == .done,
      runsUntil .bsp fun _ => false] ?_
    decide +kernel
  exact ⟨c, hr, hok, broadcastAccount_of_returned {} 2 (some 0) freshContexts _
    (fun i => .default {} i) (fun _ => ⟨fun _ => ⟨nofun, nofun⟩, nofun⟩) hr
    (broadcastIsBack_iff.1 hret)⟩

end VibeKernel

import VibeKernel.Ap.StreamOutline

/-!
# The BSP's calls stay inside the protocol

The start of a stream, the broadcast ping, and the two together: `bspBody_triple`.
-/

namespace VibeKernel

open Conc

section Walk

variable {b : Build} {k : Know} {c0 : UInt32} {E : Env Machine}
variable {P : Machine → Prop} {i : SlotIndex} {plan : List ApRequestPlan} {l : StreamLocals}

/-! ## The start of a stream -/

/-- What a stream may assume when it begins. -/
structure Startable (k : Know) (s : Machine) : Prop where
  settled : k.strong → Settled s
  unused : k.calm → ∀ i, s.log.latest i = 0
  first : k.calm → s.log.publications = 0

theorem Startable.seen {s s' : Machine} (hs : ApSeen k s s') (h : Startable k s) : Startable k s' :=
  ⟨fun hk => (h.settled hk).seen hs, fun hk i => by rw [hs.log.latest]; exact h.unused hk i,
    fun hk => by rw [hs.log.publications]; exact h.first hk⟩

/-- The stream has begun with `counter_value` at `v`. Entries `ks` of the history are still to be
reset. -/
structure Opening (k : Know) (v : UInt32) (ks : List (Fin apRequestHistoryCount)) (s : Machine) :
    Prop where
  start : Startable k s
  began : s.log.began = true
  plans : s.log.streamPlans = []
  publications : s.log.publications = s.log.streamBase
  completions : s.log.completions = []
  counter : s.log.streamCounter = v
  blank : ∀ m ∉ ks, (s.history m).valid = false

variable {v : UInt32} {ks : List (Fin apRequestHistoryCount)}

theorem Opening.seen {s s' : Machine} (hs : ApSeen k s s') (h : Opening k v ks s) :
    Opening k v ks s' where
  start := h.start.seen hs
  began := by rw [hs.log.began]; exact h.began
  plans := by rw [hs.log.streamPlans]; exact h.plans
  publications := by rw [hs.log.publications, hs.log.streamBase]; exact h.publications
  completions := by rw [hs.log.completions]; exact h.completions
  counter := by rw [hs.log.streamCounter]; exact h.counter
  blank := by rw [hs.history]; exact h.blank

theorem Opening.own {s s' : Machine} (hs : SameShared s s') (h : Opening k v ks s)
    {ks' : List (Fin apRequestHistoryCount)} (hb : ∀ m ∉ ks', (s'.history m).valid = false) :
    Opening k v ks' s' := by
  refine ⟨⟨fun hk i => ?_, fun hk i => ?_, fun hk => ?_⟩, ?_, ?_, ?_, ?_, ?_, hb⟩
  · rw [hs.slots]
    exact h.start.settled hk i
  · rw [hs.log]
    exact h.start.unused hk i
  · rw [hs.log]
    exact h.start.first hk
  · rw [hs.log]
    exact h.began
  · rw [hs.log]
    exact h.plans
  · rw [hs.log]
    exact h.publications
  · rw [hs.log]
    exact h.completions
  · rw [hs.log]
    exact h.counter

theorem Opening.quiet : Quiet k (Opening k v ks) :=
  ⟨fun _ _ => Opening.seen, fun _ _ hs hh h => h.own hs (by rw [hh]; exact h.blank)⟩

/-- The books of a stream that has published nothing. -/
theorem Opening.tally {s : Machine} (h : Opening k v [] s) :
    InLoop b k plan { counterBase := v } s ∧ Unused k allSlots { counterBase := v } s := by
  have hnone : s.log.completions = [] := h.completions
  refine ⟨⟨⟨h.began, ?_, Nat.zero_le _, ?_, ?_, rfl, ?_, ?_, ?_, ?_, ?_, ?_, ?_, ?_, ?_, ?_, ?_, ?_,
    ?_, ?_, ?_⟩, ⟨?_, ?_⟩⟩, fun j _ => ⟨rfl, fun hk => h.start.unused hk j⟩⟩
  · simpa using h.plans
  · simpa using h.publications
  · simp [hnone]
  all_goals simp only [hnone, Bool.false_eq_true, false_imp_iff, implies_true, List.not_mem_nil]
  · exact List.nodup_nil
  · exact fun m c hm => absurd hm (Nat.not_lt_zero _)
  · exact fun m _ => h.blank m (by simp)
  · exact fun hk i _ _ => h.start.settled hk i
  · simp [h.counter]
  · exact fun _ m hm => absurd hm (Nat.not_lt_zero _)
  · exact fun hk i _ h0 => absurd (h.start.unused hk i) h0

/-- A slot is reset before the stream publishes anything. -/
theorem resetSlot_triple (hE : BspEnv b k c0 E) :
    Triple E (fun s => InLoop b k plan { counterBase := v } s ∧
        Unused k allSlots { counterBase := v } s) (resetApInboxSlot i) fun _ s =>
      InLoop b k plan { counterBase := v } s ∧ Unused k allSlots { counterBase := v } s := by
  have hbeside : Beside k i (Publishing b k plan { counterBase := v } i allSlots) :=
    Publishing.beside rfl
  refine (resetApInboxSlot_triple hE hbeside).conseq
    (fun s h => ?_) fun _ s h => ?_
  · have hready : Ready k i s := ⟨fun hk => h.1.books.settled hk i rfl (by simp),
      fun hk h0 => absurd ((h.2 i (mem_allSlots i)).2 hk) h0⟩
    exact ⟨h.1.begin hready h.2, hready⟩
  · obtain ⟨⟨⟨htally, hrun⟩, hun⟩, hvac⟩ := h
    have hnone : s.log.completions = [] := List.eq_nil_of_length_eq_zero htally.completed
    refine ⟨⟨{ htally with settled := ?_, kept := ?_, replaced := ?_ }, hrun⟩, hun⟩
    · intro hk j hj _
      by_cases hji : j = i
      · subst hji
        rcases hvac.1 with he | he <;> simp [he]
      · exact htally.settled hk j hj (by simpa using Ne.symm hji)
    · simp [hnone]
    · simp [hnone]

/-- The reset of the history. -/
theorem resetApRequestHistory_triple (hE : BspEnv b k c0 E) :
    Triple E (Opening k v (List.finRange apRequestHistoryCount)) resetApRequestHistory
      fun _ => Opening k v [] := by
  refine Triple.forEach (I := Opening k v) (fun m ks => ?_) _
  have hstore : ∀ {ks' : List (Fin apRequestHistoryCount)}
      (f : Machine → ApRequestHistoryEntry → ApRequestHistoryEntry),
      (∀ s m', m' ∉ ks' → Opening k v (m :: ks) s →
        ((s.setHistory m (f s)).history m').valid = false) →
      Triple E (Opening k v (m :: ks)) (.store fun s => s.setHistory m (f s))
        fun _ => Opening k v ks' := fun f hf =>
    store_entry hE (fun _ _ => Opening.seen) m f fun s h =>
      have hsame : SameShared s (s.setHistory m (f s)) :=
        ⟨rfl, rfl, rfl, rfl, rfl, rfl, rfl, rfl, rfl⟩
      Opening.own hsame h fun m' hm' => hf s m' hm' h
  have hkeep : ∀ (f : Machine → ApRequestHistoryEntry → ApRequestHistoryEntry),
      Triple E (Opening k v (m :: ks)) (.store fun s => s.setHistory m (f s))
        fun _ => Opening k v (m :: ks) := fun f => hstore f fun s m' hm' h => by
    have hne : m' ≠ m := fun he => hm' (by simp [he])
    simpa [Machine.setHistory, hne] using h.blank m' hm'
  refine .bind (.forEach_keep fun w _ => hkeep _) fun _ => ?_
  iterate 2 refine .bind (hkeep _) fun _ => ?_
  refine hstore _ fun s m' hm' h => ?_
  by_cases hne : m' = m
  · subst hne
    simp [Machine.setHistory]
  · simpa [Machine.setHistory, hne] using h.blank m' (by simp [hne, hm'])

theorem resetApQueueSummary_triple (hE : BspEnv b k c0 E) (hP : Quiet k P) :
    Triple E P resetApQueueSummary fun _ => P := by
  have hown : ∀ g : Machine → ApQueueSummary,
      Triple E P (.store fun s => { s with queueSummary := g s }) fun _ => P := fun g =>
    bsp_own hE hP (fun _ => ⟨rfl, rfl, rfl, rfl, rfl, rfl, rfl, rfl, rfl⟩) fun _ => rfl
  unfold resetApQueueSummary
  iterate 5 refine .bind (hown _) fun _ => ?_
  exact hown _

theorem InLoop.quiet : Quiet k (InLoop b k plan l) := by
  refine ⟨fun _ _ => InLoop.seen, fun s s' hs hh h => ⟨?_, ?_⟩⟩
  · refine h.books.mono (by rw [hs.log]; exact .refl _) ?_ ?_ hh ?_ ?_
    all_goals rw [hs.slots]
    · exact fun _ _ => rfl
    · exact h.books.nonempty
    · exact h.books.settled
    · exact fun _ _ _ _ _ => rfl
  · exact Running.coarse.mono s s' (fun j => by rw [hs.slots]) (by rw [hs.log]) hs.error h.running

/-- The first publications. -/
theorem fill_triple (hE : BspEnv b k c0 E) :
    Triple E (fun s => InLoop b k plan { counterBase := v } s ∧
        Unused k allSlots { counterBase := v } s)
      (.foldOver allSlots { counterBase := v } (publishNext b plan))
      fun l' => InLoop b k plan l' := by
  refine (Triple.foldOver (I := fun js l' s => js.Nodup ∧ InLoop b k plan l' s ∧ Unused k js l' s)
    (fun j js l' => Triple.lift fun hnd => ?_) allSlots _).conseq
      (fun s h => ⟨List.nodup_finRange _, h.1, h.2⟩) fun l' s h => h.2.1
  obtain ⟨hj, hnd⟩ := List.nodup_cons.1 hnd
  refine Triple.pre (H := fun s => l'.active j = false ∧ (InLoop b k plan l' s ∧ Ready k j s) ∧
    Unused k js l' s) (Triple.lift fun hact => ?_) fun s h => ?_
  · exact (publishNext_triple hE hact js hj).post fun l'' s h => ⟨hnd, h⟩
  · obtain ⟨hact, hun⟩ := h.2 j (by simp)
    refine ⟨hact, ⟨h.1, fun hk => h.1.books.settled hk j hact (by simp), fun hk h0 => ?_⟩,
      fun j' hj' => h.2 j' (by simp [hj'])⟩
    exact absurd (hun hk) h0

/-- **`run_ap_request_stream` up to its loop.** -/
theorem runApRequestStream_triple (hE : BspEnv b k c0 E) :
    Triple E (Startable k) (runApRequestStream b plan) (bspCut b k c0) := by
  refine .bind (R := fun v => Opening k v (List.finRange apRequestHistoryCount)) ?_ fun v => ?_
  · refine .swap (hE.stable fun _ _ => Startable.seen) fun s hs _ h =>
      ⟨hE.guar _ _ hs (.began plan h.first), ⟨h.settled, h.unused, h.first⟩, rfl, rfl, rfl, rfl, rfl, ?_⟩
    exact fun m hm => absurd (List.mem_finRange m) hm
  let l₀ : StreamLocals := { counterBase := v }
  let Empty (s : Machine) : Prop := InLoop b k plan l₀ s ∧ Unused k allSlots l₀ s
  have hempty : ∀ s s', ApSeen k s s' → Empty s → Empty s' := fun s s' hs h =>
    ⟨h.1.seen hs, h.2.seen hs⟩
  refine .bind (resetApQueueSummary_triple hE Opening.quiet) fun _ => ?_
  refine .bind (resetApRequestHistory_triple hE) fun _ => ?_
  refine .bind (R := fun _ => Opening k v []) ?_ fun _ => ?_
  · exact bsp_own hE Opening.quiet (fun _ => ⟨rfl, rfl, rfl, rfl, rfl, rfl, rfl, rfl, rfl⟩) fun _ => rfl
  refine .bind (R := fun _ => Empty) ?_ fun _ => ?_
  · exact Triple.pre (.forEach_keep fun i _ => resetSlot_triple hE) fun s h => h.tally
  refine .bind (apRequestStreamShouldStop_triple hE hempty) fun stop => ?_
  refine .cond (fun hst => ?_) fun _ => ?_
  · refine Triple.pre (H := InLoop b k plan l₀) ?_ fun s h => h.1.1
    refine .bind (bsp_read hE (fun _ _ => InLoop.seen) _) fun st => ?_
    refine .bind (bsp_own hE InLoop.quiet
      (fun _ => ⟨rfl, rfl, rfl, rfl, rfl, rfl, rfl, rfl, rfl⟩) fun _ => rfl) fun _ => ?_
    exact .ret fun s h => ⟨h.books, fun _ => rfl, by simp⟩
  · exact .bind ((fill_triple hE).pre fun s h => h.1) fun l' => .ret fun s h => h

/-! ## The broadcast ping -/

variable {isTarget : Bool} {counter : UInt32}

/-- What the ping knows about the other slots and the counter it saved. -/
structure Aside (k : Know) (c0 : UInt32) (isTarget : Bool) (counter : UInt32) (s : Machine) :
    Prop where
  settled : k.strong → ∀ i ≠ apBroadcastPingSlotIndex,
    (s.slots i).state ≠ .pending ∧ (s.slots i).state ≠ .running
  counter : k.strong → isTarget = true → CounterOk c0 s.log counter

theorem Aside.beside : Beside k apBroadcastPingSlotIndex (Aside k c0 isTarget counter) := by
  refine ⟨⟨fun s s' hs h => ⟨fun hk i hi => ?_, fun hk ht => (h.counter hk ht).grow hs.increments⟩,
    fun s s' hs _ h => ⟨?_, ?_⟩⟩, fun s f h => ⟨fun hk i hi => ?_, h.counter⟩⟩
  · obtain ⟨hp, hr⟩ := h.settled hk i hi
    exact ⟨fun hp' => hp (hs.pending i hp'), fun hr' => (hs.running i hr').elim hp hr⟩
  · rw [hs.slots]
    exact h.settled
  · rw [hs.log]
    exact h.counter
  · simpa [hi] using h.settled hk i hi

/-- Slot 0 holds a request. -/
def PingOut (s : Machine) : Prop := (s.slots apBroadcastPingSlotIndex).state ≠ .empty

/-- Slot 0 holds a finished request. -/
def PingBack (s : Machine) : Prop := (s.slots apBroadcastPingSlotIndex).state.finished = true

theorem PingOut.quiet : Quiet k PingOut :=
  ⟨fun _ _ hs => hs.nonempty _, fun _ _ hs _ h => by unfold PingOut; rw [hs.slots]; exact h⟩

theorem PingBack.quiet : Quiet k PingBack :=
  ⟨fun _ _ hs => hs.finished _, fun _ _ hs _ h => by unfold PingBack; rw [hs.slots]; exact h⟩

/-- A search over the memory that only reads. -/
theorem allOf_load_keep (hE : BspEnv b k c0 E) (hP : ∀ s s', ApSeen k s s' → P s → P s')
    (fs : List (Machine → Bool)) : Triple E P (.allOf fs .load) fun _ => P :=
  Triple.allOf (I := fun _ => P) (fun _ h => h)
    (fun f _ => (bsp_read hE hP f).post fun a s h => by simpa using h) fs

theorem recordApBroadcastPingResult_triple (hE : BspEnv b k c0 E) (hP : Quiet k P) (w : UInt32) :
    Triple E P (recordApBroadcastPingResult i w) fun _ => P := by
  have hown : ∀ g : Machine → ApBroadcastPingSummary,
      Triple E P (.store fun s => { s with pingSummary := g s }) fun _ => P := fun g =>
    bsp_own hE hP (fun _ => ⟨rfl, rfl, rfl, rfl, rfl, rfl, rfl, rfl, rfl⟩) fun _ => rfl
  refine .bind (.forEach_keep fun w _ => hown w) fun _ => ?_
  refine .bind (allOf_load_keep hE hP.seen _) fun ok => ?_
  exact .cond (fun _ => hown _) fun _ => hown _

/-- A store of `wait_loops` in slot 0. -/
theorem storeWaitLoops_triple (hE : BspEnv b k c0 E) {Q : Machine → Prop}
    (hP : Beside k apBroadcastPingSlotIndex P) (hQ : ∀ s s', ApSeen k s s' → Q s → Q s')
    (hm : ∀ s w, Q s → Q (s.setMetrics apBroadcastPingSlotIndex fun m => { m with waitLoops := w }))
    (w : UInt32) :
    Triple E (fun s => P s ∧ Q s)
      (.store fun s => s.setMetrics apBroadcastPingSlotIndex fun m => { m with waitLoops := w })
      fun _ s => P s ∧ Q s :=
  .store (hE.stable fun s s' hs h => ⟨hP.seen s s' hs h.1, hQ s s' hs h.2⟩) fun s hs _ h =>
    ⟨hE.guar _ _ hs (.waitLoops _ w), hP.slot s _ h.1, hm s w h.2⟩

/-- `timeout_ap_broadcast_ping_slot`. -/
theorem timeoutApBroadcastPingSlot_triple (hE : BspEnv b k c0 E) (hk : ¬ k.calm)
    (hP : Beside k apBroadcastPingSlotIndex P) :
    Triple E (fun s => P s ∧ PingOut s) (timeoutApBroadcastPingSlot b apBroadcastPingSlotIndex)
      fun _ s => P s ∧ PingBack s := by
  have hout : Quiet k fun s => P s ∧ PingOut s := hP.toQuiet.and PingOut.quiet
  have hwait : ∀ s w, PingOut s →
      PingOut (s.setMetrics apBroadcastPingSlotIndex fun m => { m with waitLoops := w }) :=
    fun s w h => by simpa [PingOut] using h
  refine .bind (storeWaitLoops_triple hE hP PingOut.quiet.seen hwait _) fun _ => ?_
  refine .bind (R := fun st s => (P s ∧ PingOut s) ∧ (st.finished = true → PingBack s)) ?_ fun st => ?_
  · exact .load (hE.stable hout.seen) hE.refl fun s _ h => ⟨h, fun hf => hf⟩
  refine .cond (fun hst => .ret fun s h => ⟨h.1.1, h.2 hst⟩) fun hst => ?_
  refine .bind (R := fun ok s => (P s ∧ PingOut s) ∧ (ok = true → PingBack s) ∧
    (ok = false → (s.slots apBroadcastPingSlotIndex).state ≠ .pending)) ?_ fun ok => ?_
  · refine Triple.pre (H := fun s => P s ∧ PingOut s) ?_ fun s h => h.1
    refine .swap (hE.stable hout.seen) fun s hs _ h => ?_
    by_cases hp : (s.slots apBroadcastPingSlotIndex).state = .pending
    · simp only [cmpxchgState, hp, if_true]
      exact ⟨hE.guar _ _ hs (.timeout _ hk (Or.inl hp)), ⟨hP.slot s _ h.1, by simp [PingOut]⟩,
        fun _ => by simp [PingBack]; rfl, by simp⟩
    · simp only [cmpxchgState, hp, if_false]
      exact ⟨hE.refl s hs, h, by simp, fun _ => hp⟩
  refine .cond (fun hok => .ret fun s h => ⟨h.1.1, h.2.1 hok⟩) fun hok => ?_
  refine .bind (R := fun _ s => P s ∧ PingBack s) ?_ fun _ => .ret fun s h => h
  · refine Triple.pre (H := fun s => (P s ∧ PingOut s) ∧
      (s.slots apBroadcastPingSlotIndex).state ≠ .pending) ?_ fun s h =>
        ⟨h.1, h.2.2 (by simpa using hok)⟩
    refine .swap (hE.stable fun s s' hs h => ⟨hout.seen s s' hs h.1, fun hp => h.2 (hs.pending _ hp)⟩)
      fun s hs _ h => ?_
    -- if both `cmpxchg` miss, the AP has finished the ping in between
    by_cases hr : (s.slots apBroadcastPingSlotIndex).state = .running
    · simp only [cmpxchgState, hr, if_true]
      exact ⟨hE.guar _ _ hs (.timeout _ hk (Or.inr hr)), hP.slot s _ h.1.1, by simp [PingBack]; rfl⟩
    · simp only [cmpxchgState, hr, if_false]
      exact ⟨hE.refl s hs, h.1.1, ApRequestStatus.finished_iff.2 ⟨h.1.2, h.2, hr⟩⟩

/-- The stores that put the target's counters back. -/
theorem restoreTarget_triple (hE : BspEnv b k c0 E) (hk : ¬ k.calm) (l : PingLocals)
    (hP : ∀ s s', ApSeen k s s' → P s → P s')
    (hcounter : ∀ s, P s → k.strong → l.isTarget = true → CounterOk c0 s.log l.targetCounterValue)
    (hnote : ∀ s v, P s → P ({ s with requestHandledCount := v }.note .restored))
    (hnote' : ∀ s v, P s → P ({ s with counterValue := v }.note .restored)) :
    Triple E P (restoreTarget l) fun _ => P := by
  refine .cond (fun ht => ?_) fun _ => .ret fun s h => h
  refine .bind (R := fun _ => P) ?_ fun _ => ?_
  · refine .store (hE.stable hP) fun s hs _ h => ⟨?_, hnote s _ h⟩
    exact hE.guar _ _ hs (.restoreHandled _ hk)
  · refine .store (hE.stable hP) fun s hs _ h => ⟨?_, hnote' s _ h⟩
    exact hE.guar _ _ hs (.restoreCounter _ hk fun hst => hcounter s h hst ht)

theorem settled_of_back {s : Machine} (h : Aside k c0 isTarget counter s) (hb : PingBack s)
    (hk : k.strong) : Settled s := by
  intro i
  by_cases hi : i = apBroadcastPingSlotIndex
  · subst hi
    obtain ⟨-, hp, hr⟩ := ApRequestStatus.finished_iff.1 hb
    exact ⟨hp, hr⟩
  · exact h.settled hk i hi

theorem InPing.aside {p : PingLocals} {s : Machine} (h : InPing k c0 p s) :
    Aside k c0 p.isTarget p.targetCounterValue s :=
  ⟨fun hk i hi => h.settled hk i (Or.inl hi), h.counter⟩

/-- **One round of the loop of `run_ap_broadcast_ping`.** -/
theorem pingRound_triple (hE : BspEnv b k c0 E) (hk : ¬ k.calm) (p : PingLocals) :
    Triple E (InPing k c0 p) (pingRound b p) (bspCut b k c0) := by
  have haside : Beside k apBroadcastPingSlotIndex
      (Aside k c0 p.isTarget p.targetCounterValue) := Aside.beside
  refine .cond (fun ha => ?_) fun _ => ?_
  · refine .bind (R := fun st s => InPing k c0 p s ∧ (st.finished = true → PingBack s)) ?_ fun st => ?_
    · exact .load (hE.stable fun _ _ => InPing.seen) hE.refl fun s _ h => ⟨h, fun hf => hf⟩
    refine .cond (fun hst => ?_) fun _ => .bind .any fun timer => .ret fun s h => ?_
    · have hback := haside.toQuiet.and (PingBack.quiet (k := k))
      have hwait : ∀ s w, PingBack s →
          PingBack (s.setMetrics apBroadcastPingSlotIndex fun m => { m with waitLoops := w }) :=
        fun s w h => by simpa [PingBack] using h
      refine .bind ((storeWaitLoops_triple hE haside PingBack.quiet.seen hwait _).pre
        fun s h => ⟨h.1.aside, h.2 hst⟩) fun _ => ?_
      refine .bind (recordApBroadcastPingResult_triple hE hback _) fun _ => .ret fun s h => ?_
      exact ⟨fun hs i _ => settled_of_back h.1 h.2 hs i, by simp, h.1.counter, hk⟩
    · exact ⟨h.1.settled, h.1.nonempty, h.1.counter, hk⟩
  · -- whether or not it was active, slot 0 is settled when the counters are put back
    let Over (s : Machine) : Prop := (k.strong → Settled s) ∧
      (k.strong → p.isTarget = true → CounterOk c0 s.log p.targetCounterValue)
    have hover : ∀ s s', ApSeen k s s' → Over s → Over s' := fun s s' hs h =>
      ⟨fun hk => (h.1 hk).seen hs, fun hk ht => (h.2 hk ht).grow hs.increments⟩
    refine .bind (R := fun _ => Over) (.cond (fun ha => ?_) fun ha => .ret fun s h => ?_) fun _ => ?_
    · refine .bind ((timeoutApBroadcastPingSlot_triple hE hk haside).pre
        fun s h => ⟨h.aside, h.nonempty ha⟩) fun _ => ?_
      exact (recordApBroadcastPingResult_triple hE (haside.toQuiet.and PingBack.quiet) _).post
        fun _ s h => ⟨fun hs => settled_of_back h.1 h.2 hs, h.1.counter⟩
    · exact ⟨fun hs i => h.settled hs i (Or.inr (by simpa using ha)), h.counter⟩
    refine .bind (restoreTarget_triple hE hk p hover (fun s h => h.2) (fun s v h => h) fun s v h => h)
      fun _ => ?_
    exact .ret fun s h => h.1

/-- **`run_ap_broadcast_ping` up to its loop.** -/
theorem runApBroadcastPing_triple (hE : BspEnv b k c0 E) (hk : ¬ k.calm) (isTarget : Bool) :
    Triple E (fun s => k.strong → Settled s) (runApBroadcastPing b isTarget) (bspCut b k c0) := by
  have hsettled : ∀ s s', ApSeen k s s' → (k.strong → Settled s) → k.strong → Settled s' :=
    fun s s' hs h hk => (h hk).seen hs
  refine .bind (R := fun _ s => k.strong → Settled s) (.cond (fun _ => bsp_read hE hsettled _)
    fun _ => .ret fun _ h => h) fun handled => ?_
  let Saved (counter : UInt32) (s : Machine) : Prop := Aside k c0 isTarget counter s ∧
    (k.strong → Settled s)
  have hsaved : ∀ counter, Quiet k (Saved counter) := fun counter =>
    Aside.beside.toQuiet.and ⟨hsettled, fun s s' hs _ h hk i => by rw [hs.slots]; exact h hk i⟩
  refine .bind (R := Saved) (.cond (fun ht => ?_) fun ht => .ret fun s h => ?_) fun counter => ?_
  · exact .load (hE.stable hsettled) hE.refl fun s hs h =>
      ⟨⟨fun hst i _ => h hst i, fun hst _ => (hE.inv s hs hst).counter⟩, h⟩
  · exact ⟨⟨fun hst i _ => h hst i, fun _ ht' => absurd ht' ht⟩, h⟩
  refine .bind (bsp_own hE (hsaved counter)
    (fun _ => ⟨rfl, rfl, rfl, rfl, rfl, rfl, rfl, rfl, rfl⟩) fun _ => rfl) fun _ => ?_
  refine .bind (allOf_load_keep hE (hsaved counter).seen _) fun accepts => ?_
  refine .bind (R := fun _ s => Aside k c0 isTarget counter s ∧ (accepts = true → PingOut s) ∧
    (accepts = false → k.strong → Settled s)) (.cond (fun hacc => ?_) fun hacc => .ret fun s h => ?_)
      fun _ => .ret fun s h => ⟨fun hst i hi => ?_, h.2.1, h.1.counter, hk⟩
  · have hout : Quiet k fun s => Aside k c0 isTarget counter s ∧ PingOut s :=
      Aside.beside.toQuiet.and PingOut.quiet
    refine .bind (R := fun _ s => Aside k c0 isTarget counter s ∧ PingOut s) ?_ fun _ =>
      Triple.post (K := fun _ s => Aside k c0 isTarget counter s ∧ PingOut s) (bsp_own hE hout
        (fun _ => ⟨rfl, rfl, rfl, rfl, rfl, rfl, rfl, rfl, rfl⟩) fun _ => rfl)
          fun _ s h => ⟨h.1, fun _ => h.2, by simp [hacc]⟩
    refine (publishApInboxRequest_triple hE Aside.beside fun s st h _ hst => ?_).pre fun s h =>
      ⟨h.1, fun hst => h.2 hst _, fun hc => absurd hc hk⟩
    refine ⟨⟨fun hs i hi => by simpa [publishState, hi] using h.settled hs i hi, h.counter⟩, ?_⟩
    rcases hst with rfl | rfl | rfl <;> simp [PingOut, publishState]
  · exact ⟨h.1, fun hacc' => absurd hacc' hacc, fun _ => h.2⟩
  · rcases hi with hi | hi
    · exact h.1.settled hst i hi
    · exact h.2.2 hi hst i

/-! ## All of the BSP's code -/

/-- **The BSP's code stays inside the protocol.** -/
theorem bspBody_triple (hE : BspEnv b k c0 E) {again : Bool} (hk : again = true → ¬ k.calm)
    (pc : BspPc) (p : Prog Machine BspPc) (hp : bspBody b again pc = some p) :
    Triple E (bspCut b k c0 pc) p (bspCut b k c0) := by
  cases pc with
  | next =>
    cases again with
    | false => cases hp
    | true =>
      cases hp
      refine .bind .any fun call => ?_
      cases call with
      | ping isTarget => exact runApBroadcastPing_triple hE (hk rfl) isTarget
      | stream plan =>
        exact (runApRequestStream_triple hE).pre fun s h =>
          ⟨h, fun hc => absurd hc (hk rfl), fun hc => absurd hc (hk rfl)⟩
  | streamLoop plan l => cases hp; exact streamRound_triple hE
  | streamReturned plan l result =>
    cases again with
    | false => cases hp
    | true =>
      cases hp
      exact .ret fun s h hst i => h.books.settled hst i (h.inactive i) (by simp)
  | pingLoop l =>
    cases hp
    exact fun s h => pingRound_triple hE h.notCalm l s h

end Walk

end VibeKernel

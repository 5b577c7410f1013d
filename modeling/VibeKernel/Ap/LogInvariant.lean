import VibeKernel.Ap.Protocol

/-!
# What every log satisfies

Publications are numbered without gaps or repeats, each is claimed at most once, and the AP's place
agrees with the runs and increments in the log.
-/

namespace VibeKernel

/-- The log hangs together. -/
structure LogInv (l : Log) : Prop where
  stamp : ∀ n i p st, Event.published n i p st ∈ l → n ≠ 0 ∧ n ≤ l.publications
  unique : ∀ n i j p q st st', Event.published n i p st ∈ l → Event.published n j q st' ∈ l →
    i = j ∧ p = q ∧ st = st'
  latest : ∀ i, l.latest i ≠ 0 → ∃ p st, Event.published (l.latest i) i p st ∈ l
  le_latest : ∀ n i p st, Event.published n i p st ∈ l → n ≤ l.latest i
  claimed : ∀ n ∈ l.claims, ∃ i p, Event.published n i p .pending ∈ l
  claimedOnce : l.claims.Nodup
  runs : ∀ n, n ∉ l.claims → l.runsOf n = []
  increments : ∀ n ∈ l.increments, n ∈ l.claims
  incrementedOnce : l.increments.Nodup
  held : ∀ n i, l.phase.held = some (n, i) →
    n ∈ l.claims ∧ ∃ p, Event.published n i p .pending ∈ l
  ran : ∀ n i r, l.phase = .ran n i r → l.runsOf n = [r]
  beforeRun : ∀ n i, l.phase.held = some (n, i) → l.phase.beforeRun = true → l.runsOf n = []
  beforeIncrement : ∀ n i, l.phase.held = some (n, i) → l.phase.beforeIncrement = true →
    n ∉ l.increments

theorem LogInv.nil : LogInv [] where
  stamp := by simp
  unique := by simp
  latest := by simp
  le_latest := by simp
  claimed := by simp
  claimedOnce := by simp
  runs := by simp
  increments := by simp
  incrementedOnce := by simp
  held := by simp
  ran := by simp
  beforeRun := by simp
  beforeIncrement := by simp

namespace LogInv

variable {l l' : Log} {n : Nat} {i : SlotIndex}

theorem latest_le (h : LogInv l) (i : SlotIndex) : l.latest i ≤ l.publications := by
  by_cases h0 : l.latest i = 0
  · omega
  · obtain ⟨p, st, hp⟩ := h.latest i h0
    exact (h.stamp _ _ _ _ hp).2

/-- Two slots never have the same latest publication. -/
theorem latest_inj (h : LogInv l) {i j : SlotIndex} (hi : l.latest i ≠ 0)
    (he : l.latest i = l.latest j) : i = j := by
  obtain ⟨p, st, hp⟩ := h.latest i hi
  obtain ⟨q, st', hq⟩ := h.latest j (he ▸ hi)
  exact (h.unique _ _ _ _ _ _ _ hp (he ▸ hq)).1

/-- The publication the AP holds is the latest of no other slot. -/
theorem held_slot (h : LogInv l) {j : SlotIndex} (hh : l.phase.held = some (n, i))
    (hj : l.latest j = n) : j = i := by
  obtain ⟨-, p, hp⟩ := h.held n i hh
  have hn : l.latest j ≠ 0 := hj ▸ (h.stamp _ _ _ _ hp).1
  obtain ⟨q, st, hq⟩ := h.latest j hn
  exact (h.unique _ _ _ _ _ _ _ (hj ▸ hq) hp).1

/-- An event that claims nothing, runs nothing and increments nothing. -/
theorem keep (h : LogInv l) (hb : l.SameBsp l') (hc : l'.claims = l.claims)
    (hr : ∀ n, l'.runsOf n = l.runsOf n) (hi : l'.increments = l.increments)
    (hh : ∀ n i, l'.phase.held = some (n, i) → l.phase.held = some (n, i))
    (hran : ∀ n i r, l'.phase = .ran n i r → l.phase = .ran n i r)
    (hbr : l'.phase.beforeRun = true → l.phase.beforeRun = true)
    (hbi : l'.phase.beforeIncrement = true → l.phase.beforeIncrement = true) : LogInv l' where
  stamp n i p st hp := by
    rw [hb.publications]
    exact h.stamp n i p st ((hb.published ..).1 hp)
  unique n i j p q st st' hp hq :=
    h.unique n i j p q st st' ((hb.published ..).1 hp) ((hb.published ..).1 hq)
  latest i hi := by
    rw [hb.latest] at hi ⊢
    obtain ⟨p, st, hp⟩ := h.latest i hi
    exact ⟨p, st, (hb.published ..).2 hp⟩
  le_latest n i p st hp := by
    rw [hb.latest]
    exact h.le_latest n i p st ((hb.published ..).1 hp)
  claimed n hn := by
    obtain ⟨i, p, hp⟩ := h.claimed n (hc ▸ hn)
    exact ⟨i, p, (hb.published ..).2 hp⟩
  claimedOnce := hc ▸ h.claimedOnce
  runs n hn := by rw [hr]; exact h.runs n (hc ▸ hn)
  increments n hn := by rw [hc]; exact h.increments n (hi ▸ hn)
  incrementedOnce := hi ▸ h.incrementedOnce
  held n i hn := by
    obtain ⟨hcl, p, hp⟩ := h.held n i (hh n i hn)
    exact ⟨hc ▸ hcl, p, (hb.published ..).2 hp⟩
  ran n i r hn := by rw [hr]; exact h.ran n i r (hran n i r hn)
  beforeRun n i hn hb' := by rw [hr]; exact h.beforeRun n i (hh n i hn) (hbr hb')
  beforeIncrement n i hn hb' := by
    rw [hi]; exact h.beforeIncrement n i (hh n i hn) (hbi hb')

/-- A BSP event other than a publication. -/
theorem mark (h : LogInv l) {e : Event} (he : e.byAp = false)
    (hp : ∀ n i p st, e ≠ .published n i p st) : LogInv (e :: l) := by
  have ha := Log.SameAp.cons he l
  have hb : ∀ n i p st, Event.published n i p st ∈ e :: l ↔ Event.published n i p st ∈ l := by
    intro n i p st
    simp only [List.mem_cons, or_iff_right_iff_imp]
    exact fun heq => absurd heq.symm (hp n i p st)
  have hpub : Log.publications (e :: l) = l.publications := by
    cases e <;> first | rfl | exact (hp _ _ _ _ rfl).elim
  have hlat : ∀ i, Log.latest i (e :: l) = l.latest i := by
    intro i
    cases e <;> first | rfl | exact (hp _ _ _ _ rfl).elim
  refine ⟨?_, ?_, ?_, ?_, ?_, ?_, ?_, ?_, ?_, ?_, ?_, ?_, ?_⟩
  · simpa only [hb, hpub] using h.stamp
  · simpa only [hb] using h.unique
  · simpa only [hb, hlat] using h.latest
  · simpa only [hb, hlat] using h.le_latest
  · simpa only [hb, ha.claims] using h.claimed
  · simpa only [ha.claims] using h.claimedOnce
  · simpa only [ha.claims, ha.runsOf] using h.runs
  · simpa only [ha.claims, ha.increments] using h.increments
  · simpa only [ha.increments] using h.incrementedOnce
  · simpa only [hb, ha.claims, ha.phase] using h.held
  · simpa only [ha.phase, ha.runsOf] using h.ran
  · simpa only [ha.phase, ha.runsOf] using h.beforeRun
  · simpa only [ha.phase, ha.increments] using h.beforeIncrement

theorem published (h : LogInv l) (i : SlotIndex) (p : ApRequestPlan) (st : ApRequestStatus) :
    LogInv (.published (l.publications + 1) i p st :: l) := by
  -- the number is new, since all in the log are at most the number of publications
  have hnew : ∀ j q st', Event.published (l.publications + 1) j q st' ∉ l := by
    intro j q st' hm
    have := (h.stamp _ _ _ _ hm).2
    omega
  refine { h with stamp := ?_, unique := ?_, latest := ?_, le_latest := ?_, claimed := ?_, held := ?_ }
  · intro n j q st' hm
    rcases List.mem_cons.1 hm with heq | hm
    · simp only [Event.published.injEq] at heq
      simp [heq.1]
    · have := h.stamp n j q st' hm
      simp only [Log.publications]
      omega
  · intro n j j' q q' st' st'' hm hm'
    rcases List.mem_cons.1 hm with heq | hm <;> rcases List.mem_cons.1 hm' with heq' | hm'
    · simp only [Event.published.injEq] at heq heq'
      simp [heq, heq']
    · simp only [Event.published.injEq] at heq
      exact absurd (heq.1 ▸ hm') (hnew _ _ _)
    · simp only [Event.published.injEq] at heq'
      exact absurd (heq'.1 ▸ hm) (hnew _ _ _)
    · exact h.unique n j j' q q' st' st'' hm hm'
  · intro j hj
    by_cases hij : i = j
    · subst hij
      exact ⟨p, st, by simp⟩
    · simp only [Log.latest, hij, if_false] at hj ⊢
      obtain ⟨q, st', hq⟩ := h.latest j hj
      exact ⟨q, st', List.mem_cons_of_mem _ hq⟩
  · intro n j q st' hm
    rcases List.mem_cons.1 hm with heq | hm
    · simp only [Event.published.injEq] at heq
      simp [heq.1, heq.2.1]
    · have hle := (h.stamp n j q st' hm).2
      have := h.le_latest n j q st' hm
      by_cases hij : i = j
      · simp only [Log.latest, hij, if_true]
        omega
      · simpa only [Log.latest, hij, if_false] using this
  · intro n hn
    obtain ⟨j, q, hq⟩ := h.claimed n hn
    exact ⟨j, q, List.mem_cons_of_mem _ hq⟩
  · intro n j hn
    obtain ⟨hc, q, hq⟩ := h.held n j hn
    exact ⟨hc, q, List.mem_cons_of_mem _ hq⟩

theorem claim (h : LogInv l) (hn : n ∉ l.claims) (hp : ∃ p, Event.published n i p .pending ∈ l) :
    LogInv (.claimed n i :: l) := by
  obtain ⟨p, hp⟩ := hp
  have hb := Log.SameBsp.cons (e := .claimed n i) rfl l
  refine ⟨?_, ?_, ?_, ?_, ?_, ?_, ?_, ?_, ?_, ?_, ?_, ?_, ?_⟩
  · simpa only [hb.published, hb.publications] using h.stamp
  · simpa only [hb.published] using h.unique
  · simpa only [hb.published, hb.latest] using h.latest
  · simpa only [hb.published, hb.latest] using h.le_latest
  · intro m hm
    rcases List.mem_cons.1 hm with rfl | hm
    · exact ⟨i, p, List.mem_cons_of_mem _ hp⟩
    · obtain ⟨j, q, hq⟩ := h.claimed m hm
      exact ⟨j, q, List.mem_cons_of_mem _ hq⟩
  · exact List.nodup_cons.2 ⟨hn, h.claimedOnce⟩
  · intro m hm
    exact h.runs m fun hc => hm (List.mem_cons_of_mem _ hc)
  · intro m hm
    exact List.mem_cons_of_mem _ (h.increments m hm)
  · exact h.incrementedOnce
  · rintro m j ⟨⟩
    exact ⟨by simp, p, List.mem_cons_of_mem _ hp⟩
  · rintro m j r ⟨⟩
  · rintro m j ⟨⟩ -
    exact h.runs n hn
  · rintro m j ⟨⟩ - hm
    exact hn (h.increments n hm)

theorem increment (h : LogInv l) {svc ifc : UInt64} {hd : Option ApRequestHandler}
    (hp : l.phase = .lookedUp n i svc ifc hd) : LogInv (.incremented n i :: l) := by
  have hh : l.phase.held = some (n, i) := by simp [hp]
  refine ⟨by simpa using h.stamp, by simpa using h.unique, by simpa using h.latest,
    by simpa using h.le_latest,
    by simpa using h.claimed, h.claimedOnce, h.runs, ?_, ?_, ?_, ?_, ?_, ?_⟩
  · intro m hm
    rcases List.mem_cons.1 hm with rfl | hm
    · exact (h.held _ _ hh).1
    · exact h.increments m hm
  · exact List.nodup_cons.2 ⟨h.beforeIncrement n i hh (by simp [hp]), h.incrementedOnce⟩
  · rintro m j ⟨⟩
    simpa using h.held n i hh
  · rintro m j r ⟨⟩
  · rintro m j ⟨⟩ -
    exact h.beforeRun n i hh (by simp [hp])
  · rintro m j ⟨⟩ hb
    exact absurd hb (by simp)

theorem run (h : LogInv l) {r : HandlerRun} {hd : ApRequestHandler}
    (hp : l.phase = .counted n i hd) : LogInv (.ran n i r :: l) := by
  have hh : l.phase.held = some (n, i) := by simp [hp]
  have hn : n ∈ l.claims := (h.held n i hh).1
  refine ⟨by simpa using h.stamp, by simpa using h.unique, by simpa using h.latest,
    by simpa using h.le_latest,
    by simpa using h.claimed, h.claimedOnce, ?_, h.increments, h.incrementedOnce, ?_, ?_, ?_, ?_⟩
  · intro m hm
    have hne : n ≠ m := fun heq => hm (heq ▸ hn)
    simp [hne, h.runs m hm]
  · rintro m j ⟨⟩
    simpa using h.held n i hh
  · rintro m j r' ⟨⟩
    simp [h.beforeRun n i hh (by simp [hp])]
  · rintro m j ⟨⟩ hb
    exact absurd hb (by simp)
  · rintro m j ⟨⟩ hb
    exact absurd hb (by simp)

end LogInv

/-- **The AP keeps the log sound**, provided a pending slot is published and unclaimed. -/
theorem LogInv.apAct {b : Build} {c0 : UInt32} {s s' : Machine} (h : LogInv s.log)
    (ha : ApAct b c0 s s') (hpend : ∀ i, (s.slots i).state = .pending →
      s.log.latest i ∉ s.log.claims ∧ ∃ p, Event.published (s.log.latest i) i p .pending ∈ s.log) :
    LogInv s'.log := by
  cases ha with
  | own hs => rw [hs.log]; exact h
  | dropCurrent | goOnline | backOnline | reply | metrics | badOp | faultVector | faultReply
  | faultSlot => exact h
  | claim i hp hs => exact h.claim (hpend i hs).1 (hpend i hs).2
  | increment v hp => exact h.increment hp
  | run hp => exact h.run hp
  | take hp | readService hp | lookUp hp | rereadService hp | miss hp | halt hp =>
    exact h.keep (.cons rfl _) rfl (fun _ => rfl) rfl (by simp [hp]) (by simp) (by simp [hp])
      (by simp [hp])
  | count v hp =>
    rcases hp with ⟨svc, ifc, hp, -⟩ | ⟨hp, -⟩ <;>
    exact h.keep (.cons rfl _) rfl (fun _ => rfl) rfl (by simp [hp]) (by simp) (by simp [hp])
      (by simp)
  | complete hp | reject hp =>
    exact h.keep (.cons rfl _) rfl (fun _ => rfl) rfl (by simp) (by simp) (by simp) (by simp)
  | fault v =>
    exact h.keep (.cons rfl _) rfl (fun _ => rfl) rfl (by simp) (by simp) (by simp) (by simp)
  | post hp =>
    exact h.keep (.cons rfl _) rfl (fun _ => rfl) rfl (by simp) (by simp) (by simp) (by simp)

/-- **The BSP keeps the log sound.** -/
theorem LogInv.bspAct {b : Build} {k : Know} {c0 : UInt32} {s s' : Machine} (h : LogInv s.log)
    (ha : BspAct b k c0 s s') : LogInv s'.log := by
  cases ha with
  | own hs => rw [hs.log]; exact h
  | mark e he =>
    refine h.mark (Event.not_byAp_of_isMark he) ?_
    rintro n i p st rfl
    simp [Event.isMark] at he
  | began | overdue | finish | restoreHandled | restoreCounter => exact h.mark rfl (by simp)
  | reset | prepare | waitLoops | stopReply | stopFault | stopSkip | timeout => exact h
  | publish => exact h.published _ _ _

end VibeKernel

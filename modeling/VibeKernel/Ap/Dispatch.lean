import VibeKernel.Ap.Done
import Mathlib.Data.List.Perm.Subperm

/-!
# What the AP dispatches

The AP reads the two ids of a request from the slot after its claim, in separate reads. The claim keeps
nobody from rewriting the header: a request that timed out is reset and published again while the
AP still reads.

`idsKept` says that this does not happen. Then every id the AP acts on is one of the publication it
claimed, and that is an invariant of the log alone: `Event.Faithful`.
-/

namespace VibeKernel

open Conc

/-! ## The ids that the AP is still going to read -/

/-- The ids of the slot that the AP holds and still reads from are as before. -/
def KeepsIds (s s' : Machine) : Prop :=
  s.log.phase.readsIds = true → ∀ h ∈ s.log.phase.held,
    (s'.slots h.2).request.serviceId = (s.slots h.2).request.serviceId ∧
      (s'.slots h.2).request.interfaceId = (s.slots h.2).request.interfaceId

instance (s s' : Machine) : Decidable (KeepsIds s s') := by
  unfold KeepsIds
  cases s.log.phase.held <;> simp only [Option.mem_def] <;> infer_instance

/-- The BSP changes no id that the AP is still going to read. -/
def idsKept : Cpu → Machine → Machine → Prop
  | .ap, _, _ => True
  | .bsp, s, s' => KeepsIds s s'

instance (t : Cpu) (s s' : Machine) : Decidable (idsKept t s s') := by
  cases t <;> unfold idsKept <;> infer_instance

/-! ## What an event says -/

/-- Publication `n` of slot `i` is of `p`, and was claimed. -/
abbrev Log.PublishedAs (l : Log) (n : Nat) (i : SlotIndex) (p : ApRequestPlan) : Prop :=
  Event.published n i p .pending ∈ l

/-- The ids in the event are those of the publication it is stamped with, and the handler is theirs. -/
def Event.Faithful (b : Build) (l : Log) : Event → Prop
  | .readService n i svc => ∃ p, l.PublishedAs n i p ∧ svc = p.serviceId
  | .lookedUp n i svc ifc h => (∃ p, l.PublishedAs n i p ∧ svc = p.serviceId ∧ ifc = p.interfaceId) ∧
      h = findApRequestHandler b svc ifc
  | .rereadService n i svc => ∃ p, l.PublishedAs n i p ∧ svc = p.serviceId ∧
      findApRequestHandler b p.serviceId p.interfaceId = none
  | .missed n i svc ifc => ∃ p, l.PublishedAs n i p ∧ svc = p.serviceId ∧ ifc = p.interfaceId ∧
      findApRequestHandler b p.serviceId p.interfaceId = none
  | .halted n i => ∃ p, l.PublishedAs n i p ∧ findApRequestHandler b p.serviceId p.interfaceId = none
  | .incremented n i => ∃ p, l.PublishedAs n i p ∧
      findApRequestHandler b p.serviceId p.interfaceId = some .counterIncrement
  | _ => True

/-- A longer log says more. -/
theorem Event.Faithful.mono {b : Build} {l l' : Log} {e : Event}
    (hl : ∀ n i p st, Event.published n i p st ∈ l → Event.published n i p st ∈ l')
    (h : e.Faithful b l) : e.Faithful b l' := by
  cases e with
  | lookedUp n i svc ifc hd =>
    obtain ⟨⟨p, hp, hids⟩, hhandler⟩ := h
    exact ⟨⟨p, hl _ _ _ _ hp, hids⟩, hhandler⟩
  | readService | rereadService | missed | halted | incremented =>
    obtain ⟨p, hp, h⟩ := h
    exact ⟨p, hl _ _ _ _ hp, h⟩
  | _ => trivial

/-- The AP's place comes from an event in the log. -/
theorem Log.phase_mem (l : Log) : match l.phase with
    | .readService n i svc => Event.readService n i svc ∈ l
    | .lookedUp n i svc ifc h => Event.lookedUp n i svc ifc h ∈ l
    | .rereadService n i svc => Event.rereadService n i svc ∈ l
    | .missed n i svc ifc => Event.missed n i svc ifc ∈ l
    | _ => True := by
  induction l with
  | nil => trivial
  | cons e l ih =>
    cases e with
    | streamBegan | published | visited | inspected | visitEnded | overdue | finished | restored
    | faultPosted =>
      simp only [Log.phase]
      split at ih <;> simp_all
    | _ => simp

section Step

variable {b : Build} {k : Know} {c0 : UInt32} {s s' : Machine}

/-- The AP acts on the ids of what it claimed. -/
structure Dispatching (b : Build) (s : Machine) : Prop where
  events : ∀ e ∈ s.log, e.Faithful b s.log
  reads : s.log.phase.readsIds = true → ∀ n i, s.log.phase.held = some (n, i) →
    ∃ p, s.log.PublishedAs n i p ∧ (s.slots i).request.serviceId = p.serviceId ∧
      (s.slots i).request.interfaceId = p.interfaceId

/-- One more event of the AP. -/
theorem Dispatching.cons (h : Dispatching b s) {e : Event} (he : e.byAp = true)
    (hf : e.Faithful b s.log) : ∀ d ∈ e :: s.log, d.Faithful b (e :: s.log) := by
  have hb := Log.SameBsp.cons he s.log
  intro d hd
  refine Event.Faithful.mono (fun n i p st hp => (hb.published n i p st).2 hp) ?_
  rcases List.mem_cons.1 hd with rfl | hd
  · exact hf
  · exact h.events d hd

/-- What the log of the BSP's step is. -/
theorem BspAct.log_eq (ha : BspAct b k c0 s s') :
    s'.log = s.log ∨ ∃ e, e.byAp = false ∧ s'.log = e :: s.log := by
  cases ha with
  | own hs => exact Or.inl hs.log
  | mark e he => exact Or.inr ⟨e, Event.not_byAp_of_isMark he, rfl⟩
  | began | overdue | finish | restoreHandled | restoreCounter | publish => exact Or.inr ⟨_, rfl, rfl⟩
  | reset | prepare | waitLoops | stopReply | stopFault | stopSkip | timeout => exact Or.inl rfl

theorem Event.faithful_of_not_byAp {e : Event} (he : e.byAp = false) (l : Log) : e.Faithful b l := by
  cases e <;> simp_all [Event.byAp, Event.Faithful]

/-- The BSP leaves the ids alone. -/
theorem Dispatching.bspAct (h : Dispatching b s) (hk : KeepsIds s s') (ha : BspAct b k c0 s s') :
    Dispatching b s' := by
  have hsame : s.log.SameAp s'.log ∧ (∀ e ∈ s.log, e ∈ s'.log) ∧
      ∀ e ∈ s'.log, e ∈ s.log ∨ e.byAp = false := by
    rcases ha.log_eq with hl | ⟨e, he, hl⟩ <;> rw [hl]
    · exact ⟨.refl _, fun _ => id, fun _ => Or.inl⟩
    · exact ⟨.cons he _, fun _ => List.mem_cons_of_mem _, fun d hd =>
        (List.mem_cons.1 hd).elim (fun hde => Or.inr (hde ▸ he)) Or.inl⟩
  obtain ⟨hap, hold, hnew⟩ := hsame
  refine ⟨fun e he => ?_, fun hr n i hh => ?_⟩
  · rcases hnew e he with he | he
    · exact (h.events e he).mono fun n i p st hp => hold _ hp
    · exact Event.faithful_of_not_byAp he _
  · rw [hap.phase] at hr hh
    obtain ⟨p, hp, hsvc, hifc⟩ := h.reads hr n i hh
    obtain ⟨hsvc', hifc'⟩ := hk hr (n, i) hh
    exact ⟨p, hold _ hp, hsvc'.trans hsvc, hifc'.trans hifc⟩

/-- Where the AP still reads ids, it has just claimed the slot or read them before. -/
theorem ApAct.readsIds (ha : ApAct b c0 s s') (hr : s'.log.phase.readsIds = true) {n : Nat}
    {i : SlotIndex} (hh : s'.log.phase.held = some (n, i)) :
    s.log.phase.readsIds = true ∧ s.log.phase.held = some (n, i) ∨
      n = s.log.latest i ∧ (s.slots i).state = .pending := by
  cases ha with
  | own hs => rw [hs.log] at hr hh; exact Or.inl ⟨hr, hh⟩
  | claim j hp hj =>
    obtain ⟨rfl, rfl⟩ : s.log.latest j = n ∧ j = i := by simpa using hh
    exact Or.inr ⟨rfl, hj⟩
  | take hp | readService hp | rereadService hp =>
    rw [hp]
    exact Or.inl ⟨rfl, hh⟩
  | lookUp hp =>
    rw [hp]
    exact Or.inl ⟨rfl, hh⟩
  | increment | count | run | complete | reject | miss | halt | fault => simp at hr
  | post hp => simp [hp] at hr
  | _ => exact Or.inl ⟨hr, hh⟩

/-- **The AP acts on what it reads.** -/
theorem Dispatching.apAct (hm : MachineInv b c0 s) (h : Dispatching b s) (ha : ApAct b c0 s s') :
    Dispatching b s' := by
  have htouch := ha.touch
  refine ⟨?_, fun hr n i hh => ?_⟩
  · -- What the AP read is in its phase; a number is published once (`unique`), so both ids are
    -- of one plan.
    have hphase := s.log.phase_mem
    cases ha with
    | own hs => rw [hs.log]; exact h.events
    | dropCurrent | goOnline | backOnline | reply | metrics | badOp | faultVector | faultReply
    | faultSlot => exact h.events
    | claim | take | count | run | complete | reject | fault | post => exact h.cons rfl trivial
    | readService hp =>
      obtain ⟨p, hpub, hsvc, -⟩ := h.reads (by rw [hp]; rfl) _ _ (by rw [hp]; rfl)
      exact h.cons rfl ⟨p, hpub, hsvc⟩
    | lookUp hp =>
      obtain ⟨p, hpub, -, hifc⟩ := h.reads (by rw [hp]; rfl) _ _ (by rw [hp]; rfl)
      rw [hp] at hphase
      obtain ⟨q, hq, hsvc⟩ := h.events _ hphase
      obtain ⟨-, rfl, -⟩ := hm.log.unique _ _ _ _ _ _ _ hpub hq
      exact h.cons rfl ⟨⟨p, hpub, hsvc, hifc⟩, rfl⟩
    | increment v hp =>
      rw [hp] at hphase
      obtain ⟨⟨p, hpub, rfl, rfl⟩, hfind⟩ := h.events _ hphase
      exact h.cons rfl ⟨p, hpub, hfind.symm⟩
    | rereadService hp =>
      obtain ⟨p, hpub, hsvc, -⟩ := h.reads (by rw [hp]; rfl) _ _ (by rw [hp]; rfl)
      rw [hp] at hphase
      obtain ⟨⟨q, hq, rfl, rfl⟩, hfind⟩ := h.events _ hphase
      obtain ⟨-, rfl, -⟩ := hm.log.unique _ _ _ _ _ _ _ hpub hq
      exact h.cons rfl ⟨p, hpub, hsvc, hfind.symm⟩
    | miss hp =>
      obtain ⟨p, hpub, -, hifc⟩ := h.reads (by rw [hp]; rfl) _ _ (by rw [hp]; rfl)
      rw [hp] at hphase
      obtain ⟨q, hq, hsvc, hfind⟩ := h.events _ hphase
      obtain ⟨-, rfl, -⟩ := hm.log.unique _ _ _ _ _ _ _ hpub hq
      exact h.cons rfl ⟨p, hpub, hsvc, hifc, hfind⟩
    | halt hp =>
      rw [hp] at hphase
      obtain ⟨p, hpub, -, -, hfind⟩ := h.events _ hphase
      exact h.cons rfl ⟨p, hpub, hfind⟩
  · -- a slot that is claimed holds the header of what was published in it
    have hpub : ∀ {n i p st}, Event.published n i p st ∈ s.log → Event.published n i p st ∈ s'.log :=
      fun hp => (htouch.log.published _ _ _ _).2 hp
    rw [htouch.request i]
    rcases ha.readsIds hr hh with ⟨hr', hh'⟩ | ⟨rfl, hst⟩
    · obtain ⟨p, hp, hids⟩ := h.reads hr' n i hh'
      exact ⟨p, hpub hp, hids⟩
    · obtain ⟨p, hp, hreq⟩ := (hm.slot i).header (Or.inl hst)
      exact ⟨p, hpub hp, by rw [hreq]; rfl, by rw [hreq]; rfl⟩

end Step

/-! ## The claim -/

/-- The plan names the counter's increment. -/
def ApRequestPlan.namesCounter (p : ApRequestPlan) : Bool :=
  p.serviceId == apRequestServiceCounter && p.interfaceId == apRequestInterfaceCounterIncrement

/-- The AP dispatched only what it claimed. -/
structure DispatchesClaimed (b : Build) (c0 : UInt32) (s : Machine) : Prop where
  lookedUp : ∀ n i svc ifc h, Event.lookedUp n i svc ifc h ∈ s.log →
    (∃ p, s.log.PublishedAs n i p ∧ svc = p.serviceId ∧ ifc = p.interfaceId) ∧
      h = findApRequestHandler b svc ifc
  missed : ∀ n i svc ifc, Event.missed n i svc ifc ∈ s.log →
    ∃ p, s.log.PublishedAs n i p ∧ svc = p.serviceId ∧ ifc = p.interfaceId
  unregistered : ∀ n i, Event.halted n i ∈ s.log → ∃ m j p st, Event.published m j p st ∈ s.log ∧
    findApRequestHandler b p.serviceId p.interfaceId = none
  counter : ∃ m ≤ (s.log.publishedWith ApRequestPlan.namesCounter).length,
    s.counterValue = c0 + UInt32.ofNat m

theorem Log.mem_publishedWith {f : ApRequestPlan → Bool} {l : Log} {n : Nat} :
    n ∈ l.publishedWith f ↔ ∃ i p st, Event.published n i p st ∈ l ∧ f p = true := by
  induction l with
  | nil => simp
  | cons e l ih =>
    cases e with
    | published m j q st =>
      simp only [Log.publishedWith, List.mem_cons, Event.published.injEq]
      split
      · rename_i hf
        rw [List.mem_cons, ih]
        constructor
        · rintro (rfl | ⟨i, p, st', hp, hfp⟩)
          · exact ⟨j, q, st, Or.inl ⟨rfl, rfl, rfl, rfl⟩, hf⟩
          · exact ⟨i, p, st', Or.inr hp, hfp⟩
        · rintro ⟨i, p, st', ⟨rfl, -⟩ | hp, hfp⟩
          · exact Or.inl rfl
          · exact Or.inr ⟨i, p, st', hp, hfp⟩
      · rename_i hf
        rw [ih]
        constructor
        · rintro ⟨i, p, st', hp, hfp⟩
          exact ⟨i, p, st', Or.inr hp, hfp⟩
        · rintro ⟨i, p, st', ⟨-, -, rfl, -⟩ | hp, hfp⟩
          · exact absurd hfp hf
          · exact ⟨i, p, st', hp, hfp⟩
    | _ => simp [ih]

/-- The log counts every increment to a published request of the counter. -/
theorem Dispatching.dispatchesClaimed {b : Build} {c0 : UInt32} {s : Machine} (hm : MachineInv b c0 s)
    (hinc : ∀ n ∈ s.log.increments, ∃ i, Event.incremented n i ∈ s.log) (h : Dispatching b s) :
    DispatchesClaimed b c0 s where
  lookedUp n i svc ifc hd he := h.events _ he
  missed n i svc ifc he := by
    obtain ⟨p, hp, hsvc, hifc, -⟩ := h.events _ he
    exact ⟨p, hp, hsvc, hifc⟩
  unregistered n i he := by
    obtain ⟨p, hp, hfind⟩ := h.events _ he
    exact ⟨n, i, p, _, hp, hfind⟩
  counter := by
    obtain ⟨m, hle, hv⟩ := hm.counter
    refine ⟨m, hle.trans (List.Nodup.subperm hm.log.incrementedOnce fun n hn => ?_).length_le, hv⟩
    obtain ⟨i, he⟩ := hinc n hn
    obtain ⟨p, hp, hfind⟩ := h.events _ he
    obtain ⟨hsvc, hifc⟩ := findApRequestHandler_eq_counterIncrement_iff.1 hfind
    exact Log.mem_publishedWith.2 ⟨i, p, _, hp, by simp [ApRequestPlan.namesCounter, hsvc, hifc]⟩

theorem Log.incremented_mem (l : Log) : ∀ n ∈ l.increments, ∃ i, Event.incremented n i ∈ l := by
  induction l with
  | nil => simp
  | cons e l ih =>
    intro n hn
    cases e with
    | incremented m j =>
      rcases List.mem_cons.1 hn with rfl | hn
      · exact ⟨j, by simp⟩
      · obtain ⟨i, hi⟩ := ih n hn
        exact ⟨i, List.mem_cons_of_mem _ hi⟩
    | _ =>
      obtain ⟨i, hi⟩ := ih n hn
      exact ⟨i, List.mem_cons_of_mem _ hi⟩

/-- **The AP dispatches only what it claimed**, when nobody changes an id it is still going to read. -/
theorem dispatchesClaimed_of_reach (b : Build) {s : Machine} {c : (apSystem b true).Config} {pc : ApPc}
    (hs : Fresh s) (hpc : pc.looping = true)
    (hr : (apSystem b true).Reach idsKept (apConfig b true s (.ret pc) (.ret .next)) c) :
    DispatchesClaimed b s.counterValue c.mem := by
  have hholds := anyCalls_holds b hs hpc
  have hinv : MachineInv b s.counterValue c.mem :=
    ((Outline.sound (anyCalls b s.counterValue).valid hholds (hr.mono fun _ _ _ _ => trivial)).inv).machine
  have hstart : Dispatching b s := by
    refine ⟨fun e he => ?_, fun hr => ?_⟩
    · rw [hs.log] at he
      cases he
    · rw [hs.log] at hr
      cases hr
  have hdispatching : Dispatching b c.mem := by
    refine Outline.invariant (anyCalls b s.counterValue).valid (fun _ _ _ _ => trivial)
      (fun t a a' ha hJ hok hg => ?_) hholds hstart hr
    cases t with
    | ap => exact hJ.apAct ha.machine hg
    | bsp => exact hJ.bspAct hok hg
  exact hdispatching.dispatchesClaimed hinv (Log.incremented_mem _)

/-- A ping, from its publication to the lookup of its handler. -/
theorem dispatchesClaimed_of_reach_ping : ∃ c : (apSystem {} true).Config,
    (apSystem {} true).Reach idsKept (apConfig {} true {} (.ret (.scan 0 false)) (.ret .next)) c ∧
      Machine.just (fun e => e matches .lookedUp ..) c.mem = true ∧ DispatchesClaimed {} 0 c.mem := by
  obtain ⟨c, hr, hlast⟩ : ∃ c : (apSystem {} true).Config, (apSystem {} true).Reach idsKept
      (apConfig {} true {} (.ret (.scan 0 false)) (.ret .next)) c ∧
        Machine.just Event.isLookedUp c.mem = true := by
    refine System.exists_reach [calls (.stream [broadcastPingPlan {}]),
      goesOn .bsp Event.isPublished, goesOn .ap Event.isLookedUp] ?_
    decide +kernel
  exact ⟨c, hr, hlast, dispatchesClaimed_of_reach {} .default rfl hr⟩

/-! ## A request that is published while the AP reads the last one -/

/-- A lookup under publication `n` that finds the counter. -/
def Event.looksUpCounter (n : Nat) : Event → Bool
  | .lookedUp m _ svc _ _ => m == n && svc == apRequestServiceCounter
  | _ => false

/-- Publication `n` names the counter. -/
def Event.publishesCounter (n : Nat) : Event → Bool
  | .published m _ p _ => m == n && p.serviceId == apRequestServiceCounter
  | _ => false

/-- The ping that the AP claimed times out, the slot is published again, and the AP looks up the new
request under the old claim. -/
theorem not_dispatchesClaimed : ¬ ∀ (b : Build) (s : Machine) (c : (apSystem b true).Config) (pc : ApPc),
    Fresh s → pc.looping = true →
    (apSystem b true).Reach anyAccess (apConfig b true s (.ret pc) (.ret .next)) c →
      DispatchesClaimed b s.counterValue c.mem := by
  intro h
  obtain ⟨c, hr, hlook, hnone⟩ : ∃ c : (apSystem hastyBuild true).Config,
      (apSystem hastyBuild true).Reach anyAccess
        (apConfig hastyBuild true {} (.ret (.scan 0 false)) (.ret .next)) c ∧
          c.mem.log.any (Event.looksUpCounter 1) = true ∧
            c.mem.log.all (fun e => !e.publishesCounter 1) = true := by
    refine System.exists_reach [calls (.stream [broadcastPingPlan hastyBuild]),
      goesOn .bsp Event.isPublished, goesOn .ap Event.isClaimed,
      .until .bsp 4000 fun s => (s.history 0).valid, .turns .bsp 2, calls (.stream [counterPlan]),
      goesOn .bsp Event.isPublished, goesOn .ap Event.isLookedUp] ?_
    decide +kernel
  obtain ⟨e, he, hlook⟩ := List.any_eq_true.1 hlook
  cases e with
  | lookedUp m i svc ifc hd =>
    simp only [Event.looksUpCounter, Bool.and_eq_true, beq_iff_eq] at hlook
    obtain ⟨rfl, rfl⟩ := hlook
    obtain ⟨⟨p, hp, hsvc, -⟩, -⟩ := (h hastyBuild {} c _ .default rfl hr).lookedUp _ _ _ _ _ he
    have hno := List.all_eq_true.1 hnone _ hp
    simp [Event.publishesCounter, ← hsvc] at hno
  | _ => cases hlook

end VibeKernel

import VibeKernel.Sched.Contexts

/-!
# Whose context a request runs on

`efi_main` picks one context for the whole plan: the owner of the first request that names a registered
service. The stream publishes on that context and on no other, so a request runs on the owner of its
own service only if the two owners are the same.
-/

namespace VibeKernel

open Conc

/-- `run_ap_request_stream` on context `target`, round by round. -/
def streamBody (b : Build) (target : ApContextIndex) (pc : BspPc) :
    Option (Prog KernelMemory BspPc) :=
  (bspBody (b.on target) false pc).map (·.onPart (kernelPart target))

/-- The stream that `efi_main` starts on context `target`. -/
def streamStart (b : Build) (target : ApContextIndex) (plan : List ApRequestPlan)
    (contexts : ApContexts) (aps : ApContextIndex → Prog Machine ApPc) :
    (kernelSystem b (streamBody b target)).Config :=
  kernelStart b (streamBody b target) contexts aps
    ((runApRequestStream (b.on target) plan).onPart (kernelPart target))

/-- Since `start`, a request of `p` was published on context `i` and a handler ran for it there. -/
def ExecutedOn (start : ApContexts) (t : KernelMemory) (i : ApContextIndex) (p : ApRequestPlan) :
    Prop :=
  ∃ n slot st, (start i).log.publications < n ∧
    Event.published n slot p st ∈ (t.contexts i).log ∧ (t.contexts i).log.runsOf n ≠ []

/-- Every service that the plan names has a schedulable owner. -/
def OwnersSchedulable (b : Build) (contexts : ApContexts) (n : Nat) (plan : List ApRequestPlan) :
    Prop :=
  ∀ p ∈ plan, ∀ entry, findApService b p.serviceId p.interfaceId = some entry →
    ∃ i : ApContextIndex, entry.ownerContextIndex.toNat = i.val ∧ Schedulable contexts n i

section Stream

variable {b : Build} {target : ApContextIndex} {plan : List ApRequestPlan} {start : ApContexts}
  {aps : ApContextIndex → Prog Machine ApPc} {c0 : ApContextIndex → UInt32}

/-- What is known between two rounds of the stream. -/
def streamCut (b : Build) (c0 : ApContextIndex → UInt32) (target : ApContextIndex) (pc : BspPc)
    (t : KernelMemory) : Prop :=
  bspCut (b.on target) .started (c0 target) pc (t.contexts target)

/-- The stream stays in its context. -/
abbrev streamOutline (b : Build) (c0 : ApContextIndex → UInt32) (target : ApContextIndex) :
    Outline (kernelSystem b (streamBody b target)) :=
  kernelOutline b (streamBody b target) c0 (· = target) (streamCut b c0 target)

/-- Code of the stream, on its context. -/
theorem wp_stream {p : Prog Machine BspPc} {t : KernelMemory}
    (h : wp ((contextOutline b c0 target).env .bsp) p (bspCut (b.on target) .started (c0 target))
      (t.contexts target)) :
    wp ((streamOutline b c0 target).env .bsp) (p.onPart (kernelPart target))
      (streamCut b c0 target) t := by
  have hsees : (kernelPart target).Sees ((streamOutline b c0 target).env .bsp) _ :=
    kernelPart_sees_bsp rfl
  exact wp_mono (fun _ _ hq => hq.1) _ _
    (wp_onPart hsees (Stable.true) (fun _ _ => id) p t h trivial)

theorem streamOutline_valid : (streamOutline b c0 target).Valid := by
  have hsees : (kernelPart target).Sees ((streamOutline b c0 target).env .bsp) _ :=
    kernelPart_sees_bsp rfl
  have hE := (anyCalls (b.on target) (c0 target)).bspEnv
  refine kernelOutline_valid (fun pc => ?_) fun pc p hp => ?_
  · exact Stable.onPart hsees (hE.stable fun _ _ hs h => bspCut_seen pc hs h)
  · obtain ⟨q, hq, rfl⟩ := Option.map_eq_some_iff.1 hp
    exact fun t ht => wp_stream (bspBody_triple hE (fun h => Bool.noConfusion h) pc q hq _ ht)

/-- Nothing is published on the other contexts. -/
theorem publications_of_reach (hleft : ∀ i, LeftBy b i (start i) (aps i))
    {c : (kernelSystem b (streamBody b target)).Config}
    (hr : (kernelSystem b (streamBody b target)).Reach anyTurn
      (streamStart b target plan start aps) c) :
    ∀ i ≠ target, LogInv (c.mem.contexts i).log ∧
      (c.mem.contexts i).log.publications = (start i).log.publications := by
  choose c0 hinv hsettled hap using fun i => (hleft i).holds
  have hbsp : wp ((streamOutline b c0 target).env .bsp)
      ((runApRequestStream (b.on target) plan).onPart (kernelPart target))
      (streamCut b c0 target) { contexts := start } :=
    wp_stream (runApRequestStream_triple (anyCalls _ _).bspEnv _
      ⟨fun _ => hsettled target, False.elim, False.elim⟩)
  have hholds := kernelOutline_holds hinv hap hbsp
  intro i hi
  refine ⟨((Outline.sound streamOutline_valid hholds hr).inv i).log, ?_⟩
  -- an AP publishes nothing, and the BSP works on its target only
  refine Outline.invariant streamOutline_valid (fun _ _ _ h => h)
    (J := fun t => (t.contexts i).log.publications = (start i).log.publications) ?_ hholds rfl hr
  intro u t t' _ h _ hg
  cases u with
  | bsp =>
    rcases hg i with he | ⟨he, -⟩
    · rw [he]
      exact h
    · exact absurd he hi
  | ap j =>
    obtain ⟨s, ha, rfl⟩ := hg
    by_cases hij : i = j
    · subst hij
      rw [kernelPart_contexts_self, ha.touch.log.publications]
      exact h
    · rw [kernelPart_contexts_ne hij]
      exact h

end Stream

/-! ## The owner -/

section Owner

variable {b : RouteBuild} {s : ApScheduler} {contexts : ApContexts} {n : Nat}
  {plan : List ApRequestPlan}

/-- A plan that names a registered service has a first owner. -/
theorem FirstOwner.exists_of_mem {b : Build} {p : ApRequestPlan} {entry : ApServiceRegistryEntry}
    (hp : p ∈ plan) (hentry : findApService b p.serviceId p.interfaceId = some entry) :
    ∃ owner, FirstOwner b plan owner := by
  induction plan with
  | nil => cases hp
  | cons q plan ih =>
    cases hq : findApService b q.serviceId q.interfaceId with
    | some entry' => exact ⟨_, [], q, plan, entry', rfl, nofun, hq, rfl⟩
    | none =>
      rcases List.mem_cons.1 hp with rfl | hp
      · rw [hentry] at hq
        cases hq
      · obtain ⟨owner, pre, r, post, entry', rfl, hpre, hr, howner⟩ := ih hp
        exact ⟨owner, q :: pre, r, post, entry', rfl, List.forall_mem_cons.2 ⟨hq, hpre⟩, hr, howner⟩

/-- The first owner is one of the owners. -/
theorem FirstOwner.isOwner {owner : UInt32} (h : FirstOwner b.toBuild plan owner)
    (howners : OwnersSchedulable b.toBuild contexts n plan) :
    ∃ i : ApContextIndex, owner.toNat = i.val ∧ IsOwner b.toBuild plan contexts n i := by
  obtain ⟨pre, p, post, entry, rfl, -, hp, rfl⟩ := id h
  obtain ⟨i, hi, hlive⟩ := howners p (by simp) entry hp
  exact ⟨i, hi, _, h, hi, hlive⟩

/-- Without an explicit target, a schedulable owner gets the requests. -/
theorem routeRequests_of_owner (hexp : ¬∃ i, IsExplicit b contexts n i) {i : ApContextIndex}
    (hi : IsOwner b.toBuild plan contexts n i) (s : ApScheduler) :
    ∃ route s', routeRequests b s contexts n plan = some (i, route, s') := by
  obtain ⟨j, s', hsel, hmode, -⟩ := exists_selectApRequestTargetContext b s contexts n
  have hnot : ¬s'.explicitTarget = true := fun h => hexp (hmode.1 h)
  simp only [routeRequests, hsel, Option.bind_eq_bind, Option.bind_some,
    selectApRequestRouteContext, if_neg hnot, bind_schedulableAt_eq_some_iff.2 hi]
  exact ⟨_, _, rfl⟩

theorem exists_routeRequests (b : RouteBuild) (s : ApScheduler) (contexts : ApContexts) (n : Nat)
    (plan : List ApRequestPlan) :
    ∃ target route s', routeRequests b s contexts n plan = some (target, route, s') := by
  obtain ⟨j, s', hsel, -⟩ := exists_selectApRequestTargetContext b s contexts n
  rw [routeRequests, hsel]
  exact ⟨_, _, _, rfl⟩

/-- **A request runs on its own service's owner if and only if that is the owner of the first request
that names a registered service.** The route is computed on `contexts`; the broadcast ping runs before the
stream does, which finds the contexts as `start`. -/
theorem executedOn_owner_iff (b : RouteBuild) (s : ApScheduler) (contexts start : ApContexts) (n : Nat)
    (plan : List ApRequestPlan) (aps : ApContextIndex → Prog Machine ApPc)
    (hleft : ∀ i, LeftBy b.toBuild i (start i) (aps i))
    (hexp : ¬∃ i, IsExplicit b contexts n i)
    (howners : OwnersSchedulable b.toBuild contexts n plan) :
    ∃ target route s', routeRequests b s contexts n plan = some (target, route, s') ∧
      (∀ owner, FirstOwner b.toBuild plan owner → owner.toNat = target.val) ∧
      ∀ c, (kernelSystem b.toBuild (streamBody b.toBuild target)).Reach anyTurn
          (streamStart b.toBuild target plan start aps) c →
        ∀ p ∈ plan, ∀ entry, findApService b.toBuild p.serviceId p.interfaceId = some entry →
          ∀ i, ExecutedOn start c.mem i p →
            (entry.ownerContextIndex.toNat = i.val ↔
              FirstOwner b.toBuild plan entry.ownerContextIndex) := by
  obtain ⟨target, route, s', hroute⟩ := exists_routeRequests b s contexts n plan
  have htarget : ∀ owner, FirstOwner b.toBuild plan owner → owner.toNat = target.val := by
    intro owner howner
    obtain ⟨i, hi, hisOwner⟩ := howner.isOwner howners
    obtain ⟨_, _, hroute'⟩ := routeRequests_of_owner hexp hisOwner s
    rw [hroute] at hroute'
    rw [hi, (Prod.mk.inj (Option.some.inj hroute')).1]
  refine ⟨target, route, s', hroute, htarget, fun c hr p hp entry hentry i hexec => ?_⟩
  -- the stream publishes in its target context and in no other
  have hi : i = target := by
    by_contra hne
    obtain ⟨m, slot, st, hlt, hpub, -⟩ := hexec
    obtain ⟨hlog, hquiet⟩ := publications_of_reach hleft hr i hne
    have hle := (hlog.stamp _ _ _ _ hpub).2
    omega
  subst hi
  obtain ⟨owner, howner⟩ := FirstOwner.exists_of_mem hp hentry
  constructor
  · intro he
    have heq : entry.ownerContextIndex = owner := UInt32.toNat_inj.1 (he.trans (htarget _ howner).symm)
    rw [heq]
    exact howner
  · exact htarget _

/-! ## Two owners -/

/-- A build in which the second context owns the counter. -/
def twoOwners : RouteBuild := { apCounterServiceOwnerIndex := 1 }

/-- A ping that the first context owns, and then the counter, that the second one owns. -/
def mixedPlan : List ApRequestPlan := [broadcastPingPlan {}, counterPlan]

theorem not_isExplicit_twoOwners : ¬∃ i, IsExplicit twoOwners freshContexts 2 i := by
  rintro ⟨i, hi, -⟩
  have hlt : i.val < 8 := i.isLt
  have hbig : (twoOwners.apRequestTargetIndex).toNat = 4294967295 := rfl
  omega

theorem ownersSchedulable_mixedPlan :
    OwnersSchedulable twoOwners.toBuild freshContexts 2 mixedPlan := by
  intro p hp entry hentry
  rcases List.mem_cons.1 hp with rfl | hp
  · obtain rfl := Option.some.inj (Eq.trans rfl hentry)
    exact ⟨0, rfl, by decide, rfl⟩
  · obtain rfl := List.mem_singleton.1 hp
    obtain rfl := Option.some.inj (Eq.trans rfl hentry)
    exact ⟨1, rfl, by decide, rfl⟩

/-- Publication `n`, of a request of `p`. -/
def Event.publishes (n : Nat) (p : ApRequestPlan) : Event → Bool
  | .published m _ q _ => m == n && q == p
  | _ => false

theorem Event.publishes_iff {n : Nat} {p : ApRequestPlan} {e : Event} :
    e.publishes n p = true ↔ ∃ slot st, e = .published n slot p st := by
  cases e <;> simp [Event.publishes]

/-- The stream of the two requests, on the owner of the first. -/
def mixedStart : (kernelSystem twoOwners.toBuild (streamBody twoOwners.toBuild 0)).Config :=
  streamStart twoOwners.toBuild 0 mixedPlan freshContexts fun _ => .ret (.scan 0 false)

/-- The first context runs both. -/
theorem exists_executedOn_first : ∃ c,
    (kernelSystem twoOwners.toBuild (streamBody twoOwners.toBuild 0)).Reach anyTurn mixedStart c ∧
      ExecutedOn freshContexts c.mem 0 counterPlan := by
  have hrun : ∃ c,
      (kernelSystem twoOwners.toBuild (streamBody twoOwners.toBuild 0)).Reach anyTurn mixedStart c ∧
        (c.mem.contexts 0).log.any (Event.publishes 2 counterPlan) = true ∧
          (c.mem.contexts 0).log.runsOf 2 ≠ [] := by
    refine System.exists_reach [runsUntil .bsp fun t => (t.contexts 0).log.publications == 2,
      runsUntil (.ap 0) fun t => (t.contexts 0).log.runs.length == 2] ?_
    decide +kernel
  obtain ⟨c, hr, hpub, hran⟩ := hrun
  obtain ⟨e, he, hpub⟩ := List.any_eq_true.1 hpub
  obtain ⟨slot, st, rfl⟩ := Event.publishes_iff.1 hpub
  exact ⟨c, hr, 2, slot, st, by decide, he, hran⟩

/-- The counter is incremented on the first context, which owns the ping. -/
theorem not_executedOn_owner : ¬ ∀ (b : RouteBuild) (s : ApScheduler) (contexts : ApContexts) (n : Nat)
    (plan : List ApRequestPlan) (aps : ApContextIndex → Prog Machine ApPc),
    (∀ i, LeftBy b.toBuild i (contexts i) (aps i)) → (¬∃ i, IsExplicit b contexts n i) →
    OwnersSchedulable b.toBuild contexts n plan →
    ∀ target route s', routeRequests b s contexts n plan = some (target, route, s') →
      ∀ c, (kernelSystem b.toBuild (streamBody b.toBuild target)).Reach anyTurn
          (streamStart b.toBuild target plan contexts aps) c →
        ∀ p ∈ plan, ∀ entry, findApService b.toBuild p.serviceId p.interfaceId = some entry →
          ∀ i, ExecutedOn contexts c.mem i p → entry.ownerContextIndex.toNat = i.val := by
  intro h
  obtain ⟨c, hr, hexec⟩ := exists_executedOn_first
  have hping : FirstOwner twoOwners.toBuild mixedPlan 0 := ⟨[], _, _, _, rfl, nofun, rfl, rfl⟩
  obtain ⟨i, hi, howner⟩ := hping.isOwner ownersSchedulable_mixedPlan
  obtain rfl : i = 0 := Fin.ext hi.symm
  obtain ⟨route, s', hroute⟩ := routeRequests_of_owner not_isExplicit_twoOwners howner {}
  have hcounter := h twoOwners {} freshContexts 2 mixedPlan _ (fun i => .default _ i)
    not_isExplicit_twoOwners ownersSchedulable_mixedPlan 0 route s' hroute c hr counterPlan
    (by simp [mixedPlan]) _ rfl 0 hexec
  exact absurd hcounter (by decide)

/-- Contexts whose counters have been used. -/
def countedContexts : ApContexts := fun _ => { counterValue := 3, requestHandledCount := 3 }

theorem leftBy_countedContexts (b : Build) (i : ApContextIndex) :
    LeftBy b i (countedContexts i) (.ret (.scan 0 false)) := by
  have hfresh : Fresh (countedContexts i) :=
    ⟨rfl, fun _ => ⟨nofun, nofun⟩, ⟨nofun, nofun⟩, fun _ => rfl⟩
  exact ⟨countedContexts i, .scan 0 false, hfresh, rfl, _, .refl, rfl, rfl, rfl⟩

/-- The same build, with a stream that finds other contexts than the route was computed on. -/
theorem executedOn_owner_iff_twoOwners :
    ∃ target route s', routeRequests twoOwners {} freshContexts 2 mixedPlan =
        some (target, route, s') ∧
      (∀ owner, FirstOwner twoOwners.toBuild mixedPlan owner → owner.toNat = target.val) ∧
      ∀ c, (kernelSystem twoOwners.toBuild (streamBody twoOwners.toBuild target)).Reach anyTurn
          (streamStart twoOwners.toBuild target mixedPlan countedContexts
            fun _ => .ret (.scan 0 false)) c →
        ∀ p ∈ mixedPlan, ∀ entry,
          findApService twoOwners.toBuild p.serviceId p.interfaceId = some entry →
            ∀ i, ExecutedOn countedContexts c.mem i p →
              (entry.ownerContextIndex.toNat = i.val ↔
                FirstOwner twoOwners.toBuild mixedPlan entry.ownerContextIndex) :=
  executedOn_owner_iff twoOwners {} freshContexts countedContexts 2 mixedPlan _
    (fun i => leftBy_countedContexts _ i) not_isExplicit_twoOwners ownersSchedulable_mixedPlan

end Owner

end VibeKernel

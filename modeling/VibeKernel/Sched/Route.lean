import VibeKernel.Boot.BringUp
import Mathlib.Data.Fintype.EquivFin

/-!
# Which context gets the requests

`build_online_ap_registry` lists the APs that answer, `select_ap_request_target_context` takes the next
of them, and `select_ap_request_route_context` puts the owner of a service before it. All three read
the contexts and store into the scheduler and the route only.

`contexts` is `ap_contexts`. A pointer into it is an index.
-/

namespace VibeKernel

/-- `AP_REQUEST_TARGET_SCHEDULER`. -/
def apRequestTargetScheduler : UInt32 := 0xffffffff

/-- The macros, with `VIBE_AP_REQUEST_TARGET_INDEX`. -/
structure RouteBuild extends Build where
  apRequestTargetIndex : UInt32 := apRequestTargetScheduler

/-- `ap_scheduler_t`. -/
structure ApScheduler where
  /-- The first `online_count` places of `online[]`. -/
  online : List ApContextIndex := []
  nextIndex : UInt32 := 0
  selectedContextIndex : UInt32 := 0
  selectedApicId : UInt32 := 0
  explicitTarget : Bool := false
  online_nodup : online.Nodup := by simp

inductive ApRequestRouteMode
  | owner
  | explicit
  | schedulerFallback
deriving DecidableEq, Repr

structure ApRequestRoute where
  mode : ApRequestRouteMode
  targetContextIndex : UInt32
  targetApicId : UInt32
  ownerContextIndex : UInt32
deriving DecidableEq, Repr

/-- `ap_contexts`. -/
abbrev ApContexts := ApContextIndex → Machine

/-- `ap_context_index`. -/
def apContextIndex (ctx : ApContextIndex) : UInt32 := UInt32.ofNat ctx.val

/-- `ap0_context`. -/
def ap0Context : ApContextIndex := 0

/-- `ap_context_is_schedulable`. -/
def apContextIsSchedulable (ctx : Machine) : Bool :=
  ctx.error == .ok && ctx.online && ctx.apState != .halted && ctx.apState != .faulted

/-! ## The registry -/

namespace ApScheduler

def onlineCount (s : ApScheduler) : UInt32 := UInt32.ofNat s.online.length

/-- The place of `online[]` that the next selection takes. -/
def registryIndex (s : ApScheduler) : UInt32 :=
  if s.onlineCount ≤ s.nextIndex then 0 else s.nextIndex

end ApScheduler

/-- The loop of `build_online_ap_registry`. -/
def schedulableContexts (contexts : ApContexts) (contextCount : Nat) : List ApContextIndex :=
  (List.finRange maxApContexts).filter fun i =>
    decide (i.val < contextCount) && apContextIsSchedulable (contexts i)

/-- `build_online_ap_registry`. -/
def buildOnlineApRegistry (s : ApScheduler) (contexts : ApContexts) (contextCount : Nat) :
    ApScheduler :=
  let contextCount := if maxApContexts < contextCount then maxApContexts else contextCount
  let s := { s with
    online := schedulableContexts contexts contextCount
    selectedApicId := 0
    explicitTarget := false
    selectedContextIndex := apRequestTargetScheduler
    online_nodup := (List.nodup_finRange _).filter _ }
  if 0 < s.onlineCount && s.onlineCount ≤ s.nextIndex then { s with nextIndex := 0 } else s

/-! ## The selection -/

/-- `&contexts[index]`, if `index` is in range and the context there is schedulable. -/
def schedulableAt (contexts : ApContexts) (contextCount : Nat) (index : UInt32) :
    Option ApContextIndex :=
  if h : index.toNat < contextCount ∧ index.toNat < maxApContexts then
    if apContextIsSchedulable (contexts ⟨index.toNat, h.2⟩) then some ⟨index.toNat, h.2⟩ else none
  else none

/-- The context that `VIBE_AP_REQUEST_TARGET_INDEX` names. -/
def explicitContext (b : RouteBuild) (contexts : ApContexts) (contextCount : Nat) :
    Option ApContextIndex :=
  if b.apRequestTargetIndex = apRequestTargetScheduler then none
  else schedulableAt contexts contextCount b.apRequestTargetIndex

/-- `select_ap_request_target_context`. An access of `online[]` at or above `online_count` ends in
`none`. -/
def selectApRequestTargetContext (b : RouteBuild) (s : ApScheduler) (contexts : ApContexts)
    (contextCount : Nat) : Option (ApContextIndex × ApScheduler) :=
  match explicitContext b contexts contextCount with
  | some target =>
    some (target, { s with
      explicitTarget := true
      selectedContextIndex := b.apRequestTargetIndex
      selectedApicId := (contexts target).targetApicId })
  | none =>
    let s : ApScheduler := { s with explicitTarget := false }
    if s.onlineCount = (0 : UInt32) then
      some (ap0Context, { s with
        selectedContextIndex := 0
        selectedApicId := (contexts 0).targetApicId })
    else do
      let selected ← s.online[s.registryIndex.toNat]?
      some (selected, { s with
        nextIndex := (s.registryIndex + 1) % s.onlineCount
        selectedContextIndex := apContextIndex selected
        selectedApicId := (contexts selected).targetApicId })

/-! ## The route -/

/-- `ap_service_owner_context_index`, with what its output holds afterwards. -/
def apServiceOwnerContextIndex (b : Build) (serviceId interfaceId : UInt64)
    (ownerContextIndex : UInt32) : ApServiceLookupStatus × UInt32 :=
  match findApService b serviceId interfaceId with
  | some entry => (.ok, entry.ownerContextIndex)
  | none => (classifyApServiceLookup b serviceId interfaceId, ownerContextIndex)

/-- `ap_request_plan_owner_context_index`. -/
def apRequestPlanOwnerContextIndex (b : Build) : List ApRequestPlan → Option UInt32
  | [] => none
  | p :: plan =>
    match apServiceOwnerContextIndex b p.serviceId p.interfaceId 0 with
    | (.ok, ownerIndex) => some ownerIndex
    | _ => apRequestPlanOwnerContextIndex b plan

/-- `set_ap_request_route`. -/
def setApRequestRoute (contexts : ApContexts) (mode : ApRequestRouteMode) (target : ApContextIndex)
    (ownerContextIndex : UInt32) : ApRequestRoute where
  mode := mode
  targetContextIndex := apContextIndex target
  targetApicId := (contexts target).targetApicId
  ownerContextIndex := ownerContextIndex

/-- `select_ap_request_route_context`. Without a scheduler target it starts from the first context. -/
def selectApRequestRouteContext (b : RouteBuild) (s : ApScheduler)
    (schedulerTarget : Option ApContextIndex) (plan : List ApRequestPlan) (contexts : ApContexts)
    (contextCount : Nat) : ApContextIndex × ApRequestRoute :=
  let target := schedulerTarget.getD ap0Context
  if s.explicitTarget then
    (target, setApRequestRoute contexts .explicit target apRequestTargetScheduler)
  else
    let owner := apRequestPlanOwnerContextIndex b.toBuild plan
    let ownerContextIndex := owner.getD apRequestTargetScheduler
    match owner.bind (schedulableAt contexts contextCount) with
    | some target => (target, setApRequestRoute contexts .owner target ownerContextIndex)
    | none => (target, setApRequestRoute contexts .schedulerFallback target ownerContextIndex)

/-- The three, as `efi_main` calls them. -/
def routeRequests (b : RouteBuild) (s : ApScheduler) (contexts : ApContexts) (contextCount : Nat)
    (plan : List ApRequestPlan) : Option (ApContextIndex × ApRequestRoute × ApScheduler) := do
  let s := buildOnlineApRegistry s contexts contextCount
  let (schedulerTarget, s) ← selectApRequestTargetContext b s contexts contextCount
  let (target, route) :=
    selectApRequestRouteContext b s (some schedulerTarget) plan contexts contextCount
  some (target, route, s)

/-! ## What the selection finds -/

/-- Context `i` is one of the first `n` and can be given requests. -/
structure Schedulable (contexts : ApContexts) (n : Nat) (i : ApContextIndex) : Prop where
  inRange : i.val < n
  live : apContextIsSchedulable (contexts i) = true

/-- `VIBE_AP_REQUEST_TARGET_INDEX` is `i`, in range and schedulable. -/
def IsExplicit (b : RouteBuild) (contexts : ApContexts) (n : Nat) (i : ApContextIndex) : Prop :=
  b.apRequestTargetIndex.toNat = i.val ∧ Schedulable contexts n i

/-- The first request of the plan that names a registered service names one of owner `owner`. -/
def FirstOwner (b : Build) (plan : List ApRequestPlan) (owner : UInt32) : Prop :=
  ∃ pre p post entry, plan = pre ++ p :: post ∧
    (∀ q ∈ pre, findApService b q.serviceId q.interfaceId = none) ∧
    findApService b p.serviceId p.interfaceId = some entry ∧ entry.ownerContextIndex = owner

/-- That owner is `i`, in range and schedulable. -/
def IsOwner (b : Build) (plan : List ApRequestPlan) (contexts : ApContexts) (n : Nat)
    (i : ApContextIndex) : Prop :=
  ∃ owner, FirstOwner b plan owner ∧ owner.toNat = i.val ∧ Schedulable contexts n i

section Route

variable {b : RouteBuild} {s : ApScheduler} {contexts : ApContexts} {n : Nat}
  {plan : List ApRequestPlan} {i : ApContextIndex} {k : UInt32}

theorem toNat_apContextIndex (i : ApContextIndex) : (apContextIndex i).toNat = i.val := by
  have hi : i.val < 8 := i.isLt
  rw [apContextIndex, UInt32.toNat_ofNat', Nat.mod_eq_of_lt (by omega)]

theorem schedulableAt_eq_some_iff :
    schedulableAt contexts n k = some i ↔ k.toNat = i.val ∧ Schedulable contexts n i := by
  unfold schedulableAt
  constructor
  · intro h
    split_ifs at h with hlt hlive
    obtain rfl := Option.some.inj h
    exact ⟨rfl, hlt.1, hlive⟩
  · rintro ⟨hk, hlt, hlive⟩
    have hi : (⟨k.toNat, by rw [hk]; exact i.isLt⟩ : ApContextIndex) = i := Fin.ext hk
    rw [dif_pos ⟨by omega, by rw [hk]; exact i.isLt⟩, hi, if_pos hlive]

/-- The sentinel is out of range. -/
theorem explicitContext_eq_some_iff :
    explicitContext b contexts n = some i ↔ IsExplicit b contexts n i := by
  unfold explicitContext
  by_cases hb : b.apRequestTargetIndex = apRequestTargetScheduler
  · rw [if_pos hb]
    refine ⟨nofun, fun h => ?_⟩
    have hi : i.val < 8 := i.isLt
    have hval := h.1
    rw [hb] at hval
    have hbig : apRequestTargetScheduler.toNat = 4294967295 := rfl
    omega
  · rw [if_neg hb, schedulableAt_eq_some_iff]
    exact Iff.rfl

theorem explicitContext_eq_none_iff :
    explicitContext b contexts n = none ↔ ¬∃ i, IsExplicit b contexts n i := by
  rw [Option.eq_none_iff_forall_ne_some]
  simp only [ne_eq, explicitContext_eq_some_iff, not_exists]

theorem mem_schedulableContexts :
    i ∈ schedulableContexts contexts n ↔ Schedulable contexts n i := by
  simp only [schedulableContexts, List.mem_filter, List.mem_finRange, true_and,
    Bool.and_eq_true, decide_eq_true_eq]
  exact ⟨fun h => ⟨h.1, h.2⟩, fun h => ⟨h.1, h.2⟩⟩

/-- The clamp changes nothing. -/
theorem online_buildOnlineApRegistry (s : ApScheduler) (contexts : ApContexts) (n : Nat) :
    (buildOnlineApRegistry s contexts n).online = schedulableContexts contexts n := by
  have hclamp : schedulableContexts contexts (if maxApContexts < n then maxApContexts else n) =
      schedulableContexts contexts n := by
    unfold schedulableContexts
    congr 1
    funext i
    have hi := i.isLt
    split_ifs with h
    · simp [hi, hi.trans h]
    · rfl
  unfold buildOnlineApRegistry
  rw [← hclamp]
  exact (apply_ite ApScheduler.online _ _ _).trans (ite_self _)

theorem mem_online_buildOnlineApRegistry :
    i ∈ (buildOnlineApRegistry s contexts n).online ↔ Schedulable contexts n i := by
  rw [online_buildOnlineApRegistry, mem_schedulableContexts]

theorem ApScheduler.toNat_onlineCount (s : ApScheduler) :
    s.onlineCount.toNat = s.online.length := by
  have hcard : s.online.length ≤ 8 := s.online_nodup.length_le_card.trans (Fintype.card_fin 8).le
  rw [ApScheduler.onlineCount, UInt32.toNat_ofNat', Nat.mod_eq_of_lt (by omega)]

theorem ApScheduler.onlineCount_eq_zero_iff (s : ApScheduler) :
    s.onlineCount = 0 ↔ s.online = [] := by
  rw [← UInt32.toNat_inj, s.toNat_onlineCount]
  exact List.length_eq_zero_iff

theorem ApScheduler.registryIndex_lt (h : s.online ≠ []) :
    s.registryIndex.toNat < s.online.length := by
  have hpos := List.length_pos_iff.2 h
  unfold ApScheduler.registryIndex
  split_ifs with hle
  · exact hpos
  · rw [UInt32.le_iff_toNat_le, s.toNat_onlineCount] at hle
    omega

theorem selectApRequestTargetContext_of_explicit (h : explicitContext b contexts n = some i) :
    selectApRequestTargetContext b s contexts n = some (i, { s with
      explicitTarget := true
      selectedContextIndex := b.apRequestTargetIndex
      selectedApicId := (contexts i).targetApicId }) := by
  unfold selectApRequestTargetContext
  rw [h]

/-- Nobody is registered. -/
theorem selectApRequestTargetContext_of_empty (h : explicitContext b contexts n = none)
    (hs : s.online = []) :
    ∃ s', selectApRequestTargetContext b s contexts n = some (ap0Context, s') ∧
      s'.explicitTarget = false ∧ s'.online = s.online := by
  unfold selectApRequestTargetContext
  rw [h]
  exact ⟨_, if_pos ((ApScheduler.onlineCount_eq_zero_iff s).2 hs), rfl, rfl⟩

/-- The next one in the registry. -/
theorem selectApRequestTargetContext_of_online (h : explicitContext b contexts n = none)
    (hs : s.online ≠ []) :
    ∃ s', selectApRequestTargetContext b s contexts n =
        some (s.online.get ⟨s.registryIndex.toNat, ApScheduler.registryIndex_lt hs⟩, s') ∧
      s'.explicitTarget = false ∧ s'.online = s.online ∧
        s'.nextIndex = (s.registryIndex + 1) % s.onlineCount := by
  unfold selectApRequestTargetContext
  rw [h]
  have hcount : s.onlineCount ≠ 0 := fun h0 => hs (s.onlineCount_eq_zero_iff.1 h0)
  have hget : s.online[s.registryIndex.toNat]? =
      some (s.online.get ⟨s.registryIndex.toNat, ApScheduler.registryIndex_lt hs⟩) :=
    List.getElem?_eq_getElem _
  exact ⟨_, (if_neg hcount).trans (congrArg (Option.bind · _) hget), rfl, rfl, rfl⟩

/-- The lookup in the plan stops at the first service that is registered. -/
theorem apRequestPlanOwnerContextIndex_eq_some_iff {b : Build} {owner : UInt32} :
    apRequestPlanOwnerContextIndex b plan = some owner ↔ FirstOwner b plan owner := by
  induction plan with
  | nil => exact ⟨nofun, fun ⟨pre, p, post, entry, h, _⟩ => by simp at h⟩
  | cons p plan ih =>
    unfold apRequestPlanOwnerContextIndex apServiceOwnerContextIndex
    cases hfind : findApService b p.serviceId p.interfaceId with
    | some entry =>
      constructor
      · intro h
        exact ⟨[], p, plan, entry, rfl, nofun, hfind, Option.some.inj h⟩
      · rintro ⟨pre, q, post, entry', hplan, hpre, hq, rfl⟩
        cases pre with
        | nil =>
          obtain ⟨rfl, -⟩ := List.cons.inj hplan
          rw [hfind] at hq
          rw [Option.some.inj hq]
        | cons q' pre =>
          obtain ⟨rfl, -⟩ := List.cons.inj hplan
          rw [hpre p List.mem_cons_self] at hfind
          cases hfind
    | none =>
      -- an entry that names no registered service is passed over, whatever the lookup says
      have hnot : classifyApServiceLookup b p.serviceId p.interfaceId ≠ .ok := fun hok => by
        rw [classifyApServiceLookup_eq_ok_iff, hfind] at hok
        cases hok
      have hrest : apRequestPlanOwnerContextIndex b (p :: plan) =
          apRequestPlanOwnerContextIndex b plan := by
        rw [apRequestPlanOwnerContextIndex, apServiceOwnerContextIndex, hfind]
        dsimp only
        cases hc : classifyApServiceLookup b p.serviceId p.interfaceId with
        | ok => exact absurd hc hnot
        | unknownService => rfl
        | unknownInterface => rfl
      rw [apRequestPlanOwnerContextIndex, apServiceOwnerContextIndex, hfind] at hrest
      refine (Eq.congr_left hrest).trans (ih.trans ⟨?_, ?_⟩)
      · rintro ⟨pre, q, post, entry, rfl, hpre, hq, hown⟩
        exact ⟨p :: pre, q, post, entry, rfl, List.forall_mem_cons.2 ⟨hfind, hpre⟩, hq, hown⟩
      · rintro ⟨pre, q, post, entry, hplan, hpre, hq, hown⟩
        cases pre with
        | nil =>
          obtain ⟨rfl, -⟩ := List.cons.inj hplan
          rw [hfind] at hq
          cases hq
        | cons q' pre =>
          obtain ⟨-, rfl⟩ := List.cons.inj hplan
          exact ⟨pre, q, post, entry, rfl, (List.forall_mem_cons.1 hpre).2, hq, hown⟩

theorem bind_schedulableAt_eq_some_iff :
    (apRequestPlanOwnerContextIndex b.toBuild plan).bind (schedulableAt contexts n) = some i ↔
      IsOwner b.toBuild plan contexts n i := by
  rw [Option.bind_eq_some_iff]
  simp only [schedulableAt_eq_some_iff, apRequestPlanOwnerContextIndex_eq_some_iff]
  exact Iff.rfl

/-- What the scheduler hands to the router. -/
theorem exists_selectApRequestTargetContext (b : RouteBuild) (s : ApScheduler)
    (contexts : ApContexts) (n : Nat) :
    ∃ i s', selectApRequestTargetContext b (buildOnlineApRegistry s contexts n) contexts n =
        some (i, s') ∧
      (s'.explicitTarget = true ↔ ∃ j, IsExplicit b contexts n j) ∧
      ((∃ j, Schedulable contexts n j) → Schedulable contexts n i) := by
  cases hexp : explicitContext b contexts n with
  | some i =>
    have hi := explicitContext_eq_some_iff.1 hexp
    exact ⟨i, _, selectApRequestTargetContext_of_explicit hexp,
      ⟨fun _ => ⟨i, hi⟩, fun _ => rfl⟩, fun _ => hi.2⟩
  | none =>
    have hnot := explicitContext_eq_none_iff.1 hexp
    by_cases hempty : (buildOnlineApRegistry s contexts n).online = []
    · obtain ⟨s', hsel, hfalse, -⟩ := selectApRequestTargetContext_of_empty hexp hempty
      refine ⟨ap0Context, s', hsel, ⟨fun h => ?_, fun h => absurd h hnot⟩, ?_⟩
      · rw [hfalse] at h
        cases h
      · rintro ⟨j, hj⟩
        rw [← mem_online_buildOnlineApRegistry, hempty] at hj
        cases hj
    · obtain ⟨s', hsel, hfalse, -, -⟩ := selectApRequestTargetContext_of_online hexp hempty
      refine ⟨_, s', hsel, ⟨fun h => ?_, fun h => absurd h hnot⟩, fun _ => ?_⟩
      · rw [hfalse] at h
        cases h
      · exact mem_online_buildOnlineApRegistry.1
          (List.getElem_mem (ApScheduler.registryIndex_lt hempty))

/-- The requests go to a context that can be given requests, if there is one. -/
theorem routeRequests_schedulable (b : RouteBuild) (s : ApScheduler) (contexts : ApContexts)
    (n : Nat) (plan : List ApRequestPlan) :
    ((buildOnlineApRegistry s contexts n).online ≠ [] →
      (buildOnlineApRegistry s contexts n).registryIndex.toNat <
        (buildOnlineApRegistry s contexts n).onlineCount.toNat) ∧
    ∃ target route s', routeRequests b s contexts n plan = some (target, route, s') ∧
      ((∃ i, Schedulable contexts n i) → Schedulable contexts n target) ∧
      route.targetContextIndex.toNat = target.val ∧
      route.targetApicId = (contexts target).targetApicId ∧
      (route.mode = .explicit ↔ ∃ i, IsExplicit b contexts n i) ∧
      (route.mode = .owner ↔ (¬∃ i, IsExplicit b contexts n i) ∧
        ∃ i, IsOwner b.toBuild plan contexts n i) ∧
      (route.mode = .schedulerFallback ↔ (¬∃ i, IsExplicit b contexts n i) ∧
        ¬∃ i, IsOwner b.toBuild plan contexts n i) := by
  refine ⟨fun h => ?_, ?_⟩
  · rw [ApScheduler.toNat_onlineCount]
    exact ApScheduler.registryIndex_lt h
  obtain ⟨i, s', hsel, hexp, hlive⟩ := exists_selectApRequestTargetContext b s contexts n
  simp only [routeRequests, hsel, Option.bind_eq_bind, Option.bind_some,
    selectApRequestRouteContext, Option.getD_some]
  by_cases htarget : s'.explicitTarget = true
  · have h := hexp.1 htarget
    rw [if_pos htarget]
    exact ⟨_, _, _, rfl, hlive, toNat_apContextIndex _, rfl, by simp [setApRequestRoute, h]⟩
  · -- no explicit target: the owner if it can be given requests, else what the scheduler picked
    have h : ¬∃ j, IsExplicit b contexts n j := fun hj => htarget (hexp.2 hj)
    rw [if_neg htarget]
    cases howner : (apRequestPlanOwnerContextIndex b.toBuild plan).bind
        (schedulableAt contexts n) with
    | some j =>
      have hj := bind_schedulableAt_eq_some_iff.1 howner
      have hlive' : Schedulable contexts n j := by
        obtain ⟨_, _, _, hj⟩ := hj
        exact hj
      exact ⟨_, _, _, rfl, fun _ => hlive', toNat_apContextIndex _, rfl,
        by simp [setApRequestRoute, h, Exists.intro j hj]⟩
    | none =>
      have hnone : ¬∃ j, IsOwner b.toBuild plan contexts n j := by
        rintro ⟨j, hj⟩
        rw [bind_schedulableAt_eq_some_iff.2 hj] at howner
        cases howner
      exact ⟨_, _, _, rfl, hlive, toNat_apContextIndex _, rfl,
        by simp [setApRequestRoute, h, hnone]⟩

end Route

end VibeKernel

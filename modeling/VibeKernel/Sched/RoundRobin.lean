import VibeKernel.Sched.Route
import VibeKernel.Num.Turns

/-!
# The scheduler over time

Calls of `build_online_ap_registry` and `select_ap_request_target_context`, in any order and with
contexts that change from call to call. Between two rebuilds the selections go round the registry.
-/

namespace VibeKernel

open Num

/-- A call, and what the contexts and `context_count` are at the call. -/
inductive SchedulerCall
  | rebuild (contexts : ApContexts) (contextCount : Nat)
  | select (contexts : ApContexts) (contextCount : Nat)

/-- One call, with the context it returns. -/
def schedulerStep (b : RouteBuild) (s : ApScheduler) :
    SchedulerCall → Option (ApScheduler × List ApContextIndex)
  | .rebuild contexts n => some (buildOnlineApRegistry s contexts n, [])
  | .select contexts n => do
    let (picked, s) ← selectApRequestTargetContext b s contexts n
    some (s, [picked])

/-- Calls one after the other, with the contexts they return. -/
def schedulerRun (b : RouteBuild) (s : ApScheduler) :
    List SchedulerCall → Option (ApScheduler × List ApContextIndex)
  | [] => some (s, [])
  | call :: calls => do
    let (s, picked) ← schedulerStep b s call
    let (s, rest) ← schedulerRun b s calls
    some (s, picked ++ rest)

/-- What the latest rebuild was called with. -/
def lastRebuild : List SchedulerCall → Option (ApContexts × Nat)
  | [] => none
  | .rebuild contexts n :: calls => (lastRebuild calls).or (some (contexts, n))
  | .select _ _ :: calls => lastRebuild calls

/-- No explicit target is in force at the call. -/
def NotExplicit (b : RouteBuild) : SchedulerCall → Prop
  | .rebuild _ _ => True
  | .select contexts n => explicitContext b contexts n = none

section Run

variable {b : RouteBuild} {s s' : ApScheduler} {calls : List SchedulerCall}
  {picked : List ApContextIndex}

/-- No call reads outside of the registry. -/
theorem exists_schedulerStep (s : ApScheduler) {call : SchedulerCall} (h : NotExplicit b call) :
    ∃ s' picked, schedulerStep b s call = some (s', picked) := by
  cases call with
  | rebuild contexts n => exact ⟨_, _, rfl⟩
  | select contexts n =>
    by_cases hs : s.online = []
    · obtain ⟨s', hsel, -⟩ := selectApRequestTargetContext_of_empty h hs
      exact ⟨s', [ap0Context], by rw [schedulerStep, hsel]; rfl⟩
    · obtain ⟨s', hsel, -⟩ := selectApRequestTargetContext_of_online h hs
      exact ⟨s', _, by rw [schedulerStep, hsel]; rfl⟩

theorem exists_schedulerRun (s : ApScheduler) (h : ∀ call ∈ calls, NotExplicit b call) :
    ∃ s' picked, schedulerRun b s calls = some (s', picked) := by
  induction calls generalizing s with
  | nil => exact ⟨s, [], rfl⟩
  | cons call calls ih =>
    obtain ⟨hcall, hcalls⟩ := List.forall_mem_cons.1 h
    obtain ⟨s₁, picked, hstep⟩ := exists_schedulerStep s hcall
    obtain ⟨s₂, rest, hrun⟩ := ih s₁ hcalls
    exact ⟨s₂, picked ++ rest, by simp [schedulerRun, hstep, hrun]⟩

/-- A selection keeps the registry. -/
theorem online_of_select {contexts : ApContexts} {n : Nat} {i : ApContextIndex}
    (h : explicitContext b contexts n = none)
    (hsel : selectApRequestTargetContext b s contexts n = some (i, s')) :
    s'.online = s.online := by
  by_cases hs : s.online = []
  · obtain ⟨s₁, hsel', -, honline⟩ := selectApRequestTargetContext_of_empty h hs
    obtain ⟨rfl, rfl⟩ : i = ap0Context ∧ s' = s₁ := by simpa [hsel] using hsel'
    exact honline
  · obtain ⟨s₁, hsel', -, honline, -⟩ := selectApRequestTargetContext_of_online h hs
    obtain ⟨-, rfl⟩ : i = _ ∧ s' = s₁ := by simpa [hsel] using hsel'
    exact honline

/-- The registry is what the latest rebuild made it. -/
theorem online_of_schedulerRun (h : ∀ call ∈ calls, NotExplicit b call)
    (hrun : schedulerRun b s calls = some (s', picked)) :
    s'.online = match lastRebuild calls with
      | none => s.online
      | some (contexts, n) => schedulableContexts contexts n := by
  induction calls generalizing s picked with
  | nil =>
    obtain ⟨rfl, -⟩ : s = s' ∧ [] = picked := by simpa [schedulerRun] using hrun
    rfl
  | cons call calls ih =>
    obtain ⟨hcall, hcalls⟩ := List.forall_mem_cons.1 h
    obtain ⟨s₁, p, hstep⟩ := exists_schedulerStep s hcall
    obtain ⟨s₂, rest, hrest⟩ := exists_schedulerRun s₁ hcalls
    obtain ⟨rfl, -⟩ : s₂ = s' ∧ p ++ rest = picked := by
      simpa [schedulerRun, hstep, hrest] using hrun
    rw [ih hcalls hrest]
    -- a rebuild counts unless a later one does; a selection leaves `online` alone
    cases call with
    | rebuild contexts n =>
      obtain ⟨rfl, -⟩ : buildOnlineApRegistry s contexts n = s₁ ∧ [] = p := by
        simpa [schedulerStep] using hstep
      cases hlast : lastRebuild calls with
      | none => simp [lastRebuild, hlast, online_buildOnlineApRegistry]
      | some _ => simp [lastRebuild, hlast]
    | select contexts n =>
      have honline : s₁.online = s.online := by
        simp only [schedulerStep, Option.bind_eq_bind, Option.bind_eq_some_iff,
          Option.some.injEq, Prod.mk.injEq] at hstep
        obtain ⟨⟨i, s₃⟩, hsel, rfl, -⟩ := hstep
        exact online_of_select hcall hsel
      rw [lastRebuild, honline]

end Run

/-! ## Fairness -/

section Fair

variable {b : RouteBuild} {s : ApScheduler}

/-- Selections without a rebuild. -/
def selections (views : List (ApContexts × Nat)) : List SchedulerCall :=
  views.map fun v => .select v.1 v.2

/-- Selections go round the registry. -/
theorem schedulerRun_selections {views : List (ApContexts × Nat)}
    (h : ∀ v ∈ views, explicitContext b v.1 v.2 = none) (hs : s.online ≠ []) :
    ∃ s', schedulerRun b s (selections views) =
      some (s', turns s.online views.length s.registryIndex.toNat) := by
  induction views generalizing s with
  | nil => exact ⟨s, rfl⟩
  | cons v views ih =>
    obtain ⟨hv, hviews⟩ := List.forall_mem_cons.1 h
    obtain ⟨s₁, hsel, -, honline, hnext⟩ := selectApRequestTargetContext_of_online hv hs
    have hlt := ApScheduler.registryIndex_lt hs
    have hcard : s.online.length ≤ 8 :=
      s.online_nodup.length_le_card.trans (Fintype.card_fin 8).le
    have hval : s₁.nextIndex.toNat = (s.registryIndex.toNat + 1) % s.online.length := by
      rw [hnext, UInt32.toNat_mod, UInt32.toNat_add, s.toNat_onlineCount,
        Nat.mod_eq_of_lt (show s.registryIndex.toNat + (1 : UInt32).toNat < 2 ^ 32 by
          have : (1 : UInt32).toNat = 1 := rfl
          omega)]
      rfl
    -- the index that was stored needs no clamp
    have hindex : s₁.registryIndex = s₁.nextIndex := by
      refine if_neg fun hle => ?_
      rw [UInt32.le_iff_toNat_le, s₁.toNat_onlineCount, honline, hval] at hle
      exact absurd (Nat.mod_lt _ (by omega)) (not_lt.2 hle)
    obtain ⟨s₂, hrun⟩ := ih (s := s₁) hviews (by rwa [honline])
    refine ⟨s₂, ?_⟩
    have hstep : schedulerStep b s (.select v.1 v.2) =
        some (s₁, [s.online[s.registryIndex.toNat]]) := by
      rw [schedulerStep, hsel]
      rfl
    rw [selections] at hrun
    rw [selections, List.map_cons, schedulerRun, hstep]
    simp only [Option.bind_eq_bind, Option.bind_some, hrun, honline, hindex, hval]
    rw [turns_mod, List.length_cons, turns, Nat.mod_eq_of_lt hlt, List.getElem?_eq_getElem hlt]
    rfl

/-- After any run the registry holds exactly the contexts that the latest rebuild found schedulable. -/
theorem mem_online_of_schedulerRun {calls : List SchedulerCall} {picked : List ApContextIndex}
    (h : ∀ call ∈ calls, NotExplicit b call) (hrun : schedulerRun b {} calls = some (s, picked))
    {i : ApContextIndex} : i ∈ s.online ↔
      ∃ contexts n, lastRebuild calls = some (contexts, n) ∧ Schedulable contexts n i := by
  have honline := online_of_schedulerRun h hrun
  cases hlast : lastRebuild calls with
  | none =>
    rw [hlast] at honline
    have hempty : s.online = [] := honline
    simp [hempty]
  | some v =>
    rw [hlast] at honline
    have hregistry : s.online = schedulableContexts v.1 v.2 := honline
    rw [hregistry, mem_schedulableContexts]
    constructor
    · exact fun hi => ⟨v.1, v.2, rfl, hi⟩
    · rintro ⟨contexts, n, hv, hi⟩
      obtain rfl := Option.some.inj hv
      exact hi

/-- **Round robin is fair.** The registry holds each context that the latest rebuild found schedulable
once, and nothing else; a selection returns one of them, and between rebuilds none is preferred. -/
theorem schedulerRun_fair (b : RouteBuild) (calls : List SchedulerCall)
    (h : ∀ call ∈ calls, NotExplicit b call) :
    ∃ s picked, schedulerRun b {} calls = some (s, picked) ∧ s.online.Nodup ∧
      (∀ i, i ∈ s.online ↔
        ∃ contexts₀ n₀, lastRebuild calls = some (contexts₀, n₀) ∧ Schedulable contexts₀ n₀ i) ∧
      (s.online ≠ [] → ∀ contexts n, explicitContext b contexts n = none →
        ∃ i s', selectApRequestTargetContext b s contexts n = some (i, s') ∧
          ∃ contexts₀ n₀, lastRebuild calls = some (contexts₀, n₀) ∧ Schedulable contexts₀ n₀ i) ∧
      (s.online ≠ [] → ∀ (next : UInt32) (views : List (ApContexts × Nat)),
        (∀ v ∈ views, explicitContext b v.1 v.2 = none) →
          ∃ s' picks, schedulerRun b { s with nextIndex := next } (selections views) =
              some (s', picks) ∧
            picks.length = views.length ∧ (∀ i ∈ picks, i ∈ s.online) ∧
            ∀ i ∈ s.online, picks.count i = views.length / s.online.length ∨
              picks.count i = (views.length + s.online.length - 1) / s.online.length) := by
  obtain ⟨s, picked, hrun⟩ := exists_schedulerRun {} h
  have honline := fun i => mem_online_of_schedulerRun h hrun (i := i)
  refine ⟨s, picked, hrun, s.online_nodup, honline, fun hs contexts n hexp => ?_,
    fun hs next views hviews => ?_⟩
  · obtain ⟨s', hsel, -⟩ := selectApRequestTargetContext_of_online hexp hs
    have hlt := ApScheduler.registryIndex_lt hs
    exact ⟨_, s', hsel, (honline _).1 (s.online.get_mem ⟨s.registryIndex.toNat, hlt⟩)⟩
  · obtain ⟨s', hpicks⟩ := schedulerRun_selections (s := { s with nextIndex := next }) hviews hs
    exact ⟨s', _, hpicks, length_turns hs _ _, fun _ => mem_of_mem_turns,
      fun i hi => count_turns s.online_nodup hi _ _⟩

/-- The APs of the list answer. -/
def answering (up : List ApContextIndex) : ApContexts := fun i => { online := decide (i ∈ up) }

/-- The registry starts with two contexts, grows to four and shrinks to two others. -/
def growAndShrink : List SchedulerCall :=
  [.rebuild (answering [0, 1]) 5, .select (answering [0, 1]) 5, .select (answering [0, 1]) 5,
    .select (answering [0, 1]) 5, .rebuild (answering [0, 1, 2, 4]) 5,
    .select (answering [0, 1, 2, 4]) 5, .select (answering [0, 1, 2, 4]) 5,
    .rebuild (answering [1, 4]) 5]

theorem schedulable_answering {up : List ApContextIndex} {n : Nat} {i : ApContextIndex} :
    Schedulable (answering up) n i ↔ i.val < n ∧ i ∈ up := by
  have hlive : apContextIsSchedulable (answering up i) = true ↔ i ∈ up := by
    rw [apContextIsSchedulable, answering]
    by_cases hi : i ∈ up
    · simp only [hi, decide_true, iff_true]
      rfl
    · simp [hi]
  exact ⟨fun h => ⟨h.inRange, hlive.1 h.live⟩, fun h => ⟨h.1, hlive.2 h.2⟩⟩

theorem notExplicit_growAndShrink : ∀ call ∈ growAndShrink, NotExplicit {} call := by
  have hnone : ∀ contexts n, explicitContext {} contexts n = none := fun _ _ => rfl
  simp [growAndShrink, NotExplicit, hnone]

/-- After it, five selections in a row from a stale `next_index` pick the two contexts twice and three
times. -/
theorem schedulerRun_fair_growAndShrink :
    (schedulerRun {} {} growAndShrink).map Prod.snd = some [0, 1, 0, 1, 2] ∧
      ∃ s picked s' picks, schedulerRun {} {} growAndShrink = some (s, picked) ∧
        s.online.Perm [1, 4] ∧
        schedulerRun {} { s with nextIndex := 3 }
          (selections (List.replicate 5 (answering [1], 5))) = some (s', picks) ∧
        picks.length = 5 ∧ (picks.count 1 = 2 ∨ picks.count 1 = 3) ∧
        (picks.count 4 = 2 ∨ picks.count 4 = 3) := by
  obtain ⟨s, picked, hrun, hnodup, honline, -, hfair⟩ :=
    schedulerRun_fair {} growAndShrink notExplicit_growAndShrink
  have hlast : lastRebuild growAndShrink = some (answering [1, 4], 5) := rfl
  have hperm : s.online.Perm [1, 4] := by
    refine (List.perm_ext_iff_of_nodup hnodup (by decide)).2 fun i => ?_
    rw [honline, hlast]
    constructor
    · rintro ⟨contexts, n, hv, hi⟩
      obtain ⟨rfl, rfl⟩ := Prod.mk.inj (Option.some.inj hv)
      exact (schedulable_answering.1 hi).2
    · intro hi
      refine ⟨_, _, rfl, schedulable_answering.2 ⟨?_, hi⟩⟩
      simp only [List.mem_cons, List.not_mem_nil, or_false] at hi
      rcases hi with rfl | rfl <;> decide
  have hlen : s.online.length = 2 := hperm.length_eq
  have hne : s.online ≠ [] := by
    rw [← List.length_pos_iff, hlen]
    decide
  obtain ⟨s', picks, hpicks, hcount, -, hshare⟩ :=
    hfair hne 3 (List.replicate 5 (answering [1], 5)) fun _ _ => rfl
  rw [hlen, List.length_replicate] at hshare
  refine ⟨by decide +kernel, s, picked, s', picks, hrun, hperm, hpicks, hcount, ?_, ?_⟩
  · exact hshare 1 (hperm.mem_iff.2 (by decide))
  · exact hshare 4 (hperm.mem_iff.2 (by decide))

end Fair

end VibeKernel

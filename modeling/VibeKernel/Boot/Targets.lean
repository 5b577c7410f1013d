import VibeKernel.Ap.SystemOutline
import VibeKernel.Boot.Starting
import VibeKernel.Boot.SlowStart

/-!
# Which processor each context gets

`count_supported_ap_targets` and `select_ap_target` are two scans of the same list. The skip counter
of the second one is the running count of the first one, so context `i` gets the entry that has `i`
supported entries before it.

In the loop of `efi_main` nobody but `bring_up_one_ap` stores a target, so the contexts still hold
theirs when the loop is over.
-/

namespace VibeKernel

open Conc

/-! ## Two scans -/

section Select

variable {acpi : AcpiInfo} {cpu : AcpiCpu}

/-- Position `pos` of the CPU list is supported and has `k` supported ones before it. -/
structure IsTarget (acpi : AcpiInfo) (k pos : Nat) (cpu : AcpiCpu) : Prop where
  entry : acpi.cpus[pos]? = some cpu
  supported : acpiCpuIsSupportedAp acpi cpu = true
  before : (acpi.cpus.take pos).countP (acpiCpuIsSupportedAp acpi) = k

/-- The scan of `select_ap_target` that has skipped `k` supported entries. -/
theorem selectApTargetFrom_eq_some_iff (t : Nat) : ∀ (cpus : List AcpiCpu) (k : Nat), k ≤ t →
    (selectApTargetFrom acpi t cpus k = some cpu ↔ ∃ pos, cpus[pos]? = some cpu ∧
      acpiCpuIsSupportedAp acpi cpu = true ∧
        k + (cpus.take pos).countP (acpiCpuIsSupportedAp acpi) = t) := by
  intro cpus
  induction cpus with
  | nil => exact fun k _ => by simp [selectApTargetFrom]
  | cons c cs ih =>
    intro k hk
    -- the head of the list is position 0, and position `pos + 1` is `pos` of the tail
    rw [← Nat.or_exists_add_one]
    simp only [List.getElem?_cons_zero, List.take_zero, List.countP_nil, List.getElem?_cons_succ,
      List.take_succ_cons, List.countP_cons, Nat.add_zero]
    by_cases hc : acpiCpuIsSupportedAp acpi c = true
    · by_cases hkt : k = t
      · subst hkt
        simp only [selectApTargetFrom, hc, if_true, ne_eq, not_true_eq_false, if_false]
        constructor
        · intro h
          obtain rfl := Option.some.inj h
          exact Or.inl ⟨rfl, hc, trivial⟩
        · rintro (⟨h, -⟩ | ⟨pos, -, -, h⟩)
          · exact h
          · omega
      · simp only [selectApTargetFrom, hc, if_true, ne_eq, hkt, not_false_eq_true]
        rw [ih (k + 1) (by omega)]
        constructor
        · rintro ⟨pos, he, hs, hn⟩
          exact Or.inr ⟨pos, he, hs, by omega⟩
        · rintro (⟨-, -, h⟩ | ⟨pos, he, hs, hn⟩)
          · exact h.elim
          · exact ⟨pos, he, hs, by omega⟩
    · simp only [selectApTargetFrom, hc, Bool.false_eq_true, if_false, Nat.add_zero]
      rw [ih k hk]
      constructor
      · exact fun h => Or.inr h
      · rintro (⟨h, hs, -⟩ | h)
        · obtain rfl := Option.some.inj h
          exact absurd hs hc
        · exact h

/-- `select_ap_target` finds the entry with `k` supported ones before it. -/
theorem selectApTarget_eq_some_iff (hok : acpi.error = .ok) (k : Nat) :
    selectApTarget acpi k = some cpu ↔ ∃ pos, IsTarget acpi k pos cpu := by
  rw [selectApTarget, if_neg (by simp [hok]), selectApTargetFrom_eq_some_iff k _ 0 (Nat.zero_le k)]
  simp only [Nat.zero_add]
  exact ⟨fun ⟨pos, he, hs, hn⟩ => ⟨pos, he, hs, hn⟩, fun ⟨pos, h⟩ => ⟨pos, h.1, h.2, h.3⟩⟩

/-- The scan that has skipped `k` entries finds one if the count goes beyond `t`. -/
theorem selectApTargetFrom_isSome_iff (t : Nat) : ∀ (cpus : List AcpiCpu) (k : Nat), k ≤ t →
    ((selectApTargetFrom acpi t cpus k).isSome = true ↔
      t < k + cpus.countP (acpiCpuIsSupportedAp acpi)) := by
  intro cpus
  induction cpus with
  | nil => exact fun k hk => by simpa [selectApTargetFrom] using hk
  | cons c cs ih =>
    intro k hk
    rw [List.countP_cons]
    by_cases hc : acpiCpuIsSupportedAp acpi c = true
    · by_cases hkt : k = t
      · simp only [selectApTargetFrom, hc, hkt, if_true, ne_eq, not_true_eq_false, if_false,
          Option.isSome_some, true_iff]
        omega
      · simp only [selectApTargetFrom, hc, if_true, ne_eq, hkt, not_false_eq_true]
        rw [ih (k + 1) (by omega)]
        omega
    · simp only [selectApTargetFrom, hc, Bool.false_eq_true, if_false]
      rw [ih k hk]
      omega

/-- `select_ap_target` succeeds on the indices that `count_supported_ap_targets` counts. -/
theorem selectApTarget_isSome_iff (acpi : AcpiInfo) (k : Nat) :
    (selectApTarget acpi k).isSome = true ↔ k < countSupportedApTargets acpi := by
  unfold selectApTarget countSupportedApTargets
  by_cases hok : acpi.error = .ok
  · simp only [hok, ne_eq, not_true_eq_false, if_false]
    rw [selectApTargetFrom_isSome_iff k _ 0 (Nat.zero_le k), Nat.zero_add]
  · simp [hok]

theorem ok_of_selectApTarget {k : Nat} (h : selectApTarget acpi k = some cpu) :
    acpi.error = .ok := by
  by_contra hok
  rw [selectApTarget, if_pos hok] at h
  cases h

/-- The two fields of `ap_boot_info_t` that `select_ap_target` stores. -/
structure ApTarget where
  acpiUid : UInt32 := 0
  apicId : UInt32 := 0

/-- `select_ap_target`, with what it does to `boot`. -/
def selectApTargetInto (acpi : AcpiInfo) (targetIndex : Nat) (boot : ApTarget) :
    Bool × ApTarget :=
  match selectApTarget acpi targetIndex with
  | some cpu => (true, { boot with acpiUid := cpu.acpiUid, apicId := cpu.apicId })
  | none => (false, boot)

/-- Counting and selecting agree on `acpi`. -/
structure ScansAgree (acpi : AcpiInfo) : Prop where
  succeeds : ∀ k boot, (selectApTargetInto acpi k boot).1 = true ↔ k < countSupportedApTargets acpi
  stores : ∀ k boot boot', selectApTargetInto acpi k boot = (true, boot') →
    ∃ pos cpu, IsTarget acpi k pos cpu ∧ boot' = ⟨cpu.acpiUid, cpu.apicId⟩
  unchanged : ∀ k boot boot', selectApTargetInto acpi k boot = (false, boot') → boot' = boot
  distinct : ∀ k k' pos pos' cpu cpu', IsTarget acpi k pos cpu → IsTarget acpi k' pos' cpu' →
    k ≠ k' → pos ≠ pos'

theorem scansAgree (acpi : AcpiInfo) : ScansAgree acpi where
  succeeds k boot := by
    rw [← selectApTarget_isSome_iff, selectApTargetInto]
    cases selectApTarget acpi k <;> simp
  stores k boot boot' h := by
    unfold selectApTargetInto at h
    split at h
    · rename_i cpu hcpu
      obtain ⟨pos, hpos⟩ := (selectApTarget_eq_some_iff (ok_of_selectApTarget hcpu) k).1 hcpu
      exact ⟨pos, cpu, hpos, (Prod.mk.inj h).2.symm⟩
    · cases h
  unchanged k boot boot' h := by
    unfold selectApTargetInto at h
    split at h
    · cases h
    · exact (Prod.mk.inj h).2.symm
  distinct k k' pos pos' cpu cpu' h h' hne hpos := by
    subst hpos
    exact hne (h.before.symm.trans h'.before)

end Select

/-! ## The loop -/

/-- Context `i` holds the entry with `i` supported ones before it, which is not the BSP. -/
def HasTarget (acpi : AcpiInfo) (i : ApContextIndex) (s : BootMemory) : Prop :=
  ∃ pos cpu, IsTarget acpi i pos cpu ∧ (s.wake i).targetAcpiUid = cpu.acpiUid ∧
    (s.contexts i).targetApicId = cpu.apicId ∧ cpu.apicId ≠ acpi.bspApicId

/-- Context `j` as far as the targets go. -/
structure SameAt (j : ApContextIndex) (s s' : BootMemory) : Prop where
  acpiUid : (s'.wake j).targetAcpiUid = (s.wake j).targetAcpiUid
  apicId : (s'.contexts j).targetApicId = (s.contexts j).targetApicId

/-- One access of an AP, as the BSP sees it. -/
structure SameTargets (s s' : BootMemory) : Prop where
  at_ : ∀ j, SameAt j s s'
  error : ∀ j, (s'.contexts j).error = (s.contexts j).error

theorem SameTargets.refl (s : BootMemory) : SameTargets s s :=
  ⟨fun _ => ⟨rfl, rfl⟩, fun _ => rfl⟩

/-- The contexts below `n` have their targets, and the others their first errors. -/
structure Given (acpi : AcpiInfo) (s₀ : BootMemory) (n : Nat) (s : BootMemory) : Prop where
  given : ∀ i : ApContextIndex, i.val < n → i.val < apContextCount acpi →
    (s₀.contexts i).error = .ok → HasTarget acpi i s
  error : ∀ i : ApContextIndex, n ≤ i.val → (s.contexts i).error = (s₀.contexts i).error

section Loop

variable {b : Build} {P : BringUpInput} {L : Layout} {s₀ : BootMemory} {n : Nat}

theorem HasTarget.of_same {acpi : AcpiInfo} {i : ApContextIndex} {s s' : BootMemory}
    (h : HasTarget acpi i s) (hs : SameAt i s s') : HasTarget acpi i s' := by
  obtain ⟨pos, cpu, hpos, hu, ha, hne⟩ := h
  exact ⟨pos, cpu, hpos, hs.acpiUid.trans hu, hs.apicId.trans ha, hne⟩

theorem Given.same {acpi : AcpiInfo} {s s' : BootMemory} (h : Given acpi s₀ n s)
    (hs : SameTargets s s') : Given acpi s₀ n s' :=
  ⟨fun i hi hc he => (h.given i hi hc he).of_same (hs.at_ i),
    fun i hi => (hs.error i).trans (h.error i hi)⟩

/-- Nobody but the BSP stores a target. -/
def targetOutline (b : Build) (P : BringUpInput) (L : Layout) (s₀ : BootMemory) :
    Outline (bootSystem b P L) where
  inv _ := True
  ok _ _ _ := True
  guar
    | .bsp => fun _ _ => True
    | .ap _ => SameTargets
  cut
    | .bsp => fun
      | .bringUp n => Given P.acpi s₀ n
      | .broughtUp => Given P.acpi s₀ maxApContexts
    | .ap _ => fun _ _ => True

/-- What the BSP can assert between two accesses. -/
def TargetFact (Q : BootMemory → Prop) : Prop := ∀ s s', SameTargets s s' → Q s → Q s'

theorem TargetFact.stable {Q : BootMemory → Prop} (hQ : TargetFact Q) :
    Stable ((targetOutline b P L s₀).env .bsp) Q := by
  rintro s s' ⟨u, hu, -, -, hg, -⟩ hs
  cases u with
  | bsp => exact absurd rfl hu
  | ap i => exact hQ s s' hg hs

theorem targetFact_given (acpi : AcpiInfo) (n : Nat) : TargetFact (Given acpi s₀ n) :=
  fun _ _ hs h => h.same hs

/-- Every context that gets a target has it. -/
theorem Given.last {acpi : AcpiInfo} {s : BootMemory} (h : Given acpi s₀ n s)
    (hn : apContextCount acpi ≤ n) : Given acpi s₀ maxApContexts s :=
  ⟨fun i _ hc he => h.given i (by omega) hc he, fun i hi => absurd i.isLt (by omega)⟩

/-- Everything but context `i` is as before. -/
structure SameBut (i : ApContextIndex) (s s' : BootMemory) : Prop where
  at_ : ∀ j ≠ i, SameAt j s s'
  error : ∀ j ≠ i, (s'.contexts j).error = (s.contexts j).error

variable {i : ApContextIndex}

theorem SameBut.setContext (s : BootMemory) (f : Machine → Machine) :
    SameBut i s (s.setContext i f) :=
  ⟨fun j hj => ⟨rfl, by simp [BootMemory.setContext, hj]⟩,
    fun j hj => by simp [BootMemory.setContext, hj]⟩

theorem SameBut.setWake (s : BootMemory) (f : ApWake → ApWake) : SameBut i s (s.setWake i f) :=
  ⟨fun j hj => ⟨by simp [BootMemory.setWake, hj], rfl⟩, fun _ _ => rfl⟩

/-- A step of `bring_up_one_ap` after the target is stored. -/
theorem StartStep.same {base : UInt64} {s s' : BootMemory} (h : StartStep base i s s') :
    SameBut i s s' ∧ SameAt i s s' := by
  cases h with
  | sipi | page => exact ⟨⟨fun _ _ => ⟨rfl, rfl⟩, fun _ _ => rfl⟩, rfl, rfl⟩
  | quiet h =>
    cases h with
    | still | touch => exact ⟨⟨fun _ _ => ⟨rfl, rfl⟩, fun _ _ => rfl⟩, rfl, rfl⟩
    | error | apState => exact ⟨.setContext s _, rfl, by simp [BootMemory.setContext]⟩
    | wake f hf => exact ⟨.setWake s f, by simp [BootMemory.setWake, hf], rfl⟩

/-- Context `i` is next. -/
theorem Given.next {acpi : AcpiInfo} {s : BootMemory} (h : Given acpi s₀ i s)
    (hi : i.val < apContextCount acpi → (s₀.contexts i).error = .ok → HasTarget acpi i s) :
    Given acpi s₀ (i + 1) s := by
  refine ⟨fun j hj hc he => ?_, fun j hj => h.error j (by omega)⟩
  by_cases hji : j = i
  · subst hji
    exact hi hc he
  · have hval : j.val ≠ i.val := fun he => hji (Fin.ext he)
    exact h.given j (by omega) hc he

/-- Context `i` is being written, its error aside. -/
theorem Given.before {acpi : AcpiInfo} {s s' : BootMemory} (h : Given acpi s₀ i s)
    (hs : SameBut i s s') (he : (s'.contexts i).error = (s.contexts i).error) :
    Given acpi s₀ i s' := by
  refine ⟨fun j hj hc hok => (h.given j hj hc hok).of_same (hs.at_ j ?_), fun j hj => ?_⟩
  · rintro rfl
    omega
  · by_cases hji : j = i
    · subst hji
      exact he.trans (h.error j hj)
    · exact (hs.error j hji).trans (h.error j hj)

/-- Context `i` has its target. -/
theorem Given.but {acpi : AcpiInfo} {s s' : BootMemory} (h : Given acpi s₀ (i + 1) s)
    (hs : SameBut i s s') (hi : SameAt i s s') : Given acpi s₀ (i + 1) s' := by
  refine ⟨fun j hj hc he => (h.given j hj hc he).of_same ?_, fun j hj => ?_⟩
  · by_cases hji : j = i
    · exact hji ▸ hi
    · exact hs.at_ j hji
  · have hji : j ≠ i := by
      rintro rfl
      omega
    exact (hs.error j hji).trans (h.error j hj)

/-- The stores that `bring_up_one_ap` begins with leave the error alone. -/
theorem within_resetBoot : (resetBoot i).Within fun s s' =>
    SameBut i s s' ∧ (s'.contexts i).error = (s.contexts i).error := by
  have herr : ∀ w ∈ resetApBoot, ∀ m, (w m).error = m.error := by simp [resetApBoot]
  have hctx : ∀ f : Machine → Machine, (∀ m, (f m).error = m.error) →
      (Prog.store fun s : BootMemory => s.setContext i f).Within fun s s' =>
        SameBut i s s' ∧ (s'.contexts i).error = (s.contexts i).error := fun f hf =>
    .store fun s => ⟨.setContext s _, by simp [BootMemory.setContext, hf]⟩
  refine .seq (.forEach_mem fun w hw => hctx w (herr w hw)) fun _ => ?_
  refine .seq (hctx _ fun m => rfl) fun _ => ?_
  exact .forEach (fun w => .store fun s => ⟨.setWake s w, rfl⟩) _

/-- A piece of code that keeps what the BSP knows. -/
theorem triple_kept {α : Type} {Q : BootMemory → Prop} {G : BootMemory → BootMemory → Prop}
    (hQ : TargetFact Q) (hG : ∀ s s', G s s' → Q s → Q s') {p : Prog BootMemory α}
    (hp : p.Within G) : Triple ((targetOutline b P L s₀).env .bsp) Q p fun _ => Q :=
  .within hQ.stable (fun s s' _ hs h => ⟨trivial, hG s s' hs h⟩) hp

/-- What follows the stores of the target. -/
theorem triple_starts {α : Type} (base : UInt64) {p : Prog BootMemory α} (hp : Starts base i p) :
    Triple ((targetOutline b P L s₀).env .bsp) (Given P.acpi s₀ (i + 1)) p
      fun _ => Given P.acpi s₀ (i + 1) :=
  triple_kept (targetFact_given _ _) (fun _ _ hs h => h.but hs.same.1 hs.same.2) hp

theorem triple_noteError (error : ApBootError) :
    Triple ((targetOutline b P L s₀).env .bsp) (Given P.acpi s₀ (i + 1)) (storeError i error)
      fun _ => Given P.acpi s₀ (i + 1) :=
  triple_starts 0 (.storeError error)

theorem triple_wakeTarget {cpu : AcpiCpu} (hsel : selectApTarget P.acpi i = some cpu) :
    Triple ((targetOutline b P L s₀).env .bsp) (Given P.acpi s₀ i) (wakeTarget P L i cpu)
      fun _ => Given P.acpi s₀ (i + 1) := by
  obtain ⟨pos, hpos⟩ := (selectApTarget_eq_some_iff (ok_of_selectApTarget hsel) _).1 hsel
  have hne : cpu.apicId ≠ P.acpi.bspApicId := by
    have := hpos.supported
    simp only [acpiCpuIsSupportedAp, Bool.and_eq_true, bne_iff_ne] at this
    exact this.1.2
  refine .bind (R := fun _ s => Given P.acpi s₀ i s ∧ (s.wake i).targetAcpiUid = cpu.acpiUid) ?_
    fun _ => ?_
  · exact .store (targetFact_given _ _).stable fun s _ _ h =>
      ⟨trivial, h.before (.setWake s _) rfl, by simp [BootMemory.setWake]⟩
  refine .bind (R := fun _ => Given P.acpi s₀ (i + 1)) ?_ fun _ => ?_
  · have hfact : TargetFact fun s => Given P.acpi s₀ i s ∧
        (s.wake i).targetAcpiUid = cpu.acpiUid := fun s s' hs h =>
      ⟨h.1.same hs, (hs.at_ i).acpiUid.trans h.2⟩
    refine .store hfact.stable fun s _ _ h => ⟨trivial, Given.next (h.1.before
      (.setContext s _) (by simp [BootMemory.setContext])) fun _ _ => ?_⟩
    exact ⟨pos, cpu, hpos, h.2, by simp [BootMemory.setContext], hne⟩
  refine .bind .any fun apicBase => ?_
  refine .cond (fun _ => triple_noteError _) fun _ => .cond (fun _ => triple_noteError _) fun _ => ?_
  refine .bind (triple_starts 0 (.buildApTrampoline P L)) fun built => ?_
  exact .cond (fun _ => triple_starts _ .startAp) fun _ => .ret fun _ h => h

/-- `bring_up_one_ap` for context `i` and target `i`. -/
theorem triple_bringUpTarget : Triple ((targetOutline b P L s₀).env .bsp) (Given P.acpi s₀ i)
    (bringUpOneAp P L i i) fun _ => Given P.acpi s₀ (i + 1) := by
  have hreset : Triple ((targetOutline b P L s₀).env .bsp) (Given P.acpi s₀ i) (resetBoot i)
      fun _ => Given P.acpi s₀ i :=
    triple_kept (targetFact_given _ _) (fun _ _ hs h => h.before hs.1 hs.2) within_resetBoot
  refine .bind hreset fun _ => ?_
  refine .bind (R := fun e s => e = (s₀.contexts i).error ∧ Given P.acpi s₀ i s) ?_ fun e => ?_
  · exact .load (targetFact_given _ _).stable (fun _ _ => trivial) fun s _ h =>
      ⟨h.error i (Nat.le_refl _), h⟩
  refine Triple.lift fun he => .cond (fun hne => ?_) fun _ => ?_
  · exact .ret fun s h => h.next fun _ hok => absurd hok (he ▸ hne)
  · split
    · rename_i hsel
      have hlast : ¬ i.val < apContextCount P.acpi := fun hlt => by
        have := (selectApTarget_isSome_iff P.acpi i).2 (Nat.lt_of_lt_of_le hlt (Nat.min_le_left _ _))
        rw [hsel] at this
        cases this
      exact (triple_noteError _).pre fun s h =>
        h.next fun hlt _ => absurd hlt hlast
    · rename_i cpu hsel
      exact triple_wakeTarget hsel

/-! ## The APs -/

theorem within_inContext {j : ApContextIndex} {p : Prog Machine ApPc} (hp : p.Within SameTarget) :
    (inContext j p).Within SameTargets := by
  refine .seq ((Prog.Within.onPart (L := contextPart j) hp).mono ?_) fun _ => .ret _
  rintro s s' ⟨m, hm, rfl⟩
  refine ⟨fun k => ⟨rfl, ?_⟩, fun k => ?_⟩
  all_goals
    by_cases hk : k = j
    · subst hk
      simpa [contextPart] using by first | exact hm.apicId | exact hm.error
    · simp [contextPart, hk]

theorem within_callEntry (j : ApContextIndex) (target : UInt64) (e : ApEntry) :
    (callEntry L j target e).Within SameTargets := by
  refine .cond (fun _ => ?_) fun _ => .ret _
  refine .seq (.store fun s => ⟨fun _ => ⟨rfl, rfl⟩, fun _ => rfl⟩) fun _ => ?_
  split
  · rename_i k _
    have hentry : ∀ st : ApEntryState, (Prog.store fun s : BootMemory =>
        s.setContext k fun m => { m with entryState := st }).Within SameTargets := by
      refine fun st => .store fun s => ⟨fun l => ⟨rfl, ?_⟩, fun l => ?_⟩
      all_goals
        by_cases hl : l = k
        · subst hl
          simp [BootMemory.setContext]
        · simp [BootMemory.setContext, hl]
    refine .seq (hentry _) fun _ => ?_
    exact .seq (hentry _) fun _ => .ret _
  · exact .ret _

theorem targetOutline_valid : (targetOutline b P L s₀).Valid where
  inv_guar _ _ _ _ _ _ := trivial
  stable t pc := by
    cases t with
    | bsp => cases pc <;> exact (targetFact_given _ _).stable
    | ap i => exact .true
  body t pc p hp := by
    cases t with
    | bsp =>
      cases pc with
      | bringUp n =>
        change bspBootBody P L (.bringUp n) = some p at hp
        -- one round of the loop, or its end; without contexts there is nothing to show
        simp only [bspBootBody] at hp
        split at hp
        · rename_i hzero
          obtain rfl := Option.some.inj hp
          refine .bind (R := fun _ _ => True) (fun s _ => wp_of_within (G := fun _ _ => True)
            (fun _ _ _ => trivial) (fun _ _ => trivial) _ s (.top _)) fun _ => .ret fun s _ => ?_
          exact ⟨fun i _ hc => absurd hc (by omega), fun i hi => absurd i.isLt (by omega)⟩
        · split at hp
          · rename_i hn
            split at hp
            · obtain rfl := Option.some.inj hp
              exact .bind (triple_bringUpTarget (i := ⟨n, hn⟩)) fun _ => .ret fun _ h => h
            · rename_i hle
              obtain rfl := Option.some.inj hp
              exact .ret fun s h => h.last (by omega)
          · rename_i hle
            obtain rfl := Option.some.inj hp
            exact .ret fun s h => h.last ((Nat.min_le_right _ _).trans (Nat.not_lt.1 hle))
      | broughtUp => cases hp
    | ap i =>
      intro s _
      -- an AP stores to no target, wherever it is
      refine wp_of_within (fun _ _ h => h) (fun _ _ => trivial) p s ?_
      cases pc with
      | waitForSipi => cases hp
      | lost => cases hp
      | call target e =>
        obtain rfl := Option.some.inj hp
        exact within_callEntry i target e
      | loop j pc =>
        obtain ⟨q, hq, rfl⟩ := Option.map_eq_some_iff.1 hp
        exact within_inContext (apBody_sameTarget pc q hq)
  trap t x s s' hi he hok := by
    cases t with
    | bsp => exact x.elim
    | ap i =>
      cases x with
      | sipi =>
        change enterApBoot L i .sipi s = some s' at he
        simp only [enterApBoot] at he
        split at he
        · obtain rfl := Option.some.inj he
          refine ⟨⟨fun _ => ⟨rfl, rfl⟩, fun _ => rfl⟩, wp_of_within (fun _ _ h => h)
            (fun _ _ => trivial) _ _ (still_runTrampoline.mono ?_)⟩
          rintro s s' rfl
          exact .refl s'
        · cases he
      | fault j frame =>
        change enterApBoot L i (.fault j frame) s = some s' at he
        simp only [enterApBoot] at he
        split at he
        · obtain ⟨m, hm, rfl⟩ := Option.map_eq_some_iff.1 he
          obtain ⟨rfl, -⟩ := enterFault_eq hm
          refine ⟨⟨fun k => ⟨rfl, ?_⟩, fun k => ?_⟩, wp_of_within (fun _ _ h => h)
            (fun _ _ => trivial) _ _ (within_inContext (apFaultDispatch_sameTarget frame))⟩
          all_goals
            by_cases hk : k = j
            · subst hk
              simp [BootMemory.setContext, Machine.note]
            · simp [BootMemory.setContext, hk]
        · cases he

end Loop

/-- **Counting and selecting agree, and each context gets its own processor.** -/
theorem targetsGiven_of_reach (b : Build) (P : BringUpInput) (L : Layout) {s : BootMemory}
    {c : (bootSystem b P L).Config}
    (hr : (bootSystem b P L).Reach (fun _ _ _ => True) (bootStart b P L s) c)
    (hdone : c.prog .bsp = .ret BootPc.broughtUp) :
    ScansAgree P.acpi ∧ ∀ i : ApContextIndex, i.val < apContextCount P.acpi →
      (s.contexts i).error = .ok → HasTarget P.acpi i c.mem := by
  refine ⟨scansAgree P.acpi, fun i hi hok => ?_⟩
  have hstart : (targetOutline b P L s).Holds (bootStart b P L s) := by
    refine ⟨trivial, fun t => ?_⟩
    cases t with
    | bsp => exact ⟨fun i hi => absurd hi (Nat.not_lt_zero _), fun i _ => rfl⟩
    | ap i => trivial
  have hat := (Outline.sound targetOutline_valid hstart hr).at_ .bsp
  rw [hdone] at hat
  have hgiven : Given P.acpi s maxApContexts c.mem := hat
  exact hgiven.given i i.isLt hi hok

/-- Two processors besides the BSP, and no LAPIC in the memory map. -/
def unmappedLapic : BringUpInput := { twoAps with map := .ofList [] }

/-- The BSP is through with the contexts. -/
def bootIsOver : Prog BootMemory BootPc → Bool
  | .ret .broughtUp => true
  | _ => false

theorem bootIsOver_iff {p : Prog BootMemory BootPc} :
    bootIsOver p = true ↔ p = .ret .broughtUp := by
  constructor
  · intro h
    unfold bootIsOver at h
    split at h
    · rfl
    · cases h
  · rintro rfl
    rfl

/-- `bring_up_one_ap` selects both processors and gives both up. -/
theorem targetsGiven_of_reach_unmappedLapic : ∃ c,
    (bootSystem {} unmappedLapic contextArray).Reach (fun _ _ _ => True)
      (bootStart {} unmappedLapic contextArray zeroedMemory) c ∧
    HasTarget unmappedLapic.acpi 0 c.mem ∧ HasTarget unmappedLapic.acpi 1 c.mem := by
  obtain ⟨c, hr, hdone⟩ : ∃ c, (bootSystem {} unmappedLapic contextArray).Reach (fun _ _ _ => True)
      (bootStart {} unmappedLapic contextArray zeroedMemory) c ∧
        bootIsOver (c.prog .bsp) = true := by
    refine System.exists_reach [.turns .bsp 200] ?_
    decide +kernel
  have hgiven := (targetsGiven_of_reach {} unmappedLapic contextArray hr
    (bootIsOver_iff.1 hdone)).2
  exact ⟨c, hr, hgiven 0 (by decide) rfl, hgiven 1 (by decide) rfl⟩

end VibeKernel

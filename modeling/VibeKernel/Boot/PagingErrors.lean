import VibeKernel.Boot.SetupPaging

/-!
# Failures of `setup_kernel_paging`

`alloc_page_table_page` answers 0 when there is no page left, and stores a reason. A pool that starts
at physical address 0 has its first page taken for such a failure: the call returns 0 and
`info->error` is still `PAGING_OK`. This is the only failure without a reason.
-/

namespace VibeKernel

open Conc Num

/-! ## The highest end -/

/-- Where the pages of the framebuffer end. -/
def Framebuffer.pagesEnd (fb : Framebuffer) : Nat :=
  (fb.base.toNat + (framebufferSizeBytes fb).toNat + 4095) / 4096 * 4096

/-- The descriptors and the pages of the framebuffer end at `top` or before, one of them at `top`. -/
structure HighestEnd (map : EfiMemoryMap) (fb : Framebuffer) (top : Nat) : Prop where
  limit : top ≤ 2 ^ 47
  descriptors : ∀ d ∈ map.descriptors, d.endNat ≤ top
  framebuffer : fb.pagesEnd ≤ top
  attained : top = fb.pagesEnd ∨ ∃ d ∈ map.descriptors, top = d.endNat

theorem HighestEnd.unique {map : EfiMemoryMap} {fb : Framebuffer} {m n : Nat}
    (hm : HighestEnd map fb m) (hn : HighestEnd map fb n) : m = n := by
  have hle : ∀ {m n : Nat}, HighestEnd map fb m → HighestEnd map fb n → m ≤ n := by
    intro m n hm hn
    rcases hm.attained with rfl | ⟨d, hd, rfl⟩
    · exact hn.framebuffer
    · exact hn.descriptors d hd
  exact Nat.le_antisymm (hle hm hn) (hle hn hm)

theorem maxDescEnd_attained {descs : List EfiMemoryDescriptor} {maxEnd r : UInt64}
    (h : maxDescEnd descs maxEnd = some r) : r = maxEnd ∨ ∃ d ∈ descs, r.toNat = d.endNat := by
  induction descs generalizing maxEnd with
  | nil => exact Or.inl (Option.some.inj h).symm
  | cons d descs ih =>
    obtain ⟨e, he, h⟩ := Option.bind_eq_some_iff.1 h
    have hend := (endNat_of_checked he).2
    split at h
    · cases h
    · rcases ih h with rfl | ⟨d', hd', hr⟩
      · split
        · exact Or.inr ⟨d, List.mem_cons_self, hend⟩
        · exact Or.inl rfl
      · exact Or.inr ⟨d', List.mem_cons_of_mem _ hd', hr⟩

theorem maxDescEnd_ne_none {descs : List EfiMemoryDescriptor} {maxEnd : UInt64}
    (h : ∀ d ∈ descs, d.endNat ≤ 2 ^ 47) : maxDescEnd descs maxEnd ≠ none := by
  induction descs generalizing maxEnd with
  | nil => nofun
  | cons d descs ih =>
    obtain ⟨hd, hrest⟩ := List.forall_mem_cons.1 h
    have hlt : d.endNat < 2 ^ 64 := by omega
    have hlimit : ¬ UInt64.ofNat d.endNat > lowCanonicalLimit := by
      rw [gt_iff_lt, UInt64.lt_iff_toNat_lt, UInt64.toNat_ofNat', Nat.mod_eq_of_lt hlt,
        show lowCanonicalLimit.toNat = 2 ^ 47 from rfl]
      omega
    rw [maxDescEnd, descriptorEndChecked_eq, if_pos hlt, Option.bind_some, if_neg hlimit]
    exact ih hrest

theorem framebufferEnd_ne_none {fb : Framebuffer} (h : fb.pagesEnd ≤ 2 ^ 47) :
    framebufferEnd fb ≠ none := by
  have hbytes := (framebufferSizeBytes fb).toNat_lt
  unfold Framebuffer.pagesEnd at h
  have hover : ¬ fb.base > ~~~0 - framebufferSizeBytes fb := by
    rw [gt_iff_lt, UInt64.lt_iff_toNat_lt, toNat_not_zero_sub]
    omega
  have hsum : (fb.base + framebufferSizeBytes fb).toNat
      = fb.base.toNat + (framebufferSizeBytes fb).toNat := toNat_add_of_lt (by omega)
  have hlimit : ¬ UInt64.ofNat ((fb.base.toNat + (framebufferSizeBytes fb).toNat + 4095) / 4096 * 4096)
      > lowCanonicalLimit := by
    rw [gt_iff_lt, UInt64.lt_iff_toNat_lt, UInt64.toNat_ofNat', Nat.mod_eq_of_lt (by omega),
      show lowCanonicalLimit.toNat = 2 ^ 47 from rfl]
    omega
  rw [framebufferEnd, if_neg hover, alignUp4kChecked_eq, hsum, if_pos (by omega), Option.bind_some,
    if_neg hlimit]
  nofun

/-- `max_end` is the highest end. -/
theorem maxIdentityEnd_eq_some_iff {map : EfiMemoryMap} {fb : Framebuffer} {maxEnd : UInt64} :
    maxIdentityEnd map fb = some maxEnd ↔ HighestEnd map fb maxEnd.toNat := by
  have hsound : ∀ {m : UInt64}, maxIdentityEnd map fb = some m → HighestEnd map fb m.toNat := by
    intro m h
    have hbelow := maxIdentityEnd_spec h
    refine ⟨hbelow.limit, hbelow.descriptors, hbelow.framebuffer, ?_⟩
    obtain ⟨e, he, h⟩ := Option.bind_eq_some_iff.1 h
    obtain ⟨f, hf, rfl⟩ := Option.map_eq_some_iff.1 h
    have hfb : fb.pagesEnd = f.toNat := (framebufferEnd_spec hf).2
    split
    · exact Or.inl hfb.symm
    · rename_i hle
      rcases maxDescEnd_attained he with rfl | hdesc
      · -- without a byte in the map, `max_end` stays 0 and so does `fb_end`
        rw [gt_iff_lt, UInt64.not_lt, UInt64.le_iff_toNat_le, UInt64.toNat_zero] at hle
        exact Or.inl (by rw [hfb, UInt64.toNat_zero]; omega)
      · exact Or.inr hdesc
  refine ⟨hsound, fun h => ?_⟩
  have hdescs : maxDescEnd map.descriptors 0 ≠ none :=
    maxDescEnd_ne_none fun d hd => (h.descriptors d hd).trans h.limit
  have hframe := framebufferEnd_ne_none (h.framebuffer.trans h.limit)
  obtain ⟨e, he⟩ := Option.ne_none_iff_exists'.1 hdescs
  obtain ⟨f, hf⟩ := Option.ne_none_iff_exists'.1 hframe
  have hsome : maxIdentityEnd map fb = some (if f > e then f else e) := by
    rw [maxIdentityEnd, he, Option.bind_some, hf, Option.map_some]
  rw [hsome]
  exact congrArg some (UInt64.toNat_inj.1 ((hsound hsome).unique h))

/-! ## A pool at address 0 -/

/-- Of the descriptors with the lowest start, the loop takes the first. -/
theorem choosePool_first {poolPages : UInt64} {descs : List EfiMemoryDescriptor} :
    ∀ {base : Nat} {selected : Option PoolChoice} {c : PoolChoice},
    choosePool poolPages descs base selected = some (some c) →
      selected = some c ∨ base ≤ c.index ∧ (∀ c', selected = some c' → c.start < c'.start) ∧
        ∀ k d, descs[k]? = some d → base + k < c.index → d.Usable poolPages →
          c.start < d.physicalStart := by
  induction descs with
  | nil => exact fun h => Or.inl (Option.some.inj h)
  | cons d descs ih =>
    intro base selected c h
    obtain ⟨mid, hmid, hrest⟩ := Option.bind_eq_some_iff.1 h
    have hrest := ih hrest
    -- once `d` was passed over in favour of something that starts before it
    have hpassed : (d.Usable poolPages → c.start < d.physicalStart) →
        (∀ c', selected = some c' → c.start < c'.start) → base + 1 ≤ c.index →
        (∀ k d, descs[k]? = some d → base + 1 + k < c.index → d.Usable poolPages →
          c.start < d.physicalStart) →
        base ≤ c.index ∧ (∀ c', selected = some c' → c.start < c'.start) ∧
          ∀ k d', (d :: descs)[k]? = some d' → base + k < c.index → d'.Usable poolPages →
            c.start < d'.physicalStart := by
      intro hd hsel hle hlater
      refine ⟨by omega, hsel, fun k d' hk hlt hu => ?_⟩
      cases k with
      | zero =>
        obtain rfl := Option.some.inj hk
        exact hd hu
      | succ k => exact hlater k d' hk (by omega) hu
    unfold considerDesc at hmid
    split at hmid
    · rename_i hskip
      obtain rfl := Option.some.inj hmid
      have hnot : ¬ d.Usable poolPages := by
        rintro ⟨ht, hp⟩
        exact hskip.elim (fun hne => hne ht) (UInt64.not_lt.2 hp)
      rcases hrest with hsel | ⟨hle, hsel, hlater⟩
      · exact Or.inl hsel
      · exact Or.inr (hpassed (fun hu => absurd hu hnot) hsel hle hlater)
    · split at hmid
      · cases hmid
      · rename_i e he
        obtain rfl := Option.some.inj hmid
        rcases hrest with hsel | ⟨hle, hsel, hlater⟩
        · obtain rfl := Option.some.inj hsel
          exact Or.inr ⟨Nat.le_refl _, nofun, fun k _ _ hlt => absurd hlt (by simp)⟩
        · exact Or.inr (hpassed (fun _ => hsel _ rfl) nofun hle hlater)
      · rename_i e old he
        split at hmid
        · rename_i hlt
          obtain rfl := Option.some.inj hmid
          have hold : ∀ {start : UInt64}, start ≤ d.physicalStart →
              ∀ c', some old = some c' → start < c'.start := by
            intro start hstart c' hc'
            obtain rfl := Option.some.inj hc'
            exact UInt64.lt_of_le_of_lt hstart hlt
          rcases hrest with hsel | ⟨hle, hsel, hlater⟩
          · obtain rfl := Option.some.inj hsel
            exact Or.inr ⟨Nat.le_refl _, hold (UInt64.le_refl _), fun k _ _ hlt => absurd hlt (by simp)⟩
          · have hlow := hsel _ rfl
            exact Or.inr (hpassed (fun _ => hlow) (hold (UInt64.le_of_lt hlow)) hle hlater)
        · rename_i hge
          obtain rfl := Option.some.inj hmid
          rcases hrest with hsel | ⟨hle, hsel, hlater⟩
          · exact Or.inl hsel
          · exact Or.inr (hpassed
              (fun _ => UInt64.lt_of_lt_of_le (hsel _ rfl) (UInt64.not_lt.1 hge)) hsel hle hlater)

/-- The first conventional descriptor at address 0 that is long enough has just the pool's length. -/
def TakesAddressZero (map : EfiMemoryMap) (poolPages : UInt64) : Prop :=
  ∃ i < map.descriptorCount.toNat, (map.memoryDescAt i).type = efiConventionalMemory ∧
    (map.memoryDescAt i).physicalStart = 0 ∧ (map.memoryDescAt i).numberOfPages = poolPages ∧
    ∀ j < i, ¬ ((map.memoryDescAt j).Usable poolPages ∧ (map.memoryDescAt j).physicalStart = 0)

/-- CR4.LA57 is clear, nothing ends beyond the low canonical half, and the pool of the pages that
`estimate_identity_page_table_pages` asks for is a descriptor that starts at address 0. -/
def PoolAtZero (la57 : Bool) (map : EfiMemoryMap) (fb : Framebuffer) : Prop :=
  la57 = false ∧ ∃ top : UInt64, HighestEnd map fb top.toNat ∧
    TakesAddressZero map (estimateIdentityPageTablePages top)

theorem getElem?_descriptors {map : EfiMemoryMap} {i : Nat} (h : i < map.descriptorCount.toNat) :
    map.descriptors[i]? = some (map.memoryDescAt i) := by
  simp [EfiMemoryMap.descriptors, h]

/-- The pool starts at 0 if the descriptor it is taken from does, and is used up. -/
theorem PoolChoice.Of.poolStart_eq_zero_iff {map : EfiMemoryMap} {poolPages : UInt64}
    {c : PoolChoice} (h : c.Of map poolPages) : c.poolStart poolPages = 0 ↔
      (map.memoryDescAt c.index).physicalStart = 0 ∧
        (map.memoryDescAt c.index).numberOfPages = poolPages := by
  have hle := UInt64.le_iff_toNat_le.1 h.usable.2
  rw [← UInt64.toNat_inj, ← UInt64.toNat_inj, ← UInt64.toNat_inj, h.poolStart_toNat,
    EfiMemoryDescriptor.endNat, UInt64.toNat_zero]
  omega

/-- A successful call made the end of the chosen descriptor the pool. -/
theorem exists_of_selectPageTablePool {map map' : EfiMemoryMap} {poolPages : UInt64}
    {info info' : PagingInfo} (h : selectPageTablePool map poolPages info = (true, map', info')) :
    ∃ c : PoolChoice, choosePool poolPages map.descriptors 0 none = some (some c) ∧
      info' = info.setPool c poolPages := by
  unfold selectPageTablePool at h
  split at h
  · cases h
  · cases h
  · rename_i c hsel
    refine ⟨c, hsel, ?_⟩
    rcases carvePool_cases map poolPages info c with ⟨-, hcarve⟩ | ⟨-, -, m, -, hcarve⟩ |
      ⟨-, -, hcarve⟩ <;> rw [hcarve] at h
    · exact (Prod.mk.inj (Prod.mk.inj h).2).2.symm
    · exact (Prod.mk.inj (Prod.mk.inj h).2).2.symm
    · cases (Prod.mk.inj h).1

theorem selectPageTablePool_atZero_iff {map : EfiMemoryMap} {poolPages : UInt64} {info : PagingInfo}
    (hends : ∀ d ∈ map.descriptors, d.endNat < 2 ^ 64) :
    (∃ map' info', selectPageTablePool map poolPages info = (true, map', info') ∧
      info'.poolStart = 0) ↔ TakesAddressZero map poolPages := by
  constructor
  · rintro ⟨map', info', h, hstart⟩
    obtain ⟨c, hsel, rfl⟩ := exists_of_selectPageTablePool h
    have hc := PoolChoice.of_choosePool hsel
    obtain ⟨hzero, hexact⟩ := hc.poolStart_eq_zero_iff.1 hstart
    refine ⟨c.index, hc.index, hc.usable.1, hzero, hexact, fun j hj hboth => ?_⟩
    obtain hnone | ⟨-, -, hfirst⟩ := choosePool_first hsel
    · cases hnone
    · have hlt := hfirst j _ (getElem?_descriptors (hj.trans hc.index)) (by omega) hboth.1
      rw [hboth.2] at hlt
      exact absurd hlt (UInt64.not_lt.2 (UInt64.le_iff_toNat_le.2 (Nat.zero_le _)))
  · rintro ⟨i, hi, htype, hzero, hexact, hfirst⟩
    have husable : (map.memoryDescAt i).Usable poolPages := ⟨htype, hexact ▸ UInt64.le_refl _⟩
    have hmem := EfiMemoryMap.mem_descriptors.2 ⟨i, hi, rfl⟩
    cases hsel : choosePool poolPages map.descriptors 0 none with
    | none => exact absurd hsel (choosePool_ne_none hends 0 none)
    | some r =>
      cases r with
      | none => exact absurd husable (((choosePool_spec hsel).1 rfl).2 _ hmem)
      | some c =>
        have hc := PoolChoice.of_choosePool hsel
        have hczero : (map.memoryDescAt c.index).physicalStart = 0 := by
          have hlow := UInt64.le_iff_toNat_le.1 (hc.lowest _ hmem husable)
          rw [hzero, UInt64.toNat_zero] at hlow
          exact UInt64.toNat_inj.1 (Nat.le_zero.1 hlow)
        -- neither a later nor an earlier one was chosen
        have hindex : c.index = i := by
          rcases Nat.lt_trichotomy c.index i with hlt | heq | hgt
          · exact absurd ⟨hc.usable, hczero⟩ (hfirst _ hlt)
          · exact heq
          · obtain hnone | ⟨-, -, hbefore⟩ := choosePool_first hsel
            · cases hnone
            · have hlt := hbefore i _ (getElem?_descriptors hi) (by omega) husable
              rw [hzero] at hlt
              exact absurd hlt (UInt64.not_lt.2 (UInt64.le_iff_toNat_le.2 (Nat.zero_le _)))
        have hcexact : (map.memoryDescAt c.index).numberOfPages = poolPages := by rw [hindex, hexact]
        refine ⟨map.setDescAt c.index { map.memoryDescAt c.index with type := efiLoaderData },
          info.setPool c poolPages, ?_, hc.poolStart_eq_zero_iff.2 ⟨hczero, hcexact⟩⟩
        simp only [selectPageTablePool, hsel, carvePool, if_pos hcexact]

theorem poolStartsAtZero_iff {la57 : Bool} {map : EfiMemoryMap} {fb : Framebuffer} :
    PoolStartsAtZero la57 map fb ↔ PoolAtZero la57 map fb := by
  refine and_congr_right fun _ => ?_
  have hends : ∀ {m : UInt64}, HighestEnd map fb m.toNat →
      ∀ d ∈ map.descriptors, d.endNat < 2 ^ 64 := by
    intro m h d hd
    have hd := h.descriptors d hd
    have hlimit := h.limit
    omega
  constructor
  · rintro ⟨maxEnd, map', info', hmax, hsel, hstart⟩
    have hhigh := maxIdentityEnd_eq_some_iff.1 hmax
    exact ⟨maxEnd, hhigh, (selectPageTablePool_atZero_iff (hends hhigh)).1 ⟨map', info', hsel, hstart⟩⟩
  · rintro ⟨top, hhigh, htakes⟩
    obtain ⟨map', info', hsel, hstart⟩ := (selectPageTablePool_atZero_iff (hends hhigh)).2 htakes
    exact ⟨top, map', info', maxIdentityEnd_eq_some_iff.2 hhigh, hsel, hstart⟩

/-! ## The result -/

/-- The call returns 0 exactly if it leaves an error. -/
def FailuresReported (la57 : Bool) (map : EfiMemoryMap) (fb : Framebuffer) (s : PagingState) : Prop :=
  ((setupKernelPaging la57 map fb).run s).1.1 = false ↔
    ((setupKernelPaging la57 map fb).run s).2.info.error ≠ .ok

/-- **Every failure has its reason, except for a pool at address 0.** -/
theorem failuresReported_iff (la57 : Bool) (map : EfiMemoryMap) (fb : Framebuffer) (s : PagingState)
    (hfits : map.Fits) (haligned : ∀ d ∈ map.descriptors, 4096 ∣ d.physicalStart.toNat) :
    FailuresReported la57 map fb s ↔ ¬ PoolAtZero la57 map fb := by
  have hpool := pagingPoolAligned_of_aligned haligned fb
  have hend := run_of_wp _ s (setupKernelPaging_triple la57 fb hfits hpool s trivial)
  rw [FailuresReported, hend.reported, poolStartsAtZero_iff]

theorem failuresReported_snugMap :
    FailuresReported false snugMap noFramebuffer ⟨{}, fun _ => 0⟩ ↔
      ¬ PoolAtZero false snugMap noFramebuffer :=
  failuresReported_iff false snugMap noFramebuffer _ snugMap_fits snugMap_aligned

/-- Twenty free pages at address 0, which is what the tables need. -/
def zeroMap : EfiMemoryMap :=
  .ofList [{ type := efiConventionalMemory, physicalStart := 0, numberOfPages := 20 }]

/-- The call fails, and `draw_paging_failure` shows `OK`. -/
theorem not_failuresReported_zeroMap :
    zeroMap.Fits ∧ (∀ d ∈ zeroMap.descriptors, 4096 ∣ d.physicalStart.toNat) ∧
      ¬ FailuresReported false zeroMap noFramebuffer ⟨{}, fun _ => 0⟩ := by
  have hfailed : ((setupKernelPaging false zeroMap noFramebuffer).run ⟨{}, fun _ => 0⟩).1.1 = false := by
    decide +kernel
  have hsilent : ((setupKernelPaging false zeroMap noFramebuffer).run
      ⟨{}, fun _ => 0⟩).2.info.error = .ok := by
    decide +kernel
  refine ⟨⟨by decide, by decide⟩, by decide +kernel, fun h => ?_⟩
  exact h.1 hfailed hsilent

end VibeKernel

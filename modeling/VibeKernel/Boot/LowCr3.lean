import VibeKernel.Boot.PagingErrors
import VibeKernel.Boot.BringUp

/-!
# CR3 below 4 GiB

The AP's trampoline loads CR3 in 32-bit code. The pool is the end of the lowest descriptor that is
long enough. If the descriptors are disjoint, the lowest one ends before any other starts, so one
long enough descriptor below 4 GiB keeps the pool below 4 GiB.
-/

namespace VibeKernel

open Conc Num

/-! ## What mapping leaves alone -/

/-- The root and the bounds of the pool are as before. -/
structure SamePool (s s' : PagingState) : Prop where
  cr3 : s'.info.cr3 = s.info.cr3
  poolEnd : s'.info.poolEnd = s.info.poolEnd
  reservedPages : s'.info.reservedPages = s.info.reservedPages

theorem SamePool.refl (s : PagingState) : SamePool s s := ⟨rfl, rfl, rfl⟩

section Within

variable {table index addr flags start bytes : UInt64} {error : PagingError}

theorem SamePool.allocPageTablePage : allocPageTablePage.Within SamePool := by
  refine .swap fun s => ?_
  split
  · exact ⟨rfl, rfl, rfl⟩
  · exact ⟨rfl, rfl, rfl⟩

theorem SamePool.loadEntry : (loadEntry table index).Within SamePool := .load .refl

theorem SamePool.storeEntry (entry : UInt64) : (storeEntry table index entry).Within SamePool :=
  .store fun _ => ⟨rfl, rfl, rfl⟩

theorem SamePool.ensureNextTable : (ensureNextTable table index).Within SamePool := by
  refine .seq SamePool.loadEntry fun entry => .cond (fun _ => .ret _) fun _ => ?_
  refine .seq SamePool.allocPageTablePage fun phys => .cond (fun _ => .ret _) fun _ => ?_
  exact .seq (SamePool.storeEntry _) fun _ => .ret _

theorem SamePool.mapEntry : (mapEntry table addr flags).Within SamePool := by
  refine .seq SamePool.loadEntry fun entry => ?_
  refine .cond (fun _ => .cond (fun _ => ?_) fun _ => ?_) fun _ => ?_
  · exact .seq (.store fun _ => ⟨rfl, rfl, rfl⟩) fun _ => .ret _
  · exact .seq (SamePool.storeEntry _) fun _ => .ret _
  · refine .seq (SamePool.storeEntry _) fun _ => ?_
    exact .seq (.store fun _ => ⟨rfl, rfl, rfl⟩) fun _ => .ret _

theorem SamePool.mapPage : (mapPage addr flags).Within SamePool := by
  refine .seq (.load .refl) fun pml4 => ?_
  refine .seq SamePool.ensureNextTable fun pdpt => ?_
  cases pdpt with
  | none => exact .ret _
  | some pdpt =>
    refine .seq SamePool.ensureNextTable fun pd => ?_
    cases pd with
    | none => exact .ret _
    | some pd =>
      refine .seq SamePool.ensureNextTable fun pt => ?_
      cases pt with
      | none => exact .ret _
      | some pt => exact SamePool.mapEntry

theorem SamePool.pagingFails : (pagingFails error).Within SamePool :=
  .seq (.store fun _ => ⟨rfl, rfl, rfl⟩) fun _ => .ret _

theorem SamePool.mapIdentityRange4k : (mapIdentityRange4k start bytes flags).Within SamePool := by
  refine .cond (fun _ => .ret _) fun _ => .cond (fun _ => SamePool.pagingFails) fun _ => ?_
  cases alignUp4kChecked (start + bytes) with
  | none => exact SamePool.pagingFails
  | some mapEnd =>
    refine .cond (fun _ => SamePool.pagingFails) fun _ => ?_
    exact .seq (.store fun _ => ⟨rfl, rfl, rfl⟩) fun _ => .allOf (fun _ => SamePool.mapPage) _

end Within

/-- A program that leaves the root and the pool alone. -/
theorem SamePool.triple {α : Type} {p : Prog PagingState α} (hp : p.Within SamePool)
    (cr3 poolEnd reservedPages : UInt64) :
    Triple (alone fun _ => True) (fun s => s.info.cr3 = cr3 ∧ s.info.poolEnd = poolEnd ∧
      s.info.reservedPages = reservedPages) p fun _ s => s.info.cr3 = cr3 ∧
        s.info.poolEnd = poolEnd ∧ s.info.reservedPages = reservedPages := by
  refine Triple.within (stable_alone _) (fun s s' _ hs h => ⟨trivial, ?_⟩) hp
  rw [hs.cr3, hs.poolEnd, hs.reservedPages]
  exact h

/-! ## Where the pool ends up -/

/-- The root is the first page of the pool, and the pool stays as it was selected. -/
theorem mapEverything_pool {map : EfiMemoryMap} {fb : Framebuffer} (info : PagingInfo) :
    Triple (alone fun _ => True) (fun s => s.info = info) (mapEverything map fb) fun r s => r = true →
      s.info.loadedCr3 = info.poolNext ∧ s.info.poolEnd = info.poolEnd ∧
        s.info.reservedPages = info.reservedPages := by
  refine .bind (R := fun cr3 s => (cr3 ≠ 0 → cr3 = info.poolNext) ∧ s.info.poolEnd = info.poolEnd ∧
    s.info.reservedPages = info.reservedPages) (.alone_swap fun s hs => ⟨trivial, ?_⟩) fun cr3 => ?_
  · subst hs
    split
    · exact ⟨fun h => absurd rfl h, rfl, rfl⟩
    · exact ⟨fun _ => rfl, rfl, rfl⟩
  refine Triple.lift fun hcr3 => ?_
  refine .bind (R := fun _ s => s.info.cr3 = cr3 ∧ s.info.poolEnd = info.poolEnd ∧
    s.info.reservedPages = info.reservedPages) (.alone_store fun s hs => ⟨trivial, rfl, hs⟩) fun _ => ?_
  refine .cond (fun _ => .ret fun _ _ => nofun) fun hne => ?_
  obtain rfl := hcr3 hne
  refine .bind (SamePool.triple (.allOf (fun _ => SamePool.mapIdentityRange4k) _) _ _ _) fun ok => ?_
  refine .cond (fun _ => ?_) fun _ => .ret fun _ _ => nofun
  refine .bind (SamePool.triple SamePool.mapIdentityRange4k _ _ _) fun ok => ?_
  refine .cond (fun _ => ?_) fun _ => .ret fun _ _ => nofun
  refine .bind (R := fun _ s => s.info.loadedCr3 = info.poolNext ∧ s.info.poolEnd = info.poolEnd ∧
    s.info.reservedPages = info.reservedPages) (.alone_store fun s hs => ⟨trivial, hs⟩) fun _ => ?_
  exact .ret fun _ hs _ => hs

/-- A successful call took the pool from the end of the lowest descriptor that is long enough. -/
theorem setupKernelPaging_pool (la57 : Bool) (map : EfiMemoryMap) (fb : Framebuffer) :
    Triple (alone fun _ => True) (fun _ => True) (setupKernelPaging la57 map fb) fun r s =>
      r.1 = true → ∃ c : PoolChoice, c.Of map s.info.reservedPages ∧ 0 < s.info.reservedPages.toNat ∧
        s.info.poolEnd = c.endAddr ∧ s.info.loadedCr3 = c.poolStart s.info.reservedPages := by
  -- every way out before the pool returns 0
  have hfails : ∀ (error : PagingError) (q : Bool → Bool × EfiMemoryMap), (∀ r, (q r).1 = r) →
      ∀ Q : Bool × EfiMemoryMap → PagingState → Prop,
      Triple (alone fun _ => True) (fun _ => True) (pagingFails error >>= fun r => pure (q r))
        fun r s => r.1 = true → Q r s := by
    intro error q hq Q
    refine .bind (R := fun r _ => r = false) ?_ fun r => .ret ?_
    · refine .bind (R := fun _ _ => True) ?_ fun _ => .ret fun _ _ => rfl
      exact .alone_store fun _ _ => ⟨trivial, trivial⟩
    · rintro s rfl hr
      rw [hq] at hr
      cases hr
  refine .bind (R := fun _ s => s.info = {}) (.alone_store fun s _ => ⟨trivial, rfl⟩) fun _ => ?_
  refine .cond (fun _ => (hfails _ (fun r => (r, map)) (fun _ => rfl) _).pre fun _ _ => trivial)
    fun _ => ?_
  cases hmax : maxIdentityEnd map fb with
  | none => exact (hfails _ (fun r => (r, map)) (fun _ => rfl) _).pre fun _ _ => trivial
  | some maxEnd =>
    have hpages : 0 < (estimateIdentityPageTablePages maxEnd).toNat := by
      have hest := tableBound_le_estimate (maxIdentityEnd_spec hmax).limit
      omega
    refine .bind (R := fun _ s => s.info = { maxIdentityEnd := maxEnd })
      (.alone_store fun s hs => ⟨trivial, by rw [hs]⟩) fun _ => ?_
    refine .bind (R := fun selected s => selected.1 = true → ∃ c : PoolChoice,
      c.Of map (estimateIdentityPageTablePages maxEnd) ∧
        s.info = PagingInfo.setPool { maxIdentityEnd := maxEnd } c
          (estimateIdentityPageTablePages maxEnd)) (.alone_swap fun s hs => ⟨trivial, ?_⟩)
      fun selected => ?_
    · rw [hs]
      intro hok
      obtain ⟨⟨ok, map', info'⟩, hsel⟩ : ∃ r, selectPageTablePool map
        (estimateIdentityPageTablePages maxEnd) { maxIdentityEnd := maxEnd } = r := ⟨_, rfl⟩
      rw [hsel] at hok ⊢
      obtain rfl : ok = true := hok
      obtain ⟨c, hchoice, rfl⟩ := exists_of_selectPageTablePool hsel
      exact ⟨c, PoolChoice.of_choosePool hchoice, rfl⟩
    refine .cond (fun hok => ?_) fun hok => .ret fun s _ hr => absurd hr hok
    refine Triple.pre (H := fun s => ∃ c : PoolChoice,
      c.Of map (estimateIdentityPageTablePages maxEnd) ∧
        s.info = PagingInfo.setPool { maxIdentityEnd := maxEnd } c
          (estimateIdentityPageTablePages maxEnd)) ?_ fun s hs => hs hok
    refine Triple.exists fun c => Triple.lift fun hc => ?_
    refine .bind (mapEverything_pool _) fun r => .ret fun s hs hr => ?_
    obtain ⟨hcr3, hend, hreserved⟩ := hs hr
    have hreserved : s.info.reservedPages = estimateIdentityPageTablePages maxEnd := hreserved
    exact ⟨c, hreserved ▸ hc, hreserved ▸ hpages, hend, hreserved ▸ hcr3⟩

/-- In a map of disjoint descriptors, the chosen descriptor ends no later than any other that is long
enough. -/
theorem PoolChoice.Of.endAddr_le {map : EfiMemoryMap} {poolPages : UInt64} {c : PoolChoice}
    (h : c.Of map poolPages) (hdisj : map.Disjoint) (hpos : 0 < poolPages.toNat)
    {d : EfiMemoryDescriptor} (hd : d ∈ map.descriptors) (hu : d.Usable poolPages) :
    c.endAddr.toNat ≤ d.endNat := by
  obtain ⟨i, hi, rfl⟩ := EfiMemoryMap.mem_descriptors.1 hd
  rw [h.endAddr]
  by_cases hic : c.index = i
  · rw [hic]
  · have hlow := UInt64.le_iff_toNat_le.1 (h.lowest _ hd hu)
    have hlong := UInt64.le_iff_toNat_le.1 hu.2
    have hend : (map.memoryDescAt i).endNat = (map.memoryDescAt i).physicalStart.toNat
        + (map.memoryDescAt i).numberOfPages.toNat * 4096 := rfl
    -- the first byte of the other descriptor is not in the chosen one
    by_contra hlt
    refine hdisj c.index i h.index hi hic (map.memoryDescAt i).physicalStart.toNat
      ⟨⟨hlow, ?_⟩, ⟨Nat.le_refl _, ?_⟩⟩
    · omega
    · omega

/-- An access that does not fail with `AP_BOOT_ERR_HIGH_CR3`. -/
def NotHighCr3 (m m' : BootMemory) : Prop :=
  ∀ j, (m'.contexts j).error = .highCr3 → (m.contexts j).error = .highCr3

theorem buildApTrampoline_notHighCr3 {P : BringUpInput} {L : Layout} {i : ApContextIndex}
    (h : P.loadedCr3 ≤ 0xffffffff) : (buildApTrampoline P L i).Within NotHighCr3 := by
  have herror : ∀ (m : BootMemory) (f : Machine → Machine),
      ((f (m.contexts i)).error = .highCr3 → (m.contexts i).error = .highCr3) →
        NotHighCr3 m (m.setContext i f) := by
    intro m f hf j hj
    by_cases hji : j = i
    · subst hji
      simp only [BootMemory.setContext, Function.update_self] at hj
      exact hf hj
    · simpa [BootMemory.setContext, Function.update_of_ne hji] using hj
  refine .cond (fun _ => ?_) fun _ => .cond (fun hhigh => ?_) fun _ => ?_
  · exact .seq (.store fun m => herror m _ nofun) fun _ => .ret _
  · exact absurd h (UInt64.not_le.2 hhigh)
  · refine .seq (.store fun _ _ hj => hj) fun _ => ?_
    refine .seq (.forEach (fun _ => .store fun _ _ hj => hj) _) fun _ => ?_
    exact .seq (.store fun m => herror m _ id) fun _ => .ret _

theorem snugMap_disjoint : snugMap.Disjoint := by
  have hcount : snugMap.descriptorCount.toNat = 2 := rfl
  have h0 : (snugMap.memoryDescAt 0).endNat = 0x15000 := by decide +kernel
  have h1 : (snugMap.memoryDescAt 1).physicalStart.toNat = 0x15000 := by decide +kernel
  have hpair : ∀ a, ¬ ((snugMap.memoryDescAt 0).Covers a ∧ (snugMap.memoryDescAt 1).Covers a) := by
    rintro a ⟨⟨-, ha⟩, ⟨hb, -⟩⟩
    omega
  intro i j hi hj hij a
  obtain rfl | rfl : i = 0 ∨ i = 1 := by omega
  · obtain rfl : j = 1 := by omega
    exact hpair a
  · obtain rfl : j = 0 := by omega
    exact fun h => hpair a ⟨h.2, h.1⟩

/-- **One descriptor below 4 GiB that is long enough keeps CR3 below 4 GiB.** -/
theorem loadedCr3_low (la57 : Bool) (map map' : EfiMemoryMap) (fb : Framebuffer)
    (s s' : PagingState) (hdisj : map.Disjoint)
    (h : (setupKernelPaging la57 map fb).run s = ((true, map'), s')) (d : EfiMemoryDescriptor)
    (hd : d ∈ map.descriptors) (htype : d.type = efiConventionalMemory)
    (hlong : s'.info.reservedPages ≤ d.numberOfPages) (hlow : d.endNat ≤ 2 ^ 32) :
    s'.info.poolEnd.toNat ≤ 2 ^ 32 ∧ s'.info.loadedCr3 ≤ 0xffffffff ∧
      ∀ (P : BringUpInput) (L : Layout) (i : ApContextIndex), P.loadedCr3 = s'.info.loadedCr3 →
        (buildApTrampoline P L i).Within NotHighCr3 := by
  have hend := run_of_wp _ s (setupKernelPaging_pool la57 map fb s trivial)
  rw [h] at hend
  obtain ⟨c, hc, hpos, hpoolEnd, hcr3⟩ := hend rfl
  have hle := hc.endAddr_le hdisj hpos hd ⟨htype, hlong⟩
  have hstart := hc.poolStart_toNat
  have hcend := hc.endAddr
  have hcr3low : s'.info.loadedCr3 ≤ 0xffffffff := by
    rw [UInt64.le_iff_toNat_le, show (0xffffffff : UInt64).toNat = 2 ^ 32 - 1 from rfl, hcr3]
    omega
  refine ⟨by rw [hpoolEnd]; omega, hcr3low, fun P L i hP => ?_⟩
  exact buildApTrampoline_notHighCr3 (hP ▸ hcr3low)

theorem loadedCr3_low_snugMap :
    snugPaging.2.info.poolEnd.toNat ≤ 2 ^ 32 ∧ snugPaging.2.info.loadedCr3 ≤ 0xffffffff := by
  have hlow := loadedCr3_low false snugMap snugPaging.1.2 noFramebuffer _ snugPaging.2
    snugMap_disjoint snugPaging_eq
    { type := efiConventionalMemory, physicalStart := 0x1000, numberOfPages := 20 }
    (by decide +kernel) rfl (by rw [snugPaging_succeeds.2.2]; decide) (by decide)
  exact ⟨hlow.1, hlow.2.1⟩

end VibeKernel

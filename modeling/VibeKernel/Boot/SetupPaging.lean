import VibeKernel.Boot.IdentityMap
import Mathlib.Data.Set.Card

/-!
# `setup_kernel_paging`

The pool that `select_page_table_pool` takes is an arena for the tables, whatever the map and the
framebuffer are: the estimate covers every level's rounded-up quotient, and everything that gets
mapped lies below `max_end`.

From this follow the two results about the call. Throughout, the pool's pages are handed out in
order and none is missing. In the end, the walk of the processor finds the pages of the map and of
the framebuffer, and no other.
-/

namespace VibeKernel

open Conc Num Num.Radix

/-! ## The estimate -/

theorem tableBound_eq (pages : Nat) :
    tableBound pages = tablesAt 512 pages 0 + tablesAt 512 pages 1 + tablesAt 512 pages 2
      + tablesAt 512 pages 3 := by
  simp [tableBound, Finset.sum_range_succ]

/-- **The estimate covers every level**, with its slack to spare. -/
theorem tableBound_le_estimate {maxEnd : UInt64} (h : maxEnd.toNat ≤ 2 ^ 47) :
    tableBound ((maxEnd.toNat + 4095) / 4096) + 16
      ≤ (estimateIdentityPageTablePages maxEnd).toNat := by
  have hpages := divRoundUp64_toNat maxEnd (show 0 < pageSize4k.toNat by decide)
  rw [show pageSize4k.toNat = 4096 from rfl] at hpages
  -- the page-table pages of level `l`, as the program counts them
  have hlevel : ∀ (l : Nat) (divisor : UInt64), 0 < divisor.toNat → divisor.toNat = 512 ^ (l + 1) →
      (divRoundUp64 (divRoundUp64 maxEnd pageSize4k) divisor).toNat
        = tablesAt 512 ((maxEnd.toNat + 4095) / 4096) l := by
    intro l divisor hpos hdiv
    rw [divRoundUp64_toNat _ hpos, hpages, hdiv, tablesAt, show maxEnd.toNat + 4096 - 1
      = maxEnd.toNat + 4095 by omega]
  have hpt := hlevel 0 pageTableEntries (by decide) (by decide)
  have hpd := hlevel 1 (pageTableEntries * pageTableEntries) (by decide) (by decide)
  have hpdpt := hlevel 2 (pageTableEntries * pageTableEntries * pageTableEntries)
    (by decide) (by decide)
  have h0 : tablesAt 512 ((maxEnd.toNat + 4095) / 4096) 0 ≤ 2 ^ 35 := by unfold tablesAt; omega
  have h1 : tablesAt 512 ((maxEnd.toNat + 4095) / 4096) 1 ≤ 2 ^ 35 := by unfold tablesAt; omega
  have h2 : tablesAt 512 ((maxEnd.toNat + 4095) / 4096) 2 ≤ 2 ^ 35 := by unfold tablesAt; omega
  have h3 : tablesAt 512 ((maxEnd.toNat + 4095) / 4096) 3 ≤ 1 := by unfold tablesAt; omega
  have hone : (1 : UInt64).toNat = 1 := rfl
  have hsum : (estimateIdentityPageTablePages maxEnd).toNat
      = 1 + tablesAt 512 ((maxEnd.toNat + 4095) / 4096) 2
        + tablesAt 512 ((maxEnd.toNat + 4095) / 4096) 1
        + tablesAt 512 ((maxEnd.toNat + 4095) / 4096) 0 + 16 := by
    have hslack : (16 : UInt64).toNat = 16 := rfl
    unfold estimateIdentityPageTablePages
    simp only
    rw [toNat_add_of_lt, toNat_add_of_lt, toNat_add_of_lt, toNat_add_of_lt, hpt, hpd, hpdpt, hone, hslack]
    all_goals simp only [UInt64.toNat_add, hpt, hpd, hpdpt, hone, hslack]
    all_goals omega
  rw [tableBound_eq, hsum]
  omega

/-! ## The highest end -/

theorem maxDescEnd_spec {descs : List EfiMemoryDescriptor} :
    ∀ {maxEnd r : UInt64}, maxEnd ≤ lowCanonicalLimit → maxDescEnd descs maxEnd = some r →
      r ≤ lowCanonicalLimit ∧ maxEnd ≤ r ∧ ∀ d ∈ descs, d.endNat ≤ r.toNat := by
  induction descs with
  | nil =>
    intro maxEnd r hmax h
    obtain rfl := Option.some.inj h
    exact ⟨hmax, UInt64.le_refl _, by simp⟩
  | cons d descs ih =>
    intro maxEnd r hmax h
    obtain ⟨e, he, h⟩ := Option.bind_eq_some_iff.1 h
    rw [descriptorEndChecked_eq] at he
    split at he
    · rename_i hlt
      have hend : e.toNat = d.endNat := by
        rw [← Option.some.inj he, UInt64.toNat_ofNat', Nat.mod_eq_of_lt hlt]
      split at h
      · cases h
      · rename_i hlimit
        rw [gt_iff_lt, UInt64.not_lt] at hlimit
        -- the next round starts from the larger of the two ends
        have hnext : (if e > maxEnd then e else maxEnd) ≤ lowCanonicalLimit ∧
            maxEnd ≤ (if e > maxEnd then e else maxEnd) ∧
            e ≤ (if e > maxEnd then e else maxEnd) := by
          split
          · rename_i hgt
            exact ⟨hlimit, UInt64.le_of_lt hgt, UInt64.le_refl _⟩
          · rename_i hle
            rw [gt_iff_lt, UInt64.not_lt] at hle
            exact ⟨hmax, UInt64.le_refl _, hle⟩
        obtain ⟨hr, hge, hrest⟩ := ih hnext.1 h
        refine ⟨hr, UInt64.le_trans hnext.2.1 hge, List.forall_mem_cons.2 ⟨?_, hrest⟩⟩
        rw [← hend]
        exact UInt64.le_iff_toNat_le.1 (UInt64.le_trans hnext.2.2 hge)
    · cases he

/-- The pages of the framebuffer end below `fb_end`. -/
theorem framebufferEnd_spec {fb : Framebuffer} {r : UInt64} (h : framebufferEnd fb = some r) :
    r ≤ lowCanonicalLimit ∧
      (fb.base.toNat + (framebufferSizeBytes fb).toNat + 4095) / 4096 * 4096 = r.toNat := by
  unfold framebufferEnd at h
  split at h
  · cases h
  · rename_i hover
    rw [gt_iff_lt, UInt64.not_lt, UInt64.le_iff_toNat_le, toNat_not_zero_sub] at hover
    have hbytes := (framebufferSizeBytes fb).toNat_lt
    have hsum : (fb.base + framebufferSizeBytes fb).toNat
        = fb.base.toNat + (framebufferSizeBytes fb).toNat := toNat_add_of_lt (by omega)
    obtain ⟨e, he, h⟩ := Option.bind_eq_some_iff.1 h
    rw [alignUp4kChecked_eq, hsum] at he
    split at he
    · split at h
      · cases h
      · rename_i hlimit
        obtain rfl := Option.some.inj h
        refine ⟨UInt64.not_lt.1 hlimit, ?_⟩
        rw [← Option.some.inj he, UInt64.toNat_ofNat', Nat.mod_eq_of_lt (by omega)]
    · cases he

/-- What lies below `max_end`. -/
structure BelowEnd (map : EfiMemoryMap) (fb : Framebuffer) (maxEnd : UInt64) : Prop where
  limit : maxEnd.toNat ≤ 2 ^ 47
  descriptors : ∀ d ∈ map.descriptors, d.endNat ≤ maxEnd.toNat
  framebuffer : (fb.base.toNat + (framebufferSizeBytes fb).toNat + 4095) / 4096 * 4096 ≤ maxEnd.toNat

theorem maxIdentityEnd_spec {map : EfiMemoryMap} {fb : Framebuffer} {maxEnd : UInt64}
    (h : maxIdentityEnd map fb = some maxEnd) : BelowEnd map fb maxEnd := by
  obtain ⟨d, hd, h⟩ := Option.bind_eq_some_iff.1 h
  obtain ⟨f, hf, rfl⟩ := Option.map_eq_some_iff.1 h
  obtain ⟨hdlimit, -, hdescs⟩ := maxDescEnd_spec (UInt64.le_iff_toNat_le.2 (by decide)) hd
  obtain ⟨hflimit, hfb⟩ := framebufferEnd_spec hf
  have h47 : lowCanonicalLimit.toNat = 2 ^ 47 := rfl
  rw [UInt64.le_iff_toNat_le, h47] at hdlimit hflimit
  split
  · rename_i hgt
    rw [gt_iff_lt, UInt64.lt_iff_toNat_lt] at hgt
    exact ⟨hflimit, fun d hd => (hdescs d hd).trans (by omega), by omega⟩
  · rename_i hle
    rw [gt_iff_lt, UInt64.not_lt, UInt64.le_iff_toNat_le] at hle
    exact ⟨hdlimit, hdescs, by omega⟩

/-! ## What the walk finds -/

section Walk

variable {A : Arena} {t : TableTree} {s : PagingState}

/-- One level of the walk, from a table that is there. -/
theorem Laid.walkStep_over (h : Laid A t s) {l p : Nat} (hl : l < 3)
    (hk : tableOver 512 (l + 1) p ∈ t.tables) {a : UInt64} (ha : a.toNat = p * 4096) {tr : Translation}
    (htr : (tr.entry &&& pteAddrMask).toNat = t.addr A.base (tableOver 512 (l + 1) p)) :
    (tableOver 512 l p ∉ t.tables ∧ walkStep s.mem (l + 1) a tr = none) ∨
    (tableOver 512 l p ∈ t.tables ∧ ∃ tr', walkStep s.mem (l + 1) a tr = some tr' ∧
      (tr'.entry &&& pteAddrMask).toNat = t.addr A.base (tableOver 512 l p) ∧
      tr'.writable = tr.writable) := by
  have hentry := h.entry_over hk htr (tableIndex_toNat (l := l + 1) (by omega) ha)
  by_cases hin : tableOver 512 l p ∈ t.tables
  · refine Or.inr ⟨hin, ?_⟩
    have hlt := (h.tree.addr_lt hin).2
    have hdvd := t.addr_dvd (A := A) (tableOver 512 l p)
    rw [if_pos hin] at hentry
    have hpresent := (present_iff (s.mem (entryAddr (tr.entry &&& pteAddrMask)
      (tableIndex (l + 1) a)))).2 (by omega)
    have hrw := (and_bit_ne_zero_iff (s.mem (entryAddr (tr.entry &&& pteAddrMask)
      (tableIndex (l + 1) a))) (m := pteRw) (k := 1) rfl).2 (by omega)
    refine ⟨_, if_pos hpresent, entry_addr hentry hdvd (by omega) (by omega), ?_⟩
    simp [hrw]
  · refine Or.inl ⟨hin, if_neg ?_⟩
    rw [if_neg hin] at hentry
    rw [present_iff, hentry]
    decide

/-- The last level. -/
theorem Laid.walkStep_leaf (h : Laid A t s) {p : Nat} (hk : tableOver 512 0 p ∈ t.tables) {a : UInt64}
    (ha : a.toNat = p * 4096) {tr : Translation}
    (htr : (tr.entry &&& pteAddrMask).toNat = t.addr A.base (tableOver 512 0 p)) :
    (p ∉ t.mapped ∧ walkStep s.mem 0 a tr = none) ∨
    (p ∈ t.mapped ∧ ∃ tr', walkStep s.mem 0 a tr = some tr' ∧
      tr'.entry.toNat = p * 4096 + t.flags p ∧ tr'.writable = tr.writable) := by
  have hentry := h.entry_leaf hk htr (tableIndex_toNat (l := 0) (by omega) ha)
  by_cases hin : p ∈ t.mapped
  · refine Or.inr ⟨hin, ?_⟩
    rw [if_pos hin] at hentry
    have hflags : t.flags p = 27 ∨ t.flags p = 3 := by
      unfold TableTree.flags
      split
      · exact Or.inl rfl
      · exact Or.inr rfl
    have hpresent := (present_iff (s.mem (entryAddr (tr.entry &&& pteAddrMask)
      (tableIndex 0 a)))).2 (by omega)
    have hrw := (and_bit_ne_zero_iff (s.mem (entryAddr (tr.entry &&& pteAddrMask)
      (tableIndex 0 a))) (m := pteRw) (k := 1) rfl).2 (by omega)
    refine ⟨_, if_pos hpresent, hentry, ?_⟩
    simp [hrw]
  · refine Or.inl ⟨hin, if_neg ?_⟩
    rw [if_neg hin] at hentry
    rw [present_iff, hentry]
    decide

theorem Laid.root_over (h : Laid A t s) {p : Nat} (hp : p < 2 ^ 36) :
    tableOver 512 3 p ∈ t.tables ∧
      (s.info.cr3 &&& pteAddrMask).toNat = t.addr A.base (tableOver 512 3 p) := by
  have hroot : tableOver 512 3 p = (3, 0) := by
    have hzero : p / 512 ^ (3 + 1) = 0 := Nat.div_eq_of_lt (by omega)
    rw [tableOver, hzero]
  have haddr : t.addr A.base (3, 0) = A.base := by
    rw [TableTree.addr, h.tree.rootFirst, Nat.mul_zero, Nat.add_zero]
  have hlt := (h.tree.addr_lt h.tree.root).2
  rw [haddr] at hlt
  rw [hroot, haddr]
  exact ⟨h.tree.root, entry_addr (h.cr3.trans (Nat.add_zero _).symm) A.aligned (by omega) (by omega)⟩

/-- Every table on the way to a mapped page is there. -/
theorem TableTree.Proper.over_mem (h : t.Proper A.pages) {p : Nat} (hp : p ∈ t.mapped) :
    ∀ {l : Nat}, l ≤ 3 → tableOver 512 l p ∈ t.tables
  | 0, _ => h.leaf p hp
  | l + 1, hl => by
    have hparent := h.parent l _ (over_mem h hp (l := l) (by omega)) (by omega)
    rwa [Nat.div_div_eq_div_mul, ← pow_succ] at hparent

/-- No entry of the root in its upper half is present. -/
theorem Laid.root_upper (h : Laid A t s) {i : UInt64} (hlo : 256 ≤ i.toNat) (hhi : i.toNat < 512)
    {root : UInt64} (hroot : root.toNat = A.base) : s.mem (entryAddr root i) &&& ptePresent = 0 := by
  have hpages := A.pages_le
  have hlt := (h.tree.addr_lt h.tree.root).2
  have haddr : t.addr A.base (3, 0) = A.base := by
    rw [TableTree.addr, h.tree.rootFirst, Nat.mul_zero, Nat.add_zero]
  have hmissing : child 512 (3, 0) i.toNat ∉ t.tables := by
    intro hin
    have hbelow := (h.tree.below _ hin).2
    simp only [child, tablesAt] at hbelow
    omega
  have hword : (s.mem (entryAddr root i)).toNat = 0 := by
    rw [s.mem_toNat, entryAddr_toNat hroot rfl (by omega), ← haddr, h.words _ h.tree.root _ hhi,
      TableTree.entry, if_neg (by decide), if_neg hmissing]
  by_contra hne
  rw [← ne_eq, present_iff, hword] at hne
  cases hne

/-- **The walk finds exactly the mapped pages.** -/
theorem Laid.walk_eq (h : Laid A t s) {p : Nat} {a : UInt64} (ha : a.toNat = p * 4096) :
    (p ∉ t.mapped ∧ walk s.mem s.info.cr3 a = none) ∨
    (p ∈ t.mapped ∧ ∃ tr, walk s.mem s.info.cr3 a = some tr ∧
      tr.entry.toNat = p * 4096 + t.flags p ∧ tr.writable = true) := by
  have hpages := A.pages_le
  have h47 : lowCanonicalLimit.toNat = 2 ^ 47 := rfl
  have hmapped : p ∈ t.mapped → p < 2 ^ 35 := fun hp =>
    (h.tree.mapped_lt p hp).trans_le hpages
  by_cases hcan : Canonical a
  · rw [walk, if_pos hcan]
    by_cases hlow : p < 2 ^ 35
    · -- down the tree, until a table is missing
      obtain ⟨hk3, hroot⟩ := h.root_over (p := p) (by omega)
      have hroot' : ((⟨s.info.cr3, true⟩ : Translation).entry &&& pteAddrMask).toNat
        = t.addr A.base (tableOver 512 3 p) := hroot
      rcases h.walkStep_over (l := 2) (by omega) hk3 ha hroot' with
        ⟨hno, hstep⟩ | ⟨hk2, tr2, hstep, htr2, hw2⟩ <;> rw [hstep]
      · exact Or.inl ⟨fun hp => hno (h.tree.over_mem hp (by omega)), rfl⟩
      rw [Option.bind_some]
      rcases h.walkStep_over (l := 1) (by omega) hk2 ha htr2 with
        ⟨hno, hstep⟩ | ⟨hk1, tr1, hstep, htr1, hw1⟩ <;> rw [hstep]
      · exact Or.inl ⟨fun hp => hno (h.tree.over_mem hp (by omega)), rfl⟩
      rw [Option.bind_some]
      rcases h.walkStep_over (l := 0) (by omega) hk1 ha htr1 with
        ⟨hno, hstep⟩ | ⟨hk0, tr0, hstep, htr0, hw0⟩ <;> rw [hstep]
      · exact Or.inl ⟨fun hp => hno (h.tree.over_mem hp (by omega)), rfl⟩
      rw [Option.bind_some]
      rcases h.walkStep_leaf hk0 ha htr0 with ⟨hno, hstep⟩ | ⟨hp, tr, hstep, htr, hw⟩ <;> rw [hstep]
      · exact Or.inl ⟨hno, rfl⟩
      · exact Or.inr ⟨hp, tr, rfl, htr, by rw [hw, hw0, hw1, hw2]⟩
    · -- the upper half of the root is empty
      refine Or.inl ⟨fun hp => hlow (hmapped hp), ?_⟩
      have hupper : 2 ^ 64 - 2 ^ 47 ≤ a.toNat := by
        rcases hcan with hlt | hgt
        · rw [UInt64.lt_iff_toNat_lt, h47] at hlt
          omega
        · rw [UInt64.lt_iff_toNat_lt, show (~~~lowCanonicalLimit).toNat = 2 ^ 64 - 1 - 2 ^ 47 from rfl]
            at hgt
          omega
      have hidx := tableIndex_toNat (l := 3) (by omega) ha
      have hlt := a.toNat_lt
      have hroot : (s.info.cr3 &&& pteAddrMask).toNat = A.base := by
        have hlt := (h.tree.addr_lt h.tree.root).1
        have hfits := A.fits
        have hlen := h.tree.length_le
        exact entry_addr (h.cr3.trans (Nat.add_zero _).symm) A.aligned (by omega) (by omega)
      have hnone : walkStep s.mem 3 a ⟨s.info.cr3, true⟩ = none := by
        refine if_neg (not_not.2 (h.root_upper ?_ ?_ hroot))
        · rw [hidx, index]
          omega
        · rw [hidx]
          exact index_lt (by decide) _ _
      rw [hnone, Option.bind_none]
  · rw [walk, if_neg hcan]
    -- the tree has pages below the canonical limit only
    refine Or.inl ⟨fun hp => hcan (Or.inl ?_), rfl⟩
    have hp := hmapped hp
    rw [UInt64.lt_iff_toNat_lt, h47]
    omega

end Walk

/-! ## The map that was asked for -/

/-- Page `p` has a byte of the descriptor. -/
def EfiMemoryDescriptor.Touches (d : EfiMemoryDescriptor) (p : Nat) : Prop :=
  Touches4k d.physicalStart.toNat (d.numberOfPages.toNat * 4096) p

/-- `EfiMemoryMappedIO` or `EfiMemoryMappedIOPortSpace`. -/
def EfiMemoryDescriptor.IsMmio (d : EfiMemoryDescriptor) : Prop :=
  d.type = efiMemoryMappedIO ∨ d.type = efiMemoryMappedIOPortSpace

instance (d : EfiMemoryDescriptor) : Decidable d.IsMmio := inferInstanceAs (Decidable (_ ∨ _))

/-- Page `p` has a byte of the framebuffer. -/
def Framebuffer.Touches (fb : Framebuffer) (p : Nat) : Prop :=
  Touches4k fb.base.toNat (framebufferSizeBytes fb).toNat p

/-- Page `p` belongs in the identity map. -/
def InMap (map : EfiMemoryMap) (fb : Framebuffer) (p : Nat) : Prop :=
  (∃ d ∈ map.descriptors, d.Touches p) ∨ fb.Touches p

/-- Page `p` belongs in it uncached. -/
def InMapUncached (map : EfiMemoryMap) (fb : Framebuffer) (p : Nat) : Prop :=
  (∃ d ∈ map.descriptors, d.IsMmio ∧ d.Touches p) ∨ fb.Touches p

/-- The walk finds the pages of the map and of the framebuffer, each at its own address, and no
other. -/
structure ExactIdentityMap (map : EfiMemoryMap) (fb : Framebuffer) (s : PagingState) : Prop where
  translated : ∀ a : UInt64, 4096 ∣ a.toNat →
    ((walk s.mem s.info.cr3 a).isSome ↔ InMap map fb (a.toNat / 4096))
  identity : ∀ a : UInt64, 4096 ∣ a.toNat → ∀ tr, walk s.mem s.info.cr3 a = some tr →
    tr.entry &&& pteAddrMask = a ∧ tr.entry &&& ptePresent ≠ 0 ∧ tr.writable = true ∧
      (tr.entry &&& ptePwt ≠ 0 ↔ InMapUncached map fb (a.toNat / 4096)) ∧
      (tr.entry &&& ptePcd ≠ 0 ↔ InMapUncached map fb (a.toNat / 4096))
  lowHalf : ∀ i : UInt64, 256 ≤ i.toNat → i.toNat < 512 →
    s.mem (entryAddr s.info.cr3 i) &&& ptePresent = 0
  counted : {a : UInt64 | 4096 ∣ a.toNat ∧ (walk s.mem s.info.cr3 a).isSome}.ncard
    = s.info.mappedPages.toNat

section Exact

variable {A : Arena} {map : EfiMemoryMap} {fb : Framebuffer} {s : PagingState}

/-- The flags of a mapped page say whether it is uncached. -/
theorem TableTree.uncached_bit (t : TableTree) {p k : Nat} (hk : k = 3 ∨ k = 4) {e m : UInt64}
    (he : e.toNat = p * 4096 + t.flags p) (hm : m.toNat = 2 ^ k) : e &&& m ≠ 0 ↔ p ∈ t.uncached := by
  rw [and_bit_ne_zero_iff e hm, he, TableTree.flags]
  rcases hk with rfl | rfl <;> split <;> rename_i hin <;>
    simp only [hin, iff_true, iff_false] <;> omega

/-- The tree of the right pages is the exact identity map. -/
theorem Maps.exact (h : Maps A (InMap map fb) (InMapUncached map fb) s) :
    ExactIdentityMap map fb s := by
  obtain ⟨t, hm, hu, hlaid⟩ := h
  have hlt : ∀ p ∈ t.mapped, p < 2 ^ 35 := fun p hp =>
    (hlaid.tree.mapped_lt p hp).trans_le A.pages_le
  have hpage : ∀ {a : UInt64}, 4096 ∣ a.toNat → a.toNat = a.toNat / 4096 * 4096 := by
    intro a ha
    omega
  -- the walk goes through exactly for the pages of the tree
  have hsome : ∀ {a : UInt64}, 4096 ∣ a.toNat →
      ((walk s.mem s.info.cr3 a).isSome ↔ a.toNat / 4096 ∈ t.mapped) := by
    intro a ha
    rcases hlaid.walk_eq (hpage ha) with ⟨hout, hwalk⟩ | ⟨hin, tr, hwalk, -⟩ <;> rw [hwalk]
    · simp [hout]
    · simp [hin]
  constructor
  · intro a ha
    rw [hsome ha, hm]
  · intro a ha tr htr
    rcases hlaid.walk_eq (hpage ha) with ⟨-, hwalk⟩ | ⟨hin, tr', hwalk, hentry, hw⟩
    · rw [hwalk] at htr
      cases htr
    rw [hwalk] at htr
    obtain rfl := Option.some.inj htr
    have hp := hlt _ hin
    have hodd := t.flags_odd (a.toNat / 4096)
    refine ⟨UInt64.toNat_inj.1 ?_, (present_iff _).2 (by omega), hw, ?_, ?_⟩
    · rw [entry_addr hentry (Nat.dvd_mul_left _ _) (t.flags_lt _) (by omega), ← hpage ha]
    · rw [t.uncached_bit (Or.inl rfl) hentry rfl, hu]
    · rw [t.uncached_bit (Or.inr rfl) hentry rfl, hu]
  · intro i hlo hhi
    exact hlaid.root_upper hlo hhi hlaid.cr3
  · have hset : {a : UInt64 | 4096 ∣ a.toNat ∧ (walk s.mem s.info.cr3 a).isSome}
        = (fun p : Nat => UInt64.ofNat (p * 4096)) '' (t.mapped : Set Nat) := by
      ext a
      constructor
      · rintro ⟨ha, hwalk⟩
        refine ⟨_, Finset.mem_coe.2 ((hsome ha).1 hwalk), ?_⟩
        show UInt64.ofNat (a.toNat / 4096 * 4096) = a
        rw [← hpage ha, UInt64.ofNat_toNat]
      · rintro ⟨p, hp, rfl⟩
        have hp := hlt p (Finset.mem_coe.1 hp)
        have ha : (UInt64.ofNat (p * 4096)).toNat = p * 4096 := by
          rw [UInt64.toNat_ofNat', Nat.mod_eq_of_lt (by omega)]
        have hdvd : 4096 ∣ (UInt64.ofNat (p * 4096)).toNat := by
          rw [ha]
          exact Nat.dvd_mul_left _ _
        refine ⟨hdvd, (hsome hdvd).2 ?_⟩
        rw [ha, Nat.mul_div_cancel _ (by decide)]
        assumption
    -- below the limit, no two pages have one address
    have hinj : Set.InjOn (fun p : Nat => UInt64.ofNat (p * 4096)) (t.mapped : Set Nat) := by
      intro p hp q hq hpq
      have hp := hlt p (Finset.mem_coe.1 hp)
      have hq := hlt q (Finset.mem_coe.1 hq)
      have hpq : (UInt64.ofNat (p * 4096)).toNat = (UInt64.ofNat (q * 4096)).toNat :=
        congrArg UInt64.toNat hpq
      rw [UInt64.toNat_ofNat', UInt64.toNat_ofNat', Nat.mod_eq_of_lt (by omega),
        Nat.mod_eq_of_lt (by omega)] at hpq
      omega
    rw [hset, hinj.ncard_image, Set.ncard_coe_finset, hlaid.mappedPages]

/-- The end of a call that mapped everything. -/
theorem Maps.finished (h : Maps A (InMap map fb) (InMapUncached map fb) s) :
    s.info.error = .ok ∧ ExactIdentityMap map fb s := by
  obtain ⟨t, -, -, hlaid⟩ := id h
  exact ⟨hlaid.error, h.exact⟩

end Exact

/-! ## The call -/

/-- The state right after `select_page_table_pool` succeeded. -/
structure PoolFresh (maxEnd : UInt64) (s : PagingState) : Prop where
  aligned : 4096 ∣ s.info.poolStart.toNat
  pool : s.info.poolStart.toNat + (estimateIdentityPageTablePages maxEnd).toNat * 4096
    = s.info.poolEnd.toNat
  within : s.info.poolEnd.toNat ≤ maxEnd.toNat
  next : s.info.poolNext = s.info.poolStart
  allocated : s.info.allocatedPages = 0
  mappedPages : s.info.mappedPages = 0
  maxEnd : s.info.maxIdentityEnd = maxEnd
  error : s.info.error = .ok

section Call

variable {map : EfiMemoryMap} {fb : Framebuffer} {maxEnd : UInt64} {A : Arena}

/-- The arena that a fresh pool gives, unless it starts at address 0. -/
def PoolFresh.arena {s : PagingState} (h : PoolFresh maxEnd s) (hmax : maxEnd.toNat ≤ 2 ^ 47)
    (hpos : 0 < s.info.poolStart.toNat) : Arena where
  base := s.info.poolStart.toNat
  pages := (maxEnd.toNat + 4095) / 4096
  maxEnd := maxEnd
  aligned := h.aligned
  pos := hpos
  fits := by
    have hest := tableBound_le_estimate hmax
    have hpool := h.pool
    have hwithin := h.within
    omega
  pages_le := by omega
  estimate := by
    have hest := tableBound_le_estimate hmax
    omega

/-- The first allocation. -/
theorem PoolFresh.poolOk_alloc {s : PagingState} (h : PoolFresh maxEnd s)
    (hmax : maxEnd.toNat ≤ 2 ^ 47) :
    ¬ s.info.poolNext > s.info.poolEnd - pageSize4k ∧ PoolOk s.alloc := by
  have hest := tableBound_le_estimate hmax
  have hpool := h.pool
  have hwithin := h.within
  have h4k : pageSize4k.toNat = 4096 := rfl
  have hnext : (s.info.poolNext + pageSize4k).toNat = s.info.poolStart.toNat + 4096 := by
    rw [h.next, toNat_add_of_lt, h4k]
    omega
  constructor
  · rw [gt_iff_lt, UInt64.lt_iff_toNat_lt, toNat_sub_of_toNat_le (by omega), h.next, h4k]
    omega
  constructor <;> simp only [PagingState.alloc_info]
  · rw [h.error]
    nofun
  · rw [h.error]
    nofun
  · rw [hnext, h.allocated]
    rfl
  · rw [UInt64.le_iff_toNat_le, hnext]
    omega
  · rw [h.allocated, h.maxEnd, UInt64.le_iff_toNat_le, show (0 + 1 : UInt64).toNat = 1 from rfl]
    omega

theorem PoolOk.setCr3 {s : PagingState} (h : PoolOk s) (cr3 : UInt64) :
    PoolOk { s with info := { s.info with cr3 := cr3 } } :=
  ⟨h.notEmpty, h.noClash, h.next, h.inside, h.estimated⟩

/-- The tree right after the root was allocated. -/
def rootTree : TableTree := ⟨[(3, 0)], ∅, ∅⟩

theorem rootTree_proper (pages : Nat) (hpages : 0 < pages) : rootTree.Proper pages where
  root := by simp [rootTree]
  rootFirst := rfl
  nodup := by simp [rootTree]
  below k hk := by
    obtain rfl := List.mem_singleton.1 hk
    exact below_over (B := 512) (by decide) (l := 3) (by omega) hpages
  parent l q hk hl := by
    obtain ⟨rfl, -⟩ := Prod.mk.inj (List.mem_singleton.1 hk)
    omega
  leaf p hp := absurd hp (Finset.notMem_empty p)
  mapped_lt p hp := absurd hp (Finset.notMem_empty p)
  uncached := Finset.Subset.refl _

/-- The first page of the pool is the empty root. -/
theorem PoolFresh.laid {s : PagingState} (h : PoolFresh maxEnd s) (hmax : maxEnd.toNat ≤ 2 ^ 47)
    (hpos : 0 < s.info.poolStart.toNat) :
    Laid (h.arena hmax hpos) rootTree
      { s.alloc with info := { s.alloc.info with cr3 := s.info.poolNext } } := by
  have hest := tableBound_le_estimate hmax
  have hpool := h.pool
  have hwithin := h.within
  have hbase : (h.arena hmax hpos).base = s.info.poolStart.toNat := rfl
  have hpages : (h.arena hmax hpos).pages = (maxEnd.toNat + 4095) / 4096 := rfl
  have hlen : rootTree.tables.length = 1 := rfl
  have hcard : rootTree.mapped.card = 0 := rfl
  constructor
  all_goals try simp only [PagingState.alloc_info, hbase, hpages, hlen, hcard]
  · rw [h.next]
  · rw [h.next, toNat_add_of_lt] <;> rw [show pageSize4k.toNat = 4096 from rfl]
    omega
  · omega
  · rw [h.allocated]
    rfl
  · exact h.maxEnd
  · rw [h.mappedPages]
    rfl
  · exact h.error
  · exact rootTree_proper _ (by omega)
  · -- the one table is the root, and its page was zeroed
    intro k hk i hi
    obtain rfl := List.mem_singleton.1 hk
    have haddr : rootTree.addr s.info.poolStart.toNat (3, 0) = s.info.poolStart.toNat := rfl
    have hchild : child 512 (3, 0) i ∉ rootTree.tables := by simp [child, rootTree]
    rw [haddr, TableTree.entry, if_neg (by decide), if_neg hchild, PagingState.word,
      PagingState.alloc]
    simp only
    rw [h.next, zeroPage4k_toNat rfl (by omega) (by omega), if_pos (by omega)]

/-- `page_flags_for_memory_type`. -/
theorem pageFlagsForMemoryType_toNat (d : EfiMemoryDescriptor) :
    (pageFlagsForMemoryType d.type).toNat = flagBits (decide ¬ d.IsMmio) := by
  unfold pageFlagsForMemoryType EfiMemoryDescriptor.IsMmio flagBits
  by_cases h : d.type = efiMemoryMappedIO ∨ d.type = efiMemoryMappedIOPortSpace
  · simp only [h]
    rfl
  · simp only [h]
    rfl

/-- The loop over the descriptors. -/
theorem mapDescs_triple {descs : List EfiMemoryDescriptor} :
    ∀ {mapped uncached : Nat → Prop},
    (∀ d ∈ descs, d.endNat ≤ 2 ^ 47 ∧ (d.endNat + 4095) / 4096 ≤ A.pages) →
    Triple (alone PoolOk) (Maps A mapped uncached)
      (.allOf descs fun desc => mapIdentityRange4k desc.physicalStart
        (desc.numberOfPages * pageSize4k) (pageFlagsForMemoryType desc.type))
      fun r s => r = true ∧ Maps A (fun p => mapped p ∨ ∃ d ∈ descs, d.Touches p)
        (fun p => uncached p ∨ ∃ d ∈ descs, d.IsMmio ∧ d.Touches p) s := by
  induction descs with
  | nil =>
    intro mapped uncached _
    refine .ret fun s h => ⟨rfl, h.congr (fun q => ?_) fun q => ?_⟩ <;> simp
  | cons d descs ih =>
    intro mapped uncached h
    obtain ⟨⟨hlimit, hpages⟩, hrest⟩ := List.forall_mem_cons.1 h
    have hbytes : (d.numberOfPages * pageSize4k).toNat = d.numberOfPages.toNat * 4096 := by
      rw [EfiMemoryDescriptor.endNat] at hlimit
      rw [toNat_mul_of_lt] <;> rw [show pageSize4k.toNat = 4096 from rfl]
      omega
    have hone := mapIdentityRange4k_triple (A := A) mapped uncached d.physicalStart
      (d.numberOfPages * pageSize4k) (pageFlagsForMemoryType_toNat d) (by rw [hbytes]; exact hpages)
    rw [hbytes] at hone
    refine .bind hone fun ok => Triple.lift ?_
    rintro rfl
    refine (ih hrest).post ?_
    rintro r s ⟨hr, hmaps⟩
    refine ⟨hr, hmaps.congr (fun q => ?_) fun q => ?_⟩
    · simp only [EfiMemoryDescriptor.Touches, List.mem_cons, exists_eq_or_imp, or_assoc]
    · simp only [EfiMemoryDescriptor.Touches, decide_eq_false_iff_not, not_not, List.mem_cons,
        exists_eq_or_imp, or_assoc]

/-- **`setup_kernel_paging` after its pool was selected.** It fails if the pool starts at 0. -/
theorem mapEverything_triple (hbelow : BelowEnd map fb maxEnd) (start : UInt64) :
    Triple (alone PoolOk) (fun s => PoolFresh maxEnd s ∧ s.info.poolStart = start)
      (mapEverything map fb) fun r s => s.info.error = .ok ∧ (r = true ↔ start ≠ 0) ∧
        (r = true → ExactIdentityMap map fb s) := by
  have hlimit := hbelow.limit
  -- the root, or address 0
  refine .bind (R := fun cr3 s => cr3 = start ∧ ∃ s₀, PoolFresh maxEnd s₀ ∧
    s₀.info.poolStart = start ∧ s = s₀.alloc) ?_ fun cr3 => Triple.lift ?_
  · refine .alone_swap fun s h => ?_
    obtain ⟨h, hstart⟩ := h
    obtain ⟨hroom, hok⟩ := h.poolOk_alloc hlimit
    rw [if_neg hroom]
    exact ⟨hok, h.next.trans hstart, s, h, hstart, rfl⟩
  rintro rfl
  refine .bind (R := fun _ s => ∃ s₀, PoolFresh maxEnd s₀ ∧ s₀.info.poolStart = cr3 ∧
    s = { s₀.alloc with info := { s₀.alloc.info with cr3 := cr3 } }) ?_ fun _ => ?_
  · refine .alone_store ?_
    rintro s ⟨s₀, h, hstart, rfl⟩
    exact ⟨(h.poolOk_alloc hlimit).2.setCr3 _, s₀, h, hstart, rfl⟩
  refine .cond (fun h0 => .ret ?_) fun hne => ?_
  · rintro s ⟨s₀, h, -, rfl⟩
    simp only [PagingState.alloc_info]
    exact ⟨h.error, iff_of_false Bool.false_ne_true (not_not.2 h0),
      fun hr => absurd hr Bool.false_ne_true⟩
  refine Triple.exists fun s₀ => Triple.lift fun hfresh => Triple.lift ?_
  rintro rfl
  have hpos : 0 < s₀.info.poolStart.toNat := by
    refine Nat.pos_of_ne_zero fun h0 => hne ?_
    rw [← UInt64.toNat_inj, h0, UInt64.toNat_zero]
  have hpages : (hfresh.arena hlimit hpos).pages = (maxEnd.toNat + 4095) / 4096 := rfl
  have hstart : Triple (alone PoolOk)
      (fun s => s = { s₀.alloc with info := { s₀.alloc.info with cr3 := s₀.info.poolStart } })
      (.allOf map.descriptors fun desc => mapIdentityRange4k desc.physicalStart
        (desc.numberOfPages * pageSize4k) (pageFlagsForMemoryType desc.type))
      fun r s => r = true ∧ Maps (hfresh.arena hlimit hpos)
        (fun p => False ∨ ∃ d ∈ map.descriptors, d.Touches p)
        (fun p => False ∨ ∃ d ∈ map.descriptors, d.IsMmio ∧ d.Touches p) s := by
    refine (mapDescs_triple fun d hd => ?_).pre ?_
    · have hd := hbelow.descriptors d hd
      rw [hpages]
      omega
    · rintro s rfl
      have hlaid := hfresh.laid hlimit hpos
      rw [hfresh.next] at hlaid
      exact ⟨rootTree, fun p => by simp [rootTree], fun p => by simp [rootTree], hlaid⟩
  refine .bind hstart fun ok => Triple.lift ?_
  rintro rfl
  -- the framebuffer comes last
  have hflags : (ptePresent ||| pteRw ||| ptePwt ||| ptePcd).toNat = flagBits false := rfl
  have hfb := mapIdentityRange4k_triple (A := hfresh.arena hlimit hpos)
    (fun p => False ∨ ∃ d ∈ map.descriptors, d.Touches p)
    (fun p => False ∨ ∃ d ∈ map.descriptors, d.IsMmio ∧ d.Touches p)
    fb.base (framebufferSizeBytes fb) hflags (by
      have hframe := hbelow.framebuffer
      rw [hpages]
      omega)
  refine .bind hfb fun ok => Triple.lift ?_
  rintro rfl
  refine .bind (R := fun _ => Maps (hfresh.arena hlimit hpos) (InMap map fb) (InMapUncached map fb)) ?_
    fun _ => .ret fun s h => ⟨h.finished.1, iff_of_true rfl hne, fun _ => h.finished.2⟩
  refine .alone_store fun s h => ?_
  obtain ⟨t, hm, hu, hlaid⟩ := h
  have hlaid' : Laid (hfresh.arena hlimit hpos) t { s with info.loadedCr3 := s.info.cr3 } :=
    ⟨hlaid.cr3, hlaid.poolStart, hlaid.poolNext, hlaid.poolEnd, hlaid.allocated, hlaid.maxEnd,
      hlaid.mappedPages, hlaid.error, hlaid.tree, hlaid.words⟩
  refine ⟨hlaid'.poolOk, t, fun p => ?_, fun p => ?_, hlaid'⟩
  · simp only [hm, InMap, Framebuffer.Touches, false_or]
  · simp only [hu, InMapUncached, Framebuffer.Touches, false_or, true_and]

end Call

/-- Nothing has been handed out yet. -/
theorem PoolOk.of_unused {s : PagingState} (herror : s.info.error ≠ .poolEmpty ∧
    s.info.error ≠ .tableEntry) (hnext : s.info.poolNext = s.info.poolStart)
    (hinside : s.info.poolStart ≤ s.info.poolEnd) (halloc : s.info.allocatedPages = 0) : PoolOk s where
  notEmpty := herror.1
  noClash := herror.2
  next := by rw [hnext, halloc]; rfl
  inside := by rw [hnext]; exact hinside
  estimated := by
    rw [halloc, UInt64.le_iff_toNat_le]
    exact Nat.zero_le _

theorem pagingFails_triple {error : PagingError} (herror : error ≠ .poolEmpty ∧ error ≠ .tableEntry)
    {info : PagingInfo} (hnext : info.poolNext = info.poolStart)
    (hinside : info.poolStart ≤ info.poolEnd) (halloc : info.allocatedPages = 0) :
    Triple (alone PoolOk) (fun s => s.info = info) (pagingFails error)
      fun r s => r = false ∧ s.info.error = error := by
  refine .bind (R := fun _ s => s.info.error = error) (.alone_store fun s hs => ⟨?_, rfl⟩) fun _ =>
    .ret fun _ hs => ⟨rfl, hs⟩
  subst hs
  exact .of_unused herror hnext hinside halloc

/-- What the selection leaves. -/
theorem selectPageTablePool_fresh {map map' : EfiMemoryMap} {fb : Framebuffer} {maxEnd : UInt64}
    {info' : PagingInfo} (mem : UInt64 → UInt64) (hfits : map.Fits)
    (haligned : map.PoolAligned (estimateIdentityPageTablePages maxEnd))
    (hbelow : BelowEnd map fb maxEnd)
    (h : selectPageTablePool map (estimateIdentityPageTablePages maxEnd) { maxIdentityEnd := maxEnd }
      = (true, map', info')) :
    BelowEnd map' fb maxEnd ∧ PoolFresh maxEnd ⟨info', mem⟩ ∧ PoolOk ⟨info', mem⟩ := by
  have hsel := selectPageTablePool_selected hfits haligned hbelow.descriptors h
  obtain ⟨c, hc⟩ := hsel.info
  have hpool := hsel.pool
  have herror : info'.error = .ok := by rw [hc]; rfl
  have hnext : info'.poolNext = info'.poolStart := by rw [hc]; rfl
  have halloc : info'.allocatedPages = 0 := by rw [hc]; rfl
  refine ⟨⟨hbelow.limit, hsel.descriptors, hbelow.framebuffer⟩, ⟨hsel.aligned, hpool, hsel.within,
    hnext, halloc, by rw [hc]; rfl, by rw [hc]; rfl, herror⟩, .of_unused ?_ hnext ?_ halloc⟩
  · rw [herror]
    exact ⟨nofun, nofun⟩
  · rw [UInt64.le_iff_toNat_le]
    show info'.poolStart.toNat ≤ info'.poolEnd.toNat
    omega

theorem selectPageTablePool_unused {map map' : EfiMemoryMap} {maxEnd : UInt64} {info' : PagingInfo}
    (mem : UInt64 → UInt64)
    (h : selectPageTablePool map (estimateIdentityPageTablePages maxEnd) { maxIdentityEnd := maxEnd }
      = (false, map', info')) : PoolOk ⟨info', mem⟩ := by
  obtain ⟨herror, halloc, -, hpool⟩ := selectPageTablePool_failed h
  refine .of_unused ?_ ?_ ?_ halloc
  · rcases herror with he | he | he
    all_goals
      simp only [he]
      exact ⟨nofun, nofun⟩
  · rcases hpool with ⟨hnext, hstart, -⟩ | ⟨hnext, -⟩
    · exact hnext.trans hstart.symm
    · exact hnext
  · rcases hpool with ⟨-, hstart, hend⟩ | ⟨-, hle⟩
    · show info'.poolStart ≤ info'.poolEnd
      rw [hstart, hend]
      exact UInt64.le_refl _
    · exact hle

/-- `select_page_table_pool` succeeds, with a pool at physical address 0. -/
def PoolStartsAtZero (la57 : Bool) (map : EfiMemoryMap) (fb : Framebuffer) : Prop :=
  la57 = false ∧ ∃ maxEnd map' info', maxIdentityEnd map fb = some maxEnd ∧
    selectPageTablePool map (estimateIdentityPageTablePages maxEnd) { maxIdentityEnd := maxEnd }
      = (true, map', info') ∧ info'.poolStart = 0

/-- The descriptor that `setup_kernel_paging` takes its tables from begins on a page boundary. -/
def PagingPoolAligned (map : EfiMemoryMap) (fb : Framebuffer) : Prop :=
  ∀ maxEnd, maxIdentityEnd map fb = some maxEnd →
    map.PoolAligned (estimateIdentityPageTablePages maxEnd)

theorem pagingPoolAligned_of_aligned {map : EfiMemoryMap}
    (h : ∀ d ∈ map.descriptors, 4096 ∣ d.physicalStart.toNat) (fb : Framebuffer) :
    PagingPoolAligned map fb := fun _ _ => EfiMemoryMap.poolAligned_of_aligned h _

/-- What the call has done when it returns: the map, or a failure with its reason. -/
structure PagingReturned (la57 : Bool) (map : EfiMemoryMap) (fb : Framebuffer)
    (r : Bool × EfiMemoryMap) (s : PagingState) : Prop where
  exact : r.1 = true → ExactIdentityMap r.2 fb s
  reported : (r.1 = false ↔ s.info.error ≠ .ok) ↔ ¬ PoolStartsAtZero la57 map fb

/-- A failure before the first allocation has its reason. -/
theorem PagingReturned.failed {la57 : Bool} {map map' : EfiMemoryMap} {fb : Framebuffer}
    {s : PagingState} (herror : s.info.error ≠ .ok) (h : ¬ PoolStartsAtZero la57 map fb) :
    PagingReturned la57 map fb (false, map') s :=
  ⟨fun hr => absurd hr Bool.false_ne_true, iff_of_true (iff_of_true rfl herror) h⟩

/-- **The whole call.** -/
theorem setupKernelPaging_triple (la57 : Bool) {map : EfiMemoryMap} (fb : Framebuffer)
    (hfits : map.Fits) (haligned : PagingPoolAligned map fb) :
    Triple (alone PoolOk) (fun _ => True) (setupKernelPaging la57 map fb)
      (PagingReturned la57 map fb) := by
  have hzero : (0 : UInt64) ≤ 0 := UInt64.le_refl _
  refine .bind (R := fun _ s => s.info = {}) (.alone_store fun s _ => ⟨?_, rfl⟩) fun _ => ?_
  · exact .of_unused ⟨nofun, nofun⟩ rfl hzero rfl
  refine .cond (fun hla57 => ?_) fun hla57 => ?_
  · refine .bind (pagingFails_triple (by decide) rfl hzero rfl) fun r => .ret ?_
    rintro s ⟨rfl, herror⟩
    exact .failed (by rw [herror]; nofun) fun h => absurd h.1 (by simp [hla57])
  cases hmax : maxIdentityEnd map fb with
  | none =>
    refine .bind (pagingFails_triple (by decide) rfl hzero rfl) fun r => .ret ?_
    rintro s ⟨rfl, herror⟩
    refine .failed (by rw [herror]; nofun) ?_
    rintro ⟨-, maxEnd, -, -, hsome, -⟩
    rw [hmax] at hsome
    cases hsome
  | some maxEnd =>
    have hbelow := maxIdentityEnd_spec hmax
    have hla57 : la57 = false := by simpa using hla57
    refine .bind (R := fun _ s => s.info = { maxIdentityEnd := maxEnd })
      (.alone_store fun s hs => ⟨?_, by rw [hs]⟩) fun _ => ?_
    · rw [hs]
      exact .of_unused ⟨nofun, nofun⟩ rfl hzero rfl
    -- `select_page_table_pool` is a pure function of the map: it is run once, for all states
    obtain ⟨⟨ok, map', info'⟩, hsel⟩ : ∃ r, selectPageTablePool map
      (estimateIdentityPageTablePages maxEnd) { maxIdentityEnd := maxEnd } = r := ⟨_, rfl⟩
    have hiff : PoolStartsAtZero la57 map fb ↔ ok = true ∧ info'.poolStart = 0 := by
      constructor
      · rintro ⟨-, maxEnd', _, _, hmax', hsel', hstart⟩
        obtain rfl := Option.some.inj (hmax.symm.trans hmax')
        obtain ⟨rfl, hrest⟩ := Prod.mk.inj (hsel.symm.trans hsel')
        rw [(Prod.mk.inj hrest).2]
        exact ⟨rfl, hstart⟩
      · rintro ⟨rfl, hstart⟩
        exact ⟨hla57, maxEnd, map', info', hmax, hsel, hstart⟩
    refine .bind (R := fun selected s => selected = (ok, map') ∧ s.info = info' ∧ PoolOk s ∧
      (ok = true → BelowEnd map' fb maxEnd ∧ PoolFresh maxEnd s)) (.alone_swap fun s hs => ?_)
      fun selected => ?_
    · rw [hs, hsel]
      cases ok with
      | true =>
        obtain ⟨hbelow', hfresh, hok⟩ := selectPageTablePool_fresh s.mem hfits (haligned _ hmax) hbelow hsel
        exact ⟨hok, rfl, rfl, hok, fun _ => ⟨hbelow', hfresh⟩⟩
      | false =>
        have hok := selectPageTablePool_unused s.mem hsel
        exact ⟨hok, rfl, rfl, hok, nofun⟩
    refine Triple.lift ?_
    rintro rfl
    -- with a pool, nothing but its address can make the call report a failure that is none
    refine .cond (fun hok => ?_) fun hok => .ret ?_
    · have hok : ok = true := hok
      refine Triple.pre (H := fun s => BelowEnd map' fb maxEnd ∧ PoolFresh maxEnd s ∧
        s.info.poolStart = info'.poolStart) ?_ fun s hs => ⟨(hs.2.2 hok).1, (hs.2.2 hok).2, ?_⟩
      · refine Triple.lift fun hbelow' => .bind (mapEverything_triple hbelow' _) fun r => .ret ?_
        rintro s ⟨herror, hr, hexact⟩
        refine ⟨hexact, ?_⟩
        rw [hiff, and_iff_right hok, ← ne_eq, ← hr]
        cases r <;> simp [herror]
      · rw [hs.1]
    · rintro s ⟨rfl, -⟩
      have hok : ok = false := by simpa using hok
      subst hok
      obtain ⟨herror, -⟩ := selectPageTablePool_failed hsel
      refine .failed ?_ fun h => absurd (hiff.1 h).1 Bool.false_ne_true
      rcases herror with he | he | he <;> rw [he] <;> nofun

/-- Twenty free pages, which is what the tables need, and a page of ACPI tables. -/
def snugMap : EfiMemoryMap :=
  .ofList [{ type := efiConventionalMemory, physicalStart := 0x1000, numberOfPages := 20 },
    { type := efiACPIReclaimMemory, physicalStart := 0x15000, numberOfPages := 1 }]

/-- No framebuffer. -/
def noFramebuffer : Framebuffer := ⟨0, 0, 0, 0⟩

/-- `setup_kernel_paging` on it, from zeroed memory. -/
def snugPaging : (Bool × EfiMemoryMap) × PagingState :=
  (setupKernelPaging false snugMap noFramebuffer).run ⟨{}, fun _ => 0⟩

theorem snugPaging_succeeds : snugPaging.1.1 = true ∧ snugPaging.1.2.descriptors =
    [{ type := efiLoaderData, physicalStart := 0x1000, numberOfPages := 20 },
      { type := efiACPIReclaimMemory, physicalStart := 0x15000, numberOfPages := 1 }] ∧
    snugPaging.2.info.reservedPages = 20 := by
  decide +kernel

theorem pagingResult_eq {r : (Bool × EfiMemoryMap) × PagingState} (h : r.1.1 = true) :
    r = ((true, r.1.2), r.2) := by
  obtain ⟨⟨ok, map⟩, s⟩ := r
  obtain rfl := h
  rfl

theorem snugPaging_eq : snugPaging = ((true, snugPaging.1.2), snugPaging.2) :=
  pagingResult_eq snugPaging_succeeds.1

theorem snugMap_fits : snugMap.Fits := ⟨by decide, by decide⟩

theorem snugMap_aligned : ∀ d ∈ snugMap.descriptors, 4096 ∣ d.physicalStart.toNat := by
  decide +kernel

/-- **The pool always suffices.** Throughout the call, and in its end, its pages are handed out in
order, none is missing, and no more than the estimate are needed. -/
theorem setupKernelPaging_poolOk (la57 : Bool) (map : EfiMemoryMap) (fb : Framebuffer)
    (s : PagingState) (hfits : map.Fits)
    (haligned : ∀ d ∈ map.descriptors, 4096 ∣ d.physicalStart.toNat) :
    (setupKernelPaging la57 map fb).Throughout PoolOk s ∧
      PoolOk ((setupKernelPaging la57 map fb).run s).2 := by
  have hpool := pagingPoolAligned_of_aligned haligned fb
  have hthroughout := throughout_of_wp _ s (setupKernelPaging_triple la57 fb hfits hpool s trivial)
  obtain ⟨hfirst, hrest⟩ := hthroughout
  exact ⟨⟨hfirst, hrest⟩, hrest.run hfirst⟩

theorem setupKernelPaging_poolOk_snugMap :
    (setupKernelPaging false snugMap noFramebuffer).Throughout PoolOk ⟨{}, fun _ => 0⟩ ∧
      PoolOk ((setupKernelPaging false snugMap noFramebuffer).run ⟨{}, fun _ => 0⟩).2 :=
  setupKernelPaging_poolOk false snugMap noFramebuffer _ snugMap_fits snugMap_aligned

theorem exactIdentityMap_of_run {la57 : Bool} {map map' : EfiMemoryMap} {fb : Framebuffer}
    {s s' : PagingState} (hfits : map.Fits) (haligned : PagingPoolAligned map fb)
    (h : (setupKernelPaging la57 map fb).run s = ((true, map'), s')) : ExactIdentityMap map' fb s' := by
  have hend := run_of_wp _ s (setupKernelPaging_triple la57 fb hfits haligned s trivial)
  rw [h] at hend
  exact hend.exact rfl

/-- **The identity map is exact.** -/
theorem setupKernelPaging_exact (la57 : Bool) (map map' : EfiMemoryMap) (fb : Framebuffer)
    (s s' : PagingState) (hfits : map.Fits)
    (haligned : ∀ d ∈ map.descriptors, 4096 ∣ d.physicalStart.toNat)
    (h : (setupKernelPaging la57 map fb).run s = ((true, map'), s')) : ExactIdentityMap map' fb s' :=
  exactIdentityMap_of_run hfits (pagingPoolAligned_of_aligned haligned fb) h

theorem setupKernelPaging_exact_snugMap :
    ExactIdentityMap snugPaging.1.2 noFramebuffer snugPaging.2 :=
  setupKernelPaging_exact false snugMap snugPaging.1.2 noFramebuffer _ snugPaging.2 snugMap_fits
    snugMap_aligned snugPaging_eq

end VibeKernel

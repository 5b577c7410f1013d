import VibeKernel.Boot.TableTree

/-!
# The identity map

`map_identity_range_4k` and `setup_kernel_paging`, walked with the tree of tables as the assertion.
The same walk shows that the pool never runs out and that the walk of the processor finds exactly the
pages that were asked for.
-/

namespace VibeKernel

open Conc Num Num.Radix

/-! ## What holds throughout -/

/-- The pool's pages are handed out in order, none is missing, and the estimate covers them. -/
structure PoolOk (s : PagingState) : Prop where
  notEmpty : s.info.error ≠ .poolEmpty
  noClash : s.info.error ≠ .tableEntry
  next : s.info.poolNext.toNat = s.info.poolStart.toNat + 4096 * s.info.allocatedPages.toNat
  inside : s.info.poolNext ≤ s.info.poolEnd
  estimated : s.info.allocatedPages ≤ estimateIdentityPageTablePages s.info.maxIdentityEnd

section Walk

variable {A : Arena} {t : TableTree}

theorem Laid.poolOk {s : PagingState} (h : Laid A t s) : PoolOk s where
  notEmpty := by rw [h.error]; nofun
  noClash := by rw [h.error]; nofun
  next := by rw [h.poolNext, h.poolStart, h.allocated]
  inside := by
    have hlen := h.tree.length_le
    have hend := h.poolEnd
    rw [UInt64.le_iff_toNat_le, h.poolNext]
    omega
  estimated := by
    have hlen := h.tree.length_le
    have hest := A.estimate
    rw [UInt64.le_iff_toNat_le, h.allocated, h.maxEnd]
    omega

/-- A table that has been handed out but not entered anywhere yet. -/
theorem Laid.poolOk_alloc {s : PagingState} (h : Laid A t s)
    (hroom : t.tables.length < tableBound A.pages) : PoolOk s.alloc := by
  have hfits := A.fits
  have hnext : (s.info.poolNext + pageSize4k).toNat = A.base + 4096 * t.tables.length + 4096 := by
    rw [toNat_add_of_lt, h.poolNext] <;> rw [show pageSize4k.toNat = 4096 from rfl]
    have := h.poolNext
    omega
  have halloc : (s.info.allocatedPages + 1).toNat = t.tables.length + 1 := by
    rw [toNat_add_of_lt, h.allocated] <;> rw [UInt64.toNat_one]
    have := h.allocated
    omega
  have hend := h.poolEnd
  have hest := A.estimate
  constructor <;> simp only [PagingState.alloc_info]
  · exact h.poolOk.notEmpty
  · exact h.poolOk.noClash
  · rw [hnext, halloc, h.poolStart]
    omega
  · rw [UInt64.le_iff_toNat_le, hnext]
    omega
  · rw [UInt64.le_iff_toNat_le, halloc, h.maxEnd]
    omega

/-! ## One table, one page -/

/-- The tree after some tables were added. -/
structure Grown (t t' : TableTree) : Prop where
  tables : t.tables <+: t'.tables
  mapped : t'.mapped = t.mapped
  uncached : t'.uncached = t.uncached

theorem Grown.refl (t : TableTree) : Grown t t := ⟨List.prefix_refl _, rfl, rfl⟩

theorem Grown.trans {t₁ t₂ t₃ : TableTree} (h : Grown t₁ t₂) (h' : Grown t₂ t₃) : Grown t₁ t₃ :=
  ⟨h.tables.trans h'.tables, h'.mapped.trans h.mapped, h'.uncached.trans h.uncached⟩

/-- Some tree that grew from `t` is laid out, and has table `k` at `table`. -/
def Reached (A : Arena) (t : TableTree) (k : Table) (table : UInt64) (s : PagingState) : Prop :=
  ∃ t', Grown t t' ∧ Laid A t' s ∧ k ∈ t'.tables ∧ table.toNat = t'.addr A.base k

/-- The entry on the way to leaf `p`: the address of the next table, or 0. -/
theorem Laid.entry_over {s : PagingState} (h : Laid A t s) {l p : Nat}
    (hk : tableOver 512 (l + 1) p ∈ t.tables) {table idx : UInt64}
    (htable : table.toNat = t.addr A.base (tableOver 512 (l + 1) p))
    (hidx : idx.toNat = index 512 (l + 1) p) :
    (s.mem (entryAddr table idx)).toNat
      = if tableOver 512 l p ∈ t.tables then t.addr A.base (tableOver 512 l p) + 3 else 0 := by
  have hilt : index 512 (l + 1) p < 512 := index_lt (by decide) _ _
  have hlt := (h.tree.addr_lt hk).2
  rw [s.mem_toNat, entryAddr_toNat htable hidx (by omega), h.words _ hk _ hilt, TableTree.entry,
    if_neg (by simp [tableOver]), child_over]

/-- `alloc_page_table_page` succeeds while a table is missing. -/
theorem Laid.alloc_eq {s : PagingState} (h : Laid A t s)
    (hroom : t.tables.length < tableBound A.pages) :
    ¬ s.info.poolNext > s.info.poolEnd - pageSize4k := by
  have hend := h.poolEnd
  have hfits := A.fits
  have h4k : pageSize4k.toNat = 4096 := rfl
  rw [gt_iff_lt, UInt64.lt_iff_toNat_lt, toNat_sub_of_toNat_le (by omega), h.poolNext, h4k]
  omega

/-- `ensure_next_table` always finds or makes the next table. -/
theorem ensureNextTable_triple {l p : Nat} (hl : l < 3) (hp : p < A.pages) {table idx : UInt64}
    (hidx : idx.toNat = index 512 (l + 1) p) :
    Triple (alone PoolOk) (Reached A t (tableOver 512 (l + 1) p) table) (ensureNextTable table idx)
      fun r s => ∃ next, r = some next ∧ Reached A t (tableOver 512 l p) next s := by
  -- the entry that was read, and what it says about the next table
  refine .bind (R := fun entry s => ∃ t', Grown t t' ∧ Laid A t' s ∧ tableOver 512 (l + 1) p ∈ t'.tables ∧
    table.toNat = t'.addr A.base (tableOver 512 (l + 1) p) ∧ entry.toNat
      = if tableOver 512 l p ∈ t'.tables then t'.addr A.base (tableOver 512 l p) + 3 else 0) ?_ fun entry => ?_
  · refine .alone_load ?_
    rintro s ⟨t', hg, hlaid, hk, htable⟩
    exact ⟨hlaid.poolOk, t', hg, hlaid, hk, htable, hlaid.entry_over hk htable hidx⟩
  refine .cond (fun hpresent => .ret ?_) fun habsent => ?_
  · rintro s ⟨t', hg, hlaid, hk, htable, hentry⟩
    rw [present_iff] at hpresent
    split at hentry
    · rename_i hnext
      have hlt := (hlaid.tree.addr_lt hnext).2
      exact ⟨_, rfl, t', hg, hlaid, hnext,
        entry_addr hentry (t'.addr_dvd _) (by omega) (by omega)⟩
    · rw [hentry] at hpresent
      cases hpresent
  -- the next table is missing, so there is a page for it
  refine .bind (R := fun phys s => ∃ t' s₀, Grown t t' ∧ Laid A t' s₀ ∧
    tableOver 512 (l + 1) p ∈ t'.tables ∧ table.toNat = t'.addr A.base (tableOver 512 (l + 1) p) ∧
    tableOver 512 l p ∉ t'.tables ∧ s = s₀.alloc ∧ phys = s₀.info.poolNext) ?_ fun phys => ?_
  · refine .alone_swap ?_
    rintro s ⟨t', hg, hlaid, hk, htable, hentry⟩
    have hmissing : tableOver 512 l p ∉ t'.tables := by
      intro hnext
      rw [if_pos hnext] at hentry
      have hdvd : 4096 ∣ t'.addr A.base (tableOver 512 l p) := t'.addr_dvd _
      refine habsent ((present_iff entry).2 ?_)
      omega
    have hroom := hlaid.tree.length_lt hmissing (below_over (by decide) (by omega) hp)
    rw [if_neg (hlaid.alloc_eq hroom)]
    exact ⟨hlaid.poolOk_alloc hroom, t', s, hg, hlaid, hk, htable, hmissing, rfl, rfl⟩
  refine .cond (fun hzero => ?_) fun _ => ?_
  · rintro s ⟨t', s₀, -, hlaid, -, -, -, -, hphys⟩
    have hpos := A.pos
    have hnext := hlaid.poolNext
    rw [← hphys, hzero, UInt64.toNat_zero] at hnext
    omega
  refine .bind (R := fun _ => Reached A t (tableOver 512 l p) phys) ?_ fun _ => .ret fun s h => ⟨_, rfl, h⟩
  refine .alone_store ?_
  rintro s ⟨t', s₀, hg, hlaid, hk, htable, hmissing, rfl, rfl⟩
  have hilt : index 512 (l + 1) p < 512 := index_lt (by decide) _ _
  have hchild : tableOver 512 l p = (l, (tableOver 512 (l + 1) p).2 * 512 + index 512 (l + 1) p) :=
    (child_over l p).symm
  have hbelow := below_over (B := 512) (by decide) (show l ≤ 3 by omega) hp
  rw [hchild] at hmissing hbelow
  have hgrown := hlaid.grow (l := l) (q := (tableOver 512 (l + 1) p).2) hk hilt hmissing hbelow hl
    htable hidx
  rw [← hchild] at hgrown hmissing
  refine ⟨hgrown.poolOk, t'.grow (tableOver 512 l p), ?_, hgrown, TableTree.mem_grow.2 (Or.inr rfl), ?_⟩
  · exact hg.trans ⟨List.prefix_append _ _, rfl, rfl⟩
  rw [TableTree.addr_grow_self hmissing, hlaid.poolNext]

theorem tableIndex_toNat {l p : Nat} (hl : l ≤ 3) {addr : UInt64} (ha : addr.toNat = p * 4096) :
    (tableIndex l addr).toNat = index 512 l p := by
  have hshift : (UInt64.ofNat (12 + 9 * l)).toNat = 12 + 9 * l := by
    rw [UInt64.toNat_ofNat', Nat.mod_eq_of_lt (by omega)]
  have hpow : 2 ^ (12 + 9 * l) = 4096 * 512 ^ l := by
    rw [pow_add, pow_mul]
    rfl
  have hmask : (tableIndex l addr).toNat = (addr >>> UInt64.ofNat (12 + 9 * l)).toNat % 2 ^ 9 :=
    toNat_and_of_mask _ rfl
  rw [hmask, UInt64.toNat_shiftRight, hshift, Nat.mod_eq_of_lt (show 12 + 9 * l < 64 by omega),
    Nat.shiftRight_eq_div_pow, hpow, ha, ← Nat.div_div_eq_div_mul, Nat.mul_div_cancel _ (by decide)]
  rfl

theorem PoolOk.of_info {s s' : PagingState} (h : PoolOk s) (hinfo : s'.info = s.info) : PoolOk s' := by
  constructor <;> rw [hinfo]
  · exact h.notEmpty
  · exact h.noClash
  · exact h.next
  · exact h.inside
  · exact h.estimated

/-- Some tree with these pages is laid out. -/
def ShowsPages (A : Arena) (mapped uncached : Finset Nat) (s : PagingState) : Prop :=
  ∃ t : TableTree, t.mapped = mapped ∧ t.uncached = uncached ∧ Laid A t s

/-- One more page among the uncached ones, unless it is cached. -/
def addUncached (cached : Bool) (p : Nat) (uncached : Finset Nat) : Finset Nat :=
  if cached then uncached else insert p uncached

theorem Laid.entry_leaf {s : PagingState} (h : Laid A t s) {p : Nat} (hk : tableOver 512 0 p ∈ t.tables)
    {table idx : UInt64} (htable : table.toNat = t.addr A.base (tableOver 512 0 p))
    (hidx : idx.toNat = index 512 0 p) :
    (s.mem (entryAddr table idx)).toNat = if p ∈ t.mapped then p * 4096 + t.flags p else 0 := by
  have hilt : index 512 0 p < 512 := index_lt (by decide) _ _
  have hlt := (h.tree.addr_lt hk).2
  rw [s.mem_toNat, entryAddr_toNat htable hidx (by omega), h.words _ hk _ hilt, TableTree.entry,
    if_pos (show (tableOver 512 0 p).1 = 0 from rfl), over_zero_mul_add_index]

/-- The last entry, once its table is there. -/
theorem mapEntry_triple {p : Nat} (hp : p < A.pages) {pt addr flags : UInt64} {cached : Bool}
    (ha : addr.toNat = p * 4096) (hf : flags.toNat = flagBits cached) :
    Triple (alone PoolOk) (Reached A t (tableOver 512 0 p) pt) (mapEntry pt addr flags)
      fun r s => r = true ∧
        ShowsPages A (insert p t.mapped) (addUncached cached p t.uncached) s := by
  have hpages := A.pages_le
  have hidx := tableIndex_toNat (l := 0) (by omega) ha
  have haddr : (addr &&& pteAddrMask).toNat = p * 4096 :=
    entry_addr (ha.trans (Nat.add_zero _).symm) (Nat.dvd_mul_left _ _) (by omega) (by omega)
  have hflt : flags.toNat < 2 ^ 12 := by
    rw [hf]
    unfold flagBits
    split <;> omega
  refine .bind (R := fun entry s => ∃ t', Grown t t' ∧ Laid A t' s ∧ tableOver 512 0 p ∈ t'.tables ∧
    pt.toNat = t'.addr A.base (tableOver 512 0 p) ∧
    entry.toNat = if p ∈ t'.mapped then p * 4096 + t'.flags p else 0) ?_ fun entry => ?_
  · refine .alone_load ?_
    rintro s ⟨t', hg, hlaid, hk, htable⟩
    exact ⟨hlaid.poolOk, t', hg, hlaid, hk, htable, hlaid.entry_leaf hk htable hidx⟩
  refine .cond (fun hpresent => ?_) fun habsent => ?_
  · -- the page is mapped already, to the same address
    rw [present_iff] at hpresent
    have hmapped : ∀ {t' : TableTree},
        (entry.toNat = if p ∈ t'.mapped then p * 4096 + t'.flags p else 0) →
        p ∈ t'.mapped ∧ entry.toNat = p * 4096 + t'.flags p := by
      intro t' hentry
      split at hentry
      · rename_i hin
        exact ⟨hin, hentry⟩
      · rw [hentry] at hpresent
        cases hpresent
    refine .cond (fun hclash => ?_) fun _ => ?_
    · rintro s ⟨t', -, -, -, -, hentry⟩
      refine absurd (UInt64.toNat_inj.1 ?_) hclash
      rw [haddr]
      exact entry_addr (hmapped hentry).2 (Nat.dvd_mul_left _ _) (t'.flags_lt p) (by omega)
    · -- the flags are added to those that are there
      refine .bind (R := fun _ => ShowsPages A (insert p t.mapped) (addUncached cached p t.uncached)) ?_
        fun _ => .ret fun s h => ⟨rfl, h⟩
      refine .alone_store ?_
      rintro s ⟨t', hg, hlaid, hk, htable, hentry⟩
      obtain ⟨hin, hentry⟩ := hmapped hentry
      have hv : (entry ||| flags).toNat = p * 4096 + (t'.flags p ||| flagBits cached) := by
        have hor : t'.flags p ||| flagBits cached < 2 ^ 12 :=
          Nat.or_lt_two_pow (t'.flags_lt p) (hf ▸ hflt)
        rw [UInt64.toNat_or, hentry, hf, Nat.mul_comm p 4096, show 4096 = 2 ^ 12 from rfl,
          Nat.two_pow_add_eq_or_of_lt (t'.flags_lt p), Nat.or_assoc,
          ← Nat.two_pow_add_eq_or_of_lt hor]
      have hlaid' := hlaid.mapPage hp hk htable hidx hv
        (n := s.info.mappedPages) (by rw [Finset.insert_eq_self.2 hin, hlaid.mappedPages])
      exact ⟨hlaid'.poolOk, _, by rw [TableTree.mapPage, hg.mapped],
        by rw [TableTree.mapPage, hg.uncached, addUncached], hlaid'⟩
  · -- the page is new, and is counted after its entry is stored
    refine .bind (R := fun _ s => ∃ t' s₀, Grown t t' ∧ Laid A t' s₀ ∧ tableOver 512 0 p ∈ t'.tables ∧
      pt.toNat = t'.addr A.base (tableOver 512 0 p) ∧ p ∉ t'.mapped ∧
      s = s₀.setEntry pt (tableIndex 0 addr) ((addr &&& pteAddrMask) ||| flags)) ?_ fun _ => ?_
    · refine .alone_store ?_
      rintro s ⟨t', hg, hlaid, hk, htable, hentry⟩
      have hout : p ∉ t'.mapped := by
        intro hin
        rw [if_pos hin] at hentry
        have hodd := t'.flags_odd p
        refine habsent ((present_iff entry).2 ?_)
        omega
      exact ⟨hlaid.poolOk.of_info rfl, t', s, hg, hlaid, hk, htable, hout, rfl⟩
    refine .bind (R := fun _ => ShowsPages A (insert p t.mapped) (addUncached cached p t.uncached)) ?_
      fun _ => .ret fun s h => ⟨rfl, h⟩
    · refine .alone_store ?_
      rintro s ⟨t', s₀, hg, hlaid, hk, htable, hout, rfl⟩
      have hcard : t'.mapped.card ≤ 2 ^ 35 := by
        have hsub : t'.mapped ⊆ Finset.range A.pages := fun q hq =>
          Finset.mem_range.2 (hlaid.tree.mapped_lt q hq)
        have := Finset.card_le_card hsub
        rw [Finset.card_range] at this
        omega
      have hcount := hlaid.mappedPages
      have hn : (s₀.info.mappedPages + 1).toNat = (insert p t'.mapped).card := by
        rw [toNat_add_of_lt, hcount, Finset.card_insert_of_notMem hout] <;> rw [UInt64.toNat_one]
        omega
      have hv : ((addr &&& pteAddrMask) ||| flags).toNat
          = p * 4096 + (t'.flags p ||| flagBits cached) := by
        have hflags : t'.flags p = 3 := if_neg fun hu => hout (hlaid.tree.uncached hu)
        have hor : 3 ||| flagBits cached = flagBits cached := by cases cached <;> rfl
        rw [toNat_or_of_dvd (k := 12) (by rw [haddr]; exact Nat.dvd_mul_left _ _) hflt, haddr, hf,
          hflags, hor]
      have hlaid' := hlaid.mapPage hp hk htable hidx hv hn
      exact ⟨hlaid'.poolOk, _, by rw [TableTree.mapPage, hg.mapped],
        by rw [TableTree.mapPage, hg.uncached, addUncached], hlaid'⟩

/-- The tables map the pages of `mapped`, and leave those of `uncached` uncached. -/
def Maps (A : Arena) (mapped uncached : Nat → Prop) (s : PagingState) : Prop :=
  ∃ t : TableTree, (∀ p, p ∈ t.mapped ↔ mapped p) ∧ (∀ p, p ∈ t.uncached ↔ uncached p) ∧ Laid A t s

variable {mapped uncached : Nat → Prop}

theorem Maps.congr {mapped' uncached' : Nat → Prop} {s : PagingState} (h : Maps A mapped uncached s)
    (hm : ∀ p, mapped p ↔ mapped' p) (hu : ∀ p, uncached p ↔ uncached' p) :
    Maps A mapped' uncached' s := by
  obtain ⟨t, htm, htu, hlaid⟩ := h
  exact ⟨t, fun p => (htm p).trans (hm p), fun p => (htu p).trans (hu p), hlaid⟩

/-- **The loop body of `map_identity_range_4k`.** -/
theorem mapPage_triple {p : Nat} (hp : p < A.pages) {addr flags : UInt64} {cached : Bool}
    (ha : addr.toNat = p * 4096) (hf : flags.toNat = flagBits cached) :
    Triple (alone PoolOk) (Maps A mapped uncached) (mapPage addr flags) fun r s => r = true ∧
      Maps A (fun q => mapped q ∨ q = p) (fun q => uncached q ∨ cached = false ∧ q = p) s := by
  have hroot : tableOver 512 3 p = (3, 0) := by
    have hpages := A.pages_le
    have hzero : p / 512 ^ (3 + 1) = 0 := Nat.div_eq_of_lt (by omega)
    rw [tableOver, hzero]
  refine Triple.exists fun t => Triple.lift fun hm => Triple.lift fun hu => ?_
  refine .bind (R := fun pml4 => Reached A t (tableOver 512 3 p) pml4) ?_ fun pml4 => ?_
  · refine .alone_load fun s h => ⟨h.poolOk, t, .refl t, h, hroot ▸ h.tree.root, ?_⟩
    rw [hroot, TableTree.addr, h.tree.rootFirst, h.cr3, Nat.mul_zero, Nat.add_zero]
  refine .bind (ensureNextTable_triple (by omega) hp (tableIndex_toNat (by omega) ha)) fun pdpt => ?_
  refine Triple.exists fun next => Triple.lift ?_
  rintro rfl
  refine .bind (ensureNextTable_triple (by omega) hp (tableIndex_toNat (by omega) ha)) fun pd => ?_
  refine Triple.exists fun next => Triple.lift ?_
  rintro rfl
  refine .bind (ensureNextTable_triple (by omega) hp (tableIndex_toNat (by omega) ha)) fun pt => ?_
  refine Triple.exists fun next => Triple.lift ?_
  rintro rfl
  refine (mapEntry_triple hp ha hf).post ?_
  rintro r s ⟨hr, t', hm', hu', hlaid⟩
  refine ⟨hr, t', fun q => ?_, fun q => ?_, hlaid⟩
  · rw [hm', Finset.mem_insert, hm, or_comm]
  · rw [hu', addUncached]
    cases cached with
    | true => simp [hu]
    | false => simp [hu, or_comm]

/-- A run of pages. -/
theorem mapPages_triple {flags : UInt64} {cached : Bool} (hf : flags.toNat = flagBits cached) :
    ∀ {addrs : List UInt64} {mapped uncached : Nat → Prop},
    (∀ addr ∈ addrs, ∃ p < A.pages, addr.toNat = p * 4096) →
    Triple (alone PoolOk) (Maps A mapped uncached) (.allOf addrs fun addr => mapPage addr flags)
      fun r s => r = true ∧
        Maps A (fun q => mapped q ∨ ∃ addr ∈ addrs, addr.toNat = q * 4096)
          (fun q => uncached q ∨ cached = false ∧ ∃ addr ∈ addrs, addr.toNat = q * 4096) s := by
  intro addrs
  induction addrs with
  | nil =>
    intro mapped uncached _
    refine .ret fun s h => ⟨rfl, h.congr (fun q => ?_) fun q => ?_⟩ <;> simp
  | cons addr addrs ih =>
    intro mapped uncached h
    obtain ⟨⟨p, hp, ha⟩, hrest⟩ := List.forall_mem_cons.1 h
    have heq : ∀ q, q = p ↔ addr.toNat = q * 4096 := fun q => by rw [ha]; omega
    refine .bind (mapPage_triple hp ha hf) fun ok => Triple.lift ?_
    rintro rfl
    refine (ih hrest).post ?_
    rintro r s ⟨hr, hmaps⟩
    refine ⟨hr, hmaps.congr (fun q => ?_) fun q => ?_⟩
    · simp only [heq, List.mem_cons, exists_eq_or_imp, or_assoc]
    · simp only [heq, List.mem_cons, exists_eq_or_imp, and_or_left, or_assoc]

/-- Page `q` has a byte of the `n` bytes from `a`. -/
def Touches4k (a n q : Nat) : Prop := ∃ x, a ≤ x ∧ x < a + n ∧ x / 4096 = q

theorem touches4k_iff {a n q : Nat} :
    Touches4k a n q ↔ 0 < n ∧ a / 4096 ≤ q ∧ q < (a + n + 4095) / 4096 := by
  constructor
  · rintro ⟨x, hax, hxn, rfl⟩
    omega
  · rintro ⟨hn, hlo, hhi⟩
    refine ⟨max a (q * 4096), by omega, by omega, by omega⟩

theorem mem_pageAddrs {mapStart mapEnd : UInt64} {lo hi : Nat} (hlo : mapStart.toNat = lo * 4096)
    (hhi : mapEnd.toNat = hi * 4096) (hlt : hi ≤ 2 ^ 35) {addr : UInt64} :
    addr ∈ pageAddrs mapStart mapEnd ↔ ∃ p, lo ≤ p ∧ p < hi ∧ addr.toNat = p * 4096 := by
  have hcount : (mapEnd.toNat - mapStart.toNat + 4095) / 4096 = hi - lo := by omega
  have haddr : ∀ k < hi - lo, (mapStart + UInt64.ofNat k * pageSize4k).toNat = (lo + k) * 4096 := by
    intro k hk
    have hk' : (UInt64.ofNat k).toNat = k := by
      rw [UInt64.toNat_ofNat', Nat.mod_eq_of_lt (by omega)]
    have h4k : pageSize4k.toNat = 4096 := rfl
    have hmul : (UInt64.ofNat k * pageSize4k).toNat = k * 4096 := by
      rw [toNat_mul_of_lt] <;> rw [hk', h4k]
      omega
    rw [toNat_add_of_lt] <;> rw [hmul, hlo] <;> omega
  rw [pageAddrs, hcount, List.mem_map]
  constructor
  · rintro ⟨k, hk, rfl⟩
    have hk := List.mem_range.1 hk
    exact ⟨lo + k, by omega, by omega, haddr k hk⟩
  · rintro ⟨p, hlop, hphi, hp⟩
    refine ⟨p - lo, List.mem_range.2 (by omega), UInt64.toNat_inj.1 ?_⟩
    rw [haddr _ (by omega), hp]
    congr 1
    omega

variable (mapped uncached) in
/-- **`map_identity_range_4k` on a range below the pool's bound.** -/
theorem mapIdentityRange4k_triple (start bytes : UInt64) {flags : UInt64} {cached : Bool}
    (hf : flags.toNat = flagBits cached)
    (hend : (start.toNat + bytes.toNat + 4095) / 4096 ≤ A.pages) :
    Triple (alone PoolOk) (Maps A mapped uncached) (mapIdentityRange4k start bytes flags)
      fun r s => r = true ∧
        Maps A (fun q => mapped q ∨ Touches4k start.toNat bytes.toNat q)
          (fun q => uncached q ∨ cached = false ∧ Touches4k start.toNat bytes.toNat q) s := by
  have hpages := A.pages_le
  refine .cond (fun hzero => .ret fun s h => ⟨rfl, h.congr (fun q => ?_) fun q => ?_⟩) fun hne => ?_
  · have hno : ¬ Touches4k start.toNat bytes.toNat q := by
      rw [touches4k_iff, hzero, UInt64.toNat_zero]
      omega
    simp [hno]
  · have hno : ¬ Touches4k start.toNat bytes.toNat q := by
      rw [touches4k_iff, hzero, UInt64.toNat_zero]
      omega
    simp [hno]
  -- below the bound, neither overflow check can fail
  refine .cond (fun hover => absurd hover ?_) fun _ => ?_
  · rw [gt_iff_lt, UInt64.lt_iff_toNat_lt, toNat_not_zero_sub]
    omega
  have hsum : (start + bytes).toNat = start.toNat + bytes.toNat := toNat_add_of_lt (by omega)
  have hup : alignUp4kChecked (start + bytes)
      = some (UInt64.ofNat ((start.toNat + bytes.toNat + 4095) / 4096 * 4096)) := by
    rw [alignUp4kChecked_eq, hsum, if_pos (by omega)]
  have hmapEnd : (UInt64.ofNat ((start.toNat + bytes.toNat + 4095) / 4096 * 4096)).toNat
      = (start.toNat + bytes.toNat + 4095) / 4096 * 4096 := by
    rw [UInt64.toNat_ofNat', Nat.mod_eq_of_lt (by omega)]
  have hpos : 0 < bytes.toNat := Nat.pos_of_ne_zero fun h0 => hne (UInt64.toNat_inj.1 h0)
  -- the loop goes over the pages that the range touches
  have hmem : ∀ addr, addr ∈ pageAddrs (alignDown4k start)
      (UInt64.ofNat ((start.toNat + bytes.toNat + 4095) / 4096 * 4096)) ↔
      ∃ p, Touches4k start.toNat bytes.toNat p ∧ addr.toNat = p * 4096 := by
    intro addr
    rw [mem_pageAddrs (alignDown4k_toNat start) hmapEnd (by omega)]
    refine exists_congr fun p => ?_
    rw [touches4k_iff]
    omega
  simp only [hup]
  refine .cond (fun hlimit => absurd hlimit ?_) fun _ => ?_
  · rw [gt_iff_lt, UInt64.lt_iff_toNat_lt, hmapEnd, show lowCanonicalLimit.toNat = 2 ^ 47 from rfl]
    omega
  refine .bind (R := fun _ => Maps A mapped uncached) ?_ fun _ => ?_
  · refine .alone_store ?_
    rintro s ⟨t, hm, hu, hlaid⟩
    have hlaid' : Laid A t { s with info.mappedRanges := s.info.mappedRanges + 1 } :=
      ⟨hlaid.cr3, hlaid.poolStart, hlaid.poolNext, hlaid.poolEnd, hlaid.allocated, hlaid.maxEnd,
        hlaid.mappedPages, hlaid.error, hlaid.tree, hlaid.words⟩
    exact ⟨hlaid'.poolOk, t, hm, hu, hlaid'⟩
  refine (mapPages_triple hf fun addr haddr => ?_).post ?_
  · obtain ⟨p, hp, ha⟩ := (hmem addr).1 haddr
    have hlt := (touches4k_iff.1 hp).2.2
    exact ⟨p, by omega, ha⟩
  · rintro r s ⟨hr, hmaps⟩
    have hiff : ∀ q, (∃ addr ∈ pageAddrs (alignDown4k start)
        (UInt64.ofNat ((start.toNat + bytes.toNat + 4095) / 4096 * 4096)), addr.toNat = q * 4096) ↔
        Touches4k start.toNat bytes.toNat q := by
      intro q
      constructor
      · rintro ⟨addr, haddr, hq⟩
        obtain ⟨p, hp, ha⟩ := (hmem addr).1 haddr
        obtain rfl : p = q := by omega
        exact hp
      · intro hq
        have hlt := (touches4k_iff.1 hq).2.2
        have hq' : (UInt64.ofNat (q * 4096)).toNat = q * 4096 := by
          rw [UInt64.toNat_ofNat', Nat.mod_eq_of_lt (by omega)]
        exact ⟨_, (hmem _).2 ⟨q, hq, hq'⟩, hq'⟩
    exact ⟨hr, hmaps.congr (fun q => by rw [hiff]) fun q => by rw [hiff]⟩

end Walk

end VibeKernel

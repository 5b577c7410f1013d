import VibeKernel.Boot.PageTable
import VibeKernel.Num.Radix

/-!
# The tables as a tree

What the words of the pool mean. `TableTree` is the abstract state: which tables exist, in the order
of their allocation, which pages are mapped and which of them uncached. `Laid` says that the memory
shows it: table `k` lies `4096 * k` bytes into the pool, and every entry of every table is the one
the tree prescribes.

Each write of the program takes the memory of one tree to the memory of the next one.
-/

namespace VibeKernel

open Num Num.Radix

/-! ## Entries -/

theorem and_bit_ne_zero_iff (e : UInt64) {m : UInt64} {k : Nat} (hm : m.toNat = 2 ^ k) :
    e &&& m ≠ 0 ↔ e.toNat / 2 ^ k % 2 = 1 := by
  have hbit : (e &&& m).toNat = e.toNat / 2 ^ k % 2 * 2 ^ k := by
    have hwindow := and_window e.toNat k 1
    rw [show (2 ^ 1 - 1) * 2 ^ k = 2 ^ k by omega] at hwindow
    rw [UInt64.toNat_and, hm, hwindow, pow_one]
  have hpos : 0 < 2 ^ k := Nat.two_pow_pos k
  rw [ne_eq, ← UInt64.toNat_inj, hbit, UInt64.toNat_zero, Nat.mul_eq_zero]
  omega

theorem present_iff (e : UInt64) : e &&& ptePresent ≠ 0 ↔ e.toNat % 2 = 1 := by
  rw [and_bit_ne_zero_iff e (k := 0) rfl, pow_zero, Nat.div_one]

theorem and_pteAddrMask_toNat (e : UInt64) :
    (e &&& pteAddrMask).toNat = e.toNat / 4096 % 2 ^ 40 * 4096 := by
  rw [UInt64.toNat_and]
  exact and_window e.toNat 12 40

/-- The address in an entry that was made of an address and flags. -/
theorem entry_addr {e : UInt64} {a f : Nat} (he : e.toNat = a + f) (ha : 4096 ∣ a) (hf : f < 4096)
    (hlt : a < 2 ^ 52) : (e &&& pteAddrMask).toNat = a := by
  obtain ⟨c, rfl⟩ := ha
  rw [and_pteAddrMask_toNat, he]
  omega

/-! ## The tree -/

structure TableTree where
  tables : List Table
  mapped : Finset Nat
  uncached : Finset Nat

namespace TableTree

variable (base : Nat) (t : TableTree)

/-- The address of a table. -/
def addr (k : Table) : Nat := base + 4096 * t.tables.idxOf k

/-- The flags of a mapped page. -/
def flags (p : Nat) : Nat := if p ∈ t.uncached then 27 else 3

/-- Entry `i` of a table. -/
def entry (k : Table) (i : Nat) : Nat :=
  if k.1 = 0 then
    if k.2 * 512 + i ∈ t.mapped then (k.2 * 512 + i) * 4096 + t.flags (k.2 * 512 + i) else 0
  else if child 512 k i ∈ t.tables then t.addr base (child 512 k i) + 3 else 0

/-- The tree with one more table. -/
def grow (k : Table) : TableTree := { t with tables := t.tables ++ [k] }

/-- The tree with page `p` mapped. -/
def mapPage (p : Nat) (cached : Bool) : TableTree :=
  { t with mapped := insert p t.mapped
           uncached := if cached then t.uncached else insert p t.uncached }

end TableTree

/-! ## Words of memory -/

/-- The word at a byte address. -/
def PagingState.word (s : PagingState) (a : Nat) : Nat := (s.mem (UInt64.ofNat a)).toNat

theorem PagingState.mem_toNat (s : PagingState) (x : UInt64) : (s.mem x).toNat = s.word x.toNat := by
  rw [word, UInt64.ofNat_toNat]

theorem entryAddr_toNat {table index : UInt64} {a i : Nat} (ha : table.toNat = a)
    (hi : index.toNat = i) (hlt : a + 8 * i < 2 ^ 64) : (entryAddr table index).toNat = a + 8 * i := by
  have hmul : (8 * index : UInt64).toNat = 8 * i := by
    rw [toNat_mul_of_lt] <;> rw [hi] <;> first | rfl | (show 8 * i < _; omega)
  rw [entryAddr, toNat_add_of_lt] <;> rw [hmul, ha]
  exact hlt

/-- The words after a write. -/
theorem update_toNat {mem : UInt64 → UInt64} {x v : UInt64} {a : Nat} (ha : a < 2 ^ 64) :
    (Function.update mem x v (UInt64.ofNat a)).toNat
      = if a = x.toNat then v.toNat else (mem (UInt64.ofNat a)).toNat := by
  by_cases h : a = x.toNat
  · subst h
    simp
  · have hne : UInt64.ofNat a ≠ x := by
      rintro rfl
      rw [UInt64.toNat_ofNat', Nat.mod_eq_of_lt ha] at h
      exact h rfl
    simp [hne, h]

/-- The words after the first `n` words of a page were zeroed. -/
theorem zeroWords_toNat {phys : UInt64} {b a n : Nat} (hb : phys.toNat = b)
    (hlt : b + 8 * n ≤ 2 ^ 64) (ha : a < 2 ^ 64) (mem : UInt64 → UInt64) :
    ((List.range n).foldl (fun mem i => Function.update mem (entryAddr phys (UInt64.ofNat i)) 0) mem
      (UInt64.ofNat a)).toNat
      = if b ≤ a ∧ a < b + 8 * n ∧ (a - b) % 8 = 0 then 0 else (mem (UInt64.ofNat a)).toNat := by
  induction n generalizing mem with
  | zero =>
    rw [if_neg (by omega)]
    rfl
  | succ n ih =>
    have hi : (UInt64.ofNat n).toNat = n := by
      rw [UInt64.toNat_ofNat', Nat.mod_eq_of_lt (by omega)]
    have haddr : (entryAddr phys (UInt64.ofNat n)).toNat = b + 8 * n :=
      entryAddr_toNat hb hi (by omega)
    rw [List.range_succ, List.foldl_append, List.foldl_cons, List.foldl_nil, update_toNat ha, haddr,
      ih (by omega) mem]
    by_cases han : a = b + 8 * n
    · rw [if_pos han, UInt64.toNat_zero, if_pos (by omega)]
    · have hiff : (b ≤ a ∧ a < b + 8 * (n + 1) ∧ (a - b) % 8 = 0) ↔
          (b ≤ a ∧ a < b + 8 * n ∧ (a - b) % 8 = 0) := by omega
      rw [if_neg han]
      simp only [hiff]

/-- The words after a page was zeroed. -/
theorem zeroPage4k_toNat {phys : UInt64} {b a : Nat} (hb : phys.toNat = b)
    (hlt : b + 4096 ≤ 2 ^ 64) (ha : a < 2 ^ 64) (mem : UInt64 → UInt64) :
    (zeroPage4k phys mem (UInt64.ofNat a)).toNat
      = if b ≤ a ∧ a < b + 4096 ∧ (a - b) % 8 = 0 then 0 else (mem (UInt64.ofNat a)).toNat := by
  rw [zeroPage4k, zeroWords_toNat hb (by omega) ha mem]

/-! ## The layout -/

/-- As many tables as the leaves below `pages` can need. -/
def tableBound (pages : Nat) : Nat := ∑ l ∈ Finset.range 4, tablesAt 512 pages l

/-- A pool that is large enough for the pages below the highest end. -/
structure Arena where
  base : Nat
  pages : Nat
  maxEnd : UInt64
  aligned : 4096 ∣ base
  pos : 0 < base
  fits : base + 4096 * tableBound pages ≤ 2 ^ 47
  pages_le : pages ≤ 2 ^ 35
  estimate : tableBound pages ≤ (estimateIdentityPageTablePages maxEnd).toNat

/-- Every table but the root is in another one, and every mapped page in a table of level 0. -/
structure TableTree.Proper (pages : Nat) (t : TableTree) : Prop where
  root : (3, 0) ∈ t.tables
  rootFirst : t.tables.idxOf (3, 0) = 0
  nodup : t.tables.Nodup
  below : ∀ k ∈ t.tables, Below pages 3 512 k
  parent : ∀ l q, (l, q) ∈ t.tables → l < 3 → (l + 1, q / 512) ∈ t.tables
  leaf : ∀ p ∈ t.mapped, tableOver 512 0 p ∈ t.tables
  mapped_lt : ∀ p ∈ t.mapped, p < pages
  uncached : t.uncached ⊆ t.mapped

/-- The memory shows the tree. -/
structure Laid (A : Arena) (t : TableTree) (s : PagingState) : Prop where
  cr3 : s.info.cr3.toNat = A.base
  poolStart : s.info.poolStart.toNat = A.base
  poolNext : s.info.poolNext.toNat = A.base + 4096 * t.tables.length
  poolEnd : A.base + 4096 * tableBound A.pages ≤ s.info.poolEnd.toNat
  allocated : s.info.allocatedPages.toNat = t.tables.length
  maxEnd : s.info.maxIdentityEnd = A.maxEnd
  mappedPages : s.info.mappedPages.toNat = t.mapped.card
  error : s.info.error = .ok
  tree : t.Proper A.pages
  words : ∀ k ∈ t.tables, ∀ i < 512, s.word (t.addr A.base k + 8 * i) = t.entry A.base k i

section Layout

variable {A : Arena} {t : TableTree} {s : PagingState} {k : Table} {i : Nat}

theorem TableTree.Proper.length_le (h : t.Proper A.pages) : t.tables.length ≤ tableBound A.pages :=
  length_le_of_below h.nodup h.below

/-- There is room for a table that is missing. -/
theorem TableTree.Proper.length_lt (h : t.Proper A.pages) (hk : k ∉ t.tables)
    (hb : Below A.pages 3 512 k) : t.tables.length < tableBound A.pages := by
  have hlen : (k :: t.tables).length ≤ tableBound A.pages :=
    length_le_of_below (List.nodup_cons.2 ⟨hk, h.nodup⟩) (List.forall_mem_cons.2 ⟨hb, h.below⟩)
  exact Nat.lt_of_succ_le hlen

/-- A table lies in the pool, on a page of its own. -/
theorem TableTree.Proper.addr_lt (h : t.Proper A.pages) (hk : k ∈ t.tables) :
    t.addr A.base k + 4096 ≤ A.base + 4096 * t.tables.length ∧ t.addr A.base k + 4096 ≤ 2 ^ 47 := by
  have hidx := List.idxOf_lt_length_of_mem hk
  have hlen := h.length_le
  have hfits := A.fits
  unfold addr
  omega

theorem TableTree.addr_dvd (t : TableTree) (k : Table) : 4096 ∣ t.addr A.base k :=
  Nat.dvd_add A.aligned (Nat.dvd_mul_right _ _)

/-- Two entries at the same address are one. -/
theorem TableTree.addr_inj {k' : Table} {i' : Nat} (hk : k ∈ t.tables) (hi : i < 512) (hi' : i' < 512)
    (h : t.addr A.base k + 8 * i = t.addr A.base k' + 8 * i') : k = k' ∧ i = i' := by
  unfold addr at h
  have hidx : t.tables.idxOf k = t.tables.idxOf k' := by omega
  exact ⟨(List.idxOf_inj hk).1 hidx, by omega⟩

/-! ## One more table -/

theorem TableTree.mem_grow {k' : Table} : k' ∈ (t.grow k).tables ↔ k' ∈ t.tables ∨ k' = k := by
  simp [grow]

theorem TableTree.addr_grow {k' : Table} (hk : k' ∈ t.tables) :
    (t.grow k).addr A.base k' = t.addr A.base k' := by
  simp [addr, grow, List.idxOf_append_of_mem hk]

theorem TableTree.addr_grow_self (hk : k ∉ t.tables) :
    (t.grow k).addr A.base k = A.base + 4096 * t.tables.length := by
  simp [addr, grow, List.idxOf_append, hk]

theorem TableTree.Proper.grow (h : t.Proper A.pages) {l q : Nat} (hk : (l, q) ∉ t.tables)
    (hb : Below A.pages 3 512 (l, q)) (hl : l < 3) (hp : (l + 1, q / 512) ∈ t.tables) :
    (t.grow (l, q)).Proper A.pages where
  root := mem_grow.2 (Or.inl h.root)
  rootFirst := (List.idxOf_append_of_mem h.root).trans h.rootFirst
  nodup := by
    rw [TableTree.grow, List.nodup_append]
    refine ⟨h.nodup, by simp, ?_⟩
    rintro a ha b hb rfl
    obtain rfl := List.mem_singleton.1 hb
    exact hk ha
  below k' hk' := by
    rcases mem_grow.1 hk' with hk' | rfl
    · exact h.below _ hk'
    · exact hb
  parent l' q' hk' hl' := by
    rcases mem_grow.1 hk' with hk' | he
    · exact mem_grow.2 (Or.inl (h.parent _ _ hk' hl'))
    · obtain ⟨rfl, rfl⟩ := Prod.mk.inj he
      exact mem_grow.2 (Or.inl hp)
  leaf p hp := mem_grow.2 (Or.inl (h.leaf p hp))
  mapped_lt := h.mapped_lt
  uncached := h.uncached

/-- A missing table has no child and no mapped page. -/
theorem TableTree.Proper.entry_grow_self (h : t.Proper A.pages) {l q : Nat}
    (hk : (l, q) ∉ t.tables) (hl : l < 3) (hi : i < 512) : (t.grow (l, q)).entry A.base (l, q) i = 0 := by
  have hdiv : (q * 512 + i) / 512 = q := by omega
  unfold entry
  split
  · rename_i h0
    obtain rfl : l = 0 := h0
    refine if_neg fun hp => hk ?_
    have hleaf := h.leaf _ hp
    simpa [tableOver, hdiv] using hleaf
  · rename_i h0
    have h0 : l ≠ 0 := h0
    refine if_neg fun hc => ?_
    rcases mem_grow.1 hc with hc | he
    · have hpar := h.parent (l - 1) (q * 512 + i) hc (by omega)
      rw [hdiv, show l - 1 + 1 = l by omega] at hpar
      exact hk hpar
    · have := (Prod.mk.inj he).1
      simp only at this
      omega

/-- Every entry but the new table's own is as before. -/
theorem TableTree.entry_grow {k' : Table} {i' : Nat} (hne : k'.1 ≠ 0 → child 512 k' i' ≠ k) :
    (t.grow k).entry A.base k' i' = t.entry A.base k' i' := by
  unfold entry
  split
  · rfl
  · rename_i h0
    have hmem : child 512 k' i' ∈ (t.grow k).tables ↔ child 512 k' i' ∈ t.tables :=
      mem_grow.trans ⟨fun h => h.resolve_right (hne h0), Or.inl⟩
    by_cases hc : child 512 k' i' ∈ t.tables
    · rw [if_pos (hmem.2 hc), if_pos hc, addr_grow hc]
    · rw [if_neg (fun h => hc (hmem.1 h)), if_neg hc]

/-- A child names its parent and its index. -/
theorem child_inj {k m : Table} {i i' : Nat} (hk : k.1 ≠ 0) (hm : m.1 ≠ 0) (hi : i < 512)
    (hi' : i' < 512) (h : child 512 k i = child 512 m i') : k = m ∧ i = i' := by
  obtain ⟨h1, h2⟩ := Prod.mk.inj h
  refine ⟨Prod.ext (by omega) (by omega), by omega⟩

/-- The memory after `alloc_page_table_page` took the next page. -/
def PagingState.alloc (s : PagingState) : PagingState where
  info := { s.info with poolNext := s.info.poolNext + pageSize4k
                        allocatedPages := s.info.allocatedPages + 1 }
  mem := zeroPage4k s.info.poolNext s.mem

/-- The memory after a store to an entry. -/
def PagingState.setEntry (s : PagingState) (table index entry : UInt64) : PagingState :=
  { s with mem := Function.update s.mem (entryAddr table index) entry }

theorem Laid.room_of_missing (h : Laid A t s) (hk : k ∉ t.tables) (hb : Below A.pages 3 512 k) :
    A.base + 4096 * t.tables.length + 4096 ≤ A.base + 4096 * tableBound A.pages := by
  have hlen := h.tree.length_lt hk hb
  omega

@[simp] theorem PagingState.setEntry_info (s : PagingState) (table index entry : UInt64) :
    (s.setEntry table index entry).info = s.info := rfl

@[simp] theorem PagingState.alloc_info (s : PagingState) :
    s.alloc.info = { s.info with poolNext := s.info.poolNext + pageSize4k
                                 allocatedPages := s.info.allocatedPages + 1 } := rfl

/-- **One more table.** The next page of the pool becomes child `i` of table `k`. -/
theorem Laid.grow (h : Laid A t s) {l q : Nat} (hk : (l + 1, q) ∈ t.tables) (hi : i < 512)
    (hnew : (l, q * 512 + i) ∉ t.tables) (hb : Below A.pages 3 512 (l, q * 512 + i)) (hl : l < 3)
    {table index : UInt64} (htable : table.toNat = t.addr A.base (l + 1, q))
    (hindex : index.toNat = i) :
    Laid A (t.grow (l, q * 512 + i))
      (s.alloc.setEntry table index (s.info.poolNext ||| ptePresent ||| pteRw)) := by
  have hroom := h.room_of_missing hnew hb
  have hfits := A.fits
  have hnext := h.poolNext
  have hlen : (t.grow (l, q * 512 + i)).tables.length = t.tables.length + 1 := by
    simp [TableTree.grow]
  have hparent : (q * 512 + i) / 512 = q := by omega
  have htree : (t.grow (l, q * 512 + i)).Proper A.pages :=
    h.tree.grow hnew hb hl (by rw [hparent]; exact hk)
  -- the word stored in the parent
  have hdvd : 2 ^ 12 ∣ s.info.poolNext.toNat := by
    rw [hnext]
    exact Nat.dvd_add A.aligned (Nat.dvd_mul_right _ _)
  have hword : (s.info.poolNext ||| ptePresent ||| pteRw).toNat
      = A.base + 4096 * t.tables.length + 3 := by
    rw [UInt64.or_assoc, toNat_or_of_dvd hdvd (by decide), hnext]
    rfl
  have hslot : (entryAddr table index).toNat = t.addr A.base (l + 1, q) + 8 * i := by
    have := (h.tree.addr_lt hk).2
    exact entryAddr_toNat htable hindex (by omega)
  constructor
  all_goals try simp only [PagingState.setEntry_info, PagingState.alloc_info]
  · exact h.cr3
  · exact h.poolStart
  · rw [toNat_add_of_lt, hnext, hlen] <;> rw [show pageSize4k.toNat = 4096 from rfl] <;> omega
  · exact h.poolEnd
  · have hbound := h.tree.length_le
    rw [toNat_add_of_lt, h.allocated, hlen] <;> rw [UInt64.toNat_one]
    have := h.allocated
    omega
  · exact h.maxEnd
  · exact h.mappedPages
  · exact h.error
  · exact htree
  · intro k' hk' i' hi'
    -- the word at an entry of the new memory
    have hread : ∀ a < 2 ^ 64,
        (s.alloc.setEntry table index (s.info.poolNext ||| ptePresent ||| pteRw)).word a
          = if a = t.addr A.base (l + 1, q) + 8 * i then A.base + 4096 * t.tables.length + 3
            else if A.base + 4096 * t.tables.length ≤ a ∧ a < A.base + 4096 * t.tables.length + 4096 ∧
              (a - (A.base + 4096 * t.tables.length)) % 8 = 0 then 0 else s.word a := by
      intro a ha
      rw [PagingState.word, PagingState.setEntry, update_toNat ha, hslot, hword, PagingState.alloc,
        zeroPage4k_toNat hnext (by omega) ha, PagingState.word]
    have hparentLt := (h.tree.addr_lt hk).1
    rcases TableTree.mem_grow.1 hk' with hold | rfl
    · have hlt := (h.tree.addr_lt hold).1
      rw [TableTree.addr_grow hold, hread _ (by omega)]
      by_cases hsame : t.addr A.base k' + 8 * i' = t.addr A.base (l + 1, q) + 8 * i
      · obtain ⟨rfl, rfl⟩ := TableTree.addr_inj hold hi' hi hsame
        have hchild : child 512 (l + 1, q) i' = (l, q * 512 + i') := rfl
        rw [if_pos rfl, TableTree.entry, if_neg (by simp), hchild,
          if_pos (TableTree.mem_grow.2 (Or.inr rfl)), TableTree.addr_grow_self hnew]
      · rw [if_neg hsame, if_neg (by omega), h.words k' hold i' hi',
          TableTree.entry_grow fun h0 he => hsame ?_]
        obtain ⟨rfl, rfl⟩ := child_inj (m := (l + 1, q)) h0 (by simp) hi' hi he
        rfl
    · rw [TableTree.addr_grow_self hnew, hread _ (by omega), if_neg (by omega), if_pos (by omega),
        h.tree.entry_grow_self hnew hl hi']

/-! ## One more page -/

/-- The flags as the program passes them. -/
def flagBits (cached : Bool) : Nat := if cached then 3 else 27

theorem TableTree.flags_mapPage_self (t : TableTree) (p : Nat) (cached : Bool) :
    (t.mapPage p cached).flags p = t.flags p ||| flagBits cached := by
  unfold flags TableTree.mapPage flagBits
  cases cached with
  | true => by_cases hp : p ∈ t.uncached <;> simp [hp]
  | false => by_cases hp : p ∈ t.uncached <;> simp [hp]

theorem TableTree.flags_lt (t : TableTree) (p : Nat) : t.flags p < 2 ^ 12 := by
  unfold flags
  split <;> omega

theorem TableTree.flags_odd (t : TableTree) (p : Nat) : t.flags p % 2 = 1 := by
  unfold flags
  split <;> rfl

/-- Mapping a page changes its own entry only. -/
theorem TableTree.entry_mapPage {p : Nat} {cached : Bool} {k : Table} {i : Nat}
    (hne : k.1 = 0 → k.2 * 512 + i ≠ p) :
    (t.mapPage p cached).entry A.base k i = t.entry A.base k i := by
  unfold entry
  split
  · rename_i h0
    have hne := hne h0
    have hmem : k.2 * 512 + i ∈ (t.mapPage p cached).mapped ↔ k.2 * 512 + i ∈ t.mapped := by
      simp [TableTree.mapPage, hne]
    have hflags : (t.mapPage p cached).flags (k.2 * 512 + i) = t.flags (k.2 * 512 + i) := by
      cases cached <;> simp [flags, TableTree.mapPage, hne]
    simp only [hmem, hflags]
  · rfl

theorem TableTree.entry_mapPage_self (t : TableTree) (p : Nat) (cached : Bool) :
    (t.mapPage p cached).entry A.base (tableOver 512 0 p) (index 512 0 p)
      = p * 4096 + (t.flags p ||| flagBits cached) := by
  have hp : (tableOver 512 0 p).2 * 512 + index 512 0 p = p := over_zero_mul_add_index p
  have hmem : p ∈ (t.mapPage p cached).mapped := Finset.mem_insert_self _ _
  rw [entry, if_pos (show (tableOver 512 0 p).1 = 0 from rfl), hp, if_pos hmem, flags_mapPage_self]

/-- **One more page.** Its entry in its table of level 0 is set, and the count follows. -/
theorem Laid.mapPage (h : Laid A t s) {p : Nat} (hp : p < A.pages) (hk : tableOver 512 0 p ∈ t.tables)
    {cached : Bool} {table idx v : UInt64} (htable : table.toNat = t.addr A.base (tableOver 512 0 p))
    (hidx : idx.toNat = index 512 0 p) (hv : v.toNat = p * 4096 + (t.flags p ||| flagBits cached))
    {n : UInt64} (hn : n.toNat = (insert p t.mapped).card) :
    Laid A (t.mapPage p cached)
      { s.setEntry table idx v with info := { s.info with mappedPages := n } } := by
  have hilt : index 512 0 p < 512 := index_lt (by decide) 0 p
  have hfits := A.fits
  have hslot : (entryAddr table idx).toNat = t.addr A.base (tableOver 512 0 p) + 8 * index 512 0 p := by
    have := (h.tree.addr_lt hk).2
    exact entryAddr_toNat htable hidx (by omega)
  constructor
  · exact h.cr3
  · exact h.poolStart
  · exact h.poolNext
  · exact h.poolEnd
  · exact h.allocated
  · exact h.maxEnd
  · exact hn
  · exact h.error
  · refine ⟨h.tree.root, h.tree.rootFirst, h.tree.nodup, h.tree.below, h.tree.parent, ?_, ?_, ?_⟩
    · intro q hq
      rcases Finset.mem_insert.1 hq with rfl | hq
      · exact hk
      · exact h.tree.leaf q hq
    · intro q hq
      rcases Finset.mem_insert.1 hq with rfl | hq
      · exact hp
      · exact h.tree.mapped_lt q hq
    · cases cached with
      | true => exact h.tree.uncached.trans (Finset.subset_insert _ _)
      | false => exact Finset.insert_subset_insert _ h.tree.uncached
  · intro k' hk' i' hi'
    have hk' : k' ∈ t.tables := hk'
    have hlt := (h.tree.addr_lt hk').2
    show (Function.update s.mem (entryAddr table idx) v
      (UInt64.ofNat (t.addr A.base k' + 8 * i'))).toNat = _
    rw [update_toNat (by omega), hslot, hv]
    -- tables do not overlap, so equal addresses are equal entries of one table
    by_cases hsame : t.addr A.base k' + 8 * i' = t.addr A.base (tableOver 512 0 p) + 8 * index 512 0 p
    · obtain ⟨rfl, rfl⟩ := TableTree.addr_inj hk' hi' hilt hsame
      rw [if_pos rfl, TableTree.entry_mapPage_self]
    · rw [if_neg hsame, TableTree.entry_mapPage]
      · exact h.words k' hk' i' hi'
      · intro h0 he
        refine hsame ?_
        have hk0 : k' = tableOver 512 0 p := Prod.ext h0 (by simp only [tableOver]; omega)
        have hi0 : i' = index 512 0 p := by simp only [index]; omega
        rw [hk0, hi0]

end Layout

end VibeKernel

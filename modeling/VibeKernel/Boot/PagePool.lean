import VibeKernel.Boot.MemoryMap

/-!
# The pool of page-table pages

`select_page_table_pool` takes the end of a conventional descriptor for page tables. It shrinks the
descriptor in place and appends one for the pool.

## What goes wrong

The descriptor is shrunk before the append that may find the buffer full. In that case, and in no
other, a failed call leaves the map changed: the pool's pages are in no descriptor any more.
-/

namespace VibeKernel

/-- `PAGING_OK` and the `PAGING_ERR_` codes. -/
inductive PagingError
  | ok
  | la57
  | range
  | noPool
  | poolEmpty
  | tableEntry
  | mapFull
deriving DecidableEq, Repr

/-- `paging_info_t`, less `idt_self_test_ok`. -/
structure PagingInfo where
  cr3 : UInt64 := 0
  loadedCr3 : UInt64 := 0
  poolStart : UInt64 := 0
  poolEnd : UInt64 := 0
  poolNext : UInt64 := 0
  maxIdentityEnd : UInt64 := 0
  reservedPages : UInt64 := 0
  allocatedPages : UInt64 := 0
  mappedPages : UInt64 := 0
  mappedRanges : UInt64 := 0
  error : PagingError := .ok

/-- `selected_start`, `selected_end` and `selected_index`. -/
structure PoolChoice where
  start : UInt64
  endAddr : UInt64
  index : Nat

/-- One round of the loop of `select_page_table_pool`, at index `i`. `none` is
`PAGING_ERR_RANGE`. -/
def considerDesc (poolPages : UInt64) (desc : EfiMemoryDescriptor) (i : Nat)
    (selected : Option PoolChoice) : Option (Option PoolChoice) :=
  if desc.type ≠ efiConventionalMemory ∨ desc.numberOfPages < poolPages then some selected
  else
    match descriptorEndChecked desc, selected with
    | none, _ => none
    | some endAddr, none => some (some ⟨desc.physicalStart, endAddr, i⟩)
    | some endAddr, some c =>
      if desc.physicalStart < c.start then some (some ⟨desc.physicalStart, endAddr, i⟩)
      else some (some c)

/-- The loop of `select_page_table_pool`. -/
def choosePool (poolPages : UInt64) :
    List EfiMemoryDescriptor → Nat → Option PoolChoice → Option (Option PoolChoice)
  | [], _, selected => some selected
  | desc :: descs, i, selected =>
    (considerDesc poolPages desc i selected).bind (choosePool poolPages descs (i + 1))

/-- What is left of a descriptor whose end became the pool. -/
def shrinkDesc (poolPages : UInt64) (selected : EfiMemoryDescriptor) : EfiMemoryDescriptor :=
  { selected with numberOfPages := selected.numberOfPages - poolPages }

/-- `pool_desc`. -/
def poolDesc (poolPages poolStart : UInt64) (selected : EfiMemoryDescriptor) :
    EfiMemoryDescriptor :=
  { selected with type := efiLoaderData, physicalStart := poolStart, virtualStart := 0,
                  numberOfPages := poolPages }

/-- `pool_start`. -/
def PoolChoice.poolStart (c : PoolChoice) (poolPages : UInt64) : UInt64 :=
  c.endAddr - poolPages * pageSize4k

/-- The fields of `paging_info_t` that describe the pool. -/
def PagingInfo.setPool (info : PagingInfo) (c : PoolChoice) (poolPages : UInt64) : PagingInfo :=
  { info with poolEnd := c.endAddr, poolStart := c.poolStart poolPages,
              poolNext := c.poolStart poolPages, reservedPages := poolPages }

/-- `select_page_table_pool` after its loop chose a descriptor. -/
def carvePool (map : EfiMemoryMap) (poolPages : UInt64) (info : PagingInfo) (c : PoolChoice) :
    Bool × EfiMemoryMap × PagingInfo :=
  let info := info.setPool c poolPages
  let selected := map.memoryDescAt c.index
  if selected.numberOfPages = poolPages then
    (true, map.setDescAt c.index { selected with type := efiLoaderData }, info)
  else
    let map := map.setDescAt c.index (shrinkDesc poolPages selected)
    match map.appendMemoryDescriptor (poolDesc poolPages (c.poolStart poolPages) selected) with
    | none => (false, map, { info with error := .mapFull })
    | some map => (true, map, info)

/-- `select_page_table_pool`. -/
def selectPageTablePool (map : EfiMemoryMap) (poolPages : UInt64) (info : PagingInfo) :
    Bool × EfiMemoryMap × PagingInfo :=
  match choosePool poolPages map.descriptors 0 none with
  | none => (false, map, { info with error := .range })
  | some none => (false, map, { info with error := .noPool })
  | some (some c) => carvePool map poolPages info c

/-! ## The choice -/

/-- A descriptor that the pool could come from. -/
def EfiMemoryDescriptor.Usable (poolPages : UInt64) (d : EfiMemoryDescriptor) : Prop :=
  d.type = efiConventionalMemory ∧ poolPages ≤ d.numberOfPages

/-- What one round leaves selected: nothing only if the descriptor is no use either, and otherwise
something that starts no later than the descriptor and the old selection. -/
theorem considerDesc_spec {poolPages : UInt64} {d : EfiMemoryDescriptor} {i : Nat}
    {selected r : Option PoolChoice} (h : considerDesc poolPages d i selected = some r) :
    (r = none → selected = none ∧ ¬ d.Usable poolPages) ∧
    ∀ c, r = some c → (d.Usable poolPages → c.start ≤ d.physicalStart) ∧
      (∀ c', selected = some c' → c.start ≤ c'.start) ∧
      (selected = some c ∨ c.index = i ∧ d.Usable poolPages ∧ d.physicalStart = c.start ∧
        descriptorEndChecked d = some c.endAddr) := by
  -- the four ways through the body: passed over, an end that overflows, the first one, a better one
  unfold considerDesc at h
  split at h
  · rename_i hskip
    have hnot : ¬ d.Usable poolPages := by
      rintro ⟨ht, hp⟩
      exact hskip.elim (fun hne => hne ht) (UInt64.not_lt.2 hp)
    obtain rfl := Option.some.inj h
    refine ⟨fun hr => ⟨hr, hnot⟩, fun c hc => ⟨fun hu => absurd hu hnot, fun c' hc' => ?_, Or.inl hc⟩⟩
    obtain rfl := Option.some.inj (hc.symm.trans hc')
    exact UInt64.le_refl _
  · rename_i huse
    simp only [not_or, not_not, UInt64.not_lt] at huse
    have huse : d.Usable poolPages := huse
    split at h
    · cases h
    · rename_i e he
      obtain rfl := Option.some.inj h
      refine ⟨nofun, fun c hc => ?_⟩
      obtain rfl := Option.some.inj hc
      exact ⟨fun _ => UInt64.le_refl _, nofun, Or.inr ⟨rfl, huse, rfl, he⟩⟩
    · rename_i e old he
      split at h
      · rename_i hlt
        obtain rfl := Option.some.inj h
        refine ⟨nofun, fun c hc => ?_⟩
        obtain rfl := Option.some.inj hc
        refine ⟨fun _ => UInt64.le_refl _, fun c' hc' => ?_, Or.inr ⟨rfl, huse, rfl, he⟩⟩
        obtain rfl := Option.some.inj hc'
        exact UInt64.le_of_lt hlt
      · rename_i hge
        obtain rfl := Option.some.inj h
        refine ⟨nofun, fun c hc => ?_⟩
        obtain rfl := Option.some.inj hc
        refine ⟨fun _ => UInt64.not_lt.1 hge, fun c' hc' => ?_, Or.inl rfl⟩
        obtain rfl := Option.some.inj hc'
        exact UInt64.le_refl _

/-- What the loop leaves selected: nothing only if no descriptor is of use, and otherwise the old
selection or a usable descriptor, and nothing usable starts before it. -/
theorem choosePool_spec {poolPages : UInt64} {descs : List EfiMemoryDescriptor} :
    ∀ {base : Nat} {selected r : Option PoolChoice},
    choosePool poolPages descs base selected = some r →
    (r = none → selected = none ∧ ∀ d ∈ descs, ¬ d.Usable poolPages) ∧
    ∀ c, r = some c →
      (∀ d ∈ descs, d.Usable poolPages → c.start ≤ d.physicalStart) ∧
      (∀ c', selected = some c' → c.start ≤ c'.start) ∧
      (selected = some c ∨ ∃ k d, c.index = base + k ∧ descs[k]? = some d ∧
        d.Usable poolPages ∧ d.physicalStart = c.start ∧
        descriptorEndChecked d = some c.endAddr) := by
  induction descs with
  | nil =>
    intro base selected r h
    obtain rfl := Option.some.inj h
    refine ⟨fun hr => ⟨hr, by simp⟩, fun c hc => ⟨by simp, fun c' hc' => ?_, Or.inl hc⟩⟩
    obtain rfl := Option.some.inj (hc.symm.trans hc')
    exact UInt64.le_refl _
  | cons d descs ih =>
    intro base selected r h
    obtain ⟨mid, hmid, hrest⟩ := Option.bind_eq_some_iff.1 h
    -- `mid` is what is selected after the first descriptor
    obtain ⟨hnone₁, hsome₁⟩ := considerDesc_spec hmid
    obtain ⟨hnone₂, hsome₂⟩ := ih hrest
    refine ⟨fun hr => ?_, fun c hc => ?_⟩
    · obtain ⟨hm, hds⟩ := hnone₂ hr
      obtain ⟨hs, hd⟩ := hnone₁ hm
      exact ⟨hs, by simpa [hd] using hds⟩
    · obtain ⟨hlow, hle, hat⟩ := hsome₂ c hc
      have hhead : (d.Usable poolPages → c.start ≤ d.physicalStart) ∧
          ∀ c', selected = some c' → c.start ≤ c'.start := by
        cases mid with
        | none =>
          obtain ⟨hs, hd⟩ := hnone₁ rfl
          exact ⟨fun hu => absurd hu hd, fun c' hc' => by rw [hs] at hc'; cases hc'⟩
        | some m =>
          obtain ⟨hdm, hsm, -⟩ := hsome₁ m rfl
          exact ⟨fun hu => UInt64.le_trans (hle m rfl) (hdm hu),
            fun c' hc' => UInt64.le_trans (hle m rfl) (hsm c' hc')⟩
      refine ⟨fun d' hd' hu => ?_, hhead.2, ?_⟩
      · rcases List.mem_cons.1 hd' with rfl | hd'
        · exact hhead.1 hu
        · exact hlow d' hd' hu
      · rcases hat with hold | ⟨k, d', hk, hd', hprops⟩
        · obtain ⟨-, -, hsel | ⟨hi, hprops⟩⟩ := hsome₁ c hold
          · exact Or.inl hsel
          · exact Or.inr ⟨0, d, by omega, rfl, hprops⟩
        · exact Or.inr ⟨k + 1, d', by omega, by simpa using hd', hprops⟩

/-- The descriptor the loop chose. -/
structure PoolChoice.Of (map : EfiMemoryMap) (poolPages : UInt64) (c : PoolChoice) : Prop where
  index : c.index < map.descriptorCount.toNat
  usable : (map.memoryDescAt c.index).Usable poolPages
  endAddr : c.endAddr.toNat = (map.memoryDescAt c.index).endNat
  lowest : ∀ d ∈ map.descriptors, d.Usable poolPages →
    (map.memoryDescAt c.index).physicalStart ≤ d.physicalStart

theorem endNat_of_checked {d : EfiMemoryDescriptor} {e : UInt64}
    (h : descriptorEndChecked d = some e) : d.endNat < 2 ^ 64 ∧ e.toNat = d.endNat := by
  rw [descriptorEndChecked_eq] at h
  split at h
  · rename_i hlt
    obtain rfl := Option.some.inj h
    exact ⟨hlt, by rw [UInt64.toNat_ofNat', Nat.mod_eq_of_lt hlt]⟩
  · cases h

theorem PoolChoice.of_choosePool {map : EfiMemoryMap} {poolPages : UInt64} {c : PoolChoice}
    (h : choosePool poolPages map.descriptors 0 none = some (some c)) : c.Of map poolPages := by
  obtain ⟨hlow, -, hat⟩ := (choosePool_spec h).2 c rfl
  obtain ⟨k, d, hk, hd, hu, hs, he⟩ : ∃ k d, c.index = 0 + k ∧ map.descriptors[k]? = some d ∧
      d.Usable poolPages ∧ d.physicalStart = c.start ∧ descriptorEndChecked d = some c.endAddr :=
    hat.resolve_left nofun
  rw [Nat.zero_add] at hk
  obtain ⟨hlen, hget⟩ := List.getElem?_eq_some_iff.1 hd
  have hdesc : map.memoryDescAt c.index = d := by
    rw [hk, ← hget]
    simp [EfiMemoryMap.descriptors]
  rw [map.descriptors_length] at hlen
  exact ⟨by omega, hdesc ▸ hu, by rw [hdesc]; exact (endNat_of_checked he).2,
    fun d' hd' hu' => by rw [hdesc, hs]; exact hlow d' hd' hu'⟩

/-! ## What a successful call leaves -/

namespace EfiMemoryMap

/-- The map describes the byte at `a`, with type `t`. -/
def TypeAt (map : EfiMemoryMap) (a : Nat) (t : UInt32) : Prop :=
  ∃ i < map.descriptorCount.toNat, (map.memoryDescAt i).Covers a ∧ (map.memoryDescAt i).type = t

/-- No two descriptors describe the same byte. -/
def Disjoint (map : EfiMemoryMap) : Prop :=
  ∀ i j, i < map.descriptorCount.toNat → j < map.descriptorCount.toNat → i ≠ j →
    ∀ a, ¬ ((map.memoryDescAt i).Covers a ∧ (map.memoryDescAt j).Covers a)

/-- The map `map'` is `map` with the bytes from `lo` to `hi` made into one loader-data descriptor. -/
structure Carved (map map' : EfiMemoryMap) (lo hi : Nat) : Prop where
  nonempty : lo < hi
  described : ∀ a, (∃ t, map'.TypeAt a t) ↔ ∃ t, map.TypeAt a t
  disjoint : map'.Disjoint
  pool : ∃ i < map'.descriptorCount.toNat, (map'.memoryDescAt i).type = efiLoaderData ∧
    ∀ a, (map'.memoryDescAt i).Covers a ↔ lo ≤ a ∧ a < hi
  was : ∀ a t, lo ≤ a → a < hi → (map.TypeAt a t ↔ t = efiConventionalMemory)
  kept : ∀ a t, ¬ (lo ≤ a ∧ a < hi) → (map'.TypeAt a t ↔ map.TypeAt a t)

variable {map map' : EfiMemoryMap} {lo hi i : Nat}

/-- A byte of a descriptor has that descriptor's type only. -/
theorem Disjoint.typeAt_iff (h : map.Disjoint) (hi : i < map.descriptorCount.toNat) {a : Nat}
    (ha : (map.memoryDescAt i).Covers a) {t : UInt32} :
    map.TypeAt a t ↔ t = (map.memoryDescAt i).type := by
  refine ⟨fun ⟨j, hj, hcov, ht⟩ => ?_, fun ht => ⟨i, hi, ha, ht.symm⟩⟩
  by_contra hne
  have hij : i ≠ j := by
    rintro rfl
    exact hne ht.symm
  exact h i j hi hj hij a ⟨ha, hcov⟩

/-- Descriptor `i` was conventional and became the pool. -/
theorem Carved.of_retyped (h : map.Disjoint) (hi' : i < map.descriptorCount.toNat)
    (htype : (map.memoryDescAt i).type = efiConventionalMemory)
    (hcount : map'.descriptorCount.toNat = map.descriptorCount.toNat)
    (hself : map'.memoryDescAt i = { map.memoryDescAt i with type := efiLoaderData })
    (hother : ∀ j, j ≠ i → map'.memoryDescAt j = map.memoryDescAt j)
    (hrange : ∀ a, (map.memoryDescAt i).Covers a ↔ lo ≤ a ∧ a < hi) (hne : lo < hi) :
    Carved map map' lo hi := by
  -- only the type of descriptor `i` changes, so every descriptor covers what it did
  have hcov : ∀ j a, (map'.memoryDescAt j).Covers a ↔ (map.memoryDescAt j).Covers a := by
    intro j a
    by_cases hj : j = i
    · subst hj
      rw [hself]
      exact Iff.rfl
    · rw [hother j hj]
  have hdisj : map'.Disjoint := by
    intro j k hj hk hjk a
    rw [hcov, hcov]
    exact h j k (hcount ▸ hj) (hcount ▸ hk) hjk a
  refine ⟨hne, fun a => ?_, hdisj, ⟨i, hcount ▸ hi', by rw [hself], fun a => (hcov i a).trans (hrange a)⟩,
    fun a t hlo hhi => ?_, fun a t hout => ?_⟩
  · constructor
    · rintro ⟨-, j, hj, hc, -⟩
      exact ⟨_, j, hcount ▸ hj, (hcov j a).1 hc, rfl⟩
    · rintro ⟨-, j, hj, hc, -⟩
      exact ⟨_, j, hcount ▸ hj, (hcov j a).2 hc, rfl⟩
  · rw [h.typeAt_iff hi' ((hrange a).2 ⟨hlo, hhi⟩), htype]
  · have hout' : ¬ (map.memoryDescAt i).Covers a := fun hc => hout ((hrange a).1 hc)
    have hne' : ∀ j, (map.memoryDescAt j).Covers a → j ≠ i := by
      rintro j hc rfl
      exact hout' hc
    constructor
    · rintro ⟨j, hj, hc, ht⟩
      have hc := (hcov j a).1 hc
      exact ⟨j, hcount ▸ hj, hc, by rw [← hother j (hne' j hc)]; exact ht⟩
    · rintro ⟨j, hj, hc, ht⟩
      exact ⟨j, hcount ▸ hj, (hcov j a).2 hc, by rw [hother j (hne' j hc)]; exact ht⟩

/-- Descriptor `i` was conventional and longer; its end became the pool, a new last descriptor. -/
theorem Carved.of_split (h : map.Disjoint) (hi' : i < map.descriptorCount.toNat)
    (htype : (map.memoryDescAt i).type = efiConventionalMemory)
    (hcount : map'.descriptorCount.toNat = map.descriptorCount.toNat + 1)
    (hself : (map'.memoryDescAt i).type = (map.memoryDescAt i).type)
    (hkept : ∀ a, (map'.memoryDescAt i).Covers a ↔ (map.memoryDescAt i).Covers a ∧ a < lo)
    (hpool : (map'.memoryDescAt map.descriptorCount.toNat).type = efiLoaderData)
    (hcut : ∀ a, (map'.memoryDescAt map.descriptorCount.toNat).Covers a ↔
      (map.memoryDescAt i).Covers a ∧ lo ≤ a)
    (hother : ∀ j < map.descriptorCount.toNat, j ≠ i → map'.memoryDescAt j = map.memoryDescAt j)
    (hrange : ∀ a, (map.memoryDescAt i).Covers a ∧ lo ≤ a ↔ lo ≤ a ∧ a < hi) (hne : lo < hi) :
    Carved map map' lo hi := by
  have hrange' : ∀ a, lo ≤ a → a < hi → (map.memoryDescAt i).Covers a := fun a hlo hhi =>
    ((hrange a).2 ⟨hlo, hhi⟩).1
  -- an old descriptor covers less than it did
  have hless : ∀ j < map.descriptorCount.toNat, ∀ a, (map'.memoryDescAt j).Covers a →
      (map.memoryDescAt j).Covers a := by
    intro j hj a hc
    by_cases hji : j = i
    · subst hji
      exact ((hkept a).1 hc).1
    · rwa [hother j hj hji] at hc
  have hdisj : map'.Disjoint := by
    -- the pool against an old descriptor
    have hnew : ∀ j < map.descriptorCount.toNat, ∀ a, (map'.memoryDescAt j).Covers a →
        ¬ (map'.memoryDescAt map.descriptorCount.toNat).Covers a := by
      intro j hj a hc hp
      obtain ⟨hci, hlo⟩ := (hcut a).1 hp
      by_cases hji : j = i
      · subst hji
        have := ((hkept a).1 hc).2
        omega
      · exact h j i hj hi' hji a ⟨hless j hj a hc, hci⟩
    intro j k hj hk hjk a ⟨hcj, hck⟩
    by_cases hj' : j < map.descriptorCount.toNat
    · by_cases hk' : k < map.descriptorCount.toNat
      · exact h j k hj' hk' hjk a ⟨hless j hj' a hcj, hless k hk' a hck⟩
      · obtain rfl : k = map.descriptorCount.toNat := by omega
        exact hnew j hj' a hcj hck
    · obtain rfl : j = map.descriptorCount.toNat := by omega
      exact hnew k (by omega) a hck hcj
  -- outside the pool the old descriptors cover what they did
  have hsame : ∀ a, ¬ (lo ≤ a ∧ a < hi) → ∀ j < map.descriptorCount.toNat,
      ((map'.memoryDescAt j).Covers a ↔ (map.memoryDescAt j).Covers a) ∧
        (map'.memoryDescAt j).type = (map.memoryDescAt j).type := by
    intro a hout j hj
    by_cases hji : j = i
    · subst hji
      refine ⟨(hkept a).trans ⟨fun hc => hc.1, fun hc => ⟨hc, ?_⟩⟩, hself⟩
      by_contra hlo
      exact hout ((hrange a).1 ⟨hc, by omega⟩)
    · rw [hother j hj hji]
      exact ⟨Iff.rfl, rfl⟩
  have hkeep : ∀ a t, ¬ (lo ≤ a ∧ a < hi) → (map'.TypeAt a t ↔ map.TypeAt a t) := by
    intro a t hout
    constructor
    · rintro ⟨j, hj, hc, ht⟩
      have hj' : j < map.descriptorCount.toNat := by
        by_contra hge
        obtain rfl : j = map.descriptorCount.toNat := by omega
        exact hout ((hrange a).1 ((hcut a).1 hc))
      obtain ⟨hiff, hty⟩ := hsame a hout j hj'
      exact ⟨j, hj', hiff.1 hc, hty ▸ ht⟩
    · rintro ⟨j, hj, hc, ht⟩
      obtain ⟨hiff, hty⟩ := hsame a hout j hj
      exact ⟨j, by omega, hiff.2 hc, hty.trans ht⟩
  refine ⟨hne, fun a => ?_, hdisj, ⟨map.descriptorCount.toNat, by omega, hpool,
    fun a => (hcut a).trans (hrange a)⟩, fun a t hlo hhi => ?_, hkeep⟩
  · by_cases hin : lo ≤ a ∧ a < hi
    · have hci := hrange' a hin.1 hin.2
      exact ⟨fun _ => ⟨_, i, hi', hci, rfl⟩,
        fun _ => ⟨_, map.descriptorCount.toNat, by omega, (hcut a).2 ⟨hci, hin.1⟩, rfl⟩⟩
    · exact exists_congr fun t => hkeep a t hin
  · rw [h.typeAt_iff hi' (hrange' a hlo hhi), htype]

end EfiMemoryMap

/-! ## The two outcomes -/

section Carve

variable {map : EfiMemoryMap} {poolPages : UInt64} {info : PagingInfo} {c : PoolChoice}

/-- The pool's start, without wrap-around. -/
theorem PoolChoice.Of.poolStart_toNat (h : c.Of map poolPages) :
    (c.poolStart poolPages).toNat
      = (map.memoryDescAt c.index).endNat - poolPages.toNat * 4096 := by
  have hle := UInt64.le_iff_toNat_le.1 h.usable.2
  have hlt := c.endAddr.toNat_lt
  have hend := h.endAddr
  have hmul : (poolPages * pageSize4k).toNat = poolPages.toNat * 4096 :=
    Num.toNat_mul_of_lt (by
      show poolPages.toNat * 4096 < _
      rw [EfiMemoryDescriptor.endNat] at hend
      omega)
  rw [EfiMemoryDescriptor.endNat] at hend ⊢
  rw [PoolChoice.poolStart, Num.toNat_sub_of_toNat_le (by omega), hmul, hend]

/-- The condition under which a failed call leaves the map changed: the lowest usable descriptor is
longer than the pool, and the buffer is full. -/
def SplitsInFullBuffer (map : EfiMemoryMap) (poolPages : UInt64) : Prop :=
  ¬ map.HasRoom ∧ ∃ d ∈ map.descriptors, d.Usable poolPages ∧ d.numberOfPages ≠ poolPages ∧
    ∀ d' ∈ map.descriptors, d'.Usable poolPages → d.physicalStart ≤ d'.physicalStart

/-- What the map is after the call: carved if it succeeded, and as before if it failed. -/
def PoolSound (map : EfiMemoryMap) : Bool × EfiMemoryMap × PagingInfo → Prop
  | (true, map', info') => map.Carved map' info'.poolStart.toNat info'.poolEnd.toNat
  | (false, map', _) =>
    map'.descriptors = map.descriptors ∧ map'.descriptorCount = map.descriptorCount

/-- Two usable descriptors that start at the same place are one. -/
theorem EfiMemoryMap.Disjoint.index_unique (h : map.Disjoint) (hpool : poolPages ≠ 0) {i j : Nat}
    (hi : i < map.descriptorCount.toNat) (hj : j < map.descriptorCount.toNat)
    (hui : (map.memoryDescAt i).Usable poolPages) (huj : (map.memoryDescAt j).Usable poolPages)
    (hs : (map.memoryDescAt i).physicalStart = (map.memoryDescAt j).physicalStart) : i = j := by
  by_contra hij
  have hpos : 0 < poolPages.toNat := Nat.pos_of_ne_zero fun h0 => hpool (UInt64.toNat_inj.1 h0)
  have hpi := UInt64.le_iff_toNat_le.1 hui.2
  have hpj := UInt64.le_iff_toNat_le.1 huj.2
  refine h i j hi hj hij (map.memoryDescAt i).physicalStart.toNat ⟨⟨le_refl _, ?_⟩, ⟨?_, ?_⟩⟩
  · rw [EfiMemoryDescriptor.endNat]
    omega
  · rw [hs]
  · rw [EfiMemoryDescriptor.endNat, hs]
    omega

/-- The descriptor is exactly the pool. -/
theorem poolSound_of_exact (hd : map.Disjoint) (hf : map.Fits) (hpool : poolPages ≠ 0)
    (hc : c.Of map poolPages) (hexact : (map.memoryDescAt c.index).numberOfPages = poolPages) :
    map.Carved (map.setDescAt c.index { map.memoryDescAt c.index with type := efiLoaderData })
      (c.poolStart poolPages).toNat c.endAddr.toNat := by
  have hpos : 0 < poolPages.toNat := Nat.pos_of_ne_zero fun h0 => hpool (UInt64.toNat_inj.1 h0)
  have hend : (map.memoryDescAt c.index).endNat
      = (map.memoryDescAt c.index).physicalStart.toNat + poolPages.toNat * 4096 := by
    rw [EfiMemoryDescriptor.endNat, hexact]
  refine .of_retyped hd hc.index hc.usable.1 rfl (map.memoryDescAt_setDescAt_self _ _)
    (fun j hj => EfiMemoryMap.memoryDescAt_setDescAt_ne hf hj _) (fun a => ?_) ?_
  · rw [hc.poolStart_toNat, hc.endAddr, EfiMemoryDescriptor.Covers, hend, Nat.add_sub_cancel]
  · rw [hc.poolStart_toNat, hc.endAddr]
    omega

/-- The pool is the end of a longer descriptor, and the buffer has room. -/
theorem poolSound_of_split (hd : map.Disjoint) (hf : map.Fits) (hpool : poolPages ≠ 0)
    (hc : c.Of map poolPages) {map' : EfiMemoryMap}
    (happ : (map.setDescAt c.index (shrinkDesc poolPages (map.memoryDescAt c.index))
      ).appendMemoryDescriptor (poolDesc poolPages (c.poolStart poolPages)
        (map.memoryDescAt c.index)) = some map') :
    map.Carved map' (c.poolStart poolPages).toNat c.endAddr.toNat := by
  have hpos : 0 < poolPages.toNat := Nat.pos_of_ne_zero fun h0 => hpool (UInt64.toNat_inj.1 h0)
  have hle := UInt64.le_iff_toNat_le.1 hc.usable.2
  have hstart := hc.poolStart_toNat
  have hend := hc.endAddr
  have hendNat : (map.memoryDescAt c.index).endNat = (map.memoryDescAt c.index).physicalStart.toNat
      + (map.memoryDescAt c.index).numberOfPages.toNat * 4096 := rfl
  obtain ⟨hcount, hlast, hold⟩ := EfiMemoryMap.appendMemoryDescriptor_eq_some (hf.setDescAt _ _) happ
  have hcount : map'.descriptorCount.toNat = map.descriptorCount.toNat + 1 := hcount
  have hself := (hold c.index hc.index).trans (map.memoryDescAt_setDescAt_self _ _)
  -- the descriptor ends where the pool begins, and the pool where the descriptor ended
  have hshrunk : (map'.memoryDescAt c.index).endNat + poolPages.toNat * 4096
      = (map.memoryDescAt c.index).endNat := by
    rw [hself, EfiMemoryDescriptor.endNat, hendNat]
    simp only [shrinkDesc, Num.toNat_sub_of_toNat_le hle]
    omega
  have hcutEnd : (map'.memoryDescAt map.descriptorCount.toNat).endNat
      = (map.memoryDescAt c.index).endNat := by
    rw [show map'.memoryDescAt map.descriptorCount.toNat = _ from hlast, EfiMemoryDescriptor.endNat]
    simp only [poolDesc, hstart]
    omega
  refine .of_split hd hc.index hc.usable.1 hcount (by rw [hself, shrinkDesc]) (fun a => ?_) ?_ (fun a => ?_)
    (fun j hj hji => ?_) (fun a => ?_) ?_
  · have hs : (map'.memoryDescAt c.index).physicalStart
        = (map.memoryDescAt c.index).physicalStart := by rw [hself, shrinkDesc]
    rw [EfiMemoryDescriptor.Covers, EfiMemoryDescriptor.Covers, hs, hstart]
    omega
  · rw [show map'.memoryDescAt map.descriptorCount.toNat = _ from hlast, poolDesc]
  · have hs : (map'.memoryDescAt map.descriptorCount.toNat).physicalStart.toNat
        = (map.memoryDescAt c.index).endNat - poolPages.toNat * 4096 := by
      rw [show map'.memoryDescAt map.descriptorCount.toNat = _ from hlast]
      exact hstart
    rw [EfiMemoryDescriptor.Covers, EfiMemoryDescriptor.Covers, hs, hcutEnd, hstart]
    omega
  · rw [hold j hj, EfiMemoryMap.memoryDescAt_setDescAt_ne hf hji]
  · rw [EfiMemoryDescriptor.Covers, hstart, hend]
    omega
  · omega

/-- A shrunk descriptor is another one. -/
theorem descriptors_ne_of_shrunk (hpool : poolPages ≠ 0) (hc : c.Of map poolPages) :
    (map.setDescAt c.index (shrinkDesc poolPages (map.memoryDescAt c.index))).descriptors
      ≠ map.descriptors := by
  intro h
  have hdesc : shrinkDesc poolPages (map.memoryDescAt c.index) = map.memoryDescAt c.index := by
    have hget := congrArg (fun l => l[c.index]?) h
    have hcount : ∀ d, (map.setDescAt c.index d).descriptorCount = map.descriptorCount := fun _ => rfl
    simpa only [EfiMemoryMap.descriptors, hcount, List.getElem?_map, List.getElem?_range hc.index,
      Option.map_some, EfiMemoryMap.memoryDescAt_setDescAt_self, Option.some_inj] using hget
  have hle := UInt64.le_iff_toNat_le.1 hc.usable.2
  have hsub := congrArg (fun d => d.numberOfPages.toNat) hdesc
  simp only [shrinkDesc, Num.toNat_sub_of_toNat_le hle] at hsub
  exact hpool (UInt64.toNat_inj.1 (by rw [UInt64.toNat_zero]; omega))

end Carve

/-- With no end out of range the loop always ends with a selection or none. -/
theorem choosePool_ne_none {poolPages : UInt64} {descs : List EfiMemoryDescriptor}
    (h : ∀ d ∈ descs, d.endNat < 2 ^ 64) :
    ∀ (base : Nat) (selected : Option PoolChoice), choosePool poolPages descs base selected ≠ none := by
  induction descs with
  | nil => exact fun _ _ => nofun
  | cons d descs ih =>
    intro base selected hnone
    rw [List.forall_mem_cons] at h
    rcases Option.bind_eq_none_iff.1 hnone with hrest
    have hd : descriptorEndChecked d = some (UInt64.ofNat d.endNat) := by
      rw [descriptorEndChecked_eq, if_pos h.1]
    cases hmid : considerDesc poolPages d base selected with
    | some mid => exact ih h.2 (base + 1) mid (hrest mid hmid)
    | none =>
      unfold considerDesc at hmid
      rw [hd] at hmid
      split at hmid
      · cases hmid
      · cases selected with
        | none => cases hmid
        | some c =>
          simp only at hmid
          split at hmid <;> cases hmid

/-- The three ends of the call after a choice. -/
theorem carvePool_cases (map : EfiMemoryMap) (poolPages : UInt64) (info : PagingInfo)
    (c : PoolChoice) :
    ((map.memoryDescAt c.index).numberOfPages = poolPages ∧
      carvePool map poolPages info c = (true,
        map.setDescAt c.index { map.memoryDescAt c.index with type := efiLoaderData },
        info.setPool c poolPages)) ∨
    ((map.memoryDescAt c.index).numberOfPages ≠ poolPages ∧ map.HasRoom ∧ ∃ map',
      (map.setDescAt c.index (shrinkDesc poolPages (map.memoryDescAt c.index))
        ).appendMemoryDescriptor (poolDesc poolPages (c.poolStart poolPages)
          (map.memoryDescAt c.index)) = some map' ∧
      carvePool map poolPages info c = (true, map', info.setPool c poolPages)) ∨
    ((map.memoryDescAt c.index).numberOfPages ≠ poolPages ∧ ¬ map.HasRoom ∧
      carvePool map poolPages info c = (false,
        map.setDescAt c.index (shrinkDesc poolPages (map.memoryDescAt c.index)),
        { info.setPool c poolPages with error := .mapFull })) := by
  -- the whole descriptor is the pool, or it is shrunk first, and then the append may fail
  by_cases hexact : (map.memoryDescAt c.index).numberOfPages = poolPages
  · refine Or.inl ⟨hexact, ?_⟩
    rw [carvePool, if_pos hexact]
  refine Or.inr ?_
  have hroom : ∀ d, (map.setDescAt c.index (shrinkDesc poolPages (map.memoryDescAt c.index))
      ).appendMemoryDescriptor d = none ↔ ¬ map.HasRoom := fun d =>
    EfiMemoryMap.appendMemoryDescriptor_eq_none_iff
  cases happ : (map.setDescAt c.index (shrinkDesc poolPages (map.memoryDescAt c.index))
      ).appendMemoryDescriptor (poolDesc poolPages (c.poolStart poolPages)
        (map.memoryDescAt c.index)) with
  | none =>
    refine Or.inr ⟨hexact, (hroom _).1 happ, ?_⟩
    rw [carvePool, if_neg hexact]
    simp only [happ]
  | some map' =>
    refine Or.inl ⟨hexact, ?_, map', rfl, ?_⟩
    · by_contra hno
      rw [(hroom _).2 hno] at happ
      cases happ
    · rw [carvePool, if_neg hexact]
      simp only [happ]

/-- The descriptor that the pool is taken from begins on a page boundary. -/
def EfiMemoryMap.PoolAligned (map : EfiMemoryMap) (poolPages : UInt64) : Prop :=
  ∀ c, choosePool poolPages map.descriptors 0 none = some (some c) →
    4096 ∣ (map.memoryDescAt c.index).physicalStart.toNat

theorem EfiMemoryMap.poolAligned_of_aligned {map : EfiMemoryMap}
    (h : ∀ d ∈ map.descriptors, 4096 ∣ d.physicalStart.toNat) (poolPages : UInt64) :
    map.PoolAligned poolPages := by
  intro c hsel
  have hc := PoolChoice.of_choosePool hsel
  exact h _ (EfiMemoryMap.mem_descriptors.2 ⟨c.index, hc.index, rfl⟩)

/-- What `setup_kernel_paging` needs of a successful call, whether or not descriptors overlap: the
pool is whole, and no descriptor reaches further than before. -/
structure PoolSelected (poolPages : UInt64) (limit : Nat) (map' : EfiMemoryMap)
    (info info' : PagingInfo) : Prop where
  info : ∃ c : PoolChoice, info' = info.setPool c poolPages
  aligned : 4096 ∣ info'.poolStart.toNat
  pool : info'.poolStart.toNat + poolPages.toNat * 4096 = info'.poolEnd.toNat
  within : info'.poolEnd.toNat ≤ limit
  descriptors : ∀ d ∈ map'.descriptors, d.endNat ≤ limit

theorem carvePool_selected {map map' : EfiMemoryMap} {poolPages : UInt64} {info info' : PagingInfo}
    {c : PoolChoice} {limit : Nat} (hfits : map.Fits) (hc : c.Of map poolPages)
    (haligned : 4096 ∣ (map.memoryDescAt c.index).physicalStart.toNat)
    (hlimit : ∀ d ∈ map.descriptors, d.endNat ≤ limit)
    (h : carvePool map poolPages info c = (true, map', info')) :
    PoolSelected poolPages limit map' info info' := by
  have hmem := EfiMemoryMap.mem_descriptors.2 ⟨c.index, hc.index, rfl⟩
  have hstart := hc.poolStart_toNat
  have hle := UInt64.le_iff_toNat_le.1 hc.usable.2
  have hend := hlimit _ hmem
  have hendNat : (map.memoryDescAt c.index).endNat = (map.memoryDescAt c.index).physicalStart.toNat
      + (map.memoryDescAt c.index).numberOfPages.toNat * 4096 := rfl
  have hinfo : info' = info.setPool c poolPages := by
    rcases carvePool_cases map poolPages info c with ⟨-, hcarve⟩ | ⟨-, -, m, -, hcarve⟩ |
      ⟨-, -, hcarve⟩ <;> rw [hcarve] at h
    · exact (Prod.mk.inj (Prod.mk.inj h).2).2.symm
    · exact (Prod.mk.inj (Prod.mk.inj h).2).2.symm
    · cases (Prod.mk.inj h).1
  -- every descriptor of the new map ends where one of the old map did, or before
  have hdescs : ∀ i < map'.descriptorCount.toNat, (map'.memoryDescAt i).endNat ≤ limit := by
    intro i hi
    have hold : ∀ j < map.descriptorCount.toNat, (map.memoryDescAt j).endNat ≤ limit := fun j hj =>
      hlimit _ (EfiMemoryMap.mem_descriptors.2 ⟨j, hj, rfl⟩)
    rcases carvePool_cases map poolPages info c with ⟨-, hcarve⟩ | ⟨-, -, m, happ, hcarve⟩ |
      ⟨-, -, hcarve⟩ <;> rw [hcarve] at h
    · obtain rfl := (Prod.mk.inj (Prod.mk.inj h).2).1
      by_cases hic : i = c.index
      · subst hic
        rw [EfiMemoryMap.memoryDescAt_setDescAt_self]
        exact hend
      · rw [EfiMemoryMap.memoryDescAt_setDescAt_ne hfits hic]
        exact hold i hi
    · obtain rfl := (Prod.mk.inj (Prod.mk.inj h).2).1
      obtain ⟨hcount, hlast, hkept⟩ :=
        EfiMemoryMap.appendMemoryDescriptor_eq_some (hfits.setDescAt _ _) happ
      have hcount : m.descriptorCount.toNat = map.descriptorCount.toNat + 1 := hcount
      have hlast : m.memoryDescAt map.descriptorCount.toNat = poolDesc poolPages
        (c.poolStart poolPages) (map.memoryDescAt c.index) := hlast
      by_cases hil : i < map.descriptorCount.toNat
      · rw [hkept i hil]
        by_cases hic : i = c.index
        · subst hic
          rw [EfiMemoryMap.memoryDescAt_setDescAt_self, EfiMemoryDescriptor.endNat]
          simp only [shrinkDesc, Num.toNat_sub_of_toNat_le hle]
          omega
        · rw [EfiMemoryMap.memoryDescAt_setDescAt_ne hfits hic]
          exact hold i hil
      · obtain rfl : i = map.descriptorCount.toNat := by omega
        rw [hlast, EfiMemoryDescriptor.endNat]
        simp only [poolDesc, hstart]
        omega
    · cases (Prod.mk.inj h).1
  have hpoolStart : info'.poolStart = c.poolStart poolPages := by rw [hinfo]; rfl
  have hpoolEnd : info'.poolEnd = c.endAddr := by rw [hinfo]; rfl
  refine ⟨⟨c, hinfo⟩, ?_, ?_, ?_, fun d hd => ?_⟩
  · rw [hpoolStart, hstart, hendNat]
    omega
  · rw [hpoolStart, hpoolEnd, hstart, hc.endAddr]
    omega
  · rw [hpoolEnd, hc.endAddr]
    exact hend
  · obtain ⟨i, hi, rfl⟩ := EfiMemoryMap.mem_descriptors.1 hd
    exact hdescs i hi

/-- A failed call sets an error of its own, and the pool's fields are still consistent. -/
theorem selectPageTablePool_failed {map map' : EfiMemoryMap} {poolPages : UInt64}
    {info info' : PagingInfo} (h : selectPageTablePool map poolPages info = (false, map', info')) :
    (info'.error = .range ∨ info'.error = .noPool ∨ info'.error = .mapFull) ∧
      info'.allocatedPages = info.allocatedPages ∧ info'.maxIdentityEnd = info.maxIdentityEnd ∧
      (info'.poolNext = info.poolNext ∧ info'.poolStart = info.poolStart ∧
          info'.poolEnd = info.poolEnd ∨
        info'.poolNext = info'.poolStart ∧ info'.poolStart ≤ info'.poolEnd) := by
  unfold selectPageTablePool at h
  split at h
  · obtain rfl := (Prod.mk.inj (Prod.mk.inj h).2).2
    exact ⟨Or.inl rfl, rfl, rfl, Or.inl ⟨rfl, rfl, rfl⟩⟩
  · obtain rfl := (Prod.mk.inj (Prod.mk.inj h).2).2
    exact ⟨Or.inr (Or.inl rfl), rfl, rfl, Or.inl ⟨rfl, rfl, rfl⟩⟩
  · rename_i c hsel
    have hc := PoolChoice.of_choosePool hsel
    rcases carvePool_cases map poolPages info c with ⟨-, hcarve⟩ | ⟨-, -, m, -, hcarve⟩ |
      ⟨-, -, hcarve⟩ <;> rw [hcarve] at h
    · cases (Prod.mk.inj h).1
    · cases (Prod.mk.inj h).1
    · obtain rfl := (Prod.mk.inj (Prod.mk.inj h).2).2
      refine ⟨Or.inr (Or.inr rfl), rfl, rfl, Or.inr ⟨rfl, ?_⟩⟩
      show c.poolStart poolPages ≤ c.endAddr
      rw [UInt64.le_iff_toNat_le, hc.poolStart_toNat, hc.endAddr]
      omega

theorem selectPageTablePool_selected {map map' : EfiMemoryMap} {poolPages : UInt64}
    {info info' : PagingInfo} {limit : Nat} (hfits : map.Fits) (haligned : map.PoolAligned poolPages)
    (hlimit : ∀ d ∈ map.descriptors, d.endNat ≤ limit)
    (h : selectPageTablePool map poolPages info = (true, map', info')) :
    PoolSelected poolPages limit map' info info' := by
  unfold selectPageTablePool at h
  split at h
  · cases (Prod.mk.inj h).1
  · cases (Prod.mk.inj h).1
  · rename_i c hsel
    exact carvePool_selected hfits (PoolChoice.of_choosePool hsel) (haligned c hsel) hlimit h

/-- **The map survives the call unless a split finds the buffer full.** -/
theorem poolSound_iff (map : EfiMemoryMap) (poolPages : UInt64) (info : PagingInfo)
    (hfits : map.Fits) (hends : ∀ d ∈ map.descriptors, d.endNat < 2 ^ 64) (hdisj : map.Disjoint)
    (hpool : poolPages ≠ 0) :
    PoolSound map (selectPageTablePool map poolPages info) ↔ ¬ SplitsInFullBuffer map poolPages := by
  cases hsel : choosePool poolPages map.descriptors 0 none with
  | none => exact absurd hsel (choosePool_ne_none hends 0 none)
  | some r =>
    cases r with
    | none =>
      have hno := ((choosePool_spec hsel).1 rfl).2
      have hcall : selectPageTablePool map poolPages info
          = (false, map, { info with error := .noPool }) := by rw [selectPageTablePool, hsel]
      rw [hcall]
      exact iff_of_true ⟨rfl, rfl⟩ fun ⟨_, d, hd, hu, _⟩ => hno d hd hu
    | some c =>
      have hc := PoolChoice.of_choosePool hsel
      have hcall : selectPageTablePool map poolPages info = carvePool map poolPages info c := by
        rw [selectPageTablePool, hsel]
      -- the lowest usable descriptor is the chosen one
      have hlowest : ∀ d ∈ map.descriptors, d.Usable poolPages →
          (∀ d' ∈ map.descriptors, d'.Usable poolPages → d.physicalStart ≤ d'.physicalStart) →
          d = map.memoryDescAt c.index := by
        intro d hd hu hlow
        obtain ⟨j, hj, rfl⟩ := EfiMemoryMap.mem_descriptors.1 hd
        have hmem := EfiMemoryMap.mem_descriptors.2 ⟨c.index, hc.index, rfl⟩
        rw [hdisj.index_unique hpool hj hc.index hu hc.usable
          (UInt64.le_antisymm (hlow _ hmem hc.usable) (hc.lowest _ hd hu))]
      rcases carvePool_cases map poolPages info c with ⟨hexact, hcarve⟩ |
        ⟨hne, hroom, map', happ, hcarve⟩ | ⟨hne, hroom, hcarve⟩
      · rw [hcall, hcarve]
        refine iff_of_true (poolSound_of_exact hdisj hfits hpool hc hexact) ?_
        rintro ⟨-, d, hd, hu, hne, hlow⟩
        rw [hlowest d hd hu hlow] at hne
        exact hne hexact
      · rw [hcall, hcarve]
        exact iff_of_true (poolSound_of_split hdisj hfits hpool hc happ) fun hs => hs.1 hroom
      · rw [hcall, hcarve]
        refine iff_of_false (fun hs => descriptors_ne_of_shrunk hpool hc hs.1) (not_not.2 ?_)
        exact ⟨hroom, _, EfiMemoryMap.mem_descriptors.2 ⟨c.index, hc.index, rfl⟩, hc.usable, hne,
          hc.lowest⟩

/-- One conventional descriptor of ten pages, in a buffer with room for `room` more. -/
def oneDescMap (room : UInt64) : EfiMemoryMap where
  bytes := EfiMemoryDescriptor.encode
    { type := efiConventionalMemory, physicalStart := 0x100000, numberOfPages := 10 }
  mapSize := 40
  mapCapacity := 40 * (room + 1)
  descriptorSize := 40
  descriptorCount := 1

theorem oneDescMap_disjoint (room : UInt64) : (oneDescMap room).Disjoint := by
  intro i j hi hj hij
  have hcount : (oneDescMap room).descriptorCount.toNat = 1 := rfl
  omega

/-- With room for the pool's descriptor, the map survives. -/
theorem poolSound_oneDescMap :
    PoolSound (oneDescMap 1) (selectPageTablePool (oneDescMap 1) 4 {}) ↔
      ¬ SplitsInFullBuffer (oneDescMap 1) 4 :=
  poolSound_iff (oneDescMap 1) 4 {} ⟨by decide, by decide⟩ (by decide +kernel)
    (oneDescMap_disjoint 1) (by decide)

/-- Without room, the call fails and four pages are in no descriptor any more. -/
theorem not_poolSound_of_fullBuffer :
    (oneDescMap 0).Fits ∧ (∀ d ∈ (oneDescMap 0).descriptors, d.endNat < 2 ^ 64) ∧
      (oneDescMap 0).Disjoint ∧ (4 : UInt64) ≠ 0 ∧
      ¬ PoolSound (oneDescMap 0) (selectPageTablePool (oneDescMap 0) 4 {}) := by
  have hfailed : (selectPageTablePool (oneDescMap 0) 4 {}).1 = false := by decide +kernel
  have hchanged : (selectPageTablePool (oneDescMap 0) 4 {}).2.1.descriptors
      ≠ (oneDescMap 0).descriptors := by decide +kernel
  refine ⟨⟨by decide, by decide⟩, by decide +kernel, oneDescMap_disjoint 0, by decide, ?_⟩
  revert hfailed hchanged
  rcases selectPageTablePool (oneDescMap 0) 4 {} with ⟨ok, map', info'⟩
  rintro rfl hchanged hs
  exact hchanged hs.1

end VibeKernel

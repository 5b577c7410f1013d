import VibeKernel.Screen.Lines

/-!
# The totals above the memory map

`draw_memory_map` adds up the pages of each kind of memory before it draws the table. The sums are those
of the descriptors, and on a screen that is tall enough those of the rows below them.
-/

namespace VibeKernel

/-- The kinds of memory that `draw_memory_map` adds up. -/
inductive MemoryClass
  | conventional
  | loader
  | boot
  | runtime
  | acpi
  | mmio
  | reserved
deriving DecidableEq

/-- The `case` that a type falls into. -/
def memoryClass (type : UInt32) : MemoryClass :=
  if type = 7 then .conventional
  else if type = 1 ∨ type = 2 then .loader
  else if type = 3 ∨ type = 4 then .boot
  else if type = 5 ∨ type = 6 then .runtime
  else if type = 9 ∨ type = 10 then .acpi
  else if type = 11 ∨ type = 12 then .mmio
  else .reserved

def MemoryTotals.pages (t : MemoryTotals) : MemoryClass → UInt64
  | .conventional => t.conventional
  | .loader => t.loader
  | .boot => t.boot
  | .runtime => t.runtime
  | .acpi => t.acpi
  | .mmio => t.mmio
  | .reserved => t.reserved

/-- All kinds together. -/
def MemoryTotals.sum (t : MemoryTotals) : UInt64 :=
  t.conventional + t.loader + t.boot + t.runtime + t.acpi + t.mmio + t.reserved

/-- The pages of one kind. -/
def pagesOf (ds : List EfiMemoryDescriptor) (c : MemoryClass) : Nat :=
  (ds.map fun d => if memoryClass d.type = c then d.numberOfPages.toNat else 0).sum

/-- The descriptor that a row is about. -/
def MapRow.descriptor? : MapRow → Option EfiMemoryDescriptor
  | .hole .. => none
  | .desc _ d _ => some d

/-! ## The loop -/

section Add

variable {t : MemoryTotals} {d : EfiMemoryDescriptor} {ds : List EfiMemoryDescriptor}

theorem pages_add (t : MemoryTotals) (d : EfiMemoryDescriptor) (c : MemoryClass) :
    (t.add d).pages c = t.pages c + if memoryClass d.type = c then d.numberOfPages else 0 := by
  -- one case for each `case` of the `switch`
  by_cases hconventional : d.type = 7
  · simp only [MemoryTotals.add, memoryClass, if_pos hconventional]
    cases c <;> simp [MemoryTotals.pages]
  by_cases hloader : d.type = 1 ∨ d.type = 2
  · simp only [MemoryTotals.add, memoryClass, if_neg hconventional, if_pos hloader]
    cases c <;> simp [MemoryTotals.pages]
  by_cases hboot : d.type = 3 ∨ d.type = 4
  · simp only [MemoryTotals.add, memoryClass, if_neg hconventional, if_neg hloader, if_pos hboot]
    cases c <;> simp [MemoryTotals.pages]
  by_cases hruntime : d.type = 5 ∨ d.type = 6
  · simp only [MemoryTotals.add, memoryClass, if_neg hconventional, if_neg hloader, if_neg hboot,
      if_pos hruntime]
    cases c <;> simp [MemoryTotals.pages]
  by_cases hacpi : d.type = 9 ∨ d.type = 10
  · simp only [MemoryTotals.add, memoryClass, if_neg hconventional, if_neg hloader, if_neg hboot,
      if_neg hruntime, if_pos hacpi]
    cases c <;> simp [MemoryTotals.pages]
  by_cases hmmio : d.type = 11 ∨ d.type = 12
  · simp only [MemoryTotals.add, memoryClass, if_neg hconventional, if_neg hloader, if_neg hboot,
      if_neg hruntime, if_neg hacpi, if_pos hmmio]
    cases c <;> simp [MemoryTotals.pages]
  · simp only [MemoryTotals.add, memoryClass, if_neg hconventional, if_neg hloader, if_neg hboot,
      if_neg hruntime, if_neg hacpi, if_neg hmmio]
    cases c <;> simp [MemoryTotals.pages]

theorem sum_add (t : MemoryTotals) (d : EfiMemoryDescriptor) :
    (t.add d).sum = t.sum + d.numberOfPages := by
  unfold MemoryTotals.add
  split_ifs <;> simp only [MemoryTotals.sum] <;> ac_rfl

theorem total_add (t : MemoryTotals) (d : EfiMemoryDescriptor) :
    (t.add d).total = t.total + d.numberOfPages := by
  unfold MemoryTotals.add
  split_ifs <;> rfl

theorem maxEnd_add (t : MemoryTotals) (d : EfiMemoryDescriptor) :
    (t.add d).maxEnd = if endExclusive d > t.maxEnd then endExclusive d else t.maxEnd := by
  unfold MemoryTotals.add
  split_ifs <;> rfl

theorem pagesOf_cons (d : EfiMemoryDescriptor) (ds : List EfiMemoryDescriptor) (c : MemoryClass) :
    pagesOf (d :: ds) c =
      (if memoryClass d.type = c then d.numberOfPages.toNat else 0) + pagesOf ds c := rfl

theorem pages_foldl (ds : List EfiMemoryDescriptor) (t : MemoryTotals) (c : MemoryClass) :
    (ds.foldl MemoryTotals.add t).pages c = t.pages c + UInt64.ofNat (pagesOf ds c) := by
  induction ds generalizing t with
  | nil => simp [pagesOf]
  | cons d ds ih =>
    rw [List.foldl_cons, ih, pages_add, pagesOf_cons, UInt64.ofNat_add, UInt64.add_assoc]
    split_ifs <;> simp

theorem total_foldl (ds : List EfiMemoryDescriptor) (t : MemoryTotals) (h : t.total = t.sum) :
    (ds.foldl MemoryTotals.add t).total = (ds.foldl MemoryTotals.add t).sum := by
  induction ds generalizing t with
  | nil => exact h
  | cons d ds ih => exact ih (t.add d) (by rw [total_add, sum_add, h])

/-- The largest end, or what it started with. -/
theorem maxEnd_foldl (ds : List EfiMemoryDescriptor) (t : MemoryTotals) :
    t.maxEnd ≤ (ds.foldl MemoryTotals.add t).maxEnd ∧
      (∀ d ∈ ds, endExclusive d ≤ (ds.foldl MemoryTotals.add t).maxEnd) ∧
      ((ds.foldl MemoryTotals.add t).maxEnd = t.maxEnd ∨
        ∃ d ∈ ds, endExclusive d = (ds.foldl MemoryTotals.add t).maxEnd) := by
  induction ds generalizing t with
  | nil => exact ⟨UInt64.le_refl _, nofun, Or.inl rfl⟩
  | cons d ds ih =>
    rw [List.foldl_cons]
    obtain ⟨hstart, hall, hone⟩ := ih (t.add d)
    generalize ds.foldl MemoryTotals.add (t.add d) = r at *
    have hadd := maxEnd_add t d
    by_cases hgt : endExclusive d > t.maxEnd
    · rw [if_pos hgt] at hadd
      rw [hadd] at hstart hone
      refine ⟨UInt64.le_trans (UInt64.le_of_lt hgt) hstart, List.forall_mem_cons.2 ⟨hstart, hall⟩, ?_⟩
      rcases hone with h | ⟨e, he, h⟩
      · exact Or.inr ⟨d, List.mem_cons_self, h.symm⟩
      · exact Or.inr ⟨e, List.mem_cons_of_mem _ he, h⟩
    · rw [if_neg hgt] at hadd
      rw [hadd] at hstart hone
      have hle : endExclusive d ≤ t.maxEnd := UInt64.not_lt.1 hgt
      refine ⟨hstart, List.forall_mem_cons.2 ⟨UInt64.le_trans hle hstart, hall⟩, ?_⟩
      rcases hone with h | ⟨e, he, h⟩
      · exact Or.inl h
      · exact Or.inr ⟨e, List.mem_cons_of_mem _ he, h⟩

end Add

/-! ## The rows -/

section Rows

variable {map : EfiMemoryMap} {order : List Nat} {cursor : UInt64} {c : MemoryClass}

theorem pagesOf_perm {ds es : List EfiMemoryDescriptor} (h : ds.Perm es) (c : MemoryClass) :
    pagesOf ds c = pagesOf es c :=
  (h.map _).sum_eq

theorem descriptors_tableRows : ∀ (order : List Nat) (cursor : UInt64),
    (tableRows map order cursor).filterMap MapRow.descriptor? = order.map map.memoryDescAt
  | [], _ => rfl
  | i :: is, cursor => by
    have hdesc : (descRow map i).descriptor? = some (map.memoryDescAt i) := rfl
    rw [tableRows, List.filterMap_append, List.map_cons, List.filterMap_cons_some hdesc,
      descriptors_tableRows is]
    split <;> rfl

theorem length_tableRows_le : ∀ (order : List Nat) (cursor : UInt64),
    (tableRows map order cursor).length ≤ 2 * order.length
  | [], _ => le_rfl
  | i :: is, cursor => by
    have hrest := length_tableRows_le is (nextCursor cursor (map.memoryDescAt i))
    rw [tableRows, List.length_append, List.length_cons, List.length_cons]
    split <;> simp only [List.length_singleton, List.length_nil] <;> omega

/-- A screen with room for two rows for each descriptor shows them all. -/
theorem descriptors_drawMemoryMap {height y : UInt32} (hcount : map.descriptorCount.toNat ≤ 512)
    (hroom : y.toNat + 40 * map.descriptorCount.toNat ≤ height.toNat) :
    ((drawMemoryMap map height y).filterMap MapRow.descriptor?).Perm map.descriptors := by
  have hall : outputCount map = map.descriptorCount.toNat := if_neg (not_lt.2 hcount)
  have hleft : left map.descriptorCount.toNat (fun _ => false) =
      List.range map.descriptorCount.toNat := List.filter_eq_self.2 fun _ _ => rfl
  obtain ⟨hperm, -⟩ := pickOrder_spec map map.descriptorCount.toNat map.descriptorCount.toNat
    (fun _ => false) (by rw [hleft, List.length_range])
  rw [hleft] at hperm
  have hlen := hperm.length_eq
  rw [List.length_range] at hlen
  have hrows : (tableRows map (pickOrder map map.descriptorCount.toNat map.descriptorCount.toNat
      fun _ => false) 0).length ≤ _ := length_tableRows_le _ _
  have hdrawn : drawMemoryMap map height y = tableRows map (pickOrder map map.descriptorCount.toNat
      map.descriptorCount.toNat fun _ => false) 0 := by
    unfold drawMemoryMap
    rw [hall]
    exact (drawnFrom_drawRows _ _ _ y).2 (by omega)
  rw [hdrawn, descriptors_tableRows]
  exact hperm.map _

end Rows

/-- What the lines above the table are worth. -/
structure TotalsAgree (map : EfiMemoryMap) : Prop where
  /-- Each sum is that of its descriptors, modulo `2 ^ 64`. -/
  pages : ∀ c, (memoryTotals map).pages c = UInt64.ofNat (pagesOf map.descriptors c)
  total : (memoryTotals map).total = (memoryTotals map).sum
  maxEnd : (∀ d ∈ map.descriptors, endExclusive d ≤ (memoryTotals map).maxEnd) ∧
    ((memoryTotals map).maxEnd = 0 ∨
      ∃ d ∈ map.descriptors, endExclusive d = (memoryTotals map).maxEnd)
  /-- On a screen that is tall enough, the rows below add up to the same. -/
  rows : ∀ height y : UInt32, map.descriptorCount.toNat ≤ 512 →
    y.toNat + 40 * map.descriptorCount.toNat ≤ height.toNat → ∀ c, (memoryTotals map).pages c =
      UInt64.ofNat (pagesOf ((drawMemoryMap map height y).filterMap MapRow.descriptor?) c)

/-- **The totals agree with the table.** -/
theorem memoryTotals_agree (map : EfiMemoryMap) : TotalsAgree map := by
  have hpages : ∀ c, (memoryTotals map).pages c = UInt64.ofNat (pagesOf map.descriptors c) := by
    intro c
    have hzero : ({} : MemoryTotals).pages c = 0 := by cases c <;> rfl
    rw [memoryTotals, pages_foldl, hzero, UInt64.zero_add]
  obtain ⟨-, hall, hone⟩ := maxEnd_foldl map.descriptors {}
  refine ⟨hpages, total_foldl map.descriptors {} rfl, ⟨hall, hone⟩, fun height y hcount hroom c => ?_⟩
  rw [pagesOf_perm (descriptors_drawMemoryMap hcount hroom) c]
  exact hpages c

end VibeKernel

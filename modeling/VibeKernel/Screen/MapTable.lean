import VibeKernel.Boot.SetupPaging
import VibeKernel.Num.Gaps
import Mathlib.Data.List.Nodup

/-!
# The table of the memory map

The loop of `draw_memory_map` that picks the descriptors in the order of their starts, and shows a
`HOLE` row where one starts after the cursor. A row is kept as the numbers in it. The loop ends
early when the screen is full.
-/

namespace VibeKernel

open Num

/-! ## The loop -/

/-- A row of the table. The type, the start, the pages and the attributes of a descriptor are shown as
they are. -/
inductive MapRow
  | hole (first last pages : UInt64)
  | desc (index : Nat) (d : EfiMemoryDescriptor) (endInclusive : UInt64)

/-- `draw_map_line`: the next `y`, or nothing if the screen is full. -/
def drawMapLine (height y : UInt32) : Option UInt32 :=
  if y + 20 > height then none else some (y + 20)

/-- A row, and the rest of the table if there was room. -/
def putRow (height y : UInt32) (row : MapRow) (rest : UInt32 → List MapRow) : List MapRow :=
  match drawMapLine height y with
  | none => []
  | some y => row :: rest y

/-- The body of the inner loop: `best_index` and `best_start` after candidate `i`. -/
def considerCandidate (map : EfiMemoryMap) (outputCount : Nat) (emitted : Nat → Bool)
    (best : Nat × UInt64) (i : Nat) : Nat × UInt64 :=
  if emitted i = false ∧
      ((map.memoryDescAt i).physicalStart < best.2 ∨ best.1 = outputCount) then
    (i, (map.memoryDescAt i).physicalStart)
  else best

/-- `best_index` after the inner loop. -/
def bestIndex (map : EfiMemoryMap) (outputCount : Nat) (emitted : Nat → Bool) : Nat :=
  ((List.range outputCount).foldl (considerCandidate map outputCount emitted)
    (outputCount, ~~~0)).1

/-- `end_exclusive`. -/
def endExclusive (d : EfiMemoryDescriptor) : UInt64 := d.physicalStart + (d.numberOfPages <<< 12)

/-- `end_inclusive`. -/
def endInclusive (d : EfiMemoryDescriptor) : UInt64 :=
  if endExclusive d = 0 then 0 else endExclusive d - 1

/-- The `HOLE` row. -/
def holeRow (cursor start : UInt64) : MapRow := .hole cursor (start - 1) ((start - cursor) >>> 12)

def descRow (map : EfiMemoryMap) (i : Nat) : MapRow :=
  .desc i (map.memoryDescAt i) (endInclusive (map.memoryDescAt i))

/-- `cursor` after a descriptor. -/
def nextCursor (cursor : UInt64) (d : EfiMemoryDescriptor) : UInt64 :=
  if endExclusive d > cursor then endExclusive d else cursor

/-- The outer loop, with the rounds that are left. -/
def drawRows (map : EfiMemoryMap) (outputCount : Nat) (height : UInt32) :
    Nat → (Nat → Bool) → UInt64 → UInt32 → List MapRow
  | 0, _, _, _ => []
  | rounds + 1, emitted, cursor, y =>
    let best := bestIndex map outputCount emitted
    if best = outputCount then []
    else
      let desc := map.memoryDescAt best
      let rest y := putRow height y (descRow map best) <|
        drawRows map outputCount height rounds (Function.update emitted best true)
          (nextCursor cursor desc)
      if desc.physicalStart > cursor then
        putRow height y (holeRow cursor desc.physicalStart) rest
      else rest y

/-- `output_count`. -/
def outputCount (map : EfiMemoryMap) : Nat :=
  if map.descriptorCount.toNat > 512 then 512 else map.descriptorCount.toNat

/-- The rows that `draw_memory_map` draws from `y` on. -/
def drawMemoryMap (map : EfiMemoryMap) (height y : UInt32) : List MapRow :=
  drawRows map (outputCount map) height (outputCount map) (fun _ => false) 0 y

/-! ## The whole table -/

/-- The descriptors in the order in which the loop picks them. -/
def pickOrder (map : EfiMemoryMap) (count : Nat) : Nat → (Nat → Bool) → List Nat
  | 0, _ => []
  | rounds + 1, emitted =>
    let best := bestIndex map count emitted
    if best = count then []
    else best :: pickOrder map count rounds (Function.update emitted best true)

/-- The rows for descriptors in a given order. -/
def tableRows (map : EfiMemoryMap) : List Nat → UInt64 → List MapRow
  | [], _ => []
  | i :: is, cursor =>
    (if (map.memoryDescAt i).physicalStart > cursor then
      [holeRow cursor (map.memoryDescAt i).physicalStart] else []) ++
    descRow map i :: tableRows map is (nextCursor cursor (map.memoryDescAt i))

section Prefix

variable {map : EfiMemoryMap} {count : Nat} {height y : UInt32}
  {rest : UInt32 → List MapRow} {whole : List MapRow}

/-- What was drawn, and that nothing is missing if the screen is tall enough. -/
def DrawnFrom (height : UInt32) (rows : UInt32 → List MapRow) (whole : List MapRow) : Prop :=
  ∀ y, rows y <+: whole ∧ (y.toNat + 20 * whole.length ≤ height.toNat → rows y = whole)

theorem DrawnFrom.putRow (h : DrawnFrom height rest whole) (row : MapRow) :
    DrawnFrom height (fun y => putRow height y row rest) (row :: whole) := by
  intro y
  have hlt := height.toNat_lt
  unfold VibeKernel.putRow drawMapLine
  by_cases hfull : y + 20 > height
  · simp only [if_pos hfull]
    refine ⟨List.nil_prefix, fun hroom => absurd hfull (UInt32.not_lt.2 ?_)⟩
    rw [List.length_cons] at hroom
    rw [UInt32.le_iff_toNat_le, UInt32.toNat_add, show (20 : UInt32).toNat = 20 from rfl,
      Nat.mod_eq_of_lt (by omega)]
    omega
  · simp only [if_neg hfull]
    obtain ⟨hcut, hwhole⟩ := h (y + 20)
    refine ⟨List.cons_prefix_cons.2 ⟨rfl, hcut⟩, fun hroom => ?_⟩
    rw [List.length_cons] at hroom
    show row :: rest (y + 20) = row :: whole
    rw [hwhole ?_]
    rw [UInt32.toNat_add, show (20 : UInt32).toNat = 20 from rfl, Nat.mod_eq_of_lt (by omega)]
    omega

/-- The screen only cuts the table off. -/
theorem drawnFrom_drawRows (rounds : Nat) : ∀ (emitted : Nat → Bool) (cursor : UInt64),
    DrawnFrom height (drawRows map count height rounds emitted cursor)
      (tableRows map (pickOrder map count rounds emitted) cursor) := by
  induction rounds with
  | zero => exact fun _ _ _ => ⟨List.prefix_rfl, fun _ => rfl⟩
  | succ rounds ih =>
    intro emitted cursor
    by_cases hbest : bestIndex map count emitted = count
    · intro y
      simp [drawRows, pickOrder, hbest, tableRows]
    · have hrest := (ih (Function.update emitted (bestIndex map count emitted) true)
        (nextCursor cursor (map.memoryDescAt (bestIndex map count emitted)))).putRow
          (descRow map (bestIndex map count emitted))
      by_cases hhole : (map.memoryDescAt (bestIndex map count emitted)).physicalStart > cursor
      · intro y
        have hdrawn := hrest.putRow
          (holeRow cursor (map.memoryDescAt (bestIndex map count emitted)).physicalStart) y
        simpa only [drawRows, pickOrder, hbest, if_false, tableRows, hhole, if_true, List.cons_append,
          List.nil_append] using hdrawn
      · intro y
        have hdrawn := hrest y
        simpa only [drawRows, pickOrder, hbest, if_false, tableRows, hhole, List.nil_append] using hdrawn

end Prefix

/-! ## The order -/

section Order

variable {map : EfiMemoryMap} {count : Nat} {emitted : Nat → Bool}

/-- `best` is the candidate of `is` with the lowest start, or `count` if there is none. -/
def IsBest (map : EfiMemoryMap) (count : Nat) (emitted : Nat → Bool) (is : List Nat)
    (best : Nat × UInt64) : Prop :=
  (best.1 = count ∧ ∀ i ∈ is, emitted i = true) ∨
  (best.1 ∈ is ∧ emitted best.1 = false ∧ best.2 = (map.memoryDescAt best.1).physicalStart ∧
    ∀ i ∈ is, emitted i = false → best.2 ≤ (map.memoryDescAt i).physicalStart)

theorem isBest_foldl (is : List Nat) (his : ∀ i ∈ is, i < count) :
    IsBest map count emitted is
      (is.foldl (considerCandidate map count emitted) (count, ~~~0)) := by
  -- from the right: the last candidate is compared with the best of those before it
  induction is using List.reverseRecOn with
  | nil => exact Or.inl ⟨rfl, nofun⟩
  | append_singleton is i ih =>
    have ih := ih fun j hj => his j (List.mem_append_left _ hj)
    rw [List.foldl_append]
    generalize is.foldl (considerCandidate map count emitted) (count, ~~~0) = best at ih ⊢
    simp only [List.foldl_cons, List.foldl_nil, considerCandidate]
    split
    · -- candidate `i` is better
      rename_i hi
      refine Or.inr ⟨by simp, hi.1, rfl, fun j hj hemitted => ?_⟩
      rcases List.mem_append.1 hj with hj | hj
      · rcases ih with ⟨-, hall⟩ | ⟨hmem, -, -, hlow⟩
        · rw [hall j hj] at hemitted
          cases hemitted
        · have hne : best.1 ≠ count := (his _ (List.mem_append_left _ hmem)).ne
          exact UInt64.le_trans (UInt64.le_of_lt (hi.2.resolve_right hne)) (hlow j hj hemitted)
      · obtain rfl := List.mem_singleton.1 hj
        exact UInt64.le_refl _
    · rename_i hi
      -- candidate `i` is drawn already, or starts no lower
      rcases ih with ⟨hcount, hall⟩ | ⟨hmem, hfree, hstart, hlow⟩
      · refine Or.inl ⟨hcount, fun j hj => ?_⟩
        rcases List.mem_append.1 hj with hj | hj
        · exact hall j hj
        · obtain rfl := List.mem_singleton.1 hj
          by_contra hne
          exact hi ⟨by simpa using hne, Or.inr hcount⟩
      · refine Or.inr ⟨List.mem_append_left _ hmem, hfree, hstart, fun j hj hemitted => ?_⟩
        rcases List.mem_append.1 hj with hj | hj
        · exact hlow j hj hemitted
        · obtain rfl := List.mem_singleton.1 hj
          exact UInt64.not_lt.1 fun hlt => hi ⟨hemitted, Or.inl hlt⟩

/-- The descriptors that are still to come. -/
def left (count : Nat) (emitted : Nat → Bool) : List Nat :=
  (List.range count).filter fun i => !emitted i

theorem mem_left {i : Nat} : i ∈ left count emitted ↔ i < count ∧ emitted i = false := by
  simp [left]

theorem nodup_left : (left count emitted).Nodup := List.nodup_range.filter _

/-- The loop picks one of them, with the lowest start. -/
theorem bestIndex_spec (map : EfiMemoryMap) (h : left count emitted ≠ []) :
    bestIndex map count emitted ∈ left count emitted ∧ ∀ i ∈ left count emitted,
      (map.memoryDescAt (bestIndex map count emitted)).physicalStart ≤
        (map.memoryDescAt i).physicalStart := by
  have hbest : IsBest map count emitted (List.range count) _ :=
    isBest_foldl (List.range count) fun i hi => List.mem_range.1 hi
  rcases hbest with ⟨-, hall⟩ | ⟨hmem, hfree, hstart, hlow⟩
  · obtain ⟨i, hi⟩ := List.exists_mem_of_ne_nil _ h
    obtain ⟨hlt, hfree⟩ := mem_left.1 hi
    rw [hall i (List.mem_range.2 hlt)] at hfree
    cases hfree
  · refine ⟨mem_left.2 ⟨List.mem_range.1 hmem, hfree⟩, fun i hi => ?_⟩
    obtain ⟨hlt, hi⟩ := mem_left.1 hi
    rw [bestIndex, ← hstart]
    exact hlow i (List.mem_range.2 hlt) hi

theorem left_update {i : Nat} : left count (Function.update emitted i true) =
    (left count emitted).erase i := by
  rw [nodup_left.erase_eq_filter, left, left, List.filter_filter]
  refine List.filter_congr fun j _ => ?_
  by_cases hj : j = i
  · subst hj
    simp
  · simp [hj]

/-- The order is a sorted rearrangement of the indices. -/
theorem pickOrder_spec (map : EfiMemoryMap) (count rounds : Nat) : ∀ emitted : Nat → Bool,
    (left count emitted).length = rounds →
      (pickOrder map count rounds emitted).Perm (left count emitted) ∧
      (pickOrder map count rounds emitted).Pairwise fun i j =>
        (map.memoryDescAt i).physicalStart ≤ (map.memoryDescAt j).physicalStart := by
  induction rounds with
  | zero =>
    intro emitted h
    rw [List.length_eq_zero_iff.1 h]
    exact ⟨.refl _, .nil⟩
  | succ rounds ih =>
    intro emitted h
    have hne : left count emitted ≠ [] := by
      rintro hnil
      rw [hnil] at h
      cases h
    obtain ⟨hmem, hlow⟩ := bestIndex_spec map hne
    have hlt : bestIndex map count emitted ≠ count := (mem_left.1 hmem).1.ne
    obtain ⟨hperm, hsorted⟩ := ih (Function.update emitted (bestIndex map count emitted) true) (by
      rw [left_update, List.length_erase_of_mem hmem, h, Nat.add_sub_cancel])
    rw [left_update] at hperm
    rw [pickOrder, if_neg hlt]
    refine ⟨(hperm.cons _).trans (List.perm_cons_erase hmem).symm,
      List.pairwise_cons.2 ⟨fun i hi => hlow i ?_, hsorted⟩⟩
    exact List.mem_of_mem_erase (hperm.mem_iff.1 hi)

end Order

/-! ## The rows -/

/-- The bytes of a `HOLE` row, as a half-open interval. -/
def MapRow.hole? : MapRow → Option (Nat × Nat)
  | .hole first last _ => some (first.toNat, last.toNat + 1)
  | .desc .. => none

/-- The index, the descriptor and the end that a descriptor's row shows. -/
def MapRow.desc? : MapRow → Option (Nat × EfiMemoryDescriptor × Nat)
  | .hole .. => none
  | .desc i d e => some (i, d, e.toNat)

/-- Every descriptor once, in the order of the starts, and a hole wherever no descriptor is. -/
structure CompleteTable (map : EfiMemoryMap) (rows : List MapRow) : Prop where
  descs : ∃ order : List Nat, order.Perm (List.range map.descriptorCount.toNat) ∧
    order.Pairwise (fun i j =>
      (map.memoryDescAt i).physicalStart ≤ (map.memoryDescAt j).physicalStart) ∧
    rows.filterMap MapRow.desc? =
      order.map fun i => (i, map.memoryDescAt i, (map.memoryDescAt i).endNat - 1)
  disjoint : (rows.filterMap MapRow.hole?).Pairwise fun g k => g.2 ≤ k.1
  cover : ∀ a, (∃ g ∈ rows.filterMap MapRow.hole?, g.1 ≤ a ∧ a < g.2) ↔
    (∃ d ∈ map.descriptors, a < d.physicalStart.toNat) ∧ ∀ d ∈ map.descriptors, ¬ d.Covers a
  before : ∀ pre post first last pages, rows = pre ++ .hole first last pages :: post →
    first ≤ last ∧ ∃ i d e post', post = .desc i d e :: post' ∧
      last.toNat + 1 = d.physicalStart.toNat

section Rows

variable {map : EfiMemoryMap} {d : EfiMemoryDescriptor} {order : List Nat} {cursor : UInt64}

theorem endExclusive_toNat (h : d.endNat ≤ 2 ^ 47) : (endExclusive d).toNat = d.endNat := by
  rw [EfiMemoryDescriptor.endNat] at h ⊢
  have hshift : (d.numberOfPages <<< 12).toNat = d.numberOfPages.toNat * 4096 := by
    rw [UInt64.toNat_shiftLeft, show (12 : UInt64).toNat % 64 = 12 from rfl, Nat.shiftLeft_eq,
      Nat.mod_eq_of_lt (by omega)]
  rw [endExclusive, toNat_add_of_lt, hshift]
  rw [hshift]
  omega

theorem endInclusive_toNat (h : d.endNat ≤ 2 ^ 47) : (endInclusive d).toNat = d.endNat - 1 := by
  have hend := endExclusive_toNat h
  unfold endInclusive
  split
  · rename_i h0
    rw [h0, UInt64.toNat_zero] at hend
    rw [UInt64.toNat_zero]
    omega
  · rename_i h0
    rw [← UInt64.toNat_inj, UInt64.toNat_zero] at h0
    rw [toNat_sub_of_toNat_le (by rw [UInt64.toNat_one]; omega), hend, UInt64.toNat_one]

theorem nextCursor_toNat (h : d.endNat ≤ 2 ^ 47) :
    (nextCursor cursor d).toNat = max cursor.toNat d.endNat := by
  have hend := endExclusive_toNat h
  unfold nextCursor
  split
  · rename_i hlt
    rw [gt_iff_lt, UInt64.lt_iff_toNat_lt] at hlt
    omega
  · rename_i hle
    rw [gt_iff_lt, UInt64.lt_iff_toNat_lt] at hle
    omega

theorem hole?_holeRow {start : UInt64} (h : start > cursor) :
    (holeRow cursor start).hole? = some (cursor.toNat, start.toNat) := by
  have hlt := UInt64.lt_iff_toNat_lt.1 h
  have hsub : (start - 1).toNat + 1 = start.toNat := by
    rw [toNat_sub_of_toNat_le (by rw [UInt64.toNat_one]; omega), UInt64.toNat_one]
    omega
  rw [holeRow, MapRow.hole?, hsub]

/-- The holes of the table are the gaps between the descriptors. -/
theorem holes_tableRows (h : ∀ i ∈ order, (map.memoryDescAt i).endNat ≤ 2 ^ 47) :
    ∀ cursor : UInt64, (tableRows map order cursor).filterMap MapRow.hole? =
      gaps (fun i => (map.memoryDescAt i).physicalStart.toNat)
        (fun i => (map.memoryDescAt i).endNat) order cursor.toNat := by
  induction order with
  | nil => exact fun _ => rfl
  | cons i is ih =>
    intro cursor
    obtain ⟨hi, his⟩ := List.forall_mem_cons.1 h
    have hdesc : (descRow map i).hole? = none := rfl
    have hrest := ih his (nextCursor cursor (map.memoryDescAt i))
    rw [nextCursor_toNat hi] at hrest
    rw [tableRows, gaps, List.filterMap_append, List.filterMap_cons_none hdesc, hrest]
    by_cases hgap : (map.memoryDescAt i).physicalStart > cursor
    · rw [if_pos hgap, if_pos (UInt64.lt_iff_toNat_lt.1 hgap),
        List.filterMap_cons_some (hole?_holeRow hgap), List.filterMap_nil]
    · rw [if_neg hgap, if_neg (fun hlt => hgap (UInt64.lt_iff_toNat_lt.2 hlt)), List.filterMap_nil]

theorem descs_tableRows (h : ∀ i ∈ order, (map.memoryDescAt i).endNat ≤ 2 ^ 47) :
    (tableRows map order cursor).filterMap MapRow.desc? =
      order.map fun i => (i, map.memoryDescAt i, (map.memoryDescAt i).endNat - 1) := by
  induction order generalizing cursor with
  | nil => rfl
  | cons i is ih =>
    obtain ⟨hi, his⟩ := List.forall_mem_cons.1 h
    have hdesc : (descRow map i).desc? =
        some (i, map.memoryDescAt i, (map.memoryDescAt i).endNat - 1) := by
      rw [descRow, MapRow.desc?, endInclusive_toNat hi]
    rw [tableRows, List.filterMap_append, List.filterMap_cons_some hdesc, ih his, List.map_cons]
    split
    · rfl
    · rfl

/-- A hole ends where the descriptor of the next row starts. -/
theorem tableRows_before : ∀ {order : List Nat} {cursor : UInt64} {pre post : List MapRow}
    {first last pages : UInt64},
    tableRows map order cursor = pre ++ .hole first last pages :: post →
      first ≤ last ∧ ∃ i d e post', post = .desc i d e :: post' ∧
        last.toNat + 1 = d.physicalStart.toNat := by
  intro order
  induction order with
  | nil => exact fun h => by simp [tableRows] at h
  | cons i is ih =>
    intro cursor pre post first last pages h
    rw [tableRows] at h
    -- past the row of descriptor `i`
    have hafter : ∀ {pre : List MapRow}, descRow map i :: tableRows map is
        (nextCursor cursor (map.memoryDescAt i)) = pre ++ .hole first last pages :: post →
        first ≤ last ∧ ∃ i d e post', post = .desc i d e :: post' ∧
          last.toNat + 1 = d.physicalStart.toNat := by
      intro pre h
      cases pre with
      | nil => cases h
      | cons r pre => exact ih (List.cons.inj h).2
    split at h
    · rename_i hgap
      have hlt := UInt64.lt_iff_toNat_lt.1 hgap
      have hsub : ((map.memoryDescAt i).physicalStart - 1).toNat + 1 =
          (map.memoryDescAt i).physicalStart.toNat := by
        rw [toNat_sub_of_toNat_le (by rw [UInt64.toNat_one]; omega), UInt64.toNat_one]
        omega
      cases pre with
      | nil =>
        obtain ⟨hrow, rfl⟩ := List.cons.inj h
        obtain ⟨rfl, rfl, -⟩ := MapRow.hole.inj hrow
        refine ⟨UInt64.le_iff_toNat_le.2 (by omega), i, map.memoryDescAt i, _, _, rfl, hsub⟩
      | cons r pre => exact hafter (List.cons.inj h).2
    · exact hafter h

/-- The table of a sorted order is complete. -/
theorem completeTable_tableRows (hends : ∀ d ∈ map.descriptors, d.endNat ≤ 2 ^ 47)
    (hperm : order.Perm (List.range map.descriptorCount.toNat))
    (hsorted : order.Pairwise fun i j =>
      (map.memoryDescAt i).physicalStart ≤ (map.memoryDescAt j).physicalStart) :
    CompleteTable map (tableRows map order 0) := by
  have hmem : ∀ {i : Nat}, i ∈ order ↔ i < map.descriptorCount.toNat := fun {i} =>
    hperm.mem_iff.trans List.mem_range
  have hlimit : ∀ i ∈ order, (map.memoryDescAt i).endNat ≤ 2 ^ 47 := fun i hi =>
    hends _ (EfiMemoryMap.mem_descriptors.2 ⟨i, hmem.1 hi, rfl⟩)
  have hholes := holes_tableRows hlimit 0
  rw [UInt64.toNat_zero] at hholes
  refine ⟨⟨order, hperm, hsorted, descs_tableRows hlimit⟩, ?_, fun a => ?_,
    fun _ _ _ _ _ h => tableRows_before h⟩
  · -- the holes of the table are the gaps between the descriptors in their order
    rw [hholes]
    refine pairwise_gaps fun i _ => ?_
    rw [EfiMemoryDescriptor.endNat]
    omega
  · have hsorted' := hsorted.imp fun {i j} hij => UInt64.le_iff_toNat_le.1 hij
    rw [hholes, mem_gaps_iff hsorted' (Nat.zero_le a)]
    refine and_congr ⟨?_, ?_⟩ ⟨fun h d hd => ?_, fun h i hi => ?_⟩
    · rintro ⟨i, hi, hlt⟩
      exact ⟨_, EfiMemoryMap.mem_descriptors.2 ⟨i, hmem.1 hi, rfl⟩, hlt⟩
    · rintro ⟨d, hd, hlt⟩
      obtain ⟨i, hi, rfl⟩ := EfiMemoryMap.mem_descriptors.1 hd
      exact ⟨i, hmem.2 hi, hlt⟩
    · obtain ⟨i, hi, rfl⟩ := EfiMemoryMap.mem_descriptors.1 hd
      exact h i (hmem.2 hi)
    · exact h _ (EfiMemoryMap.mem_descriptors.2 ⟨i, hmem.1 hi, rfl⟩)

end Rows

/-- **The table is complete and in order**, as far as the screen shows it. -/
theorem drawMemoryMap_complete (map : EfiMemoryMap) (hcount : map.descriptorCount.toNat ≤ 512)
    (hends : ∀ d ∈ map.descriptors, d.endNat ≤ 2 ^ 47) :
    ∃ rows, CompleteTable map rows ∧ ∀ height y : UInt32,
      drawMemoryMap map height y <+: rows ∧
        (y.toNat + 20 * rows.length ≤ height.toNat → drawMemoryMap map height y = rows) := by
  have hall : outputCount map = map.descriptorCount.toNat := if_neg (not_lt.2 hcount)
  have hleft : left map.descriptorCount.toNat (fun _ => false) =
      List.range map.descriptorCount.toNat := List.filter_eq_self.2 fun _ _ => rfl
  obtain ⟨hperm, hsorted⟩ := pickOrder_spec map map.descriptorCount.toNat
    map.descriptorCount.toNat (fun _ => false) (by rw [hleft, List.length_range])
  rw [hleft] at hperm
  refine ⟨_, completeTable_tableRows hends hperm hsorted, fun height y => ?_⟩
  unfold drawMemoryMap
  rw [hall]
  exact drawnFrom_drawRows _ _ _ y

theorem drawMemoryMap_complete_snugMap : ∃ rows, CompleteTable snugMap rows ∧
    ∀ height y : UInt32, drawMemoryMap snugMap height y <+: rows ∧
      (y.toNat + 20 * rows.length ≤ height.toNat → drawMemoryMap snugMap height y = rows) :=
  drawMemoryMap_complete snugMap (by decide +kernel) (by decide +kernel)

end VibeKernel

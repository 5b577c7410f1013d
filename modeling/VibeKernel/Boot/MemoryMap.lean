import VibeKernel.Num.LittleEndian
import VibeKernel.Num.Word
import Mathlib.Data.List.Range
import Mathlib.Logic.Function.Basic

/-!
# The UEFI memory map

`efi_memory_map_t`: a buffer of descriptors that stand `descriptor_size` bytes apart, which may be
more than a descriptor needs. The buffer is kept as bytes; `descriptors` is what the loops of
`kernel.c` read from it.

## Arithmetic

Addresses are `UInt64`, as in the source. Each checked operation has one lemma that says what it
means in `Nat`.
-/

namespace VibeKernel

open Num

/-! ## Descriptors -/

def efiLoaderData : UInt32 := 2
def efiConventionalMemory : UInt32 := 7
def efiACPIReclaimMemory : UInt32 := 9
def efiMemoryMappedIO : UInt32 := 11
def efiMemoryMappedIOPortSpace : UInt32 := 12

/-- `EFI_MEMORY_DESCRIPTOR`. -/
structure EfiMemoryDescriptor where
  type : UInt32 := 0
  pad : UInt32 := 0
  physicalStart : UInt64 := 0
  virtualStart : UInt64 := 0
  numberOfPages : UInt64 := 0
  attributes : UInt64 := 0
deriving DecidableEq, Repr

namespace EfiMemoryDescriptor

/-- `sizeof(EFI_MEMORY_DESCRIPTOR)`. -/
def size : Nat := 40

/-- The descriptor in the first 40 bytes of `f`. -/
def decode (f : Nat → UInt8) : EfiMemoryDescriptor where
  type := UInt32.ofNat (le 4 f)
  pad := UInt32.ofNat (le 4 fun k => f (4 + k))
  physicalStart := UInt64.ofNat (le 8 fun k => f (8 + k))
  virtualStart := UInt64.ofNat (le 8 fun k => f (16 + k))
  numberOfPages := UInt64.ofNat (le 8 fun k => f (24 + k))
  attributes := UInt64.ofNat (le 8 fun k => f (32 + k))

/-- Byte `k` of a descriptor, and 0 behind it. -/
def encode (d : EfiMemoryDescriptor) (k : Nat) : UInt8 :=
  if k < 4 then byteOf d.type.toNat k
  else if k < 8 then byteOf d.pad.toNat (k - 4)
  else if k < 16 then byteOf d.physicalStart.toNat (k - 8)
  else if k < 24 then byteOf d.virtualStart.toNat (k - 16)
  else if k < 32 then byteOf d.numberOfPages.toNat (k - 24)
  else if k < 40 then byteOf d.attributes.toNat (k - 32)
  else 0

theorem decode_congr {f g : Nat → UInt8} (h : ∀ k < size, f k = g k) : decode f = decode g := by
  unfold size at h
  have hfield : ∀ n o, o + n ≤ 40 → le n (fun k => f (o + k)) = le n fun k => g (o + k) :=
    fun n o ho => le_congr fun k hk => h _ (by omega)
  have htype : le 4 f = le 4 g := le_congr fun k hk => h k (by omega)
  simp only [decode, htype, hfield 4 4 (by omega), hfield 8 8 (by omega), hfield 8 16 (by omega),
    hfield 8 24 (by omega), hfield 8 32 (by omega)]

/-- What is stored is read back. -/
theorem decode_encode (d : EfiMemoryDescriptor) : decode d.encode = d := by
  have hfield : ∀ (n o x : Nat), x < 256 ^ n → (∀ k < n, d.encode (o + k) = byteOf x k) →
      le n (fun k => d.encode (o + k)) = x := by
    intro n o x hx hk
    rw [le_congr hk, le_byteOf hx]
  have htype : le 4 d.encode = d.type.toNat := by
    rw [le_congr fun k hk => show d.encode k = byteOf d.type.toNat k from if_pos hk]
    exact le_byteOf d.type.toNat_lt
  have hpad := hfield 4 4 _ d.pad.toNat_lt fun k hk => by
    rw [encode, if_neg (by omega), if_pos (by omega), Nat.add_sub_cancel_left]
  have hphys := hfield 8 8 _ d.physicalStart.toNat_lt fun k hk => by
    rw [encode, if_neg (by omega), if_neg (by omega), if_pos (by omega), Nat.add_sub_cancel_left]
  have hvirt := hfield 8 16 _ d.virtualStart.toNat_lt fun k hk => by
    rw [encode, if_neg (by omega), if_neg (by omega), if_neg (by omega), if_pos (by omega),
      Nat.add_sub_cancel_left]
  have hpages := hfield 8 24 _ d.numberOfPages.toNat_lt fun k hk => by
    rw [encode, if_neg (by omega), if_neg (by omega), if_neg (by omega), if_neg (by omega),
      if_pos (by omega), Nat.add_sub_cancel_left]
  have hattr := hfield 8 32 _ d.attributes.toNat_lt fun k hk => by
    rw [encode, if_neg (by omega), if_neg (by omega), if_neg (by omega), if_neg (by omega),
      if_neg (by omega), if_pos (by omega), Nat.add_sub_cancel_left]
  simp only [decode, htype, hpad, hphys, hvirt, hpages, hattr, UInt32.ofNat_toNat,
    UInt64.ofNat_toNat]

end EfiMemoryDescriptor

/-! ## The map -/

/-- `efi_memory_map_t`. -/
structure EfiMemoryMap where
  /-- The bytes at `descriptors`. -/
  bytes : Nat → UInt8
  mapSize : UInt64
  mapCapacity : UInt64
  descriptorSize : UInt64
  descriptorCount : UInt64

namespace EfiMemoryMap

/-- `memory_desc_at`. -/
def memoryDescAt (map : EfiMemoryMap) (index : Nat) : EfiMemoryDescriptor :=
  .decode fun k => map.bytes (index * map.descriptorSize.toNat + k)

/-- A store through the pointer `memory_desc_at` returns. -/
def setDescAt (map : EfiMemoryMap) (index : Nat) (d : EfiMemoryDescriptor) : EfiMemoryMap :=
  let start := index * map.descriptorSize.toNat
  { map with bytes := fun o =>
      if start ≤ o ∧ o < start + EfiMemoryDescriptor.size then d.encode (o - start)
      else map.bytes o }

/-- The descriptors, in the order of the loops. -/
def descriptors (map : EfiMemoryMap) : List EfiMemoryDescriptor :=
  (List.range map.descriptorCount.toNat).map map.memoryDescAt

/-- `append_memory_descriptor`, on a map whose stride is at least a descriptor. -/
def appendMemoryDescriptor (map : EfiMemoryMap) (desc : EfiMemoryDescriptor) :
    Option EfiMemoryMap :=
  let used := map.descriptorCount * map.descriptorSize
  if used + map.descriptorSize > map.mapCapacity then none
  else
    let copySize := min EfiMemoryDescriptor.size map.descriptorSize.toNat
    some { map with
      bytes := fun o =>
        if used.toNat ≤ o ∧ o < used.toNat + map.descriptorSize.toNat then
          if o - used.toNat < copySize then desc.encode (o - used.toNat) else 0
        else map.bytes o
      descriptorCount := map.descriptorCount + 1
      mapSize := map.mapSize + map.descriptorSize }

/-- A buffer that holds the given descriptors and has no room for another. -/
def ofList (descs : List EfiMemoryDescriptor) : EfiMemoryMap where
  bytes o := (descs.getD (o / EfiMemoryDescriptor.size) {}).encode (o % EfiMemoryDescriptor.size)
  mapSize := UInt64.ofNat (EfiMemoryDescriptor.size * descs.length)
  mapCapacity := UInt64.ofNat (EfiMemoryDescriptor.size * descs.length)
  descriptorSize := UInt64.ofNat EfiMemoryDescriptor.size
  descriptorCount := UInt64.ofNat descs.length

theorem descriptors_length (map : EfiMemoryMap) :
    map.descriptors.length = map.descriptorCount.toNat := by
  simp [descriptors]

theorem mem_descriptors {map : EfiMemoryMap} {d : EfiMemoryDescriptor} :
    d ∈ map.descriptors ↔ ∃ i < map.descriptorCount.toNat, map.memoryDescAt i = d := by
  simp [descriptors]

/-- The buffer holds its descriptors, none of which reaches into the next. -/
structure Fits (map : EfiMemoryMap) : Prop where
  stride : EfiMemoryDescriptor.size ≤ map.descriptorSize.toNat
  capacity : map.descriptorCount.toNat * map.descriptorSize.toNat ≤ map.mapCapacity.toNat

theorem Fits.used {map : EfiMemoryMap} (h : map.Fits) :
    (map.descriptorCount * map.descriptorSize).toNat
      = map.descriptorCount.toNat * map.descriptorSize.toNat := by
  have hlt := map.mapCapacity.toNat_lt
  have hcap := h.capacity
  rw [UInt64.toNat_mul, Nat.mod_eq_of_lt (by omega)]

theorem Fits.count_succ {map : EfiMemoryMap} (h : map.Fits) :
    (map.descriptorCount + 1).toNat = map.descriptorCount.toNat + 1 := by
  have hlt := map.mapCapacity.toNat_lt
  have hle : map.descriptorCount.toNat * 40 ≤ map.descriptorCount.toNat * map.descriptorSize.toNat :=
    Nat.mul_le_mul_left _ h.stride
  have hcap := h.capacity
  rw [UInt64.toNat_add, UInt64.toNat_one, Nat.mod_eq_of_lt (by omega)]

/-- Two elements of the buffer do not overlap. -/
theorem Fits.apart {map : EfiMemoryMap} (h : map.Fits) {i j : Nat} (hij : i < j) :
    i * map.descriptorSize.toNat + EfiMemoryDescriptor.size ≤ j * map.descriptorSize.toNat := by
  have hle : (i + 1) * map.descriptorSize.toNat ≤ j * map.descriptorSize.toNat :=
    Nat.mul_le_mul_right _ hij
  have hstride := h.stride
  rw [Nat.add_mul, Nat.one_mul] at hle
  omega

theorem memoryDescAt_setDescAt_self (map : EfiMemoryMap) (i : Nat) (d : EfiMemoryDescriptor) :
    (map.setDescAt i d).memoryDescAt i = d := by
  refine Eq.trans (EfiMemoryDescriptor.decode_congr fun k hk => ?_) d.decode_encode
  have hin : i * map.descriptorSize.toNat ≤ i * map.descriptorSize.toNat + k ∧
      i * map.descriptorSize.toNat + k < i * map.descriptorSize.toNat + EfiMemoryDescriptor.size := by
    omega
  simp [setDescAt, hin]

theorem memoryDescAt_setDescAt_ne {map : EfiMemoryMap} (h : map.Fits) {i j : Nat} (hij : j ≠ i)
    (d : EfiMemoryDescriptor) : (map.setDescAt i d).memoryDescAt j = map.memoryDescAt j := by
  refine EfiMemoryDescriptor.decode_congr fun k hk => if_neg fun hin => ?_
  simp only [setDescAt] at hin
  rcases Nat.lt_or_gt_of_ne hij with hlt | hlt
  · have := h.apart hlt
    omega
  · have := h.apart hlt
    omega

theorem Fits.setDescAt {map : EfiMemoryMap} (h : map.Fits) (i : Nat) (d : EfiMemoryDescriptor) :
    (map.setDescAt i d).Fits := ⟨h.stride, h.capacity⟩

/-- The buffer has room for one more descriptor, as `append_memory_descriptor` computes it. -/
def HasRoom (map : EfiMemoryMap) : Prop :=
  map.descriptorCount * map.descriptorSize + map.descriptorSize ≤ map.mapCapacity

theorem appendMemoryDescriptor_eq_none_iff {map : EfiMemoryMap} {d : EfiMemoryDescriptor} :
    map.appendMemoryDescriptor d = none ↔ ¬ map.HasRoom := by
  simp only [appendMemoryDescriptor, HasRoom, gt_iff_lt]
  split <;> rename_i hroom
  · simpa using hroom
  · simpa using hroom

/-- The new descriptor comes last, and the others stay. -/
theorem appendMemoryDescriptor_eq_some {map map' : EfiMemoryMap} {d : EfiMemoryDescriptor}
    (h : map.Fits) (happ : map.appendMemoryDescriptor d = some map') :
    map'.descriptorCount.toNat = map.descriptorCount.toNat + 1 ∧
      map'.memoryDescAt map.descriptorCount.toNat = d ∧
      ∀ i < map.descriptorCount.toNat, map'.memoryDescAt i = map.memoryDescAt i := by
  simp only [appendMemoryDescriptor] at happ
  split at happ
  · cases happ
  · obtain rfl := Option.some.inj happ
    have hstride := h.stride
    refine ⟨h.count_succ, ?_, fun i hi => ?_⟩
    · refine Eq.trans (EfiMemoryDescriptor.decode_congr fun k hk => ?_) d.decode_encode
      have hin : k < map.descriptorSize.toNat := by omega
      simp [h.used, hin, hk]
    · refine EfiMemoryDescriptor.decode_congr fun k hk => ?_
      have hapart := h.apart hi
      have hout : ¬ map.descriptorCount.toNat * map.descriptorSize.toNat
          ≤ i * map.descriptorSize.toNat + k := by omega
      simp [h.used, hout]

end EfiMemoryMap

/-! ## Checked arithmetic -/

/-- `PAGE_SIZE_4K`. -/
def pageSize4k : UInt64 := 4096

/-- `align_down_4k`. -/
def alignDown4k (value : UInt64) : UInt64 := value &&& ~~~(pageSize4k - 1)

/-- `align_up_4k_checked`. -/
def alignUp4kChecked (value : UInt64) : Option UInt64 :=
  if value = 0 then some 0
  else if value > ~~~0 - (pageSize4k - 1) then none
  else some ((value + pageSize4k - 1) &&& ~~~(pageSize4k - 1))

/-- `div_round_up64`. -/
def divRoundUp64 (value divisor : UInt64) : UInt64 :=
  if value = 0 then 0 else (value - 1) / divisor + 1

/-- `descriptor_end_checked`. -/
def descriptorEndChecked (desc : EfiMemoryDescriptor) : Option UInt64 :=
  if desc.numberOfPages > (~~~0 - desc.physicalStart) / pageSize4k then none
  else some (desc.physicalStart + desc.numberOfPages * pageSize4k)

/-- The end of a descriptor, without overflow. -/
def EfiMemoryDescriptor.endNat (d : EfiMemoryDescriptor) : Nat :=
  d.physicalStart.toNat + d.numberOfPages.toNat * 4096

/-- The descriptor describes the byte at `a`. -/
def EfiMemoryDescriptor.Covers (d : EfiMemoryDescriptor) (a : Nat) : Prop :=
  d.physicalStart.toNat ≤ a ∧ a < d.endNat

theorem descriptorEndChecked_eq (d : EfiMemoryDescriptor) :
    descriptorEndChecked d
      = if d.endNat < 2 ^ 64 then some (UInt64.ofNat d.endNat) else none := by
  have hs := d.physicalStart.toNat_lt
  have hcmp : d.numberOfPages > (~~~0 - d.physicalStart) / pageSize4k ↔ ¬ d.endNat < 2 ^ 64 := by
    rw [gt_iff_lt, UInt64.lt_iff_toNat_lt, UInt64.toNat_div, toNat_not_zero_sub,
      show pageSize4k.toNat = 4096 from rfl, EfiMemoryDescriptor.endNat]
    omega
  unfold descriptorEndChecked
  by_cases hend : d.endNat < 2 ^ 64
  · rw [if_neg (by rw [hcmp]; exact not_not.2 hend), if_pos hend]
    have hlt : d.physicalStart.toNat + d.numberOfPages.toNat * pageSize4k.toNat < 2 ^ 64 := hend
    have hmul : (d.numberOfPages * pageSize4k).toNat
        = d.numberOfPages.toNat * pageSize4k.toNat := toNat_mul_of_lt (by omega)
    have hadd : (d.physicalStart + d.numberOfPages * pageSize4k).toNat = d.endNat := by
      rw [toNat_add_of_lt (by rw [hmul]; exact hlt), hmul]
      rfl
    rw [← hadd, UInt64.ofNat_toNat]
  · rw [if_pos (hcmp.2 hend), if_neg hend]

theorem alignDown4k_toNat (value : UInt64) : (alignDown4k value).toNat = value.toNat / 4096 * 4096 := by
  have hsplit := toNat_and_not_add_and value (pageSize4k - 1)
  have hmask : (value &&& (pageSize4k - 1)).toNat = value.toNat % 2 ^ 12 :=
    toNat_and_of_mask value rfl
  unfold alignDown4k
  omega

theorem alignUp4kChecked_eq (value : UInt64) :
    alignUp4kChecked value = if value.toNat ≤ 2 ^ 64 - 4096 then
      some (UInt64.ofNat ((value.toNat + 4095) / 4096 * 4096)) else none := by
  have hv := value.toNat_lt
  unfold alignUp4kChecked
  by_cases h0 : value = 0
  · subst h0
    rfl
  rw [if_neg h0]
  have hcmp : value > ~~~0 - (pageSize4k - 1) ↔ ¬ value.toNat ≤ 2 ^ 64 - 4096 := by
    rw [gt_iff_lt, UInt64.lt_iff_toNat_lt, toNat_not_zero_sub,
      show (pageSize4k - 1).toNat = 4095 from rfl]
    omega
  by_cases hle : value.toNat ≤ 2 ^ 64 - 4096
  · have hpos : 0 < value.toNat := by
      rw [← UInt64.toNat_inj] at h0
      exact Nat.pos_of_ne_zero h0
    rw [if_neg (by rw [hcmp]; exact not_not.2 hle), if_pos hle, ← alignDown4k, Option.some_inj,
      ← UInt64.toNat_inj, alignDown4k_toNat, UInt64.toNat_ofNat', Nat.mod_eq_of_lt (by omega)]
    have hsum : (value + pageSize4k - 1).toNat = value.toNat + 4095 := by
      have hassoc : value + pageSize4k - 1 = value + (pageSize4k - 1) := by
        rw [UInt64.sub_eq_add_neg, UInt64.add_assoc]
        rfl
      have hpad : (pageSize4k - 1).toNat = 4095 := rfl
      rw [hassoc, toNat_add_of_lt (by omega), hpad]
    rw [hsum]
  · rw [if_pos (hcmp.2 hle), if_neg hle]

theorem divRoundUp64_toNat (value : UInt64) {divisor : UInt64} (h : 0 < divisor.toNat) :
    (divRoundUp64 value divisor).toNat = (value.toNat + divisor.toNat - 1) / divisor.toNat := by
  have hv := value.toNat_lt
  unfold divRoundUp64
  by_cases h0 : value = 0
  · subst h0
    rw [if_pos rfl, UInt64.toNat_zero, Nat.zero_add, Nat.div_eq_of_lt (by omega)]
  rw [if_neg h0]
  have hpos : 0 < value.toNat := by
    rw [← UInt64.toNat_inj] at h0
    exact Nat.pos_of_ne_zero h0
  have hdiv : ((value - 1) / divisor).toNat = (value.toNat - 1) / divisor.toNat := by
    rw [UInt64.toNat_div, toNat_sub_of_toNat_le (by rw [UInt64.toNat_one]; exact hpos), UInt64.toNat_one]
  have hle : (value.toNat - 1) / divisor.toNat ≤ value.toNat - 1 := Nat.div_le_self _ _
  rw [toNat_add_of_lt (by rw [hdiv, UInt64.toNat_one]; omega), hdiv, UInt64.toNat_one,
    show value.toNat + divisor.toNat - 1 = value.toNat - 1 + divisor.toNat by omega,
    Nat.add_div_right _ h]

end VibeKernel

import VibeKernel.Boot.PagePool
import VibeKernel.Conc.Alone

/-!
# Building the page tables

`alloc_page_table_page`, `ensure_next_table`, `map_identity_range_4k` and `setup_kernel_paging`, as
programs over the physical memory that holds the tables, and the walk of the processor over it.

A word of memory is named by its byte address. The tables are the only memory these functions
touch; the memory map and the framebuffer record are arguments.
-/

namespace VibeKernel

open Conc

/-! ## Constants -/

/-- `PAGE_TABLE_ENTRIES`. -/
def pageTableEntries : UInt64 := 512

/-- `LOW_CANONICAL_LIMIT`. -/
def lowCanonicalLimit : UInt64 := 0x0000800000000000

def ptePresent : UInt64 := 0x001
def pteRw : UInt64 := 0x002
def ptePwt : UInt64 := 0x008
def ptePcd : UInt64 := 0x010
def pteAddrMask : UInt64 := 0x000FFFFFFFFFF000

/-! ## Tables -/

/-- `paging_info_t` and the memory. -/
structure PagingState where
  info : PagingInfo
  mem : UInt64 → UInt64

/-- The address of an entry. -/
def entryAddr (table index : UInt64) : UInt64 := table + 8 * index

/-- `zero_page_4k`. -/
def zeroPage4k (phys : UInt64) (mem : UInt64 → UInt64) : UInt64 → UInt64 :=
  (List.range 512).foldl (fun mem i => Function.update mem (entryAddr phys (UInt64.ofNat i)) 0) mem

/-- `alloc_page_table_page`. -/
def allocPageTablePage : Prog PagingState UInt64 :=
  .swap fun s =>
    if s.info.poolNext > s.info.poolEnd - pageSize4k then
      (0, { s with info.error := .poolEmpty })
    else
      (s.info.poolNext,
        { info := { s.info with poolNext := s.info.poolNext + pageSize4k
                                allocatedPages := s.info.allocatedPages + 1 }
          mem := zeroPage4k s.info.poolNext s.mem })

def loadEntry (table index : UInt64) : Prog PagingState UInt64 :=
  .load fun s => s.mem (entryAddr table index)

def storeEntry (table index entry : UInt64) : Prog PagingState Unit :=
  .store fun s => { s with mem := Function.update s.mem (entryAddr table index) entry }

/-- `ensure_next_table`. -/
def ensureNextTable (table index : UInt64) : Prog PagingState (Option UInt64) := do
  let entry ← loadEntry table index
  if entry &&& ptePresent ≠ 0 then pure (some (entry &&& pteAddrMask))
  else do
    let phys ← allocPageTablePage
    if phys = 0 then pure none
    else do
      storeEntry table index (phys ||| ptePresent ||| pteRw)
      pure (some phys)

/-- Index of `addr` in the table of level `level`, with the page tables at level 0. -/
def tableIndex (level : Nat) (addr : UInt64) : UInt64 :=
  (addr >>> UInt64.ofNat (12 + 9 * level)) &&& 0x1ff

/-- The last step of `map_identity_range_4k` for one page. -/
def mapEntry (pt addr flags : UInt64) : Prog PagingState Bool := do
  let entry ← loadEntry pt (tableIndex 0 addr)
  if entry &&& ptePresent ≠ 0 then
    if entry &&& pteAddrMask ≠ addr &&& pteAddrMask then do
      .store fun s => { s with info.error := .tableEntry }
      pure false
    else do
      storeEntry pt (tableIndex 0 addr) (entry ||| flags)
      pure true
  else do
    storeEntry pt (tableIndex 0 addr) ((addr &&& pteAddrMask) ||| flags)
    .store fun s => { s with info.mappedPages := s.info.mappedPages + 1 }
    pure true

/-- The body of the loop of `map_identity_range_4k`. -/
def mapPage (addr flags : UInt64) : Prog PagingState Bool := do
  let pml4 ← .load fun s => s.info.cr3
  let pdpt ← ensureNextTable pml4 (tableIndex 3 addr)
  match pdpt with
  | none => pure false
  | some pdpt => do
    let pd ← ensureNextTable pdpt (tableIndex 2 addr)
    match pd with
    | none => pure false
    | some pd => do
      let pt ← ensureNextTable pd (tableIndex 1 addr)
      match pt with
      | none => pure false
      | some pt => mapEntry pt addr flags

/-- The addresses the loop of `map_identity_range_4k` goes through. -/
def pageAddrs (mapStart mapEnd : UInt64) : List UInt64 :=
  (List.range ((mapEnd.toNat - mapStart.toNat + 4095) / 4096)).map fun k =>
    mapStart + UInt64.ofNat k * pageSize4k

def pagingFails (error : PagingError) : Prog PagingState Bool := do
  .store fun s => { s with info.error := error }
  pure false

/-- `map_identity_range_4k`. -/
def mapIdentityRange4k (start bytes flags : UInt64) : Prog PagingState Bool :=
  if bytes = 0 then pure true
  else if start > ~~~0 - bytes then pagingFails .range
  else
    match alignUp4kChecked (start + bytes) with
    | none => pagingFails .range
    | some mapEnd =>
      if mapEnd > lowCanonicalLimit then pagingFails .range
      else do
        .store fun s => { s with info.mappedRanges := s.info.mappedRanges + 1 }
        .allOf (pageAddrs (alignDown4k start) mapEnd) fun addr => mapPage addr flags

/-! ## `setup_kernel_paging` -/

/-- `framebuffer_t`, as far as paging reads it. -/
structure Framebuffer where
  base : UInt64
  height : UInt32
  stride : UInt32
  size : UInt64

/-- `framebuffer_size_bytes`. -/
def framebufferSizeBytes (fb : Framebuffer) : UInt64 :=
  if fb.size ≠ 0 then fb.size else fb.stride.toUInt64 * fb.height.toUInt64 * 4

/-- `estimate_identity_page_table_pages`. -/
def estimateIdentityPageTablePages (maxEnd : UInt64) : UInt64 :=
  let mappedPages := divRoundUp64 maxEnd pageSize4k
  let ptPages := divRoundUp64 mappedPages pageTableEntries
  let pdPages := divRoundUp64 mappedPages (pageTableEntries * pageTableEntries)
  let pdptPages := divRoundUp64 mappedPages (pageTableEntries * pageTableEntries * pageTableEntries)
  1 + pdptPages + pdPages + ptPages + 16

/-- `page_flags_for_memory_type`. -/
def pageFlagsForMemoryType (type : UInt32) : UInt64 :=
  if type = efiMemoryMappedIO ∨ type = efiMemoryMappedIOPortSpace then
    ptePresent ||| pteRw ||| (ptePwt ||| ptePcd)
  else ptePresent ||| pteRw

/-- The first loop of `setup_kernel_paging`: the highest end of a descriptor. `none` is
`PAGING_ERR_RANGE`. -/
def maxDescEnd : List EfiMemoryDescriptor → UInt64 → Option UInt64
  | [], maxEnd => some maxEnd
  | desc :: descs, maxEnd =>
    (descriptorEndChecked desc).bind fun endAddr =>
      if endAddr > lowCanonicalLimit then none
      else maxDescEnd descs (if endAddr > maxEnd then endAddr else maxEnd)

/-- `fb_end` of `setup_kernel_paging`. `none` is `PAGING_ERR_RANGE`. -/
def framebufferEnd (fb : Framebuffer) : Option UInt64 :=
  if fb.base > ~~~0 - framebufferSizeBytes fb then none
  else
    (alignUp4kChecked (fb.base + framebufferSizeBytes fb)).bind fun fbEnd =>
      if fbEnd > lowCanonicalLimit then none else some fbEnd

/-- `max_end` of `setup_kernel_paging`. -/
def maxIdentityEnd (map : EfiMemoryMap) (fb : Framebuffer) : Option UInt64 :=
  (maxDescEnd map.descriptors 0).bind fun maxEnd =>
    (framebufferEnd fb).map fun fbEnd => if fbEnd > maxEnd then fbEnd else maxEnd

/-- `setup_kernel_paging` after the pool was selected. -/
def mapEverything (map : EfiMemoryMap) (fb : Framebuffer) : Prog PagingState Bool := do
  let cr3 ← allocPageTablePage
  .store fun s => { s with info.cr3 := cr3 }
  if cr3 = 0 then pure false
  else do
    let ok ← .allOf map.descriptors fun desc =>
      mapIdentityRange4k desc.physicalStart (desc.numberOfPages * pageSize4k)
        (pageFlagsForMemoryType desc.type)
    if ok then do
      let ok ← mapIdentityRange4k fb.base (framebufferSizeBytes fb)
        (ptePresent ||| pteRw ||| ptePwt ||| ptePcd)
      if ok then do
        .store fun s => { s with info.loadedCr3 := s.info.cr3 }
        pure true
      else pure false
    else pure false

/-- `setup_kernel_paging`, with the map it leaves. `la57` is bit 12 of CR4. -/
def setupKernelPaging (la57 : Bool) (map : EfiMemoryMap) (fb : Framebuffer) :
    Prog PagingState (Bool × EfiMemoryMap) := do
  .store fun s => { s with info := {} }
  if la57 then do
    let r ← pagingFails .la57
    pure (r, map)
  else
    match maxIdentityEnd map fb with
    | none => do
      let r ← pagingFails .range
      pure (r, map)
    | some maxEnd => do
      .store fun s => { s with info.maxIdentityEnd := maxEnd }
      let selected ← .swap fun s =>
        let r := selectPageTablePool map (estimateIdentityPageTablePages maxEnd) s.info
        ((r.1, r.2.1), { s with info := r.2.2 })
      if selected.1 then do
        let r ← mapEverything selected.2 fb
        pure (r, selected.2)
      else pure selected

/-! ## The walk -/

/-- What a walk finds: the last entry, and whether every level allows writes. -/
structure Translation where
  entry : UInt64
  writable : Bool

/-- One level of the walk. -/
def walkStep (mem : UInt64 → UInt64) (level : Nat) (addr : UInt64) (t : Translation) :
    Option Translation :=
  let entry := mem (entryAddr (t.entry &&& pteAddrMask) (tableIndex level addr))
  if entry &&& ptePresent ≠ 0 then
    some ⟨entry, t.writable && (entry &&& pteRw ≠ 0)⟩
  else none

/-- An address that the processor can translate at all: bits 47 to 63 agree. -/
def Canonical (addr : UInt64) : Prop := addr < lowCanonicalLimit ∨ ~~~lowCanonicalLimit < addr

instance (addr : UInt64) : Decidable (Canonical addr) := inferInstanceAs (Decidable (_ ∨ _))

/-- The processor's 4-level walk for `addr`, from the table at `cr3`. -/
def walk (mem : UInt64 → UInt64) (cr3 addr : UInt64) : Option Translation :=
  if Canonical addr then
    (walkStep mem 3 addr ⟨cr3, true⟩).bind fun t =>
      (walkStep mem 2 addr t).bind fun t =>
        (walkStep mem 1 addr t).bind fun t => walkStep mem 0 addr t
  else none

end VibeKernel

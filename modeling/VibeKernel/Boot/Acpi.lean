import VibeKernel.Boot.MemoryMap
import VibeKernel.Conc.Peek

/-!
# ACPI tables

`parse_acpi` and `parse_madt`, as programs that read physical memory one byte at a time. The
structures of the specification are packed, so a field is the bytes at its offset.
-/

namespace VibeKernel

open Conc

/-- `ACPI_OK` and the `ACPI_ERR_` codes. -/
inductive AcpiError
  | ok
  | noRsdp
  | badRsdp
  | noXsdt
  | badXsdt
  | noMadt
  | badMadt
  | badEntry
  | range
deriving DecidableEq, Repr

/-- `acpi_cpu_t`. -/
structure AcpiCpu where
  acpiUid : UInt32
  apicId : UInt32
  flags : UInt32
  x2apic : Bool
deriving DecidableEq, Repr

/-- `acpi_info_t`. The first `stored_cpu_count` elements of the array are the list `cpus`. -/
structure AcpiInfo where
  rsdp : UInt64 := 0
  xsdt : UInt64 := 0
  madt : UInt64 := 0
  localApicBase : UInt64 := 0
  madtFlags : UInt32 := 0
  bspApicId : UInt32 := 0
  rsdpRevision : UInt32 := 0
  xsdtEntries : UInt32 := 0
  enabledCpuCount : UInt32 := 0
  error : AcpiError := .ok
  cpus : List AcpiCpu := []
deriving DecidableEq

/-- `ACPI_MAX_CPUS`. -/
def acpiMaxCpus : Nat := 32

/-- `ACPI_MAX_RSDP_LENGTH`. -/
def acpiMaxRsdpLength : UInt32 := 4096

/-- `ACPI_MAX_SDT_LENGTH`. -/
def acpiMaxSdtLength : UInt32 := 1024 * 1024

/-- `sizeof(acpi_rsdp_t)`. -/
def acpiRsdpSize : UInt32 := 36

/-- `sizeof(acpi_sdt_header_t)`. -/
def acpiSdtHeaderSize : UInt32 := 36

/-! ## Reading -/

/-- A program that reads bytes of memory. -/
abbrev Reader := Peek UInt64 UInt8

/-- `read_le32`, and the load of a `UINT32` field. -/
def readLe32 (p : UInt64) : Reader UInt32 := do
  let b0 ← .get p
  let b1 ← .get (p + 1)
  let b2 ← .get (p + 2)
  let b3 ← .get (p + 3)
  pure (b0.toUInt32 ||| (b1.toUInt32 <<< 8) ||| (b2.toUInt32 <<< 16) ||| (b3.toUInt32 <<< 24))

/-- `read_le64`, and the load of a `UINT64` field. -/
def readLe64 (p : UInt64) : Reader UInt64 := do
  let lo ← readLe32 p
  let hi ← readLe32 (p + 4)
  pure (lo.toUInt64 ||| (hi.toUInt64 <<< 32))

/-- The loop of `checksum_ok`, with the sum so far. -/
def sumBytes : Nat → UInt64 → UInt8 → Reader UInt8
  | 0, _, sum => pure sum
  | n + 1, p, sum => do
    let b ← .get p
    sumBytes n (p + 1) (sum + b)

/-- `checksum_ok`. -/
def checksumOk (p : UInt64) (length : UInt32) : Reader Bool := do
  let sum ← sumBytes length.toNat p 0
  pure (sum == 0)

/-- `bytes_equal` against the characters of a string. -/
def bytesEqual : UInt64 → List UInt8 → Reader Bool
  | _, [] => pure true
  | p, c :: cs => do
    let b ← .get p
    if b ≠ c then pure false else bytesEqual (p + 1) cs

/-- The bytes of `"RSD PTR "`. -/
def rsdpSignature : List UInt8 := [0x52, 0x53, 0x44, 0x20, 0x50, 0x54, 0x52, 0x20]

/-- The bytes of `"XSDT"`. -/
def xsdtSignature : List UInt8 := [0x58, 0x53, 0x44, 0x54]

/-- The bytes of `"APIC"`. -/
def apicSignature : List UInt8 := [0x41, 0x50, 0x49, 0x43]

/-- `memory_map_contains_range`. -/
def memoryMapContainsRange (map : EfiMemoryMap) (start length : UInt64) : Bool :=
  if length = 0 then true
  else if start > ~~~0 - length then false
  else map.descriptors.any fun desc =>
    match descriptorEndChecked desc with
    | none => false
    | some descEnd => start ≥ desc.physicalStart && start + length ≤ descEnd

/-! ## The MADT -/

/-- `add_acpi_cpu`. -/
def addAcpiCpu (info : AcpiInfo) (cpu : AcpiCpu) : AcpiInfo :=
  if info.cpus.length ≥ acpiMaxCpus then { info with enabledCpuCount := info.enabledCpuCount + 1 }
  else { info with enabledCpuCount := info.enabledCpuCount + 1, cpus := info.cpus ++ [cpu] }

/-- What the loop of `parse_madt` does with an entry whose bounds are right. -/
def useMadtEntry (entry : UInt64) (type length : UInt8) (info : AcpiInfo) : Reader AcpiInfo :=
  if type = 0 ∧ length ≥ 8 then do
    let flags ← readLe32 (entry + 4)
    if flags &&& 1 ≠ 0 then do
      let uid ← .get (entry + 2)
      let apicId ← .get (entry + 3)
      pure (addAcpiCpu info ⟨uid.toUInt32, apicId.toUInt32, flags, false⟩)
    else pure info
  else if type = 5 ∧ length ≥ 12 then do
    let base ← readLe64 (entry + 4)
    pure { info with localApicBase := base }
  else if type = 9 ∧ length ≥ 16 then do
    let flags ← readLe32 (entry + 8)
    if flags &&& 1 ≠ 0 then do
      let uid ← readLe32 (entry + 12)
      let apicId ← readLe32 (entry + 4)
      pure (addAcpiCpu info ⟨uid, apicId, flags, true⟩)
    else pure info
  else pure info

/-- The body of the loop of `parse_madt`: the new offset and info, or `none` for a bad entry. -/
def madtEntry (madt : UInt64) (total offset : UInt32) (info : AcpiInfo) :
    Reader (Option (UInt32 × AcpiInfo)) := do
  let entry := madt + offset.toUInt64
  let type ← .get entry
  let length ← .get (entry + 1)
  if length < 2 ∨ offset + length.toUInt32 > total then pure none
  else do
    let info ← useMadtEntry entry type length info
    pure (some (offset + length.toUInt32, info))

/-- The loop of `parse_madt`. An entry has at least 2 bytes, so a table has fewer entries than
bytes. -/
def madtEntries (madt : UInt64) (total : UInt32) : Nat → UInt32 → AcpiInfo → Reader AcpiInfo
  | 0, _, info => pure info
  | fuel + 1, offset, info =>
    if offset < total then do
      let next ← madtEntry madt total offset info
      match next with
      | none => pure { info with error := .badEntry }
      | some (offset, info) => madtEntries madt total fuel offset info
    else pure info

/-- `parse_madt`. -/
def parseMadt (map : EfiMemoryMap) (info : AcpiInfo) (madt : UInt64) : Reader AcpiInfo := do
  let info := { info with madt := madt }
  let length ← readLe32 (madt + 4)
  if length < acpiSdtHeaderSize + 8 ∨ length > acpiMaxSdtLength then
    pure { info with error := .badMadt }
  else if !memoryMapContainsRange map madt length.toUInt64 then pure { info with error := .range }
  else do
    let ok ← checksumOk madt length
    if !ok then pure { info with error := .badMadt }
    else do
      let base ← readLe32 (madt + 36)
      let flags ← readLe32 (madt + 40)
      madtEntries madt length length.toNat (acpiSdtHeaderSize + 8)
        { info with localApicBase := base.toUInt64, madtFlags := flags }

/-! ## From the RSDP to the MADT -/

/-- The loop of `parse_acpi` over what is left of the XSDT. -/
def scanXsdt (map : EfiMemoryMap) (info : AcpiInfo) : Nat → UInt64 → Reader AcpiInfo
  | 0, _ => pure { info with error := .noMadt }
  | n + 1, entry => do
    let table ← readLe64 entry
    if table = 0 then pure { info with error := .range }
    else if !memoryMapContainsRange map table acpiSdtHeaderSize.toUInt64 then
      pure { info with error := .range }
    else do
      let isMadt ← bytesEqual table apicSignature
      if isMadt then parseMadt map info table else scanXsdt map info n (entry + 8)

/-- `parse_acpi` once the XSDT's address is known. -/
def parseXsdt (map : EfiMemoryMap) (info : AcpiInfo) (xsdt : UInt64) : Reader AcpiInfo :=
  if xsdt = 0 then pure { info with error := .noXsdt }
  else if !memoryMapContainsRange map xsdt acpiSdtHeaderSize.toUInt64 then
    pure { info with error := .range }
  else do
    let info := { info with xsdt := xsdt }
    let named ← bytesEqual xsdt xsdtSignature
    if !named then pure { info with error := .badXsdt }
    else do
      let length ← readLe32 (xsdt + 4)
      if length < acpiSdtHeaderSize ∨ length > acpiMaxSdtLength then
        pure { info with error := .badXsdt }
      else if !memoryMapContainsRange map xsdt length.toUInt64 then
        pure { info with error := .range }
      else do
        let ok ← checksumOk xsdt length
        if !ok then pure { info with error := .badXsdt }
        else
          let count := (length - acpiSdtHeaderSize) / 8
          scanXsdt map { info with xsdtEntries := count } count.toNat (xsdt + 36)

/-- The first test of the RSDP: its signature, and the checksum of its first 20 bytes. -/
def rsdpHeadOk (rsdp : UInt64) : Reader Bool := do
  let named ← bytesEqual rsdp rsdpSignature
  if named then checksumOk rsdp 20 else pure false

/-- `parse_acpi`. `bspApicId` is what `read_bsp_apic_id` returns. -/
def parseAcpi (rsdp : UInt64) (map : EfiMemoryMap) (bspApicId : UInt32) : Reader AcpiInfo :=
  let info : AcpiInfo := { bspApicId := bspApicId }
  if rsdp = 0 then pure { info with error := .noRsdp }
  else
    let info := { info with rsdp := rsdp }
    if !memoryMapContainsRange map rsdp 20 then pure { info with error := .range }
    else do
      let revision ← .get (rsdp + 15)
      let info := { info with rsdpRevision := revision.toUInt32 }
      let ok ← rsdpHeadOk rsdp
      if !ok then pure { info with error := .badRsdp }
      else if revision < 2 then pure { info with error := .noXsdt }
      else if !memoryMapContainsRange map rsdp 24 then pure { info with error := .range }
      else do
        let length ← readLe32 (rsdp + 20)
        if length < acpiRsdpSize ∨ length > acpiMaxRsdpLength then
          pure { info with error := .badRsdp }
        else if !memoryMapContainsRange map rsdp length.toUInt64 then
          pure { info with error := .range }
        else do
          let ok ← checksumOk rsdp length
          if !ok then pure { info with error := .badRsdp }
          else do
            let xsdt ← readLe64 (rsdp + 24)
            parseXsdt map info xsdt

end VibeKernel

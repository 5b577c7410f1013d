import VibeKernel.Boot.MadtGrammar
import VibeKernel.Boot.SetupPaging

/-!
# Where the ACPI parser reads

Every range that `parse_acpi` and `parse_madt` hand to `memory_map_contains_range`, and that is accepted,
widens what the parser may read. With one exception, every byte that is read lies in a range that was
accepted before, and so in a page of the identity map.

## What goes wrong

The loop of `parse_madt` reads the two bytes of an entry's header as soon as the first one is inside
the table. Where the table ends in a fragment of one byte, the second byte is behind the end. If it is
in none of the accepted ranges, the parser reads a byte that it has not checked, and that perhaps
nothing maps.
-/

namespace VibeKernel

open Conc Num

section Accepted

variable {map : EfiMemoryMap}

/-- What `memory_map_contains_range` checks. -/
theorem memoryMapContainsRange_iff {start length : UInt64} (hpos : 0 < length.toNat) :
    memoryMapContainsRange map start length = true ↔ start.toNat + length.toNat < 2 ^ 64 ∧
      ∃ d ∈ map.descriptors, d.endNat < 2 ^ 64 ∧ d.physicalStart.toNat ≤ start.toNat ∧
        start.toNat + length.toNat ≤ d.endNat := by
  have hne : length ≠ 0 := by
    rintro rfl
    exact absurd hpos (by decide)
  have hover : start > ~~~0 - length ↔ ¬ start.toNat + length.toNat < 2 ^ 64 := by
    have hlength := length.toNat_lt
    rw [gt_iff_lt, UInt64.lt_iff_toNat_lt, toNat_not_zero_sub]
    omega
  unfold memoryMapContainsRange
  rw [if_neg hne]
  by_cases hlt : start.toNat + length.toNat < 2 ^ 64
  · rw [if_neg (by rw [hover]; exact not_not.2 hlt), List.any_eq_true]
    have hsum : (start + length).toNat = start.toNat + length.toNat := toNat_add_of_lt hlt
    simp only [hlt, true_and]
    refine exists_congr fun d => and_congr_right fun _ => ?_
    rw [descriptorEndChecked_eq]
    by_cases hend : d.endNat < 2 ^ 64
    · have hend' : (UInt64.ofNat d.endNat).toNat = d.endNat := by
        rw [UInt64.toNat_ofNat', Nat.mod_eq_of_lt hend]
      rw [if_pos hend]
      simp only [Bool.and_eq_true, decide_eq_true_eq, ge_iff_le, UInt64.le_iff_toNat_le, hsum,
        hend', hend, true_and]
    · rw [if_neg hend]
      simp only [hend, false_and, Bool.false_eq_true]
  · rw [if_pos (hover.2 hlt)]
    exact ⟨nofun, fun h => absurd h.1 hlt⟩

end Accepted

/-! ## The ranges that are accepted -/

/-- The start and the length of a range. -/
abbrev AddrRange := UInt64 × UInt64

/-- `memory_map_contains_range` returns 1 for the range. -/
def Accepted (map : EfiMemoryMap) (r : AddrRange) : Prop := memoryMapContainsRange map r.1 r.2 = true

section Ranges

variable (map : EfiMemoryMap) (mem : UInt64 → UInt8)

/-- One call of `memory_map_contains_range`: the parser returns, or goes on with one range more. -/
def widen (start length : UInt64) (rest : List AddrRange) : List AddrRange :=
  if !memoryMapContainsRange map start length then [] else (start, length) :: rest

/-- The ranges for which `memory_map_contains_range` returns 1 in `parse_madt`. -/
def madtRanges (madt : UInt64) : List AddrRange :=
  let length := (readLe32 (madt + 4)).run mem
  if length < acpiSdtHeaderSize + 8 ∨ length > acpiMaxSdtLength then []
  else widen map madt length.toUInt64 []

/-- Those of the loop over the XSDT. -/
def scanRanges : Nat → UInt64 → List AddrRange
  | 0, _ => []
  | n + 1, entry =>
    let table := (readLe64 entry).run mem
    if table = 0 then []
    else widen map table acpiSdtHeaderSize.toUInt64 <|
      if (bytesEqual table apicSignature).run mem then madtRanges map mem table
      else scanRanges n (entry + 8)

/-- Those of `parse_acpi` once the XSDT's address is known. -/
def xsdtRanges (xsdt : UInt64) : List AddrRange :=
  if xsdt = 0 then []
  else widen map xsdt acpiSdtHeaderSize.toUInt64 <|
    if !(bytesEqual xsdt xsdtSignature).run mem then []
    else
      let length := (readLe32 (xsdt + 4)).run mem
      if length < acpiSdtHeaderSize ∨ length > acpiMaxSdtLength then []
      else widen map xsdt length.toUInt64 <|
        if !(checksumOk xsdt length).run mem then []
        else scanRanges map mem ((length - acpiSdtHeaderSize) / 8).toNat (xsdt + 36)

/-- Those of `parse_acpi`. -/
def acpiRanges (rsdp : UInt64) : List AddrRange :=
  if rsdp = 0 then []
  else widen map rsdp 20 <|
    if !(rsdpHeadOk rsdp).run mem then []
    else if mem (rsdp + 15) < 2 then []
    else widen map rsdp 24 <|
      let length := (readLe32 (rsdp + 20)).run mem
      if length < acpiRsdpSize ∨ length > acpiMaxRsdpLength then []
      else widen map rsdp length.toUInt64 <|
        if !(checksumOk rsdp length).run mem then []
        else xsdtRanges map mem ((readLe64 (rsdp + 24)).run mem)

variable {map mem} {start length : UInt64} {rest rs : List AddrRange}

theorem widen_eq (h : memoryMapContainsRange map start length = true) :
    widen map start length rest = (start, length) :: rest := by
  rw [widen, h]
  rfl

/-- Every range of a list was accepted. -/
def AllAccepted (map : EfiMemoryMap) (rs : List AddrRange) : Prop := ∀ r ∈ rs, Accepted map r

theorem AllAccepted.nil : AllAccepted map [] := fun _ hr => absurd hr List.not_mem_nil

theorem AllAccepted.cond {p : Prop} [Decidable p] (h : AllAccepted map rest) (h' : AllAccepted map rs) :
    AllAccepted map (if p then rest else rs) := by
  split
  · exact h
  · exact h'

theorem AllAccepted.widen (h : AllAccepted map rest) :
    AllAccepted map (widen map start length rest) := by
  by_cases hrange : memoryMapContainsRange map start length = true
  · rw [widen_eq hrange]
    exact List.forall_mem_cons.2 ⟨hrange, h⟩
  · rw [VibeKernel.widen, if_pos (by simpa using hrange)]
    exact .nil

theorem accepted_madtRanges (madt : UInt64) : AllAccepted map (madtRanges map mem madt) :=
  .cond .nil (.widen .nil)

theorem accepted_scanRanges (n : Nat) : ∀ entry : UInt64, AllAccepted map (scanRanges map mem n entry) := by
  induction n with
  | zero => exact fun _ => .nil
  | succ n ih =>
    exact fun entry => .cond .nil (.widen (.cond (accepted_madtRanges _) (ih (entry + 8))))

theorem accepted_xsdtRanges (xsdt : UInt64) : AllAccepted map (xsdtRanges map mem xsdt) := by
  refine .cond .nil (.widen (.cond .nil (.cond .nil (.widen (.cond .nil ?_)))))
  exact accepted_scanRanges _ _

/-- The ranges are what their name says. -/
theorem accepted_acpiRanges (rsdp : UInt64) : AllAccepted map (acpiRanges map mem rsdp) := by
  refine .cond .nil (.widen (.cond .nil (.cond .nil (.widen (.cond .nil (.widen (.cond .nil ?_)))))))
  exact accepted_xsdtRanges _

end Ranges

/-- The byte at `a` is in one of the ranges. -/
def Tested (rs : List AddrRange) (a : UInt64) : Prop := ∃ r ∈ rs, Inside r.1 r.2.toNat a

section Tested

variable {rs rs' : List AddrRange} {a start length : UInt64} {n : Nat}

theorem Tested.head (hn : n ≤ length.toNat) (ha : Inside start n a) :
    Tested ((start, length) :: rs) a := by
  obtain ⟨i, hi, rfl⟩ := ha
  exact ⟨(start, length), List.mem_cons_self, i, Nat.lt_of_lt_of_le hi hn, rfl⟩

theorem Tested.cons (r : AddrRange) (h : Tested rs a) : Tested (r :: rs) a := by
  obtain ⟨r', hr', ha⟩ := h
  exact ⟨r', List.mem_cons_of_mem _ hr', ha⟩

end Tested

/-! ## The entries of the MADT -/

/-- Entry by entry, the loop gets from one offset to another. -/
inductive Lands (mem : UInt64 → UInt8) (madt : UInt64) (L : Nat) : Nat → Nat → Prop
  | refl (o : Nat) : Lands mem madt L o o
  | step {o o' : Nat} (hfits : FitsAt mem madt L o)
      (h : Lands mem madt L (o + lengthAt mem (madt + UInt64.ofNat o)) o') : Lands mem madt L o o'

section Entries

variable {mem : UInt64 → UInt8} {madt : UInt64} {total : UInt32}

/-- At the last byte the round reads one byte behind the table. -/
theorem touches_madtEntry_last (hL : total.toNat ≤ 2 ^ 20) {offset : UInt32}
    (ho : offset.toNat + 1 = total.toNat) (info : AcpiInfo) :
    (madtEntry madt total offset info).Touches mem
      (fun a => Inside madt total.toNat a ∨ a = madt + UInt64.ofNat total.toNat) := by
  refine .bind (.get (Or.inl ⟨offset.toNat, by omega, by rw [toUInt64_eq]⟩)) ?_
  refine .bind (.get (Or.inr ?_)) ?_
  · rw [toUInt64_eq, ← ho, ← add_ofNat_add]
    rfl
  · refine .cond (fun _ => .pure _) fun h => ?_
    exact .bind ((touches_entry hL (by omega) h _ info).mono fun a => Or.inl) (.pure _)

/-- **The loop reads the table, and the byte behind it only from its last byte.** -/
theorem touches_madtEntries (hL : total.toNat ≤ 2 ^ 20) : ∀ (fuel : Nat) (offset : UInt32)
    (info : AcpiInfo), (madtEntries madt total fuel offset info).Touches mem fun a =>
      Inside madt total.toNat a ∨
        (a = madt + UInt64.ofNat total.toNat ∧ Lands mem madt total.toNat offset.toNat (total.toNat - 1)) := by
  intro fuel
  induction fuel with
  | zero => exact fun offset info => .pure _
  | succ fuel ih =>
    intro offset info
    refine .cond (fun hlt => ?_) fun _ => .pure _
    have ho := UInt32.lt_iff_toNat_lt.1 hlt
    refine .bind ?_ ?_
    · by_cases hlast : offset.toNat + 1 = total.toNat
      · refine (touches_madtEntry_last hL hlast info).mono fun a ha => ha.imp_right fun ha => ⟨ha, ?_⟩
        rw [show total.toNat - 1 = offset.toNat by omega]
        exact .refl _
      · exact (touches_madtEntry hL (by omega) info).mono fun a => Or.inl
    · rcases run_madtEntry mem madt hL ho info with
        ⟨-, hrun⟩ | ⟨hfits, offset', hoffset', hrun⟩ <;> rw [hrun]
      · exact .pure _
      · refine (ih offset' _).mono fun a ha => ha.imp_right fun ⟨ha, hlands⟩ => ⟨ha, .step hfits ?_⟩
        rwa [← hoffset']

/-- A loop that lands on the last byte does read the byte behind the table. -/
theorem mem_touched_madtEntries (hL : total.toNat ≤ 2 ^ 20) {o o' : Nat}
    (h : Lands mem madt total.toNat o o') : o' + 1 = total.toNat →
    ∀ (fuel : Nat) (offset : UInt32) (info : AcpiInfo), offset.toNat = o →
      total.toNat - o ≤ fuel →
      madt + UInt64.ofNat total.toNat ∈ (madtEntries madt total fuel offset info).touched mem := by
  -- On the entries up to `o'`: at `o'` one byte is left, and the loop reads two.
  induction h with
  | refl o =>
    intro hlast fuel offset info ho hfuel
    obtain ⟨fuel, rfl⟩ : ∃ n, fuel = n + 1 := ⟨fuel - 1, by omega⟩
    have hlt : offset < total := by
      rw [UInt32.lt_iff_toNat_lt]
      omega
    have haddr : madt + UInt64.ofNat total.toNat = madt + offset.toUInt64 + 1 := by
      rw [toUInt64_eq, ho, ← hlast, ← add_ofNat_add]
      rfl
    rw [madtEntries, if_pos hlt, Peek.touched_bind]
    refine List.mem_append_left _ ?_
    simp only [madtEntry, Peek.touched_bind, Peek.touched_get, List.mem_append, List.mem_singleton]
    exact Or.inr (Or.inl haddr)
  | step hfits _ ih =>
    rename_i o o' _
    intro hlast fuel offset info ho hfuel
    obtain ⟨hlo, hhi⟩ := hfits
    obtain ⟨fuel, rfl⟩ : ∃ n, fuel = n + 1 := ⟨fuel - 1, by omega⟩
    have hlt : offset < total := by
      rw [UInt32.lt_iff_toNat_lt]
      omega
    rw [madtEntries, if_pos hlt, Peek.touched_bind, List.mem_append]
    rcases run_madtEntry mem madt hL (by omega : offset.toNat < total.toNat) info with
      ⟨hno, -⟩ | ⟨-, offset', hoffset', hrun⟩
    · rw [ho] at hno
      exact absurd ⟨hlo, hhi⟩ hno
    · rw [hrun]
      rw [ho] at hoffset'
      exact Or.inr (ih hlast fuel offset' _ hoffset' (by omega))

end Entries

/-! ## The way to the MADT -/

/-- The checks of `parse_acpi` on the RSDP. -/
structure RsdpLeads (map : EfiMemoryMap) (mem : UInt64 → UInt8) (rsdp xsdt : UInt64) : Prop where
  ne : rsdp ≠ 0
  range20 : memoryMapContainsRange map rsdp 20 = true
  head : (rsdpHeadOk rsdp).run mem = true
  revision : ¬ mem (rsdp + 15) < 2
  range24 : memoryMapContainsRange map rsdp 24 = true
  length : ¬ ((readLe32 (rsdp + 20)).run mem < acpiRsdpSize ∨
    (readLe32 (rsdp + 20)).run mem > acpiMaxRsdpLength)
  range : memoryMapContainsRange map rsdp ((readLe32 (rsdp + 20)).run mem).toUInt64 = true
  sum : (checksumOk rsdp ((readLe32 (rsdp + 20)).run mem)).run mem = true
  next : (readLe64 (rsdp + 24)).run mem = xsdt

/-- The checks of `parse_acpi` on the XSDT. -/
structure XsdtLeads (map : EfiMemoryMap) (mem : UInt64 → UInt8) (xsdt : UInt64) : Prop where
  ne : xsdt ≠ 0
  header : memoryMapContainsRange map xsdt acpiSdtHeaderSize.toUInt64 = true
  named : (bytesEqual xsdt xsdtSignature).run mem = true
  length : ¬ ((readLe32 (xsdt + 4)).run mem < acpiSdtHeaderSize ∨
    (readLe32 (xsdt + 4)).run mem > acpiMaxSdtLength)
  range : memoryMapContainsRange map xsdt ((readLe32 (xsdt + 4)).run mem).toUInt64 = true
  sum : (checksumOk xsdt ((readLe32 (xsdt + 4)).run mem)).run mem = true

/-- The checks on a table that an entry of the XSDT points to. -/
structure TableOk (map : EfiMemoryMap) (table : UInt64) : Prop where
  ne : table ≠ 0
  header : memoryMapContainsRange map table acpiSdtHeaderSize.toUInt64 = true

/-- The first of `n` entries that names a MADT is reached, and points to `madt`. -/
inductive ScanLeads (map : EfiMemoryMap) (mem : UInt64 → UInt8) (madt : UInt64) :
    Nat → UInt64 → Prop
  | here {n : Nat} {entry : UInt64} (htable : (readLe64 entry).run mem = madt)
      (hok : TableOk map madt) (hmadt : (bytesEqual madt apicSignature).run mem = true) :
      ScanLeads map mem madt (n + 1) entry
  | there {n : Nat} {entry : UInt64} (hok : TableOk map ((readLe64 entry).run mem))
      (hother : ¬ (bytesEqual ((readLe64 entry).run mem) apicSignature).run mem = true)
      (h : ScanLeads map mem madt n (entry + 8)) : ScanLeads map mem madt (n + 1) entry

/-- `parse_acpi` calls `parse_madt` on `madt`. -/
def LeadsToMadt (map : EfiMemoryMap) (mem : UInt64 → UInt8) (rsdp madt : UInt64) : Prop :=
  ∃ xsdt, RsdpLeads map mem rsdp xsdt ∧ XsdtLeads map mem xsdt ∧
    ScanLeads map mem madt (((readLe32 (xsdt + 4)).run mem - acpiSdtHeaderSize) / 8).toNat (xsdt + 36)

section Parse

variable {map : EfiMemoryMap} {mem : UInt64 → UInt8}

theorem touches_bytesEqual (cs : List UInt8) : ∀ p : UInt64,
    (bytesEqual p cs).Touches mem (Inside p cs.length) := by
  induction cs with
  | nil => exact fun p => .pure _
  | cons c cs ih =>
    intro p
    refine .bind (.get ⟨0, Nat.succ_pos _, (UInt64.add_zero p).symm⟩) ?_
    refine .cond (fun _ => .pure _) fun _ => (ih (p + 1)).mono ?_
    rintro a ⟨i, hi, rfl⟩
    refine ⟨1 + i, by rw [List.length_cons]; omega, ?_⟩
    rw [← add_ofNat_add]
    rfl

/-- The byte that the parser should not read. -/
def TailByte (map : EfiMemoryMap) (mem : UInt64 → UInt8) (madt a : UInt64) : Prop :=
  ∃ L, MadtInMap map mem madt L ∧ Lands mem madt L 44 (L - 1) ∧ a = madt + UInt64.ofNat L

theorem touches_parseMadt (info : AcpiInfo) (madt : UInt64) :
    (parseMadt map info madt).Touches mem fun a => Inside madt 36 a ∨
      Tested (madtRanges map mem madt) a ∨ TailByte map mem madt a := by
  -- the length is read from the header, which `scanXsdt` tested before
  refine .bind ?_ ?_
  · exact (touches_readLe32 (n := 36) (k := 4) (by omega) rfl).mono fun a => Or.inl
  refine .cond (fun _ => .pure _) fun hlength => .cond (fun _ => .pure _) fun hrange => ?_
  simp only [Bool.not_eq_true', Bool.not_eq_false] at hrange
  -- everything but the entries is in the range of `length` bytes
  have htested : ∀ {n : Nat} {a : UInt64}, n ≤ ((readLe32 (madt + 4)).run mem).toNat →
      Inside madt n a → Tested (madtRanges map mem madt) a := by
    intro n a hn ha
    simp only [madtRanges, if_neg hlength, widen_eq hrange]
    exact .head (by rwa [UInt32.toNat_toUInt64]) ha
  have hlength' := hlength
  rw [not_or, gt_iff_lt, UInt32.lt_iff_toNat_lt, UInt32.lt_iff_toNat_lt,
    show (acpiSdtHeaderSize + 8).toNat = 44 from rfl, show acpiMaxSdtLength.toNat = 2 ^ 20 from rfl]
    at hlength'
  refine .bind ?_ ?_
  · exact (touches_checksumOk _ _).mono fun a ha => Or.inr (Or.inl (htested (Nat.le_refl _) ha))
  refine .cond (fun _ => .pure _) fun hsum => ?_
  refine .bind ?_ ?_
  · exact (touches_readLe32 (n := 44) (k := 36) (by omega) rfl).mono fun a ha =>
      Or.inr (Or.inl (htested (by omega) ha))
  refine .bind ?_ ?_
  · exact (touches_readLe32 (n := 44) (k := 40) (by omega) rfl).mono fun a ha =>
      Or.inr (Or.inl (htested (by omega) ha))
  · refine (touches_madtEntries (by omega) _ _ _).mono fun a ha => Or.inr ?_
    rcases ha with ha | ⟨ha, hlands⟩
    · exact Or.inl (htested (Nat.le_refl _) ha)
    · refine Or.inr ⟨((readLe32 (madt + 4)).run mem).toNat, ⟨?_, by omega, by omega, ?_, ?_⟩, hlands, ha⟩
      · rw [field32_bytesAt (by omega)]
        rfl
      · rw [← toUInt64_eq]
        exact hrange
      · simp only [Bool.not_eq_true', Bool.not_eq_false, run_checksumOk, beq_iff_eq] at hsum
        exact hsum

theorem touches_scanXsdt (info : AcpiInfo) (n : Nat) : ∀ entry : UInt64,
    (scanXsdt map info n entry).Touches mem fun a => Inside entry (8 * n) a ∨
      Tested (scanRanges map mem n entry) a ∨
      ∃ madt, ScanLeads map mem madt n entry ∧ TailByte map mem madt a := by
  induction n with
  | zero => exact fun entry => .pure _
  | succ n ih =>
    intro entry
    refine .bind ?_ ?_
    · exact (touches_readLe64 (n := 8 * (n + 1)) (k := 0) (by omega) (UInt64.add_zero entry)).mono
        fun a => Or.inl
    refine .cond (fun _ => .pure _) fun hne => .cond (fun _ => .pure _) fun hheader => ?_
    simp only [Bool.not_eq_true', Bool.not_eq_false] at hheader
    have hok : TableOk map ((readLe64 entry).run mem) := ⟨hne, hheader⟩
    simp only [scanRanges, if_neg hne, widen_eq hheader]
    refine .bind ?_ ?_
    · exact (touches_bytesEqual apicSignature _).mono fun a ha => Or.inr (Or.inl (.head (by decide) ha))
    -- the first MADT ends the scan; another table is passed over
    refine .cond (fun hmadt => ?_) fun hother => ?_
    · rw [if_pos hmadt]
      refine (touches_parseMadt info _).mono fun a ha => Or.inr ?_
      rcases ha with ha | ha | ha
      · exact Or.inl (.head (Nat.le_refl _) ha)
      · exact Or.inl (ha.cons _)
      · exact Or.inr ⟨_, .here rfl hok hmadt, ha⟩
    · rw [if_neg hother]
      refine (ih (entry + 8)).mono fun a ha => ?_
      rcases ha with ⟨i, hi, rfl⟩ | ha | ⟨madt, hscan, ha⟩
      · refine Or.inl ⟨8 + i, by omega, ?_⟩
        rw [← add_ofNat_add]
        rfl
      · exact Or.inr (Or.inl (ha.cons _))
      · exact Or.inr (Or.inr ⟨madt, .there hok hother hscan, ha⟩)

theorem touches_parseXsdt (info : AcpiInfo) (xsdt : UInt64) :
    (parseXsdt map info xsdt).Touches mem fun a => Tested (xsdtRanges map mem xsdt) a ∨
      ∃ madt, XsdtLeads map mem xsdt ∧ ScanLeads map mem madt
        (((readLe32 (xsdt + 4)).run mem - acpiSdtHeaderSize) / 8).toNat (xsdt + 36) ∧
        TailByte map mem madt a := by
  refine .cond (fun _ => .pure _) fun hne => .cond (fun _ => .pure _) fun hheader => ?_
  simp only [Bool.not_eq_true', Bool.not_eq_false] at hheader
  simp only [xsdtRanges, if_neg hne, widen_eq hheader]
  refine .bind ?_ ?_
  · exact (touches_bytesEqual xsdtSignature xsdt).mono fun a ha => Or.inl (.head (by decide) ha)
  refine .cond (fun _ => .pure _) fun hnamed => ?_
  refine .bind ?_ ?_
  · exact (touches_readLe32 (n := 36) (k := 4) (by omega) rfl).mono fun a ha =>
      Or.inl (.head (Nat.le_refl _) ha)
  refine .cond (fun _ => .pure _) fun hlength => .cond (fun _ => .pure _) fun hrange => ?_
  simp only [Bool.not_eq_true', Bool.not_eq_false] at hrange hnamed
  simp only [hnamed, if_neg hlength, widen_eq hrange, Bool.not_true, Bool.false_eq_true, if_false]
  refine .bind ?_ (.cond (fun _ => .pure _) fun hsum => ?_)
  · exact (touches_checksumOk _ _).mono fun a ha => Or.inl (.cons _ (.head (by simp) ha))
  · simp only [Bool.not_eq_true', Bool.not_eq_false] at hsum
    simp only [hsum, Bool.not_true, Bool.false_eq_true, if_false]
    have hleads : XsdtLeads map mem xsdt := ⟨hne, hheader, hnamed, hlength, hrange, hsum⟩
    refine (touches_scanXsdt _ _ _).mono fun a ha => ?_
    rcases ha with ⟨i, hi, rfl⟩ | ha | ⟨madt, hscan, ha⟩
    · -- the entries are in the body of the XSDT
      have hle : acpiSdtHeaderSize ≤ (readLe32 (xsdt + 4)).run mem :=
        UInt32.not_lt.1 (not_or.1 hlength).1
      have hle' := UInt32.le_iff_toNat_le.1 hle
      rw [UInt32.toNat_div, UInt32.toNat_sub_of_le _ _ hle, show (8 : UInt32).toNat = 8 from rfl] at hi
      rw [show acpiSdtHeaderSize.toNat = 36 from rfl] at hi hle'
      refine Or.inl (.cons _ (.head (Nat.le_refl _) ⟨36 + i, ?_, ?_⟩))
      · rw [UInt32.toNat_toUInt64]
        omega
      · rw [← add_ofNat_add]
        rfl
    · exact Or.inl ((ha.cons _).cons _)
    · exact Or.inr ⟨madt, hleads, hscan, ha⟩

variable (map) in
/-- **Every byte that the parser reads is in a range that was accepted, or is the byte behind a MADT
that ends in a fragment of one byte.** -/
theorem touches_parseAcpi (rsdp : UInt64) (bspApicId : UInt32) :
    (parseAcpi rsdp map bspApicId).Touches mem fun a => Tested (acpiRanges map mem rsdp) a ∨
      ∃ madt, LeadsToMadt map mem rsdp madt ∧ TailByte map mem madt a := by
  refine .cond (fun _ => .pure _) fun hne => .cond (fun _ => .pure _) fun hrange20 => ?_
  simp only [Bool.not_eq_true', Bool.not_eq_false] at hrange20
  simp only [acpiRanges, if_neg hne, widen_eq hrange20]
  refine .bind (.get (Or.inl (.head (Nat.le_refl _) ⟨15, by decide, rfl⟩))) ?_
  -- 20 bytes, then 24, then `length`: each read is in the range tested last before it
  refine .bind ?_ ?_
  · refine .bind ((touches_bytesEqual rsdpSignature rsdp).mono fun a ha =>
      Or.inl (.head (by decide) ha)) (.cond (fun _ => ?_) fun _ => .pure _)
    exact (touches_checksumOk rsdp 20).mono fun a ha => Or.inl (.head (Nat.le_refl _) ha)
  refine .cond (fun _ => .pure _) fun hhead => .cond (fun _ => .pure _) fun hrevision => ?_
  refine .cond (fun _ => .pure _) fun hrange24 => ?_
  simp only [Bool.not_eq_true', Bool.not_eq_false] at hrange24 hhead
  have hrevision' : ¬ mem (rsdp + 15) < 2 := hrevision
  simp only [hhead, if_neg hrevision', widen_eq hrange24, Bool.not_true, Bool.false_eq_true, if_false]
  refine .bind ?_ ?_
  · exact (touches_readLe32 (n := 24) (k := 20) (by omega) rfl).mono fun a ha =>
      Or.inl (.cons _ (.head (Nat.le_refl _) ha))
  refine .cond (fun _ => .pure _) fun hlength => .cond (fun _ => .pure _) fun hrange => ?_
  simp only [Bool.not_eq_true', Bool.not_eq_false] at hrange
  simp only [if_neg hlength, widen_eq hrange]
  refine .bind ?_ ?_
  · exact (touches_checksumOk _ _).mono fun a ha => Or.inl (.cons _ (.cons _ (.head (by simp) ha)))
  refine .cond (fun _ => .pure _) fun hsum => .bind ?_ ?_
  · have hle := UInt32.le_iff_toNat_le.1 (UInt32.not_lt.1 (not_or.1 hlength).1)
    rw [show acpiRsdpSize.toNat = 36 from rfl] at hle
    exact (touches_readLe64 (n := 36) (k := 24) (by omega) rfl).mono fun a ha =>
      Or.inl (.cons _ (.cons _ (.head (by rwa [UInt32.toNat_toUInt64]) ha)))
  · simp only [Bool.not_eq_true', Bool.not_eq_false] at hsum
    simp only [hsum, Bool.not_true, Bool.false_eq_true, if_false]
    refine (touches_parseXsdt _ _).mono fun a ha => ?_
    rcases ha with ha | ⟨madt, hxsdt, hscan, ha⟩
    · exact Or.inl (((ha.cons _).cons _).cons _)
    · exact Or.inr ⟨madt, ⟨_, ⟨hne, hrange20, hhead, hrevision, hrange24, hlength, hrange, hsum, rfl⟩,
        hxsdt, hscan⟩, ha⟩

end Parse

/-! ## The byte behind the table is read -/

section Reached

variable {map : EfiMemoryMap} {mem : UInt64 → UInt8} {a : UInt64}

theorem mem_touched_parseMadt (info : AcpiInfo) {madt : UInt64} (h : TailByte map mem madt a) :
    a ∈ (parseMadt map info madt).touched mem := by
  obtain ⟨L, hmap, hlands, rfl⟩ := h
  obtain ⟨hlength, hbounds, hrange, hsum⟩ := hmap.tests
  have hheader := hmap.header
  have hlimit := hmap.limit
  have htoNat := hmap.toNat_ofNat
  rw [← htoNat] at hlands
  have hloop := fun info => mem_touched_madtEntries (by omega) hlands
    (by omega) L 44 info rfl (by omega)
  rw [htoNat] at hloop
  rw [parseMadt]
  simp only [Peek.touched_bind, hlength, if_neg hbounds, hrange, hsum, Bool.not_true,
    Bool.false_eq_true, if_false, htoNat, List.mem_append]
  exact Or.inr (Or.inr (Or.inr (Or.inr (hloop _))))

theorem mem_touched_scanXsdt (info : AcpiInfo) {madt : UInt64} {n : Nat} {entry : UInt64}
    (h : ScanLeads map mem madt n entry) (ha : TailByte map mem madt a) :
    a ∈ (scanXsdt map info n entry).touched mem := by
  induction h with
  | here htable hok hmadt =>
    subst htable
    rw [scanXsdt, Peek.touched_bind, if_neg hok.ne, hok.header]
    simp only [Bool.not_true, Bool.false_eq_true, if_false, Peek.touched_bind, hmadt, if_true,
      List.mem_append]
    exact Or.inr (Or.inr (mem_touched_parseMadt info ha))
  | there hok hother _ ih =>
    rw [scanXsdt, Peek.touched_bind, if_neg hok.ne, hok.header]
    simp only [Bool.not_true, Bool.false_eq_true, if_false, Peek.touched_bind, hother,
      List.mem_append]
    exact Or.inr (Or.inr ih)

theorem mem_touched_parseAcpi (bspApicId : UInt32) {rsdp madt : UInt64}
    (h : LeadsToMadt map mem rsdp madt) (ha : TailByte map mem madt a) :
    a ∈ (parseAcpi rsdp map bspApicId).touched mem := by
  obtain ⟨xsdt, hrsdp, hxsdt, hscan⟩ := h
  have hparse : ∀ info, a ∈ (parseXsdt map info xsdt).touched mem := by
    intro info
    rw [parseXsdt, if_neg hxsdt.ne, hxsdt.header]
    simp only [Bool.not_true, Bool.false_eq_true, if_false, Peek.touched_bind, hxsdt.named,
      if_neg hxsdt.length, hxsdt.range, hxsdt.sum, List.mem_append]
    exact Or.inr (Or.inr (Or.inr (mem_touched_scanXsdt _ hscan ha)))
  rw [parseAcpi, if_neg hrsdp.ne, hrsdp.range20]
  simp only [Bool.not_true, Bool.false_eq_true, if_false, Peek.touched_bind, Peek.run_get, hrsdp.head,
    hrsdp.revision, hrsdp.range24, if_neg hrsdp.length, hrsdp.range, hrsdp.sum, hrsdp.next,
    List.mem_append]
  exact Or.inr (Or.inr (Or.inr (Or.inr (Or.inr (hparse _)))))

end Reached

/-! ## Mapped pages -/

/-- The parser reads nothing but bytes of ranges that `memory_map_contains_range` accepted for it. -/
def ReadsTestedOnly (map : EfiMemoryMap) (mem : UInt64 → UInt8) (rsdp : UInt64) (bspApicId : UInt32) :
    Prop :=
  ∀ a ∈ (parseAcpi rsdp map bspApicId).touched mem, Tested (acpiRanges map mem rsdp) a

/-- Everything that `parse_acpi` reads is in a range that `memory_map_contains_range` accepted for it,
and in a page that the walk finds. -/
def ReadsMappedOnly (map : EfiMemoryMap) (mem : UInt64 → UInt8) (rsdp : UInt64) (bspApicId : UInt32)
    (s : PagingState) : Prop :=
  ∀ a ∈ (parseAcpi rsdp map bspApicId).touched mem,
    Tested (acpiRanges map mem rsdp) a ∧ (walk s.mem s.info.cr3 (alignDown4k a)).isSome

/-- A MADT ends in a fragment of one byte, and the byte behind it is in none of the accepted ranges. -/
def BareTail (map : EfiMemoryMap) (mem : UInt64 → UInt8) (rsdp : UInt64) : Prop :=
  ∃ madt L, LeadsToMadt map mem rsdp madt ∧ MadtInMap map mem madt L ∧
    Lands mem madt L 44 (L - 1) ∧ ¬ Tested (acpiRanges map mem rsdp) (madt + UInt64.ofNat L)

/-- A byte of an accepted range is in a page of the identity map. -/
theorem ExactIdentityMap.walk_of_accepted {map : EfiMemoryMap} {fb : Framebuffer} {s : PagingState}
    (h : ExactIdentityMap map fb s) {r : AddrRange} (hr : Accepted map r) {a : UInt64}
    (ha : Inside r.1 r.2.toNat a) : (walk s.mem s.info.cr3 (alignDown4k a)).isSome := by
  obtain ⟨start, length⟩ := r
  obtain ⟨i, hi, rfl⟩ := ha
  have hi : i < length.toNat := hi
  have hrange : memoryMapContainsRange map start length = true := hr
  obtain ⟨hlt, d, hd, -, hlo, hhi⟩ := (memoryMapContainsRange_iff (by omega)).1 hrange
  show (walk s.mem s.info.cr3 (alignDown4k (start + UInt64.ofNat i))).isSome
  have hi' : (UInt64.ofNat i).toNat = i := by
    rw [UInt64.toNat_ofNat', Nat.mod_eq_of_lt (by omega)]
  have haddr : (start + UInt64.ofNat i).toNat = start.toNat + i := by
    rw [toNat_add_of_lt] <;> rw [hi']
    omega
  have hpage := alignDown4k_toNat (start + UInt64.ofNat i)
  refine (h.translated _ (by omega)).2 (Or.inl ⟨d, hd, start.toNat + i, by omega, ?_, by omega⟩)
  rw [EfiMemoryDescriptor.endNat] at hhi
  omega

/-- **The parser reads nothing but what it has checked, unless a MADT ends in a fragment of one byte.** -/
theorem readsTestedOnly_iff_not_bareTail (map : EfiMemoryMap) (mem : UInt64 → UInt8) (rsdp : UInt64)
    (bspApicId : UInt32) : ReadsTestedOnly map mem rsdp bspApicId ↔ ¬ BareTail map mem rsdp := by
  constructor
  · rintro hreads ⟨madt, L, hleads, hmap, hlands, hbare⟩
    exact hbare (hreads _ (mem_touched_parseAcpi bspApicId hleads ⟨L, hmap, hlands, rfl⟩))
  · intro hno a ha
    rcases touches_parseAcpi map rsdp bspApicId a ha with h | ⟨madt, hleads, L, hmap, hlands, rfl⟩
    · exact h
    · by_contra hbare
      exact hno ⟨madt, L, hleads, hmap, hlands, hbare⟩

/-- **The parser reads checked and mapped memory only, unless a MADT ends in a fragment of one byte and
the byte behind it was not checked.** That the reads are checked needs nothing of the memory map; that
their pages are mapped needs page tables that begin on a page boundary. -/
theorem readsMappedOnly_iff (la57 : Bool) (map₀ map : EfiMemoryMap) (fb : Framebuffer)
    (s₀ s : PagingState) (mem : UInt64 → UInt8) (rsdp : UInt64) (bspApicId : UInt32)
    (hfits : map₀.Fits) (hsetup : (setupKernelPaging la57 map₀ fb).run s₀ = ((true, map), s)) :
    (ReadsTestedOnly map mem rsdp bspApicId ↔ ¬ BareTail map mem rsdp) ∧
      (ReadsMappedOnly map mem rsdp bspApicId s → ¬ BareTail map mem rsdp) ∧
      (PagingPoolAligned map₀ fb → ¬ BareTail map mem rsdp →
        ReadsMappedOnly map mem rsdp bspApicId s) := by
  have htested := readsTestedOnly_iff_not_bareTail map mem rsdp bspApicId
  refine ⟨htested, fun hreads => htested.1 fun a ha => (hreads a ha).1, fun haligned hno a ha => ?_⟩
  have hexact := exactIdentityMap_of_run hfits haligned hsetup
  obtain ⟨r, hr, hin⟩ := htested.2 hno a ha
  exact ⟨⟨r, hr, hin⟩, hexact.walk_of_accepted (accepted_acpiRanges rsdp r hr) hin⟩

/-- The table page of `snugMap`: the RSDP at its start, an XSDT with one entry, and a MADT at its end. The
low byte of the MADT's address and the checksum of the XSDT go with it. -/
def tablePageMem (madt : UInt64) (low sum : UInt8) (table : List UInt8) (a : UInt64) : UInt8 :=
  if a < 0x15100 then
    (rsdpSignature ++ [223, 0, 0, 0, 0, 0, 0, 2, 0, 0, 0, 0, 36, 0, 0, 0, 0x00, 0x51, 0x01, 0, 0, 0, 0, 0,
      138, 0, 0, 0]).getD (a - 0x15000).toNat 0
  else if a < madt then
    (xsdtSignature ++ [44, 0, 0, 0, 1, sum] ++ List.replicate 26 0 ++
      [low, 0x5f, 0x01, 0, 0, 0, 0, 0]).getD (a - 0x15100).toNat 0
  else (apicSignature ++ table).getD (a - madt).toNat 0

/-- A MADT of 52 bytes, with one processor. -/
def oneCpuMem : UInt64 → UInt8 :=
  tablePageMem 0x15fcc 0xcc 100 ([52, 0, 0, 0, 1, 199] ++ List.replicate 26 0 ++
    [0, 0, 0xe0, 0xfe, 0, 0, 0, 0, 0, 8, 0, 0, 1, 0, 0, 0])

/-- A MADT of 45 bytes. -/
def bareTailMem : UInt64 → UInt8 :=
  tablePageMem 0x15fd3 0xd3 93 ([45, 0, 0, 0, 1, 215] ++ List.replicate 26 0 ++
    [0, 0, 0xe0, 0xfe, 0, 0, 0, 0, 0])

section Congr

variable {map map' : EfiMemoryMap} {mem : UInt64 → UInt8}

/-- A range check sees nothing of the map but its descriptors. -/
theorem memoryMapContainsRange_congr (h : map.descriptors = map'.descriptors) :
    memoryMapContainsRange map = memoryMapContainsRange map' := by
  funext start length
  rw [memoryMapContainsRange, memoryMapContainsRange, h]

theorem scanXsdt_congr (h : map.descriptors = map'.descriptors) (info : AcpiInfo) (n : Nat) :
    ∀ entry : UInt64, scanXsdt map info n entry = scanXsdt map' info n entry := by
  have hcontains := memoryMapContainsRange_congr h
  induction n with
  | zero => exact fun _ => rfl
  | succ n ih =>
    intro entry
    simp only [scanXsdt, parseMadt, hcontains, ih]

theorem parseAcpi_congr (h : map.descriptors = map'.descriptors) (rsdp : UInt64) (bspApicId : UInt32) :
    parseAcpi rsdp map bspApicId = parseAcpi rsdp map' bspApicId := by
  simp only [parseAcpi, parseXsdt, memoryMapContainsRange_congr h, scanXsdt_congr h]

theorem scanRanges_congr (h : map.descriptors = map'.descriptors) (n : Nat) :
    ∀ entry : UInt64, scanRanges map mem n entry = scanRanges map' mem n entry := by
  have hcontains := memoryMapContainsRange_congr h
  induction n with
  | zero => exact fun _ => rfl
  | succ n ih =>
    intro entry
    simp only [scanRanges, madtRanges, widen, hcontains, ih]

theorem acpiRanges_congr (h : map.descriptors = map'.descriptors) (rsdp : UInt64) :
    acpiRanges map mem rsdp = acpiRanges map' mem rsdp := by
  simp only [acpiRanges, xsdtRanges, widen, memoryMapContainsRange_congr h, scanRanges_congr h]

end Congr

theorem inside_of_sub_lt {p a : UInt64} {n : Nat} (h : (a - p).toNat < n) : Inside p n a :=
  ⟨(a - p).toNat, h, by rw [UInt64.ofNat_toNat, UInt64.add_comm, UInt64.sub_add_cancel]⟩

/-- `snugMap` after the pool was carved out of it. -/
def snugCarved : EfiMemoryMap :=
  .ofList [{ type := efiLoaderData, physicalStart := 0x1000, numberOfPages := 20 },
    { type := efiACPIReclaimMemory, physicalStart := 0x15000, numberOfPages := 1 }]

theorem snugPaging_descriptors : snugPaging.1.2.descriptors = snugCarved.descriptors := by
  have hcarved : snugCarved.descriptors =
      [{ type := efiLoaderData, physicalStart := 0x1000, numberOfPages := 20 },
        { type := efiACPIReclaimMemory, physicalStart := 0x15000, numberOfPages := 1 }] := by
    decide +kernel
  rw [snugPaging_succeeds.2.1, hcarved]

/-- The ranges that are accepted on the way to the MADT of 52 bytes. -/
theorem acpiRanges_oneCpu : acpiRanges snugPaging.1.2 oneCpuMem 0x15000 = [(0x15000, 20),
    (0x15000, 24), (0x15000, 36), (0x15100, 36), (0x15100, 44), (0x15fcc, 36), (0x15fcc, 52)] := by
  rw [acpiRanges_congr snugPaging_descriptors]
  decide +kernel

theorem readsTestedOnly_oneCpu : ReadsTestedOnly snugPaging.1.2 oneCpuMem 0x15000 0 := by
  intro a ha
  rw [parseAcpi_congr snugPaging_descriptors] at ha
  have hall : ((parseAcpi 0x15000 snugCarved 0).touched oneCpuMem).all (fun a =>
      decide ((a - 0x15000).toNat < 36) || decide ((a - 0x15100).toNat < 44) ||
        decide ((a - 0x15fcc).toNat < 52)) = true := by
    decide +kernel
  have ha := List.all_eq_true.1 hall a ha
  simp only [Bool.or_eq_true, decide_eq_true_eq] at ha
  rw [acpiRanges_oneCpu]
  rcases ha with (ha | ha) | ha
  · exact ⟨(0x15000, 36), by decide, inside_of_sub_lt ha⟩
  · exact ⟨(0x15100, 44), by decide, inside_of_sub_lt ha⟩
  · exact ⟨(0x15fcc, 52), by decide, inside_of_sub_lt ha⟩

/-- With a processor in the MADT, everything that is read was checked and is mapped. -/
theorem readsMappedOnly_oneCpu :
    ((parseAcpi 0x15000 snugPaging.1.2 0).run oneCpuMem).cpus = [⟨0, 0, 1, false⟩] ∧
      ReadsMappedOnly snugPaging.1.2 oneCpuMem 0x15000 0 snugPaging.2 := by
  obtain ⟨hiff, -, hmapped⟩ := readsMappedOnly_iff false snugMap snugPaging.1.2 noFramebuffer _
    snugPaging.2 oneCpuMem 0x15000 0 snugMap_fits snugPaging_eq
  have hno := hiff.1 readsTestedOnly_oneCpu
  refine ⟨?_, hmapped (pagingPoolAligned_of_aligned snugMap_aligned _) hno⟩
  rw [parseAcpi_congr snugPaging_descriptors]
  decide +kernel

/-- The table page is still described. -/
theorem snugPaging_contains {start length : UInt64} (hpos : 0 < length.toNat)
    (hlo : 0x15000 ≤ start.toNat) (hhi : start.toNat + length.toNat ≤ 0x16000) :
    memoryMapContainsRange snugPaging.1.2 start length = true := by
  refine (memoryMapContainsRange_iff hpos).2 ⟨by omega,
    { type := efiACPIReclaimMemory, physicalStart := 0x15000, numberOfPages := 1 }, ?_, by decide, hlo,
    hhi⟩
  rw [snugPaging_succeeds.2.1]
  exact List.mem_cons_of_mem _ List.mem_cons_self

theorem bareTailMem_leads : LeadsToMadt snugPaging.1.2 bareTailMem 0x15000 0x15fd3 := by
  have hrsdp : (readLe32 (0x15000 + 20)).run bareTailMem = 36 := by decide +kernel
  have hxsdt : (readLe32 (0x15100 + 4)).run bareTailMem = 44 := by decide +kernel
  refine ⟨0x15100, ⟨by decide, ?_, by decide +kernel, by decide +kernel, ?_, ?_, ?_,
    by decide +kernel, by decide +kernel⟩, ⟨by decide, ?_, by decide +kernel, ?_, ?_,
    by decide +kernel⟩, ?_⟩
  · exact snugPaging_contains (by decide) (by decide) (by decide)
  · exact snugPaging_contains (by decide) (by decide) (by decide)
  · rw [hrsdp]
    decide
  · rw [hrsdp]
    exact snugPaging_contains (by decide) (by decide) (by decide)
  · exact snugPaging_contains (by decide) (by decide) (by decide)
  · rw [hxsdt]
    decide
  · rw [hxsdt]
    exact snugPaging_contains (by decide) (by decide) (by decide)
  · have hcount : ((44 - acpiSdtHeaderSize) / 8).toNat = 0 + 1 := by decide
    have htable : (readLe64 (0x15100 + 36)).run bareTailMem = 0x15fd3 := by decide +kernel
    rw [hxsdt, hcount]
    exact .here htable ⟨by decide, snugPaging_contains (by decide) (by decide) (by decide)⟩
      (by decide +kernel)

theorem bareTailMem_tail : TailByte snugPaging.1.2 bareTailMem 0x15fd3 0x16000 :=
  ⟨45, ⟨by decide +kernel, by decide, by decide,
    snugPaging_contains (by decide) (by decide) (by decide), by decide +kernel⟩, .refl _, by decide⟩

/-- The page behind the table page is not mapped. -/
theorem snugPaging_walk : walk snugPaging.2.mem snugPaging.2.info.cr3 0x16000 = none := by
  have hexact := exactIdentityMap_of_run snugMap_fits (pagingPoolAligned_of_aligned snugMap_aligned _)
    snugPaging_eq
  have hfb : ¬ noFramebuffer.Touches 0x16 := by
    rw [Framebuffer.Touches, touches4k_iff]
    decide
  have hout : ¬ InMap snugPaging.1.2 noFramebuffer 0x16 := by
    rw [InMap, snugPaging_succeeds.2.1]
    simp only [List.mem_cons, List.not_mem_nil, or_false, exists_eq_or_imp, exists_eq_left,
      EfiMemoryDescriptor.Touches, touches4k_iff]
    refine not_or.2 ⟨by decide, hfb⟩
  have hpage : (0x16000 : UInt64).toNat / 4096 = 0x16 := by decide
  rw [← Option.not_isSome_iff_eq_none, hexact.translated 0x16000 (by decide), hpage]
  exact hout

/-- On that page the parser reads the first byte of a page that nothing maps. -/
theorem not_readsMappedOnly_of_bareTail :
    snugMap.Fits ∧ (∀ d ∈ snugMap.descriptors, 4096 ∣ d.physicalStart.toNat) ∧
      (setupKernelPaging false snugMap noFramebuffer).run ⟨{}, fun _ => 0⟩
        = ((true, snugPaging.1.2), snugPaging.2) ∧
      0x16000 ∈ (parseAcpi 0x15000 snugPaging.1.2 0).touched bareTailMem ∧
      ¬ Tested (acpiRanges snugPaging.1.2 bareTailMem 0x15000) 0x16000 ∧
      walk snugPaging.2.mem snugPaging.2.info.cr3 0x16000 = none ∧
      ¬ ReadsMappedOnly snugPaging.1.2 bareTailMem 0x15000 0 snugPaging.2 := by
  have htouched := mem_touched_parseAcpi 0 bareTailMem_leads bareTailMem_tail
  have hwalk := snugPaging_walk
  have hpage : alignDown4k 0x16000 = 0x16000 := by decide
  have hexact := exactIdentityMap_of_run snugMap_fits (pagingPoolAligned_of_aligned snugMap_aligned _)
    snugPaging_eq
  refine ⟨snugMap_fits, snugMap_aligned, snugPaging_eq, htouched, ?_, hwalk, fun hreads => ?_⟩
  · rintro ⟨r, hr, hin⟩
    have hsome := hexact.walk_of_accepted (accepted_acpiRanges 0x15000 r hr) hin
    rw [hpage, hwalk] at hsome
    cases hsome
  · have hsome := (hreads _ htouched).2
    rw [hpage, hwalk] at hsome
    cases hsome

end VibeKernel

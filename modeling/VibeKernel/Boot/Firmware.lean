import VibeKernel.Boot.MemoryMap

/-!
# What the kernel takes from the firmware

`find_acpi_rsdp` and `exit_boot_services`. The firmware is a parameter: a state of any type, and the
three boot services as functions on it. The state may hold anything that decides how the firmware
behaves, timers included, so the memory map may change in any call.

`Conforms` is what UEFI says about the services. With it the map that the kernel goes on with is
the memory map at the moment the boot services ended, and the constants of the source (8 attempts,
room for 16 more descriptors) are enough for 7 changes of the map.
-/

namespace VibeKernel

/-! ## The RSDP -/

/-- `EFI_GUID`. -/
structure EfiGuid where
  data1 : UInt32
  data2 : UInt16
  data3 : UInt16
  data4 : List UInt8
deriving DecidableEq

/-- The loop of `guid_equal`. -/
def bytesAgree : List UInt8 → List UInt8 → Bool
  | a :: as, b :: bs => if a != b then false else bytesAgree as bs
  | _, _ => true

/-- `guid_equal`. -/
def guidEqual (a b : EfiGuid) : Bool :=
  if a.data1 != b.data1 || a.data2 != b.data2 || a.data3 != b.data3 then false
  else bytesAgree a.data4 b.data4

def acpi20Guid : EfiGuid :=
  ⟨0x8868e871, 0xe4f1, 0x11d3, [0xbc, 0x22, 0x00, 0x80, 0xc7, 0x3c, 0x88, 0x81]⟩

def acpi10Guid : EfiGuid :=
  ⟨0xeb9d2d30, 0x2d88, 0x11d3, [0x9a, 0x16, 0x00, 0x90, 0x27, 0x3f, 0xc1, 0x4d]⟩

/-- `efi_configuration_table_t`. -/
structure EfiConfigurationTable where
  vendorGuid : EfiGuid
  vendorTable : UInt64

/-- The loop of `find_acpi_rsdp`. -/
def findAcpiRsdpFrom : List EfiConfigurationTable → UInt64 → UInt64
  | [], fallback => fallback
  | t :: ts, fallback =>
    if guidEqual t.vendorGuid acpi20Guid then t.vendorTable
    else if fallback == 0 && guidEqual t.vendorGuid acpi10Guid then
      findAcpiRsdpFrom ts t.vendorTable
    else findAcpiRsdpFrom ts fallback

/-- `find_acpi_rsdp`. -/
def findAcpiRsdp (tables : List EfiConfigurationTable) : UInt64 := findAcpiRsdpFrom tables 0

/-- A GUID has 16 bytes. -/
def EfiGuid.Whole (g : EfiGuid) : Prop := g.data4.length = 8

theorem bytesAgree_iff {as bs : List UInt8} (h : as.length = bs.length) :
    bytesAgree as bs = true ↔ as = bs := by
  induction as generalizing bs with
  | nil => simp [bytesAgree, (List.length_eq_zero_iff.1 h.symm)]
  | cons a as ih =>
    cases bs with
    | nil => cases h
    | cons b bs =>
      have hlen : as.length = bs.length := by simpa using h
      by_cases hab : a = b <;> simp [bytesAgree, hab, ih hlen]

theorem guidEqual_iff {a b : EfiGuid} (ha : a.Whole) (hb : b.Whole) :
    guidEqual a b = true ↔ a = b := by
  obtain ⟨a1, a2, a3, a4⟩ := a
  obtain ⟨b1, b2, b3, b4⟩ := b
  have hlen : a4.length = b4.length := Eq.trans ha (Eq.symm hb)
  by_cases h1 : a1 = b1 <;> by_cases h2 : a2 = b2 <;> by_cases h3 : a3 = b3 <;>
    simp [guidEqual, h1, h2, h3, bytesAgree_iff hlen]

/-- The table of ACPI 2.0 counts wherever it stands in the list. Without one, the first table of
ACPI 1.0 that is not null does. -/
theorem findAcpiRsdp_eq {tables : List EfiConfigurationTable}
    (hwhole : ∀ t ∈ tables, t.vendorGuid.Whole) :
    findAcpiRsdp tables = match tables.find? (·.vendorGuid = acpi20Guid) with
      | some t => t.vendorTable
      | none => ((tables.find? fun t => t.vendorGuid = acpi10Guid ∧ t.vendorTable ≠ 0).map
          (·.vendorTable)).getD 0 := by
  -- for every table that the loop may have kept from before
  have key : ∀ fallback, findAcpiRsdpFrom tables fallback =
      match tables.find? (·.vendorGuid = acpi20Guid) with
      | some t => t.vendorTable
      | none => if fallback = 0 then
          ((tables.find? fun t => t.vendorGuid = acpi10Guid ∧ t.vendorTable ≠ 0).map
            (·.vendorTable)).getD 0
        else fallback := by
    induction tables with
    | nil =>
      intro fallback
      by_cases hf : fallback = 0 <;> simp [findAcpiRsdpFrom, hf]
    | cons t ts ih =>
      intro fallback
      obtain ⟨ht, hts⟩ := List.forall_mem_cons.1 hwhole
      have h20 := guidEqual_iff ht (show acpi20Guid.Whole from rfl)
      have h10 := guidEqual_iff ht (show acpi10Guid.Whole from rfl)
      by_cases hnew : t.vendorGuid = acpi20Guid
      · rw [findAcpiRsdpFrom, if_pos (h20.2 hnew), List.find?_cons_of_pos (by simpa using hnew)]
      · rw [findAcpiRsdpFrom, if_neg (mt h20.1 hnew), List.find?_cons_of_neg (by simpa using hnew),
          ih hts, ih hts]
        have hself : guidEqual acpi10Guid acpi10Guid = true := rfl
        by_cases hold : t.vendorGuid = acpi10Guid <;> by_cases hf : fallback = 0 <;>
          by_cases hnull : t.vendorTable = 0 <;> simp [h10, hself, hold, hf, hnull]
  rw [findAcpiRsdp, key, if_pos rfl]

/-- The older table comes first. -/
def mixedTables : List EfiConfigurationTable := [⟨acpi10Guid, 0x1000⟩, ⟨acpi20Guid, 0x2000⟩]

theorem findAcpiRsdp_eq_mixedTables : findAcpiRsdp mixedTables = 0x2000 := by
  have hwhole : ∀ t ∈ mixedTables, t.vendorGuid.Whole := by
    simp [mixedTables, EfiGuid.Whole, acpi10Guid, acpi20Guid]
  rw [findAcpiRsdp_eq hwhole]
  decide

/-! ## The end of the boot services -/

def efiSuccess : UInt64 := 0
def efiBufferTooSmall : UInt64 := 0x8000000000000005

/-- The answer of `GetMemoryMap`, and what stands in the buffer after it. -/
structure MapAnswer where
  status : UInt64
  mapSize : UInt64
  bytes : Nat → UInt8
  mapKey : UInt64
  descSize : UInt64

/-- The boot services that `exit_boot_services` calls. -/
structure BootServices (σ : Type) where
  getMemoryMap : (mapSize : UInt64) → σ → MapAnswer × σ
  allocatePool : (size : UInt64) → σ → UInt64 × σ
  exitBootServices : (mapKey : UInt64) → σ → UInt64 × σ

section Exit

variable {σ : Type} (fw : BootServices σ)

/-- What `exit_boot_services` returns: the status, `out_map` if it stored one, and the state of the
firmware. -/
abbrev ExitResult (σ : Type) : Type := UInt64 × Option EfiMemoryMap × σ

/-- The loop of `exit_boot_services`, with the attempts left and the last status. -/
def exitAttempts (mapSize : UInt64) : Nat → UInt64 → σ → ExitResult σ
  | 0, status, s => (status, none, s)
  | n + 1, _, s =>
    let (a, s) := fw.getMemoryMap mapSize s
    if a.status ≠ efiSuccess then (a.status, none, s)
    else
      let (status, s) := fw.exitBootServices a.mapKey s
      if status = efiSuccess then
        (efiSuccess, some ⟨a.bytes, a.mapSize, mapSize, a.descSize, a.mapSize / a.descSize⟩, s)
      else exitAttempts mapSize n status s

/-- `exit_boot_services`. -/
def exitBootServices (s : σ) : ExitResult σ :=
  let (a, s) := fw.getMemoryMap 0 s
  if a.status ≠ efiBufferTooSmall then (a.status, none, s)
  else
    let mapSize := a.mapSize + a.descSize * 16
    let (status, s) := fw.allocatePool mapSize s
    if status ≠ efiSuccess then (status, none, s)
    else exitAttempts fw mapSize 8 status s

theorem exitBootServices_eq (s : σ) :
    exitBootServices fw s =
      let a := (fw.getMemoryMap 0 s).1
      if a.status ≠ efiBufferTooSmall then (a.status, none, (fw.getMemoryMap 0 s).2)
      else
        let mapSize := a.mapSize + a.descSize * 16
        let r := fw.allocatePool mapSize (fw.getMemoryMap 0 s).2
        if r.1 ≠ efiSuccess then (r.1, none, r.2) else exitAttempts fw mapSize 8 r.1 r.2 := rfl

/-- One attempt. -/
theorem exitAttempts_succ (mapSize : UInt64) (n : Nat) (status : UInt64) (s : σ) :
    exitAttempts fw mapSize (n + 1) status s =
      if (fw.getMemoryMap mapSize s).1.status ≠ efiSuccess then
        ((fw.getMemoryMap mapSize s).1.status, none, (fw.getMemoryMap mapSize s).2)
      else
        let a := (fw.getMemoryMap mapSize s).1
        let r := fw.exitBootServices a.mapKey (fw.getMemoryMap mapSize s).2
        if r.1 = efiSuccess then
          (efiSuccess, some ⟨a.bytes, a.mapSize, mapSize, a.descSize, a.mapSize / a.descSize⟩, r.2)
        else exitAttempts fw mapSize n r.1 r.2 := rfl

/-- What the firmware's memory map is, how often it has changed, and the distance of its
descriptors. -/
structure FirmwareView (σ : Type) where
  memory : σ → List EfiMemoryDescriptor
  changes : σ → Nat
  stride : UInt64

/-- The firmware went from `s` to `s'`. Each change of the map adds two descriptors at most: an
allocation splits one. -/
structure Drifts (V : FirmwareView σ) (s s' : σ) : Prop where
  changes : V.changes s ≤ V.changes s'
  memory : V.changes s' = V.changes s → V.memory s' = V.memory s
  length : (V.memory s').length ≤ (V.memory s).length + 2 * (V.changes s' - V.changes s)

/-- The boot services behave as UEFI documents them. -/
structure Conforms (V : FirmwareView σ) : Prop where
  stride : EfiMemoryDescriptor.size ≤ V.stride.toNat
  nonempty : ∀ s, V.memory s ≠ []
  small : ∀ s, V.stride.toNat * ((V.memory s).length + 16) < 2 ^ 64
  getMemoryMap : ∀ n s, Drifts V s (fw.getMemoryMap n s).2
  allocatePool : ∀ n s, Drifts V s (fw.allocatePool n s).2
  exitBootServices : ∀ k s, Drifts V s (fw.exitBootServices k s).2
  /-- `GetMemoryMap` succeeds when the buffer is large enough. -/
  status : ∀ n s, (fw.getMemoryMap n s).1.status =
    if V.stride.toNat * (V.memory (fw.getMemoryMap n s).2).length ≤ n.toNat then efiSuccess
    else efiBufferTooSmall
  mapSize : ∀ n s, (fw.getMemoryMap n s).1.mapSize.toNat =
    V.stride.toNat * (V.memory (fw.getMemoryMap n s).2).length
  descSize : ∀ n s, (fw.getMemoryMap n s).1.descSize = V.stride
  bytes : ∀ n s, (fw.getMemoryMap n s).1.status = efiSuccess →
    ∀ i (h : i < (V.memory (fw.getMemoryMap n s).2).length),
      EfiMemoryDescriptor.decode (fun k => (fw.getMemoryMap n s).1.bytes (i * V.stride.toNat + k)) =
        (V.memory (fw.getMemoryMap n s).2)[i]
  /-- `ExitBootServices` succeeds when its key is the key of the map at that moment. -/
  key : ∀ n s, (fw.exitBootServices (fw.getMemoryMap n s).1.mapKey (fw.getMemoryMap n s).2).1 =
      efiSuccess ↔
    V.changes (fw.exitBootServices (fw.getMemoryMap n s).1.mapKey (fw.getMemoryMap n s).2).2 =
      V.changes (fw.getMemoryMap n s).2

variable {fw} {V : FirmwareView σ}

theorem Drifts.refl (s : σ) : Drifts V s s := ⟨le_rfl, fun _ => rfl, Nat.le_add_right _ _⟩

theorem Drifts.trans {s s' s'' : σ} (h : Drifts V s s') (h' : Drifts V s' s'') :
    Drifts V s s'' := by
  have hle := h.changes
  have hle' := h'.changes
  refine ⟨hle.trans hle', fun heq => ?_, ?_⟩
  · rw [h'.memory (by omega), h.memory (by omega)]
  · have hlen := h.length
    have hlen' := h'.length
    omega

/-- What `exit_boot_services` leaves is the memory map of the machine. -/
structure MapOfMemory (V : FirmwareView σ) (s : σ) (map : EfiMemoryMap) : Prop where
  fits : map.Fits
  descriptors : map.descriptors = V.memory s
  mapSize : map.mapSize.toNat = map.descriptorCount.toNat * map.descriptorSize.toNat

/-- The map that `GetMemoryMap` stored, with the count that the source computes. -/
theorem Conforms.mapOfMemory (h : Conforms fw V) {n : UInt64} {s : σ}
    (hok : (fw.getMemoryMap n s).1.status = efiSuccess) {s' : σ}
    (hs' : V.memory s' = V.memory (fw.getMemoryMap n s).2) :
    let a := (fw.getMemoryMap n s).1
    MapOfMemory V s' ⟨a.bytes, a.mapSize, n, a.descSize, a.mapSize / a.descSize⟩ := by
  intro a
  have hstride : 40 ≤ V.stride.toNat := h.stride
  have hsize : a.mapSize.toNat = V.stride.toNat * (V.memory s').length := by
    rw [hs']
    exact h.mapSize n s
  have hdesc : a.descSize = V.stride := h.descSize n s
  have hcount : (a.mapSize / a.descSize).toNat = (V.memory s').length := by
    rw [UInt64.toNat_div, hdesc, hsize, Nat.mul_div_cancel_left _ (by omega)]
  -- the call succeeded, so the map fitted
  have hle : V.stride.toNat * (V.memory s').length ≤ n.toNat := by
    rw [hs']
    have hstatus := h.status n s
    rw [hok] at hstatus
    by_contra hlt
    rw [if_neg hlt] at hstatus
    cases hstatus
  refine ⟨⟨?_, ?_⟩, ?_, ?_⟩
  · rw [hdesc]
    exact h.stride
  · change (a.mapSize / a.descSize).toNat * a.descSize.toNat ≤ n.toNat
    rw [hcount, hdesc, Nat.mul_comm]
    exact hle
  · refine List.ext_getElem ?_ fun i hi hi' => ?_
    · rw [EfiMemoryMap.descriptors_length]
      exact hcount
    · have hbytes := h.bytes n s hok i (by rw [← hs']; exact hi')
      simp only [EfiMemoryMap.descriptors, List.getElem_map, List.getElem_range,
        EfiMemoryMap.memoryDescAt, hs']
      rw [← hbytes]
      simp only [hdesc, a]
  · change a.mapSize.toNat = (a.mapSize / a.descSize).toNat * a.descSize.toNat
    rw [hcount, hdesc, hsize, Nat.mul_comm]

/-- A map has descriptors, so it never fits an empty buffer. -/
theorem Conforms.firstStatus (h : Conforms fw V) (s : σ) :
    (fw.getMemoryMap 0 s).1.status = efiBufferTooSmall := by
  have hpos := List.length_pos_iff.2 (h.nonempty (fw.getMemoryMap 0 s).2)
  have hstride : 40 ≤ V.stride.toNat := h.stride
  have hbytes := Nat.mul_pos (show 0 < V.stride.toNat by omega) hpos
  rw [h.status, if_neg]
  exact Nat.not_le.2 hbytes

/-- An attempt that succeeds leaves the map at the moment of the exit. -/
theorem Conforms.exitAttempts_sound (h : Conforms fw V) {mapSize : UInt64} {n : Nat}
    {status : UInt64} (hn : status ≠ efiSuccess ∨ n ≠ 0) {s : σ} :
    (exitAttempts fw mapSize n status s).1 = efiSuccess →
      ∃ map, (exitAttempts fw mapSize n status s).2.1 = some map ∧
        MapOfMemory V (exitAttempts fw mapSize n status s).2.2 map := by
  induction n generalizing status s with
  | zero => exact fun hs => absurd hs (hn.resolve_right (· rfl))
  | succ n ih =>
    rw [exitAttempts_succ]
    by_cases hok : (fw.getMemoryMap mapSize s).1.status = efiSuccess
    · rw [if_neg (not_not.2 hok)]
      by_cases hexit : (fw.exitBootServices (fw.getMemoryMap mapSize s).1.mapKey
          (fw.getMemoryMap mapSize s).2).1 = efiSuccess
      · rw [if_pos hexit]
        have hsame := (h.exitBootServices _ _).memory ((h.key mapSize s).1 hexit)
        exact fun _ => ⟨_, rfl, h.mapOfMemory hok hsame⟩
      · rw [if_neg hexit]
        exact ih (.inl hexit)
    · rw [if_pos hok]
      exact fun hs => absurd hs hok

/-- **The kernel goes on with the memory map of the machine.** When `exit_boot_services` reports
success, the boot services have ended, and `out_map` holds the firmware's memory map at that very
moment, in a buffer that it fits. -/
theorem exitBootServices_sound (h : Conforms fw V) (s : σ)
    (hok : (exitBootServices fw s).1 = efiSuccess) :
    ∃ map, (exitBootServices fw s).2.1 = some map ∧
      MapOfMemory V (exitBootServices fw s).2.2 map := by
  revert hok
  rw [exitBootServices_eq]
  by_cases hsmall : (fw.getMemoryMap 0 s).1.status = efiBufferTooSmall
  · rw [if_neg (not_not.2 hsmall)]
    by_cases hpool : (fw.allocatePool ((fw.getMemoryMap 0 s).1.mapSize +
        (fw.getMemoryMap 0 s).1.descSize * 16) (fw.getMemoryMap 0 s).2).1 = efiSuccess
    · rw [if_neg (not_not.2 hpool)]
      exact h.exitAttempts_sound (.inr (by decide))
    · rw [if_pos hpool]
      exact fun hok => absurd hok hpool
  · exact fun _ => absurd (h.firstStatus s) hsmall

/-- The size that the buffer gets: room for 16 more descriptors. -/
theorem Conforms.poolSize (h : Conforms fw V) (s : σ) :
    ((fw.getMemoryMap 0 s).1.mapSize + (fw.getMemoryMap 0 s).1.descSize * 16).toNat =
      V.stride.toNat * ((V.memory (fw.getMemoryMap 0 s).2).length + 16) := by
  have hsmall := h.small (fw.getMemoryMap 0 s).2
  have hsize := h.mapSize 0 s
  rw [Nat.mul_add] at hsmall ⊢
  rw [h.descSize, UInt64.toNat_add, UInt64.toNat_mul, hsize]
  have h16 : (16 : UInt64).toNat = 16 := rfl
  rw [h16, Nat.mod_eq_of_lt (a := V.stride.toNat * 16) (by omega), Nat.mod_eq_of_lt (by omega)]

theorem Conforms.exitAttempts_drifts (h : Conforms fw V) (mapSize : UInt64) (n : Nat)
    (status : UInt64) (s : σ) : Drifts V s (exitAttempts fw mapSize n status s).2.2 := by
  induction n generalizing status s with
  | zero => exact .refl s
  | succ n ih =>
    have hmap := h.getMemoryMap mapSize s
    have hexit := hmap.trans (h.exitBootServices (fw.getMemoryMap mapSize s).1.mapKey _)
    rw [exitAttempts_succ]
    dsimp only
    split_ifs
    · exact hmap
    · exact hexit
    · exact hexit.trans (ih _ _)

/-- An attempt fails only when the map changed between its two calls, so `n` attempts survive
fewer than `n` changes. The buffer is large enough for 8 changes. -/
theorem Conforms.exitAttempts_succeeds (h : Conforms fw V) {s₀ s : σ} (hs : Drifts V s₀ s)
    {mapSize : UInt64} (hroom : V.stride.toNat * ((V.memory s₀).length + 16) ≤ mapSize.toNat)
    {n : Nat} {status : UInt64}
    (hlast : V.changes (exitAttempts fw mapSize n status s).2.2 ≤ V.changes s₀ + 8)
    (hfew : V.changes (exitAttempts fw mapSize n status s).2.2 < V.changes s + n) :
    (exitAttempts fw mapSize n status s).1 = efiSuccess := by
  induction n generalizing status s with
  | zero => exact absurd hfew (lt_irrefl _)
  | succ n ih =>
    have hmap := hs.trans (h.getMemoryMap mapSize s)
    have hcalls := h.exitBootServices (fw.getMemoryMap mapSize s).1.mapKey
      (fw.getMemoryMap mapSize s).2
    -- no more changes so far than in the whole call, so the map still fits the buffer
    have hreached : V.changes (fw.getMemoryMap mapSize s).2 ≤ V.changes s₀ + 8 := by
      refine Nat.le_trans ?_ hlast
      rw [exitAttempts_succ]
      dsimp only
      split_ifs
      · exact le_rfl
      · exact hcalls.changes
      · exact hcalls.changes.trans (h.exitAttempts_drifts _ _ _ _).changes
    have hok : (fw.getMemoryMap mapSize s).1.status = efiSuccess := by
      have hlen := hmap.length
      rw [h.status, if_pos]
      exact (Nat.mul_le_mul_left _ (by omega)).trans hroom
    rw [exitAttempts_succ, if_neg (not_not.2 hok)] at hlast hfew ⊢
    simp only at hlast hfew ⊢
    by_cases hexit : (fw.exitBootServices (fw.getMemoryMap mapSize s).1.mapKey
        (fw.getMemoryMap mapSize s).2).1 = efiSuccess
    · rw [if_pos hexit]
    · rw [if_neg hexit] at hlast hfew ⊢
      -- the key was refused, so one of the changes is used up
      have hchanged := mt (h.key mapSize s).2 hexit
      have hsince := (h.getMemoryMap mapSize s).changes
      have hbump := hcalls.changes
      exact ih (hmap.trans hcalls) hlast (by omega)

/-- **Seven changes do not keep the kernel from starting.** When there is memory for the buffer and
the firmware changes its map fewer than 8 times after it was first asked, `exit_boot_services` ends
the boot services, although the map may outgrow the buffer that it first asked for. -/
theorem exitBootServices_succeeds (h : Conforms fw V) (s : σ)
    (hpool : (fw.allocatePool ((fw.getMemoryMap 0 s).1.mapSize +
      (fw.getMemoryMap 0 s).1.descSize * 16) (fw.getMemoryMap 0 s).2).1 = efiSuccess)
    (hfew : V.changes (exitBootServices fw s).2.2 < V.changes (fw.getMemoryMap 0 s).2 + 8) :
    (exitBootServices fw s).1 = efiSuccess := by
  revert hfew
  rw [exitBootServices_eq, if_neg (not_not.2 (h.firstStatus s)), if_neg (not_not.2 hpool)]
  intro hfew
  have halloc := h.allocatePool ((fw.getMemoryMap 0 s).1.mapSize +
    (fw.getMemoryMap 0 s).1.descSize * 16) (fw.getMemoryMap 0 s).2
  have hsince := halloc.changes
  exact h.exitAttempts_succeeds halloc (h.poolSize s).ge (hfew.le.trans (by omega)) (by omega)

end Exit

/-! ### A firmware with a timer

Its timer allocates memory in the first call of `ExitBootServices`, so the first key is stale. -/

namespace TimerFirmware

/-- The map before and after the timer: the timer takes the last page but one. -/
def memory : Bool → List EfiMemoryDescriptor
  | false => [{ type := efiConventionalMemory, physicalStart := 0x1000, numberOfPages := 22 }]
  | true => [{ type := efiConventionalMemory, physicalStart := 0x1000, numberOfPages := 20 },
      { type := 4, physicalStart := 0x15000, numberOfPages := 1 },
      { type := efiConventionalMemory, physicalStart := 0x16000, numberOfPages := 1 }]

/-- The services, by whether the timer has fired. -/
def services : BootServices Bool where
  getMemoryMap n fired :=
    ({ status := if 40 * (memory fired).length ≤ n.toNat then efiSuccess else efiBufferTooSmall
       mapSize := UInt64.ofNat (40 * (memory fired).length)
       bytes := fun k => ((memory fired).getD (k / 40) {}).encode (k % 40)
       mapKey := if fired then 1 else 0
       descSize := 40 }, fired)
  allocatePool _ fired := (efiSuccess, fired)
  exitBootServices k fired :=
    (if fired ∧ k = 1 then efiSuccess else 0x8000000000000002, true)

def view : FirmwareView Bool := ⟨memory, Bool.toNat, 40⟩

theorem stored (fired : Bool) (i : Nat) (hi : i < (memory fired).length) :
    EfiMemoryDescriptor.decode (fun k =>
      ((memory fired).getD ((i * 40 + k) / 40) {}).encode ((i * 40 + k) % 40)) =
        (memory fired)[i] := by
  rw [← EfiMemoryDescriptor.decode_encode (memory fired)[i]]
  refine EfiMemoryDescriptor.decode_congr fun k hk => ?_
  have hk : k < 40 := hk
  have hdiv : (i * 40 + k) / 40 = i := by omega
  have hmod : (i * 40 + k) % 40 = k := by omega
  rw [hdiv, hmod, List.getD_eq_getElem?_getD, List.getElem?_eq_getElem hi, Option.getD_some]

theorem drifts (fired : Bool) : Drifts view fired true := by
  cases fired <;> exact ⟨by decide, by decide, by decide⟩

theorem key (fired : Bool) :
    (if fired ∧ (if fired then 1 else 0 : UInt64) = 1 then efiSuccess else 0x8000000000000002) =
      efiSuccess ↔ view.changes true = view.changes fired := by
  cases fired <;> decide

theorem conforms : Conforms services view where
  stride := by decide
  nonempty := by decide
  small := by decide
  getMemoryMap _ s := .refl s
  allocatePool _ s := .refl s
  exitBootServices _ := drifts
  status _ _ := rfl
  mapSize _ s := by cases s <;> rfl
  descSize _ _ := rfl
  bytes _ s _ i hi := stored s i hi
  key _ := key

/-- The map that the second attempt hands on. -/
def bootMap : EfiMemoryMap where
  bytes := fun k => ((memory true).getD (k / 40) {}).encode (k % 40)
  mapSize := 120
  mapCapacity := 680
  descriptorSize := 40
  descriptorCount := 3

theorem exit_eq : exitBootServices services false = (efiSuccess, some bootMap, true) := rfl

theorem exitBootServices_sound_timer :
    ∃ map, (exitBootServices services false).2.1 = some map ∧
      MapOfMemory view (exitBootServices services false).2.2 map :=
  exitBootServices_sound conforms false (by decide)

theorem exitBootServices_succeeds_timer : (exitBootServices services false).1 = efiSuccess :=
  exitBootServices_succeeds conforms false (by decide) (by decide)

end TimerFirmware

end VibeKernel

import VibeKernel.Boot.Firmware
import VibeKernel.Boot.LowCr3

/-!
# From the firmware to the identity map

`efi_main` hands the map of `exit_boot_services` on to `setup_kernel_paging`. The buffer was sized
for the map that the firmware had first, so what the page table pool needs of it depends on how
often the map changed in between. What the tables then map is said in terms of the firmware's own
map, whatever happened to the buffer.
-/

namespace VibeKernel

open Conc Num

/-- What UEFI says about a memory map: descriptors start at pages, none wraps around, and no two
describe the same byte. -/
structure WellFormed (descs : List EfiMemoryDescriptor) : Prop where
  aligned : ∀ d ∈ descs, 4096 ∣ d.physicalStart.toNat
  ends : ∀ d ∈ descs, d.endNat < 2 ^ 64
  disjoint : descs.Pairwise fun d d' => ∀ a, ¬ (d.Covers a ∧ d'.Covers a)

/-- A call that succeeds took its pages out of the map, and one that has room for a descriptor does
not spoil the map when it fails. -/
theorem poolSound_of_ok {map : EfiMemoryMap} {poolPages : UInt64} {info : PagingInfo}
    (hfits : map.Fits) (hends : ∀ d ∈ map.descriptors, d.endNat < 2 ^ 64) (hdisj : map.Disjoint)
    (hpool : poolPages ≠ 0)
    (hok : (selectPageTablePool map poolPages info).1 = true ∨ map.HasRoom) :
    PoolSound map (selectPageTablePool map poolPages info) := by
  cases hsel : choosePool poolPages map.descriptors 0 none with
  | none => exact absurd hsel (choosePool_ne_none hends 0 none)
  | some r =>
    cases r with
    | none =>
      rw [selectPageTablePool, hsel]
      exact ⟨rfl, rfl⟩
    | some c =>
      have hc := PoolChoice.of_choosePool hsel
      have hcall : selectPageTablePool map poolPages info = carvePool map poolPages info c := by
        rw [selectPageTablePool, hsel]
      have hends := carvePool_cases map poolPages info c
      obtain ⟨r, hr⟩ : ∃ r, carvePool map poolPages info c = r := ⟨_, rfl⟩
      rw [hcall] at hok ⊢
      rw [hr] at hok hends ⊢
      rcases hends with ⟨hexact, rfl⟩ | ⟨-, -, map', happ, rfl⟩ | ⟨-, hroom, rfl⟩
      · exact poolSound_of_exact hdisj hfits hpool hc hexact
      · exact poolSound_of_split hdisj hfits hpool hc happ
      · have hfalse : false = true := hok.resolve_right hroom
        cases hfalse

section Room

variable {σ : Type} {fw : BootServices σ} {V : FirmwareView σ}

theorem MapOfMemory.disjoint {s : σ} {map : EfiMemoryMap} (h : MapOfMemory V s map)
    (hwf : WellFormed (V.memory s)) : map.Disjoint := by
  have hpair := hwf.disjoint
  rw [← h.descriptors, List.pairwise_iff_getElem] at hpair
  have hget : ∀ i (hi : i < map.descriptors.length), map.descriptors[i] = map.memoryDescAt i := by
    simp [EfiMemoryMap.descriptors]
  intro i j hi hj hij a hboth
  rw [← map.descriptors_length] at hi hj
  rw [← hget i hi, ← hget j hj] at hboth
  rcases Nat.lt_or_gt_of_ne hij with hlt | hlt
  · exact hpair i j hi hj hlt a hboth
  · exact hpair j i hj hi hlt a hboth.symm

theorem Conforms.exitAttempts_buffer (h : Conforms fw V) {mapSize : UInt64} {n : Nat}
    {status : UInt64} {s : σ} {map : EfiMemoryMap}
    (hmap : (exitAttempts fw mapSize n status s).2.1 = some map) :
    map.mapCapacity = mapSize ∧ map.descriptorSize = V.stride := by
  induction n generalizing status s with
  | zero => cases hmap
  | succ n ih =>
    rw [exitAttempts_succ] at hmap
    dsimp only at hmap
    split_ifs at hmap
    · cases hmap
      exact ⟨rfl, h.descSize _ _⟩
    · exact ih hmap

/-- What the buffer holds room for, and how the firmware went on from the first question. -/
theorem exitBootServices_buffer (h : Conforms fw V) {s s' : σ} {map : EfiMemoryMap}
    (hexit : exitBootServices fw s = (efiSuccess, some map, s')) :
    map.mapCapacity.toNat = V.stride.toNat * ((V.memory (fw.getMemoryMap 0 s).2).length + 16) ∧
      map.descriptorSize = V.stride ∧ Drifts V (fw.getMemoryMap 0 s).2 s' := by
  rw [exitBootServices_eq, if_neg (not_not.2 (h.firstStatus s))] at hexit
  dsimp only at hexit
  split_ifs at hexit with hpool
  · cases (Prod.mk.inj (Prod.mk.inj hexit).2).1
  · obtain ⟨hcap, hstride⟩ := h.exitAttempts_buffer (congrArg (·.2.1) hexit)
    refine ⟨by rw [hcap, h.poolSize], hstride, ?_⟩
    have hlast := congrArg (·.2.2) hexit
    have hdrift := hlast ▸ h.exitAttempts_drifts _ _ _ _
    exact (h.allocatePool _ _).trans hdrift

theorem mapOfMemory_of_exit (h : Conforms fw V) {s s' : σ} {map : EfiMemoryMap}
    (hexit : exitBootServices fw s = (efiSuccess, some map, s')) : MapOfMemory V s' map := by
  rw [exitBootServices_eq, if_neg (not_not.2 (h.firstStatus s))] at hexit
  dsimp only at hexit
  split_ifs at hexit with hpool
  · cases (Prod.mk.inj (Prod.mk.inj hexit).2).1
  · obtain ⟨map', hmap', hof⟩ := h.exitAttempts_sound (.inr (by decide)) (congrArg (·.1) hexit)
    rw [hexit] at hmap' hof
    obtain rfl := Option.some.inj hmap'
    exact hof

/-- Each of at most 7 changes adds two descriptors, and the buffer has room for 16 more. -/
theorem hasRoom_of_exit (h : Conforms fw V) {s s' : σ} {map : EfiMemoryMap}
    (hexit : exitBootServices fw s = (efiSuccess, some map, s'))
    (hfew : V.changes s' < V.changes (fw.getMemoryMap 0 s).2 + 8) : map.HasRoom := by
  obtain ⟨hcap, hstride, hdrift⟩ := exitBootServices_buffer h hexit
  have hof := mapOfMemory_of_exit h hexit
  have hlen := hdrift.length
  have hcount : map.descriptorCount.toNat = (V.memory s').length := by
    rw [← hof.descriptors, map.descriptors_length]
  have hbound := Nat.mul_le_mul_left V.stride.toNat (show map.descriptorCount.toNat + 1 ≤
    (V.memory (fw.getMemoryMap 0 s).2).length + 16 by omega)
  have hlt := map.mapCapacity.toNat_lt
  rw [EfiMemoryMap.HasRoom, UInt64.le_iff_toNat_le, toNat_add_of_lt] <;>
    rw [hof.fits.used, hstride] <;> rw [Nat.mul_add, Nat.mul_comm] at hbound <;> omega

/-- **The page table pool never finds the buffer full.** When the firmware changed its map fewer
than 8 times after it was first asked, `select_page_table_pool` either takes its pages out of the
map or leaves the map as the firmware had it. -/
theorem exitBootServices_poolSound (h : Conforms fw V) (s s' : σ) (map : EfiMemoryMap)
    (hexit : exitBootServices fw s = (efiSuccess, some map, s'))
    (hfew : V.changes s' < V.changes (fw.getMemoryMap 0 s).2 + 8)
    (hwf : WellFormed (V.memory s')) (poolPages : UInt64) (hpool : poolPages ≠ 0)
    (info : PagingInfo) : PoolSound map (selectPageTablePool map poolPages info) := by
  have hof := mapOfMemory_of_exit h hexit
  exact poolSound_of_ok hof.fits (hof.descriptors ▸ hwf.ends) (hof.disjoint hwf) hpool
    (.inr (hasRoom_of_exit h hexit hfew))

end Room

/-! ## What the tables map -/

/-- The pool that a successful call left its tables in was taken from the map it was given. -/
theorem selected_of_run {la57 : Bool} {map map' : EfiMemoryMap} {fb : Framebuffer}
    {st st' : PagingState} (h : (setupKernelPaging la57 map fb).run st = ((true, map'), st')) :
    ∃ maxEnd info', maxIdentityEnd map fb = some maxEnd ∧
      selectPageTablePool map (estimateIdentityPageTablePages maxEnd) { maxIdentityEnd := maxEnd }
        = (true, map', info') ∧
      st'.info.poolEnd = info'.poolEnd ∧ st'.info.reservedPages = info'.reservedPages := by
  cases la57 with
  | true => simp [setupKernelPaging, pagingFails] at h
  | false =>
    cases hmax : maxIdentityEnd map fb with
    | none => simp [setupKernelPaging, hmax, pagingFails] at h
    | some maxEnd =>
      obtain ⟨⟨ok, map₁, info'⟩, hsel⟩ : ∃ r, selectPageTablePool map
        (estimateIdentityPageTablePages maxEnd) { maxIdentityEnd := maxEnd } = r := ⟨_, rfl⟩
      cases ok with
      | false => simp [setupKernelPaging, hmax, hsel] at h
      | true =>
        have hkept := run_of_wp (mapEverything map₁ fb) _ (mapEverything_pool info'
          ⟨info', st.mem⟩ rfl)
        simp only [setupKernelPaging, hmax, hsel, Prog.run_bind, Prog.run_store, Prog.run_swap,
          Prog.run_pure, if_true, if_false, Bool.false_eq_true, Prod.mk.injEq] at h
        obtain ⟨⟨hok, rfl⟩, rfl⟩ := h
        exact ⟨maxEnd, info', rfl, hsel, (hkept hok).2⟩

/-- The byte at `a` is described, with type `t`. -/
def Described (descs : List EfiMemoryDescriptor) (a : Nat) (t : UInt32) : Prop :=
  ∃ d ∈ descs, d.Covers a ∧ d.type = t

theorem typeAt_iff_described {map : EfiMemoryMap} {a : Nat} {t : UInt32} :
    map.TypeAt a t ↔ Described map.descriptors a t := by
  simp [EfiMemoryMap.TypeAt, Described, EfiMemoryMap.descriptors]

theorem touches_iff {d : EfiMemoryDescriptor} {p : Nat} :
    d.Touches p ↔ ∃ a, d.Covers a ∧ a / 4096 = p := by
  simp [EfiMemoryDescriptor.Touches, Touches4k, EfiMemoryDescriptor.Covers,
    EfiMemoryDescriptor.endNat, and_assoc]

theorem touched_iff {descs : List EfiMemoryDescriptor} {p : Nat} :
    (∃ d ∈ descs, d.Touches p) ↔ ∃ a, (∃ t, Described descs a t) ∧ a / 4096 = p := by
  simp only [touches_iff, Described]
  constructor
  · rintro ⟨d, hd, a, hcov, hp⟩
    exact ⟨a, ⟨d.type, d, hd, hcov, rfl⟩, hp⟩
  · rintro ⟨a, ⟨-, d, hd, hcov, -⟩, hp⟩
    exact ⟨d, hd, a, hcov, hp⟩

/-- `EfiMemoryMappedIO` or `EfiMemoryMappedIOPortSpace`. -/
def mmioType (t : UInt32) : Prop := t = efiMemoryMappedIO ∨ t = efiMemoryMappedIOPortSpace

theorem mmioTouched_iff {descs : List EfiMemoryDescriptor} {p : Nat} :
    (∃ d ∈ descs, d.IsMmio ∧ d.Touches p) ↔
      ∃ a, (∃ t, mmioType t ∧ Described descs a t) ∧ a / 4096 = p := by
  simp only [touches_iff, Described]
  constructor
  · rintro ⟨d, hd, hmmio, a, hcov, hp⟩
    exact ⟨a, ⟨d.type, hmmio, d, hd, hcov, rfl⟩, hp⟩
  · rintro ⟨a, ⟨t, hmmio, d, hd, hcov, rfl⟩, hp⟩
    exact ⟨d, hd, hmmio, a, hcov, hp⟩

/-- Carving the pool changes neither which bytes are described nor which are memory-mapped I/O. -/
theorem EfiMemoryMap.Carved.mmio_iff {map map' : EfiMemoryMap} {lo hi : Nat}
    (h : map.Carved map' lo hi) {a : Nat} {t : UInt32} (ht : mmioType t) :
    map'.TypeAt a t ↔ map.TypeAt a t := by
  by_cases hin : lo ≤ a ∧ a < hi
  · obtain ⟨i, hi', htype, hcov⟩ := h.pool
    have hnot : ∀ u, u = efiConventionalMemory ∨ u = efiLoaderData → ¬ mmioType u := by
      rintro u (rfl | rfl) (hu | hu) <;> cases hu
    refine iff_of_false (fun hmap => ?_) fun hmap => ?_
    · have hload := (h.disjoint.typeAt_iff hi' ((hcov a).2 hin)).1 hmap
      exact hnot t (.inr (hload.trans htype)) ht
    · exact hnot t (.inl ((h.was a t hin.1 hin.2).1 hmap)) ht
  · exact h.kept a t hin

/-- What the page tables of `s` are to the memory map `descs`: they find every page with a byte that
`descs` or the framebuffer describes, at its own address, and no other; and they stand in memory
that was free. -/
structure FirmwareMapped (descs : List EfiMemoryDescriptor) (fb : Framebuffer) (s : PagingState) :
    Prop where
  translated : ∀ a : UInt64, 4096 ∣ a.toNat → ((walk s.mem s.info.cr3 a).isSome ↔
    (∃ d ∈ descs, d.Touches (a.toNat / 4096)) ∨ fb.Touches (a.toNat / 4096))
  identity : ∀ a : UInt64, 4096 ∣ a.toNat → ∀ tr, walk s.mem s.info.cr3 a = some tr →
    tr.entry &&& pteAddrMask = a ∧ tr.writable = true ∧ (tr.entry &&& ptePcd ≠ 0 ↔
      (∃ d ∈ descs, d.IsMmio ∧ d.Touches (a.toNat / 4096)) ∨ fb.Touches (a.toNat / 4096))
  tables : ∀ a, s.info.poolEnd.toNat ≤ a + s.info.reservedPages.toNat * 4096 →
    a < s.info.poolEnd.toNat → Described descs a efiConventionalMemory

/-- **The page tables map the firmware's memory.** Whatever `exit_boot_services` and the carving of
the pool did to the buffer, a successful `setup_kernel_paging` maps exactly the memory that the
firmware described when the boot services ended. -/
theorem firmwareMapped_of_setup {σ : Type} {fw : BootServices σ} {V : FirmwareView σ}
    (h : Conforms fw V) (s s' : σ) (map : EfiMemoryMap)
    (hexit : exitBootServices fw s = (efiSuccess, some map, s')) (hwf : WellFormed (V.memory s'))
    (la57 : Bool) (fb : Framebuffer) (st st' : PagingState) (map' : EfiMemoryMap)
    (hsetup : (setupKernelPaging la57 map fb).run st = ((true, map'), st')) :
    FirmwareMapped (V.memory s') fb st' := by
  have hof := mapOfMemory_of_exit h hexit
  have haligned := hof.descriptors ▸ hwf.aligned
  have hexact := exactIdentityMap_of_run hof.fits (pagingPoolAligned_of_aligned haligned fb) hsetup
  obtain ⟨maxEnd, info', hmax, hsel, hend, hreserved⟩ := selected_of_run hsetup
  have hbelow := maxIdentityEnd_spec hmax
  have hselected := selectPageTablePool_selected hof.fits (EfiMemoryMap.poolAligned_of_aligned haligned _)
    hbelow.descriptors hsel
  have hpool : estimateIdentityPageTablePages maxEnd ≠ 0 := by
    have hest := tableBound_le_estimate hbelow.limit
    rintro h0
    rw [h0, UInt64.toNat_zero] at hest
    omega
  have hsound := poolSound_of_ok hof.fits (hof.descriptors ▸ hwf.ends) (hof.disjoint hwf) hpool
    (.inl (congrArg Prod.fst hsel))
  rw [hsel] at hsound
  -- Carving changes the types in the pool only, and both types are cached memory: which pages
  -- are described, and which of them are I/O, is as in the firmware's map.
  have hcarved : map.Carved map' info'.poolStart.toNat info'.poolEnd.toNat := hsound
  have htouched : ∀ p, (∃ d ∈ map'.descriptors, d.Touches p) ↔
      ∃ d ∈ V.memory s', d.Touches p := fun p => by
    simp only [touched_iff, ← typeAt_iff_described, hcarved.described]
    simp only [typeAt_iff_described, hof.descriptors]
  have hmmio : ∀ p, (∃ d ∈ map'.descriptors, d.IsMmio ∧ d.Touches p) ↔
      ∃ d ∈ V.memory s', d.IsMmio ∧ d.Touches p := fun p => by
    simp only [mmioTouched_iff, ← typeAt_iff_described]
    refine exists_congr fun a => and_congr_left fun _ => exists_congr fun t =>
      and_congr_right fun ht => ?_
    rw [hcarved.mmio_iff ht, typeAt_iff_described, hof.descriptors]
  refine ⟨fun a ha => ?_, fun a ha tr htr => ?_, fun a hlo hhi => ?_⟩
  · rw [hexact.translated a ha, InMap, htouched]
  · obtain ⟨haddr, -, hwritable, -, hpcd⟩ := hexact.identity a ha tr htr
    refine ⟨haddr, hwritable, ?_⟩
    rw [hpcd, InMapUncached, hmmio]
  · have hpages : info'.reservedPages = estimateIdentityPageTablePages maxEnd := by
      obtain ⟨c, rfl⟩ := hselected.info
      rfl
    have hsize := hselected.pool
    rw [hend, hreserved, hpages] at hlo
    rw [hend] at hhi
    rw [← hof.descriptors, ← typeAt_iff_described]
    exact (hcarved.was a _ (by omega) hhi).2 rfl

/-! ### With the firmware that has a timer -/

namespace TimerFirmware

theorem wellFormed : WellFormed (memory true) where
  aligned := by decide
  ends := by decide
  disjoint := by
    have hapart : ∀ d d' : EfiMemoryDescriptor, d.endNat ≤ d'.physicalStart.toNat →
        ∀ a, ¬ (d.Covers a ∧ d'.Covers a) := fun d d' hle a ⟨⟨_, hd⟩, hd', _⟩ => by omega
    refine List.Pairwise.imp (hapart _ _) ?_
    decide

theorem exitBootServices_poolSound_timer :
    PoolSound bootMap (selectPageTablePool bootMap 20 {}) :=
  exitBootServices_poolSound conforms false true bootMap exit_eq (by decide) wellFormed 20
    (by decide) {}

/-- `setup_kernel_paging` on that map, from zeroed memory. -/
def paging : (Bool × EfiMemoryMap) × PagingState :=
  (setupKernelPaging false bootMap noFramebuffer).run ⟨{}, fun _ => 0⟩

theorem paging_succeeds : paging.1.1 = true := by decide +kernel

theorem paging_eq : paging = ((true, paging.1.2), paging.2) := by
  have hsplit : ∀ r : (Bool × EfiMemoryMap) × PagingState, r.1.1 = true →
      r = ((true, r.1.2), r.2) := by
    rintro ⟨⟨ok, map⟩, s⟩ rfl
    rfl
  exact hsplit _ paging_succeeds

theorem firmwareMapped_of_setup_timer : FirmwareMapped (memory true) noFramebuffer paging.2 :=
  firmwareMapped_of_setup conforms false true bootMap exit_eq wellFormed false noFramebuffer
    ⟨{}, fun _ => 0⟩ paging.2 paging.1.2 paging_eq

end TimerFirmware

end VibeKernel

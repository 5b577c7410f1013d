import VibeKernel.Boot.PagingErrors

/-!
# Drawing

The functions that write pixels, as the stores they make, and the pages those stores hit. A store is the
address of a pixel and its colour.

`framebuffer_size_bytes` multiplies in 64 bits. If the mode set no size and the product does not
fit, fewer pages are mapped than the screen has.
-/

namespace VibeKernel

open Conc Num

/-- `framebuffer_t`, less the pixel format. -/
structure Display extends Framebuffer where
  width : UInt32

/-- A store of one pixel. -/
abbrev PixelStore := UInt64 × UInt32

/-- `&fb->base[(UINTN)y * fb->stride + x]`. -/
def pixelAddr (fb : Display) (x y : UInt32) : UInt64 :=
  fb.base + 4 * (y.toUInt64 * fb.stride.toUInt64 + x.toUInt64)

/-- `put_pixel`. -/
def putPixel (fb : Display) (x y c : UInt32) : List PixelStore :=
  if x < fb.width ∧ y < fb.height then [(pixelAddr fb x y, c)] else []

/-- `for (UINT32 i = 0; i < n; i++)`. -/
def forUInt32 (n : UInt32) (f : UInt32 → List PixelStore) : List PixelStore :=
  (List.range n.toNat).flatMap fun i => f (UInt32.ofNat i)

/-- `fill_rect`. -/
def fillRect (fb : Display) (x y w h c : UInt32) : List PixelStore :=
  forUInt32 h fun yy => forUInt32 w fun xx => putPixel fb (x + xx) (y + yy) c

/-- `clear_screen`. -/
def clearScreen (fb : Display) (c : UInt32) : List PixelStore :=
  forUInt32 fb.height fun y => forUInt32 fb.width fun x => [(pixelAddr fb x y, c)]

/-! ## Characters -/

/-- The rows of a character. -/
abbrev Glyph := List UInt8

/-- The characters that `glyph_row` knows. -/
def glyphs : List (Char × Glyph) :=
  [('0', [14, 17, 19, 21, 25, 17, 14]),
   ('1', [4, 12, 4, 4, 4, 4, 14]),
   ('2', [14, 17, 1, 2, 4, 8, 31]),
   ('3', [30, 1, 1, 14, 1, 1, 30]),
   ('4', [2, 6, 10, 18, 31, 2, 2]),
   ('5', [31, 16, 16, 30, 1, 17, 14]),
   ('6', [6, 8, 16, 30, 17, 17, 14]),
   ('7', [31, 1, 2, 4, 8, 8, 8]),
   ('8', [14, 17, 17, 14, 17, 17, 14]),
   ('9', [14, 17, 17, 15, 1, 2, 12]),
   ('A', [14, 17, 17, 31, 17, 17, 17]),
   ('B', [30, 17, 17, 30, 17, 17, 30]),
   ('C', [14, 17, 16, 16, 16, 17, 14]),
   ('D', [30, 17, 17, 17, 17, 17, 30]),
   ('E', [31, 16, 16, 30, 16, 16, 31]),
   ('F', [31, 16, 16, 30, 16, 16, 16]),
   ('G', [14, 17, 16, 23, 17, 17, 15]),
   ('H', [17, 17, 17, 31, 17, 17, 17]),
   ('I', [14, 4, 4, 4, 4, 4, 14]),
   ('J', [7, 2, 2, 2, 18, 18, 12]),
   ('K', [17, 18, 20, 24, 20, 18, 17]),
   ('L', [16, 16, 16, 16, 16, 16, 31]),
   ('M', [17, 27, 21, 21, 17, 17, 17]),
   ('N', [17, 25, 21, 19, 17, 17, 17]),
   ('O', [14, 17, 17, 17, 17, 17, 14]),
   ('P', [30, 17, 17, 30, 16, 16, 16]),
   ('Q', [14, 17, 17, 17, 21, 18, 13]),
   ('R', [30, 17, 17, 30, 20, 18, 17]),
   ('S', [15, 16, 16, 14, 1, 1, 30]),
   ('T', [31, 4, 4, 4, 4, 4, 4]),
   ('U', [17, 17, 17, 17, 17, 17, 14]),
   ('V', [17, 17, 17, 17, 17, 10, 4]),
   ('W', [17, 17, 17, 21, 21, 21, 10]),
   ('X', [17, 17, 10, 4, 10, 17, 17]),
   ('Y', [17, 17, 10, 4, 4, 4, 4]),
   ('Z', [31, 1, 2, 4, 8, 16, 31]),
   (':', [0, 4, 4, 0, 4, 4, 0]),
   ('.', [0, 0, 0, 0, 0, 12, 12]),
   (',', [0, 0, 0, 0, 0, 4, 8]),
   ('-', [0, 0, 0, 31, 0, 0, 0]),
   ('_', [0, 0, 0, 0, 0, 0, 31]),
   ('/', [1, 2, 2, 4, 8, 8, 16]),
   ('(', [2, 4, 8, 8, 8, 4, 2]),
   (')', [8, 4, 2, 2, 2, 4, 8]),
   ('+', [0, 4, 4, 31, 4, 4, 0]),
   ('@', [14, 17, 23, 21, 23, 16, 14]),
   (' ', [0, 0, 0, 0, 0, 0, 0])]

/-- `g` in `glyph_row` after the `switch`. It is `static`, so an unknown character is shown as the one
before it. -/
def selectGlyph (g : Glyph) (c : UInt8) : Glyph :=
  let c := if 97 ≤ c ∧ c ≤ 122 then c - 97 + 65 else c
  (glyphs.lookup (Char.ofNat c.toNat)).getD g

/-- `draw_char`, from the `g` that the calls before it left. -/
def drawChar (g : Glyph) (fb : Display) (x y : UInt32) (ch : UInt8) (fg bg scale : UInt32) :
    List PixelStore :=
  let g := selectGlyph g ch
  fillRect fb x y (6 * scale) (8 * scale) bg ++
    (List.range 7).flatMap fun row =>
      let bits := (g.getD row 0).toUInt32
      (List.range 5).flatMap fun col =>
        if bits &&& (1 <<< (4 - UInt32.ofNat col)) ≠ 0 then
          fillRect fb (x + UInt32.ofNat col * scale) (y + UInt32.ofNat row * scale) scale scale fg
        else []

/-! ## The bytes they write -/

/-- A byte of one of the pixels. -/
def Writes (stores : List PixelStore) (a : UInt64) : Prop :=
  ∃ p ∈ stores, ∃ k : UInt64, k < 4 ∧ a = p.1 + k

/-- Some drawing function can write the byte at `a`. -/
def CanWrite (fb : Display) (a : UInt64) : Prop :=
  (∃ c, Writes (clearScreen fb c) a) ∨
  (∃ x y c, Writes (putPixel fb x y c) a) ∨
  (∃ x y w h c, Writes (fillRect fb x y w h c) a) ∨
  ∃ g x y ch fg bg scale, Writes (drawChar g fb x y ch fg bg scale) a

/-- Every byte that can be drawn to is in a page of the tables. -/
def DrawsMapped (fb : Display) (s : PagingState) : Prop :=
  ∀ a, CanWrite fb a → (walk s.mem s.info.cr3 (alignDown4k a)).isSome

section Writes

variable {fb : Display} {x y w h c : UInt32} {p : PixelStore}

/-- The store of a pixel of the screen. -/
def OnScreen (fb : Display) (p : PixelStore) : Prop :=
  ∃ x y, x < fb.width ∧ y < fb.height ∧ p.1 = pixelAddr fb x y

theorem onScreen_of_putPixel (hp : p ∈ putPixel fb x y c) : OnScreen fb p := by
  unfold putPixel at hp
  split at hp
  · rename_i hxy
    obtain rfl := List.mem_singleton.1 hp
    exact ⟨x, y, hxy.1, hxy.2, rfl⟩
  · cases hp

theorem mem_forUInt32 {n : UInt32} {f : UInt32 → List PixelStore} (hp : p ∈ forUInt32 n f) :
    ∃ i, i < n ∧ p ∈ f i := by
  obtain ⟨i, hi, hp⟩ := List.mem_flatMap.1 hp
  have hi := List.mem_range.1 hi
  have hlt := n.toNat_lt
  refine ⟨UInt32.ofNat i, ?_, hp⟩
  rw [UInt32.lt_iff_toNat_lt, UInt32.toNat_ofNat', Nat.mod_eq_of_lt (by omega)]
  exact hi

theorem onScreen_of_fillRect (hp : p ∈ fillRect fb x y w h c) : OnScreen fb p := by
  obtain ⟨yy, -, hp⟩ := mem_forUInt32 hp
  obtain ⟨xx, -, hp⟩ := mem_forUInt32 hp
  exact onScreen_of_putPixel hp

theorem onScreen_of_clearScreen (hp : p ∈ clearScreen fb c) : OnScreen fb p := by
  obtain ⟨y, hy, hp⟩ := mem_forUInt32 hp
  obtain ⟨x, hx, hp⟩ := mem_forUInt32 hp
  obtain rfl := List.mem_singleton.1 hp
  exact ⟨x, y, hx, hy, rfl⟩

theorem onScreen_of_drawChar {g : Glyph} {ch : UInt8} {fg bg scale : UInt32}
    (hp : p ∈ drawChar g fb x y ch fg bg scale) : OnScreen fb p := by
  rcases List.mem_append.1 hp with hp | hp
  · exact onScreen_of_fillRect hp
  · obtain ⟨row, -, hp⟩ := List.mem_flatMap.1 hp
    obtain ⟨col, -, hp⟩ := List.mem_flatMap.1 hp
    split at hp
    · exact onScreen_of_fillRect hp
    · cases hp

/-- They write the pixels of the screen, and nothing else. -/
theorem canWrite_iff {a : UInt64} : CanWrite fb a ↔
    ∃ x y, x < fb.width ∧ y < fb.height ∧ ∃ k : UInt64, k < 4 ∧ a = pixelAddr fb x y + k := by
  have hout : ∀ {stores : List PixelStore}, (∀ p ∈ stores, OnScreen fb p) → Writes stores a →
      ∃ x y, x < fb.width ∧ y < fb.height ∧ ∃ k : UInt64, k < 4 ∧ a = pixelAddr fb x y + k := by
    rintro stores hstores ⟨p, hp, k, hk, rfl⟩
    obtain ⟨x, y, hx, hy, hpix⟩ := hstores p hp
    exact ⟨x, y, hx, hy, k, hk, by rw [hpix]⟩
  constructor
  · rintro (⟨c, hw⟩ | ⟨x, y, c, hw⟩ | ⟨x, y, w, h, c, hw⟩ | ⟨g, x, y, ch, fg, bg, scale, hw⟩)
    · exact hout (fun _ => onScreen_of_clearScreen) hw
    · exact hout (fun _ => onScreen_of_putPixel) hw
    · exact hout (fun _ => onScreen_of_fillRect) hw
    · exact hout (fun _ => onScreen_of_drawChar) hw
  · rintro ⟨x, y, hx, hy, k, hk, rfl⟩
    refine Or.inr (Or.inl ⟨x, y, 0, (pixelAddr fb x y, 0), ?_, k, hk, rfl⟩)
    rw [putPixel, if_pos ⟨hx, hy⟩]
    exact List.mem_singleton_self _

end Writes

/-! ## The pages they hit -/

/-- The bytes of the screen, as exact numbers. -/
def Framebuffer.exactBytes (fb : Framebuffer) : Nat := fb.stride.toNat * fb.height.toNat * 4

section Mapped

variable {map map' : EfiMemoryMap} {fb : Display} {s s' : PagingState} {la57 : Bool}

theorem maxIdentityEnd_of_run {fb : Framebuffer}
    (h : (setupKernelPaging la57 map fb).run s = ((true, map'), s')) :
    ∃ maxEnd, maxIdentityEnd map fb = some maxEnd := by
  cases hmax : maxIdentityEnd map fb with
  | some maxEnd => exact ⟨maxEnd, rfl⟩
  | none =>
    cases la57 <;> simp [setupKernelPaging, hmax, pagingFails] at h

theorem exactBytes_offset {x y : UInt32} (hx : x < fb.width) (hy : y < fb.height)
    (hwidth : fb.width ≤ fb.stride) :
    4 * (y.toNat * fb.stride.toNat + x.toNat) + 4 ≤ fb.exactBytes := by
  have hx := UInt32.lt_iff_toNat_lt.1 hx
  have hy := UInt32.lt_iff_toNat_lt.1 hy
  have hw := UInt32.le_iff_toNat_le.1 hwidth
  have hrows : (y.toNat + 1) * fb.stride.toNat ≤ fb.height.toNat * fb.stride.toNat :=
    Nat.mul_le_mul_right _ hy
  rw [Nat.add_mul, Nat.one_mul] at hrows
  rw [Framebuffer.exactBytes, Nat.mul_comm fb.stride.toNat]
  omega

/-- `framebuffer_size_bytes` without wrap-around. -/
theorem framebufferSizeBytes_toNat {fb : Framebuffer} (hsize : fb.size = 0) :
    (framebufferSizeBytes fb).toNat = fb.exactBytes % 2 ^ 64 := by
  rw [framebufferSizeBytes, if_neg (not_not.2 hsize), UInt64.toNat_mul, UInt64.toNat_mul,
    UInt32.toNat_toUInt64, UInt32.toNat_toUInt64, Framebuffer.exactBytes,
    show (4 : UInt64).toNat = 4 from rfl, Nat.mod_mul_mod]

theorem exactBytes_le (hsize : fb.size = 0 ∨ fb.exactBytes ≤ fb.size.toNat)
    (hfit : fb.size ≠ 0 ∨ fb.exactBytes < 2 ^ 64) :
    fb.exactBytes ≤ (framebufferSizeBytes fb.toFramebuffer).toNat := by
  by_cases h0 : fb.size = 0
  · have hlt := hfit.resolve_left (not_not.2 h0)
    rw [framebufferSizeBytes_toNat h0, Nat.mod_eq_of_lt hlt]
  · rw [framebufferSizeBytes, if_pos h0]
    exact hsize.resolve_left h0

/-- A pixel of a screen that is mapped to its end. -/
theorem walk_pixel (hexact : ExactIdentityMap map' fb.toFramebuffer s') {maxEnd : UInt64}
    (hmax : maxIdentityEnd map fb.toFramebuffer = some maxEnd) (hwidth : fb.width ≤ fb.stride)
    (hbytes : fb.exactBytes ≤ (framebufferSizeBytes fb.toFramebuffer).toNat) {x y : UInt32}
    (hx : x < fb.width) (hy : y < fb.height) {k : UInt64} (hk : k < 4) :
    (walk s'.mem s'.info.cr3 (alignDown4k (pixelAddr fb x y + k))).isSome := by
  have hbelow := maxIdentityEnd_spec hmax
  have hend := hbelow.framebuffer
  have hlimit := hbelow.limit
  have hoff := exactBytes_offset hx hy hwidth
  have hk : k.toNat < 4 := UInt64.lt_iff_toNat_lt.1 hk
  -- the screen ends below the limit, so nothing wraps in the address of a pixel
  have hmul : (y.toUInt64 * fb.stride.toUInt64).toNat = y.toNat * fb.stride.toNat := by
    rw [toNat_mul_of_lt, UInt32.toNat_toUInt64, UInt32.toNat_toUInt64]
    rw [UInt32.toNat_toUInt64, UInt32.toNat_toUInt64]
    omega
  have hindex : (y.toUInt64 * fb.stride.toUInt64 + x.toUInt64).toNat
      = y.toNat * fb.stride.toNat + x.toNat := by
    rw [toNat_add_of_lt, hmul, UInt32.toNat_toUInt64]
    rw [hmul, UInt32.toNat_toUInt64]
    omega
  have hfour : (4 * (y.toUInt64 * fb.stride.toUInt64 + x.toUInt64)).toNat
      = 4 * (y.toNat * fb.stride.toNat + x.toNat) := by
    rw [toNat_mul_of_lt, hindex] <;> rw [show (4 : UInt64).toNat = 4 from rfl]
    rw [hindex]
    omega
  have haddr : (pixelAddr fb x y).toNat
      = fb.base.toNat + 4 * (y.toNat * fb.stride.toNat + x.toNat) := by
    rw [pixelAddr, toNat_add_of_lt, hfour]
    rw [hfour]
    omega
  have hbyte : (pixelAddr fb x y + k).toNat
      = fb.base.toNat + 4 * (y.toNat * fb.stride.toNat + x.toNat) + k.toNat := by
    rw [toNat_add_of_lt, haddr]
    rw [haddr]
    omega
  have hpage := alignDown4k_toNat (pixelAddr fb x y + k)
  rw [hexact.translated _ ⟨_, hpage.trans (Nat.mul_comm _ _)⟩, hpage,
    Nat.mul_div_cancel _ (by decide)]
  exact Or.inr ⟨_, by omega, by omega, rfl⟩

/-- If the bytes of the screen do not fit in 64 bits, some row of it starts above everything that can
be mapped. -/
theorem exists_walk_pixel_eq_none (s : PagingState) (hbase : fb.base.toNat ≤ 2 ^ 47)
    (hwrap : 2 ^ 64 ≤ fb.exactBytes) :
    ∃ y, y < fb.height ∧ walk s.mem s.info.cr3 (alignDown4k (pixelAddr fb 0 y)) = none := by
  have hstride := fb.stride.toNat_lt
  have hheight := fb.height.toNat_lt
  unfold Framebuffer.exactBytes at hwrap
  have hpos : 0 < fb.stride.toNat := by
    refine Nat.pos_of_ne_zero fun h0 => ?_
    rw [h0] at hwrap
    omega
  -- the first row at 2^47 or above
  obtain ⟨q, hq⟩ : ∃ q, q = (2 ^ 47 - fb.base.toNat + (4 * fb.stride.toNat - 1)) / (4 * fb.stride.toNat) :=
    ⟨_, rfl⟩
  have hdiv := Nat.div_add_mod (2 ^ 47 - fb.base.toNat + (4 * fb.stride.toNat - 1)) (4 * fb.stride.toNat)
  have hmod := Nat.mod_lt (2 ^ 47 - fb.base.toNat + (4 * fb.stride.toNat - 1))
    (show 0 < 4 * fb.stride.toNat by omega)
  rw [← hq] at hdiv
  have hrow : 4 * fb.stride.toNat * q = 4 * (q * fb.stride.toNat) := by ring
  have hlow : 2 ^ 47 ≤ fb.base.toNat + 4 * (q * fb.stride.toNat) := by omega
  have hhigh : fb.base.toNat + 4 * (q * fb.stride.toNat) < 2 ^ 47 + 2 ^ 34 := by omega
  have hqlt : q < fb.height.toNat := by
    by_contra hge
    have hmul := Nat.mul_le_mul_left fb.stride.toNat (Nat.not_lt.1 hge)
    have hcomm := Nat.mul_comm fb.stride.toNat q
    omega
  have hy : (UInt32.ofNat q).toNat = q := by
    rw [UInt32.toNat_ofNat', Nat.mod_eq_of_lt (by omega)]
  have hmul : ((UInt32.ofNat q).toUInt64 * fb.stride.toUInt64).toNat = q * fb.stride.toNat := by
    rw [toNat_mul_of_lt, UInt32.toNat_toUInt64, UInt32.toNat_toUInt64, hy]
    rw [UInt32.toNat_toUInt64, UInt32.toNat_toUInt64, hy]
    omega
  have hzero : (0 : UInt32).toUInt64 = 0 := rfl
  have haddr : (pixelAddr fb 0 (UInt32.ofNat q)).toNat = fb.base.toNat + 4 * (q * fb.stride.toNat) := by
    have hfour : (4 * ((UInt32.ofNat q).toUInt64 * fb.stride.toUInt64)).toNat
        = 4 * (q * fb.stride.toNat) := by
      rw [toNat_mul_of_lt, hmul] <;> rw [show (4 : UInt64).toNat = 4 from rfl]
      rw [hmul]
      omega
    rw [pixelAddr, hzero, UInt64.add_zero, toNat_add_of_lt, hfour]
    rw [hfour]
    omega
  refine ⟨UInt32.ofNat q, by rw [UInt32.lt_iff_toNat_lt, hy]; exact hqlt, if_neg ?_⟩
  have hpage := alignDown4k_toNat (pixelAddr fb 0 (UInt32.ofNat q))
  rintro (hcan | hcan)
  · rw [UInt64.lt_iff_toNat_lt, hpage, haddr, show lowCanonicalLimit.toNat = 2 ^ 47 from rfl] at hcan
    omega
  · rw [UInt64.lt_iff_toNat_lt, hpage, haddr,
      show (~~~lowCanonicalLimit).toNat = 2 ^ 64 - 1 - 2 ^ 47 from rfl] at hcan
    omega

theorem not_drawsMapped (hbase : fb.base.toNat ≤ 2 ^ 47) (hwidth : fb.width ≠ 0)
    (hwrap : 2 ^ 64 ≤ fb.exactBytes) : ¬ DrawsMapped fb s := by
  intro h
  obtain ⟨y, hy, hnone⟩ := exists_walk_pixel_eq_none s hbase hwrap
  have hx : (0 : UInt32) < fb.width := by
    rw [UInt32.lt_iff_toNat_lt]
    exact Nat.pos_of_ne_zero fun h0 => hwidth (UInt32.toNat_inj.1 h0)
  have hsome := h (pixelAddr fb 0 y) (canWrite_iff.2 ⟨0, y, hx, hy, 0, by decide, by simp⟩)
  rw [hnone] at hsome
  cases hsome

end Mapped

/-- **Drawing stays in mapped pages unless the size of the screen wraps around.** That it does not
wrap is needed with every memory map; that it is enough needs page tables that begin on a page
boundary. -/
theorem drawsMapped_iff (la57 : Bool) (map map' : EfiMemoryMap) (fb : Display) (s s' : PagingState)
    (hfits : map.Fits)
    (h : (setupKernelPaging la57 map fb.toFramebuffer).run s = ((true, map'), s'))
    (hwidth : fb.width ≤ fb.stride) (hsize : fb.size = 0 ∨ fb.exactBytes ≤ fb.size.toNat) :
    (DrawsMapped fb s' → fb.size ≠ 0 ∨ fb.exactBytes < 2 ^ 64 ∨ fb.width = 0) ∧
      (PagingPoolAligned map fb.toFramebuffer →
        (fb.size ≠ 0 ∨ fb.exactBytes < 2 ^ 64 ∨ fb.width = 0) → DrawsMapped fb s') := by
  obtain ⟨maxEnd, hmax⟩ := maxIdentityEnd_of_run h
  have hbelow := maxIdentityEnd_spec hmax
  constructor
  · intro hdraws
    by_contra hnot
    simp only [not_or, not_not, Nat.not_lt] at hnot
    obtain ⟨-, hwrap, hne⟩ := hnot
    refine not_drawsMapped ?_ hne hwrap hdraws
    have hend := hbelow.framebuffer
    have hlimit := hbelow.limit
    omega
  · intro haligned hfit a ha
    have hexact := exactIdentityMap_of_run hfits haligned h
    obtain ⟨x, y, hx, hy, k, hk, rfl⟩ := canWrite_iff.1 ha
    have hfit : fb.size ≠ 0 ∨ fb.exactBytes < 2 ^ 64 := by
      rcases hfit with hne | hlt | hzero
      · exact Or.inl hne
      · exact Or.inr hlt
      · rw [hzero, UInt32.lt_iff_toNat_lt] at hx
        exact absurd hx (Nat.not_lt_zero _)
    exact walk_pixel hexact hmax hwidth (exactBytes_le hsize hfit) hx hy hk

/-- A screen of 64 by 48 pixels, on the four pages from 0x20000 on. -/
def smallDisplay : Display := ⟨⟨0x20000, 48, 80, 0⟩, 64⟩

/-- `setup_kernel_paging` with that screen, from zeroed memory. -/
def smallPaging : (Bool × EfiMemoryMap) × PagingState :=
  (setupKernelPaging false snugMap smallDisplay.toFramebuffer).run ⟨{}, fun _ => 0⟩

theorem smallPaging_succeeds : smallPaging.1.1 = true := by decide +kernel

theorem smallPaging_eq : smallPaging = ((true, smallPaging.1.2), smallPaging.2) :=
  pagingResult_eq smallPaging_succeeds

/-- The last pixel of the screen can be written, and like all the others it is mapped. -/
theorem drawsMapped_smallDisplay :
    CanWrite smallDisplay 0x23bbc ∧ DrawsMapped smallDisplay smallPaging.2 := by
  have hbytes : smallDisplay.exactBytes < 2 ^ 64 := by decide +kernel
  obtain ⟨-, hmapped⟩ := drawsMapped_iff false snugMap smallPaging.1.2 smallDisplay ⟨{}, fun _ => 0⟩
    smallPaging.2 snugMap_fits smallPaging_eq (by decide) (Or.inl rfl)
  refine ⟨canWrite_iff.2 ⟨63, 47, by decide, by decide, 0, by decide, by decide⟩, ?_⟩
  exact hmapped (pagingPoolAligned_of_aligned snugMap_aligned _) (Or.inr (Or.inl hbytes))

/-- A screen of 2^62 pixels, with no size of its own. -/
def hugeDisplay : Display := ⟨⟨0, 0x80000000, 0x80000000, 0⟩, 1⟩

/-- The paging code sees no framebuffer. -/
theorem setupKernelPaging_hugeDisplay :
    (setupKernelPaging false snugMap hugeDisplay.toFramebuffer).run ⟨{}, fun _ => 0⟩ =
      ((true, snugPaging.1.2), snugPaging.2) := by
  have hbase : hugeDisplay.toFramebuffer.base = noFramebuffer.base := rfl
  have hbytes : framebufferSizeBytes hugeDisplay.toFramebuffer =
      framebufferSizeBytes noFramebuffer := by decide
  have hsame : setupKernelPaging false snugMap hugeDisplay.toFramebuffer =
      setupKernelPaging false snugMap noFramebuffer := by
    simp only [setupKernelPaging, maxIdentityEnd, framebufferEnd, mapEverything, hbase, hbytes]
  rw [hsame]
  exact snugPaging_eq

/-- Its pixels are not mapped. -/
theorem not_drawsMapped_hugeDisplay :
    snugMap.Fits ∧ (∀ d ∈ snugMap.descriptors, 4096 ∣ d.physicalStart.toNat) ∧
      (setupKernelPaging false snugMap hugeDisplay.toFramebuffer).run ⟨{}, fun _ => 0⟩ =
        ((true, snugPaging.1.2), snugPaging.2) ∧
      hugeDisplay.width ≤ hugeDisplay.stride ∧ hugeDisplay.size = 0 ∧
      ¬ DrawsMapped hugeDisplay snugPaging.2 :=
  ⟨snugMap_fits, snugMap_aligned, setupKernelPaging_hugeDisplay, by decide, rfl,
    not_drawsMapped (by decide) (by decide) (by decide)⟩

end VibeKernel

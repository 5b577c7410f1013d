import VibeKernel.Boot.Acpi
import VibeKernel.Num.Word
import Mathlib.Data.UInt

/-!
# The grammar of the MADT

After its header a MADT is a row of entries. An entry says its type in its first byte and its length
in its second one. `parse_madt` accepts exactly the tables whose bytes split into entries, and what
it keeps is a function of the entries.

## The byte after the table

Where a table ends in a fragment of one byte, the loop reads a length from the byte after the table.
Whatever it reads, the entry does not fit.
-/

namespace VibeKernel

open Conc Num

/-! ## Fields of an entry -/

/-- The `UINT32` at offset `k` of a run of bytes. -/
def field32 (e : List UInt8) (k : Nat) : UInt32 := UInt32.ofNat (le 4 fun i => e.getD (k + i) 0)

/-- The `UINT64` at offset `k` of a run of bytes. -/
def field64 (e : List UInt8) (k : Nat) : UInt64 := UInt64.ofNat (le 8 fun i => e.getD (k + i) 0)

/-- An entry: its length is in its second byte. -/
def IsMadtEntry : List UInt8 → Prop
  | _ :: length :: body => length.toNat = body.length + 2
  | _ => False

/-- The entries that a run of bytes splits into. -/
structure Splits (bytes : List UInt8) (entries : List (List UInt8)) : Prop where
  entry : ∀ e ∈ entries, IsMadtEntry e
  whole : entries.flatten = bytes

/-- The processor of an entry: a local APIC or a local x2APIC that is enabled. -/
def entryCpu (e : List UInt8) : Option AcpiCpu :=
  if e.getD 0 0 = 0 ∧ 8 ≤ e.length then
    if field32 e 4 &&& 1 ≠ 0 then
      some ⟨(e.getD 2 0).toUInt32, (e.getD 3 0).toUInt32, field32 e 4, false⟩
    else none
  else if e.getD 0 0 = 9 ∧ 16 ≤ e.length then
    if field32 e 8 &&& 1 ≠ 0 then some ⟨field32 e 12, field32 e 4, field32 e 8, true⟩ else none
  else none

/-- The address of an entry that overrides the local APIC's. -/
def entryBase (e : List UInt8) : Option UInt64 :=
  if e.getD 0 0 = 5 ∧ 12 ≤ e.length then some (field64 e 4) else none

/-- What `parse_madt` keeps of an entry. -/
def useEntry (info : AcpiInfo) (e : List UInt8) : AcpiInfo :=
  match entryCpu e with
  | some cpu => addAcpiCpu info cpu
  | none =>
    match entryBase e with
    | some base => { info with localApicBase := base }
    | none => info

/-! ## Bytes in memory -/

/-- `n` bytes from `p` on. -/
def bytesAt (mem : UInt64 → UInt8) (p : UInt64) (n : Nat) : List UInt8 :=
  (List.range n).map fun i => mem (p + UInt64.ofNat i)

section Bytes

variable {mem : UInt64 → UInt8} {p : UInt64} {n : Nat}

@[simp] theorem bytesAt_length (mem : UInt64 → UInt8) (p : UInt64) (n : Nat) :
    (bytesAt mem p n).length = n := by simp [bytesAt]

theorem getD_bytesAt {i : Nat} (h : i < n) : (bytesAt mem p n).getD i 0 = mem (p + UInt64.ofNat i) := by
  simp [bytesAt, List.getD_eq_getElem?_getD, h]

theorem add_ofNat_add (p : UInt64) (i j : Nat) :
    p + UInt64.ofNat i + UInt64.ofNat j = p + UInt64.ofNat (i + j) := by
  rw [UInt64.add_assoc, ← UInt64.ofNat_add]

/-- The first `i` bytes and the others. -/
theorem bytesAt_append {i : Nat} (h : i ≤ n) :
    bytesAt mem p n = bytesAt mem p i ++ bytesAt mem (p + UInt64.ofNat i) (n - i) := by
  obtain ⟨j, rfl⟩ := Nat.exists_eq_add_of_le h
  rw [Nat.add_sub_cancel_left, bytesAt, List.range_add, List.map_append, List.map_map]
  simp only [bytesAt, Function.comp_def, add_ofNat_add]

theorem bytesAt_succ (mem : UInt64 → UInt8) (p : UInt64) (n : Nat) :
    bytesAt mem p (n + 1) = mem p :: bytesAt mem (p + 1) n := by
  have hone : bytesAt mem p 1 = [mem p] := by
    show [mem (p + 0)] = [mem p]
    rw [UInt64.add_zero]
  rw [bytesAt_append (n := n + 1) (i := 1) (by omega), hone, Nat.add_sub_cancel]
  rfl

/-- A byte above the bits that are set already. -/
theorem toNat_or_shift {x : UInt32} {b : UInt8} {k : UInt32} (hx : x.toNat < 2 ^ k.toNat)
    (hk : k.toNat ≤ 24) :
    (x ||| (b.toUInt32 <<< k)).toNat = x.toNat + b.toNat * 2 ^ k.toNat := by
  have hb := b.toNat_lt
  have hpow : 2 ^ k.toNat ≤ 2 ^ 24 := Nat.pow_le_pow_right (by decide) hk
  have hle : b.toNat * 2 ^ k.toNat ≤ 255 * 2 ^ 24 :=
    Nat.mul_le_mul (by omega) hpow
  have hshift : (b.toUInt32 <<< k).toNat = b.toNat * 2 ^ k.toNat := by
    rw [UInt32.toNat_shiftLeft, UInt8.toNat_toUInt32, Nat.mod_eq_of_lt (show k.toNat < 32 by omega),
      Nat.shiftLeft_eq, Nat.mod_eq_of_lt (by omega)]
  rw [UInt32.toNat_or, hshift, Nat.or_comm, Nat.mul_comm, ← Nat.two_pow_add_eq_or_of_lt hx,
    Nat.add_comm]

/-- `read_le32` reads a little-endian number. -/
theorem run_readLe32 (mem : UInt64 → UInt8) (p : UInt64) :
    (readLe32 p).run mem = UInt32.ofNat (le 4 fun i => mem (p + UInt64.ofNat i)) := by
  have h0 := (mem p).toNat_lt
  have h1 := (mem (p + 1)).toNat_lt
  have h2 := (mem (p + 2)).toNat_lt
  have h3 := (mem (p + 3)).toNat_lt
  have hzero : p + UInt64.ofNat 0 = p := UInt64.add_zero p
  have hone : p + UInt64.ofNat 1 = p + 1 := rfl
  have htwo : p + UInt64.ofNat 2 = p + 2 := rfl
  have hthree : p + UInt64.ofNat 3 = p + 3 := rfl
  have hle : le 4 (fun i => mem (p + UInt64.ofNat i)) = (mem p).toNat + (mem (p + 1)).toNat * 2 ^ 8
      + (mem (p + 2)).toNat * 2 ^ 16 + (mem (p + 3)).toNat * 2 ^ 24 := by
    simp only [le, hzero, hone, htwo, hthree, Nat.zero_add, Nat.reduceAdd]
    omega
  have hb0 : (mem p).toUInt32.toNat = (mem p).toNat := UInt8.toNat_toUInt32 _
  have hb1 := toNat_or_shift (x := (mem p).toUInt32) (b := mem (p + 1)) (k := 8) (by rw [hb0]; exact h0)
    (by decide)
  rw [hb0, show (8 : UInt32).toNat = 8 from rfl] at hb1
  have hb2 := toNat_or_shift (x := (mem p).toUInt32 ||| ((mem (p + 1)).toUInt32 <<< 8))
    (b := mem (p + 2)) (k := 16) (by rw [hb1, show (16 : UInt32).toNat = 16 from rfl]; omega)
    (by decide)
  rw [hb1, show (16 : UInt32).toNat = 16 from rfl] at hb2
  have hb3 := toNat_or_shift
    (x := (mem p).toUInt32 ||| ((mem (p + 1)).toUInt32 <<< 8) ||| ((mem (p + 2)).toUInt32 <<< 16))
    (b := mem (p + 3)) (k := 24) (by rw [hb2, show (24 : UInt32).toNat = 24 from rfl]; omega)
    (by decide)
  rw [hb2, show (24 : UInt32).toNat = 24 from rfl] at hb3
  rw [hle, ← UInt32.toNat_inj, UInt32.toNat_ofNat', Nat.mod_eq_of_lt (by omega), ← hb3]
  rfl

/-- The four bytes of `read_le32`. -/
theorem touched_readLe32 (mem : UInt64 → UInt8) (p : UInt64) :
    (readLe32 p).touched mem = [p, p + 1, p + 2, p + 3] := by
  simp [readLe32]

theorem run_readLe64 (mem : UInt64 → UInt8) (p : UInt64) :
    (readLe64 p).run mem = UInt64.ofNat (le 8 fun i => mem (p + UInt64.ofNat i)) := by
  have hsplit : ∀ f : Nat → UInt8, le 8 f = le 4 f + 2 ^ 32 * le 4 fun i => f (4 + i) := by
    intro f
    simp only [le, Nat.zero_add, Nat.reduceAdd]
    omega
  have hhi : (fun i => mem (p + 4 + UInt64.ofNat i)) = fun i => mem (p + UInt64.ofNat (4 + i)) := by
    funext i
    rw [← add_ofNat_add]
    rfl
  have hlo := le_lt 4 fun i => mem (p + UInt64.ofNat i)
  have hhilt := le_lt 4 fun i => mem (p + UInt64.ofNat (4 + i))
  simp only [readLe64, Peek.run_bind, Peek.run_pure, run_readLe32, hhi]
  have hshift : ((UInt32.ofNat (le 4 fun i => mem (p + UInt64.ofNat (4 + i)))).toUInt64 <<< 32).toNat
      = 2 ^ 32 * le 4 fun i => mem (p + UInt64.ofNat (4 + i)) := by
    rw [UInt64.toNat_shiftLeft, UInt32.toNat_toUInt64, UInt32.toNat_ofNat',
      show (32 : UInt64).toNat % 64 = 32 from rfl, Nat.mod_eq_of_lt (by omega), Nat.shiftLeft_eq,
      Nat.mod_eq_of_lt (by omega), Nat.mul_comm]
  rw [← UInt64.toNat_inj, UInt64.toNat_or, hshift, UInt32.toNat_toUInt64, UInt32.toNat_ofNat',
    Nat.mod_eq_of_lt (by omega), Nat.or_comm, ← Nat.two_pow_add_eq_or_of_lt (by omega),
    UInt64.toNat_ofNat', hsplit fun i => mem (p + UInt64.ofNat i), Nat.mod_eq_of_lt (by omega)]
  omega

/-- A field of a run of bytes is a number in memory. -/
theorem field32_bytesAt {k : Nat} (h : k + 4 ≤ n) :
    field32 (bytesAt mem p n) k = (readLe32 (p + UInt64.ofNat k)).run mem := by
  have hbytes : ∀ i < 4, (bytesAt mem p n).getD (k + i) 0 = mem (p + UInt64.ofNat k + UInt64.ofNat i) :=
    fun i hi => by rw [getD_bytesAt (by omega), add_ofNat_add]
  rw [run_readLe32, field32, le_congr hbytes]

theorem field64_bytesAt {k : Nat} (h : k + 8 ≤ n) :
    field64 (bytesAt mem p n) k = (readLe64 (p + UInt64.ofNat k)).run mem := by
  have hbytes : ∀ i < 8, (bytesAt mem p n).getD (k + i) 0 = mem (p + UInt64.ofNat k + UInt64.ofNat i) :=
    fun i hi => by rw [getD_bytesAt (by omega), add_ofNat_add]
  rw [run_readLe64, field64, le_congr hbytes]

end Bytes

/-! ## One entry -/

section Entry

variable {mem : UInt64 → UInt8} {entry : UInt64} {length : UInt8}

theorem getD_zero_bytesAt (h : 2 ≤ length.toNat) :
    (bytesAt mem entry length.toNat).getD 0 0 = mem entry := by
  rw [getD_bytesAt (by omega)]
  exact congrArg mem (UInt64.add_zero entry)

variable (mem entry) in
/-- The tests of the loop, on the bytes of the entry. -/
theorem entryTest_iff (h : 2 ≤ length.toNat) (type bound : UInt8) {n : Nat}
    (hn : bound.toNat = n) :
    (mem entry = type ∧ length ≥ bound) ↔ ((bytesAt mem entry length.toNat).getD 0 0 = type ∧
      n ≤ (bytesAt mem entry length.toNat).length) := by
  rw [getD_zero_bytesAt h, bytesAt_length, ge_iff_le, UInt8.le_iff_toNat_le, hn]

variable (mem entry length) in
theorem field32_entry {k : Nat} (h : k + 4 ≤ length.toNat) {p : UInt64}
    (hp : entry + UInt64.ofNat k = p) :
    (readLe32 p).run mem = field32 (bytesAt mem entry length.toNat) k := by
  rw [field32_bytesAt h, hp]

/-- **The loop keeps of an entry what its bytes say.** -/
theorem run_useMadtEntry (h : 2 ≤ length.toNat) (info : AcpiInfo) :
    (useMadtEntry entry (mem entry) length info).run mem
      = useEntry info (bytesAt mem entry length.toNat) := by
  have hcpu := entryTest_iff mem entry h 0 8 (n := 8) rfl
  have hbase := entryTest_iff mem entry h 5 12 (n := 12) rfl
  have hx2 := entryTest_iff mem entry h 9 16 (n := 16) rfl
  have hlen : (bytesAt mem entry length.toNat).length = length.toNat := bytesAt_length _ _ _
  unfold useMadtEntry useEntry entryCpu entryBase
  -- the three kinds that are used, in the order of the tests, then the rest
  by_cases h0 : mem entry = 0 ∧ length ≥ 8
  · have h8 := (hcpu.1 h0).2
    rw [hlen] at h8
    have hflags := field32_entry mem entry length (k := 4) (by omega) rfl
    have huid : (bytesAt mem entry length.toNat).getD 2 0 = mem (entry + 2) :=
      getD_bytesAt (by omega)
    have hid : (bytesAt mem entry length.toNat).getD 3 0 = mem (entry + 3) :=
      getD_bytesAt (by omega)
    have hno5 : ¬ ((bytesAt mem entry length.toNat).getD 0 0 = 5 ∧
        12 ≤ (bytesAt mem entry length.toNat).length) := by
      rintro ⟨h5, -⟩
      rw [(hcpu.1 h0).1] at h5
      cases h5
    rw [if_pos h0, if_pos (hcpu.1 h0), if_neg hno5, Peek.run_bind, ← hflags]
    by_cases hen : (readLe32 (entry + UInt64.ofNat 4)).run mem &&& 1 ≠ 0
    · rw [if_pos hen]
      have hen : (readLe32 (entry + 4)).run mem &&& 1 ≠ 0 := hen
      rw [if_pos hen, huid, hid]
      rfl
    · rw [if_neg hen]
      have hen : ¬ (readLe32 (entry + 4)).run mem &&& 1 ≠ 0 := hen
      rw [if_neg hen]
      rfl
  rw [if_neg h0, if_neg fun h => h0 (hcpu.2 h)]
  by_cases h5 : mem entry = 5 ∧ length ≥ 12
  · have h12 := (hbase.1 h5).2
    rw [hlen] at h12
    have hno9 : ¬ ((bytesAt mem entry length.toNat).getD 0 0 = 9 ∧
        16 ≤ (bytesAt mem entry length.toNat).length) := by
      rintro ⟨h9, -⟩
      rw [(hbase.1 h5).1] at h9
      cases h9
    rw [if_pos h5, if_neg hno9, if_pos (hbase.1 h5), Peek.run_bind, field64_bytesAt (by omega)]
    rfl
  rw [if_neg h5, if_neg fun h => h5 (hbase.2 h)]
  by_cases h9 : mem entry = 9 ∧ length ≥ 16
  · have h16 := (hx2.1 h9).2
    rw [hlen] at h16
    have hflags := field32_entry mem entry length (k := 8) (by omega) rfl
    rw [if_pos h9, if_pos (hx2.1 h9), Peek.run_bind, ← hflags]
    by_cases hen : (readLe32 (entry + UInt64.ofNat 8)).run mem &&& 1 ≠ 0
    · rw [if_pos hen]
      have hen : (readLe32 (entry + 8)).run mem &&& 1 ≠ 0 := hen
      rw [if_pos hen, field32_bytesAt (n := length.toNat) (k := 12) (by omega),
        field32_bytesAt (n := length.toNat) (k := 4) (by omega)]
      simp only [Peek.run_bind, Peek.run_pure]
      rfl
    · rw [if_neg hen]
      have hen : ¬ (readLe32 (entry + 8)).run mem &&& 1 ≠ 0 := hen
      rw [if_neg hen]
      rfl
  rw [if_neg h9, if_neg fun h => h9 (hx2.2 h)]
  rfl

/-- An address inside a run of `n` bytes from `p` on. -/
def Inside (p : UInt64) (n : Nat) (a : UInt64) : Prop := ∃ i < n, a = p + UInt64.ofNat i

theorem touches_readLe32 {n : Nat} {q p : UInt64} {k : Nat} (h : k + 4 ≤ n)
    (hq : p + UInt64.ofNat k = q) : (readLe32 q).Touches mem (Inside p n) := by
  have hat : ∀ i, i < 4 → Inside p n (q + UInt64.ofNat i) := fun i hi =>
    ⟨k + i, by omega, by rw [← hq, add_ofNat_add]⟩
  have hfirst : Inside p n q := by simpa using hat 0 (by omega)
  intro a ha
  simp only [touched_readLe32, List.mem_cons, List.not_mem_nil, or_false] at ha
  rcases ha with rfl | rfl | rfl | rfl
  · exact hfirst
  · exact hat 1 (by omega)
  · exact hat 2 (by omega)
  · exact hat 3 (by omega)

theorem touches_readLe64 {n : Nat} {q p : UInt64} {k : Nat} (h : k + 8 ≤ n)
    (hq : p + UInt64.ofNat k = q) : (readLe64 q).Touches mem (Inside p n) := by
  have hhi : p + UInt64.ofNat (k + 4) = q + 4 := by
    rw [← add_ofNat_add, hq]
    rfl
  refine .bind (touches_readLe32 (k := k) (by omega) hq) ?_
  exact .bind (touches_readLe32 (k := k + 4) (by omega) hhi) (.pure _)

/-- The loop reads no byte behind an entry. -/
theorem touches_useMadtEntry (type : UInt8) (info : AcpiInfo) :
    (useMadtEntry entry type length info).Touches mem (Inside entry length.toNat) := by
  have hbyte : ∀ k < length.toNat, Inside entry length.toNat (entry + UInt64.ofNat k) :=
    fun k hk => ⟨k, hk, rfl⟩
  refine .cond (fun h0 => ?_) fun _ => .cond (fun h5 => ?_) fun _ => .cond (fun h9 => ?_) fun _ => .pure _
  · have h8 := UInt8.le_iff_toNat_le.1 h0.2
    rw [show (8 : UInt8).toNat = 8 from rfl] at h8
    refine .bind (touches_readLe32 (k := 4) (by omega) rfl) ?_
    refine .cond (fun _ => ?_) fun _ => .pure _
    refine .bind (.get (hbyte 2 (by omega))) ?_
    exact .bind (.get (hbyte 3 (by omega))) (.pure _)
  · have h12 := UInt8.le_iff_toNat_le.1 h5.2
    rw [show (12 : UInt8).toNat = 12 from rfl] at h12
    exact .bind (touches_readLe64 (k := 4) (by omega) rfl) (.pure _)
  · have h16 := UInt8.le_iff_toNat_le.1 h9.2
    rw [show (16 : UInt8).toNat = 16 from rfl] at h16
    refine .bind (touches_readLe32 (k := 8) (by omega) rfl) ?_
    refine .cond (fun _ => ?_) fun _ => .pure _
    refine .bind (touches_readLe32 (k := 12) (by omega) rfl) ?_
    exact .bind (touches_readLe32 (k := 4) (by omega) rfl) (.pure _)

end Entry

/-! ## Splitting -/

theorem IsMadtEntry.second {e : List UInt8} (h : IsMadtEntry e) :
    2 ≤ e.length ∧ (e.getD 1 0).toNat = e.length := by
  match e, h with
  | _ :: length :: body, h =>
    have h : length.toNat = body.length + 2 := h
    simp [h]

theorem isMadtEntry_of_second {e : List UInt8} (hlen : 2 ≤ e.length)
    (h : (e.getD 1 0).toNat = e.length) : IsMadtEntry e := by
  match e, hlen, h with
  | _ :: length :: body, _, h =>
    show length.toNat = body.length + 2
    simpa using h

section Split

variable {mem : UInt64 → UInt8} {p : UInt64} {n : Nat} {es : List (List UInt8)}

/-- The length byte of the entry at `p`. -/
def lengthAt (mem : UInt64 → UInt8) (p : UInt64) : Nat := (mem (p + 1)).toNat

theorem Splits.eq_nil (h : Splits (bytesAt mem p 0) es) : es = [] := by
  cases es with
  | nil => rfl
  | cons e es =>
    have hlen := (h.entry e List.mem_cons_self).second.1
    have hwhole := congrArg List.length h.whole
    rw [List.flatten_cons, List.length_append, bytesAt_length] at hwhole
    omega

theorem Splits.nil (mem : UInt64 → UInt8) (p : UInt64) : Splits (bytesAt mem p 0) [] :=
  ⟨by simp, rfl⟩

/-- The first entry, and what it leaves. -/
theorem Splits.first (h : Splits (bytesAt mem p n) es) (hn : 0 < n) :
    2 ≤ lengthAt mem p ∧ lengthAt mem p ≤ n ∧ ∃ rest, es = bytesAt mem p (lengthAt mem p) :: rest ∧
      Splits (bytesAt mem (p + UInt64.ofNat (lengthAt mem p)) (n - lengthAt mem p)) rest := by
  cases es with
  | nil =>
    have hwhole := congrArg List.length h.whole
    rw [List.flatten_nil, bytesAt_length, List.length_nil] at hwhole
    omega
  | cons e rest =>
    obtain ⟨hlen, hsecond⟩ := (h.entry e List.mem_cons_self).second
    have hwhole := h.whole
    rw [List.flatten_cons] at hwhole
    have hle : e.length ≤ n := by
      have hlength := congrArg List.length hwhole
      rw [List.length_append, bytesAt_length] at hlength
      omega
    rw [bytesAt_append hle] at hwhole
    obtain ⟨he, hrest⟩ := List.append_inj hwhole (by rw [bytesAt_length])
    have hl : lengthAt mem p = e.length := by
      have hbyte : (bytesAt mem p e.length).getD 1 0 = mem (p + 1) := getD_bytesAt (by omega)
      rw [← he] at hbyte
      rw [lengthAt, ← hbyte, hsecond]
    rw [hl]
    exact ⟨hlen, hle, rest, by rw [← he], fun d hd => h.entry d (List.mem_cons_of_mem _ hd), hrest⟩

theorem Splits.cons (hlo : 2 ≤ lengthAt mem p) (hhi : lengthAt mem p ≤ n)
    (h : Splits (bytesAt mem (p + UInt64.ofNat (lengthAt mem p)) (n - lengthAt mem p)) es) :
    Splits (bytesAt mem p n) (bytesAt mem p (lengthAt mem p) :: es) where
  entry := by
    refine List.forall_mem_cons.2 ⟨isMadtEntry_of_second ?_ ?_, h.entry⟩
    · rw [bytesAt_length]
      exact hlo
    · rw [getD_bytesAt (by omega), bytesAt_length]
      rfl
  whole := by rw [List.flatten_cons, h.whole, ← bytesAt_append hhi]

end Split

/-! ## The loop -/

section Loop

variable {mem : UInt64 → UInt8} {madt : UInt64} {total : UInt32}

theorem toUInt64_eq (x : UInt32) : x.toUInt64 = UInt64.ofNat x.toNat := by
  have hx := x.toNat_lt
  rw [← UInt64.toNat_inj, UInt32.toNat_toUInt64, UInt64.toNat_ofNat', Nat.mod_eq_of_lt (by omega)]

/-- The entry fits. -/
def FitsAt (mem : UInt64 → UInt8) (madt : UInt64) (total offset : Nat) : Prop :=
  2 ≤ lengthAt mem (madt + UInt64.ofNat offset) ∧
    offset + lengthAt mem (madt + UInt64.ofNat offset) ≤ total

instance (mem : UInt64 → UInt8) (madt : UInt64) (total offset : Nat) :
    Decidable (FitsAt mem madt total offset) := inferInstanceAs (Decidable (_ ∧ _))

/-- The next offset, as the program computes it. -/
theorem nextOffset_toNat (hL : total.toNat ≤ 2 ^ 20) {offset : UInt32}
    (ho : offset.toNat < total.toNat) (length : UInt8) :
    (offset + length.toUInt32).toNat = offset.toNat + length.toNat := by
  have hlength := length.toNat_lt
  rw [UInt32.toNat_add, UInt8.toNat_toUInt32, Nat.mod_eq_of_lt (by omega)]

variable (mem madt) in
/-- **One round of the loop.** -/
theorem run_madtEntry (hL : total.toNat ≤ 2 ^ 20) {offset : UInt32}
    (ho : offset.toNat < total.toNat) (info : AcpiInfo) :
    (¬ FitsAt mem madt total.toNat offset.toNat ∧
      (madtEntry madt total offset info).run mem = none) ∨
    (FitsAt mem madt total.toNat offset.toNat ∧ ∃ offset' : UInt32, offset'.toNat
      = offset.toNat + lengthAt mem (madt + UInt64.ofNat offset.toNat) ∧
      (madtEntry madt total offset info).run mem = some (offset', useEntry info
        (bytesAt mem (madt + UInt64.ofNat offset.toNat)
          (lengthAt mem (madt + UInt64.ofNat offset.toNat))))) := by
  have hnext := nextOffset_toNat hL ho (mem (madt + UInt64.ofNat offset.toNat + 1))
  have hiff : (mem (madt + UInt64.ofNat offset.toNat + 1) < 2 ∨
      offset + (mem (madt + UInt64.ofNat offset.toNat + 1)).toUInt32 > total) ↔
      ¬ FitsAt mem madt total.toNat offset.toNat := by
    rw [UInt8.lt_iff_toNat_lt, gt_iff_lt, UInt32.lt_iff_toNat_lt, hnext, FitsAt, lengthAt,
      show (2 : UInt8).toNat = 2 from rfl]
    omega
  simp only [madtEntry, toUInt64_eq, Peek.run_bind, Peek.run_get, hiff]
  by_cases hfits : FitsAt mem madt total.toNat offset.toNat
  · refine Or.inr ⟨hfits, _, hnext, ?_⟩
    rw [if_neg (not_not.2 hfits), Peek.run_bind, run_useMadtEntry hfits.1]
    rfl
  · refine Or.inl ⟨hfits, ?_⟩
    rw [if_pos hfits]
    rfl

variable (mem madt total) in
/-- **The loop accepts what splits, and keeps what the entries say.** By induction on the rounds
that are left. -/
theorem run_madtEntries (hL : total.toNat ≤ 2 ^ 20) :
    ∀ (fuel : Nat) (offset : UInt32) (info : AcpiInfo), offset.toNat ≤ total.toNat →
      total.toNat - offset.toNat ≤ fuel →
    (∃ es, Splits (bytesAt mem (madt + UInt64.ofNat offset.toNat) (total.toNat - offset.toNat)) es ∧
      (madtEntries madt total fuel offset info).run mem = es.foldl useEntry info) ∨
    ((∀ es, ¬ Splits
        (bytesAt mem (madt + UInt64.ofNat offset.toNat) (total.toNat - offset.toNat)) es) ∧
      ∃ info' : AcpiInfo, (madtEntries madt total fuel offset info).run mem
        = { info' with error := .badEntry }) := by
  have hdone : ∀ (fuel : Nat) (offset : UInt32) (info : AcpiInfo), offset.toNat = total.toNat →
      (madtEntries madt total fuel offset info).run mem = info := by
    intro fuel offset info ho
    have hno : ¬ offset < total := by
      rw [UInt32.lt_iff_toNat_lt]
      omega
    cases fuel with
    | zero => rfl
    | succ fuel => rw [madtEntries, if_neg hno, Peek.run_pure]
  intro fuel
  induction fuel with
  | zero =>
    intro offset info ho hfuel
    have heq : offset.toNat = total.toNat := by omega
    refine Or.inl ⟨[], ?_, hdone 0 offset info heq⟩
    rw [heq, Nat.sub_self]
    exact .nil mem _
  | succ fuel ih =>
    intro offset info ho hfuel
    by_cases heq : offset.toNat = total.toNat
    · refine Or.inl ⟨[], ?_, hdone _ offset info heq⟩
      rw [heq, Nat.sub_self]
      exact .nil mem _
    have hlt : offset < total := by
      rw [UInt32.lt_iff_toNat_lt]
      omega
    rw [madtEntries, if_pos hlt, Peek.run_bind]
    rcases run_madtEntry mem madt hL (by omega : offset.toNat < total.toNat) info with
      ⟨hbad, hrun⟩ | ⟨hfits, offset', hoffset', hrun⟩ <;> rw [hrun]
    · -- a bad entry, so no split starts here
      refine Or.inr ⟨fun es hes => hbad ?_, info, rfl⟩
      obtain ⟨hlo, hhi, -⟩ := hes.first (by omega)
      exact ⟨hlo, by omega⟩
    · obtain ⟨hlo, hhi⟩ := hfits
      have haddr : madt + UInt64.ofNat offset'.toNat = madt + UInt64.ofNat offset.toNat
          + UInt64.ofNat (lengthAt mem (madt + UInt64.ofNat offset.toNat)) := by
        rw [add_ofNat_add, hoffset']
      have hleft : total.toNat - offset'.toNat = total.toNat - offset.toNat
          - lengthAt mem (madt + UInt64.ofNat offset.toNat) := by omega
      rcases ih offset' (useEntry info (bytesAt mem (madt + UInt64.ofNat offset.toNat)
        (lengthAt mem (madt + UInt64.ofNat offset.toNat)))) (by omega) (by omega) with
        ⟨es, hes, hrest⟩ | ⟨hnone, info', hrest⟩
      · rw [haddr, hleft] at hes
        exact Or.inl ⟨_, hes.cons hlo (by omega), hrest⟩
      · refine Or.inr ⟨fun es hes => ?_, info', hrest⟩
        obtain ⟨-, -, rest, -, hsplits⟩ := hes.first (by omega)
        refine hnone rest ?_
        rw [haddr, hleft]
        exact hsplits

end Loop

/-! ## What is kept of the entries -/

theorem addAcpiCpu_same (info : AcpiInfo) (cpu : AcpiCpu) :
    (addAcpiCpu info cpu).error = info.error ∧
      (addAcpiCpu info cpu).localApicBase = info.localApicBase ∧
      (addAcpiCpu info cpu).enabledCpuCount = info.enabledCpuCount + 1 := by
  unfold addAcpiCpu
  split <;> exact ⟨rfl, rfl, rfl⟩

theorem addAcpiCpu_cpus {info : AcpiInfo} (cpu : AcpiCpu) (h : info.cpus.length ≤ acpiMaxCpus) :
    (addAcpiCpu info cpu).cpus = (info.cpus ++ [cpu]).take acpiMaxCpus := by
  unfold addAcpiCpu
  split
  · rename_i hfull
    have heq : info.cpus.length = acpiMaxCpus := by omega
    rw [← heq, List.take_left]
  · rename_i hroom
    refine (List.take_of_length_le ?_).symm
    rw [List.length_append, List.length_singleton]
    omega

theorem useEntry_error (info : AcpiInfo) (e : List UInt8) : (useEntry info e).error = info.error := by
  unfold useEntry
  cases entryCpu e with
  | some cpu => exact (addAcpiCpu_same info cpu).1
  | none => cases entryBase e <;> rfl

theorem entryBase_eq_none {e : List UInt8} {cpu : AcpiCpu} (h : entryCpu e = some cpu) :
    entryBase e = none := by
  have htype : e.getD 0 0 = 0 ∨ e.getD 0 0 = 9 := by
    unfold entryCpu at h
    split at h
    · rename_i h0
      exact Or.inl h0.1
    · split at h
      · rename_i h9
        exact Or.inr h9.1
      · cases h
  refine if_neg ?_
  rintro ⟨h5, -⟩
  rcases htype with h0 | h9
  · rw [h0] at h5
    cases h5
  · rw [h9] at h5
    cases h5

theorem useEntry_base (info : AcpiInfo) (e : List UInt8) :
    (useEntry info e).localApicBase = (entryBase e).getD info.localApicBase := by
  unfold useEntry
  cases hcpu : entryCpu e with
  | some cpu =>
    rw [entryBase_eq_none hcpu]
    exact (addAcpiCpu_same info cpu).2.1
  | none => cases entryBase e <;> rfl

theorem useEntry_count (info : AcpiInfo) (e : List UInt8) : (useEntry info e).enabledCpuCount
    = info.enabledCpuCount + if (entryCpu e).isSome then 1 else 0 := by
  unfold useEntry
  cases entryCpu e with
  | some cpu => exact (addAcpiCpu_same info cpu).2.2
  | none => cases entryBase e <;> exact (UInt32.add_zero _).symm

theorem useEntry_cpus (info : AcpiInfo) (e : List UInt8) (h : info.cpus.length ≤ acpiMaxCpus) :
    (useEntry info e).cpus = (info.cpus ++ (entryCpu e).toList).take acpiMaxCpus := by
  have hsame : info.cpus = (info.cpus ++ []).take acpiMaxCpus := by
    rw [List.append_nil, List.take_of_length_le h]
  unfold useEntry
  cases entryCpu e with
  | some cpu => exact addAcpiCpu_cpus cpu h
  | none => cases entryBase e <;> exact hsame

theorem foldl_useEntry_error (es : List (List UInt8)) :
    ∀ info : AcpiInfo, (es.foldl useEntry info).error = info.error := by
  induction es with
  | nil => exact fun info => rfl
  | cons e es ih => exact fun info => (ih _).trans (useEntry_error info e)

theorem foldl_useEntry_base (es : List (List UInt8)) : ∀ info : AcpiInfo,
    (es.foldl useEntry info).localApicBase
      = (es.filterMap entryBase).getLast?.getD info.localApicBase := by
  induction es with
  | nil => exact fun info => rfl
  | cons e es ih =>
    intro info
    rw [List.foldl_cons, ih, useEntry_base, List.filterMap_cons]
    cases entryBase e with
    | none => rfl
    | some base => rw [List.getLast?_cons, Option.getD_some, Option.getD_some]

theorem foldl_useEntry_count (es : List (List UInt8)) : ∀ info : AcpiInfo,
    (es.foldl useEntry info).enabledCpuCount
      = info.enabledCpuCount + UInt32.ofNat (es.filterMap entryCpu).length := by
  induction es with
  | nil => exact fun info => (UInt32.add_zero _).symm
  | cons e es ih =>
    intro info
    rw [List.foldl_cons, ih, useEntry_count, List.filterMap_cons]
    cases entryCpu e with
    | none =>
      show info.enabledCpuCount + 0 + _ = _
      rw [UInt32.add_zero]
    | some cpu =>
      show info.enabledCpuCount + 1 + _ = info.enabledCpuCount + UInt32.ofNat (_ + 1)
      rw [UInt32.ofNat_add, UInt32.add_assoc, UInt32.add_comm 1]
      rfl

/-- What the first elements fill up, the others do not change. -/
theorem take_append_take {α : Type} (n : Nat) (l m : List α) :
    (l.take n ++ m).take n = (l ++ m).take n := by
  rw [List.take_append, List.take_append, List.take_take, Nat.min_self, List.length_take]
  congr 2
  omega

theorem foldl_useEntry_cpus (es : List (List UInt8)) : ∀ info : AcpiInfo,
    info.cpus.length ≤ acpiMaxCpus →
    (es.foldl useEntry info).cpus = (info.cpus ++ es.filterMap entryCpu).take acpiMaxCpus := by
  induction es with
  | nil =>
    intro info h
    rw [List.filterMap_nil, List.append_nil, List.take_of_length_le h]
    rfl
  | cons e es ih =>
    intro info h
    have hcpus := useEntry_cpus info e h
    have hlen : (useEntry info e).cpus.length ≤ acpiMaxCpus := by
      rw [hcpus, List.length_take]
      exact Nat.min_le_left _ _
    have hcons : (e :: es).filterMap entryCpu = (entryCpu e).toList ++ es.filterMap entryCpu := by
      rw [List.filterMap_cons]
      cases entryCpu e <;> rfl
    rw [List.foldl_cons, ih _ hlen, hcpus, hcons, ← List.append_assoc]
    exact take_append_take _ _ _

/-! ## The bytes that decide -/

section Congr

variable {mem mem' : UInt64 → UInt8} {madt : UInt64} {total : UInt32}

/-- A length that fits keeps the entry inside the table. -/
theorem touches_entry (hL : total.toNat ≤ 2 ^ 20) {offset : UInt32} (ho : offset.toNat < total.toNat)
    {length : UInt8} (h : ¬ (length < 2 ∨ offset + length.toUInt32 > total)) (type : UInt8)
    (info : AcpiInfo) :
    (useMadtEntry (madt + offset.toUInt64) type length info).Touches mem
      (Inside madt total.toNat) := by
  have hnext := nextOffset_toNat hL ho length
  rw [not_or, gt_iff_lt, UInt32.lt_iff_toNat_lt, hnext] at h
  refine (touches_useMadtEntry type info).mono ?_
  rintro a ⟨i, hi, rfl⟩
  exact ⟨offset.toNat + i, by omega, by rw [toUInt64_eq, add_ofNat_add]⟩

/-- Away from the last byte, one round reads the table only. -/
theorem touches_madtEntry (hL : total.toNat ≤ 2 ^ 20) {offset : UInt32}
    (ho : offset.toNat + 1 < total.toNat) (info : AcpiInfo) :
    (madtEntry madt total offset info).Touches mem (Inside madt total.toNat) := by
  refine .bind (.get ⟨offset.toNat, by omega, by rw [toUInt64_eq]⟩) ?_
  refine .bind (.get ⟨offset.toNat + 1, ho, ?_⟩) ?_
  · rw [toUInt64_eq, ← add_ofNat_add]
    rfl
  · exact .cond (fun _ => .pure _) fun h => .bind (touches_entry hL (by omega) h _ info) (.pure _)

/-- At the last byte no entry fits. -/
theorem run_madtEntry_last (hL : total.toNat ≤ 2 ^ 20) {offset : UInt32}
    (ho : offset.toNat + 1 = total.toNat) (info : AcpiInfo) :
    (madtEntry madt total offset info).run mem = none := by
  rcases run_madtEntry mem madt hL (by omega : offset.toNat < total.toNat) info with
    ⟨-, hrun⟩ | ⟨hfits, -⟩
  · exact hrun
  · obtain ⟨hlo, hhi⟩ := hfits
    omega

/-- The loop's verdict depends on the table only. -/
theorem run_madtEntries_congr (hL : total.toNat ≤ 2 ^ 20)
    (hagree : ∀ a, Inside madt total.toNat a → mem a = mem' a) :
    ∀ (fuel : Nat) (offset : UInt32) (info : AcpiInfo),
      (madtEntries madt total fuel offset info).run mem
        = (madtEntries madt total fuel offset info).run mem' := by
  intro fuel
  induction fuel with
  | zero => exact fun offset info => rfl
  | succ fuel ih =>
    intro offset info
    rw [madtEntries]
    by_cases hlt : offset < total
    · have ho := UInt32.lt_iff_toNat_lt.1 hlt
      have hentry : (madtEntry madt total offset info).run mem
          = (madtEntry madt total offset info).run mem' := by
        by_cases hlast : offset.toNat + 1 = total.toNat
        · rw [run_madtEntry_last hL hlast, run_madtEntry_last hL hlast]
        · exact Peek.run_congr fun a ha => hagree a (touches_madtEntry hL (by omega) info a ha)
      rw [if_pos hlt, Peek.run_bind, Peek.run_bind, ← hentry]
      cases (madtEntry madt total offset info).run mem with
      | none => rfl
      | some next => exact ih next.1 next.2
    · rw [if_neg hlt, Peek.run_pure, Peek.run_pure]

theorem touches_sumBytes (n : Nat) :
    ∀ (p : UInt64) (sum : UInt8), (sumBytes n p sum).Touches mem (Inside p n) := by
  induction n with
  | zero => exact fun p sum => .pure _
  | succ n ih =>
    intro p sum
    refine .bind (.get ⟨0, by omega, (UInt64.add_zero p).symm⟩) ((ih (p + 1) _).mono ?_)
    rintro a ⟨i, hi, rfl⟩
    refine ⟨1 + i, by omega, ?_⟩
    rw [← add_ofNat_add]
    rfl

theorem touches_checksumOk (p : UInt64) (length : UInt32) :
    (checksumOk p length).Touches mem (Inside p length.toNat) :=
  .bind (touches_sumBytes _ _ _) (.pure _)

theorem run_sumBytes (n : Nat) : ∀ (p : UInt64) (sum : UInt8),
    (sumBytes n p sum).run mem = sum + (bytesAt mem p n).sum := by
  induction n with
  | zero => exact fun p sum => (UInt8.add_zero sum).symm
  | succ n ih =>
    intro p sum
    rw [sumBytes, Peek.run_bind, Peek.run_get, ih, bytesAt_succ, List.sum_cons, UInt8.add_assoc]

theorem run_checksumOk (p : UInt64) (length : UInt32) :
    (checksumOk p length).run mem = ((bytesAt mem p length.toNat).sum == 0) := by
  simp [checksumOk, run_sumBytes]

end Congr

/-! ## The table -/

/-- What the grammar says about a MADT: `body` is the table behind its header, and `header` the
32-bit address in the header. -/
structure ParsedByGrammar (body : List UInt8) (header : UInt32) (r : AcpiInfo) : Prop where
  accepted : r.error = .ok ↔ ∃ es, Splits body es
  rejected : (¬ ∃ es, Splits body es) → r.error = .badEntry
  count : ∀ es, Splits body es → r.enabledCpuCount.toNat = (es.filterMap entryCpu).length
  cpus : ∀ es, Splits body es → r.cpus = (es.filterMap entryCpu).take acpiMaxCpus
  base : ∀ es, Splits body es →
    r.localApicBase = (es.filterMap entryBase).getLast?.getD header.toUInt64

/-- A run of bytes splits in one way only. -/
theorem Splits.unique {mem : UInt64 → UInt8} {es : List (List UInt8)} :
    ∀ {p : UInt64} {n : Nat} {es' : List (List UInt8)}, Splits (bytesAt mem p n) es →
      Splits (bytesAt mem p n) es' → es = es' := by
  induction es with
  | nil =>
    intro p n es' h h'
    obtain rfl : n = 0 := by
      have hwhole := congrArg List.length h.whole
      rw [bytesAt_length] at hwhole
      exact hwhole.symm
    exact h'.eq_nil.symm
  | cons e es ih =>
    intro p n es' h h'
    have hn : 0 < n := by
      have hlen := (h.entry e List.mem_cons_self).second.1
      have hwhole := congrArg List.length h.whole
      rw [List.flatten_cons, List.length_append, bytesAt_length] at hwhole
      omega
    obtain ⟨-, -, rest, heq, hrest⟩ := h.first hn
    obtain ⟨-, -, rest', rfl, hrest'⟩ := h'.first hn
    obtain ⟨rfl, rfl⟩ := List.cons.inj heq
    rw [ih hrest hrest']

/-- The entries of a table are fewer than its bytes. -/
theorem Splits.length_le {bytes : List UInt8} {es : List (List UInt8)} (h : Splits bytes es) :
    es.length ≤ bytes.length := by
  have hsum : ∀ es : List (List UInt8), (∀ e ∈ es, IsMadtEntry e) → es.length ≤ es.flatten.length := by
    intro es
    induction es with
    | nil => exact fun _ => Nat.le_refl _
    | cons e es ih =>
      intro hentry
      have hlen := (hentry e List.mem_cons_self).second.1
      have hrest := ih fun d hd => hentry d (List.mem_cons_of_mem _ hd)
      rw [List.flatten_cons, List.length_append, List.length_cons]
      omega
  rw [← h.whole]
  exact hsum es h.entry

section Table

variable {map : EfiMemoryMap} {mem : UInt64 → UInt8} {madt : UInt64} {L : Nat}

/-- What `parse_madt` finds in the header before it looks at the entries. -/
structure MadtInMap (map : EfiMemoryMap) (mem : UInt64 → UInt8) (madt : UInt64) (L : Nat) : Prop where
  length : (field32 (bytesAt mem madt 8) 4).toNat = L
  header : 44 ≤ L
  limit : L ≤ 2 ^ 20
  range : memoryMapContainsRange map madt (UInt64.ofNat L) = true
  checksum : (bytesAt mem madt L).sum = 0

theorem MadtInMap.toNat_ofNat (h : MadtInMap map mem madt L) : (UInt32.ofNat L).toNat = L := by
  have hlimit := h.limit
  rw [UInt32.toNat_ofNat', Nat.mod_eq_of_lt (by omega)]

/-- The tests of `parse_madt`, in its words. -/
theorem MadtInMap.tests (h : MadtInMap map mem madt L) :
    (readLe32 (madt + 4)).run mem = UInt32.ofNat L ∧
      ¬ (UInt32.ofNat L < acpiSdtHeaderSize + 8 ∨ UInt32.ofNat L > acpiMaxSdtLength) ∧
      memoryMapContainsRange map madt (UInt32.ofNat L).toUInt64 = true ∧
      (checksumOk madt (UInt32.ofNat L)).run mem = true := by
  have hheader := h.header
  have hlimit := h.limit
  have htoNat := h.toNat_ofNat
  refine ⟨?_, ?_, ?_, ?_⟩
  · have hfield : field32 (bytesAt mem madt 8) 4 = (readLe32 (madt + 4)).run mem :=
      field32_bytesAt (by omega)
    rw [← hfield, ← h.length, UInt32.ofNat_toNat]
  · rw [gt_iff_lt, UInt32.lt_iff_toNat_lt, UInt32.lt_iff_toNat_lt, htoNat,
      show (acpiSdtHeaderSize + 8).toNat = 44 from rfl, show acpiMaxSdtLength.toNat = 2 ^ 20 from rfl]
    omega
  · rw [toUInt64_eq, htoNat]
    exact h.range
  · rw [run_checksumOk, htoNat, h.checksum]
    rfl

/-- The call, down to its loop. -/
theorem MadtInMap.run_parseMadt (h : MadtInMap map mem madt L) (info : AcpiInfo) :
    (parseMadt map info madt).run mem
      = (madtEntries madt (UInt32.ofNat L) L 44
          { info with
            madt := madt
            localApicBase := (field32 (bytesAt mem madt L) 36).toUInt64
            madtFlags := field32 (bytesAt mem madt L) 40 }).run mem := by
  obtain ⟨hlength, hbounds, hrange, hsum⟩ := h.tests
  have hheader := h.header
  have hbase : field32 (bytesAt mem madt L) 36 = (readLe32 (madt + 36)).run mem :=
    field32_bytesAt (by omega)
  have hflags : field32 (bytesAt mem madt L) 40 = (readLe32 (madt + 40)).run mem :=
    field32_bytesAt (by omega)
  rw [parseMadt]
  simp only [Peek.run_bind, hlength, if_neg hbounds, hrange, hsum, Bool.not_true, Bool.false_eq_true,
    if_false, h.toNat_ofNat, hbase, hflags]
  rfl

/-- **`parse_madt` is the grammar.** Its verdict depends on no byte at or behind the end. -/
theorem parseMadt_grammar (map : EfiMemoryMap) (mem : UInt64 → UInt8) (madt : UInt64) (L : Nat)
    (info : AcpiInfo) (h : MadtInMap map mem madt L) (herror : info.error = .ok)
    (hcount : info.enabledCpuCount = 0) (hcpus : info.cpus = []) :
    ParsedByGrammar (bytesAt mem (madt + 44) (L - 44)) (field32 (bytesAt mem madt L) 36)
        ((parseMadt map info madt).run mem) ∧
      ∀ mem' : UInt64 → UInt8, (∀ i < L, mem' (madt + UInt64.ofNat i) = mem (madt + UInt64.ofNat i)) →
        (parseMadt map info madt).run mem' = (parseMadt map info madt).run mem := by
  have hheader := h.header
  have hlimit := h.limit
  have htoNat := h.toNat_ofNat
  -- the entry loop starts behind the 44 bytes of the header
  have hloop := run_madtEntries mem madt (UInt32.ofNat L)
    (by omega) L 44 { info with madt := madt
                                localApicBase := (field32 (bytesAt mem madt L) 36).toUInt64
                                madtFlags := field32 (bytesAt mem madt L) 40 }
    (by rw [htoNat]; exact hheader) (by rw [htoNat]; omega)
  rw [htoNat, show (44 : UInt32).toNat = 44 from rfl, show UInt64.ofNat 44 = 44 from rfl,
    ← h.run_parseMadt info] at hloop
  refine ⟨?_, fun mem' hagree => ?_⟩
  · rcases hloop with ⟨es, hes, hrun⟩ | ⟨hnone, info', hrun⟩ <;> rw [hrun]
    · have hlen : (es.filterMap entryCpu).length < 2 ^ 32 := by
        have hle := hes.length_le
        have hfilter := List.length_filterMap_le entryCpu es
        rw [bytesAt_length] at hle
        omega
      refine ⟨⟨fun _ => ⟨es, hes⟩, fun _ => ?_⟩, fun hno => absurd ⟨es, hes⟩ hno, fun es' hes' => ?_,
        fun es' hes' => ?_, fun es' hes' => ?_⟩
      · rw [foldl_useEntry_error]
        exact herror
      · obtain rfl := hes.unique hes'
        rw [foldl_useEntry_count, hcount, UInt32.zero_add, UInt32.toNat_ofNat', Nat.mod_eq_of_lt hlen]
      · obtain rfl := hes.unique hes'
        rw [foldl_useEntry_cpus _ _ (by rw [hcpus]; exact Nat.zero_le _), hcpus, List.nil_append]
      · obtain rfl := hes.unique hes'
        rw [foldl_useEntry_base]
    · -- nothing splits, and the loop stopped at a bad entry
      refine ⟨⟨nofun, fun ⟨es, hes⟩ => absurd hes (hnone es)⟩, fun _ => rfl,
        fun es hes => absurd hes (hnone es), fun es hes => absurd hes (hnone es),
        fun es hes => absurd hes (hnone es)⟩
  · -- the header is in the table as well
    have hsame : ∀ n ≤ L, bytesAt mem' madt n = bytesAt mem madt n := fun n hn =>
      List.map_congr_left fun i hi => hagree i (by have := List.mem_range.1 hi; omega)
    have h' : MadtInMap map mem' madt L := by
      refine ⟨?_, hheader, hlimit, h.range, ?_⟩
      · rw [hsame 8 (by omega)]
        exact h.length
      · rw [hsame L (by omega)]
        exact h.checksum
    rw [h'.run_parseMadt info, h.run_parseMadt info, hsame L (by omega)]
    refine run_madtEntries_congr (by omega) ?_ _ _ _
    rintro a ⟨i, hi, rfl⟩
    rw [htoNat] at hi
    exact hagree i hi

/-- A MADT with one enabled processor. -/
def smallMadt : List UInt8 :=
  [0x41, 0x50, 0x49, 0x43, 52, 0, 0, 0, 1, 197] ++ List.replicate 26 0 ++ [0, 0, 0xe0, 0xfe, 0, 0, 0, 0] ++
    [0, 8, 1, 1, 1, 0, 0, 0]

/-- The page behind the first free ones. -/
def tablePage : EfiMemoryMap :=
  .ofList [{ type := efiACPIReclaimMemory, physicalStart := 0x15000, numberOfPages := 1 }]

/-- A memory that holds `bytes` at `base`. -/
def memWith (base : UInt64) (bytes : List UInt8) (a : UInt64) : UInt8 := bytes.getD (a - base).toNat 0

theorem smallMadt_inMap : MadtInMap tablePage (memWith 0x15000 smallMadt) 0x15000 52 :=
  ⟨by decide +kernel, by decide, by decide, by decide +kernel, by decide +kernel⟩

theorem parseMadt_grammar_smallMadt :
    ParsedByGrammar (bytesAt (memWith 0x15000 smallMadt) (0x15000 + 44) (52 - 44))
        (field32 (bytesAt (memWith 0x15000 smallMadt) 0x15000 52) 36)
        ((parseMadt tablePage {} 0x15000).run (memWith 0x15000 smallMadt)) ∧
      ∀ mem' : UInt64 → UInt8,
        (∀ i < 52, mem' (0x15000 + UInt64.ofNat i) = memWith 0x15000 smallMadt (0x15000 + UInt64.ofNat i)) →
        (parseMadt tablePage {} 0x15000).run mem'
          = (parseMadt tablePage {} 0x15000).run (memWith 0x15000 smallMadt) :=
  parseMadt_grammar tablePage _ 0x15000 52 {} smallMadt_inMap rfl rfl rfl

end Table

end VibeKernel

import VibeKernel.Num.Bytes

/-!
# Byte memories

A memory is a function from addresses to bytes. Words are stored and loaded lowest byte first. A
load depends on its own bytes only, so a load and a store that lie apart do not meet.
-/

namespace Num

abbrev Memory := Nat → UInt8

/-- The number in the `n` bytes at `a`. -/
def load (n : Nat) (mem : Memory) (a : Nat) : Nat := le n fun k => mem (a + k)

/-- The memory once the bytes `bs` are stored at `a`. -/
def put (mem : Memory) (a : Nat) (bs : List UInt8) : Memory := storeAll mem (emitAt a bs)

variable {mem mem' : Memory} {a b n : Nat} {bs : List UInt8}

theorem put_of_outside {x : Nat} (h : x < a ∨ a + bs.length ≤ x) : put mem a bs x = mem x := by
  refine storeAll_of_ne fun w hw heq => ?_
  have := mem_emitAt hw
  omega

/-- A load sees its own bytes only. -/
theorem load_congr (h : ∀ x, a ≤ x → x < a + n → mem x = mem' x) : load n mem a = load n mem' a :=
  le_congr fun k hk => h (a + k) (by omega) (by omega)

theorem load_lt (n : Nat) (mem : Memory) (a : Nat) : load n mem a < 256 ^ n := le_lt n _

theorem load_put_of_apart (h : b + n ≤ a ∨ a + bs.length ≤ b) :
    load n (put mem a bs) b = load n mem b :=
  load_congr fun x hx hx' => put_of_outside (by omega)

/-- What is stored is loaded back. -/
theorem load_put (h : bs.length = n) : load n (put mem a bs) a = leList bs := by
  subst h
  refine le_congr fun k hk => ?_
  rw [put, (shows_emitAt mem a bs).getElem hk]
  simp [List.getD, hk]

/-- Some stores, the first one first. -/
def putAll (mem : Memory) (ws : List (Nat × List UInt8)) : Memory :=
  ws.foldl (fun m w => put m w.1 w.2) mem

theorem putAll_append (mem : Memory) (ws us : List (Nat × List UInt8)) :
    putAll mem (ws ++ us) = putAll (putAll mem ws) us := List.foldl_append

theorem putAll_of_outside {ws : List (Nat × List UInt8)} {x : Nat}
    (h : ∀ w ∈ ws, x < w.1 ∨ w.1 + w.2.length ≤ x) : putAll mem ws x = mem x := by
  induction ws generalizing mem with
  | nil => rfl
  | cons w ws ih =>
    exact (ih fun u hu => h u (List.mem_cons_of_mem _ hu)).trans
      (put_of_outside (h w List.mem_cons_self))

theorem load_putAll_of_apart {ws : List (Nat × List UInt8)}
    (h : ∀ w ∈ ws, b + n ≤ w.1 ∨ w.1 + w.2.length ≤ b) :
    load n (putAll mem ws) b = load n mem b := by
  induction ws generalizing mem with
  | nil => rfl
  | cons w ws ih =>
    have hrest : load n (putAll (put mem w.1 w.2) ws) b = load n (put mem w.1 w.2) b :=
      ih fun u hu => h u (List.mem_cons_of_mem _ hu)
    exact hrest.trans (load_put_of_apart (h w List.mem_cons_self))

/-- The last store there counts. -/
theorem load_putAll {ws us : List (Nat × List UInt8)}
    (h : ∀ w ∈ us, a + bs.length ≤ w.1 ∨ w.1 + w.2.length ≤ a) :
    load bs.length (putAll mem (ws ++ (a, bs) :: us)) a = leList bs := by
  rw [putAll_append]
  exact (load_putAll_of_apart h).trans (load_put rfl)

/-- The stores do not meet. -/
abbrev Apart (w u : Nat × List UInt8) : Prop :=
  w.1 + w.2.length ≤ u.1 ∨ u.1 + u.2.length ≤ w.1

/-- Where no two stores meet, each of them is loaded back. -/
theorem load_putAll_get {ws : List (Nat × List UInt8)} (h : ws.Pairwise Apart) {k : Nat}
    (hk : ws[k]? = some (a, bs)) : load bs.length (putAll mem ws) a = leList bs := by
  obtain ⟨hlt, hget⟩ := List.getElem?_eq_some_iff.1 hk
  have hsplit : ws.take k ++ (a, bs) :: ws.drop (k + 1) = ws := by
    rw [← hget, List.getElem_cons_drop, List.take_append_drop]
  rw [← hsplit, List.pairwise_append, List.pairwise_cons] at h
  rw [← hsplit]
  exact load_putAll h.2.1.1

theorem le_add (m n : Nat) (f : Nat → UInt8) :
    le (m + n) f = le m f + 256 ^ m * le n fun k => f (m + k) := by
  induction m generalizing f with
  | zero => simp [le]
  | succ m ih =>
    have hrest := ih fun k => f (k + 1)
    have hshift : (fun k => f (m + k + 1)) = fun k => f (m + 1 + k) := by
      funext k
      rw [Nat.add_right_comm]
    rw [Nat.succ_add, le, le, hrest, hshift, pow_succ]
    ring

/-- The bytes inside a word are digits of it. -/
theorem load_part {k m : Nat} (h : k + n ≤ m) (mem : Memory) (a : Nat) :
    load n mem (a + k) = load m mem a / 256 ^ k % 256 ^ n := by
  obtain ⟨r, rfl⟩ := Nat.exists_eq_add_of_le h
  have hsplit : load (k + n + r) mem a =
      load k mem a + 256 ^ k * (load n mem (a + k) + 256 ^ n * load r mem (a + k + n)) := by
    simp only [load, Nat.add_assoc k n r, le_add k, le_add n, Nat.add_assoc]
  have hlow := load_lt k mem a
  have hmid := load_lt n mem (a + k)
  rw [hsplit, Nat.add_mul_div_left _ _ (Nat.pow_pos (by decide)), Nat.div_eq_of_lt hlow,
    Nat.zero_add, Nat.add_mul_mod_self_left, Nat.mod_eq_of_lt hmid]

theorem leList_bytes16 (v : UInt16) : leList (bytes16 v) = v.toNat := by
  have hv := v.toNat_lt
  have hmask : ∀ x : Nat, x &&& 255 = x % 256 := fun x => Nat.and_two_pow_sub_one_eq_mod x 8
  simp only [bytes16, leList_cons]
  simp [leList, le, hmask, Nat.shiftRight_eq_div_pow]
  omega

theorem leList_singleton (v : UInt8) : leList [v] = v.toNat := by simp [leList, le]

/-! ## Stacks -/

/-- Pushes 64-bit words, the first one first. -/
def pushAll (mem : Memory) (rsp : Nat) : List UInt64 → Nat × Memory
  | [] => (rsp, mem)
  | v :: vs => pushAll (put mem (rsp - 8) (bytes64 v)) (rsp - 8) vs

theorem pushAll_fst (mem : Memory) (rsp : Nat) (vs : List UInt64) :
    (pushAll mem rsp vs).1 = rsp - 8 * vs.length := by
  induction vs generalizing mem rsp with
  | nil => rfl
  | cons v vs ih =>
    rw [pushAll, ih, List.length_cons]
    omega

theorem pushAll_append (mem : Memory) (rsp : Nat) (vs us : List UInt64) :
    pushAll mem rsp (vs ++ us) = pushAll (pushAll mem rsp vs).2 (pushAll mem rsp vs).1 us := by
  induction vs generalizing mem rsp with
  | nil => rfl
  | cons v vs ih => exact ih _ _

/-- Only the bytes below the start change. -/
theorem load_pushAll_of_apart {rsp : Nat} {vs : List UInt64} (hroom : 8 * vs.length ≤ rsp)
    (h : b + n ≤ rsp - 8 * vs.length ∨ rsp ≤ b) :
    load n (pushAll mem rsp vs).2 b = load n mem b := by
  induction vs generalizing mem rsp with
  | nil => rfl
  | cons v vs ih =>
    rw [List.length_cons] at hroom h
    rw [pushAll, ih (by omega) (by omega)]
    refine load_put_of_apart ?_
    rw [length_bytes64]
    omega

/-- What is pushed stands on the stack. -/
theorem load_pushAll {rsp k : Nat} {vs : List UInt64} {v : UInt64} (hroom : 8 * vs.length ≤ rsp)
    (hk : vs[k]? = some v) : load 8 (pushAll mem rsp vs).2 (rsp - 8 * (k + 1)) = v.toNat := by
  induction vs generalizing mem rsp k with
  | nil => cases hk
  | cons u vs ih =>
    rw [List.length_cons] at hroom
    cases k with
    | zero =>
      obtain rfl : u = v := by simpa using hk
      have hkeep : load 8 (pushAll (put mem (rsp - 8) (bytes64 u)) (rsp - 8) vs).2 (rsp - 8) =
          load 8 (put mem (rsp - 8) (bytes64 u)) (rsp - 8) :=
        load_pushAll_of_apart (by omega) (by omega)
      rw [Nat.zero_add, Nat.mul_one, pushAll, hkeep, load_put (length_bytes64 u), leList_bytes64]
    | succ k =>
      have hrest : load 8 (pushAll (put mem (rsp - 8) (bytes64 u)) (rsp - 8) vs).2
          (rsp - 8 - 8 * (k + 1)) = v.toNat := ih (by omega) (by simpa using hk)
      have haddr : rsp - 8 * (k + 1 + 1) = rsp - 8 - 8 * (k + 1) := by omega
      rw [haddr, pushAll, hrest]

end Num

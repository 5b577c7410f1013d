import Mathlib.Data.Finset.Max
import Mathlib.Logic.Function.Iterate

/-!
# The local APIC

One local APIC as its own processor sees it: the vectors that wait for the processor, those in
service, and the timer. A processor that halts with interrupts on goes on when the LAPIC offers it
a vector. `Rings` says that the LAPIC is bound to, and it survives all that happens to a LAPIC that
its processor leaves alone.
-/

namespace Apic

structure Lapic where
  spurious : UInt32 := 0xff
  lvtTimer : UInt32 := 0x10000
  divide : UInt32 := 0
  initialCount : UInt32 := 0
  currentCount : UInt32 := 0
  /-- The vectors that wait. -/
  requests : List UInt8 := []
  /-- The vectors whose handlers have not sent an EOI yet, the latest first. -/
  inService : List UInt8 := []

namespace Lapic

/-- The software enable bit. -/
def Enabled (l : Lapic) : Prop := l.spurious &&& 0x100 ≠ 0

/-- The mask bit of the timer. -/
def Masked (l : Lapic) : Prop := l.lvtTimer &&& 0x10000 ≠ 0

instance (l : Lapic) : Decidable l.Enabled := inferInstanceAs (Decidable (_ ≠ _))
instance (l : Lapic) : Decidable l.Masked := inferInstanceAs (Decidable (_ ≠ _))

/-- Vector `v` starts to wait. -/
def raise (v : UInt8) (l : Lapic) : Lapic := { l with requests := v :: l.requests }

/-- A store of the processor to register `reg`. -/
def write32 (reg value : UInt32) (l : Lapic) : Lapic :=
  if reg = 0xb0 then { l with inService := l.inService.tail }
  else if reg = 0xf0 then { l with spurious := value }
  else if reg = 0x320 then { l with lvtTimer := value }
  else if reg = 0x380 then { l with initialCount := value, currentCount := value }
  else if reg = 0x3e0 then { l with divide := value }
  else l

/-- The timer counts down by one. At 0 it raises its vector, unless it is masked, and starts again
if it is periodic. -/
def tick (l : Lapic) : Lapic :=
  if l.currentCount = 0 then l
  else if l.currentCount ≠ 1 then { l with currentCount := l.currentCount - 1 }
  else
    let l' := { l with currentCount := if l.lvtTimer &&& 0x20000 = 0 then 0 else l.initialCount }
    if l.Enabled ∧ ¬ l.Masked then l'.raise l.lvtTimer.toUInt8 else l'

/-- The LAPIC asks its processor to take vector `v`: no vector that waits is higher, and all in
service are of a lower class. -/
structure Offers (v : UInt8) (l : Lapic) : Prop where
  waits : v ∈ l.requests
  highest : ∀ u ∈ l.requests, u.toNat ≤ v.toNat
  above : ∀ w ∈ l.inService, w.toNat / 16 < v.toNat / 16

instance (v : UInt8) (l : Lapic) : Decidable (l.Offers v) :=
  decidable_of_iff ((l.requests.contains v && l.requests.all fun u => u.toNat.ble v.toNat) &&
      l.inService.all fun w => (w.toNat / 16).blt (v.toNat / 16)) <| by
    simp only [Bool.and_eq_true, List.contains_iff_mem, List.all_eq_true, Nat.ble_eq, Nat.blt_eq]
    exact ⟨fun ⟨⟨hw, hh⟩, ha⟩ => ⟨hw, hh, ha⟩, fun h => ⟨⟨h.waits, h.highest⟩, h.above⟩⟩

/-- The processor takes vector `v`. -/
def accept (v : UInt8) (l : Lapic) : Lapic :=
  { l with requests := l.requests.filter (· ≠ v), inService := v :: l.inService }

/-! ## A LAPIC that will ask -/

/-- The timer raises its vector in at most `n` ticks. -/
structure Running (n : Nat) (l : Lapic) : Prop where
  enabled : l.Enabled
  unmasked : ¬ l.Masked
  started : 0 < l.currentCount.toNat
  soon : l.currentCount.toNat ≤ n

/-- A vector waits, or the timer will raise one. -/
def Rings (n : Nat) (l : Lapic) : Prop := l.requests ≠ [] ∨ l.Running n

/-- What can happen to a LAPIC that its processor leaves alone. -/
inductive Drift : Lapic → Lapic → Prop
  | none (l : Lapic) : Drift l l
  | tick (l : Lapic) : Drift l l.tick
  | raise (v : UInt8) (l : Lapic) : Drift l (l.raise v)

variable {l l' : Lapic} {n : Nat}

theorem tick_of_started (h : l.Running n) :
    (l.tick.Running n ∧ l.tick.currentCount.toNat + 1 = l.currentCount.toNat) ∨
      l.tick.requests ≠ [] := by
  have hpos := h.started
  have hne : l.currentCount ≠ 0 := by
    rintro h0
    rw [h0] at hpos
    exact absurd hpos (lt_irrefl _)
  rw [tick, if_neg hne]
  by_cases h1 : l.currentCount = 1
  · rw [if_neg (not_not.2 h1), if_pos ⟨h.enabled, h.unmasked⟩]
    exact .inr (List.cons_ne_nil _ _)
  · have hsub : (l.currentCount - 1).toNat = l.currentCount.toNat - 1 :=
      UInt32.toNat_sub_of_le _ _ (UInt32.le_iff_toNat_le.2 hpos)
    have hcount : l.currentCount.toNat ≠ 1 := fun h => h1 (UInt32.toNat_inj.1 h)
    have hsoon := h.soon
    rw [if_pos h1]
    exact .inl ⟨⟨h.enabled, h.unmasked, show 0 < (l.currentCount - 1).toNat by omega,
      show (l.currentCount - 1).toNat ≤ n by omega⟩,
      show (l.currentCount - 1).toNat + 1 = l.currentCount.toNat by omega⟩

theorem Drift.requests (h : Drift l l') : ∀ v ∈ l.requests, v ∈ l'.requests := by
  intro v hv
  cases h with
  | none => exact hv
  | raise => exact List.mem_cons_of_mem _ hv
  | tick =>
    rw [Lapic.tick]
    split_ifs <;> first | exact hv | exact List.mem_cons_of_mem _ hv

/-- The timer raises no vector but its own. -/
theorem mem_tick_requests {v : UInt8} (h : v ∈ l.tick.requests) :
    v ∈ l.requests ∨ ¬ l.Masked ∧ v = l.lvtTimer.toUInt8 := by
  rw [Lapic.tick] at h
  by_cases hon : l.Enabled ∧ ¬ l.Masked
  · rw [if_pos hon] at h
    split_ifs at h
    · exact .inl h
    · exact .inl h
    · exact (List.mem_cons.1 h).symm.imp_right fun he => ⟨hon.2, he⟩
    · exact (List.mem_cons.1 h).symm.imp_right fun he => ⟨hon.2, he⟩
  · rw [if_neg hon] at h
    split_ifs at h <;> exact .inl h

theorem Drift.inService (h : Drift l l') : l'.inService = l.inService := by
  cases h with
  | none | raise => rfl
  | tick =>
    rw [Lapic.tick]
    split_ifs <;> rfl

theorem Drift.spurious (h : Drift l l') : l'.spurious = l.spurious := by
  cases h with
  | none | raise => rfl
  | tick =>
    rw [Lapic.tick]
    split_ifs <;> rfl

theorem Drift.lvtTimer (h : Drift l l') : l'.lvtTimer = l.lvtTimer := by
  cases h with
  | none | raise => rfl
  | tick =>
    rw [Lapic.tick]
    split_ifs <;> rfl

theorem Drift.rings (h : Drift l l') (hl : l.Rings n) : l'.Rings n := by
  rcases hl with hl | hl
  · obtain ⟨v, hv⟩ := List.exists_mem_of_ne_nil _ hl
    exact .inl (List.ne_nil_of_mem (h.requests v hv))
  · cases h with
    | none => exact .inr hl
    | raise => exact .inl (List.cons_ne_nil _ _)
    | tick => exact (tick_of_started hl).symm.imp_right And.left

/-- The timer is started last. -/
theorem rings_started {count : UInt32} (hen : l.Enabled) (hmask : ¬ l.Masked) (hcount : count ≠ 0) :
    (l.write32 0x380 count).Rings count.toNat :=
  .inr ⟨hen, hmask, Nat.pos_of_ne_zero fun h => hcount (UInt32.toNat_inj.1 h), le_rfl⟩

theorem iterate_tick_inService (l : Lapic) (k : Nat) : (tick^[k] l).inService = l.inService := by
  induction k with
  | zero => rfl
  | succ k ih => rw [Function.iterate_succ_apply', (Drift.tick _).inService, ih]

/-- Short of its end, the timer counts down. -/
theorem iterate_tick_of_lt {k : Nat} (h : k < l.currentCount.toNat) :
    tick^[k] l = { l with currentCount := l.currentCount - UInt32.ofNat k } := by
  induction k with
  | zero => simp
  | succ k ih =>
    have hlt := l.currentCount.toNat_lt
    have hk : (UInt32.ofNat k).toNat = k := UInt32.toNat_ofNat_of_lt' (show k < 2 ^ 32 by omega)
    have hcount : (l.currentCount - UInt32.ofNat k).toNat = l.currentCount.toNat - k := by
      rw [UInt32.toNat_sub_of_le _ _ (UInt32.le_iff_toNat_le.2 (by omega)), hk]
    have hne : ∀ n : UInt32, n.toNat < 2 → l.currentCount - UInt32.ofNat k ≠ n := by
      intro n hn he
      rw [he] at hcount
      omega
    have hnext : l.currentCount - UInt32.ofNat k - 1 = l.currentCount - UInt32.ofNat (k + 1) := by
      rw [UInt32.ofNat_add]
      grind
    rw [Function.iterate_succ_apply', ih (by omega), tick, if_neg (hne 0 (by decide)),
      if_pos (hne 1 (by decide)), hnext]

theorem exists_offer (h : l.requests ≠ []) (hs : l.inService = []) : ∃ v, l.Offers v := by
  obtain ⟨u, hu⟩ := List.exists_mem_of_ne_nil _ h
  obtain ⟨v, hv, hmax⟩ := Finset.exists_max_image l.requests.toFinset UInt8.toNat
    ⟨u, List.mem_toFinset.2 hu⟩
  exact ⟨v, List.mem_toFinset.1 hv, fun w hw => hmax w (List.mem_toFinset.2 hw), by simp [hs]⟩

theorem Running.asks (h : l.Running n) :
    ∃ k ≤ l.currentCount.toNat, (tick^[k] l).requests ≠ [] := by
  obtain ⟨m, hm⟩ : ∃ m, l.currentCount.toNat = m := ⟨_, rfl⟩
  induction m generalizing l with
  | zero => exact absurd hm h.started.ne'
  | succ m ih =>
    rcases tick_of_started h with ⟨hrun, hcount⟩ | hreq
    · obtain ⟨k, hk, hreq⟩ := ih hrun (by omega)
      exact ⟨k + 1, by omega, hreq⟩
    · exact ⟨1, h.started, hreq⟩

/-- **A LAPIC that rings makes its offer in time.** -/
theorem Rings.offers (h : l.Rings n) (hs : l.inService = []) :
    ∃ k ≤ n, ∃ v, (tick^[k] l).Offers v := by
  have hnone : ∀ k, (tick^[k] l).inService = [] := fun k => (iterate_tick_inService l k).trans hs
  rcases h with h | h
  · exact ⟨0, Nat.zero_le n, exists_offer h hs⟩
  · obtain ⟨k, hk, hreq⟩ := h.asks
    exact ⟨k, hk.trans h.soon, exists_offer hreq (hnone k)⟩

end Lapic

end Apic

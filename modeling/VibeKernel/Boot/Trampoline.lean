import VibeKernel.Boot.Starting
import VibeKernel.Conc.Drive

/-!
# One page for every AP

Every AP starts in the same page, and `bring_up_one_ap` rebuilds the page for the next context after
a bounded wait. An AP that is slower than the wait starts in a page built for another context.

## When it goes well

As long as no AP reads the page after `build_ap_trampoline` has begun to build it for another
context, every AP enters `ap_entry_one` with its own context and its own stack. The BSP's part of
the argument is that the page is complete before the first SIPI for it is sent. The AP's part is
that it then reads exactly the code the BSP emitted.
-/

namespace VibeKernel

open Conc Num

variable {b : Build} {P : BringUpInput} {L : Layout}

/-- What the processor of context `i` has to enter `ap_entry_one` with. -/
def Layout.entryOf (L : Layout) (i : ApContextIndex) : ApEntry := ⟨L.apContext i, L.bootStackTop i⟩

/-- Every AP that has called `ap_entry_one` did so with its own context and stack, and no two share
either. -/
structure OwnEntries (L : Layout) (s : BootMemory) : Prop where
  own : ∀ i e, s.entries i = some e → e = L.entryOf i
  apart : ∀ i j e e', i ≠ j → s.entries i = some e → s.entries j = some e' →
    e.ctx ≠ e'.ctx ∧ e.rsp ≠ e'.rsp

theorem ownEntries_of_own {s : BootMemory}
    (h : ∀ i e, s.entries i = some e → e = L.entryOf i) : OwnEntries L s where
  own := h
  apart i j e e' hij he he' := by
    obtain rfl := h i e he
    obtain rfl := h j e' he'
    exact ⟨fun hc => hij (L.apContext_inj hc), fun hr => hij (L.bootStackTop_inj hr)⟩

/-- An AP reads the page only while the page was built for its own context. -/
def OnOwnPage : BootCpu → BootMemory → BootMemory → Prop
  | .bsp, _, _ => True
  | .ap i, s, s' => s.started i = true → s.entries i = none → s'.entries i = none →
      s.builtFor = some i

/-! ## The page -/

/-- The page is complete for context `i`. -/
structure BuiltPage (P : BringUpInput) (L : Layout) (i : ApContextIndex) (page : Nat → UInt8) :
    Prop where
  real : HasBytes page 0 (realCode P.trampolineBase)
  prot32 : HasBytes page apTrampolineProt32Offset (prot32Code P.trampolineBase P.loadedCr3)
  long : HasBytes page apTrampolineLongOffset
    (longCode (L.bootStackTop i) (L.apContext i) L.apEntryOne)
  gdtr : HasBytes page apTrampolineGdtrOffset (gdtrBytes P.trampolineBase)
  gdt : HasBytes page apTrampolineGdtOffset gdtBytes

theorem length_realCode : (realCode P.trampolineBase).length = 38 := rfl

theorem length_prot32Code : (prot32Code P.trampolineBase P.loadedCr3).length = 61 := rfl

theorem length_longCode (st ctx e : UInt64) : (longCode st ctx e).length = 52 := rfl

theorem length_gdtrBytes : (gdtrBytes P.trampolineBase).length = 6 := rfl

/-- The stores of `build_ap_trampoline` leave a complete page, whatever was there before. -/
theorem builtPage_stores (i : ApContextIndex) (page : Nat → UInt8) :
    BuiltPage P L i (storeAll page (trampolineStores P L i)) := by
  simp only [trampolineStores, storeAll_append]
  -- Each part is shown right after its stores, and the later parts stand elsewhere.
  constructor
  · refine (((shows_emitAt _ _ _).storeAll ?_).storeAll ?_).storeAll ?_ |>.storeAll ?_
    all_goals
      intro w hw
      have := mem_emitAt hw
      simp only [length_realCode, apTrampolineProt32Offset, apTrampolineLongOffset,
        apTrampolineGdtrOffset, apTrampolineGdtOffset] at this ⊢
      omega
  · refine ((shows_emitAt _ _ _).storeAll ?_).storeAll ?_ |>.storeAll ?_
    all_goals
      intro w hw
      have := mem_emitAt hw
      simp only [length_prot32Code, apTrampolineProt32Offset, apTrampolineLongOffset,
        apTrampolineGdtrOffset, apTrampolineGdtOffset] at this ⊢
      omega
  · refine ((shows_emitAt _ _ _).storeAll ?_).storeAll ?_
    all_goals
      intro w hw
      have := mem_emitAt hw
      simp only [length_longCode, apTrampolineLongOffset,
        apTrampolineGdtrOffset, apTrampolineGdtOffset] at this ⊢
      omega
  · refine (shows_emitAt _ _ _).storeAll fun w hw => ?_
    have := mem_emitAt hw
    simp only [length_gdtrBytes, apTrampolineGdtrOffset, apTrampolineGdtOffset] at this ⊢
    omega
  · exact shows_emitAt _ _ _

/-- The parts of the long mode code, each with the instruction that follows its immediate. -/
theorem longParts {i : ApContextIndex} {page : Nat → UInt8} (h : BuiltPage P L i page) :
    HasBytes page apTrampolineLongOffset longHead ∧
    HasBytes page (apTrampolineLongOffset + 10) (emitMovRaxImm64 (L.bootStackTop i) ++ movRspRax) ∧
    HasBytes page (apTrampolineLongOffset + 23) (emitMovRaxImm64 (L.apContext i) ++ movRdiRax) ∧
    HasBytes page (apTrampolineLongOffset + 36) (emitMovRaxImm64 L.apEntryOne ++ callRax) := by
  obtain ⟨hhead, hrest⟩ := HasBytes.append.1 h.long
  obtain ⟨hst, hrest⟩ := HasBytes.append.1 hrest
  obtain ⟨hrsp, hrest⟩ := HasBytes.append.1 hrest
  obtain ⟨hctx, hrest⟩ := HasBytes.append.1 hrest
  obtain ⟨hrdi, hrest⟩ := HasBytes.append.1 hrest
  obtain ⟨hentry, hrest⟩ := HasBytes.append.1 hrest
  obtain ⟨hcall, -⟩ := HasBytes.append.1 hrest
  exact ⟨hhead, HasBytes.append.2 ⟨hst, hrsp⟩, HasBytes.append.2 ⟨hctx, hrdi⟩,
    HasBytes.append.2 ⟨hentry, hcall⟩⟩

/-! ## What one access can do -/

/-- Nothing happens to the page, to the SIPIs and to the entries. -/
structure SamePage (s s' : BootMemory) : Prop where
  page : s'.page = s.page
  builtFor : s'.builtFor = s.builtFor
  sipiSent : s'.sipiSent = s.sipiSent
  started : s'.started = s.started
  entries : s'.entries = s.entries

namespace SamePage

variable (s : BootMemory)

theorem refl : SamePage s s := ⟨rfl, rfl, rfl, rfl, rfl⟩

theorem setContext (i : ApContextIndex) (f : Machine → Machine) : SamePage s (s.setContext i f) :=
  ⟨rfl, rfl, rfl, rfl, rfl⟩

theorem setWake (i : ApContextIndex) (f : ApWake → ApWake) : SamePage s (s.setWake i f) :=
  ⟨rfl, rfl, rfl, rfl, rfl⟩

theorem touch (addr : UInt64) : SamePage s (s.touch addr) := ⟨rfl, rfl, rfl, rfl, rfl⟩

end SamePage

/-- The page is complete for context `i`, and built for it last. -/
def PageReady (P : BringUpInput) (L : Layout) (i : ApContextIndex) (s : BootMemory) : Prop :=
  s.builtFor = some i ∧ BuiltPage P L i s.page

/-- One access of the BSP. -/
inductive BootBspAct (P : BringUpInput) (L : Layout) (s : BootMemory) : BootMemory → Prop
  | quiet {s'} (h : SamePage s s') : BootBspAct P L s s'
  | build (i : ApContextIndex) (w : Nat × UInt8) (h : s.sipiSent i = false) :
      BootBspAct P L s (s.storePage i w)
  | sipi {s'} (i : ApContextIndex) (h : PageReady P L i s)
      (hs : s' = { s with sipiSent := Function.update s.sipiSent i true,
                          lapicTouched := s'.lapicTouched }) : BootBspAct P L s s'

/-- One access of the processor of context `i`. -/
inductive BootApAct (L : Layout) (i : ApContextIndex) (s : BootMemory) : BootMemory → Prop
  | quiet {s'} (h : SamePage s s') : BootApAct L i s s'
  | start (h : s.sipiSent i = true) :
      BootApAct L i s { s with started := Function.update s.started i true }
  | enter (h : s.started i = true) : BootApAct L i s
      { s with entries := Function.update s.entries i (some (L.entryOf i)) }

def bootGuar (P : BringUpInput) (L : Layout) : BootCpu → BootMemory → BootMemory → Prop
  | .bsp => BootBspAct P L
  | .ap i => BootApAct L i

structure BootInv (P : BringUpInput) (L : Layout) (s : BootMemory) : Prop where
  page : ∀ i, s.sipiSent i = true → s.builtFor = some i → BuiltPage P L i s.page
  own : ∀ i e, s.entries i = some e → e = L.entryOf i
  sent : ∀ i, s.started i = true → s.sipiSent i = true
  entered : ∀ i, s.entries i ≠ none → s.started i = true

theorem BootInv.of_quiet {s s' : BootMemory} (h : BootInv P L s) (hq : SamePage s s') :
    BootInv P L s' where
  page i hi hb := by
    rw [hq.page]
    exact h.page i (hq.sipiSent ▸ hi) (hq.builtFor ▸ hb)
  own i e he := h.own i e (hq.entries ▸ he)
  sent i hi := by
    rw [hq.sipiSent]
    exact h.sent i (hq.started ▸ hi)
  entered i hi := by
    rw [hq.started]
    exact h.entered i (hq.entries ▸ hi)

theorem BootInv.bspAct {s s' : BootMemory} (h : BootInv P L s) (ha : BootBspAct P L s s') :
    BootInv P L s' := by
  cases ha with
  | quiet hq => exact h.of_quiet hq
  | build i w hi =>
    refine ⟨fun j hj hb => ?_, h.own, h.sent, h.entered⟩
    obtain rfl : i = j := Option.some.inj hb
    exact absurd hj (by rw [show (s.storePage i w).sipiSent i = s.sipiSent i from rfl, hi]; decide)
  | sipi i hr hs =>
    rw [hs]
    refine ⟨fun j hj hb => ?_, h.own, fun j hj => ?_, h.entered⟩
    · obtain rfl : i = j := Option.some.inj (hr.1.symm.trans hb)
      exact hr.2
    · by_cases hji : j = i
      · simp [hji]
      · simpa [Function.update_of_ne hji] using h.sent j hj

theorem BootInv.apAct {s s' : BootMemory} {i : ApContextIndex} (h : BootInv P L s)
    (ha : BootApAct L i s s') : BootInv P L s' := by
  cases ha with
  | quiet hq => exact h.of_quiet hq
  | start hi =>
    refine ⟨h.page, h.own, fun j hj => ?_, fun j hj => ?_⟩
    · by_cases hji : j = i
      · rw [hji]
        exact hi
      · exact h.sent j (by simpa [Function.update_of_ne hji] using hj)
    · by_cases hji : j = i
      · simp [hji]
      · simpa [Function.update_of_ne hji] using h.entered j hj
  | enter hi =>
    refine ⟨h.page, fun j e he => ?_, h.sent, fun j hj => ?_⟩
    · by_cases hji : j = i
      · subst hji
        simpa using he.symm
      · exact h.own j e (by simpa [Function.update_of_ne hji] using he)
    · by_cases hji : j = i
      · rw [hji]
        exact hi
      · exact h.entered j (by simpa [Function.update_of_ne hji] using hj)

/-! ## Control points -/

/-- No SIPI was sent yet for context `n` and the ones after it. -/
def Unsent (n : Nat) (s : BootMemory) : Prop := ∀ j : ApContextIndex, n ≤ j → s.sipiSent j = false

theorem Unsent.mono {n m : Nat} {s : BootMemory} (h : Unsent n s) (hnm : n ≤ m) : Unsent m s :=
  fun j hj => h j (hnm.trans hj)

/-- The processor of context `i` is in the page. -/
structure InPage (i : ApContextIndex) (s : BootMemory) : Prop where
  started : s.started i = true
  entries : s.entries i = none

/-- Where a processor is and what it knows there. -/
def bootCut (L : Layout) : (t : BootCpu) → (bootSystem b P L).PC t → BootMemory → Prop
  | .bsp, .bringUp n => fun s => (apContextCount P.acpi = 0 → n = 0) ∧ Unsent n s
  | .bsp, .broughtUp => fun _ => True
  | .ap _, .waitForSipi => fun _ => True
  | .ap _, .lost => fun _ => False
  | .ap i, .call target e => fun s => target = L.apEntryOne ∧ e = L.entryOf i ∧ InPage i s
  | .ap i, .loop j _ => fun s => j = i ∧ s.entries i = some (L.entryOf i)

/-- The outline of the loop. -/
def bootOutline (b : Build) (P : BringUpInput) (L : Layout) : Outline (bootSystem b P L) where
  inv := BootInv P L
  ok := OnOwnPage
  guar := bootGuar P L
  cut := bootCut L

/-! ## The BSP's walk -/

section Bsp

variable {i : ApContextIndex} {base : UInt64} {Q : BootMemory → Prop}

/-- An assertion about the page and the SIPIs only. -/
def PageFact (Q : BootMemory → Prop) : Prop :=
  ∀ s s', s'.page = s.page → s'.builtFor = s.builtFor → s'.sipiSent = s.sipiSent → Q s → Q s'

theorem stable_bsp (hQ : PageFact Q) : Stable ((bootOutline b P L).env .bsp) Q := by
  rintro s s' ⟨u, hu, -, -, hg, -⟩ hs
  cases u with
  | bsp => exact absurd rfl hu
  | ap j =>
    cases (show BootApAct L j s s' from hg) with
    | quiet h => exact hQ _ _ h.page h.builtFor h.sipiSent hs
    | start => exact hQ s _ rfl rfl rfl hs
    | enter => exact hQ s _ rfl rfl rfl hs

/-- A piece of the BSP's code that only does quiet stores. -/
theorem triple_quiet {α : Type} {p : Prog BootMemory α} (hQ : PageFact Q) (hp : p.Within SamePage) :
    Triple ((bootOutline b P L).env .bsp) Q p fun _ => Q :=
  .within (stable_bsp hQ)
    (fun _ _ _ hq hs => ⟨.quiet hq, hQ _ _ hq.page hq.builtFor hq.sipiSent hs⟩) hp

theorem pageFact_unsent (n : Nat) : PageFact (Unsent n) := by
  intro s s' _ _ hs h j hj
  rw [hs]
  exact h j hj

theorem pageFact_ready (hQ : ∀ s s', s'.sipiSent = s.sipiSent → Q s → Q s') :
    PageFact fun s => PageReady P L i s ∧ Q s := by
  rintro s s' hp hb hs ⟨⟨hi, hpage⟩, hq⟩
  exact ⟨⟨hb ▸ hi, hp ▸ hpage⟩, hQ s s' hs hq⟩

/-! ### The quiet pieces -/

theorem quiet_setContext (f : Machine → Machine) :
    (Prog.store fun s : BootMemory => s.setContext i f).Within SamePage :=
  .store fun s => .setContext s i f

theorem quiet_setWake (f : ApWake → ApWake) :
    (Prog.store fun s : BootMemory => s.setWake i f).Within SamePage :=
  .store fun s => .setWake s i f

theorem quiet_storeError (error : ApBootError) : (storeError i error).Within SamePage :=
  quiet_setContext _

theorem quiet_storeApState (st : ApBootState) : (storeApState i st).Within SamePage :=
  quiet_setContext _

theorem quiet_of (base : UInt64) {α : Type} {p : Prog BootMemory α} (hp : Quietly base i p) :
    p.Within SamePage := by
  refine hp.mono fun s s' h => ?_
  cases h with
  | still => exact .refl s
  | touch => exact .touch s _
  | error | apState => exact .setContext s i _
  | wake f => exact .setWake s i f

theorem quiet_resetBoot : (resetBoot i).Within SamePage := by
  unfold resetBoot
  refine .seq (.forEach (fun w => quiet_setContext w) _) fun _ => ?_
  exact .seq (quiet_setContext _) fun _ => .forEach (fun w => quiet_setWake w) _

/-! ### The build and the SIPIs -/

/-- What holds while context `i` is brought up, once the page is ready. -/
def Woken (P : BringUpInput) (L : Layout) (i : ApContextIndex) (s : BootMemory) : Prop :=
  PageReady P L i s ∧ Unsent (i + 1) s

theorem pageFact_woken : PageFact (Woken P L i) :=
  pageFact_ready fun s s' hs h j hj => by
    rw [hs]
    exact h j hj

/-- A SIPI is sent only when the page is ready. -/
theorem triple_sendSipi : Triple ((bootOutline b P L).env .bsp) (Woken P L i)
    (lapicSendIpi base i true) fun _ => Woken P L i := by
  have hquiet {α : Type} {p : Prog BootMemory α} (hp : Quietly base i p) :
      Triple ((bootOutline b P L).env .bsp) (Woken P L i) p fun _ => Woken P L i :=
    triple_quiet pageFact_woken (quiet_of base hp)
  unfold lapicSendIpi
  refine .bind (hquiet (Quietly.lapicWaitIcrIdle _)) fun idle => ?_
  refine .cond (fun _ => .ret fun _ hs => hs) fun _ => ?_
  refine .bind (hquiet (Quietly.lapicWrite32 (by decide))) fun _ => ?_
  refine .bind ?_ fun _ => hquiet (Quietly.lapicWaitIcrIdle _)
  refine .store (stable_bsp pageFact_woken) fun s _ _ hs => ?_
  refine ⟨.sipi i hs.1 rfl, hs.1, fun j hj => ?_⟩
  have hji : j ≠ i := fun h => by subst h; omega
  simpa [BootMemory.touch, Function.update_of_ne hji] using hs.2 j hj

/-- The page after some stores, all of them for context `i`. -/
structure Stored (i : ApContextIndex) (page : Nat → UInt8) (builtFor : Option ApContextIndex)
    (s : BootMemory) : Prop where
  page : s.page = page
  builtFor : s.builtFor = builtFor
  unsent : Unsent i s

theorem pageFact_stored {page : Nat → UInt8} {bf : Option ApContextIndex} :
    PageFact (Stored i page bf) :=
  fun _ _ hp hb hs h => ⟨hp.trans h.page, hb.trans h.builtFor, fun j hj => hs ▸ h.unsent j hj⟩

/-- The loop over the stores, with the page they start from. -/
theorem triple_storePages : ∀ (ws : List (Nat × UInt8)) (page : Nat → UInt8)
    (bf : Option ApContextIndex), Triple ((bootOutline b P L).env .bsp) (Stored i page bf)
      (.forEach ws fun w => .store fun s => s.storePage i w)
      fun _ => Stored i (storeAll page ws) (if ws = [] then bf else some i)
  | [], _, _ => .ret fun _ hs => hs
  | w :: ws, page, bf => by
    have hstore : Triple ((bootOutline b P L).env .bsp) (Stored i page bf)
        (.store fun s => s.storePage i w)
        fun _ => Stored i (Function.update page w.1 w.2) (some i) := by
      refine .store (stable_bsp pageFact_stored) fun s _ _ hs => ?_
      exact ⟨.build i w (hs.unsent i le_rfl), by rw [← hs.page]; rfl, rfl, hs.unsent⟩
    refine .bind hstore fun _ => (triple_storePages ws _ _).post fun _ s hs => ?_
    simpa [storeAll] using hs

theorem trampolineStores_ne_nil : trampolineStores P L i ≠ [] := by
  refine List.append_ne_nil_of_left_ne_nil ?_ _
  rw [clearStores, Ne, List.map_eq_nil_iff, List.range_eq_nil, trampolineSize]
  decide

/-- After the loop the page is ready. -/
theorem triple_storePage : Triple ((bootOutline b P L).env .bsp) (Unsent i)
    (.forEach (trampolineStores P L i) fun w => .store fun s => s.storePage i w)
    fun _ => Woken P L i := by
  have hall : ∀ x : (Nat → UInt8) × Option ApContextIndex,
      Triple ((bootOutline b P L).env .bsp) (Stored i x.1 x.2)
        (.forEach (trampolineStores P L i) fun w => .store fun s => s.storePage i w)
        fun _ => Woken P L i := by
    intro x
    refine (triple_storePages (trampolineStores P L i) x.1 x.2).post fun _ s hs => ?_
    rw [if_neg trampolineStores_ne_nil] at hs
    refine ⟨⟨hs.builtFor, ?_⟩, hs.unsent.mono (by omega)⟩
    rw [hs.page]
    exact builtPage_stores i x.1
  exact (Triple.exists hall).pre fun s hs => ⟨(s.page, s.builtFor), rfl, rfl, hs⟩

/-- `build_ap_trampoline` leaves a page that is ready, or gives up. -/
theorem triple_build : Triple ((bootOutline b P L).env .bsp) (Unsent i) (buildApTrampoline P L i)
    fun built s => if built then Woken P L i s else Unsent (i + 1) s := by
  have hfail (error : ApBootError) : Triple ((bootOutline b P L).env .bsp) (Unsent i)
      (storeError i error >>= fun _ => pure false)
      fun built s => if built then Woken P L i s else Unsent (i + 1) s :=
    .bind (triple_quiet (pageFact_unsent i) (quiet_storeError _)) fun _ => .ret fun s hs => by
      simpa using hs.mono (by omega)
  unfold buildApTrampoline
  refine .cond (fun _ => hfail _) fun _ => .cond (fun _ => hfail _) fun _ => ?_
  refine .bind (triple_quiet (pageFact_unsent i) (quiet_setWake _)) fun _ => ?_
  refine .bind triple_storePage fun _ => ?_
  refine .bind (triple_quiet pageFact_woken (quiet_storeApState _)) fun _ => ?_
  exact .ret fun s hs => by simpa using hs

theorem triple_sendSipis : Triple ((bootOutline b P L).env .bsp) (Woken P L i) (sendSipis base i)
    fun _ => Unsent (i + 1) := by
  have hquiet {α : Type} {p : Prog BootMemory α} (hp : Quietly base i p) :
      Triple ((bootOutline b P L).env .bsp) (Woken P L i) p fun _ => Woken P L i :=
    triple_quiet pageFact_woken (quiet_of base hp)
  have hend {p : Prog BootMemory Unit} (hp : Quietly base i p) :
      Triple ((bootOutline b P L).env .bsp) (Woken P L i) p fun _ => Unsent (i + 1) :=
    (hquiet hp).post fun _ _ h => h.2
  unfold sendSipis
  refine .bind triple_sendSipi fun ok => ?_
  refine .cond (fun _ => hend (Quietly.storeError _)) fun _ => ?_
  refine .bind (hquiet (Quietly.storeApState _)) fun _ => ?_
  refine .bind (hquiet (Quietly.load _)) fun online => ?_
  refine .bind (.cond (fun _ => hquiet (.ret _)) fun _ => triple_sendSipi) fun ok => ?_
  exact .cond (fun _ => hend (Quietly.storeError _)) fun _ => hend (Quietly.waitOnline _)

theorem triple_startAp : Triple ((bootOutline b P L).env .bsp) (Woken P L i) (startAp base i)
    fun _ => Unsent (i + 1) := by
  have hquiet {α : Type} {p : Prog BootMemory α} (hp : Quietly base i p) :
      Triple ((bootOutline b P L).env .bsp) (Woken P L i) p fun _ => Woken P L i :=
    triple_quiet pageFact_woken (quiet_of base hp)
  have hend {p : Prog BootMemory Unit} (hp : Quietly base i p) :
      Triple ((bootOutline b P L).env .bsp) (Woken P L i) p fun _ => Unsent (i + 1) :=
    (hquiet hp).post fun _ _ h => h.2
  unfold startAp
  refine .bind (hquiet Quietly.enableLapicIfNeeded) fun _ => ?_
  refine .bind (hquiet Quietly.lapicSendIpi) fun ok => ?_
  refine .cond (fun _ => hend (Quietly.storeError _)) fun _ => ?_
  refine .bind (hquiet (Quietly.storeApState _)) fun _ => ?_
  refine .bind (hquiet Quietly.lapicSendIpi) fun ok => ?_
  exact .cond (fun _ => hend (Quietly.storeError _)) fun _ => triple_sendSipis

/-- `bring_up_one_ap` sends no SIPI for a later context. -/
theorem triple_bringUpOneAp (targetIndex : Nat) : Triple ((bootOutline b P L).env .bsp) (Unsent i)
    (bringUpOneAp P L i targetIndex) fun _ => Unsent (i + 1) := by
  have hquiet {α : Type} {p : Prog BootMemory α} (hp : p.Within SamePage) :
      Triple ((bootOutline b P L).env .bsp) (Unsent i) p fun _ => Unsent i :=
    triple_quiet (pageFact_unsent i) hp
  have hend {p : Prog BootMemory Unit} (hp : p.Within SamePage) :
      Triple ((bootOutline b P L).env .bsp) (Unsent i) p fun _ => Unsent (i + 1) :=
    (hquiet hp).post fun _ _ h => h.mono (by omega)
  unfold bringUpOneAp
  refine .bind (hquiet quiet_resetBoot) fun _ => ?_
  refine .bind (hquiet (.load .refl)) fun error => ?_
  refine .cond (fun _ => hend (.ret _)) fun _ => ?_
  cases selectApTarget P.acpi targetIndex with
  | none => exact hend (quiet_storeError _)
  | some cpu =>
    unfold wakeTarget
    refine .bind (hquiet (quiet_setWake _)) fun _ => ?_
    refine .bind (hquiet (quiet_setContext _)) fun _ => ?_
    refine .bind (hquiet .any) fun apicBase => ?_
    refine .cond (fun _ => hend (quiet_storeError _)) fun _ => ?_
    refine .cond (fun _ => hend (quiet_storeError _)) fun _ => ?_
    refine .bind triple_build fun built => .cond (fun h => ?_) fun h => ?_
    · simpa [h] using triple_startAp
    · exact .ret fun s hs => by simpa [h] using hs

end Bsp

/-! ## An AP's walk -/

theorem Layout.contextAt_apContext (L : Layout) (i : ApContextIndex) :
    L.contextAt (L.apContext i) = some i := by
  unfold Layout.contextAt
  cases hf : (List.finRange maxApContexts).find? fun j => L.apContext j == L.apContext i with
  | none =>
    have := List.find?_eq_none.1 hf i (List.mem_finRange i)
    simp at this
  | some j =>
    have := List.find?_some hf
    rw [L.apContext_inj (eq_of_beq this)]

section Ap

variable {i : ApContextIndex} {Q : BootMemory → Prop}

/-- An assertion about the processor of context `i` only. -/
def ApFact (i : ApContextIndex) (Q : BootMemory → Prop) : Prop :=
  ∀ s s', s'.started i = s.started i → s'.entries i = s.entries i → Q s → Q s'

theorem stable_ap (hQ : ApFact i Q) : Stable ((bootOutline b P L).env (.ap i)) Q := by
  rintro s s' ⟨u, hu, -, -, hg, -⟩ hs
  have hquiet (h : SamePage s s') : Q s' :=
    hQ s s' (congrFun h.started i) (congrFun h.entries i) hs
  cases u with
  | bsp =>
    cases (show BootBspAct P L s s' from hg) with
    | quiet h => exact hquiet h
    | build => exact hQ s _ rfl rfl hs
    | sipi j hr hs' => exact hQ s s' (by rw [hs']) (by rw [hs']) hs
  | ap j =>
    have hij : i ≠ j := fun h => hu (by rw [h])
    cases (show BootApAct L j s s' from hg) with
    | quiet h => exact hquiet h
    | start => exact hQ s _ (Function.update_of_ne hij _ _) rfl hs
    | enter => exact hQ s _ rfl (Function.update_of_ne hij _ _) hs

theorem apFact_inPage : ApFact i (InPage i) :=
  fun _ _ hst he h => ⟨hst.trans h.started, he.trans h.entries⟩

/-- What the AP reads is the page built for it. -/
theorem builtPage_of_read {s : BootMemory} (hi : BootInv P L s) (hok : OnOwnPage (.ap i) s s)
    (hs : InPage i s) : BuiltPage P L i s.page :=
  hi.page i (hi.sent i hs.started) (hok hs.started hs.entries hs.entries)

/-- One byte of the page. -/
theorem triple_fetch (off : Nat) {c : UInt8}
    (h : ∀ page, BuiltPage P L i page → page off = c) :
    Triple ((bootOutline b P L).env (.ap i)) (InPage i) (.load fun s => s.page off)
      fun c' s => c' = c ∧ InPage i s :=
  .swap (stable_ap apFact_inPage) fun s hi hok hs =>
    ⟨.quiet (.refl s), h s.page (builtPage_of_read hi hok hs), hs⟩

theorem triple_fetchCode : ∀ (bs : List UInt8) (off : Nat),
    (∀ page, BuiltPage P L i page → HasBytes page off bs) →
    Triple ((bootOutline b P L).env (.ap i)) (InPage i) (fetchCode off bs)
      fun ok s => ok = true ∧ InPage i s
  | [], _, _ => .ret fun _ hs => ⟨rfl, hs⟩
  | c :: bs, off, h => by
    refine .bind (triple_fetch off fun page hp => (h page hp).1) fun c' => .lift fun hc => ?_
    rw [if_pos hc]
    exact triple_fetchCode bs (off + 1) fun page hp => (h page hp).2

theorem triple_fetchBytes : ∀ (bs : List UInt8) (off : Nat),
    (∀ page, BuiltPage P L i page → HasBytes page off bs) →
    Triple ((bootOutline b P L).env (.ap i)) (InPage i) (fetchBytes off bs.length)
      fun r s => r = bs ∧ InPage i s
  | [], _, _ => .ret fun _ hs => ⟨rfl, hs⟩
  | c :: bs, off, h => by
    refine .bind (triple_fetch off fun page hp => (h page hp).1) fun c' => .lift fun hc => ?_
    refine .bind (triple_fetchBytes bs (off + 1) fun page hp => (h page hp).2) fun r =>
      .lift fun hr => .ret fun s hs => ?_
    exact ⟨by rw [hc, hr], hs⟩

/-- A `mov rax, imm64` loads the immediate that the BSP emitted. -/
theorem triple_movRax (off : Nat) (next : List UInt8) (v : UInt64)
    (h : ∀ page, BuiltPage P L i page → HasBytes page off (emitMovRaxImm64 v ++ next)) :
    Triple ((bootOutline b P L).env (.ap i)) (InPage i) (movRax off next)
      fun r s => r = some v ∧ InPage i s := by
  have hparts : ∀ page, BuiltPage P L i page → HasBytes page off [0x48, 0xb8] ∧
      HasBytes page (off + 2) (bytes64 v) ∧ HasBytes page (off + 10) next := by
    intro page hp
    obtain ⟨himm, hnext⟩ := HasBytes.append.1 (h page hp)
    obtain ⟨hcode, hv⟩ := HasBytes.append.1 himm
    exact ⟨hcode, hv, hnext⟩
  unfold movRax
  refine .bind (triple_fetchCode _ _ fun page hp => (hparts page hp).1) fun ok => .lift fun hok => ?_
  subst hok
  refine .bind (triple_fetchBytes (bytes64 v) _ fun page hp => (hparts page hp).2.1) fun imm =>
    .lift fun himm => ?_
  refine .bind (triple_fetchCode _ _ fun page hp => (hparts page hp).2.2) fun ok =>
    .lift fun hok => .ret fun s hs => ⟨?_, hs⟩
  rw [hok, himm, leList_bytes64, UInt64.ofNat_toNat]
  rfl

theorem triple_runLongCode : Triple ((bootOutline b P L).env (.ap i)) (InPage i) runLongCode
    ((bootOutline b P L).cut (.ap i)) := by
  unfold runLongCode
  refine .bind (triple_fetchCode _ _ fun page hp => (longParts hp).1) fun ok => .lift fun hok => ?_
  subst hok
  refine .bind (triple_movRax _ _ _ fun page hp => (longParts hp).2.1) fun rsp =>
    .lift fun hrsp => ?_
  refine .bind (triple_movRax _ _ _ fun page hp => (longParts hp).2.2.1) fun rdi =>
    .lift fun hrdi => ?_
  refine .bind (triple_movRax _ _ _ fun page hp => (longParts hp).2.2.2) fun target =>
    .lift fun htarget => ?_
  rw [hrsp, hrdi, htarget]
  exact .ret fun s hs => ⟨rfl, rfl, hs⟩

/-- The trampoline ends at the call of `ap_entry_one`, with the AP's own context and stack. -/
theorem triple_runTrampoline : Triple ((bootOutline b P L).env (.ap i)) (InPage i) (runTrampoline P)
    ((bootOutline b P L).cut (.ap i)) := by
  unfold runTrampoline
  refine .bind (triple_fetchCode _ _ fun page hp => hp.real) fun real => .lift fun hreal => ?_
  refine .bind (triple_fetchCode _ _ fun page hp => hp.gdtr) fun gdtr => .lift fun hgdtr => ?_
  refine .bind (triple_fetchCode _ _ fun page hp => hp.gdt) fun gdt => .lift fun hgdt => ?_
  refine .bind (triple_fetchCode _ _ fun page hp => hp.prot32) fun prot32 =>
    .lift fun hprot32 => ?_
  rw [hreal, hgdtr, hgdt, hprot32]
  exact triple_runLongCode

/-- The AP has entered with its own context and stack. -/
def Entered (L : Layout) (i : ApContextIndex) (s : BootMemory) : Prop :=
  s.entries i = some (L.entryOf i)

theorem apFact_entered : ApFact i (Entered L i) := fun _ _ _ he h => he.trans h

theorem triple_quietAp {α : Type} {p : Prog BootMemory α} (hp : p.Within SamePage) :
    Triple ((bootOutline b P L).env (.ap i)) (Entered L i) p fun _ => Entered L i :=
  .within (stable_ap apFact_entered)
    (fun _ _ _ hq hs => ⟨.quiet hq, (congrFun hq.entries i).trans hs⟩) hp

theorem triple_inContext (p : Prog Machine ApPc) :
    Triple ((bootOutline b P L).env (.ap i)) (Entered L i) (inContext i p) ((bootOutline b P L).cut (.ap i)) := by
  have hp : (p.onPart (contextPart i)).Within SamePage :=
    (Prog.Within.onPart (Prog.Within.top p)).mono fun s s' h => by
      obtain ⟨m, -, rfl⟩ := h
      exact ⟨rfl, rfl, rfl, rfl, rfl⟩
  exact .bind (triple_quietAp hp) fun pc => .ret fun s hs => ⟨rfl, hs⟩

theorem triple_callEntry : Triple ((bootOutline b P L).env (.ap i)) (InPage i)
    (callEntry L i L.apEntryOne (L.entryOf i)) ((bootOutline b P L).cut (.ap i)) := by
  have henter : Triple ((bootOutline b P L).env (.ap i)) (InPage i)
      (.store fun s => { s with entries := Function.update s.entries i (some (L.entryOf i)) })
      fun _ => Entered L i :=
    .store (stable_ap apFact_inPage) fun s _ _ hs => ⟨.enter hs.started, by simp [Entered]⟩
  unfold callEntry
  rw [if_pos rfl]
  refine .bind henter fun _ => ?_
  rw [show (L.entryOf i).ctx = L.apContext i from rfl, L.contextAt_apContext]
  refine .bind (triple_quietAp (quiet_setContext _)) fun _ => ?_
  exact .bind (triple_quietAp (quiet_setContext _)) fun _ => .ret fun s hs => ⟨rfl, hs⟩

end Ap

/-! ## All processors together -/

theorem bootOutline_valid : (bootOutline b P L).Valid where
  inv_guar t s s' hi _ hg := by
    cases t with
    | bsp => exact hi.bspAct hg
    | ap i => exact hi.apAct hg
  stable t pc := by
    cases t with
    | bsp =>
      cases pc with
      | bringUp n =>
        exact stable_bsp fun s s' hp hb hs h => ⟨h.1, pageFact_unsent n s s' hp hb hs h.2⟩
      | broughtUp => exact .true
    | ap i =>
      cases pc with
      | waitForSipi => exact .true
      | lost => exact fun _ _ _ h => h
      | call target e =>
        exact stable_ap fun s s' hst he h => ⟨h.1, h.2.1, apFact_inPage s s' hst he h.2.2⟩
      | loop j pc => exact stable_ap fun s s' hst he h => ⟨h.1, he.trans h.2⟩
  body t pc p hp := by
    cases t with
    | bsp =>
      cases pc with
      | bringUp n =>
        change bspBootBody P L (.bringUp n) = some p at hp
        -- one round of the loop, or its end; without contexts only the first is tried
        simp only [bspBootBody] at hp
        refine .lift fun hzero => ?_
        split at hp
        · rename_i hc
          obtain rfl := Option.some.inj hp
          obtain rfl := hzero hc
          exact .bind (triple_bringUpOneAp (i := 0) 0) fun _ => .ret fun _ _ => trivial
        · rename_i hc
          split at hp
          · rename_i hn
            split at hp
            · obtain rfl := Option.some.inj hp
              exact .bind (triple_bringUpOneAp (i := ⟨n, hn⟩) n) fun _ =>
                .ret fun _ hs => ⟨fun h => absurd h hc, hs⟩
            · obtain rfl := Option.some.inj hp
              exact .ret fun _ _ => trivial
          · obtain rfl := Option.some.inj hp
            exact .ret fun _ _ => trivial
      | broughtUp => cases hp
    | ap i =>
      cases pc with
      | waitForSipi => cases hp
      | lost => cases hp
      | call target e =>
        obtain rfl := Option.some.inj hp
        -- the AP was handed its own entry (`triple_runTrampoline`), so it calls with its context
        rintro s ⟨rfl, rfl, hs⟩
        exact triple_callEntry s hs
      | loop j pc =>
        obtain ⟨q, hq, rfl⟩ := Option.map_eq_some_iff.1 hp
        rintro s ⟨rfl, hs⟩
        exact triple_inContext q s hs
  trap t x s s' hi he hok := by
    cases t with
    | bsp => exact x.elim
    | ap i =>
      cases x with
      | sipi =>
        change enterApBoot L i .sipi s = some s' at he
        simp only [enterApBoot] at he
        split at he
        · rename_i h
          obtain rfl := Option.some.inj he
          -- it waits for the SIPI, so it has entered nothing yet
          have hnone : s.entries i = none := by
            by_contra hne
            have := hi.entered i hne
            rw [h.2] at this
            cases this
          exact ⟨.start h.1, triple_runTrampoline _ ⟨by simp, hnone⟩⟩
        · cases he
      | fault j frame =>
        change enterApBoot L i (.fault j frame) s = some s' at he
        simp only [enterApBoot] at he
        split at he
        · rename_i h
          -- an AP faults in the context that it was handed, which is its own (`BootInv.own`)
          obtain ⟨m, -, rfl⟩ := Option.map_eq_some_iff.1 he
          obtain ⟨e, hent, hctx⟩ := (Option.any_eq_true _ _).1 h
          obtain rfl := hi.own i e hent
          rw [show (L.entryOf i).ctx = L.apContext i from rfl, L.contextAt_apContext] at hctx
          obtain rfl : i = j := by simpa using hctx
          exact ⟨.quiet (.setContext s i _), triple_inContext _ _ hent⟩
        · cases he

end VibeKernel

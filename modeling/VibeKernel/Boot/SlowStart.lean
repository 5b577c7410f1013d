import VibeKernel.Boot.Trampoline

/-!
# An AP that starts too late

`bring_up_one_ap` gives up on an AP after a bounded wait, but the SIPI is out. When the AP starts
after all, the page belongs to the next context. Nothing else goes wrong.

## Runs of the BSP alone

The run that shows it lets the BSP go through two whole calls of `bring_up_one_ap` before anybody
else moves. Its wait has 100000000 rounds, so the run is computed piece by piece.
-/

namespace VibeKernel

open Conc Num

/-- Before the loop: no SIPI is out and no AP has started. -/
structure Asleep (s : BootMemory) : Prop where
  sipiSent : ∀ i, s.sipiSent i = false
  started : ∀ i, s.started i = false
  entries : ∀ i, s.entries i = none

/-- The processor of context `i` runs on no other context, and executes the code that was emitted
for it. -/
def OnOwnContext (i : ApContextIndex) (pc : ApBootPc) : Prop :=
  pc ≠ .lost ∧ ∀ j q, pc = .loop j q → j = i

/-- **Each AP enters with its own context**, in every run in which no AP reads the page after it was
built for another one. -/
theorem ownEntries_of_reach (b : Build) (P : BringUpInput) (L : Layout) {s : BootMemory}
    (hs : Asleep s) {c : (bootSystem b P L).Config}
    (hr : (bootSystem b P L).Reach OnOwnPage (bootStart b P L s) c) :
    OwnEntries L c.mem ∧ ∀ i pc, c.prog (.ap i) = .ret pc → OnOwnContext i pc := by
  have h0 : (bootOutline b P L).Holds (bootStart b P L s) := by
    refine ⟨⟨fun i hi => ?_, fun i e he => ?_, fun i hi => ?_, fun i hi => ?_⟩, fun t => ?_⟩
    · exact absurd ((hs.sipiSent i).symm.trans hi) (by decide)
    · exact nomatch (hs.entries i).symm.trans he
    · exact absurd ((hs.started i).symm.trans hi) (by decide)
    · exact absurd (hs.entries i) hi
    · cases t with
      | bsp => exact ⟨fun _ => rfl, fun j _ => hs.sipiSent j⟩
      | ap i => trivial
  have h := Outline.sound bootOutline_valid h0 hr
  refine ⟨ownEntries_of_own h.inv.own, fun i pc hpc => ?_⟩
  have hat := h.at_ (.ap i)
  rw [hpc] at hat
  refine ⟨fun hlost => ?_, fun j q hloop => ?_⟩
  · subst hlost
    exact hat
  · subst hloop
    exact hat.1

/-! ## `bring_up_one_ap` alone -/

section Run

variable {P : BringUpInput} {L : Layout} {i : ApContextIndex} {base : UInt64} {s₀ : BootMemory}

/-- Since `s₀`, only context `i`, the BSP's own fields, the page and the LAPIC have changed. The AP
has not shown up. -/
structure Waking (i : ApContextIndex) (s₀ : BootMemory) (sent : Bool) (s : BootMemory) : Prop where
  started : s.started = s₀.started
  entries : s.entries = s₀.entries
  others : ∀ j, j ≠ i → s.contexts j = s₀.contexts j
  online : (s.contexts i).online = false
  sipiSent : s.sipiSent = if sent then Function.update s₀.sipiSent i true else s₀.sipiSent

variable {sent : Bool} {Q : BootMemory → Prop}

/-- A store that `Waking` survives. -/
theorem Waking.of_eq {s s' : BootMemory} (h : Waking i s₀ sent s) (hst : s'.started = s.started)
    (he : s'.entries = s.entries) (hs : s'.sipiSent = s.sipiSent)
    (ho : ∀ j, j ≠ i → s'.contexts j = s.contexts j)
    (hon : (s'.contexts i).online = (s.contexts i).online) : Waking i s₀ sent s' :=
  ⟨hst.trans h.started, he.trans h.entries, fun j hj => (ho j hj).trans (h.others j hj),
    hon.trans h.online, hs.trans h.sipiSent⟩

theorem Waking.setContext {s : BootMemory} {f : Machine → Machine} (h : Waking i s₀ sent s)
    (hf : ∀ m, (f m).online = m.online) : Waking i s₀ sent (s.setContext i f) :=
  h.of_eq rfl rfl rfl (fun j hj => Function.update_of_ne hj _ _)
    (by simp [BootMemory.setContext, hf])

theorem Waking.same {s s' : BootMemory} (h : Waking i s₀ sent s) (hst : s'.started = s.started)
    (he : s'.entries = s.entries) (hs : s'.sipiSent = s.sipiSent)
    (hc : s'.contexts = s.contexts) : Waking i s₀ sent s' :=
  h.of_eq hst he hs (fun j _ => congrFun hc j) (by rw [hc])

/-- The page is ready for context `i`, and `sent` tells whether its SIPI is out. -/
def ReadyFor (P : BringUpInput) (L : Layout) (i : ApContextIndex) (s₀ : BootMemory) (sent : Bool)
    (s : BootMemory) : Prop :=
  PageReady P L i s ∧ Waking i s₀ sent s

theorem ReadyFor.touch {s : BootMemory} (h : ReadyFor P L i s₀ sent s) (addr : UInt64) :
    ReadyFor P L i s₀ sent (s.touch addr) := ⟨h.1, h.2.same rfl rfl rfl rfl⟩

theorem ReadyFor.setContext {s : BootMemory} {f : Machine → Machine} (h : ReadyFor P L i s₀ sent s)
    (hf : ∀ m, (f m).online = m.online) : ReadyFor P L i s₀ sent (s.setContext i f) :=
  ⟨h.1, h.2.setContext hf⟩

/-- The LAPIC is idle. -/
theorem leads_lapicWaitIcrIdle : (lapicWaitIcrIdle base i icrIdleLoops).Leads
    (ReadyFor P L i s₀ sent) fun ok s => ok = true ∧ ReadyFor P L i s₀ sent s := by
  rw [show icrIdleLoops = 999999 + 1 from rfl, lapicWaitIcrIdle, lapicRead32]
  refine .bind (.bind (.keep fun s hs => hs.touch _) fun _ => .any) fun icr => .lift fun hicr => ?_
  rw [if_pos (by rw [hicr]; decide)]
  exact .ret fun s hs => ⟨rfl, hs⟩

theorem leads_lapicSendIpi (sipi : Bool) : (lapicSendIpi base i sipi).Leads
    (ReadyFor P L i s₀ sent) fun ok s => ok = true ∧ ReadyFor P L i s₀ (sent || sipi) s := by
  unfold lapicSendIpi
  refine .bind leads_lapicWaitIcrIdle fun idle => .lift fun hidle => ?_
  subst hidle
  refine .bind (.keep fun s hs => hs.touch _) fun _ => .bind (.store fun s hs => ?_) fun _ =>
    leads_lapicWaitIcrIdle
  cases sipi with
  | false => simpa using hs.touch _
  | true =>
    obtain ⟨hr, hw⟩ := hs.touch (base + 0x300)
    refine ⟨hr, hw.started, hw.entries, hw.others, hw.online, ?_⟩
    cases sent <;> simp [hw.sipiSent]

theorem leads_enableLapicIfNeeded : (enableLapicIfNeeded base).Leads (ReadyFor P L i s₀ sent)
    fun _ => ReadyFor P L i s₀ sent := by
  unfold enableLapicIfNeeded lapicRead32
  refine .bind (.bind (.keep fun s hs => hs.touch _) fun _ => .any) fun svr => .lift fun _ => ?_
  exact .cond (fun _ => .keep fun s hs => hs.touch _) fun _ => .ret fun s hs => hs

/-- The AP does not show up. -/
theorem leads_waitOnline : ∀ n, (waitOnline i n).Leads (ReadyFor P L i s₀ sent)
    fun _ => ReadyFor P L i s₀ sent
  | 0 => .bind (.keep fun s hs => ⟨hs.1, hs.2.same rfl rfl rfl rfl⟩) fun _ =>
      .keep fun s hs => hs.setContext fun _ => rfl
  | n + 1 => by
    unfold waitOnline
    refine .bind (R := fun online s => online = false ∧ ReadyFor P L i s₀ sent s)
      (.load fun s hs => ⟨hs.2.online, hs⟩) fun online => .lift fun h => ?_
    rw [h]
    exact leads_waitOnline n

theorem leads_sendSipis : (sendSipis base i).Leads (ReadyFor P L i s₀ false)
    fun _ => ReadyFor P L i s₀ true := by
  unfold sendSipis
  refine .bind (leads_lapicSendIpi true) fun ok => .lift fun hok => ?_
  subst hok
  refine .bind (.keep fun s hs => hs.setContext fun _ => rfl) fun _ => ?_
  refine .bind (R := fun online s => online = false ∧ ReadyFor P L i s₀ true s)
    (.load fun s hs => ⟨hs.2.online, hs⟩) fun online => .lift fun h => ?_
  subst h
  refine .bind (leads_lapicSendIpi true) fun ok => .lift fun hok => ?_
  subst hok
  exact leads_waitOnline _

theorem leads_startAp : (startAp base i).Leads (ReadyFor P L i s₀ false)
    fun _ => ReadyFor P L i s₀ true := by
  unfold startAp
  refine .bind leads_enableLapicIfNeeded fun _ => ?_
  refine .bind (leads_lapicSendIpi false) fun ok => .lift fun hok => ?_
  subst hok
  refine .bind (.keep fun s hs => hs.setContext fun _ => rfl) fun _ => ?_
  refine .bind (leads_lapicSendIpi false) fun ok => .lift fun hok => ?_
  subst hok
  exact leads_sendSipis

/-- The stores into the page, all at once. -/
theorem foldl_storePage (ws : List (Nat × UInt8)) (s : BootMemory) (hne : ws ≠ []) :
    ws.foldl (fun s w => s.storePage i w) s =
      { s with page := storeAll s.page ws, builtFor := some i } := by
  induction ws generalizing s with
  | nil => exact absurd rfl hne
  | cons w ws ih =>
    rw [List.foldl_cons]
    by_cases hws : ws = []
    · subst hws
      rfl
    · rw [ih _ hws]
      rfl

theorem leads_buildApTrampoline (hbad : badTrampoline P = false)
    (hcr3 : ¬ P.loadedCr3 > 0xffffffff) : (buildApTrampoline P L i).Leads (Waking i s₀ false)
    fun built s => built = true ∧ ReadyFor P L i s₀ false s := by
  unfold buildApTrampoline
  rw [hbad, if_neg (by decide), if_neg hcr3]
  refine .bind (.keep fun s hs => hs.same rfl rfl rfl rfl) fun _ => ?_
  refine .bind (R := fun _ => ReadyFor P L i s₀ false) (.forEach_store fun s hs => ?_) fun _ => ?_
  · rw [foldl_storePage _ _ trampolineStores_ne_nil]
    exact ⟨⟨rfl, builtPage_stores i s.page⟩, hs.same rfl rfl rfl rfl⟩
  · exact .bind (.keep fun s hs => hs.setContext fun _ => rfl) fun _ => .ret fun s hs => ⟨rfl, hs⟩

/-- The stores that `bring_up_one_ap` begins with. -/
theorem leads_resetBoot (herr : (s₀.contexts i).error = .ok) : (resetBoot i).Leads (· = s₀)
    fun _ s => (s.contexts i).error = .ok ∧ Waking i s₀ false s := by
  rintro s rfl
  have hcontext : ((resetBoot i).run s).2.contexts =
      Function.update s.contexts i (((resetBoot i).run s).2.contexts i) := by
    simp [resetBoot, Prog.run_forEach_store, resetApBoot, resetApWake, BootMemory.setContext,
      BootMemory.setWake]
  refine ⟨?_, rfl, rfl, fun j hj => ?_, ?_, rfl⟩
  · simpa [resetBoot, Prog.run_forEach_store, resetApBoot, resetApWake, BootMemory.setContext,
      BootMemory.setWake] using herr
  · rw [hcontext, Function.update_of_ne hj]
  · simp [resetBoot, Prog.run_forEach_store, resetApBoot, resetApWake, BootMemory.setContext,
      BootMemory.setWake]

/-- `bring_up_one_ap` alone: the page is ready, the SIPI is out, and the AP has not shown up. -/
theorem leads_bringUpOneAp {k : Nat} {cpu : AcpiCpu} (herr : (s₀.contexts i).error = .ok)
    (hsel : selectApTarget P.acpi k = some cpu)
    (hrange : memoryMapContainsRange P.map P.acpi.localApicBase 4096 = true)
    (hbad : badTrampoline P = false) (hcr3 : ¬ P.loadedCr3 > 0xffffffff) :
    (bringUpOneAp P L i k).Leads (· = s₀) fun _ => ReadyFor P L i s₀ true := by
  unfold bringUpOneAp
  refine .bind (leads_resetBoot herr) fun _ => ?_
  refine .bind (R := fun error s => error = .ok ∧ Waking i s₀ false s)
    (.load fun s hs => hs) fun error => .lift fun h => ?_
  subst h
  rw [hsel, if_neg (by simp)]
  unfold wakeTarget
  refine .bind (.keep fun s hs => hs.same rfl rfl rfl rfl) fun _ => ?_
  refine .bind (.keep fun s hs => hs.setContext fun _ => rfl) fun _ => ?_
  refine .bind .any fun msr => .lift fun hmsr => ?_
  rw [hmsr, hrange, if_neg (by decide), if_neg (by decide)]
  refine .bind (leads_buildApTrampoline hbad hcr3) fun built => .lift fun h => ?_
  subst h
  exact leads_startAp

/-! ## An AP alone -/

theorem run_fetchCode {s : BootMemory} : ∀ {bs : List UInt8} {off : Nat}, HasBytes s.page off bs →
    (fetchCode off bs).run s = (true, s)
  | [], _, _ => rfl
  | c :: bs, off, h => by
    rw [fetchCode, Prog.run_bind, Prog.run_load, h.1, if_pos rfl]
    exact run_fetchCode h.2

theorem run_fetchBytes {s : BootMemory} : ∀ {bs : List UInt8} {off : Nat}, HasBytes s.page off bs →
    (fetchBytes off bs.length).run s = (bs, s)
  | [], _, _ => rfl
  | c :: bs, off, h => by
    rw [List.length_cons, fetchBytes, Prog.run_bind, Prog.run_load, Prog.run_bind,
      run_fetchBytes h.2, h.1]
    rfl

theorem run_movRax {s : BootMemory} {off : Nat} {next : List UInt8} {v : UInt64}
    (h : HasBytes s.page off (emitMovRaxImm64 v ++ next)) :
    (movRax off next).run s = (some v, s) := by
  obtain ⟨himm, hnext⟩ := HasBytes.append.1 h
  obtain ⟨hcode, hv⟩ := HasBytes.append.1 himm
  have hbytes : (fetchBytes (off + 2) 8).run s = (bytes64 v, s) :=
    run_fetchBytes (show HasBytes s.page (off + 2) (bytes64 v) from hv)
  have hnext' : (fetchCode (off + 10) next).run s = (true, s) := run_fetchCode hnext
  simp [movRax, run_fetchCode hcode, hbytes, hnext', leList_bytes64]

/-- Whatever context the page was built for, an AP follows it to that context. -/
theorem run_runTrampoline {s : BootMemory} (h : BuiltPage P L i s.page) :
    (runTrampoline P).run s = (.call L.apEntryOne (L.entryOf i), s) := by
  obtain ⟨hhead, hst, hctx, hentry⟩ := longParts h
  simp [runTrampoline, run_fetchCode h.real, run_fetchCode h.gdtr, run_fetchCode h.gdt,
    run_fetchCode h.prot32, runLongCode, run_fetchCode hhead, run_movRax hst, run_movRax hctx,
    run_movRax hentry, Layout.entryOf]

theorem still_fetchCode : ∀ (bs : List UInt8) (off : Nat),
    (fetchCode off bs).Within fun s s' => s' = s
  | [], _ => .ret _
  | _ :: bs, off => by
    refine .seq (.load fun _ => rfl) fun byte => ?_
    exact .cond (fun _ => still_fetchCode bs (off + 1)) fun _ => .ret _

theorem still_fetchBytes : ∀ (n off : Nat), (fetchBytes off n).Within fun s s' => s' = s
  | 0, _ => .ret _
  | n + 1, off => by
    refine .seq (.load fun _ => rfl) fun byte => ?_
    exact .seq (still_fetchBytes n (off + 1)) fun bytes => .ret _

theorem still_movRax (off : Nat) (next : List UInt8) :
    (movRax off next).Within fun s s' => s' = s := by
  unfold movRax
  refine .seq (still_fetchCode _ _) fun _ => .cond (fun _ => .ret _) fun _ => ?_
  refine .seq (still_fetchBytes _ _) fun _ => ?_
  exact .seq (still_fetchCode _ _) fun _ => .ret _

/-- An AP in the trampoline only reads. -/
theorem still_runTrampoline : (runTrampoline P).Within fun s s' => s' = s := by
  unfold runTrampoline
  iterate 4 refine .seq (still_fetchCode _ _) fun _ => ?_
  refine .cond (fun _ => ?_) fun _ => .ret _
  unfold runLongCode
  refine .seq (still_fetchCode _ _) fun _ => .cond (fun _ => .ret _) fun _ => ?_
  iterate 3 refine .seq (still_movRax _ _) fun _ => ?_
  split <;> exact .ret _

theorem callEntry_entryOf (j : ApContextIndex) : callEntry L j L.apEntryOne (L.entryOf i) =
    (Prog.store fun s : BootMemory =>
      { s with entries := Function.update s.entries j (some (L.entryOf i)) }) >>= fun _ =>
    apEntryOne i := by
  unfold callEntry
  rw [if_pos rfl, show (L.entryOf i).ctx = L.apContext i from rfl, L.contextAt_apContext]

/-- An AP that is started enters with the context that the page was built for. -/
theorem exists_entry {b : Build} (ok : BootCpu → BootMemory → BootMemory → Prop)
    {c : (bootSystem b P L).Config} {j : ApContextIndex} (hpage : BuiltPage P L i c.mem.page)
    (hsent : c.mem.sipiSent j = true) (hstart : c.mem.started j = false)
    (hok : ∀ s s', s.builtFor = c.mem.builtFor ∨ s'.entries j ≠ none → ok (.ap j) s s') :
    ∃ c', (bootSystem b P L).Reach ok c c' ∧ c'.mem.entries j = some (L.entryOf i) := by
  let s : BootMemory := { c.mem with started := Function.update c.mem.started j true }
  let d : (bootSystem b P L).Config :=
    ⟨s, Function.update c.prog (.ap j) (.ret (.call L.apEntryOne (L.entryOf i)))⟩
  have hrun : (runTrampoline P).run s = (.call L.apEntryOne (L.entryOf i), s) :=
    run_runTrampoline hpage
  have htramp : (bootSystem b P L).Reach ok c d := by
    have hsteps : (runTrampoline P).Steps (ok (.ap j)) s :=
      .of_still (hok s s (.inl rfl)) still_runTrampoline
    have h : (bootSystem b P L).Reach ok c ⟨((runTrampoline P).run s).2,
        Function.update c.prog (.ap j) (.ret ((runTrampoline P).run s).1)⟩ :=
      System.reach_of_trap (S := bootSystem b P L) (t := .ap j) (x := .sipi)
        (if_pos ⟨hsent, hstart⟩) (hok c.mem s (.inl rfl)) hsteps
    rwa [hrun] at h
  -- From the call on, the entry is recorded.
  have hentry : (callEntry L j L.apEntryOne (L.entryOf i)).Steps (ok (.ap j)) s := by
    rw [callEntry_entryOf]
    refine ⟨hok _ _ (.inr ?_), hok _ _ (.inr ?_), hok _ _ (.inr ?_), trivial⟩
    all_goals simp [BootMemory.setContext]
  have hd : d.prog (.ap j) = .ret (.call L.apEntryOne (L.entryOf i)) := Function.update_self _ _ _
  have hcall : (bootSystem b P L).Reach ok d _ :=
    System.reach_of_body (S := bootSystem b P L) hd rfl hentry
  refine ⟨_, htramp.trans hcall, ?_⟩
  change ((callEntry L j L.apEntryOne (L.entryOf i)).run s).2.entries j = _
  rw [callEntry_entryOf]
  simp [apEntryOne, BootMemory.setContext]

end Run

/-! ## Two APs -/

/-- A processor to boot from and two others. -/
def twoAps : BringUpInput where
  acpi := { localApicBase := 0xfee00000,
            cpus := [⟨0, 0, 1, false⟩, ⟨1, 1, 1, false⟩, ⟨2, 2, 1, false⟩] }
  map := .ofList
    [{ type := efiMemoryMappedIO, physicalStart := 0xfee00000, numberOfPages := 1 }]
  loadedCr3 := 0x100000
  trampolineBase := 0x8000
  sipiVector := 8

/-- Contexts that follow each other, each with its stack at its end. -/
def contextArray : Layout where
  apContext i := 0x200000 + i.val.toUInt64 * 0x8000
  bootStackTop i := 0x208000 + i.val.toUInt64 * 0x8000
  apEntryOne := 0x180000
  apContext_inj := by unfold Function.Injective; decide
  bootStackTop_inj := by unfold Function.Injective; decide

/-- Nothing has been stored yet. -/
def zeroedMemory : BootMemory where
  contexts _ := { online := false, apState := .none, entryState := .none }

theorem asleep_zeroedMemory : Asleep zeroedMemory := ⟨fun _ => rfl, fun _ => rfl, fun _ => rfl⟩

/-- The BSP alone goes through `bring_up_one_ap` for one more context. -/
theorem exists_broughtUp (ok : BootCpu → BootMemory → BootMemory → Prop)
    (hok : ∀ s s', ok .bsp s s') {b : Build} {c : (bootSystem b twoAps contextArray).Config}
    (n : Fin 2) (hc : c.prog .bsp = .ret (.bringUp n))
    (herr : (c.mem.contexts (n.castLE (by decide))).error = .ok) :
    ∃ s, (bootSystem b twoAps contextArray).Reach ok c
        ⟨s, Function.update c.prog .bsp (.ret (.bringUp (n + 1)))⟩ ∧
      ReadyFor twoAps contextArray (n.castLE (by decide)) c.mem true s := by
  let i : ApContextIndex := n.castLE (by decide)
  have hsel : ∀ n : Fin 2, (selectApTarget twoAps.acpi n).isSome := by decide
  obtain ⟨cpu, hcpu⟩ := Option.isSome_iff_exists.1 (hsel n)
  have hleads := leads_bringUpOneAp (L := contextArray) (i := i) herr hcpu (by decide +kernel)
    (by decide) (by decide) c.mem rfl
  have hbody : bspBootBody twoAps contextArray (.bringUp n) =
      some (bringUpOneAp twoAps contextArray i n >>= fun _ => pure (.bringUp (n + 1))) := by
    have hcount : apContextCount twoAps.acpi = 2 := by decide
    have hn : n.val < maxApContexts := n.isLt.trans (by decide)
    rw [bspBootBody, hcount, if_neg (by decide), dif_pos hn, if_pos n.isLt]
    rfl
  have hr : (bootSystem b twoAps contextArray).Reach ok c _ :=
    System.reach_of_body (S := bootSystem b twoAps contextArray) hc hbody (.of_forall hok _ _)
  refine ⟨((bringUpOneAp twoAps contextArray i n).run c.mem).2, ?_, hleads⟩
  erw [Prog.run_bind] at hr
  exact hr

/-- The first AP is brought up, starts and enters with its own context. -/
theorem ownEntries_of_firstAp : ∃ c,
    (bootSystem {} twoAps contextArray).Reach OnOwnPage
      (bootStart {} twoAps contextArray zeroedMemory) c ∧
    c.mem.entries 0 = some (contextArray.entryOf 0) ∧ OwnEntries contextArray c.mem := by
  obtain ⟨s, hr, hs⟩ := exists_broughtUp OnOwnPage (fun _ _ => trivial) (b := {})
    (c := bootStart {} twoAps contextArray zeroedMemory) 0 rfl rfl
  obtain ⟨c, hr', hc⟩ := exists_entry (i := 0) (j := 0) OnOwnPage hs.1.2
    (by simp [hs.2.sipiSent]) (by rw [hs.2.started]; rfl) (b := {})
    (c := ⟨s, Function.update (bootStart {} twoAps contextArray zeroedMemory).prog .bsp
      (.ret (.bringUp 1))⟩) (by
        rintro s' s'' (h | h) - - hno
        · exact h.trans hs.1.1
        · exact absurd hno h)
  exact ⟨c, hr.trans hr', hc,
    (ownEntries_of_reach {} twoAps contextArray asleep_zeroedMemory (hr.trans hr')).1⟩

/-- The first AP does not start while the BSP waits for it. When it starts, the page is the second
one's, and so is the context it enters with. -/
theorem not_ownEntries_of_lateStart : ∃ c,
    (bootSystem {} twoAps contextArray).Reach (fun _ _ _ => True)
      (bootStart {} twoAps contextArray zeroedMemory) c ∧ ¬ OwnEntries contextArray c.mem := by
  obtain ⟨s, hr, hs⟩ := exists_broughtUp (fun _ _ _ => True) (fun _ _ => trivial) (b := {})
    (c := bootStart {} twoAps contextArray zeroedMemory) 0 rfl rfl
  obtain ⟨s', hr', hs'⟩ := exists_broughtUp (fun _ _ _ => True) (fun _ _ => trivial) (b := {})
    (c := ⟨s, Function.update (bootStart {} twoAps contextArray zeroedMemory).prog .bsp
      (.ret (.bringUp 1))⟩) 1 (by simp)
    (by rw [hs.2.others _ (by decide)]; rfl)
  rw [Function.update_idem] at hr'
  obtain ⟨c, hr'', hc⟩ := exists_entry (i := 1) (j := 0) (fun _ _ _ => True) hs'.1.2
    (by rw [hs'.2.sipiSent, if_pos rfl, Function.update_of_ne (by decide)]; simp [hs.2.sipiSent])
    (by rw [hs'.2.started, hs.2.started]; rfl) (b := {})
    (c := ⟨s', Function.update (bootStart {} twoAps contextArray zeroedMemory).prog .bsp
      (.ret (.bringUp 2))⟩) (fun _ _ _ => trivial)
  refine ⟨c, (hr.trans hr').trans hr'', fun h => ?_⟩
  have := h.own 0 _ hc
  revert this
  decide

end VibeKernel

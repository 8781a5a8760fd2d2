import Aarchvm.Cpu.Smp
import Aarchvm.Bus.Map

/-!
# Store-exclusives along a run

A valid monitor means that its bytes are those of the CPU's latest load-exclusive
and that no write of the log since then covers one of them. The exception is a store
that the bus rejects after it accepted some of its bytes: the peers are told of those
bytes, but the CPU's own monitor is left.
-/
namespace Aarchvm

namespace Cpu

variable {c c' : Cpu}

/-! ## What leaves the monitor and the event register alone -/

/-- Neither the monitor nor what WFE looks at is changed, and no exception returns. -/
structure Quiet (c c' : Cpu) : Prop where
  exclusive : c'.exclusive = c.exclusive
  eventRegister : c'.eventRegister = c.eventRegister
  waitingForEvent : c'.waitingForEvent = c.waitingForEvent
  narrow : c.Narrow → c'.Narrow
  depth : c.exceptions.depth ≤ c'.exceptions.depth

theorem Quiet.refl (c : Cpu) : Quiet c c := ⟨rfl, rfl, rfl, id, le_rfl⟩

theorem Quiet.trans {c'' : Cpu} (h : Quiet c c') (h' : Quiet c' c'') : Quiet c c'' where
  exclusive := h'.exclusive.trans h.exclusive
  eventRegister := h'.eventRegister.trans h.eventRegister
  waitingForEvent := h'.waitingForEvent.trans h.waitingForEvent
  narrow hn := h'.narrow (h.narrow hn)
  depth := h.depth.trans h'.depth

theorem quiet_of_accessed (h : Accessed c c') : Quiet c c' := by
  have ht := h.translated
  rw [Translated] at ht
  have hexceptions : c'.exceptions = c.exceptions := by rw [ht]
  refine ⟨?_, ?_, ?_, h.narrow, ?_⟩
  · rw [ht]
  · rw [ht]
  · rw [ht]
  · rw [hexceptions]

theorem quiet_saveCurrentSpToBank (c : Cpu) : Quiet c c.saveCurrentSpToBank := by
  rw [saveCurrentSpToBank]
  split <;> exact ⟨rfl, rfl, rfl, id, le_rfl⟩

theorem quiet_setReg (c : Cpu) (i : Nat) (value : U64) : Quiet c (c.setReg i value) := by
  rw [setReg]
  split <;> exact ⟨rfl, rfl, rfl, id, le_rfl⟩

theorem quiet_setRegSized (c : Cpu) (i : Nat) (value : U64) (size : Nat) :
    Quiet c (c.setRegSized i value size) := quiet_setReg c i _

theorem quiet_enterSyncException (c : Cpu) (faultPc : U64) (ec iss : U32) (farValid : Bool)
    (far : U64) : Quiet c (c.enterSyncException faultPc ec iss farValid far) := by
  rw [enterSyncException]
  split
  · have hstep : Quiet c
        (if c.steppedInstructionInFlight || c.sysregs.softwareStepActiveNotPending then
          { c with sysregs := c.sysregs.setSoftwareStepState false }
        else c) := by
      split <;> exact ⟨rfl, rfl, rfl, id, le_rfl⟩
    have hsave := quiet_saveCurrentSpToBank
      { (if c.steppedInstructionInFlight || c.sysregs.softwareStepActiveNotPending then
          { c with sysregs := c.sysregs.setSoftwareStepState false }
        else c) with steppedInstructionInFlight := false }
    have hq := hstep.trans ⟨hsave.exclusive, hsave.eventRegister, hsave.waitingForEvent,
      hsave.narrow, hsave.depth⟩
    exact ⟨hq.exclusive, hq.eventRegister, hq.waitingForEvent, hq.narrow, Nat.le_succ _⟩
  · exact ⟨rfl, rfl, rfl, id, le_rfl⟩

theorem quiet_deliverIrq (c : Cpu) (intid : Nat) (newPrio : U8)
    (h : c.exceptions.depth < kExceptionStackCapacity) :
    Quiet c (c.deliverIrq intid newPrio h) := by
  have hsave := quiet_saveCurrentSpToBank c
  rw [deliverIrq]
  dsimp only [loadCurrentSpFromBank, setRunningPriority]
  split <;> exact ⟨hsave.exclusive, hsave.eventRegister, hsave.waitingForEvent, hsave.narrow,
    Nat.le_succ _⟩

theorem quiet_tryTakeIrq (c : Cpu) (g : GicV3) : Quiet c (c.tryTakeIrq g).2.1 := by
  rw [tryTakeIrq]
  split
  · exact ⟨rfl, rfl, rfl, id, le_rfl⟩
  · split
    · have hd := quiet_deliverIrq c.acknowledged
      exact ⟨(hd _ _ _).exclusive, (hd _ _ _).eventRegister, (hd _ _ _).waitingForEvent,
        (hd _ _ _).narrow, (hd _ _ _).depth⟩
    · exact ⟨rfl, rfl, rfl, id, le_rfl⟩

theorem quiet_of_raised (h : Raised c c') : Quiet c c' := by
  obtain ⟨c₁, ec, iss, farValid, far, h₁, -, h₂⟩ := h
  exact (quiet_of_accessed h₁).trans
    ((quiet_enterSyncException c₁ _ ec iss farValid far).trans (quiet_of_accessed h₂))

theorem quiet_of_failed (h : Failed c c') : Quiet c c' := by
  rcases h with ha | hr
  · exact quiet_of_accessed ha
  · exact quiet_of_raised hr

theorem quiet_dataAbort (c : Cpu) (va : U64) (cacheMaintenanceOrTranslation : Bool) :
    Quiet c (c.dataAbort va cacheMaintenanceOrTranslation) :=
  quiet_of_failed (failed_of_dataAbort c va cacheMaintenanceOrTranslation)

/-- ERET clears the monitor. It does not set the event register. -/
theorem eret_kept (c : Cpu) (g : GicV3) :
    (c.eret g).1.exclusive = none ∧ (c.eret g).1.eventRegister = c.eventRegister ∧
      (c.eret g).1.waitingForEvent = c.waitingForEvent ∧ (c.Narrow → (c.eret g).1.Narrow) := by
  have hsave := quiet_saveCurrentSpToBank c
  rw [eret, popException]
  split
  · exact ⟨rfl, hsave.eventRegister, hsave.waitingForEvent, hsave.narrow⟩
  · split <;> exact ⟨rfl, hsave.eventRegister, hsave.waitingForEvent, hsave.narrow⟩

theorem quiet_mmuStep (m : Mmu) (op : MmuOp) : Quiet m.cpu (m.step op).cpu := by
  have hof : ∀ t : Tlb, (∀ e, t.Holds e → m.cpu.tlb.Holds e) →
      Quiet m.cpu { m.cpu with tlb := t } :=
    fun t ht => ⟨rfl, rfl, rfl, fun hn e he => hn e (ht e he), le_rfl⟩
  have hflush : ∀ sysregs,
      Quiet m.cpu { m.cpu with sysregs := sysregs, tlb := m.cpu.tlb.flushAll } :=
    fun _ => ⟨rfl, rfl, rfl, fun _ e he => absurd he Tlb.not_holds_flushAll, le_rfl⟩
  cases op with
  | translateData va access => exact quiet_of_accessed (accessed_translateDataAddressFast _ _ _ _)
  | translate va access allowTlbFill useTlb applyPan =>
    exact quiet_of_accessed (accessed_translateAddress _ _ _ _ _ _ _)
  | maintain va faultOnEl0 allowTlbFill useTlb =>
    exact quiet_of_accessed ⟨translated_translateCacheMaintenanceAddress _ _ _ _ _ _, fun hn =>
      hn.of_filled fun _ he => holds_translateCacheMaintenanceAddress he⟩
  | tlbiVmalle1 => exact hof _ fun e he => absurd he Tlb.not_holds_flushAll
  | tlbiVae1 operand allAsids =>
    cases allAsids with
    | false => exact hof _ fun e he => (Tlb.holds_invalidate he).1
    | true => exact hof _ fun e he => (Tlb.holds_invalidate he).1
  | tlbiAside1 operand => exact hof _ fun e he => (Tlb.holds_invalidate he).1
  | writeSctlrEl1 value => exact hflush _
  | writeTcrEl1 value => exact hflush _
  | writeMairEl1 value => exact hflush _
  | writeTtbr0El1 value => exact ⟨rfl, rfl, rfl, id, le_rfl⟩
  | writeTtbr1El1 value => exact ⟨rfl, rfl, rfl, id, le_rfl⟩
  | setPstate pstate => exact ⟨rfl, rfl, rfl, id, le_rfl⟩
  | setMemory readDesc => exact Quiet.refl _

theorem quiet_irqWakeupReady (c : Cpu) (g : GicV3) : Quiet c (c.irqWakeupReady g).2.1 := by
  rw [irqWakeupReady]
  split
  · split <;> exact ⟨rfl, rfl, rfl, id, le_rfl⟩
  · exact Quiet.refl c

/-- A CPU in WFI or WFE keeps its monitor. -/
theorem waitStep_kept (c : Cpu) (g : GicV3) :
    (c.waitStep g).1.exclusive = c.exclusive ∧ (c.Narrow → (c.waitStep g).1.Narrow) ∧
      c.exceptions.depth ≤ (c.waitStep g).1.exceptions.depth := by
  rw [waitStep]
  split
  · dsimp only
    split
    · have hq := quiet_tryTakeIrq { c with waitingForInterrupt := false }
      split
      · exact ⟨(hq _).exclusive, (hq _).narrow, (hq _).depth⟩
      · exact ⟨rfl, id, le_rfl⟩
    · exact ⟨rfl, id, le_rfl⟩
  · split
    · split
      · exact ⟨rfl, id, le_rfl⟩
      · have hready := quiet_irqWakeupReady c g
        have htaken :=
          hready.trans (quiet_tryTakeIrq (c.irqWakeupReady g).2.1 (c.irqWakeupReady g).2.2)
        dsimp only
        split
        · split
          · exact ⟨htaken.exclusive, htaken.narrow, htaken.depth⟩
          · exact ⟨htaken.exclusive, htaken.narrow, htaken.depth⟩
        · exact ⟨hready.exclusive, hready.narrow, hready.depth⟩
    · exact ⟨rfl, id, le_rfl⟩

end Cpu

/-! ## What an instruction leaves -/

namespace Core

open Cpu

variable {β : Type} {port : BusPort β} {s : Core β}

/-- An instruction other than a load-exclusive that completed: either the monitor is clear, or
it is the one before and the instruction has failed or not written. -/
structure Ran (s : Core β) (r : Bool × Core β) : Prop where
  narrow : s.cpu.Narrow → r.2.cpu.Narrow
  writes : ∃ ws, r.2.writes = s.writes ++ ws ∧
    (s.cpu.Narrow → ∀ w ∈ ws, w.pa.toNat + w.size < 2 ^ 64)
  monitor : r.2.cpu.exclusive = none ∨
    r.2.cpu.exclusive = s.cpu.exclusive ∧ (r.1 = true → r.2.writes = s.writes)
  depth : s.cpu.exceptions.depth ≤ r.2.cpu.exceptions.depth

theorem ran_of_quiet {ok : Bool} {c : Cpu} {b : β} (h : Quiet s.cpu c) :
    Ran s (ok, ⟨c, b, s.writes⟩) :=
  ⟨h.narrow, ⟨[], (List.append_nil _).symm, fun _ _ hw => nomatch hw⟩,
    .inr ⟨h.exclusive, fun _ => rfl⟩, h.depth⟩

/-- The monitor was cleared before or after. -/
theorem ran_of_cleared {ok : Bool} {c₀ c : Cpu} {b : β} (h₀ : Quiet s.cpu c₀)
    (h : Quiet c₀.clearExclusiveMonitor c) : Ran s (ok, ⟨c, b, s.writes⟩) :=
  ⟨fun hn => h.narrow (h₀.narrow hn), ⟨[], (List.append_nil _).symm, fun _ _ hw => nomatch hw⟩,
    .inl h.exclusive, h₀.depth.trans h.depth⟩

/-- A failed read left the monitor alone and wrote nothing. -/
theorem quiet_of_read {r : Option U64 × Core β} (h : ReadSpec s r) : Quiet s.cpu r.2.cpu := by
  cases hr : r.1 with
  | none => exact quiet_of_failed (h.failed hr)
  | some value => exact quiet_of_accessed (h.accessed value hr)

theorem ran_of_read {ok : Bool} {r : Option U64 × Core β} {c : Cpu} (h : ReadSpec s r)
    (hc : Quiet r.2.cpu c) : Ran s (ok, r.2.setCpu c) := by
  have hq := (quiet_of_read h).trans hc
  refine ⟨hq.narrow, ⟨[], ?_, fun _ _ hw => nomatch hw⟩, .inr ⟨hq.exclusive, fun _ => h.writes⟩,
    hq.depth⟩
  rw [List.append_nil]
  exact h.writes

theorem ran_of_write {r : Bool × Core β} (h : WriteSpec s r) : Ran s r := by
  cases hr : r.1 with
  | false =>
    have hq := quiet_of_failed (h.failed hr)
    exact ⟨hq.narrow, h.writes,
      .inr ⟨hq.exclusive, fun ht => absurd (hr.symm.trans ht) (by decide)⟩, hq.depth⟩
  | true =>
    obtain ⟨c, hacc, hc⟩ := h.stored hr
    have hq := quiet_of_accessed hacc
    refine ⟨fun hn => ?_, h.writes, .inl ?_, ?_⟩
    · rw [hc]
      exact hq.narrow hn
    · rw [hc]
      rfl
    · rw [hc]
      exact hq.depth

/-- The abort of a write that failed. -/
theorem ran_of_write_abort {va : U64} {s' : Core β} (h : WriteSpec s (false, s')) :
    Ran s (false, s'.dataAbort va) := by
  have hq := (quiet_of_failed (h.failed rfl)).trans (quiet_dataAbort s'.cpu va false)
  exact ⟨hq.narrow, h.writes, .inr ⟨hq.exclusive, fun ht => nomatch ht⟩, hq.depth⟩

/-- What `set_exclusive_monitor` keeps. -/
theorem setExclusiveMonitor_kept (c : Cpu) (readDesc : U64 → Option U64) (va : U64) (size : Nat) :
    (c.setExclusiveMonitor readDesc va size).eventRegister = c.eventRegister ∧
      (c.setExclusiveMonitor readDesc va size).waitingForEvent = c.waitingForEvent ∧
      (c.Narrow → (c.setExclusiveMonitor readDesc va size).Narrow) ∧
      c.exceptions.depth ≤ (c.setExclusiveMonitor readDesc va size).exceptions.depth := by
  have hcapture := quiet_of_accessed
    (accessed_captureExclusivePhysAddrs c.clearExclusiveMonitor readDesc va size false)
  rw [setExclusiveMonitor]
  split
  · next hc =>
    rw [hc] at hcapture
    exact ⟨hcapture.eventRegister, hcapture.waitingForEvent, hcapture.narrow, hcapture.depth⟩
  · next hc =>
    rw [hc] at hcapture
    exact ⟨hcapture.eventRegister, hcapture.waitingForEvent, hcapture.narrow, hcapture.depth⟩

/-- A store-exclusive leaves the monitor clear, however it ends. -/
theorem storeExclusiveWith_ran {rs rn : Nat} {va : U64} {size : Nat} {ok : Bool}
    {write : Core β → Bool × Core β} (hwrite : ∀ s', WriteSpec s' (write s')) :
    Ran s (ok, (s.storeExclusiveWith port rs rn va size write).2) ∧
      (s.storeExclusiveWith port rs rn va size write).2.cpu.exclusive = none := by
  rw [storeExclusiveWith]
  split
  · next c hc => exact ⟨ran_of_cleared (quiet_of_raised (raised_of_spAlignment hc)) (.refl _), rfl⟩
  split
  · next c hc =>
      exact ⟨ran_of_cleared (quiet_of_raised (raised_of_dataAlignment hc)) (.refl _), rfl⟩
  have hcheck := quiet_of_accessed
    (accessed_checkExclusiveMonitor s.cpu (port.readDesc s.bus) va size)
  split
  · next c hc =>
    rw [hc] at hcheck
    have hq := quiet_dataAbort c.clearExclusiveMonitor va false
    exact ⟨ran_of_cleared hcheck hq, hq.exclusive⟩
  · next c hc =>
    rw [hc] at hcheck
    have hq := quiet_setReg c.clearExclusiveMonitor rs 1
    exact ⟨ran_of_cleared hcheck hq, hq.exclusive⟩
  · next c hc =>
    rw [hc] at hcheck
    have hw := hwrite (s.setCpu c.clearExclusiveMonitor)
    obtain ⟨ws, hws, hwrap⟩ := hw.writes
    split
    · next s' hs' =>
      rw [hs'] at hw hws
      have hq := (quiet_of_failed (hw.failed rfl)).trans (quiet_dataAbort s'.cpu va false)
      exact ⟨⟨fun hn => hq.narrow (hcheck.narrow hn),
        ⟨ws, hws, fun hn => hwrap (hcheck.narrow hn)⟩, .inl hq.exclusive,
        hcheck.depth.trans hq.depth⟩, hq.exclusive⟩
    · next s' hs' =>
      rw [hs'] at hw hws
      obtain ⟨c', hacc, hc'⟩ := hw.stored rfl
      have hq : Quiet c.clearExclusiveMonitor (s'.cpu.setReg rs 0) := by
        have hset := quiet_setReg s'.cpu rs 0
        rw [hc'] at hset ⊢
        have hstored := quiet_of_accessed hacc
        exact ⟨hset.exclusive, hset.eventRegister.trans hstored.eventRegister,
          hset.waitingForEvent.trans hstored.waitingForEvent,
          fun hn => hset.narrow (hstored.narrow hn), hstored.depth.trans hset.depth⟩
      exact ⟨⟨fun hn => hq.narrow (hcheck.narrow hn),
        ⟨ws, hws, fun hn => hwrap (hcheck.narrow hn)⟩, .inl hq.exclusive,
        hcheck.depth.trans hq.depth⟩, hq.exclusive⟩

theorem storeExclusive_ran (s : Core β) (ok : Bool) (rs rn : Nat) (addr value : U64) (size : Nat) :
    Ran s (ok, (s.storeExclusive port rs rn addr value size).2) ∧
      (s.storeExclusive port rs rn addr value size).2.cpu.exclusive = none :=
  storeExclusiveWith_ran fun s' => mmuWriteValue_spec s' addr value size .write

theorem storeExclusivePair_ran (s : Core β) (ok : Bool) (rs rn : Nat) (addr first second : U64)
    (elemSize : Nat) :
    Ran s (ok, (s.storeExclusivePair port rs rn addr first second elemSize).2) ∧
      (s.storeExclusivePair port rs rn addr first second elemSize).2.cpu.exclusive = none :=
  storeExclusiveWith_ran fun s' => rawMmuWritePairAtomic_spec s' addr first second elemSize

/-- What a load-exclusive leaves. -/
structure Reserving (s : Core β) (r : Bool × Core β) : Prop where
  narrow : s.cpu.Narrow → r.2.cpu.Narrow
  eventRegister : r.2.cpu.eventRegister = s.cpu.eventRegister
  waitingForEvent : r.2.cpu.waitingForEvent = s.cpu.waitingForEvent
  writes : r.2.writes = s.writes
  failed : r.1 = false → r.2.cpu.exclusive = s.cpu.exclusive
  depth : s.cpu.exceptions.depth ≤ r.2.cpu.exceptions.depth

theorem reserving_of_quiet {c : Cpu} {b : β} (h : Quiet s.cpu c) :
    Reserving s (false, ⟨c, b, s.writes⟩) :=
  ⟨h.narrow, h.eventRegister, h.waitingForEvent, rfl, fun _ => h.exclusive, h.depth⟩

theorem reserving_of_read_abort {r : Option U64 × Core β} {va : U64} (h : ReadSpec s r) :
    Reserving s (false, r.2.dataAbort va) := by
  have hq := (quiet_of_read h).trans (quiet_dataAbort r.2.cpu va false)
  exact ⟨hq.narrow, hq.eventRegister, hq.waitingForEvent, h.writes, fun _ => hq.exclusive, hq.depth⟩

theorem reserving_of_set {s' : Core β} {c : Cpu} {readDesc : U64 → Option U64} {va : U64}
    {size : Nat} (hc : Quiet s.cpu c) (hw : s'.writes = s.writes) :
    Reserving s (true, s'.setCpu (c.setExclusiveMonitor readDesc va size)) := by
  obtain ⟨hevent, hwait, hnarrow, hdepth⟩ := setExclusiveMonitor_kept c readDesc va size
  exact ⟨fun hn => hnarrow (hc.narrow hn), hevent.trans hc.eventRegister,
    hwait.trans hc.waitingForEvent, hw, fun h => (nomatch h), hc.depth.trans hdepth⟩

theorem loadExclusive_reserving (s : Core β) (rt rn : Nat) (addr : U64) (size : Nat) :
    Reserving s (s.loadExclusive port rt rn addr size) := by
  have hread : ReadSpec s (s.mmuRead port rn addr size true) := mmuRead_spec s rn addr size true
  rw [loadExclusive]
  split
  · next s' hs' =>
    rw [hs'] at hread
    exact reserving_of_read_abort hread
  · next value s' hs' =>
    rw [hs'] at hread
    exact reserving_of_set ((quiet_of_read hread).trans (quiet_setRegSized _ _ _ _)) hread.writes

theorem loadExclusivePair_reserving (s : Core β) (rt rt2 rn : Nat) (addr : U64) (elemSize : Nat) :
    Reserving s (s.loadExclusivePair port rt rt2 rn addr elemSize) := by
  have hread : ReadSpec s (s.mmuRead port rn addr elemSize true) :=
    mmuRead_spec s rn addr elemSize true
  rw [loadExclusivePair]
  split
  · next c hc => exact reserving_of_quiet (quiet_of_raised (raised_of_spAlignment hc))
  split
  · next c hc => exact reserving_of_quiet (quiet_of_raised (raised_of_dataAlignment hc))
  split
  · next s₁ hs₁ =>
    rw [hs₁] at hread
    exact reserving_of_read_abort hread
  · next v₁ s₁ hs₁ =>
    rw [hs₁] at hread
    have hread₂ : ReadSpec s₁
        (s₁.mmuRead port rn (addr + BitVec.ofNat 64 elemSize) elemSize true) :=
      mmuRead_spec s₁ rn _ elemSize true
    have hq₁ := quiet_of_read hread
    split
    · next s₂ hs₂ =>
      rw [hs₂] at hread₂
      have hq := hq₁.trans ((quiet_of_read hread₂).trans (quiet_dataAbort s₂.cpu addr false))
      exact ⟨hq.narrow, hq.eventRegister, hq.waitingForEvent, hread₂.writes.trans hread.writes,
        fun _ => hq.exclusive, hq.depth⟩
    · next v₂ s₂ hs₂ =>
      rw [hs₂] at hread₂
      have hq := (hq₁.trans (quiet_of_read hread₂)).trans
        ((quiet_setRegSized s₂.cpu rt v₁ elemSize).trans (quiet_setRegSized _ rt2 v₂ elemSize))
      exact reserving_of_set hq (hread₂.writes.trans hread.writes)

/-- WFE keeps the monitor. -/
theorem wfe_kept (c : Cpu) :
    c.wfe.exclusive = c.exclusive ∧ (c.Narrow → c.wfe.Narrow) ∧
      c.exceptions.depth ≤ c.wfe.exceptions.depth := by
  have hsync := quiet_enterSyncException c (c.pc - 4) 0x01 0x1 false 0
  rw [Cpu.wfe]
  split
  · exact ⟨hsync.exclusive, hsync.narrow, hsync.depth⟩
  · split <;> exact ⟨rfl, id, le_rfl⟩

theorem quiet_wfi (c : Cpu) : Quiet c c.wfi := by
  rw [Cpu.wfi]
  split
  · exact quiet_enterSyncException c _ _ _ _ _
  · exact ⟨rfl, rfl, rfl, id, le_rfl⟩

end Core

/-- A load-exclusive. -/
def MemInsn.isLoadExclusive : MemInsn → Bool
  | .loadExclusive .. | .loadExclusivePair .. => true
  | _ => false

namespace Core

variable {β : Type} {port : BusPort β} {s : Core β} {insn : MemInsn}

theorem execute_ran (h : insn.isLoadExclusive = false) : Ran s (s.execute port insn) := by
  cases insn with
  | load rn va size forceCheck =>
    have hread : ReadSpec s (s.mmuRead port rn va size forceCheck) :=
      mmuRead_spec s rn va size forceCheck
    rw [execute]
    split
    · next s' hs' =>
      rw [hs'] at hread
      exact ran_of_read hread (Cpu.quiet_dataAbort s'.cpu va false)
    · next value s' hs' =>
      rw [hs'] at hread
      exact ran_of_read hread (Cpu.Quiet.refl s'.cpu)
  | store rn va value size access forceCheck =>
    have hwrite : WriteSpec s (s.mmuWrite port rn va value size access forceCheck) :=
      mmuWrite_spec s rn va value size access forceCheck
    rw [execute]
    split
    · next s' hs' => exact ran_of_write_abort (hs' ▸ hwrite)
    · next s' hs' => exact ran_of_write (hs' ▸ hwrite)
  | storePair addr first second elemSize =>
    have hwrite : WriteSpec s (s.rawMmuWritePairAtomic port addr first second elemSize) :=
      rawMmuWritePairAtomic_spec s addr first second elemSize
    rw [execute]
    split
    · next s' hs' => exact ran_of_write_abort (hs' ▸ hwrite)
    · next s' hs' => exact ran_of_write (hs' ▸ hwrite)
  | dcZva addr => exact ran_of_write (dcZva_spec s addr)
  | loadExclusive rt rn addr k => cases h
  | loadExclusivePair rt rt2 rn addr k => cases h
  | storeExclusive rs rn addr value k =>
    exact (storeExclusive_ran s _ rs rn addr value _).1
  | storeExclusivePair rs rn addr first second k =>
    exact (storeExclusivePair_ran s _ rs rn addr first second _).1
  | clrex => exact ran_of_cleared (.refl _) (.refl _)
  | wfe =>
    obtain ⟨hexclusive, hnarrow, hdepth⟩ := wfe_kept s.cpu
    exact ⟨hnarrow, ⟨[], (List.append_nil _).symm, fun _ _ hw => nomatch hw⟩,
      .inr ⟨hexclusive, fun _ => rfl⟩, hdepth⟩
  | wfi => exact ran_of_quiet (quiet_wfi s.cpu)
  | sevl =>
    exact ⟨id, ⟨[], (List.append_nil _).symm, fun _ _ hw => nomatch hw⟩, .inr ⟨rfl, fun _ => rfl⟩,
      le_rfl⟩

theorem execute_reserving (h : insn.isLoadExclusive = true) :
    Reserving s (s.execute port insn) := by
  cases insn with
  | loadExclusive rt rn addr k => exact loadExclusive_reserving s rt rn addr _
  | loadExclusivePair rt rt2 rn addr k => exact loadExclusivePair_reserving s rt rt2 rn addr _
  | _ => cases h

theorem execute_narrow (h : s.cpu.Narrow) : (s.execute port insn).2.cpu.Narrow := by
  cases hload : insn.isLoadExclusive with
  | false => exact (execute_ran hload).narrow h
  | true => exact (execute_reserving hload).narrow h

/-- The writes of an instruction do not run past the end of the address space. -/
theorem execute_writes (h : s.cpu.Narrow) (hw : s.writes = []) :
    ∀ w ∈ (s.execute port insn).2.writes, w.pa.toNat + w.size < 2 ^ 64 := by
  cases hload : insn.isLoadExclusive with
  | false =>
    have hran : Ran s (s.execute port insn) := execute_ran hload
    obtain ⟨ws, hws, hwrap⟩ := hran.writes
    rw [hws, hw]
    exact hwrap h
  | true =>
    rw [(execute_reserving hload).writes, hw]
    exact fun _ h => nomatch h

theorem stores_cleared (h : s.stores port insn = true) :
    (s.execute port insn).2.cpu.exclusive = none := by
  cases insn with
  | storeExclusive rs rn addr value k =>
    exact (storeExclusive_ran s true rs rn addr value (2 ^ k.val)).2
  | storeExclusivePair rs rn addr first second k =>
    exact (storeExclusivePair_ran s true rs rn addr first second (2 ^ k.val)).2
  | _ => cases h

/-- A store-exclusive that stores writes the bytes of its monitor. -/
theorem stores_writes (h : s.stores port insn = true) (hw : s.writes = []) :
    ∃ m, s.cpu.exclusive = some m ∧ writtenBytes (s.execute port insn).2.writes = m.physAddrs := by
  cases insn with
  | storeExclusive rs rn addr value k =>
    obtain ⟨m, ws, hm, hbytes, hws⟩ :=
      storeExclusive_stored (Nat.le_of_lt_succ k.isLt) (eq_of_beq h)
    refine ⟨m, hm, ?_⟩
    rw [hw] at hws
    rw [← hbytes]
    exact congrArg writtenBytes hws
  | storeExclusivePair rs rn addr first second k =>
    obtain ⟨m, ws, hm, hbytes, hws⟩ :=
      storeExclusivePair_stored (Nat.le_of_lt_succ k.isLt) (eq_of_beq h)
    refine ⟨m, hm, ?_⟩
    rw [hw] at hws
    rw [← hbytes]
    exact congrArg writtenBytes hws
  | _ => cases h

end Core

/-! ## What the log says -/

/-- The write covers the byte at `b`. -/
def PhysWrite.Covers (w : PhysWrite) (b : U64) : Prop :=
  w.pa.toNat ≤ b.toNat ∧ b.toNat < w.pa.toNat + w.size

instance (w : PhysWrite) (b : U64) : Decidable (w.Covers b) := inferInstanceAs (Decidable (_ ∧ _))

/-- The event is no load-exclusive of CPU `i` and no write of one of `bytes`. -/
def MemEvent.Spares (i : Nat) (bytes : List U64) : MemEvent → Prop
  | .loadExclusive j _ => j ≠ i
  | .storeExclusive _ _ => True
  | .write _ w => ∀ b ∈ bytes, ¬ w.Covers b

/-- The latest load-exclusive of CPU `i` read `bytes`, and none of them is written since. -/
def Reserved (log : List MemEvent) (i : Nat) (bytes : List U64) : Prop :=
  ∃ before between, log = before ++ MemEvent.loadExclusive i bytes :: between ∧
    ∀ e ∈ between, e.Spares i bytes

/-- Each store-exclusive that succeeded stored to the bytes of its CPU's latest load-exclusive,
and none of them was written in between. -/
def ExclusiveLog (log : List MemEvent) : Prop :=
  ∀ before i bytes after, log = before ++ MemEvent.storeExclusive i bytes :: after →
    Reserved before i bytes

section Log

variable {log es : List MemEvent} {i : Nat} {bytes : List U64}

theorem reserved_loadExclusive (log : List MemEvent) (i : Nat) (bytes : List U64) :
    Reserved (log ++ [.loadExclusive i bytes]) i bytes :=
  ⟨log, [], rfl, fun _ h => nomatch h⟩

theorem Reserved.append (h : Reserved log i bytes) (hes : ∀ e ∈ es, e.Spares i bytes) :
    Reserved (log ++ es) i bytes := by
  obtain ⟨before, between, rfl, hspares⟩ := h
  refine ⟨before, between ++ es, by simp, fun e he => ?_⟩
  rcases List.mem_append.1 he with he | he
  · exact hspares e he
  · exact hes e he

theorem exclusiveLog_nil : ExclusiveLog [] := by
  intro before i bytes after h
  simp at h

theorem ExclusiveLog.append (h : ExclusiveLog log)
    (hes : ∀ before i bytes after, es = before ++ MemEvent.storeExclusive i bytes :: after →
      Reserved (log ++ before) i bytes) : ExclusiveLog (log ++ es) := by
  intro before i bytes after heq
  rcases List.append_eq_append_iff.1 heq with ⟨mid, rfl, hmid⟩ | ⟨mid, rfl, hmid⟩
  · exact hes mid i bytes after hmid
  · cases mid with
    | nil =>
      simpa using hes [] i bytes after hmid.symm
    | cons e rest =>
      obtain ⟨rfl, rfl⟩ := List.cons.inj hmid
      exact h before i bytes rest rfl

/-- Events that are no store-exclusives. -/
theorem ExclusiveLog.append_of_none (h : ExclusiveLog log)
    (hes : ∀ i bytes, MemEvent.storeExclusive i bytes ∉ es) : ExclusiveLog (log ++ es) := by
  apply h.append
  intro before i bytes after heq
  exact absurd (heq ▸ List.mem_append_right before List.mem_cons_self) (hes i bytes)

end Log

namespace Cpu

variable {c : Cpu} {w : PhysWrite} {m : ExclusiveMonitor}

/-- `ranges_overlap` finds the byte in a range that ends within the address space. -/
theorem rangesOverlap_of_covers {b : U64} (hw : w.pa.toNat + w.size < 2 ^ 64) (h : w.Covers b) :
    rangesOverlap b 1 w.pa w.size = true := by
  obtain ⟨hle, hlt⟩ := h
  have hend : (w.pa + BitVec.ofNat 64 w.size).toNat = w.pa.toNat + w.size := by
    rw [BitVec.toNat_add, BitVec.toNat_ofNat, Nat.mod_eq_of_lt (show w.size < 2 ^ 64 by omega),
      Nat.mod_eq_of_lt hw]
  have hone : (b + BitVec.ofNat 64 1).toNat = b.toNat + 1 := by
    rw [BitVec.toNat_add, BitVec.toNat_ofNat]
    omega
  rw [rangesOverlap, if_neg (by omega), Bool.and_eq_true, decide_eq_true_iff, decide_eq_true_iff,
    BitVec.lt_def, BitVec.lt_def, hend, hone]
  omega

/-- A monitor that a notification leaves is not covered by the write. -/
theorem notify_exclusive (h : (c.notifyExternalMemoryWrite w).exclusive = some m) :
    c.exclusive = some m ∧
      (w.pa.toNat + w.size < 2 ^ 64 → ∀ b ∈ m.physAddrs, ¬ w.Covers b) := by
  rw [notifyExternalMemoryWrite] at h
  split at h
  · cases h
  · next hover =>
    refine ⟨h, fun hw b hb hcovers => hover ?_⟩
    rw [exclusiveMonitorOverlaps, h]
    exact List.any_eq_true.2 ⟨b, hb, rangesOverlap_of_covers hw hcovers⟩

theorem notifyAll_exclusive {ws : List PhysWrite} (h : (c.notifyAll ws).exclusive = some m) :
    c.exclusive = some m ∧
      ((∀ w ∈ ws, w.pa.toNat + w.size < 2 ^ 64) → ∀ w ∈ ws, ∀ b ∈ m.physAddrs, ¬ w.Covers b) := by
  induction ws generalizing c with
  | nil => exact ⟨h, fun _ _ hw => nomatch hw⟩
  | cons w ws ih =>
    obtain ⟨hrest, hspared⟩ := ih h
    obtain ⟨hm, hfirst⟩ := notify_exclusive hrest
    refine ⟨hm, fun hwrap w' hw' => ?_⟩
    rcases List.mem_cons.1 hw' with rfl | hw'
    · exact hfirst (hwrap w' List.mem_cons_self)
    · exact hspared (fun v hv => hwrap v (List.mem_cons_of_mem _ hv)) w' hw'

theorem notify_narrow (h : c.Narrow) : (c.notifyExternalMemoryWrite w).Narrow := by
  rw [notifyExternalMemoryWrite]
  split
  · exact h
  · exact h

theorem notifyAll_narrow {ws : List PhysWrite} (h : c.Narrow) : (c.notifyAll ws).Narrow := by
  induction ws generalizing c with
  | nil => exact h
  | cons w ws ih => exact ih (notify_narrow h)

end Cpu

/-! ## Runs -/

namespace Smp

open Aarchvm.Core

variable {β : Type} {port : BusPort β} {s : Smp β} {i : Nat} {insn : MemInsn}

/-- An instruction that fails has written no byte of its own CPU's monitor, and the range of a
DMA write ends within the address space. -/
def Whole (port : BusPort β) (s : Smp β) : SmpOp β → Prop
  | .insn i insn =>
    ((s.core i).execute port insn).1 = false →
      ∀ m, (s.cpus i).exclusive = some m →
        ∀ w ∈ ((s.core i).execute port insn).2.writes, ∀ b ∈ m.physAddrs, ¬ w.Covers b
  | .dma w => w.pa.toNat + w.size < 2 ^ 64
  | _ => True

structure Inv (s : Smp β) : Prop where
  narrow : ∀ i, (s.cpus i).Narrow
  reserved : ∀ i m, (s.cpus i).exclusive = some m → Reserved s.log i m.physAddrs
  log : ExclusiveLog s.log

theorem exclusiveEvents_of_load (h : insn.isLoadExclusive = true) :
    s.exclusiveEvents port i insn =
      if ((s.core i).execute port insn).1 then
        [.loadExclusive i
          ((((s.core i).execute port insn).2.cpu.exclusive.map (·.physAddrs)).getD [])]
      else [] := by
  cases insn <;> first | rfl | cases h

theorem exclusiveEvents_of_not_load (h : insn.isLoadExclusive = false) :
    s.exclusiveEvents port i insn =
      if (s.core i).stores port insn then
        [.storeExclusive i (writtenBytes ((s.core i).execute port insn).2.writes)]
      else [] := by
  cases insn <;> first | rfl | cases h

/-- The monitor that an instruction leaves: that of its load-exclusive, or the one before,
which it has not written. -/
theorem insn_exclusive {m : ExclusiveMonitor} (hwhole : s.Whole port (.insn i insn))
    (hm : ((s.core i).execute port insn).2.cpu.exclusive = some m) :
    (s.exclusiveEvents port i insn = [.loadExclusive i m.physAddrs] ∧
        ((s.core i).execute port insn).2.writes = []) ∨
      (s.exclusiveEvents port i insn = [] ∧ (s.cpus i).exclusive = some m ∧
        ∀ w ∈ ((s.core i).execute port insn).2.writes, ∀ b ∈ m.physAddrs, ¬ w.Covers b) := by
  cases hload : insn.isLoadExclusive with
  | true =>
    have hr : Reserving (s.core i) ((s.core i).execute port insn) := execute_reserving hload
    rw [exclusiveEvents_of_load hload]
    cases hok : ((s.core i).execute port insn).1 with
    | true =>
      left
      refine ⟨?_, hr.writes⟩
      rw [hm]
      rfl
    | false =>
      right
      refine ⟨rfl, (hr.failed hok).symm.trans hm, fun w hw => ?_⟩
      rw [hr.writes] at hw
      cases hw
  | false =>
    have hran : Ran (s.core i) ((s.core i).execute port insn) := execute_ran hload
    right
    rcases hran.monitor with hnone | ⟨hsame, hwrites⟩
    · rw [hnone] at hm
      cases hm
    · rw [exclusiveEvents_of_not_load hload]
      refine ⟨?_, hsame.symm.trans hm, ?_⟩
      · apply if_neg
        intro hstores
        rw [Core.stores_cleared hstores] at hm
        cases hm
      · cases hok : ((s.core i).execute port insn).1 with
        | true =>
          rw [hwrites hok]
          exact fun w hw => nomatch hw
        | false => exact hwhole hok m (hsame.symm.trans hm)

theorem setCpu_cpus_self (s : Smp β) (i : Nat) (c : Cpu) : (s.setCpu i c).cpus i = c :=
  Function.update_self _ _ _

theorem setCpu_cpus_of_ne {j : Nat} (hj : j ≠ i) (c : Cpu) : (s.setCpu i c).cpus j = s.cpus j :=
  Function.update_of_ne hj _ _

theorem commit_cpus_self (s : Smp β) (i : Nat) (r : Core β) (events : List MemEvent) :
    (s.commit i r events).cpus i = r.cpu := by
  rw [Smp.commit]
  dsimp only
  rw [Function.update_self]

theorem commit_cpus_of_ne {j : Nat} (hj : j ≠ i) (r : Core β) (events : List MemEvent) :
    (s.commit i r events).cpus j = (s.cpus j).notifyAll r.writes := by
  rw [Smp.commit]
  dsimp only
  rw [Function.update_of_ne hj]

/-! ### Translation buffers stay narrow -/

theorem narrow_setCpu {c : Cpu} {g : GicV3} (hn : ∀ i, (s.cpus i).Narrow)
    (hc : (s.cpus i).Narrow → c.Narrow) :
    ∀ j, (({ s.setCpu i c with gic := g } : Smp β).cpus j).Narrow := by
  intro j
  show ((s.setCpu i c).cpus j).Narrow
  by_cases hj : j = i
  · subst hj
    rw [setCpu_cpus_self]
    exact hc (hn j)
  · rw [setCpu_cpus_of_ne hj]
    exact hn j

theorem narrow_commit {events : List MemEvent} (hn : ∀ i, (s.cpus i).Narrow) :
    ∀ j, ((s.commit i ((s.core i).execute port insn).2 events).cpus j).Narrow := by
  intro j
  by_cases hj : j = i
  · subst hj
    rw [commit_cpus_self]
    exact execute_narrow (hn j)
  · rw [commit_cpus_of_ne hj]
    exact Cpu.notifyAll_narrow (hn j)

theorem narrow_step {op : SmpOp β} (hn : ∀ i, (s.cpus i).Narrow) :
    ∀ i, ((s.step port op).cpus i).Narrow := by
  cases op with
  | insn i insn =>
    rw [step]
    split
    · exact hn
    · exact narrow_commit hn
  | sev i =>
    rw [step]
    split
    · exact hn
    · exact hn
  | eret i =>
    rw [step]
    split
    · exact hn
    · exact narrow_setCpu hn (Cpu.eret_kept (s.cpus i) s.gic).2.2.2
  | tryTakeIrq i =>
    rw [step]
    split
    · exact hn
    · exact narrow_setCpu hn (Cpu.quiet_tryTakeIrq (s.cpus i) s.gic).narrow
  | enterSyncException i faultPc ec iss farValid far =>
    rw [step]
    split
    · exact hn
    · exact narrow_setCpu hn
        (Cpu.quiet_enterSyncException (s.cpus i) faultPc ec iss farValid far).narrow
  | waitStep i =>
    rw [step]
    split
    · exact hn
    · exact narrow_setCpu hn (Cpu.waitStep_kept (s.cpus i) s.gic).2.1
  | mmu i op =>
    exact narrow_setCpu hn (Cpu.quiet_mmuStep ⟨s.cpus i, port.readDesc s.bus⟩ op).narrow
  | other i after => exact narrow_setCpu hn id
  | dma w => exact fun i => Cpu.notify_narrow (hn i)
  | devices after => exact hn
  | gic op => exact hn

/-! ### The monitors -/

/-- The log is as before and one CPU changed, its monitor kept or cleared. -/
theorem reserved_setCpu {c : Cpu} {g : GicV3} (hi : s.Inv)
    (hc : c.exclusive = none ∨ c.exclusive = (s.cpus i).exclusive) :
    ∀ j m, (({ s.setCpu i c with gic := g } : Smp β).cpus j).exclusive = some m →
      Reserved s.log j m.physAddrs := by
  intro j m hm
  replace hm : ((s.setCpu i c).cpus j).exclusive = some m := hm
  by_cases hj : j = i
  · subst hj
    rw [setCpu_cpus_self] at hm
    rcases hc with hnone | hsame
    · rw [hnone] at hm
      cases hm
    · exact hi.reserved j m (hsame.symm.trans hm)
  · rw [setCpu_cpus_of_ne hj] at hm
    exact hi.reserved j m hm

theorem spares_writes {source : Option Nat} {j : Nat} {bytes : List U64} {ws : List PhysWrite}
    (h : ∀ w ∈ ws, ∀ b ∈ bytes, ¬ w.Covers b) :
    ∀ e ∈ ws.map (MemEvent.write source), e.Spares j bytes := by
  intro e he
  obtain ⟨w, hw, rfl⟩ := List.mem_map.1 he
  exact h w hw

/-- What an instruction adds to the log besides its writes is no load-exclusive of another CPU. -/
theorem spares_exclusiveEvents {j : Nat} {bytes : List U64} (hj : j ≠ i) :
    ∀ e ∈ s.exclusiveEvents port i insn, e.Spares j bytes := by
  intro e he
  cases hload : insn.isLoadExclusive with
  | true =>
    rw [exclusiveEvents_of_load hload] at he
    split at he
    · rw [List.mem_singleton.1 he]
      exact fun h => hj h.symm
    · cases he
  | false =>
    rw [exclusiveEvents_of_not_load hload] at he
    split at he
    · rw [List.mem_singleton.1 he]
      trivial
    · cases he

theorem exclusiveLog_insn (hi : s.Inv) :
    ExclusiveLog (s.commit i ((s.core i).execute port insn).2
      (s.exclusiveEvents port i insn)).log := by
  apply hi.log.append
  intro before j bytes after heq
  have hwrites : ∀ before, ((s.core i).execute port insn).2.writes.map (MemEvent.write (some i)) ≠
      before ++ MemEvent.storeExclusive j bytes :: after := by
    intro before h
    have hmem := List.mem_append_right before
      (List.mem_cons_self (a := MemEvent.storeExclusive j bytes) (l := after))
    rw [← h] at hmem
    obtain ⟨w, -, hw⟩ := List.mem_map.1 hmem
    cases hw
  cases hload : insn.isLoadExclusive with
  | true =>
    rw [exclusiveEvents_of_load hload] at heq
    split at heq
    · cases before with
      | nil => cases heq
      | cons e before => exact absurd (List.cons.inj heq).2 (hwrites before)
    · exact absurd heq (hwrites before)
  | false =>
    rw [exclusiveEvents_of_not_load hload] at heq
    split at heq
    · next hstores =>
      cases before with
      | nil =>
        obtain ⟨hhead, -⟩ := List.cons.inj heq
        cases hhead
        obtain ⟨m, hm, hbytes⟩ := Core.stores_writes hstores rfl
        rw [hbytes, List.append_nil]
        exact hi.reserved i m hm
      | cons e before => exact absurd (List.cons.inj heq).2 (hwrites before)
    · exact absurd heq (hwrites before)

theorem reserved_insn (hi : s.Inv) (hwhole : s.Whole port (.insn i insn)) :
    ∀ j m, ((s.commit i ((s.core i).execute port insn).2
        (s.exclusiveEvents port i insn)).cpus j).exclusive = some m →
      Reserved (s.commit i ((s.core i).execute port insn).2
        (s.exclusiveEvents port i insn)).log j m.physAddrs := by
  have hwrap : ∀ w ∈ ((s.core i).execute port insn).2.writes, w.pa.toNat + w.size < 2 ^ 64 :=
    execute_writes (hi.narrow i) rfl
  intro j m hm
  by_cases hj : j = i
  · subst hj
    rw [commit_cpus_self] at hm
    rcases insn_exclusive hwhole hm with ⟨hevents, hwrites⟩ | ⟨hevents, hm, hspared⟩
    · rw [commit, hevents, hwrites]
      exact reserved_loadExclusive s.log j m.physAddrs
    · rw [commit, hevents]
      exact (hi.reserved j m hm).append (spares_writes hspared)
  · rw [commit_cpus_of_ne hj] at hm
    obtain ⟨hm, hspared⟩ := Cpu.notifyAll_exclusive hm
    rw [commit, ← List.append_assoc]
    exact ((hi.reserved j m hm).append (spares_exclusiveEvents hj)).append
      (spares_writes (hspared hwrap))

theorem reserved_step {op : SmpOp β} (hi : s.Inv) (hwhole : s.Whole port op) :
    ∀ j m, ((s.step port op).cpus j).exclusive = some m →
      Reserved (s.step port op).log j m.physAddrs := by
  cases op with
  | insn i insn =>
    rw [step]
    split
    · exact hi.reserved
    · exact reserved_insn hi hwhole
  | sev i =>
    rw [step]
    split
    · exact hi.reserved
    · exact hi.reserved
  | eret i =>
    rw [step]
    split
    · exact hi.reserved
    · exact reserved_setCpu hi (.inl (Cpu.eret_kept (s.cpus i) s.gic).1)
  | tryTakeIrq i =>
    rw [step]
    split
    · exact hi.reserved
    · exact reserved_setCpu hi (.inr (Cpu.quiet_tryTakeIrq (s.cpus i) s.gic).exclusive)
  | enterSyncException i faultPc ec iss farValid far =>
    rw [step]
    split
    · exact hi.reserved
    · exact reserved_setCpu hi
        (.inr (Cpu.quiet_enterSyncException (s.cpus i) faultPc ec iss farValid far).exclusive)
  | waitStep i =>
    rw [step]
    split
    · exact hi.reserved
    · exact reserved_setCpu hi (.inr (Cpu.waitStep_kept (s.cpus i) s.gic).1)
  | mmu i op =>
    exact reserved_setCpu hi
      (.inr (Cpu.quiet_mmuStep ⟨s.cpus i, port.readDesc s.bus⟩ op).exclusive)
  | other i after => exact reserved_setCpu hi (.inr rfl)
  | dma w =>
    intro j m hm
    obtain ⟨hm, hspared⟩ := Cpu.notify_exclusive hm
    apply (hi.reserved j m hm).append
    intro e he
    rw [List.mem_singleton.1 he]
    exact hspared hwhole
  | devices after => exact hi.reserved
  | gic op => exact hi.reserved

theorem exclusiveLog_step {op : SmpOp β} (hi : s.Inv) : ExclusiveLog (s.step port op).log := by
  cases op with
  | insn i insn =>
    rw [step]
    split
    · exact hi.log
    · exact exclusiveLog_insn hi
  | dma w =>
    apply hi.log.append_of_none
    intro i bytes he
    cases List.mem_singleton.1 he
  | mmu i op => exact hi.log
  | other i after => exact hi.log
  | devices after => exact hi.log
  | gic op => exact hi.log
  | _ =>
    rw [step]
    split <;> exact hi.log

theorem inv_step {op : SmpOp β} (hi : s.Inv) (hwhole : s.Whole port op) : (s.step port op).Inv :=
  ⟨narrow_step hi.narrow, reserved_step hi hwhole, exclusiveLog_step hi⟩

open Lib.Run in
/-- From no monitors, empty translation buffers and an empty log, in any run of CPUs and DMA
whose failing stores have written no monitored byte: a store-exclusive that succeeds stores to
the bytes of the latest load-exclusive, none of which was written since. -/
theorem storeExclusive_reserved {ops : List (SmpOp β)} (hnone : ∀ i, (s.cpus i).exclusive = none)
    (hempty : ∀ i e, ¬ (s.cpus i).tlb.Holds e) (hlog : s.log = [])
    (h : Along (step port) (Whole port) s ops) : ExclusiveLog (run (step port) s ops).log := by
  have hi : s.Inv := by
    refine ⟨fun i e he => absurd he (hempty i e), fun i m hm => ?_, ?_⟩
    · rw [hnone i] at hm
      cases hm
    · rw [hlog]
      exact exclusiveLog_nil
  have hinv : (run (step port) s ops).Inv :=
    h.invariant (fun s op hi hok => inv_step hi hok) hi
  exact hinv.log

/-! ## A store past the end of RAM -/

/-- The SDRAM of the SoC, zeroed. -/
def sdramPort : BusPort Unit where
  read b pa size :=
    (if kSdramBase.toNat ≤ pa.toNat ∧
        pa.toNat + size ≤ kSdramBase.toNat + kSdramSize.toNat then some 0
      else none, b)
  write b pa _ size :=
    (decide (kSdramBase.toNat ≤ pa.toNat ∧
      pa.toNat + size ≤ kSdramBase.toNat + kSdramSize.toNat), b)
  readDesc _ pa :=
    if kSdramBase.toNat ≤ pa.toNat ∧ pa.toNat + 8 ≤ kSdramBase.toNat + kSdramSize.toNat then some 0
    else none
  hasRam _ pa :=
    decide (kSdramBase.toNat ≤ pa.toNat ∧ pa.toNat < kSdramBase.toNat + kSdramSize.toNat)

def booted : Smp Unit := ⟨fun i => .reset i 0 0, .reset 2, (), []⟩

/-- A load-exclusive, a store of the other CPU elsewhere and a store-exclusive. -/
def exchange : List (SmpOp Unit) :=
  [.insn 0 (.loadExclusive 0 1 0x40001000 3), .insn 1 (.store 1 0x40001008 7 8 .write false),
    .insn 0 (.storeExclusive 2 1 0x40001000 5 3)]

/-- In between, the CPU stores past the end of RAM: four bytes are written, then the bus rejects
one. -/
def tornStore : List (SmpOp Unit) :=
  [.insn 0 (.loadExclusive 0 1 0x7FFFFFF8 3), .insn 0 (.store 1 0x7FFFFFFC 7 8 .write false),
    .insn 0 (.storeExclusive 2 1 0x7FFFFFF8 5 3)]

theorem exchange_reserved :
    ExclusiveLog (Lib.Run.run (step sdramPort) booted exchange).log := by
  apply storeExclusive_reserved (fun _ => rfl) (fun _ _ => Tlb.not_holds_empty) rfl
  refine ⟨fun h => absurd h ?_, fun h => absurd h ?_, fun h => absurd h ?_, trivial⟩ <;>
    decide +kernel

/-- The store-exclusive succeeds although its bytes were written since the load-exclusive. -/
theorem tornStore_not_reserved :
    (∀ i, (booted.cpus i).exclusive = none) ∧ (∀ i e, ¬ (booted.cpus i).tlb.Holds e) ∧
      booted.log = [] ∧
      ¬ ExclusiveLog (Lib.Run.run (step sdramPort) booted tornStore).log := by
  refine ⟨fun _ => rfl, fun _ _ => Tlb.not_holds_empty, rfl, fun h => ?_⟩
  have hlog : (Lib.Run.run (step sdramPort) booted tornStore).log =
      MemEvent.loadExclusive 0 (bytesFrom 0x7FFFFFF8 8) ::
        ((bytesFrom 0x7FFFFFFC 4).map fun b => MemEvent.write (some 0) ⟨b, 1⟩) ++
      MemEvent.storeExclusive 0 (bytesFrom 0x7FFFFFF8 8) ::
        [MemEvent.write (some 0) ⟨0x7FFFFFF8, 8⟩] := by decide +kernel
  obtain ⟨before, between, heq, hspares⟩ := h _ _ _ _ hlog
  cases before with
  | nil =>
    obtain ⟨-, rfl⟩ := List.cons.inj heq
    have hspared := hspares (.write (some 0) ⟨0x7FFFFFFC, 1⟩) (by decide +kernel)
    exact hspared 0x7FFFFFFC (by decide +kernel) (by decide +kernel)
  | cons e before =>
    have hmem : MemEvent.loadExclusive 0 (bytesFrom 0x7FFFFFF8 8) ∈
        (bytesFrom 0x7FFFFFFC 4).map fun b => MemEvent.write (some 0) ⟨b, 1⟩ := by
      rw [(List.cons.inj heq).2]
      exact List.mem_append_right _ List.mem_cons_self
    revert hmem
    decide +kernel

end Smp
end Aarchvm

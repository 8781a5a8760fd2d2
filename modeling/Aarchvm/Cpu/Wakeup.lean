import Aarchvm.Cpu.Exclusive
import Mathlib

/-!
# Waiting for a store

A CPU that spins with a load-exclusive and WFE is woken because a foreign store to the
bytes that it loaded clears its monitor and sets its event register. An exception
handler in between clears the monitor with its ERET, without an event: a store after
that is not noticed, and the CPU waits unless the ERET found the event register set.
-/
namespace Aarchvm

namespace Cpu

variable {c : Cpu} {g : GicV3}

/-- One step of a waiting CPU: it stops waiting for an event, or nothing that WFE looks at
changes. -/
theorem waitStep_cases (c : Cpu) (g : GicV3) :
    Quiet c (c.waitStep g).1 ∨
      (c.waitingForEvent = true ∧ (c.waitStep g).1.waitingForEvent = false) := by
  rw [waitStep]
  split
  · left
    dsimp only
    split
    · have hq := quiet_tryTakeIrq { c with waitingForInterrupt := false }
      split
      · exact ⟨(hq _).exclusive, (hq _).eventRegister, (hq _).waitingForEvent, (hq _).narrow,
          (hq _).depth⟩
      · exact ⟨rfl, rfl, rfl, id, le_rfl⟩
    · exact Quiet.refl c
  · split
    · next hwait =>
      split
      · exact .inr ⟨hwait, rfl⟩
      · have hready := quiet_irqWakeupReady c g
        have htaken :=
          hready.trans (quiet_tryTakeIrq (c.irqWakeupReady g).2.1 (c.irqWakeupReady g).2.2)
        dsimp only
        split
        · split
          · exact .inr ⟨hwait, rfl⟩
          · exact .inl htaken
        · exact .inl hready
    · exact .inl (Quiet.refl c)

/-- A notification either signals the event or leaves the CPU as it is. -/
theorem notify_cases (c : Cpu) (w : PhysWrite) :
    (c.notifyExternalMemoryWrite w).eventRegister = true ∨ c.notifyExternalMemoryWrite w = c := by
  rw [notifyExternalMemoryWrite]
  split
  · exact .inl rfl
  · exact .inr rfl

theorem notifyAll_cases (c : Cpu) (ws : List PhysWrite) :
    (c.notifyAll ws).eventRegister = true ∨ c.notifyAll ws = c := by
  induction ws generalizing c with
  | nil => exact .inr rfl
  | cons w ws ih =>
    have hcons : c.notifyAll (w :: ws) = (c.notifyExternalMemoryWrite w).notifyAll ws := rfl
    rw [hcons]
    rcases ih (c.notifyExternalMemoryWrite w) with h | h
    · exact .inl h
    · rw [h]
      exact notify_cases c w

/-- Notifications keep what a wait depends on otherwise. -/
theorem notify_kept (c : Cpu) (w : PhysWrite) :
    (c.notifyExternalMemoryWrite w).waitingForEvent = c.waitingForEvent ∧
      (c.notifyExternalMemoryWrite w).exceptions = c.exceptions := by
  rw [notifyExternalMemoryWrite]
  split
  · exact ⟨rfl, rfl⟩
  · exact ⟨rfl, rfl⟩

theorem notifyAll_kept (c : Cpu) (ws : List PhysWrite) :
    (c.notifyAll ws).waitingForEvent = c.waitingForEvent ∧
      (c.notifyAll ws).exceptions = c.exceptions := by
  induction ws generalizing c with
  | nil => exact ⟨rfl, rfl⟩
  | cons w ws ih =>
    obtain ⟨hwait, hexceptions⟩ := notify_kept c w
    exact ⟨(ih _).1.trans hwait, (ih _).2.trans hexceptions⟩

end Cpu

/-- The event is no write of one of `bytes` by anyone but CPU `a`. -/
def MemEvent.Misses (a : Nat) (bytes : List U64) : MemEvent → Prop
  | .write source w => source ≠ some a → ∀ b ∈ bytes, ¬ w.Covers b
  | _ => True

/-- Exclusives, CLREX and WFE. -/
def MemInsn.interferes : MemInsn → Bool
  | .loadExclusive .. | .loadExclusivePair .. | .storeExclusive .. | .storeExclusivePair ..
  | .clrex | .wfe => true
  | _ => false

def MemInsn.isStore : MemInsn → Bool
  | .store .. | .storePair .. | .dcZva .. => true
  | _ => false

namespace Smp

open Aarchvm.Core

variable {β : Type} {port : BusPort β} {s : Smp β} {a : Nat} {bytes : List U64}
  {base : List MemEvent}

/-- The event register is set; or the monitor holds `bytes`, and since `base` no foreign write
has covered one of them. -/
def Ready (a : Nat) (bytes : List U64) (base : List MemEvent) (s : Smp β) : Prop :=
  (s.cpus a).eventRegister = true ∨
    (s.cpus a).exclusive.map (·.physAddrs) = some bytes ∧
      ∃ since, s.log = base ++ since ∧ ∀ e ∈ since, e.Misses a bytes

/-- What a step did to CPU `a`, seen from what it waits for: nothing, or it set the event
register. -/
inductive Saw (a : Nat) (bytes : List U64) (s s' : Smp β) : Prop
  | nothing (hq : Cpu.Quiet (s.cpus a) (s'.cpus a))
      (hlog : (s.cpus a).exclusive.map (·.physAddrs) = some bytes →
        ∃ es, s'.log = s.log ++ es ∧ ∀ e ∈ es, e.Misses a bytes)
  | event (hevent : (s'.cpus a).eventRegister = true)
      (hwait : (s'.cpus a).waitingForEvent = (s.cpus a).waitingForEvent)
      (hdepth : (s.cpus a).exceptions.depth ≤ (s'.cpus a).exceptions.depth)

variable {s' : Smp β}

theorem Saw.ready (h : Saw a bytes s s') (hr : Ready a bytes base s) : Ready a bytes base s' := by
  rcases h with ⟨hq, hlog⟩ | ⟨hevent, -, -⟩
  · rcases hr with hset | ⟨hm, since, hs, hmissed⟩
    · exact .inl (hq.eventRegister.trans hset)
    · obtain ⟨es, hes, hmiss⟩ := hlog hm
      refine .inr ⟨(congrArg _ hq.exclusive).trans hm, since ++ es, ?_, fun e he => ?_⟩
      · rw [hes, hs, List.append_assoc]
      · rcases List.mem_append.1 he with he | he
        · exact hmissed e he
        · exact hmiss e he
  · exact .inl hevent

theorem Saw.waitingForEvent (h : Saw a bytes s s') :
    (s'.cpus a).waitingForEvent = (s.cpus a).waitingForEvent := by
  rcases h with ⟨hq, -⟩ | ⟨-, hwait, -⟩
  · exact hq.waitingForEvent
  · exact hwait

theorem Saw.depth (h : Saw a bytes s s') :
    (s.cpus a).exceptions.depth ≤ (s'.cpus a).exceptions.depth := by
  rcases h with ⟨hq, -⟩ | ⟨-, -, hdepth⟩
  · exact hq.depth
  · exact hdepth

theorem saw_of_quiet (hq : Cpu.Quiet (s.cpus a) (s'.cpus a)) (hlog : s'.log = s.log) :
    Saw a bytes s s' := by
  refine .nothing hq fun _ => ⟨[], ?_, fun _ he => nomatch he⟩
  rw [List.append_nil]
  exact hlog

theorem saw_refl (s : Smp β) : Saw a bytes s s := saw_of_quiet (.refl _) rfl

/-- One CPU changed: another one, or CPU `a` without doing anything that WFE looks at. -/
theorem saw_setCpu {i : Nat} {c : Cpu} {g : GicV3} (hq : i = a → Cpu.Quiet (s.cpus i) c) :
    Saw a bytes s { s.setCpu i c with gic := g } := by
  refine saw_of_quiet ?_ rfl
  show Cpu.Quiet (s.cpus a) ((s.setCpu i c).cpus a)
  by_cases hi : a = i
  · subst hi
    rw [setCpu_cpus_self]
    exact hq rfl
  · rw [setCpu_cpus_of_ne hi]
    exact .refl _

/-- CPU `a` is told of some writes. -/
theorem saw_notified {ws : List PhysWrite} {es : List MemEvent}
    (hcpu : s'.cpus a = (s.cpus a).notifyAll ws) (hlog : s'.log = s.log ++ es)
    (hwrap : ∀ w ∈ ws, w.pa.toNat + w.size < 2 ^ 64)
    (hes : ∀ e ∈ es, e.Misses a bytes ∨ ∃ source, ∃ w ∈ ws, e = .write source w) :
    Saw a bytes s s' := by
  obtain ⟨hwait, hexceptions⟩ := Cpu.notifyAll_kept (s.cpus a) ws
  rcases Cpu.notifyAll_cases (s.cpus a) ws with hevent | hsame
  · apply Saw.event
    · rw [hcpu]
      exact hevent
    · rw [hcpu]
      exact hwait
    · rw [hcpu, hexceptions]
  · apply Saw.nothing
    · rw [hcpu, hsame]
      exact .refl _
    · intro hm
      refine ⟨es, hlog, fun e he => ?_⟩
      rcases hes e he with hmiss | ⟨source, w, hw, rfl⟩
      · exact hmiss
      · obtain ⟨m, hm', rfl⟩ := Option.map_eq_some_iff.1 hm
        intro _
        exact (Cpu.notifyAll_exclusive ((congrArg Cpu.exclusive hsame).trans hm')).2 hwrap w hw

/-! ## What a step does to a CPU that waits -/

/-- The step is not an instruction, a return or a wait of CPU `a`. -/
def Foreign (a : Nat) : SmpOp β → Prop
  | .insn i _ | .eret i | .waitStep i => i ≠ a
  | _ => True

theorem saw_peer_insn {i : Nat} {insn : MemInsn} (hi : i ≠ a) (hn : ∀ i, (s.cpus i).Narrow) :
    Saw a bytes s
      (s.commit i ((s.core i).execute port insn).2 (s.exclusiveEvents port i insn)) := by
  apply saw_notified (commit_cpus_of_ne (Ne.symm hi) _ _) (by rw [Smp.commit])
  · exact execute_writes (hn i) rfl
  · intro e he
    rcases List.mem_append.1 he with he | he
    · left
      cases hload : insn.isLoadExclusive with
      | true =>
        rw [exclusiveEvents_of_load hload] at he
        split at he
        · rw [List.mem_singleton.1 he]
          trivial
        · cases he
      | false =>
        rw [exclusiveEvents_of_not_load hload] at he
        split at he
        · rw [List.mem_singleton.1 he]
          trivial
        · cases he
    · obtain ⟨w, hw, rfl⟩ := List.mem_map.1 he
      exact .inr ⟨some i, w, hw, rfl⟩

/-- The range of a DMA write ends within the address space. -/
def DmaFits : SmpOp β → Prop
  | .dma w => w.pa.toNat + w.size < 2 ^ 64
  | _ => True

theorem saw_foreign {op : SmpOp β} (hop : Foreign a op) (hn : ∀ i, (s.cpus i).Narrow)
    (hdma : DmaFits op) : Saw a bytes s (s.step port op) := by
  cases op with
  | insn i insn =>
    rw [step]
    split
    · exact saw_refl s
    · exact saw_peer_insn hop hn
  | sev i =>
    rw [step]
    split
    · exact saw_refl s
    · exact .event rfl rfl le_rfl
  | eret i =>
    rw [step]
    split
    · exact saw_refl s
    · exact saw_setCpu fun h => absurd h hop
  | tryTakeIrq i =>
    rw [step]
    split
    · exact saw_refl s
    · exact saw_setCpu fun _ => Cpu.quiet_tryTakeIrq (s.cpus i) s.gic
  | enterSyncException i faultPc ec iss farValid far =>
    rw [step]
    split
    · exact saw_refl s
    · exact saw_setCpu fun _ =>
        Cpu.quiet_enterSyncException (s.cpus i) faultPc ec iss farValid far
  | waitStep i =>
    rw [step]
    split
    · exact saw_refl s
    · exact saw_setCpu fun h => absurd h hop
  | mmu i op => exact saw_setCpu fun _ => Cpu.quiet_mmuStep ⟨s.cpus i, port.readDesc s.bus⟩ op
  | other i after => exact saw_setCpu fun _ => ⟨rfl, rfl, rfl, id, le_rfl⟩
  | dma w =>
    have hcpu : ((s.step port (.dma w)).cpus a) = (s.cpus a).notifyAll [w] := rfl
    have hlog : (s.step port (.dma w)).log = s.log ++ [.write none w] := rfl
    apply saw_notified hcpu hlog
    · intro w' hw'
      rw [List.mem_singleton.1 hw']
      exact hdma
    · intro e he
      rw [List.mem_singleton.1 he]
      exact .inr ⟨none, w, List.mem_singleton_self w, rfl⟩
  | devices after => exact saw_of_quiet (.refl _) rfl
  | gic op => exact saw_of_quiet (.refl _) rfl

end Smp

/-- CPU `a` executes a load-exclusive, spins and waits. -/
structure Spin (β : Type) where
  smp : Smp β
  /-- the handlers that the CPU has entered since, and not left -/
  nesting : Nat

namespace Spin

variable {β : Type}

def step (port : BusPort β) (a : Nat) (s : Spin β) (op : SmpOp β) : Spin β where
  smp := s.smp.step port op
  nesting := s.nesting + ((s.smp.step port op).cpus a).exceptions.depth -
    (s.smp.cpus a).exceptions.depth

variable {port : BusPort β} {a : Nat} {s : Spin β} {bytes : List U64} {base : List MemEvent}

/-- Outside of handlers CPU `a` executes no exclusive, CLREX or WFE, and no store but one that
faults. -/
def Undisturbed (port : BusPort β) (a : Nat) (s : Spin β) : SmpOp β → Prop
  | .insn i insn =>
    i = a → s.nesting = 0 →
      insn.interferes = false ∧
        (insn.isStore = true → ((s.smp.core i).execute port insn).1 = false)
  | _ => True

/-- When CPU `a` executes the ERET of its outermost handler, or one outside of handlers, its event
register is set. The range of a DMA write ends within the address space. -/
def Signalled (a : Nat) (s : Spin β) : SmpOp β → Prop
  | .eret i =>
    i = a → (s.smp.cpus i).idle = false → s.nesting ≤ 1 → (s.smp.cpus i).eventRegister = true
  | .dma w => w.pa.toNat + w.size < 2 ^ 64
  | _ => True

/-- Outside of handlers the CPU does not wait, and is ready to notice a store. -/
structure Inv (a : Nat) (bytes : List U64) (base : List MemEvent) (s : Spin β) : Prop where
  narrow : ∀ i, (s.smp.cpus i).Narrow
  ready : s.nesting = 0 →
    (s.smp.cpus a).waitingForEvent = false ∧ s.smp.Ready a bytes base

theorem nesting_le_of_depth {op : SmpOp β}
    (h : (s.smp.cpus a).exceptions.depth ≤ ((s.smp.step port op).cpus a).exceptions.depth) :
    s.nesting ≤ (s.step port a op).nesting := by
  show s.nesting ≤ s.nesting + _ - _
  omega

/-- A step that CPU `a` does not notice, or that signals it. -/
theorem inv_of_saw {op : SmpOp β} (hi : s.Inv a bytes base)
    (h : Smp.Saw a bytes s.smp (s.smp.step port op)) : (s.step port a op).Inv a bytes base := by
  refine ⟨Smp.narrow_step hi.narrow, fun hnest => ?_⟩
  have hle := nesting_le_of_depth h.depth
  obtain ⟨hwait, hready⟩ := hi.ready (by omega)
  exact ⟨h.waitingForEvent.trans hwait, h.ready hready⟩

/-- An instruction does not return from an exception. -/
theorem depth_execute (s : Core β) (insn : MemInsn) :
    s.cpu.exceptions.depth ≤ (s.execute port insn).2.cpu.exceptions.depth := by
  cases hload : insn.isLoadExclusive with
  | false => exact (Core.execute_ran hload).depth
  | true => exact (Core.execute_reserving hload).depth

/-- What the CPU may execute outside of handlers leaves what WFE looks at alone, or sets the event
register. -/
theorem quiet_execute {s : Core β} {insn : MemInsn} (hint : insn.interferes = false)
    (hstore : insn.isStore = true → (s.execute port insn).1 = false) :
    Cpu.Quiet s.cpu (s.execute port insn).2.cpu ∨
      (s.execute port insn).2.cpu = { s.cpu with eventRegister := true } := by
  cases insn with
  | load rn va size forceCheck =>
    have hread : Core.ReadSpec s (s.mmuRead port rn va size forceCheck) :=
      Core.mmuRead_spec s rn va size forceCheck
    have hq := Core.quiet_of_read hread
    left
    rw [Core.execute]
    split
    · next s' hs' =>
      rw [hs'] at hq
      exact hq.trans (Cpu.quiet_dataAbort s'.cpu va false)
    · next value s' hs' =>
      rw [hs'] at hq
      exact hq
  | store rn va value size access forceCheck =>
    have hwrite : Core.WriteSpec s (s.mmuWrite port rn va value size access forceCheck) :=
      Core.mmuWrite_spec s rn va value size access forceCheck
    have hfault := hstore rfl
    left
    rw [Core.execute] at hfault ⊢
    split
    · next s' hs' =>
      rw [hs'] at hwrite
      exact (Cpu.quiet_of_failed (hwrite.failed rfl)).trans (Cpu.quiet_dataAbort s'.cpu va false)
    · next s' hs' =>
      rw [hs'] at hfault
      cases hfault
  | storePair addr first second elemSize =>
    have hwrite : Core.WriteSpec s (s.rawMmuWritePairAtomic port addr first second elemSize) :=
      Core.rawMmuWritePairAtomic_spec s addr first second elemSize
    have hfault := hstore rfl
    left
    rw [Core.execute] at hfault ⊢
    split
    · next s' hs' =>
      rw [hs'] at hwrite
      exact (Cpu.quiet_of_failed (hwrite.failed rfl)).trans (Cpu.quiet_dataAbort s'.cpu addr false)
    · next s' hs' =>
      rw [hs'] at hfault
      cases hfault
  | dcZva addr => exact .inl (Cpu.quiet_of_failed ((Core.dcZva_spec s addr).failed (hstore rfl)))
  | wfi => exact .inl (Core.quiet_wfi s.cpu)
  | sevl => exact .inr rfl
  | _ => cases hint

theorem exclusiveEvents_of_not_interferes {s : Smp β} {insn : MemInsn}
    (h : insn.interferes = false) : s.exclusiveEvents port a insn = [] := by
  cases insn <;> first | rfl | cases h

/-- An instruction that CPU `a` may execute outside of handlers. -/
theorem saw_own_insn {s : Smp β} {insn : MemInsn} (hint : insn.interferes = false)
    (hstore : insn.isStore = true → ((s.core a).execute port insn).1 = false) :
    Smp.Saw a bytes s (s.commit a ((s.core a).execute port insn).2 []) := by
  have hcpu : (s.commit a ((s.core a).execute port insn).2 []).cpus a =
      ((s.core a).execute port insn).2.cpu := Smp.commit_cpus_self s a _ []
  rcases quiet_execute hint hstore with hq | hevent
  · apply Smp.Saw.nothing
    · rw [hcpu]
      exact hq
    · intro _
      refine ⟨_, by rw [Smp.commit], fun e he => ?_⟩
      obtain ⟨w, -, rfl⟩ := List.mem_map.1 he
      exact fun hne => absurd rfl hne
  · apply Smp.Saw.event
    · rw [hcpu, hevent]
    · rw [hcpu, hevent]
      rfl
    · rw [hcpu, hevent]
      exact le_rfl

theorem inv_insn {insn : MemInsn} (hi : s.Inv a bytes base)
    (hund : s.Undisturbed port a (.insn a insn)) :
    (s.step port a (.insn a insn)).Inv a bytes base := by
  by_cases hnest : s.nesting = 0
  · obtain ⟨hint, hstore⟩ := hund rfl hnest
    apply inv_of_saw hi
    rw [Smp.step]
    split
    · exact Smp.saw_refl _
    · rw [exclusiveEvents_of_not_interferes hint]
      exact saw_own_insn hint hstore
  · have hdepth : (s.smp.cpus a).exceptions.depth ≤
        ((s.smp.step port (.insn a insn)).cpus a).exceptions.depth := by
      rw [Smp.step]
      split
      · exact le_rfl
      · rw [Smp.commit_cpus_self]
        exact depth_execute (s.smp.core a) insn
    have hle := nesting_le_of_depth hdepth
    exact ⟨Smp.narrow_step hi.narrow, fun h => absurd h (by omega)⟩

theorem inv_eret (hi : s.Inv a bytes base) (hsig : s.Signalled a (.eret a)) :
    (s.step port a (.eret a)).Inv a bytes base := by
  cases hidle : (s.smp.cpus a).idle with
  | true =>
    apply inv_of_saw hi
    rw [Smp.step, if_pos hidle]
    exact Smp.saw_refl _
  | false =>
    refine ⟨Smp.narrow_step hi.narrow, fun hnest => ?_⟩
    have hcpu : (s.smp.step port (.eret a)).cpus a = ((s.smp.cpus a).eret s.smp.gic).1 := by
      rw [Smp.step, hidle]
      exact Smp.setCpu_cpus_self s.smp a _
    obtain ⟨-, hevent, hwait, -⟩ := Cpu.eret_kept (s.smp.cpus a) s.smp.gic
    have hwaiting : (s.smp.cpus a).waitingForEvent = false := by
      rw [Cpu.idle, Bool.or_eq_false_iff] at hidle
      exact hidle.2
    have hone : s.nesting ≤ 1 := by
      have hdepth : (s.smp.cpus a).exceptions.depth ≤
          ((s.smp.step port (.eret a)).cpus a).exceptions.depth + 1 := by
        rw [hcpu, Cpu.eret_exceptions, Lib.Stack.depth_pop]
        omega
      have hnest' : s.nesting + ((s.smp.step port (.eret a)).cpus a).exceptions.depth -
          (s.smp.cpus a).exceptions.depth = 0 := hnest
      omega
    have hset := hsig rfl hidle hone
    refine ⟨?_, .inl ?_⟩
    · show ((s.smp.step port (.eret a)).cpus a).waitingForEvent = false
      rw [hcpu, hwait, hwaiting]
    · show ((s.smp.step port (.eret a)).cpus a).eventRegister = true
      rw [hcpu, hevent, hset]

/-- A step of CPU `a` in WFI or WFE. -/
theorem saw_waitStep (s : Smp β) :
    Smp.Saw a bytes s (s.step port (.waitStep a)) ∨
      (s.cpus a).waitingForEvent = true ∧
        ((s.step port (.waitStep a)).cpus a).waitingForEvent = false := by
  rw [Smp.step]
  split
  · exact .inl (Smp.saw_refl s)
  · rcases Cpu.waitStep_cases (s.cpus a) s.gic with hq | ⟨hwait, hwoken⟩
    · exact .inl (Smp.saw_setCpu fun _ => hq)
    · right
      refine ⟨hwait, ?_⟩
      show ((s.setCpu a ((s.cpus a).waitStep s.gic).1).cpus a).waitingForEvent = false
      rw [Smp.setCpu_cpus_self]
      exact hwoken

theorem inv_waitStep (hi : s.Inv a bytes base) :
    (s.step port a (.waitStep a)).Inv a bytes base := by
  rcases saw_waitStep s.smp with hsaw | ⟨hwait, -⟩
  · exact inv_of_saw hi hsaw
  · have hdepth : (s.smp.cpus a).exceptions.depth ≤
        ((s.smp.step port (.waitStep a)).cpus a).exceptions.depth := by
      rw [Smp.step]
      split
      · exact le_rfl
      · show _ ≤ ((s.smp.setCpu a ((s.smp.cpus a).waitStep s.smp.gic).1).cpus a).exceptions.depth
        rw [Smp.setCpu_cpus_self]
        exact (Cpu.waitStep_kept (s.smp.cpus a) s.smp.gic).2.2
    have hle := nesting_le_of_depth hdepth
    refine ⟨Smp.narrow_step hi.narrow, fun hnest => ?_⟩
    have hnot := (hi.ready (by omega)).1
    rw [hwait] at hnot
    cases hnot

theorem dmaFits_of_signalled {op : SmpOp β} (h : s.Signalled a op) : Smp.DmaFits op := by
  cases op with
  | dma w => exact h
  | _ => trivial

theorem inv_step {op : SmpOp β} (hi : s.Inv a bytes base) (hund : s.Undisturbed port a op)
    (hsig : s.Signalled a op) : (s.step port a op).Inv a bytes base := by
  have hforeign : Smp.Foreign a op → (s.step port a op).Inv a bytes base := fun hop =>
    inv_of_saw hi (Smp.saw_foreign hop hi.narrow (dmaFits_of_signalled hsig))
  cases op with
  | insn i insn =>
    by_cases hia : i = a
    · subst hia
      exact inv_insn hi hund
    · exact hforeign hia
  | eret i =>
    by_cases hia : i = a
    · subst hia
      exact inv_eret hi hsig
    · exact hforeign hia
  | waitStep i =>
    by_cases hia : i = a
    · subst hia
      exact inv_waitStep hi
    · exact hforeign hia
  | _ => exact hforeign trivial

/-! ## The wait -/

/-- CPU `a` does not wait, or it is ready to notice a store. -/
structure Waiting (a : Nat) (bytes : List U64) (base : List MemEvent) (s : Smp β) : Prop where
  narrow : ∀ i, (s.cpus i).Narrow
  ready : (s.cpus a).waitingForEvent = false ∨ s.Ready a bytes base

theorem waiting_step {s : Smp β} {op : SmpOp β} (hi : Waiting a bytes base s)
    (hop : ∀ insn, op ≠ .insn a insn) (hdma : Smp.DmaFits op) :
    Waiting a bytes base (s.step port op) := by
  refine ⟨Smp.narrow_step hi.narrow, ?_⟩
  have hsaw : Smp.Saw a bytes s (s.step port op) →
      ((s.step port op).cpus a).waitingForEvent = false ∨ (s.step port op).Ready a bytes base := by
    intro h
    rcases hi.ready with hwait | hready
    · exact .inl (h.waitingForEvent.trans hwait)
    · exact .inr (h.ready hready)
  have hforeign := fun hop => hsaw (Smp.saw_foreign hop hi.narrow hdma)
  cases op with
  | insn i insn => exact hforeign fun hia => hop insn (hia ▸ rfl)
  | eret i =>
    by_cases hia : i = a
    · subst hia
      cases hidle : (s.cpus i).idle with
      | true =>
        apply hsaw
        rw [Smp.step, if_pos hidle]
        exact Smp.saw_refl s
      | false =>
        left
        rw [Smp.step, hidle]
        show ((s.setCpu i ((s.cpus i).eret s.gic).1).cpus i).waitingForEvent = false
        rw [Smp.setCpu_cpus_self, (Cpu.eret_kept (s.cpus i) s.gic).2.2.1]
        rw [Cpu.idle, Bool.or_eq_false_iff] at hidle
        exact hidle.2
    · exact hforeign hia
  | waitStep i =>
    by_cases hia : i = a
    · subst hia
      rcases saw_waitStep s with h | ⟨-, hwoken⟩
      · exact hsaw h
      · exact .inl hwoken
    · exact hforeign hia
  | _ => exact hforeign trivial

/-- WFE, when the CPU may execute it. -/
theorem waiting_wfe {s : Smp β} (hn : ∀ i, (s.cpus i).Narrow) (hr : s.Ready a bytes base)
    (hidle : (s.cpus a).idle = false)
    (htrap : ((s.cpus a).sysregs.inEl0 && !(s.cpus a).sysregs.sctlrEl1.getLsbD 18) = false) :
    Waiting a bytes base (s.step port (.insn a .wfe)) := by
  refine ⟨Smp.narrow_step hn, ?_⟩
  have hwait : (s.cpus a).waitingForEvent = false := by
    rw [Cpu.idle, Bool.or_eq_false_iff] at hidle
    exact hidle.2
  have hwfe : (s.cpus a).wfe =
      if (s.cpus a).eventRegister then { s.cpus a with eventRegister := false }
      else { s.cpus a with waitingForEvent := true } := by
    rw [Cpu.wfe, htrap]
    rfl
  have hcpu : (s.step port (.insn a .wfe)).cpus a = (s.cpus a).wfe := by
    rw [Smp.step, hidle]
    exact Smp.commit_cpus_self s a _ _
  have hlog : (s.step port (.insn a .wfe)).log = s.log := by
    rw [Smp.step, hidle]
    exact List.append_nil s.log
  cases hevent : (s.cpus a).eventRegister with
  | true =>
    left
    rw [hcpu, hwfe, hevent]
    exact hwait
  | false =>
    right
    rcases hr with hset | ⟨hm, hsince⟩
    · rw [hevent] at hset
      cases hset
    · right
      rw [hlog, hcpu, hwfe, hevent]
      exact ⟨hm, hsince⟩

variable {sys : Smp β} {load : MemInsn} {between after : List (SmpOp β)}

/-- After the load-exclusive. -/
def start (port : BusPort β) (a : Nat) (sys : Smp β) (load : MemInsn) : Spin β :=
  ⟨sys.step port (.insn a load), 0⟩

/-- When the WFE is executed. -/
def atWfe (port : BusPort β) (a : Nat) (sys : Smp β) (load : MemInsn)
    (between : List (SmpOp β)) : Spin β :=
  Lib.Run.run (step port a) (start port a sys load) between

/-- After the WFE and what the others do next. -/
def final (port : BusPort β) (a : Nat) (sys : Smp β) (load : MemInsn)
    (between after : List (SmpOp β)) : Smp β :=
  Lib.Run.run (Smp.step port) ((atWfe port a sys load between).smp.step port (.insn a .wfe)) after

/-- CPU `a` loads `bytes` exclusively, executes what `Undisturbed` allows until it has left each
handler that it entered, then WFE, and then no instruction. -/
structure Waits (port : BusPort β) (a : Nat) (sys : Smp β) (load : MemInsn)
    (between after : List (SmpOp β)) (bytes : List U64) : Prop where
  isLoad : load.isLoadExclusive = true
  running : (sys.cpus a).idle = false
  loaded : ((sys.core a).execute port load).1 = true
  monitor : ((sys.core a).execute port load).2.cpu.exclusive.map (·.physAddrs) = some bytes
  undisturbed : Lib.Run.Along (step port a) (Undisturbed port a) (start port a sys load) between
  returned : (atWfe port a sys load between).nesting = 0
  awake : ((atWfe port a sys load between).smp.cpus a).idle = false
  permitted : (((atWfe port a sys load between).smp.cpus a).sysregs.inEl0 &&
    !((atWfe port a sys load between).smp.cpus a).sysregs.sctlrEl1.getLsbD 18) = false
  silent : ∀ op ∈ after, ∀ insn, op ≠ .insn a insn

/-- Since the load-exclusive another CPU or a device has stored to one of `bytes`. -/
def Stored (port : BusPort β) (a : Nat) (sys : Smp β) (load : MemInsn)
    (between after : List (SmpOp β)) (bytes : List U64) : Prop :=
  ∃ since, (final port a sys load between after).log = (start port a sys load).smp.log ++ since ∧
    ∃ e ∈ since, ¬ e.Misses a bytes

theorem inv_start (hn : ∀ i, (sys.cpus i).Narrow) (h : Waits port a sys load between after bytes) :
    (start port a sys load).Inv a bytes (start port a sys load).smp.log := by
  refine ⟨Smp.narrow_step hn, fun _ => ?_⟩
  have hcpu : (start port a sys load).smp.cpus a = ((sys.core a).execute port load).2.cpu := by
    rw [start, Smp.step, h.running]
    exact Smp.commit_cpus_self sys a _ _
  rw [hcpu]
  refine ⟨?_, .inr ⟨?_, [], (List.append_nil _).symm, fun _ he => absurd he List.not_mem_nil⟩⟩
  · have hidle := h.running
    rw [Cpu.idle, Bool.or_eq_false_iff] at hidle
    exact (Core.execute_reserving h.isLoad).waitingForEvent.trans hidle.2
  · rw [hcpu]
    exact h.monitor

open Lib.Run in
/-- A CPU that spins with a load-exclusive and WFE, and whose outermost ERETs find the event
register set, is not left waiting by its WFE once its bytes are stored to. -/
theorem wfe_not_left_waiting {before : List (SmpOp β)} {boot : Smp β}
    (hempty : ∀ i e, ¬ (boot.cpus i).tlb.Holds e) (hsys : sys = run (Smp.step port) boot before)
    (h : Waits port a sys load between after bytes)
    (hsig : Along (step port a) (Signalled a) (start port a sys load) between)
    (hdma : ∀ op ∈ after, Smp.DmaFits op) (hstored : Stored port a sys load between after bytes) :
    ((final port a sys load between after).cpus a).waitingForEvent = false ∨
      ((final port a sys load between after).cpus a).eventRegister = true := by
  have hboot : ∀ i, (boot.cpus i).Narrow := fun i e he => absurd he (hempty i e)
  have hn : ∀ i, (sys.cpus i).Narrow := by
    rw [hsys]
    exact @run_invariant _ _ (Smp.step port) (fun s => ∀ i, (s.cpus i).Narrow)
      (fun s op hn => Smp.narrow_step hn) _ before hboot
  have hboth : Along (step port a) (fun s op => s.Undisturbed port a op ∧ s.Signalled a op)
      (start port a sys load) between := along_and.2 ⟨h.undisturbed, hsig⟩
  have hwfe : (atWfe port a sys load between).Inv a bytes (start port a sys load).smp.log :=
    hboth.invariant (fun s op hi hok => inv_step hi hok.1 hok.2) (inv_start hn h)
  have hwait : Waiting a bytes (start port a sys load).smp.log
      ((atWfe port a sys load between).smp.step port (.insn a .wfe)) :=
    waiting_wfe hwfe.narrow (hwfe.ready h.returned).2 h.awake h.permitted
  have hafter := @along_of_forall _ _ (Smp.step port) _ after
    (fun op hop => And.intro (h.silent op hop) (hdma op hop))
    ((atWfe port a sys load between).smp.step port (.insn a .wfe))
  have hfinal : Waiting a bytes (start port a sys load).smp.log
      (final port a sys load between after) :=
    hafter.invariant (fun s op hi hok => waiting_step hi hok.1 hok.2) hwait
  rcases hfinal.ready with hnot | hset | ⟨-, since, hlog, hmissed⟩
  · exact .inl hnot
  · exact .inr hset
  · obtain ⟨since', hlog', e, he, hhit⟩ := hstored
    rw [hlog] at hlog'
    rw [← List.append_cancel_left hlog'] at he
    exact absurd (hmissed e he) hhit

/-! ## A handler between the load-exclusive and WFE -/

def lockLoad : MemInsn := .loadExclusive 0 1 0x40001000 (Fin.last 3)

/-- The other CPU releases the lock. -/
def unlock : SmpOp Unit := .insn 1 (.store 1 0x40001000 0 8 .write false)

/-- An exception and its return. -/
def handled (inside : List (SmpOp Unit)) : List (SmpOp Unit) :=
  .enterSyncException 0 0x1000 0x15 0 false 0 :: inside ++ [.eret 0]

open Smp

theorem waits_handled : Waits sdramPort 0 booted lockLoad (handled []) [unlock, .waitStep 0]
    (bytesFrom 0x40001000 8) where
  isLoad := rfl
  running := by decide +kernel
  loaded := by decide +kernel
  monitor := by decide +kernel
  undisturbed := ⟨trivial, trivial, trivial⟩
  returned := by decide +kernel
  awake := by decide +kernel
  permitted := by decide +kernel
  silent := by
    intro op hop insn he
    subst he
    simp [unlock] at hop

theorem waits_signalled : Waits sdramPort 0 booted lockLoad (handled [unlock]) [.waitStep 0]
    (bytesFrom 0x40001000 8) where
  isLoad := rfl
  running := by decide +kernel
  loaded := by decide +kernel
  monitor := by decide +kernel
  undisturbed := ⟨trivial, fun h => absurd h (by decide), trivial, trivial⟩
  returned := by decide +kernel
  awake := by decide +kernel
  permitted := by decide +kernel
  silent := by
    intro op hop insn he
    subst he
    simp at hop

/-- The foreign write of the lock. -/
theorem not_misses_unlock :
    ¬ MemEvent.Misses 0 (bytesFrom 0x40001000 8) (.write (some 1) ⟨0x40001000, 8⟩) := by
  intro h
  exact h (by decide) 0x40001000 (by decide) (by decide)

theorem stored_handled : Stored sdramPort 0 booted lockLoad (handled []) [unlock, .waitStep 0]
    (bytesFrom 0x40001000 8) := by
  have hlog : (final sdramPort 0 booted lockLoad (handled []) [unlock, .waitStep 0]).log =
      (start sdramPort 0 booted lockLoad).smp.log ++ [.write (some 1) ⟨0x40001000, 8⟩] := by
    decide +kernel
  exact ⟨_, hlog, _, List.mem_singleton_self _, not_misses_unlock⟩

theorem stored_signalled : Stored sdramPort 0 booted lockLoad (handled [unlock]) [.waitStep 0]
    (bytesFrom 0x40001000 8) := by
  have hlog : (final sdramPort 0 booted lockLoad (handled [unlock]) [.waitStep 0]).log =
      (start sdramPort 0 booted lockLoad).smp.log ++ [.write (some 1) ⟨0x40001000, 8⟩] := by
    decide +kernel
  exact ⟨_, hlog, _, List.mem_singleton_self _, not_misses_unlock⟩

theorem signalled_signalled : Lib.Run.Along (step sdramPort 0) (Signalled 0)
    (start sdramPort 0 booted lockLoad) (handled [unlock]) := by
  refine ⟨trivial, trivial, fun _ _ _ => ?_, trivial⟩
  decide +kernel

/-- The lock is released inside of the handler. -/
theorem released_inside :
    ((final sdramPort 0 booted lockLoad (handled [unlock]) [.waitStep 0]).cpus 0).waitingForEvent =
        false ∨
      ((final sdramPort 0 booted lockLoad (handled [unlock]) [.waitStep 0]).cpus 0).eventRegister =
        true := by
  have hempty : ∀ i e, ¬ (booted.cpus i).tlb.Holds e := fun _ _ => Tlb.not_holds_empty
  have hsys : booted = Lib.Run.run (Smp.step sdramPort) booted [] := rfl
  have hdma : ∀ op ∈ [(SmpOp.waitStep 0 : SmpOp Unit)], DmaFits op := by
    intro op hop
    rw [List.mem_singleton.1 hop]
    trivial
  exact wfe_not_left_waiting hempty hsys waits_signalled signalled_signalled hdma stored_signalled

/-- The lock is released after the handler has returned: the CPU waits on. -/
theorem released_after :
    (∀ i e, ¬ (booted.cpus i).tlb.Holds e) ∧
      Waits sdramPort 0 booted lockLoad (handled []) [unlock, .waitStep 0]
        (bytesFrom 0x40001000 8) ∧
      (∀ op ∈ [unlock, .waitStep 0], DmaFits op) ∧
      Stored sdramPort 0 booted lockLoad (handled []) [unlock, .waitStep 0]
        (bytesFrom 0x40001000 8) ∧
      ¬ (((final sdramPort 0 booted lockLoad (handled []) [unlock, .waitStep 0]).cpus
            0).waitingForEvent = false ∨
          ((final sdramPort 0 booted lockLoad (handled []) [unlock, .waitStep 0]).cpus
            0).eventRegister = true) := by
  refine ⟨fun _ _ => Tlb.not_holds_empty, waits_handled, ?_, stored_handled, ?_⟩
  · intro op hop
    rcases List.mem_cons.1 hop with rfl | hop
    · trivial
    · rw [List.mem_singleton.1 hop]
      trivial
  · decide +kernel

end Spin
end Aarchvm

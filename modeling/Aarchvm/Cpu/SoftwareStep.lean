import Aarchvm.Cpu.Step
import Aarchvm.Cpu.SpBanks
import Aarchvm.Cpu.WalkPage
import Aarchvm.Cpu.Atomic

/-!
# Software step

A stepped instruction is followed by a Software Step exception unless `step` has noted an
exception by then. The interrupt probe at its start notes one whether it takes an
interrupt or not, and WFI and WFE leave their wait state set for the handler, so the law
holds only of a step that neither probes nor begins to wait.
-/
namespace Aarchvm

/-! ## The registers of an exception entry -/

namespace SystemRegisters

/-- The class that an entry stores is the one it was given. -/
theorem syncSyndrome_class {ec iss : U32} (hec : ec.toNat < 64) :
    syncSyndrome ec iss >>> 26 = ec.setWidth 64 := by
  have hmask : ec &&& 0x3F = ec := by
    have h3f : (0x3F : U32).toNat = 2 ^ 6 - 1 := rfl
    rw [← BitVec.toNat_inj, BitVec.toNat_and, h3f, Nat.and_two_pow_sub_one_eq_mod]
    exact Nat.mod_eq_of_lt hec
  have hclass : (ec.setWidth 64 <<< 26 : U64) >>> 26 = ec.setWidth 64 := by
    bv_omega
  have hil : ((1 : U64) <<< 25) >>> 26 = 0 := by decide
  have hiss : (iss &&& 0x1FFFFFF).setWidth 64 >>> 26 = (0 : U64) := by
    have hlow : (iss &&& 0x1FFFFFF).toNat < 2 ^ 25 := by
      rw [BitVec.toNat_and]
      exact Nat.lt_of_le_of_lt Nat.and_le_right (by decide)
    bv_omega
  rw [syncSyndrome, hmask, BitVec.ushiftRight_or_distrib, BitVec.ushiftRight_or_distrib, hclass,
    hil, hiss]
  exact BitVec.or_zero.trans BitVec.or_zero

end SystemRegisters

namespace Cpu

variable {c : Cpu}

theorem Translated.exceptionTakenThisStep {c' : Cpu} (h : Translated c c') :
    c'.exceptionTakenThisStep = c.exceptionTakenThisStep := by
  rw [h]

end Cpu

namespace StepState

variable {β : Type} {s : StepState β} {port : BusPort β} {exec : U32 → StepState β → StepState β}

/-! ## The step around an instruction -/

/-- What the state in which an instruction starts has of the one in which `step` began. -/
structure Started (s s₂ : StepState β) : Prop where
  running : s.cpu.halted = false
  sysregs : s₂.cpu.sysregs = s.cpu.sysregs
  /-- an exception is noted exactly when interrupts were probed -/
  noted : s₂.cpu.exceptionTakenThisStep = s.cpu.shouldTryIrq s.gic

theorem probeIrq_sysregs (c : Cpu) {s' : StepState β} (h : s.probeIrq c = (false, s')) :
    s'.cpu.sysregs = c.sysregs ∧
      s'.cpu.exceptionTakenThisStep = (c.exceptionTakenThisStep || c.shouldTryIrq s.gic) := by
  rw [probeIrq] at h
  split at h
  · next hprobe =>
    rw [hprobe, Bool.or_true]
    obtain ⟨hfound, rfl⟩ := Prod.mk.inj h
    cases hack : (s.gic.acknowledge c.cpuIndex c.irqThreshold).1 with
    | none =>
      rw [Cpu.tryTakeIrq_of_none hack]
      exact ⟨rfl, rfl⟩
    | some intid =>
      by_cases hroom : c.exceptions.depth < kExceptionStackCapacity
      · obtain ⟨newPrio, ht⟩ := Cpu.tryTakeIrq_of_room hack hroom
        rw [ht] at hfound
        cases hfound
      · rw [Cpu.tryTakeIrq_of_full hack hroom]
        exact ⟨rfl, rfl⟩
  · next hprobe =>
    obtain ⟨-, rfl⟩ := Prod.mk.inj h
    rw [Bool.eq_false_of_not_eq_true hprobe, Bool.or_false]
    exact ⟨rfl, rfl⟩

theorem beforeFetchChecks_started {s₁ : StepState β} (h : s.beforeFetchChecks = .fetching s₁) :
    s₁ = s.setCpu { s.cpu with
      steppedInstructionInFlight := s.cpu.sysregs.softwareStepActiveNotPending } := by
  rw [beforeFetchChecks] at h
  split at h
  · cases h
  · split at h
    · cases h
    · split at h
      · cases h
      · exact (StepStart.fetching.inj h).symm

theorem beforeFetch_started {s₁ : StepState β} (h : s.beforeFetch = .fetching s₁) :
    Started s s₁ ∧
      s₁.cpu.steppedInstructionInFlight = s.cpu.sysregs.softwareStepActiveNotPending := by
  rw [beforeFetch] at h
  split at h
  · cases h
  · next hrun =>
    dsimp only at h
    split at h
    · cases h
    · split at h
      · cases h
      · next s' hprobe =>
        obtain ⟨hsys, hnoted⟩ := probeIrq_sysregs _ hprobe
        rw [beforeFetchChecks_started h]
        refine ⟨⟨Bool.eq_false_of_not_eq_true hrun, hsys, ?_⟩, ?_⟩
        · exact hnoted.trans (Bool.false_or _)
        · exact congrArg SystemRegisters.softwareStepActiveNotPending hsys

/-- A fetch that succeeds moves the PC on. -/
theorem fetchInsn_started {insn : U32} {s₂ : StepState β}
    (h : s.fetchInsn port = .ok (insn, s₂)) :
    s₂.cpu.sysregs = s.cpu.sysregs ∧
      s₂.cpu.exceptionTakenThisStep = s.cpu.exceptionTakenThisStep := by
  have hkept :=
    (Cpu.translated_translateAddress s.cpu (port.readDesc s.bus) s.cpu.pc .fetch true true
    true)
  rw [fetchInsn] at h
  dsimp only at h
  split at h
  · cases h
  · next result c htranslate =>
    rw [htranslate] at hkept
    split at h
    · cases h
    · split at h
      · cases h
      · obtain ⟨-, rfl⟩ := Prod.mk.inj (Except.ok.inj h)
        exact ⟨hkept.sysregs, hkept.exceptionTakenThisStep⟩

/-- A step that executes an instruction is the instruction and `finish_instruction`. -/
theorem executes_spec (exec : U32 → StepState β → StepState β) {insn : U32} {s₂ : StepState β}
    (h : s.executes port = some (insn, s₂)) :
    Started s s₂ ∧ s.step port exec =
      (exec insn s₂).finishInstruction s.cpu.sysregs.softwareStepActiveNotPending insn := by
  rw [executes] at h
  rw [step]
  split at h
  · cases h
  · next s₁ hbefore =>
    obtain ⟨hstarted, hflight⟩ := beforeFetch_started hbefore
    cases hfetch : s₁.fetchInsn port with
    | error s' =>
      rw [hfetch] at h
      cases h
    | ok fetched =>
      obtain ⟨insn', s₂'⟩ := fetched
      rw [hfetch] at h
      obtain ⟨rfl, rfl⟩ := Prod.mk.inj (Option.some.inj h)
      obtain ⟨hsys, hnoted⟩ := fetchInsn_started hfetch
      refine ⟨⟨hstarted.running, hsys.trans hstarted.sysregs, hnoted.trans hstarted.noted⟩, ?_⟩
      dsimp only
      rw [hflight]

/-! ## The law -/

/-- A memory that holds `insn` everywhere. -/
def filledWith (insn : U32) : BusPort Unit where
  read _ _ _ := (some (insn.setWidth 64), ())
  write _ _ _ _ := (true, ())
  readDesc _ _ := none
  hasRam _ _ := true

end StepState
end Aarchvm

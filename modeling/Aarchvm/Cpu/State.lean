import Aarchvm.Cpu.SystemRegisters
import Aarchvm.Cpu.Tlb
import Aarchvm.Lib.Stack
import Aarchvm.Gic.State

/-!
# CPU state

The members of `Cpu` that exceptions, the interrupt controller interface, address
translation and the exclusive monitor use. The two fixed arrays with a depth counter are
bounded stacks; the cached delivery threshold carries the equation that
`refresh_irq_threshold_cache` restores. Trace options, performance counters and the decode
cache are left out.
-/
namespace Aarchvm

open Lib

def kExceptionStackCapacity : Nat := 64

/-- One level of the `exception_*_stack_` arrays. -/
structure ExceptionFrame where
  isIrq : Bool
  intid : Nat
  prevPrio : U16
  prioDropped : Bool
  deriving DecidableEq, Repr

/-- The frame of an interrupt whose priority is not dropped yet. -/
def ExceptionFrame.isOpenIrq (f : ExceptionFrame) : Bool := f.isIrq && !f.prioDropped

/-- One level of the `manual_irq_*_stack_` arrays. -/
structure ManualIrq where
  intid : Nat
  prevPrio : U16
  prioDropped : Bool
  deriving DecidableEq, Repr

abbrev ExceptionStack := Stack ExceptionFrame kExceptionStackCapacity
abbrev ManualStack := Stack ManualIrq kExceptionStackCapacity

/-- `compute_irq_threshold`. -/
def computeIrqThreshold (iccPmrEl1 : U64) (runningPriority : U16) : U16 :=
  if runningPriority < (iccPmrEl1 &&& 0xFF).setWidth 16 then runningPriority
  else (iccPmrEl1 &&& 0xFF).setWidth 16

/-- The priority mask, the running priority and the threshold cached from them. -/
structure Priorities where
  iccPmrEl1 : U64
  runningPriority : U16
  irqDeliveryThreshold : U16
  fresh : irqDeliveryThreshold = computeIrqThreshold iccPmrEl1 runningPriority

namespace Priorities

def reset : Priorities := ⟨0xFF, 0x100, 0xFF, by decide⟩

/-- Both inputs followed by `refresh_irq_threshold_cache`. -/
def refreshed (iccPmrEl1 : U64) (runningPriority : U16) : Priorities :=
  ⟨iccPmrEl1, runningPriority, computeIrqThreshold iccPmrEl1 runningPriority, rfl⟩

def setRunning (p : Priorities) (runningPriority : U16) : Priorities :=
  refreshed p.iccPmrEl1 runningPriority

def setPmr (p : Priorities) (iccPmrEl1 : U64) : Priorities :=
  refreshed iccPmrEl1 p.runningPriority

end Priorities

/-- The `irq_query_*` members: the last query that found nothing. -/
structure IrqQuery where
  epoch : Nat
  threshold : U16
  negativeValid : Bool
  deriving DecidableEq, Repr

/-- The interrupt controller CPU interface. -/
structure Icc where
  manualIrqs : ManualStack
  priorities : Priorities
  iccCtlrEl1 : U64
  iccIgrpen1El1 : U64
  irqQuery : IrqQuery

def Icc.reset : Icc where
  manualIrqs := .empty
  priorities := .reset
  iccCtlrEl1 := 0
  iccIgrpen1El1 := 0
  irqQuery := ⟨0, 0, false⟩

inductive FaultKind where
  | translation | addressSize | accessFlag | permission | externalAbortOnWalk
  deriving DecidableEq, Repr

structure TranslationFault where
  kind : FaultKind
  level : Nat
  write : Bool
  deriving DecidableEq, Repr

/-- A valid exclusive monitor: one physical address for each byte. -/
structure ExclusiveMonitor where
  addr : U64
  size : Nat
  physAddrs : List U64
  length_eq : physAddrs.length = size

structure Cpu where
  /-- general registers, and the current stack pointer at 31 -/
  regs : Nat → U64
  sysregs : SystemRegisters
  exceptions : ExceptionStack
  icc : Icc
  waitingForInterrupt : Bool
  waitingForEvent : Bool
  eventRegister : Bool
  /-- `none` when `exclusive_valid_` is false -/
  exclusive : Option ExclusiveMonitor
  tlb : Tlb
  lastTranslationFault : Option TranslationFault
  lastDataAbortIssOverride : Option U32
  lastDataFaultVa : Option U64
  pc : U64
  exceptionTakenThisStep : Bool
  steppedInstructionInFlight : Bool
  halted : Bool
  cpuIndex : Nat

/-- `effective_tbi`, which ignores its second parameter. -/
def effectiveTbi (tcr va : U64) : Bool :=
  if va.getLsbD 55 then tcr.getLsbD 38 else tcr.getLsbD 37

def kTopByteMask : U64 := 0xFF <<< 56

/-- `normalize_stage1_address`. -/
def normalizeStage1Address (tcr va : U64) : U64 :=
  if effectiveTbi tcr va then
    if va.getLsbD 55 then (va &&& ~~~kTopByteMask) ||| kTopByteMask else va &&& ~~~kTopByteMask
  else va

namespace Cpu

/-- `Cpu::reset`, which keeps the stack pointer. -/
def reset (cpuIndex : Nat) (sp pc : U64) : Cpu where
  regs := fun i => if i = 31 then sp else 0
  sysregs := { SystemRegisters.reset with spEl1 := sp }
  exceptions := .empty
  icc := .reset
  waitingForInterrupt := false
  waitingForEvent := false
  eventRegister := false
  exclusive := none
  tlb := .empty
  lastTranslationFault := none
  lastDataAbortIssOverride := none
  lastDataFaultVa := none
  pc := pc
  exceptionTakenThisStep := false
  steppedInstructionInFlight := false
  halted := false
  cpuIndex := cpuIndex

/-- `save_current_sp_to_bank`. -/
def saveCurrentSpToBank (c : Cpu) : Cpu :=
  if c.sysregs.currentUsesSpEl0 then { c with sysregs.spEl0 := c.regs 31 }
  else { c with sysregs.spEl1 := c.regs 31 }

/-- `load_current_sp_from_bank`. -/
def loadCurrentSpFromBank (c : Cpu) : Cpu :=
  { c with
    regs := fun i =>
      if i = 31 then if c.sysregs.currentUsesSpEl0 then c.sysregs.spEl0 else c.sysregs.spEl1
      else c.regs i }

/-- `static_cast<std::uint8_t>(irq_delivery_threshold_ & 0xFF)`. -/
def irqThreshold (c : Cpu) : U8 := c.icc.priorities.irqDeliveryThreshold.setWidth 8

/-- `should_try_irq`. -/
def shouldTryIrq (c : Cpu) (g : GicV3) : Bool :=
  if c.sysregs.irqMasked || c.icc.iccIgrpen1El1 == 0 then false
  else
    !(c.icc.irqQuery.negativeValid && c.icc.irqQuery.epoch == g.stateEpoch &&
      c.icc.irqQuery.threshold == c.icc.priorities.irqDeliveryThreshold)

/-- Record a query that found nothing. -/
def noteNegativeQuery (c : Cpu) (epoch : Nat) : Cpu :=
  { c with icc.irqQuery := ⟨epoch, c.icc.priorities.irqDeliveryThreshold, true⟩ }

def setRunningPriority (c : Cpu) (runningPriority : U16) : Cpu :=
  { c with icc.priorities := c.icc.priorities.setRunning runningPriority }

end Cpu
end Aarchvm

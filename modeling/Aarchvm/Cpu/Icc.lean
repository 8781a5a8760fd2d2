import Aarchvm.Cpu.Exception

/-!
# The interrupt controller CPU interface

The ICC system registers. A read of ICC_IAR1_EL1 inside an interrupt handler
returns the INTID that the entry acknowledged; elsewhere it acknowledges in the
GIC and pushes the manual stack. EOIR and DIR writes look at the top of the two
stacks only.
-/
namespace Aarchvm
namespace Cpu

/-- The INTID of the innermost exception, if that is an interrupt. -/
def currentIrq (c : Cpu) : Option Nat :=
  match c.exceptions.top? with
  | none => none
  | some f => if f.isIrq then some f.intid else none

/-- The polled half of `read_icc_iar1_el1`. -/
def readIarPolled (c : Cpu) (g : GicV3) : Nat × Cpu × GicV3 :=
  if h : c.icc.iccIgrpen1El1 ≠ 0 ∧ c.icc.manualIrqs.depth < kExceptionStackCapacity then
    match g.acknowledge c.cpuIndex c.irqThreshold with
    | (none, g') => (1023, c.noteNegativeQuery g'.stateEpoch, g')
    | (some intid, g') =>
      let c₁ := { c with
        icc.irqQuery.negativeValid := false
        icc.manualIrqs :=
          c.icc.manualIrqs.push ⟨intid, c.icc.priorities.runningPriority, false⟩ h.2 }
      (intid, c₁.setRunningPriority ((g'.priority c.cpuIndex intid).setWidth 16), g')
  else (1023, c, g)

/-- `read_icc_iar1_el1`. -/
def readIccIar1El1 (c : Cpu) (g : GicV3) : Nat × Cpu × GicV3 :=
  match c.currentIrq with
  | some intid => (intid, c, g)
  | none => c.readIarPolled g

/-- `read_icc_hppir1_el1`. -/
def readIccHppir1El1 (c : Cpu) (g : GicV3) : Nat :=
  if c.icc.iccIgrpen1El1 = 0 then 1023 else (g.highestPending c.cpuIndex c.irqThreshold).getD 1023

/-- ICC_CTLR_EL1.EOImode: priority drop and deactivation are separate. -/
def eoiMode (c : Cpu) : Bool := c.icc.iccCtlrEl1.getLsbD 1

/-- `icc_priority_drop` for the interrupt being handled, whose frame is the top one. -/
def dropCurrentIrq (c : Cpu) (g : GicV3) (f : ExceptionFrame) : Cpu × GicV3 :=
  let c₁ := { c.setRunningPriority f.prevPrio with
    exceptions := c.exceptions.modifyTop ({ · with prioDropped := true }) }
  (c₁, if c.eoiMode then g else g.eoi c.cpuIndex f.intid)

/-- `icc_priority_drop` for a polled interrupt. -/
def dropManual (c : Cpu) (g : GicV3) (intid : Nat) : Cpu × GicV3 :=
  match c.icc.manualIrqs.top? with
  | none => (c, g)
  | some m =>
    if m.intid ≠ intid then (c, g)
    else
      let c₁ := c.setRunningPriority m.prevPrio
      if c.eoiMode then
        ({ c₁ with
          icc.manualIrqs := c.icc.manualIrqs.modifyTop ({ · with prioDropped := true }) }, g)
      else ({ c₁ with icc.manualIrqs := c.icc.manualIrqs.pop }, g.eoi c.cpuIndex intid)

/-- `icc_priority_drop`. -/
def iccPriorityDrop (c : Cpu) (g : GicV3) (intid : Nat) : Cpu × GicV3 :=
  match c.exceptions.top? with
  | none => c.dropManual g intid
  | some f =>
    if f.isIrq = true ∧ f.intid = intid then c.dropCurrentIrq g f else c.dropManual g intid

/-- `icc_deactivate`. -/
def iccDeactivate (c : Cpu) (g : GicV3) (intid : Nat) : Cpu × GicV3 :=
  let g' := g.eoi c.cpuIndex intid
  match c.icc.manualIrqs.top? with
  | none => (c, g')
  | some m =>
    if m.intid = intid ∧ m.prioDropped = true then
      ({ c with icc.manualIrqs := c.icc.manualIrqs.pop }, g')
    else (c, g')

/-- `irq_wakeup_ready`. -/
def irqWakeupReady (c : Cpu) (g : GicV3) : Bool × Cpu × GicV3 :=
  if c.shouldTryIrq g then
    match g.hasPending c.cpuIndex c.irqThreshold with
    | (true, g') => (true, c, g')
    | (false, g') => (false, c.noteNegativeQuery g.stateEpoch, g')
  else (false, c, g)

/-! ## The exception stack under ICC accesses -/

theorem irqWakeupReady_exceptions (c : Cpu) (g : GicV3) :
    (c.irqWakeupReady g).2.1.exceptions = c.exceptions := by
  unfold irqWakeupReady
  split
  · split <;> rfl
  · rfl

theorem readIccIar1El1_exceptions (c : Cpu) (g : GicV3) :
    (c.readIccIar1El1 g).2.1.exceptions = c.exceptions := by
  unfold readIccIar1El1 readIarPolled
  split
  · rfl
  · split
    · split <;> rfl
    · rfl

theorem dropManual_exceptions (c : Cpu) (g : GicV3) (intid : Nat) :
    (c.dropManual g intid).1.exceptions = c.exceptions := by
  unfold dropManual
  split
  · rfl
  · split
    · rfl
    · dsimp only
      split <;> rfl

theorem iccPriorityDrop_depth (c : Cpu) (g : GicV3) (intid : Nat) :
    (c.iccPriorityDrop g intid).1.exceptions.depth = c.exceptions.depth := by
  unfold iccPriorityDrop
  split
  · rw [dropManual_exceptions]
  · split
    · exact Lib.Stack.depth_modifyTop _ _
    · rw [dropManual_exceptions]

theorem iccDeactivate_exceptions (c : Cpu) (g : GicV3) (intid : Nat) :
    (c.iccDeactivate g intid).1.exceptions = c.exceptions := by
  unfold iccDeactivate
  dsimp only
  split
  · rfl
  · split <;> rfl

end Cpu
end Aarchvm

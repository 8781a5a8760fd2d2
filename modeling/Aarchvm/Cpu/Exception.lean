import Aarchvm.Cpu.State

/-!
# Exception entry and return

`enter_sync_exception`, `try_take_irq` and the ERET branch of `Cpu::step`. Each
entry pushes one frame on the shadow exception stack; each return pops one if
there is one. Both entries halt the CPU when the stack is full.
-/
namespace Aarchvm

/-- `GicV3::priority`. -/
def GicV3.priority (g : GicV3) (cpuIndex intid : Nat) : U8 :=
  if intid < kLocalIntIds then (g.localCpu cpuIndex).priorities intid
  else if kNumIntIds ≤ intid then kDefaultPriority
  else g.spiPriorities intid

namespace Cpu

/-- `captured_pstate_for_sync_exception`. -/
def capturedPstateForSyncException (c : Cpu) (ec : U32) : U64 :=
  let saved := c.sysregs.pstate.bits
  if c.steppedInstructionInFlight then
    if ec = 0x15 then saved &&& ~~~((1 : U64) <<< 21) else saved ||| ((1 : U64) <<< 21)
  else saved

/-- SVC returns to the next instruction. -/
def syncReturnPc (faultPc : U64) (ec : U32) : U64 := if ec = 0x15 then faultPc + 4 else faultPc

/-- The vector of an exception from the CPU's current exception level and stack pointer;
`kind` is 0 for synchronous exceptions and 0x80 for interrupts. -/
def vectorPc (c : Cpu) (kind : U64) : U64 :=
  normalizeStage1Address c.sysregs.tcrEl1
    (c.sysregs.vbarEl1 +
      (kind + (if c.sysregs.inEl0 then 0x400 else if c.sysregs.useSpElx then 0x200 else 0x0)))

def pushException (c : Cpu) (f : ExceptionFrame)
    (h : c.exceptions.depth < kExceptionStackCapacity) :
    Cpu :=
  { c with exceptions := c.exceptions.push f h }

/-- `enter_sync_exception`. -/
def enterSyncException (c : Cpu) (faultPc : U64) (ec iss : U32) (farValid : Bool) (far : U64) :
    Cpu :=
  if h : c.exceptions.depth < kExceptionStackCapacity then
    let saved := c.capturedPstateForSyncException ec
    let c₁ :=
      if c.steppedInstructionInFlight || c.sysregs.softwareStepActiveNotPending then
        { c with sysregs := c.sysregs.setSoftwareStepState false }
      else c
    let c₂ := saveCurrentSpToBank { c₁ with steppedInstructionInFlight := false }
    let c₃ := { c₂ with
      exceptionTakenThisStep := true
      exceptions := c.exceptions.push ⟨false, 0, c.icc.priorities.runningPriority, true⟩ h
      sysregs := c₂.sysregs.exceptionEnterSync (syncReturnPc faultPc ec) saved ec iss farValid far }
    { c₃.loadCurrentSpFromBank with pc := c.vectorPc 0 }
  else { c with exceptionTakenThisStep := true, halted := true }

/-- `try_take_irq` after a successful acknowledge. -/
def deliverIrq (c : Cpu) (intid : Nat) (newPrio : U8)
    (h : c.exceptions.depth < kExceptionStackCapacity) : Cpu :=
  let c₁ := c.saveCurrentSpToBank.setRunningPriority (newPrio.setWidth 16)
  let saved := c.sysregs.pstate.bits
  let c₂ :=
    if c.sysregs.softwareStepActiveNotPending then
      { c₁ with sysregs := c₁.sysregs.setSoftwareStepState false }
    else c₁
  let c₃ := { c₂ with
    exceptions := c.exceptions.push ⟨true, intid, c.icc.priorities.runningPriority, false⟩ h
    sysregs := c₂.sysregs.exceptionEnterIrq c.pc saved }
  { c₃.loadCurrentSpFromBank with pc := c.vectorPc 0x80 }

/-- The CPU of an interrupt probe after the acknowledge succeeded. -/
def acknowledged (c : Cpu) : Cpu :=
  { c with exceptionTakenThisStep := true, icc.irqQuery.negativeValid := false }

/-- `try_take_irq`. -/
def tryTakeIrq (c : Cpu) (g : GicV3) : Bool × Cpu × GicV3 :=
  match g.acknowledge c.cpuIndex c.irqThreshold with
  | (none, g') =>
    (false, { c with exceptionTakenThisStep := true }.noteNegativeQuery g.stateEpoch, g')
  | (some intid, g') =>
    if h : c.exceptions.depth < kExceptionStackCapacity then
      (true, c.acknowledged.deliverIrq intid (g'.priority c.cpuIndex intid) h, g')
    else (false, { c.acknowledged with halted := true }, g')

/-- The frame that ERET pops: an interrupt whose priority was not dropped is ended. -/
def popException (c : Cpu) (g : GicV3) : Cpu × GicV3 :=
  match c.exceptions.top? with
  | none => (c, g)
  | some f =>
    if f.isOpenIrq then
      ({ c.setRunningPriority f.prevPrio with exceptions := c.exceptions.pop },
        g.eoi c.cpuIndex f.intid)
    else ({ c with exceptions := c.exceptions.pop }, g)

/-- The ERET branch of `step` above EL0; at EL0 the branch is `enterSyncException`. -/
def eret (c : Cpu) (g : GicV3) : Cpu × GicV3 :=
  let c₁ := { c.saveCurrentSpToBank with exclusive := none }
  let ret := c₁.sysregs.exceptionReturn c₁.sysregs.illegalExceptionReturn
  popException { c₁ with pc := ret.1, sysregs := ret.2 }.loadCurrentSpFromBank g

/-! ## What an entry leaves in the registers -/

/-- The exception was delivered: the CPU goes on at the vector of `kind` with the return
state in its exception registers. -/
structure Delivered (c c' : Cpu) (kind returnPc savedPstate esr : U64) : Prop where
  running : c'.halted = false
  elr : c'.sysregs.elrEl1 = returnPc
  spsr : c'.sysregs.spsrEl1 = sanitizeSpsrEl1 savedPstate
  esr : c'.sysregs.esrEl1 = esr
  pc : c'.pc = c.vectorPc kind

@[simp] theorem saveCurrentSpToBank_exceptions (c : Cpu) :
    c.saveCurrentSpToBank.exceptions = c.exceptions := by
  unfold saveCurrentSpToBank
  split <;> rfl

@[simp] theorem saveCurrentSpToBank_icc (c : Cpu) : c.saveCurrentSpToBank.icc = c.icc := by
  unfold saveCurrentSpToBank
  split <;> rfl

@[simp] theorem saveCurrentSpToBank_halted (c : Cpu) :
    c.saveCurrentSpToBank.halted = c.halted := by
  unfold saveCurrentSpToBank
  split <;> rfl

@[simp] theorem saveCurrentSpToBank_cpuIndex (c : Cpu) :
    c.saveCurrentSpToBank.cpuIndex = c.cpuIndex := by
  unfold saveCurrentSpToBank
  split <;> rfl

theorem enterSyncException_of_room {c : Cpu} (faultPc : U64) (ec iss : U32) (farValid : Bool)
    (far : U64) (h : c.exceptions.depth < kExceptionStackCapacity) :
    (c.enterSyncException faultPc ec iss farValid far).exceptions =
        c.exceptions.push ⟨false, 0, c.icc.priorities.runningPriority, true⟩ h ∧
      (c.enterSyncException faultPc ec iss farValid far).icc = c.icc ∧
      (c.enterSyncException faultPc ec iss farValid far).cpuIndex = c.cpuIndex := by
  unfold enterSyncException
  rw [dif_pos h]
  refine ⟨rfl, ?_, ?_⟩
  · dsimp only [loadCurrentSpFromBank]
    rw [saveCurrentSpToBank_icc]
    split <;> rfl
  · dsimp only [loadCurrentSpFromBank]
    rw [saveCurrentSpToBank_cpuIndex]
    split <;> rfl

theorem enterSyncException_of_full {c : Cpu} (faultPc : U64) (ec iss : U32) (farValid : Bool)
    (far : U64) (h : ¬ c.exceptions.depth < kExceptionStackCapacity) :
    c.enterSyncException faultPc ec iss farValid far =
      { c with exceptionTakenThisStep := true, halted := true } := by
  unfold enterSyncException
  rw [dif_neg h]

/-- With room on the stack a synchronous exception is delivered, and FAR_EL1 is written. -/
theorem enterSyncException_delivered {c : Cpu} (faultPc : U64) (ec iss : U32) (farValid : Bool)
    (far : U64) (h : c.exceptions.depth < kExceptionStackCapacity) (hrun : c.halted = false) :
    Delivered c (c.enterSyncException faultPc ec iss farValid far) 0 (syncReturnPc faultPc ec)
        (c.capturedPstateForSyncException ec) (SystemRegisters.syncSyndrome ec iss) ∧
      (c.enterSyncException faultPc ec iss farValid far).sysregs.farEl1 =
        if farValid then far else 0 := by
  unfold enterSyncException
  rw [dif_pos h]
  refine ⟨⟨?_, rfl, rfl, rfl, rfl⟩, rfl⟩
  dsimp only [loadCurrentSpFromBank]
  rw [saveCurrentSpToBank_halted]
  split <;> exact hrun

theorem deliverIrq_delivered {c : Cpu} (intid : Nat) (newPrio : U8)
    (h : c.exceptions.depth < kExceptionStackCapacity) (hrun : c.halted = false) :
    Delivered c (c.deliverIrq intid newPrio h) 0x80 c.pc c.sysregs.pstate.bits 0 := by
  refine ⟨?_, rfl, rfl, rfl, rfl⟩
  dsimp only [deliverIrq, loadCurrentSpFromBank, setRunningPriority]
  split <;> exact (saveCurrentSpToBank_halted c).trans hrun

theorem deliverIrq_frame {c : Cpu} (intid : Nat) (newPrio : U8)
    (h : c.exceptions.depth < kExceptionStackCapacity) :
    (c.deliverIrq intid newPrio h).exceptions =
        c.exceptions.push ⟨true, intid, c.icc.priorities.runningPriority, false⟩ h ∧
      (c.deliverIrq intid newPrio h).icc =
        { c.icc with priorities := c.icc.priorities.setRunning (newPrio.setWidth 16) } ∧
      (c.deliverIrq intid newPrio h).cpuIndex = c.cpuIndex := by
  refine ⟨rfl, ?_, ?_⟩
  · dsimp only [deliverIrq, loadCurrentSpFromBank, setRunningPriority]
    split <;> exact congrArg (fun icc : Icc =>
      { icc with priorities := icc.priorities.setRunning (newPrio.setWidth 16) })
        (saveCurrentSpToBank_icc c)
  · dsimp only [deliverIrq, loadCurrentSpFromBank, setRunningPriority]
    split <;> exact saveCurrentSpToBank_cpuIndex c

/-! ## What an interrupt probe does -/

theorem tryTakeIrq_of_none {c : Cpu} {g : GicV3}
    (h : (g.acknowledge c.cpuIndex c.irqThreshold).1 = none) :
    c.tryTakeIrq g =
      (false, { c with exceptionTakenThisStep := true }.noteNegativeQuery g.stateEpoch,
      (g.acknowledge c.cpuIndex c.irqThreshold).2) := by
  unfold tryTakeIrq
  rw [← Prod.eta (g.acknowledge c.cpuIndex c.irqThreshold), h]

/-- An acknowledged interrupt is delivered when there is room for its frame. -/
theorem tryTakeIrq_of_room {c : Cpu} {g : GicV3} {intid : Nat}
    (hack : (g.acknowledge c.cpuIndex c.irqThreshold).1 = some intid)
    (h : c.exceptions.depth < kExceptionStackCapacity) :
    ∃ newPrio, c.tryTakeIrq g =
      (true, c.acknowledged.deliverIrq intid newPrio h,
        (g.acknowledge c.cpuIndex c.irqThreshold).2) := by
  unfold tryTakeIrq
  rw [← Prod.eta (g.acknowledge c.cpuIndex c.irqThreshold), hack]
  dsimp only
  rw [dif_pos h]
  exact ⟨_, rfl⟩

/-- An acknowledged interrupt is dropped when there is none. -/
theorem tryTakeIrq_of_full {c : Cpu} {g : GicV3} {intid : Nat}
    (hack : (g.acknowledge c.cpuIndex c.irqThreshold).1 = some intid)
    (h : ¬ c.exceptions.depth < kExceptionStackCapacity) :
    c.tryTakeIrq g = (false, { c.acknowledged with halted := true },
      (g.acknowledge c.cpuIndex c.irqThreshold).2) := by
  unfold tryTakeIrq
  rw [← Prod.eta (g.acknowledge c.cpuIndex c.irqThreshold), hack]
  dsimp only
  rw [dif_neg h]

/-! ## What a return does -/

theorem popException_exceptions (c : Cpu) (g : GicV3) :
    (c.popException g).1.exceptions = c.exceptions.pop := by
  unfold popException
  cases ht : c.exceptions.top? with
  | none => exact (Lib.Stack.pop_of_top_none ht).symm
  | some f =>
    dsimp only
    split <;> rfl

theorem popException_icc_of_open {c : Cpu} {g : GicV3} {f : ExceptionFrame}
    (ht : c.exceptions.top? = some f) (ho : f.isOpenIrq = true) :
    (c.popException g).1.icc =
      { c.icc with priorities := c.icc.priorities.setRunning f.prevPrio } := by
  unfold popException
  rw [ht]
  dsimp only
  rw [if_pos ho]
  rfl

theorem popException_icc_of_not_open {c : Cpu} {g : GicV3}
    (ho : ∀ f, c.exceptions.top? = some f → f.isOpenIrq = false) :
    (c.popException g).1.icc = c.icc := by
  unfold popException
  cases ht : c.exceptions.top? with
  | none => rfl
  | some f =>
    dsimp only
    rw [ho f ht]
    rfl

/-- The CPU whose frame `eret` pops has the exceptions and the interrupt state of the one
that executes it. -/
theorem exists_eret_eq (c : Cpu) (g : GicV3) :
    ∃ c' : Cpu, c.eret g = c'.popException g ∧ c'.exceptions = c.exceptions ∧ c'.icc = c.icc ∧
      c'.cpuIndex = c.cpuIndex :=
  ⟨_, rfl, saveCurrentSpToBank_exceptions c, saveCurrentSpToBank_icc c,
    saveCurrentSpToBank_cpuIndex c⟩

theorem eret_exceptions (c : Cpu) (g : GicV3) : (c.eret g).1.exceptions = c.exceptions.pop := by
  obtain ⟨c', he, hexc, -, -⟩ := exists_eret_eq c g
  rw [he, popException_exceptions, hexc]

end Cpu
end Aarchvm

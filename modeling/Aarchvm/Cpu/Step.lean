import Aarchvm.Cpu.Smp

/-!
# One step of a CPU

`Cpu::step` around the instruction it executes: the wait states, the interrupt probe, a
pending software step, the fetch with its faults and breakpoints, and what is done when
the instruction is finished. What the instruction itself does is a parameter, from the
state after `pc_ += 4` to the one at `finish_instruction`; the counters and traces are
left out.
-/
namespace Aarchvm

/-- A CPU, the interrupt controller and the bus. -/
structure StepState (β : Type) where
  cpu : Cpu
  gic : GicV3
  bus : β

/-- The breakpoints that the reset value of ID_AA64DFR0_EL1 advertises. -/
def kBreakpointResourceCount : Nat := 2

namespace Cpu

variable (c : Cpu)

/-- One turn of the loop of `maybe_take_breakpoint_exception`. -/
def breakpointHit (faultPc : U64) (i : Nat) : Bool :=
  let ctrl := c.sysregs.dbgbcrEl1 i
  ctrl.getLsbD 0 && ((ctrl >>> 3) &&& 0x3) == 0 && ((ctrl >>> 5) &&& 0xF) != 0 &&
    c.debugPrivilegeMatches ctrl && (faultPc &&& ~~~0x3) == (c.sysregs.dbgbvrEl1 i &&& ~~~0x3)

/-- `maybe_take_breakpoint_exception`; `none` when there is no hit. -/
def maybeTakeBreakpointException (faultPc : U64) : Option Cpu :=
  if !c.sysregs.breakpointWatchpointEnabledCurrent then none
  else if (List.range kBreakpointResourceCount).any (c.breakpointHit faultPc) then
    some (c.enterSyncException faultPc (c.classFrom 0x30 0x31) kDebugExceptionIfsc false 0)
  else none

/-- The tags of LDXR, LDAXR and their variants. -/
def loadExclusiveTags : List U32 :=
  [0x08407C00, 0x0840FC00, 0x48407C00, 0x4840FC00, 0x88407C00, 0x8840FC00, 0xC8407C00, 0xC840FC00,
   0x08C0FC00, 0x48C0FC00, 0x88C0FC00, 0xC8C0FC00]

def loadExclusivePairTags : List U32 := [0x88600000, 0x88608000, 0xC8600000, 0xC8608000]

/-- `is_load_exclusive_instruction`. -/
def isLoadExclusiveInstruction (insn : U32) : Bool :=
  loadExclusiveTags.contains (insn &&& 0xFFE0FC00) ||
    loadExclusivePairTags.contains (insn &&& 0xFFE08000)

/-- `complete_software_step_after_instruction`. -/
def completeSoftwareStepAfterInstruction (nextPc : U64) (insn : U32) : Cpu :=
  let c := { c with sysregs := c.sysregs.setSoftwareStepState false }
  if !c.sysregs.softwareStepActivePending then c
  else
    let iss := if isLoadExclusiveInstruction insn then
      kDebugExceptionIfsc ||| (((1 : U32) <<< 24) ||| ((1 : U32) <<< 6))
      else kDebugExceptionIfsc ||| ((1 : U32) <<< 24)
    c.enterSyncException nextPc (c.classFrom 0x32 0x33) iss false 0

/-- The start of `step`: the transient flags and the canonical PC. -/
def beginStep : Cpu :=
  { c with
    exceptionTakenThisStep := false
    steppedInstructionInFlight := false
    pc := normalizeStage1Address c.sysregs.tcrEl1 c.pc }

end Cpu

/-- `step` down to the fetch: it has returned, or the fetch is next. -/
inductive StepStart (β : Type) where
  | ended (s : StepState β)
  | fetching (s : StepState β)

namespace StepState

variable {β : Type} (s : StepState β)

def setCpu (c : Cpu) : StepState β := { s with cpu := c }

/-- `should_try_irq() && try_take_irq()`. -/
def probeIrq (c : Cpu) : Bool × StepState β :=
  if c.shouldTryIrq s.gic then
    let probe := c.tryTakeIrq s.gic
    (probe.1, { s with cpu := probe.2.1, gic := probe.2.2 })
  else (false, s.setCpu c)

/-- `step` after the interrupt probe, down to the fetch. -/
def beforeFetchChecks : StepStart β :=
  let c := s.cpu
  if c.sysregs.softwareStepActivePending then
    .ended (s.setCpu
      (c.enterSyncException c.pc (c.classFrom 0x32 0x33) kDebugExceptionIfsc false 0))
  else if c.pc &&& 0x3 ≠ 0 then .ended (s.setCpu (c.enterSyncException c.pc 0x22 0 true c.pc))
  else if c.sysregs.pstate.il then
    .ended (s.setCpu (c.enterSyncException c.pc 0x0E 0 false 0))
  else
    .fetching (s.setCpu
      { c with steppedInstructionInFlight := c.sysregs.softwareStepActiveNotPending })

/-- `step` down to the fetch. -/
def beforeFetch : StepStart β :=
  if s.cpu.halted then .ended s
  else
    let c := s.cpu.beginStep
    if c.waitingForInterrupt || c.waitingForEvent then
      let waited := c.waitStep s.gic
      .ended { s with cpu := waited.1, gic := waited.2 }
    else
      match s.probeIrq c with
      | (true, s') => .ended s'
      | (false, s') => s'.beforeFetchChecks

/-- The fetch: an exception, or the instruction word with the PC past it. -/
def fetchInsn (port : BusPort β) : Except (StepState β) (U32 × StepState β) :=
  let abort (c : Cpu) (b : β) (iss : U32) : StepState β :=
    { s with
      bus := b
      cpu := { c.enterSyncException c.pc (c.classFrom 0x20 0x21) iss true c.pc with
        steppedInstructionInFlight := false } }
  match s.cpu.translateAddress (port.readDesc s.bus) s.cpu.pc .fetch true true true with
  | (.error f, c) => .error (abort c s.bus (faultStatusCode f))
  | (.ok result, c) =>
    match port.read s.bus result.pa 4 with
    | (none, b) => .error (abort c b syncExternalAbortFsc)
    | (some fetch, b) =>
      match c.maybeTakeBreakpointException c.pc with
      | some c' =>
        .error { s with bus := b, cpu := { c' with steppedInstructionInFlight := false } }
      | none => .ok (fetch.setWidth 32, { s with bus := b, cpu := { c with pc := c.pc + 4 } })

/-- `finish_instruction`. -/
def finishInstruction (steppedInstruction : Bool) (insn : U32) : StepState β :=
  let c := { s.cpu with
    steppedInstructionInFlight := false
    pc := normalizeStage1Address s.cpu.sysregs.tcrEl1 s.cpu.pc }
  if steppedInstruction && !c.exceptionTakenThisStep && !c.halted then
    s.setCpu (c.completeSoftwareStepAfterInstruction c.pc insn)
  else s.setCpu c

/-- `Cpu::step`. -/
def step (port : BusPort β) (exec : U32 → StepState β → StepState β) : StepState β :=
  match s.beforeFetch with
  | .ended s' => s'
  | .fetching s₁ =>
    match s₁.fetchInsn port with
    | .error s' => s'
    | .ok (insn, s₂) =>
      (exec insn s₂).finishInstruction s₁.cpu.steppedInstructionInFlight insn

/-- The instruction that this step executes and the state it starts in, if it comes to one. -/
def executes (port : BusPort β) : Option (U32 × StepState β) :=
  match s.beforeFetch with
  | .ended _ => none
  | .fetching s₁ => (s₁.fetchInsn port).toOption

end StepState
end Aarchvm

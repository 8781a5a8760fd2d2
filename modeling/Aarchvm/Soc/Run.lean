import Aarchvm.Cpu.Smp
import Aarchvm.Soc.Schedule

/-!
# `SoC::run`

The run loops, over what one call of `Cpu::step` can do to the rest of the machine.
What an instruction does to its own CPU and the order of its effects are inputs, so
a run is a run of any guest program. The states in which instructions start are
collected for the specification only; log output and performance counters are left
out.
-/
namespace Aarchvm

/-- The timer registers of a CPU. -/
inductive TimerRegister where
  | ctl | cval | tval
  deriving DecidableEq, Repr

/-- What the register write makes of the channel. -/
def TimerRegister.apply (r : TimerRegister) (value : U64) (ch : TimerChannel) (current : U64) :
    TimerChannel :=
  match r with
  | .ctl => ch.writeCtl value
  | .cval => ch.writeCval value
  | .tval => ch.writeTval current value

/-- The register write of a CPU at a guest tick. -/
def GenericTimer.writeRegister (t : GenericTimer) (k : ChannelKind) (r : TimerRegister)
    (cpuIndex : Nat) (steps value : U64) : GenericTimer :=
  match k, r with
  | .cntv, .ctl => t.writeCntvCtlEl0 cpuIndex steps value
  | .cntv, .cval => t.writeCntvCvalEl0 cpuIndex steps value
  | .cntv, .tval => t.writeCntvTvalEl0 cpuIndex steps value
  | .cntp, .ctl => t.writeCntpCtlEl0 cpuIndex steps value
  | .cntp, .cval => t.writeCntpCvalEl0 cpuIndex steps value
  | .cntp, .tval => t.writeCntpTvalEl0 cpuIndex steps value

/-- `set_level` is called for the timer lines of the CPU and by `sync_devices` only. -/
def GicOp.setsLine : GicOp → Bool
  | .setLevelOn _ _ _ => true
  | _ => false

/-- What `Cpu::step` does, in parts. -/
inductive StepEffect where
  /-- any change of the CPU itself -/
  | own (after : Cpu)
  | gic (op : GicOp) (noLine : op.setsLine = false)
  /-- SEV: `broadcast_event` -/
  | sev
  /-- `on_cpu_memory_write` -/
  | memoryWrite (w : PhysWrite)
  /-- `on_external_ram_write` -/
  | dma (w : PhysWrite)
  /-- the broadcast TLB and instruction cache maintenance -/
  | tlbi (tlbs : Nat → Tlb)
  /-- PSCI CPU_ON -/
  | cpuOn (target : Nat) (entry context : U64)
  /-- a write of CNTV_* or CNTP_* -/
  | timerRegister (k : ChannelKind) (r : TimerRegister) (value : U64)
  /-- a write to the memory-mapped timer -/
  | timerWrite (offset : Nat) (value : U64) (size : Nat)
  /-- any change of the other devices, with or without a call of their observer -/
  | devices (deviceIrq : DeviceLine → Bool) (notifies : Bool)
  /-- `request_stop` -/
  | stop

/-- One call of `Cpu::step`: its effects in order and what it returns. -/
structure Insn where
  effects : List StepEffect
  ok : Bool

namespace Soc

/-- Some CPU is in WFE. -/
def anyWaitingForEvent (s : Soc) (except : Option Nat) : Bool :=
  (List.range s.cpuCount).any fun j => some j != except && (s.cpus j).waitingForEvent

/-- `refresh_local_timer_irq_lines`. -/
def refreshLocalTimerIrqLines (s : Soc) (i : Nat) : Soc :=
  { s with
    gic := (s.gic.setLevelOn i ChannelKind.cntv.intid (s.timer.lineLevel .cntv i)).setLevelOn i
      ChannelKind.cntp.intid (s.timer.lineLevel .cntp i) }

/-- One effect of an instruction of CPU `i`. -/
def perform (i : Nat) (s : Soc) : StepEffect → Soc
  | .own after => { s with cpus := Function.update s.cpus i after }
  | .gic op _ => { s with gic := s.gic.step op }
  | .sev =>
    { s with
      cpus := fun j => { s.cpus j with eventRegister := true }
      runnableStateDirty := s.runnableStateDirty || s.anyWaitingForEvent none }
  | .memoryWrite w =>
    { s with
      cpus := fun j => if j = i then s.cpus j else (s.cpus j).notifyExternalMemoryWrite w
      runnableStateDirty := s.runnableStateDirty || s.anyWaitingForEvent (some i) }
  | .dma w =>
    { s with
      cpus := fun j => (s.cpus j).notifyExternalMemoryWrite w
      runnableStateDirty := s.runnableStateDirty || s.anyWaitingForEvent none }
  | .tlbi tlbs => { s with cpus := fun j => { s.cpus j with tlb := tlbs j } }
  | .cpuOn target entry context =>
    if target = 0 ∨ s.cpuPoweredOn target = true then s
    else
      let c := Cpu.reset target ((s.cpus target).regs 31) entry
      { s with
        cpus := Function.update s.cpus target { c with regs := Function.update c.regs 0 context }
        cpuPoweredOn := Function.update s.cpuPoweredOn target true
        runnableStateDirty := true }
  | .timerRegister k r value =>
    let timer := s.timer.writeRegister k r i s.guestTimeTicks value
    { s with timer := timer }.invalidateDeviceSchedule.refreshLocalTimerIrqLines i
  | .timerWrite offset value size =>
    match s.timer.write offset value size with
    | none => s
    | some timer => { s with timer := timer }.invalidateDeviceSchedule
  | .devices deviceIrq notifies =>
    let s := { s with deviceIrq := deviceIrq }
    if notifies then s.invalidateDeviceSchedule else s
  | .stop => { s with stopRequested := true }

/-- `cpus_[i]->step()`. -/
def stepCpu (s : Soc) (i : Nat) (insn : Insn) : Bool × Soc :=
  if (s.cpus i).halted then (false, s) else (insn.ok, insn.effects.foldl (perform i) s)

/-- `compute_run_window`. -/
def computeRunWindow (s : Soc) (budget cpuDivisor : Nat) (deadlineSensitive : Bool)
    (guestTicks : U64) : Nat × Soc :=
  let chunk := max 1 ((budget + cpuDivisor - 1) % 2 ^ 64 / cpuDivisor)
  let chunk := if s.hostNetwork then min chunk 2048 else chunk
  if s.schedulerMode = .legacy then (max 1 (min chunk 65536), s)
  else if !deadlineSensitive then (chunk, s)
  else
    let event := s.queryDeviceEvent guestTicks
    match event.1 with
    | none => (max 1 chunk, event.2)
    | some e =>
      if e ≤ guestTicks then (1, event.2) else (max 1 (min chunk (e - guestTicks).toNat), event.2)

/-- Computing a window changes at most the event that is kept. -/
theorem computeRunWindow_soc (s : Soc) (budget cpuDivisor : Nat) (deadlineSensitive : Bool)
    (guestTicks : U64) :
    (s.computeRunWindow budget cpuDivisor deadlineSensitive guestTicks).2 = s ∨
      (s.computeRunWindow budget cpuDivisor deadlineSensitive guestTicks).2 =
        (s.queryDeviceEvent guestTicks).2 := by
  unfold computeRunWindow
  dsimp only
  by_cases hl : s.schedulerMode = .legacy
  · exact .inl (by rw [if_pos hl])
  · rw [if_neg hl]
    cases deadlineSensitive with
    | false => exact .inl rfl
    | true =>
      refine .inr ?_
      rw [if_neg (by decide)]
      cases (s.queryDeviceEvent guestTicks).1 with
      | none => rfl
      | some e =>
        dsimp only
        split <;> rfl

end Soc

/-- What a run is given: the calls of `Cpu::step` in order, whatever CPU makes them, and the
polls of the network backend. -/
structure Inputs where
  insns : Nat → Insn
  polls : Nat → NetPoll

structure RunState where
  soc : Soc
  /-- the calls of `Cpu::step` and of `poll` so far -/
  steps : Nat
  polls : Nat
  remaining : Nat

/-- How a chunk of a window ends. -/
inductive ChunkEnd where
  | full
  | broke
  /-- `run` returns -/
  | returned (value : Bool)
  deriving DecidableEq, Repr

/-- A piece of a run: the states in which its instructions start, the state it leaves and how it
ends. -/
structure Chunk where
  starts : List Soc
  run : RunState
  ending : ChunkEnd

/-- How a lap of the outer loop ends: with the next lap, with the code after the loop, or in a
`return`. -/
inductive LapEnd where
  | again
  | done
  | returned (value : Bool)
  deriving DecidableEq, Repr

/-- A window as `run` opens it: the state, the flag given to `compute_run_window` and the ticks
it is given. -/
structure OpenWindow where
  soc : Soc
  deadlineSensitive : Bool
  length : Nat

/-- What the specification sees of a run: the states in which guest ticks start, and the windows. -/
structure Trace where
  starts : List Soc
  windows : List OpenWindow

def Trace.append (t t' : Trace) : Trace := ⟨t.starts ++ t'.starts, t.windows ++ t'.windows⟩

structure Lap where
  trace : Trace
  run : RunState
  ending : LapEnd

/-- A lap that executes nothing. -/
def Lap.idle (run : RunState) (ending : LapEnd) : Lap := ⟨⟨[], []⟩, run, ending⟩

def Chunk.toLap (c : Chunk) (window : OpenWindow) : Lap :=
  ⟨⟨c.starts, [window]⟩, c.run,
    match c.ending with | .returned value => .returned value | _ => .again⟩

namespace RunState

/-- What the next poll of the network backend leaves, if there is one. -/
def poll (x : RunState) (inp : Inputs) : Option NetPoll :=
  if x.soc.hostNetwork then some (inp.polls x.polls) else none

def setSoc (x : RunState) (soc : Soc) : RunState := { x with soc := soc }

/-- `sync_devices(true)`. -/
def syncDevices (x : RunState) (inp : Inputs) : RunState :=
  { x with soc := x.soc.syncDevices (x.poll inp), polls := x.polls + 1 }

def maybeSyncDevices (x : RunState) (inp : Inputs) : RunState :=
  { x with soc := x.soc.maybeSyncDevices (x.poll inp), polls := x.polls + 1 }

def fastForward (x : RunState) (inp : Inputs) : Bool × RunState :=
  let r := x.soc.fastForwardToNextGuestEvent (x.poll inp)
  (r.1, { x with soc := r.2, polls := x.polls + 1 })

/-- One call of `Cpu::step`. -/
def stepCpu (x : RunState) (inp : Inputs) (i : Nat) : Bool × RunState :=
  let r := x.soc.stepCpu i (inp.insns x.steps)
  (r.1, { x with soc := r.2, steps := x.steps + 1, remaining := x.remaining - 1 })

/-- One instruction of a window, with its tick. -/
def stepTick (x : RunState) (inp : Inputs) (i : Nat) : Bool × RunState :=
  let r := x.stepCpu inp i
  (r.1, r.2.setSoc (r.2.soc.advanceGuestTime 1 1))

/-! ## Windows -/

/-- The inner loop of the window of the only CPU. -/
def singleChunk (inp : Inputs) : Nat → RunState → Chunk
  | 0, x => ⟨[], x, .full⟩
  | n + 1, x =>
    let r := x.stepTick inp 0
    if !r.1 then
      if (r.2.soc.cpus 0).halted then
        ⟨[x.soc], r.2.setSoc { r.2.soc with stopRequested := true }, .returned true⟩
      else ⟨[x.soc], r.2, .returned false⟩
    else if r.2.soc.stopRequested then ⟨[x.soc], r.2, .returned true⟩
    else if r.2.soc.deviceScheduleDirty then ⟨[x.soc], r.2, .broke⟩
    else
      let rest := singleChunk inp n r.2
      { rest with starts := x.soc :: rest.starts }

/-- The flags that end the window of the only runnable CPU. -/
def flagged (s : Soc) (i : Nat) : Bool :=
  s.deviceScheduleDirty || s.runnableStateDirty || (s.cpus i).waiting

/-- The inner loop of the window of the only runnable CPU. -/
def soleChunk (inp : Inputs) (i : Nat) (waitingIrqPeer : Bool) (gicEpochBefore : Nat) :
    Nat → RunState → Chunk
  | 0, x => ⟨[], x, .full⟩
  | n + 1, x =>
    let r := x.stepTick inp i
    if !r.1 then
      ⟨[x.soc], r.2, if (r.2.soc.cpus i).halted then .broke else .returned false⟩
    else if r.2.soc.stopRequested then ⟨[x.soc], r.2, .returned true⟩
    else if flagged r.2.soc i then ⟨[x.soc], r.2, .broke⟩
    else if waitingIrqPeer && r.2.soc.gic.stateEpoch != gicEpochBefore then ⟨[x.soc], r.2, .broke⟩
    else
      let rest := soleChunk inp i waitingIrqPeer gicEpochBefore n r.2
      { rest with starts := x.soc :: rest.starts }

/-- The loop around the chunks of a window. Each chunk executes at least one instruction, so the
window itself is fuel enough. -/
def windowLoop (chunk : Nat → RunState → Chunk) (done : Soc → Bool) :
    Nat → Nat → RunState → Chunk
  | 0, _, x => ⟨[], x, .full⟩
  | fuel + 1, window, x =>
    if window = 0 ∨ x.remaining = 0 ∨ x.soc.stopRequested = true then ⟨[], x, .full⟩
    else
      let c := chunk window x
      match c.ending with
      | .returned value => { c with ending := .returned value }
      | _ =>
        if done c.run.soc || c.starts.isEmpty then { c with ending := .broke }
        else
          let rest := windowLoop chunk done fuel (window - c.starts.length) c.run
          { rest with starts := c.starts ++ rest.starts }

def singleWindow (inp : Inputs) (window : Nat) (x : RunState) : Chunk :=
  windowLoop (singleChunk inp) (·.deviceScheduleDirty) window window x

def soleWindow (inp : Inputs) (i window : Nat) (x : RunState) : Chunk :=
  let waitingIrqPeer := x.soc.anyOtherCpuWaitingForInterrupt i
  let chunk := fun n (x : RunState) =>
    soleChunk inp i waitingIrqPeer x.soc.gic.stateEpoch n
      (x.setSoc { x.soc with runnableStateDirty := false })
  windowLoop chunk (fun s => flagged s i || (s.cpus i).halted) window window x

/-! ## Rounds -/

structure RoundState where
  run : RunState
  roundActiveCpuCount : Nat
  executedInRound : Nat
  /-- `run` returns false -/
  failed : Bool

/-- One CPU of a round. A `break` shows in its condition, which persists. -/
def roundCpu (inp : Inputs) (fallbackPollWaiters : Bool) (r : RoundState) (i : Nat) : RoundState :=
  if r.failed = true ∨ r.run.remaining = 0 ∨ r.run.soc.stopRequested = true then r
  else if !r.run.soc.active i then r
  else
    let ready := if fallbackPollWaiters then (true, r.run.soc) else r.run.soc.readyToRun i
    if !ready.1 then { r with run := r.run.setSoc ready.2 }
    else
      let stepped := (r.run.setSoc ready.2).stepCpu inp i
      { run := stepped.2
        roundActiveCpuCount := r.roundActiveCpuCount + 1
        executedInRound := r.executedInRound + 1
        failed := !stepped.1 && !(stepped.2.soc.cpus i).halted }

def runRound (inp : Inputs) (fallbackPollWaiters : Bool) (x : RunState) : RoundState :=
  (List.range x.soc.cpuCount).foldl (roundCpu inp fallbackPollWaiters) ⟨x, 0, 0, false⟩

/-- The loop over `round`. -/
def rounds (inp : Inputs) (fallbackPollWaiters : Bool) : Nat → RunState → Chunk
  | 0, x => ⟨[], x, .full⟩
  | n + 1, x =>
    if x.remaining = 0 ∨ x.soc.stopRequested = true then ⟨[], x, .full⟩
    else
      let r := x.runRound inp fallbackPollWaiters
      if r.failed then ⟨[x.soc], r.run, .returned false⟩
      else if r.roundActiveCpuCount = 0 then
        let dispatch := r.run.soc.inspectCpuDispatchState
        let s := dispatch.2
        ⟨[], r.run.setSoc { s with
          stopRequested := s.stopRequested || dispatch.1.allPoweredOnHalted }, .broke⟩
      else
        let x' := r.run.setSoc
          (r.run.soc.advanceGuestTime r.executedInRound r.roundActiveCpuCount)
        if x'.soc.deviceScheduleDirty then ⟨[x.soc], x', .broke⟩
        else
          let rest := rounds inp fallbackPollWaiters n x'
          { rest with starts := x.soc :: rest.starts }

/-! ## The outer loop -/

/-- The windows that the loop for one CPU opens. -/
def openSingleWindow (inp : Inputs) (x : RunState) : Lap :=
  let guestTicks := x.soc.guestTimeTicks
  let needed := x.soc.deadlineDrivenWindowNeeded
  let window := needed.2.computeRunWindow x.remaining 1 needed.1 guestTicks
  (singleWindow inp window.1 (x.setSoc window.2)).toLap ⟨needed.2, needed.1, window.1⟩

/-- A lap of the loop for one CPU. -/
def singleLap (inp : Inputs) (x : RunState) : Lap :=
  let x := x.maybeSyncDevices inp
  let ready := x.soc.readyToRun 0
  let x := x.setSoc ready.2
  if ready.1 then x.openSingleWindow inp
  else
    let forwarded := x.fastForward inp
    if forwarded.1 then .idle forwarded.2 .again
    else
      let x := forwarded.2
      if x.soc.hostNetwork then
        let x := x.syncDevices inp
        let ready := x.soc.readyToRun 0
        let x := x.setSoc ready.2
        if ready.1 then x.openSingleWindow inp else .idle x .again
      else x.openSingleWindow inp

/-- The window of the only runnable CPU. -/
def openSoleWindow (inp : Inputs) (i : Nat) (x : RunState) : Lap :=
  let window := x.soc.computeRunWindow x.remaining 1 true x.soc.guestTimeTicks
  (soleWindow inp i window.1 (x.setSoc window.2)).toLap ⟨x.soc, true, window.1⟩

/-- The rounds over all CPUs. -/
def openRounds (inp : Inputs) (runnableCpus : Nat) (fallbackPollWaiters : Bool) (x : RunState) :
    Lap :=
  let guestTicks := x.soc.guestTimeTicks
  let needed := x.soc.deadlineDrivenWindowNeeded
  let window := needed.2.computeRunWindow x.remaining runnableCpus needed.1 guestTicks
  (rounds inp fallbackPollWaiters window.1 (x.setSoc window.2)).toLap
    ⟨needed.2, needed.1, window.1⟩

/-- `request_stop` when every powered-on CPU is halted, and the end of the loop. -/
def stopIf (halted : Bool) (x : RunState) : Lap :=
  .idle (x.setSoc { x.soc with stopRequested := x.soc.stopRequested || halted }) .done

/-- A lap of the loop for several CPUs in which some CPU is runnable. -/
def runnableLap (inp : Inputs) (dispatch : CpuDispatchState) (runnableCpus : Nat)
    (fallbackPollWaiters : Bool) (x : RunState) : Lap :=
  if runnableCpus = 0 then x.stopIf dispatch.allPoweredOnHalted
  else
    match dispatch.firstRunnableCpu with
    | some i =>
      if !fallbackPollWaiters && runnableCpus == 1 then x.openSoleWindow inp i
      else x.openRounds inp runnableCpus fallbackPollWaiters
    | none => x.openRounds inp runnableCpus fallbackPollWaiters

/-- A lap of the loop for several CPUs. -/
def multiLap (inp : Inputs) (x : RunState) : Lap :=
  let x := x.maybeSyncDevices inp
  let dispatch := x.soc.inspectCpuDispatchState
  let x := x.setSoc dispatch.2
  if dispatch.1.runnableCpuCount ≠ 0 then
    x.runnableLap inp dispatch.1 dispatch.1.runnableCpuCount false
  else if dispatch.1.allPoweredOnHalted then x.stopIf true
  else
    let forwarded := x.fastForward inp
    if forwarded.1 then .idle forwarded.2 .again
    else
      let x := forwarded.2
      if x.soc.hostNetwork then
        let x := x.syncDevices inp
        let waited := x.soc.inspectCpuDispatchState
        let x := x.setSoc waited.2
        if waited.1.runnableCpuCount ≠ 0 then
          x.runnableLap inp dispatch.1 waited.1.runnableCpuCount false
        else if waited.1.allPoweredOnHalted then x.stopIf true
        else if waited.1.activeCpuCount = 0 then x.stopIf false
        else .idle x .again
      else x.runnableLap inp dispatch.1 dispatch.1.activeCpuCount true

def lap (inp : Inputs) (x : RunState) : Lap :=
  if x.soc.cpuCount = 1 then x.singleLap inp else x.multiLap inp

/-- The code after the loop. -/
def finish (inp : Inputs) (x : RunState) : RunState × Bool :=
  let x := x.syncDevices inp
  (x, x.soc.cpuCount == 1 || (List.range x.soc.cpuCount).all (fun i => (x.soc.cpus i).halted) ||
    x.remaining == 0 || x.soc.stopRequested)

/-- `run` from its outer loop on. A fast-forward consumes no budget, so the laps have a fuel of
their own; no result when it does not suffice. -/
def runLoop (inp : Inputs) : Nat → RunState → Trace × Option (RunState × Bool)
  | 0, _ => (⟨[], []⟩, none)
  | fuel + 1, x =>
    if x.remaining = 0 ∨ x.soc.stopRequested = true then (⟨[], []⟩, some (x.finish inp))
    else
      let l := x.lap inp
      match l.ending with
      | .returned value => (l.trace, some (l.run, value))
      | .done => (l.trace, some (l.run.finish inp))
      | .again =>
        let rest := runLoop inp fuel l.run
        (l.trace.append rest.1, rest.2)

end RunState

/-- `run`. -/
def Soc.run (s : Soc) (inp : Inputs) (maxSteps fuel : Nat) : Trace × Option (RunState × Bool) :=
  RunState.runLoop inp fuel ⟨s, 0, 0, maxSteps⟩

end Aarchvm

import Aarchvm.Cpu.Icc
import Aarchvm.Soc.Timer

/-!
# Guest time and the device schedule

The members of `SoC` that `SoC::run` schedules with, in clock mode `GuestStep`.
Guest time is a 48.16 fixed-point number. Of the devices only their interrupt lines
appear; what polling the network backend changes is an input. The display, step
counts and performance counters are left out.
-/
namespace Aarchvm

def kGuestTimeFracBits : Nat := 16
def kGuestTimeFracOne : U64 := 1 <<< kGuestTimeFracBits
def kNoDeadline : U64 := BitVec.ofNat 64 ((2 ^ 64 - 1) / 4)
def kShortDeadlineWindow : U64 := 256

inductive SchedulerMode where
  | legacy | eventDriven
  deriving DecidableEq, Repr

/-- The devices whose interrupt line `sync_devices` copies to the GIC. -/
inductive DeviceLine where
  | uart | kmi | virtioBlk | virtioNet
  deriving DecidableEq, Repr

/-- `kUartIntId`, `kKmiIntId`, `kVirtioBlkIntId` and `kVirtioNetIntId`. -/
def DeviceLine.intid : DeviceLine → Nat
  | .uart => 33
  | .kmi => 34
  | .virtioBlk => 35
  | .virtioNet => 36

/-- `kTimerVirtIntId` and `kTimerPhysIntId`. -/
def ChannelKind.intid : ChannelKind → Nat
  | .cntv => 27
  | .cntp => 30

/-- The level of CPU `cpu`'s timer line. The memory-mapped timer shares the virtual one. -/
def GenericTimer.lineLevel (t : GenericTimer) (k : ChannelKind) (cpu : Nat) : Bool :=
  match k with
  | .cntv => t.mmioIrqPending || t.irqPendingVirtual cpu
  | .cntp => t.irqPendingPhysical cpu

namespace Cpu

/-- `ready_to_run`. -/
def readyToRun (c : Cpu) (g : GicV3) : Bool × Cpu × GicV3 :=
  if c.halted then (false, c, g)
  else if !c.waitingForInterrupt && !c.waitingForEvent then (true, c, g)
  else if c.waitingForInterrupt then
    let pending := g.hasPending c.cpuIndex 0xFF
    (pending.1, c, pending.2)
  else if c.eventRegister then (true, c, g)
  else c.irqWakeupReady g

/-- `waiting`. -/
def waiting (c : Cpu) : Bool := c.waitingForInterrupt || c.waitingForEvent

end Cpu

structure Soc where
  /-- `cpus_`, of length `cpuCount` -/
  cpuCount : Nat
  cpus : Nat → Cpu
  cpuPoweredOn : Nat → Bool
  gic : GicV3
  timer : GenericTimer
  /-- `irq_pending` of each device -/
  deviceIrq : DeviceLine → Bool
  schedulerMode : SchedulerMode
  /-- a network backend is attached: `slirp_net_backend_` is not null -/
  hostNetwork : Bool
  guestTimeFp : U64
  stopRequested : Bool
  deviceSyncValid : Bool
  deviceSyncGuestTicks : U64
  deviceScheduleValid : Bool
  deviceScheduleDirty : Bool
  /-- the guest tick of `next_device_event_` -/
  nextDeviceEvent : Option U64
  lastTimerLevels : ChannelKind → Nat → Bool
  lastDeviceLevels : DeviceLine → Bool
  runnableStateDirty : Bool

/-- What `poll` of the network backend leaves behind: the CPUs after the notifications of what
it wrote to memory, the device's line and the flags that the observers changed. -/
structure NetPoll where
  cpus : Nat → Cpu
  virtioNetIrq : Bool
  invalidates : Bool
  wakesWaiter : Bool

/-- `SoC::CpuDispatchState`; `firstRunnableCpu` is `none` for the largest `size_t`. -/
structure CpuDispatchState where
  anyPoweredOn : Bool
  allPoweredOnHalted : Bool
  firstRunnableCpu : Option Nat
  activeCpuCount : Nat
  runnableCpuCount : Nat
  deriving DecidableEq, Repr

namespace Soc

/-- The constructor followed by `reset`: the CPUs at their entry, and nothing synchronised. -/
def reset (cpuCount : Nat) (allStart : Bool) (entryPc timerTickScale : U64)
    (schedulerMode : SchedulerMode) : Soc where
  cpuCount := max 1 cpuCount
  cpus := fun i => .reset i 0 entryPc
  cpuPoweredOn := fun i => i == 0 || allStart
  gic := .reset cpuCount
  timer := .initial cpuCount timerTickScale
  deviceIrq := fun _ => false
  schedulerMode := schedulerMode
  hostNetwork := false
  guestTimeFp := 0
  stopRequested := false
  deviceSyncValid := false
  deviceSyncGuestTicks := 0
  deviceScheduleValid := false
  deviceScheduleDirty := true
  nextDeviceEvent := none
  lastTimerLevels := fun _ _ => false
  lastDeviceLevels := fun _ => false
  runnableStateDirty := false

/-- `guest_time_ticks`. -/
def guestTimeTicks (s : Soc) : U64 := s.guestTimeFp >>> kGuestTimeFracBits

/-- `advance_guest_time`. -/
def advanceGuestTime (s : Soc) (executedInstructions activeCpuCount : Nat) : Soc :=
  if executedInstructions = 0 ∨ activeCpuCount = 0 then s
  else
    let executed := BitVec.ofNat 64 executedInstructions
    let active := BitVec.ofNat 64 activeCpuCount
    { s with
      guestTimeFp := s.guestTimeFp + executed / active * kGuestTimeFracOne +
        executed % active * kGuestTimeFracOne / active }

/-- `advance_guest_time_to`. -/
def advanceGuestTimeTo (s : Soc) (guestTick : U64) : Soc :=
  if guestTick <<< kGuestTimeFracBits ≤ s.guestTimeFp then s
  else { s with guestTimeFp := guestTick <<< kGuestTimeFracBits }

/-- `invalidate_device_schedule`. -/
def invalidateDeviceSchedule (s : Soc) : Soc :=
  { s with
    deviceSyncValid := false, deviceScheduleValid := false, deviceScheduleDirty := true,
    nextDeviceEvent := none }

/-- The event that `next_device_event` computes when it has none to return. -/
def timerDeadline (s : Soc) (guestTick : U64) : Option U64 :=
  let steps := s.timer.stepsUntilIrq guestTick kNoDeadline
  if steps = kNoDeadline then none else some (guestTick + steps)

/-- `next_device_event`, with the event it keeps. -/
def queryDeviceEvent (s : Soc) (guestTick : U64) : Option U64 × Soc :=
  if s.deviceScheduleValid && !s.deviceScheduleDirty &&
      s.nextDeviceEvent.all (fun e => decide (guestTick ≤ e)) then
    (s.nextDeviceEvent, s)
  else
    (s.timerDeadline guestTick,
      { s with
        deviceScheduleValid := true, deviceScheduleDirty := false,
        nextDeviceEvent := s.timerDeadline guestTick })

/-! ## Synchronisation -/

def setTimerLine (s : Soc) (k : ChannelKind) (cpu : Nat) (level : Bool) : Soc :=
  { s with
    gic := s.gic.setLevelOn cpu k.intid level
    lastTimerLevels := fun k' cpu' =>
      if k' = k ∧ cpu' = cpu then level else s.lastTimerLevels k' cpu' }

def setDeviceLine (s : Soc) (d : DeviceLine) (level : Bool) : Soc :=
  { s with
    gic := s.gic.setLevel d.intid level
    lastDeviceLevels := Function.update s.lastDeviceLevels d level }

/-- One timer line of `sync_devices`. -/
def syncTimerLine (s : Soc) (k : ChannelKind) (cpu : Nat) : Soc :=
  let level := s.timer.lineLevel k cpu
  if !s.deviceSyncValid || level != s.lastTimerLevels k cpu then s.setTimerLine k cpu level else s

/-- One device line of `sync_devices`. -/
def syncDeviceLine (s : Soc) (d : DeviceLine) : Soc :=
  let level := s.deviceIrq d
  if !s.deviceSyncValid || level != s.lastDeviceLevels d then s.setDeviceLine d level else s

/-- All lines, in the order of the source. -/
def syncLines (s : Soc) : Soc :=
  let s := (List.range s.cpuCount).foldl
    (fun s cpu => (s.syncTimerLine .cntv cpu).syncTimerLine .cntp cpu) s
  [DeviceLine.uart, .kmi, .virtioBlk, .virtioNet].foldl syncDeviceLine s

def pollNetwork (s : Soc) : Option NetPoll → Soc
  | none => s
  | some p =>
    { s with
      cpus := p.cpus
      deviceIrq := Function.update s.deviceIrq .virtioNet p.virtioNetIrq
      deviceSyncValid := s.deviceSyncValid && !p.invalidates
      runnableStateDirty := s.runnableStateDirty || p.wakesWaiter }

/-- `sync_devices(true)`; `poll` is `none` without a network backend. -/
def syncDevices (s : Soc) (poll : Option NetPoll) : Soc :=
  let guestTicks := s.guestTimeTicks
  let s := s.pollNetwork poll
  let s := { s with
    timer := s.timer.syncToSteps guestTicks
    deviceSyncGuestTicks := guestTicks }
  { s.syncLines with
    deviceSyncValid := true, deviceScheduleValid := false, deviceScheduleDirty := false,
    nextDeviceEvent := none }

/-- `event_due_now`. -/
def eventDueNow (s : Soc) (guestTicks : U64) : Bool × Soc :=
  if !s.deviceSyncValid || s.deviceScheduleDirty then (true, s)
  else
    let event := s.queryDeviceEvent guestTicks
    (event.1.any (fun e => decide (e ≤ guestTicks)), event.2)

/-- CPU `i` is powered on and not halted. -/
def active (s : Soc) (i : Nat) : Bool := s.cpuPoweredOn i && !(s.cpus i).halted

/-- `deadline_driven_window_needed`. -/
def deadlineDrivenWindowNeeded (s : Soc) : Bool × Soc :=
  if s.schedulerMode = .legacy then (false, s)
  else
    let actives := (List.range s.cpuCount).filter s.active
    if actives.isEmpty then (false, s)
    else if actives.all (fun i => (s.cpus i).waiting) then (true, s)
    else
      let guestTicks := s.guestTimeTicks
      let event := s.queryDeviceEvent guestTicks
      (event.1.any (fun e =>
        decide (e ≤ guestTicks) || decide (e - guestTicks ≤ kShortDeadlineWindow)), event.2)

/-- `maybe_sync_devices`. -/
def maybeSyncDevices (s : Soc) (poll : Option NetPoll) : Soc :=
  if s.schedulerMode = .legacy then s.syncDevices poll
  else
    let needed := s.deadlineDrivenWindowNeeded
    if !needed.1 then needed.2.syncDevices poll
    else
      let s := needed.2
      if !s.deviceSyncValid || s.deviceScheduleDirty then s.syncDevices poll
      else
        let due := s.eventDueNow s.guestTimeTicks
        if due.1 then due.2.syncDevices poll else due.2

/-- `fast_forward_to_next_guest_event` after it has found an event ahead. -/
def forwardTo (s : Soc) (event : U64) (poll : Option NetPoll) : Soc :=
  { s.advanceGuestTimeTo event with deviceSyncValid := false }.syncDevices poll

/-- `fast_forward_to_next_guest_event`. -/
def fastForwardToNextGuestEvent (s : Soc) (poll : Option NetPoll) : Bool × Soc :=
  if s.schedulerMode = .legacy then (false, s)
  else
    let guestTicks := s.guestTimeTicks
    let found := s.queryDeviceEvent guestTicks
    match found.1 with
    | none => (false, found.2)
    | some event =>
      if event ≤ guestTicks then (false, found.2)
      else (true, found.2.forwardTo event poll)

/-! ## Dispatch -/

/-- `cpus_[i]->ready_to_run()`. -/
def readyToRun (s : Soc) (i : Nat) : Bool × Soc :=
  let r := (s.cpus i).readyToRun s.gic
  (r.1, { s with cpus := Function.update s.cpus i r.2.1, gic := r.2.2 })

/-- One round of the loop of `inspect_cpu_dispatch_state`. -/
def inspectCpu (d : CpuDispatchState × Soc) (i : Nat) : CpuDispatchState × Soc :=
  if !d.2.cpuPoweredOn i then d
  else if (d.2.cpus i).halted then ({ d.1 with anyPoweredOn := true }, d.2)
  else
    let ready := d.2.readyToRun i
    ({ anyPoweredOn := true
       allPoweredOnHalted := false
       activeCpuCount := d.1.activeCpuCount + 1
       firstRunnableCpu := if ready.1 then d.1.firstRunnableCpu <|> some i else d.1.firstRunnableCpu
       runnableCpuCount := if ready.1 then d.1.runnableCpuCount + 1 else d.1.runnableCpuCount },
      ready.2)

/-- `inspect_cpu_dispatch_state`. -/
def inspectCpuDispatchState (s : Soc) : CpuDispatchState × Soc :=
  let d := (List.range s.cpuCount).foldl inspectCpu (⟨false, true, none, 0, 0⟩, s)
  ({ d.1 with allPoweredOnHalted := d.1.allPoweredOnHalted && d.1.anyPoweredOn }, d.2)

/-- `any_other_cpu_waiting_for_interrupt`. -/
def anyOtherCpuWaitingForInterrupt (s : Soc) (sourceCpu : Nat) : Bool :=
  (List.range s.cpuCount).any fun i =>
    i != sourceCpu && s.active i && (s.cpus i).waitingForInterrupt

/-- The loop of `run` up to its call of `fast_forward_to_next_guest_event`; `none` when it takes
another way. -/
def idlePoint (s : Soc) (poll : Option NetPoll) : Option Soc :=
  let s := s.maybeSyncDevices poll
  if s.cpuCount = 1 then
    let ready := s.readyToRun 0
    if ready.1 then none else some ready.2
  else
    let dispatch := s.inspectCpuDispatchState
    if dispatch.1.runnableCpuCount ≠ 0 ∨ dispatch.1.allPoweredOnHalted = true then none
    else some dispatch.2

/-- One lap of the loop of `run` that ends in the `continue` after a fast-forward. The two polls
are those of `maybe_sync_devices` and of the fast-forward. -/
def forwardLap (s : Soc) (polls : Option NetPoll × Option NetPoll) : Option Soc :=
  (s.idlePoint polls.1).bind fun s =>
    let forwarded := s.fastForwardToNextGuestEvent polls.2
    if forwarded.1 then some forwarded.2 else none

/-- Laps one after another, none of which consumes budget. -/
def forwardLaps (s : Soc) : List (Option NetPoll × Option NetPoll) → Option Soc
  | [] => some s
  | polls :: rest => (s.forwardLap polls).bind (·.forwardLaps rest)

end Soc
end Aarchvm

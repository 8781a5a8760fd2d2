import Aarchvm.Word

/-!
# The generic timer

`GenericTimer` from `generic_timer.cpp` in clock mode `GuestStep`: one counter
derived from guest ticks, the memory-mapped compare register, and a virtual and a
physical channel for each CPU. The host clock and trace output are left out.
-/
namespace Aarchvm

/-- `std::min`. -/
def minU64 (a b : U64) : U64 := if b < a then b else a

theorem minU64_le_left (a b : U64) : minU64 a b ≤ a := by
  unfold minU64
  split
  · rename_i h
    rw [BitVec.lt_def] at h
    rw [BitVec.le_def]
    omega
  · exact BitVec.le_refl a

theorem minU64_le_right (a b : U64) : minU64 a b ≤ b := by
  unfold minU64
  split
  · exact BitVec.le_refl b
  · rename_i h
    rw [BitVec.lt_def] at h
    rw [BitVec.le_def]
    omega

/-- `GenericTimer::TimerChannel`. -/
structure TimerChannel where
  cval : U64
  enable : Bool
  imask : Bool
  fired : Bool
  irqPending : Bool
  deriving DecidableEq, Repr

def TimerChannel.initial : TimerChannel := ⟨0, false, false, false, false⟩

/-- The two channels of a CPU. -/
inductive ChannelKind where
  | cntv | cntp
  deriving DecidableEq, Repr

/-- `GenericTimer::CpuState`. -/
structure TimerCpuState where
  cntv : TimerChannel
  cntp : TimerChannel
  deriving DecidableEq, Repr

namespace TimerCpuState

def channel (s : TimerCpuState) : ChannelKind → TimerChannel
  | .cntv => s.cntv
  | .cntp => s.cntp

def modify (s : TimerCpuState) (k : ChannelKind) (f : TimerChannel → TimerChannel) :
    TimerCpuState :=
  match k with
  | .cntv => { s with cntv := f s.cntv }
  | .cntp => { s with cntp := f s.cntp }

end TimerCpuState

structure GenericTimer where
  cpuStates : List TimerCpuState
  cpuStates_ne : cpuStates ≠ []
  counter : U64
  stepAnchor : U64
  cyclesPerStep : U64
  compare : U64
  enabled : Bool
  mmioIrqPending : Bool
  fired : Bool
  deriving DecidableEq

namespace TimerChannel

/-- `read_ctl`. -/
def readCtl (ch : TimerChannel) (current : U64) : U64 :=
  (if ch.enable then 1 else 0) ||| (if ch.imask then 2 else 0) |||
    (if ch.enable ∧ ch.cval ≤ current then 4 else 0)

/-- `read_tval`. -/
def readTval (ch : TimerChannel) (current : U64) : U64 :=
  ((ch.cval - current).setWidth 32).setWidth 64

def writeCtl (ch : TimerChannel) (value : U64) : TimerChannel :=
  { ch with enable := value.getLsbD 0, imask := value.getLsbD 1 }

def writeCval (ch : TimerChannel) (value : U64) : TimerChannel := { ch with cval := value }

/-- `write_tval`: the low word of the value, sign extended. -/
def writeTval (ch : TimerChannel) (current value : U64) : TimerChannel :=
  { ch with cval := current + (value.setWidth 32).signExtend 64 }

/-- The level that `update_channel_irq` gives the channel. -/
def level (ch : TimerChannel) (current : U64) : Bool :=
  ch.enable && !ch.imask && decide (ch.cval ≤ current)

/-- `update_channel_irq`. -/
def updateIrq (ch : TimerChannel) (current : U64) : TimerChannel :=
  { ch with irqPending := ch.level current }

/-- `steps_until_channel_irq`. -/
def stepsUntilIrq (ch : TimerChannel) (current cyclesPerStep maxSteps : U64) : U64 :=
  if !ch.enable || ch.imask || maxSteps == 0 then maxSteps
  else if ch.cval ≤ current then 0
  else if cyclesPerStep = 0 then maxSteps
  else minU64 maxSteps ((ch.cval - current + cyclesPerStep - 1) / cyclesPerStep)

end TimerChannel

namespace GenericTimer

/-- The constructor followed by `set_cpu_count` and `set_cycles_per_step`. -/
def initial (cpuCount : Nat) (cyclesPerStep : U64) : GenericTimer where
  cpuStates := List.replicate (max 1 cpuCount) ⟨.initial, .initial⟩
  cpuStates_ne := by
    intro h
    have hl := congrArg List.length h
    rw [List.length_replicate, List.length_nil] at hl
    omega
  counter := 0
  stepAnchor := 0
  cyclesPerStep := cyclesPerStep
  compare := 0
  enabled := false
  mmioIrqPending := false
  fired := false

/-- The index `cpu_state` clamps to. -/
def stateIdx (t : GenericTimer) (cpuIndex : Nat) : Fin t.cpuStates.length :=
  ⟨min cpuIndex (t.cpuStates.length - 1), by
    have h := List.length_pos_iff.2 t.cpuStates_ne
    omega⟩

/-- `cpu_state`. -/
def cpuState (t : GenericTimer) (cpuIndex : Nat) : TimerCpuState :=
  t.cpuStates.get (t.stateIdx cpuIndex)

/-- The same function on each CPU's channels. -/
def mapStates (t : GenericTimer) (f : TimerCpuState → TimerCpuState) : GenericTimer :=
  { t with
    cpuStates := t.cpuStates.map f
    cpuStates_ne := fun h => t.cpuStates_ne (List.map_eq_nil_iff.1 h) }

def modifyChannel (t : GenericTimer) (cpuIndex : Nat) (k : ChannelKind)
    (f : TimerChannel → TimerChannel) : GenericTimer :=
  { t with
    cpuStates := t.cpuStates.modify (t.stateIdx cpuIndex) (·.modify k f)
    cpuStates_ne := fun h => by
      have hl := congrArg List.length h
      rw [List.length_modify] at hl
      exact t.cpuStates_ne (List.length_eq_zero_iff.1 hl) }

/-- `counter_at_steps`. -/
def counterAtSteps (t : GenericTimer) (steps : U64) : U64 :=
  t.counter + (steps - t.stepAnchor) * t.cyclesPerStep

/-- The memory-mapped part of `update_irq_state`. -/
def updateMmioIrq (t : GenericTimer) : GenericTimer :=
  if t.enabled && !t.mmioIrqPending && !t.fired && decide (t.compare ≤ t.counter) then
    { t with mmioIrqPending := true, fired := true }
  else t

/-- `update_irq_state`. -/
def updateIrqState (t : GenericTimer) : GenericTimer :=
  t.updateMmioIrq.mapStates fun s => ⟨s.cntv.updateIrq t.counter, s.cntp.updateIrq t.counter⟩

/-- `sync_to_steps`. -/
def syncToSteps (t : GenericTimer) (steps : U64) : GenericTimer :=
  updateIrqState { t with counter := t.counterAtSteps steps, stepAnchor := steps }

/-- `steps_until_irq` of the memory-mapped compare register. -/
def stepsUntilMmioIrq (t : GenericTimer) (current maxSteps : U64) : U64 :=
  if t.enabled && !t.fired then
    if t.compare ≤ current then 0
    else if t.cyclesPerStep = 0 then maxSteps
    else minU64 maxSteps ((t.compare - current + t.cyclesPerStep - 1) / t.cyclesPerStep)
  else maxSteps

/-- `steps_until_irq(cpu_index, steps, max_steps)`. -/
def stepsUntilIrqOn (t : GenericTimer) (cpuIndex : Nat) (steps maxSteps : U64) : U64 :=
  if maxSteps = 0 then 0
  else
    let state := t.cpuState cpuIndex
    if t.mmioIrqPending || state.cntv.irqPending || state.cntp.irqPending then 0
    else
      let current := t.counterAtSteps steps
      let best := t.stepsUntilMmioIrq current maxSteps
      let best := minU64 best (state.cntv.stepsUntilIrq current t.cyclesPerStep best)
      minU64 best (state.cntp.stepsUntilIrq current t.cyclesPerStep best)

/-- The loop of `steps_until_irq` over the CPUs still to be looked at. -/
def stepsUntilIrqFrom (t : GenericTimer) (steps : U64) : List Nat → U64 → U64
  | [], best => best
  | cpu :: cpus, best =>
    let best := minU64 best (t.stepsUntilIrqOn cpu steps best)
    if best = 0 then best else t.stepsUntilIrqFrom steps cpus best

/-- `steps_until_irq(steps, max_steps)`. -/
def stepsUntilIrq (t : GenericTimer) (steps maxSteps : U64) : U64 :=
  t.stepsUntilIrqFrom steps (List.range t.cpuStates.length) maxSteps

/-- `irq_pending_virtual`. -/
def irqPendingVirtual (t : GenericTimer) (cpuIndex : Nat) : Bool :=
  (t.cpuState cpuIndex).cntv.irqPending

/-- `irq_pending_physical`. -/
def irqPendingPhysical (t : GenericTimer) (cpuIndex : Nat) : Bool :=
  (t.cpuState cpuIndex).cntp.irqPending

/-! ## Registers

A write leaves the notification of `state_change_observer_` to the caller. -/

/-- `read`. -/
def read (t : GenericTimer) (offset size : Nat) : U64 :=
  if size ≠ 8 ∧ size ≠ 4 then 0
  else if offset = 0x00 then t.counterAtSteps t.stepAnchor
  else if offset = 0x08 then t.compare
  else if offset = 0x10 then
    (if t.enabled then 1 else 0) ||| (if t.mmioIrqPending then 2 else 0)
  else 0

/-- `write`; `none` when nothing is written and nobody is notified. -/
def write (t : GenericTimer) (offset : Nat) (value : U64) (size : Nat) : Option GenericTimer :=
  if size ≠ 8 ∧ size ≠ 4 then none
  else if offset = 0x08 then
    some (updateIrqState { t with compare := value, mmioIrqPending := false, fired := false })
  else if offset = 0x10 then
    let enabled := value.getLsbD 0
    let t :=
      { t with enabled, mmioIrqPending := t.mmioIrqPending && enabled, fired := t.fired && enabled }
    some (updateIrqState { t with mmioIrqPending := t.mmioIrqPending && !value.getLsbD 1 })
  else none

def readChannelCtl (k : ChannelKind) (t : GenericTimer) (cpuIndex : Nat) (steps : U64) : U64 :=
  ((t.cpuState cpuIndex).channel k).readCtl (t.counterAtSteps steps)

def readChannelCval (k : ChannelKind) (t : GenericTimer) (cpuIndex : Nat) : U64 :=
  ((t.cpuState cpuIndex).channel k).cval

def readChannelTval (k : ChannelKind) (t : GenericTimer) (cpuIndex : Nat) (steps : U64) : U64 :=
  ((t.cpuState cpuIndex).channel k).readTval (t.counterAtSteps steps)

/-- A register write: synchronise, change the channel, update the levels. -/
def writeChannel (k : ChannelKind) (f : TimerChannel → U64 → TimerChannel) (t : GenericTimer)
    (cpuIndex : Nat) (steps : U64) : GenericTimer :=
  let t := t.syncToSteps steps
  (t.modifyChannel cpuIndex k (f · t.counter)).updateIrqState

def readCntvCtlEl0 := readChannelCtl .cntv
def readCntvCvalEl0 := readChannelCval .cntv
def readCntvTvalEl0 := readChannelTval .cntv
def readCntpCtlEl0 := readChannelCtl .cntp
def readCntpCvalEl0 := readChannelCval .cntp
def readCntpTvalEl0 := readChannelTval .cntp

def writeCntvCtlEl0 (t : GenericTimer) (cpuIndex : Nat) (steps value : U64) : GenericTimer :=
  t.writeChannel .cntv (fun ch _ => ch.writeCtl value) cpuIndex steps

def writeCntvCvalEl0 (t : GenericTimer) (cpuIndex : Nat) (steps value : U64) : GenericTimer :=
  t.writeChannel .cntv (fun ch _ => ch.writeCval value) cpuIndex steps

def writeCntvTvalEl0 (t : GenericTimer) (cpuIndex : Nat) (steps value : U64) : GenericTimer :=
  t.writeChannel .cntv (fun ch current => ch.writeTval current value) cpuIndex steps

def writeCntpCtlEl0 (t : GenericTimer) (cpuIndex : Nat) (steps value : U64) : GenericTimer :=
  t.writeChannel .cntp (fun ch _ => ch.writeCtl value) cpuIndex steps

def writeCntpCvalEl0 (t : GenericTimer) (cpuIndex : Nat) (steps value : U64) : GenericTimer :=
  t.writeChannel .cntp (fun ch _ => ch.writeCval value) cpuIndex steps

def writeCntpTvalEl0 (t : GenericTimer) (cpuIndex : Nat) (steps value : U64) : GenericTimer :=
  t.writeChannel .cntp (fun ch current => ch.writeTval current value) cpuIndex steps

end GenericTimer
end Aarchvm

import Aarchvm.Soc.Lines

/-!
# Device levels in the GIC

`sync_devices` with the display, whose `present` pumps the events of the window and
injects keys into the keyboard interface. Over every interleaving of what guests,
devices, input, snapshots and the scheduler do, every synchronisation leaves each line
as its device reports it when the lines are copied; a key that comes in with the
display changes the keyboard's level after that.
-/
namespace Aarchvm

open Lib.Run

/-- `Pl050Kmi`, as far as injected bytes and its interrupt go. -/
structure Pl050Kmi where
  rxFifo : List U8
  cr : U8
  scanningEnabled : Bool

namespace Pl050Kmi

def kCrRxIntrEn : U8 := 0x10
def kCrEn : U8 := 0x04
def kMaxRxFifo : Nat := 1024

def irqPending (k : Pl050Kmi) : Bool :=
  k.cr &&& (kCrEn ||| kCrRxIntrEn) == kCrEn ||| kCrRxIntrEn && !k.rxFifo.isEmpty

/-- `update_irq_state`, without the call of the observer. -/
def updateIrqState (k : Pl050Kmi) : Pl050Kmi :=
  if k.cr &&& kCrEn = 0 then { k with rxFifo := [] } else k

def injectRx (k : Pl050Kmi) (byte : U8) : Pl050Kmi :=
  if !k.scanningEnabled then k
  else
    updateIrqState
      (if k.rxFifo.length < kMaxRxFifo then { k with rxFifo := k.rxFifo ++ [byte] } else k)

end Pl050Kmi

/-- What `present` of the display leaves behind when keys came in. Of the keys it holds only the
keyboard's level after all of them: that level alone is copied to the GIC. -/
structure Present where
  kmiIrq : Bool

/-- `keyboard_sink` for the bytes of the keys. -/
def Present.ofKeys (kmi : Pl050Kmi) (bytes : List U8) : Present :=
  ⟨(bytes.foldl Pl050Kmi.injectRx kmi).irqPending⟩

namespace Soc

/-- `framebuffer_sdl_->present`; `none` when no key came in. Each key is an `inject_ps2_rx`. -/
def present (s : Soc) : Option Present → Soc
  | none => s
  | some p =>
    { s with deviceIrq := Function.update s.deviceIrq .kmi p.kmiIrq }.invalidateDeviceSchedule

/-- `sync_devices(true)` with the display. -/
def syncDevicesShown (s : Soc) (poll : Option NetPoll) (shown : Option Present) : Soc :=
  let guestTicks := s.guestTimeTicks
  let s := s.pollNetwork poll
  let s := { s with
    timer := s.timer.syncToSteps guestTicks
    deviceSyncGuestTicks := guestTicks }
  { s.syncLines.present shown with
    deviceSyncValid := true, deviceScheduleValid := false, deviceScheduleDirty := false,
    nextDeviceEvent := none }

/-- `reset_perf_measurement_state`. -/
def resetPerfMeasurementState (s : Soc) : Soc :=
  { s with
    stopRequested := false, deviceSyncValid := false, deviceSyncGuestTicks := 0,
    deviceScheduleValid := false, deviceScheduleDirty := true, nextDeviceEvent := none,
    lastTimerLevels := fun _ _ => false, lastDeviceLevels := fun _ => false,
    runnableStateDirty := false }

/-- `inject_uart_rx`, after which the UART reports `uartIrq`. -/
def injectUartRx (s : Soc) (uartIrq : Bool) : Soc :=
  { s with
    deviceIrq := Function.update s.deviceIrq .uart uartIrq
    gic := if uartIrq then s.gic.setPending DeviceLine.uart.intid else s.gic
    }.invalidateDeviceSchedule

/-- `inject_ps2_rx`, after which the keyboard interface reports `kmiIrq`. -/
def injectPs2Rx (s : Soc) (kmiIrq : Bool) : Soc :=
  { s with deviceIrq := Function.update s.deviceIrq .kmi kmiIrq }.invalidateDeviceSchedule

end Soc

/-- The parts of a machine that a snapshot holds, for the same number of CPUs. -/
structure Contents where
  cpus : Nat → Cpu
  cpuPoweredOn : Nat → Bool
  gic : GicV3
  timer : GenericTimer
  deviceIrq : DeviceLine → Bool
  hostNetwork : Bool
  guestTimeFp : U64

/-- What happens to the machine. -/
inductive SocOp where
  /-- an effect of an instruction of CPU `i`: MMIO accesses, timer register writes, queue
  notifications -/
  | effect (i : Nat) (e : StepEffect)
  | injectUartRx (uartIrq : Bool)
  | injectPs2Rx (kmiIrq : Bool)
  | loadSnapshot (contents : Contents)
  | resetPerfMeasurementState
  | advanceGuestTime (executedInstructions activeCpuCount : Nat)
  /-- a fast-forward up to its call of `sync_devices` -/
  | forwardTo (event : U64)
  | queryDeviceEvent (guestTick : U64)
  | readyToRun (i : Nat)
  | syncDevices (poll : Option NetPoll) (shown : Option Present)

namespace Soc

/-- One thing that happens. A snapshot of another number of CPUs is not loaded. -/
def socStep (s : Soc) : SocOp → Soc
  | .effect i e => perform i s e
  | .injectUartRx uartIrq => s.injectUartRx uartIrq
  | .injectPs2Rx kmiIrq => s.injectPs2Rx kmiIrq
  | .loadSnapshot c =>
    if c.gic.cpuCount = s.cpuCount then
      { s with
        cpus := c.cpus, cpuPoweredOn := c.cpuPoweredOn, gic := c.gic, timer := c.timer,
        deviceIrq := c.deviceIrq, hostNetwork := c.hostNetwork,
        guestTimeFp := c.guestTimeFp }.resetPerfMeasurementState
    else s
  | .resetPerfMeasurementState => s.resetPerfMeasurementState
  | .advanceGuestTime executed active => s.advanceGuestTime executed active
  | .forwardTo event => { s.advanceGuestTimeTo event with deviceSyncValid := false }
  | .queryDeviceEvent guestTick => (s.queryDeviceEvent guestTick).2
  | .readyToRun i => (s.readyToRun i).2
  | .syncDevices poll shown => s.syncDevicesShown poll shown

/-- The line of a device that the GIC sees. -/
def deviceVisible (s : Soc) (d : DeviceLine) : Bool := s.gic.bit .lineLevel .shared d.intid

/-- Where the SoC relies on its record of the lines, the record is what the GIC sees. -/
structure Mirrored (s : Soc) : Prop where
  gicCpus : s.gic.cpuCount = s.cpuCount
  timers : s.LinesRecorded
  devices : s.deviceSyncValid = true → ∀ d, s.lastDeviceLevels d = s.deviceVisible d

/-! ## Everything but synchronisation -/

/-- The lines and their record are as before, or the record is not relied on. -/
structure KeepsRecord (s s' : Soc) : Prop where
  cpuCount : s'.cpuCount = s.cpuCount
  gicCpus : s'.gic.cpuCount = s.gic.cpuCount
  record : s'.deviceSyncValid = false ∨
    (s'.deviceSyncValid = s.deviceSyncValid ∧ s'.lastTimerLevels = s.lastTimerLevels ∧
      s'.lastDeviceLevels = s.lastDeviceLevels ∧
      ∀ b i, s'.gic.bit .lineLevel b i = s.gic.bit .lineLevel b i)

theorem KeepsRecord.refl (s : Soc) : KeepsRecord s s :=
  ⟨rfl, rfl, .inr ⟨rfl, rfl, rfl, fun _ _ => rfl⟩⟩

theorem KeepsRecord.mirrored {s s' : Soc} (h : KeepsRecord s s') (hm : s.Mirrored) :
    s'.Mirrored := by
  refine ⟨h.gicCpus.trans (hm.gicCpus.trans h.cpuCount.symm), ?_, ?_⟩
  · intro hv k cpu hc
    obtain hf | ⟨hsync, hlast, -, hbits⟩ := h.record
    · rw [hf] at hv
      cases hv
    · rw [hlast, lineVisible_of_gic h.gicCpus hbits]
      exact hm.timers (hsync ▸ hv) k cpu (h.cpuCount ▸ hc)
  · intro hv d
    obtain hf | ⟨hsync, -, hlast, hbits⟩ := h.record
    · rw [hf] at hv
      cases hv
    · rw [hlast, deviceVisible, hbits]
      exact hm.devices (hsync ▸ hv) d

theorem keepsRecord_perform (i : Nat) (s : Soc) (e : StepEffect) :
    KeepsRecord s (perform i s e) := by
  have hboard := (kept_perform i s e).board
  refine ⟨hboard.cpuCount, hboard.gicCpus, ?_⟩
  cases e with
  | gic op hop => exact .inr ⟨rfl, rfl, rfl, s.gic.step_lineLevel hop⟩
  | cpuOn target entry context =>
    unfold perform
    dsimp only
    split
    · exact .inr ⟨rfl, rfl, rfl, fun _ _ => rfl⟩
    · exact .inr ⟨rfl, rfl, rfl, fun _ _ => rfl⟩
  | timerRegister k r value => exact .inl rfl
  | timerWrite offset value size =>
    unfold perform
    dsimp only
    split
    · exact .inr ⟨rfl, rfl, rfl, fun _ _ => rfl⟩
    · exact .inl rfl
  | devices deviceIrq notifies =>
    unfold perform
    dsimp only
    split
    · exact .inl rfl
    · exact .inr ⟨rfl, rfl, rfl, fun _ _ => rfl⟩
  | own after | sev | memoryWrite w | dma w | tlbi tlbs | stop =>
    exact .inr ⟨rfl, rfl, rfl, fun _ _ => rfl⟩

theorem keepsRecord_advanceGuestTime (s : Soc) (executed active : Nat) :
    KeepsRecord s (s.advanceGuestTime executed active) := by
  unfold advanceGuestTime
  split
  · exact .refl s
  · exact ⟨rfl, rfl, .inr ⟨rfl, rfl, rfl, fun _ _ => rfl⟩⟩

theorem keepsRecord_queryDeviceEvent (s : Soc) (guestTick : U64) :
    KeepsRecord s (s.queryDeviceEvent guestTick).2 := by
  unfold queryDeviceEvent
  split
  · exact .refl s
  · exact ⟨rfl, rfl, .inr ⟨rfl, rfl, rfl, fun _ _ => rfl⟩⟩

theorem keepsRecord_readyToRun (s : Soc) (i : Nat) : KeepsRecord s (s.readyToRun i).2 := by
  refine ⟨rfl, (silent_readyToRun s i).board.gicCpus, .inr ⟨rfl, rfl, rfl, fun b j => ?_⟩⟩
  obtain h | ⟨cpu, pmr, h⟩ := readyToRun_gic (s.cpus i) s.gic
  · exact congrArg (fun g : GicV3 => g.bit .lineLevel b j) h
  · refine (congrArg (fun g : GicV3 => g.bit .lineLevel b j) h).trans ?_
    exact @GicV3.step_lineLevel s.gic (.hasPending cpu pmr) rfl b j

/-! ## Synchronisation -/

/-- What a timer line leaves of the other devices. -/
structure SameDevices (s s' : Soc) : Prop where
  deviceIrq : s'.deviceIrq = s.deviceIrq
  syncValid : s'.deviceSyncValid = s.deviceSyncValid
  lastDeviceLevels : s'.lastDeviceLevels = s.lastDeviceLevels
  deviceVisible : ∀ d, s'.deviceVisible d = s.deviceVisible d

theorem SameDevices.refl (s : Soc) : SameDevices s s := ⟨rfl, rfl, rfl, fun _ => rfl⟩

theorem SameDevices.trans {a b c : Soc} (h : SameDevices a b) (h' : SameDevices b c) :
    SameDevices a c :=
  ⟨h'.1.trans h.1, h'.2.trans h.2, h'.3.trans h.3, fun d => (h'.4 d).trans (h.4 d)⟩

theorem syncTimerLine_sameDevices (s : Soc) (k : ChannelKind) (cpu : Nat) :
    SameDevices s (s.syncTimerLine k cpu) := by
  unfold syncTimerLine
  dsimp only
  split
  · refine ⟨rfl, rfl, rfl, fun d => ?_⟩
    have hne : d.intid ≠ k.intid := by cases k <;> cases d <;> decide
    unfold deviceVisible setTimerLine
    dsimp only
    rw [GicV3.setLevelOn_lineLevel, if_neg fun h => hne h.2.1]
  · exact .refl s

theorem syncCpus_sameDevices (cpus : List Nat) (s : Soc) :
    SameDevices s
      (cpus.foldl (fun s cpu => (s.syncTimerLine .cntv cpu).syncTimerLine .cntp cpu) s) := by
  induction cpus generalizing s with
  | nil => exact .refl s
  | cons cpu cpus ih =>
    exact ((syncTimerLine_sameDevices s .cntv cpu).trans
      (syncTimerLine_sameDevices _ .cntp cpu)).trans (ih _)

theorem setDeviceLine_visible (s : Soc) (d : DeviceLine) (level : Bool) (d' : DeviceLine) :
    (s.setDeviceLine d level).deviceVisible d' = if d' = d then level else s.deviceVisible d' := by
  have hbank : s.gic.bankOf 0 d.intid = .shared := by cases d <;> rfl
  have hlt : d.intid < kNumIntIds := by cases d <;> decide
  have hid : d'.intid = d.intid ↔ d' = d := by cases d <;> cases d' <;> decide
  unfold deviceVisible setDeviceLine GicV3.setLevel
  dsimp only
  rw [GicV3.setLevelOn_lineLevel]
  simp only [hbank, hlt, hid, true_and, and_true]

/-- The lines of the devices in `done` are up to date; the record is right where it is relied on. -/
structure DevicesSet (s₀ s : Soc) (done : List DeviceLine) : Prop where
  deviceIrq : s.deviceIrq = s₀.deviceIrq
  recorded : s.deviceSyncValid = true → ∀ d, s.lastDeviceLevels d = s.deviceVisible d
  set : ∀ d ∈ done, s.deviceVisible d = s₀.deviceIrq d ∧ s.lastDeviceLevels d = s₀.deviceIrq d

theorem syncDeviceLine_set {s₀ s : Soc} {done : List DeviceLine} (h : DevicesSet s₀ s done)
    (d : DeviceLine) : DevicesSet s₀ (s.syncDeviceLine d) (d :: done) := by
  unfold syncDeviceLine
  dsimp only
  by_cases hset : (!s.deviceSyncValid || s.deviceIrq d != s.lastDeviceLevels d) = true
  · rw [if_pos hset]
    have hlast : ∀ d', (s.setDeviceLine d (s.deviceIrq d)).lastDeviceLevels d' =
        if d' = d then s.deviceIrq d else s.lastDeviceLevels d' := by
      intro d'
      simp only [setDeviceLine, Function.update_apply]
    refine ⟨h.deviceIrq, fun hv d' => ?_, fun d' hd' => ?_⟩
    · rw [hlast, setDeviceLine_visible, h.recorded hv d']
    · rw [hlast, setDeviceLine_visible, h.deviceIrq]
      by_cases he : d' = d
      · rw [if_pos he, if_pos he, he]
        exact ⟨rfl, rfl⟩
      · rw [if_neg he, if_neg he]
        exact h.set d' ((List.mem_cons.1 hd').resolve_left he)
  · rw [if_neg hset]
    rw [Bool.or_eq_true, not_or, Bool.not_eq_true, Bool.not_eq_false', Bool.not_eq_true,
      bne_eq_false_iff_eq] at hset
    refine ⟨h.deviceIrq, h.recorded, fun d' hd' => ?_⟩
    obtain rfl | hd' := List.mem_cons.1 hd'
    · have hrec := h.recorded hset.1 d'
      rw [h.deviceIrq] at hset
      exact ⟨hrec.symm.trans hset.2.symm, hset.2.symm⟩
    · exact h.set d' hd'

/-- `sync_devices` shows the GIC every device line as the device reports it, and records it. -/
theorem syncDevices_devices {s : Soc} (hm : s.Mirrored) (poll : Option NetPoll) (d : DeviceLine) :
    (s.syncDevices poll).deviceVisible d = (s.syncDevices poll).deviceIrq d ∧
      (s.syncDevices poll).lastDeviceLevels d = (s.syncDevices poll).deviceVisible d ∧
      (s.syncDevices poll).deviceIrq = (s.pollNetwork poll).deviceIrq := by
  have hpoll : (s.pollNetwork poll).deviceSyncValid = true →
      ∀ d, (s.pollNetwork poll).lastDeviceLevels d = (s.pollNetwork poll).deviceVisible d := by
    cases poll with
    | none => exact hm.devices
    | some p => exact fun hv => hm.devices (Bool.and_eq_true _ _ ▸ hv).1
  generalize hs₀ : { s.pollNetwork poll with
    timer := (s.pollNetwork poll).timer.syncToSteps s.guestTimeTicks
    deviceSyncGuestTicks := s.guestTimeTicks } = s₀
  have hirq : s₀.deviceIrq = (s.pollNetwork poll).deviceIrq := by rw [← hs₀]
  have hrec : s₀.deviceSyncValid = true → ∀ d, s₀.lastDeviceLevels d = s₀.deviceVisible d := by
    rw [← hs₀]
    exact hpoll
  have hsync : s.syncDevices poll = { s₀.syncLines with
      deviceSyncValid := true, deviceScheduleValid := false, deviceScheduleDirty := false,
      nextDeviceEvent := none } := by
    rw [← hs₀]
    rfl
  have htimers := syncCpus_sameDevices (List.range s₀.cpuCount) s₀
  have hstart : DevicesSet s₀ _ [] :=
    ⟨htimers.deviceIrq, fun hv d => by
      rw [htimers.lastDeviceLevels, htimers.deviceVisible]
      exact hrec (htimers.syncValid ▸ hv) d, fun d hd => absurd hd List.not_mem_nil⟩
  have hset := syncDeviceLine_set (syncDeviceLine_set (syncDeviceLine_set (syncDeviceLine_set hstart
    .uart) .kmi) .virtioBlk) .virtioNet
  have hmem : d ∈ [DeviceLine.virtioNet, .virtioBlk, .kmi, .uart] := by cases d <;> decide
  obtain ⟨hvis, hlast⟩ := hset.set d hmem
  have hirq' : (s.syncDevices poll).deviceIrq = s₀.deviceIrq := by
    rw [hsync]
    exact hset.deviceIrq
  refine ⟨?_, ?_, hirq'.trans hirq⟩
  · rw [hirq', hsync]
    exact hvis
  · rw [hsync]
    exact hlast.trans hvis.symm

/-- The display changes what the keyboard reports, and the synchronisation it is part of undoes the
invalidation. -/
theorem syncDevicesShown_eq (s : Soc) (poll : Option NetPoll) (shown : Option Present) :
    s.syncDevicesShown poll shown =
      { s.syncDevices poll with
        deviceIrq :=
          match shown with
          | none => (s.syncDevices poll).deviceIrq
          | some p => Function.update (s.syncDevices poll).deviceIrq .kmi p.kmiIrq } := by
  cases shown <;> rfl

theorem Mirrored.syncDevicesShown {s : Soc} (hm : s.Mirrored) (poll : Option NetPoll)
    (shown : Option Present) : (s.syncDevicesShown poll shown).Mirrored := by
  obtain ⟨hboard, -, hlines⟩ := syncDevices_lines hm.gicCpus hm.timers poll
  rw [syncDevicesShown_eq]
  refine ⟨hboard.gicCpus.trans (hm.gicCpus.trans hboard.cpuCount.symm), fun _ k cpu hc => ?_,
    fun _ d => (syncDevices_devices hm poll d).2.1⟩
  obtain ⟨hvis, hlast⟩ := hlines k cpu (hboard.cpuCount ▸ hc)
  exact hlast.trans hvis.symm

/-! ## Runs -/

theorem keepsRecord_injectUartRx (s : Soc) (uartIrq : Bool) :
    KeepsRecord s (s.injectUartRx uartIrq) := by
  refine ⟨rfl, ?_, .inl rfl⟩
  cases uartIrq with
  | false => rfl
  | true => exact s.gic.step_cpuCount (.setPendingOn 0 DeviceLine.uart.intid)

theorem keepsRecord_forwardTo (s : Soc) (event : U64) :
    KeepsRecord s { s.advanceGuestTimeTo event with deviceSyncValid := false } := by
  unfold advanceGuestTimeTo
  split <;> exact ⟨rfl, rfl, .inl rfl⟩

theorem Mirrored.loadSnapshot {s : Soc} (hm : s.Mirrored) (c : Contents) :
    (s.socStep (.loadSnapshot c)).Mirrored := by
  unfold Soc.socStep
  dsimp only
  split
  next h => exact ⟨h, nofun, nofun⟩
  next => exact hm

theorem Mirrored.socStep {s : Soc} (hm : s.Mirrored) (op : SocOp) : (s.socStep op).Mirrored := by
  cases op with
  | effect i e => exact (keepsRecord_perform i s e).mirrored hm
  | injectUartRx uartIrq => exact (keepsRecord_injectUartRx s uartIrq).mirrored hm
  | injectPs2Rx kmiIrq =>
    exact @KeepsRecord.mirrored s (s.injectPs2Rx kmiIrq) ⟨rfl, rfl, .inl rfl⟩ hm
  | loadSnapshot c => exact hm.loadSnapshot c
  | resetPerfMeasurementState =>
    exact @KeepsRecord.mirrored s s.resetPerfMeasurementState ⟨rfl, rfl, .inl rfl⟩ hm
  | advanceGuestTime executed active =>
    exact (keepsRecord_advanceGuestTime s executed active).mirrored hm
  | forwardTo event => exact (keepsRecord_forwardTo s event).mirrored hm
  | queryDeviceEvent guestTick => exact (keepsRecord_queryDeviceEvent s guestTick).mirrored hm
  | readyToRun i => exact (keepsRecord_readyToRun s i).mirrored hm
  | syncDevices poll shown => exact hm.syncDevicesShown poll shown

theorem reset_mirrored (cpuCount : Nat) (allStart : Bool) (entryPc timerTickScale : U64)
    (schedulerMode : SchedulerMode) (hostNetwork : Bool) :
    ({ reset cpuCount allStart entryPc timerTickScale schedulerMode with
      hostNetwork := hostNetwork } : Soc).Mirrored :=
  ⟨rfl, nofun, nofun⟩

/-- What the scheduler does with the devices between windows is such operations. -/
theorem maybeSyncDevices_is_run (s : Soc) (poll : Option NetPoll) :
    ∃ ops, s.maybeSyncDevices poll = Lib.Run.run socStep s ops := by
  have hneeded : ∃ ops, s.deadlineDrivenWindowNeeded.2 = Lib.Run.run socStep s ops := by
    unfold deadlineDrivenWindowNeeded
    split
    · exact ⟨[], rfl⟩
    · dsimp only
      split
      · exact ⟨[], rfl⟩
      · split
        · exact ⟨[], rfl⟩
        · exact ⟨[.queryDeviceEvent s.guestTimeTicks], rfl⟩
  obtain ⟨ops, hops⟩ := hneeded
  have hthen : ∀ more, ∃ ops', Lib.Run.run socStep s.deadlineDrivenWindowNeeded.2 more =
      Lib.Run.run socStep s ops' := by
    intro more
    exact ⟨ops ++ more, by rw [run_append, ← hops]⟩
  unfold maybeSyncDevices
  split
  · exact ⟨[.syncDevices poll none], rfl⟩
  · dsimp only
    split
    · exact hthen [.syncDevices poll none]
    · split
      · exact hthen [.syncDevices poll none]
      · have hdue : ∃ more, (s.deadlineDrivenWindowNeeded.2.eventDueNow
            s.deadlineDrivenWindowNeeded.2.guestTimeTicks).2 =
            Lib.Run.run socStep s.deadlineDrivenWindowNeeded.2 more := by
          unfold eventDueNow
          split
          · exact ⟨[], rfl⟩
          · exact ⟨[.queryDeviceEvent _], rfl⟩
        obtain ⟨more, hmore⟩ := hdue
        rw [hmore]
        split
        · have h := hthen (more ++ [.syncDevices poll none])
          rwa [run_append] at h
        · exact hthen more

theorem fastForwardToNextGuestEvent_is_run (s : Soc) (poll : Option NetPoll) :
    ∃ ops, (s.fastForwardToNextGuestEvent poll).2 = Lib.Run.run socStep s ops := by
  unfold fastForwardToNextGuestEvent
  split
  · exact ⟨[], rfl⟩
  · dsimp only
    split
    · exact ⟨[.queryDeviceEvent s.guestTimeTicks], rfl⟩
    next event _ =>
      split
      · exact ⟨[.queryDeviceEvent s.guestTimeTicks], rfl⟩
      · exact ⟨[.queryDeviceEvent s.guestTimeTicks, .forwardTo event, .syncDevices poll none], rfl⟩

/-- Every line that `sync_devices` copies is in the GIC as its device reports it. -/
structure LevelsMirrored (s : Soc) : Prop where
  timers : ∀ k, ∀ cpu < s.cpuCount, s.lineVisible k cpu = s.timer.lineLevel k cpu
  devices : ∀ d, s.deviceVisible d = s.deviceIrq d

/-- In every run, a synchronisation mirrors the levels exactly when the display changes nothing in
what the keyboard reports. -/
theorem run_levelsMirrored_iff (cpuCount : Nat) (allStart : Bool) (entryPc timerTickScale : U64)
    (schedulerMode : SchedulerMode) (hostNetwork : Bool) (ops : List SocOp)
    (poll : Option NetPoll) (shown : Option Present) :
    let s := Lib.Run.run socStep { reset cpuCount allStart entryPc timerTickScale schedulerMode with
      hostNetwork := hostNetwork } ops
    (s.socStep (.syncDevices poll shown)).LevelsMirrored ↔
      ∀ p, shown = some p → p.kmiIrq = s.deviceIrq .kmi := by
  intro s
  have hm : s.Mirrored := run_invariant (fun s op hs => hs.socStep op) ops
    (reset_mirrored cpuCount allStart entryPc timerTickScale schedulerMode hostNetwork)
  have hkmi : (s.pollNetwork poll).deviceIrq .kmi = s.deviceIrq .kmi := by
    cases poll <;> rfl
  obtain ⟨hboard, htimer, hlines⟩ := syncDevices_lines hm.gicCpus hm.timers poll
  have htimers : ∀ k, ∀ cpu < (s.syncDevices poll).cpuCount,
      (s.syncDevices poll).lineVisible k cpu = (s.syncDevices poll).timer.lineLevel k cpu := by
    intro k cpu hc
    rw [(hlines k cpu (hboard.cpuCount ▸ hc)).1, htimer]
  have hdevices := syncDevices_devices hm poll
  have hbefore : (s.syncDevices poll).deviceIrq .kmi = s.deviceIrq .kmi := by
    rw [(hdevices .kmi).2.2, hkmi]
  show (s.syncDevicesShown poll shown).LevelsMirrored ↔ _
  rw [syncDevicesShown_eq]
  cases shown with
  | none => exact ⟨fun _ _ hp => (nomatch hp), fun _ => ⟨htimers, fun d => (hdevices d).1⟩⟩
  | some p =>
    constructor
    · rintro h p' hp
      cases hp
      have hd := h.devices .kmi
      simp only [Function.update_self] at hd
      rw [← hd, ← hbefore]
      exact (hdevices .kmi).1
    · intro h
      refine ⟨htimers, fun d => ?_⟩
      by_cases hd : d = .kmi
      · subst hd
        simp only [Function.update_self]
        rw [h p rfl, ← hbefore]
        exact (hdevices .kmi).1
      · simp only [Function.update_of_ne hd]
        exact (hdevices d).1

/-- A keyboard interface with its interrupt enabled and nothing received. -/
def idleKeyboard : Pl050Kmi := ⟨[], 0x14, true⟩

/-- A key that the display reads during the first synchronisation raises the keyboard's level after
its line was copied: the line stays low. -/
theorem key_during_sync_not_mirrored :
    ¬ ((reset 1 true 0 1 .eventDriven).socStep
      (.syncDevices none (some (.ofKeys idleKeyboard [0x1C])))).LevelsMirrored := by
  intro h
  exact absurd (h.devices .kmi) (by decide)

end Soc
end Aarchvm

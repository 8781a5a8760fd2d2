import Aarchvm.Cpu.Smp
import Aarchvm.Soc.Schedule
import Mathlib.Tactic.SplitIfs

/-!
# Idle fast-forward

A fast-forward shifts the event's tick into the 48.16 format. The shift loses
nothing, and the time reached is the event's, exactly when the event lies before
tick 2 ^ 48; the guest chooses the event with the compare registers.
-/
namespace Aarchvm
namespace Soc

/-! ## What keeps the guest time -/

/-- The members that synchronisation and dispatch leave alone. -/
structure SameTime (s s' : Soc) : Prop where
  guestTimeFp : s'.guestTimeFp = s.guestTimeFp
  schedulerMode : s'.schedulerMode = s.schedulerMode
  cpuCount : s'.cpuCount = s.cpuCount

theorem SameTime.refl (s : Soc) : SameTime s s := ⟨rfl, rfl, rfl⟩

theorem SameTime.trans {a b c : Soc} (h : SameTime a b) (h' : SameTime b c) : SameTime a c :=
  ⟨h'.1.trans h.1, h'.2.trans h.2, h'.3.trans h.3⟩

theorem SameTime.guestTimeTicks {s s' : Soc} (h : SameTime s s') :
    s'.guestTimeTicks = s.guestTimeTicks := by
  unfold Soc.guestTimeTicks
  rw [h.guestTimeFp]

theorem sameTime_foldl {α : Type*} {f : Soc → α → Soc} (h : ∀ s a, SameTime s (f s a)) (as : List α)
    (s : Soc) : SameTime s (as.foldl f s) := by
  induction as generalizing s with
  | nil => exact .refl s
  | cons a as ih => exact (h s a).trans (ih (f s a))

theorem sameTime_syncTimerLine (s : Soc) (k : ChannelKind) (cpu : Nat) :
    SameTime s (s.syncTimerLine k cpu) := by
  unfold syncTimerLine
  dsimp only
  split <;> exact ⟨rfl, rfl, rfl⟩

theorem sameTime_syncDeviceLine (s : Soc) (d : DeviceLine) : SameTime s (s.syncDeviceLine d) := by
  unfold syncDeviceLine
  dsimp only
  split <;> exact ⟨rfl, rfl, rfl⟩

theorem sameTime_syncLines (s : Soc) : SameTime s s.syncLines := by
  have hcpus := sameTime_foldl
    (fun s cpu => (sameTime_syncTimerLine s .cntv cpu).trans (sameTime_syncTimerLine _ .cntp cpu))
    (List.range s.cpuCount) s
  exact hcpus.trans (sameTime_foldl sameTime_syncDeviceLine _ _)

theorem sameTime_pollNetwork (s : Soc) (poll : Option NetPoll) :
    SameTime s (s.pollNetwork poll) := by
  cases poll <;> exact ⟨rfl, rfl, rfl⟩

theorem sameTime_syncDevices (s : Soc) (poll : Option NetPoll) :
    SameTime s (s.syncDevices poll) := by
  have hpoll := sameTime_pollNetwork s poll
  have hlines := sameTime_syncLines { s.pollNetwork poll with
    timer := (s.pollNetwork poll).timer.syncToSteps s.guestTimeTicks
    deviceSyncGuestTicks := s.guestTimeTicks }
  exact ⟨hlines.1.trans hpoll.1, hlines.2.trans hpoll.2, hlines.3.trans hpoll.3⟩

theorem sameTime_queryDeviceEvent (s : Soc) (guestTick : U64) :
    SameTime s (s.queryDeviceEvent guestTick).2 := by
  unfold queryDeviceEvent
  split <;> exact ⟨rfl, rfl, rfl⟩

theorem sameTime_eventDueNow (s : Soc) (guestTicks : U64) :
    SameTime s (s.eventDueNow guestTicks).2 := by
  unfold eventDueNow
  split
  · exact .refl s
  · exact sameTime_queryDeviceEvent s guestTicks

theorem sameTime_deadlineDrivenWindowNeeded (s : Soc) :
    SameTime s s.deadlineDrivenWindowNeeded.2 := by
  unfold deadlineDrivenWindowNeeded
  dsimp only
  split_ifs
  · exact .refl s
  · exact .refl s
  · exact .refl s
  · exact sameTime_queryDeviceEvent s _

theorem sameTime_maybeSyncDevices (s : Soc) (poll : Option NetPoll) :
    SameTime s (s.maybeSyncDevices poll) := by
  have hneeded := sameTime_deadlineDrivenWindowNeeded s
  unfold maybeSyncDevices
  dsimp only
  split_ifs
  · exact sameTime_syncDevices s poll
  · exact hneeded.trans (sameTime_syncDevices _ poll)
  · exact hneeded.trans (sameTime_syncDevices _ poll)
  · exact (hneeded.trans (sameTime_eventDueNow _ _)).trans (sameTime_syncDevices _ poll)
  · exact hneeded.trans (sameTime_eventDueNow _ _)

theorem sameTime_readyToRun (s : Soc) (i : Nat) : SameTime s (s.readyToRun i).2 := ⟨rfl, rfl, rfl⟩

theorem sameTime_inspectCpu (d : CpuDispatchState × Soc) (i : Nat) :
    SameTime d.2 (inspectCpu d i).2 := by
  unfold inspectCpu
  split_ifs
  · exact .refl _
  · exact .refl _
  · exact sameTime_readyToRun d.2 i

theorem sameTime_inspectCpuDispatchState (s : Soc) : SameTime s s.inspectCpuDispatchState.2 := by
  have h :
    ∀ (is : List Nat) (d : CpuDispatchState × Soc), SameTime d.2 (is.foldl inspectCpu d).2 := by
    intro is
    induction is with
    | nil => exact fun d => .refl d.2
    | cons i is ih => exact fun d => (sameTime_inspectCpu d i).trans (ih (inspectCpu d i))
  exact h (List.range s.cpuCount) (⟨false, true, none, 0, 0⟩, s)

theorem sameTime_idlePoint {s s' : Soc} {poll : Option NetPoll} (h : s.idlePoint poll = some s') :
    SameTime s s' := by
  have hsync := sameTime_maybeSyncDevices s poll
  unfold idlePoint at h
  dsimp only at h
  split_ifs at h
  · cases h
    exact hsync.trans (sameTime_readyToRun _ 0)
  · cases h
    exact hsync.trans (sameTime_inspectCpuDispatchState _)

/-! ## One fast-forward -/

theorem guestTimeTicks_toNat (s : Soc) : s.guestTimeTicks.toNat = s.guestTimeFp.toNat / 2 ^ 16 := by
  unfold guestTimeTicks kGuestTimeFracBits
  rw [BitVec.toNat_ushiftRight, Nat.shiftRight_eq_div_pow]

theorem guestTimeTicks_lt (s : Soc) : s.guestTimeTicks.toNat < 2 ^ 48 := by
  have hfp := s.guestTimeFp.isLt
  rw [guestTimeTicks_toNat]
  omega

/-- An event before tick 2 ^ 48 that lies ahead is reached exactly. -/
theorem advanceGuestTimeTo_ticks {s : Soc} {event : U64} (hr : event.toNat < 2 ^ 48)
    (ha : s.guestTimeTicks.toNat < event.toNat) :
    (s.advanceGuestTimeTo event).guestTimeTicks = event := by
  have hshift : (event <<< kGuestTimeFracBits).toNat = event.toNat * 2 ^ 16 := by
    rw [kGuestTimeFracBits, BitVec.toNat_shiftLeft, Nat.shiftLeft_eq, Nat.mod_eq_of_lt (by omega)]
  have hahead : ¬ event <<< kGuestTimeFracBits ≤ s.guestTimeFp := by
    rw [BitVec.le_def, hshift]
    rw [guestTimeTicks_toNat] at ha
    omega
  rw [advanceGuestTimeTo, if_neg hahead]
  apply BitVec.eq_of_toNat_eq
  rw [guestTimeTicks_toNat]
  show (event <<< kGuestTimeFracBits).toNat / 2 ^ 16 = event.toNat
  rw [hshift]
  omega

theorem SameTime.advanceGuestTimeTo_ticks {s s' : Soc} (h : SameTime s s') (event : U64) :
    (s'.advanceGuestTimeTo event).guestTimeTicks = (s.advanceGuestTimeTo event).guestTimeTicks := by
  unfold Soc.advanceGuestTimeTo
  rw [h.guestTimeFp]
  split
  · exact h.guestTimeTicks
  · rfl

theorem forwardTo_ticks (s : Soc) (event : U64) (poll : Option NetPoll) :
    (s.forwardTo event poll).guestTimeTicks = (s.advanceGuestTimeTo event).guestTimeTicks := by
  have hflag : ∀ a : Soc, SameTime a { a with deviceSyncValid := false } := fun _ => ⟨rfl, rfl, rfl⟩
  exact ((hflag (s.advanceGuestTimeTo event)).trans (sameTime_syncDevices _ poll)).guestTimeTicks

/-- What a fast-forward that returns true has done. -/
theorem fastForward_eq_true {s : Soc} {poll : Option NetPoll}
    (h : (s.fastForwardToNextGuestEvent poll).1 = true) :
    ∃ event, s.schedulerMode = .eventDriven ∧
      (s.queryDeviceEvent s.guestTimeTicks).1 = some event ∧
      s.guestTimeTicks.toNat < event.toNat ∧
      (s.fastForwardToNextGuestEvent poll).2.guestTimeTicks =
        (s.advanceGuestTimeTo event).guestTimeTicks := by
  have hquery := sameTime_queryDeviceEvent s s.guestTimeTicks
  unfold fastForwardToNextGuestEvent at h ⊢
  by_cases hm : s.schedulerMode = .legacy
  · rw [if_pos hm] at h
    cases h
  · rw [if_neg hm] at h ⊢
    dsimp only at h ⊢
    cases he : (s.queryDeviceEvent s.guestTimeTicks).1 with
    | none =>
      rw [he] at h
      cases h
    | some event =>
      rw [he] at h
      dsimp only at h ⊢
      by_cases hle : event ≤ s.guestTimeTicks
      · rw [if_pos hle] at h
        cases h
      · rw [if_neg hle]
        refine ⟨event, ?_, rfl, ?_, ?_⟩
        · cases hs : s.schedulerMode with
          | legacy => exact absurd hs hm
          | eventDriven => rfl
        · rw [BitVec.le_def] at hle
          omega
        · exact (forwardTo_ticks _ event poll).trans (hquery.advanceGuestTimeTo_ticks event)

/-- A fast-forward that returns true moves the time forward, to the event or beyond. -/
def Advances (s : Soc) (poll : Option NetPoll) : Prop :=
  (s.fastForwardToNextGuestEvent poll).1 = true →
    let s' := (s.fastForwardToNextGuestEvent poll).2
    s.guestTimeTicks < s'.guestTimeTicks ∧
      ∀ event, (s.queryDeviceEvent s.guestTimeTicks).1 = some event → event ≤ s'.guestTimeTicks

/-- The next event has a guest tick that the 48.16 format can hold. -/
def EventInRange (s : Soc) : Prop :=
  s.schedulerMode = .eventDriven → ∀ event,
    (s.queryDeviceEvent s.guestTimeTicks).1 = some event → event.toNat < 2 ^ 48

theorem advances_iff (s : Soc) (poll : Option NetPoll) : s.Advances poll ↔ s.EventInRange := by
  constructor
  · intro ha hm event he
    by_cases hle : event ≤ s.guestTimeTicks
    · have ht := s.guestTimeTicks_lt
      rw [BitVec.le_def] at hle
      omega
    · have htrue : (s.fastForwardToNextGuestEvent poll).1 = true := by
        unfold fastForwardToNextGuestEvent
        rw [if_neg (by rw [hm]; exact SchedulerMode.noConfusion)]
        dsimp only
        rw [he]
        dsimp only
        rw [if_neg hle]
      have hreach := (ha htrue).2 event he
      have ht := (s.fastForwardToNextGuestEvent poll).2.guestTimeTicks_lt
      rw [BitVec.le_def] at hreach
      omega
  · intro hr htrue
    obtain ⟨event, hm, he, hahead, hticks⟩ := fastForward_eq_true htrue
    rw [advanceGuestTimeTo_ticks (hr hm event he) hahead] at hticks
    dsimp only
    rw [hticks]
    refine ⟨BitVec.lt_def.2 hahead, fun event' he' => ?_⟩
    rw [he, Option.some.injEq] at he'
    rw [he']
    exact BitVec.le_refl _

/-! ## The idle loop -/

/-- In each lap of the idle loop the event that is forwarded to is in range. -/
def LapsInRange (s : Soc) : List (Option NetPoll × Option NetPoll) → Prop
  | [] => True
  | polls :: rest =>
    (∀ idle, s.idlePoint polls.1 = some idle → idle.EventInRange) ∧
      ∀ s', s.forwardLap polls = some s' → s'.LapsInRange rest

/-- A lap whose event is in range takes at least a tick. -/
theorem forwardLap_ticks {s s' : Soc} {polls : Option NetPoll × Option NetPoll}
    (h : s.forwardLap polls = some s')
    (hr : ∀ idle, s.idlePoint polls.1 = some idle → idle.EventInRange) :
    s.guestTimeTicks.toNat < s'.guestTimeTicks.toNat := by
  obtain ⟨idle, hidle, hforward⟩ := Option.bind_eq_some_iff.1 h
  dsimp only at hforward
  by_cases htrue : (idle.fastForwardToNextGuestEvent polls.2).1 = true
  · rw [if_pos htrue] at hforward
    cases hforward
    have hadv := (advances_iff idle polls.2).2 (hr idle hidle) htrue
    have hsame := (sameTime_idlePoint hidle).guestTimeTicks
    have hlt := BitVec.lt_def.1 hadv.1
    rw [hsame] at hlt
    exact hlt
  · rw [if_neg htrue] at hforward
    cases hforward

/-- Laps in range raise the guest time by at least one tick each. -/
theorem forwardLaps_ticks {s s' : Soc} {polls : List (Option NetPoll × Option NetPoll)}
    (h : s.forwardLaps polls = some s') (hr : s.LapsInRange polls) :
    s.guestTimeTicks.toNat + polls.length ≤ s'.guestTimeTicks.toNat := by
  induction polls generalizing s with
  | nil =>
    cases h
    exact Nat.le_refl _
  | cons p rest ih =>
    obtain ⟨s₁, hlap, hrest⟩ := Option.bind_eq_some_iff.1 h
    have hfirst := forwardLap_ticks hlap hr.1
    have hafter := ih hrest (hr.2 s₁ hlap)
    rw [List.length_cons]
    omega

/-- A fast-forward makes progress exactly when the next event has a tick below 2 ^ 48; an idle
loop whose events all do makes fewer than 2 ^ 48 of them. -/
theorem forward_progress (s : Soc) (poll : Option NetPoll) :
    (s.Advances poll ↔ s.EventInRange) ∧
      ∀ polls s', s.forwardLaps polls = some s' → s.LapsInRange polls →
        s.guestTimeTicks.toNat + polls.length ≤ s'.guestTimeTicks.toNat ∧
        polls.length < 2 ^ 48 := by
  refine ⟨advances_iff s poll, fun polls s' h hr => ?_⟩
  have hticks := forwardLaps_ticks h hr
  have hlt := s'.guestTimeTicks_lt
  exact ⟨hticks, by omega⟩

/-- One CPU in WFI whose virtual timer is set to `cval`. -/
def parked (cval : U64) : Soc :=
  let s := reset 1 true 0 1 .eventDriven
  let s :=
    { s with timer := s.timer.writeCntvCvalEl0 0 s.guestTimeTicks cval }.invalidateDeviceSchedule
  let s := { s with timer := s.timer.writeCntvCtlEl0 0 s.guestTimeTicks 1 }.invalidateDeviceSchedule
  { s with cpus := Function.update s.cpus 0 (s.cpus 0).wfi }

/-- The idle CPU of `parked 1000` reaches its deadline in one lap. -/
theorem forward_to_tick_1000 :
    ((parked 1000).forwardLaps [(none, none)]).isSome = true ∧
      ∀ s', (parked 1000).forwardLaps [(none, none)] = some s' →
        1 ≤ s'.guestTimeTicks.toNat := by
  have hsome : ((parked 1000).forwardLaps [(none, none)]).isSome = true := by decide +kernel
  have hrange : ((parked 1000).idlePoint none).all (fun idle =>
      (idle.queryDeviceEvent idle.guestTimeTicks).1.all (fun event =>
        decide (event.toNat < 2 ^ 48))) = true := by decide +kernel
  refine ⟨hsome, fun s' h => ?_⟩
  have hlaps : (parked 1000).LapsInRange [(none, none)] := by
    refine ⟨fun idle hidle _ event he => ?_, fun _ _ => trivial⟩
    rw [hidle, Option.all_some, he, Option.all_some] at hrange
    exact of_decide_eq_true hrange
  have hstart : (parked 1000).guestTimeTicks.toNat = 0 := by decide +kernel
  have hticks := ((forward_progress (parked 1000) none).2 [(none, none)] s' h hlaps).1
  rw [hstart, List.length_singleton] at hticks
  omega

/-! ## An event out of range -/

def farTick : U64 := 1 <<< 50

/-- The timer of `parked farTick`. -/
def farTimer : GenericTimer := (parked farTick).timer

/-- The idle machine whose only event lies at `farTick`, with nothing to synchronise. -/
structure Stuck (s : Soc) : Prop where
  schedulerMode : s.schedulerMode = .eventDriven
  cpuCount : s.cpuCount = 1
  cpuPoweredOn : s.cpuPoweredOn 0 = true
  halted : (s.cpus 0).halted = false
  waiting : (s.cpus 0).waitingForInterrupt = true
  timer : s.timer = farTimer
  guestTimeFp : s.guestTimeFp = 0
  deviceIrq : ∀ d, s.deviceIrq d = false
  lineLevel : ∀ b i, s.gic.bit .lineLevel b i = false
  pending : (s.gic.hasPending (s.cpus 0).cpuIndex 0xFF).1 = false
  event : s.deviceScheduleValid = true → s.nextDeviceEvent = some farTick

theorem setLevelOn_low {g : GicV3} (h : ∀ b i, g.bit .lineLevel b i = false) (cpu intid : Nat) :
    g.setLevelOn cpu intid false = g := by
  unfold GicV3.setLevelOn GicV3.onBank GicV3.recordLevel
  simp only [h, if_true, ite_self]

/-- Asking twice gives the same answer. -/
theorem hasPending_hasPending (g : GicV3) (cpu : Nat) (pmr : U8) :
    ((g.hasPending cpu pmr).2.hasPending cpu pmr).1 = (g.hasPending cpu pmr).1 := by
  by_cases hc : ((g.pendingQueryCache (g.localIdx cpu)).valid &&
      (g.pendingQueryCache (g.localIdx cpu)).epoch == g.stateEpoch &&
      (g.pendingQueryCache (g.localIdx cpu)).pmr == pmr) = true
  · have hg : (g.hasPending cpu pmr).2 = g := by
      unfold GicV3.hasPending
      dsimp only
      rw [if_pos hc]
    rw [hg]
  · unfold GicV3.hasPending
    dsimp only
    rw [if_neg hc]
    simp [GicV3.localIdx]

theorem farTimer_lines (k : ChannelKind) : farTimer.lineLevel k 0 = false := by
  cases k <;> decide +kernel

theorem farTimer_sync : farTimer.syncToSteps 0 = farTimer := by decide +kernel

namespace Stuck

variable {s : Soc}

theorem guestTimeTicks (h : Stuck s) : s.guestTimeTicks = 0 := by
  unfold Soc.guestTimeTicks
  rw [h.guestTimeFp]
  rfl

theorem syncTimerLine (h : Stuck s) (k : ChannelKind) : Stuck (s.syncTimerLine k 0) := by
  unfold Soc.syncTimerLine
  dsimp only
  split
  · have hlevel : s.timer.lineLevel k 0 = false := by rw [h.timer, farTimer_lines]
    have hgic : s.gic.setLevelOn 0 k.intid false = s.gic := setLevelOn_low h.lineLevel 0 k.intid
    rw [hlevel]
    unfold setTimerLine
    rw [hgic]
    exact { h with }
  · exact h

theorem syncDeviceLine (h : Stuck s) (d : DeviceLine) : Stuck (s.syncDeviceLine d) := by
  unfold Soc.syncDeviceLine
  dsimp only
  split
  · have hgic : s.gic.setLevel d.intid false = s.gic := setLevelOn_low h.lineLevel 0 d.intid
    rw [h.deviceIrq d]
    unfold setDeviceLine
    rw [hgic]
    exact { h with }
  · exact h

theorem syncDevices (h : Stuck s) : Stuck (s.syncDevices none) := by
  have htimer : s.timer.syncToSteps s.guestTimeTicks = s.timer := by
    rw [h.guestTimeTicks, h.timer, farTimer_sync]
  have hlines : ∀ a : Soc, Stuck a → Stuck a.syncLines := by
    intro a ha
    unfold syncLines
    rw [ha.cpuCount]
    exact (((((ha.syncTimerLine .cntv).syncTimerLine .cntp).syncDeviceLine .uart).syncDeviceLine
      .kmi).syncDeviceLine .virtioBlk).syncDeviceLine .virtioNet
  have hsynced : Stuck { s with
      timer := s.timer.syncToSteps s.guestTimeTicks,
      deviceSyncGuestTicks := s.guestTimeTicks } := by
    rw [htimer]
    exact { h with }
  exact { hlines _ hsynced with event := fun hv => Bool.noConfusion hv }

theorem queryDeviceEvent (h : Stuck s) :
    (s.queryDeviceEvent s.guestTimeTicks).1 = some farTick ∧
      Stuck (s.queryDeviceEvent s.guestTimeTicks).2 := by
  have hdeadline : s.timerDeadline s.guestTimeTicks = some farTick := by
    unfold timerDeadline
    rw [h.guestTimeTicks, h.timer]
    decide +kernel
  unfold Soc.queryDeviceEvent
  split
  · rename_i hcached
    rw [Bool.and_eq_true, Bool.and_eq_true] at hcached
    exact ⟨h.event hcached.1.1, h⟩
  · exact ⟨hdeadline, { h with event := fun _ => hdeadline }⟩

theorem maybeSyncDevices (h : Stuck s) : Stuck (s.maybeSyncDevices none) := by
  have hneeded : Stuck s.deadlineDrivenWindowNeeded.2 := by
    unfold Soc.deadlineDrivenWindowNeeded
    dsimp only
    split_ifs
    · exact h
    · exact h
    · exact h
    · exact h.queryDeviceEvent.2
  have hdue : ∀ a : Soc, Stuck a → Stuck (a.eventDueNow a.guestTimeTicks).2 := by
    intro a ha
    unfold Soc.eventDueNow
    split
    · exact ha
    · exact ha.queryDeviceEvent.2
  unfold Soc.maybeSyncDevices
  dsimp only
  split_ifs
  · exact h.syncDevices
  · exact hneeded.syncDevices
  · exact hneeded.syncDevices
  · exact (hdue _ hneeded).syncDevices
  · exact hdue _ hneeded

theorem readyToRun (h : Stuck s) : (s.readyToRun 0).1 = false ∧ Stuck (s.readyToRun 0).2 := by
  have hready : (s.cpus 0).readyToRun s.gic =
      (false, s.cpus 0, (s.gic.hasPending (s.cpus 0).cpuIndex 0xFF).2) := by
    unfold Cpu.readyToRun
    rw [h.halted, h.waiting]
    simp only [Bool.false_eq_true, if_false, Bool.not_true, Bool.false_and, if_true]
    rw [h.pending]
  have hbits : ∀ b i, (s.gic.hasPending (s.cpus 0).cpuIndex 0xFF).2.bit .lineLevel b i = false := by
    intro b i
    rw [← h.lineLevel b i]
    unfold GicV3.hasPending
    dsimp only
    split <;> rfl
  unfold Soc.readyToRun
  rw [hready]
  dsimp only
  rw [Function.update_eq_self]
  exact ⟨rfl, { h with
    lineLevel := hbits
    pending := (hasPending_hasPending s.gic _ _).trans h.pending }⟩

theorem fastForward (h : Stuck s) :
    (s.fastForwardToNextGuestEvent none).1 = true ∧
      Stuck (s.fastForwardToNextGuestEvent none).2 := by
  have hahead : ¬ farTick ≤ s.guestTimeTicks := by
    rw [h.guestTimeTicks]
    decide
  have hquery := h.queryDeviceEvent
  -- the shifted tick is zero, so the time stays
  have hsame : (s.queryDeviceEvent s.guestTimeTicks).2.advanceGuestTimeTo farTick =
      (s.queryDeviceEvent s.guestTimeTicks).2 := by
    unfold advanceGuestTimeTo
    rw [hquery.2.guestTimeFp]
    rfl
  unfold fastForwardToNextGuestEvent
  rw [if_neg (by rw [h.schedulerMode]; exact SchedulerMode.noConfusion)]
  dsimp only
  rw [hquery.1]
  simp only [hahead, if_false, true_and]
  unfold forwardTo
  rw [hsame]
  exact Stuck.syncDevices { hquery.2 with }

/-- The idle loop makes another lap and arrives where it was. -/
theorem forwardLap (h : Stuck s) : ∃ s', s.forwardLap (none, none) = some s' ∧ Stuck s' := by
  have hsync := h.maybeSyncDevices
  have hidle : s.idlePoint none = some ((s.maybeSyncDevices none).readyToRun 0).2 := by
    unfold idlePoint
    dsimp only
    rw [if_pos hsync.cpuCount, hsync.readyToRun.1]
    rfl
  have hforward := hsync.readyToRun.2.fastForward
  refine ⟨_, ?_, hforward.2⟩
  unfold Soc.forwardLap
  rw [hidle, Option.bind_some]
  dsimp only
  rw [if_pos hforward.1]

theorem forwardLaps (n : Nat) {s : Soc} (h : Stuck s) :
    ∃ s', s.forwardLaps (List.replicate n (none, none)) = some s' ∧ s'.guestTimeTicks = 0 := by
  induction n generalizing s with
  | zero => exact ⟨s, rfl, h.guestTimeTicks⟩
  | succ n ih =>
    obtain ⟨s₁, hlap, h₁⟩ := h.forwardLap
    obtain ⟨s', hrest, hticks⟩ := ih h₁
    refine ⟨s', ?_, hticks⟩
    rw [List.replicate_succ]
    unfold Soc.forwardLaps
    rw [hlap]
    exact hrest

end Stuck

theorem stuck_parked : Stuck (parked farTick) where
  schedulerMode := rfl
  cpuCount := rfl
  cpuPoweredOn := rfl
  halted := by decide +kernel
  waiting := by decide +kernel
  timer := rfl
  guestTimeFp := rfl
  deviceIrq _ := rfl
  lineLevel b i := by cases b <;> rfl
  pending := by decide +kernel
  event hv := Bool.noConfusion hv

/-- With the deadline at tick 2 ^ 50 the idle loop takes as many laps as one likes and guest time
stays at tick 0. -/
theorem forward_stuck :
    (parked farTick).guestTimeTicks = 0 ∧
      ∀ n, ∃ s', (parked farTick).forwardLaps (List.replicate n (none, none)) = some s' ∧
        s'.guestTimeTicks = 0 :=
  ⟨stuck_parked.guestTimeTicks, fun n => stuck_parked.forwardLaps n⟩

end Soc
end Aarchvm

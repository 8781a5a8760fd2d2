import Aarchvm.Soc.Idle
import Aarchvm.Soc.Lines

/-!
# Timer lines and windows

Between synchronisations the timer is not looked at, so a timer line is on time at
every tick of a window only if no deadline lies inside the window. A window that is
computed with the deadline in view ends at it. One that is not, because the deadline
is more than 256 ticks away, runs to the end of the budget.
-/
namespace Aarchvm

namespace GenericTimer

theorem counterAtSteps_syncToSteps (t : GenericTimer) (steps : U64) :
    (t.syncToSteps steps).counterAtSteps steps = t.counterAtSteps steps := by
  have hcounter : ∀ a : GenericTimer, a.updateIrqState.counter = a.counter ∧
      a.updateIrqState.stepAnchor = a.stepAnchor := by
    intro a
    unfold updateIrqState updateMmioIrq
    split <;> exact ⟨rfl, rfl⟩
  unfold syncToSteps
  rw [counterAtSteps, (hcounter _).1, (hcounter _).2, BitVec.sub_self, BitVec.zero_mul,
    BitVec.add_zero]

/-- Synchronising twice at one tick is synchronising once. -/
theorem lineLevel_sync_sync (t : GenericTimer) (steps : U64) (k : ChannelKind) (cpu : Nat) :
    ((t.syncToSteps steps).syncToSteps steps).lineLevel k cpu =
      (t.syncToSteps steps).lineLevel k cpu := by
  rw [lineLevel_syncToSteps, counterAtSteps_syncToSteps, lineLevel_syncToSteps]
  generalize hc : t.counterAtSteps steps = current
  have hstates : ∀ a : GenericTimer, a.updateMmioIrq.cpuStates = a.cpuStates := by
    intro a
    unfold updateMmioIrq
    split <;> rfl
  have hcpu : (t.syncToSteps steps).cpuState cpu =
      ⟨(t.cpuState cpu).cntv.updateIrq current, (t.cpuState cpu).cntp.updateIrq current⟩ := by
    unfold syncToSteps updateIrqState
    rw [cpuState_mapStates, cpuState_congr (hstates _)]
    subst hc
    rfl
  cases k with
  | cntp =>
    simp only [levelAt]
    rw [hcpu]
    rfl
  | cntv =>
    have hmmio : ((t.syncToSteps steps).mmioIrqPending || (t.syncToSteps steps).mmioFires current) =
        (t.mmioIrqPending || t.mmioFires current) := by
      subst hc
      unfold syncToSteps updateIrqState mapStates mmioFires updateMmioIrq
      dsimp only
      split
      · rename_i h
        simp only [Bool.and_eq_true] at h
        simp [h.1.1.1, h.1.1.2, h.1.2, h.2]
      · rfl
    simp only [levelAt]
    rw [hmmio, hcpu]
    rfl

end GenericTimer

namespace Soc

/-- Synchronising now would show the GIC no other timer lines than it sees. -/
def LinesOnTime (s : Soc) : Prop :=
  ∀ cpu < s.cpuCount, ∀ k, (s.syncDevices none).lineVisible k cpu = s.lineVisible k cpu

instance (s : Soc) : Decidable s.LinesOnTime :=
  have (cpu : Nat) :
      Decidable (∀ k, (s.syncDevices none).lineVisible k cpu = s.lineVisible k cpu) :=
    decidable_of_iff (∀ k ∈ [ChannelKind.cntv, .cntp],
      (s.syncDevices none).lineVisible k cpu = s.lineVisible k cpu)
      ⟨fun h k => h k (by cases k <;> simp), fun h k _ => h k⟩
  inferInstanceAs (Decidable (∀ cpu < s.cpuCount, _))

/-- The invariant of the event-driven scheduler: what is recorded is what the GIC sees and what the
timer says, and the event that is kept was computed from this timer. -/
structure Scheduled (s : Soc) : Prop where
  schedulerMode : s.schedulerMode = .eventDriven
  gicCpus : s.gic.cpuCount = s.cpuCount
  cpuCount_lt : s.cpuCount < 2 ^ 64
  recorded : s.LinesRecorded
  current : s.deviceSyncValid = true → ∀ k, ∀ cpu < s.cpuCount,
    s.lineVisible k cpu = s.timer.lineLevel k cpu
  event : s.deviceScheduleValid = true → s.deviceScheduleDirty = false →
    ∃ steps : U64, steps.toNat ≤ s.guestTimeTicks.toNat ∧
      s.nextDeviceEvent = s.timerDeadline steps

/-- The lines that the GIC sees are those of this tick. -/
def Due (s : Soc) : Prop :=
  ∀ k, ∀ cpu < s.cpuCount,
    (s.timer.syncToSteps s.guestTimeTicks).lineLevel k cpu = s.lineVisible k cpu

theorem Scheduled.linesOnTime {s : Soc} (h : Scheduled s) (hd : Due s) : s.LinesOnTime := by
  intro cpu hc k
  rw [← hd k cpu hc]
  exact ((syncDevices_lines h.gicCpus h.recorded none).2.2 k cpu hc).1

theorem Silent.due {s s' : Soc} (h : Silent s s') (hd : Due s) : Due s' := by
  intro k cpu hc
  rw [h.untouched.timer, h.board.guestTimeTicks, h.untouched.lineVisible]
  exact hd k cpu (h.board.cpuCount ▸ hc)

theorem Kept.scheduled {s s' : Soc} (h : Kept s s') (hs : Scheduled s) : Scheduled s' := by
  have hb := h.board
  refine ⟨hb.schedulerMode.trans hs.schedulerMode, ?_, ?_, ?_, ?_, ?_⟩
  · rw [hb.gicCpus, hb.cpuCount, hs.gicCpus]
  · rw [hb.cpuCount]
    exact hs.cpuCount_lt
  · rcases h.lines with hu | hi
    · intro hv k cpu hc
      rw [hu.lastTimerLevels, hu.lineVisible]
      exact hs.recorded (hu.syncValid ▸ hv) k cpu (hb.cpuCount ▸ hc)
    · intro hv
      rw [hi.syncValid] at hv
      cases hv
  · rcases h.lines with hu | hi
    · intro hv k cpu hc
      rw [hu.lineVisible, hu.timer]
      exact hs.current (hu.syncValid ▸ hv) k cpu (hb.cpuCount ▸ hc)
    · intro hv
      rw [hi.syncValid] at hv
      cases hv
  · rcases h.lines with hu | hi
    · intro hv hd
      obtain ⟨steps, hle, he⟩ := hs.event (hu.scheduleValid ▸ hv) (hu.dirty ▸ hd)
      refine ⟨steps, by rw [hb.guestTimeTicks]; exact hle, ?_⟩
      rw [hu.nextDeviceEvent, he]
      unfold timerDeadline
      rw [hu.timer]
    · intro hv
      rw [hi.scheduleValid] at hv
      cases hv

theorem Kept.untouched {s s' : Soc} (h : Kept s s') (hd : s'.deviceScheduleDirty = false) :
    Untouched s s' := by
  rcases h.lines with hu | hi
  · exact hu
  · rw [hi.dirty] at hd
    cases hd

/-! ## Synchronisation and the event -/

theorem syncDevices_scheduled {s : Soc} (hm : s.schedulerMode = .eventDriven)
    (hg : s.gic.cpuCount = s.cpuCount) (hn : s.cpuCount < 2 ^ 64) (hr : s.LinesRecorded)
    (poll : Option NetPoll) :
    Scheduled (s.syncDevices poll) ∧ Due (s.syncDevices poll) := by
  obtain ⟨hb, ht, hl⟩ := syncDevices_lines hg hr poll
  refine ⟨⟨hb.schedulerMode.trans hm, ?_, ?_, ?_, ?_, fun hv => ?_⟩, ?_⟩
  · rw [hb.gicCpus, hb.cpuCount, hg]
  · rw [hb.cpuCount]
    exact hn
  · intro _ k cpu hc
    obtain ⟨hv, hlast⟩ := hl k cpu (hb.cpuCount ▸ hc)
    rw [hv, hlast]
  · intro _ k cpu hc
    rw [(hl k cpu (hb.cpuCount ▸ hc)).1, ht]
  · cases hv
  · intro k cpu hc
    rw [(hl k cpu (hb.cpuCount ▸ hc)).1, ht, hb.guestTimeTicks, GenericTimer.lineLevel_sync_sync]

theorem Scheduled.syncDevices {s : Soc} (h : Scheduled s) (poll : Option NetPoll) :
    Scheduled (s.syncDevices poll) ∧ Due (s.syncDevices poll) :=
  syncDevices_scheduled h.schedulerMode h.gicCpus h.cpuCount_lt h.recorded poll

/-- The tick before which an event lets nothing happen. -/
def eventTick (event : Option U64) : Nat := event.elim (2 ^ 48) (·.toNat)

/-- Before the event every line is low. -/
theorem low_of_timerDeadline {s : Soc} {steps : U64} (hs : steps.toNat < 2 ^ 48) {tick : Nat}
    (hlo : steps.toNat ≤ tick) (hhi : tick < 2 ^ 48)
    (he : tick < eventTick (s.timerDeadline steps)) (k : ChannelKind) (cpu : Nat) :
    (s.timer.syncToSteps (BitVec.ofNat 64 tick)).lineLevel k cpu = false ∧
      s.timer.lineLevel k cpu = false := by
  have hno : kNoDeadline.toNat = 2 ^ 62 - 1 := by decide
  have hlt : tick - steps.toNat < (s.timer.stepsUntilIrq steps kNoDeadline).toNat := by
    unfold timerDeadline at he
    dsimp only at he
    by_cases hnone : s.timer.stepsUntilIrq steps kNoDeadline = kNoDeadline
    · rw [hnone, hno]
      omega
    · have hle := BitVec.le_def.1 (s.timer.stepsUntilIrqFrom_le steps
        (List.range s.timer.cpuStates.length) kNoDeadline)
      have hsum : (steps + s.timer.stepsUntilIrq steps kNoDeadline).toNat =
          steps.toNat + (s.timer.stepsUntilIrq steps kNoDeadline).toNat := by
        rw [BitVec.toNat_add, Nat.mod_eq_of_lt]
        unfold GenericTimer.stepsUntilIrq
        omega
      rw [if_neg hnone] at he
      unfold eventTick at he
      rw [Option.elim_some, hsum] at he
      omega
  have hne : s.timer.stepsUntilIrq steps kNoDeadline ≠ 0 := by
    intro h0
    rw [h0] at hlt
    exact Nat.not_lt_zero _ hlt
  have hq := GenericTimer.quietOn_of_stepsUntilIrq hne cpu
  refine ⟨?_, hq.now k⟩
  have htick : BitVec.ofNat 64 tick = steps + BitVec.ofNat 64 (tick - steps.toNat) := by
    apply BitVec.eq_of_toNat_eq
    rw [BitVec.toNat_add, BitVec.toNat_ofNat, BitVec.toNat_ofNat, Nat.mod_eq_of_lt (by omega),
      Nat.mod_eq_of_lt (show tick - steps.toNat < 2 ^ 64 by omega), Nat.mod_eq_of_lt (by omega)]
    omega
  rw [GenericTimer.lineLevel_syncToSteps, htick, GenericTimer.counterAtSteps_add]
  exact hq.later _ hlt k

/-- What a query of the next event does and what its answer is about. -/
structure Queried (s s' : Soc) (event : Option U64) : Prop where
  board : SameBoard s s'
  timer : s'.timer = s.timer
  lineVisible : ∀ k cpu, s'.lineVisible k cpu = s.lineVisible k cpu
  syncValid : s'.deviceSyncValid = s.deviceSyncValid
  scheduled : Scheduled s'
  computed : ∃ steps : U64, steps.toNat ≤ s.guestTimeTicks.toNat ∧ event = s.timerDeadline steps

theorem Scheduled.query {s : Soc} (h : Scheduled s) :
    Queried s (s.queryDeviceEvent s.guestTimeTicks).2 (s.queryDeviceEvent s.guestTimeTicks).1 := by
  unfold queryDeviceEvent
  by_cases hc : (s.deviceScheduleValid && !s.deviceScheduleDirty &&
      s.nextDeviceEvent.all (fun e => decide (s.guestTimeTicks ≤ e))) = true
  · rw [if_pos hc]
    rw [Bool.and_eq_true, Bool.and_eq_true, Bool.not_eq_true'] at hc
    exact ⟨.refl s, rfl, fun _ _ => rfl, rfl, h, h.event hc.1.1 hc.1.2⟩
  · rw [if_neg hc]
    exact ⟨⟨rfl, rfl, rfl, rfl⟩, rfl, fun _ _ => rfl, rfl,
      ⟨h.schedulerMode, h.gicCpus, h.cpuCount_lt, h.recorded, h.current,
        fun _ _ => ⟨s.guestTimeTicks, Nat.le_refl _, rfl⟩⟩,
      ⟨s.guestTimeTicks, Nat.le_refl _, rfl⟩⟩

theorem Queried.due {s s' : Soc} {event : Option U64} (h : Queried s s' event) (hd : Due s) :
    Due s' := by
  intro k cpu hc
  rw [h.timer, h.board.guestTimeTicks, h.lineVisible]
  exact hd k cpu (h.board.cpuCount ▸ hc)

/-- Before the event of the query every line is low. -/
theorem Queried.low {s s' : Soc} {event : Option U64} (h : Queried s s' event) {tick : Nat}
    (hlo : s.guestTimeTicks.toNat ≤ tick) (hhi : tick < 2 ^ 48) (he : tick < eventTick event)
    (k : ChannelKind) (cpu : Nat) :
    (s.timer.syncToSteps (BitVec.ofNat 64 tick)).lineLevel k cpu = false ∧
      s.timer.lineLevel k cpu = false := by
  obtain ⟨steps, hle, heq⟩ := h.computed
  have hlt := s.guestTimeTicks_lt
  rw [heq] at he
  exact low_of_timerDeadline (by omega) (by omega) hhi he k cpu

theorem ofNat_guestTimeTicks (s : Soc) :
    BitVec.ofNat 64 s.guestTimeTicks.toNat = s.guestTimeTicks := by simp

/-- An event that is not due leaves the lines as they were. -/
theorem Queried.due_of_later {s s' : Soc} {event : Option U64} (h : Queried s s' event)
    (hv : s.deviceSyncValid = true) (hs : Scheduled s)
    (he : s.guestTimeTicks.toNat < eventTick event) : Due s' := by
  refine h.due fun k cpu hc => ?_
  have hlow := h.low (Nat.le_refl _) s.guestTimeTicks_lt he k cpu
  rw [ofNat_guestTimeTicks] at hlow
  rw [hlow.1, hs.current hv k cpu hc, hlow.2]

theorem lt_eventTick_of_not_due {s : Soc} {event : Option U64}
    (h : event.any (fun e => decide (e ≤ s.guestTimeTicks)) = false) :
    s.guestTimeTicks.toNat < eventTick event := by
  cases event with
  | none => exact s.guestTimeTicks_lt
  | some e =>
    rw [Option.any_some, decide_eq_false_iff_not, BitVec.le_def, Nat.not_le] at h
    exact h

/-- What `deadline_driven_window_needed` leaves: the state, or the state after a query. -/
theorem deadlineDrivenWindowNeeded_soc (s : Soc) :
    s.deadlineDrivenWindowNeeded.2 = s ∨
      s.deadlineDrivenWindowNeeded.2 = (s.queryDeviceEvent s.guestTimeTicks).2 := by
  unfold deadlineDrivenWindowNeeded
  dsimp only
  split_ifs
  · exact .inl rfl
  · exact .inl rfl
  · exact .inl rfl
  · exact .inr rfl

theorem Scheduled.needed_scheduled {s : Soc} (h : Scheduled s) :
    Scheduled s.deadlineDrivenWindowNeeded.2 := by
  rcases s.deadlineDrivenWindowNeeded_soc with he | he
  · rwa [he]
  · rw [he]
    exact h.query.scheduled

theorem Scheduled.needed_due {s : Soc} (h : Scheduled s) (hd : Due s) :
    Due s.deadlineDrivenWindowNeeded.2 := by
  rcases s.deadlineDrivenWindowNeeded_soc with he | he
  · rwa [he]
  · rw [he]
    exact h.query.due hd

/-- After `maybe_sync_devices` the lines are those of the tick, whether it synchronised or not. -/
theorem Scheduled.maybeSyncDevices {s : Soc} (h : Scheduled s) (poll : Option NetPoll) :
    Scheduled (s.maybeSyncDevices poll) ∧ Due (s.maybeSyncDevices poll) := by
  have hn := h.needed_scheduled
  unfold Soc.maybeSyncDevices
  rw [if_neg (by rw [h.schedulerMode]; exact SchedulerMode.noConfusion)]
  dsimp only
  split_ifs with _ hinvalid hdue
  · exact hn.syncDevices poll
  · exact hn.syncDevices poll
  · refine Scheduled.syncDevices ?_ poll
    unfold eventDueNow
    rw [if_neg hinvalid]
    exact hn.query.scheduled
  · rw [Bool.or_eq_true, not_or, Bool.not_eq_true, Bool.not_eq_false', Bool.not_eq_true] at hinvalid
    unfold eventDueNow at hdue ⊢
    rw [if_neg (by simp [hinvalid])] at hdue ⊢
    rw [Bool.not_eq_true] at hdue
    exact ⟨hn.query.scheduled,
      hn.query.due_of_later hinvalid.1 hn (lt_eventTick_of_not_due hdue)⟩

/-! ## Ticks of a window -/

/-- Guest time does not leave its 48.16 format at the end of this tick. -/
def InFormat (s : Soc) : Prop := s.guestTimeTicks.toNat + 1 < 2 ^ 48

instance (s : Soc) : Decidable s.InFormat := inferInstanceAs (Decidable (_ < _))

/-- For `n` more ticks, if guest time has as many, the lines stay as the GIC sees them. -/
def CalmFor (s : Soc) (n : Nat) : Prop :=
  ∀ d < n, s.guestTimeTicks.toNat + d < 2 ^ 48 → ∀ k, ∀ cpu < s.cpuCount,
    (s.timer.syncToSteps (BitVec.ofNat 64 (s.guestTimeTicks.toNat + d))).lineLevel k cpu =
      s.lineVisible k cpu

theorem CalmFor.due {s : Soc} {n : Nat} (h : CalmFor s (n + 1)) : Due s := by
  intro k cpu hc
  have hnow := h 0 (Nat.succ_pos n) s.guestTimeTicks_lt k cpu hc
  rwa [Nat.add_zero, ofNat_guestTimeTicks] at hnow

theorem Untouched.calmFor {s s' : Soc} (h : Untouched s s') (hb : SameBoard s s') {n m : Nat}
    (hm : m ≤ n) (hs : CalmFor s n) : CalmFor s' m := by
  intro d hd hf k cpu hc
  rw [h.timer, h.lineVisible, hb.guestTimeTicks]
  exact hs d (Nat.lt_of_lt_of_le hd hm) (hb.guestTimeTicks ▸ hf) k cpu (hb.cpuCount ▸ hc)

/-- As many instructions as CPUs are one tick. -/
theorem advanceGuestTime_ticks {s : Soc} {n : Nat} (h0 : 0 < n) (hn : n < 2 ^ 64)
    (hf : s.InFormat) :
    (s.advanceGuestTime n n).guestTimeTicks.toNat = s.guestTimeTicks.toNat + 1 := by
  have hne : ¬ (n = 0 ∨ n = 0) := by omega
  have hval : (BitVec.ofNat 64 n).toNat = n := by rw [BitVec.toNat_ofNat, Nat.mod_eq_of_lt hn]
  have hdiv : BitVec.ofNat 64 n / BitVec.ofNat 64 n = (1 : U64) := by
    apply BitVec.eq_of_toNat_eq
    rw [BitVec.toNat_udiv, hval, Nat.div_self h0]
    rfl
  have hmod : BitVec.ofNat 64 n % BitVec.ofNat 64 n = (0 : U64) := by
    apply BitVec.eq_of_toNat_eq
    rw [BitVec.toNat_umod, hval, Nat.mod_self]
    rfl
  have hzero : (0 : U64) * kGuestTimeFracOne / BitVec.ofNat 64 n = 0 := by
    rw [zero_mul]
    exact BitVec.zero_udiv
  have hone : kGuestTimeFracOne.toNat = 2 ^ 16 := by decide
  unfold InFormat at hf
  rw [guestTimeTicks_toNat] at hf ⊢
  rw [guestTimeTicks_toNat]
  unfold advanceGuestTime
  rw [if_neg hne]
  dsimp only
  rw [hdiv, hmod, hzero, one_mul, add_zero, BitVec.toNat_add, hone]
  have hfp := s.guestTimeFp.isLt
  omega

theorem advanceGuestTime_fp (s : Soc) (n m : Nat) :
    ∃ fp, s.advanceGuestTime n m = { s with guestTimeFp := fp } := by
  unfold advanceGuestTime
  split
  · exact ⟨s.guestTimeFp, rfl⟩
  · exact ⟨_, rfl⟩

/-- A tick of the window, which ends with `s'` before the time is advanced. -/
theorem Scheduled.advance {s : Soc} (h : Scheduled s) {n : Nat} (h0 : 0 < n) (hn : n < 2 ^ 64)
    (hf : s.InFormat) : Scheduled (s.advanceGuestTime n n) := by
  have hticks := advanceGuestTime_ticks h0 hn hf
  obtain ⟨fp, hfp⟩ := s.advanceGuestTime_fp n n
  rw [hfp] at hticks ⊢
  refine ⟨h.schedulerMode, h.gicCpus, h.cpuCount_lt, h.recorded, h.current, fun hv hd => ?_⟩
  obtain ⟨steps, hle, he⟩ := h.event hv hd
  exact ⟨steps, by rw [hticks]; omega, he⟩

theorem CalmFor.advance {s : Soc} {n m : Nat} (h : CalmFor s (n + 1)) (h0 : 0 < m)
    (hm : m < 2 ^ 64) (hf : s.InFormat) : CalmFor (s.advanceGuestTime m m) n := by
  have hticks := advanceGuestTime_ticks h0 hm hf
  obtain ⟨fp, hfp⟩ := s.advanceGuestTime_fp m m
  rw [hfp] at hticks ⊢
  intro d hd hformat k cpu hc
  rw [hticks, Nat.add_assoc, Nat.add_comm 1 d] at hformat ⊢
  exact h (d + 1) (by omega) hformat k cpu hc

theorem advanceGuestTime_dirty' (s : Soc) (n m : Nat) :
    (s.advanceGuestTime n m).deviceScheduleDirty = s.deviceScheduleDirty := by
  unfold advanceGuestTime
  split_ifs <;> rfl

end Soc

namespace RunState

open Soc

/-- What a piece of a window of `n` ticks does, given whether the lines stay calm for all of
them. -/
structure OnTimeChunk (n : Nat) (calm : Prop) (c : Chunk) : Prop where
  left : Scheduled c.run.soc
  starts : calm → ∀ s ∈ c.starts, s.LinesOnTime
  calm : calm → c.run.soc.deviceScheduleDirty = false →
    CalmFor c.run.soc (n - c.starts.length)

theorem OnTimeChunk.of_calm {n : Nat} {calm calm' : Prop} {c : Chunk} (h : OnTimeChunk n calm c)
    (hc : calm' → calm) : OnTimeChunk n calm' c :=
  ⟨h.left, fun hc' => h.starts (hc hc'), fun hc' => h.calm (hc hc')⟩

/-- The state after one tick of a window. -/
structure Ticked (n : Nat) (s s' : Soc) : Prop where
  scheduled : Scheduled s'
  calm : CalmFor s (n + 1) → s'.deviceScheduleDirty = false → CalmFor s' n

theorem ticked_of_kept {n m : Nat} {s s' : Soc} (hk : Kept s s') (hs : Scheduled s)
    (hf : s.InFormat) (h0 : 0 < m) (hm : m < 2 ^ 64) :
    Ticked n s (s'.advanceGuestTime m m) := by
  have hf' : s'.InFormat := by
    unfold InFormat
    rw [hk.board.guestTimeTicks]
    exact hf
  refine ⟨(hk.scheduled hs).advance h0 hm hf', fun hc hd => ?_⟩
  rw [advanceGuestTime_dirty'] at hd
  exact ((hk.untouched hd).calmFor hk.board (Nat.le_refl _) hc).advance h0 hm hf'

theorem ticked_stepTick (inp : Inputs) (i : Nat) {n : Nat} {x : RunState} (hs : Scheduled x.soc)
    (hf : x.soc.InFormat) :
    Ticked n x.soc (x.stepTick inp i).2.soc :=
  ticked_of_kept (kept_stepCpu x.soc i (inp.insns x.steps)) hs hf Nat.one_pos (by omega)

theorem Ticked.stop {n : Nat} {s s' : Soc} (h : Ticked n s s') (stopRequested : Bool) :
    Ticked n s { s' with stopRequested := stopRequested } := by
  have hk := silent_stop s' stopRequested
  refine ⟨hk.kept.scheduled h.scheduled, fun hc hd => ?_⟩
  exact hk.untouched.calmFor hk.board (Nat.le_refl n) (h.calm hc hd)

/-- A chunk that executes nothing. -/
theorem OnTimeChunk.none {n : Nat} {s : Soc} {x : RunState} {e : ChunkEnd} (hs : Scheduled s)
    (hk : Kept s x.soc) : OnTimeChunk n (CalmFor s n) ⟨[], x, e⟩ := by
  refine ⟨hk.scheduled hs, fun _ _ h => absurd h List.not_mem_nil, fun hc hd => ?_⟩
  exact (hk.untouched hd).calmFor hk.board (Nat.sub_le n 0) hc

/-- A chunk that ends after its first tick. -/
theorem OnTimeChunk.one {n : Nat} {s : Soc} {x : RunState} {e : ChunkEnd} (hs : Scheduled s)
    (ht : Ticked n s x.soc) : OnTimeChunk (n + 1) (CalmFor s (n + 1)) ⟨[s], x, e⟩ := by
  refine ⟨ht.scheduled, fun hc s' hs' => ?_, fun hc hd => ?_⟩
  · rw [List.mem_singleton.1 hs']
    exact hs.linesOnTime hc.due
  · rw [List.length_singleton, Nat.add_sub_cancel]
    exact ht.calm hc hd

/-- A chunk that goes on after its first tick. -/
theorem OnTimeChunk.cons {n : Nat} {s s' : Soc} {c : Chunk} (hs : Scheduled s) (ht : Ticked n s s')
    (hd : s'.deviceScheduleDirty = false) (hrest : OnTimeChunk n (CalmFor s' n) c) :
    OnTimeChunk (n + 1) (CalmFor s (n + 1)) { c with starts := s :: c.starts } := by
  refine ⟨hrest.left, fun hc s₁ hs₁ => ?_, fun hc hd' => ?_⟩
  · rcases List.mem_cons.1 hs₁ with rfl | hs₁
    · exact hs.linesOnTime hc.due
    · exact hrest.starts (ht.calm hc hd) s₁ hs₁
  · rw [List.length_cons, Nat.add_sub_add_right]
    exact hrest.calm (ht.calm hc hd) hd'

theorem singleChunk_onTime (inp : Inputs) (n : Nat) {x : RunState} (hs : Scheduled x.soc)
    (hf : ∀ s ∈ (singleChunk inp n x).starts, s.InFormat) :
    OnTimeChunk n (CalmFor x.soc n) (singleChunk inp n x) := by
  induction n generalizing x with
  | zero => exact .none hs (.refl _)
  | succ n ih =>
    unfold singleChunk at hf ⊢
    dsimp only at hf ⊢
    split_ifs at hf ⊢ with _ _ _ hdirty
    · exact .one hs ((ticked_stepTick inp 0 hs (hf _ List.mem_cons_self)).stop true)
    · exact .one hs (ticked_stepTick inp 0 hs (hf _ List.mem_cons_self))
    · exact .one hs (ticked_stepTick inp 0 hs (hf _ List.mem_cons_self))
    · exact .one hs (ticked_stepTick inp 0 hs (hf _ List.mem_cons_self))
    · rw [Bool.not_eq_true] at hdirty
      have ht := ticked_stepTick inp 0 (n := n) hs (hf _ List.mem_cons_self)
      exact .cons hs ht hdirty (ih ht.scheduled fun s h => hf s (List.mem_cons_of_mem _ h))

theorem soleChunk_onTime (inp : Inputs) (i : Nat) (waitingIrqPeer : Bool) (gicEpochBefore n : Nat)
    {x : RunState} (hs : Scheduled x.soc)
    (hf : ∀ s ∈ (soleChunk inp i waitingIrqPeer gicEpochBefore n x).starts, s.InFormat) :
    OnTimeChunk n (CalmFor x.soc n) (soleChunk inp i waitingIrqPeer gicEpochBefore n x) := by
  induction n generalizing x with
  | zero => exact .none hs (.refl _)
  | succ n ih =>
    unfold soleChunk at hf ⊢
    dsimp only at hf ⊢
    split_ifs at hf ⊢ with _ _ _ hflag
    · exact .one hs (ticked_stepTick inp i hs (hf _ List.mem_cons_self))
    · exact .one hs (ticked_stepTick inp i hs (hf _ List.mem_cons_self))
    · exact .one hs (ticked_stepTick inp i hs (hf _ List.mem_cons_self))
    · exact .one hs (ticked_stepTick inp i hs (hf _ List.mem_cons_self))
    · exact .one hs (ticked_stepTick inp i hs (hf _ List.mem_cons_self))
    · have ht := ticked_stepTick inp i (n := n) hs (hf _ List.mem_cons_self)
      have hdirty : (x.stepTick inp i).2.soc.deviceScheduleDirty = false := by
        unfold flagged at hflag
        simp only [Bool.or_eq_true, not_or, Bool.not_eq_true] at hflag
        exact hflag.1.1
      exact .cons hs ht hdirty (ih ht.scheduled fun s h => hf s (List.mem_cons_of_mem _ h))

/-- What a whole window does. -/
structure OnTimeWindow (calm : Prop) (c : Chunk) : Prop where
  left : Scheduled c.run.soc
  starts : calm → ∀ s ∈ c.starts, s.LinesOnTime

theorem OnTimeChunk.toWindow {n : Nat} {calm : Prop} {c : Chunk} (h : OnTimeChunk n calm c)
    (e : ChunkEnd) : OnTimeWindow calm { c with ending := e } :=
  ⟨h.left, h.starts⟩

theorem windowLoop_onTime {chunk : Nat → RunState → Chunk} {done : Soc → Bool}
    (hchunk : ∀ n (x : RunState), Scheduled x.soc → (∀ s ∈ (chunk n x).starts, s.InFormat) →
      OnTimeChunk n (CalmFor x.soc n) (chunk n x))
    (hdone : ∀ s, done s = false → s.deviceScheduleDirty = false) (fuel window : Nat)
    {x : RunState} (hs : Scheduled x.soc)
    (hf : ∀ s ∈ (windowLoop chunk done fuel window x).starts, s.InFormat) :
    OnTimeWindow (CalmFor x.soc window) (windowLoop chunk done fuel window x) := by
  induction fuel generalizing window x with
  | zero => exact ⟨hs, fun _ _ h => absurd h List.not_mem_nil⟩
  | succ fuel ih =>
    unfold windowLoop at hf ⊢
    dsimp only at hf ⊢
    by_cases hstop : window = 0 ∨ x.remaining = 0 ∨ x.soc.stopRequested = true
    · rw [if_pos hstop]
      exact ⟨hs, fun _ _ h => absurd h List.not_mem_nil⟩
    · rw [if_neg hstop] at hf ⊢
      split at hf
      · exact (hchunk window x hs hf).toWindow _
      · split_ifs at hf ⊢ with hd
        · exact (hchunk window x hs hf).toWindow _
        · have hc := hchunk window x hs fun s h => hf s (List.mem_append_left _ h)
          have hdirty : (chunk window x).run.soc.deviceScheduleDirty = false := by
            rw [Bool.or_eq_true, not_or, Bool.not_eq_true] at hd
            exact hdone _ hd.1
          have hrest := ih (window - (chunk window x).starts.length) hc.left
            fun s h => hf s (List.mem_append_right _ h)
          refine ⟨hrest.left, fun hcalm s hmem => ?_⟩
          rcases List.mem_append.1 hmem with hmem | hmem
          · exact hc.starts hcalm s hmem
          · exact hrest.starts (hc.calm hcalm hdirty) s hmem

theorem singleWindow_onTime (inp : Inputs) (window : Nat) {x : RunState} (hs : Scheduled x.soc)
    (hf : ∀ s ∈ (singleWindow inp window x).starts, s.InFormat) :
    OnTimeWindow (CalmFor x.soc window) (singleWindow inp window x) :=
  windowLoop_onTime (fun n _ hs hf => singleChunk_onTime inp n hs hf) (fun _ h => h) window window
    hs hf

theorem soleWindow_onTime (inp : Inputs) (i window : Nat) {z : RunState}
    (hs : Scheduled z.soc) (hf : ∀ s ∈ (soleWindow inp i window z).starts, s.InFormat) :
    OnTimeWindow (CalmFor z.soc window) (soleWindow inp i window z) := by
  refine windowLoop_onTime (fun n x hs hf => ?_) (fun s h => ?_) window window hs hf
  · have hk := silent_runnable x.soc false
    have hchunk := soleChunk_onTime inp i (z.soc.anyOtherCpuWaitingForInterrupt i)
      x.soc.gic.stateEpoch n (x := x.setSoc { x.soc with runnableStateDirty := false })
      (hk.kept.scheduled hs) hf
    exact hchunk.of_calm (hk.untouched.calmFor hk.board (Nat.le_refl n))
  · unfold flagged at h
    simp only [Bool.or_eq_false_iff] at h
    exact h.1.1.1

/-! ## Rounds -/

/-- What a round has done so far: as many instructions as CPUs. -/
structure InRound (x : RunState) (r : RoundState) (cpus : Nat) : Prop where
  kept : Kept x.soc r.run.soc
  count : r.executedInRound = r.roundActiveCpuCount
  le : r.roundActiveCpuCount ≤ cpus

theorem inRound_step (inp : Inputs) (fallback : Bool) {x : RunState} {r : RoundState} {n : Nat}
    (h : InRound x r n) (i : Nat) : InRound x (roundCpu inp fallback r i) (n + 1) := by
  have hle : r.roundActiveCpuCount ≤ n + 1 := Nat.le_succ_of_le h.le
  have hready : Kept r.run.soc
      (if fallback then (true, r.run.soc) else r.run.soc.readyToRun i).2 := by
    split
    · exact .refl _
    · exact (silent_readyToRun _ i).kept
  unfold roundCpu
  dsimp only
  generalize (if fallback then (true, r.run.soc) else r.run.soc.readyToRun i) = ready at hready ⊢
  split_ifs
  · exact ⟨h.kept, h.count, hle⟩
  · exact ⟨h.kept, h.count, hle⟩
  · exact ⟨h.kept.trans hready, h.count, hle⟩
  · refine ⟨(h.kept.trans hready).trans (kept_stepCpu _ i _), ?_, ?_⟩
    · exact congrArg (· + 1) h.count
    · exact Nat.succ_le_succ h.le

theorem inRound_runRound (inp : Inputs) (fallback : Bool) (x : RunState) :
    InRound x (x.runRound inp fallback) x.soc.cpuCount := by
  have hfold : ∀ (is : List Nat) (r : RoundState) (n : Nat), InRound x r n →
      InRound x (is.foldl (roundCpu inp fallback) r) (n + is.length) := by
    intro is
    induction is with
    | nil => exact fun r n h => h
    | cons i is ih =>
      intro r n h
      have hrest := ih (roundCpu inp fallback r i) (n + 1) (inRound_step inp fallback h i)
      rw [List.length_cons, Nat.add_comm is.length 1, ← Nat.add_assoc]
      exact hrest
  have h := hfold (List.range x.soc.cpuCount) ⟨x, 0, 0, false⟩ 0 ⟨.refl _, rfl, Nat.le_refl _⟩
  rwa [List.length_range, Nat.zero_add] at h

theorem rounds_onTime (inp : Inputs) (fallback : Bool) (n : Nat) {x : RunState}
    (hs : Scheduled x.soc) (hf : ∀ s ∈ (rounds inp fallback n x).starts, s.InFormat) :
    OnTimeChunk n (CalmFor x.soc n) (rounds inp fallback n x) := by
  induction n generalizing x with
  | zero => exact .none hs (.refl _)
  | succ n ih =>
    have hr := inRound_runRound inp fallback x
    have hboard := hr.kept.board
    unfold rounds at hf ⊢
    dsimp only at hf ⊢
    by_cases hstop : x.remaining = 0 ∨ x.soc.stopRequested = true
    · rw [if_pos hstop]
      exact .none hs (.refl _)
    · rw [if_neg hstop] at hf ⊢
      by_cases hfail : (x.runRound inp fallback).failed = true
      · rw [if_pos hfail]
        refine .one hs ⟨hr.kept.scheduled hs, fun hc hd => ?_⟩
        exact (hr.kept.untouched hd).calmFor hboard (Nat.le_succ n) hc
      · rw [if_neg hfail] at hf ⊢
        by_cases hnone : (x.runRound inp fallback).roundActiveCpuCount = 0
        · rw [if_pos hnone]
          have hk := (hr.kept.trans (silent_inspectCpuDispatchState _).kept).trans
            (Silent.kept (silent_stop _
            ((x.runRound inp fallback).run.soc.inspectCpuDispatchState.2.stopRequested ||
              (x.runRound inp fallback).run.soc.inspectCpuDispatchState.1.allPoweredOnHalted)))
          exact .none hs hk
        · rw [if_neg hnone] at hf ⊢
          have hlt := hs.cpuCount_lt
          have hle := hr.le
          have ht :
            x.soc.InFormat → Ticked n x.soc ((x.runRound inp fallback).run.soc.advanceGuestTime
              (x.runRound inp fallback).executedInRound
              (x.runRound inp fallback).roundActiveCpuCount) := by
            rw [hr.count]
            exact fun hf => ticked_of_kept hr.kept hs hf (Nat.pos_of_ne_zero hnone) (by omega)
          generalize (x.runRound inp fallback).run.soc.advanceGuestTime
              (x.runRound inp fallback).executedInRound
              (x.runRound inp fallback).roundActiveCpuCount = s' at hf ht ⊢
          split_ifs at hf ⊢ with hdirty
          · exact .one hs (ht (hf _ List.mem_cons_self))
          · rw [Bool.not_eq_true] at hdirty
            have ht := ht (hf _ List.mem_cons_self)
            exact .cons hs ht hdirty (ih (x := (x.runRound inp fallback).run.setSoc s') ht.scheduled
              fun s h => hf s (List.mem_cons_of_mem _ h))

end RunState

/-! ## Windows and their deadlines -/

namespace OpenWindow

/-- A window that is opened without the deadline in view is over when the next timer event comes. -/
def EndsByDeadline (w : OpenWindow) : Prop :=
  w.deadlineSensitive = false → (w.soc.queryDeviceEvent w.soc.guestTimeTicks).1.all
    (fun event => w.soc.guestTimeTicks.toNat + w.length ≤ event.toNat) = true

instance (w : OpenWindow) : Decidable w.EndsByDeadline :=
  inferInstanceAs (Decidable (_ = false → _ = true))

end OpenWindow

namespace Soc

/-- A window with the deadline in view is over when the event comes, or is a single tick. -/
theorem computeRunWindow_le {s : Soc} (hm : s.schedulerMode = .eventDriven)
    (budget cpuDivisor : Nat)
    {event : U64} (he : (s.queryDeviceEvent s.guestTimeTicks).1 = some event) :
    (s.computeRunWindow budget cpuDivisor true s.guestTimeTicks).1 = 1 ∨
      s.guestTimeTicks.toNat + (s.computeRunWindow budget cpuDivisor true s.guestTimeTicks).1 ≤
        event.toNat := by
  unfold computeRunWindow
  rw [if_neg (by rw [hm]; exact SchedulerMode.noConfusion)]
  dsimp only
  rw [if_neg (by decide), he]
  dsimp only
  by_cases hle : event ≤ s.guestTimeTicks
  · rw [if_pos hle]
    exact .inl rfl
  · rw [if_neg hle]
    have hlt := BitVec.lt_def.1 (BitVec.not_le.1 hle)
    have hsub : (event - s.guestTimeTicks).toNat = event.toNat - s.guestTimeTicks.toNat :=
      BitVec.toNat_sub_of_le (BitVec.le_of_lt (BitVec.not_le.1 hle))
    rw [hsub]
    dsimp only
    omega

/-- Opening a window leaves the lines as they are, and calm until it ends. -/
theorem calmFor_window {s : Soc} (hs : Scheduled s) (hd : Due s) (budget cpuDivisor : Nat)
    (sensitive : Bool) :
    let window := s.computeRunWindow budget cpuDivisor sensitive s.guestTimeTicks
    Scheduled window.2 ∧ (OpenWindow.EndsByDeadline ⟨s, sensitive, window.1⟩ →
      CalmFor window.2 window.1) := by
  have hq := hs.query
  have hsoc := s.computeRunWindow_soc budget cpuDivisor sensitive s.guestTimeTicks
  dsimp only
  generalize hw : s.computeRunWindow budget cpuDivisor sensitive s.guestTimeTicks = window
    at hsoc
  have hsame : Scheduled window.2 ∧ SameBoard s window.2 ∧ window.2.timer = s.timer ∧
      ∀ k cpu, window.2.lineVisible k cpu = s.lineVisible k cpu := by
    rcases hsoc with he | he
    · rw [he]
      exact ⟨hs, .refl s, rfl, fun _ _ => rfl⟩
    · rw [he]
      exact ⟨hq.scheduled, hq.board, hq.timer, hq.lineVisible⟩
  obtain ⟨hsch, hboard, htimer, hvis⟩ := hsame
  refine ⟨hsch, fun hend => ?_⟩
  intro d hlt hformat k cpu hc
  have hc' : cpu < s.cpuCount := hboard.cpuCount ▸ hc
  rw [hboard.guestTimeTicks] at hformat ⊢
  rw [htimer, hvis]
  -- the first tick is the one the lines are due at
  by_cases hd0 : d = 0
  · rw [hd0, Nat.add_zero, ofNat_guestTimeTicks]
    exact hd k cpu hc'
  · have hbefore :
      s.guestTimeTicks.toNat + d < eventTick (s.queryDeviceEvent s.guestTimeTicks).1 := by
      cases he : (s.queryDeviceEvent s.guestTimeTicks).1 with
      | none => exact hformat
      | some event =>
        refine Nat.lt_of_lt_of_le (Nat.add_lt_add_left hlt _) ?_
        cases sensitive with
        | false =>
          have hall := hend rfl
          rw [he] at hall
          exact of_decide_eq_true hall
        | true =>
          have hle := computeRunWindow_le hs.schedulerMode budget cpuDivisor he
          rw [hw] at hle
          rcases hle with h1 | hle
          · omega
          · exact hle
    have hnow := hq.low (Nat.le_refl _) (by omega) (by omega) k cpu
    have hlater := @Queried.low _ _ _ hq (s.guestTimeTicks.toNat + d) (by omega) (by omega)
      (by omega) k cpu
    rw [ofNat_guestTimeTicks] at hnow
    rw [hlater.1, ← hd k cpu hc', hnow.1]

theorem Scheduled.forwardTo {s : Soc} (h : Scheduled s) (event : U64) (poll : Option NetPoll) :
    Scheduled (s.forwardTo event poll) ∧ Due (s.forwardTo event poll) := by
  unfold Soc.forwardTo
  generalize ha : s.advanceGuestTimeTo event = a
  have hfields : a.cpuCount = s.cpuCount ∧ a.gic = s.gic ∧ a.schedulerMode = s.schedulerMode := by
    subst ha
    unfold advanceGuestTimeTo
    split <;> exact ⟨rfl, rfl, rfl⟩
  obtain ⟨hn, hg, hm⟩ := hfields
  refine syncDevices_scheduled ?_ ?_ ?_ (fun hv => ?_) poll
  · exact hm.trans h.schedulerMode
  · show a.gic.cpuCount = a.cpuCount
    rw [hg, hn, h.gicCpus]
  · show a.cpuCount < 2 ^ 64
    rw [hn]
    exact h.cpuCount_lt
  · cases hv

theorem Scheduled.fastForward {s : Soc} (h : Scheduled s) (hd : Due s) (poll : Option NetPoll) :
    Scheduled (s.fastForwardToNextGuestEvent poll).2 ∧
      Due (s.fastForwardToNextGuestEvent poll).2 := by
  have hq := h.query
  unfold fastForwardToNextGuestEvent
  rw [if_neg (by rw [h.schedulerMode]; exact SchedulerMode.noConfusion)]
  dsimp only
  cases he : (s.queryDeviceEvent s.guestTimeTicks).1 with
  | none => exact ⟨hq.scheduled, hq.due hd⟩
  | some event =>
    dsimp only
    by_cases hle : event ≤ s.guestTimeTicks
    · rw [if_pos hle]
      exact ⟨hq.scheduled, hq.due hd⟩
    · rw [if_neg hle]
      exact hq.scheduled.forwardTo event poll

end Soc

namespace RunState

open Soc

/-! ## Laps -/

/-- What a lap does whose window keeps guest time in format. -/
structure OnTimeLap (l : Lap) : Prop where
  left : Scheduled l.run.soc
  starts : (∀ w ∈ l.trace.windows, w.EndsByDeadline) → ∀ s ∈ l.trace.starts, s.LinesOnTime

theorem OnTimeWindow.toLap {calm : Prop} {c : Chunk} {w : OpenWindow} (h : OnTimeWindow calm c)
    (hcalm : w.EndsByDeadline → calm) : OnTimeLap (c.toLap w) :=
  ⟨h.left, fun hw => h.starts (hcalm (hw w List.mem_cons_self))⟩

theorem onTimeLap_idle {x : RunState} (h : Scheduled x.soc) (e : LapEnd) : OnTimeLap (.idle x e) :=
  ⟨h, fun _ _ hs => absurd hs List.not_mem_nil⟩

theorem needed_ticks (s : Soc) : s.guestTimeTicks = s.deadlineDrivenWindowNeeded.2.guestTimeTicks :=
  (sameTime_deadlineDrivenWindowNeeded s).guestTimeTicks.symm

theorem openSingleWindow_onTime (inp : Inputs) {x : RunState} (hs : Scheduled x.soc)
    (hd : Due x.soc) (hf : ∀ s ∈ (x.openSingleWindow inp).trace.starts, s.InFormat) :
    OnTimeLap (x.openSingleWindow inp) := by
  have hw := calmFor_window hs.needed_scheduled (hs.needed_due hd) x.remaining 1
    x.soc.deadlineDrivenWindowNeeded.1
  unfold openSingleWindow at hf ⊢
  dsimp only at hf ⊢ hw
  rw [needed_ticks x.soc] at hf ⊢
  exact (singleWindow_onTime inp _ (x := x.setSoc _) hw.1 hf).toLap hw.2

theorem openSoleWindow_onTime (inp : Inputs) (i : Nat) {x : RunState} (hs : Scheduled x.soc)
    (hd : Due x.soc) (hf : ∀ s ∈ (x.openSoleWindow inp i).trace.starts, s.InFormat) :
    OnTimeLap (x.openSoleWindow inp i) := by
  have hw := calmFor_window hs hd x.remaining 1 true
  exact (soleWindow_onTime inp i _ (z := x.setSoc _) hw.1 hf).toLap hw.2

theorem openRounds_onTime (inp : Inputs) (runnableCpus : Nat) (fallback : Bool) {x : RunState}
    (hs : Scheduled x.soc) (hd : Due x.soc)
    (hf : ∀ s ∈ (x.openRounds inp runnableCpus fallback).trace.starts, s.InFormat) :
    OnTimeLap (x.openRounds inp runnableCpus fallback) := by
  have hw := calmFor_window hs.needed_scheduled (hs.needed_due hd) x.remaining runnableCpus
    x.soc.deadlineDrivenWindowNeeded.1
  unfold openRounds at hf ⊢
  dsimp only at hf ⊢ hw
  rw [needed_ticks x.soc] at hf ⊢
  have hrounds := rounds_onTime inp fallback _ (x := x.setSoc _) hw.1 hf
  exact OnTimeWindow.toLap ⟨hrounds.left, hrounds.starts⟩ hw.2

theorem stopIf_onTime (halted : Bool) {x : RunState} (hs : Scheduled x.soc) :
    OnTimeLap (x.stopIf halted) := by
  have h := (silent_stop x.soc (x.soc.stopRequested || halted)).kept.scheduled hs
  exact onTimeLap_idle (x := x.setSoc _) h .done

theorem runnableLap_onTime (inp : Inputs) (dispatch : CpuDispatchState) (runnableCpus : Nat)
    (fallback : Bool) {x : RunState} (hs : Scheduled x.soc) (hd : Due x.soc)
    (hf : ∀ s ∈ (x.runnableLap inp dispatch runnableCpus fallback).trace.starts, s.InFormat) :
    OnTimeLap (x.runnableLap inp dispatch runnableCpus fallback) := by
  unfold runnableLap at hf ⊢
  by_cases hzero : runnableCpus = 0
  · rw [if_pos hzero]
    exact stopIf_onTime _ hs
  · rw [if_neg hzero] at hf ⊢
    cases hfirst : dispatch.firstRunnableCpu with
    | none =>
      rw [hfirst] at hf
      exact openRounds_onTime inp _ _ hs hd hf
    | some i =>
      rw [hfirst] at hf
      dsimp only at hf ⊢
      split_ifs at hf ⊢
      · exact openSoleWindow_onTime inp i hs hd hf
      · exact openRounds_onTime inp _ _ hs hd hf

/-! The steps of a lap before its window. -/

/-- The lines are up to date at this point of a lap. -/
structure Synced (x : RunState) : Prop where
  scheduled : Scheduled x.soc
  due : Due x.soc

theorem synced_maybeSyncDevices (inp : Inputs) {x : RunState} (hs : Scheduled x.soc) :
    Synced (x.maybeSyncDevices inp) :=
  have h := hs.maybeSyncDevices (x.poll inp)
  ⟨h.1, h.2⟩

theorem Synced.syncDevices (inp : Inputs) {x : RunState} (h : Synced x) :
    Synced (x.syncDevices inp) :=
  have h := h.scheduled.syncDevices (x.poll inp)
  ⟨h.1, h.2⟩

theorem Synced.fastForward (inp : Inputs) {x : RunState} (h : Synced x) :
    Synced (x.fastForward inp).2 :=
  have h := h.scheduled.fastForward h.due (x.poll inp)
  ⟨h.1, h.2⟩

theorem Synced.silent {x : RunState} (h : Synced x) {s : Soc} (hs : Silent x.soc s) :
    Synced (x.setSoc s) :=
  ⟨hs.kept.scheduled h.scheduled, hs.due h.due⟩

theorem singleLap_onTime (inp : Inputs) {x : RunState} (hs : Scheduled x.soc)
    (hf : ∀ s ∈ (x.singleLap inp).trace.starts, s.InFormat) : OnTimeLap (x.singleLap inp) := by
  have hready := (synced_maybeSyncDevices inp hs).silent (silent_readyToRun _ 0)
  unfold singleLap at hf ⊢
  dsimp only at hf ⊢
  generalize (x.maybeSyncDevices inp).soc.readyToRun 0 = ready at hf hready ⊢
  generalize (x.maybeSyncDevices inp).setSoc ready.2 = x₁ at hf hready ⊢
  have hforward := hready.fastForward inp
  generalize x₁.fastForward inp = forwarded at hf hforward ⊢
  have hpolled := (hforward.syncDevices inp).silent (silent_readyToRun _ 0)
  generalize (forwarded.2.syncDevices inp).soc.readyToRun 0 = ready' at hf hpolled ⊢
  generalize (forwarded.2.syncDevices inp).setSoc ready'.2 = x₂ at hf hpolled ⊢
  split_ifs at hf ⊢
  · exact openSingleWindow_onTime inp hready.scheduled hready.due hf
  · exact onTimeLap_idle hforward.scheduled .again
  · exact openSingleWindow_onTime inp hpolled.scheduled hpolled.due hf
  · exact onTimeLap_idle hpolled.scheduled .again
  · exact openSingleWindow_onTime inp hforward.scheduled hforward.due hf

theorem multiLap_onTime (inp : Inputs) {x : RunState} (hs : Scheduled x.soc)
    (hf : ∀ s ∈ (x.multiLap inp).trace.starts, s.InFormat) : OnTimeLap (x.multiLap inp) := by
  have hinspect := (synced_maybeSyncDevices inp hs).silent (silent_inspectCpuDispatchState _)
  unfold multiLap at hf ⊢
  dsimp only at hf ⊢
  generalize (x.maybeSyncDevices inp).soc.inspectCpuDispatchState = dispatch at hf hinspect ⊢
  generalize (x.maybeSyncDevices inp).setSoc dispatch.2 = x₁ at hf hinspect ⊢
  have hforward := hinspect.fastForward inp
  generalize x₁.fastForward inp = forwarded at hf hforward ⊢
  have hpolled := (hforward.syncDevices inp).silent (silent_inspectCpuDispatchState _)
  generalize (forwarded.2.syncDevices inp).soc.inspectCpuDispatchState = waited at hf hpolled ⊢
  generalize (forwarded.2.syncDevices inp).setSoc waited.2 = x₂ at hf hpolled ⊢
  split_ifs at hf ⊢
  · exact runnableLap_onTime inp _ _ _ hinspect.scheduled hinspect.due hf
  · exact stopIf_onTime _ hinspect.scheduled
  · exact onTimeLap_idle hforward.scheduled .again
  · exact runnableLap_onTime inp _ _ _ hpolled.scheduled hpolled.due hf
  · exact stopIf_onTime _ hpolled.scheduled
  · exact stopIf_onTime _ hpolled.scheduled
  · exact onTimeLap_idle hpolled.scheduled .again
  · exact runnableLap_onTime inp _ _ _ hforward.scheduled hforward.due hf

/-- A lap keeps the invariant, and each tick it starts finds the lines on time if its window ends
by the deadline. -/
theorem lap_onTime (inp : Inputs) {x : RunState} (hs : Scheduled x.soc)
    (hf : ∀ s ∈ (x.lap inp).trace.starts, s.InFormat) : OnTimeLap (x.lap inp) := by
  unfold lap at hf ⊢
  split_ifs at hf ⊢
  · exact singleLap_onTime inp hs hf
  · exact multiLap_onTime inp hs hf

/-! ## Runs -/

/-- What a whole run does. -/
structure OnTimeRun (r : Trace × Option (RunState × Bool)) : Prop where
  left : ∀ out, r.2 = some out → Scheduled out.1.soc
  starts : (∀ w ∈ r.1.windows, w.EndsByDeadline) → ∀ s ∈ r.1.starts, s.LinesOnTime

theorem runLoop_onTime (inp : Inputs) (fuel : Nat) {x : RunState} (hs : Scheduled x.soc)
    (hf : ∀ s ∈ (runLoop inp fuel x).1.starts, s.InFormat) :
    OnTimeRun (runLoop inp fuel x) := by
  induction fuel generalizing x with
  | zero =>
    refine ⟨fun out h => ?_, fun _ _ h => absurd h List.not_mem_nil⟩
    cases h
  | succ fuel ih =>
    have hfinish : ∀ y : RunState, Scheduled y.soc → Scheduled (y.finish inp).1.soc :=
      fun y hy => (hy.syncDevices (y.poll inp)).1
    unfold runLoop at hf ⊢
    by_cases hstop : x.remaining = 0 ∨ x.soc.stopRequested = true
    · rw [if_pos hstop]
      refine ⟨?_, fun _ _ h => absurd h List.not_mem_nil⟩
      rintro out ⟨⟩
      exact hfinish x hs
    · rw [if_neg hstop] at hf ⊢
      dsimp only at hf ⊢
      cases hend : (x.lap inp).ending with
      | returned value =>
        rw [hend] at hf
        have hlap := lap_onTime inp hs hf
        refine ⟨?_, hlap.starts⟩
        rintro out ⟨⟩
        exact hlap.left
      | done =>
        rw [hend] at hf
        have hlap := lap_onTime inp hs hf
        refine ⟨?_, hlap.starts⟩
        rintro out ⟨⟩
        exact hfinish _ hlap.left
      | again =>
        rw [hend] at hf
        have hlap := lap_onTime inp hs fun s h => hf s (List.mem_append_left _ h)
        have hrest := ih hlap.left fun s h => hf s (List.mem_append_right _ h)
        refine ⟨hrest.left, fun hw s hmem => ?_⟩
        rcases List.mem_append.1 hmem with hmem | hmem
        · exact hlap.starts (fun w h => hw w (List.mem_append_left _ h)) s hmem
        · exact hrest.starts (fun w h => hw w (List.mem_append_right _ h)) s hmem

end RunState

namespace Soc

/-- The states in which `run` may be called. -/
inductive Reachable : Soc → Prop
  /-- after `reset`, a restored snapshot or an input -/
  | invalid {s : Soc} (schedulerMode : s.schedulerMode = .eventDriven)
      (gicCpus : s.gic.cpuCount = s.cpuCount) (cpuCount : s.cpuCount < 2 ^ 64)
      (syncValid : s.deviceSyncValid = false) (scheduleValid : s.deviceScheduleValid = false) :
      Reachable s
  /-- after a change from outside that is no business of the schedule -/
  | silent {s s' : Soc} : Reachable s → Silent s s' → Reachable s'
  | run {s : Soc} {inp : Inputs} {maxSteps fuel : Nat} {x : RunState} {value : Bool} :
      Reachable s → (∀ t ∈ (s.run inp maxSteps fuel).1.starts, t.InFormat) →
      (s.run inp maxSteps fuel).2 = some (x, value) → Reachable x.soc

theorem Reachable.scheduled {s : Soc} (h : Reachable s) : Scheduled s := by
  induction h with
  | invalid schedulerMode gicCpus cpuCount syncValid scheduleValid =>
    refine ⟨schedulerMode, gicCpus, cpuCount, fun hv => ?_, fun hv => ?_, fun hv => ?_⟩
    · rw [syncValid] at hv
      cases hv
    · rw [syncValid] at hv
      cases hv
    · rw [scheduleValid] at hv
      cases hv
  | silent _ hsilent ih => exact hsilent.kept.scheduled ih
  | run _ hf hrun ih => exact (RunState.runLoop_onTime _ _ ih hf).left _ hrun

theorem reachable_reset {cpuCount : Nat} (h : cpuCount < 2 ^ 64) (allStart : Bool)
    (entryPc timerTickScale : U64) :
    Reachable (reset cpuCount allStart entryPc timerTickScale .eventDriven) :=
  .invalid rfl rfl (by show max 1 cpuCount < 2 ^ 64; omega) rfl rfl

/-- At every tick of a run the GIC sees the timer lines that it would see if the devices were
synchronised at that tick, provided that each window opened without the deadline in view is over by
then. -/
theorem run_linesOnTime {s : Soc} (h : Reachable s) (inp : Inputs) (maxSteps fuel : Nat)
    (hf : ∀ t ∈ (s.run inp maxSteps fuel).1.starts, t.InFormat)
    (hw : ∀ w ∈ (s.run inp maxSteps fuel).1.windows, w.EndsByDeadline) :
    ∀ t ∈ (s.run inp maxSteps fuel).1.starts, t.LinesOnTime :=
  (RunState.runLoop_onTime inp fuel h.scheduled hf).starts hw

/-- A guest that enables its virtual timer and then computes. -/
def enableTimer (cval : U64) : Inputs where
  insns := fun k =>
    match k with
    | 0 => ⟨[.timerRegister .cntv .cval cval], true⟩
    | 1 => ⟨[.timerRegister .cntv .ctl 1], true⟩
    | _ => ⟨[], true⟩
  polls := fun _ => ⟨fun i => .reset i 0 0, false, false, false⟩

/-- What a machine with one CPU makes of it. -/
def enabledRun (cval : U64) (maxSteps : Nat) : Trace :=
  ((reset 1 true 0 1 .eventDriven).run (enableTimer cval) maxSteps maxSteps).1

/-- A deadline at tick 6 is in view at tick 2, so the window that opens there ends in time. -/
theorem deadline_in_view :
    (enabledRun 6 7).starts ≠ [] ∧ ∀ t ∈ (enabledRun 6 7).starts, t.LinesOnTime := by
  have hsome : (enabledRun 6 7).starts.length ≠ 0 := by decide +kernel
  have hformat : ∀ t ∈ (enabledRun 6 7).starts, t.InFormat := by decide +kernel
  have hwindows : ∀ w ∈ (enabledRun 6 7).windows, w.EndsByDeadline := by decide +kernel
  exact ⟨fun hnil => hsome (congrArg List.length hnil),
    run_linesOnTime (reachable_reset (by decide) true 0 1) (enableTimer 6) 7 7 hformat hwindows⟩

end Soc

namespace RunState

/-! Instructions that touch nothing. -/

def setTime (s : Soc) (fp : U64) : Soc := { s with guestTimeFp := fp }

theorem setTime_cpus (s : Soc) (fp : U64) : (setTime s fp).cpus = s.cpus := rfl

theorem setTime_stopRequested (s : Soc) (fp : U64) :
    (setTime s fp).stopRequested = s.stopRequested := rfl

theorem setTime_deviceScheduleDirty (s : Soc) (fp : U64) :
    (setTime s fp).deviceScheduleDirty = s.deviceScheduleDirty := rfl

theorem setTime_guestTimeFp (s : Soc) (fp : U64) : (setTime s fp).guestTimeFp = fp := rfl

theorem setTime_setTime (s : Soc) (fp fp' : U64) :
    setTime (setTime s fp) fp' = setTime s fp' := rfl

/-- The machine `k` ticks later. -/
def later (s : Soc) (k : Nat) : Soc :=
  setTime s (s.guestTimeFp + BitVec.ofNat 64 k * kGuestTimeFracOne)

theorem advanceGuestTime_one (s : Soc) : s.advanceGuestTime 1 1 = later s 1 := by
  have hwhole : BitVec.ofNat 64 1 / BitVec.ofNat 64 1 * kGuestTimeFracOne =
      BitVec.ofNat 64 1 * kGuestTimeFracOne := by decide
  have hrest :
    BitVec.ofNat 64 1 % BitVec.ofNat 64 1 * kGuestTimeFracOne / BitVec.ofNat 64 1 = 0 := by
    decide
  have hset : s.advanceGuestTime 1 1 = setTime s (s.guestTimeFp +
      BitVec.ofNat 64 1 / BitVec.ofNat 64 1 * kGuestTimeFracOne +
        BitVec.ofNat 64 1 % BitVec.ofNat 64 1 * kGuestTimeFracOne / BitVec.ofNat 64 1) := by
    unfold Soc.advanceGuestTime setTime
    rw [if_neg (by omega)]
  rw [hset, hwhole, hrest, add_zero]
  rfl

theorem later_later (s : Soc) (k : Nat) : later (later s 1) k = later s (k + 1) := by
  unfold later
  rw [setTime_setTime, setTime_guestTimeFp, BitVec.add_assoc, Nat.add_comm k 1, BitVec.ofNat_add,
    BitVec.add_mul]

theorem stepTick_plain {inp : Inputs} {x : RunState} (hplain : inp.insns x.steps = ⟨[], true⟩)
    (hhalted : (x.soc.cpus 0).halted = false) :
    x.stepTick inp 0 = (true, ⟨later x.soc 1, x.steps + 1, x.polls, x.remaining - 1⟩) := by
  unfold stepTick stepCpu Soc.stepCpu
  rw [if_neg (by rw [hhalted]; decide), hplain]
  dsimp only [List.foldl_nil, setSoc]
  rw [advanceGuestTime_one]

theorem later_mem_singleChunk {inp : Inputs} {n k : Nat} {x : RunState}
    (hplain : ∀ m, x.steps ≤ m → inp.insns m = ⟨[], true⟩)
    (hhalted : (x.soc.cpus 0).halted = false) (hstop : x.soc.stopRequested = false)
    (hdirty : x.soc.deviceScheduleDirty = false) (hk : k < n) :
    later x.soc k ∈ (singleChunk inp n x).starts := by
  induction n generalizing x k with
  | zero => exact absurd hk (Nat.not_lt_zero k)
  | succ n ih =>
    have hcpus : (later x.soc 1).cpus = x.soc.cpus := setTime_cpus _ _
    have hstop' : (later x.soc 1).stopRequested = false := (setTime_stopRequested _ _).trans hstop
    have hdirty' : (later x.soc 1).deviceScheduleDirty = false :=
      (setTime_deviceScheduleDirty _ _).trans hdirty
    have hnext := later_later x.soc
    have hstep := stepTick_plain (hplain x.steps (Nat.le_refl _)) hhalted
    generalize later x.soc 1 = s' at hcpus hstop' hdirty' hnext hstep
    unfold singleChunk
    rw [hstep]
    dsimp only
    rw [if_neg (by decide), if_neg (by rw [hstop']; decide), if_neg (by rw [hdirty']; decide)]
    cases k with
    | zero =>
      have h0 : later x.soc 0 = x.soc := by
        unfold later
        rw [show BitVec.ofNat 64 0 = 0 from rfl, zero_mul, add_zero]
        rfl
      rw [h0]
      exact List.mem_cons_self
    | succ k =>
      have hrest := ih (x := ⟨s', x.steps + 1, x.polls, x.remaining - 1⟩) (k := k)
        (fun m hm => hplain m (Nat.le_of_succ_le hm)) (by rw [hcpus]; exact hhalted) hstop' hdirty'
        (Nat.lt_of_succ_lt_succ hk)
      rw [hnext] at hrest
      exact List.mem_cons_of_mem _ hrest

theorem mem_singleWindow {inp : Inputs} {window : Nat} {x : RunState} {s : Soc}
    (h : ¬ (window = 0 ∨ x.remaining = 0 ∨ x.soc.stopRequested = true))
    (hs : s ∈ (singleChunk inp window x).starts) : s ∈ (singleWindow inp window x).starts := by
  obtain ⟨n, rfl⟩ := Nat.exists_eq_succ_of_ne_zero fun h0 => h (.inl h0)
  unfold singleWindow windowLoop
  rw [if_neg h]
  dsimp only
  split
  · exact hs
  · split_ifs
    · exact hs
    · exact List.mem_append_left _ hs

/-- The instructions of the only CPU, when it is ready. -/
theorem mem_singleLap {inp : Inputs} {x : RunState} {s : Soc} (hone : x.soc.cpuCount = 1)
    (hready : ((x.maybeSyncDevices inp).soc.readyToRun 0).1 = true)
    (hs : s ∈ (((x.maybeSyncDevices inp).setSoc
      ((x.maybeSyncDevices inp).soc.readyToRun 0).2).openSingleWindow inp).trace.starts) :
    s ∈ (x.lap inp).trace.starts := by
  unfold lap
  rw [if_pos hone]
  unfold singleLap
  dsimp only
  rw [if_pos hready]
  exact hs

theorem mem_runLoop_lap {inp : Inputs} {fuel : Nat} {x : RunState} {s : Soc}
    (h : ¬ (x.remaining = 0 ∨ x.soc.stopRequested = true)) (hs : s ∈ (x.lap inp).trace.starts) :
    s ∈ (runLoop inp (fuel + 1) x).1.starts := by
  unfold runLoop
  rw [if_neg h]
  dsimp only
  split
  · exact hs
  · exact hs
  · exact List.mem_append_left _ hs

theorem mem_runLoop_again {inp : Inputs} {fuel : Nat} {x : RunState} {s : Soc}
    (h : ¬ (x.remaining = 0 ∨ x.soc.stopRequested = true)) (hend : (x.lap inp).ending = .again)
    (hs : s ∈ (runLoop inp fuel (x.lap inp).run).1.starts) :
    s ∈ (runLoop inp (fuel + 1) x).1.starts := by
  unfold runLoop
  rw [if_neg h]
  dsimp only
  rw [hend]
  exact List.mem_append_right _ hs

end RunState

namespace Soc

open RunState

/-- The machine of `enabledRun 300 301` before its first lap. -/
def booted : RunState := ⟨reset 1 true 0 1 .eventDriven, 0, 0, 301⟩

/-- The machine before its third lap, with the timer enabled. -/
def armed : RunState := ((booted.lap (enableTimer 300)).run.lap (enableTimer 300)).run

/-- The machine when its third window is open. -/
def armedWindow : RunState :=
  let x := armed.maybeSyncDevices (enableTimer 300)
  let x := x.setSoc (x.soc.readyToRun 0).2
  let needed := x.soc.deadlineDrivenWindowNeeded
  x.setSoc (needed.2.computeRunWindow x.remaining 1 needed.1 x.soc.guestTimeTicks).2

/-- A deadline at tick 300 is not in view at tick 2. The window that opens there runs past it, and
at tick 300 the line is late. -/
theorem deadline_out_of_view :
    ∃ t ∈ (enabledRun 300 301).starts, t.guestTimeTicks = 300 ∧ ¬ t.LinesOnTime := by
  refine ⟨later armedWindow.soc 298, ?_, by decide +kernel, by decide +kernel⟩
  have hplain : ∀ m, armedWindow.steps ≤ m → (enableTimer 300).insns m = ⟨[], true⟩ := by
    have hsteps : armedWindow.steps = 2 := by decide +kernel
    intro m hm
    obtain ⟨k, rfl⟩ := Nat.exists_eq_add_of_le (hsteps ▸ hm)
    rw [Nat.add_comm]
    rfl
  have hchunk : later armedWindow.soc 298 ∈
      (singleChunk (enableTimer 300) 299 armedWindow).starts :=
    later_mem_singleChunk hplain (by decide +kernel) (by decide +kernel) (by decide +kernel)
      (by decide)
  have hlap : later armedWindow.soc 298 ∈ (armed.lap (enableTimer 300)).trace.starts := by
    refine mem_singleLap (by decide +kernel) (by decide +kernel) ?_
    generalize hx : (armed.maybeSyncDevices (enableTimer 300)).setSoc
      ((armed.maybeSyncDevices (enableTimer 300)).soc.readyToRun 0).2 = x
    unfold openSingleWindow
    dsimp only [Chunk.toLap]
    have hwindow : x.setSoc (x.soc.deadlineDrivenWindowNeeded.2.computeRunWindow x.remaining 1
        x.soc.deadlineDrivenWindowNeeded.1 x.soc.guestTimeTicks).2 = armedWindow := by
      rw [← hx]
      rfl
    have hlength : (x.soc.deadlineDrivenWindowNeeded.2.computeRunWindow x.remaining 1
        x.soc.deadlineDrivenWindowNeeded.1 x.soc.guestTimeTicks).1 = 299 := by
      rw [← hx]
      decide +kernel
    rw [hwindow, hlength]
    exact mem_singleWindow (by decide +kernel) hchunk
  have hrun : ∀ fuel, 3 ≤ fuel → later armedWindow.soc 298 ∈
      (runLoop (enableTimer 300) fuel booted).1.starts := by
    intro fuel hfuel
    obtain ⟨n, rfl⟩ := Nat.exists_eq_add_of_le' hfuel
    refine mem_runLoop_again (by decide +kernel) (by decide +kernel) ?_
    refine mem_runLoop_again (by decide +kernel) (by decide +kernel) ?_
    exact mem_runLoop_lap (by decide +kernel) hlap
  have hstart := hrun 301 (by decide)
  unfold booted at hstart
  unfold enabledRun Soc.run
  exact hstart

end Soc
end Aarchvm

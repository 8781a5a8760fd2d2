import Aarchvm.Soc.Quiet
import Aarchvm.Soc.Run

/-!
# Timer lines in the GIC

What `sync_devices` makes of the timer lines, and what an instruction can do to them:
either it leaves the timer, the lines and the schedule as they are, or the schedule is
invalid afterwards and the next lap synchronises.
-/
namespace Aarchvm

open Lib.Run

namespace GicV3

theorem setLevelOn_lineLevel (g : GicV3) (cpuIndex intid : Nat) (asserted : Bool) (b : Bank)
    (i : Nat) :
    (g.setLevelOn cpuIndex intid asserted).bit .lineLevel b i =
      if b = g.bankOf cpuIndex intid ∧ i = intid ∧ intid < kNumIntIds then asserted
      else g.bit .lineLevel b i := by
  have hline := congrArg Line.level (step_line g (.setLevelOn cpuIndex intid asserted) b i)
  simp only [step, events] at hline
  rw [show (g.setLevelOn cpuIndex intid asserted).bit .lineLevel b i =
    ((g.setLevelOn cpuIndex intid asserted).line b i).level from rfl, hline]
  by_cases h : b = g.bankOf cpuIndex intid ∧ i = intid ∧ intid < kNumIntIds
  · rw [if_pos h, if_pos h, run_cons, run_nil]
    unfold Line.step
    dsimp only
    by_cases hl : (g.line b i).level = asserted
    · rw [if_pos hl]
      exact hl
    · rw [if_neg hl]
  · rw [if_neg h, if_neg h]
    rfl

theorem run_level {l : Line} {es : List LineEvent} (h : ∀ e ∈ es, ∀ a, e ≠ .level a) :
    (run Line.step l es).level = l.level := by
  induction es generalizing l with
  | nil => rfl
  | cons e es ih =>
    rw [run_cons, ih (fun e' he' => h e' (List.mem_cons_of_mem e he'))]
    cases e with
    | level a => exact absurd rfl (h _ List.mem_cons_self a)
    | _ => rfl

/-- Only `set_level` changes a level. -/
theorem step_lineLevel (g : GicV3) {op : GicOp} (h : op.setsLine = false) (b : Bank) (i : Nat) :
    (g.step op).bit .lineLevel b i = g.bit .lineLevel b i := by
  have hline := congrArg Line.level (step_line g op b i)
  refine hline.trans (run_level fun e he a => ?_)
  rintro rfl
  unfold events at he
  cases op with
  | setCpuAffinity cpuIndex mpidr => exact List.not_mem_nil he
  | setPendingOn cpuIndex n =>
    dsimp only at he
    split at he <;> simp at he
  | setLevelOn cpuIndex n asserted => cases h
  | sendSgi sourceCpu value =>
    dsimp only at he
    split at he <;> simp at he
  | hasPending cpuIndex pmr => exact List.not_mem_nil he
  | acknowledge cpuIndex pmr =>
    dsimp only at he
    split at he
    · exact List.not_mem_nil he
    · split at he <;> simp at he
  | eoi cpuIndex n =>
    dsimp only at he
    split at he <;> simp at he
  | write offset value size =>
    obtain ⟨w, -, hw⟩ := List.mem_flatMap.1 he
    unfold regEvents at hw
    cases hb : g.bitmapWrite w.1 w.2 with
    | none =>
      rw [hb] at hw
      exact List.not_mem_nil hw
    | some bw =>
      rw [hb] at hw
      simp only [Option.map_some, Option.getD_some, BitmapWrite.events] at hw
      split at hw
      · split at hw <;> simp at hw
      · exact List.not_mem_nil hw

theorem bankOf_of_cpuCount {g g' : GicV3} (h : g'.cpuCount = g.cpuCount) (cpuIndex intid : Nat) :
    g'.bankOf cpuIndex intid = g.bankOf cpuIndex intid := by
  unfold bankOf localIdx
  rw [h]

end GicV3

namespace Soc

/-- The timer line that the GIC sees. -/
def lineVisible (s : Soc) (k : ChannelKind) (cpu : Nat) : Bool :=
  s.gic.bit .lineLevel (s.gic.bankOf cpu k.intid) k.intid

theorem bankOf_timer (g : GicV3) (k : ChannelKind) {cpu : Nat} (h : cpu < g.cpuCount) :
    g.bankOf cpu k.intid = .own cpu := by
  have hidx : g.localIdx cpu = cpu := by
    unfold GicV3.localIdx
    omega
  unfold GicV3.bankOf
  rw [hidx]
  cases k <;> rfl

theorem lineVisible_of_gic {s s' : Soc} (hn : s'.gic.cpuCount = s.gic.cpuCount)
    (hb : ∀ b i, s'.gic.bit .lineLevel b i = s.gic.bit .lineLevel b i) (k : ChannelKind)
    (cpu : Nat) : s'.lineVisible k cpu = s.lineVisible k cpu := by
  unfold lineVisible
  rw [hb, GicV3.bankOf_of_cpuCount hn]

/-! ## One instruction -/

/-- What neither an instruction nor synchronisation changes. -/
structure SameBoard (s s' : Soc) : Prop where
  cpuCount : s'.cpuCount = s.cpuCount
  gicCpus : s'.gic.cpuCount = s.gic.cpuCount
  schedulerMode : s'.schedulerMode = s.schedulerMode
  guestTimeFp : s'.guestTimeFp = s.guestTimeFp

theorem SameBoard.refl (s : Soc) : SameBoard s s := ⟨rfl, rfl, rfl, rfl⟩

theorem SameBoard.trans {a b c : Soc} (h : SameBoard a b) (h' : SameBoard b c) : SameBoard a c :=
  ⟨h'.1.trans h.1, h'.2.trans h.2, h'.3.trans h.3, h'.4.trans h.4⟩

theorem SameBoard.guestTimeTicks {s s' : Soc} (h : SameBoard s s') :
    s'.guestTimeTicks = s.guestTimeTicks := by
  unfold Soc.guestTimeTicks
  rw [h.guestTimeFp]

/-- `invalidate_device_schedule` was called and nothing was asked since. -/
structure Invalid (s : Soc) : Prop where
  syncValid : s.deviceSyncValid = false
  scheduleValid : s.deviceScheduleValid = false
  dirty : s.deviceScheduleDirty = true

/-- The timer, its lines and the schedule are as before. -/
structure Untouched (s s' : Soc) : Prop where
  timer : s'.timer = s.timer
  lineVisible : ∀ k cpu, s'.lineVisible k cpu = s.lineVisible k cpu
  lastTimerLevels : s'.lastTimerLevels = s.lastTimerLevels
  syncValid : s'.deviceSyncValid = s.deviceSyncValid
  scheduleValid : s'.deviceScheduleValid = s.deviceScheduleValid
  dirty : s'.deviceScheduleDirty = s.deviceScheduleDirty
  nextDeviceEvent : s'.nextDeviceEvent = s.nextDeviceEvent

theorem Untouched.refl (s : Soc) : Untouched s s := ⟨rfl, fun _ _ => rfl, rfl, rfl, rfl, rfl, rfl⟩

theorem Untouched.trans {a b c : Soc} (h : Untouched a b) (h' : Untouched b c) : Untouched a c :=
  ⟨h'.1.trans h.1, fun k cpu => (h'.2 k cpu).trans (h.2 k cpu), h'.3.trans h.3, h'.4.trans h.4,
    h'.5.trans h.5, h'.6.trans h.6, h'.7.trans h.7⟩

/-- What an instruction makes of the machine. -/
structure Kept (s s' : Soc) : Prop where
  board : SameBoard s s'
  lines : Untouched s s' ∨ s'.Invalid

theorem Kept.refl (s : Soc) : Kept s s := ⟨.refl s, .inl (.refl s)⟩

theorem Kept.trans {a b c : Soc} (h : Kept a b) (h' : Kept b c) : Kept a c := by
  refine ⟨h.board.trans h'.board, ?_⟩
  rcases h'.lines with hu' | hi'
  · rcases h.lines with hu | hi
    · exact .inl (hu.trans hu')
    · exact .inr ⟨hu'.syncValid.trans hi.syncValid, hu'.scheduleValid.trans hi.scheduleValid,
        hu'.dirty.trans hi.dirty⟩
  · exact .inr hi'

/-- A change that the schedule and the lines do not depend on. -/
structure Silent (s s' : Soc) : Prop where
  board : SameBoard s s'
  untouched : Untouched s s'

theorem Silent.refl (s : Soc) : Silent s s := ⟨.refl s, .refl s⟩

theorem Silent.trans {a b c : Soc} (h : Silent a b) (h' : Silent b c) : Silent a c :=
  ⟨h.board.trans h'.board, h.untouched.trans h'.untouched⟩

theorem Silent.kept {s s' : Soc} (h : Silent s s') : Kept s s' := ⟨h.board, .inl h.untouched⟩

theorem Silent.of_gic {s s' : Soc} (board : SameBoard s s') (timer : s'.timer = s.timer)
    (bits : ∀ b i, s'.gic.bit .lineLevel b i = s.gic.bit .lineLevel b i)
    (lastTimerLevels : s'.lastTimerLevels = s.lastTimerLevels)
    (syncValid : s'.deviceSyncValid = s.deviceSyncValid)
    (scheduleValid : s'.deviceScheduleValid = s.deviceScheduleValid)
    (dirty : s'.deviceScheduleDirty = s.deviceScheduleDirty)
    (nextDeviceEvent : s'.nextDeviceEvent = s.nextDeviceEvent) : Silent s s' :=
  ⟨board, ⟨timer, lineVisible_of_gic board.gicCpus bits, lastTimerLevels, syncValid, scheduleValid,
    dirty, nextDeviceEvent⟩⟩

theorem Kept.foldl {α : Type*} {f : Soc → α → Soc} (h : ∀ s a, Kept s (f s a)) (as : List α)
    (s : Soc) : Kept s (as.foldl f s) := by
  induction as generalizing s with
  | nil => exact .refl s
  | cons a as ih => exact (h s a).trans (ih (f s a))

theorem silent_of_eq {s s' : Soc} (board : SameBoard s s') (timer : s'.timer = s.timer)
    (gic : s'.gic = s.gic) (lastTimerLevels : s'.lastTimerLevels = s.lastTimerLevels)
    (syncValid : s'.deviceSyncValid = s.deviceSyncValid)
    (scheduleValid : s'.deviceScheduleValid = s.deviceScheduleValid)
    (dirty : s'.deviceScheduleDirty = s.deviceScheduleDirty)
    (nextDeviceEvent : s'.nextDeviceEvent = s.nextDeviceEvent) : Silent s s' :=
  .of_gic board timer (fun _ _ => by rw [gic]) lastTimerLevels syncValid scheduleValid dirty
    nextDeviceEvent

theorem silent_stop (s : Soc) (stopRequested : Bool) :
    Silent s { s with stopRequested := stopRequested } :=
  silent_of_eq ⟨rfl, rfl, rfl, rfl⟩ rfl rfl rfl rfl rfl rfl rfl

theorem silent_runnable (s : Soc) (runnableStateDirty : Bool) :
    Silent s { s with runnableStateDirty := runnableStateDirty } :=
  silent_of_eq ⟨rfl, rfl, rfl, rfl⟩ rfl rfl rfl rfl rfl rfl rfl

theorem refreshLocalTimerIrqLines_board (s : Soc) (i : Nat) :
    SameBoard s (s.refreshLocalTimerIrqLines i) := by
  refine ⟨rfl, ?_, rfl, rfl⟩
  have h₁ := s.gic.step_cpuCount (.setLevelOn i ChannelKind.cntv.intid (s.timer.lineLevel .cntv i))
  have h₂ := (s.gic.setLevelOn i ChannelKind.cntv.intid (s.timer.lineLevel .cntv i)).step_cpuCount
    (.setLevelOn i ChannelKind.cntp.intid (s.timer.lineLevel .cntp i))
  exact h₂.trans h₁

theorem kept_perform (i : Nat) (s : Soc) (e : StepEffect) : Kept s (perform i s e) := by
  cases e with
  | gic op hop =>
    refine Silent.kept ?_
    exact .of_gic ⟨rfl, s.gic.step_cpuCount op, rfl, rfl⟩ rfl (s.gic.step_lineLevel hop) rfl rfl rfl
      rfl rfl
  | cpuOn target entry context =>
    unfold perform
    dsimp only
    split
    · exact .refl s
    · exact Silent.kept (by exact silent_of_eq ⟨rfl, rfl, rfl, rfl⟩ rfl rfl rfl rfl rfl rfl rfl)
  | timerRegister k r value =>
    have h := refreshLocalTimerIrqLines_board { s with
      timer := s.timer.writeRegister k r i s.guestTimeTicks value }.invalidateDeviceSchedule i
    exact ⟨⟨h.1, h.2, h.3, h.4⟩, .inr ⟨rfl, rfl, rfl⟩⟩
  | timerWrite offset value size =>
    unfold perform
    dsimp only
    split
    · exact .refl s
    · exact ⟨⟨rfl, rfl, rfl, rfl⟩, .inr ⟨rfl, rfl, rfl⟩⟩
  | devices deviceIrq notifies =>
    unfold perform
    dsimp only
    split
    · exact ⟨⟨rfl, rfl, rfl, rfl⟩, .inr ⟨rfl, rfl, rfl⟩⟩
    · exact Silent.kept (by exact silent_of_eq ⟨rfl, rfl, rfl, rfl⟩ rfl rfl rfl rfl rfl rfl rfl)
  | own after | sev | memoryWrite w | dma w | tlbi tlbs | stop =>
    refine Silent.kept ?_
    exact silent_of_eq ⟨rfl, rfl, rfl, rfl⟩ rfl rfl rfl rfl rfl rfl rfl

theorem kept_stepCpu (s : Soc) (i : Nat) (insn : Insn) : Kept s (s.stepCpu i insn).2 := by
  unfold stepCpu
  split
  · exact .refl s
  · exact Kept.foldl (kept_perform i) insn.effects s

/-- `ready_to_run` asks the GIC at most. -/
theorem readyToRun_gic (c : Cpu) (g : GicV3) :
    (c.readyToRun g).2.2 = g ∨ ∃ cpu pmr, (c.readyToRun g).2.2 = (g.hasPending cpu pmr).2 := by
  have hirq : (c.irqWakeupReady g).2.2 = g ∨
      ∃ cpu pmr, (c.irqWakeupReady g).2.2 = (g.hasPending cpu pmr).2 := by
    unfold Cpu.irqWakeupReady
    split
    · refine .inr ⟨c.cpuIndex, c.irqThreshold, ?_⟩
      split
      · rename_i h
        rw [h]
      · rename_i h
        rw [h]
    · exact .inl rfl
  unfold Cpu.readyToRun
  split
  · exact .inl rfl
  · split
    · exact .inl rfl
    · split
      · exact .inr ⟨_, _, rfl⟩
      · split
        · exact .inl rfl
        · exact hirq

theorem silent_readyToRun (s : Soc) (i : Nat) : Silent s (s.readyToRun i).2 := by
  have hgic := readyToRun_gic (s.cpus i) s.gic
  have hn : ((s.cpus i).readyToRun s.gic).2.2.cpuCount = s.gic.cpuCount := by
    rcases hgic with h | ⟨cpu, pmr, h⟩
    · rw [h]
    · rw [h]
      exact s.gic.step_cpuCount (.hasPending cpu pmr)
  have hb : ∀ b j, ((s.cpus i).readyToRun s.gic).2.2.bit .lineLevel b j =
      s.gic.bit .lineLevel b j := by
    intro b j
    rcases hgic with h | ⟨cpu, pmr, h⟩
    · rw [h]
    · rw [h]
      exact @GicV3.step_lineLevel s.gic (.hasPending cpu pmr) rfl b j
  exact .of_gic ⟨rfl, hn, rfl, rfl⟩ rfl hb rfl rfl rfl rfl rfl

theorem silent_inspectCpuDispatchState (s : Soc) : Silent s s.inspectCpuDispatchState.2 := by
  have hcpu : ∀ (d : CpuDispatchState × Soc) (i : Nat), Silent d.2 (inspectCpu d i).2 := by
    intro d i
    unfold inspectCpu
    split
    · exact .refl d.2
    · split
      · exact .refl d.2
      · exact silent_readyToRun d.2 i
  have h :
    ∀ (is : List Nat) (d : CpuDispatchState × Soc), Silent d.2 (is.foldl inspectCpu d).2 := by
    intro is
    induction is with
    | nil => exact fun d => .refl d.2
    | cons i is ih => exact fun d => (hcpu d i).trans (ih (inspectCpu d i))
  exact h (List.range s.cpuCount) (⟨false, true, none, 0, 0⟩, s)

/-! ## Synchronisation -/

/-- What the SoC has recorded of the lines is what the GIC sees. -/
def LinesRecorded (s : Soc) : Prop :=
  s.deviceSyncValid = true → ∀ k, ∀ cpu < s.cpuCount,
    s.lastTimerLevels k cpu = s.lineVisible k cpu

/-- What the lines of a synchronisation in progress have in common with its start. -/
structure Syncing (s₀ s : Soc) : Prop where
  board : SameBoard s₀ s
  timer : s.timer = s₀.timer
  syncValid : s.deviceSyncValid = s₀.deviceSyncValid
  recorded : s.LinesRecorded

/-- The line is up to date in the GIC and in the record. -/
def LineSet (s₀ s : Soc) (k : ChannelKind) (cpu : Nat) : Prop :=
  s.lineVisible k cpu = s₀.timer.lineLevel k cpu ∧
    s.lastTimerLevels k cpu = s₀.timer.lineLevel k cpu

theorem setTimerLine_visible {s : Soc} (hg : s.gic.cpuCount = s.cpuCount) (k : ChannelKind)
    {cpu : Nat} (hc : cpu < s.cpuCount) (level : Bool) (k' : ChannelKind) {cpu' : Nat}
    (hc' : cpu' < s.cpuCount) :
    (s.setTimerLine k cpu level).lineVisible k' cpu' =
      if k' = k ∧ cpu' = cpu then level else s.lineVisible k' cpu' := by
  have hn : (s.gic.setLevelOn cpu k.intid level).cpuCount = s.gic.cpuCount :=
    s.gic.step_cpuCount (.setLevelOn cpu k.intid level)
  unfold lineVisible setTimerLine
  dsimp only
  rw [GicV3.bankOf_of_cpuCount hn, GicV3.setLevelOn_lineLevel, bankOf_timer _ k' (hg ▸ hc'),
    bankOf_timer _ k (hg ▸ hc)]
  have hlt : k.intid < kNumIntIds := by cases k <;> decide
  have hiff : (Bank.own cpu' = Bank.own cpu ∧ k'.intid = k.intid ∧ k.intid < kNumIntIds) ↔
      (k' = k ∧ cpu' = cpu) := by
    have hk : k'.intid = k.intid ↔ k' = k := by cases k <;> cases k' <;> decide
    rw [hk, Bank.own.injEq]
    tauto
  simp only [hiff]

/-- One line of a synchronisation. -/
theorem syncTimerLine_syncing {s₀ s : Soc} (hg : s₀.gic.cpuCount = s₀.cpuCount)
    (h : Syncing s₀ s) (k : ChannelKind) {cpu : Nat} (hc : cpu < s₀.cpuCount) :
    Syncing s₀ (s.syncTimerLine k cpu) ∧ LineSet s₀ (s.syncTimerLine k cpu) k cpu ∧
      ∀ k', ∀ cpu' < s₀.cpuCount, LineSet s₀ s k' cpu' →
        LineSet s₀ (s.syncTimerLine k cpu) k' cpu' := by
  have hg' : s.gic.cpuCount = s.cpuCount := by rw [h.board.gicCpus, hg, h.board.cpuCount]
  have hc₁ : cpu < s.cpuCount := by rw [h.board.cpuCount]; exact hc
  unfold syncTimerLine
  dsimp only
  by_cases hset : (!s.deviceSyncValid || s.timer.lineLevel k cpu != s.lastTimerLevels k cpu) = true
  · rw [if_pos hset]
    have hvis := fun k' cpu' (hc' : cpu' < s.cpuCount) =>
      setTimerLine_visible hg' k hc₁ (s.timer.lineLevel k cpu) k' hc'
    have hlast : ∀ k' cpu',
        (s.setTimerLine k cpu (s.timer.lineLevel k cpu)).lastTimerLevels k' cpu' =
        if k' = k ∧ cpu' = cpu then s.timer.lineLevel k cpu else s.lastTimerLevels k' cpu' :=
      fun _ _ => rfl
    have hboard : SameBoard s (s.setTimerLine k cpu (s.timer.lineLevel k cpu)) :=
      ⟨rfl, s.gic.step_cpuCount (.setLevelOn cpu k.intid _), rfl, rfl⟩
    refine ⟨⟨h.board.trans hboard, h.timer, h.syncValid, ?_⟩, ?_, ?_⟩
    · intro hv k' cpu' hc'
      rw [hlast, hvis k' cpu' hc', h.recorded hv k' cpu' hc']
    · exact ⟨by rw [hvis k cpu hc₁, if_pos ⟨rfl, rfl⟩, h.timer],
        by rw [hlast, if_pos ⟨rfl, rfl⟩, h.timer]⟩
    · intro k' cpu' hc' hl
      have hc₁' : cpu' < s.cpuCount := by rw [h.board.cpuCount]; exact hc'
      by_cases he : k' = k ∧ cpu' = cpu
      · obtain ⟨rfl, rfl⟩ := he
        exact ⟨by rw [hvis k' cpu' hc₁', if_pos ⟨rfl, rfl⟩, h.timer],
          by rw [hlast, if_pos ⟨rfl, rfl⟩, h.timer]⟩
      · exact ⟨by rw [hvis k' cpu' hc₁', if_neg he]; exact hl.1,
          by rw [hlast, if_neg he]; exact hl.2⟩
  · rw [if_neg hset]
    refine ⟨h, ?_, fun k' cpu' _ hl => hl⟩
    rw [Bool.or_eq_true, not_or, Bool.not_eq_true, Bool.not_eq_false', Bool.not_eq_true,
      bne_eq_false_iff_eq] at hset
    have hrec := h.recorded hset.1 k cpu hc₁
    rw [h.timer] at hset
    exact ⟨hrec.symm.trans hset.2.symm, hset.2.symm⟩

theorem syncCpus_syncing {s₀ : Soc} (hg : s₀.gic.cpuCount = s₀.cpuCount) (cpus : List Nat)
    (hcpus : ∀ cpu ∈ cpus, cpu < s₀.cpuCount) {s : Soc} (h : Syncing s₀ s) :
    let s' := cpus.foldl (fun s cpu => (s.syncTimerLine .cntv cpu).syncTimerLine .cntp cpu) s
    Syncing s₀ s' ∧ (∀ k, ∀ cpu ∈ cpus, LineSet s₀ s' k cpu) ∧
      ∀ k, ∀ cpu < s₀.cpuCount, LineSet s₀ s k cpu → LineSet s₀ s' k cpu := by
  induction cpus generalizing s with
  | nil => exact ⟨h, fun _ _ hc => absurd hc List.not_mem_nil, fun _ _ _ hl => hl⟩
  | cons cpu cpus ih =>
    have hc := hcpus cpu List.mem_cons_self
    obtain ⟨hv, hvset, hvkeep⟩ := syncTimerLine_syncing hg h .cntv hc
    obtain ⟨hp, hpset, hpkeep⟩ := syncTimerLine_syncing hg hv .cntp hc
    obtain ⟨hrest, hset, hkeep⟩ := ih (fun c hm => hcpus c (List.mem_cons_of_mem cpu hm)) hp
    refine ⟨hrest, fun k c hm => ?_, fun k c hlt hl => ?_⟩
    · rcases List.mem_cons.1 hm with rfl | hm
      · cases k with
        | cntv => exact hkeep .cntv c hc (hpkeep .cntv c hc hvset)
        | cntp => exact hkeep .cntp c hc hpset
      · exact hset k c hm
    · exact hkeep k c hlt (hpkeep k c hlt (hvkeep k c hlt hl))

/-- The shared lines of the other devices are no timer lines. -/
theorem syncDeviceLine_syncing {s₀ s : Soc} (h : Syncing s₀ s) (d : DeviceLine) :
    Syncing s₀ (s.syncDeviceLine d) ∧
      ∀ k cpu, LineSet s₀ s k cpu → LineSet s₀ (s.syncDeviceLine d) k cpu := by
  have hvis : ∀ level k cpu, (s.setDeviceLine d level).lineVisible k cpu = s.lineVisible k cpu := by
    intro level k cpu
    have hn : (s.gic.setLevelOn 0 d.intid level).cpuCount = s.gic.cpuCount :=
      s.gic.step_cpuCount (.setLevelOn 0 d.intid level)
    have hne : k.intid ≠ d.intid := by cases k <;> cases d <;> decide
    unfold lineVisible setDeviceLine GicV3.setLevel
    dsimp only
    rw [GicV3.bankOf_of_cpuCount hn, GicV3.setLevelOn_lineLevel, if_neg (fun he => hne he.2.1)]
  unfold syncDeviceLine
  dsimp only
  split
  · have hboard : SameBoard s (s.setDeviceLine d (s.deviceIrq d)) :=
      ⟨rfl, s.gic.step_cpuCount (.setLevelOn 0 d.intid _), rfl, rfl⟩
    refine ⟨⟨h.board.trans hboard, h.timer, h.syncValid, fun hv k cpu hc => ?_⟩,
      fun k cpu hl => ⟨(hvis _ k cpu).trans hl.1, hl.2⟩⟩
    rw [hvis]
    exact h.recorded hv k cpu hc
  · exact ⟨h, fun _ _ hl => hl⟩

/-- After all lines every timer line is up to date. -/
theorem syncLines_set {s : Soc} (hg : s.gic.cpuCount = s.cpuCount) (hr : s.LinesRecorded) :
    SameBoard s s.syncLines ∧ s.syncLines.timer = s.timer ∧
      ∀ k, ∀ cpu < s.cpuCount, LineSet s s.syncLines k cpu := by
  have hstart : Syncing s s := ⟨.refl s, rfl, rfl, hr⟩
  obtain ⟨hcpus, hset, -⟩ := syncCpus_syncing hg (List.range s.cpuCount)
    (fun cpu hc => List.mem_range.1 hc) hstart
  obtain ⟨huart, huartk⟩ := syncDeviceLine_syncing hcpus .uart
  obtain ⟨hkmi, hkmik⟩ := syncDeviceLine_syncing huart .kmi
  obtain ⟨hblk, hblkk⟩ := syncDeviceLine_syncing hkmi .virtioBlk
  obtain ⟨hnet, hnetk⟩ := syncDeviceLine_syncing hblk .virtioNet
  refine ⟨hnet.board, hnet.timer, fun k cpu hc => ?_⟩
  exact hnetk k cpu (hblkk k cpu (hkmik k cpu (huartk k cpu (hset k cpu (List.mem_range.2 hc)))))

/-- `sync_devices` shows the GIC every timer line as the timer has it at this tick, and records
it. -/
theorem syncDevices_lines {s : Soc} (hg : s.gic.cpuCount = s.cpuCount) (hr : s.LinesRecorded)
    (poll : Option NetPoll) :
    SameBoard s (s.syncDevices poll) ∧
      (s.syncDevices poll).timer = s.timer.syncToSteps s.guestTimeTicks ∧
      ∀ k, ∀ cpu < s.cpuCount,
        (s.syncDevices poll).lineVisible k cpu =
            (s.timer.syncToSteps s.guestTimeTicks).lineLevel k cpu ∧
          (s.syncDevices poll).lastTimerLevels k cpu =
            (s.timer.syncToSteps s.guestTimeTicks).lineLevel k cpu := by
  have hpoll : SameBoard s (s.pollNetwork poll) ∧ (s.pollNetwork poll).timer = s.timer ∧
      (s.pollNetwork poll).LinesRecorded := by
    cases poll with
    | none => exact ⟨.refl s, rfl, hr⟩
    | some p =>
      refine ⟨⟨rfl, rfl, rfl, rfl⟩, rfl, fun hv => ?_⟩
      exact hr (Bool.and_eq_true _ _ ▸ hv).1
  obtain ⟨hboard, htimer, hrec⟩ := hpoll
  have hlines := syncLines_set (s := { s.pollNetwork poll with
    timer := (s.pollNetwork poll).timer.syncToSteps s.guestTimeTicks
    deviceSyncGuestTicks := s.guestTimeTicks })
    (by rw [← hboard.gicCpus, ← hboard.cpuCount] at hg; exact hg) hrec
  obtain ⟨hlboard, hltimer, hlset⟩ := hlines
  have hsync : (s.pollNetwork poll).timer.syncToSteps s.guestTimeTicks =
      s.timer.syncToSteps s.guestTimeTicks := by rw [htimer]
  refine ⟨hboard.trans ⟨hlboard.1, hlboard.2, hlboard.3, hlboard.4⟩, hltimer.trans hsync,
    fun k cpu hc => ?_⟩
  have hset := hlset k cpu (by rw [← hboard.cpuCount] at hc; exact hc)
  rw [← hsync]
  exact hset

end Soc
end Aarchvm

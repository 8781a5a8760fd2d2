import Aarchvm.Soc.TimerRun

/-!
# When `steps_until_irq` is exact

The steps that `steps_until_irq` returns are never too many. They are too few when
the rounding-up division overflows: a target so far ahead that the distance and
one step's cycles do not fit a word counts as due now. Without such a target the
result is the first step at which a line rises.
-/
namespace Aarchvm

/-- Distance to the target and one step's cycles fit a word together. -/
def Fits (target current cyclesPerStep : U64) : Prop :=
  target.toNat - current.toNat + cyclesPerStep.toNat ≤ 2 ^ 64

instance decidableFits (target current cyclesPerStep : U64) :
    Decidable (Fits target current cyclesPerStep) :=
  inferInstanceAs (Decidable (_ ≤ _))

theorem toNat_roundUp {target current cyclesPerStep : U64} (hc : current < target)
    (hp : cyclesPerStep ≠ 0) :
    (target - current + cyclesPerStep - 1).toNat =
      if Fits target current cyclesPerStep then
        target.toNat - current.toNat + cyclesPerStep.toNat - 1
      else target.toNat - current.toNat + cyclesPerStep.toNat - 1 - 2 ^ 64 := by
  have hlt := BitVec.lt_def.1 hc
  have htarget := target.isLt
  have hcycles : (target - current).toNat = target.toNat - current.toNat :=
    BitVec.toNat_sub_of_le (BitVec.le_of_lt hc)
  have hone : (1 : U64).toNat = 1 := rfl
  have hstep := cyclesPerStep.isLt
  have hpos : cyclesPerStep.toNat ≠ 0 := fun h => hp (BitVec.eq_of_toNat_eq h)
  rw [BitVec.toNat_sub, BitVec.toNat_add, hcycles, hone]
  by_cases hfit : Fits target current cyclesPerStep
  · rw [if_pos hfit]
    unfold Fits at hfit
    omega
  · rw [if_neg hfit]
    unfold Fits at hfit
    omega

/-- A target that fits is reached after the rounded-up quotient. -/
theorem le_add_mul_roundUp {target current cyclesPerStep : U64} (hc : current < target)
    (hp : cyclesPerStep ≠ 0) (hfit : Fits target current cyclesPerStep) :
    target.toNat ≤ current.toNat +
      ((target - current + cyclesPerStep - 1) / cyclesPerStep).toNat * cyclesPerStep.toNat := by
  have hpos : 0 < cyclesPerStep.toNat :=
    Nat.pos_of_ne_zero fun h => hp (BitVec.eq_of_toNat_eq h)
  rw [BitVec.toNat_udiv, toNat_roundUp hc hp, if_pos hfit]
  have hlt := BitVec.lt_def.1 hc
  have hdiv := Nat.div_add_mod (target.toNat - current.toNat + cyclesPerStep.toNat - 1)
    cyclesPerStep.toNat
  have hmod := Nat.mod_lt (target.toNat - current.toNat + cyclesPerStep.toNat - 1) hpos
  rw [Nat.mul_comm] at hdiv
  omega

/-- A target that does not fit counts as due. -/
theorem roundUp_eq_zero {target current cyclesPerStep : U64} (hc : current < target)
    (hp : cyclesPerStep ≠ 0) (hfit : ¬ Fits target current cyclesPerStep) :
    (target - current + cyclesPerStep - 1) / cyclesPerStep = 0 := by
  apply BitVec.eq_of_toNat_eq
  rw [BitVec.toNat_udiv, toNat_roundUp hc hp, if_neg hfit]
  have htarget := target.isLt
  have hpos : cyclesPerStep.toNat ≠ 0 := fun h => hp (BitVec.eq_of_toNat_eq h)
  exact Nat.div_eq_of_lt (by omega)

/-- The steps that `steps_until_irq` and `steps_until_channel_irq` compute for one target. -/
def stepsUntilTarget (armed : Bool) (target current cyclesPerStep maxSteps : U64) : U64 :=
  if armed then
    if target ≤ current then 0
    else if cyclesPerStep = 0 then maxSteps
    else minU64 maxSteps ((target - current + cyclesPerStep - 1) / cyclesPerStep)
  else maxSteps

theorem minU64_zero_left (a : U64) : minU64 0 a = 0 :=
  BitVec.eq_of_toNat_eq (Nat.le_zero.1 (BitVec.le_def.1 (minU64_le_left 0 a)))

theorem minU64_zero_right (a : U64) : minU64 a 0 = 0 :=
  BitVec.eq_of_toNat_eq (Nat.le_zero.1 (BitVec.le_def.1 (minU64_le_right a 0)))

theorem minU64_of_lt {a b c : U64} (h : minU64 a b < c) (ha : ¬ a < c) : minU64 a b = b := by
  rcases minU64_eq a b with he | he
  · rw [he] at h
    exact absurd h ha
  · exact he

theorem stepsUntilTarget_le (armed : Bool) (target current cyclesPerStep maxSteps : U64) :
    stepsUntilTarget armed target current cyclesPerStep maxSteps ≤ maxSteps := by
  unfold stepsUntilTarget
  split
  · split
    · exact BitVec.le_def.2 (Nat.zero_le _)
    · split
      · exact BitVec.le_refl _
      · exact minU64_le_left _ _
  · exact BitVec.le_refl _

theorem GenericTimer.stepsUntilMmioIrq_eq (t : GenericTimer) (current maxSteps : U64) :
    t.stepsUntilMmioIrq current maxSteps =
      stepsUntilTarget (t.enabled && !t.fired) t.compare current t.cyclesPerStep maxSteps := rfl

def TimerChannel.armed (ch : TimerChannel) : Bool := ch.enable && !ch.imask

theorem TimerChannel.stepsUntilIrq_eq (ch : TimerChannel) (current cyclesPerStep maxSteps : U64) :
    ch.stepsUntilIrq current cyclesPerStep maxSteps =
      stepsUntilTarget ch.armed ch.cval current cyclesPerStep maxSteps := by
  unfold stepsUntilIrq stepsUntilTarget armed
  by_cases hz : maxSteps = 0
  · subst hz
    cases ch.enable <;> cases ch.imask <;> simp
    exact fun _ _ => (minU64_zero_left _).symm
  · have hne : (maxSteps == 0) = false := by simpa using hz
    rw [hne]
    cases ch.enable <;> cases ch.imask <;> simp

theorem stepsUntilTarget_overflow {target current cyclesPerStep : U64} (hc : current < target)
    (hp : cyclesPerStep ≠ 0) (hfit : ¬ Fits target current cyclesPerStep) (maxSteps : U64) :
    stepsUntilTarget true target current cyclesPerStep maxSteps = 0 := by
  unfold stepsUntilTarget
  rw [if_pos rfl, if_neg (BitVec.not_le.2 hc), if_neg hp, roundUp_eq_zero hc hp hfit,
    minU64_zero_right]

/-- A result below the bound is a step at which the target is reached. -/
theorem stepsUntilTarget_reached {armed : Bool} {target current cyclesPerStep maxSteps : U64}
    (hp : cyclesPerStep ≠ 0)
    (hfit : armed = true → current < target → Fits target current cyclesPerStep)
    (hw : current.toNat + maxSteps.toNat * cyclesPerStep.toNat < 2 ^ 64)
    (hlt : stepsUntilTarget armed target current cyclesPerStep maxSteps < maxSteps) :
    armed = true ∧ target ≤ current +
      stepsUntilTarget armed target current cyclesPerStep maxSteps * cyclesPerStep := by
  unfold stepsUntilTarget at hlt ⊢
  cases armed with
  | false => exact absurd hlt (BitVec.lt_irrefl _)
  | true =>
    rw [if_pos rfl] at hlt ⊢
    refine ⟨rfl, ?_⟩
    by_cases hle : target ≤ current
    · rw [if_pos hle, zero_mul, add_zero]
      exact hle
    · have hc := BitVec.not_le.1 hle
      rw [if_neg hle, if_neg hp] at hlt ⊢
      have heq := minU64_of_lt hlt (BitVec.lt_irrefl _)
      rw [heq] at hlt ⊢
      have hsteps := BitVec.lt_def.1 hlt
      have hmul := Nat.mul_le_mul_right cyclesPerStep.toNat (Nat.le_of_lt hsteps)
      have hreach := le_add_mul_roundUp hc hp (hfit rfl hc)
      rw [BitVec.le_def, BitVec.toNat_add, BitVec.toNat_mul, Nat.mod_eq_of_lt (by omega),
        Nat.mod_eq_of_lt (by omega)]
      exact hreach

namespace GenericTimer

/-! ## A flag is never ahead of its level -/

/-- Every pending flag of a channel has its reason in the counter. -/
def Justified (t : GenericTimer) : Prop :=
  ∀ s ∈ t.cpuStates, ∀ k, (s.channel k).irqPending = true → (s.channel k).level t.counter = true

theorem LevelsCurrent.justified {t : GenericTimer} (h : t.LevelsCurrent) : t.Justified := by
  intro s hs k hp
  rw [h s hs k] at hp
  exact hp

theorem justified_modifyChannel_clear {t : GenericTimer} (h : t.Justified) (k : ChannelKind)
    (cpuIndex : Nat) : (t.modifyChannel cpuIndex k ({ · with irqPending := false })).Justified := by
  intro s hs k' hp
  obtain ⟨i, hi, hs⟩ := List.mem_iff_getElem.1 hs
  have hlen : i < t.cpuStates.length := by simpa [modifyChannel] using hi
  have hold := h _ (List.getElem_mem hlen) k'
  simp only [modifyChannel, List.getElem_modify] at hs
  rw [← hs] at hp ⊢
  by_cases hidx : (t.stateIdx cpuIndex).val = i
  · rw [if_pos hidx] at hp ⊢
    cases k <;> cases k' <;>
      simp only [TimerCpuState.modify, TimerCpuState.channel, Bool.false_eq_true] at hp hold ⊢
    · exact hold hp
    · exact hold hp
  · rw [if_neg hidx] at hp ⊢
    exact hold hp

theorem justified_setCpuCount {t : GenericTimer} (h : t.Justified) (cpuCount : Nat) :
    (t.setCpuCount cpuCount).Justified := by
  intro s hs k hp
  rcases List.mem_append.1 hs with hold | hnew
  · exact h s (List.mem_of_mem_take hold) k hp
  · rw [List.eq_of_mem_replicate hnew] at hp
    cases k <;> exact nomatch hp

theorem justified_apply {t : GenericTimer} (h : t.Justified) (op : Op) :
    (t.apply op).Justified := by
  cases op with
  | sync _ => exact (levelsCurrent_updateIrqState _).justified
  | write offset value size =>
    show ((t.write offset value size).getD t).Justified
    cases hw : t.write offset value size with
    | none => exact h
    | some t' => exact (levelsCurrent_write hw).justified
  | writeReg _ _ _ _ _ => exact (levelsCurrent_updateIrqState _).justified
  | tick _ => exact (levelsCurrent_updateIrqState _).justified
  | setClockMode _ => exact (levelsCurrent_updateIrqState _).justified
  | syncToHost _ _ => exact (levelsCurrent_updateIrqState _).justified
  | setCyclesPerStep _ => exact h
  | rebaseToSteps _ => exact h
  | setCpuCount cpuCount => exact justified_setCpuCount h cpuCount
  | clearIrq => exact h
  | clearChannelIrq k cpuIndex => exact justified_modifyChannel_clear h k cpuIndex
  | loadState _ => exact (levelsCurrent_updateIrqState _).justified

theorem justified_initial (cpuCount : Nat) (cyclesPerStep : U64) :
    (initial cpuCount cyclesPerStep).Justified := by
  intro s hs k hp
  rw [List.eq_of_mem_replicate hs] at hp
  cases k <;> exact nomatch hp

/-- Every reachable timer's flags are justified. -/
theorem justified_after (cpuCount : Nat) (cyclesPerStep : U64) (ops : List Op) :
    (after cpuCount cyclesPerStep ops).Justified :=
  @Lib.Run.run_invariant _ _ apply Justified (fun _ op h => justified_apply h op) _ ops
    (justified_initial cpuCount cyclesPerStep)

/-! ## The first step at which a line rises -/

/-- The counter does not pass 2^64 before guest tick `steps + maxSteps`. -/
def NoWrapUntil (t : GenericTimer) (steps maxSteps : U64) : Prop :=
  t.counter.toNat + ((steps - t.stepAnchor).toNat + maxSteps.toNat) * t.cyclesPerStep.toNat < 2 ^ 64

theorem NoWrapUntil.noWrap {t : GenericTimer} {steps maxSteps : U64}
    (h : t.NoWrapUntil steps maxSteps) : t.NoWrap steps := by
  unfold NoWrapUntil at h
  unfold NoWrap
  rw [Nat.add_mul] at h
  omega

theorem NoWrapUntil.from {t : GenericTimer} {steps maxSteps : U64}
    (h : t.NoWrapUntil steps maxSteps) :
    (t.counterAtSteps steps).toNat + maxSteps.toNat * t.cyclesPerStep.toNat < 2 ^ 64 := by
  rw [counterAtSteps_toNat h.noWrap]
  unfold NoWrapUntil at h
  rw [Nat.add_mul] at h
  omega

/-- Some line is up once `n` steps from `steps` have passed. -/
def DueAt (t : GenericTimer) (steps n : U64) : Prop :=
  ∃ k cpu, t.levelAt (t.counterAtSteps steps + n * t.cyclesPerStep) k cpu = true

/-- No armed target ahead of the counter overflows the rounding-up division. -/
structure AllFit (t : GenericTimer) (steps : U64) : Prop where
  mmio : (t.enabled && !t.fired) = true → t.counterAtSteps steps < t.compare →
    Fits t.compare (t.counterAtSteps steps) t.cyclesPerStep
  channel : ∀ cpu k, ((t.cpuState cpu).channel k).armed = true →
    t.counterAtSteps steps < ((t.cpuState cpu).channel k).cval →
    Fits ((t.cpuState cpu).channel k).cval (t.counterAtSteps steps) t.cyclesPerStep

theorem cpuState_mem (t : GenericTimer) (cpu : Nat) : t.cpuState cpu ∈ t.cpuStates :=
  List.get_mem ..

theorem levelAt_channel {t : GenericTimer} {current : U64} {k : ChannelKind} {cpu : Nat}
    (h : ((t.cpuState cpu).channel k).level current = true) : t.levelAt current k cpu = true := by
  cases k with
  | cntv =>
    show ((t.mmioIrqPending || t.mmioFires current) || (t.cpuState cpu).cntv.level current) = true
    rw [show (t.cpuState cpu).cntv.level current = true from h, Bool.or_true]
  | cntp => exact h

theorem level_of_armed {ch : TimerChannel} {current : U64} (h : ch.armed = true)
    (hle : ch.cval ≤ current) : ch.level current = true := by
  unfold TimerChannel.level
  rw [decide_eq_true hle, Bool.and_true]
  exact h

theorem level_mono {ch : TimerChannel} {current later : U64} (hle : current ≤ later)
    (h : ch.level current = true) : ch.level later = true := by
  unfold TimerChannel.level at h ⊢
  rw [Bool.and_eq_true, decide_eq_true_eq] at h ⊢
  exact ⟨h.1, BitVec.le_trans h.2 hle⟩

theorem counter_le_counterAtSteps {t : GenericTimer} {steps : U64} (h : t.NoWrap steps) :
    t.counter ≤ t.counterAtSteps steps := by
  rw [BitVec.le_def, counterAtSteps_toNat h]
  exact Nat.le_add_right _ _

theorem dueAt_zero_of_pending {t : GenericTimer} {steps : U64} (hj : t.Justified)
    (hw : t.NoWrap steps) {cpu : Nat}
    (hp : (t.mmioIrqPending || (t.cpuState cpu).cntv.irqPending ||
      (t.cpuState cpu).cntp.irqPending) = true) : t.DueAt steps 0 := by
  unfold DueAt
  rw [zero_mul, add_zero]
  have hchannel : ∀ k, ((t.cpuState cpu).channel k).irqPending = true →
      ∃ k cpu, t.levelAt (t.counterAtSteps steps) k cpu = true := fun k h =>
    ⟨k, cpu, levelAt_channel (level_mono (counter_le_counterAtSteps hw)
      (hj _ (t.cpuState_mem cpu) k h))⟩
  rw [Bool.or_eq_true, Bool.or_eq_true] at hp
  rcases hp with (hmmio | hv) | hph
  · refine ⟨.cntv, cpu, ?_⟩
    simp only [levelAt]
    rw [hmmio, Bool.true_or, Bool.true_or]
  · exact hchannel .cntv hv
  · exact hchannel .cntp hph

/-- `steps_until_irq` of one CPU only returns less than its bound at a step that raises a line. -/
theorem dueAt_of_stepsUntilIrqOn {t : GenericTimer} {steps maxSteps : U64} (hj : t.Justified)
    (hp : t.cyclesPerStep ≠ 0) (hw : t.NoWrapUntil steps maxSteps) (hfit : t.AllFit steps)
    {cpu : Nat} (hlt : t.stepsUntilIrqOn cpu steps maxSteps < maxSteps) :
    t.DueAt steps (t.stepsUntilIrqOn cpu steps maxSteps) := by
  unfold stepsUntilIrqOn at hlt ⊢
  by_cases hm : maxSteps = 0
  · rw [if_pos hm, hm] at hlt
    exact absurd hlt (BitVec.lt_irrefl _)
  rw [if_neg hm] at hlt ⊢
  dsimp only at hlt ⊢
  by_cases hpend : (t.mmioIrqPending || (t.cpuState cpu).cntv.irqPending ||
      (t.cpuState cpu).cntp.irqPending) = true
  · rw [if_pos hpend]
    exact dueAt_zero_of_pending hj hw.noWrap hpend
  rw [if_neg hpend] at hlt ⊢
  simp only [Bool.or_eq_true, not_or, Bool.not_eq_true] at hpend
  have hfrom := hw.from
  -- What one channel adds to a bound `best` reached so far.
  have hchannel : ∀ k best, best ≤ maxSteps →
      ((t.cpuState cpu).channel k).stepsUntilIrq (t.counterAtSteps steps) t.cyclesPerStep best <
        best →
      t.DueAt steps (((t.cpuState cpu).channel k).stepsUntilIrq (t.counterAtSteps steps)
        t.cyclesPerStep best) := by
    intro k best hbest hlt
    rw [TimerChannel.stepsUntilIrq_eq] at hlt ⊢
    have hmul := Nat.mul_le_mul_right t.cyclesPerStep.toNat (BitVec.le_def.1 hbest)
    obtain ⟨harmed, hreach⟩ := stepsUntilTarget_reached hp (hfit.channel cpu k) (by omega) hlt
    exact ⟨k, cpu, levelAt_channel (level_of_armed harmed hreach)⟩
  have hmmio : t.stepsUntilMmioIrq (t.counterAtSteps steps) maxSteps < maxSteps →
      t.DueAt steps (t.stepsUntilMmioIrq (t.counterAtSteps steps) maxSteps) := by
    intro hlt
    rw [stepsUntilMmioIrq_eq] at hlt
    obtain ⟨harmed, hreach⟩ := stepsUntilTarget_reached hp hfit.mmio hfrom hlt
    rw [← stepsUntilMmioIrq_eq] at hreach
    refine ⟨.cntv, cpu, ?_⟩
    rw [Bool.and_eq_true] at harmed
    have hfires : t.mmioFires (t.counterAtSteps steps +
        t.stepsUntilMmioIrq (t.counterAtSteps steps) maxSteps * t.cyclesPerStep) = true := by
      unfold mmioFires
      rw [harmed.1, harmed.2, hpend.1.1, decide_eq_true hreach]
      rfl
    simp only [levelAt]
    rw [hfires, Bool.or_true, Bool.true_or]
  generalize hb₀ : t.stepsUntilMmioIrq (t.counterAtSteps steps) maxSteps = b₀ at hlt hmmio ⊢
  have hle₀ : b₀ ≤ maxSteps := by
    rw [← hb₀, stepsUntilMmioIrq_eq]
    exact stepsUntilTarget_le ..
  -- The later of two sources either lowers the bound or leaves the earlier one's.
  have hmin : ∀ k best, best ≤ maxSteps → (best < maxSteps → t.DueAt steps best) →
      (minU64 best (((t.cpuState cpu).channel k).stepsUntilIrq (t.counterAtSteps steps)
        t.cyclesPerStep best) < maxSteps →
      t.DueAt steps (minU64 best (((t.cpuState cpu).channel k).stepsUntilIrq
        (t.counterAtSteps steps) t.cyclesPerStep best))) := by
    intro k best hbest hdue hlt
    unfold minU64 at hlt ⊢
    split
    · rename_i hc
      exact hchannel k best hbest hc
    · rename_i hc
      rw [if_neg hc] at hlt
      exact hdue hlt
  have h₁ := hmin .cntv b₀ hle₀ hmmio
  exact hmin .cntp _ (BitVec.le_trans (minU64_le_left _ _) hle₀) h₁ hlt

theorem dueAt_of_stepsUntilIrqFrom {t : GenericTimer} {steps maxSteps : U64} (hj : t.Justified)
    (hp : t.cyclesPerStep ≠ 0) (hw : t.NoWrapUntil steps maxSteps) (hfit : t.AllFit steps)
    (cpus : List Nat) (best : U64) (hbest : best ≤ maxSteps)
    (hdue : best < maxSteps → t.DueAt steps best)
    (hlt : t.stepsUntilIrqFrom steps cpus best < maxSteps) :
    t.DueAt steps (t.stepsUntilIrqFrom steps cpus best) := by
  induction cpus generalizing best with
  | nil => exact hdue hlt
  | cons cpu cpus ih =>
    have hw' : t.NoWrapUntil steps best := by
      have hmul := Nat.mul_le_mul_right t.cyclesPerStep.toNat
        (Nat.add_le_add_left (BitVec.le_def.1 hbest) (steps - t.stepAnchor).toNat)
      unfold NoWrapUntil at hw ⊢
      omega
    have hdue' : minU64 best (t.stepsUntilIrqOn cpu steps best) < maxSteps →
        t.DueAt steps (minU64 best (t.stepsUntilIrqOn cpu steps best)) := by
      intro hlt
      unfold minU64 at hlt ⊢
      split
      · rename_i hc
        exact dueAt_of_stepsUntilIrqOn hj hp hw' hfit hc
      · rename_i hc
        rw [if_neg hc] at hlt
        exact hdue hlt
    have hbest' := BitVec.le_trans (minU64_le_left best (t.stepsUntilIrqOn cpu steps best)) hbest
    unfold stepsUntilIrqFrom at hlt ⊢
    dsimp only at hlt ⊢
    split
    · rename_i hz
      rw [if_pos hz] at hlt
      exact hdue' hlt
    · rename_i hz
      rw [if_neg hz] at hlt
      exact ih _ hbest' hdue' hlt

/-! ## An overflow -/

theorem stepsUntilIrqFrom_eq_zero {t : GenericTimer} {steps : U64} {cpu : Nat}
    (hzero : ∀ best, t.stepsUntilIrqOn cpu steps best = 0) {cpus : List Nat} (hc : cpu ∈ cpus)
    (best : U64) : t.stepsUntilIrqFrom steps cpus best = 0 := by
  induction cpus generalizing best with
  | nil => exact absurd hc List.not_mem_nil
  | cons c cpus ih =>
    unfold stepsUntilIrqFrom
    dsimp only
    split
    · assumption
    · rename_i hne
      rcases List.mem_cons.1 hc with rfl | hc
      · rw [hzero, minU64_zero_right] at hne
        exact absurd rfl hne
      · exact ih hc _

/-- One target that overflows makes the result zero. -/
theorem stepsUntilIrq_of_not_allFit {t : GenericTimer} {steps : U64} (hp : t.cyclesPerStep ≠ 0)
    (hfit : ¬ t.AllFit steps) (maxSteps : U64) : t.stepsUntilIrq steps maxSteps = 0 := by
  -- With a zero among its minima the result for a CPU is zero.
  have hcpu : ∀ cpu,
      ((∀ best, t.stepsUntilMmioIrq (t.counterAtSteps steps) best = 0) ∨
        ∃ k, ∀ best, ((t.cpuState cpu).channel k).stepsUntilIrq (t.counterAtSteps steps)
          t.cyclesPerStep best = 0) → ∀ best, t.stepsUntilIrqOn cpu steps best = 0 := by
    intro cpu hsource best
    unfold stepsUntilIrqOn
    dsimp only
    split_ifs
    · rfl
    · rfl
    · rcases hsource with hmmio | ⟨k, hk⟩
      · rw [hmmio, minU64_zero_left, minU64_zero_left]
      · cases k with
        | cntv =>
          rw [show (t.cpuState cpu).cntv.stepsUntilIrq _ _ _ = 0 from hk _, minU64_zero_right,
            minU64_zero_left]
        | cntp =>
          rw [show (t.cpuState cpu).cntp.stepsUntilIrq _ _ _ = 0 from hk _, minU64_zero_right]
  have hmem : ∀ cpu, (t.stateIdx cpu).val ∈ List.range t.cpuStates.length := fun cpu =>
    List.mem_range.2 (t.stateIdx cpu).isLt
  by_contra hne
  refine hfit ⟨fun harmed hc => ?_, fun cpu k harmed hc => ?_⟩
  · by_contra hover
    refine hne (stepsUntilIrqFrom_eq_zero (hcpu _ (.inl fun best => ?_)) (hmem 0) maxSteps)
    rw [stepsUntilMmioIrq_eq, harmed]
    exact stepsUntilTarget_overflow hc hp hover best
  · by_contra hover
    refine hne (stepsUntilIrqFrom_eq_zero (hcpu _ (.inr ⟨k, fun best => ?_⟩)) (hmem cpu) maxSteps)
    rw [t.cpuState_stateIdx, TimerChannel.stepsUntilIrq_eq, harmed]
    exact stepsUntilTarget_overflow hc hp hover best

/-! ## Exactness -/

/-- Is some timer line up after `sync_to_steps(steps)`? -/
def PendingAt (t : GenericTimer) (steps : U64) : Prop :=
  ∃ k cpu, (t.syncToSteps steps).lineLevel k cpu = true

/-- `r` is the number of steps before the first line rises, or `maxSteps` when none does. -/
structure FirstIrq (t : GenericTimer) (steps maxSteps r : U64) : Prop where
  quiet : ∀ n, n < r → ¬ t.PendingAt (steps + n)
  pending : r < maxSteps → t.PendingAt (steps + r)

theorem pendingAt_iff (t : GenericTimer) (steps n : U64) :
    t.PendingAt (steps + n) ↔ t.DueAt steps n := by
  have hcounter : t.counterAtSteps (steps + n) = t.counterAtSteps steps + n * t.cyclesPerStep := by
    unfold counterAtSteps
    ring
  unfold PendingAt DueAt
  simp only [lineLevel_syncToSteps, hcounter]

/-- `steps_until_irq` is exact for a reachable timer exactly when nothing is left to wait for or
no armed target overflows the division. -/
theorem stepsUntilIrq_first_iff (cpuCount : Nat) (cyclesPerStep : U64) (ops : List Op)
    (steps maxSteps : U64) (hp : 1 ≤ (after cpuCount cyclesPerStep ops).cyclesPerStep)
    (hw : (after cpuCount cyclesPerStep ops).NoWrapUntil steps maxSteps) :
    FirstIrq (after cpuCount cyclesPerStep ops) steps maxSteps
        ((after cpuCount cyclesPerStep ops).stepsUntilIrq steps maxSteps) ↔
      maxSteps = 0 ∨ (after cpuCount cyclesPerStep ops).PendingAt steps ∨
        (after cpuCount cyclesPerStep ops).AllFit steps := by
  have hj := justified_after cpuCount cyclesPerStep ops
  generalize after cpuCount cyclesPerStep ops = t at hp hw hj ⊢
  have hp0 : t.cyclesPerStep ≠ 0 := by
    intro h
    rw [h] at hp
    exact absurd hp (by decide)
  constructor
  · intro h
    by_cases hm : maxSteps = 0
    · exact .inl hm
    by_cases hfit : t.AllFit steps
    · exact .inr (.inr hfit)
    have hzero := stepsUntilIrq_of_not_allFit hp0 hfit maxSteps
    have hpos : (0 : U64) < maxSteps := by
      rw [BitVec.lt_def]
      exact Nat.pos_of_ne_zero fun h0 => hm (BitVec.eq_of_toNat_eq h0)
    have hpending := h.pending
    rw [hzero, add_zero] at hpending
    exact .inr (.inl (hpending hpos))
  · intro h
    refine ⟨fun n hn hpend => ?_, fun hlt => ?_⟩
    · have hne : t.stepsUntilIrq steps maxSteps ≠ 0 := by
        intro h0
        rw [h0] at hn
        exact absurd hn (BitVec.not_lt_zero)
      obtain ⟨k, cpu, hlevel⟩ := (pendingAt_iff t steps n).1 hpend
      have hquiet := (quietOn_of_stepsUntilIrq hne cpu).later n.toNat (BitVec.lt_def.1 hn) k
      rw [BitVec.ofNat_toNat, BitVec.setWidth_eq] at hquiet
      rw [hquiet] at hlevel
      exact nomatch hlevel
    · by_cases hfit : t.AllFit steps
      · rw [pendingAt_iff]
        refine dueAt_of_stepsUntilIrqFrom hj hp0 hw hfit _ maxSteps (BitVec.le_refl _)
          (fun h => absurd h (BitVec.lt_irrefl _)) hlt
      · rw [stepsUntilIrq_of_not_allFit hp0 hfit, add_zero]
        rw [stepsUntilIrq_of_not_allFit hp0 hfit] at hlt
        rcases h with rfl | hpend | hfit'
        · exact absurd hlt (BitVec.lt_irrefl _)
        · exact hpend
        · exact absurd hfit' hfit

/-- With one cycle per step, the default, nothing overflows. -/
theorem allFit_of_one {t : GenericTimer} (h : t.cyclesPerStep = 1) (steps : U64) :
    t.AllFit steps := by
  have hfits : ∀ target : U64, Fits target (t.counterAtSteps steps) t.cyclesPerStep := by
    intro target
    have htarget := target.isLt
    have hone : (1 : U64).toNat = 1 := rfl
    unfold Fits
    rw [h, hone]
    omega
  exact ⟨fun _ _ => hfits _, fun _ _ _ _ => hfits _⟩

/-- A virtual timer set to fire at counter value `cval`. -/
def armedAt (cyclesPerStep cval : U64) : GenericTimer :=
  after 1 cyclesPerStep [.writeReg .cntv .cval 0 0 cval, .writeReg .cntv .ctl 0 0 1]

theorem stepsUntilIrq_first_iff_armed :
    FirstIrq (armedAt 1 100) 0 1000 ((armedAt 1 100).stepsUntilIrq 0 1000) :=
  (stepsUntilIrq_first_iff 1 1 [.writeReg .cntv .cval 0 0 100, .writeReg .cntv .ctl 0 0 1] 0 1000
    (by decide) (by unfold NoWrapUntil; decide)).2 (.inr (.inr (allFit_of_one rfl 0)))

/-- With two cycles per step the last counter value counts as due at once. -/
theorem last_cval_due_at_once :
    ¬ FirstIrq (armedAt 2 0xFFFFFFFFFFFFFFFF) 0 1000
      ((armedAt 2 0xFFFFFFFFFFFFFFFF).stepsUntilIrq 0 1000) := by
  intro h
  obtain ⟨k, cpu, hlevel⟩ := h.pending (by decide)
  have hstate := cpuState_stateIdx ((armedAt 2 0xFFFFFFFFFFFFFFFF).syncToSteps 0) cpu
  have hidx : (stateIdx ((armedAt 2 0xFFFFFFFFFFFFFFFF).syncToSteps 0) cpu).val = 0 :=
    Nat.min_eq_right (Nat.zero_le cpu)
  rw [hidx] at hstate
  cases k with
  | cntv =>
    simp only [lineLevel, irqPendingVirtual] at hlevel
    rw [show (0 : U64) + _ = 0 from by decide, ← hstate] at hlevel
    exact absurd hlevel (by decide)
  | cntp =>
    simp only [lineLevel, irqPendingPhysical] at hlevel
    rw [show (0 : U64) + _ = 0 from by decide, ← hstate] at hlevel
    exact absurd hlevel (by decide)

end GenericTimer
end Aarchvm

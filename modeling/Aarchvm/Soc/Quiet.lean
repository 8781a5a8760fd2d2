import Aarchvm.Soc.Schedule
import Mathlib.Data.BitVec
import Mathlib.Tactic.Ring

/-!
# No line rises before `steps_until_irq`

The steps that `steps_until_irq` returns are a lower bound: while fewer have passed,
synchronising raises no timer line. This holds for every compare value, counter and
number of cycles per step, whatever wraps.
-/
namespace Aarchvm

theorem minU64_eq (a b : U64) : minU64 a b = a ∨ minU64 a b = b := by
  unfold minU64
  split
  · exact .inr rfl
  · exact .inl rfl

/-- Fewer steps than the rounded-up quotient do not cover the distance. -/
theorem add_mul_lt {current target cyclesPerStep : U64} {d : Nat} (hc : current < target)
    (hp : cyclesPerStep ≠ 0)
    (hd : d < ((target - current + cyclesPerStep - 1) / cyclesPerStep).toNat) :
    current + BitVec.ofNat 64 d * cyclesPerStep < target := by
  have hlt := BitVec.lt_def.1 hc
  have htarget := target.isLt
  have hpos : 0 < cyclesPerStep.toNat := by
    rcases Nat.eq_zero_or_pos cyclesPerStep.toNat with hz | hz
    · exact absurd (BitVec.eq_of_toNat_eq hz) hp
    · exact hz
  have hsum : (target - current + cyclesPerStep - 1).toNat ≤
      target.toNat - current.toNat + cyclesPerStep.toNat - 1 := by
    have hcycles : (target - current).toNat = target.toNat - current.toNat :=
      BitVec.toNat_sub_of_le (BitVec.le_of_lt hc)
    have hone : (1 : U64).toNat = 1 := rfl
    rw [BitVec.toNat_sub, BitVec.toNat_add, hcycles, hone]
    omega
  have hmul : (d + 1) * cyclesPerStep.toNat ≤
      target.toNat - current.toNat + cyclesPerStep.toNat - 1 := by
    rw [BitVec.toNat_udiv] at hd
    exact (Nat.le_div_iff_mul_le hpos).1 (Nat.succ_le_of_lt hd) |>.trans hsum
  have hadd : (d + 1) * cyclesPerStep.toNat = d * cyclesPerStep.toNat + cyclesPerStep.toNat := by
    ring
  have hnat : current.toNat + d * cyclesPerStep.toNat < target.toNat := by omega
  have hle : d ≤ d * cyclesPerStep.toNat := Nat.le_mul_of_pos_right d hpos
  rw [BitVec.lt_def, BitVec.toNat_add, BitVec.toNat_mul, BitVec.toNat_ofNat,
    Nat.mod_eq_of_lt (show d < 2 ^ 64 by omega),
    Nat.mod_eq_of_lt (show d * cyclesPerStep.toNat < 2 ^ 64 by omega),
    Nat.mod_eq_of_lt (by omega)]
  exact hnat

namespace TimerChannel

/-- The channel's level stays low for fewer steps than `steps_until_channel_irq` returns. -/
theorem level_of_lt {ch : TimerChannel} {current cyclesPerStep maxSteps : U64} {d : Nat}
    (hd : d < (ch.stepsUntilIrq current cyclesPerStep maxSteps).toNat) :
    ch.level (current + BitVec.ofNat 64 d * cyclesPerStep) = false := by
  unfold stepsUntilIrq at hd
  unfold level
  by_cases hoff : (!ch.enable || ch.imask || maxSteps == 0) = true
  · rw [if_pos hoff] at hd
    rw [Bool.or_eq_true, Bool.or_eq_true, Bool.not_eq_true'] at hoff
    rcases hoff with (he | hm) | hz
    · rw [he]
      rfl
    · rw [hm]
      simp
    · rw [beq_iff_eq.1 hz] at hd
      exact absurd hd (Nat.not_lt_zero d)
  · rw [if_neg hoff] at hd
    by_cases hc : ch.cval ≤ current
    · rw [if_pos hc] at hd
      exact absurd hd (Nat.not_lt_zero d)
    · rw [if_neg hc] at hd
      have hlt : current < ch.cval := BitVec.not_le.1 hc
      have hlow : current + BitVec.ofNat 64 d * cyclesPerStep < ch.cval := by
        by_cases hp : cyclesPerStep = 0
        · rw [hp, mul_zero, add_zero]
          exact hlt
        · rw [if_neg hp] at hd
          exact add_mul_lt hlt hp (Nat.lt_of_lt_of_le hd (BitVec.le_def.1 (minU64_le_right _ _)))
      rw [decide_eq_false (BitVec.not_le.2 hlow), Bool.and_false]

end TimerChannel

namespace GenericTimer

theorem counterAtSteps_add (t : GenericTimer) (steps : U64) (d : Nat) :
    t.counterAtSteps (steps + BitVec.ofNat 64 d) =
      t.counterAtSteps steps + BitVec.ofNat 64 d * t.cyclesPerStep := by
  unfold counterAtSteps
  ring

/-- Will the memory-mapped compare register fire at this counter value? -/
def mmioFires (t : GenericTimer) (current : U64) : Bool :=
  t.enabled && !t.mmioIrqPending && !t.fired && decide (t.compare ≤ current)

theorem mmioFires_of_lt {t : GenericTimer} {current maxSteps : U64} {d : Nat}
    (hd : d < (t.stepsUntilMmioIrq current maxSteps).toNat) :
    t.mmioFires (current + BitVec.ofNat 64 d * t.cyclesPerStep) = false := by
  unfold stepsUntilMmioIrq at hd
  unfold mmioFires
  by_cases he : (t.enabled && !t.fired) = true
  · rw [if_pos he] at hd
    by_cases hc : t.compare ≤ current
    · rw [if_pos hc] at hd
      exact absurd hd (Nat.not_lt_zero d)
    · rw [if_neg hc] at hd
      have hlt : current < t.compare := BitVec.not_le.1 hc
      have hlow : current + BitVec.ofNat 64 d * t.cyclesPerStep < t.compare := by
        by_cases hp : t.cyclesPerStep = 0
        · rw [hp, mul_zero, add_zero]
          exact hlt
        · rw [if_neg hp] at hd
          exact add_mul_lt hlt hp (Nat.lt_of_lt_of_le hd (BitVec.le_def.1 (minU64_le_right _ _)))
      rw [decide_eq_false (BitVec.not_le.2 hlow), Bool.and_false]
  · have hn : (t.enabled && !t.mmioIrqPending && !t.fired) = false := by
      cases ht : t.enabled <;> cases hf : t.fired <;> simp_all
    rw [hn, Bool.false_and]

/-! ## Lines after synchronisation -/

theorem cpuState_mapStates (t : GenericTimer) (f : TimerCpuState → TimerCpuState) (cpu : Nat) :
    (t.mapStates f).cpuState cpu = f (t.cpuState cpu) := by
  simp [cpuState, stateIdx, mapStates]

theorem cpuState_congr {t t' : GenericTimer} (h : t'.cpuStates = t.cpuStates) (cpu : Nat) :
    t'.cpuState cpu = t.cpuState cpu := by
  cases t
  cases t'
  cases h
  rfl

/-- The level that `update_irq_state` gives a line at counter `current`. -/
def levelAt (t : GenericTimer) (current : U64) (k : ChannelKind) (cpu : Nat) : Bool :=
  match k with
  | .cntv => (t.mmioIrqPending || t.mmioFires current) || (t.cpuState cpu).cntv.level current
  | .cntp => (t.cpuState cpu).cntp.level current

theorem lineLevel_updateIrqState (t : GenericTimer) (k : ChannelKind) (cpu : Nat) :
    t.updateIrqState.lineLevel k cpu = t.levelAt t.counter k cpu := by
  have hstates : t.updateMmioIrq.cpuStates = t.cpuStates := by
    unfold updateMmioIrq
    split <;> rfl
  have hmmio : t.updateMmioIrq.mmioIrqPending = (t.mmioIrqPending || t.mmioFires t.counter) := by
    unfold updateMmioIrq mmioFires
    split
    · rename_i h
      rw [h, Bool.or_true]
    · rename_i h
      rw [Bool.not_eq_true] at h
      rw [h, Bool.or_false]
  have hcpu := cpuState_congr hstates cpu
  cases k with
  | cntv =>
    show (t.updateMmioIrq.mmioIrqPending || _) = _
    rw [irqPendingVirtual, updateIrqState, cpuState_mapStates, hmmio, hcpu]
    rfl
  | cntp =>
    show irqPendingPhysical _ cpu = _
    rw [irqPendingPhysical, updateIrqState, cpuState_mapStates, hcpu]
    rfl

/-- A line after `sync_to_steps`. -/
theorem lineLevel_syncToSteps (t : GenericTimer) (steps : U64) (k : ChannelKind) (cpu : Nat) :
    (t.syncToSteps steps).lineLevel k cpu = t.levelAt (t.counterAtSteps steps) k cpu := by
  unfold syncToSteps
  rw [lineLevel_updateIrqState]
  rfl

/-! ## The bound -/

/-- Nothing is pending for a CPU, and for `n` more steps nothing rises. -/
structure QuietOn (t : GenericTimer) (cpu : Nat) (steps : U64) (n : Nat) : Prop where
  now : ∀ k, t.lineLevel k cpu = false
  later : ∀ d < n, ∀ k,
    t.levelAt (t.counterAtSteps steps + BitVec.ofNat 64 d * t.cyclesPerStep) k cpu = false

theorem QuietOn.mono {t : GenericTimer} {cpu : Nat} {steps : U64} {n m : Nat}
    (h : t.QuietOn cpu steps n) (hm : m ≤ n) : t.QuietOn cpu steps m :=
  ⟨h.now, fun d hd => h.later d (Nat.lt_of_lt_of_le hd hm)⟩

theorem quietOn_of_stepsUntilIrqOn {t : GenericTimer} {cpu : Nat} {steps maxSteps : U64}
    (hn : t.stepsUntilIrqOn cpu steps maxSteps ≠ 0) :
    t.QuietOn cpu steps (t.stepsUntilIrqOn cpu steps maxSteps).toNat := by
  unfold stepsUntilIrqOn at hn ⊢
  by_cases hm : maxSteps = 0
  · rw [if_pos hm] at hn
    exact absurd rfl hn
  · rw [if_neg hm] at hn ⊢
    dsimp only at hn ⊢
    by_cases hp : (t.mmioIrqPending || (t.cpuState cpu).cntv.irqPending ||
        (t.cpuState cpu).cntp.irqPending) = true
    · rw [if_pos hp] at hn
      exact absurd rfl hn
    · rw [if_neg hp] at hn ⊢
      simp only [Bool.or_eq_true, not_or, Bool.not_eq_true] at hp
      obtain ⟨⟨hmmio, hv⟩, hph⟩ := hp
      refine ⟨fun k => ?_, fun d hd k => ?_⟩
      · cases k with
        | cntv => simp [lineLevel, irqPendingVirtual, hmmio, hv]
        | cntp => simp [lineLevel, irqPendingPhysical, hph]
      · -- the three minima, from the last to the first
        generalize hb₀ : t.stepsUntilMmioIrq (t.counterAtSteps steps) maxSteps = b₀ at hd
        generalize hb₁ : minU64 b₀ ((t.cpuState cpu).cntv.stepsUntilIrq (t.counterAtSteps steps)
          t.cyclesPerStep b₀) = b₁ at hd
        have hd₁ : d < b₁.toNat := Nat.lt_of_lt_of_le hd (BitVec.le_def.1 (minU64_le_left _ _))
        have hd₀ : d < b₀.toNat := by
          rw [← hb₁] at hd₁
          exact Nat.lt_of_lt_of_le hd₁ (BitVec.le_def.1 (minU64_le_left _ _))
        have hcntp := Nat.lt_of_lt_of_le hd (BitVec.le_def.1 (minU64_le_right _ _))
        have hcntv : d < ((t.cpuState cpu).cntv.stepsUntilIrq (t.counterAtSteps steps)
            t.cyclesPerStep b₀).toNat := by
          rw [← hb₁] at hd₁
          exact Nat.lt_of_lt_of_le hd₁ (BitVec.le_def.1 (minU64_le_right _ _))
        cases k with
        | cntv =>
          rw [← hb₀] at hd₀
          simp only [levelAt]
          rw [hmmio, mmioFires_of_lt hd₀, TimerChannel.level_of_lt hcntv]
          rfl
        | cntp => exact TimerChannel.level_of_lt hcntp

theorem stepsUntilIrqFrom_le (t : GenericTimer) (steps : U64) (cpus : List Nat) (best : U64) :
    t.stepsUntilIrqFrom steps cpus best ≤ best := by
  induction cpus generalizing best with
  | nil => exact BitVec.le_refl _
  | cons cpu cpus ih =>
    unfold stepsUntilIrqFrom
    dsimp only
    split
    · exact minU64_le_left _ _
    · exact BitVec.le_trans (ih _) (minU64_le_left _ _)

theorem quietOn_of_stepsUntilIrqFrom {t : GenericTimer} {steps : U64} {cpus : List Nat} {best : U64}
    (hn : t.stepsUntilIrqFrom steps cpus best ≠ 0) {cpu : Nat} (hc : cpu ∈ cpus) :
    t.QuietOn cpu steps (t.stepsUntilIrqFrom steps cpus best).toNat := by
  induction cpus generalizing best with
  | nil => exact absurd hc List.not_mem_nil
  | cons c cpus ih =>
    unfold stepsUntilIrqFrom at hn ⊢
    dsimp only at hn ⊢
    by_cases hz : minU64 best (t.stepsUntilIrqOn c steps best) = 0
    · rw [if_pos hz] at hn
      exact absurd hz hn
    · rw [if_neg hz] at hn ⊢
      rcases List.mem_cons.1 hc with hc | hc
      · subst hc
        have hle := BitVec.le_def.1 (BitVec.le_trans
          (t.stepsUntilIrqFrom_le steps cpus (minU64 best (t.stepsUntilIrqOn cpu steps best)))
          (minU64_le_right best (t.stepsUntilIrqOn cpu steps best)))
        refine (quietOn_of_stepsUntilIrqOn fun h0 => hn ?_).mono hle
        have hz' : (t.stepsUntilIrqOn cpu steps best).toNat = 0 := by rw [h0]; rfl
        rw [hz'] at hle
        exact BitVec.eq_of_toNat_eq (Nat.le_zero.1 hle)
      · exact ih hn hc

theorem cpuState_stateIdx (t : GenericTimer) (cpu : Nat) :
    t.cpuState (t.stateIdx cpu).val = t.cpuState cpu := by
  unfold cpuState stateIdx
  congr 1
  apply Fin.ext
  show min (min cpu (t.cpuStates.length - 1)) (t.cpuStates.length - 1) =
    min cpu (t.cpuStates.length - 1)
  omega

/-- `steps_until_irq` is a lower bound for every CPU. -/
theorem quietOn_of_stepsUntilIrq {t : GenericTimer} {steps maxSteps : U64}
    (hn : t.stepsUntilIrq steps maxSteps ≠ 0) (cpu : Nat) :
    t.QuietOn cpu steps (t.stepsUntilIrq steps maxSteps).toNat := by
  have hmem : (t.stateIdx cpu).val ∈ List.range t.cpuStates.length :=
    List.mem_range.2 (t.stateIdx cpu).isLt
  have hq := quietOn_of_stepsUntilIrqFrom hn hmem
  have hstate := t.cpuState_stateIdx cpu
  refine ⟨fun k => ?_, fun d hd k => ?_⟩
  · have h := hq.now k
    cases k <;> simpa [lineLevel, irqPendingVirtual, irqPendingPhysical, hstate] using h
  · have h := hq.later d hd k
    cases k <;> simpa [levelAt, hstate] using h

end GenericTimer
end Aarchvm

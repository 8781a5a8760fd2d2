import Aarchvm.Lib.Run
import Aarchvm.Soc.Quiet

/-!
# The timer over its whole history

Every operation that changes a `GenericTimer`, as one step function. Two facts
about its runs: the levels of the channels follow the counter, and synchronising
in several hops ends where one hop does.
-/
namespace Aarchvm

/-- The compare and control registers of a channel. -/
inductive ChannelReg where
  | ctl | cval | tval
  deriving DecidableEq, Repr

def TimerChannel.writeReg (r : ChannelReg) (ch : TimerChannel) (current value : U64) :
    TimerChannel :=
  match r with
  | .ctl => ch.writeCtl value
  | .cval => ch.writeCval value
  | .tval => ch.writeTval current value

namespace GenericTimer

/-! ## Operations -/

/-- `set_cpu_count`: new CPUs get idle channels. -/
def setCpuCount (t : GenericTimer) (cpuCount : Nat) : GenericTimer :=
  { t with
    cpuStates := t.cpuStates.take (max 1 cpuCount) ++
      List.replicate (max 1 cpuCount - t.cpuStates.length) ⟨.initial, .initial⟩
    cpuStates_ne := by
      intro h
      have hl := congrArg List.length h
      have hpos := List.length_pos_iff.2 t.cpuStates_ne
      rw [List.length_append, List.length_take, List.length_replicate, List.length_nil] at hl
      omega }

/-- `tick`. -/
def tick (t : GenericTimer) (cycles : U64) : GenericTimer :=
  updateIrqState { t with counter := t.counter + cycles }

/-- `set_clock_mode` and `sync_to_steps` where the counter comes from the host's clock. -/
def syncToHost (t : GenericTimer) (counter steps : U64) : GenericTimer :=
  updateIrqState { t with counter := counter, stepAnchor := steps }

/-- `load_state`, when it succeeds in reading `saved`. -/
def loadState (saved : GenericTimer) : GenericTimer :=
  updateIrqState { saved with stepAnchor := 0, cyclesPerStep := 1 }

/-- The operations on a timer. `setClockMode` stays in mode `GuestStep`. -/
inductive Op where
  | sync (steps : U64)
  | write (offset : Nat) (value : U64) (size : Nat)
  | writeReg (k : ChannelKind) (r : ChannelReg) (cpuIndex : Nat) (steps value : U64)
  | tick (cycles : U64)
  | setClockMode (steps : U64)
  | syncToHost (counter steps : U64)
  | setCyclesPerStep (value : U64)
  | rebaseToSteps (steps : U64)
  | setCpuCount (cpuCount : Nat)
  | clearIrq
  | clearChannelIrq (k : ChannelKind) (cpuIndex : Nat)
  | loadState (saved : GenericTimer)

def apply (t : GenericTimer) : Op → GenericTimer
  | .sync steps => t.syncToSteps steps
  | .write offset value size => (t.write offset value size).getD t
  | .writeReg k r cpuIndex steps value =>
    t.writeChannel k (fun ch current => ch.writeReg r current value) cpuIndex steps
  | .tick cycles => t.tick cycles
  | .setClockMode steps => t.syncToSteps steps
  | .syncToHost counter steps => t.syncToHost counter steps
  | .setCyclesPerStep value => { t with cyclesPerStep := value }
  | .rebaseToSteps steps => { t with stepAnchor := steps }
  | .setCpuCount cpuCount => t.setCpuCount cpuCount
  | .clearIrq => { t with mmioIrqPending := false }
  | .clearChannelIrq k cpuIndex => t.modifyChannel cpuIndex k ({ · with irqPending := false })
  | .loadState saved => loadState saved

/-- The timer after the operations `ops` of a machine with `cpuCount` CPUs. -/
def after (cpuCount : Nat) (cyclesPerStep : U64) (ops : List Op) : GenericTimer :=
  Lib.Run.run apply (initial cpuCount cyclesPerStep) ops

/-! ## Levels -/

/-- Every channel's pending flag is the level at the counter. -/
def LevelsCurrent (t : GenericTimer) : Prop :=
  ∀ s ∈ t.cpuStates, ∀ k, (s.channel k).irqPending =
    ((s.channel k).enable && !(s.channel k).imask && decide ((s.channel k).cval ≤ t.counter))

theorem counter_updateMmioIrq (t : GenericTimer) : t.updateMmioIrq.counter = t.counter := by
  unfold updateMmioIrq
  split <;> rfl

/-- Whatever the state before, `update_irq_state` brings the levels up to date. -/
theorem levelsCurrent_updateIrqState (t : GenericTimer) : t.updateIrqState.LevelsCurrent := by
  intro s hs k
  have hcounter : t.updateIrqState.counter = t.counter := counter_updateMmioIrq t
  rw [hcounter]
  unfold updateIrqState mapStates at hs
  obtain ⟨s', -, rfl⟩ := List.mem_map.1 hs
  cases k <;> rfl

theorem levelsCurrent_syncToSteps (t : GenericTimer) (steps : U64) :
    (t.syncToSteps steps).LevelsCurrent :=
  levelsCurrent_updateIrqState _

theorem levelsCurrent_write {t t' : GenericTimer} {offset : Nat} {value : U64} {size : Nat}
    (h : t.write offset value size = some t') : t'.LevelsCurrent := by
  unfold write at h
  dsimp only at h
  split_ifs at h
  · cases h
    exact levelsCurrent_updateIrqState _
  · cases h
    exact levelsCurrent_updateIrqState _

theorem levelsCurrent_writeChannel (k : ChannelKind) (f : TimerChannel → U64 → TimerChannel)
    (t : GenericTimer) (cpuIndex : Nat) (steps : U64) :
    (t.writeChannel k f cpuIndex steps).LevelsCurrent :=
  levelsCurrent_updateIrqState _

/-! ## Path independence -/

theorem mapStates_mapStates (t : GenericTimer) (f f' : TimerCpuState → TimerCpuState) :
    (t.mapStates f).mapStates f' = t.mapStates (f' ∘ f) := by
  simp [mapStates]

theorem updateMmioIrq_mapStates (t : GenericTimer) (f : TimerCpuState → TimerCpuState) :
    (t.mapStates f).updateMmioIrq = t.updateMmioIrq.mapStates f := by
  unfold updateMmioIrq mapStates
  dsimp only
  split <;> rfl

/-- The memory-mapped latch: a compare value that the first of two rising counters reaches is
reached by the second. -/
theorem updateMmioIrq_hop (t : GenericTimer) {c c' : U64} (hc : c ≤ c') (a a' : U64) :
    updateMmioIrq { updateMmioIrq { t with counter := c, stepAnchor := a } with
        counter := c', stepAnchor := a' } =
      updateMmioIrq { t with counter := c', stepAnchor := a' } := by
  cases hf : (t.enabled && !t.mmioIrqPending && !t.fired) with
  | false => simp only [updateMmioIrq, hf, Bool.false_and, Bool.false_eq_true, if_false]
  | true =>
    by_cases hle : t.compare ≤ c
    · have hle' : t.compare ≤ c' := BitVec.le_trans hle hc
      simp [updateMmioIrq, hf, hle, hle']
    · simp only [updateMmioIrq, hf, hle, decide_false, Bool.and_false, Bool.false_eq_true, if_false]

theorem counterAtSteps_hop (t : GenericTimer) (s₁ s₂ : U64) :
    (t.syncToSteps s₁).counterAtSteps s₂ = t.counterAtSteps s₂ := by
  have hcounter : (t.syncToSteps s₁).counter = t.counterAtSteps s₁ := counter_updateMmioIrq _
  have hanchor : (t.syncToSteps s₁).stepAnchor = s₁ := by
    show (updateMmioIrq _).stepAnchor = s₁
    unfold updateMmioIrq
    split <;> rfl
  have hcycles : (t.syncToSteps s₁).cyclesPerStep = t.cyclesPerStep := by
    show (updateMmioIrq _).cyclesPerStep = t.cyclesPerStep
    unfold updateMmioIrq
    split <;> rfl
  unfold counterAtSteps at hcounter ⊢
  rw [hcounter, hanchor, hcycles]
  ring

/-- The counter does not pass 2^64 on the way to guest tick `steps`. -/
def NoWrap (t : GenericTimer) (steps : U64) : Prop :=
  t.counter.toNat + (steps - t.stepAnchor).toNat * t.cyclesPerStep.toNat < 2 ^ 64

theorem counterAtSteps_toNat {t : GenericTimer} {steps : U64} (h : t.NoWrap steps) :
    (t.counterAtSteps steps).toNat =
      t.counter.toNat + (steps - t.stepAnchor).toNat * t.cyclesPerStep.toNat := by
  unfold NoWrap at h
  rw [counterAtSteps, BitVec.toNat_add, BitVec.toNat_mul,
    Nat.mod_eq_of_lt (Nat.lt_of_le_of_lt (Nat.le_add_left _ _) h), Nat.mod_eq_of_lt h]

theorem counterAtSteps_le {t : GenericTimer} {s₁ s₂ : U64} (h₁ : t.stepAnchor ≤ s₁) (h₂ : s₁ ≤ s₂)
    (hw : t.NoWrap s₂) : t.counterAtSteps s₁ ≤ t.counterAtSteps s₂ := by
  have hsub₁ := BitVec.toNat_sub_of_le h₁
  have hsub₂ := BitVec.toNat_sub_of_le (BitVec.le_trans h₁ h₂)
  have hsteps : (s₁ - t.stepAnchor).toNat ≤ (s₂ - t.stepAnchor).toNat := by
    have h := BitVec.le_def.1 h₂
    omega
  have hmul := Nat.mul_le_mul_right t.cyclesPerStep.toNat hsteps
  have hw₁ : t.NoWrap s₁ := by
    unfold NoWrap at hw ⊢
    omega
  rw [BitVec.le_def, counterAtSteps_toNat hw₁, counterAtSteps_toNat hw]
  omega

theorem syncToSteps_syncToSteps {t : GenericTimer} {s₁ s₂ : U64} (h₁ : t.stepAnchor ≤ s₁)
    (h₂ : s₁ ≤ s₂) (hw : t.NoWrap s₂) :
    (t.syncToSteps s₁).syncToSteps s₂ = t.syncToSteps s₂ := by
  have hcounter := t.counterAtSteps_hop s₁ s₂
  have hle := counterAtSteps_le h₁ h₂ hw
  have hlatch := t.updateMmioIrq_hop hle s₁ s₂
  rw [syncToSteps, hcounter]
  -- The second hop sees the first one's latch and recomputes the levels it left.
  show (updateMmioIrq (mapStates
    { updateMmioIrq { t with counter := t.counterAtSteps s₁, stepAnchor := s₁ } with
      counter := t.counterAtSteps s₂, stepAnchor := s₂ } _)).mapStates _ = _
  rw [updateMmioIrq_mapStates, hlatch, mapStates_mapStates]
  rfl

/-- Which operations bring the levels up to date: a synchronisation and an accepted register
write. -/
def Op.Updates (t : GenericTimer) : Op → Prop
  | .sync _ => True
  | .write offset value size => (t.write offset value size).isSome
  | .writeReg _ _ _ _ _ => True
  | _ => False

/-- Synchronising on the way makes no difference, and every synchronisation and register write
leaves each channel's flag equal to its level. -/
theorem sync_path_independent (t : GenericTimer) :
    (∀ s₁ s₂, t.stepAnchor ≤ s₁ → s₁ ≤ s₂ → t.NoWrap s₂ →
      (t.syncToSteps s₁).syncToSteps s₂ = t.syncToSteps s₂) ∧
    ∀ op, op.Updates t → (t.apply op).LevelsCurrent := by
  refine ⟨fun s₁ s₂ h₁ h₂ hw => syncToSteps_syncToSteps h₁ h₂ hw, fun op hop => ?_⟩
  cases op with
  | sync steps => exact levelsCurrent_syncToSteps t steps
  | write offset value size =>
    obtain ⟨t', ht'⟩ := Option.isSome_iff_exists.1 hop
    show ((t.write offset value size).getD t).LevelsCurrent
    rw [ht']
    exact levelsCurrent_write ht'
  | writeReg k r cpuIndex steps value => exact levelsCurrent_writeChannel k _ t cpuIndex steps
  | tick _ | setClockMode _ | syncToHost _ _ | setCyclesPerStep _ | rebaseToSteps _
  | setCpuCount _ | clearIrq | clearChannelIrq _ _ | loadState _ => exact hop.elim

end GenericTimer
end Aarchvm

import Aarchvm.Cpu.Cluster
import Aarchvm.Gic.Epoch

/-!
# Negative interrupt queries

A CPU keeps the epoch and the threshold of the last query that found nothing, and
`should_try_irq` asks no more while both stand. Over every interleaving of what the
CPUs do, of what is done to the controller, of CPU resets and of snapshot loads, a
query it suppresses would find nothing.
-/
namespace Aarchvm

open Lib.Run Lib.Epoch

namespace Cpu

/-- The query noted as negative finds nothing while the epoch is that of the query. -/
def QuerySound (c : Cpu) (g : GicV3) : Prop :=
  c.icc.irqQuery.negativeValid = true →
    Noted GicV3.stateEpoch GicV3.pendingView c.icc.irqQuery.epoch
      (fun view => view c.cpuIndex (c.icc.irqQuery.threshold.setWidth 8) = none) g

variable {c c' : Cpu} {g g' : GicV3}

theorem QuerySound.advance (h : c.QuerySound g)
    (ha : Advances GicV3.stateEpoch GicV3.pendingView g g') : c.QuerySound g' :=
  fun hv => (h hv).advance ha

theorem QuerySound.of_same (h : c.QuerySound g) (hq : c'.icc.irqQuery = c.icc.irqQuery)
    (hi : c'.cpuIndex = c.cpuIndex) : c'.QuerySound g := by
  unfold QuerySound
  rw [hq, hi]
  exact h

theorem querySound_of_invalid (h : c.icc.irqQuery.negativeValid = false) : c.QuerySound g := by
  intro hv
  rw [h] at hv
  cases hv

/-- A query is noted when `highest_pending` finds nothing at the threshold. -/
theorem noteNegativeQuery_sound {epoch : Nat}
    (h : g.highestPending c.cpuIndex c.irqThreshold = none)
    (he : epoch = g.stateEpoch) : (c.noteNegativeQuery epoch).QuerySound g := by
  intro _
  subst he
  exact noted_now h

/-- A query that `should_try_irq` suppresses with interrupts unmasked and enabled finds nothing. -/
theorem QuerySound.suppressed (h : c.QuerySound g) (hs : c.shouldTryIrq g = false)
    (hm : c.sysregs.irqMasked = false) (he : c.icc.iccIgrpen1El1 ≠ 0) :
    g.highestPending c.cpuIndex c.irqThreshold = none := by
  unfold shouldTryIrq at hs
  have hon : (c.sysregs.irqMasked || c.icc.iccIgrpen1El1 == 0) = false := by
    rw [hm, Bool.false_or]
    exact beq_false_of_ne he
  rw [hon, if_neg Bool.false_ne_true] at hs
  simp only [Bool.not_eq_false', Bool.and_eq_true, beq_iff_eq] at hs
  obtain ⟨⟨hvalid, hepoch⟩, hthreshold⟩ := hs
  have hnone := (h hvalid).2 hepoch
  rwa [hthreshold] at hnone

/-! ## What one CPU does -/

/-- An operation keeps the caches sound. -/
structure KeepsSound (c : Cpu) (g : GicV3) (r : Cpu × GicV3) : Prop where
  advances : Advances GicV3.stateEpoch GicV3.pendingView g r.2
  cache : g.CacheSound → r.2.CacheSound
  query : g.CacheSound → c.QuerySound g → r.1.QuerySound r.2

theorem KeepsSound.of_guarded (hg : GicV3.Guarded g g') (hq : c'.icc.irqQuery = c.icc.irqQuery)
    (hi : c'.cpuIndex = c.cpuIndex) : KeepsSound c g (c', g') :=
  ⟨hg.advances, hg.cacheSound, fun _ h => (h.of_same hq hi).advance hg.advances⟩

theorem KeepsSound.of_invalid (hg : GicV3.Guarded g g')
    (hq : c'.icc.irqQuery.negativeValid = false) : KeepsSound c g (c', g') :=
  ⟨hg.advances, hg.cacheSound, fun _ _ => querySound_of_invalid hq⟩

theorem enterSyncException_keepsSound (faultPc : U64) (ec iss : U32) (farValid : Bool) (far : U64) :
    KeepsSound c g (c.enterSyncException faultPc ec iss farValid far, g) := by
  by_cases h : c.exceptions.depth < kExceptionStackCapacity
  · obtain ⟨-, hicc, hidx⟩ := enterSyncException_of_room faultPc ec iss farValid far h
    exact .of_guarded (.refl g) (congrArg Icc.irqQuery hicc) hidx
  · rw [enterSyncException_of_full faultPc ec iss farValid far h]
    exact .of_guarded (.refl g) rfl rfl

theorem tryTakeIrq_keepsSound : KeepsSound c g (c.tryTakeIrq g).2 := by
  have hg := GicV3.Guarded.acknowledge g c.cpuIndex c.irqThreshold
  cases hack : (g.acknowledge c.cpuIndex c.irqThreshold).1 with
  | none =>
    have hnone : g.highestPending c.cpuIndex c.irqThreshold = none := by
      rw [← GicV3.acknowledge_fst, hack]
    rw [tryTakeIrq_of_none hack, GicV3.acknowledge_of_none hnone]
    exact ⟨.refl g, id, fun _ _ => noteNegativeQuery_sound hnone rfl⟩
  | some intid =>
    by_cases h : c.exceptions.depth < kExceptionStackCapacity
    · obtain ⟨newPrio, htake⟩ := tryTakeIrq_of_room hack h
      obtain ⟨-, hicc, -⟩ := @deliverIrq_frame c.acknowledged intid newPrio h
      rw [htake]
      refine .of_invalid hg ?_
      rw [hicc]
      rfl
    · rw [tryTakeIrq_of_full hack h]
      exact .of_invalid hg rfl

theorem popException_keepsSound : KeepsSound c g (c.popException g) := by
  unfold popException
  cases c.exceptions.top? with
  | none => exact .of_guarded (.refl g) rfl rfl
  | some f =>
    dsimp only
    split
    · exact .of_guarded (.eoi ..) rfl rfl
    · exact .of_guarded (.refl g) rfl rfl

theorem eret_keepsSound : KeepsSound c g (c.eret g) := by
  obtain ⟨c', he, -, hicc, hidx⟩ := exists_eret_eq c g
  rw [he]
  have hpop := @popException_keepsSound c' g
  refine ⟨hpop.advances, hpop.cache, fun hg h => hpop.query hg ?_⟩
  exact h.of_same (congrArg Icc.irqQuery hicc) hidx

theorem irqWakeupReady_keepsSound : KeepsSound c g (c.irqWakeupReady g).2 := by
  obtain ⟨hview, hepoch⟩ := g.hasPending_pendingView c.cpuIndex c.irqThreshold
  have hadv : Advances GicV3.stateEpoch GicV3.pendingView g
    (g.hasPending c.cpuIndex c.irqThreshold).2 := .of_eq hepoch hview
  unfold irqWakeupReady
  split
  · cases hp : g.hasPending c.cpuIndex c.irqThreshold with
    | mk found g' =>
      rw [hp] at hadv
      cases found with
      | true =>
        refine ⟨hadv, fun h => ?_, fun _ h => h.advance hadv⟩
        have := h.hasPending_snd c.cpuIndex c.irqThreshold
        rwa [hp] at this
      | false =>
        refine ⟨hadv, fun h => ?_, fun h _ => ?_⟩
        · have := h.hasPending_snd c.cpuIndex c.irqThreshold
          rwa [hp] at this
        · have hnone := h.hasPending_fst c.cpuIndex c.irqThreshold
          rw [hp] at hnone
          refine QuerySound.advance (noteNegativeQuery_sound ?_ rfl) hadv
          exact Option.isNone_iff_eq_none.1 (by rw [← Option.not_isSome, ← hnone]; rfl)
  · exact .of_guarded (.refl g) rfl rfl

theorem readIccIar1El1_keepsSound : KeepsSound c g (c.readIccIar1El1 g).2 := by
  have hg := GicV3.Guarded.acknowledge g c.cpuIndex c.irqThreshold
  unfold readIccIar1El1 readIarPolled
  cases c.currentIrq with
  | some intid => exact .of_guarded (.refl g) rfl rfl
  | none =>
    dsimp only
    split
    · cases hack : g.acknowledge c.cpuIndex c.irqThreshold with
      | mk found g' =>
        rw [hack] at hg
        cases found with
        | none =>
          have hnone : g.highestPending c.cpuIndex c.irqThreshold = none := by
            rw [← GicV3.acknowledge_fst, hack]
          rw [GicV3.acknowledge_of_none hnone] at hack
          cases hack
          exact ⟨.refl g, id, fun _ _ => noteNegativeQuery_sound hnone rfl⟩
        | some intid => exact .of_invalid hg rfl
    · exact .of_guarded (.refl g) rfl rfl

theorem dropManual_keepsSound (intid : Nat) : KeepsSound c g (c.dropManual g intid) := by
  unfold dropManual
  cases c.icc.manualIrqs.top? with
  | none => exact .of_guarded (.refl g) rfl rfl
  | some m =>
    dsimp only
    split_ifs
    · exact .of_guarded (.refl g) rfl rfl
    · exact .of_guarded (.refl g) rfl rfl
    · exact .of_guarded (.eoi ..) rfl rfl

theorem iccPriorityDrop_keepsSound (intid : Nat) : KeepsSound c g (c.iccPriorityDrop g intid) := by
  unfold iccPriorityDrop
  cases c.exceptions.top? with
  | none => exact dropManual_keepsSound intid
  | some f =>
    dsimp only
    split
    · refine .of_guarded ?_ rfl rfl
      split
      · exact .refl g
      · exact .eoi ..
    · exact dropManual_keepsSound intid

theorem iccDeactivate_keepsSound (intid : Nat) : KeepsSound c g (c.iccDeactivate g intid) := by
  unfold iccDeactivate
  cases c.icc.manualIrqs.top? with
  | none => exact .of_guarded (.eoi ..) rfl rfl
  | some m =>
    dsimp only
    split
    · exact .of_guarded (.eoi ..) rfl rfl
    · exact .of_guarded (.eoi ..) rfl rfl

theorem perform_keepsSound (op : CpuOp) : KeepsSound c g (c.perform g op) := by
  cases op with
  | enterSyncException faultPc ec iss farValid far => exact enterSyncException_keepsSound ..
  | tryTakeIrq => exact tryTakeIrq_keepsSound
  | eret => exact eret_keepsSound
  | irqWakeupReady => exact irqWakeupReady_keepsSound
  | readIccIar1El1 => exact readIccIar1El1_keepsSound
  | writeIccEoir1El1 value => exact iccPriorityDrop_keepsSound _
  | writeIccDirEl1 value => exact iccDeactivate_keepsSound _
  | writeIccPmrEl1 value => exact .of_guarded (.refl g) rfl rfl
  | writeIccCtlrEl1 value => exact .of_guarded (.refl g) rfl rfl
  | writeIccIgrpen1El1 value => exact .of_guarded (.refl g) rfl rfl
  | writeIccSgi1rEl1 value => exact .of_guarded (.sendSgi ..) rfl rfl
  | other after => exact .of_guarded (.refl g) rfl rfl

/-- What a snapshot load leaves of a CPU: the contents of the stream with no query noted. The index
of the CPU is not in it. -/
def loadState (c contents : Cpu) : Cpu :=
  { contents with cpuIndex := c.cpuIndex, icc.irqQuery := ⟨0, 0, false⟩ }

end Cpu

/-! ## Runs -/

/-- What happens to the machine: what CPUs do and what is done to the controller, the reset of a
CPU that another one powers on, and the load of a snapshot, which holds the CPUs it holds. -/
inductive MachineOp where
  | cluster (op : ClusterOp)
  | resetCpu (i : Nat) (pc : U64)
  | loadSnapshot (version : Nat) (gic : GicV3) (cpus : Nat → Option Cpu)

namespace Cluster

def machineStep (s : Cluster) : MachineOp → Cluster
  | .cluster op => s.step op
  | .resetCpu i pc =>
    { s with cpus := Function.update s.cpus i (.reset (s.cpus i).cpuIndex ((s.cpus i).regs 31) pc) }
  | .loadSnapshot version gic cpus =>
    { cpus := fun i => ((cpus i).map (s.cpus i).loadState).getD (s.cpus i)
      gic := s.gic.loadState gic version }

/-- The result caches of the controller and the noted queries of the CPUs. -/
structure QueriesSound (s : Cluster) : Prop where
  cache : s.gic.CacheSound
  query : ∀ i, (s.cpus i).QuerySound s.gic

theorem QueriesSound.machineStep {s : Cluster} (h : s.QueriesSound) (op : MachineOp) :
    (s.machineStep op).QueriesSound := by
  cases op with
  | cluster op =>
    cases op with
    | gic op =>
      exact ⟨h.cache.step op, fun i => (h.query i).advance (s.gic.step_advances op)⟩
    | cpu i op =>
      by_cases hh : (s.cpus i).halted = true
      · rw [Cluster.machineStep, step_cpu_of_halted hh]
        exact h
      · rw [Cluster.machineStep, step_cpu_of_running (Bool.not_eq_true _ ▸ hh)]
        have hk := @Cpu.perform_keepsSound (s.cpus i) s.gic op
        refine ⟨hk.cache h.cache, fun j => ?_⟩
        by_cases hj : j = i
        · subst hj
          dsimp only
          rw [Function.update_self]
          exact hk.query h.cache (h.query j)
        · dsimp only
          rw [Function.update_of_ne hj]
          exact (h.query j).advance hk.advances
  | resetCpu i pc =>
    refine ⟨h.cache, fun j => ?_⟩
    by_cases hj : j = i
    · subst hj
      simp only [Cluster.machineStep, Function.update_self]
      exact Cpu.querySound_of_invalid rfl
    · simp only [Cluster.machineStep, Function.update_of_ne hj]
      exact h.query j
  | loadSnapshot version gic cpus =>
    refine ⟨s.gic.loadState_cacheSound gic version, fun j => ?_⟩
    simp only [Cluster.machineStep]
    cases cpus j with
    | none => exact (h.query j).advance (s.gic.loadState_advances gic version)
    | some contents => exact Cpu.querySound_of_invalid rfl

theorem reset_queriesSound (cpuCount : Nat) (sp pc : Nat → U64) :
    (reset cpuCount sp pc).QueriesSound :=
  ⟨GicV3.reset_cacheSound cpuCount, fun _ => Cpu.querySound_of_invalid rfl⟩

/-- In every state that a run from reset reaches, a query that a CPU suppresses with interrupts
unmasked and enabled finds nothing, and `has_pending` answers what `highest_pending` finds. -/
theorem suppressed_query_finds_nothing (cpuCount : Nat) (sp pc : Nat → U64)
    (ops : List MachineOp) :
    let s := run machineStep (reset cpuCount sp pc) ops
    (∀ i, (s.cpus i).shouldTryIrq s.gic = false → (s.cpus i).sysregs.irqMasked = false →
      (s.cpus i).icc.iccIgrpen1El1 ≠ 0 →
      s.gic.highestPending (s.cpus i).cpuIndex (s.cpus i).irqThreshold = none) ∧
    ∀ cpuIndex pmr, (s.gic.hasPending cpuIndex pmr).1 =
      (s.gic.highestPending cpuIndex pmr).isSome := by
  intro s
  have h : s.QueriesSound :=
    run_invariant (fun s op hs => hs.machineStep op) ops (reset_queriesSound cpuCount sp pc)
  exact ⟨fun i hs hm he => (h.query i).suppressed hs hm he, h.cache.hasPending_fst⟩

end Cluster
end Aarchvm

import Aarchvm.Cpu.Icc
import Aarchvm.Gic.Line

/-!
# CPUs sharing one interrupt controller

Any number of CPUs, each with its own exception stack and ICC state, and the one
GIC. A run is any interleaving of what the CPUs do and of what devices and MMIO
accesses do to the GIC. Whatever else an instruction does is left open: it may
change every member but the two stacks, the ICC registers and the CPU index.
-/
namespace Aarchvm

open Lib.Run

inductive CpuOp where
  | enterSyncException (faultPc : U64) (ec iss : U32) (farValid : Bool) (far : U64)
  | tryTakeIrq
  | eret
  | irqWakeupReady
  | readIccIar1El1
  | writeIccEoir1El1 (value : U64)
  | writeIccDirEl1 (value : U64)
  | writeIccPmrEl1 (value : U64)
  | writeIccCtlrEl1 (value : U64)
  | writeIccIgrpen1El1 (value : U64)
  | writeIccSgi1rEl1 (value : U64)
  | other (after : Cpu)

inductive ClusterOp where
  | cpu (i : Nat) (op : CpuOp)
  | gic (op : GicOp)

/-- The INTID that an EOIR or DIR write names: `static_cast<std::uint32_t>(reg(rt))`. -/
def writtenIntid (value : U64) : Nat := (value.setWidth 32).toNat

namespace Cpu

def perform (c : Cpu) (g : GicV3) : CpuOp → Cpu × GicV3
  | .enterSyncException faultPc ec iss farValid far =>
    (c.enterSyncException faultPc ec iss farValid far, g)
  | .tryTakeIrq => (c.tryTakeIrq g).2
  | .eret => c.eret g
  | .irqWakeupReady => (c.irqWakeupReady g).2
  | .readIccIar1El1 => (c.readIccIar1El1 g).2
  | .writeIccEoir1El1 value => c.iccPriorityDrop g (writtenIntid value)
  | .writeIccDirEl1 value => c.iccDeactivate g (writtenIntid value)
  | .writeIccPmrEl1 value => ({ c with icc.priorities := c.icc.priorities.setPmr value }, g)
  | .writeIccCtlrEl1 value => ({ c with icc.iccCtlrEl1 := value }, g)
  | .writeIccIgrpen1El1 value => ({ c with icc.iccIgrpen1El1 := value &&& 1 }, g)
  | .writeIccSgi1rEl1 value => (c, g.sendSgi c.cpuIndex value)
  | .other after =>
    ({ after with exceptions := c.exceptions, icc := c.icc, cpuIndex := c.cpuIndex }, g)

/-- The INTID that the operation acknowledges in the GIC. -/
def acknowledges (c : Cpu) (g : GicV3) : CpuOp → Option Nat
  | .tryTakeIrq => (g.acknowledge c.cpuIndex c.irqThreshold).1
  | .readIccIar1El1 =>
    if c.currentIrq = none ∧ c.icc.iccIgrpen1El1 ≠ 0 ∧
        c.icc.manualIrqs.depth < kExceptionStackCapacity then
      (g.acknowledge c.cpuIndex c.irqThreshold).1
    else none
  | _ => none

/-- A polled read returns what it acknowledges. -/
theorem readIccIar1El1_polled {c : Cpu} {g : GicV3} (h : c.currentIrq = none) :
    (c.readIccIar1El1 g).1 = (c.acknowledges g .readIccIar1El1).getD 1023 := by
  unfold readIccIar1El1 readIarPolled acknowledges
  rw [h]
  dsimp only
  by_cases hr : c.icc.iccIgrpen1El1 ≠ 0 ∧ c.icc.manualIrqs.depth < kExceptionStackCapacity
  · rw [dif_pos hr, if_pos ⟨rfl, hr⟩, ← Prod.eta (g.acknowledge c.cpuIndex c.irqThreshold)]
    cases (g.acknowledge c.cpuIndex c.irqThreshold).1 <;> rfl
  · rw [dif_neg hr, if_neg (fun h' => hr h'.2)]
    rfl

end Cpu

structure Cluster where
  cpus : Nat → Cpu
  gic : GicV3

namespace Cluster

def reset (cpuCount : Nat) (sp pc : Nat → U64) : Cluster where
  cpus := fun i => .reset i (sp i) (pc i)
  gic := .reset cpuCount

/-- A halted CPU does nothing: `step` returns at once. -/
def step (s : Cluster) : ClusterOp → Cluster
  | .cpu i op =>
    if (s.cpus i).halted then s
    else
      let r := (s.cpus i).perform s.gic op
      ⟨Function.update s.cpus i r.1, r.2⟩
  | .gic op => { s with gic := s.gic.step op }

theorem step_cpu_of_running {s : Cluster} {i : Nat} {op : CpuOp} (h : (s.cpus i).halted = false) :
    s.step (.cpu i op) =
      ⟨Function.update s.cpus i ((s.cpus i).perform s.gic op).1,
        ((s.cpus i).perform s.gic op).2⟩ := by
  simp only [step, h, Bool.false_eq_true, if_false]

theorem step_cpu_of_halted {s : Cluster} {i : Nat} {op : CpuOp} (h : (s.cpus i).halted = true) :
    s.step (.cpu i op) = s := by
  simp only [step, h, if_true]

/-- What one CPU does leaves the others alone. -/
theorem step_cpu_of_ne (s : Cluster) {i j : Nat} (op : CpuOp) (h : j ≠ i) :
    (s.step (.cpu i op)).cpus j = s.cpus j := by
  unfold step
  dsimp only
  split
  · rfl
  · exact Function.update_of_ne h _ _

theorem step_cpu_self {s : Cluster} {i : Nat} {op : CpuOp} (h : (s.cpus i).halted = false) :
    (s.step (.cpu i op)).cpus i = ((s.cpus i).perform s.gic op).1 := by
  rw [step_cpu_of_running h]
  exact Function.update_self _ _ _

end Cluster
end Aarchvm

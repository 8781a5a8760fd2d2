import Aarchvm.Cpu.Cluster

/-!
# Delivery of exceptions

The shadow exception stack has 64 levels, one for each entry that no ERET of the
same CPU has popped. An exception is delivered when there is a level left, and
halts the CPU otherwise: an interrupt is then already acknowledged. So delivery
depends on history through one number, the entries less the returns.
-/
namespace Aarchvm

open Lib.Run

namespace Cpu

/-- Does the operation enter an exception? An interrupt probe does when its acknowledge
succeeds. -/
def enters (c : Cpu) (g : GicV3) : CpuOp → Bool
  | .enterSyncException _ _ _ _ _ => true
  | .tryTakeIrq => (g.acknowledge c.cpuIndex c.irqThreshold).1.isSome
  | _ => false

/-- The count of unreturned entries after the operation. -/
def countUnreturned (c : Cpu) (g : GicV3) (op : CpuOp) (n : Nat) : Nat :=
  if c.enters g op then n + 1
  else
    match op with
    | .eret => n - 1
    | _ => n

theorem tryTakeIrq_depth {c : Cpu} {g : GicV3}
    (h : c.enters g .tryTakeIrq = true → c.exceptions.depth < kExceptionStackCapacity) :
    (c.tryTakeIrq g).2.1.exceptions.depth =
      c.countUnreturned g .tryTakeIrq c.exceptions.depth := by
  unfold countUnreturned
  cases hack : (g.acknowledge c.cpuIndex c.irqThreshold).1 with
  | none =>
    have he : c.enters g .tryTakeIrq = false := by simp [enters, hack]
    rw [tryTakeIrq_of_none hack, he]
    rfl
  | some intid =>
    have he : c.enters g .tryTakeIrq = true := by simp [enters, hack]
    obtain ⟨newPrio, ht⟩ := tryTakeIrq_of_room hack (h he)
    rw [ht, if_pos he]
    rfl

/-- With room for an entry, the depth is counted like the unreturned entries. -/
theorem perform_depth {c : Cpu} {g : GicV3} {op : CpuOp}
    (h : c.enters g op = true → c.exceptions.depth < kExceptionStackCapacity) :
    (c.perform g op).1.exceptions.depth = c.countUnreturned g op c.exceptions.depth := by
  cases op with
  | enterSyncException faultPc ec iss farValid far =>
    show (c.enterSyncException faultPc ec iss farValid far).exceptions.depth = _
    rw [(enterSyncException_of_room faultPc ec iss farValid far (h rfl)).1]
    rfl
  | tryTakeIrq => exact tryTakeIrq_depth h
  | eret =>
    show (c.eret g).1.exceptions.depth = _
    rw [eret_exceptions, Lib.Stack.depth_pop]
    rfl
  | irqWakeupReady =>
    show (c.irqWakeupReady g).2.1.exceptions.depth = _
    rw [irqWakeupReady_exceptions]
    rfl
  | readIccIar1El1 =>
    show (c.readIccIar1El1 g).2.1.exceptions.depth = _
    rw [readIccIar1El1_exceptions]
    rfl
  | writeIccEoir1El1 value => exact iccPriorityDrop_depth ..
  | writeIccDirEl1 value =>
    show (c.iccDeactivate g _).1.exceptions.depth = _
    rw [iccDeactivate_exceptions]
    rfl
  | writeIccPmrEl1 value => rfl
  | writeIccCtlrEl1 value => rfl
  | writeIccIgrpen1El1 value => rfl
  | writeIccSgi1rEl1 value => rfl
  | other after => rfl

/-- The operation, if it enters an exception, delivers it; an interrupt is then the one
that ICC_IAR1_EL1 returns. -/
def Delivers (c : Cpu) (g : GicV3) : CpuOp → Prop
  | .enterSyncException faultPc ec iss farValid far =>
    Delivered c (c.enterSyncException faultPc ec iss farValid far) 0 (syncReturnPc faultPc ec)
        (c.capturedPstateForSyncException ec) (SystemRegisters.syncSyndrome ec iss) ∧
      (c.enterSyncException faultPc ec iss farValid far).sysregs.farEl1 =
        if farValid then far else 0
  | .tryTakeIrq =>
    ∀ intid, (g.acknowledge c.cpuIndex c.irqThreshold).1 = some intid →
      Delivered c (c.tryTakeIrq g).2.1 0x80 c.pc c.sysregs.pstate.bits 0 ∧
        (c.tryTakeIrq g).2.1.currentIrq = some intid
  | _ => True

theorem tryTakeIrq_delivers_iff {c : Cpu} {g : GicV3} (hrun : c.halted = false) :
    c.Delivers g .tryTakeIrq ↔
      (c.enters g .tryTakeIrq = true → c.exceptions.depth < kExceptionStackCapacity) := by
  constructor
  · intro h he
    obtain ⟨intid, hack⟩ := Option.isSome_iff_exists.1 he
    by_contra hfull
    have hd := (h intid hack).1.running
    rw [tryTakeIrq_of_full hack hfull] at hd
    cases hd
  · intro h intid hack
    have hroom := h (by simp [enters, hack])
    obtain ⟨newPrio, ht⟩ := tryTakeIrq_of_room hack hroom
    have hd := deliverIrq_delivered (c := c.acknowledged) intid newPrio hroom hrun
    rw [ht]
    refine ⟨⟨hd.running, hd.elr, hd.spsr, hd.esr, hd.pc⟩, ?_⟩
    unfold currentIrq
    dsimp only
    rw [(deliverIrq_frame (c := c.acknowledged) intid newPrio hroom).1]
    rfl

/-- An entry is delivered exactly when the stack has room for its frame. -/
theorem delivers_iff {c : Cpu} {g : GicV3} {op : CpuOp} (hrun : c.halted = false) :
    c.Delivers g op ↔
      (c.enters g op = true → c.exceptions.depth < kExceptionStackCapacity) := by
  cases op with
  | tryTakeIrq => exact tryTakeIrq_delivers_iff hrun
  | enterSyncException faultPc ec iss farValid far =>
    constructor
    · intro h _
      by_contra hfull
      have hd := h.1.running
      rw [enterSyncException_of_full faultPc ec iss farValid far hfull] at hd
      cases hd
    · intro h
      exact enterSyncException_delivered faultPc ec iss farValid far (h rfl) hrun
  | _ => simp [Delivers, enters]

end Cpu

/-! ## Runs -/

/-- A cluster with, for each CPU, its entries less its returns (never below zero). -/
structure Counted where
  cluster : Cluster
  unreturned : Nat → Nat

namespace Counted

def reset (cpuCount : Nat) (sp pc : Nat → U64) : Counted := ⟨.reset cpuCount sp pc, fun _ => 0⟩

def step (t : Counted) (op : ClusterOp) : Counted where
  cluster := t.cluster.step op
  unreturned :=
    match op with
    | .cpu i op =>
      let c := t.cluster.cpus i
      if c.halted then t.unreturned
      else Function.update t.unreturned i (c.countUnreturned t.cluster.gic op (t.unreturned i))
    | .gic _ => t.unreturned

/-- Every exception that the operation enters is delivered. -/
def Delivers (t : Counted) : ClusterOp → Prop
  | .cpu i op => (t.cluster.cpus i).halted = false → (t.cluster.cpus i).Delivers t.cluster.gic op
  | .gic _ => True

/-- An exception is entered with fewer than 64 unreturned entries on its CPU only. -/
def HasRoom (t : Counted) : ClusterOp → Prop
  | .cpu i op =>
    (t.cluster.cpus i).halted = false → (t.cluster.cpus i).enters t.cluster.gic op = true →
      t.unreturned i < kExceptionStackCapacity
  | .gic _ => True

/-- The depth of every CPU that still runs is the count. -/
def Faithful (t : Counted) : Prop :=
  ∀ i, (t.cluster.cpus i).halted = false →
    (t.cluster.cpus i).exceptions.depth = t.unreturned i

theorem delivers_iff_hasRoom {t : Counted} {op : ClusterOp} (h : t.Faithful) :
    t.Delivers op ↔ t.HasRoom op := by
  cases op with
  | gic op => exact Iff.rfl
  | cpu i op =>
    refine forall_congr' fun hrun => ?_
    rw [Cpu.delivers_iff hrun, h i hrun]

theorem faithful_step {t : Counted} {op : ClusterOp} (h : t.Faithful) (hroom : t.HasRoom op) :
    (t.step op).Faithful := by
  cases op with
  | gic op => exact h
  | cpu i op =>
    intro j hj
    cases hi : (t.cluster.cpus i).halted with
    | true =>
      simp only [step, Cluster.step_cpu_of_halted hi, hi, if_true] at hj ⊢
      exact h j hj
    | false =>
      simp only [step, hi, Bool.false_eq_true, if_false] at hj ⊢
      by_cases hji : j = i
      · subst hji
        rw [Cluster.step_cpu_self hi, Function.update_self, ← h j hi]
        refine Cpu.perform_depth fun he => ?_
        rw [h j hi]
        exact hroom hi he
      · rw [Cluster.step_cpu_of_ne _ _ hji] at hj ⊢
        rw [Function.update_of_ne hji]
        exact h j hj

/-- From reset, every exception of a run is delivered if and only if each is entered with
fewer than 64 unreturned entries on its CPU. -/
theorem exceptions_delivered_iff (cpuCount : Nat) (sp pc : Nat → U64) (ops : List ClusterOp) :
    Along step Delivers (reset cpuCount sp pc) ops ↔
      Along step HasRoom (reset cpuCount sp pc) ops := by
  have hiff : ∀ t op, Faithful t → (Delivers t op ↔ HasRoom t op) :=
    fun _ _ => delivers_iff_hasRoom
  have hstep : ∀ t op, Faithful t → Delivers t op → Faithful (step t op) :=
    fun t op h hd => faithful_step h ((hiff t op h).1 hd)
  exact along_iff_of_invariant hiff hstep fun _ _ => rfl

end Counted

/-! ## An interrupt that arrives with 64 entries unreturned -/

namespace Cluster

/-- SVC at address 0. -/
def svc : ClusterOp := .cpu 0 (.enterSyncException 0 0x15 0 false 0)

/-- Nested SVCs that never return fill the stack and touch neither the ICC state nor the
GIC. -/
theorem run_svc {n : Nat} {s : Cluster} (hrun : (s.cpus 0).halted = false)
    (hroom : (s.cpus 0).exceptions.depth + n ≤ kExceptionStackCapacity) :
    ((run step s (List.replicate n svc)).cpus 0).halted = false ∧
      ((run step s (List.replicate n svc)).cpus 0).exceptions.depth =
        (s.cpus 0).exceptions.depth + n ∧
      ((run step s (List.replicate n svc)).cpus 0).icc = (s.cpus 0).icc ∧
      ((run step s (List.replicate n svc)).cpus 0).cpuIndex = (s.cpus 0).cpuIndex ∧
      (run step s (List.replicate n svc)).gic = s.gic := by
  induction n generalizing s with
  | zero => exact ⟨hrun, rfl, rfl, rfl, rfl⟩
  | succ n ih =>
    have hlt : (s.cpus 0).exceptions.depth < kExceptionStackCapacity := by omega
    obtain ⟨hexc, hicc, hidx⟩ := Cpu.enterSyncException_of_room 0 0x15 0 false 0 hlt
    have hcpu : (s.step svc).cpus 0 = (s.cpus 0).enterSyncException 0 0x15 0 false 0 :=
      step_cpu_self hrun
    have hgic : (s.step svc).gic = s.gic := by
      rw [svc, step_cpu_of_running hrun]
      rfl
    have hdepth : ((s.step svc).cpus 0).exceptions.depth = (s.cpus 0).exceptions.depth + 1 := by
      rw [hcpu, hexc]
      rfl
    have hrun' : ((s.step svc).cpus 0).halted = false := by
      rw [hcpu]
      exact (Cpu.enterSyncException_delivered 0 0x15 0 false 0 hlt hrun).1.running
    obtain ⟨h₁, h₂, h₃, h₄, h₅⟩ := ih hrun' (by omega)
    rw [List.replicate_succ, run_cons]
    refine ⟨h₁, ?_, ?_, ?_, ?_⟩
    · rw [h₂, hdepth]
      omega
    · rw [h₃, hcpu, hicc]
    · rw [h₄, hcpu, hidx]
    · rw [h₅, hgic]

/-- With a full stack an acknowledged interrupt is dropped: the CPU halts without a frame
for it, and the GIC has acknowledged it. -/
theorem irq_dropped_of_full {s : Cluster} {i intid : Nat} (hrun : (s.cpus i).halted = false)
    (hfull : ¬ (s.cpus i).exceptions.depth < kExceptionStackCapacity)
    (hack : (s.gic.acknowledge (s.cpus i).cpuIndex (s.cpus i).irqThreshold).1 = some intid) :
    ((s.step (.cpu i .tryTakeIrq)).cpus i).halted = true ∧
      ((s.step (.cpu i .tryTakeIrq)).cpus i).exceptions = (s.cpus i).exceptions ∧
      (s.step (.cpu i .tryTakeIrq)).gic =
        s.gic.step (.acknowledge (s.cpus i).cpuIndex (s.cpus i).irqThreshold) := by
  have htake : (s.cpus i).perform s.gic .tryTakeIrq = _ :=
    congrArg Prod.snd (Cpu.tryTakeIrq_of_full hack hfull)
  rw [step_cpu_of_running hrun, htake]
  dsimp only
  rw [Function.update_self]
  exact ⟨rfl, rfl, rfl⟩

/-- CPU 0 with group 1 interrupts enabled and SPI 33 enabled and pending. -/
def irqWaiting : Cluster :=
  run step (.reset 1 (fun _ => 0) fun _ => 0)
    [.gic (.write (kGicdIsenabler + 4) 2 4), .gic (.setPendingOn 0 33),
      .cpu 0 (.writeIccIgrpen1El1 1)]

/-- 64 nested SVCs, after which software unmasks interrupts. -/
def deepIrqWaiting : Cluster :=
  run step irqWaiting (List.replicate 64 svc ++ [.cpu 0 (.other (.reset 0 0 0))])

/-- What an instruction that is none of the modelled ones leaves behind. -/
theorem step_other {s : Cluster} {after : Cpu} (hrun : (s.cpus 0).halted = false) :
    ((s.step (.cpu 0 (.other after))).cpus 0).halted = after.halted ∧
      ((s.step (.cpu 0 (.other after))).cpus 0).exceptions = (s.cpus 0).exceptions ∧
      ((s.step (.cpu 0 (.other after))).cpus 0).icc = (s.cpus 0).icc ∧
      ((s.step (.cpu 0 (.other after))).cpus 0).cpuIndex = (s.cpus 0).cpuIndex ∧
      ((s.step (.cpu 0 (.other after))).cpus 0).sysregs = after.sysregs ∧
      (s.step (.cpu 0 (.other after))).gic = s.gic := by
  rw [step_cpu_self hrun, step_cpu_of_running hrun]
  exact ⟨rfl, rfl, rfl, rfl, rfl, rfl⟩

theorem deepIrqWaiting_cpu :
    (deepIrqWaiting.cpus 0).halted = false ∧
      (deepIrqWaiting.cpus 0).exceptions.depth = kExceptionStackCapacity ∧
      (deepIrqWaiting.cpus 0).icc = (irqWaiting.cpus 0).icc ∧
      (deepIrqWaiting.cpus 0).cpuIndex = 0 ∧
      (deepIrqWaiting.cpus 0).sysregs.irqMasked = false ∧
      deepIrqWaiting.gic = irqWaiting.gic := by
  have hrun : (irqWaiting.cpus 0).halted = false := by decide
  have hdepth : (irqWaiting.cpus 0).exceptions.depth = 0 := by decide
  have hidx : (irqWaiting.cpus 0).cpuIndex = 0 := by decide
  obtain ⟨h₁, h₂, h₃, h₄, h₅⟩ := run_svc (n := 64) hrun (by decide +kernel)
  obtain ⟨g₁, g₂, g₃, g₄, g₅, g₆⟩ := @step_other _ (.reset 0 0 0) h₁
  rw [deepIrqWaiting, run_append, run_cons, run_nil]
  refine ⟨g₁, ?_, g₃.trans h₃, (g₄.trans h₄).trans hidx, ?_, g₆.trans h₅⟩
  · rw [g₂, h₂, hdepth]
    rfl
  · rw [g₅]
    rfl

end Cluster

/-- With 64 exceptions unreturned the next SVC halts the CPU, and an unmasked interrupt is
acknowledged in the GIC and then dropped with the CPU halted. -/
theorem Counted.deep_irq_dropped :
    ((Cluster.deepIrqWaiting.step Cluster.svc).cpus 0).halted = true ∧
    (Cluster.deepIrqWaiting.cpus 0).shouldTryIrq Cluster.deepIrqWaiting.gic = true ∧
    (Cluster.deepIrqWaiting.gic.line .shared 33).pending = true ∧
    ((Cluster.deepIrqWaiting.step (.cpu 0 .tryTakeIrq)).cpus 0).halted = true ∧
    (Cluster.deepIrqWaiting.step (.cpu 0 .tryTakeIrq)).gic.line .shared 33 =
      ⟨false, false, true⟩ := by
  obtain ⟨hrun, hdepth, hicc, hidx, hmask, hgic⟩ := Cluster.deepIrqWaiting_cpu
  have hfull : ¬ (Cluster.deepIrqWaiting.cpus 0).exceptions.depth < kExceptionStackCapacity := by
    omega
  have hthr : (Cluster.deepIrqWaiting.cpus 0).irqThreshold = 0xFF := by
    unfold Cpu.irqThreshold
    rw [hicc]
    decide
  have hack : (Cluster.deepIrqWaiting.gic.acknowledge (Cluster.deepIrqWaiting.cpus 0).cpuIndex
      (Cluster.deepIrqWaiting.cpus 0).irqThreshold).1 = some 33 := by
    rw [hthr, hidx, hgic]
    decide +kernel
  obtain ⟨hhalt, -, hgic'⟩ := Cluster.irq_dropped_of_full hrun hfull hack
  rw [hthr, hidx, hgic] at hgic'
  refine ⟨?_, ?_, ?_, hhalt, ?_⟩
  · rw [Cluster.svc, Cluster.step_cpu_self hrun]
    exact congrArg Cpu.halted (Cpu.enterSyncException_of_full 0 0x15 0 false 0 hfull)
  · unfold Cpu.shouldTryIrq
    rw [hmask, hicc, hgic]
    decide
  · rw [hgic]
    decide +kernel
  · rw [hgic']
    decide +kernel

end Aarchvm

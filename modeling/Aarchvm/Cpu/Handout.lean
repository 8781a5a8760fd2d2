import Aarchvm.Cpu.Cluster

/-!
# What ICC_IAR1_EL1 hands out

Each successful acknowledge of a CPU gets a number. An interrupt entry keeps the
number with its frame, and a read inside the handler returns that frame's INTID;
a polled read acknowledges by itself. Every INTID returned is one that the CPU
acknowledged, but nothing keeps a handler from reading it twice: each
acknowledgement is returned at most once if and only if no handler reads the
register again.
-/
namespace Aarchvm

open Lib.Run

/-- The INTID of an interrupt frame. -/
def ExceptionFrame.tag (f : ExceptionFrame) : Option Nat := if f.isIrq then some f.intid else none

namespace Cpu

def tags (c : Cpu) : List (Option Nat) := c.exceptions.items.map ExceptionFrame.tag

/-- The frame that the operation pushes on the exception stack. -/
def pushed (c : Cpu) (g : GicV3) (op : CpuOp) : Option (Option Nat) :=
  if c.exceptions.depth < kExceptionStackCapacity then
    match op with
    | .enterSyncException _ _ _ _ _ => some none
    | .tryTakeIrq => (c.acknowledges g .tryTakeIrq).map some
    | _ => none
  else none

theorem currentIrq_eq (c : Cpu) : c.currentIrq = c.tags.head?.join := by
  unfold currentIrq tags Lib.Stack.top?
  cases c.exceptions.items <;> rfl

theorem dropCurrentIrq_tags (c : Cpu) (g : GicV3) (f : ExceptionFrame) :
    (c.dropCurrentIrq g f).1.tags = c.tags := by
  show (c.exceptions.items.modifyHead _).map ExceptionFrame.tag = _
  unfold tags
  cases c.exceptions.items <;> rfl

theorem iccPriorityDrop_tags (c : Cpu) (g : GicV3) (intid : Nat) :
    (c.iccPriorityDrop g intid).1.tags = c.tags := by
  unfold iccPriorityDrop
  split
  · rw [tags, dropManual_exceptions, tags]
  · split
    · exact dropCurrentIrq_tags ..
    · rw [tags, dropManual_exceptions, tags]

theorem enterSyncException_tags (c : Cpu) (g : GicV3) (faultPc : U64) (ec iss : U32)
    (farValid : Bool) (far : U64) :
    (c.enterSyncException faultPc ec iss farValid far).tags =
      (c.pushed g (.enterSyncException faultPc ec iss farValid far)).toList ++ c.tags := by
  unfold pushed
  split
  next h => rw [tags, (enterSyncException_of_room faultPc ec iss farValid far h).1]; rfl
  next h => rw [enterSyncException_of_full faultPc ec iss farValid far h]; rfl

theorem tryTakeIrq_tags (c : Cpu) (g : GicV3) :
    (c.tryTakeIrq g).2.1.tags = (c.pushed g .tryTakeIrq).toList ++ c.tags := by
  cases hack : (g.acknowledge c.cpuIndex c.irqThreshold).1 with
  | none =>
    have hp : c.pushed g .tryTakeIrq = none := by simp [pushed, acknowledges, hack]
    rw [tryTakeIrq_of_none hack, hp]
    rfl
  | some intid =>
    by_cases h : c.exceptions.depth < kExceptionStackCapacity
    · have hp : c.pushed g .tryTakeIrq = some (some intid) := by
        simp [pushed, acknowledges, hack, h]
      obtain ⟨newPrio, ht⟩ := tryTakeIrq_of_room hack h
      rw [ht, tags, hp]
      dsimp only
      rw [(deliverIrq_frame (c := c.acknowledged) intid newPrio h).1]
      rfl
    · have hp : c.pushed g .tryTakeIrq = none := by simp [pushed, h]
      rw [tryTakeIrq_of_full hack h, hp]
      rfl

/-- How every operation changes the frames' INTIDs. -/
theorem perform_tags (c : Cpu) (g : GicV3) (op : CpuOp) :
    (c.perform g op).1.tags =
      match op with
      | .eret => c.tags.tail
      | op => (c.pushed g op).toList ++ c.tags := by
  cases op with
  | enterSyncException faultPc ec iss farValid far => exact enterSyncException_tags ..
  | tryTakeIrq => exact tryTakeIrq_tags ..
  | eret =>
    show (c.eret g).1.tags = _
    rw [tags, eret_exceptions, Lib.Stack.items_pop, List.map_tail]
    rfl
  | irqWakeupReady =>
    show (c.irqWakeupReady g).2.1.tags = _
    rw [tags, irqWakeupReady_exceptions]
    simp [pushed, tags]
  | readIccIar1El1 =>
    show (c.readIccIar1El1 g).2.1.tags = _
    rw [tags, readIccIar1El1_exceptions]
    simp [pushed, tags]
  | writeIccEoir1El1 value =>
    show (c.iccPriorityDrop g _).1.tags = _
    rw [iccPriorityDrop_tags]
    simp [pushed]
  | writeIccDirEl1 value =>
    show (c.iccDeactivate g _).1.tags = _
    rw [tags, iccDeactivate_exceptions]
    simp [pushed, tags]
  | _ => simp [perform, pushed, tags]

end Cpu

/-! ## Runs -/

/-- A cluster with what CPU `i` has acknowledged so far: the INTIDs in order, the number of
the acknowledgement that each exception frame holds, and the numbers and INTIDs that reads
of ICC_IAR1_EL1 have returned. -/
structure Handout where
  cluster : Cluster
  acks : List Nat
  held : List (Option Nat)
  returned : List (Nat × Nat)

namespace Handout

/-- The numbers of the acknowledgements that reads have returned. -/
def numbers (t : Handout) : List Nat := t.returned.map Prod.fst

def reset (cpuCount : Nat) (sp pc : Nat → U64) : Handout := ⟨.reset cpuCount sp pc, [], [], []⟩

/-- The number and the INTID that the operation returns to software, unless it is 1023. -/
def returns (t : Handout) (c : Cpu) : CpuOp → Option (Nat × Nat)
  | .readIccIar1El1 =>
    let value := (c.readIccIar1El1 t.cluster.gic).1
    if value = 1023 then none
    else
      match c.currentIrq with
      | some _ => t.held.head?.join.map (·, value)
      | none => some (t.acks.length, value)
  | _ => none

/-- The numbers of the frames after the operation. -/
def holds (t : Handout) (c : Cpu) (op : CpuOp) : List (Option Nat) :=
  match op with
  | .eret => t.held.tail
  | op => ((c.pushed t.cluster.gic op).map (·.map fun _ => t.acks.length)).toList ++ t.held

def stepCpu (t : Handout) (c : Cpu) (op : CpuOp) (cluster : Cluster) : Handout where
  cluster := cluster
  acks := t.acks ++ (c.acknowledges t.cluster.gic op).toList
  held := t.holds c op
  returned := t.returned ++ (t.returns c op).toList

variable (i : Nat)

def step (t : Handout) (op : ClusterOp) : Handout :=
  match op with
  | .cpu j op =>
    if j = i ∧ (t.cluster.cpus i).halted = false then
      t.stepCpu (t.cluster.cpus i) op (t.cluster.step (.cpu j op))
    else { t with cluster := t.cluster.step (.cpu j op) }
  | .gic op => { t with cluster := t.cluster.step (.gic op) }

/-- The number that a read in the handler of an interrupt returns, if the operation is one. -/
def replays (t : Handout) : ClusterOp → Option Nat
  | .cpu j .readIccIar1El1 =>
    if j = i ∧ (t.cluster.cpus i).halted = false ∧ (t.cluster.cpus i).currentIrq.isSome then
      t.held.head?.join
    else none
  | _ => none

/-- No handler reads ICC_IAR1_EL1 after a read has returned its interrupt. -/
def ReadsOnce (t : Handout) (op : ClusterOp) : Prop :=
  ∀ k, t.replays i op = some k → k ∉ t.numbers

/-- The INTID of acknowledgement number `k`. -/
def intidOf (acks : List Nat) (l : Option Nat) : Option Nat := l.bind (acks[·]?)

structure Consistent (t : Handout) : Prop where
  held_intid : t.held.map (intidOf t.acks) = (t.cluster.cpus i).tags
  held_lt : ∀ k, some k ∈ t.held → k < t.acks.length
  returned_intid : ∀ p ∈ t.returned, t.acks[p.1]? = some p.2
  returned_ne : ∀ p ∈ t.returned, p.2 ≠ 1023

variable {i} {t : Handout}

theorem intidOf_append {acks new : List Nat} {l : Option Nat}
    (h : ∀ k, l = some k → k < acks.length) : intidOf (acks ++ new) l = intidOf acks l := by
  cases l with
  | none => rfl
  | some k => exact List.getElem?_append_left (h k rfl)

theorem Consistent.held_append (h : t.Consistent i) (new : List Nat) :
    t.held.map (intidOf (t.acks ++ new)) = (t.cluster.cpus i).tags := by
  rw [← h.held_intid]
  refine List.map_congr_left fun l hl => intidOf_append fun k hk => ?_
  exact h.held_lt k (hk ▸ hl)

/-- The frame of the interrupt being handled holds the number of its acknowledgement. -/
theorem Consistent.held_head (h : t.Consistent i) {intid : Nat}
    (hc : (t.cluster.cpus i).currentIrq = some intid) :
    ∃ k, t.held.head?.join = some k ∧ t.acks[k]? = some intid := by
  rw [Cpu.currentIrq_eq, ← h.held_intid, List.head?_map] at hc
  cases hh : t.held.head? with
  | none =>
    rw [hh] at hc
    cases hc
  | some l =>
    rw [hh] at hc
    cases l with
    | none => cases hc
    | some k => exact ⟨k, rfl, hc⟩

theorem pushed_intid (acks : List Nat) (c : Cpu) (g : GicV3) (op : CpuOp) :
    ((c.pushed g op).map (·.map fun _ => acks.length)).map
        (intidOf (acks ++ (c.acknowledges g op).toList)) = c.pushed g op := by
  unfold Cpu.pushed
  split
  · cases op with
    | enterSyncException faultPc ec iss farValid far => rfl
    | tryTakeIrq =>
      cases hack : c.acknowledges g .tryTakeIrq with
      | none => rfl
      | some intid => simp [intidOf]
    | _ => rfl
  · rfl

/-- A number that the operation puts with a frame is the next acknowledgement's. -/
theorem pushed_number {acks : List Nat} {c : Cpu} {g : GicV3} {op : CpuOp} {k : Nat}
    (h : some k ∈ ((c.pushed g op).map (·.map fun _ => acks.length)).toList) :
    k < (acks ++ (c.acknowledges g op).toList).length := by
  rw [Option.mem_toList, Option.map_eq_some_iff] at h
  obtain ⟨l, hl, hk⟩ := h
  rw [Option.map_eq_some_iff] at hk
  obtain ⟨intid, rfl, rfl⟩ := hk
  have hack : c.acknowledges g op = some intid := by
    unfold Cpu.pushed at hl
    split at hl
    · cases op <;> simp_all
    · cases hl
  simp [hack]

theorem Consistent.holds_intid (h : t.Consistent i) (op : CpuOp) :
    (t.holds (t.cluster.cpus i) op).map
        (intidOf (t.acks ++ ((t.cluster.cpus i).acknowledges t.cluster.gic op).toList)) =
      ((t.cluster.cpus i).perform t.cluster.gic op).1.tags := by
  have hpush := congrArg Option.toList (pushed_intid t.acks (t.cluster.cpus i) t.cluster.gic op)
  have hheld := h.held_append ((t.cluster.cpus i).acknowledges t.cluster.gic op).toList
  rw [Cpu.perform_tags]
  unfold holds
  split
  · rw [List.map_tail, hheld]
  · rw [List.map_append, hheld, ← Option.toList_map, hpush]

theorem Consistent.holds_lt (h : t.Consistent i) (op : CpuOp) {k : Nat}
    (hk : some k ∈ t.holds (t.cluster.cpus i) op) :
    k < (t.acks ++ ((t.cluster.cpus i).acknowledges t.cluster.gic op).toList).length := by
  have hold : some k ∈ t.held →
      k < (t.acks ++ ((t.cluster.cpus i).acknowledges t.cluster.gic op).toList).length := by
    intro hm
    have := h.held_lt k hm
    rw [List.length_append]
    omega
  unfold holds at hk
  split at hk
  · exact hold (List.mem_of_mem_tail hk)
  · rcases List.mem_append.1 hk with hp | hm
    · exact pushed_number hp
    · exact hold hm

/-- What a read returns is the INTID of the acknowledgement it is counted for. -/
theorem Consistent.returns_intid (h : t.Consistent i) {op : CpuOp} {p : Nat × Nat}
    (hp : t.returns (t.cluster.cpus i) op = some p) :
    p.2 ≠ 1023 ∧
      (t.acks ++ ((t.cluster.cpus i).acknowledges t.cluster.gic op).toList)[p.1]? = some p.2 := by
  cases op with
  | readIccIar1El1 =>
    unfold returns at hp
    dsimp only at hp
    split at hp
    next => cases hp
    next hne =>
      cases hc : (t.cluster.cpus i).currentIrq with
      | some intid =>
        obtain ⟨k, hk, hack⟩ := h.held_head hc
        have hv : ((t.cluster.cpus i).readIccIar1El1 t.cluster.gic).1 = intid := by
          unfold Cpu.readIccIar1El1
          rw [hc]
        rw [hc, hk, hv] at hp
        cases hp
        rw [hv] at hne
        refine ⟨hne, ?_⟩
        rw [List.getElem?_append_left (List.getElem?_eq_some_iff.1 hack).1]
        exact hack
      | none =>
        rw [hc] at hp
        cases hp
        refine ⟨hne, ?_⟩
        rw [Cpu.readIccIar1El1_polled hc] at hne ⊢
        cases hack : (t.cluster.cpus i).acknowledges t.cluster.gic .readIccIar1El1 with
        | none =>
          rw [hack] at hne
          exact absurd rfl hne
        | some intid => simp
  | _ => cases hp

theorem Consistent.stepCpu (h : t.Consistent i) (hrun : (t.cluster.cpus i).halted = false)
    (op : CpuOp) :
    (t.stepCpu (t.cluster.cpus i) op (t.cluster.step (.cpu i op))).Consistent i where
  held_intid := by
    show (t.holds _ op).map _ = ((t.cluster.step (.cpu i op)).cpus i).tags
    rw [Cluster.step_cpu_self hrun]
    exact h.holds_intid op
  held_lt := fun k hk => h.holds_lt op hk
  returned_intid := by
    intro p hp
    rcases List.mem_append.1 hp with hold | hnew
    · have hack := h.returned_intid p hold
      show (t.acks ++ _)[p.1]? = some p.2
      rw [List.getElem?_append_left (List.getElem?_eq_some_iff.1 hack).1]
      exact hack
    · exact (h.returns_intid (Option.mem_toList.1 hnew)).2
  returned_ne := by
    intro p hp
    rcases List.mem_append.1 hp with hold | hnew
    · exact h.returned_ne p hold
    · exact (h.returns_intid (Option.mem_toList.1 hnew)).1

theorem Consistent.of_cluster (h : t.Consistent i) {cluster : Cluster}
    (hc : (cluster.cpus i).tags = (t.cluster.cpus i).tags) :
    ({ t with cluster := cluster } : Handout).Consistent i :=
  ⟨h.held_intid.trans hc.symm, h.held_lt, h.returned_intid, h.returned_ne⟩

theorem consistent_step (h : t.Consistent i) (op : ClusterOp) : (t.step i op).Consistent i := by
  cases op with
  | gic op => exact h.of_cluster rfl
  | cpu j op =>
    unfold step
    dsimp only
    split
    next hj =>
      obtain ⟨rfl, hrun⟩ := hj
      exact h.stepCpu hrun op
    next hj =>
      refine h.of_cluster ?_
      by_cases hji : j = i
      · subst hji
        have hhalt : (t.cluster.cpus j).halted = true := by
          cases hh : (t.cluster.cpus j).halted with
          | true => rfl
          | false => exact absurd ⟨rfl, hh⟩ hj
        rw [Cluster.step_cpu_of_halted hhalt]
      · rw [Cluster.step_cpu_of_ne _ _ (Ne.symm hji)]

/-! ## Each acknowledgement is returned once -/

variable (i t) in
/-- The number that the operation returns. -/
def emits (op : ClusterOp) : Option Nat :=
  match op with
  | .cpu j op =>
    if j = i ∧ (t.cluster.cpus i).halted = false then
      (t.returns (t.cluster.cpus i) op).map Prod.fst
    else none
  | .gic _ => none

theorem step_numbers (t : Handout) (op : ClusterOp) :
    (t.step i op).numbers = t.numbers ++ (t.emits i op).toList := by
  unfold step emits numbers
  cases op with
  | gic op => simp
  | cpu j op =>
    dsimp only
    split
    · simp [Handout.stepCpu, Option.toList_map]
    · simp

theorem Consistent.returned_lt (h : t.Consistent i) {k : Nat} (hk : k ∈ t.numbers) :
    k < t.acks.length := by
  obtain ⟨p, hp, rfl⟩ := List.mem_map.1 hk
  exact (List.getElem?_eq_some_iff.1 (h.returned_intid p hp)).1

/-- A polled read acknowledges anew. -/
theorem Consistent.fresh_of_polled (h : t.Consistent i)
    (hc : (t.cluster.cpus i).currentIrq = none) {k : Nat}
    (hk : (t.returns (t.cluster.cpus i) .readIccIar1El1).map Prod.fst = some k) :
    k ∉ t.numbers := by
  intro hmem
  have hlt := h.returned_lt hmem
  unfold returns at hk
  dsimp only at hk
  rw [hc] at hk
  split at hk
  next => cases hk
  next =>
    cases hk
    exact Nat.lt_irrefl _ hlt

/-- A read in the handler of interrupt number `k` returns that number, unless its INTID is
1023, which no read returns. -/
theorem Consistent.fresh_iff_of_current (h : t.Consistent i) {intid k : Nat}
    (hc : (t.cluster.cpus i).currentIrq = some intid) (hk : t.held.head?.join = some k)
    (hack : t.acks[k]? = some intid) :
    (∀ b, (t.returns (t.cluster.cpus i) .readIccIar1El1).map Prod.fst = some b →
        b ∉ t.numbers) ↔ k ∉ t.numbers := by
  have hv : ((t.cluster.cpus i).readIccIar1El1 t.cluster.gic).1 = intid := by
    unfold Cpu.readIccIar1El1
    rw [hc]
  unfold returns
  dsimp only
  rw [hc, hk, hv]
  split
  next h1023 =>
    simp only [Option.map_none, reduceCtorEq, false_imp_iff, implies_true, true_iff]
    intro hmem
    obtain ⟨p, hp, hpk⟩ := List.mem_map.1 hmem
    have hp2 := h.returned_intid p hp
    rw [hpk, hack, h1023] at hp2
    exact h.returned_ne p hp (Option.some.inj hp2).symm
  next => simp

theorem Consistent.fresh_iff_readsOnce (h : t.Consistent i) (op : ClusterOp) :
    (∀ b, t.emits i op = some b → b ∉ t.numbers) ↔ t.ReadsOnce i op := by
  unfold ReadsOnce
  cases op with
  | gic op => simp [emits, replays]
  | cpu j op =>
    by_cases hj : j = i ∧ (t.cluster.cpus i).halted = false
    · simp only [emits, if_pos hj]
      cases op with
      | readIccIar1El1 =>
        cases hc : (t.cluster.cpus i).currentIrq with
        | none =>
          simp only [replays, hc, Option.isSome_none, Bool.false_eq_true, and_false, if_false,
            reduceCtorEq, false_imp_iff, implies_true, iff_true]
          exact fun b => h.fresh_of_polled hc
        | some intid =>
          obtain ⟨k, hk, hack⟩ := h.held_head hc
          rw [h.fresh_iff_of_current hc hk hack]
          simp [replays, hj, hc, hk]
      | _ => simp [returns, replays]
    · have hr : t.replays i (.cpu j op) = none := by
        cases op with
        | readIccIar1El1 => exact if_neg fun h' => hj ⟨h'.1, h'.2.1⟩
        | _ => rfl
      simp [emits, hj, hr]

theorem consistent_reset (cpuCount : Nat) (sp pc : Nat → U64) :
    (reset cpuCount sp pc).Consistent i where
  held_intid := rfl
  held_lt := fun _ hk => nomatch hk
  returned_intid := fun _ hp => nomatch hp
  returned_ne := fun _ hp => nomatch hp

theorem consistent_run (cpuCount : Nat) (sp pc : Nat → U64) (ops : List ClusterOp) :
    (run (step i) (reset cpuCount sp pc) ops).Consistent i := by
  have hstep : ∀ t op, Consistent i t → Consistent i (step i t op) :=
    fun _ op h => consistent_step h op
  exact run_invariant hstep ops (consistent_reset cpuCount sp pc)

/-- From reset, in any run: every INTID that ICC_IAR1_EL1 returns on a CPU is that of an
acknowledgement of this CPU, and no two reads return the same acknowledgement if and only if
no handler reads the register after its interrupt was returned. -/
theorem returned_once_iff (i cpuCount : Nat) (sp pc : Nat → U64) (ops : List ClusterOp) :
    (∀ p ∈ (run (step i) (reset cpuCount sp pc) ops).returned,
        (run (step i) (reset cpuCount sp pc) ops).acks[p.1]? = some p.2) ∧
      ((run (step i) (reset cpuCount sp pc) ops).numbers.Nodup ↔
        Along (step i) (ReadsOnce i) (reset cpuCount sp pc) ops) := by
  refine ⟨(consistent_run cpuCount sp pc ops).returned_intid, ?_⟩
  have hnil : (reset cpuCount sp pc).numbers.Nodup := List.nodup_nil
  rw [nodup_log_iff step_numbers hnil]
  have hiff : ∀ t op, Consistent i t →
      ((∀ b, emits i t op = some b → b ∉ t.numbers) ↔ ReadsOnce i t op) :=
    fun _ op h => h.fresh_iff_readsOnce op
  exact along_iff_of_invariant hiff (fun _ op h _ => consistent_step h op)
    (consistent_reset cpuCount sp pc)

/-- One interrupt entry whose handler reads the register twice: both reads return INTID 33,
which was acknowledged once. -/
theorem handler_reads_twice :
    (run (step 0) (reset 1 (fun _ => 0) fun _ => 0)
      [.gic (.write (kGicdIsenabler + 4) 2 4), .gic (.setPendingOn 0 33),
        .cpu 0 (.writeIccIgrpen1El1 1), .cpu 0 .tryTakeIrq, .cpu 0 .readIccIar1El1,
        .cpu 0 .readIccIar1El1]).returned = [(0, 33), (0, 33)] ∧
    (run (step 0) (reset 1 (fun _ => 0) fun _ => 0)
      [.gic (.write (kGicdIsenabler + 4) 2 4), .gic (.setPendingOn 0 33),
        .cpu 0 (.writeIccIgrpen1El1 1), .cpu 0 .tryTakeIrq, .cpu 0 .readIccIar1El1,
        .cpu 0 .readIccIar1El1]).acks = [33] := by
  decide +kernel

end Handout
end Aarchvm

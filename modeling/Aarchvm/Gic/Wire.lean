import Aarchvm.Gic.Line
import Aarchvm.Gic.Priority

/-!
# When an interrupt becomes deliverable

An interrupt together with its enable bit and its priority. Every operation of the controller is,
for each bank and INTID, a list of events on these; below a threshold the interrupt is deliverable
after them exactly when it was and no event withdrew it, or one of them offers it and none after
that withdraws it.
-/
namespace Aarchvm

open Lib.Run

structure Wire where
  line : Line
  enabled : Bool
  prio : U8
  deriving DecidableEq

inductive WireEvent where
  | line (e : LineEvent)
  | enable (on : Bool)
  | priority (value : U8)
  deriving DecidableEq

namespace Wire

def step (w : Wire) : WireEvent → Wire
  | .line e => { w with line := w.line.step e }
  | .enable on => { w with enabled := on }
  | .priority value => { w with prio := value }

/-- Pending, enabled and below the threshold. -/
def deliverable (pmr : U8) (w : Wire) : Bool :=
  w.line.pending && w.enabled && decide (w.prio < pmr)

/-- The event makes the interrupt deliverable, or leaves it so: it pends an enabled one below the
threshold, enables a pending one, or lowers the priority value of one that is both. -/
def offers (pmr : U8) (w : Wire) : WireEvent → Bool
  | .line .pend => w.enabled && decide (w.prio < pmr)
  | .line (.level asserted) =>
    asserted && !w.line.level && !w.line.active && w.enabled && decide (w.prio < pmr)
  | .line .eoi => w.line.level && w.enabled && decide (w.prio < pmr)
  | .enable true => w.line.pending && decide (w.prio < pmr)
  | .priority value => w.line.pending && w.enabled && decide (value < pmr)
  | _ => false

/-- After the event the interrupt is not deliverable, whatever it was. -/
def withdraws (pmr : U8) : WireEvent → Bool
  | .line .unpend | .line .take | .enable false => true
  | .priority value => !decide (value < pmr)
  | _ => false

theorem deliverable_step (pmr : U8) (w : Wire) (e : WireEvent) :
    (w.step e).deliverable pmr = (w.deliverable pmr && !withdraws pmr e || w.offers pmr e) := by
  obtain ⟨⟨level, pending, active⟩, enabled, prio⟩ := w
  by_cases hlow : prio < pmr
  · cases e with
    | line e =>
      cases e with
      | level asserted =>
        cases asserted <;> cases level <;> cases active <;> cases pending <;> cases enabled <;>
          simp [step, Line.step, deliverable, offers, withdraws, hlow]
      | _ =>
        cases level <;> cases pending <;> cases enabled <;>
          simp [step, Line.step, deliverable, offers, withdraws, hlow]
    | enable on =>
      cases on <;> cases pending <;> cases enabled <;>
        simp [step, deliverable, offers, withdraws, hlow]
    | priority value =>
      by_cases hvalue : value < pmr <;> cases pending <;> cases enabled <;>
        simp [step, deliverable, offers, withdraws, hvalue]
  · cases e with
    | line e =>
      cases e with
      | level asserted =>
        cases asserted <;> cases level <;>
          simp [step, Line.step, deliverable, offers, withdraws, hlow]
      | _ => simp [step, Line.step, deliverable, offers, withdraws, hlow]
    | enable on => cases on <;> simp [step, deliverable, offers, withdraws, hlow]
    | priority value =>
      by_cases hvalue : value < pmr <;> simp [step, deliverable, offers, withdraws, hlow, hvalue]

/-- An event offers the interrupt and none after it withdraws it. -/
def offered (pmr : U8) : Wire → List WireEvent → Bool
  | _, [] => false
  | w, e :: es => w.offers pmr e && !es.any (withdraws pmr) || offered pmr (w.step e) es

theorem deliverable_run (pmr : U8) (w : Wire) (es : List WireEvent) :
    (run step w es).deliverable pmr =
      (w.deliverable pmr && !es.any (withdraws pmr) || w.offered pmr es) := by
  induction es generalizing w with
  | nil => simp [offered]
  | cons e es ih =>
    rw [run_cons, ih, deliverable_step, offered, List.any_cons, Bool.not_or]
    cases w.deliverable pmr <;> cases w.offers pmr e <;> cases withdraws pmr e <;>
      cases es.any (withdraws pmr) <;> rfl

theorem run_line (w : Wire) (es : List LineEvent) :
    run step w (es.map .line) = { w with line := run Line.step w.line es } := by
  induction es generalizing w with
  | nil => rfl
  | cons e es ih =>
    rw [List.map_cons, run_cons, ih]
    rfl

end Wire

/-- The four priorities that a register write stores. -/
structure PriorityWrite where
  first : Nat
  cpuIndex : Nat
  isLocal : Bool

namespace GicV3

def wire (g : GicV3) (b : Bank) (intid : Nat) : Wire :=
  ⟨g.line b intid, g.bit .enabled b intid, g.prio b intid⟩

theorem eligible_iff (g : GicV3) (cpuIndex : Nat) (pmr : U8) (intid : Nat) :
    g.Eligible cpuIndex pmr intid ↔
      intid < kNumIntIds ∧ (g.wire (g.bankOf cpuIndex intid) intid).deliverable pmr = true :=
  Iff.rfl

/-! ## Register writes -/

/-- The priority write, if any, that a 32-bit register write is. -/
def priorityWrite (g : GicV3) (off : Nat) : Option PriorityWrite :=
  if off < kDistSize then
    if regRange off kGicdIpriorityr kNumIntIds then some ⟨off - kGicdIpriorityr, 0, false⟩ else none
  else if off < kRedistBase then none
  else
    let frame := (off - kRedistBase) / kRedistFrameSize
    let inner := (off - kRedistBase) % kRedistFrameSize
    if g.cpuCount ≤ frame then none
    else if regRange inner kGicrSgiIpriorityr kLocalIntIds then
      some ⟨inner - kGicrSgiIpriorityr, frame, true⟩
    else none

/-- The INTIDs of one bank that a priority write stores to. -/
def storesPriority (g : GicV3) (w : PriorityWrite) (b : Bank) (intid : Nat) : Bool :=
  decide (w.first ≤ intid) && decide (intid < w.first + 4) &&
    g.storable w.cpuIndex w.isLocal b intid

/-- What a register write leaves of one priority. -/
def afterPriority (g : GicV3) (w : Option PriorityWrite) (value : U32) (b : Bank) (intid : Nat) :
    U8 :=
  match w with
  | none => g.prio b intid
  | some w =>
      if g.storesPriority w b intid then wordByte value (intid - w.first) else g.prio b intid

theorem SameBesidesBits.prio {g g' : GicV3} (h : SameBesidesBits g g') (b : Bank) (intid : Nat) :
    g'.prio b intid = g.prio b intid := by
  cases b with
  | own idx => exact congrFun (congrArg LocalCpuState.priorities (h.locals idx)) intid
  | shared => exact congrFun h.spiPriorities intid

theorem setBit_prio (g : GicV3) (k : GicBit) (b₀ : Bank) (i : Nat) (value : Bool) (b : Bank)
    (intid : Nat) : (g.setBit k b₀ i value).prio b intid = g.prio b intid :=
  (setBit_sameBesidesBits g k b₀ i value).prio b intid

theorem setLocalBit_prio (k : GicBit) (g : GicV3) (cpuIndex i : Nat) (value : Bool) (b : Bank)
    (intid : Nat) : (setLocalBit k g cpuIndex i value).prio b intid = g.prio b intid := by
  unfold setLocalBit
  split
  · rfl
  · exact setBit_prio ..

theorem setSpiBit_prio (k : GicBit) (g : GicV3) (i : Nat) (value : Bool) (b : Bank) (intid : Nat) :
    (setSpiBit k g i value).prio b intid = g.prio b intid := by
  unfold setSpiBit
  split
  · rfl
  · exact setBit_prio ..

theorem foldl_same_prio {α : Type} {f : GicV3 → α → GicV3} {b : Bank} {intid : Nat}
    (hf : ∀ g a, (f g a).prio b intid = g.prio b intid) (as : List α) (g : GicV3) :
    (as.foldl f g).prio b intid = g.prio b intid := by
  induction as generalizing g with
  | nil => rfl
  | cons a as ih => exact (ih (f g a)).trans (hf g a)

theorem forBits_prio {bits : U32} {f : GicV3 → Nat → GicV3} {b : Bank} {intid : Nat}
    (hf : ∀ g i, (f g i).prio b intid = g.prio b intid) (g : GicV3) :
    (forBits bits f g).prio b intid = g.prio b intid := by
  refine foldl_same_prio (fun g i => ?_) (List.range 32) g
  split
  · exact hf g i
  · rfl

theorem writeDistBitmap_prio (k : GicBit) (g : GicV3) (off base : Nat) (val : U32) (value : Bool)
    (b : Bank) (intid : Nat) :
    (writeDistBitmap k g off base val value).prio b intid = g.prio b intid := by
  unfold writeDistBitmap
  dsimp only
  split
  · exact forBits_prio (fun _ _ => setSpiBit_prio ..) g
  · rfl

theorem writeFrameBitmap_prio (k : GicBit) (g : GicV3) (frame : Nat) (val : U32) (value : Bool)
    (b : Bank) (intid : Nat) :
    (writeFrameBitmap k g frame val value).prio b intid = g.prio b intid :=
  forBits_prio (fun _ _ => setLocalBit_prio ..) g

theorem modifyLocal_prio (g : GicV3) (idx : Nat) {f : LocalCpuState → LocalCpuState}
    (hf : ∀ l, (f l).priorities = l.priorities) (b : Bank) (intid : Nat) :
    (g.modifyLocal idx f).prio b intid = g.prio b intid := by
  cases b with
  | shared => rfl
  | own i =>
    by_cases hi : i = idx
    · subst hi
      simp [modifyLocal, prio, hf]
    · simp [modifyLocal, prio, hi]

/-- The priority registers of the distributor lie behind its other registers. -/
theorem writeDistReg32_prio (g : GicV3) {off : Nat} (hd : off < kDistSize) (val : U32) (b : Bank)
    (intid : Nat) : (g.writeDistReg32 off val).prio b intid =
      g.afterPriority (g.priorityWrite off) val b intid := by
  unfold priorityWrite writeDistReg32
  rw [if_pos hd]
  by_cases hp : regRange off kGicdIpriorityr kNumIntIds = true
  · have hrange := (regRange_iff ..).1 hp
    have hctlr : off ≠ kGicdCtlr := by
      unfold kGicdIpriorityr at hrange
      unfold kGicdCtlr
      omega
    have hbitmap : ∀ base, base = kGicdIsenabler ∨ base = kGicdIcenabler ∨ base = kGicdIsactiver ∨
        base = kGicdIcactiver → ¬ regRange off base 0x80 = true := by
      intro base hb
      rw [regRange_iff]
      unfold kGicdIpriorityr at hrange
      unfold kGicdIsenabler kGicdIcenabler kGicdIsactiver kGicdIcactiver at hb
      omega
    rw [if_neg hctlr, if_neg (hbitmap _ (by simp)), if_neg (hbitmap _ (by simp)),
      if_neg (hbitmap _ (by simp)), if_neg (hbitmap _ (by simp)), if_pos hp, if_pos hp,
      setPriorityRange_prio]
    simp only [afterPriority, storesPriority, Bool.and_eq_true, decide_eq_true_eq, and_assoc]
  · rw [if_neg hp, if_neg hp]
    split_ifs
    · cases b <;> rfl
    · exact writeDistBitmap_prio ..
    · exact writeDistBitmap_prio ..
    · exact writeDistBitmap_prio ..
    · exact writeDistBitmap_prio ..
    · rfl

/-- So do those of a frame. -/
theorem writeRedistReg32_prio (g : GicV3) {off : Nat} (hd : ¬ off < kDistSize) (val : U32)
    (b : Bank) (intid : Nat) : (g.writeRedistReg32 off val).prio b intid =
      g.afterPriority (g.priorityWrite off) val b intid := by
  unfold priorityWrite writeRedistReg32
  rw [if_neg hd]
  dsimp only
  by_cases hlow : off < kRedistBase
  · rw [if_pos hlow, if_pos hlow]
    rfl
  rw [if_neg hlow, if_neg hlow]
  by_cases hframe : g.cpuCount ≤ (off - kRedistBase) / kRedistFrameSize
  · rw [if_pos hframe, if_pos hframe]
    rfl
  rw [if_neg hframe, if_neg hframe]
  generalize (off - kRedistBase) % kRedistFrameSize = inner
  by_cases hp : regRange inner kGicrSgiIpriorityr kLocalIntIds = true
  · have hrange := (regRange_iff ..).1 hp
    have hother : ∀ reg, reg = kGicrWaker ∨ reg = kGicrSgiIgroupr0 ∨ reg = kGicrSgiIsenabler0 ∨
        reg = kGicrSgiIcenabler0 ∨ reg = kGicrSgiIspendr0 ∨ reg = kGicrSgiIcpendr0 ∨
        reg = kGicrSgiIsactiver0 ∨ reg = kGicrSgiIcactiver0 → inner ≠ reg := by
      intro reg hreg
      unfold kGicrSgiIpriorityr at hrange
      unfold kGicrWaker kGicrSgiIgroupr0 kGicrSgiIsenabler0 kGicrSgiIcenabler0 kGicrSgiIspendr0
        kGicrSgiIcpendr0 kGicrSgiIsactiver0 kGicrSgiIcactiver0 at hreg
      omega
    rw [if_neg (hother _ (by simp)), if_neg (hother _ (by simp)), if_neg (hother _ (by simp)),
      if_neg (hother _ (by simp)), if_neg (hother _ (by simp)), if_neg (hother _ (by simp)),
      if_neg (hother _ (by simp)), if_neg (hother _ (by simp)), if_pos hp, if_pos hp,
      setPriorityRange_prio]
    simp only [afterPriority, storesPriority, Bool.and_eq_true, decide_eq_true_eq, and_assoc]
  · rw [if_neg hp, if_neg hp]
    split_ifs
    · refine modifyLocal_prio g _ ?_ b intid
      intro l
      rfl
    · refine modifyLocal_prio g _ ?_ b intid
      intro l
      rfl
    · exact writeFrameBitmap_prio ..
    · exact writeFrameBitmap_prio ..
    · exact writeFrameBitmap_prio ..
    · exact writeFrameBitmap_prio ..
    · exact writeFrameBitmap_prio ..
    · exact writeFrameBitmap_prio ..
    · refine modifyLocal_prio g _ ?_ b intid
      intro l
      rfl
    · refine modifyLocal_prio g _ ?_ b intid
      intro l
      rfl
    · rfl

theorem write32_prio (g : GicV3) (off : Nat) (val : U32) (b : Bank) (intid : Nat) :
    (g.write32 off val).prio b intid = g.afterPriority (g.priorityWrite off) val b intid := by
  unfold write32
  by_cases hd : off < kDistSize
  · rw [if_pos hd]
    exact writeDistReg32_prio g hd val b intid
  · rw [if_neg hd]
    exact writeRedistReg32_prio g hd val b intid

/-- What a register write is for one interrupt. -/
def regWireEvents (g : GicV3) (w : Nat × U32) (b : Bank) (intid : Nat) : List WireEvent :=
  (g.regEvents w b intid).map .line ++
    (match g.bitmapWrite w.1 w.2 with
      | none => []
      | some bw =>
        if bw.kind = .enabled ∧ b = bw.bank ∧ bw.selects intid = true then [.enable bw.value]
        else []) ++
    (match g.priorityWrite w.1 with
      | none => []
      | some pw =>
        if g.storesPriority pw b intid then [.priority (wordByte w.2 (intid - pw.first))] else [])

theorem write32_wire (g : GicV3) (w : Nat × U32) (b : Bank) (intid : Nat) :
    (g.write32 w.1 w.2).wire b intid =
      run Wire.step (g.wire b intid) (g.regWireEvents w b intid) := by
  have hprio := g.write32_prio w.1 w.2 b intid
  have henabled := (after_write32 g w.1 w.2).bits .enabled b intid
  rw [wire, write32_line, hprio, henabled, regWireEvents, run_append, run_append, Wire.run_line]
  cases hb : g.bitmapWrite w.1 w.2 with
  | none =>
    cases hp : g.priorityWrite w.1 with
    | none => rfl
    | some pw =>
      dsimp only [afterPriority, afterBitmap]
      split <;> rfl
  | some bw =>
    have hkind : (GicBit.enabled = bw.kind ∧ b = bw.bank ∧ bw.selects intid = true) ↔
        (bw.kind = .enabled ∧ b = bw.bank ∧ bw.selects intid = true) := by
      rw [eq_comm]
    cases hp : g.priorityWrite w.1 with
    | none =>
      dsimp only [afterPriority, afterBitmap]
      rw [if_congr hkind rfl rfl]
      split <;> rfl
    | some pw =>
      dsimp only [afterPriority, afterBitmap]
      rw [if_congr hkind rfl rfl]
      split <;> split <;> rfl

/-- The decoding of a write depends on which frames exist only. -/
theorem SameShape.regWireEvents {g g' : GicV3} (h : SameShape g g') (w : Nat × U32) (b : Bank)
    (intid : Nat) : g'.regWireEvents w b intid = g.regWireEvents w b intid := by
  have hpriority : g'.priorityWrite w.1 = g.priorityWrite w.1 := by
    unfold priorityWrite
    rw [h.cpuCount]
  have hstores : ∀ pw, g'.storesPriority pw b intid = g.storesPriority pw b intid := by
    intro pw
    unfold storesPriority storable
    rw [h.localIdx]
  unfold GicV3.regWireEvents regEvents
  simp only [h.bitmapWrite, hpriority, hstores]

theorem foldl_write32_wire (ws : List (Nat × U32)) (g : GicV3) (b : Bank) (intid : Nat) :
    (ws.foldl (fun g w => g.write32 w.1 w.2) g).wire b intid =
      run Wire.step (g.wire b intid) (ws.flatMap (g.regWireEvents · b intid)) := by
  induction ws generalizing g with
  | nil => rfl
  | cons w ws ih =>
    have hs := (after_write32 g w.1 w.2).shape
    rw [List.foldl_cons, ih, write32_wire, List.flatMap_cons, run_append]
    simp only [hs.regWireEvents]

/-! ## Operations -/

/-- What an operation is for one interrupt. -/
def wireEvents (g : GicV3) (op : GicOp) (b : Bank) (intid : Nat) : List WireEvent :=
  match op with
  | .write offset value size => (g.regWrites offset value size).flatMap (g.regWireEvents · b intid)
  | op => (g.events op b intid).map .line

theorem onBank_prio {g : GicV3} {cpuIndex i : Nat} {f : Bank → GicV3} {b : Bank} {intid : Nat}
    (hf : ∀ b₀, (f b₀).prio b intid = g.prio b intid) :
    (g.onBank cpuIndex i f).prio b intid = g.prio b intid := by
  rw [onBank_eq]
  split
  · exact hf _
  · rfl

theorem recordLevel_prio (g : GicV3) (i : Nat) (asserted : Bool) (b₀ b : Bank) (intid : Nat) :
    (g.recordLevel i asserted b₀).prio b intid = g.prio b intid := by
  unfold recordLevel
  dsimp only
  split_ifs
  · rfl
  · rw [setBit_prio, setBit_prio]
  · exact setBit_prio ..

theorem dropActive_prio (g : GicV3) (i : Nat) (b₀ b : Bank) (intid : Nat) :
    (g.dropActive i b₀).prio b intid = g.prio b intid := by
  unfold dropActive
  dsimp only
  split
  · rw [setBit_prio, setBit_prio]
  · exact setBit_prio ..

/-- Only register writes enable an interrupt or store its priority. -/
theorem step_of_not_write {g : GicV3} {op : GicOp}
    (h : ∀ offset value size, op ≠ .write offset value size) (b : Bank) (intid : Nat) :
    (g.step op).bit .enabled b intid = g.bit .enabled b intid ∧
      (g.step op).prio b intid = g.prio b intid := by
  cases op with
  | write offset value size => exact absurd rfl (h offset value size)
  | setCpuAffinity cpuIndex mpidr =>
    constructor
    · exact modifyLocal_bit g (g.localIdx cpuIndex) ({ · with mpidr := mpidr }) (fun _ => rfl) ..
    · rw [step, setCpuAffinity]
      refine modifyLocal_prio g _ ?_ b intid
      intro l
      rfl
  | setPendingOn cpuIndex n =>
    rw [step, setPendingOn_bit, if_neg (by simp)]
    exact ⟨rfl, onBank_prio fun _ => setBit_prio ..⟩
  | setLevelOn cpuIndex n asserted =>
    rw [step, setLevelOn_bit]
    exact ⟨ite_self _, onBank_prio fun _ => recordLevel_prio ..⟩
  | sendSgi sourceCpu value =>
    rw [step, (sendSgi_bit g sourceCpu value).2, if_neg (by simp)]
    refine ⟨rfl, foldl_same_prio (fun g cpu => ?_) (List.range g.cpuCount) g⟩
    split
    · exact setLocalBit_prio ..
    · rfl
  | hasPending cpuIndex pmr =>
    rw [step]
    unfold hasPending
    dsimp only
    split
    · exact ⟨rfl, rfl⟩
    · cases b <;> exact ⟨rfl, rfl⟩
  | acknowledge cpuIndex pmr =>
    refine ⟨?_, (acknowledge_sameBesidesBits g cpuIndex pmr).prio b intid⟩
    rw [step]
    cases hp : g.highestPending cpuIndex pmr with
    | none => rw [acknowledge_of_none hp]
    | some n => rw [acknowledge_bit g cpuIndex pmr hp, if_neg (by simp)]
  | eoi cpuIndex n =>
    rw [step, eoi_bit, if_neg (by simp)]
    exact ⟨rfl, onBank_prio fun _ => dropActive_prio ..⟩

/-- Each operation is, for each interrupt, its events. -/
theorem step_wire (g : GicV3) (op : GicOp) (b : Bank) (intid : Nat) :
    (g.step op).wire b intid = run Wire.step (g.wire b intid) (g.wireEvents op b intid) := by
  have hother : (∀ offset value size, op ≠ .write offset value size) →
      g.wireEvents op b intid = (g.events op b intid).map .line →
      (g.step op).wire b intid = run Wire.step (g.wire b intid) (g.wireEvents op b intid) := by
    intro hop hevents
    obtain ⟨henabled, hprio⟩ := @step_of_not_write g op hop b intid
    rw [hevents, Wire.run_line, wire, step_line, henabled, hprio]
    rfl
  cases op with
  | write offset value size =>
    rw [step, write_eq_foldl_regWrites]
    exact foldl_write32_wire ..
  | _ => exact hother (by simp) rfl

/-- What the operations are for one interrupt, in order. -/
def runWireEvents (g : GicV3) (b : Bank) (intid : Nat) : List GicOp → List WireEvent
  | [] => []
  | op :: ops => g.wireEvents op b intid ++ runWireEvents (g.step op) b intid ops

theorem run_wire (ops : List GicOp) (g : GicV3) (b : Bank) (intid : Nat) :
    (run step g ops).wire b intid =
      run Wire.step (g.wire b intid) (g.runWireEvents b intid ops) := by
  induction ops generalizing g with
  | nil => rfl
  | cons op ops ih => rw [run_cons, ih, step_wire, runWireEvents, run_append]

/-- The operations make an interrupt deliverable to the CPU below the threshold. -/
def Offers (g : GicV3) (ops : List GicOp) (cpuIndex : Nat) (pmr : U8) : Prop :=
  ∃ intid < kNumIntIds, (g.wire (g.bankOf cpuIndex intid) intid).offered pmr
    (g.runWireEvents (g.bankOf cpuIndex intid) intid ops) = true

instance (g : GicV3) (ops : List GicOp) (cpuIndex : Nat) (pmr : U8) :
    Decidable (g.Offers ops cpuIndex pmr) :=
  inferInstanceAs (Decidable (∃ intid < kNumIntIds, _ = true))

/-- Where nothing was deliverable, something is after the operations exactly when they offer it. -/
theorem highestPending_run_iff {g : GicV3} {cpuIndex : Nat} {pmr : U8}
    (h : g.highestPending cpuIndex pmr = none) (ops : List GicOp) :
    (run step g ops).highestPending cpuIndex pmr = none ↔ ¬ g.Offers ops cpuIndex pmr := by
  rw [highestPending_eq_none_iff] at h ⊢
  have hiff : ∀ intid, (run step g ops).Eligible cpuIndex pmr intid ↔ intid < kNumIntIds ∧
      (g.wire (g.bankOf cpuIndex intid) intid).offered pmr
        (g.runWireEvents (g.bankOf cpuIndex intid) intid ops) = true := by
    intro intid
    rw [eligible_iff, run_bankOf, run_wire, Wire.deliverable_run]
    refine and_congr_right fun hlt => ?_
    have hnot : (g.wire (g.bankOf cpuIndex intid) intid).deliverable pmr = false := by
      rw [← Bool.not_eq_true]
      exact fun hd => h intid ((eligible_iff ..).2 ⟨hlt, hd⟩)
    rw [hnot, Bool.false_and, Bool.false_or]
  simp only [hiff, Offers, not_exists]

end GicV3
end Aarchvm

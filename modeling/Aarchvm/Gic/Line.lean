import Aarchvm.Gic.Registers
import Aarchvm.Gic.Select
import Aarchvm.Lib.Run

/-!
# One interrupt at a time

The abstract model of an interrupt: a level, a pending and an active flag, and
the seven things that can happen to it. Every operation of the controller is, for
each bank and INTID, a list of such events; the flags the controller ends with
are the events' effect on the flags it started with. Results about runs of the
controller are then results about runs of one line.
-/
namespace Aarchvm

open Lib.Run

structure Line where
  level : Bool
  pending : Bool
  active : Bool
  deriving DecidableEq, Repr

inductive LineEvent where
  | level (asserted : Bool)
  | pend
  | unpend
  | take
  | activate
  | deactivate
  | eoi
  deriving DecidableEq, Repr

namespace Line

def step (l : Line) : LineEvent → Line
  | .level asserted =>
    if l.level = asserted then l
    else { l with level := asserted, pending := l.pending || (asserted && !l.active) }
  | .pend => { l with pending := true }
  | .unpend => { l with pending := false }
  | .take => { l with pending := false, active := true }
  | .activate => { l with active := true }
  | .deactivate => { l with active := false }
  | .eoi => { l with active := false, pending := l.pending || l.level }

end Line

/-- What devices, CPUs and register accesses ask of the controller. The one-argument forms
of `set_pending` and `set_level` are the two-argument ones for CPU 0. -/
inductive GicOp where
  | setCpuAffinity (cpuIndex : Nat) (mpidr : U64)
  | setPendingOn (cpuIndex intid : Nat)
  | setLevelOn (cpuIndex intid : Nat) (asserted : Bool)
  | sendSgi (sourceCpu : Nat) (value : U64)
  | hasPending (cpuIndex : Nat) (pmr : U8)
  | acknowledge (cpuIndex : Nat) (pmr : U8)
  | eoi (cpuIndex intid : Nat)
  | write (offset : Nat) (value : U64) (size : Nat)

/-- The event a bitmap write is for one interrupt. -/
def BitmapWrite.events (w : BitmapWrite) (b : Bank) (intid : Nat) : List LineEvent :=
  if b = w.bank ∧ w.selects intid = true then
    match w.kind, w.value with
    | .pending, true => [.pend]
    | .pending, false => [.unpend]
    | .active, true => [.activate]
    | .active, false => [.deactivate]
    | _, _ => []
  else []

namespace GicV3

def step (g : GicV3) : GicOp → GicV3
  | .setCpuAffinity cpuIndex mpidr => g.setCpuAffinity cpuIndex mpidr
  | .setPendingOn cpuIndex intid => g.setPendingOn cpuIndex intid
  | .setLevelOn cpuIndex intid asserted => g.setLevelOn cpuIndex intid asserted
  | .sendSgi sourceCpu value => g.sendSgi sourceCpu value
  | .hasPending cpuIndex pmr => (g.hasPending cpuIndex pmr).2
  | .acknowledge cpuIndex pmr => (g.acknowledge cpuIndex pmr).2
  | .eoi cpuIndex intid => g.eoi cpuIndex intid
  | .write offset value size => g.write offset value size

/-- The interrupt `intid` of bank `b`. -/
def line (g : GicV3) (b : Bank) (intid : Nat) : Line :=
  ⟨g.bit .lineLevel b intid, g.bit .pending b intid, g.bit .active b intid⟩

def regEvents (g : GicV3) (w : Nat × U32) (b : Bank) (intid : Nat) : List LineEvent :=
  ((g.bitmapWrite w.1 w.2).map (·.events b intid)).getD []

/-- What an operation is for one interrupt. -/
def events (g : GicV3) (op : GicOp) (b : Bank) (intid : Nat) : List LineEvent :=
  match op with
  | .setCpuAffinity _ _ => []
  | .setPendingOn cpuIndex n =>
    if b = g.bankOf cpuIndex n ∧ intid = n ∧ n < kNumIntIds then [.pend] else []
  | .setLevelOn cpuIndex n asserted =>
    if b = g.bankOf cpuIndex n ∧ intid = n ∧ n < kNumIntIds then [.level asserted] else []
  | .sendSgi sourceCpu value =>
    if g.sgiHits sourceCpu value b intid then [.pend] else []
  | .hasPending _ _ => []
  | .acknowledge cpuIndex pmr =>
    match g.highestPending cpuIndex pmr with
    | none => []
    | some n => if b = g.bankOf cpuIndex n ∧ intid = n then [.take] else []
  | .eoi cpuIndex n =>
    if b = g.bankOf cpuIndex n ∧ intid = n ∧ n < kNumIntIds then [.eoi] else []
  | .write offset value size => (g.regWrites offset value size).flatMap (g.regEvents · b intid)

/-! ## The controller refines its lines -/

theorem line_of_same_bits {g g' : GicV3} (h : ∀ k b i, g'.bit k b i = g.bit k b i) (b : Bank)
    (i : Nat) : g'.line b i = g.line b i := by
  simp only [line, h]

theorem bitmapWrite_kind_ne {g : GicV3} {off : Nat} {val : U32} {w : BitmapWrite}
    (h : g.bitmapWrite off val = some w) : w.kind ≠ .lineLevel := by
  unfold bitmapWrite at h
  dsimp only at h
  split_ifs at h <;> cases h <;> exact nofun

/-- One register write is the events of its decoding. -/
theorem write32_line (g : GicV3) (w : Nat × U32) (b : Bank) (i : Nat) :
    (g.write32 w.1 w.2).line b i = run Line.step (g.line b i) (g.regEvents w b i) := by
  have hb := (after_write32 g w.1 w.2).bits
  unfold regEvents
  cases hw : g.bitmapWrite w.1 w.2 with
  | none =>
    rw [hw] at hb
    exact line_of_same_bits hb b i
  | some bw =>
    rw [hw] at hb
    simp only [afterBitmap] at hb
    unfold BitmapWrite.events
    by_cases hsel : b = bw.bank ∧ bw.selects i = true
    · have hkind := bitmapWrite_kind_ne hw
      simp only [line, hb, hsel, Option.map_some, Option.getD_some]
      cases hk : bw.kind <;> cases bw.value <;> simp_all [Line.step]
    · simp [line, hb, hsel]

theorem foldl_write32_line (ws : List (Nat × U32)) (g : GicV3) (b : Bank) (i : Nat) :
    (ws.foldl (fun g w => g.write32 w.1 w.2) g).line b i =
      run Line.step (g.line b i) (ws.flatMap (g.regEvents · b i)) ∧
    SameShape g (ws.foldl (fun g w => g.write32 w.1 w.2) g) := by
  induction ws generalizing g with
  | nil => exact ⟨rfl, .refl g⟩
  | cons w ws ih =>
    have hs := (after_write32 g w.1 w.2).shape
    obtain ⟨hl, hs'⟩ := ih (g.write32 w.1 w.2)
    refine ⟨?_, hs.trans hs'⟩
    have hev : ∀ w', (g.write32 w.1 w.2).regEvents w' b i = g.regEvents w' b i := by
      intro w'
      rw [regEvents, regEvents, hs.bitmapWrite]
    rw [List.foldl_cons, hl, write32_line, List.flatMap_cons, run_append]
    simp only [hev]

/-- Each operation is, for each interrupt, its events. -/
theorem step_line (g : GicV3) (op : GicOp) (b : Bank) (i : Nat) :
    (g.step op).line b i = run Line.step (g.line b i) (g.events op b i) := by
  cases op with
  | setCpuAffinity cpuIndex mpidr =>
    exact line_of_same_bits
      (modifyLocal_bit g (g.localIdx cpuIndex) ({ · with mpidr := mpidr }) fun _ => rfl) b i
  | setPendingOn cpuIndex n =>
    simp only [step, events, line, setPendingOn_bit]
    by_cases h : b = g.bankOf cpuIndex n ∧ i = n ∧ n < kNumIntIds
    · simp [h, Line.step]
    · simp [h]
  | setLevelOn cpuIndex n asserted =>
    simp only [step, events, line, setLevelOn_bit]
    by_cases h : b = g.bankOf cpuIndex n ∧ i = n ∧ n < kNumIntIds
    · obtain ⟨rfl, rfl, hn⟩ := h
      by_cases hl : g.bit .lineLevel (g.bankOf cpuIndex i) i = asserted
      · simp [hn, hl, Line.step]
      · simp [hn, hl, Line.step, levelResult]
    · have hnot : ∀ P : Prop, ¬ (b = g.bankOf cpuIndex n ∧ i = n ∧ n < kNumIntIds ∧ P) := by tauto
      simp [h, hnot]
  | sendSgi sourceCpu value =>
    simp only [step, events, line, (sendSgi_bit g sourceCpu value).2]
    cases h : g.sgiHits sourceCpu value b i
    · simp
    · simp [Line.step]
  | hasPending cpuIndex pmr =>
    refine line_of_same_bits (fun k b i => ?_) b i
    show (g.hasPending cpuIndex pmr).2.bit k b i = g.bit k b i
    unfold hasPending
    dsimp only
    split
    · rfl
    · cases b <;> rfl
  | acknowledge cpuIndex pmr =>
    simp only [step, events]
    cases hp : g.highestPending cpuIndex pmr with
    | none => rw [acknowledge_of_none hp]; rfl
    | some n =>
      simp only [line, acknowledge_bit g cpuIndex pmr hp]
      by_cases h : b = g.bankOf cpuIndex n ∧ i = n
      · simp [h, Line.step]
      · have hnot : ∀ P : Prop, ¬ (b = g.bankOf cpuIndex n ∧ i = n ∧ P) := by tauto
        simp only [hnot, h, if_false, run_nil]
  | eoi cpuIndex n =>
    simp only [step, events, line, eoi_bit]
    by_cases h : b = g.bankOf cpuIndex n ∧ i = n ∧ n < kNumIntIds
    · obtain ⟨rfl, rfl, hn⟩ := h
      cases hl : g.bit .lineLevel (g.bankOf cpuIndex i) i <;> simp [hn, Line.step]
    · have hnot : ∀ P : Prop, ¬ (b = g.bankOf cpuIndex n ∧ i = n ∧ n < kNumIntIds ∧ P) := by tauto
      simp [h, hnot]
  | write offset value size =>
    simp only [step, events, write_eq_foldl_regWrites]
    exact (foldl_write32_line ..).1

theorem step_cpuCount (g : GicV3) (op : GicOp) : (g.step op).cpuCount = g.cpuCount := by
  cases op with
  | setCpuAffinity cpuIndex mpidr => rfl
  | setPendingOn cpuIndex n => exact (setPendingOn_sameShape ..).cpuCount
  | setLevelOn cpuIndex n asserted => exact (setLevelOn_sameShape ..).cpuCount
  | sendSgi sourceCpu value => exact (sendSgi_bit g sourceCpu value).1.cpuCount
  | hasPending cpuIndex pmr =>
    show (g.hasPending cpuIndex pmr).2.cpuCount = g.cpuCount
    unfold hasPending
    dsimp only
    split <;> rfl
  | acknowledge cpuIndex pmr => exact (acknowledge_sameShape ..).cpuCount
  | eoi cpuIndex n => exact (eoi_sameShape ..).cpuCount
  | write offset value size =>
    show (g.write offset value size).cpuCount = g.cpuCount
    rw [write_eq_foldl_regWrites]
    exact (foldl_write32_line _ g .shared 0).2.cpuCount

theorem run_cpuCount (g : GicV3) (ops : List GicOp) : (run step g ops).cpuCount = g.cpuCount := by
  induction ops generalizing g with
  | nil => rfl
  | cons op ops ih => rw [run_cons, ih, step_cpuCount]

theorem run_bankOf (g : GicV3) (ops : List GicOp) (cpuIndex intid : Nat) :
    (run step g ops).bankOf cpuIndex intid = g.bankOf cpuIndex intid := by
  unfold bankOf localIdx
  rw [run_cpuCount]

theorem reset_line (cpuCount : Nat) (b : Bank) (i : Nat) :
    (reset cpuCount).line b i = ⟨false, false, false⟩ := by
  cases b <;> rfl

end GicV3
end Aarchvm

import Aarchvm.Gic.Line

/-!
# Level-triggered interrupts

An asserted line that is not active should be pending. `set_level` and `eoi`
establish that; two register writes break it: clearing the pending bit of an
asserted inactive interrupt, and clearing the active bit of an asserted
interrupt that is not pending. Every run without such a write keeps it.
-/
namespace Aarchvm

open Lib.Run

namespace Line

/-- The line is not lost: asserted and inactive implies pending. -/
def Held (l : Line) : Prop := l.level = true → l.active = false → l.pending = true

/-- The event drops an asserted line. -/
def Loses (l : Line) : LineEvent → Prop
  | .unpend => l.level = true ∧ l.active = false
  | .deactivate => l.level = true ∧ l.pending = false
  | _ => False

/-- A held line stays held exactly when the event does not drop it. -/
theorem held_step_iff {l : Line} (h : l.Held) (e : LineEvent) :
    (l.step e).Held ↔ ¬ l.Loses e := by
  obtain ⟨level, pending, active⟩ := l
  unfold Held at h
  cases e with
  | level asserted => cases asserted <;> cases level <;> cases pending <;> cases active <;>
      simp_all [Held, Loses, step]
  | pend => simp [Held, Loses, step]
  | unpend => simp [Held, Loses, step]
  | take => simp [Held, Loses, step]
  | activate => simp [Held, Loses, step]
  | deactivate => simp [Held, Loses, step]
  | eoi => simp +contextual [Held, Loses, step]

end Line

namespace GicV3

/-- No register write of the operation drops an asserted line. -/
def KeepsLevel (g : GicV3) (op : GicOp) : Prop :=
  ∀ b intid, Along Line.step (fun l e => ¬ l.Loses e) (g.line b intid) (g.events op b intid)

/-- Every line of every bank is held. -/
def AllHeld (g : GicV3) : Prop := ∀ b intid, (g.line b intid).Held

theorem allHeld_step {g : GicV3} {op : GicOp} (h : g.AllHeld) (hk : g.KeepsLevel op) :
    (g.step op).AllHeld := by
  intro b intid
  rw [step_line]
  exact (hk b intid).invariant (fun l e hl hn => (Line.held_step_iff hl e).2 hn) (h b intid)

/-- Only register writes can drop a line. -/
theorem keepsLevel_of_not_write {g : GicV3} {op : GicOp}
    (h : ∀ offset value size, op ≠ .write offset value size) : g.KeepsLevel op := by
  intro b intid
  cases op with
  | write offset value size => exact absurd rfl (h offset value size)
  | setCpuAffinity cpuIndex mpidr => exact trivial
  | setPendingOn cpuIndex n =>
    simp only [events]
    split <;> simp [Line.Loses]
  | setLevelOn cpuIndex n asserted =>
    simp only [events]
    split <;> simp [Line.Loses]
  | sendSgi sourceCpu value =>
    simp only [events]
    split <;> simp [Line.Loses]
  | hasPending cpuIndex pmr => exact trivial
  | acknowledge cpuIndex pmr =>
    simp only [events]
    cases g.highestPending cpuIndex pmr with
    | none => simp
    | some n => dsimp only; split <;> simp [Line.Loses]
  | eoi cpuIndex n =>
    simp only [events]
    split <;> simp [Line.Loses]

/-- From reset, every run none of whose register writes drops an asserted line ends with
every asserted inactive interrupt pending. -/
theorem asserted_inactive_pending (cpuCount : Nat) (ops : List GicOp)
    (h : Along step KeepsLevel (reset cpuCount) ops) (b : Bank) (intid : Nat)
    (hl : ((run step (reset cpuCount) ops).line b intid).level = true)
    (ha : ((run step (reset cpuCount) ops).line b intid).active = false) :
    ((run step (reset cpuCount) ops).line b intid).pending = true := by
  have hreset : (reset cpuCount).AllHeld := by
    intro b intid
    rw [reset_line]
    exact nofun
  have hheld : (run step (reset cpuCount) ops).AllHeld :=
    h.invariant (fun _ _ => allHeld_step) hreset
  exact hheld b intid hl ha

/-- Writing the bit of SGI 0 to `GICR_ICPENDR0` drops no line where SGI 0 is not asserted. -/
theorem keepsLevel_icpendr {g : GicV3} (h : (g.line (.own 0) 0).level = false) :
    g.KeepsLevel (.write (kRedistBase + kGicrSgiIcpendr0) 1 4) := by
  intro b intid
  have hdecoded : g.bitmapWrite (kRedistBase + kGicrSgiIcpendr0) 1 =
      if g.cpuCount ≤ 0 then none else some ⟨.pending, false, .own 0, frameSelects 1⟩ := rfl
  have hevents : g.events (.write (kRedistBase + kGicrSgiIcpendr0) 1 4) b intid =
      g.regEvents (kRedistBase + kGicrSgiIcpendr0, 1) b intid ++ [] := rfl
  rw [hevents, List.append_nil, regEvents, hdecoded]
  split
  · trivial
  · simp only [Option.map_some, Option.getD_some, BitmapWrite.events]
    split
    next hsel =>
      obtain ⟨rfl, hbit⟩ := hsel
      have hzero : intid = 0 := by
        simp only [frameSelects, Bool.and_eq_true] at hbit
        by_contra hne
        have hoff : (1 : U32).getLsbD intid = false := by
          simp [hne]
        rw [hoff] at hbit
        exact absurd hbit.2 Bool.false_ne_true
      subst hzero
      simp [Line.Loses, h]
    next => trivial

/-- The virtual timer's PPI is raised on CPU 0, and a write to `GICR_ICPENDR0` clears SGI 0. -/
theorem asserted_timer_pending :
    ((run step (reset 1) [.setLevelOn 0 27 true,
      .write (kRedistBase + kGicrSgiIcpendr0) 1 4]).line (.own 0) 27).pending = true :=
  asserted_inactive_pending 1
    [.setLevelOn 0 27 true, .write (kRedistBase + kGicrSgiIcpendr0) 1 4]
    ⟨keepsLevel_of_not_write fun _ _ _ => nofun, keepsLevel_icpendr (by decide), trivial⟩
    (.own 0) 27 (by decide) (by decide)

/-- Raising the timer's PPI and writing its bit to `GICR_ICPENDR0` leaves it asserted,
inactive and not pending. -/
theorem icpendr_loses_timer :
    (run step (reset 1)
      [.setLevelOn 0 27 true,
        .write (kRedistBase + kGicrSgiIcpendr0) 0x8000000 4]).line (.own 0) 27 =
      ⟨true, false, false⟩ := by
  decide

end GicV3
end Aarchvm

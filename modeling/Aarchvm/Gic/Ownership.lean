import Aarchvm.Gic.Line

/-!
# Ownership of an active interrupt

Selection looks at pending and enabled bits only, so an interrupt that is both
pending and active can be acknowledged again. In a run that makes an active
interrupt pending, or a pending one active, only where none of the CPUs that
could take it acknowledges before it is deactivated or no longer pending, an
acknowledged interrupt was inactive, and it is deactivated before it is
acknowledged again.
-/
namespace Aarchvm

open Lib.Run

namespace Line

def Exclusive (l : Line) : Prop := ¬ (l.pending = true ∧ l.active = true)

/-- The event makes an active interrupt pending, or a pending one active without taking it. -/
def Overlaps (l : Line) : LineEvent → Prop
  | .pend => l.active = true
  | .activate => l.pending = true
  | _ => False

theorem exclusive_step {l : Line} {e : LineEvent} (h : l.Exclusive) (hn : ¬ l.Overlaps e) :
    (l.step e).Exclusive := by
  obtain ⟨level, pending, active⟩ := l
  unfold Exclusive at h
  cases e with
  | level asserted => cases asserted <;> cases level <;> cases pending <;> cases active <;>
      simp_all [Exclusive, step]
  | pend => simpa [Exclusive, Overlaps, step] using hn
  | unpend => simp [Exclusive, step]
  | take => simp [Exclusive, step]
  | activate => simpa [Exclusive, Overlaps, step] using hn
  | deactivate => simp [Exclusive, step]
  | eoi => simp [Exclusive, step]

/-- Only deactivations clear the active flag. -/
theorem active_lost {l : Line} {es : List LineEvent} (h : l.active = true)
    (h' : (run step l es).active ≠ true) : LineEvent.eoi ∈ es ∨ LineEvent.deactivate ∈ es := by
  obtain ⟨before, e, after, rfl, hb, hn⟩ :=
    exists_losing_step (P := fun l : Line => l.active = true) h h'
  generalize run step l before = l' at hb hn
  cases e with
  | eoi => simp
  | deactivate => simp
  | level asserted =>
    refine absurd ?_ hn
    simp only [step]
    split <;> exact hb
  | pend => exact absurd hb hn
  | unpend => exact absurd hb hn
  | take => exact absurd rfl hn
  | activate => exact absurd rfl hn

end Line

namespace GicV3

/-- The operation is an acknowledgement by a CPU that the interrupt is deliverable to. -/
def MayTake (g : GicV3) (op : GicOp) (b : Bank) (intid : Nat) : Prop :=
  ∃ cpuIndex pmr, op = .acknowledge cpuIndex pmr ∧ b = g.bankOf cpuIndex intid ∧
    g.Eligible cpuIndex pmr intid

/-- No operation may take the interrupt as long as it is both pending and active. -/
def Withheld (b : Bank) (intid : Nat) : GicV3 → List GicOp → Prop
  | _, [] => True
  | g, op :: ops => (g.line b intid).Exclusive ∨
      ¬ g.MayTake op b intid ∧ Withheld b intid (g.step op) ops

/-- An operation that makes an active interrupt pending, or a pending one active other than by
acknowledging it, is followed by its deactivation, or by a write that clears its pending bit,
before an operation that may take it. -/
def KeepsOwnership : GicV3 → List GicOp → Prop
  | _, [] => True
  | g, op :: ops =>
    (∀ b intid,
      Along Line.step (fun l e => ¬ l.Overlaps e) (g.line b intid) (g.events op b intid) ∨
        Withheld b intid (g.step op) ops) ∧ KeepsOwnership (g.step op) ops

/-- Every interrupt that is both pending and active is withheld. -/
def Settled (g : GicV3) (ops : List GicOp) : Prop :=
  ∀ b intid, (g.line b intid).Exclusive ∨ Withheld b intid g ops

/-- The operation deactivates `intid` of bank `b`: an `eoi`, or a write of its bit to an
ICACTIVER register. -/
def Deactivates (g : GicV3) (op : GicOp) (b : Bank) (intid : Nat) : Prop :=
  LineEvent.eoi ∈ g.events op b intid ∨ LineEvent.deactivate ∈ g.events op b intid

theorem settled_step {g : GicV3} {op : GicOp} {ops : List GicOp} (h : g.Settled (op :: ops))
    (hk : KeepsOwnership g (op :: ops)) : (g.step op).Settled ops := by
  intro b intid
  rcases hk.1 b intid with halong | hwithheld
  · by_cases hex : (g.line b intid).Exclusive
    · left
      rw [step_line]
      exact halong.invariant (fun _ _ => Line.exclusive_step) hex
    · -- it was withheld before the operation, and the operation does not end that
      right
      rcases h b intid with hex' | hex' | hnext
      · exact absurd hex' hex
      · exact absurd hex' hex
      · exact hnext.2
  · exact .inr hwithheld

theorem settled_run {g : GicV3} {before ops : List GicOp} (h : g.Settled (before ++ ops))
    (hk : KeepsOwnership g (before ++ ops)) : (run step g before).Settled ops := by
  induction before generalizing g with
  | nil => exact h
  | cons op before ih => exact ih (settled_step h hk) hk.2

theorem settled_reset (cpuCount : Nat) (ops : List GicOp) : (reset cpuCount).Settled ops := by
  intro b intid
  left
  rw [reset_line]
  simp [Line.Exclusive]

/-- What may be taken of a settled controller is not active. -/
theorem Settled.inactive {g : GicV3} {op : GicOp} {ops : List GicOp} (h : g.Settled (op :: ops))
    {b : Bank} {intid : Nat} (hpend : (g.line b intid).pending = true)
    (htake : g.MayTake op b intid) : (g.line b intid).active = false := by
  have hexclusive : (g.line b intid).Exclusive → (g.line b intid).active = false := by
    intro hex
    rw [Line.Exclusive, hpend] at hex
    simpa using hex
  rcases h b intid with hex | hex | hnext
  · exact hexclusive hex
  · exact hexclusive hex
  · exact absurd htake hnext.1

theorem acknowledged_eligible {g : GicV3} {cpuIndex : Nat} {pmr : U8} {intid : Nat}
    (h : (g.acknowledge cpuIndex pmr).1 = some intid) : g.Eligible cpuIndex pmr intid := by
  rw [acknowledge_fst] at h
  exact highestPending_eligible h

/-- What is acknowledged becomes active. -/
theorem acknowledged_active {g : GicV3} {cpuIndex : Nat} {pmr : U8} {intid : Nat}
    (h : (g.acknowledge cpuIndex pmr).1 = some intid) :
    ((g.step (.acknowledge cpuIndex pmr)).line (g.bankOf cpuIndex intid) intid).active = true := by
  rw [acknowledge_fst] at h
  rw [step_line]
  simp [events, h, Line.step]

/-- A run that loses the active flag of an interrupt contains its deactivation. -/
theorem exists_deactivation {g : GicV3} {ops : List GicOp} {b : Bank} {intid : Nat}
    (h : (g.line b intid).active = true) (h' : ((run step g ops).line b intid).active ≠ true) :
    ∃ before op after, ops = before ++ op :: after ∧
      (run step g before).Deactivates op b intid := by
  obtain ⟨before, op, after, hops, hb, hn⟩ :=
    exists_losing_step (P := fun g : GicV3 => (g.line b intid).active = true) h h'
  rw [step_line] at hn
  exact ⟨before, op, after, hops, Line.active_lost hb hn⟩

/-- From reset, in a run that keeps ownership, an acknowledged interrupt was not active, and
between two acknowledgements of it from one bank (any two for an SPI, the same CPU's for an
SGI or PPI) it is deactivated. -/
theorem acknowledged_once (cpuCount : Nat) (ops : List GicOp)
    (h : KeepsOwnership (reset cpuCount) ops) :
    (∀ before cpuIndex pmr after intid, ops = before ++ .acknowledge cpuIndex pmr :: after →
      ((run step (reset cpuCount) before).acknowledge cpuIndex pmr).1 = some intid →
      ((run step (reset cpuCount) before).line
        ((reset cpuCount).bankOf cpuIndex intid) intid).active = false) ∧
    (∀ before cpu₁ pmr₁ between cpu₂ pmr₂ after intid,
      ops = before ++ .acknowledge cpu₁ pmr₁ :: (between ++ .acknowledge cpu₂ pmr₂ :: after) →
      ((run step (reset cpuCount) before).acknowledge cpu₁ pmr₁).1 = some intid →
      ((run step (reset cpuCount) (before ++ .acknowledge cpu₁ pmr₁ :: between)).acknowledge
        cpu₂ pmr₂).1 = some intid →
      (reset cpuCount).bankOf cpu₁ intid = (reset cpuCount).bankOf cpu₂ intid →
      ∃ early op late, between = early ++ op :: late ∧
        (run step (reset cpuCount) (before ++ .acknowledge cpu₁ pmr₁ :: early)).Deactivates op
          ((reset cpuCount).bankOf cpu₁ intid) intid) := by
  have hinactive : ∀ before cpuIndex pmr after intid,
      ops = before ++ .acknowledge cpuIndex pmr :: after →
      ((run step (reset cpuCount) before).acknowledge cpuIndex pmr).1 = some intid →
      ((run step (reset cpuCount) before).line
        ((reset cpuCount).bankOf cpuIndex intid) intid).active = false := by
    intro before cpuIndex pmr after intid hops hack
    have hsettled : (run step (reset cpuCount) before).Settled
        (.acknowledge cpuIndex pmr :: after) :=
      settled_run (settled_reset cpuCount _) (hops ▸ h)
    have helig := acknowledged_eligible hack
    rw [← run_bankOf (reset cpuCount) before]
    exact hsettled.inactive helig.pending ⟨cpuIndex, pmr, rfl, rfl, helig⟩
  refine ⟨hinactive, ?_⟩
  intro before cpu₁ pmr₁ between cpu₂ pmr₂ after intid hops hack₁ hack₂ hbank
  have hact := acknowledged_active hack₁
  rw [run_bankOf] at hact
  have hoff := hinactive (before ++ .acknowledge cpu₁ pmr₁ :: between) cpu₂ pmr₂ after intid
    (by rw [hops, List.append_assoc, List.cons_append]) hack₂
  rw [← hbank, run_append, run_cons] at hoff
  obtain ⟨early, op, late, hbetween, hd⟩ := exists_deactivation hact (Bool.eq_false_iff.1 hoff)
  refine ⟨early, op, late, hbetween, ?_⟩
  rw [run_append, run_cons]
  exact hd

/-- An operation that leaves all active interrupts alone keeps ownership. -/
theorem keepsOwnership_cons {g : GicV3} {op : GicOp} {ops : List GicOp}
    (h : ∀ b intid, Along Line.step (fun l e => ¬ l.Overlaps e) (g.line b intid)
      (g.events op b intid)) (hk : KeepsOwnership (g.step op) ops) :
    KeepsOwnership g (op :: ops) :=
  ⟨fun b intid => .inl (h b intid), hk⟩

theorem not_overlaps_setPendingOn {g : GicV3} {cpuIndex n : Nat}
    (h : (g.line (g.bankOf cpuIndex n) n).active = false) (b : Bank) (intid : Nat) :
    Along Line.step (fun l e => ¬ l.Overlaps e) (g.line b intid)
      (g.events (.setPendingOn cpuIndex n) b intid) := by
  simp only [events]
  split
  next hsel =>
    obtain ⟨rfl, rfl, -⟩ := hsel
    simp [Line.Overlaps, h]
  next => trivial

theorem not_overlaps_acknowledge (g : GicV3) (cpuIndex : Nat) (pmr : U8) (b : Bank) (intid : Nat) :
    Along Line.step (fun l e => ¬ l.Overlaps e) (g.line b intid)
      (g.events (.acknowledge cpuIndex pmr) b intid) := by
  simp only [events]
  cases g.highestPending cpuIndex pmr with
  | none => trivial
  | some n => dsimp only; split <;> simp [Line.Overlaps]

theorem not_overlaps_eoi (g : GicV3) (cpuIndex n : Nat) (b : Bank) (intid : Nat) :
    Along Line.step (fun l e => ¬ l.Overlaps e) (g.line b intid)
      (g.events (.eoi cpuIndex n) b intid) := by
  simp only [events]
  split <;> simp [Line.Overlaps]

/-- Enabling SPI 33, which is bit 1 of the second `GICD_ISENABLER` word. -/
def enableUart : GicOp := .write (kGicdIsenabler + 4) 2 4

theorem enableUart_events (g : GicV3) (b : Bank) (intid : Nat) :
    g.events enableUart b intid = [] := by
  show g.regEvents (kGicdIsenabler + 4, 2) b intid ++ [] = []
  show (if _ then _ else _) ++ [] = []
  split <;> rfl

/-- A second character arrives while the interrupt of the first is active. CPU 0 ends that one
before it acknowledges again. -/
def uartTwice : List GicOp :=
  [enableUart, .setPendingOn 0 33, .acknowledge 0 0xFF, .setPendingOn 0 33, .eoi 0 33,
    .acknowledge 0 0xFF]

theorem uartTwice_keepsOwnership : KeepsOwnership (reset 2) uartTwice := by
  refine keepsOwnership_cons (fun b intid => ?_) ?_
  · rw [enableUart_events]
    trivial
  refine keepsOwnership_cons (not_overlaps_setPendingOn (by decide)) ?_
  refine keepsOwnership_cons (not_overlaps_acknowledge _ 0 0xFF) ⟨fun b intid => ?_, ?_⟩
  · -- the second character: the `eoi` comes before the acknowledgement
    by_cases hsel : b = .shared ∧ intid = 33
    · obtain ⟨rfl, rfl⟩ := hsel
      refine .inr (.inr ⟨?_, .inl ?_⟩)
      · rintro ⟨cpuIndex, pmr, hop, -⟩
        cases hop
      · unfold Line.Exclusive
        decide +kernel
    · left
      have hnone : ∀ g : GicV3, g.events (.setPendingOn 0 33) b intid = [] := by
        intro g
        refine if_neg ?_
        rintro ⟨hb, hi, -⟩
        exact hsel ⟨hb, hi⟩
      rw [hnone]
      trivial
  refine keepsOwnership_cons (not_overlaps_eoi _ 0 33) ?_
  exact keepsOwnership_cons (not_overlaps_acknowledge _ 0 0xFF) trivial

/-- CPU 0 takes the interrupts of both characters, and has deactivated the first between. -/
theorem uart_acknowledged_once :
    ((run step (reset 2) [enableUart, .setPendingOn 0 33]).acknowledge 0 0xFF).1 = some 33 ∧
    ((run step (reset 2) [enableUart, .setPendingOn 0 33, .acknowledge 0 0xFF, .setPendingOn 0 33,
      .eoi 0 33]).acknowledge 0 0xFF).1 = some 33 ∧
    ∃ early op late, [GicOp.setPendingOn 0 33, .eoi 0 33] = early ++ op :: late ∧
      (run step (reset 2) ([enableUart, .setPendingOn 0 33] ++ .acknowledge 0 0xFF :: early)
        ).Deactivates op .shared 33 := by
  have hfirst : ((run step (reset 2) [enableUart, .setPendingOn 0 33]).acknowledge 0 0xFF).1 =
      some 33 := by
    decide +kernel
  have hsecond : ((run step (reset 2) [enableUart, .setPendingOn 0 33, .acknowledge 0 0xFF,
      .setPendingOn 0 33, .eoi 0 33]).acknowledge 0 0xFF).1 = some 33 := by
    decide +kernel
  exact ⟨hfirst, hsecond, (acknowledged_once 2 uartTwice uartTwice_keepsOwnership).2
    [enableUart, .setPendingOn 0 33] 0 0xFF [.setPendingOn 0 33, .eoi 0 33] 0 0xFF [] 33 rfl
    hfirst hsecond rfl⟩

/-- CPU 0 takes the UART's interrupt, a second character arrives through `inject_uart_rx`,
and CPU 1 takes the same active interrupt: no deactivation lies between the two. -/
theorem uart_acknowledged_twice :
    ((run step (reset 2) [enableUart, .setPendingOn 0 33]).acknowledge 0 0xFF).1 = some 33 ∧
    ((run step (reset 2) [enableUart, .setPendingOn 0 33, .acknowledge 0 0xFF,
      .setPendingOn 0 33]).line .shared 33).active = true ∧
    ((run step (reset 2) [enableUart, .setPendingOn 0 33, .acknowledge 0 0xFF,
      .setPendingOn 0 33]).acknowledge 1 0xFF).1 = some 33 ∧
    ¬ (run step (reset 2) [enableUart, .setPendingOn 0 33, .acknowledge 0 0xFF]).Deactivates
      (.setPendingOn 0 33) .shared 33 := by
  refine ⟨by decide +kernel, by decide +kernel, by decide +kernel, ?_⟩
  simp only [Deactivates, events]
  split <;> simp

end GicV3
end Aarchvm

import Aarchvm.Cpu.View
import Aarchvm.Gic.Select

/-!
# Draining the ICC interface

Software that polls ICC_IAR1_EL1 ends each interrupt with one EOIR write and, with
EOImode set, one DIR write. The manual stack follows as long as these writes are
made for the entry on its top; then the stack holds the unfinished interrupts,
and once all are ended the depth and the running priority are the initial ones. A
DIR write for an entry below the top is not recorded, and an EOIR write for an
entry below the top is ignored.
-/
namespace Aarchvm

open Lib.Run

/-- An interrupt whose priority is still to be dropped. -/
inductive Opened where
  | polled (intid : Nat)
  | irq
  deriving DecidableEq, Repr

/-- A polled interrupt that is not finished. -/
structure Activation where
  intid : Nat
  dropped : Bool
  deriving DecidableEq, Repr

/-- A cluster with CPU `i`'s interrupts of the run: those whose priority is to be dropped,
and the polled ones that are not finished, both most recent first. -/
structure Polling where
  cluster : Cluster
  opened : List Opened
  unfinished : List Activation

namespace Polling

def start (s : Cluster) : Polling := ⟨s, [], []⟩

/-- The priority drop that an EOIR write makes, or an ERET, on the list of the opened. -/
def openedAfter (t : Polling) (c : Cpu) (op : CpuOp) : List Opened :=
  match op with
  | .readIccIar1El1 =>
    ((c.acknowledges t.cluster.gic op).map Opened.polled).toList ++ t.opened
  | .tryTakeIrq =>
    if c.exceptions.depth < kExceptionStackCapacity then
      ((c.acknowledges t.cluster.gic op).map fun _ => Opened.irq).toList ++ t.opened
    else t.opened
  | .eret => if c.openIrq.isSome then t.opened.tail else t.opened
  | .writeIccEoir1El1 value =>
    if c.currentIrq = some (writtenIntid value) then
      if c.openIrq.isSome then t.opened.tail else t.opened
    else if t.opened.head? = some (.polled (writtenIntid value)) then t.opened.tail
    else t.opened
  | _ => t.opened

/-- A polled interrupt is finished by its EOIR write or, with EOImode set, by the DIR write
after it. -/
def unfinishedAfter (t : Polling) (c : Cpu) (op : CpuOp) : List Activation :=
  match op with
  | .readIccIar1El1 =>
    ((c.acknowledges t.cluster.gic op).map fun n => Activation.mk n false).toList ++ t.unfinished
  | .writeIccEoir1El1 value =>
    let x := writtenIntid value
    if c.currentIrq ≠ some x ∧ t.opened.head? = some (.polled x) then
      if c.eoiMode then t.unfinished.replace ⟨x, false⟩ ⟨x, true⟩
      else t.unfinished.erase ⟨x, false⟩
    else t.unfinished
  | .writeIccDirEl1 value => t.unfinished.erase ⟨writtenIntid value, true⟩
  | _ => t.unfinished

variable (i : Nat)

def step (t : Polling) (op : ClusterOp) : Polling :=
  match op with
  | .cpu j op =>
    if j = i ∧ (t.cluster.cpus i).halted = false then
      ⟨t.cluster.step (.cpu j op), t.openedAfter (t.cluster.cpus i) op,
        t.unfinishedAfter (t.cluster.cpus i) op⟩
    else { t with cluster := t.cluster.step (.cpu j op) }
  | .gic op => { t with cluster := t.cluster.step (.gic op) }

/-- The manual stack holds nothing for `x`. -/
def Unknown (c : Cpu) (x : Nat) : Prop := ∀ m ∈ c.view.manual, m.intid ≠ x

instance (c : Cpu) (x : Nat) : Decidable (Unknown c x) :=
  inferInstanceAs (Decidable (∀ m ∈ c.view.manual, m.intid ≠ x))

/-- Priority drops are made in LIFO order, each once, and a DIR write is made for an
interrupt whose priority is dropped, in any order. Writes for an INTID that is not handled
are allowed. -/
def disciplinedCpu (t : Polling) (c : Cpu) : CpuOp → Prop
  | .eret => c.openIrq.isSome → t.opened.head? = some .irq
  | .writeIccEoir1El1 value =>
    let x := writtenIntid value
    (c.openIrq.map ExceptionFrame.intid = some x ∧ t.opened.head? = some .irq) ∨
      (c.currentIrq ≠ some x ∧ (t.opened.head? = some (.polled x) ∨ Unknown c x))
  | .writeIccDirEl1 value =>
    ⟨writtenIntid value, true⟩ ∈ t.unfinished ∨ Unknown c (writtenIntid value)
  | _ => True

/-- An EOIR or DIR write that ends something polled is made for the most recent unfinished
interrupt, and a polled read with fewer than 64 unfinished. -/
def inOrderCpu (initialDepth : Nat) (t : Polling) (c : Cpu) : CpuOp → Prop
  | .readIccIar1El1 =>
    c.currentIrq = none → initialDepth + t.unfinished.length < kExceptionStackCapacity
  | .writeIccEoir1El1 value =>
    let x := writtenIntid value
    c.currentIrq ≠ some x → t.opened.head? = some (.polled x) →
      t.unfinished.head? = some ⟨x, false⟩
  | .writeIccDirEl1 value =>
    let x := writtenIntid value
    ⟨x, true⟩ ∈ t.unfinished → t.unfinished.head? = some ⟨x, true⟩
  | _ => True

/-- The condition `ok` on what CPU `i` does while it runs. -/
def OnCpu (ok : Polling → Cpu → CpuOp → Prop) (t : Polling) : ClusterOp → Prop
  | .cpu j op => j = i → (t.cluster.cpus i).halted = false → ok t (t.cluster.cpus i) op
  | .gic _ => True

def Disciplined : Polling → ClusterOp → Prop := OnCpu i disciplinedCpu

def InOrder (initialDepth : Nat) : Polling → ClusterOp → Prop := OnCpu i (inOrderCpu initialDepth)

/-! ## The stacks follow the software -/

/-- Undoing the opened interrupts in order, each with the priority saved for it, ends at the
priority `r₀`. -/
def Restores (r₀ : U16) : List Opened → List ManualIrq → List U16 → U16 → Prop
  | [], _, _, r => r = r₀
  | .polled x :: os, m :: ms, is, _ => m.intid = x ∧ Restores r₀ os ms is m.prevPrio
  | .irq :: os, ms, p :: is, _ => Restores r₀ os ms is p
  | _, _, _, _ => False

def activation (m : ManualIrq) : Activation := ⟨m.intid, m.prioDropped⟩

def undropped (ms : List ManualIrq) : List ManualIrq := ms.filter fun m => !m.prioDropped

structure Tracks (base : List Activation) (r₀ : U16) (opened : List Opened)
    (unfinished : List Activation) (v : View) : Prop where
  manual : v.manual.map activation = unfinished ++ base
  restores : Restores r₀ opened (undropped v.manual) v.openIrqs v.running

namespace Tracks

variable {base : List Activation} {r₀ : U16} {opened : List Opened}
  {unfinished : List Activation} {v : View}

theorem polled (h : Tracks base r₀ opened unfinished v) (n : Nat) (p : U16) :
    Tracks base r₀ (.polled n :: opened) (⟨n, false⟩ :: unfinished)
      ⟨⟨n, v.running, false⟩ :: v.manual, v.openIrqs, p⟩ where
  manual := by
    rw [List.map_cons, h.manual]
    rfl
  restores := ⟨rfl, h.restores⟩

theorem irq (h : Tracks base r₀ opened unfinished v) (p : U16) :
    Tracks base r₀ (.irq :: opened) unfinished ⟨v.manual, v.running :: v.openIrqs, p⟩ where
  manual := h.manual
  restores := h.restores

/-- The priority of an interrupt handler is dropped, by EOIR or ERET. -/
theorem endIrq (h : Tracks base r₀ opened unfinished v) {p : U16} {is : List U16}
    (ho : opened.head? = some .irq) (hi : v.openIrqs = p :: is) :
    Tracks base r₀ opened.tail unfinished ⟨v.manual, v.openIrqs.tail, p⟩ where
  manual := h.manual
  restores := by
    have hr := h.restores
    cases opened with
    | nil => cases ho
    | cons o os =>
      cases ho
      rw [hi] at hr ⊢
      exact hr

/-- The top of the manual stack, when the most recent unfinished interrupt is known. -/
theorem exists_top (h : Tracks base r₀ opened unfinished v) {a : Activation}
    (hu : unfinished.head? = some a) :
    ∃ m rest, v.manual = m :: rest ∧ activation m = a ∧
      rest.map activation = unfinished.tail ++ base := by
  have hm := h.manual
  cases unfinished with
  | nil => cases hu
  | cons b us =>
    cases hu
    obtain ⟨m, rest, hv, ha, hrest⟩ := List.map_eq_cons_iff.1 hm
    exact ⟨m, rest, hv, ha, hrest⟩

/-- The priority of the polled interrupt on top is dropped; it stays on the stack, dropped,
or leaves it. -/
theorem dropPolled (h : Tracks base r₀ opened unfinished v) {x : Nat} {m : ManualIrq}
    {rest : List ManualIrq} (ho : opened.head? = some (.polled x)) (hv : v.manual = m :: rest)
    (hm : activation m = ⟨x, false⟩) :
    Restores r₀ opened.tail (undropped rest) v.openIrqs m.prevPrio := by
  have hr := h.restores
  have hd : m.prioDropped = false := congrArg Activation.dropped hm
  cases opened with
  | nil => cases ho
  | cons o os =>
    cases ho
    rw [hv, undropped, List.filter_cons, if_pos (by simp [hd])] at hr
    exact hr.2

theorem keepDropped (h : Tracks base r₀ opened unfinished v) {x : Nat} {m : ManualIrq}
    {rest : List ManualIrq} (ho : opened.head? = some (.polled x)) (hv : v.manual = m :: rest)
    (hm : activation m = ⟨x, false⟩) (hrest : rest.map activation = unfinished.tail ++ base) :
    Tracks base r₀ opened.tail (⟨x, true⟩ :: unfinished.tail)
      ⟨{ m with prioDropped := true } :: rest, v.openIrqs, m.prevPrio⟩ where
  manual := by
    have hx : m.intid = x := congrArg Activation.intid hm
    rw [List.map_cons, hrest, activation, hx]
    rfl
  restores := by
    show Restores r₀ opened.tail (undropped rest) v.openIrqs m.prevPrio
    exact h.dropPolled ho hv hm

theorem removeDropped (h : Tracks base r₀ opened unfinished v) {x : Nat} {m : ManualIrq}
    {rest : List ManualIrq} (ho : opened.head? = some (.polled x)) (hv : v.manual = m :: rest)
    (hm : activation m = ⟨x, false⟩) (hrest : rest.map activation = unfinished.tail ++ base) :
    Tracks base r₀ opened.tail unfinished.tail ⟨rest, v.openIrqs, m.prevPrio⟩ where
  manual := hrest
  restores := h.dropPolled ho hv hm

/-- A dropped interrupt on top is deactivated. -/
theorem deactivate (h : Tracks base r₀ opened unfinished v) {m : ManualIrq}
    {rest : List ManualIrq} (hv : v.manual = m :: rest) (hd : m.prioDropped = true)
    (hrest : rest.map activation = unfinished.tail ++ base) :
    Tracks base r₀ opened unfinished.tail ⟨rest, v.openIrqs, v.running⟩ where
  manual := hrest
  restores := by
    have hr := h.restores
    rw [hv, undropped, List.filter_cons, if_neg (by simp [hd])] at hr
    exact hr

theorem intid_ne (h : Tracks base r₀ opened unfinished v) {x : Nat}
    (hx : ∀ m ∈ v.manual, m.intid ≠ x) {a : Activation} (ha : a ∈ unfinished) : a.intid ≠ x := by
  have hmem : a ∈ v.manual.map activation := by
    rw [h.manual]
    exact List.mem_append_left _ ha
  obtain ⟨m, hm, rfl⟩ := List.mem_map.1 hmem
  exact hx m hm

/-- An INTID that the manual stack does not hold is not opened last. -/
theorem head_ne (h : Tracks base r₀ opened unfinished v) {x : Nat}
    (hx : ∀ m ∈ v.manual, m.intid ≠ x) : opened.head? ≠ some (.polled x) := by
  intro ho
  have hr := h.restores
  cases opened with
  | nil => cases ho
  | cons o os =>
    cases ho
    cases hu : undropped v.manual with
    | nil =>
      rw [hu] at hr
      exact hr
    | cons m ms =>
      rw [hu] at hr
      have hm : m ∈ undropped v.manual := hu ▸ List.mem_cons_self
      exact hx m (List.mem_of_mem_filter hm) hr.1

end Tracks

/-! ## Each operation is tracked -/

section Step

variable {base : List Activation} {r₀ : U16} {d₀ : Nat} {t : Polling} {c : Cpu}

theorem tracks_tryTakeIrq (h : Tracks base r₀ t.opened t.unfinished c.view) :
    Tracks base r₀ (t.openedAfter c .tryTakeIrq) t.unfinished
      (c.tryTakeIrq t.cluster.gic).2.1.view := by
  unfold openedAfter
  dsimp only
  split
  next hroom =>
    cases hack : c.acknowledges t.cluster.gic .tryTakeIrq with
    | none =>
      rw [Cpu.tryTakeIrq_view_of_not_entered (.inl hack)]
      exact h
    | some intid =>
      obtain ⟨p, hv⟩ := Cpu.tryTakeIrq_view_of_room hack hroom
      rw [hv]
      exact h.irq p
  next hfull =>
    rw [Cpu.tryTakeIrq_view_of_not_entered (.inr hfull)]
    exact h

theorem tracks_eret (h : Tracks base r₀ t.opened t.unfinished c.view)
    (hd : disciplinedCpu t c .eret) :
    Tracks base r₀ (t.openedAfter c .eret) t.unfinished (c.eret t.cluster.gic).1.view := by
  unfold openedAfter
  dsimp only
  cases ho : c.openIrq with
  | none =>
    rw [Cpu.eret_view_of_not_open ho]
    exact h
  | some f =>
    rw [Cpu.eret_view_of_open ho]
    exact h.endIrq (hd (by rw [ho]; rfl)) (Cpu.openIrqs_of_openIrq ho)

theorem tracks_readIar (h : Tracks base r₀ t.opened t.unfinished c.view) :
    Tracks base r₀ (t.openedAfter c .readIccIar1El1) (t.unfinishedAfter c .readIccIar1El1)
      (c.readIccIar1El1 t.cluster.gic).2.1.view := by
  unfold openedAfter unfinishedAfter
  dsimp only
  cases hack : c.acknowledges t.cluster.gic .readIccIar1El1 with
  | none =>
    rw [Cpu.readIccIar1El1_view_of_no_ack hack]
    exact h
  | some intid =>
    obtain ⟨p, hv⟩ := Cpu.readIccIar1El1_view_of_ack hack
    rw [hv]
    exact h.polled intid p

theorem currentIrq_of_openIrq {f : ExceptionFrame} (h : c.openIrq = some f) :
    c.currentIrq = some f.intid := by
  obtain ⟨ht, ho⟩ := Cpu.top_of_openIrq h
  unfold Cpu.currentIrq
  rw [ht]
  exact if_pos (Bool.and_eq_true_iff.1 ho).1

/-- The EOIR write for the polled interrupt that was read last. -/
theorem tracks_eoir_polled (h : Tracks base r₀ t.opened t.unfinished c.view) {value : U64}
    (hc : c.currentIrq ≠ some (writtenIntid value))
    (ho : t.opened.head? = some (.polled (writtenIntid value)))
    (hu : t.unfinished.head? = some ⟨writtenIntid value, false⟩) :
    Tracks base r₀ (t.openedAfter c (.writeIccEoir1El1 value))
      (t.unfinishedAfter c (.writeIccEoir1El1 value))
      (c.iccPriorityDrop t.cluster.gic (writtenIntid value)).1.view := by
  unfold openedAfter unfinishedAfter
  dsimp only
  generalize writtenIntid value = x at hc ho hu ⊢
  obtain ⟨m, rest, hv, hm, hrest⟩ := h.exists_top hu
  obtain rfl : m.intid = x := congrArg Activation.intid hm
  rw [if_neg hc, if_pos ho, if_pos ⟨hc, ho⟩, Cpu.iccPriorityDrop_of_not_current hc,
    Cpu.dropManual_view_of_top hv]
  cases hmode : c.eoiMode with
  | true =>
    have hrep : t.unfinished.replace ⟨m.intid, false⟩ ⟨m.intid, true⟩ =
        ⟨m.intid, true⟩ :: t.unfinished.tail := by
      rw [← List.cons_head?_tail hu, List.replace_cons_self, List.tail_cons]
    rw [if_pos rfl, if_pos rfl, hrep]
    exact h.keepDropped ho hv hm hrest
  | false =>
    have hrem : t.unfinished.erase ⟨m.intid, false⟩ = t.unfinished.tail := by
      rw [← List.cons_head?_tail hu, List.erase_cons_head, List.tail_cons]
    rw [if_neg Bool.false_ne_true, if_neg Bool.false_ne_true, hrem]
    exact h.removeDropped ho hv hm hrest

theorem tracks_eoir (h : Tracks base r₀ t.opened t.unfinished c.view) {value : U64}
    (hd : disciplinedCpu t c (.writeIccEoir1El1 value))
    (hin : inOrderCpu d₀ t c (.writeIccEoir1El1 value)) :
    Tracks base r₀ (t.openedAfter c (.writeIccEoir1El1 value))
      (t.unfinishedAfter c (.writeIccEoir1El1 value))
      (c.iccPriorityDrop t.cluster.gic (writtenIntid value)).1.view := by
  rcases hd with ⟨hirq, ho⟩ | ⟨hc, ho | hunknown⟩
  · obtain ⟨f, hf, hx⟩ := Option.map_eq_some_iff.1 hirq
    have hc : c.currentIrq = some (writtenIntid value) := hx ▸ currentIrq_of_openIrq hf
    unfold openedAfter unfinishedAfter
    dsimp only
    rw [if_pos hc, if_pos (by rw [hf]; rfl), if_neg (fun h' => h'.1 hc), ← hx,
      Cpu.iccPriorityDrop_view_of_open hf]
    exact h.endIrq ho (Cpu.openIrqs_of_openIrq hf)
  · exact tracks_eoir_polled h hc ho (hin hc ho)
  · have ho := h.head_ne hunknown
    unfold openedAfter unfinishedAfter
    dsimp only
    rw [if_neg hc, if_neg ho, if_neg (fun h' => ho h'.2), Cpu.iccPriorityDrop_of_not_current hc,
      Cpu.dropManual_view_of_ne hunknown]
    exact h

theorem tracks_dir (h : Tracks base r₀ t.opened t.unfinished c.view) {value : U64}
    (hd : disciplinedCpu t c (.writeIccDirEl1 value))
    (hin : inOrderCpu d₀ t c (.writeIccDirEl1 value)) :
    Tracks base r₀ t.opened (t.unfinishedAfter c (.writeIccDirEl1 value))
      (c.iccDeactivate t.cluster.gic (writtenIntid value)).1.view := by
  unfold unfinishedAfter
  dsimp only
  rcases hd with hmem | hunknown
  · have hu := hin hmem
    obtain ⟨m, rest, hv, hm, hrest⟩ := h.exists_top hu
    have hx : m.intid = writtenIntid value := congrArg Activation.intid hm
    have hdrop : m.prioDropped = true := congrArg Activation.dropped hm
    have hrem : t.unfinished.erase ⟨writtenIntid value, true⟩ = t.unfinished.tail := by
      rw [← List.cons_head?_tail hu, List.erase_cons_head, List.tail_cons]
    rw [hrem, ← hx, Cpu.iccDeactivate_view_of_top hv hdrop]
    exact h.deactivate hv hdrop hrest
  · have hrem : t.unfinished.erase ⟨writtenIntid value, true⟩ = t.unfinished := by
      refine List.erase_of_not_mem fun hmem => ?_
      exact h.intid_ne hunknown hmem rfl
    rw [hrem, Cpu.iccDeactivate_view_of_ne hunknown]
    exact h

theorem tracks_perform (h : Tracks base r₀ t.opened t.unfinished c.view) {op : CpuOp}
    (hd : disciplinedCpu t c op) (hin : inOrderCpu d₀ t c op) :
    Tracks base r₀ (t.openedAfter c op) (t.unfinishedAfter c op)
      (c.perform t.cluster.gic op).1.view := by
  cases op with
  | enterSyncException faultPc ec iss farValid far =>
    show Tracks base r₀ t.opened t.unfinished (c.enterSyncException ..).view
    rw [Cpu.enterSyncException_view]
    exact h
  | tryTakeIrq => exact tracks_tryTakeIrq h
  | eret => exact tracks_eret h hd
  | irqWakeupReady =>
    show Tracks base r₀ t.opened t.unfinished (c.irqWakeupReady _).2.1.view
    rw [Cpu.irqWakeupReady_view]
    exact h
  | readIccIar1El1 => exact tracks_readIar h
  | writeIccEoir1El1 value => exact tracks_eoir h hd hin
  | writeIccDirEl1 value => exact tracks_dir h hd hin
  | writeIccPmrEl1 value => exact h
  | writeIccCtlrEl1 value => exact h
  | writeIccIgrpen1El1 value => exact h
  | writeIccSgi1rEl1 value => exact h
  | other after => exact h

end Step

/-! ## Runs -/

variable {i : Nat} {base : List Activation} {r₀ : U16} {d₀ : Nat} {t : Polling}

theorem tracks_step {op : ClusterOp}
    (h : Tracks base r₀ t.opened t.unfinished (t.cluster.cpus i).view)
    (hok : Disciplined i t op ∧ InOrder i d₀ t op) :
    Tracks base r₀ (t.step i op).opened (t.step i op).unfinished
      ((t.step i op).cluster.cpus i).view := by
  cases op with
  | gic op => exact h
  | cpu j op =>
    unfold step
    dsimp only
    split
    next hj =>
      obtain ⟨rfl, hrun⟩ := hj
      rw [Cluster.step_cpu_self hrun]
      exact tracks_perform h (hok.1 rfl hrun) (hok.2 rfl hrun)
    next hj =>
      have hsame : (t.cluster.step (.cpu j op)).cpus i = t.cluster.cpus i := by
        by_cases hji : j = i
        · subst hji
          have hhalt : (t.cluster.cpus j).halted = true := by
            by_contra hh
            exact hj ⟨rfl, Bool.eq_false_iff.2 hh⟩
          rw [Cluster.step_cpu_of_halted hhalt]
        · exact Cluster.step_cpu_of_ne _ _ (Ne.symm hji)
      dsimp only
      rw [hsame]
      exact h

theorem Tracks.depth {v : View} {opened : List Opened} {unfinished : List Activation}
    (h : Tracks base r₀ opened unfinished v) :
    v.manual.length = base.length + unfinished.length := by
  have hl := congrArg List.length h.manual
  rw [List.length_map, List.length_append] at hl
  omega

/-- A read of ICC_IAR1_EL1 returns the eligible interrupt of least (priority, INTID) below
both the priority mask and the running priority, or 1023 when there is none. -/
def ReadsHighest (c : Cpu) (g : GicV3) : Prop :=
  let threshold := (computeIrqThreshold c.icc.priorities.iccPmrEl1
    c.icc.priorities.runningPriority).setWidth 8
  let value := (c.readIccIar1El1 g).1
  ((∀ n, ¬ g.Eligible c.cpuIndex threshold n) ∧ value = 1023) ∨
    (g.Eligible c.cpuIndex threshold value ∧ ∀ n, g.Eligible c.cpuIndex threshold n →
      g.candidateOf c.cpuIndex value ≤ g.candidateOf c.cpuIndex n)

theorem readsHighest_of_room {c : Cpu} {g : GicV3} (hc : c.currentIrq = none)
    (hen : c.icc.iccIgrpen1El1 ≠ 0) (hd : c.icc.manualIrqs.depth < kExceptionStackCapacity) :
    ReadsHighest c g := by
  have hthr : c.irqThreshold = (computeIrqThreshold c.icc.priorities.iccPmrEl1
      c.icc.priorities.runningPriority).setWidth 8 := by
    rw [Cpu.irqThreshold, c.icc.priorities.fresh]
  have hack : c.acknowledges g .readIccIar1El1 = g.highestPending c.cpuIndex c.irqThreshold := by
    unfold Cpu.acknowledges
    dsimp only
    rw [if_pos ⟨hc, hen, hd⟩, GicV3.acknowledge_fst]
  have hv := Cpu.readIccIar1El1_polled (g := g) hc
  rw [hack, hthr] at hv
  unfold ReadsHighest
  dsimp only
  rw [hv]
  cases hp : g.highestPending c.cpuIndex ((computeIrqThreshold c.icc.priorities.iccPmrEl1
      c.icc.priorities.runningPriority).setWidth 8) with
  | none => exact .inl ⟨(GicV3.highestPending_eq_none_iff ..).1 hp, rfl⟩
  | some n => exact .inr ((GicV3.highestPending_eq_some_iff ..).1 hp)

/-- Every polled read of CPU `i` with group 1 enabled finds room on the manual stack. -/
def PollsServed (i : Nat) : Polling → ClusterOp → Prop :=
  OnCpu i fun t c op =>
    match op with
    | .readIccIar1El1 =>
      c.currentIrq = none → c.icc.iccIgrpen1El1 ≠ 0 → ReadsHighest c t.cluster.gic
    | _ => True

theorem pollsServed_of_inOrder {op : ClusterOp} (hd₀ : base.length = d₀)
    (h : Tracks base r₀ t.opened t.unfinished (t.cluster.cpus i).view)
    (hin : InOrder i d₀ t op) : PollsServed i t op := by
  cases op with
  | gic op => trivial
  | cpu j op =>
    intro hj hrun
    cases op with
    | readIccIar1El1 =>
      intro hc hen
      refine readsHighest_of_room hc hen ?_
      have hroom := hin hj hrun hc
      rw [← hd₀, ← h.depth] at hroom
      exact hroom
    | _ => trivial

/-- In a run whose EOIR and DIR writes are disciplined and are made for the most recent
unfinished interrupt, with fewer than 64 unfinished at each polled read: every polled read
is served; the manual stack holds the unfinished interrupts of the run and nothing more; and
when all are ended, depth and running priority are the initial ones and a read returns the
highest-priority eligible interrupt. -/
theorem drains (i : Nat) (s : Cluster) (ops : List ClusterOp)
    (hok : Along (step i) (fun t op => Disciplined i t op ∧
      InOrder i (s.cpus i).icc.manualIrqs.depth t op) (start s) ops) :
    Along (step i) (PollsServed i) (start s) ops ∧
    ((run (step i) (start s) ops).cluster.cpus i).icc.manualIrqs.depth =
      (s.cpus i).icc.manualIrqs.depth + (run (step i) (start s) ops).unfinished.length ∧
    ((run (step i) (start s) ops).unfinished = [] → (run (step i) (start s) ops).opened = [] →
      ((run (step i) (start s) ops).cluster.cpus i).icc.manualIrqs.depth =
        (s.cpus i).icc.manualIrqs.depth ∧
      ((run (step i) (start s) ops).cluster.cpus i).icc.priorities.runningPriority =
        (s.cpus i).icc.priorities.runningPriority ∧
      (((run (step i) (start s) ops).cluster.cpus i).currentIrq = none →
        ((run (step i) (start s) ops).cluster.cpus i).icc.iccIgrpen1El1 ≠ 0 →
        (s.cpus i).icc.manualIrqs.depth < kExceptionStackCapacity →
        ReadsHighest ((run (step i) (start s) ops).cluster.cpus i)
          (run (step i) (start s) ops).cluster.gic)) := by
  have hbase : ((s.cpus i).view.manual.map activation).length =
      (s.cpus i).icc.manualIrqs.depth := List.length_map activation
  have hstart : Tracks ((s.cpus i).view.manual.map activation) (s.cpus i).view.running []
      [] (s.cpus i).view := ⟨rfl, rfl⟩
  have hstep : ∀ t op, Tracks ((s.cpus i).view.manual.map activation) (s.cpus i).view.running
      t.opened t.unfinished (t.cluster.cpus i).view →
      (Disciplined i t op ∧ InOrder i (s.cpus i).icc.manualIrqs.depth t op) →
      Tracks ((s.cpus i).view.manual.map activation) (s.cpus i).view.running
        (t.step i op).opened (t.step i op).unfinished ((t.step i op).cluster.cpus i).view :=
    fun _ _ => tracks_step
  have hend := hok.invariant hstep hstart
  have hdepth := hend.depth
  rw [hbase] at hdepth
  refine ⟨hok.along_of_invariant hstep
    (fun t op h hin => pollsServed_of_inOrder hbase h hin.2) hstart, hdepth, ?_⟩
  intro hu ho
  have hd : ((run (step i) (start s) ops).cluster.cpus i).icc.manualIrqs.depth =
      (s.cpus i).icc.manualIrqs.depth := by
    rw [hu] at hdepth
    exact hdepth
  refine ⟨hd, ?_, ?_⟩
  · have hr := hend.restores
    rw [ho] at hr
    exact hr
  · intro hc hen hroom
    exact readsHighest_of_room hc hen (hd ▸ hroom)

/-! ## Two nested polled interrupts -/

instance (t : Polling) (c : Cpu) : (op : CpuOp) → Decidable (disciplinedCpu t c op)
  | .eret => inferInstanceAs (Decidable (c.openIrq.isSome → t.opened.head? = some .irq))
  | .writeIccEoir1El1 value =>
    inferInstanceAs (Decidable ((c.openIrq.map ExceptionFrame.intid = some (writtenIntid value) ∧
      t.opened.head? = some .irq) ∨ (c.currentIrq ≠ some (writtenIntid value) ∧
        (t.opened.head? = some (.polled (writtenIntid value)) ∨ Unknown c (writtenIntid value)))))
  | .writeIccDirEl1 value =>
    inferInstanceAs (Decidable (⟨writtenIntid value, true⟩ ∈ t.unfinished ∨
      Unknown c (writtenIntid value)))
  | .enterSyncException _ _ _ _ _ | .tryTakeIrq | .irqWakeupReady | .readIccIar1El1
  | .writeIccPmrEl1 _ | .writeIccCtlrEl1 _ | .writeIccIgrpen1El1 _ | .writeIccSgi1rEl1 _
  | .other _ => .isTrue trivial

instance (d₀ : Nat) (t : Polling) (c : Cpu) : (op : CpuOp) → Decidable (inOrderCpu d₀ t c op)
  | .readIccIar1El1 =>
    inferInstanceAs (Decidable (c.currentIrq = none →
      d₀ + t.unfinished.length < kExceptionStackCapacity))
  | .writeIccEoir1El1 value =>
    inferInstanceAs (Decidable (c.currentIrq ≠ some (writtenIntid value) →
      t.opened.head? = some (.polled (writtenIntid value)) →
        t.unfinished.head? = some ⟨writtenIntid value, false⟩))
  | .writeIccDirEl1 value =>
    inferInstanceAs (Decidable (⟨writtenIntid value, true⟩ ∈ t.unfinished →
      t.unfinished.head? = some ⟨writtenIntid value, true⟩))
  | .enterSyncException _ _ _ _ _ | .tryTakeIrq | .eret | .irqWakeupReady
  | .writeIccPmrEl1 _ | .writeIccCtlrEl1 _ | .writeIccIgrpen1El1 _ | .writeIccSgi1rEl1 _
  | .other _ => .isTrue trivial

instance (i : Nat) (ok : Polling → Cpu → CpuOp → Prop) [∀ t c op, Decidable (ok t c op)]
    (t : Polling) : (op : ClusterOp) → Decidable (OnCpu i ok t op)
  | .cpu j op =>
    inferInstanceAs (Decidable (j = i → (t.cluster.cpus i).halted = false →
      ok t (t.cluster.cpus i) op))
  | .gic _ => .isTrue trivial

instance (i : Nat) (t : Polling) (op : ClusterOp) : Decidable (Disciplined i t op) :=
  inferInstanceAs (Decidable (OnCpu i disciplinedCpu t op))

instance (i d₀ : Nat) (t : Polling) (op : ClusterOp) : Decidable (InOrder i d₀ t op) :=
  inferInstanceAs (Decidable (OnCpu i (inOrderCpu d₀) t op))

/-- One CPU with EOImode set polls SPI 33 and, while it is active, SPI 34, whose priority is
higher. -/
def nestedPolls : List ClusterOp :=
  [.gic (.write (kGicdIsenabler + 4) 6 4), .gic (.write (kGicdIpriorityr + 32) 0xC080C0C0 4),
    .cpu 0 (.writeIccIgrpen1El1 1), .cpu 0 (.writeIccCtlrEl1 2),
    .gic (.setPendingOn 0 33), .cpu 0 .readIccIar1El1,
    .gic (.setPendingOn 0 34), .cpu 0 .readIccIar1El1]

/-- Each interrupt is ended in turn, the inner one first. -/
def endedInTurn : List ClusterOp :=
  nestedPolls ++ [.cpu 0 (.writeIccEoir1El1 34), .cpu 0 (.writeIccDirEl1 34),
    .cpu 0 (.writeIccEoir1El1 33), .cpu 0 (.writeIccDirEl1 33)]

/-- Both priorities are dropped, the inner one first, before either is deactivated. -/
def dropsBeforeDeactivations : List ClusterOp :=
  nestedPolls ++ [.cpu 0 (.writeIccEoir1El1 34), .cpu 0 (.writeIccEoir1El1 33),
    .cpu 0 (.writeIccDirEl1 34), .cpu 0 (.writeIccDirEl1 33)]

def idle : Cluster := .reset 1 (fun _ => 0) fun _ => 0

theorem nested_polls_drained :
    Along (step 0) (fun t op => Disciplined 0 t op ∧ InOrder 0 0 t op) (start idle) endedInTurn ∧
    (run (step 0) (start idle) endedInTurn).unfinished = [] ∧
    ((run (step 0) (start idle) endedInTurn).cluster.cpus 0).icc.manualIrqs.depth = 0 ∧
    ((run (step 0) (start idle) endedInTurn).cluster.cpus 0).icc.priorities.runningPriority =
      0x100 := by
  have hok : Along (step 0) (fun t op => Disciplined 0 t op ∧ InOrder 0 0 t op) (start idle)
      endedInTurn := by
    decide +kernel
  have hu : (run (step 0) (start idle) endedInTurn).unfinished = [] := by decide +kernel
  have ho : (run (step 0) (start idle) endedInTurn).opened = [] := by decide +kernel
  obtain ⟨hd, hr, -⟩ := (drains 0 idle endedInTurn hok).2.2 hu ho
  exact ⟨hok, hu, hd, hr⟩

/-- The state after the run, SPI 33 being pending again. -/
def stuck : Polling :=
  run (step 0) (start idle) (dropsBeforeDeactivations ++ [.gic (.setPendingOn 0 33)])

/-- The EOIR write for 33 finds the dropped 34 on top and is ignored, the DIR write for 33
finds 33 not dropped: everything is ended, one entry stays on the stack, the running
priority stays that of SPI 33, and SPI 33 is not returned when it is pending again. -/
theorem nested_polls_stuck :
    Along (step 0) (Disciplined 0) (start idle)
      (dropsBeforeDeactivations ++ [.gic (.setPendingOn 0 33)]) ∧
    stuck.unfinished = [] ∧ stuck.opened = [] ∧
    (stuck.cluster.cpus 0).icc.manualIrqs.depth = 1 ∧
    (stuck.cluster.cpus 0).icc.priorities.runningPriority = 0xC0 ∧
    (stuck.cluster.gic.line .shared 33).pending = true ∧
    ((stuck.cluster.cpus 0).readIccIar1El1 stuck.cluster.gic).1 = 1023 := by
  decide +kernel

end Polling
end Aarchvm

import Aarchvm.Cpu.Cluster

/-!
# Priorities held on the two stacks

The running priority is raised by an acknowledge, which saves the old value in a
stack entry, and restored from that entry by the priority drop. The view keeps
the part of the CPU that takes part in this: the manual stack, the priorities
saved by interrupt frames not yet dropped, and the running priority. Each
operation is stated as its effect on the view.
-/
namespace Aarchvm

structure View where
  manual : List ManualIrq
  openIrqs : List U16
  running : U16

namespace Cpu

def view (c : Cpu) : View where
  manual := c.icc.manualIrqs.items
  openIrqs := (c.exceptions.items.filter ExceptionFrame.isOpenIrq).map ExceptionFrame.prevPrio
  running := c.icc.priorities.runningPriority

/-- The innermost exception is an interrupt whose priority is not dropped. -/
def openIrq (c : Cpu) : Option ExceptionFrame := c.exceptions.top?.filter ExceptionFrame.isOpenIrq

theorem top_of_openIrq {c : Cpu} {f : ExceptionFrame} (h : c.openIrq = some f) :
    c.exceptions.top? = some f ∧ f.isOpenIrq = true := by
  unfold openIrq at h
  exact Option.filter_eq_some_iff.1 h

theorem openIrqs_of_openIrq {c : Cpu} {f : ExceptionFrame} (h : c.openIrq = some f) :
    c.view.openIrqs =
      f.prevPrio :: (c.exceptions.pop.items.filter ExceptionFrame.isOpenIrq).map
        ExceptionFrame.prevPrio := by
  obtain ⟨ht, ho⟩ := top_of_openIrq h
  unfold view
  rw [Lib.Stack.items_eq_of_top ht, List.filter_cons, if_pos ho]
  rfl

theorem enterSyncException_view (c : Cpu) (faultPc : U64) (ec iss : U32) (farValid : Bool)
    (far : U64) : (c.enterSyncException faultPc ec iss farValid far).view = c.view := by
  by_cases h : c.exceptions.depth < kExceptionStackCapacity
  · obtain ⟨hexc, hicc, -⟩ := enterSyncException_of_room faultPc ec iss farValid far h
    unfold view
    rw [hexc, hicc]
    rfl
  · rw [enterSyncException_of_full faultPc ec iss farValid far h]
    rfl

/-- An interrupt entry saves the running priority in its frame. -/
theorem tryTakeIrq_view_of_room {c : Cpu} {g : GicV3} {intid : Nat}
    (hack : (g.acknowledge c.cpuIndex c.irqThreshold).1 = some intid)
    (h : c.exceptions.depth < kExceptionStackCapacity) :
    ∃ newPrio, (c.tryTakeIrq g).2.1.view =
      ⟨c.view.manual, c.view.running :: c.view.openIrqs, newPrio⟩ := by
  obtain ⟨newPrio, ht⟩ := tryTakeIrq_of_room hack h
  obtain ⟨hexc, hicc, -⟩ := deliverIrq_frame (c := c.acknowledged) intid newPrio h
  refine ⟨newPrio.setWidth 16, ?_⟩
  rw [ht]
  dsimp only
  rw [view, hexc, hicc]
  rfl

theorem tryTakeIrq_view_of_not_entered {c : Cpu} {g : GicV3}
    (h : (g.acknowledge c.cpuIndex c.irqThreshold).1 = none ∨
      ¬ c.exceptions.depth < kExceptionStackCapacity) :
    (c.tryTakeIrq g).2.1.view = c.view := by
  cases hack : (g.acknowledge c.cpuIndex c.irqThreshold).1 with
  | none =>
    rw [tryTakeIrq_of_none hack]
    rfl
  | some intid =>
    rcases h with hn | hfull
    · rw [hn] at hack
      cases hack
    · rw [tryTakeIrq_of_full hack hfull]
      rfl

/-- The return from an interrupt whose priority was not dropped restores it. -/
theorem eret_view_of_open {c : Cpu} {g : GicV3} {f : ExceptionFrame} (h : c.openIrq = some f) :
    (c.eret g).1.view = ⟨c.view.manual, c.view.openIrqs.tail, f.prevPrio⟩ := by
  obtain ⟨c', he, hexc, hicc, -⟩ := exists_eret_eq c g
  obtain ⟨ht, ho⟩ := top_of_openIrq h
  rw [he, openIrqs_of_openIrq h, view, popException_exceptions,
    popException_icc_of_open (hexc ▸ ht) ho, hexc, hicc]
  rfl

theorem eret_view_of_not_open {c : Cpu} {g : GicV3} (h : c.openIrq = none) :
    (c.eret g).1.view = c.view := by
  obtain ⟨c', he, hexc, hicc, -⟩ := exists_eret_eq c g
  have hno : ∀ f, c.exceptions.top? = some f → f.isOpenIrq = false := by
    intro f hf
    rw [openIrq, hf] at h
    simpa [Option.filter] using h
  rw [he, view, popException_exceptions, popException_icc_of_not_open (hexc ▸ hno), hexc, hicc]
  unfold view
  congr 1
  cases ht : c.exceptions.top? with
  | none => rw [Lib.Stack.pop_of_top_none ht]
  | some f => rw [Lib.Stack.items_eq_of_top ht, List.filter_cons, hno f ht]; rfl

/-- A polled read that acknowledges saves the running priority on the manual stack. -/
theorem readIccIar1El1_view_of_ack {c : Cpu} {g : GicV3} {intid : Nat}
    (hack : c.acknowledges g .readIccIar1El1 = some intid) :
    ∃ newPrio, (c.readIccIar1El1 g).2.1.view =
      ⟨⟨intid, c.view.running, false⟩ :: c.view.manual, c.view.openIrqs, newPrio⟩ := by
  unfold acknowledges at hack
  dsimp only at hack
  split at hack
  next h =>
    obtain ⟨hc, hr⟩ := h
    unfold readIccIar1El1 readIarPolled
    rw [hc]
    dsimp only
    rw [dif_pos hr, ← Prod.eta (g.acknowledge c.cpuIndex c.irqThreshold), hack]
    exact ⟨_, rfl⟩
  next => cases hack

theorem readIccIar1El1_view_of_no_ack {c : Cpu} {g : GicV3}
    (hack : c.acknowledges g .readIccIar1El1 = none) :
    (c.readIccIar1El1 g).2.1.view = c.view := by
  unfold readIccIar1El1 readIarPolled
  cases hc : c.currentIrq with
  | some intid => rfl
  | none =>
    dsimp only
    split
    next hr =>
      have ha : (g.acknowledge c.cpuIndex c.irqThreshold).1 = none := by
        unfold acknowledges at hack
        dsimp only at hack
        rwa [if_pos ⟨hc, hr⟩] at hack
      rw [← Prod.eta (g.acknowledge c.cpuIndex c.irqThreshold), ha]
      rfl
    next => rfl

/-- The EOIR write in an interrupt's handler restores the priority its frame saved. -/
theorem iccPriorityDrop_view_of_open {c : Cpu} {g : GicV3} {f : ExceptionFrame}
    (h : c.openIrq = some f) :
    (c.iccPriorityDrop g f.intid).1.view = ⟨c.view.manual, c.view.openIrqs.tail, f.prevPrio⟩ := by
  obtain ⟨ht, ho⟩ := top_of_openIrq h
  have hirq : f.isIrq = true := (Bool.and_eq_true_iff.1 ho).1
  have hdropped : ({ f with prioDropped := true } : ExceptionFrame).isOpenIrq = false := by
    simp [ExceptionFrame.isOpenIrq]
  rw [openIrqs_of_openIrq h]
  unfold iccPriorityDrop dropCurrentIrq
  rw [ht]
  dsimp only
  rw [if_pos ⟨hirq, rfl⟩]
  unfold view
  dsimp only
  rw [Lib.Stack.items_modifyTop, Lib.Stack.items_eq_of_top ht, List.modifyHead_cons,
    List.filter_cons, hdropped]
  rfl

theorem iccPriorityDrop_of_not_current {c : Cpu} {g : GicV3} {intid : Nat}
    (h : c.currentIrq ≠ some intid) : c.iccPriorityDrop g intid = c.dropManual g intid := by
  unfold iccPriorityDrop
  unfold currentIrq at h
  cases ht : c.exceptions.top? with
  | none => rfl
  | some f =>
    rw [ht] at h
    dsimp only at h ⊢
    rw [if_neg]
    rintro ⟨hirq, rfl⟩
    rw [if_pos hirq] at h
    exact h rfl

/-- The EOIR write for the polled interrupt on top restores the priority saved for it. -/
theorem dropManual_view_of_top {c : Cpu} {g : GicV3} {m : ManualIrq} {rest : List ManualIrq}
    (h : c.view.manual = m :: rest) :
    (c.dropManual g m.intid).1.view =
      ⟨if c.eoiMode then { m with prioDropped := true } :: rest else rest, c.view.openIrqs,
        m.prevPrio⟩ := by
  have hi : c.icc.manualIrqs.items = m :: rest := h
  have ht : c.icc.manualIrqs.top? = some m := by
    rw [Lib.Stack.top?, hi]
    rfl
  unfold dropManual
  rw [ht]
  dsimp only
  rw [if_neg (fun hne => hne rfl)]
  split
  · unfold view
    dsimp only
    rw [Lib.Stack.items_modifyTop, hi]
    rfl
  · unfold view
    dsimp only
    rw [Lib.Stack.items_pop, hi]
    rfl

/-- Any other EOIR write leaves the view alone. -/
theorem dropManual_view_of_ne {c : Cpu} {g : GicV3} {intid : Nat}
    (h : ∀ m ∈ c.view.manual, m.intid ≠ intid) : (c.dropManual g intid).1.view = c.view := by
  unfold dropManual
  cases ht : c.icc.manualIrqs.top? with
  | none => rfl
  | some m =>
    dsimp only
    rw [if_pos]
    refine h m ?_
    show m ∈ c.icc.manualIrqs.items
    rw [Lib.Stack.items_eq_of_top ht]
    exact List.mem_cons_self

/-- The DIR write for the dropped interrupt on top removes it. -/
theorem iccDeactivate_view_of_top {c : Cpu} {g : GicV3} {m : ManualIrq} {rest : List ManualIrq}
    (h : c.view.manual = m :: rest) (hd : m.prioDropped = true) :
    (c.iccDeactivate g m.intid).1.view = ⟨rest, c.view.openIrqs, c.view.running⟩ := by
  have hi : c.icc.manualIrqs.items = m :: rest := h
  have ht : c.icc.manualIrqs.top? = some m := by
    rw [Lib.Stack.top?, hi]
    rfl
  unfold iccDeactivate
  rw [ht]
  dsimp only
  rw [if_pos ⟨rfl, hd⟩]
  unfold view
  dsimp only
  rw [Lib.Stack.items_pop, hi]
  rfl

theorem iccDeactivate_view_of_ne {c : Cpu} {g : GicV3} {intid : Nat}
    (h : ∀ m ∈ c.view.manual, m.intid ≠ intid) : (c.iccDeactivate g intid).1.view = c.view := by
  unfold iccDeactivate
  cases ht : c.icc.manualIrqs.top? with
  | none => rfl
  | some m =>
    dsimp only
    rw [if_neg]
    rintro ⟨hm, -⟩
    refine h m ?_ hm
    show m ∈ c.icc.manualIrqs.items
    rw [Lib.Stack.items_eq_of_top ht]
    exact List.mem_cons_self

theorem irqWakeupReady_view (c : Cpu) (g : GicV3) : (c.irqWakeupReady g).2.1.view = c.view := by
  unfold irqWakeupReady
  split
  · split <;> rfl
  · rfl

end Cpu
end Aarchvm

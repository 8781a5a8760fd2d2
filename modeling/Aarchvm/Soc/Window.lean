import Aarchvm.Cpu.IrqQuery
import Aarchvm.Gic.Wire
import Aarchvm.Soc.Mirror

/-!
# The window of the only runnable CPU

Every event that wakes a peer sets a flag that ends the window. An interrupt does not: the GIC
epoch is watched for peers in WFI only, and there it ends a chunk, after which the loop around the
chunks opens the next one. So the window ends in time exactly when no instruction but its last
asks the controller for something that offers a waiting peer an interrupt: an SGI or a pending
bit of one that is enabled below the peer's threshold, the enable of a pending one, a lower
priority value, the end of one whose line is asserted.
-/
namespace Aarchvm

open Lib.Run

namespace Cpu

/-- What `ready_to_run` sees of the interrupts when the CPU waits. -/
def gicReady (c : Cpu) (g : GicV3) : Bool :=
  if c.waitingForInterrupt then (g.hasPending c.cpuIndex 0xFF).1 else (c.irqWakeupReady g).1

/-- The CPU waits, and not for an event that it has. -/
structure Blocked (c : Cpu) : Prop where
  waiting : c.waiting = true
  noEvent : c.waitingForInterrupt = false → c.eventRegister = false

/-- Only an interrupt makes a blocked CPU ready. -/
theorem Blocked.readyToRun {c : Cpu} (h : c.Blocked) (hh : c.halted = false) (g : GicV3) :
    (c.readyToRun g).1 = c.gicReady g := by
  have hw := h.waiting
  unfold Cpu.waiting at hw
  unfold Cpu.readyToRun gicReady
  rw [hh]
  cases hi : c.waitingForInterrupt with
  | true => simp
  | false =>
    rw [hi, Bool.false_or] at hw
    simp [hw, h.noEvent hi]

theorem Blocked.of_eq {c c' : Cpu} (h : c.Blocked)
    (hi : c'.waitingForInterrupt = c.waitingForInterrupt)
    (he : c'.waitingForEvent = c.waitingForEvent) (hr : c'.eventRegister = c.eventRegister) :
    c'.Blocked := by
  constructor
  · rw [Cpu.waiting, hi, he]
    exact h.waiting
  · rw [hi, hr]
    exact h.noEvent

/-- In WFI the event register does not matter. -/
theorem Blocked.of_wfi {c c' : Cpu} (h : c.Blocked) (he : c.waitingForEvent = false)
    (hi : c'.waitingForInterrupt = c.waitingForInterrupt) : c'.Blocked := by
  have hw := h.waiting
  rw [Cpu.waiting, he, Bool.or_false] at hw
  constructor
  · rw [Cpu.waiting, hi, hw, Bool.true_or]
  · intro hf
    rw [hi, hw] at hf
    cases hf

/-- `ready_to_run` changes only what the last interrupt query found. -/
theorem readyToRun_waits (c : Cpu) (g : GicV3) :
    (c.readyToRun g).2.1.halted = c.halted ∧
      (c.readyToRun g).2.1.waitingForInterrupt = c.waitingForInterrupt ∧
      (c.readyToRun g).2.1.waitingForEvent = c.waitingForEvent ∧
      (c.readyToRun g).2.1.eventRegister = c.eventRegister := by
  have hirq : (c.irqWakeupReady g).2.1.halted = c.halted ∧
      (c.irqWakeupReady g).2.1.waitingForInterrupt = c.waitingForInterrupt ∧
      (c.irqWakeupReady g).2.1.waitingForEvent = c.waitingForEvent ∧
      (c.irqWakeupReady g).2.1.eventRegister = c.eventRegister := by
    unfold irqWakeupReady
    split
    · split <;> exact ⟨rfl, rfl, rfl, rfl⟩
    · exact ⟨rfl, rfl, rfl, rfl⟩
  unfold readyToRun
  split_ifs
  · exact ⟨rfl, rfl, rfl, rfl⟩
  · exact ⟨rfl, rfl, rfl, rfl⟩
  · exact ⟨rfl, rfl, rfl, rfl⟩
  · exact ⟨rfl, rfl, rfl, rfl⟩
  · exact hirq

/-- A CPU that is not ready is blocked, unless it is halted. -/
theorem blocked_of_not_ready {c : Cpu} {g : GicV3} (h : (c.readyToRun g).1 = false)
    (hh : c.halted = false) : c.Blocked := by
  unfold readyToRun at h
  rw [hh, if_neg (by decide)] at h
  by_cases hw : c.waiting = true
  · refine ⟨hw, fun hi => ?_⟩
    unfold waiting at hw
    rw [hi, Bool.false_or] at hw
    cases he : c.eventRegister with
    | false => rfl
    | true => simp [hi, hw, he] at h
  · unfold waiting at hw
    rw [Bool.or_eq_true, not_or, Bool.not_eq_true, Bool.not_eq_true] at hw
    simp [hw.1, hw.2] at h

/-! ## What an interrupt needs to wake a CPU -/

/-- The threshold below which an interrupt makes the waiting CPU ready, if one can. -/
def wakePmr (c : Cpu) : Option U8 :=
  if c.waitingForInterrupt then some 0xFF
  else if c.sysregs.irqMasked || c.icc.iccIgrpen1El1 == 0 then none
  else some c.irqThreshold

/-- No interrupt is deliverable to the waiting CPU. -/
def Uninterrupted (c : Cpu) (g : GicV3) : Prop :=
  ∀ pmr ∈ c.wakePmr, g.highestPending c.cpuIndex pmr = none

theorem Uninterrupted.of_eq {c c' : Cpu} {g g' : GicV3} (h : c.Uninterrupted g)
    (hp : c'.wakePmr = c.wakePmr) (hi : c'.cpuIndex = c.cpuIndex)
    (hv : g'.pendingView = g.pendingView) : c'.Uninterrupted g' := by
  intro pmr hpmr
  rw [hp] at hpmr
  rw [hi]
  exact (congrFun (congrFun hv c.cpuIndex) pmr).trans (h pmr hpmr)

/-- With sound caches `ready_to_run` asks for nothing less than `highest_pending` finds. -/
theorem gicReady_iff {c : Cpu} {g : GicV3} (hcache : g.CacheSound) (hquery : c.QuerySound g) :
    c.gicReady g = false ↔ c.Uninterrupted g := by
  have hfound : ∀ pmr, (g.hasPending c.cpuIndex pmr).1 = false ↔
      g.highestPending c.cpuIndex pmr = none := by
    intro pmr
    rw [hcache.hasPending_fst, Option.isSome_eq_false_iff, Option.isNone_iff_eq_none]
  unfold gicReady Uninterrupted wakePmr
  by_cases hi : c.waitingForInterrupt = true
  · simp [hi, hfound]
  rw [if_neg hi, if_neg hi]
  by_cases hoff : (c.sysregs.irqMasked || c.icc.iccIgrpen1El1 == 0) = true
  · have hquiet : c.shouldTryIrq g = false := by
      unfold shouldTryIrq
      rw [if_pos hoff]
    rw [if_pos hoff]
    simp [irqWakeupReady, hquiet]
  · rw [if_neg hoff]
    have hiff : (c.irqWakeupReady g).1 = false ↔
        g.highestPending c.cpuIndex c.irqThreshold = none := by
      rw [← hfound]
      cases htry : c.shouldTryIrq g with
      | true =>
        unfold irqWakeupReady
        rw [if_pos htry]
        cases hp : g.hasPending c.cpuIndex c.irqThreshold with
        | mk found g' => cases found <;> simp
      | false =>
        -- the query is suppressed, and it would find nothing
        simp only [Bool.or_eq_true, not_or, Bool.not_eq_true] at hoff
        have hnone := hquery.suppressed htry hoff.1 (fun hz => by simp [hz] at hoff)
        simp [irqWakeupReady, htry, hfound, hnone]
    rw [hiff]
    simp

theorem readyToRun_keepsSound (c : Cpu) (g : GicV3) : KeepsSound c g (c.readyToRun g).2 := by
  obtain ⟨hview, hepoch⟩ := g.hasPending_pendingView c.cpuIndex 0xFF
  have hsame : KeepsSound c g (c, g) := .of_guarded (.refl g) rfl rfl
  unfold readyToRun
  split_ifs
  · exact hsame
  · exact hsame
  · exact ⟨.of_eq hepoch hview, fun h => h.hasPending_snd _ _,
      fun _ h => h.advance (.of_eq hepoch hview)⟩
  · exact hsame
  · exact irqWakeupReady_keepsSound

/-- `ready_to_run` changes no more than what the last queries found. -/
theorem readyToRun_interrupts (c : Cpu) (g : GicV3) :
    (c.readyToRun g).2.2.pendingView = g.pendingView ∧
      (c.readyToRun g).2.1.wakePmr = c.wakePmr ∧ (c.readyToRun g).2.1.cpuIndex = c.cpuIndex := by
  have hirq : (c.irqWakeupReady g).2.2.pendingView = g.pendingView ∧
      (c.irqWakeupReady g).2.1.wakePmr = c.wakePmr ∧
      (c.irqWakeupReady g).2.1.cpuIndex = c.cpuIndex := by
    have hview := (g.hasPending_pendingView c.cpuIndex c.irqThreshold).1
    unfold irqWakeupReady
    split
    · split
      · next g' hg =>
        rw [hg] at hview
        exact ⟨hview, rfl, rfl⟩
      · next g' hg =>
        rw [hg] at hview
        exact ⟨hview, rfl, rfl⟩
    · exact ⟨rfl, rfl, rfl⟩
  unfold readyToRun
  split_ifs
  · exact ⟨rfl, rfl, rfl⟩
  · exact ⟨rfl, rfl, rfl⟩
  · exact ⟨(g.hasPending_pendingView c.cpuIndex 0xFF).1, rfl, rfl⟩
  · exact ⟨rfl, rfl, rfl⟩
  · exact hirq

/-! ## What a peer keeps -/

/-- The CPU waits as before, for what it waited for, and remembers the same query. -/
structure SameWait (c c' : Cpu) : Prop where
  halted : c'.halted = c.halted
  waitingForInterrupt : c'.waitingForInterrupt = c.waitingForInterrupt
  sysregs : c'.sysregs = c.sysregs
  icc : c'.icc = c.icc
  cpuIndex : c'.cpuIndex = c.cpuIndex

theorem SameWait.refl (c : Cpu) : SameWait c c := ⟨rfl, rfl, rfl, rfl, rfl⟩

theorem SameWait.trans {c c' c'' : Cpu} (h : SameWait c c') (h' : SameWait c' c'') :
    SameWait c c'' :=
  ⟨h'.halted.trans h.halted, h'.waitingForInterrupt.trans h.waitingForInterrupt,
    h'.sysregs.trans h.sysregs, h'.icc.trans h.icc, h'.cpuIndex.trans h.cpuIndex⟩

theorem SameWait.wakePmr {c c' : Cpu} (h : SameWait c c') : c'.wakePmr = c.wakePmr := by
  unfold Cpu.wakePmr irqThreshold
  rw [h.waitingForInterrupt, h.sysregs, h.icc]

theorem sameWait_notifyExternalMemoryWrite (c : Cpu) (w : PhysWrite) :
    SameWait c (c.notifyExternalMemoryWrite w) := by
  rw [notifyExternalMemoryWrite]
  split
  · exact ⟨rfl, rfl, rfl, rfl, rfl⟩
  · exact .refl c

end Cpu

namespace Soc

/-- Every CPU but `i` that could run is blocked. -/
def OthersBlocked (i : Nat) (s : Soc) : Prop :=
  ∀ j < s.cpuCount, j ≠ i → s.active j = true → (s.cpus j).Blocked

theorem OthersBlocked.of_eq {i : Nat} {s s' : Soc} (h : OthersBlocked i s)
    (hn : s'.cpuCount = s.cpuCount) (hp : s'.cpuPoweredOn = s.cpuPoweredOn)
    (hc : s'.cpus = s.cpus) : OthersBlocked i s' := by
  intro j hj hne ha
  unfold active at ha
  rw [hp, hc] at ha
  rw [hc]
  exact h j (hn ▸ hj) hne ha

/-- The CPUs but `i` wait as before. -/
structure SamePeers (i : Nat) (s s' : Soc) : Prop where
  cpuCount : s'.cpuCount = s.cpuCount
  poweredOn : s'.cpuPoweredOn = s.cpuPoweredOn
  waits : ∀ j, j ≠ i → (s.cpus j).SameWait (s'.cpus j)

namespace SamePeers

variable {i : Nat} {s s' s'' : Soc}

theorem of_eq (hn : s'.cpuCount = s.cpuCount) (hp : s'.cpuPoweredOn = s.cpuPoweredOn)
    (hc : s'.cpus = s.cpus) : SamePeers i s s' :=
  ⟨hn, hp, fun j _ => hc ▸ .refl (s.cpus j)⟩

theorem refl (i : Nat) (s : Soc) : SamePeers i s s := .of_eq rfl rfl rfl

theorem trans (h : SamePeers i s s') (h' : SamePeers i s' s'') : SamePeers i s s'' :=
  ⟨h'.cpuCount.trans h.cpuCount, h'.poweredOn.trans h.poweredOn,
    fun j hne => (h.waits j hne).trans (h'.waits j hne)⟩

theorem active (h : SamePeers i s s') {j : Nat} (hne : j ≠ i) : s'.active j = s.active j := by
  unfold Soc.active
  rw [h.poweredOn, (h.waits j hne).halted]

end SamePeers

/-! ## One instruction -/

/-- A raised flag stays raised. -/
theorem perform_dirty {i : Nat} {s : Soc} {e : StepEffect}
    (h : (perform i s e).runnableStateDirty = false) : s.runnableStateDirty = false := by
  cases e with
  | sev => exact (Bool.or_eq_false_iff.1 h).1
  | memoryWrite w => exact (Bool.or_eq_false_iff.1 h).1
  | dma w => exact (Bool.or_eq_false_iff.1 h).1
  | cpuOn target entry context =>
    unfold perform at h
    dsimp only at h
    split_ifs at h
    exact h
  | timerWrite offset value size =>
    unfold perform at h
    dsimp only at h
    split at h <;> exact h
  | devices deviceIrq notifies =>
    unfold perform at h
    dsimp only at h
    split_ifs at h <;> exact h
  | own after | gic op hop | tlbi tlbs | timerRegister k r value | stop => exact h

/-- An effect that raises no flag leaves the other CPUs waiting for what they waited for. -/
theorem samePeers_perform {i : Nat} {s : Soc} (e : StepEffect)
    (hd : (perform i s e).runnableStateDirty = false) : SamePeers i s (perform i s e) := by
  cases e with
  | own after =>
    refine ⟨rfl, rfl, fun j hne => ?_⟩
    have hcpu : (perform i s (.own after)).cpus j = s.cpus j := Function.update_of_ne hne _ _
    rw [hcpu]
    exact .refl _
  | gic op hop | timerRegister k r value | stop => exact .of_eq rfl rfl rfl
  | sev => exact ⟨rfl, rfl, fun j _ => ⟨rfl, rfl, rfl, rfl, rfl⟩⟩
  | memoryWrite w =>
    refine ⟨rfl, rfl, fun j hne => ?_⟩
    have hcpu : (perform i s (.memoryWrite w)).cpus j = (s.cpus j).notifyExternalMemoryWrite w :=
      if_neg hne
    rw [hcpu]
    exact Cpu.sameWait_notifyExternalMemoryWrite _ w
  | dma w => exact ⟨rfl, rfl, fun j _ => Cpu.sameWait_notifyExternalMemoryWrite _ w⟩
  | tlbi tlbs => exact ⟨rfl, rfl, fun j _ => ⟨rfl, rfl, rfl, rfl, rfl⟩⟩
  | cpuOn target entry context =>
    unfold perform at hd ⊢
    dsimp only at hd ⊢
    split_ifs at hd ⊢
    exact .refl i s
  | timerWrite offset value size =>
    unfold perform
    dsimp only
    split <;> exact .of_eq rfl rfl rfl
  | devices deviceIrq notifies =>
    unfold perform
    dsimp only
    split_ifs <;> exact .of_eq rfl rfl rfl

theorem not_waitingForEvent {s : Soc} {except : Option Nat} {j : Nat}
    (h : s.anyWaitingForEvent except = false) (hj : j < s.cpuCount) (hne : except ≠ some j) :
    (s.cpus j).waitingForEvent = false := by
  unfold anyWaitingForEvent at h
  rw [List.any_eq_false] at h
  have hj' := h j (List.mem_range.2 hj)
  rw [Bool.and_eq_true, not_and, bne_iff_ne] at hj'
  exact Bool.not_eq_true _ ▸ hj' (fun he => hne he.symm)

/-- An effect that raises no flag leaves the other CPUs blocked. -/
theorem othersBlocked_perform {i : Nat} {s : Soc} (e : StepEffect) (h : OthersBlocked i s)
    (hd : (perform i s e).runnableStateDirty = false) : OthersBlocked i (perform i s e) := by
  have hsame := samePeers_perform e hd
  intro j hj hne ha
  rw [hsame.cpuCount] at hj
  rw [hsame.active hne] at ha
  have hblocked := h j hj hne ha
  have hwaits := (hsame.waits j hne).waitingForInterrupt
  cases e with
  | own after =>
    have hcpu : (perform i s (.own after)).cpus j = s.cpus j := Function.update_of_ne hne _ _
    rw [hcpu]
    exact hblocked
  | gic op hop | timerRegister k r value | stop => exact hblocked
  | sev =>
    exact hblocked.of_wfi (not_waitingForEvent (Bool.or_eq_false_iff.1 hd).2 hj (by simp)) hwaits
  | memoryWrite w =>
    have hexcept : (some i : Option Nat) ≠ some j := by simpa using hne.symm
    exact hblocked.of_wfi (not_waitingForEvent (Bool.or_eq_false_iff.1 hd).2 hj hexcept) hwaits
  | dma w =>
    exact hblocked.of_wfi (not_waitingForEvent (Bool.or_eq_false_iff.1 hd).2 hj (by simp)) hwaits
  | tlbi tlbs => exact hblocked.of_eq rfl rfl rfl
  | cpuOn target entry context =>
    unfold perform at hd ⊢
    dsimp only at hd ⊢
    split_ifs at hd ⊢
    exact hblocked
  | timerWrite offset value size =>
    unfold perform
    dsimp only
    split <;> exact hblocked
  | devices deviceIrq notifies =>
    unfold perform
    dsimp only
    split_ifs <;> exact hblocked

/-! ### What an instruction asks of the controller -/

/-- What an effect asks of the controller, in order. -/
def gicOps (i : Nat) (s : Soc) : StepEffect → List GicOp
  | .gic op _ => [op]
  | .timerRegister k r value =>
    let timer := s.timer.writeRegister k r i s.guestTimeTicks value
    [.setLevelOn i ChannelKind.cntv.intid (timer.lineLevel .cntv i),
      .setLevelOn i ChannelKind.cntp.intid (timer.lineLevel .cntp i)]
  | _ => []

theorem perform_gic (i : Nat) (s : Soc) (e : StepEffect) :
    (perform i s e).gic = Lib.Run.run GicV3.step s.gic (gicOps i s e) := by
  cases e with
  | cpuOn target entry context =>
    unfold perform
    dsimp only
    split_ifs <;> rfl
  | timerWrite offset value size =>
    unfold perform
    dsimp only
    split <;> rfl
  | devices deviceIrq notifies =>
    unfold perform
    dsimp only
    split_ifs <;> rfl
  | _ => rfl

def effectGicOps (i : Nat) : Soc → List StepEffect → List GicOp
  | _, [] => []
  | s, e :: es => gicOps i s e ++ effectGicOps i (perform i s e) es

/-- What one instruction of CPU `i` asks of the controller, in order. -/
def insnGicOps (s : Soc) (i : Nat) (insn : Insn) : List GicOp :=
  if (s.cpus i).halted then [] else effectGicOps i s insn.effects

/-! ### What it keeps -/

/-- The other CPUs are blocked, and what they and the controller remember of queries is right. -/
structure Watched (i : Nat) (s : Soc) : Prop where
  blocked : OthersBlocked i s
  cache : s.gic.CacheSound
  query : ∀ j, j ≠ i → (s.cpus j).QuerySound s.gic

theorem cacheSound_run {g : GicV3} (h : g.CacheSound) (ops : List GicOp) :
    (Lib.Run.run GicV3.step g ops).CacheSound :=
  run_invariant (fun _ op hg => hg.step op) ops h

theorem querySound_run {c : Cpu} {g : GicV3} (h : c.QuerySound g) (ops : List GicOp) :
    c.QuerySound (Lib.Run.run GicV3.step g ops) :=
  run_invariant (fun g op hg => hg.advance (g.step_advances op)) ops h

/-- What an instruction that raises no flag does to the others and to the controller. -/
structure Quietly (i : Nat) (s s' : Soc) (ops : List GicOp) : Prop where
  watched : Watched i s → Watched i s'
  peers : SamePeers i s s'
  gic : s'.gic = Lib.Run.run GicV3.step s.gic ops

theorem Quietly.refl (i : Nat) (s : Soc) : Quietly i s s [] := ⟨id, .refl i s, rfl⟩

theorem Quietly.trans {i : Nat} {s s' s'' : Soc} {ops ops' : List GicOp} (h : Quietly i s s' ops)
    (h' : Quietly i s' s'' ops') : Quietly i s s'' (ops ++ ops') :=
  ⟨h'.watched ∘ h.watched, h.peers.trans h'.peers, by rw [h'.gic, h.gic, run_append]⟩

theorem quietly_perform {i : Nat} {s : Soc} (e : StepEffect)
    (hd : (perform i s e).runnableStateDirty = false) :
    Quietly i s (perform i s e) (gicOps i s e) := by
  have hpeers := samePeers_perform e hd
  refine ⟨fun h => ⟨othersBlocked_perform e h.blocked hd, ?_, fun j hne => ?_⟩, hpeers,
    perform_gic i s e⟩
  · rw [perform_gic]
    exact cacheSound_run h.cache _
  · have hwait := hpeers.waits j hne
    rw [perform_gic]
    exact (querySound_run (h.query j hne) _).of_same (congrArg Icc.irqQuery hwait.icc)
      hwait.cpuIndex

theorem foldl_perform_dirty {i : Nat} {s : Soc} {es : List StepEffect}
    (h : (es.foldl (perform i) s).runnableStateDirty = false) : s.runnableStateDirty = false := by
  induction es generalizing s with
  | nil => exact h
  | cons e es ih => exact perform_dirty (ih h)

theorem quietly_foldl {i : Nat} {s : Soc} (es : List StepEffect)
    (hd : (es.foldl (perform i) s).runnableStateDirty = false) :
    Quietly i s (es.foldl (perform i) s) (effectGicOps i s es) := by
  induction es generalizing s with
  | nil => exact .refl i s
  | cons e es ih => exact (quietly_perform e (foldl_perform_dirty hd)).trans (ih hd)

theorem quietly_advance (i : Nat) (s : Soc) (n m : Nat) :
    Quietly i s (s.advanceGuestTime n m) [] := by
  unfold advanceGuestTime
  split_ifs
  · exact .refl i s
  · exact ⟨fun h => ⟨h.blocked.of_eq rfl rfl rfl, h.cache, h.query⟩, .of_eq rfl rfl rfl, rfl⟩

theorem advanceGuestTime_dirty (s : Soc) (n m : Nat) :
    (s.advanceGuestTime n m).runnableStateDirty = s.runnableStateDirty := by
  unfold advanceGuestTime
  split_ifs <;> rfl

end Soc

namespace RunState

open Soc

theorem quietly_stepTick {i : Nat} (x : RunState) (inp : Inputs)
    (hd : (x.stepTick inp i).2.soc.runnableStateDirty = false) :
    Quietly i x.soc (x.stepTick inp i).2.soc (x.soc.insnGicOps i (inp.insns x.steps)) := by
  have hd' : (x.soc.stepCpu i (inp.insns x.steps)).2.runnableStateDirty = false :=
    (advanceGuestTime_dirty _ 1 1).symm.trans hd
  have hinsn : Quietly i x.soc (x.soc.stepCpu i (inp.insns x.steps)).2
      (x.soc.insnGicOps i (inp.insns x.steps)) := by
    unfold Soc.stepCpu at hd' ⊢
    unfold insnGicOps
    split_ifs at hd' ⊢
    · exact .refl i x.soc
    · exact quietly_foldl _ hd'
  have htick := hinsn.trans (quietly_advance i _ 1 1)
  rwa [List.append_nil] at htick

/-! ## The window -/

/-- The machine after `k` instructions of CPU `i`, each with its tick. -/
def ticks (inp : Inputs) (i k : Nat) (x : RunState) : RunState :=
  (fun x => (x.stepTick inp i).2)^[k] x

theorem ticks_succ (inp : Inputs) (i k : Nat) (x : RunState) :
    x.ticks inp i (k + 1) = ((x.ticks inp i k).stepTick inp i).2 :=
  Function.iterate_succ_apply' _ k x

theorem ticks_succ' (inp : Inputs) (i k : Nat) (x : RunState) :
    x.ticks inp i (k + 1) = (x.stepTick inp i).2.ticks inp i k :=
  Function.iterate_succ_apply _ k x

theorem ticks_add (inp : Inputs) (i m n : Nat) (x : RunState) :
    x.ticks inp i (m + n) = (x.ticks inp i m).ticks inp i n := by
  rw [ticks, ticks, ticks, Nat.add_comm, Function.iterate_add_apply]

theorem ticks_steps (inp : Inputs) (i k : Nat) (x : RunState) :
    (x.ticks inp i k).steps = x.steps + k := by
  induction k with
  | zero => rfl
  | succ k ih =>
    rw [ticks_succ, ← Nat.add_assoc, ← ih]
    rfl

/-- A piece of the window executes one instruction after another, and before none but the first
is a flag raised. -/
structure Executes (inp : Inputs) (i : Nat) (x : RunState) (starts : List Soc) : Prop where
  states : starts = (List.range starts.length).map fun k => (x.ticks inp i k).soc
  quiet : ∀ k, k + 1 < starts.length → (x.ticks inp i (k + 1)).soc.runnableStateDirty = false

namespace Executes

variable {inp : Inputs} {i : Nat} {x : RunState}

theorem nil (inp : Inputs) (i : Nat) (x : RunState) : Executes inp i x [] :=
  ⟨rfl, fun k hk => absurd hk (by simp)⟩

theorem one (inp : Inputs) (i : Nat) (x : RunState) : Executes inp i x [x.soc] :=
  ⟨rfl, fun k hk => absurd hk (by simp)⟩

theorem append {starts rest : List Soc} (h : Executes inp i x starts)
    (hrest : Executes inp i (x.ticks inp i starts.length) rest)
    (hd : (x.ticks inp i starts.length).soc.runnableStateDirty = false) :
    Executes inp i x (starts ++ rest) where
  states := by
    have hmap : rest = (List.range rest.length).map fun k =>
        (x.ticks inp i (starts.length + k)).soc := by
      simp only [ticks_add]
      exact hrest.states
    rw [List.length_append, List.range_add, List.map_append, List.map_map, ← h.states]
    exact congrArg (starts ++ ·) hmap
  quiet := by
    intro k hk
    rw [List.length_append] at hk
    rcases Nat.lt_trichotomy (k + 1) starts.length with hlt | heq | hgt
    · exact h.quiet k hlt
    · rw [heq]
      exact hd
    · obtain ⟨m, hm⟩ : ∃ m, k + 1 = starts.length + (m + 1) := ⟨k - starts.length, by omega⟩
      rw [hm, ticks_add]
      exact hrest.quiet m (by omega)

end Executes

/-- A chunk leaves the state after its instructions. -/
structure ExecutesChunk (inp : Inputs) (i : Nat) (x : RunState) (c : Chunk) : Prop where
  executes : Executes inp i x c.starts
  run : c.run = x.ticks inp i c.starts.length

theorem executes_soleChunk (inp : Inputs) (i : Nat) (waitingIrqPeer : Bool) (gicEpochBefore n : Nat)
    (x : RunState) : ExecutesChunk inp i x (soleChunk inp i waitingIrqPeer gicEpochBefore n x) := by
  induction n generalizing x with
  | zero => exact ⟨.nil inp i x, rfl⟩
  | succ n ih =>
    have hone : ∀ e, ExecutesChunk inp i x ⟨[x.soc], (x.stepTick inp i).2, e⟩ :=
      fun _ => ⟨.one inp i x, rfl⟩
    unfold soleChunk
    dsimp only
    split_ifs with _ _ _ hflag
    · exact hone _
    · exact hone _
    · exact hone _
    · exact hone _
    · exact hone _
    · -- no flag: the rest of the chunk goes on after the first instruction
      have hdirty : (x.stepTick inp i).2.soc.runnableStateDirty = false := by
        unfold flagged at hflag
        simp only [Bool.or_eq_true, not_or, Bool.not_eq_true] at hflag
        exact hflag.1.2
      have hrest := ih (x.stepTick inp i).2
      refine ⟨(Executes.one inp i x).append hrest.executes hdirty, ?_⟩
      rw [hrest.run, List.length_cons, ticks_succ']

/-- The flag is lowered where a chunk starts. -/
def lowered (x : RunState) : RunState := x.setSoc { x.soc with runnableStateDirty := false }

theorem lowered_of_not_dirty {x : RunState} (h : x.soc.runnableStateDirty = false) :
    x.lowered = x := by
  obtain ⟨soc, steps, polls, remaining⟩ := x
  dsimp only at h
  rw [lowered, setSoc, ← h]

theorem executes_windowLoop {inp : Inputs} {i : Nat} {chunk : Nat → RunState → Chunk}
    {done : Soc → Bool} (hchunk : ∀ n x, ExecutesChunk inp i x.lowered (chunk n x))
    (hdone : ∀ s, done s = false → s.runnableStateDirty = false) (fuel window : Nat)
    (x : RunState) : Executes inp i x.lowered (windowLoop chunk done fuel window x).starts := by
  induction fuel generalizing window x with
  | zero => exact .nil inp i _
  | succ fuel ih =>
    have hc := hchunk window x
    unfold windowLoop
    dsimp only
    split_ifs with _ hd
    · exact .nil inp i _
    · split <;> exact hc.executes
    · split
      · exact hc.executes
      · have hdirty : (chunk window x).run.soc.runnableStateDirty = false := by
          rw [Bool.or_eq_true, not_or, Bool.not_eq_true] at hd
          exact hdone _ hd.1
        have hrest := ih (window - (chunk window x).starts.length) (chunk window x).run
        rw [lowered_of_not_dirty hdirty] at hrest
        refine hc.executes.append ?_ ?_
        · rw [← hc.run]
          exact hrest
        · rw [← hc.run]
          exact hdirty

theorem executes_soleWindow (inp : Inputs) (i window : Nat) (x : RunState) :
    Executes inp i x.lowered (soleWindow inp i window x).starts := by
  refine executes_windowLoop (fun n x => ?_) (fun s hs => ?_) window window x
  · exact executes_soleChunk inp i _ _ n x.lowered
  · unfold flagged at hs
    simp only [Bool.or_eq_false_iff] at hs
    exact hs.1.1.2

end RunState

/-! ## Dispatch -/

/-- The CPU waits, and neither an event nor an interrupt makes it ready. -/
structure Cpu.Asleep (c : Cpu) (g : GicV3) : Prop where
  blocked : c.Blocked
  uninterrupted : c.Uninterrupted g

namespace Soc

/-- What the CPUs and the controller remember of queries is right. -/
def QueriesSound (s : Soc) : Prop := Cluster.QueriesSound ⟨s.cpus, s.gic⟩

/-- What `inspect_cpu_dispatch_state` has found among the CPUs `is`: the runnable ones, and all
others asleep. -/
structure Inspected (is : List Nat) (s₀ : Soc) (d : CpuDispatchState × Soc) (runnable : List Nat) :
    Prop where
  count : d.1.runnableCpuCount = runnable.length
  first : d.1.firstRunnableCpu = runnable.head?
  asleep : ∀ j ∈ is, j ∉ runnable → d.2.active j = true → (d.2.cpus j).Asleep d.2.gic
  cpuCount : d.2.cpuCount = s₀.cpuCount
  sound : d.2.QueriesSound

theorem readyToRun_asleep {s : Soc} {i j : Nat}
    (h : s.active j = true → (s.cpus j).Asleep s.gic) :
    (s.readyToRun i).2.active j = true →
      ((s.readyToRun i).2.cpus j).Asleep (s.readyToRun i).2.gic := by
  intro ha
  obtain ⟨hview, hpmr, hidx⟩ := (s.cpus i).readyToRun_interrupts s.gic
  by_cases hij : j = i
  · subst hij
    have hcpu : (s.readyToRun j).2.cpus j = ((s.cpus j).readyToRun s.gic).2.1 :=
      Function.update_self _ _ _
    obtain ⟨hh, hi, he, hr⟩ := (s.cpus j).readyToRun_waits s.gic
    unfold active at ha
    rw [hcpu, hh] at ha
    rw [hcpu]
    exact ⟨(h ha).blocked.of_eq hi he hr, (h ha).uninterrupted.of_eq hpmr hidx hview⟩
  · have hcpu : (s.readyToRun i).2.cpus j = s.cpus j := Function.update_of_ne hij _ _
    unfold active at ha
    rw [hcpu] at ha
    rw [hcpu]
    exact ⟨(h ha).blocked, (h ha).uninterrupted.of_eq rfl rfl hview⟩

theorem readyToRun_sound {s : Soc} (h : s.QueriesSound) (i : Nat) :
    (s.readyToRun i).2.QueriesSound := by
  have hkeeps := (s.cpus i).readyToRun_keepsSound s.gic
  refine ⟨hkeeps.cache h.cache, fun j => ?_⟩
  by_cases hij : j = i
  · subst hij
    have hcpu : (s.readyToRun j).2.cpus j = ((s.cpus j).readyToRun s.gic).2.1 :=
      Function.update_self _ _ _
    dsimp only
    rw [hcpu]
    exact hkeeps.query h.cache (h.query j)
  · have hcpu : (s.readyToRun i).2.cpus j = s.cpus j := Function.update_of_ne hij _ _
    dsimp only
    rw [hcpu]
    exact (h.query j).advance hkeeps.advances

theorem inspected_step {is : List Nat} {s₀ : Soc} {d : CpuDispatchState × Soc} {runnable : List Nat}
    (h : Inspected is s₀ d runnable) (i : Nat) :
    ∃ runnable', Inspected (is ++ [i]) s₀ (inspectCpu d i) runnable' := by
  unfold inspectCpu
  by_cases hp : d.2.cpuPoweredOn i = true
  · by_cases hh : (d.2.cpus i).halted = true
    · rw [if_neg (by simp [hp]), if_pos hh]
      refine ⟨runnable, h.count, h.first, fun j hj hn ha => ?_, h.cpuCount, h.sound⟩
      rcases List.mem_append.1 hj with hj | hj
      · exact h.asleep j hj hn ha
      · rw [List.mem_singleton.1 hj] at ha
        simp [active, hh] at ha
    · rw [if_neg (by simp [hp]), if_neg hh]
      have hkeep : ∀ j ∈ is, j ∉ runnable → (d.2.readyToRun i).2.active j = true →
          ((d.2.readyToRun i).2.cpus j).Asleep (d.2.readyToRun i).2.gic :=
        fun j hj hn => readyToRun_asleep (h.asleep j hj hn)
      have hsound := readyToRun_sound h.sound i
      cases hr : (d.2.readyToRun i).1 with
      | true =>
        refine ⟨runnable ++ [i], ?_, ?_, fun j hj hn ha => ?_, h.cpuCount, hsound⟩
        · simp [hr, h.count]
        · simp [hr, h.first, List.head?_append]
        · rw [List.mem_append, not_or] at hn
          rcases List.mem_append.1 hj with hj | hj
          · exact hkeep j hj hn.1 ha
          · exact absurd hj hn.2
      | false =>
        refine ⟨runnable, ?_, ?_, fun j hj hn ha => ?_, h.cpuCount, hsound⟩
        · simp [hr, h.count]
        · simp [hr, h.first]
        · rcases List.mem_append.1 hj with hj | hj
          · exact hkeep j hj hn ha
          · rw [List.mem_singleton.1 hj] at ha ⊢
            rw [Bool.not_eq_true] at hh
            have hblocked := Cpu.blocked_of_not_ready hr hh
            have hasleep : (d.2.cpus i).Asleep d.2.gic := by
              refine ⟨hblocked, (Cpu.gicReady_iff h.sound.cache (h.sound.query i)).1 ?_⟩
              rw [← hblocked.readyToRun hh]
              exact hr
            exact readyToRun_asleep (fun _ => hasleep) ha
  · rw [Bool.not_eq_true] at hp
    rw [if_pos (by simp [hp])]
    refine ⟨runnable, h.count, h.first, fun j hj hn ha => ?_, h.cpuCount, h.sound⟩
    rcases List.mem_append.1 hj with hj | hj
    · exact h.asleep j hj hn ha
    · rw [List.mem_singleton.1 hj] at ha
      simp [active, hp] at ha

theorem inspected_foldl {done is : List Nat} {s₀ : Soc} {d : CpuDispatchState × Soc}
    {runnable : List Nat} (h : Inspected done s₀ d runnable) :
    ∃ runnable', Inspected (done ++ is) s₀ (is.foldl inspectCpu d) runnable' := by
  induction is generalizing done d runnable with
  | nil => exact ⟨runnable, by rwa [List.append_nil]⟩
  | cons i is ih =>
    obtain ⟨runnable₁, h₁⟩ := inspected_step h i
    obtain ⟨runnable₂, h₂⟩ := ih h₁
    refine ⟨runnable₂, ?_⟩
    rwa [List.append_assoc, List.singleton_append] at h₂

/-- Every CPU but `i` that could run is asleep, and what is remembered of queries is right. -/
structure OthersAsleep (i : Nat) (s : Soc) : Prop where
  asleep : ∀ j < s.cpuCount, j ≠ i → s.active j = true → (s.cpus j).Asleep s.gic
  cache : s.gic.CacheSound
  query : ∀ j, j ≠ i → (s.cpus j).QuerySound s.gic

theorem OthersAsleep.of_eq {i : Nat} {s s' : Soc} (h : OthersAsleep i s)
    (hn : s'.cpuCount = s.cpuCount) (hp : s'.cpuPoweredOn = s.cpuPoweredOn)
    (hc : s'.cpus = s.cpus) (hg : s'.gic = s.gic) : OthersAsleep i s' := by
  refine ⟨fun j hj hne ha => ?_, hg ▸ h.cache, fun j hne => ?_⟩
  · unfold active at ha
    rw [hp, hc] at ha
    rw [hc, hg]
    exact h.asleep j (hn ▸ hj) hne ha
  · rw [hc, hg]
    exact h.query j hne

theorem OthersAsleep.watched {i : Nat} {s : Soc} (h : OthersAsleep i s) : Watched i s :=
  ⟨fun j hj hne ha => (h.asleep j hj hne ha).blocked, h.cache, h.query⟩

/-- When the dispatcher finds one runnable CPU, all others are asleep. -/
theorem othersAsleep_dispatch {s : Soc} {i : Nat} (hsound : s.QueriesSound)
    (hcount : s.inspectCpuDispatchState.1.runnableCpuCount = 1)
    (hfirst : s.inspectCpuDispatchState.1.firstRunnableCpu = some i) :
    OthersAsleep i s.inspectCpuDispatchState.2 := by
  have hstart : Inspected [] s (⟨false, true, none, 0, 0⟩, s) [] :=
    ⟨rfl, rfl, fun j hj => absurd hj List.not_mem_nil, rfl, hsound⟩
  obtain ⟨runnable, h⟩ := @inspected_foldl [] (List.range s.cpuCount) _ _ _ hstart
  have hone : runnable = [i] := by
    have hlen : 1 = runnable.length := hcount.symm.trans h.count
    have hhead : some i = runnable.head? := hfirst.symm.trans h.first
    obtain ⟨j, rfl⟩ := List.length_eq_one_iff.1 hlen.symm
    rw [Option.some.inj hhead]
  refine ⟨fun j hj hne ha => h.asleep j ?_ ?_ ha, h.sound.cache, fun j _ => h.sound.query j⟩
  · rw [List.nil_append, List.mem_range]
    exact h.cpuCount ▸ hj
  · rw [hone, List.mem_singleton]
    exact hne

/-! ### Reachable machines -/

/-- The CPUs that an operation brings in, by an instruction's own changes, a poll of the network or
a snapshot, have noted no query that would find something, nor has the controller of a
snapshot. -/
def BringsSound (s : Soc) : SocOp → Prop
  | .effect _ (.own after) => after.QuerySound s.gic
  | .loadSnapshot c => Cluster.QueriesSound ⟨c.cpus, c.gic⟩
  | .syncDevices (some poll) _ => ∀ j, (poll.cpus j).QuerySound s.gic
  | _ => True

theorem queriesSound_of_gicOps {s s' : Soc} (h : s.QueriesSound) (ops : List GicOp)
    (hg : s'.gic = Lib.Run.run GicV3.step s.gic ops)
    (hq : ∀ j, (s'.cpus j).icc.irqQuery = (s.cpus j).icc.irqQuery)
    (hi : ∀ j, (s'.cpus j).cpuIndex = (s.cpus j).cpuIndex) : s'.QueriesSound := by
  refine ⟨?_, fun j => ?_⟩
  · dsimp only
    rw [hg]
    exact cacheSound_run h.cache ops
  · dsimp only
    rw [hg]
    exact (querySound_run (h.query j) ops).of_same (hq j) (hi j)

theorem queriesSound_of_eq {s s' : Soc} (h : s.QueriesSound) (hc : s'.cpus = s.cpus)
    (hg : s'.gic = s.gic) : s'.QueriesSound := by
  unfold QueriesSound
  rw [hc, hg]
  exact h

theorem queriesSound_perform {s : Soc} (h : s.QueriesSound) (i : Nat) {e : StepEffect}
    (he : s.BringsSound (.effect i e)) : (perform i s e).QueriesSound := by
  have hnotified : ∀ (c : Cpu) (w : PhysWrite),
      (c.notifyExternalMemoryWrite w).icc.irqQuery = c.icc.irqQuery ∧
        (c.notifyExternalMemoryWrite w).cpuIndex = c.cpuIndex := by
    intro c w
    have hwait := c.sameWait_notifyExternalMemoryWrite w
    exact ⟨congrArg Icc.irqQuery hwait.icc, hwait.cpuIndex⟩
  cases e with
  | own after =>
    refine ⟨h.cache, fun j => ?_⟩
    by_cases hj : j = i
    · subst hj
      simp only [perform, Function.update_self]
      exact he
    · simp only [perform, Function.update_of_ne hj]
      exact h.query j
  | memoryWrite w =>
    refine queriesSound_of_gicOps h _ (perform_gic i s _) (fun j => ?_) fun j => ?_
    · simp only [perform]
      split
      · rfl
      · exact (hnotified ..).1
    · simp only [perform]
      split
      · rfl
      · exact (hnotified ..).2
  | dma w =>
    exact queriesSound_of_gicOps h _ (perform_gic i s _) (fun _ => (hnotified ..).1)
      fun _ => (hnotified ..).2
  | cpuOn target entry context =>
    unfold perform
    dsimp only
    split
    · exact h
    · -- the target starts with no query noted
      refine ⟨h.cache, fun j => ?_⟩
      by_cases hj : j = target
      · subst hj
        simp only [Function.update_self]
        exact Cpu.querySound_of_invalid rfl
      · simp only [Function.update_of_ne hj]
        exact h.query j
  | timerWrite offset value size =>
    unfold perform
    dsimp only
    split <;> exact h
  | devices deviceIrq notifies =>
    unfold perform
    dsimp only
    split <;> exact h
  | _ => exact queriesSound_of_gicOps h _ (perform_gic i s _) (fun _ => rfl) fun _ => rfl

theorem queriesSound_syncLines {s : Soc} (h : s.QueriesSound) : s.syncLines.QueriesSound := by
  have htimer : ∀ (s : Soc) (k : ChannelKind) (cpu : Nat), s.QueriesSound →
      (s.syncTimerLine k cpu).QueriesSound := by
    intro s k cpu h
    unfold syncTimerLine
    dsimp only
    split
    · exact queriesSound_of_gicOps h [.setLevelOn cpu k.intid _] rfl (fun _ => rfl) fun _ => rfl
    · exact h
  have hdevice : ∀ (s : Soc) (d : DeviceLine), s.QueriesSound →
      (s.syncDeviceLine d).QueriesSound := by
    intro s d h
    unfold syncDeviceLine
    dsimp only
    split
    · exact queriesSound_of_gicOps h [.setLevelOn 0 d.intid _] rfl (fun _ => rfl) fun _ => rfl
    · exact h
  have hcpu : ∀ (s : Soc) (cpu : Nat), s.QueriesSound →
      ((s.syncTimerLine .cntv cpu).syncTimerLine .cntp cpu).QueriesSound :=
    fun s cpu h => htimer _ .cntp cpu (htimer s .cntv cpu h)
  exact run_invariant hdevice [DeviceLine.uart, .kmi, .virtioBlk, .virtioNet]
    (run_invariant hcpu (List.range s.cpuCount) h)

theorem queriesSound_socStep {s : Soc} (h : s.QueriesSound) {op : SocOp}
    (hop : s.BringsSound op) : (s.socStep op).QueriesSound := by
  cases op with
  | effect i e => exact queriesSound_perform h i hop
  | injectUartRx uartIrq =>
    cases uartIrq with
    | false => exact h
    | true =>
      exact queriesSound_of_gicOps h [.setPendingOn 0 DeviceLine.uart.intid] rfl
        (fun _ => rfl) fun _ => rfl
  | loadSnapshot c =>
    unfold socStep
    dsimp only
    split
    · exact hop
    · exact h
  | advanceGuestTime executed active =>
    refine queriesSound_of_eq h ?_ ?_ <;> unfold socStep advanceGuestTime <;> dsimp only <;>
      split_ifs <;> rfl
  | queryDeviceEvent guestTick =>
    refine queriesSound_of_eq h ?_ ?_ <;> unfold socStep queryDeviceEvent <;> dsimp only <;>
      split_ifs <;> rfl
  | readyToRun i => exact readyToRun_sound h i
  | syncDevices poll shown =>
    have hpolled : (s.pollNetwork poll).QueriesSound := by
      cases poll with
      | none => exact h
      | some p => exact ⟨h.cache, hop⟩
    have hlines := @queriesSound_syncLines { s.pollNetwork poll with
      timer := (s.pollNetwork poll).timer.syncToSteps s.guestTimeTicks
      deviceSyncGuestTicks := s.guestTimeTicks } hpolled
    cases shown <;> exact hlines
  | forwardTo event =>
    refine queriesSound_of_eq h ?_ ?_ <;> unfold socStep advanceGuestTimeTo <;>
      dsimp only <;> split_ifs <;> rfl
  | injectPs2Rx kmiIrq => exact h
  | resetPerfMeasurementState => exact h

/-- From reset, through everything that happens, what is remembered of queries is right. -/
theorem queriesSound_run (cpuCount : Nat) (allStart : Bool) (entryPc timerTickScale : U64)
    (mode : SchedulerMode) {ops : List SocOp}
    (h : Along socStep BringsSound (reset cpuCount allStart entryPc timerTickScale mode) ops) :
    (Lib.Run.run socStep (reset cpuCount allStart entryPc timerTickScale mode)
      ops).QueriesSound :=
  h.invariant (fun _ _ hs hop => queriesSound_socStep hs hop)
    ⟨GicV3.reset_cacheSound cpuCount, fun _ => Cpu.querySound_of_invalid rfl⟩

/-! ## The end of the window -/

/-- Before each further instruction of the window no other CPU is ready: the window has ended by
the first instruction after which one is. -/
def EndsInTime (i : Nat) (starts : List Soc) : Prop :=
  ∀ s ∈ starts.tail, ∀ j < s.cpuCount, j ≠ i → s.active j = true → (s.readyToRun j).1 = false

instance (i : Nat) (starts : List Soc) : Decidable (EndsInTime i starts) :=
  inferInstanceAs (Decidable (∀ s ∈ starts.tail, ∀ j < s.cpuCount, j ≠ i → s.active j = true →
    (s.readyToRun j).1 = false))

/-- No interrupt is deliverable to a CPU that waits. -/
def Undisturbed (i : Nat) (s : Soc) : Prop :=
  ∀ j < s.cpuCount, j ≠ i → s.active j = true → (s.cpus j).Uninterrupted s.gic

theorem readyToRun_iff {i : Nat} {s : Soc} (h : Watched i s) {j : Nat} (hj : j < s.cpuCount)
    (hne : j ≠ i) (ha : s.active j = true) :
    (s.readyToRun j).1 = false ↔ (s.cpus j).Uninterrupted s.gic := by
  have hblocked := h.blocked j hj hne ha
  unfold active at ha
  rw [Bool.and_eq_true, Bool.not_eq_true'] at ha
  rw [← Cpu.gicReady_iff h.cache (h.query j hne), ← hblocked.readyToRun ha.2]
  rfl

/-- The operations offer no interrupt to a CPU that waits. -/
def OffersNothing (i : Nat) (s : Soc) (g : GicV3) (ops : List GicOp) : Prop :=
  ∀ j < s.cpuCount, j ≠ i → s.active j = true → ∀ pmr ∈ (s.cpus j).wakePmr,
    ¬ g.Offers ops (s.cpus j).cpuIndex pmr

instance (i : Nat) (s : Soc) (g : GicV3) (ops : List GicOp) : Decidable (OffersNothing i s g ops) :=
  inferInstanceAs (Decidable (∀ j < s.cpuCount, j ≠ i → s.active j = true →
    ∀ pmr ∈ (s.cpus j).wakePmr, ¬ g.Offers ops (s.cpus j).cpuIndex pmr))

/-- One instruction disturbs exactly the CPUs that it offers an interrupt. -/
theorem undisturbed_iff {i : Nat} {s₀ s s' : Soc} {ops : List GicOp} (hpeers : SamePeers i s₀ s)
    (h : Undisturbed i s) (hquiet : Quietly i s s' ops) :
    Undisturbed i s' ↔ OffersNothing i s₀ s.gic ops := by
  have hpeers' := hpeers.trans hquiet.peers
  have hiff : ∀ j < s₀.cpuCount, j ≠ i → s₀.active j = true →
      ((s'.cpus j).Uninterrupted s'.gic ↔ ∀ pmr ∈ (s₀.cpus j).wakePmr,
        ¬ s.gic.Offers ops (s₀.cpus j).cpuIndex pmr) := by
    intro j hj hne ha
    have hbefore := h j (hpeers.cpuCount ▸ hj) hne ((hpeers.active hne).trans ha)
    have hw := hpeers.waits j hne
    have hw' := hpeers'.waits j hne
    unfold Cpu.Uninterrupted at hbefore ⊢
    rw [hw.wakePmr, hw.cpuIndex] at hbefore
    rw [hw'.wakePmr, hw'.cpuIndex, hquiet.gic]
    exact forall₂_congr fun pmr hpmr => GicV3.highestPending_run_iff (hbefore pmr hpmr) ops
  unfold Undisturbed OffersNothing
  rw [hpeers'.cpuCount]
  refine forall₂_congr fun j hj => forall_congr' fun hne => ?_
  rw [hpeers'.active hne]
  exact forall_congr' fun ha => hiff j hj hne ha

end Soc

namespace RunState

open Soc

/-- No instruction of CPU `i` but the last of `n` offers an interrupt to a CPU that waits. -/
def NothingOffered (inp : Inputs) (i : Nat) (x : RunState) (n : Nat) : Prop :=
  ∀ k < n - 1, OffersNothing i x.soc (x.ticks inp i k).soc.gic
    ((x.ticks inp i k).soc.insnGicOps i (inp.insns (x.steps + k)))

instance (inp : Inputs) (i : Nat) (x : RunState) (n : Nat) : Decidable (NothingOffered inp i x n) :=
  inferInstanceAs (Decidable (∀ k < n - 1, OffersNothing i x.soc (x.ticks inp i k).soc.gic
    ((x.ticks inp i k).soc.insnGicOps i (inp.insns (x.steps + k)))))

namespace Executes

variable {inp : Inputs} {i : Nat} {x : RunState} {starts : List Soc}

theorem mem_tail (h : Executes inp i x starts) (s : Soc) :
    s ∈ starts.tail ↔ ∃ k < starts.length - 1, (x.ticks inp i (k + 1)).soc = s := by
  have hstates := h.states
  generalize starts.length = n at hstates ⊢
  rw [hstates]
  cases n with
  | zero => simp
  | succ n =>
    rw [List.range_succ_eq_map, List.map_cons, List.tail_cons, List.map_map, List.mem_map,
      Nat.add_sub_cancel]
    simp only [List.mem_range]
    rfl

/-- Each instruction but the last leaves the others waiting as before. -/
theorem quietly (h : Executes inp i x starts) {k : Nat} (hk : k < starts.length - 1) :
    Quietly i (x.ticks inp i k).soc (x.ticks inp i (k + 1)).soc
      ((x.ticks inp i k).soc.insnGicOps i (inp.insns (x.steps + k))) := by
  have hd := h.quiet k (by omega)
  rw [ticks_succ] at hd
  rw [ticks_succ, ← ticks_steps inp i k x]
  exact quietly_stepTick _ inp hd

theorem watched (h : Executes inp i x starts) (hw : Watched i x.soc) {k : Nat}
    (hk : k ≤ starts.length - 1) :
    Watched i (x.ticks inp i k).soc ∧ SamePeers i x.soc (x.ticks inp i k).soc := by
  induction k with
  | zero => exact ⟨hw, .refl i x.soc⟩
  | succ k ih =>
    obtain ⟨hwatched, hpeers⟩ := ih (by omega)
    have hquiet := h.quietly (k := k) (by omega)
    exact ⟨hquiet.watched hwatched, hpeers.trans hquiet.peers⟩

/-- Before an instruction no waiting CPU is ready exactly when no interrupt is deliverable. -/
theorem endsInTime_iff_undisturbed (h : Executes inp i x starts) (hw : Watched i x.soc) :
    EndsInTime i starts ↔
      ∀ k < starts.length - 1, Undisturbed i (x.ticks inp i (k + 1)).soc := by
  have hready : ∀ k < starts.length - 1, ∀ j < (x.ticks inp i (k + 1)).soc.cpuCount, j ≠ i →
      (x.ticks inp i (k + 1)).soc.active j = true →
        (((x.ticks inp i (k + 1)).soc.readyToRun j).1 = false ↔
          ((x.ticks inp i (k + 1)).soc.cpus j).Uninterrupted (x.ticks inp i (k + 1)).soc.gic) :=
    fun k hk j hj hne ha => readyToRun_iff (h.watched hw (by omega)).1 hj hne ha
  constructor
  · intro he k hk j hj hne ha
    exact (hready k hk j hj hne ha).1 (he _ ((h.mem_tail _).2 ⟨k, hk, rfl⟩) j hj hne ha)
  · intro hu s hs j hj hne ha
    obtain ⟨k, hk, rfl⟩ := (h.mem_tail s).1 hs
    exact (hready k hk j hj hne ha).2 (hu k hk j hj hne ha)

/-- The instructions end in time exactly when none but the last offers an interrupt. -/
theorem endsInTime_iff (h : Executes inp i x starts) (hasleep : OthersAsleep i x.soc) :
    EndsInTime i starts ↔ NothingOffered inp i x starts.length := by
  have hstart : Undisturbed i x.soc :=
    fun j hj hne ha => (hasleep.asleep j hj hne ha).uninterrupted
  have hstep : ∀ k < starts.length - 1, Undisturbed i (x.ticks inp i k).soc →
      (Undisturbed i (x.ticks inp i (k + 1)).soc ↔
        OffersNothing i x.soc (x.ticks inp i k).soc.gic
          ((x.ticks inp i k).soc.insnGicOps i (inp.insns (x.steps + k)))) :=
    fun k hk hu => undisturbed_iff (h.watched hasleep.watched (by omega)).2 hu (h.quietly hk)
  rw [h.endsInTime_iff_undisturbed hasleep.watched]
  constructor
  · intro hu k hk
    refine (hstep k hk ?_).1 (hu k hk)
    cases k with
    | zero => exact hstart
    | succ k => exact hu k (by omega)
  · intro hn k hk
    have hupto : ∀ m ≤ k + 1, Undisturbed i (x.ticks inp i m).soc := by
      intro m hm
      induction m with
      | zero => exact hstart
      | succ m ih => exact (hstep m (by omega) (ih (by omega))).2 (hn m (by omega))
    exact hupto (k + 1) (Nat.le_refl _)

end Executes

/-- The machine as the dispatcher leaves it. -/
def dispatched (x : RunState) : RunState := x.setSoc x.soc.inspectCpuDispatchState.2

/-- The machine as the window of the only runnable CPU finds it. -/
def soleWindowStart (x : RunState) : RunState :=
  (x.setSoc (x.soc.computeRunWindow x.remaining 1 true x.soc.guestTimeTicks).2).lowered

/-- The window of the only runnable CPU ends in time exactly when no instruction but its last
offers an interrupt to a waiting CPU, from every state that remembers of queries what
`highest_pending` found. -/
theorem soleWindow_endsInTime_iff (inp : Inputs) (x : RunState) (i : Nat)
    (hsound : x.soc.QueriesSound)
    (hcount : x.soc.inspectCpuDispatchState.1.runnableCpuCount = 1)
    (hfirst : x.soc.inspectCpuDispatchState.1.firstRunnableCpu = some i) :
    EndsInTime i (x.dispatched.openSoleWindow inp i).trace.starts ↔
      NothingOffered inp i x.dispatched.soleWindowStart
        (x.dispatched.openSoleWindow inp i).trace.starts.length := by
  have hdispatch := othersAsleep_dispatch hsound hcount hfirst
  have hopen : OthersAsleep i x.dispatched.soleWindowStart.soc := by
    rcases computeRunWindow_soc x.dispatched.soc x.dispatched.remaining 1 true
        x.dispatched.soc.guestTimeTicks with hsame | hquery
    · refine hdispatch.of_eq ?_ ?_ ?_ ?_ <;> rw [soleWindowStart, hsame] <;> rfl
    · have hkept : ∀ s : Soc, ∀ t, (s.queryDeviceEvent t).2.cpuCount = s.cpuCount ∧
          (s.queryDeviceEvent t).2.cpuPoweredOn = s.cpuPoweredOn ∧
          (s.queryDeviceEvent t).2.cpus = s.cpus ∧ (s.queryDeviceEvent t).2.gic = s.gic := by
        intro s t
        unfold queryDeviceEvent
        split <;> exact ⟨rfl, rfl, rfl, rfl⟩
      obtain ⟨hn, hp, hc, hg⟩ := hkept x.dispatched.soc x.dispatched.soc.guestTimeTicks
      rw [soleWindowStart, hquery]
      exact hdispatch.of_eq hn hp hc hg
  exact (executes_soleWindow inp i _ _).endsInTime_iff hopen

end RunState

namespace Soc

/-- CPU 0 runs and CPU 1, whose SGI 0 is enabled and unmasked, waits as `wait` says. -/
def twoCpus (wait : Cpu → Cpu) : Soc :=
  let s := reset 2 true 0 1 .eventDriven
  let peer := s.cpus 1
  { s with
    gic := ((s.gic.setCpuAffinity 0 0x80000000).setCpuAffinity 1 0x80000001).write
      (kRedistBase + kRedistFrameSize + kGicrSgiIsenabler0) 1 4
    cpus := Function.update s.cpus 1
      (wait { peer with icc.iccIgrpen1El1 := 1, sysregs.pstate.i := false }) }.syncDevices none

/-- SGI `sgi k` for CPU 1 from instruction `k`, where there is one, and nothing else. -/
def sgis (sgi : Nat → Option U64) : Inputs where
  insns := fun k => ⟨(sgi k).toList.map fun value => .gic (.sendSgi 0 value) rfl, true⟩
  polls := fun _ => ⟨fun i => .reset i 0 0, false, false, false⟩

/-- An SGI for CPU 1, then instructions that touch nothing else. -/
def sgiFirst : Inputs := sgis fun k => if k = 0 then some 2 else none

/-- The lap in which CPU 0 executes its window. -/
def lapOfTwo (wait : Cpu → Cpu) (inp : Inputs) : Lap :=
  (⟨twoCpus wait, 0, 0, 4⟩ : RunState).dispatched.openSoleWindow inp 0

/-- The states in which the window of CPU 0 starts its instructions. -/
def windowOfTwo (wait : Cpu → Cpu) (inp : Inputs) : List Soc := (lapOfTwo wait inp).trace.starts

theorem twoCpus_sound : (twoCpus Cpu.wfi).QueriesSound := by
  have hcache : ∀ idx, ((twoCpus Cpu.wfi).gic.pendingQueryCache idx).valid = false := by
    intro idx
    rfl
  refine ⟨fun idx hv => ?_, fun j => Cpu.querySound_of_invalid ?_⟩
  · rw [hcache idx] at hv
    cases hv
  · by_cases hj : j = 1
    · subst hj
      rfl
    · have hcpu : (twoCpus Cpu.wfi).cpus j = .reset j 0 0 := Function.update_of_ne hj _ _
      dsimp only
      rw [hcpu]
      rfl

/-- The first instruction sends SGI 1, which is not enabled, and the last sends SGI 0. -/
def sgiLast : Inputs :=
  sgis fun k => if k = 0 then some 0x1000002 else if k = 3 then some 2 else none

/-- CPU 1 becomes ready with the last of four instructions, and the window has ended in time. -/
theorem sgiLast_endsInTime :
    EndsInTime 0 (windowOfTwo Cpu.wfi sgiLast) ∧ (windowOfTwo Cpu.wfi sgiLast).length = 4 ∧
      ((lapOfTwo Cpu.wfi sgiLast).run.soc.readyToRun 1).1 = true := by
  refine ⟨?_, by decide +kernel, by decide +kernel⟩
  exact (RunState.soleWindow_endsInTime_iff sgiLast ⟨twoCpus Cpu.wfi, 0, 0, 4⟩ 0 twoCpus_sound
    (by decide +kernel) (by decide +kernel)).2 (by decide +kernel)

/-- The SGI makes CPU 1 ready before the second of four instructions. All four are executed,
whether CPU 1 waits in WFI or in WFE. -/
theorem sgi_leaves_peer_waiting :
    (windowOfTwo Cpu.wfi sgiFirst).map (fun s => (s.readyToRun 1).1) = [false, true, true, true] ∧
      (windowOfTwo Cpu.wfe sgiFirst).map (fun s => (s.readyToRun 1).1) =
        [false, true, true, true] ∧
      ¬ EndsInTime 0 (windowOfTwo Cpu.wfi sgiFirst) ∧
      ¬ EndsInTime 0 (windowOfTwo Cpu.wfe sgiFirst) := by
  refine ⟨?_, ?_, ?_, ?_⟩ <;> decide +kernel

end Soc
end Aarchvm

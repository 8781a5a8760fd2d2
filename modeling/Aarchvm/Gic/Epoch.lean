import Aarchvm.Gic.Line
import Aarchvm.Lib.Epoch

/-!
# The state epoch

`highest_pending` is a view of the controller that changes only where `state_epoch_`
rises, so a cached answer is right while the epoch is that of the query. The per-CPU
results that `has_pending` keeps are such answers.
-/
namespace Aarchvm
namespace GicV3

open Lib.Epoch

/-- What `highest_pending` finds, for each CPU and threshold. -/
def pendingView (g : GicV3) : Nat → U8 → Option Nat := fun cpuIndex pmr =>
  g.highestPending cpuIndex pmr

/-- The operation raises the epoch if it changes what `highest_pending` finds, and leaves the
cached results alone. -/
structure Guarded (g g' : GicV3) : Prop where
  advances : Advances stateEpoch pendingView g g'
  cache : g'.pendingQueryCache = g.pendingQueryCache

/-! ## Operations without a candidate's change -/

/-- The same interrupts pending and enabled, with the same priorities. -/
structure SameCandidates (g g' : GicV3) : Prop where
  cpuCount : g'.cpuCount = g.cpuCount
  pending : ∀ b i, g'.bit .pending b i = g.bit .pending b i
  enabled : ∀ b i, g'.bit .enabled b i = g.bit .enabled b i
  prio : ∀ b i, g'.prio b i = g.prio b i

variable {g g' g'' : GicV3}

theorem SameCandidates.candidates (h : SameCandidates g g') (idx : Nat) (pmr : U8) :
    g'.candidates idx pmr = g.candidates idx pmr := by
  have hidx : ∀ n, g'.localIdx n = g.localIdx n := by
    intro n
    rw [localIdx, localIdx, h.cpuCount]
  have hcand : ∀ b i, g'.candidate b i pmr = g.candidate b i pmr := by
    intro b i
    rw [candidate, candidate, h.pending, h.enabled, h.prio]
  have hown : ∀ i, (g'.localCpu idx).priorities i = (g.localCpu idx).priorities i := by
    intro i
    rw [localCpu, localCpu, hidx]
    exact h.prio (.own _) i
  have hshared : ∀ i, g'.spiPriorities i = g.spiPriorities i := h.prio .shared
  simp only [GicV3.candidates, localCandidate, spiCandidate, hidx, hcand, hown, hshared]

theorem SameCandidates.pendingView (h : SameCandidates g g') : g'.pendingView = g.pendingView := by
  funext cpuIndex pmr
  rw [GicV3.pendingView, GicV3.pendingView, highestPending, highestPending, localIdx, localIdx,
    h.cpuCount, h.candidates]

namespace Guarded

theorem refl (g : GicV3) : Guarded g g := ⟨.refl g, rfl⟩

theorem trans (h : Guarded g g') (h' : Guarded g' g'') : Guarded g g'' :=
  ⟨h.advances.trans h'.advances, h'.cache.trans h.cache⟩

theorem of_same (h : SameCandidates g g') (he : g'.stateEpoch = g.stateEpoch)
    (hc : g'.pendingQueryCache = g.pendingQueryCache) : Guarded g g' :=
  ⟨.of_eq he h.pendingView, hc⟩

theorem foldl {α : Type} {f : GicV3 → α → GicV3} (h : ∀ g a, Guarded g (f g a)) (l : List α)
    (g : GicV3) : Guarded g (l.foldl f g) := by
  induction l generalizing g with
  | nil => exact .refl g
  | cons a l ih => exact (h g a).trans (ih (f g a))

theorem ite {c : Prop} [Decidable c] (h : Guarded g g') (h' : Guarded g g'') :
    Guarded g (if c then g' else g'') := by
  split
  · exact h
  · exact h'

theorem modifyLocal (g : GicV3) (idx : Nat) {f : LocalCpuState → LocalCpuState}
    (hb : ∀ l, (f l).bits = l.bits) (hp : ∀ l, (f l).priorities = l.priorities) :
    Guarded g (g.modifyLocal idx f) := by
  refine of_same ⟨rfl, modifyLocal_bit g idx f hb _, modifyLocal_bit g idx f hb _, ?_⟩ rfl rfl
  intro b i
  cases b with
  | shared => rfl
  | own j =>
    by_cases hj : j = idx
    · subst hj
      simp [GicV3.modifyLocal, prio, hp]
    · simp [GicV3.modifyLocal, prio, hj]

/-! ## Setters -/

theorem setBit (g : GicV3) (k : GicBit) (b : Bank) (intid : Nat) (value : Bool) :
    Guarded g (g.setBit k b intid value) := by
  unfold GicV3.setBit
  split
  · exact .refl g
  · cases b with
    | own idx => exact ⟨.of_lt (Nat.lt_succ_self _), rfl⟩
    | shared => exact ⟨.of_lt (Nat.lt_succ_self _), rfl⟩

theorem setLocalBit (k : GicBit) (g : GicV3) (cpuIndex intid : Nat) (value : Bool) :
    Guarded g (GicV3.setLocalBit k g cpuIndex intid value) :=
  .ite (.refl g) (.setBit ..)

theorem setSpiBit (k : GicBit) (g : GicV3) (intid : Nat) (value : Bool) :
    Guarded g (GicV3.setSpiBit k g intid value) :=
  .ite (.refl g) (.setBit ..)

theorem onBank (g : GicV3) (cpuIndex intid : Nat) {f : Bank → GicV3} (h : ∀ b, Guarded g (f b)) :
    Guarded g (g.onBank cpuIndex intid f) :=
  .ite (h _) (.ite (.refl g) (h _))

theorem recordLevel (g : GicV3) (intid : Nat) (asserted : Bool) (b : Bank) :
    Guarded g (g.recordLevel intid asserted b) :=
  .ite (.refl g) (.ite ((Guarded.setBit ..).trans (.setBit ..)) (.setBit ..))

theorem setCpuAffinity (g : GicV3) (cpuIndex : Nat) (mpidr : U64) :
    Guarded g (g.setCpuAffinity cpuIndex mpidr) :=
  .modifyLocal g _ (fun _ => rfl) fun _ => rfl

theorem setPendingOn (g : GicV3) (cpuIndex intid : Nat) :
    Guarded g (g.setPendingOn cpuIndex intid) :=
  .onBank g cpuIndex intid fun _ => .setBit ..

theorem setLevelOn (g : GicV3) (cpuIndex intid : Nat) (asserted : Bool) :
    Guarded g (g.setLevelOn cpuIndex intid asserted) :=
  .onBank g cpuIndex intid fun _ => .recordLevel ..

theorem dropActive (g : GicV3) (intid : Nat) (b : Bank) : Guarded g (g.dropActive intid b) :=
  .ite ((Guarded.setBit ..).trans (.setBit ..)) (.setBit ..)

theorem eoi (g : GicV3) (cpuIndex intid : Nat) : Guarded g (g.eoi cpuIndex intid) :=
  .onBank g cpuIndex intid fun _ => .dropActive ..

theorem acknowledge (g : GicV3) (cpuIndex : Nat) (pmr : U8) :
    Guarded g (g.acknowledge cpuIndex pmr).2 := by
  unfold GicV3.acknowledge
  cases g.highestPending cpuIndex pmr with
  | none => exact .refl g
  | some intid => exact (Guarded.setBit ..).trans (.setBit ..)

theorem sendSgi (g : GicV3) (sourceCpu : Nat) (value : U64) :
    Guarded g (g.sendSgi sourceCpu value) :=
  foldl (fun g _ => .ite (.setLocalBit ..) (.refl g)) _ g

/-! ## Register writes -/

theorem forBits (bits : U32) {f : GicV3 → Nat → GicV3} (h : ∀ g i, Guarded g (f g i)) (g : GicV3) :
    Guarded g (GicV3.forBits bits f g) :=
  foldl (fun g i => .ite (h g i) (.refl g)) _ g

/-- The loop over the priority bytes changes priorities only; the epoch rises once after it. -/
theorem setPriorityRange (g : GicV3) (firstIntid : Nat) (value : U32) (cpuIndex : Nat)
    (isLocal : Bool) : Guarded g (g.setPriorityRange firstIntid value cpuIndex isLocal) := by
  have hloop : ∀ {f : GicV3 → Nat → GicV3},
      (∀ g i, (f g i).stateEpoch = g.stateEpoch ∧
        (f g i).pendingQueryCache = g.pendingQueryCache) → ∀ (l : List Nat) (g : GicV3),
      (l.foldl f g).stateEpoch = g.stateEpoch ∧
        (l.foldl f g).pendingQueryCache = g.pendingQueryCache := by
    intro f h l
    induction l with
    | nil => exact fun g => ⟨rfl, rfl⟩
    | cons i l ih =>
      intro g
      exact ⟨(ih (f g i)).1.trans (h g i).1, (ih (f g i)).2.trans (h g i).2⟩
  unfold GicV3.setPriorityRange
  dsimp only
  refine ⟨.of_lt ?_, ?_⟩
  · refine Nat.lt_succ_of_le (Nat.le_of_eq (hloop ?_ (List.range 4) g).1.symm)
    intro g i
    split_ifs <;> exact ⟨rfl, rfl⟩
  · refine (hloop ?_ (List.range 4) g).2
    intro g i
    split_ifs <;> exact ⟨rfl, rfl⟩

theorem writeDistBitmap (k : GicBit) (g : GicV3) (offset base : Nat) (value : U32) (set : Bool) :
    Guarded g (GicV3.writeDistBitmap k g offset base value set) :=
  .ite (forBits _ (fun _ _ => .setSpiBit ..) g) (.refl g)

theorem writeFrameBitmap (k : GicBit) (g : GicV3) (frame : Nat) (value : U32) (set : Bool) :
    Guarded g (GicV3.writeFrameBitmap k g frame value set) :=
  forBits _ (fun _ _ => .setLocalBit ..) g

theorem writeDistReg32 (g : GicV3) (offset : Nat) (value : U32) :
    Guarded g (g.writeDistReg32 offset value) := by
  unfold GicV3.writeDistReg32
  refine .ite (of_same ⟨rfl, fun b _ => ?_, fun b _ => ?_, fun b _ => ?_⟩ rfl rfl) ?_
  · cases b <;> rfl
  · cases b <;> rfl
  · cases b <;> rfl
  · exact .ite (.writeDistBitmap ..) <| .ite (.writeDistBitmap ..) <| .ite (.writeDistBitmap ..) <|
      .ite (.writeDistBitmap ..) <| .ite (.setPriorityRange ..) (.refl g)

theorem writeRedistReg32 (g : GicV3) (offset : Nat) (value : U32) :
    Guarded g (g.writeRedistReg32 offset value) := by
  unfold GicV3.writeRedistReg32
  refine .ite (.refl g) (.ite (.refl g) ?_)
  refine .ite (.modifyLocal _ _ (fun _ => rfl) fun _ => rfl) ?_
  refine .ite (.modifyLocal _ _ (fun _ => rfl) fun _ => rfl) ?_
  refine .ite (.writeFrameBitmap ..) <| .ite (.writeFrameBitmap ..) <|
    .ite (.writeFrameBitmap ..) <| .ite (.writeFrameBitmap ..) <|
    .ite (.writeFrameBitmap ..) <| .ite (.writeFrameBitmap ..) <|
    .ite (.setPriorityRange ..) ?_
  exact .ite (.modifyLocal _ _ (fun _ => rfl) fun _ => rfl)
    (.ite (.modifyLocal _ _ (fun _ => rfl) fun _ => rfl) (.refl g))

theorem write (g : GicV3) (offset : Nat) (value : U64) (size : Nat) :
    Guarded g (g.write offset value size) := by
  rw [write_eq_foldl_regWrites]
  exact foldl (fun g _ => .ite (.writeDistReg32 ..) (.writeRedistReg32 ..)) _ g

end Guarded

/-! ## The query cache -/

/-- A cached result of `has_pending` is right while the epoch is that of the query. -/
def CacheSound (g : GicV3) : Prop :=
  ∀ idx, (g.pendingQueryCache idx).valid = true →
    Noted stateEpoch pendingView (g.pendingQueryCache idx).epoch
      (fun view => (g.pendingQueryCache idx).value =
        (view idx (g.pendingQueryCache idx).pmr).isSome) g

theorem Guarded.cacheSound (h : Guarded g g') (hs : g.CacheSound) : g'.CacheSound := by
  intro idx hv
  rw [h.cache] at hv ⊢
  exact (hs idx hv).advance h.advances

theorem highestPending_localIdx (g : GicV3) (cpuIndex : Nat) (pmr : U8) :
    g.highestPending (g.localIdx cpuIndex) pmr = g.highestPending cpuIndex pmr := by
  rw [highestPending, highestPending, localIdx_idem]

/-- With a sound cache `has_pending` answers what `highest_pending` finds. -/
theorem CacheSound.hasPending_fst (h : g.CacheSound) (cpuIndex : Nat) (pmr : U8) :
    (g.hasPending cpuIndex pmr).1 = (g.highestPending cpuIndex pmr).isSome := by
  unfold hasPending
  dsimp only
  split
  next hhit =>
    simp only [Bool.and_eq_true, beq_iff_eq] at hhit
    obtain ⟨⟨hvalid, hepoch⟩, hpmr⟩ := hhit
    rw [(h _ hvalid).2 hepoch, hpmr, ← highestPending_localIdx]
    rfl
  next => rw [highestPending_localIdx]

theorem hasPending_pendingView (g : GicV3) (cpuIndex : Nat) (pmr : U8) :
    (g.hasPending cpuIndex pmr).2.pendingView = g.pendingView ∧
      (g.hasPending cpuIndex pmr).2.stateEpoch = g.stateEpoch := by
  unfold hasPending
  dsimp only
  split
  · exact ⟨rfl, rfl⟩
  · refine ⟨SameCandidates.pendingView ⟨rfl, fun b _ => ?_, fun b _ => ?_, fun b _ => ?_⟩, rfl⟩ <;>
      cases b <;> rfl

/-- The result that `has_pending` caches is that of `highest_pending` now. -/
theorem CacheSound.hasPending_snd (h : g.CacheSound) (cpuIndex : Nat) (pmr : U8) :
    (g.hasPending cpuIndex pmr).2.CacheSound := by
  obtain ⟨hview, hepoch⟩ := g.hasPending_pendingView cpuIndex pmr
  intro idx hv
  have hcache : (g.hasPending cpuIndex pmr).2.pendingQueryCache idx = g.pendingQueryCache idx ∨
      idx = g.localIdx cpuIndex ∧ (g.hasPending cpuIndex pmr).2.pendingQueryCache idx =
        ⟨true, (g.highestPending (g.localIdx cpuIndex) pmr).isSome, pmr, g.stateEpoch⟩ := by
    unfold hasPending
    dsimp only
    split
    · exact .inl rfl
    · by_cases hi : idx = g.localIdx cpuIndex
      · subst hi
        exact .inr ⟨rfl, Function.update_self ..⟩
      · exact .inl (Function.update_of_ne hi ..)
  obtain hold | ⟨rfl, hnew⟩ := hcache
  · rw [hold] at hv ⊢
    exact (h idx hv).advance (.of_eq hepoch hview)
  · rw [hnew]
    refine ⟨Nat.le_of_eq hepoch.symm, fun _ => ?_⟩
    rw [hview]
    rfl

/-! ## Operations -/

/-- Every operation raises the epoch if it changes what `highest_pending` finds. -/
theorem step_advances (g : GicV3) (op : GicOp) :
    Advances stateEpoch pendingView g (g.step op) := by
  cases op with
  | setCpuAffinity cpuIndex mpidr => exact (Guarded.setCpuAffinity ..).advances
  | setPendingOn cpuIndex intid => exact (Guarded.setPendingOn ..).advances
  | setLevelOn cpuIndex intid asserted => exact (Guarded.setLevelOn ..).advances
  | sendSgi sourceCpu value => exact (Guarded.sendSgi ..).advances
  | hasPending cpuIndex pmr =>
    obtain ⟨hview, hepoch⟩ := g.hasPending_pendingView cpuIndex pmr
    exact .of_eq hepoch hview
  | acknowledge cpuIndex pmr => exact (Guarded.acknowledge ..).advances
  | eoi cpuIndex intid => exact (Guarded.eoi ..).advances
  | write offset value size => exact (Guarded.write ..).advances

theorem CacheSound.step (h : g.CacheSound) (op : GicOp) : (g.step op).CacheSound := by
  cases op with
  | setCpuAffinity cpuIndex mpidr => exact (Guarded.setCpuAffinity ..).cacheSound h
  | setPendingOn cpuIndex intid => exact (Guarded.setPendingOn ..).cacheSound h
  | setLevelOn cpuIndex intid asserted => exact (Guarded.setLevelOn ..).cacheSound h
  | sendSgi sourceCpu value => exact (Guarded.sendSgi ..).cacheSound h
  | hasPending cpuIndex pmr => exact h.hasPending_snd cpuIndex pmr
  | acknowledge cpuIndex pmr => exact (Guarded.acknowledge ..).cacheSound h
  | eoi cpuIndex intid => exact (Guarded.eoi ..).cacheSound h
  | write offset value size => exact (Guarded.write ..).cacheSound h

/-! ## Snapshot loads -/

/-- `load_state` for a snapshot whose arrays are those of `contents`: `set_cpu_count` raises the
epoch once, and once more from version 5 on, and the end of the load once. -/
def loadState (g contents : GicV3) (version : Nat) : GicV3 :=
  { contents with
    stateEpoch := g.stateEpoch + (if 5 ≤ version then 3 else 2)
    pendingQueryCache := fun _ => ⟨false, false, 0xFF, 0⟩ }

theorem loadState_advances (g contents : GicV3) (version : Nat) :
    Advances stateEpoch pendingView g (g.loadState contents version) := by
  refine .of_lt ?_
  show g.stateEpoch < g.stateEpoch + if 5 ≤ version then 3 else 2
  split_ifs <;> omega

theorem loadState_cacheSound (g contents : GicV3) (version : Nat) :
    (g.loadState contents version).CacheSound := nofun

theorem reset_cacheSound (cpuCount : Nat) : (reset cpuCount).CacheSound := nofun

end GicV3
end Aarchvm

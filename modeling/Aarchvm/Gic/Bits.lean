import Aarchvm.Gic.Mmio
import Mathlib.Tactic.Tauto

/-!
# What each operation does to the bit arrays

One equation per operation: which bit of which bank it sets or clears. Nothing
after this module unfolds a setter, a loop over a written value or the register
decoding.
-/
namespace Aarchvm
namespace GicV3

/-- Same CPUs with the same affinities. No operation of a run changes these. -/
structure SameShape (g g' : GicV3) : Prop where
  cpuCount : g'.cpuCount = g.cpuCount
  mpidr : ∀ idx, (g'.locals idx).mpidr = (g.locals idx).mpidr

namespace SameShape

variable {g g' g'' : GicV3}

theorem refl (g : GicV3) : SameShape g g := ⟨rfl, fun _ => rfl⟩

theorem trans (h : SameShape g g') (h' : SameShape g' g'') : SameShape g g'' :=
  ⟨h'.cpuCount.trans h.cpuCount, fun idx => (h'.mpidr idx).trans (h.mpidr idx)⟩

theorem localIdx (h : SameShape g g') (cpuIndex : Nat) :
    g'.localIdx cpuIndex = g.localIdx cpuIndex := by
  unfold GicV3.localIdx
  rw [h.cpuCount]

theorem sgiTarget (h : SameShape g g') (sourceCpu : Nat) (value : U64) (cpu : Nat) :
    g'.sgiTarget sourceCpu value cpu = g.sgiTarget sourceCpu value cpu := by
  unfold GicV3.sgiTarget GicV3.matchAffinity GicV3.localCpu
  rw [h.localIdx, h.mpidr]

end SameShape

theorem localIdx_lt (g : GicV3) (cpuIndex : Nat) : g.localIdx cpuIndex < g.cpuCount := by
  have := g.cpuCount_pos
  unfold localIdx
  omega

theorem localIdx_of_lt {g : GicV3} {cpuIndex : Nat} (h : cpuIndex < g.cpuCount) :
    g.localIdx cpuIndex = cpuIndex := by
  unfold localIdx
  omega

/-! ## Setters -/

theorem modifyLocal_sameShape (g : GicV3) (idx : Nat) (f : LocalCpuState → LocalCpuState)
    (hf : ∀ l, (f l).mpidr = l.mpidr) : SameShape g (g.modifyLocal idx f) := by
  refine ⟨rfl, fun i => ?_⟩
  by_cases hi : i = idx
  · subst hi
    simp [modifyLocal, hf]
  · simp [modifyLocal, hi]

theorem modifyLocal_bit (g : GicV3) (idx : Nat) (f : LocalCpuState → LocalCpuState)
    (hf : ∀ l, (f l).bits = l.bits) (k : GicBit) (b : Bank) (intid : Nat) :
    (g.modifyLocal idx f).bit k b intid = g.bit k b intid := by
  cases b with
  | shared => rfl
  | own i =>
    by_cases hi : i = idx
    · subst hi
      simp [modifyLocal, bit, hf]
    · simp [modifyLocal, bit, hi]

theorem setBit_sameShape (g : GicV3) (k : GicBit) (b : Bank) (intid : Nat) (value : Bool) :
    SameShape g (g.setBit k b intid value) := by
  unfold setBit
  split
  · exact .refl g
  · cases b with
    | shared => exact ⟨rfl, fun _ => rfl⟩
    | own idx =>
      have h := modifyLocal_sameShape g idx (fun l =>
        { l with bits := Function.update l.bits k (Function.update (l.bits k) intid value) })
        fun _ => rfl
      exact ⟨h.cpuCount, h.mpidr⟩

theorem setBit_bit (g : GicV3) (k : GicBit) (b : Bank) (intid : Nat) (value : Bool)
    (k' : GicBit) (b' : Bank) (intid' : Nat) :
    (g.setBit k b intid value).bit k' b' intid' =
      if k' = k ∧ b' = b ∧ intid' = intid then value else g.bit k' b' intid' := by
  unfold setBit
  by_cases heq : g.bit k b intid = value
  · rw [if_pos heq]
    split
    next h =>
      obtain ⟨rfl, rfl, rfl⟩ := h
      exact heq
    next => rfl
  · rw [if_neg heq]
    cases b with
    | shared =>
      cases b' with
      | own idx' => simp [bit]
      | shared => by_cases hk : k' = k <;> by_cases hi : intid' = intid <;> simp [bit, hk, hi]
    | own idx =>
      cases b' with
      | shared => simp [bit, modifyLocal]
      | own idx' =>
        by_cases hx : idx' = idx <;> by_cases hk : k' = k <;> by_cases hi : intid' = intid <;>
          simp [bit, modifyLocal, hx, hk, hi]

theorem setLocalBit_sameShape (k : GicBit) (g : GicV3) (cpuIndex intid : Nat) (value : Bool) :
    SameShape g (setLocalBit k g cpuIndex intid value) := by
  unfold setLocalBit
  split
  · exact .refl g
  · exact setBit_sameShape ..

theorem setSpiBit_sameShape (k : GicBit) (g : GicV3) (intid : Nat) (value : Bool) :
    SameShape g (setSpiBit k g intid value) := by
  unfold setSpiBit
  split
  · exact .refl g
  · exact setBit_sameShape ..

theorem setLocalBit_bit (k : GicBit) (g : GicV3) (cpuIndex intid : Nat) (value : Bool)
    (k' : GicBit) (b' : Bank) (intid' : Nat) :
    (setLocalBit k g cpuIndex intid value).bit k' b' intid' =
      if k' = k ∧ b' = .own (g.localIdx cpuIndex) ∧ intid' = intid ∧ intid < kLocalIntIds
      then value else g.bit k' b' intid' := by
  unfold setLocalBit
  by_cases h : kLocalIntIds ≤ intid
  · rw [if_pos h, if_neg (by omega)]
  · rw [if_neg h, setBit_bit]
    simp [Nat.lt_of_not_le h]

theorem setSpiBit_bit (k : GicBit) (g : GicV3) (intid : Nat) (value : Bool)
    (k' : GicBit) (b' : Bank) (intid' : Nat) :
    (setSpiBit k g intid value).bit k' b' intid' =
      if k' = k ∧ b' = .shared ∧ intid' = intid ∧ kFirstSpiIntId ≤ intid ∧ intid < kNumIntIds
      then value else g.bit k' b' intid' := by
  unfold setSpiBit
  by_cases h : intid < kFirstSpiIntId ∨ kNumIntIds ≤ intid
  · rw [if_pos h, if_neg (by omega)]
  · rw [if_neg h, setBit_bit]
    have h' : kFirstSpiIntId ≤ intid ∧ intid < kNumIntIds := by omega
    simp [h'.1, h'.2]

/-- A loop each of whose rounds assigns `value` to the bits in `sel j`. -/
theorem foldl_bit {g₀ : GicV3} {f : GicV3 → Nat → GicV3} {value : Bool}
    {sel : Nat → GicBit → Bank → Nat → Bool}
    (hf : ∀ g j, SameShape g₀ g → SameShape g₀ (f g j) ∧
      ∀ k b i, (f g j).bit k b i = if sel j k b i then value else g.bit k b i)
    (l : List Nat) (g : GicV3) (hg : SameShape g₀ g) :
    SameShape g₀ (l.foldl f g) ∧ ∀ k b i,
      (l.foldl f g).bit k b i = if l.any (sel · k b i) then value else g.bit k b i := by
  induction l generalizing g with
  | nil => exact ⟨hg, fun _ _ _ => by simp⟩
  | cons j l ih =>
    obtain ⟨hs, hb⟩ := hf g j hg
    obtain ⟨hs', hb'⟩ := ih (f g j) hs
    refine ⟨hs', fun k b i => ?_⟩
    rw [List.foldl_cons, hb', hb, List.any_cons]
    cases hl : l.any (sel · k b i) <;> cases hj : sel j k b i <;> simp

/-! ## Device and CPU operations -/

theorem onBank_eq (g : GicV3) (cpuIndex intid : Nat) (f : Bank → GicV3) :
    g.onBank cpuIndex intid f =
      if intid < kNumIntIds then f (g.bankOf cpuIndex intid) else g := by
  unfold onBank bankOf
  by_cases hl : intid < kLocalIntIds
  · have hn : intid < kNumIntIds := Nat.lt_trans hl (by decide)
    simp [isLocalIntid, hl, hn]
  · by_cases hn : intid < kNumIntIds
    · simp [isLocalIntid, hl, hn, Nat.not_le.2 hn]
    · simp [isLocalIntid, hl, hn, Nat.le_of_not_lt hn]

theorem onBank_sameShape (g : GicV3) (cpuIndex intid : Nat) {f : Bank → GicV3}
    (hf : ∀ b, SameShape g (f b)) : SameShape g (g.onBank cpuIndex intid f) := by
  rw [onBank_eq]
  split
  · exact hf _
  · exact .refl g

theorem setPendingOn_sameShape (g : GicV3) (cpuIndex intid : Nat) :
    SameShape g (g.setPendingOn cpuIndex intid) :=
  onBank_sameShape g cpuIndex intid fun _ => setBit_sameShape ..

theorem setPendingOn_bit (g : GicV3) (cpuIndex intid : Nat) (k : GicBit) (b : Bank) (i : Nat) :
    (g.setPendingOn cpuIndex intid).bit k b i =
      if k = .pending ∧ b = g.bankOf cpuIndex intid ∧ i = intid ∧ intid < kNumIntIds
      then true else g.bit k b i := by
  rw [setPendingOn, onBank_eq]
  by_cases hn : intid < kNumIntIds
  · simp [hn, setBit_bit]
  · simp [hn]

/-- What `set_level` leaves of one bit of the interrupt whose level changed. -/
def levelResult (g : GicV3) (b : Bank) (i : Nat) (asserted : Bool) : GicBit → Bool
  | .lineLevel => asserted
  | .pending => g.bit .pending b i || (asserted && !g.bit .active b i)
  | k => g.bit k b i

theorem recordLevel_sameShape (g : GicV3) (intid : Nat) (asserted : Bool) (b : Bank) :
    SameShape g (g.recordLevel intid asserted b) := by
  unfold recordLevel
  dsimp only
  split_ifs
  · exact .refl g
  · exact (setBit_sameShape ..).trans (setBit_sameShape ..)
  · exact setBit_sameShape ..

theorem recordLevel_bit (g : GicV3) (b : Bank) (intid : Nat) (asserted : Bool)
    (k : GicBit) (b' : Bank) (i : Nat) :
    (g.recordLevel intid asserted b).bit k b' i =
      if b' = b ∧ i = intid ∧ g.bit .lineLevel b intid ≠ asserted
      then g.levelResult b intid asserted k else g.bit k b' i := by
  unfold recordLevel
  by_cases hl : g.bit .lineLevel b intid = asserted
  · rw [if_pos hl, if_neg (by simp [hl])]
  rw [if_neg hl]
  have hact : (g.setBit .lineLevel b intid asserted).bit .active b intid =
      g.bit .active b intid := by
    simp [setBit_bit]
  dsimp only
  rw [hact]
  by_cases hbi : b' = b ∧ i = intid
  · obtain ⟨rfl, rfl⟩ := hbi
    cases hc : asserted && !g.bit .active b' i <;> cases k <;>
      simp [setBit_bit, levelResult, hl, hc]
  · have hother : ∀ P : Prop, ¬ (b' = b ∧ i = intid ∧ P) := by tauto
    cases hc : asserted && !g.bit .active b intid <;> simp [setBit_bit, hother, hbi]

theorem setLevelOn_sameShape (g : GicV3) (cpuIndex intid : Nat) (asserted : Bool) :
    SameShape g (g.setLevelOn cpuIndex intid asserted) :=
  onBank_sameShape g cpuIndex intid fun _ => recordLevel_sameShape ..

theorem setLevelOn_bit (g : GicV3) (cpuIndex intid : Nat) (asserted : Bool)
    (k : GicBit) (b : Bank) (i : Nat) :
    (g.setLevelOn cpuIndex intid asserted).bit k b i =
      if b = g.bankOf cpuIndex intid ∧ i = intid ∧ intid < kNumIntIds ∧
        g.bit .lineLevel b i ≠ asserted
      then g.levelResult b i asserted k else g.bit k b i := by
  rw [setLevelOn, onBank_eq]
  by_cases hn : intid < kNumIntIds
  · rw [if_pos hn, recordLevel_bit]
    by_cases hbi : b = g.bankOf cpuIndex intid ∧ i = intid
    · obtain ⟨rfl, rfl⟩ := hbi
      simp only [hn, true_and]
    · rw [if_neg (by tauto), if_neg (by tauto)]
  · rw [if_neg hn, if_neg (by tauto)]

/-- Does the SGI register value make `intid` of bank `b` pending? -/
def sgiHits (g : GicV3) (sourceCpu : Nat) (value : U64) (b : Bank) (intid : Nat) : Bool :=
  (List.range g.cpuCount).any fun cpu => g.sgiTarget sourceCpu value cpu &&
    decide (b = .own cpu ∧ intid = sgiIntid value)

theorem sgiIntid_lt (value : U64) : sgiIntid value < 16 := (value.extractLsb' 24 4).isLt

theorem sendSgi_bit (g : GicV3) (sourceCpu : Nat) (value : U64) :
    SameShape g (g.sendSgi sourceCpu value) ∧ ∀ k b i,
      (g.sendSgi sourceCpu value).bit k b i =
        if k = .pending ∧ g.sgiHits sourceCpu value b i = true then true else g.bit k b i := by
  have hlt : sgiIntid value < kLocalIntIds := Nat.lt_trans (sgiIntid_lt value) (by decide)
  have hround : ∀ g' cpu, SameShape g g' → SameShape g (if g'.sgiTarget sourceCpu value cpu then
        g'.setLocalPendingBit cpu (sgiIntid value) true else g') ∧ ∀ k b i,
      (if g'.sgiTarget sourceCpu value cpu then
        g'.setLocalPendingBit cpu (sgiIntid value) true else g').bit k b i =
      if g.sgiTarget sourceCpu value cpu &&
          decide (k = .pending ∧ b = .own (g.localIdx cpu) ∧ i = sgiIntid value)
      then true else g'.bit k b i := by
    intro g' cpu hs
    rw [hs.sgiTarget]
    cases ht : g.sgiTarget sourceCpu value cpu
    · exact ⟨hs, fun k b i => by simp⟩
    · refine ⟨hs.trans (setLocalBit_sameShape ..), fun k b i => ?_⟩
      rw [if_pos rfl, setLocalPendingBit, setLocalBit_bit, hs.localIdx]
      simp [hlt]
  obtain ⟨hs, hb⟩ := foldl_bit hround (List.range g.cpuCount) g (.refl g)
  refine ⟨hs, fun k b i => (hb k b i).trans ?_⟩
  congr 1
  rw [eq_iff_iff, sgiHits, List.any_eq_true, List.any_eq_true]
  -- Every visited index is in range, so `local_cpu` does not clamp it.
  constructor
  · rintro ⟨cpu, hcpu, hc⟩
    simp only [Bool.and_eq_true, decide_eq_true_eq] at hc
    obtain ⟨ht, rfl, rfl, rfl⟩ := hc
    rw [localIdx_of_lt (List.mem_range.1 hcpu)]
    exact ⟨rfl, cpu, hcpu, by simp [ht]⟩
  · rintro ⟨rfl, cpu, hcpu, hc⟩
    simp only [Bool.and_eq_true, decide_eq_true_eq] at hc
    obtain ⟨ht, rfl, rfl⟩ := hc
    exact ⟨cpu, hcpu, by simp [ht, localIdx_of_lt (List.mem_range.1 hcpu)]⟩

theorem acknowledge_of_none {g : GicV3} {cpuIndex : Nat} {pmr : U8}
    (h : g.highestPending cpuIndex pmr = none) : g.acknowledge cpuIndex pmr = (none, g) := by
  simp [acknowledge, h]

theorem acknowledge_fst (g : GicV3) (cpuIndex : Nat) (pmr : U8) :
    (g.acknowledge cpuIndex pmr).1 = g.highestPending cpuIndex pmr := by
  unfold acknowledge
  cases g.highestPending cpuIndex pmr <;> rfl

theorem acknowledge_sameShape (g : GicV3) (cpuIndex : Nat) (pmr : U8) :
    SameShape g (g.acknowledge cpuIndex pmr).2 := by
  unfold acknowledge
  cases g.highestPending cpuIndex pmr with
  | none => exact .refl g
  | some intid => exact (setBit_sameShape ..).trans (setBit_sameShape ..)

/-- A successful acknowledge clears pending and sets active for the INTID it returns. -/
theorem acknowledge_bit (g : GicV3) (cpuIndex : Nat) (pmr : U8) {intid : Nat}
    (h : g.highestPending cpuIndex pmr = some intid) (k : GicBit) (b : Bank) (i : Nat) :
    (g.acknowledge cpuIndex pmr).2.bit k b i =
      if b = g.bankOf cpuIndex intid ∧ i = intid ∧ (k = .pending ∨ k = .active)
      then decide (k = .active) else g.bit k b i := by
  simp only [acknowledge, h, setBit_bit]
  cases k <;> simp

theorem dropActive_sameShape (g : GicV3) (intid : Nat) (b : Bank) :
    SameShape g (g.dropActive intid b) := by
  unfold dropActive
  dsimp only
  split
  · exact (setBit_sameShape ..).trans (setBit_sameShape ..)
  · exact setBit_sameShape ..

theorem eoi_sameShape (g : GicV3) (cpuIndex intid : Nat) : SameShape g (g.eoi cpuIndex intid) :=
  onBank_sameShape g cpuIndex intid fun _ => dropActive_sameShape ..

/-- `eoi` clears active and makes an interrupt with an asserted line pending again. -/
theorem eoi_bit (g : GicV3) (cpuIndex intid : Nat) (k : GicBit) (b : Bank) (i : Nat) :
    (g.eoi cpuIndex intid).bit k b i =
      if b = g.bankOf cpuIndex intid ∧ i = intid ∧ intid < kNumIntIds ∧
        (k = .active ∨ k = .pending ∧ g.bit .lineLevel b i = true)
      then decide (k = .pending) else g.bit k b i := by
  rw [eoi, onBank_eq]
  by_cases hn : intid < kNumIntIds
  · rw [if_pos hn]
    unfold dropActive
    have hline : (g.setBit .active (g.bankOf cpuIndex intid) intid false).bit .lineLevel
        (g.bankOf cpuIndex intid) intid =
        g.bit .lineLevel (g.bankOf cpuIndex intid) intid := by
      simp [setBit_bit]
    dsimp only
    rw [hline]
    by_cases hbi : b = g.bankOf cpuIndex intid ∧ i = intid
    · obtain ⟨rfl, rfl⟩ := hbi
      cases hl : g.bit .lineLevel (g.bankOf cpuIndex i) i <;> cases k <;>
        simp [setBit_bit, hn, hl]
    · have hother : ∀ P : Prop, ¬ (b = g.bankOf cpuIndex intid ∧ i = intid ∧ P) := by tauto
      cases hl : g.bit .lineLevel (g.bankOf cpuIndex intid) intid <;>
        simp [setBit_bit, hother, hbi]
  · rw [if_neg hn, if_neg (by tauto)]

end GicV3
end Aarchvm

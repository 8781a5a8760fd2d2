import Aarchvm.Gic.Bits

/-!
# What a register write does to the bit arrays

Every 32-bit register write either leaves all bits alone or assigns one value to
one array's bits for the INTIDs its set bits address. `bitmapWrite` decodes
which.
-/
namespace Aarchvm

/-- A register write to a bitmap: array, value assigned, bank and INTIDs addressed. -/
structure BitmapWrite where
  kind : GicBit
  value : Bool
  bank : Bank
  selects : Nat → Bool

namespace GicV3

/-- The SPIs addressed by a written value in word `n` of a distributor bitmap. -/
def distSelects (n : Nat) (val : U32) (intid : Nat) : Bool :=
  decide (n ≠ 0) && decide (n * 32 ≤ intid) && val.getLsbD (intid - n * 32) &&
    decide (kFirstSpiIntId ≤ intid ∧ intid < kNumIntIds)

/-- The local INTIDs addressed by a written value. -/
def frameSelects (val : U32) (intid : Nat) : Bool :=
  decide (intid < kLocalIntIds) && val.getLsbD intid

/-- The bitmap write, if any, that a 32-bit register write is. -/
def bitmapWrite (g : GicV3) (off : Nat) (val : U32) : Option BitmapWrite :=
  if off < kDistSize then
    let dist := fun base kind value =>
      some ⟨kind, value, .shared, distSelects ((off - base) / 4) val⟩
    if regRange off kGicdIsenabler 0x80 then dist kGicdIsenabler .enabled true
    else if regRange off kGicdIcenabler 0x80 then dist kGicdIcenabler .enabled false
    else if regRange off kGicdIsactiver 0x80 then dist kGicdIsactiver .active true
    else if regRange off kGicdIcactiver 0x80 then dist kGicdIcactiver .active false
    else none
  else if off < kRedistBase then none
  else
    let frame := (off - kRedistBase) / kRedistFrameSize
    let inner := (off - kRedistBase) % kRedistFrameSize
    let own := fun kind value => some ⟨kind, value, .own frame, frameSelects val⟩
    if g.cpuCount ≤ frame then none
    else if inner = kGicrSgiIsenabler0 then own .enabled true
    else if inner = kGicrSgiIcenabler0 then own .enabled false
    else if inner = kGicrSgiIspendr0 then own .pending true
    else if inner = kGicrSgiIcpendr0 then own .pending false
    else if inner = kGicrSgiIsactiver0 then own .active true
    else if inner = kGicrSgiIcactiver0 then own .active false
    else none

/-- What a register write leaves of one bit. -/
def afterBitmap (g : GicV3) (w : Option BitmapWrite) (k : GicBit) (b : Bank) (intid : Nat) : Bool :=
  match w with
  | none => g.bit k b intid
  | some w =>
    if k = w.kind ∧ b = w.bank ∧ w.selects intid = true then w.value else g.bit k b intid

/-- `g'` is `g` after the bitmap write `w`, as far as the bit arrays are concerned. -/
structure After (g g' : GicV3) (w : Option BitmapWrite) : Prop where
  shape : SameShape g g'
  bits : ∀ k b i, g'.bit k b i = g.afterBitmap w k b i

theorem After.ite {g a a' : GicV3} {w w' : Option BitmapWrite} {c : Prop} [Decidable c]
    (h : c → After g a w) (h' : ¬ c → After g a' w') :
    After g (if c then a else a') (if c then w else w') := by
  by_cases hc : c
  · rw [if_pos hc, if_pos hc]
    exact h hc
  · rw [if_neg hc, if_neg hc]
    exact h' hc

/-! ## Loops over a written value -/

theorem forBits_bit (g : GicV3) (bits : U32) (value : Bool)
    (sel : Nat → GicBit → Bank → Nat → Bool) {f : GicV3 → Nat → GicV3}
    (hf : ∀ g' j, SameShape g g' → SameShape g (f g' j) ∧
      ∀ k b i, (f g' j).bit k b i = if sel j k b i then value else g'.bit k b i) :
    SameShape g (forBits bits f g) ∧ ∀ k b i, (forBits bits f g).bit k b i =
      if (List.range 32).any (fun j => bits.getLsbD j && sel j k b i) then value
      else g.bit k b i := by
  refine foldl_bit (fun g' j hs => ?_) (List.range 32) g (.refl g)
  cases hj : bits.getLsbD j
  · exact ⟨hs, fun k b i => by simp⟩
  · simpa using hf g' j hs

theorem getLsbD_lt {bits : U32} {j : Nat} (h : bits.getLsbD j = true) : j < 32 := by
  by_contra hj
  rw [BitVec.getLsbD_of_ge bits j (by omega)] at h
  exact nomatch h

theorem setSpiRange_bit (k₀ : GicBit) (g : GicV3) (n : Nat) (bits : U32) (value : Bool) :
    SameShape g (setSpiRange k₀ g (n * 32) bits value) ∧ ∀ k b i,
      (setSpiRange k₀ g (n * 32) bits value).bit k b i =
        if k = k₀ ∧ b = .shared ∧ n * 32 ≤ i ∧ bits.getLsbD (i - n * 32) = true ∧
          kFirstSpiIntId ≤ i ∧ i < kNumIntIds
        then value else g.bit k b i := by
  obtain ⟨hs, hb⟩ := forBits_bit g bits value
    (fun j k b i => decide (k = k₀ ∧ b = .shared ∧ i = n * 32 + j ∧
      kFirstSpiIntId ≤ n * 32 + j ∧ n * 32 + j < kNumIntIds))
    (f := fun g bit => setSpiBit k₀ g (n * 32 + bit) value)
    fun g' j hs => ⟨hs.trans (setSpiBit_sameShape ..), fun k b i => by
      rw [setSpiBit_bit]
      simp⟩
  refine ⟨hs, fun k b i => (hb k b i).trans ?_⟩
  congr 1
  rw [List.any_eq_true, eq_iff_iff]
  constructor
  · rintro ⟨j, -, hj⟩
    simp only [Bool.and_eq_true, decide_eq_true_eq] at hj
    obtain ⟨hbit, rfl, rfl, rfl, hlo, hhi⟩ := hj
    exact ⟨rfl, rfl, by omega, by simpa using hbit, hlo, hhi⟩
  · rintro ⟨rfl, rfl, hi, hbit, hlo, hhi⟩
    have heq : n * 32 + (i - n * 32) = i := by omega
    refine ⟨i - n * 32, List.mem_range.2 (getLsbD_lt hbit), ?_⟩
    simp [hbit, heq, hlo, hhi]

theorem writeFrameBitmap_bit (k₀ : GicBit) (g : GicV3) (frame : Nat) (val : U32) (value : Bool) :
    SameShape g (writeFrameBitmap k₀ g frame val value) ∧ ∀ k b i,
      (writeFrameBitmap k₀ g frame val value).bit k b i =
        if k = k₀ ∧ b = .own (g.localIdx frame) ∧ frameSelects val i = true
        then value else g.bit k b i := by
  obtain ⟨hs, hb⟩ := forBits_bit g val value
    (fun j k b i => decide (k = k₀ ∧ b = .own (g.localIdx frame) ∧ i = j ∧ j < kLocalIntIds))
    (f := fun g intid => setLocalBit k₀ g frame intid value)
    fun g' j hs => ⟨hs.trans (setLocalBit_sameShape ..), fun k b i => by
      rw [setLocalBit_bit, hs.localIdx]
      simp⟩
  refine ⟨hs, fun k b i => (hb k b i).trans ?_⟩
  congr 1
  rw [List.any_eq_true, eq_iff_iff]
  constructor
  · rintro ⟨j, -, hj⟩
    simp only [Bool.and_eq_true, decide_eq_true_eq] at hj
    obtain ⟨hbit, rfl, rfl, rfl, hlt⟩ := hj
    exact ⟨rfl, rfl, by simp [frameSelects, hlt, hbit]⟩
  · rintro ⟨rfl, rfl, hsel⟩
    simp only [frameSelects, Bool.and_eq_true, decide_eq_true_eq] at hsel
    exact ⟨i, List.mem_range.2 hsel.1, by simp [hsel.1, hsel.2]⟩

/-- A loop none of whose rounds touches a bit array. -/
theorem foldl_same_bits {g₀ : GicV3} {f : GicV3 → Nat → GicV3}
    (hf : ∀ g j, SameShape g (f g j) ∧ ∀ k b i, (f g j).bit k b i = g.bit k b i)
    (l : List Nat) (g : GicV3) (hg : SameShape g₀ g) :
    SameShape g₀ (l.foldl f g) ∧ ∀ k b i, (l.foldl f g).bit k b i = g.bit k b i := by
  induction l generalizing g with
  | nil => exact ⟨hg, fun _ _ _ => rfl⟩
  | cons j l ih =>
    obtain ⟨hs, hb⟩ := ih (f g j) (hg.trans (hf g j).1)
    exact ⟨hs, fun k b i => (hb k b i).trans ((hf g j).2 k b i)⟩

theorem setPriorityRange_bit (g : GicV3) (firstIntid : Nat) (value : U32) (cpuIndex : Nat)
    (isLocal : Bool) :
    SameShape g (g.setPriorityRange firstIntid value cpuIndex isLocal) ∧ ∀ k b i,
      (g.setPriorityRange firstIntid value cpuIndex isLocal).bit k b i = g.bit k b i := by
  unfold setPriorityRange
  dsimp only
  have h := foldl_same_bits (f := fun g i =>
      if isLocal = true then
        if firstIntid + i < kLocalIntIds then
          g.modifyLocal (g.localIdx cpuIndex) fun l =>
            { l with priorities :=
                Function.update l.priorities (firstIntid + i) (value.extractLsb' (i * 8) 8) }
        else g
      else if kFirstSpiIntId ≤ firstIntid + i ∧ firstIntid + i < kNumIntIds then
        { g with spiPriorities :=
            Function.update g.spiPriorities (firstIntid + i) (value.extractLsb' (i * 8) 8) }
      else g) ?_ (List.range 4) g (.refl g)
  · refine ⟨⟨h.1.cpuCount, h.1.mpidr⟩, fun k b i => ?_⟩
    have hb := h.2 k b i
    cases b <;> exact hb
  · intro g' j
    split_ifs
    · exact ⟨modifyLocal_sameShape _ _ _ fun _ => rfl, modifyLocal_bit _ _ _ fun _ => rfl⟩
    · exact ⟨.refl g', fun _ _ _ => rfl⟩
    · exact ⟨⟨rfl, fun _ => rfl⟩, fun _ b _ => by cases b <;> rfl⟩
    · exact ⟨.refl g', fun _ _ _ => rfl⟩

/-! ## Register decoding -/

theorem After.skip (g : GicV3) : After g g none := ⟨.refl g, fun _ _ _ => rfl⟩

theorem After.modifyLocal (g : GicV3) (idx : Nat) {f : LocalCpuState → LocalCpuState}
    (hm : ∀ l, (f l).mpidr = l.mpidr) (hb : ∀ l, (f l).bits = l.bits) :
    After g (g.modifyLocal idx f) none :=
  ⟨modifyLocal_sameShape g idx f hm, modifyLocal_bit g idx f hb⟩

theorem After.priorities (g : GicV3) (firstIntid : Nat) (value : U32) (cpuIndex : Nat)
    (isLocal : Bool) : After g (g.setPriorityRange firstIntid value cpuIndex isLocal) none :=
  ⟨(setPriorityRange_bit ..).1, (setPriorityRange_bit ..).2⟩

theorem After.distBitmap (k₀ : GicBit) (g : GicV3) (off base : Nat) (val : U32) (value : Bool) :
    After g (writeDistBitmap k₀ g off base val value)
      (some ⟨k₀, value, .shared, distSelects ((off - base) / 4) val⟩) := by
  unfold writeDistBitmap
  dsimp only
  by_cases hn : (off - base) / 4 = 0
  · rw [if_neg (not_not.2 hn)]
    exact ⟨.refl g, fun k b i => by simp [afterBitmap, distSelects, hn]⟩
  · rw [if_pos hn]
    refine ⟨(setSpiRange_bit ..).1, fun k b i => ?_⟩
    rw [(setSpiRange_bit ..).2]
    unfold afterBitmap distSelects
    congr 1
    simp [hn, and_assoc]

theorem After.frameBitmap {g : GicV3} {frame : Nat} (hf : frame < g.cpuCount) (k₀ : GicBit)
    (val : U32) (value : Bool) :
    After g (writeFrameBitmap k₀ g frame val value)
      (some ⟨k₀, value, .own frame, frameSelects val⟩) := by
  refine ⟨(writeFrameBitmap_bit ..).1, fun k b i => ?_⟩
  rw [(writeFrameBitmap_bit ..).2, localIdx_of_lt hf]
  rfl

theorem After.writeDistReg32 (g : GicV3) {off : Nat} (hd : off < kDistSize) (val : U32) :
    After g (g.writeDistReg32 off val) (g.bitmapWrite off val) := by
  unfold GicV3.writeDistReg32 bitmapWrite
  rw [if_pos hd]
  by_cases hctlr : off = kGicdCtlr
  · subst hctlr
    exact ⟨⟨rfl, fun _ => rfl⟩, fun _ b _ => by cases b <;> rfl⟩
  rw [if_neg hctlr]
  refine .ite (fun _ => .distBitmap ..) fun _ => ?_
  refine .ite (fun _ => .distBitmap ..) fun _ => ?_
  refine .ite (fun _ => .distBitmap ..) fun _ => ?_
  refine .ite (fun _ => .distBitmap ..) fun _ => ?_
  split
  · exact .priorities ..
  · exact .skip g

theorem After.writeRedistReg32 (g : GicV3) {off : Nat} (hd : ¬ off < kDistSize) (val : U32) :
    After g (g.writeRedistReg32 off val) (g.bitmapWrite off val) := by
  unfold GicV3.writeRedistReg32 bitmapWrite
  rw [if_neg hd]
  refine .ite (fun _ => .skip g) fun _ => ?_
  refine .ite (fun _ => .skip g) fun hc => ?_
  have hf := Nat.lt_of_not_le hc
  generalize (off - kRedistBase) % kRedistFrameSize = inner
  -- The two registers tested before the bitmaps are none of them.
  by_cases hw : inner = kGicrWaker
  · rw [hw, if_pos rfl]
    repeat rw [if_neg (by decide)]
    exact .modifyLocal g _ (fun _ => rfl) fun _ => rfl
  by_cases hg : inner = kGicrSgiIgroupr0
  · rw [hg, if_neg (by decide), if_pos rfl]
    repeat rw [if_neg (by decide)]
    exact .modifyLocal g _ (fun _ => rfl) fun _ => rfl
  rw [if_neg hw, if_neg hg]
  refine .ite (fun _ => .frameBitmap hf ..) fun _ => ?_
  refine .ite (fun _ => .frameBitmap hf ..) fun _ => ?_
  refine .ite (fun _ => .frameBitmap hf ..) fun _ => ?_
  refine .ite (fun _ => .frameBitmap hf ..) fun _ => ?_
  refine .ite (fun _ => .frameBitmap hf ..) fun _ => ?_
  refine .ite (fun _ => .frameBitmap hf ..) fun _ => ?_
  split
  · exact .priorities ..
  split
  · exact .modifyLocal g _ (fun _ => rfl) fun _ => rfl
  split
  · exact .modifyLocal g _ (fun _ => rfl) fun _ => rfl
  · exact .skip g

/-- A register write does to the bit arrays what `bitmapWrite` decodes it as. -/
theorem after_write32 (g : GicV3) (off : Nat) (val : U32) :
    After g (g.write32 off val) (g.bitmapWrite off val) := by
  unfold write32
  by_cases hd : off < kDistSize
  · rw [if_pos hd]
    exact .writeDistReg32 g hd val
  · rw [if_neg hd]
    exact .writeRedistReg32 g hd val

/-- The decoding only depends on which frames exist. -/
theorem SameShape.bitmapWrite {g g' : GicV3} (h : SameShape g g') (off : Nat) (val : U32) :
    g'.bitmapWrite off val = g.bitmapWrite off val := by
  unfold GicV3.bitmapWrite
  rw [h.cpuCount]

end GicV3
end Aarchvm

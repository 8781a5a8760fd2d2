import Aarchvm.Gic.Priority

/-!
# Narrow writes to the bitmap registers

A write of one or two bytes to a write-one register must assign the bits of the
bytes it addresses and no others. `write` gets this from the list of such
registers, which names those of the distributor and of the first redistributor
frame; in the other frames the write ends in a register write with stray bits.
-/
namespace Aarchvm
namespace GicV3

/-- A register of a frame that a written one bit acts on: offset in the frame, array, and the
value assigned. -/
def frameBitmaps : List (Nat × GicBit × Bool) :=
  [(kGicrSgiIsenabler0, .enabled, true), (kGicrSgiIcenabler0, .enabled, false),
   (kGicrSgiIspendr0, .pending, true), (kGicrSgiIcpendr0, .pending, false),
   (kGicrSgiIsactiver0, .active, true), (kGicrSgiIcactiver0, .active, false)]

/-- Bitmap register `(inner, kind, value)` of frame `frame` lies at `a`. -/
structure FrameBitmap (g : GicV3) (a frame : Nat) (kind : GicBit) (value : Bool) : Prop where
  lt_cpuCount : frame < g.cpuCount
  inner : ∃ inner, (inner, kind, value) ∈ frameBitmaps ∧
    a = kRedistBase + frame * kRedistFrameSize + inner

theorem frameBitmaps_lt {inner : Nat} {kind : GicBit} {value : Bool}
    (h : (inner, kind, value) ∈ frameBitmaps) :
    inner % 4 = 0 ∧ 0x10000 < inner ∧ inner < kRedistFrameSize := by
  simp only [frameBitmaps, List.mem_cons, Prod.mk.injEq, List.not_mem_nil, or_false] at h
  rcases h with ⟨rfl, -⟩ | ⟨rfl, -⟩ | ⟨rfl, -⟩ | ⟨rfl, -⟩ | ⟨rfl, -⟩ | ⟨rfl, -⟩ <;> decide

/-- A write to a frame's bitmap register acts on that frame's bits of the register's array. -/
theorem FrameBitmap.decode {g : GicV3} {a frame : Nat} {kind : GicBit} {value : Bool}
    (h : FrameBitmap g a frame kind value) (val : U32) :
    g.bitmapWrite a val = some ⟨kind, value, .own frame, frameSelects val⟩ := by
  obtain ⟨hc, inner, hm, rfl⟩ := h
  obtain ⟨-, -, hin⟩ := frameBitmaps_lt hm
  obtain ⟨hlo, hd, hdiv, hmod⟩ := frame_decode (f := frame) hin
  unfold bitmapWrite
  dsimp only
  rw [if_neg hd, if_neg hlo, hdiv, hmod, if_neg (Nat.not_le.2 hc)]
  simp only [frameBitmaps, List.mem_cons, Prod.mk.injEq, List.not_mem_nil, or_false] at hm
  rcases hm with ⟨rfl, rfl, rfl⟩ | ⟨rfl, rfl, rfl⟩ | ⟨rfl, rfl, rfl⟩ | ⟨rfl, rfl, rfl⟩ |
    ⟨rfl, rfl, rfl⟩ | ⟨rfl, rfl, rfl⟩ <;> rfl

/-- Every offset is no bitmap register, one that `is_write1_bitmap_register` lists, or a
bitmap register of a frame. -/
theorem bitmapWrite_decode (g : GicV3) (off : Nat) :
    (∀ val, g.bitmapWrite off val = none) ∨ isWrite1BitmapRegister off = true ∨
      ∃ frame kind value, FrameBitmap g off frame kind value := by
  by_cases hw : isWrite1BitmapRegister off = true
  · exact .inr (.inl hw)
  by_cases hf : ∃ frame kind value, FrameBitmap g off frame kind value
  · exact .inr (.inr hf)
  refine .inl fun val => ?_
  unfold bitmapWrite
  dsimp only
  by_cases hd : off < kDistSize
  · simp only [isWrite1BitmapRegister, Bool.or_eq_true, not_or] at hw
    obtain ⟨⟨⟨⟨⟨⟨⟨⟨⟨hse, hce⟩, hsa⟩, hca⟩, -⟩, -⟩, -⟩, -⟩, -⟩, -⟩ := hw
    rw [if_pos hd, if_neg hse, if_neg hce, if_neg hsa, if_neg hca]
  rw [if_neg hd]
  by_cases hl : off < kRedistBase
  · rw [if_pos hl]
  rw [if_neg hl]
  by_cases hc : g.cpuCount ≤ (off - kRedistBase) / kRedistFrameSize
  · rw [if_pos hc]
  rw [if_neg hc]
  have hoff : off = kRedistBase + (off - kRedistBase) / kRedistFrameSize * kRedistFrameSize +
      (off - kRedistBase) % kRedistFrameSize := by
    have := Nat.div_add_mod' (off - kRedistBase) kRedistFrameSize
    omega
  have hno : ∀ inner kind value, (inner, kind, value) ∈ frameBitmaps →
      (off - kRedistBase) % kRedistFrameSize ≠ inner := by
    intro inner kind value hm hi
    exact hf ⟨_, kind, value, Nat.lt_of_not_le hc, inner, hm, hi ▸ hoff⟩
  rw [if_neg (hno _ .enabled true (by simp [frameBitmaps])),
    if_neg (hno _ .enabled false (by simp [frameBitmaps])),
    if_neg (hno _ .pending true (by simp [frameBitmaps])),
    if_neg (hno _ .pending false (by simp [frameBitmaps])),
    if_neg (hno _ .active true (by simp [frameBitmaps])),
    if_neg (hno _ .active false (by simp [frameBitmaps]))]

/-! ## What a frame's bitmap register reads as -/

theorem collectBits_getLsbD (flag : Nat → Bool) (i : Nat) :
    (collectBits flag).getLsbD i = (decide (i < 32) && flag i) := by
  have hrun : ∀ n, n ≤ 32 → ((List.range n).foldl (fun value i =>
      if flag i then value ||| ((1 : U32) <<< i) else value) 0).getLsbD i =
      (decide (i < n) && flag i) := by
    intro n
    induction n with
    | zero => simp
    | succ n ih =>
      intro hn
      rw [List.range_succ, List.foldl_append, List.foldl_cons, List.foldl_nil]
      have hone : ((1 : U32) <<< n).getLsbD i = decide (i = n) := by
        rw [show (1 : U32) = 1#32 from rfl, BitVec.getLsbD_shiftLeft, BitVec.getLsbD_one]
        by_cases hi : i = n
        · subst hi
          simp only [Nat.sub_self, decide_true, Bool.and_true, lt_irrefl, decide_false,
            Bool.not_false]
          rw [decide_eq_true (by omega)]
          decide
        · rw [decide_eq_false hi]
          by_cases hlt : i < n
          · simp [hlt]
          · have hsub : i - n ≠ 0 := by omega
            simp [hsub]
      by_cases hf : flag n = true
      · rw [if_pos hf, BitVec.getLsbD_or, ih (by omega), hone]
        by_cases hi : i = n
        · subst hi
          simp [hf]
        · have hiff : i < n + 1 ↔ i < n := by omega
          simp [hi, hiff]
      · rw [if_neg hf, ih (by omega)]
        by_cases hi : i = n
        · subst hi
          simp [hf]
        · have hiff : i < n + 1 ↔ i < n := by omega
          simp [hiff]
  exact hrun 32 (by omega)

theorem FrameBitmap.read {g : GicV3} {a frame : Nat} {kind : GicBit} {value : Bool}
    (h : FrameBitmap g a frame kind value) :
    ¬ a < kDistSize ∧ g.readRedistReg32 a = collectBits ((g.locals frame).bits kind) := by
  obtain ⟨hc, inner, hm, rfl⟩ := h
  obtain ⟨-, -, hin⟩ := frameBitmaps_lt hm
  obtain ⟨hlo, hd, hdiv, hmod⟩ := frame_decode (f := frame) hin
  refine ⟨hd, ?_⟩
  unfold readRedistReg32
  dsimp only
  rw [if_neg hlo, hdiv, hmod, if_neg (Nat.not_le.2 hc), localCpu, localIdx_of_lt hc]
  simp only [frameBitmaps, List.mem_cons, Prod.mk.injEq, List.not_mem_nil, or_false] at hm
  rcases hm with ⟨rfl, rfl, -⟩ | ⟨rfl, rfl, -⟩ | ⟨rfl, rfl, -⟩ | ⟨rfl, rfl, -⟩ | ⟨rfl, rfl, -⟩ |
    ⟨rfl, rfl, -⟩ <;> rfl

/-! ## Narrow writes -/

/-- The register bits that a narrow write addresses and has set. -/
def narrowPart (off : Nat) (value : U64) (size : Nat) : U32 :=
  (value.setWidth 32 &&& narrowMask size) <<< (off % 4 * 8)

/-- Does a narrow write address bit `i` of its register? -/
def Addresses (off size i : Nat) : Prop := off % 4 * 8 ≤ i ∧ i < off % 4 * 8 + 8 * size

theorem narrowPart_getLsbD {size : Nat} (hsize : size = 1 ∨ size = 2) (off : Nat) (value : U64)
    {i : Nat} (hi : i < 32) :
    (narrowPart off value size).getLsbD i = true ↔
      Addresses off size i ∧ value.getLsbD (i - off % 4 * 8) = true := by
  rw [narrowPart, BitVec.getLsbD_shiftLeft, BitVec.getLsbD_and, narrowMask_getLsbD hsize,
    BitVec.getLsbD_setWidth]
  simp only [Bool.and_eq_true, Bool.not_eq_true', decide_eq_true_eq, decide_eq_false_iff_not,
    Addresses]
  constructor
  · rintro ⟨⟨-, hlo⟩, ⟨-, hv⟩, hhi⟩
    exact ⟨⟨by omega, by omega⟩, hv⟩
  · rintro ⟨⟨hlo, hhi⟩, hv⟩
    exact ⟨⟨hi, by omega⟩, ⟨by omega, hv⟩, by omega⟩

/-- The three ways a narrow write reaches the registers. -/
theorem write_narrow (g : GicV3) (off : Nat) (value : U64) {size : Nat}
    (hsize : size = 1 ∨ size = 2) :
    g.write off value size =
      if isWrite1BitmapRegister (off / 4 * 4) then
        g.write32 (off / 4 * 4) (narrowPart off value size)
      else if off % 4 ≠ 0 then
        g.write32 (off / 4 * 4)
          (((if off / 4 * 4 < kDistSize then g.readDistReg32 (off / 4 * 4)
              else g.readRedistReg32 (off / 4 * 4)) &&& ~~~(narrowMask size <<< (off % 4 * 8))) |||
            narrowPart off value size)
      else g.write32 off (value.setWidth 32) := by
  have hbad : ¬ (size ≠ 1 ∧ size ≠ 2 ∧ size ≠ 4 ∧ size ≠ 8) := by omega
  unfold GicV3.write
  rw [if_neg hbad, if_neg (by omega), if_pos (by omega)]
  rfl

/-- Two decodings that differ only in the selected bits have the same effect exactly when the
bits they differ in hold the assigned value. -/
theorem After.select_iff {g g' : GicV3} {kind : GicBit} {value : Bool} {bank : Bank}
    {sel : Nat → Bool} (h : After g g' (some ⟨kind, value, bank, sel⟩)) (sel' : Nat → Bool) :
    After g g' (some ⟨kind, value, bank, sel'⟩) ↔
      ∀ i, sel i ≠ sel' i → g.bit kind bank i = value := by
  constructor
  · intro h' i hne
    have heq := (h.bits kind bank i).symm.trans (h'.bits kind bank i)
    simp only [afterBitmap, true_and] at heq
    cases hs : sel i <;> cases hs' : sel' i <;> simp_all
  · intro hkeep
    refine ⟨h.shape, fun k b i => (h.bits k b i).trans ?_⟩
    simp only [afterBitmap]
    by_cases hkb : k = kind ∧ b = bank
    · obtain ⟨rfl, rfl⟩ := hkb
      by_cases hs : sel i = sel' i
      · rw [hs]
      · rw [hkeep i hs]
        simp
    · rw [if_neg (by tauto), if_neg (by tauto)]

/-- When a narrow write to a bitmap register is local: the register is listed, or every bit
outside the addressed bytes that the register write has set changes nothing. At a word boundary
these are the value's upper bits, elsewhere the bits that the register reads as set. -/
def BitmapWriteLands (g : GicV3) (off : Nat) (value : U64) (size : Nat) : Prop :=
  isWrite1BitmapRegister (off / 4 * 4) = true ∨
  ∀ frame kind v, FrameBitmap g (off / 4 * 4) frame kind v →
    ∀ i, i < 32 → ¬ Addresses off size i →
      if off % 4 = 0 then value.getLsbD i = true → g.bit kind (.own frame) i = v
      else v = true ∨ g.bit kind (.own frame) i = false

theorem frameSelects_ne {val val' : U32} {i : Nat} (h : frameSelects val i ≠ frameSelects val' i) :
    i < 32 ∧ val.getLsbD i ≠ val'.getLsbD i := by
  have hi : i < 32 := by
    by_contra hge
    simp [frameSelects, kLocalIntIds, hge] at h
  refine ⟨hi, fun heq => h ?_⟩
  rw [frameSelects, frameSelects, heq]

theorem ne_frameSelects {val val' : U32} {i : Nat} (hi : i < 32)
    (h : val.getLsbD i ≠ val'.getLsbD i) : frameSelects val i ≠ frameSelects val' i := by
  simpa [frameSelects, kLocalIntIds, hi] using h

namespace FrameBitmap

variable {g : GicV3} {a off frame size : Nat} {kind : GicBit} {v : Bool} {value : U64}

theorem unique (h : FrameBitmap g a frame kind v) {frame' : Nat} {kind' : GicBit} {v' : Bool}
    (h' : FrameBitmap g a frame' kind' v') : frame' = frame ∧ kind' = kind ∧ v' = v := by
  have heq := (h'.decode 0).symm.trans (h.decode 0)
  simp only [Option.some.injEq, BitmapWrite.mk.injEq, Bank.own.injEq] at heq
  exact ⟨heq.2.2.1, heq.1, heq.2.1⟩

/-- At a word boundary the register write has the value's upper bits. -/
theorem boundary_iff (h : FrameBitmap g off frame kind v) (hsize : size = 1 ∨ size = 2)
    (h0 : off % 4 = 0) :
    After g (g.write32 off (value.setWidth 32))
        (some ⟨kind, v, .own frame, frameSelects (narrowPart off value size)⟩) ↔
      ∀ i, i < 32 → ¬ Addresses off size i → value.getLsbD i = true →
        g.bit kind (.own frame) i = v := by
  have hafter := after_write32 g off (value.setWidth 32)
  rw [h.decode] at hafter
  rw [hafter.select_iff]
  have hpart : ∀ i, i < 32 → ((narrowPart off value size).getLsbD i = true ↔
      Addresses off size i ∧ value.getLsbD i = true) := by
    intro i hi
    have hp := narrowPart_getLsbD hsize off value hi
    rwa [h0, Nat.zero_mul, Nat.sub_zero] at hp
  have hval : ∀ i, i < 32 → (value.setWidth 32).getLsbD i = value.getLsbD i := by
    intro i hi
    simp [hi]
  constructor
  · intro hkeep i hi hout hv
    refine hkeep i (ne_frameSelects hi fun heq => hout ?_)
    rw [hval i hi, hv] at heq
    exact ((hpart i hi).1 heq.symm).1
  · intro hkeep i hne
    obtain ⟨hi, hne⟩ := frameSelects_ne hne
    rw [hval i hi] at hne
    refine hkeep i hi (fun ha => hne ?_) ?_
    · rw [Bool.eq_iff_iff, hpart i hi]
      exact ⟨fun hv => ⟨ha, hv⟩, fun hv => hv.2⟩
    · by_contra hv
      refine hne ?_
      rw [Bool.eq_iff_iff, hpart i hi]
      exact ⟨fun hv' => absurd hv' hv, fun hv' => absurd hv'.2 hv⟩

/-- The register write that a narrow write inside a word is merged into. -/
def mergedValue (g : GicV3) (frame : Nat) (kind : GicBit) (off : Nat) (value : U64) (size : Nat) :
    U32 :=
  (collectBits ((g.locals frame).bits kind) &&& ~~~(narrowMask size <<< (off % 4 * 8))) |||
    narrowPart off value size

/-- The merge differs from the addressed part in the bits that the register reads as set. -/
theorem mergedValue_ne_iff (hsize : size = 1 ∨ size = 2) {i : Nat} (hi : i < 32) :
    (mergedValue g frame kind off value size).getLsbD i ≠
        (narrowPart off value size).getLsbD i ↔
      ¬ Addresses off size i ∧ g.bit kind (.own frame) i = true := by
  have hpart := narrowPart_getLsbD hsize off value hi
  have hmask : (narrowMask size <<< (off % 4 * 8)).getLsbD i = true ↔ Addresses off size i := by
    rw [BitVec.getLsbD_shiftLeft, narrowMask_getLsbD hsize]
    simp only [Bool.and_eq_true, Bool.not_eq_true', decide_eq_true_eq, decide_eq_false_iff_not,
      Addresses]
    omega
  rw [mergedValue, BitVec.getLsbD_or, BitVec.getLsbD_and, BitVec.getLsbD_not,
    collectBits_getLsbD]
  by_cases ha : Addresses off size i
  · simp [hmask.2 ha, ha]
  · have hnp : (narrowPart off value size).getLsbD i = false := by
      rw [← Bool.not_eq_true, hpart]
      exact fun hh => ha hh.1
    have hnm : (narrowMask size <<< (off % 4 * 8)).getLsbD i = false := by
      rw [← Bool.not_eq_true, hmask]
      exact ha
    simp only [hnp, hnm, hi, ha]
    simp [bit]

/-- Inside a word the register write has the bits that the register reads as set. -/
theorem inside_iff (h : FrameBitmap g a frame kind v) (hsize : size = 1 ∨ size = 2) :
    After g (g.write32 a (mergedValue g frame kind off value size))
        (some ⟨kind, v, .own frame, frameSelects (narrowPart off value size)⟩) ↔
      ∀ i, i < 32 → ¬ Addresses off size i → v = true ∨ g.bit kind (.own frame) i = false := by
  have hafter := after_write32 g a (mergedValue g frame kind off value size)
  rw [h.decode] at hafter
  rw [hafter.select_iff]
  constructor
  · intro hkeep i hi hout
    by_cases hset : g.bit kind (.own frame) i = true
    · left
      rw [← hkeep i (ne_frameSelects hi ((mergedValue_ne_iff hsize hi).2 ⟨hout, hset⟩)), hset]
    · exact .inr (Bool.not_eq_true _ ▸ hset)
  · intro hkeep i hne
    obtain ⟨hi, hne⟩ := frameSelects_ne hne
    obtain ⟨hout, hset⟩ := (mergedValue_ne_iff hsize hi).1 hne
    rcases hkeep i hi hout with hv | hclear
    · rw [hset, hv]
    · rw [hset] at hclear
      exact nomatch hclear

end FrameBitmap

/-- A narrow write to a bitmap register acts on the set bits of the addressed bytes alone
exactly when the register is listed or its stray bits make no difference. -/
theorem narrowBitmapWrite_iff (g : GicV3) (off : Nat) (value : U64) (size : Nat)
    (hsize : size = 1 ∨ size = 2) :
    After g (g.write off value size) (g.bitmapWrite (off / 4 * 4) (narrowPart off value size)) ↔
      g.BitmapWriteLands off value size := by
  rw [write_narrow g off value hsize]
  unfold BitmapWriteLands
  by_cases hw : isWrite1BitmapRegister (off / 4 * 4) = true
  · rw [if_pos hw]
    exact ⟨fun _ => .inl hw, fun _ => after_write32 ..⟩
  rw [if_neg hw, or_iff_right hw]
  have haligned : off % 4 = 0 → off / 4 * 4 = off := by omega
  rcases g.bitmapWrite_decode (off / 4 * 4) with hnone | hlisted | ⟨frame, kind, v, hf⟩
  · -- Not a bitmap register: no write to it touches a bit.
    have hafter := fun val => hnone val ▸ after_write32 g (off / 4 * 4) val
    rw [hnone]
    refine ⟨fun _ frame kind v hf => ?_, fun _ => ?_⟩
    · have hsome := hf.decode 0
      rw [hnone] at hsome
      exact nomatch hsome
    · by_cases h0 : off % 4 = 0
      · rw [if_neg (not_not.2 h0), ← haligned h0]
        exact hafter _
      · rw [if_pos h0]
        exact hafter _
  · exact absurd hlisted hw
  · rw [hf.decode]
    by_cases h0 : off % 4 = 0
    · rw [haligned h0] at hf
      simp only [h0, ne_eq, not_true_eq_false, if_false, if_true, haligned h0]
      rw [hf.boundary_iff hsize h0]
      refine ⟨fun hkeep frame' kind' v' hf' => ?_, fun hkeep => hkeep frame kind v hf⟩
      obtain ⟨rfl, rfl, rfl⟩ := hf.unique hf'
      exact hkeep
    · obtain ⟨hd, hread⟩ := hf.read
      simp only [h0, ne_eq, not_false_eq_true, if_true, if_false, hd, hread]
      refine (@FrameBitmap.inside_iff g _ off frame size kind v value hf hsize).trans ?_
      refine ⟨fun hkeep frame' kind' v' hf' => ?_, fun hkeep => hkeep frame kind v hf⟩
      obtain ⟨rfl, rfl, rfl⟩ := hf.unique hf'
      exact hkeep

/-- The controller of two CPUs after a write of `value` to `GICR_ISENABLER0` of frame 0. -/
def withEnabled (value : U64) : GicV3 := (reset 2).write 0xB0100 value 4

/-- With 8 and 30 enabled, a byte write to frame 0's `ICENABLER0` disables 8 of its byte and leaves
30 alone. -/
theorem narrowBitmapWrite_iff_frame0 :
    After (withEnabled 0x40000100) ((withEnabled 0x40000100).write 0xB0181 0xFF 1)
        ((withEnabled 0x40000100).bitmapWrite 0xB0180 (narrowPart 0xB0181 0xFF 1)) ∧
      (withEnabled 0x40000100).bit .enabled (.own 0) 8 = true ∧
      ((withEnabled 0x40000100).write 0xB0181 0xFF 1).bit .enabled (.own 0) 8 = false ∧
      ((withEnabled 0x40000100).write 0xB0181 0xFF 1).bit .enabled (.own 0) 30 = true := by
  have hafter : After (withEnabled 0x40000100) ((withEnabled 0x40000100).write 0xB0181 0xFF 1)
      ((withEnabled 0x40000100).bitmapWrite 0xB0180 (narrowPart 0xB0181 0xFF 1)) :=
    (narrowBitmapWrite_iff (withEnabled 0x40000100) 0xB0181 0xFF 1 (.inl rfl)).2 (.inl (by decide))
  refine ⟨hafter, by decide +kernel, ?_, ?_⟩
  · rw [hafter.bits]
    decide +kernel
  · rw [hafter.bits]
    decide +kernel

/-- In frame 1 a byte write of zero to `ICENABLER0` disables an interrupt of another byte. -/
theorem zeroWrite_disables :
    ¬ ∀ (g : GicV3) (off : Nat) (value : U64) (size : Nat), size = 1 ∨ size = 2 →
      After g (g.write off value size)
        (g.bitmapWrite (off / 4 * 4) (narrowPart off value size)) := by
  intro h
  have hbit := (h ((reset 2).write 0xD0100 0x40000000 4) 0xD0181 0 1 (.inl rfl)).bits
    .enabled (.own 1) 30
  exact absurd hbit (by decide +kernel)

end GicV3
end Aarchvm

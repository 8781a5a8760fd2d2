import Aarchvm.Cpu.BitOrder
import Aarchvm.Cpu.Crc
import Aarchvm.Cpu.Extended

/-!
# One, two and three sources

The words of RBIT, REV, CLZ and CLS, of the divisions, variable shifts and checksums, and of
the multiplications against the pseudocode. The program computes all of them right; it does
not look at all the fixed bits of the first and the last.
-/
namespace Aarchvm

open Lib

namespace Cpu

variable (c : Cpu)

/-! ## One source -/

/-- `sf 1 S 11010110 opcode2 opcode Rn Rd`. -/
def oneSourcePattern : Pattern 32 := ⟨0x5FE00000, 0x5AC00000⟩

theorem oneSource_notPredecoded : NotPredecoded oneSourcePattern := by decide

/-- The words of FEAT_PAuth. -/
def isPauth (insn : U32) : Bool :=
  insn.getLsbD 31 && !insn.getLsbD 29 && decide (bitField insn 16 5 = 1)

/-- The fixed bits of the words of FEAT_PAuth. -/
def pauthPattern : Pattern 32 := ⟨0xFFFF0000, 0xDAC10000⟩

/-- `S` and the field `opcode2` are not looked at but by the guards for FEAT_PAuth. -/
def OneSourceMisexecuted (insn : U32) : Prop :=
  bitField insn 10 6 < 6 ∧ (bitField insn 10 6 = 3 → insn.getLsbD 31 = true) ∧
    (insn.getLsbD 29 = true ∨ bitField insn 16 5 ≠ 0) ∧ isPauth insn = false

/-- The result of the pseudocode for an opcode. -/
def oneSourceResult {w : Nat} (x : BitVec w) (opcode : Nat) : Option (BitVec w) :=
  match opcode with
  | 0 => some x.reverse
  | 1 => some (A64.reverseBytes x 16)
  | 2 => some (A64.reverseBytes x 32)
  | 3 => if w = 64 then some (A64.reverseBytes x 64) else none
  | 4 => some (BitVec.ofNat w (A64.countLeadingZeroBits x))
  | 5 => some (BitVec.ofNat w (A64.countLeadingSignBits x))
  | _ => none

theorem oneSource_eq (w : Nat) (insn : U32) (v : A64.View) :
    A64.oneSource w insn v =
      if insn.getLsbD 29 ∨ bitField insn 16 5 ≠ 0 then none
      else (oneSourceResult (v.x w (bitField insn 5 5)) (bitField insn 10 6)).map
        fun y => .toX (bitField insn 0 5) y none := rfl

theorem halfword_masks {w : Nat} (hw : w = 32 ∨ w = 64) {i : Nat} (hi : i < w) :
    (BitVec.ofNat w 0x00FF00FF00FF00FF).getLsbD i = decide (i % 16 < 8) ∧
      (BitVec.ofNat w 0xFF00FF00FF00FF00).getLsbD i = decide (8 ≤ i % 16) := by
  rcases hw with rfl | rfl
  · revert i
    decide
  · revert i
    decide

/-- The result of the program for an opcode. -/
def oneSourceValue (sf : Bool) (src : U64) (opcode : Nat) : Option U64 :=
  let x := src.setWidth 32
  match opcode with
  | 0 => some (bitReverse src (if sf then 64 else 32))
  | 1 =>
    some (if sf then
      ((src &&& 0x00FF00FF00FF00FF) <<< 8) ||| ((src &&& 0xFF00FF00FF00FF00) >>> 8)
    else (((x &&& 0x00FF00FF) <<< 8) ||| ((x &&& 0xFF00FF00) >>> 8)).setWidth 64)
  | 2 =>
    some (if sf then
      ((bswap32 ((src >>> 32).setWidth 32)).setWidth 64 <<< 32) |||
        (bswap32 ((src &&& 0xFFFFFFFF).setWidth 32)).setWidth 64
    else (bswap32 x).setWidth 64)
  | 3 => if sf then some (bswap64 src) else none
  | 4 =>
    some (BitVec.ofNat 64 (if sf then if src = 0 then 64 else builtinClz src
      else if x = 0 then 32 else builtinClz x))
  | 5 => some (BitVec.ofNat 64 (if sf then cls src else cls x))
  | _ => none

theorem oneSourceValue_wide (x : U64) (opcode : Nat) :
    oneSourceValue true x opcode = oneSourceResult x opcode := by
  match opcode with
  | 0 =>
    have hreverse := bitReverse_eq x (Nat.le_refl 64)
    rw [BitVec.setWidth_eq, BitVec.setWidth_eq] at hreverse
    exact congrArg some hreverse
  | 1 =>
    exact congrArg some (swapBytes_eq x _ _ (by decide)
      (fun i hi => (halfword_masks (.inr rfl) hi).1) fun i hi => (halfword_masks (.inr rfl) hi).2)
  | 2 => exact congrArg some (bswap32_words_eq x)
  | 3 => exact congrArg some (bswap64_eq x)
  | 4 => exact congrArg (fun n => some (BitVec.ofNat 64 n)) (clz_eq x)
  | 5 => exact congrArg (fun n => some (BitVec.ofNat 64 n)) (cls_eq x)
  | n + 6 => rfl

theorem oneSourceValue_narrow (x : U32) (opcode : Nat) :
    (oneSourceValue false (x.setWidth 64) opcode).map (BitVec.setWidth 32) =
      oneSourceResult x opcode := by
  have hnat : ∀ n : Nat, (BitVec.ofNat 64 n).setWidth 32 = BitVec.ofNat 32 n :=
    BitVec.setWidth_ofNat_of_le (by decide)
  match opcode with
  | 0 => exact congrArg some (bitReverse_eq x (by decide))
  | 1 =>
    change some (BitVec.setWidth 32 (BitVec.setWidth 64 _)) = some (A64.reverseBytes x 16)
    rw [setWidth_low32, setWidth_low32]
    exact congrArg some (swapBytes_eq x _ _ (by decide)
      (fun i hi => (halfword_masks (.inl rfl) hi).1) fun i hi => (halfword_masks (.inl rfl) hi).2)
  | 2 =>
    change some (BitVec.setWidth 32 (BitVec.setWidth 64 (bswap32 _))) = _
    rw [setWidth_low32, setWidth_low32]
    exact congrArg some (bswap32_eq x)
  | 3 => rfl
  | 4 =>
    change some (BitVec.setWidth 32 (BitVec.ofNat 64 (if (x.setWidth 64).setWidth 32 = 0 then 32
      else builtinClz ((x.setWidth 64).setWidth 32)))) = _
    rw [setWidth_low32, hnat]
    exact congrArg (fun n => some (BitVec.ofNat 32 n)) (clz_eq x)
  | 5 =>
    change some (BitVec.setWidth 32 (BitVec.ofNat 64 (cls ((x.setWidth 64).setWidth 32)))) = _
    rw [setWidth_low32, hnat]
    exact congrArg (fun n => some (BitVec.ofNat 32 n)) (cls_eq x)
  | n + 6 => rfl

theorem oneSourceValue_eq (sf : Bool) (x : BitVec (widthOf sf)) (opcode : Nat) :
    (oneSourceValue sf (x.setWidth 64) opcode).map (BitVec.setWidth (widthOf sf)) =
      oneSourceResult x opcode := by
  cases sf with
  | true =>
    have hid : BitVec.setWidth (w := 64) 64 = id := funext fun y => BitVec.setWidth_eq y
    change (oneSourceValue true (BitVec.setWidth (w := 64) 64 x) opcode).map
      (BitVec.setWidth (w := 64) 64) = _
    rw [hid, Option.map_id]
    exact oneSourceValue_wide x opcode
  | false => exact oneSourceValue_narrow x opcode

theorem execOneSource_eq (insn : U32) :
    c.execOneSource insn =
      (oneSourceResult (c.a64View.x (A64.width insn) (bitField insn 5 5)) (bitField insn 10 6)).map
        fun y => c.apply (.toX (bitField insn 0 5) y none) := by
  have hrn : bitField insn 5 5 < 32 := bitField_lt insn 5 5
  have hbody : c.execOneSource insn =
      (oneSourceValue (insn.getLsbD 31) (c.regOf (insn.getLsbD 31) (bitField insn 5 5))
        (bitField insn 10 6)).map (c.setRegOf (insn.getLsbD 31) (bitField insn 0 5)) := rfl
  have hset : c.setRegOf (insn.getLsbD 31) (bitField insn 0 5) =
      (fun y => c.apply (.toX (bitField insn 0 5) y none)) ∘
        BitVec.setWidth (widthOf (insn.getLsbD 31)) :=
    funext fun value => c.setRegOf_apply _ _ value
  rw [hbody, hset, ← Option.map_map, c.regOf_eq hrn, oneSourceValue_eq]
  rfl

section OneSource

variable {insn : U32} (h : oneSourcePattern.Matches insn = true)
include h

/-- The fixed fields of the class but the opcode. -/
theorem oneSource_fields :
    (((oneSourcePattern.withField 16 5 (bitField insn 16 5)).withBit 31
      (insn.getLsbD 31)).withBit 29 (insn.getLsbD 29)).Matches insn = true :=
  Pattern.matches_withBit (Pattern.matches_withBit
    (Pattern.matches_withField h 16 5) 31) 29

theorem not_matches_pauth (hguard : isPauth insn = false) :
    pauthPattern.Matches insn = false := by
  have hfields := oneSource_fields h
  have hop2 : bitField insn 16 5 < 32 := bitField_lt insn 16 5
  refine Pattern.not_matches_of_conflicts ?_ hfields
  clear hfields
  rw [isPauth] at hguard
  generalize bitField insn 16 5 = opcode2 at *
  generalize insn.getLsbD 31 = sf at *
  generalize insn.getLsbD 29 = s at *
  revert sf s hop2 opcode2
  decide

/-- The guards take the words of FEAT_PAuth only. -/
theorem guards_of_not_pauth (hguard : isPauth insn = false) :
    Pattern.decode integerGuards insn = none := by
  have hguards : ∀ e ∈ integerGuards,
      e.1.Conflicts oneSourcePattern = true ∨ e.1.Implies pauthPattern = true := by decide
  cases hdecode : Pattern.decode integerGuards insn with
  | none => rfl
  | some op =>
    obtain ⟨p, hmem, hmatch⟩ := Pattern.mem_of_decode hdecode
    rcases hguards _ hmem with hconflict | himplies
    · exact Bool.noConfusion ((Pattern.not_matches_of_conflicts hconflict h).symm.trans hmatch)
    · exact Bool.noConfusion ((not_matches_pauth h hguard).symm.trans
        (Pattern.matches_of_implies himplies hmatch))

theorem execInteger_oneSource (predecode : Bool) (hguard : isPauth insn = false) :
    c.execInteger predecode insn = (c.execOneSource insn).getD c.undefined := by
  have hfield := Pattern.matches_withField h 10 6
  have hopcode : bitField insn 10 6 < 64 := bitField_lt insn 10 6
  by_cases hsix : bitField insn 10 6 < 6
  · have hcases : integerCases = integerGuards ++ integerCases.drop 21 := rfl
    have hrest : Pattern.decode (integerCases.drop 21) insn = some .oneSource := by
      refine Pattern.decode_of_first_within h hfield ?_
      clear hfield hopcode
      generalize bitField insn 10 6 = opcode at *
      revert opcode
      decide
    have hop : Pattern.decode integerCases insn = some .oneSource := by
      rw [hcases, Pattern.decode_append, guards_of_not_pauth h hguard, hrest]
      rfl
    exact c.execInteger_plain predecode oneSource_notPredecoded h hop
  · have hrefused : RefusedWithin oneSourcePattern
        (oneSourcePattern.withField 10 6 (bitField insn 10 6)) := by
      clear hfield hguard
      generalize bitField insn 10 6 = opcode at *
      revert opcode
      decide
    have hnone : c.execOneSource insn = none := by
      rw [execOneSource_eq]
      obtain ⟨k, hk⟩ := Nat.exists_eq_add_of_le (Nat.le_of_not_lt hsix)
      rw [hk, Nat.add_comm]
      rfl
    rw [c.execInteger_refused_within predecode oneSource_notPredecoded h hrefused hfield, hnone]
    rfl

theorem execInteger_oneSource_guarded (predecode : Bool)
    (hguard : isPauth insn = true) :
    c.execInteger predecode insn = c.undefined := by
  have hfields := Pattern.matches_withField (oneSource_fields h) 10 6
  have hopcode : bitField insn 10 6 < 64 := bitField_lt insn 10 6
  rw [isPauth, Bool.and_eq_true, Bool.and_eq_true, Bool.not_eq_true', decide_eq_true_iff] at hguard
  rw [hguard.1.1, hguard.1.2, hguard.2] at hfields
  refine c.execInteger_refused_within predecode oneSource_notPredecoded h ?_ hfields
  clear hfields
  generalize bitField insn 10 6 = opcode at *
  revert opcode
  decide

omit h in
theorem oneSourceResult_eq_none_iff (v : A64.View) (n : Nat) :
    oneSourceResult (v.x (A64.width insn) n) (bitField insn 10 6) = none ↔
      ¬ (bitField insn 10 6 < 6 ∧ (bitField insn 10 6 = 3 → insn.getLsbD 31 = true)) := by
  have hw : A64.width insn = 64 ↔ insn.getLsbD 31 = true := by
    rw [width_eq]
    cases insn.getLsbD 31 <;> decide
  generalize v.x (A64.width insn) n = x
  rw [← hw]
  match bitField insn 10 6 with
  | 0 => simp [oneSourceResult]
  | 1 => simp [oneSourceResult]
  | 2 => simp [oneSourceResult]
  | 3 => simp [oneSourceResult]
  | 4 => simp [oneSourceResult]
  | 5 => simp [oneSourceResult]
  | k + 6 => simp [oneSourceResult]

theorem oneSource_conforms_iff :
    Conforms A64.oneSource insn ↔ ¬ OneSourceMisexecuted insn := by
  constructor
  · rintro hall ⟨hsix, hthree, hfixed, hguard⟩
    have hcode := execInteger_oneSource (Cpu.reset 0 0 0) h false hguard
    have hresult := mt (oneSourceResult_eq_none_iff (Cpu.reset 0 0 0).a64View
      (bitField insn 5 5)).1 (not_not.2 ⟨hsix, hthree⟩)
    obtain ⟨y, hy⟩ := Option.ne_none_iff_exists'.1 hresult
    rw [execOneSource_eq, hy, Option.map_some, Option.getD_some] at hcode
    refine not_conforms_of_none ?_ hcode hall
    rw [oneSource_eq]
    exact if_pos hfixed
  · intro hok c predecode
    cases hguard : isPauth insn with
    | true =>
      have hfixed : insn.getLsbD 29 = true ∨ bitField insn 16 5 ≠ 0 := by
        rw [isPauth, Bool.and_eq_true, decide_eq_true_iff] at hguard
        omega
      rw [execInteger_oneSource_guarded c h predecode hguard, oneSource_eq, if_pos hfixed]
      rfl
    | false =>
      rw [execInteger_oneSource c h predecode hguard, execOneSource_eq, oneSource_eq]
      by_cases hfixed : insn.getLsbD 29 = true ∨ bitField insn 16 5 ≠ 0
      · have hnone := (oneSourceResult_eq_none_iff c.a64View (bitField insn 5 5)).2
          fun hin => hok ⟨hin.1, hin.2, hfixed, hguard⟩
        rw [hnone, if_pos hfixed]
        rfl
      · rw [if_neg hfixed]
        cases oneSourceResult (c.a64View.x (A64.width insn) (bitField insn 5 5))
          (bitField insn 10 6) <;> rfl

end OneSource

/-! ## Two sources -/

/-- `sf 0 S 11010110 Rm opcode Rn Rd`. -/
def twoSourcePattern : Pattern 32 := ⟨0x5FE00000, 0x1AC00000⟩

theorem twoSource_notPredecoded : NotPredecoded twoSourcePattern := by decide

/-- The body for an opcode. -/
def twoSourceOp (sf : Bool) (opcode : Nat) : Option IntegerOp :=
  if opcode = 2 ∨ opcode = 3 then some .div
  else if opcode / 4 = 2 then some .shiftVariable
  else if opcode / 8 = 2 ∧ (opcode % 4 = 3 ↔ sf = true) then
    some (.crc32 (1 <<< (opcode % 4)) (if opcode / 4 % 2 = 1 then 0x82F63B78 else 0xEDB88320))
  else none

theorem execDiv_eq (insn : U32) :
    c.execDiv insn = some (c.apply (.toX (bitField insn 0 5)
      (quotient (insn.getLsbD 10) (c.a64View.x (A64.width insn) (bitField insn 5 5))
        (c.a64View.x (A64.width insn) (bitField insn 16 5))) none)) := by
  have hrn : bitField insn 5 5 < 32 := bitField_lt insn 5 5
  have hrm : bitField insn 16 5 < 32 := bitField_lt insn 16 5
  rw [execDiv, width_eq]
  cases insn.getLsbD 31 with
  | true =>
    rw [if_pos rfl, setReg_apply, c.reg_eq hrn, c.reg_eq hrm]
    rfl
  | false =>
    rw [if_neg Bool.false_ne_true, setReg32_apply, c.reg32_eq hrn, c.reg32_eq hrm]
    rfl

theorem setWidth_ushiftRight_back {sf : Bool} (x : BitVec (widthOf sf)) (n : Nat) :
    ((x.setWidth 64) >>> n).setWidth (widthOf sf) = x >>> n := by
  have hw := widthOf_le sf
  apply BitVec.eq_of_getLsbD_eq
  intro i hi
  rw [BitVec.getLsbD_setWidth, BitVec.getLsbD_ushiftRight, BitVec.getLsbD_ushiftRight,
    BitVec.getLsbD_setWidth, decide_eq_true hi, Bool.true_and]
  by_cases hin : n + i < 64
  · rw [decide_eq_true hin, Bool.true_and]
  · rw [decide_eq_false hin, BitVec.getLsbD_of_ge x _ (by omega), Bool.false_and]

theorem shiftAmount_eq (insn : U32) :
    (if insn.getLsbD 31 then c.reg (bitField insn 16 5) &&& 63
      else (c.reg32 (bitField insn 16 5)).setWidth 64 &&& 31).toNat =
        (c.a64View.x (A64.width insn) (bitField insn 16 5)).toNat % A64.width insn := by
  have hrm : bitField insn 16 5 < 32 := bitField_lt insn 16 5
  rw [width_eq]
  cases insn.getLsbD 31 with
  | true =>
    rw [if_pos rfl, c.reg_eq hrm]
    exact Nat.and_two_pow_sub_one_eq_mod _ 6
  | false =>
    have hlow : ((c.reg32 (bitField insn 16 5)).setWidth 64).toNat =
        (c.reg32 (bitField insn 16 5)).toNat := by
      rw [BitVec.toNat_setWidth]
      exact Nat.mod_eq_of_lt (by omega)
    have hmod := Nat.and_two_pow_sub_one_eq_mod ((c.reg32 (bitField insn 16 5)).setWidth 64).toNat 5
    rw [if_neg Bool.false_ne_true]
    refine hmod.trans ?_
    rw [hlow, c.reg32_eq hrm]
    rfl

/-- The result of a variable shift of the program. -/
def shiftValue (sf : Bool) (src : U64) (type amount : Nat) : U64 :=
  let width := if sf then 64 else 32
  let mask := ones width
  match type with
  | 0 => (src <<< amount) &&& mask
  | 1 => (src &&& mask) >>> amount
  | 2 =>
    if sf then src.sshiftRight amount
    else ((src.setWidth 32).sshiftRight amount).setWidth 64
  | _ => ror src amount width

theorem shiftValue_eq (sf : Bool) (x : BitVec (widthOf sf)) (type amount : Nat) :
    (shiftValue sf (x.setWidth 64) type amount).setWidth (widthOf sf) =
      A64.shiftReg x type amount := by
  have hw := widthOf_le sf
  have hpos : 0 < widthOf sf := by cases sf <;> decide
  match type with
  | 0 =>
    change ((x.setWidth 64 <<< amount) &&& ones (widthOf sf)).setWidth (widthOf sf) = x <<< amount
    rw [and_ones_eq, setWidth_back, BitVec.setWidth_shiftLeft_of_le hw, setWidth_back]
  | 1 =>
    change ((x.setWidth 64 &&& ones (widthOf sf)) >>> amount).setWidth (widthOf sf) = x >>> amount
    rw [and_ones_eq, setWidth_back, setWidth_ushiftRight_back]
  | 2 =>
    cases sf with
    | true =>
      change ((BitVec.setWidth (w := 64) 64 x).sshiftRight amount).setWidth 64 = _
      rw [BitVec.setWidth_eq, BitVec.setWidth_eq]
      rfl
    | false =>
      change ((((BitVec.setWidth 64 x).setWidth 32).sshiftRight amount).setWidth 64).setWidth 32 = _
      rw [setWidth_low32, setWidth_low32]
      rfl
  | n + 3 =>
    change (ror (x.setWidth 64) amount (widthOf sf)).setWidth (widthOf sf) = x.rotateRight amount
    rw [ror_eq x hpos hw, setWidth_back]

theorem execShiftVariable_eq (insn : U32) :
    c.execShiftVariable insn = some (c.apply (.toX (bitField insn 0 5)
      (A64.shiftReg (c.a64View.x (A64.width insn) (bitField insn 5 5)) (bitField insn 10 2)
        ((c.a64View.x (A64.width insn) (bitField insn 16 5)).toNat % A64.width insn)) none)) := by
  have hrn : bitField insn 5 5 < 32 := bitField_lt insn 5 5
  have hbody : c.execShiftVariable insn = some (c.setRegOf (insn.getLsbD 31) (bitField insn 0 5)
      (shiftValue (insn.getLsbD 31) (c.regOf (insn.getLsbD 31) (bitField insn 5 5))
        (bitField insn 10 2) (if insn.getLsbD 31 then c.reg (bitField insn 16 5) &&& 63
          else (c.reg32 (bitField insn 16 5)).setWidth 64 &&& 31).toNat)) := rfl
  rw [hbody, shiftAmount_eq, setRegOf_apply, c.regOf_eq hrn, shiftValue_eq]
  rfl

/-- A checksum of `8 <<< k` bits. -/
theorem execCrc32_eq (insn : U32) {k : Nat} (hk : k < 4) {polyReflected poly : U32}
    (hpoly : polyReflected = poly.reverse) :
    c.execCrc32 insn (1 <<< k) polyReflected = some (c.apply (.toX (bitField insn 0 5)
      (A64.crc32 (c.a64View.x 32 (bitField insn 5 5))
        (c.a64View.x (8 <<< k) (bitField insn 16 5)) poly) none)) := by
  have hrn : bitField insn 5 5 < 32 := bitField_lt insn 5 5
  have hrm : bitField insn 16 5 < 32 := bitField_lt insn 16 5
  have hlen : 8 <<< k = 8 * (1 <<< k) := by
    rw [Nat.shiftLeft_eq, Nat.shiftLeft_eq, Nat.one_mul]
  have hdata : (if 1 <<< k = 8 then c.reg (bitField insn 16 5)
      else (c.reg32 (bitField insn 16 5)).setWidth 64).setWidth (8 * (1 <<< k)) =
      c.a64View.x (8 * (1 <<< k)) (bitField insn 16 5) := by
    rw [c.x_eq_reg _ hrm, reg32]
    split
    · rfl
    · next hne =>
      have hle : 8 * (1 <<< k) ≤ 32 := by
        rcases (show k = 0 ∨ k = 1 ∨ k = 2 ∨ k = 3 by omega) with rfl | rfl | rfl | rfl
        · decide
        · decide
        · decide
        · exact absurd rfl hne
      rw [BitVec.setWidth_setWidth_of_le _ (Nat.le_trans hle (by decide)),
        BitVec.setWidth_setWidth_of_le _ hle]
  rw [execCrc32, setReg32_apply, c.reg32_eq hrn, crc32Update_eq _ _ _ hpoly, hdata, hlen]

section TwoSource

variable {insn : U32} (h : twoSourcePattern.Matches insn = true)
include h

theorem execInteger_twoSource_of_set (predecode : Bool) (hs : insn.getLsbD 29 = true) :
    c.execInteger predecode insn = c.undefined := by
  have hbit := Pattern.matches_withBit h 29
  rw [hs] at hbit
  have hrefused : Refused (twoSourcePattern.withBit 29 true) := by decide
  exact c.execInteger_refused predecode twoSource_notPredecoded h hrefused hbit

/-- Without `S` the opcode and the width select a body. -/
theorem execInteger_twoSource (predecode : Bool) (hs : insn.getLsbD 29 = false) :
    c.execInteger predecode insn =
      ((twoSourceOp (insn.getLsbD 31) (bitField insn 10 6)).bind (c.execIntegerOp insn)).getD
        c.undefined := by
  have hfields := Pattern.matches_withBit (Pattern.matches_withBit
    (Pattern.matches_withField h 10 6) 31) 29
  have hopcode : bitField insn 10 6 < 64 := bitField_lt insn 10 6
  rw [hs] at hfields
  have hdecode : ∀ opcode < 64, ∀ sf : Bool,
      if (twoSourceOp sf opcode).isSome then
        Pattern.first (integerCases.filter fun e => !e.1.Conflicts twoSourcePattern)
          (((twoSourcePattern.withField 10 6 opcode).withBit 31 sf).withBit 29 false) =
            (twoSourceOp sf opcode).map fun op => (op, true)
      else RefusedWithin twoSourcePattern
        (((twoSourcePattern.withField 10 6 opcode).withBit 31 sf).withBit 29 false) := by
    decide
  have hcase := hdecode _ hopcode (insn.getLsbD 31)
  cases hop : twoSourceOp (insn.getLsbD 31) (bitField insn 10 6) with
  | none =>
    rw [hop] at hcase
    exact c.execInteger_refused_within predecode twoSource_notPredecoded h hcase hfields
  | some op =>
    rw [hop] at hcase
    exact c.execInteger_plain predecode twoSource_notPredecoded h
      (Pattern.decode_of_first_within h hfields hcase)

theorem twoSource_conforms : Conforms A64.twoSource insn := by
  intro c predecode
  have hwidth : A64.width insn = 64 ↔ insn.getLsbD 31 = true := by
    rw [width_eq]
    cases insn.getLsbD 31 <;> decide
  have hbit : insn.getLsbD 10 = (bitField insn 10 6).testBit 0 :=
    (testBit_bitField insn 10 (show 0 < 6 by decide)).symm
  have htype : bitField insn 10 2 = bitField insn 10 6 % 4 :=
    (bitField_mod insn 10 (show 2 ≤ 6 by decide)).symm
  rw [A64.twoSource]
  dsimp only
  by_cases hs : insn.getLsbD 29 = true
  · rw [execInteger_twoSource_of_set c h predecode hs, if_pos hs]
    rfl
  · rw [execInteger_twoSource c h predecode (Bool.eq_false_iff.2 hs), if_neg hs, twoSourceOp]
    by_cases htwo : bitField insn 10 6 = 2
    · rw [if_pos (.inl htwo), if_pos htwo, Option.bind_some]
      change (c.execDiv insn).getD c.undefined = _
      rw [execDiv_eq, hbit, htwo]
      exact congrArg (fun y => c.apply (.toX _ y none)) (quotient_unsigned ..)
    by_cases hthree : bitField insn 10 6 = 3
    · rw [if_pos (.inr hthree), if_neg htwo, if_pos hthree, Option.bind_some]
      change (c.execDiv insn).getD c.undefined = _
      rw [execDiv_eq, hbit, hthree]
      exact congrArg (fun y => c.apply (.toX _ y none)) (quotient_signed ..)
    rw [if_neg (not_or.2 ⟨htwo, hthree⟩), if_neg htwo, if_neg hthree]
    by_cases hshift : bitField insn 10 6 / 4 = 2
    · rw [if_pos hshift, if_pos hshift, Option.bind_some]
      change (c.execShiftVariable insn).getD c.undefined = _
      rw [execShiftVariable_eq, htype]
      rfl
    rw [if_neg hshift, if_neg hshift]
    by_cases hcrc : bitField insn 10 6 / 8 = 2 ∧
        (bitField insn 10 6 % 4 = 3 ↔ insn.getLsbD 31 = true)
    · have hk : bitField insn 10 6 % 4 < 4 := Nat.mod_lt _ (by decide)
      have hspec :
        bitField insn 10 6 / 8 = 2 ∧ (bitField insn 10 6 % 4 = 3 ↔ A64.width insn = 64) :=
        ⟨hcrc.1, hcrc.2.trans hwidth.symm⟩
      rw [if_pos hcrc, if_pos hspec, Option.bind_some]
      by_cases hpoly : bitField insn 10 6 / 4 % 2 = 1
      · simp only [if_pos hpoly]
        change (c.execCrc32 insn (1 <<< (bitField insn 10 6 % 4)) 0x82F63B78).getD c.undefined = _
        rw [c.execCrc32_eq insn hk (show _ = BitVec.reverse 0x1EDC6F41 by decide +kernel)]
        rfl
      · simp only [if_neg hpoly]
        change (c.execCrc32 insn (1 <<< (bitField insn 10 6 % 4)) 0xEDB88320).getD c.undefined = _
        rw [c.execCrc32_eq insn hk (show _ = BitVec.reverse 0x04C11DB7 by decide +kernel)]
        rfl
    · rw [if_neg hcrc, if_neg fun hspec => hcrc ⟨hspec.1, hspec.2.trans hwidth⟩]
      rfl

end TwoSource

/-! ## Three sources -/

/-- `sf op54 11011 op31 Rm o0 Ra Rn Rd`. -/
def threeSourcePattern : Pattern 32 := ⟨0x1F000000, 0x1B000000⟩

theorem threeSource_notPredecoded : NotPredecoded threeSourcePattern := by decide

/-- MADD and MSUB are run whatever stands in the field `op54`. -/
def ThreeSourceMisexecuted (insn : U32) : Prop := bitField insn 29 2 ≠ 0 ∧ bitField insn 21 3 = 0

/-- The fields of SMULH and UMULH but `Ra`. -/
def isMulHigh (insn : U32) : Bool :=
  insn.getLsbD 31 && decide (bitField insn 29 2 = 0) && !insn.getLsbD 15 &&
    (decide (bitField insn 21 3 = 2) || decide (bitField insn 21 3 = 6))

/-- The field `Ra` of SMULH and UMULH should be one; other words may be refused. -/
def MulHighUnpredictable (insn : U32) : Prop := isMulHigh insn = true ∧ bitField insn 10 5 ≠ 31

theorem execMaddMsub_eq (insn : U32) :
    c.execMaddMsub insn = some (c.apply (
      let w := A64.width insn
      let product := c.a64View.x w (bitField insn 5 5) * c.a64View.x w (bitField insn 16 5)
      .toX (bitField insn 0 5) (if insn.getLsbD 15 then c.a64View.x w (bitField insn 10 5) - product
        else c.a64View.x w (bitField insn 10 5) + product) none)) := by
  have hrn : bitField insn 5 5 < 32 := bitField_lt insn 5 5
  have hrm : bitField insn 16 5 < 32 := bitField_lt insn 16 5
  have hra : bitField insn 10 5 < 32 := bitField_lt insn 10 5
  rw [execMaddMsub, width_eq]
  cases insn.getLsbD 31 with
  | true =>
    rw [if_pos rfl, c.reg_eq hrn, c.reg_eq hrm, c.reg_eq hra]
    dsimp only
    rw [setReg_apply]
    rfl
  | false =>
    rw [if_neg Bool.false_ne_true, c.reg32_eq hrn, c.reg32_eq hrm, c.reg32_eq hra]
    rfl

theorem execMaddMsubLong_eq (insn : U32) :
    c.execMaddMsubLong insn = some (c.apply (
      let n := c.a64View.x 32 (bitField insn 5 5)
      let m := c.a64View.x 32 (bitField insn 16 5)
      let acc := (c.a64View.x 64 (bitField insn 10 5)).toInt
      let product : Int := if insn.getLsbD 23 then n.toNat * m.toNat else n.toInt * m.toInt
      .toX (bitField insn 0 5)
        (BitVec.ofInt 64 (if insn.getLsbD 15 then acc - product else acc + product)) none)) := by
  have hrn : bitField insn 5 5 < 32 := bitField_lt insn 5 5
  have hrm : bitField insn 16 5 < 32 := bitField_lt insn 16 5
  have hra : bitField insn 10 5 < 32 := bitField_lt insn 10 5
  rw [execMaddMsubLong, c.reg32_eq hrn, c.reg32_eq hrm, c.reg_eq hra]
  dsimp only
  rw [setReg_apply]
  cases insn.getLsbD 23 with
  | true =>
    rw [if_pos rfl, if_pos rfl, accumulate_eq _ _ _ (longProduct_unsigned _ _)]
  | false =>
    rw [if_neg Bool.false_ne_true, if_neg Bool.false_ne_true,
      accumulate_eq _ _ _ (longProduct_signed _ _)]

theorem execMulHigh_eq (insn : U32) :
    c.execMulHigh insn = some (c.apply (
      let n := c.a64View.x 64 (bitField insn 5 5)
      let m := c.a64View.x 64 (bitField insn 16 5)
      .toX (bitField insn 0 5) (if insn.getLsbD 23 then
        BitVec.ofNat 64 (n.toNat * m.toNat / 2 ^ 64)
        else BitVec.ofInt 64 (n.toInt * m.toInt / 2 ^ 64)) none)) := by
  have hrn : bitField insn 5 5 < 32 := bitField_lt insn 5 5
  have hrm : bitField insn 16 5 < 32 := bitField_lt insn 16 5
  rw [execMulHigh, c.reg_eq hrn, c.reg_eq hrm]
  dsimp only
  rw [setReg_apply, umulh64_eq, smulh64_eq]

section ThreeSource

variable {insn : U32} (h : threeSourcePattern.Matches insn = true)
include h

theorem execInteger_madd (predecode : Bool) (hop31 : bitField insn 21 3 = 0) :
    c.execInteger predecode insn = (c.execMaddMsub insn).getD c.undefined := by
  have hfields := Pattern.matches_withBit (Pattern.matches_withField h 21 3) 15
  rw [hop31] at hfields
  have hop : Pattern.decode integerCases insn = some .maddMsub := by
    refine Pattern.decode_of_first_within h hfields ?_
    cases insn.getLsbD 15 <;> decide
  exact c.execInteger_plain predecode threeSource_notPredecoded h hop

omit h in
/-- The fields of SMADDL, SMSUBL, UMADDL and UMSUBL. -/
def isLong (insn : U32) : Bool :=
  insn.getLsbD 31 && decide (bitField insn 29 2 = 0) &&
    (decide (bitField insn 21 3 = 1) || decide (bitField insn 21 3 = 5))

theorem threeSource_fields :
    ((((threeSourcePattern.withField 21 3 (bitField insn 21 3)).withField 29 2
      (bitField insn 29 2)).withBit 31 (insn.getLsbD 31)).withBit 15
        (insn.getLsbD 15)).Matches insn = true :=
  Pattern.matches_withBit (Pattern.matches_withBit (Pattern.matches_withField
    (Pattern.matches_withField h 21 3) 29 2) 31) 15

theorem execInteger_long (predecode : Bool) (hlong : isLong insn = true) :
    c.execInteger predecode insn = (c.execMaddMsubLong insn).getD c.undefined := by
  have hfields := threeSource_fields h
  rw [isLong, Bool.and_eq_true, Bool.and_eq_true, Bool.or_eq_true, decide_eq_true_iff,
    decide_eq_true_iff, decide_eq_true_iff] at hlong
  obtain ⟨⟨hsf, hop54⟩, hop31⟩ := hlong
  rw [hsf, hop54] at hfields
  have hop : Pattern.decode integerCases insn = some .maddMsubLong := by
    refine Pattern.decode_of_first_within h hfields ?_
    rcases hop31 with hop31 | hop31
    · rw [hop31]
      cases insn.getLsbD 15 <;> decide
    · rw [hop31]
      cases insn.getLsbD 15 <;> decide
  exact c.execInteger_plain predecode threeSource_notPredecoded h hop

theorem execInteger_mulHigh (predecode : Bool) (hhigh : isMulHigh insn = true) :
    c.execInteger predecode insn =
      if bitField insn 10 5 = 31 then (c.execMulHigh insn).getD c.undefined else c.undefined := by
  rw [isMulHigh, Bool.and_eq_true, Bool.and_eq_true, Bool.and_eq_true, Bool.or_eq_true,
    Bool.not_eq_true', decide_eq_true_iff, decide_eq_true_iff, decide_eq_true_iff] at hhigh
  obtain ⟨⟨⟨hsf, hop54⟩, ho0⟩, hop31⟩ := hhigh
  have hfields := Pattern.matches_withField (threeSource_fields h) 10 5
  have hra : bitField insn 10 5 < 32 := bitField_lt insn 10 5
  rw [hsf, hop54, ho0] at hfields
  by_cases hone : bitField insn 10 5 = 31
  · rw [hone] at hfields
    have hop : Pattern.decode integerCases insn = some .mulHigh := by
      refine Pattern.decode_of_first_within h hfields ?_
      rcases hop31 with hop31 | hop31
      · rw [hop31]
        decide
      · rw [hop31]
        decide
    rw [if_pos hone]
    exact c.execInteger_plain predecode threeSource_notPredecoded h hop
  · rw [if_neg hone]
    refine c.execInteger_refused_within predecode threeSource_notPredecoded h ?_ hfields
    clear hfields
    generalize bitField insn 10 5 = ra at *
    rcases hop31 with hop31 | hop31
    · rw [hop31]
      revert ra
      decide
    · rw [hop31]
      revert ra
      decide

theorem execInteger_threeSource_refused (predecode : Bool)
    (hother : (isLong insn || isMulHigh insn || decide (bitField insn 21 3 = 0)) = false) :
    c.execInteger predecode insn = c.undefined := by
  have hfields := threeSource_fields h
  have hop31 : bitField insn 21 3 < 8 := bitField_lt insn 21 3
  have hop54 : bitField insn 29 2 < 4 := bitField_lt insn 29 2
  refine c.execInteger_refused_within predecode threeSource_notPredecoded h ?_ hfields
  clear hfields
  rw [isLong, isMulHigh] at hother
  generalize bitField insn 21 3 = op31 at *
  generalize bitField insn 29 2 = op54 at *
  generalize insn.getLsbD 31 = sf at *
  generalize insn.getLsbD 15 = o0 at *
  revert o0 sf
  revert op31
  revert op54
  decide

omit h in
theorem threeSource_of_other (hop31 : bitField insn 21 3 ≠ 0) (hlong : isLong insn = false)
    (hhigh : isMulHigh insn = false) (v : A64.View) :
    A64.threeSource (A64.width insn) insn v = none := by
  have hlt : bitField insn 21 3 < 8 := bitField_lt insn 21 3
  have hwidth : A64.width insn = 64 ↔ insn.getLsbD 31 = true := by
    rw [width_eq]
    cases insn.getLsbD 31 <;> decide
  rw [A64.threeSource]
  by_cases hop54 : bitField insn 29 2 = 0
  · rw [if_neg (not_not.2 hop54)]
    rw [isLong, hop54] at hlong
    rw [isMulHigh, hop54] at hhigh
    have hcases : bitField insn 21 3 = 1 ∨ bitField insn 21 3 = 5 ∨ bitField insn 21 3 = 2 ∨
        bitField insn 21 3 = 6 ∨ bitField insn 21 3 = 3 ∨ bitField insn 21 3 = 4 ∨
        bitField insn 21 3 = 7 := by omega
    rcases hcases with hcase | hcase | hcase | hcase | hcase | hcase | hcase
    · rw [hcase] at hlong ⊢
      refine if_neg fun hw => ?_
      rw [hwidth.1 hw] at hlong
      exact absurd hlong (by decide)
    · rw [hcase] at hlong ⊢
      refine if_neg fun hw => ?_
      rw [hwidth.1 hw] at hlong
      exact absurd hlong (by decide)
    · rw [hcase] at hhigh ⊢
      refine if_neg fun hw => ?_
      rw [hwidth.1 hw.1, Bool.eq_false_iff.2 hw.2] at hhigh
      exact absurd hhigh (by decide)
    · rw [hcase] at hhigh ⊢
      refine if_neg fun hw => ?_
      rw [hwidth.1 hw.1, Bool.eq_false_iff.2 hw.2] at hhigh
      exact absurd hhigh (by decide)
    · rw [hcase]
      rfl
    · rw [hcase]
      rfl
    · rw [hcase]
      rfl
  · exact if_pos hop54

/-- A word that is not reserved to ones does what the pseudocode says, or has `op54` set. -/
theorem threeSource_conforms_iff (hones : ¬ MulHighUnpredictable insn) :
    Conforms A64.threeSource insn ↔ ¬ ThreeSourceMisexecuted insn := by
  have hwidth : A64.width insn = 64 ↔ insn.getLsbD 31 = true := by
    rw [width_eq]
    cases insn.getLsbD 31 <;> decide
  have hbit : insn.getLsbD 23 = (bitField insn 21 3).testBit 2 :=
    (testBit_bitField insn 21 (show 2 < 3 by decide)).symm
  constructor
  · rintro hall ⟨hop54, hop31⟩
    have hcode := execInteger_madd (Cpu.reset 0 0 0) h false hop31
    rw [execMaddMsub_eq, Option.getD_some] at hcode
    exact not_conforms_of_none (if_pos hop54) hcode hall
  · intro hok c predecode
    by_cases hop31 : bitField insn 21 3 = 0
    · have hop54 : bitField insn 29 2 = 0 := by
        by_contra hop54
        exact hok ⟨hop54, hop31⟩
      rw [execInteger_madd c h predecode hop31, execMaddMsub_eq, A64.threeSource, hop54, hop31]
      rfl
    cases hlong : isLong insn with
    | true =>
      rw [execInteger_long c h predecode hlong, execMaddMsubLong_eq, hbit]
      rw [isLong, Bool.and_eq_true, Bool.and_eq_true, Bool.or_eq_true, decide_eq_true_iff,
        decide_eq_true_iff, decide_eq_true_iff] at hlong
      obtain ⟨⟨hsf, hop54⟩, hone | hfive⟩ := hlong
      · rw [A64.threeSource, hop54, hone]
        change _ = c.outcome (if A64.width insn = 64 then _ else none)
        rw [if_pos (hwidth.2 hsf)]
        rfl
      · rw [A64.threeSource, hop54, hfive]
        change _ = c.outcome (if A64.width insn = 64 then _ else none)
        rw [if_pos (hwidth.2 hsf)]
        rfl
    | false =>
      cases hhigh : isMulHigh insn with
      | true =>
        have hra : bitField insn 10 5 = 31 := by
          by_contra hra
          exact hones ⟨hhigh, hra⟩
        rw [execInteger_mulHigh c h predecode hhigh, if_pos hra, execMulHigh_eq, hbit]
        rw [isMulHigh, Bool.and_eq_true, Bool.and_eq_true, Bool.and_eq_true, Bool.or_eq_true,
          Bool.not_eq_true', decide_eq_true_iff, decide_eq_true_iff, decide_eq_true_iff] at hhigh
        obtain ⟨⟨⟨hsf, hop54⟩, ho0⟩, htwo | hsix⟩ := hhigh
        · rw [A64.threeSource, hop54, htwo, ho0]
          change _ = c.outcome (if A64.width insn = 64 ∧ ¬ false = true then _ else none)
          rw [if_pos ⟨hwidth.2 hsf, Bool.false_ne_true⟩]
          rfl
        · rw [A64.threeSource, hop54, hsix, ho0]
          change _ = c.outcome (if A64.width insn = 64 ∧ ¬ false = true then _ else none)
          rw [if_pos ⟨hwidth.2 hsf, Bool.false_ne_true⟩]
          rfl
      | false =>
        have hother :
          (isLong insn || isMulHigh insn || decide (bitField insn 21 3 = 0)) = false := by
          rw [hlong, hhigh, decide_eq_false hop31]
          rfl
        rw [execInteger_threeSource_refused c h predecode hother,
          threeSource_of_other hop31 hlong hhigh]
        rfl

end ThreeSource

/-! ## Extraction -/

/-- `sf op21 100111 N o0 Rm imms Rn Rd`. -/
def extractPattern : Pattern 32 := ⟨0x1F800000, 0x13800000⟩

/-- The fields `op21` and `o0` are not looked at. -/
def ExtractMisexecuted (insn : U32) : Prop :=
  (bitField insn 29 2 ≠ 0 ∨ insn.getLsbD 21 = true) ∧ insn.getLsbD 22 = insn.getLsbD 31 ∧
    bitField insn 10 6 < A64.width insn

/-- Bits of two registers in a row, as the program puts them together. -/
def extractValue (sf : Bool) (rn rm : U64) (lsb : Nat) : U64 :=
  let width := if sf then 64 else 32
  let mask := ones width
  let rnVal := rn &&& mask
  let rmVal := rm &&& mask
  if lsb = 0 then rmVal else (rmVal >>> lsb) ||| ((rnVal <<< (width - lsb)) &&& mask)

theorem extractValue_eq {sf : Bool} (x y : BitVec (widthOf sf)) {lsb : Nat}
    (hlsb : lsb < widthOf sf) :
    (extractValue sf (x.setWidth 64) (y.setWidth 64) lsb).setWidth (widthOf sf) =
      (x ++ y).extractLsb' lsb (widthOf sf) := by
  have hw := widthOf_le sf
  have hmask : ∀ x : BitVec (widthOf sf), x.setWidth 64 &&& ones (widthOf sf) = x.setWidth 64 := by
    intro x
    rw [and_ones_eq, setWidth_back]
  rw [extractValue, hmask, hmask]
  apply BitVec.eq_of_getLsbD_eq
  intro i hi
  rw [BitVec.getLsbD_extractLsb', BitVec.getLsbD_append, decide_eq_true hi, Bool.true_and]
  split
  · next hzero =>
    rw [setWidth_back, hzero, Nat.zero_add, if_pos hi]
  · next hne =>
    rw [and_ones_eq, BitVec.setWidth_or, setWidth_back, setWidth_ushiftRight_back,
      BitVec.setWidth_shiftLeft_of_le hw, setWidth_back, BitVec.getLsbD_or,
      BitVec.getLsbD_ushiftRight, BitVec.getLsbD_shiftLeft, decide_eq_true hi, Bool.true_and]
    by_cases hlow : lsb + i < widthOf sf
    · have hin : i < widthOf sf - lsb := by omega
      rw [if_pos hlow, decide_eq_true hin, Bool.not_true, Bool.false_and, Bool.or_false]
    · have hout : ¬ i < widthOf sf - lsb := by omega
      have hindex : i - (widthOf sf - lsb) = lsb + i - widthOf sf := by omega
      rw [if_neg hlow, decide_eq_false hout, BitVec.getLsbD_of_ge y _ (by omega), hindex,
        Bool.not_false, Bool.true_and, Bool.false_or]

theorem execExtr_eq (insn : U32) :
    c.execExtr insn =
      if insn.getLsbD 22 = insn.getLsbD 31 ∧ bitField insn 10 6 < A64.width insn then
        some (c.apply (.toX (bitField insn 0 5)
          ((c.a64View.x (A64.width insn) (bitField insn 5 5) ++
            c.a64View.x (A64.width insn) (bitField insn 16 5)).extractLsb' (bitField insn 10 6)
              (A64.width insn)) none))
      else none := by
  have hrn : bitField insn 5 5 < 32 := bitField_lt insn 5 5
  have hrm : bitField insn 16 5 < 32 := bitField_lt insn 16 5
  have hlt : bitField insn 10 6 < 64 := bitField_lt insn 10 6
  have hn : (insn.getLsbD 31 && !insn.getLsbD 22 || !insn.getLsbD 31 && insn.getLsbD 22) = true ↔
      ¬ insn.getLsbD 22 = insn.getLsbD 31 := by
    cases insn.getLsbD 31 <;> cases insn.getLsbD 22 <;> decide
  have hlsb : (!insn.getLsbD 31 && decide (32 ≤ bitField insn 10 6) ||
      decide (64 ≤ bitField insn 10 6)) = true ↔ ¬ bitField insn 10 6 < A64.width insn := by
    rw [width_eq, decide_eq_false (Nat.not_le.2 hlt), Bool.or_false, Nat.not_lt]
    cases insn.getLsbD 31 with
    | true => exact iff_of_false Bool.false_ne_true (Nat.not_le.2 hlt)
    | false => exact decide_eq_true_iff
  have hbody : c.execExtr insn =
      if insn.getLsbD 31 && !insn.getLsbD 22 || !insn.getLsbD 31 && insn.getLsbD 22 then none
      else if !insn.getLsbD 31 && decide (32 ≤ bitField insn 10 6) ||
          decide (64 ≤ bitField insn 10 6) then none
      else
        some (c.setRegOf (insn.getLsbD 31) (bitField insn 0 5)
          (extractValue (insn.getLsbD 31) (c.regOf (insn.getLsbD 31) (bitField insn 5 5))
            (c.regOf (insn.getLsbD 31) (bitField insn 16 5)) (bitField insn 10 6))) := rfl
  rw [hbody]
  by_cases hsame : insn.getLsbD 22 = insn.getLsbD 31
  · rw [if_neg (fun h => hn.1 h hsame)]
    by_cases hin : bitField insn 10 6 < A64.width insn
    · have hboth : insn.getLsbD 22 = insn.getLsbD 31 ∧ bitField insn 10 6 < A64.width insn :=
        ⟨hsame, hin⟩
      rw [if_neg (fun h => hlsb.1 h hin), if_pos hboth, setRegOf_apply, c.regOf_eq hrn,
        c.regOf_eq hrm, extractValue_eq _ _ hin]
      rfl
    · rw [if_pos (hlsb.2 hin), if_neg (fun h => hin h.2)]
  · rw [if_pos (hn.2 hsame), if_neg (fun h => hsame h.1)]

section Extract

variable {insn : U32} (h : extractPattern.Matches insn = true)
include h

theorem execInteger_extract (predecode : Bool) :
    c.execInteger predecode insn = (c.execExtr insn).getD c.undefined := by
  have hop : Pattern.decode integerCases insn = some .extr :=
    Pattern.decode_of_first h (by decide)
  exact c.execInteger_plain predecode (by decide) h hop

theorem extract_conforms_iff :
    Conforms A64.extract insn ↔ ¬ ExtractMisexecuted insn := by
  have hspec : ∀ v : A64.View, A64.extract (A64.width insn) insn v =
      if bitField insn 29 2 ≠ 0 ∨ insn.getLsbD 21 ∨
        (insn.getLsbD 22 = true) ≠ (A64.width insn = 64) ∨ A64.width insn ≤ bitField insn 10 6
      then none
      else some (.toX (bitField insn 0 5) ((v.x (A64.width insn) (bitField insn 5 5) ++
        v.x (A64.width insn) (bitField insn 16 5)).extractLsb' (bitField insn 10 6)
          (A64.width insn)) none) := fun v => rfl
  have hwidth : (insn.getLsbD 22 = true) ≠ (A64.width insn = 64) ↔
      ¬ insn.getLsbD 22 = insn.getLsbD 31 := by
    rw [width_eq]
    cases insn.getLsbD 31 <;> cases insn.getLsbD 22 <;> simp
  constructor
  · rintro hall ⟨hfixed, hin⟩
    have hcode := execInteger_extract (Cpu.reset 0 0 0) h false
    rw [execExtr_eq, if_pos hin, Option.getD_some] at hcode
    refine not_conforms_of_none ?_ hcode hall
    rw [hspec]
    exact if_pos (hfixed.imp_right .inl)
  · intro hok c predecode
    rw [execInteger_extract c h predecode, execExtr_eq, hspec]
    by_cases hin : insn.getLsbD 22 = insn.getLsbD 31 ∧ bitField insn 10 6 < A64.width insn
    · have hfixed : ¬ (bitField insn 29 2 ≠ 0 ∨ insn.getLsbD 21 = true) := fun hfixed =>
        hok ⟨hfixed, hin⟩
      have hallowed : ¬ (bitField insn 29 2 ≠ 0 ∨ insn.getLsbD 21 = true ∨
          (insn.getLsbD 22 = true) ≠ (A64.width insn = 64) ∨
          A64.width insn ≤ bitField insn 10 6) := by
        rw [hwidth]
        rintro (h1 | h2 | h3 | h4)
        · exact hfixed (.inl h1)
        · exact hfixed (.inr h2)
        · exact h3 hin.1
        · omega
      rw [if_pos hin, if_neg hallowed]
      rfl
    · have hrefused : bitField insn 29 2 ≠ 0 ∨ insn.getLsbD 21 = true ∨
          (insn.getLsbD 22 = true) ≠ (A64.width insn = 64) ∨
          A64.width insn ≤ bitField insn 10 6 := by
        rw [hwidth]
        rcases not_and_or.1 hin with hn | hlsb
        · exact .inr (.inr (.inl hn))
        · exact .inr (.inr (.inr (Nat.le_of_not_lt hlsb)))
      rw [if_neg hin, if_pos hrefused]
      rfl

end Extract

end Cpu
end Aarchvm

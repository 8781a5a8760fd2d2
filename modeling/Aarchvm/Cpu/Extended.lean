import Aarchvm.Cpu.Arithmetic
import Aarchvm.Cpu.Effects

/-!
# Extended register and with carry

The words of ADD and SUB (extended register) and of ADC and SBC against the pseudocode. The
former run whatever stands in the field `opt`.
-/
namespace Aarchvm

open Lib

/-! ## Sign extension -/

/-- A power of two is added where its bit is clear. -/
theorem xor_twoPow_of_clear {w : Nat} (x : BitVec w) {i : Nat} (h : x.getLsbD i = false) :
    x ^^^ BitVec.twoPow w i = x + BitVec.twoPow w i := by
  have hand : x &&& BitVec.twoPow w i = 0#w := by
    rw [BitVec.and_twoPow, h, if_neg Bool.false_ne_true]
  rw [BitVec.add_eq_or_of_and_eq_zero x _ hand]
  apply BitVec.eq_of_getLsbD_eq
  intro j hj
  have hbit := congrArg (BitVec.getLsbD · j) hand
  simp only [BitVec.getLsbD_and, BitVec.getLsbD_zero] at hbit
  rw [BitVec.getLsbD_xor, BitVec.getLsbD_or]
  generalize x.getLsbD j = a at hbit
  generalize (BitVec.twoPow w i).getLsbD j = b at hbit
  cases a <;> cases b <;> simp_all

/-- And taken off where it is set. -/
theorem xor_twoPow_of_set {w : Nat} (x : BitVec w) {i : Nat} (h : x.getLsbD i = true) :
    x ^^^ BitVec.twoPow w i = x - BitVec.twoPow w i := by
  have hi : i < w := BitVec.lt_of_getLsbD h
  have hclear : (x ^^^ BitVec.twoPow w i).getLsbD i = false := by
    rw [BitVec.getLsbD_xor, h, BitVec.getLsbD_twoPow]
    simp [hi]
  have hback := xor_twoPow_of_clear _ hclear
  rw [BitVec.xor_assoc, BitVec.xor_self, BitVec.xor_zero] at hback
  exact BitVec.eq_sub_iff_add_eq.2 hback.symm

/-- The sign bit is flipped and taken off again. -/
theorem signExtend_eq (value : U64) {k : Nat} (hpos : 0 < k) (hk : k < 64) :
    signExtend value k = (value.setWidth k).signExtend 64 := by
  have hpow : (1 : U64) <<< (k - 1) = BitVec.twoPow 64 (k - 1) := rfl
  have hbit : ((value.setWidth k).setWidth 64).getLsbD (k - 1) = (value.setWidth k).msb := by
    rw [BitVec.msb_eq_getLsbD_last, BitVec.getLsbD_setWidth, decide_eq_true (by omega),
      Bool.true_and]
  rw [signExtend, if_neg (by omega), if_neg (by omega), and_ones_eq, hpow]
  dsimp only
  cases hmsb : (value.setWidth k).msb with
  | false =>
    rw [xor_twoPow_of_clear _ (hbit.trans hmsb), BitVec.add_sub_cancel,
      BitVec.signExtend_eq_setWidth_of_msb_false hmsb]
  | true =>
    rw [xor_twoPow_of_set _ (hbit.trans hmsb)]
    apply BitVec.eq_of_toNat_eq
    have hlt := (value.setWidth k).isLt
    have hle := BitVec.msb_eq_true_iff_two_mul_ge.1 hmsb
    have hhalf := two_pow_even hpos
    have htop : 2 ^ k ≤ 2 ^ 63 := Nat.pow_le_pow_right (by decide) (by omega)
    rw [BitVec.toNat_signExtend, hmsb, if_pos rfl, BitVec.toNat_sub, BitVec.toNat_sub,
      BitVec.toNat_twoPow_of_lt (by omega), BitVec.toNat_setWidth,
      Nat.mod_eq_of_lt (Nat.lt_of_lt_of_le hlt (Nat.pow_le_pow_right (by decide) (by omega)))]
    generalize 2 ^ (k - 1) = half at *
    generalize (value.setWidth k).toNat = v at *
    omega

theorem setWidth_signExtend {k w : Nat} (x : BitVec k) (hw : w ≤ 64) :
    (x.signExtend 64).setWidth w = x.signExtend w := by
  apply BitVec.eq_of_getLsbD_eq
  intro i hi
  rw [BitVec.getLsbD_setWidth, BitVec.getLsbD_signExtend, BitVec.getLsbD_signExtend,
    decide_eq_true hi, decide_eq_true (show i < 64 by omega), Bool.true_and]

namespace Cpu

variable (c : Cpu)

/-! ## Extended register -/

/-- The extended operand of the program before its shift. -/
def extendedValue (sf : Bool) (x : U64) (option : Nat) : U64 :=
  let w := (x.setWidth 32).setWidth 64
  match option with
  | 0 => w &&& 0xFF
  | 1 => w &&& 0xFFFF
  | 2 => w
  | 3 => if sf then x else w
  | 4 => signExtend (w &&& 0xFF) 8
  | 5 => signExtend (w &&& 0xFFFF) 16
  | 6 => signExtend w 32
  | _ => if sf then x else w

/-- `ExtendReg` without its shift. -/
def extendLow {w : Nat} (x : BitVec w) (type : Nat) : BitVec w :=
  let len := min (8 <<< (type % 4)) w
  if type < 4 then (x.setWidth len).setWidth w else (x.setWidth len).signExtend w

section Extension

variable (x : U64) {k w : Nat} (hk : k ≤ 32) (h32 : 32 ≤ w) (hw : w ≤ 64)
include hk h32 hw

theorem zeroExtension_eq :
    ((x.setWidth k).setWidth 64).setWidth w = ((x.setWidth w).setWidth k).setWidth w := by
  rw [BitVec.setWidth_setWidth_of_le _ hw,
    BitVec.setWidth_setWidth_of_le x (Nat.le_trans hk h32)]

theorem signExtension_eq (hpos : 0 < k) :
    (signExtend ((x.setWidth k).setWidth 64) k).setWidth w =
      ((x.setWidth w).setWidth k).signExtend w := by
  rw [signExtend_eq _ hpos (by omega), BitVec.setWidth_setWidth_of_le (x.setWidth k) (by omega),
    BitVec.setWidth_eq, setWidth_signExtend _ hw,
    BitVec.setWidth_setWidth_of_le x (Nat.le_trans hk h32)]

end Extension

/-- The low bytes of the low word. -/
theorem low_setWidth (x : U64) {k : Nat} (hk : k ≤ 32) :
    (x.setWidth 32).setWidth 64 &&& ones k = (x.setWidth k).setWidth 64 := by
  rw [and_ones_eq, BitVec.setWidth_setWidth_of_le (x.setWidth 32) (by omega),
    BitVec.setWidth_setWidth_of_le _ hk]

theorem extendedValue_eq (sf : Bool) (x : U64) {option : Nat} (hoption : option < 8) :
    (extendedValue sf x option).setWidth (widthOf sf) =
      extendLow (x.setWidth (widthOf sf)) option := by
  have hw := widthOf_le sf
  have h32 : 32 ≤ widthOf sf := by cases sf <;> decide
  have hbyte : (x.setWidth 32).setWidth 64 &&& 0xFF = (x.setWidth 8).setWidth 64 :=
    @low_setWidth x 8 (by decide)
  have hhalf : (x.setWidth 32).setWidth 64 &&& 0xFFFF = (x.setWidth 16).setWidth 64 :=
    @low_setWidth x 16 (by decide)
  have hmin : ∀ k, k ≤ 32 → min k (widthOf sf) = k := fun k hk => Nat.min_eq_left (by omega)
  have hz := fun k hk => @zeroExtension_eq x k _ hk h32 hw
  have hs := fun k hk hpos => @signExtension_eq x k _ hk h32 hw hpos
  have hfull : (if sf then x else (x.setWidth 32).setWidth 64).setWidth (widthOf sf) =
      x.setWidth (widthOf sf) := by
    cases sf with
    | true => rfl
    | false => exact setWidth_low32 _
  have hmax : min 64 (widthOf sf) = widthOf sf := Nat.min_eq_right hw
  have hoption' : option = 0 ∨ option = 1 ∨ option = 2 ∨ option = 3 ∨ option = 4 ∨ option = 5 ∨
      option = 6 ∨ option = 7 := by omega
  rcases hoption' with rfl | rfl | rfl | rfl | rfl | rfl | rfl | rfl
  · change ((x.setWidth 32).setWidth 64 &&& 0xFF).setWidth _ =
      ((x.setWidth _).setWidth (min 8 _)).setWidth _
    rw [hmin 8 (by decide), hbyte, hz 8 (by decide)]
  · change ((x.setWidth 32).setWidth 64 &&& 0xFFFF).setWidth _ =
      ((x.setWidth _).setWidth (min 16 _)).setWidth _
    rw [hmin 16 (by decide), hhalf, hz 16 (by decide)]
  · change ((x.setWidth 32).setWidth 64).setWidth _ =
      ((x.setWidth _).setWidth (min 32 _)).setWidth _
    rw [hmin 32 (by decide), hz 32 (by decide)]
  · change (if sf then x else (x.setWidth 32).setWidth 64).setWidth _ =
      ((x.setWidth _).setWidth (min 64 _)).setWidth _
    rw [hfull, hmax, BitVec.setWidth_eq, BitVec.setWidth_eq]
  · change (signExtend ((x.setWidth 32).setWidth 64 &&& 0xFF) 8).setWidth _ =
      ((x.setWidth _).setWidth (min 8 _)).signExtend _
    rw [hmin 8 (by decide), hbyte, hs 8 (by decide) (by decide)]
  · change (signExtend ((x.setWidth 32).setWidth 64 &&& 0xFFFF) 16).setWidth _ =
      ((x.setWidth _).setWidth (min 16 _)).signExtend _
    rw [hmin 16 (by decide), hhalf, hs 16 (by decide) (by decide)]
  · change (signExtend ((x.setWidth 32).setWidth 64) 32).setWidth _ =
      ((x.setWidth _).setWidth (min 32 _)).signExtend _
    rw [hmin 32 (by decide), hs 32 (by decide) (by decide)]
  · change (if sf then x else (x.setWidth 32).setWidth 64).setWidth _ =
      ((x.setWidth _).setWidth (min 64 _)).signExtend _
    rw [hfull, hmax, BitVec.signExtend_eq, BitVec.setWidth_eq]

/-- The low bits of a register. -/
theorem x_eq_reg (w : Nat) {i : Nat} (hi : i < 32) :
    c.a64View.x w i = (c.reg i).setWidth w := by
  rw [c.reg_eq hi, A64.View.x, A64.View.x]
  split
  · exact (BitVec.setWidth_zero ..).symm
  · rw [BitVec.setWidth_eq]

theorem execAddSubExtended_eq (insn : U32) :
    c.execAddSubExtended insn =
      if 4 < bitField insn 10 3 then none
      else some (c.apply (
        let w := A64.width insn
        let d := bitField insn 0 5
        let x := c.a64View.xSp w (bitField insn 5 5)
        let y := A64.extendReg (c.a64View.x w (bitField insn 16 5)) (bitField insn 13 3)
          (bitField insn 10 3)
        if insn.getLsbD 29 then A64.addSubFlags (insn.getLsbD 30) d x y
        else .toXSp d (addOrSub (insn.getLsbD 30) x y).1)) := by
  have hrm : bitField insn 16 5 < 32 := bitField_lt insn 16 5
  have hoption : bitField insn 13 3 < 8 := bitField_lt insn 13 3
  have hshift : (extendedValue (insn.getLsbD 31) (c.reg (bitField insn 16 5)) (bitField insn 13 3)
      <<< bitField insn 10 3).setWidth (A64.width insn) =
      A64.extendReg (c.a64View.x (A64.width insn) (bitField insn 16 5)) (bitField insn 13 3)
        (bitField insn 10 3) := by
    rw [width_eq, BitVec.setWidth_shiftLeft_of_le (widthOf_le _), extendedValue_eq _ _ hoption,
      c.x_eq_reg _ hrm]
    rfl
  have hbody : c.execAddSubExtended insn =
      if 4 < bitField insn 10 3 then none
      else
        let lhs := c.spOrReg (bitField insn 5 5)
        let rhs := extendedValue (insn.getLsbD 31) (c.reg (bitField insn 16 5))
          (bitField insn 13 3) <<< bitField insn 10 3
        some (c.finishAddSub (insn.getLsbD 31) (insn.getLsbD 30) (insn.getLsbD 29)
          (bitField insn 0 5) lhs rhs
            (addSubValue (insn.getLsbD 31) (insn.getLsbD 30) lhs rhs)) := rfl
  rw [hbody]
  dsimp only
  rw [finishAddSub_apply, spOrReg_eq, ← hshift]
  rfl

/-- `sf op S 01011 opt 1 Rm option imm3 Rn Rd`. -/
def extendedPattern : Pattern 32 := ⟨0x1F200000, 0x0B200000⟩

theorem execInteger_extended (predecode : Bool) {insn : U32}
    (h : extendedPattern.Matches insn = true) :
    c.execInteger predecode insn = (c.execAddSubExtended insn).getD c.undefined := by
  have hop : Pattern.decode integerCases insn = some .addSubExtended :=
    Pattern.decode_of_first h (by decide +kernel)
  exact c.execInteger_plain predecode (by decide +kernel) h hop

/-- The field `opt` must be zero, but the program does not look at it. -/
def ExtendedMisexecuted (insn : U32) : Prop := bitField insn 22 2 ≠ 0 ∧ bitField insn 10 3 ≤ 4

theorem extended_conforms_iff {insn : U32} (h : extendedPattern.Matches insn = true) :
    Conforms A64.addSubExtended insn ↔ ¬ ExtendedMisexecuted insn := by
  constructor
  · rintro hall ⟨hopt, hshift⟩
    have hcode := execInteger_extended (Cpu.reset 0 0 0) false h
    rw [execAddSubExtended_eq, if_neg (by omega)] at hcode
    exact not_conforms_of_none (if_pos (.inl hopt)) hcode hall
  · intro hok c predecode
    rw [execInteger_extended c predecode h, execAddSubExtended_eq, A64.addSubExtended]
    by_cases hshift : 4 < bitField insn 10 3
    · have hnone : bitField insn 22 2 ≠ 0 ∨ 4 < bitField insn 10 3 := .inr hshift
      simp only [if_pos hshift, if_pos hnone]
      rfl
    · have hopt : bitField insn 22 2 = 0 := by
        by_contra hopt
        exact hok ⟨hopt, by omega⟩
      have hsome : ¬ (bitField insn 22 2 ≠ 0 ∨ 4 < bitField insn 10 3) := by omega
      simp only [if_neg hshift, if_neg hsome]
      rfl

/-! ## With carry -/

theorem execAdcSbc_eq (insn : U32) :
    c.execAdcSbc insn = some (c.apply (
      let w := A64.width insn
      let y := c.a64View.x w (bitField insn 16 5)
      let sum := addWithCarry (c.a64View.x w (bitField insn 5 5))
        (if insn.getLsbD 30 then ~~~y else y) c.flags.c
      .toX (bitField insn 0 5) sum.1 (if insn.getLsbD 29 then some sum.2 else none))) := by
  have hrn : bitField insn 5 5 < 32 := bitField_lt insn 5 5
  have hrm : bitField insn 16 5 < 32 := bitField_lt insn 16 5
  rw [execAdcSbc, width_eq]
  cases insn.getLsbD 31 with
  | true =>
    simp only [if_true, adcSbc_eq (show 0 < 64 by decide), c.reg_eq hrn, c.reg_eq hrm]
    cases insn.getLsbD 29 with
    | true =>
      simp only [if_true]
      rw [setReg_apply]
      rfl
    | false =>
      simp only [Bool.false_eq_true, if_false]
      rw [setReg_apply]
      rfl
  | false =>
    simp only [Bool.false_eq_true, if_false, adcSbc_eq (show 0 < 32 by decide), c.reg32_eq hrn,
      c.reg32_eq hrm]
    cases insn.getLsbD 29 with
    | true => rfl
    | false => rfl

/-- `sf op S 11010000 Rm opcode2 Rn Rd`. -/
def carryPattern : Pattern 32 := ⟨0x1FE00000, 0x1A000000⟩

theorem carry_conforms {insn : U32} (h : carryPattern.Matches insn = true) :
    Conforms A64.addSubCarry insn := by
  intro c predecode
  have hfield := Pattern.matches_withField h 10 6
  have hlt : bitField insn 10 6 < 64 := bitField_lt insn 10 6
  rw [A64.addSubCarry]
  by_cases hzero : bitField insn 10 6 = 0
  · rw [hzero] at hfield
    have hbits := Pattern.matches_withBit (Pattern.matches_withBit hfield 30) 29
    have hop : Pattern.decode integerCases insn = some .adcSbc := by
      refine Pattern.decode_of_first hbits ?_
      generalize insn.getLsbD 30 = op
      generalize insn.getLsbD 29 = s
      revert op s
      decide +kernel
    rw [c.execInteger_plain predecode (by decide +kernel) h hop, if_neg (not_not.2 hzero)]
    change (c.execAdcSbc insn).getD c.undefined = _
    rw [execAdcSbc_eq]
    rfl
  · have hrefused : Refused (carryPattern.withField 10 6 (bitField insn 10 6)) := by
      clear hfield
      generalize bitField insn 10 6 = k at *
      revert k
      decide +kernel
    rw [c.execInteger_refused predecode (by decide +kernel) h hrefused hfield, if_pos hzero]
    rfl

end Cpu
end Aarchvm

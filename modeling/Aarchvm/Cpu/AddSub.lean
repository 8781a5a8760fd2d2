import Aarchvm.Cpu.Bitmask

/-!
# Additions, subtractions and wide moves

The words of ADD, SUB, ADDS and SUBS (immediate and shifted register) and of MOVN, MOVZ
and MOVK against the pseudocode, on both paths. They part where an unallocated word is
executed, and where a shifted register form writes the stack pointer.
-/
namespace Aarchvm

open Lib

/-- The classes. -/
inductive ArithmeticClass where
  | addSubImmediate
  | addSubShifted
  | moveWide
  deriving DecidableEq, Repr

namespace ArithmeticClass

def pattern : ArithmeticClass → Pattern 32
  | addSubImmediate => ⟨0x1F000000, 0x11000000⟩
  | addSubShifted => ⟨0x1F200000, 0x0B000000⟩
  | moveWide => ⟨0x1F800000, 0x12800000⟩

/-- The pseudocode of the class. -/
def effect : ArithmeticClass → Nat → U32 → A64.View → Option A64.Effect
  | addSubImmediate => A64.addSubImmediate
  | addSubShifted => A64.addSubShifted
  | moveWide => A64.moveWide

/-- Where the program does something else: words with bit 23 set that the guard for FEAT_MTE
leaves out; shifts that are too long, and XZR taken for the stack pointer; MOVZ of a halfword
outside the register, and words that the logical immediate forms take. -/
def Misexecuted (insn : U32) : ArithmeticClass → Prop
  | addSubImmediate => insn.getLsbD 23 = true ∧ (insn.getLsbD 22 = true ∨ insn.getLsbD 29 = true)
  | addSubShifted =>
    bitField insn 22 2 ≠ 3 ∧
      (A64.width insn ≤ bitField insn 10 6 ∨
        insn.getLsbD 29 = false ∧ bitField insn 0 5 = 31)
  | moveWide =>
    bitField insn 29 2 = 2 ∧ A64.width insn ≤ 16 * bitField insn 21 2 ∨
      bitField insn 29 2 = 1 ∧ ElementFits insn

end ArithmeticClass

namespace Cpu

variable (c : Cpu)

/-! ## Immediate forms -/

theorem setWidth_ofNat_shiftLeft {w : Nat} (hw : w ≤ 64) (n k : Nat) :
    (BitVec.ofNat 64 n <<< k).setWidth w = BitVec.ofNat w n <<< k := by
  rw [BitVec.setWidth_shiftLeft_of_le hw, BitVec.setWidth_ofNat_of_le hw]

theorem execAddSubImmediate_apply (insn : U32) (isSub : Bool) :
    c.execAddSubImmediate insn isSub = some (c.apply (
      let x := c.a64View.xSp (A64.width insn) (bitField insn 5 5)
      let y := BitVec.ofNat (A64.width insn) (bitField insn 10 12) <<<
        (if insn.getLsbD 22 then 12 else 0)
      if insn.getLsbD 29 then A64.addSubFlags isSub (bitField insn 0 5) x y
      else .toXSp (bitField insn 0 5) (addOrSub isSub x y).1)) := by
  rw [execAddSubImmediate]
  dsimp only
  rw [finishAddSub_apply, setWidth_ofNat_shiftLeft (widthOf_le _), spOrReg_eq]
  rfl

/-- The word is one that the guard for FEAT_MTE takes. -/
def isMteGuarded (insn : U32) : Bool :=
  !insn.getLsbD 29 && insn.getLsbD 23 && !insn.getLsbD 22

theorem decode_addSubImmediate {insn : U32}
    (h : ArithmeticClass.addSubImmediate.pattern.Matches insn = true) :
    Pattern.decode predecodeCases insn =
        some (if isMteGuarded insn then .fallback else .addSubImm) ∧
      Pattern.decode integerCases insn =
        some (if isMteGuarded insn then .undefined else .addSubImmediate (insn.getLsbD 30)) := by
  have hbits := Pattern.matches_withBit (Pattern.matches_withBit
    (Pattern.matches_withBit (Pattern.matches_withBit h 30) 29) 23) 22
  rw [isMteGuarded]
  generalize insn.getLsbD 30 = op at *
  generalize insn.getLsbD 29 = s at *
  generalize insn.getLsbD 23 = b₁ at *
  generalize insn.getLsbD 22 = b₀ at *
  constructor
  · refine Pattern.decode_of_first hbits ?_
    clear hbits
    revert op s b₁ b₀
    decide +kernel
  · refine Pattern.decode_of_first hbits ?_
    clear hbits
    revert op s b₁ b₀
    decide +kernel

theorem execInteger_addSubImmediate (predecode : Bool) {insn : U32}
    (h : ArithmeticClass.addSubImmediate.pattern.Matches insn = true) :
    c.execInteger predecode insn =
      if isMteGuarded insn then c.undefined
      else (c.execAddSubImmediate insn (insn.getLsbD 30)).getD c.undefined := by
  obtain ⟨hpre, hop⟩ := decode_addSubImmediate h
  cases hguard : isMteGuarded insn <;> rw [hguard] at hpre hop
  · exact c.execInteger_eq predecode (.inr (c.execDecoded_addSubImm hpre)) hop
  · exact c.execInteger_eq predecode (.inl (c.execDecoded_of_fallback hpre)) hop

/-- The pseudocode of the immediate forms; with bit 23 set they are unallocated. -/
theorem addSubImmediate_eq (w : Nat) (insn : U32) (v : A64.View) :
    A64.addSubImmediate w insn v =
      if insn.getLsbD 23 then none
      else some (
        let x := v.xSp w (bitField insn 5 5)
        let y := BitVec.ofNat w (bitField insn 10 12) <<< (if insn.getLsbD 22 then 12 else 0)
        if insn.getLsbD 29 then A64.addSubFlags (insn.getLsbD 30) (bitField insn 0 5) x y
        else .toXSp (bitField insn 0 5) (addOrSub (insn.getLsbD 30) x y).1) := by
  have hbits : bitField insn 22 2 = (insn.getLsbD 22).toNat + 2 * (insn.getLsbD 23).toNat :=
    bitField_two insn 22
  rw [A64.addSubImmediate, hbits]
  cases insn.getLsbD 23 <;> cases insn.getLsbD 22
  · simp only [Bool.false_eq_true, if_false, BitVec.shiftLeft_zero]
    rfl
  · rfl
  · rfl
  · rfl

theorem addSubImmediate_conforms_iff {insn : U32}
    (h : ArithmeticClass.addSubImmediate.pattern.Matches insn = true) :
    Conforms A64.addSubImmediate insn ↔
      ¬ ArithmeticClass.addSubImmediate.Misexecuted insn := by
  rw [ArithmeticClass.Misexecuted, Conforms]
  simp only [execInteger_addSubImmediate _ _ h, addSubImmediate_eq, execAddSubImmediate_apply,
    Option.getD_some]
  cases hbit : insn.getLsbD 23 with
  | false =>
    have hguard : isMteGuarded insn = false := by
      rw [isMteGuarded, hbit, Bool.and_false, Bool.false_and]
    simp only [hguard, Bool.false_eq_true, if_false, false_and, not_false_eq_true, iff_true]
    intro c _
    rfl
  | true =>
    have hguard : isMteGuarded insn = true ↔
        ¬ (insn.getLsbD 22 = true ∨ insn.getLsbD 29 = true) := by
      rw [isMteGuarded, hbit]
      cases insn.getLsbD 22 <;> cases insn.getLsbD 29 <;> decide
    simp only [if_true, true_and, ← hguard]
    constructor
    · intro hall
      by_contra hno
      have heq := hall (Cpu.reset 0 0 0) false
      rw [if_neg hno] at heq
      exact apply_ne_undefined rfl _ heq
    · intro hyes c _
      rw [if_pos hyes]
      rfl

/-! ## Shifted register forms -/

/-- A shift by less than the width, as the program and as the pseudocode computes it. -/
theorem shiftedOperand_eq (sf : Bool) {rm type amount : Nat} (hrm : rm < 32) (htype : type ≤ 2)
    (hamount : amount < widthOf sf) :
    (c.shiftedOperand sf rm type amount).setWidth (widthOf sf) =
      A64.shiftReg (c.a64View.x (widthOf sf) rm) type amount := by
  cases sf with
  | true =>
    change amount < 64 at hamount
    change (c.shiftedOperand true rm type amount).setWidth 64 =
      A64.shiftReg (c.a64View.x 64 rm) type amount
    rw [BitVec.setWidth_eq, shiftedOperand, if_pos rfl, c.reg_eq hrm]
    dsimp only
    rw [Nat.mod_eq_of_lt hamount]
    interval_cases type <;> rfl
  | false =>
    change amount < 32 at hamount
    change (c.shiftedOperand false rm type amount).setWidth 32 =
      A64.shiftReg (c.a64View.x 32 rm) type amount
    rw [shiftedOperand, if_neg Bool.false_ne_true, c.reg32_eq hrm]
    dsimp only
    rw [Nat.mod_eq_of_lt hamount, setWidth_low32]
    interval_cases type <;> rfl

theorem execAddSubShifted_apply (insn : U32) (isSub : Bool) (h : bitField insn 22 2 ≠ 3) :
    c.execAddSubShifted insn isSub = some (c.apply (
      let w := A64.width insn
      let x := c.a64View.x w (bitField insn 5 5)
      let y : BitVec w := (c.shiftedOperand (insn.getLsbD 31) (bitField insn 16 5)
        (bitField insn 22 2) (bitField insn 10 6)).setWidth w
      if insn.getLsbD 29 then A64.addSubFlags isSub (bitField insn 0 5) x y
      else .toXSp (bitField insn 0 5) (addOrSub isSub x y).1)) := by
  have htype := bitField_lt insn 22 2
  have hrn : bitField insn 5 5 < 32 := bitField_lt insn 5 5
  rw [execAddSubShifted]
  dsimp only
  rw [if_neg (by omega), finishAddSub_apply, c.regOf_eq hrn, setWidth_back]
  rfl

theorem execInteger_addSubShifted (predecode : Bool) {insn : U32}
    (h : ArithmeticClass.addSubShifted.pattern.Matches insn = true) :
    c.execInteger predecode insn =
      (c.execAddSubShifted insn (insn.getLsbD 30)).getD c.undefined := by
  have hbits := Pattern.matches_withBit (Pattern.matches_withBit h 30) 29
  have hop : Pattern.decode integerCases insn = some (.addSubShifted (insn.getLsbD 30)) := by
    refine Pattern.decode_of_first hbits ?_
    generalize insn.getLsbD 30 = op
    generalize insn.getLsbD 29 = s
    revert op s
    decide +kernel
  refine c.execInteger_eq predecode ?_ hop
  -- ADD alone is not predecoded
  by_cases hadd : insn.getLsbD 30 = false ∧ insn.getLsbD 29 = false
  · rw [hadd.1, hadd.2] at hbits
    exact .inl (c.execDecoded_of_none (Pattern.decode_of_first_none hbits (by decide +kernel)))
  · have hpre : Pattern.decode predecodeCases insn = some .addSubShifted := by
      refine Pattern.decode_of_first hbits ?_
      generalize insn.getLsbD 30 = op at hadd
      generalize insn.getLsbD 29 = s at hadd
      clear hbits hop
      revert op s
      decide +kernel
    exact .inr (c.execDecoded_addSubShifted hpre)

theorem shiftReg_zero (w type amount : Nat) : A64.shiftReg (0#w) type amount = 0#w := by
  have hrotate : (0#w).rotateRight amount = 0#w := by
    apply BitVec.eq_of_getLsbD_eq
    intro i _
    rw [BitVec.getLsbD_rotateRight]
    simp
  match type with
  | 0 => exact BitVec.zero_shiftLeft amount
  | 1 => exact BitVec.zero_ushiftRight
  | 2 => exact BitVec.zero_sshiftRight
  | n + 3 => exact hrotate

theorem addOrSub_zero (w : Nat) (sub : Bool) : (addOrSub sub (0#w) (0#w)).1 = 0#w := by
  cases sub with
  | true => exact (sub_fst _ _).trans (BitVec.sub_self _)
  | false => exact (add_fst _ _).trans (BitVec.add_zero _)

/-- The writes of a shifted register form; `toD` says where a result without flags goes. -/
def shiftedEffect (insn : U32) (v : A64.View)
    (toD : (d : Nat) → BitVec (A64.width insn) → A64.Effect) : A64.Effect :=
  let w := A64.width insn
  let x := v.x w (bitField insn 5 5)
  let y := A64.shiftReg (v.x w (bitField insn 16 5)) (bitField insn 22 2) (bitField insn 10 6)
  if insn.getLsbD 29 then A64.addSubFlags (insn.getLsbD 30) (bitField insn 0 5) x y
  else toD (bitField insn 0 5) (addOrSub (insn.getLsbD 30) x y).1

section Shifted

variable {insn : U32} (h : ArithmeticClass.addSubShifted.pattern.Matches insn = true)
include h

theorem execInteger_shifted_of_three (predecode : Bool) (hthree : bitField insn 22 2 = 3) :
    c.execInteger predecode insn = c.undefined := by
  have hnone : c.execAddSubShifted insn (insn.getLsbD 30) = none := by
    rw [execAddSubShifted]
    exact if_pos (by omega)
  rw [execInteger_addSubShifted c predecode h, hnone]
  rfl

theorem execInteger_shifted_of_lt (predecode : Bool) (hthree : bitField insn 22 2 ≠ 3)
    (hlt : bitField insn 10 6 < A64.width insn) :
    c.execInteger predecode insn = c.apply (shiftedEffect insn c.a64View .toXSp) := by
  have htype := bitField_lt insn 22 2
  have hrm : bitField insn 16 5 < 32 := bitField_lt insn 16 5
  have hshift : (c.shiftedOperand (insn.getLsbD 31) (bitField insn 16 5) (bitField insn 22 2)
      (bitField insn 10 6)).setWidth (A64.width insn) =
      A64.shiftReg (c.a64View.x (A64.width insn) (bitField insn 16 5)) (bitField insn 22 2)
        (bitField insn 10 6) :=
    c.shiftedOperand_eq (insn.getLsbD 31) hrm (by omega) hlt
  rw [execInteger_addSubShifted c predecode h, execAddSubShifted_apply c insn _ hthree,
    Option.getD_some, shiftedEffect]
  dsimp only
  rw [← hshift]

/-- A shift that is too long is not refused. -/
theorem execInteger_shifted_ne (hthree : bitField insn 22 2 ≠ 3) :
    (Cpu.reset 0 0 0).execInteger false insn ≠ (Cpu.reset 0 0 0).undefined := by
  rw [execInteger_addSubShifted _ false h, execAddSubShifted_apply _ insn _ hthree]
  exact apply_ne_undefined rfl _

omit h in
theorem addSubShifted_of_lt (v : A64.View) (hthree : bitField insn 22 2 ≠ 3)
    (hlt : bitField insn 10 6 < A64.width insn) :
    A64.addSubShifted (A64.width insn) insn v =
      some (shiftedEffect insn v fun d value => .toX d value none) := by
  rw [A64.addSubShifted]
  exact if_neg (not_or.2 ⟨hthree, Nat.not_le.2 hlt⟩)

omit h in
/-- Without flags, register 31 is taken for the stack pointer. -/
theorem shiftedEffect_sp_ne (hflags : insn.getLsbD 29 = false) (hd : bitField insn 0 5 = 31) :
    (Cpu.reset 0 16 0).apply (shiftedEffect insn (Cpu.reset 0 16 0).a64View .toXSp) ≠
      (Cpu.reset 0 16 0).apply
        (shiftedEffect insn (Cpu.reset 0 16 0).a64View fun d value => .toX d value none) := by
  intro heq
  have hregs := congrArg (fun c => c.regs 31) heq
  simp only [shiftedEffect, hflags, Bool.false_eq_true, if_false, hd, apply_toXSp_regs,
    apply_toX_regs, reset_x] at hregs
  rw [shiftReg_zero, addOrSub_zero, BitVec.setWidth_zero] at hregs
  exact absurd hregs (by decide)

theorem addSubShifted_conforms_iff :
    Conforms A64.addSubShifted insn ↔ ¬ ArithmeticClass.addSubShifted.Misexecuted insn := by
  constructor
  · rintro hall ⟨hthree, hlong | ⟨hflags, hd⟩⟩
    · have hnone : A64.addSubShifted (A64.width insn) insn (Cpu.reset 0 0 0).a64View = none :=
        if_pos (.inr hlong)
      have heq := hall (Cpu.reset 0 0 0) false
      rw [hnone] at heq
      exact execInteger_shifted_ne h hthree heq
    · by_cases hlong : A64.width insn ≤ bitField insn 10 6
      · have hnone : A64.addSubShifted (A64.width insn) insn (Cpu.reset 0 0 0).a64View = none :=
          if_pos (.inr hlong)
        have heq := hall (Cpu.reset 0 0 0) false
        rw [hnone] at heq
        exact execInteger_shifted_ne h hthree heq
      · have heq := hall (Cpu.reset 0 16 0) false
        rw [execInteger_shifted_of_lt _ h false hthree (Nat.lt_of_not_le hlong),
          addSubShifted_of_lt _ hthree (Nat.lt_of_not_le hlong)] at heq
        exact shiftedEffect_sp_ne hflags hd heq
  · intro hok c predecode
    by_cases hthree : bitField insn 22 2 = 3
    · have hnone : A64.addSubShifted (A64.width insn) insn c.a64View = none := if_pos (.inl hthree)
      rw [execInteger_shifted_of_three c h predecode hthree, hnone]
      rfl
    · have hlt : bitField insn 10 6 < A64.width insn :=
        Nat.lt_of_not_le fun hlong => hok ⟨hthree, .inl hlong⟩
      rw [execInteger_shifted_of_lt c h predecode hthree hlt, addSubShifted_of_lt _ hthree hlt]
      have hsame : shiftedEffect insn c.a64View .toXSp =
          shiftedEffect insn c.a64View fun d value => .toX d value none := by
        rw [shiftedEffect, shiftedEffect]
        cases hflags : insn.getLsbD 29 with
        | true => rfl
        | false =>
          exact toXSp_eq_toX (fun hd => hok ⟨hthree, .inr ⟨hflags, hd⟩⟩) _
      rw [hsame]
      rfl

end Shifted

/-! ## Wide moves -/

/-- The body that the field `opc` selects; 1 is not a wide move. -/
def moveWideOp (opc : Nat) : IntegerOp :=
  match opc with
  | 0 => .movn
  | 2 => .movz
  | 3 => .movk
  | _ => .logicalImmediate

theorem opc_bits (insn : U32) :
    bitField insn 29 2 = (insn.getLsbD 29).toNat + 2 * (insn.getLsbD 30).toNat :=
  bitField_two insn 29

theorem decode_moveWide {insn : U32} (h : ArithmeticClass.moveWide.pattern.Matches insn = true) :
    Pattern.decode predecodeCases insn =
        some (if bitField insn 29 2 = 1 then .logicalImm else .movWide) ∧
      Pattern.decode integerCases insn = some (moveWideOp (bitField insn 29 2)) := by
  have hbits := Pattern.matches_withBit (Pattern.matches_withBit h 30) 29
  rw [opc_bits]
  generalize insn.getLsbD 30 = op at *
  generalize insn.getLsbD 29 = s at *
  constructor
  · refine Pattern.decode_of_first hbits ?_
    clear hbits
    revert op s
    decide +kernel
  · refine Pattern.decode_of_first hbits ?_
    clear hbits
    revert op s
    decide +kernel

theorem execDecoded_movWide {insn : U32} (hopc : bitField insn 29 2 ≠ 1)
    (hpre : Pattern.decode predecodeCases insn = some .movWide) :
    c.execDecoded (decodeInsn insn) = c.execIntegerOp insn (moveWideOp (bitField insn 29 2)) := by
  have hlt : bitField insn 29 2 < 4 := bitField_lt insn 29 2
  have hpast : 16 < bitField insn 21 2 * 16 ↔ 1 < bitField insn 21 2 := by omega
  have hcases : bitField insn 29 2 = 0 ∨ bitField insn 29 2 = 2 ∨ bitField insn 29 2 = 3 := by omega
  have hdecoded : c.execDecoded (decodeInsn insn) = c.execDecodedMovWide
      { kind := .movWide, rd := bitField insn 0 5, aux := bitField insn 29 2,
        aux2 := bitField insn 21 2 * 16, imm := bitField insn 5 16, sf := insn.getLsbD 31 } := by
    rw [decodeInsn, hpre]
    rfl
  rw [hdecoded, execDecodedMovWide]
  generalize bitField insn 29 2 = opc at hcases
  rcases hcases with rfl | rfl | rfl
  · simp only [hpast]
    rfl
  · rfl
  · simp only [hpast]
    rfl

/-- What a wide move writes. -/
def moveEffect (insn : U32) (v : A64.View) : A64.Effect :=
  let w := A64.width insn
  let d := bitField insn 0 5
  let pos := 16 * bitField insn 21 2
  let imm := BitVec.ofNat w (bitField insn 5 16) <<< pos
  match bitField insn 29 2 with
  | 0 => .toX d (~~~imm) none
  | 2 => .toX d imm none
  | _ => .toX d ((v.x w d &&& ~~~(BitVec.ofNat w 0xFFFF <<< pos)) ||| imm) none

theorem execMovn_eq (insn : U32) :
    c.execMovn insn =
      if A64.width insn ≤ 16 * bitField insn 21 2 then none
      else some (c.apply (.toX (bitField insn 0 5)
        (~~~(BitVec.ofNat (A64.width insn) (bitField insn 5 16) <<< (16 * bitField insn 21 2)))
          none)) := by
  have hhw : bitField insn 21 2 < 4 := bitField_lt insn 21 2
  rw [execMovn, width_eq, Nat.mul_comm 16]
  generalize bitField insn 21 2 = hw at *
  cases insn.getLsbD 31 with
  | true =>
    have hin : ¬ widthOf true ≤ hw * 16 := by
      change ¬ 64 ≤ hw * 16
      omega
    rw [if_neg hin, if_pos rfl, setReg_apply]
    rfl
  | false =>
    have hpast : widthOf false ≤ hw * 16 ↔ 1 < hw := by
      change 32 ≤ hw * 16 ↔ 1 < hw
      omega
    simp only [hpast, Bool.false_eq_true, if_false]
    rw [setReg32_apply, BitVec.setWidth_not (by decide), setWidth_ofNat_shiftLeft (by decide)]
    rfl

theorem execMovz_eq (insn : U32) :
    c.execMovz insn = some (c.apply (.toX (bitField insn 0 5)
      (BitVec.ofNat (A64.width insn) (bitField insn 5 16) <<<
        (16 * bitField insn 21 2)) none)) := by
  rw [execMovz, setRegOf_apply, setWidth_ofNat_shiftLeft (widthOf_le _), Nat.mul_comm 16]
  rfl

theorem execMovk_eq (insn : U32) :
    c.execMovk insn =
      if A64.width insn ≤ 16 * bitField insn 21 2 then none
      else some (c.apply (.toX (bitField insn 0 5)
        ((c.a64View.x (A64.width insn) (bitField insn 0 5) &&&
            ~~~(BitVec.ofNat (A64.width insn) 0xFFFF <<< (16 * bitField insn 21 2))) |||
          BitVec.ofNat (A64.width insn) (bitField insn 5 16) <<< (16 * bitField insn 21 2))
          none)) := by
  have hhw : bitField insn 21 2 < 4 := bitField_lt insn 21 2
  have hrd : bitField insn 0 5 < 32 := bitField_lt insn 0 5
  rw [execMovk, width_eq, Nat.mul_comm 16]
  generalize bitField insn 21 2 = hw at *
  cases insn.getLsbD 31 with
  | true =>
    have hin : ¬ widthOf true ≤ hw * 16 := by
      change ¬ 64 ≤ hw * 16
      omega
    rw [if_neg hin, if_pos rfl]
    dsimp only
    rw [setReg_apply, c.reg_eq hrd]
    rfl
  | false =>
    have hpast : widthOf false ≤ hw * 16 ↔ 1 < hw := by
      change 32 ≤ hw * 16 ↔ 1 < hw
      omega
    simp only [hpast, Bool.false_eq_true, if_false]
    rw [setReg32_apply, setWidth_ofNat_shiftLeft (by decide), c.reg32_eq hrd]
    rfl

section MoveWide

variable {insn : U32} (h : ArithmeticClass.moveWide.pattern.Matches insn = true)
include h

theorem execInteger_moveWide (predecode : Bool) (hopc : bitField insn 29 2 ≠ 1) :
    c.execInteger predecode insn =
      if bitField insn 29 2 ≠ 2 ∧ A64.width insn ≤ 16 * bitField insn 21 2 then c.undefined
      else c.apply (moveEffect insn c.a64View) := by
  obtain ⟨hpre, hop⟩ := decode_moveWide h
  rw [if_neg hopc] at hpre
  have hlt : bitField insn 29 2 < 4 := bitField_lt insn 29 2
  have hcases : bitField insn 29 2 = 0 ∨ bitField insn 29 2 = 2 ∨ bitField insn 29 2 = 3 := by omega
  rw [c.execInteger_eq predecode (.inr (c.execDecoded_movWide hopc hpre)) hop, moveEffect]
  rcases hcases with hcase | hcase | hcase
  · rw [hcase]
    change (c.execMovn insn).getD c.undefined = _
    rw [execMovn_eq]
    by_cases hpast : A64.width insn ≤ 16 * bitField insn 21 2
    · rw [if_pos hpast, if_pos ⟨by decide, hpast⟩]
      rfl
    · rw [if_neg hpast, if_neg (fun h => hpast h.2)]
      rfl
  · rw [hcase]
    change (c.execMovz insn).getD c.undefined = _
    rw [execMovz_eq, if_neg (fun h => h.1 rfl)]
    rfl
  · rw [hcase]
    change (c.execMovk insn).getD c.undefined = _
    rw [execMovk_eq]
    by_cases hpast : A64.width insn ≤ 16 * bitField insn 21 2
    · rw [if_pos hpast, if_pos ⟨by decide, hpast⟩]
      rfl
    · rw [if_neg hpast, if_neg (fun h => hpast h.2)]
      rfl

/-- The words that no wide move has are taken as logical immediates. -/
theorem execInteger_moveWide_of_one (predecode : Bool) (hopc : bitField insn 29 2 = 1) :
    c.execInteger predecode insn = (c.execLogicalImmediate insn).getD c.undefined := by
  obtain ⟨hpre, hop⟩ := decode_moveWide h
  rw [hopc] at hpre hop
  exact c.execInteger_logicalImm predecode hpre hop

omit h in
theorem moveWide_of_one (w : Nat) (v : A64.View) (hopc : bitField insn 29 2 = 1) :
    A64.moveWide w insn v = none := by
  rw [A64.moveWide, hopc]
  exact ite_self none

omit h in
theorem moveWide_of_past (v : A64.View) (hpast : A64.width insn ≤ 16 * bitField insn 21 2) :
    A64.moveWide (A64.width insn) insn v = none := by
  rw [A64.moveWide]
  exact if_pos hpast

omit h in
theorem moveWide_of_inside (v : A64.View) (hopc : bitField insn 29 2 ≠ 1)
    (hpast : ¬ A64.width insn ≤ 16 * bitField insn 21 2) :
    A64.moveWide (A64.width insn) insn v = some (moveEffect insn v) := by
  have hlt : bitField insn 29 2 < 4 := bitField_lt insn 29 2
  have hcases : bitField insn 29 2 = 0 ∨ bitField insn 29 2 = 2 ∨ bitField insn 29 2 = 3 := by omega
  rw [A64.moveWide, moveEffect, if_neg hpast]
  rcases hcases with hcase | hcase | hcase
  · rw [hcase]
    rfl
  · rw [hcase]
    rfl
  · rw [hcase]
    rfl

theorem moveWide_not_conforms (hmis : ArithmeticClass.moveWide.Misexecuted insn) :
    ¬ Conforms A64.moveWide insn := by
  intro hall
  have heq := hall (Cpu.reset 0 0 0) false
  rcases hmis with ⟨htwo, hpast⟩ | ⟨hone, hfits⟩
  · rw [moveWide_of_past _ hpast, execInteger_moveWide _ h false (by omega),
      if_neg (fun hno => hno.1 htwo)] at heq
    exact apply_ne_undefined rfl _ heq
  · rw [moveWide_of_one _ _ hone, execInteger_moveWide_of_one _ h false hone] at heq
    exact execLogicalImmediate_ne insn
      (mt (execLogicalImmediate_eq_none_iff _ insn).1 (not_not.2 hfits)) heq

theorem moveWide_conforms_iff :
    Conforms A64.moveWide insn ↔ ¬ ArithmeticClass.moveWide.Misexecuted insn := by
  refine ⟨fun hall hmis => moveWide_not_conforms h hmis hall, fun hok c predecode => ?_⟩
  by_cases hone : bitField insn 29 2 = 1
  · have hfits : ¬ ElementFits insn := fun hfits => hok (.inr ⟨hone, hfits⟩)
    rw [execInteger_moveWide_of_one c h predecode hone, moveWide_of_one _ _ hone,
      (execLogicalImmediate_eq_none_iff c insn).2 hfits]
    rfl
  · rw [execInteger_moveWide c h predecode hone]
    by_cases hpast : A64.width insn ≤ 16 * bitField insn 21 2
    · rw [if_pos ⟨fun htwo => hok (.inl ⟨htwo, hpast⟩), hpast⟩, moveWide_of_past _ hpast]
      rfl
    · rw [if_neg (fun h => hpast h.2), moveWide_of_inside _ hone hpast]
      rfl

end MoveWide

/-- The words of the three classes that do what the pseudocode says. -/
theorem arithmetic_conforms_iff (cls : ArithmeticClass) (x : cls.pattern.Word) :
    Conforms cls.effect x.insn ↔ ¬ cls.Misexecuted x.insn := by
  cases cls with
  | addSubImmediate => exact addSubImmediate_conforms_iff x.inClass
  | addSubShifted => exact addSubShifted_conforms_iff x.inClass
  | moveWide => exact moveWide_conforms_iff x.inClass

/-- ADDS with bit 23 set, ADD W0, W0, W0, LSL #32, ADD XZR, X0, X0, MOVZ W0, #0, LSL #32 and
the word of ORR W0, W0, #1 with bit 23 set. -/
theorem arithmetic_words_not_conform :
    ¬ Conforms A64.addSubImmediate 0x31800000 ∧
      ¬ Conforms A64.addSubShifted 0x0B008000 ∧
      ¬ Conforms A64.addSubShifted 0x8B00001F ∧
      ¬ Conforms A64.moveWide 0x52C00000 ∧
      ¬ Conforms A64.moveWide 0x32800000 := by
  refine ⟨?_, ?_, ?_, ?_, ?_⟩
  · rw [addSubImmediate_conforms_iff (by decide), not_not]
    exact ⟨by decide, .inr (by decide)⟩
  · rw [addSubShifted_conforms_iff (by decide), not_not]
    exact ⟨by decide, .inl (by decide)⟩
  · rw [addSubShifted_conforms_iff (by decide), not_not]
    exact ⟨by decide, .inr ⟨by decide, by decide⟩⟩
  · rw [moveWide_conforms_iff (by decide), not_not]
    exact .inl ⟨by decide, by decide⟩
  · rw [moveWide_conforms_iff (by decide), not_not]
    exact .inr ⟨by decide, by decide⟩

end Cpu
end Aarchvm

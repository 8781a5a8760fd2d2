import Aarchvm.Cpu.Arithmetic
import Aarchvm.Cpu.Conditions

/-!
# Conditional selection and comparison

The words of CSEL, CSINC, CSINV and CSNEG and of CCMN and CCMP against the pseudocode. The
program does not look at all the fixed bits, and under NV it takes the other operand or the
immediate flags, which is right only where both are always the same.
-/
namespace Aarchvm

open Lib

namespace Cpu

variable (c : Cpu)

/-! ## States with one register set -/

theorem setReg_x {i : Nat} (hi : i < 31) (value : U64) (w n : Nat) :
    ((Cpu.reset 0 0 0).setReg i value).a64View.x w n = if n = i then value.setWidth w else 0#w := by
  have hregs : ((Cpu.reset 0 0 0).setReg i value).regs =
      Function.update (Cpu.reset 0 0 0).regs i value := by
    rw [setReg, if_neg (by omega)]
  rw [A64.View.x]
  change (if n = 31 then 0 else (((Cpu.reset 0 0 0).setReg i value).regs n).setWidth w) = _
  rw [hregs]
  by_cases hn : n = i
  · rw [if_neg (by omega), if_pos hn, hn, Function.update_self]
  · rw [if_neg hn, Function.update_of_ne hn]
    by_cases h31 : n = 31
    · rw [if_pos h31]
      rfl
    · have hreg : (Cpu.reset 0 0 0).regs n = 0 := if_neg h31
      rw [if_neg h31, hreg]
      exact BitVec.setWidth_zero ..

/-- Different results in a register that is not XZR. -/
theorem apply_toX_inj {sf : Bool} {d : Nat} (hd : d < 31) {x y : BitVec (widthOf sf)}
    (h : c.apply (.toX d x none) = c.apply (.toX d y none)) : x = y := by
  have hreg : ∀ value : BitVec (widthOf sf),
      (c.apply (.toX d value none)).regs d = value.setWidth 64 := by
    intro value
    change (c.setReg d (value.setWidth 64)).regs d = _
    rw [setReg, if_neg (by omega)]
    exact Function.update_self ..
  have hvalue := congrArg (fun c => (c.regs d).setWidth (widthOf sf)) h
  simpa only [hreg, setWidth_back] using hvalue

theorem setFlags_inj {f g : Flags} (h : c.setFlags f = c.setFlags g) : f = g :=
  congrArg Cpu.flags h

/-! ## Selection -/

/-- The operand that is taken when the condition does not hold. -/
def elseValue {w : Nat} (insn : U32) (y : BitVec w) : BitVec w :=
  let y := if insn.getLsbD 30 then ~~~y else y
  if insn.getLsbD 10 then y + 1 else y

/-- `sf op S 11010100 Rm cond op2 Rn Rd`. -/
def selectPattern : Pattern 32 := ⟨0x1FE00000, 0x1A800000⟩

/-- Both operands are always the same: CSEL of one register, or CSNEG of XZR. -/
def SameOperands (insn : U32) : Prop :=
  insn.getLsbD 30 = false ∧ insn.getLsbD 10 = false ∧ bitField insn 5 5 = bitField insn 16 5 ∨
    insn.getLsbD 30 = true ∧ insn.getLsbD 10 = true ∧ bitField insn 5 5 = 31 ∧
      bitField insn 16 5 = 31

/-- `S` set is run, and NV selects the second operand. -/
def SelectMisexecuted (insn : U32) : Prop :=
  insn.getLsbD 11 = false ∧
    (insn.getLsbD 29 = true ∨
      bitField insn 12 4 = 15 ∧ bitField insn 0 5 ≠ 31 ∧ ¬ SameOperands insn)

theorem execCsel_eq (insn : U32) :
    c.execCsel insn = some (c.apply (.toX (bitField insn 0 5)
      (if c.conditionHolds (BitVec.ofNat 32 (bitField insn 12 4)) then
        c.a64View.x (A64.width insn) (bitField insn 5 5)
      else elseValue insn (c.a64View.x (A64.width insn) (bitField insn 16 5))) none)) := by
  have hrn : bitField insn 5 5 < 32 := bitField_lt insn 5 5
  have hrm : bitField insn 16 5 < 32 := bitField_lt insn 16 5
  have hw := widthOf_le (insn.getLsbD 31)
  have hone : (1 : U64).setWidth (widthOf (insn.getLsbD 31)) = 1 :=
    BitVec.setWidth_ofNat_of_le hw 1
  rw [execCsel, setRegOf_apply, c.regOf_eq hrn, c.regOf_eq hrm, width_eq,
    apply_ite (BitVec.setWidth _), setWidth_back, elseValue]
  generalize c.a64View.x (widthOf (insn.getLsbD 31)) (bitField insn 16 5) = y
  cases insn.getLsbD 30 <;> cases insn.getLsbD 10
  · simp only [setWidth_back, Bool.false_eq_true, if_false]
  · simp only [BitVec.setWidth_add _ _ hw, setWidth_back, hone, Bool.false_eq_true, if_false,
      if_true]
  · simp only [BitVec.setWidth_not hw, setWidth_back, Bool.false_eq_true, if_false, if_true]
  · have hneg : (-(y.setWidth 64)).setWidth (widthOf (insn.getLsbD 31)) = ~~~y + 1 := by
      rw [BitVec.setWidth_neg_of_le hw, setWidth_back, BitVec.neg_eq_not_add]
      rfl
    simp only [hneg, if_true]

section Select

variable {insn : U32} (h : selectPattern.Matches insn = true)
include h

theorem execInteger_select (predecode : Bool) :
    c.execInteger predecode insn =
      if insn.getLsbD 11 then c.undefined else (c.execCsel insn).getD c.undefined := by
  have hbits := Pattern.matches_withBit (Pattern.matches_withBit h 11) 10
  cases hbit : insn.getLsbD 11 with
  | true =>
    rw [hbit] at hbits
    have hrefused : Refused ((selectPattern.withBit 11 true).withBit 10 (insn.getLsbD 10)) := by
      generalize insn.getLsbD 10 = o2
      revert o2
      decide +kernel
    rw [c.execInteger_refused predecode (by decide +kernel) h hrefused hbits]
    rfl
  | false =>
    rw [hbit] at hbits
    have hop : Pattern.decode integerCases insn = some .csel := by
      refine Pattern.decode_of_first hbits ?_
      generalize insn.getLsbD 10 = o2
      revert o2
      decide +kernel
    rw [c.execInteger_plain predecode (by decide +kernel) h hop]
    rfl

omit h in
theorem conditionalSelect_eq (w : Nat) (v : A64.View) :
    A64.conditionalSelect w insn v =
      if insn.getLsbD 29 ∨ insn.getLsbD 11 then none
      else some (.toX (bitField insn 0 5)
        (if A64.conditionHolds v.flags (bitField insn 12 4) then v.x w (bitField insn 5 5)
        else elseValue insn (v.x w (bitField insn 16 5))) none) := rfl

omit h in
theorem sameOperands_eq (hsame : SameOperands insn) (w : Nat) (v : A64.View) :
    v.x w (bitField insn 5 5) = elseValue insn (v.x w (bitField insn 16 5)) := by
  rw [elseValue]
  rcases hsame with ⟨hop, ho2, hregs⟩ | ⟨hop, ho2, hrn, hrm⟩
  · rw [hop, ho2, hregs]
    rfl
  · rw [hop, ho2, hrn, hrm]
    change 0#w = ~~~0#w + 1#w
    rw [← BitVec.neg_eq_not_add, BitVec.neg_zero]

omit h in
/-- Under NV, a state in which the operands differ. -/
theorem exists_operands_ne (hsame : ¬ SameOperands insn) :
    ∃ c : Cpu, c.a64View.x (A64.width insn) (bitField insn 5 5) ≠
      elseValue insn (c.a64View.x (A64.width insn) (bitField insn 16 5)) := by
  have hrn : bitField insn 5 5 < 32 := bitField_lt insn 5 5
  have hrm : bitField insn 16 5 < 32 := bitField_lt insn 16 5
  have hvalues : (1 : U64).setWidth (A64.width insn) ≠ 0 ∧
      (1 : U64).setWidth (A64.width insn) ≠ ~~~((1 : U64).setWidth (A64.width insn)) + 1 ∧
      (0 : BitVec (A64.width insn)) ≠ 0 + 1 ∧ (0 : BitVec (A64.width insn)) ≠ ~~~0 ∧
      (1 : U64).setWidth (A64.width insn) ≠ ~~~0 + 1 ∧
      (0 : BitVec (A64.width insn)) ≠ ~~~((1 : U64).setWidth (A64.width insn)) + 1 := by
    rw [width_eq]
    cases insn.getLsbD 31 <;> decide
  obtain ⟨hone, hneg, hinc, hinv, hneg₀, hneg₁⟩ := hvalues
  have hreset := fun n => reset_x 0 0 0 (A64.width insn) n
  rw [SameOperands] at hsame
  cases hop : insn.getLsbD 30 <;> cases ho2 : insn.getLsbD 10
  · -- CSEL of two registers
    have hregs : bitField insn 5 5 ≠ bitField insn 16 5 := fun hregs =>
      hsame (.inl ⟨hop, ho2, hregs⟩)
    by_cases hsp : bitField insn 5 5 = 31
    · refine ⟨(Cpu.reset 0 0 0).setReg (bitField insn 16 5) 1, ?_⟩
      rw [setReg_x (by omega), setReg_x (by omega), if_neg hregs, if_pos rfl, elseValue, hop, ho2]
      exact hone.symm
    · refine ⟨(Cpu.reset 0 0 0).setReg (bitField insn 5 5) 1, ?_⟩
      rw [setReg_x (by omega), setReg_x (by omega), if_neg hregs.symm, if_pos rfl, elseValue, hop,
        ho2]
      exact hone
  · refine ⟨Cpu.reset 0 0 0, ?_⟩
    rw [hreset, hreset, elseValue, hop, ho2]
    exact hinc
  · refine ⟨Cpu.reset 0 0 0, ?_⟩
    rw [hreset, hreset, elseValue, hop, ho2]
    exact hinv
  · by_cases hsp : bitField insn 5 5 = 31
    · have hother : bitField insn 16 5 ≠ 31 := fun hother =>
        hsame (.inr ⟨hop, ho2, hsp, hother⟩)
      refine ⟨(Cpu.reset 0 0 0).setReg (bitField insn 16 5) 1, ?_⟩
      rw [setReg_x (by omega), setReg_x (by omega), if_neg (by omega), if_pos rfl, elseValue, hop,
        ho2]
      exact hneg₁
    · refine ⟨(Cpu.reset 0 0 0).setReg (bitField insn 5 5) 1, ?_⟩
      rw [setReg_x (by omega), setReg_x (by omega), if_pos rfl, elseValue, hop, ho2]
      by_cases hregs : bitField insn 16 5 = bitField insn 5 5
      · rw [if_pos hregs]
        exact hneg
      · rw [if_neg hregs]
        exact hneg₀

theorem select_conforms_iff :
    Conforms A64.conditionalSelect insn ↔ ¬ SelectMisexecuted insn := by
  have hd : bitField insn 0 5 < 32 := bitField_lt insn 0 5
  constructor
  · rintro hall ⟨hop2, hmis⟩
    by_cases hs : insn.getLsbD 29 = true
    · have hcode := execInteger_select (Cpu.reset 0 0 0) h false
      rw [hop2, if_neg Bool.false_ne_true, execCsel_eq, Option.getD_some] at hcode
      exact not_conforms_of_none (if_pos (.inl hs)) hcode hall
    · obtain ⟨hnv, hrd, hsame⟩ := hmis.resolve_left hs
      obtain ⟨c, hne⟩ := exists_operands_ne hsame
      have hcond : c.conditionHolds (BitVec.ofNat 32 (bitField insn 12 4)) = false :=
        c.conditionHolds_nv (by rw [condField_toNat, hnv])
      have hnone : ¬ (insn.getLsbD 29 = true ∨ insn.getLsbD 11 = true) := by
        rw [hop2]
        exact not_or.2 ⟨hs, Bool.false_ne_true⟩
      have heq := hall c false
      rw [execInteger_select c h, hop2, if_neg Bool.false_ne_true, execCsel_eq, hcond,
        if_neg Bool.false_ne_true, conditionalSelect_eq, if_neg hnone,
        conditionHolds_true _ (by omega) (by omega), if_pos rfl] at heq
      exact hne (c.apply_toX_inj (by omega) heq).symm
  · intro hok c predecode
    rw [execInteger_select c h, conditionalSelect_eq]
    by_cases hop2 : insn.getLsbD 11 = true
    · rw [if_pos hop2, if_pos (.inr hop2)]
      rfl
    · have hs : ¬ insn.getLsbD 29 = true := fun hs =>
        hok ⟨Bool.eq_false_iff.2 hop2, .inl hs⟩
      rw [if_neg hop2, if_neg (not_or.2 ⟨hs, hop2⟩), execCsel_eq, Option.getD_some]
      by_cases hnv : bitField insn 12 4 = 15
      · by_cases hrd : bitField insn 0 5 = 31
        · rw [hrd]
          rfl
        · have hsame : SameOperands insn := by
            by_contra hsame
            exact hok ⟨Bool.eq_false_iff.2 hop2, .inr ⟨hnv, hrd, hsame⟩⟩
          rw [← sameOperands_eq hsame, ite_self, ite_self]
          rfl
      · rw [conditionHolds_of_ne c (by rw [condField_toNat]; exact hnv), condField_toNat]
        rfl

end Select

/-! ## Comparison -/

/-- `sf op S 11010010 Rm/imm5 cond imm o2 Rn o3 nzcv`. -/
def comparePattern : Pattern 32 := ⟨0x1FE00000, 0x1A400000⟩

/-- The second operand of a conditional comparison. -/
def compareOperand (w : Nat) (insn : U32) (v : A64.View) : BitVec w :=
  if insn.getLsbD 11 then BitVec.ofNat w (bitField insn 16 5) else v.x w (bitField insn 16 5)

/-- The flags that a comparison sets. -/
def comparison (w : Nat) (insn : U32) (v : A64.View) : Flags :=
  (addOrSub (insn.getLsbD 30) (v.x w (bitField insn 5 5)) (compareOperand w insn v)).2

/-- The comparison always has the same flags: of constants, or of a register with itself. -/
def FixedOperands (insn : U32) : Prop :=
  bitField insn 5 5 = 31 ∧ (insn.getLsbD 11 = true ∨ bitField insn 16 5 = 31) ∨
    insn.getLsbD 11 = false ∧ insn.getLsbD 30 = true ∧ bitField insn 5 5 = bitField insn 16 5

/-- And they are the immediate. -/
def FixedFlags (insn : U32) : Prop :=
  FixedOperands insn ∧
    (addOrSub (insn.getLsbD 30) (0#(A64.width insn))
      (if insn.getLsbD 11 then BitVec.ofNat _ (bitField insn 16 5) else 0)).2 =
        A64.nzcvField insn

/-- `S` clear and `o2` set are run, and NV sets the immediate flags. -/
def CompareMisexecuted (insn : U32) : Prop :=
  insn.getLsbD 4 = false ∧
    (insn.getLsbD 29 = false ∨ insn.getLsbD 10 = true ∨
      bitField insn 12 4 = 15 ∧ ¬ FixedFlags insn)

theorem execCcmp_apply (insn : U32) :
    c.execCcmp insn = some (c.apply ⟨none, some (
      if c.conditionHolds (BitVec.ofNat 32 (bitField insn 12 4)) then
        comparison (A64.width insn) insn c.a64View
      else A64.nzcvField insn)⟩) := by
  have hrn : bitField insn 5 5 < 32 := bitField_lt insn 5 5
  have hrm : bitField insn 16 5 < 32 := bitField_lt insn 16 5
  have himm : (BitVec.ofNat 64 (bitField insn 16 5)).setWidth 32 =
      BitVec.ofNat 32 (bitField insn 16 5) := BitVec.setWidth_ofNat_of_le (by decide) _
  rw [execCcmp, comparison, compareOperand, width_eq, c.regOf_eq hrn, c.regOf_eq hrm]
  cases insn.getLsbD 31 with
  | true =>
    simp only [if_true, compareFlags_eq (show 0 < 64 by decide), Bool.not_not]
    rfl
  | false =>
    simp only [Bool.false_eq_true, if_false, compareFlags_eq (show 0 < 32 by decide), Bool.not_not,
      apply_ite (BitVec.setWidth 32), himm, setWidth_low32]
    rfl

theorem addOrSub_z {w : Nat} (sub : Bool) (x y : BitVec w) :
    (addOrSub sub x y).2.z = true ↔ (if sub then x - y else x + y) = 0 := by
  cases sub with
  | true =>
    rw [if_pos rfl, ← sub_fst]
    exact zero_iff x (~~~y) true
  | false =>
    rw [if_neg Bool.false_ne_true, ← add_fst]
    exact zero_iff x y false

section Compare

variable {insn : U32} (h : comparePattern.Matches insn = true)
include h

theorem execInteger_compare (predecode : Bool) :
    c.execInteger predecode insn =
      if insn.getLsbD 4 then c.undefined else (c.execCcmp insn).getD c.undefined := by
  have hbits := Pattern.matches_withBit h 4
  cases hbit : insn.getLsbD 4 with
  | true =>
    rw [hbit] at hbits
    have hrefused : Refused (comparePattern.withBit 4 true) := by decide +kernel
    rw [c.execInteger_refused predecode (by decide +kernel) h hrefused hbits]
    rfl
  | false =>
    rw [hbit] at hbits
    have hop : Pattern.decode integerCases insn = some .ccmp :=
      Pattern.decode_of_first hbits (by decide +kernel)
    rw [c.execInteger_plain predecode (by decide +kernel) h hop]
    rfl

omit h in
theorem conditionalCompare_eq (w : Nat) (v : A64.View) :
    A64.conditionalCompare w insn v =
      if ¬ insn.getLsbD 29 ∨ insn.getLsbD 10 ∨ insn.getLsbD 4 then none
      else some ⟨none, some (
        if A64.conditionHolds v.flags (bitField insn 12 4) then comparison w insn v
        else A64.nzcvField insn)⟩ := rfl

omit h in
theorem width_pos : 0 < A64.width insn := by
  rw [width_eq]
  cases insn.getLsbD 31 <;> decide

omit h in
theorem comparison_of_fixed (hfixed : FixedOperands insn) (v : A64.View) :
    comparison (A64.width insn) insn v =
      (addOrSub (insn.getLsbD 30) (0#(A64.width insn))
        (if insn.getLsbD 11 then BitVec.ofNat _ (bitField insn 16 5) else 0)).2 := by
  have hzero : v.x (A64.width insn) 31 = 0#_ := rfl
  rw [comparison, compareOperand]
  rcases hfixed with ⟨hrn, himm | hrm⟩ | ⟨himm, hop, hregs⟩
  · rw [hrn, himm, hzero]
    rfl
  · rw [hrn, hrm, hzero]
    rfl
  · rw [himm, hop, hregs, if_neg Bool.false_ne_true, if_neg Bool.false_ne_true,
      sub_flags width_pos, sub_flags width_pos]
    simp

omit h in
/-- Operands that are not fixed can be the same and can differ. -/
theorem exists_comparison_ne (hfixed : ¬ FixedOperands insn) :
    ∃ c c' : Cpu, comparison (A64.width insn) insn c.a64View ≠
      comparison (A64.width insn) insn c'.a64View := by
  have hrn : bitField insn 5 5 < 32 := bitField_lt insn 5 5
  have hrm : bitField insn 16 5 < 32 := bitField_lt insn 16 5
  have hw : A64.width insn ≤ 64 := widthOf_le _
  have hone : (1 : U64).setWidth (A64.width insn) = 1 := BitVec.setWidth_ofNat_of_le hw 1
  have hvalues : (1 : BitVec (A64.width insn)) ≠ 0 ∧ (1 + 1 : BitVec (A64.width insn)) ≠ 0 ∧
      (0 - 1 : BitVec (A64.width insn)) ≠ 0 := by
    rw [width_eq]
    cases insn.getLsbD 31 <;> decide
  obtain ⟨h1, h2, hneg⟩ := hvalues
  rw [FixedOperands] at hfixed
  -- the zero flag tells the two states apart
  suffices hz : ∃ c c' : Cpu,
      (comparison (A64.width insn) insn c.a64View).z = true ∧
        ¬ (comparison (A64.width insn) insn c'.a64View).z = true by
    obtain ⟨c, c', hc, hc'⟩ := hz
    exact ⟨c, c', fun heq => hc' (heq ▸ hc)⟩
  simp only [comparison, compareOperand, addOrSub_z]
  cases himm : insn.getLsbD 11 with
  | true =>
    have hsp : bitField insn 5 5 ≠ 31 := fun hsp => hfixed (.inl ⟨hsp, .inl himm⟩)
    let y := BitVec.ofNat (A64.width insn) (bitField insn 16 5)
    let x := if insn.getLsbD 30 then y else -y
    have hback : ∀ z : BitVec (A64.width insn), (z.setWidth 64).setWidth (A64.width insn) = z :=
      fun z => setWidth_back z
    refine ⟨(Cpu.reset 0 0 0).setReg (bitField insn 5 5) (x.setWidth 64),
      (Cpu.reset 0 0 0).setReg (bitField insn 5 5) ((x + 1).setWidth 64), ?_, ?_⟩
    · rw [setReg_x (by omega), if_pos rfl, hback, if_pos rfl]
      change (if insn.getLsbD 30 then x - y else x + y) = 0
      cases hop : insn.getLsbD 30 with
      | true =>
        simp only [x, hop, if_true]
        exact BitVec.sub_self y
      | false =>
        simp only [x, hop, Bool.false_eq_true, if_false]
        exact BitVec.add_left_neg y
    · rw [setReg_x (by omega), if_pos rfl, hback, if_pos rfl]
      change ¬ (if insn.getLsbD 30 then x + 1 - y else x + 1 + y) = 0
      have hsum : (if insn.getLsbD 30 then x + 1 - y else x + 1 + y) = 1 := by
        cases hop : insn.getLsbD 30 with
        | true =>
          simp only [x, hop, if_true]
          rw [BitVec.add_comm, BitVec.add_sub_cancel]
        | false =>
          simp only [x, hop, Bool.false_eq_true, if_false]
          rw [BitVec.add_comm, ← BitVec.add_assoc, ← BitVec.sub_eq_add_neg, BitVec.sub_self]
          exact BitVec.zero_add 1
      rw [hsum]
      exact h1
  | false =>
    simp only [Bool.false_eq_true, if_false]
    refine ⟨Cpu.reset 0 0 0,
      (Cpu.reset 0 0 0).setReg (if bitField insn 5 5 = 31 then bitField insn 16 5
        else bitField insn 5 5) 1, ?_, ?_⟩
    · rw [reset_x, reset_x]
      cases insn.getLsbD 30 <;> simp
    · by_cases hsp : bitField insn 5 5 = 31
      · have hother : bitField insn 16 5 ≠ 31 := fun hother =>
          hfixed (.inl ⟨hsp, .inr hother⟩)
        have hregs : bitField insn 5 5 ≠ bitField insn 16 5 := by omega
        rw [if_pos hsp, setReg_x (by omega), setReg_x (by omega), if_neg hregs, if_pos rfl, hone]
        cases insn.getLsbD 30 with
        | true => exact hneg
        | false =>
          rw [if_neg Bool.false_ne_true]
          exact fun heq => h1 ((BitVec.zero_add 1).symm.trans heq)
      · rw [if_neg hsp, setReg_x (by omega), setReg_x (by omega), if_pos rfl, hone]
        by_cases hregs : bitField insn 16 5 = bitField insn 5 5
        · have hop : insn.getLsbD 30 = false := by
            by_contra hop
            exact hfixed (.inr ⟨himm, Bool.not_eq_false _ ▸ hop, hregs.symm⟩)
          rw [if_pos hregs, hop, if_neg Bool.false_ne_true]
          exact h2
        · rw [if_neg hregs]
          cases insn.getLsbD 30 with
          | true => exact fun heq => h1 ((BitVec.sub_zero 1).symm.trans heq)
          | false => exact fun heq => h1 ((BitVec.add_zero 1).symm.trans heq)

theorem compare_conforms_iff :
    Conforms A64.conditionalCompare insn ↔ ¬ CompareMisexecuted insn := by
  constructor
  · rintro hall ⟨ho3, hmis⟩
    have hcode := execInteger_compare (Cpu.reset 0 0 0) h false
    rw [ho3, if_neg Bool.false_ne_true, execCcmp_apply, Option.getD_some] at hcode
    by_cases hs : insn.getLsbD 29 = true
    · by_cases ho2 : insn.getLsbD 10 = true
      · exact not_conforms_of_none (if_pos (.inr (.inl ho2))) hcode hall
      · have hsome : ¬ (¬ insn.getLsbD 29 = true ∨ insn.getLsbD 10 = true ∨
            insn.getLsbD 4 = true) := by
          rw [ho3]
          exact not_or.2 ⟨not_not.2 hs, not_or.2 ⟨ho2, Bool.false_ne_true⟩⟩
        have hs' : insn.getLsbD 29 ≠ false := Bool.eq_false_iff.not_left.2 hs
        obtain ⟨hnv, hflags⟩ := (hmis.resolve_left hs').resolve_left ho2
        -- under NV conformance says that every comparison has the immediate flags
        have hconst : ∀ c : Cpu,
            A64.nzcvField insn = comparison (A64.width insn) insn c.a64View := by
          intro c
          have hcond : c.conditionHolds (BitVec.ofNat 32 (bitField insn 12 4)) = false :=
            c.conditionHolds_nv (by rw [condField_toNat, hnv])
          have heq := hall c false
          rw [execInteger_compare c h, ho3, if_neg Bool.false_ne_true, execCcmp_apply, hcond,
            if_neg Bool.false_ne_true, conditionalCompare_eq, if_neg hsome,
            conditionHolds_true _ (by omega) (by omega), if_pos rfl] at heq
          exact c.setFlags_inj heq
        by_cases hfixed : FixedOperands insn
        · exact hflags ⟨hfixed, by rw [hconst (Cpu.reset 0 0 0), comparison_of_fixed hfixed]⟩
        · obtain ⟨c, c', hne⟩ := exists_comparison_ne hfixed
          exact hne ((hconst c).symm.trans (hconst c'))
    · exact not_conforms_of_none (if_pos (.inl hs)) hcode hall
  · intro hok c predecode
    rw [execInteger_compare c h, conditionalCompare_eq]
    by_cases ho3 : insn.getLsbD 4 = true
    · rw [if_pos ho3, if_pos (.inr (.inr ho3))]
      rfl
    · have hs : insn.getLsbD 29 = true := by
        by_contra hs
        exact hok ⟨Bool.eq_false_iff.2 ho3, .inl (Bool.eq_false_iff.2 hs)⟩
      have ho2 : ¬ insn.getLsbD 10 = true := fun ho2 =>
        hok ⟨Bool.eq_false_iff.2 ho3, .inr (.inl ho2)⟩
      rw [if_neg ho3, if_neg (not_or.2 ⟨not_not.2 hs, not_or.2 ⟨ho2, ho3⟩⟩), execCcmp_apply,
        Option.getD_some]
      by_cases hnv : bitField insn 12 4 = 15
      · have hflags : FixedFlags insn := by
          by_contra hflags
          exact hok ⟨Bool.eq_false_iff.2 ho3, .inr (.inr ⟨hnv, hflags⟩)⟩
        rw [comparison_of_fixed hflags.1, hflags.2, ite_self, ite_self]
        rfl
      · rw [conditionHolds_of_ne c (by rw [condField_toNat]; exact hnv), condField_toNat]
        rfl

end Compare

end Cpu
end Aarchvm

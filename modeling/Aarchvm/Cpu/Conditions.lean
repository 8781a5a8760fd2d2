import Aarchvm.Cpu.Effects

/-!
# What the condition codes mean

After the comparison of two operands each condition code is a relation between them;
after their sum, carry and overflow say that the exact sum is out of range; CCMP and CCMN
set these flags or their immediate. The code NV never holds here.
-/
namespace Aarchvm

open Lib

/-- What a condition code says of two operands once their difference has set the flags. -/
def Relation {w : Nat} (cond : Nat) (x y : BitVec w) : Prop :=
  match cond with
  | 0x0 => x = y
  | 0x1 => x ≠ y
  | 0x2 => y.toNat ≤ x.toNat
  | 0x3 => x.toNat < y.toNat
  | 0x4 => (x - y).toInt < 0
  | 0x5 => 0 ≤ (x - y).toInt
  | 0x6 => (x - y).toInt ≠ x.toInt - y.toInt
  | 0x7 => (x - y).toInt = x.toInt - y.toInt
  | 0x8 => y.toNat < x.toNat
  | 0x9 => x.toNat ≤ y.toNat
  | 0xA => y.toInt ≤ x.toInt
  | 0xB => x.toInt < y.toInt
  | 0xC => y.toInt < x.toInt
  | 0xD => x.toInt ≤ y.toInt
  | _ => True

/-! ## The architectural conditions -/

theorem toInt_neg_iff {w : Nat} (x : BitVec w) : x.msb = true ↔ x.toInt < 0 := by
  rcases signed_cases x with ⟨h, -, hmsb⟩ | ⟨h, hle, hmsb⟩
  · rw [hmsb, h]
    simp
  · have hx := x.isLt
    rw [hmsb, h]
    simp only [true_iff]
    omega

/-- The conditions on the flags of a difference are the relations of the operands. -/
theorem conditionHolds_sub {w : Nat} (hw : 0 < w) (x y : BitVec w) {k : Nat} (hk : k < 16) :
    A64.conditionHolds (addOrSub true x y).2 k = true ↔ Relation k x y := by
  have hz := sub_zero_iff x y
  have hc := sub_carry_iff x y
  have hv := sub_overflow_iff hw x y
  have hlt := sub_lt_iff hw x y
  have hn : (addOrSub true x y).2.n = true ↔ (x - y).toInt < 0 := by
    rw [← toInt_neg_iff, ← sub_fst]
    rfl
  have hzn : (addOrSub true x y).2.z = true ↔ x.toNat = y.toNat := hz.trans BitVec.toNat_eq
  have hzi : (addOrSub true x y).2.z = true ↔ x.toInt = y.toInt :=
    hz.trans ⟨congrArg _, BitVec.eq_of_toInt_eq⟩
  generalize (addOrSub true x y).2 = f at *
  interval_cases k <;> simp only [A64.conditionHolds, Relation] <;> grind

theorem conditionHolds_true (f : Flags) {k : Nat} (hk : 14 ≤ k) (hlt : k < 16) :
    A64.conditionHolds f k = true := by
  interval_cases k <;> rfl

/-- The signed sum wraps exactly when it is out of range. -/
theorem toInt_add_ne_iff {w : Nat} (hw : 0 < w) (x y : BitVec w) :
    (x + y).toInt ≠ x.toInt + y.toInt ↔
      x.toInt + y.toInt < -2 ^ (w - 1) ∨ 2 ^ (w - 1) ≤ x.toInt + y.toInt := by
  have hpow := two_pow_even hw
  have hcast : ((2 ^ (w - 1) : Nat) : Int) = 2 ^ (w - 1) := by norm_cast
  have hsum : (x + y).toNat = (x.toNat + y.toNat) % 2 ^ w := BitVec.toNat_add x y
  have hx := x.isLt
  have hy := y.isLt
  rw [← hcast]
  generalize 2 ^ (w - 1) = half at *
  have hwrap : (x + y).toNat = x.toNat + y.toNat ∨ (x + y).toNat + 2 ^ w = x.toNat + y.toNat := by
    rw [hsum]
    by_cases h : x.toNat + y.toNat < 2 ^ w
    · left
      exact Nat.mod_eq_of_lt h
    · right
      rw [Nat.mod_eq_sub_mod (Nat.le_of_not_lt h), Nat.mod_eq_of_lt (by omega)]
      omega
  rcases signed_cases x with ⟨h₁, h₁', -⟩ | ⟨h₁, h₁', -⟩ <;>
  rcases signed_cases y with ⟨h₂, h₂', -⟩ | ⟨h₂, h₂', -⟩ <;>
  rcases signed_cases (x + y) with ⟨h₃, h₃', -⟩ | ⟨h₃, h₃', -⟩ <;>
  omega

/-! ## Comparisons -/

/-- An allocated CCMN or CCMP. -/
def ccmpPattern : Pattern 32 := ⟨0x3FE00410, 0x3A400000⟩

namespace Cpu

variable (c : Cpu)

theorem compareFlags_eq {w : Nat} (hw : 0 < w) (isCcmn : Bool) (x y : BitVec w) :
    compareFlags isCcmn x y = (addOrSub (!isCcmn) x y).2 := by
  cases isCcmn with
  | true => exact (add_flags hw x y).symm
  | false => exact (sub_flags hw x y).symm

theorem setFlagsAdd_eq (x y result : U64) (sf : Bool)
    (h : result.setWidth (widthOf sf) = x.setWidth (widthOf sf) + y.setWidth (widthOf sf)) :
    c.setFlagsAdd x y result (!sf) =
      c.setFlags (addOrSub false (x.setWidth (widthOf sf)) (y.setWidth (widthOf sf))).2 := by
  cases sf with
  | true =>
    change result.setWidth 64 = x.setWidth 64 + y.setWidth 64 at h
    change _ = c.setFlags (addOrSub false (x.setWidth 64) (y.setWidth 64)).2
    simp only [BitVec.setWidth_eq] at h ⊢
    rw [h]
    exact c.setFlagsAdd_wide x y
  | false => exact c.setFlagsAdd_narrow x y result h

theorem setFlagsSub_eq (x y result : U64) (sf : Bool)
    (h : result.setWidth (widthOf sf) = x.setWidth (widthOf sf) - y.setWidth (widthOf sf)) :
    c.setFlagsSub x y result (!sf) =
      c.setFlags (addOrSub true (x.setWidth (widthOf sf)) (y.setWidth (widthOf sf))).2 := by
  cases sf with
  | true =>
    change result.setWidth 64 = x.setWidth 64 - y.setWidth 64 at h
    change _ = c.setFlags (addOrSub true (x.setWidth 64) (y.setWidth 64)).2
    simp only [BitVec.setWidth_eq] at h ⊢
    rw [h]
    exact c.setFlagsSub_wide x y
  | false => exact c.setFlagsSub_narrow x y result h

/-- CCMN and CCMP as `step` executes them. -/
theorem execInteger_ccmp (predecode : Bool) {insn : U32} (h : ccmpPattern.Matches insn = true) :
    c.execInteger predecode insn = (c.execCcmp insn).getD c.undefined := by
  have hpre : Pattern.decode predecodeCases insn = none :=
    Pattern.decode_eq_none (by decide +kernel) h
  have hop : Pattern.decode integerCases insn = some .ccmp :=
    Pattern.decode_of_first h (by decide +kernel)
  exact c.execInteger_eq predecode (.inl (c.execDecoded_of_none hpre)) hop

/-- The operands of a conditional comparison. -/
def ccmpOperands (insn : U32) : U64 × U64 :=
  let sf := insn.getLsbD 31
  let rm := bitField insn 16 5
  (c.regOf sf (bitField insn 5 5), if insn.getLsbD 11 then BitVec.ofNat 64 rm else c.regOf sf rm)

/-- CCMN and CCMP set the flags of a sum or a difference, or their immediate. -/
theorem execCcmp_eq (insn : U32) :
    c.execCcmp insn = some (
      let (x, y) := c.ccmpOperands insn
      if c.conditionHolds (BitVec.ofNat 32 (bitField insn 12 4)) then
        if insn.getLsbD 30 then c.setFlagsSub x y (x - y) (!insn.getLsbD 31)
        else c.setFlagsAdd x y (x + y) (!insn.getLsbD 31)
      else c.setFlags (A64.nzcvField insn)) := by
  have hle : 32 ≤ 64 := by decide
  rw [execCcmp, ccmpOperands]
  generalize (if insn.getLsbD 11 = true then _ else _ : U64) = y
  generalize c.regOf (insn.getLsbD 31) (bitField insn 5 5) = x
  congr 1
  simp only
  split
  · cases insn.getLsbD 30 <;> cases insn.getLsbD 31
    · have h : (x + y).setWidth 32 = x.setWidth 32 + y.setWidth 32 := BitVec.setWidth_add _ _ hle
      change c.setFlags (compareFlags true (x.setWidth 32) (y.setWidth 32)) = _
      rw [compareFlags_eq (by decide)]
      exact (c.setFlagsAdd_narrow x y _ h).symm
    · change c.setFlags (compareFlags true x y) = _
      rw [compareFlags_eq (by decide)]
      exact (c.setFlagsAdd_wide x y).symm
    · have h : (x - y).setWidth 32 = x.setWidth 32 - y.setWidth 32 := by
        rw [BitVec.sub_eq_add_neg, BitVec.setWidth_add _ _ hle, BitVec.setWidth_neg_of_le hle,
          ← BitVec.sub_eq_add_neg]
      change c.setFlags (compareFlags false (x.setWidth 32) (y.setWidth 32)) = _
      rw [compareFlags_eq (by decide)]
      exact (c.setFlagsSub_narrow x y _ h).symm
    · change c.setFlags (compareFlags false x y) = _
      rw [compareFlags_eq (by decide)]
      exact (c.setFlagsSub_wide x y).symm
  · rfl

/-- What a condition code should mean for two operands in 32 or, with `sf`, 64 bits: after
`set_flags_sub` it is the relation of its name, `set_flags_add` notes the two overflows, and a
conditional comparison under it sets these flags or its immediate. -/
structure ConditionMeant (sf : Bool) (lhs rhs : U64) (cond : U32) : Prop where
  relation : ∀ result : U64,
    result.setWidth (widthOf sf) = lhs.setWidth (widthOf sf) - rhs.setWidth (widthOf sf) →
      ((c.setFlagsSub lhs rhs result (!sf)).conditionHolds cond = true ↔
        Relation (cond &&& 0xF).toNat (lhs.setWidth (widthOf sf)) (rhs.setWidth (widthOf sf)))
  carry : ∀ result : U64,
    result.setWidth (widthOf sf) = lhs.setWidth (widthOf sf) + rhs.setWidth (widthOf sf) →
      ((c.setFlagsAdd lhs rhs result (!sf)).flags.c = true ↔
        2 ^ widthOf sf ≤ (lhs.setWidth (widthOf sf)).toNat + (rhs.setWidth (widthOf sf)).toNat)
  overflow : ∀ result : U64,
    result.setWidth (widthOf sf) = lhs.setWidth (widthOf sf) + rhs.setWidth (widthOf sf) →
      ((c.setFlagsAdd lhs rhs result (!sf)).flags.v = true ↔
        let sum := (lhs.setWidth (widthOf sf)).toInt + (rhs.setWidth (widthOf sf)).toInt
        sum < -2 ^ (widthOf sf - 1) ∨ 2 ^ (widthOf sf - 1) ≤ sum)
  comparison : ∀ (predecode : Bool) (insn : U32), ccmpPattern.Matches insn = true →
    bitField insn 12 4 = (cond &&& 0xF).toNat →
      c.execInteger predecode insn =
        let (x, y) := c.ccmpOperands insn
        if A64.conditionHolds c.flags (bitField insn 12 4) then
          if insn.getLsbD 30 then c.setFlagsSub x y (x - y) (!insn.getLsbD 31)
          else c.setFlagsAdd x y (x + y) (!insn.getLsbD 31)
        else c.setFlags (A64.nzcvField insn)

theorem cond_lt (cond : U32) : (cond &&& 0xF).toNat < 16 := by
  rw [BitVec.toNat_and]
  exact Nat.lt_of_le_of_lt Nat.and_le_right (by decide)

/-- A code that is not NV. -/
theorem conditionHolds_of_ne {cond : U32} (h : (cond &&& 0xF).toNat ≠ 15) :
    c.conditionHolds cond = A64.conditionHolds c.flags (cond &&& 0xF).toNat := by
  rw [conditionHolds_eq, decide_eq_true h, Bool.and_true]

theorem condField_toNat (insn : U32) :
    (BitVec.ofNat 32 (bitField insn 12 4) &&& 0xF).toNat = bitField insn 12 4 := by
  have h := bitField_lt insn 12 4
  rw [BitVec.toNat_and, BitVec.toNat_ofNat]
  change bitField insn 12 4 % 2 ^ 32 &&& 2 ^ 4 - 1 = _
  rw [Nat.and_two_pow_sub_one_eq_mod]
  omega

/-- NV never holds. -/
theorem conditionHolds_nv {cond : U32} (h : (cond &&& 0xF).toNat = 15) :
    c.conditionHolds cond = false := by
  rw [conditionHolds_eq, h]
  exact Bool.and_false _

theorem condition_meant_iff (sf : Bool) (lhs rhs : U64) (cond : U32) :
    c.ConditionMeant sf lhs rhs cond ↔ (cond &&& 0xF).toNat ≠ 15 := by
  have hw : 0 < widthOf sf := by cases sf <;> decide
  constructor
  · intro h hnv
    have hle : widthOf sf ≤ 64 := by cases sf <;> decide
    have hresult : ((lhs.setWidth (widthOf sf) - rhs.setWidth (widthOf sf)).setWidth 64).setWidth
        (widthOf sf) = lhs.setWidth (widthOf sf) - rhs.setWidth (widthOf sf) := by
      rw [BitVec.setWidth_setWidth_of_le _ hle, BitVec.setWidth_eq]
    have hrel := (h.relation _ hresult).2 (by rw [hnv]; trivial)
    rw [conditionHolds_nv _ hnv] at hrel
    exact Bool.false_ne_true hrel
  · intro hne
    constructor
    · intro result hresult
      rw [setFlagsSub_eq c lhs rhs result sf hresult, conditionHolds_of_ne _ hne]
      exact conditionHolds_sub hw _ _ (cond_lt cond)
    · intro result hresult
      rw [setFlagsAdd_eq c lhs rhs result sf hresult]
      exact add_carry_iff _ _
    · intro result hresult
      rw [setFlagsAdd_eq c lhs rhs result sf hresult]
      exact (add_overflow_iff _ _).trans (toInt_add_ne_iff hw _ _)
    · intro predecode insn hinsn hcond
      rw [execInteger_ccmp c predecode hinsn, execCcmp_eq, Option.getD_some,
        conditionHolds_of_ne c (by rw [condField_toNat, hcond]; exact hne), condField_toNat]

/-- At NV the meaning fails: the code never holds, where it should always. -/
theorem not_condition_meant_nv :
    ¬ (Cpu.reset 0 0 0).ConditionMeant true 0 0 0xF := by
  intro h
  have hrel := (h.relation 0 (by decide)).2 (by trivial)
  exact absurd hrel (by decide)

end Cpu

end Aarchvm

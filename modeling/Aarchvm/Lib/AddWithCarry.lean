import Mathlib.Data.BitVec

/-!
# Addition with carry, and what its flags say

The sum of two words and a carry, and four flags that compare it with the exact unsigned
and signed sums. A difference is the sum with the complement and a carry; its flags order
the operands.
-/
namespace Aarchvm.Lib

/-- Negative, zero, carry and overflow. -/
structure Flags where
  n : Bool
  z : Bool
  c : Bool
  v : Bool
  deriving DecidableEq, Repr

section Sum

variable {w : Nat}

/-- `AddWithCarry`. -/
def addWithCarry (x y : BitVec w) (carryIn : Bool) : BitVec w × Flags :=
  let unsignedSum := x.toNat + y.toNat + carryIn.toNat
  let signedSum := x.toInt + y.toInt + carryIn.toNat
  let result := BitVec.ofNat w unsignedSum
  (result, {
    n := result.msb
    z := result == 0
    c := result.toNat != unsignedSum
    v := result.toInt != signedSum })

/-- The sum, or with `sub` the difference. -/
def addOrSub (sub : Bool) (x y : BitVec w) : BitVec w × Flags :=
  if sub then addWithCarry x (~~~y) true else addWithCarry x y false

theorem two_pow_even {w : Nat} (hw : 0 < w) : 2 ^ w = 2 * 2 ^ (w - 1) := by
  rw [← Nat.pow_succ']
  congr 1
  omega

/-- A `w`-bit number of either sign is the signed value modulo `2 ^ w`. -/
theorem signed_cases (x : BitVec w) :
    x.toInt = x.toNat ∧ 2 * x.toNat < 2 ^ w ∧ x.msb = false ∨
      x.toInt = x.toNat - (2 ^ w : Nat) ∧ 2 ^ w ≤ 2 * x.toNat ∧ x.msb = true := by
  rw [BitVec.toInt_eq_toNat_cond, BitVec.msb_eq_decide]
  rcases Nat.eq_zero_or_pos w with rfl | hw
  · left
    have hx := x.isLt
    simp only [Nat.pow_zero, Nat.lt_one_iff] at hx
    simp [hx]
  · have hpow := two_pow_even hw
    by_cases h : 2 * x.toNat < 2 ^ w
    · left
      refine ⟨if_pos h, h, decide_eq_false ?_⟩
      omega
    · right
      refine ⟨if_neg h, Nat.le_of_not_lt h, decide_eq_true ?_⟩
      omega

theorem toNat_addWithCarry (x y : BitVec w) (carryIn : Bool) :
    (addWithCarry x y carryIn).1.toNat = (x.toNat + y.toNat + carryIn.toNat) % 2 ^ w :=
  BitVec.toNat_ofNat _ _

/-- The unsigned sum wraps at most once. -/
theorem wrap_cases (hw : 0 < w) (x y : BitVec w) (carryIn : Bool) :
    (addWithCarry x y carryIn).1.toNat = x.toNat + y.toNat + carryIn.toNat ∨
      (addWithCarry x y carryIn).1.toNat + 2 ^ w = x.toNat + y.toNat + carryIn.toNat := by
  have hx := x.isLt
  have hy := y.isLt
  have hc := Bool.toNat_lt carryIn
  have hpow : 1 < 2 ^ w := Nat.one_lt_two_pow (by omega)
  rw [toNat_addWithCarry]
  by_cases h : x.toNat + y.toNat + carryIn.toNat < 2 ^ w
  · left
    exact Nat.mod_eq_of_lt h
  · right
    rw [Nat.mod_eq_sub_mod (Nat.le_of_not_lt h), Nat.mod_eq_of_lt (by omega)]
    omega

theorem carry_iff (x y : BitVec w) (carryIn : Bool) :
    (addWithCarry x y carryIn).2.c = true ↔ 2 ^ w ≤ x.toNat + y.toNat + carryIn.toNat := by
  have hc : (addWithCarry x y carryIn).2.c =
      ((addWithCarry x y carryIn).1.toNat != x.toNat + y.toNat + carryIn.toNat) := rfl
  rw [hc, bne_iff_ne, toNat_addWithCarry, Ne, Nat.mod_eq_iff_lt (Nat.two_pow_pos w).ne']
  exact Nat.not_lt

theorem zero_iff (x y : BitVec w) (carryIn : Bool) :
    (addWithCarry x y carryIn).2.z = true ↔ (addWithCarry x y carryIn).1 = 0 :=
  beq_iff_eq

theorem overflow_iff (x y : BitVec w) (carryIn : Bool) :
    (addWithCarry x y carryIn).2.v = true ↔
      (addWithCarry x y carryIn).1.toInt ≠ x.toInt + y.toInt + carryIn.toNat :=
  bne_iff_ne

/-- Where the sign of the result and the overflow differ, the exact signed sum is negative. -/
theorem negative_ne_overflow_iff (hw : 0 < w) (x y : BitVec w) (carryIn : Bool) :
    (addWithCarry x y carryIn).2.n ≠ (addWithCarry x y carryIn).2.v ↔
      x.toInt + y.toInt + carryIn.toNat < 0 := by
  have hn : (addWithCarry x y carryIn).2.n = (addWithCarry x y carryIn).1.msb := rfl
  have hv := overflow_iff x y carryIn
  have hr := signed_cases (addWithCarry x y carryIn).1
  have hc := Bool.toNat_lt carryIn
  have hwrap := wrap_cases hw x y carryIn
  have hpow := two_pow_even hw
  rw [hn]
  rcases signed_cases x with ⟨hx, hx', -⟩ | ⟨hx, hx', -⟩ <;>
  rcases signed_cases y with ⟨hy, hy', -⟩ | ⟨hy, hy', -⟩ <;>
  rcases hr with ⟨hr, hr', hmsb⟩ | ⟨hr, hr', hmsb⟩ <;>
  rw [hmsb] <;>
  cases hov : (addWithCarry x y carryIn).2.v <;>
  simp only [hov, Bool.false_eq_true, false_iff, true_iff, ne_eq, not_not, not_true_eq_false,
    not_false_eq_true, reduceCtorEq] at hv ⊢ <;>
  omega

/-! ## Carry and overflow as programs compute them -/

/-- The carry of either of the two additions. -/
theorem carry_eq (hw : 0 < w) (x y : BitVec w) (carryIn : Bool) :
    (addWithCarry x y carryIn).2.c =
      (decide (x + y < x) ||
        decide (x + y + (BitVec.ofBool carryIn).setWidth w < x + y)) := by
  have hx := x.isLt
  have hy := y.isLt
  have hpow : 1 < 2 ^ w := Nat.one_lt_two_pow (by omega)
  have hcarry : ((BitVec.ofBool carryIn).setWidth w).toNat = carryIn.toNat := by
    rw [BitVec.toNat_setWidth, BitVec.toNat_ofBool]
    exact Nat.mod_eq_of_lt (Nat.lt_of_lt_of_le (Bool.toNat_lt carryIn) hpow)
  have hc := Bool.toNat_lt carryIn
  rw [Bool.eq_iff_iff, carry_iff, Bool.or_eq_true, decide_eq_true_iff, decide_eq_true_iff,
    BitVec.lt_def, BitVec.lt_def, BitVec.toNat_add, BitVec.toNat_add, BitVec.toNat_add, hcarry]
  by_cases hsum : x.toNat + y.toNat < 2 ^ w
  · rw [Nat.mod_eq_of_lt hsum]
    by_cases hall : x.toNat + y.toNat + carryIn.toNat < 2 ^ w
    · rw [Nat.mod_eq_of_lt hall]
      omega
    · rw [Nat.mod_eq_sub_mod (Nat.le_of_not_lt hall), Nat.mod_eq_of_lt (by omega)]
      omega
  · rw [Nat.mod_eq_sub_mod (Nat.le_of_not_lt hsum), Nat.mod_eq_of_lt (show _ < 2 ^ w by omega)]
    omega

/-- Two operands of one sign give a result of the other. -/
theorem overflow_eq (hw : 0 < w) (x y : BitVec w) (carryIn : Bool) :
    (addWithCarry x y carryIn).2.v =
      (x.msb == y.msb && x.msb != (addWithCarry x y carryIn).1.msb) := by
  have hr := signed_cases (addWithCarry x y carryIn).1
  have hc := Bool.toNat_lt carryIn
  have hwrap := wrap_cases hw x y carryIn
  have hpow := two_pow_even hw
  rw [Bool.eq_iff_iff, overflow_iff]
  rcases signed_cases x with ⟨hx, hx', hxs⟩ | ⟨hx, hx', hxs⟩ <;>
  rcases signed_cases y with ⟨hy, hy', hys⟩ | ⟨hy, hy', hys⟩ <;>
  rcases hr with ⟨hr, hr', hrs⟩ | ⟨hr, hr', hrs⟩ <;>
  rw [hxs, hys, hrs] <;>
  simp only [Bool.and_eq_true, beq_iff_eq, bne_iff_ne, ne_eq, reduceCtorEq, not_true_eq_false,
    not_false_eq_true, and_false, and_true, iff_false, iff_true, not_not] <;>
  omega

/-! ## Sums -/

theorem add_fst (x y : BitVec w) : (addOrSub false x y).1 = x + y := by
  apply BitVec.eq_of_toNat_eq
  rw [addOrSub, if_neg Bool.false_ne_true, toNat_addWithCarry, BitVec.toNat_add]
  rfl

theorem add_carry_iff (x y : BitVec w) :
    (addOrSub false x y).2.c = true ↔ 2 ^ w ≤ x.toNat + y.toNat :=
  carry_iff x y false

theorem add_overflow_iff (x y : BitVec w) :
    (addOrSub false x y).2.v = true ↔ (x + y).toInt ≠ x.toInt + y.toInt := by
  rw [← add_fst, addOrSub, if_neg Bool.false_ne_true, overflow_iff]
  simp

theorem add_carry_eq (hw : 0 < w) (x y : BitVec w) :
    (addOrSub false x y).2.c = decide (x + y < x) := by
  have h := carry_eq hw x y false
  have hzero : x + y + (BitVec.ofBool false).setWidth w = x + y := by simp
  rw [hzero] at h
  rw [addOrSub, if_neg Bool.false_ne_true, h]
  simp

theorem add_overflow_eq (hw : 0 < w) (x y : BitVec w) :
    (addOrSub false x y).2.v = (x.msb == y.msb && x.msb != (x + y).msb) := by
  rw [← add_fst]
  exact overflow_eq hw x y false

theorem add_flags (hw : 0 < w) (x y : BitVec w) :
    (addOrSub false x y).2 =
      ⟨(x + y).msb, x + y == 0, x + y < x, x.msb == y.msb && x.msb != (x + y).msb⟩ := by
  rw [← add_carry_eq hw, ← add_overflow_eq hw, ← add_fst]
  rfl

/-! ## Differences -/

theorem sub_fst (x y : BitVec w) : (addOrSub true x y).1 = x - y := by
  apply BitVec.eq_of_toNat_eq
  have hy := y.isLt
  rw [addOrSub, if_pos rfl, toNat_addWithCarry, BitVec.toNat_sub, BitVec.toNat_not]
  congr 1
  simp only [Bool.toNat_true]
  omega

theorem sub_zero_iff (x y : BitVec w) : (addOrSub true x y).2.z = true ↔ x = y := by
  have h := zero_iff x (~~~y) true
  rw [show addWithCarry x (~~~y) true = addOrSub true x y from rfl, sub_fst] at h
  rw [h, BitVec.sub_eq_iff_eq_add, BitVec.ofNat_eq_ofNat, BitVec.zero_add]

theorem sub_carry_iff (x y : BitVec w) : (addOrSub true x y).2.c = true ↔ y.toNat ≤ x.toNat := by
  have hy := y.isLt
  have h := carry_iff x (~~~y) true
  rw [BitVec.toNat_not, Bool.toNat_true] at h
  refine h.trans ?_
  omega

theorem toInt_complement (hw : 0 < w) (y : BitVec w) : (~~~y).toInt = -1 - y.toInt := by
  have hy := y.isLt
  have hnot := @BitVec.toNat_not w y
  have hpow := two_pow_even hw
  rcases signed_cases y with ⟨h, h', -⟩ | ⟨h, h', -⟩ <;>
  rcases signed_cases (~~~y) with ⟨g, g', -⟩ | ⟨g, g', -⟩ <;>
  omega

theorem sub_lt_iff (hw : 0 < w) (x y : BitVec w) :
    (addOrSub true x y).2.n ≠ (addOrSub true x y).2.v ↔ x.toInt < y.toInt := by
  have h := negative_ne_overflow_iff hw x (~~~y) true
  rw [toInt_complement hw, Bool.toNat_true] at h
  refine h.trans ?_
  omega

theorem sub_overflow_iff (hw : 0 < w) (x y : BitVec w) :
    (addOrSub true x y).2.v = true ↔ (x - y).toInt ≠ x.toInt - y.toInt := by
  have h := overflow_iff x (~~~y) true
  rw [show addWithCarry x (~~~y) true = addOrSub true x y from rfl, sub_fst,
    toInt_complement hw, Bool.toNat_true] at h
  rw [h]
  have hsum : x.toInt + (-1 - y.toInt) + ((1 : Nat) : Int) = x.toInt - y.toInt := by omega
  rw [hsum]

theorem sub_carry_eq (x y : BitVec w) : (addOrSub true x y).2.c = decide (y ≤ x) := by
  rw [Bool.eq_iff_iff, sub_carry_iff, decide_eq_true_iff, BitVec.le_def]

theorem msb_complement (hw : 0 < w) (y : BitVec w) : (~~~y).msb = !y.msb := by
  rw [BitVec.msb_not]
  simp [hw]

/-- Two operands of different signs give a result of the second one's. -/
theorem sub_overflow_eq (hw : 0 < w) (x y : BitVec w) :
    (addOrSub true x y).2.v = (x.msb != y.msb && x.msb != (x - y).msb) := by
  have h := overflow_eq hw x (~~~y) true
  rw [show addWithCarry x (~~~y) true = addOrSub true x y from rfl, sub_fst,
    msb_complement hw] at h
  rw [h]
  cases x.msb <;> cases y.msb <;> rfl

theorem sub_flags (hw : 0 < w) (x y : BitVec w) :
    (addOrSub true x y).2 =
      ⟨(x - y).msb, x - y == 0, y ≤ x, x.msb != y.msb && x.msb != (x - y).msb⟩ := by
  rw [← sub_carry_eq, ← sub_overflow_eq hw, ← sub_fst]
  rfl

/-- The difference with a borrow. -/
theorem borrow_fst (hw : 0 < w) (x y : BitVec w) (carryIn : Bool) :
    (addWithCarry x (~~~y) carryIn).1 = x - y - (BitVec.ofBool !carryIn).setWidth w := by
  cases carryIn with
  | true =>
    have hzero : (BitVec.ofBool !true).setWidth w = 0#w := by simp
    rw [hzero, BitVec.sub_zero]
    exact sub_fst x y
  | false =>
    apply BitVec.eq_of_toNat_eq
    have hx := x.isLt
    have hy := y.isLt
    have hpow : 1 < 2 ^ w := Nat.one_lt_two_pow (by omega)
    have hone : ((BitVec.ofBool !false).setWidth w).toNat = 1 := by
      rw [BitVec.toNat_setWidth]
      exact Nat.mod_eq_of_lt hpow
    rw [toNat_addWithCarry, BitVec.toNat_sub, BitVec.toNat_sub, hone, BitVec.toNat_not,
      Bool.toNat_false, Nat.add_mod_mod]
    rw [← Nat.add_mod_right]
    congr 1
    omega

theorem borrow_carry_eq (x y : BitVec w) (carryIn : Bool) :
    (addWithCarry x (~~~y) carryIn).2.c =
      !(decide (x < y) || !carryIn && x == y) := by
  have hy := y.isLt
  have h := carry_iff x (~~~y) carryIn
  rw [BitVec.toNat_not] at h
  rw [Bool.eq_iff_iff, h, Bool.not_eq_true', Bool.or_eq_false_iff, decide_eq_false_iff_not,
    BitVec.lt_def]
  cases carryIn with
  | true =>
    simp only [Bool.toNat_true, Bool.not_true, Bool.false_and, and_true]
    omega
  | false =>
    simp only [Bool.toNat_false, Bool.not_false, Bool.true_and, beq_eq_false_iff_ne, ne_eq,
      BitVec.toNat_eq]
    omega

end Sum
end Aarchvm.Lib

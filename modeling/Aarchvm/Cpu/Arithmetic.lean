import Aarchvm.Cpu.DataProcessing
import Mathlib.Algebra.Order.Ring.Abs
import Mathlib.Tactic.Ring

/-!
# Arithmetic helpers

The sums with carry, the high products and the quotients of the program against their
integers.
-/
namespace Aarchvm

open Lib

namespace Cpu

/-! ## Sums with carry -/

theorem addWithCarry_fst {w : Nat} (hw : 0 < w) (x y : BitVec w) (carryIn : Bool) :
    (addWithCarry x y carryIn).1 = x + y + (if carryIn then 1 else 0) := by
  apply BitVec.eq_of_toNat_eq
  have hpow : 1 < 2 ^ w := Nat.one_lt_two_pow (by omega)
  have hcarry : (if carryIn then 1 else 0 : BitVec w).toNat = carryIn.toNat := by
    cases carryIn with
    | true => exact Nat.mod_eq_of_lt hpow
    | false => rfl
  rw [toNat_addWithCarry, BitVec.toNat_add, BitVec.toNat_add, hcarry, Nat.mod_add_mod]

theorem carryIn_eq {w : Nat} (hw : 0 < w) (carryIn : Bool) :
    (BitVec.ofBool carryIn).setWidth w = if carryIn then 1 else 0 := by
  have hpow : 1 < 2 ^ w := Nat.one_lt_two_pow (by omega)
  apply BitVec.eq_of_toNat_eq
  cases carryIn with
  | true => simp
  | false => simp

/-- The sign bits tell the overflow of a sum. -/
theorem msb_overflow {w : Nat} (x y r : BitVec w) (hw : 0 < w) :
    (~~~(x ^^^ y) &&& (x ^^^ r)).msb = (x.msb == y.msb && x.msb != r.msb) := by
  rw [BitVec.msb_and, msb_complement hw, BitVec.msb_xor, BitVec.msb_xor]
  cases x.msb <;> cases y.msb <;> cases r.msb <;> rfl

/-- A sum with carry from its result, its carry and the sign bits. -/
theorem addWithCarry_eq {w : Nat} (hw : 0 < w) {x y r : BitVec w} {carryIn carry : Bool}
    (hfst : (addWithCarry x y carryIn).1 = r) (hcarry : (addWithCarry x y carryIn).2.c = carry) :
    addWithCarry x y carryIn =
      (r, ⟨r.msb, r == 0, carry, (~~~(x ^^^ y) &&& (x ^^^ r)).msb⟩) := by
  rw [msb_overflow x y r hw, ← hcarry, ← hfst, ← overflow_eq hw]
  rfl

theorem adcSbc_eq {w : Nat} (hw : 0 < w) (isSub carryIn : Bool) (x y : BitVec w) :
    adcSbc isSub carryIn x y = addWithCarry x (if isSub then ~~~y else y) carryIn := by
  cases isSub with
  | true =>
    have hfst := borrow_fst hw x y carryIn
    have hcarry := borrow_carry_eq x y carryIn
    have hxor : ~~~(x ^^^ ~~~y) = x ^^^ y := by
      rw [BitVec.not_xor_right, BitVec.not_not]
    rw [carryIn_eq hw] at hfst
    rw [if_pos rfl, addWithCarry_eq hw hfst hcarry, hxor]
    have hone : (1#w != 0#w) = true := by
      have hpow : 1 < 2 ^ w := Nat.one_lt_two_pow (by omega)
      rw [bne_iff_ne, ne_eq, BitVec.toNat_eq, BitVec.toNat_ofNat, Nat.mod_eq_of_lt hpow]
      simp
    cases carryIn with
    | true => simp [adcSbc]
    | false => simp [adcSbc, hone]
  | false =>
    have hfst := addWithCarry_fst hw x y carryIn
    have hcarry := carry_eq hw x y carryIn
    rw [carryIn_eq hw] at hcarry
    rw [if_neg Bool.false_ne_true, addWithCarry_eq hw hfst hcarry]
    rfl

/-! ## Products -/

theorem ofInt_sub (w : Nat) (a b : Int) :
    BitVec.ofInt w (a - b) = BitVec.ofInt w a - BitVec.ofInt w b := by
  rw [Int.sub_eq_add_neg, BitVec.ofInt_add, BitVec.ofInt_neg, ← BitVec.sub_eq_add_neg]

/-- The product of two words from the four products of their halves. -/
theorem mul_split (a b c d : Nat) :
    (a + 2 ^ 32 * b) * (c + 2 ^ 32 * d) =
      a * c + 2 ^ 32 * (a * d + b * c) + 2 ^ 64 * (b * d) := by
  ring

theorem umulh64_toNat (x y : U64) : (umulh64 x y).toNat = x.toNat * y.toNat / 2 ^ 64 := by
  have hx := Nat.mod_add_div x.toNat (2 ^ 32)
  have hy := Nat.mod_add_div y.toNat (2 ^ 32)
  have ha : x.toNat % 2 ^ 32 < 2 ^ 32 := Nat.mod_lt _ (by decide)
  have hc : y.toNat % 2 ^ 32 < 2 ^ 32 := Nat.mod_lt _ (by decide)
  have hb : x.toNat / 2 ^ 32 < 2 ^ 32 := by have := x.isLt; omega
  have hd : y.toNat / 2 ^ 32 < 2 ^ 32 := by have := y.isLt; omega
  have hlow : ∀ z : U64, (z &&& 0xFFFFFFFF).toNat = z.toNat % 2 ^ 32 := by
    intro z
    exact Nat.and_two_pow_sub_one_eq_mod z.toNat 32
  have hhigh : ∀ z : U64, (z >>> 32).toNat = z.toNat / 2 ^ 32 := by
    intro z
    exact Nat.shiftRight_eq_div_pow ..
  rw [umulh64]
  simp only [BitVec.toNat_add, hlow, hhigh, BitVec.toNat_mul]
  rw [← hx, ← hy, mul_split]
  simp only [hx, hy]
  generalize x.toNat % 2 ^ 32 = a at *
  generalize y.toNat % 2 ^ 32 = c at *
  generalize x.toNat / 2 ^ 32 = b at *
  generalize y.toNat / 2 ^ 32 = d at *
  -- no product of halves overflows, nor does a sum
  have hac : a * c ≤ (2 ^ 32 - 1) * (2 ^ 32 - 1) := Nat.mul_le_mul (by omega) (by omega)
  have had : a * d ≤ (2 ^ 32 - 1) * (2 ^ 32 - 1) := Nat.mul_le_mul (by omega) (by omega)
  have hbc : b * c ≤ (2 ^ 32 - 1) * (2 ^ 32 - 1) := Nat.mul_le_mul (by omega) (by omega)
  have hbd : b * d ≤ (2 ^ 32 - 1) * (2 ^ 32 - 1) := Nat.mul_le_mul (by omega) (by omega)
  generalize a * c = p00 at *
  generalize a * d = p01 at *
  generalize b * c = p10 at *
  generalize b * d = p11 at *
  omega

theorem umulh64_eq (x y : U64) : umulh64 x y = BitVec.ofNat 64 (x.toNat * y.toNat / 2 ^ 64) := by
  rw [← umulh64_toNat, BitVec.ofNat_toNat, BitVec.setWidth_eq]

theorem smulh64_eq (x y : U64) : smulh64 x y = BitVec.ofInt 64 (x.toInt * y.toInt / 2 ^ 64) := by
  have hsign : ∀ z : U64, z.toInt = z.toNat - 2 ^ 64 * (z.getLsbD 63).toNat := by
    intro z
    rw [← BitVec.msb_eq_getLsbD_last z]
    rcases signed_cases z with ⟨h, -, hmsb⟩ | ⟨h, -, hmsb⟩
    · rw [hmsb, h]
      rfl
    · rw [hmsb, h]
      rfl
  have hquot : ∀ X Y s t : Int, (X - 2 ^ 64 * s) * (Y - 2 ^ 64 * t) / 2 ^ 64 =
      X * Y / 2 ^ 64 - s * Y - t * X + 2 ^ 64 * (s * t) := by
    intro X Y s t
    have hsum : (X - 2 ^ 64 * s) * (Y - 2 ^ 64 * t) =
        X * Y + 2 ^ 64 * (-(s * Y) - t * X + 2 ^ 64 * (s * t)) := by ring
    rw [hsum, Int.add_mul_ediv_left _ _ (by decide)]
    ring
  have hwrap : ∀ k : Int, BitVec.ofInt 64 (2 ^ 64 * k) = 0#64 := by
    intro k
    apply BitVec.eq_of_toNat_eq
    rw [BitVec.toNat_ofInt]
    change (2 ^ 64 * k % 2 ^ 64).toNat = 0
    rw [Int.mul_emod_right]
    rfl
  have hhigh : BitVec.ofNat 64 (x.toNat * y.toNat / 2 ^ 64) =
      BitVec.ofInt 64 ((x.toNat : Int) * y.toNat / 2 ^ 64) := by
    rw [← BitVec.ofInt_natCast]
    rfl
  rw [hsign, hsign, hquot, BitVec.ofInt_add, hwrap, BitVec.add_zero, smulh64, umulh64_eq, hhigh]
  cases x.getLsbD 63 <;> cases y.getLsbD 63 <;> simp [ofInt_sub]

/-- No product of halves and no sum in `umulh64` reaches `2 ^ 64`. -/
def Umulh64Fits (lhs rhs : U64) : Prop :=
  let lhsLo := lhs &&& 0xFFFFFFFF
  let lhsHi := lhs >>> 32
  let rhsLo := rhs &&& 0xFFFFFFFF
  let rhsHi := rhs >>> 32
  let p00 := lhsLo * rhsLo
  let p01 := lhsLo * rhsHi
  let p10 := lhsHi * rhsLo
  let p11 := lhsHi * rhsHi
  let middle := (p00 >>> 32) + (p01 &&& 0xFFFFFFFF) + (p10 &&& 0xFFFFFFFF)
  p00.toNat = lhsLo.toNat * rhsLo.toNat ∧ p01.toNat = lhsLo.toNat * rhsHi.toNat ∧
    p10.toNat = lhsHi.toNat * rhsLo.toNat ∧ p11.toNat = lhsHi.toNat * rhsHi.toNat ∧
    middle.toNat =
      (p00 >>> 32).toNat + (p01 &&& 0xFFFFFFFF).toNat + (p10 &&& 0xFFFFFFFF).toNat ∧
    (umulh64 lhs rhs).toNat =
      p11.toNat + (p01 >>> 32).toNat + (p10 >>> 32).toNat + (middle >>> 32).toNat

/-- A product of halves, with what its high half leaves room for. -/
theorem half_product {a b : U64} (ha : a.toNat < 2 ^ 32) (hb : b.toNat < 2 ^ 32) :
    (a * b).toNat = a.toNat * b.toNat ∧ (a * b).toNat ≤ (2 ^ 32 - 1) * (2 ^ 32 - 1) := by
  have hle : a.toNat * b.toNat ≤ (2 ^ 32 - 1) * (2 ^ 32 - 1) :=
    Nat.mul_le_mul (by omega) (by omega)
  have hmul : (a * b).toNat = a.toNat * b.toNat := by
    rw [BitVec.toNat_mul]
    exact Nat.mod_eq_of_lt (by omega)
  exact ⟨hmul, hmul.trans_le hle⟩

theorem umulh64_fits (x y : U64) : Umulh64Fits x y := by
  have hlow : ∀ z : U64, (z &&& 0xFFFFFFFF).toNat < 2 ^ 32 := fun z =>
    (Nat.and_two_pow_sub_one_eq_mod z.toNat 32).trans_lt (Nat.mod_lt _ (by decide))
  have hhigh : ∀ z : U64, (z >>> 32).toNat = z.toNat / 2 ^ 32 := fun z =>
    Nat.shiftRight_eq_div_pow ..
  have htop : ∀ z : U64, (z >>> 32).toNat < 2 ^ 32 := by
    intro z
    have := z.isLt
    rw [hhigh]
    omega
  obtain ⟨h00, hle00⟩ := half_product (hlow x) (hlow y)
  obtain ⟨h01, hle01⟩ := half_product (hlow x) (htop y)
  obtain ⟨h10, hle10⟩ := half_product (htop x) (hlow y)
  obtain ⟨h11, hle11⟩ := half_product (htop x) (htop y)
  have hmiddle : ∀ p q r : U64,
      ((p >>> 32) + (q &&& 0xFFFFFFFF) + (r &&& 0xFFFFFFFF)).toNat =
        (p >>> 32).toNat + (q &&& 0xFFFFFFFF).toNat + (r &&& 0xFFFFFFFF).toNat := by
    intro p q r
    have hp := htop p
    have hq := hlow q
    have hr := hlow r
    rw [BitVec.toNat_add, BitVec.toNat_add]
    omega
  have hresult : ∀ p q r m : U64, p.toNat ≤ (2 ^ 32 - 1) * (2 ^ 32 - 1) →
      q.toNat ≤ (2 ^ 32 - 1) * (2 ^ 32 - 1) → r.toNat ≤ (2 ^ 32 - 1) * (2 ^ 32 - 1) →
      m.toNat < 2 ^ 32 + 2 ^ 32 + 2 ^ 32 →
      (p + (q >>> 32) + (r >>> 32) + (m >>> 32)).toNat =
        p.toNat + (q >>> 32).toNat + (r >>> 32).toNat + (m >>> 32).toNat := by
    intro p q r m hp hq hr hm
    rw [BitVec.toNat_add, BitVec.toNat_add, BitVec.toNat_add, hhigh, hhigh, hhigh]
    omega
  refine ⟨h00, h01, h10, h11, hmiddle _ _ _, hresult _ _ _ _ hle11 hle01 hle10 ?_⟩
  rw [hmiddle]
  exact Nat.add_lt_add (Nat.add_lt_add (htop _) (hlow _)) (hlow _)

theorem smulh64_toInt (x y : U64) : (smulh64 x y).toInt = x.toInt * y.toInt / 2 ^ 64 := by
  have hx := x.toInt_lt
  have hx' := x.le_toInt
  have hy := y.toInt_lt
  have hy' := y.le_toInt
  have habs : |x.toInt * y.toInt| ≤ 2 ^ 63 * 2 ^ 63 := by
    rw [abs_mul]
    exact mul_le_mul (abs_le.2 ⟨hx', hx.le⟩) (abs_le.2 ⟨hy', hy.le⟩) (abs_nonneg _) (by decide)
  obtain ⟨hlo, hhi⟩ := abs_le.1 habs
  rw [smulh64_eq]
  exact BitVec.toInt_ofInt_eq_self (by decide) (by omega) (by omega)

/-- The high words of the products. -/
theorem highProduct_exact (x y : U64) :
    (umulh64 x y).toNat = x.toNat * y.toNat / 2 ^ 64 ∧
      (smulh64 x y).toInt = x.toInt * y.toInt / 2 ^ 64 ∧ Umulh64Fits x y :=
  ⟨umulh64_toNat x y, smulh64_toInt x y, umulh64_fits x y⟩

theorem longProduct_signed (x y : U32) :
    x.signExtend 64 * y.signExtend 64 = BitVec.ofInt 64 (x.toInt * y.toInt) := by
  rw [BitVec.ofInt_mul]
  rfl

theorem longProduct_unsigned (x y : U32) :
    x.setWidth 64 * y.setWidth 64 = BitVec.ofInt 64 (x.toNat * y.toNat) := by
  rw [BitVec.ofInt_mul, BitVec.ofInt_natCast, BitVec.ofInt_natCast, BitVec.ofNat_toNat,
    BitVec.ofNat_toNat]

/-- A product added to an accumulator or taken from it. -/
theorem accumulate_eq (sub : Bool) (acc product : U64) {p : Int}
    (h : product = BitVec.ofInt 64 p) :
    (if sub then acc - product else acc + product) =
      BitVec.ofInt 64 (if sub then acc.toInt - p else acc.toInt + p) := by
  cases sub with
  | true => rw [if_pos rfl, if_pos rfl, ofInt_sub, BitVec.ofInt_toInt, h]
  | false =>
    rw [if_neg Bool.false_ne_true, if_neg Bool.false_ne_true, BitVec.ofInt_add,
      BitVec.ofInt_toInt, h]

/-! ## Quotients -/

theorem quotient_unsigned {w : Nat} (x y : BitVec w) : quotient false x y = x / y := by
  rw [quotient]
  split
  · next h => rw [h]; exact (BitVec.udiv_zero).symm
  · rfl

theorem quotient_signed {w : Nat} (x y : BitVec w) :
    quotient true x y = BitVec.ofInt w (x.toInt.tdiv y.toInt) := by
  have hsdiv : x.sdiv y = BitVec.ofInt w (x.toInt.tdiv y.toInt) := by
    apply BitVec.eq_of_toInt_eq
    rw [BitVec.toInt_sdiv, BitVec.toInt_ofInt]
  rw [quotient, ← hsdiv, if_pos rfl]
  split_ifs with hzero hmost
  · rw [hzero]
    exact BitVec.sdiv_zero.symm
  · rw [hmost.1, hmost.2]
    exact BitVec.intMin_sdiv_neg_one.symm
  · rfl

end Cpu
end Aarchvm

import Aarchvm.Cpu.BigUIntExact
import Aarchvm.Cpu.FpExact
import Aarchvm.Cpu.FpTiny
import Mathlib.Analysis.Real.Sqrt

/-!
# The tininess predicates are exact

Every step of a predicate is exact, so that it decides about the exact result. No magnitude has
so many bits that the index of its top bit would not fit.
-/
namespace Aarchvm

open BigUInt Lib

theorem toNat_unsigned {x : ℤ} (hlo : 0 ≤ x) (hhi : x < 2 ^ 32) :
    (BitVec.ofInt 32 x).toNat = x.toNat := by
  rw [BitVec.toNat_ofInt]
  omega

/-- An exact value with its sign is `x`. -/
structure ExactFpValue.Exact (v : ExactFpValue) (x : ℚ) : Prop where
  finite : v.finite = true
  zero : v.zero = true ↔ value v.magnitude = 0
  normalised : Normalised v.magnitude
  small : value v.magnitude < 2 ^ 53
  lower : -1074 ≤ v.exp2
  upper : v.exp2 ≤ 971
  number : signed v.negative (dyadic (value v.magnitude) v.exp2) = x

variable {t : FpType}

theorem FpType.format_eq (t : FpType) :
    t.interchange.format = ⟨fpFracBitsCount t, 1 - fpExpBias t⟩ := by
  cases t <;> rfl

theorem fpExactValueBits_exact {bits : BitVec t.width} (h : t.interchange.IsFinite bits.toNat) :
    ∃ v, fpExactValueBits t bits = some v ∧ v.Exact (t.interchange.number bits.toNat) := by
  obtain ⟨hsign, hcode, hlt⟩ := masked_fields t bits
  have hinf : t.interchange.infinity =
      (((1 : U32) <<< fpExpBitsCount t) - 1).toNat * 2 ^ fpFracBitsCount t := by
    cases t <;> rfl
  have hbits : 2 ^ fpFracBitsCount t ≤ 2 ^ 52 ∧ -1074 ≤ 1 - fpExpBias t - fpFracBitsCount t ∧
      1 - fpExpBias t - fpFracBitsCount t ≤ 971 ∧
      (((1 : U32) <<< fpExpBitsCount t) - 1).toNat - fpExpBias t - fpFracBitsCount t ≤ 972 := by
    cases t <;> decide
  rw [A64.Interchange.IsFinite, hcode, hinf] at h
  rw [A64.Interchange.number, A64.Interchange.magnitude, hcode, ← hsign, t.format_eq,
    fpExactValueBits]
  generalize ((bits &&& fpExpMaskBits t) >>> fpFracBitsCount t).setWidth 32 = exp at *
  generalize bits &&& fpFracMaskBits t = frac at *
  have hspecial : exp.toNat < (((1 : U32) <<< fpExpBitsCount t) - 1).toNat :=
    Nat.lt_of_mul_lt_mul_right (lt_of_le_of_lt (Nat.le_add_right _ _) h)
  have hwide : (frac.setWidth 64).toNat = frac.toNat := by
    rw [BitVec.toNat_setWidth]
    omega
  rw [if_neg fun heq => (heq ▸ hspecial).ne rfl]
  split
  · next hexp =>
    have hexp : exp.toNat = 0 := congrArg BitVec.toNat hexp
    rw [hexp, Nat.zero_mul, Nat.zero_add]
    split
    · next hfrac =>
      have hfrac : frac.toNat = 0 := by
        rw [hfrac]
        rfl
      refine ⟨_, rfl, rfl, iff_of_true rfl rfl, normalised_nil, Nat.two_pow_pos 53,
        (by decide : (-1074 : ℤ) ≤ 0), (by decide : (0 : ℤ) ≤ 971), ?_⟩
      rw [hfrac, FloatFormat.value_zero]
      exact congrArg _ (dyadic_eq_zero.2 rfl)
    · next hfrac =>
      have hvalue := value_ofU64 (frac.setWidth 64)
      rw [hwide] at hvalue
      have hne : frac.toNat ≠ 0 := fun hzero => hfrac (BitVec.eq_of_toNat_eq (by rw [hzero]; rfl))
      refine ⟨_, rfl, rfl, iff_of_false Bool.false_ne_true (hvalue ▸ hne), normalised_ofU64 _, ?_,
        by dsimp only; omega, by dsimp only; omega, ?_⟩
      · dsimp only
        rw [hvalue]
        omega
      · dsimp only
        have hsplit := (FloatFormat.mk (fpFracBitsCount t) (1 - fpExpBias t)).value_split
          (show frac.toNat ≤ 2 ^ (fpFracBitsCount t + 1) by rw [Nat.pow_succ]; omega) (.inl rfl)
        rw [Nat.zero_mul, Nat.zero_add] at hsplit
        rw [hvalue, hsplit, dyadic]
        exact congrArg (fun e : ℤ => signed _ (frac.toNat * 2 ^ e)) (by push_cast; ring)
  · next hexp =>
    obtain ⟨e, he⟩ := Nat.exists_eq_succ_of_ne_zero fun h => hexp (BitVec.eq_of_toNat_eq h)
    have hshift : (BitVec.ofNat 32 (fpFracBitsCount t)).toNat = fpFracBitsCount t := by
      cases t <;> rfl
    obtain ⟨implicit, himplicit, -, hone⟩ :=
      shiftLeft_computes (BitVec.ofNat 32 (fpFracBitsCount t)) (normalised_ofU64 1)
    obtain ⟨magnitude, hmagnitude, hnormal, hvalue⟩ :=
      add_computes implicit (ofU64 (frac.setWidth 64))
    have hbit : value (ofU64 1) = 1 := value_ofU64 1
    rw [hone, hbit, Nat.one_mul, hshift, value_ofU64, hwide] at hvalue
    have hpos : 0 < 2 ^ fpFracBitsCount t := Nat.two_pow_pos _
    refine ⟨⟨true, false, bits &&& fpSignMaskBits t != 0, magnitude,
      exp.toNat - fpExpBias t - fpFracBitsCount t⟩, ?_, rfl,
      iff_of_false Bool.false_ne_true ?_, hnormal, ?_, ?_, ?_, ?_⟩
    · rw [himplicit, Option.bind_eq_bind, Option.bind_some, hmagnitude]
      rfl
    · dsimp only
      omega
    · dsimp only
      omega
    · dsimp only
      omega
    · dsimp only
      omega
    · dsimp only
      have hcode : exp.toNat * 2 ^ fpFracBitsCount t + frac.toNat =
          e * 2 ^ fpFracBitsCount t + (2 ^ fpFracBitsCount t + frac.toNat) := by
        rw [he, Nat.succ_mul, Nat.add_assoc]
      have hsplit := (FloatFormat.mk (fpFracBitsCount t) (1 - fpExpBias t)).value_split
        (show 2 ^ fpFracBitsCount t + frac.toNat ≤ 2 ^ (fpFracBitsCount t + 1) by
          rw [Nat.pow_succ]
          omega) (e := e) (.inr (Nat.le_add_right ..))
      rw [hvalue, hcode, hsplit, dyadic, he]
      exact congrArg (fun e : ℤ => signed _ ((2 ^ fpFracBitsCount t + frac.toNat : ℕ) * 2 ^ e))
        (by push_cast; ring)

/-! ## Comparisons -/

section Magnitudes

variable {m l r : BigUInt} {e k le re : ℤ} {n : ℕ}

/-- The index of the top bit decides, as long as an `unsigned` holds it. -/
theorem exactAbsLtPowerOfTwo_eq (hm : Normalised m) (hsize : value m < 2 ^ n) (hn : n ≤ 2 ^ 32)
    (hrange : k - e < 2 ^ 32) :
    ∃ tiny, exactAbsLtPowerOfTwo m e k = some tiny ∧
      (tiny = true ↔ value m ≠ 0 ∧ dyadic (value m) e < 2 ^ k) := by
  rw [exactAbsLtPowerOfTwo]
  split
  · next hzero =>
    have hzero : value m = 0 := by
      rw [isZero_iff.1 hzero]
      rfl
    exact ⟨false, rfl, iff_of_false Bool.false_ne_true fun h => h.1 hzero⟩
  · next hnonzero =>
    have hne : value m ≠ 0 := fun h => hnonzero (isZero_iff.2 (eq_nil_of_value_eq_zero hm h))
    rw [dyadic_lt_two_zpow hne]
    split
    · next hle =>
      exact ⟨false, rfl, iff_of_false Bool.false_ne_true fun h => absurd h.2.1 (not_lt.2 hle)⟩
    · next hlt =>
      have hlt := not_le.1 hlt
      have hlog : (value m).log2 < 2 ^ 32 := ((Nat.log2_lt hne).2 hsize).trans_le hn
      rw [msbIndex_eq hm hne]
      refine ⟨_, rfl, ?_⟩
      rw [decide_eq_true_eq, BitVec.lt_def, BitVec.toNat_ofNat, Nat.mod_eq_of_lt hlog,
        toNat_unsigned (by omega) hrange]
      exact ⟨fun h => ⟨hne, hlt, h⟩, fun h => h.2.2⟩

/-- The predicate decides about `x`, and where it is true the sign is that of `x`. -/
def Detects (t : FpType) (x : ℚ) (result : Option (Bool × Bool)) : Prop :=
  ∃ tiny negative, result = some (tiny, negative) ∧ (tiny = true ↔ t.interchange.Tiny x) ∧
    (tiny = true → (negative = true ↔ x < 0))

theorem detects_zero (negative : Bool) : Detects t 0 (some (false, negative)) :=
  ⟨false, negative, rfl, iff_of_false Bool.false_ne_true fun h => h.1 rfl,
    fun h => absurd h Bool.false_ne_true⟩

/-- A magnitude with its sign. -/
theorem detects_of_iff {x : ℚ} {tiny negative : Bool} (hx : 0 ≤ x)
    (h : tiny = true ↔ x ≠ 0 ∧ x < 2 ^ t.interchange.format.emin) :
    Detects t (signed negative x) (some (tiny, negative)) := by
  refine ⟨tiny, negative, rfl, ?_, fun htiny => ?_⟩
  · rw [A64.Interchange.Tiny, abs_signed negative hx, ne_eq, signed_eq_zero]
    exact h
  · exact (signed_neg_iff (hx.lt_of_ne (h.1 htiny).1.symm)).symm

theorem emin_bounds (t : FpType) : 1 - fpExpBias t = t.interchange.format.emin ∧
    -1022 ≤ t.interchange.format.emin ∧ t.interchange.format.emin ≤ -14 := by
  cases t <;> decide

theorem exactTiny_detects (negative : Bool) (hm : Normalised m) (hsize : value m < 2 ^ n)
    (hn : n ≤ 2 ^ 32) (hlo : -10000 ≤ e) :
    Detects t (signed negative (dyadic (value m) e)) (exactTiny t m e negative) := by
  obtain ⟨hemin, -, hmax⟩ := emin_bounds t
  obtain ⟨tiny, htiny, hiff⟩ := exactAbsLtPowerOfTwo_eq (k := t.interchange.format.emin) hm hsize hn
    (show t.interchange.format.emin - e < 2 ^ 32 by omega)
  rw [exactTiny, hemin, htiny]
  refine detects_of_iff (dyadic_nonneg _ _) (hiff.trans (and_congr_left' ?_))
  exact dyadic_eq_zero.not.symm

theorem exactScalePow2_eq (hm : Normalised m) (hle : k ≤ e) (hrange : e - k < 2 ^ 32) :
    ∃ scaled, exactScalePow2 m (BitVec.ofInt 32 (e - k)) = some scaled ∧ Normalised scaled ∧
      value scaled = value m * 2 ^ (e - k).toNat ∧
      dyadic (value scaled) k = dyadic (value m) e := by
  obtain ⟨scaled, hscaled, hnormal, hvalue⟩ := shiftLeft_computes (BitVec.ofInt 32 (e - k)) hm
  rw [toNat_unsigned (by omega) hrange] at hvalue
  refine ⟨scaled, hscaled, hnormal, hvalue, ?_⟩
  rw [hvalue, dyadic_shift]
  exact congrArg (dyadic (value m)) (by omega)

theorem scaled_lt {v a s b : ℕ} (hv : v < 2 ^ a) (hs : a + s ≤ b) : v * 2 ^ s < 2 ^ b :=
  calc v * 2 ^ s < 2 ^ a * 2 ^ s := Nat.mul_lt_mul_of_pos_right hv (Nat.two_pow_pos s)
    _ = 2 ^ (a + s) := (Nat.pow_add _ _ _).symm
    _ ≤ 2 ^ b := Nat.pow_le_pow_right Nat.two_pos hs

/-- The sum of two signed terms. -/
theorem fpExactTinySumTerms_detects (ln rn negative : Bool) (hl : Normalised l)
    (hr : Normalised r) (hlsize : value l < 2 ^ 106) (hrsize : value r < 2 ^ 106)
    (hle : -3000 ≤ le ∧ le ≤ 3000) (hre : -3000 ≤ re ∧ re ≤ 3000) :
    Detects t (signed ln (dyadic (value l) le) + signed rn (dyadic (value r) re))
      (fpExactTinySumTerms t ln l le rn r re negative) := by
  obtain ⟨lhs, hlhs, hlnormal, hlvalue, hldyadic⟩ :=
    exactScalePow2_eq hl (min_le_left le re) (by omega)
  obtain ⟨rhs, hrhs, hrnormal, hrvalue, hrdyadic⟩ :=
    exactScalePow2_eq hr (min_le_right le re) (by omega)
  have hlo : -10000 ≤ min le re := by omega
  obtain ⟨n, hn, hlsize, hrsize⟩ : ∃ n ≤ 10000, value lhs < 2 ^ n ∧ value rhs < 2 ^ n := by
    refine ⟨106 + (le - min le re).toNat + (re - min le re).toNat, by omega, ?_, ?_⟩
    · rw [hlvalue]
      exact scaled_lt hlsize (Nat.le_add_right _ _)
    · rw [hrvalue]
      exact scaled_lt hrsize (Nat.add_right_comm _ _ _ ▸ Nat.le_add_right _ _)
  rw [fpExactTinySumTerms, hlhs, hrhs, ← hldyadic, ← hrdyadic]
  generalize min le re = common at *
  dsimp only [Option.bind_eq_bind, Option.bind_some]
  split
  · next hsame =>
    obtain ⟨sum, hsum, hnormal, hvalue⟩ := add_computes lhs rhs
    have hsize : value sum < 2 ^ (n + 1) := by
      rw [hvalue, Nat.pow_succ]
      omega
    rw [hsum, hsame, signed_add, ← dyadic_add, ← hvalue]
    exact exactTiny_detects rn hnormal hsize (by omega) hlo
  · next hdiffer =>
    rw [compare_eq hlnormal hrnormal]
    dsimp only [Option.bind_eq_bind, Option.bind_some]
    rcases Nat.lt_trichotomy (value lhs) (value rhs) with hlt | heq | hgt
    · obtain ⟨diff, hdiff, hnormal, hvalue⟩ := sub_computes hlnormal hlt.le
      rw [orderOf_of_lt hlt, if_neg (by decide), if_neg (by decide), hdiff, add_comm,
        signed_add_of_ne (Ne.symm hdiffer), ← dyadic_sub hlt.le, ← hvalue]
      exact exactTiny_detects rn hnormal
        (hvalue.trans_lt ((Nat.sub_le _ _).trans_lt hrsize)) (by omega) hlo
    · rw [heq, BigUInt.orderOf, if_neg (Nat.lt_irrefl _), if_pos rfl, if_pos rfl,
        signed_add_of_ne hdiffer, sub_self, signed_eq_zero.2 rfl]
      exact detects_zero negative
    · obtain ⟨diff, hdiff, hnormal, hvalue⟩ := sub_computes hrnormal hgt.le
      rw [orderOf_of_gt hgt, if_neg (by decide), if_pos (by decide), hdiff,
        signed_add_of_ne hdiffer, ← dyadic_sub hgt.le, ← hvalue]
      exact exactTiny_detects ln hnormal
        (hvalue.trans_lt ((Nat.sub_le _ _).trans_lt hlsize)) (by omega) hlo

theorem orderOf_neg_iff (m n : ℕ) : orderOf m n < 0 ↔ m < n := by
  rw [BigUInt.orderOf]
  split_ifs <;> omega

end Magnitudes

/-! ## The predicates -/

section Predicates

variable {lhs rhs addend : ExactFpValue} {x y z : ℚ} {lhsBits rhsBits addendBits : BitVec t.width}

theorem ExactFpValue.Exact.eq_zero (h : lhs.Exact x) (hzero : lhs.zero = true) : x = 0 := by
  rw [← h.number, h.zero.1 hzero]
  exact signed_eq_zero.2 (dyadic_eq_zero.2 rfl)

theorem ExactFpValue.Exact.magnitude_ne_zero (h : lhs.Exact x) (hzero : lhs.zero = false) :
    value lhs.magnitude ≠ 0 := fun hvalue => by
  have htrue := h.zero.2 hvalue
  rw [hzero] at htrue
  exact Bool.false_ne_true htrue

theorem fpAddSubTinyBeforeRound_detects (hl : fpExactValueBits t lhsBits = some lhs)
    (hr : fpExactValueBits t rhsBits = some rhs) (hx : lhs.Exact x) (hy : rhs.Exact y)
    (subtractRhs negative : Bool) :
    Detects t (if subtractRhs then x - y else x + y)
      (fpAddSubTinyBeforeRound t lhsBits rhsBits subtractRhs negative) := by
  have hsum : (if subtractRhs then x - y else x + y) =
      signed lhs.negative (dyadic (value lhs.magnitude) lhs.exp2) +
        signed (if subtractRhs then !rhs.negative else rhs.negative)
          (dyadic (value rhs.magnitude) rhs.exp2) := by
    rw [← hx.number, ← hy.number]
    cases subtractRhs
    · rfl
    · exact (sub_eq_add_neg _ _).trans (congrArg _ (signed_not _ _).symm)
  rw [fpAddSubTinyBeforeRound, hl, hr]
  dsimp only [Option.bind_eq_bind, Option.bind_some]
  rw [hx.finite, hy.finite]
  by_cases hzeros : lhs.zero = true ∧ rhs.zero = true
  · have hguard : (!true || !true || lhs.zero && rhs.zero) = true := by
      rw [hzeros.1, hzeros.2]
      rfl
    rw [if_pos hguard, hx.eq_zero hzeros.1, hy.eq_zero hzeros.2, sub_zero, add_zero, ite_self]
    exact detects_zero negative
  · have hguard : ¬ (!true || !true || lhs.zero && rhs.zero) = true := fun h =>
      hzeros (Bool.and_eq_true_iff.1 h)
    rw [if_neg hguard, hsum]
    have hwide : 2 ^ 53 ≤ 2 ^ 106 := by decide
    have hlhs := hx.lower
    have hlhs' := hx.upper
    have hrhs := hy.lower
    have hrhs' := hy.upper
    exact fpExactTinySumTerms_detects _ _ negative hx.normalised hy.normalised
      (hx.small.trans_le hwide) (hy.small.trans_le hwide) (by omega) (by omega)

/-- The product of two magnitudes as the predicates compute it. -/
theorem product_exact (hx : lhs.Exact x) (hy : rhs.Exact y) :
    ∃ product, mul lhs.magnitude rhs.magnitude = some product ∧ Normalised product ∧
      value product < 2 ^ 106 ∧
      signed (lhs.negative != rhs.negative) (dyadic (value product) (lhs.exp2 + rhs.exp2)) =
        x * y := by
  obtain ⟨product, hproduct, hnormal, hvalue⟩ := mul_computes lhs.magnitude rhs.magnitude
  refine ⟨product, hproduct, hnormal, ?_, ?_⟩
  · calc value product = value lhs.magnitude * value rhs.magnitude := hvalue
      _ < 2 ^ 53 * 2 ^ 53 := Nat.mul_lt_mul'' hx.small hy.small
      _ = 2 ^ 106 := rfl
  · rw [← hx.number, ← hy.number, signed_mul, dyadic_mul, hvalue]

theorem fpMulTinyBeforeRound_detects (hl : fpExactValueBits t lhsBits = some lhs)
    (hr : fpExactValueBits t rhsBits = some rhs) (hx : lhs.Exact x) (hy : rhs.Exact y)
    (negative : Bool) : Detects t (x * y) (fpMulTinyBeforeRound t lhsBits rhsBits negative) := by
  rw [fpMulTinyBeforeRound, hl, hr]
  dsimp only [Option.bind_eq_bind, Option.bind_some]
  rw [hx.finite, hy.finite]
  split
  · next h =>
    have hzeros : lhs.zero = true ∨ rhs.zero = true := by simpa using h
    have hzero : x * y = 0 := mul_eq_zero.2 (hzeros.imp hx.eq_zero hy.eq_zero)
    rw [hzero]
    exact detects_zero negative
  · obtain ⟨product, hproduct, hnormal, hsize, hvalue⟩ := product_exact hx hy
    have hlhs := hx.lower
    have hrhs := hy.lower
    rw [hproduct, ← hvalue]
    exact exactTiny_detects _ hnormal hsize (by decide) (by omega)

/-- A quotient is compared after both sides are multiplied by the divisor. -/
theorem quotient_lt (hne : value rhs.magnitude ≠ 0) (k : ℤ) :
    dyadic (value lhs.magnitude) lhs.exp2 / dyadic (value rhs.magnitude) rhs.exp2 < 2 ^ k ↔
      dyadic (value lhs.magnitude) lhs.exp2 < dyadic (value rhs.magnitude) (rhs.exp2 + k) := by
  have hpow : (2 : ℚ) ^ k = dyadic 1 k := by rw [dyadic, Nat.cast_one, one_mul]
  rw [div_lt_iff₀ (dyadic_pos hne _), hpow, dyadic_mul, Nat.one_mul, add_comm k]

theorem fpDivTinyBeforeRound_detects (hl : fpExactValueBits t lhsBits = some lhs)
    (hr : fpExactValueBits t rhsBits = some rhs) (hx : lhs.Exact x) (hy : rhs.Exact y)
    (negative : Bool) : Detects t (x / y) (fpDivTinyBeforeRound t lhsBits rhsBits negative) := by
  rw [fpDivTinyBeforeRound, hl, hr]
  dsimp only [Option.bind_eq_bind, Option.bind_some]
  rw [hx.finite, hy.finite]
  split
  · next h =>
    have hzeros : lhs.zero = true ∨ rhs.zero = true := by simpa using h
    have hzero : x / y = 0 := div_eq_zero_iff.2 (hzeros.imp hx.eq_zero hy.eq_zero)
    rw [hzero]
    exact detects_zero negative
  · next h =>
    have hnonzero : lhs.zero = false ∧ rhs.zero = false := by simpa using h
    have hlne := hx.magnitude_ne_zero hnonzero.1
    have hrne := hy.magnitude_ne_zero hnonzero.2
    have hquot := div_pos (dyadic_pos hlne lhs.exp2) (dyadic_pos hrne rhs.exp2)
    obtain ⟨hemin, hmin, hmax⟩ := emin_bounds t
    have hlhs := hx.lower
    have hlhs' := hx.upper
    have hrhs := hy.lower
    have hrhs' := hy.upper
    have hdelta : lhs.exp2 - rhs.exp2 - t.interchange.format.emin =
        lhs.exp2 - (rhs.exp2 + t.interchange.format.emin) := by omega
    rw [← hx.number, ← hy.number, signed_div, hemin, hdelta]
    split
    · next hle =>
      obtain ⟨scaled, hscaled, hnormal, -, hdyadic⟩ :=
        exactScalePow2_eq hx.normalised (sub_nonneg.1 hle) (by omega)
      rw [hscaled, Option.bind_some, compare_eq hnormal hy.normalised, Option.bind_some]
      refine detects_of_iff hquot.le ?_
      rw [decide_eq_true_eq, orderOf_neg_iff, and_iff_right hquot.ne', quotient_lt hrne,
        ← hdyadic, dyadic_lt]
    · next hlt =>
      have hneg : -(lhs.exp2 - (rhs.exp2 + t.interchange.format.emin)) =
          rhs.exp2 + t.interchange.format.emin - lhs.exp2 := neg_sub _ _
      obtain ⟨scaled, hscaled, hnormal, -, hdyadic⟩ :=
        exactScalePow2_eq (k := lhs.exp2) (e := rhs.exp2 + t.interchange.format.emin)
          hy.normalised (by omega) (by omega)
      rw [hneg, hscaled, Option.bind_some, compare_eq hx.normalised hnormal, Option.bind_some]
      refine detects_of_iff hquot.le ?_
      rw [decide_eq_true_eq, orderOf_neg_iff, and_iff_right hquot.ne', quotient_lt hrne,
        ← hdyadic, dyadic_lt]

theorem fpFmaTinyBeforeRound_detects (hl : fpExactValueBits t lhsBits = some lhs)
    (hr : fpExactValueBits t rhsBits = some rhs) (ha : fpExactValueBits t addendBits = some addend)
    (hx : lhs.Exact x) (hy : rhs.Exact y) (hz : addend.Exact z) (negative : Bool) :
    Detects t (x * y + z) (fpFmaTinyBeforeRound t lhsBits rhsBits addendBits negative) := by
  have hlhs := hx.lower
  have hlhs' := hx.upper
  have hrhs := hy.lower
  have hrhs' := hy.upper
  have haddend := hz.lower
  have haddend' := hz.upper
  have hwide : 2 ^ 53 ≤ 2 ^ 106 := by decide
  rw [fpFmaTinyBeforeRound, hl, hr, ha]
  dsimp only [Option.bind_eq_bind, Option.bind_some]
  rw [hx.finite, hy.finite, hz.finite, if_neg (by decide)]
  split
  · next h =>
    have hzero : x * y = 0 :=
      mul_eq_zero.2 ((Bool.or_eq_true_iff.1 h).imp hx.eq_zero hy.eq_zero)
    rw [hzero, zero_add]
    split
    · next hadd =>
      rw [hz.eq_zero hadd]
      exact detects_zero negative
    · rw [← hz.number]
      exact exactTiny_detects _ hz.normalised hz.small (by decide) (by omega)
  · obtain ⟨product, hproduct, hnormal, hsize, hvalue⟩ := product_exact hx hy
    rw [hproduct, ← hvalue, Option.bind_some]
    split
    · next hadd =>
      rw [hz.eq_zero hadd, add_zero]
      exact exactTiny_detects _ hnormal hsize (by decide) (by omega)
    · rw [← hz.number]
      exact fpExactTinySumTerms_detects _ _ negative hnormal hz.normalised hsize
        (hz.small.trans_le hwide) (by omega) (by omega)

/-- A square root is compared through its square. -/
theorem fpSqrtTinyBeforeRound_iff (hl : fpExactValueBits t lhsBits = some lhs)
    (hx : lhs.Exact x) :
    ∃ tiny, fpSqrtTinyBeforeRound t lhsBits = some tiny ∧
      (tiny = true ↔ √(x : ℝ) ≠ 0 ∧ √(x : ℝ) < 2 ^ t.interchange.format.emin) := by
  rw [fpSqrtTinyBeforeRound, hl]
  dsimp only [Option.bind_eq_bind, Option.bind_some]
  rw [hx.finite]
  have hnonneg := dyadic_nonneg (value lhs.magnitude) lhs.exp2
  split
  · next h =>
    have hle : x ≤ 0 := by
      have h : lhs.zero = true ∨ lhs.negative = true := by simpa using h
      rcases h with h | h
      · exact (hx.eq_zero h).le
      · rw [← hx.number, h]
        exact neg_nonpos.2 hnonneg
    refine ⟨false, rfl, iff_of_false Bool.false_ne_true fun h => h.1 ?_⟩
    exact Real.sqrt_eq_zero'.2 (by exact_mod_cast hle)
  · next h =>
    have h : lhs.zero = false ∧ lhs.negative = false := by simpa using h
    have hne := hx.magnitude_ne_zero h.1
    obtain ⟨hemin, hmin, hmax⟩ := emin_bounds t
    have hlower := hx.lower
    obtain ⟨tiny, htiny, hiff⟩ := exactAbsLtPowerOfTwo_eq (e := lhs.exp2)
      (k := 2 * t.interchange.format.emin) hx.normalised hx.small (by decide) (by omega)
    have hnumber : x = dyadic (value lhs.magnitude) lhs.exp2 := by
      rw [← hx.number, h.2]
      rfl
    have hpos : (0 : ℝ) < x := by
      rw [hnumber]
      exact_mod_cast dyadic_pos hne lhs.exp2
    have hsquare : ((2 : ℝ) ^ t.interchange.format.emin) ^ 2 =
        ((2 ^ (2 * t.interchange.format.emin) : ℚ) : ℝ) := by
      push_cast
      rw [← zpow_natCast, ← zpow_mul, mul_comm, Nat.cast_ofNat]
    rw [hemin]
    refine ⟨tiny, htiny, hiff.trans ?_⟩
    rw [and_iff_right hne, and_iff_right (Real.sqrt_ne_zero'.2 hpos),
      Real.sqrt_lt' (by positivity), hsquare, hnumber]
    exact Rat.cast_lt.symm

end Predicates

/-- On finite operands the predicates are true just where the exact result is not zero and below
the least normal number. -/
theorem tinyBeforeRound_exact (t : FpType) (lhsBits rhsBits addendBits : BitVec t.width)
    (hlhs : t.interchange.IsFinite lhsBits.toNat) (hrhs : t.interchange.IsFinite rhsBits.toNat)
    (haddend : t.interchange.IsFinite addendBits.toNat) (subtractRhs negativeResult : Bool) :
    let x := t.interchange.number lhsBits.toNat
    let y := t.interchange.number rhsBits.toNat
    let z := t.interchange.number addendBits.toNat
    Detects t (if subtractRhs then x - y else x + y)
        (fpAddSubTinyBeforeRound t lhsBits rhsBits subtractRhs negativeResult) ∧
      Detects t (x * y) (fpMulTinyBeforeRound t lhsBits rhsBits negativeResult) ∧
      Detects t (x / y) (fpDivTinyBeforeRound t lhsBits rhsBits negativeResult) ∧
      Detects t (x * y + z) (fpFmaTinyBeforeRound t lhsBits rhsBits addendBits negativeResult) ∧
      ∃ tiny, fpSqrtTinyBeforeRound t lhsBits = some tiny ∧
        (tiny = true ↔ √(x : ℝ) ≠ 0 ∧ √(x : ℝ) < 2 ^ t.interchange.format.emin) := by
  obtain ⟨lhs, hl, hx⟩ := fpExactValueBits_exact hlhs
  obtain ⟨rhs, hr, hy⟩ := fpExactValueBits_exact hrhs
  obtain ⟨addend, ha, hz⟩ := fpExactValueBits_exact haddend
  exact ⟨fpAddSubTinyBeforeRound_detects hl hr hx hy subtractRhs negativeResult,
    fpMulTinyBeforeRound_detects hl hr hx hy negativeResult,
    fpDivTinyBeforeRound_detects hl hr hx hy negativeResult,
    fpFmaTinyBeforeRound_detects hl hr ha hx hy hz negativeResult,
    fpSqrtTinyBeforeRound_iff hl hx⟩

/-- The least normal number less the least number of all is tiny. -/
theorem tinyBeforeRound_exact_boundary :
    A64.binary32.Tiny (A64.binary32.number 0x00800000 - A64.binary32.number 0x00000001) ∧
      fpAddSubTinyBeforeRound .single 0x00800000#32 0x00000001#32 true false =
        some (true, false) := by
  have hdetected : fpAddSubTinyBeforeRound .single 0x00800000#32 0x00000001#32 true false =
      some (true, false) := by
    decide +kernel
  obtain ⟨⟨tiny, negative, hresult, htiny, -⟩, -⟩ :=
    tinyBeforeRound_exact .single 0x00800000#32 0x00000001#32 0#32 (by decide) (by decide)
      (by decide) true false
  have hyes : tiny = true := (Prod.mk.inj (Option.some.inj (hresult.symm.trans hdetected))).1
  exact ⟨htiny.1 hyes, hdetected⟩

end Aarchvm

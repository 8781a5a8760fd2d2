import Aarchvm.Cpu.FpRounding
import Mathlib.Data.Rat.Floor

/-!
# Floating point to integer

The helpers compute on the host's `long double`, whose finite values are taken as exact. There
are two for the rounding toward zero, and they disagree just below the least integer.
-/
namespace Aarchvm

open Lib

/-- A `long double`. -/
inductive HostFloat where
  | nan
  | infinite (negative : Bool)
  | finite (value : ℚ)

inductive FpToIntRoundingMode where
  | tieEven
  | posInf
  | negInf
  | zero
  | tieAway
  deriving DecidableEq, Repr

/-- `std::trunc`. -/
def hostTrunc (value : ℚ) : ℤ := if value < 0 then ⌈value⌉ else ⌊value⌋

/-- `fp_to_unsigned_rtz` to an integer type of `w` bits. -/
def fpToUnsignedRtz (w : ℕ) : HostFloat → BitVec w × U64
  | .nan => (0, kFpsrIoc)
  | .infinite negative => (if negative then 0 else BitVec.allOnes w, kFpsrIoc)
  | .finite value =>
    if value < 0 ∨ 2 ^ w ≤ value then (if value < 0 then 0 else BitVec.allOnes w, kFpsrIoc)
    else
      let truncated := hostTrunc value
      (BitVec.ofInt w truncated, if (truncated : ℚ) ≠ value then kFpsrIxc else 0)

def fpRoundUpFromFloor (error : ℚ) (floorValue : ℤ) (rounding : FpToIntRoundingMode) : Bool :=
  match rounding with
  | .tieEven => 1 / 2 < error || error == 1 / 2 && floorValue.natAbs % 2 != 0
  | .posInf => error != 0
  | .negInf => false
  | .zero => error != 0 && floorValue < 0
  | .tieAway => 1 / 2 < error || error == 1 / 2 && 0 ≤ floorValue

/-- `fp_to_signed_rtz` to an integer type of `w` bits. -/
def fpToSignedRtz (w : ℕ) : HostFloat → BitVec w × U64
  | .nan => (0, kFpsrIoc)
  | .infinite negative => (if negative then BitVec.intMin w else BitVec.intMax w, kFpsrIoc)
  | .finite value =>
    if value < -2 ^ (w - 1) ∨ 2 ^ (w - 1) ≤ value then
      (if value < 0 then BitVec.intMin w else BitVec.intMax w, kFpsrIoc)
    else
      let truncated := hostTrunc value
      (BitVec.ofInt w truncated, if (truncated : ℚ) ≠ value then kFpsrIxc else 0)

/-- `int_result` of the two rounding helpers. -/
def fpIntResult (value : ℚ) (rounding : FpToIntRoundingMode) : ℤ :=
  let intResult := ⌊value⌋
  let error := value - intResult
  if fpRoundUpFromFloor error intResult rounding then intResult + 1 else intResult

/-- `fp_to_unsigned_round` to an integer type of `w` bits. -/
def fpToUnsignedRound (w : ℕ) (value : HostFloat) (rounding : FpToIntRoundingMode) :
    BitVec w × U64 :=
  match value with
  | .nan => (0, kFpsrIoc)
  | .infinite negative => (if negative then 0 else BitVec.allOnes w, kFpsrIoc)
  | .finite value =>
    let error := value - ⌊value⌋
    let intResult := fpIntResult value rounding
    if intResult < 0 ∨ 2 ^ w - 1 < intResult then
      (if intResult < 0 then 0 else BitVec.allOnes w, kFpsrIoc)
    else (BitVec.ofInt w intResult, if error ≠ 0 then kFpsrIxc else 0)

/-- `fp_to_signed_round` to an integer type of `w` bits. -/
def fpToSignedRound (w : ℕ) (value : HostFloat) (rounding : FpToIntRoundingMode) :
    BitVec w × U64 :=
  match value with
  | .nan => (0, kFpsrIoc)
  | .infinite negative => (if negative then BitVec.intMin w else BitVec.intMax w, kFpsrIoc)
  | .finite value =>
    let error := value - ⌊value⌋
    let intResult := fpIntResult value rounding
    if intResult < -2 ^ (w - 1) ∨ 2 ^ (w - 1) - 1 < intResult then
      (if intResult < 0 then BitVec.intMin w else BitVec.intMax w, kFpsrIoc)
    else (BitVec.ofInt w intResult, if error ≠ 0 then kFpsrIxc else 0)

/-! ## The general helpers -/

def FpToIntRoundingMode.rounding : FpToIntRoundingMode → IntegerRounding
  | .tieEven => .tiesEven
  | .posInf => .up
  | .negInf => .down
  | .zero => .zero
  | .tieAway => .tiesAway

theorem fpRoundUpFromFloor_iff (error : ℚ) (floorValue : ℤ) (rounding : FpToIntRoundingMode) :
    fpRoundUpFromFloor error floorValue rounding = true ↔
      rounding.rounding.roundsUp floorValue error := by
  cases rounding with
  | tieEven =>
    have hodd : (floorValue.natAbs % 2 != 0) = true ↔ floorValue % 2 ≠ 0 := by
      rw [bne_iff_ne]
      omega
    simp only [fpRoundUpFromFloor, Bool.or_eq_true, Bool.and_eq_true, decide_eq_true_eq, beq_iff_eq,
      hodd]
    rfl
  | posInf => exact bne_iff_ne
  | negInf => exact iff_of_false Bool.false_ne_true id
  | zero =>
    simp only [fpRoundUpFromFloor, Bool.and_eq_true, decide_eq_true_eq, bne_iff_ne]
    rfl
  | tieAway =>
    simp only [fpRoundUpFromFloor, Bool.or_eq_true, Bool.and_eq_true, decide_eq_true_eq, beq_iff_eq]
    rfl

theorem fpIntResult_rounded (value : ℚ) (rounding : FpToIntRoundingMode) :
    rounding.rounding.IsRounded value (fpIntResult value rounding) := by
  have hlo := Int.floor_le value
  have hhi := Int.lt_floor_add_one value
  have hiff := fpRoundUpFromFloor_iff (value - ⌊value⌋) ⌊value⌋ rounding
  by_cases h : fpRoundUpFromFloor (value - ⌊value⌋) ⌊value⌋ rounding = true
  · have heq : fpIntResult value rounding = ⌊value⌋ + 1 := if_pos h
    rw [heq]
    exact IntegerRounding.isRounded_floor_succ _ hlo hhi (hiff.1 h)
  · have heq : fpIntResult value rounding = ⌊value⌋ := if_neg h
    rw [heq]
    exact IntegerRounding.isRounded_floor _ hlo hhi (mt hiff.2 h)

theorem error_ne_zero_iff (value : ℚ) : value - ⌊value⌋ ≠ 0 ↔ ∀ m : ℤ, (m : ℚ) ≠ value := by
  constructor
  · rintro hne m rfl
    rw [Int.floor_intCast, sub_self] at hne
    exact hne rfl
  · intro h heq
    exact h ⌊value⌋ (by linarith)

/-- The result and the flags of a conversion, with the limits of the type. -/
theorem fpToFixed_of_limits {lo hi result : ℤ} {value : ℚ} {rounding : FpToIntRoundingMode}
    {fpsr : U64}
    (hlow : fpIntResult value rounding < lo → result = lo ∧ fpsr = kFpsrIoc)
    (hhigh : hi < fpIntResult value rounding → result = hi ∧ fpsr = kFpsrIoc)
    (hmiddle : lo ≤ fpIntResult value rounding → fpIntResult value rounding ≤ hi →
      result = fpIntResult value rounding ∧ fpsr = if value - ⌊value⌋ ≠ 0 then kFpsrIxc else 0)
    (hle : lo ≤ hi) : A64.FPToFixed lo hi rounding.rounding value result fpsr := by
  refine ⟨_, fpIntResult_rounded value rounding, ?_⟩
  generalize fpIntResult value rounding = n at *
  have hioc : kFpsrIoc = fpsrFlags true false false false := rfl
  rcases lt_or_ge n lo with h | h
  · obtain ⟨rfl, rfl⟩ := hlow h
    refine ⟨by omega, ?_⟩
    rw [hioc]
    exact fpsrFlags_raised (iff_of_true (.inl h) rfl) (by simp) (by simp)
      (iff_of_false (fun hin => by omega) (by simp))
  · rcases lt_or_ge hi n with h' | h'
    · obtain ⟨rfl, rfl⟩ := hhigh h'
      refine ⟨by omega, ?_⟩
      rw [hioc]
      exact fpsrFlags_raised (iff_of_true (.inr h') rfl) (by simp) (by simp)
        (iff_of_false (fun hin => by omega) (by simp))
    · obtain ⟨rfl, rfl⟩ := hmiddle h h'
      refine ⟨by omega, ?_⟩
      have hflags : (if value - ⌊value⌋ ≠ 0 then kFpsrIxc else 0) =
          fpsrFlags false false false (value - ⌊value⌋ ≠ 0) := by
        by_cases hne : value - ⌊value⌋ ≠ 0
        · rw [if_pos hne, decide_eq_true hne]
          rfl
        · rw [if_neg hne, decide_eq_false hne]
          rfl
      rw [hflags]
      refine fpsrFlags_raised (iff_of_false (by omega) (by simp)) (by simp) (by simp) ?_
      rw [decide_eq_true_eq, error_ne_zero_iff, and_iff_right ⟨h, h'⟩]

theorem fpToUnsignedRound_fixed (w : ℕ) (value : ℚ) (rounding : FpToIntRoundingMode) :
    A64.FPToFixed 0 (2 ^ w - 1) rounding.rounding value
      (fpToUnsignedRound w (.finite value) rounding).1.toNat
      (fpToUnsignedRound w (.finite value) rounding).2 := by
  have hpos : (0 : ℤ) < 2 ^ w := by positivity
  refine fpToFixed_of_limits (fun h => ?_) (fun h => ?_) (fun h h' => ?_) (by omega)
  · rw [fpToUnsignedRound, if_pos (.inl h), if_pos h]
    exact ⟨congrArg Nat.cast (Nat.zero_mod _), rfl⟩
  · rw [fpToUnsignedRound, if_pos (.inr h), if_neg (by omega)]
    refine ⟨?_, rfl⟩
    rw [BitVec.toNat_allOnes, Nat.cast_sub Nat.one_le_two_pow]
    push_cast
    rfl
  · rw [fpToUnsignedRound, if_neg (by omega)]
    refine ⟨?_, rfl⟩
    rw [BitVec.toNat_ofInt, Int.toNat_of_nonneg (Int.emod_nonneg _ (by positivity))]
    exact Int.emod_eq_of_lt h (by push_cast; omega)

theorem fpToSignedRound_fixed {w : ℕ} (hw : 0 < w) (value : ℚ) (rounding : FpToIntRoundingMode) :
    A64.FPToFixed (-2 ^ (w - 1)) (2 ^ (w - 1) - 1) rounding.rounding value
      (fpToSignedRound w (.finite value) rounding).1.toInt
      (fpToSignedRound w (.finite value) rounding).2 := by
  have hpos : (0 : ℤ) < 2 ^ (w - 1) := by positivity
  refine fpToFixed_of_limits (fun h => ?_) (fun h => ?_) (fun h h' => ?_) (by omega)
  · rw [fpToSignedRound, if_pos (.inl h), if_pos (by omega)]
    exact ⟨BitVec.toInt_intMin_of_pos hw, rfl⟩
  · rw [fpToSignedRound, if_pos (.inr h), if_neg (by omega)]
    exact ⟨BitVec.toInt_intMax, rfl⟩
  · rw [fpToSignedRound, if_neg (by omega)]
    exact ⟨BitVec.toInt_ofInt_eq_self hw h (by omega), rfl⟩

/-! ## Toward zero -/

theorem hostTrunc_rounded (value : ℚ) : IntegerRounding.zero.IsRounded value (hostTrunc value) := by
  rw [hostTrunc]
  split
  · next hneg =>
    have hlo := Int.le_ceil value
    have hhi := Int.ceil_lt_add_one value
    have hceil : ((⌈value⌉ : ℤ) : ℚ) ≤ 0 := by
      exact_mod_cast Int.ceil_le.2 (by rw [Int.cast_zero]; exact hneg.le)
    refine ⟨?_, abs_lt.2 ⟨by linarith, by linarith⟩⟩
    rw [abs_of_nonpos hceil, abs_of_neg hneg]
    linarith
  · next hpos =>
    have hlo := Int.floor_le value
    have hhi := Int.lt_floor_add_one value
    have hfloor : (0 : ℚ) ≤ (⌊value⌋ : ℤ) := by
      exact_mod_cast Int.le_floor.2 (by rw [Int.cast_zero]; exact not_lt.1 hpos)
    refine ⟨?_, abs_lt.2 ⟨by linarith, by linarith⟩⟩
    rw [abs_of_nonneg hfloor, abs_of_nonneg (not_lt.1 hpos)]
    exact hlo

theorem fpIntResult_zero (value : ℚ) : fpIntResult value .zero = hostTrunc value :=
  (fpIntResult_rounded value .zero).unique (hostTrunc_rounded value)

theorem hostTrunc_ne_iff (value : ℚ) : (hostTrunc value : ℚ) ≠ value ↔ value - ⌊value⌋ ≠ 0 := by
  rw [error_ne_zero_iff]
  constructor
  · rintro hne m rfl
    rw [hostTrunc, Int.ceil_intCast, Int.floor_intCast, ite_self] at hne
    exact hne rfl
  · exact fun h => h _

/-- Where the range check comes before the truncation, it sees the same range except between
the least integer and the one below it. -/
theorem hostTrunc_lt_iff (value : ℚ) {lo : ℤ} (hlo : lo ≤ 0) :
    hostTrunc value < lo ↔ value ≤ lo - 1 := by
  rw [hostTrunc]
  split
  · have hsub : ((lo - 1 : ℤ) : ℚ) = lo - 1 := by push_cast; rfl
    rw [← Int.le_sub_one_iff, Int.ceil_le, hsub]
  · next hpos =>
    have hcast : (lo : ℚ) ≤ 0 := by exact_mod_cast hlo
    have hfloor : 0 ≤ ⌊value⌋ := Int.le_floor.2 (by rw [Int.cast_zero]; exact not_lt.1 hpos)
    exact iff_of_false (by omega) fun h => hpos (by linarith)

theorem lt_hostTrunc_iff (value : ℚ) {hi : ℤ} (hhi : 0 < hi) :
    hi - 1 < hostTrunc value ↔ hi ≤ value := by
  rw [hostTrunc]
  split
  · next hneg =>
    have hcast : (0 : ℚ) < hi := by exact_mod_cast hhi
    have hceil : ⌈value⌉ ≤ 0 := Int.ceil_le.2 (by rw [Int.cast_zero]; exact hneg.le)
    exact iff_of_false (by omega) fun h => by linarith
  · rw [← Int.le_floor]
    omega

/-- A truncation that checks first and one that checks last. -/
theorem rtz_eq_iff {w : ℕ} {lo hi : ℤ} (hlo : lo ≤ 0) (hhi : 0 < hi) (low high : BitVec w)
    (value : ℚ) :
    ((if value < lo ∨ hi ≤ value then (if value < 0 then low else high, kFpsrIoc)
        else (BitVec.ofInt w (hostTrunc value),
          if (hostTrunc value : ℚ) ≠ value then kFpsrIxc else 0)) =
      (if hostTrunc value < lo ∨ hi - 1 < hostTrunc value then
          (if hostTrunc value < 0 then low else high, kFpsrIoc)
        else (BitVec.ofInt w (hostTrunc value), if value - ⌊value⌋ ≠ 0 then kFpsrIxc else 0))) ↔
      ¬ (lo - 1 < value ∧ value < lo) := by
  have hlow := hostTrunc_lt_iff value hlo
  have hhigh := lt_hostTrunc_iff value hhi
  have hlocast : (lo : ℚ) ≤ 0 := by exact_mod_cast hlo
  have hhicast : (0 : ℚ) < hi := by exact_mod_cast hhi
  simp only [hostTrunc_ne_iff, hlow, hhigh]
  rcases lt_or_ge value lo with hbelow | hin
  · rw [if_pos (.inl hbelow), if_pos (by linarith)]
    rcases le_or_gt value (lo - 1) with hfar | hnear
    · have hneg : hostTrunc value < 0 := (hlow.2 hfar).trans_le hlo
      rw [if_pos (.inl hfar), if_pos hneg]
      exact iff_of_true rfl fun h => absurd h.1 (not_lt.2 hfar)
    · have hflags : kFpsrIoc ≠ if value - ⌊value⌋ ≠ 0 then kFpsrIxc else 0 := by
        split <;> decide
      rw [if_neg (by rintro (h | h) <;> linarith)]
      exact iff_of_false (fun h => hflags (congrArg Prod.snd h)) fun h => h ⟨hnear, hbelow⟩
  · have hfar : ¬ value ≤ lo - 1 := by linarith
    refine iff_of_true ?_ fun h => absurd h.2 (not_lt.2 hin)
    rcases le_or_gt (hi : ℚ) value with hover | hunder
    · have hpos : ¬ hostTrunc value < 0 := by
        have := hhigh.2 hover
        omega
      have hrange : value < lo ∨ (hi : ℚ) ≤ value := .inr hover
      have hrange' : value ≤ lo - 1 ∨ (hi : ℚ) ≤ value := .inr hover
      have hpos' : ¬ value < 0 := by linarith
      rw [if_pos hrange, if_pos hrange', if_neg hpos', if_neg hpos]
    · rw [if_neg (not_or.2 ⟨not_lt.2 hin, not_le.2 hunder⟩),
        if_neg (not_or.2 ⟨hfar, not_le.2 hunder⟩)]

theorem fpToUnsignedRtz_eq_iff (w : ℕ) (value : ℚ) :
    fpToUnsignedRtz w (.finite value) = fpToUnsignedRound w (.finite value) .zero ↔
      ¬ (-1 < value ∧ value < 0) := by
  have hiff := rtz_eq_iff (le_refl (0 : ℤ)) (show (0 : ℤ) < 2 ^ w by positivity) 0
    (BitVec.allOnes w) value
  rw [fpToUnsignedRound, fpIntResult_zero, fpToUnsignedRtz]
  push_cast at hiff
  rwa [zero_sub] at hiff

theorem fpToSignedRtz_eq_iff (w : ℕ) (value : ℚ) :
    fpToSignedRtz w (.finite value) = fpToSignedRound w (.finite value) .zero ↔
      ¬ (-2 ^ (w - 1) - 1 < value ∧ value < -2 ^ (w - 1)) := by
  have hpos : (0 : ℤ) < 2 ^ (w - 1) := by positivity
  have hiff := rtz_eq_iff (show -2 ^ (w - 1) ≤ (0 : ℤ) by omega) hpos
    (BitVec.intMin w) (BitVec.intMax w) value
  rw [fpToSignedRound, fpIntResult_zero, fpToSignedRtz]
  push_cast at hiff
  exact hiff

/-! ## Both -/

/-- The conversions of a value to an unsigned integer are `FPToFixed`, and the one toward zero
agrees with the general one. -/
def UnsignedExact (w : ℕ) (value : HostFloat) : Prop :=
  (∀ x, value = .finite x → ∀ rounding : FpToIntRoundingMode,
    A64.FPToFixed 0 (2 ^ w - 1) rounding.rounding x (fpToUnsignedRound w value rounding).1.toNat
      (fpToUnsignedRound w value rounding).2) ∧
  fpToUnsignedRtz w value = fpToUnsignedRound w value .zero

/-- The same to a signed integer. -/
def SignedExact (w : ℕ) (value : HostFloat) : Prop :=
  (∀ x, value = .finite x → ∀ rounding : FpToIntRoundingMode,
    A64.FPToFixed (-2 ^ (w - 1)) (2 ^ (w - 1) - 1) rounding.rounding x
      (fpToSignedRound w value rounding).1.toInt (fpToSignedRound w value rounding).2) ∧
  fpToSignedRtz w value = fpToSignedRound w value .zero

/-- The conversions are exact but for the values between the least integer and the one below. -/
theorem fpToInt_exact_iff (w : ℕ) (hw : 0 < w) (value : HostFloat) :
    (UnsignedExact w value ↔ ∀ x, value = .finite x → ¬ (-1 < x ∧ x < 0)) ∧
      (SignedExact w value ↔
        ∀ x, value = .finite x → ¬ (-2 ^ (w - 1) - 1 < x ∧ x < -2 ^ (w - 1))) := by
  cases value with
  | nan => exact ⟨iff_of_true ⟨nofun, rfl⟩ nofun, iff_of_true ⟨nofun, rfl⟩ nofun⟩
  | infinite negative =>
    exact ⟨iff_of_true ⟨nofun, rfl⟩ nofun, iff_of_true ⟨nofun, rfl⟩ nofun⟩
  | finite x =>
    constructor
    · rw [UnsignedExact, fpToUnsignedRtz_eq_iff]
      constructor
      · rintro ⟨-, h⟩ y ⟨⟩
        exact h
      · refine fun h => ⟨?_, h x rfl⟩
        rintro y ⟨⟩ rounding
        exact fpToUnsignedRound_fixed w x rounding
    · rw [SignedExact, fpToSignedRtz_eq_iff]
      constructor
      · rintro ⟨-, h⟩ y ⟨⟩
        exact h
      · refine fun h => ⟨?_, h x rfl⟩
        rintro y ⟨⟩ rounding
        exact fpToSignedRound_fixed hw x rounding

theorem fpToInt_exact_iff_half :
    UnsignedExact 32 (.finite (1 / 2)) ∧ SignedExact 32 (.finite (1 / 2)) := by
  obtain ⟨hunsigned, hsigned⟩ := fpToInt_exact_iff 32 (by decide) (.finite (1 / 2))
  constructor
  · refine hunsigned.2 ?_
    rintro x ⟨⟩
    norm_num
  · refine hsigned.2 ?_
    rintro x ⟨⟩
    norm_num

theorem fpToInt_not_exact :
    ¬ UnsignedExact 32 (.finite (-1 / 2)) ∧ ¬ SignedExact 32 (.finite (-2147483648 - 1 / 2)) := by
  have hunsigned : (fpToUnsignedRtz 32 (.finite (-1 / 2))).2 = kFpsrIoc ∧
      (fpToUnsignedRound 32 (.finite (-1 / 2)) .zero).2 = kFpsrIxc := by decide +kernel
  have hsigned : (fpToSignedRtz 32 (.finite (-2147483648 - 1 / 2))).2 = kFpsrIoc ∧
      (fpToSignedRound 32 (.finite (-2147483648 - 1 / 2)) .zero).2 = kFpsrIxc := by
    decide +kernel
  constructor
  · rintro ⟨-, h⟩
    exact absurd (hunsigned.1.symm.trans ((congrArg Prod.snd h).trans hunsigned.2)) (by decide)
  · rintro ⟨-, h⟩
    exact absurd (hsigned.1.symm.trans ((congrArg Prod.snd h).trans hsigned.2)) (by decide)

end Aarchvm

import Aarchvm.Cpu.BigUInt
import Mathlib.Data.List.GetD

/-!
# The big natural numbers are exact

Each operation on normalised limbs stays within its vectors and computes on the represented
numbers; a loop is followed by the number that its vector and its carry stand for together.
-/
namespace Aarchvm.BigUInt

open Lib

variable {limbs lhs rhs : BigUInt} {i k n : ℕ}

/-- The number of the limbs below `n`. -/
def lowValue (limbs : BigUInt) (n : ℕ) : ℕ := positional (2 ^ 32) (limbAt limbs) n

theorem lowValue_length (limbs : BigUInt) : lowValue limbs limbs.length = value limbs := rfl

@[simp] theorem lowValue_zero (limbs : BigUInt) : lowValue limbs 0 = 0 := rfl

theorem lowValue_succ (limbs : BigUInt) (n : ℕ) :
    lowValue limbs (n + 1) = lowValue limbs n + limbAt limbs n * (2 ^ 32) ^ n :=
  positional_succ _ _ _

theorem limbAt_lt (limbs : BigUInt) (i : ℕ) : limbAt limbs i < 2 ^ 32 := (limbs.getD i 0).isLt

theorem lowValue_lt (limbs : BigUInt) (n : ℕ) : lowValue limbs n < (2 ^ 32) ^ n :=
  positional_lt fun i _ => limbAt_lt limbs i

theorem value_lt (limbs : BigUInt) : value limbs < (2 ^ 32) ^ limbs.length :=
  lowValue_lt limbs limbs.length

theorem limbAt_of_le (h : limbs.length ≤ i) : limbAt limbs i = 0 := by
  rw [limbAt, List.getD_eq_default _ _ h]
  rfl

theorem limbAt_of_lt (h : i < limbs.length) : limbAt limbs i = limbs[i].toNat := by
  rw [limbAt, List.getD_eq_getElem _ _ h]

theorem lowValue_of_le (h : limbs.length ≤ n) : lowValue limbs n = value limbs :=
  positional_extend h fun _ hi _ => limbAt_of_le hi

@[simp] theorem limbAt_replicate (n i : ℕ) : limbAt (List.replicate n 0) i = 0 := by
  rcases lt_or_ge i n with h | h
  · rw [limbAt_of_lt (h.trans_eq List.length_replicate.symm), List.getElem_replicate]
    rfl
  · exact limbAt_of_le (List.length_replicate.trans_le h)

@[simp] theorem lowValue_replicate (m n : ℕ) : lowValue (List.replicate m 0) n = 0 :=
  positional_extend (Nat.zero_le n) fun i _ _ => limbAt_replicate m i

theorem toNat_limbOrZero (limbs : BigUInt) (i : ℕ) :
    (limbOrZero limbs i).toNat = limbAt limbs i :=
  BitVec.toNat_setWidth_of_le (by decide)

theorem load_eq (h : i < limbs.length) : limbs[i]? = some (limbs.getD i 0) := by
  rw [List.getElem?_eq_getElem h, List.getD_eq_getElem _ _ h]

/-! ## Stores -/

theorem store_eq (h : k < limbs.length) (v : U32) : store limbs k v = some (limbs.set k v) :=
  if_pos h

theorem limbAt_set_self (h : k < limbs.length) (v : U32) : limbAt (limbs.set k v) k = v.toNat := by
  rw [limbAt_of_lt (h.trans_eq List.length_set.symm), List.getElem_set_self]

theorem limbAt_set_of_ne (v : U32) (h : i ≠ k) : limbAt (limbs.set k v) i = limbAt limbs i := by
  rw [limbAt, limbAt, List.getD_eq_getElem?_getD, List.getD_eq_getElem?_getD,
    List.getElem?_set_ne h.symm]

theorem lowValue_set_of_le (v : U32) (h : n ≤ k) :
    lowValue (limbs.set k v) n = lowValue limbs n :=
  positional_congr fun _ hi => limbAt_set_of_ne v (Nat.ne_of_lt (hi.trans_le h))

/-- A store into the limb after those counted. -/
theorem lowValue_set_succ (h : k < limbs.length) (v : U32) :
    lowValue (limbs.set k v) (k + 1) = lowValue limbs k + v.toNat * (2 ^ 32) ^ k := by
  rw [lowValue_succ, limbAt_set_self h, lowValue_set_of_le v le_rfl]

/-- A store into a limb that is counted. -/
theorem lowValue_set_of_lt (hk : k < n) (h : k < limbs.length) (v : U32) :
    lowValue (limbs.set k v) n + limbAt limbs k * (2 ^ 32) ^ k =
      lowValue limbs n + v.toNat * (2 ^ 32) ^ k :=
  positional_update v.toNat hk (limbAt_set_self h v) fun _ hi => limbAt_set_of_ne v hi

/-- The two halves of a wide sum, at their places. -/
theorem toNat_halves (wide : U64) (i : ℕ) :
    (wide.setWidth 32).toNat * (2 ^ 32) ^ i + (wide >>> 32).toNat * (2 ^ 32) ^ (i + 1) =
      wide.toNat * (2 ^ 32) ^ i := by
  have hsplit : (wide.setWidth 32).toNat + 2 ^ 32 * (wide >>> 32).toNat = wide.toNat := by
    rw [BitVec.toNat_setWidth, BitVec.toNat_ushiftRight, Nat.shiftRight_eq_div_pow]
    exact Nat.mod_add_div _ _
  rw [← hsplit, pow_succ (2 ^ 32) i]
  ring

theorem toNat_highHalf (wide : U64) :
    ((wide >>> 32).setWidth 32).toNat = (wide >>> 32).toNat := by
  have hlt := wide.isLt
  rw [BitVec.toNat_setWidth, BitVec.toNat_ushiftRight, Nat.shiftRight_eq_div_pow]
  omega

/-! ## Normalised limbs -/

theorem normalised_nil : Normalised [] := fun h => by cases h

theorem value_append (low : BigUInt) (top : U32) :
    value (low ++ [top]) = value low + top.toNat * (2 ^ 32) ^ low.length := by
  have hlow : ∀ i < low.length, limbAt (low ++ [top]) i = limbAt low i := fun i hi => by
    rw [limbAt, limbAt, List.getD_append _ _ _ _ hi]
  have hlast : limbAt (low ++ [top]) low.length = top.toNat := by
    rw [limbAt, List.getD_append_right _ _ _ _ le_rfl, Nat.sub_self]
    rfl
  rw [value, List.length_append, List.length_singleton, positional_succ, hlast,
    positional_congr hlow, value]

theorem normalised_iff (limbs : BigUInt) :
    Normalised limbs ↔ limbs = [] ∨ (2 ^ 32) ^ (limbs.length - 1) ≤ value limbs := by
  rcases List.eq_nil_or_concat' limbs with rfl | ⟨low, top, rfl⟩
  · exact iff_of_true normalised_nil (Or.inl rfl)
  · have hvalue := value_append low top
    have hlow := value_lt low
    have hpow : 0 < (2 ^ 32) ^ low.length := by positivity
    rw [Normalised, List.getLast?_concat, hvalue, List.length_append, List.length_singleton,
      Nat.add_sub_cancel]
    generalize (2 ^ 32) ^ low.length = W at *
    have hne : low ++ [top] ≠ [] := List.append_ne_nil_of_right_ne_nil _ (List.cons_ne_nil _ _)
    constructor
    · intro htop
      refine Or.inr (le_trans ?_ (Nat.le_add_left _ _))
      refine Nat.le_mul_of_pos_left _ (Nat.pos_of_ne_zero fun h => htop ?_)
      exact congrArg some (BitVec.eq_of_toNat_eq h)
    · intro h htop
      have hzero : top = 0 := Option.some.inj htop
      rcases h with h | h
      · exact hne h
      · have hcast : top.toNat = 0 := congrArg BitVec.toNat hzero
        rw [hcast] at h
        omega

theorem eq_nil_of_value_eq_zero (h : Normalised limbs) (hzero : value limbs = 0) : limbs = [] := by
  refine ((normalised_iff limbs).1 h).resolve_right fun hle => ?_
  have hpow : 0 < (2 ^ 32) ^ (limbs.length - 1) := by positivity
  omega

theorem value_normalize (limbs : BigUInt) : value (normalize limbs) = value limbs := by
  induction limbs using List.reverseRecOn with
  | nil => rfl
  | append_singleton low top ih =>
    rw [normalize, List.rdropWhile_concat]
    split
    · next h =>
      have htop : top.toNat = 0 := congrArg BitVec.toNat (beq_iff_eq.1 h)
      rw [← normalize, ih, value_append, htop, Nat.zero_mul, Nat.add_zero]
    · rfl

theorem normalised_normalize (limbs : BigUInt) : Normalised (normalize limbs) := by
  intro h
  have hne : normalize limbs ≠ [] := fun hnil => by
    rw [hnil] at h
    cases h
  have hlast := List.rdropWhile_last_not _ _ hne
  rw [List.getLast?_eq_some_getLast hne, Option.some.injEq] at h
  exact hlast (beq_iff_eq.2 h)

theorem computes_normalize (limbs : BigUInt) : Computes (some (normalize limbs)) (value limbs) :=
  ⟨_, rfl, normalised_normalize limbs, value_normalize limbs⟩

theorem value_ofU64 (v : U64) : value (ofU64 v) = v.toNat := by
  have hsplit : (v.setWidth 32).toNat + (v >>> 32).toNat * 2 ^ 32 = v.toNat := by
    have h := toNat_halves v 0
    rw [Nat.pow_zero, Nat.mul_one, Nat.mul_one, Nat.zero_add, Nat.pow_one] at h
    exact h
  have hhigh := toNat_highHalf v
  rw [ofU64]
  dsimp only
  split
  · next h =>
    rw [h]
    rfl
  · split
    · next h =>
      have hzero : (v >>> 32).toNat = 0 := by rw [← hhigh, h]; rfl
      rw [hzero, Nat.zero_mul, Nat.add_zero] at hsplit
      rw [← hsplit, ← lowValue_length, List.length_singleton, lowValue_succ]
      exact (Nat.zero_add _).trans (Nat.mul_one _)
    · rw [← hsplit, ← hhigh, ← lowValue_length, List.length_cons, List.length_singleton,
        lowValue_succ, lowValue_succ]
      exact congrArg₂ (· + ·) ((Nat.zero_add _).trans (Nat.mul_one _)) (by rw [Nat.pow_one]; rfl)

theorem normalised_ofU64 (v : U64) : Normalised (ofU64 v) := by
  rw [ofU64]
  dsimp only
  intro hlast
  split at hlast
  · cases hlast
  · next h =>
    split at hlast
    · next hhigh =>
      refine h (BitVec.eq_of_toNat_eq ?_)
      have hlow : (v.setWidth 32).toNat = (0 : U32).toNat :=
        congrArg BitVec.toNat (Option.some.inj hlast)
      have hhigh := congrArg BitVec.toNat hhigh
      have hlt := v.isLt
      have hzero : (0 : U32).toNat = 0 := rfl
      have hzero' : (0 : U64).toNat = 0 := rfl
      rw [BitVec.toNat_setWidth, BitVec.toNat_ushiftRight, Nat.shiftRight_eq_div_pow] at hhigh
      rw [BitVec.toNat_setWidth] at hlow
      omega
    · next hhigh => exact hhigh (Option.some.inj hlast)

/-! ## Addition -/

/-- After `i` steps of `operator+`. -/
def AddInv (lhs rhs : BigUInt) (i : ℕ) (s : BigUInt × U64) : Prop :=
  s.1.length = max lhs.length rhs.length + 1 ∧ s.2.toNat ≤ 1 ∧
    lowValue s.1 i + s.2.toNat * (2 ^ 32) ^ i = lowValue lhs i + lowValue rhs i

theorem addStep_inv {s : BigUInt × U64} (hi : i < max lhs.length rhs.length)
    (h : AddInv lhs rhs i s) :
    ∃ s', addStep lhs rhs i s = some s' ∧ AddInv lhs rhs (i + 1) s' := by
  obtain ⟨sum, carry⟩ := s
  obtain ⟨hlength, hcarry, hvalue⟩ := h
  dsimp only at hlength hcarry hvalue
  have hl := limbAt_lt lhs i
  have hr := limbAt_lt rhs i
  have hwide : (limbOrZero lhs i + limbOrZero rhs i + carry).toNat =
      limbAt lhs i + limbAt rhs i + carry.toNat := by
    rw [BitVec.toNat_add, BitVec.toNat_add, toNat_limbOrZero, toNat_limbOrZero]
    omega
  have hhalves := toNat_halves (limbOrZero lhs i + limbOrZero rhs i + carry) i
  have hhigh : ((limbOrZero lhs i + limbOrZero rhs i + carry) >>> 32).toNat ≤ 1 := by
    rw [BitVec.toNat_ushiftRight, hwide, Nat.shiftRight_eq_div_pow]
    omega
  rw [hwide] at hhalves
  have hstore : i < sum.length := hi.trans (by omega)
  refine ⟨_, by rw [addStep, store_eq hstore]; rfl, List.length_set.trans hlength, hhigh, ?_⟩
  dsimp only
  rw [lowValue_set_succ hstore, lowValue_succ, lowValue_succ, Nat.add_assoc, hhalves]
  linarith

/-- `operator+` adds. -/
theorem add_computes (lhs rhs : BigUInt) :
    Computes (add lhs rhs) (value lhs + value rhs) := by
  have hinit : AddInv lhs rhs 0 (List.replicate (max lhs.length rhs.length + 1) 0, 0) :=
    ⟨List.length_replicate, Nat.zero_le _, by simp⟩
  obtain ⟨⟨sum, carry⟩, hloop, hlength, hcarry, hvalue⟩ :=
    countedLoop_inv (AddInv lhs rhs) hinit fun _ _ => addStep_inv
  dsimp only at hlength hcarry hvalue
  have hstore : max lhs.length rhs.length < sum.length := by omega
  have hadd : add lhs rhs =
      some (normalize (sum.set (max lhs.length rhs.length) (carry.setWidth 32))) := by
    rw [add]
    dsimp only
    rw [hloop]
    change (store sum _ _).bind _ = _
    rw [store_eq hstore]
    rfl
  rw [lowValue_of_le (le_max_left _ _), lowValue_of_le (le_max_right _ _)] at hvalue
  have hcast : (carry.setWidth 32).toNat = carry.toNat := by
    rw [BitVec.toNat_setWidth]
    omega
  have hsum : value (sum.set (max lhs.length rhs.length) (carry.setWidth 32)) =
      value lhs + value rhs := by
    rw [← hvalue, ← lowValue_length, List.length_set, hlength, lowValue_set_succ hstore, hcast]
  rw [hadd, ← hsum]
  exact computes_normalize _

/-! ## Order and subtraction -/

theorem value_lt_of_length_lt (hrhs : Normalised rhs) (h : lhs.length < rhs.length) :
    value lhs < value rhs := by
  have htop := ((normalised_iff rhs).1 hrhs).resolve_left fun hnil => by
    rw [hnil] at h
    exact Nat.not_lt_zero _ h
  calc value lhs < (2 ^ 32) ^ lhs.length := value_lt lhs
    _ ≤ (2 ^ 32) ^ (rhs.length - 1) := Nat.pow_le_pow_right (by decide) (by omega)
    _ ≤ value rhs := htop

/-- The comparison of two numbers as an `int`. -/
def orderOf (m n : ℕ) : ℤ := if m < n then -1 else if m = n then 0 else 1

theorem orderOf_of_lt {m n : ℕ} (h : m < n) : orderOf m n = -1 := if_pos h

theorem orderOf_of_gt {m n : ℕ} (h : n < m) : orderOf m n = 1 :=
  (if_neg h.not_gt).trans (if_neg h.ne')

theorem compareBelow_eq (hl : n ≤ lhs.length) (hr : n ≤ rhs.length) :
    compareBelow lhs rhs n = some (orderOf (lowValue lhs n) (lowValue rhs n)) := by
  induction n with
  | zero => rfl
  | succ n ih =>
    have hbound : ∀ (limbs : BigUInt), ∀ i < n, limbAt limbs i < 2 ^ 32 := fun limbs i _ =>
      limbAt_lt limbs i
    rw [compareBelow, load_eq hl, load_eq hr]
    change (if lhs.getD n 0 ≠ rhs.getD n 0 then _ else _) = _
    split
    · next hne =>
      have hnat : limbAt lhs n ≠ limbAt rhs n := fun h => hne (BitVec.eq_of_toNat_eq h)
      rcases Nat.lt_or_gt_of_ne hnat with h | h
      · rw [if_pos (BitVec.lt_def.2 h)]
        exact congrArg some (orderOf_of_lt (positional_lt_of_top (hbound lhs) h)).symm
      · rw [if_neg fun hlt => Nat.lt_asymm h (BitVec.lt_def.1 hlt)]
        exact congrArg some (orderOf_of_gt (positional_lt_of_top (hbound rhs) h)).symm
    · next heq =>
      have hnat : limbAt lhs n = limbAt rhs n := congrArg BitVec.toNat (not_not.1 heq)
      rw [ih (Nat.le_of_succ_le hl) (Nat.le_of_succ_le hr), lowValue_succ, lowValue_succ, hnat]
      simp only [orderOf, Nat.add_lt_add_iff_right, Nat.add_right_cancel_iff]

/-- `BigUInt::compare` compares. -/
theorem compare_eq (hlhs : Normalised lhs) (hrhs : Normalised rhs) :
    compare lhs rhs = some (orderOf (value lhs) (value rhs)) := by
  rw [compare]
  split
  · next hne =>
    rcases Nat.lt_or_gt_of_ne hne with h | h
    · rw [if_pos h]
      exact congrArg some (orderOf_of_lt (value_lt_of_length_lt hrhs h)).symm
    · rw [if_neg h.not_gt]
      exact congrArg some (orderOf_of_gt (value_lt_of_length_lt hlhs h)).symm
  · next heq =>
    have hlength : lhs.length = rhs.length := not_not.1 heq
    rw [compareBelow_eq le_rfl hlength.le, lowValue_length, lowValue_of_le hlength.ge]

/-- A limb of a difference and the borrow that it takes from the next. -/
theorem toNat_borrow {x y : U64} (hx : x.toNat < 2 ^ 32) (hy : y.toNat ≤ 2 ^ 32) :
    ((x - y).setWidth 32).toNat + y.toNat =
      x.toNat + 2 ^ 32 * (if x < y then (1 : U64) else 0).toNat := by
  have hone : (1 : U64).toNat = 1 := rfl
  have hzero : (0 : U64).toNat = 0 := rfl
  rw [BitVec.toNat_setWidth, BitVec.toNat_sub]
  split
  · next h =>
    have hlt := BitVec.lt_def.1 h
    omega
  · next h =>
    have hle := Nat.le_of_not_lt fun hlt => h (BitVec.lt_def.2 hlt)
    omega

/-- After `i` steps of `operator-`. -/
def SubInv (lhs rhs : BigUInt) (i : ℕ) (s : BigUInt × U64) : Prop :=
  s.1.length = lhs.length ∧ s.2.toNat ≤ 1 ∧
    lowValue s.1 i + lowValue rhs i = lowValue lhs i + s.2.toNat * (2 ^ 32) ^ i

theorem subStep_inv {s : BigUInt × U64} (hi : i < lhs.length) (h : SubInv lhs rhs i s) :
    ∃ s', subStep lhs rhs i s = some s' ∧ SubInv lhs rhs (i + 1) s' := by
  obtain ⟨diff, borrow⟩ := s
  obtain ⟨hlength, hborrow, hvalue⟩ := h
  dsimp only at hlength hborrow hvalue
  have hr := limbAt_lt rhs i
  have hx : ((lhs.getD i 0).setWidth 64).toNat = limbAt lhs i := toNat_limbOrZero lhs i
  have hy : (limbOrZero rhs i + borrow).toNat = limbAt rhs i + borrow.toNat := by
    rw [BitVec.toNat_add, toNat_limbOrZero]
    omega
  have hlimb := toNat_borrow (x := (lhs.getD i 0).setWidth 64) (y := limbOrZero rhs i + borrow)
    (hx.trans_lt (limbAt_lt lhs i)) (by omega)
  have hstore : i < diff.length := hi.trans_eq hlength.symm
  rw [hx, hy] at hlimb
  refine ⟨_, by rw [subStep, load_eq hi]; exact congrArg (Option.bind · _) (store_eq hstore _),
    List.length_set.trans hlength, ?_, ?_⟩
  · dsimp only
    split <;> decide
  · dsimp only
    rw [lowValue_set_succ hstore, lowValue_succ, lowValue_succ, pow_succ (2 ^ 32) i]
    generalize ((lhs.getD i 0).setWidth 64 - (limbOrZero rhs i + borrow)).setWidth 32 = low at *
    generalize (if (lhs.getD i 0).setWidth 64 < limbOrZero rhs i + borrow then (1 : U64) else 0) =
      next at *
    generalize (2 ^ 32) ^ i = W at *
    have hlimb := congrArg (· * W) hlimb
    linarith

/-- `operator-` of two vectors, the subtrahend of any size, has a normalised result. -/
theorem sub_eq (lhs rhs : BigUInt) : ∃ diff borrow, SubInv lhs rhs lhs.length (diff, borrow) ∧
    sub lhs rhs = some (normalize diff) := by
  have hinit : SubInv lhs rhs 0 (List.replicate lhs.length 0, 0) :=
    ⟨List.length_replicate, Nat.zero_le _, by simp⟩
  obtain ⟨⟨diff, borrow⟩, hloop, hinv⟩ :=
    countedLoop_inv (SubInv lhs rhs) hinit fun _ _ => subStep_inv
  refine ⟨diff, borrow, hinv, ?_⟩
  rw [sub, hloop]
  rfl

/-- `operator-` subtracts. -/
theorem sub_computes (hrhs : Normalised rhs) (hle : value rhs ≤ value lhs) :
    Computes (sub lhs rhs) (value lhs - value rhs) := by
  obtain ⟨diff, borrow, ⟨hlength, hborrow, hvalue⟩, hsub⟩ := sub_eq lhs rhs
  dsimp only at hlength hborrow hvalue
  have hshorter : rhs.length ≤ lhs.length :=
    Nat.le_of_not_lt fun h => Nat.not_lt_of_le hle (value_lt_of_length_lt hrhs h)
  have hdiff := lowValue_lt diff lhs.length
  rw [lowValue_of_le hshorter, lowValue_length, lowValue_of_le hlength.le] at hvalue
  rw [lowValue_of_le hlength.le] at hdiff
  -- a borrow out of the last limb would make the minuend the smaller one
  have hzero : borrow.toNat = 0 := by
    rcases Nat.le_one_iff_eq_zero_or_eq_one.1 hborrow with h | h
    · exact h
    · rw [h, Nat.one_mul] at hvalue
      omega
  rw [hzero, Nat.zero_mul, Nat.add_zero] at hvalue
  rw [hsub, ← hvalue, Nat.add_sub_cancel]
  exact computes_normalize diff

/-! ## Shift -/

/-- A limb moved up by less than its width, with the carry of the one before below it. -/
theorem toNat_shiftCarry (limb : U32) {carry : U32} {bitShift : ℕ} (hbits : bitShift < 32)
    (hcarry : carry.toNat < 2 ^ bitShift) :
    ((limb.setWidth 64 <<< bitShift) ||| carry.setWidth 64 : U64).toNat =
      limb.toNat * 2 ^ bitShift + carry.toNat := by
  have hlimb : (limb.setWidth 64).toNat = limb.toNat := BitVec.toNat_setWidth_of_le (by decide)
  have hlow : (carry.setWidth 64).toNat = carry.toNat := BitVec.toNat_setWidth_of_le (by decide)
  have hfit : limb.toNat <<< bitShift < 2 ^ 64 := by
    rw [Nat.shiftLeft_eq]
    calc limb.toNat * 2 ^ bitShift < 2 ^ 32 * 2 ^ 32 :=
          Nat.mul_lt_mul_of_lt_of_le limb.isLt (Nat.pow_le_pow_right (by decide) hbits.le)
            (by decide)
      _ = 2 ^ 64 := rfl
  rw [BitVec.toNat_or, BitVec.toNat_shiftLeft, hlimb, hlow, Nat.mod_eq_of_lt hfit,
    ← Nat.shiftLeft_add_eq_or_of_lt hcarry, Nat.shiftLeft_eq]

/-- After `i` steps of the loop of `shift_left`, which started at `limbShift`. -/
def ShiftInv (limbs : BigUInt) (limbShift bitShift i : ℕ) (s : BigUInt × U32 × ℕ) : Prop :=
  s.1.length = limbs.length + limbShift + 1 ∧ s.2.1.toNat < 2 ^ bitShift ∧
    s.2.2 = limbShift + i ∧ (∀ j, limbShift + i ≤ j → limbAt s.1 j = 0) ∧
    lowValue s.1 (limbShift + i) + s.2.1.toNat * (2 ^ 32) ^ (limbShift + i) =
      lowValue limbs i * 2 ^ bitShift * (2 ^ 32) ^ limbShift

theorem shiftCarry_inv {s : BigUInt × U32 × ℕ} {limbShift bitShift : ℕ} (hbits : bitShift < 32)
    (hi : i < limbs.length) (h : ShiftInv limbs limbShift bitShift i s) :
    ∃ s', shiftCarry limbs bitShift i s = some s' ∧
      ShiftInv limbs limbShift bitShift (i + 1) s' := by
  obtain ⟨shifted, carry, out⟩ := s
  obtain ⟨hlength, hcarry, hout, habove, hvalue⟩ := h
  dsimp only at hlength hcarry hout habove hvalue
  have hwide := toNat_shiftCarry (limbs.getD i 0) hbits hcarry
  have hhalves := toNat_halves (((limbs.getD i 0).setWidth 64 <<< bitShift) ||| carry.setWidth 64)
    (limbShift + i)
  have hnext := toNat_highHalf (((limbs.getD i 0).setWidth 64 <<< bitShift) ||| carry.setWidth 64)
  have hstore : out < shifted.length := by omega
  have hload := load_eq hi
  have hlimb : limbAt limbs i = (limbs.getD i 0).toNat := rfl
  rw [← hlimb] at hwide
  refine ⟨_, by rw [shiftCarry, hload]; exact congrArg (Option.bind · _) (store_eq hstore _), ?_⟩
  generalize (((limbs.getD i 0).setWidth 64 <<< bitShift) ||| carry.setWidth 64 : U64) = wide at *
  have hcarry' : ((wide >>> 32).setWidth 32).toNat < 2 ^ bitShift := by
    rw [hnext, BitVec.toNat_ushiftRight, hwide, Nat.shiftRight_eq_div_pow]
    refine Nat.div_lt_of_lt_mul ?_
    have hle : (limbAt limbs i + 1) * 2 ^ bitShift ≤ 2 ^ 32 * 2 ^ bitShift :=
      Nat.mul_le_mul_right _ (limbAt_lt limbs i)
    linarith
  refine ⟨List.length_set.trans hlength, hcarry', by dsimp only; omega, ?_, ?_⟩
  · intro j hj
    rw [limbAt_set_of_ne _ (by omega)]
    exact habove j (by omega)
  · dsimp only
    subst hout
    rw [← Nat.add_assoc, lowValue_set_succ hstore, hnext, Nat.add_assoc, hhalves, hwide,
      lowValue_succ, Nat.pow_add]
    rw [Nat.pow_add] at hvalue
    linarith

/-- After `i` steps of the loop of `shift_left` by whole limbs. -/
def MoveInv (limbs : BigUInt) (limbShift i : ℕ) (shifted : BigUInt) : Prop :=
  shifted.length = limbs.length + limbShift ∧
    lowValue shifted (i + limbShift) = lowValue limbs i * (2 ^ 32) ^ limbShift

theorem moveLimb_inv {shifted : BigUInt} {limbShift : ℕ} (hi : i < limbs.length)
    (h : MoveInv limbs limbShift i shifted) :
    ∃ shifted', moveLimb limbs limbShift i shifted = some shifted' ∧
      MoveInv limbs limbShift (i + 1) shifted' := by
  obtain ⟨hlength, hvalue⟩ := h
  have hstore : i + limbShift < shifted.length := by omega
  refine ⟨shifted.set (i + limbShift) (limbs.getD i 0), ?_, List.length_set.trans hlength, ?_⟩
  · rw [moveLimb, load_eq hi]
    exact store_eq hstore _
  · rw [Nat.add_right_comm, lowValue_set_succ hstore, hvalue, lowValue_succ, Nat.pow_add, limbAt]
    ring

theorem moveLimbs_eq (limbs : BigUInt) (limbShift : ℕ) :
    ∃ shifted, countedLoop limbs.length (List.replicate (limbs.length + limbShift) 0)
        (moveLimb limbs limbShift) = some shifted ∧
      shifted.length = limbs.length + limbShift ∧
      value shifted = value limbs * (2 ^ 32) ^ limbShift := by
  have hinit : MoveInv limbs limbShift 0 (List.replicate (limbs.length + limbShift) 0) :=
    ⟨List.length_replicate, by rw [lowValue_replicate, lowValue_zero, Nat.zero_mul]⟩
  obtain ⟨shifted, hloop, hlength, hvalue⟩ :=
    countedLoop_inv (MoveInv limbs limbShift) hinit fun _ _ => moveLimb_inv
  refine ⟨shifted, hloop, hlength, ?_⟩
  rw [← lowValue_length, hlength, hvalue, lowValue_length]

/-- The loop of `shift_left` by limbs and bits, with the store of the last carry. -/
theorem shiftBits_eq (limbs : BigUInt) (limbShift : ℕ) {bitShift : ℕ} (hbits : bitShift < 32) :
    ∃ shifted carry out, countedLoop limbs.length
        (List.replicate (limbs.length + limbShift + 1) 0, 0, limbShift)
        (shiftCarry limbs bitShift) = some (shifted, carry, out) ∧
      ∃ result, (if carry ≠ 0 then store shifted out carry else some shifted) = some result ∧
        value result = value limbs * (2 ^ bitShift * (2 ^ 32) ^ limbShift) := by
  have hinit : ShiftInv limbs limbShift bitShift 0
      (List.replicate (limbs.length + limbShift + 1) 0, 0, limbShift) :=
    ⟨List.length_replicate, Nat.two_pow_pos _, rfl, fun j _ => limbAt_replicate _ j,
      by rw [lowValue_replicate, lowValue_zero, Nat.zero_mul, Nat.zero_mul]
         exact (Nat.zero_add _).trans (Nat.zero_mul _)⟩
  obtain ⟨⟨shifted, carry, out⟩, hloop, hlength, -, hout, habove, hvalue⟩ :=
    countedLoop_inv (ShiftInv limbs limbShift bitShift) hinit fun _ _ => shiftCarry_inv hbits
  dsimp only at hlength hout habove hvalue
  refine ⟨shifted, carry, out, hloop, ?_⟩
  rw [lowValue_length, Nat.mul_assoc] at hvalue
  rw [← hvalue, ← hout]
  have hlast : shifted.length = out + 1 := by omega
  split
  · refine ⟨_, store_eq (by omega) carry, ?_⟩
    rw [← lowValue_length, List.length_set, hlast, lowValue_set_succ (by omega)]
  · next hzero =>
    have hcarry : carry.toNat = 0 := congrArg BitVec.toNat (not_not.1 hzero)
    refine ⟨shifted, rfl, ?_⟩
    rw [← lowValue_length, hlast, lowValue_succ, habove out hout.ge, hcarry]

theorem isZero_iff : isZero limbs = true ↔ limbs = [] := List.isEmpty_iff

theorem computes_of_le (hne : (2 ^ 32) ^ (limbs.length - 1) ≤ value limbs) :
    Computes (some limbs) (value limbs) :=
  ⟨limbs, rfl, (normalised_iff limbs).2 (Or.inr hne), rfl⟩

/-- `shift_left` multiplies by a power of two. -/
theorem shiftLeft_computes (shift : U32) (hlimbs : Normalised limbs) :
    Computes (shiftLeft limbs shift) (value limbs * 2 ^ shift.toNat) := by
  rw [shiftLeft]
  split
  · next h =>
    have hvalue : value limbs * 2 ^ shift.toNat = value limbs := by
      rcases h with h | h
      · rw [isZero_iff.1 h]
        exact Nat.zero_mul _
      · rw [h]
        exact Nat.mul_one _
    rw [hvalue]
    exact ⟨limbs, rfl, hlimbs, rfl⟩
  · next h =>
    obtain ⟨hne, hshift⟩ := not_or.1 h
    have hne : limbs ≠ [] := fun hnil => hne (isZero_iff.2 hnil)
    have hpow : 2 ^ shift.toNat = 2 ^ (shift.toNat % 32) * (2 ^ 32) ^ (shift.toNat / 32) := by
      rw [← pow_mul, ← pow_add, Nat.mod_add_div]
    rw [hpow]
    generalize shift.toNat / 32 = limbShift
    have hbits := Nat.mod_lt shift.toNat (by decide : 32 > 0)
    generalize shift.toNat % 32 = bitShift at *
    dsimp only
    split
    · next hzero =>
      rw [hzero, Nat.pow_zero, Nat.one_mul]
      obtain ⟨shifted, hloop, hlength, hvalue⟩ := moveLimbs_eq limbs limbShift
      rw [if_neg fun h => h rfl, Nat.add_zero, hloop, ← hvalue]
      refine computes_of_le ?_
      have hpos := List.length_pos_of_ne_nil hne
      have hlow := ((normalised_iff limbs).1 hlimbs).resolve_left hne
      rw [hvalue, hlength, Nat.sub_add_comm hpos, Nat.pow_add]
      exact Nat.mul_le_mul_right _ hlow
    · next hnonzero =>
      obtain ⟨shifted, carry, out, hloop, result, hresult, hvalue⟩ :=
        shiftBits_eq limbs limbShift hbits
      rw [hloop]
      change Computes (if carry ≠ 0 then (store shifted out carry).bind (some ∘ normalize)
        else (some shifted).bind (some ∘ normalize)) _
      rw [← apply_ite (Option.bind · (some ∘ normalize)), hresult, ← hvalue]
      exact computes_normalize result

/-! ## Multiplication -/

/-- The inner loop of `operator*` after `j` steps: the product with the carry at its place. -/
def MulInv (product rhs : BigUInt) (limb : U32) (i j : ℕ) (s : BigUInt × U64) : Prop :=
  s.1.length = product.length ∧ s.2.toNat < 2 ^ 32 ∧
    lowValue s.1 product.length + s.2.toNat * (2 ^ 32) ^ (i + j) =
      value product + limb.toNat * lowValue rhs j * (2 ^ 32) ^ i

theorem mulStep_inv {product : BigUInt} {limb : U32} {j : ℕ} {s : BigUInt × U64}
    (hj : j < rhs.length) (hplace : i + j < product.length) (h : MulInv product rhs limb i j s) :
    ∃ s', mulStep limb rhs i j s = some s' ∧ MulInv product rhs limb i (j + 1) s' := by
  obtain ⟨acc, carry⟩ := s
  obtain ⟨hlength, hcarry, hvalue⟩ := h
  dsimp only at hlength hcarry hvalue
  have hstore : i + j < acc.length := hplace.trans_eq hlength.symm
  have hr := limbAt_lt rhs j
  have hlow := limbAt_lt acc (i + j)
  have hmul : limb.toNat * limbAt rhs j ≤ (2 ^ 32 - 1) * (2 ^ 32 - 1) :=
    Nat.mul_le_mul (Nat.le_sub_one_of_lt limb.isLt) (Nat.le_sub_one_of_lt hr)
  have hwide : (limb.setWidth 64 * (rhs.getD j 0).setWidth 64 +
      (acc.getD (i + j) 0).setWidth 64 + carry : U64).toNat =
        limb.toNat * limbAt rhs j + limbAt acc (i + j) + carry.toNat := by
    have hlimb : (limb.setWidth 64).toNat = limb.toNat := BitVec.toNat_setWidth_of_le (by decide)
    have hrhs : ((rhs.getD j 0).setWidth 64).toNat = limbAt rhs j := toNat_limbOrZero rhs j
    have hacc : ((acc.getD (i + j) 0).setWidth 64).toNat = limbAt acc (i + j) :=
      toNat_limbOrZero acc (i + j)
    rw [BitVec.toNat_add, BitVec.toNat_add, BitVec.toNat_mul, hlimb, hrhs, hacc]
    omega
  have hhalves := toNat_halves (limb.setWidth 64 * (rhs.getD j 0).setWidth 64 +
    (acc.getD (i + j) 0).setWidth 64 + carry) (i + j)
  refine ⟨_, by
    rw [mulStep, load_eq hj, load_eq hstore]
    exact congrArg (Option.bind · _) (store_eq hstore _), List.length_set.trans hlength, ?_, ?_⟩
  · dsimp only
    rw [BitVec.toNat_ushiftRight, hwide, Nat.shiftRight_eq_div_pow]
    omega
  · dsimp only
    rw [hwide] at hhalves
    generalize (limb.setWidth 64 * (rhs.getD j 0).setWidth 64 +
      (acc.getD (i + j) 0).setWidth 64 + carry : U64) = wide at *
    have hset := lowValue_set_of_lt hplace hstore (wide.setWidth 32)
    rw [← Nat.add_assoc, lowValue_succ]
    rw [Nat.pow_add] at hset hhalves hvalue
    linarith

/-- The carry comes to rest within the product when the sum fits. -/
theorem carryInto_eq {product : BigUInt} {carry : U64} {target : ℕ} (hcarry : carry.toNat < 2 ^ 32)
    (hvalue : value product + carry.toNat * (2 ^ 32) ^ k = target)
    (htarget : target < (2 ^ 32) ^ product.length) :
    ∃ result, carryInto product k carry = some result ∧ result.length = product.length ∧
      value result = target := by
  fun_induction carryInto product k carry with
  | case1 product k =>
    have hzero : (0 : U64).toNat = 0 := rfl
    rw [hzero, Nat.zero_mul, Nat.add_zero] at hvalue
    exact ⟨product, rfl, rfl, hvalue⟩
  | case2 product k carry hne hk wide ih =>
    have hlimb := limbAt_lt product k
    have hwide : wide.toNat = limbAt product k + carry.toNat := by
      rw [BitVec.toNat_add, BitVec.toNat_setWidth_of_le (by decide), ← limbAt_of_lt hk]
      omega
    have hhalves := toNat_halves wide k
    rw [hwide] at hhalves
    have hset := lowValue_set_of_lt hk hk (wide.setWidth 32)
    obtain ⟨result, hresult, hlength, htarget⟩ := ih
      (by
        rw [BitVec.toNat_ushiftRight, hwide, Nat.shiftRight_eq_div_pow]
        omega)
      (by
        rw [← lowValue_length, List.length_set, ← hvalue, ← lowValue_length]
        linarith)
      (htarget.trans_eq (congrArg _ List.length_set.symm))
    exact ⟨result, hresult, hlength.trans List.length_set, htarget⟩
  | case3 product k carry hne hk =>
    -- a carry beyond the vector is as large as everything that fits
    have hpos : 1 ≤ carry.toNat :=
      Nat.pos_of_ne_zero fun h => hne (BitVec.eq_of_toNat_eq h)
    have hle : (2 ^ 32) ^ product.length ≤ carry.toNat * (2 ^ 32) ^ k :=
      (Nat.pow_le_pow_right (by decide) (Nat.le_of_not_lt hk)).trans
        (Nat.le_mul_of_pos_left _ hpos)
    omega

/-- After `i` rows of `operator*`. -/
def RowInv (lhs rhs : BigUInt) (i : ℕ) (product : BigUInt) : Prop :=
  product.length = lhs.length + rhs.length ∧ value product = lowValue lhs i * value rhs

theorem mulRow_inv {product : BigUInt} (hi : i < lhs.length) (h : RowInv lhs rhs i product) :
    ∃ product', mulRow lhs rhs i product = some product' ∧ RowInv lhs rhs (i + 1) product' := by
  obtain ⟨hlength, hvalue⟩ := h
  have hinit : MulInv product rhs (lhs.getD i 0) i 0 (product, 0) := by
    refine ⟨rfl, Nat.two_pow_pos 32, ?_⟩
    rw [lowValue_zero, Nat.mul_zero, Nat.zero_mul]
    exact congrArg (_ + ·) (Nat.zero_mul _)
  obtain ⟨⟨acc, carry⟩, hloop, hacc, hcarry, hinv⟩ :=
    countedLoop_inv (MulInv product rhs (lhs.getD i 0) i) hinit fun _ _ hj =>
      mulStep_inv hj (by omega)
  dsimp only at hacc hcarry hinv
  have htarget : lowValue lhs (i + 1) * value rhs < (2 ^ 32) ^ acc.length := by
    calc lowValue lhs (i + 1) * value rhs
        < (2 ^ 32) ^ (i + 1) * (2 ^ 32) ^ rhs.length :=
          Nat.mul_lt_mul_of_lt_of_le (lowValue_lt lhs _) (value_lt rhs).le (by positivity)
      _ ≤ (2 ^ 32) ^ acc.length := by
        rw [← pow_add]
        exact Nat.pow_le_pow_right (by decide) (by omega)
  obtain ⟨result, hresult, hresultLength, hresultValue⟩ :=
    carryInto_eq (k := i + rhs.length) hcarry (by
      rw [← lowValue_of_le hacc.le, hinv, hvalue, lowValue_length, lowValue_succ, limbAt]
      ring) htarget
  refine ⟨result, ?_, by omega, hresultValue⟩
  rw [mulRow, load_eq hi]
  change (countedLoop rhs.length (product, 0) (mulStep (lhs.getD i 0) rhs i)).bind _ = _
  rw [hloop]
  exact hresult

/-- `operator*` multiplies. -/
theorem mul_computes (lhs rhs : BigUInt) : Computes (mul lhs rhs) (value lhs * value rhs) := by
  rw [mul]
  split
  · next h =>
    have hzero : value lhs * value rhs = 0 := by
      rcases h with h | h
      · rw [isZero_iff.1 h]
        exact Nat.zero_mul _
      · rw [isZero_iff.1 h]
        exact Nat.mul_zero _
    rw [hzero]
    exact ⟨[], rfl, normalised_nil, rfl⟩
  · have hinit : RowInv lhs rhs 0 (List.replicate (lhs.length + rhs.length) 0) :=
      ⟨List.length_replicate, by
        rw [← lowValue_length, lowValue_replicate, lowValue_zero, Nat.zero_mul]⟩
    obtain ⟨product, hloop, -, hvalue⟩ :=
      countedLoop_inv (RowInv lhs rhs) hinit fun _ _ => mulRow_inv
    rw [hloop, ← lowValue_length lhs, ← hvalue]
    exact computes_normalize product

/-! ## The most significant bit -/

theorem log2_limb {limb : U32} (h : limb ≠ 0) : (31 - limb.clz).toNat = limb.toNat.log2 := by
  have hlow := BitVec.two_pow_sub_clz_le_toNat_of_ne_zero (by decide) h
  have hhigh := BitVec.toNat_lt_two_pow_sub_clz (x := limb)
  have hclz : limb.clz.toNat < 32 := BitVec.lt_def.1 (BitVec.clz_lt_iff_ne_zero.2 h)
  have hindex : (31 - limb.clz).toNat = 32 - 1 - limb.clz.toNat :=
    BitVec.toNat_sub_of_le (BitVec.le_def.2 (Nat.le_of_lt_succ hclz))
  have hsucc : 32 - 1 - limb.clz.toNat + 1 = 32 - limb.clz.toNat := by omega
  have hne : limb.toNat ≠ 0 := fun hzero => h (BitVec.eq_of_toNat_eq hzero)
  rw [hindex]
  exact ((Nat.log2_eq_iff hne).2 ⟨hlow, hsucc ▸ hhigh⟩).symm

theorem log2_value_append (low : BigUInt) {top : U32} (h : top ≠ 0) :
    (value (low ++ [top])).log2 = low.length * 32 + top.toNat.log2 := by
  have hne : top.toNat ≠ 0 := fun hzero => h (BitVec.eq_of_toNat_eq hzero)
  obtain ⟨hle, hlt⟩ := (Nat.log2_eq_iff hne).1 rfl
  have hlow := value_lt low
  have hweight : 2 ^ (low.length * 32) = (2 ^ 32) ^ low.length := by
    rw [Nat.mul_comm, pow_mul]
  have hpos : 0 < (2 ^ 32) ^ low.length := by positivity
  have hle := Nat.mul_le_mul_right ((2 ^ 32) ^ low.length) hle
  have hlt := Nat.mul_le_mul_right ((2 ^ 32) ^ low.length) (Nat.succ_le_of_lt hlt)
  have htop := Nat.mul_pos (Nat.pos_of_ne_zero hne) hpos
  rw [value_append]
  refine (Nat.log2_eq_iff (by omega)).2 ⟨?_, ?_⟩
  · rw [pow_add, hweight, Nat.mul_comm ((2 ^ 32) ^ low.length)]
    omega
  · rw [Nat.add_assoc, pow_add, hweight, Nat.mul_comm ((2 ^ 32) ^ low.length)]
    rw [Nat.succ_mul] at hlt
    omega

/-- `msb_index` as computed, before it is cut to an `unsigned`. -/
theorem msbIndex_eq (hlimbs : Normalised limbs) (hne : value limbs ≠ 0) :
    msbIndex limbs = some (BitVec.ofNat 32 (value limbs).log2) := by
  rcases List.eq_nil_or_concat' limbs with rfl | ⟨low, top, rfl⟩
  · exact absurd rfl hne
  · have htop : top ≠ 0 := fun h => hlimbs (List.getLast?_concat.trans (congrArg some h))
    rw [msbIndex, List.getLast?_concat, log2_value_append low htop, ← log2_limb htop,
      List.length_append, List.length_singleton, Nat.add_sub_cancel]
    rfl

/-! ## Every value built -/

theorem Built.normalised {a : BigUInt} (h : Built a) : Normalised a := by
  have result : ∀ {r : Option BigUInt} {c : BigUInt} {n : ℕ}, Computes r n → r = some c →
      Normalised c := fun ⟨limbs, hr, hlimbs, _⟩ hc => by
    rw [← Option.some.inj (hr.symm.trans hc)]
    exact hlimbs
  induction h with
  | zero => exact normalised_nil
  | ofU64 v => exact normalised_ofU64 v
  | shiftLeft shift _ hc ih => exact result (shiftLeft_computes shift ih) hc
  | add _ _ hc _ _ => exact result (add_computes _ _) hc
  | sub _ _ hc _ _ =>
    obtain ⟨diff, _, _, hsub⟩ := sub_eq _ _
    rw [← Option.some.inj (hsub.symm.trans hc)]
    exact normalised_normalize diff
  | mul _ _ hc _ _ => exact result (mul_computes _ _) hc

/-- The operations on what the class has built are those of the natural numbers. They index no
limb that is not there. The index of the top bit is exact as far as an `unsigned` goes. -/
theorem built_exact {a b : BigUInt} (ha : Built a) (hb : Built b) (shift : U32) :
    (Normalised a ∧ (value a = 0 ↔ a = [])) ∧
      Computes (add a b) (value a + value b) ∧
      (∃ c, sub a b = some c ∧ Normalised c) ∧
      (value b ≤ value a → Computes (sub a b) (value a - value b)) ∧
      Computes (mul a b) (value a * value b) ∧
      Computes (shiftLeft a shift) (value a * 2 ^ shift.toNat) ∧
      compare a b = some (orderOf (value a) (value b)) ∧
      (value a ≠ 0 → value a < 2 ^ 2 ^ 32 →
        ∃ index, msbIndex a = some index ∧ index.toNat = (value a).log2) := by
  have hna := ha.normalised
  have hnb := hb.normalised
  refine ⟨⟨hna, eq_nil_of_value_eq_zero hna, fun h => by rw [h]; rfl⟩, add_computes a b, ?_,
    sub_computes hnb, mul_computes a b, shiftLeft_computes shift hna, compare_eq hna hnb, ?_⟩
  · obtain ⟨diff, -, -, hsub⟩ := sub_eq a b
    exact ⟨_, hsub, normalised_normalize diff⟩
  · intro hne hlt
    refine ⟨_, msbIndex_eq hna hne, ?_⟩
    have hindex : (value a).log2 < 2 ^ 32 := (Nat.log2_lt hne).2 hlt
    rw [BitVec.toNat_ofNat, Nat.mod_eq_of_lt hindex]

theorem built_exact_carry :
    let a := ofU64 0xFFFFFFFFFFFFFFFF
    let b := ofU64 1
    Computes (add a b) (2 ^ 64) ∧ Computes (sub a b) (2 ^ 64 - 2) ∧ compare a b = some 1 := by
  obtain ⟨-, hadd, -, hsub, -, -, hcompare, -⟩ :=
    built_exact (.ofU64 0xFFFFFFFFFFFFFFFF) (.ofU64 1) 1
  rw [value_ofU64, value_ofU64] at *
  exact ⟨hadd, hsub (by decide), hcompare⟩

/-- One shifted to where the index of its bit needs 33 bits. -/
theorem msbIndex_not_exact : ¬ ∀ a, Built a → value a ≠ 0 →
    ∃ index, msbIndex a = some index ∧ index.toNat = (value a).log2 := by
  intro h
  have hone : value (ofU64 1) = 1 := value_ofU64 1
  obtain ⟨high, hhigh, hnormal, hvalue⟩ :=
    shiftLeft_computes 0xFFFFFFFF (normalised_ofU64 1)
  obtain ⟨top, htop, -, htopValue⟩ := shiftLeft_computes 1 hnormal
  have hbuilt : Built top := .shiftLeft 1 (.shiftLeft 0xFFFFFFFF (.ofU64 1) hhigh) htop
  -- for any exponents, as a power of the known ones is too large to compute
  have hpowers : ∀ {u v w m n : ℕ}, u = 1 → v = u * 2 ^ m → w = v * 2 ^ n → w = 2 ^ (m + n) := by
    rintro u v w m n rfl rfl rfl
    rw [one_mul, pow_add]
  have hpow := hpowers hone hvalue htopValue
  have hpos : ∀ e : ℕ, 2 ^ e ≠ 0 := fun e => (Nat.two_pow_pos e).ne'
  have hlog : ∀ e : ℕ, (2 ^ e).log2 = e := fun e => Nat.log2_two_pow
  obtain ⟨index, -, hindex⟩ := h top hbuilt (by rw [hpow]; exact hpos _)
  rw [hpow, hlog] at hindex
  have hlt := index.isLt
  have hhigh : (0xFFFFFFFF : U32).toNat = 2 ^ 32 - 1 := rfl
  have hone : (1 : U32).toNat = 1 := rfl
  omega

end Aarchvm.BigUInt

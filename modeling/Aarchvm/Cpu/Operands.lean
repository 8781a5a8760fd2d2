import Aarchvm.Cpu.Memory
import Aarchvm.Cpu.SpBanks
import Aarchvm.Cpu.Tlbi

/-!
# Operands

How instructions read and write the general registers and the stack pointer, and the bit
helpers of `cpu.cpp` that their bodies share.
-/
namespace Aarchvm

/-! ## Bits -/

def ones (bits : Nat) : U64 :=
  if bits = 0 then 0 else if 64 ≤ bits then ~~~0 else ((1 : U64) <<< bits) - 1

def ror (value : U64) (shift width : Nat) : U64 :=
  if width = 0 then 0
  else
    let shift := shift % width
    let mask := ones width
    let value := value &&& mask
    if shift = 0 then value else ((value >>> shift) ||| (value <<< (width - shift))) &&& mask

/-- `replicate`: the positions are the multiples of `esize` below `datasize`. -/
def replicate (value : U64) (esize datasize : Nat) : U64 :=
  let elem := value &&& ones esize
  (List.range ((datasize + esize - 1) / esize)).foldl
    (fun out i => out ||| (elem <<< (i * esize))) 0

/-- `sign_extend`. -/
def signExtend (value : U64) (bits : Nat) : U64 :=
  if bits = 0 then 0
  else if 64 ≤ bits then value
  else
    let sign := (1 : U64) <<< (bits - 1)
    ((value &&& ones bits) ^^^ sign) - sign

theorem ones_getLsbD (bits i : Nat) :
    (ones bits).getLsbD i = (decide (i < bits) && decide (i < 64)) := by
  rw [ones]
  split_ifs with hzero hbig
  · subst hzero
    simp
  · have hnot : (~~~(0 : U64)).getLsbD i = decide (i < 64) := by
      have hzero : (0 : U64).getLsbD i = false := BitVec.getLsbD_zero
      rw [BitVec.getLsbD_not, hzero, Bool.not_false, Bool.and_true]
    rw [hnot]
    by_cases hi : i < 64
    · simp [hi, Nat.lt_of_lt_of_le hi hbig]
    · simp [hi]
  · have hpow : (1 : U64) <<< bits = BitVec.twoPow 64 bits := rfl
    rw [hpow]
    by_cases hi : i < 64
    · have hlt : bits < 64 := Nat.lt_of_not_le hbig
      have hval : (BitVec.twoPow 64 bits - 1).toNat = 2 ^ bits - 1 := by
        have hpos := Nat.two_pow_pos bits
        have hle : 2 ^ bits < 2 ^ 64 := Nat.pow_lt_pow_right (by decide) hlt
        rw [BitVec.toNat_sub, BitVec.toNat_twoPow_of_lt hlt]
        have hone : (1 : U64).toNat = 1 := rfl
        rw [hone]
        omega
      rw [← BitVec.testBit_toNat, hval, Nat.testBit_two_pow_sub_one]
      simp [hi]
    · rw [BitVec.getLsbD_of_ge _ _ (Nat.le_of_not_lt hi)]
      simp [hi]

theorem and_ones_eq (value : U64) (k : Nat) :
    value &&& ones k = (value.setWidth k).setWidth 64 := by
  apply BitVec.eq_of_getLsbD_eq
  intro i hi
  rw [BitVec.getLsbD_and, ones_getLsbD, BitVec.getLsbD_setWidth, BitVec.getLsbD_setWidth,
    decide_eq_true hi, Bool.and_true, Bool.true_and, Bool.and_comm]

/-- A rotation of the low `width` bits. -/
theorem ror_getLsbD (value : U64) {width : Nat} (hpos : 0 < width) (hle : width ≤ 64)
    (shift i : Nat) :
    (ror value shift width).getLsbD i =
      (decide (i < width) && value.getLsbD ((shift + i) % width)) := by
  have hmod : (shift + i) % width = (shift % width + i) % width := by rw [Nat.mod_add_mod]
  have hlt := Nat.mod_lt shift hpos
  rw [ror, if_neg (by omega), hmod]
  dsimp only
  generalize shift % width = k at hlt
  by_cases hi : i < width
  · have hbig : decide (i < 64) = true := decide_eq_true (by omega)
    by_cases hk : k = 0
    · subst hk
      rw [if_pos rfl, Nat.zero_add, Nat.mod_eq_of_lt hi]
      simp [ones_getLsbD, hi, hbig]
    · rw [if_neg hk, BitVec.getLsbD_and, BitVec.getLsbD_or, BitVec.getLsbD_ushiftRight,
        BitVec.getLsbD_shiftLeft, BitVec.getLsbD_and, BitVec.getLsbD_and, ones_getLsbD,
        ones_getLsbD, ones_getLsbD, decide_eq_true hi, hbig]
      by_cases hlow : k + i < width
      · rw [Nat.mod_eq_of_lt hlow, decide_eq_true hlow,
          decide_eq_true (show i < width - k by omega), decide_eq_true (show k + i < 64 by omega)]
        simp
      · have hwrap : (k + i) % width = i - (width - k) := by
          rw [Nat.mod_eq_sub_mod (by omega), Nat.mod_eq_of_lt (by omega)]
          omega
        rw [hwrap, decide_eq_false hlow, decide_eq_false (show ¬ i < width - k by omega),
          decide_eq_true (show i - (width - k) < width by omega),
          decide_eq_true (show i - (width - k) < 64 by omega)]
        simp
  · rw [decide_eq_false hi, Bool.false_and]
    split
    · simp [ones_getLsbD, hi]
    · simp [ones_getLsbD, hi]

/-- One copy of the element more. -/
theorem replicate_fold_getLsbD (elem : U64) (esize n i : Nat)
    (helem : ∀ j, esize ≤ j → elem.getLsbD j = false) (hpos : 0 < esize) :
    ((List.range n).foldl (fun out k => out ||| (elem <<< (k * esize))) 0).getLsbD i =
      (decide (i < 64) && decide (i < n * esize) && elem.getLsbD (i % esize)) := by
  induction n with
  | zero =>
    have hzero : (0 : U64).getLsbD i = false := BitVec.getLsbD_zero
    rw [List.range_zero, List.foldl_nil, hzero]
    simp
  | succ n ih =>
    rw [List.range_succ, List.foldl_append, List.foldl_cons, List.foldl_nil, BitVec.getLsbD_or, ih,
      BitVec.getLsbD_shiftLeft, Nat.succ_mul]
    by_cases hlow : i < n * esize
    · have hlow' : i < n * esize + esize := by omega
      simp [hlow, hlow']
    · by_cases hhigh : i < n * esize + esize
      · have hmod : i % esize = i - n * esize := by
          have hsub : i = (i - n * esize) + n * esize := by omega
          conv_lhs => rw [hsub, Nat.add_mul_mod_self_right]
          exact Nat.mod_eq_of_lt (by omega)
        simp [hlow, hhigh, hmod]
      · have hbig := helem (i - n * esize) (by omega)
        simp [hlow, hhigh, hbig]

theorem replicate_getLsbD (value : U64) {esize datasize : Nat} (hpos : 0 < esize)
    (hdvd : esize ∣ datasize) (hle : datasize ≤ 64) (hesize : esize ≤ 64) (i : Nat) :
    (replicate value esize datasize).getLsbD i =
      (decide (i < datasize) && value.getLsbD (i % esize)) := by
  obtain ⟨k, rfl⟩ := hdvd
  have hcount : (esize * k + esize - 1) / esize = k := by
    rw [Nat.add_sub_assoc hpos, Nat.mul_add_div hpos, Nat.div_eq_of_lt (by omega), Nat.add_zero]
  have hmod := Nat.mod_lt i hpos
  rw [replicate, hcount, replicate_fold_getLsbD _ _ _ _ _ hpos, Nat.mul_comm k]
  · rw [BitVec.getLsbD_and, ones_getLsbD, decide_eq_true hmod,
      decide_eq_true (show i % esize < 64 by omega)]
    by_cases hi : i < esize * k
    · simp [hi, show i < 64 by omega]
    · simp [hi]
  · intro j hj
    rw [BitVec.getLsbD_and, ones_getLsbD, decide_eq_false (by omega)]
    simp

theorem getLsbD_rotateRight_mod {w : Nat} (x : BitVec w) (hpos : 0 < w) (r i : Nat) :
    (x.rotateRight r).getLsbD i = (decide (i < w) && x.getLsbD ((r + i) % w)) := by
  have hlt := Nat.mod_lt r hpos
  have hmod : (r + i) % w = (r % w + i) % w := by rw [Nat.mod_add_mod]
  rw [BitVec.getLsbD_rotateRight, hmod]
  generalize r % w = k at hlt
  by_cases hi : i < w
  · rw [decide_eq_true hi]
    by_cases hlow : i < w - k
    · rw [decide_eq_true hlow, Nat.mod_eq_of_lt (by omega)]
      rfl
    · rw [decide_eq_false hlow, Nat.mod_eq_sub_mod (by omega), Nat.mod_eq_of_lt (by omega)]
      have hsub : i - (w - k) = k + i - w := by omega
      rw [hsub]
      rfl
  · rw [decide_eq_false hi, decide_eq_false (by omega)]
    rfl

/-! ## The helpers on words of a smaller width -/

theorem ones_eq {k w : Nat} (hk : k ≤ w) :
    ones k = ((BitVec.allOnes k).setWidth w).setWidth 64 := by
  apply BitVec.eq_of_getLsbD_eq
  intro i hi
  rw [ones_getLsbD, BitVec.getLsbD_setWidth, BitVec.getLsbD_setWidth, BitVec.getLsbD_allOnes,
    decide_eq_true hi, Bool.and_true, Bool.true_and]
  by_cases h : i < k
  · rw [decide_eq_true h, decide_eq_true (by omega)]
    rfl
  · rw [decide_eq_false h, Bool.and_false]

theorem ror_eq {w : Nat} (x : BitVec w) (hpos : 0 < w) (hw : w ≤ 64) (shift : Nat) :
    ror (x.setWidth 64) shift w = (x.rotateRight shift).setWidth 64 := by
  apply BitVec.eq_of_getLsbD_eq
  intro i hi
  have hmod := Nat.mod_lt (shift + i) hpos
  rw [ror_getLsbD _ hpos hw, BitVec.getLsbD_setWidth, BitVec.getLsbD_setWidth,
    getLsbD_rotateRight_mod x hpos, decide_eq_true hi, decide_eq_true (show _ < 64 by omega)]
  rfl

theorem replicate_eq {e d : Nat} (x : BitVec e) (hpos : 0 < e) (hdvd : e ∣ d) (hd : d ≤ 64)
    (he : e ≤ 64) :
    replicate (x.setWidth 64) e d = ((x.replicate (d / e)).setWidth d).setWidth 64 := by
  apply BitVec.eq_of_getLsbD_eq
  intro i hi
  have hmod := Nat.mod_lt i hpos
  rw [replicate_getLsbD _ hpos hdvd hd he, BitVec.getLsbD_setWidth, BitVec.getLsbD_setWidth,
    BitVec.getLsbD_setWidth, BitVec.getLsbD_replicate, Nat.mul_div_cancel' hdvd,
    decide_eq_true hi, decide_eq_true (show i % e < 64 by omega)]
  cases decide (i < d) <;> rfl

/-! ## Registers -/

namespace Cpu

variable (c : Cpu)

def reg32 (i : Nat) : U32 := (c.reg i).setWidth 32

def setReg32 (i : Nat) (value : U32) : Cpu := c.setReg i (value.setWidth 64)

/-- `set_sp_or_reg`. -/
def setSpOrReg (i : Nat) (value : U64) (is32bit : Bool) : Cpu :=
  if i = 31 then c.setSp (if is32bit then (value.setWidth 32).setWidth 64 else value)
  else if is32bit then c.setReg32 i (value.setWidth 32)
  else c.setReg i value

end Cpu
end Aarchvm

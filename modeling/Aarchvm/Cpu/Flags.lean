import Aarchvm.A64.Integer
import Aarchvm.Cpu.Operands
import Mathlib.Tactic.IntervalCases

/-!
# Condition flags

`condition_holds` and the functions that set the flags. The flags after a sum or a
difference are those of `AddWithCarry`, in both operand widths.
-/
namespace Aarchvm

open Lib

namespace Cpu

variable (c : Cpu)

/-- `condition_holds`. -/
def conditionHolds (cond : U32) : Bool :=
  let p := c.sysregs.pstate
  match (cond &&& 0xF).toNat with
  | 0x0 => p.z
  | 0x1 => !p.z
  | 0x2 => p.c
  | 0x3 => !p.c
  | 0x4 => p.n
  | 0x5 => !p.n
  | 0x6 => p.v
  | 0x7 => !p.v
  | 0x8 => p.c && !p.z
  | 0x9 => !p.c || p.z
  | 0xA => p.n == p.v
  | 0xB => p.n != p.v
  | 0xC => !p.z && p.n == p.v
  | 0xD => p.z || p.n != p.v
  | 0xE => true
  | _ => false

/-- `set_pstate` of the current PSTATE with other condition flags. -/
def setFlags (f : Flags) : Cpu :=
  { c with sysregs.pstate := { c.sysregs.pstate with n := f.n, z := f.z, c := f.c, v := f.v } }

def flags : Flags :=
  ⟨c.sysregs.pstate.n, c.sysregs.pstate.z, c.sysregs.pstate.c, c.sysregs.pstate.v⟩

/-- `set_flags_add`. -/
def setFlagsAdd (lhs rhs result : U64) (is32bit : Bool) : Cpu :=
  let signBit := if is32bit then 31 else 63
  let mask : U64 := if is32bit then 0xFFFFFFFF else ~~~0
  let l := lhs &&& mask
  let r := rhs &&& mask
  let res := result &&& mask
  c.setFlags {
    n := res.getLsbD signBit
    z := res == 0
    c := if is32bit then res.setWidth 32 < l.setWidth 32 else res < l
    v := l.getLsbD signBit == r.getLsbD signBit && l.getLsbD signBit != res.getLsbD signBit }

/-- `set_flags_sub`. -/
def setFlagsSub (lhs rhs result : U64) (is32bit : Bool) : Cpu :=
  let signBit := if is32bit then 31 else 63
  let mask : U64 := if is32bit then 0xFFFFFFFF else ~~~0
  let l := lhs &&& mask
  let r := rhs &&& mask
  let res := result &&& mask
  c.setFlags {
    n := res.getLsbD signBit
    z := res == 0
    c := if is32bit then r.setWidth 32 ≤ l.setWidth 32 else r ≤ l
    v := l.getLsbD signBit != r.getLsbD signBit && l.getLsbD signBit != res.getLsbD signBit }

/-- `set_flags_logic`. -/
def setFlagsLogic (result : U64) (is32bit : Bool) : Cpu :=
  let masked := if is32bit then result &&& 0xFFFFFFFF else result
  c.setFlags {
    n := if is32bit then masked.getLsbD 31 else masked.getLsbD 63
    z := masked == 0
    c := false
    v := false }

end Cpu

/-! ## The low word -/

theorem and_low32 (x : U64) : x &&& 0xFFFFFFFF = (x.setWidth 32).setWidth 64 := by
  apply BitVec.eq_of_toNat_eq
  rw [BitVec.toNat_and, BitVec.toNat_setWidth, BitVec.toNat_setWidth]
  have h := Nat.and_two_pow_sub_one_eq_mod x.toNat 32
  rw [show (0xFFFFFFFF : U64).toNat = 2 ^ 32 - 1 from rfl, h]
  exact (Nat.mod_eq_of_lt (by omega)).symm

theorem setWidth_low32 (x : U32) : (x.setWidth 64).setWidth 32 = x := by
  rw [BitVec.setWidth_setWidth_of_le x (by decide), BitVec.setWidth_eq]

theorem getLsbD_low32 (x : U32) : (x.setWidth 64).getLsbD 31 = x.msb := by
  rw [BitVec.getLsbD_setWidth, BitVec.msb_eq_getLsbD_last]
  rfl

theorem low32_beq_zero (x : U32) : (x.setWidth 64 == 0) = (x == 0) := by
  rw [Bool.eq_iff_iff, beq_iff_eq, beq_iff_eq]
  constructor
  · intro h
    have hback := congrArg (BitVec.setWidth 32) h
    rwa [setWidth_low32] at hback
  · rintro rfl
    rfl

theorem and_ones64 (x : U64) : x &&& ~~~0 = x := BitVec.and_allOnes

theorem getLsbD_63 (x : U64) : x.getLsbD 63 = x.msb := (BitVec.msb_eq_getLsbD_last x).symm

namespace Cpu

variable (c : Cpu)

/-! ## The flags of sums and differences -/

theorem setFlagsAdd_wide (x y : U64) :
    c.setFlagsAdd x y (x + y) false = c.setFlags (addOrSub false x y).2 := by
  rw [setFlagsAdd, add_flags (by decide)]
  simp only [Bool.false_eq_true, if_false, and_ones64, getLsbD_63]

theorem setFlagsSub_wide (x y : U64) :
    c.setFlagsSub x y (x - y) false = c.setFlags (addOrSub true x y).2 := by
  rw [setFlagsSub, sub_flags (by decide)]
  simp only [Bool.false_eq_true, if_false, and_ones64, getLsbD_63]

/-- Only the low words matter. -/
theorem setFlagsAdd_narrow (x y result : U64)
    (h : result.setWidth 32 = x.setWidth 32 + y.setWidth 32) :
    c.setFlagsAdd x y result true =
      c.setFlags (addOrSub false (x.setWidth 32) (y.setWidth 32)).2 := by
  rw [setFlagsAdd, add_flags (by decide), ← h]
  simp only [if_true, and_low32, getLsbD_low32, low32_beq_zero, setWidth_low32]

theorem setFlagsSub_narrow (x y result : U64)
    (h : result.setWidth 32 = x.setWidth 32 - y.setWidth 32) :
    c.setFlagsSub x y result true =
      c.setFlags (addOrSub true (x.setWidth 32) (y.setWidth 32)).2 := by
  rw [setFlagsSub, sub_flags (by decide), ← h]
  simp only [if_true, and_low32, getLsbD_low32, low32_beq_zero, setWidth_low32]

theorem setFlagsLogic_wide (x : U64) :
    c.setFlagsLogic x false = c.setFlags (A64.logicFlags x) := by
  rw [setFlagsLogic, A64.logicFlags]
  simp only [Bool.false_eq_true, if_false, getLsbD_63]

theorem setFlagsLogic_narrow (x : U64) :
    c.setFlagsLogic x true = c.setFlags (A64.logicFlags (x.setWidth 32)) := by
  rw [setFlagsLogic, A64.logicFlags]
  simp only [if_true, and_low32, getLsbD_low32, low32_beq_zero]

/-! ## Conditions -/

/-- All codes but NV mean what the architecture says. -/
theorem conditionHolds_eq (cond : U32) :
    c.conditionHolds cond =
      (A64.conditionHolds c.flags (cond &&& 0xF).toNat && decide ((cond &&& 0xF).toNat ≠ 15)) := by
  have hlt : (cond &&& 0xF).toNat < 16 := by
    rw [BitVec.toNat_and]
    exact Nat.lt_of_le_of_lt Nat.and_le_right (by decide)
  rw [conditionHolds, A64.conditionHolds]
  generalize (cond &&& 0xF).toNat = k at hlt
  simp only [flags]
  interval_cases k <;>
  cases c.sysregs.pstate.n <;> cases c.sysregs.pstate.z <;> cases c.sysregs.pstate.c <;>
  cases c.sysregs.pstate.v <;> rfl

end Cpu
end Aarchvm

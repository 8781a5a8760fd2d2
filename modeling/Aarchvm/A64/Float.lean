import Aarchvm.Lib.Dyadic
import Aarchvm.Lib.IntegerRounding
import Aarchvm.Lib.Rounding
import Mathlib.Tactic.NormNum.Pow

/-!
# Floating-point numbers of A64

The interchange formats, and what a conversion to one returns and raises, with flushing of
denormalized numbers off.
-/
namespace Aarchvm.A64

open Lib

/-- The widths of the exponent and the fraction. -/
structure Interchange where
  expBits : ℕ
  fracBits : ℕ

def binary16 : Interchange := ⟨5, 10⟩
def binary32 : Interchange := ⟨8, 23⟩
def binary64 : Interchange := ⟨11, 52⟩

namespace Interchange

variable (f : Interchange)

def bias : ℤ := 2 ^ (f.expBits - 1) - 1

/-- Without the limit on the exponent. -/
def format : FloatFormat := ⟨f.fracBits, 1 - f.bias⟩

/-- The code of infinity; the numbers of the format have the smaller codes. -/
def infinity : ℕ := (2 ^ f.expBits - 1) * 2 ^ f.fracBits

/-- A sign and a code. -/
def pattern (sign : Bool) (code : ℕ) : ℕ :=
  (if sign then 2 ^ (f.expBits + f.fracBits) else 0) + code

def sign (bits : ℕ) : Bool := bits.testBit (f.expBits + f.fracBits)

def code (bits : ℕ) : ℕ := bits % 2 ^ (f.expBits + f.fracBits)

def IsFinite (bits : ℕ) : Prop := f.code bits < f.infinity

instance : DecidablePred f.IsFinite := fun _ => inferInstanceAs (Decidable (_ < _))

/-- The absolute value of a finite number. -/
def magnitude (bits : ℕ) : ℚ := f.format.value (f.code bits)

/-- A finite number. -/
def number (bits : ℕ) : ℚ := signed (f.sign bits) (f.magnitude bits)

/-- Below the least normal number and not zero. -/
def Tiny (x : ℚ) : Prop := x ≠ 0 ∧ |x| < 2 ^ f.format.emin

variable {f} {code : ℕ}

theorem code_pattern (sign : Bool) (h : code < 2 ^ (f.expBits + f.fracBits)) :
    f.code (f.pattern sign code) = code := by
  rw [Interchange.code, pattern]
  cases sign
  · exact (congrArg (· % _) (Nat.zero_add code)).trans (Nat.mod_eq_of_lt h)
  · exact (Nat.add_mod_left _ _).trans (Nat.mod_eq_of_lt h)

theorem pattern_lt (sign : Bool) (h : code < 2 ^ (f.expBits + f.fracBits)) :
    f.pattern sign code < 2 ^ (f.expBits + f.fracBits + 1) := by
  have hdouble : 2 ^ (f.expBits + f.fracBits + 1) = 2 * 2 ^ (f.expBits + f.fracBits) :=
    Nat.pow_succ'
  rw [pattern]
  split <;> omega

theorem sign_pattern (sign : Bool) (h : code < 2 ^ (f.expBits + f.fracBits)) :
    f.sign (f.pattern sign code) = sign := by
  rw [Interchange.sign, pattern]
  cases sign
  · exact (congrArg (Nat.testBit · _) (Nat.zero_add code)).trans (Nat.testBit_lt_two_pow h)
  · exact (Nat.testBit_two_pow_add_eq code _).trans
      (congrArg Bool.not (Nat.testBit_lt_two_pow h))

end Interchange

/-- Where `FPCR.RMode` sends the magnitude of a number. -/
def direction (rmode : ℕ) (sign : Bool) : Rounding :=
  match rmode with
  | 0 => .nearest
  | 1 => if sign then .down else .up
  | 2 => if sign then .up else .down
  | _ => .down

/-- The cumulative exception bits of `FPSR`. -/
structure Exceptions where
  invalid : Prop
  overflow : Prop
  underflow : Prop
  inexact : Prop

/-- The bits `IOC`, `OFC`, `UFC` and `IXC` are set as said, and no other. -/
def Exceptions.Raised (e : Exceptions) (fpsr : BitVec 64) : Prop :=
  ∀ i, fpsr.getLsbD i = true ↔
    i = 0 ∧ e.invalid ∨ i = 2 ∧ e.overflow ∨ i = 3 ∧ e.underflow ∨ i = 4 ∧ e.inexact

/-- `FPRound` to a format with infinities. A number that is tiny before rounding and inexact
underflows; one that rounds to a code from infinity on overflows. -/
def FPRound (f : Interchange) (rmode : ℕ) (sign : Bool) (x : ℚ) (result : ℕ)
    (fpsr : BitVec 64) : Prop :=
  ∃ n, f.format.IsRounded (direction rmode sign) x n ∧
    result = f.pattern sign
      (if n < f.infinity then n
        else if direction rmode sign = .down then f.infinity - 1 else f.infinity) ∧
    Exceptions.Raised
      { invalid := False
        overflow := f.infinity ≤ n
        underflow := x < 2 ^ f.format.emin ∧ ¬ f.format.Representable f.infinity x
        inexact := ¬ f.format.Representable f.infinity x } fpsr

/-- `FPRound` to the alternative half-precision format, where every code is a number. -/
def FPRoundAlt (rmode : ℕ) (sign : Bool) (x : ℚ) (result : ℕ) (fpsr : BitVec 64) : Prop :=
  ∃ n, binary16.format.IsRounded (direction rmode sign) x n ∧
    result = binary16.pattern sign (if n < 2 ^ 15 then n else 2 ^ 15 - 1) ∧
    Exceptions.Raised
      { invalid := 2 ^ 15 ≤ n
        overflow := False
        underflow := x < 2 ^ binary16.format.emin ∧ ¬ binary16.format.Representable (2 ^ 15) x
        inexact := n < 2 ^ 15 ∧ ¬ binary16.format.Representable (2 ^ 15) x } fpsr

/-- `FixedToFP` of an integer: it is never tiny and does not overflow. -/
def FixedToFP (f : Interchange) (rmode : ℕ) (value : ℤ) (result : ℕ) (fpsr : BitVec 64) : Prop :=
  ∃ n, n < f.infinity ∧
    f.format.IsRounded (direction rmode (value < 0)) value.natAbs n ∧
    result = f.pattern (value < 0) n ∧
    Exceptions.Raised
      { invalid := False
        overflow := False
        underflow := False
        inexact := ¬ f.format.Representable f.infinity value.natAbs } fpsr

/-- `FPToFixed` of a number to the integers from `lo` to `hi`: what does not fit is invalid, and
only what fits is inexact. -/
def FPToFixed (lo hi : ℤ) (rounding : IntegerRounding) (x : ℚ) (result : ℤ)
    (fpsr : BitVec 64) : Prop :=
  ∃ n, rounding.IsRounded x n ∧ result = max lo (min hi n) ∧
    Exceptions.Raised
      { invalid := n < lo ∨ hi < n
        overflow := False
        underflow := False
        inexact := (lo ≤ n ∧ n ≤ hi) ∧ ∀ m : ℤ, (m : ℚ) ≠ x } fpsr

end Aarchvm.A64

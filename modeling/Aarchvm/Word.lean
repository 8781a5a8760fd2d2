import Mathlib.Algebra.Group.Nat.Defs

/-!
# Machine words

Fixed-width unsigned integers are `BitVec`, so sums and shifts wrap as in the
source. `std::size_t` is 64 bits wide.
-/
namespace Aarchvm

abbrev U8 := BitVec 8
abbrev U16 := BitVec 16
abbrev U32 := BitVec 32
abbrev U64 := BitVec 64

/-- `(1ull << n) - 1`. -/
def lowMask (n : Nat) : U64 := ((1 : U64) <<< n) - 1

/-- Byte `k` of a word in memory order. -/
def byteOf (value : U64) (k : Nat) : U8 := value.extractLsb' (8 * k) 8

/-- `memcpy(&value, data + off, n)` into a zeroed 64-bit word. -/
def loadLe (data : Nat → U8) (off : Nat) : Nat → U64
  | 0 => 0
  | n + 1 => (data off).setWidth 64 ||| (loadLe data (off + 1) n <<< 8)

/-- `memcpy(data + off, src, n)`. -/
def storeBytes (data : Nat → U8) (off n : Nat) (src : Nat → U8) : Nat → U8 := fun i =>
  if off ≤ i ∧ i < off + n then src (i - off) else data i

end Aarchvm

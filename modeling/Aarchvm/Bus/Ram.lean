import Aarchvm.Lib.WordInterval
import Aarchvm.Word

/-!
# RAM devices

`Ram` from `ram.cpp`. A byte vector is its length and a function giving its
bytes; the function's values past the length stand for memory outside the
vector, which only a wrongly accepted access can reach.
-/
namespace Aarchvm

open Lib.WordInterval

structure Ram where
  /-- `data_.size()` -/
  size : U64
  data : Nat → U8

namespace Ram

/-- `Ram::Ram(size_bytes)`: zero-filled. -/
def zeroed (sizeBytes : U64) : Ram := ⟨sizeBytes, fun _ => 0⟩

/-- The access widths `read_fast` and `write_fast` take. -/
def fastSize (size : U64) : Bool := size == 1 || size == 2 || size == 4 || size == 8

/-- `Ram::read_fast`; `none` is the `false` return. -/
def readFast (r : Ram) (offset size : U64) : Option U64 :=
  if !fastSize size || r.size < offset + size then none
  else some (loadLe r.data offset.toNat size.toNat)

/-- `Ram::write_fast`; `none` is the `false` return. -/
def writeFast (r : Ram) (offset value size : U64) : Option Ram :=
  if !fastSize size || r.size < offset + size then none
  else some { r with data := storeBytes r.data offset.toNat size.toNat (byteOf value) }

/-- `Ram::read`: a rejected access reads zero. -/
def read (r : Ram) (offset size : U64) : U64 := (r.readFast offset size).getD 0

/-- `Ram::write`: a rejected access is dropped. -/
def write (r : Ram) (offset value size : U64) : Ram := (r.writeFast offset value size).getD r

/-- The bounds check `offset + size <= data_.size()` is the window check at base zero. -/
theorem not_size_lt_iff (r : Ram) (offset size : U64) :
    ¬ r.size < offset + size ↔ wordCheck 0 r.size offset size = true := by
  simp [wordCheck, BitVec.not_lt, BitVec.le_def]

theorem readFast_isSome_iff (r : Ram) (offset size : U64) :
    (r.readFast offset size).isSome ↔
      fastSize size = true ∧ wordCheck 0 r.size offset size = true := by
  rw [← not_size_lt_iff]
  unfold readFast
  cases hs : fastSize size <;> by_cases hb : r.size < offset + size <;> simp [hb]

theorem writeFast_isSome_iff (r : Ram) (offset value size : U64) :
    (r.writeFast offset value size).isSome ↔
      fastSize size = true ∧ wordCheck 0 r.size offset size = true := by
  rw [← not_size_lt_iff]
  unfold writeFast
  cases hs : fastSize size <;> by_cases hb : r.size < offset + size <;> simp [hb]

end Ram
end Aarchvm

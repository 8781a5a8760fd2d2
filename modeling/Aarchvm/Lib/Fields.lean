import Aarchvm.Lib.Pattern

/-!
# Patterns made of fields

An encoding is given by the values of some fields of the word. The pattern that fixes them matches
the words whose fields have these values.
-/
namespace Aarchvm.Lib

namespace Pattern

/-- `len` bits from `lo` and the value they are to have. -/
structure Field where
  lo : Nat
  len : Nat
  value : Nat
  deriving DecidableEq, Repr

variable {w : Nat}

def Field.mask (f : Field) : BitVec w := BitVec.ofNat w ((2 ^ f.len - 1) <<< f.lo)

def ofFields (w : Nat) : List Field → Pattern w
  | [] => ⟨0, 0⟩
  | f :: fields => (ofFields w fields).withField f.lo f.len f.value

/-- The values fit their fields, and no two fields share a bit. -/
def Fit (w : Nat) : List Field → Prop
  | [] => True
  | f :: fields => f.value < 2 ^ f.len ∧ f.lo + f.len ≤ w ∧
      (ofFields w fields).mask &&& f.mask = 0 ∧ Fit w fields

instance decidableFit : (fields : List Field) → Decidable (Fit w fields)
  | [] => isTrue trivial
  | _ :: fields =>
    have := decidableFit fields
    inferInstanceAs (Decidable (_ ∧ _ ∧ _ ∧ _))

end Pattern
end Aarchvm.Lib

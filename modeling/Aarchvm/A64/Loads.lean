import Aarchvm.Lib.Pattern
import Aarchvm.Word

/-!
# The loads of A64

The encodings of the load and store class that read memory and write none, by the groups of the
class. Prefetches stand among them; the atomics, which both read and write, do not.
-/
namespace Aarchvm.A64

open Lib

/-- LDXR, LDXP, LDAR, LDLAR, LDAPR and LD64B with their variants. -/
def orderedLoads : List (Pattern 32) :=
  [⟨0x3FE00000, 0x08400000⟩, ⟨0xBFE00000, 0x88600000⟩, ⟨0x3FE00000, 0x08C00000⟩,
   ⟨0x3FFFFC00, 0x38BFC000⟩, ⟨0xFFFFFC00, 0xF83FD000⟩]

/-- The literals, LDP and LDNP, LDAPUR and LDRAA, of either register file where there are two. -/
def literalPairLoads : List (Pattern 32) :=
  [⟨0x3B000000, 0x18000000⟩, ⟨0x3A400000, 0x28400000⟩, ⟨0x3F600C00, 0x19400000⟩,
   ⟨0x3FA00C00, 0x19800000⟩, ⟨0xFF200400, 0xF8200400⟩]

/-- One general register: bits 23:22 are not 00. The offset is unsigned, of nine bits, or a
register. -/
def registerLoads : List (Pattern 32) :=
  [⟨0x3F400000, 0x39400000⟩, ⟨0x3F800000, 0x39800000⟩, ⟨0x3F600000, 0x38400000⟩,
   ⟨0x3FA00000, 0x38800000⟩, ⟨0x3F600C00, 0x38600800⟩, ⟨0x3FA00C00, 0x38A00800⟩]

/-- One SIMD&FP register: bit 22 is set. -/
def vectorLoads : List (Pattern 32) :=
  [⟨0x3F400000, 0x3D400000⟩, ⟨0x3F600000, 0x3C400000⟩, ⟨0x3F600C00, 0x3C600800⟩]

/-- LD1 to LD4 of whole registers or of one element, LD1R to LD4R. -/
def structureLoads : List (Pattern 32) :=
  [⟨0xBFFF0000, 0x0C400000⟩, ⟨0xBFE00000, 0x0CC00000⟩, ⟨0xBFDF0000, 0x0D400000⟩,
   ⟨0xBFC00000, 0x0DC00000⟩]

def loadPatterns : List (Pattern 32) :=
  orderedLoads ++ literalPairLoads ++ registerLoads ++ vectorLoads ++ structureLoads

/-- LDXP and LDAXP with register 31 as the second. -/
def exclusivePairZr : Pattern 32 := ⟨0xBFE07C00, 0x88607C00⟩

def IsLoad (insn : U32) : Prop := ∃ p ∈ loadPatterns, p.Matches insn = true

instance (insn : U32) : Decidable (IsLoad insn) :=
  inferInstanceAs (Decidable (∃ p ∈ loadPatterns, p.Matches insn = true))

end Aarchvm.A64

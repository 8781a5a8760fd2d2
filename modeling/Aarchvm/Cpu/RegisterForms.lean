import Aarchvm.Cpu.Select
import Aarchvm.Cpu.Sources

/-!
# Register data processing

The classes of register operands together: a word does what the pseudocode allows in every
state unless its class leaves a fixed bit out, or its condition is NV.
-/
namespace Aarchvm

open Lib

/-- The classes. -/
inductive RegisterClass where
  | addSubExtended
  | addSubCarry
  | conditionalSelect
  | conditionalCompare
  | oneSource
  | twoSource
  | threeSource
  | extract
  deriving DecidableEq, Repr

namespace RegisterClass

def pattern : RegisterClass → Pattern 32
  | addSubExtended => Cpu.extendedPattern
  | addSubCarry => Cpu.carryPattern
  | conditionalSelect => Cpu.selectPattern
  | conditionalCompare => Cpu.comparePattern
  | oneSource => Cpu.oneSourcePattern
  | twoSource => Cpu.twoSourcePattern
  | threeSource => Cpu.threeSourcePattern
  | extract => Cpu.extractPattern

/-- The pseudocode of the class. -/
def effect : RegisterClass → Nat → U32 → A64.View → Option A64.Effect
  | addSubExtended => A64.addSubExtended
  | addSubCarry => A64.addSubCarry
  | conditionalSelect => A64.conditionalSelect
  | conditionalCompare => A64.conditionalCompare
  | oneSource => A64.oneSource
  | twoSource => A64.twoSource
  | threeSource => A64.threeSource
  | extract => A64.extract

/-- Words with a field that should be one and is not. -/
def Unpredictable (insn : U32) : RegisterClass → Prop
  | threeSource => Cpu.MulHighUnpredictable insn
  | _ => False

/-- Where the program does something else. -/
def Misexecuted (insn : U32) : RegisterClass → Prop
  | addSubExtended => Cpu.ExtendedMisexecuted insn
  | addSubCarry => False
  | conditionalSelect => Cpu.SelectMisexecuted insn
  | conditionalCompare => Cpu.CompareMisexecuted insn
  | oneSource => Cpu.OneSourceMisexecuted insn
  | twoSource => False
  | threeSource => Cpu.ThreeSourceMisexecuted insn
  | extract => Cpu.ExtractMisexecuted insn

/-- What the architecture allows: the pseudocode, and for an unpredictable word also an
Undefined exception. -/
def Allows (cls : RegisterClass) (insn : U32) (v : A64.View) (o : Option A64.Effect) : Prop :=
  o = cls.effect (A64.width insn) insn v ∨ cls.Unpredictable insn ∧ o = none

/-- In every state and on both paths the word does something that is allowed. -/
def Executes (cls : RegisterClass) (insn : U32) : Prop :=
  ∀ (c : Cpu) (predecode : Bool), ∃ o,
    cls.Allows insn c.a64View o ∧ c.execInteger predecode insn = c.outcome o

theorem executes_iff_conforms {cls : RegisterClass} {insn : U32} (h : ¬ cls.Unpredictable insn) :
    cls.Executes insn ↔ Cpu.Conforms cls.effect insn := by
  constructor
  · intro hall c predecode
    obtain ⟨o, ho | hno, heq⟩ := hall c predecode
    · rw [heq, ho]
    · exact absurd hno.1 h
  · intro hall c predecode
    exact ⟨_, .inl rfl, hall c predecode⟩

/-- The unpredictable words are refused. -/
theorem threeSource_executes_of_unpredictable {insn : U32}
    (h : threeSource.pattern.Matches insn = true) (hones : Cpu.MulHighUnpredictable insn) :
    threeSource.Executes insn := by
  intro c predecode
  refine ⟨none, .inr ⟨hones, rfl⟩, ?_⟩
  rw [Cpu.execInteger_mulHigh c h predecode hones.1, if_neg hones.2]
  rfl

theorem executes_iff {cls : RegisterClass} {insn : U32} (h : cls.pattern.Matches insn = true) :
    cls.Executes insn ↔ ¬ cls.Misexecuted insn := by
  cases cls with
  | addSubExtended => exact (executes_iff_conforms id).trans (Cpu.extended_conforms_iff h)
  | addSubCarry => exact (executes_iff_conforms id).trans (iff_of_true (Cpu.carry_conforms h) id)
  | conditionalSelect => exact (executes_iff_conforms id).trans (Cpu.select_conforms_iff h)
  | conditionalCompare => exact (executes_iff_conforms id).trans (Cpu.compare_conforms_iff h)
  | oneSource => exact (executes_iff_conforms id).trans (Cpu.oneSource_conforms_iff h)
  | twoSource => exact (executes_iff_conforms id).trans (iff_of_true (Cpu.twoSource_conforms h) id)
  | threeSource =>
    by_cases hones : Cpu.MulHighUnpredictable insn
    · refine iff_of_true (threeSource_executes_of_unpredictable h hones) fun hmis => hmis.1 ?_
      have hhigh := hones.1
      rw [Cpu.isMulHigh, Bool.and_eq_true, Bool.and_eq_true, Bool.and_eq_true,
        decide_eq_true_iff] at hhigh
      exact hhigh.1.1.2
    · exact (@executes_iff_conforms threeSource insn hones).trans
        (Cpu.threeSource_conforms_iff h hones)
  | extract => exact (executes_iff_conforms id).trans (Cpu.extract_conforms_iff h)

end RegisterClass

namespace Cpu

/-- The words that do what the pseudocode says. -/
theorem register_executes_iff (cls : RegisterClass) (x : cls.pattern.Word) :
    cls.Executes x.insn ↔ ¬ cls.Misexecuted x.insn :=
  RegisterClass.executes_iff x.inClass

/-- ADD (extended register) with `opt` set, CSEL with `S` set and under NV, CCMN with `S` clear,
RBIT with `S` set, MADD with `op54` set and EXTR with `op21` set. -/
theorem register_words_not_executed :
    ¬ RegisterClass.addSubExtended.Executes 0x0B600000 ∧
      ¬ RegisterClass.conditionalSelect.Executes 0x3A800000 ∧
      ¬ RegisterClass.conditionalSelect.Executes 0x1A81F000 ∧
      ¬ RegisterClass.conditionalCompare.Executes 0x1A400000 ∧
      ¬ RegisterClass.oneSource.Executes 0x7AC00000 ∧
      ¬ RegisterClass.threeSource.Executes 0x3B000000 ∧
      ¬ RegisterClass.extract.Executes 0x33800000 := by
  refine ⟨?_, ?_, ?_, ?_, ?_, ?_, ?_⟩
  · rw [RegisterClass.executes_iff (by decide), not_not]
    exact ⟨by decide, by decide⟩
  · rw [RegisterClass.executes_iff (by decide), not_not]
    exact ⟨by decide, .inl (by decide)⟩
  · rw [RegisterClass.executes_iff (by decide), not_not]
    refine ⟨by decide, .inr ⟨by decide, by decide, ?_⟩⟩
    rintro (⟨-, -, hregs⟩ | ⟨hop, -⟩)
    · exact absurd hregs (by decide)
    · exact absurd hop (by decide)
  · rw [RegisterClass.executes_iff (by decide), not_not]
    exact ⟨by decide, .inl (by decide)⟩
  · rw [RegisterClass.executes_iff (by decide), not_not]
    exact ⟨by decide, by decide, .inl (by decide), by decide⟩
  · rw [RegisterClass.executes_iff (by decide), not_not]
    exact ⟨by decide, by decide⟩
  · rw [RegisterClass.executes_iff (by decide), not_not]
    exact ⟨.inl (by decide), by decide, by decide⟩

end Cpu
end Aarchvm

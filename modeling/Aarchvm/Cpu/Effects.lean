import Aarchvm.Cpu.Predecode

/-!
# Architectural effects on a CPU

The view of a CPU that the A64 pseudocode has, and a CPU after the writes of an effect.
The register accesses of the program are the pseudocode's at the operand width.
-/
namespace Aarchvm

open Lib

namespace Cpu

variable (c : Cpu)

/-- What integer instructions read. -/
def a64View : A64.View := ⟨c.regs, c.regs 31, c.flags⟩

/-- The writes of an instruction. -/
def apply (e : A64.Effect) : Cpu :=
  let c₁ := match e.result with
    | some (.x d, value) => c.setReg d value
    | some (.sp, value) => c.setSp value
    | none => c
  match e.flags with
  | some f => c₁.setFlags f
  | none => c₁

/-- The writes of an allocated instruction; an Undefined exception for an unallocated one. -/
def outcome : Option A64.Effect → Cpu
  | some e => c.apply e
  | none => c.undefined

/-- The operand width. -/
abbrev widthOf (sf : Bool) : Nat := if sf then 64 else 32

/-- In every state and on both paths the word does what the pseudocode says. -/
def Conforms (effect : Nat → U32 → A64.View → Option A64.Effect) (insn : U32) : Prop :=
  ∀ (c : Cpu) (predecode : Bool),
    c.execInteger predecode insn = c.outcome (effect (A64.width insn) insn c.a64View)

theorem width_eq (insn : U32) : A64.width insn = widthOf (insn.getLsbD 31) := rfl

theorem widthOf_le (sf : Bool) : widthOf sf ≤ 64 := by cases sf <;> decide

theorem setWidth_back {sf : Bool} (x : BitVec (widthOf sf)) :
    (x.setWidth 64).setWidth (widthOf sf) = x := by
  rw [BitVec.setWidth_setWidth_of_le x (widthOf_le sf), BitVec.setWidth_eq]

/-! ## Exceptions -/

theorem undefined_taken : c.undefined.exceptionTakenThisStep = true := by
  rw [undefined, enterSyncException]
  split <;> rfl

theorem apply_taken (e : A64.Effect) :
    (c.apply e).exceptionTakenThisStep = c.exceptionTakenThisStep := by
  have hresult : (match e.result with
      | some (.x d, value) => c.setReg d value
      | some (.sp, value) => c.setSp value
      | none => c : Cpu).exceptionTakenThisStep = c.exceptionTakenThisStep := by
    split
    · rw [setReg]
      split <;> rfl
    · rw [setSp]
      dsimp only
      split <;> rfl
    · rfl
  rw [apply]
  split
  · exact hresult
  · exact hresult

/-- An instruction that writes its effect has not raised an exception. -/
theorem apply_ne_undefined {c : Cpu} (h : c.exceptionTakenThisStep = false) (e : A64.Effect) :
    c.apply e ≠ c.undefined := by
  intro heq
  have htaken := congrArg Cpu.exceptionTakenThisStep heq
  rw [apply_taken, undefined_taken, h] at htaken
  exact Bool.false_ne_true htaken

/-- A word that is not allocated and writes an effect. -/
theorem not_conforms_of_none {effect : Nat → U32 → A64.View → Option A64.Effect} {insn : U32}
    {e : A64.Effect}
    (hspec : effect (A64.width insn) insn (Cpu.reset 0 0 0).a64View = none)
    (hcode : (Cpu.reset 0 0 0).execInteger false insn = (Cpu.reset 0 0 0).apply e) :
    ¬ Conforms effect insn := by
  intro hall
  have heq := hall (Cpu.reset 0 0 0) false
  rw [hspec, hcode] at heq
  exact apply_ne_undefined rfl _ heq

/-- Out of reset all general registers are zero. -/
theorem reset_x (cpuIndex : Nat) (sp pc : U64) (w n : Nat) :
    (Cpu.reset cpuIndex sp pc).a64View.x w n = 0#w := by
  rw [A64.View.x]
  split
  · rfl
  · next h =>
    have hreg : (Cpu.reset cpuIndex sp pc).a64View.r n = 0 := if_neg h
    rw [hreg]
    exact BitVec.setWidth_zero ..

/-! ## Reads -/

theorem reg_eq {i : Nat} (h : i < 32) : c.reg i = c.a64View.x 64 i := by
  rw [reg, A64.View.x]
  by_cases hi : i = 31
  · rw [if_pos hi, if_pos (by omega)]
  · rw [if_neg hi, if_neg (by omega), BitVec.setWidth_eq]
    rfl

theorem reg32_eq {i : Nat} (h : i < 32) : c.reg32 i = c.a64View.x 32 i := by
  rw [reg32, c.reg_eq h, A64.View.x, A64.View.x]
  split_ifs
  · rfl
  · rw [BitVec.setWidth_eq]

theorem regOf_eq {i : Nat} (h : i < 32) (sf : Bool) :
    c.regOf sf i = (c.a64View.x (widthOf sf) i).setWidth 64 := by
  cases sf with
  | true =>
    rw [regOf, if_pos rfl, c.reg_eq h]
    exact (BitVec.setWidth_eq _).symm
  | false =>
    rw [regOf, if_neg Bool.false_ne_true, c.reg32_eq h]
    rfl

theorem spOrReg_eq (w i : Nat) : (c.spOrReg i).setWidth w = c.a64View.xSp w i := by
  rw [spOrReg, A64.View.xSp]
  by_cases hi : i = 31
  · rw [if_pos hi, hi]
    rfl
  · rw [if_neg hi]
    rfl

/-! ## Writes -/

theorem setReg_apply (d : Nat) (value : U64) : c.setReg d value = c.apply (.toX d value none) := by
  rw [A64.Effect.toX, BitVec.setWidth_eq]
  rfl

theorem setReg32_apply (d : Nat) (value : U32) :
    c.setReg32 d value = c.apply (.toX d value none) := rfl

theorem setRegOf_apply (sf : Bool) (d : Nat) (value : U64) :
    c.setRegOf sf d value = c.apply (.toX d (value.setWidth (widthOf sf)) none) := by
  cases sf with
  | true =>
    rw [setRegOf, if_pos rfl, setReg_apply]
    exact congrArg (fun x => c.apply (.toX d x none)) (BitVec.setWidth_eq value).symm
  | false => rfl

theorem setSpOrReg_apply (sf : Bool) (d : Nat) (value : U64) :
    c.setSpOrReg d value (!sf) = c.apply (.toXSp d (value.setWidth (widthOf sf))) := by
  rw [setSpOrReg, A64.Effect.toXSp]
  by_cases hd : d = 31
  · rw [if_pos hd, if_pos hd]
    cases sf with
    | true =>
      change c.setSp value = c.setSp ((value.setWidth 64).setWidth 64)
      rw [BitVec.setWidth_eq, BitVec.setWidth_eq]
    | false => rfl
  · rw [if_neg hd, if_neg hd]
    cases sf with
    | true =>
      change c.setReg d value = c.setReg d ((value.setWidth 64).setWidth 64)
      rw [BitVec.setWidth_eq, BitVec.setWidth_eq]
    | false => rfl

/-- A write to register 31 as the stack pointer, and none to register 31 as XZR. -/
theorem apply_toXSp_regs {w : Nat} (value : BitVec w) :
    (c.apply (.toXSp 31 value)).regs 31 = value.setWidth 64 := by
  change (c.setSp (value.setWidth 64)).regs 31 = _
  rw [setSp]
  dsimp only
  split <;> rfl

theorem apply_toX_regs {w : Nat} (value : BitVec w) : c.apply (.toX 31 value none) = c := rfl

theorem toXSp_eq_toX {w d : Nat} (h : d ≠ 31) (value : BitVec w) :
    A64.Effect.toXSp d value = .toX d value none := by
  rw [A64.Effect.toXSp, if_neg h]
  rfl

theorem setFlags_setReg_comm (d : Nat) (value : U64) (f : Flags) :
    (c.setFlags f).setReg d value = (c.setReg d value).setFlags f := by
  rw [setReg, setReg]
  split <;> rfl

/-- A register and the flags. -/
theorem setRegOf_setFlags_apply (sf : Bool) (d : Nat) (value : U64) (f : Flags) :
    (c.setRegOf sf d value).setFlags f =
      c.apply (.toX d (value.setWidth (widthOf sf)) (some f)) := by
  rw [setRegOf_apply]
  rfl

/-! ## Sums and differences -/

theorem addSubValue_eq (sf isSub : Bool) (lhs rhs : U64) :
    addSubValue sf isSub lhs rhs =
      ((addOrSub isSub (lhs.setWidth (widthOf sf)) (rhs.setWidth (widthOf sf))).1).setWidth 64 := by
  cases isSub with
  | true =>
    rw [sub_fst]
    cases sf with
    | true =>
      change lhs - rhs = (lhs.setWidth 64 - rhs.setWidth 64).setWidth 64
      simp only [BitVec.setWidth_eq]
    | false =>
      have hle : 32 ≤ 64 := by decide
      rw [addSubValue, BitVec.sub_eq_add_neg, BitVec.setWidth_add _ _ hle,
        BitVec.setWidth_neg_of_le hle, ← BitVec.sub_eq_add_neg]
      rfl
  | false =>
    rw [add_fst]
    cases sf with
    | true =>
      change lhs + rhs = (lhs.setWidth 64 + rhs.setWidth 64).setWidth 64
      simp only [BitVec.setWidth_eq]
    | false =>
      rw [addSubValue, BitVec.setWidth_add _ _ (show 32 ≤ 64 by decide)]
      rfl

/-- The flags of `addSubValue`, in either width. -/
theorem finishAddSub_flags (sf isSub : Bool) (rd : Nat) (lhs rhs : U64) :
    c.finishAddSub sf isSub true rd lhs rhs (addSubValue sf isSub lhs rhs) =
      (c.setRegOf sf rd (addSubValue sf isSub lhs rhs)).setFlags
        (addOrSub isSub (lhs.setWidth (widthOf sf)) (rhs.setWidth (widthOf sf))).2 := by
  have hle : 32 ≤ 64 := by decide
  rw [finishAddSub, if_pos rfl]
  generalize c.setRegOf sf rd (addSubValue sf isSub lhs rhs) = c₁
  cases isSub <;> cases sf
  · change c₁.setFlagsAdd _ _ _ true = _
    rw [setFlagsAdd_narrow]
    · simp only [setWidth_low32]
      rfl
    · simp only [setWidth_low32, addSubValue, BitVec.setWidth_add _ _ hle]
  · change c₁.setFlagsAdd lhs rhs (lhs + rhs) false = _
    rw [setFlagsAdd_wide]
    change _ = c₁.setFlags (addOrSub false (lhs.setWidth 64) (rhs.setWidth 64)).2
    simp only [BitVec.setWidth_eq]
  · change c₁.setFlagsSub _ _ _ true = _
    rw [setFlagsSub_narrow]
    · simp only [setWidth_low32]
      rfl
    · simp only [setWidth_low32, addSubValue, BitVec.sub_eq_add_neg, BitVec.setWidth_add _ _ hle,
        BitVec.setWidth_neg_of_le hle]
  · change c₁.setFlagsSub lhs rhs (lhs - rhs) false = _
    rw [setFlagsSub_wide]
    change _ = c₁.setFlags (addOrSub true (lhs.setWidth 64) (rhs.setWidth 64)).2
    simp only [BitVec.setWidth_eq]

theorem finishAddSub_apply (sf isSub setFlags : Bool) (rd : Nat) (lhs rhs : U64) :
    c.finishAddSub sf isSub setFlags rd lhs rhs (addSubValue sf isSub lhs rhs) =
      c.apply (
        let x := lhs.setWidth (widthOf sf)
        let y := rhs.setWidth (widthOf sf)
        if setFlags then A64.addSubFlags isSub rd x y else .toXSp rd (addOrSub isSub x y).1) := by
  cases setFlags with
  | true =>
    rw [finishAddSub_flags, setRegOf_setFlags_apply, addSubValue_eq, setWidth_back]
    rfl
  | false =>
    change c.setSpOrReg rd (addSubValue sf isSub lhs rhs) (!sf) = _
    rw [setSpOrReg_apply, addSubValue_eq, setWidth_back]
    rfl

/-! ## Logical results -/

theorem setFlagsLogic_eq (sf : Bool) (x : U64) :
    c.setFlagsLogic x (!sf) = c.setFlags (A64.logicFlags (x.setWidth (widthOf sf))) := by
  cases sf with
  | true =>
    change c.setFlagsLogic x false = c.setFlags (A64.logicFlags (x.setWidth 64))
    rw [BitVec.setWidth_eq]
    exact c.setFlagsLogic_wide x
  | false => exact c.setFlagsLogic_narrow x

/-- What the logical forms of the program write. -/
def logicalEffect {w : Nat} (opc d : Nat) (x y : BitVec w) : A64.Effect :=
  match opc with
  | 0 => .toX d (x &&& y) none
  | 1 => .toX d (x ||| y) none
  | 2 => .toX d (x ^^^ y) none
  | _ => .toX d (x &&& y) (some (A64.logicFlags (x &&& y)))

theorem finishLogical_apply (sf : Bool) (opc rd : Nat) (lhs rhs : U64) :
    c.finishLogical sf opc rd lhs rhs =
      c.apply (logicalEffect opc rd (lhs.setWidth (widthOf sf)) (rhs.setWidth (widthOf sf))) := by
  match opc with
  | 0 =>
    change c.setRegOf sf rd (lhs &&& rhs) = c.apply (.toX rd _ none)
    rw [setRegOf_apply, BitVec.setWidth_and]
  | 1 =>
    change c.setRegOf sf rd (lhs ||| rhs) = c.apply (.toX rd _ none)
    rw [setRegOf_apply, BitVec.setWidth_or]
  | 2 =>
    change c.setRegOf sf rd (lhs ^^^ rhs) = c.apply (.toX rd _ none)
    rw [setRegOf_apply, BitVec.setWidth_xor]
  | n + 3 =>
    change (if rd = 31 then _ else (c.setFlagsLogic (lhs &&& rhs) (!sf)).setRegOf sf rd _) =
      c.apply (.toX rd _ (some (A64.logicFlags _)))
    rw [setFlagsLogic_eq, ← BitVec.setWidth_and]
    generalize A64.logicFlags _ = f
    rw [← setRegOf_setFlags_apply]
    by_cases hd : rd = 31
    · rw [if_pos hd, hd]
      cases sf <;> rfl
    · rw [if_neg hd]
      cases sf with
      | true => exact setFlags_setReg_comm c rd (lhs &&& rhs) f
      | false => exact setFlags_setReg_comm c rd _ f

end Cpu
end Aarchvm

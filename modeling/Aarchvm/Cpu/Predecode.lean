import Aarchvm.Cpu.DataProcessing

/-!
# The predecoded path

`decode_insn` and `exec_decoded` on integer words, and the part of `step` that tries the
predecoded instruction first and then the plain one. Between the two stand only tests for
branches, system instructions, loads and stores, which take no word of these classes.
-/
namespace Aarchvm

open Lib

/-- The kinds that integer words decode to. -/
inductive DecodedKind where
  | fallback
  | movWide
  | addSubImm
  | addSubShifted
  | logicalShifted
  | logicalImm
  | bitfield
  deriving DecidableEq, Repr

/-- `DecodedInsn`, with a field for each bit of its `flags` that these kinds use. -/
structure DecodedInsn where
  kind : DecodedKind := .fallback
  imm : Nat := 0
  rd : Nat := 31
  rn : Nat := 31
  rm : Nat := 31
  aux : Nat := 0
  aux2 : Nat := 0
  sf : Bool := false
  setFlags : Bool := false
  isSub : Bool := false
  invert : Bool := false
  deriving DecidableEq, Repr

/-- The tests of `decode_insn` for integer words, in its order. -/
def predecodeCases : List (Pattern 32 × DecodedKind) :=
  [(⟨0x7F800000, 0x52800000⟩, .movWide), (⟨0x7F800000, 0x72800000⟩, .movWide),
   (⟨0x7F800000, 0x12800000⟩, .movWide),
   (⟨0x7FC00000, 0x11800000⟩, .fallback), (⟨0x7FC00000, 0x51800000⟩, .fallback),
   (⟨0x7F000000, 0x11000000⟩, .addSubImm), (⟨0x7F000000, 0x31000000⟩, .addSubImm),
   (⟨0x7F000000, 0x51000000⟩, .addSubImm), (⟨0x7F000000, 0x71000000⟩, .addSubImm),
   (⟨0x1F000000, 0x0A000000⟩, .logicalShifted),
   (⟨0x1F000000, 0x12000000⟩, .logicalImm),
   (⟨0x1F800000, 0x13000000⟩, .bitfield),
   (⟨0x7F200000, 0x2B000000⟩, .addSubShifted), (⟨0x7F200000, 0x6B000000⟩, .addSubShifted),
   (⟨0x7F200000, 0x4B000000⟩, .addSubShifted)]

/-- `decode_insn`. -/
def decodeInsn (insn : U32) : DecodedInsn :=
  let sf := insn.getLsbD 31
  let n := bitField insn 22 1
  let rd := bitField insn 0 5
  let rn := bitField insn 5 5
  match Pattern.decode predecodeCases insn with
  | some .movWide =>
    { kind := .movWide, rd := rd, aux := bitField insn 29 2, aux2 := bitField insn 21 2 * 16,
      imm := bitField insn 5 16, sf := sf }
  | some .addSubImm =>
    { kind := .addSubImm, rd := rd, rn := rn, imm := bitField insn 10 12,
      aux := bitField insn 22 1 * 12, sf := sf, isSub := insn.getLsbD 30,
      setFlags := insn.getLsbD 29 }
  | some .logicalShifted =>
    if !sf && insn.getLsbD 15 then {}
    else
      { kind := .logicalShifted, rd := rd, rn := rn, rm := bitField insn 16 5,
        aux := bitField insn 22 2, aux2 := bitField insn 29 2, imm := bitField insn 10 6,
        sf := sf, invert := insn.getLsbD 21 }
  | some .logicalImm =>
    if !sf && n != 0 then {}
    else
      { kind := .logicalImm, rd := rd, rn := rn, aux := bitField insn 29 2, aux2 := n,
        imm := bitField insn 16 6 + 64 * bitField insn 10 6, sf := sf }
  | some .bitfield =>
    if sf && n != 1 || !sf && n != 0 then {}
    else
      { kind := .bitfield, rd := rd, rn := rn, aux := bitField insn 29 2, aux2 := n,
        imm := bitField insn 16 6 + 64 * bitField insn 10 6, sf := sf }
  | some .addSubShifted =>
    if 2 < bitField insn 22 2 then {}
    else
      { kind := .addSubShifted, rd := rd, rn := rn, rm := bitField insn 16 5,
        aux := bitField insn 22 2, aux2 := bitField insn 10 6, sf := sf,
        isSub := insn.getLsbD 30, setFlags := insn.getLsbD 29 }
  | _ => {}

namespace Cpu

variable (c : Cpu) (decoded : DecodedInsn)

/-- The case `MovWide` of `exec_decoded`. -/
def execDecodedMovWide : Option Cpu :=
  let value := BitVec.ofNat 64 decoded.imm <<< decoded.aux2
  if decoded.aux = 2 then some (c.setRegOf decoded.sf decoded.rd value)
  else if decoded.aux = 3 then
    if decoded.sf then
      let mask := ~~~((0xFFFF : U64) <<< decoded.aux2)
      some (c.setReg decoded.rd ((c.reg decoded.rd &&& mask) ||| value))
    else if 16 < decoded.aux2 then none
    else
      let mask := ~~~((0xFFFF : U32) <<< decoded.aux2)
      some (c.setReg32 decoded.rd ((c.reg32 decoded.rd &&& mask) ||| value.setWidth 32))
  else if decoded.aux = 0 then
    if decoded.sf then some (c.setReg decoded.rd (~~~value))
    else if 16 < decoded.aux2 then none
    else some (c.setReg32 decoded.rd ((~~~value).setWidth 32))
  else none

/-- `exec_decoded_add_sub_imm`. -/
def execDecodedAddSubImm : Option Cpu :=
  let lhs := c.spOrReg decoded.rn
  let rhs := BitVec.ofNat 64 decoded.imm <<< decoded.aux
  some (c.finishAddSub decoded.sf decoded.isSub decoded.setFlags decoded.rd lhs rhs
    (addSubValue decoded.sf decoded.isSub lhs rhs))

/-- `exec_decoded_add_sub_shifted`. -/
def execDecodedAddSubShifted : Option Cpu :=
  let rhs := c.shiftedOperand decoded.sf decoded.rm decoded.aux decoded.aux2
  let lhs := c.regOf decoded.sf decoded.rn
  some (c.finishAddSub decoded.sf decoded.isSub decoded.setFlags decoded.rd lhs rhs
    (addSubValue decoded.sf decoded.isSub lhs rhs))

/-- `exec_decoded_logical_shifted`. -/
def execDecodedLogicalShifted : Option Cpu :=
  let rhs := c.logicalOperand decoded.sf decoded.invert decoded.rm decoded.aux decoded.imm
  let lhs := c.regOf decoded.sf decoded.rn
  some (c.finishLogical decoded.sf decoded.aux2 decoded.rd lhs rhs)

/-- `exec_decoded_logical_imm`. -/
def execDecodedLogicalImm : Option Cpu :=
  let datasize := if decoded.sf then 64 else 32
  (decodeBitMasks (decoded.aux2 % 2) (decoded.imm / 64 % 64) (decoded.imm % 64) datasize).map
    fun masks =>
      c.finishLogical decoded.sf decoded.aux decoded.rd (c.regOf decoded.sf decoded.rn) masks.1

/-- `exec_decoded_bitfield`. -/
def execDecodedBitfield : Option Cpu :=
  let immr := decoded.imm % 64
  let imms := decoded.imm / 64 % 64
  let datasize := if decoded.sf then 64 else 32
  (decodeBitMasks (decoded.aux2 % 2) imms immr datasize).bind fun masks =>
    (bitfieldResult decoded.aux immr imms datasize (c.regOf decoded.sf decoded.rn)
      (c.regOf decoded.sf decoded.rd) masks).map (c.setRegOf decoded.sf decoded.rd)

/-- `exec_decoded`; `none` when it returns false. -/
def execDecoded : Option Cpu :=
  match decoded.kind with
  | .fallback => none
  | .movWide => c.execDecodedMovWide decoded
  | .addSubImm => c.execDecodedAddSubImm decoded
  | .addSubShifted => c.execDecodedAddSubShifted decoded
  | .logicalShifted => c.execDecodedLogicalShifted decoded
  | .logicalImm => c.execDecodedLogicalImm decoded
  | .bitfield => c.execDecodedBitfield decoded

/-- `step` between `pc_ += 4` and `finish_instruction`, on an integer word; `predecode` is
`predecode_enabled_`. -/
def execInteger (predecode : Bool) (insn : U32) : Cpu :=
  match if predecode then c.execDecoded (decodeInsn insn) else none with
  | some c' => c'
  | none => (c.execDataProcessing insn).getD c.undefined

/-- Where the predecoded body is the plain one, or there is none, both paths are the plain one. -/
theorem execInteger_eq {insn : U32} {op : IntegerOp} (predecode : Bool)
    (hpre : c.execDecoded (decodeInsn insn) = none ∨
      c.execDecoded (decodeInsn insn) = c.execIntegerOp insn op)
    (hop : Pattern.decode integerCases insn = some op) :
    c.execInteger predecode insn = (c.execIntegerOp insn op).getD c.undefined := by
  have hplain : c.execDataProcessing insn = c.execIntegerOp insn op := by
    rw [execDataProcessing, hop]
    rfl
  rw [execInteger, hplain]
  cases predecode with
  | false => rfl
  | true =>
    rw [if_pos rfl]
    rcases hpre with h | h
    · rw [h]
    · rw [h]
      cases c.execIntegerOp insn op <;> rfl

theorem execDecoded_of_none {insn : U32} (h : Pattern.decode predecodeCases insn = none) :
    c.execDecoded (decodeInsn insn) = none := by
  rw [decodeInsn, h]
  rfl

theorem execDecoded_of_fallback {insn : U32}
    (h : Pattern.decode predecodeCases insn = some .fallback) :
    c.execDecoded (decodeInsn insn) = none := by
  rw [decodeInsn, h]
  rfl

/-- The offset that the predecoded shift of an immediate stands for. -/
theorem shift12_eq (insn : U32) :
    bitField insn 22 1 * 12 = if insn.getLsbD 22 then 12 else 0 := by
  rw [bitField_one]
  cases insn.getLsbD 22 <;> rfl

theorem execDecoded_addSubImm {insn : U32}
    (h : Pattern.decode predecodeCases insn = some .addSubImm) :
    c.execDecoded (decodeInsn insn) = c.execAddSubImmediate insn (insn.getLsbD 30) := by
  rw [decodeInsn, h, execAddSubImmediate]
  dsimp only
  rw [← shift12_eq]
  rfl

theorem execDecoded_addSubShifted {insn : U32}
    (h : Pattern.decode predecodeCases insn = some .addSubShifted) :
    c.execDecoded (decodeInsn insn) = c.execAddSubShifted insn (insn.getLsbD 30) := by
  rw [decodeInsn, h, execAddSubShifted]
  dsimp only
  split <;> rfl

/-- `imm` holds both fields. -/
theorem immFields (insn : U32) :
    (bitField insn 16 6 + 64 * bitField insn 10 6) / 64 % 64 = bitField insn 10 6 ∧
      (bitField insn 16 6 + 64 * bitField insn 10 6) % 64 = bitField insn 16 6 ∧
      bitField insn 22 1 % 2 = bitField insn 22 1 := by
  have hr := bitField_lt insn 16 6
  have hs := bitField_lt insn 10 6
  have hn := bitField_lt insn 22 1
  omega

theorem execDecoded_logicalImm {insn : U32}
    (h : Pattern.decode predecodeCases insn = some .logicalImm) :
    c.execDecoded (decodeInsn insn) = c.execLogicalImmediate insn := by
  obtain ⟨himms, himmr, hn⟩ := immFields insn
  rw [decodeInsn, h, execLogicalImmediate]
  dsimp only
  split
  · rfl
  · rw [execDecoded]
    dsimp only
    rw [execDecodedLogicalImm]
    dsimp only
    simp only [himms, himmr, hn]

theorem execDecoded_bitfield {insn : U32}
    (h : Pattern.decode predecodeCases insn = some .bitfield) :
    c.execDecoded (decodeInsn insn) = c.execBitfield insn := by
  obtain ⟨himms, himmr, hn⟩ := immFields insn
  rw [decodeInsn, h, execBitfield]
  dsimp only
  split
  · rfl
  · rw [execDecoded]
    dsimp only
    rw [execDecodedBitfield]
    dsimp only
    simp only [himms, himmr, hn]

/-! ## Forms that are not predecoded -/

/-- No word of `q` is predecoded. -/
abbrev NotPredecoded (q : Pattern 32) : Prop := ∀ e ∈ predecodeCases, e.1.Conflicts q = true

/-- The words of `q` meet no body. -/
abbrev Refused (q : Pattern 32) : Prop :=
  ∀ o ∈ q.outcomes integerCases, o = none ∨ o = some .undefined

/-- The words of `q'` meet no body among the cases that `q` leaves. -/
abbrev RefusedWithin (q q' : Pattern 32) : Prop :=
  ∀ o ∈ q'.outcomes (integerCases.filter fun c => !c.1.Conflicts q), o = none ∨ o = some .undefined

theorem execInteger_plain (predecode : Bool) {q : Pattern 32} {insn : U32} {op : IntegerOp}
    (hq : NotPredecoded q) (h : q.Matches insn = true)
    (hop : Pattern.decode integerCases insn = some op) :
    c.execInteger predecode insn = (c.execIntegerOp insn op).getD c.undefined :=
  c.execInteger_eq predecode
    (.inl (c.execDecoded_of_none (Pattern.decode_eq_none hq h))) hop

theorem execInteger_of_decode (predecode : Bool) {q : Pattern 32} {insn : U32}
    (hq : NotPredecoded q) (h : q.Matches insn = true)
    (ho : Pattern.decode integerCases insn = none ∨
      Pattern.decode integerCases insn = some .undefined) :
    c.execInteger predecode insn = c.undefined := by
  have hnone := c.execDecoded_of_none (Pattern.decode_eq_none hq h)
  have hdata : c.execDataProcessing insn = none ∨ c.execDataProcessing insn = some c.undefined := by
    rw [execDataProcessing]
    rcases ho with ho | ho
    · rw [ho]
      exact .inl rfl
    · rw [ho]
      exact .inr rfl
  rw [execInteger, hnone, ite_self]
  rcases hdata with hdata | hdata
  · rw [hdata]
    rfl
  · rw [hdata]
    rfl

theorem execInteger_refused (predecode : Bool) {q q' : Pattern 32} {insn : U32}
    (hq : NotPredecoded q) (h : q.Matches insn = true) (hq' : Refused q')
    (h' : q'.Matches insn = true) : c.execInteger predecode insn = c.undefined :=
  c.execInteger_of_decode predecode hq h (hq' _ (Pattern.decode_mem_outcomes h'))

theorem execInteger_refused_within (predecode : Bool) {q q' : Pattern 32} {insn : U32}
    (hq : NotPredecoded q) (h : q.Matches insn = true) (hq' : RefusedWithin q q')
    (h' : q'.Matches insn = true) : c.execInteger predecode insn = c.undefined := by
  refine c.execInteger_of_decode predecode hq h ?_
  rw [Pattern.decode_filter h]
  exact hq' _ (Pattern.decode_mem_outcomes h')

end Cpu
end Aarchvm

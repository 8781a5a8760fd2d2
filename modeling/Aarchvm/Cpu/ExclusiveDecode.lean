import Aarchvm.Cpu.LoadStore
import Aarchvm.Cpu.Exclusive

/-!
# The exclusive class against the A64 table

The words with bits 29:24 = 001000: exclusives, ordered accesses and compare-and-swap.
The decoder tests masks in order, the table reads the fields; they part where the mask of
CASP leaves out bit 31 and so takes the exclusive pairs whose second register is XZR,
and where CASP does not ask for even registers.
-/
namespace Aarchvm

open Lib

/-- The class. -/
def exclusivePattern : Pattern 32 := ⟨0x3F000000, 0x08000000⟩

/-- A word of the class. -/
structure ExclusiveWord where
  insn : U32
  inClass : exclusivePattern.Matches insn = true

namespace ExclusiveWord

variable (x : ExclusiveWord)

def o2 : Bool := x.insn.getLsbD 23
def l : Bool := x.insn.getLsbD 22
def o1 : Bool := x.insn.getLsbD 21
def o0 : Bool := x.insn.getLsbD 15
def size : Nat := fieldSize x.insn
def rs : Nat := fieldRs x.insn
def rt2 : Nat := fieldRt2 x.insn
def rt : Nat := fieldRt x.insn

/-! ## The table -/

/-- The operation that the A64 table assigns; `none` when the word is unallocated. LDLAR and
STLLR need FEAT_LOR, which ID_AA64MMFR1_EL1 does not announce; CASP wants even registers. -/
def a64Op : Option LoadStoreOp :=
  match x.o2, x.o1 with
  | false, false => some (if x.l then .ldxr (2 ^ x.size) else .stxr (2 ^ x.size))
  | false, true =>
    if 2 ≤ x.size then some (if x.l then .ldxp (2 ^ x.size) else .stxp (2 ^ x.size))
    else if x.rt2 = 31 ∧ x.rs % 2 = 0 ∧ x.rt % 2 = 0 then some (.casp (2 ^ (x.size + 2)))
    else none
  | true, false =>
    if x.o0 then some (if x.l then .ldar (2 ^ x.size) else .stlr (2 ^ x.size)) else none
  | true, true => if x.rt2 = 31 then some (.cas (2 ^ x.size)) else none

/-- The fields of an operation whose bits should be one. -/
def shouldBeOne : LoadStoreOp → List Nat
  | .ldxr _ | .ldar _ | .stlr _ => [x.rs, x.rt2]
  | .stxr _ => [x.rt2]
  | .ldxp _ => [x.rs]
  | _ => []

/-- What the architecture allows: the operation of the table; where a bit that should be
one is not, also an Undefined exception or no effect. -/
def architectural {β : Type} (port : BusPort β) (other : Core.Elsewhere β) (s : Core β) :
    List (Core β) :=
  match x.a64Op with
  | none => [s.undefined]
  | some op =>
    (s.execOp port other x.insn op).2 ::
      if (x.shouldBeOne op).all (· = 31) then [] else [s.undefined, s]

/-- The loads of the class. -/
def IsLoad (op : LoadStoreOp) : Bool :=
  match op with
  | .ldxr _ | .ldxp _ | .ldar _ => true
  | _ => false

/-- In every state the word does what the table assigns to it, and a load writes nothing. -/
def Conforms : Prop :=
  ∀ (β : Type) (port : BusPort β) (other : Core.Elsewhere β) (s : Core β),
    s.stepLoadStore port other x.insn ∈ x.architectural port other s ∧
      (∀ op, x.a64Op = some op → IsLoad op = true →
        (s.stepLoadStore port other x.insn).writes = s.writes)

/-- LDXP or STXP with XZR as its second register. -/
def PairWithZero : Prop := x.o2 = false ∧ x.o1 = true ∧ 2 ≤ x.size ∧ x.rt2 = 31

/-- CASP with an odd register. -/
def OddPair : Prop :=
  x.o2 = false ∧ x.o1 = true ∧ x.size < 2 ∧ x.rt2 = 31 ∧ ¬ (x.rs % 2 = 0 ∧ x.rt % 2 = 0)

/-! ## What the masks look at -/

/-- The bits that the tests of the class look at. -/
def kDecodedBits : U32 := 0xFFE0FC00

def kRt2Bits : U32 := 0x7C00

def classCases : List LoadStoreCase := formsSingle ++ formsCompare ++ formsOrdered ++ formsPair

theorem conflicts_elsewhere :
    ∀ c ∈ formsBefore ++ formsRmw ++ formsBetween ++ formsAfter,
      c.1.Conflicts exclusivePattern = true := by
  decide +kernel

theorem classCases_masks : ∀ c ∈ classCases,
    c.1.mask &&& kDecodedBits = c.1.mask ∧ c.1.AllOrNone kRt2Bits := by
  decide +kernel

/-- No test of another class takes a word of this one. -/
theorem decode_class :
    Pattern.decode loadStoreCases x.insn = Pattern.decode classCases x.insn := by
  have hpass : ∀ cases : List LoadStoreCase,
      (∀ c ∈ cases, c ∈ formsBefore ++ formsRmw ++ formsBetween ++ formsAfter) →
        Pattern.decode cases x.insn = none := fun cases h =>
    Pattern.decode_eq_none (fun c hc => conflicts_elsewhere c (h c hc)) x.inClass
  have hbefore := hpass formsBefore (by simp +contextual)
  have hrmw := hpass formsRmw (by simp +contextual)
  have hbetween := hpass formsBetween (by simp +contextual)
  have hafter := hpass formsAfter (by simp +contextual)
  simp only [loadStoreCases, classCases, Pattern.decode_append, hbefore, hrmw, hbetween, hafter,
    Option.none_or, Option.or_none]

/-- A bit of the word at its place. -/
def bitAt (b : Bool) (k : Nat) : U32 := if b then (1 : U32) <<< k else 0

/-- The word of the class with these bits and zeros elsewhere. -/
def plainWord (s1 s0 o2 l o1 o0 ones : Bool) : U32 :=
  bitAt s1 31 ||| bitAt s0 30 ||| bitAt o2 23 ||| bitAt l 22 ||| bitAt o1 21 ||| bitAt o0 15 |||
    0x08000000 ||| if ones then kRt2Bits else 0

theorem and_bit (insn : U32) (k : Nat) :
    insn &&& ((1 : U32) <<< k) = bitAt (insn.getLsbD k) k := by
  have hpow : (1 : U32) <<< k = BitVec.twoPow 32 k := rfl
  rw [bitAt, hpow, BitVec.and_twoPow]
  rfl

theorem and_decodedBits :
    x.insn &&& kDecodedBits =
      bitAt (x.insn.getLsbD 31) 31 ||| bitAt (x.insn.getLsbD 30) 30 ||| bitAt x.o2 23 |||
        bitAt x.l 22 ||| bitAt x.o1 21 ||| bitAt x.o0 15 ||| 0x08000000 |||
        (x.insn &&& kRt2Bits) := by
  have hmask : kDecodedBits = (1 : U32) <<< 31 ||| (1 : U32) <<< 30 ||| (1 : U32) <<< 23 |||
      (1 : U32) <<< 22 ||| (1 : U32) <<< 21 ||| (1 : U32) <<< 15 ||| 0x3F000000 ||| kRt2Bits := by
    decide
  have hclass : x.insn &&& 0x3F000000 = 0x08000000 := Pattern.matches_iff.1 x.inClass
  rw [hmask]
  simp only [BitVec.and_or_distrib_left, and_bit, hclass]
  rfl

theorem rt2_iff : x.insn &&& kRt2Bits = kRt2Bits ↔ x.rt2 = 31 := by
  have hfield : x.insn &&& kRt2Bits = ((x.insn >>> 10) &&& 0x1F) <<< 10 := by
    apply BitVec.eq_of_getLsbD_eq
    intro i hi
    have hbits : ∀ i < 32, kRt2Bits.getLsbD i =
        (decide (10 ≤ i) && (0x1F : U32).getLsbD (i - 10)) := by decide
    rw [BitVec.getLsbD_and, hbits i hi, BitVec.getLsbD_shiftLeft, BitVec.getLsbD_and,
      BitVec.getLsbD_ushiftRight]
    by_cases hlo : 10 ≤ i
    · have hback : 10 + (i - 10) = i := by omega
      simp [hi, hlo, hback]
    · simp [hlo]
  have hsmall : ((x.insn >>> 10) &&& 0x1F).toNat ≤ 31 := by
    rw [BitVec.toNat_and]
    exact Nat.and_le_right
  have hbits : kRt2Bits.toNat = 31 * 1024 := rfl
  rw [rt2, fieldRt2, hfield, ← BitVec.toNat_inj, BitVec.toNat_shiftLeft, Nat.shiftLeft_eq, hbits]
  omega

theorem size_eq : x.size = 2 * (x.insn.getLsbD 31).toNat + (x.insn.getLsbD 30).toNat := by
  have hlt := x.insn.isLt
  have hbit : ∀ k, (x.insn.getLsbD k).toNat = x.insn.toNat / 2 ^ k % 2 := by
    intro k
    rw [BitVec.getLsbD, Nat.testBit_eq_decide_div_mod_eq]
    rcases Nat.mod_two_eq_zero_or_one (x.insn.toNat / 2 ^ k) with h | h <;> simp [h]
  rw [size, fieldSize, hbit, hbit, BitVec.toNat_ushiftRight, Nat.shiftRight_eq_div_pow]
  omega

/-- The word with zeros wherever the tests do not tell it apart. -/
def plain : U32 :=
  plainWord (x.insn.getLsbD 31) (x.insn.getLsbD 30) x.o2 x.l x.o1 x.o0 (decide (x.rt2 = 31))

theorem bitAt_clear : ∀ k ∈ [31, 30, 23, 22, 21, 15], ∀ b : Bool,
    bitAt b k &&& ~~~kRt2Bits = bitAt b k := by decide

theorem decode_plain : Pattern.decode classCases x.insn = Pattern.decode classCases x.plain := by
  apply Pattern.decode_congr
  intro c hc
  obtain ⟨hmask, hfield⟩ := classCases_masks c hc
  rw [← Pattern.matches_and hmask x.insn]
  by_cases hones : x.rt2 = 31
  · have hplain : x.insn &&& kDecodedBits = x.plain := by
      rw [and_decodedBits, x.rt2_iff.2 hones, plain, plainWord, decide_eq_true hones, if_pos rfl]
    rw [hplain]
  · have hclear : x.insn &&& kDecodedBits &&& kRt2Bits ≠ kRt2Bits := by
      have hin : kDecodedBits &&& kRt2Bits = kRt2Bits := by decide
      rw [BitVec.and_assoc, hin]
      exact mt x.rt2_iff.1 hones
    have hplain : x.insn &&& kDecodedBits &&& ~~~kRt2Bits = x.plain := by
      have hconst : (0x08000000 : U32) &&& ~~~kRt2Bits = 0x08000000 := by decide
      have hrest : x.insn &&& kRt2Bits &&& ~~~kRt2Bits = 0 := by
        rw [BitVec.and_assoc, BitVec.and_not_self]
        exact BitVec.and_zero
      rw [and_decodedBits, plain, plainWord, decide_eq_false hones]
      simp only [BitVec.and_or_distrib_right, hconst, hrest, bitAt_clear 31 (by decide),
        bitAt_clear 30 (by decide), bitAt_clear 23 (by decide), bitAt_clear 22 (by decide),
        bitAt_clear 21 (by decide), bitAt_clear 15 (by decide), Bool.false_eq_true, if_false]
    rw [← Pattern.matches_clear hfield hclear, hplain]

/-- What the tests make of the fields. -/
def codeOp (size : Nat) (o2 l o1 o0 ones : Bool) : Option LoadStoreOp :=
  match o2, o1 with
  | false, false => if ones then some (if l then .ldxr (2 ^ size) else .stxr (2 ^ size)) else none
  | false, true =>
    if ones then some (.casp (elemSizeOfCode size))
    else if 2 ≤ size then some (if l then .ldxp (2 ^ size) else .stxp (2 ^ size))
    else none
  | true, false =>
    if o0 && ones then some (if l then .ldar (2 ^ size) else .stlr (2 ^ size)) else none
  | true, true => if ones then some (.cas (2 ^ size)) else none

theorem decode_plainWord : ∀ s1 s0 o2 l o1 o0 ones : Bool,
    (Pattern.decode classCases (plainWord s1 s0 o2 l o1 o0 ones)).map
        (fun op => op (2 * s1.toNat + s0.toNat)) =
      codeOp (2 * s1.toNat + s0.toNat) o2 l o1 o0 ones := by
  decide +kernel

theorem decodeLoadStore_eq :
    decodeLoadStore x.insn = codeOp x.size x.o2 x.l x.o1 x.o0 (decide (x.rt2 = 31)) := by
  rw [decodeLoadStore, decode_class, decode_plain, plain, show fieldSize x.insn = x.size from rfl,
    size_eq]
  exact decode_plainWord _ _ _ _ _ _ _

/-! ## Execution -/

section Exec

variable {β : Type} (port : BusPort β) (other : Core.Elsewhere β) (s : Core β)

theorem codeOp_ne_elsewhere (size : Nat) (o2 l o1 o0 ones : Bool) :
    codeOp size o2 l o1 o0 ones ≠ some .elsewhere := by
  cases o2 <;> cases o1 <;> simp only [codeOp] <;> cases l <;> split_ifs <;> simp

/-- The word runs the body that the tests find, or is UNDEFINED. -/
theorem step_eq :
    s.stepLoadStore port other x.insn =
      match codeOp x.size x.o2 x.l x.o1 x.o0 (decide (x.rt2 = 31)) with
      | some op => (s.execOp port other x.insn op).2
      | none => s.undefined := by
  rw [Core.stepLoadStore, Core.execLoadStore, decodeLoadStore_eq]
  cases hop : codeOp x.size x.o2 x.l x.o1 x.o0 (decide (x.rt2 = 31)) with
  | none => rfl
  | some op =>
    cases op with
    | elsewhere => exact absurd hop (codeOp_ne_elsewhere _ _ _ _ _ _)
    | _ => rfl

theorem loadAcquire_writes (rt rn size : Nat) :
    (s.loadAcquire port rt rn size).2.writes = s.writes := by
  have hread : Core.ReadSpec s (s.mmuRead port rn (s.cpu.spOrReg rn) size true) :=
    Core.mmuRead_spec s rn _ size true
  rw [Core.loadAcquire]
  split
  · next s₁ hs₁ =>
    rw [hs₁] at hread
    exact hread.writes
  · next value s₁ hs₁ =>
    rw [hs₁] at hread
    exact hread.writes

theorem load_writes {op : LoadStoreOp} (h : IsLoad op = true) :
    (s.execOp port other x.insn op).2.writes = s.writes := by
  cases op with
  | ldxr size => exact (Core.loadExclusive_reserving s _ _ _ size).writes
  | ldxp elemSize => exact (Core.loadExclusivePair_reserving s _ _ _ _ elemSize).writes
  | ldar size => exact loadAcquire_writes port s _ _ size
  | _ => cases h

/-- The outcomes the tests and the table have in common. -/
inductive Agrees : Prop
  /-- the same operation -/
  | same (op : LoadStoreOp)
      (code : codeOp x.size x.o2 x.l x.o1 x.o0 (decide (x.rt2 = 31)) = some op)
      (table : x.a64Op = some op)
  /-- unallocated for both -/
  | unallocated (code : codeOp x.size x.o2 x.l x.o1 x.o0 (decide (x.rt2 = 31)) = none)
      (table : x.a64Op = none)
  /-- a bit that should be one is not, and the word is UNDEFINED -/
  | refused (op : LoadStoreOp)
      (code : codeOp x.size x.o2 x.l x.o1 x.o0 (decide (x.rt2 = 31)) = none)
      (table : x.a64Op = some op) (sbo : x.rt2 ∈ x.shouldBeOne op) (ones : x.rt2 ≠ 31)

theorem conforms_of_agrees (h : x.Agrees) : x.Conforms := by
  intro β port other s
  cases h with
  | same op code table =>
    rw [step_eq, code, architectural, table]
    refine ⟨List.mem_cons_self, fun op' hop' hload => ?_⟩
    obtain rfl := Option.some.inj hop'
    exact x.load_writes port other s hload
  | unallocated code table =>
    rw [step_eq, code, architectural, table]
    exact ⟨List.mem_singleton_self _, fun op' hop' => nomatch hop'⟩
  | refused op code table sbo ones =>
    rw [step_eq, code, architectural, table]
    refine ⟨?_, fun _ _ _ => rfl⟩
    have hall : ¬ ((x.shouldBeOne op).all (· = 31)) = true := by
      intro hall
      exact ones (of_decide_eq_true (List.all_eq_true.1 hall _ sbo))
    simp only [if_neg hall]
    exact List.mem_cons_of_mem _ List.mem_cons_self

theorem agrees_of_not (hpair : ¬ x.PairWithZero) (hodd : ¬ x.OddPair) : x.Agrees := by
  have hsingle : x.o2 = false → x.o1 = false → x.Agrees := by
    intro ho2 ho1
    have htable : x.a64Op =
        some (if x.l then .ldxr (2 ^ x.size) else .stxr (2 ^ x.size)) := by
      rw [a64Op, ho2, ho1]
    by_cases hones : x.rt2 = 31
    · refine .same _ ?_ htable
      rw [ho2, ho1, decide_eq_true hones]
      rfl
    · refine .refused _ ?_ htable ?_ hones
      · rw [ho2, ho1, decide_eq_false hones]
        rfl
      · cases x.l <;> simp [shouldBeOne]
  have hpairs : x.o2 = false → x.o1 = true → x.Agrees := by
    intro ho2 ho1
    by_cases hsize : 2 ≤ x.size
    · have hones : x.rt2 ≠ 31 := fun h => hpair ⟨ho2, ho1, hsize, h⟩
      refine .same (if x.l then .ldxp (2 ^ x.size) else .stxp (2 ^ x.size)) ?_ ?_
      · rw [ho2, ho1, decide_eq_false hones]
        exact if_pos hsize
      · rw [a64Op, ho2, ho1]
        exact if_pos hsize
    · by_cases hones : x.rt2 = 31
      · have heven : x.rs % 2 = 0 ∧ x.rt % 2 = 0 := by
          by_contra hn
          exact hodd ⟨ho2, ho1, by omega, hones, hn⟩
        have helem : elemSizeOfCode x.size = 2 ^ (x.size + 2) := by
          rcases (by omega : x.size = 0 ∨ x.size = 1) with h | h <;> rw [h] <;> rfl
        refine .same (.casp (2 ^ (x.size + 2))) ?_ ?_
        · rw [ho2, ho1, decide_eq_true hones, ← helem]
          rfl
        · rw [a64Op, ho2, ho1]
          simp only [if_neg hsize]
          exact if_pos ⟨hones, heven⟩
      · refine .unallocated ?_ ?_
        · rw [ho2, ho1, decide_eq_false hones]
          exact if_neg hsize
        · rw [a64Op, ho2, ho1]
          simp only [if_neg hsize]
          exact if_neg fun h => hones h.1
  have hordered : x.o2 = true → x.o1 = false → x.Agrees := by
    intro ho2 ho1
    cases ho0 : x.o0 with
    | false =>
      refine .unallocated ?_ ?_
      · rw [ho2, ho1, ho0]
        rfl
      · rw [a64Op, ho2, ho1, ho0]
        rfl
    | true =>
      have htable : x.a64Op =
          some (if x.l then .ldar (2 ^ x.size) else .stlr (2 ^ x.size)) := by
        rw [a64Op, ho2, ho1, ho0]
        rfl
      by_cases hones : x.rt2 = 31
      · refine .same _ ?_ htable
        rw [ho2, ho1, ho0, decide_eq_true hones]
        rfl
      · refine .refused _ ?_ htable ?_ hones
        · rw [ho2, ho1, ho0, decide_eq_false hones]
          rfl
        · cases x.l <;> simp [shouldBeOne]
  have hcas : x.o2 = true → x.o1 = true → x.Agrees := by
    intro ho2 ho1
    by_cases hones : x.rt2 = 31
    · refine .same (.cas (2 ^ x.size)) ?_ ?_
      · rw [ho2, ho1, decide_eq_true hones]
        rfl
      · rw [a64Op, ho2, ho1]
        exact if_pos hones
    · refine .unallocated ?_ ?_
      · rw [ho2, ho1, decide_eq_false hones]
        rfl
      · rw [a64Op, ho2, ho1]
        exact if_neg hones
  cases ho2 : x.o2 with
  | false =>
    cases ho1 : x.o1 with
    | false => exact hsingle ho2 ho1
    | true => exact hpairs ho2 ho1
  | true =>
    cases ho1 : x.o1 with
    | false => exact hordered ho2 ho1
    | true => exact hcas ho2 ho1

end Exec

/-! ## Where the mask of CASP goes wrong -/

/-- A bus that reads five everywhere. -/
def fivePort : BusPort Unit where
  read := fun b _ _ => (some 5, b)
  write := fun b _ _ _ => (true, b)
  readDesc := fun _ _ => none
  hasRam := fun _ _ => true

/-- A CPU after reset that has loaded one byte exclusively. -/
def reserving : Core Unit where
  cpu := { Cpu.reset 0 0 0 with exclusive := some ⟨0, 1, [0], rfl⟩ }
  bus := ()
  writes := []

theorem reserving_spOrReg (rn : Nat) : reserving.cpu.spOrReg rn = 0 := by
  show (if rn = 31 then (0 : U64) else 0) = 0
  exact ite_self 0

theorem reserving_reg (i : Nat) : reserving.cpu.reg i = 0 := by
  rw [Cpu.reg]
  split
  · rfl
  · exact reserving_spOrReg i

theorem reserving_spAligned (rn : Nat) : reserving.cpu.maybeTakeSpAlignmentFault rn = none :=
  if_neg fun h => h.2.2 rfl

theorem reserving_mmuRead (rn : Nat) (va : U64) (elemSize : Nat)
    (helem : elemSize = 4 ∨ elemSize = 8)
    (hva : va = 0 ∨ va = BitVec.ofNat 64 elemSize) :
    reserving.mmuRead fivePort rn va elemSize true = (some 5, reserving) := by
  rw [Core.mmuRead, reserving_spAligned]
  rcases helem with rfl | rfl <;> rcases hva with rfl | rfl <;> rfl

/-- CASP there compares, does not store and loads five. -/
theorem reserving_casp (rs rt rn elemSize : Nat) (helem : elemSize = 4 ∨ elemSize = 8) :
    (reserving.compareAndSwapPair fivePort rs rt rn elemSize).2 =
      reserving.setCpu
        ((reserving.cpu.setRegSized rs 5 elemSize).setRegSized (rs + 1) 5 elemSize) := by
  have halign : reserving.cpu.maybeTakeDataAlignmentFault (fivePort.readDesc reserving.bus)
      (fivePort.hasRam reserving.bus) 0 (elemSize * 2) .read true = none := by
    rcases helem with rfl | rfl <;> rfl
  have hfive : (5 : U64) &&& operandMask elemSize = 5 := by
    rcases helem with rfl | rfl <;> rfl
  have hreg : ∀ i, reserving.cpu.regSized i elemSize &&& operandMask elemSize = 0 := by
    intro i
    rw [Cpu.regSized, reserving_reg]
    rcases helem with rfl | rfl <;> rfl
  have hhi : (0 : U64) + BitVec.ofNat 64 elemSize = BitVec.ofNat 64 elemSize := BitVec.zero_add _
  simp only [Core.compareAndSwapPair, reserving_spOrReg, reserving_spAligned, halign,
    reserving_mmuRead rn 0 elemSize helem (.inl rfl), hhi,
    reserving_mmuRead rn _ elemSize helem (.inr rfl), hfive, hreg]
  rfl

theorem setExclusiveMonitor_size {c : Cpu} {readDesc : U64 → Option U64} {va : U64} {size : Nat}
    {m : ExclusiveMonitor} (h : (c.setExclusiveMonitor readDesc va size).exclusive = some m) :
    m.size = size := by
  have hkept :
    ((c.clearExclusiveMonitor.captureExclusivePhysAddrs readDesc va size false).2).exclusive
      = none := by
    rw [Cpu.captureExclusivePhysAddrs]
    split
    · rfl
    · exact (Cpu.quiet_of_accessed (Cpu.translateEach_spec _ readDesc _ _).1).exclusive
  rw [Cpu.setExclusiveMonitor] at h
  split at h
  · next c' hc =>
    rw [hc] at hkept
    rw [hkept] at h
    cases h
  · next pas c' hc =>
    obtain rfl := Option.some.inj h
    rfl

theorem reserving_ldxp (rt rt2 rn elemSize : Nat) (helem : elemSize = 4 ∨ elemSize = 8) :
    (reserving.loadExclusivePair fivePort rt rt2 rn 0 elemSize).2.cpu.exclusive ≠
      reserving.cpu.exclusive := by
  have halign : reserving.cpu.maybeTakeDataAlignmentFault (fivePort.readDesc reserving.bus)
      (fivePort.hasRam reserving.bus) 0 (elemSize * 2) .read true = none := by
    rcases helem with rfl | rfl <;> rfl
  have hhi : (0 : U64) + BitVec.ofNat 64 elemSize = BitVec.ofNat 64 elemSize := BitVec.zero_add _
  simp only [Core.loadExclusivePair, reserving_spAligned, halign,
    reserving_mmuRead rn 0 elemSize helem (.inl rfl), hhi,
    reserving_mmuRead rn _ elemSize helem (.inr rfl)]
  intro h
  have hsize := setExclusiveMonitor_size h
  rcases helem with rfl | rfl <;> cases hsize

theorem reserving_stxp (rs rn elemSize : Nat) (first second : U64)
    (helem : elemSize = 4 ∨ elemSize = 8) :
    (reserving.storeExclusivePair fivePort rs rn 0 first second elemSize).2.cpu.exclusive =
      none := by
  have halign : reserving.cpu.maybeTakeDataAlignmentFault (fivePort.readDesc reserving.bus)
      (fivePort.hasRam reserving.bus) 0 (elemSize * 2) .write true = none := by
    rcases helem with rfl | rfl <;> rfl
  have hcheck : reserving.cpu.checkExclusiveMonitor (fivePort.readDesc reserving.bus) 0
      (elemSize * 2) = (some false, reserving.cpu) := by
    rcases helem with rfl | rfl <;> rfl
  simp only [Core.storeExclusivePair, Core.storeExclusiveWith, reserving_spAligned, halign, hcheck]
  exact Core.setReg_exclusive _ _ _

theorem enterSyncException_taken (c : Cpu) (faultPc : U64) (ec iss : U32) (farValid : Bool)
    (far : U64) :
    (c.enterSyncException faultPc ec iss farValid far).exceptionTakenThisStep = true := by
  rw [Cpu.enterSyncException]
  split <;> rfl

/-- The CASP of `reserving` keeps the monitor, raises nothing and loads Rs. -/
theorem reserving_casp_spec (rs rt rn elemSize : Nat) (helem : elemSize = 4 ∨ elemSize = 8) :
    (reserving.compareAndSwapPair fivePort rs rt rn elemSize).2.cpu.exclusive =
        reserving.cpu.exclusive ∧
      (reserving.compareAndSwapPair fivePort rs rt rn elemSize).2.cpu.exceptionTakenThisStep =
        false ∧
      (rs < 31 → (reserving.compareAndSwapPair fivePort rs rt rn elemSize).2.cpu.regs rs = 5) := by
  have hflag : ∀ (c : Cpu) (i : Nat) (value : U64),
      (c.setReg i value).exceptionTakenThisStep = c.exceptionTakenThisStep := by
    intro c i value
    rw [Cpu.setReg]
    split <;> rfl
  rw [reserving_casp rs rt rn elemSize helem]
  refine ⟨?_, ?_, fun hrs => ?_⟩
  · exact (Core.setReg_exclusive _ _ _).trans (Core.setReg_exclusive _ _ _)
  · exact (hflag _ _ _).trans (hflag _ _ _)
  · have hvalue :
      (if elemSize = 8 then (5 : U64) else ((5 : U64).setWidth 32).setWidth 64) = 5 := by
      split <;> rfl
    have hfirst : (reserving.cpu.setRegSized rs 5 elemSize).regs rs = 5 := by
      rw [Cpu.setRegSized, hvalue, Cpu.setReg, if_neg (by omega)]
      exact Function.update_self rs 5 _
    show ((reserving.cpu.setRegSized rs 5 elemSize).setRegSized (rs + 1) 5 elemSize).regs rs = 5
    rw [Cpu.setRegSized, Cpu.setReg]
    split
    · exact hfirst
    · exact (Function.update_of_ne (by omega) _ _).trans hfirst

/-- A word that the mask of CASP takes although the table does not. -/
theorem not_conforms (h : x.PairWithZero ∨ x.OddPair) : ¬ x.Conforms := by
  intro hc
  have hmem := (hc Unit fivePort (fun _ s => (false, s)) reserving).1
  have helem : elemSizeOfCode x.size = 4 ∨ elemSizeOfCode x.size = 8 := by
    rw [elemSizeOfCode]
    split
    · exact .inr rfl
    · exact .inl rfl
  have hstep : reserving.stepLoadStore fivePort (fun _ s => (false, s)) x.insn =
      (reserving.compareAndSwapPair fivePort x.rs x.rt (fieldRn x.insn)
        (elemSizeOfCode x.size)).2 := by
    have hfields : x.o2 = false ∧ x.o1 = true ∧ x.rt2 = 31 := by
      rcases h with ⟨ho2, ho1, -, hones⟩ | ⟨ho2, ho1, -, hones, -⟩
      · exact ⟨ho2, ho1, hones⟩
      · exact ⟨ho2, ho1, hones⟩
    obtain ⟨ho2, ho1, hones⟩ := hfields
    rw [step_eq, ho2, ho1, decide_eq_true hones]
    rfl
  obtain ⟨hmonitor, hflag, hregs⟩ :=
    reserving_casp_spec x.rs x.rt (fieldRn x.insn) (elemSizeOfCode x.size) helem
  rw [← hstep] at hmonitor hflag hregs
  have hundefined : reserving.stepLoadStore fivePort (fun _ s => (false, s)) x.insn ≠
      reserving.undefined := by
    intro heq
    rw [heq] at hflag
    exact Bool.noConfusion (hflag.symm.trans (enterSyncException_taken _ _ _ _ _ _))
  rw [architectural] at hmem
  rcases h with ⟨ho2, ho1, hsize, hones⟩ | ⟨ho2, ho1, hsize, hones, hodd⟩
  · have hlt : x.size < 4 := by
      rw [size_eq]
      have h1 := Bool.toNat_lt (x.insn.getLsbD 31)
      have h0 := Bool.toNat_lt (x.insn.getLsbD 30)
      omega
    have hpow : 2 ^ x.size = 4 ∨ 2 ^ x.size = 8 := by
      rcases (by omega : x.size = 2 ∨ x.size = 3) with h | h <;> rw [h]
      · exact .inl rfl
      · exact .inr rfl
    have htable : x.a64Op = some (if x.l then .ldxp (2 ^ x.size) else .stxp (2 ^ x.size)) := by
      rw [a64Op, ho2, ho1]
      exact if_pos hsize
    rw [htable] at hmem
    cases hl : x.l with
    | true =>
      rw [hl] at hmem
      rcases List.mem_cons.1 hmem with heq | hmem
      · -- LDXP sets a monitor of its own
        have hset := reserving_ldxp x.rt x.rt2 (fieldRn x.insn) (2 ^ x.size) hpow
        have hread : (reserving.execOp fivePort (fun _ s => (false, s)) x.insn
            (.ldxp (2 ^ x.size))).2 = (reserving.loadExclusivePair fivePort x.rt x.rt2
              (fieldRn x.insn) 0 (2 ^ x.size)).2 := by
          rw [← reserving_spOrReg (fieldRn x.insn)]
          rfl
        rw [heq] at hmonitor
        exact hset ((congrArg (·.cpu.exclusive) hread).symm.trans hmonitor)
      · by_cases hsbo : (x.shouldBeOne (.ldxp (2 ^ x.size))).all (· = 31) = true
        · simp only [if_true, if_pos hsbo] at hmem
          cases hmem
        · simp only [if_true, if_neg hsbo] at hmem
          rcases List.mem_cons.1 hmem with heq | hmem
          · exact hundefined heq
          · have hrs : x.rs < 31 := by
              have hle : x.rs ≤ 31 := by
                rw [rs, fieldRs, BitVec.toNat_and]
                exact Nat.and_le_right
              have hne : x.rs ≠ 31 := fun h => hsbo (by simp [shouldBeOne, h])
              omega
            have hfive := hregs hrs
            rw [List.mem_singleton.1 hmem] at hfive
            cases (reserving_spOrReg x.rs).symm.trans hfive
    | false =>
      rw [hl] at hmem
      -- STXP ends the reservation
      have hclear := reserving_stxp x.rs (fieldRn x.insn) (2 ^ x.size)
        (reserving.cpu.regSized x.rt (2 ^ x.size)) (reserving.cpu.regSized x.rt2 (2 ^ x.size)) hpow
      have hwrite : (reserving.execOp fivePort (fun _ s => (false, s)) x.insn
          (.stxp (2 ^ x.size))).2 = (reserving.storeExclusivePair fivePort x.rs (fieldRn x.insn) 0
            (reserving.cpu.regSized x.rt (2 ^ x.size))
            (reserving.cpu.regSized x.rt2 (2 ^ x.size)) (2 ^ x.size)).2 := by
        rw [← reserving_spOrReg (fieldRn x.insn)]
        rfl
      have heq : reserving.stepLoadStore fivePort (fun _ s => (false, s)) x.insn =
          (reserving.execOp fivePort (fun _ s => (false, s)) x.insn (.stxp (2 ^ x.size))).2 :=
        List.mem_singleton.1 hmem
      rw [heq, hwrite, hclear] at hmonitor
      cases hmonitor
  · have htable : x.a64Op = none := by
      rw [a64Op, ho2, ho1]
      simp only [if_neg (by omega : ¬ 2 ≤ x.size)]
      exact if_neg fun h => hodd h.2
    rw [htable] at hmem
    exact hundefined (List.mem_singleton.1 hmem)

/-- In every state a word of the class does what the A64 table assigns to it, if and only
if it is no exclusive pair with XZR and no compare-and-swap of an odd pair. -/
theorem conforms_iff : x.Conforms ↔ ¬ x.PairWithZero ∧ ¬ x.OddPair := by
  constructor
  · intro hc
    exact ⟨fun h => x.not_conforms (.inl h) hc, fun h => x.not_conforms (.inr h) hc⟩
  · rintro ⟨hpair, hodd⟩
    exact x.conforms_of_agrees (x.agrees_of_not hpair hodd)

/-- LDXP X0, XZR, [X1]. -/
def ldxpIntoZero : ExclusiveWord := ⟨0xC87F7C20, by decide⟩

theorem ldxpIntoZero_runs_casp :
    decodeLoadStore ldxpIntoZero.insn = some (.casp 8) ∧ ldxpIntoZero.a64Op = some (.ldxp 8) ∧
      ¬ ldxpIntoZero.Conforms := by
  refine ⟨by decide +kernel, by decide, ?_⟩
  exact not_conforms _ (.inl (by
    refine ⟨by decide, by decide, by decide, by decide⟩))

end ExclusiveWord
end Aarchvm

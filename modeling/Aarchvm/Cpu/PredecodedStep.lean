import Aarchvm.Cpu.AddSub
import Aarchvm.Cpu.DecodeCache
import Aarchvm.Cpu.PredecodedAccess

/-!
# A step with the decode cache

What `step` does between the traps of SIMD&FP accesses and `finish_instruction`: the instruction
that `lookup_decoded` gives, and the plain functions when there is none or it returns false.
`exec_system` and the SIMD&FP part of `exec_data_processing`, which come between these, take no
word that `decode_insn` decodes, and are left out; for `exec_system` that is proved from its tests.
-/
namespace Aarchvm

open Lib

/-- `DecodedInsn`, by the functions that execute it. -/
inductive DecodedWord where
  | fallback
  | branch (d : DecodedBranch)
  | integer (d : DecodedInsn)
  | access (d : DecodedAccess)

/-- `decode_insn`. -/
def decodeWord (insn : U32) : DecodedWord :=
  match decodeBranch insn with
  | some d => .branch d
  | none =>
    match Pattern.decode predecodeCases insn with
    | some _ => .integer (decodeInsn insn)
    | none =>
      match decodeAccess insn with
      | some d => .access d
      | none => .fallback

/-! ## System words -/

/-- The words that `exec_system` tests for one by one. -/
def systemWords : List U32 :=
  [0xD500401F, 0xD500405F, 0xD500403F, 0xD50330FF, 0xD508779F, 0xD50877DF, 0xD50877BF, 0xD508871F,
   0xD508831F, 0xD508751F, 0xD508711F]

/-- Those that it tests for apart from Rt. -/
def systemRegisterWords : List U32 :=
  [0xD5087900, 0xD5087920, 0xD5031000, 0xD5031020, 0xD50B7380, 0xD50B73A0, 0xD50B73C0, 0xD50B73E0,
   0xD50B7700, 0xD50B7740, 0xD52B7760, 0xD52B7720, 0xD5088720, 0xD5088320, 0xD50887A0, 0xD50883A0,
   0xD5088760, 0xD5088360, 0xD50887E0, 0xD50883E0, 0xD5088740, 0xD5088340, 0xD50B7520, 0xD5087620,
   0xD50B7A20, 0xD50B7B20, 0xD50B7C20, 0xD50B7D20, 0xD50B7420, 0xD50B7E20, 0xD5087640, 0xD5087A40,
   0xD5087E40, 0xD5087800, 0xD5087820, 0xD5087840, 0xD5087860]

/-- The tests of `exec_system` on a word: besides these the hints, DMB, DSB, ISB and CLREX, MSR of a
PSTATE field, MRS and MSR. -/
def systemTests : List (Pattern 32) :=
  ⟨0xFFFFF01F, 0xD503201F⟩ ::
    [0xD50330BF, 0xD503309F, 0xD50330DF, 0xD503305F].map (⟨0xFFFFF0FF, ·⟩) ++
    systemWords.map (⟨0xFFFFFFFF, ·⟩) ++ systemRegisterWords.map (⟨0xFFFFFFE0, ·⟩) ++
    [⟨0xFFF8E01F, 0xD500401F⟩, ⟨0xFFE00000, 0xD5200000⟩, ⟨0xFFE00000, 0xD5000000⟩]

/-- No word that passes a test of `exec_system` is predecoded. -/
theorem decodeWord_of_system {insn : U32} (h : ∃ p ∈ systemTests, p.Matches insn = true) :
    decodeWord insn = .fallback := by
  have hbranch : ∀ p ∈ systemTests, ∀ c ∈ branchCases, c.1.Conflicts p = true := by decide +kernel
  have hinteger : ∀ p ∈ systemTests, ∀ c ∈ predecodeCases, c.1.Conflicts p = true := by
    decide +kernel
  have haccess : ∀ p ∈ systemTests, ∀ c ∈ accessCases, c.1.Conflicts p = true := by decide +kernel
  obtain ⟨p, hp, hmatch⟩ := h
  rw [decodeWord, decodeBranch, Pattern.decode_eq_none (hbranch p hp) hmatch,
    Pattern.decode_eq_none (hinteger p hp) hmatch, decodeAccess,
    Pattern.decode_eq_none (haccess p hp) hmatch]
  rfl

namespace VecCore

variable {β : Type} (port : BusPort β) (s : VecCore β)

/-- `exec_decoded`, which `step` calls itself for most kinds first; `none` when it returns
false. -/
def execDecodedWord : DecodedWord → Option (VecCore β)
  | .fallback => none
  | .branch d => some (s.setCpu (s.cpu.execDecodedBranch d))
  | .integer d => (s.cpu.execDecoded d).map s.setCpu
  | .access d => some (s.execDecodedAccess port d)

/-- `exec_branch`, `exec_data_processing`, `exec_load_store`, and the Undefined exception. -/
def execPlain (insn : U32) : VecCore β :=
  match s.cpu.execBranch insn with
  | some c => s.setCpu c
  | none =>
    match s.cpu.execDataProcessing insn with
    | some c => s.setCpu c
    | none =>
      match s.execLoadStore port insn with
      | (true, s') => s'
      | (false, s') => s'.setCpu s'.cpu.undefined

/-- `step` with what `lookup_decoded` gave. -/
def execCached (decoded : Option DecodedWord) (insn : U32) : VecCore β :=
  match decoded.bind (s.execDecodedWord port) with
  | some s' => s'
  | none => s.execPlain port insn

end VecCore

/-! ## Integer words -/

/-- The kind that `decode_insn` has for an integer body. -/
def IntegerOp.kind : IntegerOp → DecodedKind
  | .movz | .movk | .movn => .movWide
  | .addSubImmediate _ => .addSubImm
  | .addSubShifted _ => .addSubShifted
  | .logicalShifted => .logicalShifted
  | .logicalImmediate => .logicalImm
  | .bitfield => .bitfield
  | _ => .fallback

/-- Each class of `decode_insn` meets the same tests in `exec_data_processing`. -/
theorem integerCases_left : ∀ c ∈ predecodeCases,
    (Pattern.left c.1 integerCases).map (fun e => (e.1, e.2.kind)) =
      Pattern.left c.1 predecodeCases := by
  decide +kernel

/-- Bit 30 tells a sum from a difference. -/
theorem integerCases_sub : ∀ e ∈ integerCases, ∀ isSub : Bool,
    e.2 = .addSubImmediate isSub ∨ e.2 = .addSubShifted isSub →
      e.1.mask.getLsbD 30 = true ∧ e.1.tag.getLsbD 30 = isSub := by
  decide +kernel

theorem predecodeCases_movWide : ∀ c ∈ predecodeCases, c.2 = .movWide →
    c.1.Implies ArithmeticClass.moveWide.pattern = true := by
  decide +kernel

/-- No integer test takes a load or a store. -/
theorem integerCases_access : ∀ c ∈ accessCases, ∀ e ∈ integerCases,
    e.1.Conflicts c.1 = true := by
  decide +kernel

namespace Cpu

variable (c : Cpu)

theorem isSub_eq {insn : U32} {op : IntegerOp} {isSub : Bool}
    (hop : Pattern.decode integerCases insn = some op)
    (hsub : op = .addSubImmediate isSub ∨ op = .addSubShifted isSub) :
    insn.getLsbD 30 = isSub := by
  obtain ⟨p, hp, hmatch⟩ := Pattern.mem_of_decode hop
  obtain ⟨hmask, htag⟩ := integerCases_sub _ hp isSub hsub
  have hbit := congrArg (BitVec.getLsbD · 30) (Pattern.matches_iff.1 hmatch)
  simp only [BitVec.getLsbD_and] at hbit
  rw [hmask, htag, Bool.and_true] at hbit
  exact hbit

theorem execDecoded_logicalShifted {insn : U32}
    (hpre : Pattern.decode predecodeCases insn = some .logicalShifted) :
    c.execDecoded (decodeInsn insn) = c.execIntegerOp insn .logicalShifted := by
  rw [decodeInsn, hpre, execIntegerOp, execLogicalShifted]
  dsimp only
  split <;> rfl

/-- A predecoded body that runs is the plain one. -/
theorem execDecoded_eq {insn : U32} {kind : DecodedKind}
    (hpre : Pattern.decode predecodeCases insn = some kind) :
    c.execDecoded (decodeInsn insn) = none ∨
      c.execDecoded (decodeInsn insn) = c.execDataProcessing insn := by
  obtain ⟨op, hop, hkind⟩ := Pattern.decode_agree_of_classes integerCases_left hpre
  have hplain : c.execDataProcessing insn = c.execIntegerOp insn op := by
    rw [execDataProcessing, hop]
    rfl
  rw [hplain]
  have hmove : kind = .movWide →
      c.execDecoded (decodeInsn insn) = c.execIntegerOp insn op := by
    rintro rfl
    obtain ⟨p, hp, hmatch⟩ := Pattern.mem_of_decode hpre
    have hclass := Pattern.matches_of_implies (predecodeCases_movWide _ hp rfl) hmatch
    obtain ⟨hfirst, hbody⟩ := decode_moveWide hclass
    have hopc : bitField insn 29 2 ≠ 1 := by
      intro hone
      rw [hpre, if_pos hone] at hfirst
      cases hfirst
    rw [hop, Option.some.injEq] at hbody
    rw [hbody]
    exact c.execDecoded_movWide hopc hpre
  cases op with
  | movz => exact .inr (hmove hkind.symm)
  | movk => exact .inr (hmove hkind.symm)
  | movn => exact .inr (hmove hkind.symm)
  | addSubImmediate isSub =>
    have hsub := isSub_eq hop (.inl rfl)
    subst hkind
    exact .inr (hsub ▸ c.execDecoded_addSubImm hpre)
  | addSubShifted isSub =>
    have hsub := isSub_eq hop (.inr rfl)
    subst hkind
    exact .inr (hsub ▸ c.execDecoded_addSubShifted hpre)
  | logicalShifted =>
    subst hkind
    exact .inr (c.execDecoded_logicalShifted hpre)
  | logicalImmediate =>
    subst hkind
    exact .inr (c.execDecoded_logicalImm hpre)
  | bitfield =>
    subst hkind
    exact .inr (c.execDecoded_bitfield hpre)
  | _ =>
    subst hkind
    exact .inl (c.execDecoded_of_fallback hpre)

end Cpu

/-! ## Every word -/

/-- The predecoded access of the word leaves its width to the bus. -/
def TrustsBus (insn : U32) : Bool := (decodeAccess insn).any fun d => decide d.TrustsBus

namespace VecCore

variable {β : Type} (port : BusPort β) (s : VecCore β)

/-- Executing the decoded word and executing the word are the same. -/
theorem execCached_decodeWord (insn : U32) (hport : TrustsBus insn = true → port.Sized) :
    s.execCached port (some (decodeWord insn)) insn = s.execPlain port insn := by
  have hbranch := s.cpu.execDecodedBranch_eq insn
  rw [execCached, Option.bind_some, decodeWord]
  cases hb : decodeBranch insn with
  | some d =>
    rw [hb] at hbranch
    rw [execPlain, ← hbranch]
    rfl
  | none =>
    rw [hb] at hbranch
    cases hpre : Pattern.decode predecodeCases insn with
    | some kind =>
      dsimp only
      rw [execDecodedWord]
      rcases s.cpu.execDecoded_eq hpre with hnone | hsame
      · rw [hnone]
        rfl
      · rw [execPlain, ← hbranch, hsame]
        cases hdata : s.cpu.execDataProcessing insn with
        | some c => rfl
        | none => rfl
    | none =>
      cases ha : decodeAccess insn with
      | none => rfl
      | some d =>
        obtain ⟨form, hform, -⟩ := Option.bind_eq_some_iff.1 ha
        obtain ⟨p, hp, hmatch⟩ := Pattern.mem_of_decode hform
        have hdata : s.cpu.execDataProcessing insn = none := by
          rw [Cpu.execDataProcessing, Pattern.decode_eq_none (integerCases_access _ hp) hmatch]
          rfl
        have hload := execDecodedAccess_eq s ha fun htrusts => hport (by
          rw [TrustsBus, ha, Option.any_some]
          exact decide_eq_true htrusts)
        rw [execPlain, ← hbranch, hdata, hload]
        rfl

end VecCore

/-! ## Every run -/

/-- What happens to a CPU and its decode cache. -/
inductive CachedOp (β : Type) where
  /-- `step` executes the word it fetched. -/
  | word (va pa : U64) (insn : U32)
  /-- The cache is invalidated, told of a write, or switched on or off. -/
  | cache (op : InsnCache.Op)
  /-- Whatever else changes the CPU and the bus, such as a fetch, an interrupt or a device. -/
  | other (change : VecCore β → VecCore β)

/-- A CPU with its decode cache. -/
structure CachedCore (β : Type) where
  core : VecCore β
  cache : InsnCache DecodedWord

section Runs

variable {β : Type} (port : BusPort β)

def CachedCore.step (m : CachedCore β) : CachedOp β → CachedCore β
  | .word va pa insn =>
    let (decoded, cache) := m.cache.lookupDecoded decodeWord va pa insn
    ⟨m.core.execCached port decoded insn, cache⟩
  | .cache op => { m with cache := m.cache.step decodeWord op }
  | .other change => { m with core := change m.core }

/-- The same without a decode cache. -/
def VecCore.stepPlain (s : VecCore β) : CachedOp β → VecCore β
  | .word _ _ insn => s.execPlain port insn
  | .cache _ => s
  | .other change => change s

namespace CachedCore

variable {port} {m : CachedCore β}

theorem sound_step (h : m.cache.Sound decodeWord) (op : CachedOp β) :
    (m.step port op).cache.Sound decodeWord := by
  cases op with
  | word va pa insn => exact (InsnCache.lookupDecoded_sound h va pa insn).2
  | cache op => exact InsnCache.sound_step m.cache op h
  | other change => exact h

/-- A step with a sound cache is the step without. -/
theorem core_step (h : m.cache.Sound decodeWord) {op : CachedOp β}
    (hport : ∀ va pa insn, op = .word va pa insn → TrustsBus insn = true → port.Sized) :
    (m.step port op).core = m.core.stepPlain port op := by
  cases op with
  | word va pa insn =>
    have hlookup := (InsnCache.lookupDecoded_sound h va pa insn).1
    change m.core.execCached port (m.cache.lookupDecoded decodeWord va pa insn).1 insn =
      m.core.execPlain port insn
    rw [hlookup]
    split
    · exact m.core.execCached_decodeWord port insn (hport va pa insn rfl)
    · rfl
  | cache op => rfl
  | other change => rfl

theorem core_run {ops : List (CachedOp β)} (h : m.cache.Sound decodeWord)
    (hport : ∀ va pa insn, .word va pa insn ∈ ops → TrustsBus insn = true → port.Sized) :
    (Run.run (step port) m ops).core = Run.run (VecCore.stepPlain port) m.core ops := by
  induction ops generalizing m with
  | nil => rfl
  | cons op ops ih =>
    have hcore : (m.step port op).core = m.core.stepPlain port op :=
      core_step h fun va pa insn hop => hport va pa insn (hop ▸ List.mem_cons_self)
    rw [Run.run_cons, Run.run_cons, ← hcore]
    exact ih (sound_step h op) fun va pa insn hop =>
      hport va pa insn (List.mem_cons_of_mem op hop)

/-- A CPU with its decode cache runs as one without, whatever the cache is told and whether it is
on or off; what an access whose width is left to the bus needs is a bus that keeps to it. -/
theorem predecode_invisible (port : BusPort β) (s : VecCore β) (blank : DecodedWord)
    (ops : List (CachedOp β))
    (hport : ∀ va pa insn, .word va pa insn ∈ ops → TrustsBus insn = true → port.Sized) :
    (Run.run (step port) ⟨s, InsnCache.initial blank⟩ ops).core =
      Run.run (VecCore.stepPlain port) s ops :=
  core_run (InsnCache.sound_initial blank) hport

/-- A CPU after reset on a bus with one RAM. -/
def onRam : VecCore Ram where
  core :=
    { cpu := Cpu.reset 0 0 0
      bus := Ram.zeroed 0x2000
      writes := [] }
  qregs := fun _ => ⟨0, 0⟩

/-- STRB W0, [X1] twice, with a write to its page and the cache switched off between. -/
def strbTwice : List (CachedOp Ram) :=
  [.word 0x1000 0x1000 0x39000020, .cache (.codeWrite 0 0x1000 0x1000 4),
    .cache (.setPredecodeEnabled false), .word 0x1000 0x1000 0x39000020]

theorem predecode_invisible_strb :
    (Run.run (step ramPort) ⟨onRam, InsnCache.initial .fallback⟩ strbTwice).core =
      Run.run (VecCore.stepPlain ramPort) onRam strbTwice :=
  predecode_invisible ramPort onRam .fallback strbTwice fun _ _ _ _ _ => ramPort_sized

/-- A bus that answers a byte with nine bits. -/
def nineBitPort : BusPort Ram := { ramPort with read := fun r _ _ => (some 0x105, r) }

/-- LDRB W0, [X1], #1 on it: only the predecoded access keeps the ninth bit. -/
example :
    (onRam.execCached nineBitPort (some (decodeWord 0x38401420)) 0x38401420).cpu.reg 0 = 0x105 ∧
      (onRam.execPlain nineBitPort 0x38401420).cpu.reg 0 = 0x5 := by
  decide +kernel

end CachedCore

end Runs
end Aarchvm

import Aarchvm.Cpu.Exception
import Aarchvm.Cpu.WalkPage
import Aarchvm.Lib.Fields

/-!
# TLB maintenance

The TLBI instructions of `exec_system` and their broadcast. Every form, inner-shareable
or not, runs on the executing CPU and is announced to all others. What an operation
names is stated with block numbers, as page counts; the code compares masked tags.
-/
namespace Aarchvm

/-- A TLBI operation as the handlers receive it. -/
inductive Tlbi where
  | vmalle1
  | vae1 (operand : U64) (allAsids : Bool)
  | aside1 (asid : U16)
  deriving DecidableEq, Repr

/-- `reg`. -/
def Cpu.reg (c : Cpu) (idx : Nat) : U64 := if 31 ≤ idx then 0 else c.regs idx

/-- The TLBI branches of `exec_system`, with the value of Xt. -/
def decodeTlbi (insn : U32) (xt : U64) : Option Tlbi :=
  if insn = 0xD508871F ∨ insn = 0xD508831F then some .vmalle1
  else if insn &&& 0xFFFFFFE0 = 0xD5088720 ∨ insn &&& 0xFFFFFFE0 = 0xD5088320 ∨
      insn &&& 0xFFFFFFE0 = 0xD50887A0 ∨ insn &&& 0xFFFFFFE0 = 0xD50883A0 ∨
      insn &&& 0xFFFFFFE0 = 0xD5088760 ∨ insn &&& 0xFFFFFFE0 = 0xD5088360 ∨
      insn &&& 0xFFFFFFE0 = 0xD50887E0 ∨ insn &&& 0xFFFFFFE0 = 0xD50883E0 then
    some (.vae1 xt (insn &&& 0x40 != 0))
  else if insn &&& 0xFFFFFFE0 = 0xD5088740 ∨ insn &&& 0xFFFFFFE0 = 0xD5088340 then
    some (.aside1 (Cpu.tlbiOperandAsid xt))
  else none

namespace Cpu

/-- What `exec_system` does for the executing CPU, and `notify_tlbi_vmalle1`, `notify_tlbi_vae1`
and `notify_tlbi_aside1` for the others. -/
def notifyTlbi (c : Cpu) : Tlbi → Cpu
  | .vmalle1 => c.tlbiVmalle1
  | .vae1 operand allAsids => c.tlbiVae1 operand allAsids
  | .aside1 asid => { c with tlb := c.tlb.flushAsid (asid &&& SystemRegisters.mmuAsidMask) }

/-- A TLBI word executed by CPU `i`: at EL0 it is undefined, else every CPU is served. `none` for
other words. -/
def execTlbi (cpus : Nat → Cpu) (i : Nat) (insn : U32) : Option (Nat → Cpu) :=
  (decodeTlbi insn ((cpus i).reg (insn &&& 0x1F).toNat)).map fun op =>
    if (cpus i).sysregs.inEl0 then
      Function.update cpus i ((cpus i).enterSyncException ((cpus i).pc - 4) 0 0 false 0)
    else fun j => (cpus j).notifyTlbi op

end Cpu

/-! ## The words -/

/-- The TLBI instructions of the EL1&0 regime. -/
inductive A64.TlbiInsn where
  | vmalle1 | vae1 | aside1 | vaae1 | vale1 | vaale1
  deriving DecidableEq, Repr

namespace A64.TlbiInsn

open Lib

def op2 : TlbiInsn → Nat
  | vmalle1 => 0
  | vae1 => 1
  | aside1 => 2
  | vaae1 => 3
  | vale1 => 5
  | vaale1 => 7

/-- SYS #0, C8, Cm, #op2, Xt, where Cm is C3 for the inner-shareable form and C7 for the other.
VMALLE1 has 31 for Xt. -/
def pattern (t : TlbiInsn) (innerShareable : Bool) : Pattern 32 :=
  .ofFields 32 ([⟨16, 16, 0xD508⟩, ⟨12, 4, 8⟩, ⟨8, 4, if innerShareable then 3 else 7⟩,
    ⟨5, 3, t.op2⟩] ++ if t = vmalle1 then [⟨0, 5, 31⟩] else [])

/-- The operation, with Xt: its bits 43:0 are VA[55:12] and its bits 63:48 the ASID, of which ASIDs
of 8 bits leave bits 55:48. -/
def operation (t : TlbiInsn) (xt : U64) : Tlbi :=
  match t with
  | vmalle1 => .vmalle1
  | vae1 | vale1 => .vae1 xt false
  | vaae1 | vaale1 => .vae1 xt true
  | aside1 => .aside1 ((xt.extractLsb' 48 8).setWidth 16)

end A64.TlbiInsn

theorem tlbiOperandAsid_eq (xt : U64) :
    Cpu.tlbiOperandAsid xt = (xt.extractLsb' 48 8).setWidth 16 := by
  apply BitVec.eq_of_getLsbD_eq
  intro k hk
  have hmask : ∀ k < 16, SystemRegisters.mmuAsidMask.getLsbD k = decide (k < 8) := by decide
  rw [Cpu.tlbiOperandAsid, BitVec.getLsbD_and, hmask k hk, BitVec.getLsbD_setWidth,
    BitVec.getLsbD_ushiftRight, BitVec.getLsbD_setWidth, BitVec.getLsbD_extractLsb']
  rw [decide_eq_true hk, Bool.true_and, Bool.true_and, Bool.and_comm]

/-- A word with a register operand is decoded by the bits above the register. -/
theorem decodeTlbi_of_masked {insn c : U32} (h : insn &&& 0xFFFFFFE0 = c) (xt : U64)
    (hc : c ≠ 0xD5088700 ∧ c ≠ 0xD5088300) :
    decodeTlbi insn xt = decodeTlbi c xt := by
  have hmasked : c &&& 0xFFFFFFE0 = c := by
    rw [← h, BitVec.and_assoc, show (0xFFFFFFE0 : U32) &&& 0xFFFFFFE0 = 0xFFFFFFE0 from rfl]
  have hall : insn &&& 0x40 = c &&& 0x40 := by
    rw [← h, BitVec.and_assoc, show (0xFFFFFFE0 : U32) &&& 0x40 = 0x40 from rfl]
  have hfirst : ∀ x : U32, x &&& 0xFFFFFFE0 = c → ¬ (x = 0xD508871F ∨ x = 0xD508831F) := by
    rintro x hx (rfl | rfl)
    · exact hc.1 hx.symm
    · exact hc.2 hx.symm
  unfold decodeTlbi
  rw [if_neg (hfirst insn h), if_neg (hfirst c hmasked), hmasked, h, hall]

/-- The words are those of the encodings, with their operation and operand. -/
theorem decodeTlbi_eq_some_iff (insn : U32) (xt : U64) (op : Tlbi) :
    decodeTlbi insn xt = some op ↔ ∃ (t : A64.TlbiInsn) (innerShareable : Bool),
      (t.pattern innerShareable).Matches insn = true ∧ op = t.operation xt := by
  constructor
  · intro h
    have hmatch : ∀ (t : A64.TlbiInsn) (innerShareable : Bool), t ≠ .vmalle1 →
        insn &&& 0xFFFFFFE0 = (t.pattern innerShareable).tag →
          (t.pattern innerShareable).Matches insn = true := by
      intro t innerShareable ht heq
      have hmask : (t.pattern innerShareable).mask = 0xFFFFFFE0 := by
        revert ht
        cases t <;> cases innerShareable <;> decide
      rw [Lib.Pattern.matches_iff, hmask, heq]
    unfold decodeTlbi at h
    split_ifs at h with hall hva hasid
    · cases h
      rcases hall with rfl | rfl
      · exact ⟨.vmalle1, false, by decide, rfl⟩
      · exact ⟨.vmalle1, true, by decide, rfl⟩
    · cases h
      have hpage : ∀ (t : A64.TlbiInsn) (innerShareable all : Bool), t ≠ .vmalle1 →
          insn &&& 0xFFFFFFE0 = (t.pattern innerShareable).tag →
          ((t.pattern innerShareable).tag &&& 0x40 != 0) = all → t.operation xt = .vae1 xt all →
          ∃ (t : A64.TlbiInsn) (innerShareable : Bool),
            (t.pattern innerShareable).Matches insn = true ∧
              Tlbi.vae1 xt (insn &&& 0x40 != 0) = t.operation xt := by
        intro t innerShareable all ht heq hbit hop
        refine ⟨t, innerShareable, hmatch t innerShareable ht heq, ?_⟩
        have hall : insn &&& 0x40 = (t.pattern innerShareable).tag &&& 0x40 := by
          rw [← heq, BitVec.and_assoc, show (0xFFFFFFE0 : U32) &&& 0x40 = 0x40 from rfl]
        rw [hall, hbit, hop]
      rcases hva with heq | heq | heq | heq | heq | heq | heq | heq
      · exact hpage .vae1 false false (by decide) heq rfl rfl
      · exact hpage .vae1 true false (by decide) heq rfl rfl
      · exact hpage .vale1 false false (by decide) heq rfl rfl
      · exact hpage .vale1 true false (by decide) heq rfl rfl
      · exact hpage .vaae1 false true (by decide) heq rfl rfl
      · exact hpage .vaae1 true true (by decide) heq rfl rfl
      · exact hpage .vaale1 false true (by decide) heq rfl rfl
      · exact hpage .vaale1 true true (by decide) heq rfl rfl
    · cases h
      rw [tlbiOperandAsid_eq]
      rcases hasid with heq | heq
      · exact ⟨.aside1, false, hmatch .aside1 false (by decide) heq, rfl⟩
      · exact ⟨.aside1, true, hmatch .aside1 true (by decide) heq, rfl⟩
  · rintro ⟨t, innerShareable, hmatch, rfl⟩
    rw [Lib.Pattern.matches_iff] at hmatch
    cases t with
    | vmalle1 =>
      have hinsn : insn = (A64.TlbiInsn.vmalle1.pattern innerShareable).tag := by
        have hmask : (A64.TlbiInsn.vmalle1.pattern innerShareable).mask = BitVec.allOnes 32 := by
          cases innerShareable <;> rfl
        rwa [hmask, BitVec.and_allOnes] at hmatch
      rw [hinsn]
      cases innerShareable <;> rfl
    | aside1 =>
      rw [A64.TlbiInsn.operation, ← tlbiOperandAsid_eq]
      cases innerShareable <;>
      · rw [decodeTlbi_of_masked hmatch xt (by decide)]
        rfl
    | vae1 | vale1 | vaae1 | vaale1 =>
      cases innerShareable <;>
      · rw [decodeTlbi_of_masked hmatch xt (by decide)]
        rfl

/-- A TLBI word executed at EL1 has its operation served on every CPU, with the value of Xt. -/
theorem execTlbi_of_matches {cpus : Nat → Cpu} {i : Nat} {insn : U32}
    (hel1 : (cpus i).sysregs.inEl0 = false) {t : A64.TlbiInsn} {innerShareable : Bool}
    (h : (t.pattern innerShareable).Matches insn = true) :
    Cpu.execTlbi cpus i insn = some fun j =>
      (cpus j).notifyTlbi (t.operation ((cpus i).reg (Lib.bitField insn 0 5))) := by
  have hrt : (insn &&& 0x1F).toNat = Lib.bitField insn 0 5 := by
    rw [Lib.bitField_eq, BitVec.toNat_and, Nat.shiftRight_zero]
    exact Nat.and_two_pow_sub_one_eq_mod insn.toNat 5
  have hdecoded := (decodeTlbi_eq_some_iff insn ((cpus i).reg (Lib.bitField insn 0 5)) _).2
    ⟨t, innerShareable, h, rfl⟩
  unfold Cpu.execTlbi
  rw [hrt, hdecoded, Option.map_some, hel1, if_neg Bool.false_ne_true]

/-! ## What an operation names -/

/-- The block of a page, in blocks of the level's size. -/
def blockNumber (level : Nat) (vaPage : U64) : Nat := vaPage.toNat / 512 ^ (3 - level)

/-- VA[55:12] of an operand. -/
def Tlbi.operandPage (operand : U64) : U64 := operand.extractLsb' 0 44 |>.setWidth 64

namespace Tlbi

/-- The entries that an operation is to remove. By address: the mapping of the page, whatever its
size, if it is global or has the ASID; with all ASIDs, any mapping of the page. By ASID: what is
not global and has the ASID. -/
def Names : Tlbi → TlbEntry → Prop
  | vmalle1, _ => True
  | vae1 operand allAsids, e =>
    blockNumber e.attrs.level e.vaPage = blockNumber e.attrs.level (operandPage operand) ∧
      (allAsids = true ∨ e.attrs.globalEntry = true ∨ e.asid = Cpu.tlbiOperandAsid operand)
  | aside1 asid, e => e.attrs.globalEntry = false ∧ e.asid = asid &&& SystemRegisters.mmuAsidMask

/-- The lookups that an operation is to make fail, whatever the buffer held. -/
def Targets : Tlbi → U64 → U16 → Prop
  | vmalle1, _, _ => True
  | vae1 operand allAsids, page, asid =>
    page = operandPage operand ∧ (allAsids = true ∨ asid = Cpu.tlbiOperandAsid operand)
  | aside1 _, _, _ => False

end Tlbi

/-! ## Blocks -/

theorem tlbLevelPageBase_eq (vaPage : U64) (level : Nat) :
    tlbLevelPageBase vaPage level = vaPage &&& ~~~lowMask (9 * (3 - level)) := by
  unfold tlbLevelPageBase tlbLevelPageSpan lowMask
  by_cases h : 3 ≤ level
  · rw [if_pos h, show 9 * (3 - level) = 0 by omega]
    rfl
  · rw [if_neg h]

theorem and_not_lowMask_eq_iff {n : Nat} (h : n < 64) (a b : U64) :
    a &&& ~~~lowMask n = b &&& ~~~lowMask n ↔ a.toNat / 2 ^ n = b.toNat / 2 ^ n := by
  have hshift : a.toNat / 2 ^ n = b.toNat / 2 ^ n ↔ a >>> n = b >>> n := by
    rw [← BitVec.toNat_inj, BitVec.toNat_ushiftRight, BitVec.toNat_ushiftRight,
      Nat.shiftRight_eq_div_pow, Nat.shiftRight_eq_div_pow]
  rw [hshift]
  constructor
  · intro he
    apply BitVec.eq_of_getLsbD_eq
    intro k hk
    have hbit := congrArg (·.getLsbD (n + k)) he
    simp only [BitVec.getLsbD_and, BitVec.getLsbD_not, lowMask_getLsbD h] at hbit
    rw [BitVec.getLsbD_ushiftRight, BitVec.getLsbD_ushiftRight]
    by_cases hlt : n + k < 64
    · simpa [hlt, show ¬ n + k < n by omega] using hbit
    · rw [BitVec.getLsbD_of_ge a _ (by omega), BitVec.getLsbD_of_ge b _ (by omega)]
  · intro he
    apply BitVec.eq_of_getLsbD_eq
    intro k hk
    simp only [BitVec.getLsbD_and, BitVec.getLsbD_not, lowMask_getLsbD h]
    by_cases hlt : k < n
    · simp [hlt]
    · have hbit := congrArg (·.getLsbD (k - n)) he
      simp only [BitVec.getLsbD_ushiftRight, Nat.add_sub_cancel' (Nat.le_of_not_lt hlt)] at hbit
      rw [hbit]

/-- The masked tags are equal exactly when the pages are in one block. -/
theorem coversVaPage_iff (e : TlbEntry) (vaPage : U64) :
    e.coversVaPage vaPage = true ↔
      blockNumber e.attrs.level e.vaPage = blockNumber e.attrs.level vaPage := by
  have hpow : 512 ^ (3 - e.attrs.level) = 2 ^ (9 * (3 - e.attrs.level)) := by
    rw [show (512 : Nat) = 2 ^ 9 from rfl, ← Nat.pow_mul]
  unfold TlbEntry.coversVaPage blockNumber
  rw [beq_iff_eq, tlbLevelPageBase_eq, tlbLevelPageBase_eq, and_not_lowMask_eq_iff (by omega), hpow]

theorem operandPage_eq (operand : U64) : Tlbi.operandPage operand = operand &&& tlbPageMask := by
  apply BitVec.eq_of_getLsbD_eq
  intro k hk
  unfold Tlbi.operandPage tlbPageMask
  rw [BitVec.getLsbD_and, lowMask_getLsbD (by decide), BitVec.getLsbD_setWidth,
    BitVec.getLsbD_extractLsb', Nat.zero_add, decide_eq_true hk, Bool.true_and, Bool.and_comm]

/-! ## The places of the buffer -/

/-- A slot of a set or a hot entry. -/
inductive TlbPlace where
  | slot (set way : Nat)
  | lastFetch
  | lastData

namespace Tlb

def entryAt (t : Tlb) : TlbPlace → Option TlbEntry
  | .slot set way => t.entries set way
  | .lastFetch => t.lastFetch
  | .lastData => t.lastData

theorem entryAt_invalidate (t : Tlb) (p : TlbEntry → Bool) (place : TlbPlace) :
    (t.invalidate p).entryAt place = (t.entryAt place).filter (!p ·) := by
  cases place <;> rfl

theorem entryAt_flushAll (t : Tlb) (place : TlbPlace) :
    t.flushAll.entryAt place = (t.entryAt place).filter fun _ => false := by
  cases place <;> rfl

theorem holds_iff_entryAt (t : Tlb) (e : TlbEntry) :
    t.Holds e ↔ ∃ place, t.entryAt place = some e := by
  constructor
  · rintro (⟨set, way, h⟩ | h | h)
    · exact ⟨.slot set way, h⟩
    · exact ⟨.lastFetch, h⟩
    · exact ⟨.lastData, h⟩
  · rintro ⟨place, h⟩
    cases place with
    | slot set way => exact .inl ⟨set, way, h⟩
    | lastFetch => exact .inr (.inl h)
    | lastData => exact .inr (.inr h)

/-- A translation of the page under the ASID could use the entry: the buffer returns it, or it is
a hot entry that passes the test. -/
def Answers (t : Tlb) (vaPage : U64) (asid : U16) (e : TlbEntry) : Prop :=
  t.lookup vaPage asid = some e ∨
    (t.lastFetch = some e ∨ t.lastData = some e) ∧ e.hits vaPage asid = true

theorem Answers.spec {t : Tlb} {vaPage : U64} {asid : U16} {e : TlbEntry}
    (h : t.Answers vaPage asid e) :
    t.Holds e ∧ e.vaPage = vaPage ∧ e.matchesAsid asid = true := by
  rcases h with h | ⟨hhot, hhits⟩
  · exact lookup_spec h
  · unfold TlbEntry.hits at hhits
    rw [Bool.and_eq_true, beq_iff_eq] at hhits
    exact ⟨.inr hhot, hhits⟩

end Tlb

/-! ## Completeness and precision -/

/-- An operation on one buffer removes what it names and nothing else, so that no lookup it is to
make fail is answered. -/
structure Tlbi.Exact (op : Tlbi) (before after : Tlb) : Prop where
  kept : ∀ place e, before.entryAt place = some e → ¬ op.Names e → after.entryAt place = some e
  removed : ∀ place e, after.entryAt place = some e → before.entryAt place = some e ∧ ¬ op.Names e
  answered : ∀ page asid e, after.Answers page asid e → ¬ op.Names e
  missed : ∀ page asid, op.Targets page asid → ∀ e, ¬ after.Answers page asid e

/-- The test that each handler makes is what the operation names. -/
theorem notifyTlbi_entryAt (c : Cpu) (op : Tlbi) (place : TlbPlace) (e : TlbEntry) :
    (c.notifyTlbi op).tlb.entryAt place = some e ↔ c.tlb.entryAt place = some e ∧ ¬ op.Names e := by
  have hinvalidate : ∀ p : TlbEntry → Bool, (p e = true ↔ op.Names e) →
      ((c.tlb.invalidate p).entryAt place = some e ↔
        c.tlb.entryAt place = some e ∧ ¬ op.Names e) := by
    intro p hp
    rw [Tlb.entryAt_invalidate, Option.filter_eq_some_iff, Bool.not_eq_true',
      ← Bool.not_eq_true, hp]
  cases op with
  | vmalle1 =>
    show c.tlb.flushAll.entryAt place = some e ↔ _
    rw [Tlb.entryAt_flushAll, Option.filter_eq_some_iff]
    simp [Tlbi.Names]
  | vae1 operand allAsids =>
    have hblock := coversVaPage_iff e (Tlbi.operandPage operand)
    rw [operandPage_eq] at hblock
    cases allAsids with
    | true =>
      refine hinvalidate _ ?_
      simp [Tlbi.Names, hblock, operandPage_eq]
    | false =>
      refine hinvalidate _ ?_
      simp [Tlbi.Names, TlbEntry.matchesAsid, hblock, operandPage_eq]
  | aside1 asid =>
    refine hinvalidate _ ?_
    simp [Tlbi.Names]

theorem notifyTlbi_exact (c : Cpu) (op : Tlbi) : op.Exact c.tlb (c.notifyTlbi op).tlb := by
  have hat := notifyTlbi_entryAt c op
  have hanswered : ∀ page asid e, (c.notifyTlbi op).tlb.Answers page asid e → ¬ op.Names e := by
    intro page asid e he
    obtain ⟨place, hplace⟩ := (Tlb.holds_iff_entryAt _ e).1 he.spec.1
    exact ((hat place e).1 hplace).2
  refine ⟨fun place e hb hn => (hat place e).2 ⟨hb, hn⟩, fun place e => (hat place e).1, hanswered,
    fun page asid ht e he => hanswered page asid e he ?_⟩
  obtain ⟨-, hpage, hasid⟩ := he.spec
  cases op with
  | vmalle1 => trivial
  | vae1 operand allAsids =>
    obtain ⟨rfl, hall⟩ := ht
    refine ⟨by rw [hpage], ?_⟩
    rcases hall with hall | rfl
    · exact .inl hall
    · unfold TlbEntry.matchesAsid at hasid
      rw [Bool.or_eq_true, beq_iff_eq] at hasid
      exact .inr hasid
  | aside1 _ => exact absurd ht id

/-- A TLBI instruction at EL1, whichever form, is complete and precise on every CPU. -/
theorem tlbi_exact {cpus cpus' : Nat → Cpu} {i : Nat} {insn : U32}
    (h : Cpu.execTlbi cpus i insn = some cpus') (hel1 : (cpus i).sysregs.inEl0 = false) :
    ∃ op, decodeTlbi insn ((cpus i).reg (insn &&& 0x1F).toNat) = some op ∧
      ∀ j, op.Exact (cpus j).tlb (cpus' j).tlb := by
  unfold Cpu.execTlbi at h
  obtain ⟨op, hop, rfl⟩ := Option.map_eq_some_iff.1 h
  refine ⟨op, hop, fun j => ?_⟩
  rw [if_neg (by rw [hel1]; decide)]
  exact notifyTlbi_exact (cpus j) op

/-- A page of a 2 MiB block, cached without a global tag. -/
def blockEntry : TlbEntry where
  vaPage := 0x200
  paPage := 0x40200
  asid := 0
  attrs :=
    { level := 2, attrIndex := 0, mairAttr := 0xFF, globalEntry := false, writable := true
      userAccessible := false, executable := true, pxn := false, uxn := true
      memoryType := .normal, leafShareability := 3, walkAttrs := ⟨1, 1, 3, 40⟩ }

/-- A CPU that has cached it, with the address of the block's last page in X0. -/
def blockCpu : Cpu :=
  let c := Cpu.reset 0 0 0
  { c with regs := Function.update c.regs 0 0x3FF, tlb := Tlb.empty.insertEntry blockEntry }

/-- TLBI VAE1IS with the last page of the block removes the entry of the first page everywhere. -/
theorem tlbi_vae1is_block : ∃ cpus', Cpu.execTlbi (fun _ => blockCpu) 0 0xD5088320 = some cpus' ∧
    ∀ j place, (cpus' j).tlb.entryAt place ≠ some blockEntry := by
  refine ⟨_, rfl, fun j place h => ?_⟩
  obtain ⟨op, hop, hexact⟩ := @tlbi_exact (fun _ => blockCpu) _ 0 0xD5088320 rfl rfl
  have hnot := ((hexact j).removed place blockEntry h).2
  cases hop
  exact hnot ⟨by decide, .inr (.inr rfl)⟩

end Aarchvm

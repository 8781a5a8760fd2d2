import Aarchvm.Cpu.LoadStore
import Aarchvm.Cpu.SocPort

/-!
# Atomic read-modify-writes

What CAS, SWP, LDADD, LDCLR, LDEOR, LDSET, CASP and STXP do to RAM and to the general
registers. One that completes has exchanged the bytes it works on and loaded the old
ones; one that does not has changed neither a byte nor a register. CAS of a byte or a
halfword compares all 32 bits of its register, so the law holds of it only where the
bits above the element do not decide.
-/
namespace Aarchvm

open SocBus

/-! ## What an access leaves in the registers -/

namespace Cpu

variable {c c' c'' : Cpu}

/-- The general registers, the stack pointer apart. -/
def SameGprs (c c' : Cpu) : Prop := ∀ i < 31, c'.regs i = c.regs i

theorem SameGprs.trans (h : SameGprs c c') (h' : SameGprs c' c'') : SameGprs c c'' :=
  fun i hi => (h' i hi).trans (h i hi)

/-- No exception was entered: the program counter, the system registers and the exception
stack are as before. -/
structure NoEntry (c c' : Cpu) : Prop where
  pc : c'.pc = c.pc
  sysregs : c'.sysregs = c.sysregs
  exceptions : c'.exceptions = c.exceptions
  taken : c'.exceptionTakenThisStep = c.exceptionTakenThisStep

theorem NoEntry.refl (c : Cpu) : NoEntry c c := ⟨rfl, rfl, rfl, rfl⟩

theorem NoEntry.trans (h : NoEntry c c') (h' : NoEntry c' c'') : NoEntry c c'' :=
  ⟨h'.pc.trans h.pc, h'.sysregs.trans h.sysregs, h'.exceptions.trans h.exceptions,
    h'.taken.trans h.taken⟩

theorem Accessed.regs (h : Accessed c c') : c'.regs = c.regs := by
  have ht := h.translated
  rw [Translated] at ht
  rw [ht]

theorem Accessed.noEntry (h : Accessed c c') : NoEntry c c' := by
  have ht := h.translated
  rw [Translated] at ht
  rw [ht]
  exact ⟨rfl, rfl, rfl, rfl⟩

theorem noEntry_setReg (c : Cpu) (i : Nat) (value : U64) : NoEntry c (c.setReg i value) := by
  rw [setReg]
  split
  · exact .refl c
  · exact ⟨rfl, rfl, rfl, rfl⟩

theorem setReg_regs_congr (h : c'.regs = c.regs) (i : Nat) (value : U64) :
    (c'.setReg i value).regs = (c.setReg i value).regs := by
  rw [setReg, setReg]
  split
  · exact h
  · exact congrArg (Function.update · i value) h

theorem reg_of_regs (h : c'.regs = c.regs) (i : Nat) : c'.reg i = c.reg i := by
  rw [Cpu.reg, Cpu.reg, h]

theorem regSized_of_regs (h : c'.regs = c.regs) (i size : Nat) :
    c'.regSized i size = c.regSized i size := by
  rw [regSized, regSized, reg_of_regs h]

theorem noEntry_clearExclusiveMonitor (c : Cpu) : NoEntry c c.clearExclusiveMonitor :=
  ⟨rfl, rfl, rfl, rfl⟩

theorem saveCurrentSpToBank_regs (c : Cpu) : c.saveCurrentSpToBank.regs = c.regs := by
  rw [saveCurrentSpToBank]
  split <;> rfl

theorem sameGprs_enterSyncException (c : Cpu) (faultPc : U64) (ec iss : U32) (farValid : Bool)
    (far : U64) : SameGprs c (c.enterSyncException faultPc ec iss farValid far) := by
  intro i hi
  have hne : i ≠ 31 := by omega
  rw [enterSyncException]
  split
  · dsimp only [loadCurrentSpFromBank]
    rw [if_neg hne]
    split <;> rw [saveCurrentSpToBank_regs]
  · rfl

theorem Failed.sameGprs (h : Failed c c') : SameGprs c c' := by
  rcases h with ha | ⟨c₁, ec, iss, farValid, far, ha, -, hr⟩
  · intro i _
    rw [ha.regs]
  · intro i hi
    rw [hr.regs, sameGprs_enterSyncException c₁ _ _ _ _ _ i hi, ha.regs]

end Cpu

/-! ## Registers of the width of an element -/

/-- The function of an atomic on elements of any width. -/
def AtomicFn.result {w : Nat} (old src : BitVec w) : AtomicFn → BitVec w
  | swp => src
  | add => old + src
  | clr => old &&& ~~~src
  | eor => old ^^^ src
  | set => old ||| src

theorem setWidth_and_operandMask {n : Nat} (h : Width n) (x : U64) :
    (x &&& operandMask n).setWidth (8 * n) = x.setWidth (8 * n) := by
  have hmask : (operandMask n).setWidth (8 * n) = BitVec.allOnes (8 * n) := by
    rcases h with rfl | rfl | rfl | rfl <;> decide
  rw [BitVec.setWidth_and, hmask, BitVec.and_allOnes]

theorem AtomicFn.setWidth_apply {n : Nat} (h : Width n) (fn : AtomicFn) (old src : U64) :
    (fn.apply old src (operandMask n)).setWidth (8 * n) =
      fn.result (old.setWidth (8 * n)) (src.setWidth (8 * n)) := by
  have hle : 8 * n ≤ 64 := by
    have := h.le
    omega
  cases fn with
  | swp => rfl
  | add =>
    rw [apply, result, setWidth_and_operandMask h]
    exact BitVec.setWidth_add old src hle
  | clr =>
    rw [apply, result, BitVec.setWidth_and, setWidth_and_operandMask h]
    congr 1
    exact BitVec.setWidth_not hle
  | eor =>
    rw [apply, result, setWidth_and_operandMask h]
    exact BitVec.setWidth_xor
  | set =>
    rw [apply, result, setWidth_and_operandMask h]
    exact BitVec.setWidth_or

theorem loadLe_and_operandMask {n : Nat} (h : Width n) (data : Nat → U8) (off : Nat) :
    loadLe data off n &&& operandMask n = loadLe data off n := by
  have hmask : ∀ k < 8 * n, (operandMask n).getLsbD k = true := by
    rcases h with rfl | rfl | rfl | rfl <;> decide
  apply BitVec.eq_of_getLsbD_eq
  intro k _
  rw [BitVec.getLsbD_and, loadLe_getLsbD data off k h.le]
  by_cases hk : k < 8 * n
  · rw [hmask k hk, Bool.and_true]
  · simp [hk]

theorem masked_of_loadLe {n : Nat} (h : Width n) {v : U64} {data : Nat → U8} {off : Nat}
    (hv : v = loadLe data off n) : v &&& operandMask n = v := by
  rw [hv]
  exact loadLe_and_operandMask h data off

namespace Cpu

variable (c : Cpu) (i : Nat) {n : Nat}

theorem regSized_and_operandMask (h : Width n) :
    c.regSized i n &&& operandMask n = c.regSized i n := by
  have hones : (BitVec.setWidth 64 (BitVec.allOnes 32) : U64) = 0xFFFFFFFF := by decide
  have hnarrow : ∀ x : U64, (x.setWidth 32).setWidth 64 &&& (0xFFFFFFFF : U64) =
      (x.setWidth 32).setWidth 64 := by
    intro x
    rw [← hones, ← BitVec.setWidth_and, BitVec.and_allOnes]
  rcases h with rfl | rfl | rfl | rfl
  · exact hnarrow _
  · exact hnarrow _
  · exact hnarrow _
  · exact BitVec.and_allOnes

theorem setWidth_regSized (h : Width n) :
    (c.regSized i n).setWidth (8 * n) = (c.reg i).setWidth (8 * n) := by
  rw [regSized]
  split
  · rfl
  · have hn : 8 * n ≤ 32 := by
      rcases h with rfl | rfl | rfl | rfl <;> omega
    apply BitVec.eq_of_getLsbD_eq
    intro k hk
    rw [BitVec.getLsbD_setWidth, BitVec.getLsbD_setWidth, BitVec.getLsbD_setWidth,
      BitVec.getLsbD_setWidth]
    simp [hk, show k < 64 by omega, show k < 32 by omega]

/-- The destination of a load from RAM. -/
theorem setRegSized_loadLe (h : Width n) (data : Nat → U8) (off : Nat) :
    c.setRegSized i (loadLe data off n) n =
      c.setReg i (((loadLe data off n).setWidth (8 * n)).setWidth 64) := by
  rw [setRegSized, setWidth_loadLe data off h.le]
  split
  · rfl
  · have hn : 8 * n ≤ 32 := by
      rcases h with rfl | rfl | rfl | rfl <;> omega
    congr 1
    apply BitVec.eq_of_getLsbD_eq
    intro k hk
    rw [BitVec.getLsbD_setWidth, BitVec.getLsbD_setWidth, loadLe_getLsbD data off k h.le]
    by_cases hin : k < 8 * n
    · simp [hk, show k < 32 by omega]
    · simp [hin]

/-- A word or a doubleword register fits in its element. -/
theorem regSized_lt {k : Nat} (hk : k = 2 ∨ k = 3) :
    (c.regSized i (2 ^ k)).toNat < 2 ^ (8 * 2 ^ k) := by
  rcases hk with rfl | rfl
  · rw [regSized, if_neg (by decide), BitVec.toNat_setWidth]
    exact Nat.lt_of_le_of_lt (Nat.mod_le _ _) (BitVec.isLt _)
  · exact BitVec.isLt _

/-- A value that fits in the element is the extension of its low bits. -/
theorem setWidth_of_lt {x : U64} (hx : x.toNat < 2 ^ (8 * n)) :
    (x.setWidth (8 * n)).setWidth 64 = x := by
  apply BitVec.eq_of_toNat_eq
  rw [BitVec.toNat_setWidth, BitVec.toNat_setWidth, Nat.mod_eq_of_lt hx,
    Nat.mod_eq_of_lt x.isLt]

end Cpu

/-! ## Checked accesses -/

namespace Core

open Cpu

section Checked

variable {β : Type} {port : BusPort β} {s s' : Core β} {rn : Nat} {va value : U64} {k : Nat}

/-- An aligned load is refused before the bus is asked, or the bus answers for it. -/
theorem mmuRead_cases (hk : k ≤ 3) {outcome : Option U64}
    (h : s.mmuRead port rn va (2 ^ k) true = (outcome, s')) :
    (outcome = none ∧ s'.bus = s.bus) ∨
      (2 ^ k ≤ 1 ∨ va.toNat % 2 ^ k = 0) ∧
        ∃ pa c, s.cpu.translateDataAddressFast (port.readDesc s.bus) va .read = (.ok pa, c) ∧
          port.read s.bus pa (2 ^ k) = (outcome, s'.bus) ∧ (outcome.isSome → s'.cpu = c) := by
  rw [mmuRead] at h
  split at h
  · cases h
    exact .inl ⟨rfl, rfl⟩
  · split at h
    · cases h
      exact .inl ⟨rfl, rfl⟩
    · next halign =>
      have haligned := aligned_of_noFault halign
      simp only [mmuReadValue, inPage_of_aligned (show k ≤ 4 by omega) haligned, if_true] at h
      split at h
      · cases h
        exact .inl ⟨rfl, rfl⟩
      · split at h
        · cases h
          exact .inl ⟨rfl, rfl⟩
        · next pa c₁ hc =>
          split at h
          · cases h
            exact .inl ⟨rfl, rfl⟩
          · split at h
            · next b hread =>
              cases h
              exact .inr ⟨haligned, pa, c₁, hc, hread, by rintro ⟨⟩⟩
            · next v b hread =>
              cases h
              exact .inr ⟨haligned, pa, c₁, hc, hread, fun _ => rfl⟩

/-- One that succeeds: where it is, and what the bus gave. -/
theorem mmuRead_some (hk : k ≤ 3) {v : U64}
    (h : s.mmuRead port rn va (2 ^ k) true = (some v, s')) :
    (2 ^ k ≤ 1 ∨ va.toNat % 2 ^ k = 0) ∧
      ∃ pa, s.cpu.translateDataAddressFast (port.readDesc s.bus) va .read = (.ok pa, s'.cpu) ∧
        port.read s.bus pa (2 ^ k) = (some v, s'.bus) := by
  rcases mmuRead_cases hk h with ⟨hnone, -⟩ | ⟨haligned, pa, c, htr, hread, hcpu⟩
  · cases hnone
  · rw [← hcpu rfl] at htr
    exact ⟨haligned, pa, htr, hread⟩

theorem commit_single {r : BusPort.Request} {size : Nat} {onReject : Cpu → U64 → Cpu} {ok : Bool}
    (h : s.commit port size [r] onReject = (ok, s')) :
    port.write s.bus r.pa r.value size = (ok, s'.bus) ∧
      (ok = true → s'.cpu = s.cpu.clearExclusiveMonitor) := by
  simp only [commit, BusPort.writeEach] at h
  cases hw : port.write s.bus r.pa r.value size with
  | mk accepted b =>
    rw [hw] at h
    cases accepted with
    | false =>
      cases h
      exact ⟨rfl, by rintro ⟨⟩⟩
    | true =>
      cases h
      exact ⟨rfl, fun _ => rfl⟩

/-- An aligned store is refused before the bus is asked, or the bus answers for it. -/
theorem mmuWrite_cases (hk : k ≤ 3) {ok : Bool}
    (h : s.mmuWrite port rn va value (2 ^ k) .write true = (ok, s')) :
    (ok = false ∧ s'.bus = s.bus) ∨
      ∃ pa c, s.cpu.translateDataAddressFast (port.readDesc s.bus) va .write = (.ok pa, c) ∧
        port.write s.bus pa value (2 ^ k) = (ok, s'.bus) ∧
        (ok = true → s'.cpu = c.clearExclusiveMonitor) := by
  rw [mmuWrite] at h
  split at h
  · cases h
    exact .inl ⟨rfl, rfl⟩
  · split at h
    · cases h
      exact .inl ⟨rfl, rfl⟩
    · next halign =>
      have haligned := aligned_of_noFault halign
      simp only [mmuWriteValue, inPage_of_aligned (show k ≤ 4 by omega) haligned, if_true] at h
      split at h
      · cases h
        exact .inl ⟨rfl, rfl⟩
      · split at h
        · cases h
          exact .inl ⟨rfl, rfl⟩
        · next pa c₁ hc =>
          split at h
          · cases h
            exact .inl ⟨rfl, rfl⟩
          · obtain ⟨hwrite, hcpu⟩ := commit_single h
            exact .inr ⟨pa, c₁, hc, hwrite, hcpu⟩

/-- The byte that a pair store writes at an offset. -/
def pairByte (first second : U64) (elemSize i : Nat) : U64 :=
  if i < elemSize then valueByte first i else valueByte second (i - elemSize)

/-- An aligned pair store translates its first byte and writes the block behind it. -/
theorem rawMmuWritePairAtomic_block (hk : k ≤ 3) {first second : U64} {ok : Bool}
    (halign : va.toNat % 2 ^ (k + 1) = 0)
    (h : s.rawMmuWritePairAtomic port va first second (2 ^ k) = (ok, s')) :
    (ok = false ∧ s'.bus = s.bus) ∨
      ∃ pa c failed ws,
        s.cpu.translateDataAddressFast (port.readDesc s.bus) va .write = (.ok pa, c) ∧
        port.writeEach 1 s.bus
            (BusPort.blockRequests va pa (pairByte first second (2 ^ k)) 0 (2 ^ (k + 1))) =
          (failed, s'.bus, ws) ∧
        (ok = true → failed = none ∧ s'.cpu = c.clearExclusiveMonitor) ∧
        (ok = false → failed.isSome = true) := by
  have hsize : 2 ^ k * 2 = 2 ^ (k + 1) := (Nat.pow_succ 2 k).symm
  have hin := inPage_of_aligned (show k + 1 ≤ 4 by omega) (.inr halign)
  simp only [rawMmuWritePairAtomic, hsize] at h
  split at h
  · cases h
    exact .inl ⟨rfl, rfl⟩
  · split at h
    · cases h
      exact .inl ⟨rfl, rfl⟩
    · next pas c hc =>
      obtain ⟨pa, htr, rfl⟩ := translateEach_bytesFrom (Nat.two_pow_pos (k + 1)) hin hc
      split at h
      · cases h
        exact .inl ⟨rfl, rfl⟩
      · rw [BusPort.byteRequests_bytesFrom] at h
        rw [commit] at h
        cases hwrite : port.writeEach 1 s.bus
            (BusPort.blockRequests va pa (pairByte first second (2 ^ k)) 0 (2 ^ (k + 1))) with
        | mk failed rest =>
          obtain ⟨b, ws⟩ := rest
          have heach : port.writeEach 1 (s.setCpu c).bus
              (BusPort.blockRequests va pa (fun i =>
                if i < 2 ^ k then valueByte first i else valueByte second (i - 2 ^ k)) 0
                (2 ^ (k + 1))) = (failed, b, ws) := hwrite
          rw [heach] at h
          cases failed with
          | none =>
            cases h
            exact .inr ⟨pa, c, none, ws, htr, hwrite, fun _ => ⟨rfl, rfl⟩, by rintro ⟨⟩⟩
          | some byteVa =>
            cases h
            exact .inr ⟨pa, c, some byteVa, ws, htr, hwrite, by rintro ⟨⟩, fun _ => rfl⟩

end Checked

/-! ## The laws -/

variable {E : Type}

/-- Neither a byte of a RAM nor a general register changed. -/
structure Untouched (s t : Core (World E)) : Prop where
  rams : t.bus.rams = s.bus.rams
  gprs : SameGprs s.cpu t.cpu

/-- The address translates for the access, to `n` bytes of RAM from `p` on. -/
def OnRam (port : BusPort (World E)) (s : Core (World E)) (access : AccessType) (addr : U64)
    (n : Nat) (p : RamPtr) : Prop :=
  ∃ pa, (s.cpu.translateDataAddressFast (port.readDesc s.bus) addr access).1 = .ok pa ∧ At pa n p

/-- The law of an atomic on one element: it stores `new` of the old value and loads the old
value, zero-extended, into `dst`, or it leaves everything as it was. -/
structure Exchange (port : BusPort (World E)) (s : Core (World E)) (r : Bool × Core (World E))
    (addr : U64) (size dst : Nat) (new : BitVec (8 * size) → BitVec (8 * size)) : Prop where
  exact : r.1 = true → ∀ p, s.OnRam port .read addr size p → ∃ old : BitVec (8 * size),
    s.bus.Exchanged r.2.bus p size (bytesOf old) (bytesOf (new old)) ∧
      r.2.cpu.regs = (s.cpu.setReg dst (old.setWidth 64)).regs
  noEntry : r.1 = true → NoEntry s.cpu r.2.cpu
  aborted : r.1 = false → Untouched s r.2

/-- The bytes of two elements, the first one lower. -/
def pairBytes {w : Nat} (first second : BitVec w) (elemSize i : Nat) : U8 :=
  if i < elemSize then bytesOf first i else bytesOf second (i - elemSize)

/-- The law of CASP: both elements are compared and both are stored or none is; the old ones
are loaded into the registers `rs` and `rs + 1`. -/
structure PairExchange (port : BusPort (World E)) (s : Core (World E))
    (r : Bool × Core (World E)) (addr : U64) (elemSize rs : Nat)
    (new : BitVec (8 * elemSize) × BitVec (8 * elemSize) →
      BitVec (8 * elemSize) × BitVec (8 * elemSize)) : Prop where
  exact : r.1 = true → ∀ p, s.OnRam port .read addr (elemSize * 2) p →
    ∃ old : BitVec (8 * elemSize) × BitVec (8 * elemSize),
      s.bus.Exchanged r.2.bus p (elemSize * 2) (pairBytes old.1 old.2 elemSize)
          (pairBytes (new old).1 (new old).2 elemSize) ∧
        r.2.cpu.regs =
          ((s.cpu.setReg rs (old.1.setWidth 64)).setReg (rs + 1) (old.2.setWidth 64)).regs
  noEntry : r.1 = true → NoEntry s.cpu r.2.cpu
  aborted : r.1 = false → Untouched s r.2

/-- The law of STXP: it stores both registers and its status is 0, or it stores neither. -/
structure PairStore (port : BusPort (World E)) (s : Core (World E))
    (r : ExclusiveStatus × Core (World E)) (addr : U64) (elemSize rs : Nat)
    (first second : BitVec (8 * elemSize)) : Prop where
  exact : r.1 = .stored → ∀ p, s.OnRam port .write addr (elemSize * 2) p →
    ∃ old, s.bus.Exchanged r.2.bus p (elemSize * 2) old (pairBytes first second elemSize)
  stored : r.1 = .stored → NoEntry s.cpu r.2.cpu ∧ r.2.cpu.regs = (s.cpu.setReg rs 0).regs
  failed : r.1 = .failed → r.2.bus.rams = s.bus.rams ∧ NoEntry s.cpu r.2.cpu ∧
    r.2.cpu.regs = (s.cpu.setReg rs 1).regs
  faulted : r.1 = .faulted → Untouched s r.2

section Soc

variable {attached : Bool} {io : SocIo E} {s s' s'' : Core (World E)} {rn n : Nat}
  {va value : U64} {p : RamPtr}

theorem Untouched.trans (h : Untouched s s') (h' : Untouched s' s'') : Untouched s s'' :=
  ⟨h'.rams.trans h.rams, h.gprs.trans h'.gprs⟩

theorem exists_pow {n : Nat} (h : Width n) : ∃ k, k ≤ 3 ∧ n = 2 ^ k := by
  rcases h with rfl | rfl | rfl | rfl
  · exact ⟨0, by decide, rfl⟩
  · exact ⟨1, by decide, rfl⟩
  · exact ⟨2, by decide, rfl⟩
  · exact ⟨3, by decide, rfl⟩

theorem width_two_pow {k : Nat} (hk : k ≤ 3) : Width (2 ^ k) := by
  rcases (by omega : k = 0 ∨ k = 1 ∨ k = 2 ∨ k = 3) with rfl | rfl | rfl | rfl
  · exact .inl rfl
  · exact .inr (.inl rfl)
  · exact .inr (.inr (.inl rfl))
  · exact .inr (.inr (.inr rfl))

theorem untouched_dataAbort (h : Untouched s s') (va : U64) : Untouched s (s'.dataAbort va) :=
  ⟨h.rams, h.gprs.trans (failed_of_dataAbort s'.cpu va false).sameGprs⟩

/-- A load leaves memory and registers alone, whether it succeeds or not. -/
theorem untouched_mmuRead {outcome : Option U64} (h : Width n)
    (hread : s.mmuRead (socPort attached io) rn va n true = (outcome, s')) : Untouched s s' := by
  obtain ⟨k, hk, rfl⟩ := exists_pow h
  have hspec := @mmuRead_spec _ (socPort attached io) s rn va (2 ^ k) true
  rw [hread] at hspec
  cases outcome with
  | some v =>
    obtain ⟨-, pa, -, hbus⟩ := mmuRead_some hk hread
    refine ⟨socPort_read_rams hbus, ?_⟩
    intro i _
    rw [(hspec.accessed v rfl).regs]
  | none =>
    refine ⟨?_, (hspec.failed rfl).sameGprs⟩
    rcases mmuRead_cases hk hread with ⟨-, hbus⟩ | ⟨-, pa, c, -, hbus, -⟩
    · rw [hbus]
    · exact socPort_read_rams hbus

theorem noEntry_mmuRead {v : U64}
    (hread : s.mmuRead (socPort attached io) rn va n true = (some v, s')) :
    NoEntry s.cpu s'.cpu ∧ s'.cpu.regs = s.cpu.regs := by
  have hspec := @mmuRead_spec _ (socPort attached io) s rn va n true
  rw [hread] at hspec
  exact ⟨(hspec.accessed v rfl).noEntry, (hspec.accessed v rfl).regs⟩

/-- A store that fails leaves memory and registers alone. -/
theorem untouched_mmuWrite (h : Width n)
    (hwrite : s.mmuWrite (socPort attached io) rn va value n .write true = (false, s')) :
    Untouched s s' := by
  obtain ⟨k, hk, rfl⟩ := exists_pow h
  have hspec := @mmuWrite_spec _ (socPort attached io) s rn va value (2 ^ k) .write true
  rw [hwrite] at hspec
  refine ⟨?_, (hspec.failed rfl).sameGprs⟩
  rcases mmuWrite_cases hk hwrite with ⟨-, hbus⟩ | ⟨pa, c, -, hbus, -⟩
  · rw [hbus]
  · rw [socPort_write_rejected hbus]

theorem noEntry_mmuWrite
    (hwrite : s.mmuWrite (socPort attached io) rn va value n .write true = (true, s')) :
    NoEntry s.cpu s'.cpu ∧ s'.cpu.regs = s.cpu.regs := by
  have hspec := @mmuWrite_spec _ (socPort attached io) s rn va value n .write true
  rw [hwrite] at hspec
  obtain ⟨c, hacc, hcpu⟩ := hspec.stored rfl
  dsimp only at hcpu
  rw [hcpu]
  exact ⟨hacc.noEntry.trans (noEntry_clearExclusiveMonitor c), hacc.regs⟩

/-- A load from RAM. -/
theorem mmuRead_at {v : U64} (h : Width n)
    (hread : s.mmuRead (socPort attached io) rn va n true = (some v, s'))
    (hon : s.OnRam (socPort attached io) .read va n p) :
    v = loadLe (s.bus.rams p.ram).data p.offset.toNat n ∧ s'.bus = s.bus := by
  obtain ⟨k, hk, rfl⟩ := exists_pow h
  obtain ⟨-, pa, htr, hbus⟩ := mmuRead_some hk hread
  obtain ⟨pa', hpa', hat⟩ := hon
  rw [htr] at hpa'
  obtain rfl : pa = pa' := Except.ok.inj hpa'
  rw [socPort_read_at h hat] at hbus
  obtain ⟨hv, hsame⟩ := Prod.mk.inj hbus
  exact ⟨(Option.some.inj hv).symm, hsame.symm⟩

/-- The store after a load from RAM: it goes to the same bytes. -/
theorem mmuWrite_at {v : U64} (h : Width n)
    (hread : s.mmuRead (socPort attached io) rn va n true = (some v, s'))
    (hon : s.OnRam (socPort attached io) .read va n p)
    (hwrite : s'.mmuWrite (socPort attached io) rn va value n .write true = (true, s'')) :
    s.bus.Exchanged s''.bus p n (bytesOf (v.setWidth (8 * n)))
      (bytesOf (value.setWidth (8 * n))) := by
  obtain ⟨hv, hsame⟩ := mmuRead_at h hread hon
  obtain ⟨k, hk, rfl⟩ := exists_pow h
  obtain ⟨-, pa, htr, -⟩ := mmuRead_some hk hread
  obtain ⟨pa', hpa', hat⟩ := hon
  rw [htr] at hpa'
  obtain rfl : pa = pa' := Except.ok.inj hpa'
  obtain ⟨hfalse, -⟩ | ⟨pa₁, c, htr', hbus, -⟩ := mmuWrite_cases hk hwrite
  · cases hfalse
  obtain rfl : pa₁ = pa := translate_same htr htr'
  obtain ⟨w', hw', hex⟩ := @socPort_write_at _ attached io s'.bus _ _ _ value h hat
  rw [hw'] at hbus
  rw [hsame] at hex
  have hend : w' = s''.bus := congrArg Prod.snd hbus
  rw [← hend]
  refine hex.congr (fun i hi => ?_) fun i hi => (bytesOf_setWidth value hi).symm
  rw [bytesOf_setWidth v hi, hv, bytesOf_loadLe _ _ h.le hi]

/-- Nothing was stored after a load from RAM. -/
theorem unchanged_at {v : U64} (h : Width n)
    (hread : s.mmuRead (socPort attached io) rn va n true = (some v, s'))
    (hon : s.OnRam (socPort attached io) .read va n p) :
    s.bus.Exchanged s'.bus p n (bytesOf (v.setWidth (8 * n))) (bytesOf (v.setWidth (8 * n))) := by
  obtain ⟨hv, hsame⟩ := mmuRead_at h hread hon
  apply World.exchanged_refl (congrArg World.rams hsame)
  intro i hi
  rw [bytesOf_setWidth v hi, hv, bytesOf_loadLe _ _ h.le hi]

/-! ### Read-modify-write -/

theorem atomicRmw_exchange (h : Width n) (fn : AtomicFn) (rs rt : Nat) :
    s.Exchange (socPort attached io) (s.atomicRmw (socPort attached io) fn rs rt rn n)
      (s.cpu.spOrReg rn) n rt fun old => fn.result old ((s.cpu.reg rs).setWidth (8 * n)) := by
  rw [atomicRmw]
  dsimp only
  split
  · next s₁ hread =>
    exact ⟨fun h => (nomatch h), fun h => (nomatch h),
      fun _ => untouched_dataAbort (untouched_mmuRead h hread) _⟩
  · next v s₁ hread =>
    obtain ⟨hno, hregs⟩ := noEntry_mmuRead hread
    split
    · next s₂ hwrite =>
      exact ⟨fun h => (nomatch h), fun h => (nomatch h), fun _ =>
        untouched_dataAbort ((untouched_mmuRead h hread).trans (untouched_mmuWrite h hwrite)) _⟩
    · next s₂ hwrite =>
      obtain ⟨hno', hregs'⟩ := noEntry_mmuWrite hwrite
      refine ⟨fun _ p hon => ?_, fun _ => ?_, fun h => (nomatch h)⟩
      · obtain ⟨hv, -⟩ := mmuRead_at h hread hon
        have hmask := masked_of_loadLe h hv
        rw [hmask, regSized_and_operandMask _ _ h] at hwrite
        have hex := mmuWrite_at h hread hon hwrite
        rw [AtomicFn.setWidth_apply h, setWidth_regSized _ _ h, reg_of_regs hregs] at hex
        refine ⟨v.setWidth (8 * n), hex, ?_⟩
        rw [hmask, hv]
        dsimp only [setCpu]
        rw [setRegSized_loadLe _ _ h]
        exact setReg_regs_congr (hregs'.trans hregs) _ _
      · exact (hno.trans hno').trans (noEntry_setReg _ _ _)

/-! ### Compare and swap -/

/-- The new value of CAS. -/
def casResult {w : Nat} (compare desired old : BitVec w) : BitVec w :=
  if old = compare then desired else old

/-- The bits of `rs` above the element do not decide the comparison of a CAS. -/
def CompareDecides (port : BusPort (World E)) (s : Core (World E)) (rs rt rn size : Nat) : Prop :=
  ∀ old s₁ p, s.mmuRead port rn (s.cpu.spOrReg rn) size true = (some old, s₁) →
    s.OnRam port .read (s.cpu.spOrReg rn) size p →
    (s.cpu.reg rs).setWidth (8 * size) = old.setWidth (8 * size) →
      (s.cpu.regSized rs size).toNat < 2 ^ (8 * size) ∨
        (s.cpu.reg rt).setWidth (8 * size) = old.setWidth (8 * size)

/-- A register that fits in the element is equal to the loaded value it agrees with. -/
theorem eq_regSized_of_low {c : Cpu} {v : U64} {data : Nat → U8} {off i : Nat} (h : Width n)
    (hv : v = loadLe data off n) (hfits : (c.regSized i n).toNat < 2 ^ (8 * n))
    (hlow : v.setWidth (8 * n) = (c.reg i).setWidth (8 * n)) : v = c.regSized i n := by
  rw [← setWidth_of_lt hfits, setWidth_regSized _ _ h, ← hlow, hv, setWidth_loadLe _ _ h.le]

theorem compareAndSwap_exchange (h : Width n) {rs rt : Nat}
    (hcond : s.CompareDecides (socPort attached io) rs rt rn n) :
    s.Exchange (socPort attached io) (s.compareAndSwap (socPort attached io) rs rt rn n)
      (s.cpu.spOrReg rn) n rs
      (casResult ((s.cpu.reg rs).setWidth (8 * n)) ((s.cpu.reg rt).setWidth (8 * n))) := by
  rw [compareAndSwap]
  dsimp only
  cases hread : s.mmuRead (socPort attached io) rn (s.cpu.spOrReg rn) n true with
  | mk outcome s₁ =>
  cases outcome with
  | none =>
    exact ⟨fun h => (nomatch h), fun h => (nomatch h),
      fun _ => untouched_dataAbort (untouched_mmuRead h hread) _⟩
  | some v =>
    obtain ⟨hno, hregs⟩ := noEntry_mmuRead hread
    dsimp only
    rw [regSized_and_operandMask _ _ h, regSized_and_operandMask _ _ h, regSized_of_regs hregs,
      regSized_of_regs hregs]
    by_cases heq : v &&& operandMask n = s.cpu.regSized rs n
    · -- the comparison succeeds on all the bits it looks at
      rw [if_pos heq]
      split
      · next s₂ hwrite =>
        exact ⟨fun h => (nomatch h), fun h => (nomatch h), fun _ =>
          untouched_dataAbort ((untouched_mmuRead h hread).trans (untouched_mmuWrite h hwrite)) _⟩
      · next s₂ hwrite =>
        obtain ⟨hno', hregs'⟩ := noEntry_mmuWrite hwrite
        refine ⟨fun _ p hon => ?_, fun _ => (hno.trans hno').trans (noEntry_setReg _ _ _),
          fun h => (nomatch h)⟩
        obtain ⟨hv, -⟩ := mmuRead_at h hread hon
        have hmask := masked_of_loadLe h hv
        have hlow : v.setWidth (8 * n) = (s.cpu.reg rs).setWidth (8 * n) := by
          rw [← hmask, heq, setWidth_regSized _ _ h]
        have hex := mmuWrite_at h hread hon hwrite
        rw [setWidth_regSized _ _ h] at hex
        refine ⟨v.setWidth (8 * n), ?_, ?_⟩
        · rw [casResult, if_pos hlow]
          exact hex
        · rw [hmask, hv]
          dsimp only [setCpu]
          rw [setRegSized_loadLe _ _ h]
          exact setReg_regs_congr (hregs'.trans hregs) _ _
    · rw [if_neg heq]
      refine ⟨fun _ p hon => ?_, fun _ => hno.trans (noEntry_setReg _ _ _), fun h => (nomatch h)⟩
      obtain ⟨hv, -⟩ := mmuRead_at h hread hon
      have hmask := masked_of_loadLe h hv
      rw [hmask] at heq
      have hkeep : casResult ((s.cpu.reg rs).setWidth (8 * n)) ((s.cpu.reg rt).setWidth (8 * n))
          (v.setWidth (8 * n)) = v.setWidth (8 * n) := by
        rw [casResult]
        split
        · next hlow =>
          rcases hcond v s₁ p hread hon hlow.symm with hfits | hdesired
          · -- a register that fits in the element is equal to what it agrees with
            exact absurd (eq_regSized_of_low h hv hfits hlow) heq
          · exact hdesired
        · rfl
      refine ⟨v.setWidth (8 * n), ?_, ?_⟩
      · have hex := unchanged_at h hread hon
        rw [hkeep]
        exact hex
      · rw [hmask, hv]
        dsimp only [setCpu]
        rw [setRegSized_loadLe _ _ h]
        exact setReg_regs_congr hregs _ _

theorem eq_of_bytesOf {a b : BitVec (8 * n)} (h : ∀ i < n, bytesOf a i = bytesOf b i) : a = b := by
  apply BitVec.eq_of_getLsbD_eq
  intro k hk
  have hbyte := congrArg (BitVec.getLsbD · (k % 8)) (h (k / 8) (by omega))
  rw [getLsbD_bytesOf, getLsbD_bytesOf, show 8 * (k / 8) + k % 8 = k by omega] at hbyte
  simpa [show k % 8 < 8 by omega] using hbyte

/-- A CAS that obeys the law was not decided by the bits above the element. -/
theorem compareDecides_of_exchange (h : Width n) {rs rt : Nat}
    (hlaw : s.Exchange (socPort attached io) (s.compareAndSwap (socPort attached io) rs rt rn n)
      (s.cpu.spOrReg rn) n rs
      (casResult ((s.cpu.reg rs).setWidth (8 * n)) ((s.cpu.reg rt).setWidth (8 * n)))) :
    s.CompareDecides (socPort attached io) rs rt rn n := by
  intro v s₁ p hread hon hlow
  by_contra hnot
  obtain ⟨hwide, hdesired⟩ := not_or.1 hnot
  obtain ⟨hv, hbus⟩ := mmuRead_at h hread hon
  obtain ⟨-, hregs⟩ := noEntry_mmuRead hread
  have hmask := masked_of_loadLe h hv
  have hne : v ≠ s.cpu.regSized rs n := by
    rintro heq
    apply hwide
    rw [← heq, hv, ← setWidth_loadLe _ _ h.le, BitVec.toNat_setWidth]
    exact Nat.lt_of_le_of_lt (Nat.mod_le _ _) (BitVec.isLt _)
  have hrun : s.compareAndSwap (socPort attached io) rs rt rn n =
      (true, s₁.setCpu (s₁.cpu.setRegSized rs v n)) := by
    rw [compareAndSwap]
    dsimp only
    rw [hread]
    dsimp only
    rw [regSized_and_operandMask _ _ h, regSized_of_regs hregs, hmask, if_neg hne]
  have hexact := hlaw.exact
  rw [hrun] at hexact
  obtain ⟨old, hex, -⟩ := hexact rfl p hon
  have hafter : ∀ i < n, bytesOf old i = bytesOf (v.setWidth (8 * n)) i := by
    intro i hi
    rw [← hex.before i hi, bytesOf_setWidth v hi, hv, bytesOf_loadLe _ _ h.le hi]
  obtain rfl := eq_of_bytesOf hafter
  apply hdesired
  apply eq_of_bytesOf
  intro i hi
  have hstored := hex.after i hi
  rw [casResult, if_pos hlow.symm] at hstored
  rw [← hstored]
  have hrams : (s₁.setCpu (s₁.cpu.setRegSized rs v n)).bus.rams = s.bus.rams :=
    congrArg World.rams hbus
  dsimp only
  rw [hrams]
  exact hex.before i hi

/-! ### Pairs -/

theorem bytesOf_valueByte (v : U64) (i : Nat) : bytesOf (valueByte v i) 0 = bytesOf v i := by
  have hff : (0xFF : U64) = lowMask 8 := rfl
  apply BitVec.eq_of_getLsbD_eq
  intro k hk
  rw [getLsbD_bytesOf, getLsbD_bytesOf, valueByte, BitVec.getLsbD_and, BitVec.getLsbD_ushiftRight,
    hff, lowMask_getLsbD (by decide), Nat.mul_zero, Nat.zero_add, Nat.mul_comm i 8]
  simp [hk]

theorem bytesOf_pairByte (first second : U64) (elemSize i : Nat) :
    bytesOf (pairByte first second elemSize i) 0 = pairBytes first second elemSize i := by
  rw [pairByte, pairBytes]
  split
  · exact bytesOf_valueByte _ _
  · exact bytesOf_valueByte _ _

theorem pairBytes_setWidth (first second : U64) {i : Nat} (hi : i < n * 2) :
    pairBytes (first.setWidth (8 * n)) (second.setWidth (8 * n)) n i =
      pairBytes first second n i := by
  rw [pairBytes, pairBytes]
  split
  · next h => exact bytesOf_setWidth first h
  · exact bytesOf_setWidth second (by omega)

/-- The physical address of an aligned one is aligned. -/
theorem aligned_of_translate {c c' : Cpu} {readDesc : U64 → Option U64} {access : AccessType}
    {pa : U64} {k : Nat} (hk : k ≤ 12)
    (htr : c.translateDataAddressFast readDesc va access = (.ok pa, c'))
    (h : va.toNat % 2 ^ k = 0) : pa.toNat % 2 ^ k = 0 := by
  have hoff : pa &&& 0xFFF = va &&& 0xFFF := by
    rw [(translate_again htr).1]
    exact pageAt_offset _ _
  have hmod := congrArg BitVec.toNat hoff
  rw [toNat_pageOffset, toNat_pageOffset] at hmod
  have hdvd : 2 ^ k ∣ 4096 := by
    rw [show 4096 = 2 ^ 12 from rfl]
    exact Nat.pow_dvd_pow 2 hk
  rw [← Nat.mod_mod_of_dvd _ hdvd, hmod, Nat.mod_mod_of_dvd _ hdvd, h]

theorem untouched_pairStore {first second : U64} {k : Nat} (hk : k ≤ 3)
    (halign : va.toNat % 2 ^ (k + 1) = 0)
    (hwrite : s.rawMmuWritePairAtomic (socPort attached io) va first second (2 ^ k) = (false, s')) :
    Untouched s s' := by
  have hspec := @rawMmuWritePairAtomic_spec _ (socPort attached io) s va first second (2 ^ k)
  rw [hwrite] at hspec
  refine ⟨?_, (hspec.failed rfl).sameGprs⟩
  rcases rawMmuWritePairAtomic_block hk halign hwrite with
    ⟨-, hbus⟩ | ⟨pa, c, failed, ws, htr, heach, -, hfailed⟩
  · rw [hbus]
  · obtain ⟨byteVa, rfl⟩ := Option.isSome_iff_exists.1 (hfailed rfl)
    rw [BusPort.writeEach_rejected (by omega) (aligned_of_translate (by omega) htr halign) heach]

theorem noEntry_pairStore {first second : U64}
    (hwrite : s.rawMmuWritePairAtomic (socPort attached io) va first second n = (true, s')) :
    NoEntry s.cpu s'.cpu ∧ s'.cpu.regs = s.cpu.regs := by
  have hspec := @rawMmuWritePairAtomic_spec _ (socPort attached io) s va first second n
  rw [hwrite] at hspec
  obtain ⟨c, hacc, hcpu⟩ := hspec.stored rfl
  dsimp only at hcpu
  rw [hcpu]
  exact ⟨hacc.noEntry.trans (noEntry_clearExclusiveMonitor c), hacc.regs⟩

/-- A pair store into RAM. -/
theorem pairStore_at {first second : U64} {k : Nat} (hk : k ≤ 3)
    (halign : va.toNat % 2 ^ (k + 1) = 0)
    (hwrite : s.rawMmuWritePairAtomic (socPort attached io) va first second (2 ^ k) = (true, s'))
    {pa : U64} (hpa : ∀ pa' c, s.cpu.translateDataAddressFast
      ((socPort attached io).readDesc s.bus) va .write = (.ok pa', c) → pa' = pa)
    (hat : At pa (2 ^ k * 2) p) :
    s.bus.Exchanged s'.bus p (2 ^ k * 2) (fun i => (s.bus.rams p.ram).data (p.offset.toNat + i))
      (pairBytes (first.setWidth (8 * 2 ^ k)) (second.setWidth (8 * 2 ^ k)) (2 ^ k)) := by
  rcases rawMmuWritePairAtomic_block hk halign hwrite with
    ⟨hfalse, -⟩ | ⟨pa', c, failed, ws, htr, heach, -, -⟩
  · cases hfalse
  · obtain rfl := hpa pa' c htr
    rw [Nat.pow_succ] at heach
    obtain ⟨w', ws', hrun, hin, hout⟩ := @BusPort.writeEach_at _ attached io pa' va (2 ^ k * 2) p
      (pairByte first second (2 ^ k)) _ hat 0 (Nat.zero_add _) s.bus
    rw [hrun] at heach
    have hend : w' = s'.bus := congrArg (·.2.1) heach
    rw [← hend]
    refine ⟨fun _ _ => rfl, fun i hi => ?_, fun id i h => hout id i h⟩
    rw [hin i (Nat.zero_le i) hi, bytesOf_pairByte, pairBytes_setWidth _ _ hi]

/-- The two loads of CASP from RAM. -/
theorem pairLoad_at {v₁ v₂ : U64} {k : Nat} (hk : k ≤ 3) (halign : va.toNat % 2 ^ (k + 1) = 0)
    (hread₁ : s.mmuRead (socPort attached io) rn va (2 ^ k) true = (some v₁, s'))
    (hread₂ : s'.mmuRead (socPort attached io) rn (va + BitVec.ofNat 64 (2 ^ k)) (2 ^ k) true =
      (some v₂, s''))
    {pa : U64}
    (hpa : (s.cpu.translateDataAddressFast ((socPort attached io).readDesc s.bus) va .read).1 =
      .ok pa) (hat : At pa (2 ^ k * 2) p) :
    v₁ = loadLe (s.bus.rams p.ram).data p.offset.toNat (2 ^ k) ∧
      v₂ = loadLe (s.bus.rams p.ram).data (p.offset.toNat + 2 ^ k) (2 ^ k) ∧
      s''.bus = s.bus ∧ s''.cpu = s'.cpu ∧
      s.cpu.translateDataAddressFast ((socPort attached io).readDesc s.bus) va .read =
        (.ok pa, s'.cpu) := by
  have hw : Width (2 ^ k) := width_two_pow hk
  obtain ⟨hfirst, hsecond, hoff⟩ := hat.parts
  obtain ⟨hv₁, hbus₁⟩ := mmuRead_at hw hread₁ ⟨pa, hpa, hfirst⟩
  obtain ⟨-, pa₁, htr, -⟩ := mmuRead_some hk hread₁
  rw [htr] at hpa
  obtain rfl : pa₁ = pa := Except.ok.inj hpa
  have hin := inPage_of_aligned (show k + 1 ≤ 4 by omega) (.inr halign)
  have hlt : 2 ^ k < 2 ^ (k + 1) := Nat.pow_lt_pow_right (by decide) (Nat.lt_succ_self k)
  have hbyte := inPage_lt hin hlt
  obtain ⟨hpage, hagain⟩ := translate_again htr
  have htr₂ := hagain (va + BitVec.ofNat 64 (2 ^ k)) (add_in_page hbyte).1.symm
  rw [pageAt_add hpage hbyte, ← hbus₁] at htr₂
  obtain ⟨-, pa₂, htr₂', -⟩ := mmuRead_some hk hread₂
  rw [htr₂] at htr₂'
  obtain ⟨hpa₂, hcpu⟩ := Prod.mk.inj htr₂'
  obtain ⟨hv₂, hbus₂⟩ := mmuRead_at hw hread₂ ⟨_, by rw [htr₂], hsecond⟩
  rw [hbus₁] at hv₂ hbus₂
  dsimp only at hv₂
  rw [hoff] at hv₂
  exact ⟨hv₁, hv₂, hbus₂, hcpu.symm, htr⟩

/-- The bytes that the two loads of CASP have read. -/
theorem pairLoad_bytes {data : Nat → U8} {off : Nat} {v₁ v₂ : U64} (h : Width n)
    (hv₁ : v₁ = loadLe data off n) (hv₂ : v₂ = loadLe data (off + n) n) {i : Nat}
    (hi : i < n * 2) :
    data (off + i) = pairBytes (v₁.setWidth (8 * n)) (v₂.setWidth (8 * n)) n i := by
  rw [pairBytes_setWidth _ _ hi, pairBytes]
  split
  · next hlt => rw [hv₁, bytesOf_loadLe _ _ h.le hlt]
  · next hge =>
    rw [hv₂, bytesOf_loadLe _ _ h.le (by omega)]
    congr 1
    omega

/-- The destination registers of CASP. -/
theorem pairLoad_regs {c c' : Cpu} {data data' : Nat → U8} {off off' : Nat} {v₁ v₂ : U64}
    (h : Width n) (hv₁ : v₁ = loadLe data off n) (hv₂ : v₂ = loadLe data' off' n)
    (hregs : c'.regs = c.regs) (rs : Nat) :
    ((c'.setRegSized rs (v₁ &&& operandMask n) n).setRegSized (rs + 1)
        (v₂ &&& operandMask n) n).regs =
      ((c.setReg rs ((v₁.setWidth (8 * n)).setWidth 64)).setReg (rs + 1)
        ((v₂.setWidth (8 * n)).setWidth 64)).regs := by
  rw [hv₁, hv₂, loadLe_and_operandMask h, loadLe_and_operandMask h, setRegSized_loadLe _ _ h,
    setRegSized_loadLe _ _ h]
  exact setReg_regs_congr (setReg_regs_congr hregs _ _) _ _

/-- The new values of CASP. -/
def caspResult {w : Nat} (compare desired old : BitVec w × BitVec w) : BitVec w × BitVec w :=
  if old = compare then desired else old

theorem aligned_of_pair {k : Nat} (h : 2 ^ k * 2 ≤ 1 ∨ va.toNat % (2 ^ k * 2) = 0) :
    va.toNat % 2 ^ (k + 1) = 0 := by
  rw [← Nat.pow_succ] at h
  rcases h with hle | hmod
  · have hlt : 1 < 2 ^ (k + 1) := Nat.one_lt_two_pow (Nat.succ_ne_zero k)
    omega
  · exact hmod

/-- Whatever the monitor check says, it has only translated. -/
theorem accessed_of_check {β : Type} {port : BusPort β} {s : Core β} {c : Cpu} {va : U64}
    {size : Nat} {check : Option Bool}
    (h : s.cpu.checkExclusiveMonitor (port.readDesc s.bus) va size = (check, c)) :
    Accessed s.cpu c := by
  have hacc := accessed_checkExclusiveMonitor s.cpu (port.readDesc s.bus) va size
  rwa [h] at hacc

/-- A failed CASP or STXP of a fault raised before anything is read. -/
theorem untouched_of_raised {c : Cpu} (h : Raised s.cpu c) : Untouched s (s.setCpu c) :=
  ⟨rfl, (Failed.raised h).sameGprs⟩

theorem compareAndSwapPair_exchange {k : Nat} (hk : k = 2 ∨ k = 3) (rs rt : Nat) :
    s.PairExchange (socPort attached io)
      (s.compareAndSwapPair (socPort attached io) rs rt rn (2 ^ k)) (s.cpu.spOrReg rn) (2 ^ k) rs
      (caspResult
        ((s.cpu.reg rs).setWidth (8 * 2 ^ k), (s.cpu.reg (rs + 1)).setWidth (8 * 2 ^ k))
        ((s.cpu.reg rt).setWidth (8 * 2 ^ k), (s.cpu.reg (rt + 1)).setWidth (8 * 2 ^ k))) := by
  have hk3 : k ≤ 3 := by omega
  have hw : Width (2 ^ k) := width_two_pow hk3
  rw [compareAndSwapPair]
  dsimp only
  split
  · next c hc => exact ⟨fun h => (nomatch h), fun h => (nomatch h),
      fun _ => untouched_of_raised (raised_of_spAlignment hc)⟩
  split
  · next c hc => exact ⟨fun h => (nomatch h), fun h => (nomatch h),
      fun _ => untouched_of_raised (raised_of_dataAlignment hc)⟩
  next halign =>
  have haligned : (s.cpu.spOrReg rn).toNat % 2 ^ (k + 1) = 0 :=
    aligned_of_pair (aligned_of_noFault halign)
  cases hread₁ : s.mmuRead (socPort attached io) rn (s.cpu.spOrReg rn) (2 ^ k) true with
  | mk outcome₁ s₁ =>
  cases outcome₁ with
  | none =>
    exact ⟨fun h => (nomatch h), fun h => (nomatch h),
      fun _ => untouched_dataAbort (untouched_mmuRead hw hread₁) _⟩
  | some v₁ =>
  dsimp only
  cases hread₂ : s₁.mmuRead (socPort attached io) rn
      (s.cpu.spOrReg rn + BitVec.ofNat 64 (2 ^ k)) (2 ^ k) true with
  | mk outcome₂ s₂ =>
  have huntouched := (untouched_mmuRead hw hread₁).trans (untouched_mmuRead hw hread₂)
  cases outcome₂ with
  | none =>
    exact ⟨fun h => (nomatch h), fun h => (nomatch h), fun _ => untouched_dataAbort huntouched _⟩
  | some v₂ =>
  dsimp only
  obtain ⟨hno₁, hregs₁⟩ := noEntry_mmuRead hread₁
  obtain ⟨hno₂, hregs₂⟩ := noEntry_mmuRead hread₂
  have hregs : s₂.cpu.regs = s.cpu.regs := hregs₂.trans hregs₁
  simp only [regSized_and_operandMask _ _ hw, regSized_of_regs hregs]
  by_cases heq : v₁ &&& operandMask (2 ^ k) = s.cpu.regSized rs (2 ^ k) ∧
      v₂ &&& operandMask (2 ^ k) = s.cpu.regSized (rs + 1) (2 ^ k)
  · rw [if_pos heq]
    cases hstore : s₂.rawMmuWritePairAtomic (socPort attached io) (s.cpu.spOrReg rn)
        (s.cpu.regSized rt (2 ^ k)) (s.cpu.regSized (rt + 1) (2 ^ k)) (2 ^ k) with
    | mk ok s₃ =>
    cases ok with
    | false =>
      exact ⟨fun h => (nomatch h), fun h => (nomatch h), fun _ =>
        untouched_dataAbort (huntouched.trans (untouched_pairStore hk3 haligned hstore)) _⟩
    | true =>
      obtain ⟨hno₃, hregs₃⟩ := noEntry_pairStore hstore
      refine ⟨fun _ p hon => ?_, fun _ => ?_, fun h => (nomatch h)⟩
      · obtain ⟨pa, hpa, hat⟩ := hon
        obtain ⟨hv₁, hv₂, hbus, hcpu, htr⟩ := pairLoad_at hk3 haligned hread₁ hread₂ hpa hat
        have hex := pairStore_at hk3 haligned hstore
          (fun pa' c h => translate_same htr (hcpu ▸ h)) hat
        rw [hbus, setWidth_regSized _ _ hw, setWidth_regSized _ _ hw] at hex
        rw [masked_of_loadLe hw hv₁, masked_of_loadLe hw hv₂] at heq
        have hcompare : caspResult
            ((s.cpu.reg rs).setWidth (8 * 2 ^ k), (s.cpu.reg (rs + 1)).setWidth (8 * 2 ^ k))
            ((s.cpu.reg rt).setWidth (8 * 2 ^ k), (s.cpu.reg (rt + 1)).setWidth (8 * 2 ^ k))
            (v₁.setWidth (8 * 2 ^ k), v₂.setWidth (8 * 2 ^ k)) =
            ((s.cpu.reg rt).setWidth (8 * 2 ^ k), (s.cpu.reg (rt + 1)).setWidth (8 * 2 ^ k)) := by
          rw [caspResult, heq.1, heq.2, setWidth_regSized _ _ hw, setWidth_regSized _ _ hw,
            if_pos rfl]
        refine ⟨(v₁.setWidth (8 * 2 ^ k), v₂.setWidth (8 * 2 ^ k)), ?_,
          pairLoad_regs hw hv₁ hv₂ (hregs₃.trans hregs) rs⟩
        rw [hcompare]
        exact hex.congr (fun i hi => pairLoad_bytes hw hv₁ hv₂ hi) fun _ _ => rfl
      · exact ((hno₁.trans hno₂).trans hno₃).trans
          ((noEntry_setReg _ _ _).trans (noEntry_setReg _ _ _))
  · rw [if_neg heq]
    refine ⟨fun _ p hon => ?_, fun _ => ?_, fun h => (nomatch h)⟩
    · obtain ⟨pa, hpa, hat⟩ := hon
      obtain ⟨hv₁, hv₂, -⟩ := pairLoad_at hk3 haligned hread₁ hread₂ hpa hat
      have hdiffer : (v₁.setWidth (8 * 2 ^ k), v₂.setWidth (8 * 2 ^ k)) ≠
          ((s.cpu.reg rs).setWidth (8 * 2 ^ k), (s.cpu.reg (rs + 1)).setWidth (8 * 2 ^ k)) := by
        intro hlow
        obtain ⟨hlow₁, hlow₂⟩ := Prod.mk.inj hlow
        apply heq
        rw [← eq_regSized_of_low hw hv₁ (regSized_lt _ _ hk) hlow₁,
          ← eq_regSized_of_low hw hv₂ (regSized_lt _ _ hk) hlow₂]
        exact ⟨masked_of_loadLe hw hv₁, masked_of_loadLe hw hv₂⟩
      refine ⟨(v₁.setWidth (8 * 2 ^ k), v₂.setWidth (8 * 2 ^ k)), ?_,
        pairLoad_regs hw hv₁ hv₂ hregs rs⟩
      rw [caspResult, if_neg hdiffer]
      exact World.exchanged_refl huntouched.rams fun i hi => pairLoad_bytes hw hv₁ hv₂ hi
    · exact (hno₁.trans hno₂).trans ((noEntry_setReg _ _ _).trans (noEntry_setReg _ _ _))

theorem storeExclusivePair_pairStore {k : Nat} (hk : k = 2 ∨ k = 3) (rs rt rt2 : Nat) :
    s.PairStore (socPort attached io)
      (s.storeExclusivePair (socPort attached io) rs rn (s.cpu.spOrReg rn)
        (s.cpu.regSized rt (2 ^ k)) (s.cpu.regSized rt2 (2 ^ k)) (2 ^ k))
      (s.cpu.spOrReg rn) (2 ^ k) rs ((s.cpu.reg rt).setWidth (8 * 2 ^ k))
      ((s.cpu.reg rt2).setWidth (8 * 2 ^ k)) := by
  have hk3 : k ≤ 3 := by omega
  have hw : Width (2 ^ k) := width_two_pow hk3
  rw [storeExclusivePair, storeExclusiveWith]
  split
  · next c hc => exact ⟨by rintro ⟨⟩, by rintro ⟨⟩, by rintro ⟨⟩,
      fun _ => ⟨rfl, (untouched_of_raised (raised_of_spAlignment hc)).gprs⟩⟩
  split
  · next c hc => exact ⟨by rintro ⟨⟩, by rintro ⟨⟩, by rintro ⟨⟩,
      fun _ => ⟨rfl, (untouched_of_raised (raised_of_dataAlignment hc)).gprs⟩⟩
  next halign =>
  have haligned : (s.cpu.spOrReg rn).toNat % 2 ^ (k + 1) = 0 :=
    aligned_of_pair (aligned_of_noFault halign)
  split
  · next c hc =>
    refine ⟨by rintro ⟨⟩, by rintro ⟨⟩, by rintro ⟨⟩, fun _ => ?_⟩
    have hkeep : Untouched s (s.setCpu c.clearExclusiveMonitor) :=
      ⟨rfl, fun i _ => congrFun (accessed_of_check hc).regs i⟩
    exact untouched_dataAbort hkeep _
  · next c hc =>
    have hacc := accessed_of_check hc
    refine ⟨by rintro ⟨⟩, by rintro ⟨⟩, fun _ => ⟨rfl, ?_, ?_⟩,
      by rintro ⟨⟩⟩
    · exact (hacc.noEntry.trans (noEntry_clearExclusiveMonitor c)).trans (noEntry_setReg _ _ _)
    · exact @setReg_regs_congr s.cpu c.clearExclusiveMonitor hacc.regs _ _
  · next c hc =>
    have hacc := accessed_of_check hc
    have hclear : NoEntry s.cpu c.clearExclusiveMonitor :=
      hacc.noEntry.trans (noEntry_clearExclusiveMonitor c)
    have hkeep : Untouched s (s.setCpu c.clearExclusiveMonitor) :=
      ⟨rfl, fun i _ => congrFun hacc.regs i⟩
    split
    · next s' hstore =>
      exact ⟨by rintro ⟨⟩, by rintro ⟨⟩, by rintro ⟨⟩, fun _ =>
        untouched_dataAbort (hkeep.trans (untouched_pairStore hk3 haligned hstore)) _⟩
    · next s' hstore =>
      obtain ⟨hno, hregs⟩ := noEntry_pairStore hstore
      refine ⟨fun _ p hon => ?_, fun _ => ⟨?_, ?_⟩, by rintro ⟨⟩, by rintro ⟨⟩⟩
      · obtain ⟨pa, hpa, hat⟩ := hon
        have hin := inPage_of_aligned (show k + 1 ≤ 4 by omega) (.inr haligned)
        rw [Nat.pow_succ] at hin
        obtain ⟨m, pa₁, -, htr, -⟩ :=
          checkExclusiveMonitor_matched (Nat.mul_pos (Nat.two_pow_pos k) (by decide)) hin hc
        rw [htr] at hpa
        obtain rfl : pa₁ = pa := Except.ok.inj hpa
        have hex := pairStore_at hk3 haligned hstore (fun pa' c' h => ?_) hat
        · rw [setWidth_regSized _ _ hw, setWidth_regSized _ _ hw] at hex
          exact ⟨_, hex⟩
        · have hagain := translate_after_check htr
          have hsame : ({ c.clearExclusiveMonitor with
              lastDataAbortIssOverride := none, lastDataFaultVa := none } : Cpu) =
              c.clearExclusiveMonitor := by
            rw [← clearFaultLatches_of_translate htr]
            rfl
          rw [hsame] at hagain
          exact Except.ok.inj ((Prod.mk.inj (h.symm.trans hagain)).1)
      · exact (hclear.trans hno).trans (noEntry_setReg _ _ _)
      · exact setReg_regs_congr (hregs.trans hacc.regs) _ _

end Soc

/-! ## Every word -/

/-- What is said of a word, by what it decodes to. -/
def AtomicLaw (port : BusPort (World E)) (insn : U32) (s : Core (World E)) : Prop :=
  match decodeLoadStore insn with
  | some (.cas size) =>
    s.Exchange port (s.compareAndSwap port (fieldRs insn) (fieldRt insn) (fieldRn insn) size)
      (s.cpu.spOrReg (fieldRn insn)) size (fieldRs insn)
      (casResult ((s.cpu.reg (fieldRs insn)).setWidth (8 * size))
        ((s.cpu.reg (fieldRt insn)).setWidth (8 * size)))
  | some (.rmw fn size) =>
    s.Exchange port (s.atomicRmw port fn (fieldRs insn) (fieldRt insn) (fieldRn insn) size)
      (s.cpu.spOrReg (fieldRn insn)) size (fieldRt insn)
      fun old => fn.result old ((s.cpu.reg (fieldRs insn)).setWidth (8 * size))
  | some (.casp elemSize) =>
    s.PairExchange port
      (s.compareAndSwapPair port (fieldRs insn) (fieldRt insn) (fieldRn insn) elemSize)
      (s.cpu.spOrReg (fieldRn insn)) elemSize (fieldRs insn)
      (caspResult
        ((s.cpu.reg (fieldRs insn)).setWidth (8 * elemSize),
          (s.cpu.reg (fieldRs insn + 1)).setWidth (8 * elemSize))
        ((s.cpu.reg (fieldRt insn)).setWidth (8 * elemSize),
          (s.cpu.reg (fieldRt insn + 1)).setWidth (8 * elemSize)))
  | some (.stxp elemSize) =>
    s.PairStore port
      (s.storeExclusivePair port (fieldRs insn) (fieldRn insn) (s.cpu.spOrReg (fieldRn insn))
        (s.cpu.regSized (fieldRt insn) elemSize) (s.cpu.regSized (fieldRt2 insn) elemSize) elemSize)
      (s.cpu.spOrReg (fieldRn insn)) elemSize (fieldRs insn)
      ((s.cpu.reg (fieldRt insn)).setWidth (8 * elemSize))
      ((s.cpu.reg (fieldRt2 insn)).setWidth (8 * elemSize))
  | _ => True

/-- The word is no CAS, or its comparison is decided by the element. -/
def ElementDecides (port : BusPort (World E)) (insn : U32) (s : Core (World E)) : Prop :=
  ∀ size, decodeLoadStore insn = some (.cas size) →
    s.CompareDecides port (fieldRs insn) (fieldRt insn) (fieldRn insn) size

/-- The sizes that a word can decode to. -/
def Sized : LoadStoreOp → Prop
  | .cas size => Width size
  | .rmw _ size => Width size
  | .casp elemSize => elemSize = 4 ∨ elemSize = 8
  | .stxp elemSize => elemSize = 4 ∨ elemSize = 8
  | _ => True

instance decidableSized : (op : LoadStoreOp) → Decidable (Sized op)
  | .cas _ => inferInstanceAs (Decidable (_ ∨ _))
  | .rmw _ _ => inferInstanceAs (Decidable (_ ∨ _))
  | .casp _ => inferInstanceAs (Decidable (_ ∨ _))
  | .stxp _ => inferInstanceAs (Decidable (_ ∨ _))
  | .ldxr _ => isTrue trivial
  | .stxr _ => isTrue trivial
  | .ldxp _ => isTrue trivial
  | .ldar _ => isTrue trivial
  | .stlr _ => isTrue trivial
  | .elsewhere => isTrue trivial

theorem loadStoreCases_sized : ∀ c ∈ loadStoreCases, ∀ code < 4, Sized (c.2 code) := by
  decide +kernel

theorem sized_of_decode {insn : U32} {op : LoadStoreOp} (h : decodeLoadStore insn = some op) :
    Sized op := by
  have hsize : fieldSize insn < 4 := by
    rw [fieldSize, BitVec.toNat_ushiftRight, Nat.shiftRight_eq_div_pow]
    have := insn.isLt
    omega
  rw [decodeLoadStore, Lib.Pattern.decode] at h
  obtain ⟨f, hf, rfl⟩ := Option.map_eq_some_iff.1 h
  obtain ⟨c, hc, rfl⟩ := Option.map_eq_some_iff.1 hf
  exact loadStoreCases_sized c (List.mem_of_find?_eq_some hc) _ hsize

theorem exists_pairPow {n : Nat} (h : n = 4 ∨ n = 8) : ∃ k, (k = 2 ∨ k = 3) ∧ n = 2 ^ k := by
  rcases h with rfl | rfl
  · exact ⟨2, .inl rfl, rfl⟩
  · exact ⟨3, .inr rfl, rfl⟩

/-- The atomics are exact and all-or-nothing but for a CAS of a byte or a halfword that the
higher bits of its 32-bit register decide. -/
theorem atomicLaw_iff (attached : Bool) (io : SocIo E) (insn : U32) (s : Core (World E)) :
    s.AtomicLaw (socPort attached io) insn ↔ s.ElementDecides (socPort attached io) insn := by
  rw [AtomicLaw, ElementDecides]
  cases hop : decodeLoadStore insn with
  | none => exact ⟨fun _ _ h => (nomatch h), fun _ => trivial⟩
  | some op =>
    have hsized := sized_of_decode hop
    cases op with
    | cas size =>
      constructor
      · intro hlaw size' hsame
        cases hsame
        exact compareDecides_of_exchange hsized hlaw
      · intro hcond
        exact compareAndSwap_exchange hsized (hcond size rfl)
    | rmw fn size =>
      exact ⟨fun _ _ h => (nomatch h), fun _ => atomicRmw_exchange hsized fn _ _⟩
    | casp elemSize =>
      obtain ⟨k, hk, rfl⟩ := exists_pairPow hsized
      exact ⟨fun _ _ h => (nomatch h), fun _ => compareAndSwapPair_exchange hk _ _⟩
    | stxp elemSize =>
      obtain ⟨k, hk, rfl⟩ := exists_pairPow hsized
      exact ⟨fun _ _ h => (nomatch h), fun _ => storeExclusivePair_pairStore hk _ _ _⟩
    | _ => exact ⟨fun _ _ h => (nomatch h), fun _ => trivial⟩

/-! CASB W0, W1, [X2] with a byte of RAM that is zero and 256 in W0 -/

def casbWord : U32 := 0x08A07C41

def silentIo : SocIo Unit := ⟨quietIo, fun _ _ _ _ => rfl⟩

def casbState : Core (World Unit) where
  cpu := ((Cpu.reset 0 0 0).setReg 0 0x100).setReg 1 1
  bus := quietWorld
  writes := []

theorem casbState_load :
    (casbState.mmuRead (socPort true silentIo) 2 0 1 true).1 = some 0 := by
  rfl

/-- The low byte of W0 is the byte in memory and W1 differs from it, but nothing is stored. -/
theorem casbWord_breaks_law : ¬ casbState.AtomicLaw (socPort true silentIo) casbWord := by
  have hop : decodeLoadStore casbWord = some (.cas 1) := by decide +kernel
  intro hlaw
  rw [AtomicLaw, hop] at hlaw
  have hdecides := compareDecides_of_exchange (.inl rfl) hlaw
  have hread : casbState.mmuRead (socPort true silentIo) 2 0 1 true =
      (some 0, (casbState.mmuRead (socPort true silentIo) 2 0 1 true).2) :=
    Prod.ext casbState_load rfl
  have hon : casbState.OnRam (socPort true silentIo) .read 0 1 ⟨0, 0⟩ :=
    ⟨0, rfl, bootRamMapping, bootRam_mapped, rfl, by decide, by decide, rfl⟩
  have hlow : (casbState.cpu.reg 0).setWidth 8 = (0 : U64).setWidth 8 := rfl
  rcases hdecides 0 _ ⟨0, 0⟩ hread hon hlow with hfits | hdesired
  · exact absurd hfits (by decide)
  · exact absurd hdesired (by decide)

end Core
end Aarchvm

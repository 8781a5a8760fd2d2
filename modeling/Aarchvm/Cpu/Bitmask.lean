import Aarchvm.Cpu.Effects

/-!
# Bitmask immediates and bitfields

`decode_bit_masks` against DecodeBitMasks, and the words of the logical immediate and
bitfield classes against the pseudocode. The function is not told which of the two
classes it serves: it accepts the run of ones that fills its element, which is reserved for
a logical immediate. The bodies of logical immediates leave SP alone where the
pseudocode writes it.
-/
namespace Aarchvm

open Lib

/-! ## Element size -/

/-- The scan for the highest set bit of `N:NOT(imms)`. -/
theorem scan_eq_maskLen {n imms : Nat} (hn : n < 2) (himms : imms < 64) :
    ((List.range 7).reverse.find? fun i => (64 * n + (63 - imms)).testBit i) =
      A64.maskLen n imms := by
  have h : ∀ n < 2, ∀ imms < 64,
      ((List.range 7).reverse.find? fun i => (64 * n + (63 - imms)).testBit i) =
        A64.maskLen n imms := by
    decide +kernel
  exact h n hn imms himms

theorem maskLen_lt {n imms len : Nat} (h : A64.maskLen n imms = some len) : len < 7 := by
  have hmem := List.mem_of_getLast? h
  exact List.mem_range.1 (List.mem_filter.1 hmem).1

/-- An element size is found but for the last two values of `imms` without `N`. -/
theorem maskLen_cases {n imms : Nat} (hn : n < 2) (himms : imms < 64) :
    (n = 0 ∧ 62 ≤ imms) ∧ (∀ len, A64.maskLen n imms = some len → len = 0) ∨
      ¬ (n = 0 ∧ 62 ≤ imms) ∧
        ∃ len, A64.maskLen n imms = some len ∧ 0 < len ∧ len ≤ 6 ∧ (len = 6 ↔ n = 1) := by
  have hlast : ∀ n < 2, ∀ imms < 64, n = 0 ∧ 62 ≤ imms →
      A64.maskLen n imms = none ∨ A64.maskLen n imms = some 0 := by
    decide +kernel
  have hrest : ∀ n < 2, ∀ imms < 64, (n = 0 ∧ 62 ≤ imms) ∨
      ∃ len < 7, A64.maskLen n imms = some len ∧ 0 < len ∧ (len = 6 ↔ n = 1) := by
    decide +kernel
  by_cases h : n = 0 ∧ 62 ≤ imms
  · refine .inl ⟨h, fun len hlen => ?_⟩
    rcases hlast n hn imms himms h with hnone | hzero
    · rw [hnone] at hlen
      cases hlen
    · rw [hzero] at hlen
      cases hlen
      rfl
  · rcases hrest n hn imms himms with h' | ⟨len, hlt, heq, hpos, hiff⟩
    · exact absurd h' h
    · exact .inr ⟨h, len, heq, hpos, Nat.le_of_lt_succ hlt, hiff⟩

/-- The run of ones fills its element: `S` equals `levels`. -/
def FullElement (n imms : Nat) : Prop := if n = 1 then imms = 63 else imms ∈ [31, 47, 55, 59, 61]

instance (n imms : Nat) : Decidable (FullElement n imms) :=
  inferInstanceAs (Decidable (if n = 1 then imms = 63 else imms ∈ [31, 47, 55, 59, 61]))

theorem fullElement_iff {n imms len : Nat} (hn : n < 2) (himms : imms < 64)
    (hlen : A64.maskLen n imms = some len) (hpos : 0 < len) :
    FullElement n imms ↔ imms % 2 ^ len = 2 ^ len - 1 := by
  have h : ∀ n < 2, ∀ imms < 64, ∀ len < 7, A64.maskLen n imms = some len →
      len = 0 ∨ decide (FullElement n imms) = decide (imms % 2 ^ len = 2 ^ len - 1) := by
    decide +kernel
  rcases h n hn imms himms len (maskLen_lt hlen) hlen with hzero | hsame
  · omega
  · exact decide_eq_decide.1 hsame

/-! ## Masks -/

/-- The difference of two element offsets, in 32 bits and in the element. -/
theorem offset_mod {len s r : Nat} (hlen : len ≤ 6) (hs : s < 2 ^ len) (hr : r < 2 ^ len) :
    (s + 2 ^ 32 - r) % 2 ^ 32 % 2 ^ len = (s + 2 ^ len - r) % 2 ^ len := by
  have hpow : 2 ^ 32 = 2 ^ len * 2 ^ (32 - len) := by
    rw [← Nat.pow_add]
    congr 1
    omega
  have hone : 1 ≤ 2 ^ (32 - len) := Nat.one_le_two_pow
  have hle : 2 ^ len ≤ 2 ^ len * 2 ^ (32 - len) := Nat.le_mul_of_pos_right _ (by omega)
  have hsplit : s + 2 ^ 32 - r = s + 2 ^ len - r + 2 ^ len * (2 ^ (32 - len) - 1) := by
    rw [hpow, Nat.mul_sub, Nat.mul_one]
    omega
  rw [Nat.mod_mod_of_dvd _ (Nat.pow_dvd_pow 2 (by omega)), hsplit, Nat.add_mul_mod_self_left]

/-- Both masks, for an element that fits the data size. -/
theorem decodeBitMasks_of_len {n imms immr len d : Nat} (hn : n < 2) (himms : imms < 64)
    (hlen : A64.maskLen n imms = some len) (hpos : 0 < len) (hle : len ≤ 6)
    (hdvd : 2 ^ len ∣ d) (hd : d ≤ 64) (hzero : 0 < d) :
    decodeBitMasks n imms immr d =
      (A64.decodeBitMasks d n imms immr false).map fun masks =>
        (masks.1.setWidth 64, masks.2.setWidth 64) := by
  have hesize : 2 ^ len ≤ 64 := Nat.pow_le_pow_right (by decide) hle
  have hpow := Nat.two_pow_pos len
  have hmod (x : Nat) : x &&& 2 ^ len - 1 = x % 2 ^ len := Nat.and_two_pow_sub_one_eq_mod x len
  have hs := Nat.mod_lt imms hpow
  have hr := Nat.mod_lt immr hpow
  have hoff := Nat.mod_lt (imms % 2 ^ len + 2 ^ len - immr % 2 ^ len) hpow
  have hfits : ¬ (len = 0 ∨ d < 2 ^ len ∨ false = true ∧ imms % 2 ^ len = 2 ^ len - 1) := by
    have := Nat.le_of_dvd hzero hdvd
    simp only [Bool.false_eq_true, false_and, or_false]
    omega
  rw [decodeBitMasks, A64.decodeBitMasks]
  dsimp only
  rw [scan_eq_maskLen hn himms, hlen]
  dsimp only
  rw [if_neg (by omega), if_neg hfits, Option.map_some, hmod, hmod, hmod, offset_mod hle hs hr,
    ones_eq (show imms % 2 ^ len + 1 ≤ 2 ^ len from hs), ones_eq (show _ + 1 ≤ 2 ^ len from hoff),
    ror_eq _ hpow hesize, replicate_eq _ hpow hdvd hd hesize, replicate_eq _ hpow hdvd hd hesize]

/-- A bitfield's masks are the architectural ones, unless a 32-bit one is given `N`. -/
theorem decodeBitMasks_eq {n imms : Nat} (immr : Nat) {sf : Bool} (hn : n < 2) (himms : imms < 64)
    (hsf : n = 1 → sf = true) :
    decodeBitMasks n imms immr (Cpu.widthOf sf) =
      (A64.decodeBitMasks (Cpu.widthOf sf) n imms immr false).map fun masks =>
        (masks.1.setWidth 64, masks.2.setWidth 64) := by
  have hd := Cpu.widthOf_le sf
  rcases maskLen_cases hn himms with ⟨-, hzero⟩ | ⟨-, len, hlen, hpos, hle, hsix⟩
  · rw [decodeBitMasks, A64.decodeBitMasks]
    dsimp only
    rw [scan_eq_maskLen hn himms]
    cases hlen : A64.maskLen n imms with
    | none => rfl
    | some len =>
      have h := hzero len hlen
      dsimp only
      rw [if_pos (by omega), if_pos (.inl h)]
      rfl
  · refine decodeBitMasks_of_len hn himms hlen hpos hle ?_ hd (by cases sf <;> decide)
    by_cases h : n = 1
    · rw [hsf h, hsix.2 h]
      exact Nat.dvd_refl 64
    · have hfive : len ≤ 5 := by
        have := mt hsix.1 h
        omega
      exact (Nat.pow_dvd_pow 2 hfive).trans (by cases sf <;> decide)

/-- As the scan sees it, only the last two values of `imms` without `N` are reserved. -/
theorem decodeBitMasks_eq_none_iff {n imms : Nat} (immr d : Nat) (hn : n < 2) (himms : imms < 64) :
    decodeBitMasks n imms immr d = none ↔ n = 0 ∧ 62 ≤ imms := by
  rw [decodeBitMasks]
  dsimp only
  rw [scan_eq_maskLen hn himms]
  rcases maskLen_cases hn himms with ⟨hlast, hzero⟩ | ⟨hne, len, hlen, hpos, -⟩
  · refine iff_of_true ?_ hlast
    cases hlen : A64.maskLen n imms with
    | none => rfl
    | some len =>
      have h := hzero len hlen
      exact if_pos (by omega)
  · simp only [hlen, hne, iff_false]
    rw [if_neg (by omega)]
    exact Option.some_ne_none _

/-- What DecodeBitMasks reserves for a logical immediate. -/
theorem decodeBitMasks_of_full {w n imms immr : Nat} (hn : n < 2) (himms : imms < 64)
    (hfull : FullElement n imms) : A64.decodeBitMasks w n imms immr true = none := by
  rw [A64.decodeBitMasks]
  cases hlen : A64.maskLen n imms with
  | none => rfl
  | some len =>
    by_cases hpos : len = 0
    · exact if_pos (.inl hpos)
    · have hlevels := (fullElement_iff hn himms hlen (Nat.pos_of_ne_zero hpos)).1 hfull
      exact if_pos (.inr (.inr ⟨rfl, hlevels⟩))

theorem decodeBitMasks_of_not_full {w n imms immr : Nat} (hn : n < 2) (himms : imms < 64)
    (hfull : ¬ FullElement n imms) (immediate : Bool) :
    A64.decodeBitMasks w n imms immr immediate = A64.decodeBitMasks w n imms immr false := by
  rw [A64.decodeBitMasks, A64.decodeBitMasks]
  cases hlen : A64.maskLen n imms with
  | none => rfl
  | some len =>
    refine if_congr ?_ rfl rfl
    by_cases hpos : len = 0
    · exact iff_of_true (.inl hpos) (.inl hpos)
    · have hlevels := mt (fullElement_iff hn himms hlen (Nat.pos_of_ne_zero hpos)).2 hfull
      simp only [hlevels, and_false]

/-- An element of 64 bits does not fit 32. -/
theorem decodeBitMasks_narrow {n imms immr : Nat} (hn : n = 1) (himms : imms < 64)
    (immediate : Bool) : A64.decodeBitMasks 32 n imms immr immediate = none := by
  rcases maskLen_cases (show n < 2 by omega) himms with ⟨h, -⟩ | ⟨-, len, hlen, -, -, hsix⟩
  · omega
  · rw [A64.decodeBitMasks, hlen, hsix.2 hn]
    exact if_pos (.inr (.inl (by decide)))

/-- The decoded masks are the architectural ones, for either class. -/
def DecodesAsArchitecture (n : BitVec 1) (imms immr : BitVec 6) (sf immediate : Bool) : Prop :=
  decodeBitMasks n.toNat imms.toNat immr.toNat (Cpu.widthOf sf) =
    (A64.decodeBitMasks (Cpu.widthOf sf) n.toNat imms.toNat immr.toNat immediate).map fun masks =>
      (masks.1.setWidth 64, masks.2.setWidth 64)

theorem decodesAsArchitecture_iff (n : BitVec 1) (imms immr : BitVec 6) (sf immediate : Bool) :
    DecodesAsArchitecture n imms immr sf immediate ↔
      ¬ (n = 1 ∧ sf = false) ∧ ¬ (immediate = true ∧ FullElement n.toNat imms.toNat) := by
  have hn := n.isLt
  have himms := imms.isLt
  have hone : n = 1 ↔ n.toNat = 1 := BitVec.toNat_eq
  have hnone := decodeBitMasks_eq_none_iff immr.toNat (Cpu.widthOf sf) hn himms
  rw [DecodesAsArchitecture, hone]
  constructor
  · intro h
    constructor
    · rintro ⟨hn1, rfl⟩
      rw [show Cpu.widthOf false = 32 from rfl, decodeBitMasks_narrow hn1 himms] at h
      have := hnone.1 h
      omega
    · rintro ⟨rfl, hfull⟩
      rw [decodeBitMasks_of_full hn himms hfull] at h
      have hlast := hnone.1 h
      rw [FullElement, if_neg (by omega)] at hfull
      simp at hfull
      omega
  · rintro ⟨hwide, hfull⟩
    have hsf : n.toNat = 1 → sf = true := fun h =>
      Bool.not_eq_false _ ▸ fun hf => hwide ⟨h, hf⟩
    rw [decodeBitMasks_eq immr.toNat hn himms hsf]
    cases immediate with
    | false => rfl
    | true => rw [decodeBitMasks_of_not_full hn himms (fun h => hfull ⟨rfl, h⟩) true]

/-! ## The classes -/

/-- The scan finds an element, and the data size holds it. -/
def ElementFits (insn : U32) : Prop :=
  if bitField insn 22 1 = 1 then insn.getLsbD 31 = true else bitField insn 10 6 < 62

instance (insn : U32) : Decidable (ElementFits insn) :=
  inferInstanceAs (Decidable (if bitField insn 22 1 = 1 then insn.getLsbD 31 = true
    else bitField insn 10 6 < 62))

theorem ElementFits.wide {insn : U32} (h : ElementFits insn) (hn : bitField insn 22 1 = 1) :
    insn.getLsbD 31 = true := by
  rwa [ElementFits, if_pos hn] at h

theorem ElementFits.not_narrow {insn : U32} (h : ElementFits insn) :
    ¬ (bitField insn 22 1 = 1 ∧ insn.getLsbD 31 = false) := by
  rintro ⟨hn, hsf⟩
  rw [h.wide hn] at hsf
  cases hsf

inductive BitmaskClass where
  | logicalImmediate
  | bitfield
  deriving DecidableEq, Repr

namespace BitmaskClass

def pattern : BitmaskClass → Pattern 32
  | logicalImmediate => ⟨0x1F800000, 0x12000000⟩
  | bitfield => ⟨0x1F800000, 0x13000000⟩

/-- The pseudocode of the class. -/
def effect : BitmaskClass → Nat → U32 → A64.View → Option A64.Effect
  | logicalImmediate => A64.logicalImmediate
  | bitfield => A64.bitfield

/-- Where the program does something else. A logical immediate that is decoded is executed when
its element is full, and leaves SP alone when that is its destination; a 32-bit bitfield is
executed with bits past the register. -/
def Misexecuted (insn : U32) : BitmaskClass → Prop
  | logicalImmediate =>
    ElementFits insn ∧
      (FullElement (bitField insn 22 1) (bitField insn 10 6) ∨
        bitField insn 29 2 ≠ 3 ∧ bitField insn 0 5 = 31)
  | bitfield =>
    bitField insn 29 2 ≠ 3 ∧ ¬ insn.getLsbD 31 ∧ bitField insn 22 1 = 0 ∧
      (32 ≤ bitField insn 16 6 ∨ 32 ≤ bitField insn 10 6) ∧ bitField insn 10 6 < 62

end BitmaskClass

namespace Cpu

variable (c : Cpu)

/-! ## Logical immediates -/

theorem execInteger_logicalImm (predecode : Bool) {insn : U32}
    (hpre : Pattern.decode predecodeCases insn = some .logicalImm)
    (hop : Pattern.decode integerCases insn = some .logicalImmediate) :
    c.execInteger predecode insn = (c.execLogicalImmediate insn).getD c.undefined :=
  c.execInteger_eq predecode (.inr (c.execDecoded_logicalImm hpre)) hop

/-- The program refuses what its scan does not find, and `N` in 32 bits. -/
theorem execLogicalImmediate_eq (insn : U32) :
    c.execLogicalImmediate insn =
      if bitField insn 22 1 = 1 ∧ insn.getLsbD 31 = false then none
      else
        (decodeBitMasks (bitField insn 22 1) (bitField insn 10 6) (bitField insn 16 6)
          (A64.width insn)).map fun masks => c.apply (logicalEffect (bitField insn 29 2)
            (bitField insn 0 5) (c.a64View.x (A64.width insn) (bitField insn 5 5))
            (masks.1.setWidth (A64.width insn))) := by
  have hn : bitField insn 22 1 < 2 := bitField_lt insn 22 1
  have hrn : bitField insn 5 5 < 32 := bitField_lt insn 5 5
  have hcond : (!insn.getLsbD 31 && bitField insn 22 1 != 0) = true ↔
      bitField insn 22 1 = 1 ∧ insn.getLsbD 31 = false := by
    have hnz : bitField insn 22 1 ≠ 0 ↔ bitField insn 22 1 = 1 := by omega
    rw [Bool.and_eq_true, Bool.not_eq_true', bne_iff_ne, hnz, and_comm]
  rw [execLogicalImmediate]
  dsimp only
  simp only [hcond, finishLogical_apply, c.regOf_eq hrn, setWidth_back]
  rfl

/-- A word is refused when its scan finds nothing, or for `N` in 32 bits. -/
theorem execLogicalImmediate_eq_none_iff (insn : U32) :
    c.execLogicalImmediate insn = none ↔ ¬ ElementFits insn := by
  have hn : bitField insn 22 1 < 2 := bitField_lt insn 22 1
  have himms : bitField insn 10 6 < 64 := bitField_lt insn 10 6
  rw [execLogicalImmediate_eq, ElementFits]
  by_cases h : bitField insn 22 1 = 1
  · rw [if_pos h]
    cases hsf : insn.getLsbD 31 with
    | false => simp [h]
    | true =>
      rw [if_neg (by simp), Option.map_eq_none_iff, decodeBitMasks_eq_none_iff _ _ hn himms]
      simp [h]
  · rw [if_neg h, if_neg (fun hno => h hno.1), Option.map_eq_none_iff,
      decodeBitMasks_eq_none_iff _ _ hn himms]
    omega

/-- A word that is executed has not raised an exception. -/
theorem execLogicalImmediate_ne (insn : U32)
    (h : (Cpu.reset 0 0 0).execLogicalImmediate insn ≠ none) :
    ((Cpu.reset 0 0 0).execLogicalImmediate insn).getD (Cpu.reset 0 0 0).undefined ≠
      (Cpu.reset 0 0 0).undefined := by
  rw [execLogicalImmediate_eq] at h ⊢
  split at h
  · exact absurd rfl h
  · next hwide =>
    rw [if_neg hwide]
    cases hmasks : decodeBitMasks (bitField insn 22 1) (bitField insn 10 6) (bitField insn 16 6)
        (A64.width insn) with
    | none =>
      rw [hmasks] at h
      exact absurd rfl h
    | some masks => exact apply_ne_undefined rfl _

/-- The pseudocode's writes. -/
def immediateEffect {w : Nat} (opc d : Nat) (x y : BitVec w) : A64.Effect :=
  match opc with
  | 0 => .toXSp d (x &&& y)
  | 1 => .toXSp d (x ||| y)
  | 2 => .toXSp d (x ^^^ y)
  | _ => .toX d (x &&& y) (some (A64.logicFlags (x &&& y)))

theorem immediateEffect_eq {w : Nat} {opc d : Nat} (x y : BitVec w) (h : opc = 3 ∨ d ≠ 31) :
    immediateEffect opc d x y = logicalEffect opc d x y := by
  rcases h with rfl | hd
  · rfl
  · match opc with
    | 0 => exact toXSp_eq_toX hd _
    | 1 => exact toXSp_eq_toX hd _
    | 2 => exact toXSp_eq_toX hd _
    | n + 3 => rfl

/-- With SP as the destination the program writes nothing. -/
theorem immediateEffect_sp_ne {w opc : Nat} (x y : BitVec w) (h : opc < 3) :
    ∃ sp : U64, ∀ c : Cpu, c.regs 31 = sp →
      c.apply (logicalEffect opc 31 x y) ≠ c.apply (immediateEffect opc 31 x y) := by
  have hresult : ∃ value : BitVec w, immediateEffect opc 31 x y = .toXSp 31 value ∧
      logicalEffect opc 31 x y = .toX 31 value none := by
    interval_cases opc
    · exact ⟨x &&& y, rfl, rfl⟩
    · exact ⟨x ||| y, rfl, rfl⟩
    · exact ⟨x ^^^ y, rfl, rfl⟩
  obtain ⟨value, hsp, hx⟩ := hresult
  refine ⟨~~~(value.setWidth 64), fun c hc heq => ?_⟩
  have hregs := congrArg (fun c => c.regs 31) heq
  rw [hsp, hx] at hregs
  simp only [apply_toX_regs, apply_toXSp_regs, hc] at hregs
  have hbit := congrArg (BitVec.getLsbD · 0) hregs
  simp at hbit

theorem logicalImmediate_eq (w : Nat) (insn : U32) (v : A64.View) :
    A64.logicalImmediate w insn v =
      (A64.decodeBitMasks w (bitField insn 22 1) (bitField insn 10 6) (bitField insn 16 6)
        true).map fun masks =>
          immediateEffect (bitField insn 29 2) (bitField insn 0 5) (v.x w (bitField insn 5 5))
            masks.1 := rfl

section LogicalImmediate

variable {insn : U32} (h : BitmaskClass.logicalImmediate.pattern.Matches insn = true)
include h

theorem execInteger_logicalImmediate (predecode : Bool) :
    c.execInteger predecode insn = (c.execLogicalImmediate insn).getD c.undefined := by
  have hpre : Pattern.decode predecodeCases insn = some .logicalImm :=
    Pattern.decode_of_first h (by decide +kernel)
  have hop : Pattern.decode integerCases insn = some .logicalImmediate :=
    Pattern.decode_of_first h (by decide +kernel)
  exact c.execInteger_logicalImm predecode hpre hop

/-- Where nothing is misexecuted and the scan succeeds, both sides write the same. -/
theorem logicalImmediate_conforms_of_fits
    (hfits : ElementFits insn)
    (hfull : ¬ FullElement (bitField insn 22 1) (bitField insn 10 6))
    (hdest : bitField insn 29 2 = 3 ∨ bitField insn 0 5 ≠ 31) :
    Conforms A64.logicalImmediate insn := by
  intro c predecode
  have hn : bitField insn 22 1 < 2 := bitField_lt insn 22 1
  have himms : bitField insn 10 6 < 64 := bitField_lt insn 10 6
  rw [execInteger_logicalImmediate c h predecode, execLogicalImmediate_eq,
    if_neg hfits.not_narrow, logicalImmediate_eq, decodeBitMasks_of_not_full hn himms hfull,
    width_eq, decodeBitMasks_eq _ hn himms hfits.wide]
  cases A64.decodeBitMasks (widthOf (insn.getLsbD 31)) (bitField insn 22 1) (bitField insn 10 6)
      (bitField insn 16 6) false with
  | none => rfl
  | some masks =>
    rw [Option.map_some, Option.map_some, Option.map_some, Option.getD_some, setWidth_back,
      ← immediateEffect_eq _ _ hdest]
    rfl

/-- A reserved word is executed. -/
theorem logicalImmediate_not_conforms_of_full (hfits : ElementFits insn)
    (hfull : FullElement (bitField insn 22 1) (bitField insn 10 6)) :
    ¬ Conforms A64.logicalImmediate insn := by
  intro hall
  have hn : bitField insn 22 1 < 2 := bitField_lt insn 22 1
  have himms : bitField insn 10 6 < 64 := bitField_lt insn 10 6
  have heq := hall (Cpu.reset 0 0 0) false
  rw [execInteger_logicalImmediate _ h, logicalImmediate_eq,
    decodeBitMasks_of_full hn himms hfull] at heq
  refine execLogicalImmediate_ne insn (fun hnone => ?_) heq
  exact (execLogicalImmediate_eq_none_iff _ insn).1 hnone hfits

/-- The stack pointer is the destination, and is not written. -/
theorem logicalImmediate_not_conforms_of_sp (hfits : ElementFits insn)
    (hfull : ¬ FullElement (bitField insn 22 1) (bitField insn 10 6))
    (hopc : bitField insn 29 2 < 3) (hd : bitField insn 0 5 = 31) :
    ¬ Conforms A64.logicalImmediate insn := by
  intro hall
  have hn : bitField insn 22 1 < 2 := bitField_lt insn 22 1
  have himms : bitField insn 10 6 < 64 := bitField_lt insn 10 6
  have hcode := decodeBitMasks_eq (bitField insn 16 6) hn himms hfits.wide
  rw [← width_eq] at hcode
  cases hmasks : A64.decodeBitMasks (A64.width insn) (bitField insn 22 1) (bitField insn 10 6)
      (bitField insn 16 6) false with
  | none =>
    rw [hmasks, Option.map_none] at hcode
    refine (execLogicalImmediate_eq_none_iff (Cpu.reset 0 0 0) insn).1 ?_ hfits
    rw [execLogicalImmediate_eq, hcode]
    exact ite_self none
  | some masks =>
    rw [hmasks, Option.map_some] at hcode
    obtain ⟨sp, hsp⟩ := immediateEffect_sp_ne (0#(A64.width insn)) masks.1 hopc
    have heq := hall (Cpu.reset 0 sp 0) false
    have hback : (masks.1.setWidth 64).setWidth (A64.width insn) = masks.1 := setWidth_back _
    rw [execInteger_logicalImmediate _ h, execLogicalImmediate_eq, if_neg hfits.not_narrow, hcode,
      logicalImmediate_eq, decodeBitMasks_of_not_full hn himms hfull, hmasks, Option.map_some,
      Option.map_some, Option.getD_some, reset_x, hd, hback] at heq
    exact hsp _ rfl heq

/-- Both sides refuse the word. -/
theorem logicalImmediate_conforms_of_not_fits (hfits : ¬ ElementFits insn) :
    Conforms A64.logicalImmediate insn := by
  intro c predecode
  have hn : bitField insn 22 1 < 2 := bitField_lt insn 22 1
  have himms : bitField insn 10 6 < 64 := bitField_lt insn 10 6
  have hnone := (execLogicalImmediate_eq_none_iff c insn).2 hfits
  have hspec : A64.logicalImmediate (A64.width insn) insn c.a64View = none := by
    rw [logicalImmediate_eq, Option.map_eq_none_iff]
    rw [ElementFits] at hfits
    by_cases h1 : bitField insn 22 1 = 1
    · rw [if_pos h1, Bool.not_eq_true] at hfits
      rw [width_eq, hfits]
      exact decodeBitMasks_narrow h1 himms true
    · rw [if_neg h1] at hfits
      rcases maskLen_cases hn himms with ⟨-, hzero⟩ | ⟨hlast, -⟩
      · rw [A64.decodeBitMasks]
        cases hlen : A64.maskLen (bitField insn 22 1) (bitField insn 10 6) with
        | none => rfl
        | some len => exact if_pos (.inl (hzero len hlen))
      · omega
  rw [execInteger_logicalImmediate c h predecode, hnone, hspec]
  rfl

theorem logicalImmediate_conforms_iff :
    Conforms A64.logicalImmediate insn ↔
      ¬ BitmaskClass.logicalImmediate.Misexecuted insn := by
  have hopc : bitField insn 29 2 < 4 := bitField_lt insn 29 2
  constructor
  · rintro hall ⟨hfits, hwrong⟩
    by_cases hfull : FullElement (bitField insn 22 1) (bitField insn 10 6)
    · exact logicalImmediate_not_conforms_of_full h hfits hfull hall
    · obtain ⟨hthree, hd⟩ := hwrong.resolve_left hfull
      exact logicalImmediate_not_conforms_of_sp h hfits hfull (by omega) hd hall
  · intro hok
    by_cases hfits : ElementFits insn
    · have hwrong := fun hw => hok ⟨hfits, hw⟩
      refine logicalImmediate_conforms_of_fits h hfits (fun hfull => hwrong (.inl hfull)) ?_
      by_contra hno
      rw [not_or, not_not] at hno
      exact hwrong (.inr hno)
    · exact logicalImmediate_conforms_of_not_fits h hfits

end LogicalImmediate

/-! ## Bitfields -/

/-- The architectural result of SBFM, BFM and UBFM for given masks. -/
def bitfieldValue {w : Nat} (opc immr imms : Nat) (x y : BitVec w) (masks : BitVec w × BitVec w) :
    BitVec w :=
  let dst := if opc = 1 then y else 0
  let bot := (dst &&& ~~~masks.1) ||| (x.rotateRight immr &&& masks.1)
  let top := if opc = 0 then (if x.getLsbD imms then BitVec.allOnes w else 0) else dst
  (top &&& ~~~masks.2) ||| (bot &&& masks.2)

theorem bitfieldResult_eq {sf : Bool} {opc immr imms : Nat} (hopc : opc < 3)
    (himms : imms < widthOf sf) (x y : BitVec (widthOf sf))
    (masks : BitVec (widthOf sf) × BitVec (widthOf sf)) :
    ∃ value, bitfieldResult opc immr imms (widthOf sf) (x.setWidth 64) (y.setWidth 64)
        (masks.1.setWidth 64, masks.2.setWidth 64) = some value ∧
      value.setWidth (widthOf sf) = bitfieldValue opc immr imms x y masks := by
  have hle := widthOf_le sf
  have hpos : 0 < widthOf sf := by cases sf <;> decide
  have hand : imms &&& (widthOf sf - 1) = imms := by
    cases sf with
    | true => exact (Nat.and_two_pow_sub_one_eq_mod imms 6).trans (Nat.mod_eq_of_lt himms)
    | false => exact (Nat.and_two_pow_sub_one_eq_mod imms 5).trans (Nat.mod_eq_of_lt himms)
  have hsign : (x.setWidth 64).getLsbD imms = x.getLsbD imms := by
    rw [BitVec.getLsbD_setWidth, decide_eq_true (by omega), Bool.true_and]
  have hones : (ones (widthOf sf)).setWidth (widthOf sf) = BitVec.allOnes (widthOf sf) := by
    rw [ones_eq (Nat.le_refl _), setWidth_back, BitVec.setWidth_eq]
  interval_cases opc
  · refine ⟨_, rfl, ?_⟩
    rw [hand, hsign, ror_eq x hpos hle, bitfieldValue]
    cases x.getLsbD imms with
    | true => simp [BitVec.setWidth_not hle, setWidth_back, hones]
    | false => simp [setWidth_back]
  · refine ⟨_, rfl, ?_⟩
    rw [ror_eq x hpos hle, bitfieldValue]
    simp [BitVec.setWidth_not hle, setWidth_back]
  · refine ⟨_, rfl, ?_⟩
    rw [ror_eq x hpos hle, bitfieldValue]
    simp [setWidth_back]

theorem bitfield_eq (w : Nat) (insn : U32) (v : A64.View) :
    A64.bitfield w insn v =
      if bitField insn 29 2 = 3 ∨ (bitField insn 22 1 = 1) ≠ (w = 64) ∨ w ≤ bitField insn 16 6 ∨
          w ≤ bitField insn 10 6 then none
      else
        (A64.decodeBitMasks w (bitField insn 22 1) (bitField insn 10 6) (bitField insn 16 6)
          false).map fun masks =>
            .toX (bitField insn 0 5) (bitfieldValue (bitField insn 29 2) (bitField insn 16 6)
              (bitField insn 10 6) (v.x w (bitField insn 5 5)) (v.x w (bitField insn 0 5)) masks)
              none := rfl

/-- `N` is the width bit. -/
def WidthBit (insn : U32) : Prop := bitField insn 22 1 = 1 ↔ insn.getLsbD 31 = true

theorem widthBit_iff (insn : U32) :
    WidthBit insn ↔ ¬ (bitField insn 22 1 = 1) ≠ (A64.width insn = 64) := by
  have hw : A64.width insn = 64 ↔ insn.getLsbD 31 = true := by
    rw [width_eq]
    cases insn.getLsbD 31 <;> decide
  rw [hw, not_ne_iff, eq_iff_iff]
  rfl

theorem execBitfield_eq (insn : U32) (hwidth : WidthBit insn) :
    c.execBitfield insn =
      (decodeBitMasks (bitField insn 22 1) (bitField insn 10 6) (bitField insn 16 6)
        (A64.width insn)).bind fun masks =>
          (bitfieldResult (bitField insn 29 2) (bitField insn 16 6) (bitField insn 10 6)
            (A64.width insn) ((c.a64View.x (A64.width insn) (bitField insn 5 5)).setWidth 64)
            ((c.a64View.x (A64.width insn) (bitField insn 0 5)).setWidth 64) masks).map fun value =>
              c.apply (.toX (bitField insn 0 5) (value.setWidth (A64.width insn)) none) := by
  have hn : bitField insn 22 1 < 2 := bitField_lt insn 22 1
  have hrn : bitField insn 5 5 < 32 := bitField_lt insn 5 5
  have hrd : bitField insn 0 5 < 32 := bitField_lt insn 0 5
  have hcond : (insn.getLsbD 31 && bitField insn 22 1 != 1 ||
      !insn.getLsbD 31 && bitField insn 22 1 != 0) = false := by
    rw [WidthBit] at hwidth
    cases hsf : insn.getLsbD 31 with
    | true =>
      rw [hwidth.2 hsf]
      rfl
    | false =>
      have hzero : bitField insn 22 1 = 0 := by
        have := mt hwidth.1 (by rw [hsf]; exact Bool.false_ne_true)
        omega
      rw [hzero]
      rfl
  have hset : c.setRegOf (insn.getLsbD 31) (bitField insn 0 5) = fun value =>
      c.apply (.toX (bitField insn 0 5) (value.setWidth (A64.width insn)) none) :=
    funext fun value => c.setRegOf_apply _ _ value
  rw [execBitfield, hcond, if_neg Bool.false_ne_true, c.regOf_eq hrn, c.regOf_eq hrd, hset]
  rfl

theorem execBitfield_of_not_width (insn : U32) (hwidth : ¬ WidthBit insn) :
    c.execBitfield insn = none := by
  have hn : bitField insn 22 1 < 2 := bitField_lt insn 22 1
  have hcond : (insn.getLsbD 31 && bitField insn 22 1 != 1 ||
      !insn.getLsbD 31 && bitField insn 22 1 != 0) = true := by
    rw [WidthBit] at hwidth
    cases hsf : insn.getLsbD 31 with
    | true =>
      rw [hsf, iff_true_right rfl] at hwidth
      simp [hwidth]
    | false =>
      rw [hsf, iff_false_right Bool.false_ne_true, not_not] at hwidth
      simp [hwidth]
  rw [execBitfield]
  exact if_pos hcond

section Bitfield

variable {insn : U32} (h : BitmaskClass.bitfield.pattern.Matches insn = true)
include h

theorem execInteger_bitfield (predecode : Bool) :
    c.execInteger predecode insn = (c.execBitfield insn).getD c.undefined := by
  have hpre : Pattern.decode predecodeCases insn = some .bitfield :=
    Pattern.decode_of_first h (by decide +kernel)
  have hop : Pattern.decode integerCases insn = some .bitfield :=
    Pattern.decode_of_first h (by decide +kernel)
  exact c.execInteger_eq predecode (.inr (c.execDecoded_bitfield hpre)) hop

/-- Fields inside the register: the same result. -/
theorem bitfield_conforms_of_inside (hwidth : WidthBit insn) (hopc : bitField insn 29 2 < 3)
    (hr : bitField insn 16 6 < A64.width insn) (hs : bitField insn 10 6 < A64.width insn) :
    Conforms A64.bitfield insn := by
  intro c predecode
  have hn : bitField insn 22 1 < 2 := bitField_lt insn 22 1
  have himms : bitField insn 10 6 < 64 := bitField_lt insn 10 6
  have hallowed : ¬ (bitField insn 29 2 = 3 ∨ (bitField insn 22 1 = 1) ≠ (A64.width insn = 64) ∨
      A64.width insn ≤ bitField insn 16 6 ∨ A64.width insn ≤ bitField insn 10 6) := by
    have := (widthBit_iff insn).1 hwidth
    rintro (h1 | h2 | h3 | h4)
    · omega
    · exact this h2
    · omega
    · omega
  have hmasks := decodeBitMasks_eq (bitField insn 16 6) hn himms hwidth.1
  rw [← width_eq] at hmasks
  rw [execInteger_bitfield c h predecode, execBitfield_eq c insn hwidth, bitfield_eq,
    if_neg hallowed, hmasks]
  cases A64.decodeBitMasks (A64.width insn) (bitField insn 22 1) (bitField insn 10 6)
      (bitField insn 16 6) false with
  | none => rfl
  | some masks =>
    let x := c.a64View.x (A64.width insn) (bitField insn 5 5)
    let y := c.a64View.x (A64.width insn) (bitField insn 0 5)
    have hresult : ∃ value, bitfieldResult (bitField insn 29 2) (bitField insn 16 6)
        (bitField insn 10 6) (A64.width insn) (x.setWidth 64) (y.setWidth 64)
        (masks.1.setWidth 64, masks.2.setWidth 64) = some value ∧
        value.setWidth (A64.width insn) =
          bitfieldValue (bitField insn 29 2) (bitField insn 16 6) (bitField insn 10 6) x y masks :=
      bitfieldResult_eq hopc hs x y masks
    obtain ⟨value, hvalue, hback⟩ := hresult
    rw [Option.map_some, Option.bind_some, hvalue, Option.map_some, Option.getD_some, hback]
    rfl

/-- Both sides refuse the word. -/
theorem bitfield_conforms_of_refused (hnone : ∀ c : Cpu, c.execBitfield insn = none)
    (hspec : ∀ v, A64.bitfield (A64.width insn) insn v = none) : Conforms A64.bitfield insn := by
  intro c predecode
  rw [execInteger_bitfield c h predecode, hnone, hspec]
  rfl

omit h in
theorem bitfieldResult_some {opc : Nat} (hopc : opc < 3) (immr imms d : Nat) (x y : U64)
    (masks : U64 × U64) : ∃ value, bitfieldResult opc immr imms d x y masks = some value := by
  interval_cases opc <;> exact ⟨_, rfl⟩

/-- A field past a 32-bit register is not refused. -/
theorem bitfield_not_conforms (hmis : BitmaskClass.bitfield.Misexecuted insn) :
    ¬ Conforms A64.bitfield insn := by
  intro hall
  obtain ⟨hopc, hsf, hn, hpast, himms⟩ := hmis
  rw [Bool.not_eq_true] at hsf
  have hlt : bitField insn 29 2 < 4 := bitField_lt insn 29 2
  have hw : A64.width insn = 32 := by rw [width_eq, hsf]; rfl
  have hwidth : WidthBit insn := by
    rw [WidthBit, hn, hsf]
    decide
  have hspec : A64.bitfield (A64.width insn) insn (Cpu.reset 0 0 0).a64View = none := by
    rw [bitfield_eq, hw]
    exact if_pos (.inr (.inr hpast))
  have hcode : ¬ decodeBitMasks (bitField insn 22 1) (bitField insn 10 6) (bitField insn 16 6)
      (A64.width insn) = none := by
    rw [decodeBitMasks_eq_none_iff _ _ (bitField_lt insn 22 1) (bitField_lt insn 10 6)]
    omega
  obtain ⟨masks, hmasks⟩ := Option.ne_none_iff_exists'.1 hcode
  obtain ⟨value, hvalue⟩ := bitfieldResult_some (show bitField insn 29 2 < 3 by omega)
    (bitField insn 16 6) (bitField insn 10 6) (A64.width insn)
    (((Cpu.reset 0 0 0).a64View.x (A64.width insn) (bitField insn 5 5)).setWidth 64)
    (((Cpu.reset 0 0 0).a64View.x (A64.width insn) (bitField insn 0 5)).setWidth 64) masks
  have heq := hall (Cpu.reset 0 0 0) false
  rw [execInteger_bitfield _ h, execBitfield_eq _ insn hwidth, hspec, hmasks, Option.bind_some,
    hvalue, Option.map_some, Option.getD_some] at heq
  exact @apply_ne_undefined (Cpu.reset 0 0 0) rfl _ heq

theorem bitfield_conforms_iff :
    Conforms A64.bitfield insn ↔ ¬ BitmaskClass.bitfield.Misexecuted insn := by
  refine ⟨fun hall hmis => bitfield_not_conforms h hmis hall, fun hok => ?_⟩
  have hn : bitField insn 22 1 < 2 := bitField_lt insn 22 1
  have hopc : bitField insn 29 2 < 4 := bitField_lt insn 29 2
  have hr : bitField insn 16 6 < 64 := bitField_lt insn 16 6
  have hs : bitField insn 10 6 < 64 := bitField_lt insn 10 6
  by_cases hwidth : WidthBit insn
  · by_cases hthree : bitField insn 29 2 = 3
    · refine bitfield_conforms_of_refused h (fun c => ?_) fun v => if_pos (.inl hthree)
      rw [execBitfield_eq c insn hwidth, hthree]
      cases decodeBitMasks (bitField insn 22 1) (bitField insn 10 6) (bitField insn 16 6)
        (A64.width insn) <;> rfl
    · by_cases hinside : bitField insn 16 6 < A64.width insn ∧ bitField insn 10 6 < A64.width insn
      · exact bitfield_conforms_of_inside h hwidth (by omega) hinside.1 hinside.2
      · -- in 32 bits, with a field past the register: only a failing scan refuses the word
        have hsf : insn.getLsbD 31 = false := by
          by_contra hsf
          rw [Bool.not_eq_false] at hsf
          have hw : A64.width insn = 64 := by rw [width_eq, hsf]; rfl
          rw [hw] at hinside
          exact hinside ⟨hr, hs⟩
        have hw : A64.width insn = 32 := by rw [width_eq, hsf]; rfl
        have hzero : bitField insn 22 1 = 0 := by
          have := mt hwidth.1 (by rw [hsf]; exact Bool.false_ne_true)
          omega
        have hpast : 32 ≤ bitField insn 16 6 ∨ 32 ≤ bitField insn 10 6 := by
          rw [hw] at hinside
          omega
        have hlast : 62 ≤ bitField insn 10 6 := by
          by_contra hlt
          exact hok ⟨hthree, by rw [hsf]; exact Bool.false_ne_true, hzero, hpast, by omega⟩
        refine bitfield_conforms_of_refused h (fun c => ?_) fun v => ?_
        · rw [execBitfield_eq c insn hwidth,
            (decodeBitMasks_eq_none_iff _ _ hn hs).2 ⟨hzero, hlast⟩]
          rfl
        · rw [bitfield_eq, hw]
          exact if_pos (.inr (.inr hpast))
  · refine bitfield_conforms_of_refused h
      (fun c => execBitfield_of_not_width c insn hwidth) fun v => ?_
    exact if_pos (.inr (.inl (not_not.1 (mt (widthBit_iff insn).2 hwidth))))

end Bitfield

/-- The decoder agrees with DecodeBitMasks, and a word of either class with its pseudocode, in
exactly these cases. -/
theorem bitmasks_as_architecture_iff (n : BitVec 1) (imms immr : BitVec 6) (sf immediate : Bool)
    (cls : BitmaskClass) (x : cls.pattern.Word) :
    (DecodesAsArchitecture n imms immr sf immediate ↔
      ¬ (n = 1 ∧ sf = false) ∧ ¬ (immediate = true ∧ FullElement n.toNat imms.toNat)) ∧
    (Conforms cls.effect x.insn ↔ ¬ cls.Misexecuted x.insn) := by
  refine ⟨decodesAsArchitecture_iff n imms immr sf immediate, ?_⟩
  cases cls with
  | logicalImmediate => exact logicalImmediate_conforms_iff x.inClass
  | bitfield => exact bitfield_conforms_iff x.inClass

/-- AND X0, X0 with the reserved full element, ORR SP, XZR, #1 and UBFM W0, W0, #32, #0. -/
theorem bitmask_words_not_conform :
    ¬ DecodesAsArchitecture 1 63 0 true true ∧
      ¬ Conforms A64.logicalImmediate 0x9240FC00 ∧
      ¬ Conforms A64.logicalImmediate 0xB24003FF ∧
      ¬ Conforms A64.bitfield 0x53200000 := by
  refine ⟨fun h => ?_, ?_, ?_, ?_⟩
  · exact ((decodesAsArchitecture_iff _ _ _ _ _).1 h).2 ⟨rfl, by decide⟩
  · exact logicalImmediate_not_conforms_of_full (by decide) (by decide) (by decide)
  · exact logicalImmediate_not_conforms_of_sp (by decide) (by decide) (by decide) (by decide)
      (by decide)
  · exact bitfield_not_conforms (by decide) ⟨by decide, by decide, by decide, by decide, by decide⟩

end Cpu
end Aarchvm

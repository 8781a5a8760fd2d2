import Aarchvm.Cpu.StoreValue
import Aarchvm.Lib.Run

/-!
# The decode cache

`lookup_decoded` over the pages of decoded words, with what fills, drops and disables them. A slot
remembers the word that it was decoded from and is used for that word alone, so a lookup never
answers with another instruction, whatever was invalidated in between and whatever was not.
-/
namespace Aarchvm

open Lib

def kDecodePageSlots : Nat := 1024

/-- The decode cache with the instructions in it; the fields of the pages that hold them are kept
beside `decode_pages_`. -/
structure InsnCache (α : Type) extends DecodeCache where
  decodeContextEpoch : U64
  contextEpochs : Fin kDecodeCachePages → U64
  raws : Fin kDecodeCachePages → Nat → U32
  validWords : Fin kDecodeCachePages → Nat → U64
  insns : Fin kDecodeCachePages → Nat → α

namespace InsnCache

variable {α : Type}

/-- The cache of a new CPU. -/
def initial (blank : α) : InsnCache α where
  predecodeEnabled := true
  decodePages := fun _ => ⟨false, 0, 0⟩
  decodeLastPage := none
  decodeContextEpoch := 1
  contextEpochs := fun _ => 0
  raws := fun _ _ => 0
  validWords := fun _ _ => 0
  insns := fun _ _ => blank

variable (d : InsnCache α)

/-- `invalidate_decode_all`. -/
def invalidateDecodeAll : InsnCache α :=
  let epoch := d.decodeContextEpoch + 1
  { d with
    decodePages := fun i => { d.decodePages i with valid := false }
    decodeLastPage := none
    decodeContextEpoch := if epoch = 0 then 1 else epoch }

/-- `set_predecode_enabled`. -/
def setPredecodeEnabled (enabled : Bool) : InsnCache α :=
  if d.predecodeEnabled = enabled then d
  else invalidateDecodeAll { d with predecodeEnabled := enabled }

/-- Page `i` is valid and holds the page of the fetch in the current context. -/
def holds (i : Fin kDecodeCachePages) (vaPage paPage : U64) : Bool :=
  (d.decodePages i).valid && d.contextEpochs i == d.decodeContextEpoch &&
    (d.decodePages i).vaPage == vaPage && (d.decodePages i).paPage == paPage

/-- The slot of `decode_pages_` that a virtual page goes to. -/
def pageIndex (vaPage : U64) : Fin kDecodeCachePages :=
  ⟨(vaPage >>> 12).toNat % kDecodeCachePages, Nat.mod_lt _ (by decide)⟩

/-- `lookup_decoded` up to the page: the last one, or the one that the address selects, taken over
when it holds another page. -/
def selectPage (va pa : U64) : Fin kDecodeCachePages × InsnCache α :=
  let vaPage := va &&& ~~~0xFFF
  let paPage := pa &&& ~~~0xFFF
  match d.decodeLastPage.filter fun i => d.holds i vaPage paPage with
  | some i => (i, d)
  | none =>
    let i := pageIndex vaPage
    if d.holds i vaPage paPage then (i, { d with decodeLastPage := some i })
    else
      (i, { d with
        decodePages := Function.update d.decodePages i ⟨true, vaPage, paPage⟩
        contextEpochs := Function.update d.contextEpochs i d.decodeContextEpoch
        validWords := Function.update d.validWords i fun _ => 0
        decodeLastPage := some i })

/-- The valid bit of a slot. -/
def slotValid (i : Fin kDecodeCachePages) (slot : Nat) : Bool :=
  (d.validWords i (slot / 64)).getLsbD (slot % 64)

/-- Decode a word into its slot. -/
def fillSlot (decode : U32 → α) (i : Fin kDecodeCachePages) (slot : Nat) (insn : U32) :
    InsnCache α :=
  { d with
    insns := Function.update d.insns i (Function.update (d.insns i) slot (decode insn))
    raws := Function.update d.raws i (Function.update (d.raws i) slot insn)
    validWords := Function.update d.validWords i (Function.update (d.validWords i) (slot / 64)
      (d.validWords i (slot / 64) ||| BitVec.twoPow 64 (slot % 64))) }

/-- `lookup_decoded` in its page: the slot as it is, or filled again. -/
def lookupSlot (decode : U32 → α) (i : Fin kDecodeCachePages) (slot : Nat) (insn : U32) :
    α × InsnCache α :=
  let d := if !d.slotValid i slot || d.raws i slot != insn then d.fillSlot decode i slot insn else d
  (d.insns i slot, d)

/-- `lookup_decoded`; `none` for the null pointer. -/
def lookupDecoded (decode : U32 → α) (va pa : U64) (insn : U32) : Option α × InsnCache α :=
  if d.predecodeEnabled then
    let (i, d) := d.selectPage va pa
    let (decoded, d) := d.lookupSlot decode i ((va >>> 2).toNat % kDecodePageSlots) insn
    (some decoded, d)
  else (none, d)

/-! ## Every slot is right for the word it was decoded from -/

def Sound (decode : U32 → α) (d : InsnCache α) : Prop :=
  ∀ i slot, d.slotValid i slot = true → d.insns i slot = decode (d.raws i slot)

variable {d} {decode : U32 → α}

theorem sound_initial (blank : α) : (initial blank).Sound decode := by
  intro i slot hvalid
  have hclear : (initial blank).slotValid i slot = false := BitVec.getLsbD_zero
  rw [hclear] at hvalid
  cases hvalid

/-- Dropping pages and changing the context leave the slots alone. -/
theorem Sound.of_same {d' : InsnCache α} (h : d.Sound decode)
    (hvalid : d'.validWords = d.validWords) (hraws : d'.raws = d.raws)
    (hinsns : d'.insns = d.insns) : d'.Sound decode := by
  intro i slot hslot
  rw [slotValid, hvalid] at hslot
  rw [hinsns, hraws]
  exact h i slot hslot

theorem Sound.selectPage (h : d.Sound decode) (va pa : U64) :
    (d.selectPage va pa).2.Sound decode := by
  rw [InsnCache.selectPage]
  split
  · exact h
  · dsimp only
    split
    · exact h.of_same rfl rfl rfl
    · intro i slot hslot
      rw [slotValid] at hslot
      dsimp only at hslot
      by_cases hi : i = pageIndex (va &&& ~~~0xFFF)
      · have hclear : (0 : U64).getLsbD (slot % 64) = false := BitVec.getLsbD_zero
        rw [hi, Function.update_self, hclear] at hslot
        cases hslot
      · rw [Function.update_of_ne hi] at hslot
        exact h i slot hslot

/-- Filling a slot touches no other. -/
theorem slotValid_fillSlot (i j : Fin kDecodeCachePages) (slot slot' : Nat) (insn : U32)
    (hne : j ≠ i ∨ slot' ≠ slot) :
    (d.fillSlot decode i slot insn).slotValid j slot' = d.slotValid j slot' := by
  rw [slotValid, slotValid, fillSlot]
  dsimp only
  by_cases hj : j = i
  · subst hj
    have hslot : slot' ≠ slot := hne.resolve_left fun h => h rfl
    rw [Function.update_self]
    by_cases hword : slot' / 64 = slot / 64
    · have hbit : slot % 64 ≠ slot' % 64 := by omega
      rw [hword, Function.update_self, BitVec.getLsbD_or, BitVec.getLsbD_twoPow]
      simp [hbit]
    · rw [Function.update_of_ne hword]
  · rw [Function.update_of_ne hj]

theorem insns_fillSlot (i : Fin kDecodeCachePages) (slot : Nat) (insn : U32) :
    (d.fillSlot decode i slot insn).insns i slot = decode insn := by
  rw [fillSlot]
  dsimp only
  rw [Function.update_self, Function.update_self]

theorem Sound.fillSlot (h : d.Sound decode) (i : Fin kDecodeCachePages) (slot : Nat)
    (insn : U32) : (d.fillSlot decode i slot insn).Sound decode := by
  intro j slot' hslot
  by_cases hsame : j = i ∧ slot' = slot
  · obtain ⟨rfl, rfl⟩ := hsame
    rw [insns_fillSlot, InsnCache.fillSlot]
    dsimp only
    rw [Function.update_self, Function.update_self]
  · have hne : j ≠ i ∨ slot' ≠ slot := by tauto
    rw [slotValid_fillSlot i j slot slot' insn hne] at hslot
    have hold := h j slot' hslot
    rw [InsnCache.fillSlot]
    dsimp only
    by_cases hj : j = i
    · subst hj
      have hslot' : slot' ≠ slot := hne.resolve_left fun h => h rfl
      rw [Function.update_self, Function.update_self, Function.update_of_ne hslot',
        Function.update_of_ne hslot']
      exact hold
    · rw [Function.update_of_ne hj, Function.update_of_ne hj]
      exact hold

theorem lookupSlot_sound (h : d.Sound decode) (i : Fin kDecodeCachePages) (slot : Nat)
    (insn : U32) :
    (d.lookupSlot decode i slot insn).1 = decode insn ∧
      (d.lookupSlot decode i slot insn).2.Sound decode := by
  rw [lookupSlot]
  split
  · exact ⟨insns_fillSlot i slot insn, h.fillSlot i slot insn⟩
  · next hhit =>
    simp only [Bool.or_eq_true, Bool.not_eq_true', bne_iff_ne, not_or, Bool.not_eq_false,
      not_not] at hhit
    exact ⟨by rw [h i slot hhit.1, hhit.2], h⟩

/-- A lookup answers with the presented word decoded, and keeps the slots right. -/
theorem lookupDecoded_sound (h : d.Sound decode) (va pa : U64) (insn : U32) :
    (d.lookupDecoded decode va pa insn).1 =
        (if d.predecodeEnabled then some (decode insn) else none) ∧
      (d.lookupDecoded decode va pa insn).2.Sound decode := by
  rw [lookupDecoded]
  cases d.predecodeEnabled with
  | false => exact ⟨rfl, h⟩
  | true =>
    have hslot := lookupSlot_sound (h.selectPage va pa) (d.selectPage va pa).1
      ((va >>> 2).toNat % kDecodePageSlots) insn
    exact ⟨congrArg some hslot.1, hslot.2⟩

/-! ## Runs -/

/-- What happens to the cache: lookups by `step`, and the invalidations of TLB maintenance, of
instruction cache maintenance, of writes to code, and of the option itself. -/
inductive Op where
  | lookup (va pa : U64) (insn : U32)
  | setPredecodeEnabled (enabled : Bool)
  | invalidateAll
  | invalidateVaPage (vaPage : U64)
  | invalidateVa (va : U64) (size : Nat)
  | invalidatePa (pa : U64) (size : Nat)
  | codeWrite (tcr va pa : U64) (size : Nat)

def step (decode : U32 → α) (d : InsnCache α) : Op → InsnCache α
  | .lookup va pa insn => (d.lookupDecoded decode va pa insn).2
  | .setPredecodeEnabled enabled => d.setPredecodeEnabled enabled
  | .invalidateAll => d.invalidateDecodeAll
  | .invalidateVaPage vaPage =>
    { d with toDecodeCache := d.toDecodeCache.invalidateDecodeVaPage vaPage }
  | .invalidateVa va size => { d with toDecodeCache := d.toDecodeCache.invalidateDecodeVa va size }
  | .invalidatePa pa size => { d with toDecodeCache := d.toDecodeCache.invalidateDecodePa pa size }
  | .codeWrite tcr va pa size =>
    { d with toDecodeCache := d.toDecodeCache.onCodeWrite tcr va pa size }

theorem sound_step (d : InsnCache α) (op : Op) (h : d.Sound decode) :
    (d.step decode op).Sound decode := by
  cases op with
  | lookup va pa insn => exact (lookupDecoded_sound h va pa insn).2
  | setPredecodeEnabled enabled =>
    rw [step, InsnCache.setPredecodeEnabled]
    split
    · exact h
    · exact h.of_same rfl rfl rfl
  | invalidateAll => exact h.of_same rfl rfl rfl
  | invalidateVaPage vaPage => exact h.of_same rfl rfl rfl
  | invalidateVa va size => exact h.of_same rfl rfl rfl
  | invalidatePa pa size => exact h.of_same rfl rfl rfl
  | codeWrite tcr va pa size => exact h.of_same rfl rfl rfl

end InsnCache
end Aarchvm

import Aarchvm.Bus.Ram
import Aarchvm.Cpu.Branch
import Aarchvm.Cpu.LoadStoreForms
import Aarchvm.Cpu.Monitor
import Aarchvm.Lib.Decoders

/-!
# Predecoded loads and stores

The loads and stores of `decode_insn` and `exec_decoded` against those of `exec_load_store`. The
predecoded bodies leave two things to the bus: the low bytes of a register that STRB and STRH with
an unsigned offset store, and the zeros above what LDRB and LDRH with write-back load.
-/
namespace Aarchvm

open Lib

/-! ## Decoding -/

/-- The loads and stores that `decode_insn` knows, and the words it leaves to the plain path. -/
inductive AccessForm where
  | fallback
  /-- `LoadStoreUImm` -/
  | unsigned (isLoad : Bool) (size : Nat)
  /-- `LoadStore` with an unsigned offset -/
  | signedLoad (result64 : Bool) (size : Nat)
  /-- `LoadStore` with write-back -/
  | indexed (isLoad : Bool) (mode : IndexMode) (size : Nat)
  deriving DecidableEq, Repr

abbrev AccessCase := Pattern 32 × AccessForm

/-- Pre-index and post-index forms of one size, in the order of the tests. -/
def indexedCases (post : U32) (size : Nat) : List AccessCase :=
  [(⟨0xFFC00C00, post ||| 0x00400000⟩, .indexed true .post size),
   (⟨0xFFC00C00, post⟩, .indexed false .post size),
   (⟨0xFFC00C00, post ||| 0x00400800⟩, .indexed true .pre size),
   (⟨0xFFC00C00, post ||| 0x00000800⟩, .indexed false .pre size)]

/-- The tests of `decode_insn` for loads and stores, in its order. -/
def accessCases : List AccessCase :=
  [(⟨0xFFC00000, 0xF9400000⟩, .unsigned true 8), (⟨0xFFC00000, 0xF9000000⟩, .unsigned false 8),
   (⟨0xFFC00000, 0xB9400000⟩, .unsigned true 4), (⟨0xFFC00000, 0xB9000000⟩, .unsigned false 4),
   (⟨0xFFC00000, 0xB9800000⟩, .signedLoad true 4), (⟨0xFFC00000, 0x39C00000⟩, .signedLoad false 1),
   (⟨0xFFC00000, 0x39800000⟩, .signedLoad true 1), (⟨0xFFC00000, 0x79C00000⟩, .signedLoad false 2),
   (⟨0xFFC00000, 0x79800000⟩, .signedLoad true 2), (⟨0xFFC00000, 0x39400000⟩, .unsigned true 1),
   (⟨0xFFC00000, 0x39000000⟩, .unsigned false 1), (⟨0xFFC00000, 0x79400000⟩, .unsigned true 2),
   (⟨0xFFC00000, 0x79000000⟩, .unsigned false 2), (⟨0xFF200400, 0xF8200400⟩, .fallback)] ++
  indexedCases 0x38000400 1 ++ indexedCases 0x78000400 2 ++ indexedCases 0xB8000400 4 ++
  indexedCases 0xF8000400 8

/-- The part of `DecodedInsn` that loads and stores use. -/
structure DecodedAccess where
  /-- the kind is `LoadStoreUImm` -/
  uimm : Bool
  rd : Nat
  rn : Nat
  imm : U32 := 0
  simm : U32 := 0
  aux : Nat
  aux2 : Nat := 0
  load : Bool := false
  signed : Bool := false
  result64 : Bool := false
  deriving DecidableEq, Repr

/-- The unsigned offset of an access of `size` bytes, scaled by shifting. -/
def uimmOffset (insn : U32) (size : Nat) : U32 := ((insn >>> 10) &&& 0xFFF) <<< size.log2

/-- What a form leaves in `DecodedInsn`. -/
def AccessForm.decoded (insn : U32) : AccessForm → Option DecodedAccess
  | .fallback => none
  | .unsigned isLoad size =>
    some { uimm := true, rd := fieldRt insn, rn := fieldRn insn, imm := uimmOffset insn size,
           aux := size, load := isLoad, result64 := isLoad && size == 8 }
  | .signedLoad result64 size =>
    some { uimm := false, rd := fieldRt insn, rn := fieldRn insn, imm := uimmOffset insn size,
           aux := size, load := true, signed := true, result64 := result64 }
  | .indexed isLoad mode size =>
    some { uimm := false, rd := fieldRt insn, rn := fieldRn insn,
           simm := (simm9 insn).setWidth 32, aux := size, aux2 := if mode = .pre then 1 else 2,
           load := isLoad, result64 := isLoad && size == 8 }

/-- `decode_insn` on loads and stores. -/
def decodeAccess (insn : U32) : Option DecodedAccess :=
  (Pattern.decode accessCases insn).bind (·.decoded insn)

/-! ## Bodies -/

namespace Exec

variable {β : Type} (port : BusPort β) (d : DecodedAccess)

/-- The result of a load that is not sign-extended and not of eight bytes, in
`exec_decoded_load_store_uimm`. -/
def uimmResult (size : Nat) (value : U64) : U32 :=
  if size = 1 then (value.setWidth 8).setWidth 32
  else if size = 2 then (value.setWidth 16).setWidth 32
  else value.setWidth 32

/-- `exec_decoded_load_store_uimm`. -/
def decodedLoadStoreUImm : Exec β Unit := do
  checkSpAlignment d.rn
  let c ← cpu
  let addr := c.spOrReg d.rn + d.imm.setWidth 64
  if d.load then do
    checkDataAlignment port addr d.aux .read
    let value ← rawMmuRead port addr d.aux .read
    modifyCpu fun c =>
      if d.result64 then c.setReg d.rd value else c.setReg32 d.rd (uimmResult d.aux value)
  else do
    checkDataAlignment port addr d.aux .write
    rawMmuWrite port addr (if d.aux = 8 then c.reg d.rd else (c.reg32 d.rd).setWidth 64)
      d.aux .write

/-- The address of the access and the address that is written back. -/
def decodedAddr (base : U64) : U64 × U64 :=
  let moved := base + d.simm.signExtend 64
  if d.aux2 = 1 then (moved, moved)
  else if d.aux2 = 2 then (base, moved)
  else (base + d.imm.setWidth 64, 0)

/-- The result of a load in the case `LoadStore`. -/
def decodedResult (c : Cpu) (value : U64) : Cpu :=
  if d.signed then
    let signedValue := signExtend (value &&& ones (8 * d.aux)) (8 * d.aux)
    if d.result64 then c.setReg d.rd signedValue else c.setReg32 d.rd (signedValue.setWidth 32)
  else if d.result64 then c.setReg d.rd value
  else c.setReg32 d.rd (value.setWidth 32)

/-- The case `LoadStore` of `exec_decoded`. -/
def decodedLoadStore : Exec β Unit := do
  checkSpAlignment d.rn
  let c ← cpu
  let addr := (decodedAddr d (c.spOrReg d.rn)).1
  if d.load then do
    checkDataAlignment port addr d.aux .read
    let value ← rawMmuRead port addr d.aux .read
    modifyCpu (decodedResult d · value)
  else do
    checkDataAlignment port addr d.aux .write
    rawMmuWrite port addr (c.storeValue d.rd d.aux) d.aux .write
  if d.aux2 = 0 then pure ()
  else modifyCpu (·.setSpOrReg d.rn (decodedAddr d (c.spOrReg d.rn)).2 false)

def decodedBody : Exec β Unit :=
  if d.uimm then decodedLoadStoreUImm port d else decodedLoadStore port d

end Exec

/-- The predecoded access as `step` executes it; it never returns false. -/
def VecCore.execDecodedAccess {β : Type} (port : BusPort β) (d : DecodedAccess) (s : VecCore β) :
    VecCore β :=
  (Exec.decodedBody port d).finish s

/-! ## The forms of the plain path -/

/-- What `decode_insn` has for a form. -/
def MemForm.access : MemForm → AccessForm
  | .loadUnsigned .zero size => .unsigned true size
  | .loadUnsigned ext size => .signedLoad (ext == .sign64) size
  | .storeUnsigned size => .unsigned false size
  | .load .zero mode size => .indexed true mode size
  | .store mode size => .indexed false mode size
  | _ => .fallback

/-- Each class of `decode_insn` meets the same tests in `exec_load_store`. -/
theorem memFormCases_left : ∀ c ∈ accessCases,
    (Pattern.left c.1 memFormCases).map (fun e => (e.1, e.2.access)) =
      Pattern.left c.1 accessCases := by
  decide +kernel

/-! ## A bus that keeps to the width of an access -/

/-- No read gives more than the bytes asked for, and no write looks at more than the bytes given. -/
structure BusPort.Sized {β : Type} (port : BusPort β) : Prop where
  read : ∀ {b b' : β} {pa : U64} {size : Nat} {value : U64},
    port.read b pa size = (some value, b') → value &&& ones (8 * size) = value
  write : ∀ (b : β) (pa value : U64) (size : Nat),
    port.write b pa (value &&& ones (8 * size)) size = port.write b pa value size

theorem and_ones_iff {value : U64} {k : Nat} :
    value &&& ones k = value ↔ ∀ i < 64, k ≤ i → value.getLsbD i = false := by
  rw [BitVec.eq_of_getLsbD_eq_iff]
  refine forall₂_congr fun i hi => ?_
  rw [BitVec.getLsbD_and, ones_getLsbD, decide_eq_true hi, Bool.and_true]
  by_cases hk : i < k
  · simp [hk]
  · rw [decide_eq_false hk, Bool.and_false]
    exact ⟨fun h _ => h.symm, fun h => (h (Nat.le_of_not_lt hk)).symm⟩

/-- A word with one more byte below fits one more byte. -/
theorem and_ones_cons {low x : U64} {n : Nat} (hlow : low &&& ones 8 = low)
    (hx : x &&& ones (8 * n) = x) :
    (low ||| x <<< 8) &&& ones (8 * (n + 1)) = low ||| x <<< 8 := by
  rw [and_ones_iff] at hlow hx ⊢
  intro i hi hn
  have hhigh : x.getLsbD (i - 8) = false := hx (i - 8) (by omega) (by omega)
  rw [BitVec.getLsbD_or, hlow i hi (by omega), BitVec.getLsbD_shiftLeft, hhigh, Bool.and_false,
    Bool.false_or]

theorem joinBytes_sized (bytes : List U64) :
    joinBytes bytes &&& ones (8 * bytes.length) = joinBytes bytes := by
  induction bytes with
  | nil => rfl
  | cons byte bytes ih =>
    have hlow : byte &&& 0xFF &&& ones 8 = byte &&& 0xFF := by
      have hff : (0xFF : U64) = ones 8 := rfl
      rw [hff, BitVec.and_assoc, BitVec.and_self]
    exact and_ones_cons hlow ih

theorem loadLe_sized (data : Nat → U8) (off n : Nat) :
    loadLe data off n &&& ones (8 * n) = loadLe data off n := by
  induction n generalizing off with
  | zero => exact BitVec.zero_and
  | succ n ih =>
    have hlow : (data off).setWidth 64 &&& ones 8 = (data off).setWidth 64 := by
      rw [and_ones_iff]
      intro i _ hn
      rw [BitVec.getLsbD_setWidth, BitVec.getLsbD_of_ge _ _ hn, Bool.and_false]
    exact and_ones_cons hlow (ih (off + 1))

/-- The stored bytes are those of the low part. -/
theorem valueByte_sized (value : U64) {i size : Nat} (h : i < size) :
    valueByte (value &&& ones (8 * size)) i = valueByte value i := by
  have hff : (0xFF : U64) = ones 8 := rfl
  rw [valueByte, valueByte, hff]
  apply BitVec.eq_of_getLsbD_eq
  intro k hk
  simp only [BitVec.getLsbD_and, BitVec.getLsbD_ushiftRight, ones_getLsbD]
  by_cases hbyte : k < 8
  · by_cases hword : i * 8 + k < 64
    · simp [hbyte, hk, hword, show i * 8 + k < 8 * size by omega]
    · rw [BitVec.getLsbD_of_ge _ _ (Nat.le_of_not_lt hword)]
      rfl
  · simp [hbyte]

theorem byteOf_sized (value : U64) {k size : Nat} (h : k < size) :
    byteOf (value &&& ones (8 * size)) k = byteOf value k := by
  apply BitVec.eq_of_getLsbD_eq
  intro i hi
  rw [byteOf, byteOf, BitVec.getLsbD_extractLsb', BitVec.getLsbD_extractLsb', BitVec.getLsbD_and,
    ones_getLsbD, decide_eq_true (show 8 * k + i < 8 * size by omega), Bool.true_and]
  by_cases hword : 8 * k + i < 64
  · rw [decide_eq_true hword, Bool.and_true]
  · rw [BitVec.getLsbD_of_ge _ _ (Nat.le_of_not_lt hword), Bool.false_and]

/-- A bus with one RAM, mapped at 0. -/
def ramPort : BusPort Ram where
  read := fun r pa size => (r.readFast pa (BitVec.ofNat 64 size), r)
  write := fun r pa value size =>
    match r.writeFast pa value (BitVec.ofNat 64 size) with
    | some r' => (true, r')
    | none => (false, r)
  readDesc := fun r pa => r.readFast pa 8
  hasRam := fun r pa => decide (pa < r.size)

/-- RAM keeps to the width of an access. -/
theorem ramPort_sized : ramPort.Sized := by
  have hle : ∀ size : Nat, (BitVec.ofNat 64 size).toNat ≤ size := fun size => by
    rw [BitVec.toNat_ofNat]
    exact Nat.mod_le _ _
  constructor
  · intro r r' pa size value hread
    have hfast : r.readFast pa (BitVec.ofNat 64 size) = some value := congrArg Prod.fst hread
    rw [Ram.readFast] at hfast
    split_ifs at hfast
    cases hfast
    have hfits := and_ones_iff.1 (loadLe_sized r.data pa.toNat (BitVec.ofNat 64 size).toNat)
    exact and_ones_iff.2 fun i hi hsize => hfits i hi (by have := hle size; omega)
  · intro r pa value size
    have hbytes : storeBytes r.data pa.toNat (BitVec.ofNat 64 size).toNat
          (byteOf (value &&& ones (8 * size))) =
        storeBytes r.data pa.toNat (BitVec.ofNat 64 size).toNat (byteOf value) := by
      funext i
      rw [storeBytes, storeBytes]
      split
      · next hin => exact byteOf_sized value (by have := hle size; omega)
      · rfl
    have hwrite : r.writeFast pa (value &&& ones (8 * size)) (BitVec.ofNat 64 size) =
        r.writeFast pa value (BitVec.ofNat 64 size) := by
      rw [Ram.writeFast, Ram.writeFast, hbytes]
    dsimp only [ramPort]
    rw [hwrite]

section Sized

variable {β : Type} {port : BusPort β}

theorem readEach_length {b b' : β} {reqs : List (U64 × U64)} {bytes : List U64}
    (h : port.readEach b reqs = (.ok bytes, b')) : bytes.length = reqs.length := by
  induction reqs generalizing b bytes with
  | nil =>
    cases h
    rfl
  | cons r reqs ih =>
    rw [BusPort.readEach] at h
    split at h
    · cases h
    · next byte b₁ hread =>
      cases hrest : port.readEach b₁ reqs with
      | mk rest b₂ =>
        rw [hrest] at h
        cases rest with
        | error e => cases h
        | ok bytes' =>
          cases h
          rw [List.length_cons, List.length_cons, ih hrest]

variable (s : Core β) (va : U64) {size : Nat} (access : AccessType)

/-- What a read gives fits the access. -/
theorem Core.mmuReadValue_sized (hport : port.Sized) {value : U64}
    (h : (s.mmuReadValue port va size access).1 = some value) :
    value &&& ones (8 * size) = value := by
  rw [mmuReadValue] at h
  dsimp only at h
  split_ifs at h with hsize hin
  · split at h
    · cases h
    · split at h
      · cases h
      · split at h
        · cases h
        · next hread =>
          cases h
          exact hport.read hread
  · split at h
    · cases h
    · next pas c₁ hpas =>
      split at h
      · cases h
      · split at h
        · cases h
        · next bytes b hbytes =>
          cases h
          have hlen : bytes.length = size := by
            rw [readEach_length hbytes, List.length_zip, Cpu.translateEach_length hpas, bytesFrom,
              List.length_map, List.length_range, Nat.min_self]
          have hjoin := joinBytes_sized bytes
          rw [hlen] at hjoin
          exact hjoin

/-- A store of the low part is the store. -/
theorem Core.mmuWriteValue_sized (hport : port.Sized) (value : U64) :
    s.mmuWriteValue port va (value &&& ones (8 * size)) size access =
      s.mmuWriteValue port va value size access := by
  have hwhole : ∀ (s : Core β) pa reject,
      s.commit port size [⟨va, pa, value &&& ones (8 * size)⟩] reject =
        s.commit port size [⟨va, pa, value⟩] reject := by
    intro s pa reject
    rw [commit, commit, BusPort.writeEach, BusPort.writeEach, hport.write]
  have hbytes : ∀ pas : List U64, pas.length = size →
      byteRequests va pas (valueByte (value &&& ones (8 * size))) =
        byteRequests va pas (valueByte value) := by
    intro pas hlen
    apply List.map_congr_left
    intro p hp
    have hindex : p.2 < size := hlen ▸ (List.mem_zipIdx' hp).1
    rw [valueByte_sized value hindex]
  rw [mmuWriteValue, mmuWriteValue]
  dsimp only
  split_ifs with hsize hin
  · rfl
  · simp only [hwhole]
  · split
    · rfl
    · next pas c₁ hpas =>
      have hlen : pas.length = size := by
        rw [Cpu.translateEach_length hpas, bytesFrom, List.length_map, List.length_range]
      rw [hbytes pas hlen]

end Sized

/-! ## The bodies -/

namespace Exec

section Bodies

variable {β : Type} {port : BusPort β}

theorem rawMmuRead_sized (hport : port.Sized) {va : U64} {size : Nat} {access : AccessType}
    {s s' : VecCore β} {value : U64} (h : rawMmuRead port va size access s = (.ok value, s')) :
    value &&& ones (8 * size) = value := by
  rw [rawMmuRead] at h
  split at h
  · next v core hread =>
    cases h
    exact s.core.mmuReadValue_sized va access hport (by rw [hread])
  · cases h

theorem rawMmuWrite_sized (hport : port.Sized) (va value : U64) (size : Nat)
    (access : AccessType) :
    rawMmuWrite port va (value &&& ones (8 * size)) size access =
      rawMmuWrite port va value size access := by
  funext s
  rw [rawMmuWrite, rawMmuWrite, s.core.mmuWriteValue_sized va access hport]

/-- The check of the stack pointer changes nothing when it passes. -/
theorem checkSp_cpu (rn : Nat) (f : Cpu → Exec β Unit) :
    (checkSpAlignment rn >>= fun _ => cpu >>= f) =
      cpu >>= fun c => checkSpAlignment rn >>= fun _ => f c := by
  funext s
  change Stopping.bind (checkSpAlignment rn) (fun _ => Stopping.bind cpu f) s =
    Stopping.bind (checkSpAlignment rn) (fun _ => f s.cpu) s
  rw [Stopping.bind, Stopping.bind, checkSpAlignment]
  cases s.cpu.maybeTakeSpAlignmentFault rn <;> rfl

theorem load_eq (ext : LoadExtend) (mode : IndexMode) (rn rt : Nat) (imm : U64) (size : Nat) :
    load port ext mode rn rt imm size =
      checkSpAlignment rn >>= fun _ => cpu >>= fun c =>
        checkDataAlignment port (mode.addr (c.spOrReg rn) imm) size .read >>= fun _ =>
          rawMmuRead port (mode.addr (c.spOrReg rn) imm) size .read >>= fun value =>
            modifyCpu (ext.apply · rt value size) >>= fun _ =>
              writeBack mode rn (c.spOrReg rn) imm := by
  rw [checkSp_cpu]
  simp only [load, mmuRead, Stopping.bind_assoc]

theorem store_eq (mode : IndexMode) (rn rt : Nat) (imm : U64) (size : Nat) :
    store port mode rn rt imm size =
      checkSpAlignment rn >>= fun _ => cpu >>= fun c =>
        checkDataAlignment port (mode.addr (c.spOrReg rn) imm) size .write >>= fun _ =>
          rawMmuWrite port (mode.addr (c.spOrReg rn) imm) (c.storeValue rt size) size
              .write >>= fun _ => writeBack mode rn (c.spOrReg rn) imm := by
  rw [checkSp_cpu]
  simp only [store, mmuWrite, Stopping.bind_assoc]

/-- The widths of a general register access. -/
abbrev IsWidth (size : Nat) : Prop := size = 1 ∨ size = 2 ∨ size = 4 ∨ size = 8

/-- `exec_decoded_load_store_uimm` masks what it loads. -/
theorem uimmResult_eq {size : Nat} (hsize : IsWidth size) (c : Cpu) (rt : Nat) (value : U64) :
    (if size == 8 then c.setReg rt value else c.setReg32 rt (uimmResult size value)) =
      LoadExtend.apply .zero c rt value size := by
  change _ = c.setLoaded rt value size
  rw [Cpu.setLoaded, and_ones_eq, BitVec.setWidth_setWidth_of_le _ (by decide)]
  rcases hsize with rfl | rfl | rfl | rfl
  · rfl
  · rfl
  · rw [BitVec.setWidth_eq]
    rfl
  · rfl

variable {d : DecodedAccess}

theorem decoded_unsignedLoad (hload : d.load = true) (hsize : IsWidth d.aux)
    (hresult : d.result64 = (d.aux == 8)) :
    decodedLoadStoreUImm port d =
      load port .zero .offset d.rn d.rd (d.imm.setWidth 64) d.aux := by
  rw [load_eq]
  simp only [decodedLoadStoreUImm, hload, if_true]
  refine bind_congr fun _ => bind_congr fun c => bind_congr fun _ => bind_congr fun value => ?_
  change _ = modifyCpu _ >>= fun _ => pure ()
  rw [Stopping.bind_pure, hresult]
  congr 1
  funext c'
  exact uimmResult_eq hsize c' d.rd value

theorem decoded_unsignedStore (hload : d.load = false) (hsize : IsWidth d.aux)
    (hport : d.aux < 4 → port.Sized) :
    decodedLoadStoreUImm port d = store port .offset d.rn d.rd (d.imm.setWidth 64) d.aux := by
  rw [store_eq]
  simp only [decodedLoadStoreUImm, hload]
  refine bind_congr fun _ => bind_congr fun c => bind_congr fun _ => ?_
  change _ = rawMmuWrite _ _ _ _ _ >>= fun _ => pure ()
  rw [Stopping.bind_pure]
  change rawMmuWrite port (c.spOrReg d.rn + d.imm.setWidth 64) _ _ _ =
    rawMmuWrite port (c.spOrReg d.rn + d.imm.setWidth 64) _ _ _
  generalize c.spOrReg d.rn + d.imm.setWidth 64 = va
  revert hport
  rcases hsize with h | h | h | h <;> rw [h] <;> intro hport
  · exact (rawMmuWrite_sized (hport (by decide)) va _ 1 _).symm
  · exact (rawMmuWrite_sized (hport (by decide)) va _ 2 _).symm
  · rfl
  · rfl

/-- The addressing of a predecoded access. -/
def Addressed (d : DecodedAccess) (mode : IndexMode) (imm : U64) : Prop :=
  match mode with
  | .offset => d.aux2 = 0 ∧ d.imm.setWidth 64 = imm
  | .pre => d.aux2 = 1 ∧ d.simm.signExtend 64 = imm
  | .post => d.aux2 = 2 ∧ d.simm.signExtend 64 = imm

theorem Addressed.addr {mode : IndexMode} {imm : U64} (h : Addressed d mode imm) (base : U64) :
    (decodedAddr d base).1 = mode.addr base imm := by
  cases mode <;> obtain ⟨haux, himm⟩ := h <;> rw [decodedAddr, haux, himm] <;> rfl

theorem Addressed.writeBack {mode : IndexMode} {imm : U64} (h : Addressed d mode imm)
    (base : U64) :
    (if d.aux2 = 0 then pure ()
      else modifyCpu (·.setSpOrReg d.rn (decodedAddr d base).2 false) : Exec β Unit) =
      Exec.writeBack mode d.rn base imm := by
  cases mode <;> obtain ⟨haux, himm⟩ := h <;> rw [decodedAddr, haux, himm] <;> rfl

/-- The case `LoadStore` leaves what it loads as it is. -/
theorem indexedResult_eq {size : Nat} (hsize : IsWidth size) (c : Cpu) (rt : Nat)
    (hport : size < 4 → port.Sized) {va : U64} {access : AccessType} {s s' : VecCore β}
    {value : U64} (hread : rawMmuRead port va size access s = (.ok value, s')) :
    (if true && size == 8 then c.setReg rt value else c.setReg32 rt (value.setWidth 32)) =
      LoadExtend.apply .zero c rt value size := by
  change _ = c.setLoaded rt value size
  rw [Cpu.setLoaded]
  have hnarrow : size < 4 → value &&& ones (8 * size) = value :=
    fun hsmall => rawMmuRead_sized (hport hsmall) hread
  rcases hsize with rfl | rfl | rfl | rfl
  · rw [hnarrow (by decide)]
    rfl
  · rw [hnarrow (by decide)]
    rfl
  · rw [and_ones_eq, BitVec.setWidth_setWidth_of_le _ (by decide), BitVec.setWidth_eq]
    rfl
  · rfl

/-- The case `LoadStore` is the plain load, where what it writes is. -/
theorem decoded_load {ext : LoadExtend} {mode : IndexMode} {imm : U64} (hload : d.load = true)
    (haddr : Addressed d mode imm)
    (hvalue : ∀ {va : U64} {s s' : VecCore β} {value : U64},
      rawMmuRead port va d.aux .read s = (.ok value, s') →
        ∀ c, decodedResult d c value = ext.apply c d.rd value d.aux) :
    decodedLoadStore port d = load port ext mode d.rn d.rd imm d.aux := by
  rw [load_eq]
  simp only [decodedLoadStore, hload, if_true, haddr.addr, haddr.writeBack]
  refine bind_congr fun _ => bind_congr fun c => bind_congr fun _ =>
    Stopping.bind_congr_on fun hread => ?_
  rw [funext (hvalue hread)]

theorem decoded_store {mode : IndexMode} {imm : U64} (hload : d.load = false)
    (haddr : Addressed d mode imm) :
    decodedLoadStore port d = store port mode d.rn d.rd imm d.aux := by
  rw [store_eq]
  simp only [decodedLoadStore, hload, haddr.addr, haddr.writeBack]
  rfl

end Bodies

end Exec

/-! ## Every word -/

/-- The widths and the addressing of the forms that `decode_insn` tells apart. -/
def AccessForm.Valid : AccessForm → Prop
  | .fallback => True
  | .unsigned _ size => Exec.IsWidth size
  | .signedLoad _ size => Exec.IsWidth size
  | .indexed _ mode size => mode ≠ .offset ∧ Exec.IsWidth size

instance AccessForm.decidableValid : (form : AccessForm) → Decidable form.Valid
  | .fallback => inferInstanceAs (Decidable True)
  | .unsigned _ size => inferInstanceAs (Decidable (Exec.IsWidth size))
  | .signedLoad _ size => inferInstanceAs (Decidable (Exec.IsWidth size))
  | .indexed _ mode size => inferInstanceAs (Decidable (mode ≠ .offset ∧ Exec.IsWidth size))

theorem accessCases_valid : ∀ c ∈ accessCases, c.2.Valid := by
  decide +kernel

/-- No test for an exclusive, an atomic or an ordered access comes before. -/
theorem loadStoreCases_left : ∀ c ∈ accessCases, ∀ e ∈ Pattern.left c.1 loadStoreCases,
    ∀ code < 4, e.2 code = .elsewhere := by
  decide +kernel

theorem accessCases_tests : ∀ c ∈ accessCases, c.1 ∈ loadStoreCases.map Prod.fst := by
  decide +kernel

theorem decodeLoadStore_access {insn : U32} {d : DecodedAccess}
    (h : decodeAccess insn = some d) : decodeLoadStore insn = some .elsewhere := by
  obtain ⟨form, hform, -⟩ := Option.bind_eq_some_iff.1 h
  obtain ⟨p, hp, hmatch⟩ := Pattern.mem_of_decode hform
  have hsize : fieldSize insn < 4 := by
    have hlt := insn.isLt
    rw [fieldSize, BitVec.toNat_ushiftRight, Nat.shiftRight_eq_div_pow]
    omega
  have hleft : Pattern.decode loadStoreCases insn =
      Pattern.decode (Pattern.left p loadStoreCases) insn := Pattern.decode_filter hmatch
  cases hdecode : Pattern.decode loadStoreCases insn with
  | none =>
    obtain ⟨e, he, hpattern⟩ := List.mem_map.1 (accessCases_tests _ hp)
    have hnone := List.find?_eq_none.1 (Option.map_eq_none_iff.1 hdecode) e he
    rw [hpattern] at hnone
    exact absurd hmatch hnone
  | some op =>
    rw [hleft] at hdecode
    obtain ⟨q, hq, -⟩ := Pattern.mem_of_decode hdecode
    rw [decodeLoadStore, hleft, hdecode]
    exact congrArg some (loadStoreCases_left _ hp _ hq _ hsize)

theorem uimmOffset_eq (insn : U32) {size : Nat} (hsize : Exec.IsWidth size) :
    (uimmOffset insn size).setWidth 64 = imm12 insn * BitVec.ofNat 64 size := by
  have hlt : ((insn >>> 10) &&& 0xFFF).toNat < 4096 := by
    rw [BitVec.toNat_and]
    exact Nat.lt_of_le_of_lt Nat.and_le_right (by decide)
  rw [uimmOffset, imm12]
  generalize (insn >>> 10) &&& 0xFFF = field at hlt
  apply BitVec.eq_of_toNat_eq
  rcases hsize with rfl | rfl | rfl | rfl <;>
    simp only [BitVec.toNat_setWidth, BitVec.toNat_shiftLeft, BitVec.toNat_mul,
      BitVec.toNat_ofNat, Nat.shiftLeft_eq, show Nat.log2 1 = 0 from rfl,
      show Nat.log2 2 = 1 from rfl, show Nat.log2 4 = 2 from rfl, show Nat.log2 8 = 3 from rfl] <;>
    omega

theorem simm9_narrow (insn : U32) : ((simm9 insn).setWidth 32).signExtend 64 = simm9 insn := by
  rw [simm9, signExtend_eq _ (by decide) (by decide), signExtend_narrow _ (by decide)]

theorem addressed_indexed {insn : U32} {d : DecodedAccess} {mode : IndexMode}
    (hmode : mode ≠ .offset) (haux : d.aux2 = if mode = .pre then 1 else 2)
    (hsimm : d.simm = (simm9 insn).setWidth 32) : Exec.Addressed d mode (simm9 insn) := by
  have hoffset : d.simm.signExtend 64 = simm9 insn := by rw [hsimm, simm9_narrow]
  cases mode with
  | offset => exact absurd rfl hmode
  | pre => exact ⟨haux, hoffset⟩
  | post => exact ⟨haux, hoffset⟩

/-- A predecoded access that leaves the width of what it moves to the bus. -/
def DecodedAccess.TrustsBus (d : DecodedAccess) : Prop :=
  d.aux < 4 ∧ d.signed = false ∧ d.uimm = !d.load

instance DecodedAccess.decidableTrustsBus (d : DecodedAccess) : Decidable d.TrustsBus :=
  inferInstanceAs (Decidable (_ ∧ _))

section Words

variable {β : Type} {port : BusPort β} {insn : U32} {d : DecodedAccess}

/-- The predecoded body of a form is its plain body. -/
theorem decodedBody_eq {form : MemForm} (hvalid : form.access.Valid)
    (hd : form.access.decoded insn = some d) (hport : d.TrustsBus → port.Sized) :
    form.allocated insn = true ∧ Exec.decodedBody port d = form.body port insn := by
  cases form with
  | loadUnsigned ext size =>
    refine ⟨rfl, ?_⟩
    cases ext with
    | zero =>
      cases hd
      refine Eq.trans (Exec.decoded_unsignedLoad rfl ?_ (Bool.true_and _)) ?_
      · exact hvalid
      · rw [uimmOffset_eq insn hvalid]
        rfl
    | sign32 =>
      cases hd
      exact Exec.decoded_load rfl ⟨rfl, uimmOffset_eq insn hvalid⟩ fun _ _ => rfl
    | sign64 =>
      cases hd
      exact Exec.decoded_load rfl ⟨rfl, uimmOffset_eq insn hvalid⟩ fun _ _ => rfl
  | storeUnsigned size =>
    refine ⟨rfl, ?_⟩
    cases hd
    refine Eq.trans (Exec.decoded_unsignedStore rfl ?_ fun hsmall => hport ⟨hsmall, rfl, rfl⟩) ?_
    · exact hvalid
    · rw [uimmOffset_eq insn hvalid]
      rfl
  | load ext mode size =>
    refine ⟨rfl, ?_⟩
    cases ext with
    | zero =>
      cases hd
      refine Exec.decoded_load rfl (addressed_indexed hvalid.1 rfl rfl) fun hread c => ?_
      exact Exec.indexedResult_eq hvalid.2 c _ (fun hsmall => hport ⟨hsmall, rfl, rfl⟩) hread
    | sign32 => cases hd
    | sign64 => cases hd
  | store mode size =>
    refine ⟨rfl, ?_⟩
    cases hd
    exact Exec.decoded_store rfl (addressed_indexed hvalid.1 rfl rfl)
  | _ => cases hd

/-- A predecoded load or store does to registers, memory and exceptions what the plain one does;
where it leaves the width to the bus, this takes a bus that keeps to it. -/
theorem execDecodedAccess_eq (s : VecCore β) (h : decodeAccess insn = some d)
    (hport : d.TrustsBus → port.Sized) :
    s.execLoadStore port insn = (true, s.execDecodedAccess port d) := by
  obtain ⟨access, haccess, hd⟩ := Option.bind_eq_some_iff.1 h
  obtain ⟨p, hp, -⟩ := Pattern.mem_of_decode haccess
  obtain ⟨form, hform, rfl⟩ := Pattern.decode_agree_of_classes memFormCases_left haccess
  obtain ⟨hallocated, hbody⟩ := decodedBody_eq (accessCases_valid _ hp) hd hport
  have hmem : decodeMemForm insn = some form := hform
  rw [VecCore.execLoadStore, decodeLoadStore_access h]
  dsimp only
  rw [VecCore.execMemForm, hmem]
  dsimp only
  rw [if_pos hallocated, VecCore.execDecodedAccess, hbody]

end Words

end Aarchvm

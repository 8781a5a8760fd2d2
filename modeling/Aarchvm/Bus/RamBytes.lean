import Aarchvm.Bus.Dirty

/-!
# The bytes behind a RAM access

An access inside a RAM window reads and writes that many bytes of the RAM's vector,
little-endian, and no others; the fast path makes no difference. A device whose reads
leave the RAMs alone is all that is asked of the rest of the bus.
-/
namespace Aarchvm

open Lib.WordInterval

/-! ## Little-endian values -/

/-- The bytes of a value, the lowest first. -/
def bytesOf {w : Nat} (v : BitVec w) (i : Nat) : U8 := v.extractLsb' (8 * i) 8

theorem getLsbD_bytesOf {w : Nat} (v : BitVec w) (i k : Nat) :
    (bytesOf v i).getLsbD k = (decide (k < 8) && v.getLsbD (8 * i + k)) :=
  BitVec.getLsbD_extractLsb' _ _ _ _

theorem bytesOf_setWidth {w n i : Nat} (v : BitVec w) (hi : i < n) :
    bytesOf (v.setWidth (8 * n)) i = bytesOf v i := by
  apply BitVec.eq_of_getLsbD_eq
  intro k hk
  rw [getLsbD_bytesOf, getLsbD_bytesOf, BitVec.getLsbD_setWidth]
  simp [show 8 * i + k < 8 * n by omega]

theorem loadLe_getLsbD (data : Nat → U8) (off k : Nat) {n : Nat} (hn : n ≤ 8) :
    (loadLe data off n).getLsbD k =
      (decide (k < 8 * n) && (data (off + k / 8)).getLsbD (k % 8)) := by
  induction n generalizing off k with
  | zero =>
    have hz : (loadLe data off 0).getLsbD k = false := BitVec.getLsbD_zero
    rw [hz, Nat.mul_zero]
    rfl
  | succ n ih =>
    rw [loadLe, BitVec.getLsbD_or, BitVec.getLsbD_setWidth, BitVec.getLsbD_shiftLeft,
      ih (off + 1) (k - 8) (by omega)]
    by_cases hk : k < 8
    · have hdiv : k / 8 = 0 := Nat.div_eq_of_lt hk
      have hmod : k % 8 = k := Nat.mod_eq_of_lt hk
      simp [hk, hdiv, hmod, show k < 64 by omega, show k < 8 * (n + 1) by omega]
    · have hhigh : (data off).getLsbD k = false := BitVec.getLsbD_of_ge _ _ (by omega)
      have hdiv : off + 1 + (k - 8) / 8 = off + k / 8 := by omega
      have hmod : (k - 8) % 8 = k % 8 := by omega
      rw [hhigh, hdiv, hmod]
      by_cases hin : k < 8 * (n + 1)
      · simp [hk, hin, show k < 64 by omega, show k - 8 < 8 * n by omega]
      · simp [hin, show ¬ k - 8 < 8 * n by omega]

/-- What is read is what is there. -/
theorem bytesOf_loadLe (data : Nat → U8) (off : Nat) {n i : Nat} (hn : n ≤ 8) (hi : i < n) :
    bytesOf (loadLe data off n) i = data (off + i) := by
  apply BitVec.eq_of_getLsbD_eq
  intro k hk
  have hdiv : (8 * i + k) / 8 = i := by omega
  have hmod : (8 * i + k) % 8 = k := by omega
  rw [getLsbD_bytesOf, loadLe_getLsbD data off _ hn, hdiv, hmod]
  simp [hk, show 8 * i + k < 8 * n by omega]

/-- A narrow read is zero-extended. -/
theorem setWidth_loadLe (data : Nat → U8) (off : Nat) {n : Nat} (hn : n ≤ 8) :
    ((loadLe data off n).setWidth (8 * n)).setWidth 64 = loadLe data off n := by
  apply BitVec.eq_of_getLsbD_eq
  intro k hk
  rw [BitVec.getLsbD_setWidth, BitVec.getLsbD_setWidth, loadLe_getLsbD data off k hn]
  by_cases hin : k < 8 * n
  · simp [hk, hin]
  · simp [hin]

/-! ## Where the bytes are -/

namespace SocBus

/-- The windows of one RAM are one window. -/
theorem window_unique : ∀ m ∈ socMappings, ∀ m' ∈ socMappings, ∀ id, m.device = .ram id →
    m'.device = .ram id → m = m' := by
  intro m hm m' hm' id hdev hdev'
  rcases ram_cases m hm id hdev with rfl | rfl | rfl <;> cases hdev <;>
    rcases ram_cases m' hm' _ hdev' with rfl | rfl | rfl <;> first | rfl | exact nomatch hdev'

/-- The `n` bytes at `pa` are those from `p` on. -/
def At (pa : U64) (n : Nat) (p : RamPtr) : Prop :=
  ∃ m ∈ socMappings, m.device = .ram p.ram ∧ m.base.toNat ≤ pa.toNat ∧
    pa.toNat + n ≤ m.base.toNat + m.size.toNat ∧ p.offset = pa - m.base

variable {pa : U64} {n : Nat} {p : RamPtr}

theorem At.bound (h : At pa n p) : pa.toNat + n < 2 ^ 64 := by
  obtain ⟨m, hm, -, -, hhi, -⟩ := h
  have hw := soc_not_wraps m hm
  rw [Wraps] at hw
  omega

theorem At.find (h : At pa n p) (hn : 0 < n) :
    ∃ m, SocBus.find pa (BitVec.ofNat 64 n) = some m ∧ m ∈ socMappings ∧
      m.device = .ram p.ram ∧ Inside m.base m.size pa (BitVec.ofNat 64 n) ∧
      p.offset = pa - m.base := by
  have hlt := h.bound
  obtain ⟨m, hm, hdev, hlo, hhi, hoff⟩ := h
  have hsize : (BitVec.ofNat 64 n).toNat = n := by
    rw [BitVec.toNat_ofNat]
    exact Nat.mod_eq_of_lt (by omega)
  have hin : Inside m.base m.size pa (BitVec.ofNat 64 n) := ⟨hlo, by rw [hsize]; exact hhi⟩
  exact ⟨m, (find_eq_some_iff (by omega) (not_wraps_of_inside hm hin)).2 ⟨hm, hin⟩, hm, hdev, hin,
    hoff⟩

/-- A part of the bytes. -/
theorem At.sub (h : At pa n p) {i k : Nat} (hk : i + k ≤ n) :
    At (pa + BitVec.ofNat 64 i) k ⟨p.ram, p.offset + BitVec.ofNat 64 i⟩ ∧
      (p.offset + BitVec.ofNat 64 i).toNat = p.offset.toNat + i := by
  have hlt := h.bound
  obtain ⟨m, hm, hdev, hlo, hhi, hoff⟩ := h
  have hi : (BitVec.ofNat 64 i).toNat = i := by
    rw [BitVec.toNat_ofNat]
    exact Nat.mod_eq_of_lt (by omega)
  have hpa : (pa + BitVec.ofNat 64 i).toNat = pa.toNat + i := by
    rw [BitVec.toNat_add, hi]
    exact Nat.mod_eq_of_lt (by omega)
  have hbase : (pa - m.base).toNat = pa.toNat - m.base.toNat := BitVec.toNat_sub_of_le hlo
  refine ⟨⟨m, hm, hdev, by omega, by omega, ?_⟩, ?_⟩
  · rw [hoff]
    dsimp only
    bv_omega
  · rw [hoff, BitVec.toNat_add, hi, hbase]
    exact Nat.mod_eq_of_lt (by omega)

/-- The two halves. -/
theorem At.parts (hat : At pa (n * 2) p) :
    At pa n p ∧ At (pa + BitVec.ofNat 64 n) n ⟨p.ram, p.offset + BitVec.ofNat 64 n⟩ ∧
      (p.offset + BitVec.ofNat 64 n).toNat = p.offset.toNat + n := by
  obtain ⟨hfirst, -⟩ := hat.sub (show 0 + n ≤ n * 2 by omega)
  obtain ⟨hsecond, hoff⟩ := hat.sub (show n + n ≤ n * 2 by omega)
  refine ⟨?_, hsecond, hoff⟩
  have hpa : pa + BitVec.ofNat 64 0 = pa := BitVec.add_zero pa
  have hp : p.offset + BitVec.ofNat 64 0 = p.offset := BitVec.add_zero p.offset
  rwa [hpa, hp] at hfirst

end SocBus

/-! ## What a store changes -/

/-- The `n` bytes from `p` on were `old` and are `new`, and no other byte of a RAM changed. -/
structure World.Exchanged {E : Type} (w w' : World E) (p : RamPtr) (n : Nat) (old new : Nat → U8) :
    Prop where
  before : ∀ i < n, (w.rams p.ram).data (p.offset.toNat + i) = old i
  after : ∀ i < n, (w'.rams p.ram).data (p.offset.toNat + i) = new i
  others : ∀ id i, (id = p.ram → i < p.offset.toNat ∨ p.offset.toNat + n ≤ i) →
    (w'.rams id).data i = (w.rams id).data i

namespace World

variable {E : Type} {w w' w'' : World E} {p : RamPtr} {n : Nat} {old new : Nat → U8}

theorem exchanged_refl (hrams : w'.rams = w.rams)
    (h : ∀ i < n, (w.rams p.ram).data (p.offset.toNat + i) = old i) :
    w.Exchanged w' p n old old := by
  refine ⟨h, ?_, ?_⟩
  · rw [hrams]
    exact h
  · intro _ _ _
    rw [hrams]

theorem Exchanged.congr {old' new' : Nat → U8} (h : w.Exchanged w' p n old new)
    (hold : ∀ i < n, old i = old' i) (hnew : ∀ i < n, new i = new' i) :
    w.Exchanged w' p n old' new' :=
  ⟨fun i hi => (h.before i hi).trans (hold i hi), fun i hi => (h.after i hi).trans (hnew i hi),
    h.others⟩

theorem notifyWrite_rams (w : World E) (id : RamId) (offset size : U64) :
    (w.notifyWrite id offset size).rams = w.rams := by
  rw [notifyWrite]
  split <;> rfl

theorem exchanged_store (w : World E) (p : RamPtr) (value : U64) (hn : n < 2 ^ 64) :
    w.Exchanged ((w.store p.ram p.offset value (BitVec.ofNat 64 n)).notifyWrite p.ram p.offset
        (BitVec.ofNat 64 n)) p n
      (fun i => (w.rams p.ram).data (p.offset.toNat + i)) (bytesOf value) := by
  have hsize : (BitVec.ofNat 64 n).toNat = n := by
    rw [BitVec.toNat_ofNat]
    exact Nat.mod_eq_of_lt hn
  have hself : ∀ i, ((w.store p.ram p.offset value (BitVec.ofNat 64 n)).rams p.ram).data i =
      storeBytes (w.rams p.ram).data p.offset.toNat n (byteOf value) i := by
    intro i
    rw [store]
    dsimp only
    rw [Function.update_self, hsize]
  refine ⟨fun _ _ => rfl, fun i hi => ?_, fun id i h => ?_⟩
  · rw [notifyWrite_rams, hself, storeBytes, if_pos ⟨by omega, by omega⟩, Nat.add_sub_cancel_left]
    rfl
  · rw [notifyWrite_rams]
    by_cases hid : id = p.ram
    · subst hid
      have hout := h rfl
      rw [hself, storeBytes, if_neg (by omega)]
    · rw [store]
      dsimp only
      rw [Function.update_of_ne hid]

end World

/-! ## Accesses of the bus -/

/-- The devices of the SoC: none of them writes a RAM when it is read. -/
structure SocIo (E : Type) extends DeviceIo E where
  read_rams : ∀ dev offset size w, (read dev offset size w).2.rams = w.rams

namespace SocBus

variable {E : Type} {attached : Bool} {io : SocIo E} {w w' : World E} {pa value : U64} {n : Nat}
  {p : RamPtr}

/-- The widths of `fastSize`. -/
def Width (n : Nat) : Prop := n = 1 ∨ n = 2 ∨ n = 4 ∨ n = 8

theorem Width.fastSize (h : Width n) : Ram.fastSize (BitVec.ofNat 64 n) = true := by
  rcases h with rfl | rfl | rfl | rfl <;> decide

theorem Width.pos (h : Width n) : 0 < n := by
  rcases h with rfl | rfl | rfl | rfl <;> decide

theorem Width.le (h : Width n) : n ≤ 8 := by
  rcases h with rfl | rfl | rfl | rfl <;> decide

theorem read_attached (h : Width n) :
    read (World.fast attached) io.toDeviceIo w pa (BitVec.ofNat 64 n) =
      (find pa (BitVec.ofNat 64 n)).map fun m =>
        w.deviceRead io.toDeviceIo (pa - m.base) (BitVec.ofNat 64 n) m.device := by
  cases attached with
  | false => rfl
  | true => exact (attached_eq_plain w io.toDeviceIo h.fastSize 0).1

theorem write_attached (h : Width n) :
    write (World.fast attached) io.toDeviceIo w pa value (BitVec.ofNat 64 n) =
      (find pa (BitVec.ofNat 64 n)).map fun m =>
        w.deviceWrite io.toDeviceIo (pa - m.base) value (BitVec.ofNat 64 n) m.device := by
  cases attached with
  | false => rfl
  | true => exact (attached_eq_plain w io.toDeviceIo h.fastSize value).2

theorem read_at (h : Width n) (hat : At pa n p) :
    read (World.fast attached) io.toDeviceIo w pa (BitVec.ofNat 64 n) =
      some (loadLe (w.rams p.ram).data p.offset.toNat n, w) := by
  have hlt := hat.bound
  obtain ⟨m, hfind, hm, hdev, hin, hoff⟩ := hat.find h.pos
  have hsize : (BitVec.ofNat 64 n).toNat = n := by
    rw [BitVec.toNat_ofNat]
    exact Nat.mod_eq_of_lt (by omega)
  have hvec := vector_accepts w hm hdev hin
  rw [read_attached h, hfind, Option.map_some, hdev, ← hoff]
  rw [← hoff] at hvec
  simp only [World.deviceRead, Ram.read, Ram.readFast, h.fastSize, Bool.not_true, hvec,
    Bool.or_self, decide_false, Bool.false_eq_true, if_false, Option.getD_some, hsize]

theorem write_at (h : Width n) (hat : At pa n p) :
    ∃ w', write (World.fast attached) io.toDeviceIo w pa value (BitVec.ofNat 64 n) = some w' ∧
      w.Exchanged w' p n (fun i => (w.rams p.ram).data (p.offset.toNat + i)) (bytesOf value) := by
  have hlt := hat.bound
  obtain ⟨m, hfind, hm, hdev, hin, hoff⟩ := hat.find h.pos
  have hvec := vector_accepts w hm hdev hin
  rw [← hoff] at hvec
  refine ⟨_, ?_, World.exchanged_store w p value (by omega)⟩
  rw [write_attached h, hfind, Option.map_some, hdev, ← hoff]
  simp only [World.deviceWrite, Ram.writeFast, h.fastSize, Bool.not_true, hvec, Bool.or_self,
    decide_false, Bool.false_eq_true, if_false]

theorem deviceRead_rams (offset size : U64) (dev : DeviceRef) :
    (w.deviceRead io.toDeviceIo offset size dev).2.rams = w.rams := by
  cases dev with
  | ram id => rfl
  | mmio dev => exact io.read_rams dev offset size _

theorem fastRead_rams {f : BusFastPath} {addr size v : U64}
    (hread : f.read io.toDeviceIo w addr size = some (v, w')) : w'.rams = w.rams := by
  rw [BusFastPath.read] at hread
  split at hread
  · cases hread
    rfl
  · obtain ⟨p, -, hp⟩ := Option.map_eq_some_iff.1 hread
    exact (congrArg (·.2.rams) hp).symm.trans (deviceRead_rams p.2 size (.mmio p.1))

/-- A read leaves the RAMs alone, whatever its width. -/
theorem read_rams {fast : Option BusFastPath} {addr size v : U64}
    (hread : read fast io.toDeviceIo w addr size = some (v, w')) : w'.rams = w.rams := by
  rw [read] at hread
  split at hread
  · next r hfast =>
    cases hread
    obtain ⟨f, -, hf⟩ := Option.bind_eq_some_iff.1 hfast
    exact fastRead_rams hf
  · obtain ⟨m, -, hm⟩ := Option.map_eq_some_iff.1 hread
    exact (congrArg (·.2.rams) hm).symm.trans (deviceRead_rams _ size m.device)

/-- The windows end at multiples of 16. -/
theorem soc_aligned : ∀ m ∈ socMappings, m.base.toNat % 16 = 0 ∧ m.size.toNat % 16 = 0 := by decide

/-- A block that starts before a multiple of its size ends there at the latest. -/
theorem block_le {a d e : Nat} (hd : d ∣ e) (ha : a % d = 0) (h : a < e) : a + d ≤ e := by
  obtain ⟨x, rfl⟩ := Nat.dvd_of_mod_eq_zero ha
  obtain ⟨y, rfl⟩ := hd
  have hxy : x < y := Nat.lt_of_mul_lt_mul_left h
  calc d * x + d = d * (x + 1) := (Nat.mul_succ d x).symm
    _ ≤ d * y := Nat.mul_le_mul_left d hxy

/-- A window that takes the first byte of an aligned block takes them all. -/
theorem write_block {k : Nat} (hk : k ≤ 4) (halign : pa.toNat % 2 ^ k = 0)
    (h : (write (World.fast attached) io.toDeviceIo w pa value 1).isSome = true) {i : Nat}
    (hi : i < 2 ^ k) (w' : World E) (value' : U64) :
    (write (World.fast attached) io.toDeviceIo w' (pa + BitVec.ofNat 64 i) value' 1).isSome =
      true := by
  have hone : Width 1 := .inl rfl
  have heq : (1 : U64) = BitVec.ofNat 64 1 := rfl
  rw [heq, write_attached hone, Option.isSome_map] at h ⊢
  rcases Nat.eq_zero_or_pos i with rfl | hpos
  · rw [show pa + BitVec.ofNat 64 0 = pa from BitVec.add_zero pa]
    exact h
  obtain ⟨m, hfind⟩ := Option.isSome_iff_exists.1 h
  have hdvd : 2 ^ k ∣ 16 := Nat.pow_dvd_pow 2 hk
  have hlt := pa.isLt
  have hroom : pa.toNat + 2 ^ k ≤ 2 ^ 64 := block_le (Nat.pow_dvd_pow 2 (by omega)) halign hlt
  have honeNat : (BitVec.ofNat 64 1).toNat = 1 := rfl
  have hi64 : (BitVec.ofNat 64 i).toNat = i := by
    rw [BitVec.toNat_ofNat]
    exact Nat.mod_eq_of_lt (by omega)
  have hpai : (pa + BitVec.ofNat 64 i).toNat = pa.toNat + i := by
    rw [BitVec.toNat_add, hi64]
    exact Nat.mod_eq_of_lt (by omega)
  have hw : ¬ Wraps pa (BitVec.ofNat 64 1) := by
    rw [Wraps, honeNat]
    omega
  obtain ⟨hm, hlo, hhi⟩ := (find_eq_some_iff (by decide) hw).1 hfind
  rw [honeNat] at hhi
  obtain ⟨hbase, hsize⟩ := soc_aligned m hm
  have hend : pa.toNat + 2 ^ k ≤ m.base.toNat + m.size.toNat := by
    refine block_le ?_ halign (by omega)
    exact Nat.dvd_trans hdvd (Nat.dvd_of_mod_eq_zero (by omega))
  rw [(find_eq_some_iff (by decide) ?_).2 ⟨hm, ?_⟩]
  · rfl
  · rw [Wraps, honeNat, hpai]
    have hwin := soc_not_wraps m hm
    rw [Wraps] at hwin
    omega
  · refine ⟨by omega, ?_⟩
    rw [honeNat]
    omega

end SocBus
end Aarchvm

import Aarchvm.Bus.RamBytes
import Aarchvm.Cpu.Monitor

/-!
# A CPU on the bus of the SoC

Checked accesses of 1, 2, 4 or 8 aligned bytes through this bus: what one that succeeds
read or wrote, and that one that fails left the RAMs and the general registers as they
were. A translation keeps its entry hot, so the write of a read-modify-write goes where
the read came from.
-/
namespace Aarchvm

open SocBus

variable {E : Type}

/-- The bus of the SoC under a CPU. -/
def socPort (attached : Bool) (io : SocIo E) : BusPort (World E) where
  read := fun w pa size =>
    match SocBus.read (World.fast attached) io.toDeviceIo w pa (BitVec.ofNat 64 size) with
    | some (value, w') => (some value, w')
    | none => (none, w)
  write := fun w pa value size =>
    match SocBus.write (World.fast attached) io.toDeviceIo w pa value (BitVec.ofNat 64 size) with
    | some w' => (true, w')
    | none => (false, w)
  readDesc := fun w pa =>
    (SocBus.read (World.fast attached) io.toDeviceIo w pa 8).map (·.1)
  hasRam := fun w pa => ((w.bus (World.fast attached)).ramPtr pa 1).isSome

section Port

variable {attached : Bool} {io : SocIo E} {w w' : World E} {pa value : U64} {n : Nat} {p : RamPtr}

theorem socPort_read_at (h : Width n) (hat : At pa n p) :
    (socPort attached io).read w pa n =
      (some (loadLe (w.rams p.ram).data p.offset.toNat n), w) := by
  simp only [socPort, read_at h hat]

theorem socPort_read_rams {outcome : Option U64}
    (hread : (socPort attached io).read w pa n = (outcome, w')) : w'.rams = w.rams := by
  dsimp only [socPort] at hread
  split at hread
  · next v w₁ hv =>
    cases hread
    exact read_rams hv
  · cases hread
    rfl

/-- Reads of the bus leave the RAMs alone. -/
theorem socPort_reads_rams (attached : Bool) (io : SocIo E) :
    (socPort attached io).ReadsKeep fun w w' => w'.rams = w.rams where
  refl _ := rfl
  trans h h' := h'.trans h
  read _ _ _ := socPort_read_rams rfl

theorem socPort_write_at (value : U64) (h : Width n) (hat : At pa n p) :
    ∃ w', (socPort attached io).write w pa value n = (true, w') ∧
      w.Exchanged w' p n (fun i => (w.rams p.ram).data (p.offset.toNat + i)) (bytesOf value) := by
  obtain ⟨w', hw, hex⟩ := @write_at _ attached io w pa value n p h hat
  refine ⟨w', ?_, hex⟩
  simp only [socPort, hw]

theorem socPort_write_rejected (hwrite : (socPort attached io).write w pa value n = (false, w')) :
    w' = w := by
  dsimp only [socPort] at hwrite
  split at hwrite
  · cases hwrite
  · cases hwrite
    rfl

/-- Once a byte of an aligned block is accepted, so are all. -/
theorem socPort_write_block {k : Nat} (hk : k ≤ 4) (halign : pa.toNat % 2 ^ k = 0)
    (h : (socPort attached io).write w pa value 1 = (true, w')) {i : Nat} (hi : i < 2 ^ k)
    (w₁ : World E) (value₁ : U64) :
    ((socPort attached io).write w₁ (pa + BitVec.ofNat 64 i) value₁ 1).1 = true := by
  have hsome : (SocBus.write (World.fast attached) io.toDeviceIo w pa value 1).isSome = true := by
    dsimp only [socPort] at h
    split at h
    · next w₂ hw => exact (congrArg Option.isSome hw).trans rfl
    · cases h
  obtain ⟨w₂, hw₂⟩ := Option.isSome_iff_exists.1 (write_block hk halign hsome hi w₁ value₁)
  have heq : BitVec.ofNat 64 1 = (1 : U64) := rfl
  simp only [socPort, heq, hw₂]

end Port

/-! ## Byte by byte -/

namespace BusPort

variable {attached : Bool} {io : SocIo E} {w w' : World E} {pa va : U64} {n : Nat} {p : RamPtr}

/-- The requests for the bytes from `j` on. -/
def blockRequests (va pa : U64) (byteOf : Nat → U64) (j n : Nat) : List Request :=
  (List.range' j n).map fun i => ⟨va + BitVec.ofNat 64 i, pa + BitVec.ofNat 64 i, byteOf i⟩

theorem byteRequests_bytesFrom (va pa : U64) (byteOf : Nat → U64) (n : Nat) :
    Core.byteRequests va (bytesFrom pa n) byteOf = blockRequests va pa byteOf 0 n := by
  rw [Core.byteRequests, blockRequests, bytesFrom, List.range_eq_range']
  apply List.ext_getElem
  · simp
  · intro i h₁ h₂
    simp

/-- Single bytes into RAM: from `j` on they are stored, and nothing else is. -/
theorem writeEach_at {byteOf : Nat → U64} {total : Nat} (hat : At pa total p) (j : Nat)
    (hj : j + n = total) (w : World E) :
    ∃ w' ws, (socPort attached io).writeEach 1 w (blockRequests va pa byteOf j n) = (none, w', ws) ∧
      (∀ i, j ≤ i → i < total →
        (w'.rams p.ram).data (p.offset.toNat + i) = bytesOf (byteOf i) 0) ∧
      (∀ id i, (id = p.ram → i < p.offset.toNat + j ∨ p.offset.toNat + total ≤ i) →
        (w'.rams id).data i = (w.rams id).data i) := by
  induction n generalizing j w with
  | zero => exact ⟨w, [], rfl, fun i hlo hhi => by omega, fun _ _ _ => rfl⟩
  | succ n ih =>
    obtain ⟨hbyte, hoff⟩ := hat.sub (show j + 1 ≤ total by omega)
    obtain ⟨w₁, hw₁, hex⟩ := @socPort_write_at _ attached io w _ _ _ (byteOf j) (.inl rfl) hbyte
    obtain ⟨w', ws, hrun, hin, hout⟩ := ih (j + 1) (by omega) w₁
    have hcons : blockRequests va pa byteOf j (n + 1) =
        ⟨va + BitVec.ofNat 64 j, pa + BitVec.ofNat 64 j, byteOf j⟩ ::
          blockRequests va pa byteOf (j + 1) n := by
      rw [blockRequests, List.range'_succ, List.map_cons]
      rfl
    refine ⟨w', ⟨pa + BitVec.ofNat 64 j, 1⟩ :: ws, ?_, fun i hlo hhi => ?_, fun id i h => ?_⟩
    · rw [hcons, writeEach]
      dsimp only
      rw [hw₁]
      dsimp only
      rw [hrun]
    · rcases Nat.eq_or_lt_of_le hlo with rfl | hlt
      · rw [hout p.ram _ (fun _ => .inl (by omega))]
        have hafter := hex.after 0 (by decide)
        rwa [hoff, Nat.add_zero] at hafter
      · exact hin i hlt hhi
    · rw [hout id i (fun hid => by have := h hid; omega)]
      apply hex.others
      intro hid
      have := h hid
      rw [hoff]
      omega

/-- An aligned block is rejected at its first byte or not at all. -/
theorem writeEach_rejected {byteOf : Nat → U64} {k : Nat} (hk : k ≤ 4)
    (halign : pa.toNat % 2 ^ k = 0) {byteVa : U64} {ws : List PhysWrite}
    (h : (socPort attached io).writeEach 1 w (blockRequests va pa byteOf 0 (2 ^ k)) =
      (some byteVa, w', ws)) : w' = w := by
  obtain ⟨n, hn⟩ : ∃ n, 2 ^ k = n + 1 := ⟨2 ^ k - 1, by have := Nat.two_pow_pos k; omega⟩
  have haccept : ∀ j n w, j + n ≤ 2 ^ k →
      (∃ w₀ v w₁, (socPort attached io).write w₀ pa v 1 = (true, w₁)) →
      ((socPort attached io).writeEach 1 w (blockRequests va pa byteOf j n)).1 = none := by
    intro j n w hj hfirst
    obtain ⟨w₀, v, w₁, hfirst⟩ := hfirst
    induction n generalizing j w with
    | zero => rfl
    | succ n ih =>
      rw [blockRequests, List.range'_succ, List.map_cons, writeEach]
      dsimp only
      have hbyte := socPort_write_block hk halign hfirst (show j < 2 ^ k by omega) w (byteOf j)
      split
      · next hw =>
        rw [hw] at hbyte
        cases hbyte
      · next w₂ hw => exact ih (j + 1) w₂ (by omega)
  rw [hn, blockRequests, List.range'_succ, List.map_cons, writeEach] at h
  dsimp only at h
  have hzero : pa + BitVec.ofNat 64 0 = pa := BitVec.add_zero pa
  rw [hzero] at h
  split at h
  · next w₁ hw =>
    cases h
    exact socPort_write_rejected hw
  · next w₁ hw =>
    have hrest := haccept 1 n w₁ (by omega) ⟨w, _, w₁, hw⟩
    have hfault := congrArg (·.1) h
    dsimp only at hfault
    rw [blockRequests] at hrest
    rw [hrest] at hfault
    cases hfault

end BusPort

/-! ## A page, translated twice -/

namespace Cpu

variable {c c' c'' : Cpu} {readDesc readDesc' : U64 → Option U64} {va pa pa' : U64}
  {access access' : AccessType}

/-- A translation that succeeds leaves its entry hot. -/
theorem hot_of_translate (hmmu : c.sysregs.mmuEnabled = true)
    (h : c.translateDataAddressFast readDesc va access = (.ok pa, c')) :
    ∃ e, c'.tlbHit c'.tlb.lastData va = some e ∧ pa = e.pa (c.effectiveVa va) := by
  have hregs : c'.sysregs = c.sysregs := by
    have htr := (translated_translateDataAddressFast c readDesc va access).sysregs
    rwa [h] at htr
  have hof : ∀ e : TlbEntry, c'.tlb.lastData = some e →
      e.hits (vaPageOf (c.effectiveVa va)) c.sysregs.currentTranslationAsid = true →
      c'.tlbHit c'.tlb.lastData va = some e := by
    intro e hlast hhits
    rw [tlbHit, Tlb.hit, hlast, effectiveVa, hregs, Option.filter_some]
    rw [effectiveVa] at hhits
    rw [if_pos hhits, Option.some_or]
  have hpage := (translate_again h).1
  cases hhit : c.tlbHit c.tlb.lastData va with
  | some e =>
    rw [translateDataAddressFast_of_hit hmmu hhit] at h
    obtain ⟨-, htag, hasid⟩ := Tlb.hit_spec (fun _ h => .inr (.inr h)) hhit
    cases hperm : c.sysregs.accessPermitted e.attrs access true with
    | error f =>
      rw [hperm] at h
      cases h
    | ok u =>
      rw [hperm] at h
      cases h
      refine ⟨e, hof e rfl ?_, rfl⟩
      rw [TlbEntry.hits, htag, hasid, beq_self_eq_true, Bool.and_true]
  | none =>
    rw [translateDataAddressFast_of_miss hmmu hhit] at h
    cases hwalk : c.sysregs.walkPageTables readDesc (c.effectiveVa va) access true true true with
    | error f =>
      rw [hwalk] at h
      cases h
    | ok result =>
      rw [hwalk] at h
      cases h
      obtain ⟨leaf, -, -, hresult, -⟩ := SystemRegisters.walkPageTables_ok hwalk
      obtain ⟨e, he⟩ : ∃ e : TlbEntry, e = ⟨vaPageOf (c.effectiveVa va), result.pa >>> 12,
        result.asid &&& SystemRegisters.mmuAsidMask, result.attrs⟩ := ⟨_, rfl⟩
      have htag : e.vaPage = vaPageOf (c.effectiveVa va) := by rw [he]
      have hasid : e.asid = c.sysregs.currentTranslationAsid := by
        rw [he, hresult]
        exact SystemRegisters.currentTranslationAsid_masked _
      have hbase : pageAt (e.paPage <<< 12) va = pageAt result.pa va := by
        rw [← pa_eq_pageAt, he]
        rfl
      refine ⟨e, hof e ?_ ?_, ?_⟩
      · rw [he]
        rfl
      · rw [TlbEntry.hits, htag, TlbEntry.matchesAsid, hasid, beq_self_eq_true, beq_self_eq_true,
          Bool.or_true, Bool.and_true]
      · rw [pa_eq_pageAt, pageAt_effectiveVa, hbase]
        exact hpage

/-- The next translation of the address goes to the same place, whatever the access. -/
theorem translate_same (h : c.translateDataAddressFast readDesc va access = (.ok pa, c'))
    (h' : c'.translateDataAddressFast readDesc' va access' = (.ok pa', c'')) : pa' = pa := by
  have hregs : c'.sysregs = c.sysregs := by
    have htr := (translated_translateDataAddressFast c readDesc va access).sysregs
    rwa [h] at htr
  by_cases hmmu : c.sysregs.mmuEnabled = true
  · obtain ⟨e, hhit, rfl⟩ := hot_of_translate hmmu h
    rw [translateDataAddressFast_of_hit (hregs ▸ hmmu) hhit] at h'
    have hok := (finishTranslation_ok h').1
    cases hperm : c'.sysregs.accessPermitted e.attrs access' true with
    | error f =>
      rw [hperm] at hok
      cases hok
    | ok u =>
      rw [hperm] at hok
      cases hok
      rw [effectiveVa, effectiveVa, hregs]
  · have hoff : ∀ (c₁ : Cpu) readDesc access, c₁.sysregs = c.sysregs →
        (c₁.translateDataAddressFast readDesc va access).1 =
          .ok (stage1DisabledOutputPa (c.effectiveVa va)) := by
      intro c₁ readDesc access hc₁
      simp only [translateDataAddressFast, effectiveVa, hc₁, hmmu, Bool.not_false, if_true]
    have h₁ := hoff c readDesc access rfl
    have h₂ := hoff c' readDesc' access' hregs
    rw [h] at h₁
    rw [h'] at h₂
    exact (Except.ok.inj h₂).trans (Except.ok.inj h₁).symm

end Cpu
end Aarchvm

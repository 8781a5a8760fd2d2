import Aarchvm.Lib.Links
import Aarchvm.Virtio.Blk
import Aarchvm.Virtio.Net

/-!
# Descriptor chains

A queue's descriptor table as a table of links. `collect_chain` of the network
device and the descriptor loop of the block device's `process_request` both
accept the finite chains in it and no others; the block device's loop starts
after the header and takes the last descriptor for the status.
-/
namespace Aarchvm.Virtio

open Lib.Links

variable {D : Type}

/-- Descriptor `i` and the one its NEXT link names, when the index is below `queue.num`, the
descriptor is in readable memory and it is not INDIRECT. -/
def descTable (q : QueueState) (b : Bus D) (i : U16) : Option (Descriptor × Option U16) :=
  if q.num.toNat ≤ i.toNat then none
  else
    match readDescriptor b q i with
    | none => none
    | some d =>
      if d.isIndirect then none else some (d, if d.hasNext then some d.next else none)

theorem readDescriptor_eq_none {q : QueueState} {b : Bus D} {i : U16}
    (h : q.num.toNat ≤ i.toNat) : readDescriptor b q i = none := by
  unfold readDescriptor
  rw [if_pos]
  right
  rw [BitVec.le_def, BitVec.toNat_setWidth]
  have hi := i.isLt
  omega

theorem descTable_bounded (q : QueueState) (b : Bus D) :
    Bounded (descTable q b) BitVec.toNat q.num.toNat where
  injective i j h := BitVec.eq_of_toNat_eq h
  lt i h := by
    by_contra hge
    unfold descTable at h
    rw [if_pos (Nat.le_of_not_lt hge)] at h
    exact nomatch h

/-! ## The loops as walks -/

/-- One turn of either loop. -/
theorem descTable_eq (q : QueueState) (b : Bus D) (i : U16) :
    descTable q b i =
      match readDescriptor b q i with
      | none => none
      | some d =>
        if d.isIndirect then none else some (d, if d.hasNext then some d.next else none) := by
  unfold descTable
  split
  · rename_i h
    rw [readDescriptor_eq_none h]
  · rfl

theorem collectChain_eq_walk (b : Bus D) (q : QueueState) (fuel : Nat) (index : U16)
    (segments : List TransferSegment) :
    VirtioNetMmio.collectChain b q fuel index segments =
      (walk (descTable q b) fuel index).map fun ds => segments ++ ds.map Descriptor.segment := by
  induction fuel generalizing index segments with
  | zero => rfl
  | succ fuel ih =>
    rw [VirtioNetMmio.collectChain, walk, descTable_eq]
    cases readDescriptor b q index with
    | none => rfl
    | some d =>
      dsimp only
      cases d.isIndirect with
      | true => rfl
      | false =>
        cases d.hasNext with
        | false => rfl
        | true =>
          simp only [Bool.false_eq_true, if_false, if_true]
          rw [ih]
          cases walk (descTable q b) fuel d.next <;> simp

/-- The status descriptor of a walked chain, and the data segments before it. -/
def statusOf (segments : List TransferSegment) (ds : List Descriptor) :
    Option (List TransferSegment × U64 × U32) :=
  match ds.getLast? with
  | none => none
  | some st =>
    if !st.isWrite ∨ st.len = 0 then none
    else some (segments ++ ds.dropLast.map Descriptor.segment, st.addr, st.len)

theorem statusOf_concat (segments : List TransferSegment) (ds : List Descriptor)
    (st : Descriptor) :
    statusOf segments (ds ++ [st]) =
      if !st.isWrite ∨ st.len = 0 then none
      else some (segments ++ ds.map Descriptor.segment, st.addr, st.len) := by
  simp only [statusOf, List.getLast?_append, List.getLast?_singleton, Option.some_or,
    List.dropLast_concat]

theorem walkChain_eq_walk (q : QueueState) (b : Bus D) (fuel : Nat) (index : U16)
    (segments : List TransferSegment) :
    VirtioBlkMmio.walkChain q b fuel index segments =
      (walk (descTable q b) fuel index).bind (statusOf segments) := by
  induction fuel generalizing index segments with
  | zero => rfl
  | succ fuel ih =>
    rw [VirtioBlkMmio.walkChain, walk, descTable_eq]
    cases readDescriptor b q index with
    | none => rfl
    | some d =>
      dsimp only
      cases d.isIndirect with
      | true => rfl
      | false =>
        cases d.hasNext with
        | false =>
          simp only [Bool.false_eq_true, if_false, Option.bind_some, statusOf,
            List.getLast?_singleton]
          split <;> simp
        | true =>
          simp only [Bool.false_eq_true, if_false, if_true]
          rw [ih]
          cases hw : walk (descTable q b) fuel d.next with
          | none => rfl
          | some ds =>
            have hne := (walk_eq_some_iff.1 hw).1.ne_nil
            obtain ⟨ds', st, rfl⟩ := List.eq_nil_or_concat' ds |>.resolve_left hne
            rw [Option.bind_some, Option.map_some, Option.bind_some, statusOf_concat,
              ← List.cons_append, statusOf_concat]
            simp

/-! ## What the loops accept -/

theorem collectChain_eq_some_iff (b : Bus D) (q : QueueState) (head : U16)
    (segments : List TransferSegment) :
    VirtioNetMmio.collectChain b q q.num.toNat head [] = some segments ↔
      ∃ ds, Chain (descTable q b) head ds ∧ segments = ds.map Descriptor.segment := by
  rw [collectChain_eq_walk, Option.map_eq_some_iff]
  refine exists_congr fun ds => and_congr (walk_bounded_iff (descTable_bounded q b)) ?_
  rw [List.nil_append]
  exact eq_comm

/-- The request that a header's bytes and the chain after it make up. -/
def requestOf (hdr : List U8) (ds : List Descriptor) (st : Descriptor) : VirtioBlkMmio.Request where
  type := (leWord hdr 0 4).setWidth 32
  sector := leWord hdr 8 8
  segments := ds.map Descriptor.segment
  statusAddr := st.addr
  statusLen := st.len

/-- A descriptor that can be a request's header. -/
def IsHeader (d : Descriptor) : Prop :=
  16 ≤ d.len.toNat ∧ d.isWrite = false ∧ d.isIndirect = false ∧ d.hasNext = true

theorem walkChain_eq_some_iff (q : QueueState) (b : Bus D) (first : U16)
    (segments : List TransferSegment) (statusAddr : U64) (statusLen : U32) :
    VirtioBlkMmio.walkChain q b q.num.toNat first [] = some (segments, statusAddr, statusLen) ↔
      ∃ ds st, Chain (descTable q b) first (ds ++ [st]) ∧ st.isWrite = true ∧ st.len ≠ 0 ∧
        segments = ds.map Descriptor.segment ∧ statusAddr = st.addr ∧ statusLen = st.len := by
  rw [walkChain_eq_walk, Option.bind_eq_some_iff]
  constructor
  · rintro ⟨ds, hw, hs⟩
    have hc := (walk_bounded_iff (descTable_bounded q b)).1 hw
    obtain ⟨ds', st, rfl⟩ := List.eq_nil_or_concat' ds |>.resolve_left hc.ne_nil
    rw [statusOf_concat] at hs
    by_cases hbad : (!st.isWrite) = true ∨ st.len = 0
    · rw [if_pos hbad] at hs
      exact nomatch hs
    · rw [if_neg hbad, List.nil_append] at hs
      rw [not_or, Bool.not_eq_true', Bool.not_eq_false] at hbad
      obtain ⟨hsegs, hrest⟩ := Prod.mk.inj (Option.some.inj hs)
      obtain ⟨haddr, hlen⟩ := Prod.mk.inj hrest
      exact ⟨ds', st, hc, hbad.1, hbad.2, hsegs.symm, haddr.symm, hlen.symm⟩
  · rintro ⟨ds, st, hc, hwrite, hlen, rfl, rfl, rfl⟩
    refine ⟨ds ++ [st], (walk_bounded_iff (descTable_bounded q b)).2 hc, ?_⟩
    have hok : ¬ ((!st.isWrite) = true ∨ st.len = 0) := by
      rw [hwrite]
      exact fun h => h.elim (fun hf => nomatch hf) hlen
    rw [statusOf_concat, if_neg hok, List.nil_append]

theorem readRequest_eq_some_iff (q : QueueState) (b : Bus D) (head : U16)
    (r : VirtioBlkMmio.Request) :
    VirtioBlkMmio.readRequest q b head = some r ↔
      ∃ hd hdr ds st, readDescriptor b q head = some hd ∧ IsHeader hd ∧
        readGuest b hd.addr 16 = some hdr ∧ Chain (descTable q b) hd.next (ds ++ [st]) ∧
        st.isWrite = true ∧ st.len ≠ 0 ∧ r = requestOf hdr ds st := by
  unfold VirtioBlkMmio.readRequest
  cases hread : readDescriptor b q head with
  | none => simp
  | some hd =>
    have hheader : (hd.len < 16 ∨ hd.isWrite = true ∨ hd.isIndirect = true ∨
        (!hd.hasNext) = true) ↔ ¬ IsHeader hd := by
      have hlen : hd.len < 16 ↔ ¬ 16 ≤ hd.len.toNat := by
        rw [BitVec.lt_def, Nat.not_le]
        rfl
      unfold IsHeader
      rw [hlen]
      cases hd.isWrite <;> cases hd.isIndirect <;> cases hd.hasNext <;> simp
    dsimp only
    by_cases hh : IsHeader hd
    · rw [if_neg fun h => hheader.1 h hh]
      cases hbytes : readGuest b hd.addr 16 with
      | none =>
        simp only [reduceCtorEq, false_iff]
        rintro ⟨hd', hdr, ds, st, hd'_eq, -, hb, -⟩
        rw [← Option.some.inj hd'_eq, hbytes] at hb
        exact nomatch hb
      | some hdr =>
        dsimp only
        rw [Option.map_eq_some_iff]
        constructor
        · rintro ⟨⟨segments, statusAddr, statusLen⟩, hw, rfl⟩
          obtain ⟨ds, st, hc, hwrite, hlen, rfl, rfl, rfl⟩ := (walkChain_eq_some_iff ..).1 hw
          exact ⟨hd, hdr, ds, st, rfl, hh, hbytes, hc, hwrite, hlen, rfl⟩
        · rintro ⟨hd', hdr', ds, st, hd'_eq, -, hb, hc, hwrite, hlen, rfl⟩
          cases hd'_eq
          rw [hbytes] at hb
          cases hb
          exact ⟨_, (walkChain_eq_some_iff ..).2 ⟨ds, st, hc, hwrite, hlen, rfl, rfl, rfl⟩, rfl⟩
    · rw [if_pos (hheader.2 hh)]
      simp only [reduceCtorEq, false_iff]
      rintro ⟨hd', hdr, ds, st, hd'_eq, hh', -⟩
      cases hd'_eq
      exact hh hh'

/-- No walk of a cyclic table finds a chain. -/
theorem walk_of_cyclic {q : QueueState} {b : Bus D} {i : U16} (h : Cyclic (descTable q b) i)
    (fuel : Nat) : walk (descTable q b) fuel i = none := by
  cases hw : walk (descTable q b) fuel i with
  | none => rfl
  | some ds => exact absurd h (walk_eq_some_iff.1 hw).1.not_cyclic

/-- Chain walking accepts exactly the finite chains of the descriptor table: it returns their
descriptors in order, rejects every cycle and accepts every acyclic chain of valid
descriptors. The block device applies the same law after the header. -/
theorem chainWalk_exact (q : QueueState) (b : Bus D) (head : U16) :
    (∀ segments, VirtioNetMmio.collectChain b q q.num.toNat head [] = some segments ↔
      ∃ ds, Chain (descTable q b) head ds ∧ segments = ds.map Descriptor.segment) ∧
    (Cyclic (descTable q b) head →
      VirtioNetMmio.collectChain b q q.num.toNat head [] = none) ∧
    ((∀ i, Relation.ReflTransGen (Link (descTable q b)) head i → (descTable q b i).isSome) →
      ¬ Cyclic (descTable q b) head →
      (VirtioNetMmio.collectChain b q q.num.toNat head []).isSome) ∧
    (∀ r, VirtioBlkMmio.readRequest q b head = some r ↔
      ∃ hd hdr ds st, readDescriptor b q head = some hd ∧ IsHeader hd ∧
        readGuest b hd.addr 16 = some hdr ∧ Chain (descTable q b) hd.next (ds ++ [st]) ∧
        st.isWrite = true ∧ st.len ≠ 0 ∧ r = requestOf hdr ds st) ∧
    (Cyclic (descTable q b) head →
      VirtioBlkMmio.walkChain q b q.num.toNat head [] = none) ∧
    ((∀ i, Relation.ReflTransGen (Link (descTable q b)) head i → (descTable q b i).isSome) →
      ¬ Cyclic (descTable q b) head → ∃ ds st, Chain (descTable q b) head (ds ++ [st]) ∧
        (VirtioBlkMmio.walkChain q b q.num.toNat head [] = none ↔
          st.isWrite = false ∨ st.len = 0)) ∧
    ∀ ds, Chain (descTable q b) head ds → ds.length ≤ q.num.toNat := by
  have hbounded := descTable_bounded q b
  refine ⟨collectChain_eq_some_iff b q head, fun hc => ?_, fun hsome hacyclic => ?_,
    readRequest_eq_some_iff q b head, fun hc => ?_, fun hsome hacyclic => ?_,
    fun ds hc => hc.length_le hbounded⟩
  · rw [collectChain_eq_walk, walk_of_cyclic hc]
    rfl
  · obtain ⟨ds, hc⟩ := exists_chain_of_not_cyclic hbounded hsome hacyclic
    rw [(collectChain_eq_some_iff b q head _).2 ⟨ds, hc, rfl⟩]
    rfl
  · rw [walkChain_eq_walk, walk_of_cyclic hc]
    rfl
  · obtain ⟨ds, hc⟩ := exists_chain_of_not_cyclic hbounded hsome hacyclic
    obtain ⟨ds', st, rfl⟩ := List.eq_nil_or_concat' ds |>.resolve_left hc.ne_nil
    refine ⟨ds', st, hc, ?_⟩
    rw [walkChain_eq_walk, (walk_bounded_iff hbounded).2 hc, Option.bind_some, statusOf_concat]
    cases st.isWrite <;> simp

/-- Descriptor 1 with a link to descriptor 0, which has none. -/
def twoDescriptors (k : Nat) : U8 :=
  [0x00, 0x06, 0, 0x40, 0, 0, 0, 0, 4, 0, 0, 0, 0, 0, 0, 0,
   0x00, 0x07, 0, 0x40, 0, 0, 0, 0, 12, 0, 0, 0, 1, 0, 0, 0].getD k 0

def twoDescriptorBus : Bus Unit := (socBus false ()).setRam 2 ⟨kSdramSize, twoDescriptors⟩

def twoDescriptorQueue : QueueState := ⟨2, true, kSdramBase, 0, 0, 0, 0, by decide⟩

/-- A chain of as many descriptors as the queue has is accepted, in its order. -/
theorem chainWalk_exact_two :
    VirtioNetMmio.collectChain twoDescriptorBus twoDescriptorQueue 2 1 [] =
      some [⟨0x40000700, 12, false⟩, ⟨0x40000600, 4, false⟩] := by
  have hfirst : descTable twoDescriptorQueue twoDescriptorBus 1 =
      some (⟨0x40000700, 12, 1, 0⟩, some 0) := by decide +kernel
  have hlast : descTable twoDescriptorQueue twoDescriptorBus 0 =
      some (⟨0x40000600, 4, 0, 0⟩, none) := by decide +kernel
  exact ((chainWalk_exact twoDescriptorQueue twoDescriptorBus 1).1 _).2
    ⟨[⟨0x40000700, 12, 1, 0⟩, ⟨0x40000600, 4, 0, 0⟩], .link hfirst (.last hlast), rfl⟩

end Aarchvm.Virtio

import Mathlib.Data.Fintype.Pigeonhole
import Mathlib.Logic.Relation

/-!
# Following links in a table

A table gives each node an item and, unless the node is the last one, the node
after it; a node it gives nothing for cannot be followed. A walk that allows as
many nodes as the table has accepts exactly the finite chains.
-/
namespace Aarchvm.Lib.Links

universe u v

variable {α : Type u} {β : Type v} (table : α → Option (β × Option α))

/-- Following links from a node to a last one collects these items. -/
inductive Chain : α → List β → Prop
  | last {a : α} {b : β} (h : table a = some (b, none)) : Chain a [b]
  | link {a a' : α} {b : β} {bs : List β} (h : table a = some (b, some a')) (hc : Chain a' bs) :
      Chain a (b :: bs)

/-- Follow links through at most `fuel` nodes. -/
def walk : Nat → α → Option (List β)
  | 0, _ => none
  | fuel + 1, a =>
    match table a with
    | none => none
    | some (b, none) => some [b]
    | some (b, some a') => (walk fuel a').map (b :: ·)

/-- A link leads from one node to another. -/
def Link (a a' : α) : Prop := ∃ b, table a = some (b, some a')

/-- Following links from `a` comes to a node that leads back to itself. -/
def Cyclic (a : α) : Prop :=
  ∃ x, Relation.ReflTransGen (Link table) a x ∧ Relation.TransGen (Link table) x x

variable {table}

theorem Chain.unique {a : α} {bs bs' : List β} (h : Chain table a bs) (h' : Chain table a bs') :
    bs = bs' := by
  induction h generalizing bs' with
  | last ha =>
    cases h' with
    | last ha' =>
      rw [ha] at ha'
      cases ha'
      rfl
    | link ha' _ =>
      rw [ha] at ha'
      cases ha'
  | link ha _ ih =>
    cases h' with
    | last ha' =>
      rw [ha] at ha'
      cases ha'
    | link ha' hc' =>
      rw [ha] at ha'
      cases ha'
      rw [ih hc']

theorem Chain.ne_nil {a : α} {bs : List β} (h : Chain table a bs) : bs ≠ [] := by
  cases h <;> simp

theorem walk_eq_some_iff {fuel : Nat} {a : α} {bs : List β} :
    walk table fuel a = some bs ↔ Chain table a bs ∧ bs.length ≤ fuel := by
  induction fuel generalizing a bs with
  | zero =>
    simp only [walk, reduceCtorEq, false_iff, not_and, Nat.not_le]
    exact fun h => List.length_pos_iff.2 h.ne_nil
  | succ fuel ih =>
    constructor
    · intro h
      rw [walk] at h
      split at h
      · exact nomatch h
      · rename_i b ha
        cases h
        exact ⟨.last ha, Nat.succ_le_succ (Nat.zero_le fuel)⟩
      · rename_i b a' ha
        obtain ⟨bs', hbs, rfl⟩ := Option.map_eq_some_iff.1 h
        obtain ⟨hc, hlen⟩ := ih.1 hbs
        exact ⟨.link ha hc, Nat.succ_le_succ hlen⟩
    · rintro ⟨hc, hlen⟩
      cases hc with
      | last ha =>
        rw [walk, ha]
      | link ha hc =>
        rw [walk, ha]
        exact Option.map_eq_some_iff.2 ⟨_, ih.2 ⟨hc, Nat.le_of_succ_le_succ hlen⟩, rfl⟩

/-! ## A chain visits a node once -/

theorem Chain.tail {a a' : α} {bs : List β} (h : Chain table a bs) (hl : Link table a a') :
    ∃ bs', Chain table a' bs' ∧ bs'.length < bs.length := by
  obtain ⟨b, hb⟩ := hl
  cases h with
  | last ha =>
    rw [ha] at hb
    cases hb
  | link ha hc =>
    rw [ha] at hb
    cases hb
    exact ⟨_, hc, Nat.lt_succ_self _⟩

theorem Chain.reach {a x : α} {bs : List β} (h : Chain table a bs)
    (hr : Relation.ReflTransGen (Link table) a x) :
    ∃ bs', Chain table x bs' ∧ bs'.length ≤ bs.length := by
  induction hr with
  | refl => exact ⟨bs, h, Nat.le_refl _⟩
  | tail _ hl ih =>
    obtain ⟨bs', hc, hle⟩ := ih
    obtain ⟨bs'', hc', hlt⟩ := hc.tail hl
    exact ⟨bs'', hc', by omega⟩

/-- What is left of a chain shrinks along a link, so no node leads back to itself. -/
theorem Chain.not_cyclic {a : α} {bs : List β} (h : Chain table a bs) : ¬ Cyclic table a := by
  rintro ⟨x, hr, hx⟩
  obtain ⟨bs', hc, -⟩ := h.reach hr
  obtain ⟨y, hl, hy⟩ := Relation.TransGen.head'_iff.1 hx
  obtain ⟨bs₁, hc₁, hlt⟩ := hc.tail hl
  obtain ⟨bs₂, hc₂, hle⟩ := hc₁.reach hy
  rw [hc.unique hc₂] at hlt
  omega

/-- The nodes of a chain, each reached with its own rest of the chain. -/
theorem Chain.nodes {a : α} {bs : List β} (h : Chain table a bs) :
    ∃ as : List α, as.length = bs.length ∧ as.Nodup ∧
      ∀ x ∈ as, ∃ bs', Chain table x bs' ∧ bs'.length ≤ bs.length := by
  induction h with
  | @last a b ha =>
    refine ⟨[a], rfl, List.nodup_singleton a, fun x hx => ?_⟩
    rw [List.mem_singleton.1 hx]
    exact ⟨[b], .last ha, Nat.le_refl _⟩
  | @link a a' b bs ha hc ih =>
    obtain ⟨as, hlen, hnodup, hrest⟩ := ih
    refine ⟨a :: as, by simp [hlen], List.nodup_cons.2 ⟨fun hmem => ?_, hnodup⟩, fun x hx => ?_⟩
    · obtain ⟨bs', hc', hle⟩ := hrest a hmem
      rw [hc'.unique (.link ha hc), List.length_cons] at hle
      omega
    · rcases List.mem_cons.1 hx with rfl | hx
      · exact ⟨b :: bs, .link ha hc, Nat.le_refl _⟩
      · obtain ⟨bs', hc', hle⟩ := hrest x hx
        exact ⟨bs', hc', Nat.le_succ_of_le hle⟩

/-! ## Tables of a bounded number of nodes -/

/-- Only `n` nodes have an entry: `f` numbers them. -/
structure Bounded (table : α → Option (β × Option α)) (f : α → Nat) (n : Nat) : Prop where
  injective : Function.Injective f
  lt : ∀ a, (table a).isSome → f a < n

section Bounded

variable {f : α → Nat} {n : Nat}

theorem Chain.isSome {a : α} {bs : List β} (h : Chain table a bs) : (table a).isSome := by
  cases h with
  | last ha => rw [ha]; rfl
  | link ha _ => rw [ha]; rfl

theorem Chain.length_le {a : α} {bs : List β} (h : Chain table a bs) (hb : Bounded table f n) :
    bs.length ≤ n := by
  obtain ⟨as, hlen, hnodup, hrest⟩ := h.nodes
  have hsub : as.map f ⊆ List.range n := by
    intro i hi
    obtain ⟨x, hx, rfl⟩ := List.mem_map.1 hi
    obtain ⟨bs', hc', -⟩ := hrest x hx
    exact List.mem_range.2 (hb.lt x hc'.isSome)
  have hle := List.Nodup.length_le_of_subset (hnodup.map hb.injective) hsub
  rw [List.length_map, List.length_range, hlen] at hle
  exact hle

/-- A walk with room for every node finds every chain. -/
theorem walk_bounded_iff (hb : Bounded table f n) {a : α} {bs : List β} :
    walk table n a = some bs ↔ Chain table a bs := by
  rw [walk_eq_some_iff]
  exact ⟨fun h => h.1, fun h => ⟨h, h.length_le hb⟩⟩

/-- Where every link can be followed and none leads back, there is a last node. -/
theorem exists_chain_of_not_cyclic (hb : Bounded table f n) {a : α}
    (hsome : ∀ x, Relation.ReflTransGen (Link table) a x → (table x).isSome)
    (hacyclic : ¬ Cyclic table a) : ∃ bs, Chain table a bs := by
  by_contra hno
  -- Nodes reached from `a` that no chain starts at: each links to another.
  let Endless := { x : α // Relation.ReflTransGen (Link table) a x ∧ ¬ ∃ bs, Chain table x bs }
  have hnext : ∀ x : Endless, ∃ y : Endless, Link table x.1 y.1 := by
    rintro ⟨x, hr, hx⟩
    obtain ⟨⟨b, o⟩, ht⟩ := Option.isSome_iff_exists.1 (hsome x hr)
    cases o with
    | none => exact absurd ⟨_, Chain.last ht⟩ hx
    | some y =>
      refine ⟨⟨y, hr.tail ⟨b, ht⟩, fun ⟨bs, hc⟩ => hx ⟨_, Chain.link ht hc⟩⟩, b, ht⟩
  choose next hlink using hnext
  let seq : Nat → Endless := fun i => next^[i] ⟨a, .refl, hno⟩
  have hseq : ∀ i, Link table (seq i).1 (seq (i + 1)).1 := by
    intro i
    show Link table (seq i).1 (next^[i + 1] ⟨a, .refl, hno⟩).1
    rw [Function.iterate_succ_apply']
    exact hlink (seq i)
  have hreach : ∀ i k, Relation.TransGen (Link table) (seq i).1 (seq (i + k + 1)).1 := by
    intro i k
    induction k with
    | zero => exact .single (hseq i)
    | succ k ih => exact ih.tail (hseq (i + k + 1))
  obtain ⟨i, j, hne, heq⟩ := Finite.exists_ne_map_eq_of_infinite
    fun i => (⟨f (seq i).1, hb.lt _ (hsome _ (seq i).2.1)⟩ : Fin n)
  have hsame : (seq i).1 = (seq j).1 := hb.injective (congrArg Fin.val heq)
  rcases Nat.lt_or_gt_of_ne hne with hlt | hlt
  · have hback := hreach i (j - i - 1)
    rw [show i + (j - i - 1) + 1 = j by omega, ← hsame] at hback
    exact hacyclic ⟨_, (seq i).2.1, hback⟩
  · have hback := hreach j (i - j - 1)
    rw [show j + (i - j - 1) + 1 = i by omega, hsame] at hback
    exact hacyclic ⟨_, (seq j).2.1, hback⟩

end Bounded

end Aarchvm.Lib.Links

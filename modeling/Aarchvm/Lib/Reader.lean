import Mathlib.Data.List.Basic
import Mathlib.Algebra.Group.Nat.Defs

/-!
# Readers of byte streams

A reader takes items off the front of a stream and fails when there are too few or
when it does not like what it finds. The lemmas have the form "what was written in
front of any rest is read back, and the rest remains", so a reader that follows its
writer field by field is evaluated by rewriting.
-/
namespace Aarchvm.Lib

universe u v

/-- A reader of streams of `ε`. -/
def Reader (ε : Type u) (α : Type v) : Type (max u v) := List ε → Option (α × List ε)

namespace Reader

variable {ε : Type u} {α β : Type v}

def pure (a : α) : Reader ε α := fun s => some (a, s)

def bind (r : Reader ε α) (f : α → Reader ε β) : Reader ε β := fun s =>
  match r s with
  | none => none
  | some (a, rest) => f a rest

instance : Monad (Reader ε) where
  pure := pure
  bind := bind

def fail : Reader ε α := fun _ => none

/-- The next `n` items. -/
def take (n : Nat) : Reader ε (List ε) := fun s =>
  if n ≤ s.length then some (s.take n, s.drop n) else none

/-- `n` values of one reader. -/
def replicate (r : Reader ε α) : Nat → Reader ε (List α)
  | 0 => pure []
  | n + 1 => bind r fun a => bind (replicate r n) fun as => pure (a :: as)

theorem bind_of_some {r : Reader ε α} {f : α → Reader ε β} {s rest : List ε} {a : α}
    (h : r s = some (a, rest)) : (r >>= f) s = f a rest := by
  change (match r s with
    | none => none
    | some (a, rest) => f a rest) = f a rest
  rw [h]

theorem bind_of_none {r : Reader ε α} {f : α → Reader ε β} {s : List ε} (h : r s = none) :
    (r >>= f) s = none := by
  change (match r s with
    | none => none
    | some (a, rest) => f a rest) = none
  rw [h]

theorem take_append {xs : List ε} {n : Nat} (h : xs.length = n) (rest : List ε) :
    take n (xs ++ rest) = some (xs, rest) := by
  rw [take, if_pos (by rw [List.length_append]; omega), List.take_left' h, List.drop_left' h]

/-- Values written one after the other are read back as a list. -/
theorem replicate_append {r : Reader ε α} {write : α → List ε} {xs : List α}
    (h : ∀ x ∈ xs, ∀ rest, r (write x ++ rest) = some (x, rest)) (rest : List ε) :
    replicate r xs.length (xs.flatMap write ++ rest) = some (xs, rest) := by
  induction xs with
  | nil => rfl
  | cons x xs ih =>
    have hx := h x List.mem_cons_self (xs.flatMap write ++ rest)
    have hxs := ih fun y hy => h y (List.mem_cons_of_mem _ hy)
    simp only [List.length_cons, List.flatMap_cons, List.append_assoc, replicate, bind, hx, hxs]
    rfl

/-- A value that is not read back makes the list unreadable. -/
theorem replicate_eq_none {r : Reader ε α} {write : α → List ε} {xs : List α}
    (h : ∀ x ∈ xs, ∀ rest, r (write x ++ rest) = some (x, rest) ∨ r (write x ++ rest) = none)
    {x : α} (hx : x ∈ xs) (hbad : ∀ rest, r (write x ++ rest) = none) (rest : List ε) :
    replicate r xs.length (xs.flatMap write ++ rest) = none := by
  induction xs with
  | nil => exact absurd hx List.not_mem_nil
  | cons y ys ih =>
    simp only [List.length_cons, List.flatMap_cons, List.append_assoc, replicate, bind]
    rcases List.mem_cons.1 hx with rfl | hmem
    · rw [hbad]
    · rcases h y List.mem_cons_self (ys.flatMap write ++ rest) with hy | hy
      · rw [hy]
        dsimp only
        rw [ih (fun z hz => h z (List.mem_cons_of_mem _ hz)) hmem]
      · rw [hy]

/-! ## Little-endian words -/

/-- The `n` low bytes of a number, least significant first. -/
def toLe : Nat → Nat → List (BitVec 8)
  | 0, _ => []
  | n + 1, x => BitVec.ofNat 8 x :: toLe n (x / 256)

def ofLe : List (BitVec 8) → Nat
  | [] => 0
  | b :: bs => b.toNat + 256 * ofLe bs

@[simp] theorem length_toLe (n x : Nat) : (toLe n x).length = n := by
  induction n generalizing x with
  | zero => rfl
  | succ n ih => rw [toLe, List.length_cons, ih]

theorem ofLe_toLe (n x : Nat) : ofLe (toLe n x) = x % 256 ^ n := by
  induction n generalizing x with
  | zero => simp [toLe, ofLe, Nat.mod_one]
  | succ n ih =>
    have hsplit : x % 256 ^ (n + 1) = x % 256 + 256 * (x / 256 % 256 ^ n) := by
      rw [Nat.pow_succ', Nat.mod_mul]
    rw [toLe, ofLe, ih, hsplit]
    rfl

variable {w : Nat}

/-- A `w`-bit word in `n` bytes. -/
def putWord (n : Nat) (x : BitVec w) : List (BitVec 8) := toLe n x.toNat

def getWord (w n : Nat) : Reader (BitVec 8) (BitVec w) := fun s =>
  match take n s with
  | none => none
  | some (bytes, rest) => some (BitVec.ofNat w (ofLe bytes), rest)

theorem getWord_putWord {n : Nat} (h : w ≤ 8 * n) (x : BitVec w) (rest : List (BitVec 8)) :
    getWord w n (putWord n x ++ rest) = some (x, rest) := by
  have hlt : x.toNat < 256 ^ n := by
    have hx := x.isLt
    have hpow : (2 : Nat) ^ w ≤ 2 ^ (8 * n) := Nat.pow_le_pow_right (by decide) h
    rw [Nat.pow_mul] at hpow
    exact Nat.lt_of_lt_of_le hx hpow
  rw [getWord, putWord, take_append (length_toLe n x.toNat)]
  dsimp only
  rw [ofLe_toLe, Nat.mod_eq_of_lt hlt, BitVec.ofNat_toNat, BitVec.setWidth_eq]

end Reader
end Aarchvm.Lib

import Mathlib.Data.List.Basic

/-!
# Overwriting a stretch of a list

`overwrite xs off ys` is `memcpy` of `ys` to position `off` of a buffer that keeps
its length. What would land past the end is dropped.
-/
namespace Aarchvm.Lib.Bytes

universe u

variable {α : Type u}

def overwrite (xs : List α) (off : Nat) (ys : List α) : List α :=
  xs.take off ++ ys.take (xs.length - off) ++ xs.drop (off + ys.length)

@[simp] theorem length_overwrite (xs : List α) (off : Nat) (ys : List α) :
    (overwrite xs off ys).length = xs.length := by
  simp only [overwrite, List.length_append, List.length_take, List.length_drop]
  omega

@[simp] theorem overwrite_nil (xs : List α) (off : Nat) : overwrite xs off [] = xs := by
  simp [overwrite]

theorem getElem?_overwrite (xs : List α) (off : Nat) (ys : List α) (i : Nat) :
    (overwrite xs off ys)[i]? =
      if i < xs.length ∧ off ≤ i ∧ i < off + ys.length then ys[i - off]? else xs[i]? := by
  unfold overwrite
  rcases Nat.lt_or_ge i xs.length with hi | hi
  · rcases Nat.lt_or_ge i off with hlo | hlo
    · rw [List.append_assoc, List.getElem?_append_left (by simp; omega), List.getElem?_take,
        if_pos hlo, if_neg (by omega)]
    · rcases Nat.lt_or_ge i (off + ys.length) with hhi | hhi
      · rw [List.getElem?_append_left (by simp; omega), List.getElem?_append_right (by simp; omega),
          List.getElem?_take, List.length_take, if_pos (by omega), if_pos ⟨hi, hlo, hhi⟩,
          Nat.min_eq_left (by omega)]
      · rw [List.getElem?_append_right (by simp; omega), List.getElem?_drop, if_neg (by omega)]
        congr 1
        simp only [List.length_append, List.length_take]
        omega
  · rw [if_neg (by omega), List.getElem?_eq_none hi]
    apply List.getElem?_eq_none
    simp only [List.length_append, List.length_take, List.length_drop]
    omega

/-- Two adjacent copies are one. -/
theorem overwrite_overwrite (xs : List α) (off : Nat) (ys zs : List α) :
    overwrite (overwrite xs off ys) (off + ys.length) zs = overwrite xs off (ys ++ zs) := by
  apply List.ext_getElem?
  intro i
  rw [getElem?_overwrite, getElem?_overwrite, getElem?_overwrite, length_overwrite,
    List.length_append]
  by_cases hi : i < xs.length
  · by_cases hlo : off ≤ i
    · by_cases hmid : i < off + ys.length
      · rw [if_neg (by omega), if_pos ⟨hi, hlo, hmid⟩, if_pos ⟨hi, hlo, by omega⟩,
          List.getElem?_append_left (by omega)]
      · by_cases hhi : i < off + ys.length + zs.length
        · rw [if_pos ⟨hi, by omega, hhi⟩, if_pos ⟨hi, hlo, by omega⟩,
            List.getElem?_append_right (by omega)]
          congr 1
          omega
        · rw [if_neg (by omega), if_neg (by omega), if_neg (by omega)]
    · rw [if_neg (by omega), if_neg (by omega), if_neg (by omega)]
  · rw [if_neg (by omega), if_neg (by omega), if_neg (by omega)]

/-- The stretch of `n` items from `off`. -/
def slice (xs : List α) (off n : Nat) : List α := (xs.drop off).take n

theorem length_slice {xs : List α} {off n : Nat} (h : off + n ≤ xs.length) :
    (slice xs off n).length = n := by
  simp only [slice, List.length_take, List.length_drop]
  omega

theorem take_slice (xs : List α) (off n m : Nat) :
    (slice xs off (n + m)).take n = slice xs off n := by
  simp only [slice, List.take_take]
  congr 1
  omega

theorem drop_slice (xs : List α) (off n m : Nat) :
    (slice xs off (n + m)).drop n = slice xs (off + n) m := by
  simp only [slice, List.drop_take, List.drop_drop]
  congr 1
  omega

end Aarchvm.Lib.Bytes

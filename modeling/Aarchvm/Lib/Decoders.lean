import Aarchvm.Lib.Pattern

/-!
# Two decoders on one class of words

Two lists of tests give the same outcomes on the words of a class when they leave the same tests
for it, in the same order.
-/
namespace Aarchvm.Lib.Pattern

variable {w : Nat} {α β : Type*}

theorem decode_map (cases : List (Pattern w × α)) (f : α → β) (x : BitVec w) :
    decode (cases.map fun c => (c.1, f c.2)) x = (decode cases x).map f := by
  induction cases with
  | nil => rfl
  | cons c cases ih =>
    rw [decode, decode] at ih ⊢
    rw [List.map_cons, List.find?_cons, List.find?_cons]
    dsimp only
    cases c.1.Matches x with
    | true => rfl
    | false => exact ih

/-- The tests that a class leaves. -/
def left (p : Pattern w) (cases : List (Pattern w × α)) : List (Pattern w × α) :=
  cases.filter fun c => !c.1.Conflicts p

theorem decode_agree {cases : List (Pattern w × α)} {cases' : List (Pattern w × β)} {f : α → β}
    {p : Pattern w} {x : BitVec w} (hx : p.Matches x = true)
    (h : (left p cases).map (fun c => (c.1, f c.2)) = left p cases') :
    (decode cases x).map f = decode cases' x := by
  have hcases : decode cases x = decode (left p cases) x := decode_filter hx
  have hcases' : decode cases' x = decode (left p cases') x := decode_filter hx
  rw [hcases, hcases', ← h, decode_map]

/-- A decoder agrees with another on every word that the other decodes, when it leaves the same
tests for each of the other's classes. -/
theorem decode_agree_of_classes {cases : List (Pattern w × α)} {cases' : List (Pattern w × β)}
    {f : α → β}
    (h : ∀ c ∈ cases', (left c.1 cases).map (fun e => (e.1, f e.2)) = left c.1 cases')
    {x : BitVec w} {b : β} (hdecode : decode cases' x = some b) :
    ∃ a, decode cases x = some a ∧ f a = b := by
  obtain ⟨p, hp, hx⟩ := mem_of_decode hdecode
  have hp := h (p, b) hp
  have hagree : (decode cases x).map f = decode cases' x := decode_agree hx hp
  rw [hdecode] at hagree
  exact Option.map_eq_some_iff.1 hagree

end Aarchvm.Lib.Pattern

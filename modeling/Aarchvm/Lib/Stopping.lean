import Mathlib.Order.Defs.Unbundled

/-!
# Computations that may stop

A computation on a state ends with a value or stops with a reason, and in both cases
leaves a state. Where the steps of a computation each keep a transitive relation to the
state they began in, so does the whole; a stop is related to the start by a relation that
absorbs what was kept before it. A computation stops where its first step does.
-/
namespace Aarchvm.Lib

/-- A computation on `σ` with a value in `α` that may stop for a reason in `ε`. -/
def Stopping (σ ε α : Type) : Type := σ → Except ε α × σ

namespace Stopping

variable {σ ε α β ι : Type}

def pure (a : α) : Stopping σ ε α := fun s => (.ok a, s)

def bind (m : Stopping σ ε α) (f : α → Stopping σ ε β) : Stopping σ ε β := fun s =>
  match m s with
  | (.ok a, s') => f a s'
  | (.error e, s') => (.error e, s')

instance : Monad (Stopping σ ε) where
  pure := pure
  bind := bind

def read (f : σ → α) : Stopping σ ε α := fun s => (.ok (f s), s)

def modify (f : σ → σ) : Stopping σ ε Unit := fun s => (.ok (), f s)

def stop (e : ε) : Stopping σ ε α := fun s => (.error e, s)

/-- The same computation with other reasons, which may depend on the state at the stop. -/
def mapStop (f : σ → ε → ε) (m : Stopping σ ε α) : Stopping σ ε α := fun s =>
  match m s with
  | (.ok a, s') => (.ok a, s')
  | (.error e, s') => (.error (f s' e), s')

/-- One computation for each item, an accumulator going through. -/
def fold (f : α → ι → Stopping σ ε α) : α → List ι → Stopping σ ε α
  | a, [] => pure a
  | a, i :: is => bind (f a i) fun a' => fold f a' is

theorem bind_assoc {γ : Type} (m : Stopping σ ε α) (f : α → Stopping σ ε β)
    (g : β → Stopping σ ε γ) : (m >>= f) >>= g = m >>= fun a => f a >>= g := by
  funext s
  change bind (bind m f) g s = bind m (fun a => bind (f a) g) s
  rw [bind, bind, bind]
  split
  · next heq =>
    split at heq
    · next a s₁ hm => rw [bind, heq]
    · cases heq
  · next heq =>
    split at heq
    · next a s₁ hm => rw [bind, heq]
    · cases heq
      rfl

theorem bind_pure (m : Stopping σ ε Unit) : (m >>= fun _ => Pure.pure ()) = m := by
  funext s
  change bind m (fun _ => pure ()) s = m s
  rw [bind]
  split
  · next heq => exact heq.symm
  · next heq => exact heq.symm

/-- Only the values that `m` can give matter for what comes after it. -/
theorem bind_congr_on {m : Stopping σ ε α} {f g : α → Stopping σ ε β}
    (h : ∀ {s a s'}, m s = (.ok a, s') → f a = g a) : m >>= f = m >>= g := by
  funext s
  change bind m f s = bind m g s
  rw [bind, bind]
  split
  · next heq => rw [h heq]
  · rfl

/-- What every run keeps: `R` when it ends, `F` when it stops. -/
structure Keeps (R : σ → σ → Prop) (F : ε → σ → σ → Prop) (m : Stopping σ ε α) : Prop where
  ended : ∀ {s a s'}, m s = (.ok a, s') → R s s'
  stopped : ∀ {s e s'}, m s = (.error e, s') → F e s s'

/-- The relations compose along a computation. -/
structure Composes (R : σ → σ → Prop) (F : ε → σ → σ → Prop) : Prop where
  refl : ∀ s, R s s
  trans : ∀ {s s' s''}, R s s' → R s' s'' → R s s''
  absorbs : ∀ {e s s' s''}, R s s' → F e s' s'' → F e s s''

section Keeps

variable {R : σ → σ → Prop} {F : ε → σ → σ → Prop}

theorem keeps_pure (h : Composes R F) (a : α) : Keeps R F (Pure.pure a : Stopping σ ε α) where
  ended := by
    rintro s a' s' heq
    cases heq
    exact h.refl _
  stopped := by
    rintro s e s' heq
    cases heq

theorem keeps_read (h : Composes R F) (f : σ → α) : Keeps R F (read f : Stopping σ ε α) where
  ended := by
    rintro s a s' heq
    cases heq
    exact h.refl _
  stopped := by
    rintro s e s' heq
    cases heq

theorem keeps_modify {f : σ → σ} (h : ∀ s, R s (f s)) :
    Keeps R F (modify f : Stopping σ ε Unit) where
  ended := by
    rintro s a s' heq
    cases heq
    exact h s
  stopped := by
    rintro s e s' heq
    cases heq

/-- What follows `m` may keep less, if no step comes after it. -/
theorem keeps_bind_last {R' R'' : σ → σ → Prop} {m : Stopping σ ε α} {f : α → Stopping σ ε β}
    (hm : Keeps R F m) (hf : ∀ a, Keeps R' F (f a))
    (htrans : ∀ {s s' s''}, R s s' → R' s' s'' → R'' s s'')
    (habsorbs : ∀ {e s s' s''}, R s s' → F e s' s'' → F e s s'') : Keeps R'' F (m >>= f) where
  ended := by
    intro s b s' heq
    change bind m f s = _ at heq
    rw [bind] at heq
    split at heq
    · next a s₁ hms => exact htrans (hm.ended hms) ((hf a).ended heq)
    · cases heq
  stopped := by
    intro s e s' heq
    change bind m f s = _ at heq
    rw [bind] at heq
    split at heq
    · next a s₁ hms => exact habsorbs (hm.ended hms) ((hf a).stopped heq)
    · next e₁ s₁ hms =>
      cases heq
      exact hm.stopped hms

theorem keeps_bind (h : Composes R F) {m : Stopping σ ε α} {f : α → Stopping σ ε β}
    (hm : Keeps R F m) (hf : ∀ a, Keeps R F (f a)) : Keeps R F (m >>= f) :=
  keeps_bind_last hm hf h.trans h.absorbs

/-- What follows `m` may keep anything, if it does not stop. -/
theorem keeps_bind_total {R' R'' : σ → σ → Prop} {m : Stopping σ ε α} {f : α → Stopping σ ε β}
    (hm : Keeps R F m) (hf : ∀ a, Keeps R' (fun _ _ _ => False) (f a))
    (htrans : ∀ {s s' s''}, R s s' → R' s' s'' → R'' s s'') : Keeps R'' F (m >>= f) where
  ended := by
    intro s b s' heq
    change bind m f s = _ at heq
    rw [bind] at heq
    split at heq
    · next a s₁ hms => exact htrans (hm.ended hms) ((hf a).ended heq)
    · cases heq
  stopped := by
    intro s e s' heq
    change bind m f s = _ at heq
    rw [bind] at heq
    split at heq
    · next a s₁ hms => exact ((hf a).stopped heq).elim
    · next e₁ s₁ hms =>
      cases heq
      exact hm.stopped hms

theorem Keeps.weaken {R' : σ → σ → Prop} {m : Stopping σ ε α} (hm : Keeps R F m)
    (h : ∀ {s s'}, R s s' → R' s s') : Keeps R' F m :=
  ⟨fun heq => h (hm.ended heq), hm.stopped⟩

theorem Keeps.of_total {m : Stopping σ ε α} (hm : Keeps R (fun _ _ _ => False) m) :
    Keeps R F m :=
  ⟨hm.ended, fun heq => (hm.stopped heq).elim⟩

theorem keeps_mapStop {f : σ → ε → ε} {m : Stopping σ ε α} (hm : Keeps R F m)
    (hf : ∀ {e s s'}, F e s s' → F (f s' e) s s') : Keeps R F (mapStop f m) where
  ended := by
    intro s a s' heq
    rw [mapStop] at heq
    split at heq
    · next a₁ s₁ hms =>
      cases heq
      exact hm.ended hms
    · cases heq
  stopped := by
    intro s e s' heq
    rw [mapStop] at heq
    split at heq
    · cases heq
    · next e₁ s₁ hms =>
      cases heq
      exact hf (hm.stopped hms)

theorem keeps_fold (h : Composes R F) {f : α → ι → Stopping σ ε α}
    (hf : ∀ a i, Keeps R F (f a i)) (a : α) (is : List ι) : Keeps R F (fold f a is) := by
  induction is generalizing a with
  | nil => exact keeps_pure h a
  | cons i is ih => exact keeps_bind h (hf a i) fun a' => ih a'

end Keeps

/-- In the states of `P` the computation stops at once, for the reason `e` and with `f`. -/
def StopsAt (P : σ → Prop) (e : ε) (f : σ → σ) (m : Stopping σ ε α) : Prop :=
  ∀ s, P s → m s = (.error e, f s)

section StopsAt

variable {P : σ → Prop} {e : ε} {f : σ → σ}

theorem stopsAt_bind {m : Stopping σ ε α} (h : StopsAt P e f m) (k : α → Stopping σ ε β) :
    StopsAt P e f (m >>= k) := by
  intro s hs
  change bind m k s = _
  rw [bind, h s hs]

theorem stopsAt_read {g : σ → α} {k : α → Stopping σ ε β} (h : ∀ a, StopsAt P e f (k a)) :
    StopsAt P e f (read g >>= k) := fun s hs => h (g s) s hs

theorem stopsAt_mapStop {m : Stopping σ ε α} (h : StopsAt P e f m) {g : σ → ε → ε}
    (hg : ∀ s, g s e = e) : StopsAt P e f (mapStop g m) := by
  intro s hs
  rw [mapStop, h s hs]
  dsimp only
  rw [hg]

end StopsAt

end Stopping
end Aarchvm.Lib

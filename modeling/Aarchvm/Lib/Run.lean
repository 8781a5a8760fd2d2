import Mathlib.Data.List.Nodup

/-!
# Runs of a deterministic step function

A run is a list of inputs folded through `step`. Whatever is not determined by
the state (which party moves, what a device answers) is part of the input.
-/
namespace Aarchvm.Lib.Run

universe u v

variable {σ : Type u} {α : Type v} (step : σ → α → σ)

/-- The state after the inputs `as`. -/
def run (s : σ) (as : List α) : σ := as.foldl step s

@[simp] theorem run_nil (s : σ) : run step s [] = s := rfl

@[simp] theorem run_cons (s : σ) (a : α) (as : List α) :
    run step s (a :: as) = run step (step s a) as := rfl

@[simp] theorem run_append (s : σ) (as bs : List α) :
    run step s (as ++ bs) = run step (run step s as) bs :=
  List.foldl_append

/-- Every step of the run meets `ok` in the state it is taken in. -/
def Along (ok : σ → α → Prop) : σ → List α → Prop
  | _, [] => True
  | s, a :: as => ok s a ∧ Along ok (step s a) as

instance decidableAlong (ok : σ → α → Prop) [∀ s a, Decidable (ok s a)] :
    ∀ (s : σ) (as : List α), Decidable (Along step ok s as)
  | _, [] => .isTrue trivial
  | s, a :: as =>
    have := decidableAlong ok (step s a) as
    inferInstanceAs (Decidable (ok s a ∧ Along step ok (step s a) as))

variable {step} {ok : σ → α → Prop}

@[simp] theorem along_nil (s : σ) : Along step ok s [] := trivial

@[simp] theorem along_cons (s : σ) (a : α) (as : List α) :
    Along step ok s (a :: as) ↔ ok s a ∧ Along step ok (step s a) as := Iff.rfl

theorem along_append (s : σ) (as bs : List α) :
    Along step ok s (as ++ bs) ↔ Along step ok s as ∧ Along step ok (run step s as) bs := by
  induction as generalizing s with
  | nil => simp
  | cons a as ih => simp [ih, and_assoc]

theorem along_and {ok' : σ → α → Prop} {s : σ} {as : List α} :
    Along step (fun s a => ok s a ∧ ok' s a) s as ↔ Along step ok s as ∧ Along step ok' s as := by
  induction as generalizing s with
  | nil => simp
  | cons a as ih =>
    rw [along_cons, along_cons, along_cons, ih]
    tauto

/-- A condition on the inputs only. -/
theorem along_of_forall {P : α → Prop} {as : List α} (h : ∀ a ∈ as, P a) (s : σ) :
    Along step (fun _ a => P a) s as := by
  induction as generalizing s with
  | nil => trivial
  | cons a as ih =>
    exact ⟨h a List.mem_cons_self, ih (fun b hb => h b (List.mem_cons_of_mem a hb)) (step s a)⟩

/-- What every admitted step preserves holds at the end of every admitted run. -/
theorem Along.invariant {inv : σ → Prop} (hstep : ∀ s a, inv s → ok s a → inv (step s a))
    {s : σ} {as : List α} (h : Along step ok s as) (hs : inv s) : inv (run step s as) := by
  induction as generalizing s with
  | nil => exact hs
  | cons a as ih => exact ih h.2 (hstep s a hs h.1)

/-- What the invariant makes each admitted step meet, every step of the run meets. -/
theorem Along.along_of_invariant {ok' : σ → α → Prop} {inv : σ → Prop}
    (hstep : ∀ s a, inv s → ok s a → inv (step s a)) (hok' : ∀ s a, inv s → ok s a → ok' s a)
    {s : σ} {as : List α} (h : Along step ok s as) (hs : inv s) : Along step ok' s as := by
  induction as generalizing s with
  | nil => trivial
  | cons a as ih => exact ⟨hok' s a hs h.1, ih h.2 (hstep s a hs h.1)⟩

/-- What every step preserves holds at the end of every run. -/
theorem run_invariant {inv : σ → Prop} (hstep : ∀ s a, inv s → inv (step s a)) {s : σ}
    (as : List α) (hs : inv s) : inv (run step s as) := by
  induction as generalizing s with
  | nil => exact hs
  | cons a as ih => exact ih (hstep s a hs)

/-- Two conditions that agree wherever the invariant holds admit the same runs. -/
theorem along_iff_of_invariant {ok' : σ → α → Prop} {inv : σ → Prop}
    (hiff : ∀ s a, inv s → (ok s a ↔ ok' s a)) (hstep : ∀ s a, inv s → ok s a → inv (step s a))
    {s : σ} {as : List α} (hs : inv s) : Along step ok s as ↔ Along step ok' s as := by
  induction as generalizing s with
  | nil => exact Iff.rfl
  | cons a as ih =>
    rw [along_cons, along_cons, ← hiff s a hs]
    constructor
    · intro h
      exact ⟨h.1, (ih (hstep s a hs h.1)).1 h.2⟩
    · intro h
      exact ⟨h.1, (ih (hstep s a hs h.1)).2 h.2⟩

/-- A property that a run loses is lost by one of its steps. -/
theorem exists_losing_step {P : σ → Prop} {s : σ} {as : List α} (hs : P s)
    (he : ¬ P (run step s as)) :
    ∃ before a after, as = before ++ a :: after ∧ P (run step s before) ∧
      ¬ P (step (run step s before) a) := by
  induction as generalizing s with
  | nil => exact absurd hs he
  | cons a as ih =>
    by_cases ha : P (step s a)
    · obtain ⟨before, b, after, rfl, hb, hn⟩ := ih ha he
      exact ⟨a :: before, b, after, rfl, hb, hn⟩
    · exact ⟨[], a, as, rfl, hs, ha⟩

/-! ## What a run shows -/

section Trace

variable {τ : Type*} {β : Type*} (step) {step' : τ → α → τ} (out : σ → α → β) {out' : τ → α → β}

/-- What each step of the run shows, in order. -/
def trace : σ → List α → List β
  | _, [] => []
  | s, a :: as => out s a :: trace (step s a) as

variable {step out}

/-- Related states that show the same and step to related states show the same runs. -/
theorem trace_eq_of_simulation {R : σ → τ → Prop}
    (hstep : ∀ s t a, R s t → R (step s a) (step' t a))
    (hout : ∀ s t a, R s t → out s a = out' t a) {s : σ} {t : τ} (h : R s t) (as : List α) :
    trace step out s as = trace step' out' t as := by
  induction as generalizing s t with
  | nil => rfl
  | cons a as ih =>
    simp only [trace]
    rw [hout s t a h, ih (hstep s t a h)]

end Trace

/-! ## Logs -/

section Log

variable {β : Type*} {log : σ → List β} {emit : σ → α → Option β}

theorem log_prefix_run (h : ∀ s a, log (step s a) = log s ++ (emit s a).toList) (s : σ)
    (as : List α) : log s <+: log (run step s as) := by
  induction as generalizing s with
  | nil => exact List.prefix_refl _
  | cons a as ih =>
    refine List.IsPrefix.trans ?_ (ih (step s a))
    rw [h]
    exact List.prefix_append _ _

theorem nodup_emit_iff {s : σ} {a : α} (h : log (step s a) = log s ++ (emit s a).toList)
    (hs : (log s).Nodup) : (log (step s a)).Nodup ↔ ∀ b, emit s a = some b → b ∉ log s := by
  rw [h, List.nodup_append_comm]
  cases emit s a with
  | none => simp [hs]
  | some b => simp [hs]

/-- What a run emits is emitted once if and only if no step emits what is in the log. -/
theorem nodup_log_iff (h : ∀ s a, log (step s a) = log s ++ (emit s a).toList) {s : σ}
    {as : List α} (hs : (log s).Nodup) :
    (log (run step s as)).Nodup ↔
      Along step (fun s a => ∀ b, emit s a = some b → b ∉ log s) s as := by
  induction as generalizing s with
  | nil => simpa using hs
  | cons a as ih =>
    rw [run_cons, along_cons, ← nodup_emit_iff (h s a) hs]
    constructor
    · intro hn
      have ha := hn.sublist (log_prefix_run h (step s a) as).sublist
      exact ⟨ha, (ih ha).1 hn⟩
    · intro hn
      exact (ih hn.1).2 hn.2

end Log

end Aarchvm.Lib.Run

import Mathlib.Logic.Basic

/-!
# Invariants of folds that may fail

A loop over a list whose body may throw is a `List.foldlM` in `Except`. Its invariant is stated
about the prefix processed so far, so that what the body does to one element can depend on where
the element sits in the list (for instance, that no later element has the same key). When the
body, from any state meeting the invariant of a prefix, succeeds and meets the invariant of the
prefix extended by the element, the whole loop succeeds and meets the invariant of the whole
list. The same holds of a plain `List.foldl`.

## Main results

* `ExceptRun.bind_eq_ok` — a bind succeeds when both its parts do.
* `ExceptRun.ite_bind_eq_ok` — a bind after a choice of its first computation.
* `ExceptRun.throw_bind_ne_ok` — a bind after a throw fails.
* `ExceptRun.foldlM_invariant` — the invariant of a fold in `Except`.
* `ExceptRun.foldl_invariant` — the invariant of a plain fold.
* `ExceptRun.mapM_ok` — a `mapM` succeeds when its function succeeds on every element.
-/

set_option autoImplicit false

universe u v w

namespace ExceptRun

variable {ε : Type u} {σ ρ : Type v}

theorem bind_eq_ok {α β : Type v} {x : Except ε α} {f : α → Except ε β} {b : β} :
    (x >>= f) = .ok b ↔ ∃ a, x = .ok a ∧ f a = .ok b := by
  cases x with
  | error e => simp only [reduceCtorEq, false_and, exists_false, iff_false]; exact nofun
  | ok a =>
    constructor
    · intro h
      exact ⟨a, rfl, h⟩
    · rintro ⟨a', ha', hf⟩
      cases ha'
      exact hf

/-- A bind after a throw throws. -/
theorem throw_bind_ne_ok {α β : Type v} {e : ε} {f : α → Except ε β} {b : β} :
    (throw e >>= f) ≠ .ok b := by
  intro h
  cases h

/-- A bind whose first computation a condition chooses, before one continuation, succeeds
through the continuation. -/
theorem ite_bind_eq_ok {c : Prop} [Decidable c] {α β : Type v} {x y : Except ε α}
    {f : α → Except ε β} {b : β} (h : (if c then x >>= f else y >>= f) = .ok b) :
    ∃ a, (if c then x else y) = .ok a ∧ f a = .ok b := by
  split at h
  · next hc => rw [if_pos hc]; exact bind_eq_ok.1 h
  · next hc => rw [if_neg hc]; exact bind_eq_ok.1 h

/-- A guard that only adds a way to fail: when its checked branch succeeds only as the plain
branch does, a success of the guarded computation is a success of the plain branch. -/
theorem eq_ok_of_ite {c : Prop} [Decidable c] {α : Type v} {x y : Except ε α} {a : α}
    (h : (if c then x else y) = .ok a) (hx : x = .ok a → y = .ok a) : y = .ok a := by
  split at h
  · exact hx h
  · exact h

/-- The invariant of a fold in `Except`, stated of the prefix processed so far. -/
theorem foldlM_invariant (f : σ → ρ → Except ε σ) (I : List ρ → σ → Prop) (l : List ρ)
    {s : σ} (h0 : I [] s)
    (hstep : ∀ pre x post, pre ++ x :: post = l → ∀ s, I pre s →
      ∃ s', f s x = .ok s' ∧ I (pre ++ [x]) s') :
    ∃ s', l.foldlM f s = .ok s' ∧ I l s' := by
  -- carry the processed prefix `pre` alongside the rest `l` of the list
  suffices h : ∀ (l pre : List ρ) (s : σ), I pre s →
      (∀ pre' x post, pre' ++ x :: post = pre ++ l → ∀ s, I pre' s →
        ∃ s', f s x = .ok s' ∧ I (pre' ++ [x]) s') →
      ∃ s', l.foldlM f s = .ok s' ∧ I (pre ++ l) s' by
    simpa using h l [] s h0 (by simpa using hstep)
  intro l
  induction l with
  | nil => intro pre s hs _; exact ⟨s, rfl, by simpa using hs⟩
  | cons x l ih =>
    intro pre s hs hstep
    obtain ⟨s₁, hs₁, hI₁⟩ := hstep pre x l rfl s hs
    obtain ⟨s', hs', hI'⟩ := ih (pre ++ [x]) s₁ hI₁ (by simpa using hstep)
    refine ⟨s', ?_, by simpa using hI'⟩
    rw [List.foldlM_cons, hs₁]
    exact hs'

/-- The invariant of a plain fold, stated of the prefix processed so far. -/
theorem foldl_invariant (f : σ → ρ → σ) (I : List ρ → σ → Prop) (l : List ρ) {s : σ}
    (h0 : I [] s)
    (hstep : ∀ pre x post, pre ++ x :: post = l → ∀ s, I pre s → I (pre ++ [x]) (f s x)) :
    I l (l.foldl f s) := by
  suffices h : ∀ (l pre : List ρ) (s : σ), I pre s →
      (∀ pre' x post, pre' ++ x :: post = pre ++ l → ∀ s, I pre' s → I (pre' ++ [x]) (f s x)) →
      I (pre ++ l) (l.foldl f s) by
    simpa using h l [] s h0 (by simpa using hstep)
  intro l
  induction l with
  | nil => intro pre s hs _; simpa using hs
  | cons x l ih =>
    intro pre s hs hstep
    have := ih (pre ++ [x]) (f s x) (hstep pre x l rfl s hs) (by simpa using hstep)
    simpa using this

/-- A `mapM` in `Except` succeeds when the function succeeds on every element. -/
theorem mapM_ok {α β : Type v} (f : α → Except ε β) :
    ∀ l : List α, (∀ x ∈ l, ∃ y, f x = .ok y) → ∃ ys, l.mapM f = .ok ys
  | [], _ => ⟨[], rfl⟩
  | x :: l, h => by
    obtain ⟨y, hy⟩ := h x List.mem_cons_self
    obtain ⟨ys, hys⟩ := mapM_ok f l fun x' hx' => h x' (List.mem_cons_of_mem x hx')
    refine ⟨y :: ys, ?_⟩
    rw [List.mapM_cons, hy, hys]
    rfl

end ExceptRun

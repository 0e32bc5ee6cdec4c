import UrlRouting.Regex.SyntaxError

/-!
# Results of readers

Readers fail with a cause. These lemmas take a successful reading apart into its steps.
-/

namespace UrlRouting

variable {ε α β : Type}

/-- A sequence of two steps succeeds if both do. -/
theorem bind_eq_ok {x : Except ε α} {f : α → Except ε β} {b : β} :
    (x >>= f) = .ok b ↔ ∃ a, x = .ok a ∧ f a = .ok b := by
  cases x with
  | error e => simp [bind, Except.bind]
  | ok a => simp [bind, Except.bind]

/-- A sequence of two steps fails if one of them does. -/
theorem bind_eq_error {x : Except ε α} {f : α → Except ε β} {e : ε} :
    (x >>= f) = .error e ↔ x = .error e ∨ ∃ a, x = .ok a ∧ f a = .error e := by
  cases x with
  | error e => simp [bind, Except.bind]
  | ok a => simp [bind, Except.bind]

@[simp] theorem ok_bind {a : α} {f : α → Except ε β} : (Except.ok a >>= f) = f a := rfl

@[simp] theorem error_bind {e : ε} {f : α → Except ε β} :
    ((Except.error e : Except ε α) >>= f) = .error e := rfl

/-- What holds of the outcome of a computation, if there is one and it has been evaluated. -/
theorem exists_ok_of_any (x : Except ε α) (holds : α → Bool)
    (h : x.toOption.any holds = true) : ∃ a, x = .ok a ∧ holds a = true := by
  cases x with
  | error e => cases h
  | ok a => exact ⟨a, rfl, h⟩

/-- The error of a computation that has been evaluated. -/
theorem eq_error_of_decide [DecidableEq ε] {x : Except ε α} {e : ε}
    (h : (match x with | .error e' => decide (e' = e) | .ok _ => false) = true) :
    x = .error e := by
  cases x with
  | error e' => rw [of_decide_eq_true h]
  | ok a => cases h

/-- The error of a computation without an outcome, if it has been evaluated. -/
theorem exists_error_of_isNone (x : Except ε α) (h : x.toOption.isNone = true) :
    ∃ e, x = .error e := by
  cases x with
  | error e => exact ⟨e, rfl⟩
  | ok a => cases h

end UrlRouting

import Mathlib.Tactic.Common

/-!
# Sequences of checks

A check passes with a value or refuses with an error. A sequence of checks passes when each of them
does.

## Main results

* `Checks.bind_eq_ok`: both checks of a sequence that passed did
* `Checks.forM_eq_ok_iff`: a check of every member of a list
-/

namespace Checks

/-- A sequence of checks passes when each of them does. -/
theorem bind_eq_ok {ε α β : Type} {result : Except ε α} {f : α → Except ε β} {b : β}
    (h : (result >>= f) = .ok b) : ∃ a, result = .ok a ∧ f a = .ok b := by
  cases result with
  | error e => cases h
  | ok a => exact ⟨a, rfl, h⟩

/-- A check of a whole list passes when each member does. -/
theorem forM_eq_ok_iff {ε α : Type} {check : α → Except ε Unit} {l : List α} :
    l.forM check = .ok () ↔ ∀ a ∈ l, check a = .ok () := by
  induction l with
  | nil => simp [List.forM, pure, Except.pure]
  | cons a rest ih =>
    rw [List.forall_mem_cons, ← ih]
    cases ha : check a with
    | error e =>
      have hfail : (a :: rest).forM check = .error e := by
        simp only [List.forM, ha]
        rfl
      simp [hfail]
    | ok _ =>
      have hnext : (a :: rest).forM check = rest.forM check := by
        simp only [List.forM, ha]
        rfl
      simp [hnext]

end Checks

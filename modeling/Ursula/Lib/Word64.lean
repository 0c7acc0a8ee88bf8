import Mathlib.Algebra.BigOperators.Group.List.Basic
import Mathlib.Tactic.Linarith

/-!
# Saturating 64-bit arithmetic

An unsigned 64-bit number is a natural number, and the operations that would leave the range clamp
at its end. A saturating subtraction is the subtraction of natural numbers.

## Main definitions

* `Word64.satAdd`, `Word64.satMul`: saturating addition and multiplication
* `Word64.checkedAdd`: addition that fails outside the range

## Main results

* `Word64.satAdd_eq_add`: below the end of the range addition does not saturate
-/

namespace Word64

/-- The largest 64-bit number. -/
def maxValue : ℕ := 2 ^ 64 - 1

/-- Saturating addition. -/
def satAdd (a b : ℕ) : ℕ := min (a + b) maxValue

/-- Saturating multiplication. -/
def satMul (a b : ℕ) : ℕ := min (a * b) maxValue

/-- Addition that fails when the sum leaves the range. -/
def checkedAdd (a b : ℕ) : Option ℕ := if a + b ≤ maxValue then some (a + b) else none

/-- Division rounded up. -/
def divCeil (a b : ℕ) : ℕ := (a + b - 1) / b

theorem satAdd_le_maxValue (a b : ℕ) : satAdd a b ≤ maxValue := min_le_right _ _

/-- Addition does not saturate when its result is below the end of the range. -/
theorem satAdd_eq_add {a b : ℕ} (h : satAdd a b < maxValue) : satAdd a b = a + b := by
  unfold satAdd at h ⊢
  omega

theorem satAdd_eq_add_of_le {a b : ℕ} (h : a + b ≤ maxValue) : satAdd a b = a + b := min_eq_left h

theorem satAdd_mono {a a' b b' : ℕ} (ha : a ≤ a') (hb : b ≤ b') : satAdd a b ≤ satAdd a' b' :=
  min_le_min_right _ (Nat.add_le_add ha hb)

theorem le_satAdd_left {a b : ℕ} (h : a ≤ maxValue) : a ≤ satAdd a b := by
  unfold satAdd
  omega

theorem checkedAdd_eq_some {a b c : ℕ} (h : checkedAdd a b = some c) :
    c = a + b ∧ c ≤ maxValue := by
  unfold checkedAdd at h
  split_ifs at h with hle
  cases h
  exact ⟨rfl, hle⟩

end Word64

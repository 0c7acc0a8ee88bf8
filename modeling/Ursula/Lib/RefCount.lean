import Ursula.Lib.OrdMap

/-!
# Reference counts

A map from keys to positive counts, kept by retaining one reference at a time. A key without
references has no count.

## Main definitions

* `RefCount.retain`: one more reference
* `RefCount.Counts`: the counts are those of the references in use

## Main results

* `RefCount.Counts.retain_all`: the counts stay those in use
-/

universe u

namespace RefCount

variable {κ : Type u} [LinearOrder κ]

/-- Counts one more reference to a key. -/
def retain (counts : OrdMap κ ℕ) (k : κ) : OrdMap κ ℕ :=
  counts.insert k ((counts.get? k).getD 0 + 1)

/-- Every key has the count of its references, and none without a reference. -/
def Counts (counts : OrdMap κ ℕ) (uses : κ → ℕ) : Prop :=
  ∀ k, counts.get? k = if uses k = 0 then none else some (uses k)

namespace Counts

variable {counts : OrdMap κ ℕ} {uses : κ → ℕ}

theorem empty : Counts (∅ : OrdMap κ ℕ) fun _ => 0 := by
  intro k
  rw [OrdMap.get?_empty, if_pos rfl]

variable (h : Counts counts uses)
include h

theorem getD_get? (k : κ) : (counts.get? k).getD 0 = uses k := by
  rw [h k]
  split_ifs with hk
  · exact hk.symm
  · rfl

theorem congr {uses' : κ → ℕ} (heq : ∀ k, uses k = uses' k) : Counts counts uses' := by
  rwa [← funext heq]

theorem retain (k : κ) :
    Counts (RefCount.retain counts k) fun k' => uses k' + if k' = k then 1 else 0 := by
  intro k'
  unfold RefCount.retain
  rw [OrdMap.get?_insert, h.getD_get?]
  by_cases hk : k' = k
  · simp [hk]
  · simp only [hk, if_false, Nat.add_zero]
    exact h k'

theorem retain_all (ks : List κ) :
    Counts (ks.foldl RefCount.retain counts) fun k => uses k + ks.count k := by
  induction ks generalizing counts uses with
  | nil => exact h
  | cons k ks ih =>
    refine (ih (h.retain k)).congr fun k' => ?_
    rw [List.count_cons]
    by_cases hk : k = k'
    · simp only [hk, beq_self_eq_true, if_true]
      omega
    · simp [hk, Ne.symm hk]

end Counts

end RefCount

import Mathlib.Data.Finset.Sort
import Mathlib.Data.List.Sort

/-!
# The members of a finite set in increasing order

`Finset.ascending` lists a finite set as an ordered tree iterates it. It sorts by insertion, so it
evaluates on closed sets, where `Finset.sort` does not.

## Main definitions

* `Finset.ascending`: the members, increasing

## Main results

* `Finset.mem_ascending`, `Finset.length_ascending`, `Finset.nodup_ascending`
-/

namespace Finset

variable {α : Type*} [LinearOrder α]

/-- The members of a finite set, increasing. -/
def ascending (s : Finset α) : List α :=
  Quot.liftOn s.val (fun l => l.insertionSort (· ≤ ·)) fun l l' h =>
    ((List.perm_insertionSort _ l).trans
      (h.trans (List.perm_insertionSort _ l').symm)).eq_of_pairwise'
        (List.pairwise_insertionSort _ l) (List.pairwise_insertionSort _ l')

theorem ascending_perm (s : Finset α) : (↑s.ascending : Multiset α) = s.val := by
  obtain ⟨⟨l⟩, hnodup⟩ := s
  exact Multiset.coe_eq_coe.mpr (List.perm_insertionSort _ l)

@[simp] theorem mem_ascending {s : Finset α} {a : α} : a ∈ s.ascending ↔ a ∈ s := by
  rw [← Multiset.mem_coe, ascending_perm, mem_val]

theorem nodup_ascending (s : Finset α) : s.ascending.Nodup := by
  rw [← Multiset.coe_nodup, ascending_perm]
  exact s.nodup

@[simp] theorem length_ascending (s : Finset α) : s.ascending.length = s.card := by
  rw [← Multiset.coe_card, ascending_perm]
  rfl

end Finset

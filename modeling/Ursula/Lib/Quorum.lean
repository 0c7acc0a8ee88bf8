import Mathlib.Algebra.Group.Even
import Mathlib.Data.Finset.Card
import Mathlib.Tactic.Linarith

/-!
# Majorities

A majority of a set of voters is more than half of it. Two majorities of one set meet; two
majorities of sets that differ by one swapped voter meet when the number of voters is even.

## Main definitions

* `Quorum.IsMajority`: a majority of a set of voters
* `Quorum.Swapped`: one voter is replaced by another

## Main results

* `Quorum.IsMajority.inter_nonempty`: majorities of one set meet
* `Quorum.Swapped.inter_nonempty`: majorities across a swap, for an even number of voters
-/

namespace Quorum

open Finset

variable {α : Type*} [DecidableEq α]

/-- More than half of the voters. -/
def IsMajority (voters quorum : Finset α) : Prop :=
  quorum ⊆ voters ∧ voters.card < 2 * quorum.card

instance (voters quorum : Finset α) : Decidable (IsMajority voters quorum) :=
  inferInstanceAs (Decidable (_ ∧ _))

/-- Sets whose sizes exceed that of a set that holds both meet. -/
theorem inter_nonempty_of_card {all left right : Finset α} (hleft : left ⊆ all)
    (hright : right ⊆ all) (hcard : all.card < left.card + right.card) :
    (left ∩ right).Nonempty := by
  rw [← not_disjoint_iff_nonempty_inter]
  intro hdisjoint
  have hle := card_le_card (union_subset hleft hright)
  rw [card_union_of_disjoint hdisjoint] at hle
  omega

/-- One voter of `before` is replaced by another in `after`. -/
def Swapped (before after : Finset α) : Prop :=
  ∃ x ∈ before, ∃ y, y ∉ before ∧ after = insert y (before.erase x)

theorem Swapped.card_eq {before after : Finset α} (h : Swapped before after) :
    after.card = before.card := by
  obtain ⟨x, hx, y, hy, rfl⟩ := h
  have hpos := card_pos.mpr ⟨x, hx⟩
  rw [card_insert_of_notMem fun hmem => hy (mem_of_mem_erase hmem), card_erase_of_mem hx]
  omega

/-- Sets that differ by a swap share all but one of their voters. -/
theorem Swapped.card_inter {before after : Finset α} (h : Swapped before after) :
    (before ∩ after).card + 1 = before.card := by
  obtain ⟨x, hx, y, hy, rfl⟩ := h
  have hinter : before ∩ insert y (before.erase x) = before.erase x := by
    rw [inter_insert_of_notMem hy, inter_eq_right.mpr (erase_subset x before)]
  rw [hinter]
  exact card_erase_add_one hx

/-- Majorities of sets that differ by a swap meet when the number of voters is even. -/
theorem Swapped.inter_nonempty {before after left right : Finset α} (h : Swapped before after)
    (heven : Even before.card) (hleft : IsMajority before left) (hright : IsMajority after right) :
    (left ∩ right).Nonempty := by
  have hcard := h.card_eq
  have hshared := h.card_inter
  refine inter_nonempty_of_card (hleft.1.trans subset_union_left)
    (hright.1.trans subset_union_right) ?_
  have hunion := card_union_add_card_inter before after
  obtain ⟨k, hk⟩ := heven
  have := hleft.2
  have := hright.2
  omega

end Quorum

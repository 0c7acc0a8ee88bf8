import Mathlib.Data.List.Sort
import Mathlib.Order.Basic
import Mathlib.Tactic.Common

/-!
# Tilings of a range

Pieces with a start and an end that lie end to end from one offset to another. Pieces that are
pairwise disjoint and hold every offset of a range tile it once they are sorted by their starts,
whatever order they were found in.

## Main definitions

* `Tiling.Tiles`: pieces that lie end to end
* `Tiling.Holds`: an offset lies in a piece

## Main results

* `Tiling.tiles_of_cover`: sorted disjoint pieces that cover a range tile it
-/

namespace Tiling

universe u

variable {α : Type u} (start finish : α → ℕ)

/-- Whether an offset lies in a piece. -/
def Holds (piece : α) (i : ℕ) : Prop := start piece ≤ i ∧ i < finish piece

/-- Pieces that lie end to end from `lo` to `hi`, none of them empty. -/
def Tiles : (lo : ℕ) → List α → (hi : ℕ) → Prop
  | lo, [], hi => lo = hi
  | lo, piece :: rest, hi => start piece = lo ∧ lo < finish piece ∧ Tiles (finish piece) rest hi

variable {start finish} {lo hi : ℕ} {pieces : List α}

section Tiles

variable (h : Tiles start finish lo pieces hi)
include h

theorem Tiles.le : lo ≤ hi := by
  induction pieces generalizing lo with
  | nil => exact h.le
  | cons piece rest ih => exact h.2.1.le.trans (ih h.2.2)

/-- The pieces of a tiling lie within it and are not empty. -/
theorem Tiles.within {piece : α} (hpiece : piece ∈ pieces) :
    lo ≤ start piece ∧ start piece < finish piece ∧ finish piece ≤ hi := by
  induction pieces generalizing lo with
  | nil => cases hpiece
  | cons first rest ih =>
    obtain ⟨hstart, hlt, hrest⟩ := h
    obtain rfl | hmem := List.mem_cons.mp hpiece
    · exact ⟨hstart.ge, hstart ▸ hlt, hrest.le⟩
    · have := ih hrest hmem
      exact ⟨by omega, this.2⟩

theorem Tiles.sorted : pieces.Pairwise fun a b => finish a ≤ start b := by
  induction pieces generalizing lo with
  | nil => exact .nil
  | cons first rest ih => exact .cons (fun other hother => (h.2.2.within hother).1) (ih h.2.2)

/-- A tiling holds exactly the offsets of its range. -/
theorem Tiles.holds_iff (i : ℕ) :
    (∃ piece ∈ pieces, Holds start finish piece i) ↔ lo ≤ i ∧ i < hi := by
  induction pieces generalizing lo with
  | nil =>
    obtain rfl : lo = hi := h
    simp only [List.not_mem_nil, false_and, exists_false, false_iff]
    omega
  | cons first rest ih =>
    obtain ⟨hstart, hlt, hrest⟩ := h
    have hle := hrest.le
    rw [List.exists_mem_cons_iff, ih hrest, Holds]
    omega

end Tiles

/-- Sorted disjoint pieces that cover a range tile it. -/
theorem tiles_of_cover (hle : lo ≤ hi)
    (hwithin : ∀ piece ∈ pieces, lo ≤ start piece ∧ start piece < finish piece ∧ finish piece ≤ hi)
    (hsorted : pieces.Pairwise fun a b => start a ≤ start b)
    (hdisjoint : pieces.Pairwise fun a b =>
      ∀ i, Holds start finish a i → ¬ Holds start finish b i)
    (hcover : ∀ i, lo ≤ i → i < hi → ∃ piece ∈ pieces, Holds start finish piece i) :
    Tiles start finish lo pieces hi := by
  induction pieces generalizing lo with
  | nil =>
    by_contra hne
    obtain ⟨piece, hpiece, -⟩ := hcover lo le_rfl (lt_of_le_of_ne hle hne)
    cases hpiece
  | cons first rest ih =>
    obtain ⟨hlo, hlt, hhi⟩ := hwithin first (by simp)
    obtain ⟨hsorted, hsorted'⟩ := List.pairwise_cons.mp hsorted
    obtain ⟨hdisjoint, hdisjoint'⟩ := List.pairwise_cons.mp hdisjoint
    -- the lowest offset lies in a piece that starts there, and the first piece starts no later
    have hstart : start first = lo := by
      obtain ⟨piece, hpiece, hheld, -⟩ := hcover lo le_rfl (by omega)
      obtain rfl | hmem := List.mem_cons.mp hpiece
      · omega
      · have := hsorted piece hmem
        omega
    -- a later piece starts after the first one, which holds no offset of it
    have hafter : ∀ piece ∈ rest, finish first ≤ start piece := by
      intro piece hpiece
      by_contra hlt'
      have := hwithin piece (by simp [hpiece])
      exact hdisjoint piece hpiece (start piece) ⟨hsorted piece hpiece, by omega⟩ ⟨le_rfl, this.2.1⟩
    refine ⟨hstart, by omega, ih hhi (fun piece hpiece => ?_) hsorted' hdisjoint'
      fun i hi hi' => ?_⟩
    · exact ⟨hafter piece hpiece, (hwithin piece (by simp [hpiece])).2⟩
    · obtain ⟨piece, hpiece, hheld⟩ := hcover i (by omega) hi'
      obtain rfl | hmem := List.mem_cons.mp hpiece
      · exact absurd hheld.2 (by omega)
      · exact ⟨piece, hmem, hheld⟩

end Tiling

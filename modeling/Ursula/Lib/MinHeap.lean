import Mathlib.Algebra.Order.BigOperators.Group.List
import Mathlib.Algebra.Order.Ring.Nat
import Mathlib.Algebra.Ring.Nat
import Mathlib.Data.List.Sort

/-!
# Priority queues

A priority queue is the list of its elements in order, so its least element is its head. Equal
elements may occur more than once.

## Main definitions

* `MinHeap α`: priority queues
* `MinHeap.push`, `MinHeap.peek`, `MinHeap.pop`, `MinHeap.ofList`
* `MinHeap.total`: the sum of a number for each element

## Main results

* `MinHeap.mem_push`, `MinHeap.mem_ofList`: what a queue holds
* `MinHeap.peek_le`: the head of a queue is its least element
-/

universe u

/-- A priority queue: its elements in order. -/
structure MinHeap (α : Type u) [LinearOrder α] where
  /-- The elements, least first. -/
  elems : List α
  /-- The elements are in order. -/
  sorted : elems.Pairwise (· ≤ ·)

namespace MinHeap

open List

variable {α : Type u} [LinearOrder α]

/-- The queue without elements. -/
def empty : MinHeap α := ⟨[], List.Pairwise.nil⟩

variable (heap : MinHeap α)

/-- Adds an element. -/
def push (a : α) : MinHeap α :=
  ⟨heap.elems.orderedInsert (· ≤ ·) a, heap.sorted.orderedInsert a heap.elems⟩

/-- The least element. -/
def peek : Option α := heap.elems.head?

/-- The queue without its least element. -/
def pop : MinHeap α := ⟨heap.elems.tail, heap.sorted.tail⟩

/-- The queue of a list's elements. -/
def ofList (l : List α) : MinHeap α :=
  ⟨l.insertionSort (· ≤ ·), List.pairwise_insertionSort (· ≤ ·) l⟩

/-- How many elements there are. -/
def size : ℕ := heap.elems.length

instance : Membership α (MinHeap α) := ⟨fun heap a => a ∈ heap.elems⟩

variable {heap}

theorem mem_def {a : α} : a ∈ heap ↔ a ∈ heap.elems := Iff.rfl

theorem mem_push {a b : α} : b ∈ heap.push a ↔ b = a ∨ b ∈ heap := by
  simp [mem_def, push]

theorem mem_ofList {l : List α} {a : α} : a ∈ ofList l ↔ a ∈ l := by
  simp [mem_def, ofList]

theorem peek_le {a b : α} (h : heap.peek = some a) (hb : b ∈ heap) : a ≤ b := by
  obtain ⟨elems, sorted⟩ := heap
  cases elems with
  | nil => simp [peek] at h
  | cons head rest =>
    obtain rfl : head = a := by simpa [peek] using h
    rcases mem_cons.mp hb with rfl | hb
    · exact le_refl _
    · exact (pairwise_cons.mp sorted).1 b hb

/-- Every element but one copy of the least is left by `pop`. -/
theorem elems_of_peek {a : α} (h : heap.peek = some a) : heap.elems = a :: heap.pop.elems := by
  obtain ⟨elems, sorted⟩ := heap
  cases elems with
  | nil => simp [peek] at h
  | cons head rest =>
    obtain rfl : head = a := by simpa [peek] using h
    rfl

theorem mem_pop_of_ne {a b : α} (h : heap.peek = some a) (hb : b ∈ heap) (hne : b ≠ a) :
    b ∈ heap.pop := by
  rw [mem_def, elems_of_peek h] at hb
  exact (mem_cons.mp hb).resolve_left hne

/-! ### Totals -/

/-- The sum of `f` over the elements. -/
def total (f : α → ℕ) (heap : MinHeap α) : ℕ := (heap.elems.map f).sum

theorem total_push (f : α → ℕ) (heap : MinHeap α) (a : α) :
    (heap.push a).total f = f a + heap.total f := by
  unfold total push
  rw [((perm_orderedInsert (· ≤ ·) a heap.elems).map f).sum_eq, map_cons, sum_cons]

theorem total_of_peek (f : α → ℕ) {a : α} (h : heap.peek = some a) :
    heap.total f = f a + heap.pop.total f := by
  unfold total
  rw [elems_of_peek h, map_cons, sum_cons]

theorem total_mono {f g : α → ℕ} (h : ∀ a, f a ≤ g a) (heap : MinHeap α) :
    heap.total f ≤ heap.total g :=
  sum_le_sum fun a _ => h a

theorem total_le {f : α → ℕ} {n : ℕ} (h : ∀ a, f a ≤ n) (heap : MinHeap α) :
    heap.total f ≤ n * heap.size := by
  have hsum := sum_le_card_nsmul (heap.elems.map f) n (by simpa using fun a _ => h a)
  rwa [length_map, nsmul_eq_mul, Nat.cast_id, Nat.mul_comm] at hsum

end MinHeap

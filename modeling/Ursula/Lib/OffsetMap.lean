import Mathlib.Data.List.TakeWhile
import Mathlib.Data.Set.Card
import Mathlib.Order.Interval.Finset.Nat
import Mathlib.Order.Interval.Set.Defs

/-!
# Maps from offsets

What a log or a buffer holds, as a partial map from offsets to its elements: a write puts a list at
an offset, a drop forgets everything below one. Over such a map a read is the list of the cells of a
range, and a gap-free run is the longest list that the map holds from an offset on, within a bound.

## Main definitions

* `OffsetMap α`: partial maps from offsets
* `OffsetMap.write`, `OffsetMap.dropBelow`: the two changes
* `OffsetMap.Covers`, `OffsetMap.run`, `OffsetMap.cells`: the questions
* `lineEnds`, `firstWithin`: where the lines of a list end, and how many of them fit a bound

## Main results

* `OffsetMap.getElem?_run`, `OffsetMap.run_maximal`: a run holds the map's elements, and ends at a
  gap or at its bound
* `OffsetMap.run_append`, `OffsetMap.cells_append`: runs and reads of consecutive parts
-/

universe u

/-- Partial maps from offsets. -/
abbrev OffsetMap (α : Type u) := ℕ → Option α

namespace OffsetMap

open List

variable {α : Type u} (m : OffsetMap α) (start finish n : ℕ) (l : List α)

/-- The map that holds nothing. -/
def empty : OffsetMap α := fun _ => none

/-- The map with a list written at `start`. -/
def write : OffsetMap α := fun i =>
  if start ≤ i ∧ i < start + l.length then l[i - start]? else m i

/-- The map without what lies below `start`. -/
def dropBelow : OffsetMap α := fun i => if i < start then none else m i

/-- The offsets that a map holds. -/
def held : Set ℕ := {i | m i ≠ none}

/-- Whether the map holds every offset of a range. -/
def Covers : Prop := ∀ i, start ≤ i → i < finish → m i ≠ none

/-- The longest gap-free run from `start`, of at most `n` elements. -/
def run : (start n : ℕ) → List α
  | _, 0 => []
  | start, n + 1 =>
    match m start with
    | none => []
    | some a => a :: run (start + 1) n

/-- The cells of a range, in order. -/
def cells : List (ℕ × α) :=
  (List.range' start (finish - start)).filterMap fun i => (m i).map (Prod.mk i)

/-! ## Runs -/

theorem length_run_le : (m.run start n).length ≤ n := by
  induction n generalizing start with
  | zero => exact le_rfl
  | succ n ih =>
    unfold run
    split
    · exact Nat.zero_le _
    · exact Nat.succ_le_succ (ih _)

theorem getElem?_run {k : ℕ} (hk : k < (m.run start n).length) :
    (m.run start n)[k]? = m (start + k) := by
  induction n generalizing start k with
  | zero => cases hk
  | succ n ih =>
    unfold run at hk ⊢
    split at hk
    · cases hk
    · next a ha =>
      cases k with
      | zero => simpa using ha.symm
      | succ k =>
        have hk' : k < (m.run (start + 1) n).length := by simpa using hk
        rw [getElem?_cons_succ, ih _ hk', Nat.add_right_comm, Nat.add_assoc]

theorem run_maximal (h : (m.run start n).length < n) :
    m (start + (m.run start n).length) = none := by
  induction n generalizing start with
  | zero => cases h
  | succ n ih =>
    unfold run at h ⊢
    cases ha : m start with
    | none => simpa using ha
    | some a =>
      rw [ha] at h
      have hrest := ih (start + 1) (by simpa using h)
      rwa [Nat.add_right_comm, Nat.add_assoc] at hrest

variable {m} {start finish n} {l}

theorem run_of_none (h : m start = none) : m.run start n = [] := by
  cases n with
  | zero => rfl
  | succ n => simp [run, h]

variable {m' : OffsetMap α}

theorem run_congr (h : ∀ i, start ≤ i → m i = m' i) : m.run start n = m'.run start n := by
  induction n generalizing start with
  | zero => rfl
  | succ n ih =>
    unfold run
    rw [h start le_rfl, ih fun i hi => h i (by omega)]

/-- A run over a list that the map holds goes on after it. -/
theorem run_append (h : ∀ k < l.length, m (start + k) = l[k]?) :
    m.run start n = l.take n ++ m.run (start + l.length) (n - l.length) := by
  induction l generalizing start n with
  | nil => simp
  | cons a rest ih =>
    cases n with
    | zero => simp [run]
    | succ n =>
      have ha : m start = some a := by simpa using h 0 (by simp)
      have hrest := @ih (start + 1) n fun k hk => by
        have hk' := h (k + 1) (by simpa using hk)
        rw [Nat.add_right_comm, Nat.add_assoc]
        exact hk'
      simp only [run, ha, take_succ_cons, length_cons, cons_append, cons.injEq,
        true_and, Nat.succ_sub_succ_eq_sub]
      rw [hrest, Nat.add_right_comm, Nat.add_assoc]

/-- A map covers a range if and only if its run fills it. -/
theorem covers_iff_length_run :
    m.Covers start finish ↔ (m.run start (finish - start)).length = finish - start := by
  constructor
  · intro h
    by_contra hne
    have hlt : (m.run start (finish - start)).length < finish - start :=
      lt_of_le_of_ne (m.length_run_le start _) hne
    exact h _ (by omega) (by omega) (m.run_maximal start _ hlt)
  · intro h i hstart hfinish hnone
    have hget := @getElem?_run _ m start (finish - start) (i - start) (by omega)
    rw [show start + (i - start) = i by omega, hnone, getElem?_eq_none_iff] at hget
    omega

theorem covers_of_le (h : finish ≤ start) : m.Covers start finish :=
  fun i hstart hfinish => by omega

/-- A map that covers a range covers its parts. -/
theorem covers_append {middle : ℕ} (hstart : start ≤ middle) (hfinish : middle ≤ finish) :
    m.Covers start finish ↔ m.Covers start middle ∧ m.Covers middle finish := by
  constructor
  · exact fun h => ⟨fun i hi hi' => h i hi (by omega), fun i hi hi' => h i (by omega) hi'⟩
  · rintro ⟨hfirst, hsecond⟩ i hi hi'
    by_cases hmiddle : i < middle
    · exact hfirst i hi hmiddle
    · exact hsecond i (by omega) hi'

/-! ## Cells -/

theorem cells_append {middle : ℕ} (hstart : start ≤ middle) (hfinish : middle ≤ finish) :
    m.cells start finish = m.cells start middle ++ m.cells middle finish := by
  unfold cells
  rw [← filterMap_append]
  congr 1
  have hrange := @range'_append_1 start (middle - start) (finish - middle)
  rw [show start + (middle - start) = middle by omega] at hrange
  rw [hrange]
  congr 1
  omega

theorem cells_congr (h : ∀ i, start ≤ i → i < finish → m i = m' i) :
    m.cells start finish = m'.cells start finish := by
  refine filterMap_congr fun i hi => ?_
  rw [mem_range'_1] at hi
  rw [h i hi.1 (by omega)]

theorem cells_of_le (h : finish ≤ start) : m.cells start finish = [] := by
  unfold cells
  rw [Nat.sub_eq_zero_of_le h]
  rfl

theorem cells_eq_nil (h : ∀ i, start ≤ i → i < finish → m i = none) :
    m.cells start finish = [] := by
  refine filterMap_eq_nil_iff.mpr fun i hi => ?_
  rw [mem_range'_1] at hi
  rw [h i hi.1 (by omega)]
  rfl

/-- The cells of a list at an offset. -/
def cellsOf (start : ℕ) : List α → List (ℕ × α)
  | [] => []
  | a :: rest => (start, a) :: cellsOf (start + 1) rest

theorem cells_of_list (h : ∀ k < l.length, m (start + k) = l[k]?) :
    m.cells start (start + l.length) = cellsOf start l := by
  induction l generalizing start with
  | nil => exact cells_of_le le_rfl
  | cons a rest ih =>
    have ha : m start = some a := by simpa using h 0 (by simp)
    have hrest := @ih (start + 1) fun k hk => by
      have hk' := h (k + 1) (by simpa using hk)
      rw [Nat.add_right_comm, Nat.add_assoc]
      exact hk'
    rw [@cells_append _ m start _ (start + 1) (by omega) (by simp), length_cons,
      show start + (rest.length + 1) = start + 1 + rest.length by omega, hrest]
    simp [cells, cellsOf, ha]

/-- The cells of lists at their offsets, one after another. -/
def flatten (runs : List (ℕ × List α)) : List (ℕ × α) :=
  runs.flatMap fun part => cellsOf part.1 part.2

@[simp] theorem flatten_cons (part : ℕ × List α) (runs : List (ℕ × List α)) :
    flatten (part :: runs) = cellsOf part.1 part.2 ++ flatten runs := rfl

theorem mem_cells {i : ℕ} {a : α} :
    (i, a) ∈ m.cells start finish ↔ (start ≤ i ∧ i < finish) ∧ m i = some a := by
  unfold cells
  rw [mem_filterMap]
  constructor
  · rintro ⟨j, hj, hcell⟩
    obtain ⟨b, hb, hpair⟩ := Option.map_eq_some_iff.mp hcell
    obtain ⟨rfl, rfl⟩ := Prod.mk.inj hpair
    rw [mem_range'_1] at hj
    exact ⟨⟨hj.1, by omega⟩, hb⟩
  · rintro ⟨hrange, ha⟩
    exact ⟨i, mem_range'_1.mpr ⟨hrange.1, by omega⟩, by rw [ha]; rfl⟩

theorem pairwise_cells : (m.cells start finish).Pairwise fun a b => a.1 < b.1 := by
  refine List.Pairwise.filterMap _ (fun i j hlt a ha b hb => ?_) pairwise_lt_range'
  obtain ⟨_, -, rfl⟩ := Option.map_eq_some_iff.mp ha
  obtain ⟨_, -, rfl⟩ := Option.map_eq_some_iff.mp hb
  exact hlt

theorem mem_cellsOf {i : ℕ} {a : α} :
    (i, a) ∈ cellsOf start l ↔ start ≤ i ∧ l[i - start]? = some a := by
  induction l generalizing start with
  | nil => simp [cellsOf]
  | cons b rest ih =>
    rw [cellsOf, mem_cons, ih, Prod.mk.injEq]
    constructor
    · rintro (⟨rfl, rfl⟩ | ⟨hle, hget⟩)
      · simp
      · refine ⟨by omega, ?_⟩
        rwa [show i - start = i - (start + 1) + 1 by omega, getElem?_cons_succ]
    · rintro ⟨hle, hget⟩
      rcases Nat.eq_or_lt_of_le hle with rfl | hlt
      · rw [Nat.sub_self, getElem?_cons_zero] at hget
        exact .inl ⟨rfl, (Option.some.inj hget).symm⟩
      · rw [show i - start = i - (start + 1) + 1 by omega, getElem?_cons_succ] at hget
        exact .inr ⟨hlt, hget⟩

/-- What lists at their offsets are to a range of a map that they split. -/
structure Splits (m : OffsetMap α) (start finish : ℕ) (runs : List (ℕ × List α)) : Prop where
  within : ∀ part ∈ runs, start ≤ part.1 ∧ 0 < part.2.length ∧ part.1 + part.2.length ≤ finish
  get : ∀ part ∈ runs, ∀ k < part.2.length, m (part.1 + k) = part.2[k]?
  sorted : runs.Pairwise fun a b => a.1 + a.2.length ≤ b.1
  cover : ∀ i, start ≤ i → i < finish → m i ≠ none →
    ∃ part ∈ runs, part.1 ≤ i ∧ i < part.1 + part.2.length

/-- Lists that are not empty and whose cells are those of a range split it. -/
theorem splits_of_flatten {runs : List (ℕ × List α)} (hne : ∀ part ∈ runs, part.2 ≠ [])
    (h : flatten runs = m.cells start finish) : m.Splits start finish runs := by
  have hcell : ∀ part ∈ runs, ∀ k (hk : k < part.2.length),
      (part.1 + k, part.2[k]) ∈ m.cells start finish := by
    intro part hpart k hk
    rw [← h]
    refine mem_flatMap.mpr ⟨part, hpart, mem_cellsOf.mpr ⟨by omega, ?_⟩⟩
    rw [Nat.add_sub_cancel_left, getElem?_eq_getElem hk]
  have hpos : ∀ part ∈ runs, 0 < part.2.length := fun part hpart =>
    length_pos_iff.mpr (hne part hpart)
  refine ⟨fun part hpart => ?_, fun part hpart k hk => ?_, ?_, fun i hi hi' hheld => ?_⟩
  · have hfirst := mem_cells.mp (hcell part hpart 0 (hpos part hpart))
    have hlast := mem_cells.mp (hcell part hpart (part.2.length - 1) (by
      have := hpos part hpart
      omega))
    have := hpos part hpart
    omega
  · rw [(mem_cells.mp (hcell part hpart k hk)).2, getElem?_eq_getElem hk]
  · have hcells : (flatten runs).Pairwise fun a b => a.1 < b.1 := h ▸ pairwise_cells
    refine (pairwise_flatMap.mp hcells).2.imp_of_mem fun {a b} ha hb hlt => ?_
    have ha' := hpos a ha
    have hb' := hpos b hb
    have := hlt (a.1 + (a.2.length - 1), a.2[a.2.length - 1]) (mem_cellsOf.mpr ⟨by omega, by
        rw [Nat.add_sub_cancel_left, getElem?_eq_getElem (by omega)]⟩)
      (b.1 + 0, b.2[0]) (mem_cellsOf.mpr ⟨by omega, by
        rw [Nat.add_sub_cancel_left, getElem?_eq_getElem (by omega)]⟩)
    omega
  · obtain ⟨a, ha⟩ := Option.ne_none_iff_exists'.mp hheld
    have hmem : (i, a) ∈ flatten runs := h ▸ mem_cells.mpr ⟨⟨hi, hi'⟩, ha⟩
    obtain ⟨part, hpart, hcell⟩ := mem_flatMap.mp hmem
    obtain ⟨hle, hget⟩ := mem_cellsOf.mp hcell
    obtain ⟨hlt, -⟩ := List.getElem?_eq_some_iff.mp hget
    exact ⟨part, hpart, hle, by omega⟩

/-! ## The offsets held -/

/-- A map that holds one range before the rest holds as many more. -/
theorem ncard_held_of_split (hrange : ∀ i, start ≤ i → i < finish → m i ≠ none)
    (hrest : ∀ i, ¬ (start ≤ i ∧ i < finish) → m i = m' i)
    (hbelow : ∀ i, start ≤ i → i < finish → m' i = none) (hfinite : m'.held.Finite) :
    m.held.Finite ∧ m.held.ncard = (finish - start) + m'.held.ncard := by
  have hunion : m.held = ↑(Finset.Ico start finish) ∪ m'.held := by
    ext i
    simp only [held, Set.mem_ofPred_eq, Finset.coe_Ico, Set.mem_union, Set.mem_Ico]
    by_cases hi : start ≤ i ∧ i < finish
    · simp [hi, hrange i hi.1 hi.2]
    · rw [hrest i hi]
      simp [hi]
  have hdisjoint : Disjoint (↑(Finset.Ico start finish) : Set ℕ) m'.held := by
    rw [Set.disjoint_left]
    intro i hi hheld
    rw [Finset.coe_Ico, Set.mem_Ico] at hi
    exact hheld (hbelow i hi.1 hi.2)
  refine ⟨hunion ▸ (Finset.finite_toSet _).union hfinite, ?_⟩
  rw [hunion, Set.ncard_union_eq hdisjoint (Finset.finite_toSet _) hfinite, Set.ncard_coe_finset,
    Nat.card_Ico]

end OffsetMap

/-! ## Lines -/

section Lines

variable {α : Type u} [DecidableEq α] (separator : α)

/-- The offsets after the separators of a list that starts at `position`. -/
def lineEnds : (position : ℕ) → List α → List ℕ
  | _, [] => []
  | position, a :: rest =>
    if a = separator then (position + 1) :: lineEnds (position + 1) rest
    else lineEnds (position + 1) rest

/-- The ends up to `limit`, and the first one in any case. -/
def firstWithin (limit : ℕ) : List ℕ → List ℕ
  | [] => []
  | first :: rest => first :: rest.takeWhile fun finish => finish ≤ limit

theorem lt_of_mem_lineEnds {position finish : ℕ} {l : List α}
    (h : finish ∈ lineEnds separator position l) :
    position < finish ∧ finish ≤ position + l.length := by
  induction l generalizing position with
  | nil => cases h
  | cons a rest ih =>
    unfold lineEnds at h
    rw [List.length_cons]
    split_ifs at h
    · obtain rfl | h := List.mem_cons.mp h
      · omega
      · have := ih h
        omega
    · have := ih h
      omega

theorem mem_lineEnds {position finish : ℕ} {l : List α} :
    finish ∈ lineEnds separator position l ↔
      position < finish ∧ l[finish - 1 - position]? = some separator := by
  induction l generalizing position with
  | nil => simp [lineEnds]
  | cons a rest ih =>
    have hcons : finish ∈ lineEnds separator position (a :: rest) ↔
        (a = separator ∧ finish = position + 1) ∨
          finish ∈ lineEnds separator (position + 1) rest := by
      rw [lineEnds]
      split_ifs with ha <;> simp [ha]
    rw [hcons, ih]
    constructor
    · rintro (⟨rfl, rfl⟩ | ⟨hlt, hget⟩)
      · simp
      · refine ⟨by omega, ?_⟩
        rwa [show finish - 1 - position = finish - 1 - (position + 1) + 1 by omega,
          List.getElem?_cons_succ]
    · rintro ⟨hlt, hget⟩
      rcases Nat.eq_or_lt_of_le (Nat.succ_le_of_lt hlt) with rfl | hlt
      · refine .inl ⟨?_, rfl⟩
        simpa using hget
      · rw [show finish - 1 - position = finish - 1 - (position + 1) + 1 by omega,
          List.getElem?_cons_succ] at hget
        exact .inr ⟨hlt, hget⟩

theorem pairwise_lineEnds (position : ℕ) (l : List α) :
    (lineEnds separator position l).Pairwise (· < ·) := by
  induction l generalizing position with
  | nil => exact .nil
  | cons a rest ih =>
    unfold lineEnds
    split_ifs
    · exact .cons (fun finish h => (lt_of_mem_lineEnds separator h).1) (ih _)
    · exact ih _

theorem lineEnds_append (position : ℕ) (l l' : List α) :
    lineEnds separator position (l ++ l') =
      lineEnds separator position l ++ lineEnds separator (position + l.length) l' := by
  induction l generalizing position with
  | nil => rfl
  | cons a rest ih =>
    simp only [List.cons_append, lineEnds, ih, List.length_cons]
    rw [show position + 1 + rest.length = position + (rest.length + 1) by omega]
    split_ifs <;> rfl

theorem firstWithin_congr {limit limit' : ℕ} {ends : List ℕ}
    (h : ∀ finish ∈ ends, finish ≤ limit ↔ finish ≤ limit') :
    firstWithin limit ends = firstWithin limit' ends := by
  cases ends with
  | nil => rfl
  | cons first rest =>
    refine congrArg (first :: ·) ?_
    replace h : ∀ finish ∈ rest, finish ≤ limit ↔ finish ≤ limit' :=
      fun finish hfinish => h finish (List.mem_cons_of_mem _ hfinish)
    induction rest with
    | nil => rfl
    | cons next rest ih =>
      simp only [List.takeWhile_cons, h next (List.mem_cons_self),
        ih fun finish hfinish => h finish (List.mem_cons_of_mem _ hfinish)]

section Within

variable {limit finish : ℕ} {ends : List ℕ}

/-- The ends that fit come first. -/
theorem firstWithin_isPrefix (limit : ℕ) (ends : List ℕ) : firstWithin limit ends <+: ends := by
  cases ends with
  | nil => exact List.prefix_rfl
  | cons first rest => exact List.cons_prefix_cons.mpr ⟨rfl, List.takeWhile_prefix _⟩

variable (hsorted : ends.Pairwise (· < ·))
include hsorted

/-- An end at or before one that fits does too. -/
theorem mem_firstWithin_of_le (hfinish : finish ∈ ends) {other : ℕ}
    (hother : other ∈ firstWithin limit ends) (hle : finish ≤ other) :
    finish ∈ firstWithin limit ends := by
  obtain ⟨rest, hrest⟩ := firstWithin_isPrefix limit ends
  rw [← hrest] at hsorted hfinish
  obtain hmem | hmem := List.mem_append.mp hfinish
  · exact hmem
  · have := (List.pairwise_append.mp hsorted).2.2 other hother finish hmem
    omega

/-- An end that does not fit is past the bound. -/
theorem lt_of_not_mem_firstWithin (hfinish : finish ∈ ends)
    (hnot : finish ∉ firstWithin limit ends) : limit < finish := by
  cases ends with
  | nil => cases hfinish
  | cons first rest =>
    rw [firstWithin, List.mem_cons, not_or] at hnot
    replace hsorted := (List.pairwise_cons.mp hsorted).2
    replace hfinish := (List.mem_cons.mp hfinish).resolve_left hnot.1
    replace hnot := hnot.2
    induction rest with
    | nil => cases hfinish
    | cons next rest ih =>
      obtain ⟨hnext, hsorted⟩ := List.pairwise_cons.mp hsorted
      rw [List.takeWhile_cons] at hnot
      split_ifs at hnot with hle
      · rw [List.mem_cons, not_or] at hnot
        exact ih hsorted ((List.mem_cons.mp hfinish).resolve_left hnot.1) hnot.2
      have hlt : limit < next := by simpa using hle
      obtain rfl | hmem := List.mem_cons.mp hfinish
      · exact hlt
      · exact hlt.trans (hnext finish hmem)

/-- Every end that fits is within the bound, unless it is the only one. -/
theorem le_of_mem_firstWithin (hfinish : finish ∈ firstWithin limit ends) :
    finish ≤ limit ∨ (firstWithin limit ends).length = 1 := by
  cases ends with
  | nil => cases hfinish
  | cons first rest =>
    rw [firstWithin] at hfinish ⊢
    have hle : ∀ other ∈ rest.takeWhile (fun finish => decide (finish ≤ limit)), other ≤ limit :=
      fun other hother => by simpa using List.mem_takeWhile_imp hother
    obtain rfl | hmem := List.mem_cons.mp hfinish
    · cases hrest : rest.takeWhile fun finish => decide (finish ≤ limit) with
      | nil => exact .inr rfl
      | cons next more =>
        have hnext : next ∈ rest.takeWhile fun finish => decide (finish ≤ limit) := by simp [hrest]
        have hlt := (List.pairwise_cons.mp hsorted).1 next ((List.takeWhile_sublist _).subset hnext)
        exact .inl (hlt.le.trans (hle next hnext))
    · exact .inl (hle finish hmem)

end Within

end Lines

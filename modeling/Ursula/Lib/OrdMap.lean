import Mathlib.Algebra.BigOperators.Group.List.Basic
import Mathlib.Algebra.Order.BigOperators.Group.List
import Mathlib.Data.List.Sort
import Mathlib.Data.Prod.Lex
import Mathlib.Data.String.Basic
import Mathlib.Tactic.Linarith

/-!
# Finite maps with ordered keys

A finite map is an association list in strictly increasing key order, so two maps with the same
lookups are equal. The map carries the proof of its order: no operation has a well-formedness
premise. It stands for a tree map, whose iteration order it has, and for a hash map, whose
iteration order is unspecified.

## Main definitions

* `OrdMap κ ν`: finite maps from `κ` to `ν`
* `OrdMap.get?`, `OrdMap.insert`, `OrdMap.erase`, `OrdMap.modify`: lookup and updates
* `OrdMap.popFirst`: the entry of the lowest key, and the rest
* `OrdMap.total f m`: the sum of `f` over the entries

## Main results

* `OrdMap.ext_get?`: maps with the same lookups are equal
* `OrdMap.get?_insert`, `OrdMap.get?_erase`, `OrdMap.get?_modify`: an update changes one key
* `OrdMap.total_insert_of_none`, `OrdMap.total_insert_of_some`, `OrdMap.total_erase`: how an update
  moves a sum over the entries
-/

universe u v

/-- A finite map: an association list in strictly increasing key order. -/
structure OrdMap (κ : Type u) (ν : Type v) [LinearOrder κ] where
  /-- The entries, by key. -/
  entries : List (κ × ν)
  /-- The keys are strictly increasing. -/
  sorted : entries.Pairwise fun a b => a.1 < b.1

/-- A finite set of ordered keys. -/
abbrev OrdSet (κ : Type u) [LinearOrder κ] := OrdMap κ Unit

namespace OrdMap

open List

variable {κ : Type u} {ν : Type v} [LinearOrder κ]

section Entries

/-- The value at `k` in an association list. -/
def lookupIn (k : κ) : List (κ × ν) → Option ν
  | [] => none
  | (k', v) :: rest => if k = k' then some v else lookupIn k rest

/-- Sorted entries with the value of a key set. -/
def insertIn (k : κ) (v : ν) : List (κ × ν) → List (κ × ν)
  | [] => [(k, v)]
  | (k', v') :: rest =>
    if k < k' then (k, v) :: (k', v') :: rest
    else if k = k' then (k, v) :: rest
    else (k', v') :: insertIn k v rest

/-- The association list without `k`. -/
def eraseIn (k : κ) (es : List (κ × ν)) : List (κ × ν) :=
  es.filter fun e => e.1 ≠ k

variable {es : List (κ × ν)} {e : κ × ν}

theorem mem_insertIn {k : κ} {v : ν} (h : e ∈ insertIn k v es) : e = (k, v) ∨ e ∈ es := by
  induction es with
  | nil => simpa [insertIn] using h
  | cons a rest ih =>
    simp only [insertIn] at h
    split_ifs at h with h₁ h₂
    · simpa using h
    · rcases mem_cons.mp h with rfl | h
      · exact Or.inl rfl
      · exact Or.inr (mem_cons_of_mem _ h)
    · rcases mem_cons.mp h with rfl | h
      · exact Or.inr mem_cons_self
      · exact (ih h).imp id (mem_cons_of_mem _)

theorem sorted_insertIn {k : κ} {v : ν} (hs : es.Pairwise fun a b => a.1 < b.1) :
    (insertIn k v es).Pairwise fun a b => a.1 < b.1 := by
  induction es with
  | nil => simp [insertIn]
  | cons a rest ih =>
    obtain ⟨hhead, htail⟩ := pairwise_cons.mp hs
    simp only [insertIn]
    split_ifs with h₁ h₂
    · refine pairwise_cons.mpr ⟨fun e he => ?_, hs⟩
      rcases mem_cons.mp he with rfl | he
      · exact h₁
      · exact h₁.trans (hhead e he)
    · exact pairwise_cons.mpr ⟨fun e he => h₂ ▸ hhead e he, htail⟩
    · refine pairwise_cons.mpr ⟨fun e he => ?_, ih htail⟩
      rcases mem_insertIn he with rfl | he
      · exact lt_of_le_of_ne (not_lt.mp h₁) (Ne.symm h₂)
      · exact hhead e he

theorem lookupIn_eq_none {k : κ} (h : ∀ e ∈ es, e.1 ≠ k) : lookupIn k es = none := by
  induction es with
  | nil => rfl
  | cons a rest ih =>
    obtain ⟨k', v'⟩ := a
    have hk : k ≠ k' := fun hk => h (k', v') mem_cons_self hk.symm
    simp [lookupIn, hk, ih fun e he => h e (mem_cons_of_mem _ he)]

theorem lookupIn_insertIn (k k' : κ) (v : ν) (es : List (κ × ν)) :
    lookupIn k' (insertIn k v es) = if k' = k then some v else lookupIn k' es := by
  induction es with
  | nil => simp [insertIn, lookupIn]
  | cons a rest ih =>
    simp only [insertIn]
    split_ifs with h₁ h₂ h₃ <;> simp_all [lookupIn]

theorem lookupIn_eraseIn (k k' : κ) (es : List (κ × ν)) :
    lookupIn k' (eraseIn k es) = if k' = k then none else lookupIn k' es := by
  induction es with
  | nil => simp [eraseIn, lookupIn]
  | cons a rest ih =>
    obtain ⟨k₀, v₀⟩ := a
    unfold eraseIn at ih ⊢
    by_cases h₀ : k₀ = k
    · subst h₀
      simp only [ne_eq, not_true_eq_false, decide_false, Bool.false_eq_true, not_false_eq_true,
        filter_cons_of_neg, ih, lookupIn]
      split_ifs <;> rfl
    · simp only [ne_eq, h₀, not_false_eq_true, decide_true, filter_cons_of_pos, lookupIn, ih]
      split_ifs with h₁ h₂ <;> simp_all

theorem mem_iff_lookupIn (hs : es.Pairwise fun a b => a.1 < b.1) {k : κ} {v : ν} :
    (k, v) ∈ es ↔ lookupIn k es = some v := by
  induction es with
  | nil => simp [lookupIn]
  | cons a rest ih =>
    obtain ⟨k', v'⟩ := a
    obtain ⟨hhead, htail⟩ := pairwise_cons.mp hs
    by_cases hk : k = k'
    · subst hk
      have hnot : (k, v) ∉ rest := fun hmem => lt_irrefl k (hhead (k, v) hmem)
      simp [lookupIn, hnot, eq_comm]
    · simp [lookupIn, hk, ih htail]

end Entries

/-! ## The operations -/

/-- The map without keys. -/
def empty : OrdMap κ ν := ⟨[], List.Pairwise.nil⟩

instance : EmptyCollection (OrdMap κ ν) := ⟨empty⟩

instance : Inhabited (OrdMap κ ν) := ⟨empty⟩

/-- The value of a key. -/
def get? (m : OrdMap κ ν) (k : κ) : Option ν := lookupIn k m.entries

/-- Whether the map has the key `k`. -/
def contains (m : OrdMap κ ν) (k : κ) : Bool := (m.get? k).isSome

/-- The map with the value of a key set. -/
def insert (m : OrdMap κ ν) (k : κ) (v : ν) : OrdMap κ ν :=
  ⟨insertIn k v m.entries, sorted_insertIn m.sorted⟩

/-- The map without a key. -/
def erase (m : OrdMap κ ν) (k : κ) : OrdMap κ ν :=
  ⟨eraseIn k m.entries, m.sorted.filter _⟩

/-- The map with the value at `k`, when there is one, changed by `f`. -/
def modify (m : OrdMap κ ν) (k : κ) (f : ν → ν) : OrdMap κ ν :=
  match m.get? k with
  | none => m
  | some v => m.insert k (f v)

/-- The keys, increasing. -/
def keys (m : OrdMap κ ν) : List κ := m.entries.map Prod.fst

/-- The values, by key. -/
def values (m : OrdMap κ ν) : List ν := m.entries.map Prod.snd

/-- How many keys there are. -/
def size (m : OrdMap κ ν) : ℕ := m.entries.length

/-- Whether there is no key. -/
def isEmpty (m : OrdMap κ ν) : Bool := m.entries.isEmpty

/-- The entry of the lowest key. -/
def first? (m : OrdMap κ ν) : Option (κ × ν) := m.entries.head?

/-- The entry of the lowest key, and the map without it. -/
def popFirst (m : OrdMap κ ν) : Option ((κ × ν) × OrdMap κ ν) :=
  match m.entries, m.sorted with
  | [], _ => none
  | e :: rest, hs => some (e, ⟨rest, (List.pairwise_cons.mp hs).2⟩)

/-- The sum of `f` over the entries. -/
def total (f : κ → ν → ℕ) (m : OrdMap κ ν) : ℕ := (m.entries.map fun e => f e.1 e.2).sum

/-! ## Lookups -/

variable {m : OrdMap κ ν} {v : ν}

theorem mem_entries (m : OrdMap κ ν) {k : κ} : (k, v) ∈ m.entries ↔ m.get? k = some v :=
  mem_iff_lookupIn m.sorted

theorem ext_entries {m n : OrdMap κ ν} (h : m.entries = n.entries) : m = n := by
  cases m
  cases n
  simpa using h

/-- Maps with the same lookups are equal. -/
theorem ext_get? {m n : OrdMap κ ν} (h : ∀ k, m.get? k = n.get? k) : m = n := by
  refine ext_entries (m.sorted.eq_of_mem_iff n.sorted fun ⟨k, v⟩ => ?_)
  rw [mem_entries, mem_entries, h]

instance [DecidableEq ν] : DecidableEq (OrdMap κ ν) := fun m n =>
  decidable_of_iff (m.entries = n.entries) ⟨ext_entries, fun h => h ▸ rfl⟩

@[simp] theorem get?_empty (k : κ) : (∅ : OrdMap κ ν).get? k = none := rfl

theorem get?_insert (m : OrdMap κ ν) (k k' : κ) (v : ν) :
    (m.insert k v).get? k' = if k' = k then some v else m.get? k' :=
  lookupIn_insertIn k k' v m.entries

theorem get?_erase (m : OrdMap κ ν) (k k' : κ) :
    (m.erase k).get? k' = if k' = k then none else m.get? k' :=
  lookupIn_eraseIn k k' m.entries

theorem get?_modify (m : OrdMap κ ν) (k k' : κ) (f : ν → ν) :
    (m.modify k f).get? k' = if k' = k then (m.get? k).map f else m.get? k' := by
  unfold modify
  cases h : m.get? k with
  | none =>
    by_cases hk : k' = k
    · subst hk
      simp [h]
    · simp [hk]
  | some v => simp [get?_insert]

@[simp] theorem get?_insert_self (m : OrdMap κ ν) (k : κ) (v : ν) :
    (m.insert k v).get? k = some v := by
  simp [get?_insert]

@[simp] theorem get?_erase_self (m : OrdMap κ ν) (k : κ) : (m.erase k).get? k = none := by
  simp [get?_erase]

variable {k : κ}

theorem erase_of_none (h : m.get? k = none) : m.erase k = m := by
  refine ext_get? fun k' => ?_
  rw [get?_erase]
  split_ifs with hk
  · rw [hk, h]
  · rfl

theorem insert_insert (m : OrdMap κ ν) (k : κ) (v w : ν) :
    (m.insert k v).insert k w = m.insert k w := by
  refine ext_get? fun k' => ?_
  simp only [get?_insert]
  split_ifs <;> rfl

theorem contains_iff (m : OrdMap κ ν) (k : κ) : m.contains k = true ↔ ∃ v, m.get? k = some v := by
  simp [contains, Option.isSome_iff_exists]

theorem mem_keys (m : OrdMap κ ν) (k : κ) : k ∈ m.keys ↔ ∃ v, m.get? k = some v := by
  simp [keys, ← mem_entries]

theorem mem_values (m : OrdMap κ ν) (v : ν) : v ∈ m.values ↔ ∃ k, m.get? k = some v := by
  simp [values, ← mem_entries]

theorem keys_sorted (m : OrdMap κ ν) : m.keys.Pairwise (· < ·) :=
  pairwise_map.mpr m.sorted

theorem keys_nodup (m : OrdMap κ ν) : m.keys.Nodup :=
  m.keys_sorted.imp ne_of_lt

theorem isEmpty_iff (m : OrdMap κ ν) : m.isEmpty = true ↔ ∀ k, m.get? k = none := by
  constructor
  · intro h k
    have hnil : m.entries = [] := List.isEmpty_iff.mp h
    simp [get?, hnil, lookupIn]
  · intro h
    refine List.isEmpty_iff.mpr (List.eq_nil_iff_forall_not_mem.mpr fun ⟨k, v⟩ he => ?_)
    rw [mem_entries, h] at he
    exact absurd he (by simp)

theorem eq_empty_of_isEmpty (h : m.isEmpty = true) : m = ∅ :=
  ext_get? fun k => by rw [(isEmpty_iff m).mp h, get?_empty]

/-! ## The lowest entry -/

theorem popFirst_eq_none (h : m.popFirst = none) : m.entries = [] := by
  unfold popFirst at h
  split at h
  · assumption
  · exact absurd h (by simp)

theorem popFirst_eq_some {rest : OrdMap κ ν} (h : m.popFirst = some (e, rest)) :
    m.entries = e :: rest.entries := by
  unfold popFirst at h
  split at h
  · exact absurd h (by simp)
  · next heq _ =>
    obtain ⟨rfl, rfl⟩ := h
    exact heq

theorem popFirst_get? {rest : OrdMap κ ν} (h : m.popFirst = some (e, rest)) :
    m.get? e.1 = some e.2 := by
  rw [← mem_entries, popFirst_eq_some h]
  exact mem_cons_self

theorem popFirst_rest {rest : OrdMap κ ν} (h : m.popFirst = some (e, rest)) :
    rest = m.erase e.1 := by
  refine ext_get? fun k => ?_
  have hs := m.sorted
  rw [popFirst_eq_some h] at hs
  rw [get?_erase]
  split_ifs with hk
  · subst hk
    exact lookupIn_eq_none fun e' he' => (ne_of_lt ((pairwise_cons.mp hs).1 e' he')).symm
  · simp [get?, popFirst_eq_some h, lookupIn, hk]

theorem popFirst_lt {rest : OrdMap κ ν} (h : m.popFirst = some (e, rest))
    (hk : rest.get? k = some v) : e.1 < k := by
  have hs := m.sorted
  rw [popFirst_eq_some h] at hs
  exact (pairwise_cons.mp hs).1 (k, v) (rest.mem_entries.mpr hk)

/-! ## Sums over the entries -/

variable {f : κ → ν → ℕ}

theorem total_congr {g : κ → ν → ℕ}
    (h : ∀ k v, m.get? k = some v → f k v = g k v) : total f m = total g m := by
  unfold total
  congr 1
  refine map_congr_left fun ⟨k, v⟩ he => ?_
  exact h k v (m.mem_entries.mp he)

theorem nodup_entries (m : OrdMap κ ν) : m.entries.Nodup :=
    m.sorted.imp fun h heq => (heq ▸ h).ne rfl

/-- A held entry and the entries without its key are all the entries. -/
theorem entries_perm_erase (h : m.get? k = some v) :
    m.entries.Perm ((k, v) :: (m.erase k).entries) := by
  have hnew : (k, v) ∉ (m.erase k).entries := by simp [mem_entries]
  refine (perm_ext_iff_of_nodup m.nodup_entries
    (nodup_cons.mpr ⟨hnew, nodup_entries _⟩)).mpr fun ⟨k', v'⟩ => ?_
  rw [mem_cons, mem_entries, mem_entries, get?_erase, Prod.mk.injEq]
  by_cases hk : k' = k
  · simp [hk, h, eq_comm]
  · simp [hk]

theorem total_erase (h : m.get? k = some v) :
    total f m = f k v + total f (m.erase k) := by
  unfold total
  rw [((entries_perm_erase h).map fun e : κ × ν => f e.1 e.2).sum_eq, map_cons, sum_cons]

theorem erase_insert (m : OrdMap κ ν) (k : κ) (v : ν) : (m.insert k v).erase k = m.erase k := by
  refine ext_get? fun k' => ?_
  rw [get?_erase, get?_erase, get?_insert]
  split_ifs <;> rfl

theorem total_insert_of_none (h : m.get? k = none) :
    total f (m.insert k v) = f k v + total f m := by
  rw [total_erase (get?_insert_self m k v), erase_insert, erase_of_none h]

theorem total_insert_of_some {v w : ν} (h : m.get? k = some w) :
    total f (m.insert k v) + f k w = f k v + total f m := by
  rw [total_erase (get?_insert_self m k v), erase_insert, total_erase h]
  omega

theorem le_total (h : m.get? k = some v) : f k v ≤ total f m := by
  rw [total_erase h]
  exact Nat.le_add_right _ _

/-- Sums that agree but at one key, where one of them is greater by one. -/
theorem total_succ {g : κ → ν → ℕ} (h : m.get? k = some v)
    (hk : g k v = f k v + 1) (hother : ∀ k' v', m.get? k' = some v' → k' ≠ k → g k' v' = f k' v') :
    total g m = total f m + 1 := by
  have hrest : total g (m.erase k) = total f (m.erase k) := total_congr fun k' v' hget => by
    rw [get?_erase] at hget
    split_ifs at hget with hkey
    exact hother k' v' hget hkey
  rw [total_erase h, total_erase h, hk, hrest]
  omega

theorem length_filter_entries (p : κ → ν → Bool) (m : OrdMap κ ν) :
    (m.entries.filter fun e => p e.1 e.2).length = total (fun k v => if p k v then 1 else 0) m := by
  unfold total
  induction m.entries with
  | nil => rfl
  | cons e rest ih =>
    rw [filter_cons, map_cons, sum_cons, ← ih]
    by_cases h : p e.1 e.2 = true
    · simp [h, Nat.add_comm]
    · simp [h]

/-! ## Insertions of new keys -/

section InsertNew

variable {α ε : Type*} {key : α → κ} {value : α → ν} {duplicate : α → ε}

/-- Inserts the elements of a list one after another, refusing one whose key is taken. -/
def insertNew (key : α → κ) (value : α → ν) (duplicate : α → ε) :
    OrdMap κ ν → List α → Except ε (OrdMap κ ν)
  | m, [] => .ok m
  | m, a :: rest =>
    if m.contains (key a) then .error (duplicate a)
    else insertNew key value duplicate (m.insert (key a) (value a)) rest

theorem insertNew_ok {l : List α} (hnodup : (l.map key).Nodup)
    (hfree : ∀ a ∈ l, m.get? (key a) = none) :
    ∃ r, insertNew key value duplicate m l = .ok r := by
  induction l generalizing m with
  | nil => exact ⟨m, rfl⟩
  | cons a rest ih =>
    rw [map_cons, nodup_cons] at hnodup
    have ha : m.contains (key a) = false := by
      simp [contains, hfree a (by simp)]
    unfold insertNew
    rw [ha]
    refine ih hnodup.2 fun b hb => ?_
    rw [get?_insert, if_neg, hfree b (by simp [hb])]
    intro heq
    exact hnodup.1 (mem_map.mpr ⟨b, hb, heq⟩)

/-- After the insertions a key finds its element, or what it found before. -/
theorem get?_insertNew {r : OrdMap κ ν} {l : List α}
    (h : insertNew key value duplicate m l = .ok r) :
    (l.map key).Nodup ∧ (∀ a ∈ l, m.get? (key a) = none) ∧
      (∀ a ∈ l, r.get? (key a) = some (value a)) ∧
      ∀ k, k ∉ l.map key → r.get? k = m.get? k := by
  induction l generalizing m with
  | nil =>
    cases h
    simp
  | cons a rest ih =>
    unfold insertNew at h
    split_ifs at h with htaken
    obtain ⟨hnodup, hfree, hfound, hother⟩ := ih h
    have hkept : ∀ b ∈ rest, key b ≠ key a ∧ m.get? (key b) = none := by
      intro b hb
      have hnone := hfree b hb
      rw [get?_insert] at hnone
      split_ifs at hnone with heq
      exact ⟨heq, hnone⟩
    have hnew : key a ∉ rest.map key := by
      intro hmem
      obtain ⟨b, hb, heq⟩ := mem_map.mp hmem
      exact (hkept b hb).1 heq
    refine ⟨?_, ?_, ?_, ?_⟩
    · rw [map_cons, nodup_cons]
      exact ⟨hnew, hnodup⟩
    · rintro b (_ | ⟨_, hb⟩)
      · simpa [contains] using htaken
      · exact (hkept b hb).2
    · rintro b (_ | ⟨_, hb⟩)
      · rw [hother _ hnew, get?_insert_self]
      · exact hfound b hb
    · intro k hk
      rw [map_cons, mem_cons, not_or] at hk
      rw [hother k hk.2, get?_insert, if_neg hk.1]

/-- The entries of a map make the map again. -/
theorem insertNew_entries {l : List α} (hl : m.entries = l.map fun a => (key a, value a)) :
    insertNew key value duplicate ∅ l = .ok m := by
  have hkeys : l.map key = m.keys := by
    rw [keys, hl, map_map]
    rfl
  obtain ⟨r, hr⟩ := @insertNew_ok κ ν _ ∅ α ε key value duplicate l
    (hkeys ▸ m.keys_nodup) fun a _ => get?_empty (key a)
  rw [hr]
  obtain ⟨-, -, hfound, hother⟩ := get?_insertNew hr
  refine congrArg Except.ok (ext_get? fun k => ?_)
  by_cases hk : k ∈ l.map key
  · obtain ⟨a, ha, rfl⟩ := mem_map.mp hk
    rw [hfound a ha, eq_comm, ← mem_entries, hl]
    exact mem_map.mpr ⟨a, ha, rfl⟩
  · rw [hother k hk, get?_empty, eq_comm]
    rw [hkeys, mem_keys] at hk
    exact Option.eq_none_iff_forall_ne_some.mpr fun v hv => hk ⟨v, hv⟩

end InsertNew

/-! ## Whole maps -/

section Whole

variable {μ : Type v}

/-- The map with every value changed. -/
def mapValues (f : κ → ν → μ) (m : OrdMap κ ν) : OrdMap κ μ :=
  ⟨m.entries.map fun e => (e.1, f e.1 e.2), List.pairwise_map.mpr m.sorted⟩

/-- The entries that satisfy `p`. -/
def filter (p : κ → ν → Bool) (m : OrdMap κ ν) : OrdMap κ ν :=
  ⟨m.entries.filter fun e => p e.1 e.2, m.sorted.filter _⟩

/-- The map of the keys `ks` with the values of `f`. -/
def tabulate (ks : List κ) (f : κ → ν) : OrdMap κ ν :=
  ks.foldl (fun m k => m.insert k (f k)) ∅

theorem get?_mapValues (f : κ → ν → μ) (m : OrdMap κ ν) (k : κ) :
    (m.mapValues f).get? k = (m.get? k).map (f k) := by
  refine Option.ext fun w => ?_
  rw [← mem_entries, Option.map_eq_some_iff]
  constructor
  · intro h
    obtain ⟨⟨k', v⟩, he, heq⟩ := mem_map.mp h
    cases heq
    exact ⟨v, m.mem_entries.mp he, rfl⟩
  · rintro ⟨v, hv, rfl⟩
    exact mem_map.mpr ⟨(k, v), m.mem_entries.mpr hv, rfl⟩

theorem get?_filter (p : κ → ν → Bool) (m : OrdMap κ ν) (k : κ) :
    (m.filter p).get? k = (m.get? k).filter (p k) := by
  refine Option.ext fun w => ?_
  rw [← mem_entries, Option.filter_eq_some_iff]
  exact mem_filter.trans (and_congr_left' m.mem_entries)

theorem get?_tabulate (ks : List κ) (f : κ → ν) (k : κ) :
    (tabulate ks f).get? k = if k ∈ ks then some (f k) else none := by
  have hfold : ∀ m : OrdMap κ ν, (ks.foldl (fun m k => m.insert k (f k)) m).get? k =
      if k ∈ ks then some (f k) else m.get? k := by
    induction ks with
    | nil => simp
    | cons k' rest ih =>
      intro m
      rw [foldl_cons, ih, get?_insert]
      by_cases hk : k = k'
      · subst hk
        simp
      · simp [hk]
  exact hfold ∅

end Whole

/-! ### Properties of every entry -/

section All

variable {P Q : κ → ν → Prop}

/-- Every entry satisfies `P`. -/
def All (P : κ → ν → Prop) (m : OrdMap κ ν) : Prop := ∀ k v, m.get? k = some v → P k v

theorem all_empty : All P (∅ : OrdMap κ ν) := fun _ _ h => by cases h

theorem all_iff : m.All P ↔ ∀ e ∈ m.entries, P e.1 e.2 :=
  ⟨fun h e he => h e.1 e.2 (m.mem_entries.mp he), fun h k v hv => h (k, v) (m.mem_entries.mpr hv)⟩

theorem All.mono (h : m.All P) (hPQ : ∀ k v, P k v → Q k v) : m.All Q :=
  fun k v hv => hPQ k v (h k v hv)

theorem All.insert (h : m.All P) {k : κ} {v : ν} (hPQ : ∀ k' v', k' ≠ k → P k' v' → Q k' v')
    (hv : Q k v) : (m.insert k v).All Q := by
  intro k' v' hget
  rw [get?_insert] at hget
  split_ifs at hget with hk
  · cases hget
    exact hk ▸ hv
  · exact hPQ k' v' hk (h k' v' hget)

theorem All.modify (h : m.All P) {k : κ} {f : ν → ν}
    (hPQ : ∀ k' v, k' ≠ k → P k' v → Q k' v) (hf : ∀ v, P k v → Q k (f v)) :
    (m.modify k f).All Q := by
  intro k' v' hget
  rw [get?_modify] at hget
  split_ifs at hget with hk
  · obtain ⟨v, hv, rfl⟩ := Option.map_eq_some_iff.mp hget
    rw [hk]
    exact hf v (h k v hv)
  · exact hPQ k' v' hk (h k' v' hget)

theorem All.mapValues {μ : Type v} {R : κ → μ → Prop} {f : κ → ν → μ} (h : m.All P)
    (hf : ∀ k v, P k v → R k (f k v)) : (m.mapValues f).All R := by
  intro k w hget
  rw [get?_mapValues] at hget
  obtain ⟨v, hv, rfl⟩ := Option.map_eq_some_iff.mp hget
  exact hf k v (h k v hv)

end All

/-- A held value and the values without its key are all the values. -/
theorem values_perm_erase (h : m.get? k = some v) :
    m.values.Perm (v :: (m.erase k).values) :=
  (entries_perm_erase h).map Prod.snd

/-- A key above all others is held last. -/
theorem values_insert_last (h : ∀ k' v', m.get? k' = some v' → k' < k) :
    (m.insert k v).values = m.values ++ [v] := by
  have hbelow : ∀ e ∈ m.entries, e.1 < k := fun e he => h e.1 e.2 (m.mem_entries.mp he)
  have hentries : (m.insert k v).entries = m.entries ++ [(k, v)] := by
    refine (m.insert k v).sorted.eq_of_mem_iff
      (pairwise_append.mpr ⟨m.sorted, by simp, by simpa using hbelow⟩) fun ⟨k', v'⟩ => ?_
    rw [mem_entries, get?_insert, mem_append, mem_entries, mem_singleton, Prod.mk.injEq]
    by_cases hk : k' = k
    · have hfree : ¬ m.get? k = some v' := fun hget => lt_irrefl k (h k v' hget)
      simp [hk, hfree, eq_comm]
    · simp [hk]
  rw [values, values, hentries, map_append]
  rfl

theorem size_eq_total (m : OrdMap κ ν) : m.size = total (fun _ _ => 1) m := by
  simp [size, total]

theorem size_insert_of_none (h : m.get? k = none) :
    (m.insert k v).size = m.size + 1 := by
  rw [size_eq_total, size_eq_total, total_insert_of_none h, Nat.add_comm]

theorem size_insert_of_some {v w : ν} (h : m.get? k = some w) :
    (m.insert k v).size = m.size := by
  have htotal := total_insert_of_some (f := fun _ _ => 1) (v := v) h
  rw [size_eq_total, size_eq_total]
  omega

theorem size_erase (h : m.get? k = some v) : (m.erase k).size + 1 = m.size := by
  rw [size_eq_total, size_eq_total, total_erase h, Nat.add_comm]

theorem size_insertNew {α ε : Type*} {key : α → κ} {value : α → ν} {duplicate : α → ε}
    {r : OrdMap κ ν} {l : List α} (h : insertNew key value duplicate m l = .ok r) :
    r.size = m.size + l.length := by
  induction l generalizing m with
  | nil =>
    cases h
    rfl
  | cons a rest ih =>
    unfold insertNew at h
    split_ifs at h with htaken
    have hnone : m.get? (key a) = none := by simpa [contains] using htaken
    rw [ih h, size_insert_of_none hnone, length_cons]
    omega

theorem insert_of_get? (h : m.get? k = some v) : m.insert k v = m := by
  refine ext_get? fun k' => ?_
  rw [get?_insert]
  split_ifs with hk
  · rw [hk, h]
  · rfl

end OrdMap

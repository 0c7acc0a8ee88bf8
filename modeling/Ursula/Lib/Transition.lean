import Mathlib.Logic.Relation
import Mathlib.Data.Nat.Find

/-!
# Transition systems

Two kinds of system. An action system changes its state by actions that may be enabled or not; a
trace is a list of enabled actions, and what every enabled action keeps, a trace keeps. A responder
answers every input and changes its state on the way.

## Main definitions

* `ActionSystem`, `ActionSystem.Trace`: enabled actions, and lists of them
* `ActionSystem.restrict`: a system with some of its actions only
* `Responder`, `Responder.run`: a state machine with answers, and its runs

## Main results

* `ActionSystem.Trace.invariant`: the invariant rule of traces
* `List.exists_step_of_foldl`, `List.foldl_gains`: what a run gains, one of its steps gains
* `Nat.exists_first_of_decreasing`: a decreasing measure brings a sequence to its goal
-/

universe u v w

/-! ## Action systems -/

/-- A system that changes its state by actions. -/
structure ActionSystem (σ : Type u) (α : Type v) where
  /-- When an action may happen. -/
  Enabled : σ → α → Prop
  /-- What an action makes of a state. -/
  act : σ → α → σ

namespace ActionSystem

variable {σ : Type u} {α : Type v} {system : ActionSystem σ α}

/-- The actions, each enabled, from one state to another. -/
inductive Trace (system : ActionSystem σ α) : σ → List α → σ → Prop
  | nil (s : σ) : Trace system s [] s
  | cons {s t : σ} {a : α} {as : List α} (henabled : system.Enabled s a)
      (htrace : Trace system (system.act s a) as t) : Trace system s (a :: as) t

namespace Trace

theorem single {s : σ} {a : α} (h : system.Enabled s a) : system.Trace s [a] (system.act s a) :=
  .cons h (.nil _)

theorem append {s t r : σ} {as bs : List α} (hst : system.Trace s as t)
    (htr : system.Trace t bs r) : system.Trace s (as ++ bs) r := by
  induction hst with
  | nil => exact htr
  | cons henabled _ ih => exact .cons henabled (ih htr)

/-- A trace of two lists of actions passes through a state between them. -/
theorem split {s t : σ} {as bs : List α} (h : system.Trace s (as ++ bs) t) :
    ∃ r, system.Trace s as r ∧ system.Trace r bs t := by
  induction as generalizing s with
  | nil => exact ⟨s, .nil _, h⟩
  | cons a as ih =>
    cases h with
    | cons henabled htrace =>
      obtain ⟨r, hfirst, hrest⟩ := ih htrace
      exact ⟨r, .cons henabled hfirst, hrest⟩

/-- The actions of a trace determine where it ends. -/
theorem unique {s t r : σ} {as : List α} (hst : system.Trace s as t) (hsr : system.Trace s as r) :
    t = r := by
  induction hst with
  | nil =>
    cases hsr
    rfl
  | cons _ _ ih =>
    cases hsr with
    | cons _ htrace => exact ih htrace

/-- What every enabled action keeps, a trace keeps. -/
theorem invariant {P : σ → Prop} (hstep : ∀ s a, system.Enabled s a → P s → P (system.act s a))
    {s t : σ} {as : List α} (h : system.Trace s as t) (hs : P s) : P t := by
  induction h with
  | nil => exact hs
  | cons henabled _ ih => exact ih (hstep _ _ henabled hs)

end Trace

/-- The system with some of its actions only. -/
def restrict (system : ActionSystem σ α) (Allowed : σ → α → Prop) : ActionSystem σ α where
  Enabled s a := system.Enabled s a ∧ Allowed s a
  act := system.act

end ActionSystem

/-! ## Responders -/

/-- A deterministic state machine that answers every input. -/
abbrev Responder (σ : Type u) (ι : Type v) (ο : Type w) := σ → ι → σ × ο

namespace Responder

variable {σ : Type u} {ι : Type v} {ο : Type w}

/-- The state after a list of inputs, and the answers to them. -/
def run (step : Responder σ ι ο) : σ → List ι → σ × List ο
  | s, [] => (s, [])
  | s, i :: is =>
    let next := step s i
    let rest := run step next.1 is
    (rest.1, next.2 :: rest.2)

theorem run_append (step : Responder σ ι ο) (s : σ) (is js : List ι) :
    run step s (is ++ js) =
      ((run step (run step s is).1 js).1, (run step s is).2 ++
        (run step (run step s is).1 js).2) := by
  induction is generalizing s with
  | nil => rfl
  | cons i is ih => simp [run, ih]

end Responder

/-! ## Folds -/

/-- A property that a fold of steps gains is gained at one of them. -/
theorem List.exists_step_of_foldl {σ : Type u} {α : Type v} {step : σ → α → σ} {P : σ → Prop}
    {s : σ} {l : List α} (hstart : ¬ P s) (hend : P (l.foldl step s)) :
    ∃ before a after, l = before ++ a :: after ∧ ¬ P (before.foldl step s) ∧
      P ((before ++ [a]).foldl step s) := by
  induction l generalizing s with
  | nil => exact absurd hend hstart
  | cons a rest ih =>
    by_cases hnext : P (step s a)
    · exact ⟨[], a, rest, rfl, hstart, hnext⟩
    · obtain ⟨before, b, after, rfl, hbefore, hafter⟩ := ih hnext hend
      exact ⟨a :: before, b, after, rfl, hbefore, hafter⟩

/-- A fold gains what one of its steps gains and every step keeps. -/
theorem List.foldl_gains {σ : Type u} {α : Type v} {step : σ → α → σ} {P Q : σ → Prop}
    {l : List α} {a : α} (ha : a ∈ l) (hP : ∀ s b, P s → P (step s b))
    (hQ : ∀ s b, Q s → Q (step s b)) (hgain : ∀ s, P s → Q (step s a)) {s : σ} (hs : P s) :
    Q (l.foldl step s) := by
  induction l generalizing s with
  | nil => cases ha
  | cons b rest ih =>
    rcases List.mem_cons.mp ha with rfl | ha
    · exact List.foldlRecOn rest step (hgain s hs) fun s hs b _ => hQ s b hs
    · exact ih ha (hP s b hs)

/-! ## Measures -/

/-- A measure that decreases wherever `P` fails brings a sequence to `P`. -/
theorem Nat.exists_first_of_decreasing (measure : ℕ → ℕ) (P : ℕ → Prop)
    (h : ∀ i, ¬ P i → measure (i + 1) < measure i) :
    ∃ k ≤ measure 0, P k ∧ ∀ i < k, ¬ P i := by
  classical
  have hdrop : ∀ k, (∀ i < k, ¬ P i) → measure k + k ≤ measure 0 := fun k hk => by
    induction k with
    | zero => exact le_rfl
    | succ k ih =>
      have hbefore := ih fun i hi => hk i (Nat.lt_succ_of_lt hi)
      have hstep := h k (hk k (Nat.lt_succ_self k))
      omega
  have hreached : ∃ k, P k := by
    by_contra hnone
    have hlong := hdrop (measure 0 + 1) fun i _ hi => hnone ⟨i, hi⟩
    omega
  have hfirst := hdrop (Nat.find hreached) fun i => Nat.find_min hreached
  exact ⟨Nat.find hreached, by omega, Nat.find_spec hreached, fun i => Nat.find_min hreached⟩

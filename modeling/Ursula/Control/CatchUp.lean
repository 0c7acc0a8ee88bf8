import Mathlib.Data.List.Chain
import Ursula.Control.Model

/-!
# When a learner has caught up

A leader follows its learners in rounds. A round asks a learner to match the commit index as it
stood when the round started. A learner is caught up once a round ends within a bound of its start,
for as long as the next round has not run past the bound.

## Main definitions

* `CatchUpRounds.observe`: one observation of the learners, and the ones caught up
* `Present`: an observation of a node's current unbroken presence among the learners

## Main results

* `catch_up_rounds`: a learner reported caught up has matched a recent commit index, one that keeps
  up is reported, and a node that left is judged by what follows
-/

namespace Ursula.Control

open List

/-- One learner's current round. -/
structure Round where
  target : ℕ
  startedMs : ℕ
  /-- Whether the round before this one ended within the bound. -/
  keptUp : Bool

/-- What the shell passes: the time, the leader's commit index, the members' matched indexes and
the learners. -/
structure Observation where
  nowMs : ℕ
  committed : ℕ
  matched : OrdMap NodeId (Option ℕ)
  learners : Finset NodeId

/-- The index a node matches. -/
def Observation.matchedBy (observation : Observation) (node : NodeId) : Option ℕ :=
  (observation.matched.get? node).join

/-- The round of a learner after an observation, from the one before. -/
def Observation.round (observation : Observation) (boundMs : ℕ) (learner : NodeId)
    (before : Option Round) : Round :=
  let round := before.getD ⟨observation.committed, observation.nowMs, false⟩
  let elapsed := observation.nowMs - round.startedMs
  if (observation.matchedBy learner).any (round.target ≤ ·) then
    ⟨observation.committed, observation.nowMs, elapsed ≤ boundMs⟩
  else if boundMs < elapsed then { round with keptUp := false }
  else round

/-- The rounds of the learners a group leader replicates to. -/
abbrev CatchUpRounds := OrdMap NodeId Round

/-- Follows one learner, beside the ones caught up so far. -/
def CatchUpRounds.follow (boundMs : ℕ) (observation : Observation)
    (state : CatchUpRounds × Finset NodeId) (learner : NodeId) : CatchUpRounds × Finset NodeId :=
  let round := observation.round boundMs learner (state.1.get? learner)
  (state.1.insert learner round, if round.keptUp then insert learner state.2 else state.2)

/-- Follows each learner and answers the ones caught up. A node that is no learner loses its
round. -/
def CatchUpRounds.observe (boundMs : ℕ) (rounds : CatchUpRounds) (observation : Observation) :
    CatchUpRounds × Finset NodeId :=
  observation.learners.ascending.foldl (follow boundMs observation)
    (rounds.filter fun node _ => node ∈ observation.learners, ∅)

/-- The rounds after the observations, and the learners the last one reported. -/
def CatchUpRounds.run (boundMs : ℕ) (observations : List Observation) :
    CatchUpRounds × Finset NodeId :=
  observations.foldl (fun state => state.1.observe boundMs) (∅, ∅)

/-- The observation is one of the node's current unbroken presence. -/
def Present (node : NodeId) (observations : List Observation) (observation : Observation) : Prop :=
  ∃ before after, observations = before ++ observation :: after ∧
    ∀ later ∈ observation :: after, node ∈ later.learners

/-- The index the node matches does not go back between two observations it is a learner at. -/
def KeepsMatched (node : NodeId) (first second : Observation) : Prop :=
  node ∈ first.learners → node ∈ second.learners → ∀ index, first.matchedBy node = some index →
    ∃ index', second.matchedBy node = some index' ∧ index ≤ index'

/-- The node matches the commit index of the observation before, at most the bound later. -/
def KeepsUp (boundMs : ℕ) (node : NodeId) (first second : Observation) : Prop :=
  second.nowMs ≤ first.nowMs + boundMs ∧
    ∃ index, second.matchedBy node = some index ∧ first.committed ≤ index

variable {boundMs : ℕ} {node : NodeId} {rounds : CatchUpRounds} {round : Round}
  {observation last start : Observation} {observations : List Observation}

theorem present_self (h : node ∈ observation.learners) :
    Present node (observations ++ [observation]) observation :=
  ⟨observations, [], rfl, by simpa using h⟩

theorem Present.append (h : Present node observations start) (hnode : node ∈ observation.learners) :
    Present node (observations ++ [observation]) start := by
  obtain ⟨before, after, rfl, hafter⟩ := h
  refine ⟨before, after ++ [observation], by simp, fun later hlater => ?_⟩
  rw [← cons_append, mem_append, mem_singleton] at hlater
  obtain hlater | rfl := hlater
  · exact hafter later hlater
  · exact hnode

namespace CatchUpRounds

/-! ## One observation -/

/-- Each learner is followed once, from its own round. -/
theorem foldl_follow {learners : List NodeId} (hnodup : learners.Nodup)
    (state : CatchUpRounds × Finset NodeId) :
    let after := learners.foldl (follow boundMs observation) state
    let round := observation.round boundMs node (state.1.get? node)
    (after.1.get? node = if node ∈ learners then some round else state.1.get? node) ∧
      (node ∈ after.2 ↔ node ∈ state.2 ∨ node ∈ learners ∧ round.keptUp) := by
  induction learners generalizing state with
  | nil => simp
  | cons learner rest ih =>
    obtain ⟨hlearner, hrest⟩ := nodup_cons.mp hnodup
    obtain ⟨hget, hmem⟩ := ih hrest (follow boundMs observation state learner)
    dsimp only at hget hmem ⊢
    rw [foldl_cons, hget, hmem]
    by_cases hnode : node = learner
    · subst hnode
      by_cases hkept : (observation.round boundMs node (state.1.get? node)).keptUp <;>
        simp [follow, hlearner, hkept]
    · have hother : (follow boundMs observation state learner).1.get? node = state.1.get? node := by
        rw [follow, OrdMap.get?_insert, if_neg hnode]
      have hreported : node ∈ (follow boundMs observation state learner).2 ↔ node ∈ state.2 := by
        unfold follow
        dsimp only
        split_ifs <;> simp [hnode]
      simp [hother, hreported, hnode]

theorem get?_retain (h : node ∈ observation.learners) :
    (rounds.filter fun node _ => node ∈ observation.learners).get? node = rounds.get? node := by
  rw [OrdMap.get?_filter]
  cases rounds.get? node <;> simp [h]

/-- The round of one node after an observation. -/
theorem get?_observe : (rounds.observe boundMs observation).1.get? node =
    if node ∈ observation.learners then some (observation.round boundMs node (rounds.get? node))
    else none := by
  refine (foldl_follow (Finset.nodup_ascending _) _).1.trans ?_
  by_cases hnode : node ∈ observation.learners
  · simp [get?_retain, hnode]
  · simp [OrdMap.get?_filter, hnode]

/-- The learners reported are those whose round before the current one ended in time. -/
theorem mem_observe : node ∈ (rounds.observe boundMs observation).2 ↔
    ((rounds.observe boundMs observation).1.get? node).any Round.keptUp := by
  refine (foldl_follow (Finset.nodup_ascending _) _).2.trans ?_
  rw [get?_observe]
  by_cases hnode : node ∈ observation.learners <;> simp [get?_retain, hnode]

/-! ## What a report says -/

/-- What a round says of the observations so far: it started at one of them, and if the round before
it ended in time, that one started at most the bound earlier and its index is matched. -/
structure Follows (boundMs : ℕ) (node : NodeId) (observations : List Observation)
    (matched : Option ℕ) (round : Round) : Prop where
  started : ∃ start, Present node observations start ∧ start.committed = round.target ∧
    start.nowMs = round.startedMs
  keptUp : round.keptUp → ∃ start, Present node observations start ∧
    round.startedMs ≤ start.nowMs + boundMs ∧ ∃ index, matched = some index ∧
      start.committed ≤ index

theorem Follows.append (h : Follows boundMs node observations (last.matchedBy node) round)
    (hlast : KeepsMatched node last observation) (hbefore : node ∈ last.learners)
    (hnode : node ∈ observation.learners) :
    Follows boundMs node (observations ++ [observation]) (observation.matchedBy node) round := by
  refine ⟨?_, fun hkept => ?_⟩
  · obtain ⟨start, hpresent, hstart⟩ := h.started
    exact ⟨start, hpresent.append hnode, hstart⟩
  · obtain ⟨start, hpresent, hstart, index, hindex, hle⟩ := h.keptUp hkept
    obtain ⟨index', hindex', hle'⟩ := hlast hbefore hnode index hindex
    exact ⟨start, hpresent.append hnode, hstart, index', hindex', hle.trans hle'⟩

/-- An observation ends the round it finds, or leaves it. -/
theorem Follows.next {before : Option Round} (hnode : node ∈ observation.learners)
    (h : Follows boundMs node (observations ++ [observation]) (observation.matchedBy node)
      (before.getD ⟨observation.committed, observation.nowMs, false⟩)) :
    Follows boundMs node (observations ++ [observation]) (observation.matchedBy node)
      (observation.round boundMs node before) := by
  unfold Observation.round
  dsimp only
  split_ifs with hmatched hlate
  · obtain ⟨index, hindex, hle⟩ := (Option.any_eq_true ..).mp hmatched
    obtain ⟨start, hpresent, htarget, hstarted⟩ := h.started
    refine ⟨⟨observation, present_self hnode, rfl, rfl⟩, fun hintime => ?_⟩
    have helapsed := of_decide_eq_true hintime
    refine ⟨start, hpresent, ?_, index, hindex, htarget.le.trans (of_decide_eq_true hle)⟩
    rw [← hstarted] at helapsed
    exact Nat.sub_le_iff_le_add'.mp helapsed
  · exact ⟨h.started, by rintro ⟨⟩⟩
  · exact h

/-- The round of a learner that is reported has not run past the bound. -/
theorem le_of_keptUp {before : Option Round} : (observation.round boundMs node before).keptUp →
      observation.nowMs ≤ (observation.round boundMs node before).startedMs + boundMs := by
  unfold Observation.round
  dsimp only
  split_ifs with hmatched hlate
  · exact fun _ => Nat.le_add_right ..
  · rintro ⟨⟩
  · exact fun _ => Nat.sub_le_iff_le_add'.mp (not_lt.mp hlate)

theorem run_append : run boundMs (observations ++ [observation]) =
    (run boundMs observations).1.observe boundMs observation :=
  foldl_append ..

/-- A node with a round is a learner at the last observation. -/
theorem mem_last_of_run (hround : (run boundMs observations).1.get? node = some round) :
    ∃ last, observations.getLast? = some last ∧ node ∈ last.learners := by
  cases observations using reverseRecOn with
  | nil => cases hround
  | append_singleton observations observation =>
    rw [run_append, get?_observe] at hround
    split_ifs at hround with hnode
    exact ⟨observation, getLast?_concat, hnode⟩

/-- What every round says while the node's matched index does not go back. -/
theorem follows_run (hmatched : observations.IsChain (KeepsMatched node))
    (hlast : observations.getLast? = some last)
    (hround : (run boundMs observations).1.get? node = some round) :
    Follows boundMs node observations (last.matchedBy node) round ∧
      (round.keptUp → last.nowMs ≤ round.startedMs + boundMs) := by
  induction observations using reverseRecOn generalizing last round with
  | nil => cases hlast
  | append_singleton observations observation ih =>
    obtain rfl : observation = last := by simpa using hlast
    rw [run_append, get?_observe] at hround
    split_ifs at hround with hnode
    cases hround
    refine ⟨.next hnode ?_, le_of_keptUp⟩
    cases hfound : (run boundMs observations).1.get? node with
    | none => exact ⟨⟨observation, present_self hnode, rfl, rfl⟩, by rintro ⟨⟩⟩
    | some own =>
      obtain ⟨hbefore, -, hbetween⟩ := isChain_append.mp hmatched
      -- A round is left only by an observation with the node among the learners.
      obtain ⟨previous, hprevious, hlearner⟩ := mem_last_of_run hfound
      exact (ih hbefore hprevious hfound).1.append
        (hbetween previous hprevious observation rfl) hlearner hnode

/-! ## What is reported -/

/-- A learner that keeps up is reported. -/
theorem reported_of_keepsUp (hchain : (start :: observations).IsChain (KeepsUp boundMs node))
    (hne : observations ≠ []) (hnode : ∀ observation ∈ observations, node ∈ observation.learners)
    {state : CatchUpRounds × Finset NodeId} {kept : Bool}
    (hround : state.1.get? node = some ⟨start.committed, start.nowMs, kept⟩) :
    node ∈ (observations.foldl (fun state => state.1.observe boundMs) state).2 := by
  induction observations generalizing start state kept with
  | nil => exact absurd rfl hne
  | cons observation rest ih =>
    obtain ⟨⟨hsoon, index, hindex, hle⟩, hrest⟩ := isChain_cons_cons.mp hchain
    have hnext : (state.1.observe boundMs observation).1.get? node =
        some ⟨observation.committed, observation.nowMs, true⟩ := by
      rw [get?_observe, if_pos (hnode _ (mem_cons_self ..)), hround, Observation.round]
      simpa [hindex, hle, Nat.add_comm] using hsoon
    cases rest with
    | nil => exact mem_observe.mpr (by rw [hnext]; rfl)
    | cons next rest =>
      exact ih hrest (cons_ne_nil _ _) (fun other hother => hnode other (.tail _ hother)) hnext

/-- What is reported of a node rests on its own round. -/
theorem reported_congr {state state' : CatchUpRounds × Finset NodeId}
    (hget : state.1.get? node = state'.1.get? node) (hmem : node ∈ state.2 ↔ node ∈ state'.2) :
    node ∈ (observations.foldl (fun state => state.1.observe boundMs) state).2 ↔
      node ∈ (observations.foldl (fun state => state.1.observe boundMs) state').2 := by
  induction observations generalizing state state' with
  | nil => exact hmem
  | cons observation rest ih =>
    have hnext : (state.1.observe boundMs observation).1.get? node =
        (state'.1.observe boundMs observation).1.get? node := by
      rw [get?_observe, get?_observe, hget]
    exact ih hnext (by rw [mem_observe, mem_observe, hnext])

/-- **Catch-up rounds are sound and complete.** Along observations at which the index a node matches
does not go back while it is a learner, a node that the last one reports has matched the commit
index of an observation of its current presence, at most two bounds ago. A learner present
throughout that at each observation matches the commit index of the one before, at most the bound
later, is reported from its second observation on. A node that left is judged only by the
observations after it came back. -/
theorem catch_up_rounds (boundMs : ℕ) (node : NodeId) (observations : List Observation) :
    (observations.IsChain (KeepsMatched node) →
      ∀ last ∈ observations.getLast?, node ∈ (run boundMs observations).2 →
      ∃ start, Present node observations start ∧ last.nowMs ≤ start.nowMs + 2 * boundMs ∧
        ∃ index, last.matchedBy node = some index ∧ start.committed ≤ index) ∧
    ((∀ observation ∈ observations, node ∈ observation.learners) →
      observations.IsChain (KeepsUp boundMs node) → 2 ≤ observations.length →
      node ∈ (run boundMs observations).2) ∧
    ∀ before gone after, observations = before ++ gone :: after → node ∉ gone.learners →
      (node ∈ (run boundMs observations).2 ↔ node ∈ (run boundMs after).2) := by
  refine ⟨fun hmatched last hlast hreported => ?_, fun hnode hchain hlength => ?_, ?_⟩
  · obtain ⟨before, rfl⟩ := getLast?_eq_some_iff.mp hlast
    rw [run_append, mem_observe, ← run_append] at hreported
    obtain ⟨round, hround, hkept⟩ := (Option.any_eq_true ..).mp hreported
    obtain ⟨hfollows, hlate⟩ := follows_run hmatched hlast hround
    obtain ⟨start, hpresent, hstart, hindex⟩ := hfollows.keptUp hkept
    have hintime := hlate hkept
    exact ⟨start, hpresent, by omega, hindex⟩
  · match observations, hlength with
    | first :: second :: rest, _ =>
      obtain ⟨hfirst, hrest⟩ := forall_mem_cons.mp hnode
      have hround : (observe boundMs ∅ first).1.get? node = some
          ⟨first.committed, first.nowMs, (first.matchedBy node).any (first.committed ≤ ·)⟩ := by
        rw [get?_observe, if_pos hfirst, OrdMap.get?_empty, Observation.round]
        by_cases h : (first.matchedBy node).any (first.committed ≤ ·) <;> simp [h]
      exact reported_of_keepsUp hchain (cons_ne_nil _ _) hrest hround
  · rintro before gone after rfl hgone
    have hleft : (run boundMs (before ++ [gone])).1.get? node = none := by
      rw [run_append, get?_observe, if_neg hgone]
    have hnone : node ∉ (run boundMs (before ++ [gone])).2 := by
      rw [run_append, mem_observe, ← run_append, hleft]
      simp
    rw [append_cons, run, foldl_append]
    exact reported_congr (hleft.trans (OrdMap.get?_empty node).symm)
      (iff_of_false hnone (Finset.notMem_empty node))

/-- What a leader sees of one learner. -/
def learnerAt (nowMs committed matched : ℕ) : Observation :=
  ⟨nowMs, committed, OrdMap.empty.insert 1 (some matched), {1}⟩

/-- A learner that leaves the replication map, comes back behind and keeps up from there. -/
def leaves : List Observation :=
  [learnerAt 0 10 10, ⟨100, 12, ∅, ∅⟩, learnerAt 200 20 15, learnerAt 300 30 20,
    learnerAt 1300 50 30]

/-- The learner is reported once it matches the commit indexes it came back to, and what the report
says is about the observations after its return. -/
theorem catch_up_rounds_leaves : 1 ∈ (run 3000 leaves).2 ∧
    ∃ start, Present 1 leaves start ∧ 1300 ≤ start.nowMs + 2 * 3000 ∧ start.committed ≤ 30 := by
  have hkeeps : (leaves.drop 2).IsChain (KeepsUp 3000 1) :=
    .cons_cons ⟨by decide, 20, by decide, by decide⟩
      (.cons_cons ⟨by decide, 30, by decide, by decide⟩ (.singleton _))
  have hmatched : leaves.IsChain (KeepsMatched 1) := by
    refine .cons_cons (fun _ => nofun) (.cons_cons nofun (.cons_cons (fun _ _ index hindex => ?_)
      (.cons_cons (fun _ _ index hindex => ?_) (.singleton _))))
    · cases hindex
      exact ⟨20, by decide, by decide⟩
    · cases hindex
      exact ⟨30, by decide, by decide⟩
  obtain ⟨hreport, -, hleft⟩ := catch_up_rounds 3000 1 leaves
  have hreported : 1 ∈ (run 3000 leaves).2 :=
    (hleft [learnerAt 0 10 10] _ (leaves.drop 2) rfl (by decide)).mpr
      ((catch_up_rounds 3000 1 (leaves.drop 2)).2.1 (by decide) hkeeps (by decide))
  obtain ⟨start, hpresent, hrecent, index, hindex, hle⟩ :=
    hreport hmatched (learnerAt 1300 50 30) rfl hreported
  cases hindex
  exact ⟨hreported, start, hpresent, hrecent, hle⟩

end CatchUpRounds

end Ursula.Control

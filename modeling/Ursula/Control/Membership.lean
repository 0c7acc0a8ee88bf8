import Ursula.Control.Reconcile
import Ursula.Lib.Quorum
import Ursula.Lib.Transition
import Mathlib.Data.List.Chain

/-!
# Committed memberships under stale knowledge

A data group commits one membership after another. Any replica that leads plans the next step from a
membership that was committed at some time, toward any target of as many voters, with any knowledge
of who is live, caught up or ready; the step takes effect only when the membership it was planned
from is still the last one. A change of the voters of a uniform config commits a joint config, whose
second entry may commit or be lost.

## Main definitions

* `Group`, `Group.execute`: the committed memberships, and what a step does to them
* `GroupEvent`, `groupSystem`: the events of a group of `n` voters
* `Follows`: the membership that may come after another

## Main results

* `changeVoters_of_plan`: what a proposed change of voters is
* `followed_trace`: in every run each committed membership follows the one before
* `reconciliation_under_stale_knowledge`: sizes, swaps and proposers, over every run
-/

namespace Ursula.Control

open Quorum MembershipConfig List

/-! ## What the planner proposes -/

/-- A change of voters that the planner proposes: the exit of a joint config onto a side with its
proposer, or a swap of one voter of a uniform config under a confirmed moving target. -/
inductive Proposal (me : NodeId) (view : ViewFreshness) (target : MembershipTarget) :
    MembershipConfig → VoterSet → Prop
  | exit {old new voters : VoterSet} (learners : Finset NodeId)
      (hside : voters = old ∨ voters = new)
      (hme : me ∈ voters) : Proposal me view target (.joint old new learners) voters
  | swap {current voters : VoterSet} (learners : Finset NodeId) (since : PlacementEpoch)
      (hstage : target.stage = .moving since) (hview : view = .confirmed)
      (hswapped : current.len = target.voters.len → Swapped current.nodes voters.nodes)
      (hme : me ∈ voters ∨ current.len = 1) :
    Proposal me view target (.uniform current learners) voters

theorem jointExit_eq_some {old new exit target : VoterSet} {live : Finset NodeId}
    (h : jointExit old new live target = some exit) : exit = old ∨ exit = new := by
  unfold jointExit at h
  split at h
  · cases h
  · cases h
    exact .inl rfl
  · cases h
    exact .inr rfl
  split_ifs at h <;> cases h
  · exact .inr rfl
  · exact .inl rfl
  · exact .inl rfl
  · exact .inr rfl
  · exact .inl rfl
  · exact .inr rfl

namespace Current

variable {current : Current} {leader : LeaderView} {target : MembershipTarget}

theorem promoted_eq_some {y : NodeId} (h : current.promoted leader target = some y) :
    y ∈ target.voters ∧ y ∉ current.voters := by
  have hmem := mem_of_find?_eq_some h
  rw [Finset.mem_ascending] at hmem
  exact Finset.mem_filter.mp hmem

theorem demoted_eq_some {x : NodeId} (h : current.demoted target = some x) :
    x ∈ current.voters ∧ x ∉ target.voters ∧ x ≠ current.me := by
  have hmem : x ∈ (current.dropped target).ascending.filter fun node => node ≠ current.me := by
    rcases Option.or_eq_some_iff.mp h with hdead | ⟨-, hfirst⟩
    · exact mem_of_find?_eq_some hdead
    · exact mem_of_head? hfirst
  obtain ⟨hdropped, hme⟩ := mem_filter.mp hmem
  rw [Finset.mem_ascending] at hdropped
  obtain ⟨hvoter, htarget⟩ := Finset.mem_filter.mp hdropped
  exact ⟨hvoter, htarget, by simpa using hme⟩

variable {voters : VoterSet} {expected : MembershipLogId}

/-- A swap drops one voter other than the leader and promotes one of the target's; the change of a
single voter replaces it. -/
theorem planSwap_eq_changeVoters (hme : current.me ∈ current.voters)
    (h : current.planSwap leader target = .changeVoters expected voters) :
    expected = current.expected ∧
      (current.voters.len = target.voters.len → Swapped current.voters.nodes voters.nodes) ∧
      (current.me ∈ voters ∨ current.voters.len = 1) := by
  unfold planSwap at h
  by_cases hone : current.voters.len = 1 ∧ target.voters.len = 1
  · rw [if_pos hone] at h
    cases hy : current.promoted leader target with
    | none => simp [hy] at h
    | some y =>
      simp only [hy] at h
      cases h
      refine ⟨rfl, fun _ => ?_, .inr hone.1⟩
      obtain ⟨x, hx⟩ := Finset.card_eq_one.mp hone.1
      refine ⟨x, by simp [hx], y, (promoted_eq_some hy).2, ?_⟩
      simp [hx, NonEmptyNodeSet.single]
  rw [if_neg hone] at h
  by_cases hx : (decide (target.voters.len ≤ current.voters.len) = true ∧
      current.demoted target = none)
  · rw [if_pos hx] at h
    split at h <;> cases h
  rw [if_neg hx] at h
  by_cases hy : (decide (current.voters.len ≤ target.voters.len) = true ∧
      current.promoted leader target = none)
  · rw [if_pos hy] at h
    cases h
  rw [if_neg hy] at h
  cases h
  refine ⟨rfl, fun hlen => ?_, .inl (Finset.mem_insert_self ..)⟩
  obtain ⟨x, hdemoted⟩ : ∃ x, current.demoted target = some x :=
    Option.ne_none_iff_exists'.mp fun hnone => hx ⟨by simp [hlen], hnone⟩
  obtain ⟨y, hpromoted⟩ : ∃ y, current.promoted leader target = some y :=
    Option.ne_none_iff_exists'.mp fun hnone => hy ⟨by simp [hlen], hnone⟩
  obtain ⟨hvoter, -, hne⟩ := demoted_eq_some hdemoted
  refine ⟨x, hvoter, y, (promoted_eq_some hpromoted).2, ?_⟩
  -- the leader is one of the voters that stay
  have hstays : current.me ∈ insert y (current.voters.nodes.erase x) :=
    Finset.mem_insert_of_mem (Finset.mem_erase.mpr ⟨hne.symm, hme⟩)
  simp only [hlen, le_refl, decide_true, hdemoted, hpromoted, NonEmptyNodeSet.fromFirst]
  exact Finset.insert_eq_self.mpr hstays

theorem planUniform_cases {step : MembershipStep} (h : current.planUniform leader target = step) :
    (∃ nodes, step = .addLearners current.expected nodes) ∨
      (∃ nodes, step = .removeLearners current.expected nodes) ∨
      (∀ expected voters, step ≠ .changeVoters expected voters) ∧
        (∀ expected nodes, step ≠ .addLearners expected nodes) ∧
        (∀ expected nodes, step ≠ .removeLearners expected nodes) ∨
      (∃ since, target.stage = .moving since) ∧ leader.view = .confirmed ∧
        step = current.planSwap leader target := by
  subst h
  unfold planUniform
  dsimp only
  split_ifs with hreached hsettled hmissing hview
  · unfold planReached
    dsimp only
    split_ifs
    · exact .inr (.inl ⟨_, rfl⟩)
    · exact .inl ⟨_, rfl⟩
    · exact .inr (.inr (.inl (by simp)))
  · exact .inr (.inr (.inl (by simp)))
  · exact .inl ⟨_, rfl⟩
  · exact .inr (.inr (.inl (by simp)))
  · refine .inr (.inr (.inr ⟨?_, ?_, rfl⟩))
    · cases hstage : target.stage with
      | seeded since => simp [hstage] at hreached
      | moving since => exact ⟨since, rfl⟩
      | settled => exact absurd hstage hsettled
    · cases hfresh : leader.view with
      | unconfirmed => exact absurd hfresh hview
      | confirmed => rfl

theorem planSwap_ne_learners :
    (∀ expected nodes, current.planSwap leader target ≠ .addLearners expected nodes) ∧
      ∀ expected nodes, current.planSwap leader target ≠ .removeLearners expected nodes := by
  unfold planSwap
  dsimp only
  constructor <;> intro expected nodes <;> split_ifs <;> (try split) <;> simp

end Current

/-- What the planner reads when it proposes a step that names a membership. -/
structure Plans (view : MembershipView) (leader : LeaderView) (expected : MembershipLogId)
    (config : MembershipConfig) : Prop where
  leading : view.leadership = .leading leader
  committed : leader.membership = .committed expected config
  voter : config.isVoter view.me = true

theorem Plans.unique {view : MembershipView} {leader leader' : LeaderView}
    {expected' : MembershipLogId} {config config' : MembershipConfig}
    (h : Plans view leader expected config) (h' : Plans view leader' expected' config') :
    leader' = leader ∧ expected' = expected ∧ config' = config := by
  obtain rfl : leader' = leader := by
    simpa only [h.leading, Leadership.leading.injEq, eq_comm] using h'.leading
  have hmembership := h'.committed
  rw [h.committed] at hmembership
  cases hmembership
  exact ⟨rfl, rfl, rfl⟩

variable {view : MembershipView} {target : MembershipTarget}

/-- A replica waits, or leads and is a voter of the committed config it plans from. -/
theorem plans_of_step (view : MembershipView) (target : MembershipTarget) :
    (∃ reason, planMembershipStep view target = .wait reason) ∨
      ∃ leader expected config, Plans view leader expected config ∧
        planMembershipStep view target =
          match config with
          | .joint old new _ =>
            planJointExit view.me expected old new (insert view.me leader.live) leader target
          | .uniform voters learners =>
            Current.planUniform
              { me := view.me, expected, voters, learners, live := insert view.me leader.live }
              leader target := by
  unfold planMembershipStep
  cases hleading : view.leadership with
  | notLeading | transferring | stepPending => exact .inl ⟨_, rfl⟩
  | leading leader =>
    cases hcommitted : leader.membership with
    | uncommitted logId =>
      simp only [hcommitted]
      exact .inl ⟨_, rfl⟩
    | committed expected config =>
      simp only [hcommitted]
      by_cases hvoter : config.isVoter view.me = true
      · rw [if_neg (by simp [hvoter])]
        exact .inr ⟨leader, expected, config,
          ⟨hleading, hcommitted, hvoter⟩, by cases config <;> rfl⟩
      · rw [if_pos (by simpa using hvoter)]
        exact .inl ⟨_, rfl⟩

/-- The step of a joint config changes its voters onto a side with the leader, hands off or
waits. -/
theorem planJointExit_cases (me : NodeId) (expected : MembershipLogId) (old new : VoterSet)
    (live : Finset NodeId) (leader : LeaderView) (target : MembershipTarget) :
    (∃ voters, planJointExit me expected old new live leader target =
        .changeVoters expected voters ∧ (voters = old ∨ voters = new) ∧ me ∈ voters) ∨
      (∃ toNode, planJointExit me expected old new live leader target =
        .transferLeadership toNode) ∨
      ∃ reason, planJointExit me expected old new live leader target = .wait reason := by
  unfold planJointExit
  cases hexit : jointExit old new live target.voters with
  | none => exact .inr (.inr ⟨_, rfl⟩)
  | some exit =>
    dsimp only
    by_cases hme : me ∈ exit
    · rw [if_pos hme]
      exact .inl ⟨exit, rfl, jointExit_eq_some hexit, hme⟩
    rw [if_neg hme]
    cases leader.handoffTarget me exit.iter with
    | some toNode => exact .inr (.inl ⟨toNode, rfl⟩)
    | none => exact .inr (.inr ⟨_, rfl⟩)

/-- A proposed change of voters is an exit of a joint config or a swap. -/
theorem changeVoters_of_plan (h : planMembershipStep view target = .changeVoters expected voters) :
    ∃ leader config, Plans view leader expected config ∧
      Proposal view.me leader.view target config voters := by
  obtain ⟨reason, hwait⟩ | ⟨leader, logId, config, hplans, hstep⟩ := plans_of_step view target
  · rw [hwait] at h
    cases h
  rw [hstep] at h
  cases config with
  | joint old new learners =>
    dsimp only at h
    obtain ⟨exit, hexit, hside, hme⟩ | ⟨toNode, htransfer⟩ | ⟨reason, hwait⟩ :=
      planJointExit_cases view.me logId old new (insert view.me leader.live) leader target
    · rw [hexit] at h
      cases h
      exact ⟨leader, _, hplans, .exit learners hside hme⟩
    · rw [htransfer] at h
      cases h
    · rw [hwait] at h
      cases h
  | uniform current learners =>
    have hme : view.me ∈ current := by
      simpa [isVoter, voterConfigs] using hplans.voter
    obtain ⟨nodes, hadd⟩ | ⟨nodes, hremove⟩ | ⟨hne, -⟩ | ⟨⟨since, hstage⟩, hview, hswap⟩ :=
      Current.planUniform_cases h
    · cases hadd
    · cases hremove
    · exact absurd rfl (hne expected voters)
    · obtain ⟨hexpected, hswapped, hstays⟩ := Current.planSwap_eq_changeVoters hme hswap.symm
      cases hexpected
      exact ⟨leader, _, hplans, .swap learners since hstage hview hswapped hstays⟩

/-- A step that adds or removes learners is planned from a uniform config. -/
theorem learners_of_plan {nodes : Finset NodeId}
    (h : planMembershipStep view target = .addLearners expected nodes ∨
      planMembershipStep view target = .removeLearners expected nodes) :
    ∃ leader voters learners, Plans view leader expected (.uniform voters learners) := by
  obtain ⟨reason, hwait⟩ | ⟨leader, logId, config, hplans, hstep⟩ := plans_of_step view target
  · rw [hwait] at h
    rcases h with h | h <;> cases h
  rw [hstep] at h
  cases config with
  | joint old new learners =>
    dsimp only at h
    obtain ⟨exit, hexit, -, -⟩ | ⟨toNode, htransfer⟩ | ⟨reason, hwait⟩ :=
      planJointExit_cases view.me logId old new (insert view.me leader.live) leader target
    · rw [hexit] at h
      rcases h with h | h <;> cases h
    · rw [htransfer] at h
      rcases h with h | h <;> cases h
    · rw [hwait] at h
      rcases h with h | h <;> cases h
  | uniform current learners =>
    refine ⟨leader, current, learners, ?_⟩
    rcases h with h | h <;>
      obtain ⟨own, hadd⟩ | ⟨own, hremove⟩ | ⟨-, hadds, hremoves⟩ | ⟨-, -, hswap⟩ :=
        Current.planUniform_cases h
    · cases hadd
      exact hplans
    · cases hremove
    · exact absurd rfl (hadds expected nodes)
    · exact absurd hswap.symm (Current.planSwap_ne_learners.1 expected nodes)
    · cases hadd
    · cases hremove
      exact hplans
    · exact absurd rfl (hremoves expected nodes)
    · exact absurd hswap.symm (Current.planSwap_ne_learners.2 expected nodes)

/-! ## Committed memberships -/

/-- The memberships a group committed, the last one first, and the second entry of a change of
voters that may still commit. -/
structure Group where
  committed : List (MembershipLogId × MembershipConfig)
  second : Option MembershipConfig
deriving DecidableEq

namespace Group

/-- A group with one committed uniform config. -/
def start (logId : MembershipLogId) (voters : VoterSet) (learners : Finset NodeId) : Group where
  committed := [(logId, .uniform voters learners)]
  second := none

/-- The last committed membership. -/
def config? (group : Group) : Option (MembershipLogId × MembershipConfig) := group.committed.head?

/-- The group once a membership commits. -/
def commit (group : Group) (logId : MembershipLogId) (config : MembershipConfig)
    (second : Option MembershipConfig) : Group where
  committed := (logId, config) :: group.committed
  second := second

end Group

/-- The config with other learners. -/
def MembershipConfig.withLearners (learners : Finset NodeId) : MembershipConfig → MembershipConfig
  | .uniform voters _ => .uniform voters learners
  | .joint old new _ => .joint old new learners

namespace Group

/-- A change of the voters of `config` to `voters`: from a uniform config a joint entry and then the
uniform one, from a joint config onto one of its sides one entry, and onto others through a joint
config of the newer side. Voters that are no members are refused. -/
def changeVoters (group : Group) (logId : MembershipLogId) (config : MembershipConfig)
    (voters : VoterSet) : Group :=
  let learners := config.learners.filter fun node => node ∉ voters
  let uniform := MembershipConfig.uniform voters learners
  if ¬ voters.nodes ⊆ config.members then group
  else
    match config with
    | .uniform current _ =>
      if current = voters then group
      else group.commit logId (.joint current voters learners) (some uniform)
    | .joint old new _ =>
      if old = voters ∨ new = voters then group.commit logId uniform none
      else group.commit logId (.joint new voters learners) (some uniform)

/-- Executes a step as a live leader would: a membership change takes effect only when the
membership it names is the last committed one. Its entry has the id `logId`. -/
def execute (group : Group) (logId : MembershipLogId) (step : MembershipStep) : Group :=
  match group.config? with
  | none => group
  | some (current, config) =>
    match step with
    | .addLearners expected nodes =>
      if expected = current then
        group.commit logId (config.withLearners (config.learners ∪ nodes)) none
      else group
    | .removeLearners expected nodes =>
      if expected = current then
        group.commit logId (config.withLearners (config.learners \ nodes)) none
      else group
    | .changeVoters expected voters =>
      if expected = current then group.changeVoters logId config voters else group
    | .transferLeadership _ | .confirmView | .converged _ | .wait _ => group

/-- A step changes nothing, or names the last committed membership and changes its learners or its
voters. -/
theorem execute_cases (group : Group) (logId : MembershipLogId) (step : MembershipStep) :
    group.execute logId step = group ∨
      ∃ current last rest, group.committed = (current, last) :: rest ∧
        ((∃ nodes learners,
            (step = .addLearners current nodes ∨ step = .removeLearners current nodes) ∧
            group.execute logId step = group.commit logId (last.withLearners learners) none) ∨
          ∃ voters, step = .changeVoters current voters ∧
            group.execute logId step = group.changeVoters logId last voters) := by
  unfold execute config?
  cases hlast : group.committed with
  | nil => exact .inl rfl
  | cons entry rest =>
    obtain ⟨current, last⟩ := entry
    rw [head?_cons]
    cases step with
    | addLearners expected nodes =>
      dsimp only
      split_ifs with hcurrent
      · subst hcurrent
        exact .inr ⟨expected, last, rest, rfl, .inl ⟨nodes, _, .inl rfl, rfl⟩⟩
      · exact .inl rfl
    | removeLearners expected nodes =>
      dsimp only
      split_ifs with hcurrent
      · subst hcurrent
        exact .inr ⟨expected, last, rest, rfl, .inl ⟨nodes, _, .inr rfl, rfl⟩⟩
      · exact .inl rfl
    | changeVoters expected voters =>
      dsimp only
      split_ifs with hcurrent
      · subst hcurrent
        exact .inr ⟨expected, last, rest, rfl, .inr ⟨voters, rfl, rfl⟩⟩
      · exact .inl rfl
    | transferLeadership | confirmView | converged | wait => exact .inl rfl

end Group

/-- What happens to a group: a replica plans and executes a step whose entry has the id `logId`, the
second entry of a change of voters commits, or it is lost. -/
inductive GroupEvent
  | plan (view : MembershipView) (target : MembershipTarget) (logId : MembershipLogId)
  | finish (logId : MembershipLogId)
  | lose

/-- A group of `n` voters. A replica plans from a membership that was committed at some time, toward
a target of `n` voters; everything else that it believes is arbitrary. Entries have increasing
ids. -/
def groupSystem (n : ℕ) : ActionSystem Group GroupEvent where
  Enabled group
    | .plan view target logId =>
      target.voters.len = n ∧ (∀ entry ∈ group.committed, entry.1 < logId) ∧
        ∀ leader expected config, view.leadership = .leading leader →
          leader.membership = .committed expected config → (expected, config) ∈ group.committed
    | .finish logId => group.second.isSome ∧ ∀ entry ∈ group.committed, entry.1 < logId
    | .lose => True
  act group
    | .plan view target logId => group.execute logId (planMembershipStep view target)
    | .finish logId =>
      match group.second with
      | none => group
      | some config => group.commit logId config none
    | .lose => { group with second := none }

/-! ## What follows a committed membership -/

/-- The membership that may be committed after another: other learners, a joint config that swaps
one voter, or one side of a joint config. -/
inductive Follows : MembershipConfig → MembershipConfig → Prop
  | learners (voters : VoterSet) (before after : Finset NodeId) :
    Follows (.uniform voters before) (.uniform voters after)
  | swap {old new : VoterSet} (before after : Finset NodeId) (h : Swapped old.nodes new.nodes) :
    Follows (.uniform old before) (.joint old new after)
  | exit {old new voters : VoterSet} (before after : Finset NodeId)
      (h : voters = old ∨ voters = new) :
    Follows (.joint old new before) (.uniform voters after)

/-- What a run keeps: ids decrease from the last committed membership on, each membership follows
the one before, every side has `n` voters, and a second entry is the new side of the last joint
config. -/
structure Group.Followed (n : ℕ) (group : Group) : Prop where
  ids : group.committed.Pairwise fun newer older => older.1 < newer.1
  chain : group.committed.IsChain fun newer older => Follows older.2 newer.2
  sized : ∀ entry ∈ group.committed, ∀ voters ∈ entry.2.voterConfigs, voters.len = n
  second : ∀ config, group.second = some config → ∃ logId old new before after rest,
    group.committed = (logId, .joint old new before) :: rest ∧ config = .uniform new after

theorem followed_start (logId : MembershipLogId) (voters : VoterSet) (learners : Finset NodeId) :
    (Group.start logId voters learners).Followed voters.len where
  ids := pairwise_singleton _ _
  chain := List.IsChain.singleton _
  sized entry hentry side hside := by
    rw [mem_singleton.mp hentry] at hside
    rw [mem_singleton.mp hside]
  second config h := by cases h

namespace Group.Followed

variable {n : ℕ} {group : Group} {rest : List (MembershipLogId × MembershipConfig)}
  {current logId : MembershipLogId}

/-- Committing a membership that follows the last one keeps all of it. -/
theorem commit (h : group.Followed n) {config last : MembershipConfig}
    {second : Option MembershipConfig} (hlast : group.committed = (current, last) :: rest)
    (hid : ∀ entry ∈ group.committed, entry.1 < logId) (hfollows : Follows last config)
    (hsized : ∀ voters ∈ config.voterConfigs, voters.len = n)
    (hsecond : ∀ next, second = some next → ∃ old new before after,
      config = .joint old new before ∧ next = .uniform new after) :
    (group.commit logId config second).Followed n where
  ids := pairwise_cons.mpr ⟨hid, h.ids⟩
  chain := by
    show ((logId, config) :: group.committed).IsChain _
    have hchain := h.chain
    rw [hlast] at hchain ⊢
    exact isChain_cons_cons.mpr ⟨hfollows, hchain⟩
  sized entry hentry := by
    obtain rfl | hentry := mem_cons.mp hentry
    · exact hsized
    · exact h.sized entry hentry
  second next hnext := by
    obtain ⟨old, new, before, after, rfl, rfl⟩ := hsecond next hnext
    exact ⟨logId, old, new, before, after, group.committed, rfl, rfl⟩

theorem eq_of_id (h : group.Followed n) {config last : MembershipConfig}
    (hlast : group.committed = (current, last) :: rest)
    (hmem : (current, config) ∈ group.committed) : config = last := by
  have hids := h.ids
  rw [hlast] at hids hmem
  obtain hsame | hrest := mem_cons.mp hmem
  · exact congrArg Prod.snd hsame
  · exact absurd ((pairwise_cons.mp hids).1 _ hrest) (lt_irrefl _)

/-- A step that takes effect was planned from the last committed membership. -/
theorem eq_of_plans (h : group.Followed n) {config last : MembershipConfig}
    {view : MembershipView} {leader : LeaderView}
    (hlast : group.committed = (current, last) :: rest)
    (hknown : ∀ leader expected config, view.leadership = .leading leader →
      leader.membership = .committed expected config → (expected, config) ∈ group.committed)
    (hplans : Plans view leader current config) : config = last :=
  h.eq_of_id hlast (hknown leader current config hplans.leading hplans.committed)

/-- Other learners of a uniform config keep all of it. -/
theorem commit_learners (h : group.Followed n) {before : Finset NodeId}
    (hlast : group.committed = (current, .uniform voters before) :: rest)
    (hid : ∀ entry ∈ group.committed, entry.1 < logId) (after : Finset NodeId) :
    (group.commit logId (.uniform voters after) none).Followed n := by
  refine h.commit hlast hid (.learners voters before after) ?_ (by simp)
  exact h.sized (current, .uniform voters before) (by simp [hlast])

/-- A change of voters that the planner proposes keeps all of it. -/
theorem changeVoters (h : group.Followed n) {last : MembershipConfig} {me : NodeId}
    {view : ViewFreshness} {target : MembershipTarget}
    (hlast : group.committed = (current, last) :: rest)
    (hid : ∀ entry ∈ group.committed, entry.1 < logId) (htarget : target.voters.len = n)
    (hproposal : Proposal me view target last voters) :
    (group.changeVoters logId last voters).Followed n := by
  have hsides := h.sized (current, last) (by simp [hlast])
  unfold Group.changeVoters
  by_cases hmembers : voters.nodes ⊆ last.members
  · rw [if_neg (not_not.mpr hmembers)]
    cases hproposal with
    | @exit old new _ learners hside hme =>
      dsimp only
      rw [if_pos (hside.imp Eq.symm Eq.symm)]
      refine h.commit hlast hid (.exit _ _ hside) (fun side hmem => ?_) (by simp)
      rw [mem_singleton.mp hmem]
      rcases hside with rfl | rfl
      · exact hsides _ (by simp [voterConfigs])
      · exact hsides _ (by simp [voterConfigs])
    | @swap own _ learners since hstage hview hswapped hme =>
      dsimp only
      split_ifs with hsame
      · exact h
      have hown : own.len = n := hsides own (by simp [voterConfigs])
      have hswap := hswapped (hown.trans htarget.symm)
      refine h.commit hlast hid (.swap _ _ hswap) (fun side hmem => ?_)
        fun next hnext => ⟨_, _, _, _, rfl, (Option.some_inj.mp hnext).symm⟩
      rcases mem_pair.mp hmem with rfl | rfl
      · exact hown
      · exact hswap.card_eq.trans hown
  · rw [if_pos hmembers]
    exact h

/-- **Step.** Every event keeps it. -/
theorem act (h : group.Followed n) {event : GroupEvent}
    (henabled : (groupSystem n).Enabled group event) :
    ((groupSystem n).act group event).Followed n := by
  cases event with
  | lose => exact ⟨h.ids, h.chain, h.sized, fun config hconfig => by cases hconfig⟩
  | finish logId =>
    obtain ⟨hsome, hid⟩ := henabled
    obtain ⟨config, hconfig⟩ := Option.isSome_iff_exists.mp hsome
    obtain ⟨current, old, new, before, after, rest, hlast, rfl⟩ := h.second config hconfig
    have hsides := h.sized (current, .joint old new before) (by simp [hlast])
    simp only [groupSystem, hconfig]
    refine h.commit hlast hid (.exit before after (.inr rfl)) (fun side hmem => ?_) (by simp)
    rw [mem_singleton.mp hmem]
    exact hsides new (by simp [voterConfigs])
  | plan view target logId =>
    obtain ⟨htarget, hid, hknown⟩ := henabled
    show (group.execute logId (planMembershipStep view target)).Followed n
    obtain hsame | ⟨current, last, rest, hlast, hnames⟩ := group.execute_cases logId
      (planMembershipStep view target)
    · rwa [hsame]
    obtain ⟨nodes, after, hstep, hexecute⟩ | ⟨voters, hstep, hexecute⟩ := hnames
    · obtain ⟨leader, voters, learners, hplans⟩ := learners_of_plan hstep
      obtain rfl := h.eq_of_plans hlast hknown hplans
      rw [hexecute]
      exact h.commit_learners hlast hid after
    · obtain ⟨leader, config, hplans, hproposal⟩ := changeVoters_of_plan hstep
      obtain rfl := h.eq_of_plans hlast hknown hplans
      rw [hexecute]
      exact h.changeVoters hlast hid htarget hproposal

end Group.Followed

/-- **Runs.** In every run each committed membership follows the one before, with `n` voters on
every side. -/
theorem followed_trace {learners : Finset NodeId} {events : List GroupEvent} {group : Group}
    (h : (groupSystem voters.len).Trace (.start logId voters learners) events group) :
    group.Followed voters.len :=
  h.invariant (fun _ _ henabled hfollowed => hfollowed.act henabled)
    (followed_start logId voters learners)

/-- Consecutive uniform configs of a chain have the same voters, or one joint config of both stands
between them. -/
theorem between_uniform {newer mid older : List MembershipConfig} {before after : VoterSet}
    {beforeLearners afterLearners : Finset NodeId}
    (h : (newer ++ .uniform after afterLearners ::
      (mid ++ .uniform before beforeLearners :: older)).IsChain fun next last => Follows last next)
    (hmid : ∀ config ∈ mid, ∃ old new learners, config = .joint old new learners)
    (hne : before ≠ after) :
    Swapped before.nodes after.nodes ∧ ∃ learners, mid = [.joint before after learners] := by
  have hchain := h.right_of_append
  match mid, hmid with
  | [], _ =>
    cases (isChain_cons_cons.mp hchain).1
    exact absurd rfl hne
  | [config], hmid =>
    obtain ⟨old, new, learners, rfl⟩ := hmid config (by simp)
    obtain ⟨hexit, hchain⟩ := isChain_cons_cons.mp hchain
    cases (isChain_cons_cons.mp hchain).1 with
    | swap _ _ hswapped =>
      cases hexit with
      | exit _ _ hside =>
        rcases hside with rfl | rfl
        · exact absurd rfl hne
        · exact ⟨hswapped, learners, rfl⟩
  | first :: second :: rest, hmid =>
    -- no joint config follows a joint config
    obtain ⟨old, new, learners, rfl⟩ := hmid first (by simp)
    obtain ⟨old', new', learners', rfl⟩ := hmid second (by simp)
    obtain ⟨-, hchain⟩ := isChain_cons_cons.mp hchain
    cases (isChain_cons_cons.mp hchain).1

/-- **Reconciliation is safe under stale knowledge.** In every run of a group that starts from a
uniform config: every committed config has as many voters on every side; uniform voter sets that
follow each other and differ do so by one swapped voter, with the joint config of both between them,
and for an even number of voters their majorities meet. A step is proposed only by a voter of a
committed config, which is the last one when the step takes effect; but for the replacement of a
single voter the proposer stays in the voters it proposes; and from a uniform config voters change
only under a moving target and a confirmed view. -/
theorem reconciliation_under_stale_knowledge (logId : MembershipLogId) (voters : VoterSet)
    (learners : Finset NodeId) (events : List GroupEvent) (group : Group)
    (htrace : (groupSystem voters.len).Trace (.start logId voters learners) events group) :
    (∀ entry ∈ group.committed, ∀ side ∈ entry.2.voterConfigs, side.len = voters.len) ∧
    (∀ newer mid older before after beforeLearners afterLearners,
      group.committed.map Prod.snd = newer ++ .uniform after afterLearners ::
        (mid ++ .uniform before beforeLearners :: older) →
      (∀ config ∈ mid, ∃ old new learners, config = .joint old new learners) → before ≠ after →
      Swapped before.nodes after.nodes ∧ (∃ learners, mid = [.joint before after learners]) ∧
      (Even voters.len → ∀ left right, IsMajority before.nodes left →
        IsMajority after.nodes right → (left ∩ right).Nonempty)) ∧
    ∀ view target id, (groupSystem voters.len).Enabled group (.plan view target id) →
      (∃ reason, planMembershipStep view target = .wait reason) ∨
      ∃ leader expected config, Plans view leader expected config ∧
        (expected, config) ∈ group.committed ∧
        (group.execute id (planMembershipStep view target) ≠ group →
          group.config? = some (expected, config)) ∧
        ∀ expected' proposed, planMembershipStep view target = .changeVoters expected' proposed →
          (view.me ∈ proposed ∨ voters.len = 1) ∧
          ∀ current learners, config = .uniform current learners →
            (∃ since, target.stage = .moving since) ∧ leader.view = .confirmed := by
  have hfollowed := followed_trace htrace
  refine ⟨hfollowed.sized, ?_, ?_⟩
  · intro newer mid older before after beforeLearners afterLearners hconfigs hmid hne
    have hchain : (group.committed.map Prod.snd).IsChain fun next last => Follows last next :=
      (isChain_map _).mpr hfollowed.chain
    rw [hconfigs] at hchain
    obtain ⟨hswapped, hjoint⟩ := between_uniform hchain hmid hne
    refine ⟨hswapped, hjoint, fun heven left right => hswapped.inter_nonempty ?_⟩
    have hmem : uniform before beforeLearners ∈ group.committed.map Prod.snd := by
      simp [hconfigs]
    obtain ⟨entry, hentry, hconfig⟩ := mem_map.mp hmem
    have hlen := hfollowed.sized entry hentry before (by simp [hconfig, voterConfigs])
    show Even before.len
    rwa [hlen]
  · intro view target id henabled
    obtain hwait | ⟨leader, expected, config, hplans, hstep⟩ := plans_of_step view target
    · exact .inl hwait
    have hmem := henabled.2.2 leader expected config hplans.leading hplans.committed
    refine .inr ⟨leader, expected, config, hplans, hmem, fun heffect => ?_, ?_⟩
    · obtain hsame | ⟨current, last, rest, hlast, hnames⟩ := group.execute_cases id
        (planMembershipStep view target)
      · exact absurd hsame heffect
      have hcurrent : current = expected := by
        obtain ⟨nodes, learners, hstep, -⟩ | ⟨voters, hstep, -⟩ := hnames
        · obtain ⟨_, _, _, hplans'⟩ := learners_of_plan hstep
          exact (hplans.unique hplans').2.1
        · obtain ⟨_, _, hplans', -⟩ := changeVoters_of_plan hstep
          exact (hplans.unique hplans').2.1
      subst hcurrent
      rw [Group.config?, hlast, hfollowed.eq_of_id hlast hmem, head?_cons]
    · intro expected' proposed hchange
      obtain ⟨leader', config', hplans', hproposal⟩ := changeVoters_of_plan hchange
      obtain ⟨rfl, rfl, rfl⟩ := hplans.unique hplans'
      cases hproposal with
      | exit learners hside hme => exact ⟨.inl hme, fun _ _ huniform => by cases huniform⟩
      | @swap own _ learners since hstage hview hswapped hme =>
        refine ⟨hme.imp_right fun hone => ?_, fun _ _ _ => ⟨⟨since, hstage⟩, hview⟩⟩
        rw [← hfollowed.sized _ hmem own (by simp [voterConfigs]), hone]

/-! ### A swap of one of three voters -/

/-- Three voters. -/
def sampleVoters : VoterSet := ⟨{1, 2, 3}, by decide⟩

/-- The same with the third one swapped. -/
def sampleSwapped : VoterSet := ⟨{4, 1, 2}, by decide⟩

/-- Node 1 leads the three voters and moves to the swapped ones, with node 4 caught up. -/
def sampleView : MembershipView where
  me := 1
  leadership := .leading {
    membership := .committed ⟨1, 1, 0⟩ (.uniform sampleVoters {4})
    committedIndex := 0
    matched := ∅
    caughtUp := {4}
    live := {1, 2, 3, 4}
    handoffReady := ∅
    gates := (∅ : OrdMap NodeId PeerGate).insert 4 .open
    unlisted := ∅
    view := .confirmed }

/-- The events of the move: the planned swap, and its second entry. -/
def sampleSwap : List GroupEvent :=
  [.plan sampleView ⟨sampleSwapped, ∅, .moving ⟨1, 1, 7⟩⟩ ⟨1, 1, 1⟩, .finish ⟨1, 1, 2⟩]

/-- The group after the move. -/
def sampleGroup : Group where
  committed := [(⟨1, 1, 2⟩, .uniform sampleSwapped ∅),
    (⟨1, 1, 1⟩, .joint sampleVoters sampleSwapped ∅), (⟨1, 1, 0⟩, .uniform sampleVoters {4})]
  second := none

theorem sampleSwap_trace :
    (groupSystem 3).Trace (.start ⟨1, 1, 0⟩ sampleVoters {4}) sampleSwap sampleGroup := by
  refine .cons ⟨rfl, by decide, ?_⟩ (.cons ⟨by decide, by decide⟩ ?_)
  · rintro leader expected config hleading hcommitted
    cases hleading
    cases hcommitted
    exact mem_singleton.mpr rfl
  · exact .nil _

/-- One swapped voter among three leaves majorities that do not meet. -/
theorem swapped_majorities_can_miss :
    (groupSystem 3).Trace (.start ⟨1, 1, 0⟩ sampleVoters {4}) sampleSwap sampleGroup ∧
      sampleGroup.committed.map Prod.snd =
        [.uniform sampleSwapped ∅, .joint sampleVoters sampleSwapped ∅, .uniform sampleVoters {4}] ∧
      IsMajority sampleVoters.nodes {1, 3} ∧ IsMajority sampleSwapped.nodes {2, 4} ∧
      ({1, 3} ∩ {2, 4} : Finset NodeId) = ∅ :=
  ⟨sampleSwap_trace, rfl, by decide, by decide, by decide⟩

theorem sampleSwap_swaps_one :
    (groupSystem 3).Trace (.start ⟨1, 1, 0⟩ sampleVoters {4}) sampleSwap sampleGroup ∧
      Swapped sampleVoters.nodes sampleSwapped.nodes := by
  refine ⟨sampleSwap_trace, ?_⟩
  have hswaps :=
    (reconciliation_under_stale_knowledge _ sampleVoters _ _ _ sampleSwap_trace).2.1
  refine (hswaps [] [.joint sampleVoters sampleSwapped ∅] [] sampleVoters sampleSwapped {4} ∅ rfl
    (fun config hconfig => ⟨_, _, _, mem_singleton.mp hconfig⟩) (by decide)).1

end Ursula.Control

import Ursula.Control.Membership

/-!
# Reconciliation converges

A group reconciles toward a moving target while every voter of its config and of the target is up,
the target's learners are caught up behind open gates, and no change of voters loses its second
entry. Whoever leads between two steps, the planner never waits: each round takes a step that brings
the pair of the config and its leader closer to the target, until the planner reports it converged.

A joint config comes first: it leaves onto the side `exitSide` names, which may be the one that
shares less with the target, so the measure puts every joint config above every uniform one. A
uniform config then loses a voter to replace with every swap. What may stand before a swap is that
the learners are still to be added, and that the leader is the only voter to drop.

## Main definitions

* `Fair`: what a leader knows in a fair run
* `Led`, `Led.Round`: a group with its leader, and one round of a fair run
* `remaining`: the measure of a config and its leader

## Main results

* `plan_advances`: what the planner proposes in a fair run
* `Advance.decreases`: every such step but the report decreases the measure
* `reconciliation_converges`: no round waits, and every run of rounds converges
-/

namespace Ursula.Control

open Finset MembershipConfig NonEmptyNodeSet

/-! ## Fair runs -/

/-- What the leader `me` of `config` knows in a fair run toward `target`. -/
structure Fair (target : MembershipTarget) (config : MembershipConfig) (me : NodeId)
    (leader : LeaderView) : Prop where
  live : ∀ node, config.isVoter node ∨ node ∈ target.voters → node ≠ me → node ∈ leader.live
  listed : ∀ node ∈ target.voters, node ∉ leader.unlisted
  caughtUp : ∀ node ∈ target.voters, node ∈ config.learners → node ∈ leader.caughtUp
  gates : ∀ node ∈ target.voters, node ∈ config.learners → leader.gates.get? node = some .open
  handoffReady : ∀ node, config.isVoter node → node ≠ me → node ∈ leader.handoffReady
  confirmed : leader.view = .confirmed

/-- The group after the second entry of a change of voters commits, if one is to come. -/
def Group.settle (group : Group) (logId : MembershipLogId) : Group :=
  match group.second with
  | none => group
  | some config => group.commit logId config none

/-- A group and the replica that leads it. -/
structure Led where
  group : Group
  leader : NodeId

namespace Led

/-- The last committed config has `n` voters on every side, one of which leads, and no second entry
is to come. -/
structure Sized (n : ℕ) (led : Led) : Prop where
  last : ∃ id config, led.group.config? = some (id, config) ∧
    (∀ voters ∈ config.voterConfigs, voters.len = n) ∧ config.isVoter led.leader
  settled : led.group.second = none

/-- One round toward `target`: the leader plans and executes `step`, a change of voters commits both
of its entries, and then the target of a transfer leads or any voter of the config. -/
inductive Round (target : MembershipTarget) (before : Led) (step : MembershipStep) (after : Led) :
    Prop
  | mk {id : MembershipLogId} {config : MembershipConfig} {leader : LeaderView}
      (last : before.group.config? = some (id, config))
      (knows : leader.membership = .committed id config)
      (fair : Fair target config before.leader leader)
      (planned : step = planMembershipStep ⟨before.leader, .leading leader⟩ target)
      (first second : MembershipLogId)
      (executed : after.group = (before.group.execute first step).settle second)
      (leads : match step with
        | .transferLeadership toNode => after.leader = toNode
        | _ => ∀ id config, after.group.config? = some (id, config) → config.isVoter after.leader)

end Led

/-! ## The measure -/

/-- The side a joint config leaves onto when all its voters are live. -/
def exitSide (old new target : VoterSet) : VoterSet :=
  (jointExit old new (old.nodes ∪ new.nodes) target).getD new

/-- How far a config and its leader are from a target's voters. -/
def remaining (target : VoterSet) (config : MembershipConfig) (leader : NodeId) : ℕ :=
  match config with
  | .joint old new _ =>
    8 * target.len + 8 + if leader ∈ exitSide old new target then 0 else 1
  | .uniform voters learners =>
    8 * (target.nodes \ voters.nodes).card +
      ((if target.nodes ⊆ voters.nodes ∪ learners then 0 else 4) +
        ((if voters.nodes \ target.nodes = {leader} then 2 else 0) +
          if learners = ∅ then 0 else 1))

/-- The same of a led group. -/
def Led.remaining (target : VoterSet) (led : Led) : ℕ :=
  match led.group.config? with
  | none => 0
  | some (_, config) => Control.remaining target config led.leader

theorem liveCount_eq_len {voters : VoterSet} {live : Finset NodeId} (h : voters.nodes ⊆ live) :
    liveCount voters live = voters.len := by
  rw [liveCount, filter_true_of_mem fun node hnode => h hnode, len]

theorem jointExit_of_live {old new target : VoterSet} {live : Finset NodeId}
    (hold : old.nodes ⊆ live) (hnew : new.nodes ⊆ live) :
    jointExit old new live target = some (exitSide old new target) := by
  have hmajority : ∀ {voters : VoterSet} {up : Finset NodeId}, voters.nodes ⊆ up →
      hasLiveMajority voters up = true := fun {voters up} hup => by
    have hpos : 0 < voters.len := card_pos.mpr voters.nonempty
    rw [hasLiveMajority, liveCount_eq_len hup, decide_eq_true_eq]
    omega
  have hinner : ∀ {up : Finset NodeId}, old.nodes ⊆ up → new.nodes ⊆ up →
      jointExit old new up target = jointExit old new live target := fun {up} ho hn => by
    simp only [jointExit, hmajority ho, hmajority hn, hmajority hold, hmajority hnew,
      liveCount_eq_len ho, liveCount_eq_len hn, liveCount_eq_len hold, liveCount_eq_len hnew]
  obtain ⟨exit, hexit⟩ : ∃ exit, jointExit old new live target = some exit := by
    simp only [jointExit, hmajority hold, hmajority hnew]
    split_ifs <;> exact ⟨_, rfl⟩
  rw [exitSide, hinner subset_union_left subset_union_right, hexit, Option.getD_some]

/-! ## What the planner proposes -/

/-- The steps of a fair run, from each config. -/
inductive Advance (target : MembershipTarget) (id : MembershipLogId) (me : NodeId) :
    MembershipConfig → MembershipStep → Prop
  | exit {old new : VoterSet} (learners : Finset NodeId)
      (hme : me ∈ exitSide old new target.voters) :
    Advance target id me (.joint old new learners)
      (.changeVoters id (exitSide old new target.voters))
  | leave {old new : VoterSet} {toNode : NodeId} (learners : Finset NodeId)
      (hme : me ∉ exitSide old new target.voters)
      (hto : toNode ∈ exitSide old new target.voters) :
    Advance target id me (.joint old new learners) (.transferLeadership toNode)
  | converged : Advance target id me (.uniform target.voters ∅) (.converged target.voters)
  | prune {learners : Finset NodeId} (h : learners ≠ ∅) :
    Advance target id me (.uniform target.voters learners) (.removeLearners id learners)
  | recruit {voters : VoterSet} {learners missing : Finset NodeId}
      (h : ¬ target.voters.nodes ⊆ voters.nodes ∪ learners)
      (hmissing : missing = target.voters.nodes \ (voters.nodes ∪ learners)) :
    Advance target id me (.uniform voters learners) (.addLearners id missing)
  | swap {voters next : VoterSet} {learners : Finset NodeId} {x y : NodeId}
      (h : target.voters.nodes ⊆ voters.nodes ∪ learners) (hx : x ∈ voters)
      (hout : x ∉ target.voters) (hy : y ∈ target.voters) (hin : y ∉ voters)
      (hnext : next.nodes = insert y (voters.nodes.erase x)) :
    Advance target id me (.uniform voters learners) (.changeVoters id next)
  | handoff {voters : VoterSet} {toNode : NodeId} (learners : Finset NodeId)
      (h : voters.nodes \ target.voters.nodes = {me}) (hto : toNode ∈ voters) (hne : toNode ≠ me) :
    Advance target id me (.uniform voters learners) (.transferLeadership toNode)

theorem LeaderView.exists_handoffTarget {leader : LeaderView} {me node : NodeId}
    (nodes : List NodeId) (hnode : node ∈ nodes) (hne : node ≠ me)
    (hready : node ∈ leader.handoffReady) :
    ∃ toNode ∈ nodes, toNode ≠ me ∧ leader.handoffTarget me nodes = some toNode := by
  have hsome : (leader.handoffTarget me nodes).isSome := by
    rw [handoffTarget, List.find?_isSome]
    exact ⟨node, List.mem_filter.mpr ⟨hnode, by simpa using hne⟩, by simpa using hready⟩
  obtain ⟨toNode, hto⟩ := Option.isSome_iff_exists.mp hsome
  obtain ⟨hmem, hother⟩ := List.mem_filter.mp (List.mem_of_find?_eq_some hto)
  exact ⟨toNode, hmem, by simpa using hother, hto⟩

theorem joint_advances {target : MembershipTarget} {id : MembershipLogId} {me : NodeId}
    {old new : VoterSet} {learners : Finset NodeId} {leader : LeaderView}
    (hfair : Fair target (.joint old new learners) me leader) :
    Advance target id me (.joint old new learners)
      (planJointExit me id old new (insert me leader.live) leader target) := by
  have hvoter : ∀ node, node ∈ old ∨ node ∈ new →
      isVoter (.joint old new learners) node := fun node hnode => by
    simpa [isVoter, voterConfigs] using hnode
  have hlive : ∀ node, node ∈ old ∨ node ∈ new → node ∈ insert me leader.live :=
    fun node hnode => by
    by_cases hme : node = me
    · exact hme ▸ mem_insert_self ..
    · exact mem_insert_of_mem (hfair.live node (.inl (hvoter node hnode)) hme)
  have hexit : jointExit old new (insert me leader.live) target.voters =
      some (exitSide old new target.voters) :=
    jointExit_of_live (fun node h => hlive node (.inl h)) (fun node h => hlive node (.inr h))
  have hside := jointExit_eq_some hexit
  rw [planJointExit, hexit]
  dsimp only
  generalize hexits : exitSide old new target.voters = exit at hside
  by_cases hme : me ∈ exit
  · rw [if_pos hme]
    subst hexits
    exact .exit learners hme
  · rw [if_neg hme]
    obtain ⟨node, hnode⟩ := exit.nonempty
    have hne : node ≠ me := fun h => hme (h ▸ hnode)
    have hready : node ∈ leader.handoffReady := by
      refine hfair.handoffReady node (hvoter node ?_) hne
      rcases hside with h | h
      · exact .inl (h ▸ hnode)
      · exact .inr (h ▸ hnode)
    obtain ⟨toNode, hto, -, htarget⟩ :=
      LeaderView.exists_handoffTarget exit.iter (by simpa using hnode) hne hready
    rw [htarget]
    subst hexits
    exact .leave learners hme (by simpa using hto)

namespace Current

variable {current : Current} {leader : LeaderView} {target : MembershipTarget}

/-- A target's voter that is none yet is promoted when all those learners are ready. -/
theorem exists_promoted (hne : target.voters ≠ current.voters)
    (hlen : current.voters.len = target.voters.len)
    (hmissing : target.voters.nodes ⊆ current.voters.nodes ∪ current.learners)
    (hfair : Fair target (.uniform current.voters current.learners) current.me leader) :
    ∃ y ∈ target.voters, y ∉ current.voters ∧ current.promoted leader target = some y := by
  have hsub : ¬ target.voters.nodes ⊆ current.voters.nodes := fun hsub =>
    hne (ext (eq_of_subset_of_card_le hsub hlen.le))
  obtain ⟨node, hnode, hnot⟩ := not_subset.mp hsub
  have hlearner : node ∈ current.learners :=
    (mem_union.mp (hmissing hnode)).resolve_left hnot
  have hsome : (current.promoted leader target).isSome := by
    rw [promoted, List.find?_isSome]
    refine ⟨node, mem_ascending.mpr (mem_filter.mpr ⟨hnode, hnot⟩), ?_⟩
    rw [decide_eq_true_eq]
    exact ⟨hfair.listed node hnode, hfair.caughtUp node hnode hlearner,
      hfair.gates node hnode hlearner⟩
  obtain ⟨y, hy⟩ := Option.isSome_iff_exists.mp hsome
  exact ⟨y, (promoted_eq_some hy).1, (promoted_eq_some hy).2, hy⟩

/-- Without a voter to drop other than the leader, the leader is the only one. -/
theorem dropped_of_demoted_eq_none (hne : current.voters ≠ target.voters)
    (hlen : current.voters.len = target.voters.len) (h : current.demoted target = none) :
    current.voters.nodes \ target.voters.nodes = {current.me} := by
  have hothers : ∀ node ∈ current.dropped target, node = current.me := fun node hnode => by
    by_contra hother
    have hmem : node ∈ (current.dropped target).ascending.filter fun node => node ≠ current.me :=
      List.mem_filter.mpr ⟨mem_ascending.mpr hnode, by simpa using hother⟩
    rw [demoted, Option.or_eq_none_iff, List.head?_eq_none_iff] at h
    rw [h.2] at hmem
    cases hmem
  have hsub : ¬ current.voters.nodes ⊆ target.voters.nodes := fun hsub =>
    hne (ext (eq_of_subset_of_card_le hsub hlen.ge))
  obtain ⟨node, hnode, hnot⟩ := not_subset.mp hsub
  refine eq_singleton_iff_nonempty_unique_mem.mpr
    ⟨⟨node, mem_sdiff.mpr ⟨hnode, hnot⟩⟩, fun other hother => ?_⟩
  exact hothers other (mem_filter.mpr (mem_sdiff.mp hother))

theorem planSwap_advances (hme : current.me ∈ current.voters)
    (hne : current.voters ≠ target.voters) (hlen : current.voters.len = target.voters.len)
    (hmissing : target.voters.nodes ⊆ current.voters.nodes ∪ current.learners)
    (hfair : Fair target (.uniform current.voters current.learners) current.me leader) :
    Advance target current.expected current.me (.uniform current.voters current.learners)
      (current.planSwap leader target) := by
  obtain ⟨y, hytarget, hyvoter, hy⟩ := exists_promoted hne.symm hlen hmissing hfair
  unfold planSwap
  by_cases hone : current.voters.len = 1 ∧ target.voters.len = 1
  · rw [if_pos hone, hy]
    obtain ⟨x, hx⟩ := card_eq_one.mp hone.1
    have hxvoter : x ∈ current.voters := by
      rw [← mem_nodes, hx]
      exact mem_singleton_self x
    obtain ⟨z, hz⟩ := card_eq_one.mp hone.2
    have hyz : target.voters.nodes = {y} := by
      rw [← mem_nodes, hz, mem_singleton] at hytarget
      rw [hz, hytarget]
    refine .swap hmissing hxvoter (fun hxtarget => hyvoter ?_) hytarget hyvoter ?_
    · rw [← mem_nodes, hyz, mem_singleton] at hxtarget
      exact hxtarget ▸ hxvoter
    · simp [single, hx]
  rw [if_neg hone]
  cases hx : current.demoted target with
  | none =>
    have hdropped := dropped_of_demoted_eq_none hne hlen hx
    -- the others stay, and there are some
    have hlarge : 1 < current.voters.nodes.card := by
      have hpos : 0 < current.voters.len := card_pos.mpr current.voters.nonempty
      change 1 < current.voters.len
      omega
    obtain ⟨node, hnode, hother⟩ := exists_mem_ne hlarge current.me
    have hstays : node ∈ target.voters := by
      by_contra hnot
      have hmem : node ∈ current.voters.nodes \ target.voters.nodes :=
        mem_sdiff.mpr ⟨hnode, hnot⟩
      rw [hdropped, mem_singleton] at hmem
      exact hother hmem
    have hready : node ∈ leader.handoffReady := by
      refine hfair.handoffReady node ?_ hother
      simpa [isVoter, voterConfigs] using hnode
    obtain ⟨toNode, hto, htome, htarget⟩ := LeaderView.exists_handoffTarget
      (current.voters.iter.filter fun node => node ∈ target.voters)
      (List.mem_filter.mpr ⟨by simpa using hnode, by simpa using hstays⟩) hother hready
    rw [if_pos ⟨by simp [hlen], rfl⟩, htarget]
    exact .handoff _ hdropped (by simpa using (List.mem_filter.mp hto).1) htome
  | some x =>
    obtain ⟨hxvoter, hxtarget, hxme⟩ := demoted_eq_some hx
    rw [if_neg (by simp), hy, if_neg (by simp)]
    refine .swap hmissing hxvoter hxtarget hytarget hyvoter ?_
    have hstays : current.me ∈ insert y (current.voters.nodes.erase x) :=
      mem_insert_of_mem (mem_erase.mpr ⟨hxme.symm, hme⟩)
    simp only [hlen, le_refl, decide_true, fromFirst]
    exact insert_eq_self.mpr hstays

theorem planUniform_advances (current : Current) {since : PlacementEpoch}
    (hstage : target.stage = .moving since) (hlearners : target.learners = ∅)
    (hme : current.me ∈ current.voters) (hlen : current.voters.len = target.voters.len)
    (hfair : Fair target (.uniform current.voters current.learners) current.me leader) :
    Advance target current.expected current.me (.uniform current.voters current.learners)
      (current.planUniform leader target) := by
  unfold planUniform
  by_cases hreached : current.voters = target.voters
  · rw [if_pos (by simp [hreached]), planReached, hlearners, sdiff_empty, hreached]
    by_cases hempty : current.learners = ∅
    · rw [hempty]
      simpa using Advance.converged
    · rw [if_pos hempty]
      exact .prune hempty
  · rw [if_neg (by simp [hreached, hstage]), if_neg (by simp [hstage])]
    have hmissing : (target.voters.nodes.filter fun node =>
        node ∉ current.voters ∧ node ∉ current.learners) =
        target.voters.nodes \ (current.voters.nodes ∪ current.learners) := by
      ext node
      simp
    rw [hmissing]
    by_cases hsub : target.voters.nodes ⊆ current.voters.nodes ∪ current.learners
    · rw [if_neg (by simpa using hsub), if_neg (by simp [hfair.confirmed])]
      exact planSwap_advances hme hreached hlen hsub hfair
    · rw [if_pos (by simpa using hsub)]
      exact .recruit hsub rfl

end Current

/-- In a fair run the planner's step is one of `Advance`. -/
theorem plan_advances {target : MembershipTarget} {since : PlacementEpoch}
    (hstage : target.stage = .moving since) (hlearners : target.learners = ∅)
    {config : MembershipConfig} {id : MembershipLogId} {me : NodeId} {leader : LeaderView}
    (hsides : ∀ voters ∈ config.voterConfigs, voters.len = target.voters.len)
    (hme : config.isVoter me) (hknows : leader.membership = .committed id config)
    (hfair : Fair target config me leader) :
    Advance target id me config (planMembershipStep ⟨me, .leading leader⟩ target) := by
  simp only [planMembershipStep, hknows, hme, Bool.not_true, Bool.false_eq_true, if_false]
  cases config with
  | joint old new learners => exact joint_advances hfair
  | uniform voters learners =>
    have hvoter : me ∈ voters := by
      simpa [isVoter, voterConfigs] using hme
    exact Current.planUniform_advances ⟨me, id, voters, learners, insert me leader.live⟩ hstage
      hlearners hvoter (hsides voters (List.mem_singleton_self voters)) hfair

/-! ## One round -/

/-- The last config after a step whose entries all commit. -/
def MembershipConfig.after (config : MembershipConfig) : MembershipStep → MembershipConfig
  | .addLearners _ nodes => config.withLearners (config.learners ∪ nodes)
  | .removeLearners _ nodes => config.withLearners (config.learners \ nodes)
  | .changeVoters _ voters => .uniform voters (config.learners.filter fun node => node ∉ voters)
  | .transferLeadership _ | .confirmView | .converged _ | .wait _ => config

theorem exitSide_eq (old new target : VoterSet) :
    exitSide old new target = old ∨ exitSide old new target = new :=
  jointExit_eq_some (jointExit_of_live subset_union_left subset_union_right)

namespace Advance

variable {target : MembershipTarget} {id : MembershipLogId} {me : NodeId}
  {config : MembershipConfig} {step : MembershipStep}

/-- Executing a step, with both entries of a change of voters, leaves the config `after` says. -/
theorem settle_execute (h : Advance target id me config step) {group : Group}
    (hlast : group.config? = some (id, config)) (hsecond : group.second = none)
    (first second : MembershipLogId) :
    ∃ id', ((group.execute first step).settle second).config? = some (id', config.after step) ∧
      ((group.execute first step).settle second).second = none := by
  cases h with
  | @exit old new learners hme =>
    have hsub : (exitSide old new target.voters).nodes ⊆ (joint old new learners).members := by
      rcases exitSide_eq old new target.voters with h | h <;> rw [h]
      · exact subset_union_left.trans subset_union_left
      · exact subset_union_right.trans subset_union_left
    have hside : old = exitSide old new target.voters ∨ new = exitSide old new target.voters :=
      (exitSide_eq old new target.voters).imp Eq.symm Eq.symm
    refine ⟨first, ?_⟩
    simp only [Group.execute, hlast, if_true, Group.changeVoters, hsub, not_true, if_false, hside]
    exact ⟨rfl, rfl⟩
  | @swap voters next learners x y hmissing hx hout hy hin hnext =>
    have hsub : next.nodes ⊆ (uniform voters learners).members := by
      rw [hnext, members]
      refine insert_subset (hmissing hy) ?_
      exact (erase_subset _ _).trans subset_union_left
    have hne : voters ≠ next := fun h => hin (by
      rw [h, ← mem_nodes, hnext]
      exact mem_insert_self ..)
    refine ⟨second, ?_⟩
    simp only [Group.execute, hlast, if_true, Group.changeVoters, hsub, not_true, if_false, hne]
    exact ⟨rfl, rfl⟩
  | prune hlearners | recruit hsub hmissing =>
    refine ⟨first, ?_⟩
    simp only [Group.execute, hlast, if_true]
    exact ⟨rfl, rfl⟩
  | leave learners hme hto | converged | handoff learners hdropped hto hne =>
    refine ⟨id, ?_⟩
    simp only [Group.execute, hlast, Group.settle, hsecond]
    exact ⟨rfl, trivial⟩

theorem card_swapped {voters next : VoterSet} {x y : NodeId} (hx : x ∈ voters) (hin : y ∉ voters)
    (hnext : next.nodes = insert y (voters.nodes.erase x)) : next.len = voters.len := by
  have hnew : y ∉ voters.nodes.erase x := fun h => hin (mem_of_mem_erase h)
  rw [len, hnext, card_insert_of_notMem hnew, card_erase_add_one hx, len]

/-- The config after a step has as many voters on every side. -/
theorem sides_after (h : Advance target id me config step) {n : ℕ}
    (hsides : ∀ voters ∈ config.voterConfigs, voters.len = n) :
    ∀ voters ∈ (config.after step).voterConfigs, voters.len = n := by
  cases h with
  | @exit old new learners hme =>
    intro voters hvoters
    rw [List.mem_singleton.mp hvoters]
    rcases exitSide_eq old new target.voters with h | h <;> rw [h] <;>
      exact hsides _ (by simp [voterConfigs])
  | swap hmissing hx hout hy hin hnext =>
    intro voters hvoters
    rw [List.mem_singleton.mp hvoters, card_swapped hx hin hnext]
    exact hsides _ (List.mem_singleton_self _)
  | prune hlearners | recruit hsub hmissing => exact hsides
  | leave learners hme hto | converged | handoff learners hdropped hto hne => exact hsides

theorem remaining_uniform_lt (target voters : VoterSet) (learners : Finset NodeId) (me : NodeId) :
    remaining target (.uniform voters learners) me < 8 * target.len + 8 := by
  have hcard : (target.nodes \ voters.nodes).card ≤ target.len :=
    card_le_card sdiff_subset
  rw [remaining]
  split_ifs <;> omega

/-- Every step but the report brings the config, with whoever leads it then, closer to the
target. -/
theorem decreases (h : Advance target id me config step) {leader : NodeId}
    (hleads : ∀ toNode, step = .transferLeadership toNode → leader = toNode) :
    step = .converged target.voters ∧ config = .uniform target.voters ∅ ∨
      (∀ voters, step ≠ .converged voters) ∧
        remaining target.voters (config.after step) leader <
          remaining target.voters config me := by
  cases h with
  | exit learners hme =>
    refine .inr ⟨by simp, ?_⟩
    exact (remaining_uniform_lt ..).trans_le (Nat.le_add_right ..)
  | leave learners hme hto =>
    rw [hleads _ rfl]
    simp [MembershipConfig.after, remaining, hme, hto]
  | converged => exact .inl ⟨rfl, rfl⟩
  | prune hlearners =>
    simp only [MembershipConfig.after, MembershipConfig.withLearners, MembershipConfig.learners,
      remaining, sdiff_self, hlearners]
    simp
  | @recruit voters learners missing hsub hmissing =>
    refine .inr ⟨by simp, ?_⟩
    have hfilled : target.voters.nodes ⊆ voters.nodes ∪ (learners ∪ missing) := by
      rw [hmissing, ← union_assoc]
      intro node hnode
      rw [mem_union, mem_sdiff]
      tauto
    simp only [MembershipConfig.after, MembershipConfig.withLearners, MembershipConfig.learners,
      remaining, hfilled, hsub, if_true, if_false]
    split_ifs <;> omega
  | @swap voters next learners x y hmissing hx hout hy hin hnext =>
    refine .inr ⟨by simp, ?_⟩
    have hfewer : target.voters.nodes \ next.nodes =
        (target.voters.nodes \ voters.nodes).erase y := by
      ext node
      rw [hnext]
      by_cases h : node = x
      · subst h
        simp [hout]
      · simp only [mem_sdiff, mem_insert, mem_erase, not_or, not_and]
        tauto
    have hcard : (target.voters.nodes \ next.nodes).card + 1 =
        (target.voters.nodes \ voters.nodes).card := by
      rw [hfewer]
      exact card_erase_add_one (mem_sdiff.mpr ⟨hy, hin⟩)
    have hfilled : target.voters.nodes ⊆ next.nodes ∪ learners.filter fun node => node ∉ next := by
      intro node hnode
      by_cases hmem : node ∈ next
      · exact mem_union_left _ hmem
      refine mem_union_right _ (mem_filter.mpr ⟨?_, hmem⟩)
      refine (mem_union.mp (hmissing hnode)).resolve_left fun hvoter => hmem ?_
      rw [← mem_nodes, hnext]
      refine mem_insert_of_mem (mem_erase.mpr ⟨?_, hvoter⟩)
      rintro rfl
      exact hout hnode
    simp only [MembershipConfig.after, MembershipConfig.learners, remaining, hfilled, if_true]
    split_ifs <;> omega
  | @handoff voters toNode learners hdropped hto hne =>
    refine .inr ⟨by simp, ?_⟩
    have hother : ({me} : Finset NodeId) ≠ {toNode} := fun h =>
      hne (singleton_inj.mp h).symm
    rw [hleads _ rfl]
    simp only [MembershipConfig.after, remaining, hdropped, if_true, if_neg hother]
    omega

end Advance

namespace Led

variable {target : MembershipTarget} {since : PlacementEpoch} {before after : Led}
  {step : MembershipStep}

theorem Round.advances (hstage : target.stage = .moving since) (hlearners : target.learners = ∅)
    (hsized : before.Sized target.voters.len) (h : Round target before step after) :
    ∃ id config, before.group.config? = some (id, config) ∧
      Advance target id before.leader config step ∧
      after.Sized target.voters.len ∧
      ∃ id', after.group.config? = some (id', config.after step) := by
  obtain ⟨id, config, hlast, hsides, hme⟩ := hsized.last
  obtain ⟨last, knows, fair, planned, first, second, executed, leads⟩ := h
  rw [hlast] at last
  cases last
  have hadvance : Advance target id before.leader config step :=
    planned ▸ plan_advances hstage hlearners hsides hme knows fair
  obtain ⟨id', hlast', hsettled⟩ := hadvance.settle_execute hlast hsized.settled first second
  rw [← executed] at hlast' hsettled
  refine ⟨id, config, hlast, hadvance,
    ⟨⟨id', _, hlast', hadvance.sides_after hsides, ?_⟩, hsettled⟩, id', hlast'⟩
  cases hadvance with
  | @leave old new toNode learners hme hto =>
    have hleader : after.leader = toNode := leads
    rw [hleader, MembershipConfig.after]
    rcases exitSide_eq old new target.voters with h | h <;> rw [h] at hto <;>
      simp [isVoter, voterConfigs, hto]
  | handoff learners hdropped hto hne =>
    have hleader : after.leader = _ := leads
    rw [hleader, MembershipConfig.after]
    simpa [isVoter, voterConfigs] using hto
  | exit | swap | prune | recruit | converged => exact leads _ _ hlast'

/-- A round reports that the group converged, on the target's voters and without learners, or brings
it closer. -/
theorem Round.converged_or_closer (hstage : target.stage = .moving since)
    (hlearners : target.learners = ∅) (hsized : before.Sized target.voters.len)
    (h : Round target before step after) :
    (step = .converged target.voters ∧
        ∃ id, before.group.config? = some (id, .uniform target.voters ∅)) ∨
      (∀ voters, step ≠ .converged voters) ∧
        after.remaining target.voters < before.remaining target.voters := by
  obtain ⟨id, config, hlast, hadvance, -, id', hlast'⟩ := h.advances hstage hlearners hsized
  have hleads : ∀ toNode, step = .transferLeadership toNode → after.leader = toNode := by
    rintro toNode rfl
    cases h with
    | mk _ _ _ _ _ _ _ leads => exact leads
  rw [remaining, remaining, hlast, hlast']
  exact (hadvance.decreases hleads).imp_left fun ⟨hstep, hconfig⟩ => ⟨hstep, id, by rw [hconfig]⟩

/-- A fair leader never waits, and whatever it plans a round can follow. -/
theorem exists_round (hstage : target.stage = .moving since) (hlearners : target.learners = ∅)
    {led : Led} (hsized : led.Sized target.voters.len) {id : MembershipLogId}
    {config : MembershipConfig} {leader : LeaderView}
    (hlast : led.group.config? = some (id, config))
    (hknows : leader.membership = .committed id config)
    (hfair : Fair target config led.leader leader) :
    (∀ reason, planMembershipStep ⟨led.leader, .leading leader⟩ target ≠ .wait reason) ∧
      ∃ after, Round target led (planMembershipStep ⟨led.leader, .leading leader⟩ target)
        after := by
  obtain ⟨_, _, hlast', hsides, hme⟩ := hsized.last
  rw [hlast] at hlast'
  cases hlast'
  have hadvance := plan_advances hstage hlearners hsides hme hknows hfair
  generalize hstep : planMembershipStep ⟨led.leader, .leading leader⟩ target = step at hadvance
  refine ⟨fun reason hwait => ?_, ?_⟩
  · subst hwait
    cases hadvance
  · obtain ⟨id', hlast', -⟩ := hadvance.settle_execute hlast hsized.settled id id
    obtain ⟨voter, hvoter⟩ : ∃ voter, (config.after step).isVoter voter := by
      cases hconfig : config.after step with
      | uniform voters _ | joint voters _ _ =>
        obtain ⟨voter, hvoter⟩ := voters.nonempty
        exact ⟨voter, by simp [isVoter, voterConfigs,
          show voter ∈ voters from hvoter]⟩
    -- who leads next is given, or any voter
    cases hadvance with
    | @leave _ _ toNode | @handoff _ toNode =>
      exact ⟨⟨_, toNode⟩, .mk hlast hknows hfair hstep.symm id id rfl rfl⟩
    | exit | swap | prune | recruit | converged =>
      refine ⟨⟨_, voter⟩, .mk hlast hknows hfair hstep.symm id id rfl fun id'' config'' hconfig =>
        ?_⟩
      cases hlast'.symm.trans hconfig
      exact hvoter

end Led

/-- Reconciliation toward a moving target. From every group of as many voters as the target has,
uniform or joint, a fair leader never waits; each round keeps the group so and brings the pair of
its config and its leader closer, except for the report that it converged, which names exactly the
target's voters and finds no learner; and every sequence of rounds comes to that report. -/
theorem reconciliation_converges (target : MembershipTarget) (since : PlacementEpoch)
    (hstage : target.stage = .moving since) (hlearners : target.learners = ∅) :
    (∀ (led : Led) (id : MembershipLogId) (config : MembershipConfig) (leader : LeaderView),
        led.Sized target.voters.len → led.group.config? = some (id, config) →
        leader.membership = .committed id config → Fair target config led.leader leader →
        (∀ reason, planMembershipStep ⟨led.leader, .leading leader⟩ target ≠ .wait reason) ∧
          ∃ after,
            Led.Round target led (planMembershipStep ⟨led.leader, .leading leader⟩ target) after) ∧
      (∀ (before after : Led) (step : MembershipStep), before.Sized target.voters.len →
        Led.Round target before step after →
        after.Sized target.voters.len ∧
          ((step = .converged target.voters ∧
              ∃ id, before.group.config? = some (id, .uniform target.voters ∅)) ∨
            (∀ voters, step ≠ .converged voters) ∧
              after.remaining target.voters < before.remaining target.voters)) ∧
      ∀ (run : ℕ → Led) (steps : ℕ → MembershipStep), (run 0).Sized target.voters.len →
        (∀ i, Led.Round target (run i) (steps i) (run (i + 1))) →
        ∃ k ≤ (run 0).remaining target.voters, steps k = .converged target.voters ∧
          (∃ id, (run k).group.config? = some (id, .uniform target.voters ∅)) ∧
          ∀ i < k, ∀ voters, steps i ≠ .converged voters := by
  refine ⟨fun led id config leader hsized hlast hknows hfair =>
    Led.exists_round hstage hlearners hsized hlast hknows hfair, ?_, ?_⟩
  · intro before after step hsized hround
    obtain ⟨-, -, -, -, hafter, -⟩ := hround.advances hstage hlearners hsized
    exact ⟨hafter, hround.converged_or_closer hstage hlearners hsized⟩
  · intro run steps hstart hrounds
    have hsized : ∀ i, (run i).Sized target.voters.len := fun i => by
      induction i with
      | zero => exact hstart
      | succ i ih =>
        obtain ⟨-, -, -, -, hafter, -⟩ := (hrounds i).advances hstage hlearners ih
        exact hafter
    have hcloser := fun i => (hrounds i).converged_or_closer hstage hlearners (hsized i)
    obtain ⟨k, hk, hdone, hbefore⟩ := Nat.exists_first_of_decreasing
      (fun i => (run i).remaining target.voters) (fun i => ∃ voters, steps i = .converged voters)
      fun i hnot => ((hcloser i).resolve_left fun h => hnot ⟨_, h.1⟩).2
    obtain ⟨voters, hvoters⟩ := hdone
    obtain ⟨hstep, hconfig⟩ := (hcloser k).resolve_right fun h => h.1 voters hvoters
    exact ⟨k, hk, hstep, hconfig, fun i hi voters h => hbefore i hi ⟨voters, h⟩⟩

/-! ### A leader that the target drops -/

/-- The move of three voters to the swapped ones. -/
def sampleMove : MembershipTarget := ⟨sampleSwapped, ∅, .moving ⟨1, 1, 7⟩⟩

/-- Node 3, which the move drops, leads the three voters, with node 4 a learner. -/
def sampleLed : Led := ⟨.start ⟨1, 1, 0⟩ sampleVoters {4}, 3⟩

/-- What node 3 knows when every node is ready. -/
def sampleLeader : LeaderView where
  membership := .committed ⟨1, 1, 0⟩ (.uniform sampleVoters {4})
  committedIndex := 0
  matched := ∅
  caughtUp := {4}
  live := {1, 2, 4}
  handoffReady := {1, 2}
  gates := (∅ : OrdMap NodeId PeerGate).insert 4 .open
  unlisted := ∅
  view := .confirmed

theorem sampleLeader_fair : Fair sampleMove (.uniform sampleVoters {4}) 3 sampleLeader where
  live node hnode hne := by
    have hmem : node ∈ sampleVoters ∨ node ∈ sampleSwapped := by
      simpa [isVoter, voterConfigs, sampleMove] using hnode
    have hvoters : ∀ node ∈ sampleVoters, node ≠ 3 → node ∈ sampleLeader.live := by decide
    have htargets : ∀ node ∈ sampleSwapped, node ≠ 3 → node ∈ sampleLeader.live := by decide
    exact hmem.elim (hvoters node · hne) (htargets node · hne)
  listed := by decide
  caughtUp := by decide
  gates := by decide
  handoffReady node hnode hne := by
    have hready : ∀ node ∈ sampleVoters, node ≠ 3 → node ∈ sampleLeader.handoffReady := by decide
    exact hready node (by simpa [isVoter, voterConfigs] using hnode) hne
  confirmed := rfl

theorem sampleLed_hands_off :
    sampleLed.Sized 3 ∧ ∃ after, Led.Round sampleMove sampleLed (.transferLeadership 1) after := by
  have hsized : sampleLed.Sized 3 := by
    refine ⟨⟨⟨1, 1, 0⟩, .uniform sampleVoters {4}, rfl, ?_, by decide⟩, rfl⟩
    intro voters hvoters
    rw [List.mem_singleton.mp hvoters]
    rfl
  have hstep : planMembershipStep ⟨3, .leading sampleLeader⟩ sampleMove =
      .transferLeadership 1 := by decide +kernel
  have hround := (reconciliation_converges sampleMove ⟨1, 1, 7⟩ rfl rfl).1 sampleLed ⟨1, 1, 0⟩
    (.uniform sampleVoters {4}) sampleLeader hsized rfl rfl sampleLeader_fair
  exact ⟨hsized, hstep ▸ hround.2⟩

end Ursula.Control

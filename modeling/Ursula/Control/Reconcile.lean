import Ursula.Control.Model

/-!
# The membership reconciler's planner

The one step a group leader takes next toward its target. Each call derives the step from the
committed membership: a joint config is flattened onto one of its sides, and from a uniform config
under a moving target one voter is swapped at a time.

## Main definitions

* `MembershipConfig`, `LeaderView`, `MembershipTarget`: what the planner reads
* `MembershipStep`: what it proposes
* `planMembershipStep`: the planner
-/

namespace Ursula.Control

/-! ## What the planner reads -/

/-- Whether the leader's placement view is confirmed. -/
inductive ViewFreshness
  | unconfirmed
  | confirmed
deriving DecidableEq

/-- A learner's recovery gate, as its answer reports it. -/
inductive PeerGate
  | open
  | closed
  | unknown
deriving DecidableEq

/-- One membership config: the voters of one or two configs, and the learners. -/
inductive MembershipConfig
  | uniform (voters : VoterSet) (learners : Finset NodeId)
  | joint (old new : VoterSet) (learners : Finset NodeId)
deriving DecidableEq

namespace MembershipConfig

/-- The voter configs: one, or the two sides of a joint config. -/
def voterConfigs : MembershipConfig → List VoterSet
  | .uniform voters _ => [voters]
  | .joint old new _ => [old, new]

/-- The learners of a config. -/
def learners : MembershipConfig → Finset NodeId
  | .uniform _ learners => learners
  | .joint _ _ learners => learners

/-- Whether a node votes on some side. -/
def isVoter (config : MembershipConfig) (node : NodeId) : Bool :=
  config.voterConfigs.any fun voters => node ∈ voters

/-- The voters of every config and the learners. -/
def members : MembershipConfig → Finset NodeId
  | .uniform voters learners => voters.nodes ∪ learners
  | .joint old new learners => old.nodes ∪ new.nodes ∪ learners

end MembershipConfig

/-- The leader's effective membership. -/
inductive EffectiveMembership
  | committed (logId : MembershipLogId) (config : MembershipConfig)
  | uncommitted (logId : MembershipLogId)
deriving DecidableEq

/-- What a leading replica knows when it plans. -/
structure LeaderView where
  membership : EffectiveMembership
  committedIndex : ℕ
  /-- Each member's matched log index. -/
  matched : OrdMap NodeId (Option ℕ)
  caughtUp : Finset NodeId
  live : Finset NodeId
  /-- Voters a leadership handoff accepts now. -/
  handoffReady : Finset NodeId
  gates : OrdMap NodeId PeerGate
  /-- Targets this node's address book does not list. -/
  unlisted : Finset NodeId
  view : ViewFreshness

/-- Where a replica stands in its group's leadership. -/
inductive Leadership
  | notLeading
  | transferring (toNode : NodeId)
  | stepPending
  | leading (leader : LeaderView)

/-- The planner's input about the local replica. -/
structure MembershipView where
  me : NodeId
  leadership : Leadership

/-- How the target came to be. -/
inductive TargetStage
  | seeded (since : PlacementEpoch)
  | moving (since : PlacementEpoch)
  | settled
deriving DecidableEq

/-- What the placement asks of the group's membership. -/
structure MembershipTarget where
  voters : VoterSet
  learners : Finset NodeId
  stage : TargetStage

/-! ## What the planner proposes -/

/-- A learner that has not caught up, with its matched index. -/
structure LearnerLag where
  node : NodeId
  matched : Option ℕ
deriving DecidableEq

/-- Why a replica waits. -/
inductive WaitReason
  | notLeader
  | transferPending
  | stepPending
  | membershipUncommitted
  | notAMember
  | noLiveQuorum
  | targetSettled
  | catchingUp (committed : ℕ) (behind : List LearnerLag)
  | peerNotListed (nodes : Finset NodeId)
  | gateClosed (nodes : Finset NodeId)
  | gateUnknown (nodes : Finset NodeId)
  | noHandoffTarget
deriving DecidableEq

/-- The one step a reconciler takes next. -/
inductive MembershipStep
  | addLearners (expected : MembershipLogId) (nodes : Finset NodeId)
  | changeVoters (expected : MembershipLogId) (voters : VoterSet)
  | removeLearners (expected : MembershipLogId) (nodes : Finset NodeId)
  | transferLeadership (toNode : NodeId)
  | confirmView
  | converged (voters : VoterSet)
  | wait (reason : WaitReason)
deriving DecidableEq

/-! ## The planner -/

/-- The smallest of `nodes`, in ascending order, other than `me` that a handoff accepts now. -/
def LeaderView.handoffTarget (leader : LeaderView) (me : NodeId) (nodes : List NodeId) :
    Option NodeId :=
  (nodes.filter fun node => node ≠ me).find? fun node => node ∈ leader.handoffReady

/-- How many of `voters` are live. -/
def liveCount (voters : VoterSet) (live : Finset NodeId) : ℕ :=
  (voters.nodes.filter fun node => node ∈ live).card

/-- Whether more than half of the voters are live. -/
def hasLiveMajority (voters : VoterSet) (live : Finset NodeId) : Bool :=
  voters.len < liveCount voters live * 2

/-- The side a joint config exits onto. -/
def jointExit (old new : VoterSet) (live : Finset NodeId) (target : VoterSet) : Option VoterSet :=
  match hasLiveMajority old live, hasLiveMajority new live with
  | false, false => none
  | true, false => some old
  | false, true => some new
  | true, true =>
    if new = target then some new
    else if old = target then some old
    else if liveCount old live ≠ liveCount new live then
      some (if liveCount new live < liveCount old live then old else new)
    else
      some (if (new.nodes.filter fun node => node ∈ target).card <
          (old.nodes.filter fun node => node ∈ target).card then old
        else new)

/-- Flattens a joint config onto one side. -/
def planJointExit (me : NodeId) (expected : MembershipLogId) (old new : VoterSet)
    (live : Finset NodeId) (leader : LeaderView) (target : MembershipTarget) : MembershipStep :=
  match jointExit old new live target.voters with
  | none => .wait .noLiveQuorum
  | some exit =>
    if me ∈ exit then .changeVoters expected exit
    else
      match leader.handoffTarget me exit.iter with
      | some toNode => .transferLeadership toNode
      | none => .wait .noHandoffTarget

/-- Why no target in `add` can be promoted, by a fixed precedence. -/
def notReady (add : Finset NodeId) (leader : LeaderView) : WaitReason :=
  let unlisted := add ∩ leader.unlisted
  let caughtUp := add.filter fun node => node ∈ leader.caughtUp
  let closed := caughtUp.filter fun node => leader.gates.get? node = some .closed
  let unknown := caughtUp.filter fun node => leader.gates.get? node ≠ some .open
  if unlisted ≠ ∅ then .peerNotListed unlisted
  else if closed ≠ ∅ then .gateClosed closed
  else if unknown ≠ ∅ then .gateUnknown unknown
  else
    .catchingUp leader.committedIndex
      ((add.ascending.filter fun node => node ∉ leader.caughtUp).map fun node =>
        { node, matched := (leader.matched.get? node).join })

/-- The leader's committed uniform config. -/
structure Current where
  me : NodeId
  expected : MembershipLogId
  voters : VoterSet
  learners : Finset NodeId
  live : Finset NodeId

namespace Current

variable (current : Current) (leader : LeaderView) (target : MembershipTarget)

/-- The step of a config that has the target's voters, or whose target is only a seed. -/
def planReached : MembershipStep :=
  let extra := current.learners \ target.learners
  let absent := target.learners.filter fun node =>
    node ∉ current.voters ∧ node ∉ current.learners
  if extra ≠ ∅ then .removeLearners current.expected extra
  else if absent ≠ ∅ then .addLearners current.expected absent
  else .converged current.voters

/-- The target's voters that are none yet. -/
def add : Finset NodeId := target.voters.nodes.filter fun node => node ∉ current.voters

/-- The voters that the target drops. -/
def dropped : Finset NodeId := current.voters.nodes.filter fun node => node ∉ target.voters

/-- The learner a step promotes: the smallest ready one. -/
def promoted : Option NodeId :=
  (current.add target).ascending.find? fun node =>
    node ∉ leader.unlisted ∧ node ∈ leader.caughtUp ∧ leader.gates.get? node = some .open

/-- The voter a step drops, never the leader: the smallest dead one, else the smallest. -/
def demoted : Option NodeId :=
  let others := (current.dropped target).ascending.filter fun node => node ≠ current.me
  (others.find? fun node => node ∉ current.live).or others.head?

/-- The step that swaps one voter. A missing voter to drop means that the leader is the only one:
it hands off first. -/
def planSwap : MembershipStep :=
  let y := current.promoted leader target
  -- The step of one voter replaces the leader itself.
  if current.voters.len = 1 ∧ target.voters.len = 1 then
    match y with
    | some y => .changeVoters current.expected (.single y)
    | none => .wait (notReady (current.add target) leader)
  else
    let x := current.demoted target
    let needsX : Bool := target.voters.len ≤ current.voters.len
    let needsY : Bool := current.voters.len ≤ target.voters.len
    if needsX ∧ x = none then
      match leader.handoffTarget current.me
        (current.voters.iter.filter fun node => node ∈ target.voters) with
      | some toNode => .transferLeadership toNode
      | none => .wait .noHandoffTarget
    else if needsY ∧ y = none then .wait (notReady (current.add target) leader)
    else
      let kept :=
        match needsX, x with
        | true, some x => current.voters.nodes.erase x
        | _, _ => current.voters.nodes
      let next :=
        match needsY, y with
        | true, some y => insert y kept
        | _, _ => kept
      .changeVoters current.expected (.fromFirst current.me next)

/-- The step from a uniform config. -/
def planUniform : MembershipStep :=
  let reached : Bool := current.voters = target.voters
  let seeded : Bool := match target.stage with
    | .seeded _ => true
    | .moving _ | .settled => false
  let missing := target.voters.nodes.filter fun node =>
    node ∉ current.voters ∧ node ∉ current.learners
  if reached || seeded then current.planReached target
  else if target.stage = .settled then .wait .targetSettled
  else if missing ≠ ∅ then .addLearners current.expected missing
  else if leader.view = .unconfirmed then .confirmView
  else current.planSwap leader target

end Current

/-- The next step of the replica `view` describes toward `target`. -/
def planMembershipStep (view : MembershipView) (target : MembershipTarget) : MembershipStep :=
  match view.leadership with
  | .notLeading => .wait .notLeader
  | .transferring _ => .wait .transferPending
  | .stepPending => .wait .stepPending
  | .leading leader =>
    match leader.membership with
    | .uncommitted _ => .wait .membershipUncommitted
    | .committed expected config =>
      if !config.isVoter view.me then .wait .notAMember
      else
        let live := insert view.me leader.live
        match config with
        | .joint old new _ => planJointExit view.me expected old new live leader target
        | .uniform voters learners =>
          Current.planUniform { me := view.me, expected, voters, learners, live } leader target

end Ursula.Control

import Mathlib.Data.Finset.Basic
import Mathlib.Data.PNat.Basic
import Ursula.Lib.Ascending
import Ursula.Lib.OrdMap

/-!
# The control plane's state and commands

The meta group replicates the desired placement of every data group, the lifecycle of every node id
and the retirements that converged moves owe. Its log ids are ordered by term, leader and index.

## Main definitions

* `RaftLogId`, `MetaLogId`, `PlacementEpoch`: entries of a log, and a placement's key
* `VoterSet`, `NodeSet`: sets of node ids that are never empty
* `NodeRecord`, `GroupPlacement`, `Cluster`, `ControlPlaneState`: the replicated state
* `ControlCommand`, `ControlApplied`, `ControlError`: the commands and their answers
-/

namespace Ursula.Control

/-! ## Names -/

/-- The id of a node. -/
abbrev NodeId := ℕ

/-- The number of a Raft group. -/
abbrev RaftGroupId := ℕ

/-- The id of a node's log root. -/
abbrev RootId := ℕ+

/-- The id of an entry of a log: the term and the leader that wrote it, and its index. -/
structure RaftLogId where
  term : ℕ
  leader : NodeId
  index : ℕ
deriving DecidableEq

namespace RaftLogId

/-- The id as a triple, compared by term, leader and index. -/
def toLexTriple (id : RaftLogId) : ℕ ×ₗ (ℕ ×ₗ ℕ) :=
  toLex (id.term, toLex (id.leader, id.index))

theorem toLexTriple_injective : Function.Injective toLexTriple := by
  rintro ⟨t, l, i⟩ ⟨t', l', i'⟩ h
  simpa [toLexTriple] using h

instance : LinearOrder RaftLogId := LinearOrder.lift' toLexTriple toLexTriple_injective

end RaftLogId

/-- An entry of the meta group's log. -/
abbrev MetaLogId := RaftLogId

/-- A membership entry of a data group's log. -/
abbrev MembershipLogId := RaftLogId

/-- A group's placement key: the meta entry that set its placement. -/
abbrev PlacementEpoch := MetaLogId

/-- A set of node ids that is never empty. -/
structure NonEmptyNodeSet where
  nodes : Finset NodeId
  nonempty : nodes.Nonempty
deriving DecidableEq

/-- The voters of a group or of the meta group. -/
abbrev VoterSet := NonEmptyNodeSet

/-- The nodes a cluster bootstraps over. -/
abbrev NodeSet := NonEmptyNodeSet

namespace NonEmptyNodeSet

@[ext] theorem ext {s t : NonEmptyNodeSet} (h : s.nodes = t.nodes) : s = t := by
  cases s
  cases t
  simpa using h

instance : Membership NodeId NonEmptyNodeSet := ⟨fun s node => node ∈ s.nodes⟩

instance (node : NodeId) (s : NonEmptyNodeSet) : Decidable (node ∈ s) :=
  inferInstanceAs (Decidable (node ∈ s.nodes))

@[simp] theorem mem_nodes {s : NonEmptyNodeSet} {node : NodeId} : node ∈ s.nodes ↔ node ∈ s :=
  Iff.rfl

/-- The set of one node. -/
def single (node : NodeId) : NonEmptyNodeSet := ⟨{node}, Finset.singleton_nonempty node⟩

/-- The set of `first` and `others`, which may repeat it. -/
def fromFirst (first : NodeId) (others : Finset NodeId) : NonEmptyNodeSet :=
  ⟨insert first others, Finset.insert_nonempty first others⟩

/-- The smallest node. -/
def min (s : NonEmptyNodeSet) : NodeId := s.nodes.min' s.nonempty

/-- How many ids the set holds. -/
def len (s : NonEmptyNodeSet) : ℕ := s.nodes.card

/-- The ids in ascending order. -/
def iter (s : NonEmptyNodeSet) : List NodeId := s.nodes.ascending

@[simp] theorem mem_iter {s : NonEmptyNodeSet} {node : NodeId} : node ∈ s.iter ↔ node ∈ s :=
  Finset.mem_ascending

@[simp] theorem length_iter (s : NonEmptyNodeSet) : s.iter.length = s.len :=
  Finset.length_ascending _

end NonEmptyNodeSet

/-! ## Nodes -/

/-- Where a node id stands. -/
inductive NodeLifecycle
  | active
  | cordoned
  | decommissioning
  | removed
  | vacant
deriving DecidableEq

/-- Whether a node of this lifecycle may run. -/
def NodeLifecycle.hasLife : NodeLifecycle → Bool
  | .active | .cordoned | .decommissioning => true
  | .removed | .vacant => false

/-- The root a node id is bound to, or the one released last. -/
inductive RootSlot
  | bound (root : RootId)
  | released (root : RootId)
deriving DecidableEq

/-- The root the slot names, bound or released. -/
def RootSlot.root : RootSlot → RootId
  | .bound root | .released root => root

/-- A registered node's lifecycle, when it entered it, and its root. -/
structure NodeRecord where
  lifecycle : NodeLifecycle
  sinceMs : ℕ
  root : RootSlot
deriving DecidableEq

/-- A node registered before Bootstrap, and the root its id is bound to. -/
structure Registration where
  sinceMs : ℕ
  root : RootSlot
deriving DecidableEq

/-- Whether a registered node has a role. -/
inductive Registered
  | forming
  | referenced (record : NodeRecord)
  | unreferenced (record : NodeRecord)
deriving DecidableEq

/-! ## Placements -/

/-- A node's role in a group. -/
inductive ReplicaRole
  | voter
  | incoming
  | outgoing
  | abandoned
deriving DecidableEq

/-- A move in progress. A cancel is a move to the voters it comes from. -/
structure Move where
  fromVoters : VoterSet
  toVoters : VoterSet
  /-- Earlier targets of this move in neither set. -/
  abandoned : Finset NodeId
  sinceMs : ℕ
deriving DecidableEq

/-- A node's role in a move. -/
def Move.role (moving : Move) (node : NodeId) : Option ReplicaRole :=
  match decide (node ∈ moving.fromVoters), decide (node ∈ moving.toVoters) with
  | true, true => some .voter
  | false, true => some .incoming
  | true, false => some .outgoing
  | false, false => if node ∈ moving.abandoned then some .abandoned else none

/-- A live group's target. -/
inductive Target
  | stable (voters : VoterSet)
  | moving (moving : Move)
deriving DecidableEq

/-- Where a group should live. -/
inductive GroupPlacement
  /-- The Bootstrap assignment. -/
  | seeded (since : PlacementEpoch) (voters : VoterSet) (initializer : NodeId)
  /-- The group formed and reported its voters at least once. -/
  | live (since : PlacementEpoch) (convergedAt : MembershipLogId) (target : Target)
deriving DecidableEq

namespace GroupPlacement

/-- The key of a placement. -/
def since : GroupPlacement → PlacementEpoch
  | .seeded since _ _ => since
  | .live since _ _ => since

/-- The placement under another key. -/
def withSince (key : PlacementEpoch) : GroupPlacement → GroupPlacement
  | .seeded _ voters initializer => .seeded key voters initializer
  | .live _ convergedAt target => .live key convergedAt target

/-- The voters before a move. -/
def currentVoters : GroupPlacement → VoterSet
  | .seeded _ voters _ => voters
  | .live _ _ (.stable voters) => voters
  | .live _ _ (.moving moving) => moving.fromVoters

/-- The voters the group should end on. -/
def targetVoters : GroupPlacement → VoterSet
  | .seeded _ voters _ => voters
  | .live _ _ (.stable voters) => voters
  | .live _ _ (.moving moving) => moving.toVoters

/-- The move in progress, if any. -/
def moving : GroupPlacement → Option Move
  | .live _ _ (.moving moving) => some moving
  | .seeded .. => none
  | .live _ _ (.stable _) => none

/-- The node's role in this group. -/
def role (placement : GroupPlacement) (node : NodeId) : Option ReplicaRole :=
  match placement with
  | .seeded _ voters _ => if node ∈ voters then some .voter else none
  | .live _ _ (.stable voters) => if node ∈ voters then some .voter else none
  | .live _ _ (.moving moving) => moving.role node

end GroupPlacement

/-- A replica a converged move retired, by the converge entry that created the record. -/
structure Retirement where
  createdAt : MetaLogId
deriving DecidableEq

/-- What a cluster fixed at Bootstrap, and its move limit. -/
structure ClusterParams where
  groupCount : ℕ+
  replicationFactor : ℕ+
  metaVoters : VoterSet
  maxConcurrentMoves : ℕ
deriving DecidableEq

/-- A bootstrapped cluster's desired state. -/
structure Cluster where
  params : ClusterParams
  nodes : OrdMap NodeId NodeRecord
  groups : OrdMap RaftGroupId GroupPlacement
  retirements : OrdMap RaftGroupId (OrdMap NodeId Retirement)
deriving DecidableEq

namespace Cluster

/-- A node's record. -/
def node (cluster : Cluster) (node : NodeId) : Option NodeRecord := cluster.nodes.get? node

/-- A group's placement. -/
def group (cluster : Cluster) (group : RaftGroupId) : Option GroupPlacement :=
  cluster.groups.get? group

/-- A node's retirement from a group. -/
def retirement (cluster : Cluster) (group : RaftGroupId) (node : NodeId) : Option Retirement :=
  (cluster.retirements.get? group).bind fun records => records.get? node

/-- A node's role in a group. -/
def role (cluster : Cluster) (group : RaftGroupId) (node : NodeId) : Option ReplicaRole :=
  (cluster.group group).bind fun placement => placement.role node

/-- Whether a node has a role in any group. -/
def hasAnyRole (cluster : Cluster) (node : NodeId) : Bool :=
  cluster.groups.values.any fun placement => (placement.role node).isSome

/-- How many groups are moving. -/
def moving (cluster : Cluster) : ℕ :=
  (cluster.groups.values.filter fun placement => placement.moving.isSome).length

end Cluster

/-- The meta group's state machine value. -/
inductive ControlPlaneState
  /-- Nodes register, nothing is placed. -/
  | forming (registered : OrdMap NodeId Registration)
  /-- A recovery plan's history event ended the formation. -/
  | formationCut
  | bootstrapped (cluster : Cluster)
deriving DecidableEq

namespace ControlPlaneState

/-- The state before any entry. -/
def new : ControlPlaneState := .forming ∅

/-- The bootstrapped cluster, if any. -/
def cluster : ControlPlaneState → Option Cluster
  | .bootstrapped cluster => some cluster
  | .forming _ | .formationCut => none

end ControlPlaneState

/-! ## Commands and answers -/

/-- An operator's lifecycle change of a node. -/
inductive LifecycleChange
  | cordon
  | uncordon
  | decommission
deriving DecidableEq

/-- What began a meta history. -/
inductive HistoryCause
  | genesis
  | plan
deriving DecidableEq

/-- A command the meta group replicates. -/
inductive ControlCommand
  | registerNode (node : NodeId) (root : RootId) (empty : Bool) (nowMs : ℕ)
  | bootstrap (params : ClusterParams) (nodes : NodeSet) (nowMs : ℕ)
  | requestMove (group : RaftGroupId) (expected : PlacementEpoch) (toVoters : VoterSet) (nowMs : ℕ)
  | reportConverged (group : RaftGroupId) (since : PlacementEpoch) (voters : VoterSet)
      (membership : MembershipLogId) (nowMs : ℕ)
  | setNodeLifecycle (node : NodeId) (change : LifecycleChange) (nowMs : ℕ)
  | setMoveLimit (limit : ℕ)
  | reportTornDown (group : RaftGroupId) (node : NodeId) (createdAt : MetaLogId)
  | releaseRoot (node : NodeId) (root : RootId)
  | reportRemovalComplete (node : NodeId) (root : RootId) (nowMs : ℕ)
deriving DecidableEq

/-- The group a command names, if any. -/
def ControlCommand.group : ControlCommand → Option RaftGroupId
  | .requestMove group .. => some group
  | .reportConverged group .. => some group
  | .reportTornDown group .. => some group
  | .registerNode .. | .bootstrap .. | .setNodeLifecycle .. | .setMoveLimit .. | .releaseRoot ..
  | .reportRemovalComplete .. => none

/-- Why a Bootstrap is invalid. -/
inductive BootstrapProblem
  | groupCountAboveMax (count : ℕ+)
  | metaVoterNotANode (node : NodeId)
  | replicationFactorAboveNodes
deriving DecidableEq

/-- What an accepted command did. -/
inductive ControlApplied
  | nodeRegistered (registered : Registered)
  | bootstrapped
  | moveAccepted (since : PlacementEpoch)
  | converged (since : PlacementEpoch) (retired removed : Finset NodeId)
  | lifecycleChanged (lifecycle : NodeLifecycle)
  | moveLimitSet (limit : ℕ)
  | tornDown
  | nothingToTearDown
  | rootReleased (record : NodeRecord)
  | removalCompleted (record : NodeRecord)
deriving DecidableEq

/-- Why the state machine refused a command. -/
inductive ControlError
  | notBootstrapped
  | alreadyBootstrapped
  | formationCut
  | invalidBootstrap (problem : BootstrapProblem)
  | unknownGroup (group : RaftGroupId)
  | unknownNode (node : NodeId)
  | nodeRemoved (node : NodeId)
  | nodeVacant (node : NodeId)
  | stalePlacement (group : RaftGroupId) (current : GroupPlacement)
  | groupNotLive (group : RaftGroupId)
  | notMoving (group : RaftGroupId)
  | noChange (group : RaftGroupId)
  | replicationFactorChange (group : RaftGroupId) (current requested : ℕ)
  | ineligibleTarget (group : RaftGroupId) (node : NodeId) (lifecycle : NodeLifecycle)
  | retirementPending (group : RaftGroupId) (node : NodeId)
  | moveLimit (limit moving : ℕ)
  | notTarget (group : RaftGroupId) (reported : VoterSet)
  | metaVoter (node : NodeId)
  | decommissioning (node : NodeId)
  | otherRoot (node : NodeId) (slot : RootSlot)
  | staleRoot (node : NodeId) (slot : RootSlot)
  | notRemoved (node : NodeId) (lifecycle : NodeLifecycle)
deriving DecidableEq

/-- The answer to a command. -/
abbrev ControlResponse := Except ControlError ControlApplied

/-- What a history event did to the state. -/
inductive HistoryBegun
  | forming
  | formationCut
  | rebased (dropped : OrdMap RaftGroupId (Finset NodeId))
deriving DecidableEq

end Ursula.Control

import Mathlib.Data.List.Rotate
import Ursula.Control.Model

/-!
# The dispatcher of the control plane

Every command is first planned against the unchanged state, which refuses it or yields a `Change`
that names everything the command writes. An accepted plan is then committed, and a commit cannot
fail.

## Main definitions

* `seedVoters`, `initializer`: where Bootstrap places each group
* `Cluster.plan`, `Cluster.commit`: planning and committing a command
* `ControlPlaneState.apply`, `ControlPlaneState.beginHistory`: the transitions
-/

namespace Ursula.Control

/-! ## The seed rule -/

/-- The index in `nodes` at which a group's seed window starts. -/
def rotationStart (group : RaftGroupId) (nodes : NodeSet) : ℕ := group % nodes.len

/-- The node that initializes a group: the first node of its seed window. -/
def initializer (group : RaftGroupId) (nodes : NodeSet) : NodeId :=
  (nodes.iter[rotationStart group nodes]?).getD nodes.min

/-- The voters Bootstrap seeds a group on: consecutive nodes in ascending id, wrapping around. -/
def seedVoters (group : RaftGroupId) (replicationFactor : ℕ+) (nodes : NodeSet) : VoterSet :=
  .fromFirst (initializer group nodes)
    ((nodes.iter.rotate (rotationStart group nodes)).take
      (min replicationFactor nodes.len)).toFinset

/-- The most data groups a cluster may have. -/
def maxGroupCount : ℕ := 4096

/-! ## Roots and lives -/

/-- The slot a registration of `root` leaves a node whose slot is `slot`, or its refusal. -/
def registerSlot (node : NodeId) (slot : Option RootSlot) (root : RootId) (empty : Bool) :
    Except ControlError RootSlot :=
  match slot with
  | none => .ok (.bound root)
  | some (.bound bound) =>
    if bound = root then .ok (.bound root) else .error (.otherRoot node (.bound bound))
  | some (.released released) =>
    if released ≠ root ∧ empty then .ok (.bound root)
    else .error (.otherRoot node (.released released))

/-- The slot a release of `root` leaves a node whose slot is `slot`, or its refusal. -/
def releaseSlot (node : NodeId) (slot : RootSlot) (root : RootId) : Except ControlError RootSlot :=
  if slot.root = root then .ok (.released root) else .error (.staleRoot node slot)

/-- Refuses a command that needs `node` in a life. -/
def checkLife (node : NodeId) (record : NodeRecord) : Except ControlError Unit :=
  match record.lifecycle with
  | .removed => .error (.nodeRemoved node)
  | .vacant => .error (.nodeVacant node)
  | .active | .cordoned | .decommissioning => .ok ()

/-! ## Before Bootstrap -/

/-- What an accepted command writes before Bootstrap. -/
inductive FormingChange
  | nothing (applied : ControlApplied)
  | register (node : NodeId) (root : RootId) (nowMs : ℕ)
  /-- A registered node's slot changes. -/
  | slot (node : NodeId) (registration : Registration) (applied : ControlApplied)
  | bootstrap (params : ClusterParams) (nodes : NodeSet) (nowMs : ℕ)

/-- A registered node's slot becomes `slot`, when it is another one. -/
def FormingChange.ofSlot (node : NodeId) (registration : Registration) (slot : RootSlot)
    (applied : ControlApplied) : FormingChange :=
  if slot = registration.root then .nothing applied
  else .slot node { registration with root := slot } applied

/-- The checks of a bootstrap. -/
def checkBootstrap (registered : OrdMap NodeId Registration) (params : ClusterParams)
    (nodes : NodeSet) : Except ControlError Unit :=
  match nodes.iter.find? fun node => !registered.contains node with
  | some node => .error (.unknownNode node)
  | none =>
    if maxGroupCount < params.groupCount then
      .error (.invalidBootstrap (.groupCountAboveMax params.groupCount))
    else
      match params.metaVoters.iter.find? fun node => node ∉ nodes with
      | some node => .error (.invalidBootstrap (.metaVoterNotANode node))
      | none =>
        if nodes.len < params.replicationFactor then
          .error (.invalidBootstrap .replicationFactorAboveNodes)
        else .ok ()

/-- The change a command makes before Bootstrap, or its refusal. -/
def planForming (registered : OrdMap NodeId Registration) :
    ControlCommand → Except ControlError FormingChange
  | .registerNode node root empty nowMs =>
    match registered.get? node with
    | none => .ok (.register node root nowMs)
    | some registration => do
      let slot ← registerSlot node (some registration.root) root empty
      return .ofSlot node registration slot (.nodeRegistered .forming)
  | .releaseRoot node root =>
    match registered.get? node with
    | none => .error (.unknownNode node)
    | some registration => do
      let slot ← releaseSlot node registration.root root
      return .ofSlot node registration slot
        (.rootReleased { lifecycle := .active, sinceMs := registration.sinceMs, root := slot })
  | .bootstrap params nodes nowMs => do
    checkBootstrap registered params nodes
    return .bootstrap params nodes nowMs
  | .requestMove .. | .reportConverged .. | .setNodeLifecycle .. | .setMoveLimit ..
  | .reportTornDown .. | .reportRemovalComplete .. => .error .notBootstrapped

/-- The cluster a checked Bootstrap creates. -/
def bootstrap (log : MetaLogId) (registered : OrdMap NodeId Registration) (params : ClusterParams)
    (nodes : NodeSet) (nowMs : ℕ) : Cluster where
  params := params
  nodes := registered.mapValues fun _ registration =>
    { lifecycle := .active, sinceMs := nowMs, root := registration.root }
  groups := OrdMap.tabulate (List.range params.groupCount) fun group =>
    .seeded log (seedVoters group params.replicationFactor nodes) (initializer group nodes)
  retirements := ∅

/-! ## Planning -/

/-- Everything an accepted command writes to a cluster. -/
inductive Change
  | nothing (applied : ControlApplied)
  /-- A new node, or a new life of a vacant one, registers on `root`. -/
  | register (node : NodeId) (root : RootId) (nowMs : ℕ)
  | rebind (node : NodeId) (record : NodeRecord)
  | release (node : NodeId) (record : NodeRecord)
  | vacate (node : NodeId) (record : NodeRecord)
  | move (group : RaftGroupId) (convergedAt : MembershipLogId) (moving : Move)
  | converge (group : RaftGroupId) (convergedAt : MembershipLogId) (voters : VoterSet)
      (retired : Finset NodeId) (nowMs : ℕ)
  | lifecycle (node : NodeId) (record : NodeRecord)
  | moveLimit (limit : ℕ)
  | tornDown (group : RaftGroupId) (node : NodeId)

/-- How many voters, as an answer counts them. -/
def voterCount (voters : VoterSet) : ℕ := min voters.len 255

namespace Cluster

variable (cluster : Cluster)

/-- The node's record, or the refusal of a command that names an unknown node. -/
def known (node : NodeId) : Except ControlError NodeRecord :=
  match cluster.node node with
  | none => .error (.unknownNode node)
  | some record => .ok record

/-- The group's placement, or the refusal of a command that names an unknown group. -/
def existing (group : RaftGroupId) : Except ControlError GroupPlacement :=
  match cluster.group group with
  | none => .error (.unknownGroup group)
  | some placement => .ok placement

/-- What a registration answers about a node. -/
def registered (node : NodeId) (record : NodeRecord) : Registered :=
  if cluster.hasAnyRole node then .referenced record else .unreferenced record

/-- What a registration changes. -/
def planRegister (node : NodeId) (root : RootId) (empty : Bool) (nowMs : ℕ) :
    Except ControlError Change :=
  match cluster.node node with
  | none => .ok (.register node root nowMs)
  | some record =>
    match record.lifecycle with
    | .removed => .error (.nodeRemoved node)
    -- A new life: only an empty root other than the released one takes the slot.
    | .vacant => do
      let _ ← registerSlot node (some record.root) root empty
      return .register node root nowMs
    | .active | .cordoned | .decommissioning => do
      let slot ← registerSlot node (some record.root) root empty
      return if slot = record.root then .nothing (.nodeRegistered (cluster.registered node record))
        else .rebind node { record with root := slot }

/-- What the release of a root changes. -/
def planRelease (node : NodeId) (root : RootId) :
    Except ControlError Change := do
  let record ← cluster.known node
  checkLife node record
  let slot ← releaseSlot node record.root root
  let released : NodeRecord := { record with root := slot }
  return if slot = record.root then .nothing (.rootReleased released) else .release node released

/-- Whether `node` may be in a move target of a group whose voters are now `placedNow`. -/
def checkTarget (group : RaftGroupId) (placedNow : VoterSet) (node : NodeId) :
    Except ControlError Unit := do
  let record ← cluster.known node
  checkLife node record
  if (record.lifecycle = .cordoned ∨ record.lifecycle = .decommissioning) ∧ node ∉ placedNow then
    .error (.ineligibleTarget group node record.lifecycle)
  else if (cluster.retirement group node).isSome then .error (.retirementPending group node)
  else .ok ()

/-- The refusal of a command that names another key than the placement's. -/
def stale (group : RaftGroupId) (placement : GroupPlacement) : ControlError :=
  .stalePlacement group placement

/-- The move a request starts, retargets or cancels. -/
def moveFrom (group : RaftGroupId) (toVoters : VoterSet) (nowMs : ℕ) :
    Target → Except ControlError Move
  | .stable voters =>
    if toVoters = voters then .error (.noChange group)
    else if cluster.params.maxConcurrentMoves ≤ cluster.moving then
      .error (.moveLimit cluster.params.maxConcurrentMoves cluster.moving)
    else .ok { fromVoters := voters, toVoters, abandoned := ∅, sinceMs := nowMs }
  | .moving moving =>
    if toVoters = moving.toVoters then .error (.noChange group)
    else .ok
      { fromVoters := moving.fromVoters
        toVoters
        abandoned := (moving.abandoned ∪ moving.toVoters.nodes).filter fun node =>
          node ∉ moving.fromVoters ∧ node ∉ toVoters
        sinceMs := moving.sinceMs }

/-- What a requested move changes. -/
def planMove (group : RaftGroupId) (expected : PlacementEpoch) (toVoters : VoterSet) (nowMs : ℕ) :
    Except ControlError Change := do
  let placement ← cluster.existing group
  match placement with
  | .seeded .. => .error (.groupNotLive group)
  | .live since convergedAt target =>
    if since ≠ expected then .error (stale group placement)
    else if toVoters.len ≠ placement.targetVoters.len then
      .error (.replicationFactorChange group (voterCount placement.targetVoters)
        (voterCount toVoters))
    else do
      toVoters.iter.forM (cluster.checkTarget group placement.currentVoters)
      let moving ← cluster.moveFrom group toVoters nowMs target
      return .move group convergedAt moving

/-- The replicas a report retires, or its refusal. -/
def retiredBy (group : RaftGroupId) (voters : VoterSet) :
    GroupPlacement → Except ControlError (Finset NodeId)
  | .seeded .. => do
    voters.iter.forM fun node => do
      let record ← cluster.known node
      checkLife node record
    if voters.len ≠ cluster.params.replicationFactor then .error (.notTarget group voters)
    else return ∅
  | .live _ _ (.stable _) => .error (.notMoving group)
  | .live _ _ (.moving moving) =>
    if voters ≠ moving.toVoters then .error (.notTarget group voters)
    else .ok ((moving.fromVoters.nodes ∪ moving.abandoned).filter fun node =>
      node ∉ moving.toVoters)

/-- Plans a report of a converged membership. -/
def planConverge (group : RaftGroupId) (since : PlacementEpoch) (voters : VoterSet)
    (membership : MembershipLogId) (nowMs : ℕ) :
    Except ControlError Change := do
  let placement ← cluster.existing group
  if placement.since ≠ since then .error (stale group placement)
  else do
    let retired ← cluster.retiredBy group voters placement
    return .converge group membership voters retired nowMs

/-- The lifecycle an operator's change gives a node in a life, or its refusal. -/
def nextLifecycle (node : NodeId) (lifecycle : NodeLifecycle) :
    LifecycleChange → Except ControlError NodeLifecycle
  | .decommission =>
    if node ∈ cluster.params.metaVoters then .error (.metaVoter node) else .ok .decommissioning
  | .cordon =>
    if lifecycle = .decommissioning then .error (.decommissioning node) else .ok .cordoned
  | .uncordon => .ok .active

/-- What a lifecycle change does. -/
def planLifecycle (node : NodeId) (change : LifecycleChange) (nowMs : ℕ) :
    Except ControlError Change := do
  let record ← cluster.known node
  checkLife node record
  let lifecycle ← cluster.nextLifecycle node record.lifecycle change
  return if lifecycle = record.lifecycle then .nothing (.lifecycleChanged lifecycle)
    else .lifecycle node { lifecycle, sinceMs := nowMs, root := record.root }

/-- Plans a report of a torn down replica. -/
def planTornDown (group : RaftGroupId) (node : NodeId) (createdAt : MetaLogId) :
    Except ControlError Change := do
  let record ← cluster.known node
  checkLife node record
  return match cluster.retirement group node with
    | some retirement =>
      if retirement.createdAt = createdAt then .tornDown group node else .nothing .nothingToTearDown
    | none => .nothing .nothingToTearDown

/-- Plans a removal report: a compare-and-set on the removed record and the root its slot names. -/
def planRemovalComplete (node : NodeId) (root : RootId) (nowMs : ℕ) :
    Except ControlError Change := do
  let record ← cluster.known node
  if record.root.root ≠ root then .error (.staleRoot node record.root)
  else
    match record.lifecycle with
    | .removed =>
      return .vacate node { lifecycle := .vacant, sinceMs := nowMs, root := .released root }
    | .vacant => return .nothing (.removalCompleted record)
    | .active | .cordoned | .decommissioning => .error (.notRemoved node record.lifecycle)

/-- Plans a command that names no unknown group. -/
def planCommand : ControlCommand → Except ControlError Change
  | .registerNode node root empty nowMs => cluster.planRegister node root empty nowMs
  | .releaseRoot node root => cluster.planRelease node root
  | .bootstrap .. => .error .alreadyBootstrapped
  | .requestMove group expected toVoters nowMs => cluster.planMove group expected toVoters nowMs
  | .reportConverged group since voters membership nowMs =>
    cluster.planConverge group since voters membership nowMs
  | .setNodeLifecycle node change nowMs => cluster.planLifecycle node change nowMs
  | .setMoveLimit limit => .ok (.moveLimit limit)
  | .reportTornDown group node createdAt => cluster.planTornDown group node createdAt
  | .reportRemovalComplete node root nowMs => cluster.planRemovalComplete node root nowMs

/-- The change a command makes to a cluster, or its refusal. -/
def plan (command : ControlCommand) : Except ControlError Change :=
  match command.group with
  | some group =>
    if (cluster.group group).isNone then .error (.unknownGroup group)
    else cluster.planCommand command
  | none => cluster.planCommand command

/-! ## Committing -/

/-- The decommissioning nodes without a role. -/
def roleless : Finset NodeId :=
  ((cluster.nodes.entries.filter fun entry =>
    entry.2.lifecycle = .decommissioning ∧ !cluster.hasAnyRole entry.1).map Prod.fst).toFinset

/-- Removes every decommissioning node left without a role, with its retirements. -/
def removeRolelessDecommissioning (nowMs : ℕ) : Cluster × Finset NodeId :=
  let removed := cluster.roleless
  let nodes := cluster.nodes.mapValues fun node record =>
    if node ∈ removed then { lifecycle := .removed, sinceMs := nowMs, root := record.root }
    else record
  let retirements :=
    if removed = ∅ then cluster.retirements
    else
      (cluster.retirements.mapValues fun _ records =>
        records.filter fun node _ => node ∉ removed).filter fun _ records => !records.isEmpty
  ({ cluster with nodes, retirements }, removed)

/-- The cluster with a node's record. -/
def setNode (node : NodeId) (record : NodeRecord) : Cluster :=
  { cluster with nodes := cluster.nodes.insert node record }

/-- The cluster with a group's placement. -/
def setGroup (group : RaftGroupId) (placement : GroupPlacement) : Cluster :=
  { cluster with groups := cluster.groups.insert group placement }

/-- Adds the retirements a converge at `log` creates. -/
def retire (group : RaftGroupId) (retired : Finset NodeId) (log : MetaLogId) :
    Cluster :=
  if retired = ∅ then cluster
  else
    let records := (cluster.retirements.get? group).getD ∅
    let added := retired.ascending.foldl (fun records node => records.insert node ⟨log⟩) records
    { cluster with retirements := cluster.retirements.insert group added }

/-- Removes a retirement, and its group's map once it is empty. -/
def tearDown (group : RaftGroupId) (node : NodeId) : Cluster :=
  match cluster.retirements.get? group with
  | none => cluster
  | some records =>
    let left := records.erase node
    { cluster with
      retirements :=
        if left.isEmpty then cluster.retirements.erase group
        else cluster.retirements.insert group left }

/-- Commits an accepted change as the meta entry `log`. -/
def commit (log : MetaLogId) : Change → Cluster × ControlApplied
  | .nothing applied => (cluster, applied)
  | .register node root nowMs =>
    let record : NodeRecord := { lifecycle := .active, sinceMs := nowMs, root := .bound root }
    (cluster.setNode node record, .nodeRegistered (.unreferenced record))
  | .rebind node record =>
    let bound := cluster.setNode node record
    (bound, .nodeRegistered (bound.registered node record))
  | .release node record => (cluster.setNode node record, .rootReleased record)
  | .vacate node record => (cluster.setNode node record, .removalCompleted record)
  | .move group convergedAt moving =>
    (cluster.setGroup group (.live log convergedAt (.moving moving)), .moveAccepted log)
  | .converge group convergedAt voters retired nowMs =>
    let stable := cluster.setGroup group (.live log convergedAt (.stable voters))
    let swept := (stable.retire group retired log).removeRolelessDecommissioning nowMs
    (swept.1, .converged log (retired \ swept.2) swept.2)
  | .lifecycle node record =>
    let swept := (cluster.setNode node record).removeRolelessDecommissioning record.sinceMs
    (swept.1, .lifecycleChanged (if node ∈ swept.2 then .removed else record.lifecycle))
  | .moveLimit limit =>
    ({ cluster with params := { cluster.params with maxConcurrentMoves := limit } },
      .moveLimitSet limit)
  | .tornDown group node => (cluster.tearDown group node, .tornDown)

end Cluster

/-! ## The transitions -/

namespace ControlPlaneState

/-- Applies a command at its log id. -/
def apply (state : ControlPlaneState) (log : MetaLogId) (command : ControlCommand) :
    ControlPlaneState × ControlResponse :=
  match state with
  | .formationCut => (state, .error .formationCut)
  | .forming registered =>
    match planForming registered command with
    | .error error => (state, .error error)
    | .ok (.nothing applied) => (state, .ok applied)
    | .ok (.register node root nowMs) =>
      (.forming (registered.insert node { sinceMs := nowMs, root := .bound root }),
        .ok (.nodeRegistered .forming))
    | .ok (.slot node registration applied) =>
      (.forming (registered.insert node registration), .ok applied)
    | .ok (.bootstrap params nodes nowMs) =>
      (.bootstrapped (Control.bootstrap log registered params nodes nowMs), .ok .bootstrapped)
  | .bootstrapped cluster =>
    match cluster.plan command with
    | .error error => (state, .error error)
    | .ok change =>
      let committed := cluster.commit log change
      (.bootstrapped committed.1, .ok committed.2)

/-- A cluster after a history event at `log`: every key moves to the event, and every retirement
is dropped. -/
def rebase (cluster : Cluster) (log : MetaLogId) : Cluster :=
  { cluster with
    groups := cluster.groups.mapValues fun _ placement => placement.withSince log
    retirements := ∅ }

/-- Applies a meta history event at `log`. -/
def beginHistory (state : ControlPlaneState) (log : MetaLogId) (cause : HistoryCause) :
    ControlPlaneState × HistoryBegun :=
  match state with
  | .forming _ =>
    match cause with
    | .genesis => (state, .forming)
    | .plan => (.formationCut, .formationCut)
  | .formationCut => (state, .formationCut)
  | .bootstrapped cluster =>
    (.bootstrapped (rebase cluster log),
      .rebased (cluster.retirements.mapValues fun _ records => records.keys.toFinset))

end ControlPlaneState

/-! ## Runs -/

/-- What an entry of the meta log holds. -/
inductive MetaEntry
  | command (command : ControlCommand)
  | history (cause : HistoryCause)
deriving DecidableEq

namespace ControlPlaneState

/-- Applies an entry of the meta log. -/
def step (state : ControlPlaneState) (entry : MetaLogId × MetaEntry) : ControlPlaneState :=
  match entry.2 with
  | .command command => (state.apply entry.1 command).1
  | .history cause => (state.beginHistory entry.1 cause).1

/-- The state a log leads to. -/
def replay (log : List (MetaLogId × MetaEntry)) : ControlPlaneState := log.foldl step new

end ControlPlaneState

end Ursula.Control

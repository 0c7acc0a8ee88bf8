import Ursula.Lib.Word64
import Ursula.Wal.GroupLog

/-!
# The metadata of a core journal

Each core's metadata file holds, for every raft group on the core, its vote, the state of its log on
this replica, its recovery plan and the generation of its log, and the recovery epoch in which the
journal was last read in full. It is always replaced whole and synced.

## Main definitions

* `GroupLogState`, `GroupMetadata`, `CoreMetadata`: what the file holds
* `CoreMetadata.initializeGroup`, `setLogState`, `markRecovering`, `retire`, `reopen`, `takePlan`,
  `dropPlan`: its changes

## Main results

* `CoreMetadata.log_markRecovering`: no group is initialized after it
-/

namespace Ursula.Wal

/-- The state of one group's log on this replica. -/
inductive GroupLogState
  /-- The replica never persisted an entry or a purge of the group. -/
  | empty
  /-- The log holds every entry the replica acknowledged. -/
  | initialized
  /-- The log may be missing entries the replica acknowledged. -/
  | recovering
  /-- The log was torn down. -/
  | retired
deriving DecidableEq

/-- A vote: the term and the node it is for, and whether a quorum granted it. -/
structure Vote where
  term : ℕ
  node : Control.NodeId
  committed : Bool
deriving DecidableEq

/-- The cut of a recovery plan on one replica. -/
inductive PlanCut
  | noCut
  | pending (keep : LogId)
  | done
deriving DecidableEq

/-- A recovery plan a replica holds. -/
structure RecoveryRecord where
  leader : Control.NodeId
  point : ℕ
  leaderTerm : ℕ
  cut : PlanCut
deriving DecidableEq

/-- What the metadata file holds for one group. -/
structure GroupMetadata where
  vote : Option Vote
  log : GroupLogState
  recovery : Option RecoveryRecord
  generation : LogGeneration
deriving DecidableEq

/-- A group the file does not name. -/
def GroupMetadata.default : GroupMetadata where
  vote := none
  log := .empty
  recovery := none
  generation := 0

/-- The metadata of one core journal. -/
structure CoreMetadata where
  /-- The recovery epoch in which the journal was last read in full. -/
  verifiedEpoch : ℕ
  groups : OrdMap GroupId GroupMetadata
deriving DecidableEq

namespace CoreMetadata

/-- The metadata of a core without a file. -/
def default : CoreMetadata where
  verifiedEpoch := 0
  groups := ∅

variable (metadata : CoreMetadata)

variable (groupId : GroupId)

/-- What the file holds for a group. -/
def group : GroupMetadata :=
  (metadata.groups.get? groupId).getD .default

/-- The file with a group's metadata replaced. -/
def setGroup (group : GroupMetadata) : CoreMetadata :=
  { metadata with groups := metadata.groups.insert groupId group }

/-- Records that the journal was read in full in an epoch. -/
def setVerifiedEpoch (epoch : ℕ) : CoreMetadata := { metadata with verifiedEpoch := epoch }

/-- Records a group's vote. -/
def setVote (vote : Vote) : CoreMetadata :=
  metadata.setGroup groupId { metadata.group groupId with vote := some vote }

/-- Records a group's recovery plan, or removes it. The file is not replaced for the plan it
holds. -/
def setRecovery (recovery : Option RecoveryRecord) : CoreMetadata :=
  if (metadata.group groupId).recovery = recovery then metadata
  else metadata.setGroup groupId { metadata.group groupId with recovery }

/-- Records the first entry or purge of an empty group as `first`, initialized or recovering. A
group that is not empty keeps its state. -/
def initializeGroup (first : GroupLogState) : CoreMetadata :=
  let group := metadata.group groupId
  if group.log ≠ .empty ∨ (first ≠ .initialized ∧ first ≠ .recovering) then
    metadata.setGroup groupId group
  else metadata.setGroup groupId { group with log := first }

/-- Moves a group into or out of recovery. An empty group stays empty and a retired one retired. -/
def setLogState (state : GroupLogState) : CoreMetadata :=
  match metadata.groups.get? groupId with
  | none => metadata
  | some group =>
    match group.log, state with
    | .initialized, .recovering | .recovering, .initialized =>
      metadata.setGroup groupId { group with log := state }
    | _, _ => metadata

/-- Moves every initialized group into recovery. -/
def markRecovering : CoreMetadata :=
  { metadata with
    groups := metadata.groups.mapValues fun _ group =>
      if group.log = .initialized then { group with log := .recovering } else group }

/-- The generation that a group retires into: none for a group that the file does not name or names
retired, and none past the last one. -/
def retirement : Option LogGeneration :=
  (metadata.groups.get? groupId).bind fun group =>
    if group.log = .retired then none else Word64.checkedAdd group.generation 1

/-- Records a group's log retired in `generation`, with no vote and no recovery plan. -/
def retire (generation : LogGeneration) : CoreMetadata :=
  metadata.setGroup groupId
    { vote := none, log := .retired, recovery := none, generation }

/-- Reopens a retired group: recovering, empty and with no vote. -/
def reopen : CoreMetadata :=
  match metadata.groups.get? groupId with
  | none => metadata
  | some group =>
    if group.log = .retired then
      metadata.setGroup groupId
        { vote := none, log := .recovering, recovery := none, generation := group.generation }
    else metadata

/-- Names a group's generation, for a replay without a metadata file. -/
def adoptGeneration (generation : LogGeneration) : CoreMetadata :=
  if (metadata.group groupId).generation = generation then metadata
  else metadata.setGroup groupId { metadata.group groupId with generation }

/-- Takes a recovery plan, which accepts a recovering log as it is. -/
def takePlan (record : RecoveryRecord) : CoreMetadata :=
  let metadata := metadata.setRecovery groupId (some record)
  if (metadata.group groupId).log = .recovering then metadata.setLogState groupId .initialized
  else metadata

/-- Drops a recovery plan, and the replica recovers. -/
def dropPlan : CoreMetadata :=
  (metadata.setRecovery groupId none).setLogState groupId .recovering

/-! ### A group's log state after a change -/

theorem group_setGroup (groupId groupId' : GroupId) (group : GroupMetadata) :
    (metadata.setGroup groupId group).group groupId' =
      if groupId' = groupId then group else metadata.group groupId' := by
  unfold CoreMetadata.group setGroup
  rw [OrdMap.get?_insert]
  split_ifs <;> rfl

@[simp] theorem log_setRecovery (groupId groupId' : GroupId) (recovery : Option RecoveryRecord) :
    ((metadata.setRecovery groupId recovery).group groupId').log =
      (metadata.group groupId').log := by
  unfold setRecovery
  split_ifs with hheld
  · rfl
  rw [group_setGroup]
  split_ifs with hsame
  · rw [hsame]
  · rfl

@[simp] theorem log_setVerifiedEpoch (epoch : ℕ) (groupId : GroupId) :
    ((metadata.setVerifiedEpoch epoch).group groupId).log = (metadata.group groupId).log := rfl

@[simp] theorem log_setVote (groupId groupId' : GroupId) (vote : Vote) :
    ((metadata.setVote groupId vote).group groupId').log = (metadata.group groupId').log := by
  rw [setVote, group_setGroup]
  split_ifs with hsame
  · rw [hsame]
  · rfl

@[simp] theorem log_adoptGeneration (groupId groupId' : GroupId) (generation : LogGeneration) :
    ((metadata.adoptGeneration groupId generation).group groupId').log =
      (metadata.group groupId').log := by
  unfold adoptGeneration
  split_ifs with hsame
  · rfl
  rw [group_setGroup]
  split_ifs with hgroup
  · rw [hgroup]
  · rfl

/-- Recording a first entry changes the state of an empty group only. -/
theorem log_initializeGroup (groupId groupId' : GroupId) (first : GroupLogState) :
    ((metadata.initializeGroup groupId first).group groupId').log = (metadata.group groupId').log ∨
      (metadata.group groupId').log = .empty ∧
        ((metadata.initializeGroup groupId first).group groupId').log = first := by
  unfold initializeGroup
  dsimp only
  split_ifs with hkept
  · rw [group_setGroup]
    split_ifs with hsame
    · subst hsame
      exact .inl rfl
    · exact .inl rfl
  · rw [group_setGroup]
    split_ifs with hsame
    · subst hsame
      exact .inr ⟨by_contra fun hlog => hkept (.inl hlog), rfl⟩
    · exact .inl rfl

/-- A move into recovery makes no group initialized. -/
theorem log_setLogState_recovering (groupId groupId' : GroupId) :
    ((metadata.setLogState groupId .recovering).group groupId').log =
      (metadata.group groupId').log ∨
      ((metadata.setLogState groupId .recovering).group groupId').log = .recovering := by
  unfold setLogState
  cases hgroup : metadata.groups.get? groupId with
  | none => exact .inl rfl
  | some group =>
    dsimp only
    split
    · rw [group_setGroup]
      split_ifs
      · exact .inr rfl
      · exact .inl rfl
    · rw [group_setGroup]
      split_ifs
      · exact .inr rfl
      · exact .inl rfl
    · exact .inl rfl

/-- No group is initialized once all are marked. -/
theorem log_markRecovering :
    (metadata.markRecovering.group groupId).log =
      if (metadata.group groupId).log = .initialized then .recovering
      else (metadata.group groupId).log := by
  unfold markRecovering group
  rw [OrdMap.get?_mapValues]
  cases metadata.groups.get? groupId with
  | none => rfl
  | some group =>
    simp only [Option.map_some, Option.getD_some]
    split_ifs <;> rfl

theorem log_markRecovering_ne : (metadata.markRecovering.group groupId).log ≠ .initialized := by
  rw [log_markRecovering]
  split_ifs with hlog
  · decide
  · exact hlog

end CoreMetadata

end Ursula.Wal

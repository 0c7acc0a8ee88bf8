import Ursula.Lib.Transition
import Ursula.Wal.RunState

/-!
# The runs of one WAL root

A node's WAL root holds the run-state file and a directory for each core. A run reads the run state,
decides how the journals open, moves every core's groups into recovery when they may have lost
writes, syncs the journals when its policy asks for it, and records itself; it then opens cores as
it needs them and writes to the ones it holds open. A run ends by a clean shutdown, a recorded
poisoning, a process crash, a host crash or a remount, and power may be lost between runs.

Of each core's newest segment the model says how many frames are on disk and how many end with an
acknowledged append. The end of a process may cut a frame or the header of a new segment short. A
loss of power keeps the frames on disk and any number of the others, and so does a failed write or
sync, which poisons the run; the groups that were initialized on a core that lost an acknowledged
append then owe a recovery.

## Main definitions

* `Core`, `Core.write`, `Core.openStage`, `Core.drop`: a core's directory, and what happens to it
* `NodeState`, `NodeEvent`, `nodeSystem`: the runs of one root
* `NodeState.Gated`: no group that owes a recovery is initialized on an open core
-/

namespace Ursula.Wal

variable {C : Type}

/-- The number of a core. -/
abbrev CoreId := ℕ

/-! ## Cores -/

/-- A core's directory, and what of its newest segment is on disk and acknowledged. -/
structure Core (C : Type) where
  dir : JournalDir C
  /-- How many frames of the newest segment are on disk. -/
  synced : ℕ
  /-- How many frames of the newest segment there are up to the last acknowledged append. -/
  acked : ℕ
deriving DecidableEq

/-- What a power loss leaves of a core's newest segment: how many frames, at least those on disk,
and what follows them. -/
structure Loss where
  keep : ℕ
  tail : SegmentTail

/-- One change a store asks of its core's writer. -/
inductive CoreWriteOp (C : Type)
  /-- A record of the group's log, and what its first entry records. -/
  | record (groupId : GroupId) (record : RaftGroupLogRecord C) (first : GroupLogState)
  | vote (groupId : GroupId) (vote : Vote)
  /-- The group's recovery gate opened. -/
  | recovered (groupId : GroupId)
  | recovery (groupId : GroupId) (record : Option RecoveryRecord)
  | dropPlan (groupId : GroupId)
  | takePlan (groupId : GroupId) (record : RecoveryRecord)
  | retire (groupId : GroupId)
  | reopen (groupId : GroupId)
  /-- The group's snapshot record, of the generation of the store that publishes it. -/
  | snapshot (groupId : GroupId) (generation : LogGeneration)
  | sync

namespace CoreWriteOp

/-- The group whose recovery the change accepts. -/
def accepts : CoreWriteOp C → Option GroupId
  | .recovered groupId | .takePlan groupId _ => some groupId
  | _ => none

/-- Whether the journal is synced before the change is acknowledged. -/
def requiresSync (fsync : WalFsync) : CoreWriteOp C → Bool
  | .record _ written _ => Wal.requiresSync fsync written
  | .recovery _ _ | .dropPlan _ | .takePlan _ _ | .snapshot _ _ | .sync => true
  | .vote _ _ | .recovered _ | .retire _ | .reopen _ => false

/-- What the change makes of the core's metadata. -/
def metadata (metadata : CoreMetadata) : CoreWriteOp C → CoreMetadata
  | .record groupId written first =>
    if initializes written then metadata.initializeGroup groupId first else metadata
  | .vote groupId granted => metadata.setVote groupId granted
  | .recovered groupId => metadata.setLogState groupId .initialized
  | .recovery groupId plan => metadata.setRecovery groupId plan
  | .dropPlan groupId => metadata.dropPlan groupId
  | .takePlan groupId plan => metadata.takePlan groupId plan
  | .retire groupId => (metadata.retirement groupId).elim metadata (metadata.retire groupId)
  | .reopen groupId => metadata.reopen groupId
  | .snapshot _ _ | .sync => metadata

end CoreWriteOp

/-- Where an open of a journal stops: with a failed read, once the recovery gates of invalid frames
are closed, once the journal is cut, once the metadata is stored, with the header of a new segment
cut short, or with the journal open. -/
inductive OpenStop
  | read
  | gate
  | repair
  | settle
  | create
  | done
deriving DecidableEq

/-- What the end of a process cuts short in an open journal: nothing, the last frame of a write, or
the header of the next segment. -/
inductive CutShort
  | nothing
  | frame
  | header

namespace Core

/-- A core without a directory. -/
def empty : Core C where
  dir := .empty
  synced := 0
  acked := 0

variable (core : Core C)

/-- The metadata the file holds. -/
def metadata : CoreMetadata := core.dir.metadata.getD .default

/-- The core with other metadata; the file is replaced only when it changes. -/
def setMetadata (metadata : CoreMetadata) : Core C :=
  if core.metadata = metadata then core
  else { core with dir := { core.dir with metadata := some metadata } }

/-- The frames of the newest segment. -/
def newest : List (CoreJournalRecord C) :=
  (core.dir.segments.getLast?.map Segment.frames).getD []

/-- The core with its newest segment changed. -/
def modifyNewest (change : Segment C → Segment C) : Core C :=
  match core.dir.segments.getLast? with
  | none => core
  | some segment =>
    { core with dir := { core.dir with segments :=
      core.dir.segments.dropLast ++ [change segment] } }

/-- Whether some segment holds anything beyond its header. -/
def holdsRecords : Bool :=
  core.dir.segments.any fun segment =>
    segment.header ∧ (segment.frames ≠ [] ∨ segment.tail ≠ .clean)

/-- Puts the newest segment on disk. -/
def sync : Core C := { core with synced := core.newest.length }

/-- Moves every initialized group into recovery. -/
def markRecovering : Core C := core.setMetadata core.metadata.markRecovering

/-- Writes the frame of a record, in the group's generation. -/
def appendFrame (groupId : GroupId) (record : RaftGroupLogRecord C) : Core C :=
  core.modifyNewest fun segment => { segment with
    frames := segment.frames ++ [⟨groupId, (core.metadata.group groupId).generation, record⟩] }

/-- Writes the frames of a batch. -/
def appendFrames (records : List (GroupId × RaftGroupLogRecord C)) : Core C :=
  records.foldl (fun core record => core.appendFrame record.1 record.2) core

/-- Acknowledges an append that ends the journal. -/
def acknowledge : Core C := { core with acked := core.newest.length }

/-- Writes one change and acknowledges it: the frame, the sync that the change and the policy ask
for, and the metadata. -/
def write (fsync : WalFsync) (op : CoreWriteOp C) : Core C :=
  let written : Core C :=
    match op with
    | .record groupId record _ => core.appendFrame groupId record
    | _ => core
  let stored := (if op.requiresSync fsync then written.sync else written).setMetadata
    (op.metadata core.metadata)
  match op with
  | .record _ (.append _) _ => stored.acknowledge
  | .retire groupId =>
    if (core.metadata.retirement groupId).isSome then
      { stored with dir := { stored.dir with snapshots := stored.dir.snapshots.erase groupId } }
    else stored
  | .snapshot groupId generation =>
    { stored with dir :=
      { stored.dir with snapshots := stored.dir.snapshots.insert groupId (some generation) } }
  | _ => stored

/-- Seals the newest segment, which puts it on disk, and starts the next one, with its header or
with the header cut short. -/
def rotate (header : Bool) : Core C :=
  match core.dir.segments.getLast? with
  | none => core
  | some segment =>
    { core with
      dir := { core.dir with
        segments := core.dir.segments ++ [⟨segment.id + 1, header, [], .clean⟩] }
      synced := 0
      acked := 0 }

/-- What the end of a process leaves of the journal. -/
def cutShort : CutShort → Core C
  | .nothing => core
  | .frame => core.modifyNewest fun segment => { segment with tail := .incomplete }
  | .header => core.rotate false

/-- What a loss of the frames that are not on disk leaves. -/
def drop (loss : Loss) : Core C :=
  let kept := core.modifyNewest fun segment =>
    { segment with frames := segment.frames.take (max loss.keep core.synced), tail := loss.tail }
  { kept with acked := min core.acked kept.newest.length }

/-- Whether a loss takes an acknowledged append. -/
def loses (loss : Loss) : Bool := (core.drop loss).newest.length < core.acked

/-- The core once the newest segment exists. -/
def activate (cut : Cut) (header : Bool) : Core C :=
  if core.dir.segments = [] then
    let start := match cut with
      | .tornNewest segment => segment
      | _ => 1
    { core with dir := { core.dir with segments := [⟨start, header, [], .clean⟩] } }
  else core

/-- The core once its journal is cut. A segment without its header goes, and the one before it was
put on disk when it was sealed. -/
def repair (scan : Scan C) : Core C :=
  let kept : Core C := { core with dir := core.dir.repaired scan }
  match scan.cut with
  | .tornNewest _ => { kept with synced := kept.newest.length, acked := kept.newest.length }
  | .none | .truncate _ => kept

/-- The core once its metadata is stored. A verified prefix is written again before, so all of it is
on disk. -/
def settle [LogFormat C] (scan : Scan C) (options : OpenOptions)
    (logs : OrdMap GroupId (GroupLog C)) : Core C :=
  let settled := { core.repair scan with dir := core.dir.settled scan options logs }
  if scan.invalidTail ∨
      coreReplayMode core.metadata.verifiedEpoch options.recoveryEpoch = .verifiedPrefix then
    settled.sync
  else settled

/-- An open of the journal up to `stop`. -/
def openStage [LogFormat C] (options : OpenOptions) (stop : OpenStop) :
    Except OpenError (Core C) := do
  let scan ← core.dir.scan options.cacheBytes
  match stop with
  | .read => .ok core
  | .gate => .ok { core with dir := core.dir.gated scan }
  | .repair => .ok (core.repair scan)
  | .settle => return core.settle scan options (← scan.finish)
  | .create => return (core.settle scan options (← scan.finish)).activate scan.cut false
  | .done => return (core.settle scan options (← scan.finish)).activate scan.cut true

end Core

/-! ## Runs -/

/-- Where a run of the root stands: no process, a start that still has cores to move into recovery
and journals to sync, or a recorded run with the cores it holds open. -/
inductive Phase
  | down
  | starting (fsync : WalFsync) (opening : WalOpening) (mark sync : List CoreId)
  | running (fsync : WalFsync) (opening : WalOpening) (opened : Finset CoreId)

/-- A WAL root, its host and its process. -/
structure NodeState (C : Type) where
  /-- The host's boot, where the platform reports one. -/
  bootId : Option BootId
  /-- The device the root is mounted from. -/
  device : ℕ
  runState : Option RunState
  cores : OrdMap CoreId (Core C)
  phase : Phase
  /-- The groups that owe a recovery: initialized when their core lost an acknowledged append, and
  not accepted since. -/
  owed : Finset (CoreId × GroupId)

/-- What happens to a root. -/
inductive NodeEvent (C : Type)
  | start (fsync : WalFsync)
  | startStep
  | openCore (core : CoreId) (stop : OpenStop)
  | write (core : CoreId) (op : CoreWriteOp C)
  /-- The frames of a batch are written that is not acknowledged. -/
  | batch (core : CoreId) (records : List (GroupId × RaftGroupLogRecord C))
  | rotate (core : CoreId)
  | closeCore (core : CoreId)
  | shutdown
  /-- A write or a sync failed, and the run recorded it. -/
  | poison (cuts : CoreId → CutShort) (losses : CoreId → Loss)
  | processCrash (cuts : CoreId → CutShort)
  | powerLoss (losses : CoreId → Loss)
  | remount (losses : CoreId → Loss)

namespace NodeState

/-- A root that holds nothing. -/
def new (bootId : Option BootId) (device : ℕ) : NodeState C where
  bootId := bootId
  device := device
  runState := none
  cores := ∅
  phase := .down
  owed := ∅

variable (state : NodeState C)

/-- What the journals say about the runs before. -/
def history : JournalHistory :=
  .of (state.cores.values.any Core.holdsRecords)
    ((state.cores.values.map fun core => core.metadata.verifiedEpoch).foldr max 0)

/-- What the run-state file says of a run. -/
def recordOf (fsync : WalFsync) (opening : WalOpening) (status : RunStatus) : RunState where
  bootId := state.bootId
  status := status
  fsync := fsync
  recoveryEpoch := opening.recoveryEpoch
  device := state.device

/-- The cores held open. -/
def opened : Finset CoreId :=
  match state.phase with
  | .running _ _ opened => opened
  | .down | .starting .. => ∅

/-- The root whose process ends: the journals it held open may be cut short. -/
def cutShort (cuts : CoreId → CutShort) : NodeState C :=
  { state with cores := state.cores.mapValues fun id core =>
      if id ∈ state.opened then core.cutShort (cuts id) else core }

/-- The groups recorded initialized on the cores that lose an acknowledged append. -/
def losing (losses : CoreId → Loss) : Finset (CoreId × GroupId) :=
  (state.cores.entries.flatMap fun entry =>
    if entry.2.loses (losses entry.1) then
      (entry.2.metadata.groups.keys.filter fun groupId =>
        (entry.2.metadata.group groupId).log = .initialized).map (entry.1, ·)
    else []).toFinset

/-- The root without a process, once its cores lost what `losses` says. -/
def lose (losses : CoreId → Loss) : NodeState C :=
  { state with
    cores := state.cores.mapValues fun id core => core.drop (losses id)
    phase := .down
    owed := state.owed ∪ state.losing losses }

/-- The root after a loss of power: what the journals still hold is on disk. -/
def losePower (losses : CoreId → Loss) : NodeState C :=
  { state.lose losses with
    cores := (state.lose losses).cores.mapValues fun _ core => core.sync }

/-- Begins a run with this policy: decides how the journals open. -/
def beginRun (fsync : WalFsync) : NodeState C :=
  match WalOpening.decide state.runState state.history state.bootId state.device fsync with
  | .error _ => state
  | .ok opening =>
    { state with
      phase := .starting fsync opening
        (if opening.recovery = .recovering then state.cores.keys else [])
        (if opening.journalSync = .beforeRecording then state.cores.keys else []) }

/-- The next step of a start: one core into recovery, one journal synced, or the run recorded. -/
def stepStart : NodeState C :=
  match state.phase with
  | .starting fsync opening (core :: mark) sync =>
    { state with
      cores := state.cores.modify core Core.markRecovering
      phase := .starting fsync opening mark sync }
  | .starting fsync opening [] (core :: sync) =>
    { state with
      cores := state.cores.modify core Core.sync
      phase := .starting fsync opening [] sync }
  | .starting fsync opening [] [] =>
    { state with
      runState := some (state.recordOf fsync opening .running)
      phase := .running fsync opening ∅ }
  | .down | .running .. => state

/-- Opens a core's journal up to `stop`. An open that fails leaves the directory. -/
def openCore [LogFormat C] (cacheBytes : ℕ) (id : CoreId) (stop : OpenStop) : NodeState C :=
  match state.phase with
  | .running fsync opening opened =>
    let core := (state.cores.get? id).getD .empty
    match core.openStage ⟨opening.recoveryEpoch, opening.recovery, cacheBytes⟩ stop with
    | .error _ => { state with cores := state.cores.insert id core }
    | .ok core =>
      { state with
        cores := state.cores.insert id core
        phase := .running fsync opening (if stop = .done then insert id opened else opened) }
  | .down | .starting .. => state

/-- Writes one change to an open core. -/
def writeCore (id : CoreId) (op : CoreWriteOp C) : NodeState C :=
  match state.phase with
  | .running fsync _ _ =>
    { state with
      cores := state.cores.modify id fun core => core.write fsync op
      owed := state.owed.filter fun owed => ¬ (owed.1 = id ∧ op.accepts = some owed.2) }
  | .down | .starting .. => state

/-- Closes a core's writer, which syncs its journal. -/
def closeCore (id : CoreId) : NodeState C :=
  match state.phase with
  | .running fsync opening opened =>
    { state with
      cores := state.cores.modify id Core.sync
      phase := .running fsync opening (opened.erase id) }
  | .down | .starting .. => state

/-- Ends the run with this status recorded. -/
def endRun (status : RunStatus) : NodeState C :=
  match state.phase with
  | .running fsync opening _ =>
    { state with runState := some (state.recordOf fsync opening status), phase := .down }
  | .down | .starting .. => state

/-- No group that owes a recovery is initialized on a core that is open. -/
def Gated : Prop :=
  ∀ owed ∈ state.owed, owed.1 ∈ state.opened → ∀ core, state.cores.get? owed.1 = some core →
    (core.metadata.group owed.2).log = .recovering ∨ (core.metadata.group owed.2).log = .retired

end NodeState

/-- The runs of one root. Archived appends are written by rewrites only; a clean shutdown comes
after every open core is closed. -/
def nodeSystem [LogFormat C] (cacheBytes : ℕ) : ActionSystem (NodeState C) (NodeEvent C) where
  Enabled state
    | .start _ => state.phase = .down
    | .startStep => ∃ fsync opening mark sync, state.phase = .starting fsync opening mark sync
    | .openCore core _ =>
      ∃ fsync opening opened, state.phase = .running fsync opening opened ∧ core ∉ opened
    | .write core op => core ∈ state.opened ∧
      ∀ groupId record first, op = .record groupId record first →
        (∀ frozen, record ≠ .frozenAppend frozen) ∧ (first = .initialized ∨ first = .recovering)
    | .batch core records => core ∈ state.opened ∧
      ∀ record ∈ records, ∀ frozen, record.2 ≠ .frozenAppend frozen
    | .rotate core | .closeCore core => core ∈ state.opened
    | .shutdown => ∃ fsync opening, state.phase = .running fsync opening ∅
    | .poison _ _ => ∃ fsync opening opened, state.phase = .running fsync opening opened
    | .processCrash _ => state.phase ≠ .down
    | .powerLoss _ | .remount _ => True
  act state
    | .start fsync => state.beginRun fsync
    | .startStep => state.stepStart
    | .openCore core stop => state.openCore cacheBytes core stop
    | .write core op => state.writeCore core op
    | .batch core records =>
      { state with cores := state.cores.modify core fun core => core.appendFrames records }
    | .rotate core => { state with cores := state.cores.modify core fun core => core.rotate true }
    | .closeCore core => state.closeCore core
    | .shutdown => state.endRun .clean
    | .poison cuts losses => ((state.cutShort cuts).endRun .poisoned).lose losses
    | .processCrash cuts => { state.cutShort cuts with phase := .down }
    | .powerLoss losses => { state.losePower losses with bootId := state.bootId.map (· + 1) }
    | .remount losses => { state.losePower losses with device := state.device + 1 }

end Ursula.Wal

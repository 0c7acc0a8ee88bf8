import Ursula.Wal.CoreMeta
import Mathlib.Data.Finset.Option

/-!
# A core journal on disk, and how it opens

A core's directory holds the segments of its journal, oldest first, the archives its records refer
to, the metadata file and a snapshot record for some groups. An open reads every segment in order:
all but the newest strictly, the newest up to its last verified frame. Each group's log is rebuilt
from the records of one generation; what the read found then goes into the metadata file.

## Main definitions

* `Segment`, `ArchiveFile`, `JournalDir`: what a core's directory holds
* `selected`: the entries an archive reference names
* `ReplayGenerations`, `Replay.visit`: the logs a read builds
* `JournalDir.scan`: the read of every segment
* `JournalDir.gated`, `repaired`, `settled`: the three changes an open makes, in order
-/

namespace Ursula.Wal

variable {C : Type}

/-! ## The directory -/

/-- What follows the verified frames of a segment. -/
inductive SegmentTail
  | clean
  /-- The last write is cut short. -/
  | incomplete
  /-- A complete frame does not verify. -/
  | unverified
deriving DecidableEq

/-- One segment file. -/
structure Segment (C : Type) where
  id : SegmentId
  /-- Whether the file holds a complete header. -/
  header : Bool
  frames : List (CoreJournalRecord C)
  tail : SegmentTail
deriving DecidableEq

/-- The file of one archive: the segment its entries were copied from, and the one record it
holds. -/
structure ArchiveFile (C : Type) where
  sequence : SegmentId
  record : CoreJournalRecord C
deriving DecidableEq

/-- A core journal's directory. -/
structure JournalDir (C : Type) where
  segments : List (Segment C)
  archives : List (ArchiveId × ArchiveFile C)
  metadata : Option CoreMetadata
  /-- The generation each group's snapshot record names, when it reads. -/
  snapshots : OrdMap GroupId (Option LogGeneration)
deriving DecidableEq

/-- A directory that holds nothing. -/
def JournalDir.empty : JournalDir C where
  segments := []
  archives := []
  metadata := none
  snapshots := ∅

/-- The length of a segment's header. -/
def journalHeaderLen : ℕ := 32

/-- The most bytes a frame's payload takes. -/
def maxFramePayloadBytes : ℕ := 512 * 1024 * 1024

/-- The length of an archive's file: a header and one frame. -/
def ArchiveFile.byteLen [LogFormat C] (file : ArchiveFile C) : ℕ :=
  journalHeaderLen + frameHeaderLen + LogFormat.encodedLen file.record

/-- The frames from `offset` on, with their places. -/
def frameLocs [LogFormat C] (offset : ℕ) :
    List (CoreJournalRecord C) → List (FrameLoc × CoreJournalRecord C)
  | [] => []
  | record :: rest =>
    let loc : FrameLoc := ⟨offset, LogFormat.encodedLen record⟩
    (loc, record) :: frameLocs (offset + loc.fileBytes) rest

/-- A segment's frames with their positions. -/
def Segment.placed [LogFormat C] (segment : Segment C) : List (FramePos × CoreJournalRecord C) :=
  (frameLocs journalHeaderLen segment.frames).map fun frame => (⟨segment.id, frame.1⟩, frame.2)

/-! ## Errors -/

/-- Why an archive reference does not resolve. -/
inductive ArchiveDefect
  | missing
  /-- Its length differs from the reference, or is more than a frame takes. -/
  | length
  /-- Its checksum or content hash differs from the reference. -/
  | checksum
  /-- It does not hold exactly the group and the entries it names. -/
  | content
deriving DecidableEq

/-- Why a journal does not open. -/
inductive OpenError
  | missingSegment (previous found : SegmentId)
  | tornHeader (segment : SegmentId)
  | incompleteSealedSegment (segment : SegmentId)
  | corruptFrame (segment : SegmentId)
  | frozenArchive (archive : ArchiveId) (defect : ArchiveDefect)
  | rejected (pos : FramePos) (source : LogError)
  | inconsistentLog (group : GroupId) (source : LogError)
deriving DecidableEq

/-! ## Archives -/

/-- The entries of the archive `reference` names, for a record of `group` in `generation`. -/
def readArchive [LogFormat C] (archives : List (ArchiveId × ArchiveFile C)) (group : GroupId)
    (generation : LogGeneration) (reference : ArchiveRef) :
    Except ArchiveDefect (List (Entry C)) :=
  match archives.lookup reference.id with
  | none => .error .missing
  | some file =>
    if maxFramePayloadBytes + 1024 < file.byteLen ∨ file.byteLen ≠ reference.bytes then
      .error .length
    else if LogFormat.checksum file.sequence file.record ≠ reference.checksum ∨
        LogFormat.contentHash file.sequence file.record ≠ reference.id.contentHash then
      .error .checksum
    else
      match file.record.record with
      | .append entries =>
        if file.sequence = reference.id.segment ∧ group = reference.id.groupId ∧
            file.record.groupId = group ∧ file.record.generation = generation ∧
            entries.head?.map Entry.index = some reference.id.firstIndex ∧
            entries.getLast?.map Entry.index = some reference.id.lastIndex ∧
            ensureConsecutiveEntries entries = .ok () then
          .ok entries
        else .error .content
      | _ => .error .content

/-- The entries with exactly these ids, in order. -/
def selectEntries : List LogId → List (Entry C) → Option (List (Entry C))
  | [], _ => some []
  | expected :: rest, entries =>
    match entries.dropWhile fun entry => entry.index < expected.index with
    | entry :: entries =>
      if entry.logId = expected then (selectEntries rest entries).map (entry :: ·) else none
    | [] => none

/-- The live entries an archive reference names. -/
def selected [LogFormat C] (archives : List (ArchiveId × ArchiveFile C)) (group : GroupId)
    (generation : LogGeneration) (frozen : FrozenAppend) :
    Except ArchiveDefect (List (Entry C)) := do
  (if frozen.logIds = [] ∨ ¬ (frozen.logIds.map fun logId => logId.index).IsChain (· < ·) then
    .error .content
  else .ok ())
  let entries ← readArchive archives group generation frozen.archive
  match selectEntries frozen.logIds entries with
  | some entries => .ok entries
  | none => .error .content

/-! ## Generations -/

/-- Which generation of each group's log a replay keeps: the one the metadata names, none of a
retired log, or without metadata the highest found so far. -/
inductive ReplayGenerations
  | named (groups : OrdMap GroupId (Option LogGeneration))
  | highest (groups : OrdMap GroupId LogGeneration)

/-- What replay does with one record, by its generation. -/
inductive ReplayRecord
  | keep
  | skip
  | replace
deriving DecidableEq

namespace ReplayGenerations

/-- The rule for a replay with this metadata file. -/
def of : Option CoreMetadata → ReplayGenerations
  | none => .highest ∅
  | some metadata =>
    .named (metadata.groups.mapValues fun _ group =>
      if group.log = .retired then none else some group.generation)

/-- Counts the generation of a group's snapshot record, before the frames replay. -/
def seed (groupId : GroupId) (generation : LogGeneration) : ReplayGenerations → ReplayGenerations
  | .named groups => .named groups
  | .highest groups =>
    .highest (groups.insert groupId (max ((groups.get? groupId).getD generation) generation))

/-- What replay does with a record of a group and generation. -/
def admitRecord (groupId : GroupId) (generation : LogGeneration) :
    ReplayGenerations → ReplayGenerations × ReplayRecord
  | .named groups =>
    (.named groups,
      if (groups.get? groupId).getD (some 0) = some generation then .keep else .skip)
  | .highest groups =>
    match groups.get? groupId with
    | none => (.highest (groups.insert groupId generation), .keep)
    | some kept =>
      if kept = generation then (.highest groups, .keep)
      else if generation < kept then (.highest groups, .skip)
      else (.highest (groups.insert groupId generation), .replace)

/-- The generations that a journal without metadata shows. -/
def adopted : ReplayGenerations → List (GroupId × LogGeneration)
  | .named _ => []
  | .highest groups => groups.entries

end ReplayGenerations

/-! ## Replay -/

/-- What a read has built so far. -/
structure Replay (C : Type) where
  logs : OrdMap GroupId (GroupLog C)
  generations : ReplayGenerations
  /-- Every group a frame was read of. -/
  replayed : Finset GroupId
  /-- Segments that hold frames of a generation replay does not keep. -/
  dead : Finset SegmentId

namespace GroupLog

/-- Every segment that holds a frame of the log. -/
def deadSegments (log : GroupLog C) : Finset SegmentId :=
  log.died ∪ log.live.keys.toFinset ∪ log.committedAt.toFinset ∪ log.purgedAt.toFinset

end GroupLog

namespace Replay

variable [LogFormat C] (archives : List (ArchiveId × ArchiveFile C)) (cacheBytes : ℕ)

/-- Applies one record to a log that replay rebuilds. -/
def applyTo (log : GroupLog C) (pos : FramePos) (record : CoreJournalRecord C) :
    Except OpenError (GroupLog C) :=
  match record.record with
  | .frozenAppend frozen =>
    match selected archives record.groupId record.generation frozen with
    | .error defect => .error (.frozenArchive frozen.archive.id defect)
    | .ok entries => (log.applyArchived entries pos).mapError (.rejected pos)
  | other => (log.apply other pos .replay).mapError (.rejected pos)

/-- Replays one frame. -/
def visit (replay : Replay C) (pos : FramePos) (record : CoreJournalRecord C) :
    Except OpenError (Replay C) := do
  let (generations, admitted) := replay.generations.admitRecord record.groupId record.generation
  let replay := { replay with generations, replayed := insert record.groupId replay.replayed }
  match admitted with
  | .skip => .ok { replay with dead := insert pos.segment replay.dead }
  | .keep =>
    let log := (replay.logs.get? record.groupId).getD (.replaying cacheBytes)
    let log ← applyTo archives log pos record
    .ok { replay with logs := replay.logs.insert record.groupId log }
  | .replace =>
    let older := (replay.logs.get? record.groupId).elim ∅ GroupLog.deadSegments
    let log ← applyTo archives (.replaying cacheBytes) pos record
    .ok { replay with
      logs := replay.logs.insert record.groupId log
      dead := replay.dead ∪ older }

/-- Reads frames in order. -/
def visitAll : List (FramePos × CoreJournalRecord C) → Replay C → Except OpenError (Replay C)
  | [], replay => .ok replay
  | (pos, record) :: rest, replay => do
    let replay ← visit archives cacheBytes replay pos record
    visitAll rest replay

end Replay

/-! ## The read of every segment -/

/-- How the read of the segments ended, before anything changes on disk. -/
inductive Cut
  | none
  | truncate (tail : SegmentTail)
  | tornNewest (segment : SegmentId)
deriving DecidableEq

/-- What a read found. -/
structure Scan (C : Type) where
  /-- The segments kept, without what follows their verified frames. -/
  kept : List (Segment C)
  cut : Cut
  replay : Replay C

/-- Fails unless a segment follows the last one kept. -/
def checkSequence (kept : List (Segment C)) (segment : Segment C) : Except OpenError Unit :=
  match kept.getLast? with
  | some previous =>
    if previous.id + 1 = segment.id then .ok ()
    else .error (.missingSegment previous.id segment.id)
  | none => .ok ()

/-- Reads the segments in order; `kept` holds the ones read so far. -/
def scanSegments [LogFormat C] (archives : List (ArchiveId × ArchiveFile C)) (cacheBytes : ℕ) :
    List (Segment C) → List (Segment C) → Replay C → Except OpenError (Scan C)
  | kept, [], replay => .ok ⟨kept, .none, replay⟩
  | kept, segment :: rest, replay => do
    checkSequence kept segment
    if segment.header then
      let replay ← Replay.visitAll archives cacheBytes segment.placed replay
      match segment.tail, rest with
      | .clean, _ => scanSegments archives cacheBytes (kept ++ [segment]) rest replay
      | tail, [] => .ok ⟨kept ++ [{ segment with tail := .clean }], .truncate tail, replay⟩
      | .incomplete, _ => .error (.incompleteSealedSegment segment.id)
      | .unverified, _ => .error (.corruptFrame segment.id)
    else if rest = [] then .ok ⟨kept, .tornNewest segment.id, replay⟩
    else .error (.tornHeader segment.id)

namespace JournalDir

variable [LogFormat C] (dir : JournalDir C)

/-- The snapshot records an open reads: none of a group the metadata names held, at the first
generation. -/
def snapshotRecords : List (GroupId × Option LogGeneration) :=
  dir.snapshots.entries.filter fun snapshot =>
    match dir.metadata with
    | none => true
    | some metadata =>
      let group := metadata.group snapshot.1
      ¬ (group.generation = 0 ∧ (group.log = .initialized ∨ group.log = .recovering))

/-- Where a read starts: the generations of the metadata, and of the snapshot records. -/
def startReplay : Replay C where
  logs := ∅
  generations := dir.snapshotRecords.foldl
    (fun generations snapshot => match snapshot.2 with
      | some generation => generations.seed snapshot.1 generation
      | none => generations)
    (.of dir.metadata)
  replayed := ∅
  dead := ∅

/-- Reads every segment of the directory. -/
def scan (cacheBytes : ℕ) : Except OpenError (Scan C) :=
  scanSegments dir.archives cacheBytes [] dir.segments dir.startReplay

end JournalDir

/-! ## What an open changes -/

/-- Whether complete frames of the newest segment do not verify. -/
def Scan.invalidTail (scan : Scan C) : Bool := scan.cut = .truncate .unverified

/-- The metadata with the generations replay kept. -/
def Scan.adopt (scan : Scan C) (metadata : CoreMetadata) : CoreMetadata :=
  scan.replay.generations.adopted.foldl
    (fun metadata group => metadata.adoptGeneration group.1 group.2) metadata

/-- The metadata with the recovery gates closed, before complete invalid frames are cut. -/
def Scan.gate (scan : Scan C) (metadata : CoreMetadata) : CoreMetadata :=
  (scan.replay.replayed.ascending.foldl
    (fun metadata group => metadata.initializeGroup group .recovering)
    (scan.adopt metadata)).markRecovering

variable (logs : OrdMap GroupId (GroupLog C))

/-- The finished logs with one more group's. -/
def finishLog (entry : GroupId × GroupLog C) :
    Except OpenError (OrdMap GroupId (GroupLog C)) :=
  match entry.2.finishReplay with
  | .ok log => .ok (logs.insert entry.1 log)
  | .error source => .error (.inconsistentLog entry.1 source)

/-- The logs after replay, each consecutive. -/
def Scan.finish (scan : Scan C) : Except OpenError (OrdMap GroupId (GroupLog C)) :=
  scan.replay.logs.entries.foldlM finishLog ∅

/-- Whether a node's logs may be missing entries it acknowledged. -/
inductive RecoveryState
  | normal
  | recovering
deriving DecidableEq

/-- How a journal's tail is read. -/
inductive JournalReplayMode
  | strict
  | verifiedPrefix
deriving DecidableEq

/-- How a journal is read: as a verified prefix when it was not read since its epoch began. -/
def coreReplayMode (verifiedEpoch recoveryEpoch : ℕ) : JournalReplayMode :=
  if verifiedEpoch < recoveryEpoch then .verifiedPrefix else .strict

/-- What the run asks of an open. -/
structure OpenOptions where
  recoveryEpoch : ℕ
  nodeRecovery : RecoveryState
  cacheBytes : ℕ

/-- Settles the snapshot records: an empty group whose record is of its generation recovers. -/
def settleSnapshots (records : List (GroupId × Option LogGeneration)) (metadata : CoreMetadata) :
    CoreMetadata :=
  records.foldl (fun metadata snapshot =>
    let group := metadata.group snapshot.1
    if group.log = .empty ∧ snapshot.2.all (fun generation => generation = group.generation) then
      metadata.initializeGroup snapshot.1 .recovering
    else metadata) metadata

/-- Whether a group's snapshot record restores nothing: it is of another generation than the
metadata names, or of a retired log. -/
def inertSnapshot (metadata : CoreMetadata) (groupId : GroupId)
    (generation : Option LogGeneration) : Bool :=
  (metadata.group groupId).log = .retired ∨
    generation.any fun generation => generation ≠ (metadata.group groupId).generation

/-- Whether an open of a journal with this metadata file finds it damaged: without a file, with
complete invalid frames, or not read since its epoch began. -/
def Scan.damaged (scan : Scan C) (file : Option CoreMetadata) (options : OpenOptions) : Bool :=
  file.isNone || scan.invalidTail ||
    coreReplayMode (file.getD .default).verifiedEpoch options.recoveryEpoch = .verifiedPrefix

/-- The metadata with every group whose journal holds a log recorded, and without a metadata file
every group a frame was read of. -/
def initializeHeld (missing : Bool) (first : GroupLogState) (metadata : CoreMetadata) :
    CoreMetadata :=
  logs.entries.foldl (fun metadata entry =>
    if entry.2.holdsLog ∨ missing then metadata.initializeGroup entry.1 first else metadata)
      metadata

/-- The metadata with every group in recovery that is initialized but whose journal holds none of
its log. -/
def recoverLost (metadata : CoreMetadata) : CoreMetadata :=
  (metadata.groups.keys.filter fun group =>
    (metadata.group group).log = .initialized ∧ ¬ (logs.get? group).any GroupLog.holdsLog).foldl
    (fun metadata group => metadata.setLogState group .recovering) metadata

/-- The metadata an open settles on, from what the read found, the logs and the metadata so far. -/
def Scan.settle (scan : Scan C) (file : Option CoreMetadata) (options : OpenOptions)
    (snapshots : List (GroupId × Option LogGeneration)) (logs : OrdMap GroupId (GroupLog C))
    (metadata : CoreMetadata) : CoreMetadata :=
  let damaged := scan.damaged file options
  let repaired : GroupLogState :=
    if options.nodeRecovery = .normal ∧ damaged = false then .initialized else .recovering
  let metadata := scan.adopt (metadata.setVerifiedEpoch options.recoveryEpoch)
  let metadata := initializeHeld logs file.isNone repaired metadata
  let metadata := if damaged then metadata.markRecovering else metadata
  settleSnapshots snapshots (recoverLost logs metadata)

namespace JournalDir

variable [LogFormat C] (dir : JournalDir C)

/-- The directory once the recovery gates of complete invalid frames are closed. -/
def gated (scan : Scan C) : JournalDir C :=
  if scan.invalidTail then
    { dir with metadata := some (scan.gate (dir.metadata.getD .default)) }
  else dir

/-- The directory once its journal is cut after its verified frames. -/
def repaired (scan : Scan C) : JournalDir C :=
  { dir.gated scan with segments := scan.kept }

/-- The directory once its metadata is settled and inert snapshot records are deleted. The metadata
file is replaced only when it changes. -/
def settled (scan : Scan C) (options : OpenOptions) (logs : OrdMap GroupId (GroupLog C)) :
    JournalDir C :=
  let before := (dir.repaired scan).metadata
  let metadata :=
    scan.settle dir.metadata options dir.snapshotRecords logs (before.getD .default)
  { dir.repaired scan with
    metadata := if before.getD .default = metadata then before else some metadata
    snapshots := dir.snapshots.filter fun groupId generation =>
      ¬ ((groupId, generation) ∈ dir.snapshotRecords ∧
        inertSnapshot metadata groupId generation) }

end JournalDir

end Ursula.Wal

import Ursula.Stream.Command
import Ursula.Stream.Text
import Ursula.Stream.UsageLedger

/-!
# The state machine of a group

The state of one group and the operations its commands share: shared-object references, the hot
index, creation times, histories, the usage hooks and the removal of a stream. A slot is changed in
place by writing it back under its own name (`putSlot`).

The flush planner's rotation cursor and hot ages are local to a leader's planning pass and no
command reads them, so the model keeps the planner's hot index only.

## Main definitions

* `StreamStateMachine`: the state of a group
* `StreamStateMachine.releaseSharedColdObjects`: drops references and queues what is unreferenced
* `StreamStateMachine.tokenOf`: a stream's token
* `StreamStateMachine.usageOnCreate`, `usageOnAppend`, `usageOnSizeChange`, `usageOnEnd`: every
  change of committed usage
* `StreamStateMachine.bucketUsageReport`: each bucket's usage, derived from its parts
* `StreamStateMachine.removeStreamState`: the one removal of a stream
-/

namespace Ursula

open Word64

/-- What a state machine removed since it was built or restored. -/
structure RemovedState where
  streams : ℕ
  endRecords : ℕ
  endRecordsEarly : ℕ
  bytes : ℕ
deriving DecidableEq

/-- The state of one group. -/
structure StreamStateMachine where
  buckets : OrdSet String
  erasedBuckets : OrdSet String
  registry : StreamRegistry
  hotPayloadBytes : ℕ
  coldGc : ColdGcQueue
  sharedColdObjectRefs : OrdMap String ℕ
  usage : UsageLedger
  /-- The flush planner's index of streams that hold hot bytes. -/
  hotStreams : OrdSet BucketStreamId
  lastCreatedAtMs : ℕ
  history : Option HistoryEvent
  removed : RemovedState

/-- The fixed allowance of a command in the log. -/
def commandLogOverheadBytes : ℕ := 128

/-- What an end record adds to a group snapshot beside its stream id. -/
def endRecordFixedBytes : ℕ := 128

/-! ## Streams and their expiry -/

/-- Moves a stream's expiry to its time to live after `nowMs`, never earlier. -/
def renewStreamTtl (stream : StreamMetadata) (nowMs : ℕ) : StreamMetadata :=
  if stream.streamTtlSeconds.isSome ∧ stream.streamExpiresAtMs.isNone then
    { stream with lastTtlTouchAtMs := max stream.lastTtlTouchAtMs nowMs }
  else
    stream

@[simp] theorem renewStreamTtl_streamId (stream : StreamMetadata) (nowMs : ℕ) :
    (renewStreamTtl stream nowMs).streamId = stream.streamId := by
  unfold renewStreamTtl
  split_ifs <;> rfl

/-- The records an accepted append commits. -/
def appendedRecordCount (jsonMessages payloadLen : ℕ) : ℕ :=
  if jsonMessages > 0 then jsonMessages else if payloadLen > 0 then 1 else 0

/-- The status of a stream that was or was not closed. -/
def statusFromClosed (closed : Bool) : StreamStatus := if closed then .closed else .open

/-- The bytes between the retained offset and the tail. -/
def retainedBytes (slot : StreamSlot) : ℕ := slot.metadata.tailOffset - slot.retainedOffset

/-- What an end record adds to a group snapshot. -/
def endRecordBytes (record : EndRecord) : ℕ :=
  satAdd (record.streamId.bucketId.utf8ByteSize + record.streamId.streamId.utf8ByteSize)
    endRecordFixedBytes

/-! ## Histories -/

/-- The id of a group's latest history event, 0 before its genesis. -/
def historyIdOf : Option HistoryEvent → ℕ
  | none => 0
  | some event => event.id

/-- Whether a stream whose bytes last changed in `streamHistory` was written since its group's
latest history event, `groupHistory`. -/
def writtenSinceEvent (streamHistory groupHistory : ℕ) : Bool := streamHistory = groupHistory

namespace StreamSlot

/-- The first write after a history event records what the stream's current history began from. -/
def inheritHistory (slot : StreamSlot) (group : ℕ) : StreamSlot :=
  if ¬ writtenSinceEvent slot.history group then
    { slot with
      inherited := some { history := slot.history, offset := slot.metadata.tailOffset }
      usage := { slot.usage with historyBaseline := slot.usage.counters }
      history := group }
  else
    slot

/-- The version's counters when the group's history `group` began for it. -/
def historyBaselineIn (slot : StreamSlot) (group : ℕ) : VersionCounters :=
  if writtenSinceEvent slot.history group then slot.usage.historyBaseline else slot.usage.counters

/-- The end record of a slot that ended as `reason` at `nowMs` in a group of the given history,
stamped `seq`. -/
def endRecord (slot : StreamSlot) (history : Option HistoryEvent) (reason : StreamEnd)
    (nowMs seq : ℕ) : EndRecord where
  seq := seq
  streamId := slot.id
  createdAtMs := slot.metadata.createdAtMs
  countedSince := slot.usage.countedSince
  endedIn :=
    match history with
    | none => slot.usage.countedSince
    | some event => event.id
  «end» := reason
  endedAtMs := nowMs
  counters := slot.usage.counters
  historyBaseline := slot.historyBaselineIn (historyIdOf history)
  lastWrite := slot.usage.lastWrite

end StreamSlot

namespace StreamStateMachine

/-- A group before its genesis. -/
def new : StreamStateMachine where
  buckets := ∅
  erasedBuckets := ∅
  registry := StreamRegistry.empty
  hotPayloadBytes := 0
  coldGc := ColdGcQueue.empty
  sharedColdObjectRefs := ∅
  usage := UsageLedger.empty
  hotStreams := ∅
  lastCreatedAtMs := 0
  history := none
  removed := ⟨0, 0, 0, 0⟩

variable (machine : StreamStateMachine)

/-- The live slot of a name. -/
def streamSlot (streamId : BucketStreamId) : Option StreamSlot :=
  machine.registry.slot streamId

/-- The metadata of a live stream. -/
def streamMetadata (streamId : BucketStreamId) :
    Option StreamMetadata :=
  (machine.streamSlot streamId).map StreamSlot.metadata

/-- Writes a changed slot back under its own name. -/
def putSlot (slot : StreamSlot) : StreamStateMachine :=
  { machine with registry := machine.registry.setSlot slot }

/-- Restamps a stream's expiry entry. -/
def refreshTtlEntry (streamId : BucketStreamId) :
    StreamStateMachine :=
  { machine with registry := machine.registry.refreshTtl streamId }

/-! ### Shared objects -/

/-- Counts one more reference to a shared object. The count is of references in memory, so the model
leaves out its saturation. -/
def retainSharedColdObject (path : String) : StreamStateMachine :=
  { machine with
    sharedColdObjectRefs := machine.sharedColdObjectRefs.insert path
      ((machine.sharedColdObjectRefs.get? path).getD 0 + 1) }

/-- Drops one reference to a shared object, and queues it once it is unreferenced. -/
def releaseSharedColdObject (bucketId : String) (notBeforeMs : ℕ) (machine : StreamStateMachine)
    (path : String) : StreamStateMachine :=
  match machine.sharedColdObjectRefs.get? path with
  | none => machine
  | some refs =>
    if refs - 1 = 0 then
      { machine with
        sharedColdObjectRefs := machine.sharedColdObjectRefs.erase path
        coldGc := machine.coldGc.enqueueAfter bucketId (.paths [path]) notBeforeMs }
    else
      { machine with sharedColdObjectRefs := machine.sharedColdObjectRefs.insert path (refs - 1) }

/-- Drops one reference to each shared object in `paths`. -/
def releaseSharedColdObjects (bucketId : String) (paths : List String) (notBeforeMs : ℕ) :
    StreamStateMachine :=
  paths.foldl (releaseSharedColdObject bucketId notBeforeMs) machine

/-! ### The hot index -/

/-- Re-derives a stream's membership in the hot index after its hot buffer changed. -/
def syncHotIndex (streamId : BucketStreamId) :
    StreamStateMachine :=
  if (machine.streamSlot streamId).any fun slot => !slot.hotBuffer.isEmpty then
    { machine with hotStreams := machine.hotStreams.insert streamId () }
  else
    { machine with hotStreams := machine.hotStreams.erase streamId }

/-- Counts appended hot bytes. -/
def addHotPayloadBytes (bytes : ℕ) : StreamStateMachine :=
  { machine with hotPayloadBytes := satAdd machine.hotPayloadBytes bytes }

/-- Counts dropped hot bytes. -/
def removeHotPayloadBytes (bytes : ℕ) : StreamStateMachine :=
  { machine with hotPayloadBytes := machine.hotPayloadBytes - bytes }

/-- Inserts a slot, indexed by its seq, unless its name is taken. -/
def insertStreamSlot (slot : StreamSlot) :
    Option (StreamStateMachine × StreamKey) :=
  match machine.registry.insert slot with
  | none => none
  | some (registry, key) =>
    some
      ({ machine with
          registry := registry
          usage := machine.usage.indexLive slot.usage.seq key
          hotPayloadBytes := satAdd machine.hotPayloadBytes slot.hotBuffer.len
          hotStreams :=
            if slot.hotBuffer.isEmpty then machine.hotStreams
            else machine.hotStreams.insert slot.id () },
        key)

/-! ### Creation times -/

/-- The `createdAtMs` of a new stream incarnation: unique and strictly increasing. -/
def nextCreatedAtMs (nowMs : ℕ) : Except StreamResponse ℕ :=
  let createdAtMs := max nowMs (satAdd machine.lastCreatedAtMs 1)
  if createdAtMs > maxCreatedAtMs then
    .error (.refusal .createdAtOutOfRange
      (s!"stream creation time {createdAtMs} ms is at or above 2^52 ms; the proposer's clock is " ++
        "far ahead"))
  else
    .ok createdAtMs

/-- Remembers a creation time that was given out. -/
def recordCreatedAtMs (createdAtMs : ℕ) : StreamStateMachine :=
  { machine with lastCreatedAtMs := max machine.lastCreatedAtMs createdAtMs }

/-! ### Histories and tokens -/

/-- The group's history id, 0 before its genesis. -/
def historyId : ℕ := historyIdOf machine.history

section Tokens

variable [Blake3]

/-- The token of a stream incarnation in the group's current history. -/
def tokenOf (machine : StreamStateMachine) (stream : StreamMetadata) : ℕ :=
  incarnationToken stream.createdAtMs machine.historyId

/-- The stream's public token. -/
def streamIncarnation (machine : StreamStateMachine) (streamId : BucketStreamId) : Option ℕ :=
  (machine.streamMetadata streamId).map machine.tokenOf

end Tokens

/-! ### Usage -/

/-- The usage of a version a create makes, stamped with the next seq. Its bucket gets its retired
row. -/
def usageOnCreate (machine : StreamStateMachine) (countedSince : HistoryId) (bucketId : String)
    (bytes records nowMs : ℕ) : StreamStateMachine × VersionUsage :=
  let ledger := (machine.usage.insertBucket bucketId).stamp
  ({ machine with usage := ledger },
    { seq := ledger.usageSeq
      counters := { committed := CommittedUsage.ofWrite bytes records, appends := 0 }
      historyBaseline := VersionCounters.zero
      lastWrite := .at nowMs
      countedSince := countedSince })

/-- A version's usage after one more append. -/
def countAppend (usage : VersionUsage) (bytes records nowMs : ℕ) : VersionUsage :=
  { usage with
    counters :=
      { committed := usage.counters.committed.add (CommittedUsage.ofWrite bytes records)
        appends := satAdd usage.counters.appends 1 }
    lastWrite := .at nowMs }

/-- Writes a live version's usage back to its slot under the next seq. -/
def restampSlot (machine : StreamStateMachine) (slot : StreamSlot) (usage : VersionUsage)
    (key : StreamKey) : StreamStateMachine :=
  let restamped := machine.usage.restamp usage key
  { machine.putSlot { slot with usage := restamped.2 } with usage := restamped.1 }

/-- One applied append of `bytes` payload bytes and `records` records. -/
def usageOnAppend (machine : StreamStateMachine) (streamId : BucketStreamId)
    (bytes records nowMs : ℕ) : StreamStateMachine :=
  match machine.registry.key streamId with
  | none => machine
  | some key =>
    match machine.registry.slotByKey key with
    | none => machine
    | some slot => machine.restampSlot slot (countAppend slot.usage bytes records nowMs) key

/-- The stream's retained or visible snapshot bytes changed: its usage takes a new seq. -/
def usageOnSizeChange (machine : StreamStateMachine) (streamId : BucketStreamId) :
    StreamStateMachine :=
  match machine.registry.key streamId with
  | none => machine
  | some key =>
    match machine.registry.slotByKey key with
    | none => machine
    | some slot => machine.restampSlot slot slot.usage key

/-- The removed state after a folded end record. -/
def recordFolded (removed : RemovedState) (record : EndRecord) : RemovedState :=
  { removed with
    endRecords := satAdd removed.endRecords 1
    bytes := satAdd removed.bytes (endRecordBytes record) }

/-- The removed slot leaves an end record with its final usage; a full group first folds its
lowest-seq end record, early. -/
def usageOnEnd (machine : StreamStateMachine) (slot : StreamSlot) (reason : StreamEnd)
    (nowMs : ℕ) : StreamStateMachine :=
  let ended := (machine.usage.unindexLive slot.usage.seq).recordEnd
    (slot.endRecord machine.history reason nowMs) fun _ => rfl
  let removed :=
    match ended.2 with
    | none => machine.removed
    | some record =>
      let counted := recordFolded machine.removed record
      { counted with endRecordsEarly := satAdd counted.endRecordsEarly 1 }
  { machine with
    removed := removed
    usage := ended.1 }

/-- Whether the group holds an end record at or below `retireThrough`. -/
def endRecordDue (machine : StreamStateMachine) (retireThrough : ℕ) : Bool :=
  machine.usage.ends.first?.any fun entry => entry.1 ≤ retireThrough

/-- Folds the lowest-seq end records at or below `retireThrough`, at most `limit` of them, and
counts them. -/
def retireEndRecords (retireThrough : ℕ) : (limit : ℕ) → StreamStateMachine →
    StreamStateMachine × ℕ
  | 0, machine => (machine, 0)
  | limit + 1, machine =>
    if machine.endRecordDue retireThrough then
      match machine.usage.foldFirstEndRecord with
      | none => (machine, 0)
      | some (record, ledger) =>
        let rest := retireEndRecords retireThrough limit
          { machine with usage := ledger, removed := recordFolded machine.removed record }
        (rest.1, rest.2 + 1)
    else
      (machine, 0)

variable (rows : OrdMap String BucketUsage)

/-- A bucket row of a report with `f` applied to it, from zero without one. -/
def addRow (bucketId : String) (f : BucketUsage → BucketUsage) : OrdMap String BucketUsage :=
  rows.insert bucketId (f ((rows.get? bucketId).getD BucketUsage.zero))

/-- A live slot's share of its bucket's row. -/
def addSlotRow (slot : StreamSlot) : OrdMap String BucketUsage :=
  addRow rows slot.id.bucketId fun row =>
    let row := slot.usage.counters.committed.addTo row
    { row with
      streamCount := satAdd row.streamCount 1
      retainedBytes := satAdd row.retainedBytes (retainedBytes slot) }

/-- An end record's share of its bucket's row. -/
def addEndRow (record : EndRecord) :
    OrdMap String BucketUsage :=
  addRow rows record.streamId.bucketId record.counters.committed.addTo

/-- Each bucket's usage, by bucket: its retired usage, plus its live versions', plus its end
records'. -/
def bucketUsageRows (machine : StreamStateMachine) : OrdMap String BucketUsage :=
  let retired := machine.usage.retired.entries.foldl
    (fun rows row => addRow rows row.1 row.2.addTo) ∅
  let live := machine.registry.slots.foldl addSlotRow retired
  machine.usage.ends.values.foldl addEndRow live

/-- Each bucket's usage as the group reports it. -/
def bucketUsageReport (machine : StreamStateMachine) : List BucketUsageSnapshot :=
  machine.bucketUsageRows.entries.map fun row => { bucketId := row.1, usage := row.2 }

/-! ### Removal -/

/-- Counts a removed stream and what it held in a group snapshot. -/
def recordRemoved (removed : RemovedState) (slot : StreamSlot) : RemovedState :=
  let inlineSnapshot :=
    match slot.visibleSnapshot with
    | none => 0
    | some snapshot => if snapshot.object.isNone then snapshot.payload.length else 0
  { removed with
    streams := satAdd removed.streams 1
    bytes :=
      satAdd (satAdd (satAdd removed.bytes slot.hotBuffer.len) inlineSnapshot)
        commandLogOverheadBytes }

/-- Whether a removed stream may have objects in cold storage. -/
def hasColdObjects (slot : StreamSlot) : Bool :=
  slot.hotBuffer.len < slot.metadata.tailOffset || !slot.cold.coldChunks.isEmpty ||
    !slot.cold.externalSegments.isEmpty

/-- The queue after a removed stream's own objects were added to it. -/
def enqueueRemoved (queue : ColdGcQueue) (slot : StreamSlot) : ColdGcQueue :=
  let bucketId := slot.id.bucketId
  let queue :=
    if hasColdObjects slot then
      let queue := queue.enqueueStream bucketId slot.id slot.cold.coldGeneration
      let directExternalPaths := slot.cold.externalSegments.map ObjectPayloadRef.s3Path
      if directExternalPaths = [] then queue
      else queue.enqueue bucketId (.paths directExternalPaths)
    else
      queue
  match slot.visibleSnapshot.bind StreamVisibleSnapshot.object with
  | none => queue
  | some object => queue.enqueue bucketId (.paths [object.s3Path])

/-- Removes a stream that ended as `reason` at `nowMs`: it leaves its end record, and its cold
objects are queued for reclamation. The flag says whether there was such a stream. -/
def removeStreamState (machine : StreamStateMachine) (streamId : BucketStreamId)
    (reason : StreamEnd) (nowMs : ℕ) : StreamStateMachine × Bool :=
  match machine.registry.remove streamId with
  | none => (machine, false)
  | some (slot, registry) =>
    let removed :=
      { machine with
        registry := registry
        removed := recordRemoved machine.removed slot
        hotStreams := machine.hotStreams.erase streamId }
    let ended := (removed.removeHotPayloadBytes slot.hotBuffer.len).usageOnEnd slot reason nowMs
    let queued := { ended with coldGc := enqueueRemoved ended.coldGc slot }
    (queued.releaseSharedColdObjects streamId.bucketId slot.cold.sharedObjectPaths 0, true)

/-! ### Scope -/

/-- Checks a stream's name and that its bucket is there. -/
def validateStreamScope (machine : StreamStateMachine) (streamId : BucketStreamId) :
    Except StreamResponse Unit :=
  match validateBucketId streamId.bucketId with
  | .error message => .error (.refusal .invalidBucketId message)
  | .ok () =>
    match validateStreamId streamId with
    | .error message => .error (.refusal .invalidStreamId message)
    | .ok () =>
      if machine.buckets.contains streamId.bucketId then
        .ok ()
      else if machine.erasedBuckets.contains streamId.bucketId then
        .error (.refusal .bucketErased s!"bucket '{streamId.bucketId}' was permanently erased")
      else
        .error (.refusal .bucketNotFound s!"bucket '{streamId.bucketId}' does not exist")

/-- The refusal of a command on a stream that does not exist. -/
def streamNotFound (streamId : BucketStreamId) : StreamResponse :=
  .refusal .streamNotFound s!"stream '{streamId.display}' does not exist"

/-- Whether the stream is live and has expired at `nowMs`. -/
def streamExpired (machine : StreamStateMachine) (streamId : BucketStreamId) (nowMs : ℕ) : Bool :=
  (machine.streamMetadata streamId).any fun stream => streamIsExpired stream nowMs

/-- Removes the stream if it has expired at `nowMs`, and says whether it had. -/
def expireStreamIfDue (machine : StreamStateMachine) (streamId : BucketStreamId) (nowMs : ℕ) :
    StreamStateMachine × Bool :=
  if machine.streamExpired streamId nowMs then
    ((machine.removeStreamState streamId .expired nowMs).1, true)
  else
    (machine, false)

end StreamStateMachine

end Ursula

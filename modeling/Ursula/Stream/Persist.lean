import Ursula.Stream.Cold

/-!
# Snapshots and restores

The snapshot of a group's streams, the half of it that holds the usage ledger, and the one restore
behind an installed group snapshot, a backup and an import. A restore checks each part as it adds it
to an empty group; the registry's layout, the expiry index, the hot index, the reference counts and
the index of live versions are rebuilt on the way.

## Main definitions

* `StreamStateMachine.snapshot`, `StreamStateMachine.usageSnapshot`: the two halves of a group
  snapshot
* `StreamStateMachine.restoreWith`: the restore, and `restoreGroup`, `restore`,
  `restoreCountedSince` by where the usage comes from
* `StreamStateMachine.importSnapshot`: the import of a backup as a history event
-/

namespace Ursula

open Word64

/-! ## Error texts -/

/-- The name of a counter in an error text. -/
def UsageCounter.name : UsageCounter → String
  | .appendBytes => "AppendBytes"
  | .records => "Records"
  | .writeUnits => "WriteUnits"

/-- The text of a usage error. -/
def UsageSnapshotError.message : UsageSnapshotError → String
  | .streamCount streams usages => s!"{usages} stream usages for {streams} streams"
  | .invalidSeq seq usageSeq =>
    s!"usage seq {seq} is zero, repeated, out of order, or above the group's {usageSeq}"
  | .retiredEndRecord seq retiredThrough =>
    s!"end record {seq} is at or below retired_through {retiredThrough}"
  | .retiredThroughAhead retiredThrough usageSeq =>
    s!"retired_through {retiredThrough} is above usage seq {usageSeq}"
  | .tooManyEndRecords count max =>
    s!"{count} end records, above the most a group holds, {max}"
  | .duplicateRetired bucketId => s!"bucket '{bucketId}' has two retired rows"
  | .totalsDisagree bucketId counter =>
    s!"bucket '{bucketId}': its total {counter.name} is not its retired usage plus its versions " ++
      "and end records"

/-- The refusal of another backup format. -/
def backupFormatRefusal (subject found : String) : String :=
  s!"{subject} {found}; this binary reads and writes backup format {backupFormatVersion} only " ++
    "and does not convert other formats"

/-- The text of a restore error. -/
def StreamSnapshotError.message : StreamSnapshotError → String
  | .duplicateBucket bucketId => s!"snapshot contains duplicate bucket '{bucketId}'"
  | .duplicateErasedBucket bucketId => s!"snapshot contains duplicate erased bucket '{bucketId}'"
  | .activeBucketErased bucketId => s!"snapshot bucket '{bucketId}' is both active and erased"
  | .duplicateStream streamId => s!"snapshot contains duplicate stream '{streamId.display}'"
  | .duplicateProducer streamId producerId =>
    s!"snapshot stream '{streamId.display}' contains duplicate producer '{producerId}'"
  | .missingBucket streamId =>
    s!"snapshot stream '{streamId.display}' references a missing bucket"
  | .payloadLengthMismatch streamId tailOffset payloadLen =>
    s!"snapshot stream '{streamId.display}' tail offset {tailOffset} does not match payload " ++
      s!"length {payloadLen}"
  | .snapshotOffsetOutOfRange streamId snapshotOffset tailOffset =>
    s!"snapshot stream '{streamId.display}' visible snapshot offset {snapshotOffset} is beyond " ++
      s!"tail offset {tailOffset}"
  | .backupFormat found =>
    backupFormatRefusal "snapshot"
      (match found with
      | some found => s!"is backup format {found}"
      | none => "has no format_epoch field")
  | .unattributedColdGc seq => s!"snapshot cold GC entry {seq} has no owning bucket"
  | .coldGcWithoutGeneration seq =>
    s!"snapshot cold GC entry {seq} targets a stream without a cold generation"
  | .duplicateBucketUsage bucketId => s!"snapshot holds two usage rows of bucket '{bucketId}'"
  | .streamWithoutHistory streamId =>
    s!"snapshot stream '{streamId.display}' has no history to count its usage in"
  | .usage error => error.message

/-! ## Parts of a snapshot -/

/-- The persisted records of a stream's producers, by id. -/
def producerSnapshot (states : OrdMap String ProducerState) : List ProducerSnapshot :=
  states.entries.map fun (producerId, state) =>
    { producerId := producerId
      epoch := state.epoch
      lastSeq := state.lastSeq
      claimDigest := state.claimDigest
      newest := state.newest
      closedEpoch := state.closedEpoch
      opened := state.opened
      history := state.history
      lastSeenMs := state.lastSeenMs }

/-- The record a persisted one restores. -/
def ProducerSnapshot.state (snapshot : ProducerSnapshot) : ProducerState where
  epoch := snapshot.epoch
  lastSeq := snapshot.lastSeq
  claimDigest := snapshot.claimDigest
  newest := snapshot.newest
  closedEpoch := snapshot.closedEpoch
  opened := snapshot.opened
  history := snapshot.history
  lastSeenMs := snapshot.lastSeenMs

/-- Adds persisted producer records, refusing a second record of one producer. -/
def restoreProducerStates (streamId : BucketStreamId) : OrdMap String ProducerState →
    List ProducerSnapshot → Except StreamSnapshotError (OrdMap String ProducerState) :=
  OrdMap.insertNew ProducerSnapshot.producerId ProducerSnapshot.state fun snapshot =>
    .duplicateProducer streamId snapshot.producerId

/-- Whether a slice lies in its object and is not empty. -/
def validSlice (startOffset endOffset objectOffset objectSize : ℕ) (s3Path : String) : Bool :=
  endOffset > startOffset && !isBlank s3Path &&
    (checkedAdd objectOffset (endOffset - startOffset)).any fun sliceEnd => sliceEnd ≤ objectSize

/-- Whether a cold chunk reference is well formed. -/
def validColdChunkRef (chunk : ColdChunkRef) : Bool :=
  validSlice chunk.startOffset chunk.endOffset chunk.objectOffset chunk.objectSize chunk.s3Path

/-- Whether an external payload reference is well formed. -/
def validObjectPayloadRef (object : ObjectPayloadRef) : Bool :=
  validSlice object.startOffset object.endOffset object.objectOffset object.objectSize object.s3Path

/-- Whether the segments cut a payload into consecutive parts as long as their ranges, from
`expectedPayloadStart` on. -/
def hotSegmentsMatchPayload (payloadLen : ℕ) :
    (expectedPayloadStart : ℕ) → List HotPayloadSegment → Bool
  | expectedPayloadStart, [] => expectedPayloadStart = payloadLen
  | expectedPayloadStart, segment :: rest =>
    if segment.endOffset ≤ segment.startOffset ∨ segment.payloadStart ≠ expectedPayloadStart ∨
        segment.payloadEnd ≤ segment.payloadStart ∨ segment.payloadEnd > payloadLen then
      false
    else if segment.endOffset - segment.startOffset ≠ segment.payloadEnd - segment.payloadStart then
      false
    else
      hotSegmentsMatchPayload payloadLen segment.payloadEnd rest

/-- Whether hot segments are not empty, in order, disjoint and within the tail. -/
def hotSegmentsInOrder (tailOffset : ℕ) : (previousEnd : ℕ) → List HotPayloadSegment → Bool
  | _, [] => true
  | previousEnd, segment :: rest =>
    if segment.endOffset ≤ segment.startOffset ∨ segment.startOffset < previousEnd ∨
        segment.endOffset > tailOffset then
      false
    else
      hotSegmentsInOrder tailOffset segment.endOffset rest

/-- Whether every source of a stream's payload is well formed. -/
def payloadSourcesCoverRetainedSuffix (entry : StreamSnapshotEntry) : Bool :=
  if entry.metadata.tailOffset < entry.retainedOffset then false
  else if ¬ entry.coldChunks.all validColdChunkRef ∨
      ¬ entry.externalSegments.all validObjectPayloadRef then false
  else hotSegmentsInOrder entry.metadata.tailOffset 0 entry.hotSegments

/-- Each bucket's committed counters in a report, refusing a second row of one bucket. -/
def committedByBucket : OrdMap String CommittedUsage → List BucketUsageSnapshot →
    Except StreamSnapshotError (OrdMap String CommittedUsage) :=
  OrdMap.insertNew BucketUsageSnapshot.bucketId (fun row => CommittedUsage.ofBucket row.usage)
    fun row => .duplicateBucketUsage row.bucketId

/-- The buckets of a snapshot, refusing a second one of a name. -/
def restoreBuckets : OrdSet String → List String → Except StreamSnapshotError (OrdSet String) :=
  OrdMap.insertNew id (fun _ => ()) .duplicateBucket

/-- The erased buckets of a snapshot, refusing an active one and a second one of a name. -/
def restoreErasedBuckets (buckets : OrdSet String) : OrdSet String → List String →
    Except StreamSnapshotError (OrdSet String)
  | erased, [] => .ok erased
  | erased, bucketId :: rest =>
    if buckets.contains bucketId then .error (.activeBucketErased bucketId)
    else if erased.contains bucketId then .error (.duplicateErasedBucket bucketId)
    else restoreErasedBuckets buckets (erased.insert bucketId ()) rest

/-- The first entry of a snapshot's reclamation queue that has no bucket, or names a stream without
its generation. -/
def checkPendingColdGc (pending : List ColdGcEntry) : Option StreamSnapshotError :=
  pending.findSome? fun entry =>
    if entry.bucketId = "" then some (.unattributedColdGc entry.seq)
    else
      match entry.target with
      | .stream _ =>
        if entry.coldGeneration.isNone then some (.coldGcWithoutGeneration entry.seq) else none
      | .paths _ => none

/-- Where a restore takes each version's usage from. -/
inductive RestoredUsage
  /-- A backup's totals retire, and every version counts from zero. -/
  | backup
  /-- As a backup's, every version counted since the import's history. -/
  | imported (countedSince : HistoryId)
  /-- A group snapshot's ledger, checked against its totals. -/
  | group (usage : UsageSnapshot)

/-- A slot as a snapshot has it. -/
def StreamSlot.snapshotEntry (slot : StreamSlot) : StreamSnapshotEntry where
  metadata := slot.metadata
  hotStartOffset := StreamStateMachine.hotStartOffset slot
  payload := slot.hotBuffer.payload
  hotSegments := slot.hotBuffer.hotSegments
  coldIndexGeneration := slot.cold.coldGeneration
  coldChunks := slot.cold.coldChunks
  externalSegments := slot.cold.externalSegments
  retainedOffset := slot.retainedOffset
  visibleSnapshot := slot.visibleSnapshot
  producerStates := producerSnapshot slot.producers
  retiredEpochWatermark := slot.retiredEpochWatermark
  history := slot.history
  inherited := slot.inherited

/-- The slot a snapshot entry restores, with its producers and its usage. -/
def StreamSnapshotEntry.slot (entry : StreamSnapshotEntry) (producers : OrdMap String ProducerState)
    (usage : VersionUsage) : StreamSlot where
  metadata := entry.metadata
  hotBuffer := HotBuffer.fromSnapshot entry.payload entry.hotSegments
  cold := StreamColdState.restore entry.coldIndexGeneration entry.coldChunks entry.externalSegments
  retainedOffset := entry.retainedOffset
  visibleSnapshot := entry.visibleSnapshot
  producers := producers
  retiredEpochWatermark := entry.retiredEpochWatermark
  history := entry.history
  inherited := entry.inherited
  usage := usage

namespace StreamRegistry

/-- The live slots in the order of their names. -/
def slotsById (registry : StreamRegistry) : List StreamSlot :=
  registry.slots.insertionSort fun a b => a.id ≤ b.id

end StreamRegistry

namespace StreamStateMachine

/-! ## Snapshots -/

variable (machine : StreamStateMachine)

/-- The snapshot of a group's streams, each list in order. -/
def snapshot : StreamSnapshot where
  formatVersion := backupFormatVersion
  buckets := machine.buckets.keys
  erasedBuckets := machine.erasedBuckets.keys
  streams := machine.registry.slotsById.map StreamSlot.snapshotEntry
  pendingColdGc := machine.coldGc.pending
  nextColdGcSeq := machine.coldGc.nextSeq
  bucketUsage := machine.bucketUsageReport
  lastCreatedAtMs := machine.lastCreatedAtMs
  history := machine.history

/-- The usage half of a group snapshot: one version usage per stream, in the snapshot's order. -/
def usageSnapshot : UsageSnapshot where
  genesis := machine.usage.genesis
  usageSeq := machine.usage.usageSeq
  retiredThrough := machine.usage.retiredThrough
  retired := machine.usage.retired.entries.map fun row => { bucketId := row.1, retired := row.2 }
  streams := machine.registry.slotsById.map StreamSlot.usage
  ends := machine.usage.ends.values

/-! ## Restores -/

/-- The creation counter, at least every live stream's creation time. -/
def normalizeLastCreatedAtMs : StreamStateMachine :=
  { machine with
    lastCreatedAtMs := (machine.registry.slots.map fun slot => slot.metadata.createdAtMs).foldl max
      machine.lastCreatedAtMs }

/-- The first live version whose seq is zero, above the group's or in use already. -/
def checkSeqs (usageSeq : ℕ) : OrdSet ℕ → List StreamSlot → Option UsageSnapshotError
  | _, [] => none
  | seqs, slot :: rest =>
    if slot.usage.seq = 0 ∨ slot.usage.seq > usageSeq ∨ seqs.contains slot.usage.seq then
      some (.invalidSeq slot.usage.seq usageSeq)
    else
      checkSeqs usageSeq (seqs.insert slot.usage.seq ()) rest

/-- The first bucket, of `bucketIds`, whose total is not the sum of its parts. -/
def checkTotals (totals parts : OrdMap String CommittedUsage) (bucketIds : List String) :
    Option UsageSnapshotError :=
  bucketIds.findSome? fun bucketId =>
    (((totals.get? bucketId).getD CommittedUsage.zero).firstDifference
      ((parts.get? bucketId).getD CommittedUsage.zero)).map fun counter =>
        .totalsDisagree bucketId counter

/-- The parts of each bucket's committed usage. -/
def committedParts : OrdMap String CommittedUsage where
  entries := machine.bucketUsageRows.entries.map fun row => (row.1, CommittedUsage.ofBucket row.2)
  sorted := List.pairwise_map.mpr machine.bucketUsageRows.sorted

/-- The checks of a restored group snapshot that need its whole state. -/
def checkRestoredUsage (totals : OrdMap String CommittedUsage) :
    Option UsageSnapshotError :=
  let seqs : OrdSet ℕ :=
    ⟨machine.usage.ends.entries.map fun entry => (entry.1, ()),
      List.pairwise_map.mpr machine.usage.ends.sorted⟩
  match checkSeqs machine.usage.usageSeq seqs machine.registry.slots with
  | some error => some error
  | none =>
    checkTotals totals machine.committedParts (totals.keys ++ machine.committedParts.keys)

/-- Checks one stream of a snapshot against the group so far, and returns the snapshot's history. -/
def checkEntry (entry : StreamSnapshotEntry) :
    Except StreamSnapshotError HistoryId :=
  let streamId := entry.metadata.streamId
  let tailOffset := entry.metadata.tailOffset
  match machine.history with
  | none => .error (.streamWithoutHistory streamId)
  | some event =>
    if ¬ machine.buckets.contains streamId.bucketId then
      .error (.missingBucket streamId)
    else
      match entry.visibleSnapshot.filter fun snapshot => snapshot.offset > tailOffset with
      | some snapshot => .error (.snapshotOffsetOutOfRange streamId snapshot.offset tailOffset)
      | none =>
        if entry.retainedOffset > tailOffset then
          .error (.snapshotOffsetOutOfRange streamId entry.retainedOffset tailOffset)
        else if ¬ hotSegmentsMatchPayload entry.payload.length 0 entry.hotSegments ∨
            ¬ payloadSourcesCoverRetainedSuffix entry then
          .error (.payloadLengthMismatch streamId tailOffset entry.payload.length)
        else if machine.registry.containsKey streamId then
          .error (.duplicateStream streamId)
        else
          .ok event.id

/-- The usage of a restored stream: its own, or a new one counted from zero. -/
def restoredUsage (bucketId : String) (countedSince : HistoryId) (version : Option VersionUsage) :
    UsageLedger × VersionUsage :=
  match version with
  | some usage => (machine.usage.insertBucket bucketId, usage)
  | none => machine.usage.restoredVersion bucketId countedSince

/-- Adds one stream of a snapshot, and counts its references to shared objects. -/
def restoreStream (importedSince : Option HistoryId) (machine : StreamStateMachine)
    (item : StreamSnapshotEntry × Option VersionUsage) :
    Except StreamSnapshotError StreamStateMachine := do
  let entry := item.1
  let streamId := entry.metadata.streamId
  let history ← machine.checkEntry entry
  let producers ← restoreProducerStates streamId ∅ entry.producerStates
  let counted := machine.restoredUsage streamId.bucketId (importedSince.getD history) item.2
  match { machine with usage := counted.1 }.insertStreamSlot (entry.slot producers counted.2) with
  | none => .error (.duplicateStream streamId)
  | some (inserted, _) =>
    .ok (((entry.coldChunks.filter fun chunk => chunk.sharedObject).map
      ColdChunkRef.s3Path).foldl retainSharedColdObject inserted)

/-- The ledger a restore starts from, and the versions' usages when the snapshot has them. -/
def restoredLedger (snapshot : StreamSnapshot) (totals : OrdMap String CommittedUsage) :
    RestoredUsage → Except StreamSnapshotError (UsageLedger × Option (List VersionUsage))
  | .backup => .ok (UsageLedger.retiring totals, none)
  | .imported _ => .ok (UsageLedger.retiring totals, none)
  | .group usage =>
    if usage.streams.length ≠ snapshot.streams.length then
      .error (.usage (.streamCount snapshot.streams.length usage.streams.length))
    else
      match UsageLedger.ofGroup usage.genesis usage.usageSeq usage.retiredThrough usage.retired
          usage.ends with
      | .error error => .error (.usage error)
      | .ok ledger => .ok (ledger, some usage.streams)

/-- The streams of a snapshot in the order of their names, each with its usage. -/
def restoredItems (streams : List StreamSnapshotEntry) (versions : Option (List VersionUsage)) :
    List (StreamSnapshotEntry × Option VersionUsage) :=
  (match versions with
    | some versions => streams.zip (versions.map some)
    | none => streams.map fun entry => (entry, none)).insertionSort
      fun a b => a.1.metadata.streamId ≤ b.1.metadata.streamId

/-- The history an import counts its versions since. -/
def RestoredUsage.importedSince : RestoredUsage → Option HistoryId
  | .imported countedSince => some countedSince
  | _ => none

/-- The totals a restore checks once the state is built. -/
def RestoredUsage.checkedTotals (totals : OrdMap String CommittedUsage) :
    RestoredUsage → Option (OrdMap String CommittedUsage)
  | .group _ => some totals
  | _ => none

/-- The last checks of a restore, once every stream is there. -/
def finishRestore (snapshot : StreamSnapshot)
    (checkedTotals : Option (OrdMap String CommittedUsage)) (restored : StreamStateMachine) :
    Except StreamSnapshotError StreamStateMachine :=
  match checkPendingColdGc snapshot.pendingColdGc with
  | some error => .error error
  | none =>
    let machine :=
      { restored with
        coldGc := ⟨snapshot.pendingColdGc, snapshot.nextColdGcSeq⟩ }.normalizeLastCreatedAtMs
    match checkedTotals.bind machine.checkRestoredUsage with
    | some error => .error (.usage error)
    | none => .ok machine

/-- The state of a snapshot, or why it is refused. -/
def restoreWith (snapshot : StreamSnapshot) (usage : RestoredUsage) :
    Except StreamSnapshotError StreamStateMachine :=
  if snapshot.formatVersion ≠ backupFormatVersion then
    .error (.backupFormat (some snapshot.formatVersion))
  else do
    let totals ← committedByBucket ∅ snapshot.bucketUsage
    let source ← restoredLedger snapshot totals usage
    let buckets ← restoreBuckets ∅ snapshot.buckets
    let erasedBuckets ← restoreErasedBuckets buckets ∅ snapshot.erasedBuckets
    let base : StreamStateMachine :=
      { new with
        buckets := buckets
        erasedBuckets := erasedBuckets
        usage := source.1
        lastCreatedAtMs := snapshot.lastCreatedAtMs
        history := snapshot.history }
    let restored ← (restoredItems snapshot.streams source.2).foldlM
      (restoreStream (RestoredUsage.importedSince usage)) base
    finishRestore snapshot (RestoredUsage.checkedTotals totals usage) restored

/-- A group snapshot's state. -/
def restoreGroup (snapshot : StreamSnapshot) (usage : UsageSnapshot) :
    Except StreamSnapshotError StreamStateMachine :=
  restoreWith snapshot (.group usage)

/-- A backup's state, every version counted since the history of the import. -/
def restoreCountedSince (snapshot : StreamSnapshot) (countedSince : HistoryId) :
    Except StreamSnapshotError StreamStateMachine :=
  restoreWith snapshot (.imported countedSince)

/-! ## Imports -/

/-- The restored state of an import of the entry at `index`, in its new history. -/
def imported (machine : StreamStateMachine) (index : ℕ) (history : HistoryId)
    (backupDigest : Digest32) (nowMs : ℕ) (restored : StreamStateMachine) : StreamStateMachine :=
  let normalized :=
    { restored with
      lastCreatedAtMs :=
        max (max restored.lastCreatedAtMs machine.lastCreatedAtMs)
          nowMs }.normalizeLastCreatedAtMs
  { normalized with
    history := some
      { id := history
        eventIndex := index
        previous := machine.historyId
        kept := index - 1
        leader := { term := 0, nodeId := 0 }
        imported := some backupDigest }
    usage := normalized.usage.keepGenesis machine.usage }

/-- Imports a backup into an empty group, as a history event. A group that holds the import of
`backupDigest` answers it again. -/
def importSnapshot (index : ℕ) (snapshot : StreamSnapshot) (history : HistoryId)
    (backupDigest : Digest32) (nowMs : ℕ) :
    StreamStateMachine × StreamResponse :=
  match machine.history.filter fun event => event.imported = some backupDigest with
  | some event =>
    (machine, .snapshotImported machine.buckets.size machine.registry.slots.length event.id true)
  | none =>
    if ¬ machine.buckets.isEmpty ∨ ¬ machine.erasedBuckets.isEmpty ∨ ¬ machine.registry.isEmpty then
      (machine, .refusal .importConflict
        (s!"group already holds {machine.buckets.size} bucket(s); snapshot import requires an " ++
          "empty group"))
    else
      match restoreCountedSince snapshot history with
      | .error error =>
        (machine, .refusal .importInvalid s!"snapshot import failed validation: {error.message}")
      | .ok restored =>
        (machine.imported index history backupDigest nowMs restored,
          .snapshotImported snapshot.buckets.length snapshot.streams.length history false)

end StreamStateMachine

end Ursula

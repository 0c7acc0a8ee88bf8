import Ursula.Stream.Lifecycle

/-!
# Cold storage: flushes, compaction, retention, snapshots

The commands that move a stream's bytes to cold objects, replace those objects, trim the stream's
prefix and publish its snapshots, and the ones that drain the reclamation queue.

`compactCold` removes the chunks it was given from the stream's state before it knows whether all of
them were there: a refusal for an input that no longer matches comes after the removal.

## Main definitions

* `StreamStateMachine.publishSnapshot`, `advanceRetention`, `flushCold`, `compactCold`,
  `offloadColdRefs`, `ackColdGc`, `deferColdGc`: the commands
* `StreamStateMachine.checkColdFlush`, `checkCompaction`: their checks
-/

namespace Ursula

open Word64

/-- The grace before objects that retention dropped may be deleted. -/
def retentionColdGcGraceMs : ℕ := 300000

/-- The body of a snapshot publish: inline bytes, or a staged object with its digest. -/
inductive SnapshotBody
  | inline (payload : Bytes)
  | object (object : ExternalPayloadRef) (digest : String)

/-- The digest of a snapshot: of its content type's length, its content type and its body. -/
def snapshotDigest [Blake3] (contentType : String) (payload : Bytes) : String :=
  toHex (Blake3.hash
    (toLeBytes 8 contentType.utf8ByteSize ++ contentType.toUTF8.toList ++ payload)).val

namespace SnapshotBody

/-- The bytes of an inline body. -/
def payload : SnapshotBody → Bytes
  | inline payload => payload
  | object .. => []

/-- The staged object of a body. -/
def staged : SnapshotBody → Option ExternalPayloadRef
  | inline _ => none
  | object body _ => some body

/-- The digest of a body: computed for inline bytes, the proposer's for an object. -/
def digest [Blake3] (contentType : String) : SnapshotBody → String
  | inline payload => snapshotDigest contentType payload
  | object _ digest => digest

end SnapshotBody

/-- The compacted bytes of a run of chunks that starts at `expectedStart`, and its end. -/
def compactionRun : (expectedStart compactedBytes : ℕ) → List ColdChunkRef → Option (ℕ × ℕ)
  | expectedStart, compactedBytes, [] => some (expectedStart, compactedBytes)
  | expectedStart, compactedBytes, chunk :: rest =>
    let logicalBytes := chunk.endOffset - chunk.startOffset
    if chunk.startOffset ≠ expectedStart ∨ chunk.endOffset ≤ chunk.startOffset ∨
        (¬ chunk.sharedObject ∧ chunk.objectSize ≠ logicalBytes) then
      none
    else
      compactionRun chunk.endOffset (satAdd compactedBytes logicalBytes) rest

/-- Checks a compaction's input and replacement, and returns the compacted bytes. -/
def checkCompaction (oldChunks : List ColdChunkRef) (replacement : ColdChunkRef) :
    Except StreamResponse ℕ :=
  if oldChunks = [] ∨
      (oldChunks.length < 2 ∧ oldChunks.all fun chunk => !chunk.sharedObject) then
    .error (.refusal .invalidColdFlush
      "cold compaction requires two raw chunks or one shared chunk")
  else if isBlank replacement.s3Path ∨ replacement.objectSize = 0 then
    .error (.refusal .invalidColdFlush "cold compaction replacement must name a non-empty object")
  else if (oldChunks.any fun chunk => chunk.sharedObject) ≠
        (oldChunks.all fun chunk => chunk.sharedObject) ∨
      replacement.sharedObject ∨ replacement.objectOffset ≠ 0 then
    .error (.refusal .invalidColdFlush
      "cold compaction cannot mix shared and raw inputs or publish a shared replacement")
  else
    let first := match oldChunks.head? with
      | none => replacement.startOffset
      | some first => first.startOffset
    match compactionRun first 0 oldChunks with
    | none =>
      .error (.refusal .invalidColdFlush "cold compaction inputs must be contiguous raw chunks")
    | some (expectedEnd, compactedBytes) =>
      if replacement.startOffset ≠ first ∨ replacement.endOffset ≠ expectedEnd ∨
          replacement.objectSize ≠ compactedBytes then
        .error (.refusal .invalidColdFlush
          "cold compaction replacement must cover the exact input range")
      else
        .ok compactedBytes

/-- Whether a path lies under a bucket. -/
def pathInBucket (bucketId path : String) : Bool :=
  (bucketId.toList ++ ['/']).isPrefixOf path.toList

namespace StreamStateMachine

variable [Blake3]

variable (slot : StreamSlot)

/-- The first hot offset of a stream, its tail when nothing is hot. -/
def hotStartOffset : ℕ :=
  slot.hotBuffer.firstStartOffset.getD slot.metadata.tailOffset

variable (machine : StreamStateMachine)

/-- Checks that a snapshot or retention offset is a JSON message boundary. When the preceding byte
is not hot, the proposer has to name the incarnation it read it from. -/
def checkJsonBoundary (slot : StreamSlot) (offset floor : ℕ) (expectedIncarnation : Option ℕ) :
    Except StreamResponse Unit :=
  let stream := slot.metadata
  if ¬ isJsonRecordContentType stream.contentType ∨ offset = floor ∨ offset = stream.tailOffset then
    .ok ()
  else if offset = 0 then
    .ok ()
  else
    match slot.hotBuffer.byteAt (offset - 1) with
    | some byte =>
      if byte = lf then
        .ok ()
      else
        .error (.errorWithNextOffset .invalidSnapshot
          s!"offset {offset} is not a JSON message boundary for stream '{stream.streamId.display}'"
          stream.tailOffset)
    | none =>
      if expectedIncarnation = some (machine.tokenOf stream) then
        .ok ()
      else
        .error (.errorWithNextOffsetAndContext .jsonBoundaryUnverified
          (s!"offset {offset} of stream '{stream.streamId.display}' needs a verified JSON " ++
            "message boundary")
          stream.tailOffset [.streamIncarnation (machine.tokenOf stream)])

/-! ### Snapshots -/

/-- The outcome of the checks of a publish: a refusal, a repeat, or a snapshot to publish. -/
inductive PublishCheck
  | refuse (response : StreamResponse)
  | repeat (unreferenced : Option ExternalPayloadRef)
  | publish

/-- Checks a publish against the stream and its current snapshot. -/
def checkPublish (slot : StreamSlot) (snapshotOffset : ℕ) (contentType : String)
    (body : SnapshotBody) (expectedIncarnation : Option ℕ) : PublishCheck :=
  let streamId := slot.id
  let tailOffset := slot.metadata.tailOffset
  let retainedOffset := slot.retainedOffset
  let digest := body.digest contentType
  let boundary : PublishCheck :=
    match machine.checkJsonBoundary slot snapshotOffset retainedOffset expectedIncarnation with
    | .error response => .refuse response
    | .ok () => .publish
  if snapshotOffset < retainedOffset then
    .refuse (.errorWithNextOffset .streamGone
      (s!"snapshot offset {snapshotOffset} is older than stream '{streamId.display}' retained " ++
        s!"offset {retainedOffset}")
      retainedOffset)
  else if snapshotOffset > tailOffset then
    .refuse (.errorWithNextOffset .snapshotConflict
      s!"snapshot offset {snapshotOffset} is beyond stream '{streamId.display}' tail {tailOffset}"
      tailOffset)
  else
    match slot.visibleSnapshot with
    | none => boundary
    | some current =>
      let latest : List StreamErrorContext := [.latestSnapshot current.offset current.digest]
      if snapshotOffset < current.offset then
        .refuse (.errorWithNextOffsetAndContext .snapshotConflict
          s!"snapshot offset {snapshotOffset} is older than latest snapshot offset {current.offset}"
          tailOffset latest)
      else if snapshotOffset = current.offset then
        if current.digest = digest then
          -- a repeat: the body this command staged is referenced by nothing
          .repeat (body.staged.filter fun object =>
            current.object.map ExternalPayloadRef.s3Path ≠ some object.s3Path)
        else
          .refuse (.errorWithNextOffsetAndContext .snapshotConflict
            s!"snapshot offset {snapshotOffset} already has a different payload digest"
            tailOffset latest)
      else
        boundary

/-- Queues an object with the retention grace after `nowMs`. -/
def enqueueAfterGrace (bucketId : String) (object : Option ExternalPayloadRef) (nowMs : ℕ) :
    StreamStateMachine :=
  match object with
  | none => machine
  | some object =>
    { machine with
      coldGc := machine.coldGc.enqueueAfter bucketId (.paths [object.s3Path])
        (satAdd nowMs retentionColdGcGraceMs) }

/-- Replaces the stream's visible snapshot, and queues the superseded body. -/
def commitPublish (slot : StreamSlot) (snapshot : StreamVisibleSnapshot) (nowMs : ℕ) :
    StreamStateMachine :=
  ((machine.putSlot { slot with visibleSnapshot := some snapshot }).usageOnSizeChange
    slot.id).enqueueAfterGrace slot.id.bucketId
      (slot.visibleSnapshot.bind StreamVisibleSnapshot.object) nowMs

/-- Publishes a snapshot of a stream. -/
def publishSnapshot (streamId : BucketStreamId) (snapshotOffset : ℕ) (contentType : String)
    (body : SnapshotBody) (nowMs : ℕ) (expectedIncarnation : Option ℕ) :
    StreamStateMachine × StreamResponse :=
  match machine.validateStreamScope streamId with
  | .error response => (machine, response)
  | .ok () =>
    if isBlank contentType then
      (machine, .refusal .invalidSnapshot "snapshot content type must not be empty")
    else
      match machine.streamSlot streamId with
      | none => (machine, streamNotFound streamId)
      | some slot =>
        if streamIsExpired slot.metadata nowMs then
          ((machine.removeStreamState streamId .expired nowMs).1, streamNotFound streamId)
        else
          let digest := body.digest contentType
          match machine.checkPublish slot snapshotOffset contentType body expectedIncarnation with
          | .refuse response => (machine, response)
          | .repeat unreferenced =>
            (machine.enqueueAfterGrace streamId.bucketId unreferenced nowMs,
              .snapshotPublished snapshotOffset digest)
          | .publish =>
            (machine.commitPublish slot
                { offset := snapshotOffset
                  contentType := contentType
                  payload := body.payload
                  digest := digest
                  object := body.staged }
                nowMs,
              .snapshotPublished snapshotOffset digest)

/-! ### Retention -/

/-- Drops the references and the hot bytes below `retainedOffset`, and queues the objects that
nothing else names. -/
def compactRetainedPrefix (streamId : BucketStreamId) (retainedOffset gcNotBeforeMs : ℕ) :
    StreamStateMachine :=
  match machine.streamSlot streamId with
  | none => machine
  | some slot =>
    let compacted := slot.cold.compactBefore retainedOffset
    let machine :=
      (machine.putSlot
        { slot with
          cold := compacted.1
          hotBuffer := slot.hotBuffer.discardBefore retainedOffset }).releaseSharedColdObjects
            streamId.bucketId compacted.2.sharedPaths gcNotBeforeMs
    let machine :=
      if compacted.2.externalPaths = [] then machine
      else
        { machine with
          coldGc := machine.coldGc.enqueueAfter streamId.bucketId (.paths compacted.2.externalPaths)
            gcNotBeforeMs }
    (machine.removeHotPayloadBytes
      (slot.hotBuffer.len - (slot.hotBuffer.discardBefore retainedOffset).len)).syncHotIndex
        streamId

/-- Checks a retention move above the current boundary. -/
def checkRetention (slot : StreamSlot) (retainedOffset : ℕ) (expectedIncarnation : Option ℕ) :
    Except StreamResponse Unit :=
  match slot.visibleSnapshot with
  | none =>
    .error (.errorWithNextOffset .snapshotConflict "retention requires a published checkpoint"
      slot.metadata.tailOffset)
  | some snapshot =>
    if retainedOffset > snapshot.offset then
      .error (.errorWithNextOffset .snapshotConflict
        s!"retention offset {retainedOffset} is beyond latest checkpoint offset {snapshot.offset}"
        slot.metadata.tailOffset)
    else
      machine.checkJsonBoundary slot retainedOffset slot.retainedOffset expectedIncarnation

/-- Moves the retained boundary forward. -/
def commitRetention (slot : StreamSlot) (retainedOffset nowMs : ℕ) : StreamStateMachine :=
  ((machine.putSlot { slot with retainedOffset := retainedOffset }).usageOnSizeChange
    slot.id).compactRetainedPrefix slot.id retainedOffset (satAdd nowMs retentionColdGcGraceMs)

/-- Advances a stream's retention. A boundary at or below the current one is a repeat. -/
def advanceRetention (streamId : BucketStreamId) (retainedOffset nowMs : ℕ)
    (expectedIncarnation : Option ℕ) :
    StreamStateMachine × StreamResponse :=
  match machine.validateStreamScope streamId with
  | .error response => (machine, response)
  | .ok () =>
    match machine.streamSlot streamId with
    | none => (machine, streamNotFound streamId)
    | some slot =>
      if streamIsExpired slot.metadata nowMs then
        ((machine.removeStreamState streamId .expired nowMs).1, streamNotFound streamId)
      else if retainedOffset ≤ slot.retainedOffset then
        (machine, .retentionAdvanced slot.retainedOffset)
      else
        match machine.checkRetention slot retainedOffset expectedIncarnation with
        | .error response => (machine, response)
        | .ok () =>
          (machine.commitRetention slot retainedOffset nowMs, .retentionAdvanced retainedOffset)

/-! ### Flushes -/

/-- The checks of a flushed chunk that need no stream. -/
def checkChunk (streamId : BucketStreamId) (chunk : ColdChunkRef) : Except StreamResponse Unit :=
  if isBlank chunk.s3Path then
    .error (.refusal .invalidColdFlush "cold chunk S3 path must not be empty")
  else if chunk.sharedObject ∧ ¬ pathInBucket streamId.bucketId chunk.s3Path then
    .error (.refusal .invalidColdFlush
      s!"shared cold object '{chunk.s3Path}' is outside bucket '{streamId.bucketId}'")
  else if chunk.objectSize = 0 then
    .error (.refusal .invalidColdFlush "cold chunk object size must be greater than zero")
  else
    .ok ()

/-- Checks a chunk's range against its object and against the stream's hot prefix. -/
def checkChunkRange (chunk : ColdChunkRef) : Except StreamResponse Unit :=
  let streamId := slot.id
  let tailOffset := slot.metadata.tailOffset
  let stale (message : String) : Except StreamResponse Unit :=
    .error (.errorWithNextOffsetAndContext .invalidColdFlush message tailOffset
      [.staleColdFlushCandidate])
  if chunk.endOffset ≤ chunk.startOffset then
    .error (.errorWithNextOffset .invalidColdFlush "cold chunk must cover at least one byte"
      tailOffset)
  else if (checkedAdd chunk.objectOffset (chunk.endOffset - chunk.startOffset)).all fun sliceEnd =>
      sliceEnd > chunk.objectSize then
    .error (.errorWithNextOffset .invalidColdFlush "cold chunk slice is outside the physical object"
      tailOffset)
  else if ¬ chunk.sharedObject ∧ chunk.objectOffset ≠ 0 then
    .error (.errorWithNextOffset .invalidColdFlush
      "exclusive cold chunks must start at physical object offset zero" tailOffset)
  else if chunk.endOffset > tailOffset then
    stale (s!"cold chunk end {chunk.endOffset} is beyond stream '{streamId.display}' tail " ++
      s!"{tailOffset}")
  else if slot.hotBuffer.hotStartOffset ≠ chunk.startOffset then
    stale s!"cold chunk for stream '{streamId.display}' must start at the hot prefix"
  else if ¬ slot.hotBuffer.coversPrefix chunk.startOffset chunk.endOffset then
    stale s!"cold chunk for stream '{streamId.display}' does not cover contiguous hot payload"
  else if chunk.payloadDigest ≠ "" ∧
      slot.hotBuffer.digestPrefix chunk.startOffset chunk.endOffset ≠ some chunk.payloadDigest then
    stale s!"cold chunk payload for stream '{streamId.display}' is stale"
  else
    .ok ()

/-- The read-only half of a flush. -/
def checkColdFlush (streamId : BucketStreamId) (chunk : ColdChunkRef) :
    Except StreamResponse StreamSlot := do
  machine.validateStreamScope streamId
  checkChunk streamId chunk
  match machine.streamSlot streamId with
  | none => .error (streamNotFound streamId)
  | some slot =>
    checkChunkRange slot chunk
    .ok slot

/-- Checks that a flush was planned from the live incarnation. -/
def checkColdFlushGeneration (planned : ℕ) : Except StreamResponse Unit :=
  let live := slot.cold.coldGeneration
  if live = planned then
    .ok ()
  else
    .error (.errorWithNextOffsetAndContext .invalidColdFlush
      (s!"cold chunk for stream '{slot.id.display}' was planned from cold generation {planned}, " ++
        s!"but the live incarnation uses generation {live}")
      slot.metadata.tailOffset [.staleColdFlushCandidate])

/-- The slot after a flush: the chunk's bytes leave the hot buffer. -/
def flushedSlot (chunk : ColdChunkRef) : StreamSlot :=
  { slot with
    hotBuffer := slot.hotBuffer.flushPrefix chunk.endOffset
    cold := slot.cold.pushColdChunk chunk }

/-- The state after a flush of a chunk. -/
def commitFlush (slot : StreamSlot) (chunk : ColdChunkRef) :
    StreamStateMachine :=
  let flushed := flushedSlot slot chunk
  let machine :=
    ((machine.putSlot flushed).removeHotPayloadBytes
      (slot.hotBuffer.len - flushed.hotBuffer.len)).syncHotIndex slot.id
  if chunk.sharedObject then machine.retainSharedColdObject chunk.s3Path else machine

/-- Flushes a stream's hot prefix to a cold chunk. -/
def flushCold (streamId : BucketStreamId) (chunk : ColdChunkRef) (coldGeneration : ℕ) :
    StreamStateMachine × StreamResponse :=
  match machine.checkColdFlush streamId chunk with
  | .error response => (machine, response)
  | .ok slot =>
    match checkColdFlushGeneration slot coldGeneration with
    | .error response => (machine, response)
    | .ok () =>
      (machine.commitFlush slot chunk, .coldFlushed (hotStartOffset (flushedSlot slot chunk)))

/-! ### Compaction -/

/-- Queues the old objects of an accepted compaction: the stream's own at once, the shared ones by
reference count. -/
def releaseCompacted (bucketId : String) (oldChunks : List ColdChunkRef) (gcNotBeforeMs : ℕ) :
    StreamStateMachine :=
  let exclusivePaths :=
    (oldChunks.filter fun chunk => !chunk.sharedObject).map ColdChunkRef.s3Path
  let sharedPaths := (oldChunks.filter fun chunk => chunk.sharedObject).map ColdChunkRef.s3Path
  let machine :=
    if exclusivePaths = [] then machine
    else
      { machine with
        coldGc := machine.coldGc.enqueueAfter bucketId (.paths exclusivePaths) gcNotBeforeMs }
  machine.releaseSharedColdObjects bucketId sharedPaths gcNotBeforeMs

/-- The slot after a compaction took `oldChunks` from its state. -/
def uncompactedSlot (oldChunks : List ColdChunkRef) : StreamSlot :=
  { slot with cold := (slot.cold.removeSharedChunks oldChunks).1 }

/-- Replaces a run of cold chunks with one equivalent object. -/
def compactCold (streamId : BucketStreamId) (oldChunks : List ColdChunkRef)
    (replacement : ColdChunkRef) (gcNotBeforeMs : ℕ) :
    StreamStateMachine × StreamResponse :=
  match machine.validateStreamScope streamId with
  | .error response => (machine, response)
  | .ok () =>
    match machine.streamSlot streamId with
    | none => (machine, streamNotFound streamId)
    | some slot =>
      match checkCompaction oldChunks replacement with
      | .error response => (machine, response)
      | .ok compactedBytes =>
        let accepted (machine : StreamStateMachine) : StreamStateMachine × StreamResponse :=
          (machine.releaseCompacted streamId.bucketId oldChunks gcNotBeforeMs,
            .coldCompacted oldChunks.length compactedBytes)
        if oldChunks.all fun chunk => chunk.sharedObject then
          -- the chunks leave the state here, and a refusal does not put them back
          let removed := machine.putSlot (uncompactedSlot slot oldChunks)
          if (slot.cold.removeSharedChunks oldChunks).2 then
            accepted removed
          else
            (removed, .refusal .invalidColdFlush
              "shared compaction input no longer matches the stream state")
        else
          accepted machine

/-- Removes the listed external references that the stream still holds. -/
def offloadColdRefs (streamId : BucketStreamId) (refs : List ObjectPayloadRef) :
    StreamStateMachine × StreamResponse :=
  match machine.streamSlot streamId with
  | none => (machine, streamNotFound streamId)
  | some slot =>
    let offloaded := slot.cold.removeExternalSegments refs
    (machine.putSlot { slot with cold := offloaded.1 },
      .coldRefsOffloaded offloaded.2 offloaded.1.externalSegments.length)

/-! ### The reclamation queue -/

/-- Drains acknowledged reclamations. -/
def ackColdGc (upToSeq : ℕ) : StreamStateMachine × StreamResponse :=
  let acked := machine.coldGc.ack upToSeq
  ({ machine with coldGc := acked.1 }, .coldGcAcked acked.2)

/-- Moves a failed reclamation to the tail of the queue. -/
def deferColdGc (seq notBeforeMs : ℕ) :
    StreamStateMachine × StreamResponse :=
  let deferred := machine.coldGc.defer seq notBeforeMs
  ({ machine with coldGc := deferred.1 }, .coldGcDeferred deferred.2)

end StreamStateMachine

end Ursula

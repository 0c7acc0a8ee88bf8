import Ursula.Stream.Append

/-!
# Buckets and streams: create, delete, expiry

The commands that make and remove buckets and streams, the group's sweep, its history events and the
`Stream-Incarnation` precondition. The inline and the external create differ in their checks and in
where the initial payload goes, and share the rest (`admitStream`).

## Main definitions

* `StreamStateMachine.createBucket`, `purgeBucket`, `createStream`, `createExternalStream`,
  `deleteStream`, `touchStreamAccess`, `sweep`, `newHistory`: the commands
* `StreamStateMachine.incarnationPrecondition`: whether a command may apply under a token
-/

namespace Ursula

open Word64

/-- A stream to create, its name and payload checked. -/
structure NewStream where
  streamId : BucketStreamId
  contentType : String
  initialLen : ℕ
  messageCount : ℕ
  closeAfter : Bool
  streamSeq : Option String
  streamTtlSeconds : Option ℕ
  streamExpiresAtMs : Option ℕ
  nowMs : ℕ
  /-- The initial payload, when it came inline. -/
  hotBuffer : HotBuffer
  /-- The initial payload's locator, when it was staged. -/
  externalSegments : List ObjectPayloadRef

/-- Checks a create's time to live and expiry. -/
def validateRetention (streamTtlSeconds streamExpiresAtMs : Option ℕ) :
    Except StreamResponse Unit :=
  if streamTtlSeconds.isSome ∧ streamExpiresAtMs.isSome then
    .error (.refusal .invalidRetention "stream ttl and expires-at cannot both be set")
  else if streamTtlSeconds.any fun ttlSeconds => ttlSeconds * 1000 > maxValue then
    .error (.refusal .invalidRetention "stream ttl overflows millisecond range")
  else
    .ok ()

namespace NewStream

/-- The metadata of a new stream. -/
def metadata (input : NewStream) (createdAtMs : ℕ) : StreamMetadata where
  streamId := input.streamId
  contentType := input.contentType
  status := statusFromClosed input.closeAfter
  tailOffset := input.initialLen
  lastStreamSeq := input.streamSeq
  streamTtlSeconds := input.streamTtlSeconds
  streamExpiresAtMs := input.streamExpiresAtMs
  createdAtMs := createdAtMs
  lastTtlTouchAtMs := input.nowMs

/-- The slot of a new stream. -/
def slot (input : NewStream) (createdAtMs history : ℕ) (usage : VersionUsage) : StreamSlot where
  metadata := input.metadata createdAtMs
  hotBuffer := input.hotBuffer
  cold :=
    { StreamColdState.withGeneration createdAtMs with externalSegments := input.externalSegments }
  retainedOffset := 0
  visibleSnapshot := none
  producers := ∅
  retiredEpochWatermark := none
  history := history
  inherited := none
  usage := usage

/-- The answer of a create whose stream is there already. -/
def existingResponse (input : NewStream) (existing : StreamMetadata) : StreamResponse :=
  if existing.contentType = input.contentType ∧
      existing.status = statusFromClosed input.closeAfter ∧
      existing.streamTtlSeconds = input.streamTtlSeconds ∧
      existing.streamExpiresAtMs = input.streamExpiresAtMs then
    .alreadyExists existing.tailOffset (existing.status = .closed) existing.contentType
      existing.streamTtlSeconds existing.streamExpiresAtMs
  else
    .refusal .streamAlreadyExistsConflict
      s!"stream '{input.streamId.display}' already exists with different metadata"

end NewStream

namespace StreamStateMachine

/-! ### Buckets -/

variable (machine : StreamStateMachine)

/-- Creates a bucket. -/
def createBucket (bucketId : String) :
    StreamStateMachine × StreamResponse :=
  match validateBucketId bucketId with
  | .error message => (machine, .refusal .invalidBucketId message)
  | .ok () =>
    if machine.erasedBuckets.contains bucketId then
      (machine, .refusal .bucketErased s!"bucket '{bucketId}' was permanently erased")
    else if machine.buckets.contains bucketId then
      (machine, .bucketAlreadyExists bucketId)
    else
      ({ machine with buckets := machine.buckets.insert bucketId () }, .bucketCreated bucketId)

/-- Removes streams one after another, each purged at `nowMs`, and counts them. -/
def purgeStreams (nowMs : ℕ) : List BucketStreamId → StreamStateMachine → StreamStateMachine × ℕ
  | [], machine => (machine, 0)
  | streamId :: rest, machine =>
    let removal := machine.removeStreamState streamId .purged nowMs
    let purged := purgeStreams nowMs rest removal.1
    (purged.1, if removal.2 then purged.2 + 1 else purged.2)

/-- Removes every stream a bucket owns, then the bucket, and fences its name forever. -/
def purgeBucket (bucketId : String) (nowMs : ℕ) :
    StreamStateMachine × StreamResponse :=
  match validateBucketId bucketId with
  | .error message => (machine, .refusal .invalidBucketId message)
  | .ok () =>
    match machine.history with
    | none =>
      (machine, .refusal .historyPending
        "the group's genesis has not applied; it purges nothing before it")
    | some event =>
      let purged := purgeStreams nowMs (machine.registry.bucketStreamIds bucketId) machine
      let fenced :=
        { purged.1 with
          buckets := purged.1.buckets.erase bucketId
          erasedBuckets := purged.1.erasedBuckets.insert bucketId () }
      (fenced,
        .bucketPurged bucketId purged.2 (fenced.coldGc.lenForBucket bucketId) event.id)

/-! ### Creates -/

/-- The history a create's version counts in. -/
def countingHistory : Except StreamResponse HistoryId :=
  match machine.history with
  | some event => .ok event.id
  | none =>
    .error (.refusal .historyPending
      "the group's genesis has not applied; it creates no stream before it")

/-- Makes a checked stream, over an expired one of its name. -/
def admitStream (history : HistoryId) (input : NewStream) :
    StreamStateMachine × StreamResponse :=
  let machine := (machine.expireStreamIfDue input.streamId input.nowMs).1
  match machine.streamMetadata input.streamId with
  | some existing => (machine, input.existingResponse existing)
  | none =>
    match machine.nextCreatedAtMs input.nowMs with
    | .error response => (machine, response)
    | .ok createdAtMs =>
      let counted := machine.usageOnCreate history input.streamId.bucketId input.initialLen
        (appendedRecordCount input.messageCount input.initialLen) input.nowMs
      match counted.1.insertStreamSlot (input.slot createdAtMs machine.historyId counted.2) with
      | none =>
        (counted.1, .refusal .streamAlreadyExistsConflict
          s!"stream '{input.streamId.display}' already exists with different metadata")
      | some (inserted, _) =>
        (inserted.recordCreatedAtMs createdAtMs,
          .created input.streamId input.initialLen input.closeAfter)

/-- Creates a stream with an inline payload. -/
def createStream (streamId : BucketStreamId) (contentType : String) (initialPayload : Bytes)
    (messageCount : ℕ) (closeAfter : Bool) (streamSeq : Option String)
    (streamTtlSeconds streamExpiresAtMs : Option ℕ) (nowMs : ℕ) :
    StreamStateMachine × StreamResponse :=
  let checked : Except StreamResponse HistoryId := do
    let history ← machine.countingHistory
    machine.validateStreamScope streamId
    validateRetention streamTtlSeconds streamExpiresAtMs
    .ok history
  match checked with
  | .error response => (machine, response)
  | .ok history =>
    machine.admitStream history
      { streamId := streamId
        contentType := contentType
        initialLen := initialPayload.length
        messageCount := messageCount
        closeAfter := closeAfter
        streamSeq := streamSeq
        streamTtlSeconds := streamTtlSeconds
        streamExpiresAtMs := streamExpiresAtMs
        nowMs := nowMs
        hotBuffer := HotBuffer.fromPayload 0 initialPayload
        externalSegments := [] }

/-- Creates a stream with a staged payload, whose locator the state keeps. -/
def createExternalStream (streamId : BucketStreamId) (contentType : String)
    (initialPayload : ExternalPayloadRef) (messageCount : ℕ) (closeAfter : Bool)
    (streamSeq : Option String) (streamTtlSeconds streamExpiresAtMs : Option ℕ) (nowMs : ℕ) :
    StreamStateMachine × StreamResponse :=
  let checked : Except StreamResponse HistoryId := do
    let history ← machine.countingHistory
    validateExternalPayloadRef initialPayload
    machine.validateStreamScope streamId
    validateRetention streamTtlSeconds streamExpiresAtMs
    validateMessageCount contentType initialPayload.payloadLen messageCount
    .ok history
  match checked with
  | .error response => (machine, response)
  | .ok history =>
    machine.admitStream history
      { streamId := streamId
        contentType := contentType
        initialLen := initialPayload.payloadLen
        messageCount := messageCount
        closeAfter := closeAfter
        streamSeq := streamSeq
        streamTtlSeconds := streamTtlSeconds
        streamExpiresAtMs := streamExpiresAtMs
        nowMs := nowMs
        hotBuffer := HotBuffer.empty
        externalSegments :=
          [{ startOffset := 0
             endOffset := initialPayload.payloadLen
             s3Path := initialPayload.s3Path
             objectSize := initialPayload.objectSize
             objectOffset := 0 }] }

/-! ### Deletes and accesses -/

/-- Deletes a stream. One that has expired at `nowMs` is removed all the same. -/
def deleteStream (streamId : BucketStreamId) (nowMs : ℕ) :
    StreamStateMachine × StreamResponse :=
  match machine.validateStreamScope streamId with
  | .error response => (machine, response)
  | .ok () =>
    match machine.streamMetadata streamId with
    | none => (machine, streamNotFound streamId)
    | some stream =>
      let expired := streamIsExpired stream nowMs
      ((machine.removeStreamState streamId (if expired then .expired else .deleted) nowMs).1,
        .deleted expired)

/-- Records an access to a stream, renewing its time to live when asked to. -/
def touchStreamAccess (streamId : BucketStreamId) (nowMs : ℕ) (renewTtl : Bool) :
    StreamStateMachine × StreamResponse :=
  match machine.validateStreamScope streamId with
  | .error response => (machine, response)
  | .ok () =>
    match machine.streamSlot streamId with
    | none => (machine, streamNotFound streamId)
    | some slot =>
      let stream := slot.metadata
      if streamIsExpired stream nowMs then
        ((machine.removeStreamState streamId .expired nowMs).1, .accessed true true)
      else if renewTtl ∧ stream.streamTtlSeconds.isSome then
        let renewed := renewStreamTtl stream nowMs
        if renewed.lastTtlTouchAtMs ≠ stream.lastTtlTouchAtMs then
          ((machine.putSlot { slot with metadata := renewed }).refreshTtlEntry streamId,
            .accessed true false)
        else
          (machine, .accessed false false)
      else
        (machine, .accessed false false)

/-! ### Sweeps and histories -/

/-- Removes up to `limit` streams that have expired at `nowMs`, in the order of the expiry index,
and counts them. Every stream the index pops is live. -/
def sweepExpired (nowMs : ℕ) : (limit : ℕ) → StreamStateMachine → StreamStateMachine × ℕ
  | 0, machine => (machine, 0)
  | limit + 1, machine =>
    let popped := machine.registry.popExpired nowMs
    let machine := { machine with registry := popped.1 }
    match popped.2 with
    | none => (machine, 0)
    | some streamId =>
      let rest := sweepExpired nowMs limit (machine.removeStreamState streamId .expired nowMs).1
      (rest.1, rest.2 + 1)

/-- The group's sweep: removes expired streams, then folds end records that the group held before
the entry. -/
def sweep (nowMs : ℕ) (limit : ℕ+) (retireThrough : ℕ) :
    StreamStateMachine × StreamResponse :=
  let retireThrough := min retireThrough machine.usage.usageSeq
  let swept := sweepExpired nowMs limit machine
  let retired := retireEndRecords retireThrough limit swept.1
  (retired.1, .swept swept.2 retired.2)

/-- The hexadecimal text of a number, with its mark. -/
def hexText (n : ℕ) : String := "0x" ++ String.ofList (Nat.toDigits 16 n)

/-- Begins a new history of the group. -/
def newHistory (index : ℕ) (history : HistoryId) (previous kept : ℕ) (leader : HistoryLeader)
    (nowMs : ℕ) :
    StreamStateMachine × StreamResponse :=
  if previous ≠ machine.historyId then
    (machine, .refusal .historyMismatch
      (s!"history event names {hexText previous} as the history it replaces, but the group's " ++
        s!"history is {hexText machine.historyId}"))
  else
    ({ machine with
        usage := if previous = 0 then machine.usage.recordGenesis history else machine.usage
        history := some
          { id := history
            eventIndex := index
            previous := previous
            kept := kept
            leader := leader
            imported := machine.history.bind HistoryEvent.imported }
        lastCreatedAtMs := max machine.lastCreatedAtMs nowMs },
      .historyStarted history)

/-! ### The incarnation precondition -/

/-- The stream, the clock and whether it creates, of a command that may carry the precondition. -/
def preconditionTarget : StreamCommand → Option (BucketStreamId × ℕ × Bool)
  | .createStream streamId _ _ _ _ _ _ nowMs => some (streamId, nowMs, true)
  | .createExternal streamId _ _ _ _ _ _ _ nowMs => some (streamId, nowMs, true)
  | .append streamId _ _ _ _ _ nowMs => some (streamId, nowMs, false)
  | .appendExternal streamId _ _ _ _ _ _ nowMs => some (streamId, nowMs, false)
  | .publishSnapshot streamId _ _ _ nowMs _ => some (streamId, nowMs, false)
  | .publishSnapshotExternal streamId _ _ _ _ nowMs _ => some (streamId, nowMs, false)
  | .advanceRetention streamId _ nowMs _ => some (streamId, nowMs, false)
  | .close streamId _ _ nowMs => some (streamId, nowMs, false)
  | .deleteStream streamId nowMs => some (streamId, nowMs, false)
  | _ => none

/-- The refusal of a command under a `Stream-Incarnation` precondition, when it may not apply. A
command that never carries the precondition applies unchanged. -/
def incarnationPrecondition [Blake3] (command : StreamCommand) (expected : ℕ) :
    Option StreamResponse :=
  match preconditionTarget command with
  | none => none
  | some (streamId, nowMs, create) =>
    match (machine.streamMetadata streamId).filter fun stream => !streamIsExpired stream nowMs with
    | some stream =>
      let current := machine.tokenOf stream
      if current = expected then
        none
      else
        some (.errorWithContext .incarnationMismatch
          s!"stream '{streamId.display}' is incarnation {current}, not {expected}"
          [.streamIncarnation current])
    | none =>
      if create && (validateBucketId streamId.bucketId).isOk && (validateStreamId streamId).isOk &&
          !machine.erasedBuckets.contains streamId.bucketId then
        some (.refusal .incarnationMismatch
          s!"stream '{streamId.display}' does not exist, so it is not incarnation {expected}")
      else
        none

end StreamStateMachine

end Ursula

import Ursula.Stream.ProducerRecord

/-!
# Appends

The inline and the external append, and the close, which is an append without a body. A write is
decided before it changes anything: the stream's expiry and the writer's own idle record first, then
the producer gate, then the content checks; only a write that passes them all is committed. A write
with producer headers ends with the producer cap, whatever its answer.

## Main definitions

* `AppendStreamInput`, `AppendExternalInput`: what a write asks for
* `StreamStateMachine.producerGate`: the outcome of a write's producer key
* `checkAppend`, `checkAppendExternal`: the content checks of a write that would apply
* `StreamStateMachine.commitAppend`, `StreamStateMachine.commitExternal`: an applied write
* `StreamStateMachine.appendBorrowed`, `StreamStateMachine.appendExternal`,
  `StreamStateMachine.close`: the commands
-/

namespace Ursula

open Word64

/-- An inline append, or a close without a body. -/
structure AppendStreamInput where
  streamId : BucketStreamId
  contentType : Option String
  payload : Bytes
  closeAfter : Bool
  streamSeq : Option String
  producer : Option ProducerRequest
  nowMs : ℕ
  kind : WriteKind
  check : IncarnationCheck

/-- An append of a staged payload. -/
structure AppendExternalInput where
  streamId : BucketStreamId
  contentType : Option String
  payload : ExternalPayloadRef
  messageCount : ℕ
  closeAfter : Bool
  streamSeq : Option String
  producer : Option ProducerRequest
  nowMs : ℕ
  check : IncarnationCheck

/-- How an applied producer write changes its record. -/
inductive Advance
  | claim (closes : Option ClosedEpoch) (opened : Opened)
  | next
deriving DecidableEq

/-- The outcome of evaluating a write's producer key before it applies. -/
inductive ProducerGate
  | unkeyed
  | apply (key : WriteKey) (advance : Advance)
  | repeat (ack : ProducerAck)
deriving DecidableEq

/-! ## Refusals -/

/-- The text of a producer refusal. -/
def refusalMessage (producerId : String) (key : WriteKey) : ProducerRefusal → String
  | .epochClosed epoch _ closed =>
    s!"producer '{producerId}' epoch {closed.epoch} is closed after sequence {closed.seq}; " ++
      s!"current epoch is {epoch}"
  | .expired epoch =>
    s!"producer '{producerId}' epoch {key.epoch} is not remembered; claim an epoch above {epoch}"
  | .staleEpoch epoch =>
    s!"producer '{producerId}' epoch {key.epoch} is stale; current epoch is {epoch}"
  | .keyConflict epoch =>
    s!"producer '{producerId}' epoch {epoch} sequence {key.seq} holds a write with another identity"
  | .epochNotClaimed =>
    s!"producer '{producerId}' new epoch {key.epoch} must start at sequence 0"

/-- The answer to a refused producer write. -/
def refusalResponse (producerId : String) (key : WriteKey) : Refusal → StreamResponse
  | .seqGap expected received =>
    .errorWithContext .producerSeqConflict
      s!"producer '{producerId}' expected sequence {expected}, received {received}"
      [.producerSeqConflict expected received]
  | .producer refusal =>
    .errorWithContext refusal.code (refusalMessage producerId key refusal) [.producer refusal]

variable (stream : StreamMetadata)

/-- Checks that a write's stream sequence is above the last one. -/
def checkStreamSeq (incoming : Option String) :
    Except StreamResponse Unit :=
  match incoming, stream.lastStreamSeq with
  | some incoming, some last =>
    if incoming ≤ last then
      .error (.errorWithNextOffsetAndContext .streamSeqConflict
        s!"stream sequence '{incoming}' is not greater than last sequence '{last}'"
        stream.tailOffset [.lastStreamSeq last])
    else
      .ok ()
  | _, _ => .ok ()

/-- The refusal of a write to a closed stream. -/
def streamClosedResponse (streamId : BucketStreamId) (stream : StreamMetadata) : StreamResponse :=
  .errorWithNextOffsetAndContext .streamClosed s!"stream '{streamId.display}' is closed"
    stream.tailOffset [.streamClosed]

/-- Checks that a write's content type is the stream's. -/
def checkContentType (contentType : Option String) :
    Except StreamResponse String :=
  match contentType with
  | none => .error (.refusal .missingContentType "append with a body must include content type")
  | some contentType =>
    if contentType ≠ stream.contentType then
      .error (.errorWithNextOffset .contentTypeMismatch
        (s!"append content type '{contentType}' does not match stream content type " ++
          s!"'{stream.contentType}'")
        stream.tailOffset)
    else
      .ok contentType

/-- Checks a staged payload's reference. -/
def validateExternalPayloadRef (payload : ExternalPayloadRef) : Except StreamResponse Unit :=
  if isBlank payload.s3Path then
    .error (.refusal .invalidColdFlush "external payload S3 path must not be empty")
  else if payload.payloadLen = 0 then
    .error (.refusal .emptyAppend "external payload length must be greater than zero")
  else if payload.objectSize < payload.payloadLen then
    .error (.refusal .invalidColdFlush "external payload object size must cover payload length")
  else
    .ok ()

/-- Checks the message count of a staged payload. -/
def validateMessageCount (contentType : String) (payloadLen messageCount : ℕ) :
    Except StreamResponse Unit :=
  if messageCountValid (isJsonRecordContentType contentType) payloadLen messageCount then
    .ok ()
  else
    .error (.refusal .invalidRecordBoundaries
      "message count does not match the canonical JSON payload")

/-! ## Content checks -/

/-- The content fault of a write, none without producer headers. -/
def contentFaultOf (producer : Option ProducerRequest) :
    Except StreamResponse (Option ContentFault) :=
  match producer with
  | none => .ok none
  | some producer => producerContentFault producer

/-- The checks of an inline write that would apply: its message count, or the answer that ends it
here. A close of a closed stream without producer headers is answered as done. -/
def checkAppend (input : AppendStreamInput) (gate : Option (WriteKey × Advance))
    (fault : Option ContentFault) : Except StreamResponse ℕ :=
  if stream.status = .closed then
    if input.kind = .closeOnly ∧ gate.isNone then .error (.closed stream.tailOffset none)
    else .error (streamClosedResponse input.streamId stream)
  else
    match fault with
    | some fault => .error (contentFaultResponse fault)
    | none =>
      if input.payload = [] ∧ ¬ input.closeAfter then
        .error (.refusal .emptyAppend "append payload must be non-empty unless closing the stream")
      else do
        if input.payload ≠ [] then
          let _ ← checkContentType stream input.contentType
        let messageCount ←
          match input.contentType with
          | none => .ok 0
          | some contentType =>
            match canonicalJsonMessageCount contentType input.payload with
            | some messageCount => .ok messageCount
            | none =>
              .error (.refusal .invalidRecordBoundaries
                "application/json append payload must use canonical newline boundaries")
        checkStreamSeq stream input.streamSeq
        .ok messageCount

/-- The checks of an external append that would apply. -/
def checkAppendExternal (input : AppendExternalInput) (fault : Option ContentFault) :
    Except StreamResponse Unit :=
  if stream.status = .closed then
    .error (streamClosedResponse input.streamId stream)
  else
    match fault with
    | some fault => .error (contentFaultResponse fault)
    | none => do
      let _ ← checkContentType stream input.contentType
      validateMessageCount stream.contentType input.payload.payloadLen input.messageCount
      checkStreamSeq stream input.streamSeq

/-! ## Committed writes -/

/-- The metadata after a write. -/
def writeMetadata (len : ℕ) (streamSeq : Option String) (nowMs : ℕ) (closeAfter : Bool) :
    StreamMetadata :=
  let stream := { stream with tailOffset := satAdd stream.tailOffset len }
  let stream :=
    match streamSeq with
    | none => stream
    | some seq => { stream with lastStreamSeq := some seq }
  let stream := renewStreamTtl stream nowMs
  if closeAfter then { stream with status := .closed } else stream

@[simp] theorem writeMetadata_streamId (len : ℕ) (streamSeq : Option String) (nowMs : ℕ)
    (closeAfter : Bool) :
    (writeMetadata stream len streamSeq nowMs closeAfter).streamId = stream.streamId := by
  unfold writeMetadata
  cases streamSeq <;> cases closeAfter <;> simp

@[simp] theorem writeMetadata_tailOffset (len : ℕ) (streamSeq : Option String) (nowMs : ℕ)
    (closeAfter : Bool) :
    (writeMetadata stream len streamSeq nowMs closeAfter).tailOffset =
      satAdd stream.tailOffset len := by
  unfold writeMetadata renewStreamTtl
  cases streamSeq <;> cases closeAfter <;> simp only [Bool.false_eq_true, if_false, if_true] <;>
    split_ifs <;> rfl

namespace StreamSlot

/-- Records an applied producer write and returns its answer. -/
def recordProducerSuccess (slot : StreamSlot) (history : ℕ) (producerId : String) (key : WriteKey)
    (advance : Advance) (receipt : WriteReceipt) (nowMs : ℕ) : StreamSlot × Option ProducerAck :=
  match advance with
  | .claim closes opened =>
    let state := ProducerState.claimed key closes opened history receipt nowMs
    ({ slot with producers := slot.producers.insert producerId state }, some state.appliedAck)
  | .next =>
    match slot.producers.get? producerId with
    -- the next seq was evaluated against this record
    | none => (slot, none)
    | some state =>
      let state := state.advance key receipt nowMs
      ({ slot with producers := slot.producers.insert producerId state }, some state.appliedAck)

/-- Records an applied write's producer key, when it has one. -/
def recordProducer (slot : StreamSlot) (history : ℕ) (producer : Option ProducerRequest)
    (gate : Option (WriteKey × Advance)) (receipt : WriteReceipt) (nowMs : ℕ) :
    StreamSlot × Option ProducerAck :=
  match producer, gate with
  | some producer, some (key, advance) =>
    slot.recordProducerSuccess history producer.producerId key advance receipt nowMs
  | _, _ => (slot, none)

theorem recordProducer_eq (slot : StreamSlot) (history : ℕ) (producer : Option ProducerRequest)
    (gate : Option (WriteKey × Advance)) (receipt : WriteReceipt) (nowMs : ℕ) :
    (slot.recordProducer history producer gate receipt nowMs).1 =
      { slot with
        producers := (slot.recordProducer history producer gate receipt nowMs).1.producers } := by
  unfold recordProducer recordProducerSuccess
  cases producer with
  | none => rfl
  | some producer =>
    match gate with
    | none => rfl
    | some (key, .claim closes opened) => rfl
    | some (key, .next) => cases h : slot.producers.get? producer.producerId <;> simp [h]

/-- The slot after an applied write of `len` bytes, before its bytes are placed: its history, its
metadata and its producer's record. -/
def write (slot : StreamSlot) (group len : ℕ) (streamSeq : Option String) (closeAfter : Bool)
    (producer : Option ProducerRequest) (gate : Option (WriteKey × Advance)) (nowMs : ℕ) :
    StreamSlot × Option ProducerAck :=
  let slot := slot.inheritHistory group
  let stream := writeMetadata slot.metadata len streamSeq nowMs closeAfter
  let receipt : WriteReceipt :=
    { startOffset := slot.metadata.tailOffset
      nextOffset := stream.tailOffset
      closed := stream.status = .closed }
  recordProducer { slot with metadata := stream } group producer gate receipt nowMs

@[simp] theorem inheritHistory_metadata (slot : StreamSlot) (group : ℕ) :
    (slot.inheritHistory group).metadata = slot.metadata := by
  unfold inheritHistory
  split_ifs <;> rfl

theorem write_eq (slot : StreamSlot) (group len : ℕ) (streamSeq : Option String) (closeAfter : Bool)
    (producer : Option ProducerRequest) (gate : Option (WriteKey × Advance)) (nowMs : ℕ) :
    (slot.write group len streamSeq closeAfter producer gate nowMs).1 =
      { slot.inheritHistory group with
        metadata := writeMetadata slot.metadata len streamSeq nowMs closeAfter
        producers :=
          (slot.write group len streamSeq closeAfter producer gate nowMs).1.producers } := by
  rw [← inheritHistory_metadata slot group]
  exact recordProducer_eq ..

theorem inheritHistory_eq (slot : StreamSlot) (group : ℕ) : slot.inheritHistory group = { slot with
        inherited := (slot.inheritHistory group).inherited
        usage := (slot.inheritHistory group).usage
        history := (slot.inheritHistory group).history } := by
  unfold inheritHistory
  split_ifs <;> rfl

section Fields

variable (slot : StreamSlot) (group len : ℕ) (streamSeq : Option String) (closeAfter : Bool)
  (producer : Option ProducerRequest) (gate : Option (WriteKey × Advance)) (nowMs : ℕ)

@[simp] theorem write_metadata :
    (slot.write group len streamSeq closeAfter producer gate nowMs).1.metadata =
      writeMetadata slot.metadata len streamSeq nowMs closeAfter := by
  rw [write_eq]

@[simp] theorem write_hotBuffer :
    (slot.write group len streamSeq closeAfter producer gate nowMs).1.hotBuffer =
      slot.hotBuffer := by
  rw [write_eq, inheritHistory_eq]

@[simp] theorem write_cold :
    (slot.write group len streamSeq closeAfter producer gate nowMs).1.cold = slot.cold := by
  rw [write_eq, inheritHistory_eq]

@[simp] theorem write_retainedOffset :
    (slot.write group len streamSeq closeAfter producer gate nowMs).1.retainedOffset =
      slot.retainedOffset := by
  rw [write_eq, inheritHistory_eq]

@[simp] theorem write_visibleSnapshot :
    (slot.write group len streamSeq closeAfter producer gate nowMs).1.visibleSnapshot =
      slot.visibleSnapshot := by
  rw [write_eq, inheritHistory_eq]

end Fields

@[simp] theorem write_id (slot : StreamSlot) (group len : ℕ) (streamSeq : Option String)
    (closeAfter : Bool) (producer : Option ProducerRequest) (gate : Option (WriteKey × Advance))
    (nowMs : ℕ) :
    (slot.write group len streamSeq closeAfter producer gate nowMs).1.id = slot.id := by
  rw [write_eq]
  exact writeMetadata_streamId ..

end StreamSlot

namespace StreamStateMachine

variable (machine : StreamStateMachine)

/-- Evaluates a write's key. An idle record counts as retired. -/
def evaluateWrite (slot : StreamSlot) (producerId : String) (key : WriteKey)
    (check : IncarnationCheck) (nowMs : ℕ) : Evaluation :=
  match slot.producers.get? producerId with
  | none => evaluate none slot.retiredEpochWatermark machine.historyId key check
  | some record =>
    if producerIsIdle record nowMs then
      evaluate none (StreamSlot.raiseFloor slot.retiredEpochWatermark record.epoch)
        machine.historyId key check
    else
      evaluate (some record) slot.retiredEpochWatermark machine.historyId key check

/-- Evaluates a write's producer key before it applies. -/
def producerGate (streamId : BucketStreamId) (producer : Option ProducerRequest)
    (check : IncarnationCheck) (nowMs : ℕ) :
    Except StreamResponse ProducerGate :=
  match producer with
  | none => .ok .unkeyed
  | some producer => do
    let key ← producerWriteKey producer
    match machine.streamSlot streamId with
    | none => .error (streamNotFound streamId)
    | some slot =>
      match machine.evaluateWrite slot producer.producerId key check nowMs with
      | .claim closes opened =>
        -- a new producer needs room
        if closes.isNone ∧ ¬ slot.producerCapAdmits producer.producerId nowMs then
          .error (.refusal .producerLimit
            (s!"producer_limit: stream '{streamId.display}' already has {maxProducersPerStream} " ++
              "producers active within the last hour"))
        else
          .ok (.apply key (.claim closes opened))
      | .next => .ok (.apply key .next)
      | .repeat ack => .ok (.repeat ack)
      | .refuse refusal => .error (refusalResponse producer.producerId key refusal)

/-- The answer to a repeat of a producer write that applied before. -/
def repeatResponse (streamId : BucketStreamId) (ack : ProducerAck) (closeOnly : Bool) :
    StreamResponse :=
  let receipt : WriteReceipt :=
    match ack.delivery with
    | .applied receipt => receipt
    | .repeat receipt => receipt
    | .evicted =>
      match machine.streamMetadata streamId with
      | none => { startOffset := 0, nextOffset := 0, closed := false }
      | some stream =>
        { startOffset := stream.tailOffset
          nextOffset := stream.tailOffset
          closed := stream.status = .closed }
  if closeOnly then .closed receipt.nextOffset (some ack)
  else .appended receipt.startOffset receipt.nextOffset receipt.closed (some ack)

/-! ### Inline appends -/

/-- An applied inline write: a close changes the metadata only, an append also places its bytes and
counts them. -/
def commitAppend (slot : StreamSlot) (input : AppendStreamInput)
    (gate : Option (WriteKey × Advance)) (messageCount : ℕ) :
    StreamStateMachine × StreamResponse :=
  let payloadLen := input.payload.length
  let offset := slot.metadata.tailOffset
  let written := slot.write machine.historyId payloadLen input.streamSeq input.closeAfter
    input.producer gate input.nowMs
  let nextOffset := written.1.metadata.tailOffset
  if input.kind = .closeOnly then
    ((machine.putSlot written.1).refreshTtlEntry input.streamId, .closed nextOffset written.2)
  else
    let pushed :=
      { written.1 with hotBuffer := written.1.hotBuffer.pushSlice offset input.payload }
    (((((machine.putSlot pushed).refreshTtlEntry input.streamId).addHotPayloadBytes
        payloadLen).syncHotIndex input.streamId).usageOnAppend input.streamId payloadLen
          (appendedRecordCount messageCount payloadLen) input.nowMs,
      .appended offset nextOffset input.closeAfter written.2)

/-- An inline write whose producer key was evaluated. -/
def appendGated (input : AppendStreamInput) (gate : Option (WriteKey × Advance)) :
    StreamStateMachine × StreamResponse :=
  match contentFaultOf input.producer with
  | .error response => (machine, response)
  | .ok fault =>
    match machine.streamSlot input.streamId with
    | none => (machine, streamNotFound input.streamId)
    | some slot =>
      match checkAppend slot.metadata input gate fault with
      | .error response => (machine, response)
      | .ok messageCount => machine.commitAppend slot input gate messageCount

/-- An inline write to a live stream, its writer's idle record retired. -/
def appendLive (input : AppendStreamInput) :
    StreamStateMachine × StreamResponse :=
  match machine.producerGate input.streamId input.producer input.check input.nowMs with
  | .error response => (machine, response)
  | .ok (.repeat ack) =>
    (machine, machine.repeatResponse input.streamId ack (input.kind = .closeOnly))
  | .ok .unkeyed => machine.appendGated input none
  | .ok (.apply key advance) => machine.appendGated input (some (key, advance))

/-- Retires the writer's own idle record, for a write with producer headers. -/
def expireWriter (streamId : BucketStreamId) (producer : Option ProducerRequest) (nowMs : ℕ) :
    StreamStateMachine :=
  match producer with
  | none => machine
  | some producer => machine.expireIdleProducer streamId producer.producerId nowMs

/-- The producer cap, for a write with producer headers. -/
def enforceOn (streamId : BucketStreamId) (producer : Option ProducerRequest) (nowMs : ℕ) :
    StreamStateMachine :=
  match producer with
  | none => machine
  | some _ => machine.enforceProducerCap streamId nowMs

/-- One inline write, before the producer cap. -/
def appendUnenforced (input : AppendStreamInput) :
    StreamStateMachine × StreamResponse :=
  match machine.validateStreamScope input.streamId with
  | .error response => (machine, response)
  | .ok () =>
    match machine.streamMetadata input.streamId with
    | none => (machine, streamNotFound input.streamId)
    | some _ =>
      let live := machine.expireStreamIfDue input.streamId input.nowMs
      if live.2 then
        (live.1, streamNotFound input.streamId)
      else
        (live.1.expireWriter input.streamId input.producer input.nowMs).appendLive input

/-- Applies one inline write, then enforces the producer cap once. -/
def appendBorrowed (input : AppendStreamInput) :
    StreamStateMachine × StreamResponse :=
  let applied := machine.appendUnenforced input
  (applied.1.enforceOn input.streamId input.producer input.nowMs, applied.2)

/-- Closes a stream: an append without a body. -/
def close (streamId : BucketStreamId) (streamSeq : Option String)
    (producer : Option ProducerRequest) (nowMs : ℕ) (check : IncarnationCheck) :
    StreamStateMachine × StreamResponse :=
  machine.appendBorrowed
    { streamId := streamId
      contentType := none
      payload := []
      closeAfter := true
      streamSeq := streamSeq
      producer := producer
      nowMs := nowMs
      kind := .closeOnly
      check := check }

/-! ### External appends -/

/-- An applied external append: the state holds the payload's locator. -/
def commitExternal (slot : StreamSlot) (input : AppendExternalInput)
    (gate : Option (WriteKey × Advance)) : StreamStateMachine × StreamResponse :=
  let offset := slot.metadata.tailOffset
  let written := slot.write machine.historyId input.payload.payloadLen input.streamSeq
    input.closeAfter input.producer gate input.nowMs
  let nextOffset := written.1.metadata.tailOffset
  let object : ObjectPayloadRef :=
    { startOffset := offset
      endOffset := nextOffset
      s3Path := input.payload.s3Path
      objectSize := input.payload.objectSize
      objectOffset := 0 }
  let pushed := { written.1 with cold := written.1.cold.pushDirectExternalSegment object }
  let appendedBytes := nextOffset - offset
  ((((machine.putSlot pushed).refreshTtlEntry input.streamId).syncHotIndex
      input.streamId).usageOnAppend input.streamId appendedBytes
        (appendedRecordCount input.messageCount appendedBytes) input.nowMs,
    .appended offset nextOffset input.closeAfter written.2)

/-- An external append whose producer key was evaluated. -/
def appendExternalGated (input : AppendExternalInput) (gate : Option (WriteKey × Advance)) :
    StreamStateMachine × StreamResponse :=
  match contentFaultOf input.producer with
  | .error response => (machine, response)
  | .ok fault =>
    match machine.streamSlot input.streamId with
    | none => (machine, streamNotFound input.streamId)
    | some slot =>
      match checkAppendExternal slot.metadata input fault with
      | .error response => (machine, response)
      | .ok () => machine.commitExternal slot input gate

/-- An external append to a live stream, its writer's idle record retired. -/
def appendExternalLive (input : AppendExternalInput) :
    StreamStateMachine × StreamResponse :=
  match machine.producerGate input.streamId input.producer input.check input.nowMs with
  | .error response => (machine, response)
  | .ok (.repeat ack) => (machine, machine.repeatResponse input.streamId ack false)
  | .ok .unkeyed => machine.appendExternalGated input none
  | .ok (.apply key advance) => machine.appendExternalGated input (some (key, advance))

/-- One external append, before the producer cap. -/
def appendExternalUnenforced (input : AppendExternalInput) :
    StreamStateMachine × StreamResponse :=
  match validateExternalPayloadRef input.payload with
  | .error response => (machine, response)
  | .ok () =>
    match machine.validateStreamScope input.streamId with
    | .error response => (machine, response)
    | .ok () =>
      match machine.streamMetadata input.streamId with
      | none => (machine, streamNotFound input.streamId)
      | some _ =>
        let live := machine.expireStreamIfDue input.streamId input.nowMs
        if live.2 then
          (live.1, streamNotFound input.streamId)
        else
          (live.1.expireWriter input.streamId input.producer input.nowMs).appendExternalLive input

/-- Applies one external append, then enforces the producer cap once. -/
def appendExternal (input : AppendExternalInput) :
    StreamStateMachine × StreamResponse :=
  let applied := machine.appendExternalUnenforced input
  (applied.1.enforceOn input.streamId input.producer input.nowMs, applied.2)

end StreamStateMachine

end Ursula

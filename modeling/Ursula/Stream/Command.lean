import Ursula.Stream.Model

/-!
# Commands and responses

The commands of a group's log and the answers apply gives.

## Main definitions

* `StreamCommand`: the commands, among them `StreamCommand.ifIncarnation`, a command under a
  `Stream-Incarnation` precondition
* `StreamResponse`: the answers, among them `StreamResponse.error` with its code, text and context
* `ProducerAck`, `ProducerDelivery`: the answer to a producer write that applied
-/

namespace Ursula

/-! ## Commands -/

/-- A command of a group's log. -/
inductive StreamCommand
  | createBucket (bucketId : String)
  | createStream (streamId : BucketStreamId) (contentType : String) (initialPayload : Bytes)
      (closeAfter : Bool) (streamSeq : Option String) (streamTtlSeconds : Option ℕ)
      (streamExpiresAtMs : Option ℕ) (nowMs : ℕ)
  | createExternal (streamId : BucketStreamId) (contentType : String)
      (initialPayload : ExternalPayloadRef) (messageCount : ℕ) (closeAfter : Bool)
      (streamSeq : Option String) (streamTtlSeconds : Option ℕ) (streamExpiresAtMs : Option ℕ)
      (nowMs : ℕ)
  | append (streamId : BucketStreamId) (contentType : Option String) (payload : Bytes)
      (closeAfter : Bool) (streamSeq : Option String) (producer : Option ProducerRequest)
      (nowMs : ℕ)
  | appendExternal (streamId : BucketStreamId) (contentType : Option String)
      (payload : ExternalPayloadRef) (messageCount : ℕ) (closeAfter : Bool)
      (streamSeq : Option String) (producer : Option ProducerRequest) (nowMs : ℕ)
  | publishSnapshot (streamId : BucketStreamId) (snapshotOffset : ℕ) (contentType : String)
      (payload : Bytes) (nowMs : ℕ) (expectedIncarnation : Option ℕ)
  | publishSnapshotExternal (streamId : BucketStreamId) (snapshotOffset : ℕ)
      (contentType : String) (object : ExternalPayloadRef) (digest : String) (nowMs : ℕ)
      (expectedIncarnation : Option ℕ)
  | advanceRetention (streamId : BucketStreamId) (retainedOffset nowMs : ℕ)
      (expectedIncarnation : Option ℕ)
  | touchStreamAccess (streamId : BucketStreamId) (nowMs : ℕ) (renewTtl : Bool)
  | flushCold (streamId : BucketStreamId) (chunk : ColdChunkRef) (coldGeneration : ℕ)
  | compactCold (streamId : BucketStreamId) (oldChunks : List ColdChunkRef)
      (replacement : ColdChunkRef) (gcNotBeforeMs : ℕ)
  | close (streamId : BucketStreamId) (streamSeq : Option String)
      (producer : Option ProducerRequest) (nowMs : ℕ)
  | deleteStream (streamId : BucketStreamId) (nowMs : ℕ)
  | purgeBucket (bucketId : String) (nowMs : ℕ)
  | ackColdGc (upToSeq : ℕ)
  | deferColdGc (seq notBeforeMs : ℕ)
  | importSnapshot (snapshot : StreamSnapshot) (history : HistoryId) (backupDigest : Digest32)
      (nowMs : ℕ)
  | newHistory (history : HistoryId) (nowMs previous kept : ℕ) (leader : HistoryLeader)
  | tidyStream (streamId : BucketStreamId) (nowMs : ℕ)
  | sweep (nowMs : ℕ) (limit : ℕ+) (retireThrough : ℕ)
  | offloadColdRefs (streamId : BucketStreamId) (refs : List ObjectPayloadRef)
  /-- Applies `command` only if its stream's token in the current history is `incarnation`. -/
  | ifIncarnation (incarnation : ℕ) (command : StreamCommand)

/-! ## Responses -/

/-- The code of a refusal. -/
inductive StreamErrorCode
  | invalidBucketId
  | invalidStreamId
  | bucketNotFound
  | bucketErased
  | streamNotFound
  | streamGone
  | streamAlreadyExistsConflict
  | missingContentType
  | contentTypeMismatch
  | emptyAppend
  | streamClosed
  | streamSeqConflict
  | invalidProducer
  | producerEpochClosed
  | producerExpired
  | producerEpochStale
  | producerKeyConflict
  | producerDigestMismatch
  | producerSeqConflict
  | invalidRetention
  | offsetOutOfRange
  | invalidColdFlush
  | invalidSnapshot
  | snapshotNotFound
  | snapshotConflict
  | invalidRecordBoundaries
  | jsonBoundaryUnverified
  | importConflict
  | importInvalid
  | producerLimit
  | createdAtOutOfRange
  | incarnationMismatch
  | historyPending
  | historyMismatch
deriving DecidableEq

/-- What closed an epoch. -/
inductive ClosedBy
  | claim
  | history
deriving DecidableEq

/-- A producer refusal with what its answer reports. -/
inductive ProducerRefusal
  | epochClosed (epoch : ℕ) (by' : ClosedBy) (closed : ClosedEpoch)
  | expired (epoch : ℕ)
  | staleEpoch (epoch : ℕ)
  | keyConflict (epoch : ℕ)
  | epochNotClaimed
deriving DecidableEq

/-- The error code of a producer refusal. -/
def ProducerRefusal.code : ProducerRefusal → StreamErrorCode
  | .epochClosed .. => .producerEpochClosed
  | .expired .. => .producerExpired
  | .staleEpoch .. => .producerEpochStale
  | .keyConflict .. => .producerKeyConflict
  | .epochNotClaimed => .invalidProducer

/-- What a refusal reports beside its text. -/
inductive StreamErrorContext
  | streamClosed
  | staleColdFlushCandidate
  | producer (refusal : ProducerRefusal)
  | producerSeqConflict (expectedSeq receivedSeq : ℕ)
  | streamIncarnation (incarnation : ℕ)
  | latestSnapshot (offset : ℕ) (digest : String)
  | lastStreamSeq (seq : String)
deriving DecidableEq

/-- How a producer write applied. -/
inductive ProducerDelivery
  /-- This command applied the write. -/
  | applied (receipt : WriteReceipt)
  /-- The producer's newest write, applied before. -/
  | repeat (receipt : WriteReceipt)
  /-- An older write of the epoch, applied before; no range is kept for it. -/
  | evicted
deriving DecidableEq

/-- The answer to a producer write that applied, now or before. -/
structure ProducerAck where
  epoch : ℕ
  seq : ℕ
  closedEpoch : Option ClosedEpoch
  delivery : ProducerDelivery
deriving DecidableEq

/-- Whether the write applied before this command. -/
def ProducerAck.isRepeat (ack : ProducerAck) : Bool :=
  match ack.delivery with
  | .applied _ => false
  | _ => true

/-- The answer to a command. -/
inductive StreamResponse
  | bucketCreated (bucketId : String)
  | bucketAlreadyExists (bucketId : String)
  | created (streamId : BucketStreamId) (nextOffset : ℕ) (closed : Bool)
  | alreadyExists (nextOffset : ℕ) (closed : Bool) (contentType : String)
      (streamTtlSeconds streamExpiresAtMs : Option ℕ)
  | appended (offset nextOffset : ℕ) (closed : Bool) (producer : Option ProducerAck)
  | closed (nextOffset : ℕ) (producer : Option ProducerAck)
  | deleted (expired : Bool)
  | coldFlushed (hotStartOffset : ℕ)
  | coldCompacted (compactedChunks compactedBytes : ℕ)
  | snapshotPublished (snapshotOffset : ℕ) (snapshotDigest : String)
  | retentionAdvanced (retainedOffset : ℕ)
  | accessed (changed expired : Bool)
  | coldGcAcked (removed : ℕ)
  | coldGcDeferred (newSeq : Option ℕ)
  | bucketPurged (bucketId : String) (removedStreams pendingColdGcEntries : ℕ)
      (history : HistoryId)
  | snapshotImported (buckets streams : ℕ) (history : HistoryId) (already : Bool)
  | historyStarted (history : HistoryId)
  | streamTidied (debtRemaining : Bool)
  | swept (expired retired : ℕ)
  | coldRefsOffloaded (removed remaining : ℕ)
  | error (code : StreamErrorCode) (message : String) (nextOffset : Option ℕ)
      (context : List StreamErrorContext)
deriving DecidableEq

namespace StreamResponse

/-- Whether an answer is a refusal. -/
def isError : StreamResponse → Bool
  | .error .. => true
  | _ => false

/-- Whether an answer is a refusal other than that of the producer cap. -/
def declines : StreamResponse → Bool
  | .error code _ _ _ => code ≠ .producerLimit
  | _ => false

/-- The producer acknowledgement of an answer. -/
def producerAck : StreamResponse → Option ProducerAck
  | .appended _ _ _ producer => producer
  | .closed _ producer => producer
  | _ => none

/-- Whether an answer is a repeat of a producer write that applied before. -/
def isProducerRepeat (response : StreamResponse) : Bool :=
  response.producerAck.any ProducerAck.isRepeat

variable (code : StreamErrorCode)

/-- A refusal with a code and a text. -/
def refusal (message : String) : StreamResponse :=
  .error code message none []

/-- An error answer with its context. -/
def errorWithContext (message : String) (context : List StreamErrorContext) : StreamResponse :=
  .error code message none context

/-- A refusal with the stream's next offset. -/
def errorWithNextOffset (message : String) (nextOffset : ℕ) :
    StreamResponse :=
  .error code message (some nextOffset) []

/-- A refusal with the stream's next offset and a context. -/
def errorWithNextOffsetAndContext (message : String) (nextOffset : ℕ)
    (context : List StreamErrorContext) : StreamResponse :=
  .error code message (some nextOffset) context

/-- A refusal acknowledges no producer write. -/
theorem isError_of_declines {response : StreamResponse} (h : response.declines = true) :
    response.isError = true := by
  cases response <;> first | rfl | cases h

theorem producerAck_of_isError {response : StreamResponse} (h : response.isError = true) :
    response.producerAck = none := by
  cases response <;> simp_all [isError, producerAck]

end StreamResponse

end Ursula

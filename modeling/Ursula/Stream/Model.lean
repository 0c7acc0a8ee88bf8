import Mathlib.Data.PNat.Basic
import Ursula.Lib.OrdMap
import Ursula.Lib.Word64

/-!
# The data of a stream group

The records a group's state machine holds, reports and persists. Unsigned 64-bit numbers are
natural numbers (`Word64`), byte strings are lists of bytes, and a number that is never zero is a
`ℕ+`. A type whose values must be well formed carries the proof, as `Digest32` does.

BLAKE3 is a parameter (`Blake3`): nothing in the state machine depends on more of it than that it
is a function to 32 bytes.

## Main definitions

* `BucketStreamId`: a stream's name, ordered by bucket, then by stream
* `StreamMetadata`, `ProducerState`, `ColdChunkRef`, `ObjectPayloadRef`, `StreamVisibleSnapshot`:
  what a stream's slot holds
* `HistoryEvent`, `historyKey`, `incarnationToken`: the group's history and the tokens of it
* `VersionUsage`, `EndRecord`, `BucketRetired`: the usage of live and of ended versions
* `StreamSnapshot`, `UsageSnapshot`: a group's persisted state
-/

namespace Ursula

/-! ## Names, bytes and digests -/

/-- A byte string. -/
abbrev Bytes := List UInt8

/-- A digest of 32 bytes. -/
abbrev Digest32 := { bytes : Bytes // bytes.length = 32 }

/-- The BLAKE3-256 hash function. -/
class Blake3 where
  /-- The digest of a byte string. -/
  hash : Bytes → Digest32

/-- A stream's name: its bucket and its name in the bucket. -/
structure BucketStreamId where
  bucketId : String
  streamId : String

namespace BucketStreamId

/-- The name as a pair, ordered by bucket, then by stream. -/
def toLexPair (id : BucketStreamId) : String ×ₗ String := toLex (id.bucketId, id.streamId)

theorem toLexPair_injective : Function.Injective toLexPair := by
  rintro ⟨b, s⟩ ⟨b', s'⟩ h
  simpa [toLexPair] using h

/-- Names are ordered by bucket, then by stream. -/
instance : LinearOrder BucketStreamId := LinearOrder.lift' toLexPair toLexPair_injective

/-- A stream's name in messages. -/
def display (id : BucketStreamId) : String := id.bucketId ++ "/" ++ id.streamId

end BucketStreamId

/-! ## Streams -/

/-- Whether a stream accepts appends. -/
inductive StreamStatus
  | open
  | closed
deriving DecidableEq

/-- A stream's metadata. -/
structure StreamMetadata where
  streamId : BucketStreamId
  contentType : String
  status : StreamStatus
  tailOffset : ℕ
  lastStreamSeq : Option String
  streamTtlSeconds : Option ℕ
  streamExpiresAtMs : Option ℕ
  createdAtMs : ℕ
  lastTtlTouchAtMs : ℕ
deriving DecidableEq

/-- A write's producer headers, as the log entry carries them: the digest's length and the content
fault's number are checked at apply. -/
structure ProducerRequest where
  producerId : String
  producerEpoch : ℕ
  producerSeq : ℕ
  digest : Option Bytes
  contentFault : ℤ
deriving DecidableEq

/-- What the proposer found wrong with a keyed write's body. -/
inductive ContentFault
  | missingContentType
  | digestMismatch
  | malformedJson
deriving DecidableEq

/-- Whether a write's `Stream-Incarnation` precondition matched. -/
inductive IncarnationCheck
  | absent
  | matched
deriving DecidableEq

/-- Whether a producer record's lineage of epochs opened above the stream's epoch floor. -/
inductive Opened
  | aboveFloor
  | belowFloor
deriving DecidableEq

/-- What a write asks for: an append or a close-only request. -/
inductive WriteKind
  | append
  | closeOnly
deriving DecidableEq

/-- The BLAKE3-256 digest of a producer write's body. -/
abbrev WriteDigest := Digest32

/-- The range and closure of one write. -/
structure WriteReceipt where
  startOffset : ℕ
  nextOffset : ℕ
  closed : Bool
deriving DecidableEq

/-- An epoch a claim closed, with its last applied seq. -/
structure ClosedEpoch where
  epoch : ℕ
  seq : ℕ
deriving DecidableEq

/-- A producer's newest applied write: its receipt and its identity. -/
structure ProducerReceipt where
  receipt : WriteReceipt
  digest : Option WriteDigest
deriving DecidableEq

/-- A producer record, as the stream's producer map holds it. -/
structure ProducerState where
  epoch : ℕ
  lastSeq : ℕ
  claimDigest : Option WriteDigest
  newest : ProducerReceipt
  closedEpoch : Option ClosedEpoch
  opened : Opened
  history : ℕ
  lastSeenMs : ℕ
deriving DecidableEq

/-- The persisted producer record: `ProducerState` with the producer's id. -/
structure ProducerSnapshot where
  producerId : String
  epoch : ℕ
  lastSeq : ℕ
  claimDigest : Option WriteDigest
  newest : ProducerReceipt
  closedEpoch : Option ClosedEpoch
  opened : Opened
  history : ℕ
  lastSeenMs : ℕ
deriving DecidableEq

/-! ## Cold storage -/

/-- A cold chunk: a range of a stream in an object, perhaps one it shares with other streams. -/
structure ColdChunkRef where
  startOffset : ℕ
  endOffset : ℕ
  s3Path : String
  objectSize : ℕ
  objectOffset : ℕ
  sharedObject : Bool
  payloadDigest : String
deriving DecidableEq

/-- A range of a stream that a whole external object holds. -/
structure ObjectPayloadRef where
  startOffset : ℕ
  endOffset : ℕ
  s3Path : String
  objectSize : ℕ
  objectOffset : ℕ
deriving DecidableEq

/-- A payload the proposer staged as an object. -/
structure ExternalPayloadRef where
  s3Path : String
  payloadLen : ℕ
  objectSize : ℕ
deriving DecidableEq

/-- What a reclamation deletes. -/
inductive ColdGcTarget
  /-- Every cold object owned by a removed stream incarnation. -/
  | stream (id : BucketStreamId)
  /-- Specific cold object paths. -/
  | paths (paths : List String)
deriving DecidableEq

/-- One unit of deferred cold-storage reclamation. -/
structure ColdGcEntry where
  seq : ℕ
  bucketId : String
  notBeforeMs : ℕ
  target : ColdGcTarget
  coldGeneration : Option ℕ
  deferAttempts : ℕ
deriving DecidableEq

/-- A hot segment of a snapshot: a range of the stream and its place in the payload. -/
structure HotPayloadSegment where
  startOffset : ℕ
  endOffset : ℕ
  payloadStart : ℕ
  payloadEnd : ℕ
deriving DecidableEq

/-- A stream's latest published snapshot. -/
structure StreamVisibleSnapshot where
  offset : ℕ
  contentType : String
  payload : Bytes
  digest : String
  object : Option ExternalPayloadRef
deriving DecidableEq

/-! ## Histories and incarnation tokens -/

/-- A history id: random and never zero. -/
abbrev HistoryId := ℕ+

/-- The leader that proposed a history event. -/
structure HistoryLeader where
  term : ℕ
  nodeId : ℕ
deriving DecidableEq

/-- The latest history event a group applied. -/
structure HistoryEvent where
  id : HistoryId
  eventIndex : ℕ
  previous : ℕ
  kept : ℕ
  leader : HistoryLeader
  imported : Option Digest32
deriving DecidableEq

/-- What a stream's current history began from: its history before, and its tail then. -/
structure InheritedHistory where
  history : ℕ
  offset : ℕ
deriving DecidableEq

/-- Bit 52: set in every token. -/
def incarnationTag : ℕ := 2 ^ 52

/-- The low 52 bits of a token. -/
def incarnationMask : ℕ := incarnationTag - 1

/-- The largest `createdAtMs` a create assigns. -/
def maxCreatedAtMs : ℕ := incarnationMask

/-- The little-endian bytes of a number, `n` of them. -/
def toLeBytes : (n value : ℕ) → Bytes
  | 0, _ => []
  | n + 1, value => UInt8.ofNat value :: toLeBytes n (value / 256)

/-- The number of a little-endian byte string. -/
def ofLeBytes : Bytes → ℕ
  | [] => 0
  | byte :: rest => byte.toNat + 256 * ofLeBytes rest

section Tokens

variable [Blake3]

/-- The key a history id contributes to every token of its history. -/
def historyKey (historyId : ℕ) : ℕ :=
  ofLeBytes ((Blake3.hash ("ursula incarnation key v1".toUTF8.toList ++
    toLeBytes 8 historyId)).val.take 8) &&& incarnationMask

/-- The public token of the incarnation created at `createdAtMs`, in the history `historyId`. -/
def incarnationToken (createdAtMs historyId : ℕ) : ℕ :=
  incarnationTag ||| ((createdAtMs ^^^ historyKey historyId) &&& incarnationMask)

end Tokens

/-! ## Usage -/

/-- The size of the derived write unit. -/
def committedWriteUnitBytes : ℕ := 10 * 1024

/-- The committed counters of the usage contract. -/
structure CommittedUsage where
  committedAppendBytes : ℕ
  committedRecords : ℕ
  committedWriteUnits : ℕ
deriving DecidableEq

/-- A bucket's usage: its committed counters and the gauges of its live streams. -/
structure BucketUsage where
  committedAppendBytes : ℕ
  committedRecords : ℕ
  committedWriteUnits : ℕ
  retainedBytes : ℕ
  streamCount : ℕ
deriving DecidableEq

/-- One bucket's usage as reported by a group or persisted in a snapshot. -/
structure BucketUsageSnapshot where
  bucketId : String
  usage : BucketUsage
deriving DecidableEq

/-- What a version committed, and its applied appends. -/
structure VersionCounters where
  committed : CommittedUsage
  appends : ℕ
deriving DecidableEq

/-- When a version last counted a write. -/
inductive LastWrite
  | at (nowMs : ℕ)
  | imported
deriving DecidableEq

/-- A live version's usage. -/
structure VersionUsage where
  seq : ℕ
  counters : VersionCounters
  historyBaseline : VersionCounters
  lastWrite : LastWrite
  countedSince : HistoryId
deriving DecidableEq

/-- How a version ended. -/
inductive StreamEnd
  | deleted
  | expired
  | purged
deriving DecidableEq

/-- The final usage of a version that ended. -/
structure EndRecord where
  seq : ℕ
  streamId : BucketStreamId
  createdAtMs : ℕ
  countedSince : HistoryId
  endedIn : HistoryId
  «end» : StreamEnd
  endedAtMs : ℕ
  counters : VersionCounters
  historyBaseline : VersionCounters
  lastWrite : LastWrite
deriving DecidableEq

/-- A bucket's retired usage. -/
structure BucketRetired where
  bucketId : String
  retired : CommittedUsage
deriving DecidableEq

/-! ## Snapshots -/

/-- The backup format this binary reads and writes. -/
def backupFormatVersion : ℕ := 5

/-- One stream of a snapshot. -/
structure StreamSnapshotEntry where
  metadata : StreamMetadata
  hotStartOffset : ℕ
  payload : Bytes
  hotSegments : List HotPayloadSegment
  coldIndexGeneration : ℕ
  coldChunks : List ColdChunkRef
  externalSegments : List ObjectPayloadRef
  retainedOffset : ℕ
  visibleSnapshot : Option StreamVisibleSnapshot
  producerStates : List ProducerSnapshot
  retiredEpochWatermark : Option ℕ
  history : ℕ
  inherited : Option InheritedHistory
deriving DecidableEq

/-- A group's streams, as a snapshot or a backup holds them. -/
structure StreamSnapshot where
  formatVersion : ℕ
  buckets : List String
  erasedBuckets : List String
  streams : List StreamSnapshotEntry
  pendingColdGc : List ColdGcEntry
  nextColdGcSeq : ℕ
  bucketUsage : List BucketUsageSnapshot
  lastCreatedAtMs : ℕ
  history : Option HistoryEvent
deriving DecidableEq

/-- What a group snapshot holds of the usage ledger beside its `StreamSnapshot`. -/
structure UsageSnapshot where
  genesis : ℕ
  usageSeq : ℕ
  retiredThrough : ℕ
  retired : List BucketRetired
  streams : List VersionUsage
  ends : List EndRecord
deriving DecidableEq

/-- One counter of `CommittedUsage`, as a refusal names it. -/
inductive UsageCounter
  | appendBytes
  | records
  | writeUnits
deriving DecidableEq

/-- Why a group snapshot's usage does not fit its stream snapshot. -/
inductive UsageSnapshotError
  | streamCount (streams usages : ℕ)
  | invalidSeq (seq usageSeq : ℕ)
  | retiredEndRecord (seq retiredThrough : ℕ)
  | retiredThroughAhead (retiredThrough usageSeq : ℕ)
  | tooManyEndRecords (count max : ℕ)
  | duplicateRetired (bucketId : String)
  | totalsDisagree (bucketId : String) (counter : UsageCounter)
deriving DecidableEq

/-- Why a snapshot does not restore. -/
inductive StreamSnapshotError
  | duplicateBucket (bucketId : String)
  | duplicateErasedBucket (bucketId : String)
  | activeBucketErased (bucketId : String)
  | duplicateStream (streamId : BucketStreamId)
  | duplicateProducer (streamId : BucketStreamId) (producerId : String)
  | missingBucket (streamId : BucketStreamId)
  | payloadLengthMismatch (streamId : BucketStreamId) (tailOffset payloadLen : ℕ)
  | snapshotOffsetOutOfRange (streamId : BucketStreamId) (snapshotOffset tailOffset : ℕ)
  | backupFormat (found : Option ℕ)
  | unattributedColdGc (seq : ℕ)
  | coldGcWithoutGeneration (seq : ℕ)
  | duplicateBucketUsage (bucketId : String)
  | streamWithoutHistory (streamId : BucketStreamId)
  | usage (error : UsageSnapshotError)
deriving DecidableEq

end Ursula

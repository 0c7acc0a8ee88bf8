import Ursula.Stream.Model

/-!
# Cold references and the reclamation queue

What a stream's slot knows of its cold bytes, and the group's queue of objects to reclaim. Cold
coverage is not stored: every retained byte the hot buffer does not hold is cold.

## Main definitions

* `StreamColdState`: a stream's shared chunks, its external segments and its cold generation
* `ColdGcQueue`: pending reclamations, stamped with increasing sequence numbers
-/

namespace Ursula

open Word64

/-! ## A stream's cold references -/

/-- A stream's cold references. -/
structure StreamColdState where
  coldChunks : List ColdChunkRef
  externalSegments : List ObjectPayloadRef
  coldGeneration : ℕ
deriving DecidableEq

/-- The objects of the references that `StreamColdState.compactBefore` dropped. -/
structure Compacted where
  /-- Slices of shared packs, released by reference count. -/
  sharedPaths : List String
  /-- The stream's own external payloads. -/
  externalPaths : List String

namespace StreamColdState

/-- The cold state of a new incarnation. -/
def withGeneration (coldGeneration : ℕ) : StreamColdState :=
  { coldChunks := [], externalSegments := [], coldGeneration := coldGeneration }

variable (cold : StreamColdState)

/-- Keeps an external payload as a direct reference. -/
def pushDirectExternalSegment (object : ObjectPayloadRef) :
    StreamColdState :=
  { cold with externalSegments := cold.externalSegments ++ [object] }

/-- Removes exactly the listed external references that are still there, and counts them. -/
def removeExternalSegments (refs : List ObjectPayloadRef) :
    StreamColdState × ℕ :=
  let kept := cold.externalSegments.filter fun object => object ∉ refs
  ({ cold with externalSegments := kept }, cold.externalSegments.length - kept.length)

/-- Keeps a flushed chunk of a shared object; the cold-index pages name the others. -/
def pushColdChunk (chunk : ColdChunkRef) : StreamColdState :=
  if chunk.sharedObject then { cold with coldChunks := cold.coldChunks ++ [chunk] } else cold

/-- The cold state of a snapshot. -/
def restore (coldIndexGeneration : ℕ) (coldChunks : List ColdChunkRef)
    (externalSegments : List ObjectPayloadRef) : StreamColdState :=
  { coldChunks := coldChunks
    externalSegments := externalSegments
    coldGeneration := coldIndexGeneration }

/-- Drops the references wholly below `retainedOffset` and returns their objects. -/
def compactBefore (retainedOffset : ℕ) : StreamColdState × Compacted :=
  ({ cold with
      coldChunks := cold.coldChunks.filter fun chunk => chunk.endOffset > retainedOffset
      externalSegments :=
        cold.externalSegments.filter fun object => object.endOffset > retainedOffset },
    { sharedPaths :=
        (cold.coldChunks.filter fun chunk => ¬ chunk.endOffset > retainedOffset).map
          ColdChunkRef.s3Path
      externalPaths :=
        (cold.externalSegments.filter fun object => ¬ object.endOffset > retainedOffset).map
          ObjectPayloadRef.s3Path })

/-- The paths of the shared objects the stream refers to, one for each reference. -/
def sharedObjectPaths : List String :=
  (cold.coldChunks.filter fun chunk => chunk.sharedObject).map ColdChunkRef.s3Path

/-- Removes every chunk equal to one of `oldChunks`, and says whether as many left as the list
names. The removal stands either way. -/
def removeSharedChunks (oldChunks : List ColdChunkRef) :
    StreamColdState × Bool :=
  let kept := cold.coldChunks.filter fun chunk => chunk ∉ oldChunks
  ({ cold with coldChunks := kept }, cold.coldChunks.length - kept.length = oldChunks.length)

end StreamColdState

/-! ## The reclamation queue -/

/-- The pending reclamations of a group. -/
structure ColdGcQueue where
  pending : List ColdGcEntry
  nextSeq : ℕ
deriving DecidableEq

namespace ColdGcQueue

/-- The queue of a new group. -/
def empty : ColdGcQueue := ⟨[], 0⟩

variable (queue : ColdGcQueue)

/-- Appends a reclamation target under the next sequence number. -/
def push (bucketId : String) (target : ColdGcTarget) (notBeforeMs : ℕ) (coldGeneration : Option ℕ) :
    ColdGcQueue where
  pending := queue.pending ++
    [{ seq := queue.nextSeq
       bucketId := bucketId
       notBeforeMs := notBeforeMs
       target := target
       coldGeneration := coldGeneration
       deferAttempts := 0 }]
  nextSeq := satAdd queue.nextSeq 1

/-- Appends a target that must remain readable until `notBeforeMs`. -/
def enqueueAfter (bucketId : String) (target : ColdGcTarget) (notBeforeMs : ℕ) : ColdGcQueue :=
  queue.push bucketId target notBeforeMs none

/-- Appends a target that may be reclaimed at once. -/
def enqueue (bucketId : String) (target : ColdGcTarget) : ColdGcQueue :=
  queue.enqueueAfter bucketId target 0

/-- Appends the removal of one stream incarnation. -/
def enqueueStream (bucketId : String) (streamId : BucketStreamId) (coldGeneration : ℕ) :
    ColdGcQueue :=
  queue.push bucketId (.stream streamId) 0 (some coldGeneration)

/-- Drains the entries at the front with a number of at most `upToSeq`, and counts them. -/
def ack (upToSeq : ℕ) : ColdGcQueue × ℕ :=
  ({ queue with pending := queue.pending.dropWhile fun entry => entry.seq ≤ upToSeq },
    (queue.pending.takeWhile fun entry => entry.seq ≤ upToSeq).length)

/-- A deferred entry, under its new seq. -/
def deferEntry (entry : ColdGcEntry) (newSeq notBeforeMs : ℕ) : ColdGcEntry :=
  { entry with
    seq := newSeq
    notBeforeMs := max entry.notBeforeMs notBeforeMs
    deferAttempts := min (entry.deferAttempts + 1) (2 ^ 32 - 1) }

/-- Moves the entry `seq` to the tail under the next sequence number, and returns that number. -/
def defer (seq notBeforeMs : ℕ) : ColdGcQueue × Option ℕ :=
  match queue.pending.find? fun entry => entry.seq = seq with
  | none => (queue, none)
  | some entry =>
    ({ pending := queue.pending.eraseP (fun entry => entry.seq = seq) ++
        [deferEntry entry queue.nextSeq notBeforeMs]
       nextSeq := satAdd queue.nextSeq 1 },
      some queue.nextSeq)

/-- The pending entries of one bucket. -/
def lenForBucket (bucketId : String) : ℕ :=
  queue.pending.countP fun entry => entry.bucketId = bucketId

end ColdGcQueue

end Ursula

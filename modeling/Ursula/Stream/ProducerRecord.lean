import Ursula.Stream.Machine

/-!
# Producer records

The evaluation of a producer write against its record, the stream's epoch floor and the group's
history, and the retirement of records. The epoch is checked before deduplication, so a write of an
older epoch is never answered as a repeat. A write that carries `Stream-Incarnation` is bound by the
epoch floor; a write without it may open a forgotten epoch again, and `Opened` marks the record.

## Main definitions

* `WriteKey`, `evaluate`: the decision for one producer write
* `ProducerState.claimed`, `ProducerState.advance`: the two changes of a record
* `StreamSlot.retireProducer`: retires a record, raising the epoch floor
* `StreamSlot.evictProducersOverCap`: the producer cap
-/

namespace Ursula

/-! ## Keys -/

/-- The key of one producer write, with its identity. -/
structure WriteKey where
  epoch : ℕ
  seq : ℕ
  digest : Option WriteDigest
deriving DecidableEq

/-- The largest integer a JavaScript number holds exactly. -/
def maxJsSafeInteger : ℕ := 9007199254740991

/-- The content fault the proposer recorded on a producer write. -/
def producerContentFault (producer : ProducerRequest) :
    Except StreamResponse (Option ContentFault) :=
  if producer.contentFault = 0 then .ok none
  else if producer.contentFault = 1 then .ok (some .missingContentType)
  else if producer.contentFault = 2 then .ok (some .digestMismatch)
  else if producer.contentFault = 3 then .ok (some .malformedJson)
  else
    .error (.refusal .invalidProducer s!"unknown producer content fault {producer.contentFault}")

/-- The refusal of a write that would apply for its content fault. -/
def contentFaultResponse : ContentFault → StreamResponse
  | .missingContentType =>
    .refusal .missingContentType "append with a body must include content type"
  | .digestMismatch =>
    .refusal .producerDigestMismatch "producer-digest does not match the request body"
  | .malformedJson =>
    .refusal .invalidRecordBoundaries "application/json body is not valid JSON message text"

/-- The key of a producer write, once its request is valid. -/
def producerWriteKey (producer : ProducerRequest) : Except StreamResponse WriteKey :=
  if isBlank producer.producerId then
    .error (.refusal .invalidProducer "producer id must not be empty")
  else if producer.producerEpoch > maxJsSafeInteger then
    .error (.refusal .invalidProducer
      s!"producer epoch {producer.producerEpoch} exceeds maximum {maxJsSafeInteger}")
  else if producer.producerSeq > maxJsSafeInteger then
    .error (.refusal .invalidProducer
      s!"producer sequence {producer.producerSeq} exceeds maximum {maxJsSafeInteger}")
  else
    match producer.digest with
    | none => .ok { epoch := producer.producerEpoch, seq := producer.producerSeq, digest := none }
    | some bytes =>
      if h : bytes.length = 32 then
        .ok
          { epoch := producer.producerEpoch
            seq := producer.producerSeq
            digest := some ⟨bytes, h⟩ }
      else
        .error (.refusal .invalidProducer
          s!"producer digest must be 32 bytes, got {bytes.length}")

/-! ## Evaluation -/

/-- A refused producer write. -/
inductive Refusal
  | producer (refusal : ProducerRefusal)
  | seqGap (expected received : ℕ)
deriving DecidableEq

/-- The decision for one producer write. -/
inductive Evaluation
  /-- The write claims its epoch, closing `closes`. -/
  | claim (closes : Option ClosedEpoch) (opened : Opened)
  /-- The next seq of the current epoch. -/
  | next
  /-- The key applied before. -/
  | repeat (ack : ProducerAck)
  | refuse (refusal : Refusal)
deriving DecidableEq

/-- Whether an epoch is at or below the floor. -/
def atOrBelow (floor : Option ℕ) (epoch : ℕ) : Bool := floor.any fun floor => epoch ≤ floor

/-- The refusal of an epoch the stream may have forgotten. -/
def expired (floor : ℕ) : Evaluation := .refuse (.producer (.expired floor))

/-- Evaluates a write of a producer without a record. -/
def evaluateNew (floor : Option ℕ) (key : WriteKey) (tokened : Bool) : Evaluation :=
  match floor.filter fun floor => tokened && key.epoch ≤ floor with
  | some floor => expired floor
  | none =>
    if key.seq = 0 then
      .claim none (if atOrBelow floor key.epoch then .belowFloor else .aboveFloor)
    else
      .refuse (.seqGap 0 key.seq)

/-- Evaluates a write of the record's own epoch. -/
def evaluateCurrent (record : ProducerState) (history : ℕ) (key : WriteKey) : Evaluation :=
  -- the identities the record holds are those of the claim and of the newest write
  let stored :=
    if key.seq = 0 then some record.claimDigest
    else if key.seq = record.lastSeq then some record.newest.digest
    else none
  let acked (delivery : ProducerDelivery) : Evaluation :=
    .repeat
      { epoch := record.epoch
        seq := record.lastSeq
        closedEpoch := if key.seq = 0 then record.closedEpoch else none
        delivery := delivery }
  if stored.any fun stored => stored ≠ key.digest then
    .refuse (.producer (.keyConflict record.epoch))
  else if key.seq = record.lastSeq then
    acked (.repeat record.newest.receipt)
  else if key.seq < record.lastSeq then
    acked .evicted
  else if record.history ≠ history then
    -- a history event closed the epoch at `lastSeq`
    .refuse (.producer (.epochClosed record.epoch .history
      { epoch := record.epoch, seq := record.lastSeq }))
  else if key.seq = record.lastSeq + 1 then
    .next
  else
    .refuse (.seqGap (record.lastSeq + 1) key.seq)

/-- Evaluates a producer write against its record, the epoch floor and the group's history. -/
def evaluate (record : Option ProducerState) (floor : Option ℕ) (history : ℕ) (key : WriteKey)
    (check : IncarnationCheck) : Evaluation :=
  let tokened := check = .matched
  match record with
  | none => evaluateNew floor key tokened
  | some record =>
    -- a record opened below the floor may hold a forgotten epoch
    match floor.filter fun floor => tokened && record.opened = .belowFloor &&
        !(key.seq = 0 && key.epoch > record.epoch && key.epoch > floor) with
    | some floor => expired floor
    | none =>
      if key.epoch < record.epoch then
        match record.closedEpoch.filter fun closed => closed.epoch = key.epoch with
        | some closed => .refuse (.producer (.epochClosed record.epoch .claim closed))
        | none => .refuse (.producer (.staleEpoch record.epoch))
      else if key.epoch > record.epoch then
        if key.seq = 0 then
          .claim
            (match record.opened with
            | .aboveFloor => some { epoch := record.epoch, seq := record.lastSeq }
            | .belowFloor => none)
            (if record.opened = .aboveFloor || !atOrBelow floor key.epoch then .aboveFloor
            else .belowFloor)
        else
          .refuse (.producer .epochNotClaimed)
      else
        evaluateCurrent record history key

/-! ## Changes of a record -/

namespace ProducerState

/-- The record after a claim applied. -/
def claimed (key : WriteKey) (closes : Option ClosedEpoch) (opened : Opened) (history : ℕ)
    (receipt : WriteReceipt) (nowMs : ℕ) : ProducerState where
  epoch := key.epoch
  lastSeq := key.seq
  claimDigest := key.digest
  newest := { receipt := receipt, digest := key.digest }
  closedEpoch := closes
  opened := opened
  history := history
  lastSeenMs := nowMs

/-- The record after the next seq applied. -/
def advance (state : ProducerState) (key : WriteKey) (receipt : WriteReceipt) (nowMs : ℕ) :
    ProducerState :=
  { state with
    lastSeq := key.seq
    newest := { receipt := receipt, digest := key.digest }
    lastSeenMs := nowMs }

/-- The answer to the record's newest write, applied by this command. -/
def appliedAck (state : ProducerState) : ProducerAck where
  epoch := state.epoch
  seq := state.lastSeq
  closedEpoch := if state.lastSeq = 0 then state.closedEpoch else none
  delivery := .applied state.newest.receipt

end ProducerState

/-! ## Retirement -/

/-- A producer idle this long is treated as absent at its next write. -/
def producerIdleExpiryMs : ℕ := 7 * 24 * 60 * 60 * 1000

/-- The producers a stream holds at most. -/
def maxProducersPerStream : ℕ := 4096

/-- A producer idle this long may be evicted for a new one. -/
def producerCapEvictIdleMs : ℕ := 60 * 60 * 1000

/-- The producers one command may evict for the cap. -/
def producerCapEvictBudget : ℕ := 1024

/-- The idle producers one `TidyStream` may expire. -/
def tidyProducerBudget : ℕ := 4096

/-- Whether a record is idle for as long as it may be. -/
def producerIsIdle (state : ProducerState) (nowMs : ℕ) : Bool :=
  nowMs - state.lastSeenMs ≥ producerIdleExpiryMs

/-- Whether the producer cap may evict a producer at `nowMs`. -/
def producerCapEvictable (state : ProducerState) (nowMs : ℕ) : Bool :=
  nowMs - state.lastSeenMs ≥ producerCapEvictIdleMs

namespace StreamSlot

/-- The floor raised to an epoch. -/
def raiseFloor (floor : Option ℕ) (epoch : ℕ) : Option ℕ :=
  some (match floor with
    | none => epoch
    | some floor => max floor epoch)

variable (slot : StreamSlot)

/-- Retires one producer record, raising the epoch floor to at least its epoch. -/
def retireProducer (producerId : String) : StreamSlot :=
  match slot.producers.get? producerId with
  | none => slot
  | some state =>
    { slot with
      producers := slot.producers.erase producerId
      retiredEpochWatermark := raiseFloor slot.retiredEpochWatermark state.epoch }

/-- Retires producer records, one after another. -/
def retireProducers (producerIds : List String) : StreamSlot :=
  producerIds.foldl retireProducer slot

theorem retireProducer_eq (producerId : String) : slot.retireProducer producerId = { slot with
        producers := (slot.retireProducer producerId).producers
        retiredEpochWatermark := (slot.retireProducer producerId).retiredEpochWatermark } := by
  unfold retireProducer
  cases slot.producers.get? producerId <;> rfl

theorem retireProducers_eq (producerIds : List String) :
    slot.retireProducers producerIds =
      { slot with
        producers := (slot.retireProducers producerIds).producers
        retiredEpochWatermark := (slot.retireProducers producerIds).retiredEpochWatermark } := by
  unfold retireProducers
  induction producerIds generalizing slot with
  | nil => rfl
  | cons producerId rest ih =>
    rw [List.foldl_cons, ih, retireProducer_eq]

@[simp] theorem retireProducers_id (producerIds : List String) :
    (slot.retireProducers producerIds).id = slot.id := by
  rw [retireProducers_eq]

/-- Whether a write by `producerId` at `nowMs` fits the producer cap. -/
def producerCapAdmits (producerId : String) (nowMs : ℕ) : Bool :=
  if slot.producers.size < maxProducersPerStream || slot.producers.contains producerId then
    true
  else
    (slot.producers.values.countP fun state => !producerCapEvictable state nowMs) <
      maxProducersPerStream

/-- The evictable producers at `nowMs`, least recently seen first, then by id. -/
def evictionCandidates (nowMs : ℕ) : List (ℕ ×ₗ String) :=
  ((slot.producers.entries.filter fun entry => producerCapEvictable entry.2 nowMs).map
    fun entry => toLex (entry.2.lastSeenMs, entry.1)).insertionSort (· ≤ ·)

/-- Evicts least recently seen producers until the stream holds at most the cap or `budget` were
evicted. -/
def evictProducersOverCap (nowMs budget : ℕ) : StreamSlot :=
  let excess := min (slot.producers.size - maxProducersPerStream) budget
  if excess = 0 then
    slot
  else
    slot.retireProducers (((slot.evictionCandidates nowMs).take excess).map fun victim =>
      (ofLex victim).2)

/-- Whether the stream is over the cap with an evictable producer at `nowMs`. -/
def producerCapOver (nowMs : ℕ) : Bool :=
  slot.producers.size > maxProducersPerStream &&
    slot.producers.values.any fun state => producerCapEvictable state nowMs

/-- Whether `TidyStream` would change the stream at `nowMs`. -/
def hasTidyDebt (nowMs : ℕ) : Bool :=
  slot.producerCapOver nowMs || slot.producers.values.any fun state => producerIsIdle state nowMs

/-- Retires the producer's own record when it is idle at `nowMs`. -/
def expireIdleProducer (producerId : String) (nowMs : ℕ) : StreamSlot :=
  if (slot.producers.get? producerId).any fun state => producerIsIdle state nowMs then
    slot.retireProducer producerId
  else
    slot

/-- One bounded step of `TidyStream`: idle expiry in id order, then the producer cap. -/
def tidy (nowMs : ℕ) : StreamSlot :=
  let idle := (slot.producers.entries.filter fun entry => producerIsIdle entry.2 nowMs).map Prod.fst
  (slot.retireProducers (idle.take tidyProducerBudget)).evictProducersOverCap nowMs
    producerCapEvictBudget

end StreamSlot

namespace StreamStateMachine

variable (machine : StreamStateMachine)

/-- The producer cap, once per command after it fully applied. -/
def enforceProducerCap (streamId : BucketStreamId) (nowMs : ℕ) :
    StreamStateMachine :=
  match machine.streamSlot streamId with
  | none => machine
  | some slot => machine.putSlot (slot.evictProducersOverCap nowMs producerCapEvictBudget)

/-- Removes an idle producer before its own write is evaluated. -/
def expireIdleProducer (streamId : BucketStreamId) (producerId : String) (nowMs : ℕ) :
    StreamStateMachine :=
  match machine.streamSlot streamId with
  | none => machine
  | some slot => machine.putSlot (slot.expireIdleProducer producerId nowMs)

/-- One step of tidying a stream's producers. -/
def tidyStream (streamId : BucketStreamId) (nowMs : ℕ) :
    StreamStateMachine × StreamResponse :=
  match machine.validateStreamScope streamId with
  | .error response => (machine, response)
  | .ok () =>
    match machine.streamSlot streamId with
    | none => (machine, streamNotFound streamId)
    | some slot =>
      let tidied := slot.tidy nowMs
      (machine.putSlot tidied, .streamTidied (tidied.hasTidyDebt nowMs))

end StreamStateMachine

end Ursula

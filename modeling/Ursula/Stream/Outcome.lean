import Ursula.Stream.Act

/-!
# What each command can do

The one inversion of the command functions: every command is answered after a list of elementary
changes, and `Outcome` says which list goes with which answer. Later results take a command apart
through it and never unfold a command function again.

## Main definitions

* `StreamCommand.stripped`: a command without its preconditions
* `Outcome`: the changes and the answer of a command
* `Explained`: a command's result is that of a trace of its changes
-/

namespace Ursula

open Word64

/-! ## Commands and their inputs -/

namespace StreamCommand

/-- The command without its preconditions. -/
def stripped : StreamCommand → StreamCommand
  | ifIncarnation _ command => command.stripped
  | command => command

/-- Whether the command carries no precondition. -/
def IsPlain : StreamCommand → Prop
  | ifIncarnation _ _ => False
  | _ => True

variable (command : StreamCommand)

theorem stripped_isPlain : command.stripped.IsPlain := by
  induction command with
  | ifIncarnation incarnation command ih => exact ih
  | _ => trivial

/-- The check a command's stripped form applies under, from the command's own. -/
def checkFrom (check : IncarnationCheck) : IncarnationCheck :=
  match command with
  | ifIncarnation _ _ => .matched
  | _ => check

theorem checkFrom_matched : command.checkFrom .matched = .matched := by
  cases command <;> rfl

/-- The check a log entry's stripped form applies under. -/
def checkOf : IncarnationCheck := command.checkFrom .absent

/-- The stream a create asks for, its payload checked for message boundaries. -/
def createInput : StreamCommand → Option NewStream
  | createStream streamId contentType initialPayload closeAfter streamSeq streamTtlSeconds
      streamExpiresAtMs nowMs =>
    (canonicalJsonMessageCount contentType initialPayload).map fun messageCount =>
      { streamId, contentType, messageCount, closeAfter, streamSeq, streamTtlSeconds,
        streamExpiresAtMs, nowMs
        initialLen := initialPayload.length
        hotBuffer := HotBuffer.fromPayload 0 initialPayload
        externalSegments := [] }
  | createExternal streamId contentType initialPayload messageCount closeAfter streamSeq
      streamTtlSeconds streamExpiresAtMs nowMs =>
    some
      { streamId, contentType, messageCount, closeAfter, streamSeq, streamTtlSeconds,
        streamExpiresAtMs, nowMs
        initialLen := initialPayload.payloadLen
        hotBuffer := HotBuffer.empty
        externalSegments := [initialPayload.locator] }
  | _ => none

/-- The inline write a command asks for. -/
def appendInput (check : IncarnationCheck) : StreamCommand → Option AppendStreamInput
  | append streamId contentType payload closeAfter streamSeq producer nowMs =>
    some { streamId, contentType, payload, closeAfter, streamSeq, producer, nowMs, check
           kind := .append }
  | close streamId streamSeq producer nowMs =>
    some { streamId, streamSeq, producer, nowMs, check
           contentType := none, payload := [], closeAfter := true, kind := .closeOnly }
  | _ => none

/-- The input of an external append. -/
def externalInput (check : IncarnationCheck) : StreamCommand → Option AppendExternalInput
  | appendExternal streamId contentType payload messageCount closeAfter streamSeq producer nowMs =>
    some { streamId, contentType, payload, messageCount, closeAfter, streamSeq, producer, nowMs,
           check }
  | _ => none

/-- The stream, the producer and the clock of a write. -/
def writeTarget : StreamCommand → Option (BucketStreamId × Option ProducerRequest × ℕ)
  | append streamId _ _ _ _ producer nowMs => some (streamId, producer, nowMs)
  | close streamId _ producer nowMs => some (streamId, producer, nowMs)
  | appendExternal streamId _ _ _ _ _ producer nowMs => some (streamId, producer, nowMs)
  | _ => none

/-- The stream and the clock of a command that removes its stream once it has expired. -/
def expiryTarget : StreamCommand → Option (BucketStreamId × ℕ)
  | append streamId _ _ _ _ _ nowMs => some (streamId, nowMs)
  | close streamId _ _ nowMs => some (streamId, nowMs)
  | appendExternal streamId _ _ _ _ _ _ nowMs => some (streamId, nowMs)
  | publishSnapshot streamId _ _ _ nowMs _ => some (streamId, nowMs)
  | publishSnapshotExternal streamId _ _ _ _ nowMs _ => some (streamId, nowMs)
  | advanceRetention streamId _ nowMs _ => some (streamId, nowMs)
  | touchStreamAccess streamId nowMs _ => some (streamId, nowMs)
  | _ => none

/-- The stream, the offset, the content type, the body and the clock of a publish. -/
def publishInput : StreamCommand → Option (BucketStreamId × ℕ × String × SnapshotBody × ℕ)
  | publishSnapshot streamId offset contentType payload nowMs _ =>
    some (streamId, offset, contentType, .inline payload, nowMs)
  | publishSnapshotExternal streamId offset contentType object digest nowMs _ =>
    some (streamId, offset, contentType, .object object digest, nowMs)
  | _ => none

/-- The incarnation the proposer of a checkpoint read its preceding byte from. -/
def expectedIncarnation : StreamCommand → Option ℕ
  | publishSnapshot _ _ _ _ _ expected => expected
  | publishSnapshotExternal _ _ _ _ _ _ expected => expected
  | advanceRetention _ _ _ expected => expected
  | _ => none

end StreamCommand

/-! ## The producer's own changes -/

namespace StreamSlot

variable (slot : StreamSlot)

/-- The producer's own id when its record is idle at `nowMs`. -/
def idleProducer (producerId : String) (nowMs : ℕ) : List String :=
  if (slot.producers.get? producerId).any fun state => producerIsIdle state nowMs then [producerId]
  else []

theorem expireIdleProducer_eq (producerId : String) (nowMs : ℕ) :
    slot.expireIdleProducer producerId nowMs =
      slot.retireProducers (slot.idleProducer producerId nowMs) := by
  unfold expireIdleProducer idleProducer
  split_ifs <;> rfl

/-- The slot its writer finds: the writer's own idle record is retired. -/
def expireOwn (producer : Option ProducerRequest) (nowMs : ℕ) : StreamSlot :=
  match producer with
  | none => slot
  | some request => slot.expireIdleProducer request.producerId nowMs

/-- Its writer finds a slot with at most one record retired. -/
theorem expireOwn_eq (producer : Option ProducerRequest) (nowMs : ℕ) :
    ∃ retired, slot.expireOwn producer nowMs = slot.retireProducers retired := by
  cases producer with
  | none => exact ⟨[], rfl⟩
  | some request => exact ⟨_, expireIdleProducer_eq ..⟩

@[simp] theorem expireOwn_id (producer : Option ProducerRequest) (nowMs : ℕ) :
    (slot.expireOwn producer nowMs).id = slot.id := by
  obtain ⟨retired, hretired⟩ := slot.expireOwn_eq producer nowMs
  rw [hretired, retireProducers_id]

/-- The producers the cap evicts. -/
def capVictims (nowMs budget : ℕ) : List String :=
  ((slot.evictionCandidates nowMs).take
    (min (slot.producers.size - maxProducersPerStream) budget)).map fun victim => (ofLex victim).2

theorem evictProducersOverCap_eq (nowMs budget : ℕ) :
    slot.evictProducersOverCap nowMs budget = slot.retireProducers
      (slot.capVictims nowMs budget) := by
  unfold evictProducersOverCap capVictims
  dsimp only
  split_ifs with h
  · rw [h]
    rfl
  · rfl

/-- The producers one step of `TidyStream` retires. -/
def tidyVictims (nowMs : ℕ) : List String :=
  let idle := ((slot.producers.entries.filter fun entry => producerIsIdle entry.2 nowMs).map
    Prod.fst).take tidyProducerBudget
  idle ++ (slot.retireProducers idle).capVictims nowMs producerCapEvictBudget

theorem tidy_eq (nowMs : ℕ) : slot.tidy nowMs = slot.retireProducers (slot.tidyVictims nowMs) := by
  unfold tidy tidyVictims
  rw [evictProducersOverCap_eq, retireProducers, retireProducers, ← List.foldl_append]
  rfl

end StreamSlot

namespace StreamStateMachine

/-- The retirement of the writer's own idle record. -/
def ownActs (machine : StreamStateMachine) (streamId : BucketStreamId)
    (producer : Option ProducerRequest) (nowMs : ℕ) : List Act :=
  match producer, machine.streamSlot streamId with
  | some producer, some slot => [.retire slot (slot.idleProducer producer.producerId nowMs)]
  | _, _ => []

/-- The evictions of the producer cap after a write. -/
def capActs (machine : StreamStateMachine) (streamId : BucketStreamId)
    (producer : Option ProducerRequest) (nowMs : ℕ) : List Act :=
  match producer, machine.streamSlot streamId with
  | some _, some slot => [.retire slot (slot.capVictims nowMs producerCapEvictBudget)]
  | _, _ => []

variable {machine : StreamStateMachine}

theorem mem_ownActs {streamId : BucketStreamId} {producer : Option ProducerRequest} {nowMs : ℕ}
    {act : Act} (h : act ∈ machine.ownActs streamId producer nowMs) :
    ∃ slot retired, machine.streamSlot streamId = some slot ∧ act = .retire slot retired := by
  unfold ownActs at h
  split at h
  · next hslot => exact ⟨_, _, hslot, List.mem_singleton.mp h⟩
  · cases h

theorem mem_capActs {streamId : BucketStreamId} {producer : Option ProducerRequest} {nowMs : ℕ}
    {act : Act} (h : act ∈ machine.capActs streamId producer nowMs) :
    ∃ slot retired, machine.streamSlot streamId = some slot ∧ act = .retire slot retired := by
  unfold capActs at h
  split at h
  · next hslot => exact ⟨_, _, hslot, List.mem_singleton.mp h⟩
  · cases h

/-- A live slot is found under its own name. -/
theorem slots_get?_of_streamSlot {id : BucketStreamId}
    {slot : StreamSlot} (h : machine.streamSlot id = some slot) :
    slot.id = id ∧ machine.state.slots.get? slot.id = some slot := by
  have hid := StreamRegistry.slot_id h
  exact ⟨hid, by rw [← streamSlot_eq, hid, h]⟩

variable [Blake3]

theorem trace_expireWriter (machine : StreamStateMachine) (streamId : BucketStreamId)
    (producer : Option ProducerRequest) (nowMs : ℕ) :
    Trace machine (machine.ownActs streamId producer nowMs)
      (machine.expireWriter streamId producer nowMs) := by
  unfold ownActs expireWriter expireIdleProducer
  cases producer with
  | none => exact .nil _
  | some producer =>
    cases hslot : machine.streamSlot streamId with
    | none => exact .nil _
    | some slot =>
      simp only [StreamSlot.expireIdleProducer_eq]
      exact .single (slots_get?_of_streamSlot hslot).2

theorem trace_enforceOn (machine : StreamStateMachine) (streamId : BucketStreamId)
    (producer : Option ProducerRequest) (nowMs : ℕ) :
    Trace machine (machine.capActs streamId producer nowMs)
      (machine.enforceOn streamId producer nowMs) := by
  unfold capActs enforceOn enforceProducerCap
  cases producer with
  | none => exact .nil _
  | some producer =>
    cases hslot : machine.streamSlot streamId with
    | none => exact .nil _
    | some slot =>
      simp only [StreamSlot.evictProducersOverCap_eq]
      exact .single (slots_get?_of_streamSlot hslot).2

end StreamStateMachine

/-! ## Outcomes -/

section Outcomes

variable [Blake3] (machine : StreamStateMachine) (check : IncarnationCheck)

/-- The removal of a stream that has expired before its name is used again. -/
inductive Expiry (streamId : BucketStreamId) (nowMs : ℕ) : List Act → Prop
  | live (h : machine.streamExpired streamId nowMs = false) : Expiry streamId nowMs []
  | expired {slot : StreamSlot} (hslot : machine.streamSlot streamId = some slot)
      (hexpired : streamIsExpired slot.metadata nowMs = true) :
      Expiry streamId nowMs [.remove slot .expired nowMs]

omit [Blake3] in
variable {machine} in
theorem Expiry.mem {streamId : BucketStreamId} {nowMs : ℕ} {acts : List Act}
    (h : Expiry machine streamId nowMs acts) {act : Act} (hact : act ∈ acts) :
    ∃ slot, act = .remove slot .expired nowMs := by
  cases h with
  | live => cases hact
  | expired => exact ⟨_, List.mem_singleton.mp hact⟩

/-- The answer of a write that was not applied: a refusal, a repeat of a write the producer's record
holds, or a close of a closed stream. -/
inductive Unwritten (slot : StreamSlot) (producer : Option ProducerRequest) (nowMs : ℕ) :
    StreamCommand → StreamResponse → Prop
  | refused {command : StreamCommand} {response : StreamResponse} (h : response.declines = true) :
      Unwritten slot producer nowMs command response
  | repeated {command : StreamCommand} {request : ProducerRequest} {key : WriteKey}
      {ack : ProducerAck} {response : StreamResponse} (hproducer : producer = some request)
      (hkey : producerWriteKey request = .ok key)
      (heval : evaluate (slot.producers.get? request.producerId) slot.retiredEpochWatermark
        machine.historyId key check = .repeat ack)
      (hack : response.producerAck = some ack) : Unwritten slot producer nowMs command response
  /-- A new producer without room under the cap. -/
  | limited {command : StreamCommand} {request : ProducerRequest} {key : WriteKey}
      {opened : Opened} {message : String} (hproducer : producer = some request)
      (hkey : producerWriteKey request = .ok key)
      (heval : evaluate (slot.producers.get? request.producerId) slot.retiredEpochWatermark
        machine.historyId key check = .claim none opened)
      (hfull : slot.producerCapAdmits request.producerId nowMs = false) :
      Unwritten slot producer nowMs command (.refusal .producerLimit message)
  | closed {streamId : BucketStreamId} {streamSeq : Option String}
      (hproducer : producer = none) (hstatus : slot.metadata.status = .closed) :
      Unwritten slot producer nowMs (.close streamId streamSeq producer nowMs)
        (.closed slot.metadata.tailOffset none)

/-- The changes and the answer of a command without preconditions. -/
inductive Outcome : StreamCommand → List Act → StreamResponse → Prop
  /-- A refusal that changed nothing. -/
  | refused {command : StreamCommand} {response : StreamResponse} (h : response.declines = true) :
      Outcome command [] response
  | bucketExists {bucketId : String} :
      Outcome (.createBucket bucketId) [] (.bucketAlreadyExists bucketId)
  | bucketCreated {bucketId : String} :
      Outcome (.createBucket bucketId) [.createBucket bucketId] (.bucketCreated bucketId)
  /-- The stream to create is there already. -/
  | streamExists {command : StreamCommand} {input : NewStream} {slot : StreamSlot}
      (hinput : command.createInput = some input)
      (hslot : machine.streamSlot input.streamId = some slot) :
      Outcome command [] (input.existingResponse slot.metadata)
  /-- The stream's predecessor had expired, and its creation time is out of range. -/
  | createRefused {command : StreamCommand} {input : NewStream} {expiry : List Act}
      {response : StreamResponse} (hinput : command.createInput = some input)
      (hexpiry : Expiry machine input.streamId input.nowMs expiry)
      (h : response.declines = true) : Outcome command expiry response
  | created {command : StreamCommand} {input : NewStream} {expiry : List Act} {history : HistoryId}
      {createdAtMs : ℕ} (hinput : command.createInput = some input)
      (hexpiry : Expiry machine input.streamId input.nowMs expiry) :
      Outcome command (expiry ++ [.create input history createdAtMs])
        (.created input.streamId input.initialLen input.closeAfter)
  /-- The command finds its stream expired. -/
  | expired {command : StreamCommand} {streamId : BucketStreamId} {nowMs : ℕ} {slot : StreamSlot}
      {response : StreamResponse} (htarget : command.expiryTarget = some (streamId, nowMs))
      (hslot : machine.streamSlot streamId = some slot)
      (hexpired : streamIsExpired slot.metadata nowMs = true)
      (h : response.declines = true ∨ response = .accessed true true) :
      Outcome command [.remove slot .expired nowMs] response
  /-- A write refused before its stream was looked at, or without a stream; the producer cap is
  enforced all the same. -/
  | capped {command : StreamCommand} {streamId : BucketStreamId} {producer : Option ProducerRequest}
      {nowMs : ℕ} {response : StreamResponse}
      (htarget : command.writeTarget = some (streamId, producer, nowMs))
      (h : response.declines = true) :
      Outcome command (machine.capActs streamId producer nowMs) response
  /-- A write that is not applied. -/
  | unwritten {command : StreamCommand} {streamId : BucketStreamId}
      {producer : Option ProducerRequest} {nowMs : ℕ} {slot : StreamSlot}
      {response : StreamResponse} (htarget : command.writeTarget = some (streamId, producer, nowMs))
      (hlive : machine.streamExpired streamId nowMs = false)
      (hslot : machine.streamSlot streamId = some slot)
      (h : Unwritten machine check (slot.expireOwn producer nowMs) producer nowMs
        command response) :
      Outcome command
        (machine.ownActs streamId producer nowMs ++
          (machine.expireWriter streamId producer nowMs).capActs streamId producer nowMs)
        response
  | appended {command : StreamCommand} {input : AppendStreamInput} {slot : StreamSlot}
      {gate : Option (WriteKey × Advance)} {messageCount : ℕ}
      (hinput : command.appendInput check = some input)
      (hlive : machine.streamExpired input.streamId input.nowMs = false)
      (hslot : machine.streamSlot input.streamId = some slot) :
      Outcome command
        (machine.ownActs input.streamId input.producer input.nowMs ++
          .append (slot.expireOwn input.producer input.nowMs) input gate messageCount ::
            ((machine.expireWriter input.streamId input.producer input.nowMs).act
              (.append (slot.expireOwn input.producer input.nowMs) input gate
                messageCount)).capActs input.streamId input.producer input.nowMs)
        ((machine.expireWriter input.streamId input.producer input.nowMs).commitAppend
          (slot.expireOwn input.producer input.nowMs) input gate messageCount).2
  | appendedExternal {command : StreamCommand} {input : AppendExternalInput} {slot : StreamSlot}
      {gate : Option (WriteKey × Advance)} (hinput : command.externalInput check = some input)
      (hlive : machine.streamExpired input.streamId input.nowMs = false)
      (hslot : machine.streamSlot input.streamId = some slot) :
      Outcome command
        (machine.ownActs input.streamId input.producer input.nowMs ++
          .appendExternal (slot.expireOwn input.producer input.nowMs) input gate ::
            ((machine.expireWriter input.streamId input.producer input.nowMs).act
              (.appendExternal (slot.expireOwn input.producer input.nowMs) input gate)).capActs
                input.streamId input.producer input.nowMs)
        ((machine.expireWriter input.streamId input.producer input.nowMs).commitExternal
          (slot.expireOwn input.producer input.nowMs) input gate).2
  /-- A publish that repeats the latest snapshot; the body it staged is queued. -/
  | snapshotKept {command : StreamCommand} {streamId : BucketStreamId} {offset nowMs : ℕ}
      {contentType : String} {body : SnapshotBody} {slot : StreamSlot}
      {snapshot : StreamVisibleSnapshot} {acts : List Act}
      (hinput : command.publishInput = some (streamId, offset, contentType, body, nowMs))
      (hslot : machine.streamSlot streamId = some slot)
      (hsnapshot : slot.visibleSnapshot = some snapshot)
      (hacts : acts = [] ∨ ∃ object, body.staged = some object ∧
        snapshot.object.map ExternalPayloadRef.s3Path ≠ some object.s3Path ∧
        acts = [.enqueue streamId.bucketId [object.s3Path] (satAdd nowMs retentionColdGcGraceMs)]) :
      Outcome command acts (.snapshotPublished offset (body.digest contentType))
  | snapshotPublished {command : StreamCommand} {streamId : BucketStreamId} {offset nowMs : ℕ}
      {contentType : String} {body : SnapshotBody} {slot : StreamSlot}
      (hinput : command.publishInput = some (streamId, offset, contentType, body, nowMs))
      (hslot : machine.streamSlot streamId = some slot)
      (hboundary : machine.checkJsonBoundary slot offset slot.retainedOffset
        command.expectedIncarnation = .ok ()) :
      Outcome command
        [.publish slot
          { offset := offset
            contentType := contentType
            payload := body.payload
            digest := body.digest contentType
            object := body.staged }
          nowMs]
        (.snapshotPublished offset (body.digest contentType))
  | retentionKept {streamId : BucketStreamId} {offset nowMs kept : ℕ} {expected : Option ℕ} :
      Outcome (.advanceRetention streamId offset nowMs expected) [] (.retentionAdvanced kept)
  | retained {streamId : BucketStreamId} {offset nowMs : ℕ} {expected : Option ℕ}
      {slot : StreamSlot} (hslot : machine.streamSlot streamId = some slot)
      (hboundary : machine.checkJsonBoundary slot offset slot.retainedOffset expected = .ok ()) :
      Outcome (.advanceRetention streamId offset nowMs expected) [.retain slot offset nowMs]
        (.retentionAdvanced offset)
  | accessed {streamId : BucketStreamId} {nowMs : ℕ} {renewTtl : Bool} :
      Outcome (.touchStreamAccess streamId nowMs renewTtl) [] (.accessed false false)
  | renewed {streamId : BucketStreamId} {nowMs : ℕ} {renewTtl : Bool} {slot : StreamSlot}
      (hslot : machine.streamSlot streamId = some slot) :
      Outcome (.touchStreamAccess streamId nowMs renewTtl) [.renew slot nowMs]
      (.accessed true false)
  | flushed {streamId : BucketStreamId} {chunk : ColdChunkRef} {slot : StreamSlot} {start : ℕ}
      (hslot : machine.streamSlot streamId = some slot) :
      Outcome (.flushCold streamId chunk slot.cold.coldGeneration) [.flush slot chunk]
        (.coldFlushed start)
  /-- An accepted compaction of the stream's own chunks, which only the pages name. -/
  | compactedOwn {streamId : BucketStreamId} {oldChunks : List ColdChunkRef}
      {replacement : ColdChunkRef} {gcNotBeforeMs compactedBytes : ℕ} {slot : StreamSlot}
      (hslot : machine.streamSlot streamId = some slot)
      (hown : ∀ chunk ∈ oldChunks, chunk.sharedObject = false) :
      Outcome (.compactCold streamId oldChunks replacement gcNotBeforeMs)
        [.enqueue streamId.bucketId (oldChunks.map ColdChunkRef.s3Path) gcNotBeforeMs]
        (.coldCompacted oldChunks.length compactedBytes)
  | compacted {streamId : BucketStreamId} {oldChunks : List ColdChunkRef}
      {replacement : ColdChunkRef} {gcNotBeforeMs compactedBytes : ℕ} {slot : StreamSlot}
      (hslot : machine.streamSlot streamId = some slot) :
      Outcome (.compactCold streamId oldChunks replacement gcNotBeforeMs)
        [.compact slot oldChunks gcNotBeforeMs] (.coldCompacted oldChunks.length compactedBytes)
  /-- A compaction that was refused after it removed the chunks that matched. -/
  | dropped {streamId : BucketStreamId} {oldChunks : List ColdChunkRef}
      {replacement : ColdChunkRef} {gcNotBeforeMs compactedBytes : ℕ} {slot : StreamSlot}
      {response : StreamResponse} (hslot : machine.streamSlot streamId = some slot)
      (hscope : machine.validateStreamScope streamId = .ok ())
      (hcheck : checkCompaction oldChunks replacement = .ok compactedBytes)
      (h : response.declines = true) :
      Outcome (.compactCold streamId oldChunks replacement gcNotBeforeMs) [.drop slot oldChunks]
        response
  | deleted {streamId : BucketStreamId} {nowMs : ℕ} {slot : StreamSlot}
      (hslot : machine.streamSlot streamId = some slot) :
      Outcome (.deleteStream streamId nowMs)
        [.remove slot (if streamIsExpired slot.metadata nowMs then .expired else .deleted) nowMs]
        (.deleted (streamIsExpired slot.metadata nowMs))
  | purged {bucketId : String} {nowMs removed pending : ℕ} {history : HistoryId}
      {removals : List Act}
      (hremovals : ∀ act ∈ removals, ∃ slot, act = .remove slot .purged nowMs) :
      Outcome (.purgeBucket bucketId nowMs) (removals ++ [.fenceBucket bucketId])
        (.bucketPurged bucketId removed pending history)
  | acked {upToSeq removed : ℕ} :
      Outcome (.ackColdGc upToSeq) [.ack upToSeq] (.coldGcAcked removed)
  | deferred {seq notBeforeMs : ℕ} {newSeq : Option ℕ} :
      Outcome (.deferColdGc seq notBeforeMs) [.defer seq notBeforeMs] (.coldGcDeferred newSeq)
  | importKept {snapshot : StreamSnapshot} {history event : HistoryId} {backupDigest : Digest32}
      {nowMs buckets streams : ℕ} :
      Outcome (.importSnapshot snapshot history backupDigest nowMs) []
        (.snapshotImported buckets streams event true)
  | imported {snapshot : StreamSnapshot} {history : HistoryId} {backupDigest : Digest32}
      {index nowMs : ℕ} {restored : StreamStateMachine} :
      Outcome (.importSnapshot snapshot history backupDigest nowMs)
        [.importState index history backupDigest nowMs snapshot restored]
        (.snapshotImported snapshot.buckets.length snapshot.streams.length history false)
  | historyStarted (event : HistoryEvent) {nowMs : ℕ} :
      Outcome (.newHistory event.id nowMs event.previous event.kept event.leader)
        [.newHistory event nowMs] (.historyStarted event.id)
  | tidied {streamId : BucketStreamId} {nowMs : ℕ} {slot : StreamSlot} {debtRemaining : Bool}
      (hslot : machine.streamSlot streamId = some slot) :
      Outcome (.tidyStream streamId nowMs) [.retire slot (slot.tidyVictims nowMs)]
        (.streamTidied debtRemaining)
  | swept {nowMs retireThrough expired retired : ℕ} {limit : ℕ+} {acts : List Act}
      (hacts : ∀ act ∈ acts, act = .popExpired nowMs ∨ act = .fold ∨
        ∃ slot, act = .remove slot .expired nowMs) :
      Outcome (.sweep nowMs limit retireThrough) acts (.swept expired retired)
  | offloaded {streamId : BucketStreamId} {refs : List ObjectPayloadRef} {slot : StreamSlot}
      {removed remaining : ℕ} (hslot : machine.streamSlot streamId = some slot) :
      Outcome (.offloadColdRefs streamId refs) [.offload slot refs]
        (.coldRefsOffloaded removed remaining)

/-- A command's result is that of a trace of its changes. -/
def Explained (command : StreamCommand) (result : StreamStateMachine × StreamResponse) : Prop :=
  ∃ acts, Trace machine acts result.1 ∧ Outcome machine check command acts result.2

end Outcomes

end Ursula

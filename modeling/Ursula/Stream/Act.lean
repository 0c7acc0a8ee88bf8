import Ursula.Lib.Transition
import Ursula.Stream.GroupState

/-!
# Elementary changes

Every command changes a group by a list of elementary changes: a bucket is made or fenced, a stream
is created or removed, a write is committed, an end record is folded. An elementary change says when
it may happen and what it makes of the replicated state; the machine's own operation makes the same
of it.

## Main definitions

* `Act`: the elementary changes
* `Act.Enabled`: when a change may happen
* `GroupState.act`, `StreamStateMachine.act`: its effect, on the replicated state and on a machine
* `Trace`: the changes between two machines

## Main results

* `StreamStateMachine.state_act`: the machine's operation has the effect on the replicated state
-/

namespace Ursula

open Word64 GroupState

/-- One elementary change of a group. -/
inductive Act
  | createBucket (bucketId : String)
  | fenceBucket (bucketId : String)
  | remove (slot : StreamSlot) (reason : StreamEnd) (nowMs : ℕ)
  | create (input : NewStream) (history : HistoryId) (createdAtMs : ℕ)
  | renew (slot : StreamSlot) (nowMs : ℕ)
  | retire (slot : StreamSlot) (producerIds : List String)
  | append (slot : StreamSlot) (input : AppendStreamInput) (gate : Option (WriteKey × Advance))
      (messageCount : ℕ)
  | appendExternal (slot : StreamSlot) (input : AppendExternalInput)
      (gate : Option (WriteKey × Advance))
  | publish (slot : StreamSlot) (snapshot : StreamVisibleSnapshot) (nowMs : ℕ)
  | enqueue (bucketId : String) (paths : List String) (notBeforeMs : ℕ)
  | retain (slot : StreamSlot) (retainedOffset nowMs : ℕ)
  | flush (slot : StreamSlot) (chunk : ColdChunkRef)
  /-- A compaction of shared chunks that matched the stream's state. -/
  | compact (slot : StreamSlot) (oldChunks : List ColdChunkRef) (gcNotBeforeMs : ℕ)
  /-- A compaction of shared chunks that was refused after it removed those that matched. -/
  | drop (slot : StreamSlot) (oldChunks : List ColdChunkRef)
  | offload (slot : StreamSlot) (refs : List ObjectPayloadRef)
  | ack (upToSeq : ℕ)
  | defer (seq notBeforeMs : ℕ)
  | newHistory (event : HistoryEvent) (nowMs : ℕ)
  | importState (index : ℕ) (history : HistoryId) (backupDigest : Digest32) (nowMs : ℕ)
      (snapshot : StreamSnapshot) (restored : StreamStateMachine)
  | fold
  | popExpired (nowMs : ℕ)

/-! ## When a change may happen -/

/-- The locator of a staged payload at the start of a stream. -/
def ExternalPayloadRef.locator (payload : ExternalPayloadRef) : ObjectPayloadRef where
  startOffset := 0
  endOffset := payload.payloadLen
  s3Path := payload.s3Path
  objectSize := payload.objectSize
  objectOffset := 0

/-- The initial payload of a stream to create came inline, or was staged and is well formed. -/
inductive NewStream.Payload (input : NewStream) : Prop
  | inline (payload : Bytes) (hlen : input.initialLen = payload.length)
      (hhot : input.hotBuffer = HotBuffer.fromPayload 0 payload)
      (hext : input.externalSegments = [])
  | external (payload : ExternalPayloadRef) (hvalid : validateExternalPayloadRef payload = .ok ())
      (hlen : input.initialLen = payload.payloadLen) (hhot : input.hotBuffer = HotBuffer.empty)
      (hext : input.externalSegments = [payload.locator])

/-- The evaluation that lets a keyed write apply with an advance. -/
def Advance.evaluation : Advance → Evaluation
  | .claim closes opened => .claim closes opened
  | .next => .next

/-- The gate of a write that applies is that of its producer key. -/
inductive GateOf (history : ℕ) (slot : StreamSlot) (check : IncarnationCheck) (nowMs : ℕ) :
    Option ProducerRequest → Option (WriteKey × Advance) → Prop
  | unkeyed : GateOf history slot check nowMs none none
  | keyed {producer : ProducerRequest} {key : WriteKey} {advance : Advance}
      (hkey : producerWriteKey producer = .ok key)
      (heval : evaluate (slot.producers.get? producer.producerId) slot.retiredEpochWatermark history
        key check = advance.evaluation)
      -- a new producer has room under the cap
      (hroom : ∀ opened, advance = .claim none opened →
        slot.producerCapAdmits producer.producerId nowMs = true) :
      GateOf history slot check nowMs (some producer) (some (key, advance))

/-- A stream's name passes its checks and its bucket is there. -/
structure GroupState.InScope (state : GroupState) (id : BucketStreamId) : Prop where
  bucketId : validateBucketId id.bucketId = .ok ()
  streamId : validateStreamId id = .ok ()
  bucket : state.buckets.contains id.bucketId = true

/-- When an elementary change may happen. -/
def Act.Enabled [Blake3] (state : GroupState) : Act → Prop
  | .createBucket bucketId =>
    validateBucketId bucketId = .ok () ∧ state.erasedBuckets.contains bucketId = false ∧
      state.buckets.contains bucketId = false
  | .fenceBucket bucketId =>
    validateBucketId bucketId = .ok () ∧ state.history.isSome ∧
      ∀ id slot, state.slots.get? id = some slot → id.bucketId ≠ bucketId
  | .remove slot _ _ => state.slots.get? slot.id = some slot
  | .create input history createdAtMs =>
    state.InScope input.streamId ∧ state.slots.get? input.streamId = none ∧
      state.history.map HistoryEvent.id = some history ∧
      createdAtMs = max input.nowMs (satAdd state.lastCreatedAtMs 1) ∧
      createdAtMs ≤ maxCreatedAtMs ∧ input.Payload
  | .renew slot _ => state.slots.get? slot.id = some slot
  | .retire slot _ => state.slots.get? slot.id = some slot
  | .append slot input gate _ =>
    state.slots.get? slot.id = some slot ∧ slot.id = input.streamId ∧
      slot.metadata.status = .open ∧ (input.payload ≠ [] ∨ input.closeAfter) ∧
      (input.kind = .closeOnly → input.payload = []) ∧
      GateOf (historyIdOf state.history) slot input.check input.nowMs input.producer gate
  | .appendExternal slot input gate =>
    state.slots.get? slot.id = some slot ∧ slot.id = input.streamId ∧
      slot.metadata.status = .open ∧ validateExternalPayloadRef input.payload = .ok () ∧
      GateOf (historyIdOf state.history) slot input.check input.nowMs input.producer gate
  | .publish slot snapshot _ =>
    state.slots.get? slot.id = some slot ∧ state.InScope slot.id ∧
      snapshot.offset ≤ slot.metadata.tailOffset ∧ slot.retainedOffset ≤ snapshot.offset ∧
      ∀ current, slot.visibleSnapshot = some current → current.offset < snapshot.offset
  | .enqueue bucketId _ _ =>
    validateBucketId bucketId = .ok () ∧ state.buckets.contains bucketId = true
  | .retain slot retainedOffset _ =>
    state.slots.get? slot.id = some slot ∧ state.InScope slot.id ∧
      slot.retainedOffset < retainedOffset ∧
      ∃ snapshot, slot.visibleSnapshot = some snapshot ∧ retainedOffset ≤ snapshot.offset
  | .flush slot chunk =>
    state.slots.get? slot.id = some slot ∧ state.InScope slot.id ∧
      StreamStateMachine.checkChunk slot.id chunk = .ok () ∧
      StreamStateMachine.checkChunkRange slot chunk = .ok ()
  | .compact slot oldChunks _ =>
    state.slots.get? slot.id = some slot ∧ state.InScope slot.id ∧
      (∀ chunk ∈ oldChunks, chunk.sharedObject = true) ∧
      (slot.cold.removeSharedChunks oldChunks).2 = true
  | .drop slot oldChunks =>
    state.slots.get? slot.id = some slot ∧ (∀ chunk ∈ oldChunks, chunk.sharedObject = true) ∧
      (slot.cold.removeSharedChunks oldChunks).2 = false
  | .offload slot _ => state.slots.get? slot.id = some slot
  | .ack _ => True
  | .defer _ _ => True
  | .newHistory event _ => event.previous = historyIdOf state.history
  | .importState _ history _ _ snapshot restored =>
    state.buckets = ∅ ∧ state.erasedBuckets = ∅ ∧ state.slots = ∅ ∧
      StreamStateMachine.restoreCountedSince snapshot history = .ok restored
  | .fold => ∃ folded, state.usage.foldFirstEndRecord = some folded
  | .popExpired _ => True

/-! ## What a change makes of the replicated state -/

namespace GroupState

variable (state : GroupState)

/-- Sets a slot under its own name. -/
def setSlot (slot : StreamSlot) : GroupState :=
  { state with slots := state.slots.insert slot.id slot }

/-- Sets a slot with a usage, stamped with the next seq. -/
def countSlot (slot : StreamSlot) (usage : VersionUsage) : GroupState :=
  { state.setSlot { slot with usage := { usage with seq := state.usage.nextSeq } } with
    usage := state.usage.stamp }

/-- Queues objects, when there are any. -/
def enqueuePaths (bucketId : String) (paths : List String) (notBeforeMs : ℕ) : GroupState :=
  if paths = [] then state else state.enqueueAfter bucketId (.paths paths) notBeforeMs

/-- The usage of a created stream. -/
def createdUsage (input : NewStream) (history : HistoryId) : VersionUsage where
  seq := state.usage.nextSeq
  counters :=
    { committed := CommittedUsage.ofWrite input.initialLen
        (appendedRecordCount input.messageCount input.initialLen)
      appends := 0 }
  historyBaseline := VersionCounters.zero
  lastWrite := .at input.nowMs
  countedSince := history

/-- The slot of a created stream. -/
def createdSlot (input : NewStream) (history : HistoryId) (createdAtMs : ℕ) :
    StreamSlot :=
  input.slot createdAtMs (historyIdOf state.history) (state.createdUsage input history)

end GroupState

/-- The slot after an inline write, before its usage is counted. -/
def AppendStreamInput.written (input : AppendStreamInput) (history : ℕ) (slot : StreamSlot)
    (gate : Option (WriteKey × Advance)) : StreamSlot :=
  let written := (slot.write history input.payload.length input.streamSeq input.closeAfter
    input.producer gate input.nowMs).1
  { written with
    hotBuffer := written.hotBuffer.pushSlice slot.metadata.tailOffset input.payload }

/-- The slot after the write of an append. -/
def AppendStreamInput.closed (input : AppendStreamInput) (history : ℕ) (slot : StreamSlot)
    (gate : Option (WriteKey × Advance)) : StreamSlot :=
  (slot.write history input.payload.length input.streamSeq input.closeAfter input.producer gate
    input.nowMs).1

/-- The slot after an external append, before its usage is counted. -/
def AppendExternalInput.written (input : AppendExternalInput) (history : ℕ) (slot : StreamSlot)
    (gate : Option (WriteKey × Advance)) : StreamSlot :=
  let written := (slot.write history input.payload.payloadLen input.streamSeq input.closeAfter
    input.producer gate input.nowMs).1
  { written with
    cold := written.cold.pushDirectExternalSegment
      { startOffset := slot.metadata.tailOffset
        endOffset := written.metadata.tailOffset
        s3Path := input.payload.s3Path
        objectSize := input.payload.objectSize
        objectOffset := 0 } }

/-- The bytes an external append adds to the stream. -/
def AppendExternalInput.appendedBytes (input : AppendExternalInput) (slot : StreamSlot) : ℕ :=
  satAdd slot.metadata.tailOffset input.payload.payloadLen - slot.metadata.tailOffset

/-- The slot after retention moved to `retainedOffset`. -/
def StreamSlot.trimmed (slot : StreamSlot) (retainedOffset : ℕ) : StreamSlot :=
  { slot with
    retainedOffset := retainedOffset
    cold := (slot.cold.compactBefore retainedOffset).1
    hotBuffer := slot.hotBuffer.discardBefore retainedOffset }

/-- The object of a slot's visible snapshot, as a list of paths. -/
def StreamSlot.snapshotPaths (slot : StreamSlot) : List String :=
  (slot.visibleSnapshot.bind StreamVisibleSnapshot.object).toList.map ExternalPayloadRef.s3Path

/-- What an elementary change makes of the replicated state. -/
def GroupState.act (state : GroupState) : Act → GroupState
  | .createBucket bucketId => { state with buckets := state.buckets.insert bucketId () }
  | .fenceBucket bucketId =>
    { state with
      buckets := state.buckets.erase bucketId
      erasedBuckets := state.erasedBuckets.insert bucketId () }
  | .remove slot reason nowMs => state.removeStream slot reason nowMs
  | .create input history createdAtMs =>
    { state with
      slots := state.slots.insert input.streamId (state.createdSlot input history createdAtMs)
      usage := (state.usage.insertBucket input.streamId.bucketId).stamp
      lastCreatedAtMs := max state.lastCreatedAtMs createdAtMs }
  | .renew slot nowMs => state.setSlot { slot with metadata := renewStreamTtl slot.metadata nowMs }
  | .retire slot producerIds => state.setSlot (slot.retireProducers producerIds)
  | .append slot input gate messageCount =>
    if input.kind = .closeOnly then
      state.setSlot (input.closed (historyIdOf state.history) slot gate)
    else
      let written := input.written (historyIdOf state.history) slot gate
      state.countSlot written (StreamStateMachine.countAppend written.usage input.payload.length
        (appendedRecordCount messageCount input.payload.length) input.nowMs)
  | .appendExternal slot input gate =>
    let written := input.written (historyIdOf state.history) slot gate
    state.countSlot written (StreamStateMachine.countAppend written.usage
      (input.appendedBytes slot)
      (appendedRecordCount input.messageCount (input.appendedBytes slot)) input.nowMs)
  | .publish slot snapshot nowMs =>
    (state.countSlot { slot with visibleSnapshot := some snapshot } slot.usage).enqueuePaths
      slot.id.bucketId slot.snapshotPaths (satAdd nowMs retentionColdGcGraceMs)
  | .enqueue bucketId paths notBeforeMs => state.enqueueAfter bucketId (.paths paths) notBeforeMs
  | .retain slot retainedOffset nowMs =>
    let dropped := (slot.cold.compactBefore retainedOffset).2
    ((state.countSlot (slot.trimmed retainedOffset) slot.usage).releaseSharedColdObjects
      slot.id.bucketId dropped.sharedPaths (satAdd nowMs retentionColdGcGraceMs)).enqueuePaths
        slot.id.bucketId dropped.externalPaths (satAdd nowMs retentionColdGcGraceMs)
  | .flush slot chunk =>
    let flushed := state.setSlot (StreamStateMachine.flushedSlot slot chunk)
    if chunk.sharedObject then flushed.retainSharedColdObject chunk.s3Path else flushed
  | .compact slot oldChunks gcNotBeforeMs =>
    (state.setSlot (StreamStateMachine.uncompactedSlot slot oldChunks)).releaseSharedColdObjects
      slot.id.bucketId (oldChunks.map ColdChunkRef.s3Path) gcNotBeforeMs
  | .drop slot oldChunks => state.setSlot (StreamStateMachine.uncompactedSlot slot oldChunks)
  | .offload slot refs =>
    state.setSlot { slot with cold := (slot.cold.removeExternalSegments refs).1 }
  | .ack upToSeq => { state with coldGc := (state.coldGc.ack upToSeq).1 }
  | .defer seq notBeforeMs => { state with coldGc := (state.coldGc.defer seq notBeforeMs).1 }
  | .newHistory event nowMs =>
    { state with
      usage := if event.previous = 0 then state.usage.recordGenesis event.id else state.usage
      history := some event
      lastCreatedAtMs := max state.lastCreatedAtMs nowMs }
  | .importState index history backupDigest nowMs _ restored =>
    { restored.state with
      usage := restored.state.usage.keepGenesis state.usage
      lastCreatedAtMs :=
        (restored.state.slots.values.map fun slot => slot.metadata.createdAtMs).foldl max
          (max (max restored.lastCreatedAtMs state.lastCreatedAtMs) nowMs)
      history := some
        { id := history
          eventIndex := index
          previous := historyIdOf state.history
          kept := index - 1
          leader := { term := 0, nodeId := 0 }
          imported := some backupDigest } }
  | .fold =>
    match state.usage.foldFirstEndRecord with
    | none => state
    | some (_, ledger) => { state with usage := ledger }
  | .popExpired _ => state

/-- The machine's operation of an elementary change. -/
def StreamStateMachine.act (machine : StreamStateMachine) : Act → StreamStateMachine
  | .createBucket bucketId => { machine with buckets := machine.buckets.insert bucketId () }
  | .fenceBucket bucketId =>
    { machine with
      buckets := machine.buckets.erase bucketId
      erasedBuckets := machine.erasedBuckets.insert bucketId () }
  | .remove slot reason nowMs => (machine.removeStreamState slot.id reason nowMs).1
  | .create input history createdAtMs =>
    let counted := machine.usageOnCreate history input.streamId.bucketId input.initialLen
      (appendedRecordCount input.messageCount input.initialLen) input.nowMs
    match counted.1.insertStreamSlot (input.slot createdAtMs machine.historyId counted.2) with
    | none => counted.1
    | some (inserted, _) => inserted.recordCreatedAtMs createdAtMs
  | .renew slot nowMs =>
    (machine.putSlot { slot with metadata := renewStreamTtl slot.metadata nowMs }).refreshTtlEntry
      slot.id
  | .retire slot producerIds => machine.putSlot (slot.retireProducers producerIds)
  | .append slot input gate messageCount => (machine.commitAppend slot input gate messageCount).1
  | .appendExternal slot input gate => (machine.commitExternal slot input gate).1
  | .publish slot snapshot nowMs => machine.commitPublish slot snapshot nowMs
  | .enqueue bucketId paths notBeforeMs =>
    { machine with coldGc := machine.coldGc.enqueueAfter bucketId (.paths paths) notBeforeMs }
  | .retain slot retainedOffset nowMs => machine.commitRetention slot retainedOffset nowMs
  | .flush slot chunk => machine.commitFlush slot chunk
  | .compact slot oldChunks gcNotBeforeMs =>
    (machine.putSlot (uncompactedSlot slot oldChunks)).releaseCompacted slot.id.bucketId oldChunks
      gcNotBeforeMs
  | .drop slot oldChunks => machine.putSlot (uncompactedSlot slot oldChunks)
  | .offload slot refs =>
    machine.putSlot { slot with cold := (slot.cold.removeExternalSegments refs).1 }
  | .ack upToSeq => (machine.ackColdGc upToSeq).1
  | .defer seq notBeforeMs => (machine.deferColdGc seq notBeforeMs).1
  | .newHistory event nowMs =>
    { machine with
      usage := if event.previous = 0 then machine.usage.recordGenesis event.id else machine.usage
      history := some event
      lastCreatedAtMs := max machine.lastCreatedAtMs nowMs }
  | .importState index history backupDigest nowMs _ restored =>
    machine.imported index history backupDigest nowMs restored
  | .fold =>
    match machine.usage.foldFirstEndRecord with
    | none => machine
    | some (record, ledger) =>
      { machine with usage := ledger, removed := recordFolded machine.removed record }
  | .popExpired nowMs => { machine with registry := (machine.registry.popExpired nowMs).1 }

/-! ## The machine's operations have the effect -/

namespace GroupState

theorem putSlot_eq {state : GroupState} {old slot : StreamSlot}
    (h : state.slots.get? slot.id = some old) : state.putSlot slot = state.setSlot slot := by
  unfold putSlot setSlot OrdMap.modify
  rw [h]

theorem restamp_setSlot (state : GroupState) (slot : StreamSlot)
    (change : VersionUsage → VersionUsage) :
    (state.setSlot slot).restamp slot.id change = state.countSlot slot (change slot.usage) := by
  unfold restamp
  simp only [setSlot, OrdMap.get?_insert_self]
  rw [putSlot_eq (OrdMap.get?_insert_self _ _ _)]
  exact GroupState.ext rfl rfl (OrdMap.insert_insert _ slot.id _ _) rfl rfl rfl rfl rfl

end GroupState

namespace StreamStateMachine

variable {machine : StreamStateMachine} {slot : StreamSlot}

theorem state_putSlot_of_some {old : StreamSlot} (h : machine.state.slots.get? slot.id = some old) :
    (machine.putSlot slot).state = machine.state.setSlot slot := by
  rw [state_putSlot, putSlot_eq h]

variable {gate : Option (WriteKey × Advance)}

theorem state_commitAppend {input : AppendStreamInput}
    (h : machine.state.slots.get? slot.id = some slot) (hid : slot.id = input.streamId)
    (messageCount : ℕ) :
    (machine.commitAppend slot input gate messageCount).1.state =
      machine.state.act (.append slot input gate messageCount) := by
  have hput : ∀ written : StreamSlot, written.id = slot.id →
      (machine.putSlot written).state = machine.state.setSlot written := fun written hw =>
    @state_putSlot_of_some machine _ slot (hw ▸ h)
  unfold commitAppend GroupState.act
  by_cases hkind : input.kind = .closeOnly
  · simp only [hkind, if_true, state_refreshTtlEntry]
    exact hput _ (StreamSlot.write_id ..)
  simp only [hkind, if_false, state_usageOnAppend, state_syncHotIndex, state_addHotPayloadBytes,
    state_refreshTtlEntry]
  have hw : (input.written (historyIdOf machine.history) slot gate).id = slot.id :=
    StreamSlot.write_id ..
  rw [← hid, ← hw]
  exact (congrArg (restamp · _ _) (hput _ hw)).trans (restamp_setSlot ..)

theorem state_commitExternal {input : AppendExternalInput}
    (h : machine.state.slots.get? slot.id = some slot) (hid : slot.id = input.streamId) :
    (machine.commitExternal slot input gate).1.state =
      machine.state.act (.appendExternal slot input gate) := by
  have hw : (input.written (historyIdOf machine.history) slot gate).id = slot.id :=
    StreamSlot.write_id ..
  have hput : (machine.putSlot (input.written (historyIdOf machine.history) slot gate)).state =
      machine.state.setSlot (input.written (historyIdOf machine.history) slot gate) :=
    @state_putSlot_of_some machine _ slot (hw ▸ h)
  have htail : (input.written (historyIdOf machine.history) slot gate).metadata.tailOffset =
      satAdd slot.metadata.tailOffset input.payload.payloadLen := by
    unfold AppendExternalInput.written
    rw [StreamSlot.write_eq]
    exact writeMetadata_tailOffset ..
  unfold commitExternal GroupState.act
  simp only [state_usageOnAppend, state_syncHotIndex, state_refreshTtlEntry]
  rw [← hid, ← hw]
  refine (congrArg (restamp · _ _) hput).trans ((restamp_setSlot ..).trans ?_)
  unfold AppendExternalInput.appendedBytes
  rw [← htail]
  rfl

theorem state_create {input : NewStream} (h : machine.state.slots.get? input.streamId = none)
    (history : HistoryId) (createdAtMs : ℕ) :
    (machine.act (.create input history createdAtMs)).state =
      machine.state.act (.create input history createdAtMs) := by
  set counted := machine.usageOnCreate history input.streamId.bucketId input.initialLen
    (appendedRecordCount input.messageCount input.initialLen) input.nowMs with hcounted
  have husage : counted.1.state = { machine.state with
        usage := (machine.state.usage.insertBucket input.streamId.bucketId).stamp } := by
    refine GroupState.ext rfl rfl rfl rfl rfl ?_ rfl rfl
    exact congrArg UsageLedger.stamp (UsageLedger.withoutIndex_insertBucket _ _)
  have hslot : input.slot createdAtMs machine.historyId counted.2 =
      machine.state.createdSlot input history createdAtMs := by
    simp only [hcounted, usageOnCreate, UsageLedger.stamp, UsageLedger.nextSeq_insertBucket]
    rfl
  unfold StreamStateMachine.act GroupState.act
  simp only [← hcounted, hslot]
  cases hins : counted.1.insertStreamSlot (machine.state.createdSlot input history createdAtMs) with
  | none =>
    obtain ⟨old, hold⟩ := insertStreamSlot_eq_none_iff.mp hins
    rw [streamSlot_eq, husage] at hold
    cases h.symm.trans hold
  | some inserted =>
    have hstate := (state_insertStreamSlot hins).2
    rw [husage] at hstate
    show { inserted.1.state with lastCreatedAtMs := max inserted.1.lastCreatedAtMs createdAtMs } = _
    have hlast : inserted.1.lastCreatedAtMs = machine.lastCreatedAtMs :=
      congrArg GroupState.lastCreatedAtMs hstate
    rw [hstate, hlast]
    rfl

theorem state_enqueueAfterGrace (machine : StreamStateMachine) (bucketId : String)
    (object : Option ExternalPayloadRef) (nowMs : ℕ) :
    (machine.enqueueAfterGrace bucketId object nowMs).state =
      machine.state.enqueuePaths bucketId (object.toList.map ExternalPayloadRef.s3Path)
        (satAdd nowMs retentionColdGcGraceMs) := by
  cases object <;> rfl

section Held

variable (h : machine.state.slots.get? slot.id = some slot)
include h

theorem state_commitPublish (snapshot : StreamVisibleSnapshot) (nowMs : ℕ) :
    (machine.commitPublish slot snapshot nowMs).state =
      machine.state.act (.publish slot snapshot nowMs) := by
  have hput : (machine.putSlot { slot with visibleSnapshot := some snapshot }).state =
      machine.state.setSlot { slot with visibleSnapshot := some snapshot } :=
    @state_putSlot_of_some machine { slot with visibleSnapshot := some snapshot } slot h
  have hcount : ((machine.putSlot { slot with visibleSnapshot := some snapshot }).usageOnSizeChange
      slot.id).state =
        machine.state.countSlot { slot with visibleSnapshot := some snapshot } slot.usage := by
    rw [state_usageOnSizeChange, hput]
    exact restamp_setSlot machine.state { slot with visibleSnapshot := some snapshot } _
  unfold commitPublish GroupState.act StreamSlot.snapshotPaths
  rw [state_enqueueAfterGrace, hcount]

theorem state_commitRetention (retainedOffset nowMs : ℕ) :
    (machine.commitRetention slot retainedOffset nowMs).state =
      machine.state.act (.retain slot retainedOffset nowMs) := by
  set retained : StreamSlot := { slot with retainedOffset := retainedOffset } with hretained
  set counted := (machine.putSlot retained).usageOnSizeChange slot.id with hcounted
  have hstate : counted.state = machine.state.countSlot retained slot.usage := by
    have hput := @state_putSlot_of_some machine retained slot h
    rw [hcounted, state_usageOnSizeChange, hput]
    exact GroupState.restamp_setSlot machine.state retained _
  set stamped : StreamSlot :=
    { retained with usage := { slot.usage with seq := machine.state.usage.nextSeq } }
    with hstamped
  have hslot : counted.state.slots.get? slot.id = some stamped := by
    rw [hstate]
    exact OrdMap.get?_insert_self _ _ _
  -- trimming the stamped slot and stamping the trimmed one give the same state
  have htrim : (counted.putSlot { stamped with
        cold := (stamped.cold.compactBefore retainedOffset).1
        hotBuffer := stamped.hotBuffer.discardBefore retainedOffset }).state =
      machine.state.countSlot (slot.trimmed retainedOffset) slot.usage := by
    rw [@state_putSlot_of_some counted { stamped with
        cold := (stamped.cold.compactBefore retainedOffset).1
        hotBuffer := stamped.hotBuffer.discardBefore retainedOffset } stamped hslot, hstate]
    exact GroupState.ext rfl rfl (OrdMap.insert_insert _ slot.id _ _) rfl rfl rfl rfl rfl
  unfold commitRetention compactRetainedPrefix
  rw [← hretained, ← hcounted, streamSlot_eq, hslot]
  simp only [state_syncHotIndex, state_removeHotPayloadBytes, GroupState.act,
    GroupState.enqueuePaths, ← htrim, ← state_releaseSharedColdObjects]
  split_ifs <;> rfl

theorem state_commitFlush (chunk : ColdChunkRef) :
    (machine.commitFlush slot chunk).state = machine.state.act (.flush slot chunk) := by
  have hput := @state_putSlot_of_some machine (flushedSlot slot chunk) slot h
  unfold commitFlush GroupState.act
  simp only [← hput]
  split_ifs <;> simp

theorem state_compact {oldChunks : List ColdChunkRef}
    (hshared : ∀ chunk ∈ oldChunks, chunk.sharedObject = true) (gcNotBeforeMs : ℕ) :
    (machine.act (.compact slot oldChunks gcNotBeforeMs)).state =
      machine.state.act (.compact slot oldChunks gcNotBeforeMs) := by
  have hput := @state_putSlot_of_some machine (uncompactedSlot slot oldChunks) slot h
  have hown : (oldChunks.filter fun chunk => !chunk.sharedObject) = [] := by
    simpa using hshared
  have hall : (oldChunks.filter fun chunk => chunk.sharedObject) = oldChunks :=
    List.filter_eq_self.mpr hshared
  simp only [StreamStateMachine.act, GroupState.act, releaseCompacted, hown, hall, List.map_nil,
    if_true, state_releaseSharedColdObjects, hput]

end Held

theorem state_imported (machine restored : StreamStateMachine) (index : ℕ) (history : HistoryId)
    (backupDigest : Digest32) (nowMs : ℕ) (snapshot : StreamSnapshot) :
    (machine.imported index history backupDigest nowMs restored).state =
      machine.state.act (.importState index history backupDigest nowMs snapshot restored) := by
  refine GroupState.ext rfl rfl rfl rfl rfl rfl ?_ rfl
  show (restored.registry.slots.map fun slot => slot.metadata.createdAtMs).foldl max _ =
    (restored.registry.slotsByName.values.map fun slot => slot.metadata.createdAtMs).foldl max _
  rw [StreamRegistry.values_slotsByName]
  exact ((restored.registry.slotsById_perm.map _).foldl_eq _).symm

/-- **Effects.** The machine's operation of an enabled change makes of the replicated state what the
change says. -/
theorem state_act [Blake3] {act : Act} (h : act.Enabled machine.state) :
    (machine.act act).state = machine.state.act act := by
  cases act with
  | createBucket bucketId => rfl
  | fenceBucket bucketId => rfl
  | remove slot reason nowMs =>
    exact (state_removeStreamState ((streamSlot_eq _ _).trans h) reason nowMs).2
  | create input history createdAtMs => exact state_create h.2.1 history createdAtMs
  | renew slot nowMs =>
    have hid : (renewStreamTtl slot.metadata nowMs).streamId = slot.id :=
      renewStreamTtl_streamId _ _
    simp only [act, state_refreshTtlEntry]
    refine @state_putSlot_of_some machine
      { slot with metadata := renewStreamTtl slot.metadata nowMs } slot ?_
    show machine.state.slots.get? (renewStreamTtl slot.metadata nowMs).streamId = some slot
    rw [hid]
    exact h
  | retire slot producerIds =>
    exact @state_putSlot_of_some machine _ slot ((slot.retireProducers_id producerIds).symm ▸ h)
  | append slot input gate messageCount => exact state_commitAppend h.1 h.2.1 messageCount
  | appendExternal slot input gate => exact state_commitExternal h.1 h.2.1
  | publish slot snapshot nowMs => exact state_commitPublish h.1 snapshot nowMs
  | enqueue bucketId paths notBeforeMs => rfl
  | retain slot retainedOffset nowMs => exact state_commitRetention h.1 retainedOffset nowMs
  | flush slot chunk => exact state_commitFlush h.1 chunk
  | compact slot oldChunks gcNotBeforeMs => exact state_compact h.1 h.2.2.1 gcNotBeforeMs
  | drop slot oldChunks =>
    exact @state_putSlot_of_some machine (uncompactedSlot slot oldChunks) slot h.1
  | offload slot refs =>
    exact @state_putSlot_of_some machine
      { slot with cold := (slot.cold.removeExternalSegments refs).1 } slot h
  | ack upToSeq => rfl
  | defer seq notBeforeMs => rfl
  | newHistory event nowMs =>
    simp only [StreamStateMachine.act, GroupState.act, state]
    split_ifs <;> rfl
  | importState index history backupDigest nowMs snapshot restored =>
    exact state_imported machine restored index history backupDigest nowMs snapshot
  | fold =>
    have hfold := machine.usage.withoutIndex_foldFirstEndRecord
    unfold StreamStateMachine.act GroupState.act
    rw [show machine.state.usage = machine.usage.withoutIndex from rfl, hfold]
    cases machine.usage.foldFirstEndRecord with
    | none => rfl
    | some folded => rfl
  | popExpired nowMs => exact state_popExpired machine nowMs

end StreamStateMachine

/-! ## Traces -/

/-- A machine changes by the elementary changes that its replicated state enables. -/
def StreamStateMachine.system [Blake3] : ActionSystem StreamStateMachine Act where
  Enabled machine act := act.Enabled machine.state
  act := StreamStateMachine.act

theorem StreamStateMachine.state_step [Blake3] {machine : StreamStateMachine} {act : Act}
    (h : system.Enabled machine act) : (system.act machine act).state = machine.state.act act :=
  state_act h

/-- The elementary changes, each enabled, from one machine to another. -/
abbrev Trace [Blake3] : StreamStateMachine → List Act → StreamStateMachine → Prop :=
  StreamStateMachine.system.Trace

end Ursula

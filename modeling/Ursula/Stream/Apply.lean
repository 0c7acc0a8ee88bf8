import Ursula.Lib.Transition
import Ursula.Stream.Persist

/-!
# Applying a command

`applyChecked` is the one entry of every command of a group's log, and `applyEntry` a command
without a `Stream-Incarnation` precondition of its own. A precondition that matches marks the
command it wraps as tokened.

## Main definitions

* `StreamStateMachine.applyChecked`, `StreamStateMachine.applyEntry`
* `StreamStateMachine.applyEntries`: a run of log entries, with their answers
* `StreamStateMachine.ReachableBy`: the machines of a group
-/

namespace Ursula

namespace StreamStateMachine

variable [Blake3]

/-- Applies one command of the log entry at `index`. `check` says whether the command's
precondition matched. -/
def applyChecked (machine : StreamStateMachine) (index : ℕ) :
    StreamCommand → IncarnationCheck → StreamStateMachine × StreamResponse
  | .createBucket bucketId, _ => machine.createBucket bucketId
  | .createStream streamId contentType initialPayload closeAfter streamSeq streamTtlSeconds
      streamExpiresAtMs nowMs, _ =>
    match canonicalJsonMessageCount contentType initialPayload with
    | some messageCount =>
      machine.createStream streamId contentType initialPayload messageCount closeAfter streamSeq
        streamTtlSeconds streamExpiresAtMs nowMs
    | none =>
      (machine, .refusal .invalidRecordBoundaries
        "application/json initial payload must use canonical newline boundaries")
  | .createExternal streamId contentType initialPayload messageCount closeAfter streamSeq
      streamTtlSeconds streamExpiresAtMs nowMs, _ =>
    machine.createExternalStream streamId contentType initialPayload messageCount closeAfter
      streamSeq streamTtlSeconds streamExpiresAtMs nowMs
  | .append streamId contentType payload closeAfter streamSeq producer nowMs, check =>
    machine.appendBorrowed
      { streamId, contentType, payload, closeAfter, streamSeq, producer, nowMs, check
        kind := .append }
  | .appendExternal streamId contentType payload messageCount closeAfter streamSeq producer nowMs,
      check =>
    machine.appendExternal
      { streamId, contentType, payload, messageCount, closeAfter, streamSeq, producer, nowMs,
        check }
  | .publishSnapshot streamId snapshotOffset contentType payload nowMs expectedIncarnation, _ =>
    machine.publishSnapshot streamId snapshotOffset contentType (.inline payload) nowMs
      expectedIncarnation
  | .publishSnapshotExternal streamId snapshotOffset contentType object digest nowMs
      expectedIncarnation, _ =>
    machine.publishSnapshot streamId snapshotOffset contentType (.object object digest) nowMs
      expectedIncarnation
  | .advanceRetention streamId retainedOffset nowMs expectedIncarnation, _ =>
    machine.advanceRetention streamId retainedOffset nowMs expectedIncarnation
  | .touchStreamAccess streamId nowMs renewTtl, _ =>
    machine.touchStreamAccess streamId nowMs renewTtl
  | .flushCold streamId chunk coldGeneration, _ => machine.flushCold streamId chunk coldGeneration
  | .compactCold streamId oldChunks replacement gcNotBeforeMs, _ =>
    machine.compactCold streamId oldChunks replacement gcNotBeforeMs
  | .close streamId streamSeq producer nowMs, check =>
    machine.close streamId streamSeq producer nowMs check
  | .deleteStream streamId nowMs, _ => machine.deleteStream streamId nowMs
  | .purgeBucket bucketId nowMs, _ => machine.purgeBucket bucketId nowMs
  | .ackColdGc upToSeq, _ => machine.ackColdGc upToSeq
  | .deferColdGc seq notBeforeMs, _ => machine.deferColdGc seq notBeforeMs
  | .importSnapshot snapshot history backupDigest nowMs, _ =>
    machine.importSnapshot index snapshot history backupDigest nowMs
  | .newHistory history nowMs previous kept leader, _ =>
    machine.newHistory index history previous kept leader nowMs
  | .tidyStream streamId nowMs, _ => machine.tidyStream streamId nowMs
  | .sweep nowMs limit retireThrough, _ => machine.sweep nowMs limit retireThrough
  | .offloadColdRefs streamId refs, _ => machine.offloadColdRefs streamId refs
  | .ifIncarnation incarnation command, _ =>
    match machine.incarnationPrecondition command incarnation with
    | some refusal => (machine, refusal)
    | none => machine.applyChecked index command .matched

/-- Applies the command of the log entry at `index`. -/
def applyEntry (machine : StreamStateMachine) (index : ℕ) (command : StreamCommand) :
    StreamStateMachine × StreamResponse :=
  machine.applyChecked index command .absent

/-- Applies log entries one after another, and returns their answers. -/
def applyEntries : StreamStateMachine → List (ℕ × StreamCommand) →
    StreamStateMachine × List StreamResponse :=
  Responder.run fun machine entry => machine.applyEntry entry.1 entry.2

/-- The machines of a group whose commands and snapshots are among these: a new one, one that
applied an entry with such a command, and one restored from such a snapshot that restores. -/
inductive ReachableBy (Takes : StreamCommand → Prop) (Holds : StreamSnapshot → Prop) :
    StreamStateMachine → Prop
  | new : ReachableBy Takes Holds StreamStateMachine.new
  | entry {machine : StreamStateMachine} (h : ReachableBy Takes Holds machine) (index : ℕ)
      (command : StreamCommand) (htakes : Takes command) :
      ReachableBy Takes Holds (machine.applyEntry index command).1
  | restored {snapshot : StreamSnapshot} {usage : RestoredUsage} {machine : StreamStateMachine}
      (h : restoreWith snapshot usage = .ok machine) (hholds : Holds snapshot) :
      ReachableBy Takes Holds machine

/-- The machines of a group, whatever it applied and was restored from. -/
abbrev Reachable : StreamStateMachine → Prop := ReachableBy (fun _ => True) fun _ => True

end StreamStateMachine

end Ursula

import Ursula.Lib.Checks
import Ursula.Lib.Word64
import Ursula.Wal.Journal

/-!
# The run state of a node

The run-state file at the WAL root records the run that last opened the core journals: the host's
boot and the root's device at the time, how the run ended, the fsync policy it ran and its recovery
epoch. A run reads it first and decides from it, and from what the journals hold, how they open.

## Main definitions

* `RunStatus`, `RunState`: what the file records
* `JournalHistory`, `PreviousRun.interpret`: what the journals hold, and how the run before ended
* `WalOpening.decide`: the decision

## Main results

* `WalOpening.le_epoch`, `WalOpening.lt_epoch`: a run's epoch is at least every epoch before it, and
  above them when the run before may have lost writes
* `WalOpening.decide_eq_ok`: when a run recovers, its epoch, and when it syncs the journals first
-/

namespace Ursula.Wal

open Word64

/-- The id the host's kernel gives its current boot. -/
abbrev BootId := ℕ

/-- How a run ended, as far as it got to record. -/
inductive RunStatus
  | running
  | clean
  | poisoned
deriving DecidableEq

/-- The run-state file's contents. -/
structure RunState where
  /-- The host's boot when the run started, where the platform reports one. -/
  bootId : Option BootId
  status : RunStatus
  /-- The fsync policy of the run. -/
  fsync : WalFsync
  /-- Runs on this root that read the journals as a verified prefix, including this one. -/
  recoveryEpoch : ℕ
  /-- The device the root was mounted from when the run started. -/
  device : ℕ
deriving DecidableEq

/-- Whether the journals hold records, with the greatest verified epoch. -/
inductive JournalHistory
  | empty (verifiedEpoch : ℕ)
  | records (verifiedEpoch : ℕ)
deriving DecidableEq

namespace JournalHistory

/-- The history of journals that hold a record or not. -/
def of (records : Bool) (verifiedEpoch : ℕ) : JournalHistory :=
  if records then .records verifiedEpoch else .empty verifiedEpoch

/-- The greatest verified epoch. -/
def verifiedEpoch : JournalHistory → ℕ
  | .empty verifiedEpoch | .records verifiedEpoch => verifiedEpoch

@[simp] theorem verifiedEpoch_of (records : Bool) (epoch : ℕ) :
    (of records epoch).verifiedEpoch = epoch := by
  cases records <;> rfl

end JournalHistory

/-- How the previous run ended. -/
inductive PreviousRun
  | absent
  | unrecorded
  | clean
  | processCrash
  | remounted (fsync : WalFsync)
  | hostCrash (fsync : WalFsync)
  | poisoned
deriving DecidableEq

namespace PreviousRun

/-- Reads the run state the previous run left, given what the journals hold, the current boot and
the device the root is mounted from now. -/
def interpret (previous : Option RunState) (journals : JournalHistory) (bootId : Option BootId)
    (device : ℕ) : PreviousRun :=
  match previous with
  | none => if journals = .empty 0 then .absent else .unrecorded
  | some previous =>
    match previous.status with
    | .clean => .clean
    | .poisoned => .poisoned
    | .running =>
      if bootId.isSome ∧ previous.bootId = bootId then
        if previous.device = device then .processCrash else .remounted previous.fsync
      else .hostCrash previous.fsync

/-- Whether the run starts a new prefix-verification epoch. -/
def replayMode : PreviousRun → JournalReplayMode
  | .absent | .clean | .processCrash | .hostCrash .always | .remounted .always => .strict
  | .unrecorded | .hostCrash .never | .remounted .never | .poisoned => .verifiedPrefix

/-- Whether the node may have lost entries it acknowledged. -/
def recoveryState : PreviousRun → RecoveryState
  | .absent | .clean | .processCrash | .hostCrash .always | .remounted .always => .normal
  | .unrecorded | .hostCrash .never | .remounted .never | .poisoned => .recovering

theorem replayMode_eq_verifiedPrefix (run : PreviousRun) :
    run.replayMode = .verifiedPrefix ↔ run.recoveryState = .recovering := by
  cases run with
  | hostCrash fsync | remounted fsync => cases fsync <;> simp [replayMode, recoveryState]
  | _ => simp [replayMode, recoveryState]

end PreviousRun

/-- Whether a run syncs the journals before it records itself. -/
inductive JournalSync
  | notNeeded
  | beforeRecording
deriving DecidableEq

/-- Why a run does not start. -/
inductive RaftWalError
  | recoveryEpochExhausted (recoveryEpoch : ℕ)
deriving DecidableEq

/-- How this run opens the journals. -/
structure WalOpening where
  previousRun : PreviousRun
  replayMode : JournalReplayMode
  recovery : RecoveryState
  recoveryEpoch : ℕ
  journalSync : JournalSync
deriving DecidableEq

namespace WalOpening

/-- The greatest epoch recorded before. -/
def priorEpoch (previous : Option RunState) (journals : JournalHistory) : ℕ :=
  max ((previous.map RunState.recoveryEpoch).getD 0) journals.verifiedEpoch

/-- The epoch of a run: the greatest one before, or the next one for a verified prefix. -/
def nextEpoch (replayMode : JournalReplayMode) (prior : ℕ) : Except RaftWalError ℕ :=
  match replayMode with
  | .strict => .ok prior
  | .verifiedPrefix =>
    match checkedAdd prior 1 with
    | some next => .ok next
    | none => .error (.recoveryEpochExhausted prior)

/-- The decision for a run with this policy. -/
def decide (previous : Option RunState) (journals : JournalHistory) (bootId : Option BootId)
    (device : ℕ) (fsync : WalFsync) : Except RaftWalError WalOpening := do
  let previousRun := PreviousRun.interpret previous journals bootId device
  let replayMode := previousRun.replayMode
  let recoveryEpoch ← nextEpoch replayMode (priorEpoch previous journals)
  let journalSync :=
    if previousRun = .processCrash ∧ previous.map RunState.fsync = some .never ∧ fsync = .always
    then JournalSync.beforeRecording
    else .notNeeded
  .ok { previousRun, replayMode, recovery := previousRun.recoveryState, recoveryEpoch, journalSync }

variable {previous : Option RunState} {journals : JournalHistory} {bootId : Option BootId}
  {device : ℕ} {fsync : WalFsync} {opening : WalOpening}

variable (h : decide previous journals bootId device fsync = .ok opening)
include h

theorem decide_eq_ok :
    let previousRun := PreviousRun.interpret previous journals bootId device
    opening.recovery = previousRun.recoveryState ∧
      (previousRun.recoveryState = .normal → opening.recoveryEpoch = priorEpoch previous journals) ∧
      (previousRun.recoveryState = .recovering →
        opening.recoveryEpoch = priorEpoch previous journals + 1) ∧
      (previousRun = .processCrash → previous.map RunState.fsync = some .never → fsync = .always →
        opening.journalSync = .beforeRecording) := by
  obtain ⟨epoch, hepoch, h⟩ := Checks.bind_eq_ok h
  cases h
  unfold nextEpoch at hepoch
  have hmode := (PreviousRun.interpret previous journals bootId device).replayMode_eq_verifiedPrefix
  refine ⟨rfl, fun hnormal => ?_, fun hrecovering => ?_, fun hcrash hnever halways => ?_⟩
  · cases hreplay : (PreviousRun.interpret previous journals bootId device).replayMode with
    | strict =>
      rw [hreplay] at hepoch
      cases hepoch
      rfl
    | verifiedPrefix =>
      rw [hmode.mp hreplay] at hnormal
      cases hnormal
  · rw [hmode.mpr hrecovering] at hepoch
    dsimp only at hepoch
    cases hnext : checkedAdd (priorEpoch previous journals) 1 with
    | none =>
      rw [hnext] at hepoch
      cases hepoch
    | some next =>
      rw [hnext] at hepoch
      cases hepoch
      exact (checkedAdd_eq_some hnext).1
  · simp [hcrash, hnever, halways]

/-- A run's epoch is at least every epoch before it. -/
theorem le_epoch : priorEpoch previous journals ≤ opening.recoveryEpoch := by
  obtain ⟨-, hnormal, hrecovering, -⟩ := decide_eq_ok h
  cases hstate : (PreviousRun.interpret previous journals bootId device).recoveryState with
  | normal => exact (hnormal hstate).ge
  | recovering =>
    rw [hrecovering hstate]
    exact Nat.le_succ _

/-- A run that recovers begins an epoch. -/
theorem lt_epoch (hrecovering : opening.recovery = .recovering) :
    priorEpoch previous journals < opening.recoveryEpoch := by
  obtain ⟨hstate, -, hepoch, -⟩ := decide_eq_ok h
  rw [hepoch (hstate ▸ hrecovering)]
  exact Nat.lt_succ_self _

end WalOpening

end Ursula.Wal

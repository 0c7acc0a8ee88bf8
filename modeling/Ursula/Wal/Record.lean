import Ursula.Control.Reconcile

/-!
# Records of a core journal

A core's journal holds the log records of every raft group on the core, one frame a record. A
group's records append entries, truncate the log after an entry, purge it through one, and save the
committed marker; an archived append names entries of an immutable archive instead of holding them.

## Main definitions

* `Entry`, `RaftGroupLogRecord`, `CoreJournalRecord`: entries, and what a frame holds
* `LogFormat`: what the journal's code asks of the commands it stores
* `requiresSync`, `initializes`: which records are synced before they are acknowledged, and which
  show that the group was initialized
-/

namespace Ursula.Wal

open Control (NodeId MembershipConfig)

/-- A raft group on a core. -/
abbrev GroupId := ℕ

/-- The id of a log entry. -/
abbrev LogId := Control.RaftLogId

/-- The sequence of one segment of a core journal. -/
abbrev SegmentId := ℕ

/-- The generation of one group's log on this replica: one more after each retirement. -/
abbrev LogGeneration := ℕ

/-- When an append is synced. -/
inductive WalFsync
  | always
  | never
deriving DecidableEq

/-! ## Entries -/

/-- What an entry holds. -/
inductive EntryPayload (C : Type)
  | blank
  | normal (command : C)
  | membership (config : MembershipConfig)
deriving DecidableEq

/-- One entry of a group's log. -/
structure Entry (C : Type) where
  logId : LogId
  payload : EntryPayload C
deriving DecidableEq

namespace Entry

variable {C : Type}

/-- The index of an entry. -/
def index (entry : Entry C) : ℕ := entry.logId.index

/-- The membership an entry holds. -/
def membership (entry : Entry C) : Option MembershipConfig :=
  match entry.payload with
  | .membership config => some config
  | .blank | .normal _ => none

end Entry

/-! ## Records -/

/-- The name of an archive, from the place its entries were copied from and its content. -/
structure ArchiveId where
  groupId : GroupId
  segment : SegmentId
  offset : ℕ
  firstIndex : ℕ
  lastIndex : ℕ
  contentHash : ℕ
deriving DecidableEq

/-- What a record keeps of an archive: its name, its length and its checksum. -/
structure ArchiveRef where
  id : ArchiveId
  bytes : ℕ
  checksum : ℕ
deriving DecidableEq

/-- A reference to the entries of an archive that are still live. -/
structure FrozenAppend where
  archive : ArchiveRef
  logIds : List LogId
deriving DecidableEq

/-- One durable operation on a group's log. -/
inductive RaftGroupLogRecord (C : Type)
  | saveCommitted (committed : Option LogId)
  | append (entries : List (Entry C))
  | frozenAppend (frozen : FrozenAppend)
  | truncateAfter (last : Option LogId)
  | purge (logId : LogId)
deriving DecidableEq

/-- A record with its group and the generation of the group's log it belongs to. -/
structure CoreJournalRecord (C : Type) where
  groupId : GroupId
  generation : LogGeneration
  record : RaftGroupLogRecord C
deriving DecidableEq

/-- What the journal's code asks of the commands it stores: the variable part of a command's weight,
the length a record encodes to, and the checksum and content hash of an archive that names a segment
and holds a record. -/
class LogFormat (C : Type) where
  variableBytes : C → ℕ
  encodedLen : CoreJournalRecord C → ℕ
  checksum : SegmentId → CoreJournalRecord C → ℕ
  contentHash : SegmentId → CoreJournalRecord C → ℕ

/-- The weight every command has. -/
def commandLogOverheadBytes : ℕ := 128

/-- The bytes an entry counts for. -/
def entryLogBytes {C : Type} [LogFormat C] (entry : Entry C) : ℕ :=
  match entry.payload with
  | .normal command => commandLogOverheadBytes + LogFormat.variableBytes command
  | .blank | .membership _ => commandLogOverheadBytes

/-! ## What a record asks for -/

/-- Whether a record must be on disk before it is acknowledged. An append of a membership entry
always is. -/
def requiresSync {C : Type} (fsync : WalFsync) : RaftGroupLogRecord C → Bool
  | .append entries => fsync = .always ∨ entries.any fun entry => entry.membership.isSome
  | .frozenAppend _ => true
  | .purge _ => fsync = .always
  | .saveCommitted _ | .truncateAfter _ => false

/-- Whether a record persists an entry or a purge, so the group was initialized here. -/
def initializes {C : Type} : RaftGroupLogRecord C → Bool
  | .append entries => !entries.isEmpty
  | .frozenAppend frozen => !frozen.logIds.isEmpty
  | .purge _ => true
  | .saveCommitted _ | .truncateAfter _ => false

end Ursula.Wal

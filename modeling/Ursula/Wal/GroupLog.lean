import Ursula.Lib.OrdMap
import Ursula.Wal.Record

/-!
# One group's log in its core journal

A group's log keeps the purge and committed markers with the segments that hold their latest
records, an index of where each live entry's frame is, the live bytes of each segment, a cache of
the newest entries and the membership entries. The writer applies a record once it is written;
replay applies the records of the journal in order, with gaps allowed until it finishes.

## Main definitions

* `FramePos`, `IndexedEntry`, `EntryIndex`, `EntryCache`: where entries are
* `GroupLog`: the log, with `apply`, `applyArchived` and `finishReplay`
-/

namespace Ursula.Wal

variable {C : Type}

/-! ## Positions -/

/-- Where a frame is in its segment: the offset it starts at, and its payload's length. -/
structure FrameLoc where
  offset : ℕ
  len : ℕ
deriving DecidableEq

/-- The bytes of a frame's header. -/
def frameHeaderLen : ℕ := 12

/-- The bytes a frame takes in its file. -/
def FrameLoc.fileBytes (loc : FrameLoc) : ℕ := frameHeaderLen + loc.len

/-- Where a frame is in a core journal. -/
structure FramePos where
  segment : SegmentId
  loc : FrameLoc
deriving DecidableEq

/-- One live entry: its log id and where its frame is. -/
structure IndexedEntry where
  logId : LogId
  frame : FramePos
  /-- The weight in reads and in the cache. -/
  bytes : ℕ
  /-- The space it takes in the journal. -/
  storageBytes : ℕ
deriving DecidableEq

/-- The index of an entry. -/
def IndexedEntry.index (entry : IndexedEntry) : ℕ := entry.logId.index

/-- Why a log refuses a record, or does not replay. -/
inductive LogError
  | hole (previous next : ℕ)
  | notConsecutive (current next : ℕ)
  | purgeBackward (lastPurged : Option LogId) (logId : LogId)
  | archivedAppend
  | startsAfterPurge (first purged : ℕ)
deriving DecidableEq

/-- Fails unless the entries have consecutive indexes. -/
def ensureConsecutiveEntries : List (Entry C) → Except LogError Unit
  | current :: next :: rest =>
    if current.index + 1 = next.index then ensureConsecutiveEntries (next :: rest)
    else .error (.notConsecutive current.index next.index)
  | _ => .ok ()

/-! ## The index -/

/-- Where each live entry of a group is, by log index: with gaps while replay reads the segments,
and as a consecutive run from `first` on. -/
inductive EntryIndex
  | replaying (entries : OrdMap ℕ IndexedEntry)
  | consecutive (first : ℕ) (entries : List IndexedEntry)

namespace EntryIndex

/-- The entries in order. -/
def toList : EntryIndex → List IndexedEntry
  | .replaying entries => entries.values
  | .consecutive _ entries => entries

/-- Whether the index holds nothing. -/
def isEmpty (index : EntryIndex) : Bool := index.toList.isEmpty

/-- The index of the first entry. -/
def firstIndex : EntryIndex → Option ℕ
  | .replaying entries => entries.keys.head?
  | .consecutive first entries => if entries.isEmpty then none else some first

/-- The last entry. -/
def last (index : EntryIndex) : Option IndexedEntry := index.toList.getLast?

/-- Adds an entry, and returns the one it replaces. A consecutive index accepts only an entry that
extends, overlaps or directly precedes it. -/
def insert (entry : IndexedEntry) : EntryIndex → Except LogError (EntryIndex × Option IndexedEntry)
  | .replaying entries =>
    .ok (.replaying (entries.insert entry.index entry), entries.get? entry.index)
  | .consecutive first entries =>
    if entries.isEmpty then .ok (.consecutive entry.index [entry], none)
    else
      let next := first + entries.length
      if entry.index = next then .ok (.consecutive first (entries ++ [entry]), none)
      else if first ≤ entry.index ∧ entry.index < next then
        .ok (.consecutive first (entries.set (entry.index - first) entry),
          entries[entry.index - first]?)
      else if entry.index + 1 = first then .ok (.consecutive entry.index (entry :: entries), none)
      else .error (.hole (next - 1) entry.index)

/-- Removes every entry after `last`, or all of them, and returns what it removed. -/
def removeAfter (last : Option ℕ) : EntryIndex → EntryIndex × List IndexedEntry
  | .replaying entries =>
    match last with
    | some last =>
      (.replaying (entries.filter fun i _ => i ≤ last),
        (entries.filter fun i _ => last < i).values)
    | none => (.replaying ∅, entries.values)
  | .consecutive first entries =>
    let keep :=
      match last with
      | some last => if last < first then 0 else min (last - first + 1) entries.length
      | none => 0
    (.consecutive first (entries.take keep), entries.drop keep)

/-- Removes every entry up to and including a log index, and returns what it removed. -/
def removeThrough (through : ℕ) : EntryIndex → EntryIndex × List IndexedEntry
  | .replaying entries =>
    (.replaying (entries.filter fun i _ => through < i),
      (entries.filter fun i _ => i ≤ through).values)
  | .consecutive first entries =>
    if entries.isEmpty ∨ through < first then (.consecutive first entries, [])
    else
      let count := min (through - first + 1) entries.length
      (.consecutive (through + 1) (entries.drop count), entries.take count)

/-- The first gap of log indexes. -/
def gap? : List ℕ → Option (ℕ × ℕ)
  | previous :: next :: rest =>
    if previous + 1 = next then gap? (next :: rest) else some (previous, next)
  | _ => none

/-- Turns a replayed index into a consecutive one, or fails on a gap. -/
def makeConsecutive : EntryIndex → Except LogError EntryIndex
  | .consecutive first entries => .ok (.consecutive first entries)
  | .replaying entries =>
    match gap? entries.keys with
    | some (previous, next) => .error (.hole previous next)
    | none => .ok (.consecutive (entries.keys.head?.getD 0) entries.values)

end EntryIndex

/-! ## The cache -/

/-- The newest entries of a group, within a byte budget. -/
structure EntryCache (C : Type) where
  entries : List (Entry C × ℕ)
  bytes : ℕ
  budget : ℕ

namespace EntryCache

/-- A cache that holds nothing. -/
def new (budget : ℕ) : EntryCache C where
  entries := []
  bytes := 0
  budget := budget

variable (cache : EntryCache C)

/-- The log index of the newest cached entry. -/
def lastIndex : Option ℕ := cache.entries.getLast?.map fun e => e.1.index

/-- The cached entries and their bytes, without the oldest ones that are over the budget. -/
def evict (budget : ℕ) : List (Entry C × ℕ) → ℕ → List (Entry C × ℕ) × ℕ
  | [], bytes => ([], bytes)
  | e :: rest, bytes =>
    if budget < bytes then evict budget rest (bytes - e.2) else (e :: rest, bytes)

/-- Caches the log's newest entry. -/
def pushNewest (entry : Entry C) (bytes : ℕ) : EntryCache C :=
  let follows := cache.lastIndex.all fun last => last + 1 = entry.index
  let kept := if follows then cache.entries else []
  let keptBytes := if follows then cache.bytes else 0
  let evicted := evict cache.budget (kept ++ [(entry, bytes)]) (keptBytes + bytes)
  { cache with entries := evicted.1, bytes := evicted.2 }

/-- Drops the cached entries after `last`, or all of them. -/
def truncateAfter (last : Option ℕ) : EntryCache C :=
  let dropped := cache.entries.reverse.takeWhile fun e => ¬ last.any fun last => e.1.index ≤ last
  { cache with
    entries := cache.entries.take (cache.entries.length - dropped.length)
    bytes := cache.bytes - (dropped.map Prod.snd).sum }

/-- Drops the cached entries up to and including a log index. -/
def purgeThrough (through : ℕ) : EntryCache C :=
  let dropped := cache.entries.takeWhile fun e => e.1.index ≤ through
  { cache with
    entries := cache.entries.drop dropped.length
    bytes := cache.bytes - (dropped.map Prod.snd).sum }

end EntryCache

/-! ## The log -/

/-- A membership entry with its log id. -/
structure StoredMembership where
  logId : Option LogId
  config : Control.MembershipConfig
deriving DecidableEq

/-- A raft group's log in its core journal. -/
structure GroupLog (C : Type) where
  /-- Whether the group's apply stopped, so a rewrite archives its entries. -/
  applyStopped : Bool
  lastPurged : Option LogId
  committed : Option LogId
  /-- The segment of the latest committed record. -/
  committedAt : Option SegmentId
  /-- The segment of the latest purge record. -/
  purgedAt : Option SegmentId
  index : EntryIndex
  /-- Live entry bytes of each segment. -/
  live : OrdMap SegmentId ℕ
  /-- Segments in which an entry stopped being live. -/
  died : Finset SegmentId
  cache : EntryCache C
  memberships : OrdMap ℕ StoredMembership

/-- How a record reaches the log. -/
inductive ApplyMode
  | live
  | replay
deriving DecidableEq

namespace GroupLog

/-- A log that holds nothing. -/
def new (cacheBudget : ℕ) : GroupLog C where
  applyStopped := false
  lastPurged := none
  committed := none
  committedAt := none
  purgedAt := none
  index := .consecutive 0 []
  live := ∅
  died := ∅
  cache := .new cacheBudget
  memberships := ∅

/-- The log a replay starts from. -/
def replaying (cacheBudget : ℕ) : GroupLog C :=
  { new cacheBudget with index := .replaying ∅ }

variable (log : GroupLog C)

/-- The index of the last entry. -/
def lastIndex : Option ℕ := log.index.last.map IndexedEntry.index

/-- Whether the log holds anything: entries or a purge. -/
def holdsLog : Bool := !log.index.isEmpty || log.lastPurged.isSome

/-- Fails when an append would leave a hole after the last entry. -/
def checkHole (first : ℕ) : Except LogError Unit :=
  match log.lastIndex with
  | some last => if last + 1 < first then .error (.hole last first) else .ok ()
  | none => .ok ()

/-- Fails when a purge would move back. -/
def checkPurge (logId : LogId) : Except LogError Unit :=
  if log.lastPurged.any fun purged => logId < purged then
    .error (.purgeBackward log.lastPurged logId)
  else .ok ()

/-- Counts live bytes in a segment. -/
def addLive (segment : SegmentId) (bytes : ℕ) : GroupLog C :=
  { log with live := log.live.insert segment ((log.live.get? segment).getD 0 + bytes) }

/-- Takes an entry out of the live bytes of its segment. -/
def unlive (entry : IndexedEntry) : GroupLog C :=
  let bytes := (log.live.get? entry.frame.segment).getD 0 - entry.storageBytes
  { log with
    died := insert entry.frame.segment log.died
    live :=
      if log.live.contains entry.frame.segment then
        if bytes = 0 then log.live.erase entry.frame.segment
        else log.live.insert entry.frame.segment bytes
      else log.live }

/-- Indexes the membership an entry holds. -/
def indexMembership (entry : Entry C) : GroupLog C :=
  { log with
    memberships :=
      match entry.membership with
      | some config => log.memberships.insert entry.index ⟨some entry.logId, config⟩
      | none => log.memberships.erase entry.index }

/-- Indexes an entry in place of the one at its index. -/
def indexEntry (entry : Entry C) (indexed : IndexedEntry) : Except LogError (GroupLog C) := do
  let (index, replaced) ← log.index.insert indexed
  let log := { log with index }
  let log := match replaced with
    | some replaced => log.unlive replaced
    | none => log
  .ok (log.indexMembership entry)

/-- Indexes the entries of an append and caches the ones that end the log. -/
def appendEntries [LogFormat C] (pos : FramePos) :
    List (Entry C) → GroupLog C → Except LogError (GroupLog C)
  | [], log => .ok log
  | entry :: rest, log => do
    let bytes := entryLogBytes entry
    let log ← log.indexEntry entry ⟨entry.logId, pos, bytes, bytes⟩
    let log :=
      if log.lastIndex = some entry.index then
        { log with cache := log.cache.pushNewest entry bytes }
      else log
    appendEntries pos rest log

/-- Applies an append. -/
def append [LogFormat C] (entries : List (Entry C)) (pos : FramePos) (mode : ApplyMode) :
    Except LogError (GroupLog C) := do
  (if mode = .replay then ensureConsecutiveEntries entries else .ok ())
  match entries.head? with
  | none => .ok log
  | some first =>
    (if mode = .live then log.checkHole first.index else .ok ())
    let log := { log with
      cache := log.cache.truncateAfter (if first.index = 0 then none else some (first.index - 1)) }
    let log ← appendEntries pos entries log
    .ok (log.addLive pos.segment (entries.map entryLogBytes).sum)

/-- Indexes the entries an archive reference names. -/
def archiveEntries [LogFormat C] (pos : FramePos) (storageBytes : ℕ) :
    List (Entry C) → GroupLog C → Except LogError (GroupLog C)
  | [], log => .ok log
  | entry :: rest, log => do
    let log ← log.indexEntry entry ⟨entry.logId, pos, entryLogBytes entry, storageBytes⟩
    archiveEntries pos storageBytes rest (log.addLive pos.segment storageBytes)

/-- Applies an archive reference, with the live entries it names. -/
def applyArchived [LogFormat C] (selected : List (Entry C)) (pos : FramePos) :
    Except LogError (GroupLog C) :=
  match selected.head? with
  | none => .ok log
  | some first =>
    let storageBytes := (pos.loc.fileBytes + selected.length - 1) / selected.length
    archiveEntries pos storageBytes selected { log with
      cache := log.cache.truncateAfter (if first.index = 0 then none else some (first.index - 1)) }

/-- Removes the entries after `last`, or all of them. -/
def truncateAfter (last : Option ℕ) : GroupLog C :=
  let (index, removed) := log.index.removeAfter last
  let log := removed.foldl unlive { log with index }
  { log with
    cache := log.cache.truncateAfter last
    memberships :=
      match last with
      | some last => log.memberships.filter fun i _ => i ≤ last
      | none => ∅ }

/-- Removes the entries up to and including a log index. -/
def purgeThrough (through : ℕ) : GroupLog C :=
  let (index, removed) := log.index.removeThrough through
  let log := removed.foldl unlive { log with index }
  { log with
    cache := log.cache.purgeThrough through
    memberships := log.memberships.filter fun i _ => through < i }

/-- Applies a record at its position. -/
def apply [LogFormat C] (record : RaftGroupLogRecord C) (pos : FramePos) (mode : ApplyMode) :
    Except LogError (GroupLog C) :=
  match record with
  | .saveCommitted committed => .ok { log with committed, committedAt := some pos.segment }
  | .append entries => log.append entries pos mode
  | .frozenAppend _ => .error .archivedAppend
  | .truncateAfter last => .ok (log.truncateAfter (last.map fun logId => logId.index))
  | .purge logId => do
    log.checkPurge logId
    .ok (purgeThrough { log with lastPurged := some logId, purgedAt := some pos.segment }
      logId.index)

/-- Fails unless the log replay rebuilt is consecutive and starts right after its purge. -/
def finishReplay : Except LogError (GroupLog C) := do
  let index ← log.index.makeConsecutive
  match log.lastPurged, index.firstIndex with
  | some purged, some first =>
    if purged.index + 1 = first then .ok { log with index }
    else .error (.startsAfterPurge first purged.index)
  | _, _ => .ok { log with index }

end GroupLog

end Ursula.Wal

import Ursula.Stream.Registry

/-!
# The usage ledger

A group's ledger beside its slots: the latest usage seq it assigned, each bucket's retired usage,
the end records of versions that are no longer live, and the index of live versions by seq. A fold
moves the end record of the lowest seq into its bucket's retired usage.

The ledger carries what every operation keeps: an end record is held at its own seq, which is at
most the latest one and, until the seqs run out, above the fold watermark; and at most
`maxEndRecords` are held. The latest seq saturates: a group that gave every seq gives the last one
again.

## Main definitions

* `CommittedUsage.ofWrite`, `CommittedUsage.add`: the counters of a write, and their sum
* `UsageLedger`: the ledger
* `UsageLedger.stamp`, `UsageLedger.restamp`, `UsageLedger.foldFirstEndRecord`,
  `UsageLedger.insertEnd`: its operations
* `UsageLedger.ofGroup`: the ledger of a group snapshot
-/

namespace Ursula

open Word64

/-! ## Counters -/

namespace CommittedUsage

/-- No usage. -/
def zero : CommittedUsage := ⟨0, 0, 0⟩

/-- One counted write of `bytes` payload bytes and `records` records. -/
def ofWrite (bytes records : ℕ) : CommittedUsage where
  committedAppendBytes := bytes
  committedRecords := records
  committedWriteUnits := max (divCeil bytes committedWriteUnitBytes) 1

/-- The committed counters of a bucket's usage. -/
def ofBucket (usage : BucketUsage) : CommittedUsage where
  committedAppendBytes := usage.committedAppendBytes
  committedRecords := usage.committedRecords
  committedWriteUnits := usage.committedWriteUnits

/-- The sum, saturating. -/
def add (self other : CommittedUsage) : CommittedUsage where
  committedAppendBytes := satAdd self.committedAppendBytes other.committedAppendBytes
  committedRecords := satAdd self.committedRecords other.committedRecords
  committedWriteUnits := satAdd self.committedWriteUnits other.committedWriteUnits

/-- Adds the counters to a bucket's usage, saturating; its gauges stay. -/
def addTo (self : CommittedUsage) (usage : BucketUsage) : BucketUsage :=
  { usage with
    committedAppendBytes := satAdd usage.committedAppendBytes self.committedAppendBytes
    committedRecords := satAdd usage.committedRecords self.committedRecords
    committedWriteUnits := satAdd usage.committedWriteUnits self.committedWriteUnits }

/-- The first counter in which two usages differ. -/
def firstDifference (self other : CommittedUsage) : Option UsageCounter :=
  if self.committedAppendBytes ≠ other.committedAppendBytes then some .appendBytes
  else if self.committedRecords ≠ other.committedRecords then some .records
  else if self.committedWriteUnits ≠ other.committedWriteUnits then some .writeUnits
  else none

end CommittedUsage

/-- A bucket's usage without streams or writes. -/
def BucketUsage.zero : BucketUsage := ⟨0, 0, 0, 0, 0⟩

/-- The counters of a version without writes. -/
def VersionCounters.zero : VersionCounters := ⟨CommittedUsage.zero, 0⟩

/-! ## The ledger -/

/-- The most end records a group holds. -/
def maxEndRecords : ℕ := 65536

/-- A group's usage ledger. -/
structure UsageLedger where
  genesis : ℕ
  retired : OrdMap String CommittedUsage
  usageSeq : ℕ
  retiredThrough : ℕ
  ends : OrdMap ℕ EndRecord
  liveBySeq : OrdMap ℕ StreamKey
  /-- The watermark is a seq the group assigned. -/
  retiredThrough_le : retiredThrough ≤ usageSeq
  /-- An end record is held at its own seq, which the group assigned. -/
  ends_seq : ∀ seq record, ends.get? seq = some record →
    record.seq = seq ∧ 0 < seq ∧ seq ≤ usageSeq
  /-- Until the seqs run out, an end record is above the watermark. -/
  ends_above : usageSeq < maxValue → ∀ seq record, ends.get? seq = some record →
    retiredThrough < seq
  /-- The end records are bounded. -/
  ends_size : ends.size ≤ maxEndRecords

namespace UsageLedger

/-- The ledger of a backup's state: every bucket total retired. -/
def retiring (totals : OrdMap String CommittedUsage) : UsageLedger where
  genesis := 0
  retired := totals
  usageSeq := 0
  retiredThrough := 0
  ends := ∅
  liveBySeq := ∅
  retiredThrough_le := le_refl _
  ends_seq := by simp
  ends_above := by simp
  ends_size := Nat.zero_le _

/-- The ledger of a new group. -/
def empty : UsageLedger := retiring ∅

variable (ledger : UsageLedger)

/-- The next seq: a saturating increment. -/
def nextSeq : ℕ := if ledger.usageSeq < maxValue then ledger.usageSeq + 1 else ledger.usageSeq

theorem usageSeq_le_nextSeq : ledger.usageSeq ≤ ledger.nextSeq := by
  unfold nextSeq
  split_ifs <;> omega

theorem nextSeq_eq {ledger : UsageLedger} (h : ledger.usageSeq < maxValue) :
    ledger.nextSeq = ledger.usageSeq + 1 := if_pos h

theorem nextSeq_le : ledger.nextSeq ≤ ledger.usageSeq + 1 := by
  unfold nextSeq
  split_ifs <;> omega

theorem nextSeq_pos : 0 < ledger.nextSeq := by
  have hmax : 0 < maxValue := by decide
  unfold nextSeq
  split_ifs <;> omega

/-- The ledger after the next seq is given: it is the new `usageSeq`. -/
def stamp : UsageLedger :=
  { ledger with
    usageSeq := ledger.nextSeq
    retiredThrough_le := ledger.retiredThrough_le.trans ledger.usageSeq_le_nextSeq
    ends_seq := fun seq record h =>
      let ⟨hseq, hpos, hle⟩ := ledger.ends_seq seq record h
      ⟨hseq, hpos, hle.trans ledger.usageSeq_le_nextSeq⟩
    ends_above := fun hmore => ledger.ends_above (ledger.usageSeq_le_nextSeq.trans_lt hmore) }

/-- Inserts a bucket's retired row at zero if it has none. -/
def insertBucket (bucketId : String) : UsageLedger :=
  if ledger.retired.contains bucketId then ledger
  else { ledger with retired := ledger.retired.insert bucketId CommittedUsage.zero }

theorem nextSeq_insertBucket (bucketId : String) :
    (ledger.insertBucket bucketId).nextSeq = ledger.nextSeq := by
  unfold insertBucket
  split_ifs <;> rfl

/-- Adds a live version to the index. -/
def indexLive (seq : ℕ) (key : StreamKey) : UsageLedger :=
  { ledger with liveBySeq := ledger.liveBySeq.insert seq key }

/-- Drops the live version at `seq` from the index. -/
def unindexLive (seq : ℕ) : UsageLedger :=
  { ledger with liveBySeq := ledger.liveBySeq.erase seq }

/-- Gives a live version the next seq, and moves it there in the index. -/
def restamp (version : VersionUsage) (key : StreamKey) :
    UsageLedger × VersionUsage :=
  let stamped := (ledger.unindexLive version.seq).stamp
  (stamped.indexLive stamped.usageSeq key, { version with seq := stamped.usageSeq })

/-- The usage of a version a backup restored, stamped with the next seq. -/
def restoredVersion (bucketId : String) (countedSince : HistoryId) :
    UsageLedger × VersionUsage :=
  let stamped := (ledger.insertBucket bucketId).stamp
  (stamped,
    { seq := stamped.usageSeq
      counters := VersionCounters.zero
      historyBaseline := VersionCounters.zero
      lastWrite := .imported
      countedSince := countedSince })

/-- Records the genesis history event's id. -/
def recordGenesis (history : HistoryId) : UsageLedger :=
  { ledger with genesis := history }

/-- Keeps the genesis of the ledger an import replaces. -/
def keepGenesis (ledger earlier : UsageLedger) : UsageLedger :=
  { ledger with genesis := earlier.genesis }

theorem size_erase_le (ends : OrdMap ℕ EndRecord) (seq : ℕ) : (ends.erase seq).size ≤ ends.size :=
  List.length_filter_le _ _

/-- Folds the lowest-seq end record into its bucket's retired usage and raises the watermark to its
seq. -/
def foldFirstEndRecord : Option (EndRecord × UsageLedger) :=
  match h : ledger.ends.popFirst with
  | none => none
  | some ((seq, record), rest) =>
    let bucketId := record.streamId.bucketId
    some (record,
      { ledger with
        ends := rest
        retired := ledger.retired.insert bucketId
          (((ledger.retired.get? bucketId).getD CommittedUsage.zero).add record.counters.committed)
        retiredThrough := seq
        retiredThrough_le := (ledger.ends_seq seq record (OrdMap.popFirst_get? h)).2.2
        ends_seq := fun seq' record' h' => by
          have hlt := OrdMap.popFirst_lt h h'
          rw [OrdMap.popFirst_rest h, OrdMap.get?_erase, if_neg (ne_of_gt hlt)] at h'
          exact ledger.ends_seq seq' record' h'
        ends_above := fun _ seq' record' h' => OrdMap.popFirst_lt h h'
        ends_size := by
          rw [OrdMap.popFirst_rest h]
          exact (size_erase_le _ _).trans ledger.ends_size })

theorem size_foldFirstEndRecord {ledger ledger' : UsageLedger} {record : EndRecord}
    (h : ledger.foldFirstEndRecord = some (record, ledger')) :
    ledger.ends.size = ledger'.ends.size + 1 := by
  unfold foldFirstEndRecord at h
  split at h
  · exact absurd h (by simp)
  · next seq record' rest hpop =>
    obtain ⟨rfl, rfl⟩ := Prod.mk.inj (Option.some.inj h)
    simp [OrdMap.size, OrdMap.popFirst_eq_some hpop]

/-- A full ledger folds its lowest-seq end record. -/
def foldIfFull : UsageLedger × Option EndRecord :=
  if ledger.ends.size ≥ maxEndRecords then
    match ledger.foldFirstEndRecord with
    | none => (ledger, none)
    | some (record, folded) => (folded, some record)
  else
    (ledger, none)

theorem foldIfFull_room : ledger.foldIfFull.1.ends.size < maxEndRecords := by
  unfold foldIfFull
  split_ifs with hfull
  · cases hfold : ledger.foldFirstEndRecord with
    | none =>
      -- a ledger without a first end record holds none
      have hnil : ledger.ends.entries = [] := by
        unfold foldFirstEndRecord at hfold
        split at hfold
        · next hpop => exact OrdMap.popFirst_eq_none hpop
        · exact absurd hfold (by simp)
      simp [OrdMap.size, hnil, maxEndRecords] at hfull
    | some pair =>
      have := size_foldFirstEndRecord hfold
      have := ledger.ends_size
      show pair.2.ends.size < maxEndRecords
      omega
  · exact not_le.mp hfull

/-- Holds an end record under the next seq, in a ledger that has room for it. -/
def insertEnd (record : EndRecord) (hroom : ledger.ends.size < maxEndRecords)
    (hseq : record.seq = ledger.nextSeq) : UsageLedger :=
  { ledger.stamp with
    ends := ledger.ends.insert record.seq record
    ends_seq := fun seq record' h => by
      rw [OrdMap.get?_insert] at h
      split_ifs at h with heq
      · cases h
        exact ⟨heq.symm, heq ▸ hseq ▸ ledger.nextSeq_pos, (heq.trans hseq).le⟩
      · exact ledger.stamp.ends_seq seq record' h
    ends_above := fun hmore seq record' h => by
      rw [OrdMap.get?_insert] at h
      split_ifs at h with heq
      · have hmore : ledger.usageSeq < maxValue := ledger.usageSeq_le_nextSeq.trans_lt hmore
        rw [heq, hseq, nextSeq_eq hmore]
        exact Nat.lt_succ_of_le ledger.retiredThrough_le
      · exact ledger.stamp.ends_above hmore seq record' h
    ends_size := by
      cases h : ledger.ends.get? record.seq with
      | none =>
        rw [OrdMap.size_insert_of_none h]
        exact hroom
      | some held =>
        -- a group that gave every seq ends its next version at the last one again
        rw [OrdMap.size_insert_of_some h]
        exact hroom.le }

/-- Holds the end record of a version under the next seq, in a full ledger after a fold. -/
def recordEnd (record : ℕ → EndRecord) (hseq : ∀ seq, (record seq).seq = seq) :
    UsageLedger × Option EndRecord :=
  let folded := ledger.foldIfFull
  (folded.1.insertEnd (record folded.1.nextSeq) ledger.foldIfFull_room (hseq _), folded.2)

/-! ### Group snapshots -/

/-- The retired rows of a group snapshot, refusing a second row of one bucket. -/
def retiredRows : OrdMap String CommittedUsage → List BucketRetired →
    Except UsageSnapshotError (OrdMap String CommittedUsage) :=
  OrdMap.insertNew BucketRetired.bucketId BucketRetired.retired fun row =>
    .duplicateRetired row.bucketId

/-- The first end record of a group snapshot that is not above the watermark, not ascending or above
the seq. -/
def checkEnds (retiredThrough usageSeq : ℕ) :
    (previous : ℕ) → List EndRecord → Option UsageSnapshotError
  | _, [] => none
  | previous, record :: rest =>
    if record.seq ≤ retiredThrough then
      some (.retiredEndRecord record.seq retiredThrough)
    else if record.seq ≤ previous ∨ record.seq > usageSeq then
      some (.invalidSeq record.seq usageSeq)
    else
      checkEnds retiredThrough usageSeq record.seq rest

theorem checkEnds_eq_none {retiredThrough usageSeq previous : ℕ} {ends : List EndRecord}
    (h : checkEnds retiredThrough usageSeq previous ends = none) :
    (∀ record ∈ ends, retiredThrough < record.seq ∧ previous < record.seq ∧
        record.seq ≤ usageSeq) ∧
      ends.Pairwise fun a b => a.seq < b.seq := by
  induction ends generalizing previous with
  | nil => simp
  | cons record rest ih =>
    unfold checkEnds at h
    split_ifs at h with h₁ h₂
    obtain ⟨hall, hsorted⟩ := ih h
    refine ⟨fun r hr => ?_, List.pairwise_cons.mpr ⟨fun r hr => (hall r hr).2.1, hsorted⟩⟩
    rcases List.mem_cons.mp hr with rfl | hr
    · omega
    · have := hall r hr
      omega

/-- The end records of a group snapshot, by seq. -/
def endsBySeq (ends : List EndRecord) (h : ends.Pairwise fun a b => a.seq < b.seq) :
    OrdMap ℕ EndRecord :=
  ⟨ends.map fun record => (record.seq, record), List.pairwise_map.mpr h⟩

theorem get?_endsBySeq {ends : List EndRecord} {h : ends.Pairwise fun a b => a.seq < b.seq}
    {seq : ℕ} {record : EndRecord} :
    (endsBySeq ends h).get? seq = some record ↔ record ∈ ends ∧ record.seq = seq := by
  rw [← OrdMap.mem_entries]
  simp only [endsBySeq, List.mem_map, Prod.mk.injEq]
  constructor
  · rintro ⟨r, hr, rfl, rfl⟩
    exact ⟨hr, rfl⟩
  · rintro ⟨hr, rfl⟩
    exact ⟨record, hr, rfl, rfl⟩

/-- The ledger of a group snapshot's usage, but its live versions. -/
def ofGroup (genesis usageSeq retiredThrough : ℕ) (retired : List BucketRetired)
    (ends : List EndRecord) : Except UsageSnapshotError UsageLedger :=
  if hahead : retiredThrough > usageSeq then
    .error (.retiredThroughAhead retiredThrough usageSeq)
  else
    match retiredRows ∅ retired with
    | .error error => .error error
    | .ok rows =>
      if hcount : ends.length > maxEndRecords then
        .error (.tooManyEndRecords ends.length maxEndRecords)
      else
        match hcheck : checkEnds retiredThrough usageSeq retiredThrough ends with
        | some error => .error error
        | none =>
          let ledger : UsageLedger :=
            { genesis := genesis
              retired := rows
              usageSeq := usageSeq
              retiredThrough := retiredThrough
              ends := endsBySeq ends (checkEnds_eq_none hcheck).2
              liveBySeq := ∅
              retiredThrough_le := not_lt.mp hahead
              ends_seq := fun seq record h => by
                obtain ⟨hmem, hseq⟩ := get?_endsBySeq.mp h
                have := (checkEnds_eq_none hcheck).1 record hmem
                omega
              ends_above := fun _ seq record h => by
                obtain ⟨hmem, rfl⟩ := get?_endsBySeq.mp h
                exact ((checkEnds_eq_none hcheck).1 record hmem).1
              ends_size := by
                simpa [OrdMap.size, endsBySeq] using hcount }
          .ok (ends.foldl (fun ledger record => ledger.insertBucket record.streamId.bucketId)
            ledger)

end UsageLedger

end Ursula

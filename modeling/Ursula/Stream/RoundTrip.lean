import Ursula.Stream.Restore

/-!
# A group's own snapshot

What a restore makes of the snapshot of a machine: its streams, buckets, history and reclamation
queue are the machine's own. The reference counts are counted again, the creation counter is raised
to its streams', and the ledger gains a row for a bucket that has none.

## Main definitions

* `StreamSlot.item`: a slot in its group's snapshot
* `GroupState.sharedUses`: the references to a shared object

## Main results

* `StreamSlot.slot_snapshotEntry`: a snapshot holds the whole of a slot
* `restoreGroup_own`: the restore of a machine's own snapshot
-/

namespace Ursula

open Word64 StreamStateMachine OrdMap List StreamSlot

/-! ## Slots -/

theorem restoreProducerStates_producerSnapshot (streamId : BucketStreamId)
    (producers : OrdMap String ProducerState) :
    restoreProducerStates streamId ∅ (producerSnapshot producers) = .ok producers := by
  refine insertNew_entries ?_
  rw [producerSnapshot, map_map]
  exact (map_id _).symm

namespace StreamSlot

@[simp] theorem producers_snapshotEntry (slot : StreamSlot) :
    slot.snapshotEntry.producers = slot.producers := by
  unfold StreamSnapshotEntry.producers
  rw [show slot.snapshotEntry.producerStates = producerSnapshot slot.producers from rfl,
    restoreProducerStates_producerSnapshot]

/-- A snapshot holds the whole of a slot but its usage. -/
theorem slot_snapshotEntry (slot : StreamSlot) (usage : VersionUsage) :
    slot.snapshotEntry.slot slot.snapshotEntry.producers usage = { slot with usage := usage } := by
  unfold StreamSnapshotEntry.slot
  rw [producers_snapshotEntry]
  simp only [snapshotEntry, HotBuffer.fromSnapshot_hotSegments, StreamColdState.restore]

/-- A slot in its group's snapshot, with its usage. -/
def item (slot : StreamSlot) : StreamSnapshotEntry × Option VersionUsage :=
  (slot.snapshotEntry, some slot.usage)

end StreamSlot

variable (machine : StreamStateMachine)

/-- The streams of a machine's own snapshot, in the order of a restore. -/
theorem restoredItems_own :
    restoredItems machine.snapshot.streams (some machine.usageSnapshot.streams) =
      machine.state.slots.values.map item := by
  have hzip : machine.snapshot.streams.zip (machine.usageSnapshot.streams.map some) =
      machine.registry.slotsById.map item := by
    simp only [snapshot, usageSnapshot, map_map]
    rw [zip_map']
    rfl
  unfold restoredItems
  dsimp only
  rw [hzip, show machine.state.slots.values = machine.registry.slotsById from
    StreamRegistry.values_slotsByName _]
  refine List.Pairwise.insertionSort_eq ?_
  rw [pairwise_map]
  exact machine.registry.slotsById_sorted.imp fun h => le_of_lt h

/-! ## Reference counts -/

/-- The references to a shared object in a group's streams. -/
def GroupState.sharedUses (state : GroupState) (path : String) : ℕ :=
  state.slots.total fun _ slot => slot.cold.sharedObjectPaths.count path

/-- Restored streams count their references, given names of their own. -/
theorem GroupState.counts_foldl_addStream {importedSince : Option HistoryId} {state : GroupState}
    {items : List (StreamSnapshotEntry × Option VersionUsage)}
    (hcounts : RefCount.Counts state.refs state.sharedUses)
    (hnodup : (items.map fun item => item.1.metadata.streamId).Nodup)
    (hfree : ∀ item ∈ items, state.slots.get? item.1.metadata.streamId = none) :
    RefCount.Counts (items.foldl (addStream importedSince) state).refs
      (items.foldl (addStream importedSince) state).sharedUses := by
  induction items generalizing state with
  | nil => exact hcounts
  | cons item rest ih =>
    rw [map_cons, nodup_cons] at hnodup
    refine ih ?_ hnodup.2 fun other hother => ?_
    · refine (hcounts.retain_all item.1.sharedObjectPaths).congr fun path => ?_
      unfold sharedUses addStream
      rw [total_insert_of_none (hfree item (by simp)), Nat.add_comm]
      rfl
    · simp only [addStream, get?_insert]
      rw [if_neg, hfree other (by simp [hother])]
      intro heq
      exact hnodup.1 (mem_map.mpr ⟨other, hother, heq⟩)

/-- A restore counts the references of its streams. -/
theorem Restored.counts {snapshot : StreamSnapshot} {usage : RestoredUsage}
    {totals : OrdMap String CommittedUsage} {ledger : UsageLedger}
    {versions : Option (List VersionUsage)} {restored : StreamStateMachine}
    (h : Restored snapshot usage totals ledger versions restored) :
    RefCount.Counts restored.state.refs restored.state.sharedUses := by
  have hcounts := @GroupState.counts_foldl_addStream (RestoredUsage.importedSince usage)
    (restoredBase snapshot restored.buckets restored.erasedBuckets ledger.withoutIndex) _
    RefCount.Counts.empty h.nodup fun item _ => get?_empty _
  rw [h.state]
  exact hcounts

/-! ## Ledgers -/

namespace UsageLedger

/-- Gives each bucket of a list its retired row. -/
def insertBuckets (ledger : UsageLedger) (bucketIds : List String) : UsageLedger :=
  bucketIds.foldl insertBucket ledger

variable (ledger : UsageLedger)

theorem withoutIndex_insertBuckets (bucketIds : List String) :
    (ledger.insertBuckets bucketIds).withoutIndex =
      ledger.withoutIndex.insertBuckets bucketIds := by
  unfold insertBuckets
  induction bucketIds generalizing ledger with
  | nil => rfl
  | cons bucketId rest ih =>
    rw [foldl_cons, foldl_cons, ih, withoutIndex_insertBucket]

/-- The retired rows of a ledger's own snapshot. -/
theorem retiredRows_own :
    retiredRows ∅ (ledger.retired.entries.map fun row => { bucketId := row.1, retired := row.2 }) =
      .ok ledger.retired := by
  refine insertNew_entries ?_
  rw [map_map]
  exact (map_id _).symm

theorem mem_ends_values {ledger : UsageLedger} {record : EndRecord} :
    record ∈ ledger.ends.values ↔ ledger.ends.get? record.seq = some record := by
  rw [mem_values]
  constructor
  · rintro ⟨seq, hseq⟩
    rwa [(ledger.ends_seq seq record hseq).1]
  · intro h
    exact ⟨record.seq, h⟩

/-- The ledger of a group's own snapshot, when it restores, is its ledger; its live versions are
indexed with its streams. -/
theorem ofGroup_own {restored : UsageLedger}
    (h : ofGroup ledger.genesis ledger.usageSeq ledger.retiredThrough
        (ledger.retired.entries.map fun row => { bucketId := row.1, retired := row.2 })
        ledger.ends.values = .ok restored) :
    restored = ledger.withoutIndex.insertBuckets
      (ledger.ends.values.map fun record => record.streamId.bucketId) := by
  unfold ofGroup at h
  rw [retiredRows_own] at h
  dsimp only at h
  split_ifs at h
  split at h
  · cases h
  · cases h
    rw [insertBuckets, foldl_map]
    congr 2
    refine ext_get? fun seq => Option.ext fun record => ?_
    rw [get?_endsBySeq, mem_ends_values]
    constructor
    · rintro ⟨hrecord, rfl⟩
      exact hrecord
    · intro h
      have hseq := (ledger.ends_seq _ _ h).1
      exact ⟨hseq ▸ h, hseq⟩

end UsageLedger

/-! ## The whole snapshot -/

theorem restoreBuckets_own (buckets : OrdSet String) :
    restoreBuckets ∅ buckets.keys = .ok buckets := by
  refine insertNew_entries ?_
  rw [OrdMap.keys, map_map]
  exact (map_id _).symm

theorem get?_of_mem_values {machine : StreamStateMachine} {slot : StreamSlot}
    (h : slot ∈ machine.state.slots.values) : machine.state.slots.get? slot.id = some slot := by
  obtain ⟨id, hid⟩ := (mem_values ..).mp h
  rw [← streamSlot_eq] at hid ⊢
  exact (StreamRegistry.slot_id hid).symm ▸ hid

/-- The slots of a restore of a machine's own snapshot are its slots. -/
theorem slots_restoredItems_own {base : GroupState}
    (hbase : base.slots = ∅) (importedSince : Option HistoryId) :
    ((machine.state.slots.values.map item).foldl (GroupState.addStream importedSince)
      base).slots = machine.state.slots := by
  have hown : ∀ id slot, ((machine.state.slots.values.map item).foldl
      (GroupState.addStream importedSince) base).slots.get? id = some slot →
      machine.state.slots.get? id = some slot := by
    intro id slot h
    obtain hbefore | ⟨item, hitem, hid, usage, hslot, husage⟩ := GroupState.get?_foldl_addStream h
    · rw [hbase, get?_empty] at hbefore
      cases hbefore
    obtain ⟨own, hmem, rfl⟩ := mem_map.mp hitem
    obtain rfl : usage = own.usage := husage
    rw [hslot, ← hid]
    simp only [item, slot_snapshotEntry]
    exact get?_of_mem_values hmem
  refine ext_get? fun id => Option.ext fun slot => ⟨hown id slot, fun h => ?_⟩
  have hid : slot.id = id := by
    rw [← streamSlot_eq] at h
    exact StreamRegistry.slot_id h
  have hmem : slot ∈ machine.state.slots.values := (mem_values ..).mpr ⟨id, h⟩
  have hne := @GroupState.get?_foldl_addStream_ne_none importedSince
    (machine.state.slots.values.map item) base id
    (.inl ⟨slot.item, mem_map_of_mem hmem, hid⟩)
  obtain ⟨found, hfound⟩ := Option.ne_none_iff_exists'.mp hne
  rw [hfound, ← hown id found hfound, h]

theorem usage_restoredItems_own (slots : List StreamSlot) (base : GroupState)
    (importedSince : Option HistoryId) :
    ((slots.map item).foldl (GroupState.addStream importedSince) base).usage =
      base.usage.insertBuckets (slots.map fun slot => slot.id.bucketId) := by
  induction slots generalizing base with
  | nil => rfl
  | cons slot rest ih =>
    rw [map_cons, foldl_cons, ih]
    rfl

/-- What a restore makes of a machine's own snapshot. -/
structure RestoredOwn (machine restored : StreamStateMachine) : Prop where
  buckets : restored.state.buckets = machine.state.buckets
  erasedBuckets : restored.state.erasedBuckets = machine.state.erasedBuckets
  slots : restored.state.slots = machine.state.slots
  coldGc : restored.state.coldGc = machine.state.coldGc
  refs : RefCount.Counts restored.state.refs restored.state.sharedUses
  usage :
    restored.state.usage =
      (machine.state.usage.insertBuckets
        (machine.state.usage.ends.values.map fun record => record.streamId.bucketId)).insertBuckets
          (machine.state.slots.values.map fun slot => slot.id.bucketId)
  lastCreatedAtMs :
    restored.state.lastCreatedAtMs =
      (machine.state.slots.values.map fun slot => slot.metadata.createdAtMs).foldl max
        machine.state.lastCreatedAtMs
  history : restored.state.history = machine.state.history

/-- **Round trips.** The restore of a machine's own snapshot is the machine, its references counted
again. -/
theorem restoreGroup_own {machine restored : StreamStateMachine}
    (h : restoreGroup machine.snapshot machine.usageSnapshot = .ok restored) :
    RestoredOwn machine restored := by
  obtain ⟨totals, ledger, versions, hrestored⟩ := restoreWith_eq_ok h
  have hbuckets : restored.buckets = machine.buckets :=
    Except.ok.inj (hrestored.buckets.symm.trans (restoreBuckets_own machine.buckets))
  have herased : restored.erasedBuckets = machine.erasedBuckets := by
    refine ext_get? fun bucketId => ?_
    rw [(get?_restoreErasedBuckets hrestored.erasedBuckets).1]
    split_ifs with hmem
    · obtain ⟨⟨⟩, hheld⟩ := (OrdMap.mem_keys ..).mp hmem
      exact hheld.symm
    · rw [get?_empty, eq_comm, Option.eq_none_iff_forall_ne_some]
      exact fun held hheld => hmem ((OrdMap.mem_keys ..).mpr ⟨held, hheld⟩)
  have hledger : ledger = machine.usage.withoutIndex.insertBuckets
      (machine.usage.ends.values.map fun record => record.streamId.bucketId) ∧
      versions = some machine.usageSnapshot.streams := by
    have hparts := hrestored.ledger_eq
    unfold restoredLedger at hparts
    dsimp only at hparts
    split_ifs at hparts
    split at hparts
    · cases hparts
    · next hown =>
      cases hparts
      exact ⟨UsageLedger.ofGroup_own machine.usage hown, rfl⟩
  obtain ⟨rfl, rfl⟩ := hledger
  have hslots : restored.state.slots = machine.state.slots := by
    rw [hrestored.state]
    simp only [restoredStreams, restoredItems_own]
    exact slots_restoredItems_own machine rfl _
  refine ⟨hbuckets, herased, hslots, ?_, hrestored.counts, ?_, ?_, ?_⟩
  · rw [hrestored.state]
    rfl
  · rw [hrestored.state]
    simp only [restoredStreams, restoredItems_own, usage_restoredItems_own]
    rw [UsageLedger.withoutIndex_insertBuckets]
    rfl
  · rw [hrestored.state, hslots]
    rfl
  · rw [hrestored.state]
    simp only [restoredStreams]
    rw [GroupState.foldl_addStream_eq]
    rfl

/-- The streams of a machine's snapshot as a backup's: without usages. -/
theorem restoredItems_backup :
    restoredItems machine.snapshot.streams none =
      machine.state.slots.values.map fun slot => (slot.snapshotEntry, none) := by
  have hstreams : (machine.snapshot.streams.map fun entry =>
    (entry, (none : Option VersionUsage))) =
      machine.registry.slotsById.map fun slot => (slot.snapshotEntry, none) := by
    simp only [snapshot, map_map]
    rfl
  unfold restoredItems
  rw [hstreams, show machine.state.slots.values = machine.registry.slotsById from
    StreamRegistry.values_slotsByName _]
  refine List.Pairwise.insertionSort_eq ?_
  rw [pairwise_map]
  exact machine.registry.slotsById_sorted.imp fun h => le_of_lt h

/-- The slots of an import of a machine's snapshot are its slots, their usages counted anew. -/
theorem slots_restoreCountedSince {machine restored : StreamStateMachine} {history : HistoryId}
    (h : restoreCountedSince machine.snapshot history = .ok restored) {id : BucketStreamId}
    {slot : StreamSlot} (hslot : restored.state.slots.get? id = some slot) :
    ∃ own seq, machine.state.slots.get? id = some own ∧
      slot = { own with usage := restoredVersionUsage history seq } := by
  obtain ⟨totals, ledger, versions, hrestored⟩ := restoreWith_eq_ok h
  obtain rfl : versions = none := (congrArg Prod.snd (Except.ok.inj hrestored.ledger_eq)).symm
  rw [hrestored.state] at hslot
  simp only [restoredStreams, restoredItems_backup] at hslot
  obtain hbefore | ⟨item, hitem, hid, usage, heq, husage⟩ := GroupState.get?_foldl_addStream hslot
  · exact absurd hbefore (by simp [restoredBase])
  obtain ⟨own, hmem, rfl⟩ := mem_map.mp hitem
  obtain ⟨seq, rfl⟩ := husage
  refine ⟨own, seq, ?_, ?_⟩
  · rw [← hid]
    exact get?_of_mem_values hmem
  · rw [heq, slot_snapshotEntry]
    rfl

end Ursula

import Ursula.Lib.RefCount
import Ursula.Stream.Inversion

/-!
# What a restore builds

A restore adds the streams of a snapshot to an empty group one after another. `GroupState.addStream`
is what one of them adds to the replicated state, and a restore that succeeds is a fold of it.

## Main definitions

* `GroupState.addStream`: the replicated state after one more stream
* `EntryOk`: the checks of one stream of a snapshot

## Main results

* `restoreWith_eq_ok`: a restore that succeeds, step by step
-/

namespace Ursula

open Word64 StreamStateMachine Checks List

/-- The producers a restore reads from an entry. -/
def StreamSnapshotEntry.producers (entry : StreamSnapshotEntry) : OrdMap String ProducerState :=
  match restoreProducerStates entry.metadata.streamId ∅ entry.producerStates with
  | .ok producers => producers
  | .error _ => ∅

/-- The paths of the shared objects a snapshot's stream refers to, one for each reference. -/
def StreamSnapshotEntry.sharedObjectPaths (entry : StreamSnapshotEntry) : List String :=
  (entry.coldChunks.filter fun chunk => chunk.sharedObject).map ColdChunkRef.s3Path

namespace GroupState

/-- The history a restored version counts in. A snapshot with a stream has a history. -/
def countedSince (state : GroupState) (importedSince : Option HistoryId) : HistoryId :=
  importedSince.getD ((state.history.map HistoryEvent.id).getD ⟨1, Nat.one_pos⟩)

/-- The ledger after one more restored stream, and the stream's usage. -/
def addUsage (state : GroupState) (importedSince : Option HistoryId)
    (item : StreamSnapshotEntry × Option VersionUsage) : UsageLedger × VersionUsage :=
  match item.2 with
  | some usage => (state.usage.insertBucket item.1.metadata.streamId.bucketId, usage)
  | none =>
    state.usage.restoredVersion item.1.metadata.streamId.bucketId
      (state.countedSince importedSince)

/-- The replicated state after one more restored stream. -/
def addStream (importedSince : Option HistoryId) (state : GroupState)
    (item : StreamSnapshotEntry × Option VersionUsage) : GroupState :=
  { state with
    slots := state.slots.insert item.1.metadata.streamId
      (item.1.slot item.1.producers (state.addUsage importedSince item).2)
    usage := (state.addUsage importedSince item).1
    refs := item.1.sharedObjectPaths.foldl RefCount.retain state.refs }

end GroupState

/-- The checks of one stream of a snapshot, in a group with the given buckets. -/
structure EntryOk (buckets : OrdSet String) (entry : StreamSnapshotEntry) : Prop where
  bucket : buckets.contains entry.metadata.streamId.bucketId = true
  snapshot : ∀ snapshot, entry.visibleSnapshot = some snapshot →
    snapshot.offset ≤ entry.metadata.tailOffset
  retained : entry.retainedOffset ≤ entry.metadata.tailOffset
  segments : hotSegmentsMatchPayload entry.payload.length 0 entry.hotSegments = true
  sources : payloadSourcesCoverRetainedSuffix entry = true
  producers : restoreProducerStates entry.metadata.streamId ∅ entry.producerStates =
    .ok entry.producers

section Streams

variable {machine machine' : StreamStateMachine} {importedSince : Option HistoryId}

theorem checkEntry_eq_ok_iff {entry : StreamSnapshotEntry} {history : HistoryId} :
    machine.checkEntry entry = .ok history ↔
      machine.history.map HistoryEvent.id = some history ∧
      machine.buckets.contains entry.metadata.streamId.bucketId = true ∧
      (∀ snapshot, entry.visibleSnapshot = some snapshot →
        snapshot.offset ≤ entry.metadata.tailOffset) ∧
      entry.retainedOffset ≤ entry.metadata.tailOffset ∧
      hotSegmentsMatchPayload entry.payload.length 0 entry.hotSegments = true ∧
      payloadSourcesCoverRetainedSuffix entry = true ∧
      machine.state.slots.get? entry.metadata.streamId = none := by
  have hkey : machine.registry.containsKey entry.metadata.streamId = true ↔
      machine.state.slots.get? entry.metadata.streamId ≠ none := by
    rw [StreamRegistry.containsKey_iff, ← streamSlot_eq]
    exact Option.ne_none_iff_exists'.symm
  have hsnapshot : (entry.visibleSnapshot.filter fun snapshot =>
        snapshot.offset > entry.metadata.tailOffset) = none ↔
      ∀ snapshot, entry.visibleSnapshot = some snapshot →
        snapshot.offset ≤ entry.metadata.tailOffset := by
    simp [Option.filter_eq_none_iff]
  unfold checkEntry
  cases hhistory : machine.history with
  | none => simp
  | some event =>
    dsimp only
    by_cases hbucket : machine.buckets.contains entry.metadata.streamId.bucketId = true
    swap
    · simp [hbucket]
    rw [if_neg (not_not.mpr hbucket)]
    cases hfilter : entry.visibleSnapshot.filter fun snapshot =>
        snapshot.offset > entry.metadata.tailOffset with
    | some snapshot =>
      have hnot := mt hsnapshot.mpr (by rw [hfilter]; simp)
      simp only [reduceCtorEq, false_iff]
      exact fun h => hnot h.2.2.1
    | none =>
      split_ifs with hretained hsources hheld
      · simp [not_le.mpr hretained]
      · simp only [false_iff]
        rintro ⟨-, -, -, -, hsegments, hcover, -⟩
        simp [hsegments, hcover] at hsources
      · simp only [false_iff]
        rintro ⟨-, -, -, -, -, -, hnone⟩
        exact hkey.mp hheld hnone
      · push Not at hretained hsources
        simp only [Except.ok.injEq, Option.map_some, Option.some.injEq]
        refine ⟨fun h => ⟨h, hbucket, hsnapshot.mp hfilter, hretained, hsources.1, hsources.2, ?_⟩,
          fun h => h.1⟩
        by_contra hsome
        exact hheld (hkey.mpr hsome)

theorem state_foldl_retain (paths : List String) (machine : StreamStateMachine) :
    (paths.foldl retainSharedColdObject machine).state =
      { machine.state with refs := paths.foldl RefCount.retain machine.state.refs } := by
  induction paths generalizing machine with
  | nil => rfl
  | cons path rest ih =>
    rw [foldl_cons, ih, state_retainSharedColdObject]
    rfl

variable {item : StreamSnapshotEntry × Option VersionUsage}

theorem state_restoredUsage {history : HistoryId}
    (hhistory : machine.history.map HistoryEvent.id = some history) :
    (machine.restoredUsage item.1.metadata.streamId.bucketId (importedSince.getD history)
        item.2).1.withoutIndex = (machine.state.addUsage importedSince item).1 ∧
      (machine.restoredUsage item.1.metadata.streamId.bucketId (importedSince.getD history)
        item.2).2 = (machine.state.addUsage importedSince item).2 := by
  have hinsert := machine.usage.withoutIndex_insertBucket item.1.metadata.streamId.bucketId
  have hsince : machine.state.countedSince importedSince = importedSince.getD history := by
    unfold GroupState.countedSince
    rw [show machine.state.history = machine.history from rfl, hhistory]
    rfl
  unfold restoredUsage GroupState.addUsage
  cases item.2 with
  | some usage => exact ⟨hinsert, rfl⟩
  | none =>
    rw [hsince]
    refine ⟨congrArg UsageLedger.stamp hinsert, ?_⟩
    simp only [UsageLedger.restoredVersion, UsageLedger.stamp, state,
      UsageLedger.nextSeq_insertBucket]
    rfl

/-- A stream that a restore adds passed its checks, and the state holds it. -/
theorem restoreStream_eq_ok (h : restoreStream importedSince machine item = .ok machine') :
    machine.history.isSome = true ∧ EntryOk machine.buckets item.1 ∧
      machine.state.slots.get? item.1.metadata.streamId = none ∧
      machine'.state = machine.state.addStream importedSince item := by
  obtain ⟨history, hentry, h⟩ := bind_eq_ok h
  obtain ⟨producers, hproducers, h⟩ := bind_eq_ok h
  obtain ⟨hhistory, hbucket, hsnapshot, hretained, hsegments, hsources, hnone⟩ :=
    checkEntry_eq_ok_iff.mp hentry
  have hsome : machine.history.isSome = true := by
    rw [← Option.isSome_map, hhistory]
    rfl
  have hstates : item.1.producers = producers := by
    unfold StreamSnapshotEntry.producers
    rw [hproducers]
  refine ⟨hsome, ⟨hbucket, hsnapshot, hretained, hsegments, hsources, hstates ▸ hproducers⟩,
    hnone, ?_⟩
  obtain ⟨husage, hversion⟩ := @state_restoredUsage machine importedSince item history hhistory
  dsimp only at h
  split at h
  · cases h
  · next inserted _ hins =>
    cases h
    have hstate := (state_insertStreamSlot hins).2
    rw [state_foldl_retain, hstate]
    unfold GroupState.addStream
    rw [hstates, ← hversion, ← husage]
    rfl

/-- The streams of a restore that succeeds passed their checks, have names of their own, and are
what the state holds more. -/
theorem foldlM_restoreStream_eq_ok {items : List (StreamSnapshotEntry × Option VersionUsage)}
    (h : items.foldlM (restoreStream importedSince) machine = .ok machine') :
    (∀ item ∈ items, EntryOk machine.buckets item.1) ∧
      (items.map fun item => item.1.metadata.streamId).Nodup ∧
      (∀ item ∈ items, machine.state.slots.get? item.1.metadata.streamId = none) ∧
      (items ≠ [] → machine.history.isSome = true) ∧
      machine'.state = items.foldl (GroupState.addStream importedSince) machine.state := by
  induction items generalizing machine with
  | nil =>
    cases h
    simp
  | cons item rest ih =>
    obtain ⟨next, hfirst, hrest⟩ := bind_eq_ok h
    obtain ⟨hhistory, hentry, hnone, hstate⟩ := restoreStream_eq_ok hfirst
    obtain ⟨hentries, hnodup, hfree, -, hfold⟩ := ih hrest
    have hbuckets : next.buckets = machine.buckets := congrArg GroupState.buckets hstate
    have hslots : ∀ id, next.state.slots.get? id = none →
        id ≠ item.1.metadata.streamId ∧ machine.state.slots.get? id = none := by
      intro id hid
      rw [hstate] at hid
      simp only [GroupState.addStream, OrdMap.get?_insert] at hid
      split_ifs at hid with heq
      exact ⟨heq, hid⟩
    rw [hbuckets] at hentries
    refine ⟨?_, ?_, ?_, fun _ => hhistory, ?_⟩
    · rintro other (_ | ⟨_, hother⟩)
      · exact hentry
      · exact hentries other hother
    · rw [map_cons, nodup_cons]
      refine ⟨?_, hnodup⟩
      rintro hmem
      obtain ⟨other, hother, heq⟩ := mem_map.mp hmem
      exact (hslots _ (hfree other hother)).1 heq
    · rintro other (_ | ⟨_, hother⟩)
      · exact hnone
      · exact (hslots _ (hfree other hother)).2
    · rw [hfold, foldl_cons, hstate]

end Streams

/-! ## The restored state -/

/-- The usage of a version counted from zero. -/
def restoredVersionUsage (countedSince : HistoryId) (seq : ℕ) : VersionUsage where
  seq := seq
  counters := VersionCounters.zero
  historyBaseline := VersionCounters.zero
  lastWrite := .imported
  countedSince := countedSince

namespace GroupState

variable {importedSince : Option HistoryId}

theorem addUsage_of_none (state : GroupState) (h : item.2 = none) :
    (state.addUsage importedSince item).2 =
      restoredVersionUsage (state.countedSince importedSince) state.usage.nextSeq := by
  unfold addUsage UsageLedger.restoredVersion restoredVersionUsage UsageLedger.stamp
  simp only [h, UsageLedger.nextSeq_insertBucket]

/-- Restored streams change the slots, the references and the ledger. -/
theorem foldl_addStream_eq (state : GroupState)
    (items : List (StreamSnapshotEntry × Option VersionUsage)) :
    items.foldl (addStream importedSince) state =
      { state with
        slots := (items.foldl (addStream importedSince) state).slots
        refs := (items.foldl (addStream importedSince) state).refs
        usage := (items.foldl (addStream importedSince) state).usage } := by
  induction items generalizing state with
  | nil => rfl
  | cons item rest ih =>
    rw [foldl_cons, ih]
    rfl

variable {items : List (StreamSnapshotEntry × Option VersionUsage)}

/-- A slot after a restore was there before, or is that of a stream of the snapshot. -/
theorem get?_foldl_addStream {state : GroupState} {id : BucketStreamId} {slot : StreamSlot}
    (h : (items.foldl (addStream importedSince) state).slots.get? id = some slot) :
    state.slots.get? id = some slot ∨
      ∃ item ∈ items, item.1.metadata.streamId = id ∧ ∃ usage,
        slot = item.1.slot item.1.producers usage ∧
        match item.2 with
        | some version => usage = version
        | none => ∃ seq, usage = restoredVersionUsage (state.countedSince importedSince) seq := by
  induction items generalizing state with
  | nil => exact .inl h
  | cons item rest ih =>
    obtain hbefore | ⟨other, hother, hid, usage, hslot, husage⟩ := ih h
    · simp only [addStream, OrdMap.get?_insert] at hbefore
      split_ifs at hbefore with hid
      · refine .inr ⟨item, by simp, hid.symm, _, (Option.some.inj hbefore).symm, ?_⟩
        cases hversion : item.2 with
        | some version =>
          unfold addUsage
          rw [hversion]
        | none => exact ⟨_, addUsage_of_none state hversion⟩
      · exact .inl hbefore
    · exact .inr ⟨other, by simp [hother], hid, usage, hslot, husage⟩

/-- Every stream of the snapshot has a slot after a restore. -/
theorem get?_foldl_addStream_ne_none {state : GroupState} {id : BucketStreamId}
    (h : (∃ item ∈ items, item.1.metadata.streamId = id) ∨ state.slots.get? id ≠ none) :
    (items.foldl (addStream importedSince) state).slots.get? id ≠ none := by
  induction items generalizing state with
  | nil =>
    obtain ⟨item, hitem, -⟩ | h := h
    · cases hitem
    · exact h
  | cons item rest ih =>
    refine ih ?_
    by_cases hid : id = item.1.metadata.streamId
    · exact .inr (by simp [addStream, hid])
    obtain ⟨other, hother, heq⟩ | h := h
    · obtain rfl | hother := mem_cons.mp hother
      · exact absurd heq.symm hid
      · exact .inl ⟨other, hother, heq⟩
    · exact .inr (by simpa [addStream, OrdMap.get?_insert, hid] using h)

end GroupState

/-! ## A restore, step by step -/

section Sets

theorem get?_restoreErasedBuckets {buckets erased restored : OrdSet String}
    {bucketIds : List String} (h : restoreErasedBuckets buckets erased bucketIds = .ok restored) :
    (∀ bucketId, restored.get? bucketId =
      if bucketId ∈ bucketIds then some () else erased.get? bucketId) ∧
    ∀ bucketId ∈ bucketIds, buckets.contains bucketId = false := by
  induction bucketIds generalizing erased with
  | nil =>
    cases h
    simp
  | cons first rest ih =>
    unfold restoreErasedBuckets at h
    split_ifs at h with hactive herased
    obtain ⟨hget, hfree⟩ := ih h
    refine ⟨fun bucketId => ?_, ?_⟩
    · rw [hget, OrdMap.get?_insert]
      by_cases hmem : bucketId ∈ rest <;> by_cases hid : bucketId = first <;> simp [hmem, hid]
    · rintro bucketId (_ | ⟨_, hmem⟩)
      · simpa using hactive
      · exact hfree bucketId hmem

end Sets

/-- The state a restore adds the streams to. -/
def restoredBase (snapshot : StreamSnapshot) (buckets erasedBuckets : OrdSet String)
    (ledger : UsageLedger) : GroupState where
  buckets := buckets
  erasedBuckets := erasedBuckets
  slots := ∅
  coldGc := ColdGcQueue.empty
  refs := ∅
  usage := ledger
  lastCreatedAtMs := snapshot.lastCreatedAtMs
  history := snapshot.history

/-- The group state once every stream of a snapshot is added. -/
def restoredStreams (snapshot : StreamSnapshot) (usage : RestoredUsage)
    (buckets erasedBuckets : OrdSet String) (ledger : UsageLedger)
    (versions : Option (List VersionUsage)) : GroupState :=
  (restoredItems snapshot.streams versions).foldl
    (GroupState.addStream (RestoredUsage.importedSince usage))
    (restoredBase snapshot buckets erasedBuckets ledger)

/-- A restore that succeeded: its parts, and the state they make. -/
structure Restored (snapshot : StreamSnapshot) (usage : RestoredUsage)
    (totals : OrdMap String CommittedUsage) (ledger : UsageLedger)
    (versions : Option (List VersionUsage)) (restored : StreamStateMachine) : Prop where
  format : snapshot.formatVersion = backupFormatVersion
  totals_eq : committedByBucket ∅ snapshot.bucketUsage = .ok totals
  ledger_eq : restoredLedger snapshot totals usage = .ok (ledger, versions)
  buckets : restoreBuckets ∅ snapshot.buckets = .ok restored.buckets
  erasedBuckets : restoreErasedBuckets restored.buckets ∅ snapshot.erasedBuckets =
    .ok restored.erasedBuckets
  entries : ∀ item ∈ restoredItems snapshot.streams versions, EntryOk restored.buckets item.1
  nodup : ((restoredItems snapshot.streams versions).map fun item =>
    item.1.metadata.streamId).Nodup
  history : restoredItems snapshot.streams versions ≠ [] → snapshot.history.isSome = true
  pending : checkPendingColdGc snapshot.pendingColdGc = none
  checked : (RestoredUsage.checkedTotals totals usage).bind restored.checkRestoredUsage = none
  state :
    restored.state =
      { restoredStreams snapshot usage restored.buckets restored.erasedBuckets ledger.withoutIndex
          versions with
        coldGc := ⟨snapshot.pendingColdGc, snapshot.nextColdGcSeq⟩
        lastCreatedAtMs :=
          (restored.state.slots.values.map fun slot => slot.metadata.createdAtMs).foldl max
            snapshot.lastCreatedAtMs }

theorem state_normalizeLastCreatedAtMs (machine : StreamStateMachine) :
    machine.normalizeLastCreatedAtMs.state =
      { machine.state with
        lastCreatedAtMs :=
          (machine.state.slots.values.map fun slot => slot.metadata.createdAtMs).foldl max
            machine.lastCreatedAtMs } := by
  refine GroupState.ext rfl rfl rfl rfl rfl rfl ?_ rfl
  show (machine.registry.slots.map fun slot => slot.metadata.createdAtMs).foldl max _ =
    (machine.registry.slotsByName.values.map fun slot => slot.metadata.createdAtMs).foldl max _
  rw [StreamRegistry.values_slotsByName]
  exact ((machine.registry.slotsById_perm.map _).foldl_eq _).symm

/-- **Restores.** A restore that succeeds went through these steps. -/
theorem restoreWith_eq_ok {snapshot : StreamSnapshot} {usage : RestoredUsage}
    {restored : StreamStateMachine} (h : restoreWith snapshot usage = .ok restored) :
    ∃ totals ledger versions, Restored snapshot usage totals ledger versions restored := by
  unfold restoreWith at h
  by_cases hformat : snapshot.formatVersion ≠ backupFormatVersion
  · rw [if_pos hformat] at h
    cases h
  rw [if_neg hformat] at h
  obtain ⟨totals, htotals, h⟩ := bind_eq_ok h
  obtain ⟨⟨ledger, versions⟩, hledger, h⟩ := bind_eq_ok h
  obtain ⟨buckets, hbuckets, h⟩ := bind_eq_ok h
  obtain ⟨erasedBuckets, herased, h⟩ := bind_eq_ok h
  obtain ⟨streams, hstreams, h⟩ := bind_eq_ok h
  obtain ⟨hentries, hnodup, -, hhistory, hstate⟩ := foldlM_restoreStream_eq_ok hstreams
  unfold finishRestore at h
  cases hpending : checkPendingColdGc snapshot.pendingColdGc with
  | some error =>
    rw [hpending] at h
    cases h
  | none =>
    simp only [hpending] at h
    split at h
    · cases h
    · next hchecked =>
      cases h
      have hframe := hstate.trans (GroupState.foldl_addStream_eq ..)
      have hb : streams.buckets = buckets := congrArg GroupState.buckets hframe
      have he : streams.erasedBuckets = erasedBuckets := congrArg GroupState.erasedBuckets hframe
      have hl : streams.lastCreatedAtMs = snapshot.lastCreatedAtMs :=
        congrArg GroupState.lastCreatedAtMs hframe
      have hbase : streams.state = restoredStreams snapshot usage streams.buckets
          streams.erasedBuckets ledger.withoutIndex versions := by
        rw [hstate, hb, he]
        congr 1
      refine ⟨totals, ledger, versions, not_not.mp hformat, htotals, hledger, ?_, ?_, ?_, hnodup,
        hhistory, hpending, hchecked, ?_⟩
      · rw [hbuckets, ← hb]
        rfl
      · rw [← hb, ← he] at herased
        exact herased
      · rw [← hb] at hentries
        exact hentries
      · have hparts : ∀ {α : Type} (part : GroupState → α), part streams.state =
            part (restoredStreams snapshot usage streams.buckets streams.erasedBuckets
              ledger.withoutIndex versions) := fun part => congrArg part hbase
        rw [state_normalizeLastCreatedAtMs, ← hl]
        exact GroupState.ext (hparts GroupState.buckets) (hparts GroupState.erasedBuckets)
          (hparts GroupState.slots) rfl (hparts GroupState.refs) (hparts GroupState.usage) rfl
          (hparts GroupState.history)

/-- A snapshot's streams are those of its entries. -/
theorem fst_mem_restoredItems {streams : List StreamSnapshotEntry}
    {versions : Option (List VersionUsage)}
    (h : item ∈ restoredItems streams versions) : item.1 ∈ streams := by
  have hmem := (mem_insertionSort _).mp h
  cases versions with
  | some versions => exact (of_mem_zip hmem).1
  | none =>
    obtain ⟨entry, hentry, rfl⟩ := mem_map.mp hmem
    exact hentry

/-- A live slot of a restored machine is that of an entry that passed the restore's checks. -/
theorem restoreWith_slot {snapshot : StreamSnapshot} {usage : RestoredUsage}
    {restored : StreamStateMachine} (h : restoreWith snapshot usage = .ok restored)
    {id : BucketStreamId} {slot : StreamSlot} (hslot : restored.state.slots.get? id = some slot) :
    ∃ entry ∈ snapshot.streams, EntryOk restored.buckets entry ∧
      ∃ version, slot = entry.slot entry.producers version := by
  obtain ⟨totals, ledger, versions, hrestored⟩ := restoreWith_eq_ok h
  rw [hrestored.state] at hslot
  obtain hbefore | ⟨item, hitem, -, version, rfl, -⟩ := GroupState.get?_foldl_addStream hslot
  · cases hbefore
  · exact ⟨item.1, fst_mem_restoredItems hitem, hrestored.entries item hitem, version, rfl⟩

end Ursula

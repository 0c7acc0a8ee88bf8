import Ursula.Stream.Apply
import Ursula.Stream.Inversion

/-!
# Every command is explained

The commands beyond creates and writes, and the dispatch: a command without preconditions changes
its group as its outcome says, and a log entry is refused by a precondition or is the command that
the precondition wraps.

## Main results

* `applyChecked_explained`: a command without preconditions is explained by an `Outcome`
* `applyEntry_cases`: a log entry is refused by its precondition, or is the command it wraps
* `applyEntry_explained`: a log entry is explained as the command it wraps
-/

namespace Ursula

open Word64 StreamStateMachine Checks List

section Commands

variable [Blake3] {machine : StreamStateMachine} {check : IncarnationCheck}

variable {command : StreamCommand}

/-- A command outside its bucket's scope is refused. -/
theorem Explained.of_scope {streamId : BucketStreamId}
    {result : StreamStateMachine × StreamResponse}
    (h : machine.validateStreamScope streamId = .ok () → Explained machine check command result) :
    Explained machine check command (match machine.validateStreamScope streamId with
      | .error response => (machine, response)
      | .ok () => result) := by
  cases hscope : machine.validateStreamScope streamId with
  | error response => exact .refused (refuses_validateStreamScope _ _ _ hscope)
  | ok _ => exact h hscope

/-- A command that finds its stream expired removes it. -/
theorem expired_explained {slot : StreamSlot} {nowMs : ℕ} {response : StreamResponse}
    (htarget : command.expiryTarget = some (slot.id, nowMs))
    (hslot : machine.streamSlot slot.id = some slot)
    (hexpired : streamIsExpired slot.metadata nowMs = true)
    (h : response.declines = true ∨ response = .accessed true true) :
    Explained machine check command
      ((machine.removeStreamState slot.id .expired nowMs).1, response) :=
  .of_act (.remove slot .expired nowMs) (slots_get?_of_streamSlot hslot).2 rfl
    (.expired htarget hslot hexpired h)

/-! ### Snapshots and retention -/

/-- What the checks of a publish say of its offset and of the stream's snapshot. -/
inductive PublishChecked (machine : StreamStateMachine) (slot : StreamSlot) (offset : ℕ)
    (body : SnapshotBody) (expected : Option ℕ) : PublishCheck → Prop
  | refuse {response : StreamResponse} (h : response.declines = true) :
      PublishChecked machine slot offset body expected (.refuse response)
  | repeat {snapshot : StreamVisibleSnapshot} (h : slot.visibleSnapshot = some snapshot) :
      PublishChecked machine slot offset body expected (.repeat (body.staged.filter fun object =>
        snapshot.object.map ExternalPayloadRef.s3Path ≠ some object.s3Path))
  | publish (htail : offset ≤ slot.metadata.tailOffset) (hretained : slot.retainedOffset ≤ offset)
      (hlatest : ∀ current, slot.visibleSnapshot = some current → current.offset < offset)
      (hboundary : machine.checkJsonBoundary slot offset slot.retainedOffset expected = .ok ()) :
      PublishChecked machine slot offset body expected .publish

theorem checkPublish_checked (machine : StreamStateMachine) (slot : StreamSlot) (offset : ℕ)
    (contentType : String) (body : SnapshotBody) (expected : Option ℕ) :
    PublishChecked machine slot offset body expected
      (machine.checkPublish slot offset contentType body expected) := by
  unfold checkPublish
  by_cases hretained : offset < slot.retainedOffset
  · rw [if_pos hretained]
    exact .refuse rfl
  by_cases htail : offset > slot.metadata.tailOffset
  · rw [if_neg hretained, if_pos htail]
    exact .refuse rfl
  rw [if_neg hretained, if_neg htail]
  split
  · next hsnapshot =>
    split
    · next hcheck => exact .refuse (refuses_checkJsonBoundary _ _ _ _ _ _ hcheck)
    · next hcheck =>
      exact .publish (not_lt.mp htail) (not_lt.mp hretained) (by simp [hsnapshot]) hcheck
  · next current hsnapshot =>
    by_cases hold : offset < current.offset
    · rw [if_pos hold]
      exact .refuse rfl
    by_cases hsame : offset = current.offset
    · rw [if_neg hold, if_pos hsame]
      by_cases hdigest : current.digest = body.digest contentType
      · rw [if_pos hdigest]
        exact .repeat hsnapshot
      · rw [if_neg hdigest]
        exact .refuse rfl
    · rw [if_neg hold, if_neg hsame]
      split
      · next hcheck => exact .refuse (refuses_checkJsonBoundary _ _ _ _ _ _ hcheck)
      · next hcheck =>
        refine .publish (not_lt.mp htail) (not_lt.mp hretained) (fun latest hlatest => ?_) hcheck
        cases hsnapshot.symm.trans hlatest
        exact lt_of_le_of_ne (not_lt.mp hold) fun h => hsame h.symm

theorem publishSnapshot_explained {streamId : BucketStreamId} {offset nowMs : ℕ}
    {contentType : String} {body : SnapshotBody} {expected : Option ℕ}
    (hinput : command.publishInput = some (streamId, offset, contentType, body, nowMs))
    (hexpected : command.expectedIncarnation = expected) :
    Explained machine check command
      (machine.publishSnapshot streamId offset contentType body nowMs expected) := by
  unfold publishSnapshot
  refine .of_scope fun hscope => ?_
  by_cases hblank : isBlank contentType = true
  · rw [if_pos hblank]
    exact .refused rfl
  rw [if_neg hblank]
  cases hslot : machine.streamSlot streamId with
  | none => exact .refused rfl
  | some slot =>
    obtain ⟨rfl, hlive⟩ := slots_get?_of_streamSlot hslot
    dsimp only
    by_cases hexpired : streamIsExpired slot.metadata nowMs = true
    · rw [if_pos hexpired]
      refine expired_explained ?_ hslot hexpired (.inl rfl)
      cases command <;> cases hinput <;> rfl
    rw [if_neg hexpired]
    have hchecked := checkPublish_checked machine slot offset contentType body expected
    generalize machine.checkPublish slot offset contentType body expected = answer at hchecked
    cases hchecked with
    | refuse h => exact .refused h
    | «repeat» hsnapshot =>
      generalize hobject : Option.filter _ body.staged = unreferenced
      cases unreferenced with
      | none => exact ⟨[], .nil _, .snapshotKept hinput hslot hsnapshot (.inl rfl)⟩
      | some object =>
        obtain ⟨hstaged, hpath⟩ := Option.filter_eq_some_iff.mp hobject
        exact .of_act (.enqueue slot.id.bucketId [object.s3Path] _)
          ⟨(inScope_of_ok hscope).bucketId, (inScope_of_ok hscope).bucket⟩ rfl
          (.snapshotKept hinput hslot hsnapshot
            (.inr ⟨object, hstaged, by simpa using hpath, rfl⟩))
    | publish htail hretained hlatest hboundary =>
      exact .of_act (.publish slot _ nowMs)
        ⟨hlive, inScope_of_ok hscope, htail, hretained, hlatest⟩ rfl
        (.snapshotPublished hinput hslot (hexpected ▸ hboundary))

theorem advanceRetention_explained (streamId : BucketStreamId) (offset nowMs : ℕ)
    (expected : Option ℕ) :
    Explained machine check (.advanceRetention streamId offset nowMs expected)
      (machine.advanceRetention streamId offset nowMs expected) := by
  unfold advanceRetention
  refine .of_scope fun hscope => ?_
  cases hslot : machine.streamSlot streamId with
  | none => exact .refused rfl
  | some slot =>
    obtain ⟨rfl, hlive⟩ := slots_get?_of_streamSlot hslot
    dsimp only
    split_ifs with hexpired hkept
    · exact expired_explained rfl hslot hexpired (.inl rfl)
    · exact ⟨[], .nil _, .retentionKept⟩
    cases hcheck : machine.checkRetention slot offset expected with
    | error response => exact .refused (refuses_checkRetention _ _ _ _ _ hcheck)
    | ok _ =>
      unfold checkRetention at hcheck
      cases hsnapshot : slot.visibleSnapshot with
      | none => simp [hsnapshot] at hcheck
      | some snapshot =>
        simp only [hsnapshot] at hcheck
        split_ifs at hcheck with hbeyond
        exact .of_act (.retain slot offset nowMs)
          ⟨hlive, inScope_of_ok hscope, not_le.mp hkept, snapshot, hsnapshot,
            not_lt.mp hbeyond⟩ rfl (.retained hslot hcheck)

theorem touchStreamAccess_explained (streamId : BucketStreamId) (nowMs : ℕ) (renewTtl : Bool) :
    Explained machine check (.touchStreamAccess streamId nowMs renewTtl)
      (machine.touchStreamAccess streamId nowMs renewTtl) := by
  unfold touchStreamAccess
  refine .of_scope fun hscope => ?_
  cases hslot : machine.streamSlot streamId with
  | none => exact .refused rfl
  | some slot =>
    obtain ⟨rfl, hlive⟩ := slots_get?_of_streamSlot hslot
    dsimp only
    split_ifs with hexpired hrenew htouched
    · exact expired_explained rfl hslot hexpired (.inr rfl)
    · exact .of_act (.renew slot nowMs) hlive rfl (.renewed hslot)
    · exact ⟨[], .nil _, .accessed⟩
    · exact ⟨[], .nil _, .accessed⟩

/-! ### Cold chunks -/

variable (streamId : BucketStreamId)

theorem flushCold_explained (chunk : ColdChunkRef) (coldGeneration : ℕ) :
    Explained machine check (.flushCold streamId chunk coldGeneration)
      (machine.flushCold streamId chunk coldGeneration) := by
  unfold flushCold
  cases hcheck : machine.checkColdFlush streamId chunk with
  | error response => exact .refused (refuses_checkColdFlush _ _ _ _ hcheck)
  | ok slot =>
    obtain ⟨_, hscope, hfound⟩ := bind_eq_ok hcheck
    obtain ⟨_, hchunk, hfound⟩ := bind_eq_ok hfound
    cases hslot : machine.streamSlot streamId with
    | none => simp [hslot] at hfound
    | some live =>
      rw [hslot] at hfound
      obtain ⟨_, hrange, hok⟩ := bind_eq_ok hfound
      obtain rfl : slot = live := (Except.ok.inj hok).symm
      obtain ⟨rfl, hlive⟩ := slots_get?_of_streamSlot hslot
      dsimp only
      cases hgeneration : checkColdFlushGeneration slot coldGeneration with
      | error response => exact .refused (refuses_checkColdFlushGeneration _ _ _ hgeneration)
      | ok _ =>
        obtain rfl : slot.cold.coldGeneration = coldGeneration := by
          unfold checkColdFlushGeneration at hgeneration
          dsimp only at hgeneration
          split_ifs at hgeneration with hsame
          exact hsame
        exact .of_act (.flush slot chunk) ⟨hlive, inScope_of_ok hscope, hchunk, hrange⟩ rfl
          (.flushed hslot)

omit [Blake3] in
/-- A compaction's chunks are all shared, or all the stream's own. -/
theorem own_of_checkCompaction {oldChunks : List ColdChunkRef} {replacement : ColdChunkRef}
    {bytes : ℕ} (h : checkCompaction oldChunks replacement = .ok bytes)
    (hshared : ¬ (oldChunks.all fun chunk => chunk.sharedObject) = true) :
    oldChunks ≠ [] ∧ ∀ chunk ∈ oldChunks, chunk.sharedObject = false := by
  unfold checkCompaction at h
  split_ifs at h with hempty hblank hmixed
  push Not at hempty hmixed
  refine ⟨hempty.1, ?_⟩
  have hany : ¬ (oldChunks.any fun chunk => chunk.sharedObject) = true := hmixed.1 ▸ hshared
  simpa using hany

theorem compactCold_explained (oldChunks : List ColdChunkRef) (replacement : ColdChunkRef)
    (gcNotBeforeMs : ℕ) :
    Explained machine check (.compactCold streamId oldChunks replacement gcNotBeforeMs)
      (machine.compactCold streamId oldChunks replacement gcNotBeforeMs) := by
  unfold compactCold
  refine .of_scope fun hscope => ?_
  cases hslot : machine.streamSlot streamId with
  | none => exact .refused rfl
  | some slot =>
    obtain ⟨rfl, hlive⟩ := slots_get?_of_streamSlot hslot
    cases hcheck : checkCompaction oldChunks replacement with
    | error response => exact .refused (refuses_checkCompaction _ _ _ hcheck)
    | ok compactedBytes =>
      dsimp only
      split_ifs with hshared hremoved
      · have hall : ∀ chunk ∈ oldChunks, chunk.sharedObject = true := by simpa using hshared
        exact .of_act (.compact slot oldChunks gcNotBeforeMs)
          ⟨hlive, inScope_of_ok hscope, hall, hremoved⟩ rfl (.compacted hslot)
      · have hall : ∀ chunk ∈ oldChunks, chunk.sharedObject = true := by simpa using hshared
        exact .of_act (.drop slot oldChunks) ⟨hlive, hall, by simpa using hremoved⟩ rfl
          (.dropped hslot hscope hcheck rfl)
      · obtain ⟨hne, hown⟩ := own_of_checkCompaction hcheck hshared
        have hpaths : (oldChunks.filter fun chunk => !chunk.sharedObject) = oldChunks :=
          filter_eq_self.mpr fun chunk hchunk => by simp [hown chunk hchunk]
        have hnone : (oldChunks.filter fun chunk => chunk.sharedObject) = [] :=
          filter_eq_nil_iff.mpr fun chunk hchunk => by simp [hown chunk hchunk]
        refine .of_act (.enqueue slot.id.bucketId (oldChunks.map ColdChunkRef.s3Path) gcNotBeforeMs)
          ⟨(inScope_of_ok hscope).bucketId, (inScope_of_ok hscope).bucket⟩ ?_
          (.compactedOwn hslot hown)
        simp only [releaseCompacted, hpaths, hnone, map_eq_nil_iff, hne, if_false, map_nil]
        rfl

theorem offloadColdRefs_explained (refs : List ObjectPayloadRef) :
    Explained machine check (.offloadColdRefs streamId refs)
      (machine.offloadColdRefs streamId refs) := by
  unfold offloadColdRefs
  cases hslot : machine.streamSlot streamId with
  | none => exact .refused rfl
  | some slot =>
    exact .of_act (.offload slot refs) (slots_get?_of_streamSlot hslot).2 rfl (.offloaded hslot)

/-! ### Removals -/

variable (nowMs : ℕ)

theorem deleteStream_explained :
    Explained machine check (.deleteStream streamId nowMs)
      (machine.deleteStream streamId nowMs) := by
  unfold deleteStream
  refine .of_scope fun hscope => ?_
  cases hmeta : machine.streamMetadata streamId with
  | none => exact .refused rfl
  | some stream =>
    obtain ⟨slot, hslot, rfl⟩ := Option.map_eq_some_iff.mp hmeta
    obtain ⟨rfl, hlive⟩ := slots_get?_of_streamSlot hslot
    exact .of_act (.remove slot _ nowMs) hlive rfl (.deleted hslot)

/-- A removal, when the stream is there, and what it leaves. -/
theorem removeStreamState_trace (machine : StreamStateMachine) (streamId : BucketStreamId)
    (reason : StreamEnd) (nowMs : ℕ) :
    (∃ acts, Trace machine acts (machine.removeStreamState streamId reason nowMs).1 ∧
      ∀ act ∈ acts, ∃ slot, act = .remove slot reason nowMs) ∧
    (machine.removeStreamState streamId reason nowMs).1.state.slots =
      machine.state.slots.erase streamId ∧
    (machine.removeStreamState streamId reason nowMs).1.state.history = machine.state.history := by
  cases hslot : machine.streamSlot streamId with
  | none =>
    rw [removeStreamState_of_none hslot]
    refine ⟨⟨[], .nil _, by simp⟩, (OrdMap.erase_of_none ?_).symm, rfl⟩
    rw [← streamSlot_eq, hslot]
  | some slot =>
    obtain ⟨rfl, hlive⟩ := slots_get?_of_streamSlot hslot
    have hstate := (state_removeStreamState hslot reason nowMs).2
    refine ⟨⟨[.remove slot reason nowMs], .single hlive, by simp⟩, ?_⟩
    rw [hstate, GroupState.removeStream_eq]
    exact ⟨rfl, rfl⟩

/-- Purging streams removes them, and no other. -/
theorem purgeStreams_trace (streamIds : List BucketStreamId) (machine : StreamStateMachine) :
    (∃ acts, Trace machine acts (purgeStreams nowMs streamIds machine).1 ∧
      ∀ act ∈ acts, ∃ slot, act = .remove slot .purged nowMs) ∧
    (∀ id, (purgeStreams nowMs streamIds machine).1.state.slots.get? id =
      if id ∈ streamIds then none else machine.state.slots.get? id) ∧
    (purgeStreams nowMs streamIds machine).1.state.history = machine.state.history := by
  induction streamIds generalizing machine with
  | nil => exact ⟨⟨[], .nil _, by simp⟩, by simp [purgeStreams], rfl⟩
  | cons streamId rest ih =>
    obtain ⟨⟨first, hfirst, hfirstActs⟩, hslots, hhistory⟩ :=
      removeStreamState_trace machine streamId .purged nowMs
    obtain ⟨⟨acts, htrace, hacts⟩, hrest, hrestHistory⟩ :=
      ih (machine.removeStreamState streamId .purged nowMs).1
    refine ⟨⟨first ++ acts, hfirst.append htrace, ?_⟩, fun id => ?_, hrestHistory.trans hhistory⟩
    · intro act hact
      obtain h | h := mem_append.mp hact
      · exact hfirstActs act h
      · exact hacts act h
    · refine (hrest id).trans ?_
      rw [hslots, OrdMap.get?_erase]
      by_cases hid : id = streamId <;> simp [hid]

theorem purgeBucket_explained (bucketId : String) (nowMs : ℕ) :
    Explained machine check (.purgeBucket bucketId nowMs) (machine.purgeBucket bucketId nowMs) := by
  unfold purgeBucket
  cases hvalid : validateBucketId bucketId with
  | error message => exact .refused rfl
  | ok _ =>
    cases hhistory : machine.history with
    | none => exact .refused rfl
    | some event =>
      obtain ⟨⟨removals, htrace, hremovals⟩, hslots, hkept⟩ :=
        purgeStreams_trace nowMs (machine.registry.bucketStreamIds bucketId) machine
      refine ⟨removals ++ [.fenceBucket bucketId], htrace.append (.single ?_), .purged hremovals⟩
      refine ⟨hvalid, ?_, ?_⟩
      · rw [hkept]
        exact Option.isSome_iff_exists.mpr ⟨event, hhistory⟩
      · intro id slot hslot hid
        rw [hslots] at hslot
        split_ifs at hslot with hmem
        -- a live stream of the bucket was among those purged
        refine hmem (mem_filter.mpr ⟨?_, by simpa using hid⟩)
        obtain ⟨key, hkey, -⟩ :=
          StreamRegistry.exists_key ((streamSlot_eq machine id).trans hslot)
        exact (OrdMap.mem_keys ..).mpr ⟨key, hkey⟩

theorem tidyStream_explained :
    Explained machine check (.tidyStream streamId nowMs) (machine.tidyStream streamId nowMs) := by
  unfold tidyStream
  refine .of_scope fun hscope => ?_
  cases hslot : machine.streamSlot streamId with
  | none => exact .refused rfl
  | some slot =>
    refine .of_act (.retire slot (slot.tidyVictims nowMs)) (slots_get?_of_streamSlot hslot).2 ?_
      (.tidied hslot)
    rw [StreamStateMachine.act, ← StreamSlot.tidy_eq]

/-! ### Sweeps, histories and imports -/

theorem sweepExpired_trace (limit : ℕ) (machine : StreamStateMachine) :
    ∃ acts, Trace machine acts (sweepExpired nowMs limit machine).1 ∧
      ∀ act ∈ acts, act = .popExpired nowMs ∨ ∃ slot, act = .remove slot .expired nowMs := by
  induction limit generalizing machine with
  | zero => exact ⟨[], .nil _, by simp⟩
  | succ limit ih =>
    unfold sweepExpired
    dsimp only
    have hpop : Trace machine [.popExpired nowMs]
        { machine with registry := (machine.registry.popExpired nowMs).1 } := .single trivial
    cases hid : (machine.registry.popExpired nowMs).2 with
    | none => exact ⟨_, hpop, by simp⟩
    | some streamId =>
      obtain ⟨⟨first, hfirst, hfirstActs⟩, -⟩ := removeStreamState_trace
        { machine with registry := (machine.registry.popExpired nowMs).1 } streamId .expired nowMs
      obtain ⟨acts, htrace, hacts⟩ := ih _
      refine ⟨_, (hpop.append hfirst).append htrace, ?_⟩
      intro act hact
      simp only [mem_append, mem_singleton] at hact
      obtain (h | h) | h := hact
      · exact .inl h
      · exact .inr (hfirstActs act h)
      · exact hacts act h

theorem retireEndRecords_trace (retireThrough limit : ℕ) (machine : StreamStateMachine) :
    ∃ acts, Trace machine acts (retireEndRecords retireThrough limit machine).1 ∧
      ∀ act ∈ acts, act = .fold := by
  induction limit generalizing machine with
  | zero => exact ⟨[], .nil _, by simp⟩
  | succ limit ih =>
    unfold retireEndRecords
    split_ifs
    · cases hfold : machine.usage.foldFirstEndRecord with
      | none => exact ⟨[], .nil _, by simp⟩
      | some folded =>
        have henabled : Act.fold.Enabled machine.state := by
          refine ⟨(folded.1, folded.2.withoutIndex), ?_⟩
          show machine.usage.withoutIndex.foldFirstEndRecord = _
          rw [machine.usage.withoutIndex_foldFirstEndRecord, hfold]
          rfl
        have hact : machine.act .fold = { machine with
              usage := folded.2, removed := recordFolded machine.removed folded.1 } := by
          unfold StreamStateMachine.act
          rw [hfold]
        obtain ⟨acts, htrace, hacts⟩ := ih (machine.act .fold)
        refine ⟨.fold :: acts, .cons henabled ?_, by simpa using hacts⟩
        dsimp only
        rw [← hact]
        exact htrace
    · exact ⟨[], .nil _, by simp⟩

theorem sweep_explained (limit : ℕ+) (retireThrough : ℕ) :
    Explained machine check (.sweep nowMs limit retireThrough)
      (machine.sweep nowMs limit retireThrough) := by
  obtain ⟨swept, hswept, hsweptActs⟩ := sweepExpired_trace nowMs limit machine
  obtain ⟨folds, hfolds, hfoldActs⟩ := retireEndRecords_trace
    (min retireThrough machine.usage.usageSeq) limit (sweepExpired nowMs limit machine).1
  refine ⟨swept ++ folds, hswept.append hfolds, .swept ?_⟩
  intro act hact
  obtain h | h := mem_append.mp hact
  · obtain h | h := hsweptActs act h
    · exact .inl h
    · exact .inr (.inr h)
  · exact .inr (.inl (hfoldActs act h))

theorem newHistory_explained (index : ℕ) (history : HistoryId) (previous kept : ℕ)
    (leader : HistoryLeader) (nowMs : ℕ) :
    Explained machine check (.newHistory history nowMs previous kept leader)
      (machine.newHistory index history previous kept leader nowMs) := by
  unfold newHistory
  by_cases hprevious : previous ≠ machine.historyId
  · rw [if_pos hprevious]
    exact .refused rfl
  rw [if_neg hprevious]
  let event : HistoryEvent :=
    { id := history
      eventIndex := index
      previous := previous
      kept := kept
      leader := leader
      imported := machine.history.bind HistoryEvent.imported }
  exact .of_act (.newHistory event nowMs) (not_not.mp hprevious) rfl (.historyStarted event)

theorem importSnapshot_explained (index : ℕ) (snapshot : StreamSnapshot) (history : HistoryId)
    (backupDigest : Digest32) (nowMs : ℕ) :
    Explained machine check (.importSnapshot snapshot history backupDigest nowMs)
      (machine.importSnapshot index snapshot history backupDigest nowMs) := by
  unfold importSnapshot
  split
  · exact ⟨[], .nil _, .importKept⟩
  split_ifs with hheld
  · exact .refused rfl
  push Not at hheld
  obtain ⟨hbuckets, herased, hempty⟩ := hheld
  cases hrestored : restoreCountedSince snapshot history with
  | error error => exact .refused rfl
  | ok restored =>
    refine .of_act (.importState index history backupDigest nowMs snapshot restored)
      ⟨OrdMap.eq_empty_of_isEmpty hbuckets, OrdMap.eq_empty_of_isEmpty herased, ?_, hrestored⟩
      rfl .imported
    refine OrdMap.ext_get? fun id => ?_
    rw [← streamSlot_eq, OrdMap.get?_empty]
    exact StreamRegistry.slot_eq_none_iff.mpr ((OrdMap.isEmpty_iff _).mp hempty id)

/-! ### The dispatch -/

/-- **Explanation.** A command without preconditions changes its group as its outcome says. -/
theorem applyChecked_explained (machine : StreamStateMachine) (index : ℕ) (hplain : command.IsPlain)
    (check : IncarnationCheck) :
    Explained machine check command (machine.applyChecked index command check) := by
  cases command with
  | createBucket bucketId => exact createBucket_explained bucketId
  | createStream streamId contentType payload closeAfter streamSeq ttl expires nowMs =>
    unfold applyChecked
    cases hcount : canonicalJsonMessageCount contentType payload with
    | none => exact .refused rfl
    | some messageCount => exact createStream_explained hcount
  | createExternal => exact createExternalStream_explained
  | append => exact appendBorrowed_explained rfl
  | appendExternal => exact appendExternal_explained rfl
  | publishSnapshot => exact publishSnapshot_explained rfl rfl
  | publishSnapshotExternal => exact publishSnapshot_explained rfl rfl
  | advanceRetention => exact advanceRetention_explained ..
  | touchStreamAccess => exact touchStreamAccess_explained ..
  | flushCold => exact flushCold_explained ..
  | compactCold => exact compactCold_explained ..
  | close => exact appendBorrowed_explained rfl
  | deleteStream => exact deleteStream_explained ..
  | purgeBucket => exact purgeBucket_explained ..
  | ackColdGc upToSeq => exact .of_act (.ack upToSeq) trivial rfl .acked
  | deferColdGc seq notBeforeMs => exact .of_act (.defer seq notBeforeMs) trivial rfl .deferred
  | importSnapshot => exact importSnapshot_explained ..
  | newHistory => exact newHistory_explained ..
  | tidyStream => exact tidyStream_explained ..
  | sweep => exact sweep_explained ..
  | offloadColdRefs => exact offloadColdRefs_explained ..
  | ifIncarnation incarnation command => exact hplain.elim

theorem declines_incarnationPrecondition {expected : ℕ} {response : StreamResponse}
    (h : machine.incarnationPrecondition command expected = some response) :
    response.declines = true := by
  unfold incarnationPrecondition at h
  split at h
  · cases h
  split at h
  · dsimp only at h
    split_ifs at h
    cases h
    rfl
  · split_ifs at h
    cases h
    rfl

theorem applyChecked_cases (machine : StreamStateMachine) (index : ℕ) (command : StreamCommand)
    (check : IncarnationCheck) :
    (∃ response, machine.applyChecked index command check = (machine, response) ∧
      response.declines = true) ∨
    machine.applyChecked index command check =
      machine.applyChecked index command.stripped (command.checkFrom check) := by
  induction command generalizing check with
  | ifIncarnation incarnation command ih =>
    rw [applyChecked]
    cases hcond : machine.incarnationPrecondition command incarnation with
    | some refusal => exact .inl ⟨refusal, rfl, declines_incarnationPrecondition hcond⟩
    | none =>
      obtain hrefused | heq := ih .matched
      · exact .inl hrefused
      · refine .inr (heq.trans ?_)
        rw [StreamCommand.checkFrom_matched]
        rfl
  | _ => exact .inr rfl

/-- A log entry is refused by its precondition, and then changes nothing, or is the command that its
preconditions wrap. -/
theorem applyEntry_cases (machine : StreamStateMachine) (index : ℕ) (command : StreamCommand) :
    (∃ response, machine.applyEntry index command = (machine, response) ∧
      response.declines = true) ∨
    machine.applyEntry index command =
      machine.applyChecked index command.stripped command.checkOf :=
  applyChecked_cases machine index command .absent

/-- Every log entry is explained as the command that its preconditions wrap. -/
theorem applyEntry_explained (machine : StreamStateMachine) (index : ℕ) (command : StreamCommand) :
    Explained machine command.checkOf command.stripped (machine.applyEntry index command) := by
  obtain ⟨response, heq, herror⟩ | heq := applyEntry_cases machine index command
  · rw [heq]
    exact .refused herror
  · rw [heq]
    exact applyChecked_explained machine index command.stripped_isPlain _

end Commands

end Ursula

import Ursula.Stream.ExpiryIndex
import Ursula.Stream.Run

/-!
# Streams stay armed

Every stream that can expire has an entry in the expiry index that comes due no later than it does.
Writes move an expiry later or leave it, so each command but a sweep keeps the streams armed by what
it changes; a sweep takes its streams from the index, which returns the first stream that has
expired. A restored machine arms its streams anew.

## Main definitions

* `ExpiresLater`: metadata that expires no earlier

## Main results

* `armed_applyEntry`: every entry keeps the streams armed
* `armed_restoreWith`: a restored machine's streams are armed
-/

namespace Ursula

open Word64 StreamStateMachine Checks StreamStateMachine

/-! ## Armed streams -/

section Armed

variable {machine : StreamStateMachine} {slot : StreamSlot}

/-- The new metadata expires no earlier than the old. -/
def ExpiresLater (old new : StreamMetadata) : Prop :=
  ∀ expiresAtMs, streamExpiryAtMs new = some expiresAtMs →
    ∃ before ≤ expiresAtMs, streamExpiryAtMs old = some before

variable (stream : StreamMetadata)

theorem expiresLater_refl : ExpiresLater stream stream :=
  fun expiresAtMs h => ⟨expiresAtMs, le_refl _, h⟩

theorem expiresLater_renewStreamTtl (nowMs : ℕ) :
    ExpiresLater stream (renewStreamTtl stream nowMs) := by
  unfold renewStreamTtl
  split_ifs with h
  · obtain ⟨httl, hat⟩ := h
    obtain ⟨ttlSeconds, httl⟩ := Option.isSome_iff_exists.mp httl
    rw [Option.isNone_iff_eq_none] at hat
    intro expiresAtMs hexpiry
    simp only [streamExpiryAtMs, httl, hat, Option.map_some, Option.some.injEq] at hexpiry ⊢
    exact ⟨_, hexpiry ▸ satAdd_mono (le_max_left _ _) (le_refl _), rfl⟩
  · exact expiresLater_refl stream

/-- A write moves a stream's expiry later, or leaves it. -/
theorem expiresLater_writeMetadata (len : ℕ) (streamSeq : Option String)
    (nowMs : ℕ) (closeAfter : Bool) :
    ExpiresLater stream (writeMetadata stream len streamSeq nowMs closeAfter) := by
  intro expiresAtMs h
  have hsame : ∀ seq, ExpiresLater stream (renewStreamTtl
      { stream with tailOffset := satAdd stream.tailOffset len, lastStreamSeq := seq } nowMs) :=
    fun seq => expiresLater_renewStreamTtl
      { stream with tailOffset := satAdd stream.tailOffset len, lastStreamSeq := seq } nowMs
  cases streamSeq with
  | none => cases closeAfter <;> exact hsame stream.lastStreamSeq expiresAtMs h
  | some seq => cases closeAfter <;> exact hsame (some seq) expiresAtMs h

theorem armed_putSlot (h : machine.registry.Armed)
    (hlater : ∀ old, machine.streamSlot slot.id = some old →
      ExpiresLater old.metadata slot.metadata) :
    (machine.putSlot slot).registry.Armed :=
  h.setSlot fun old expiresAtMs hold hexpiry => hlater old hold expiresAtMs hexpiry

/-- A live slot written back with an expiry that is no earlier. -/
theorem armed_putSlot_of_live {old : StreamSlot} (h : machine.registry.Armed)
    (hold : machine.state.slots.get? old.id = some old) (hid : slot.id = old.id)
    (hlater : ExpiresLater old.metadata slot.metadata) : (machine.putSlot slot).registry.Armed := by
  refine armed_putSlot h fun found hfound => ?_
  rw [streamSlot_eq, hid, hold] at hfound
  exact Option.some.inj hfound ▸ hlater

theorem armed_restampSlot {key : StreamKey} (h : machine.registry.Armed)
    (hslot : machine.registry.slotByKey key = some slot) (usage : VersionUsage) :
    (machine.restampSlot slot usage key).registry.Armed := by
  refine @armed_putSlot_of_live machine _ slot h ?_ rfl (expiresLater_refl slot.metadata)
  rw [← streamSlot_eq]
  exact (StreamRegistry.slotByKey_iff.mp hslot).2

theorem armed_usageOnAppend (h : machine.registry.Armed) (id : BucketStreamId)
    (bytes records nowMs : ℕ) : (machine.usageOnAppend id bytes records nowMs).registry.Armed := by
  unfold usageOnAppend
  cases machine.registry.key id with
  | none => exact h
  | some key =>
    dsimp only
    cases hslot : machine.registry.slotByKey key with
    | none => exact h
    | some slot => exact armed_restampSlot h hslot _

theorem armed_usageOnSizeChange (h : machine.registry.Armed) (id : BucketStreamId) :
    (machine.usageOnSizeChange id).registry.Armed := by
  unfold usageOnSizeChange
  cases machine.registry.key id with
  | none => exact h
  | some key =>
    dsimp only
    cases hslot : machine.registry.slotByKey key with
    | none => exact h
    | some slot => exact armed_restampSlot h hslot _

theorem registry_syncHotIndex (machine : StreamStateMachine) (id : BucketStreamId) :
    (machine.syncHotIndex id).registry = machine.registry := by
  unfold syncHotIndex
  split_ifs <;> rfl

theorem registry_releaseSharedColdObjects (machine : StreamStateMachine) (bucketId : String)
    (paths : List String) (notBeforeMs : ℕ) :
    (machine.releaseSharedColdObjects bucketId paths notBeforeMs).registry = machine.registry := by
  unfold releaseSharedColdObjects
  induction paths generalizing machine with
  | nil => rfl
  | cons path rest ih =>
    rw [List.foldl_cons, ih]
    unfold releaseSharedColdObject
    cases machine.sharedColdObjectRefs.get? path with
    | none => rfl
    | some refs =>
      dsimp only
      split_ifs <;> rfl

theorem armed_removeStreamState {due : Option BucketStreamId} {id : BucketStreamId}
    (h : machine.registry.ArmedBut due) (hdue : due = none ∨ due = some id)
    (hslot : machine.streamSlot id = some slot) (reason : StreamEnd) (nowMs : ℕ) :
    (machine.removeStreamState id reason nowMs).1.registry.Armed := by
  unfold removeStreamState
  split
  · next hnone =>
    cases (StreamRegistry.remove_eq_none_iff.mp hnone).symm.trans hslot
  · next removed registry hremove =>
    rw [registry_releaseSharedColdObjects]
    exact h.remove hdue hremove

theorem armed_insertStreamSlot {inserted : StreamStateMachine} {key : StreamKey}
    (h : machine.registry.Armed) (hinsert : machine.insertStreamSlot slot = some (inserted, key)) :
    inserted.registry.Armed := by
  unfold insertStreamSlot at hinsert
  cases hins : machine.registry.insert slot with
  | none => simp [hins] at hinsert
  | some pair =>
    simp only [hins, Option.some.injEq, Prod.mk.injEq] at hinsert
    obtain ⟨rfl, -⟩ := hinsert
    exact h.insert hins

theorem expiresLater_write (slot : StreamSlot) (group len : ℕ) (streamSeq : Option String)
    (closeAfter : Bool) (producer : Option ProducerRequest) (gate : Option (WriteKey × Advance))
    (nowMs : ℕ) :
    ExpiresLater slot.metadata
      (slot.write group len streamSeq closeAfter producer gate nowMs).1.metadata := by
  rw [StreamSlot.write_eq]
  exact expiresLater_writeMetadata _ _ _ _ _

/-- Every change but a pop keeps the streams armed. -/
theorem armed_act [Blake3] {act : Act} (henabled : act.Enabled machine.state)
    (hpop : ∀ nowMs, act ≠ .popExpired nowMs)
    (himport : ∀ index history backupDigest nowMs snapshot restored,
      act = .importState index history backupDigest nowMs snapshot restored →
        restored.registry.Armed)
    (h : machine.registry.Armed) : (machine.act act).registry.Armed := by
  cases act with
  | createBucket | fenceBucket | enqueue | ack | defer | newHistory => exact h
  | remove slot reason nowMs =>
    exact armed_removeStreamState h (.inl rfl) ((streamSlot_eq ..).trans henabled) reason nowMs
  | create input history createdAtMs =>
    simp only [act]
    split
    · exact h
    · next inserted _ hinsert =>
      have harmed : inserted.registry.Armed := by
        refine armed_insertStreamSlot ?_ hinsert
        exact h
      exact harmed
  | renew slot nowMs =>
    have hput := @armed_putSlot_of_live machine
      { slot with metadata := renewStreamTtl slot.metadata nowMs } slot h henabled
      (renewStreamTtl_streamId _ _) (expiresLater_renewStreamTtl _ _)
    exact hput.refreshTtl _
  | retire slot producerIds =>
    refine armed_putSlot_of_live h henabled (slot.retireProducers_id producerIds) ?_
    rw [StreamSlot.retireProducers_eq]
    exact expiresLater_refl _
  | append slot input gate messageCount =>
    have hput : ∀ written : StreamSlot, written.metadata = (slot.write machine.historyId
        input.payload.length input.streamSeq input.closeAfter input.producer gate
        input.nowMs).1.metadata → (machine.putSlot written).registry.Armed := by
      intro written hwritten
      refine armed_putSlot_of_live h henabled.1 ?_ ?_
      · show written.metadata.streamId = _
        rw [hwritten]
        exact StreamSlot.write_id ..
      · rw [hwritten]
        exact expiresLater_write _ _ _ _ _ _ _ _
    simp only [act, commitAppend]
    split_ifs
    · exact (hput _ rfl).refreshTtl _
    · refine armed_usageOnAppend ?_ _ _ _ _
      rw [registry_syncHotIndex]
      refine StreamRegistry.Armed.refreshTtl (hput _ ?_) _
      rfl
  | appendExternal slot input gate =>
    refine armed_usageOnAppend ?_ _ _ _ _
    rw [registry_syncHotIndex]
    refine (armed_putSlot_of_live h henabled.1 ?_ ?_).refreshTtl _
    · exact StreamSlot.write_id ..
    · exact expiresLater_write _ _ _ _ _ _ _ _
  | publish slot snapshot nowMs =>
    have hcount := armed_usageOnSizeChange (@armed_putSlot_of_live machine
      { slot with visibleSnapshot := some snapshot } slot h henabled.1 rfl (expiresLater_refl _))
      slot.id
    simp only [act, commitPublish, enqueueAfterGrace]
    split <;> exact hcount
  | retain slot retainedOffset nowMs =>
    have hcount := armed_usageOnSizeChange (@armed_putSlot_of_live machine
      { slot with retainedOffset := retainedOffset } slot h henabled.1 rfl (expiresLater_refl _))
      slot.id
    simp only [act, commitRetention, compactRetainedPrefix]
    split
    · exact hcount
    · next found hfound =>
      rw [registry_syncHotIndex]
      have hfound' := (slots_get?_of_streamSlot hfound).2
      have htrim := @armed_putSlot_of_live _ { found with
          cold := (found.cold.compactBefore retainedOffset).1
          hotBuffer := found.hotBuffer.discardBefore retainedOffset } found hcount hfound' rfl
        (expiresLater_refl _)
      split_ifs
      all_goals
        show StreamRegistry.Armed (registry (releaseSharedColdObjects ..))
        rw [registry_releaseSharedColdObjects]
        exact htrim
  | flush slot chunk =>
    have hput := @armed_putSlot_of_live machine (flushedSlot slot chunk) slot h henabled.1 rfl
      (expiresLater_refl _)
    simp only [act, commitFlush]
    split_ifs
    all_goals
      show StreamRegistry.Armed (registry (syncHotIndex ..))
      rw [registry_syncHotIndex]
      exact hput
  | compact slot oldChunks gcNotBeforeMs =>
    have hput := @armed_putSlot_of_live machine (uncompactedSlot slot oldChunks)
        slot h henabled.1 rfl
      (expiresLater_refl _)
    simp only [act, releaseCompacted]
    rw [registry_releaseSharedColdObjects]
    split_ifs <;> exact hput
  | drop slot oldChunks =>
    exact @armed_putSlot_of_live machine (uncompactedSlot slot oldChunks) slot h henabled.1 rfl
      (expiresLater_refl _)
  | offload slot refs =>
    exact @armed_putSlot_of_live machine
      { slot with cold := (slot.cold.removeExternalSegments refs).1 } slot h henabled rfl
      (expiresLater_refl _)
  | importState index history backupDigest nowMs snapshot restored =>
    exact himport index history backupDigest nowMs snapshot restored rfl
  | fold =>
    simp only [act]
    split <;> exact h
  | popExpired nowMs => exact absurd rfl (hpop nowMs)

theorem registry_foldl_retain (paths : List String) (machine : StreamStateMachine) :
    (paths.foldl retainSharedColdObject machine).registry = machine.registry := by
  induction paths generalizing machine with
  | nil => rfl
  | cons path rest ih => exact ih (machine.retainSharedColdObject path)

theorem armed_restoreStream {importedSince : Option HistoryId} {machine' : StreamStateMachine}
    {item : StreamSnapshotEntry × Option VersionUsage} (harmed : machine.registry.Armed)
    (h : restoreStream importedSince machine item = .ok machine') : machine'.registry.Armed := by
  obtain ⟨history, -, h⟩ := bind_eq_ok h
  obtain ⟨producers, -, h⟩ := bind_eq_ok h
  dsimp only at h
  split at h
  · cases h
  · next inserted _ hinsert =>
    cases h
    rw [registry_foldl_retain]
    refine armed_insertStreamSlot ?_ hinsert
    exact harmed

theorem armed_foldlM_restoreStream {importedSince : Option HistoryId}
    {items : List (StreamSnapshotEntry × Option VersionUsage)} {machine' : StreamStateMachine}
    (harmed : machine.registry.Armed)
    (h : items.foldlM (restoreStream importedSince) machine = .ok machine') :
    machine'.registry.Armed := by
  induction items generalizing machine with
  | nil =>
    cases h
    exact harmed
  | cons item rest ih =>
    obtain ⟨next, hfirst, hrest⟩ := bind_eq_ok h
    exact ih (armed_restoreStream harmed hfirst) hrest

/-- A restored machine's streams are armed. -/
theorem armed_restoreWith {snapshot : StreamSnapshot} {usage : RestoredUsage}
    {restored : StreamStateMachine} (h : restoreWith snapshot usage = .ok restored) :
    restored.registry.Armed := by
  unfold restoreWith at h
  split_ifs at h
  obtain ⟨totals, -, h⟩ := bind_eq_ok h
  obtain ⟨source, -, h⟩ := bind_eq_ok h
  obtain ⟨buckets, -, h⟩ := bind_eq_ok h
  obtain ⟨erasedBuckets, -, h⟩ := bind_eq_ok h
  obtain ⟨streams, hfold, h⟩ := bind_eq_ok h
  unfold finishRestore at h
  split at h
  · cases h
  dsimp only at h
  split at h
  · cases h
  · have harmed := armed_foldlM_restoreStream (by exact StreamRegistry.armed_empty) hfold
    cases h
    exact harmed

end Armed

/-! ## Sweeps -/

section Sweeps

variable {a b : StreamStateMachine}

/-- The streams a sweep removes leave the others armed. -/
theorem armed_sweepExpired (nowMs limit : ℕ) (ha : a.registry.Armed) :
    (sweepExpired nowMs limit a).1.registry.Armed := by
  induction limit generalizing a with
  | zero => exact ha
  | succ limit ih =>
    have hpopped := StreamRegistry.popExpired_spec ha nowMs
    have hsame := StreamRegistry.sameSlots_popExpired a.registry nowMs
    unfold sweepExpired
    generalize a.registry.popExpired nowMs = popped at hpopped hsame
    cases hpopped with
    | nothing harmed => exact harmed
    | @stream after id harmed hfirst =>
      obtain ⟨slot, hslot, -⟩ := hfirst.streamIsExpired
      exact ih (@armed_removeStreamState { a with registry := after } slot _ id harmed (.inr rfl)
        ((hsame.slot id).trans hslot) .expired nowMs)

theorem registry_retireEndRecords (retireThrough limit : ℕ) (machine : StreamStateMachine) :
    (retireEndRecords retireThrough limit machine).1.registry = machine.registry := by
  induction limit generalizing machine with
  | zero => rfl
  | succ limit ih =>
    unfold retireEndRecords
    split_ifs
    · cases machine.usage.foldFirstEndRecord with
      | none => rfl
      | some folded => exact ih _
    · rfl

theorem armed_sweep (ha : a.registry.Armed) (nowMs : ℕ) (limit : ℕ+) (retireThrough : ℕ) :
    (a.sweep nowMs limit retireThrough).1.registry.Armed := by
  unfold sweep
  rw [registry_retireEndRecords]
  exact armed_sweepExpired nowMs limit ha

end Sweeps

/-! ## Every command -/

section Commands

variable [Blake3] {a b : StreamStateMachine}

theorem armed_trace {acts : List Act} (htrace : Trace a acts b)
    (hpop : ∀ nowMs, .popExpired nowMs ∉ acts) (ha : a.registry.Armed) : b.registry.Armed := by
  induction htrace with
  | nil => exact ha
  | cons henabled _ ih =>
    refine ih (fun nowMs hmem => hpop nowMs (List.mem_cons_of_mem _ hmem)) ?_
    refine armed_act henabled (fun nowMs hact => hpop nowMs (hact ▸ List.mem_cons_self)) ?_ ha
    rintro index history backupDigest nowMs snapshot restored rfl
    exact armed_restoreWith henabled.2.2.2

theorem armed_applyEntry (ha : a.registry.Armed) (index : ℕ) (command : StreamCommand) :
    (a.applyEntry index command).1.registry.Armed := by
  obtain ⟨acts, htrace, houtcome⟩ := applyEntry_explained a index command
  cases houtcome.kinds with
  | plain _ hacts => exact armed_trace htrace (fun nowMs hmem => hacts _ hmem) ha
  | backup _ _ hacts =>
    subst hacts
    exact armed_trace htrace (by simp) ha
  | dropped _ _ hacts =>
    subst hacts
    exact armed_trace htrace (by simp) ha
  | swept hplain =>
    -- between a pop and its removal the popped stream is not armed
    obtain ⟨response, heq, -⟩ | heq := applyEntry_cases a index command
    · rw [heq]
      exact ha
    · rw [heq, hplain]
      exact armed_sweep ha _ _ _

end Commands

end Ursula

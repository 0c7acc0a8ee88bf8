import Ursula.Stream.Act

/-!
# What a change leaves alone

The fields of the replicated state after an elementary change, one equation for each field. Most
changes write one slot back; `Act.slotAfter` is that slot.

## Main definitions

* `Act.slot`, `Act.slotAfter`: the slot a change is about, and the slot it writes
* `GroupState.SlotOrigin`: where a live slot comes from

## Main results

* `GroupState.slotOrigin`: every live slot has an origin
* `GroupState.slots_act`: the slots after a change
-/

namespace Ursula

open Word64

namespace GroupState

section Fields

variable (state : GroupState) (bucketId : String) (paths : List String) (notBeforeMs : ℕ)

theorem slots_releaseSharedColdObjects :
    (state.releaseSharedColdObjects bucketId paths notBeforeMs).slots = state.slots := by
  rw [releaseSharedColdObjects_eq]

theorem enqueuePaths_eq :
    state.enqueuePaths bucketId paths notBeforeMs =
      { state with coldGc := (state.enqueuePaths bucketId paths notBeforeMs).coldGc } := by
  unfold enqueuePaths
  split_ifs <;> rfl

theorem slots_enqueuePaths :
    (state.enqueuePaths bucketId paths notBeforeMs).slots = state.slots := by
  rw [enqueuePaths_eq]

end Fields

end GroupState

/-! ## Slots -/

/-- The slot a change writes, under its own name. -/
def Act.slotAfter (state : GroupState) : Act → Option StreamSlot
  | .create input history createdAtMs => some (state.createdSlot input history createdAtMs)
  | .renew slot nowMs => some { slot with metadata := renewStreamTtl slot.metadata nowMs }
  | .retire slot producerIds => some (slot.retireProducers producerIds)
  | .append slot input gate messageCount =>
    if input.kind = .closeOnly then some (input.closed (historyIdOf state.history) slot gate)
    else
      let written := input.written (historyIdOf state.history) slot gate
      some
        { written with
          usage :=
            { StreamStateMachine.countAppend written.usage input.payload.length
                (appendedRecordCount messageCount input.payload.length) input.nowMs with
              seq := state.usage.nextSeq } }
  | .appendExternal slot input gate =>
    let written := input.written (historyIdOf state.history) slot gate
    some
      { written with
        usage :=
          { StreamStateMachine.countAppend written.usage (input.appendedBytes slot)
              (appendedRecordCount input.messageCount (input.appendedBytes slot)) input.nowMs with
            seq := state.usage.nextSeq } }
  | .publish slot snapshot _ =>
    some
      { slot with
        visibleSnapshot := some snapshot
        usage := { slot.usage with seq := state.usage.nextSeq } }
  | .retain slot retainedOffset _ =>
    some
      { slot.trimmed retainedOffset with
        usage := { slot.usage with seq := state.usage.nextSeq } }
  | .flush slot chunk => some (StreamStateMachine.flushedSlot slot chunk)
  | .compact slot oldChunks _ => some (StreamStateMachine.uncompactedSlot slot oldChunks)
  | .drop slot oldChunks => some (StreamStateMachine.uncompactedSlot slot oldChunks)
  | .offload slot refs => some { slot with cold := (slot.cold.removeExternalSegments refs).1 }
  | _ => none

/-- The live slot a change is about, when it leaves the stream live. -/
def Act.slot : Act → Option StreamSlot
  | .renew slot _ => some slot
  | .retire slot _ => some slot
  | .append slot _ _ _ => some slot
  | .appendExternal slot _ _ => some slot
  | .publish slot _ _ => some slot
  | .retain slot _ _ => some slot
  | .flush slot _ => some slot
  | .compact slot _ _ => some slot
  | .drop slot _ => some slot
  | .offload slot _ => some slot
  | _ => none

theorem Act.slot_enabled [Blake3] {state : GroupState} {act : Act} {slot : StreamSlot}
    (henabled : act.Enabled state) (h : act.slot = some slot) :
    state.slots.get? slot.id = some slot := by
  cases act <;> cases h
  case renew | retire | offload => exact henabled
  all_goals exact henabled.1

theorem Act.slotAfter_id {state : GroupState} {act : Act} {slot slot' : StreamSlot}
    (h : act.slot = some slot) (hafter : act.slotAfter state = some slot') :
    slot'.id = slot.id := by
  cases act <;> cases h
  case append input gate messageCount =>
    simp only [slotAfter] at hafter
    split_ifs at hafter <;> cases hafter <;> exact StreamSlot.write_id ..
  case renew => cases hafter; exact renewStreamTtl_streamId ..
  case retire => cases hafter; exact StreamSlot.retireProducers_id ..
  case appendExternal => cases hafter; exact StreamSlot.write_id ..
  all_goals cases hafter; rfl

namespace GroupState

variable (state : GroupState)

/-- The slots after a change: a removal takes one, an import brings its own, and every other change
writes at most one. -/
theorem slots_act (act : Act) : (state.act act).slots = match act with
      | .remove slot _ _ => state.slots.erase slot.id
      | .importState _ _ _ _ _ restored => restored.state.slots
      | act =>
        match act.slotAfter state with
        | some slot => state.slots.insert slot.id slot
        | none => state.slots := by
  cases act with
  | remove slot reason nowMs =>
    show (state.removeStream slot reason nowMs).slots = _
    rw [removeStream_eq]
  | append slot input gate messageCount =>
    simp only [GroupState.act, Act.slotAfter]
    split_ifs <;> rfl
  | publish slot snapshot nowMs => exact slots_enqueuePaths ..
  | retain slot retainedOffset nowMs =>
    simp only [GroupState.act, slots_enqueuePaths, slots_releaseSharedColdObjects]
    rfl
  | flush slot chunk =>
    simp only [GroupState.act]
    split_ifs <;> rfl
  | compact slot oldChunks gcNotBeforeMs =>
    simp only [GroupState.act, slots_releaseSharedColdObjects]
    rfl
  | fold =>
    simp only [GroupState.act]
    split <;> rfl
  | _ => rfl

/-- A change of a slot writes it under its name. -/
theorem get?_slots_act {act : Act} {slot written : StreamSlot} (hact : act.slot = some slot)
    (hafter : act.slotAfter state = some written) :
    (state.act act).slots.get? written.id = some written := by
  have hslots : (state.act act).slots = state.slots.insert written.id written := by
    rw [slots_act]
    cases act with
    | renew | retire | append | appendExternal | publish | retain | flush | compact | drop
      | offload => simp only [hafter]
    | _ => cases hact
  rw [hslots, OrdMap.get?_insert_self]

/-- Where a live slot comes from: it was there, a change of it or a create wrote it, or an import
brought it. -/
inductive SlotOrigin (act : Act) (id : BucketStreamId) (slot' : StreamSlot) : Prop
  | kept (h : state.slots.get? id = some slot')
      (hother : ∀ slot, act.slot = some slot → slot.id ≠ id)
      (hcreate : ∀ input history createdAtMs, act = .create input history createdAtMs →
        input.streamId ≠ id)
  | changed {slot : StreamSlot} (hact : act.slot = some slot) (hid : slot.id = id)
      (hslot : state.slots.get? id = some slot) (hafter : act.slotAfter state = some slot')
  | created {input : NewStream} {history : HistoryId} {createdAtMs : ℕ}
      (hact : act = .create input history createdAtMs) (hid : input.streamId = id)
      (hslot : slot' = state.createdSlot input history createdAtMs)
  | imported {index nowMs : ℕ} {history : HistoryId} {backupDigest : Digest32}
      {snapshot : StreamSnapshot} {restored : StreamStateMachine}
      (hact : act = .importState index history backupDigest nowMs snapshot restored)
      (h : restored.state.slots.get? id = some slot')

/-- **Origins.** Every slot after a change has one. -/
theorem slotOrigin [Blake3] {state : GroupState} {act : Act} {id : BucketStreamId}
    {slot' : StreamSlot} (henabled : act.Enabled state)
    (h : (state.act act).slots.get? id = some slot') : state.SlotOrigin act id slot' := by
  rw [slots_act] at h
  -- a change of one slot writes it under its name and leaves the others
  have hchange : ∀ slot written, act.slot = some slot → act.slotAfter state = some written →
      (state.slots.insert written.id written).get? id = some slot' →
      (∀ input history createdAtMs, act ≠ .create input history createdAtMs) →
      state.SlotOrigin act id slot' := by
    intro slot written hslot hafter hget hcreate
    have hname := Act.slotAfter_id hslot hafter
    rw [OrdMap.get?_insert, hname] at hget
    split_ifs at hget with hid
    · cases hget
      exact .changed hslot hid.symm (hid ▸ Act.slot_enabled henabled hslot) hafter
    refine .kept hget (fun other hother => ?_) fun input history createdAtMs hact =>
      absurd hact (hcreate input history createdAtMs)
    cases hslot.symm.trans hother
    exact Ne.symm hid
  cases act with
  | remove slot reason nowMs =>
    simp only [OrdMap.get?_erase] at h
    split_ifs at h
    exact .kept h (by simp [Act.slot]) (by simp)
  | create input history createdAtMs =>
    simp only [Act.slotAfter, OrdMap.get?_insert] at h
    split_ifs at h with hid
    · exact .created rfl hid.symm (Option.some.inj h).symm
    · refine .kept h (by simp [Act.slot]) ?_
      rintro _ _ _ ⟨⟩
      exact Ne.symm hid
  | importState index history backupDigest nowMs snapshot restored => exact .imported rfl h
  | append slot input gate messageCount =>
    cases hafter : (Act.append slot input gate messageCount).slotAfter state with
    | none =>
      simp only [Act.slotAfter] at hafter
      split_ifs at hafter
    | some written =>
      simp only [hafter] at h
      exact hchange slot written rfl hafter h (by simp)
  | renew | retire | appendExternal | publish | retain | flush | compact | drop | offload =>
    exact hchange _ _ rfl rfl h (by simp)
  | _ => exact .kept h (by simp [Act.slot]) (by simp)

/-! ## The other fields -/

end GroupState

end Ursula

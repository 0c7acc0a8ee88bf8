import Ursula.Stream.SlotSound

/-!
# Slots of any group

What holds of every live slot whatever a group applied, imports of any backup and restores of any
snapshot included. The offsets of the source have 64 bits, so the lengths that a command or a
snapshot brings do too; that much is asked of them and nothing else.

## Main definitions

* `StreamCommand.Fits`: the lengths that a command brings have 64 bits
* `StreamStateMachine.WordReachable`: the machines of such commands
* `StreamSlot.Bounded`: hot blocks in order and boundaries at or below the tail

## Main results

* `WordReachable.allSlots`: the rule for what creates and restores establish and every change keeps
* `WordReachable.bounded`: every live slot is bounded
-/

namespace Ursula

open Word64 StreamStateMachine

/-! ## Commands and their changes -/

/-- Whether the lengths and offsets that a command brings have 64 bits. -/
def StreamCommand.Fits : StreamCommand → Prop
  | createStream _ _ initialPayload _ _ _ _ _ => initialPayload.length ≤ maxValue
  | createExternal _ _ initialPayload _ _ _ _ _ _ => initialPayload.payloadLen ≤ maxValue
  | importSnapshot snapshot _ _ _ => ∀ entry ∈ snapshot.streams,
    entry.metadata.tailOffset ≤ maxValue
  | _ => True

/-- Whether the lengths that a change brings have 64 bits. -/
def Act.Fits : Act → Prop
  | .create input _ _ => input.initialLen ≤ maxValue
  | .importState _ _ _ _ snapshot _ =>
    ∀ entry ∈ snapshot.streams, entry.metadata.tailOffset ≤ maxValue
  | _ => True

section Commands

variable [Blake3] {machine : StreamStateMachine} {check : IncarnationCheck} {plain : StreamCommand}
  {acts : List Act} {response : StreamResponse}

omit [Blake3] in
theorem StreamCommand.Fits.createInput (h : plain.Fits) {input : NewStream}
    (hinput : plain.createInput = some input) : input.initialLen ≤ maxValue := by
  cases plain with
  | createStream =>
    obtain ⟨_, -, rfl⟩ := Option.map_eq_some_iff.mp hinput
    exact h
  | createExternal =>
    cases hinput
    exact h
  | _ => cases hinput

/-- The changes of a command bring the lengths that it brings. -/
theorem Outcome.fits (h : Outcome machine check plain acts response) (hfits : plain.Fits) :
    ∀ act ∈ acts, act.Fits := by
  intro act hact
  cases act with
  | create input history createdAtMs => exact hfits.createInput (h.create_mem hact).1
  | importState index history backupDigest nowMs snapshot restored =>
    obtain ⟨rfl, -⟩ := h.import_mem hact
    exact hfits
  | _ => trivial

end Commands

/-! ## Reachable machines -/

/-- The machines of a group whose commands and snapshots bring lengths of 64 bits. -/
abbrev StreamStateMachine.WordReachable [Blake3] : StreamStateMachine → Prop :=
  ReachableBy (fun command => command.stripped.Fits) fun snapshot =>
    ∀ entry ∈ snapshot.streams, entry.metadata.tailOffset ≤ maxValue

/-- **Slots.** What creates and restores establish and every change of a slot keeps holds of every
live slot. -/
theorem StreamStateMachine.WordReachable.allSlots [Blake3] {P : StreamSlot → Prop}
    (hcreate : ∀ {state input history createdAtMs},
      (Act.create input history createdAtMs).Enabled state → input.initialLen ≤ maxValue →
        P (state.createdSlot input history createdAtMs))
    (hchange : ∀ {state : GroupState} {act : Act} {slot slot'}, act.Enabled state →
      act.slot = some slot → act.slotAfter state = some slot' → P slot → P slot')
    (hrestored : ∀ {buckets entry version}, EntryOk buckets entry →
      entry.metadata.tailOffset ≤ maxValue → P (entry.slot entry.producers version))
    {machine : StreamStateMachine} (h : machine.WordReachable) : machine.state.AllSlots P := by
  have hrestore : ∀ {snapshot usage} {restored : StreamStateMachine},
      restoreWith snapshot usage = .ok restored →
      (∀ entry ∈ snapshot.streams, entry.metadata.tailOffset ≤ maxValue) →
      restored.state.AllSlots P := by
    intro snapshot usage restored hrestore hfits id slot hslot
    obtain ⟨entry, hentry, hok, version, rfl⟩ := restoreWith_slot hrestore hslot
    exact hrestored hok (hfits entry hentry)
  induction h with
  | new =>
    intro id slot hslot
    cases hslot
  | @entry machine h index command hfits ih =>
    obtain ⟨acts, htrace, houtcome⟩ := applyEntry_explained machine index command
    have hacts := houtcome.fits hfits
    generalize (machine.applyEntry index command).1 = after at htrace
    clear houtcome h
    induction htrace with
    | nil => exact ih
    | cons henabled _ ihtrace =>
      refine ihtrace ?_ fun act hact => hacts act (by simp [hact])
      rw [state_step henabled]
      have hfits := hacts _ List.mem_cons_self
      intro id slot hslot
      cases GroupState.slotOrigin henabled hslot with
      | kept hold => exact ih id slot hold
      | changed hact _ hold hafter => exact hchange henabled hact hafter (ih id _ hold)
      | created hact _ hnew =>
        subst hact hnew
        exact hcreate henabled hfits
      | imported hact hold =>
        subst hact
        exact hrestore henabled.2.2.2 hfits id slot hold
  | restored h hfits => exact hrestore h hfits

/-! ## Bounded slots -/

/-- What holds of every live slot: its hot blocks are in order below its tail, and its boundaries
lie at or below it. -/
structure StreamSlot.Bounded (slot : StreamSlot) : Prop where
  hot : HotBlocks.InOrder slot.metadata.tailOffset slot.hotBuffer.blocks
  tail : slot.metadata.tailOffset ≤ maxValue
  retained : slot.retainedOffset ≤ slot.metadata.tailOffset
  visible : ∀ snapshot, slot.visibleSnapshot = some snapshot →
    snapshot.offset ≤ slot.metadata.tailOffset

section Bounded

variable {state : GroupState} {slot : StreamSlot}

/-- A write moves the tail up, and what lay below it stays there. -/
theorem StreamSlot.Bounded.write (h : slot.Bounded) {written : StreamSlot} (len : ℕ)
    (htail : written.metadata.tailOffset = satAdd slot.metadata.tailOffset len)
    (hhot : HotBlocks.InOrder written.metadata.tailOffset written.hotBuffer.blocks)
    (hretained : written.retainedOffset = slot.retainedOffset)
    (hvisible : written.visibleSnapshot = slot.visibleSnapshot) : written.Bounded := by
  have hle : slot.metadata.tailOffset ≤ written.metadata.tailOffset :=
    htail ▸ le_satAdd_left h.tail
  exact ⟨hhot, htail ▸ satAdd_le_maxValue _ _, hretained ▸ h.retained.trans hle,
    fun snapshot hsnapshot => (h.visible snapshot (hvisible ▸ hsnapshot)).trans hle⟩

theorem bounded_createdSlot {input : NewStream} (hpayload : input.Payload)
    (hfits : input.initialLen ≤ maxValue) (history : HistoryId) (createdAtMs : ℕ) :
    (state.createdSlot input history createdAtMs).Bounded :=
  ⟨(sound_createdSlot hpayload history createdAtMs).hot, hfits, Nat.zero_le _, by rintro _ ⟨⟩⟩

/-- Every change of a slot keeps it bounded. -/
theorem bounded_slotAfter [Blake3] {act : Act} {slot' : StreamSlot} (henabled : act.Enabled state)
    (hact : act.slot = some slot) (hafter : act.slotAfter state = some slot') (h : slot.Bounded) :
    slot'.Bounded := by
  have hgrow : ∀ len, HotBlocks.InOrder (satAdd slot.metadata.tailOffset len)
      slot.hotBuffer.blocks :=
    fun len => h.hot.mono ((min_le_left _ _).trans (le_satAdd_left h.tail))
  cases act <;> cases hact
  case renew nowMs =>
    cases hafter
    have htail : (renewStreamTtl slot.metadata nowMs).tailOffset = slot.metadata.tailOffset := by
      unfold renewStreamTtl
      split_ifs <;> rfl
    exact ⟨htail ▸ h.hot, htail ▸ h.tail, htail ▸ h.retained, htail ▸ h.visible⟩
  case retire producerIds =>
    cases hafter
    rw [StreamSlot.retireProducers_eq]
    exact ⟨h.hot, h.tail, h.retained, h.visible⟩
  case append input gate messageCount =>
    simp only [Act.slotAfter] at hafter
    split_ifs at hafter <;> cases hafter
    · refine h.write input.payload.length ?_ ?_ ?_ ?_
      all_goals simp [AppendStreamInput.closed, hgrow]
    · refine h.write input.payload.length ?_ ?_ ?_ ?_
      all_goals simp [AppendStreamInput.written, HotBuffer.pushSlice, h.hot.push]
  case appendExternal input gate =>
    cases hafter
    refine h.write input.payload.payloadLen ?_ ?_ ?_ ?_
    all_goals simp [AppendExternalInput.written, hgrow]
  case publish snapshot nowMs =>
    cases hafter
    refine ⟨h.hot, h.tail, h.retained, fun published hpublished => ?_⟩
    cases hpublished
    exact henabled.2.2.1
  case retain retainedOffset nowMs =>
    obtain ⟨-, -, -, snapshot, hsnapshot, hle⟩ := henabled
    cases hafter
    exact ⟨h.hot.flush retainedOffset, h.tail, hle.trans (h.visible snapshot hsnapshot), h.visible⟩
  case flush chunk =>
    cases hafter
    exact ⟨h.hot.flush chunk.endOffset, h.tail, h.retained, h.visible⟩
  case compact | drop | offload =>
    cases hafter
    exact ⟨h.hot, h.tail, h.retained, h.visible⟩

/-- The blocks that a restore's checks accept are in order. -/
theorem inOrder_ofSegments {payload : Bytes} {segments : List HotPayloadSegment}
    {payloadStart previousEnd tail : ℕ} (htail : tail ≤ maxValue)
    (hmatch : hotSegmentsMatchPayload payload.length payloadStart segments = true)
    (horder : hotSegmentsInOrder tail previousEnd segments = true) :
    HotBlocks.InOrder tail (HotBlocks.ofSegments payload segments) ∧
      ∀ block ∈ HotBlocks.ofSegments payload segments, previousEnd ≤ block.startOffset := by
  induction segments generalizing payloadStart previousEnd with
  | nil => exact ⟨.nil _, by simp [HotBlocks.ofSegments]⟩
  | cons segment rest ih =>
    simp only [hotSegmentsMatchPayload, hotSegmentsInOrder] at hmatch horder
    split_ifs at hmatch with hbad hlength
    split_ifs at horder with hout
    obtain ⟨hrest, hfirst⟩ := ih hmatch horder
    simp only [HotBlocks.ofSegments, List.filterMap_cons] at hrest hfirst ⊢
    have hget : getRange payload segment.payloadStart segment.payloadEnd =
        some ((payload.drop segment.payloadStart).take
          (segment.payloadEnd - segment.payloadStart)) := if_pos (by omega)
    have hlen : ((payload.drop segment.payloadStart).take
        (segment.payloadEnd - segment.payloadStart)).length =
          segment.endOffset - segment.startOffset := by
      rw [List.length_take, List.length_drop]
      omega
    set chunk := (payload.drop segment.payloadStart).take
      (segment.payloadEnd - segment.payloadStart) with hchunk
    have hne : chunk ≠ [] := List.length_pos_iff.mp (by omega)
    have hend : HotBlock.endOffset ⟨segment.startOffset, chunk⟩ = segment.endOffset := by
      rw [HotBlocks.endOffset_mk, hlen, satAdd_eq_add_of_le (by omega)]
      omega
    simp only [hget, hne, if_false]
    refine ⟨HotBlocks.inOrder_cons.mpr ⟨by omega, fun other hother => ?_, hrest⟩,
      fun block hblock => ?_⟩
    · rw [hend]
      exact hfirst other hother
    · obtain rfl | hmem := List.mem_cons.mp hblock
      · exact show previousEnd ≤ segment.startOffset by omega
      · have := hfirst block hmem
        omega

theorem bounded_entrySlot {buckets : OrdSet String} {entry : StreamSnapshotEntry}
    {version : VersionUsage} (h : EntryOk buckets entry)
    (hfits : entry.metadata.tailOffset ≤ maxValue) :
    (entry.slot entry.producers version).Bounded := by
  refine ⟨?_, hfits, h.retained, h.snapshot⟩
  have hsources := h.sources
  unfold payloadSourcesCoverRetainedSuffix at hsources
  split_ifs at hsources
  exact (inOrder_ofSegments hfits h.segments hsources).1

theorem StreamStateMachine.WordReachable.bounded [Blake3] {machine : StreamStateMachine}
    (h : machine.WordReachable) {id : BucketStreamId} (hslot : machine.streamSlot id = some slot) :
    slot.Bounded := by
  rw [streamSlot_eq] at hslot
  exact h.allSlots (fun henabled hfits => bounded_createdSlot henabled.2.2.2.2.2 hfits _ _)
    bounded_slotAfter bounded_entrySlot id slot hslot

end Bounded

end Ursula

import Ursula.Stream.HotOrder
import Ursula.Stream.Run

/-!
# Sound slots

What holds of every live slot of a run. Its hot blocks are in order below its tail; its cold chunks
are slices of shared objects, one after another, all below its hot blocks, so no chunk is there
twice. Below the end of the offsets its boundaries are at or below its tail and its external
payloads are well formed, which is what a restore checks.

## Main definitions

* `StreamSlot.Sound`: what holds of every live slot
* `GroupState.AllSlots`: a property of every live slot

## Main results

* `sound_slotAfter`: every change of a slot keeps it sound
* `kept_allSlots`: a property that every change of a slot keeps holds in every run
* `Run.sound`: every live slot of a run is sound
-/

namespace Ursula

open Word64 StreamStateMachine List

/-! ## Sound slots -/

/-- What holds of every live slot. -/
structure StreamSlot.Sound (slot : StreamSlot) : Prop where
  hot : HotBlocks.InOrder slot.metadata.tailOffset slot.hotBuffer.blocks
  /-- The chunks are well-formed slices of shared objects. -/
  chunks : ∀ chunk ∈ slot.cold.coldChunks,
    chunk.sharedObject = true ∧ chunk.startOffset < chunk.endOffset ∧ validColdChunkRef chunk = true
  /-- The chunks lie below the tail and the hot blocks. -/
  cold : ∀ chunk ∈ slot.cold.coldChunks,
    chunk.endOffset ≤ min slot.metadata.tailOffset maxValue ∧
      ∀ block ∈ slot.hotBuffer.blocks, chunk.endOffset ≤ block.startOffset
  ordered : slot.cold.coldChunks.Pairwise fun a b => a.endOffset ≤ b.startOffset
  retained : slot.metadata.tailOffset < maxValue → slot.retainedOffset ≤ slot.metadata.tailOffset
  visible : slot.metadata.tailOffset < maxValue → ∀ snapshot, slot.visibleSnapshot = some snapshot →
    snapshot.offset ≤ slot.metadata.tailOffset
  external : slot.metadata.tailOffset < maxValue → ∀ object ∈ slot.cold.externalSegments,
    validObjectPayloadRef object = true

namespace StreamSlot.Sound

variable {slot : StreamSlot}

theorem congr {slot' : StreamSlot} (h : slot.Sound)
    (htail : slot'.metadata.tailOffset = slot.metadata.tailOffset)
    (hhot : slot'.hotBuffer = slot.hotBuffer) (hcold : slot'.cold = slot.cold)
    (hretained : slot'.retainedOffset = slot.retainedOffset)
    (hvisible : slot'.visibleSnapshot = slot.visibleSnapshot) : slot'.Sound := by
  constructor
  all_goals simp only [htail, hhot, hcold, hretained, hvisible]
  exacts [h.hot, h.chunks, h.cold, h.ordered, h.retained, h.visible, h.external]

end StreamSlot.Sound

/-! ## Every live slot -/

/-- Every live slot has a property. -/
def GroupState.AllSlots (P : StreamSlot → Prop) (state : GroupState) : Prop :=
  ∀ id slot, state.slots.get? id = some slot → P slot

/-- What creates establish and every change of a slot keeps holds of every live slot, when it does
not depend on the slot's usage. -/
theorem kept_allSlots [Blake3] {allowed : Act → Prop} {P : StreamSlot → Prop}
    (hcreate : ∀ {state input history createdAtMs},
      (Act.create input history createdAtMs).Enabled state →
        P (state.createdSlot input history createdAtMs))
    (hchange : ∀ {state act slot slot'}, act.Enabled state → allowed act → act.slot = some slot →
      act.slotAfter state = some slot' → P slot → P slot')
    (husage : ∀ {slot usage}, P slot → P { slot with usage := usage }) :
    Kept allowed (GroupState.AllSlots P) where
  new := fun id slot h => by cases h
  act := by
    intro state act henabled himport hallowed h id slot hslot
    cases GroupState.slotOrigin henabled hslot with
    | kept hold => exact h id slot hold
    | changed hact _ hold hafter => exact hchange henabled hallowed hact hafter (h id _ hold)
    | created hact _ hnew =>
      subst hact hnew
      exact hcreate henabled
    | imported hact =>
      subst hact
      exact absurd trivial himport
  imported := by
    intro state source restored index nowMs history backupDigest henabled _ hsource id slot hslot
    obtain ⟨own, seq, hown, rfl⟩ := slots_restoreCountedSince henabled.2.2.2 hslot
    exact husage (hsource id own hown)
  restored := by
    intro machine restored hrestored h id slot hslot
    rw [hrestored.slots] at hslot
    exact h id slot hslot

/-! ## Soundness is kept -/

section Sound

variable {state : GroupState} {slot : StreamSlot}

/-- A staged payload's reference covers the payload, at its place in the stream. -/
theorem validObjectPayloadRef_staged {payload : ExternalPayloadRef} {startOffset endOffset : ℕ}
    (hvalid : validateExternalPayloadRef payload = .ok ())
    (hend : endOffset = startOffset + payload.payloadLen) (hmax : endOffset < maxValue) :
    validObjectPayloadRef
      ⟨startOffset, endOffset, payload.s3Path, payload.objectSize, 0⟩ = true := by
  unfold validateExternalPayloadRef at hvalid
  split_ifs at hvalid with hblank hzero hsize
  have hlen : endOffset - startOffset = payload.payloadLen := by omega
  have hadd : checkedAdd 0 payload.payloadLen = some payload.payloadLen := by
    unfold checkedAdd
    rw [Nat.zero_add, if_pos (by omega)]
  have hpath : isBlank payload.s3Path = false := by simpa using hblank
  have hrange : endOffset > startOffset := by omega
  unfold validObjectPayloadRef validSlice
  simp [hlen, hadd, hpath, hrange, not_lt.mp hsize]

theorem sound_createdSlot {input : NewStream} (hpayload : input.Payload) (history : HistoryId)
    (createdAtMs : ℕ) : (state.createdSlot input history createdAtMs).Sound := by
  have hcold : (state.createdSlot input history createdAtMs).cold.coldChunks = [] := rfl
  refine ⟨?_, by simp [hcold], by simp [hcold], by simp [hcold], fun _ => Nat.zero_le _, ?_, ?_⟩
  · show HotBlocks.InOrder input.initialLen input.hotBuffer.blocks
    cases hpayload with
    | inline payload hlen hhot hext =>
      rw [hlen, hhot]
      refine (HotBlocks.InOrder.push (.nil 0) payload).mono ?_
      unfold satAdd
      omega
    | external payload hvalid hlen hhot hext =>
      rw [hhot]
      exact .nil _
  · rintro _ snapshot ⟨⟩
  · intro htail object hobject
    replace hobject : object ∈ input.externalSegments := hobject
    cases hpayload with
    | inline payload hlen hhot hext =>
      rw [hext] at hobject
      cases hobject
    | external payload hvalid hlen hhot hext =>
      rw [hext, mem_singleton] at hobject
      subst hobject
      refine validObjectPayloadRef_staged hvalid (Nat.zero_add _).symm ?_
      rw [← hlen]
      exact htail

section Writes

variable (h : slot.Sound)
include h

/-- A write moves the tail up: what lay below it stays there. -/
theorem StreamSlot.Sound.write {written : StreamSlot} (len : ℕ)
    (htail : written.metadata.tailOffset = satAdd slot.metadata.tailOffset len)
    (hhot : HotBlocks.InOrder written.metadata.tailOffset written.hotBuffer.blocks)
    (hstart : ∀ block ∈ written.hotBuffer.blocks,
      (∃ old ∈ slot.hotBuffer.blocks, block.startOffset = old.startOffset) ∨
        min slot.metadata.tailOffset maxValue ≤ block.startOffset)
    (hchunks : written.cold.coldChunks = slot.cold.coldChunks)
    (hexternal : written.metadata.tailOffset < maxValue → ∀ object ∈ written.cold.externalSegments,
      object ∈ slot.cold.externalSegments ∨ validObjectPayloadRef object = true)
    (hretained : written.retainedOffset = slot.retainedOffset)
    (hvisible : written.visibleSnapshot = slot.visibleSnapshot) : written.Sound := by
  have hbelow : written.metadata.tailOffset < maxValue →
      slot.metadata.tailOffset < maxValue ∧
        slot.metadata.tailOffset ≤ written.metadata.tailOffset := by
    intro hlt
    rw [htail] at hlt ⊢
    have heq := satAdd_eq_add hlt
    omega
  have hgrow : min slot.metadata.tailOffset maxValue ≤
      min written.metadata.tailOffset maxValue := by
    rw [htail]
    omega
  refine ⟨hhot, hchunks ▸ h.chunks, ?_, hchunks ▸ h.ordered, fun hlt => ?_, fun hlt => ?_,
    fun hlt object hobject => ?_⟩
  · rw [hchunks]
    intro chunk hchunk
    obtain ⟨hle, hblocks⟩ := h.cold chunk hchunk
    refine ⟨hle.trans hgrow, fun block hblock => ?_⟩
    obtain ⟨old, hold, heq⟩ | hstart := hstart block hblock
    · rw [heq]
      exact hblocks old hold
    · exact hle.trans hstart
  · rw [hretained]
    exact (h.retained (hbelow hlt).1).trans (hbelow hlt).2
  · rw [hvisible]
    exact fun snapshot hsnapshot => (h.visible (hbelow hlt).1 snapshot hsnapshot).trans
      (hbelow hlt).2
  · obtain hold | hvalid := hexternal hlt object hobject
    · exact h.external (hbelow hlt).1 object hold
    · exact hvalid

theorem sound_closed (input : AppendStreamInput) (history : ℕ)
    (gate : Option (WriteKey × Advance)) : (input.closed history slot gate).Sound := by
  unfold AppendStreamInput.closed
  refine h.write input.payload.length (by simp) ?_
    (fun block hblock => .inl ⟨block, by simpa using hblock, rfl⟩)
    (by simp) (fun _ object hobject => .inl (by simpa using hobject)) (by simp) (by simp)
  rw [StreamSlot.write_hotBuffer, StreamSlot.write_metadata, writeMetadata_tailOffset]
  refine h.hot.mono ?_
  unfold satAdd
  omega

theorem sound_written (input : AppendStreamInput) (history : ℕ)
    (gate : Option (WriteKey × Advance)) : (input.written history slot gate).Sound := by
  unfold AppendStreamInput.written
  simp only [StreamSlot.write_hotBuffer]
  refine h.write input.payload.length (by simp) ?_
    (fun block hblock => HotBlocks.start_of_mem_push hblock) (by simp)
    (fun _ object hobject => .inl (by simpa using hobject)) (by simp) (by simp)
  rw [StreamSlot.write_metadata, writeMetadata_tailOffset]
  exact h.hot.push input.payload

theorem sound_writtenExternal {input : AppendExternalInput}
    (hvalid : validateExternalPayloadRef input.payload = .ok ()) (history : ℕ)
    (gate : Option (WriteKey × Advance)) : (input.written history slot gate).Sound := by
  unfold AppendExternalInput.written
  simp only [StreamSlot.write_metadata, StreamSlot.write_cold]
  refine h.write input.payload.payloadLen (by simp) ?_
    (fun block hblock => .inl ⟨block, by simpa using hblock, rfl⟩) rfl
      (fun hlt object hobject => ?_) (by simp) (by simp)
  · rw [StreamSlot.write_hotBuffer, writeMetadata_tailOffset]
    refine h.hot.mono ?_
    unfold satAdd
    omega
  · rw [writeMetadata_tailOffset] at hlt
    obtain hobject | hobject := mem_append.mp hobject
    · exact .inl hobject
    rw [mem_singleton] at hobject
    subst hobject
    rw [writeMetadata_tailOffset]
    exact .inr (validObjectPayloadRef_staged hvalid (satAdd_eq_add hlt) hlt)

/-- References left out of a slot leave it sound. -/
theorem StreamSlot.Sound.filter (cold : StreamColdState)
    (hchunks : cold.coldChunks.Sublist slot.cold.coldChunks)
    (hexternal : cold.externalSegments ⊆ slot.cold.externalSegments) :
    { slot with cold := cold }.Sound :=
  ⟨h.hot, fun chunk hchunk => h.chunks chunk (hchunks.subset hchunk),
    fun chunk hchunk => h.cold chunk (hchunks.subset hchunk), h.ordered.sublist hchunks,
    h.retained, h.visible, fun hlt object hobject => h.external hlt object (hexternal hobject)⟩

/-- A slot after hot bytes below `offset` are dropped. -/
theorem StreamSlot.Sound.discard (offset : ℕ) :
    { slot with hotBuffer := slot.hotBuffer.flushPrefix offset }.Sound := by
  refine ⟨h.hot.flush offset, h.chunks, fun chunk hchunk => ?_, h.ordered, h.retained, h.visible,
    h.external⟩
  obtain ⟨hle, hblocks⟩ := h.cold chunk hchunk
  refine ⟨hle, fun block hblock => ?_⟩
  obtain hold | ⟨old, hold, hlt, -, rfl, -⟩ := HotBlocks.of_mem_flush hblock
  · exact hblocks block hold
  · exact (hblocks old hold).trans hlt.le

end Writes

/-- Blocks that meet reach no further than the end of the offsets. -/
theorem HotBlocks.le_maxValue_of_reachExactly {endOffset covered : ℕ} {blocks : List HotBlock}
    (h : HotBlocks.reachExactly endOffset covered blocks = true) : endOffset ≤ maxValue := by
  induction blocks generalizing covered with
  | nil => cases h
  | cons block rest ih =>
    unfold HotBlocks.reachExactly at h
    split_ifs at h with hstart hend
    · exact hend.trans (HotBlocks.endOffset_le_maxValue block)
    · exact ih h

/-- What the range checks of a flush say. -/
structure FlushRange (slot : StreamSlot) (chunk : ColdChunkRef) : Prop where
  nonempty : chunk.startOffset < chunk.endOffset
  sliced : ∃ sliceEnd, checkedAdd chunk.objectOffset (chunk.endOffset - chunk.startOffset) =
    some sliceEnd ∧ sliceEnd ≤ chunk.objectSize
  tail : chunk.endOffset ≤ slot.metadata.tailOffset
  covered : slot.hotBuffer.coversPrefix chunk.startOffset chunk.endOffset = true

variable {chunk : ColdChunkRef}

theorem flushRange_of_ok [Blake3] (h : checkChunkRange slot chunk = .ok ()) :
    FlushRange slot chunk := by
  unfold checkChunkRange at h
  dsimp only at h
  split_ifs at h with hempty hslice hown htail hstart hcovers
  simp only [Option.all_eq_true, decide_eq_true_eq, not_forall, not_lt] at hslice
  obtain ⟨sliceEnd, hadd, hle⟩ := hslice
  exact ⟨not_le.mp hempty, ⟨sliceEnd, hadd, hle⟩, not_lt.mp htail, hcovers⟩

/-- A flush starts at the first hot block. -/
theorem FlushRange.first (h : FlushRange slot chunk) :
    (∃ block ∈ slot.hotBuffer.blocks, block.startOffset = chunk.startOffset) ∧
      chunk.endOffset ≤ maxValue := by
  have hcovered := h.covered
  unfold HotBuffer.coversPrefix at hcovered
  split at hcovered
  · cases hcovered
  · next first rest hblocks =>
    split_ifs at hcovered with hstart
    exact ⟨⟨first, by simp [hblocks], not_not.mp hstart⟩,
      HotBlocks.le_maxValue_of_reachExactly hcovered⟩

theorem validColdChunkRef_of_flush {id : BucketStreamId} (hchunk : checkChunk id chunk = .ok ())
    (hrange : FlushRange slot chunk) :
    validColdChunkRef chunk = true := by
  unfold checkChunk at hchunk
  split_ifs at hchunk with hblank
  obtain ⟨sliceEnd, hadd, hle⟩ := hrange.sliced
  have hpath : isBlank chunk.s3Path = false := by simpa using hblank
  have hnonempty : chunk.endOffset > chunk.startOffset := hrange.nonempty
  unfold validColdChunkRef validSlice
  simp [hadd, hpath, hnonempty, hle]

theorem sound_flushedSlot (h : slot.Sound) (hchunk : checkChunk slot.id chunk = .ok ())
    (hrange : FlushRange slot chunk) :
    (flushedSlot slot chunk).Sound := by
  have hdiscard := h.discard chunk.endOffset
  unfold flushedSlot StreamColdState.pushColdChunk
  by_cases hshared : chunk.sharedObject = true
  · rw [if_pos hshared]
    obtain ⟨⟨first, hfirst, hstart⟩, hmax⟩ := hrange.first
    refine ⟨hdiscard.hot, fun other hother => ?_, fun other hother => ?_, ?_, h.retained, h.visible,
      h.external⟩
    · obtain hother | hother := mem_append.mp hother
      · exact h.chunks other hother
      · obtain rfl := mem_singleton.mp hother
        exact ⟨hshared, hrange.nonempty, validColdChunkRef_of_flush hchunk hrange⟩
    · obtain hother | hother := mem_append.mp hother
      · exact hdiscard.cold other hother
      · obtain rfl := mem_singleton.mp hother
        exact ⟨le_min hrange.tail hmax, fun block hblock => h.hot.le_start_of_mem_flush hblock⟩
    · refine pairwise_append.mpr ⟨h.ordered, pairwise_singleton _ _, ?_⟩
      intro other hother new hnew
      obtain rfl := mem_singleton.mp hnew
      rw [← hstart]
      exact (h.cold other hother).2 first hfirst
  · rw [if_neg hshared]
    exact hdiscard

/-- Every change of a slot keeps it sound. -/
theorem sound_slotAfter [Blake3] {act : Act} {slot' : StreamSlot} (henabled : act.Enabled state)
    (hact : act.slot = some slot) (hafter : act.slotAfter state = some slot') (h : slot.Sound) :
    slot'.Sound := by
  cases act <;> cases hact
  case renew nowMs =>
    cases hafter
    refine h.congr ?_ rfl rfl rfl rfl
    unfold renewStreamTtl
    split_ifs <;> rfl
  case retire producerIds =>
    cases hafter
    rw [StreamSlot.retireProducers_eq]
    exact h.congr rfl rfl rfl rfl rfl
  case append input gate messageCount =>
    simp only [Act.slotAfter] at hafter
    split_ifs at hafter <;> cases hafter
    · exact sound_closed h input _ gate
    · exact (sound_written h input _ gate).congr rfl rfl rfl rfl rfl
  case appendExternal input gate =>
    cases hafter
    exact (sound_writtenExternal h henabled.2.2.2.1 _ gate).congr rfl rfl rfl rfl rfl
  case publish snapshot nowMs =>
    cases hafter
    refine ⟨h.hot, h.chunks, h.cold, h.ordered, h.retained, fun _ published hpublished => ?_,
      h.external⟩
    cases hpublished
    exact henabled.2.2.1
  case retain retainedOffset nowMs =>
    obtain ⟨-, -, -, snapshot, hsnapshot, hle⟩ := henabled
    cases hafter
    have htrimmed := (h.discard retainedOffset).filter (slot.cold.compactBefore retainedOffset).1
      filter_sublist filter_sublist.subset
    exact ⟨htrimmed.hot, htrimmed.chunks, htrimmed.cold, htrimmed.ordered,
      fun hlt => hle.trans (h.visible hlt snapshot hsnapshot), htrimmed.visible, htrimmed.external⟩
  case flush chunk =>
    cases hafter
    exact sound_flushedSlot h henabled.2.2.1 (flushRange_of_ok henabled.2.2.2)
  case compact oldChunks gcNotBeforeMs =>
    cases hafter
    exact h.filter _ filter_sublist (List.Subset.refl _)
  case drop oldChunks =>
    cases hafter
    exact h.filter _ filter_sublist (List.Subset.refl _)
  case offload refs =>
    cases hafter
    exact h.filter _ (List.Sublist.refl _) filter_sublist.subset

theorem kept_sound [Blake3] (allowed : Act → Prop) :
    Kept allowed (GroupState.AllSlots StreamSlot.Sound) :=
  kept_allSlots (fun henabled => sound_createdSlot henabled.2.2.2.2.2 _ _)
    (fun henabled _ hact hafter h => sound_slotAfter henabled hact hafter h)
    (fun h => h.congr rfl rfl rfl rfl rfl)

/-- **Soundness.** Every live slot of a run is sound. -/
theorem Run.sound [Blake3] {γ : Type} {observer : Observer γ} {permits : Permit γ}
    {machine : StreamStateMachine} {ghost : γ} (hrun : Run observer permits machine ghost)
    {id : BucketStreamId} {slot : StreamSlot} (hslot : machine.streamSlot id = some slot) :
    slot.Sound := by
  rw [streamSlot_eq] at hslot
  exact hrun.invariant (kept_sound fun _ => True) (fun _ _ _ _ => trivial) id slot hslot

end Sound

/-! ## What a restore checks -/

section Checks

variable {slot : StreamSlot}

end Checks

end Ursula

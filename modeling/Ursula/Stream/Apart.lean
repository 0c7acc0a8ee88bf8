import Ursula.Stream.HotMap
import Ursula.Stream.SlotSound

/-!
# Where a stream's bytes are

Each byte of a stream that the group's state still names is named once: it is hot, or in a slice of
a shared object, or in an external object, and never in two of them. A slice takes its range from
the hot bytes it flushes, and an external object its range from the tail it moves.

The offsets are those below the last one, which is where a saturated tail stays.

## Main definitions

* `StreamSlot.Apart`: the external objects of a slot hold no offset that something else holds

## Main results

* `apart_slotAfter`: every change of a slot keeps them apart
* `Run.apart`: the external objects of every live slot of a run are apart
-/

namespace Ursula

open Word64 StreamStateMachine List

/-- Whether an offset lies in a chunk. -/
def ColdChunkRef.Holds (chunk : ColdChunkRef) (i : ℕ) : Prop :=
  chunk.startOffset ≤ i ∧ i < chunk.endOffset

/-- Whether an offset lies in an external object. -/
def ObjectPayloadRef.Holds (object : ObjectPayloadRef) (i : ℕ) : Prop :=
  object.startOffset ≤ i ∧ i < object.endOffset

/-- The external objects of a slot lie below its tail and hold no offset that another reference or
the hot buffer holds. -/
structure StreamSlot.Apart (slot : StreamSlot) : Prop where
  range : ∀ object ∈ slot.cold.externalSegments, object.startOffset ≤ object.endOffset ∨
    maxValue ≤ object.startOffset
  below : ∀ object ∈ slot.cold.externalSegments, ∀ i < maxValue, object.Holds i →
    i < slot.metadata.tailOffset
  hot : ∀ object ∈ slot.cold.externalSegments, ∀ i < maxValue, object.Holds i →
    slot.hotBuffer.map i = none
  chunk : ∀ object ∈ slot.cold.externalSegments, ∀ chunk ∈ slot.cold.coldChunks, ∀ i < maxValue,
    object.Holds i → ¬ chunk.Holds i
  external : slot.cold.externalSegments.Pairwise fun a b =>
    ∀ i < maxValue, a.Holds i → ¬ b.Holds i

/-! ## Hot bytes -/

namespace HotBlocks

variable {blocks : List HotBlock} {i : ℕ}

theorem le_of_held_chunks {fuel offset : ℕ} {payload : Bytes} (hmax : i < maxValue)
    (h : held (chunks fuel offset payload) i ≠ none) : offset ≤ i := by
  obtain ⟨block, hblock, hstart, -⟩ := exists_of_held h
  have := le_start_of_mem_chunks hblock
  omega

/-- A byte after an append was there, or is the append's. -/
theorem held_of_held_push {start : ℕ} {payload : Bytes} (hmax : i < maxValue)
    (h : held (push start payload blocks) i ≠ none) : held blocks i ≠ none ∨ start ≤ i := by
  fun_induction push start payload blocks with
  | case1 => exact .inr (le_of_held_chunks hmax h)
  | case2 last hlast take =>
    by_cases hi : start ≤ i
    · exact .inr hi
    refine .inl ?_
    by_cases hin : last.startOffset ≤ i
    · exact held_cons_ne_none hin (by omega)
    rw [held_cons_of_lt (by simpa using hin)] at h
    have := le_of_held_chunks hmax h
    unfold satAdd at this
    omega
  | case3 last hlast =>
    by_cases hin : last.startOffset ≤ i ∧ i < last.endOffset
    · exact .inl (held_cons_ne_none hin.1 hin.2)
    · rw [held_cons_of_not_mem hin] at h
      exact .inr (le_of_held_chunks hmax h)
  | case4 block next rest ih =>
    by_cases hin : block.startOffset ≤ i ∧ i < block.endOffset
    · exact .inl (held_cons_ne_none hin.1 hin.2)
    · rw [held_cons_of_not_mem hin] at h
      rw [held_cons_of_not_mem hin]
      exact ih h

/-- A byte after a flush was there. -/
theorem held_of_held_flush {endOffset : ℕ} (h : held (flush endOffset blocks) i ≠ none) :
    held blocks i ≠ none := by
  obtain ⟨block, hblock, hstart, hend⟩ := exists_of_held h
  obtain hmem | ⟨old, hold, hlt, -, rfl, heq⟩ := of_mem_flush hblock
  · exact held_ne_none hmem hstart hend
  · exact held_ne_none hold (hlt.le.trans hstart) (heq ▸ hend)

/-- The bytes that blocks cover are hot. -/
theorem held_of_reachExactly {finish covered : ℕ} (h : reachExactly finish covered blocks = true)
    (hstart : covered ≤ i) (hend : i < finish) : held blocks i ≠ none := by
  induction blocks generalizing covered with
  | nil => cases h
  | cons block rest ih =>
    by_cases hin : block.startOffset ≤ i ∧ i < block.endOffset
    · exact held_cons_ne_none hin.1 hin.2
    unfold reachExactly at h
    split_ifs at h with hne hle
    · omega
    · rw [held_cons_of_not_mem hin]
      exact ih h (by omega)

end HotBlocks

theorem FlushRange.held {slot : StreamSlot} {chunk : ColdChunkRef} (h : FlushRange slot chunk)
    {i : ℕ} (hi : chunk.Holds i) : slot.hotBuffer.map i ≠ none := by
  have hcovered := h.covered
  unfold HotBuffer.coversPrefix at hcovered
  split at hcovered
  · cases hcovered
  · split_ifs at hcovered
    exact HotBlocks.held_of_reachExactly hcovered hi.1 hi.2

/-! ## The changes of a slot -/

namespace StreamSlot.Apart

variable {slot : StreamSlot} {slot' : StreamSlot}

/-- The fields that the places of bytes are about decide them. -/
theorem congr (h : slot.Apart) (htail : slot'.metadata.tailOffset = slot.metadata.tailOffset)
    (hhot : slot'.hotBuffer = slot.hotBuffer) (hcold : slot'.cold = slot.cold) : slot'.Apart := by
  constructor
  all_goals simp only [htail, hhot, hcold]
  exacts [h.range, h.below, h.hot, h.chunk, h.external]

/-- References left out, hot bytes dropped and a tail moved up leave the rest apart. -/
theorem shrink (h : slot.Apart)
    (htail : ∀ i < maxValue, i < slot.metadata.tailOffset → i < slot'.metadata.tailOffset)
    (hhot : ∀ i < maxValue, slot'.hotBuffer.map i ≠ none →
      slot.hotBuffer.map i ≠ none ∨ slot.metadata.tailOffset ≤ i)
    (hchunks : slot'.cold.coldChunks ⊆ slot.cold.coldChunks)
    (hexternal : slot'.cold.externalSegments.Sublist slot.cold.externalSegments) :
    slot'.Apart where
  range := fun object hobject => h.range object (hexternal.subset hobject)
  below := fun object hobject i hi hin =>
    htail i hi (h.below object (hexternal.subset hobject) i hi hin)
  hot := fun object hobject i hi hin => by
    by_contra hheld
    obtain hold | hle := hhot i hi hheld
    · exact hold (h.hot object (hexternal.subset hobject) i hi hin)
    · have := h.below object (hexternal.subset hobject) i hi hin
      omega
  chunk := fun object hobject chunk hchunk =>
    h.chunk object (hexternal.subset hobject) chunk (hchunks hchunk)
  external := h.external.sublist hexternal

end StreamSlot.Apart

section Changes

variable {state : GroupState} {slot : StreamSlot}

theorem apart_createdSlot {input : NewStream} (hpayload : input.Payload) (history : HistoryId)
    (createdAtMs : ℕ) : (state.createdSlot input history createdAtMs).Apart := by
  have hexternal : (state.createdSlot input history createdAtMs).cold.externalSegments =
    input.externalSegments := rfl
  have hchunks : (state.createdSlot input history createdAtMs).cold.coldChunks = [] := rfl
  cases hpayload with
  | inline payload hlen hhot hext => constructor <;> simp [hexternal, hchunks, hext]
  | external payload hvalid hlen hhot hext =>
    refine ⟨fun object hobject => .inl ?_, fun object hobject i _ hin => ?_,
      fun object hobject i _ hin => ?_, by simp [hchunks], ?_⟩
    · obtain rfl := mem_singleton.mp (hext ▸ hexternal ▸ hobject)
      exact Nat.zero_le _
    · obtain rfl := mem_singleton.mp (hext ▸ hexternal ▸ hobject)
      show i < input.initialLen
      exact hlen ▸ hin.2
    · show HotBlocks.held input.hotBuffer.blocks i = none
      rw [hhot]
      rfl
    · rw [hexternal, hext]
      exact pairwise_singleton _ _

theorem apart_writtenExternal (hsound : slot.Sound) (h : slot.Apart) (input : AppendExternalInput)
    (history : ℕ) (gate : Option (WriteKey × Advance)) :
    (input.written history slot gate).Apart := by
  unfold AppendExternalInput.written
  have htail : ∀ i < maxValue, i < slot.metadata.tailOffset →
      i < satAdd slot.metadata.tailOffset input.payload.payloadLen := by
    unfold satAdd
    omega
  simp only [StreamSlot.write_metadata, StreamSlot.write_cold]
  have hbelow : ∀ object ∈ slot.cold.externalSegments, ∀ i < maxValue, object.Holds i →
      ¬ slot.metadata.tailOffset ≤ i := fun object hobject i hi hin =>
    not_le.mpr (h.below object hobject i hi hin)
  constructor
  · intro object hobject
    obtain hobject | hobject := mem_append.mp hobject
    · exact h.range object hobject
    obtain rfl := mem_singleton.mp hobject
    simp only [writeMetadata_tailOffset]
    unfold satAdd
    omega
  · intro object hobject i hi hin
    rw [writeMetadata_tailOffset]
    obtain hobject | hobject := mem_append.mp hobject
    · exact htail i hi (h.below object hobject i hi hin)
    · obtain rfl := mem_singleton.mp hobject
      exact writeMetadata_tailOffset .. ▸ hin.2
  · intro object hobject i hi hin
    simp only [StreamSlot.write_hotBuffer]
    obtain hobject | hobject := mem_append.mp hobject
    · exact h.hot object hobject i hi hin
    -- the hot bytes lie below the tail that the object moves
    obtain rfl := mem_singleton.mp hobject
    by_contra hheld
    obtain ⟨block, hblock, -, hend⟩ := HotBlocks.exists_of_held hheld
    have hbound := hsound.hot.bound block hblock
    have hle : slot.metadata.tailOffset ≤ i := hin.1
    omega
  · intro object hobject chunk hchunk i hi hin hheld
    obtain hobject | hobject := mem_append.mp hobject
    · exact h.chunk object hobject chunk hchunk i hi hin hheld
    obtain rfl := mem_singleton.mp hobject
    have hbound := (hsound.cold chunk hchunk).1
    have hle : slot.metadata.tailOffset ≤ i := hin.1
    have hlt := hheld.2
    omega
  · refine pairwise_append.mpr ⟨h.external, pairwise_singleton _ _, ?_⟩
    intro object hobject new hnew i hi hin hheld
    obtain rfl := mem_singleton.mp hnew
    exact hbelow object hobject i hi hin hheld.1

theorem apart_flushedSlot (h : slot.Apart) {chunk : ColdChunkRef} (hrange : FlushRange slot chunk) :
    (flushedSlot slot chunk).Apart := by
  have hdiscard : { slot with hotBuffer := slot.hotBuffer.flushPrefix chunk.endOffset }.Apart :=
    h.shrink (fun _ _ hlt => hlt) (fun _ _ hheld => .inl (HotBlocks.held_of_held_flush hheld))
      (List.Subset.refl _) (List.Sublist.refl _)
  unfold flushedSlot StreamColdState.pushColdChunk
  split_ifs
  · refine ⟨hdiscard.range, hdiscard.below, hdiscard.hot,
      fun object hobject other hother i hi hin => ?_, hdiscard.external⟩
    obtain hother | hother := mem_append.mp hother
    · exact h.chunk object hobject other hother i hi hin
    · -- the slice's range was hot
      obtain rfl := mem_singleton.mp hother
      exact fun hheld => hrange.held hheld (h.hot object hobject i hi hin)
  · exact hdiscard

/-- Every change of a slot keeps its references apart. -/
theorem apart_slotAfter [Blake3] {act : Act} (henabled : act.Enabled state)
    (hact : act.slot = some slot) (hafter : act.slotAfter state = some slot') (hsound : slot.Sound)
    (h : slot.Apart) : slot'.Apart := by
  have hgrow : ∀ len, ∀ i < maxValue, i < slot.metadata.tailOffset →
      i < satAdd slot.metadata.tailOffset len := by
    unfold satAdd
    omega
  cases act <;> cases hact
  case renew nowMs =>
    cases hafter
    refine h.congr ?_ rfl rfl
    unfold renewStreamTtl
    split_ifs <;> rfl
  case retire producerIds =>
    cases hafter
    rw [StreamSlot.retireProducers_eq]
    exact h.congr rfl rfl rfl
  case append input gate messageCount =>
    simp only [Act.slotAfter] at hafter
    split_ifs at hafter <;> cases hafter
    · unfold AppendStreamInput.closed
      refine h.shrink ?_ (fun i _ hheld => .inl ?_) (by simp) (by simp)
      · rw [StreamSlot.write_metadata, writeMetadata_tailOffset]
        exact hgrow _
      · rwa [StreamSlot.write_hotBuffer] at hheld
    · refine @StreamSlot.Apart.congr (input.written _ slot gate) _ ?_ rfl rfl rfl
      unfold AppendStreamInput.written
      simp only [StreamSlot.write_hotBuffer]
      refine h.shrink ?_ (fun i hi hheld => HotBlocks.held_of_held_push hi hheld)
        (by simp) (by simp)
      simp only [StreamSlot.write_metadata, writeMetadata_tailOffset]
      exact hgrow _
  case appendExternal input gate =>
    cases hafter
    exact (apart_writtenExternal hsound h input _ gate).congr rfl rfl rfl
  case publish snapshot nowMs =>
    cases hafter
    exact h.congr rfl rfl rfl
  case retain retainedOffset nowMs =>
    cases hafter
    exact h.shrink (fun _ _ hlt => hlt)
      (fun _ _ hheld => .inl (HotBlocks.held_of_held_flush hheld))
      filter_sublist.subset filter_sublist
  case flush chunk =>
    cases hafter
    exact apart_flushedSlot h (flushRange_of_ok henabled.2.2.2)
  case compact oldChunks gcNotBeforeMs =>
    cases hafter
    exact h.shrink (fun _ _ hlt => hlt) (fun _ _ => .inl) filter_sublist.subset
      (List.Sublist.refl _)
  case drop oldChunks =>
    cases hafter
    exact h.shrink (fun _ _ hlt => hlt) (fun _ _ => .inl) filter_sublist.subset
      (List.Sublist.refl _)
  case offload refs =>
    cases hafter
    exact h.shrink (fun _ _ hlt => hlt) (fun _ _ => .inl) (List.Subset.refl _) filter_sublist

theorem Run.apart [Blake3] {γ : Type} {observer : Observer γ} {permits : Permit γ}
    {machine : StreamStateMachine} {ghost : γ} (hrun : Run observer permits machine ghost)
    {id : BucketStreamId} {slot : StreamSlot} (hslot : machine.streamSlot id = some slot) :
    slot.Apart := by
  rw [streamSlot_eq] at hslot
  have hkept : Kept (fun _ => True) (GroupState.AllSlots fun slot => slot.Sound ∧ slot.Apart) :=
    kept_allSlots
      (fun henabled => ⟨sound_createdSlot henabled.2.2.2.2.2 _ _,
        apart_createdSlot henabled.2.2.2.2.2 _ _⟩)
      (fun henabled _ hact hafter h => ⟨sound_slotAfter henabled hact hafter h.1,
        apart_slotAfter henabled hact hafter h.1 h.2⟩)
      (fun h => ⟨h.1.congr rfl rfl rfl rfl rfl, h.2.congr rfl rfl rfl⟩)
  exact (hrun.invariant hkept (fun _ _ _ _ => trivial) id slot hslot).2

end Changes

end Ursula

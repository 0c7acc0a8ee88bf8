import Ursula.Stream.HotBuffer

/-!
# Hot blocks in order

A stream's hot blocks lie one after another below its tail: an append at the tail adds blocks at its
end, and a flush takes them from the front. The order holds even where the tail has saturated; a
block is as long as its range below the end of the offsets.

## Main definitions

* `HotBlocks.InOrder`: blocks one after another, none past a tail

## Main results

* `HotBlocks.InOrder.push`, `HotBlocks.InOrder.flush`: appends and flushes keep the order
* `HotBlocks.InOrder.le_start_of_mem_flush`: no block is left below the end of a flush
-/

namespace Ursula

open Word64 List

namespace HotBlocks

/-- Blocks one after another, none past `tail`. -/
structure InOrder (tail : ℕ) (blocks : List HotBlock) : Prop where
  sorted : blocks.Pairwise fun a b => a.endOffset ≤ b.startOffset
  bound : ∀ block ∈ blocks, block.endOffset ≤ tail

theorem endOffset_mk (startOffset : ℕ) (bytes : Bytes) :
    HotBlock.endOffset ⟨startOffset, bytes⟩ = satAdd startOffset bytes.length := rfl

theorem endOffset_le_maxValue (block : HotBlock) : block.endOffset ≤ maxValue :=
  satAdd_le_maxValue _ _

theorem InOrder.nil (tail : ℕ) : InOrder tail [] := ⟨.nil, by simp⟩

variable {block : HotBlock} {blocks : List HotBlock}

theorem inOrder_cons {tail : ℕ} :
    InOrder tail (block :: blocks) ↔
      block.endOffset ≤ tail ∧ (∀ other ∈ blocks, block.endOffset ≤ other.startOffset) ∧
        InOrder tail blocks := by
  constructor
  · rintro ⟨hsorted, hbound⟩
    rw [pairwise_cons] at hsorted
    rw [forall_mem_cons] at hbound
    exact ⟨hbound.1, hsorted.1, hsorted.2, hbound.2⟩
  · rintro ⟨hle, hfirst, hsorted, hbound⟩
    exact ⟨pairwise_cons.mpr ⟨hfirst, hsorted⟩, forall_mem_cons.mpr ⟨hle, hbound⟩⟩

theorem InOrder.mono {tail tail' : ℕ} (h : InOrder tail blocks) (hle : min tail maxValue ≤ tail') :
    InOrder tail' blocks := by
  refine ⟨h.sorted, fun block hblock => ?_⟩
  have hbound := h.bound block hblock
  have hmax := endOffset_le_maxValue block
  omega

/-! ## Appends -/

/-- The blocks of a payload start at its offset or later. -/
theorem le_start_of_mem_chunks {fuel offset : ℕ} {payload : Bytes}
    (h : block ∈ chunks fuel offset payload) : min offset maxValue ≤ block.startOffset := by
  induction fuel generalizing offset payload with
  | zero => cases h
  | succ fuel ih =>
    unfold chunks at h
    split_ifs at h
    · cases h
    obtain rfl | hrest := mem_cons.mp h
    · exact min_le_left _ _
    have hle := ih hrest
    have hmono : min offset maxValue ≤ satAdd offset (payload.take hotBlockBytes).length := by
      unfold satAdd
      omega
    omega

/-- The blocks of a payload lie one after another, none past its end. -/
theorem inOrder_chunks (fuel offset : ℕ) (payload : Bytes) :
    InOrder (satAdd offset payload.length) (chunks fuel offset payload) := by
  induction fuel generalizing offset payload with
  | zero => exact .nil _
  | succ fuel ih =>
    unfold chunks
    split_ifs
    · exact .nil _
    · set first := payload.take hotBlockBytes
      have hlength : first.length + (payload.drop hotBlockBytes).length = payload.length := by
        rw [← length_append, take_append_drop]
      refine inOrder_cons.mpr ⟨?_, fun other hother => ?_, (ih _ _).mono ?_⟩
      · rw [endOffset_mk]
        exact satAdd_mono le_rfl (by omega)
      · have hle := le_start_of_mem_chunks hother
        have hmax := satAdd_le_maxValue offset first.length
        show satAdd offset first.length ≤ other.startOffset
        omega
      · unfold satAdd
        omega

/-- A block after an append starts where one did, or at the append's offset or later. -/
theorem start_of_mem_push {startOffset : ℕ} {payload : Bytes}
    (h : block ∈ push startOffset payload blocks) :
    (∃ old ∈ blocks, block.startOffset = old.startOffset) ∨
      min startOffset maxValue ≤ block.startOffset := by
  fun_induction push startOffset payload blocks with
  | case1 => exact .inr (le_start_of_mem_chunks h)
  | case2 last hlast take =>
    obtain rfl | hrest := mem_cons.mp h
    · exact .inl ⟨last, by simp, rfl⟩
    · have hle := le_start_of_mem_chunks hrest
      unfold satAdd at hle
      exact .inr (by omega)
  | case3 last hlast =>
    obtain rfl | hrest := mem_cons.mp h
    · exact .inl ⟨block, by simp, rfl⟩
    · exact .inr (le_start_of_mem_chunks hrest)
  | case4 first next rest ih =>
    obtain rfl | hrest := mem_cons.mp h
    · exact .inl ⟨block, by simp, rfl⟩
    · obtain ⟨old, hold, heq⟩ | hle := ih hrest
      · exact .inl ⟨old, by simp [hold], heq⟩
      · exact .inr hle

theorem InOrder.push {tail : ℕ} (h : InOrder tail blocks) (payload : Bytes) :
    InOrder (satAdd tail payload.length) (HotBlocks.push tail payload blocks) := by
  have hgrow : min tail maxValue ≤ satAdd tail payload.length := by
    unfold satAdd
    omega
  fun_induction HotBlocks.push tail payload blocks with
  | case1 => exact inOrder_chunks _ _ _
  | case2 last hlast take =>
    obtain ⟨hend, -⟩ := hlast
    -- the last block grows to where the new ones start
    have hlength : (payload.take take).length + (payload.drop take).length = payload.length := by
      rw [← length_append, take_append_drop]
    have htake : (payload.take take).length = take := by
      simp only [length_take, take]
      omega
    have hgrown : HotBlock.endOffset ⟨last.startOffset, last.bytes ++ payload.take take⟩ =
        satAdd tail take := by
      rw [endOffset_mk, length_append, htake]
      unfold HotBlock.endOffset satAdd at hend
      unfold satAdd
      omega
    refine inOrder_cons.mpr ⟨?_, fun other hother => ?_, (inOrder_chunks _ _ _).mono ?_⟩
    · rw [hgrown]
      exact satAdd_mono le_rfl (by omega)
    · have hle := le_start_of_mem_chunks hother
      have hmax := satAdd_le_maxValue tail take
      omega
    · unfold satAdd
      omega
  | case3 last hlast =>
    have hbound := h.bound last (by simp)
    have hmax := endOffset_le_maxValue last
    refine inOrder_cons.mpr ⟨by omega, fun other hother => ?_, inOrder_chunks _ _ _⟩
    have hle := le_start_of_mem_chunks hother
    omega
  | case4 first next rest ih =>
    obtain ⟨hle, hfirst, hrest⟩ := inOrder_cons.mp h
    have hmax := endOffset_le_maxValue first
    refine inOrder_cons.mpr ⟨by omega, fun other hother => ?_, ih hrest⟩
    obtain ⟨old, hold, heq⟩ | hstart := start_of_mem_push hother
    · rw [heq]
      exact hfirst old hold
    · omega

/-! ## Flushes -/

/-- A block left by a flush is one of the blocks, or the trimmed part of one, to the same end. -/
theorem of_mem_flush {endOffset : ℕ} (h : block ∈ flush endOffset blocks) :
    block ∈ blocks ∨ ∃ old ∈ blocks, old.startOffset < endOffset ∧ endOffset < old.endOffset ∧
      block = ⟨endOffset, old.bytes.drop (endOffset - old.startOffset)⟩ ∧
      block.endOffset = old.endOffset := by
  fun_induction flush endOffset blocks with
  | case1 => cases h
  | case2 front rest hle ih =>
    obtain hmem | ⟨old, hold, htrim⟩ := ih h
    · exact .inl (by simp [hmem])
    · exact .inr ⟨old, by simp [hold], htrim⟩
  | case3 front rest hle hlt drainLen =>
    obtain rfl | hrest := mem_cons.mp h
    · have hend : endOffset < satAdd front.startOffset front.bytes.length := not_le.mp hle
      have hdrain : drainLen = endOffset - front.startOffset := by
        unfold satAdd at hend
        omega
      refine .inr ⟨front, by simp, hlt, hend, by rw [hdrain], ?_⟩
      rw [endOffset_mk, hdrain, length_drop]
      unfold HotBlock.endOffset
      unfold satAdd at hend ⊢
      omega
    · exact .inl (by simp [hrest])
  | case4 front rest hle hlt => exact .inl h

/-- No block is left below the end of a flush. -/
theorem InOrder.le_start_of_mem_flush {tail endOffset : ℕ} (h : InOrder tail blocks)
    (hblock : block ∈ HotBlocks.flush endOffset blocks) :
    endOffset ≤ block.startOffset := by
  fun_induction HotBlocks.flush endOffset blocks with
  | case1 => cases hblock
  | case2 front rest hle ih => exact ih (inOrder_cons.mp h).2.2 hblock
  | case3 front rest hle hlt drainLen =>
    obtain rfl | hrest := mem_cons.mp hblock
    · exact le_rfl
    · have hfirst := (inOrder_cons.mp h).2.1 block hrest
      omega
  | case4 front rest hle hlt =>
    obtain rfl | hrest := mem_cons.mp hblock
    · exact not_lt.mp hlt
    · have hfirst := (inOrder_cons.mp h).2.1 block hrest
      omega

theorem InOrder.flush {tail : ℕ} (h : InOrder tail blocks) (endOffset : ℕ) :
    InOrder tail (HotBlocks.flush endOffset blocks) := by
  fun_induction HotBlocks.flush endOffset blocks with
  | case1 => exact .nil _
  | case2 front rest hle ih => exact ih (inOrder_cons.mp h).2.2
  | case3 front rest hle hlt drainLen =>
    obtain ⟨hbound, hfirst, hrest⟩ := inOrder_cons.mp h
    have hend : HotBlock.endOffset ⟨endOffset, front.bytes.drop drainLen⟩ = front.endOffset := by
      rw [endOffset_mk, length_drop]
      unfold HotBlock.endOffset satAdd at hle ⊢
      omega
    exact inOrder_cons.mpr ⟨hend ▸ hbound, fun other hother => hend ▸ hfirst other hother, hrest⟩
  | case4 front rest hle hlt => exact h

/-! ## Lengths below the end of the offsets -/

end HotBlocks

end Ursula

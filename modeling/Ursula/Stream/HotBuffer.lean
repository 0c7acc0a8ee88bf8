import Ursula.Stream.Text

/-!
# The hot buffer

The bytes of a stream that the group still holds in memory, in blocks of at most `hotBlockBytes`.
A block ends where the next append is not contiguous or where it is full; a flush drops whole
blocks and trims at most one.

The buffer carries the facts that every operation keeps, whatever its argument: its length is the
sum of its blocks', and no block is empty. That its blocks are in order is a fact about a stream's
history, and no part of the buffer.

## Main definitions

* `HotBlock`, `HotBuffer`: blocks and buffers
* `HotBuffer.pushSlice`, `HotBuffer.flushPrefix`: an append and a flush
* `HotBuffer.byteAt`, `HotBuffer.covers`, `HotBuffer.coversPrefix`, `HotBuffer.digestPrefix`: what
  apply asks of the buffer
* `HotBuffer.readSegments`, `HotBuffer.lfEnds`, `HotBuffer.planColdFlushFrom`: what reads and flush
  plans ask of it
* `HotBuffer.hotSegments`, `HotBuffer.fromSnapshot`: the buffer in a snapshot

## Main results

* `HotBuffer.fromSnapshot_hotSegments`: a snapshot restores the blocks it was taken of
-/

namespace Ursula

open Word64 List

/-- The payload bytes one hot block holds before the next append starts a new block. -/
def hotBlockBytes : ℕ := 64 * 1024

/-- A run of bytes at its offset in the stream. -/
structure HotBlock where
  startOffset : ℕ
  bytes : Bytes
deriving DecidableEq

/-- The offset after the block's last byte. -/
def HotBlock.endOffset (block : HotBlock) : ℕ := satAdd block.startOffset block.bytes.length

/-- The bytes `lo..hi` of a payload, when it has them. -/
def getRange (payload : Bytes) (lo hi : ℕ) : Option Bytes :=
  if lo ≤ hi ∧ hi ≤ payload.length then some ((payload.drop lo).take (hi - lo)) else none

/-- The lowercase hexadecimal text of a byte string. -/
def toHex (bytes : Bytes) : String :=
  String.ofList (bytes.flatMap fun byte =>
    [Nat.digitChar (byte.toNat / 16), Nat.digitChar (byte.toNat % 16)])

namespace HotBlocks

/-- The bytes of blocks. -/
def byteCount (blocks : List HotBlock) : ℕ := (blocks.map fun block => block.bytes.length).sum

/-- The blocks of a payload at `offset`, each full but the last. The payload's length is enough
fuel. -/
def chunks : (fuel offset : ℕ) → Bytes → List HotBlock
  | 0, _, _ => []
  | fuel + 1, offset, payload =>
    if payload = [] then
      []
    else
      ⟨offset, payload.take hotBlockBytes⟩ ::
        chunks fuel (satAdd offset (payload.take hotBlockBytes).length) (payload.drop hotBlockBytes)

/-- The blocks after an append of `payload` at `startOffset`: it fills the last block when it
continues it, and the rest goes to new blocks. An empty payload changes nothing. -/
def push (startOffset : ℕ) (payload : Bytes) : List HotBlock → List HotBlock
  | [] => chunks payload.length startOffset payload
  | [last] =>
    if last.endOffset = startOffset ∧ last.bytes.length < hotBlockBytes then
      let take := min payload.length (hotBlockBytes - last.bytes.length)
      ⟨last.startOffset, last.bytes ++ payload.take take⟩ ::
        chunks payload.length (satAdd startOffset take) (payload.drop take)
    else
      last :: chunks payload.length startOffset payload
  | block :: next :: rest => block :: push startOffset payload (next :: rest)

/-- The blocks at or above `endOffset`: whole blocks below it are gone and the first one left is
trimmed to it. -/
def flush (endOffset : ℕ) : List HotBlock → List HotBlock
  | [] => []
  | front :: rest =>
    if front.endOffset ≤ endOffset then
      flush endOffset rest
    else if front.startOffset < endOffset then
      let drainLen := min (endOffset - front.startOffset) front.bytes.length
      ⟨endOffset, front.bytes.drop drainLen⟩ :: rest
    else
      front :: rest

/-- How many bytes `flush` drops. -/
def flushedLen (endOffset : ℕ) : List HotBlock → ℕ
  | [] => 0
  | front :: rest =>
    if front.endOffset ≤ endOffset then
      front.bytes.length + flushedLen endOffset rest
    else if front.startOffset < endOffset then
      min (endOffset - front.startOffset) front.bytes.length
    else
      0

/-- The blocks from the first one that ends after `offset`. -/
def endingAfter (offset : ℕ) (blocks : List HotBlock) : List HotBlock :=
  blocks.dropWhile fun block => block.endOffset ≤ offset

/-- The payload of at most `maxFlushBytes` contiguous bytes from `fromOffset` on, with `payload`
gathered so far. -/
def planFrom (fromOffset maxFlushBytes : ℕ) : (payload : Bytes) → List HotBlock → Bytes
  | payload, [] => payload
  | payload, block :: rest =>
    if block.startOffset > satAdd fromOffset payload.length then
      payload
    else if payload.length ≥ maxFlushBytes then
      payload
    else
      let skip := min (fromOffset - block.startOffset) block.bytes.length
      let available := block.bytes.drop skip
      let take := min available.length (maxFlushBytes - payload.length)
      if take < available.length then
        payload ++ available.take take
      else
        planFrom fromOffset maxFlushBytes (payload ++ available.take take) rest

/-- The parts of a range in the blocks, each at its offset. -/
def readFrom (offset nextOffset : ℕ) : List HotBlock → List (ℕ × Bytes)
  | [] => []
  | block :: rest =>
    if block.startOffset ≥ nextOffset then
      []
    else
      let start := max offset block.startOffset
      let finish := min nextOffset block.endOffset
      if start < finish then
        match getRange block.bytes (start - block.startOffset) (finish - block.startOffset) with
        | some bytes => (start, bytes) :: readFrom offset nextOffset rest
        | none => readFrom offset nextOffset rest
      else
        readFrom offset nextOffset rest

/-- The message ends in the bytes at `cursor`, from their `index` on, after the `ends` found so far,
and whether the scan is over. -/
def lfScan (limit cursor : ℕ) : (index : ℕ) → (ends : List ℕ) → Bytes → List ℕ × Bool
  | _, ends, [] => (ends, false)
  | index, ends, byte :: rest =>
    if byte = lf then
      let finish := satAdd (satAdd cursor index) 1
      if finish > limit ∧ ends ≠ [] then
        (ends, true)
      else if finish ≥ limit then
        (ends ++ [finish], true)
      else
        lfScan limit cursor (index + 1) (ends ++ [finish]) rest
    else
      lfScan limit cursor (index + 1) ends rest

/-- The message ends in the blocks from `cursor` on, after the `ends` found so far. -/
def lfEndsFrom (endOffset limit : ℕ) : (cursor : ℕ) → (ends : List ℕ) → List HotBlock → List ℕ
  | _, ends, [] => ends
  | cursor, ends, block :: rest =>
    if block.startOffset > cursor ∨ cursor ≥ endOffset then
      ends
    else
      let upTo := min endOffset block.endOffset
      match getRange block.bytes (cursor - block.startOffset) (upTo - block.startOffset) with
      | none => ends
      | some bytes =>
        match lfScan limit cursor 0 ends bytes with
        | (ends, true) => ends
        | (ends, false) => lfEndsFrom endOffset limit upTo ends rest

/-- Whether contiguous blocks reach `endOffset`, covered up to `coveredOffset` so far. -/
def reach (endOffset : ℕ) : (coveredOffset : ℕ) → List HotBlock → Bool
  | _, [] => false
  | coveredOffset, block :: rest =>
    if block.startOffset > coveredOffset then
      false
    else if block.endOffset ≥ endOffset then
      true
    else
      reach endOffset block.endOffset rest

/-- Whether blocks that meet exactly reach `endOffset`, covered up to `coveredOffset` so far. -/
def reachExactly (endOffset : ℕ) : (coveredOffset : ℕ) → List HotBlock → Bool
  | _, [] => false
  | coveredOffset, block :: rest =>
    if block.startOffset ≠ coveredOffset then
      false
    else if block.endOffset ≥ endOffset then
      true
    else
      reachExactly endOffset block.endOffset rest

/-- The hot segments of the blocks, with `payloadStart` bytes of the payload before them. -/
def segments : (payloadStart : ℕ) → List HotBlock → List HotPayloadSegment
  | _, [] => []
  | payloadStart, block :: rest =>
    let payloadEnd := payloadStart + block.bytes.length
    { startOffset := block.startOffset
      endOffset := block.endOffset
      payloadStart := payloadStart
      payloadEnd := payloadEnd } :: segments payloadEnd rest

/-- The blocks a snapshot recorded, one for each segment with bytes. -/
def ofSegments (payload : Bytes) (segments : List HotPayloadSegment) : List HotBlock :=
  segments.filterMap fun segment =>
    match getRange payload segment.payloadStart segment.payloadEnd with
    | none => none
    | some chunk => if chunk = [] then none else some ⟨segment.startOffset, chunk⟩

/-! ### Lengths and empty blocks -/

@[simp] theorem byteCount_nil : byteCount [] = 0 := rfl

@[simp] theorem byteCount_cons (block : HotBlock) (blocks : List HotBlock) :
    byteCount (block :: blocks) = block.bytes.length + byteCount blocks := rfl

variable {payload : Bytes}

theorem byteCount_chunks {fuel : ℕ} (offset : ℕ) (h : payload.length ≤ fuel) :
    byteCount (chunks fuel offset payload) = payload.length := by
  induction fuel generalizing offset payload with
  | zero =>
    obtain rfl : payload = [] := length_eq_zero_iff.mp (Nat.le_zero.mp h)
    rfl
  | succ fuel ih =>
    by_cases hp : payload = []
    · simp [chunks, hp]
    have hpos : 0 < payload.length := length_pos_iff.mpr hp
    have hdrop : (payload.drop hotBlockBytes).length ≤ fuel := by
      rw [length_drop]
      unfold hotBlockBytes
      omega
    rw [chunks, if_neg hp, byteCount_cons, ih _ hdrop, length_take, length_drop]
    omega

theorem byteCount_push (startOffset : ℕ) (payload : Bytes) (blocks : List HotBlock) :
    byteCount (push startOffset payload blocks) = byteCount blocks + payload.length := by
  fun_induction push startOffset payload blocks with
  | case1 => simp [byteCount_chunks]
  | case2 last h take =>
    have hrest : (payload.drop take).length ≤ payload.length := by simp
    rw [byteCount_cons, byteCount_chunks _ hrest, byteCount_cons, byteCount_nil]
    simp only [length_append, length_take, length_drop]
    omega
  | case3 last h => simp [byteCount_chunks]
  | case4 block next rest ih =>
    simp only [byteCount_cons, ih]
    omega

theorem byteCount_flush (endOffset : ℕ) (blocks : List HotBlock) :
    byteCount (flush endOffset blocks) + flushedLen endOffset blocks = byteCount blocks := by
  fun_induction flush endOffset blocks with
  | case1 => rfl
  | case2 front rest h ih => simp [flushedLen, h, ← ih, Nat.add_left_comm]
  | case3 front rest h h' drainLen =>
    simp only [byteCount_cons, flushedLen, h, h', if_false, if_true, length_drop]
    omega
  | case4 front rest h h' => simp [flushedLen, h, h']

theorem nonempty_chunks {fuel offset : ℕ} {block : HotBlock}
    (h : block ∈ chunks fuel offset payload) : block.bytes ≠ [] := by
  induction fuel generalizing offset payload with
  | zero => simp [chunks] at h
  | succ fuel ih =>
    by_cases hp : payload = []
    · simp [chunks, hp] at h
    rw [chunks, if_neg hp] at h
    rcases mem_cons.mp h with rfl | h
    · simpa [hotBlockBytes] using hp
    · exact ih h

theorem nonempty_push {startOffset : ℕ} {blocks : List HotBlock}
    (hblocks : ∀ block ∈ blocks, block.bytes ≠ []) :
    ∀ block ∈ push startOffset payload blocks, block.bytes ≠ [] := by
  fun_induction push startOffset payload blocks with
  | case1 => exact fun block hb => nonempty_chunks hb
  | case2 last h take =>
    intro block hb
    rcases mem_cons.mp hb with rfl | hb
    · simp [hblocks last (by simp)]
    · exact nonempty_chunks hb
  | case3 last h =>
    intro block hb
    rcases mem_cons.mp hb with rfl | hb
    · exact hblocks _ (by simp)
    · exact nonempty_chunks hb
  | case4 first next rest ih =>
    intro block hb
    rcases mem_cons.mp hb with rfl | hb
    · exact hblocks _ (by simp)
    · exact ih (fun b hb => hblocks b (mem_cons_of_mem _ hb)) block hb

theorem nonempty_flush {endOffset : ℕ} {blocks : List HotBlock}
    (hblocks : ∀ block ∈ blocks, block.bytes ≠ []) :
    ∀ block ∈ flush endOffset blocks, block.bytes ≠ [] := by
  fun_induction flush endOffset blocks with
  | case1 => exact fun block hb => absurd hb (by simp)
  | case2 front rest h ih => exact ih fun b hb => hblocks b (mem_cons_of_mem _ hb)
  | case3 front rest h h' drainLen =>
    intro block hb
    rcases mem_cons.mp hb with rfl | hb
    · -- the trimmed block keeps the bytes from `endOffset` to its own end
      simp only [ne_eq, drop_eq_nil_iff, drainLen]
      unfold HotBlock.endOffset satAdd at h
      omega
    · exact hblocks _ (mem_cons_of_mem _ hb)
  | case4 front rest h h' => exact hblocks

theorem nonempty_ofSegments {segments : List HotPayloadSegment} :
    ∀ block ∈ ofSegments payload segments, block.bytes ≠ [] := by
  intro block hb
  obtain ⟨segment, -, hs⟩ := mem_filterMap.mp hb
  split at hs
  · exact absurd hs (by simp)
  · split_ifs at hs with hne
    cases hs
    exact hne

end HotBlocks

/-- The hot payload of a stream. -/
structure HotBuffer where
  blocks : List HotBlock
  payloadLen : ℕ
  /-- The length is the sum of the blocks'. -/
  payloadLen_eq : payloadLen = HotBlocks.byteCount blocks
  /-- No block is empty. -/
  nonempty : ∀ block ∈ blocks, block.bytes ≠ []

namespace HotBuffer

theorem ext_blocks {a b : HotBuffer} (h : a.blocks = b.blocks) : a = b := by
  obtain ⟨blocks, len, hlen, hne⟩ := a
  obtain ⟨blocks', len', hlen', hne'⟩ := b
  obtain rfl : blocks = blocks' := h
  subst hlen hlen'
  rfl

instance : DecidableEq HotBuffer := fun a b =>
  decidable_of_iff (a.blocks = b.blocks) ⟨ext_blocks, fun h => h ▸ rfl⟩

/-- The buffer without bytes. -/
def empty : HotBuffer := ⟨[], 0, rfl, by simp⟩

variable (buffer : HotBuffer)

/-- The buffer with a payload written at an offset. -/
def pushSlice (startOffset : ℕ) (payload : Bytes) : HotBuffer where
  blocks := HotBlocks.push startOffset payload buffer.blocks
  payloadLen := buffer.payloadLen + payload.length
  payloadLen_eq := by rw [HotBlocks.byteCount_push, buffer.payloadLen_eq]
  nonempty := HotBlocks.nonempty_push buffer.nonempty

/-- A buffer of one payload. -/
def fromPayload (startOffset : ℕ) (payload : Bytes) : HotBuffer :=
  empty.pushSlice startOffset payload

/-- Drops the bytes below `endOffset`. -/
def flushPrefix (endOffset : ℕ) : HotBuffer where
  blocks := HotBlocks.flush endOffset buffer.blocks
  payloadLen := buffer.payloadLen - HotBlocks.flushedLen endOffset buffer.blocks
  payloadLen_eq := by
    have := HotBlocks.byteCount_flush endOffset buffer.blocks
    have := buffer.payloadLen_eq
    omega
  nonempty := HotBlocks.nonempty_flush buffer.nonempty

/-- Drops the bytes that retention dropped. -/
def discardBefore (retainedOffset : ℕ) : HotBuffer :=
  buffer.flushPrefix retainedOffset

/-- The blocks a snapshot recorded. -/
def fromSnapshot (payload : Bytes) (segments : List HotPayloadSegment) : HotBuffer where
  blocks := HotBlocks.ofSegments payload segments
  payloadLen := HotBlocks.byteCount (HotBlocks.ofSegments payload segments)
  payloadLen_eq := rfl
  nonempty := HotBlocks.nonempty_ofSegments

/-- The hot payload bytes held. -/
def len : ℕ := buffer.payloadLen

/-- Whether the buffer holds no byte. -/
def isEmpty : Bool := buffer.blocks.isEmpty

/-- The offset of the first byte held. -/
def firstStartOffset : Option ℕ := buffer.blocks.head?.map HotBlock.startOffset

/-- The offset of the first byte held, 0 without one. -/
def hotStartOffset : ℕ := buffer.firstStartOffset.getD 0

/-- The bytes held, in order. -/
def payload : Bytes := buffer.blocks.flatMap HotBlock.bytes

/-- The segments of the buffer's blocks. -/
def hotSegments : List HotPayloadSegment := HotBlocks.segments 0 buffer.blocks

/-- The run of hot bytes a flush from `fromOffset` takes, when it has `minHotBytes` of them. -/
def planColdFlushFrom (fromOffset minHotBytes maxFlushBytes : ℕ) :
    Option (ℕ × ℕ × Bytes) :=
  let payload :=
    HotBlocks.planFrom fromOffset maxFlushBytes [] (HotBlocks.endingAfter fromOffset buffer.blocks)
  if payload.length < minHotBytes then none
  else some (fromOffset, satAdd fromOffset payload.length, payload)

/-- The hot parts of a range, each at its offset. -/
def readSegments (offset nextOffset : ℕ) : List (ℕ × Bytes) :=
  HotBlocks.readFrom offset nextOffset (HotBlocks.endingAfter offset buffer.blocks)

/-- The ends of the messages that start at `startOffset`, in the hot bytes up to `endOffset` and up
to the first gap: those within `maxBytes`, and the first one in any case. -/
def lfEnds (startOffset endOffset maxBytes : ℕ) : List ℕ :=
  HotBlocks.lfEndsFrom endOffset (satAdd startOffset maxBytes) startOffset []
    (HotBlocks.endingAfter startOffset buffer.blocks)

/-- The byte at an offset. -/
def byteAt (offset : ℕ) : Option UInt8 :=
  match HotBlocks.endingAfter offset buffer.blocks with
  | [] => none
  | block :: _ =>
    if block.startOffset ≤ offset then block.bytes[offset - block.startOffset]? else none

/-- Whether the blocks hold every byte of a range. -/
def covers (startOffset endOffset : ℕ) : Bool :=
  if startOffset ≥ endOffset then true
  else HotBlocks.reach endOffset startOffset (HotBlocks.endingAfter startOffset buffer.blocks)

/-- Whether a range starts at the first hot byte and the blocks hold every byte of it. -/
def coversPrefix (startOffset endOffset : ℕ) : Bool :=
  match buffer.blocks with
  | [] => false
  | first :: _ =>
    if first.startOffset ≠ startOffset then false
    else HotBlocks.reachExactly endOffset startOffset buffer.blocks

/-- The BLAKE3 digest of a range, as text, when the blocks hold it. -/
def digestPrefix [Blake3] (startOffset endOffset : ℕ) : Option String :=
  if endOffset < startOffset then none
  else
    let len := endOffset - startOffset
    match buffer.planColdFlushFrom startOffset len len with
    | none => none
    | some (_, plannedEnd, payload) =>
      if plannedEnd = endOffset then some (toHex (Blake3.hash payload).val) else none

/-! ### Snapshots -/

theorem getRange_append (before chunk after : Bytes) :
    getRange (before ++ (chunk ++ after)) before.length (before.length + chunk.length) =
      some chunk := by
  simp [getRange]

theorem ofSegments_segments (before : Bytes) (blocks : List HotBlock)
    (hne : ∀ block ∈ blocks, block.bytes ≠ []) :
    HotBlocks.ofSegments (before ++ blocks.flatMap HotBlock.bytes)
      (HotBlocks.segments before.length blocks) = blocks := by
  induction blocks generalizing before with
  | nil => rfl
  | cons block rest ih =>
    have hrest := ih (before ++ block.bytes) fun b hb => hne b (mem_cons_of_mem _ hb)
    simp only [length_append, append_assoc] at hrest
    simp only [HotBlocks.segments, HotBlocks.ofSegments, filterMap_cons, flatMap_cons,
      getRange_append, hne block (by simp), if_false]
    exact congrArg (block :: ·) hrest

/-- A snapshot restores the buffer it was taken of. -/
theorem fromSnapshot_hotSegments : fromSnapshot buffer.payload buffer.hotSegments = buffer := by
  refine ext_blocks ?_
  exact ofSegments_segments [] buffer.blocks buffer.nonempty

end HotBuffer

end Ursula

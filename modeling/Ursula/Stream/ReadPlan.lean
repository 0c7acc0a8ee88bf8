import Ursula.Lib.Tiling
import Ursula.Stream.Apart

/-!
# Read plans

The plan of a read: where each byte of the range is to be read. Hot bytes are in the plan itself,
the bytes of a reference that the state holds are read from its object, and every other byte is
looked up in the cold-index page of its offset.

A plan tiles its range. The pages fill the gaps that the hot parts and the references leave, so
nothing is missing, and the references are apart from each other and from the hot bytes, so nothing
is read twice. The check that the segments cover the range tolerates an overlap; what excludes one
is the invariant of the slots.

## Main definitions

* `StreamStateMachine.readPlanAt`: the plan of a read
* `readPayloadFromPlan`: the bytes a plan reads
* `StreamReadSegment.Serves`, `ServedFrom`: what a segment and a plan read

## Main results

* `read_plan_tiles_range`: every read of a live stream within its retained range has a plan, which
  tiles the range and reads each of its bytes once
* `imported_refs_overlap`: references that an import brought may overlap
-/

namespace Ursula

open Word64 List

/-! ## The model -/

/-- The span of offsets of one cold-index page. -/
def coldIndexPageSpanBytes : ℕ := 64 * 1024 * 1024

/-- A part of a read from an object that the state refers to. -/
structure StreamReadObjectSegment where
  object : ObjectPayloadRef
  readStartOffset : ℕ
  len : ℕ
deriving DecidableEq

/-- A part of a read that a cold-index page locates. -/
structure StreamReadColdIndexSegment where
  generation : ℕ
  pageId : ℕ
  readStartOffset : ℕ
  len : ℕ
deriving DecidableEq

/-- A part of a read. -/
inductive StreamReadSegment
  | coldIndex (segment : StreamReadColdIndexSegment)
  | object (segment : StreamReadObjectSegment)
  | hot (payload : Bytes)
deriving DecidableEq

open StreamReadSegment

/-- Where the bytes of a range are to be read. -/
structure StreamReadPlan where
  incarnation : ℕ
  offset : ℕ
  nextOffset : ℕ
  contentType : String
  segments : List StreamReadSegment
  upToDate : Bool
  closed : Bool
deriving DecidableEq

/-- A chunk's slice of its object. -/
def ColdChunkRef.payloadRef (chunk : ColdChunkRef) : ObjectPayloadRef where
  startOffset := chunk.startOffset
  endOffset := chunk.endOffset
  s3Path := chunk.s3Path
  objectSize := chunk.objectSize
  objectOffset := chunk.objectOffset

/-- The index segments from `cursor` to `endOffset`, one for each page. The range's length is enough
fuel. -/
def coldIndexSegments (generation endOffset : ℕ) : (fuel cursor : ℕ) → List (ℕ × StreamReadSegment)
  | 0, _ => []
  | fuel + 1, cursor =>
    if cursor < endOffset then
      let pageId := cursor / coldIndexPageSpanBytes
      let pageEnd := satMul (satAdd pageId 1) coldIndexPageSpanBytes
      let segmentEnd := min endOffset pageEnd
      (cursor, .coldIndex ⟨generation, pageId, cursor, segmentEnd - cursor⟩) ::
        coldIndexSegments generation endOffset fuel segmentEnd
    else
      []

/-- The index segments of a range. -/
def pushColdIndexSegments (generation startOffset endOffset : ℕ) : List (ℕ × StreamReadSegment) :=
  coldIndexSegments generation endOffset (endOffset - startOffset) startOffset

/-- The index segments of the parts of a range that no exclusion holds. -/
def pushColdIndexSegmentsExcluding (generation endOffset : ℕ) :
    (cursor : ℕ) → (exclusions : List (ℕ × ℕ)) → List (ℕ × StreamReadSegment)
  | cursor, [] => pushColdIndexSegments generation cursor endOffset
  | cursor, (excludedStart, excludedEnd) :: exclusions =>
    if excludedEnd ≤ cursor ∨ excludedStart ≥ endOffset then
      pushColdIndexSegmentsExcluding generation endOffset cursor exclusions
    else
      pushColdIndexSegments generation cursor (min excludedStart endOffset) ++
        if max cursor excludedEnd ≥ endOffset then []
        else
          pushColdIndexSegmentsExcluding generation endOffset (max cursor excludedEnd) exclusions

/-- The end of a segment that starts at `segmentStart`, when it is well formed. -/
def readSegmentEnd (segmentStart : ℕ) : StreamReadSegment → Option ℕ
  | .object segment =>
    if segment.len = 0 ∨ segment.readStartOffset ≠ segmentStart ∨
        segment.readStartOffset < segment.object.startOffset then
      none
    else
      match checkedAdd segment.readStartOffset segment.len with
      | none => none
      | some segmentEnd => if segmentEnd > segment.object.endOffset then none else some segmentEnd
  | .coldIndex segment =>
    if segment.len = 0 ∨ segment.readStartOffset ≠ segmentStart then none
    else checkedAdd segmentStart segment.len
  | .hot payload => if payload = [] then none else checkedAdd segmentStart payload.length

/-- The index segments between the hot parts of a range, and after them. -/
def coldIndexGaps (generation coldIndexEnd : ℕ) (directColdRanges : List (ℕ × ℕ)) :
    (cursor : ℕ) → (hotSegments : List (ℕ × Bytes)) → List (ℕ × StreamReadSegment)
  | cursor, [] => pushColdIndexSegmentsExcluding generation coldIndexEnd cursor directColdRanges
  | cursor, (hotStart, payload) :: hotSegments =>
    if cursor ≥ coldIndexEnd then
      pushColdIndexSegmentsExcluding generation coldIndexEnd cursor directColdRanges
    else
      match readSegmentEnd hotStart (.hot payload) with
      | none => coldIndexGaps generation coldIndexEnd directColdRanges cursor hotSegments
      | some hotEnd =>
        if hotEnd ≤ cursor then
          coldIndexGaps generation coldIndexEnd directColdRanges cursor hotSegments
        else
          pushColdIndexSegmentsExcluding generation (min hotStart coldIndexEnd) cursor
              directColdRanges ++
            coldIndexGaps generation coldIndexEnd directColdRanges (max cursor hotEnd) hotSegments

/-- The parts of a range in the objects of the references. -/
def objectSegments (offset nextOffset : ℕ) (refs : List ObjectPayloadRef) :
    List (ℕ × StreamReadSegment) :=
  refs.filterMap fun object =>
    let start := max offset object.startOffset
    let finish := min nextOffset object.endOffset
    if start < finish then some (start, .object ⟨object, start, finish - start⟩) else none

/-- Whether segments in order of their starts reach `nextOffset`, from `expectedStart` on. -/
def coverFrom (nextOffset : ℕ) : (expectedStart : ℕ) → List (ℕ × StreamReadSegment) → Bool
  | expectedStart, [] => expectedStart = nextOffset
  | expectedStart, (segmentStart, segment) :: segments =>
    match readSegmentEnd segmentStart segment with
    | none => false
    | some segmentEnd =>
      if segmentEnd ≤ expectedStart then coverFrom nextOffset expectedStart segments
      else if segmentStart > expectedStart then false
      else if segmentEnd ≥ nextOffset then true
      else coverFrom nextOffset segmentEnd segments

/-- Whether segments in order of their starts cover a range. -/
def segmentsCoverRange (segments : List (ℕ × StreamReadSegment)) (offset nextOffset : ℕ) : Bool :=
  if nextOffset < offset then false else coverFrom nextOffset offset segments

/-- The ranges of a slot's references, in order. -/
def StreamSlot.directColdRanges (slot : StreamSlot) : List (ℕ × ℕ) :=
  (slot.cold.coldChunks.map (fun chunk => (chunk.startOffset, chunk.endOffset)) ++
    slot.cold.externalSegments.map fun object =>
      (object.startOffset, object.endOffset)).insertionSort fun a b => toLex a ≤ toLex b

/-- The index segments, the chunks' parts, the external objects' parts and the hot parts. -/
def StreamSlot.pieces (slot : StreamSlot) (offset nextOffset : ℕ) : List (ℕ × StreamReadSegment) :=
  coldIndexGaps slot.cold.coldGeneration nextOffset slot.directColdRanges offset
      (slot.hotBuffer.readSegments offset nextOffset) ++
    objectSegments offset nextOffset (slot.cold.coldChunks.map ColdChunkRef.payloadRef) ++
    objectSegments offset nextOffset slot.cold.externalSegments ++
    (slot.hotBuffer.readSegments offset nextOffset).map fun part : ℕ × Bytes =>
      (part.1, StreamReadSegment.hot part.2)

/-- The segments of a range, each at its start, in order. -/
def StreamSlot.readSegments (slot : StreamSlot) (offset nextOffset : ℕ) :
    List (ℕ × StreamReadSegment) :=
  (slot.pieces offset nextOffset).insertionSort fun a b => a.1 ≤ b.1

namespace StreamStateMachine

/-- The offset from which a stream's bytes are kept. -/
def earliestRetainedOffset (machine : StreamStateMachine) (streamId : BucketStreamId) : ℕ :=
  ((machine.streamSlot streamId).map StreamSlot.retainedOffset).getD 0

variable [Blake3]

/-- The plan of a read of at most `maxLen` bytes from `offset`. -/
def readPlanAt (machine : StreamStateMachine) (streamId : BucketStreamId)
    (offset maxLen nowMs : ℕ) : Except StreamResponse StreamReadPlan :=
  match machine.streamSlot streamId with
  | none => .error (streamNotFound streamId)
  | some slot =>
    let stream := slot.metadata
    if streamIsExpired stream nowMs then
      .error (streamNotFound streamId)
    else
      let token := [StreamErrorContext.streamIncarnation (machine.tokenOf stream)]
      let retainedOffset := machine.earliestRetainedOffset streamId
      if offset > stream.tailOffset then
        .error (.errorWithNextOffsetAndContext .offsetOutOfRange
          s!"offset {offset} is beyond stream '{streamId.display}' tail {stream.tailOffset}"
          stream.tailOffset token)
      else if offset < retainedOffset then
        .error (.errorWithNextOffsetAndContext .streamGone
          (s!"offset {offset} is older than stream '{streamId.display}' retained offset " ++
            s!"{retainedOffset}")
          retainedOffset token)
      else
        let nextOffset := min stream.tailOffset (satAdd offset maxLen)
        let segments := slot.readSegments offset nextOffset
        if segmentsCoverRange segments offset nextOffset then
          .ok
            { incarnation := machine.tokenOf stream
              offset := offset
              nextOffset := nextOffset
              contentType := stream.contentType
              segments := segments.map Prod.snd
              upToDate := nextOffset = stream.tailOffset
              closed := stream.status = .closed }
        else
          .error (.errorWithNextOffset .invalidColdFlush
            s!"stream '{streamId.display}' has missing payload segment metadata" nextOffset)

end StreamStateMachine

/-- The bytes of a plan: its hot bytes, and what the object store and the index pages return for the
other segments. -/
def readPayloadFromPlan (readObject : StreamReadObjectSegment → Bytes)
    (readColdIndex : StreamReadColdIndexSegment → Bytes) (plan : StreamReadPlan) : Bytes :=
  plan.segments.flatMap fun
    | .hot payload => payload
    | .coldIndex segment => readColdIndex segment
    | .object segment => readObject segment

/-! ## What segments read -/

/-- The length of a segment. -/
def StreamReadSegment.len : StreamReadSegment → ℕ
  | .coldIndex segment => segment.len
  | .object segment => segment.len
  | .hot payload => payload.length

/-- Whether neither the hot buffer nor a reference of the state holds an offset. -/
structure StreamSlot.Unnamed (slot : StreamSlot) (i : ℕ) : Prop where
  hot : slot.hotBuffer.map i = none
  chunk : ∀ chunk ∈ slot.cold.coldChunks, ¬ chunk.Holds i
  external : ∀ object ∈ slot.cold.externalSegments, ¬ object.Holds i

/-- What a segment at `start` reads: the hot bytes of its range, a part of the range of a reference,
or offsets of one page that only the page names. -/
def StreamReadSegment.Serves (slot : StreamSlot) (start : ℕ) : StreamReadSegment → Prop
  | .hot payload => ∀ k < payload.length, slot.hotBuffer.map (start + k) = payload[k]?
  | .object segment =>
    segment.readStartOffset = start ∧
      (segment.object ∈ slot.cold.coldChunks.map ColdChunkRef.payloadRef ∨
        segment.object ∈ slot.cold.externalSegments) ∧
      segment.object.startOffset ≤ start ∧ start + segment.len ≤ segment.object.endOffset
  | .coldIndex segment =>
    segment.readStartOffset = start ∧ segment.generation = slot.cold.coldGeneration ∧
      segment.pageId * coldIndexPageSpanBytes ≤ start ∧
      start + segment.len ≤ (segment.pageId + 1) * coldIndexPageSpanBytes ∧
      ∀ i, start ≤ i → i < start + segment.len → slot.Unnamed i

/-- Segments that are not empty and read, one after another, the range from `start` to `finish`. -/
def ServedFrom (slot : StreamSlot) : (start : ℕ) → List StreamReadSegment → (finish : ℕ) → Prop
  | start, [], finish => start = finish
  | start, segment :: rest, finish =>
    0 < segment.len ∧ segment.Serves slot start ∧ ServedFrom slot (start + segment.len) rest finish

/-- Where a placed segment ends. -/
def pieceEnd (piece : ℕ × StreamReadSegment) : ℕ := piece.1 + piece.2.len

/-- Segments at their starts that lie end to end. -/
abbrev PlanTiles : ℕ → List (ℕ × StreamReadSegment) → ℕ → Prop := Tiling.Tiles Prod.fst pieceEnd

theorem readSegmentEnd_of_serves {slot : StreamSlot} {start : ℕ} {segment : StreamReadSegment}
    (hpos : 0 < segment.len) (hserves : segment.Serves slot start)
    (hmax : start + segment.len ≤ maxValue) :
    readSegmentEnd start segment = some (start + segment.len) := by
  have hadd : checkedAdd start segment.len = some (start + segment.len) := if_pos hmax
  cases segment with
  | coldIndex segment =>
    obtain ⟨hstart, -⟩ := hserves
    have hlen : segment.len ≠ 0 := hpos.ne'
    simp only [readSegmentEnd, hstart, hlen, ne_eq, not_true_eq_false, or_self, if_false]
    exact hadd
  | object segment =>
    obtain ⟨hstart, -, hle, hend⟩ := hserves
    have hlen : segment.len ≠ 0 := hpos.ne'
    replace hadd : checkedAdd start segment.len = some (start + segment.len) := hadd
    simp only [readSegmentEnd, hstart, hlen, not_lt.mpr hle, ne_eq, not_true_eq_false, or_self,
      if_false, hadd, not_lt.mpr hend]
    rfl
  | hot payload =>
    have hne : payload ≠ [] := length_pos_iff.mp hpos
    simp only [readSegmentEnd, hne, if_false]
    exact hadd

section Plans

variable {slot : StreamSlot} {offset nextOffset : ℕ} {pieces : List (ℕ × StreamReadSegment)}

/-- Segments that tile a range pass the check that they cover it. -/
theorem coverFrom_of_tiles (htiles : PlanTiles offset pieces nextOffset)
    (hserves : ∀ piece ∈ pieces, piece.2.Serves slot piece.1) (hmax : nextOffset ≤ maxValue) :
    coverFrom nextOffset offset pieces = true := by
  induction pieces generalizing offset with
  | nil => exact decide_eq_true htiles
  | cons piece rest ih =>
    obtain ⟨start, segment⟩ := piece
    obtain ⟨rfl, hlt, hrest⟩ := htiles
    have hle : start + segment.len ≤ nextOffset := hrest.le
    have hend : readSegmentEnd start segment = some (start + segment.len) :=
      readSegmentEnd_of_serves (by simpa [pieceEnd] using hlt)
        (hserves (start, segment) (by simp)) (by omega)
    simp only [coverFrom, hend]
    rw [if_neg (show ¬ start + segment.len ≤ start from not_le.mpr hlt), if_neg (lt_irrefl _)]
    split_ifs with hfull
    · rfl
    · exact ih hrest fun other hother => hserves other (by simp [hother])

/-- Segments that tile a range serve it. -/
theorem servedFrom_of_tiles (htiles : PlanTiles offset pieces nextOffset)
    (hserves : ∀ piece ∈ pieces, piece.2.Serves slot piece.1) :
    ServedFrom slot offset (pieces.map Prod.snd) nextOffset := by
  induction pieces generalizing offset with
  | nil => exact htiles
  | cons piece rest ih =>
    obtain ⟨start, segment⟩ := piece
    obtain ⟨rfl, hlt, hrest⟩ := htiles
    refine ⟨by simpa [pieceEnd] using hlt, hserves (start, segment) (by simp), ?_⟩
    exact ih hrest fun other hother => hserves other (by simp [hother])

/-- Segments that serve a range read each of its bytes once, when the store returns the stream's
bytes. -/
theorem flatMap_of_servedFrom {segments : List StreamReadSegment}
    (h : ServedFrom slot offset segments nextOffset) {content : ℕ → UInt8}
    {readObject : StreamReadObjectSegment → Bytes}
    {readColdIndex : StreamReadColdIndexSegment → Bytes}
    (hhot : ∀ i byte, slot.hotBuffer.map i = some byte → content i = byte)
    (hobject : ∀ segment, readObject segment =
      (range' segment.readStartOffset segment.len).map content)
    (hindex : ∀ segment, readColdIndex segment =
      (range' segment.readStartOffset segment.len).map content) :
    offset ≤ nextOffset ∧
    (segments.flatMap fun
      | .hot payload => payload
      | .coldIndex segment => readColdIndex segment
      | .object segment => readObject segment) =
      (range' offset (nextOffset - offset)).map content := by
  induction segments generalizing offset with
  | nil =>
    obtain rfl : offset = nextOffset := h
    simp
  | cons segment rest ih =>
    obtain ⟨hpos, hserves, hrest⟩ := h
    obtain ⟨hle, hrest⟩ := ih hrest
    refine ⟨by omega, ?_⟩
    have hrange : range' offset (nextOffset - offset) =
        range' offset segment.len ++
          range' (offset + segment.len) (nextOffset - (offset + segment.len)) := by
      rw [range'_append_1]
      congr 1
      omega
    rw [flatMap_cons, hrest, hrange, map_append]
    congr 1
    cases segment with
    | coldIndex segment => simp only [hindex, hserves.1, len]
    | object segment => simp only [hobject, hserves.1, len]
    | hot payload =>
      show payload = _
      refine ext_getElem? fun k => ?_
      rw [getElem?_map, len]
      by_cases hk : k < payload.length
      · have hget := hserves k hk
        rw [getElem?_eq_getElem hk] at hget
        rw [getElem?_range' hk, getElem?_eq_getElem hk, Option.map_some, Nat.one_mul, hhot _ _ hget]
      · rw [getElem?_eq_none (by omega), getElem?_eq_none (by simpa using by omega)]
        rfl

end Plans

/-! ## Index segments -/

/-- Index segments in order within a range, over exactly its free offsets. -/
structure IndexPieces (generation lo hi : ℕ) (free : ℕ → Prop)
    (pieces : List (ℕ × StreamReadSegment)) : Prop where
  index : ∀ piece ∈ pieces, ∃ pageId len, 0 < len ∧
    piece.2 = .coldIndex ⟨generation, pageId, piece.1, len⟩ ∧
    pageId * coldIndexPageSpanBytes ≤ piece.1 ∧
    piece.1 + len ≤ (pageId + 1) * coldIndexPageSpanBytes
  within : ∀ piece ∈ pieces, lo ≤ piece.1 ∧ pieceEnd piece ≤ hi
  sorted : pieces.Pairwise fun a b => pieceEnd a ≤ b.1
  cover : ∀ i, (∃ piece ∈ pieces, Tiling.Holds Prod.fst pieceEnd piece i) ↔
    lo ≤ i ∧ i < hi ∧ free i

namespace IndexPieces

variable {generation lo hi : ℕ} {free : ℕ → Prop} {pieces : List (ℕ × StreamReadSegment)}

theorem congr (h : IndexPieces generation lo hi free pieces) {lo' hi' : ℕ} {free' : ℕ → Prop}
    (hlo : lo' ≤ lo) (hhi : hi ≤ hi')
    (hfree : ∀ i, (lo ≤ i ∧ i < hi ∧ free i) ↔ (lo' ≤ i ∧ i < hi' ∧ free' i)) :
    IndexPieces generation lo' hi' free' pieces :=
  ⟨h.index, fun piece hpiece => ⟨hlo.trans (h.within piece hpiece).1,
    (h.within piece hpiece).2.trans hhi⟩, h.sorted, fun i => (h.cover i).trans (hfree i)⟩

theorem append {middle middle' : ℕ} {free' free'' : ℕ → Prop}
    {pieces' : List (ℕ × StreamReadSegment)} (h : IndexPieces generation lo middle free pieces)
    (h' : IndexPieces generation middle' hi free' pieces') (hlo : lo ≤ middle')
    (hmiddle : middle ≤ middle') (hhi : middle ≤ hi)
    (hfree : ∀ i, (lo ≤ i ∧ i < middle ∧ free i) ∨ (middle' ≤ i ∧ i < hi ∧ free' i) ↔
      lo ≤ i ∧ i < hi ∧ free'' i) :
    IndexPieces generation lo hi free'' (pieces ++ pieces') where
  index := fun piece hpiece => (mem_append.mp hpiece).elim (h.index piece) (h'.index piece)
  within := by
    intro piece hpiece
    obtain hpiece | hpiece := mem_append.mp hpiece
    · have := h.within piece hpiece
      omega
    · have := h'.within piece hpiece
      omega
  sorted := by
    refine pairwise_append.mpr ⟨h.sorted, h'.sorted, fun a ha b hb => ?_⟩
    have := h.within a ha
    have := h'.within b hb
    omega
  cover := fun i => by
    rw [← hfree i, ← h.cover i, ← h'.cover i, ← exists_or]
    refine exists_congr fun piece => ?_
    rw [mem_append, or_and_right]

theorem nil (h : ∀ i, lo ≤ i → i < hi → ¬ free i) : IndexPieces generation lo hi free [] where
  index := by simp
  within := by simp
  sorted := .nil
  cover := fun i => by
    simp only [not_mem_nil, false_and, exists_false, false_iff]
    exact fun ⟨hlo, hhi, hfree⟩ => h i hlo hhi hfree

end IndexPieces

/-- One segment for each page of a range. -/
theorem coldIndexSegments_tiles {generation endOffset fuel cursor : ℕ}
    (hmax : endOffset ≤ maxValue) (hle : cursor ≤ endOffset) (hfuel : endOffset - cursor ≤ fuel) :
    PlanTiles cursor (coldIndexSegments generation endOffset fuel cursor) endOffset ∧
      ∀ piece ∈ coldIndexSegments generation endOffset fuel cursor, ∃ pageId len, 0 < len ∧
        piece.2 = .coldIndex ⟨generation, pageId, piece.1, len⟩ ∧
        pageId * coldIndexPageSpanBytes ≤ piece.1 ∧
        piece.1 + len ≤ (pageId + 1) * coldIndexPageSpanBytes := by
  have hspan : 0 < coldIndexPageSpanBytes := by decide
  induction fuel generalizing cursor with
  | zero => exact ⟨show cursor = endOffset by omega, by simp [coldIndexSegments]⟩
  | succ fuel ih =>
    unfold coldIndexSegments
    generalize coldIndexPageSpanBytes = span at *
    split_ifs with hlt
    · set pageId := cursor / span with hpageId
      have hpage : pageId * span ≤ cursor := Nat.div_mul_le_self _ _
      have hnext : cursor < (pageId + 1) * span := by
        rw [Nat.mul_comm]
        exact Nat.lt_mul_div_succ cursor hspan
      have hpageId' : pageId + 1 ≤ maxValue := by
        have : pageId ≤ pageId * span := Nat.le_mul_of_pos_right _ hspan
        omega
      -- the page's end saturates only past every offset
      have hend : min endOffset (satMul (satAdd pageId 1) span) =
          min endOffset ((pageId + 1) * span) := by
        rw [satAdd_eq_add_of_le hpageId']
        unfold satMul
        omega
      simp only [hend]
      set segmentEnd := min endOffset ((pageId + 1) * span) with hsegmentEnd
      obtain ⟨htiles, hindex⟩ := @ih segmentEnd (by omega) (by omega)
      have hpieceEnd :
          pieceEnd (cursor, .coldIndex ⟨generation, pageId, cursor, segmentEnd - cursor⟩) =
          segmentEnd := show cursor + (segmentEnd - cursor) = segmentEnd by omega
      refine ⟨⟨rfl, ?_, ?_⟩, fun piece hpiece => ?_⟩
      · rw [hpieceEnd]
        omega
      · rw [hpieceEnd]
        exact htiles
      · obtain rfl | hmem := mem_cons.mp hpiece
        · exact ⟨pageId, segmentEnd - cursor, by omega, rfl, hpage,
            show cursor + (segmentEnd - cursor) ≤ _ by omega⟩
        · exact hindex piece hmem
    · exact ⟨show cursor = endOffset by omega, by simp⟩

theorem indexPieces_push {generation startOffset endOffset : ℕ} (hmax : endOffset ≤ maxValue) :
    IndexPieces generation startOffset endOffset (fun _ => True)
      (pushColdIndexSegments generation startOffset endOffset) := by
  unfold pushColdIndexSegments
  rcases Nat.lt_or_ge endOffset startOffset with hlt | hle
  · rw [Nat.sub_eq_zero_of_le hlt.le]
    exact .nil fun i hi hi' => by omega
  obtain ⟨htiles, hindex⟩ := @coldIndexSegments_tiles generation _ _ _ hmax hle le_rfl
  refine ⟨hindex, fun piece hpiece => ?_, htiles.sorted, fun i => ?_⟩
  · exact ⟨(htiles.within hpiece).1, (htiles.within hpiece).2.2⟩
  · rw [htiles.holds_iff]
    simp

/-- Whether no range of a list holds an offset. -/
def NotIn (ranges : List (ℕ × ℕ)) (i : ℕ) : Prop := ∀ range ∈ ranges, ¬ (range.1 ≤ i ∧ i < range.2)

/-- The index segments of a range leave out what sorted exclusions hold. -/
theorem indexPieces_excluding {generation cursor endOffset : ℕ} {exclusions : List (ℕ × ℕ)}
    (hmax : endOffset ≤ maxValue) (hsorted : exclusions.Pairwise fun a b => a.1 ≤ b.1)
    (hrange : ∀ range ∈ exclusions, range.1 ≤ range.2 ∨ maxValue ≤ range.1) :
    IndexPieces generation cursor endOffset (NotIn exclusions)
      (pushColdIndexSegmentsExcluding generation endOffset cursor exclusions) := by
  induction exclusions generalizing cursor with
  | nil => exact (indexPieces_push hmax).congr le_rfl le_rfl fun i => by simp [NotIn]
  | cons exclusion rest ih =>
    obtain ⟨excludedStart, excludedEnd⟩ := exclusion
    obtain ⟨hfirst, hrest⟩ := pairwise_cons.mp hsorted
    obtain ⟨hstart, hrange⟩ := forall_mem_cons.mp hrange
    replace ih := fun cursor => @ih cursor hrest hrange
    have hcons : ∀ i, NotIn ((excludedStart, excludedEnd) :: rest) i ↔
        ¬ (excludedStart ≤ i ∧ i < excludedEnd) ∧ NotIn rest i := fun i => forall_mem_cons
    -- the later exclusions start no earlier
    have hbelow : ∀ i, i < excludedStart → NotIn rest i := fun i hi range hrange => by
      have := hfirst range hrange
      omega
    unfold pushColdIndexSegmentsExcluding
    split_ifs with hskip hfull
    · refine (ih cursor).congr le_rfl le_rfl fun i => ?_
      rw [hcons]
      constructor <;> rintro ⟨hlo, hhi, hfree⟩
      · exact ⟨hlo, hhi, by omega, hfree⟩
      · exact ⟨hlo, hhi, hfree.2⟩
    · rw [append_nil]
      refine (@indexPieces_push generation cursor (min excludedStart endOffset)
        (by omega)).congr le_rfl (min_le_right _ _) fun i => ?_
      rw [hcons]
      constructor
      · rintro ⟨hlo, hhi, -⟩
        exact ⟨hlo, by omega, by omega, hbelow i (by omega)⟩
      · rintro ⟨hlo, hhi, hfree, -⟩
        exact ⟨hlo, by omega, trivial⟩
    · refine (@indexPieces_push generation cursor (min excludedStart endOffset) (by omega)).append
        (ih _) (le_max_left _ _) (by omega) (min_le_right _ _) fun i => ?_
      rw [hcons]
      constructor
      · rintro (⟨hlo, hhi, -⟩ | ⟨hlo, hhi, hfree⟩)
        · exact ⟨hlo, by omega, by omega, hbelow i (by omega)⟩
        · exact ⟨by omega, hhi, by omega, hfree⟩
      · rintro ⟨hlo, hhi, hfree, hfree'⟩
        by_cases hi : i < excludedStart
        · exact .inl ⟨hlo, by omega, trivial⟩
        · exact .inr ⟨by omega, hhi, hfree'⟩

/-- The index segments between the hot parts leave out what they and the exclusions hold. -/
theorem indexPieces_gaps {generation cursor nextOffset : ℕ} {exclusions : List (ℕ × ℕ)}
    {parts : List (ℕ × Bytes)} (hmax : nextOffset ≤ maxValue)
    (hsorted : exclusions.Pairwise fun a b => a.1 ≤ b.1)
    (hrange : ∀ range ∈ exclusions, range.1 ≤ range.2 ∨ maxValue ≤ range.1)
    (hparts : parts.Pairwise fun a b => a.1 + a.2.length ≤ b.1)
    (hwithin : ∀ part ∈ parts, 0 < part.2.length ∧ part.1 + part.2.length ≤ nextOffset) :
    IndexPieces generation cursor nextOffset
      (fun i => NotIn exclusions i ∧ ∀ part ∈ parts, ¬ (part.1 ≤ i ∧ i < part.1 + part.2.length))
      (coldIndexGaps generation nextOffset exclusions cursor parts) := by
  induction parts generalizing cursor with
  | nil => exact (indexPieces_excluding hmax hsorted hrange).congr le_rfl le_rfl fun i => by simp
  | cons part rest ih =>
    obtain ⟨hotStart, payload⟩ := part
    obtain ⟨hfirst, hrest⟩ := pairwise_cons.mp hparts
    obtain ⟨⟨hpos, hle⟩, hwithin⟩ := forall_mem_cons.mp hwithin
    replace hle : hotStart + payload.length ≤ nextOffset := hle
    have hend : readSegmentEnd hotStart (.hot payload) = some (hotStart + payload.length) := by
      rw [readSegmentEnd, if_neg (length_pos_iff.mp hpos)]
      exact if_pos (by omega)
    have hbelow : ∀ i, i < hotStart →
        ∀ part ∈ rest, ¬ (part.1 ≤ i ∧ i < part.1 + part.2.length) := fun i hi part hpart => by
      have := hfirst part hpart
      omega
    simp only [coldIndexGaps, hend, forall_mem_cons]
    split_ifs with hdone hskip
    · exact (indexPieces_excluding hmax hsorted hrange).congr le_rfl le_rfl fun i => by omega
    · refine (ih hrest hwithin).congr le_rfl le_rfl fun i => ?_
      constructor <;> rintro ⟨hlo, hhi, hfree, hfree'⟩
      · exact ⟨hlo, hhi, hfree, by omega, hfree'⟩
      · exact ⟨hlo, hhi, hfree, hfree'.2⟩
    · refine (@indexPieces_excluding generation cursor (min hotStart nextOffset) _ (by omega)
        hsorted hrange).append (ih hrest hwithin) (le_max_left _ _) (by omega)
        (min_le_right _ _) fun i => ?_
      constructor
      · rintro (⟨hlo, hhi, hfree⟩ | ⟨hlo, hhi, hfree, hfree'⟩)
        · exact ⟨hlo, by omega, hfree, by omega, hbelow i (by omega)⟩
        · exact ⟨by omega, hhi, hfree, by omega, hfree'⟩
      · rintro ⟨hlo, hhi, hfree, hnot, hfree'⟩
        by_cases hi : i < hotStart
        · exact .inl ⟨hlo, by omega, hfree⟩
        · exact .inr ⟨by omega, hhi, hfree, hfree'⟩

/-! ## Object segments -/

section Objects

variable {offset nextOffset : ℕ} {refs : List ObjectPayloadRef} {piece : ℕ × StreamReadSegment}

/-- An object segment is the part of its reference's range that the read asks for. -/
theorem mem_objectSegments :
    piece ∈ objectSegments offset nextOffset refs ↔
      ∃ object ∈ refs, max offset object.startOffset < min nextOffset object.endOffset ∧
        piece = (max offset object.startOffset, .object ⟨object, max offset object.startOffset,
          min nextOffset object.endOffset - max offset object.startOffset⟩) := by
  unfold objectSegments
  rw [mem_filterMap]
  refine exists_congr fun object => and_congr_right fun _ => ?_
  dsimp only
  split_ifs with hlt
  · simp only [Option.some.injEq, hlt, true_and]
    exact eq_comm
  · simp [hlt]

variable {i : ℕ}

theorem holds_objectSegment {object : ObjectPayloadRef}
    (hlt : max offset object.startOffset < min nextOffset object.endOffset) :
    Tiling.Holds Prod.fst pieceEnd (max offset object.startOffset,
        .object ⟨object, max offset object.startOffset,
          min nextOffset object.endOffset - max offset object.startOffset⟩) i ↔
      object.Holds i ∧ offset ≤ i ∧ i < nextOffset := by
  unfold Tiling.Holds ObjectPayloadRef.Holds pieceEnd len
  dsimp only
  omega

theorem within_objectSegments (h : piece ∈ objectSegments offset nextOffset refs) :
    offset ≤ piece.1 ∧ piece.1 < pieceEnd piece ∧ pieceEnd piece ≤ nextOffset := by
  obtain ⟨object, -, hlt, rfl⟩ := mem_objectSegments.mp h
  unfold pieceEnd len
  dsimp only
  omega

/-- The segments of references that hold no offset twice hold none twice. -/
theorem pairwise_objectSegments (hmax : nextOffset ≤ maxValue)
    (h : refs.Pairwise fun a b => ∀ i < maxValue, a.Holds i → ¬ b.Holds i) :
    (objectSegments offset nextOffset refs).Pairwise fun a b =>
      ∀ i, Tiling.Holds Prod.fst pieceEnd a i → ¬ Tiling.Holds Prod.fst pieceEnd b i := by
  refine h.filterMap _ fun a b hab piece hpiece piece' hpiece' i hi hi' => ?_
  dsimp only at hpiece hpiece'
  split_ifs at hpiece with hlt
  split_ifs at hpiece' with hlt'
  cases hpiece
  cases hpiece'
  rw [holds_objectSegment hlt] at hi
  rw [holds_objectSegment hlt'] at hi'
  exact hab i (by omega) hi.1 hi'.1

theorem exists_objectSegment {object : ObjectPayloadRef} (hobject : object ∈ refs)
    (hi : object.Holds i) (hlo : offset ≤ i) (hhi : i < nextOffset) :
    ∃ piece ∈ objectSegments offset nextOffset refs, Tiling.Holds Prod.fst pieceEnd piece i := by
  have hlt : max offset object.startOffset < min nextOffset object.endOffset := by
    unfold ObjectPayloadRef.Holds at hi
    omega
  exact ⟨_, mem_objectSegments.mpr ⟨object, hobject, hlt, rfl⟩,
    (holds_objectSegment hlt).mpr ⟨hi, hlo, hhi⟩⟩

end Objects

/-! ## Plans of sound slots -/

section Slots

variable {slot : StreamSlot} {offset nextOffset : ℕ}

theorem mem_directColdRanges {range : ℕ × ℕ} : range ∈ slot.directColdRanges ↔
    (∃ chunk ∈ slot.cold.coldChunks, (chunk.startOffset, chunk.endOffset) = range) ∨
      ∃ object ∈ slot.cold.externalSegments, (object.startOffset, object.endOffset) = range := by
  unfold StreamSlot.directColdRanges
  rw [mem_insertionSort, mem_append, mem_map, mem_map]

theorem notIn_directColdRanges : NotIn slot.directColdRanges i ↔
    (∀ chunk ∈ slot.cold.coldChunks, ¬ chunk.Holds i) ∧
      ∀ object ∈ slot.cold.externalSegments, ¬ object.Holds i := by
  constructor
  · intro h
    exact ⟨fun chunk hchunk => h _ (mem_directColdRanges.mpr (.inl ⟨chunk, hchunk, rfl⟩)),
      fun object hobject => h _ (mem_directColdRanges.mpr (.inr ⟨object, hobject, rfl⟩))⟩
  · rintro ⟨hchunk, hobject⟩ range hrange
    obtain ⟨chunk, hmem, rfl⟩ | ⟨object, hmem, rfl⟩ := mem_directColdRanges.mp hrange
    · exact hchunk chunk hmem
    · exact hobject object hmem

theorem pairwise_directColdRanges : slot.directColdRanges.Pairwise fun a b => a.1 ≤ b.1 := by
  refine (pairwise_insertionSort _ _).imp fun {a b} hle => ?_
  obtain hlt | ⟨heq, -⟩ := Prod.Lex.le_iff.mp hle
  · exact hlt.le
  · exact heq.le

/-- The chunks and the hot bytes are apart. -/
theorem StreamSlot.Sound.map_of_chunk (h : slot.Sound) {chunk : ColdChunkRef}
    (hchunk : chunk ∈ slot.cold.coldChunks) (hi : chunk.Holds i) :
    slot.hotBuffer.map i = none := by
  by_contra hheld
  obtain ⟨block, hblock, hstart, -⟩ := HotBlocks.exists_of_held hheld
  have hle := (h.cold chunk hchunk).2 block hblock
  have hlt := hi.2
  omega

variable (hsound : slot.Sound) (happart : slot.Apart) (hmax : nextOffset ≤ maxValue)

include hsound hmax

theorem splits_readSegments : slot.hotBuffer.map.Splits offset nextOffset
    (slot.hotBuffer.readSegments offset nextOffset) :=
  OffsetMap.splits_of_flatten (fun _ => HotBlocks.nonempty_of_mem_readFrom)
    (HotBuffer.flatten_readSegments hsound.hot offset hmax)

include happart

/-- The index segments are over the offsets that the state names nowhere. -/
theorem indexPieces_slot : IndexPieces slot.cold.coldGeneration offset nextOffset slot.Unnamed
    (coldIndexGaps slot.cold.coldGeneration nextOffset slot.directColdRanges offset
      (slot.hotBuffer.readSegments offset nextOffset)) := by
  have hsplits := @splits_readSegments slot offset nextOffset hsound hmax
  refine (indexPieces_gaps hmax pairwise_directColdRanges (fun range hrange => ?_) hsplits.sorted
    fun part hpart => (hsplits.within part hpart).2).congr le_rfl le_rfl fun i => ?_
  · obtain ⟨chunk, hmem, rfl⟩ | ⟨object, hmem, rfl⟩ := mem_directColdRanges.mp hrange
    · exact .inl (hsound.chunks chunk hmem).2.1.le
    · exact happart.range object hmem
  · rw [notIn_directColdRanges]
    refine and_congr_right fun hlo => and_congr_right fun hhi => ?_
    constructor
    · rintro ⟨⟨hchunk, hexternal⟩, hparts⟩
      refine ⟨?_, hchunk, hexternal⟩
      by_contra hheld
      obtain ⟨part, hpart, hin⟩ := hsplits.cover i hlo hhi hheld
      exact hparts part hpart hin
    · rintro ⟨hhot, hchunk, hexternal⟩
      refine ⟨⟨hchunk, hexternal⟩, fun part hpart hin => ?_⟩
      have hget := hsplits.get part hpart (i - part.1) (by omega)
      rw [show part.1 + (i - part.1) = i by omega, hhot, getElem?_eq_getElem (by omega)] at hget
      cases hget

/-- The segments lie within the range of the read, and each reads what it names. -/
theorem serves_pieces (h : piece ∈ slot.pieces offset nextOffset) :
    (offset ≤ piece.1 ∧ piece.1 < pieceEnd piece ∧ pieceEnd piece ≤ nextOffset) ∧
      piece.2.Serves slot piece.1 := by
  have hsplits := @splits_readSegments slot offset nextOffset hsound hmax
  have hindex := @indexPieces_slot slot offset nextOffset hsound happart hmax
  have hobject : ∀ {refs}, piece ∈ objectSegments offset nextOffset refs →
      (∀ object ∈ refs, object ∈ slot.cold.coldChunks.map ColdChunkRef.payloadRef ∨
        object ∈ slot.cold.externalSegments) → piece.2.Serves slot piece.1 := by
    intro refs hpiece hrefs
    obtain ⟨object, hobject, hlt, rfl⟩ := mem_objectSegments.mp hpiece
    exact ⟨rfl, hrefs object hobject, le_max_right _ _,
      show max offset object.startOffset + (min nextOffset object.endOffset -
        max offset object.startOffset) ≤ object.endOffset by omega⟩
  obtain ((hpiece | hpiece) | hpiece) | hpiece := by
    simpa only [StreamSlot.pieces, mem_append] using h
  · obtain ⟨pageId, len, hpos, hsegment, hpage, hend⟩ := hindex.index piece hpiece
    have hwithin := hindex.within piece hpiece
    have hlen : pieceEnd piece = piece.1 + len := by rw [pieceEnd, hsegment, StreamReadSegment.len]
    refine ⟨⟨hwithin.1, by omega, hwithin.2⟩, ?_⟩
    rw [hsegment]
    refine ⟨rfl, rfl, hpage, hend, fun i hlo hhi => ?_⟩
    exact ((hindex.cover i).mp ⟨piece, hpiece, hlo, hlen ▸ hhi⟩).2.2
  · exact ⟨within_objectSegments hpiece, hobject hpiece fun _ => .inl⟩
  · exact ⟨within_objectSegments hpiece, hobject hpiece fun _ => .inr⟩
  · obtain ⟨part, hpart, rfl⟩ := mem_map.mp hpiece
    have hwithin := hsplits.within part hpart
    exact ⟨⟨hwithin.1, show part.1 < part.1 + part.2.length by omega, hwithin.2.2⟩,
      hsplits.get part hpart⟩

/-- Every offset of the range lies in a segment. -/
theorem cover_pieces (hlo : offset ≤ i) (hhi : i < nextOffset) :
    ∃ piece ∈ slot.pieces offset nextOffset, Tiling.Holds Prod.fst pieceEnd piece i := by
  have hsplits := @splits_readSegments slot offset nextOffset hsound hmax
  have hindex := @indexPieces_slot slot offset nextOffset hsound happart hmax
  have hmem : ∀ piece, piece ∈ slot.pieces offset nextOffset ↔ _ := fun piece => by
    rw [StreamSlot.pieces, mem_append, mem_append, mem_append]
  by_cases hhot : slot.hotBuffer.map i = none
  · by_cases hchunk : ∃ chunk ∈ slot.cold.coldChunks, chunk.Holds i
    · obtain ⟨chunk, hchunk, hin⟩ := hchunk
      obtain ⟨piece, hpiece, hheld⟩ := exists_objectSegment
        (mem_map_of_mem (f := ColdChunkRef.payloadRef) hchunk) hin hlo hhi
      exact ⟨piece, (hmem piece).mpr (.inl (.inl (.inr hpiece))), hheld⟩
    · by_cases hexternal : ∃ object ∈ slot.cold.externalSegments, object.Holds i
      · obtain ⟨object, hobject, hin⟩ := hexternal
        obtain ⟨piece, hpiece, hheld⟩ := exists_objectSegment hobject hin hlo hhi
        exact ⟨piece, (hmem piece).mpr (.inl (.inr hpiece)), hheld⟩
      · obtain ⟨piece, hpiece, hheld⟩ := (hindex.cover i).mpr ⟨hlo, hhi, hhot,
          fun chunk hmem hin => hchunk ⟨chunk, hmem, hin⟩,
          fun object hmem hin => hexternal ⟨object, hmem, hin⟩⟩
        exact ⟨piece, (hmem piece).mpr (.inl (.inl (.inl hpiece))), hheld⟩
  · obtain ⟨part, hpart, hin⟩ := hsplits.cover i hlo hhi hhot
    exact ⟨(part.1, .hot part.2), (hmem _).mpr (.inr (mem_map.mpr ⟨part, hpart, rfl⟩)), hin⟩

/-- No offset lies in two segments. -/
theorem disjoint_pieces : (slot.pieces offset nextOffset).Pairwise fun a b =>
    ∀ i, Tiling.Holds Prod.fst pieceEnd a i → ¬ Tiling.Holds Prod.fst pieceEnd b i := by
  have hsplits := @splits_readSegments slot offset nextOffset hsound hmax
  have hindex := @indexPieces_slot slot offset nextOffset hsound happart hmax
  -- what the offsets of each kind of segment are
  have hgap : ∀ piece ∈ coldIndexGaps slot.cold.coldGeneration nextOffset slot.directColdRanges
      offset (slot.hotBuffer.readSegments offset nextOffset), ∀ i,
      Tiling.Holds Prod.fst pieceEnd piece i → slot.Unnamed i := fun piece hpiece i hin =>
    ((hindex.cover i).mp ⟨piece, hpiece, hin⟩).2.2
  have hobject : ∀ {refs : List ObjectPayloadRef}, ∀ piece ∈ objectSegments offset nextOffset refs,
      ∀ i, Tiling.Holds Prod.fst pieceEnd piece i →
        i < maxValue ∧ ∃ object ∈ refs, object.Holds i := by
    intro refs piece hpiece i hin
    obtain ⟨object, hobject, hlt, rfl⟩ := mem_objectSegments.mp hpiece
    obtain ⟨hheld, -, hhi⟩ := (holds_objectSegment hlt).mp hin
    exact ⟨by omega, object, hobject, hheld⟩
  have hhot : ∀ piece ∈ (slot.hotBuffer.readSegments offset nextOffset).map (fun part =>
      (part.1, hot part.2)), ∀ i, Tiling.Holds Prod.fst pieceEnd piece i →
        slot.hotBuffer.map i ≠ none := by
    intro piece hpiece i hin
    obtain ⟨part, hpart, rfl⟩ := mem_map.mp hpiece
    obtain ⟨hlo, hhi⟩ : part.1 ≤ i ∧ i < part.1 + part.2.length := hin
    have hget := hsplits.get part hpart (i - part.1) (by omega)
    rw [show part.1 + (i - part.1) = i by omega, getElem?_eq_getElem (by omega)] at hget
    rw [hget]
    exact Option.some_ne_none _
  have hchunk : ∀ {i}, (∃ object ∈ slot.cold.coldChunks.map ColdChunkRef.payloadRef,
      object.Holds i) → ∃ chunk ∈ slot.cold.coldChunks, chunk.Holds i := by
    rintro i ⟨_, hobject, hheld⟩
    obtain ⟨chunk, hchunk, rfl⟩ := mem_map.mp hobject
    exact ⟨chunk, hchunk, hheld⟩
  refine pairwise_append.mpr ⟨pairwise_append.mpr ⟨pairwise_append.mpr
    ⟨hindex.sorted.imp fun hle i ha hb => ?_, ?_, ?_⟩, ?_, ?_⟩, ?_, ?_⟩
  · have := ha.2
    have := hb.1
    omega
  · refine pairwise_objectSegments hmax (pairwise_map.mpr (hsound.ordered.imp ?_))
    intro a b hle i _ ha hb
    have hlt : i < a.endOffset := ha.2
    have hge : b.startOffset ≤ i := hb.1
    omega
  · intro a ha b hb i hin hin'
    obtain ⟨chunk, hmem, hheld⟩ := hchunk (hobject b hb i hin').2
    exact (hgap a ha i hin).chunk chunk hmem hheld
  · exact pairwise_objectSegments hmax happart.external
  · intro a ha b hb i hin hin'
    obtain ⟨hi, object, hmem, hheld⟩ := hobject b hb i hin'
    obtain ha | ha := mem_append.mp ha
    · exact (hgap a ha i hin).external object hmem hheld
    · obtain ⟨chunk, hmem', hheld'⟩ := hchunk (hobject a ha i hin).2
      exact happart.chunk object hmem chunk hmem' i hi hheld hheld'
  · refine pairwise_map.mpr (hsplits.sorted.imp fun {a b} hle i ha hb => ?_)
    have hlt : i < a.1 + a.2.length := ha.2
    have hge : b.1 ≤ i := hb.1
    omega
  · intro a ha b hb i hin hin'
    refine hhot b hb i hin' ?_
    obtain ha | ha := mem_append.mp ha
    · obtain ha | ha := mem_append.mp ha
      · exact (hgap a ha i hin).hot
      · obtain ⟨chunk, hmem, hheld⟩ := hchunk (hobject a ha i hin).2
        exact hsound.map_of_chunk hmem hheld
    · obtain ⟨hi, object, hmem, hheld⟩ := hobject a ha i hin
      exact happart.hot object hmem i hi hheld

/-- The segments of a slot tile the range of the read, and each reads what it names. -/
theorem readSegments_tiles (hle : offset ≤ nextOffset) :
    PlanTiles offset (slot.readSegments offset nextOffset) nextOffset ∧
      ∀ piece ∈ slot.readSegments offset nextOffset, piece.2.Serves slot piece.1 := by
  have hperm : (slot.readSegments offset nextOffset).Perm (slot.pieces offset nextOffset) :=
    perm_insertionSort _ _
  have hserves := fun piece (hpiece : piece ∈ slot.readSegments offset nextOffset) =>
    serves_pieces hsound happart hmax (hperm.mem_iff.mp hpiece)
  refine ⟨Tiling.tiles_of_cover hle (fun piece hpiece => (hserves piece hpiece).1) ?_ ?_
    fun i hlo hhi => ?_, fun piece hpiece => (hserves piece hpiece).2⟩
  · have htotal : Std.Total fun a b : ℕ × StreamReadSegment => a.1 ≤ b.1 :=
      ⟨fun a b => le_total a.1 b.1⟩
    exact pairwise_insertionSort _ _
  · refine (hperm.pairwise_iff fun {a b} h i ha hb => h i hb ha).mpr ?_
    exact disjoint_pieces hsound happart hmax
  · obtain ⟨piece, hpiece, hheld⟩ := cover_pieces hsound happart hmax hlo hhi
    exact ⟨piece, hperm.mem_iff.mpr hpiece, hheld⟩

end Slots

/-! ## Reads of a run -/

/-- **Read plans.** A read of a live stream from an offset in its retained range has a plan. Its
segments, none of them empty, lie end to end over the range that the read asks for: the hot bytes, a
part of the range of a reference, or offsets of one page that nothing in the state names. Read one
after another they give each byte of the range once. -/
theorem read_plan_tiles_range [Blake3] {machine : StreamStateMachine}
    (hrun : Reaches (fun _ _ _ => True) machine) {streamId : BucketStreamId} {slot : StreamSlot}
    (hslot : machine.streamSlot streamId = some slot) {offset nowMs : ℕ}
    (hlive : streamIsExpired slot.metadata nowMs = false) (hretained : slot.retainedOffset ≤ offset)
    (htail : offset ≤ slot.metadata.tailOffset) (hoffset : offset ≤ maxValue) (maxLen : ℕ) :
    ∃ plan, machine.readPlanAt streamId offset maxLen nowMs = .ok plan ∧
      plan.offset = offset ∧
      plan.nextOffset = min (min slot.metadata.tailOffset maxValue) (offset + maxLen) ∧
      ServedFrom slot plan.offset plan.segments plan.nextOffset ∧
      ∀ (content : ℕ → UInt8) (readObject : StreamReadObjectSegment → Bytes)
        (readColdIndex : StreamReadColdIndexSegment → Bytes),
        (∀ i byte, slot.hotBuffer.map i = some byte → content i = byte) →
        (∀ segment, readObject segment =
          (List.range' segment.readStartOffset segment.len).map content) →
        (∀ segment, readColdIndex segment =
          (List.range' segment.readStartOffset segment.len).map content) →
        readPayloadFromPlan readObject readColdIndex plan =
          (List.range' plan.offset (plan.nextOffset - plan.offset)).map content := by
  have hsound := hrun.sound hslot
  have happart := hrun.apart hslot
  set nextOffset := min slot.metadata.tailOffset (satAdd offset maxLen) with hnext
  have hmax : nextOffset ≤ maxValue := (min_le_right _ _).trans (satAdd_le_maxValue _ _)
  have hle : offset ≤ nextOffset := le_min htail (le_satAdd_left hoffset)
  obtain ⟨htiles, hserves⟩ := readSegments_tiles hsound happart hmax hle
  have hcovers : segmentsCoverRange (slot.readSegments offset nextOffset) offset
      nextOffset = true := by
    rw [segmentsCoverRange, if_neg (not_lt.mpr hle)]
    exact coverFrom_of_tiles htiles hserves hmax
  have hplan : machine.readPlanAt streamId offset maxLen nowMs = .ok
      { incarnation := machine.tokenOf slot.metadata
        offset := offset
        nextOffset := nextOffset
        contentType := slot.metadata.contentType
        segments := (slot.readSegments offset nextOffset).map Prod.snd
        upToDate := nextOffset = slot.metadata.tailOffset
        closed := slot.metadata.status = .closed } := by
    have hearliest : machine.earliestRetainedOffset streamId = slot.retainedOffset := by
      rw [StreamStateMachine.earliestRetainedOffset, hslot]
      rfl
    simp only [StreamStateMachine.readPlanAt, hslot, hlive, hearliest, ← hnext, hcovers, if_true,
      Bool.false_eq_true, if_false, gt_iff_lt, not_lt.mpr htail, not_lt.mpr hretained]
  have hserved := servedFrom_of_tiles htiles hserves
  refine ⟨_, hplan, rfl, ?_, hserved, fun content readObject readColdIndex hhot hobject hindex =>
    (flatMap_of_servedFrom hserved hhot hobject hindex).2⟩
  show min slot.metadata.tailOffset (satAdd offset maxLen) = _
  unfold satAdd
  omega

/-- A stream with a flushed slice, hot bytes, an external object and more hot bytes. -/
def sampleReadEntries : List (ℕ × StreamCommand) :=
  sampleGenesis ++
    [(3, sampleCreate [1, 2, 3]),
      (4, .flushCold sampleStream ⟨0, 2, "bkt1/pack", 2, 0, true, ""⟩ 1000),
      (5, .appendExternal sampleStream (some "text/plain") ⟨"bkt1/external", 4, 4⟩ 0 false none none
        1001),
      (6, sampleAppend [8, 9] none)]

/-- A read across a slice, hot bytes, an external object and hot bytes again. -/
theorem read_plan_tiles_sample :
    letI := Blake3.zero
    let machine := (StreamStateMachine.new.applyEntries sampleReadEntries).1
    ∃ slot plan, machine.streamSlot sampleStream = some slot ∧
      machine.readPlanAt sampleStream 1 100 1001 = .ok plan ∧
      ServedFrom slot 1 plan.segments plan.nextOffset ∧ plan.segments.length = 4 := by
  let blake3 := Blake3.zero
  intro machine
  have hrun : Reaches (fun _ _ _ => True) machine := Reaches.applyEntries .new _ (by decide +kernel)
  have hsample : (machine.streamSlot sampleStream).any (fun slot =>
      streamIsExpired slot.metadata 1001 = false ∧ slot.retainedOffset ≤ 1 ∧
        1 ≤ slot.metadata.tailOffset) = true := by decide +kernel
  have hlength : (machine.readPlanAt sampleStream 1 100 1001).toOption.map (fun plan =>
      plan.segments.length) = some 4 := by decide +kernel
  obtain ⟨slot, hslot, hlive⟩ := Option.any_eq_true _ _ |>.mp hsample
  obtain ⟨hlive, hretained, htail⟩ := of_decide_eq_true hlive
  obtain ⟨plan, hplan, hoffset, -, hserved, -⟩ :=
    read_plan_tiles_range hrun hslot hlive hretained htail (by decide) 100
  rw [hplan] at hlength
  exact ⟨slot, plan, hslot, hplan, hoffset ▸ hserved, Option.some.inj hlength⟩

/-- A backup of a stream whose slice and external object share an offset. -/
def overlappingBackup : StreamSnapshot :=
  letI := Blake3.zero
  let written :=
    (StreamStateMachine.new.applyEntries (sampleGenesis ++ [(3, sampleCreate [1, 2, 3])])).1
  { written.snapshot with
    streams := written.snapshot.streams.map fun entry =>
      { entry with
        payload := []
        hotSegments := []
        hotStartOffset := 0
        coldChunks := [⟨0, 2, "bkt1/pack", 2, 0, true, ""⟩]
        externalSegments := [⟨1, 3, "bkt1/external", 2, 0⟩] } }

/-- An import does not check that references are apart, and nor does the plan: a read of three bytes
reads four. -/
theorem imported_refs_overlap :
    letI := Blake3.zero
    let machine := (StreamStateMachine.new.applyEntry 1
      (.importSnapshot overlappingBackup 1 ⟨replicate 32 0, rfl⟩ 2000)).1
    ∃ plan, machine.readPlanAt sampleStream 0 3 1001 = .ok plan ∧ plan.nextOffset = 3 ∧
      (plan.segments.map len).sum = 4 := by
  let blake3 := Blake3.zero
  intro machine
  have hplan : (machine.readPlanAt sampleStream 0 3 1001).toOption.map (fun plan =>
      (plan.nextOffset, (plan.segments.map len).sum)) = some (3, 4) := by
    decide +kernel
  cases hread : machine.readPlanAt sampleStream 0 3 1001 with
  | error response =>
    rw [hread] at hplan
    cases hplan
  | ok plan =>
    rw [hread] at hplan
    obtain ⟨hnext, hsum⟩ := Prod.mk.inj (Option.some.inj hplan)
    exact ⟨plan, rfl, hnext, hsum⟩

end Ursula

import Mathlib.Data.List.Sort
import Ursula.Lib.ObjectStore
import Ursula.Runtime.ColdIndexPage
import Ursula.Stream.ReadPlan

/-!
# Writing cold-index pages

A flushed chunk and an offloaded external payload are written into every page whose span they meet.
The bytes of such a range are proved by the stream's state, so the write clips whatever else
overlaps the range. A write that was not committed is rolled back page by page. The page store
encodes what it is given and decodes what it returns, and its requests can fail.

## Main definitions

* `pageCodec`, `ColdIndexPageStore`: the page store
* `writeColdChunkIndexPages`, `rollbackColdIndexPages`: a chunk's pages, and back
* `writeProvenExternalIndexPages`: an external payload's pages
* `objectsForRead`, `objectsCoverRange`: what a read takes from a page

## Main results

* `page_writes_exact`: what the writes and the rollback leave
* `page_writes_drop_digest_keep_copies`: a page keeps no digest, and copies of an external entry
  that it already holds stay
-/

namespace Ursula.Runtime

open Word64 List ObjectStore

/-! ## Pages of a range -/

/-- Two half-open ranges overlap. -/
def RangesOverlap (start finish otherStart otherFinish : ℕ) : Prop :=
  start < otherFinish ∧ otherStart < finish

instance (start finish otherStart otherFinish : ℕ) :
    Decidable (RangesOverlap start finish otherStart otherFinish) :=
  inferInstanceAs (Decidable (_ ∧ _))

/-- The pages that a half-open range touches. -/
def pageIdsForRange (startOffset endOffset : ℕ) : List ℕ :=
  if endOffset = 0 ∨ endOffset - 1 < startOffset then []
  else
    List.range' (startOffset / coldIndexPageSpanBytes)
      ((endOffset - 1) / coldIndexPageSpanBytes + 1 - startOffset / coldIndexPageSpanBytes)

/-- A page without entries. -/
def emptyPage (pageId : ℕ) : ColdIndexPage where
  startOffset := satMul pageId coldIndexPageSpanBytes
  endOffset := satAdd (satMul pageId coldIndexPageSpanBytes) coldIndexPageSpanBytes
  coldChunks := []
  externalSegments := []

/-- The pages that a range touches, under their keys. -/
def pageKeys (streamId : BucketStreamId) (generation startOffset endOffset : ℕ) :
    List ColdIndexPageKey :=
  (pageIdsForRange startOffset endOffset).map fun pageId => ⟨streamId, generation, pageId⟩

/-! ## The page store -/

/-- The encoding of the pages in their store, which `pageCodec.get` and `pageCodec.put` ask. -/
def pageCodec : Codec ColdIndexPageKey ColdIndexPage Bytes IoError := ⟨encodePage, decodePage⟩

/-- The objects of the pages, and how the requests to come fare. -/
abbrev ColdIndexPageStore := ObjectStore ColdIndexPageKey Bytes IoError

/-- A program on the page store. -/
abbrev PageM (α : Type) := Program ColdIndexPageKey Bytes IoError α

/-- What a writer makes of a page: the page to put, if any, and its answer. -/
abbrev PageChange (β : Type) := Codec.Change ColdIndexPage β

/-! ## Writing a chunk -/

/-- A chunk and a page entry overlap. -/
def ChunkOverlaps (chunk other : ColdChunkRef) : Prop :=
  RangesOverlap other.startOffset other.endOffset chunk.startOffset chunk.endOffset

instance (chunk other : ColdChunkRef) : Decidable (ChunkOverlaps chunk other) :=
  inferInstanceAs (Decidable (RangesOverlap _ _ _ _))

/-- The entry that the write of a chunk leaves. -/
def SameWrite (chunk other : ColdChunkRef) : Prop :=
  other.startOffset = chunk.startOffset ∧ other.endOffset = chunk.endOffset ∧
    other.s3Path = chunk.s3Path

instance (chunk other : ColdChunkRef) : Decidable (SameWrite chunk other) :=
  inferInstanceAs (Decidable (_ ∧ _ ∧ _))

/-- Removes the entries other than the chunk that overlap it, and counts them. -/
def clipPageForProvenChunk (page : ColdIndexPage) (chunk : ColdChunkRef) : ColdIndexPage × ℕ :=
  let clipped := { page with
    coldChunks := page.coldChunks.filter fun existing =>
      SameWrite chunk existing ∨ ¬ ChunkOverlaps chunk existing
    externalSegments := page.externalSegments.filter fun existing =>
      ¬ RangesOverlap existing.startOffset existing.endOffset chunk.startOffset chunk.endOffset }
  (clipped, page.coldChunks.length + page.externalSegments.length -
    (clipped.coldChunks.length + clipped.externalSegments.length))

/-- The page with the chunk written into it. -/
def ColdIndexPage.withChunk (page : ColdIndexPage) (chunk : ColdChunkRef) : ColdIndexPage :=
  let clipped := (clipPageForProvenChunk page chunk).1
  { clipped with
    coldChunks := ((clipped.coldChunks.filter fun existing =>
      existing.startOffset ≠ chunk.startOffset ∨ existing.endOffset ≠ chunk.endOffset) ++
        [chunk]).insertionSort fun left right => left.startOffset ≤ right.startOffset }

/-- What is needed to take back the write of one page. -/
structure ColdIndexPageRollback where
  key : ColdIndexPageKey
  previous : Option ColdIndexPage
  writtenChunk : ColdChunkRef
  clippedEntries : ℕ

/-- The page with the chunk, and what is noted to take the write back. -/
def chunkChange (chunk : ColdChunkRef) (key : ColdIndexPageKey) :
    PageChange ColdIndexPageRollback :=
  fun previous =>
    let page := previous.getD (emptyPage key.pageId)
    (some (page.withChunk chunk), {
      key
      previous
      writtenChunk := chunk
      clippedEntries := (clipPageForProvenChunk page chunk).2 })

/-- Writes the chunk into every page it spans. -/
def writeColdChunkIndexPages (streamId : BucketStreamId) (generation : ℕ) (chunk : ColdChunkRef) :
    PageM (List ColdIndexPageRollback) :=
  pageCodec.rewriteEach id (chunkChange chunk)
    (pageKeys streamId generation chunk.startOffset chunk.endOffset)

/-- The page as it was noted, unless the chunk is no longer there. -/
def rollbackChange (entry : ColdIndexPageRollback) : PageChange Unit
  | none => (none, ())
  | some current =>
    if ∃ chunk ∈ current.coldChunks, SameWrite entry.writtenChunk chunk then
      (some (entry.previous.getD (emptyPage entry.key.pageId)), ())
    else
      (none, ())

/-- Takes back a write, its last page first. -/
def rollbackColdIndexPages (rollback : List ColdIndexPageRollback) : PageM Unit := do
  let _ ← pageCodec.rewriteEach ColdIndexPageRollback.key rollbackChange rollback.reverse

/-! ## Writing an external payload -/

/-- The object's range overlaps another one. -/
def ObjectOverlaps (object : ObjectPayloadRef) (start finish : ℕ) : Prop :=
  RangesOverlap start finish object.startOffset object.endOffset

instance (object : ObjectPayloadRef) (start finish : ℕ) :
    Decidable (ObjectOverlaps object start finish) :=
  inferInstanceAs (Decidable (RangesOverlap _ _ _ _))

/-- The page with the external payload written into it. -/
def ColdIndexPage.withExternal (page : ColdIndexPage) (object : ObjectPayloadRef) : ColdIndexPage :=
  let kept := page.externalSegments.filter fun existing =>
    existing = object ∨ ¬ ObjectOverlaps object existing.startOffset existing.endOffset
  { page with
    coldChunks := page.coldChunks.filter fun chunk =>
      ¬ ObjectOverlaps object chunk.startOffset chunk.endOffset
    externalSegments :=
      if object ∈ kept then kept
      else (kept ++ [object]).insertionSort fun left right => left.startOffset ≤ right.startOffset }

/-- The page with the external payload, unless it is as it was, and how many entries were
clipped. -/
def externalChange (object : ObjectPayloadRef) (key : ColdIndexPageKey) : PageChange ℕ :=
  fun previous =>
    let page := previous.getD (emptyPage key.pageId)
    let kept := page.externalSegments.filter fun existing =>
      existing = object ∨ ¬ ObjectOverlaps object existing.startOffset existing.endOffset
    let clipped := page.coldChunks.length + page.externalSegments.length -
      ((page.withExternal object).coldChunks.length + kept.length)
    (if previous ≠ some (page.withExternal object) then some (page.withExternal object) else none,
      clipped)

/-- Writes a committed external payload into every page it spans and counts what was clipped. -/
def writeProvenExternalIndexPages (streamId : BucketStreamId) (generation : ℕ)
    (object : ObjectPayloadRef) : PageM ℕ := do
  let clipped ← pageCodec.rewriteEach id (externalChange object)
    (pageKeys streamId generation object.startOffset object.endOffset)
  return clipped.foldl satAdd 0

/-! ## Reading a page -/

/-- The object, when it meets the range. -/
def intersectObject (object : ObjectPayloadRef) (readStart readEnd : ℕ) : Option ObjectPayloadRef :=
  if max object.startOffset readStart < min object.endOffset readEnd then some object else none

/-- The external entries that a read may use: the last one at its start, and none that overlaps a
chunk. -/
def usableExternals (chunks : List ColdChunkRef) : List ObjectPayloadRef → List ObjectPayloadRef
  | [] => []
  | object :: later =>
    if (∃ other ∈ later, other.startOffset = object.startOffset) ∨
        ∃ chunk ∈ chunks, RangesOverlap object.startOffset object.endOffset chunk.startOffset
          chunk.endOffset then
      usableExternals chunks later
    else
      object :: usableExternals chunks later

/-- The objects of a page that serve a read, by their start. -/
def objectsForRead (page : ColdIndexPage) (readStart readEnd : ℕ) : List ObjectPayloadRef :=
  ((page.coldChunks.filterMap fun chunk => intersectObject chunk.payloadRef readStart readEnd) ++
    (usableExternals page.coldChunks page.externalSegments).filterMap fun object =>
      intersectObject object readStart readEnd).insertionSort
    fun left right => left.startOffset ≤ right.startOffset

/-- From `expected` on, the objects reach the end of the range without a gap. -/
def coversFrom (finish : ℕ) : ℕ → List ObjectPayloadRef → Bool
  | expected, [] => expected = finish
  | expected, object :: rest =>
    if object.endOffset ≤ expected then coversFrom finish expected rest
    else if object.startOffset > expected then false
    else if object.endOffset ≥ finish then true
    else coversFrom finish object.endOffset rest

/-- Whether objects cover a range. -/
def objectsCoverRange (objects : List ObjectPayloadRef) (start finish : ℕ) : Bool :=
  coversFrom finish start objects

/-! ## The pages that a write touches -/

section

variable {streamId : BucketStreamId} {generation startOffset endOffset : ℕ}

/-- A write touches the pages of its stream and generation whose span meets the range. -/
theorem mem_pageKeys (h : startOffset < endOffset) {key : ColdIndexPageKey} :
    key ∈ pageKeys streamId generation startOffset endOffset ↔
      key.streamId = streamId ∧ key.generation = generation ∧
        RangesOverlap startOffset endOffset (key.pageId * coldIndexPageSpanBytes)
          ((key.pageId + 1) * coldIndexPageSpanBytes) := by
  have hspan : 0 < coldIndexPageSpanBytes := by decide
  obtain ⟨keyStream, keyGeneration, pageId⟩ := key
  rw [pageKeys, pageIdsForRange, if_neg (by omega)]
  generalize coldIndexPageSpanBytes = span at *
  have hid : pageId ∈ range' (startOffset / span)
      ((endOffset - 1) / span + 1 - startOffset / span) ↔
      RangesOverlap startOffset endOffset (pageId * span) ((pageId + 1) * span) := by
    have hlow : startOffset / span ≤ pageId ↔ startOffset < (pageId + 1) * span := by
      rw [← Nat.lt_succ_iff, Nat.div_lt_iff_lt_mul hspan]
    have hhigh : pageId ≤ (endOffset - 1) / span ↔ pageId * span < endOffset := by
      rw [Nat.le_div_iff_mul_le hspan]
      omega
    rw [mem_range'_1, RangesOverlap, ← hlow, ← hhigh]
    omega
  rw [← hid]
  simp only [mem_map, ColdIndexPageKey.mk.injEq]
  constructor
  · rintro ⟨_, hmem, rfl, rfl, rfl⟩
    exact ⟨rfl, rfl, hmem⟩
  · rintro ⟨rfl, rfl, hmem⟩
    exact ⟨pageId, hmem, rfl, rfl, rfl⟩

theorem nodup_pageKeys : (pageKeys streamId generation startOffset endOffset).Nodup := by
  refine List.Nodup.map (fun a b h => (ColdIndexPageKey.mk.inj h).2.2) ?_
  unfold pageIdsForRange
  split_ifs
  · exact nodup_nil
  · exact nodup_range'

end

/-! ## One page -/

/-- What the write of a chunk makes of a page. -/
structure ChunkWritten (chunk : ColdChunkRef) (before after : ColdIndexPage) : Prop where
  one : after.coldChunks.count chunk = 1
  chunks : ∀ other ∈ after.coldChunks, other ≠ chunk → ¬ ChunkOverlaps chunk other
  externals : ∀ object ∈ after.externalSegments,
    ¬ RangesOverlap object.startOffset object.endOffset chunk.startOffset chunk.endOffset
  keepsChunks : ∀ other, ¬ ChunkOverlaps chunk other →
    after.coldChunks.count other = before.coldChunks.count other
  keepsExternals : ∀ object : ObjectPayloadRef,
    ¬ RangesOverlap object.startOffset object.endOffset chunk.startOffset chunk.endOffset →
      after.externalSegments.count object = before.externalSegments.count object
  reads : ∀ readStart readEnd, chunk.startOffset ≤ readStart → readStart ≤ readEnd →
    readEnd ≤ chunk.endOffset →
      objectsForRead after readStart readEnd =
        (if readStart < readEnd then [chunk.payloadRef] else []) ∧
        objectsCoverRange (objectsForRead after readStart readEnd) readStart readEnd = true

/-- What the write of an external payload makes of a page. -/
structure ExternalWritten (object : ObjectPayloadRef) (before after : ColdIndexPage) : Prop where
  present : object ∈ after.externalSegments
  one : before.externalSegments.count object ≤ 1 → after.externalSegments.count object = 1
  externals : ∀ other ∈ after.externalSegments, other ≠ object →
    ¬ ObjectOverlaps object other.startOffset other.endOffset
  chunks : ∀ chunk ∈ after.coldChunks, ¬ ObjectOverlaps object chunk.startOffset chunk.endOffset
  keepsExternals : ∀ other, ¬ ObjectOverlaps object other.startOffset other.endOffset →
    after.externalSegments.count other = before.externalSegments.count other
  keepsChunks : ∀ chunk : ColdChunkRef, ¬ ObjectOverlaps object chunk.startOffset chunk.endOffset →
    after.coldChunks.count chunk = before.coldChunks.count chunk

section

variable {chunk : ColdChunkRef} {object : ObjectPayloadRef} {page : ColdIndexPage}

/-- The chunks of a written page: the chunk, and what does not overlap it. -/
theorem coldChunks_withChunk (h : chunk.startOffset < chunk.endOffset) :
    (page.withChunk chunk).coldChunks.Perm
      (chunk :: page.coldChunks.filter fun other => ¬ ChunkOverlaps chunk other) := by
  refine (perm_insertionSort _ _).trans ?_
  rw [clipPageForProvenChunk, filter_filter]
  refine perm_append_comm.trans (List.Perm.of_eq ?_)
  rw [singleton_append]
  congr 1
  refine filter_congr fun other _ => ?_
  rw [← Bool.decide_and]
  refine decide_eq_decide.mpr ?_
  simp only [SameWrite, ChunkOverlaps, RangesOverlap]
  omega

variable {other : ObjectPayloadRef}

/-- An object that meets a part of a range overlaps the range. -/
theorem intersectObject_eq_none {start finish readStart readEnd : ℕ}
    (h : ¬ RangesOverlap other.startOffset other.endOffset start finish)
    (hstart : start ≤ readStart)
    (hend : readEnd ≤ finish) : intersectObject other readStart readEnd = none := by
  refine if_neg fun hmeets => h ?_
  exact ⟨by omega, by omega⟩

theorem mem_of_mem_usableExternals {chunks : List ColdChunkRef} {externals : List ObjectPayloadRef}
    (h : object ∈ usableExternals chunks externals) : object ∈ externals := by
  induction externals with
  | nil => exact h
  | cons first later ih =>
    unfold usableExternals at h
    split_ifs at h
    · exact mem_cons_of_mem _ (ih h)
    · rcases mem_cons.mp h with rfl | h
      · exact mem_cons_self
      · exact mem_cons_of_mem _ (ih h)

/-- A read within the chunk takes the chunk only. -/
theorem objectsForRead_of_perm {others : List ColdChunkRef}
    (hchunks : page.coldChunks.Perm (chunk :: others))
    (hothers : ∀ other ∈ others, ¬ ChunkOverlaps chunk other)
    (hexternals : ∀ object ∈ page.externalSegments,
      ¬ RangesOverlap object.startOffset object.endOffset chunk.startOffset chunk.endOffset)
    {readStart readEnd : ℕ} (hstart : chunk.startOffset ≤ readStart)
    (hend : readEnd ≤ chunk.endOffset) : objectsForRead page readStart readEnd =
      if readStart < readEnd then [chunk.payloadRef] else [] := by
  have hnone : (usableExternals page.coldChunks page.externalSegments).filterMap
      (fun object => intersectObject object readStart readEnd) = [] :=
    filterMap_eq_nil_iff.mpr fun object hobject =>
      intersectObject_eq_none (hexternals object (mem_of_mem_usableExternals hobject)) hstart hend
  have hrest : others.filterMap (fun other => intersectObject other.payloadRef readStart readEnd) =
      [] :=
    filterMap_eq_nil_iff.mpr fun other hother =>
      intersectObject_eq_none (hothers other hother) hstart hend
  have hself : intersectObject chunk.payloadRef readStart readEnd =
      if readStart < readEnd then some chunk.payloadRef else none := by
    refine if_congr ?_ rfl rfl
    show max chunk.startOffset readStart < min chunk.endOffset readEnd ↔ _
    omega
  have hread := hchunks.filterMap fun other => intersectObject other.payloadRef readStart readEnd
  unfold objectsForRead
  rw [hnone, append_nil]
  rw [filterMap_cons, hself, hrest] at hread
  split_ifs at hread ⊢ with hbytes
  · rw [perm_singleton.mp hread]
    rfl
  · rw [perm_nil.mp hread]
    rfl

theorem chunkWritten_withChunk (h : chunk.startOffset < chunk.endOffset) :
    ChunkWritten chunk page (page.withChunk chunk) := by
  have hself : ChunkOverlaps chunk chunk := ⟨h, h⟩
  have hperm : (page.withChunk chunk).coldChunks.Perm _ := coldChunks_withChunk h
  have hothers : ∀ other ∈ page.coldChunks.filter (fun other => ¬ ChunkOverlaps chunk other),
      ¬ ChunkOverlaps chunk other := fun other hother => of_decide_eq_true (mem_filter.mp hother).2
  have hexternals : ∀ object ∈ (page.withChunk chunk).externalSegments,
      ¬ RangesOverlap object.startOffset object.endOffset chunk.startOffset chunk.endOffset :=
    fun object hobject => of_decide_eq_true (mem_filter.mp hobject).2
  refine ⟨?_, ?_, hexternals, ?_, ?_, ?_⟩
  · have hnone : chunk ∉ page.coldChunks.filter (fun other => ¬ ChunkOverlaps chunk other) :=
      fun hmem => hothers chunk hmem hself
    rw [hperm.count_eq, count_cons_self, count_eq_zero.mpr hnone]
  · intro other hother hne
    rcases mem_cons.mp (hperm.mem_iff.mp hother) with rfl | hmem
    · exact absurd rfl hne
    · exact hothers other hmem
  · intro other hother
    have hne : chunk ≠ other := fun heq => hother (heq ▸ hself)
    rw [hperm.count_eq, count_cons_of_ne hne]
    exact count_filter (decide_eq_true hother)
  · intro object hobject
    exact count_filter (decide_eq_true hobject)
  · intro readStart readEnd hstart horder hend
    rw [objectsForRead_of_perm hperm hothers hexternals hstart hend]
    refine ⟨rfl, ?_⟩
    split_ifs with hbytes
    · show (if chunk.endOffset ≤ readStart then _ else if chunk.startOffset > readStart then _
        else if chunk.endOffset ≥ readEnd then true else _) = true
      rw [if_neg (by omega), if_neg (by omega), if_pos hend]
    · exact decide_eq_true (by omega)

/-- The external entries of a written page: the payload, and what does not overlap it. -/
theorem mem_externalSegments_withExternal
    (h : other ∈ (page.withExternal object).externalSegments) :
    other = object ∨ other ∈ page.externalSegments ∧
      ¬ ObjectOverlaps object other.startOffset other.endOffset := by
  have hkept : ∀ other ∈ page.externalSegments.filter (fun existing =>
      existing = object ∨ ¬ ObjectOverlaps object existing.startOffset existing.endOffset),
      other = object ∨ other ∈ page.externalSegments ∧
        ¬ ObjectOverlaps object other.startOffset other.endOffset := by
    intro other hother
    obtain ⟨hmem, hkeeps⟩ := mem_filter.mp hother
    exact (of_decide_eq_true hkeeps).imp_right fun hoverlaps => ⟨hmem, hoverlaps⟩
  unfold ColdIndexPage.withExternal at h
  simp only at h
  split_ifs at h with hmem
  · exact hkept other h
  · rw [mem_insertionSort, mem_append, mem_singleton] at h
    exact h.elim (hkept other) .inl

theorem mem_withExternal_self : object ∈ (page.withExternal object).externalSegments := by
  unfold ColdIndexPage.withExternal
  simp only
  split_ifs with hmem
  · exact hmem
  · simp

/-- How often a written page holds an entry that the write keeps. -/
theorem count_withExternal
    (h : other = object ∨ ¬ ObjectOverlaps object other.startOffset other.endOffset) :
    (page.withExternal object).externalSegments.count other =
      if other = object then max 1 (page.externalSegments.count other)
      else page.externalSegments.count other := by
  have hkept : (page.externalSegments.filter fun existing =>
      existing = object ∨ ¬ ObjectOverlaps object existing.startOffset existing.endOffset).count
        other =
      page.externalSegments.count other := count_filter (decide_eq_true h)
  unfold ColdIndexPage.withExternal
  simp only
  split_ifs with hmem hsame hsame
  · subst hsame
    have hpos := count_pos_iff.mpr hmem
    omega
  · exact hkept
  · subst hsame
    have hzero := count_eq_zero.mpr hmem
    rw [(perm_insertionSort _ _).count_eq, count_append, count_singleton_self]
    omega
  · rw [(perm_insertionSort _ _).count_eq, count_append, hkept,
      count_singleton, if_neg (by simpa using Ne.symm hsame), Nat.add_zero]

theorem externalWritten_withExternal (h : object.startOffset < object.endOffset) :
    ExternalWritten object page (page.withExternal object) where
  present := mem_withExternal_self
  one := by
    rw [count_withExternal (.inl rfl), if_pos rfl]
    omega
  externals other hother hne := ((mem_externalSegments_withExternal hother).resolve_left hne).2
  chunks chunk hchunk := of_decide_eq_true (mem_filter.mp hchunk).2
  keepsExternals other hother := by
    have hne : other ≠ object := by
      rintro rfl
      exact hother ⟨h, h⟩
    rw [count_withExternal (.inr hother), if_neg hne]
  keepsChunks chunk hchunk := count_filter (decide_eq_true hchunk)

/-- A written page holds no external entry that writing the payload again would clip. -/
theorem filter_externalSegments_withExternal :
    (page.withExternal object).externalSegments.filter (fun existing =>
      existing = object ∨ ¬ ObjectOverlaps object existing.startOffset existing.endOffset) =
        (page.withExternal object).externalSegments :=
  filter_eq_self.mpr fun _ hother => decide_eq_true
    ((mem_externalSegments_withExternal hother).imp_right And.right)

/-- Writing an external payload again makes the same page. -/
theorem withExternal_again :
    (page.withExternal object).withExternal object = page.withExternal object := by
  have hchunks : (page.withExternal object).coldChunks.filter (fun chunk =>
      ¬ ObjectOverlaps object chunk.startOffset chunk.endOffset) =
        (page.withExternal object).coldChunks :=
    filter_eq_self.mpr fun chunk hchunk => (mem_filter.mp hchunk).2
  rw [ColdIndexPage.withExternal, filter_externalSegments_withExternal, hchunks,
    if_pos mem_withExternal_self]

end

/-! ## Stored pages -/

section

variable {chunk : ColdChunkRef} {object : ObjectPayloadRef} {page : ColdIndexPage}
  {key : ColdIndexPageKey} {before : Option Bytes} {previous : Option ColdIndexPage}

theorem plain_emptyPage (pageId : ℕ) : (emptyPage pageId).Plain where
  startOffset := min_le_right _ _
  endOffset := min_le_right _ _
  chunks := nofun
  externals := nofun

/-- A page that a write starts from has only what a text keeps. -/
theorem plain_of_read (h : pageCodec.read key before = .ok previous) :
    (previous.getD (emptyPage key.pageId)).Plain := by
  cases previous with
  | none => exact plain_emptyPage _
  | some page =>
    obtain ⟨-, hnone⟩ | ⟨bytes, _, -, hpage, hdecode⟩ := Codec.read_eq_ok h
    · cases hnone
    · cases hpage
      exact (decodePage_eq_ok.mp hdecode).2.1

/-- What a text keeps of a page with a chunk written into it. -/
theorem stored_withChunk (hpage : page.Plain) :
    (page.withChunk chunk).stored = page.withChunk (storedChunk chunk) := by
  have hkept : ∀ p : ColdChunkRef → Bool, (page.coldChunks.filter p).map storedChunk =
      page.coldChunks.filter p := fun p =>
    (map_congr_left fun other hother =>
      (hpage.chunks other (mem_of_mem_filter hother)).stored_eq).trans (map_id' _)
  have hexternals : (page.withChunk chunk).externalSegments.map storedObject =
      (page.withChunk chunk).externalSegments :=
    (map_congr_left fun object hobject =>
      (hpage.externals object (mem_of_mem_filter hobject)).stored_eq).trans (map_id' _)
  have hchunks : (page.withChunk chunk).coldChunks.map storedChunk =
      (page.withChunk (storedChunk chunk)).coldChunks := by
    refine (map_insertionSort _ (fun left right : ColdChunkRef =>
      left.startOffset ≤ right.startOffset) storedChunk _ fun _ _ _ _ => Iff.rfl).trans ?_
    rw [map_append, clipPageForProvenChunk, filter_filter, hkept, ← filter_filter]
    rfl
  unfold ColdIndexPage.stored
  rw [hchunks, hexternals]
  rfl

theorem plain_withChunk (hpage : page.Plain) (hchunk : PlainChunk chunk)
    (h : chunk.startOffset < chunk.endOffset) : (page.withChunk chunk).Plain where
  startOffset := hpage.startOffset
  endOffset := hpage.endOffset
  chunks other hother := by
    rcases mem_cons.mp ((coldChunks_withChunk h).mem_iff.mp hother) with rfl | hmem
    · exact hchunk
    · exact hpage.chunks other (mem_of_mem_filter hmem)
  externals object hobject := hpage.externals object (mem_of_mem_filter hobject)

theorem plain_withExternal (hpage : page.Plain) (hobject : PlainObject object) :
    (page.withExternal object).Plain where
  startOffset := hpage.startOffset
  endOffset := hpage.endOffset
  chunks chunk hchunk := hpage.chunks chunk (mem_of_mem_filter hchunk)
  externals other hother := by
    rcases mem_externalSegments_withExternal hother with rfl | ⟨hmem, -⟩
    · exact hobject
    · exact hpage.externals other hmem

end

/-! ## Whole writes -/

/-- A page of the stream's generation whose span meets a range. -/
def Meets (streamId : BucketStreamId) (generation startOffset endOffset : ℕ)
    (key : ColdIndexPageKey) : Prop :=
  key.streamId = streamId ∧ key.generation = generation ∧
    RangesOverlap startOffset endOffset (key.pageId * coldIndexPageSpanBytes)
      ((key.pageId + 1) * coldIndexPageSpanBytes)

/-- The object under a key holds the page with a chunk written into it. -/
def ChunkPage (chunk : ColdChunkRef) (key : ColdIndexPageKey)
    (before after : Option Bytes) : Prop :=
  ∃ previous page, pageCodec.read key before = .ok previous ∧
    pageCodec.read key after = .ok (some page) ∧
    ChunkWritten (storedChunk chunk) (previous.getD (emptyPage key.pageId)) page

/-- The object under a key holds the page with an external payload written into it. -/
def ExternalPage (object : ObjectPayloadRef) (key : ColdIndexPageKey)
    (before after : Option Bytes) : Prop :=
  ∃ previous page, pageCodec.read key before = .ok previous ∧
    pageCodec.read key after = .ok (some page) ∧
    ExternalWritten object (previous.getD (emptyPage key.pageId)) page

/-- The object under a key is the one that was there, or holds an empty page when there was none. -/
def Restored (key : ColdIndexPageKey) (before after : Option Bytes) : Prop :=
  match before with
  | some _ => after = before
  | none => pageCodec.read key after = .ok (some (emptyPage key.pageId))

/-- The object under a key holds a page, and the changed page fits the length field of a text. -/
def Fits (change : ColdIndexPage → ColdIndexPage) (key : ColdIndexPageKey) (object : Option Bytes) :
    Prop :=
  ∃ previous, pageCodec.read key object = .ok previous ∧
    bodyLength key (change (previous.getD (emptyPage key.pageId))) < 2 ^ 32

section

variable {streamId : BucketStreamId} {generation : ℕ} {key : ColdIndexPageKey}
  {chunk : ColdChunkRef} {object : ObjectPayloadRef} {before after : Option Bytes}
  {entry : ColdIndexPageRollback}

theorem typed_of_mem_pageKeys {startOffset endOffset : ℕ} (hgeneration : generation ≤ maxValue)
    (hend : endOffset ≤ maxValue) (h : startOffset < endOffset)
    (hkey : key ∈ pageKeys streamId generation startOffset endOffset) : key.Typed := by
  obtain ⟨-, rfl, -, hbelow⟩ := (mem_pageKeys h).mp hkey
  have hspan : key.pageId ≤ key.pageId * coldIndexPageSpanBytes :=
    Nat.le_mul_of_pos_right _ (by decide)
  exact ⟨hgeneration, by omega⟩

/-- Where any page has a text, the empty page has one. -/
theorem exists_encodePage_emptyPage {page : ColdIndexPage} {bytes : Bytes}
    (h : encodePage key page = some bytes) (pageId : ℕ) :
    ∃ text, encodePage key (emptyPage pageId) = some text := by
  obtain ⟨body, hbody, hlength, -⟩ := encodePage_eq_some.mp h
  obtain ⟨keyBytes, hkey, -, chunks, -, -, externals, -, rfl⟩ := encodeBody_eq_some.mp hbody
  refine ⟨_, encodePage_eq_some.mpr ⟨_, encodeBody_eq_some.mpr
    ⟨keyBytes, hkey, Nat.two_pow_pos 32, [], rfl, Nat.two_pow_pos 32, [], rfl, rfl⟩, ?_, rfl⟩⟩
  simp only [length_append, putU64, putU32, ByteReader.length_le, length_nil] at hlength ⊢
  omega

theorem key_of_rewritten_chunkChange
    (hrewritten : pageCodec.rewritten key (chunkChange chunk key) before = some (after, entry)) :
    entry.key = key := by
  obtain ⟨previous, -, ⟨hchange, -⟩ | ⟨page, bytes, hchange, -, -⟩⟩ :=
    Codec.rewritten_eq_some hrewritten
  · cases hchange
  · cases hchange
    rfl

/-- What the write of a chunk leaves under a key, and what it notes. -/
theorem rewritten_chunkChange (hkey : key.Typed) (hchunk : PlainChunk (storedChunk chunk))
    (h : chunk.startOffset < chunk.endOffset)
    (hrewritten : pageCodec.rewritten key (chunkChange chunk key) before = some (after, entry)) :
    entry.key = key ∧ entry.writtenChunk = chunk ∧ pageCodec.read key before = .ok entry.previous ∧
      ∃ bytes, after = some bytes ∧ decodePage key bytes =
        .ok ((entry.previous.getD (emptyPage key.pageId)).withChunk (storedChunk chunk)) := by
  obtain ⟨previous, hprevious, ⟨hchange, -⟩ | ⟨page, bytes, hchange, hencode, rfl⟩⟩ :=
    Codec.rewritten_eq_some hrewritten
  · cases hchange
  · cases hchange
    have hplain := plain_of_read hprevious
    refine ⟨rfl, rfl, hprevious, bytes, rfl, decodePage_eq_ok.mpr
      ⟨hkey, plain_withChunk hplain hchunk h, ?_⟩⟩
    rw [← stored_withChunk hplain, encodePage_stored]
    exact hencode

theorem chunkPage_of_rewritten (hkey : key.Typed) (hchunk : PlainChunk (storedChunk chunk))
    (h : chunk.startOffset < chunk.endOffset)
    (hrewritten : pageCodec.rewritten key (chunkChange chunk key) before = some (after, entry)) :
    ChunkPage chunk key before after := by
  obtain ⟨-, -, hprevious, bytes, rfl, hdecode⟩ := rewritten_chunkChange hkey hchunk h hrewritten
  exact ⟨entry.previous, _, hprevious, Codec.read_some hdecode, chunkWritten_withChunk h⟩

/-- Taking back the write of a page that still holds the chunk puts back what was noted. -/
theorem rewritten_rollbackChange (hkey : key.Typed) (hchunk : PlainChunk (storedChunk chunk))
    (h : chunk.startOffset < chunk.endOffset)
    (hrewritten : pageCodec.rewritten key (chunkChange chunk key) before = some (after, entry)) :
    ∃ last, pageCodec.rewritten key (rollbackChange entry) after = some (last, ()) ∧
      Restored key before last := by
  obtain ⟨rfl, hwritten, hprevious, bytes, rfl, hdecode⟩ :=
    rewritten_chunkChange hkey hchunk h hrewritten
  -- the page still holds what the text keeps of the chunk, so the rollback finds its own write
  have hholds : ∃ other ∈ ((entry.previous.getD (emptyPage entry.key.pageId)).withChunk
      (storedChunk chunk)).coldChunks, SameWrite entry.writtenChunk other := by
    have hperm : ((entry.previous.getD (emptyPage entry.key.pageId)).withChunk
        (storedChunk chunk)).coldChunks.Perm (storedChunk chunk :: _) := coldChunks_withChunk h
    refine ⟨storedChunk chunk, hperm.mem_iff.mpr mem_cons_self, ?_⟩
    rw [hwritten]
    exact ⟨rfl, rfl, rfl⟩
  have hback : ∀ text, pageCodec.encode entry.key
      (entry.previous.getD (emptyPage entry.key.pageId)) = some text →
        pageCodec.rewritten entry.key (rollbackChange entry) (some bytes) =
          some (some text, ()) := by
    intro text htext
    rw [Codec.rewritten, Codec.read_some hdecode]
    simp only [rollbackChange, if_pos hholds, htext, Option.map_some]
  -- without an object before, the empty page is put; an object comes back byte for byte
  obtain ⟨rfl, hnone⟩ | ⟨text, page, rfl, hsome, htext⟩ := Codec.read_eq_ok hprevious
  · obtain ⟨text, htext⟩ := exists_encodePage_emptyPage (decodePage_eq_ok.mp hdecode).2.2
      entry.key.pageId
    rw [hnone] at hback
    exact ⟨some text, hback text htext,
      Codec.read_some (decodePage_eq_ok.mpr ⟨hkey, plain_emptyPage _, htext⟩)⟩
  · rw [hsome] at hback
    exact ⟨some text, hback text (decodePage_eq_ok.mp htext).2.2, rfl⟩

/-- A write of a page that fits succeeds when no request fails. -/
theorem isSome_rewritten {β : Type} {change : PageChange β} {make : ColdIndexPage → ColdIndexPage}
    (h : Fits make key before) (hchange : ∀ previous page, (change previous).1 = some page →
      page = make (previous.getD (emptyPage key.pageId))) :
    (pageCodec.rewritten key change before).isSome := by
  obtain ⟨previous, hprevious, hlength⟩ := h
  obtain ⟨bytes, hencode⟩ := exists_encodePage hlength
  rw [Codec.rewritten, hprevious]
  rcases hmade : change previous with ⟨_ | page, answer⟩
  · simp only [hmade, Option.isSome_some]
  · obtain rfl := hchange previous page (congrArg Prod.fst hmade)
    have hput : pageCodec.encode key (make (previous.getD (emptyPage key.pageId))) = some bytes :=
      hencode
    simp only [hmade, hput, Option.map_some, Option.isSome_some]

/-- What the write of an external payload leaves under a key. -/
theorem read_of_rewritten_externalChange (hkey : key.Typed) (hobject : PlainObject object)
    {clipped : ℕ} (hrewritten : pageCodec.rewritten key (externalChange object key) before =
      some (after, clipped)) :
    ∃ previous, pageCodec.read key before = .ok previous ∧ pageCodec.read key after =
      .ok (some ((previous.getD (emptyPage key.pageId)).withExternal object)) := by
  obtain ⟨previous, hprevious, ⟨hchange, rfl⟩ | ⟨page, bytes, hchange, hencode, rfl⟩⟩ :=
    Codec.rewritten_eq_some hrewritten
  · -- nothing was put: the page already was as the write would leave it
    refine ⟨previous, hprevious, ?_⟩
    have hsame := congrArg Prod.fst hchange
    simp only [externalChange, ite_eq_right_iff, reduceCtorEq, imp_false, not_not] at hsame
    rw [hprevious, ← hsame]
  · refine ⟨previous, hprevious, Codec.read_some (decodePage_eq_ok.mpr
      ⟨hkey, plain_withExternal (plain_of_read hprevious) hobject, ?_⟩)⟩
    have hpage := congrArg Prod.fst hchange
    simp only [externalChange, Option.ite_none_right_eq_some] at hpage
    obtain ⟨-, hpage⟩ := hpage
    cases hpage
    exact hencode

/-- Writing an external payload again changes nothing and clips nothing. -/
theorem rewritten_externalChange_again {page : ColdIndexPage}
    (h : pageCodec.read key after = .ok (some (page.withExternal object))) :
    pageCodec.rewritten key (externalChange object key) after = some (after, 0) := by
  rw [Codec.rewritten, h]
  simp only [externalChange, Option.getD_some, withExternal_again,
    filter_externalSegments_withExternal, Nat.sub_self, ne_eq, not_true_eq_false, if_false]

variable {store : ColdIndexPageStore}

theorem mem_map_pageKeys {startOffset endOffset : ℕ} (h : startOffset < endOffset)
    (key : ColdIndexPageKey) : key ∈ (pageKeys streamId generation startOffset endOffset).map id ↔
      Meets streamId generation startOffset endOffset key := by
  rw [map_id]
  exact mem_pageKeys h

theorem rewritesEach_pageKeys {β : Type} (change : ColdIndexPageKey → PageChange β)
    (streamId : BucketStreamId) (generation startOffset endOffset : ℕ)
    (store : ColdIndexPageStore) :
    pageCodec.RewritesEach id change (pageKeys streamId generation startOffset endOffset) store
      ((pageCodec.rewriteEach id change (pageKeys streamId generation startOffset endOffset)).on
        store) := by
  refine pageCodec.rewritesEach_rewriteEach change ?_ store
  rw [map_id]
  exact nodup_pageKeys

/-- What a write that succeeded has noted: an entry for each page, with what it needs to go back. -/
theorem noted_of_ok {keys : List ColdIndexPageKey} {rollback : List ColdIndexPageRollback}
    {run : Except (Stop IoError) (List ColdIndexPageRollback) × ColdIndexPageStore}
    (h : pageCodec.RewritesEach id (chunkChange chunk) keys store run)
    (hok : run.1 = .ok rollback) :
    rollback.map ColdIndexPageRollback.key = keys ∧ ∀ entry ∈ rollback,
      pageCodec.rewritten entry.key (chunkChange chunk entry.key) (store.objects entry.key) =
        some (run.2.objects entry.key, entry) := by
  have hdone := (h.done rollback hok).flip
  constructor
  · rw [← forall₂_eq_eq_eq, forall₂_map_left_iff]
    exact hdone.imp fun entry key hentry => key_of_rewritten_chunkChange hentry
  · intro entry hentry
    obtain ⟨key, -, hrewritten⟩ := exists_of_mem_forall₂ hdone hentry
    obtain rfl : entry.key = key := key_of_rewritten_chunkChange hrewritten
    exact hrewritten

/-- Taking back a write that succeeded puts back each of its pages, or stops before it does. -/
theorem rollback_restores {keys : List ColdIndexPageKey} {rollback : List ColdIndexPageRollback}
    {run : Except (Stop IoError) (List ColdIndexPageRollback) × ColdIndexPageStore}
    (hrun : pageCodec.RewritesEach id (chunkChange chunk) keys store run)
    (hok : run.1 = .ok rollback) (hnodup : keys.Nodup) (hkeys : ∀ key ∈ keys, key.Typed)
    (hchunk : PlainChunk (storedChunk chunk)) (h : chunk.startOffset < chunk.endOffset) :
    let back := (rollbackColdIndexPages rollback).on run.2
    Touches (· ∈ keys) (fun key _ => Restored key (store.objects key)) run.2.objects
      back.2.objects ∧
      (run.2.Healthy → back.1 = .ok ()) ∧
      (back.1 = .ok () → ∀ key ∈ keys, Restored key (store.objects key) (back.2.objects key)) := by
  obtain ⟨hnoted, hentries⟩ := noted_of_ok hrun hok
  have hmine : ∀ key, key ∈ rollback.reverse.map ColdIndexPageRollback.key ↔ key ∈ keys := by
    intro key
    rw [map_reverse, mem_reverse, hnoted]
  -- the pages are taken back last first, each under its own key
  have hdistinct : (rollback.reverse.map ColdIndexPageRollback.key).Nodup := by
    rw [map_reverse, hnoted]
    exact nodup_reverse.mpr hnodup
  have hback := pageCodec.rewritesEach_rewriteEach rollbackChange hdistinct run.2
  have hrestores : ∀ entry ∈ rollback.reverse, ∃ last,
      pageCodec.rewritten entry.key (rollbackChange entry) (run.2.objects entry.key) =
        some (last, ()) ∧ Restored entry.key (store.objects entry.key) last := fun entry hentry =>
    rewritten_rollbackChange (hkeys _ ((hmine _).mp (mem_map_of_mem hentry))) hchunk h
      (hentries entry (mem_reverse.mp hentry))
  have hrestored : ∀ entry ∈ rollback.reverse, ∀ after answer,
      pageCodec.rewritten entry.key (rollbackChange entry) (run.2.objects entry.key) =
        some (after, answer) → Restored entry.key (store.objects entry.key) after := by
    intro entry hentry after answer hafter
    obtain ⟨last, hlast, hrestored⟩ := hrestores entry hentry
    rw [hlast] at hafter
    cases hafter
    exact hrestored
  rw [rollbackColdIndexPages, on_bind_pure]
  refine ⟨hback.touches hmine hrestored, fun hhealthy => ?_, fun hdone key hkey => ?_⟩
  · obtain ⟨answers, hanswers⟩ := (hback.healthy hhealthy).2 fun entry hentry =>
      (hrestores entry hentry).elim fun _ hlast => Option.isSome_of_eq_some hlast.1
    rw [hanswers]
    rfl
  · obtain ⟨answers, hanswers, -⟩ := exists_ok_of_map hdone
    exact hback.holds_of_ok (fun key _ => Restored key (store.objects key)) hmine hrestored hanswers
      hkey

/-- Writing an external payload into pages that hold it changes nothing and clips nothing. -/
theorem writeProvenExternalIndexPages_again
    (hwritten : ∀ key ∈ pageKeys streamId generation object.startOffset object.endOffset,
      ∃ page : ColdIndexPage,
        pageCodec.read key (store.objects key) = .ok (some (page.withExternal object))) :
    let again := (writeProvenExternalIndexPages streamId generation object).on store
    again.2.objects = store.objects ∧ (∀ clipped, again.1 = .ok clipped → clipped = 0) ∧
      (store.Healthy → again.1 = .ok 0) := by
  have hrun := rewritesEach_pageKeys (externalChange object) streamId generation object.startOffset
    object.endOffset store
  have hsame : ∀ key ∈ pageKeys streamId generation object.startOffset object.endOffset,
      pageCodec.rewritten key (externalChange object key)
      (store.objects key) = some (store.objects key, 0) := by
    intro key hkey
    obtain ⟨page, hpage⟩ := hwritten key hkey
    exact rewritten_externalChange_again hpage
  have hzero : ∀ clipped, Except.map (foldl satAdd 0)
      ((pageCodec.rewriteEach id (externalChange object)
      (pageKeys streamId generation object.startOffset object.endOffset)).on store).1 =
        .ok clipped → clipped = 0 := by
    intro clipped hok
    obtain ⟨answers, hanswers, rfl⟩ := exists_ok_of_map hok
    refine foldlRecOn (motive := (· = 0)) answers satAdd rfl ?_
    rintro _ rfl answer hanswer
    obtain ⟨key, hkey, hrewritten⟩ :=
      exists_of_mem_forall₂ (hrun.done answers hanswers).flip hanswer
    have hzero : 0 = answer :=
      congrArg Prod.snd (Option.some.inj ((hsame key hkey).symm.trans hrewritten))
    rw [← hzero]
    rfl
  intro again
  have hagain : again = _ := on_bind_pure _ _ store
  rw [hagain]
  refine ⟨funext fun key => ?_, hzero, fun hhealthy => ?_⟩
  · by_cases hkey : key ∈ pageKeys streamId generation object.startOffset object.endOffset
    · rcases hrun.own key hkey with hown | ⟨answer, hanswer⟩
      · exact hown
      · exact (congrArg Prod.fst (Option.some.inj ((hsame key hkey).symm.trans hanswer))).symm
    · exact hrun.others key (by rwa [map_id])
  · obtain ⟨answers, hanswers⟩ := (hrun.healthy hhealthy).2 fun key hkey =>
      Option.isSome_of_eq_some (hsame key hkey)
    have hok := congrArg (Except.map (foldl satAdd 0)) hanswers
    rw [hok]
    exact congrArg Except.ok (hzero _ hok)

end

end Ursula.Runtime

import Ursula.Lib.Tiling
import Ursula.Stream.Bounds
import Ursula.Stream.HotMap

/-!
# Bootstrap plans

A bootstrap answers the latest snapshot and the bytes that follow it, as long as they are hot: one
part for each message of a JSON stream up to a cap, or the whole range of any other stream. It never
answers more than it has, and says so.

The messages are found by their LF bytes. The list of a JSON stream ends at the last message within
the cap, and a first message larger than the cap is returned whole. A gap anywhere up to the tail
leaves the updates out, also those below it that are hot.

## Main definitions

* `StreamStateMachine.bootstrapPlanWithCap`: the plan
* `StreamSlot.updatesStart`: where the updates start

## Main results

* `bootstrap_honest_prefix`: what a plan answers, for every reachable machine, stream and cap
* `gap_leaves_out_hot_message`: a gap leaves out the hot messages below it
-/

namespace Ursula

open Word64 StreamStateMachine List

/-! ## The model -/

/-- The range of a message, or of a whole answer. -/
structure StreamMessageRecord where
  startOffset : ℕ
  endOffset : ℕ
deriving DecidableEq

/-- The answer of a bootstrap. -/
structure StreamBootstrapPlan where
  snapshot : Option StreamVisibleSnapshot
  updates : List StreamMessageRecord
  nextOffset : ℕ
  contentType : String
  upToDate : Bool
  closed : Bool
deriving DecidableEq

/-- The first hot byte, or the tail when nothing is hot. -/
def StreamSlot.sealPoint (slot : StreamSlot) : ℕ :=
  slot.hotBuffer.firstStartOffset.getD slot.metadata.tailOffset

/-- The records that end one after another, from `startOffset` on. -/
def recordsFrom : (startOffset : ℕ) → (ends : List ℕ) → List StreamMessageRecord
  | _, [] => []
  | startOffset, endOffset :: ends => ⟨startOffset, endOffset⟩ :: recordsFrom endOffset ends

/-- Where the updates of a bootstrap start: the snapshot's offset, or the retained offset. -/
def StreamSlot.updatesStart (slot : StreamSlot) : ℕ :=
  slot.visibleSnapshot.elim slot.retainedOffset StreamVisibleSnapshot.offset

/-- The answer of a bootstrap of a slot with at most `maxUpdateBytes` of updates. -/
def StreamSlot.bootstrapPlan (slot : StreamSlot) (maxUpdateBytes : ℕ) : StreamBootstrapPlan :=
  let stream := slot.metadata
  let snapshot := slot.visibleSnapshot
  let snapshotOffset := slot.updatesStart
  let exactFrontier := max slot.sealPoint slot.retainedOffset
  let closed : Bool := stream.status = .closed
  let honestPartial : StreamBootstrapPlan :=
    { snapshot := snapshot
      updates := []
      nextOffset := snapshotOffset
      contentType := stream.contentType
      upToDate := false
      closed := false }
  if snapshotOffset < exactFrontier ∨ ¬ slot.hotBuffer.covers snapshotOffset stream.tailOffset then
    honestPartial
  else if ¬ isJsonRecordContentType stream.contentType then
    let len := stream.tailOffset - snapshotOffset
    if len > maxUpdateBytes then
      honestPartial
    else
      { snapshot := snapshot
        updates := if len > 0 then [⟨snapshotOffset, stream.tailOffset⟩] else []
        nextOffset := stream.tailOffset
        contentType := stream.contentType
        upToDate := true
        closed := closed }
  else
    let ends := slot.hotBuffer.lfEnds snapshotOffset stream.tailOffset maxUpdateBytes
    let nextOffset := ends.getLast?.getD snapshotOffset
    { snapshot := snapshot
      updates := recordsFrom snapshotOffset ends
      nextOffset := nextOffset
      contentType := stream.contentType
      upToDate := nextOffset = stream.tailOffset
      closed := if nextOffset = stream.tailOffset then closed else false }

/-- Plans a bootstrap with at most `maxUpdateBytes` of updates. -/
def StreamStateMachine.bootstrapPlanWithCap (machine : StreamStateMachine)
    (streamId : BucketStreamId) (maxUpdateBytes : ℕ) : Except StreamResponse StreamBootstrapPlan :=
  match machine.streamSlot streamId with
  | none => .error (streamNotFound streamId)
  | some slot => .ok (slot.bootstrapPlan maxUpdateBytes)

/-! ## Records -/

section Records

variable {start : ℕ} {ends : List ℕ}

theorem tiles_recordsFrom (hsorted : ends.Pairwise (· < ·))
    (hstart : ∀ finish ∈ ends, start < finish) :
    Tiling.Tiles StreamMessageRecord.startOffset StreamMessageRecord.endOffset start
      (recordsFrom start ends) (ends.getLast?.getD start) := by
  induction ends generalizing start with
  | nil => rfl
  | cons first rest ih =>
    obtain ⟨hfirst, hrest⟩ := pairwise_cons.mp hsorted
    refine ⟨rfl, hstart first (by simp), ?_⟩
    rw [getLast?_cons, Option.getD_some]
    exact ih hrest hfirst

theorem endOffset_mem_of_mem_recordsFrom {record : StreamMessageRecord}
    (h : record ∈ recordsFrom start ends) : record.endOffset ∈ ends := by
  induction ends generalizing start with
  | nil => cases h
  | cons first rest ih =>
    obtain rfl | hmem := mem_cons.mp h
    · exact mem_cons_self
    · exact mem_cons_of_mem _ (ih hmem)

/-- No end lies inside a record. -/
theorem not_mem_inside_recordsFrom (hsorted : ends.Pairwise (· < ·)) {record : StreamMessageRecord}
    (h : record ∈ recordsFrom start ends) {finish : ℕ} (hfinish : finish ∈ ends) :
    finish ≤ record.startOffset ∨ record.endOffset ≤ finish := by
  induction ends generalizing start with
  | nil => cases hfinish
  | cons first rest ih =>
    obtain ⟨hfirst, hrest⟩ := pairwise_cons.mp hsorted
    obtain rfl | hmem := mem_cons.mp h
    · obtain rfl | hfinish := mem_cons.mp hfinish
      · exact .inr le_rfl
      · exact .inr (hfirst finish hfinish).le
    · obtain rfl | hfinish := mem_cons.mp hfinish
      · exact .inl ((tiles_recordsFrom hrest hfirst).within hmem).1
      · exact ih hrest hmem hfinish

theorem length_recordsFrom : (recordsFrom start ends).length = ends.length := by
  induction ends generalizing start with
  | nil => rfl
  | cons first rest ih => simp [recordsFrom, ih]

end Records

/-! ## Plans of bounded slots -/

section Plans

variable {slot : StreamSlot}

/-- Bytes that are hot from an offset on are so from the seal point on. -/
theorem sealPoint_le (h : slot.Bounded) {start : ℕ}
    (hcovers : slot.hotBuffer.map.Covers start slot.metadata.tailOffset)
    (hlt : start < slot.metadata.tailOffset) : slot.sealPoint ≤ start := by
  obtain ⟨block, hblock, hle, -⟩ := HotBlocks.exists_of_held (hcovers start le_rfl hlt)
  unfold StreamSlot.sealPoint HotBuffer.firstStartOffset
  cases hblocks : slot.hotBuffer.blocks with
  | nil =>
    rw [hblocks] at hblock
    cases hblock
  | cons first rest =>
    rw [hblocks] at hblock
    show first.startOffset ≤ start
    obtain rfl | hmem := mem_cons.mp hblock
    · exact hle
    have hfirst := (HotBlocks.inOrder_cons.mp (hblocks ▸ h.hot)).2.1 block hmem
    have hmax := h.tail
    unfold HotBlock.endOffset satAdd at hfirst
    omega

theorem updatesStart_le (h : slot.Bounded) : slot.updatesStart ≤ slot.metadata.tailOffset := by
  unfold StreamSlot.updatesStart
  cases hsnapshot : slot.visibleSnapshot with
  | none => exact h.retained
  | some snapshot => exact h.visible snapshot hsnapshot

/-- What a bootstrap answers. -/
structure HonestPrefix (slot : StreamSlot) (maxUpdateBytes : ℕ) (plan : StreamBootstrapPlan) :
    Prop where
  tiles : Tiling.Tiles StreamMessageRecord.startOffset StreamMessageRecord.endOffset
    slot.updatesStart plan.updates plan.nextOffset
  hot : slot.hotBuffer.map.Covers slot.updatesStart plan.nextOffset
  upToDate : plan.upToDate = true → plan.nextOffset = slot.metadata.tailOffset
  closed : plan.closed = true → plan.upToDate = true ∧ slot.metadata.status = .closed
  /-- Each update of a JSON stream is one message: its last byte is its only LF. -/
  messages : isJsonRecordContentType slot.metadata.contentType = true →
    ∀ update ∈ plan.updates, slot.hotBuffer.map (update.endOffset - 1) = some lf ∧
      ∀ i, update.startOffset ≤ i → i + 1 < update.endOffset → slot.hotBuffer.map i ≠ some lf
  capped : plan.nextOffset - slot.updatesStart ≤ maxUpdateBytes ∨
    isJsonRecordContentType slot.metadata.contentType = true ∧ plan.updates.length = 1
  /-- The next message of a JSON stream that is hot to its tail would exceed the cap. -/
  maximal : isJsonRecordContentType slot.metadata.contentType = true →
    slot.retainedOffset ≤ slot.updatesStart →
    slot.hotBuffer.map.Covers slot.updatesStart slot.metadata.tailOffset →
    ∀ finish, plan.nextOffset < finish → finish ≤ slot.metadata.tailOffset →
      slot.hotBuffer.map (finish - 1) = some lf → slot.updatesStart + maxUpdateBytes < finish
  /-- Any other stream answers its whole range, when it is hot and within the cap. -/
  whole : isJsonRecordContentType slot.metadata.contentType = false →
    slot.retainedOffset ≤ slot.updatesStart →
    slot.hotBuffer.map.Covers slot.updatesStart slot.metadata.tailOffset →
    slot.metadata.tailOffset - slot.updatesStart ≤ maxUpdateBytes →
    plan.updates = if slot.updatesStart < slot.metadata.tailOffset then
      [⟨slot.updatesStart, slot.metadata.tailOffset⟩] else []
  none : isJsonRecordContentType slot.metadata.contentType = false →
    ¬ slot.hotBuffer.map.Covers slot.updatesStart slot.metadata.tailOffset ∨
      maxUpdateBytes < slot.metadata.tailOffset - slot.updatesStart → plan.updates = []

variable {maxUpdateBytes : ℕ}

/-- A plan without updates is honest when the updates have to be left out. -/
theorem honestPrefix_partial (hleft : slot.retainedOffset ≤ slot.updatesStart →
      slot.hotBuffer.map.Covers slot.updatesStart slot.metadata.tailOffset →
      slot.updatesStart < slot.metadata.tailOffset →
      isJsonRecordContentType slot.metadata.contentType = false ∧
        maxUpdateBytes < slot.metadata.tailOffset - slot.updatesStart) :
    HonestPrefix slot maxUpdateBytes
      ⟨slot.visibleSnapshot, [], slot.updatesStart, slot.metadata.contentType, false, false⟩ where
  tiles := rfl
  hot := OffsetMap.covers_of_le le_rfl
  upToDate := by rintro ⟨⟩
  closed := by rintro ⟨⟩
  messages := by simp
  capped := .inl (by simp)
  maximal := fun hjson hretained hcovers finish hlt hle => by
    have := (hleft hretained hcovers (lt_of_lt_of_le hlt hle)).1
    simp [hjson] at this
  whole := fun hjson hretained hcovers hcap => by
    rw [if_neg fun hlt => ?_]
    have := (hleft hretained hcovers hlt).2
    omega
  none := fun _ _ => rfl

/-- The message ends of a hot range: those of all its LF bytes that fit. -/
theorem lfEnds_spec (h : slot.Bounded) {start : ℕ} (hle : start ≤ slot.metadata.tailOffset)
    (hcovers : slot.hotBuffer.map.Covers start slot.metadata.tailOffset) (maxUpdateBytes : ℕ) :
    ∃ all : List ℕ, all.Pairwise (· < ·) ∧
      (∀ finish, finish ∈ all ↔ start < finish ∧ finish ≤ slot.metadata.tailOffset ∧
        slot.hotBuffer.map (finish - 1) = some lf) ∧
      slot.hotBuffer.lfEnds start slot.metadata.tailOffset maxUpdateBytes =
        firstWithin (start + maxUpdateBytes) all := by
  refine ⟨_, pairwise_lineEnds lf start _, fun finish => ?_,
    HotBuffer.lfEnds_eq h.hot maxUpdateBytes h.tail⟩
  have hlength := OffsetMap.covers_iff_length_run.mp hcovers
  rw [mem_lineEnds]
  refine and_congr_right fun hlt => ?_
  by_cases hfinish : finish ≤ slot.metadata.tailOffset
  · rw [OffsetMap.getElem?_run _ _ _ (by omega), show start + (finish - 1 - start) =
      finish - 1 by omega]
    exact (and_iff_right hfinish).symm
  · rw [getElem?_eq_none (by omega)]
    exact iff_of_false (by simp) fun hand => hfinish hand.1

/-- The plan of a JSON stream that is hot from the snapshot to its tail. -/
theorem honestPrefix_json (h : slot.Bounded)
    (hjson : isJsonRecordContentType slot.metadata.contentType = true)
    (hcovers : slot.hotBuffer.map.Covers slot.updatesStart slot.metadata.tailOffset) {ends : List ℕ}
    (hends : slot.hotBuffer.lfEnds slot.updatesStart slot.metadata.tailOffset maxUpdateBytes = ends)
    {nextOffset : ℕ} (hnext : ends.getLast?.getD slot.updatesStart = nextOffset) :
    HonestPrefix slot maxUpdateBytes
      ⟨slot.visibleSnapshot, recordsFrom slot.updatesStart ends, nextOffset,
        slot.metadata.contentType, nextOffset = slot.metadata.tailOffset,
        if nextOffset = slot.metadata.tailOffset then slot.metadata.status = .closed
          else false⟩ := by
  obtain ⟨all, hsorted, hmem, hfits⟩ := lfEnds_spec h (updatesStart_le h) hcovers maxUpdateBytes
  rw [hends] at hfits
  have hsub : ∀ finish ∈ ends, finish ∈ all := fun finish hfinish =>
    (firstWithin_isPrefix _ _).subset (hfits ▸ hfinish)
  have hsorted' : ends.Pairwise (· < ·) :=
    hfits ▸ hsorted.sublist (firstWithin_isPrefix _ _).sublist
  have htiles := @tiles_recordsFrom slot.updatesStart ends hsorted' fun finish hfinish =>
    ((hmem finish).mp (hsub finish hfinish)).1
  rw [hnext] at htiles
  -- the next offset is the last end, or the start when there is none
  have hlast : (nextOffset = slot.updatesStart ∨ nextOffset ∈ ends) ∧
      ∀ finish ∈ ends, finish ≤ nextOffset := by
    rcases eq_nil_or_concat ends with rfl | ⟨front, last, rfl⟩
    · exact ⟨.inl hnext.symm, by simp⟩
    obtain rfl : last = nextOffset := by simpa using hnext
    refine ⟨.inr (by simp), fun finish hfinish => ?_⟩
    obtain hfront | hfinish := mem_append.mp (concat_eq_append ▸ hfinish)
    · rw [concat_eq_append] at hsorted'
      exact ((pairwise_append.mp hsorted').2.2 finish hfront last (by simp)).le
    · exact (mem_singleton.mp hfinish).le
  have hnextTail : nextOffset ≤ slot.metadata.tailOffset := by
    obtain rfl | hin := hlast.1
    · exact updatesStart_le h
    · exact ((hmem nextOffset).mp (hsub nextOffset hin)).2.1
  refine
    { tiles := htiles
      hot := fun i hi hi' => hcovers i hi (lt_of_lt_of_le hi' hnextTail)
      upToDate := of_decide_eq_true
      closed := fun hclosed => ?_
      messages := fun _ update hupdate => ⟨?_, fun i hi hi' hlf => ?_⟩
      capped := ?_
      maximal := fun _ _ _ finish hlt hle hlf => ?_
      whole := by simp [hjson]
      none := by simp [hjson] }
  · dsimp only at hclosed
    split_ifs at hclosed with heq
    exact ⟨decide_eq_true heq, of_decide_eq_true hclosed⟩
  · exact ((hmem _).mp (hsub _ (endOffset_mem_of_mem_recordsFrom hupdate))).2.2
  · -- an LF inside the update would end a message there
    have hupdateEnd := endOffset_mem_of_mem_recordsFrom hupdate
    have hwithin := htiles.within hupdate
    have hin : i + 1 ∈ ends := by
      rw [hfits] at hupdateEnd ⊢
      exact mem_firstWithin_of_le hsorted ((hmem _).mpr ⟨by omega, by omega, hlf⟩) hupdateEnd hi'.le
    obtain hle | hle := not_mem_inside_recordsFrom hsorted' hupdate hin
    · omega
    · omega
  · obtain heq | hin := hlast.1
    · exact .inl (by simp [heq])
    · obtain hle | hone := le_of_mem_firstWithin hsorted (hfits ▸ hin)
      · exact .inl (show nextOffset - slot.updatesStart ≤ maxUpdateBytes by omega)
      · exact .inr ⟨hjson, by rw [length_recordsFrom, hfits, hone]⟩
  · refine lt_of_not_mem_firstWithin hsorted ((hmem finish).mpr ⟨?_, hle, hlf⟩) fun hfit => ?_
    · exact lt_of_le_of_lt htiles.le hlt
    · exact absurd hlt (not_lt.mpr (hlast.2 finish (hfits ▸ hfit)))

/-- Every bootstrap of a bounded slot is honest. -/
theorem honestPrefix_bootstrapPlan (h : slot.Bounded) (maxUpdateBytes : ℕ) :
    HonestPrefix slot maxUpdateBytes (slot.bootstrapPlan maxUpdateBytes) := by
  have hcovers := @HotBuffer.covers_iff slot.hotBuffer _ h.hot slot.updatesStart _ h.tail
  have hle := updatesStart_le h
  unfold StreamSlot.bootstrapPlan
  by_cases hleft : slot.updatesStart < max slot.sealPoint slot.retainedOffset ∨
      ¬ slot.hotBuffer.covers slot.updatesStart slot.metadata.tailOffset = true
  · rw [if_pos hleft]
    refine honestPrefix_partial fun hretained hhot hlt => ?_
    have hseal := sealPoint_le h hhot hlt
    obtain hfrontier | hnot := hleft
    · omega
    · exact absurd (hcovers.mpr hhot) hnot
  rw [if_neg hleft]
  rw [not_or, not_not, hcovers] at hleft
  obtain ⟨-, hhot⟩ := hleft
  by_cases hjson : isJsonRecordContentType slot.metadata.contentType = true
  · rw [if_neg (not_not.mpr hjson)]
    exact honestPrefix_json h hjson hhot rfl rfl
  rw [if_pos hjson]
  by_cases hcap : slot.metadata.tailOffset - slot.updatesStart > maxUpdateBytes
  · rw [if_pos hcap]
    exact honestPrefix_partial fun _ _ _ => ⟨by simpa using hjson, hcap⟩
  -- the whole range is one part, and there is none when it is empty
  rw [if_neg hcap]
  refine ⟨?_, hhot, fun _ => rfl, fun hclosed => ⟨rfl, of_decide_eq_true hclosed⟩,
    fun h => absurd h hjson, .inl (not_lt.mp hcap), fun h => absurd h hjson, fun _ _ _ _ => ?_,
    fun _ hnone => ?_⟩
  · dsimp only
    split_ifs with hlen
    · exact ⟨rfl, Nat.lt_of_sub_pos hlen, rfl⟩
    · exact show slot.updatesStart = slot.metadata.tailOffset by omega
  · dsimp only
    split_ifs with hlen hlt hlt <;> first | rfl | omega
  · obtain hnot | hlt := hnone
    · exact absurd hhot hnot
    · exact absurd hlt hcap

end Plans

/-- **Bootstrap.** A bootstrap of any stream of a reachable machine answers an honest prefix. Its
updates lie end to end from the snapshot's offset, or the retained one, and are hot; it says that it
is up to date only at the tail, and that the stream is closed only then. Each update of a JSON
stream is one message, and together they exceed the cap only if there is one; while the stream is
hot to its tail the next message would exceed it. Any other stream answers its whole range or
nothing. -/
theorem bootstrap_honest_prefix [Blake3] {machine : StreamStateMachine} (h : machine.WordReachable)
    {streamId : BucketStreamId} {slot : StreamSlot}
    (hslot : machine.streamSlot streamId = some slot) (maxUpdateBytes : ℕ) :
    ∃ plan, machine.bootstrapPlanWithCap streamId maxUpdateBytes = .ok plan ∧
      HonestPrefix slot maxUpdateBytes plan := by
  refine ⟨slot.bootstrapPlan maxUpdateBytes, ?_, honestPrefix_bootstrapPlan (h.bounded hslot) _⟩
  rw [bootstrapPlanWithCap, hslot]

/-- A JSON stream of two messages, and perhaps an external one and a third after them. -/
def sampleBootstrapEntries (gap : Bool) : List (ℕ × StreamCommand) :=
  sampleGenesis ++
    (3, .createStream sampleStream "application/json" [49, 10, 50, 10] false none none none 1000) ::
      if gap then
        [(4, .appendExternal sampleStream (some "application/json")
          ⟨"bkt1/external", 4, 4⟩ 2 false none none 1001)]
      else []

/-- A cap of three bytes cuts the answer after the first message. -/
theorem bootstrap_honest_sample :
    letI := Blake3.zero
    let machine := (new.applyEntries (sampleBootstrapEntries false)).1
    ∃ slot plan, machine.streamSlot sampleStream = some slot ∧
      machine.bootstrapPlanWithCap sampleStream 3 = .ok plan ∧ HonestPrefix slot 3 plan ∧
      plan.updates = [⟨0, 2⟩] := by
  let blake3 := Blake3.zero
  intro machine
  have hreachable : machine.WordReachable :=
    ((ReachableBy.new.entry 1 (.newHistory 1 0 0 0 ⟨1, 1⟩) trivial).entry 2 (.createBucket "bkt1")
      trivial).entry 3 _ (show [49, 10, 50, 10].length ≤ maxValue by decide)
  obtain ⟨slot, hslot⟩ := Option.isSome_iff_exists.mp
    (show (machine.streamSlot sampleStream).isSome = true by decide +kernel)
  have hupdates : (machine.bootstrapPlanWithCap sampleStream 3).toOption.map
      StreamBootstrapPlan.updates = some [⟨0, 2⟩] := by decide +kernel
  obtain ⟨plan, hplan, hhonest⟩ := bootstrap_honest_prefix hreachable hslot 3
  rw [hplan] at hupdates
  exact ⟨slot, plan, hslot, hplan, hhonest, Option.some.inj hupdates⟩

/-- An external message above leaves out the hot messages below it: the next message is hot and fits
the cap. -/
theorem gap_leaves_out_hot_message :
    letI := Blake3.zero
    let machine := (new.applyEntries (sampleBootstrapEntries true)).1
    ∃ slot plan, machine.streamSlot sampleStream = some slot ∧
      machine.bootstrapPlanWithCap sampleStream 100 = .ok plan ∧
      plan.updates = [] ∧ plan.nextOffset = 0 ∧ slot.hotBuffer.covers 0 2 = true ∧
      slot.hotBuffer.byteAt 1 = some lf := by
  let blake3 := Blake3.zero
  intro machine
  have hhot : (machine.streamSlot sampleStream).map (fun slot =>
      (slot.hotBuffer.covers 0 2, slot.hotBuffer.byteAt 1)) = some (true, some lf) := by
    decide +kernel
  have hplan : (machine.bootstrapPlanWithCap sampleStream 100).toOption.map (fun plan =>
      (plan.updates, plan.nextOffset)) = some ([], 0) := by decide +kernel
  obtain ⟨slot, hslot, hpair⟩ := Option.map_eq_some_iff.mp hhot
  obtain ⟨hcovers, hbyte⟩ := Prod.mk.inj hpair
  rw [bootstrapPlanWithCap, hslot] at hplan
  obtain ⟨hupdates, hnext⟩ := Prod.mk.inj (Option.some.inj hplan)
  refine ⟨slot, _, hslot, ?_, hupdates, hnext, hcovers, hbyte⟩
  rw [bootstrapPlanWithCap, hslot]

end Ursula

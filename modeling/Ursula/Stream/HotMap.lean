import Ursula.Lib.OffsetMap
import Ursula.Stream.HotOrder

/-!
# The hot buffer as a map

What a hot buffer is for: it holds the byte of each offset that an append wrote and no flush
dropped. Its blocks are one way to store that map, and every question is answered as the map
answers it, whatever the split into blocks.

Blocks in order are enough for the questions that go by a block's end. Where the tail has saturated
a block may be longer than its range, and its length and the bytes a flush would take are then
those of the block; `HotBlocks.Laid` leaves such blocks out.

## Main definitions

* `HotBlocks.held`, `HotBuffer.map`: the map of a list of blocks and of a buffer
* `HotBlocks.Laid`: blocks in order, each as long as its range
* `HotRun`: a run of appends, flushes and snapshots, with the map it leaves
* `HotBuffer.Represents`: a buffer answers as a map does

## Main results

* `HotBlocks.Laid.held_push`, `HotBlocks.Laid.held_flush`: appends and flushes, on the map
* `HotBuffer.byteAt_eq`, `HotBuffer.flatten_readSegments`, `HotBuffer.covers_iff`,
  `HotBuffer.coversPrefix_iff`, `HotBuffer.lfEnds_eq`, `HotBuffer.planColdFlushFrom_eq`: the
  questions, on the map
* `hotRun_represents`: after every run the buffer answers as the plain map does
-/

namespace Ursula

open Word64 List OffsetMap HotBlocks

namespace HotBlocks

/-- What blocks hold, as a map from offsets. -/
def held : List HotBlock → OffsetMap UInt8
  | [] => OffsetMap.empty
  | block :: rest => fun i =>
    if block.startOffset ≤ i ∧ i < block.endOffset then block.bytes[i - block.startOffset]?
    else held rest i

variable {tail : ℕ} {block : HotBlock} {blocks rest : List HotBlock}

theorem held_nil (i : ℕ) : held [] i = none := rfl

variable {i : ℕ}

theorem held_cons_of_mem (hstart : block.startOffset ≤ i) (hend : i < block.endOffset) :
    held (block :: rest) i = block.bytes[i - block.startOffset]? := if_pos ⟨hstart, hend⟩

theorem held_cons_of_not_mem (h : ¬ (block.startOffset ≤ i ∧ i < block.endOffset)) :
    held (block :: rest) i = held rest i := if_neg h

theorem held_cons_of_le (h : block.endOffset ≤ i) : held (block :: rest) i = held rest i :=
  held_cons_of_not_mem (by omega)

theorem held_cons_of_lt (h : i < block.startOffset) : held (block :: rest) i = held rest i :=
  held_cons_of_not_mem (by omega)

theorem held_cons_ne_none (hstart : block.startOffset ≤ i) (hend : i < block.endOffset) :
    held (block :: rest) i ≠ none := by
  rw [held_cons_of_mem hstart hend, ne_eq, getElem?_eq_none_iff]
  unfold HotBlock.endOffset satAdd at hend
  omega

theorem held_of_lt_starts (h : ∀ block ∈ blocks, i < block.startOffset) : held blocks i = none := by
  induction blocks with
  | nil => rfl
  | cons block rest ih =>
    rw [held_cons_of_lt (h block (by simp))]
    exact ih fun other hother => h other (by simp [hother])

theorem held_ne_none (hblock : block ∈ blocks) (hstart : block.startOffset ≤ i)
    (hend : i < block.endOffset) : held blocks i ≠ none := by
  induction blocks with
  | nil => cases hblock
  | cons first rest ih =>
    by_cases hi : first.startOffset ≤ i ∧ i < first.endOffset
    · exact held_cons_ne_none hi.1 hi.2
    obtain rfl | hmem := mem_cons.mp hblock
    · exact absurd ⟨hstart, hend⟩ hi
    · rw [held_cons_of_not_mem hi]
      exact ih hmem

/-- An offset that is held lies in a block. -/
theorem exists_of_held (h : held blocks i ≠ none) :
    ∃ block ∈ blocks, block.startOffset ≤ i ∧ i < block.endOffset := by
  induction blocks with
  | nil => exact absurd rfl h
  | cons block rest ih =>
    by_cases hi : block.startOffset ≤ i ∧ i < block.endOffset
    · exact ⟨block, by simp, hi⟩
    · obtain ⟨other, hother, hin⟩ := ih (held_cons_of_not_mem hi ▸ h)
      exact ⟨other, by simp [hother], hin⟩

/-- Nothing in the later blocks lies below the end of the first. -/
theorem InOrder.held_tail (h : InOrder tail (block :: rest)) (hi : i < block.endOffset) :
    held rest i = none :=
  held_of_lt_starts fun other hother => by
    have := (inOrder_cons.mp h).2.1 other hother
    omega

/-- Nothing lies below the first block. -/
theorem InOrder.held_of_lt_start (h : InOrder tail (block :: rest)) (hi : i < block.startOffset)
    (hmax : i < maxValue) : held (block :: rest) i = none := by
  rw [held_cons_of_lt hi]
  refine h.held_tail ?_
  unfold HotBlock.endOffset satAdd
  omega

/-- The first block that ends after an offset, and those after it, hold what the blocks hold from
there on. -/
theorem held_endingAfter {offset i : ℕ} (h : offset ≤ i) :
    held (endingAfter offset blocks) i = held blocks i := by
  induction blocks with
  | nil => rfl
  | cons block rest ih =>
    unfold endingAfter at ih ⊢
    rw [dropWhile_cons]
    split_ifs with hend
    · rw [ih, held_cons_of_le (by simp at hend; omega)]
    · rfl

theorem run_endingAfter (offset n : ℕ) :
    (held (endingAfter offset blocks)).run offset n = (held blocks).run offset n :=
  run_congr fun _ hi => held_endingAfter hi

theorem add_length_run_le {offset : ℕ} (hmax : offset ≤ maxValue) (n : ℕ) :
    offset + ((held blocks).run offset n).length ≤ maxValue := by
  rcases Nat.eq_zero_or_pos ((held blocks).run offset n).length with hzero | hpos
  · omega
  have hlast := @getElem?_run _ (held blocks) offset n
    (((held blocks).run offset n).length - 1) (by omega)
  obtain ⟨block, -, -, hlt⟩ := exists_of_held fun hnone => by
    rw [← hlast, getElem?_eq_none_iff] at hnone
    omega
  have := endOffset_le_maxValue block
  omega

theorem InOrder.endingAfter (h : InOrder tail blocks) (offset : ℕ) :
    InOrder tail (endingAfter offset blocks) :=
  ⟨h.sorted.sublist (dropWhile_sublist _),
    fun block hblock => h.bound block ((dropWhile_sublist _).subset hblock)⟩

/-- A later block ends where the first does or after it. -/
theorem InOrder.endOffset_le (h : InOrder tail (block :: rest)) {other : HotBlock}
    (hother : other ∈ rest) : block.endOffset ≤ other.endOffset := by
  have hle := (inOrder_cons.mp h).2.1 other hother
  have hmax := endOffset_le_maxValue block
  unfold HotBlock.endOffset at hle hmax ⊢
  unfold satAdd at hle hmax ⊢
  omega

/-- All of those blocks end after the offset. -/
theorem InOrder.lt_endOffset_of_mem_endingAfter (h : InOrder tail blocks) {offset : ℕ}
    (hblock : block ∈ HotBlocks.endingAfter offset blocks) : offset < block.endOffset := by
  induction blocks with
  | nil => cases hblock
  | cons first rest ih =>
    unfold HotBlocks.endingAfter at ih hblock
    rw [dropWhile_cons] at hblock
    split_ifs at hblock with hend
    · exact ih (inOrder_cons.mp h).2.2 hblock
    have hend : offset < first.endOffset := by simpa using hend
    obtain rfl | hmem := mem_cons.mp hblock
    · exact hend
    · exact lt_of_lt_of_le hend (h.endOffset_le hmem)

/-! ## Single bytes and reads -/

/-- The part of a block from an offset in it to another is what the blocks hold there. -/
theorem getRange_eq_some {start finish : ℕ} (hstart : block.startOffset ≤ start)
    (hlt : start ≤ finish) (hfinish : finish ≤ block.endOffset) :
    ∃ bytes, getRange block.bytes (start - block.startOffset) (finish - block.startOffset) =
        some bytes ∧ start + bytes.length = finish ∧
      ∀ k < bytes.length, held (block :: rest) (start + k) = bytes[k]? := by
  have hlength : finish - block.startOffset ≤ block.bytes.length := by
    unfold HotBlock.endOffset satAdd at hfinish
    omega
  refine ⟨_, if_pos ⟨by omega, hlength⟩, ?_, fun k hk => ?_⟩
  · rw [length_take, length_drop]
    omega
  · rw [length_take, length_drop] at hk
    rw [held_cons_of_mem (by omega) (by omega), getElem?_take, if_pos (by omega), getElem?_drop]
    congr 1
    omega

/-- The parts of a range are its cells. -/
theorem InOrder.flatten_readFrom (h : InOrder tail blocks) (offset : ℕ) {nextOffset : ℕ}
    (hnext : nextOffset ≤ maxValue) :
    flatten (readFrom offset nextOffset blocks) =
      (held blocks).cells offset nextOffset := by
  induction blocks with
  | nil => exact (cells_eq_nil fun i _ _ => held_nil i).symm
  | cons block rest ih =>
    have hrest := (inOrder_cons.mp h).2.2
    have htail : ∀ i, i < block.endOffset → held rest i = none := fun i => h.held_tail
    simp only [readFrom]
    split_ifs with hstart hlt
    · exact (cells_eq_nil fun i _ hi => h.held_of_lt_start (by omega) (by omega)).symm
    · -- the range below the block, the block's part and what lies above it
      set start := max offset block.startOffset with hstarts
      set finish := min nextOffset block.endOffset with hfinishes
      obtain ⟨bytes, hbytes, hfinish, hcells⟩ :=
        @getRange_eq_some block rest start finish (by omega) hlt.le (by omega)
      have hbelow : (held (block :: rest)).cells offset start = [] :=
        cells_eq_nil fun i _ hi => h.held_of_lt_start (by omega) (by omega)
      have hpart : (held (block :: rest)).cells start finish = cellsOf start bytes := by
        rw [← hfinish]
        exact cells_of_list hcells
      have habove : (held rest).cells offset nextOffset =
          (held (block :: rest)).cells finish nextOffset := by
        rw [@cells_append _ _ offset nextOffset finish (by omega) (by omega),
          cells_eq_nil fun i _ hi => htail i (by omega), nil_append]
        exact cells_congr fun i hi hi' => (held_cons_of_le (by omega)).symm
      simp only [hbytes]
      rw [OffsetMap.flatten_cons, ih hrest, habove, ← hpart,
        @cells_append _ _ offset nextOffset start (by omega) (by omega), hbelow,
        @cells_append _ _ start nextOffset finish hlt.le (by omega), nil_append]
    · rw [ih hrest]
      refine cells_congr fun i hi hi' => (if_neg ?_).symm
      omega

theorem nonempty_of_mem_readFrom {offset nextOffset : ℕ} {part : ℕ × Bytes}
    (h : part ∈ readFrom offset nextOffset blocks) : part.2 ≠ [] := by
  fun_induction readFrom offset nextOffset blocks with
  | case1 => cases h
  | case2 => cases h
  | case3 block rest hstart start finish hlt bytes hbytes ih =>
    obtain rfl | hmem := mem_cons.mp h
    · unfold getRange at hbytes
      split_ifs at hbytes with hrange
      cases hbytes
      intro hnil
      have hlength := congrArg length hnil
      simp only [length_take, length_drop, length_nil] at hlength
      omega
    · exact ih hmem
  | case4 block rest hstart start finish hlt hbytes ih => exact ih h
  | case5 block rest hstart start finish hlt ih => exact ih h

/-! ## Cover -/

/-- Contiguous blocks reach an end if and only if they hold every byte before it. -/
theorem InOrder.reach_iff (h : InOrder tail blocks) {covered finish : ℕ} (hlt : covered < finish)
    (hmax : finish ≤ maxValue) (hends : ∀ block ∈ blocks, covered ≤ block.endOffset) :
    reach finish covered blocks = true ↔ (held blocks).Covers covered finish := by
  induction blocks generalizing covered with
  | nil => exact ⟨fun h => absurd h (by simp [reach]), fun h => absurd rfl (h covered le_rfl hlt)⟩
  | cons block rest ih =>
    have hend := hends block (by simp)
    have hcons : ∀ i, covered ≤ i → block.startOffset ≤ covered → i < block.endOffset →
        held (block :: rest) i ≠ none := fun i hi hstart => held_cons_ne_none (by omega)
    unfold reach
    split_ifs with hstart hfinish
    · refine ⟨fun h => absurd h (by simp), fun hcovers => absurd ?_ (hcovers covered le_rfl hlt)⟩
      exact h.held_of_lt_start hstart (by omega)
    · exact ⟨fun _ i hi hi' => hcons i hi (by omega) (by omega), fun _ => rfl⟩
    rw [ih (inOrder_cons.mp h).2.2 (by omega) fun other hother => h.endOffset_le hother,
      covers_append hend (by omega)]
    have hcongr : (held rest).Covers block.endOffset finish ↔
        (held (block :: rest)).Covers block.endOffset finish :=
      forall₃_congr fun i hi _ => by rw [held_cons_of_le hi]
    rw [hcongr]
    exact (and_iff_right fun i hi hi' => hcons i hi (by omega) hi').symm

/-- Blocks that meet exactly reach an end if and only if they hold every byte before it. -/
theorem InOrder.reachExactly_iff (h : InOrder tail blocks) {covered finish : ℕ}
    (hlt : covered < finish) (hmax : finish ≤ maxValue)
    (hstarts : ∀ block ∈ blocks, covered ≤ block.startOffset) :
    reachExactly finish covered blocks = true ↔ (held blocks).Covers covered finish := by
  rw [← h.reach_iff hlt hmax fun block hblock => ?_]
  · induction blocks generalizing covered with
    | nil => rfl
    | cons block rest ih =>
      have hstart := hstarts block (by simp)
      unfold reachExactly reach
      split_ifs with hne hgt hfinish hgt hfinish
      all_goals first | rfl | omega | skip
      exact ih (inOrder_cons.mp h).2.2 (by omega) (inOrder_cons.mp h).2.1
  · have hstart := hstarts block hblock
    unfold HotBlock.endOffset satAdd
    omega

/-! ## Message ends -/

/-- The ends gathered after `ends`, those within the limit and the first one in any case, and
whether a later one can follow. -/
def gather (limit : ℕ) : (ends found : List ℕ) → List ℕ × Bool
  | ends, [] => (ends, false)
  | ends, finish :: rest =>
    if finish > limit ∧ ends ≠ [] then (ends, true)
    else if finish ≥ limit then (ends ++ [finish], true)
    else gather limit (ends ++ [finish]) rest

theorem lfScan_eq (limit : ℕ) {cursor index : ℕ} (ends : List ℕ) {bytes : Bytes}
    (h : cursor + index + bytes.length ≤ maxValue) :
    lfScan limit cursor index ends bytes = gather limit ends
      (lineEnds lf (cursor + index) bytes) := by
  induction bytes generalizing index ends with
  | nil => rfl
  | cons byte rest ih =>
    rw [length_cons] at h
    have hfinish : satAdd (satAdd cursor index) 1 = cursor + index + 1 := by
      unfold satAdd
      omega
    simp only [lfScan, lineEnds, hfinish,
      ih _ (show cursor + (index + 1) + rest.length ≤ maxValue by
      omega), ← Nat.add_assoc]
    split_ifs with hlf hgt hge
    · rw [gather, if_pos hgt]
    · rw [gather, if_neg hgt, if_pos hge]
    · rw [gather, if_neg hgt, if_neg hge]
    · rfl

theorem gather_append (limit : ℕ) (ends found found' : List ℕ) :
    gather limit ends (found ++ found') =
      if (gather limit ends found).2 then gather limit ends found
      else gather limit (gather limit ends found).1 found' := by
  induction found generalizing ends with
  | nil => rfl
  | cons finish rest ih =>
    simp only [cons_append, gather]
    split_ifs with hgt hge h h <;> simp_all

theorem gather_of_ne_nil {limit : ℕ} {ends found : List ℕ} (hsorted : found.Pairwise (· < ·))
    (hends : ends ≠ []) :
    (gather limit ends found).1 = ends ++ found.takeWhile fun finish => finish ≤ limit := by
  induction found generalizing ends with
  | nil => simp [gather]
  | cons finish rest ih =>
    obtain ⟨hfirst, hrest⟩ := pairwise_cons.mp hsorted
    simp only [gather]
    split_ifs with hgt hge
    · rw [takeWhile_cons_of_neg (by simpa using hgt.1), append_nil]
    · -- the limit itself: every later end is past it
      have hle : finish ≤ limit := not_lt.mp fun hlt => hgt ⟨hlt, hends⟩
      have hnil : rest.takeWhile (fun finish => decide (finish ≤ limit)) = [] := by
        cases rest with
        | nil => rfl
        | cons next rest =>
          have hnext := hfirst next (by simp)
          exact takeWhile_cons_of_neg (by simpa using by omega)
      rw [takeWhile_cons_of_pos (by simpa using hle), hnil]
    · rw [ih hrest (by simp), takeWhile_cons_of_pos (by simpa using by omega)]
      simp

/-- What is gathered from the start are the ends that fit. -/
theorem gather_nil {limit : ℕ} {found : List ℕ} (hsorted : found.Pairwise (· < ·)) :
    (gather limit [] found).1 = firstWithin limit found := by
  cases found with
  | nil => rfl
  | cons finish rest =>
    obtain ⟨hfirst, hrest⟩ := pairwise_cons.mp hsorted
    simp only [gather, ne_eq, not_true_eq_false, and_false, if_false, nil_append, firstWithin]
    split_ifs with hge
    · cases rest with
      | nil => rfl
      | cons next rest =>
        have hnext := hfirst next (by simp)
        rw [takeWhile_cons_of_neg (by simpa using by omega)]
    · exact gather_of_ne_nil hrest (by simp)

/-- The message ends in blocks are gathered from those of their gap-free run. -/
theorem InOrder.lfEndsFrom_eq (h : InOrder tail blocks) (limit : ℕ) {cursor endOffset : ℕ}
    (ends : List ℕ) (hmax : endOffset ≤ maxValue)
    (hends : ∀ block ∈ blocks, cursor ≤ block.endOffset) :
    lfEndsFrom endOffset limit cursor ends blocks =
      (gather limit ends (lineEnds lf cursor
        ((held blocks).run cursor (endOffset - cursor)))).1 := by
  induction blocks generalizing cursor ends with
  | nil =>
    rw [run_of_none (held_nil _)]
    rfl
  | cons block rest ih =>
    simp only [lfEndsFrom]
    split_ifs with hstop
    · have hnil : (held (block :: rest)).run cursor (endOffset - cursor) = [] := by
        by_cases hcursor : cursor ≥ endOffset
        · rw [Nat.sub_eq_zero_of_le hcursor]
          rfl
        · exact run_of_none (h.held_of_lt_start (by omega) (by omega))
      rw [hnil]
      rfl
    · have hend := hends block (by simp)
      set upTo := min endOffset block.endOffset with hupTo
      obtain ⟨bytes, hbytes, hlength, hheld⟩ :=
        @getRange_eq_some block rest cursor upTo (by omega) (by omega) (by omega)
      have hrun : (held (block :: rest)).run cursor (endOffset - cursor) =
          bytes ++ (held rest).run upTo (endOffset - upTo) := by
        rw [run_append hheld, take_of_length_le (by omega), hlength,
          show endOffset - cursor - bytes.length = endOffset - upTo by omega]
        congr 1
        by_cases hfull : endOffset ≤ upTo
        · rw [Nat.sub_eq_zero_of_le hfull]
          rfl
        · exact run_congr fun i hi => held_cons_of_le (by omega)
      have hscan := lfScan_eq limit ends (show cursor + 0 + bytes.length ≤ maxValue by omega)
      simp only [hbytes, hscan]
      rw [hrun, lineEnds_append, gather_append, hlength]
      cases hover : gather limit ends (lineEnds lf cursor bytes) with
      | mk gathered stopped =>
        cases stopped with
        | true => rfl
        | false =>
          exact ih (inOrder_cons.mp h).2.2 gathered fun other hother => by
            have := h.endOffset_le hother
            omega

/-! ## Blocks as long as their ranges -/

/-- Blocks in order, none empty or too long, each as long as its range. -/
structure Laid (blocks : List HotBlock) : Prop where
  inOrder : InOrder maxValue blocks
  nonempty : ∀ block ∈ blocks, block.bytes ≠ []
  fits : ∀ block ∈ blocks, block.startOffset + block.bytes.length ≤ maxValue
  size : ∀ block ∈ blocks, block.bytes.length ≤ hotBlockBytes

theorem Laid.nil : Laid [] := ⟨.nil _, by simp, by simp, by simp⟩

theorem Laid.of_cons (h : Laid (block :: rest)) : Laid rest :=
  ⟨(inOrder_cons.mp h.inOrder).2.2, fun b hb => h.nonempty b (by simp [hb]),
    fun b hb => h.fits b (by simp [hb]), fun b hb => h.size b (by simp [hb])⟩

section Sound

variable (h : Laid blocks)
include h

theorem Laid.endOffset_eq (hblock : block ∈ blocks) :
    block.endOffset = block.startOffset + block.bytes.length :=
  satAdd_eq_add_of_le (h.fits block hblock)

theorem Laid.start_lt_endOffset (hblock : block ∈ blocks) :
    block.startOffset < block.endOffset := by
  rw [h.endOffset_eq hblock]
  have := length_pos_iff.mpr (h.nonempty block hblock)
  omega

theorem Laid.endingAfter (offset : ℕ) : Laid (endingAfter offset blocks) := by
  have hsub : HotBlocks.endingAfter offset blocks ⊆ blocks := (dropWhile_sublist _).subset
  exact ⟨h.inOrder.endingAfter offset, fun block hblock => h.nonempty block (hsub hblock),
    fun block hblock => h.fits block (hsub hblock), fun block hblock => h.size block (hsub hblock)⟩

/-- The bytes in the blocks are as many as the offsets they hold. -/
theorem Laid.byteCount_eq :
    (held blocks).held.Finite ∧ byteCount blocks = (held blocks).held.ncard := by
  induction blocks with
  | nil =>
    have hnil : (held []).held = ∅ := by
      ext i
      simp [OffsetMap.held, held_nil]
    simp [hnil]
  | cons block rest ih =>
    obtain ⟨hfinite, hcount⟩ := ih h.of_cons
    have hend := h.endOffset_eq (mem_cons_self)
    obtain ⟨hfinite', hcard⟩ := OffsetMap.ncard_held_of_split
      (fun i hi hi' => @held_cons_ne_none _ rest _ hi hi') (fun i hi => if_neg hi)
      (fun i _ hi => h.inOrder.held_tail hi) hfinite
    exact ⟨hfinite', by rw [byteCount_cons, hcard, hcount, hend, Nat.add_sub_cancel_left]⟩

end Sound

/-! ## Appends and flushes -/

variable {payload : Bytes}

/-- The blocks of a payload hold it. -/
theorem held_chunks {fuel offset : ℕ} (hfuel : payload.length ≤ fuel)
    (hmax : offset + payload.length ≤ maxValue) :
    held (chunks fuel offset payload) = empty.write offset payload := by
  funext i
  induction fuel generalizing offset payload with
  | zero =>
    obtain rfl : payload = [] := length_eq_zero_iff.mp (Nat.le_zero.mp hfuel)
    exact (if_neg (by simp)).symm
  | succ fuel ih =>
    unfold chunks
    split_ifs with hnil
    · subst hnil
      exact (if_neg (by simp)).symm
    have hpos := length_pos_iff.mpr hnil
    have htake : (payload.take hotBlockBytes).length = min hotBlockBytes payload.length :=
      length_take
    have hdrop : (payload.drop hotBlockBytes).length = payload.length - hotBlockBytes :=
      length_drop
    have hblock : 0 < hotBlockBytes := by decide
    have hend : satAdd offset (payload.take hotBlockBytes).length =
        offset + min hotBlockBytes payload.length := by
      rw [htake]
      exact satAdd_eq_add_of_le (by omega)
    have hrest := ih (show (payload.drop hotBlockBytes).length ≤ fuel by omega)
      (show offset + min hotBlockBytes payload.length + (payload.drop hotBlockBytes).length ≤
        maxValue by omega)
    rw [hend, held]
    simp only [hrest, endOffset_mk, hend, write, hdrop]
    split_ifs with h h' h' h' h' <;> try omega
    · rw [getElem?_take, if_pos (by omega)]
    · rw [getElem?_drop]
      congr 1
      omega
    · rfl

/-- An append above the blocks writes its payload. -/
theorem Laid.held_push (h : Laid blocks) {start : ℕ}
    (habove : ∀ block ∈ blocks, block.endOffset ≤ start)
    (hmax : start + payload.length ≤ maxValue) :
    held (push start payload blocks) = (held blocks).write start payload := by
  funext i
  fun_induction push start payload blocks with
  | case1 =>
    rw [held_chunks le_rfl hmax]
    rfl
  | case2 last hlast take =>
    have hlength : last.startOffset + last.bytes.length = start := by
      rw [← h.endOffset_eq mem_cons_self]
      exact hlast.1
    have htake : (payload.take take).length = take := by
      rw [length_take]
      omega
    have hdrop : (payload.drop take).length = payload.length - take := length_drop
    have hend : satAdd last.startOffset (last.bytes ++ payload.take take).length =
        start + take := by
      rw [length_append, htake, ← hlength, Nat.add_assoc]
      exact satAdd_eq_add_of_le (by omega)
    rw [satAdd_eq_add_of_le (show start + take ≤ maxValue by omega), held,
      held_chunks (by omega) (by omega)]
    simp only [endOffset_mk, hend, write, hdrop, held, hlast.1, empty]
    split_ifs with h₁ h₂ h₂ h₂ h₂ <;> try omega
    · rw [getElem?_append_right (by omega), getElem?_take, if_pos (by omega)]
      congr 1
      omega
    · rw [getElem?_append_left (by omega)]
    · rw [getElem?_drop]
      congr 1
      omega
    · rfl
  | case3 last hlast =>
    have hle := habove last (by simp)
    rw [held, held_chunks le_rfl hmax]
    simp only [write, held]
    split_ifs with h₁ h₂ <;> first | omega | rfl
  | case4 block next rest ih =>
    have hle := habove block (by simp)
    have hrest := ih h.of_cons fun other hother => habove other (by simp [hother])
    rw [held]
    simp only [hrest]
    simp only [write, held]
    split_ifs with h₁ h₂ <;> first | omega | rfl

/-- The new blocks of an append fit, and none is too long. -/
theorem sized_chunks {fuel offset : ℕ} (hmax : offset + payload.length ≤ maxValue)
    (hblock : block ∈ chunks fuel offset payload) :
    block.startOffset + block.bytes.length ≤ maxValue ∧ block.bytes.length ≤ hotBlockBytes := by
  induction fuel generalizing offset payload with
  | zero => cases hblock
  | succ fuel ih =>
    unfold chunks at hblock
    split_ifs at hblock
    · cases hblock
    have htake : (payload.take hotBlockBytes).length = min hotBlockBytes payload.length :=
      length_take
    obtain rfl | hmem := mem_cons.mp hblock
    · exact ⟨show offset + (payload.take hotBlockBytes).length ≤ maxValue by omega,
        show (payload.take hotBlockBytes).length ≤ hotBlockBytes by omega⟩
    · refine ih ?_ hmem
      rw [satAdd_eq_add_of_le (by omega), length_drop]
      omega

section Kept

variable (h : Laid blocks)
include h

theorem Laid.sized_push {start : ℕ} (hmax : start + payload.length ≤ maxValue) :
    ∀ block ∈ push start payload blocks,
      block.startOffset + block.bytes.length ≤ maxValue ∧ block.bytes.length ≤ hotBlockBytes := by
  intro block hblock
  fun_induction push start payload blocks with
  | case1 => exact sized_chunks hmax hblock
  | case2 last hlast take =>
    have hlength : last.startOffset + last.bytes.length = start := by
      rw [← h.endOffset_eq mem_cons_self]
      exact hlast.1
    obtain rfl | hmem := mem_cons.mp hblock
    · simp only [length_append, length_take]
      omega
    · refine sized_chunks ?_ hmem
      rw [satAdd_eq_add_of_le (by omega), length_drop]
      omega
  | case3 last hlast =>
    obtain rfl | hmem := mem_cons.mp hblock
    · exact ⟨h.fits block (by simp), h.size block (by simp)⟩
    · exact sized_chunks hmax hmem
  | case4 first next rest ih =>
    obtain rfl | hmem := mem_cons.mp hblock
    · exact ⟨h.fits block (by simp), h.size block (by simp)⟩
    · exact ih h.of_cons hmem

theorem Laid.push {start : ℕ} (habove : ∀ block ∈ blocks, block.endOffset ≤ start)
    (hmax : start + payload.length ≤ maxValue) : Laid (push start payload blocks) where
  inOrder := by
    refine (InOrder.push ⟨h.inOrder.sorted, habove⟩ payload).mono ?_
    exact min_le_right _ _
  nonempty := nonempty_push h.nonempty
  fits := fun block hblock => (h.sized_push hmax block hblock).1
  size := fun block hblock => (h.sized_push hmax block hblock).2

/-- A flush forgets the offsets below its end. -/
theorem Laid.held_flush (endOffset : ℕ) :
    held (flush endOffset blocks) = (held blocks).dropBelow endOffset := by
  funext i
  fun_induction flush endOffset blocks with
  | case1 => exact (ite_self _).symm
  | case2 front rest hle ih =>
    rw [ih h.of_cons]
    unfold dropBelow
    split_ifs with hi
    · rfl
    · exact (held_cons_of_le (by omega)).symm
  | case3 front rest hle hlt drainLen =>
    have hlength := h.endOffset_eq mem_cons_self
    have hend : satAdd endOffset (front.bytes.drop drainLen).length = front.endOffset := by
      have hfits := h.fits front (by simp)
      rw [length_drop, satAdd_eq_add_of_le (by omega)]
      omega
    have hbelow : i < endOffset → held rest i = none := fun hi => h.inOrder.held_tail (by omega)
    simp only [held, endOffset_mk, hend, dropBelow]
    split_ifs with h₁ h₂ h₂ h₂ h₂ <;> first | omega | rfl | exact hbelow ‹_› | skip
    rw [getElem?_drop]
    congr 1
    omega
  | case4 front rest hle hlt =>
    unfold dropBelow
    split_ifs with hi
    · have hfits := h.fits front (by simp)
      exact h.inOrder.held_of_lt_start (by omega) (by
        omega)
    · rfl

theorem Laid.flush (endOffset : ℕ) : Laid (HotBlocks.flush endOffset blocks) := by
  have hsized : ∀ block ∈ HotBlocks.flush endOffset blocks,
      block.startOffset + block.bytes.length ≤ maxValue ∧ block.bytes.length ≤ hotBlockBytes := by
    intro block hblock
    obtain hmem | ⟨old, hold, hstart, hlt, rfl, -⟩ := of_mem_flush hblock
    · exact ⟨h.fits block hmem, h.size block hmem⟩
    have hfits := h.fits old hold
    have hsize := h.size old hold
    have hend := h.endOffset_eq hold
    simp only [length_drop]
    omega
  exact ⟨h.inOrder.flush endOffset, nonempty_flush h.nonempty,
    fun block hblock => (hsized block hblock).1, fun block hblock => (hsized block hblock).2⟩

end Kept

/-! ## Flush plans -/

/-- A flush plan goes on with the gap-free run after the bytes it has. -/
theorem Laid.planFrom_eq (h : Laid blocks) {fromOffset maxFlushBytes : ℕ}
    (hmax : fromOffset + payload.length ≤ maxValue)
    (hstarts : (payload = [] ∧ ∀ block ∈ blocks, fromOffset < block.endOffset) ∨
      ∀ block ∈ blocks, fromOffset + payload.length ≤ block.startOffset) :
    planFrom fromOffset maxFlushBytes payload blocks =
      payload ++ (held blocks).run (fromOffset + payload.length)
        (maxFlushBytes - payload.length) := by
  induction blocks generalizing payload with
  | nil => rw [run_of_none (held_nil _), append_nil, planFrom]
  | cons block rest ih =>
    have hend := h.endOffset_eq mem_cons_self
    have hfits := h.fits block (by simp)
    simp only [planFrom, satAdd_eq_add_of_le hmax]
    split_ifs with hgap hfull htake
    · rw [run_of_none (h.inOrder.held_of_lt_start hgap (by omega)), append_nil]
    · rw [Nat.sub_eq_zero_of_le hfull]
      exact (append_nil _).symm
    all_goals
      set cursor := fromOffset + payload.length with hcursor
      have hskip : min (fromOffset - block.startOffset) block.bytes.length =
          cursor - block.startOffset := by
        obtain ⟨hnil, hends⟩ | hstarts := hstarts
        · have := hends block (by simp)
          rw [hnil, length_nil] at hcursor
          omega
        · have := hstarts block (by simp)
          omega
      rw [hskip] at htake ⊢
      set available := block.bytes.drop (cursor - block.startOffset) with havailable
      have hlength : cursor + available.length = block.endOffset := by
        rw [havailable, length_drop]
        omega
      have hheld : ∀ k < available.length, held (block :: rest) (cursor + k) = available[k]? := by
        intro k hk
        rw [held_cons_of_mem (by omega) (by omega), havailable, getElem?_drop]
        congr 1
        omega
      rw [run_append hheld]
    · rw [show maxFlushBytes - payload.length - available.length = 0 by omega,
        min_eq_right (by omega)]
      exact congrArg _ (append_nil _).symm
    · rw [take_of_length_le (show available.length ≤ min _ _ by omega),
        take_of_length_le (show available.length ≤ maxFlushBytes - payload.length by omega)]
      have hnext : fromOffset + (payload ++ available).length = block.endOffset := by
        rw [length_append]
        omega
      have hrun : (held rest).run block.endOffset
            (maxFlushBytes - payload.length - available.length) =
          (held (block :: rest)).run block.endOffset
            (maxFlushBytes - payload.length - available.length) :=
        run_congr fun i hi => (held_cons_of_le hi).symm
      rw [ih h.of_cons (by omega) (.inr fun other hother => ?_), hnext, hlength, append_assoc,
        ← hrun, length_append, Nat.sub_sub]
      have := (inOrder_cons.mp h.inOrder).2.1 other hother
      omega

end HotBlocks

namespace HotBuffer

open HotBlocks

variable {buffer : HotBuffer} {tail : ℕ}

/-- What a buffer holds, as a map from offsets. -/
def map (buffer : HotBuffer) : OffsetMap UInt8 := held buffer.blocks

section Ordered

variable (h : InOrder tail buffer.blocks)
include h

theorem byteAt_eq (offset : ℕ) : buffer.byteAt offset = buffer.map offset := by
  have hafter : buffer.map offset = held (endingAfter offset buffer.blocks) offset :=
    (held_endingAfter le_rfl).symm
  have horder := h.endingAfter offset
  have hends := fun block => @InOrder.lt_endOffset_of_mem_endingAfter tail block _ h offset
  rw [hafter, byteAt]
  cases hblocks : endingAfter offset buffer.blocks with
  | nil => rfl
  | cons block rest =>
    rw [hblocks] at horder hends
    have hend := hends block (by simp)
    by_cases hstart : block.startOffset ≤ offset
    · rw [held_cons_of_mem hstart hend]
      exact if_pos hstart
    · have hmax := endOffset_le_maxValue block
      rw [horder.held_of_lt_start (by omega) (by omega)]
      exact if_neg hstart

theorem flatten_readSegments (offset : ℕ) {nextOffset : ℕ} (hmax : nextOffset ≤ maxValue) :
    flatten (buffer.readSegments offset nextOffset) =
      buffer.map.cells offset nextOffset := by
  rw [readSegments, (h.endingAfter offset).flatten_readFrom offset hmax]
  exact cells_congr fun i hi _ => held_endingAfter hi

theorem covers_iff {startOffset endOffset : ℕ} (hmax : endOffset ≤ maxValue) :
    buffer.covers startOffset endOffset = true ↔ buffer.map.Covers startOffset endOffset := by
  unfold covers
  split_ifs with hle
  · exact ⟨fun _ => covers_of_le hle, fun _ => rfl⟩
  · rw [(h.endingAfter startOffset).reach_iff (not_le.mp hle) hmax fun block hblock =>
      (h.lt_endOffset_of_mem_endingAfter hblock).le]
    exact forall₃_congr fun i hi _ => by rw [held_endingAfter hi, map]

end Ordered

theorem coversPrefix_iff (h : Laid buffer.blocks) {startOffset endOffset : ℕ}
    (hmax : endOffset ≤ maxValue) :
    buffer.coversPrefix startOffset endOffset = true ↔
      IsLeast buffer.map.held startOffset ∧ buffer.map.Covers startOffset endOffset := by
  unfold coversPrefix map
  cases hblocks : buffer.blocks with
  | nil =>
    refine ⟨fun h => absurd h (by simp), fun hleast => ?_⟩
    exact absurd rfl hleast.1.1
  | cons first rest =>
    rw [hblocks] at h
    have hlt := h.start_lt_endOffset mem_cons_self
    have hleast : IsLeast (held (first :: rest)).held first.startOffset := by
      refine ⟨held_cons_ne_none le_rfl hlt, fun i hi => ?_⟩
      obtain ⟨block, hblock, hstart, -⟩ := exists_of_held hi
      obtain rfl | hmem := mem_cons.mp hblock
      · exact hstart
      · have := (inOrder_cons.mp h.inOrder).2.1 block hmem
        omega
    by_cases hfirst : first.startOffset = startOffset
    · subst hfirst
      simp only [ne_eq, not_true_eq_false, if_false, hleast, true_and]
      by_cases hend : first.startOffset < endOffset
      · refine h.inOrder.reachExactly_iff hend hmax fun block hblock => ?_
        obtain rfl | hmem := mem_cons.mp hblock
        · exact le_rfl
        · have := (inOrder_cons.mp h.inOrder).2.1 block hmem
          omega
      · refine ⟨fun _ => covers_of_le (by omega), fun _ => ?_⟩
        rw [reachExactly, if_neg (by simp), if_pos (by omega)]
    · simp only [ne_eq, hfirst, not_false_eq_true, if_true, Bool.false_eq_true, false_iff]
      exact fun hother => hfirst (hleast.unique hother.1)

theorem lfEnds_eq (h : InOrder tail buffer.blocks) {startOffset endOffset : ℕ} (maxBytes : ℕ)
    (hmax : endOffset ≤ maxValue) :
    buffer.lfEnds startOffset endOffset maxBytes =
      firstWithin (startOffset + maxBytes)
        (lineEnds lf startOffset (buffer.map.run startOffset (endOffset - startOffset))) := by
  rw [lfEnds, (h.endingAfter startOffset).lfEndsFrom_eq _ _ hmax fun block hblock =>
      (h.lt_endOffset_of_mem_endingAfter hblock).le,
    gather_nil (pairwise_lineEnds _ _ _), run_endingAfter]
  refine firstWithin_congr fun finish hfinish => ?_
  have hle := (lt_of_mem_lineEnds _ hfinish)
  have hrun := (held buffer.blocks).length_run_le startOffset (endOffset - startOffset)
  unfold satAdd
  omega

theorem planColdFlushFrom_eq (h : Laid buffer.blocks) {fromOffset : ℕ}
    (minHotBytes maxFlushBytes : ℕ) (hmax : fromOffset ≤ maxValue) :
    buffer.planColdFlushFrom fromOffset minHotBytes maxFlushBytes =
      if (buffer.map.run fromOffset maxFlushBytes).length < minHotBytes then none
      else some (fromOffset, fromOffset + (buffer.map.run fromOffset maxFlushBytes).length,
        buffer.map.run fromOffset maxFlushBytes) := by
  have hplan := @Laid.planFrom_eq _ [] (h.endingAfter fromOffset) fromOffset maxFlushBytes hmax
    (.inl ⟨rfl, fun block hblock => h.inOrder.lt_endOffset_of_mem_endingAfter hblock⟩)
  rw [nil_append, length_nil, Nat.add_zero, Nat.sub_zero, run_endingAfter] at hplan
  have hend := satAdd_eq_add_of_le (@add_length_run_le buffer.blocks _ hmax maxFlushBytes)
  unfold planColdFlushFrom map
  rw [hplan, ← hend]

/-- The buffer answers every question as the map does. The arguments are offsets and lengths of 64
bits. -/
structure Represents (buffer : HotBuffer) (map : OffsetMap UInt8) : Prop where
  nonempty : ∀ block ∈ buffer.blocks, block.bytes ≠ []
  sorted : buffer.blocks.Pairwise fun a b => a.startOffset + a.bytes.length ≤ b.startOffset
  size : ∀ block ∈ buffer.blocks, block.bytes.length ≤ hotBlockBytes
  len : map.held.Finite ∧ buffer.len = map.held.ncard
  byteAt : ∀ offset ≤ maxValue, buffer.byteAt offset = map offset
  readSegments : ∀ offset ≤ maxValue, ∀ nextOffset ≤ maxValue,
    OffsetMap.flatten (buffer.readSegments offset nextOffset) = map.cells offset nextOffset ∧
      ∀ part ∈ buffer.readSegments offset nextOffset, part.2 ≠ []
  covers : ∀ startOffset ≤ maxValue, ∀ endOffset ≤ maxValue,
    buffer.covers startOffset endOffset = true ↔ map.Covers startOffset endOffset
  coversPrefix : ∀ startOffset ≤ maxValue, ∀ endOffset ≤ maxValue,
    buffer.coversPrefix startOffset endOffset = true ↔
      IsLeast map.held startOffset ∧ map.Covers startOffset endOffset
  lfEnds : ∀ startOffset ≤ maxValue, ∀ endOffset ≤ maxValue, ∀ maxBytes,
    buffer.lfEnds startOffset endOffset maxBytes =
      firstWithin (startOffset + maxBytes)
        (lineEnds lf startOffset (map.run startOffset (endOffset - startOffset)))
  planColdFlushFrom : ∀ fromOffset ≤ maxValue, ∀ minHotBytes maxFlushBytes,
    buffer.planColdFlushFrom fromOffset minHotBytes maxFlushBytes =
      if (map.run fromOffset maxFlushBytes).length < minHotBytes then none
      else some (fromOffset, fromOffset + (map.run fromOffset maxFlushBytes).length,
        map.run fromOffset maxFlushBytes)

theorem represents_map (h : Laid buffer.blocks) : buffer.Represents buffer.map where
  nonempty := buffer.nonempty
  sorted := h.inOrder.sorted.imp_of_mem fun ha _ hle => h.endOffset_eq ha ▸ hle
  size := h.size
  len := ⟨h.byteCount_eq.1, buffer.payloadLen_eq.trans h.byteCount_eq.2⟩
  byteAt := fun offset _ => byteAt_eq h.inOrder offset
  readSegments := fun offset _ _ hmax =>
    ⟨flatten_readSegments h.inOrder offset hmax, fun _ => nonempty_of_mem_readFrom⟩
  covers := fun _ _ _ => covers_iff h.inOrder
  coversPrefix := fun _ _ _ => coversPrefix_iff h
  lfEnds := fun _ _ _ hmax maxBytes => lfEnds_eq h.inOrder maxBytes hmax
  planColdFlushFrom := fun _ hmax min max => planColdFlushFrom_eq h min max hmax

end HotBuffer

/-- A run of a hot buffer: the buffer it leaves, and what the plain map holds that keeps every
append and drops what lies below each flush. -/
inductive HotRun : HotBuffer → OffsetMap UInt8 → Prop
  | empty : HotRun .empty .empty
  | push {buffer : HotBuffer} {map : OffsetMap UInt8} (h : HotRun buffer map) {start : ℕ}
      {payload : Bytes} (habove : ∀ offset, map offset ≠ none → offset < start)
      (hmax : start + payload.length ≤ maxValue) :
      HotRun (buffer.pushSlice start payload) (map.write start payload)
  | flushPrefix {buffer : HotBuffer} {map : OffsetMap UInt8} (h : HotRun buffer map)
      (endOffset : ℕ) : HotRun (buffer.flushPrefix endOffset) (map.dropBelow endOffset)
  | discardBefore {buffer : HotBuffer} {map : OffsetMap UInt8} (h : HotRun buffer map)
      (retainedOffset : ℕ) :
      HotRun (buffer.discardBefore retainedOffset) (map.dropBelow retainedOffset)
  | snapshot {buffer : HotBuffer} {map : OffsetMap UInt8} (h : HotRun buffer map) :
      HotRun (.fromSnapshot buffer.payload buffer.hotSegments) map

/-- A run keeps the blocks in order, and the buffer's map is the plain one. -/
theorem HotRun.laid {buffer : HotBuffer} {map : OffsetMap UInt8} (h : HotRun buffer map) :
    HotBlocks.Laid buffer.blocks ∧ buffer.map = map := by
  induction h with
  | empty => exact ⟨.nil, rfl⟩
  | @push buffer map h start payload habove hmax ih =>
    obtain ⟨hlaid, rfl⟩ := ih
    have hends : ∀ block ∈ buffer.blocks, block.endOffset ≤ start := by
      intro block hblock
      have hlt := hlaid.start_lt_endOffset hblock
      have := habove (block.endOffset - 1) (held_ne_none hblock (by omega) (by omega))
      omega
    exact ⟨hlaid.push hends hmax, hlaid.held_push hends hmax⟩
  | flushPrefix h endOffset ih =>
    obtain ⟨hlaid, rfl⟩ := ih
    exact ⟨hlaid.flush endOffset, hlaid.held_flush endOffset⟩
  | discardBefore h retainedOffset ih =>
    obtain ⟨hlaid, rfl⟩ := ih
    exact ⟨hlaid.flush retainedOffset, hlaid.held_flush retainedOffset⟩
  | snapshot h ih =>
    rw [HotBuffer.fromSnapshot_hotSegments]
    exact ih

/-- After every run of appends, flushes and snapshots the buffer answers as the plain map does. -/
theorem hotRun_represents {buffer : HotBuffer} {map : OffsetMap UInt8} (h : HotRun buffer map) :
    buffer.Represents map := by
  obtain ⟨hlaid, rfl⟩ := h.laid
  exact HotBuffer.represents_map hlaid

/-- Two appends with a gap between them, and a flush inside the first block. -/
theorem hotRun_represents_sample :
    (((HotBuffer.empty.pushSlice 0 [104, 105, 10]).pushSlice 8 [111, 10]).flushPrefix 1).Represents
      (((OffsetMap.empty.write 0 [104, 105, 10]).write 8 [111, 10]).dropBelow 1) := by
  refine hotRun_represents (.flushPrefix (.push (.push .empty ?_ (by decide)) ?_ (by decide)) 1)
  · exact fun offset h => absurd rfl h
  · intro offset h
    by_contra hle
    refine h (if_neg ?_)
    simp only [length_cons, length_nil]
    omega

/-- The range of an append past the last offset is cut: the buffer counts the bytes that no offset
reaches, and does not find the last byte that one does. -/
theorem hotBuffer_cuts_last_offsets :
    ¬ (HotBuffer.empty.pushSlice (2 ^ 64 - 3) [1, 2, 3, 4, 5]).Represents
      (OffsetMap.empty.write (2 ^ 64 - 3) [1, 2, 3, 4, 5]) := by
  intro h
  have hbyte := h.byteAt (2 ^ 64 - 1) (by decide)
  exact absurd hbyte (by decide +kernel)

end Ursula

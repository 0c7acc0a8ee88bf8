import Mathlib.Data.List.Chain
import Ursula.Lib.Word64
import Ursula.Stream.Model

/-!
# Selecting chunks to compact

The compactor looks for undersized chunks of a stream that lie next to each other and together reach
a byte target without exceeding a maximum. It goes through the chunks once and gathers a window that
starts anew at a gap, after a chunk that is not undersized and when the maximum would be exceeded.

## Main definitions

* `selectColdChunkCompaction`: the selection
* `Compactable`: the runs that it looks for

## Main results

* `selection_sound_and_complete`: what it selects is such a run, and it finds one whenever there is
  one exactly when the maximum is at least twice the target less two bytes, or is no bound at all
* `selection_misses_run`: below that, starting anew can drop the front of the only run
-/

namespace Ursula.Runtime

open Word64 List

/-! ## The selection -/

/-- The run gathered so far, its bytes and where the next chunk has to start. -/
structure CompactionWindow where
  candidate : List ColdChunkRef
  bytes : ℕ
  nextOffset : Option ℕ

open CompactionWindow

/-- The window before the first chunk. -/
def CompactionWindow.empty : CompactionWindow := ⟨[], 0, none⟩

/-- An undersized chunk that is the whole of its object. -/
def Usable (chunk : ColdChunkRef) (targetBytes : ℕ) : Prop :=
  chunk.endOffset - chunk.startOffset > 0 ∧
    chunk.objectSize = chunk.endOffset - chunk.startOffset ∧ chunk.objectSize < targetBytes

instance (chunk : ColdChunkRef) (targetBytes : ℕ) : Decidable (Usable chunk targetBytes) :=
  inferInstanceAs (Decidable (_ ∧ _ ∧ _))

/-- The window goes on with the chunk: it starts where the window ends, and the bytes fit. -/
def CompactionWindow.GoesOn (window : CompactionWindow) (maxBytes : ℕ)
    (chunk : ColdChunkRef) : Prop :=
  (∀ offset ∈ window.nextOffset, offset = chunk.startOffset) ∧
    ∃ total ∈ checkedAdd window.bytes chunk.objectSize, total ≤ maxBytes

instance (window : CompactionWindow) (maxBytes : ℕ) (chunk : ColdChunkRef) :
    Decidable (window.GoesOn maxBytes chunk) :=
  inferInstanceAs (Decidable (_ ∧ _))

/-- The chunks that are left, from a window on. -/
def selectFrom (targetBytes maxBytes : ℕ) :
    List ColdChunkRef → CompactionWindow → Option (List ColdChunkRef)
  | [], _ => none
  | chunk :: rest, window =>
    if chunk.endOffset < chunk.startOffset then
      none
    else if ¬ Usable chunk targetBytes then
      selectFrom targetBytes maxBytes rest .empty
    else
      let window := if window.GoesOn maxBytes chunk then window else .empty
      match checkedAdd window.bytes chunk.objectSize with
      | none => none
      | some bytes =>
        let candidate := window.candidate ++ [chunk]
        if 2 ≤ candidate.length ∧ targetBytes ≤ bytes then
          some candidate
        else
          selectFrom targetBytes maxBytes rest ⟨candidate, bytes, some chunk.endOffset⟩

/-- Selects a run of chunks to compact into one. -/
def selectColdChunkCompaction (chunks : List ColdChunkRef) (targetBytes maxBytes : ℕ) :
    Option (List ColdChunkRef) :=
  if targetBytes = 0 ∨ maxBytes < targetBytes then none
  else selectFrom targetBytes maxBytes chunks .empty

/-! ## What is looked for -/

/-- The bytes of the chunks' objects. -/
def totalBytes (chunks : List ColdChunkRef) : ℕ := (chunks.map ColdChunkRef.objectSize).sum

/-- Undersized chunks, each starting where the one before it ends. -/
structure Adjoining (targetBytes : ℕ) (run : List ColdChunkRef) : Prop where
  usable : ∀ chunk ∈ run, Usable chunk targetBytes
  chain : run.IsChain fun chunk next => chunk.endOffset = next.startOffset

/-- A run that is worth compacting: at least two adjoining chunks that together reach the target
and do not exceed the maximum. -/
structure Compactable (targetBytes maxBytes : ℕ) (run : List ColdChunkRef) : Prop
    extends Adjoining targetBytes run where
  two : 2 ≤ run.length
  reaches : targetBytes ≤ totalBytes run
  within : totalBytes run ≤ maxBytes

/-- Chunks as an index lists them: with bytes, within 64 bits, and in the order of their starts. -/
structure Indexed (chunks : List ColdChunkRef) : Prop where
  ranges : ∀ chunk ∈ chunks, chunk.startOffset < chunk.endOffset
  fits : ∀ chunk ∈ chunks, chunk.endOffset ≤ maxValue
  sorted : chunks.Pairwise fun chunk next => chunk.startOffset ≤ next.startOffset

/-- What holds of a window between two chunks. -/
structure CompactionWindow.Gathered (window : CompactionWindow) (targetBytes maxBytes : ℕ) : Prop
    extends Adjoining targetBytes window.candidate where
  bytes : window.bytes = totalBytes window.candidate
  nextOffset : window.nextOffset = window.candidate.getLast?.map ColdChunkRef.endOffset
  short : window.bytes < targetBytes
  within : window.bytes ≤ maxBytes

section

variable {targetBytes maxBytes : ℕ} {window : CompactionWindow} {chunk : ColdChunkRef}
  {run : List ColdChunkRef}

theorem totalBytes_append (front back : List ColdChunkRef) :
    totalBytes (front ++ back) = totalBytes front + totalBytes back := by
  rw [totalBytes, map_append, sum_append]
  rfl

theorem totalBytes_singleton (chunk : ColdChunkRef) : totalBytes [chunk] = chunk.objectSize := by
  simp [totalBytes]

/-- Adjoining chunks have as many bytes as lie between their ends. -/
theorem Adjoining.totalBytes_le (h : Adjoining targetBytes (run ++ [chunk])) :
    totalBytes (run ++ [chunk]) ≤ chunk.endOffset := by
  induction run using reverseRecOn generalizing chunk with
  | nil =>
    obtain ⟨-, hsize, -⟩ := h.usable chunk (by simp)
    rw [nil_append, totalBytes_singleton, hsize]
    exact Nat.sub_le _ _
  | append_singleton run last ih =>
    obtain ⟨hchain, -, hlast⟩ := isChain_append.mp h.chain
    have hadjoins : last.endOffset = chunk.startOffset := hlast last (by simp) chunk rfl
    obtain ⟨hpos, hsize, -⟩ := h.usable chunk (by simp)
    have hbefore := ih ⟨fun other hother => h.usable other (mem_append_left _ hother), hchain⟩
    rw [totalBytes_append, totalBytes_singleton, hsize]
    omega

theorem CompactionWindow.gathered_empty (htarget : 0 < targetBytes) :
    empty.Gathered targetBytes maxBytes :=
  { usable := by simp [empty]
    chain := List.IsChain.nil
    bytes := rfl
    nextOffset := rfl
    short := htarget
    within := Nat.zero_le _ }

/-- A chunk that the window goes on with adjoins it. -/
theorem CompactionWindow.Gathered.adjoining_concat (h : window.Gathered targetBytes maxBytes)
    (hchunk : Usable chunk targetBytes)
    (hgoes : ∀ offset ∈ window.nextOffset, offset = chunk.startOffset) :
    Adjoining targetBytes (window.candidate ++ [chunk]) where
  usable := by
    intro other hother
    rcases mem_append.mp hother with hother | hother
    · exact h.usable other hother
    · rwa [mem_singleton.mp hother]
  chain := by
    refine isChain_append.mpr ⟨h.chain, List.IsChain.singleton _, ?_⟩
    intro last hlast next hnext
    obtain rfl : chunk = next := by simpa using hnext
    refine hgoes last.endOffset ?_
    rw [h.nextOffset, Option.mem_def.mp hlast]
    rfl

/-- The window that an undersized chunk is added to. -/
def CompactionWindow.base (window : CompactionWindow) (maxBytes : ℕ) (chunk : ColdChunkRef) :
    CompactionWindow :=
  if window.GoesOn maxBytes chunk then window else .empty

/-- The window with one more chunk. -/
def CompactionWindow.add (window : CompactionWindow) (chunk : ColdChunkRef) : CompactionWindow :=
  ⟨window.candidate ++ [chunk], window.bytes + chunk.objectSize, some chunk.endOffset⟩

theorem CompactionWindow.goesOn_iff (hmax : maxBytes ≤ maxValue) :
    window.GoesOn maxBytes chunk ↔ (∀ offset ∈ window.nextOffset, offset = chunk.startOffset) ∧
      window.bytes + chunk.objectSize ≤ maxBytes := by
  refine and_congr_right fun _ => ?_
  unfold checkedAdd
  split_ifs with hfits
  · simp
  · simp only [Option.mem_def, reduceCtorEq, false_and, exists_false, false_iff]
    omega

theorem CompactionWindow.Gathered.base (h : window.Gathered targetBytes maxBytes) :
    (window.base maxBytes chunk).Gathered targetBytes maxBytes := by
  unfold CompactionWindow.base
  split_ifs
  · exact h
  · exact gathered_empty (Nat.zero_lt_of_lt h.short)

theorem selectFrom_of_not_usable (hrange : chunk.startOffset < chunk.endOffset)
    (hchunk : ¬ Usable chunk targetBytes) (rest : List ColdChunkRef) :
    selectFrom targetBytes maxBytes (chunk :: rest) window =
      selectFrom targetBytes maxBytes rest .empty := by
  rw [selectFrom, if_neg (by omega), if_pos hchunk]

variable (htarget : targetBytes ≤ maxBytes) (hmax : maxBytes ≤ maxValue)

include htarget hmax

theorem CompactionWindow.goesOn_base (hchunk : Usable chunk targetBytes) :
    (window.base maxBytes chunk).GoesOn maxBytes chunk := by
  unfold base
  split_ifs with hgoes
  · exact hgoes
  · have hsize := hchunk.2.2
    have hfits : 0 + chunk.objectSize ≤ maxBytes := by omega
    exact (goesOn_iff hmax).mpr ⟨by simp [empty], hfits⟩

theorem selectFrom_of_usable (hrange : chunk.startOffset < chunk.endOffset)
    (hchunk : Usable chunk targetBytes) (rest : List ColdChunkRef) :
    selectFrom targetBytes maxBytes (chunk :: rest) window =
      if 2 ≤ ((window.base maxBytes chunk).add chunk).candidate.length ∧
          targetBytes ≤ ((window.base maxBytes chunk).add chunk).bytes then
        some ((window.base maxBytes chunk).add chunk).candidate
      else
        selectFrom targetBytes maxBytes rest ((window.base maxBytes chunk).add chunk) := by
  have hgoes : (window.base maxBytes chunk).GoesOn maxBytes chunk :=
    goesOn_base htarget hmax hchunk
  have hfits := ((goesOn_iff hmax).mp hgoes).2
  have hadd : checkedAdd (window.base maxBytes chunk).bytes chunk.objectSize =
      some ((window.base maxBytes chunk).bytes + chunk.objectSize) := if_pos (by omega)
  rw [selectFrom, if_neg (by omega), if_neg (not_not.mpr hchunk)]
  show (match checkedAdd (window.base maxBytes chunk).bytes chunk.objectSize with
    | none => none
    | some bytes => _) = _
  rw [hadd]
  rfl

/-- The bytes of a window with one more chunk are those of its run, and within the maximum. -/
theorem CompactionWindow.Gathered.add_bytes (h : window.Gathered targetBytes maxBytes)
    (hchunk : Usable chunk targetBytes) :
    ((window.base maxBytes chunk).add chunk).bytes =
        totalBytes ((window.base maxBytes chunk).add chunk).candidate ∧
      ((window.base maxBytes chunk).add chunk).bytes ≤ maxBytes := by
  have hgoes : (window.base maxBytes chunk).GoesOn maxBytes chunk := goesOn_base htarget hmax hchunk
  refine ⟨?_, ((goesOn_iff hmax).mp hgoes).2⟩
  rw [add, totalBytes_append, totalBytes_singleton, h.base.bytes]

/-- A window with one more chunk that does not end the selection. -/
theorem CompactionWindow.Gathered.add (h : window.Gathered targetBytes maxBytes)
    (hchunk : Usable chunk targetBytes)
    (hshort : ¬ (2 ≤ ((window.base maxBytes chunk).add chunk).candidate.length ∧
      targetBytes ≤ ((window.base maxBytes chunk).add chunk).bytes)) :
    ((window.base maxBytes chunk).add chunk).Gathered targetBytes maxBytes where
  toAdjoining := h.base.adjoining_concat hchunk (goesOn_base htarget hmax hchunk).1
  bytes := (h.add_bytes htarget hmax hchunk).1
  nextOffset := by simp [CompactionWindow.add]
  short := by
    -- a window of one chunk is short because the chunk is undersized
    by_cases htwo : 2 ≤ ((window.base maxBytes chunk).add chunk).candidate.length
    · exact Nat.lt_of_not_le fun hreaches => hshort ⟨htwo, hreaches⟩
    have hempty : (window.base maxBytes chunk).candidate = [] := by
      rw [CompactionWindow.add, length_append, length_singleton] at htwo
      exact eq_nil_of_length_eq_zero (by omega)
    rw [(h.add_bytes htarget hmax hchunk).1, CompactionWindow.add, hempty, nil_append,
      totalBytes_singleton]
    exact hchunk.2.2
  within := (h.add_bytes htarget hmax hchunk).2

/-- What is selected from a window on is compactable and stands in the window's run and the chunks
after it. -/
theorem compactable_of_selectFrom {chunks : List ColdChunkRef}
    (hranges : ∀ chunk ∈ chunks, chunk.startOffset < chunk.endOffset)
    (h : window.Gathered targetBytes maxBytes)
    (hselect : selectFrom targetBytes maxBytes chunks window = some run) :
    Compactable targetBytes maxBytes run ∧ run <:+: window.candidate ++ chunks := by
  induction chunks generalizing window with
  | nil => cases hselect
  | cons chunk rest ih =>
    rw [forall_mem_cons] at hranges
    by_cases hchunk : Usable chunk targetBytes
    · -- the run of the window that the chunk is added to stands in the window's
      have hstands : ((window.base maxBytes chunk).add chunk).candidate ++ rest <:+:
          window.candidate ++ chunk :: rest := by
        rw [add, append_assoc, singleton_append]
        unfold base
        split_ifs
        · exact infix_refl _
        · exact (suffix_append _ _).isInfix
      rw [selectFrom_of_usable htarget hmax hranges.1 hchunk] at hselect
      split_ifs at hselect with hdone
      · cases hselect
        obtain ⟨hbytes, hwithin⟩ := h.add_bytes htarget hmax hchunk
        refine ⟨⟨h.base.adjoining_concat hchunk (goesOn_base htarget hmax hchunk).1,
          hdone.1, ?_, ?_⟩, (prefix_append _ _).isInfix.trans hstands⟩
        · rw [← hbytes]
          exact hdone.2
        · rw [← hbytes]
          exact hwithin
      · obtain ⟨hrun, hwithin⟩ := ih hranges.2 (h.add htarget hmax hchunk hdone) hselect
        exact ⟨hrun, hwithin.trans hstands⟩
    · rw [selectFrom_of_not_usable hranges.1 hchunk] at hselect
      obtain ⟨hrun, hwithin⟩ := ih hranges.2 (gathered_empty (Nat.zero_lt_of_lt h.short)) hselect
      refine ⟨hrun, hwithin.trans ?_⟩
      exact ((suffix_cons _ _).trans (suffix_append _ _)).isInfix

/-- A selection that is not ended by some chunks goes on after them from a window. -/
theorem selectFrom_append {front : List ColdChunkRef}
    (hranges : ∀ chunk ∈ front, chunk.startOffset < chunk.endOffset)
    (h : window.Gathered targetBytes maxBytes) (back : List ColdChunkRef) :
    (selectFrom targetBytes maxBytes (front ++ back) window).isSome ∨
      ∃ next : CompactionWindow, next.Gathered targetBytes maxBytes ∧
        selectFrom targetBytes maxBytes (front ++ back) window =
          selectFrom targetBytes maxBytes back next := by
  induction front generalizing window with
  | nil => exact .inr ⟨window, h, rfl⟩
  | cons chunk rest ih =>
    rw [forall_mem_cons] at hranges
    rw [cons_append]
    by_cases hchunk : Usable chunk targetBytes
    · rw [selectFrom_of_usable htarget hmax hranges.1 hchunk]
      split_ifs with hdone
      · exact .inl rfl
      · exact ih hranges.2 (h.add htarget hmax hchunk hdone)
    · rw [selectFrom_of_not_usable hranges.1 hchunk]
      exact ih hranges.2 (gathered_empty (Nat.zero_lt_of_lt h.short))

/-- Where gathered chunks never exceed the maximum, nothing but a gap and a chunk that is not
undersized makes the window start anew, so a window whose run ends with the front of a compactable
run keeps it. -/
theorem isSome_selectFrom_of_suffix
    (hroom : ∀ run chunk, Adjoining targetBytes (run ++ [chunk]) → chunk.endOffset ≤ maxValue →
      totalBytes run < targetBytes → totalBytes (run ++ [chunk]) ≤ maxBytes)
    {part more back : List ColdChunkRef} (hfits : ∀ chunk ∈ more, chunk.endOffset ≤ maxValue)
    (h : window.Gathered targetBytes maxBytes)
    (hpart : part <:+ window.candidate) (hne : part ≠ [])
    (hrun : Compactable targetBytes maxBytes (part ++ more)) :
    (selectFrom targetBytes maxBytes (more ++ back) window).isSome := by
  induction more generalizing window part with
  | nil =>
    -- the whole run is in the window, which is short
    obtain ⟨front, hfront⟩ := hpart
    have hreaches := hrun.reaches
    have hshort := h.short
    rw [h.bytes, ← hfront, totalBytes_append] at hshort
    rw [append_nil] at hreaches
    omega
  | cons chunk more ih =>
    rw [forall_mem_cons] at hfits
    have hchunk : Usable chunk targetBytes := hrun.usable chunk (by simp)
    -- the last chunk of the window is the last one of the part
    have hadjoins : ∀ offset ∈ window.nextOffset, offset = chunk.startOffset := by
      intro offset hoffset
      obtain ⟨front, hfront⟩ := hpart
      rw [h.nextOffset, ← hfront, getLast?_append_of_ne_nil _ hne] at hoffset
      obtain ⟨last, hlast, rfl⟩ := Option.map_eq_some_iff.mp hoffset
      exact (isChain_append.mp hrun.chain).2.2 last hlast chunk rfl
    have hgoes : window.GoesOn maxBytes chunk := by
      refine (goesOn_iff hmax).mpr ⟨hadjoins, ?_⟩
      have hshort := h.short
      rw [h.bytes] at hshort
      have hwithin := hroom _ chunk (h.adjoining_concat hchunk hadjoins) hfits.1 hshort
      rwa [totalBytes_append, totalBytes_singleton, ← h.bytes] at hwithin
    have hbase : window.base maxBytes chunk = window := if_pos hgoes
    rw [cons_append, selectFrom_of_usable htarget hmax (Nat.lt_of_sub_pos hchunk.1) hchunk]
    split_ifs with hdone
    · rfl
    have hnext := h.add htarget hmax hchunk hdone
    rw [hbase] at hnext ⊢
    obtain ⟨front, hfront⟩ := hpart
    have hsuffix : part ++ [chunk] <:+ (window.add chunk).candidate :=
      ⟨front, by rw [add, ← hfront, append_assoc]⟩
    exact ih hfits.2 hnext hsuffix (by simp) (by simpa using hrun)

/-- Where gathered chunks never exceed the maximum, the selection finds a run if there is one. -/
theorem isSome_selectFrom
    (hroom : ∀ run chunk, Adjoining targetBytes (run ++ [chunk]) → chunk.endOffset ≤ maxValue →
      totalBytes run < targetBytes → totalBytes (run ++ [chunk]) ≤ maxBytes)
    {chunks : List ColdChunkRef} (hchunks : Indexed chunks)
    (h : window.Gathered targetBytes maxBytes) (hwithin : run <:+: chunks)
    (hrun : Compactable targetBytes maxBytes run) :
    (selectFrom targetBytes maxBytes chunks window).isSome := by
  obtain ⟨front, back, rfl⟩ := hwithin
  have hranges := hchunks.ranges
  have hfits := hchunks.fits
  rw [append_assoc] at hranges hfits ⊢
  rw [forall_mem_append] at hranges hfits
  rcases selectFrom_append htarget hmax hranges.1 h (run ++ back) with hsome | ⟨next, hnext, heq⟩
  · exact hsome
  rw [heq]
  -- the first chunk of the run starts a window or goes on with the one before it
  cases run with
  | nil => exact absurd hrun.two (by simp)
  | cons chunk more =>
    have hchunk := hrun.usable chunk (by simp)
    rw [cons_append, selectFrom_of_usable htarget hmax (Nat.lt_of_sub_pos hchunk.1) hchunk]
    split_ifs with hdone
    · rfl
    · exact isSome_selectFrom_of_suffix htarget hmax hroom
        (fun other hother => hfits.2 other (by simp [hother]))
        (hnext.add htarget hmax hchunk hdone) (suffix_append _ [chunk]) (by simp) hrun

end

/-! ## The run that is skipped -/

/-- Chunks of one byte, of what the maximum leaves above the target and of one byte less than the
target: the last two have the bytes of the maximum. -/
def skippedRun (targetBytes maxBytes : ℕ) : List ColdChunkRef :=
  [⟨0, 1, "bkt1/a", 1, 0, false, ""⟩,
    ⟨1, maxBytes - targetBytes + 2, "bkt1/b", maxBytes - targetBytes + 1, 0, false, ""⟩,
    ⟨maxBytes - targetBytes + 2, maxBytes + 1, "bkt1/c", targetBytes - 1, 0, false, ""⟩]

section Skipped

variable {targetBytes maxBytes : ℕ} (htarget : targetBytes ≤ maxBytes)
  (hbelow : maxBytes + 2 < 2 * targetBytes)

include htarget hbelow

theorem indexed_skippedRun (hmax : maxBytes < maxValue) :
    Indexed (skippedRun targetBytes maxBytes) := by
  refine ⟨?_, ?_, ?_⟩ <;> simp only [skippedRun, pairwise_cons, not_mem_nil, mem_cons,
    forall_eq_or_imp] <;> grind

theorem usable_skippedRun :
    ∀ chunk ∈ skippedRun targetBytes maxBytes, Usable chunk targetBytes := by
  simp only [skippedRun, forall_mem_cons, Usable]
  grind

theorem compactable_skippedRun :
    Compactable targetBytes maxBytes ((skippedRun targetBytes maxBytes).drop 1) where
  usable chunk hchunk := usable_skippedRun htarget hbelow chunk (mem_of_mem_drop hchunk)
  chain := .cons_cons rfl (.singleton _)
  two := le_rfl
  reaches := by
    simp [skippedRun, totalBytes]
    omega
  within := by
    simp [skippedRun, totalBytes]
    omega

/-- The window holds the first two chunks when the third one exceeds the maximum, and drops both. -/
theorem selectFrom_skippedRun (hmax : maxBytes < maxValue) :
    selectFrom targetBytes maxBytes (skippedRun targetBytes maxBytes) .empty = none := by
  have husable := usable_skippedRun htarget hbelow
  have hindexed := (indexed_skippedRun htarget hbelow hmax).ranges
  unfold skippedRun at husable hindexed ⊢
  simp only [forall_mem_cons, not_mem_nil] at husable hindexed
  obtain ⟨hfirst, hsecond, hthird, -⟩ := husable
  obtain ⟨hfirst', hsecond', hthird', -⟩ := hindexed
  have hgoes : (empty.add ⟨0, 1, "bkt1/a", 1, 0, false, ""⟩).GoesOn maxBytes
      ⟨1, maxBytes - targetBytes + 2, "bkt1/b", maxBytes - targetBytes + 1, 0, false, ""⟩ := by
    refine (goesOn_iff hmax.le).mpr ⟨by simp [add], ?_⟩
    simp only [add, empty]
    omega
  have hexceeds : ¬ ((empty.add ⟨0, 1, "bkt1/a", 1, 0, false, ""⟩).add
      ⟨1, maxBytes - targetBytes + 2, "bkt1/b", maxBytes - targetBytes + 1, 0, false, ""⟩).GoesOn
      maxBytes ⟨maxBytes - targetBytes + 2, maxBytes + 1, "bkt1/c", targetBytes - 1,
        0, false, ""⟩ := by
    rw [goesOn_iff hmax.le]
    simp only [add, empty]
    omega
  rw [selectFrom_of_usable htarget hmax.le hfirst' hfirst, base, ite_self,
    if_neg (by simp [add, empty]), selectFrom_of_usable htarget hmax.le hsecond' hsecond, base,
    if_pos hgoes, if_neg (by simp [add, empty]; omega),
    selectFrom_of_usable htarget hmax.le hthird' hthird, base, if_neg hexceeds,
    if_neg (by simp [add, empty])]
  rfl

end Skipped

/-- **The selection of chunks to compact.** For a target of at least one byte and a maximum of at
least the target, what is selected from chunks with bytes stands in the chunks as it is: at least
two chunks, each starting where the one before it ends, each the whole of its object and below the
target, together within the target and the maximum. Such chunks are found whenever there are some,
for every list of an index, exactly when the maximum is at least twice the target less two bytes, or
is the largest word. -/
theorem selection_sound_and_complete (targetBytes maxBytes : ℕ) (hpos : 1 ≤ targetBytes)
    (htarget : targetBytes ≤ maxBytes) (hmax : maxBytes ≤ maxValue) :
    (∀ chunks : List ColdChunkRef, (∀ chunk ∈ chunks, chunk.startOffset < chunk.endOffset) →
      ∀ run, selectColdChunkCompaction chunks targetBytes maxBytes = some run →
        run <:+: chunks ∧ Compactable targetBytes maxBytes run) ∧
    (2 * targetBytes ≤ maxBytes + 2 ∨ maxBytes = maxValue ↔
      ∀ chunks run, Indexed chunks → run <:+: chunks → Compactable targetBytes maxBytes run →
        (selectColdChunkCompaction chunks targetBytes maxBytes).isSome) := by
  have hselect chunks : selectColdChunkCompaction chunks targetBytes maxBytes =
      selectFrom targetBytes maxBytes chunks .empty := if_neg (by omega)
  simp only [hselect]
  have hempty : empty.Gathered targetBytes maxBytes := gathered_empty hpos
  refine ⟨fun chunks hranges run hrun => ?_, fun hroomy chunks run hchunks hwithin hrun => ?_,
    fun hcomplete => ?_⟩
  · exact (compactable_of_selectFrom htarget hmax hranges hempty hrun).symm
  · refine isSome_selectFrom htarget hmax (fun run chunk hadjoining hfits hshort => ?_)
      hchunks hempty hwithin hrun
    rcases hroomy with htwice | hlargest
    · obtain ⟨-, -, hsize⟩ := hadjoining.usable chunk (by simp)
      rw [totalBytes_append, totalBytes_singleton]
      omega
    · rw [hlargest]
      exact hadjoining.totalBytes_le.trans hfits
  · by_contra hbelow
    obtain ⟨hbelow, hlargest⟩ := not_or.mp hbelow
    have hmax : maxBytes < maxValue := lt_of_le_of_ne hmax hlargest
    have hfound := hcomplete _ _ (indexed_skippedRun htarget (not_le.mp hbelow) hmax)
      (drop_suffix 1 _).isInfix (compactable_skippedRun htarget (not_le.mp hbelow))
    rw [selectFrom_skippedRun htarget (not_le.mp hbelow) hmax] at hfound
    cases hfound

/-- Two chunks of one byte are selected for a target of two bytes. -/
theorem selection_sample :
    let chunks : List ColdChunkRef :=
      [⟨0, 1, "bkt1/a", 1, 0, false, ""⟩, ⟨1, 2, "bkt1/b", 1, 0, false, ""⟩]
    (selectColdChunkCompaction chunks 2 2).isSome := by
  intro chunks
  refine (selection_sound_and_complete 2 2 (by decide) (by decide) (by decide)).2.mp
    (.inl (by decide)) chunks chunks ⟨by decide, by decide, by decide⟩ (infix_refl _) ?_
  exact ⟨⟨by decide, by decide⟩, by decide, by decide, by decide⟩

/-- Chunks of 5, 4 and 6 bytes with a target and a maximum of 10 bytes: the last two are a run to
compact, but the window drops the second one together with the first. -/
theorem selection_misses_run :
    let chunks : List ColdChunkRef := [⟨0, 5, "bkt1/a", 5, 0, false, ""⟩,
      ⟨5, 9, "bkt1/b", 4, 0, false, ""⟩, ⟨9, 15, "bkt1/c", 6, 0, false, ""⟩]
    Compactable 10 10 (chunks.drop 1) ∧ selectColdChunkCompaction chunks 10 10 = none :=
  ⟨⟨⟨by decide, by decide⟩, by decide, by decide, by decide⟩, by decide +kernel⟩

end Ursula.Runtime

import Ursula.Lib.Ascending
import Ursula.Runtime.PageWrites

/-!
# Collecting cold objects below the retained offset

A stream's exclusive cold objects are named by its cold-index pages only. Once the retained offset
has been seen for a grace period, the leader deletes the pages that lie wholly below it, and then
the objects that only these pages name. The grace is kept by a tracker with one pending offset for
each incarnation of a stream.

## Main definitions

* `collectStream`: the deletions of one collection, in their order
* `RetentionGcTracker.observe`: the offsets whose grace has elapsed

## Main results

* `retention_gc_safe`: what is deleted, and how old an offset is when it is collected
* `shared_path_collected`: an object that entries of two ranges name is deleted under one of them
-/

namespace Ursula.Runtime

open Word64 List

/-! ## One collection -/

/-- The pages that a collection reads, as they were decoded. -/
abbrev PageStore := ColdIndexPageKey → Option ColdIndexPage

/-- One stream incarnation's cold objects to collect. -/
structure RetentionGcTarget where
  streamId : BucketStreamId
  generation : ℕ
  createdAtMs : ℕ
  collectBelow : ℕ
  keepPaths : List String
deriving DecidableEq

/-- An object that a page names, the end of its range and whether others share it. -/
structure NamedPath where
  path : String
  endOffset : ℕ
  shared : Bool

/-- The objects a page names. -/
def ColdIndexPage.paths (page : ColdIndexPage) : List NamedPath :=
  (page.coldChunks.map fun chunk => ⟨chunk.s3Path, chunk.endOffset, chunk.sharedObject⟩) ++
    page.externalSegments.map fun object => ⟨object.s3Path, object.endOffset, false⟩

/-- A deletion in the cold store. -/
inductive ColdDeletion
  | page (key : ColdIndexPageKey)
  | object (path : String)
deriving DecidableEq

/-- What the scan of the pages has found. -/
structure CollectionScan where
  doomed : Finset String
  kept : Finset String
  deletablePages : List ColdIndexPageKey

namespace RetentionGcTarget

/-- The key of a page of the target's generation. -/
def pageKey (target : RetentionGcTarget) (pageId : ℕ) : ColdIndexPageKey :=
  ⟨target.streamId, target.generation, pageId⟩

/-- The page lies wholly below the offset, and so does all that it names. -/
def Deletable (target : RetentionGcTarget) (span pageId : ℕ) (page : ColdIndexPage) : Prop :=
  satMul (satAdd pageId 1) span ≤ target.collectBelow ∧
    ∀ named ∈ page.paths, ¬ named.shared ∧ named.endOffset ≤ target.collectBelow

instance (target : RetentionGcTarget) (span pageId : ℕ) (page : ColdIndexPage) :
    Decidable (target.Deletable span pageId page) :=
  inferInstanceAs (Decidable (_ ∧ _))

/-- The scan after one more page. -/
def scanPage (target : RetentionGcTarget) (span : ℕ) (store : PageStore) (scan : CollectionScan)
    (pageId : ℕ) : CollectionScan :=
  match store (target.pageKey pageId) with
  | none => scan
  | some page =>
    if target.Deletable span pageId page then
      { scan with
        doomed := scan.doomed ∪ (page.paths.map NamedPath.path).toFinset
        deletablePages := scan.deletablePages ++ [target.pageKey pageId] }
    else
      { scan with kept := scan.kept ∪ (page.paths.map NamedPath.path).toFinset }

/-- The listed pages that start below the offset. -/
def scannedPageIds (target : RetentionGcTarget) (span : ℕ) (listing : List ℕ) : List ℕ :=
  (listing.filter fun pageId => satMul pageId span < target.collectBelow).insertionSort (· ≤ ·)

/-- The scan of all pages that start below the offset. -/
def scan (target : RetentionGcTarget) (span : ℕ) (listing : List ℕ) (store : PageStore) :
    CollectionScan :=
  (target.scannedPageIds span listing).foldl (target.scanPage span store)
    ⟨∅, target.keepPaths.toFinset, []⟩

end RetentionGcTarget

/-- The deletions of one collection, in their order; the first that fails ends it. -/
def collectStream (target : RetentionGcTarget) (span : ℕ) (listing : List ℕ) (store : PageStore) :
    List ColdDeletion :=
  (target.scan span listing store).deletablePages.map .page ++
    ((target.scan span listing store).doomed \ (target.scan span listing store).kept).ascending.map
      .object

/-! ## The tracker -/

/-- What the state proves about a stream, as far as retention needs it. -/
structure ColdIndexRepairInput where
  streamId : BucketStreamId
  generation : ℕ
  retainedOffset : ℕ
  createdAtMs : ℕ
  stateRefs : List ObjectPayloadRef

/-- An incarnation of a stream. -/
structure IncarnationKey where
  streamId : BucketStreamId
  generation : ℕ
  createdAtMs : ℕ
deriving DecidableEq

/-- The retained offsets of an incarnation: the one whose grace has elapsed, the one up to which
collection is complete, and a newer one with the time when it was first seen. -/
structure RetentionMark where
  eligible : ℕ
  collected : ℕ
  pending : Option (ℕ × ℕ)

/-- The mark of an incarnation that was not seen before. -/
def RetentionMark.default : RetentionMark := ⟨0, 0, none⟩

/-- The grace clock of a leader. -/
structure RetentionGcTracker where
  marks : IncarnationKey → Option RetentionMark

/-- The incarnation of a repair input. -/
def ColdIndexRepairInput.key (input : ColdIndexRepairInput) : IncarnationKey :=
  ⟨input.streamId, input.generation, input.createdAtMs⟩

/-- The incarnation of a target. -/
def RetentionGcTarget.key (target : RetentionGcTarget) : IncarnationKey :=
  ⟨target.streamId, target.generation, target.createdAtMs⟩

namespace RetentionMark

/-- The pending offset becomes eligible once its grace has elapsed. -/
def promote (mark : RetentionMark) (nowMs graceMs : ℕ) : RetentionMark :=
  match mark.pending with
  | some (offset, seenMs) =>
    if nowMs ≥ satAdd seenMs graceMs then
      { mark with eligible := max mark.eligible offset, pending := none }
    else
      mark
  | none => mark

/-- What an observation of a retained offset makes of a mark. -/
def observe (mark : RetentionMark) (retainedOffset nowMs graceMs : ℕ) : RetentionMark :=
  let mark := if retainedOffset < mark.eligible then default else mark
  let mark := mark.promote nowMs graceMs
  if mark.pending.isNone ∧ retainedOffset > mark.eligible then
    { mark with pending := some (retainedOffset, nowMs) }
  else
    mark

end RetentionMark

namespace RetentionGcTracker

/-- A tracker without marks. -/
def new : RetentionGcTracker := ⟨fun _ => none⟩

/-- Notes a retained offset and returns the collection that is due. -/
def observe (tracker : RetentionGcTracker) (input : ColdIndexRepairInput) (nowMs graceMs : ℕ) :
    RetentionGcTracker × Option RetentionGcTarget :=
  if input.retainedOffset = 0 then
    (tracker, none)
  else
    let mark := ((tracker.marks input.key).getD .default).observe input.retainedOffset nowMs graceMs
    (⟨Function.update tracker.marks input.key (some mark)⟩,
      if mark.eligible > mark.collected then
        some {
          streamId := input.streamId
          generation := input.generation
          createdAtMs := input.createdAtMs
          collectBelow := mark.eligible
          keepPaths := input.stateRefs.map ObjectPayloadRef.s3Path }
      else
        none)

/-- Notes that a target was collected. -/
def collected (tracker : RetentionGcTracker) (target : RetentionGcTarget) : RetentionGcTracker :=
  match tracker.marks target.key with
  | none => tracker
  | some mark =>
    ⟨Function.update tracker.marks target.key
      (some { mark with collected := max mark.collected target.collectBelow })⟩

end RetentionGcTracker

/-! ## What a collection deletes -/

namespace RetentionGcTarget

/-- Every entry of the generation's pages is in each page that its range meets and in no other. -/
structure Spread (target : RetentionGcTarget) (span : ℕ) (store : PageStore) : Prop where
  chunks : ∀ pageId page chunk, store (target.pageKey pageId) = some page →
    chunk ∈ page.coldChunks → ∀ other,
      (∃ page', store (target.pageKey other) = some page' ∧ chunk ∈ page'.coldChunks) ↔
        RangesOverlap chunk.startOffset chunk.endOffset (other * span) ((other + 1) * span)
  externals : ∀ pageId page object, store (target.pageKey pageId) = some page →
    object ∈ page.externalSegments → ∀ other,
      (∃ page', store (target.pageKey other) = some page' ∧ object ∈ page'.externalSegments) ↔
        RangesOverlap object.startOffset object.endOffset (other * span) ((other + 1) * span)

/-- The entries of the generation's pages that name one object end at one offset. -/
def OneRange (target : RetentionGcTarget) (store : PageStore) : Prop :=
  ∀ pageId page named pageId' page' named', store (target.pageKey pageId) = some page →
    store (target.pageKey pageId') = some page' → named ∈ page.paths → named' ∈ page'.paths →
      named.path = named'.path → named.endOffset = named'.endOffset

variable {target : RetentionGcTarget} {span : ℕ} {listing : List ℕ} {store : PageStore}

theorem Spread.lt_endOffset (h : target.Spread span store) {pageId : ℕ} {page : ColdIndexPage}
    (hpage : store (target.pageKey pageId) = some page) {named : NamedPath}
    (hnamed : named ∈ page.paths) : pageId * span < named.endOffset := by
  rcases mem_append.mp hnamed with hmem | hmem
  · obtain ⟨chunk, hchunk, rfl⟩ := mem_map.mp hmem
    exact ((h.chunks pageId page chunk hpage hchunk pageId).mp ⟨page, hpage, hchunk⟩).2
  · obtain ⟨object, hobject, rfl⟩ := mem_map.mp hmem
    exact ((h.externals pageId page object hpage hobject pageId).mp ⟨page, hpage, hobject⟩).2

/-- A fold has a property when it had it before or one of its steps brings it. -/
theorem foldl_iff_or {σ ι : Type} (f : σ → ι → σ) (P : σ → Prop) {brings : ι → Prop}
    (h : ∀ s i, P (f s i) ↔ P s ∨ brings i) (s : σ) (l : List ι) :
    P (l.foldl f s) ↔ P s ∨ ∃ i ∈ l, brings i := by
  induction l generalizing s with
  | nil => simp
  | cons i l ih => rw [foldl_cons, ih, h, or_assoc, exists_mem_cons_iff]

/-- The page that the scan found under an id. -/
def Finds (target : RetentionGcTarget) (store : PageStore) (pageId : ℕ) (P : ColdIndexPage → Prop) :
    Prop :=
  ∃ page, store (target.pageKey pageId) = some page ∧ P page

/-- What the scan of a page adds. -/
theorem mem_scanPage (scan : CollectionScan) (pageId : ℕ) :
    (∀ key, key ∈ (target.scanPage span store scan pageId).deletablePages ↔
      key ∈ scan.deletablePages ∨
      key = target.pageKey pageId ∧ target.Finds store pageId (target.Deletable span pageId)) ∧
    (∀ path, path ∈ (target.scanPage span store scan pageId).doomed ↔ path ∈ scan.doomed ∨
      target.Finds store pageId fun page =>
        target.Deletable span pageId page ∧ path ∈ page.paths.map NamedPath.path) ∧
    (∀ path, path ∈ (target.scanPage span store scan pageId).kept ↔ path ∈ scan.kept ∨
      target.Finds store pageId fun page =>
        ¬ target.Deletable span pageId page ∧ path ∈ page.paths.map NamedPath.path) := by
  unfold scanPage Finds
  cases store (target.pageKey pageId) with
  | none => simp
  | some page => by_cases hdeletable : target.Deletable span pageId page <;> simp [hdeletable]

theorem mem_scannedPageIds {pageId : ℕ} :
    pageId ∈ target.scannedPageIds span listing ↔
      pageId ∈ listing ∧ satMul pageId span < target.collectBelow := by
  rw [scannedPageIds, mem_insertionSort, mem_filter, decide_eq_true_iff]

theorem page_mem_collectStream {key : ColdIndexPageKey} :
    .page key ∈ collectStream target span listing store ↔
      ∃ pageId ∈ target.scannedPageIds span listing, key = target.pageKey pageId ∧
        target.Finds store pageId (target.Deletable span pageId) := by
  have hscan := foldl_iff_or (target.scanPage span store) (key ∈ ·.deletablePages)
    (fun scan id => (mem_scanPage scan id).1 key) ⟨∅, target.keepPaths.toFinset, []⟩
    (target.scannedPageIds span listing)
  simpa [collectStream, scan] using hscan

theorem object_mem_collectStream {path : String} :
    .object path ∈ collectStream target span listing store ↔
      (∃ pageId ∈ target.scannedPageIds span listing, target.Finds store pageId fun page =>
        target.Deletable span pageId page ∧ path ∈ page.paths.map NamedPath.path) ∧
      path ∉ target.keepPaths ∧
      ¬ ∃ pageId ∈ target.scannedPageIds span listing, target.Finds store pageId fun page =>
        ¬ target.Deletable span pageId page ∧ path ∈ page.paths.map NamedPath.path := by
  have hdoomed := foldl_iff_or (target.scanPage span store) (path ∈ ·.doomed)
    (fun scan id => (mem_scanPage scan id).2.1 path) ⟨∅, target.keepPaths.toFinset, []⟩
    (target.scannedPageIds span listing)
  have hkept := foldl_iff_or (target.scanPage span store) (path ∈ ·.kept)
    (fun scan id => (mem_scanPage scan id).2.2 path) ⟨∅, target.keepPaths.toFinset, []⟩
    (target.scannedPageIds span listing)
  simp only [Finset.notMem_empty, false_or, mem_toFinset] at hdoomed hkept
  simp only [collectStream, scan, mem_append, mem_map, reduceCtorEq, and_false, exists_false,
    false_or, ColdDeletion.object.injEq, exists_eq_right, Finset.mem_ascending, Finset.mem_sdiff,
    hdoomed, hkept, not_or]

/-- The pages of a collection are deleted before its objects. -/
theorem page_mem_of_object_mem {done : List ColdDeletion}
    (hdone : done <+: collectStream target span listing store) {path : String}
    (hpath : .object path ∈ done) {key : ColdIndexPageKey}
    (hkey : .page key ∈ collectStream target span listing store) : .page key ∈ done := by
  have hpages : (target.scan span listing store).deletablePages.map ColdDeletion.page <+:
      collectStream target span listing store := prefix_append _ _
  rcases prefix_or_prefix_of_prefix hdone hpages with hshort | hlong
  · obtain ⟨_, -, hcontra⟩ := mem_map.mp (hshort.subset hpath)
    cases hcontra
  refine hlong.subset ?_
  rcases mem_append.mp hkey with hmem | hmem
  · exact hmem
  · obtain ⟨_, -, hcontra⟩ := mem_map.mp hmem
    cases hcontra

/-- A page that names an object with all its bytes below the offset is scanned. -/
theorem Spread.mem_scannedPageIds (h : target.Spread span store)
    (hlisted : ∀ pageId, (store (target.pageKey pageId)).isSome → pageId ∈ listing) {pageId : ℕ}
    {page : ColdIndexPage} (hpage : store (target.pageKey pageId) = some page) {named : NamedPath}
    (hnamed : named ∈ page.paths) (hbelow : named.endOffset ≤ target.collectBelow) :
    pageId ∈ target.scannedPageIds span listing := by
  have hstart := h.lt_endOffset hpage hnamed
  refine RetentionGcTarget.mem_scannedPageIds.mpr ⟨hlisted pageId (by rw [hpage]; rfl), ?_⟩
  exact Nat.lt_of_le_of_lt (min_le_left _ _) (Nat.lt_of_lt_of_le hstart hbelow)

end RetentionGcTarget

/-! ## How old a collected offset is -/

/-- A retained offset of an incarnation, and when it was seen. -/
structure Observation where
  key : IncarnationKey
  offset : ℕ
  atMs : ℕ

/-- A tracker after some calls, with the observations made and the latest clock reading. The clock
does not go back and stays below the largest 64-bit number. -/
inductive RetentionGcTracker.Reached (graceMs : ℕ) :
    RetentionGcTracker → List Observation → ℕ → Prop
  | new : Reached graceMs .new [] 0
  | observe {tracker seen clock} (h : Reached graceMs tracker seen clock)
      (input : ColdIndexRepairInput) (nowMs : ℕ) (hclock : clock ≤ nowMs)
      (hmax : nowMs < maxValue) : Reached graceMs (tracker.observe input nowMs graceMs).1
        (⟨input.key, input.retainedOffset, nowMs⟩ :: seen) nowMs
  | collected {tracker seen clock} (h : Reached graceMs tracker seen clock)
      (target : RetentionGcTarget) : Reached graceMs (tracker.collected target) seen clock

/-- The offset was seen, and its grace has elapsed. -/
def Aged (graceMs : ℕ) (seen : List Observation) (clock : ℕ) (key : IncarnationKey) (offset : ℕ) :
    Prop :=
  ∃ observation ∈ seen, observation.key = key ∧ observation.offset = offset ∧
    observation.atMs + graceMs ≤ clock

/-- What a mark stands for. -/
structure RetentionMark.Stands (mark : RetentionMark) (graceMs : ℕ) (seen : List Observation)
    (clock : ℕ) (key : IncarnationKey) : Prop where
  eligible : mark.eligible = 0 ∨ Aged graceMs seen clock key mark.eligible
  pending : ∀ offset atMs, mark.pending = some (offset, atMs) →
    ∃ observation ∈ seen, observation.key = key ∧ observation.offset = offset ∧
      observation.atMs = atMs

section

variable {graceMs clock nowMs : ℕ} {seen : List Observation} {key : IncarnationKey}
  {mark : RetentionMark} {tracker : RetentionGcTracker}

theorem RetentionMark.stands_default : RetentionMark.default.Stands graceMs seen clock key :=
  ⟨.inl rfl, fun _ _ h => by cases h⟩

/-- A mark goes on standing as more is seen and time passes. -/
theorem RetentionMark.Stands.mono (h : mark.Stands graceMs seen clock key) (hclock : clock ≤ nowMs)
    (observation : Observation) : mark.Stands graceMs (observation :: seen) nowMs key := by
  refine ⟨h.eligible.imp id ?_, fun offset atMs hpending => ?_⟩
  · rintro ⟨earlier, hmem, hkey, hoffset, haged⟩
    exact ⟨earlier, mem_cons_of_mem _ hmem, hkey, hoffset, haged.trans hclock⟩
  · obtain ⟨earlier, hmem, hfields⟩ := h.pending offset atMs hpending
    exact ⟨earlier, mem_cons_of_mem _ hmem, hfields⟩

theorem RetentionMark.Stands.promote (h : mark.Stands graceMs seen nowMs key)
    (hmax : nowMs < maxValue) : (mark.promote nowMs graceMs).Stands graceMs seen nowMs key := by
  unfold RetentionMark.promote
  cases hpending : mark.pending with
  | none => exact h
  | some pending =>
    obtain ⟨offset, atMs⟩ := pending
    simp only
    split_ifs with hdue
    · refine ⟨?_, fun _ _ h => by cases h⟩
      -- the clock is below the end of the range, so the sum did not saturate
      have haged : atMs + graceMs ≤ nowMs := by
        rwa [ge_iff_le, satAdd_eq_add (Nat.lt_of_le_of_lt hdue hmax)] at hdue
      obtain ⟨observation, hmem, hkey, hoffset, hat⟩ := h.pending offset atMs hpending
      rcases max_choice mark.eligible offset with heq | heq
      · rw [heq]
        exact h.eligible
      · rw [heq]
        exact .inr ⟨observation, hmem, hkey, hoffset, hat ▸ haged⟩
    · exact h

theorem RetentionMark.Stands.observe (h : mark.Stands graceMs seen nowMs key)
    (hmax : nowMs < maxValue) {retainedOffset : ℕ} (hseen : ⟨key, retainedOffset, nowMs⟩ ∈ seen) :
    (mark.observe retainedOffset nowMs graceMs).Stands graceMs seen nowMs key := by
  unfold RetentionMark.observe
  have hstart : (if retainedOffset < mark.eligible then default else mark).Stands graceMs seen nowMs
      key := by
    split_ifs
    · exact stands_default
    · exact h
  have hpromoted := hstart.promote hmax
  simp only
  generalize (if retainedOffset < mark.eligible then default else mark).promote nowMs graceMs =
    promoted at hpromoted ⊢
  split_ifs
  · refine ⟨hpromoted.eligible, fun offset atMs hpending => ?_⟩
    cases hpending
    exact ⟨_, hseen, rfl, rfl, rfl⟩
  · exact hpromoted

/-- The mark that an observation leaves. -/
theorem RetentionMark.Stands.observed (input : ColdIndexRepairInput)
    (h : ∀ mark, tracker.marks input.key = some mark → mark.Stands graceMs seen clock input.key)
    (hclock : clock ≤ nowMs) (hmax : nowMs < maxValue) :
    (((tracker.marks input.key).getD .default).observe input.retainedOffset nowMs graceMs).Stands
      graceMs (⟨input.key, input.retainedOffset, nowMs⟩ :: seen) nowMs input.key := by
  refine RetentionMark.Stands.observe ?_ hmax mem_cons_self
  cases hmark : tracker.marks input.key with
  | none => exact stands_default
  | some mark => exact (h mark hmark).mono hclock _

/-- Every mark of a tracker stands for what was seen. -/
theorem RetentionGcTracker.Reached.stands (h : tracker.Reached graceMs seen clock)
    (hmark : tracker.marks key = some mark) : mark.Stands graceMs seen clock key := by
  induction h generalizing key mark with
  | new => cases hmark
  | observe _ input nowMs hclock hmax ih =>
    unfold RetentionGcTracker.observe at hmark
    split_ifs at hmark with hzero
    · exact (ih hmark).mono hclock _
    by_cases hkey : key = input.key
    · subst hkey
      simp only [Function.update_self, Option.some.injEq] at hmark
      subst hmark
      exact .observed input (fun _ => ih) hclock hmax
    · simp only [Function.update_of_ne hkey] at hmark
      exact (ih hmark).mono hclock _
  | collected _ target ih =>
    unfold RetentionGcTracker.collected at hmark
    split at hmark
    · exact ih hmark
    rename_i earlier hearlier
    by_cases hkey : key = target.key
    · subst hkey
      simp only [Function.update_self, Option.some.injEq] at hmark
      subst hmark
      exact ⟨(ih hearlier).eligible, (ih hearlier).pending⟩
    · simp only [Function.update_of_ne hkey] at hmark
      exact ih hmark

/-- An offset that is due was seen a grace ago. -/
theorem RetentionGcTracker.Reached.aged (h : tracker.Reached graceMs seen clock)
    {input : ColdIndexRepairInput} (hclock : clock ≤ nowMs) (hmax : nowMs < maxValue)
    {target : RetentionGcTarget} (hdue : (tracker.observe input nowMs graceMs).2 = some target) :
    target.key = input.key ∧ Aged graceMs (⟨input.key, input.retainedOffset, nowMs⟩ :: seen) nowMs
      input.key target.collectBelow := by
  unfold RetentionGcTracker.observe at hdue
  split_ifs at hdue with hzero
  simp only [Option.ite_none_right_eq_some, Option.some.injEq] at hdue
  obtain ⟨hbehind, rfl⟩ := hdue
  have hstands := RetentionMark.Stands.observed input (fun _ => h.stands) hclock hmax
  exact ⟨rfl, hstands.eligible.resolve_left (Nat.ne_of_gt (Nat.zero_lt_of_lt hbehind))⟩

end

/-- **Retention collects only what is dead.** Over pages in which every entry is in each page that
its range meets and in no other, and the entries of one object end at one offset, whatever a
collection got to delete before it ended: a page lies wholly below the offset with all its entries,
so the page that the offset is in stays; an object is not to be kept, no page that is left names
it, and all its entries end at or below the offset. An offset that the tracker hands out was seen by
it a grace period before. -/
theorem retention_gc_safe :
    (∀ (target : RetentionGcTarget) (span : ℕ) (listing : List ℕ) (store : PageStore)
        (done : List ColdDeletion), target.Spread span store → target.OneRange store →
      (∀ pageId, (store (target.pageKey pageId)).isSome → pageId ∈ listing) →
      done <+: collectStream target span listing store →
        (∀ key, .page key ∈ done → ∃ pageId page, key = target.pageKey pageId ∧
          store key = some page ∧ satMul (satAdd pageId 1) span ≤ target.collectBelow ∧
          ∀ named ∈ page.paths, named.endOffset ≤ target.collectBelow) ∧
        (∀ pageId, target.collectBelow < satMul (satAdd pageId 1) span →
          .page (target.pageKey pageId) ∉ done) ∧
        (∀ path, .object path ∈ done → path ∉ target.keepPaths ∧
          ∀ pageId page, store (target.pageKey pageId) = some page →
            ∀ named ∈ page.paths, named.path = path →
              .page (target.pageKey pageId) ∈ done ∧ named.endOffset ≤ target.collectBelow)) ∧
    (∀ (graceMs : ℕ) (tracker : RetentionGcTracker) (seen : List Observation) (clock : ℕ)
        (input : ColdIndexRepairInput) (nowMs : ℕ) (target : RetentionGcTarget),
      tracker.Reached graceMs seen clock → clock ≤ nowMs → nowMs < maxValue →
      (tracker.observe input nowMs graceMs).2 = some target →
        target.key = input.key ∧ Aged graceMs
          (⟨input.key, input.retainedOffset, nowMs⟩ :: seen) nowMs
          input.key target.collectBelow) := by
  refine ⟨?_, fun _ _ _ _ _ _ _ h hclock hmax hdue => h.aged hclock hmax hdue⟩
  intro target span listing store done hspread hrange hlisted hdone
  refine ⟨?_, ?_, ?_⟩
  · intro key hkey
    obtain ⟨pageId, -, rfl, page, hpage, hspan, hbelow⟩ :=
      RetentionGcTarget.page_mem_collectStream.mp (hdone.subset hkey)
    exact ⟨pageId, page, rfl, hpage, hspan, fun named hnamed => (hbelow named hnamed).2⟩
  · intro pageId habove hkey
    obtain ⟨_, -, hsame, _, -, hspan, -⟩ :=
      RetentionGcTarget.page_mem_collectStream.mp (hdone.subset hkey)
    obtain rfl := (ColdIndexPageKey.mk.inj hsame).2.2
    exact absurd hspan (Nat.not_le.mpr habove)
  · intro path hpath
    obtain ⟨⟨doomedId, hscanned, doomed, hdoomed, hdeletable, hnames⟩, hkeep, hkept⟩ :=
      RetentionGcTarget.object_mem_collectStream.mp (hdone.subset hpath)
    refine ⟨hkeep, ?_⟩
    rintro pageId page hpage named hnamed rfl
    obtain ⟨other, hother, hsame⟩ := mem_map.mp hnames
    have hbelow : named.endOffset ≤ target.collectBelow := by
      rw [hrange pageId page named doomedId doomed other hpage hdoomed hnamed hother hsame.symm]
      exact (hdeletable.2 other hother).2
    -- the page is scanned; it was kept otherwise, and so would the object be
    have hpageScanned := hspread.mem_scannedPageIds hlisted hpage hnamed hbelow
    by_cases hpageDeletable : target.Deletable span pageId page
    · exact ⟨RetentionGcTarget.page_mem_of_object_mem hdone hpath
        (RetentionGcTarget.page_mem_collectStream.mpr
          ⟨pageId, hpageScanned, rfl, page, hpage, hpageDeletable⟩), hbelow⟩
    · exact absurd ⟨pageId, hpageScanned, page, hpage, hpageDeletable, mem_map_of_mem hnamed⟩ hkept

/-- A page below the offset goes, with its object. -/
theorem retention_gc_sample :
    let target : RetentionGcTarget := ⟨⟨"bkt1", "s"⟩, 0, 1, 8, []⟩
    let chunk : ColdChunkRef := ⟨0, 4, "bkt1/a", 4, 0, false, ""⟩
    let page : ColdIndexPage := ⟨0, 8, [chunk], []⟩
    let store : PageStore := fun key => if key = target.pageKey 0 then some page else none
    ColdDeletion.object "bkt1/a" ∈ collectStream target 8 [0] store ∧
      ColdDeletion.page (target.pageKey 0) ∈ collectStream target 8 [0] store := by
  intro target chunk page store
  have hpage : store (target.pageKey 0) = some page := if_pos rfl
  have honly : ∀ {pageId found}, store (target.pageKey pageId) = some found → pageId = 0 ∧
      found = page := by
    intro pageId found hfound
    by_cases hkey : target.pageKey pageId = target.pageKey 0
    · rw [hkey, hpage] at hfound
      exact ⟨(ColdIndexPageKey.mk.inj hkey).2.2, (Option.some.inj hfound).symm⟩
    · rw [show store (target.pageKey pageId) = none from if_neg hkey] at hfound
      cases hfound
  have hspread : target.Spread 8 store := by
    constructor
    · intro pageId found other hfound hother pageId'
      obtain ⟨rfl, rfl⟩ := honly hfound
      obtain rfl := mem_singleton.mp hother
      refine ⟨?_, fun hmeets => ⟨page, ?_, hother⟩⟩
      · rintro ⟨found', hfound', -⟩
        obtain ⟨rfl, -⟩ := honly hfound'
        decide
      · obtain rfl : pageId' = 0 := by
          have hlow : pageId' * 8 < 4 := hmeets.2
          omega
        exact hpage
    · intro pageId found object hfound hobject
      obtain ⟨rfl, rfl⟩ := honly hfound
      cases hobject
  have hrange : target.OneRange store := by
    intro pageId found named pageId' found' named' hfound hfound' hnamed hnamed' _
    obtain ⟨rfl, rfl⟩ := honly hfound
    obtain ⟨rfl, rfl⟩ := honly hfound'
    obtain rfl := mem_singleton.mp hnamed
    obtain rfl := mem_singleton.mp hnamed'
    rfl
  have hobject : ColdDeletion.object "bkt1/a" ∈ collectStream target 8
      [0] store := by decide +kernel
  have hsafe := retention_gc_safe.1 target 8 [0] store
      (collectStream target 8 [0] store) hspread hrange
    (fun pageId hsome => by
      obtain ⟨found, hfound⟩ := Option.isSome_iff_exists.mp hsome
      exact mem_singleton.mpr (honly hfound).1) (prefix_refl _)
  have hnamed : NamedPath.mk "bkt1/a" 4 false ∈ page.paths := mem_singleton.mpr rfl
  exact ⟨hobject, ((hsafe.2.2 _ hobject).2 0 page hpage _ hnamed rfl).1⟩

/-- An object that entries of two ranges name, one of them in a page that starts above the offset:
the object is deleted with the page below, and the page above still names it. -/
theorem shared_path_collected :
    let span := coldIndexPageSpanBytes
    let target : RetentionGcTarget := ⟨⟨"bkt1", "s"⟩, 0, 1, span, []⟩
    let low : ColdIndexPage := ⟨0, span, [⟨0, 4, "bkt1/a", 4, 0, false, ""⟩], []⟩
    let high : ColdIndexPage := ⟨span, 2 * span, [⟨span, span + 4, "bkt1/a", 4, 0, false, ""⟩], []⟩
    let store : PageStore := fun key =>
      if key = target.pageKey 0 then some low
      else if key = target.pageKey 1 then some high else none
    ColdDeletion.object "bkt1/a" ∈ collectStream target span [0, 1] store ∧
      ColdDeletion.page (target.pageKey 1) ∉ collectStream target span [0, 1] store := by
  decide +kernel

end Ursula.Runtime

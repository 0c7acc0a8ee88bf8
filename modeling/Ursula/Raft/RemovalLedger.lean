import Mathlib.Algebra.Order.BigOperators.Group.List
import Mathlib.Data.List.MinMax
import Mathlib.Order.WithBot
import Ursula.Lib.Transition
import Ursula.Lib.Word64

/-!
# The ledger of removed streams

A replica that removed streams owes a snapshot without them, and then a purge of its log through
that snapshot. The ledger keeps two counters, one time and one watermark for any number of removals,
marks in flight and snapshots recorded in any order. Here it is run beside the history it
compresses: every removal with its index, its bytes and its time, and every mark with what was
applied when it was taken.

## Main definitions

* `GroupLogGauge`: the counters of a group's log, with the `RemovalLedger`
* `Replica`, `gaugeSystem`: a gauge and its history, under removals, marks, snapshots and purges

## Main results

* `Replica.Sound.act`: every event keeps the ledger in line with the history
* `removal_ledger_keeps_removals`: the debt is clear only when every removal is covered and purged
* `saturated_ledger_forgets_bytes`: past 64 bits the bytes of a removal are not counted
-/

namespace Ursula.Raft

open Word64 List

/-! ## The gauge -/

/-- Whether a replica owes a snapshot that drops removed streams. -/
inductive RemovalDebt
  | clear
  /-- A removal that no snapshot covers. -/
  | owed (since : ℕ)
  /-- Such a removal, applied again at startup. -/
  | replayed (since : ℕ)
  /-- Every removal is covered, and the log is to be purged. -/
  | purging (since through : ℕ)
  deriving DecidableEq

/-- Since when a debt is owed. -/
def RemovalDebt.since : RemovalDebt → Option ℕ
  | clear => none
  | owed since | replayed since | purging since _ => some since

/-- The counters of removed streams and the debt they leave. -/
structure RemovalLedger where
  removals : ℕ
  removedBytes : ℕ
  coveredRemovals : ℕ
  coveredBytes : ℕ
  debt : RemovalDebt
  purgeThrough : ℕ
  /-- `removals` at the latest mark, and when the first removal after it applied. -/
  markedRemovals : ℕ
  firstAfterMark : Option ℕ

/-- What a snapshot's build marks of the counters. -/
structure GroupLogMark where
  bytes : ℕ
  entries : ℕ
  removals : ℕ
  removedBytes : ℕ
  deriving DecidableEq

/-- The counters of a group's log. -/
structure GroupLogGauge where
  appliedBytes : ℕ
  appliedEntries : ℕ
  snapshotBytesMark : ℕ
  snapshotEntriesMark : ℕ
  lastSnapshotBytes : ℕ
  hasSnapshot : Bool
  removals : RemovalLedger

/-- The debt as it is reported, with ages in milliseconds. -/
inductive RemovalProgress
  | clear
  | owed (bytes ageMs : ℕ)
  | replayed (bytes ageMs : ℕ)
  | purging (ageMs through : ℕ)

/-- The bytes of the uncovered removals. -/
def RemovalProgress.bytes : RemovalProgress → ℕ
  | clear | purging _ _ => 0
  | owed bytes _ | replayed bytes _ => bytes

/-- What a gauge reports. -/
structure GroupLogProgress where
  logBytes : ℕ
  logEntries : ℕ
  lastSnapshotBytes : ℕ
  hasSnapshot : Bool
  removal : RemovalProgress
  scrubPurgeThrough : ℕ

namespace GroupLogGauge

variable (gauge : GroupLogGauge)

/-- Counts an applied entry. The counters wrap around. -/
def recordApplied (bytes : ℕ) : GroupLogGauge :=
  { gauge with
    appliedBytes := (gauge.appliedBytes + bytes) % 2 ^ 64
    appliedEntries := (gauge.appliedEntries + 1) % 2 ^ 64 }

/-- Counts an applied entry that removed streams. -/
def recordRemoval (bytes now : ℕ) : GroupLogGauge :=
  let ledger := gauge.removals
  { gauge with
    removals :=
      { ledger with
        firstAfterMark :=
          if ledger.removals = ledger.markedRemovals ∧ ledger.firstAfterMark = none then some now
          else ledger.firstAfterMark
        removals := satAdd ledger.removals 1
        removedBytes := satAdd ledger.removedBytes bytes
        debt :=
          match ledger.debt with
          | .clear => .owed now
          | .purging since _ => .owed since
          | .owed since => .owed since
          | .replayed since => .replayed since } }

/-- Records through which index the log is purged. -/
def observePurged (purged : WithBot ℕ) : GroupLogGauge :=
  match gauge.removals.debt with
  | .purging _ through => if through ≤ purged then { gauge with removals.debt := .clear } else gauge
  | _ => gauge

/-- What a snapshot of the state applied so far covers. -/
def mark : GroupLogMark × GroupLogGauge :=
  let ledger := gauge.removals
  (⟨gauge.appliedBytes, gauge.appliedEntries, ledger.removals, ledger.removedBytes⟩,
    if ledger.markedRemovals ≠ ledger.removals then
      { gauge with removals.markedRemovals := ledger.removals, removals.firstAfterMark := none }
    else gauge)

/-- Records a snapshot that covers `mark` and whose last log index is `index`. -/
def recordSnapshot (mark : GroupLogMark) (snapshotBytes index now : ℕ) : GroupLogGauge :=
  let ledger := gauge.removals
  let coversNew := mark.removals > ledger.coveredRemovals
  let covered := max ledger.coveredRemovals mark.removals
  let purgeThrough := if coversNew then max ledger.purgeThrough index else ledger.purgeThrough
  { gauge with
    snapshotBytesMark := max gauge.snapshotBytesMark mark.bytes
    snapshotEntriesMark := max gauge.snapshotEntriesMark mark.entries
    lastSnapshotBytes := snapshotBytes
    hasSnapshot := true
    removals :=
      { ledger with
        coveredRemovals := covered
        coveredBytes := max ledger.coveredBytes mark.removedBytes
        purgeThrough := purgeThrough
        debt :=
          if ledger.removals ≤ covered then
            match ledger.debt.since with
            | some since => .purging since purgeThrough
            | none => ledger.debt
          else if coversNew then
            .owed ((if ledger.markedRemovals = mark.removals then ledger.firstAfterMark
              else none).getD now)
          else ledger.debt } }

/-- The report at a time in nanoseconds. -/
def progress (now : ℕ) : GroupLogProgress :=
  let ledger := gauge.removals
  let owedBytes := ledger.removedBytes - ledger.coveredBytes
  let ageMs since := min ((now - since) / 1000000) maxValue
  { logBytes := gauge.appliedBytes - gauge.snapshotBytesMark
    logEntries := gauge.appliedEntries - gauge.snapshotEntriesMark
    lastSnapshotBytes := gauge.lastSnapshotBytes
    hasSnapshot := gauge.hasSnapshot
    removal :=
      match ledger.debt with
      | .clear => .clear
      | .owed since => .owed owedBytes (ageMs since)
      | .replayed since => .replayed owedBytes (ageMs since)
      | .purging since through => .purging (ageMs since) through
    scrubPurgeThrough := ledger.purgeThrough }

end GroupLogGauge

open GroupLogGauge

/-! ## The gauge and its history -/

/-- A removal: its log index, the bytes it held in a snapshot and when it applied. -/
structure Removal where
  index : ℕ
  bytes : ℕ
  time : ℕ

/-- A mark, with the last index and the number of removals applied when it was taken. -/
structure Marked where
  mark : GroupLogMark
  index : ℕ
  taken : ℕ
  deriving DecidableEq

/-- A replica's gauge, and what happened to it. -/
structure Replica where
  gauge : GroupLogGauge
  clock : ℕ
  /-- The index of the last entry applied. -/
  applied : ℕ
  history : List Removal
  marks : List Marked
  /-- The snapshots recorded, by their marks. -/
  recorded : List Marked
  purged : WithBot ℕ
  /-- Whether each mark was recorded before the next one was taken. -/
  prompt : Bool

/-- What happens to a replica's gauge. -/
inductive GaugeEvent
  | tick (elapsed : ℕ)
  | apply (index bytes : ℕ)
  | removal (index bytes : ℕ)
  | mark
  | record (marked : Marked) (snapshotBytes : ℕ)
  | purge (purged : WithBot ℕ)

namespace Replica

/-- A replica before its first entry. -/
def start : Replica where
  gauge := ⟨0, 0, 0, 0, 0, false, ⟨0, 0, 0, 0, .clear, 0, 0, none⟩⟩
  clock := 0
  applied := 0
  history := []
  marks := []
  recorded := []
  purged := ⊥
  prompt := true

variable (state : Replica)

/-- The replica's ledger. -/
abbrev ledger : RemovalLedger := state.gauge.removals

/-- How many removals the recorded snapshots cover: those applied before one of their marks. -/
def covered : ℕ := (state.recorded.map Marked.taken).foldr max 0

/-- The removals that no recorded snapshot covers. -/
def uncovered : List Removal := state.history.drop state.covered

/-- The highest index of a recorded snapshot. -/
def highest : ℕ := (state.recorded.map Marked.index).foldr max 0

/-- When an event may happen. -/
def Enabled : GaugeEvent → Prop
  | .tick _ | .mark => True
  | .apply index _ | .removal index _ => state.applied ≤ index
  | .record marked _ => marked ∈ state.marks
  | .purge purged => state.purged ≤ purged

/-- What an event does. -/
def act : GaugeEvent → Replica
  | .tick elapsed => { state with clock := state.clock + elapsed }
  | .apply index bytes =>
    { state with gauge := state.gauge.recordApplied bytes, applied := index }
  | .removal index bytes =>
    { state with
      gauge := state.gauge.recordRemoval bytes state.clock
      applied := index
      history := state.history ++ [⟨index, bytes, state.clock⟩] }
  | .mark =>
    { state with
      gauge := state.gauge.mark.2
      marks := ⟨state.gauge.mark.1, state.applied, state.history.length⟩ :: state.marks
      prompt := state.prompt && decide (∀ marked ∈ state.marks, marked ∈ state.recorded) }
  | .record marked snapshotBytes =>
    { state with
      gauge := state.gauge.recordSnapshot marked.mark snapshotBytes marked.index state.clock
      recorded := marked :: state.recorded }
  | .purge purged => { state with gauge := state.gauge.observePurged purged, purged := purged }

end Replica

/-- Removals, marks, snapshots of any mark taken before and purges, in any order. -/
def gaugeSystem : ActionSystem Replica GaugeEvent where
  Enabled := Replica.Enabled
  act := Replica.act

/-! ## What every event keeps -/

/-- The bytes of the first removals of a history, as a counter that saturates has them. -/
def countedBytes (history : List Removal) (count : ℕ) : ℕ :=
  min ((history.take count).map Removal.bytes).sum maxValue

theorem countedBytes_mono (history : List Removal) : Monotone (countedBytes history) := by
  intro count count' hle
  refine min_le_min_right _ (List.Sublist.sum_le_sum ?_ fun _ _ => Nat.zero_le _)
  exact (take_sublist_take_left hle).map _

/-- The counters of the first `count` removals, all applied by `index`. -/
structure Counts (history : List Removal) (count removals bytes index : ℕ) : Prop where
  le : count ≤ history.length
  removals : removals = count
  bytes : bytes = countedBytes history count
  index : ∀ removal ∈ history.take count, removal.index ≤ index

namespace Counts

variable {history : List Removal} {count removals bytes index : ℕ}

theorem append (h : Counts history count removals bytes index) (removal : Removal) :
    Counts (history ++ [removal]) count removals bytes index := by
  have htake : (history ++ [removal]).take count = history.take count :=
    take_append_of_le_length h.le
  refine ⟨h.le.trans (by simp), h.removals, ?_, ?_⟩
  · rw [h.bytes, countedBytes, countedBytes, htake]
  · rw [htake]
    exact h.index

/-- Of two counters, the one of more removals. -/
theorem max {count' removals' bytes' index' : ℕ} (h : Counts history count removals bytes index)
    (h' : Counts history count' removals' bytes' index') :
    Counts history (max count' count) (max removals removals') (max bytes bytes')
      (if removals' > removals then max index index' else index) := by
  obtain ⟨hle, rfl, rfl, hindex⟩ := h
  obtain ⟨hle', rfl, rfl, hindex'⟩ := h'
  refine ⟨max_le hle' hle, max_comm _ _, ?_, ?_⟩
  · rw [(countedBytes_mono _).map_max, max_comm]
  · split_ifs with hnew
    · rw [max_eq_left hnew.le]
      exact fun removal hremoval => (hindex' removal hremoval).trans (le_max_right _ _)
    · rw [max_eq_right (not_lt.mp hnew)]
      exact hindex

end Counts

theorem mem_since_recordRemoval {gauge : GroupLogGauge} {bytes now since : ℕ}
    (h : since ∈ (gauge.recordRemoval bytes now).removals.debt.since) :
    since ∈ gauge.removals.debt.since ∨ gauge.removals.debt = .clear ∧ since = now := by
  simp only [recordRemoval] at h
  cases hdebt : gauge.removals.debt with
  | clear =>
    rw [hdebt] at h
    exact .inr ⟨rfl, (Option.mem_some.mp h).symm⟩
  | _ =>
    rw [hdebt] at h
    exact .inl h

theorem observePurged_cases (gauge : GroupLogGauge) (purged : WithBot ℕ) :
    gauge.observePurged purged = gauge ∨
      ∃ since through, gauge.removals.debt = .purging since through ∧ through ≤ purged ∧
        gauge.observePurged purged = { gauge with removals.debt := .clear } := by
  unfold observePurged
  split
  case h_1 since through hdebt =>
    split_ifs with hthrough
    · exact .inr ⟨since, through, hdebt, hthrough, rfl⟩
    · exact .inl rfl
  case h_2 => exact .inl rfl

namespace Replica

variable {state : Replica} {event : GaugeEvent}

/-- What a debt says of the history. -/
def Owes (state : Replica) : RemovalDebt → Prop
  | .clear => state.history.length ≤ state.covered ∧
      ∀ removal ∈ state.history, (removal.index : WithBot ℕ) ≤ state.purged
  | .owed _ | .replayed _ => state.covered < state.history.length
  | .purging _ through => state.history.length ≤ state.covered ∧
      ∀ removal ∈ state.history, removal.index ≤ through

/-- The ledger is in line with the history. -/
structure Sound (state : Replica) : Prop where
  now : Counts state.history state.history.length state.ledger.removals state.ledger.removedBytes
    state.applied
  covered : Counts state.history state.covered state.ledger.coveredRemovals
    state.ledger.coveredBytes state.ledger.purgeThrough
  marks : ∀ marked ∈ state.marks, Counts state.history marked.taken marked.mark.removals
    marked.mark.removedBytes marked.index
  highest : state.ledger.purgeThrough ≤ state.highest
  debt : state.Owes state.ledger.debt
  sorted : state.history.Pairwise fun a b => a.time ≤ b.time
  clock : ∀ removal ∈ state.history, removal.time ≤ state.clock
  marked : state.ledger.markedRemovals ≤ state.history.length
  first : state.ledger.firstAfterMark = state.history[state.ledger.markedRemovals]?.map Removal.time
  /-- The mark in flight is the latest one, and the debt is as old as what is not covered. -/
  prompt : state.prompt = true →
    (∀ marked ∈ state.marks, marked ∈ state.recorded ∨ marked.taken = state.ledger.markedRemovals) ∧
    ∀ since ∈ state.ledger.debt.since, since ≤ state.clock ∧
      ∀ removal ∈ state.uncovered, since ≤ removal.time

theorem Sound.removal (h : state.Sound) {index bytes : ℕ} (hindex : state.applied ≤ index)
    (hcount : state.history.length + 1 ≤ maxValue) : (state.act (.removal index bytes)).Sound where
  now := by
    have hnow := h.now
    refine ⟨le_rfl, ?_, ?_, ?_⟩
    · simp only [act, recordRemoval, hnow.removals, length_append]
      exact satAdd_eq_add_of_le hcount
    · simp only [act, recordRemoval, hnow.bytes, countedBytes, take_length, satAdd,
        map_append, sum_append, map_singleton, sum_singleton]
      omega
    · simp only [act, take_length, forall_mem_append, forall_mem_singleton]
      exact ⟨fun removal hremoval => (hnow.index removal (by simpa using hremoval)).trans hindex,
        le_rfl⟩
  covered := h.covered.append _
  marks marked hmarked := (h.marks marked hmarked).append _
  highest := h.highest
  debt := by
    have howes : state.covered < (state.act (.removal index bytes)).history.length := by
      simpa [act] using Nat.lt_succ_of_le h.covered.le
    simp only [act, recordRemoval]
    cases state.gauge.removals.debt <;> exact howes
  sorted := pairwise_append.mpr ⟨h.sorted, pairwise_singleton _ _, by simpa using h.clock⟩
  clock := by
    simp only [act, forall_mem_append, forall_mem_singleton, le_refl, and_true]
    exact h.clock
  marked := by
    simp only [act, length_append]
    exact h.marked.trans (Nat.le_add_right _ _)
  first := by
    simp only [act, recordRemoval, h.now.removals, h.first]
    rcases h.marked.eq_or_lt with hmarked | hmarked
    · simp [hmarked]
    · simp [hmarked.ne', getElem?_append_left hmarked]
  prompt hprompt := by
    obtain ⟨hlatest, hold⟩ := h.prompt hprompt
    refine ⟨hlatest, fun since hsince => ?_⟩
    have hdrop : (state.act (.removal index bytes)).uncovered =
        state.uncovered ++ [⟨index, bytes, state.clock⟩] := drop_append_of_le_length h.covered.le
    rw [hdrop, forall_mem_append, forall_mem_singleton]
    rcases mem_since_recordRemoval hsince with hsince | ⟨hclear, rfl⟩
    · exact ⟨(hold since hsince).1, (hold since hsince).2, (hold since hsince).1⟩
    -- A clear debt leaves no removal uncovered.
    have hnone : state.uncovered = [] := drop_eq_nil_of_le (hclear ▸ h.debt).1
    rw [hnone]
    exact ⟨le_rfl, forall_mem_nil _, le_rfl⟩

theorem Sound.mark_eq (h : state.Sound) : state.gauge.mark.2 = { state.gauge with
      removals.markedRemovals := state.history.length
      removals.firstAfterMark := none } := by
  simp only [mark]
  split
  · rw [h.now.removals]
  case isFalse hsame =>
    have hmarked := (not_ne_iff.mp hsame).trans h.now.removals
    have hfirst := h.first
    rw [hmarked, getElem?_eq_none le_rfl] at hfirst
    simp only [← hmarked, ← Option.map_none (f := Removal.time), ← hfirst]

theorem Sound.mark (h : state.Sound) : (state.act .mark).Sound := by
  simp only [act, h.mark_eq]
  refine { h with
      marks := forall_mem_cons.mpr ⟨h.now, h.marks⟩
      marked := le_rfl
      first := by simp
      prompt := fun hprompt => ?_ }
  obtain ⟨hprompt, hall⟩ := (Bool.and_eq_true_iff ..).mp hprompt
  refine ⟨forall_mem_cons.mpr ⟨.inr rfl, fun marked hmarked => .inl ?_⟩, (h.prompt hprompt).2⟩
  exact of_decide_eq_true hall marked hmarked

section Record

variable (h : state.Sound) {marked : Marked} (hmarked : marked ∈ state.marks) (snapshotBytes : ℕ)
include h hmarked

theorem covered_record :
    let after := state.act (.record marked snapshotBytes)
    Counts after.history after.covered after.ledger.coveredRemovals after.ledger.coveredBytes
      after.ledger.purgeThrough :=
  h.covered.max (h.marks marked hmarked)

/-- The debt after a snapshot: its time stays, or becomes that of the first removal after the
mark. -/
theorem debt_record :
    let after := state.act (.record marked snapshotBytes)
    after.Owes after.ledger.debt ∧ ∀ since ∈ after.ledger.debt.since,
      since ∈ state.ledger.debt.since ∨
        state.covered < marked.taken ∧ marked.taken < state.history.length ∧
        since = (if state.ledger.markedRemovals = marked.taken then state.ledger.firstAfterMark
          else none).getD state.clock := by
  intro after
  have hdebt := h.debt
  generalize hafter : after.ledger.debt = debt
  simp only [after, act, recordSnapshot, h.now.removals, h.covered.removals,
    (h.marks marked hmarked).removals] at hafter
  by_cases hall : state.history.length ≤ max marked.taken state.covered
  · rw [if_pos (max_comm marked.taken _ ▸ hall)] at hafter
    cases hkind : state.gauge.removals.debt with
    | clear =>
      rw [hkind] at hafter hdebt
      exact hafter ▸ ⟨⟨hall, hdebt.2⟩, nofun⟩
    | _ =>
      rw [hkind] at hafter
      subst hafter
      refine ⟨⟨hall, fun removal hremoval => ?_⟩, fun _ => .inl⟩
      rw [← h.covered.removals, ← (h.marks marked hmarked).removals]
      refine (covered_record h hmarked snapshotBytes).index removal ?_
      show removal ∈ state.history.take (max marked.taken state.covered)
      rwa [take_of_length_le hall]
  · rw [if_neg (max_comm marked.taken _ ▸ hall)] at hafter
    have howes : after.covered < after.history.length := not_le.mp hall
    by_cases hnew : marked.taken > state.covered
    · rw [if_pos hnew] at hafter
      subst hafter
      exact ⟨howes, fun since hsince => .inr ⟨hnew, (le_max_left _ _).trans_lt howes,
        (Option.mem_some.mp hsince).symm⟩⟩
    · rw [if_neg hnew] at hafter
      subst hafter
      refine ⟨?_, fun _ => .inl⟩
      -- The debt is owed before, as some removal is not covered.
      cases hkind : state.gauge.removals.debt with
      | clear | purging since through =>
        rw [ledger, hkind] at hdebt
        exact absurd (hdebt.1.trans (le_max_right _ _)) hall
      | _ => exact howes

theorem Sound.record : (state.act (.record marked snapshotBytes)).Sound := by
  obtain ⟨howes, hsince⟩ := debt_record h hmarked snapshotBytes
  refine { h with
      covered := covered_record h hmarked snapshotBytes
      highest := ?_
      debt := howes
      prompt := fun hprompt => ?_ }
  · have hhighest : state.gauge.removals.purgeThrough ≤ state.highest := h.highest
    simp only [act, recordSnapshot]
    show _ ≤ max marked.index state.highest
    split_ifs <;> omega
  · obtain ⟨hlatest, hold⟩ := h.prompt hprompt
    refine ⟨fun other hother => (hlatest other hother).imp_left (mem_cons_of_mem _),
      fun since hin => ?_⟩
    rcases hsince since hin with hin | ⟨hnew, hlast, rfl⟩
    · exact ⟨(hold since hin).1, fun removal hremoval => (hold since hin).2 removal
        (drop_subset_drop_left _ (le_max_right _ _) hremoval)⟩
    -- A mark that covers more than those recorded is the latest one.
    have hmark : marked.taken = state.ledger.markedRemovals :=
      (hlatest marked hmarked).resolve_left fun hrecorded => hnew.not_ge
        (le_max_of_le (mem_map_of_mem hrecorded) le_rfl)
    rw [if_pos hmark.symm, h.first, ← hmark, getElem?_eq_getElem hlast]
    refine ⟨h.clock _ (getElem_mem hlast), fun removal hremoval => ?_⟩
    have hsorted := h.sorted.drop (i := marked.taken)
    replace hremoval : removal ∈ state.history.drop (max marked.taken state.covered) := hremoval
    rw [max_eq_left hnew.le, drop_eq_getElem_cons hlast, mem_cons] at hremoval
    rw [drop_eq_getElem_cons hlast, pairwise_cons] at hsorted
    rcases hremoval with rfl | hremoval
    · exact le_rfl
    · exact hsorted.1 removal hremoval

end Record

theorem Sound.purge (h : state.Sound) {purged : WithBot ℕ} (hpurged : state.purged ≤ purged) :
    (state.act (.purge purged)).Sound := by
  have hdebt := h.debt
  simp only [act]
  rcases observePurged_cases state.gauge purged with
    hsame | ⟨since, through, hkind, hthrough, hclear⟩
  · rw [hsame]
    refine { h with debt := ?_ }
    cases hkind : state.gauge.removals.debt with
    | clear =>
      rw [ledger, hkind] at hdebt
      exact ⟨hdebt.1, fun removal hremoval => (hdebt.2 removal hremoval).trans hpurged⟩
    | _ =>
      rw [ledger, hkind] at hdebt
      exact hdebt
  · rw [ledger, hkind] at hdebt
    rw [hclear]
    exact { h with
        debt := ⟨hdebt.1, fun removal hremoval =>
          (WithBot.coe_le_coe.mpr (hdebt.2 removal hremoval)).trans hthrough⟩
        prompt := fun hprompt => ⟨(h.prompt hprompt).1, nofun⟩ }

/-- Every event keeps the ledger in line with the history. -/
theorem Sound.act (h : state.Sound) (henabled : state.Enabled event)
    (hcount : (state.act event).history.length ≤ maxValue) : (state.act event).Sound := by
  cases event with
  | tick elapsed =>
    have hclock : state.clock ≤ state.clock + elapsed := Nat.le_add_right _ _
    exact { h with
        clock := fun removal hremoval => (h.clock removal hremoval).trans hclock
        prompt := fun hprompt => (h.prompt hprompt).imp_right fun hold since hsince =>
          (hold since hsince).imp_left (·.trans hclock) }
  | apply index bytes =>
    have hnow := h.now
    exact { h with
        now := { hnow with
          index := fun removal hremoval => (hnow.index removal hremoval).trans henabled } }
  | removal index bytes => exact h.removal henabled (by simpa [Replica.act] using hcount)
  | mark => exact h.mark
  | record marked snapshotBytes => exact h.record henabled snapshotBytes
  | purge purged => exact h.purge henabled

theorem sound_start : start.Sound := by
  have hnone : Counts [] 0 0 0 0 := ⟨le_rfl, rfl, rfl, nofun⟩
  constructor <;> simp [start, Owes, Replica.covered, Replica.highest, RemovalDebt.since, hnone]

/-- Before a run has applied more removals than the counter holds, the ledger is in line with it. -/
theorem sound_of_trace {events : List GaugeEvent} (h : gaugeSystem.Trace start events state)
    (hcount : state.history.length ≤ maxValue) : state.Sound := by
  refine h.invariant (P := fun state => state.history.length ≤ maxValue → state.Sound)
    (fun state event henabled hsound hcount => (hsound ?_).act henabled hcount)
    (fun _ => sound_start) hcount
  refine le_trans ?_ hcount
  cases event with
  | removal index bytes => simp [gaugeSystem, Replica.act]
  | _ => exact le_rfl

end Replica

/-- The ledger forgets no removal, in any order of removals, marks, snapshots and purges and before
a counter saturates. The debt is clear only when a recorded snapshot covers every removal and the
log is purged through each; a purge through a purging debt's index clears it. The watermark only
rises, from the indexes of the covered removals up to that of a recorded snapshot. The bytes
reported are those of the uncovered removals, and when each mark is recorded before the next is
taken, the debt is at least as old as each of them. -/
theorem removal_ledger_keeps_removals {events : List GaugeEvent} {state : Replica}
    (htrace : gaugeSystem.Trace .start events state) (hcount : state.history.length ≤ maxValue) :
    (state.ledger.debt = .clear → state.uncovered = [] ∧
      ∀ removal ∈ state.history, (removal.index : WithBot ℕ) ≤ state.purged) ∧
    (∀ since through, state.ledger.debt = .purging since through →
      (∀ removal ∈ state.history, removal.index ≤ through) ∧
      ∀ purged : WithBot ℕ, through ≤ purged →
        (state.gauge.observePurged purged).removals.debt = .clear) ∧
    (∀ event, state.ledger.purgeThrough ≤
      (gaugeSystem.act state event).ledger.purgeThrough) ∧
    (∀ removal ∈ state.history.take state.covered,
      removal.index ≤ (state.gauge.progress state.clock).scrubPurgeThrough) ∧
    (state.gauge.progress state.clock).scrubPurgeThrough ≤ state.highest ∧
    ((state.history.map Removal.bytes).sum ≤ maxValue →
      (state.gauge.progress state.clock).removal.bytes = (state.uncovered.map Removal.bytes).sum) ∧
    (state.prompt = true → ∀ since ∈ state.ledger.debt.since, ∀ removal ∈ state.uncovered,
      since ≤ removal.time) := by
  have h := Replica.sound_of_trace htrace hcount
  have hdebt := h.debt
  refine ⟨fun hclear => ?_, fun since through hpurging => ?_, fun event => ?_, h.covered.index,
    h.highest, fun hbytes => ?_, fun hprompt since hsince => ((h.prompt hprompt).2 since hsince).2⟩
  · rw [hclear] at hdebt
    exact ⟨drop_eq_nil_of_le hdebt.1, hdebt.2⟩
  · rw [hpurging] at hdebt
    exact ⟨hdebt.2, fun purged hpurged => by simp [observePurged, hpurging, hpurged]⟩
  · cases event with
    | mark =>
      simp only [gaugeSystem, Replica.act, h.mark_eq]
      exact le_rfl
    | record marked snapshotBytes =>
      simp only [gaugeSystem, Replica.act, recordSnapshot]
      split_ifs
      · exact le_max_left _ _
      · exact le_rfl
    | purge purged =>
      simp only [gaugeSystem, Replica.act]
      rcases observePurged_cases state.gauge purged with hsame | ⟨_, _, _, _, hsame⟩ <;> rw [hsame]
    | _ => exact le_rfl
  · have hsplit : (state.history.map Removal.bytes).sum =
        ((state.history.take state.covered).map Removal.bytes).sum +
          (state.uncovered.map Removal.bytes).sum := by
      rw [← sum_append, ← map_append, Replica.uncovered, take_append_drop]
    have howed : state.ledger.removedBytes - state.ledger.coveredBytes =
        (state.uncovered.map Removal.bytes).sum := by
      rw [h.now.bytes, h.covered.bytes, countedBytes, countedBytes, take_length]
      omega
    cases hkind : state.ledger.debt with
    | owed since | replayed since => simpa [progress, hkind, RemovalProgress.bytes] using howed
    | clear | purging since through =>
      rw [hkind] at hdebt
      rw [Replica.uncovered, drop_eq_nil_of_le hdebt.1]
      simp [progress, hkind, RemovalProgress.bytes]

/-- A removal that a snapshot leaves owed, from when it applied. -/
theorem removal_ledger_keeps_sample : ∃ events state, gaugeSystem.Trace .start events state ∧
    state.ledger.debt = .owed 4 ∧ (state.uncovered.map Removal.bytes).sum = 7 ∧
    (state.gauge.progress state.clock).removal.bytes = (state.uncovered.map Removal.bytes).sum := by
  have htrace : gaugeSystem.Trace .start [.removal 1 5, .mark, .tick 4, .removal 2 7,
      .record ⟨⟨0, 0, 1, 5⟩, 1, 1⟩ 9] _ :=
    .cons (Nat.zero_le _) <| .cons trivial <| .cons trivial <| .cons (Nat.le_succ 1) <|
      .cons (mem_singleton.mpr rfl) <| .nil _
  exact ⟨_, _, htrace, rfl, rfl,
    (removal_ledger_keeps_removals htrace (by decide)).2.2.2.2.2.1 (by decide)⟩

/-- Past 64 bits the counter stands still: the bytes of a later removal are not reported. -/
theorem saturated_ledger_forgets_bytes : ∃ events state, gaugeSystem.Trace .start events state ∧
    (state.gauge.progress state.clock).removal.bytes = 0 ∧
    (state.uncovered.map Removal.bytes).sum = 5 := by
  refine ⟨[.removal 1 maxValue, .mark, .record ⟨⟨0, 0, 1, maxValue⟩, 1, 1⟩ 9, .removal 2 5], _,
    .cons (Nat.zero_le _) <| .cons trivial <| .cons (mem_singleton.mpr ?_) <|
      .cons (Nat.le_succ 1) <| .nil _, rfl, rfl⟩
  decide +kernel

end Ursula.Raft

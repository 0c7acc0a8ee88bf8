import Ursula.Stream.Replicas

/-!
# Sweeps

A sweep takes its streams from the expiry index, whose entries differ between replicas. What it does
is nevertheless decided by the replicated state: it removes the first streams of a plain sort of the
expired ones, in that order, and then folds the end records that lie first. `GroupState.sweep` says
so without an index, and every machine's sweep is that one.

A group that holds as many end records as it may folds its lowest one for each stream it removes,
whatever the sweep was asked to retire; `GroupState.keptEnds` counts those folds.

## Main definitions

* `GroupState.expiredSlots`: the expired streams by expiry and then by name
* `GroupState.sweep`, `GroupState.keptEnds`, `GroupState.dueEnds`: the sweep of the replicated state

## Main results

* `StreamStateMachine.state_sweep`: a machine's sweep is that of its replicated state
* `GroupState.ends_sweep`: the end records a sweep leaves
-/

namespace Ursula

open Word64 StreamStateMachine List GroupState StreamRegistry UsageLedger OrdMap

/-! ## End records -/

namespace UsageLedger

/-- Folds the `n` lowest end records, or all there are. -/
def foldFirst : ℕ → UsageLedger → UsageLedger
  | 0, ledger => ledger
  | n + 1, ledger =>
    match ledger.foldFirstEndRecord with
    | none => ledger
    | some (_, folded) => foldFirst n folded

variable {record : EndRecord}

/-- A fold takes the lowest end record. -/
theorem values_foldFirstEndRecord {ledger folded : UsageLedger}
    (h : ledger.foldFirstEndRecord = some (record, folded)) :
    ledger.ends.values = record :: folded.ends.values := by
  unfold foldFirstEndRecord at h
  split at h
  · cases h
  · next seq record' rest hpop =>
    obtain ⟨rfl, rfl⟩ := Prod.mk.inj (Option.some.inj h)
    simp [values, popFirst_eq_some hpop]

theorem usageSeq_foldFirstEndRecord {ledger folded : UsageLedger}
    (h : ledger.foldFirstEndRecord = some (record, folded)) :
    folded.usageSeq = ledger.usageSeq := by
  unfold foldFirstEndRecord at h
  split at h
  · cases h
  · obtain ⟨-, rfl⟩ := Prod.mk.inj (Option.some.inj h)
    rfl

/-- Only a ledger without end records has none to fold. -/
theorem values_of_foldFirstEndRecord_none {ledger : UsageLedger}
    (h : ledger.foldFirstEndRecord = none) : ledger.ends.values = [] := by
  unfold foldFirstEndRecord at h
  split at h
  · next hpop => simp [values, popFirst_eq_none hpop]
  · cases h

theorem values_foldFirst (n : ℕ) (ledger : UsageLedger) :
    (foldFirst n ledger).ends.values = ledger.ends.values.drop n := by
  induction n generalizing ledger with
  | zero => rfl
  | succ n ih =>
    unfold foldFirst
    cases hfold : ledger.foldFirstEndRecord with
    | none => rw [values_of_foldFirstEndRecord_none hfold, drop_nil]
    | some folded => rw [ih, values_foldFirstEndRecord hfold, drop_succ_cons]

variable (ledger : UsageLedger)

/-- The end records are held by ascending seq. -/
theorem pairwise_ends : ledger.ends.values.Pairwise fun a b => a.seq < b.seq := by
  rw [values, pairwise_map]
  refine ledger.ends.sorted.imp_of_mem fun {a b} ha hb hlt => ?_
  rw [(ledger.ends_seq _ _ (ledger.ends.mem_entries.mp ha)).1,
    (ledger.ends_seq _ _ (ledger.ends.mem_entries.mp hb)).1]
  exact hlt

/-- The lowest end record is held at its own seq. -/
theorem first?_ends :
    ledger.ends.first? = ledger.ends.values.head?.map fun record => (record.seq, record) := by
  rw [first?, values, head?_map, Option.map_map]
  cases hfirst : ledger.ends.entries.head? with
  | none => rfl
  | some entry =>
    have hmem := mem_of_head? hfirst
    obtain ⟨hseq, -⟩ := ledger.ends_seq _ _ (ledger.ends.mem_entries.mp hmem)
    exact congrArg some (Prod.ext hseq.symm rfl)

theorem seq_le_of_mem_ends {ledger : UsageLedger}
    (h : record ∈ ledger.ends.values) : record.seq ≤ ledger.usageSeq := by
  obtain ⟨seq, hseq⟩ := (ledger.ends.mem_values record).mp h
  obtain ⟨heq, -, hle⟩ := ledger.ends_seq seq record hseq
  exact heq ▸ hle

theorem length_ends_le : ledger.ends.values.length ≤ maxEndRecords := by
  rw [values, length_map]
  exact ledger.ends_size

theorem values_foldIfFull :
    ledger.foldIfFull.1.ends.values =
        ledger.ends.values.drop (ledger.ends.values.length + 1 - maxEndRecords) ∧
      ledger.foldIfFull.1.usageSeq = ledger.usageSeq := by
  have hlength : ledger.ends.values.length = ledger.ends.size := by
    simp [values, size]
  have hsize := ledger.ends_size
  unfold foldIfFull
  rw [hlength]
  split_ifs with hfull
  · have hone : ledger.ends.size + 1 - maxEndRecords = 1 := by omega
    rw [hone]
    cases hfold : ledger.foldFirstEndRecord with
    | none =>
      rw [values_of_foldFirstEndRecord_none hfold] at hlength
      rw [← hlength] at hfull
      exact absurd hfull (by decide)
    | some folded =>
      exact ⟨by rw [values_foldFirstEndRecord hfold, drop_one, tail_cons],
        usageSeq_foldFirstEndRecord hfold⟩
  · have hzero : ledger.ends.size + 1 - maxEndRecords = 0 := by omega
    rw [hzero, drop_zero]
    exact ⟨rfl, rfl⟩

/-- Until the seqs run out, a removal's end record is held last; a full ledger lets its lowest one
go. -/
theorem values_recordEnd {ledger : UsageLedger} (hmore : ledger.usageSeq < maxValue)
    (record : ℕ → EndRecord) (hseq : ∀ seq, (record seq).seq = seq) :
    (ledger.recordEnd record hseq).1.ends.values =
        (ledger.ends.values ++ [record (ledger.usageSeq + 1)]).drop
          (ledger.ends.values.length + 1 - maxEndRecords) ∧
      (ledger.recordEnd record hseq).1.usageSeq = ledger.usageSeq + 1 := by
  obtain ⟨hvalues, husage⟩ := values_foldIfFull ledger
  have hnext : ledger.foldIfFull.1.nextSeq = ledger.usageSeq + 1 := by
    rw [nextSeq_eq (husage ▸ hmore), husage]
  have hinsert : (ledger.recordEnd record hseq).1.ends.values =
      ledger.foldIfFull.1.ends.values ++ [record (ledger.usageSeq + 1)] := by
    show (ledger.foldIfFull.1.ends.insert _ _).values = _
    rw [hnext, hseq]
    refine values_insert_last fun seq held hheld => ?_
    have hle := (ledger.foldIfFull.1.ends_seq seq held hheld).2.2
    omega
  have hmax : ledger.ends.values.length + 1 - maxEndRecords ≤ ledger.ends.values.length := by
    unfold maxEndRecords
    omega
  rw [hinsert, hvalues, drop_append_of_le_length hmax]
  exact ⟨rfl, hnext⟩

end UsageLedger

/-! ## The sweep of the replicated state -/

/-- What orders a sweep: a stream's expiry, then its name. -/
def StreamSlot.expiryOrder (slot : StreamSlot) : ℕ ×ₗ BucketStreamId :=
  toLex ((streamExpiryAtMs slot.metadata).getD 0, slot.id)

namespace GroupState

/-- The live streams that have expired at `nowMs`, by expiry and then by name. -/
def expiredSlots (state : GroupState) (nowMs : ℕ) : List StreamSlot :=
  (state.slots.values.filter fun slot => streamIsExpired slot.metadata nowMs).insertionSort
    fun a b => a.expiryOrder ≤ b.expiryOrder

/-- The group without expired streams. -/
def removeExpired (nowMs : ℕ) (state : GroupState) (slots : List StreamSlot) : GroupState :=
  slots.foldl (fun state slot => state.removeStream slot .expired nowMs) state

/-- The end records at or below `retireThrough`, at most `limit` of them. -/
def dueEnds (state : GroupState) (retireThrough limit : ℕ) : List EndRecord :=
  (state.usage.ends.values.filter fun record => record.seq ≤ retireThrough).take limit

/-- What a sweep leaves of a group. -/
def sweep (state : GroupState) (nowMs : ℕ) (limit : ℕ+) (retireThrough : ℕ) : GroupState :=
  let swept := removeExpired nowMs state ((state.expiredSlots nowMs).take limit)
  let due := swept.dueEnds (min retireThrough state.usage.usageSeq) limit
  { swept with usage := swept.usage.foldFirst due.length }

/-- The end records of streams that expired at `nowMs`, stamped with the next seqs. -/
def expiredEnds (state : GroupState) (nowMs : ℕ) (slots : List StreamSlot) : List EndRecord :=
  slots.mapIdx fun i slot =>
    slot.endRecord state.history .expired nowMs (state.usage.usageSeq + 1 + i)

/-- The end records after expired streams were removed: theirs come last, and each of them lets the
lowest one go once the group holds all it may. -/
def keptEnds (state : GroupState) (nowMs : ℕ) (slots : List StreamSlot) : List EndRecord :=
  (state.usage.ends.values ++ state.expiredEnds nowMs slots).drop
    (state.usage.ends.values.length + slots.length - maxEndRecords)

/-- Letting the first elements of a bounded list go as it grows lets the same go as at the end. -/
theorem drop_append_bounded {α : Type} {l rest : List α} {a : α} {bound : ℕ} (hpos : 0 < bound) :
    ((l ++ [a]).drop (l.length + 1 - bound) ++ rest).drop
        (((l ++ [a]).drop (l.length + 1 - bound)).length + rest.length - bound) =
      (l ++ a :: rest).drop (l.length + (rest.length + 1) - bound) := by
  have hle : l.length + 1 - bound ≤ (l ++ [a]).length := by
    rw [length_append, length_singleton]
    omega
  rw [← drop_append_of_le_length hle, drop_drop, append_assoc, singleton_append,
    length_drop, length_append, length_singleton]
  congr 1
  omega

section Removals

variable {state : GroupState} {nowMs : ℕ}

/-- Until the seqs run out, removed streams leave their end records in the order of their
removal. -/
theorem ends_removeExpired {slots : List StreamSlot}
    (hmore : state.usage.usageSeq + slots.length ≤ maxValue) :
    (removeExpired nowMs state slots).usage.ends.values = state.keptEnds nowMs slots := by
  unfold removeExpired
  induction slots generalizing state with
  | nil =>
    have hlength := state.usage.length_ends_le
    have hzero : state.usage.ends.values.length - maxEndRecords = 0 := by omega
    simp [keptEnds, expiredEnds, hzero]
  | cons slot rest ih =>
    rw [length_cons] at hmore
    obtain ⟨hvalues, hseq⟩ := @values_recordEnd state.usage (by omega)
      (slot.endRecord state.history .expired nowMs) fun _ => rfl
    have husage : (state.removeStream slot .expired nowMs).usage =
        (state.usage.recordEnd (slot.endRecord state.history .expired nowMs) fun _ => rfl).1 := by
      rw [removeStream_eq]
    have hhistory : (state.removeStream slot .expired nowMs).history = state.history := by
      rw [removeStream_eq]
    have hends : state.expiredEnds nowMs (slot :: rest) =
        slot.endRecord state.history .expired nowMs (state.usage.usageSeq + 1) ::
          (state.removeStream slot .expired nowMs).expiredEnds nowMs rest := by
      rw [expiredEnds, expiredEnds, mapIdx_cons, hhistory, husage, hseq]
      refine congrArg₂ cons rfl ?_
      congr 1
      funext i slot
      congr 1
      omega
    have hlength : ((state.removeStream slot .expired nowMs).expiredEnds nowMs rest).length =
        rest.length := length_mapIdx
    have hbound : 0 < maxEndRecords := by decide
    rw [foldl_cons, ih (by rw [husage, hseq]; omega), keptEnds, keptEnds, hends, husage, hvalues,
      length_cons, ← hlength]
    -- the bound is a literal that unification would count down
    exact drop_append_bounded hbound

end Removals

section Order

variable {state state' : GroupState} {nowMs : ℕ} {slot : StreamSlot}

theorem mem_expiredSlots :
    slot ∈ state.expiredSlots nowMs ↔
      slot ∈ state.slots.values ∧ streamIsExpired slot.metadata nowMs = true := by
  rw [expiredSlots, mem_insertionSort, mem_filter]

theorem pairwise_expiredSlots (state : GroupState) (nowMs : ℕ) :
    (state.expiredSlots nowMs).Pairwise fun a b => a.expiryOrder ≤ b.expiryOrder := by
  exact pairwise_insertionSort _ _

/-- The first stream to expire comes first, and the others follow as without it. -/
theorem expiredSlots_of_first
    (hids : ∀ id slot, state.slots.get? id = some slot → slot.id = id)
    (hslot : state.slots.get? slot.id = some slot)
    (hexpired : streamIsExpired slot.metadata nowMs = true)
    (hfirst : ∀ other ∈ state.slots.values, streamIsExpired other.metadata nowMs = true →
      slot.expiryOrder ≤ other.expiryOrder)
    (hslots : state'.slots = state.slots.erase slot.id) :
    state.expiredSlots nowMs = slot :: state'.expiredSlots nowMs := by
  have hlive : ∀ {a}, a ∈ state.slots.values → state.slots.get? a.id = some a := by
    intro a ha
    obtain ⟨id, hid⟩ := (mem_values _ _).mp ha
    rw [hids id a hid]
    exact hid
  have hperm : (state.expiredSlots nowMs).Perm (slot :: state'.expiredSlots nowMs) := by
    refine (perm_insertionSort _ _).trans ?_
    refine ((values_perm_erase hslot).filter _).trans ?_
    simp only [filter_cons, hexpired, if_true, ← hslots]
    exact (perm_insertionSort _ _).symm.cons slot
  refine hperm.eq_of_pairwise (fun a b ha hb hab hba => ?_) (pairwise_expiredSlots _ _) ?_
  · have ha' := hlive (mem_expiredSlots.mp ha).1
    have hb' := hlive (mem_expiredSlots.mp (hperm.mem_iff.mpr hb)).1
    have heq : a.expiryOrder = b.expiryOrder := le_antisymm hab hba
    have hid : a.id = b.id := congrArg (fun order => (ofLex order).2) heq
    rw [hid, hb'] at ha'
    exact (Option.some.inj ha').symm
  · refine pairwise_cons.mpr ⟨fun other hother => ?_, pairwise_expiredSlots _ _⟩
    have hmem : other ∈ state.expiredSlots nowMs := hperm.mem_iff.mpr (mem_cons_of_mem _ hother)
    obtain ⟨hlive, hdue⟩ := mem_expiredSlots.mp hmem
    exact hfirst other hlive hdue

end Order

end GroupState

/-! ## The sweep of a machine -/

namespace StreamStateMachine

variable {machine : StreamStateMachine}

/-- A stream's expiry comes first in the sweep's order exactly as in the index. -/
theorem expiryOrder_le_of_firstDue {nowMs : ℕ} {id : BucketStreamId} {slot other : StreamSlot}
    (hfirst : machine.registry.FirstDue nowMs id) (hslot : machine.streamSlot id = some slot)
    (hother : machine.streamSlot other.id = some other)
    (hexpired : streamIsExpired other.metadata nowMs = true) :
    slot.expiryOrder ≤ other.expiryOrder := by
  obtain ⟨slot', expiresAtMs, hslot', hexpiry, -, hall⟩ := hfirst.expired
  obtain rfl := Option.some.inj (hslot'.symm.trans hslot)
  cases hlater : streamExpiryAtMs other.metadata with
  | none =>
    rw [streamIsExpired, hlater] at hexpired
    cases hexpired
  | some expiresAtMs' =>
    have hid : slot'.id = id := slot_id hslot
    rw [StreamSlot.expiryOrder, StreamSlot.expiryOrder, hexpiry, hlater,
      Prod.Lex.toLex_le_toLex, hid]
    exact hall other.id other expiresAtMs' hother hlater

/-- A sweep removes the first streams that have expired, in their order. -/
theorem state_sweepExpired (harmed : machine.registry.Armed) (nowMs limit : ℕ) :
    (sweepExpired nowMs limit machine).1.state = removeExpired nowMs machine.state
        ((machine.state.expiredSlots nowMs).take limit) ∧
      (sweepExpired nowMs limit machine).2 =
        ((machine.state.expiredSlots nowMs).take limit).length := by
  induction limit generalizing machine with
  | zero => exact ⟨rfl, rfl⟩
  | succ limit ih =>
    have hpopped := popExpired_spec harmed nowMs
    have hsame := sameSlots_popExpired machine.registry nowMs
    have hstate := state_popExpired machine nowMs
    unfold sweepExpired
    generalize machine.registry.popExpired nowMs = popped at hpopped hsame hstate
    cases hpopped with
    | nothing _ hnone =>
      have hnil : machine.state.expiredSlots nowMs = [] := by
        refine eq_nil_iff_forall_not_mem.mpr fun slot hmem => ?_
        obtain ⟨hlive, hexpired⟩ := mem_expiredSlots.mp hmem
        obtain ⟨id, hid⟩ := (mem_values _ _).mp hlive
        rw [← streamSlot_eq] at hid
        cases hexpired.symm.trans (hnone id slot hid)
      rw [hnil]
      exact ⟨hstate, rfl⟩
    | @stream after id hafter hfirst =>
      obtain ⟨slot, hslot, hexpired⟩ := hfirst.streamIsExpired
      obtain rfl : slot.id = id := slot_id hslot
      dsimp only at hstate ⊢
      have hpopped : ({ machine with registry := after } : StreamStateMachine).streamSlot slot.id =
          some slot := (hsame.slot slot.id).trans hslot
      obtain ⟨-, hremoved⟩ := state_removeStreamState hpopped .expired nowMs
      have hcons : machine.state.expiredSlots nowMs = slot ::
          ({ machine with registry := after }.removeStreamState slot.id .expired
            nowMs).1.state.expiredSlots nowMs := by
        refine expiredSlots_of_first (fun id slot hslot => ?_) ?_ hexpired ?_ ?_
        · rw [← streamSlot_eq] at hslot
          exact slot_id hslot
        · rw [← streamSlot_eq]
          exact hslot
        · intro other hother hdue
          obtain ⟨id, hid⟩ := (mem_values _ _).mp hother
          rw [← streamSlot_eq] at hid
          obtain rfl : other.id = id := slot_id hid
          exact expiryOrder_le_of_firstDue hfirst hslot hid hdue
        · rw [hremoved, hstate, removeStream_eq]
      obtain ⟨hrest, hcount⟩ :=
        ih (@armed_removeStreamState { machine with registry := after } slot _
        slot.id hafter (.inr rfl) hpopped .expired nowMs)
      rw [hcons, take_succ_cons, length_cons, hrest, hcount, hremoved, hstate]
      exact ⟨rfl, rfl⟩

/-- A sweep folds the first end records that are due. -/
theorem state_retireEndRecords (machine : StreamStateMachine) (retireThrough limit : ℕ) :
    (retireEndRecords retireThrough limit machine).1.state =
        { machine.state with
          usage := machine.state.usage.foldFirst
            (machine.state.dueEnds retireThrough limit).length } ∧
      (retireEndRecords retireThrough limit machine).2 =
        (machine.state.dueEnds retireThrough limit).length := by
  induction limit generalizing machine with
  | zero => simp [retireEndRecords, dueEnds, foldFirst]
  | succ limit ih =>
    have hends : machine.state.usage.ends = machine.usage.ends := rfl
    have hfirst : machine.endRecordDue retireThrough =
        machine.usage.ends.values.head?.any fun record => decide (record.seq ≤ retireThrough) := by
      rw [endRecordDue, first?_ends, Option.any_map]
    unfold retireEndRecords
    cases hfold : machine.usage.foldFirstEndRecord with
    | none =>
      have hnil := values_of_foldFirstEndRecord_none hfold
      have hdue : machine.state.dueEnds retireThrough (limit + 1) = [] := by
        rw [dueEnds, hends, hnil]
        rfl
      rw [hdue]
      split_ifs <;> exact ⟨rfl, rfl⟩
    | some folded =>
      obtain ⟨record, ledger⟩ := folded
      have hvalues := values_foldFirstEndRecord hfold
      have hpairwise := machine.usage.pairwise_ends
      rw [hvalues, head?_cons, Option.any_some] at hfirst
      rw [hvalues, pairwise_cons] at hpairwise
      rw [hfirst]
      by_cases hdue : record.seq ≤ retireThrough
      · rw [if_pos (decide_eq_true hdue)]
        dsimp only
        obtain ⟨hrest, hcount⟩ := ih
          { machine with usage := ledger, removed := recordFolded machine.removed record }
        have hlist : machine.state.dueEnds retireThrough (limit + 1) = record :: { machine with
              usage := ledger
              removed := recordFolded machine.removed record }.state.dueEnds
                retireThrough limit := by
          rw [dueEnds, hends, hvalues, filter_cons, if_pos (decide_eq_true hdue), take_succ_cons]
          rfl
        have husage : machine.state.usage.foldFirstEndRecord =
            some (record, ledger.withoutIndex) := by
          show machine.usage.withoutIndex.foldFirstEndRecord = _
          rw [withoutIndex_foldFirstEndRecord, hfold]
          rfl
        rw [hlist, length_cons, foldFirst, husage]
        exact ⟨hrest, congrArg (· + 1) hcount⟩
      · rw [if_neg (by simpa using hdue)]
        have hnone : machine.state.dueEnds retireThrough (limit + 1) = [] := by
          rw [dueEnds, hends, hvalues, filter_eq_nil_iff.mpr, take_nil]
          intro other hother
          rcases mem_cons.mp hother with rfl | hother
          · simpa using hdue
          · have hlt := hpairwise.1 other hother
            simp only [decide_eq_true_eq]
            omega
        rw [hnone]
        exact ⟨rfl, rfl⟩

/-- **Sweeps.** A sweep is that of the replicated state, whatever the expiry index holds. -/
theorem state_sweep (harmed : machine.registry.Armed) (nowMs : ℕ) (limit : ℕ+) (retireThrough : ℕ) :
    (machine.sweep nowMs limit retireThrough).1.state =
        machine.state.sweep nowMs limit retireThrough ∧
      (machine.sweep nowMs limit retireThrough).2 =
        .swept ((machine.state.expiredSlots nowMs).take limit).length
          ((removeExpired nowMs machine.state
            ((machine.state.expiredSlots nowMs).take limit)).dueEnds
              (min retireThrough machine.state.usage.usageSeq) limit).length := by
  obtain ⟨hswept, hexpired⟩ := state_sweepExpired harmed nowMs limit
  obtain ⟨hretired, hcount⟩ := state_retireEndRecords (sweepExpired nowMs limit machine).1
    (min retireThrough machine.usage.usageSeq) limit
  rw [hswept] at hretired hcount
  exact ⟨hretired, congrArg₂ StreamResponse.swept hexpired hcount⟩

end StreamStateMachine

namespace GroupState

variable {state : GroupState} {nowMs : ℕ}

/-- Removed streams are no longer there, and the others are as they were. -/
theorem get?_removeExpired (slots : List StreamSlot) (id : BucketStreamId) :
    (removeExpired nowMs state slots).slots.get? id =
      if id ∈ slots.map StreamSlot.id then none else state.slots.get? id := by
  unfold removeExpired
  induction slots generalizing state with
  | nil => simp
  | cons slot rest ih =>
    rw [foldl_cons, ih, removeStream_eq, get?_erase, map_cons]
    by_cases hrest : id ∈ rest.map StreamSlot.id
    · rw [if_pos hrest, if_pos (mem_cons_of_mem _ hrest)]
    · rw [if_neg hrest]
      exact if_congr (by simp [hrest]) rfl rfl

/-- The end records a sweep leaves. -/
theorem ends_sweep (state : GroupState) (nowMs : ℕ) (limit : ℕ+) (retireThrough : ℕ) :
    (state.sweep nowMs limit retireThrough).usage.ends.values =
      let left := removeExpired nowMs state ((state.expiredSlots nowMs).take limit)
      left.usage.ends.values.drop
        (left.dueEnds (min retireThrough state.usage.usageSeq) limit).length :=
  values_foldFirst _ _

theorem lt_seq_of_mem_expiredEnds {slots : List StreamSlot}
    (h : record ∈ state.expiredEnds nowMs slots) : state.usage.usageSeq < record.seq := by
  obtain ⟨i, hi, rfl⟩ := mem_mapIdx.mp h
  show state.usage.usageSeq < state.usage.usageSeq + 1 + i
  omega

/-- While the group has room for the end records of the streams it removes, it folds those that it
held before and that were asked for. -/
theorem filter_keptEnds_of_room {slots : List StreamSlot} (retireThrough : ℕ)
    (hroom : state.usage.ends.values.length + slots.length ≤ maxEndRecords) :
    state.keptEnds nowMs slots = state.usage.ends.values ++ state.expiredEnds nowMs slots ∧
      (state.keptEnds nowMs slots).filter
          (fun record => record.seq ≤ min retireThrough state.usage.usageSeq) =
        state.usage.ends.values.filter fun record => record.seq ≤ retireThrough := by
  have hkept : state.keptEnds nowMs slots =
      state.usage.ends.values ++ state.expiredEnds nowMs slots := by
    rw [keptEnds, Nat.sub_eq_zero_of_le hroom, drop_zero]
  refine ⟨hkept, ?_⟩
  have hheld : state.usage.ends.values.filter
      (fun record => decide (record.seq ≤ min retireThrough state.usage.usageSeq)) =
      state.usage.ends.values.filter fun record => decide (record.seq ≤ retireThrough) := by
    refine filter_congr fun record hrecord => ?_
    have hle := seq_le_of_mem_ends hrecord
    rw [decide_eq_decide]
    omega
  have hended : (state.expiredEnds nowMs slots).filter
      (fun record => decide (record.seq ≤ min retireThrough state.usage.usageSeq)) = [] := by
    refine filter_eq_nil_iff.mpr fun record hrecord => ?_
    have hlt := lt_seq_of_mem_expiredEnds hrecord
    rw [decide_eq_true_eq]
    omega
  rw [hkept, filter_append, hheld, hended, append_nil]

end GroupState

/-! ## Sweeps of reachable machines -/

namespace StreamStateMachine

theorem ReachableBy.armed [Blake3] {Takes : StreamCommand → Prop} {Holds : StreamSnapshot → Prop}
    {machine : StreamStateMachine} (h : machine.ReachableBy Takes Holds) :
    machine.registry.Armed := by
  induction h with
  | new => exact armed_empty
  | entry _ index command _ ih => exact armed_applyEntry ih index command
  | restored h => exact armed_restoreWith h

/-- Whether a stream of the group may have expired at `nowMs`. -/
def expiryDue (machine : StreamStateMachine) (nowMs : ℕ) : Bool :=
  machine.registry.ttlFrontDue nowMs

/-- **A sweep depends on the replicated state only.** It removes the first streams of a plain sort
of the expired ones, and then folds the first due end records. Until the seqs run out the end
records of the removed streams follow those held before, and while there is room for all of them it
folds those that were asked for. -/
theorem sweep_takes_first_expired [Blake3] {machine : StreamStateMachine} (h : machine.Reachable)
    (index nowMs : ℕ) (limit : ℕ+) (retireThrough : ℕ) :
    let removed := (machine.state.expiredSlots nowMs).take limit
    let held := machine.usage.ends.values
    let left := removeExpired nowMs machine.state removed
    let folded := left.dueEnds (min retireThrough machine.usage.usageSeq) limit
    let result := machine.applyEntry index (.sweep nowMs limit retireThrough)
    result.2 = .swept removed.length folded.length ∧
      result.1.state = machine.state.sweep nowMs limit retireThrough ∧
      (∀ id, result.1.streamSlot id =
        if id ∈ removed.map StreamSlot.id then none else machine.streamSlot id) ∧
      result.1.usage.ends.values = left.usage.ends.values.drop folded.length ∧
      (machine.usage.usageSeq + removed.length ≤ maxValue →
        left.usage.ends.values = machine.state.keptEnds nowMs removed ∧
          (held.length + removed.length ≤ maxEndRecords →
            left.usage.ends.values = held ++ machine.state.expiredEnds nowMs removed ∧
              folded = (held.filter fun record => record.seq ≤ retireThrough).take limit)) ∧
      (machine.expiryDue nowMs = false → ∀ id slot, machine.streamSlot id = some slot →
        streamIsExpired slot.metadata nowMs = false) ∧
      ∀ swept, StreamRegistry.Returns nowMs (sweepExpired nowMs swept machine).1.registry
        ((sweepExpired nowMs swept machine).1.registry.popExpired nowMs) := by
  intro removed held left folded result
  obtain ⟨hstate, hanswer⟩ := state_sweep h.armed nowMs limit retireThrough
  have hends := ends_sweep machine.state nowMs limit retireThrough
  refine ⟨hanswer, hstate, fun id => ?_, ?_, fun hmore => ?_, fun hdue id slot hslot => ?_,
    fun swept => ?_⟩
  · rw [streamSlot_eq, streamSlot_eq]
    exact (congrArg (fun state : GroupState => state.slots.get? id) hstate).trans
      (get?_removeExpired removed id)
  · rw [← hstate] at hends
    exact hends
  · have hleft : left.usage.ends.values = machine.state.keptEnds nowMs removed :=
      ends_removeExpired hmore
    refine ⟨hleft, fun hroom => ?_⟩
    obtain ⟨hkept, hfilter⟩ := @filter_keptEnds_of_room machine.state nowMs removed
      retireThrough hroom
    refine ⟨hleft.trans hkept, ?_⟩
    show (left.usage.ends.values.filter _).take _ = _
    rw [hleft]
    exact congrArg (take limit) hfilter
  · refine h.armed.none_due (fun entry hpeek => ?_) hslot
    rw [expiryDue, ttlFrontDue, hpeek, Option.any_some, decide_eq_false_iff_not] at hdue
    exact not_le.mp hdue
  · exact popExpired_returns (armed_sweepExpired nowMs swept h.armed) nowMs

theorem sweep_takes_sample :
    letI := Blake3.zero
    let machine := (new.applyEntries (sampleGenesis ++ [(3, .createStream
      sampleStream "text/plain" [] false none none (some 2000) 1000)])).1
    machine.Reachable ∧ (machine.state.expiredSlots 2000).map StreamSlot.id = [sampleStream] ∧
      (machine.applyEntry 4 (.sweep 2000 1 0)).1.streamSlot sampleStream = none := by
  let blake3 := Blake3.zero
  intro machine
  have hreachable : machine.Reachable :=
    ((ReachableBy.new.entry 1 _ trivial).entry 2 _ trivial).entry 3 _ trivial
  have hexpired : (machine.state.expiredSlots 2000).map StreamSlot.id = [sampleStream] := by
    decide +kernel
  refine ⟨hreachable, hexpired, ?_⟩
  obtain ⟨-, -, hslot, -⟩ := sweep_takes_first_expired hreachable 4 2000 1 0
  rw [hslot, map_take, hexpired]
  rfl

/-! ## A full group -/

section Full

/-- The sample group after `n` streams were created and deleted. -/
def turnedOver [Blake3] : ℕ → StreamStateMachine
  | 0 => (StreamStateMachine.new.applyEntries sampleGenesis).1
  | n + 1 =>
    ((turnedOver n).applyEntries
      [(3, sampleCreate []), (4, .deleteStream sampleStream 1000)]).1

/-- A sample group without streams that holds `n` end records. -/
structure Emptied (machine : StreamStateMachine) (n : ℕ) : Prop where
  history : machine.history.map HistoryEvent.id = some 1
  bucket : machine.buckets.contains "bkt1" = true
  slots : machine.state.slots = ∅
  ends : machine.usage.ends.values.length = n
  usageSeq : machine.usage.usageSeq ≤ 2 * n
  lastCreatedAtMs : machine.lastCreatedAtMs ≤ 1000 + n

/-- The create of the sample stream, perhaps with an expiry. -/
def sampleStreamInput (expiresAtMs : Option ℕ) : NewStream where
  streamId := sampleStream
  contentType := "text/plain"
  initialLen := 0
  messageCount := 0
  closeAfter := false
  streamSeq := none
  streamTtlSeconds := none
  streamExpiresAtMs := expiresAtMs
  nowMs := 1000
  hotBuffer := HotBuffer.fromPayload 0 []
  externalSegments := []

variable {machine machine' : StreamStateMachine} {slot : StreamSlot} {n : ℕ}

theorem validateBucketId_sample : validateBucketId sampleStream.bucketId = .ok () := by
  decide +kernel

theorem validateStreamId_sample : validateStreamId sampleStream = .ok () := by decide +kernel

theorem scope_sample (h : machine.buckets.contains "bkt1" = true) :
    machine.validateStreamScope sampleStream = .ok () := by
  have hbucket : machine.buckets.contains sampleStream.bucketId = true := h
  simp only [validateStreamScope, validateBucketId_sample, validateStreamId_sample,
    hbucket, if_true]

/-- The state after the sample stream was created. -/
structure Created (machine created : StreamStateMachine) (slot : StreamSlot) (n : ℕ) : Prop where
  history : created.state.history = machine.state.history
  buckets : created.state.buckets = machine.state.buckets
  slots : created.state.slots = machine.state.slots.insert sampleStream slot
  ends : created.state.usage.ends = machine.state.usage.ends
  usageSeq : created.state.usage.usageSeq ≤ machine.usage.usageSeq + 1
  lastCreatedAtMs : created.state.lastCreatedAtMs ≤ 1000 + (n + 1)

/-- A full group that removes a stream folds its lowest end record. -/
theorem Emptied.folds (h : Emptied machine maxEndRecords) (harmed : machine'.registry.Armed)
    (hcreated : Created machine machine' slot maxEndRecords)
    (hdue : streamIsExpired slot.metadata 2000 = true) :
    ∃ record ∈ machine'.usage.ends.values, 0 < record.seq ∧
      record ∉ (machine'.sweep 2000 1 0).1.usage.ends.values := by
  have hslots : machine'.state.slots.values = [slot] := by
    rw [hcreated.slots, h.slots]
    rfl
  have hexpired : machine'.state.expiredSlots 2000 = [slot] := by
    simp [expiredSlots, hslots, hdue]
  have hheld : machine'.state.usage.ends.values.length = maxEndRecords :=
    (congrArg (fun ends : OrdMap ℕ EndRecord => ends.values.length) hcreated.ends).trans h.ends
  have hends := ends_sweep machine'.state 2000 1 0
  rw [← (state_sweep harmed 2000 1 0).1, hexpired] at hends
  have hmore : machine'.state.usage.usageSeq + ([slot].take 1).length ≤ maxValue := by
    have hmachine := h.usageSeq
    have hafter := hcreated.usageSeq
    have hbound : 2 * maxEndRecords + 2 ≤ maxValue := by decide
    rw [take_succ_cons, take_nil, length_singleton]
    omega
  have hkept : (removeExpired 2000 machine'.state ([slot].take 1)).usage.ends.values =
      (machine'.state.usage.ends.values ++ machine'.state.expiredEnds 2000 [slot]).drop 1 := by
    rw [ends_removeExpired hmore, keptEnds, hheld, take_succ_cons, take_nil, length_singleton,
      Nat.add_sub_cancel_left]
  obtain ⟨record, rest, hvalues⟩ := exists_cons_of_length_pos
    (show 0 < machine'.state.usage.ends.values.length by rw [hheld]; decide)
  have hrecord : record ∈ machine'.usage.ends.values := by
    show record ∈ machine'.state.usage.ends.values
    rw [hvalues]
    exact mem_cons_self
  obtain ⟨seq, hseq⟩ := (machine'.usage.ends.mem_values record).mp hrecord
  obtain ⟨hown, hpos, hbelow⟩ := machine'.usage.ends_seq seq record hseq
  refine ⟨record, hrecord, hown ▸ hpos, fun hmem => ?_⟩
  change record ∈ (machine'.sweep 2000 1 0).1.state.usage.ends.values at hmem
  rw [hends] at hmem
  have hmem := mem_of_mem_drop hmem
  rw [show ((1 : ℕ+) : ℕ) = 1 from rfl, hkept, hvalues, cons_append, drop_one, tail_cons] at hmem
  -- the others have higher seqs
  rcases mem_append.mp hmem with hmem | hmem
  · have hpairwise := machine'.state.usage.pairwise_ends
    rw [hvalues] at hpairwise
    exact lt_irrefl _ ((pairwise_cons.mp hpairwise).1 record hmem)
  · have hlt : machine'.usage.usageSeq < record.seq := lt_seq_of_mem_expiredEnds hmem
    omega

variable [Blake3]

/-- A group without streams creates the sample stream. -/
theorem Emptied.create (h : Emptied machine n) (hn : n ≤ maxEndRecords) (index : ℕ)
    (expiresAtMs : Option ℕ) :
    ∃ createdAtMs ≤ 1000 + (n + 1),
      (Act.create (sampleStreamInput expiresAtMs) 1 createdAtMs).Enabled machine.state ∧
      (machine.applyEntry index (.createStream sampleStream "text/plain" [] false none none
        expiresAtMs 1000)).1 = machine.act
          (.create (sampleStreamInput expiresAtMs) 1 createdAtMs) := by
  have hnone : machine.streamSlot sampleStream = none := by rw [streamSlot_eq, h.slots]; rfl
  have hlive : (machine.expireStreamIfDue sampleStream 1000).1 = machine := by
    simp [expireStreamIfDue, streamExpired, streamMetadata, hnone]
  have hcreated : max 1000 (satAdd machine.lastCreatedAtMs 1) ≤ 1000 + (n + 1) := by
    have hlast := h.lastCreatedAtMs
    unfold satAdd
    omega
  have hrange : ¬ max 1000 (satAdd machine.lastCreatedAtMs 1) > maxCreatedAtMs := by
    have hmax : maxCreatedAtMs = 4503599627370495 := by decide +kernel
    have hends : maxEndRecords = 65536 := rfl
    omega
  have hnext : machine.nextCreatedAtMs 1000 = .ok (max 1000 (satAdd machine.lastCreatedAtMs 1)) :=
    if_neg hrange
  have hcount : machine.countingHistory = .ok 1 := by
    obtain ⟨event, hevent, hid⟩ := Option.map_eq_some_iff.mp h.history
    rw [countingHistory, hevent]
    exact congrArg Except.ok hid
  have hmessages : canonicalJsonMessageCount "text/plain" [] = some 0 := by decide +kernel
  refine ⟨_, hcreated, ⟨⟨validateBucketId_sample, validateStreamId_sample, h.bucket⟩, ?_, h.history,
    rfl, not_lt.mp hrange, .inline [] rfl rfl rfl⟩, ?_⟩
  · rw [← streamSlot_eq]
    exact hnone
  · have hcreated := @admitStream_of_ok machine machine (sampleStreamInput expiresAtMs) 1 _ hlive
      hnone hnext
    have hretention : validateRetention none expiresAtMs = .ok () := by simp [validateRetention]
    rw [applyEntry, applyChecked, hmessages]
    simp only [createStream, hcount, scope_sample h.bucket, hretention]
    exact congrArg Prod.fst hcreated

theorem Emptied.created (h : Emptied machine n) (hn : n ≤ maxEndRecords) (index : ℕ)
    (expiresAtMs : Option ℕ) :
    ∃ slot, slot.id = sampleStream ∧ slot.metadata.streamExpiresAtMs = expiresAtMs ∧
      Created machine (machine.applyEntry index (.createStream sampleStream "text/plain" [] false
        none none expiresAtMs 1000)).1 slot n := by
  obtain ⟨createdAtMs, hcreated, henabled, hcreate⟩ := h.create hn index expiresAtMs
  refine ⟨machine.state.createdSlot (sampleStreamInput expiresAtMs) 1 createdAtMs, rfl, rfl, ?_⟩
  have hlast := h.lastCreatedAtMs
  rw [hcreate]
  constructor <;> rw [state_act henabled]
  · rfl
  · rfl
  · rfl
  · show (machine.state.usage.insertBucket _).ends = _
    unfold insertBucket
    split_ifs <;> rfl
  · show (machine.state.usage.insertBucket _).nextSeq ≤ _
    rw [nextSeq_insertBucket]
    exact machine.usage.nextSeq_le
  · show max machine.lastCreatedAtMs createdAtMs ≤ _
    omega

theorem Emptied.turnOver (h : Emptied machine n) (hn : n < maxEndRecords) :
    Emptied (machine.applyEntries [(3, sampleCreate []), (4, .deleteStream sampleStream 1000)]).1
      (n + 1) := by
  obtain ⟨slot, hid, -, hcreated⟩ := h.created hn.le 3 none
  show Emptied ((machine.applyEntry 3 (sampleCreate [])).1.applyEntry 4
    (.deleteStream sampleStream 1000)).1 (n + 1)
  change Created machine (machine.applyEntry 3 (sampleCreate [])).1 slot n at hcreated
  generalize (machine.applyEntry 3 (sampleCreate [])).1 = created at hcreated
  have hslot : created.streamSlot slot.id = some slot := by
    rw [streamSlot_eq, hcreated.slots, hid, get?_insert, if_pos rfl]
  have hbucket : created.buckets.contains "bkt1" = true := by
    have hbuckets : created.buckets = machine.buckets := hcreated.buckets
    rw [hbuckets]
    exact h.bucket
  obtain ⟨reason, hdelete⟩ : ∃ reason, (created.applyEntry 4 (.deleteStream sampleStream 1000)).1 =
      (created.removeStreamState slot.id reason 1000).1 := by
    rw [applyEntry, applyChecked, deleteStream, scope_sample hbucket, ← hid, streamMetadata, hslot]
    exact ⟨_, rfl⟩
  obtain ⟨-, hremoved⟩ := state_removeStreamState hslot reason 1000
  rw [hdelete]
  generalize (created.removeStreamState slot.id reason 1000).1 = final at hremoved
  rw [removeStream_eq] at hremoved
  have hheld : created.state.usage.ends.values.length = n :=
    (congrArg (fun ends : OrdMap ℕ EndRecord => ends.values.length) hcreated.ends).trans h.ends
  have hmore : created.state.usage.usageSeq < maxValue := by
    have hmachine := h.usageSeq
    have hafter := hcreated.usageSeq
    have hbound : 2 * maxEndRecords + 2 ≤ maxValue := by decide
    omega
  obtain ⟨hvalues, hnext⟩ := values_recordEnd hmore
    (slot.endRecord created.state.history reason 1000) fun _ => rfl
  refine ⟨?_, ?_, ?_, ?_, ?_, ?_⟩
  · have hhistory : final.history = created.state.history := congrArg GroupState.history hremoved
    rw [hhistory, hcreated.history]
    exact h.history
  · have hbuckets : final.buckets = created.state.buckets := congrArg GroupState.buckets hremoved
    rw [hbuckets]
    exact hbucket
  · rw [congrArg GroupState.slots hremoved, hcreated.slots, h.slots, hid]
    rfl
  · have husage := congrArg (fun state : GroupState => state.usage.ends.values.length) hremoved
    refine husage.trans ((congrArg length hvalues).trans ?_)
    rw [hheld, length_drop, length_append, hheld, length_singleton]
    omega
  · have hafter := congrArg (fun state : GroupState => state.usage.usageSeq) hremoved
    have hmachine := h.usageSeq
    have hcreated := hcreated.usageSeq
    show final.state.usage.usageSeq ≤ _
    rw [hafter, hnext]
    omega
  · have hlast : final.lastCreatedAtMs = created.state.lastCreatedAtMs :=
      congrArg GroupState.lastCreatedAtMs hremoved
    rw [hlast]
    exact hcreated.lastCreatedAtMs

theorem reachable_turnedOver (n : ℕ) : (turnedOver n).Reachable := by
  induction n with
  | zero => exact (ReachableBy.new.entry 1 _ trivial).entry 2 _ trivial
  | succ n ih => exact (ih.entry 3 _ trivial).entry 4 _ trivial

/-- Creating and deleting streams fills the group with end records. -/
theorem emptied_turnedOver {n : ℕ} (hn : n ≤ maxEndRecords) : Emptied (turnedOver n) n := by
  induction n with
  | zero =>
    have hgenesis : turnedOver 0 = { new with
          usage := new.usage.recordGenesis 1
          history := some ⟨1, 1, 0, 0, ⟨1, 1⟩, none⟩
          buckets := new.buckets.insert "bkt1" () } := by
      have hbucketId : validateBucketId "bkt1" = .ok () := validateBucketId_sample
      show (((new.newHistory 1 1 0 0 ⟨1, 1⟩ 0).1).createBucket "bkt1").1 = _
      rw [createBucket, hbucketId]
      rfl
    rw [hgenesis]
    exact ⟨rfl, rfl, rfl, rfl, Nat.zero_le _, Nat.zero_le _⟩
  | succ n ih => exact (ih (Nat.le_of_succ_le hn)).turnOver hn

end Full

/-- A sweep of a full group folds an end record that it was not asked to retire. -/
theorem sweep_folds_unasked :
    letI := Blake3.zero
    let machine := ((turnedOver maxEndRecords).applyEntry 3 (.createStream sampleStream "text/plain"
      [] false none none (some 2000) 1000)).1
    machine.Reachable ∧ ∃ record ∈ machine.usage.ends.values, 0 < record.seq ∧
      record ∉ (machine.applyEntry 4 (.sweep 2000 1 0)).1.usage.ends.values := by
  let blake3 := Blake3.zero
  have hreachable := (reachable_turnedOver maxEndRecords).entry 3 (.createStream sampleStream
    "text/plain" [] false none none (some 2000) 1000) trivial
  have hemptied := emptied_turnedOver (le_refl maxEndRecords)
  obtain ⟨slot, -, hexpires, hcreated⟩ := hemptied.created (le_refl _) 3 (some 2000)
  have hdue : streamIsExpired slot.metadata 2000 = true := by
    simp [streamIsExpired, streamExpiryAtMs, hexpires]
  exact ⟨hreachable, hemptied.folds hreachable.armed hcreated hdue⟩

end StreamStateMachine

end Ursula

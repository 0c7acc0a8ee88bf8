import Ursula.Stream.Apply

/-!
# The replicated state of a group

What every replica of a group agrees on, without the layout each of them keeps for itself: the keys
of the slots and the expiry index, the hot index, the counts of hot bytes and of removed state, and
the index of live versions by seq. The operations of the machine act on it.

## Main definitions

* `GroupState`, `StreamStateMachine.state`: the replicated state, and that of a machine
* `GroupState.putSlot`, `GroupState.restamp`, `GroupState.releaseSharedColdObjects`,
  `GroupState.removeStream`: the operations on it

## Main results

* `StreamStateMachine.state_putSlot` and its like: each operation of the machine is that of the
  replicated state
-/

namespace Ursula

open Word64 StreamRegistry List

/-! ## Slots by name -/

namespace StreamRegistry

variable (registry : StreamRegistry)

theorem keys_values_nodup : (registry.slots.map StreamSlot.id).Nodup := by
  rw [slots, OrdMap.values, map_map, nodup_iff_pairwise_ne, pairwise_map]
  refine registry.slotMap.sorted.imp_of_mem fun {a b} ha hb hlt heq => ?_
  -- slots of one name have one key
  have hkey : ∀ e ∈ registry.slotMap.entries, registry.keys.get? e.2.id = some e.1 := fun e he =>
    (registry.bijection _ _).mpr ⟨e.2, registry.slotMap.mem_entries.mp he, rfl⟩
  have hb' := hkey b hb
  rw [← show a.2.id = b.2.id from heq, hkey a ha] at hb'
  exact ne_of_lt hlt (Option.some.inj hb')

theorem slotsById_perm : registry.slotsById.Perm registry.slots :=
  perm_insertionSort _ _

theorem slotsById_sorted : registry.slotsById.Pairwise fun a b => a.id < b.id := by
  have hle : registry.slotsById.Pairwise fun a b => a.id ≤ b.id := by
    exact pairwise_insertionSort _ _
  have hne : registry.slotsById.Pairwise fun a b => a.id ≠ b.id := by
    have := (registry.slotsById_perm.map StreamSlot.id).nodup_iff.mpr registry.keys_values_nodup
    exact pairwise_map.mp this
  exact hle.imp₂ (fun _ _ h h' => lt_of_le_of_ne h h') hne

/-- The live slots in the order of their names. -/
def slotsByName : OrdMap BucketStreamId StreamSlot where
  entries := registry.slotsById.map fun slot => (slot.id, slot)
  sorted := List.pairwise_map.mpr registry.slotsById_sorted

theorem values_slotsByName : registry.slotsByName.values = registry.slotsById := by
  simp [slotsByName, OrdMap.values, Function.comp_def]

theorem get?_slotsByName (id : BucketStreamId) :
    registry.slotsByName.get? id = registry.slot id := by
  refine Option.ext fun slot => ?_
  rw [← OrdMap.mem_entries]
  simp only [slotsByName, mem_map, Prod.mk.injEq, registry.slotsById_perm.mem_iff, mem_slots]
  constructor
  · rintro ⟨s, hs, rfl, rfl⟩
    exact hs
  · intro h
    exact ⟨slot, (slot_id h).symm ▸ h, slot_id h, rfl⟩

theorem slotsByName_congr {a b : StreamRegistry} (h : ∀ id, a.slot id = b.slot id) :
    a.slotsByName = b.slotsByName :=
  OrdMap.ext_get? fun id => by rw [get?_slotsByName, get?_slotsByName, h]

theorem slotsByName_setSlot (slot : StreamSlot) :
    (registry.setSlot slot).slotsByName = registry.slotsByName.modify slot.id fun _ => slot := by
  refine OrdMap.ext_get? fun id => ?_
  rw [OrdMap.get?_modify, get?_slotsByName, get?_slotsByName, get?_slotsByName]
  cases h : registry.slot slot.id with
  | none =>
    rw [setSlot_of_none h]
    split_ifs with hid
    · rw [hid, h]
      rfl
    · rfl
  | some old => exact slot_setSlot h id

end StreamRegistry

/-! ## Ledgers without their index -/

namespace UsageLedger

variable (ledger : UsageLedger)

/-- The ledger without its index of live versions. -/
def withoutIndex : UsageLedger := { ledger with liveBySeq := ∅ }

theorem withoutIndex_foldFirstEndRecord :
    ledger.withoutIndex.foldFirstEndRecord =
      ledger.foldFirstEndRecord.map fun folded => (folded.1, folded.2.withoutIndex) := by
  unfold foldFirstEndRecord
  split
  · next h =>
    split
    · rfl
    · next h' => cases h.symm.trans h'
  · next seq record rest h =>
    split
    · next h' => cases h'.symm.trans h
    · next seq' record' rest' h' =>
      obtain ⟨⟨rfl, rfl⟩, rfl⟩ : (seq' = seq ∧ record' = record) ∧ rest' = rest := by
        simpa using h'.symm.trans h
      rfl

theorem withoutIndex_foldIfFull :
    ledger.withoutIndex.foldIfFull =
      (ledger.foldIfFull.1.withoutIndex, ledger.foldIfFull.2) := by
  unfold foldIfFull
  rw [withoutIndex_foldFirstEndRecord]
  show (if ledger.ends.size ≥ maxEndRecords then _ else _) = _
  split_ifs
  · cases ledger.foldFirstEndRecord with
    | none => rfl
    | some folded => rfl
  · rfl

theorem withoutIndex_recordEnd (record : ℕ → EndRecord) (hseq : ∀ seq, (record seq).seq = seq) :
    ledger.withoutIndex.recordEnd record hseq =
      ((ledger.recordEnd record hseq).1.withoutIndex, (ledger.recordEnd record hseq).2) := by
  have hfold := ledger.withoutIndex_foldIfFull
  have hledger := congrArg Prod.fst hfold
  have hfolded := congrArg Prod.snd hfold
  refine Prod.ext ?_ hfolded
  simp only [recordEnd, insertEnd, stamp, hledger]
  rfl

theorem withoutIndex_insertBucket (bucketId : String) :
    (ledger.insertBucket bucketId).withoutIndex = ledger.withoutIndex.insertBucket bucketId := by
  unfold insertBucket
  show _ = if ledger.retired.contains bucketId then _ else _
  split_ifs <;> rfl

end UsageLedger

/-! ## The replicated state -/

/-- What every replica of a group agrees on. -/
@[ext]
structure GroupState where
  buckets : OrdSet String
  erasedBuckets : OrdSet String
  slots : OrdMap BucketStreamId StreamSlot
  coldGc : ColdGcQueue
  refs : OrdMap String ℕ
  /-- The ledger without its index of live versions. -/
  usage : UsageLedger
  lastCreatedAtMs : ℕ
  history : Option HistoryEvent

namespace GroupState

/-- Writes a changed slot back under its own name. -/
def putSlot (state : GroupState) (slot : StreamSlot) : GroupState :=
  { state with slots := state.slots.modify slot.id fun _ => slot }

/-- Changes a live version's usage and gives it the next seq. -/
def restamp (state : GroupState) (streamId : BucketStreamId)
    (change : VersionUsage → VersionUsage) : GroupState :=
  match state.slots.get? streamId with
  | none => state
  | some slot =>
    { state.putSlot
        { slot with usage := { change slot.usage with seq := state.usage.nextSeq } } with
      usage := state.usage.stamp }

/-- Queues an object for reclamation. -/
def enqueueAfter (state : GroupState) (bucketId : String) (target : ColdGcTarget)
    (notBeforeMs : ℕ) : GroupState :=
  { state with coldGc := state.coldGc.enqueueAfter bucketId target notBeforeMs }

/-- Counts one more reference to a shared object. -/
def retainSharedColdObject (state : GroupState) (path : String) : GroupState :=
  { state with refs := state.refs.insert path ((state.refs.get? path).getD 0 + 1) }

/-- Drops one reference to a shared object, and queues it once it is unreferenced. -/
def releaseSharedColdObject (bucketId : String) (notBeforeMs : ℕ) (state : GroupState)
    (path : String) : GroupState :=
  match state.refs.get? path with
  | none => state
  | some refs =>
    if refs - 1 = 0 then
      { state with
        refs := state.refs.erase path
        coldGc := state.coldGc.enqueueAfter bucketId (.paths [path]) notBeforeMs }
    else
      { state with refs := state.refs.insert path (refs - 1) }

/-- Drops one reference to each shared object in `paths`. -/
def releaseSharedColdObjects (state : GroupState) (bucketId : String) (paths : List String)
    (notBeforeMs : ℕ) : GroupState :=
  paths.foldl (releaseSharedColdObject bucketId notBeforeMs) state

/-- A release changes the references and the queue. -/
theorem releaseSharedColdObjects_eq (state : GroupState) (bucketId : String) (paths : List String)
    (notBeforeMs : ℕ) :
    state.releaseSharedColdObjects bucketId paths notBeforeMs =
      { state with
        refs := (state.releaseSharedColdObjects bucketId paths notBeforeMs).refs
        coldGc := (state.releaseSharedColdObjects bucketId paths notBeforeMs).coldGc } := by
  unfold releaseSharedColdObjects
  induction paths generalizing state with
  | nil => rfl
  | cons path rest ih =>
    rw [foldl_cons, ih]
    unfold releaseSharedColdObject
    cases state.refs.get? path with
    | none => rfl
    | some refs =>
      dsimp only
      split_ifs <;> rfl

/-- Removes a stream: it leaves its end record, and its cold objects are queued. -/
def removeStream (state : GroupState) (slot : StreamSlot) (reason : StreamEnd) (nowMs : ℕ) :
    GroupState :=
  { state with
    slots := state.slots.erase slot.id
    usage := (state.usage.recordEnd (slot.endRecord state.history reason nowMs) fun _ => rfl).1
    coldGc := StreamStateMachine.enqueueRemoved state.coldGc slot }.releaseSharedColdObjects
      slot.id.bucketId slot.cold.sharedObjectPaths 0

/-- A removal takes the slot, leaves an end record and changes the references and the queue. -/
theorem removeStream_eq (state : GroupState) (slot : StreamSlot) (reason : StreamEnd) (nowMs : ℕ) :
    state.removeStream slot reason nowMs =
      { state with
        slots := state.slots.erase slot.id
        usage := (state.usage.recordEnd (slot.endRecord state.history reason nowMs) fun _ => rfl).1
        refs := (state.removeStream slot reason nowMs).refs
        coldGc := (state.removeStream slot reason nowMs).coldGc } :=
  releaseSharedColdObjects_eq ..

end GroupState

namespace StreamStateMachine

variable (machine : StreamStateMachine)

/-- The replicated state of a machine. -/
def state : GroupState where
  buckets := machine.buckets
  erasedBuckets := machine.erasedBuckets
  slots := machine.registry.slotsByName
  coldGc := machine.coldGc
  refs := machine.sharedColdObjectRefs
  usage := machine.usage.withoutIndex
  lastCreatedAtMs := machine.lastCreatedAtMs
  history := machine.history

variable (id : BucketStreamId)

theorem streamSlot_eq : machine.streamSlot id = machine.state.slots.get? id :=
  (machine.registry.get?_slotsByName id).symm

/-- Two machines with the same slots under their names, and the same rest. -/
theorem state_congr {a b : StreamStateMachine} (hslot : ∀ id, a.streamSlot id = b.streamSlot id)
    (hrest : { a.state with slots := ∅ } = { b.state with slots := ∅ }) : a.state = b.state := by
  simp only [GroupState.mk.injEq] at hrest
  obtain ⟨hb, he, -, hg, hr, hu, hl, hh⟩ := hrest
  exact GroupState.ext hb he (slotsByName_congr hslot) hg hr hu hl hh

/-! ### Operations that leave the replicated state alone -/

@[simp] theorem state_refreshTtlEntry : (machine.refreshTtlEntry id).state = machine.state :=
  state_congr (fun id' => (sameSlots_refreshTtl _ id).slot id') rfl

@[simp] theorem state_syncHotIndex : (machine.syncHotIndex id).state = machine.state := by
  unfold syncHotIndex
  split_ifs <;> rfl

@[simp] theorem state_addHotPayloadBytes (bytes : ℕ) :
    (machine.addHotPayloadBytes bytes).state = machine.state := rfl

@[simp] theorem state_removeHotPayloadBytes (bytes : ℕ) :
    (machine.removeHotPayloadBytes bytes).state = machine.state := rfl

@[simp] theorem state_popExpired (nowMs : ℕ) :
    { machine with registry := (machine.registry.popExpired nowMs).1 }.state = machine.state :=
  state_congr (fun id => (sameSlots_popExpired _ nowMs).slot id) rfl

/-! ### Operations on slots -/

@[simp] theorem state_putSlot (slot : StreamSlot) :
    (machine.putSlot slot).state = machine.state.putSlot slot := by
  refine GroupState.ext rfl rfl ?_ rfl rfl rfl rfl rfl
  exact slotsByName_setSlot _ _

variable {slot : StreamSlot}

theorem state_restampSlot {machine : StreamStateMachine} {key : StreamKey} (usage : VersionUsage) :
    (machine.restampSlot slot usage key).state =
      { machine.state.putSlot
          { slot with usage := { usage with seq := machine.usage.nextSeq } } with
        usage := machine.state.usage.stamp } := by
  refine GroupState.ext rfl rfl ?_ rfl rfl rfl rfl rfl
  exact slotsByName_setSlot _ _

theorem slotByKey_of_key {machine : StreamStateMachine} {id : BucketStreamId} {key : StreamKey}
    (h : machine.registry.key id = some key) :
    machine.registry.slotByKey key = machine.state.slots.get? id := by
  rw [← streamSlot_eq]
  exact (slot_of_get? h).symm

@[simp] theorem state_usageOnAppend (machine : StreamStateMachine) (id : BucketStreamId)
    (bytes records nowMs : ℕ) :
    (machine.usageOnAppend id bytes records nowMs).state =
      machine.state.restamp id fun usage => countAppend usage bytes records nowMs := by
  unfold usageOnAppend GroupState.restamp
  cases hkey : machine.registry.key id with
  | none =>
    have hnone : machine.state.slots.get? id = none := by
      rw [← streamSlot_eq]
      exact slot_eq_none_iff.mpr hkey
    simp only [hnone]
  | some key =>
    simp only [slotByKey_of_key hkey]
    cases machine.state.slots.get? id with
    | none => rfl
    | some slot => exact state_restampSlot _

@[simp] theorem state_usageOnSizeChange (machine : StreamStateMachine) (id : BucketStreamId) :
    (machine.usageOnSizeChange id).state = machine.state.restamp id fun usage => usage := by
  unfold usageOnSizeChange GroupState.restamp
  cases hkey : machine.registry.key id with
  | none =>
    have hnone : machine.state.slots.get? id = none := by
      rw [← streamSlot_eq]
      exact slot_eq_none_iff.mpr hkey
    simp only [hnone]
  | some key =>
    simp only [slotByKey_of_key hkey]
    cases machine.state.slots.get? id with
    | none => rfl
    | some slot => exact state_restampSlot _

theorem insertStreamSlot_eq_none_iff {machine : StreamStateMachine} :
    machine.insertStreamSlot slot = none ↔ ∃ old, machine.streamSlot slot.id = some old := by
  unfold insertStreamSlot streamSlot
  rw [← insert_eq_none_iff]
  cases machine.registry.insert slot <;> simp

theorem state_insertStreamSlot {machine inserted : StreamStateMachine} {key : StreamKey}
    (h : machine.insertStreamSlot slot = some (inserted, key)) :
    machine.streamSlot slot.id = none ∧
      inserted.state =
        { machine.state with slots := machine.state.slots.insert slot.id slot } := by
  unfold insertStreamSlot at h
  cases hins : machine.registry.insert slot with
  | none => simp [hins] at h
  | some pair =>
    obtain ⟨registry, key'⟩ := pair
    simp only [hins, Option.some.injEq, Prod.mk.injEq] at h
    obtain ⟨rfl, rfl⟩ := h
    refine ⟨(insert_spec hins).1, ?_⟩
    refine GroupState.ext rfl rfl (OrdMap.ext_get? fun id => ?_) rfl rfl rfl rfl rfl
    show registry.slotsByName.get? id = (machine.registry.slotsByName.insert slot.id slot).get? id
    rw [get?_slotsByName, slot_insert hins, OrdMap.get?_insert, get?_slotsByName]

/-! ### References and removals -/

@[simp] theorem state_retainSharedColdObject (machine : StreamStateMachine) (path : String) :
    (machine.retainSharedColdObject path).state = machine.state.retainSharedColdObject path := rfl

@[simp] theorem state_releaseSharedColdObject (machine : StreamStateMachine)
    (bucketId path : String) (notBeforeMs : ℕ) :
    (releaseSharedColdObject bucketId notBeforeMs machine path).state =
      GroupState.releaseSharedColdObject bucketId notBeforeMs machine.state path := by
  unfold releaseSharedColdObject GroupState.releaseSharedColdObject
  show _ = match machine.sharedColdObjectRefs.get? path with | none => _ | some refs => _
  cases machine.sharedColdObjectRefs.get? path with
  | none => rfl
  | some refs =>
    show StreamStateMachine.state (if refs - 1 = 0 then _ else _) = if refs - 1 = 0 then _ else _
    split_ifs <;> rfl

@[simp] theorem state_releaseSharedColdObjects (machine : StreamStateMachine) (bucketId : String)
    (paths : List String) (notBeforeMs : ℕ) :
    (machine.releaseSharedColdObjects bucketId paths notBeforeMs).state =
      machine.state.releaseSharedColdObjects bucketId paths notBeforeMs := by
  unfold releaseSharedColdObjects GroupState.releaseSharedColdObjects
  induction paths generalizing machine with
  | nil => rfl
  | cons path rest ih =>
    rw [foldl_cons, foldl_cons, ih, state_releaseSharedColdObject]

theorem state_usageOnEnd (machine : StreamStateMachine) (slot : StreamSlot) (reason : StreamEnd)
    (nowMs : ℕ) :
    (machine.usageOnEnd slot reason nowMs).state =
      { machine.state with
        usage := (machine.state.usage.recordEnd (slot.endRecord machine.history reason nowMs)
          fun _ => rfl).1 } := by
  refine GroupState.ext rfl rfl rfl rfl rfl ?_ rfl rfl
  have h := UsageLedger.withoutIndex_recordEnd (machine.usage.unindexLive slot.usage.seq)
    (slot.endRecord machine.history reason nowMs) fun _ => rfl
  exact (congrArg Prod.fst h).symm

/-- A removal finds a live stream, or changes nothing. -/
theorem removeStreamState_of_none {machine : StreamStateMachine} {id : BucketStreamId}
    (h : machine.streamSlot id = none) (reason : StreamEnd) (nowMs : ℕ) :
    machine.removeStreamState id reason nowMs = (machine, false) := by
  unfold removeStreamState
  have hnone : machine.registry.remove id = none := remove_eq_none_iff.mpr h
  split
  · rfl
  · next hsome => cases hnone.symm.trans hsome

theorem state_removeStreamState {machine : StreamStateMachine}
    (h : machine.streamSlot slot.id = some slot) (reason : StreamEnd) (nowMs : ℕ) :
    (machine.removeStreamState slot.id reason nowMs).2 = true ∧
      (machine.removeStreamState slot.id reason nowMs).1.state =
        machine.state.removeStream slot reason nowMs := by
  unfold removeStreamState
  split
  · next hnone =>
    cases (remove_eq_none_iff.mp hnone).symm.trans h
  · next slot' registry hrem =>
    obtain rfl : slot' = slot := Option.some.inj ((remove_spec hrem).1.symm.trans h)
    refine ⟨rfl, ?_⟩
    rw [state_releaseSharedColdObjects, GroupState.removeStream]
    congr 1
    have husage := congrArg GroupState.usage (state_usageOnEnd machine slot' reason nowMs)
    refine GroupState.ext rfl rfl (OrdMap.ext_get? fun id => ?_) rfl rfl husage rfl rfl
    show registry.slotsByName.get? id = (machine.registry.slotsByName.erase slot'.id).get? id
    rw [get?_slotsByName, slot_remove hrem, OrdMap.get?_erase, get?_slotsByName]

end StreamStateMachine

end Ursula

import Ursula.Lib.MinHeap
import Ursula.Stream.ColdState
import Ursula.Stream.HotBuffer

/-!
# The stream registry

The slots of a group by stream name, with the index of their expiries. Names and slots form a
bijection, and the registry carries it: every name points at a live slot of that name, and every
slot is reached through its own name. Keys are never given twice.

The expiry index keeps at most one armed entry for each stream. An entry that pops before its
stream's current expiry is pushed again at that expiry, so an armed entry may be early and is never
late.

## Main definitions

* `StreamSlot`: the state of one live stream
* `StreamRegistry`: names, slots and expiry index
* `StreamRegistry.insert`, `StreamRegistry.remove`, `StreamRegistry.setSlot`,
  `StreamRegistry.refreshTtl`, `StreamRegistry.popExpired`

## Main results

* `StreamRegistry.slot_insert`, `StreamRegistry.slot_remove`, `StreamRegistry.slot_setSlot`: how an
  update changes what a name finds
* `StreamRegistry.mem_slots`: the slots are those their names find
-/

namespace Ursula

open Word64

/-! ## Slots -/

/-- The key of a slot. A registry never gives one twice. -/
abbrev StreamKey := ℕ

/-- The state of one live stream. -/
structure StreamSlot where
  metadata : StreamMetadata
  hotBuffer : HotBuffer
  cold : StreamColdState
  retainedOffset : ℕ
  visibleSnapshot : Option StreamVisibleSnapshot
  producers : OrdMap String ProducerState
  retiredEpochWatermark : Option ℕ
  history : ℕ
  inherited : Option InheritedHistory
  usage : VersionUsage

/-- The stream's name. -/
abbrev StreamSlot.id (slot : StreamSlot) : BucketStreamId := slot.metadata.streamId

/-- When a stream expires. -/
def streamExpiryAtMs (stream : StreamMetadata) : Option ℕ :=
  match stream.streamExpiresAtMs with
  | some expiresAtMs => some expiresAtMs
  | none =>
    stream.streamTtlSeconds.map fun ttlSeconds =>
      satAdd stream.lastTtlTouchAtMs (satMul ttlSeconds 1000)

/-- Whether a stream has expired at `nowMs`. -/
def streamIsExpired (stream : StreamMetadata) (nowMs : ℕ) : Bool :=
  match streamExpiryAtMs stream with
  | none => false
  | some expiresAtMs => nowMs ≥ expiresAtMs

/-! ## The expiry index -/

/-- An entry of the expiry index. -/
structure TtlEntry where
  expiresAtMs : ℕ
  streamId : BucketStreamId
  key : StreamKey

namespace TtlEntry

/-- The entry as a triple, ordered by expiry, then by name, then by key. -/
def toLexTriple (entry : TtlEntry) : ℕ ×ₗ BucketStreamId ×ₗ StreamKey :=
  toLex (entry.expiresAtMs, toLex (entry.streamId, entry.key))

theorem toLexTriple_injective : Function.Injective toLexTriple := by
  rintro ⟨e, id, k⟩ ⟨e', id', k'⟩ h
  simpa [toLexTriple] using h

instance : LinearOrder TtlEntry := LinearOrder.lift' toLexTriple toLexTriple_injective

end TtlEntry

/-! ## The registry -/

/-- The slots of a group by stream name, with the index of their expiries. -/
structure StreamRegistry where
  keys : OrdMap BucketStreamId StreamKey
  slotMap : OrdMap StreamKey StreamSlot
  nextKey : StreamKey
  ttl : MinHeap TtlEntry
  armed : OrdMap StreamKey ℕ
  /-- Every name points at a live slot of that name, and every slot is reached through its name. -/
  bijection : ∀ id key, keys.get? id = some key ↔
    ∃ slot, slotMap.get? key = some slot ∧ slot.id = id
  /-- No live slot has a key that is still to be given. -/
  fresh : ∀ key slot, slotMap.get? key = some slot → key < nextKey

namespace StreamRegistry

/-- The registry of a new group. -/
def empty : StreamRegistry where
  keys := ∅
  slotMap := ∅
  nextKey := 0
  ttl := MinHeap.empty
  armed := ∅
  bijection := by simp
  fresh := by simp

variable (registry : StreamRegistry)

/-- The key of a name. -/
def key (streamId : BucketStreamId) : Option StreamKey :=
  registry.keys.get? streamId

/-- The slot of a key. -/
def slotByKey (key : StreamKey) : Option StreamSlot :=
  registry.slotMap.get? key

/-- The slot of a name. -/
def slot (streamId : BucketStreamId) : Option StreamSlot :=
  (registry.key streamId).bind registry.slotByKey

/-- Every live slot, in an order that can differ between replicas. -/
def slots : List StreamSlot := registry.slotMap.values

/-- Whether there is no live slot. -/
def isEmpty : Bool := registry.keys.isEmpty

/-- Whether a name is live. -/
def containsKey (streamId : BucketStreamId) : Bool :=
  registry.keys.contains streamId

/-- The names of a bucket's live slots, in order. -/
def bucketStreamIds (bucketId : String) : List BucketStreamId :=
  registry.keys.keys.filter fun streamId => streamId.bucketId = bucketId

/-- Pushes an entry at a stream's expiry unless an armed one is at or before it. -/
def armTtlEntry (streamId : BucketStreamId) (key : StreamKey) :
    StreamRegistry :=
  match (registry.slotByKey key).bind fun slot => streamExpiryAtMs slot.metadata with
  | none => registry
  | some expiresAtMs =>
    if (registry.armed.get? key).any fun armedAt => armedAt ≤ expiresAtMs then
      registry
    else
      { registry with
        armed := registry.armed.insert key expiresAtMs
        ttl := registry.ttl.push { expiresAtMs, streamId, key } }

/-- The armed entries of live slots. -/
def armedEntries : List TtlEntry :=
  registry.armed.entries.filterMap fun (key, expiresAtMs) =>
    (registry.slotByKey key).map fun slot => { expiresAtMs, streamId := slot.id, key }

/-- Drops every unarmed entry once they outnumber the armed ones. -/
def rebuildTtlIfBloated : StreamRegistry :=
  if registry.ttl.size ≤ registry.armed.size * 2 then registry
  else { registry with ttl := MinHeap.ofList registry.armedEntries }

/-- The registry with a fresh slot, unarmed. -/
def insertSlot (slot : StreamSlot) (h : registry.keys.get? slot.id = none) : StreamRegistry where
  keys := registry.keys.insert slot.id registry.nextKey
  slotMap := registry.slotMap.insert registry.nextKey slot
  nextKey := registry.nextKey + 1
  ttl := registry.ttl
  armed := registry.armed
  bijection := by
    intro id key
    rw [OrdMap.get?_insert, OrdMap.get?_insert]
    have hkey : ∀ {s}, registry.slotMap.get? key = some s → key ≠ registry.nextKey := by
      rintro s hs rfl
      exact lt_irrefl _ (registry.fresh _ _ hs)
    by_cases hid : id = slot.id
    · subst hid
      by_cases hk : key = registry.nextKey
      · simp [hk]
      · have := registry.bijection slot.id key
        simp only [if_true, hk, if_false, h] at this ⊢
        constructor
        · intro hkeq
          exact absurd (Option.some.inj hkeq).symm hk
        · intro hex
          exact absurd (this.mpr hex) (by simp)
    · by_cases hk : key = registry.nextKey
      · subst hk
        simp only [hid, if_false, if_true, Option.some.injEq]
        constructor
        · intro hkeys
          obtain ⟨s, hs, -⟩ := (registry.bijection id registry.nextKey).mp hkeys
          exact absurd rfl (hkey hs)
        · rintro ⟨s, rfl, hs⟩
          exact absurd hs.symm hid
      · simpa [hid, hk] using registry.bijection id key
  fresh := by
    intro key s hs
    rw [OrdMap.get?_insert] at hs
    split_ifs at hs with hk
    · exact hk ▸ Nat.lt_succ_self _
    · exact Nat.lt_succ_of_lt (registry.fresh _ _ hs)

/-- Inserts a fresh slot and returns its key, unless its name is taken. -/
def insert (slot : StreamSlot) : Option (StreamRegistry × StreamKey) :=
  if h : registry.keys.get? slot.id = none then
    some ((registry.insertSlot slot h).armTtlEntry slot.id registry.nextKey, registry.nextKey)
  else
    none

/-- The registry without a stream, its expiry entries as they were. -/
def removeSlot (streamId : BucketStreamId) (key : StreamKey)
    (h : registry.keys.get? streamId = some key) : StreamRegistry where
  keys := registry.keys.erase streamId
  slotMap := registry.slotMap.erase key
  nextKey := registry.nextKey
  ttl := registry.ttl
  armed := registry.armed.erase key
  bijection := by
    intro id key'
    rw [OrdMap.get?_erase, OrdMap.get?_erase]
    obtain ⟨s₀, hs₀, hid₀⟩ := (registry.bijection streamId key).mp h
    by_cases hid : id = streamId
    · subst hid
      simp only [if_true]
      constructor
      · exact fun h' => absurd h' (by simp)
      · rintro ⟨s, hs, hsid⟩
        split_ifs at hs with hk
        have := (registry.bijection id key').mpr ⟨s, hs, hsid⟩
        rw [h] at this
        exact absurd (Option.some.inj this).symm hk
    · by_cases hk : key' = key
      · subst hk
        simp only [hid, if_false, if_true]
        constructor
        · intro hkeys
          obtain ⟨s, hs, hsid⟩ := (registry.bijection id key').mp hkeys
          rw [hs₀] at hs
          exact absurd (hsid.symm.trans ((Option.some.inj hs) ▸ hid₀)) hid
        · rintro ⟨s, hs, -⟩
          exact absurd hs (by simp)
      · simpa [hid, hk] using registry.bijection id key'
  fresh := by
    intro key' s hs
    rw [OrdMap.get?_erase] at hs
    split_ifs at hs
    exact registry.fresh _ _ hs

/-- Removes a stream and returns its slot. Its expiry entry is left for `popExpired`. -/
def remove (streamId : BucketStreamId) :
    Option (StreamSlot × StreamRegistry) :=
  match h : registry.keys.get? streamId with
  | none => none
  | some key =>
    (registry.slotByKey key).map fun slot =>
      (slot, (registry.removeSlot streamId key h).rebuildTtlIfBloated)

/-- Writes a slot back under its own name: a change to a live slot in place. -/
def setSlot (slot : StreamSlot) : StreamRegistry :=
  match h : registry.keys.get? slot.id with
  | none => registry
  | some key =>
    { registry with
      slotMap := registry.slotMap.insert key slot
      bijection := by
        intro id key'
        obtain ⟨s₀, hs₀, hid₀⟩ := (registry.bijection slot.id key).mp h
        rw [OrdMap.get?_insert]
        by_cases hk : key' = key
        · subst hk
          simp only [if_true, Option.some.injEq, exists_eq_left']
          constructor
          · intro hkeys
            obtain ⟨s, hs, hsid⟩ := (registry.bijection id key').mp hkeys
            rw [hs₀] at hs
            exact hid₀.symm.trans ((Option.some.inj hs) ▸ hsid)
          · rintro rfl
            exact h
        · simpa [hk] using registry.bijection id key'
      fresh := by
        intro key' s hs
        rw [OrdMap.get?_insert] at hs
        split_ifs at hs with hk
        · obtain ⟨s₀, hs₀, -⟩ := (registry.bijection slot.id key).mp h
          exact hk ▸ registry.fresh _ _ hs₀
        · exact registry.fresh _ _ hs }

/-- Restamps a stream's expiry entry after its expiry may have changed. -/
def refreshTtl (streamId : BucketStreamId) : StreamRegistry :=
  match registry.key streamId with
  | none => registry
  | some key => (registry.armTtlEntry streamId key).rebuildTtlIfBloated

/-- The loop of `popExpired`, with fuel. -/
def popExpiredLoop (nowMs : ℕ) : (fuel : ℕ) → StreamRegistry →
    StreamRegistry × Option BucketStreamId
  | 0, registry => (registry, none)
  | fuel + 1, registry =>
    match registry.ttl.peek with
    | none => (registry, none)
    | some entry =>
      if entry.expiresAtMs > nowMs then
        (registry, none)
      else
        let popped := { registry with ttl := registry.ttl.pop }
        let unarmed := { popped with armed := popped.armed.erase entry.key }
        -- a stale entry: its stream is gone, or another entry of it is armed
        if popped.key entry.streamId ≠ some entry.key then
          popExpiredLoop nowMs fuel popped
        else if popped.armed.get? entry.key ≠ some entry.expiresAtMs then
          popExpiredLoop nowMs fuel popped
        else
          match popped.slotByKey entry.key with
          | none => popExpiredLoop nowMs fuel unarmed
          | some slot =>
            match streamExpiryAtMs slot.metadata with
            | none => popExpiredLoop nowMs fuel unarmed
            | some expiresAtMs =>
              if expiresAtMs > entry.expiresAtMs then
                -- renewed since it was armed
                popExpiredLoop nowMs fuel
                  { popped with
                    armed := popped.armed.insert entry.key expiresAtMs
                    ttl := popped.ttl.push { entry with expiresAtMs } }
              else if expiresAtMs = entry.expiresAtMs then
                if streamIsExpired slot.metadata nowMs then
                  (unarmed, some entry.streamId)
                else
                  popExpiredLoop nowMs fuel unarmed
              else
                popExpiredLoop nowMs fuel unarmed

/-- The next stream that has expired at `nowMs`, discarding stale entries along the way. An entry
is pushed again at most once, so twice the entries is enough fuel. -/
def popExpired (nowMs : ℕ) : StreamRegistry × Option BucketStreamId :=
  popExpiredLoop nowMs (2 * registry.ttl.size + 1) registry

/-- Whether the first expiry entry is due at `nowMs`. -/
def ttlFrontDue (nowMs : ℕ) : Bool :=
  registry.ttl.peek.any fun front => front.expiresAtMs ≤ nowMs

/-! ### Lookups -/

variable {registry} {id : BucketStreamId}

theorem slot_id {slot : StreamSlot} (h : registry.slot id = some slot) : slot.id = id := by
  obtain ⟨key, hkey, hslot⟩ := Option.bind_eq_some_iff.mp h
  obtain ⟨s, hs, hid⟩ := (registry.bijection id key).mp hkey
  obtain rfl : s = slot := Option.some.inj (hs.symm.trans hslot)
  exact hid

theorem exists_key {slot : StreamSlot} (h : registry.slot id = some slot) :
    ∃ key, registry.key id = some key ∧ registry.slotByKey key = some slot :=
  Option.bind_eq_some_iff.mp h

theorem slot_eq_none_iff : registry.slot id = none ↔ registry.keys.get? id = none := by
  constructor
  · intro h
    cases hkey : registry.keys.get? id with
    | none => rfl
    | some key =>
      obtain ⟨s, hs, -⟩ := (registry.bijection id key).mp hkey
      simp [slot, StreamRegistry.key, hkey, slotByKey, hs] at h
  · intro h
    simp [slot, StreamRegistry.key, h]

theorem containsKey_iff :
    registry.containsKey id = true ↔ ∃ slot, registry.slot id = some slot := by
  rw [← Option.ne_none_iff_exists', Ne, slot_eq_none_iff, containsKey, OrdMap.contains,
    Option.isSome_iff_ne_none]

theorem slotByKey_iff {key : StreamKey} {slot : StreamSlot} :
    registry.slotByKey key = some slot ↔
      registry.key slot.id = some key ∧ registry.slot slot.id = some slot := by
  constructor
  · intro h
    have hkey : registry.key slot.id = some key := (registry.bijection _ _).mpr ⟨slot, h, rfl⟩
    exact ⟨hkey, Option.bind_eq_some_iff.mpr ⟨key, hkey, h⟩⟩
  · rintro ⟨hkey, hslot⟩
    obtain ⟨key', hkey', hslot'⟩ := exists_key hslot
    obtain rfl : key' = key := Option.some.inj (hkey'.symm.trans hkey)
    exact hslot'

theorem mem_slots {slot : StreamSlot} :
    slot ∈ registry.slots ↔ registry.slot slot.id = some slot := by
  rw [slots, OrdMap.mem_values]
  constructor
  · rintro ⟨key, hkey⟩
    exact (slotByKey_iff.mp hkey).2
  · intro h
    obtain ⟨key, -, hkey⟩ := exists_key h
    exact ⟨key, hkey⟩

/-! ### Updates -/

/-- Two registries with the same names and slots, whatever their expiry indexes. -/
structure SameSlots (a b : StreamRegistry) : Prop where
  keys : a.keys = b.keys
  slotMap : a.slotMap = b.slotMap
  nextKey : a.nextKey = b.nextKey

theorem SameSlots.refl (a : StreamRegistry) : SameSlots a a := ⟨rfl, rfl, rfl⟩

theorem SameSlots.trans {a b c : StreamRegistry} (hab : SameSlots a b) (hbc : SameSlots b c) :
    SameSlots a c :=
  ⟨hab.keys.trans hbc.keys, hab.slotMap.trans hbc.slotMap, hab.nextKey.trans hbc.nextKey⟩

theorem SameSlots.key {a b : StreamRegistry} (h : SameSlots a b) (id : BucketStreamId) :
    a.key id = b.key id := by
  rw [StreamRegistry.key, h.keys, StreamRegistry.key]

theorem SameSlots.slotByKey {a b : StreamRegistry} (h : SameSlots a b) (key : StreamKey) :
    a.slotByKey key = b.slotByKey key := by
  rw [StreamRegistry.slotByKey, h.slotMap, StreamRegistry.slotByKey]

theorem SameSlots.slot {a b : StreamRegistry} (h : SameSlots a b) (id : BucketStreamId) :
    a.slot id = b.slot id := by
  rw [StreamRegistry.slot, h.key, StreamRegistry.slot]
  exact congrArg _ (funext h.slotByKey)

variable (registry)

theorem sameSlots_armTtlEntry (id : BucketStreamId) (key : StreamKey) :
    SameSlots (registry.armTtlEntry id key) registry := by
  unfold armTtlEntry
  split
  · exact SameSlots.refl _
  · split_ifs
    · exact SameSlots.refl _
    · exact ⟨rfl, rfl, rfl⟩

theorem sameSlots_rebuildTtlIfBloated : SameSlots registry.rebuildTtlIfBloated registry := by
  unfold rebuildTtlIfBloated
  split_ifs
  · exact SameSlots.refl _
  · exact ⟨rfl, rfl, rfl⟩

theorem sameSlots_refreshTtl (id : BucketStreamId) :
    SameSlots (registry.refreshTtl id) registry := by
  unfold refreshTtl
  split
  · exact SameSlots.refl _
  · exact (sameSlots_rebuildTtlIfBloated _).trans (sameSlots_armTtlEntry _ _ _)

theorem sameSlots_popExpiredLoop (nowMs fuel : ℕ) (registry : StreamRegistry) :
    SameSlots (popExpiredLoop nowMs fuel registry).1 registry := by
  induction fuel generalizing registry with
  | zero => exact SameSlots.refl _
  | succ fuel ih =>
    unfold popExpiredLoop
    split
    · exact SameSlots.refl _
    dsimp only
    split_ifs
    · exact SameSlots.refl _
    · exact (ih _).trans ⟨rfl, rfl, rfl⟩
    · exact (ih _).trans ⟨rfl, rfl, rfl⟩
    · split
      · exact (ih _).trans ⟨rfl, rfl, rfl⟩
      split
      · exact (ih _).trans ⟨rfl, rfl, rfl⟩
      split_ifs
      · exact (ih _).trans ⟨rfl, rfl, rfl⟩
      · exact ⟨rfl, rfl, rfl⟩
      · exact (ih _).trans ⟨rfl, rfl, rfl⟩
      · exact (ih _).trans ⟨rfl, rfl, rfl⟩

/-- Popping an expiry changes no slot. -/
theorem sameSlots_popExpired (nowMs : ℕ) : SameSlots (registry.popExpired nowMs).1 registry :=
  sameSlots_popExpiredLoop _ _ _

theorem slot_of_get? {registry : StreamRegistry} {key : StreamKey}
    (h : registry.keys.get? id = some key) : registry.slot id = registry.slotMap.get? key := by
  simp [slot, StreamRegistry.key, h, slotByKey]

theorem keys_setSlot (registry : StreamRegistry) (slot : StreamSlot) :
    (registry.setSlot slot).keys = registry.keys := by
  unfold setSlot
  split <;> rfl

variable {registry}

theorem slot_setSlot {old slot : StreamSlot} (h : registry.slot slot.id = some old)
    (id : BucketStreamId) :
    (registry.setSlot slot).slot id = if id = slot.id then some slot else registry.slot id := by
  obtain ⟨key, hkey, hold⟩ := exists_key h
  have hset : (registry.setSlot slot).slotMap = registry.slotMap.insert key slot := by
    unfold setSlot
    split
    · next hnone => cases hnone.symm.trans hkey
    · next k hk =>
      obtain rfl : k = key := Option.some.inj (hk.symm.trans hkey)
      rfl
  cases hid : registry.keys.get? id with
  | none =>
    have hne : id ≠ slot.id := by
      rintro rfl
      cases hid.symm.trans hkey
    rw [if_neg hne, slot_eq_none_iff.mpr hid]
    exact slot_eq_none_iff.mpr (by rw [keys_setSlot, hid])
  | some key' =>
    rw [slot_of_get? hid, slot_of_get? (by rw [keys_setSlot, hid]), hset, OrdMap.get?_insert]
    by_cases hkk : key' = key
    · subst hkk
      obtain ⟨s, hs, hsid⟩ := (registry.bijection id key').mp hid
      obtain rfl : s = old := Option.some.inj (hs.symm.trans hold)
      rw [if_pos rfl, if_pos (hsid.symm.trans (slot_id h))]
    · have hne : id ≠ slot.id := by
        rintro rfl
        exact hkk (Option.some.inj (hid.symm.trans hkey))
      rw [if_neg hkk, if_neg hne]

theorem setSlot_of_slot {slot : StreamSlot} (h : registry.slot slot.id = some slot) :
    registry.setSlot slot = registry := by
  obtain ⟨key, hkey, hslot⟩ := Option.bind_eq_some_iff.mp h
  have hsame : registry.slotMap.insert key slot = registry.slotMap := OrdMap.insert_of_get? hslot
  unfold setSlot
  split
  · rfl
  · next key' hkey' =>
    cases hkey.symm.trans hkey'
    obtain ⟨keys, slotMap, nextKey, ttl, armed, bijection, fresh⟩ := registry
    simp only [StreamRegistry.mk.injEq, true_and, and_true]
    exact hsame

theorem setSlot_of_none {slot : StreamSlot} (h : registry.slot slot.id = none) :
    registry.setSlot slot = registry := by
  have hnone := slot_eq_none_iff.mp h
  unfold setSlot
  split
  · rfl
  · next key hkey => cases hnone.symm.trans hkey

theorem insert_eq_none_iff {slot : StreamSlot} :
    registry.insert slot = none ↔ ∃ old, registry.slot slot.id = some old := by
  rw [← Option.ne_none_iff_exists', Ne, slot_eq_none_iff]
  unfold insert
  split_ifs with h <;> simp [h]

/-- What an insertion makes: the slot under its name and under a fresh key. -/
theorem insert_spec {registry registry' : StreamRegistry} {slot : StreamSlot} {key : StreamKey}
    (h : registry.insert slot = some (registry', key)) :
    registry.slot slot.id = none ∧ key = registry.nextKey ∧
      registry'.keys = registry.keys.insert slot.id key ∧
      registry'.slotMap = registry.slotMap.insert key slot := by
  unfold insert at h
  split_ifs at h with hnone
  obtain ⟨rfl, rfl⟩ := h
  have hsame := sameSlots_armTtlEntry (registry.insertSlot slot hnone) slot.id registry.nextKey
  exact ⟨slot_eq_none_iff.mpr hnone, rfl, hsame.keys, hsame.slotMap⟩

theorem slot_insert {registry registry' : StreamRegistry} {slot : StreamSlot} {key : StreamKey}
    (h : registry.insert slot = some (registry', key)) (id : BucketStreamId) :
    registry'.slot id = if id = slot.id then some slot else registry.slot id := by
  obtain ⟨hnone, rfl, hkeys, hslots⟩ := insert_spec h
  simp only [StreamRegistry.slot, StreamRegistry.key, hkeys, OrdMap.get?_insert]
  split_ifs with hid
  · simp [slotByKey, hslots]
  cases hk : registry.keys.get? id with
  | none => rfl
  | some k =>
    obtain ⟨s, hs, -⟩ := (registry.bijection id k).mp hk
    have hne : k ≠ registry.nextKey := ne_of_lt (registry.fresh _ _ hs)
    simp [slotByKey, hslots, OrdMap.get?_insert, hne]

theorem remove_eq_none_iff : registry.remove id = none ↔ registry.slot id = none := by
  unfold remove
  split
  · next hnone => simp [slot_eq_none_iff.mpr hnone]
  · next key hkey =>
    obtain ⟨s, hs, -⟩ := (registry.bijection id key).mp hkey
    simp [slotByKey, hs, slot_of_get? hkey]

/-- What a removal makes: the name and its slot are gone. -/
theorem remove_spec {registry registry' : StreamRegistry} {slot : StreamSlot}
    (h : registry.remove id = some (slot, registry')) :
    registry.slot id = some slot ∧ ∃ key, registry.key id = some key ∧
      registry'.keys = registry.keys.erase id ∧ registry'.slotMap = registry.slotMap.erase key := by
  unfold remove at h
  split at h
  · exact absurd h (by simp)
  · next key hkey =>
    obtain ⟨s, hs, heq⟩ := Option.map_eq_some_iff.mp h
    obtain ⟨rfl, rfl⟩ := Prod.mk.inj heq
    have hsame := sameSlots_rebuildTtlIfBloated (registry.removeSlot id key hkey)
    exact ⟨(slot_of_get? hkey).trans hs, key, hkey, hsame.keys, hsame.slotMap⟩

theorem slot_remove {registry registry' : StreamRegistry} {slot : StreamSlot}
    (h : registry.remove id = some (slot, registry')) (id' : BucketStreamId) :
    registry'.slot id' = if id' = id then none else registry.slot id' := by
  obtain ⟨hslot, key, hkey, hkeys, hslots⟩ := remove_spec h
  simp only [StreamRegistry.slot, StreamRegistry.key, hkeys, OrdMap.get?_erase]
  split_ifs with hid
  · rfl
  cases hk : registry.keys.get? id' with
  | none => rfl
  | some k =>
    have hne : k ≠ key := by
      rintro rfl
      obtain ⟨s, hs, hsid⟩ := (registry.bijection id' k).mp hk
      obtain ⟨s', hs', hsid'⟩ := (registry.bijection id k).mp hkey
      obtain rfl : s = s' := Option.some.inj (hs.symm.trans hs')
      exact hid (hsid.symm.trans hsid')
    simp [slotByKey, hslots, OrdMap.get?_erase, hne]

end StreamRegistry

end Ursula

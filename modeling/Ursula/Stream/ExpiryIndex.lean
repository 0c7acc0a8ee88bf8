import Ursula.Stream.Registry

/-!
# The expiry index

Every stream with an expiry is armed: the index holds an entry of it that is due no later than the
stream is. A stale or early entry that pops is discarded or pushed again, so the stream that
`popExpired` returns is the first one that has expired, by expiry and then by name, whatever stale
entries the index holds.

## Main definitions

* `StreamRegistry.ArmedBut`, `StreamRegistry.Armed`: the streams are armed
* `StreamRegistry.pending`: the pops left to `popExpired`, which its fuel exceeds
* `StreamRegistry.FirstDue`: the first stream that has expired
* `StreamRegistry.popRound`, `StreamRegistry.Returns`: one round of the loop of `popExpired`, and
  its runs

## Main results

* `StreamRegistry.popExpired_spec`: what `popExpired` returns
* `StreamRegistry.popExpired_returns`: its loop ends
* `StreamRegistry.Armed.setSlot`, `StreamRegistry.Armed.refreshTtl`, `StreamRegistry.Armed.insert`,
  `StreamRegistry.ArmedBut.remove`: the registry's updates keep the streams armed
-/

namespace Ursula

open Word64 StreamRegistry MinHeap OrdMap

namespace StreamRegistry

/-- Every stream with an expiry, but one, is armed no later than it. An armed key is a live
stream's, and its entry is in the index. -/
structure ArmedBut (due : Option BucketStreamId) (registry : StreamRegistry) : Prop where
  held : ∀ key armedAt, registry.armed.get? key = some armedAt →
    ∃ slot, registry.slotByKey key = some slot ∧ ⟨armedAt, slot.id, key⟩ ∈ registry.ttl
  timely : ∀ key slot expiresAtMs, registry.slotByKey key = some slot → some slot.id ≠ due →
    streamExpiryAtMs slot.metadata = some expiresAtMs →
    ∃ armedAt ≤ expiresAtMs, registry.armed.get? key = some armedAt

/-- Every stream with an expiry is armed no later than it. -/
abbrev Armed (registry : StreamRegistry) : Prop := registry.ArmedBut none

theorem armed_empty : empty.Armed where
  held := by simp [empty]
  timely := by simp [empty, slotByKey]

/-! ## Updates -/

section Updates

variable {registry : StreamRegistry} {due : Option BucketStreamId}

variable {slot : StreamSlot}

/-- An expiry entry of a stream is armed, or an armed one is at or before it. -/
theorem ArmedBut.armTtlEntry (h : registry.ArmedBut due) {id : BucketStreamId} {key : StreamKey}
    (hslot : registry.slotByKey key = some slot) (hid : slot.id = id)
    (hdue : due = none ∨ due = some id) : (registry.armTtlEntry id key).Armed := by
  have hother : ∀ key' slot' expiresAtMs, registry.slotByKey key' = some slot' → key' ≠ key →
      streamExpiryAtMs slot'.metadata = some expiresAtMs →
      ∃ armedAt ≤ expiresAtMs, registry.armed.get? key' = some armedAt := by
    intro key' slot' expiresAtMs hslot' hne hexpiry
    refine h.timely key' slot' expiresAtMs hslot' (fun heq => ?_) hexpiry
    obtain rfl | rfl := hdue
    · cases heq
    -- a name has one key
    have hkey' := (slotByKey_iff.mp hslot').1
    rw [Option.some.inj heq, ← hid, (slotByKey_iff.mp hslot).1] at hkey'
    exact hne (Option.some.inj hkey').symm
  unfold StreamRegistry.armTtlEntry
  rw [hslot]
  cases hexpiry : streamExpiryAtMs slot.metadata with
  | none =>
    simp only [Option.bind_some, hexpiry]
    refine ⟨h.held, fun key' slot' expiresAtMs hslot' _ hexpiry' => ?_⟩
    by_cases hkey : key' = key
    · subst hkey
      cases hslot.symm.trans hslot'
      cases hexpiry.symm.trans hexpiry'
    · exact hother key' slot' expiresAtMs hslot' hkey hexpiry'
  | some expiresAtMs =>
    simp only [Option.bind_some, hexpiry]
    split_ifs with harmed
    · refine ⟨h.held, fun key' slot' expiresAtMs' hslot' _ hexpiry' => ?_⟩
      by_cases hkey : key' = key
      · subst hkey
        cases hslot.symm.trans hslot'
        cases hexpiry.symm.trans hexpiry'
        simp only [Option.any_eq_true, decide_eq_true_eq] at harmed
        obtain ⟨armedAt, harmedAt, hle⟩ := harmed
        exact ⟨armedAt, hle, harmedAt⟩
      · exact hother key' slot' expiresAtMs' hslot' hkey hexpiry'
    · refine ⟨fun key' armedAt harmedAt => ?_, fun key' slot' expiresAtMs' hslot' _ hexpiry' => ?_⟩
      · simp only [get?_insert] at harmedAt
        split_ifs at harmedAt with hkey
        · subst hkey
          cases harmedAt
          exact ⟨slot, hslot, mem_push.mpr (.inl (by rw [hid]))⟩
        · obtain ⟨slot', hslot', hmem⟩ := h.held key' armedAt harmedAt
          exact ⟨slot', hslot', mem_push.mpr (.inr hmem)⟩
      · simp only [get?_insert]
        by_cases hkey : key' = key
        · subst hkey
          cases hslot.symm.trans hslot'
          cases hexpiry.symm.trans hexpiry'
          exact ⟨expiresAtMs, le_refl _, by simp⟩
        · simp only [if_neg hkey]
          exact hother key' slot' expiresAtMs' hslot' hkey hexpiry'

/-- A rebuilt index holds the armed entries. -/
theorem ArmedBut.rebuildTtlIfBloated (h : registry.ArmedBut due) :
    registry.rebuildTtlIfBloated.ArmedBut due := by
  unfold StreamRegistry.rebuildTtlIfBloated
  split_ifs
  · exact h
  · refine ⟨fun key armedAt harmedAt => ?_, h.timely⟩
    obtain ⟨slot, hslot, -⟩ := h.held key armedAt harmedAt
    refine ⟨slot, hslot, mem_ofList.mpr ?_⟩
    refine List.mem_filterMap.mpr ⟨(key, armedAt), registry.armed.mem_entries.mpr harmedAt, ?_⟩
    dsimp only
    rw [hslot]
    rfl

theorem Armed.refreshTtl (h : registry.Armed) (id : BucketStreamId) :
    (registry.refreshTtl id).Armed := by
  unfold StreamRegistry.refreshTtl
  cases hkey : registry.key id with
  | none => exact h
  | some key =>
    obtain ⟨slot, hslot, hid⟩ := (registry.bijection id key).mp hkey
    exact (h.armTtlEntry hslot hid (.inl rfl)).rebuildTtlIfBloated

theorem Armed.insert {registry' : StreamRegistry} {key : StreamKey} (h : registry.Armed)
    (hinsert : registry.insert slot = some (registry', key)) :
    registry'.Armed := by
  unfold StreamRegistry.insert at hinsert
  split_ifs at hinsert with hnone
  obtain ⟨rfl, rfl⟩ := hinsert
  have hslot : (registry.insertSlot slot hnone).slotByKey registry.nextKey = some slot :=
    get?_insert_self ..
  have hother : ∀ {key slot'}, registry.slotByKey key = some slot' → key ≠ registry.nextKey ∧
      (registry.insertSlot slot hnone).slotByKey key = some slot' := by
    intro key slot' hslot'
    have hne : key ≠ registry.nextKey := ne_of_lt (registry.fresh key slot' hslot')
    refine ⟨hne, ?_⟩
    show (registry.slotMap.insert registry.nextKey slot).get? key = some slot'
    rw [get?_insert, if_neg hne]
    exact hslot'
  have hbut : (registry.insertSlot slot hnone).ArmedBut (some slot.id) := by
    refine ⟨fun key armedAt harmedAt => ?_, fun key slot' expiresAtMs hslot' hdue hexpiry => ?_⟩
    · obtain ⟨slot', hslot', hmem⟩ := h.held key armedAt harmedAt
      exact ⟨slot', (hother hslot').2, hmem⟩
    · change (registry.slotMap.insert registry.nextKey slot).get? key = some slot' at hslot'
      rw [get?_insert] at hslot'
      split_ifs at hslot' with hkey
      · cases hslot'
        exact absurd rfl hdue
      · exact h.timely key slot' expiresAtMs hslot' (by simp) hexpiry
  exact hbut.armTtlEntry hslot rfl (.inr rfl)

/-- A removal leaves the other streams armed. -/
theorem ArmedBut.remove {registry' : StreamRegistry} {id : BucketStreamId}
    (h : registry.ArmedBut due) (hdue : due = none ∨ due = some id)
    (hremove : registry.remove id = some (slot, registry')) : registry'.Armed := by
  unfold StreamRegistry.remove at hremove
  split at hremove
  · cases hremove
  · next key hkey =>
    obtain ⟨slot', hslot', heq⟩ := Option.map_eq_some_iff.mp hremove
    obtain ⟨rfl, rfl⟩ := Prod.mk.inj heq
    refine ArmedBut.rebuildTtlIfBloated ⟨fun key' armedAt harmedAt => ?_,
      fun key' other expiresAtMs hother _ hexpiry => ?_⟩
    · simp only [removeSlot, get?_erase] at harmedAt
      split_ifs at harmedAt with hne
      obtain ⟨other, hother, hmem⟩ := h.held key' armedAt harmedAt
      refine ⟨other, ?_, hmem⟩
      show (registry.slotMap.erase key).get? key' = some other
      rw [get?_erase, if_neg hne]
      exact hother
    · change (registry.slotMap.erase key).get? key' = some other at hother
      rw [get?_erase] at hother
      split_ifs at hother with hne
      have hname : some other.id ≠ due := by
        rintro heq'
        obtain rfl | rfl := hdue
        · cases heq'
        · have hkey' := (slotByKey_iff.mp hother).1
          rw [Option.some.inj heq'] at hkey'
          exact hne (Option.some.inj (hkey'.symm.trans hkey))
      obtain ⟨armedAt, hle, harmedAt⟩ := h.timely key' other expiresAtMs hother hname hexpiry
      refine ⟨armedAt, hle, ?_⟩
      show (registry.armed.erase key).get? key' = some armedAt
      rw [get?_erase, if_neg hne]
      exact harmedAt

/-- A slot that is written back may expire later. -/
theorem Armed.setSlot (h : registry.Armed)
    (hlater : ∀ old expiresAtMs, registry.slot slot.id = some old →
      streamExpiryAtMs slot.metadata = some expiresAtMs →
      ∃ before ≤ expiresAtMs, streamExpiryAtMs old.metadata = some before) :
    (registry.setSlot slot).Armed := by
  unfold StreamRegistry.setSlot
  split
  · exact h
  · next key hkey =>
    obtain ⟨old, hold, hid⟩ := (registry.bijection slot.id key).mp hkey
    refine ⟨fun key' armedAt harmedAt => ?_, fun key' slot' expiresAtMs hslot' hdue hexpiry => ?_⟩
    · obtain ⟨slot', hslot', hmem⟩ := h.held key' armedAt harmedAt
      by_cases hne : key' = key
      · subst hne
        cases hold.symm.trans hslot'
        refine ⟨slot, get?_insert_self .., ?_⟩
        show ⟨armedAt, slot.id, key'⟩ ∈ registry.ttl
        rwa [← hid]
      · refine ⟨slot', ?_, hmem⟩
        show (registry.slotMap.insert key slot).get? key' = some slot'
        rw [get?_insert, if_neg hne]
        exact hslot'
    · change (registry.slotMap.insert key slot).get? key' = some slot' at hslot'
      rw [get?_insert] at hslot'
      split_ifs at hslot' with hne
      · cases hslot'
        subst hne
        have hslotOld : registry.slot slot.id = some old := (slot_of_get? hkey).trans hold
        obtain ⟨before, hle, hbefore⟩ := hlater old expiresAtMs hslotOld hexpiry
        obtain ⟨armedAt, harmedLe, harmedAt⟩ := h.timely key' old before hold (by simp) hbefore
        exact ⟨armedAt, harmedLe.trans hle, harmedAt⟩
      · exact h.timely key' slot' expiresAtMs hslot' hdue hexpiry

end Updates

/-! ## The first stream that has expired -/

/-- The stream has expired, and no other expires before it; one that expires with it has a greater
name. -/
structure FirstDue (registry : StreamRegistry) (nowMs : ℕ) (id : BucketStreamId) : Prop where
  expired : ∃ slot expiresAtMs, registry.slot id = some slot ∧
    streamExpiryAtMs slot.metadata = some expiresAtMs ∧ expiresAtMs ≤ nowMs ∧
    ∀ other slot' expiresAtMs', registry.slot other = some slot' →
      streamExpiryAtMs slot'.metadata = some expiresAtMs' →
      expiresAtMs < expiresAtMs' ∨ expiresAtMs = expiresAtMs' ∧ id ≤ other

variable {nowMs : ℕ}

theorem FirstDue.congr {a b : StreamRegistry} (h : SameSlots a b) {id : BucketStreamId}
    (hdue : a.FirstDue nowMs id) : b.FirstDue nowMs id := by
  obtain ⟨slot, expiresAtMs, hslot, hexpiry, hle, hfirst⟩ := hdue.expired
  refine ⟨slot, expiresAtMs, h.slot id ▸ hslot, hexpiry, hle,
    fun other slot' expiresAtMs' hother => ?_⟩
  exact hfirst other slot' expiresAtMs' ((h.slot other).trans hother)

theorem FirstDue.streamIsExpired {registry : StreamRegistry} {id : BucketStreamId}
    (h : registry.FirstDue nowMs id) :
    ∃ slot, registry.slot id = some slot ∧ streamIsExpired slot.metadata nowMs = true := by
  obtain ⟨slot, expiresAtMs, hslot, hexpiry, hle, -⟩ := h.expired
  refine ⟨slot, hslot, ?_⟩
  unfold Ursula.streamIsExpired
  rw [hexpiry]
  exact decide_eq_true hle

/-- What `popExpired` returns: nothing, when no stream has expired, or the first that has. -/
inductive Popped (nowMs : ℕ) (registry : StreamRegistry) :
    StreamRegistry × Option BucketStreamId → Prop
  | nothing {after : StreamRegistry} (harmed : after.Armed)
      (hnone : ∀ id slot, registry.slot id = some slot →
        streamIsExpired slot.metadata nowMs = false) :
      Popped nowMs registry (after, none)
  | stream {after : StreamRegistry} {id : BucketStreamId} (harmed : after.ArmedBut (some id))
      (hfirst : registry.FirstDue nowMs id) : Popped nowMs registry (after, some id)

theorem Popped.congr {a b : StreamRegistry} (h : SameSlots a b)
    {result : StreamRegistry × Option BucketStreamId} (hpopped : Popped nowMs a result) :
    Popped nowMs b result := by
  cases hpopped with
  | nothing harmed hnone =>
    exact .nothing harmed fun id slot hslot => hnone id slot ((h.slot id).trans hslot)
  | stream harmed hfirst => exact .stream harmed (hfirst.congr h)

/-- Whether an armed entry is earlier than its stream's expiry. -/
def early (registry : StreamRegistry) (entry : TtlEntry) : Bool :=
  registry.armed.get? entry.key = some entry.expiresAtMs ∧
    ((registry.slotByKey entry.key).bind fun slot => streamExpiryAtMs slot.metadata).any
      fun expiresAtMs => entry.expiresAtMs < expiresAtMs

/-- How often an entry pops: an early one is pushed again. -/
def pops (registry : StreamRegistry) (entry : TtlEntry) : ℕ := if registry.early entry then 2 else 1

/-- What bounds the rounds of a pop. -/
def pending (registry : StreamRegistry) : ℕ := registry.ttl.total registry.pops

theorem pops_pos (registry : StreamRegistry) (entry : TtlEntry) : 0 < registry.pops entry := by
  unfold pops
  split_ifs <;> omega

theorem pops_mono {a b : StreamRegistry} {entry : TtlEntry}
    (h : a.early entry = true → b.early entry = true) : a.pops entry ≤ b.pops entry := by
  unfold pops
  split_ifs with ha hb
  · exact le_refl _
  · exact absurd (h ha) hb
  · omega
  · exact le_refl _

theorem early_iff {registry : StreamRegistry} {entry : TtlEntry} :
    registry.early entry = true ↔ registry.armed.get? entry.key = some entry.expiresAtMs ∧
      ∃ slot expiresAtMs, registry.slotByKey entry.key = some slot ∧
        streamExpiryAtMs slot.metadata = some expiresAtMs ∧ entry.expiresAtMs < expiresAtMs := by
  unfold early
  simp only [decide_eq_true_eq, Option.any_eq_true, Option.bind_eq_some_iff]
  constructor
  · rintro ⟨harmed, expiresAtMs, ⟨slot, hslot, hexpiry⟩, hlt⟩
    exact ⟨harmed, slot, expiresAtMs, hslot, hexpiry, hlt⟩
  · rintro ⟨harmed, slot, expiresAtMs, hslot, hexpiry, hlt⟩
    exact ⟨harmed, expiresAtMs, ⟨slot, hslot, hexpiry⟩, hlt⟩

theorem pending_le (registry : StreamRegistry) : registry.pending ≤ 2 * registry.ttl.size :=
  total_le (fun entry => by unfold pops; split_ifs <;> omega) _

section Pops

variable {registry : StreamRegistry} {entry : TtlEntry}

/-- An entry that is not its live stream's armed one pops once. -/
theorem Armed.discard (h : registry.Armed) (hpeek : registry.ttl.peek = some entry)
    (hstale : registry.key entry.streamId = some entry.key →
      registry.armed.get? entry.key ≠ some entry.expiresAtMs) :
    { registry with ttl := registry.ttl.pop }.Armed ∧
      { registry with ttl := registry.ttl.pop }.pending < registry.pending := by
  refine ⟨⟨fun key armedAt harmedAt => ?_, h.timely⟩, ?_⟩
  · obtain ⟨slot, hslot, hmem⟩ := h.held key armedAt harmedAt
    refine ⟨slot, hslot, mem_pop_of_ne hpeek hmem ?_⟩
    rintro rfl
    exact hstale (slotByKey_iff.mp hslot).1 harmedAt
  · have hpos := registry.pops_pos entry
    have htotal := total_of_peek registry.pops hpeek
    show registry.ttl.pop.total registry.pops < registry.ttl.total registry.pops
    omega

variable {slot : StreamSlot}

section Sound

variable (h : registry.Armed)
include h

section Peek

variable (hpeek : registry.ttl.peek = some entry)
include hpeek

theorem Armed.unarm
    (hslot : registry.slotByKey entry.key = some slot) (hid : slot.id = entry.streamId)
    {due : Option BucketStreamId}
    (hdue : due = some entry.streamId ∨ due = none ∧ streamExpiryAtMs slot.metadata = none) :
    { registry with
      ttl := registry.ttl.pop
      armed := registry.armed.erase entry.key }.ArmedBut due ∧
      { registry with
        ttl := registry.ttl.pop
        armed := registry.armed.erase entry.key }.pending < registry.pending := by
  refine ⟨⟨fun key armedAt harmedAt => ?_, fun key slot' expiresAtMs hslot' hne hexpiry => ?_⟩, ?_⟩
  · simp only [get?_erase] at harmedAt
    split_ifs at harmedAt with hkey
    obtain ⟨slot', hslot', hmem⟩ := h.held key armedAt harmedAt
    refine ⟨slot', hslot', mem_pop_of_ne hpeek hmem ?_⟩
    rintro rfl
    exact hkey rfl
  · have hkey : key ≠ entry.key := by
      rintro rfl
      cases hslot.symm.trans hslot'
      obtain rfl | ⟨-, hnone⟩ := hdue
      · exact hne (by rw [hid])
      · cases hnone.symm.trans hexpiry
    simp only [get?_erase, if_neg hkey]
    exact h.timely key slot' expiresAtMs hslot' (by simp) hexpiry
  · have hpos := registry.pops_pos entry
    have htotal := total_of_peek registry.pops hpeek
    have hmono := total_mono (fun other => @pops_mono { registry with
        ttl := registry.ttl.pop
        armed := registry.armed.erase entry.key } registry other fun hearly => by
        obtain ⟨harmed, hlate⟩ := early_iff.mp hearly
        simp only [get?_erase] at harmed
        split_ifs at harmed
        exact early_iff.mpr ⟨harmed, hlate⟩) registry.ttl.pop
    refine lt_of_le_of_lt hmono ?_
    show registry.ttl.pop.total registry.pops < registry.ttl.total registry.pops
    omega

/-- An early entry is pushed again at its stream's expiry, and is early no more. -/
theorem Armed.rearm {expiresAtMs : ℕ}
    (harmed : registry.armed.get? entry.key = some entry.expiresAtMs)
    (hslot : registry.slotByKey entry.key = some slot) (hid : slot.id = entry.streamId)
    (hexpiry : streamExpiryAtMs slot.metadata = some expiresAtMs)
    (hlate : entry.expiresAtMs < expiresAtMs) :
    { registry with
      ttl := registry.ttl.pop.push { entry with expiresAtMs := expiresAtMs }
      armed := registry.armed.insert entry.key expiresAtMs }.Armed ∧
      { registry with
        ttl := registry.ttl.pop.push { entry with expiresAtMs := expiresAtMs }
        armed := registry.armed.insert entry.key expiresAtMs }.pending < registry.pending := by
  refine ⟨⟨fun key armedAt harmedAt => ?_, fun key slot' expiresAtMs' hslot' _ hexpiry' => ?_⟩, ?_⟩
  · simp only [get?_insert] at harmedAt
    split_ifs at harmedAt with hkey
    · subst hkey
      cases harmedAt
      exact ⟨slot, hslot, mem_push.mpr (.inl (by rw [hid]))⟩
    · obtain ⟨slot', hslot', hmem⟩ := h.held key armedAt harmedAt
      refine ⟨slot', hslot', mem_push.mpr (.inr (mem_pop_of_ne hpeek hmem ?_))⟩
      rintro rfl
      exact hkey rfl
  · simp only [get?_insert]
    by_cases hkey : key = entry.key
    · subst hkey
      cases hslot.symm.trans hslot'
      cases hexpiry.symm.trans hexpiry'
      exact ⟨expiresAtMs, le_refl _, by simp⟩
    · simp only [if_neg hkey]
      exact h.timely key slot' expiresAtMs' hslot' (by simp) hexpiry'
  · set after : StreamRegistry :=
      { registry with
        ttl := registry.ttl.pop.push { entry with expiresAtMs := expiresAtMs }
        armed := registry.armed.insert entry.key expiresAtMs } with hafter
    have hearly : registry.pops entry = 2 :=
      if_pos (early_iff.mpr ⟨harmed, slot, expiresAtMs, hslot, hexpiry, hlate⟩)
    -- no entry of the stream is early now
    have hown : ∀ other : TtlEntry, other.key = entry.key → after.early other = false := by
      intro other hkey
      by_contra hother
      obtain ⟨harmed', slot', expiresAtMs', hslot', hexpiry', hlt⟩ :=
        early_iff.mp (by simpa using hother)
      rw [hkey] at harmed' hslot'
      cases hslot.symm.trans hslot'
      cases hexpiry.symm.trans hexpiry'
      have := Option.some.inj ((get?_insert_self ..).symm.trans harmed')
      omega
    have hpushed : after.pops { entry with expiresAtMs := expiresAtMs } = 1 := by
      unfold pops
      rw [hown { entry with expiresAtMs := expiresAtMs } rfl]
      rfl
    have hmono := total_mono (fun other => @pops_mono after registry other fun hearly' => by
      by_cases hkey : other.key = entry.key
      · exact absurd (hown other hkey) (by simp [hearly'])
      · obtain ⟨harmed', hlate'⟩ := early_iff.mp hearly'
        simp only [hafter, get?_insert, if_neg hkey] at harmed'
        exact early_iff.mpr ⟨harmed', hlate'⟩) registry.ttl.pop
    have htotal := total_of_peek registry.pops hpeek
    have hpush := total_push after.pops registry.ttl.pop { entry with expiresAtMs := expiresAtMs }
    show (registry.ttl.pop.push _).total after.pops < registry.ttl.total registry.pops
    omega

/-- The entry at the front of the index is at or before every stream's expiry. -/
theorem Armed.peek_le
    {other : BucketStreamId} {expiresAtMs : ℕ} (hslot : registry.slot other = some slot)
    (hexpiry : streamExpiryAtMs slot.metadata = some expiresAtMs) :
    entry.expiresAtMs < expiresAtMs ∨
      entry.expiresAtMs = expiresAtMs ∧ entry.streamId ≤ other := by
  obtain ⟨key, -, hkey⟩ := exists_key hslot
  obtain ⟨armedAt, hle, harmedAt⟩ := h.timely key slot expiresAtMs hkey (by simp) hexpiry
  obtain ⟨slot', hslot', hmem⟩ := h.held key armedAt harmedAt
  cases hkey.symm.trans hslot'
  have hfront := MinHeap.peek_le hpeek hmem
  rw [slot_id hslot] at hfront
  obtain hlt | ⟨heq, hrest⟩ := (Prod.Lex.le_iff ..).mp hfront
  · exact .inl (lt_of_lt_of_le hlt hle)
  obtain hlt | heq' := lt_or_eq_of_le hle
  · exact .inl (lt_of_eq_of_lt heq hlt)
  refine .inr ⟨heq.trans heq', ?_⟩
  obtain hlt | ⟨heq'', -⟩ := (Prod.Lex.le_iff ..).mp hrest
  · exact le_of_lt hlt
  · exact le_of_eq heq''

end Peek

/-- Without an entry that is due, no stream has expired. -/
theorem Armed.none_due (hpeek : ∀ entry, registry.ttl.peek = some entry → nowMs < entry.expiresAtMs)
    {id : BucketStreamId} (hslot : registry.slot id = some slot) :
    streamIsExpired slot.metadata nowMs = false := by
  unfold streamIsExpired
  cases hexpiry : streamExpiryAtMs slot.metadata with
  | none => rfl
  | some expiresAtMs =>
    obtain ⟨key, -, hkey⟩ := exists_key hslot
    obtain ⟨armedAt, hle, harmedAt⟩ := h.timely key slot expiresAtMs hkey (by simp) hexpiry
    obtain ⟨slot', hslot', hmem⟩ := h.held key armedAt harmedAt
    cases hfront : registry.ttl.peek with
    | none =>
      have hnil : registry.ttl.elems = [] := List.head?_eq_none_iff.mp hfront
      rw [mem_def, hnil] at hmem
      cases hmem
    | some entry =>
      have hlate := hpeek entry hfront
      have := h.peek_le hfront hslot hexpiry
      simp only [ge_iff_le, decide_eq_false_iff_not, not_le]
      omega

end Sound

/-- One round of the loop of `popExpired`: the registry to go on with, or the result. -/
def popRound (nowMs : ℕ) (registry : StreamRegistry) :
    StreamRegistry ⊕ (StreamRegistry × Option BucketStreamId) :=
  match registry.ttl.peek with
  | none => .inr (registry, none)
  | some entry =>
    if entry.expiresAtMs > nowMs then
      .inr (registry, none)
    else
      let popped := { registry with ttl := registry.ttl.pop }
      let unarmed := { popped with armed := popped.armed.erase entry.key }
      if popped.key entry.streamId ≠ some entry.key then
        .inl popped
      else if popped.armed.get? entry.key ≠ some entry.expiresAtMs then
        .inl popped
      else
        match popped.slotByKey entry.key with
        | none => .inl unarmed
        | some slot =>
          match streamExpiryAtMs slot.metadata with
          | none => .inl unarmed
          | some expiresAtMs =>
            if expiresAtMs > entry.expiresAtMs then
              .inl
                { popped with
                  armed := popped.armed.insert entry.key expiresAtMs
                  ttl := popped.ttl.push { entry with expiresAtMs } }
            else if expiresAtMs = entry.expiresAtMs then
              if streamIsExpired slot.metadata nowMs then .inr (unarmed, some entry.streamId)
              else .inl unarmed
            else
              .inl unarmed

theorem popExpiredLoop_succ (nowMs fuel : ℕ) (registry : StreamRegistry) :
    popExpiredLoop nowMs (fuel + 1) registry =
      match popRound nowMs registry with
      | .inl after => popExpiredLoop nowMs fuel after
      | .inr result => result := by
  rw [popExpiredLoop, popRound]
  cases registry.ttl.peek with
  | none => rfl
  | some entry =>
    dsimp only
    by_cases hlate : entry.expiresAtMs > nowMs
    · rw [if_pos hlate, if_pos hlate]
    rw [if_neg hlate, if_neg hlate]
    by_cases hkey : key { registry with ttl := registry.ttl.pop } entry.streamId ≠ some entry.key
    · rw [if_pos hkey, if_pos hkey]
    rw [if_neg hkey, if_neg hkey]
    by_cases harmed : registry.armed.get? entry.key ≠ some entry.expiresAtMs
    · rw [if_pos harmed, if_pos harmed]
    rw [if_neg harmed, if_neg harmed]
    cases slotByKey { registry with ttl := registry.ttl.pop } entry.key with
    | none => rfl
    | some slot =>
      dsimp only
      cases streamExpiryAtMs slot.metadata with
      | none => rfl
      | some expiresAtMs =>
        dsimp only
        split_ifs <;> rfl

/-- What a round does: it leaves fewer pops, or returns the first stream that has expired. -/
inductive Round (nowMs : ℕ) (registry : StreamRegistry) :
    StreamRegistry ⊕ (StreamRegistry × Option BucketStreamId) → Prop
  | again {after : StreamRegistry} (hsame : SameSlots after registry) (harmed : after.Armed)
      (hpending : after.pending < registry.pending) : Round nowMs registry (.inl after)
  | done {result : StreamRegistry × Option BucketStreamId}
    (hpopped : Popped nowMs registry result) : Round nowMs registry (.inr result)

theorem popRound_spec (h : registry.Armed) (nowMs : ℕ) :
    Round nowMs registry (popRound nowMs registry) := by
  unfold popRound
  cases hpeek : registry.ttl.peek with
  | none => exact .done (.nothing h fun id slot hslot => h.none_due (by simp [hpeek]) hslot)
  | some entry =>
    dsimp only
    by_cases hlate : entry.expiresAtMs > nowMs
    · rw [if_pos hlate]
      refine .done (.nothing h fun id slot hslot => h.none_due (fun front hfront => ?_) hslot)
      cases hpeek.symm.trans hfront
      exact hlate
    rw [if_neg hlate]
    by_cases hkey : key { registry with ttl := registry.ttl.pop } entry.streamId ≠ some entry.key
    · rw [if_pos hkey]
      obtain ⟨harmed, hpending⟩ := h.discard hpeek fun hsame => absurd hsame hkey
      exact .again ⟨rfl, rfl, rfl⟩ harmed hpending
    rw [if_neg hkey]
    by_cases harmed : registry.armed.get? entry.key ≠ some entry.expiresAtMs
    · rw [if_pos harmed]
      obtain ⟨harmed, hpending⟩ := h.discard hpeek fun _ => harmed
      exact .again ⟨rfl, rfl, rfl⟩ harmed hpending
    rw [if_neg harmed]
    push Not at hkey harmed
    obtain ⟨slot, hslot, hid⟩ := (registry.bijection entry.streamId entry.key).mp hkey
    have hfound : slotByKey { registry with ttl := registry.ttl.pop } entry.key = some slot := hslot
    rw [hfound]
    dsimp only
    cases hexpiry : streamExpiryAtMs slot.metadata with
    | none =>
      obtain ⟨harmed, hpending⟩ := h.unarm hpeek hslot hid (.inr ⟨rfl, hexpiry⟩)
      exact .again ⟨rfl, rfl, rfl⟩ harmed hpending
    | some expiresAtMs =>
      dsimp only
      by_cases hearly : expiresAtMs > entry.expiresAtMs
      · rw [if_pos hearly]
        obtain ⟨harmed, hpending⟩ := h.rearm hpeek harmed hslot hid hexpiry hearly
        exact .again ⟨rfl, rfl, rfl⟩ harmed hpending
      · -- an armed entry is not late, so this one is due with its stream
        obtain ⟨armedAt, hle, harmedAt⟩ := h.timely entry.key slot expiresAtMs hslot
          (by simp) hexpiry
        cases harmed.symm.trans harmedAt
        have heq : expiresAtMs = entry.expiresAtMs := le_antisymm (not_lt.mp hearly) hle
        have hexpired : streamIsExpired slot.metadata nowMs = true := by
          unfold streamIsExpired
          rw [hexpiry]
          simp only [ge_iff_le, decide_eq_true_eq]
          omega
        rw [if_neg hearly, if_pos heq, if_pos hexpired]
        refine .done (.stream (h.unarm hpeek hslot hid (.inl rfl)).1
          ⟨slot, expiresAtMs, ?_, hexpiry,
          heq ▸ not_lt.mp hlate, fun other slot' expiresAtMs' hother hexpiry' => ?_⟩)
        · exact (slot_of_get? hkey).trans hslot
        · rw [heq]
          exact h.peek_le hpeek hother hexpiry'

/-- The loop of `popExpired` returns a result after some rounds. -/
inductive Returns (nowMs : ℕ) : StreamRegistry → StreamRegistry × Option BucketStreamId → Prop
  | done {registry : StreamRegistry} {result : StreamRegistry × Option BucketStreamId}
      (hround : popRound nowMs registry = .inr result) : Returns nowMs registry result
  | again {registry after : StreamRegistry} {result : StreamRegistry × Option BucketStreamId}
      (hround : popRound nowMs registry = .inl after) (hrest : Returns nowMs after result) :
      Returns nowMs registry result

/-- With fuel for the pops left, the loop returns the first stream that has expired. -/
theorem popExpiredLoop_spec {fuel : ℕ} {registry : StreamRegistry} (h : registry.Armed)
    (hfuel : registry.pending < fuel) :
    Popped nowMs registry (popExpiredLoop nowMs fuel registry) ∧
      Returns nowMs registry (popExpiredLoop nowMs fuel registry) := by
  induction fuel generalizing registry with
  | zero => omega
  | succ fuel ih =>
    have hspec := popRound_spec h nowMs
    rw [popExpiredLoop_succ]
    cases hround : popRound nowMs registry with
    | inl after =>
      rw [hround] at hspec
      cases hspec with
      | again hsame harmed hpending =>
        obtain ⟨hpopped, hreturns⟩ := ih harmed (by omega)
        exact ⟨hpopped.congr hsame, .again hround hreturns⟩
    | inr result =>
      rw [hround] at hspec
      cases hspec with
      | done hpopped => exact ⟨hpopped, .done hround⟩

/-- **Expiry.** `popExpired` returns the first stream that has expired. -/
theorem popExpired_spec (h : registry.Armed) (nowMs : ℕ) :
    Popped nowMs registry (registry.popExpired nowMs) :=
  (popExpiredLoop_spec h (Nat.lt_succ_of_le registry.pending_le)).1

/-- The loop of `popExpired` ends, and its fuel is enough. -/
theorem popExpired_returns (h : registry.Armed) (nowMs : ℕ) :
    Returns nowMs registry (registry.popExpired nowMs) :=
  (popExpiredLoop_spec h (Nat.lt_succ_of_le registry.pending_le)).2

end Pops

end StreamRegistry

end Ursula

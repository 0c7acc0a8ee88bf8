import Ursula.Stream.ProducerEffect
import Ursula.Stream.Swept

/-!
# The bound on a stream's producers

After every command a stream holds at most `maxProducersPerStream` producer records, unless an
imported one had more. A new producer is admitted only when the cap has room for it, or when a
record that was not seen for an hour makes room after the command; a record seen within the hour is
never evicted. `TidyStream` retires what is idle or over the cap in bounded steps until nothing is
left to do.

## Main definitions

* `StreamStateMachine.CappedReachable`: the machines of a group whose imports keep to the cap

## Main results

* `StreamSlot.size_tidy`, `StreamSlot.tidyVictims_eq_nil_iff`: a step of `TidyStream` retires a
  record exactly when there is debt
* `ProducerEffect.capped`: every entry keeps to the cap
* `producers_bounded_and_tidied`: the bound, the refusals, the evictions and the tidying
-/

namespace Ursula

open Word64 StreamStateMachine StreamSlot List OrdMap

/-! ## Retirements -/

namespace StreamSlot

variable (slot : StreamSlot) (producerId : String) (retired : List String)

theorem get?_retireProducer (producerId' : String) :
    (slot.retireProducer producerId).producers.get? producerId' =
      if producerId' = producerId then none else slot.producers.get? producerId' := by
  unfold retireProducer
  cases hget : slot.producers.get? producerId with
  | none =>
    split_ifs with heq
    · rw [heq]
      exact hget
    · rfl
  | some record => exact get?_erase ..

theorem get?_retireProducers :
    (slot.retireProducers retired).producers.get? producerId =
      if producerId ∈ retired then none else slot.producers.get? producerId := by
  unfold retireProducers
  induction retired generalizing slot with
  | nil => simp
  | cons first rest ih =>
    rw [foldl_cons, ih, get?_retireProducer]
    by_cases hrest : producerId ∈ rest <;> by_cases hfirst : producerId = first <;>
      simp [hrest, hfirst]

variable {slot producerId retired} {record : ProducerState}

theorem size_retireProducers (hnodup : retired.Nodup)
    (hrecords : ∀ producerId ∈ retired, ∃ record, slot.producers.get? producerId = some record) :
    (slot.retireProducers retired).producers.size + retired.length = slot.producers.size := by
  induction retired generalizing slot with
  | nil => rfl
  | cons first rest ih =>
    obtain ⟨hfirst, hrest⟩ := nodup_cons.mp hnodup
    obtain ⟨record, hrecord⟩ := hrecords first (by simp)
    have hsize : (slot.retireProducer first).producers.size + 1 = slot.producers.size := by
      unfold retireProducer
      rw [hrecord]
      exact size_erase hrecord
    have hih := @ih (slot.retireProducer first) hrest fun producerId hmem => by
      rw [get?_retireProducer, if_neg (ne_of_mem_of_not_mem hmem hfirst)]
      exact hrecords producerId (by simp [hmem])
    rw [length_cons]
    have hstep : slot.retireProducers (first :: rest) =
      (slot.retireProducer first).retireProducers rest := rfl
    rw [hstep]
    omega

theorem floor_retireProducers {epoch : ℕ} (h : atOrBelow slot.retiredEpochWatermark epoch = true) :
    atOrBelow (slot.retireProducers retired).retiredEpochWatermark epoch = true := by
  induction retired generalizing slot with
  | nil => exact h
  | cons first rest ih =>
    refine ih ?_
    unfold retireProducer
    split
    · exact h
    · exact atOrBelow_raiseFloor.mpr (.inl h)

theorem epoch_retireProducers (hmem : producerId ∈ retired)
    (hrecord : slot.producers.get? producerId = some record) :
    atOrBelow (slot.retireProducers retired).retiredEpochWatermark record.epoch = true := by
  induction retired generalizing slot with
  | nil => cases hmem
  | cons first rest ih =>
    have hstep : slot.retireProducers (first :: rest) =
      (slot.retireProducer first).retireProducers rest := rfl
    rw [hstep]
    by_cases hfirst : producerId = first
    · refine floor_retireProducers ?_
      unfold retireProducer
      rw [← hfirst, hrecord]
      exact atOrBelow_raiseFloor.mpr (.inr le_rfl)
    · refine ih (mem_of_ne_of_mem hfirst hmem) ?_
      rw [get?_retireProducer, if_neg hfirst, hrecord]

/-! ## The producer cap -/

variable (slot) (nowMs budget : ℕ)

/-- How many records the cap may evict at `nowMs`. -/
def evictableCount : ℕ :=
  (slot.producers.entries.filter fun entry => producerCapEvictable entry.2 nowMs).length

theorem map_evictionCandidates_perm :
    ((slot.evictionCandidates nowMs).map fun victim => (ofLex victim).2).Perm
      ((slot.producers.entries.filter fun entry => producerCapEvictable entry.2 nowMs).map
        Prod.fst) := by
  refine ((perm_insertionSort _ _).map _).trans ?_
  rw [map_map]
  rfl

theorem capVictims_eq :
    slot.capVictims nowMs budget = ((slot.evictionCandidates nowMs).map fun victim =>
      (ofLex victim).2).take (min (slot.producers.size - maxProducersPerStream) budget) :=
  map_take

theorem nodup_capVictims : (slot.capVictims nowMs budget).Nodup := by
  rw [capVictims_eq]
  refine List.Nodup.sublist (take_sublist _ _) ?_
  rw [(slot.map_evictionCandidates_perm nowMs).nodup_iff]
  exact slot.producers.keys_nodup.sublist (filter_sublist.map _)

theorem length_capVictims :
    (slot.capVictims nowMs budget).length =
      min (min (slot.producers.size - maxProducersPerStream) budget)
      (slot.evictableCount nowMs) := by
  rw [capVictims_eq, length_take, (slot.map_evictionCandidates_perm nowMs).length_eq, length_map]
  rfl

variable {slot nowMs budget}

/-- Only a record that was not seen for an hour is evicted. -/
theorem evictable_of_mem_capVictims (h : producerId ∈ slot.capVictims nowMs budget) :
    ∃ record, slot.producers.get? producerId = some record ∧
      producerCapEvictable record nowMs = true := by
  rw [capVictims_eq] at h
  have hmem := (slot.map_evictionCandidates_perm nowMs).mem_iff.mp (mem_of_mem_take h)
  obtain ⟨⟨_, record⟩, hentry, rfl⟩ := mem_map.mp hmem
  obtain ⟨hentry, hevictable⟩ := mem_filter.mp hentry
  exact ⟨record, slot.producers.mem_entries.mp hentry, hevictable⟩

theorem size_evictProducersOverCap :
    (slot.evictProducersOverCap nowMs budget).producers.size +
      (slot.capVictims nowMs budget).length = slot.producers.size := by
  rw [evictProducersOverCap_eq]
  refine size_retireProducers (slot.nodup_capVictims nowMs budget) fun producerId hmem => ?_
  obtain ⟨record, hrecord, -⟩ := evictable_of_mem_capVictims hmem
  exact ⟨record, hrecord⟩

/-- A step that retires some records never brings others in. -/
theorem size_expireOwn_le (producer : Option ProducerRequest) :
    (slot.expireOwn producer nowMs).producers.size ≤ slot.producers.size := by
  cases producer with
  | none => exact le_rfl
  | some request =>
    unfold expireOwn expireIdleProducer
    dsimp only
    split_ifs with hidle
    · cases hget : slot.producers.get? request.producerId with
      | none => simp [hget] at hidle
      | some record =>
        have hsize := size_erase hget
        simp only [retireProducer, hget]
        omega
    · exact le_rfl

theorem producerCapEvictable_of_idle (h : producerIsIdle record nowMs = true) :
    producerCapEvictable record nowMs = true := by
  simp only [producerIsIdle, producerCapEvictable, producerIdleExpiryMs, producerCapEvictIdleMs,
    ge_iff_le, decide_eq_true_eq] at h ⊢
  omega

/-- Its writer finds every record that is not evictable. -/
theorem get?_expireOwn {producer : Option ProducerRequest}
    (hrecord : slot.producers.get? producerId = some record)
    (hyoung : producerCapEvictable record nowMs = false) :
    (slot.expireOwn producer nowMs).producers.get? producerId = some record := by
  cases producer with
  | none => exact hrecord
  | some request =>
    unfold expireOwn expireIdleProducer
    dsimp only
    split_ifs with hidle
    · rw [get?_retireProducer, if_neg, hrecord]
      rintro rfl
      rw [hrecord] at hidle
      exact absurd (producerCapEvictable_of_idle hidle) (by simp [hyoung])
    · exact hrecord

theorem get?_evictProducersOverCap (hrecord : slot.producers.get? producerId = some record)
    (hyoung : producerCapEvictable record nowMs = false) :
    (slot.evictProducersOverCap nowMs budget).producers.get? producerId = some record := by
  rw [evictProducersOverCap_eq, get?_retireProducers, if_neg, hrecord]
  intro hmem
  obtain ⟨record', hrecord', hevictable⟩ := evictable_of_mem_capVictims hmem
  cases hrecord.symm.trans hrecord'
  simp [hyoung] at hevictable

/-- **Room.** A write that is admitted leaves a stream at the cap at most, once the cap was
enforced: a new producer over it has a record beside it that can be evicted. -/
theorem size_written (hsize : slot.producers.size ≤ maxProducersPerStream)
    (hroom : slot.producers.get? producerId = none →
      slot.producerCapAdmits producerId nowMs = true) :
    ({ slot with producers := slot.producers.insert producerId record }.evictProducersOverCap nowMs
      producerCapEvictBudget).producers.size ≤ maxProducersPerStream := by
  obtain ⟨written, hwritten, hproducers⟩ : ∃ written : StreamSlot,
      { slot with producers := slot.producers.insert producerId record } = written ∧
        written.producers = slot.producers.insert producerId record := ⟨_, rfl, rfl⟩
  have hevicted := @size_evictProducersOverCap written nowMs producerCapEvictBudget
  have hvictims := written.length_capVictims nowMs producerCapEvictBudget
  rw [hwritten]
  have hbudget : 1 ≤ producerCapEvictBudget := by decide
  unfold producerCapAdmits at hroom
  generalize maxProducersPerStream = cap at *
  cases hget : slot.producers.get? producerId with
  | some old =>
    have hsame : written.producers.size = slot.producers.size := by
      rw [hproducers, size_insert_of_some hget]
    omega
  | none =>
    have hnew : written.producers.size = slot.producers.size + 1 := by
      rw [hproducers, size_insert_of_none hget]
    have hadmits := hroom hget
    by_cases hbelow : slot.producers.size < cap
    · omega
    -- the cap is reached, so one of the records is evictable, and it is still there
    have hcontains : slot.producers.contains producerId = false := by simp [OrdMap.contains, hget]
    simp only [hbelow, hcontains, decide_false, Bool.or_false, Bool.false_eq_true, if_false,
      decide_eq_true_eq] at hadmits
    have hfull : slot.producers.values.length = slot.producers.size := length_map ..
    have hsome : ∃ state ∈ slot.producers.values, producerCapEvictable state nowMs = true := by
      by_contra hnone
      have hall : slot.producers.values.countP (fun state => !producerCapEvictable state nowMs) =
          slot.producers.values.length := by
        refine countP_eq_length.mpr fun state hstate => ?_
        have hyoung : ¬ producerCapEvictable state nowMs = true := fun h => hnone ⟨state, hstate, h⟩
        simpa using hyoung
      omega
    obtain ⟨state, hstate, hevictable⟩ := hsome
    obtain ⟨other, hother⟩ := (slot.producers.mem_values state).mp hstate
    have hkept : written.producers.get? other = some state := by
      rw [hproducers, get?_insert, if_neg, hother]
      rintro rfl
      cases hget.symm.trans hother
    have hpos : 0 < written.evictableCount nowMs :=
      length_pos_of_mem (mem_filter.mpr ⟨written.producers.mem_entries.mpr hkept, hevictable⟩)
    omega

/-! ## Tidying -/

variable (slot nowMs)

/-- The idle records one step of `TidyStream` expires. -/
def idleVictims : List String :=
  ((slot.producers.entries.filter fun entry => producerIsIdle entry.2 nowMs).map Prod.fst).take
    tidyProducerBudget

theorem tidyVictims_eq :
    slot.tidyVictims nowMs = slot.idleVictims nowMs ++
      (slot.retireProducers (slot.idleVictims nowMs)).capVictims nowMs producerCapEvictBudget := rfl

variable {slot nowMs}

theorem idle_of_mem_idleVictims (h : producerId ∈ slot.idleVictims nowMs) :
    ∃ record, slot.producers.get? producerId = some record ∧
      producerIsIdle record nowMs = true := by
  obtain ⟨⟨_, record⟩, hentry, rfl⟩ := mem_map.mp (mem_of_mem_take h)
  obtain ⟨hentry, hidle⟩ := mem_filter.mp hentry
  exact ⟨record, slot.producers.mem_entries.mp hentry, hidle⟩

/-- A step of `TidyStream` retires an evictable record at a time. -/
theorem evictable_of_mem_tidyVictims (h : producerId ∈ slot.tidyVictims nowMs) :
    ∃ record, slot.producers.get? producerId = some record ∧
      producerCapEvictable record nowMs = true := by
  obtain h | h := mem_append.mp h
  · obtain ⟨record, hrecord, hidle⟩ := idle_of_mem_idleVictims h
    exact ⟨record, hrecord, producerCapEvictable_of_idle hidle⟩
  obtain ⟨record, hrecord, hevictable⟩ := evictable_of_mem_capVictims h
  rw [get?_retireProducers] at hrecord
  split_ifs at hrecord
  exact ⟨record, hrecord, hevictable⟩

theorem size_tidy :
    (slot.tidy nowMs).producers.size + (slot.tidyVictims nowMs).length = slot.producers.size := by
  have hidle : (slot.retireProducers (slot.idleVictims nowMs)).producers.size +
      (slot.idleVictims nowMs).length = slot.producers.size := by
    refine size_retireProducers ?_ fun producerId hmem => ?_
    · exact (slot.producers.keys_nodup.sublist (filter_sublist.map _)).sublist (take_sublist _ _)
    · obtain ⟨record, hrecord, -⟩ := idle_of_mem_idleVictims hmem
      exact ⟨record, hrecord⟩
  have hcap := @size_evictProducersOverCap (slot.retireProducers (slot.idleVictims nowMs)) nowMs
    producerCapEvictBudget
  have htidy : slot.tidy nowMs =
      (slot.retireProducers (slot.idleVictims nowMs)).evictProducersOverCap
    nowMs producerCapEvictBudget := rfl
  rw [tidyVictims_eq, length_append, htidy]
  omega

theorem idleVictims_eq_nil_iff :
    slot.idleVictims nowMs = [] ↔
      (slot.producers.values.any fun state => producerIsIdle state nowMs) = false := by
  have hbudget : tidyProducerBudget ≠ 0 := by decide
  rw [idleVictims, take_eq_nil_iff, or_iff_right hbudget, map_eq_nil_iff,
    filter_eq_nil_iff, values, any_map, any_eq_false]
  rfl

theorem capVictims_eq_nil_iff (hbudget : 0 < budget) :
    slot.capVictims nowMs budget = [] ↔ slot.producerCapOver nowMs = false := by
  rw [← length_eq_zero_iff, length_capVictims]
  have hcount : slot.evictableCount nowMs = 0 ↔
      (slot.producers.values.any fun state => producerCapEvictable state nowMs) = false := by
    rw [evictableCount, length_eq_zero_iff, filter_eq_nil_iff, values, any_map, any_eq_false]
    rfl
  unfold producerCapOver
  rw [Bool.and_eq_false_iff, ← hcount, decide_eq_false_iff_not]
  omega

/-- A step of `TidyStream` retires a record exactly when there is debt. -/
theorem tidyVictims_eq_nil_iff : slot.tidyVictims nowMs = [] ↔ slot.hasTidyDebt nowMs = false := by
  rw [tidyVictims_eq, append_eq_nil_iff, hasTidyDebt, Bool.or_eq_false_iff,
    idleVictims_eq_nil_iff, and_comm]
  refine and_congr_left fun hidle => ?_
  rw [← idleVictims_eq_nil_iff] at hidle
  rw [hidle]
  exact capVictims_eq_nil_iff (by decide)

theorem tidy_of_no_debt (h : slot.hasTidyDebt nowMs = false) : slot.tidy nowMs = slot := by
  rw [tidy_eq, tidyVictims_eq_nil_iff.mpr h]
  rfl

/-- **Convergence.** Enough steps leave no debt. -/
theorem exists_tidied (slot : StreamSlot) (nowMs : ℕ) :
    ∃ n, (((fun slot => tidy slot nowMs)^[n] slot).tidy nowMs).hasTidyDebt nowMs = false := by
  -- the records are fewer after each step that leaves debt
  induction hsize : slot.producers.size using Nat.strong_induction_on generalizing slot with
  | _ size ih =>
    cases hdebt : (slot.tidy nowMs).hasTidyDebt nowMs with
    | false => exact ⟨0, by rw [Function.iterate_zero_apply, hdebt]⟩
    | true =>
      have hvictims : slot.tidyVictims nowMs ≠ [] := by
        intro hnil
        rw [tidy_of_no_debt (tidyVictims_eq_nil_iff.mp hnil),
          tidyVictims_eq_nil_iff.mp hnil] at hdebt
        cases hdebt
      have hlength := length_pos_of_ne_nil hvictims
      have hfewer := @size_tidy slot nowMs
      obtain ⟨n, hn⟩ := ih (slot.tidy nowMs).producers.size (by omega) (slot.tidy nowMs) rfl
      exact ⟨n + 1, by rw [Function.iterate_succ_apply, hn]⟩

end StreamSlot

/-! ## Entries -/

/-- The clock of a command that may retire producer records. -/
def StreamCommand.retirementClock : StreamCommand → Option ℕ
  | append _ _ _ _ _ _ nowMs => some nowMs
  | close _ _ _ nowMs => some nowMs
  | appendExternal _ _ _ _ _ _ _ nowMs => some nowMs
  | tidyStream _ nowMs => some nowMs
  | _ => none

theorem StreamCommand.retirementClock_of_writeTarget {command : StreamCommand}
    {streamId : BucketStreamId} {producer : Option ProducerRequest} {nowMs : ℕ}
    (h : command.writeTarget = some (streamId, producer, nowMs)) :
    command.retirementClock = some nowMs := by
  cases command <;> cases h <;> rfl

/-- What an entry may do to the records of a stream it leaves in place: a record seen within the
hour stays, and a record that is retired, also one its own writer claims again, leaves its epoch at
or below a floor that never goes down. -/
structure RecordsKept (command : StreamCommand) (response : StreamResponse) (id : BucketStreamId)
    (slot slot' : StreamSlot) : Prop where
  young : ∀ producerId record, slot.producers.get? producerId = some record →
    (∀ nowMs, command.stripped.retirementClock = some nowMs →
      nowMs - record.lastSeenMs < producerCapEvictIdleMs) →
    (slot'.producers.get? producerId).isSome = true
  floor : ∀ epoch, atOrBelow slot.retiredEpochWatermark epoch = true →
    atOrBelow slot'.retiredEpochWatermark epoch = true
  gone : ∀ producerId record, slot.producers.get? producerId = some record →
    slot'.producers.get? producerId = none →
    atOrBelow slot'.retiredEpochWatermark record.epoch = true
  claimed : ∀ write, appliedWrite id command response = some write →
    ∀ nowMs record, command.stripped.retirementClock = some nowMs →
    slot.producers.get? write.producerId = some record → producerIsIdle record nowMs = true →
    atOrBelow slot'.retiredEpochWatermark record.epoch = true

section Effects

variable {machine machine' : StreamStateMachine} {command : StreamCommand}
  {response : StreamResponse} {id : BucketStreamId} {slot slot' : StreamSlot}

theorem producerCapEvictable_eq_false {record : ProducerState} {nowMs : ℕ}
    (h : nowMs - record.lastSeenMs < producerCapEvictIdleMs) :
    producerCapEvictable record nowMs = false := by
  simpa [producerCapEvictable] using h

/-- What a list of retirements does to the floor and to the records it takes. -/
theorem RecordsKept.of_retired {retired : List String}
    (hsame : SameProducers (slot.retireProducers retired) slot')
    (hwrite : appliedWrite id command response = none)
    (hevictable : ∀ producerId ∈ retired, ∃ record nowMs,
      slot.producers.get? producerId = some record ∧
        command.stripped.retirementClock = some nowMs ∧ producerCapEvictable record nowMs = true) :
    RecordsKept command response id slot slot' where
  young := by
    intro producerId record hrecord hyoung
    rw [← hsame.producers, get?_retireProducers]
    split_ifs with hmem
    · obtain ⟨record', nowMs, hrecord', hclock, hevictable⟩ := hevictable producerId hmem
      cases hrecord.symm.trans hrecord'
      rw [producerCapEvictable_eq_false (hyoung nowMs hclock)] at hevictable
      cases hevictable
    · rw [hrecord]
      rfl
  floor := by
    intro epoch h
    rw [← hsame.floor]
    exact floor_retireProducers h
  gone := by
    intro producerId record hrecord hnone
    rw [← hsame.producers, get?_retireProducers] at hnone
    rw [← hsame.floor]
    split_ifs at hnone with hmem
    · exact epoch_retireProducers hmem hrecord
    · cases hrecord.symm.trans hnone
  claimed := by
    intro write hwrite'
    cases hwrite.symm.trans hwrite'

/-- A command that applies no keyed write retires evictable records only. -/
theorem Retired.exists_evictable (h : Retired command id slot slot') :
    ∃ retired, SameProducers (slot.retireProducers retired) slot' ∧
      ∀ producerId ∈ retired, ∃ record nowMs, slot.producers.get? producerId = some record ∧
        command.stripped.retirementClock = some nowMs ∧
          producerCapEvictable record nowMs = true := by
  cases h with
  | none h => exact ⟨[], h, by simp⟩
  | @unwritten request nowMs found htarget hfound h =>
    have hclock := StreamCommand.retirementClock_of_writeTarget htarget
    rw [evictProducersOverCap_eq] at h
    have hvictims : ∀ producerId ∈ found.capVictims nowMs producerCapEvictBudget, ∃ record,
        found.producers.get? producerId = some record ∧ producerCapEvictable record nowMs = true :=
      fun producerId => evictable_of_mem_capVictims
    generalize found.capVictims nowMs producerCapEvictBudget = victims at h hvictims
    obtain rfl | rfl := hfound
    · refine ⟨victims, h, fun producerId hmem => ?_⟩
      obtain ⟨record, hrecord, hevictable⟩ := hvictims producerId hmem
      exact ⟨record, nowMs, hrecord, hclock, hevictable⟩
    · have hown : slot.expireOwn (some request) nowMs =
        slot.retireProducers (slot.idleProducer request.producerId nowMs) :=
        expireIdleProducer_eq ..
      refine ⟨slot.idleProducer request.producerId nowMs ++ victims, ?_, fun producerId hmem => ?_⟩
      · rw [show slot.retireProducers (slot.idleProducer request.producerId nowMs ++ victims) =
          (slot.retireProducers (slot.idleProducer request.producerId nowMs)).retireProducers
            victims
          from foldl_append, ← hown]
        exact h
      · obtain hmem | hmem := mem_append.mp hmem
        · unfold idleProducer at hmem
          split_ifs at hmem with hidle
          · obtain rfl := mem_singleton.mp hmem
            obtain ⟨record, hrecord, hidle⟩ := (Option.any_eq_true _ _).mp hidle
            exact ⟨record, nowMs, hrecord, hclock, producerCapEvictable_of_idle hidle⟩
          · cases hmem
        · obtain ⟨record, hrecord, hevictable⟩ := hvictims producerId hmem
          rw [hown, get?_retireProducers] at hrecord
          split_ifs at hrecord
          exact ⟨record, nowMs, hrecord, hclock, hevictable⟩
  | @tidied nowMs htidy h =>
    rw [tidy_eq] at h
    have hclock : command.stripped.retirementClock = some nowMs := by rw [htidy]; rfl
    refine ⟨slot.tidyVictims nowMs, h, fun producerId hmem => ?_⟩
    obtain ⟨record, hrecord, hevictable⟩ := evictable_of_mem_tidyVictims hmem
    exact ⟨record, nowMs, hrecord, hclock, hevictable⟩

theorem lastSeenMs_of_record {advance : Advance} {history nowMs : ℕ} {old : Option ProducerState}
    {key : WriteKey} {receipt : WriteReceipt} {record : ProducerState}
    (h : advance.record history old key receipt nowMs = some record) :
    record.lastSeenMs = nowMs := by
  cases advance with
  | claim closes opened => exact Option.some.inj h ▸ rfl
  | next =>
    obtain ⟨state, -, rfl⟩ := Option.map_eq_some_iff.mp h
    rfl

variable (h : ProducerEffect machine command response id slot machine')
include h

/-- **Records.** What an entry does to the records of a stream it leaves in place. -/
theorem ProducerEffect.recordsKept (hslot' : machine'.state.slots.get? id = some slot') :
    RecordsKept command response id slot slot' := by
  cases h with
  | retired hanswer hafter =>
    obtain ⟨retired, hsame, hevictable⟩ := (hafter slot' hslot').exists_evictable
    exact .of_retired hsame hanswer.appliedWrite hevictable
  | @written request key advance record receipt nowMs htarget hevaluate hroom hrecord hwrite
      hafter =>
    have hsame := hafter slot' hslot'
    have hclock := StreamCommand.retirementClock_of_writeTarget htarget
    have hown : slot.expireOwn (some request) nowMs =
        slot.retireProducers (slot.idleProducer request.producerId nowMs) :=
      expireIdleProducer_eq ..
    -- the written record is as young as can be
    have hnew : producerCapEvictable record nowMs = false :=
      producerCapEvictable_eq_false (by rw [lastSeenMs_of_record hrecord, Nat.sub_self]; decide)
    have hfloor : ∀ epoch,
        atOrBelow (slot.expireOwn (some request) nowMs).retiredEpochWatermark epoch = true →
        atOrBelow slot'.retiredEpochWatermark epoch = true := by
      intro epoch hbelow
      rw [← hsame.floor, evictProducersOverCap_eq]
      exact floor_retireProducers hbelow
    have hself : (slot'.producers.get? request.producerId) = some record := by
      rw [← hsame.producers]
      exact get?_evictProducersOverCap (get?_insert_self ..) hnew
    refine ⟨?_, ?_, ?_, ?_⟩
    · intro producerId old hold hyoung
      by_cases hid : producerId = request.producerId
      · rw [hid, hself]
        rfl
      have hyoung := producerCapEvictable_eq_false (hyoung nowMs hclock)
      rw [← hsame.producers]
      have hfound := @get?_expireOwn slot producerId old nowMs (some request) hold hyoung
      have hwritten : (insert (slot.expireOwn (some request) nowMs).producers
          request.producerId record).get? producerId = some old := by
        rw [get?_insert, if_neg hid, hfound]
      rw [@get?_evictProducersOverCap _ _ old _ _ hwritten hyoung]
      rfl
    · intro epoch hbelow
      refine hfloor epoch ?_
      rw [hown]
      exact floor_retireProducers hbelow
    · intro producerId old hold hnone
      have hid : producerId ≠ request.producerId := by
        rintro rfl
        cases hself.symm.trans hnone
      have hfound : (slot.expireOwn (some request) nowMs).producers.get? producerId = some old := by
        rw [hown, get?_retireProducers, if_neg, hold]
        unfold idleProducer
        split_ifs <;> simp [hid]
      rw [← hsame.producers, evictProducersOverCap_eq, get?_retireProducers] at hnone
      rw [← hsame.floor, evictProducersOverCap_eq]
      split_ifs at hnone with hmem
      · refine epoch_retireProducers hmem ?_
        rw [get?_insert, if_neg hid, hfound]
      · rw [get?_insert, if_neg hid, hfound] at hnone
        cases hnone
    · intro write hwrite' nowMs' old hclock' hold hidle
      cases hclock.symm.trans hclock'
      cases hwrite.symm.trans hwrite'
      refine hfloor _ ?_
      rw [hown]
      refine epoch_retireProducers ?_ hold
      unfold idleProducer
      rw [if_pos (by rw [hold]; exact hidle)]
      exact mem_singleton.mpr rfl

/-- **The cap.** An entry keeps a stream it leaves in place to the cap. -/
theorem ProducerEffect.capped (hslot' : machine'.state.slots.get? id = some slot')
    (hsize : slot.producers.size ≤ maxProducersPerStream) :
    slot'.producers.size ≤ maxProducersPerStream := by
  cases h with
  | retired hanswer hafter =>
    cases hafter slot' hslot' with
    | none h => rwa [← h.producers]
    | @unwritten request nowMs found htarget hfound h =>
      have hevicted := @size_evictProducersOverCap found nowMs producerCapEvictBudget
      have hfewer : found.producers.size ≤ slot.producers.size := by
        obtain rfl | rfl := hfound
        · exact le_rfl
        · exact size_expireOwn_le _
      rw [← h.producers]
      exact le_trans (by omega) (hfewer.trans hsize)
    | @tidied nowMs htidy h =>
      rw [← h.producers]
      exact (Nat.le.intro size_tidy).trans hsize
  | @written request key advance record receipt nowMs htarget hevaluate hroom hrecord hwrite
      hafter =>
    rw [← (hafter slot' hslot').producers]
    refine size_written ((size_expireOwn_le _).trans hsize) fun hnone => ?_
    rw [hnone] at hevaluate
    obtain ⟨refusal, heq⟩ | ⟨-, -, heq⟩ := evaluate_none_cases
      (slot.expireOwn (some request) nowMs).retiredEpochWatermark machine.historyId key
      command.checkOf
    · rw [heq] at hevaluate
      cases advance <;> cases hevaluate
    rw [heq] at hevaluate
    cases advance with
    | next => cases hevaluate
    | claim closes opened =>
      obtain rfl : closes = none := by
        cases hevaluate
        rfl
      exact hroom opened rfl

end Effects

/-! ## Runs -/

section Runs

variable [Blake3]

/-- Whether no stream of a snapshot has more producers than the cap. -/
def StreamSnapshot.KeepsCap (snapshot : StreamSnapshot) : Prop :=
  ∀ entry ∈ snapshot.streams, entry.producerStates.length ≤ maxProducersPerStream

namespace StreamStateMachine

/-- The machines of a group whose imports and restores bring no stream with more producers than the
cap. -/
abbrev CappedReachable : StreamStateMachine → Prop :=
  ReachableBy (fun command => ∀ snapshot history backupDigest nowMs,
      command.stripped = .importSnapshot snapshot history backupDigest nowMs → snapshot.KeepsCap)
    StreamSnapshot.KeepsCap

/-- No live stream has more records than the cap. -/
def KeepsCap (machine : StreamStateMachine) : Prop :=
  ∀ id slot, machine.streamSlot id = some slot → slot.producers.size ≤ maxProducersPerStream

omit [Blake3] in
theorem keepsCap_restoreWith {snapshot : StreamSnapshot} {usage : RestoredUsage}
    {restored : StreamStateMachine} (h : restoreWith snapshot usage = .ok restored)
    (hcap : snapshot.KeepsCap) : restored.KeepsCap := by
  intro id slot hslot
  rw [streamSlot_eq] at hslot
  obtain ⟨entry, hentry, hok, version, rfl⟩ := restoreWith_slot h hslot
  have hsize := size_insertNew hok.producers
  have hlength := hcap entry hentry
  show entry.producers.size ≤ maxProducersPerStream
  rw [hsize]
  exact (Nat.zero_add _).symm ▸ hlength

end StreamStateMachine

variable {machine machine' : StreamStateMachine} {check : IncarnationCheck} {plain : StreamCommand}
  {acts : List Act} {response : StreamResponse} {id : BucketStreamId} {slot' : StreamSlot}

/-- Whether a change may bring a stream into the group. -/
def Act.Brings (id : BucketStreamId) : Act → Prop
  | .create input _ _ => input.streamId = id
  | .importState _ _ _ _ _ _ => True
  | _ => False

theorem slot_before_of_trace (htrace : Trace machine acts machine')
    (hbrings : ∀ act ∈ acts, ¬ act.Brings id) (h : machine'.state.slots.get? id = some slot') :
    ∃ slot, machine.state.slots.get? id = some slot := by
  induction htrace generalizing slot' with
  | nil => exact ⟨slot', h⟩
  | cons henabled _ ih =>
    obtain ⟨middle, hmiddle⟩ := ih (fun act hact => hbrings act (by simp [hact])) h
    rw [state_step henabled] at hmiddle
    obtain ⟨h, -, -⟩ | ⟨hact, hid, hslot, hafter⟩ | ⟨rfl, hid, -⟩ | ⟨rfl, -⟩ :=
      GroupState.slotOrigin henabled hmiddle
    · exact ⟨_, h⟩
    · exact ⟨_, hslot⟩
    · exact absurd hid (hbrings _ mem_cons_self)
    · exact absurd trivial (hbrings _ mem_cons_self)

/-- A command that brings a stream into the group creates it or is an import. -/
theorem Outcome.brings (h : Outcome machine check plain acts response) (id : BucketStreamId) :
    (∀ act ∈ acts, ¬ act.Brings id) ∨
      (∃ nextOffset closed, response = .created id nextOffset closed) ∨
      ∃ snapshot history backupDigest nowMs index restored,
        plain = .importSnapshot snapshot history backupDigest nowMs ∧
        acts = [.importState index history backupDigest nowMs snapshot restored] := by
  by_cases hbrings : ∀ act ∈ acts, ¬ act.Brings id
  · exact .inl hbrings
  push Not at hbrings
  obtain ⟨act, hact, hbrings⟩ := hbrings
  refine .inr ?_
  cases act with
  | create input history createdAtMs =>
    exact .inl ⟨_, _, hbrings ▸ (h.create_mem hact).2⟩
  | importState index history backupDigest nowMs snapshot restored =>
    exact .inr ⟨_, _, _, _, _, _, h.import_mem hact⟩
  | _ => cases hbrings

/-- An entry keeps every stream to the cap. -/
theorem StreamStateMachine.KeepsCap.applyEntry (h : machine.KeepsCap) (index : ℕ)
    (command : StreamCommand)
    (himport : ∀ snapshot history backupDigest nowMs,
      command.stripped = .importSnapshot snapshot history backupDigest nowMs → snapshot.KeepsCap) :
    (machine.applyEntry index command).1.KeepsCap := by
  intro id slot' hslot'
  obtain ⟨acts, htrace, houtcome⟩ := applyEntry_explained machine index command
  generalize machine.applyEntry index command = applied at *
  obtain ⟨after, response⟩ := applied
  dsimp only at *
  by_cases hcreated : ∃ nextOffset closed, response = .created id nextOffset closed
  · obtain ⟨nextOffset, closed, hresponse⟩ := hcreated
    rw [hresponse] at houtcome
    obtain ⟨state, input, history, createdAtMs, hcreated⟩ := created_slot htrace houtcome
    cases hcreated.symm.trans hslot'
    exact Nat.zero_le _
  · have hresponse : ∀ nextOffset closed, response ≠ .created id nextOffset closed :=
      fun nextOffset closed heq => hcreated ⟨nextOffset, closed, heq⟩
    obtain hbrings | hcreate | ⟨snapshot, history, backupDigest, nowMs, entry,
      restored, hplain, rfl⟩ :=
      houtcome.brings id
    · rw [streamSlot_eq] at hslot'
      obtain ⟨slot, hslot⟩ := slot_before_of_trace htrace hbrings hslot'
      rw [← streamSlot_eq] at hslot
      exact (producerEffect htrace houtcome rfl rfl hslot hresponse).capped hslot' (h id slot hslot)
    · exact absurd hcreate hcreated
    · cases htrace with
      | cons henabled hrest =>
        cases hrest
        refine keepsCap_restoreWith henabled.2.2.2 (himport _ _ _ _ hplain) id slot' ?_
        rw [streamSlot_eq, state_step henabled, GroupState.slots_act] at hslot'
        rwa [streamSlot_eq]

theorem StreamStateMachine.CappedReachable.keepsCap (h : machine.CappedReachable) :
    machine.KeepsCap := by
  induction h with
  | new =>
    intro id slot hslot
    cases hslot
  | entry _ index command himport ih => exact ih.applyEntry index command himport
  | restored h hcap => exact keepsCap_restoreWith h hcap

/-! ## Refusals for the cap -/

/-- A new producer that finds the cap full of other records seen within the hour. -/
structure Crowded (machine : StreamStateMachine) (command : StreamCommand) (id : BucketStreamId)
    (request : ProducerRequest) (nowMs : ℕ) (slot : StreamSlot) : Prop where
  target : command.stripped.writeTarget = some (id, some request, nowMs)
  live : machine.streamSlot id = some slot
  new : ∀ record, slot.producers.get? request.producerId = some record →
    producerIsIdle record nowMs = true
  others : maxProducersPerStream ≤ (slot.producers.entries.filter fun entry =>
    entry.1 ≠ request.producerId ∧ nowMs - entry.2.lastSeenMs < producerCapEvictIdleMs).length

omit [Blake3] in
/-- A writer that finds no record of its own had none, or an idle one. -/
theorem idle_of_expireOwn {slot : StreamSlot} {request : ProducerRequest} {nowMs : ℕ}
    (h : (slot.expireOwn (some request) nowMs).producers.get? request.producerId = none) :
    (∀ record, slot.producers.get? request.producerId = some record →
      producerIsIdle record nowMs = true) ∧
    (slot.expireOwn (some request) nowMs).producers.entries =
      slot.producers.entries.filter fun entry => entry.1 ≠ request.producerId := by
  have herased : slot.producers.get? request.producerId = none →
      slot.producers.entries.filter (fun entry => entry.1 ≠ request.producerId) =
        slot.producers.entries := fun hnone =>
    congrArg entries (erase_of_none hnone)
  unfold StreamSlot.expireOwn StreamSlot.expireIdleProducer at h ⊢
  dsimp only at h ⊢
  cases hget : slot.producers.get? request.producerId with
  | none =>
    refine ⟨by simp, ?_⟩
    rw [herased hget, if_neg (by simp)]
  | some record =>
    rw [hget] at h
    split_ifs at h with hidle
    · refine ⟨fun record' hrecord' => Option.some.inj hrecord' ▸ hidle, ?_⟩
      rw [if_pos hidle, retireProducer, hget]
      rfl
    · cases hget.symm.trans h

omit [Blake3] in
theorem crowded_of_limited {slot : StreamSlot} {request : ProducerRequest} {nowMs : ℕ}
    {command : StreamCommand}
    (htarget : command.stripped.writeTarget = some (id, some request, nowMs))
    (hslot : machine.streamSlot id = some slot)
    (hfull : (slot.expireOwn (some request) nowMs).producerCapAdmits request.producerId nowMs =
      false) :
    Crowded machine command id request nowMs slot := by
  unfold producerCapAdmits at hfull
  split_ifs at hfull with hroom
  simp only [Bool.or_eq_true, decide_eq_true_eq, not_or] at hroom
  have hnone : (slot.expireOwn (some request) nowMs).producers.get? request.producerId = none := by
    simpa [OrdMap.contains] using hroom.2
  obtain ⟨hnew, hentries⟩ := idle_of_expireOwn hnone
  refine ⟨htarget, hslot, hnew, ?_⟩
  have hactive : maxProducersPerStream ≤
      (slot.expireOwn (some request) nowMs).producers.values.countP
      fun state => !producerCapEvictable state nowMs := by simpa using hfull
  refine hactive.trans (le_of_eq ?_)
  rw [values, countP_map, hentries, countP_eq_length_filter, filter_filter]
  congr 1
  refine filter_congr fun entry _ => ?_
  rw [Bool.eq_iff_iff]
  simp [producerCapEvictable, and_comm]

/-- **Refusals.** Only a new producer that finds the cap full of other records seen within the hour
is refused for it. -/
theorem crowded_of_producerLimit {index : ℕ} {command : StreamCommand} {message : String}
    {nextOffset : Option ℕ} {context : List StreamErrorContext}
    (h : (machine.applyEntry index command).2 = .error .producerLimit message nextOffset context) :
    ∃ id request nowMs slot, Crowded machine command id request nowMs slot := by
  obtain ⟨acts, -, houtcome⟩ := applyEntry_explained machine index command
  rw [h] at houtcome
  generalize hresponse : StreamResponse.error .producerLimit message nextOffset context = response
    at houtcome
  generalize hplain : command.stripped = plain at houtcome
  cases houtcome with
  | @unwritten plain streamId producer nowMs found response htarget hunexpired hfound h =>
    rw [← hplain] at htarget
    subst hresponse
    cases h with
    | refused h => cases h
    | repeated hproducer hkey hevaluate hack => cases hack
    | limited hproducer hkey hevaluate hfull =>
      subst hproducer
      exact ⟨_, _, _, _, crowded_of_limited htarget hfound hfull⟩
  | streamExists =>
    unfold NewStream.existingResponse at hresponse
    split_ifs at hresponse
    cases hresponse
  | appended =>
    unfold commitAppend at hresponse
    split_ifs at hresponse
  | expired htarget hfound hexpired h =>
    subst hresponse
    obtain h | h := h <;> cases h
  | refused h | createRefused _ _ h | capped _ h | dropped _ _ _ h =>
    subst hresponse
    cases h
  | _ => cases hresponse

/-! ## Tidying a stream -/

namespace StreamStateMachine

variable {slot : StreamSlot} {nowMs : ℕ}

theorem applyEntry_tidyStream_eq (machine : StreamStateMachine) (id : BucketStreamId)
    (nowMs index : ℕ) :
    machine.applyEntry index (.tidyStream id nowMs) = machine.tidyStream id nowMs := rfl

theorem applyEntry_tidyStream (hscope : machine.validateStreamScope id = .ok ())
    (hslot : machine.streamSlot id = some slot) (index : ℕ) :
    machine.applyEntry index (.tidyStream id nowMs) =
      (machine.putSlot (slot.tidy nowMs), .streamTidied ((slot.tidy nowMs).hasTidyDebt nowMs)) := by
  simp only [applyEntry_tidyStream_eq, tidyStream, hscope, hslot]

omit [Blake3] in
theorem validateStreamScope_putSlot (machine : StreamStateMachine) (slot : StreamSlot)
    (id : BucketStreamId) :
    (machine.putSlot slot).validateStreamScope id = machine.validateStreamScope id := rfl

omit [Blake3] in
theorem putSlot_of_streamSlot (h : machine.streamSlot id = some slot) :
    machine.putSlot slot = machine := by
  have hregistry : machine.registry.setSlot slot = machine.registry := by
    refine StreamRegistry.setSlot_of_slot ?_
    rw [StreamRegistry.slot_id h]
    exact h
  rw [putSlot, hregistry]

omit [Blake3] in
theorem streamSlot_putTidied (hslot : machine.streamSlot id = some slot) :
    (machine.putSlot (slot.tidy nowMs)).streamSlot id = some (slot.tidy nowMs) := by
  obtain ⟨rfl, hlive⟩ := slots_get?_of_streamSlot hslot
  have hname : (slot.tidy nowMs).id = slot.id := by
    rw [tidy_eq, retireProducers_id]
  generalize slot.tidy nowMs = tidied at hname
  rw [streamSlot_eq, state_putSlot_of_some (hname ▸ hlive), GroupState.setSlot, hname,
    get?_insert_self]

/-- The machine after `n` `TidyStream` commands at one clock. -/
def tidiedTimes (machine : StreamStateMachine) (id : BucketStreamId) (nowMs index n : ℕ) :
    StreamStateMachine :=
  (fun machine => (machine.applyEntry index (.tidyStream id nowMs)).1)^[n] machine

theorem streamSlot_tidiedTimes (hscope : machine.validateStreamScope id = .ok ())
    (hslot : machine.streamSlot id = some slot) (index n : ℕ) :
    (machine.tidiedTimes id nowMs index n).validateStreamScope id = .ok () ∧
      (machine.tidiedTimes id nowMs index n).streamSlot id =
        some ((fun slot => tidy slot nowMs)^[n] slot) := by
  unfold tidiedTimes
  induction n generalizing machine slot with
  | zero => exact ⟨hscope, hslot⟩
  | succ n ih =>
    rw [Function.iterate_succ_apply, Function.iterate_succ_apply]
    rw [applyEntry_tidyStream hscope hslot]
    refine ih ?_ (streamSlot_putTidied hslot)
    rw [validateStreamScope_putSlot, hscope]

/-- Once a `TidyStream` answers that no debt is left, another at the same clock changes nothing. -/
theorem tidyStream_again {index : ℕ}
    (h : (machine.applyEntry index (.tidyStream id nowMs)).2 = .streamTidied false) (index' : ℕ) :
    (machine.applyEntry index (.tidyStream id nowMs)).1.applyEntry index' (.tidyStream id nowMs) =
      ((machine.applyEntry index (.tidyStream id nowMs)).1, .streamTidied false) := by
  cases hscope : machine.validateStreamScope id with
  | error response =>
    have hdeclines := refuses_validateStreamScope _ _ _ hscope
    rw [applyEntry_tidyStream_eq, tidyStream, hscope] at h
    dsimp only at h
    rw [h] at hdeclines
    cases hdeclines
  | ok _ =>
    cases hslot : machine.streamSlot id with
    | none =>
      rw [applyEntry_tidyStream_eq, tidyStream, hscope, hslot] at h
      cases h
    | some slot =>
      rw [applyEntry_tidyStream hscope hslot] at h ⊢
      have hdebt : (slot.tidy nowMs).hasTidyDebt nowMs = false := StreamResponse.streamTidied.inj h
      have hput := @streamSlot_putTidied machine id slot nowMs hslot
      have hagain : (machine.putSlot (slot.tidy nowMs)).validateStreamScope id = .ok () := by
        rw [validateStreamScope_putSlot, hscope]
      rw [applyEntry_tidyStream hagain hput, tidy_of_no_debt hdebt, hdebt,
        putSlot_of_streamSlot hput]

end StreamStateMachine

/-- **Bounded producers.** As long as no import brings more, every stream holds at most the cap
after every command. A new producer is refused for the cap only when that many other records were
seen within the hour, a record seen within the hour stays, and a retired record's epoch stays at or
below the floor. `TidyStream` at one clock comes to an end on every stream it accepts, and then
changes nothing. -/
theorem producers_bounded_and_tidied :
    (∀ machine : StreamStateMachine, machine.CappedReachable →
      ∀ id slot, machine.streamSlot id = some slot →
        slot.producers.size ≤ maxProducersPerStream) ∧
    (∀ (machine : StreamStateMachine) index command message nextOffset context,
      (machine.applyEntry index command).2 = .error .producerLimit message nextOffset context →
      ∃ id request nowMs slot, Crowded machine command id request nowMs slot) ∧
    (∀ (machine : StreamStateMachine) index command id slot slot',
      machine.streamSlot id = some slot →
      (machine.applyEntry index command).1.streamSlot id = some slot' →
      (∀ nextOffset closed, (machine.applyEntry index command).2 ≠ .created id nextOffset closed) →
      RecordsKept command (machine.applyEntry index command).2 id slot slot') ∧
    (∀ (machine : StreamStateMachine) id slot nowMs index,
      machine.validateStreamScope id = .ok () → machine.streamSlot id = some slot →
      ∃ n, ((machine.tidiedTimes id nowMs index n).applyEntry index (.tidyStream id nowMs)).2 =
        .streamTidied false) ∧
    (∀ (machine : StreamStateMachine) id nowMs index index',
      (machine.applyEntry index (.tidyStream id nowMs)).2 = .streamTidied false →
      (machine.applyEntry index (.tidyStream id nowMs)).1.applyEntry index' (.tidyStream id nowMs) =
        ((machine.applyEntry index (.tidyStream id nowMs)).1, .streamTidied false)) := by
  refine ⟨fun machine h => h.keepsCap, ?_, ?_, ?_, ?_⟩
  · intro machine index command message nextOffset context h
    exact crowded_of_producerLimit h
  · intro machine index command id slot slot' hslot hslot' hcreated
    obtain ⟨acts, htrace, houtcome⟩ := applyEntry_explained machine index command
    rw [streamSlot_eq] at hslot'
    exact (producerEffect htrace houtcome rfl rfl hslot hcreated).recordsKept hslot'
  · intro machine id slot nowMs index hscope hslot
    obtain ⟨n, hn⟩ := exists_tidied slot nowMs
    obtain ⟨hscope', hslot'⟩ := @streamSlot_tidiedTimes _ _ _ _ nowMs hscope hslot index n
    exact ⟨n, by rw [applyEntry_tidyStream hscope' hslot', hn]⟩
  · intro machine id nowMs index index' h
    exact tidyStream_again h index'

end Runs

section Witness

attribute [local instance] Blake3.zero

/-- A producer's record, seen an hour ago at most, stays through another producer's write; a week
later it is tidied away. -/
theorem producers_bounded_and_tidied_sample :
    let created := ((StreamStateMachine.new.applyEntries sampleGenesis).1.applyEntry 3
      (sampleCreate [])).1
    let machine := (created.applyEntry 4 (sampleAppend [65] (some ⟨"p", 0, 0, none, 0⟩))).1
    let other := sampleAppend [66] (some ⟨"q", 0, 0, none, 0⟩)
    ∃ slot slot', machine.streamSlot sampleStream = some slot ∧
      (machine.applyEntry 5 other).1.streamSlot sampleStream = some slot' ∧
      slot.producers.size ≤ maxProducersPerStream ∧ (slot'.producers.get? "p").isSome = true ∧
      ∃ n, ((machine.tidiedTimes sampleStream 700000000 6 n).applyEntry 6
        (.tidyStream sampleStream 700000000)).2 = .streamTidied false := by
  intro created machine other
  have hcreated : created.CappedReachable :=
    ((ReachableBy.new.entry 1 _ (fun _ _ _ _ h => by cases h)).entry 2 _
      (fun _ _ _ _ h => by cases h)).entry 3 _ (fun _ _ _ _ h => by cases h)
  have hmachine : machine.CappedReachable := hcreated.entry 4 _ (fun _ _ _ _ h => by cases h)
  obtain ⟨hbound, -, hkept, htidy, -⟩ := producers_bounded_and_tidied
  obtain ⟨slot, hslot⟩ := Option.isSome_iff_exists.mp
    (show (machine.streamSlot sampleStream).isSome = true by decide +kernel)
  obtain ⟨slot', hslot'⟩ := Option.isSome_iff_exists.mp
    (show ((machine.applyEntry 5 other).1.streamSlot sampleStream).isSome = true by decide +kernel)
  have hresponse : (machine.applyEntry 5 other).2 =
      .appended 1 2 false (some ⟨0, 0, none, .applied ⟨1, 2, false⟩⟩) := by decide +kernel
  have hrecord : ((machine.streamSlot sampleStream).bind fun slot =>
      slot.producers.get? "p").map ProducerState.lastSeenMs = some 1001 := by decide +kernel
  rw [hslot] at hrecord
  obtain ⟨record, hrecord, hseen⟩ := Option.map_eq_some_iff.mp hrecord
  refine ⟨slot, slot', hslot, hslot', hbound machine hmachine _ _ hslot, ?_,
    htidy machine _ slot _ _ (by decide +kernel) hslot⟩
  refine (hkept machine 5 other _ _ _ hslot hslot' fun nextOffset closed h => ?_).young "p" record
    hrecord fun nowMs hclock => ?_
  · rw [hresponse] at h
    cases h
  · obtain rfl : 1001 = nowMs := Option.some.inj hclock
    rw [hseen]
    decide

/-- A backup whose one stream is in a bucket that no command would create, with a record of one
producer. -/
def misnamedBackup : StreamSnapshot :=
  let written := (((StreamStateMachine.new.applyEntries sampleGenesis).1.applyEntry 3
    (sampleCreate [])).1.applyEntry 4 (sampleAppend [65] (some ⟨"p", 0, 0, none, 0⟩))).1
  { written.snapshot with
    buckets := ["ab"]
    bucketUsage := []
    streams := written.snapshot.streams.map fun entry =>
      { entry with metadata := { entry.metadata with streamId := ⟨"ab", "s1"⟩ } } }

/-- An import does not check names, and `TidyStream` does: an imported stream with a name that it
refuses keeps its debt whatever the number of commands. -/
theorem misnamed_stream_keeps_debt :
    let machine := (StreamStateMachine.new.applyEntry 1
      (.importSnapshot misnamedBackup 1 ⟨replicate 32 0, rfl⟩ 2000)).1
    machine.Reachable ∧ (∃ slot, machine.streamSlot ⟨"ab", "s1"⟩ = some slot ∧
      slot.hasTidyDebt 700000000 = true) ∧
    ∀ index n, machine.tidiedTimes ⟨"ab", "s1"⟩ 700000000 index n = machine ∧
      (machine.applyEntry index (.tidyStream ⟨"ab", "s1"⟩ 700000000)).2.isError = true := by
  intro machine
  have hdebt : (machine.streamSlot ⟨"ab", "s1"⟩).any (fun slot => slot.hasTidyDebt 700000000) =
      true := by
    decide +kernel
  have hscope : (machine.validateStreamScope ⟨"ab", "s1"⟩).toOption = none := by decide +kernel
  have hrefused : ∀ index, ∃ response,
      machine.applyEntry index (.tidyStream ⟨"ab", "s1"⟩ 700000000) = (machine, response) ∧
        response.isError = true := by
    intro index
    cases hcheck : machine.validateStreamScope ⟨"ab", "s1"⟩ with
    | ok _ =>
      rw [hcheck] at hscope
      cases hscope
    | error response =>
      refine ⟨response, ?_, StreamResponse.isError_of_declines
        (refuses_validateStreamScope _ _ _ hcheck)⟩
      rw [applyEntry_tidyStream_eq, tidyStream, hcheck]
  refine ⟨ReachableBy.new.entry 1 _ trivial, ?_, fun index n => ?_⟩
  · cases hslot : machine.streamSlot ⟨"ab", "s1"⟩ with
    | none =>
      rw [hslot] at hdebt
      cases hdebt
    | some slot =>
      rw [hslot] at hdebt
      exact ⟨slot, rfl, hdebt⟩
  · obtain ⟨response, heq, herror⟩ := hrefused index
    refine ⟨?_, by rw [heq]; exact herror⟩
    unfold tidiedTimes
    induction n with
    | zero => rfl
    | succ n ih => rw [Function.iterate_succ_apply, heq, ih]

end Witness

end Ursula

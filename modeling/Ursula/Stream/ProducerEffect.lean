import Ursula.Stream.ProducerLog
import Ursula.Stream.Run

/-!
# What an entry makes of a stream's producers

One inversion for the producer records of a stream that stays live: an entry leaves them alone, it
retires some, or it applies a write, which is evaluated against the records its writer finds and is
followed by the producer cap. Exactly-once delivery and the bound on the records both rest on it.

## Main definitions

* `appliedWrite`: the producer write that a command's answer says applied
* `Retired`: the retirements of a command
* `ProducerEffect`: what an entry answers and does

## Main results

* `producerEffect`: every entry has one of the effects
-/

namespace Ursula

open Word64 StreamStateMachine StreamSlot List

/-! ## Observed writes -/

/-- The producer and the key of a write to a stream. -/
def StreamCommand.keyOf (id : BucketStreamId) (command : StreamCommand) :
    Option (String × WriteKey) :=
  match command.stripped.writeTarget with
  | some (streamId, some request, _) =>
    if streamId = id then
      match producerWriteKey request with
      | .ok key => some (request.producerId, key)
      | .error _ => none
    else none
  | _ => none

/-- The producer write of a command to a stream that its answer says applied. -/
def appliedWrite (id : BucketStreamId) (command : StreamCommand) (response : StreamResponse) :
    Option AppliedWrite :=
  match command.keyOf id, response.producerAck.map ProducerAck.delivery with
  | some (producerId, key), some (.applied receipt) =>
    some
      { producerId := producerId
        epoch := key.epoch
        seq := key.seq
        digest := key.digest
        receipt := receipt }
  | _, _ => none

/-! ## Changes of a stream's producers -/

/-- Two slots with the same producer records and epoch floor. -/
structure SameProducers (a b : StreamSlot) : Prop where
  producers : a.producers = b.producers
  floor : a.retiredEpochWatermark = b.retiredEpochWatermark

namespace SameProducers

theorem refl (a : StreamSlot) : SameProducers a a := ⟨rfl, rfl⟩

theorem trans {a b c : StreamSlot} (hab : SameProducers a b) (hbc : SameProducers b c) :
    SameProducers a c :=
  ⟨hab.producers.trans hbc.producers, hab.floor.trans hbc.floor⟩

theorem retireProducer {a b : StreamSlot} (h : SameProducers a b) (producerId : String) :
    SameProducers (a.retireProducer producerId) (b.retireProducer producerId) := by
  unfold StreamSlot.retireProducer
  rw [h.producers]
  cases b.producers.get? producerId with
  | none => exact h
  | some record => exact ⟨rfl, by rw [h.floor]⟩

theorem retireProducers {a b : StreamSlot} (h : SameProducers a b) (producerIds : List String) :
    SameProducers (a.retireProducers producerIds) (b.retireProducers producerIds) := by
  induction producerIds generalizing a b with
  | nil => exact h
  | cons producerId rest ih => exact ih (h.retireProducer producerId)

theorem evictProducersOverCap {a b : StreamSlot} (h : SameProducers a b) (nowMs budget : ℕ) :
    SameProducers (a.evictProducersOverCap nowMs budget)
    (b.evictProducersOverCap nowMs budget) := by
  have hvictims : a.capVictims nowMs budget = b.capVictims nowMs budget := by
    unfold capVictims evictionCandidates
    rw [h.producers]
  rw [evictProducersOverCap_eq, evictProducersOverCap_eq, hvictims]
  exact h.retireProducers _

end SameProducers

/-- Whether a change may make, write or retire producer records of a stream. -/
def Act.TouchesProducers (id : BucketStreamId) : Act → Prop
  | .create input _ _ => input.streamId = id
  | .importState _ _ _ _ _ _ => True
  | .append slot _ _ _ => slot.id = id
  | .appendExternal slot _ _ => slot.id = id
  | .retire slot _ => slot.id = id
  | _ => False

variable {machine machine' : StreamStateMachine} {id : BucketStreamId} {slot slot' : StreamSlot}
  {producer : Option ProducerRequest} {nowMs : ℕ} {acts : List Act}

/-- Any other change leaves the records alone. -/
theorem sameProducers_act [Blake3] {state : GroupState} {act : Act} (henabled : act.Enabled state)
    (hquiet : ¬ act.TouchesProducers id) (h : (state.act act).slots.get? id = some slot') :
    ∃ slot, state.slots.get? id = some slot ∧ SameProducers slot slot' := by
  obtain ⟨h, -, -⟩ | ⟨hact, hid, hslot, hafter⟩ | ⟨rfl, hid, -⟩ | ⟨rfl, -⟩ :=
    GroupState.slotOrigin henabled h
  · exact ⟨slot', h, .refl _⟩
  · cases act with
    | append | appendExternal | retire =>
      cases hact
      exact absurd hid hquiet
    | renew | publish | retain | flush | compact | drop | offload =>
      cases hact
      cases hafter
      exact ⟨_, hslot, ⟨rfl, rfl⟩⟩
    | _ => cases hact
  · exact absurd hid hquiet
  · exact absurd trivial hquiet

theorem sameProducers_trace [Blake3] (htrace : Trace machine acts machine')
    (hquiet : ∀ act ∈ acts, ¬ act.TouchesProducers id)
    (h : machine'.state.slots.get? id = some slot') :
    ∃ slot, machine.state.slots.get? id = some slot ∧ SameProducers slot slot' := by
  induction htrace with
  | nil => exact ⟨slot', h, .refl _⟩
  | cons henabled _ ih =>
    obtain ⟨middle, hmiddle, hlater⟩ := ih (fun act hact => hquiet act (by simp [hact])) h
    rw [state_step henabled] at hmiddle
    obtain ⟨slot, hslot, hfirst⟩ := sameProducers_act henabled (hquiet _ (by simp)) hmiddle
    exact ⟨slot, hslot, hfirst.trans hlater⟩

/-- The slot a keyed write leaves: the producer cap is enforced on it. -/
def StreamSlot.enforceOwn (slot : StreamSlot) (producer : Option ProducerRequest) (nowMs : ℕ) :
    StreamSlot :=
  match producer with
  | none => slot
  | some _ => slot.evictProducersOverCap nowMs producerCapEvictBudget

theorem SameProducers.enforceOwn {a b : StreamSlot} (h : SameProducers a b)
    (producer : Option ProducerRequest) (nowMs : ℕ) :
    SameProducers (a.enforceOwn producer nowMs) (b.enforceOwn producer nowMs) := by
  cases producer with
  | none => exact h
  | some _ => exact h.evictProducersOverCap nowMs producerCapEvictBudget

theorem capActs_trace [Blake3]
    (htrace : Trace machine (machine.capActs id producer nowMs) machine')
    (hslot : machine.state.slots.get? id = some slot) :
    machine'.state.slots.get? id = some (slot.enforceOwn producer nowMs) := by
  have hlive : machine.streamSlot id = some slot := (streamSlot_eq ..).trans hslot
  unfold capActs at htrace
  cases producer with
  | none =>
    cases htrace
    exact hslot
  | some request =>
    simp only [hlive] at htrace
    cases htrace with
    | cons henabled hrest =>
      cases hrest
      rw [state_step henabled, GroupState.slots_act]
      have hid : (slot.retireProducers (slot.capVictims nowMs producerCapEvictBudget)).id = id := by
        rw [retireProducers_id, (slots_get?_of_streamSlot hlive).1]
      simp only [Act.slotAfter, hid, OrdMap.get?_insert_self, enforceOwn, evictProducersOverCap_eq]

/-- A write to a live stream: the writer's idle record is retired, the write is committed to what is
left, and the cap is enforced. -/
theorem write_trace [Blake3] {written : StreamSlot} {act : Act}
    (htrace : Trace machine
      (machine.ownActs id producer nowMs ++
        act :: ((machine.expireWriter id producer nowMs).act act).capActs id producer nowMs)
          machine')
    (hslot : machine.streamSlot id = some slot)
    (hact : act.slot = some (slot.expireOwn producer nowMs))
    (hafter : act.slotAfter (machine.expireWriter id producer nowMs).state = some written) :
    act.Enabled (machine.expireWriter id producer nowMs).state ∧
      machine'.state.slots.get? id = some (written.enforceOwn producer nowMs) := by
  obtain ⟨middle, hown, hrest⟩ := htrace.split
  obtain rfl := hown.unique (trace_expireWriter machine id producer nowMs)
  cases hrest with
  | cons henabled hcap =>
    refine ⟨henabled, ?_⟩
    have hown := streamSlot_expireWriter hslot producer nowMs
    have hid : written.id = id :=
      (Act.slotAfter_id hact hafter).trans (slots_get?_of_streamSlot hown).1
    refine capActs_trace hcap ?_
    have hget := GroupState.get?_slots_act _ hact hafter
    rw [hid] at hget
    rwa [state_step henabled]

variable {streamSeq : Option String} {closeAfter : Bool}

/-- A keyed write records its producer, and answers with the receipt it records. -/
theorem StreamSlot.write_keyed {group len history : ℕ} {request : ProducerRequest} {key : WriteKey}
    {advance : Advance} {check : IncarnationCheck}
    (hevaluate : evaluate (slot.producers.get? request.producerId)
      slot.retiredEpochWatermark history key check = advance.evaluation) :
    ∃ record receipt,
      advance.record group (slot.producers.get? request.producerId) key receipt nowMs =
        some record ∧
      (slot.write group len streamSeq closeAfter (some request) (some (key, advance))
        nowMs).1.producers = slot.producers.insert request.producerId record ∧
      ∃ ack, (slot.write group len streamSeq closeAfter (some request) (some (key, advance))
        nowMs).2 = some ack ∧ ack.delivery = .applied receipt := by
  have hproducers : (slot.inheritHistory group).producers = slot.producers := by
    unfold inheritHistory
    split_ifs <;> rfl
  unfold write recordProducer recordProducerSuccess
  cases advance with
  | claim closes opened =>
    dsimp only
    rw [hproducers]
    exact ⟨_, _, rfl, rfl, _, rfl, rfl⟩
  | next =>
    obtain ⟨old, hold, -⟩ := Logged.next_cases hevaluate
    dsimp only
    rw [hproducers, hold]
    exact ⟨_, _, rfl, rfl, _, rfl, rfl⟩

/-! ## Entries -/

section Entries

variable {command : StreamCommand} {check : IncarnationCheck} {response : StreamResponse}
  {streamId : BucketStreamId} {gate : Option (WriteKey × Advance)}

theorem keyOf_of_ne (htarget : command.stripped.writeTarget = some (streamId, producer, nowMs))
    (hne : streamId ≠ id) : command.keyOf id = none := by
  unfold StreamCommand.keyOf
  rw [htarget]
  cases producer with
  | none => rfl
  | some request => simp [hne]

theorem quiet_ownActs (hne : streamId ≠ id) (producer : Option ProducerRequest) (nowMs : ℕ) :
    ∀ act ∈ machine.ownActs streamId producer nowMs, ¬ act.TouchesProducers id := by
  intro act hact
  obtain ⟨slot, retired, hslot, rfl⟩ := mem_ownActs hact
  exact fun h => hne ((slots_get?_of_streamSlot hslot).1.symm.trans h)

theorem quiet_capActs (hne : streamId ≠ id) (producer : Option ProducerRequest) (nowMs : ℕ) :
    ∀ act ∈ machine.capActs streamId producer nowMs, ¬ act.TouchesProducers id := by
  intro act hact
  obtain ⟨slot, retired, hslot, rfl⟩ := mem_capActs hact
  exact fun h => hne ((slots_get?_of_streamSlot hslot).1.symm.trans h)

theorem quiet_expiry (h : Expiry machine streamId nowMs acts) :
    ∀ act ∈ acts, ¬ act.TouchesProducers id := by
  intro act hact
  obtain ⟨slot, rfl⟩ := h.mem hact
  exact fun h => h

theorem producerAck_of_declines (h : response.declines = true) : response.producerAck = none := by
  cases response with
  | error => rfl
  | _ => cases h

/-- An answer that no producer write of the stream applied: it names no write of the stream, or it
is the repeat that the records its writer finds evaluate to. -/
inductive Unapplied (machine : StreamStateMachine) (command : StreamCommand)
    (response : StreamResponse) (id : BucketStreamId) (slot : StreamSlot) : Prop
  | unkeyed (h : command.keyOf id = none)
  | unacked (h : response.producerAck = none)
  | repeated {request : ProducerRequest} {key : WriteKey} {nowMs : ℕ} {ack : ProducerAck}
      (hkey : command.keyOf id = some (request.producerId, key))
      (hevaluate : evaluate ((slot.expireOwn (some request) nowMs).producers.get?
        request.producerId)
        (slot.expireOwn (some request) nowMs).retiredEpochWatermark machine.historyId key
        command.checkOf = .repeat ack)
      (hack : response.producerAck = some ack)

/-- The retirements of a command that applies no keyed write to the stream: none, those of a keyed
write that is not applied, or those of one step of `TidyStream`. -/
inductive Retired (command : StreamCommand) (id : BucketStreamId) (slot slot' : StreamSlot) : Prop
  | none (h : SameProducers slot slot')
  | unwritten {request : ProducerRequest} {nowMs : ℕ} {found : StreamSlot}
      (htarget : command.stripped.writeTarget = some (id, some request, nowMs))
      (hfound : found = slot ∨ found = slot.expireOwn (some request) nowMs)
      (h : SameProducers (found.evictProducersOverCap nowMs producerCapEvictBudget) slot')
  | tidied {nowMs : ℕ} (htidy : command.stripped = .tidyStream id nowMs)
      (h : SameProducers (slot.tidy nowMs) slot')

theorem Retired.exists_retired (h : Retired command id slot slot') :
    ∃ retired, SameProducers (slot.retireProducers retired) slot' := by
  cases h with
  | none h => exact ⟨[], h⟩
  | @unwritten request nowMs found htarget hfound h =>
    rw [evictProducersOverCap_eq] at h
    generalize found.capVictims nowMs producerCapEvictBudget = victims at h
    obtain rfl | rfl := hfound
    · exact ⟨victims, h⟩
    obtain ⟨retired, hretired⟩ := slot.expireOwn_eq (some request) nowMs
    rw [hretired] at h
    exact ⟨retired ++ victims, (show slot.retireProducers (retired ++ victims) = _ from
      foldl_append) ▸ h⟩
  | tidied htidy h =>
    rw [tidy_eq] at h
    exact ⟨_, h⟩

/-- What an entry answers about the producer writes of a stream, and what it makes of the stream's
records as long as it leaves the stream live: it retires some, or it applies a write, which is
evaluated against the records its writer finds, and enforces the cap. -/
inductive ProducerEffect (machine : StreamStateMachine) (command : StreamCommand)
    (response : StreamResponse) (id : BucketStreamId) (slot : StreamSlot)
    (machine' : StreamStateMachine) : Prop
  | retired (hanswer : Unapplied machine command response id slot)
      (hafter : ∀ slot', machine'.state.slots.get? id = some slot' → Retired command id slot slot')
  | written {request : ProducerRequest} {key : WriteKey} {advance : Advance}
      {record : ProducerState} {receipt : WriteReceipt} {nowMs : ℕ}
      (htarget : command.stripped.writeTarget = some (id, some request, nowMs))
      (hevaluate : evaluate ((slot.expireOwn (some request) nowMs).producers.get?
        request.producerId)
        (slot.expireOwn (some request) nowMs).retiredEpochWatermark machine.historyId key
        command.checkOf = advance.evaluation)
      (hroom : ∀ opened, advance = .claim none opened →
        (slot.expireOwn (some request) nowMs).producerCapAdmits request.producerId nowMs = true)
      (hrecord : advance.record machine.historyId
        ((slot.expireOwn (some request) nowMs).producers.get? request.producerId)
          key receipt nowMs = some record)
      (hwrite : appliedWrite id command response =
        some ⟨request.producerId, key.epoch, key.seq, key.digest, receipt⟩)
      (hafter : ∀ slot', machine'.state.slots.get? id = some slot' →
        SameProducers
          ({ slot.expireOwn (some request) nowMs with
              producers := (slot.expireOwn (some request) nowMs).producers.insert request.producerId
                record }.evictProducersOverCap nowMs producerCapEvictBudget) slot')

theorem producerAck_existingResponse (input : NewStream) (existing : StreamMetadata) :
    (input.existingResponse existing).producerAck = none := by
  unfold NewStream.existingResponse
  split_ifs <;> rfl

theorem not_applied_of_repeat {old : Option ProducerState} {floor : Option ℕ} {history : ℕ}
    {key : WriteKey} {ack : ProducerAck} (h : evaluate old floor history key check = .repeat ack)
    (receipt : WriteReceipt) : ack.delivery ≠ .applied receipt := by
  cases old with
  | none =>
    obtain ⟨refusal, heq⟩ | ⟨-, -, heq⟩ := evaluate_none_cases floor history key check
    · cases heq.symm.trans h
    · cases heq.symm.trans h
  | some old =>
    have hrecorded := recorded_evaluate old floor history key check
    rw [h] at hrecorded
    cases hrecorded with
    | current hepoch hfence hcurrent =>
      cases hcurrent with
      | «repeat» hseq hdigest hdelivered => simp [hdelivered]
      | evicted hseq hdelivered => simp [hdelivered]

theorem Unapplied.appliedWrite (h : Unapplied machine command response id slot) :
    appliedWrite id command response = none := by
  unfold Ursula.appliedWrite
  cases h with
  | unkeyed h => rw [h]
  | unacked h =>
    rw [h]
    cases command.keyOf id <;> rfl
  | repeated hkey hevaluate hack =>
    rw [hkey, hack]
    split
    · next heq => exact absurd (Option.some.inj heq) (not_applied_of_repeat hevaluate _)
    · rfl

theorem delivery_of_appliedWrite {write : AppliedWrite}
    (h : appliedWrite id command response = some write) :
    ∃ ack, response.producerAck = some ack ∧ ack.delivery = .applied write.receipt := by
  unfold appliedWrite at h
  split at h
  · next hack =>
    obtain ⟨ack, hack, hdelivery⟩ := Option.map_eq_some_iff.mp hack
    cases h
    exact ⟨ack, hack, hdelivery⟩
  · cases h

/-- A committed write's effect. -/
theorem ProducerEffect.of_write {len : ℕ}
    (htarget : command.stripped.writeTarget = some (id, producer, nowMs))
    (hgate : GateOf machine.historyId (slot.expireOwn producer nowMs) command.checkOf nowMs producer
      gate)
    (hack : response.producerAck = ((slot.expireOwn producer nowMs).write machine.historyId len
      streamSeq closeAfter producer gate nowMs).2)
    (hafter : ∀ slot', machine'.state.slots.get? id = some slot' →
      SameProducers (((slot.expireOwn producer nowMs).write machine.historyId len streamSeq
        closeAfter producer gate nowMs).1.enforceOwn producer nowMs) slot') :
    ProducerEffect machine command response id slot machine' := by
  have hfloor : ((slot.expireOwn producer nowMs).write machine.historyId len streamSeq closeAfter
      producer gate nowMs).1.retiredEpochWatermark =
        (slot.expireOwn producer nowMs).retiredEpochWatermark := by
    rw [write_eq]
    unfold inheritHistory
    split_ifs <;> rfl
  cases hgate with
  | unkeyed =>
    have hkey : command.keyOf id = none := by
      unfold StreamCommand.keyOf
      rw [htarget]
    refine .retired (.unkeyed hkey) fun slot' hslot' =>
      .none (.trans ⟨?_, hfloor.symm⟩ (hafter slot' hslot'))
    show slot.producers = (slot.inheritHistory machine.historyId).producers
    unfold inheritHistory
    split_ifs <;> rfl
  | @keyed request key advance hwriteKey hevaluate hroom =>
    obtain ⟨record, receipt, hrecord, hproducers, ack, hwritten, hdelivery⟩ :=
      (slot.expireOwn (some request) nowMs).write_keyed hevaluate
    have hkey : command.keyOf id = some (request.producerId, key) := by
      unfold StreamCommand.keyOf
      simp only [htarget, if_true, hwriteKey]
    refine .written htarget hevaluate hroom hrecord ?_ fun slot' hslot' =>
      .trans ?_ (hafter slot' hslot')
    · unfold appliedWrite
      rw [hkey, hack, hwritten]
      simp only [Option.map_some, hdelivery]
    · have hwrite : SameProducers { slot.expireOwn (some request) nowMs with
            producers := (slot.expireOwn (some request) nowMs).producers.insert request.producerId
              record } _ := ⟨hproducers.symm, hfloor.symm⟩
      exact hwrite.evictProducersOverCap _ _

variable [Blake3]

/-- Changes that touch none of a stream's records have an effect on it that is not a write. -/
theorem ProducerEffect.of_quiet (htrace : Trace machine acts machine')
    (hslot : machine.streamSlot id = some slot) (hquiet : ∀ act ∈ acts, ¬ act.TouchesProducers id)
    (hanswer : Unapplied machine command response id slot) :
    ProducerEffect machine command response id slot machine' := by
  refine .retired hanswer fun slot' hslot' => ?_
  obtain ⟨before, hbefore, hsame⟩ := sameProducers_trace htrace hquiet hslot'
  cases ((streamSlot_eq ..).symm.trans hslot).symm.trans hbefore
  exact .none hsame

/-- The effect of a write that was refused before its stream was looked at. -/
theorem ProducerEffect.of_capped
    (htrace : Trace machine (machine.capActs streamId producer nowMs) machine')
    (htarget : command.stripped.writeTarget = some (streamId, producer, nowMs))
    (hslot : machine.streamSlot id = some slot)
    (hanswer : Unapplied machine command response id slot) :
    ProducerEffect machine command response id slot machine' := by
  by_cases hid : streamId = id
  · subst hid
    refine .retired hanswer fun slot' hslot' => ?_
    rw [streamSlot_eq] at hslot
    cases (capActs_trace htrace hslot).symm.trans hslot'
    cases producer with
    | none => exact .none (.refl _)
    | some request => exact .unwritten htarget (.inl rfl) (.refl _)
  · exact .of_quiet htrace hslot (quiet_capActs hid _ _) hanswer

/-- The effect of a write that is not applied to its live stream. -/
theorem ProducerEffect.of_unwritten (htrace : Trace machine
      (machine.ownActs streamId producer nowMs ++
        (machine.expireWriter streamId producer nowMs).capActs streamId producer nowMs) machine')
    (htarget : command.stripped.writeTarget = some (streamId, producer, nowMs))
    (hslot : machine.streamSlot id = some slot)
    (hanswer : Unapplied machine command response id slot) :
    ProducerEffect machine command response id slot machine' := by
  by_cases hid : streamId = id
  · subst hid
    refine .retired hanswer fun slot' hslot' => ?_
    obtain ⟨middle, hown, hcap⟩ := htrace.split
    obtain rfl := hown.unique (trace_expireWriter machine streamId producer nowMs)
    have hfound := streamSlot_expireWriter hslot producer nowMs
    rw [streamSlot_eq] at hfound
    cases (capActs_trace hcap hfound).symm.trans hslot'
    cases producer with
    | none => exact .none (.refl _)
    | some request => exact .unwritten htarget (.inr rfl) (.refl _)
  · refine .of_quiet htrace hslot (fun act hact => ?_) hanswer
    obtain hact | hact := mem_append.mp hact
    · exact quiet_ownActs hid _ _ act hact
    · exact quiet_capActs hid _ _ act hact

/-- The effect of the changes of a committed write, on its own stream and on the others. -/
theorem ProducerEffect.of_trace {found written : StreamSlot} {act : Act} {len : ℕ}
    (htrace : Trace machine
      (machine.ownActs streamId producer nowMs ++ act ::
        ((machine.expireWriter streamId producer nowMs).act act).capActs streamId producer nowMs)
      machine') (htarget : command.stripped.writeTarget = some (streamId, producer, nowMs))
    (hfound : machine.streamSlot streamId = some found)
    (hact : act.slot = some (found.expireOwn producer nowMs))
    (hafter : act.slotAfter (machine.expireWriter streamId producer nowMs).state = some written)
    (hother : found.id ≠ id → ¬ act.TouchesProducers id)
    (hgate : act.Enabled (machine.expireWriter streamId producer nowMs).state →
      GateOf (machine.expireWriter streamId producer nowMs).historyId
        (found.expireOwn producer nowMs) command.checkOf nowMs producer gate)
    (hwritten : SameProducers ((found.expireOwn producer nowMs).write
      (machine.expireWriter streamId producer nowMs).historyId len streamSeq
        closeAfter producer gate
      nowMs).1 written) (hack : response.producerAck = ((found.expireOwn producer nowMs).write
      (machine.expireWriter streamId producer nowMs).historyId len streamSeq
        closeAfter producer gate
      nowMs).2) (hslot : machine.streamSlot id = some slot) :
    ProducerEffect machine command response id slot machine' := by
  rw [historyId_expireWriter] at hgate hwritten hack
  by_cases hid : streamId = id
  · subst hid
    cases hfound.symm.trans hslot
    obtain ⟨henabled, henforced⟩ := write_trace htrace hfound hact hafter
    refine .of_write htarget (hgate henabled) hack fun slot' hslot' => ?_
    cases henforced.symm.trans hslot'
    exact hwritten.enforceOwn producer nowMs
  · have hquiet := hother fun h => hid ((slots_get?_of_streamSlot hfound).1.symm.trans h)
    refine .of_quiet htrace hslot (fun change hchange => ?_) (.unkeyed (keyOf_of_ne htarget hid))
    obtain hchange | hchange := mem_append.mp hchange
    · exact quiet_ownActs hid _ _ change hchange
    · obtain rfl | hchange := mem_cons.mp hchange
      · exact hquiet
      · exact quiet_capActs hid _ _ change hchange

/-- **Effects.** What an entry makes of a stream's producers. -/
theorem producerEffect {plain : StreamCommand} (htrace : Trace machine acts machine')
    (houtcome : Outcome machine check plain acts response) (hplain : command.stripped = plain)
    (hcheck : command.checkOf = check) (hslot : machine.streamSlot id = some slot)
    (hcreated : ∀ nextOffset closed, response ≠ .created id nextOffset closed) :
    ProducerEffect machine command response id slot machine' := by
  cases houtcome with
  | refused h => exact .of_quiet htrace hslot (by simp) (.unacked (producerAck_of_declines h))
  | streamExists hinput hfound =>
    exact .of_quiet htrace hslot (by simp) (.unacked (producerAck_existingResponse ..))
  | createRefused hinput hexpiry h =>
    exact .of_quiet htrace hslot (quiet_expiry hexpiry) (.unacked (producerAck_of_declines h))
  | created hinput hexpiry =>
    refine .of_quiet htrace hslot (fun act hact => ?_) (.unacked rfl)
    obtain hact | hact := mem_append.mp hact
    · exact quiet_expiry hexpiry act hact
    · obtain rfl := mem_singleton.mp hact
      exact fun hid => hcreated _ _ (by rw [hid])
  | expired htarget hfound hexpired h =>
    refine .of_quiet htrace hslot (by simp [Act.TouchesProducers]) (.unacked ?_)
    obtain h | rfl := h
    · exact producerAck_of_declines h
    · rfl
  | capped htarget h =>
    rw [← hplain] at htarget
    exact .of_capped htrace htarget hslot (.unacked (producerAck_of_declines h))
  | @unwritten plain streamId producer nowMs found response htarget hunexpired hfound h =>
    rw [← hplain] at htarget
    refine .of_unwritten htrace htarget hslot ?_
    cases h with
    | refused h => exact .unacked (producerAck_of_declines h)
    | limited | closed => exact .unacked rfl
    | repeated hproducer hkey hevaluate hack =>
      subst hproducer
      by_cases hid : streamId = id
      · subst hid
        cases hfound.symm.trans hslot
        refine .repeated ?_ (hcheck ▸ hevaluate) hack
        unfold StreamCommand.keyOf
        simp only [htarget, if_true, hkey]
      · exact .unkeyed (keyOf_of_ne htarget hid)
  | @appended plain input found gate messageCount hinput hunexpired hfound =>
    have htarget := StreamCommand.writeTarget_of_appendInput hinput
    have hinputCheck : input.check = command.checkOf := by
      cases plain <;> cases hinput <;> exact hcheck.symm
    have hown := found.expireOwn_id input.producer input.nowMs
    rw [← hplain] at htarget
    cases hkind : input.kind with
    | closeOnly =>
      refine .of_trace htrace htarget hfound rfl (if_pos hkind)
        (fun hne h => hne (hown.symm.trans h)) (fun henabled => hinputCheck ▸ henabled.2.2.2.2.2)
        (.refl _) ?_ hslot
      simp only [commitAppend, hkind, if_true]
      rfl
    | append =>
      refine .of_trace htrace htarget hfound rfl (if_neg (by rw [hkind]; simp))
        (fun hne h => hne (hown.symm.trans h)) (fun henabled => hinputCheck ▸ henabled.2.2.2.2.2)
        ⟨rfl, rfl⟩ ?_ hslot
      simp only [commitAppend, hkind, reduceCtorEq, if_false]
      rfl
  | @appendedExternal plain input found gate hinput hunexpired hfound =>
    have htarget := StreamCommand.writeTarget_of_externalInput hinput
    have hinputCheck : input.check = command.checkOf := by
      cases plain <;> cases hinput
      exact hcheck.symm
    have hown := found.expireOwn_id input.producer input.nowMs
    rw [← hplain] at htarget
    exact .of_trace htrace htarget hfound rfl rfl (fun hne h => hne (hown.symm.trans h))
      (fun henabled => hinputCheck ▸ henabled.2.2.2.2) ⟨rfl, rfl⟩ rfl hslot
  | snapshotKept hinput hfound hsnapshot hacts =>
    refine .of_quiet htrace hslot ?_ (.unacked rfl)
    obtain rfl | ⟨object, -, -, rfl⟩ := hacts <;> simp [Act.TouchesProducers]
  | dropped hfound hscope hcheck h =>
    exact .of_quiet htrace hslot (by simp [Act.TouchesProducers])
      (.unacked (producerAck_of_declines h))
  | @tidied streamId nowMs found debtRemaining hfound =>
    by_cases hid : streamId = id
    · subst hid
      obtain rfl := Option.some.inj (hfound.symm.trans hslot)
      refine .retired (.unacked rfl) fun slot' hslot' => .tidied hplain ?_
      cases htrace with
      | cons henabled hrest =>
        cases hrest
        rw [state_step henabled, GroupState.slots_act] at hslot'
        simp only [Act.slotAfter, ← tidy_eq] at hslot'
        have hname : (found.tidy nowMs).id = streamId := by
          rw [tidy_eq, retireProducers_id, (slots_get?_of_streamSlot hslot).1]
        rw [hname, OrdMap.get?_insert_self] at hslot'
        exact Option.some.inj hslot' ▸ .refl _
    · refine .of_quiet htrace hslot (fun act hact => ?_) (.unacked rfl)
      obtain rfl := mem_singleton.mp hact
      exact fun h => hid ((slots_get?_of_streamSlot hfound).1.symm.trans h)
  | purged hremovals =>
    refine .of_quiet htrace hslot (fun act hact => ?_) (.unacked rfl)
    obtain hact | hact := mem_append.mp hact
    · obtain ⟨removed, rfl⟩ := hremovals act hact
      exact fun h => h
    · obtain rfl := mem_singleton.mp hact
      exact fun h => h
  | imported =>
    -- an import finds no stream
    cases htrace with
    | cons henabled _ =>
      rw [streamSlot_eq, henabled.2.2.1, OrdMap.get?_empty] at hslot
      cases hslot
  | swept hacts =>
    refine .of_quiet htrace hslot (fun act hact => ?_) (.unacked rfl)
    obtain rfl | rfl | ⟨removed, rfl⟩ := hacts act hact
    all_goals exact fun h => h
  | _ => exact .of_quiet htrace hslot (by simp [Act.TouchesProducers]) (.unacked rfl)

/-- The slot that a create answered with makes. -/
theorem created_slot {plain : StreamCommand} {nextOffset : ℕ} {closed : Bool}
    (htrace : Trace machine acts machine')
    (houtcome : Outcome machine check plain acts (.created id nextOffset closed)) :
    ∃ state input history createdAtMs, machine'.streamSlot id =
      some (GroupState.createdSlot state input history createdAtMs) := by
  generalize hresponse : StreamResponse.created id nextOffset closed = response at houtcome
  cases houtcome with
  | @created plain input expiry history createdAtMs hinput hexpiry =>
    cases hresponse
    obtain ⟨middle, -, hcreate⟩ := htrace.split
    cases hcreate with
    | cons henabled hrest =>
      cases hrest
      refine ⟨middle.state, input, history, createdAtMs, ?_⟩
      rw [streamSlot_eq, state_step henabled, GroupState.slots_act]
      exact OrdMap.get?_insert_self ..
  | streamExists =>
    unfold NewStream.existingResponse at hresponse
    split_ifs at hresponse
    cases hresponse
  | appended =>
    unfold commitAppend at hresponse
    split_ifs at hresponse
  | unwritten htarget hunexpired hfound h =>
    subst hresponse
    cases h with
    | refused h => cases h
    | repeated hproducer hkey hevaluate hack => cases hack
  | expired htarget hfound hexpired h =>
    subst hresponse
    obtain h | h := h <;> cases h
  | refused h | createRefused _ _ h | capped _ h | dropped _ _ _ h =>
    subst hresponse
    cases h
  | _ => cases hresponse

end Entries

end Ursula

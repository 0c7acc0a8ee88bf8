import Ursula.Stream.ProducerEffect

/-!
# Exactly-once producer writes

One stream incarnation, from the create that made it on, under any commands of its group's log and
any restores of its group's snapshot. The log of its producer writes is kept from the commands and
their answers alone; the records and the epoch floor always tell it, so a tokened write never
applies twice.

## Main definitions

* `WriteLog.observe`: the log after one more entry
* `Incarnation`: the runs of one incarnation, with its log

## Main results

* `Incarnation.logged`: the records and the floor tell the log
* `producer_writes_exactly_once`: what that means for the writes
-/

namespace Ursula

open Word64 StreamStateMachine

/-! ## Observed writes -/

namespace StreamStateMachine

/-- The producers of a stream, if it lives. -/
def producersOf (machine : StreamStateMachine) (id : BucketStreamId) :
    OrdMap String ProducerState :=
  match machine.streamSlot id with
  | none => ∅
  | some slot => slot.producers

/-- The producer records of a stream as its writer finds them: the writer's own is gone once it is
idle. -/
def producersFor (machine : StreamStateMachine) (id : BucketStreamId) (command : StreamCommand) :
    OrdMap String ProducerState :=
  match machine.streamSlot id, command.stripped.writeTarget with
  | some slot, some (_, producer, nowMs) => (slot.expireOwn producer nowMs).producers
  | _, _ => machine.producersOf id

end StreamStateMachine

/-- The log after one more entry. A write that applied joins the life of the record it was evaluated
against, and a record that is gone takes its life with it. -/
def WriteLog.observe (log : WriteLog) (id : BucketStreamId) (machine : StreamStateMachine)
    (command : StreamCommand) (applied : StreamStateMachine × StreamResponse) : WriteLog :=
  match appliedWrite id command applied.2 with
  | none => log.forget (applied.1.producersOf id)
  | some write =>
    ((log.forget (machine.producersFor id command)).push (some write)).forget
      (applied.1.producersOf id)

section Runs

variable [Blake3]

/-- The runs of one incarnation of a stream, with the log of its producer writes: it begins at a
create, and goes on with log entries and restores of the group's own snapshot as long as the stream
lives and is not created again. -/
inductive Incarnation (id : BucketStreamId) : StreamStateMachine → WriteLog → Prop
  | created {machine : StreamStateMachine} {index : ℕ} {command : StreamCommand} {nextOffset : ℕ}
      {closed : Bool} (h : (machine.applyEntry index command).2 = .created id nextOffset closed) :
      Incarnation id (machine.applyEntry index command).1 WriteLog.empty
  | entry {machine : StreamStateMachine} {log : WriteLog} (hrun : Incarnation id machine log)
      (index : ℕ) (command : StreamCommand)
      (hlive : ((machine.applyEntry index command).1.streamSlot id).isSome = true)
      (hsame : ∀ nextOffset closed,
        (machine.applyEntry index command).2 ≠ .created id nextOffset closed) :
      Incarnation id (machine.applyEntry index command).1
        (log.observe id machine command (machine.applyEntry index command))
  | restored {machine restored : StreamStateMachine} {log : WriteLog}
      (hrun : Incarnation id machine log)
      (h : restoreGroup machine.snapshot machine.usageSnapshot = .ok restored) :
      Incarnation id restored log

end Runs

section Entries

variable [Blake3] {machine machine' : StreamStateMachine} {command : StreamCommand}
  {check : IncarnationCheck} {response : StreamResponse} {acts : List Act} {id : BucketStreamId}

/-! ## The log is told -/

variable {log : WriteLog}

omit [Blake3] in
/-- What an entry leaves of a stream's records tells the log after it. -/
theorem ProducerEffect.logged {slot slot' : StreamSlot}
    (heffect : ProducerEffect machine command response id slot machine')
    (hlogged : Logged slot.producers slot.retiredEpochWatermark log)
    (hslot : machine.streamSlot id = some slot) (hslot' : machine'.streamSlot id = some slot') :
    Logged slot'.producers slot'.retiredEpochWatermark
      (log.observe id machine command (machine', response)) := by
  have hafterOf : machine'.producersOf id = slot'.producers := by
    unfold producersOf
    rw [hslot']
  unfold WriteLog.observe
  rw [streamSlot_eq] at hslot'
  cases heffect with
  | retired hanswer hafter =>
    obtain ⟨retired, hsame⟩ := (hafter slot' hslot').exists_retired
    rw [hanswer.appliedWrite, hafterOf, ← hsame.producers, ← hsame.floor]
    exact hlogged.retireProducers retired
  | @written request key advance record receipt nowMs htarget hevaluate hroom hrecord hwrite
      hafter =>
    have hsame := hafter slot' hslot'
    rw [StreamSlot.evictProducersOverCap_eq] at hsame
    obtain ⟨retired, hown⟩ := slot.expireOwn_eq (some request) nowMs
    have hfor : machine.producersFor id command =
        (slot.expireOwn (some request) nowMs).producers := by
      unfold producersFor
      simp only [hslot, htarget]
    have hfound := hlogged.retireProducers retired
    rw [← hown] at hfound
    have hwritten : Logged _ _ (WriteLog.push _
        (some ⟨request.producerId, key.epoch, key.seq, key.digest, receipt⟩)) :=
      hfound.write hevaluate hrecord rfl rfl rfl rfl
    rw [hwrite, hafterOf, hfor, ← hsame.producers, ← hsame.floor]
    exact @Logged.retireProducers _ { slot.expireOwn (some request) nowMs with
        producers := (slot.expireOwn (some request) nowMs).producers.insert request.producerId
          record } hwritten _

/-- **The log is told.** In every run of an incarnation the stream's records and its epoch floor
tell the log of its producer writes. -/
theorem Incarnation.logged (h : Incarnation id machine log) :
    ∃ slot, machine.streamSlot id = some slot ∧
      Logged slot.producers slot.retiredEpochWatermark log := by
  induction h with
  | @created machine index command nextOffset closed h =>
    obtain ⟨acts, htrace, houtcome⟩ := applyEntry_explained machine index command
    rw [h] at houtcome
    obtain ⟨state, input, history, createdAtMs, hslot⟩ := created_slot htrace houtcome
    exact ⟨_, hslot, Logged.empty _⟩
  | @entry machine log hrun index command hlive hsame ih =>
    obtain ⟨slot, hslot, hlogged⟩ := ih
    obtain ⟨slot', hslot'⟩ := Option.isSome_iff_exists.mp hlive
    obtain ⟨acts, htrace, houtcome⟩ := applyEntry_explained machine index command
    exact ⟨slot', hslot', (producerEffect htrace houtcome rfl rfl hslot hsame).logged hlogged hslot
      hslot'⟩
  | @restored machine restored log hrun h ih =>
    obtain ⟨slot, hslot, hlogged⟩ := ih
    refine ⟨slot, ?_, hlogged⟩
    rw [streamSlot_eq] at hslot ⊢
    rw [(restoreGroup_own h).slots, hslot]

omit [Blake3] in
/-- A write that an entry applied was evaluated against records that tell the log. -/
theorem ProducerEffect.evaluated {slot : StreamSlot} {write : AppliedWrite}
    (heffect : ProducerEffect machine command response id slot machine')
    (hlogged : Logged slot.producers slot.retiredEpochWatermark log)
    (hwrite : appliedWrite id command response = some write) :
    ∃ producers floor history key advance, Logged producers floor (log.forget producers) ∧
      evaluate (producers.get? write.producerId) floor history key command.checkOf =
        Advance.evaluation advance ∧ key.epoch = write.epoch ∧ key.seq = write.seq := by
  cases heffect with
  | retired hanswer => cases hanswer.appliedWrite.symm.trans hwrite
  | @written request key advance record receipt nowMs htarget hevaluate hroom hrecord heq =>
    cases heq.symm.trans hwrite
    obtain ⟨retired, hown⟩ := slot.expireOwn_eq (some request) nowMs
    have hfound := hlogged.retireProducers retired
    rw [← hown] at hfound
    exact ⟨_, _, _, key, advance, hfound, hevaluate, rfl, rfl⟩

omit [Blake3] in
/-- A repeat that an entry answered with was evaluated against records that tell the log. -/
theorem ProducerEffect.repeated {slot : StreamSlot} {producerId : String} {key : WriteKey}
    {ack : ProducerAck} (heffect : ProducerEffect machine command response id slot machine')
    (hlogged : Logged slot.producers slot.retiredEpochWatermark log)
    (hkey : command.keyOf id = some (producerId, key)) (hack : response.producerAck = some ack)
    (hrepeat : ∀ receipt, ack.delivery ≠ .applied receipt) :
    ∃ producers floor history, Logged producers floor (log.forget producers) ∧
      evaluate (producers.get? producerId) floor history key command.checkOf = .repeat ack := by
  cases heffect with
  | retired hanswer =>
    cases hanswer with
    | unkeyed h => cases h.symm.trans hkey
    | unacked h => cases h.symm.trans hack
    | @repeated request key' nowMs ack' hkey' hevaluate hack' =>
      obtain ⟨rfl, rfl⟩ := Prod.ext_iff.mp (Option.some.inj (hkey'.symm.trans hkey))
      cases hack'.symm.trans hack
      obtain ⟨retired, hown⟩ := slot.expireOwn_eq (some request) nowMs
      have hfound := hlogged.retireProducers retired
      rw [← hown] at hfound
      exact ⟨_, _, _, hfound, hevaluate⟩
  | written htarget hevaluate hroom hrecord hwrite =>
    obtain ⟨ack', hack', hdelivery⟩ := delivery_of_appliedWrite hwrite
    cases hack'.symm.trans hack
    exact absurd hdelivery (hrepeat _)

omit [Blake3] in
theorem WriteLog.mem_life_of_forget {producers : OrdMap String ProducerState} {producerId : String}
    {write : AppliedWrite} (h : write ∈ (log.forget producers).life producerId) :
    write ∈ log.life producerId := by
  simp only [WriteLog.forget] at h
  split_ifs at h
  · exact h
  · cases h

/-- **Exactly once.** In every run of an incarnation, a tokened write that applies was not applied
before; the writes of a record's life have the seqs from zero on, epoch by epoch; and a repeat names
a write of the record's life, with the write's receipt and digest. -/
theorem producer_writes_exactly_once {log : WriteLog} (h : Incarnation id machine log) :
    (∀ index command write, command.checkOf = .matched →
      appliedWrite id command (machine.applyEntry index command).2 = some write →
      ∀ earlier ∈ log.applied, ¬ earlier.SameKey write) ∧
    (∀ producerId record, (machine.producersOf id).get? producerId = some record →
      ∀ epoch, ∃ n, ((log.life producerId).filter fun write => write.epoch = epoch).map
        AppliedWrite.seq = List.range n ∧ (epoch = record.epoch → n = record.lastSeq + 1)) ∧
    (∀ index command producerId key ack, command.keyOf id = some (producerId, key) →
      (machine.applyEntry index command).2.producerAck = some ack →
      (∀ receipt, ack.delivery = .repeat receipt → ∃ write ∈ log.life producerId,
        write.epoch = key.epoch ∧ write.seq = key.seq ∧ write.receipt = receipt ∧
          write.digest = key.digest) ∧
      (ack.delivery = .evicted → ∃ write ∈ log.life producerId,
        write.epoch = key.epoch ∧ write.seq = key.seq)) := by
  obtain ⟨slot, hslot, hlogged⟩ := h.logged
  have heffect : ∀ index command, (∃ ack, (machine.applyEntry index command).2.producerAck =
      some ack) → ProducerEffect machine command (machine.applyEntry index command).2 id slot
        (machine.applyEntry index command).1 := by
    rintro index command ⟨ack, hack⟩
    obtain ⟨acts, htrace, houtcome⟩ := applyEntry_explained machine index command
    refine producerEffect htrace houtcome rfl rfl hslot fun nextOffset closed hcreated => ?_
    rw [hcreated] at hack
    cases hack
  refine ⟨?_, ?_, ?_⟩
  · intro index command write hcheck hwrite earlier hearlier hsame
    obtain ⟨ack, hack, -⟩ := delivery_of_appliedWrite hwrite
    obtain ⟨producers, floor, history, key, advance, hfound, hevaluate, hepoch, hseq⟩ :=
      (heffect index command ⟨ack, hack⟩).evaluated hlogged hwrite
    rw [hcheck] at hevaluate
    refine hfound.fresh hevaluate hearlier hsame.1 ⟨?_, ?_⟩
    · rw [hsame.2.1, hepoch]
    · rw [hsame.2.2, hseq]
  · intro producerId record hrecord epoch
    have hof : machine.producersOf id = slot.producers := by
      unfold producersOf
      rw [hslot]
    rw [hof] at hrecord
    obtain ⟨n, hseqs, hlast, -⟩ := (hlogged.life producerId record hrecord).seqs epoch
    exact ⟨n, hseqs, hlast⟩
  · intro index command producerId key ack hkey hack
    have hrepeated := (heffect index command ⟨ack, hack⟩).repeated hlogged hkey hack
    refine ⟨fun receipt hreceipt => ?_, fun hevicted => ?_⟩
    · obtain ⟨producers, floor, history, hfound, hevaluate⟩ := hrepeated (by simp [hreceipt])
      obtain ⟨receipt', hreceipt', write, hmem, hwrite⟩ | ⟨hevicted, -⟩ := hfound.repeated hevaluate
      · obtain rfl := ProducerDelivery.repeat.inj (hreceipt'.symm.trans hreceipt)
        exact ⟨write, WriteLog.mem_life_of_forget hmem, hwrite⟩
      · cases hevicted.symm.trans hreceipt
    · obtain ⟨producers, floor, history, hfound, hevaluate⟩ := hrepeated (by simp [hevicted])
      obtain ⟨receipt', hreceipt', -⟩ | ⟨-, write, hmem, hwrite⟩ := hfound.repeated hevaluate
      · cases hreceipt'.symm.trans hevicted
      · exact ⟨write, WriteLog.mem_life_of_forget hmem, hwrite⟩

end Entries

section Witness

attribute [local instance] Blake3.zero

/-- A create, a producer's first write, and the same write again: the answer is a repeat, and names
the write that applied. -/
theorem producer_write_repeats :
    let group := (StreamStateMachine.new.applyEntries sampleGenesis).1
    let created := group.applyEntry 3 (sampleCreate [])
    let write := sampleAppend [65] (some ⟨"p", 0, 0, none, 0⟩)
    let written := created.1.applyEntry 4 write
    let log := WriteLog.empty.observe sampleStream created.1 write written
    Incarnation sampleStream written.1 log ∧
      ∃ applied ∈ log.life "p", applied.epoch = 0 ∧ applied.seq = 0 ∧
        applied.receipt = ⟨0, 1, false⟩ ∧ applied.digest = none := by
  intro group created write written log
  have hcreated : created.2 = .created sampleStream 0 false := by decide +kernel
  have hwritten : written.2 = .appended 0 1 false (some ⟨0, 0, none, .applied ⟨0, 1, false⟩⟩) := by
    decide +kernel
  have hrun : Incarnation sampleStream written.1 log :=
    .entry (.created hcreated) 4 write (by decide +kernel) fun nextOffset closed heq =>
      absurd (hwritten.symm.trans heq) (by simp)
  refine ⟨hrun, ?_⟩
  obtain ⟨hrepeat, -⟩ := (producer_writes_exactly_once hrun).2.2 5 write "p" ⟨0, 0, none⟩
    ⟨0, 0, none, .repeat ⟨0, 1, false⟩⟩ (by decide +kernel) (by decide +kernel)
  exact hrepeat _ rfl

end Witness

end Ursula

import Ursula.Stream.ProducerEffect

/-!
# Previews of producer writes

Two read-only questions about a producer write that the leader asks before it proposes the write:
whether it would be answered as a repeat, and which answer it gets whatever its body. A preview
evaluates the write's key against the stream's records as they are, and counts an idle record as
retired; applying the write retires the idle record first. Both come to the same evaluation.

## Main definitions

* `StreamStateMachine.appendWouldDeduplicate`: whether a write would be answered as a repeat
* `StreamStateMachine.producerEarlyAnswer`: the answer that does not depend on the write's body

## Main results

* `evaluateWrite_expireOwn`: retiring the writer's idle record leaves the evaluation alone
* `previews_agree`: the previews are what applying the write answers
-/

namespace Ursula

open Word64 StreamStateMachine Checks StreamResponse StreamSlot

/-! ## The previews -/

/-- An answer to a tokened producer write that does not depend on its body. -/
inductive ProducerEarlyAnswer
  | repeat (ack : ProducerAck)
  | keyConflict (epoch : ℕ)
deriving DecidableEq

namespace StreamStateMachine

/-- Whether the stream is there and has not expired at `nowMs`. -/
def streamIsLive (machine : StreamStateMachine) (streamId : BucketStreamId) (nowMs : ℕ) : Bool :=
  (machine.streamMetadata streamId).any fun stream => !streamIsExpired stream nowMs

/-- Whether a write from `producer` would be answered as a repeat of a write that applied before. -/
def appendWouldDeduplicate (machine : StreamStateMachine) (streamId : BucketStreamId)
    (producer : Option ProducerRequest) (check : IncarnationCheck) (nowMs : ℕ) : Bool :=
  machine.streamIsLive streamId nowMs && (machine.validateStreamScope streamId).isOk &&
    match machine.producerGate streamId producer check nowMs with
    | .ok (.repeat _) => true
    | _ => false

/-- The answer to a tokened producer write that does not depend on its body: a repeat of a write
that applied under `incarnation`, or a key conflict. -/
def producerEarlyAnswer [Blake3] (machine : StreamStateMachine) (streamId : BucketStreamId)
    (producer : ProducerRequest) (incarnation nowMs : ℕ) : Option ProducerEarlyAnswer :=
  if !machine.streamIsLive streamId nowMs || !(machine.validateStreamScope streamId).isOk ||
      machine.streamIncarnation streamId ≠ some incarnation then
    none
  else
    match producerWriteKey producer, machine.streamSlot streamId with
    | .ok key, some slot =>
      match machine.evaluateWrite slot producer.producerId key .matched nowMs with
      | .repeat ack => some (.repeat ack)
      | .refuse (.producer (.keyConflict epoch)) => some (.keyConflict epoch)
      | _ => none
    | _, _ => none

end StreamStateMachine

/-! ## Evaluations -/

section Evaluations

variable {machine : StreamStateMachine} {id : BucketStreamId} {request : ProducerRequest}
  {check : IncarnationCheck} {nowMs : ℕ} {slot : StreamSlot} {key : WriteKey}

/-- Retiring the writer's idle record leaves the evaluation of its write alone. -/
theorem evaluateWrite_expireOwn :
    machine.evaluateWrite (slot.expireOwn (some request) nowMs) request.producerId key check nowMs =
      machine.evaluateWrite slot request.producerId key check nowMs := by
  unfold StreamSlot.expireOwn StreamSlot.expireIdleProducer
  dsimp only
  split_ifs with hidle
  · -- the retired record left its epoch in the floor
    cases hget : slot.producers.get? request.producerId with
    | none => simp [hget] at hidle
    | some record =>
      rw [hget] at hidle
      have hidle : producerIsIdle record nowMs = true := hidle
      simp only [evaluateWrite, retireProducer, hget, OrdMap.get?_erase_self, hidle, if_true]
  · rfl

variable {ack : ProducerAck}

/-- A gate that evaluates to a repeat answers with it. -/
theorem producerGate_of_repeat (hkey : producerWriteKey request = .ok key)
    (hslot : machine.streamSlot id = some slot)
    (heval : machine.evaluateWrite slot request.producerId key check nowMs = .repeat ack) :
    machine.producerGate id (some request) check nowMs = .ok (.repeat ack) := by
  simp only [producerGate, hkey, bind, Except.bind, hslot, heval]

theorem repeat_of_producerGate (hslot : machine.streamSlot id = some slot)
    (h : machine.producerGate id (some request) check nowMs = .ok (.repeat ack)) :
    ∃ key, producerWriteKey request = .ok key ∧
      machine.evaluateWrite slot request.producerId key check nowMs = .repeat ack := by
  obtain ⟨key, hkey, h⟩ := bind_eq_ok h
  refine ⟨key, hkey, ?_⟩
  simp only [hslot] at h
  cases heval : machine.evaluateWrite slot request.producerId key check nowMs with
  | claim closes opened =>
    rw [heval] at h
    dsimp only at h
    split_ifs at h
    cases h
  | next | refuse =>
    rw [heval] at h
    cases h
  | «repeat» ack' =>
    rw [heval] at h
    cases h
    rfl

theorem evaluateWrite_expireWriter (producer : Option ProducerRequest) :
    (machine.expireWriter id producer nowMs).evaluateWrite slot request.producerId key check nowMs =
      machine.evaluateWrite slot request.producerId key check nowMs := by
  unfold evaluateWrite
  rw [historyId_expireWriter]

/-- The gate answers with a repeat before the writer's idle record is retired if and only if it does
after. -/
theorem producerGate_expireWriter (hslot : machine.streamSlot id = some slot) :
    (machine.expireWriter id (some request) nowMs).producerGate id (some request) check nowMs =
        .ok (.repeat ack) ↔
      machine.producerGate id (some request) check nowMs = .ok (.repeat ack) := by
  have hown := streamSlot_expireWriter hslot (some request) nowMs
  constructor
  · intro h
    obtain ⟨key, hkey, heval⟩ := repeat_of_producerGate hown h
    rw [evaluateWrite_expireWriter, evaluateWrite_expireOwn] at heval
    exact producerGate_of_repeat hkey hslot heval
  · intro h
    obtain ⟨key, hkey, heval⟩ := repeat_of_producerGate hslot h
    refine producerGate_of_repeat hkey hown ?_
    rw [evaluateWrite_expireWriter, evaluateWrite_expireOwn, heval]

end Evaluations

/-! ## Writes -/

section Writes

/-- A write as its gate decides it: a repeat and a refusal are answered without a change, and any
other write is not answered as a repeat. -/
structure GatedWrite (id : BucketStreamId) (producer : Option ProducerRequest)
    (check : IncarnationCheck) (nowMs : ℕ)
    (apply : StreamStateMachine → StreamStateMachine × StreamResponse) : Prop where
  repeats : ∀ live ack, live.producerGate id producer check nowMs = .ok (.repeat ack) →
    ∃ response, apply live = (live, response) ∧ response.producerAck = some ack
  refuses : ∀ live response, live.producerGate id producer check nowMs = .error response →
    apply live = (live, response)
  applies : ∀ live, (∀ ack, live.producerGate id producer check nowMs ≠ .ok (.repeat ack)) →
    (apply live).2.isProducerRepeat = false

theorem isProducerRepeat_of_isError {response : StreamResponse} (h : response.isError = true) :
    response.isProducerRepeat = false := by
  rw [isProducerRepeat, producerAck_of_isError h]
  rfl

theorem isError_of_producerGate {machine : StreamStateMachine} {id : BucketStreamId}
    {producer : Option ProducerRequest} {check : IncarnationCheck} {nowMs : ℕ}
    {response : StreamResponse}
    (h : machine.producerGate id producer check nowMs = .error response) :
    response.isError = true := by
  unfold producerGate at h
  cases producer with
  | none => cases h
  | some request =>
    dsimp only at h
    cases hkey : producerWriteKey request with
    | error refusal =>
      rw [hkey] at h
      cases h
      exact isError_of_declines (refuses_producerWriteKey _ _ hkey)
    | ok key =>
      rw [hkey] at h
      simp only [bind, Except.bind] at h
      split at h
      · cases h
        rfl
      split at h
      · split_ifs at h
        cases h
        rfl
      · cases h
      · cases h
      · cases h
        exact isError_of_declines (declines_refusalResponse ..)

/-- The answer of a committed write is not a repeat. -/
theorem not_repeat_of_write {slot : StreamSlot} {group len : ℕ} {streamSeq : Option String}
    {closeAfter : Bool} {producer : Option ProducerRequest} {gate : Option (WriteKey × Advance)}
    {nowMs : ℕ} :
    ((slot.write group len streamSeq closeAfter producer gate nowMs).2.any ProducerAck.isRepeat) =
      false := by
  unfold write recordProducer recordProducerSuccess
  dsimp only
  split
  · split
    · rfl
    · split <;> rfl
  · rfl

theorem isProducerRepeat_appendGated (live : StreamStateMachine) (input : AppendStreamInput)
    (gate : Option (WriteKey × Advance)) :
    (live.appendGated input gate).2.isProducerRepeat = false := by
  unfold appendGated
  split
  · next hfault =>
    exact isProducerRepeat_of_isError (isError_of_declines (refuses_contentFaultOf _ _ hfault))
  split
  · rfl
  split
  · next hcheck =>
    obtain h | ⟨-, -, -, rfl⟩ := checkAppend_error hcheck
    · exact isProducerRepeat_of_isError (isError_of_declines h)
    · rfl
  · unfold commitAppend
    dsimp only
    split_ifs
    · exact not_repeat_of_write
    · exact not_repeat_of_write

theorem isProducerRepeat_appendExternalGated (live : StreamStateMachine)
    (input : AppendExternalInput) (gate : Option (WriteKey × Advance)) :
    (live.appendExternalGated input gate).2.isProducerRepeat = false := by
  unfold appendExternalGated
  split
  · next hfault =>
    exact isProducerRepeat_of_isError (isError_of_declines (refuses_contentFaultOf _ _ hfault))
  split
  · rfl
  split
  · next hcheck =>
    exact isProducerRepeat_of_isError (isError_of_declines
      (refuses_checkAppendExternal _ _ _ _ hcheck))
  · exact not_repeat_of_write

theorem gatedWrite_appendLive (input : AppendStreamInput) :
    GatedWrite input.streamId input.producer input.check input.nowMs
      (fun live => live.appendLive input) where
  repeats := by
    intro live ack h
    refine ⟨_, ?_, producerAck_repeatResponse live input.streamId ack (input.kind = .closeOnly)⟩
    simp only [appendLive, h]
  refuses := by
    intro live response h
    simp only [appendLive, h]
  applies := by
    intro live h
    unfold appendLive
    split
    · next hgate => exact isProducerRepeat_of_isError (isError_of_producerGate hgate)
    · next ack hgate => exact absurd hgate (h ack)
    · exact isProducerRepeat_appendGated ..
    · exact isProducerRepeat_appendGated ..

theorem gatedWrite_appendExternalLive (input : AppendExternalInput) :
    GatedWrite input.streamId input.producer input.check input.nowMs
      (fun live => live.appendExternalLive input) where
  repeats := by
    intro live ack h
    refine ⟨_, ?_, producerAck_repeatResponse live input.streamId ack false⟩
    simp only [appendExternalLive, h]
  refuses := by
    intro live response h
    simp only [appendExternalLive, h]
  applies := by
    intro live h
    unfold appendExternalLive
    split
    · next hgate => exact isProducerRepeat_of_isError (isError_of_producerGate hgate)
    · next ack hgate => exact absurd hgate (h ack)
    · exact isProducerRepeat_appendExternalGated ..
    · exact isProducerRepeat_appendExternalGated ..

variable [Blake3] {machine : StreamStateMachine} {id : BucketStreamId}
  {producer : Option ProducerRequest} {nowMs : ℕ} {command : StreamCommand}

/-- Every write with a valid payload is a gated write in its frame. -/
theorem applyChecked_write (index : ℕ) (check : IncarnationCheck)
    (htarget : command.writeTarget = some (id, producer, nowMs))
    (hvalid : ∀ input, command.externalInput check = some input →
      validateExternalPayloadRef input.payload = .ok ()) :
    ∃ apply, machine.applyChecked index command check = machine.writeWith id producer nowMs apply ∧
      GatedWrite id producer check nowMs apply := by
  have hinput : (∃ input, command.appendInput check = some input ∧ input.check = check ∧
        machine.applyChecked index command check = machine.appendBorrowed input) ∨
      ∃ input, command.externalInput check = some input ∧ input.check = check ∧
        machine.applyChecked index command check = machine.appendExternal input := by
    cases command <;> cases htarget
    case append | close => exact .inl ⟨_, rfl, rfl, rfl⟩
    case appendExternal => exact .inr ⟨_, rfl, rfl, rfl⟩
  obtain ⟨input, hinput, rfl, happly⟩ | ⟨input, hinput, rfl, happly⟩ := hinput
  · have hown := StreamCommand.writeTarget_of_appendInput hinput
    rw [htarget] at hown
    cases hown
    exact ⟨fun live => live.appendLive input, happly, gatedWrite_appendLive input⟩
  · have hown := StreamCommand.writeTarget_of_externalInput hinput
    rw [htarget] at hown
    cases hown
    refine ⟨fun live => live.appendExternalLive input, happly.trans ?_,
      gatedWrite_appendExternalLive input⟩
    rw [appendExternal, appendExternalUnenforced, hvalid input hinput]
    rfl

variable {apply : StreamStateMachine → StreamStateMachine × StreamResponse}

omit [Blake3] in
theorem writeWith_of_live (hlive : machine.streamIsLive id nowMs = true)
    (hscope : (machine.validateStreamScope id).isOk = true) :
    machine.writeWith id producer nowMs apply =
      ((apply (machine.expireWriter id producer nowMs)).1.enforceOn id producer nowMs,
        (apply (machine.expireWriter id producer nowMs)).2) := by
  unfold writeWith
  cases hcheck : machine.validateStreamScope id with
  | error response =>
    rw [hcheck] at hscope
    cases hscope
  | ok _ =>
    cases hmeta : machine.streamMetadata id with
    | none => simp [streamIsLive, hmeta] at hlive
    | some stream =>
      have hexpired : machine.streamExpired id nowMs = false := by
        simpa [streamIsLive, streamExpired, hmeta] using hlive
      simp only [expireStreamIfDue, hexpired, Bool.false_eq_true, if_false]

omit [Blake3] in
theorem isError_writeWith
    (h : ¬ (machine.streamIsLive id nowMs = true ∧ (machine.validateStreamScope id).isOk = true)) :
    (machine.writeWith id producer nowMs apply).2.isError = true := by
  unfold writeWith
  cases hcheck : machine.validateStreamScope id with
  | error response =>
    exact isError_of_declines (refuses_validateStreamScope _ _ _ hcheck)
  | ok _ =>
    cases hmeta : machine.streamMetadata id with
    | none => rfl
    | some stream =>
      have hexpired : machine.streamExpired id nowMs = true := by
        simpa [streamIsLive, streamExpired, hmeta, hcheck, Except.isOk, Except.toBool] using h
      simp only [expireStreamIfDue, hexpired, if_true]
      rfl

/-- A write under its stream's own token meets its precondition. -/
theorem incarnationPrecondition_own {token : ℕ}
    (htarget : command.writeTarget = some (id, producer, nowMs))
    (htoken : machine.streamIncarnation id = some token) :
    machine.incarnationPrecondition command token = none := by
  have hprecondition : preconditionTarget command = some (id, nowMs, false) := by
    cases command <;> cases htarget <;> rfl
  unfold incarnationPrecondition
  simp only [hprecondition]
  obtain ⟨stream, hstream, rfl⟩ := Option.map_eq_some_iff.mp htoken
  rw [hstream]
  split
  · next stream' hfilter =>
    obtain rfl := Option.some.inj (Option.filter_eq_some_iff.mp hfilter).1
    rw [if_pos rfl]
  · rfl

end Writes

/-! ## Agreement -/

section Agreement

variable {machine : StreamStateMachine} {id : BucketStreamId} {request : ProducerRequest}
  {check : IncarnationCheck} {nowMs : ℕ}
  {apply : StreamStateMachine → StreamStateMachine × StreamResponse}

theorem exists_slot_of_live (h : machine.streamIsLive id nowMs = true) :
    ∃ slot, machine.streamSlot id = some slot := by
  cases hslot : machine.streamSlot id with
  | none => simp [streamIsLive, streamMetadata, hslot] at h
  | some slot => exact ⟨slot, rfl⟩

/-- A gated write is answered as a repeat exactly when the preview says so. -/
theorem GatedWrite.deduplicates (h : GatedWrite id (some request) check nowMs apply) :
    machine.appendWouldDeduplicate id (some request) check nowMs = true ↔
      (machine.writeWith id (some request) nowMs apply).2.isProducerRepeat = true := by
  unfold appendWouldDeduplicate
  by_cases hlive : machine.streamIsLive id nowMs = true ∧
      (machine.validateStreamScope id).isOk = true
  · rw [writeWith_of_live hlive.1 hlive.2, hlive.1, hlive.2]
    obtain ⟨slot, hslot⟩ := exists_slot_of_live hlive.1
    constructor
    · intro hgate
      split at hgate
      · next ack hrepeat =>
        -- the evaluation is the same once the idle record is retired
        obtain ⟨response, heq, hack⟩ :=
          h.repeats _ ack ((producerGate_expireWriter hslot).mpr hrepeat)
        have hdelivery : ack.isRepeat = true := by
          obtain ⟨key, hkey, heval⟩ := repeat_of_producerGate hslot hrepeat
          have hown := @evaluateWrite_expireOwn machine request check nowMs slot key
          rw [heval, evaluateWrite_eq fun state => notIdle_expireOwn _ _ _ _ state rfl] at hown
          unfold ProducerAck.isRepeat
          split
          · next receipt hdelivery =>
            exact absurd hdelivery (not_applied_of_repeat hown receipt)
          · rfl
        rw [heq, isProducerRepeat, hack]
        exact hdelivery
      · cases hgate
    · intro hrepeat
      split
      · rfl
      · next hnot =>
        rw [h.applies _ fun ack hack => hnot ack ((producerGate_expireWriter hslot).mp hack)]
          at hrepeat
        cases hrepeat
  · rw [isProducerRepeat_of_isError (isError_writeWith hlive)]
    simp only [Bool.false_eq_true, iff_false, Bool.and_eq_true]
    exact fun hall => hlive hall.1

/-- What an early answer says of the answer to the write. -/
def ProducerEarlyAnswer.Answers (answer : ProducerEarlyAnswer) (response : StreamResponse) : Prop :=
  match answer with
  | .repeat ack => response.producerAck = some ack
  | .keyConflict epoch => ∃ message, response =
      .errorWithContext (ProducerRefusal.keyConflict epoch).code message
        [.producer (.keyConflict epoch)]

/-- The slot a stream keeps through a write that was not applied has the bytes it had. -/
theorem enforceOn_expireWriter {slot : StreamSlot} (hslot : machine.streamSlot id = some slot)
    (request : ProducerRequest) (nowMs : ℕ) :
    ∃ slot', ((machine.expireWriter id (some request) nowMs).enforceOn id (some request)
        nowMs).streamSlot id = some slot' ∧
      slot'.metadata = slot.metadata ∧ slot'.hotBuffer = slot.hotBuffer ∧
      slot'.cold = slot.cold := by
  have hown := streamSlot_expireWriter hslot (some request) nowMs
  obtain ⟨retired, hretired⟩ := slot.expireOwn_eq (some request) nowMs
  rw [hretired] at hown
  obtain ⟨hname, hlive⟩ := slots_get?_of_streamSlot hown
  unfold enforceOn enforceProducerCap
  simp only [hown, evictProducersOverCap_eq]
  generalize capVictims _ _ _ = victims
  refine ⟨(slot.retireProducers retired).retireProducers victims, ?_, ?_⟩
  · have hid : ((slot.retireProducers retired).retireProducers victims).id =
        (slot.retireProducers retired).id := retireProducers_id ..
    rw [streamSlot_eq, state_putSlot_of_some (hid ▸ hlive), GroupState.setSlot, hid, hname,
      OrdMap.get?_insert_self]
  · rw [retireProducers_eq, retireProducers_eq slot]
    exact ⟨rfl, rfl, rfl⟩

/-- A gated write under its stream's token is answered as early as the preview says, and appends
nothing. -/
theorem GatedWrite.answersEarly [Blake3] {incarnation : ℕ} {fault : ℤ}
    {answer : ProducerEarlyAnswer}
    (h : GatedWrite id (some request) .matched nowMs apply)
    (hearly : machine.producerEarlyAnswer id { request with contentFault := fault } incarnation
      nowMs = some answer) :
    machine.streamIncarnation id = some incarnation ∧
      answer.Answers (machine.writeWith id (some request) nowMs apply).2 ∧
      ∃ slot slot', machine.streamSlot id = some slot ∧
        (machine.writeWith id (some request) nowMs apply).1.streamSlot id = some slot' ∧
        slot'.metadata = slot.metadata ∧ slot'.hotBuffer = slot.hotBuffer ∧
        slot'.cold = slot.cold := by
  unfold producerEarlyAnswer at hearly
  split_ifs at hearly with hrefused
  simp only [Bool.or_eq_true, Bool.not_eq_true', decide_eq_true_eq, not_or, ne_eq, not_not,
    Bool.not_eq_false] at hrefused
  obtain ⟨⟨hlive, hscope⟩, htoken⟩ := hrefused
  refine ⟨htoken, ?_⟩
  obtain ⟨slot, hslot⟩ := exists_slot_of_live hlive
  have hown := streamSlot_expireWriter hslot (some request) nowMs
  rw [writeWith_of_live hlive hscope]
  split at hearly
  · next key found hkey hfound =>
    cases hslot.symm.trans hfound
    -- the key does not depend on the content fault
    have heval : (machine.expireWriter id (some request) nowMs).evaluateWrite
        (slot.expireOwn (some request) nowMs) request.producerId key .matched nowMs =
        machine.evaluateWrite slot request.producerId key .matched nowMs := by
      rw [evaluateWrite_expireWriter, evaluateWrite_expireOwn]
    obtain ⟨slot', hslot', hbytes⟩ := enforceOn_expireWriter hslot request nowMs
    split at hearly
    · next ack hrepeat =>
      cases hearly
      obtain ⟨response, heq, hack⟩ := h.repeats _ ack
        (producerGate_of_repeat hkey hown (heval.trans hrepeat))
      rw [heq]
      exact ⟨hack, slot, slot', hslot, hslot', hbytes⟩
    · next epoch hconflict =>
      cases hearly
      have hkey : producerWriteKey request = .ok key := hkey
      rw [h.refuses _ _ (by
        simp only [producerGate, hkey, bind, Except.bind, hown, heval, hconflict]
        rfl)]
      exact ⟨⟨_, rfl⟩, slot, slot', hslot, hslot', hbytes⟩
    · cases hearly
  · cases hearly

/-- **Previews.** For every keyed write, an external one with a valid payload: the preview says that
the write would be deduplicated if and only if it is answered as a repeat, bare or under the
stream's token; and an early answer is what the write is answered with under that token, whatever
its body, its content type and its content fault, and nothing is appended. -/
theorem previews_agree [Blake3] (machine : StreamStateMachine) (index : ℕ) {command : StreamCommand}
    (htarget : command.writeTarget = some (id, some request, nowMs))
    (hvalid : ∀ check input, command.externalInput check = some input →
      validateExternalPayloadRef input.payload = .ok ()) :
    (machine.appendWouldDeduplicate id (some request) .absent nowMs = true ↔
      (machine.applyEntry index command).2.isProducerRepeat = true) ∧
    (∀ token, machine.streamIncarnation id = some token →
      (machine.appendWouldDeduplicate id (some request) .matched nowMs = true ↔
        (machine.applyEntry index (.ifIncarnation token command)).2.isProducerRepeat = true)) ∧
    ∀ token fault answer,
      machine.producerEarlyAnswer id { request with contentFault := fault } token nowMs =
        some answer →
      answer.Answers (machine.applyEntry index (.ifIncarnation token command)).2 ∧
        ∃ slot slot', machine.streamSlot id = some slot ∧
          (machine.applyEntry index (.ifIncarnation token command)).1.streamSlot id = some slot' ∧
          slot'.metadata = slot.metadata ∧ slot'.hotBuffer = slot.hotBuffer ∧
          slot'.cold = slot.cold := by
  obtain ⟨bare, hbare, hbareGated⟩ := @applyChecked_write _ machine _ _ _ _ index .absent htarget
    (hvalid _)
  obtain ⟨apply, happly, hgated⟩ := @applyChecked_write _ machine _ _ _ _ index .matched htarget
    (hvalid _)
  have htokened : ∀ token, machine.streamIncarnation id = some token →
      machine.applyEntry index (.ifIncarnation token command) =
        machine.writeWith id (some request) nowMs apply := by
    intro token htoken
    rw [← happly, applyEntry, applyChecked, incarnationPrecondition_own htarget htoken]
  refine ⟨?_, fun token htoken => ?_, fun token fault answer hearly => ?_⟩
  · rw [applyEntry, hbare]
    exact hbareGated.deduplicates
  · rw [htokened token htoken]
    exact hgated.deduplicates
  · obtain ⟨htoken, hanswers⟩ := hgated.answersEarly hearly
    rw [htokened token htoken]
    exact hanswers

end Agreement

section Witness

attribute [local instance] Blake3.zero

/-- A producer's write is made again with another body: the preview says it is a repeat, bare and
under the stream's token, and so does the answer. -/
theorem previews_agree_sample :
    let machine := (((StreamStateMachine.new.applyEntries sampleGenesis).1.applyEntry 3
      (sampleCreate [])).1.applyEntry 4 (sampleAppend [65] (some ⟨"p", 0, 0, none, 0⟩))).1
    let again := sampleAppend [66] (some ⟨"p", 0, 0, none, 0⟩)
    ∃ token, machine.streamIncarnation sampleStream = some token ∧
      (machine.applyEntry 5 again).2.isProducerRepeat = true ∧
      (machine.applyEntry 5 (.ifIncarnation token again)).2.producerAck =
        some ⟨0, 0, none, .repeat ⟨0, 1, false⟩⟩ := by
  intro machine again
  obtain ⟨token, htoken⟩ := Option.isSome_iff_exists.mp
    (show (machine.streamIncarnation sampleStream).isSome = true by decide +kernel)
  obtain ⟨hbare, -, hearly⟩ := @previews_agree sampleStream ⟨"p", 0, 0, none, 0⟩ 1001 _ machine 5
    again rfl (fun _ _ h => by cases h)
  refine ⟨token, htoken, hbare.mp (by decide +kernel), ?_⟩
  refine (hearly token 0 (.repeat ⟨0, 0, none, .repeat ⟨0, 1, false⟩⟩) ?_).1
  have htokens : (machine.streamIncarnation sampleStream).map (fun token =>
      machine.producerEarlyAnswer sampleStream ⟨"p", 0, 0, none, 0⟩ token 1001) =
        some (some (.repeat ⟨0, 0, none, .repeat ⟨0, 1, false⟩⟩)) := by decide +kernel
  rw [htoken] at htokens
  exact Option.some.inj htokens

end Witness

end Ursula

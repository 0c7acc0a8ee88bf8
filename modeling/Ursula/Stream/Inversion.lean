import Ursula.Lib.Checks
import Ursula.Stream.Outcome

/-!
# Inversion of the commands

The proofs that every command is explained by its outcome, one for each command function.
-/

namespace Ursula

open Word64 StreamStateMachine Checks

/-! ## Checks that refuse -/

/-- Whatever a check answers instead of passing is a refusal. -/
def Refuses {α : Type} (result : Except StreamResponse α) : Prop :=
  ∀ response, result = .error response → response.declines = true

namespace Refuses

variable {α β : Type}

theorem ok (a : α) : Refuses (.ok a) := by
  intro response h
  cases h

variable {response : StreamResponse}

theorem error (h : response.declines = true) :
    Refuses (.error response : Except StreamResponse α) := by
  intro response' h'
  cases h'
  exact h

theorem bind {result : Except StreamResponse α} {f : α → Except StreamResponse β}
    (h : Refuses result) (hf : ∀ a, result = .ok a → Refuses (f a)) : Refuses (result >>= f) := by
  cases result with
  | error response =>
    intro response' h'
    obtain rfl : response = response' := by simpa [Bind.bind, Except.bind] using h'
    exact h _ rfl
  | ok a => exact hf a rfl

theorem ite {p : Prop} [Decidable p] {a b : Except StreamResponse α} (ha : Refuses a)
    (hb : Refuses b) : Refuses (if p then a else b) := by
  split_ifs
  · exact ha
  · exact hb

end Refuses

theorem refuses_validateStreamScope (machine : StreamStateMachine) (streamId : BucketStreamId) :
    Refuses (machine.validateStreamScope streamId) := by
  unfold validateStreamScope
  split
  · exact .error rfl
  · split
    · exact .error rfl
    · exact .ite (.ok _) (.ite (.error rfl) (.error rfl))

theorem refuses_checkJsonBoundary [Blake3] (machine : StreamStateMachine) (slot : StreamSlot)
    (offset floor : ℕ) (expected : Option ℕ) :
    Refuses (machine.checkJsonBoundary slot offset floor expected) := by
  unfold checkJsonBoundary
  refine .ite (.ok _) (.ite (.ok _) ?_)
  split
  · exact .ite (.ok _) (.error rfl)
  · exact .ite (.ok _) (.error rfl)

theorem refuses_checkRetention [Blake3] (machine : StreamStateMachine) (slot : StreamSlot)
    (offset : ℕ) (expected : Option ℕ) : Refuses (machine.checkRetention slot offset expected) := by
  unfold checkRetention
  split
  · exact .error rfl
  · split_ifs
    · exact .error rfl
    · exact refuses_checkJsonBoundary _ _ _ _ _

theorem refuses_checkChunk (streamId : BucketStreamId) (chunk : ColdChunkRef) :
    Refuses (checkChunk streamId chunk) := by
  exact .ite (.error rfl) (.ite (.error rfl) (.ite (.error rfl) (.ok _)))

theorem refuses_checkChunkRange [Blake3] (slot : StreamSlot) (chunk : ColdChunkRef) :
    Refuses (checkChunkRange slot chunk) := by
  unfold checkChunkRange
  dsimp only
  split_ifs
  all_goals first | exact .error rfl | exact .ok _

theorem refuses_checkColdFlush [Blake3] (machine : StreamStateMachine) (streamId : BucketStreamId)
    (chunk : ColdChunkRef) : Refuses (machine.checkColdFlush streamId chunk) := by
  refine .bind (refuses_validateStreamScope _ _) fun _ _ => ?_
  refine .bind (refuses_checkChunk _ _) fun _ _ => ?_
  split
  · exact .error rfl
  · exact .bind (refuses_checkChunkRange _ _) fun _ _ => .ok _

theorem refuses_checkColdFlushGeneration (slot : StreamSlot) (planned : ℕ) :
    Refuses (checkColdFlushGeneration slot planned) := by
  exact .ite (.ok _) (.error rfl)

theorem refuses_checkCompaction (oldChunks : List ColdChunkRef) (replacement : ColdChunkRef) :
    Refuses (checkCompaction oldChunks replacement) := by
  refine .ite (.error rfl) (.ite (.error rfl) (.ite (.error rfl) ?_))
  dsimp only
  split
  · exact .error rfl
  · exact .ite (.error rfl) (.ok _)

theorem refuses_validateRetention (ttl expires : Option ℕ) :
    Refuses (validateRetention ttl expires) := by
  exact .ite (.error rfl) (.ite (.error rfl) (.ok _))

theorem refuses_validateExternalPayloadRef (payload : ExternalPayloadRef) :
    Refuses (validateExternalPayloadRef payload) := by
  exact .ite (.error rfl) (.ite (.error rfl) (.ite (.error rfl) (.ok _)))

theorem refuses_validateMessageCount (contentType : String) (payloadLen messageCount : ℕ) :
    Refuses (validateMessageCount contentType payloadLen messageCount) := by
  exact .ite (.ok _) (.error rfl)

theorem refuses_countingHistory (machine : StreamStateMachine) :
    Refuses machine.countingHistory := by
  unfold countingHistory
  split
  · exact .ok _
  · exact .error rfl

theorem refuses_nextCreatedAtMs (machine : StreamStateMachine) (nowMs : ℕ) :
    Refuses (machine.nextCreatedAtMs nowMs) := by
  exact .ite (.error rfl) (.ok _)

theorem refuses_producerWriteKey (producer : ProducerRequest) :
    Refuses (producerWriteKey producer) := by
  refine .ite (.error rfl) (.ite (.error rfl) (.ite (.error rfl) ?_))
  split
  · exact .ok _
  · split_ifs
    · exact .ok _
    · exact .error rfl

theorem declines_refusalResponse (producerId : String) (key : WriteKey) (refusal : Refusal) :
    (refusalResponse producerId key refusal).declines = true := by
  cases refusal with
  | seqGap => rfl
  | producer refusal => cases refusal <;> rfl

theorem refuses_contentFaultOf (producer : Option ProducerRequest) :
    Refuses (contentFaultOf producer) := by
  unfold contentFaultOf producerContentFault
  split
  · exact .ok _
  · split_ifs
    all_goals first | exact .ok _ | exact .error rfl

theorem declines_contentFaultResponse (fault : ContentFault) :
    (contentFaultResponse fault).declines = true := by
  cases fault <;> rfl

theorem refuses_checkContentType (stream : StreamMetadata) (contentType : Option String) :
    Refuses (checkContentType stream contentType) := by
  unfold checkContentType
  split
  · exact .error rfl
  · exact .ite (.error rfl) (.ok _)

theorem refuses_checkStreamSeq (stream : StreamMetadata) (incoming : Option String) :
    Refuses (checkStreamSeq stream incoming) := by
  unfold checkStreamSeq
  split
  · exact .ite (.error rfl) (.ok _)
  · exact .ok _

theorem refuses_checkAppendExternal (stream : StreamMetadata) (input : AppendExternalInput)
    (fault : Option ContentFault) : Refuses (checkAppendExternal stream input fault) := by
  unfold checkAppendExternal
  split_ifs
  · exact .error rfl
  · split
    · exact .error (declines_contentFaultResponse _)
    · refine .bind (refuses_checkContentType _ _) fun _ _ => ?_
      refine .bind (refuses_validateMessageCount _ _ _) fun _ _ => ?_
      exact refuses_checkStreamSeq _ _

/-! ## Passed checks -/

section Commands

theorem inScope_of_ok {machine : StreamStateMachine} {streamId : BucketStreamId}
    (h : machine.validateStreamScope streamId = .ok ()) : machine.state.InScope streamId := by
  unfold validateStreamScope at h
  split at h
  · cases h
  · next hbucketId =>
    split at h
    · cases h
    · next hstreamId =>
      split_ifs at h with hbucket
      exact ⟨hbucketId, hstreamId, hbucket⟩

variable {machine live : StreamStateMachine} {check : IncarnationCheck} {command : StreamCommand}
  {streamId : BucketStreamId} {slot : StreamSlot} {producer : Option ProducerRequest}
  {nowMs messageCount : ℕ}

/-- A stream whose name is free is created. -/
theorem admitStream_of_ok {input : NewStream} {history : HistoryId} {createdAtMs : ℕ}
    (hlive : (machine.expireStreamIfDue input.streamId input.nowMs).1 = live)
    (hnone : live.streamSlot input.streamId = none)
    (hnext : live.nextCreatedAtMs input.nowMs = .ok createdAtMs) :
    machine.admitStream history input =
      (live.act (.create input history createdAtMs),
        .created input.streamId input.initialLen input.closeAfter) := by
  unfold admitStream
  rw [hlive]
  simp only [streamMetadata, hnone, Option.map_none, hnext, StreamStateMachine.act]
  set counted := live.usageOnCreate history input.streamId.bucketId input.initialLen
    (appendedRecordCount input.messageCount input.initialLen) input.nowMs
  cases hins : counted.1.insertStreamSlot (input.slot createdAtMs live.historyId counted.2) with
  | none =>
    obtain ⟨old, hold⟩ := insertStreamSlot_eq_none_iff.mp hins
    cases hnone.symm.trans hold
  | some inserted => rfl

theorem history_of_countingHistory {history : HistoryId}
    (h : machine.countingHistory = .ok history) :
    machine.history.map HistoryEvent.id = some history := by
  unfold countingHistory at h
  split at h
  · next event hevent =>
    cases h
    rw [hevent]
    rfl
  · cases h

/-! ### The gate of a write -/

theorem streamSlot_expireWriter (hslot : machine.streamSlot streamId = some slot)
    (producer : Option ProducerRequest) (nowMs : ℕ) :
    (machine.expireWriter streamId producer nowMs).streamSlot streamId =
      some (slot.expireOwn producer nowMs) := by
  unfold expireWriter expireIdleProducer StreamSlot.expireOwn
  cases producer with
  | none => exact hslot
  | some request =>
    obtain ⟨rfl, hlive⟩ := slots_get?_of_streamSlot hslot
    have hname : (slot.expireIdleProducer request.producerId nowMs).id = slot.id := by
      rw [StreamSlot.expireIdleProducer_eq, StreamSlot.retireProducers_id]
    simp only [hslot]
    rw [streamSlot_eq, state_putSlot_of_some (hname ▸ hlive), GroupState.setSlot, hname,
      OrdMap.get?_insert_self]

/-- The record of the writer, if it has one, is not idle. -/
def NotIdle (slot : StreamSlot) (producer : Option ProducerRequest) (nowMs : ℕ) : Prop :=
  ∀ request state, producer = some request →
    slot.producers.get? request.producerId = some state → producerIsIdle state nowMs = false

/-- Once the writer's idle record is retired, its record is not idle. -/
theorem notIdle_expireOwn (slot : StreamSlot) (producer : Option ProducerRequest) (nowMs : ℕ) :
    NotIdle (slot.expireOwn producer nowMs) producer nowMs := by
  rintro request state rfl hstate
  -- an idle record was erased, and one that was kept is not idle
  unfold StreamSlot.expireOwn StreamSlot.expireIdleProducer at hstate
  dsimp only at hstate
  split_ifs at hstate with hidle
  · unfold StreamSlot.retireProducer at hstate
    cases hget : slot.producers.get? request.producerId with
    | none => simp [hget] at hidle
    | some record => simp [hget] at hstate
  · simpa [hstate] using hidle

theorem evaluateWrite_eq {producerId : String} {key : WriteKey}
    (h : ∀ state, slot.producers.get? producerId = some state →
      producerIsIdle state nowMs = false) :
    machine.evaluateWrite slot producerId key check nowMs =
      evaluate (slot.producers.get? producerId) slot.retiredEpochWatermark machine.historyId key
        check := by
  unfold evaluateWrite
  cases hget : slot.producers.get? producerId with
  | none => rfl
  | some record => simp [h record hget]

/-- The gate of a write that passed it. -/
inductive Gated (machine : StreamStateMachine) (check : IncarnationCheck) (slot : StreamSlot)
    (nowMs : ℕ) : Option ProducerRequest → ProducerGate → Prop
  | unkeyed : Gated machine check slot nowMs none .unkeyed
  | apply {request : ProducerRequest} {key : WriteKey} {advance : Advance}
      (hkey : producerWriteKey request = .ok key)
      (heval : evaluate (slot.producers.get? request.producerId) slot.retiredEpochWatermark
        machine.historyId key check = advance.evaluation)
      (hroom : ∀ opened, advance = .claim none opened →
        slot.producerCapAdmits request.producerId nowMs = true) :
      Gated machine check slot nowMs (some request) (.apply key advance)
  | repeat {request : ProducerRequest} {key : WriteKey} {ack : ProducerAck}
      (hkey : producerWriteKey request = .ok key)
      (heval : evaluate (slot.producers.get? request.producerId) slot.retiredEpochWatermark
        machine.historyId key check = .repeat ack) :
      Gated machine check slot nowMs (some request) (.repeat ack)

theorem gated_of_producerGate {gate : ProducerGate}
    (hslot : machine.streamSlot streamId = some slot) (hidle : NotIdle slot producer nowMs)
    (h : machine.producerGate streamId producer check nowMs = .ok gate) :
    Gated machine check slot nowMs producer gate := by
  cases producer with
  | none =>
    cases h
    exact .unkeyed
  | some request =>
    obtain ⟨key, hkey, h⟩ := bind_eq_ok h
    simp only [hslot, evaluateWrite_eq fun state => hidle request state rfl] at h
    split at h
    · next closes opened heval =>
      split_ifs at h with hfull
      cases h
      refine .apply hkey heval fun opened' hclaim => ?_
      cases hclaim
      simpa using hfull
    · next heval =>
      cases h
      exact .apply hkey heval (by simp)
    · next ack heval =>
      cases h
      exact .repeat hkey heval
    · cases h

/-- A write that its gate refused is not applied; the one refusal for the cap is a new
producer's. -/
theorem unwritten_of_producerGate (hhistory : live.historyId = machine.historyId)
    (hslot : live.streamSlot streamId = some slot)
    (hidle : NotIdle slot producer nowMs)
    (h : live.producerGate streamId producer check nowMs = .error response) :
    Unwritten machine check slot producer nowMs command response := by
  unfold producerGate at h
  cases producer with
  | none => cases h
  | some request =>
    dsimp only at h
    cases hkey : producerWriteKey request with
    | error refusal =>
      rw [hkey] at h
      cases h
      exact .refused (refuses_producerWriteKey _ _ hkey)
    | ok key =>
      rw [hkey] at h
      simp only [hslot, evaluateWrite_eq fun state => hidle request state rfl, hhistory,
        bind, Except.bind] at h
      split at h
      · next closes opened heval =>
        split_ifs at h with hfull
        cases h
        obtain ⟨hnew, hfull⟩ := hfull
        obtain rfl : closes = none := by simpa using hnew
        exact .limited rfl hkey heval (by simpa using hfull)
      · cases h
      · cases h
      · cases h
        exact .refused (declines_refusalResponse ..)

theorem producerAck_repeatResponse (machine : StreamStateMachine) (streamId : BucketStreamId)
    (ack : ProducerAck) (closeOnly : Bool) :
    (machine.repeatResponse streamId ack closeOnly).producerAck = some ack := by
  unfold repeatResponse
  split_ifs <;> rfl

/-- A write is answered without a change, or its gate lets it pass. -/
theorem gate_dispatch
    (gated : Option (WriteKey × Advance) → StreamStateMachine × StreamResponse) (closeOnly : Bool)
    (hhistory : live.historyId = machine.historyId) (hslot : live.streamSlot streamId = some slot)
    (hidle : NotIdle slot producer nowMs)
    (hresult : result = match live.producerGate streamId producer check nowMs with
      | .error response => (live, response)
      | .ok (.repeat ack) => (live, live.repeatResponse streamId ack closeOnly)
      | .ok .unkeyed => gated none
      | .ok (.apply key advance) => gated (some (key, advance))) :
    (∃ response, result = (live, response) ∧
      Unwritten machine check slot producer nowMs command response) ∨
    ∃ gate, GateOf live.historyId slot check nowMs producer gate ∧ result = gated gate := by
  subst hresult
  cases hgate : live.producerGate streamId producer check nowMs with
  | error response =>
    exact .inl ⟨response, rfl, unwritten_of_producerGate hhistory hslot hidle hgate⟩
  | ok gate =>
    cases gated_of_producerGate hslot hidle hgate with
    | unkeyed => exact .inr ⟨none, .unkeyed, rfl⟩
    | apply hkey heval hroom => exact .inr ⟨some _, .keyed hkey heval hroom, rfl⟩
    | «repeat» hkey heval =>
      exact .inl ⟨_, rfl, .repeated rfl hkey (hhistory ▸ heval) (producerAck_repeatResponse ..)⟩

/-! ### The content of a write -/

variable {stream : StreamMetadata} {gate : Option (WriteKey × Advance)}
  {fault : Option ContentFault}

/-- A content check ends a write with a refusal, but for a close of a closed stream. -/
theorem checkAppend_error {input : AppendStreamInput}
    (h : checkAppend stream input gate fault = .error response) :
    response.declines = true ∨
      (stream.status = .closed ∧ input.kind = .closeOnly ∧ gate = none ∧
        response = .closed stream.tailOffset none) := by
  unfold checkAppend at h
  by_cases hclosed : stream.status = .closed
  · rw [if_pos hclosed] at h
    split_ifs at h with hkind
    · cases h
      exact .inr ⟨hclosed, hkind.1, Option.isNone_iff_eq_none.mp hkind.2, rfl⟩
    · cases h
      exact .inl rfl
  · rw [if_neg hclosed] at h
    refine .inl ?_
    split at h
    · cases h
      exact declines_contentFaultResponse _
    have hseq : ∀ messageCount : ℕ, Refuses (do
        checkStreamSeq stream input.streamSeq
        Except.ok messageCount) := fun _ =>
      .bind (refuses_checkStreamSeq _ _) fun _ _ => .ok _
    refine Refuses.ite (.error rfl)
      (.ite (.bind (refuses_checkContentType _ _) fun _ _ => ?_) ?_) _ h
    all_goals
      split
      · exact hseq _
      · split
        · exact hseq _
        · exact .error rfl

theorem checkAppend_ok {input : AppendStreamInput}
    (h : checkAppend stream input gate fault = .ok messageCount) :
    stream.status = .open ∧ (input.payload ≠ [] ∨ input.closeAfter = true) := by
  unfold checkAppend at h
  by_cases hclosed : stream.status = .closed
  · rw [if_pos hclosed] at h
    split_ifs at h
  rw [if_neg hclosed] at h
  split at h
  · cases h
  by_cases hempty : input.payload = [] ∧ ¬ input.closeAfter
  · rw [if_pos hempty] at h
    cases h
  refine ⟨?_, ?_⟩
  · cases hstatus : stream.status with
    | «open» => rfl
    | closed => exact absurd hstatus hclosed
  · by_cases hpayload : input.payload = []
    · exact .inr (by simpa using fun hclose => hempty ⟨hpayload, hclose⟩)
    · exact .inl hpayload

theorem checkAppendExternal_ok {input : AppendExternalInput}
    (h : checkAppendExternal stream input fault = .ok ()) :
    stream.status = .open := by
  unfold checkAppendExternal at h
  split_ifs at h with hclosed
  cases hstatus : stream.status with
  | «open» => rfl
  | closed => exact absurd hstatus hclosed

theorem GateOf.producer_eq_none {history nowMs : ℕ}
    (h : GateOf history slot check nowMs producer none) :
    producer = none := by
  cases h
  rfl

theorem historyId_expireWriter (machine : StreamStateMachine) (streamId : BucketStreamId)
    (producer : Option ProducerRequest) (nowMs : ℕ) :
    (machine.expireWriter streamId producer nowMs).historyId = machine.historyId := by
  unfold expireWriter expireIdleProducer
  cases producer with
  | none => rfl
  | some producer => cases machine.streamSlot streamId <;> rfl

theorem StreamCommand.expiryTarget_of_writeTarget
    (h : command.writeTarget = some (streamId, producer, nowMs)) :
    command.expiryTarget = some (streamId, nowMs) := by
  cases command <;> cases h <;> rfl

theorem StreamCommand.writeTarget_of_appendInput {input : AppendStreamInput}
    (h : command.appendInput check = some input) :
    command.writeTarget = some (input.streamId, input.producer, input.nowMs) := by
  cases command <;> cases h <;> rfl

theorem StreamCommand.writeTarget_of_externalInput {input : AppendExternalInput}
    (h : command.externalInput check = some input) :
    command.writeTarget = some (input.streamId, input.producer, input.nowMs) := by
  cases command <;> cases h
  rfl

/-- The frame of a write: its stream is looked at, its writer's idle record is retired, and the
producer cap is enforced whatever the answer. -/
def StreamStateMachine.writeWith (machine : StreamStateMachine) (streamId : BucketStreamId)
    (producer : Option ProducerRequest) (nowMs : ℕ)
    (apply : StreamStateMachine → StreamStateMachine × StreamResponse) :
    StreamStateMachine × StreamResponse :=
  let applied : StreamStateMachine × StreamResponse :=
    match machine.validateStreamScope streamId with
    | .error response => (machine, response)
    | .ok () =>
      match machine.streamMetadata streamId with
      | none => (machine, streamNotFound streamId)
      | some _ =>
        let live := machine.expireStreamIfDue streamId nowMs
        if live.2 then (live.1, streamNotFound streamId)
        else apply (live.1.expireWriter streamId producer nowMs)
  (applied.1.enforceOn streamId producer nowMs, applied.2)

/-! ## Commands -/

variable [Blake3]

namespace Explained

theorem refused (h : response.declines = true) :
    Explained machine check command (machine, response) :=
  ⟨[], .nil _, .refused h⟩

variable {result : StreamStateMachine × StreamResponse}

theorem of_act (act : Act) (henabled : act.Enabled machine.state)
    (hmachine : machine.act act = result.1)
    (houtcome : Outcome machine check command [act] result.2) :
    Explained machine check command result :=
  ⟨[act], hmachine ▸ .single henabled, houtcome⟩

end Explained

theorem createBucket_explained (bucketId : String) :
    Explained machine check (.createBucket bucketId) (machine.createBucket bucketId) := by
  unfold createBucket
  split
  · exact .refused rfl
  · next hvalid =>
    split_ifs with herased hexists
    · exact .refused rfl
    · exact ⟨[], .nil _, .bucketExists⟩
    · exact .of_act (.createBucket bucketId)
        ⟨hvalid, Bool.eq_false_iff.mpr herased, Bool.eq_false_iff.mpr hexists⟩ rfl .bucketCreated

/-! ### Creates -/

/-- Before its name is used, a stream that has expired is removed. -/
theorem expireStreamIfDue_trace (streamId : BucketStreamId) (nowMs : ℕ) :
    ∃ acts, Expiry machine streamId nowMs acts ∧
      Trace machine acts (machine.expireStreamIfDue streamId nowMs).1 := by
  unfold expireStreamIfDue
  split_ifs with hexpired
  · unfold streamExpired streamMetadata at hexpired
    cases hslot : machine.streamSlot streamId with
    | none => simp [hslot] at hexpired
    | some slot =>
      have hlive := slots_get?_of_streamSlot hslot
      refine ⟨_, .expired hslot (by simpa [hslot] using hexpired), ?_⟩
      rw [← hlive.1]
      exact .single hlive.2
  · exact ⟨[], .live (by simpa using hexpired), .nil _⟩

theorem admitStream_explained {input : NewStream} {history : HistoryId}
    (hinput : command.createInput = some input) (hscope : machine.state.InScope input.streamId)
    (hhistory : machine.history.map HistoryEvent.id = some history) (hpayload : input.Payload) :
    Explained machine check command (machine.admitStream history input) := by
  obtain ⟨expiry, hexpiry, htrace⟩ :=
    @expireStreamIfDue_trace machine _ input.streamId input.nowMs
  generalize hlive : (machine.expireStreamIfDue input.streamId input.nowMs).1 = live at htrace
  -- an expired predecessor leaves buckets and history as they were, and its name free
  have hframe : live.state.buckets = machine.state.buckets ∧
      live.state.history = machine.state.history ∧
      ((live = machine ∧ expiry = []) ∨ live.streamSlot input.streamId = none) := by
    cases hexpiry with
    | live h =>
      cases htrace
      exact ⟨rfl, rfl, .inl ⟨rfl, rfl⟩⟩
    | expired hold _ =>
      cases htrace with
      | cons henabled hrest =>
        cases hrest
        have hstate := state_step henabled
        rw [GroupState.act, GroupState.removeStream_eq] at hstate
        rw [streamSlot_eq, hstate, ← (slots_get?_of_streamSlot hold).1]
        exact ⟨rfl, rfl, .inr (OrdMap.get?_erase_self _ _)⟩
  cases hslot : live.streamSlot input.streamId with
  | some slot =>
    simp only [admitStream, hlive, streamMetadata, hslot, Option.map_some]
    obtain ⟨-, -, ⟨rfl, rfl⟩ | hnone⟩ := hframe
    · exact ⟨[], .nil _, .streamExists hinput hslot⟩
    · cases hslot.symm.trans hnone
  | none =>
    cases hnext : live.nextCreatedAtMs input.nowMs with
    | error response =>
      simp only [admitStream, hlive, streamMetadata, hslot, Option.map_none, hnext]
      exact ⟨expiry, htrace, .createRefused hinput hexpiry (refuses_nextCreatedAtMs _ _ _ hnext)⟩
    | ok createdAtMs =>
      have hcreated : createdAtMs = max input.nowMs (satAdd live.lastCreatedAtMs 1) ∧
          createdAtMs ≤ maxCreatedAtMs := by
        unfold nextCreatedAtMs at hnext
        dsimp only at hnext
        split_ifs at hnext with hle
        cases hnext
        exact ⟨rfl, not_lt.mp hle⟩
      have henabled : (Act.create input history createdAtMs).Enabled live.state := by
        refine ⟨⟨hscope.bucketId, hscope.streamId, ?_⟩, ?_, ?_, hcreated.1, hcreated.2, hpayload⟩
        · rw [hframe.1]
          exact hscope.bucket
        · rw [← streamSlot_eq, hslot]
        · rw [hframe.2.1]
          exact hhistory
      rw [admitStream_of_ok hlive hslot hnext]
      exact ⟨expiry ++ [.create input history createdAtMs], htrace.append (.single henabled),
        .created hinput hexpiry⟩

theorem createStream_explained {contentType : String} {payload : Bytes}
    {closeAfter : Bool} {streamSeq : Option String} {ttl expires : Option ℕ}
    (hcount : canonicalJsonMessageCount contentType payload = some messageCount) :
    Explained machine check
      (.createStream streamId contentType payload closeAfter streamSeq ttl expires nowMs)
      (machine.createStream streamId contentType payload messageCount closeAfter streamSeq ttl
        expires nowMs) := by
  unfold createStream
  dsimp only
  split
  · next response herror =>
    refine .refused (Refuses.bind (refuses_countingHistory _) (fun _ _ => ?_) _ herror)
    refine .bind (refuses_validateStreamScope _ _) fun _ _ => ?_
    exact .bind (refuses_validateRetention _ _) fun _ _ => .ok _
  · next history hok =>
    obtain ⟨history', hhistory, hok⟩ := bind_eq_ok hok
    obtain ⟨_, hscope, hok⟩ := bind_eq_ok hok
    obtain ⟨_, -, hok⟩ := bind_eq_ok hok
    cases hok
    refine admitStream_explained ?_ (inScope_of_ok hscope) (history_of_countingHistory hhistory)
      (.inline payload rfl rfl rfl)
    simp only [StreamCommand.createInput, hcount, Option.map_some]

theorem createExternalStream_explained {contentType : String} {payload : ExternalPayloadRef}
    {closeAfter : Bool} {streamSeq : Option String} {ttl expires : Option ℕ} :
    Explained machine check
      (.createExternal streamId contentType payload messageCount closeAfter streamSeq ttl expires
        nowMs)
      (machine.createExternalStream streamId contentType payload messageCount closeAfter streamSeq
        ttl expires nowMs) := by
  unfold createExternalStream
  dsimp only
  split
  · next response herror =>
    refine .refused (Refuses.bind (refuses_countingHistory _) (fun _ _ => ?_) _ herror)
    refine .bind (refuses_validateExternalPayloadRef _) fun _ _ => ?_
    refine .bind (refuses_validateStreamScope _ _) fun _ _ => ?_
    refine .bind (refuses_validateRetention _ _) fun _ _ => ?_
    exact .bind (refuses_validateMessageCount _ _ _) fun _ _ => .ok _
  · next history hok =>
    obtain ⟨history', hhistory, hok⟩ := bind_eq_ok hok
    obtain ⟨_, hvalid, hok⟩ := bind_eq_ok hok
    obtain ⟨_, hscope, hok⟩ := bind_eq_ok hok
    obtain ⟨_, -, hok⟩ := bind_eq_ok hok
    obtain ⟨_, -, hok⟩ := bind_eq_ok hok
    cases hok
    exact admitStream_explained rfl (inScope_of_ok hscope) (history_of_countingHistory hhistory)
      (.external payload hvalid rfl rfl rfl)

/-! ### Writes -/

/-- An inline write whose writer's record is not idle is answered without a change, or is
committed. -/
theorem appendLive_cases {input : AppendStreamInput}
    (hinput : command.appendInput check = some input)
    (hhistory : live.historyId = machine.historyId)
    (hslot : live.streamSlot input.streamId = some slot)
    (hidle : NotIdle slot input.producer input.nowMs) :
    (∃ response, live.appendLive input = (live, response) ∧
      Unwritten machine check slot input.producer input.nowMs command response) ∨
    ∃ gate messageCount, (Act.append slot input gate messageCount).Enabled live.state ∧
      live.appendLive input = live.commitAppend slot input gate messageCount := by
  obtain ⟨hid, hlive⟩ := slots_get?_of_streamSlot hslot
  have hcheck : input.check = check := by
    cases command <;> cases hinput <;> rfl
  have hclose : input.kind = .closeOnly → input.payload = [] ∧
      command = .close input.streamId input.streamSeq input.producer input.nowMs := by
    intro hkind
    cases command <;> cases hinput
    · cases hkind
    · exact ⟨rfl, rfl⟩
  subst hcheck
  obtain hunwritten | ⟨gate, hgate, heq⟩ :=
    gate_dispatch (live.appendGated input) (input.kind = .closeOnly) hhistory hslot hidle rfl
  · exact .inl hunwritten
  -- a write with an evaluated key meets the content checks
  rw [show live.appendLive input = _ from heq]
  unfold appendGated
  cases hfault : contentFaultOf input.producer with
  | error response => exact .inl ⟨response, rfl, .refused (refuses_contentFaultOf _ _ hfault)⟩
  | ok fault =>
    simp only [hslot]
    cases hcontent : checkAppend slot.metadata input gate fault with
    | error response =>
      refine .inl ⟨response, rfl, ?_⟩
      obtain herror | ⟨hstatus, hkind, rfl, rfl⟩ := checkAppend_error hcontent
      · exact .refused herror
      · rw [(hclose hkind).2]
        exact .closed hgate.producer_eq_none hstatus
    | ok messageCount =>
      obtain ⟨hopen, hpayload⟩ := checkAppend_ok hcontent
      exact .inr ⟨gate, messageCount,
        ⟨hlive, hid, hopen, hpayload, fun hkind => (hclose hkind).1, hgate⟩, rfl⟩

/-- A write is explained when what it does to its live stream is. -/
theorem write_explained (apply : StreamStateMachine → StreamStateMachine × StreamResponse)
    (htarget : command.writeTarget = some (streamId, producer, nowMs))
    (happly : ∀ slot, machine.streamExpired streamId nowMs = false →
      machine.streamSlot streamId = some slot →
      (∃ response, apply (machine.expireWriter streamId producer nowMs) =
          (machine.expireWriter streamId producer nowMs, response) ∧
        Unwritten machine check (slot.expireOwn producer nowMs) producer nowMs command response) ∨
      ∃ act, act.Enabled (machine.expireWriter streamId producer nowMs).state ∧
        (apply (machine.expireWriter streamId producer nowMs)).1 =
          (machine.expireWriter streamId producer nowMs).act act ∧
        Outcome machine check command
          (machine.ownActs streamId producer nowMs ++ act ::
            ((machine.expireWriter streamId producer nowMs).act act).capActs
              streamId producer nowMs)
          (apply (machine.expireWriter streamId producer nowMs)).2) :
    Explained machine check command (machine.writeWith streamId producer nowMs apply) := by
  unfold writeWith
  cases hscope : machine.validateStreamScope streamId with
  | error response =>
    exact ⟨_, trace_enforceOn .., .capped htarget (refuses_validateStreamScope _ _ _ hscope)⟩
  | ok _ =>
    cases hmeta : machine.streamMetadata streamId with
    | none => exact ⟨_, trace_enforceOn .., .capped htarget rfl⟩
    | some stream =>
      obtain ⟨old, hold, rfl⟩ := Option.map_eq_some_iff.mp hmeta
      obtain ⟨rfl, hlive⟩ := slots_get?_of_streamSlot hold
      unfold expireStreamIfDue
      by_cases hexpired : machine.streamExpired old.id nowMs = true
      · -- the removed stream has no producers to cap
        simp only [hexpired, if_true]
        have hremove := state_removeStreamState hold .expired nowMs
        have hnone : ((machine.removeStreamState old.id .expired nowMs).1).streamSlot old.id =
            none := by
          rw [streamSlot_eq, hremove.2, GroupState.removeStream_eq]
          exact OrdMap.get?_erase_self _ _
        have henforce : ((machine.removeStreamState old.id .expired nowMs).1).enforceOn old.id
            producer nowMs = (machine.removeStreamState old.id .expired nowMs).1 := by
          unfold enforceOn enforceProducerCap
          cases producer <;> simp only [hnone]
        rw [henforce]
        refine .of_act (.remove old .expired nowMs) hlive rfl (.expired
          (StreamCommand.expiryTarget_of_writeTarget htarget) hold ?_ (.inl rfl))
        simpa [streamExpired, streamMetadata, hold] using hexpired
      · simp only [hexpired, Bool.false_eq_true, if_false]
        have hfalse : machine.streamExpired old.id nowMs = false := by simpa using hexpired
        have hown := trace_expireWriter machine old.id producer nowMs
        obtain ⟨response, heq, hunwritten⟩ | ⟨act, henabled, hact, houtcome⟩ :=
          happly old hfalse hold
        · rw [heq]
          exact ⟨_, hown.append (trace_enforceOn ..), .unwritten htarget hfalse hold hunwritten⟩
        · rw [hact]
          exact ⟨_, hown.append (.cons henabled (trace_enforceOn ..)), houtcome⟩

theorem appendBorrowed_explained {input : AppendStreamInput}
    (hinput : command.appendInput check = some input) :
    Explained machine check command (machine.appendBorrowed input) := by
  refine write_explained (fun live => live.appendLive input)
    (StreamCommand.writeTarget_of_appendInput hinput) fun slot hlive hslot => ?_
  have hown := streamSlot_expireWriter hslot input.producer input.nowMs
  obtain hunwritten | ⟨gate, messageCount, henabled, heq⟩ :=
    appendLive_cases hinput (historyId_expireWriter machine _ _ _) hown (notIdle_expireOwn _ _ _)
  · exact .inl hunwritten
  · simp only [heq]
    exact .inr ⟨_, henabled, rfl, .appended hinput hlive hslot⟩

/-- An external append whose writer's record is not idle is answered without a change, or is
committed. -/
theorem appendExternalLive_cases {input : AppendExternalInput}
    (hinput : command.externalInput check = some input)
    (hvalid : validateExternalPayloadRef input.payload = .ok ())
    (hhistory : live.historyId = machine.historyId)
    (hslot : live.streamSlot input.streamId = some slot)
    (hidle : NotIdle slot input.producer input.nowMs) :
    (∃ response, live.appendExternalLive input = (live, response) ∧
      Unwritten machine check slot input.producer input.nowMs command response) ∨
    ∃ gate, (Act.appendExternal slot input gate).Enabled live.state ∧
      live.appendExternalLive input = live.commitExternal slot input gate := by
  obtain ⟨hid, hlive⟩ := slots_get?_of_streamSlot hslot
  obtain rfl : input.check = check := by
    cases command <;> cases hinput
    rfl
  obtain hunwritten | ⟨gate, hgate, heq⟩ :=
    gate_dispatch (live.appendExternalGated input) false hhistory hslot hidle rfl
  · exact .inl hunwritten
  rw [show live.appendExternalLive input = _ from heq]
  unfold appendExternalGated
  cases hfault : contentFaultOf input.producer with
  | error response => exact .inl ⟨response, rfl, .refused (refuses_contentFaultOf _ _ hfault)⟩
  | ok fault =>
    simp only [hslot]
    cases hcontent : checkAppendExternal slot.metadata input fault with
    | error response =>
      exact .inl ⟨response, rfl, .refused (refuses_checkAppendExternal _ _ _ _ hcontent)⟩
    | ok _ =>
      exact .inr ⟨gate, ⟨hlive, hid, checkAppendExternal_ok hcontent, hvalid, hgate⟩, rfl⟩

theorem appendExternal_explained {input : AppendExternalInput}
    (hinput : command.externalInput check = some input) :
    Explained machine check command (machine.appendExternal input) := by
  have htarget := StreamCommand.writeTarget_of_externalInput hinput
  unfold appendExternal appendExternalUnenforced
  cases hvalid : validateExternalPayloadRef input.payload with
  | error response =>
    exact ⟨_, trace_enforceOn .., .capped htarget (refuses_validateExternalPayloadRef _ _ hvalid)⟩
  | ok _ =>
    refine write_explained (fun live => live.appendExternalLive input) htarget
      fun slot hlive hslot => ?_
    have hown := streamSlot_expireWriter hslot input.producer input.nowMs
    obtain hunwritten | ⟨gate, henabled, heq⟩ :=
      appendExternalLive_cases hinput hvalid (historyId_expireWriter machine _ _ _) hown
        (notIdle_expireOwn _ _ _)
    · exact .inl hunwritten
    · simp only [heq]
      exact .inr ⟨_, henabled, rfl, .appendedExternal hinput hlive hslot⟩

end Commands

end Ursula

import Ursula.Stream.SlotSound

/-!
# Incarnations

A stream's name may be used again once its stream is gone. What stands under a name later goes on
with the stream that stood there before, or was created since, and then its creation time is above
every one given out before, whatever the clock, restores and new histories did in between.

## Main definitions

* `StreamSlot.Continues`: two slots are states of one incarnation, the second the later
* `GroupState.Follows`: what stands under a name goes on with a slot or is newer
* `Later`: the machines a machine becomes without an import

## Main results

* `token_tells_incarnations`: equal tokens of one history name one incarnation
* `wrapped_command_meets_incarnation`, `planned_flush_meets_incarnation`: a command under a token
  and a planned flush change no other incarnation
-/

namespace Ursula

open Word64 StreamStateMachine GroupState

/-! ## One incarnation at two moments -/

/-- `slot'` is a later state of the incarnation that `slot` is a state of. -/
structure StreamSlot.Continues (slot slot' : StreamSlot) : Prop where
  created : slot'.metadata.createdAtMs = slot.metadata.createdAtMs
  generation : slot'.cold.coldGeneration = slot.cold.coldGeneration
  -- the offsets of the source have 64 bits
  tail : min slot.metadata.tailOffset maxValue ≤ slot'.metadata.tailOffset
  closed : slot.metadata.status = .closed →
    slot'.metadata.status = .closed ∧ slot'.metadata.tailOffset = slot.metadata.tailOffset
  retained : slot.retainedOffset ≤ slot'.retainedOffset

namespace StreamSlot.Continues

variable {slot slot' slot'' : StreamSlot}

theorem refl (slot : StreamSlot) : slot.Continues slot :=
  ⟨rfl, rfl, min_le_left _ _, fun h => ⟨h, rfl⟩, le_rfl⟩

theorem trans (h : slot.Continues slot') (h' : slot'.Continues slot'') : slot.Continues slot'' := by
  refine ⟨h'.created.trans h.created, h'.generation.trans h.generation,
    (le_min h.tail (min_le_right _ _)).trans h'.tail, fun hclosed => ?_,
    h.retained.trans h'.retained⟩
  obtain ⟨hstatus, htail⟩ := h.closed hclosed
  obtain ⟨hstatus', htail'⟩ := h'.closed hstatus
  exact ⟨hstatus', htail'.trans htail⟩

/-- A write to an open stream goes on with it. -/
theorem write (hopen : slot.metadata.status = .open) (len nowMs : ℕ) (streamSeq : Option String)
    (closeAfter : Bool)
    (hmetadata : slot'.metadata = writeMetadata slot.metadata len streamSeq nowMs closeAfter)
    (hgeneration : slot'.cold.coldGeneration = slot.cold.coldGeneration)
    (hretained : slot'.retainedOffset = slot.retainedOffset) : slot.Continues slot' := by
  refine ⟨?_, hgeneration, ?_, fun hclosed => ?_, hretained.ge⟩
  · rw [hmetadata]
    unfold writeMetadata renewStreamTtl
    cases streamSeq <;> cases closeAfter <;> dsimp only <;> split_ifs <;> rfl
  · rw [hmetadata, writeMetadata_tailOffset]
    exact min_le_min_right _ (Nat.le_add_right _ _)
  · cases hopen.symm.trans hclosed

end StreamSlot.Continues

section Changes

variable [Blake3] {state : GroupState} {act : Act}

/-- Every change of a slot goes on with its incarnation. -/
theorem continues_slotAfter (henabled : act.Enabled state) {slot slot' : StreamSlot}
    (hact : act.slot = some slot) (hafter : act.slotAfter state = some slot') :
    slot.Continues slot' := by
  have hrefl := StreamSlot.Continues.refl slot
  cases act <;> cases hact
  case append input gate messageCount =>
    simp only [Act.slotAfter] at hafter
    split_ifs at hafter <;> cases hafter
    all_goals
      refine .write henabled.2.2.1 input.payload.length input.nowMs input.streamSeq
        input.closeAfter ?_ ?_ ?_
      all_goals simp [AppendStreamInput.closed, AppendStreamInput.written]
  all_goals cases hafter
  case renew nowMs =>
    unfold renewStreamTtl
    split_ifs <;> exact { hrefl with }
  case retire producerIds =>
    rw [StreamSlot.retireProducers_eq]
    exact { hrefl with }
  case appendExternal input gate =>
    refine .write henabled.2.2.1 input.payload.payloadLen input.nowMs input.streamSeq
      input.closeAfter ?_ ?_ ?_
    all_goals simp [AppendExternalInput.written, StreamColdState.pushDirectExternalSegment]
  case retain retainedOffset nowMs => exact { hrefl with retained := henabled.2.2.1.le }
  case flush chunk =>
    have hgeneration : (slot.cold.pushColdChunk chunk).coldGeneration =
        slot.cold.coldGeneration := by
      unfold StreamColdState.pushColdChunk
      split_ifs <;> rfl
    exact { hrefl with generation := hgeneration }
  case publish | compact | drop | offload => exact { hrefl with }

omit [Blake3] in
theorem le_lastCreatedAtMs_act (himport : ¬ act.IsImport) :
    state.lastCreatedAtMs ≤ (state.act act).lastCreatedAtMs := by
  cases act with
  | importState => exact absurd trivial himport
  | remove => exact (congrArg GroupState.lastCreatedAtMs (removeStream_eq ..)).ge
  | create | newHistory => exact le_max_left _ _
  | append | flush =>
    simp only [GroupState.act]
    split_ifs <;> exact le_rfl
  | publish =>
    simp only [GroupState.act]
    rw [enqueuePaths_eq]
    exact le_rfl
  | retain =>
    simp only [GroupState.act]
    rw [enqueuePaths_eq, releaseSharedColdObjects_eq]
    exact le_rfl
  | compact =>
    simp only [GroupState.act]
    rw [releaseSharedColdObjects_eq]
    exact le_rfl
  | fold =>
    simp only [GroupState.act]
    split <;> exact le_rfl
  | _ => exact le_rfl

/-- What stands under `id` goes on with `slot`, or was created after `last`. -/
def GroupState.Follows (last : ℕ) (id : BucketStreamId) (slot : StreamSlot) (state : GroupState) :
    Prop :=
  last ≤ state.lastCreatedAtMs ∧ ∀ slot', state.slots.get? id = some slot' →
    slot.Continues slot' ∨
      last < slot'.metadata.createdAtMs ∧ slot'.metadata.createdAtMs ≤ maxCreatedAtMs

theorem follows_act (henabled : act.Enabled state) (himport : ¬ act.IsImport) {last : ℕ}
    {id : BucketStreamId} {slot : StreamSlot} (h : state.Follows last id slot) :
    (state.act act).Follows last id slot := by
  refine ⟨h.1.trans (le_lastCreatedAtMs_act himport), fun slot' hslot' => ?_⟩
  cases slotOrigin henabled hslot' with
  | kept hold => exact h.2 slot' hold
  | changed hact _ hold hafter =>
    have hnext := continues_slotAfter henabled hact hafter
    rw [hnext.created]
    exact (h.2 _ hold).imp_left fun hcontinues => hcontinues.trans hnext
  | @created input history createdAtMs hact _ hnew =>
    subst hact hnew
    obtain ⟨-, -, -, hcreated, hmax, -⟩ := henabled
    -- a creation time lies far below where the counter would saturate
    have hsat : satAdd state.lastCreatedAtMs 1 ≤ createdAtMs := hcreated ▸ le_max_right _ _
    have hadd := satAdd_eq_add ((hsat.trans hmax).trans_lt (by decide))
    have hlast := h.1
    exact .inr ⟨show last < createdAtMs by omega, hmax⟩
  | imported hact =>
    subst hact
    exact absurd trivial himport

end Changes

/-! ## Runs -/

/-- A live slot has a creation time that was given out, and that time is its cold generation. -/
def GroupState.Dated (state : GroupState) : Prop :=
  ∀ id slot, state.slots.get? id = some slot →
    slot.metadata.createdAtMs ≤ state.lastCreatedAtMs ∧
      slot.cold.coldGeneration = slot.metadata.createdAtMs

section Runs

variable [Blake3]

theorem kept_dated : Kept (fun _ => True) GroupState.Dated := by
  have hfold : ∀ {slots : OrdMap BucketStreamId StreamSlot} {id slot} (last : ℕ),
      slots.get? id = some slot → slot.metadata.createdAtMs ≤
        (slots.values.map fun slot => slot.metadata.createdAtMs).foldl max last := by
    intro slots id slot last hslot
    have hmem := List.mem_map_of_mem (f := fun slot : StreamSlot => slot.metadata.createdAtMs)
      ((slots.mem_values slot).mpr ⟨id, hslot⟩)
    exact List.foldl_gains (P := fun _ => True) hmem (fun _ _ h => h)
      (fun _ _ => le_max_of_le_left) (fun _ _ => le_max_right _ _) trivial
  refine ⟨(fun _ _ h => by cases h), ?_, ?_, ?_⟩
  · intro state act henabled himport _ h id slot hslot
    have hle := @le_lastCreatedAtMs_act state act himport
    cases slotOrigin henabled hslot with
    | kept hold => exact ⟨(h id slot hold).1.trans hle, (h id slot hold).2⟩
    | changed hact _ hold hafter =>
      have hnext := continues_slotAfter henabled hact hafter
      rw [hnext.created, hnext.generation]
      exact ⟨(h id _ hold).1.trans hle, (h id _ hold).2⟩
    | created hact _ hnew =>
      subst hact hnew
      exact ⟨le_max_right _ _, rfl⟩
    | imported hact =>
      subst hact
      exact absurd trivial himport
  · intro state source restored index nowMs history backupDigest henabled _ hsource id slot hslot
    obtain ⟨own, seq, hown, rfl⟩ := slots_restoreCountedSince henabled.2.2.2 hslot
    exact ⟨hfold _ hslot, (hsource id own hown).2⟩
  · intro machine restored hrestored h id slot hslot
    rw [hrestored.slots] at hslot
    exact ⟨hrestored.lastCreatedAtMs ▸ hfold _ hslot, (h id slot hslot).2⟩

/-- The machines a machine becomes by entries that import nothing and by restores of its own
snapshot. -/
inductive Later (start : StreamStateMachine) : StreamStateMachine → Prop
  | refl : Later start start
  | entry {machine : StreamStateMachine} (h : Later start machine) (index : ℕ)
      (command : StreamCommand) (hown : (machine.applyEntry index command).2.imports = false) :
      Later start (machine.applyEntry index command).1
  | restored {machine restored : StreamStateMachine} (h : Later start machine)
      (hrestored : restoreGroup machine.snapshot machine.usageSnapshot = .ok restored) :
      Later start restored

variable {start machine : StreamStateMachine} {id : BucketStreamId} {slot slot' : StreamSlot}

theorem Later.dated (hlater : Later start machine) (hstart : Reaches (fun _ _ _ => True) start) :
    machine.state.Dated := by
  have hreaches : Reaches (fun _ _ _ => True) machine := by
    induction hlater with
    | refl => exact hstart
    | entry _ index command hown ih => exact .entry ih index command trivial hown
    | restored _ hrestored ih => exact .restored ih hrestored
  exact hreaches.invariant kept_dated fun _ _ _ _ => trivial

theorem Later.follows (hlater : Later start machine) (hslot : start.streamSlot id = some slot) :
    machine.state.Follows start.lastCreatedAtMs id slot := by
  induction hlater with
  | refl =>
    refine ⟨le_rfl, fun slot' hslot' => ?_⟩
    cases hslot.symm.trans ((streamSlot_eq ..).trans hslot')
    exact .inl (.refl slot)
  | @entry machine h index command hown ih =>
    obtain ⟨acts, htrace, houtcome⟩ := applyEntry_explained machine index command
    have himport := houtcome.not_import hown
    generalize (machine.applyEntry index command).1 = after at htrace
    clear houtcome hown h
    induction htrace with
    | nil => exact ih
    | cons henabled _ ihtrace =>
      refine ihtrace ?_ fun act hact => himport act (List.mem_cons_of_mem _ hact)
      rw [state_step henabled]
      exact follows_act henabled (himport _ List.mem_cons_self) ih
  | restored h hrestored ih =>
    have hown := restoreGroup_own hrestored
    refine ⟨ih.1.trans ?_, hown.slots ▸ ih.2⟩
    rw [hown.lastCreatedAtMs]
    exact List.foldlRecOn _ _ le_rfl fun _ h _ _ => le_max_of_le_left h

/-- Within one history tokens tell the creation times apart that creates give out. -/
theorem incarnationToken_inj {a b : ℕ} (history : ℕ) (ha : a ≤ maxCreatedAtMs)
    (hb : b ≤ maxCreatedAtMs) (h : incarnationToken a history = incarnationToken b history) :
    a = b := by
  refine Nat.eq_of_testBit_eq fun i => ?_
  have hbit := congrArg (fun token => token.testBit i) h
  simp only [incarnationToken, incarnationTag, incarnationMask, Nat.testBit_or, Nat.testBit_and,
    Nat.testBit_xor, Nat.testBit_two_pow, Nat.testBit_two_pow_sub_one] at hbit
  by_cases hi : i < 52
  · simpa [hi, Nat.ne_of_gt hi] using hbit
  -- neither has a bit above the mask
  · have hlow : ∀ c, c ≤ maxCreatedAtMs → c.testBit i = false := fun c hc =>
      Nat.testBit_lt_two_pow ((Nat.lt_succ_of_le hc).trans_le
        (Nat.pow_le_pow_right (n := 2) (by decide) (not_lt.mp hi)))
    rw [hlow a ha, hlow b hb]

variable (hstart : Reaches (fun _ _ _ => True) start) (hlater : Later start machine)
  (hslot : start.streamSlot id = some slot) (hslot' : machine.streamSlot id = some slot')
include hstart hlater hslot hslot'

theorem Later.continues_or_newer : slot.Continues slot' ∨
    slot.metadata.createdAtMs < slot'.metadata.createdAtMs ∧
      (machine.historyId = start.historyId →
        machine.tokenOf slot'.metadata ≠ start.tokenOf slot.metadata) := by
  have hdated := Later.refl.dated hstart id slot (streamSlot_eq .. ▸ hslot)
  obtain h | ⟨hlast, hmax⟩ := (hlater.follows hslot).2 slot' (streamSlot_eq .. ▸ hslot')
  · exact .inl h
  have hlt := hdated.1.trans_lt hlast
  refine .inr ⟨hlt, fun hhistory htoken => hlt.ne' ?_⟩
  unfold tokenOf at htoken
  rw [hhistory] at htoken
  exact incarnationToken_inj start.historyId hmax (hlt.le.trans hmax) htoken

/-! ## What tokens and generations tell -/

/-- **Tokens.** Within one history, what stands under a name later has the token that was read, and
then it is the same incarnation and no offset of it has moved back, or has another token and was
created later. -/
theorem token_tells_incarnations (hhistory : machine.historyId = start.historyId) :
    machine.tokenOf slot'.metadata = start.tokenOf slot.metadata ∧ slot.Continues slot' ∨
      machine.tokenOf slot'.metadata ≠ start.tokenOf slot.metadata ∧
        slot.metadata.createdAtMs < slot'.metadata.createdAtMs := by
  obtain h | ⟨hlt, htoken⟩ := Later.continues_or_newer hstart hlater hslot hslot'
  · refine .inl ⟨?_, h⟩
    unfold tokenOf
    rw [hhistory, h.created]
  · exact .inr ⟨htoken hhistory, hlt⟩

/-- **Preconditions.** A command under a token that was read earlier in the history changes nothing,
unless the stream it finds live is the incarnation that the token was read from. -/
theorem wrapped_command_meets_incarnation (hhistory : machine.historyId = start.historyId)
    {command : StreamCommand} {index nowMs : ℕ} {create : Bool}
    (htarget : preconditionTarget command = some (id, nowMs, create))
    (hlive : streamIsExpired slot'.metadata nowMs = false)
    (hchanged : (machine.applyEntry index
      (.ifIncarnation (start.tokenOf slot.metadata) command)).1 ≠ machine) :
    slot.Continues slot' := by
  obtain h | ⟨-, htoken⟩ := Later.continues_or_newer hstart hlater hslot hslot'
  · exact h
  -- the precondition refuses the command
  refine absurd ?_ hchanged
  simp [applyEntry, applyChecked, incarnationPrecondition, htarget, streamMetadata, hslot',
    Option.filter, hlive, htoken hhistory]

/-- **Flush plans.** A flush that was planned from an incarnation changes nothing, in whatever
history, unless the stream it finds is that incarnation. -/
theorem planned_flush_meets_incarnation {chunk : ColdChunkRef} {index : ℕ}
    (hchanged : (machine.applyEntry index
      (.flushCold id chunk slot.cold.coldGeneration)).1 ≠ machine) : slot.Continues slot' := by
  obtain h | ⟨hlt, -⟩ := Later.continues_or_newer hstart hlater hslot hslot'
  · exact h
  have hdated := Later.refl.dated hstart id slot (streamSlot_eq .. ▸ hslot)
  have hdated' := hlater.dated hstart id slot' (streamSlot_eq .. ▸ hslot')
  refine absurd ?_ hchanged
  generalize hplanned : slot.cold.coldGeneration = planned
  obtain ⟨acts, htrace, houtcome⟩ := applyEntry_explained machine index
    (.flushCold id chunk planned)
  generalize machine.applyEntry index (.flushCold id chunk planned) = result at htrace houtcome
  obtain ⟨after, response⟩ := result
  cases houtcome with
  | refused =>
    cases htrace
    rfl
  | flushed hfound =>
    -- the generations are the creation times, which differ
    cases hslot'.symm.trans hfound
    omega
  | _ => contradiction

end Runs

section Witnesses

attribute [local instance] Blake3.zero

/-- The sample group with its stream, of one byte. -/
def sampleStart : StreamStateMachine :=
  (StreamStateMachine.new.applyEntries (sampleGenesis ++ [(3, sampleCreate [65])])).1

/-- The sample stream. -/
def sampleSlot : StreamSlot := (sampleStart.streamSlot sampleStream).get (by decide +kernel)

theorem reaches_sampleStart : Reaches (fun _ _ _ => True) sampleStart :=
  Reaches.applyEntries Run.new _ (by decide +kernel)

theorem streamSlot_sampleStart : sampleStart.streamSlot sampleStream = some sampleSlot :=
  (Option.some_get _).symm

/-- The stream is deleted and created again while the clock stands still. -/
theorem token_tells_incarnations_sample :
    let again := ((sampleStart.applyEntry 4 (.deleteStream sampleStream 1000)).1.applyEntry 5
      (sampleCreate [])).1
    ∃ slot', again.streamSlot sampleStream = some slot' ∧
      (sampleSlot.Continues slot' ∨
        sampleSlot.metadata.createdAtMs < slot'.metadata.createdAtMs) := by
  intro again
  obtain ⟨slot', hslot'⟩ := Option.isSome_iff_exists.mp
    (show (again.streamSlot sampleStream).isSome = true by decide +kernel)
  refine ⟨slot', hslot', ?_⟩
  exact (token_tells_incarnations reaches_sampleStart
    ((Later.refl.entry 4 _ (by decide +kernel)).entry 5 _ (by decide +kernel))
    streamSlot_sampleStart hslot' (by decide +kernel)).imp And.right And.right

/-- The sample group once another byte is appended to its stream. -/
def sampleGrown : StreamStateMachine := (sampleStart.applyEntry 4 (sampleAppend [66] none)).1

/-- The grown stream. -/
def sampleGrownSlot : StreamSlot := (sampleGrown.streamSlot sampleStream).get (by decide +kernel)

theorem later_sampleGrown : Later sampleStart sampleGrown :=
  Later.refl.entry 4 _ (by decide +kernel)

theorem streamSlot_sampleGrown : sampleGrown.streamSlot sampleStream = some sampleGrownSlot :=
  (Option.some_get _).symm

/-- A command under the token of the stream as it was before the append. -/
theorem wrapped_command_meets_incarnation_sample :
    let append := .ifIncarnation (sampleStart.tokenOf sampleSlot.metadata) (sampleAppend [67] none)
    (sampleGrown.applyEntry 5 append).1 ≠ sampleGrown ∧ sampleSlot.Continues sampleGrownSlot := by
  intro append
  have hchanged : (sampleGrown.applyEntry 5 append).1 ≠ sampleGrown :=
    fun h => absurd (congrArg hotPayloadBytes h) (by decide +kernel)
  exact ⟨hchanged, wrapped_command_meets_incarnation reaches_sampleStart later_sampleGrown
    streamSlot_sampleStart streamSlot_sampleGrown (by decide +kernel) rfl (by decide +kernel)
    hchanged⟩

/-- A flush planned before the append, which finds the stream grown. -/
theorem planned_flush_meets_incarnation_sample :
    let flush := .flushCold sampleStream ⟨0, 1, "o", 1, 0, false, ""⟩ sampleSlot.cold.coldGeneration
    (sampleGrown.applyEntry 5 flush).1 ≠ sampleGrown ∧ sampleSlot.Continues sampleGrownSlot := by
  intro flush
  have hchanged : (sampleGrown.applyEntry 5 flush).1 ≠ sampleGrown :=
    fun h => absurd (congrArg hotPayloadBytes h) (by decide +kernel)
  exact ⟨hchanged, planned_flush_meets_incarnation reaches_sampleStart later_sampleGrown
    streamSlot_sampleStart streamSlot_sampleGrown hchanged⟩

end Witnesses

end Ursula

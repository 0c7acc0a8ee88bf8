import Ursula.Stream.Explain
import Ursula.Stream.Frame
import Ursula.Stream.RoundTrip

/-!
# Runs of a group

A run starts at a new group and goes on with log entries and with restores of the group's own
snapshot. An entry that imports a backup imports the snapshot of a group that a run reached. A run
may carry an observation of its commands and their answers, and may be restricted to the entries a
condition permits.

What every elementary change keeps, and what imports and restores keep, holds in every run.

## Main definitions

* `Observer`, `Permit`: what a run observes, and the entries it may have
* `Run`: the runs, with what they observed
* `Reaches`: the machines of the runs that observe nothing

## Main results

* `Run.invariant`: the invariant rule of runs
-/

namespace Ursula

open StreamStateMachine List

/-- Whether an answer says that a backup was imported. -/
def StreamResponse.imports : StreamResponse → Bool
  | .snapshotImported _ _ _ already => !already
  | _ => false

/-- What a run keeps of its commands and their answers. -/
structure Observer (γ : Type) where
  /-- The observation of a new group. -/
  start : γ
  /-- The observation after an entry that imports nothing. -/
  entry : γ → StreamStateMachine → StreamCommand → StreamStateMachine × StreamResponse → γ
  /-- The observation after an import, from the group's own and that of the imported group. -/
  imported : γ → γ → StreamCommand → StreamStateMachine × StreamResponse → γ

/-- A condition on an entry: what was observed, the machine, the command and its result. -/
abbrev Permit (γ : Type) :=
  γ → StreamStateMachine → StreamCommand → StreamStateMachine × StreamResponse → Prop

/-- Whether a change imports a backup. -/
def Act.IsImport : Act → Prop
  | .importState _ _ _ _ _ _ => True
  | _ => False

/-- Whether a change is none of those that one kind of command makes: an import, a refused
compaction's drop, a sweep's pop of the expiry index. -/
def Act.IsPlain : Act → Prop
  | .importState _ _ _ _ _ _ => False
  | .drop _ _ => False
  | .popExpired _ => False
  | _ => True

theorem Act.IsPlain.not_import {act : Act} (h : act.IsPlain) : ¬ act.IsImport := by
  cases act with
  | importState => exact absurd h id
  | _ => exact id

/-! ## The kinds of changes a command makes -/

section Outcomes

variable [Blake3] {machine : StreamStateMachine} {check : IncarnationCheck} {plain : StreamCommand}
  {acts : List Act} {response : StreamResponse}

variable {streamId : BucketStreamId}

omit [Blake3] in
theorem ownActs_plain {producer : Option ProducerRequest} {nowMs : ℕ} :
    ∀ act ∈ machine.ownActs streamId producer nowMs, act.IsPlain := by
  intro act hact
  obtain ⟨slot, retired, -, rfl⟩ := mem_ownActs hact
  trivial

omit [Blake3] in
theorem capActs_plain {producer : Option ProducerRequest} {nowMs : ℕ} :
    ∀ act ∈ machine.capActs streamId producer nowMs, act.IsPlain := by
  intro act hact
  obtain ⟨slot, retired, -, rfl⟩ := mem_capActs hact
  trivial

omit [Blake3] in
theorem expiry_plain {nowMs : ℕ} (h : Expiry machine streamId nowMs acts) :
    ∀ act ∈ acts, act.IsPlain := by
  intro act hact
  obtain ⟨slot, rfl⟩ := h.mem hact
  trivial

omit [Blake3] in
theorem imports_of_declines (h : response.declines = true) : response.imports = false := by
  cases response with
  | error => rfl
  | _ => cases h

omit [Blake3] in
theorem imports_of_producerAck {ack : ProducerAck} (h : response.producerAck = some ack) :
    response.imports = false := by
  cases response with
  | appended | closed => rfl
  | _ => cases h

/-- The kinds of changes a command makes: an import is an import's one change, a refused
compaction's one change may drop chunks, and a sweep pops the expiry index. -/
inductive Kinds (plain : StreamCommand) (acts : List Act) (response : StreamResponse) : Prop
  | plain (hanswer : response.imports = false) (hacts : ∀ act ∈ acts, act.IsPlain)
  | backup {index nowMs : ℕ} {history : HistoryId} {backupDigest : Digest32}
      {snapshot : StreamSnapshot} {restored : StreamStateMachine}
      (hplain : plain = .importSnapshot snapshot history backupDigest nowMs)
      (hanswer : response.imports = true)
      (hacts : acts = [.importState index history backupDigest nowMs snapshot restored])
  | dropped {streamId : BucketStreamId} {oldChunks : List ColdChunkRef} {replacement : ColdChunkRef}
      {gcNotBeforeMs : ℕ} {slot : StreamSlot}
      (hplain : plain = .compactCold streamId oldChunks replacement gcNotBeforeMs)
      (hanswer : response.declines = true) (hacts : acts = [.drop slot oldChunks])
  | swept {nowMs retireThrough : ℕ} {limit : ℕ+} (hplain : plain = .sweep nowMs limit retireThrough)
      (hanswer : response.imports = false)
      (hacts : ∀ act ∈ acts, act = .popExpired nowMs ∨ act.IsPlain)

variable (h : Outcome machine check plain acts response)
include h

theorem Outcome.kinds : Kinds plain acts response := by
  cases h with
  | imported => exact .backup rfl rfl rfl
  | dropped hfound hscope hcheck h => exact .dropped rfl h rfl
  | refused h => exact .plain (imports_of_declines h) (by simp)
  | streamExists =>
    refine .plain ?_ (by simp)
    unfold NewStream.existingResponse
    split_ifs <;> rfl
  | created hinput hexpiry =>
    refine .plain rfl fun act hact => ?_
    obtain hact | hact := mem_append.mp hact
    · exact expiry_plain hexpiry act hact
    · obtain rfl := mem_singleton.mp hact
      trivial
  | createRefused hinput hexpiry h => exact .plain (imports_of_declines h) (expiry_plain hexpiry)
  | expired htarget hfound hexpired h =>
    refine .plain ?_ (by simp [Act.IsPlain])
    obtain h | rfl := h
    · exact imports_of_declines h
    · rfl
  | capped htarget h => exact .plain (imports_of_declines h) capActs_plain
  | unwritten htarget hlive hslot h =>
    refine .plain ?_ fun act hact => ?_
    · cases h with
      | refused h => exact imports_of_declines h
      | repeated hproducer hkey heval hack => exact imports_of_producerAck hack
      | limited | closed => rfl
    · obtain hact | hact := mem_append.mp hact
      · exact ownActs_plain act hact
      · exact capActs_plain act hact
  | appended =>
    refine .plain ?_ fun act hact => ?_
    · unfold commitAppend
      dsimp only
      split_ifs <;> rfl
    · obtain hact | hact := mem_append.mp hact
      · exact ownActs_plain act hact
      · obtain rfl | hact := mem_cons.mp hact
        · trivial
        · exact capActs_plain act hact
  | appendedExternal =>
    refine .plain rfl fun act hact => ?_
    obtain hact | hact := mem_append.mp hact
    · exact ownActs_plain act hact
    · obtain rfl | hact := mem_cons.mp hact
      · trivial
      · exact capActs_plain act hact
  | snapshotKept hinput hfound hsnapshot hacts =>
    refine .plain rfl ?_
    obtain rfl | ⟨object, -, -, rfl⟩ := hacts <;> simp [Act.IsPlain]
  | purged hremovals =>
    refine .plain rfl fun act hact => ?_
    obtain hact | hact := mem_append.mp hact
    · obtain ⟨removed, rfl⟩ := hremovals act hact
      trivial
    · obtain rfl := mem_singleton.mp hact
      trivial
  | swept hacts =>
    refine .swept rfl rfl fun act hact => ?_
    obtain rfl | rfl | ⟨removed, rfl⟩ := hacts act hact
    · exact .inl rfl
    · exact .inr trivial
    · exact .inr trivial
  | _ => exact .plain rfl (by simp [Act.IsPlain])

/-- Only a create that says so creates a stream. -/
theorem Outcome.create_mem {input : NewStream}
    {history : HistoryId} {createdAtMs : ℕ} (hact : .create input history createdAtMs ∈ acts) :
    plain.createInput = some input ∧
      response = .created input.streamId input.initialLen input.closeAfter := by
  -- no change before or after a command's own is a create
  have hown : ∀ {machine : StreamStateMachine} {streamId producer nowMs},
      .create input history createdAtMs ∉ machine.ownActs streamId producer nowMs := fun hact => by
    obtain ⟨_, _, -, hact⟩ := mem_ownActs hact
    cases hact
  have hcap : ∀ {machine : StreamStateMachine} {streamId producer nowMs},
      .create input history createdAtMs ∉ machine.capActs streamId producer nowMs := fun hact => by
    obtain ⟨_, _, -, hact⟩ := mem_capActs hact
    cases hact
  cases h with
  | createRefused hinput hexpiry h =>
    obtain ⟨slot, hact⟩ := hexpiry.mem hact
    cases hact
  | created hinput hexpiry =>
    obtain hact | hact := mem_append.mp hact
    · obtain ⟨slot, hact⟩ := hexpiry.mem hact
      cases hact
    · cases mem_singleton.mp hact
      exact ⟨hinput, rfl⟩
  | capped => exact absurd hact hcap
  | unwritten | appended | appendedExternal => simp [hown, hcap] at hact
  | snapshotKept hinput hslot hsnapshot hacts =>
    obtain rfl | ⟨object, -, -, rfl⟩ := hacts <;> simp at hact
  | purged hremovals =>
    obtain hact | hact := mem_append.mp hact
    · obtain ⟨slot, hact⟩ := hremovals _ hact
      cases hact
    · simp at hact
  | swept hacts => simpa using hacts _ hact
  | _ => simp at hact

/-- Only an import imports, and does nothing else. -/
theorem Outcome.import_mem {index nowMs : ℕ} {history : HistoryId} {backupDigest : Digest32}
    {snapshot : StreamSnapshot} {restored : StreamStateMachine}
    (hact : .importState index history backupDigest nowMs snapshot restored ∈ acts) :
    plain = .importSnapshot snapshot history backupDigest nowMs ∧
      acts = [.importState index history backupDigest nowMs snapshot restored] := by
  cases h.kinds with
  | plain _ hacts => exact absurd (hacts _ hact) id
  | backup hplain _ hacts =>
    cases mem_singleton.mp (hacts ▸ hact)
    exact ⟨hplain, hacts⟩
  | dropped _ _ hacts => cases mem_singleton.mp (hacts ▸ hact)
  | swept _ _ hacts => exact (hacts _ hact).elim nofun fun h => absurd h id

/-- A command whose answer does not say so imports nothing. -/
theorem Outcome.not_import (hanswer : response.imports = false) : ∀ act ∈ acts, ¬ act.IsImport := by
  intro act hact
  cases h.kinds with
  | plain _ hacts => exact (hacts act hact).not_import
  | backup _ himports => cases himports.symm.trans hanswer
  | dropped _ _ hacts =>
    obtain rfl := mem_singleton.mp (hacts ▸ hact)
    exact id
  | swept _ _ hacts =>
    obtain rfl | hplain := hacts act hact
    · exact id
    · exact hplain.not_import

/-- A command whose answer says so makes one change, the import. -/
theorem Outcome.import_of_imports (hanswer : response.imports = true) :
    ∃ index history backupDigest nowMs snapshot restored,
      plain = .importSnapshot snapshot history backupDigest nowMs ∧
        acts = [.importState index history backupDigest nowMs snapshot restored] := by
  cases h.kinds with
  | plain himports => cases hanswer.symm.trans himports
  | backup hplain _ hacts => exact ⟨_, _, _, _, _, _, hplain, hacts⟩
  | dropped _ herror => cases hanswer.symm.trans (imports_of_declines herror)
  | swept _ himports => cases hanswer.symm.trans himports

end Outcomes

/-! ## Runs -/

section Runs

variable [Blake3] {γ : Type}

/-- The runs of a group with what they observed. -/
inductive Run (observer : Observer γ) (permits : Permit γ) : StreamStateMachine → γ → Prop
  | new : Run observer permits StreamStateMachine.new observer.start
  | entry {machine : StreamStateMachine} {ghost : γ} (hrun : Run observer permits machine ghost)
      (index : ℕ) (command : StreamCommand)
      (hpermits : permits ghost machine command (machine.applyEntry index command))
      (hown : (machine.applyEntry index command).2.imports = false) :
      Run observer permits (machine.applyEntry index command).1
        (observer.entry ghost machine command (machine.applyEntry index command))
  | imported {machine source : StreamStateMachine} {ghost sourceGhost : γ}
      (hrun : Run observer permits machine ghost)
      (hsource : Run observer permits source sourceGhost) (index : ℕ) (command : StreamCommand)
      (hpermits : permits ghost machine command (machine.applyEntry index command))
      {history : HistoryId} {backupDigest : Digest32} {nowMs : ℕ}
      (hcommand : command.stripped = .importSnapshot source.snapshot history backupDigest nowMs)
      (himports : (machine.applyEntry index command).2.imports = true) :
      Run observer permits (machine.applyEntry index command).1
        (observer.imported ghost sourceGhost command (machine.applyEntry index command))
  | restored {machine restored : StreamStateMachine} {ghost : γ}
      (hrun : Run observer permits machine ghost)
      (h : restoreGroup machine.snapshot machine.usageSnapshot = .ok restored) :
      Run observer permits restored ghost

/-- A run that observes nothing. -/
def Observer.none : Observer Unit := ⟨(), fun _ _ _ _ => (), fun _ _ _ _ => ()⟩

/-- The machines of the runs whose entries meet a condition. -/
def Reaches (permits : StreamStateMachine → StreamCommand →
    StreamStateMachine × StreamResponse → Prop) (machine : StreamStateMachine) : Prop :=
  Run Observer.none (fun _ => permits) machine ()

variable {machine : StreamStateMachine}

/-- Entries that import nothing go on with a run. -/
theorem Reaches.applyEntries (h : Reaches (fun _ _ _ => True) machine)
    (entries : List (ℕ × StreamCommand))
    (hown : ∀ response ∈ (machine.applyEntries entries).2, response.imports = false) :
    Reaches (fun _ _ _ => True) (machine.applyEntries entries).1 := by
  induction entries generalizing machine with
  | nil => exact h
  | cons entry rest ih =>
    refine ih (Run.entry h entry.1 entry.2 trivial (hown _ mem_cons_self)) fun response hmem => ?_
    exact hown response (mem_cons_of_mem _ hmem)

/-! ## Invariants -/

/-- What elementary changes, imports of a group that has it, and restores keep. `allowed` leaves out
changes that break it. -/
structure Kept (allowed : Act → Prop) (P : GroupState → Prop) : Prop where
  new : P StreamStateMachine.new.state
  act : ∀ {state act}, act.Enabled state → ¬ act.IsImport → allowed act → P state →
    P (state.act act)
  imported : ∀ {state : GroupState} {source restored : StreamStateMachine} {index nowMs : ℕ}
    {history : HistoryId} {backupDigest : Digest32},
    (Act.importState index history backupDigest nowMs source.snapshot restored).Enabled state →
    P state → P source.state →
    P (state.act (.importState index history backupDigest nowMs source.snapshot restored))
  restored : ∀ {machine restored : StreamStateMachine}, RestoredOwn machine restored →
    P machine.state → P restored.state

/-- Traces keep what each of their changes keeps. -/
theorem Kept.trace {allowed : Act → Prop} {P : GroupState → Prop} (h : Kept allowed P)
    {machine' : StreamStateMachine} {acts : List Act} (htrace : Trace machine acts machine')
    (hacts : ∀ act ∈ acts, ¬ act.IsImport ∧ allowed act) (hP : P machine.state) :
    P machine'.state := by
  induction htrace with
  | nil => exact hP
  | cons henabled _ ih =>
    refine ih (fun act hact => hacts act (by simp [hact])) ?_
    rw [state_step henabled]
    exact h.act henabled (hacts _ (by simp)).1 (hacts _ (by simp)).2 hP

/-- **Invariants.** What changes, imports and restores keep holds in every run, as long as the
entries it may have make allowed changes. -/
theorem Run.invariant {observer : Observer γ} {permits : Permit γ} {allowed : Act → Prop}
    {P : GroupState → Prop} (h : Kept allowed P)
    (hallowed : ∀ {ghost machine command result acts}, permits ghost machine command result →
      Outcome machine command.checkOf command.stripped acts result.2 → ∀ act ∈ acts, allowed act)
    {ghost : γ} (hrun : Run observer permits machine ghost) :
    P machine.state := by
  induction hrun with
  | new => exact h.new
  | @entry machine ghost hrun index command hpermits hown ih =>
    obtain ⟨acts, htrace, houtcome⟩ := applyEntry_explained machine index command
    exact h.trace htrace (fun act hact => ⟨houtcome.not_import hown act hact,
      hallowed hpermits houtcome act hact⟩) ih
  | @imported machine source ghost sourceGhost hrun hsource index command hpermits history
      backupDigest nowMs hcommand himports ih ihsource =>
    obtain ⟨acts, htrace, houtcome⟩ := applyEntry_explained machine index command
    obtain ⟨_, _, _, _, _, _, hplain, rfl⟩ := houtcome.import_of_imports himports
    rw [hcommand] at hplain
    cases hplain
    generalize (machine.applyEntry index command).1 = machine' at htrace
    cases htrace with
    | cons henabled hrest =>
      cases hrest
      rw [state_step henabled]
      exact h.imported henabled ih ihsource
  | restored hrun hrestored ih => exact h.restored (restoreGroup_own hrestored) ih

end Runs

/-! ## A sample group -/

/-- A hash function that witnesses can evaluate. -/
@[reducible] def Blake3.zero : Blake3 := ⟨fun _ => ⟨List.replicate 32 0, rfl⟩⟩

/-- The stream of the samples. -/
def sampleStream : BucketStreamId := ⟨"bkt1", "s1"⟩

/-- The first entries of the sample group: its genesis and a bucket. -/
def sampleGenesis : List (ℕ × StreamCommand) :=
  [(1, .newHistory ⟨1, Nat.one_pos⟩ 0 0 0 ⟨1, 1⟩), (2, .createBucket "bkt1")]

/-- A create of the sample stream with a payload. -/
def sampleCreate (payload : Bytes) : StreamCommand :=
  .createStream sampleStream "text/plain" payload false none none none 1000

/-- An append to the sample stream, with producer headers or without. -/
def sampleAppend (payload : Bytes) (producer : Option ProducerRequest) : StreamCommand :=
  .append sampleStream (some "text/plain") payload false none producer 1001

end Ursula

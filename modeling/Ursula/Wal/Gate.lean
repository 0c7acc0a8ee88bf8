import Mathlib.Data.List.MinMax
import Ursula.Wal.Cores

/-!
# Lost appends and the recovery gate

A group owes a recovery once its core lost an append it acknowledged while the group was
initialized. The evidence is kept in three places: the run-state file says that the run before may
have lost writes, the core's verified epoch says that its journal was not read since, and the
group's log state says that it recovers. While a core is open the evidence is in the log state.

A clean shutdown breaks the chain where a core that the run never opened still has appends of an
earlier run that are not on disk: the shutdown syncs the journals it closes only, and a clean run is
taken as one that lost nothing.

## Main definitions

* `NodeState.Sound`: where the evidence of a lost append is
* `NodeState.ShutdownSafe`: a clean shutdown leaves no append off the disk that a read would trust

## Main results

* `NodeState.Sound.act`: every event but an unsafe shutdown keeps the evidence
* `gated_of_safe_shutdowns`: along runs with safe shutdowns no group that owes a recovery is open
  and initialized
* `clean_shutdown_hides_loss`: a run whose shutdown leaves appends of the run before off the disk
-/

namespace Ursula.Wal

open Ursula.Wal.Core

variable {C : Type}

/-- Whether a run may leave acknowledged appends off the disk. -/
def RunState.Lossy (run : RunState) : Prop :=
  run.status = .poisoned ∨ run.status = .running ∧ run.fsync = .never

namespace NodeState

variable (state : NodeState C)

/-! ## Evidence -/

/-- Whether the host or the device of a run is not the current one. -/
def Moved (run : RunState) : Prop :=
  ¬ (state.bootId.isSome ∧ run.bootId = state.bootId ∧ run.device = state.device)

/-- Whether the next run takes this one as one that may have lost writes. -/
def Recovers (run : RunState) : Prop :=
  run.status = .poisoned ∨ run.status = .running ∧ run.fsync = .never ∧ state.Moved run

/-- Whether a run was recorded in this boot or before, on this device or one before. -/
def Past (run : RunState) : Prop :=
  (∀ boot ∈ run.bootId, ∀ now ∈ state.bootId, boot ≤ now) ∧ run.device ≤ state.device

/-- Whether a run is recorded and holds cores open. -/
def Live : Prop := ∃ fsync opening opened, state.phase = .running fsync opening opened

/-- Whether the next open of a core moves its initialized groups into recovery: the core was not
read since the epoch of the last run began, or the next run begins one. -/
def Noticed (core : Core C) : Prop :=
  ∃ run ∈ state.runState,
    core.metadata.verifiedEpoch < run.recoveryEpoch ∨ ¬ state.Live ∧ state.Recovers run

/-- The evidence a core carries. -/
structure Evident (id : CoreId) (core : Core C) : Prop where
  sized : core.Sized
  /-- Appends off the disk are known to be. -/
  covered : core.Durable ∨
    ∃ run ∈ state.runState, run.Lossy ∨ core.metadata.verifiedEpoch < run.recoveryEpoch
  /-- A group that owes a recovery is out of elections, or its core is not open and the next open
  moves the group into recovery. -/
  owes : ∀ groupId, (id, groupId) ∈ state.owed → (core.metadata.group groupId).log ≠ .empty ∧
    ((core.metadata.group groupId).log = .initialized → id ∉ state.opened ∧ state.Noticed core)

/-- What a start has done so far. -/
structure Starting (fsync : WalFsync) (opening : WalOpening) (mark sync : List CoreId) : Prop where
  later : ∀ run ∈ state.runState, run.recoveryEpoch ≤ opening.recoveryEpoch
  recovers : ∀ run ∈ state.runState, state.Recovers run → opening.recovery = .recovering
  unread : opening.recovery = .recovering → state.cores.All fun _ core =>
    core.metadata.verifiedEpoch < opening.recoveryEpoch
  marked : opening.recovery = .recovering → state.cores.All fun id core =>
    id ∉ mark → core.metadata.NoneInitialized
  synced : ∀ run ∈ state.runState, run.Lossy → ¬ state.Recovers run → fsync = .always →
    state.cores.All fun id core => id ∉ sync → core.Durable

/-- A recorded run and the cores it holds open. -/
structure Running (fsync : WalFsync) (opening : WalOpening) (opened : Finset CoreId) : Prop where
  recorded : ∃ run ∈ state.runState,
    run.status = .running ∧ run.fsync = fsync ∧ run.recoveryEpoch = opening.recoveryEpoch
  read : state.cores.All fun id core =>
    id ∈ opened → core.metadata.verifiedEpoch = opening.recoveryEpoch

/-- What the phase of the root says about it. -/
def PhaseSound : Prop :=
  match state.phase with
  | .down => True
  | .starting fsync opening mark sync => state.Starting fsync opening mark sync
  | .running fsync opening opened => state.Running fsync opening opened

/-- A root that knows of every append it may have lost. -/
structure Sound : Prop where
  fresh : state.runState = none → state.cores = ∅
  past : ∀ run ∈ state.runState, state.Past run
  cores : state.cores.All state.Evident
  owed : ∀ owed ∈ state.owed, ∃ core, state.cores.get? owed.1 = some core
  phase : state.PhaseSound

/-- A clean shutdown is safe when each journal is on disk, or is one that the next open does not
trust. -/
def ShutdownSafe : Prop :=
  ∀ fsync opening opened, state.phase = .running fsync opening opened →
    state.cores.All fun _ core =>
      core.Durable ∨ core.metadata.verifiedEpoch < opening.recoveryEpoch

variable {state}

theorem sound_new (bootId : Option BootId) (device : ℕ) :
    (new bootId device : NodeState C).Sound where
  fresh _ := rfl
  past _ h := by cases h
  cores := OrdMap.all_empty
  owed _ h := absurd h (Finset.notMem_empty _)
  phase := trivial

theorem Sound.starting (h : state.Sound) {fsync : WalFsync} {opening : WalOpening}
    {mark sync : List CoreId} (hphase : state.phase = .starting fsync opening mark sync) :
    state.Starting fsync opening mark sync := by
  have hsound := h.phase
  rw [PhaseSound, hphase] at hsound
  exact hsound

theorem Sound.running (h : state.Sound) {fsync : WalFsync} {opening : WalOpening}
    {opened : Finset CoreId} (hphase : state.phase = .running fsync opening opened) :
    state.Running fsync opening opened := by
  have hsound := h.phase
  rw [PhaseSound, hphase] at hsound
  exact hsound

/-- A group that owes a recovery is out of elections on an open core. -/
theorem Evident.owing {id : CoreId} {core : Core C} (h : state.Evident id core) {groupId : GroupId}
    (howed : (id, groupId) ∈ state.owed) (hopened : id ∈ state.opened) :
    (core.metadata.group groupId).log.Owing := by
  obtain ⟨hempty, hinitialized⟩ := h.owes groupId howed
  cases hlog : (core.metadata.group groupId).log with
  | empty => exact absurd hlog hempty
  | initialized => exact absurd hopened (hinitialized hlog).1
  | recovering => exact .inl rfl
  | retired => exact .inr rfl

/-- A sound root has no group that owes a recovery open and initialized. -/
theorem Sound.gated (h : state.Sound) : state.Gated :=
  fun _ howed hopened core hcore => (h.cores _ core hcore).owing howed hopened

/-! ## What a change of a core or of the root keeps -/

section Keep

variable {id : CoreId} {core after : Core C} {other : NodeState C}

theorem not_live_of_down (h : state.phase = .down) : ¬ state.Live := by
  rintro ⟨_, _, _, hphase⟩
  rw [h] at hphase
  cases hphase

theorem not_live_of_starting {fsync : WalFsync} {opening : WalOpening} {mark sync : List CoreId}
    (h : state.phase = .starting fsync opening mark sync) : ¬ state.Live := by
  rintro ⟨_, _, _, hphase⟩
  rw [h] at hphase
  cases hphase

theorem opened_eq_empty (h : ¬ state.Live) : state.opened = ∅ := by
  unfold opened
  split
  · next hphase => exact absurd ⟨_, _, _, hphase⟩ h
  · rfl
  · rfl

theorem opened_of_running {fsync : WalFsync} {opening : WalOpening} {opened : Finset CoreId}
    (h : state.phase = .running fsync opening opened) : state.opened = opened := by
  rw [NodeState.opened, h]

theorem live_of_opened (h : id ∈ state.opened) :
    ∃ fsync opening opened, state.phase = .running fsync opening opened ∧ id ∈ opened := by
  unfold NodeState.opened at h
  split at h
  · next hphase => exact ⟨_, _, _, hphase, h⟩
  · exact absurd h (Finset.notMem_empty id)
  · exact absurd h (Finset.notMem_empty id)

theorem Noticed.of_epoch (h : state.Noticed core)
    (hepoch : after.metadata.verifiedEpoch = core.metadata.verifiedEpoch) :
    state.Noticed after := by
  obtain ⟨run, hrun, hnoticed⟩ := h
  exact ⟨run, hrun, hepoch ▸ hnoticed⟩

/-- A core keeps its evidence when its log states and its epoch stay. -/
theorem Evident.of_core (h : state.Evident id core) (hsized : after.Sized)
    (hdurable : core.Durable → after.Durable) (hsteady : core.metadata.Steady after.metadata) :
    state.Evident id after where
  sized := hsized
  covered := by
    rw [hsteady.epoch]
    exact h.covered.imp_left hdurable
  owes groupId howed := by
    obtain ⟨hempty, hinitialized⟩ := h.owes groupId howed
    have hkept := hsteady.kept groupId
    refine ⟨hkept.ne_empty hempty, fun hafter => ?_⟩
    obtain ⟨hclosed, hnoticed⟩ := hinitialized (hkept.initialized hempty hafter)
    exact ⟨hclosed, hnoticed.of_epoch hsteady.epoch⟩

/-- A core keeps its evidence when the root keeps its run state. -/
theorem Evident.of_state (h : state.Evident id core) (hrun : other.runState = state.runState)
    (howed : other.owed ⊆ state.owed) (hopened : id ∈ other.opened → id ∈ state.opened)
    (hnoticed : state.Noticed core → other.Noticed core) : other.Evident id core where
  sized := h.sized
  covered := by
    rw [hrun]
    exact h.covered
  owes groupId hmem := by
    obtain ⟨hempty, hinitialized⟩ := h.owes groupId (howed hmem)
    exact ⟨hempty, fun hlog => (hinitialized hlog).imp (mt hopened) hnoticed⟩

/-- A root that leaves or has left its run keeps every core's evidence. -/
theorem Evident.of_not_live (h : state.Evident id core) {cores : OrdMap CoreId (Core C)}
    {phase : Phase}
    (hlive : ¬ ({ state with cores, phase } : NodeState C).Live) :
    ({ state with cores, phase } : NodeState C).Evident id core := by
  refine h.of_state rfl subset_rfl (fun hopened => ?_) ?_
  · rw [opened_eq_empty hlive] at hopened
    exact absurd hopened (Finset.notMem_empty id)
  · rintro ⟨run, hrun, hepoch | ⟨-, hrecovers⟩⟩
    · exact ⟨run, hrun, .inl hepoch⟩
    · exact ⟨run, hrun, .inr ⟨hlive, hrecovers⟩⟩

end Keep

/-! ## Starts -/

section Start

variable {fsync : WalFsync} {opening : WalOpening} {mark sync : List CoreId}

theorem verifiedEpoch_le_history {id : CoreId} {core : Core C}
    (h : state.cores.get? id = some core) :
    core.metadata.verifiedEpoch ≤ state.history.verifiedEpoch := by
  rw [history, JournalHistory.verifiedEpoch_of]
  exact List.le_max_of_le
    (List.mem_map_of_mem (f := fun core => core.metadata.verifiedEpoch)
      ((state.cores.mem_values core).mpr ⟨id, h⟩)) le_rfl

/-- A run that may have lost writes is read as one. -/
theorem recoveryState_of_recovers {run : RunState} (hrun : state.runState = some run)
    (h : state.Recovers run) :
    (PreviousRun.interpret state.runState state.history state.bootId state.device).recoveryState =
      .recovering := by
  rw [hrun]
  unfold PreviousRun.interpret
  dsimp only
  rcases h with hpoisoned | ⟨hrunning, hnever, hmoved⟩
  · rw [hpoisoned]
    rfl
  rw [hrunning]
  dsimp only
  split_ifs with hboot hdevice
  · exact absurd ⟨hboot.1, hboot.2, hdevice⟩ hmoved
  · rw [hnever]
    rfl
  · rw [hnever]
    rfl

/-- A run that left appends off the disk and lost none is read as a process crash. -/
theorem interpret_of_lossy {run : RunState} (hrun : state.runState = some run) (hlossy : run.Lossy)
    (h : ¬ state.Recovers run) :
    PreviousRun.interpret state.runState state.history state.bootId state.device = .processCrash ∧
      run.fsync = .never := by
  rcases hlossy with hpoisoned | ⟨hrunning, hnever⟩
  · exact absurd (.inl hpoisoned) h
  have hhere : state.bootId.isSome ∧ run.bootId = state.bootId ∧ run.device = state.device :=
    by_contra fun hmoved => h (.inr ⟨hrunning, hnever, hmoved⟩)
  refine ⟨?_, hnever⟩
  rw [hrun]
  unfold PreviousRun.interpret
  dsimp only
  rw [hrunning]
  rw [if_pos ⟨hhere.1, hhere.2.1⟩, if_pos hhere.2.2]

theorem Sound.beginRun (h : state.Sound) (fsync : WalFsync) : (state.beginRun fsync).Sound := by
  unfold NodeState.beginRun
  cases hdecide : WalOpening.decide state.runState state.history state.bootId
    state.device fsync with
  | error => exact h
  | ok opening =>
    obtain ⟨hrecovery, -, -, hsync⟩ := WalOpening.decide_eq_ok hdecide
    refine ⟨h.fresh, h.past, h.cores.mono fun _ _ hcore => hcore.of_not_live
      (not_live_of_starting rfl), h.owed, ?_⟩
    refine ⟨fun run hrun => ?_, fun run hrun hrecovers => ?_, fun hrecovering id core hcore => ?_,
      fun hrecovering id core hcore hmark => ?_, fun run hrun hlossy hkept halways id core hcore
        hunsynced => ?_⟩
    · have hprior : run.recoveryEpoch ≤ WalOpening.priorEpoch state.runState state.history := by
        rw [WalOpening.priorEpoch, show state.runState = some run from hrun]
        exact le_max_left _ _
      exact hprior.trans (WalOpening.le_epoch hdecide)
    · exact hrecovery.trans (recoveryState_of_recovers hrun hrecovers)
    · exact (verifiedEpoch_le_history hcore).trans_lt
        ((le_max_right _ _).trans_lt (WalOpening.lt_epoch hdecide hrecovering))
    · rw [if_pos hrecovering] at hmark
      exact absurd ((state.cores.mem_keys id).mpr ⟨core, hcore⟩) hmark
    · obtain ⟨hcrash, hnever⟩ := interpret_of_lossy hrun hlossy hkept
      have hbefore := hsync hcrash
        (by rw [show state.runState = some run from hrun, Option.map_some, hnever]) halways
      rw [if_pos hbefore] at hunsynced
      exact absurd ((state.cores.mem_keys id).mpr ⟨core, hcore⟩) hunsynced

/-- A start that touches one core keeps every core. -/
theorem owed_modify (h : state.Sound) (id : CoreId) (f : Core C → Core C) :
    ∀ owed ∈ state.owed, ∃ core, (state.cores.modify id f).get? owed.1 = some core := by
  intro owed howed
  obtain ⟨core, hcore⟩ := h.owed owed howed
  rw [OrdMap.get?_modify]
  split_ifs with hid
  · rw [← hid, hcore]
    exact ⟨f core, rfl⟩
  · exact ⟨core, hcore⟩

theorem fresh_modify (h : state.Sound) (id : CoreId) (f : Core C → Core C)
    (hrun : state.runState = none) : state.cores.modify id f = ∅ := by
  rw [h.fresh hrun]
  rfl

theorem Sound.stepMark (h : state.Sound) {id : CoreId}
    (hphase : state.phase = .starting fsync opening (id :: mark) sync) :
    ({ state with
      cores := state.cores.modify id markRecovering
      phase := .starting fsync opening mark sync } : NodeState C).Sound := by
  have hstarting := h.starting hphase
  refine ⟨fresh_modify h id _, h.past, ?_, owed_modify h id _, ?_⟩
  · refine h.cores.modify (fun _ _ _ hcore => hcore.of_not_live (not_live_of_starting rfl))
      fun core hcore => ?_
    refine (hcore.of_core hcore.sized.markRecovering durable_markRecovering ?_).of_not_live
      (not_live_of_starting rfl)
    rw [metadata_markRecovering]
    exact CoreMetadata.steady_markRecovering
  · refine ⟨hstarting.later, hstarting.recovers, fun hrecovering => ?_, fun hrecovering => ?_,
      fun run hrun hlossy hkept halways => ?_⟩
    · refine (hstarting.unread hrecovering).modify (fun _ _ _ hcore => hcore) fun core hcore => ?_
      rw [metadata_markRecovering]
      exact hcore
    · refine (hstarting.marked hrecovering).modify (fun id' _ hid hcore hmark => ?_)
        fun core _ _ => ?_
      · exact hcore fun hmem => (List.mem_cons.mp hmem).elim hid hmark
      · rw [metadata_markRecovering]
        exact CoreMetadata.log_markRecovering_ne _
    · exact (hstarting.synced run hrun hlossy hkept halways).modify (fun _ _ _ hcore => hcore)
        fun core hcore hsync => durable_markRecovering (hcore hsync)

theorem Sound.stepSync (h : state.Sound) {id : CoreId}
    (hphase : state.phase = .starting fsync opening [] (id :: sync)) :
    ({ state with
      cores := state.cores.modify id Core.sync
      phase := .starting fsync opening [] sync } : NodeState C).Sound := by
  have hstarting := h.starting hphase
  refine ⟨fresh_modify h id _, h.past, ?_, owed_modify h id _, ?_⟩
  · refine h.cores.modify (fun _ _ _ hcore => hcore.of_not_live (not_live_of_starting rfl))
      fun core hcore => ?_
    exact (hcore.of_core hcore.sized.sync (fun _ => hcore.sized.durable_sync) (.refl _)).of_not_live
      (not_live_of_starting rfl)
  · refine ⟨hstarting.later, hstarting.recovers, fun hrecovering => ?_, fun hrecovering => ?_,
      fun run hrun hlossy hkept halways => ?_⟩
    · exact (hstarting.unread hrecovering).modify (fun _ _ _ hcore => hcore) fun _ hcore => hcore
    · exact (hstarting.marked hrecovering).modify (fun _ _ _ hcore => hcore) fun _ hcore => hcore
    · intro id' core hget hsync
      rw [OrdMap.get?_modify] at hget
      split_ifs at hget with hid
      · obtain ⟨before, hbefore, rfl⟩ := Option.map_eq_some_iff.mp hget
        exact (h.cores id before hbefore).sized.durable_sync
      · exact hstarting.synced run hrun hlossy hkept halways id' core hget
          fun hmem => (List.mem_cons.mp hmem).elim hid hsync

/-- A recorded run has moved what it had to into recovery, and synced what it had to. -/
theorem Sound.record (h : state.Sound) (hphase : state.phase = .starting fsync opening [] []) :
    ({ state with
      runState := some (state.recordOf fsync opening .running)
      phase := .running fsync opening ∅ } : NodeState C).Sound := by
  have hstarting := h.starting hphase
  refine ⟨nofun, ?_, fun id core hcore => ?_, h.owed, ?_⟩
  · rintro run hrun
    cases hrun
    refine ⟨fun boot hboot now hnow => ?_, le_rfl⟩
    cases (show state.bootId = some boot from hboot).symm.trans hnow
    exact le_rfl
  · have hevident := h.cores id core hcore
    refine ⟨hevident.sized, ?_, fun groupId howed => ?_⟩
    · rcases hevident.covered with hdurable | ⟨run, hrun, hlossy | hepoch⟩
      · exact .inl hdurable
      · -- the run before either lost writes, and a new epoch began, or only crashed: its journals
        -- are synced now, or go on unsynced under a run without fsync
        by_cases hrecovers : state.Recovers run
        · exact .inr ⟨_, rfl, .inr (hstarting.unread (hstarting.recovers run hrun hrecovers) id core
            hcore)⟩
        cases hfsync : fsync with
        | always =>
          exact .inl (hstarting.synced run hrun hlossy hrecovers hfsync id core hcore
            (List.not_mem_nil))
        | never => exact .inr ⟨_, rfl, .inl (.inr ⟨rfl, rfl⟩)⟩
      · exact .inr ⟨_, rfl, .inr (hepoch.trans_le (hstarting.later run hrun))⟩
    · obtain ⟨hempty, hinitialized⟩ := hevident.owes groupId howed
      refine ⟨hempty, fun hlog => ⟨Finset.notMem_empty id, _, rfl, .inl ?_⟩⟩
      obtain ⟨run, hrun, hepoch | ⟨-, hrecovers⟩⟩ := (hinitialized hlog).2
      · exact hepoch.trans_le (hstarting.later run hrun)
      · exact absurd hlog (hstarting.marked (hstarting.recovers run hrun hrecovers) id core hcore
          List.not_mem_nil groupId)
  · exact ⟨⟨_, rfl, rfl, rfl, rfl⟩, fun id _ _ hopened => absurd hopened (Finset.notMem_empty id)⟩

theorem Sound.stepStart (h : state.Sound) : state.stepStart.Sound := by
  unfold NodeState.stepStart
  split
  · next hphase => exact h.stepMark hphase
  · next hphase => exact h.stepSync hphase
  · next hphase => exact h.record hphase
  · exact h
  · exact h

end Start

/-! ## Runs -/

section Run

variable {fsync : WalFsync} {opening : WalOpening} {opened : Finset CoreId}

/-- A core of the root, or one without a directory, carries its evidence. -/
theorem Sound.coreAt (h : state.Sound) (id : CoreId) :
    state.Evident id ((state.cores.get? id).getD .empty) := by
  cases hcore : state.cores.get? id with
  | some core => exact h.cores id core hcore
  | none =>
    refine ⟨sized_empty, .inl le_rfl, fun groupId howed => ?_⟩
    obtain ⟨core, hcore'⟩ := h.owed _ howed
    rw [hcore] at hcore'
    cases hcore'

theorem owed_insert (h : state.Sound) (id : CoreId) (core : Core C) :
    ∀ owed ∈ state.owed, ∃ core', (state.cores.insert id core).get? owed.1 = some core' := by
  intro owed howed
  rw [OrdMap.get?_insert]
  split_ifs
  · exact ⟨core, rfl⟩
  · exact h.owed owed howed

theorem Running.ne_none (h : state.Running fsync opening opened) : state.runState ≠ none := by
  obtain ⟨run, hrun, -⟩ := h.recorded
  rw [show state.runState = some run from hrun]
  exact Option.some_ne_none run

variable {core : Core C}

/-- A live root's evidence of a core that is not open is the core's epoch. -/
theorem Running.unread (hphase : state.phase = .running fsync opening opened)
    (h : state.Running fsync opening opened) (hnoticed : state.Noticed core) :
    core.metadata.verifiedEpoch < opening.recoveryEpoch := by
  obtain ⟨run, hrun, -, -, hepoch⟩ := h.recorded
  obtain ⟨run', hrun', hbefore | ⟨hlive, -⟩⟩ := hnoticed
  · cases (show state.runState = some run from hrun).symm.trans hrun'
    rwa [hepoch] at hbefore
  · exact absurd ⟨fsync, opening, opened, hphase⟩ hlive

/-- A live root's appends off the disk are of a run without fsync or in an unread journal. -/
theorem Running.covered (h : state.Running fsync opening opened)
    (hcovered : core.Durable ∨
      ∃ run ∈ state.runState, run.Lossy ∨ core.metadata.verifiedEpoch < run.recoveryEpoch) :
    core.Durable ∨ fsync = .never ∨ core.metadata.verifiedEpoch < opening.recoveryEpoch := by
  obtain ⟨run, hrun, hrunning, hfsync, hepoch⟩ := h.recorded
  rcases hcovered with hdurable | ⟨run', hrun', hlossy⟩
  · exact .inl hdurable
  cases (show state.runState = some run from hrun).symm.trans hrun'
  rcases hlossy with (hpoisoned | ⟨-, hnever⟩) | hbefore
  · rw [hrunning] at hpoisoned
    cases hpoisoned
  · exact .inr (.inl (hfsync.symm.trans hnever))
  · exact .inr (.inr (hepoch ▸ hbefore))

variable {id : CoreId} {other : NodeState C}

/-- A core that was just read in full carries its evidence in its log states. -/
theorem Running.evident_settled {after : Core C}
    (hphase : state.phase = .running fsync opening opened)
    (h : state.Running fsync opening opened) (hevident : state.Evident id core)
    (hsettled : core.Settled opening.recoveryEpoch after)
    (hrun : other.runState = state.runState) (howed : other.owed = state.owed) :
    other.Evident id after := by
  obtain ⟨hsized, hsteady, hdurable, hunread⟩ := hsettled
  refine ⟨hsized, ?_, fun groupId hmem => ?_⟩
  · -- a read of an untrusted journal wrote its verified prefix again, so all of it is on disk
    rcases h.covered hevident.covered with hbefore | hnever | hbefore
    · exact .inl (hdurable hbefore)
    · obtain ⟨run, hmem, hrunning, hfsync, -⟩ := h.recorded
      exact .inr ⟨run, hrun ▸ hmem, .inl (.inr ⟨hrunning, hfsync.trans hnever⟩)⟩
    · exact .inl (hunread hbefore).2
  · obtain ⟨hempty, hinitialized⟩ := hevident.owes groupId (howed ▸ hmem)
    have hkept := hsteady.kept groupId
    refine ⟨hkept.ne_empty hempty, fun hafter => ?_⟩
    -- an initialized group that owes a recovery was in an untrusted journal, which left none
    have hnoticed := (hinitialized (hkept.initialized hempty hafter)).2
    exact absurd hafter ((hunread (h.unread hphase hnoticed)).1 groupId)

/-- A live root that stays live keeps the evidence of the cores it does not open. -/
theorem Evident.of_live (h : state.Evident id core)
    (hlive : state.Live) (hrun : other.runState = state.runState)
    (howed : other.owed ⊆ state.owed) (hopened : id ∈ other.opened → id ∈ state.opened) :
    other.Evident id core := by
  refine h.of_state hrun howed hopened ?_
  rintro ⟨run, hmem, hepoch | ⟨hdown, -⟩⟩
  · exact ⟨run, hrun ▸ hmem, .inl hepoch⟩
  · exact absurd hlive hdown

/-- A live root stays sound when one core changes that keeps its evidence. -/
theorem Sound.insert (h : state.Sound) (hphase : state.phase = .running fsync opening opened)
    (opened' : Finset CoreId)
    (hopened : ∀ id' ≠ id, id' ∈ opened' → id' ∈ opened)
    (hcore : ({ state with
      cores := state.cores.insert id core
      phase := .running fsync opening opened' } : NodeState C).Evident id core)
    (hread : id ∈ opened' → core.metadata.verifiedEpoch = opening.recoveryEpoch) :
    ({ state with
      cores := state.cores.insert id core
      phase := .running fsync opening opened' } : NodeState C).Sound := by
  have hrunning := h.running hphase
  refine ⟨fun hnone => absurd hnone hrunning.ne_none, h.past, ?_, owed_insert h id core,
    hrunning.recorded, ?_⟩
  · refine h.cores.insert (fun id' _ hid hcore' => ?_) hcore
    refine hcore'.of_live ⟨_, _, _, hphase⟩ rfl subset_rfl fun hmem => ?_
    rw [opened_of_running hphase]
    exact hopened id' hid hmem
  · exact hrunning.read.insert (fun id' _ hid hcore' hmem => hcore' (hopened id' hid hmem)) hread

theorem Sound.openCore [LogFormat C] (h : state.Sound) (cacheBytes : ℕ)
    (hphase : state.phase = .running fsync opening opened) (hclosed : id ∉ opened)
    (stop : OpenStop) : (state.openCore cacheBytes id stop).Sound := by
  have hrunning := h.running hphase
  have hcore := h.coreAt id
  -- An open that does not finish leaves a core that carries its evidence and is not open.
  have hkeep : ∀ after : Core C, state.Evident id after →
      ({ state with
        cores := state.cores.insert id after
        phase := .running fsync opening opened } : NodeState C).Sound := by
    refine fun after hafter => h.insert hphase opened (fun _ _ hmem => hmem) ?_
      fun hmem => absurd hmem hclosed
    exact hafter.of_live ⟨_, _, _, hphase⟩ rfl subset_rfl fun hmem => absurd hmem hclosed
  unfold NodeState.openCore
  rw [hphase]
  dsimp only
  cases hopen : ((state.cores.get? id).getD .empty).openStage
      ⟨opening.recoveryEpoch, opening.recovery, cacheBytes⟩ stop with
  | error => exact hkeep _ hcore
  | ok after =>
    cases stop with
    | read | gate | repair =>
      obtain ⟨hsized, hsteady, hdurable⟩ := openStage_steady hcore.sized (by simp) hopen
      exact hkeep after (hcore.of_core hsized hdurable hsteady)
    | settle | create =>
      have hsettled := openStage_settles hcore.sized (by simp) hopen
      exact hkeep after (hrunning.evident_settled hphase hcore hsettled rfl rfl)
    | done =>
      have hsettled := openStage_settles hcore.sized (by simp) hopen
      rw [if_pos rfl]
      exact h.insert hphase _ (fun id' hid hmem => (Finset.mem_insert.mp hmem).resolve_left hid)
        (hrunning.evident_settled hphase hcore hsettled rfl rfl) fun _ => hsettled.steady.epoch

/-- A live root stays sound when an open core changes that keeps its evidence. -/
theorem Sound.modify (h : state.Sound) (hphase : state.phase = .running fsync opening opened)
    (id : CoreId) (f : Core C → Core C) {opened' : Finset CoreId} (hopened : opened' ⊆ opened)
    (hsized : ∀ core : Core C, core.Sized → (f core).Sized)
    (hmetadata : ∀ core : Core C, (f core).metadata = core.metadata)
    (hdurable : ∀ core : Core C, core.Sized → core.Durable → (f core).Durable) :
    ({ state with
      cores := state.cores.modify id f
      phase := .running fsync opening opened' } : NodeState C).Sound := by
  have hrunning := h.running hphase
  have hsub : ∀ id', id' ∈ opened' → id' ∈ state.opened := by
    intro id' hmem
    rw [opened_of_running hphase]
    exact hopened hmem
  refine ⟨fresh_modify h id f, h.past, ?_, owed_modify h id f, hrunning.recorded, ?_⟩
  · refine h.cores.modify
      (fun id' _ _ hcore => hcore.of_live ⟨_, _, _, hphase⟩ rfl subset_rfl (hsub id'))
      fun core hcore => ?_
    refine (hcore.of_core (hsized core hcore.sized) (hdurable core hcore.sized) ?_).of_live
      ⟨_, _, _, hphase⟩ rfl subset_rfl (hsub id)
    rw [hmetadata]
    exact .refl _
  · refine hrunning.read.modify (fun _ _ _ hcore hmem => hcore (hopened hmem))
      fun core hcore hmem => ?_
    rw [hmetadata]
    exact hcore (hopened hmem)

/-- A written core carries its evidence: it was read in this epoch, so what it owes is in its log
states, and its appends are on disk unless the run goes without fsync. -/
theorem Evident.write (h : state.Evident id core)
    (hrunning : state.Running fsync opening opened) (hopened : id ∈ state.opened)
    (hread : core.metadata.verifiedEpoch = opening.recoveryEpoch) (op : CoreWriteOp C)
    (hrun : other.runState = state.runState)
    (howed : ∀ groupId, (id, groupId) ∈ other.owed →
      (id, groupId) ∈ state.owed ∧ op.accepts ≠ some groupId) :
    other.Evident id (core.write fsync op) := by
  refine ⟨h.sized.write, ?_, fun groupId hmem => ?_⟩
  · rcases hrunning.covered h.covered with hdurable | hnever | hbefore
    · cases hfsync : fsync with
      | always => exact .inl (h.sized.durable_write hdurable (by decide))
      | never =>
        obtain ⟨run, hmem, hstatus, hrunFsync, -⟩ := hrunning.recorded
        exact .inr ⟨run, hrun ▸ hmem, .inl (.inr ⟨hstatus, hrunFsync.trans hfsync⟩)⟩
    · obtain ⟨run, hmem, hstatus, hrunFsync, -⟩ := hrunning.recorded
      exact .inr ⟨run, hrun ▸ hmem, .inl (.inr ⟨hstatus, hrunFsync.trans hnever⟩)⟩
    · exact absurd hread hbefore.ne
  · obtain ⟨hbefore, haccepts⟩ := howed groupId hmem
    rcases owing_write haccepts (h.owing hbefore hopened) with hafter | hafter <;>
    · rw [hafter]
      exact ⟨by decide, nofun⟩

theorem Sound.closeCore (h : state.Sound) (id : CoreId) : (state.closeCore id).Sound := by
  unfold NodeState.closeCore
  split
  · next hphase =>
    exact h.modify hphase id sync (Finset.erase_subset _ _) (fun _ hsized => hsized.sync)
      (fun _ => rfl) fun _ hsized _ => hsized.durable_sync
  · exact h
  · exact h

theorem Sound.writeCore (h : state.Sound) (hphase : state.phase = .running fsync opening opened)
    (hopened : id ∈ opened) (op : CoreWriteOp C) : (state.writeCore id op).Sound := by
  have hrunning := h.running hphase
  have hmem : id ∈ state.opened := by
    rw [opened_of_running hphase]
    exact hopened
  unfold NodeState.writeCore
  rw [hphase]
  refine ⟨fresh_modify h id _, h.past, fun id' after hafter => ?_, fun owed howed => ?_,
    hrunning.recorded, ?_⟩
  · rw [OrdMap.get?_modify] at hafter
    split_ifs at hafter with hid
    · obtain ⟨core, hcore, rfl⟩ := Option.map_eq_some_iff.mp hafter
      rw [hid]
      refine (h.cores id core hcore).write hrunning hmem
        (hrunning.read id core hcore hopened) op rfl fun groupId howed => ?_
      obtain ⟨howed, haccepts⟩ := Finset.mem_filter.mp howed
      exact ⟨howed, fun hsome => haccepts ⟨rfl, hsome⟩⟩
    · refine (h.cores id' after hafter).of_live ⟨_, _, _, hphase⟩ rfl (Finset.filter_subset _ _) ?_
      rw [opened_of_running hphase]
      exact fun hmem => hmem
  · exact owed_modify h id _ owed (Finset.mem_of_mem_filter _ howed)
  · refine hrunning.read.modify (fun _ _ _ hcore => hcore) fun core hcore hmem => ?_
    rw [metadata_write, CoreWriteOp.verifiedEpoch_metadata]
    exact hcore hmem

/-- A live root stays sound when an open core's journal changes and nothing else of it. -/
theorem Sound.journal (h : state.Sound) (hphase : state.phase = .running fsync opening opened)
    (id : CoreId) (f : Core C → Core C)
    (hf : ∀ core : Core C, (f core).metadata = core.metadata ∧ (core.Durable → (f core).Durable) ∧
      (core.Sized → (f core).Sized)) :
    ({ state with cores := state.cores.modify id f } : NodeState C).Sound := by
  have hsound := h.modify hphase id f subset_rfl (fun core => (hf core).2.2)
    (fun core => (hf core).1) fun core _ => (hf core).2.1
  rw [← hphase] at hsound
  exact hsound

/-- The end of a run keeps the evidence when the record says so or nothing is off the disk. -/
theorem Sound.endRun (h : state.Sound) (hphase : state.phase = .running fsync opening opened)
    {status : RunStatus} (hsafe : status = .poisoned ∨ state.ShutdownSafe) :
    (state.endRun status).Sound := by
  have hrunning := h.running hphase
  unfold NodeState.endRun
  rw [hphase]
  refine ⟨nofun, ?_, fun id core hcore => ?_, h.owed, trivial⟩
  · rintro run hrun
    cases hrun
    refine ⟨fun boot hboot now hnow => ?_, le_rfl⟩
    cases (show state.bootId = some boot from hboot).symm.trans hnow
    exact le_rfl
  · have hevident := h.cores id core hcore
    refine ⟨hevident.sized, ?_, fun groupId howed => ?_⟩
    · rcases hsafe with hpoisoned | hsafe
      · exact .inr ⟨_, rfl, .inl (.inl hpoisoned)⟩
      · exact (hsafe fsync opening opened hphase id core hcore).imp_right fun hunread =>
          ⟨_, rfl, .inr hunread⟩
    · obtain ⟨hempty, hinitialized⟩ := hevident.owes groupId howed
      refine ⟨hempty, fun hlog => ⟨Finset.notMem_empty id, _, rfl, .inl ?_⟩⟩
      exact hrunning.unread hphase (hinitialized hlog).2

end Run

/-! ## Losses -/

theorem Recovers.lossy {run : RunState} (h : state.Recovers run) : run.Lossy :=
  h.imp_right fun h => ⟨h.1, h.2.1⟩

/-- The groups that begin to owe a recovery were initialized on a core with appends off the disk. -/
theorem mem_losing {losses : CoreId → Loss} {id : CoreId} {groupId : GroupId}
    (h : (id, groupId) ∈ state.losing losses) : ∃ core, state.cores.get? id = some core ∧
      core.loses (losses id) = true ∧ (core.metadata.group groupId).log = .initialized := by
  rw [losing, List.mem_toFinset, List.mem_flatMap] at h
  obtain ⟨⟨id', core⟩, hentry, hmem⟩ := h
  split_ifs at hmem with hloses
  · obtain ⟨groupId', hkey, hpair⟩ := List.mem_map.mp hmem
    cases hpair
    exact ⟨core, state.cores.mem_entries.mp hentry, hloses,
      of_decide_eq_true (List.mem_filter.mp hkey).2⟩
  · cases hmem

/-- A core that loses frames is one whose appends were known to be off the disk. -/
theorem Evident.drop {id : CoreId} {core : Core C} (h : state.Evident id core) {loss : Loss}
    {other : NodeState C} (hrun : other.runState = state.runState) (hlive : ¬ other.Live)
    (howed : ∀ groupId, (id, groupId) ∈ other.owed → (id, groupId) ∈ state.owed ∨
      core.loses loss = true ∧ (core.metadata.group groupId).log = .initialized)
    (hlossy : ∀ run ∈ state.runState, run.Lossy → other.Recovers run) :
    other.Evident id (core.drop loss) := by
  have hclosed : id ∉ other.opened := by
    rw [opened_eq_empty hlive]
    exact Finset.notMem_empty id
  have hnoticed : (∃ run ∈ state.runState,
      run.Lossy ∨ core.metadata.verifiedEpoch < run.recoveryEpoch) → other.Noticed core := by
    rintro ⟨run, hmem, hevidence⟩
    exact ⟨run, hrun ▸ hmem, hevidence.symm.imp_right fun h => ⟨hlive, hlossy run hmem h⟩⟩
  have hepoch : (core.drop loss).metadata.verifiedEpoch = core.metadata.verifiedEpoch := by
    rw [metadata_drop]
  refine ⟨sized_drop loss, ?_, fun groupId hmem => ?_⟩
  · rw [hepoch, hrun]
    exact h.covered.imp_left (durable_drop loss)
  · rw [metadata_drop]
    rcases howed groupId hmem with hbefore | ⟨hloses, hlog⟩
    · obtain ⟨hempty, hinitialized⟩ := h.owes groupId hbefore
      refine ⟨hempty, fun hlog => ⟨hclosed, Noticed.of_epoch (hnoticed ?_) hepoch⟩⟩
      obtain ⟨run, hmem, hevidence⟩ := (hinitialized hlog).2
      exact ⟨run, hmem, hevidence.symm.imp_left fun h => h.2.lossy⟩
    · -- a core that loses an append has one off the disk, and that is known
      refine ⟨fun hempty => ?_, fun _ => ⟨hclosed, Noticed.of_epoch (hnoticed ?_) hepoch⟩⟩
      · rw [hlog] at hempty
        cases hempty
      · refine h.covered.resolve_left fun hdurable => ?_
        rw [h.sized.not_loses hdurable] at hloses
        cases hloses

variable (losses : CoreId → Loss)

/-- A loss keeps the evidence when the run before is then known to have lost writes. -/
theorem Sound.lose (h : state.Sound) (bootId : Option BootId) (device : ℕ)
    (hpast : ∀ run ∈ state.runState,
      ({ state.lose losses with bootId, device } : NodeState C).Past run)
    (hlossy : ∀ run ∈ state.runState, run.Lossy →
      ({ state.lose losses with bootId, device } : NodeState C).Recovers run) :
    ({ state.lose losses with bootId, device } : NodeState C).Sound := by
  refine ⟨fun hnone => ?_, hpast, ?_, fun owed howed => ?_, trivial⟩
  · dsimp only [NodeState.lose]
    rw [h.fresh hnone]
    rfl
  · intro id after hafter
    obtain ⟨core, hcore, rfl⟩ : ∃ core, state.cores.get? id = some core ∧
        core.drop (losses id) = after := by
      rw [NodeState.lose, OrdMap.get?_mapValues] at hafter
      exact Option.map_eq_some_iff.mp hafter
    refine (h.cores id core hcore).drop rfl (not_live_of_down rfl) (fun groupId hmem => ?_) hlossy
    refine (Finset.mem_union.mp hmem).imp_right fun hlosing => ?_
    obtain ⟨core', hcore', hevidence⟩ := mem_losing hlosing
    cases hcore.symm.trans hcore'
    exact hevidence
  · have hcore : ∃ core, state.cores.get? owed.1 = some core := by
      rcases Finset.mem_union.mp howed with howed | hlosing
      · exact h.owed owed howed
      · obtain ⟨core, hcore, -⟩ := mem_losing hlosing
        exact ⟨core, hcore⟩
    obtain ⟨core, hcore⟩ := hcore
    refine ⟨core.drop (losses owed.1), ?_⟩
    rw [NodeState.lose, OrdMap.get?_mapValues, hcore]
    rfl

/-- A root stays sound when its cores keep their metadata and what they hold on disk. -/
theorem Sound.mapCores (h : state.Sound) (f : CoreId → Core C → Core C)
    (hmetadata : ∀ id core, (f id core).metadata = core.metadata)
    (hsized : ∀ id core, core.Sized → (f id core).Sized)
    (hdurable : ∀ id core, core.Sized → core.Durable → (f id core).Durable) :
    ({ state with cores := state.cores.mapValues f } : NodeState C).Sound := by
  have hsteady : ∀ id (core : Core C), core.metadata.Steady (f id core).metadata := by
    intro id core
    rw [hmetadata]
    exact .refl _
  refine ⟨fun hnone => ?_, h.past, ?_, fun owed howed => ?_, ?_⟩
  · dsimp only
    rw [h.fresh hnone]
    rfl
  · refine h.cores.mapValues fun id core hcore => ?_
    exact (hcore.of_core (hsized id core hcore.sized) (hdurable id core hcore.sized)
      (hsteady id core)).of_state rfl subset_rfl (fun hopened => hopened) fun hnoticed => hnoticed
  · obtain ⟨core, hcore⟩ := h.owed owed howed
    refine ⟨f owed.1 core, ?_⟩
    rw [OrdMap.get?_mapValues, hcore]
    rfl
  · have hsound := h.phase
    unfold PhaseSound at hsound ⊢
    dsimp only
    split at hsound
    · trivial
    · refine ⟨hsound.later, hsound.recovers, fun hrecovering => ?_, fun hrecovering => ?_,
        fun run hrun hlossy hkept halways => ?_⟩
      · refine (hsound.unread hrecovering).mapValues fun id core hcore => ?_
        rw [hmetadata]
        exact hcore
      · refine (hsound.marked hrecovering).mapValues fun id core hcore => ?_
        rw [hmetadata]
        exact hcore
      · intro id after hget hsync
        rw [OrdMap.get?_mapValues] at hget
        obtain ⟨core, hcore, rfl⟩ := Option.map_eq_some_iff.mp hget
        exact hdurable id core (h.cores id core hcore).sized
          (hsound.synced run hrun hlossy hkept halways id core hcore hsync)
    · refine ⟨hsound.recorded, hsound.read.mapValues fun id core hcore => ?_⟩
      rw [hmetadata]
      exact hcore

theorem Sound.flush (h : state.Sound) :
    ({ state with cores := state.cores.mapValues fun _ core => core.sync } : NodeState C).Sound :=
  h.mapCores _ (fun _ _ => rfl) (fun _ _ hsized => hsized.sync)
    fun _ _ hsized _ => hsized.durable_sync

/-- What the end of a process cuts short was not acknowledged. -/
theorem Sound.cutShort (h : state.Sound) (cuts : CoreId → CutShort) :
    (state.cutShort cuts).Sound := by
  refine h.mapCores _ (fun id core => ?_) (fun id core hsized => ?_) fun id core _ hdurable => ?_
  · split_ifs
    · exact (cutShort_frame (cuts id)).1
    · rfl
  · split_ifs
    · exact (cutShort_frame (cuts id)).2.2 hsized
    · exact hsized
  · split_ifs
    · exact (cutShort_frame (cuts id)).2.1 hdurable
    · exact hdurable

theorem Sound.powerLoss (h : state.Sound) :
    ({ state.losePower losses with bootId := state.bootId.map (· + 1) } : NodeState C).Sound := by
  refine (h.lose losses (state.bootId.map (· + 1)) state.device (fun run hrun => ?_)
    fun run hrun hlossy => ?_).flush
  · refine ⟨fun boot hboot now hnow => ?_, (h.past run hrun).2⟩
    obtain ⟨before, hbefore, rfl⟩ := Option.map_eq_some_iff.mp hnow
    exact ((h.past run hrun).1 boot hboot before hbefore).trans (Nat.le_succ _)
  · -- the run was recorded in this boot or before, and the boot is another one now
    refine hlossy.imp_right fun hnever => ⟨hnever.1, hnever.2, ?_⟩
    rintro ⟨hsome, hboot, -⟩
    obtain ⟨now, hnow⟩ := Option.isSome_iff_exists.mp hsome
    obtain ⟨before, hbefore, rfl⟩ := Option.map_eq_some_iff.mp hnow
    have hle := (h.past run hrun).1 (before + 1) (hboot.trans hnow) before hbefore
    exact absurd hle (Nat.not_succ_le_self before)

theorem Sound.remount (h : state.Sound) :
    ({ state.losePower losses with device := state.device + 1 } : NodeState C).Sound := by
  refine (h.lose losses state.bootId (state.device + 1) (fun run hrun => ?_)
    fun run hrun hlossy => ?_).flush
  · exact ⟨(h.past run hrun).1, (h.past run hrun).2.trans (Nat.le_succ _)⟩
  · refine hlossy.imp_right fun hnever => ⟨hnever.1, hnever.2, ?_⟩
    rintro ⟨-, -, hdevice⟩
    have hle := (h.past run hrun).2
    rw [hdevice] at hle
    exact absurd hle (Nat.not_succ_le_self state.device)

/-- A poisoned run is known to have lost writes. -/
theorem Sound.poison (h : state.Sound) {fsync : WalFsync} {opening : WalOpening}
    {opened : Finset CoreId} (hphase : state.phase = .running fsync opening opened) :
    ((state.endRun .poisoned).lose losses).Sound := by
  have hend : (state.endRun .poisoned).runState =
      some (state.recordOf fsync opening .poisoned) := by
    rw [NodeState.endRun, hphase]
  have hsound := h.endRun hphase (.inl rfl)
  refine hsound.lose losses _ _ hsound.past fun run hrun _ => ?_
  rw [hend] at hrun
  cases hrun
  exact .inl rfl

theorem Sound.crash (h : state.Sound) : ({ state with phase := .down } : NodeState C).Sound :=
  ⟨h.fresh, h.past, h.cores.mono fun _ _ hcore => hcore.of_not_live (not_live_of_down rfl), h.owed,
    trivial⟩

/-! ## Runs of the root -/

/-- Every event keeps the evidence, but a clean shutdown that leaves appends off the disk. -/
theorem Sound.act [LogFormat C] {cacheBytes : ℕ} (h : state.Sound) {event : NodeEvent C}
    (henabled : (nodeSystem cacheBytes).Enabled state event)
    (hsafe : event = .shutdown → state.ShutdownSafe) :
    ((nodeSystem cacheBytes).act state event).Sound := by
  cases event with
  | start fsync => exact h.beginRun fsync
  | startStep => exact h.stepStart
  | openCore id stop =>
    obtain ⟨fsync, opening, opened, hphase, hclosed⟩ := henabled
    exact h.openCore cacheBytes hphase hclosed stop
  | write id op =>
    obtain ⟨fsync, opening, opened, hphase, hopened⟩ := live_of_opened henabled.1
    exact h.writeCore hphase hopened op
  | batch id records =>
    obtain ⟨fsync, opening, opened, hphase, -⟩ := live_of_opened henabled.1
    exact h.journal hphase id _ (appendFrames_frame records)
  | rotate id =>
    obtain ⟨fsync, opening, opened, hphase, -⟩ := live_of_opened henabled
    exact h.journal hphase id _ fun _ => rotate_frame true
  | closeCore id => exact h.closeCore id
  | shutdown =>
    obtain ⟨fsync, opening, hphase⟩ := henabled
    exact h.endRun hphase (.inr (hsafe rfl))
  | poison cuts losses =>
    obtain ⟨fsync, opening, opened, hphase⟩ := henabled
    exact (h.cutShort cuts).poison losses hphase
  | processCrash cuts => exact (h.cutShort cuts).crash
  | powerLoss losses => exact h.powerLoss losses
  | remount losses => exact h.remount losses

end NodeState

/-- The runs of one root in which every clean shutdown is safe. -/
def safeSystem [LogFormat C] (cacheBytes : ℕ) : ActionSystem (NodeState C) (NodeEvent C) :=
  (nodeSystem cacheBytes).restrict fun state event => event = .shutdown → state.ShutdownSafe

/-- Along the runs of a root whose clean shutdowns leave no append off the disk that a later read
would trust, no group that owes a recovery is initialized on an open core. -/
theorem gated_of_safe_shutdowns [LogFormat C] (cacheBytes : ℕ) (bootId : Option BootId) (device : ℕ)
    (events : List (NodeEvent C)) (state : NodeState C)
    (htrace : (safeSystem cacheBytes).Trace (.new bootId device) events state) : state.Gated := by
  refine NodeState.Sound.gated (htrace.invariant (fun before event henabled h => ?_)
    (NodeState.sound_new bootId device))
  exact h.act henabled.1 henabled.2

/-! ## A clean shutdown that hides a loss -/

/-- Commands without contents. -/
instance unitFormat : LogFormat Unit where
  variableBytes _ := 0
  encodedLen _ := 1
  checksum _ _ := 0
  contentHash _ _ := 0

/-- The membership of one voter. -/
def soleVoter : Control.MembershipConfig := .uniform ⟨{1}, by decide⟩ ∅

/-- An entry of a group of one voter. -/
def appendOp (entry : Entry Unit) : CoreWriteOp Unit := .record 7 (.append [entry]) .initialized

/-- The group's membership entry. -/
def firstEntry : Entry Unit := ⟨⟨1, 1, 0⟩, .membership soleVoter⟩

/-- A blank entry after it. -/
def secondEntry : Entry Unit := ⟨⟨1, 1, 1⟩, .blank⟩

theorem appendOp_plain (entry : Entry Unit) : ∀ groupId record first,
    appendOp entry = .record groupId record first →
      (∀ frozen, record ≠ .frozenAppend frozen) ∧ (first = .initialized ∨ first = .recovering) := by
  rintro _ _ _ hop
  cases hop
  exact ⟨nofun, .inl rfl⟩

/-- A run without fsync acknowledges two appends and crashes; the next run shuts down before it
opens the core; then power is lost, with the second append, and a third run opens the core. -/
def hiddenLoss : List (NodeEvent Unit) :=
  [.start .never, .startStep, .openCore 0 .done, .write 0 (appendOp firstEntry),
    .write 0 (appendOp secondEntry), .processCrash fun _ => .nothing, .start .never, .startStep,
    .shutdown, .powerLoss fun _ => ⟨1, .clean⟩, .start .never, .startStep, .openCore 0 .done]

/-- The same loss in a run that does not end clean. -/
def noticedLoss : List (NodeEvent Unit) :=
  [.start .never, .startStep, .openCore 0 .done, .write 0 (appendOp firstEntry), .closeCore 0,
    .shutdown, .start .never, .startStep, .openCore 0 .done, .write 0 (appendOp secondEntry),
    .powerLoss fun _ => ⟨1, .clean⟩, .start .never, .startStep, .startStep, .openCore 0 .done]

/-- The root after these events. -/
def afterEvents (events : List (NodeEvent Unit)) : NodeState Unit :=
  events.foldl (nodeSystem 0).act (.new (some 0) 0)

/-- A run that never opens a core and shuts down clean hides that the core's appends of the run
before are not on disk: after the loss of one, the core's group opens initialized. -/
theorem clean_shutdown_hides_loss :
    (nodeSystem 0).Trace (.new (some 0) 0) hiddenLoss (afterEvents hiddenLoss) ∧
      (0, 7) ∈ (afterEvents hiddenLoss).owed ∧ 0 ∈ (afterEvents hiddenLoss).opened ∧
      ((afterEvents hiddenLoss).cores.get? 0).map
        (fun core => (core.metadata.group 7).log) = some .initialized := by
  refine ⟨?_, by decide +kernel, by decide +kernel, by decide +kernel⟩
  refine .cons rfl (.cons ⟨_, _, _, _, rfl⟩ (.cons ⟨_, _, _, rfl, by decide⟩ ?_))
  refine .cons ⟨by decide +kernel, appendOp_plain _⟩
    (.cons ⟨by decide +kernel, appendOp_plain _⟩ ?_)
  refine .cons nofun (.cons rfl (.cons ⟨_, _, _, _, rfl⟩ (.cons ⟨_, _, rfl⟩ (.cons trivial ?_))))
  exact .cons rfl (.cons ⟨_, _, _, _, rfl⟩ (.cons ⟨_, _, _, rfl, by decide⟩ (.nil _)))

theorem noticedLoss_gated :
    (safeSystem 0).Trace (.new (some 0) 0) noticedLoss (afterEvents noticedLoss) ∧
      (0, 7) ∈ (afterEvents noticedLoss).owed ∧ 0 ∈ (afterEvents noticedLoss).opened ∧
      (afterEvents noticedLoss).Gated := by
  have htrace : (safeSystem 0).Trace (.new (some 0) 0) noticedLoss (afterEvents noticedLoss) := by
    refine .cons ⟨rfl, nofun⟩ (.cons ⟨⟨_, _, _, _, rfl⟩, nofun⟩
      (.cons ⟨⟨_, _, _, rfl, by decide⟩, nofun⟩ ?_))
    refine .cons ⟨⟨by decide +kernel, appendOp_plain _⟩, nofun⟩
      (.cons ⟨show _ ∈ _ by decide +kernel, nofun⟩ (.cons ⟨⟨_, _, rfl⟩, fun _ => ?_⟩ ?_))
    · rintro fsync opening opened -
      refine OrdMap.all_iff.mpr fun entry hentry => .inl ?_
      revert entry
      decide +kernel
    refine .cons ⟨rfl, nofun⟩ (.cons ⟨⟨_, _, _, _, rfl⟩, nofun⟩
      (.cons ⟨⟨_, _, _, rfl, by decide⟩, nofun⟩ ?_))
    refine .cons ⟨⟨by decide +kernel, appendOp_plain _⟩, nofun⟩ (.cons ⟨trivial, nofun⟩ ?_)
    exact .cons ⟨rfl, nofun⟩ (.cons ⟨⟨_, _, _, _, rfl⟩, nofun⟩ (.cons ⟨⟨_, _, _, _, rfl⟩, nofun⟩
      (.cons ⟨⟨_, _, _, rfl, by decide⟩, nofun⟩ (.nil _))))
  exact ⟨htrace, by decide +kernel, by decide +kernel, gated_of_safe_shutdowns 0 _ _ _ _ htrace⟩

end Ursula.Wal

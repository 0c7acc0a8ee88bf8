import Ursula.Wal.Node

/-!
# What happens to one core

An open, a marking and a loss of power keep every log state, but for the groups they move into
recovery and for groups that were empty. An open of a damaged journal leaves no group initialized.
No step takes an acknowledged append out of the newest segment but a loss of power.

## Main definitions

* `GroupLogState.Kept`, `CoreMetadata.Steady`: what opens and markings do to log states
* `Core.Sized`: the newest segment holds every acknowledged append

## Main results

* `Core.openStage_steady`, `Core.openStage_settles`: what an open does to a core
* `Core.owing_write`: a group that owes a recovery owes it after every change but the one that
  accepts it
-/

namespace Ursula.Wal

open List

variable {C : Type}

/-! ## Log states -/

/-- What an open or a marking may do to a log state. -/
def GroupLogState.Kept (before after : GroupLogState) : Prop :=
  after = before ∨ before = .empty ∨ after = .recovering

namespace GroupLogState.Kept

variable {a b c : GroupLogState}

theorem refl (a : GroupLogState) : Kept a a := .inl rfl

theorem trans (hab : Kept a b) (hbc : Kept b c) : Kept a c := by
  rcases hab with rfl | hempty | rfl
  · exact hbc
  · exact .inr (.inl hempty)
  rcases hbc with rfl | hempty | hrecovering
  · exact .inr (.inr rfl)
  · cases hempty
  · exact .inr (.inr hrecovering)

theorem ne_empty (h : Kept a b) (ha : a ≠ .empty) : b ≠ .empty := by
  rcases h with rfl | hempty | rfl
  · exact ha
  · exact absurd hempty ha
  · decide

theorem initialized (h : Kept a b) (ha : a ≠ .empty) (hb : b = .initialized) :
    a = .initialized := by
  rcases h with rfl | hempty | rfl
  · exact hb
  · exact absurd hempty ha
  · cases hb

end GroupLogState.Kept

/-- A group that takes part in no election and in no commit until its recovery is accepted. -/
def GroupLogState.Owing (state : GroupLogState) : Prop := state = .recovering ∨ state = .retired

namespace CoreMetadata

/-- A change that keeps every log state, as an open does, and the verified epoch. -/
structure Steady (before after : CoreMetadata) : Prop where
  kept : ∀ groupId, GroupLogState.Kept (before.group groupId).log (after.group groupId).log
  epoch : after.verifiedEpoch = before.verifiedEpoch

/-- No group is initialized. -/
def NoneInitialized (metadata : CoreMetadata) : Prop :=
  ∀ groupId, (metadata.group groupId).log ≠ .initialized

variable (metadata : CoreMetadata)

theorem Steady.refl : metadata.Steady metadata := ⟨fun _ => .refl _, rfl⟩

variable {metadata}

theorem Steady.trans {second third : CoreMetadata} (h : metadata.Steady second)
    (h' : second.Steady third) : metadata.Steady third :=
  ⟨fun groupId => (h.kept groupId).trans (h'.kept groupId), h'.epoch.trans h.epoch⟩

theorem Steady.setVerifiedEpoch {after : CoreMetadata} {epoch : ℕ} (h : metadata.Steady after) :
    (metadata.setVerifiedEpoch epoch).Steady (after.setVerifiedEpoch epoch) :=
  ⟨fun groupId => by simpa only [log_setVerifiedEpoch] using h.kept groupId, rfl⟩

theorem steady_foldl {α : Type} {f : CoreMetadata → α → CoreMetadata}
    (hf : ∀ metadata a, Steady metadata (f metadata a)) (l : List α) (metadata : CoreMetadata) :
    metadata.Steady (l.foldl f metadata) := by
  induction l generalizing metadata with
  | nil => exact .refl _
  | cons a l ih => exact (hf metadata a).trans (ih _)

theorem noneInitialized_foldl {α : Type} {f : CoreMetadata → α → CoreMetadata}
    (hf : ∀ metadata a, NoneInitialized metadata → NoneInitialized (f metadata a)) (l : List α)
    (h : metadata.NoneInitialized) : (l.foldl f metadata).NoneInitialized := by
  induction l generalizing metadata with
  | nil => exact h
  | cons a l ih => exact ih (hf metadata a h)

theorem steady_markRecovering : metadata.Steady metadata.markRecovering where
  kept groupId := by
    rw [log_markRecovering]
    split_ifs with hlog
    · exact .inr (.inr rfl)
    · exact .refl _
  epoch := rfl

variable (groupId : GroupId)

theorem steady_initializeGroup (first : GroupLogState) :
    metadata.Steady (metadata.initializeGroup groupId first) where
  kept groupId' := by
    rcases metadata.log_initializeGroup groupId groupId' first with hsame | ⟨hempty, -⟩
    · exact .inl hsame
    · exact .inr (.inl hempty)
  epoch := by
    unfold initializeGroup
    dsimp only
    split_ifs <;> rfl

theorem noneInitialized_initializeGroup (h : metadata.NoneInitialized) :
    (metadata.initializeGroup groupId .recovering).NoneInitialized := by
  intro groupId'
  rcases metadata.log_initializeGroup groupId groupId' .recovering with hsame | ⟨-, hfirst⟩
  · rw [hsame]
    exact h groupId'
  · rw [hfirst]
    decide

theorem steady_setLogState : metadata.Steady (metadata.setLogState groupId .recovering) where
  kept groupId' := by
    rcases metadata.log_setLogState_recovering groupId groupId' with hsame | hrecovering
    · exact .inl hsame
    · exact .inr (.inr hrecovering)
  epoch := by
    unfold setLogState
    split
    · rfl
    · split <;> rfl

theorem noneInitialized_setLogState (h : metadata.NoneInitialized) :
    (metadata.setLogState groupId .recovering).NoneInitialized := by
  intro groupId'
  rcases metadata.log_setLogState_recovering groupId groupId' with hsame | hrecovering
  · rw [hsame]
    exact h groupId'
  · rw [hrecovering]
    decide

theorem steady_adoptGeneration (generation : LogGeneration) :
    metadata.Steady (metadata.adoptGeneration groupId generation) where
  kept groupId' := .inl (metadata.log_adoptGeneration groupId groupId' generation)
  epoch := by
    unfold adoptGeneration
    split_ifs <;> rfl

variable (logs : OrdMap GroupId (GroupLog C))

theorem steady_initializeHeld (missing : Bool)
    (first : GroupLogState) : metadata.Steady (initializeHeld logs missing first metadata) := by
  refine steady_foldl (fun metadata entry => ?_) logs.entries metadata
  split_ifs
  · exact steady_initializeGroup _ _
  · exact .refl _

theorem steady_recoverLost : metadata.Steady (recoverLost logs metadata) :=
  steady_foldl (fun _ _ => steady_setLogState _) _ metadata

theorem noneInitialized_recoverLost
    (h : metadata.NoneInitialized) : (recoverLost logs metadata).NoneInitialized :=
  noneInitialized_foldl (fun _ _ => noneInitialized_setLogState _) _ h

variable (records : List (GroupId × Option LogGeneration))

theorem steady_settleSnapshots : metadata.Steady (settleSnapshots records metadata) := by
  refine steady_foldl (fun metadata snapshot => ?_) records metadata
  dsimp only
  split_ifs
  · exact steady_initializeGroup _ _
  · exact .refl _

theorem noneInitialized_settleSnapshots
    (h : metadata.NoneInitialized) : (settleSnapshots records metadata).NoneInitialized := by
  refine noneInitialized_foldl (fun metadata snapshot hnone => ?_) records h
  dsimp only
  split_ifs
  · exact noneInitialized_initializeGroup _ hnone
  · exact hnone

end CoreMetadata

open CoreMetadata

namespace Scan

variable (scan : Scan C) (metadata : CoreMetadata)

theorem steady_adopt : metadata.Steady (scan.adopt metadata) :=
  steady_foldl (fun _ _ => steady_adoptGeneration _ _) _ metadata

theorem steady_gate : metadata.Steady (scan.gate metadata) :=
  ((scan.steady_adopt metadata).trans
    (steady_foldl (fun _ _ => steady_initializeGroup _ _) _ _)).trans steady_markRecovering

variable (file : Option CoreMetadata) (options : OpenOptions)
  (snapshots : List (GroupId × Option LogGeneration)) (logs : OrdMap GroupId (GroupLog C))

/-- What an open settles on keeps log states, with the epoch of the run. -/
theorem steady_settle : (metadata.setVerifiedEpoch options.recoveryEpoch).Steady
    (scan.settle file options snapshots logs metadata) := by
  unfold settle
  have hheld first := (scan.steady_adopt (metadata.setVerifiedEpoch options.recoveryEpoch)).trans
    (steady_initializeHeld logs file.isNone first)
  refine Steady.trans ?_ ((steady_recoverLost logs).trans (steady_settleSnapshots _))
  by_cases hdamaged : scan.damaged file options = true
  · rw [if_pos hdamaged]
    exact (hheld _).trans steady_markRecovering
  · rw [if_neg hdamaged]
    exact hheld _

/-- An open of a damaged journal leaves no group initialized. -/
theorem noneInitialized_settle (hdamaged : scan.damaged file options = true) :
    (scan.settle file options snapshots logs metadata).NoneInitialized := by
  unfold settle
  refine noneInitialized_settleSnapshots _ (noneInitialized_recoverLost logs ?_)
  rw [if_pos hdamaged]
  exact log_markRecovering_ne _

end Scan

namespace CoreWriteOp

variable {metadata : CoreMetadata} {groupId : GroupId}

theorem owing_of_log_eq {after : CoreMetadata} (h : (metadata.group groupId).log.Owing)
    (hlog : (after.group groupId).log = (metadata.group groupId).log) :
    (after.group groupId).log.Owing := by
  rw [hlog]
  exact h

theorem owing_setGroup {groupId' : GroupId} {group : GroupMetadata}
    (h : (metadata.group groupId).log.Owing) (hgroup : groupId = groupId' → group.log.Owing) :
    ((metadata.setGroup groupId' group).group groupId).log.Owing := by
  rw [group_setGroup]
  split_ifs with hsame
  · exact hgroup hsame
  · exact h

theorem owing_setLogState {groupId' : GroupId} {state : GroupLogState}
    (h : (metadata.group groupId).log.Owing) (hstate : groupId = groupId' → state.Owing) :
    ((metadata.setLogState groupId' state).group groupId).log.Owing := by
  unfold setLogState
  split
  · exact h
  split
  · exact owing_setGroup h hstate
  · exact owing_setGroup h hstate
  · exact h

/-- A change keeps a group out of elections unless it accepts the group's recovery. -/
theorem owing_metadata (op : CoreWriteOp C) (haccepts : op.accepts ≠ some groupId)
    (h : (metadata.group groupId).log.Owing) :
    ((op.metadata metadata).group groupId).log.Owing := by
  cases op with
  | record groupId' written first =>
    unfold CoreWriteOp.metadata
    dsimp only
    split_ifs
    · rcases metadata.log_initializeGroup groupId' groupId first with hsame | ⟨hempty, -⟩
      · exact owing_of_log_eq h hsame
      · rw [hempty] at h
        rcases h with h | h <;> cases h
    · exact h
  | vote groupId' granted => exact owing_of_log_eq h (metadata.log_setVote _ _ _)
  | recovered groupId' =>
    exact owing_setLogState h fun hsame => absurd (congrArg some hsame.symm) haccepts
  | recovery groupId' plan => exact owing_of_log_eq h (metadata.log_setRecovery _ _ _)
  | dropPlan groupId' =>
    exact owing_setLogState (owing_of_log_eq h (metadata.log_setRecovery _ _ _)) fun _ => .inl rfl
  | takePlan groupId' plan =>
    have hplan := owing_of_log_eq h (metadata.log_setRecovery groupId' _ (some plan))
    unfold CoreWriteOp.metadata
    dsimp only [CoreMetadata.takePlan]
    split_ifs
    · exact owing_setLogState hplan fun hsame => absurd (congrArg some hsame.symm) haccepts
    · exact hplan
  | retire groupId' =>
    unfold CoreWriteOp.metadata
    dsimp only
    cases metadata.retirement groupId' with
    | none => exact h
    | some generation => exact owing_setGroup h fun _ => .inr rfl
  | reopen groupId' =>
    unfold CoreWriteOp.metadata
    dsimp only [CoreMetadata.reopen]
    split
    · exact h
    · split_ifs
      · exact owing_setGroup h fun _ => .inl rfl
      · exact h
  | snapshot | sync => exact h

/-- No change a store asks for touches the verified epoch. -/
theorem verifiedEpoch_metadata (op : CoreWriteOp C) :
    (op.metadata metadata).verifiedEpoch = metadata.verifiedEpoch := by
  have hstate : ∀ (metadata : CoreMetadata) groupId state,
      (metadata.setLogState groupId state).verifiedEpoch = metadata.verifiedEpoch := by
    intro metadata groupId state
    unfold setLogState
    split
    · rfl
    · split <;> rfl
  have hrecovery : ∀ (metadata : CoreMetadata) groupId plan,
      (metadata.setRecovery groupId plan).verifiedEpoch = metadata.verifiedEpoch := by
    intro metadata groupId plan
    unfold setRecovery
    split_ifs <;> rfl
  cases op with
  | record groupId' written first =>
    unfold CoreWriteOp.metadata
    dsimp only
    split_ifs
    · exact (steady_initializeGroup groupId' first).epoch
    · rfl
  | recovered groupId' => exact hstate _ _ _
  | recovery groupId' plan => exact hrecovery _ _ _
  | dropPlan groupId' => exact (hstate _ _ _).trans (hrecovery _ _ _)
  | takePlan groupId' plan =>
    unfold CoreWriteOp.metadata
    dsimp only [CoreMetadata.takePlan]
    split_ifs
    · exact (hstate _ _ _).trans (hrecovery _ _ _)
    · exact hrecovery _ _ _
  | retire groupId' =>
    unfold CoreWriteOp.metadata
    dsimp only
    cases metadata.retirement groupId' <;> rfl
  | reopen groupId' =>
    unfold CoreWriteOp.metadata
    dsimp only [CoreMetadata.reopen]
    split
    · rfl
    · split_ifs <;> rfl
  | vote | snapshot | sync => rfl

end CoreWriteOp

/-! ## Segments -/

/-- A segment without what follows its verified frames. -/
def Segment.verified (segment : Segment C) : Segment C := { segment with tail := .clean }

/-- A read keeps every segment, without what follows its verified frames, but for the newest one
when its header is cut short. -/
theorem scanSegments_kept [LogFormat C] {archives : List (ArchiveId × ArchiveFile C)}
    {cacheBytes : ℕ} {kept segments : List (Segment C)} {replay : Replay C} {scan : Scan C}
    (h : scanSegments archives cacheBytes kept segments replay = .ok scan) :
    scan.kept = kept ++ segments.map Segment.verified ∨ ∃ id, scan.cut = .tornNewest id := by
  induction segments generalizing kept replay with
  | nil =>
    cases h
    exact .inl (append_nil _).symm
  | cons segment rest ih =>
    obtain ⟨-, -, h⟩ := Checks.bind_eq_ok h
    split_ifs at h with hheader hlast
    · obtain ⟨replay', -, h⟩ := Checks.bind_eq_ok h
      cases htail : segment.tail with
      | clean =>
        have hverified : segment.verified = segment := by
          cases segment
          cases htail
          rfl
        simp only [htail] at h
        refine (ih h).imp_left fun hkept => ?_
        rw [hkept, map_cons, hverified, append_assoc, singleton_append]
      | incomplete | unverified =>
        simp only [htail] at h
        -- only the newest segment may end in a frame that is cut short
        cases rest with
        | nil =>
          cases h
          exact .inl rfl
        | cons => cases h
    · cases h
      exact .inr ⟨segment.id, rfl⟩

/-! ## Cores -/

namespace Core

variable {core : Core C} (metadata : CoreMetadata)

@[simp] theorem metadata_setMetadata : (core.setMetadata metadata).metadata = metadata := by
  unfold setMetadata
  split_ifs with hsame
  · exact hsame
  · rfl

@[simp] theorem segments_setMetadata :
    (core.setMetadata metadata).dir.segments = core.dir.segments := by
  unfold setMetadata
  split_ifs <;> rfl

@[simp] theorem synced_setMetadata : (core.setMetadata metadata).synced = core.synced := by
  unfold setMetadata
  split_ifs <;> rfl

@[simp] theorem acked_setMetadata : (core.setMetadata metadata).acked = core.acked := by
  unfold setMetadata
  split_ifs <;> rfl

variable {other : Core C}

theorem newest_congr (h : other.dir.segments = core.dir.segments) : other.newest = core.newest := by
  unfold newest
  rw [h]

/-- The newest segment holds every acknowledged append. -/
structure Sized (core : Core C) : Prop where
  acked : core.acked ≤ core.newest.length

/-- Every acknowledged append is on disk. -/
def Durable (core : Core C) : Prop := core.acked ≤ core.synced

instance : Decidable core.Durable := inferInstanceAs (Decidable (_ ≤ _))

theorem sized_empty : (empty : Core C).Sized := ⟨le_rfl⟩

theorem Sized.congr (h : core.Sized)
    (hsegments : other.dir.segments = core.dir.segments) (hacked : other.acked = core.acked) :
    other.Sized :=
  ⟨hacked ▸ newest_congr hsegments ▸ h.acked⟩

theorem Sized.setMetadata (h : core.Sized) (metadata : CoreMetadata) :
    (core.setMetadata metadata).Sized :=
  h.congr (segments_setMetadata metadata) (acked_setMetadata metadata)

theorem metadata_markRecovering : core.markRecovering.metadata = core.metadata.markRecovering :=
  metadata_setMetadata _

theorem Sized.markRecovering (h : core.Sized) : core.markRecovering.Sized := h.setMetadata _

theorem durable_markRecovering (h : core.Durable) : core.markRecovering.Durable := by
  rw [Durable, Core.markRecovering, acked_setMetadata, synced_setMetadata]
  exact h

theorem Sized.sync (h : core.Sized) : core.sync.Sized := h.congr rfl rfl

theorem Sized.durable_sync (h : core.Sized) : core.sync.Durable := h.acked

theorem sized_acknowledge (core : Core C) : core.acknowledge.Sized := ⟨le_rfl⟩

/-! ### The newest segment -/

/-- What a change of the newest segment leaves alone. -/
theorem modifyNewest_frame (change : Segment C → Segment C) :
    (core.modifyNewest change).metadata = core.metadata ∧
      (core.modifyNewest change).synced = core.synced ∧
      (core.modifyNewest change).acked = core.acked := by
  unfold modifyNewest
  split <;> exact ⟨rfl, rfl, rfl⟩

theorem newest_appendFrame_length (groupId : GroupId) (record : RaftGroupLogRecord C) :
    core.newest.length ≤ (core.appendFrame groupId record).newest.length := by
  unfold appendFrame modifyNewest
  cases hlast : core.dir.segments.getLast? with
  | none => exact le_rfl
  | some segment => simp [newest, hlast]

theorem Sized.appendFrame (h : core.Sized) (groupId : GroupId) (record : RaftGroupLogRecord C) :
    (core.appendFrame groupId record).Sized where
  acked := by
    rw [Core.appendFrame, (modifyNewest_frame _).2.2]
    exact h.acked.trans (newest_appendFrame_length groupId record)

theorem durable_appendFrame (hdurable : core.Durable) (groupId : GroupId)
    (record : RaftGroupLogRecord C) : (core.appendFrame groupId record).Durable := by
  rw [Durable, appendFrame, (modifyNewest_frame _).2.1, (modifyNewest_frame _).2.2]
  exact hdurable

/-- What the frames of a batch leave alone. -/
theorem appendFrames_frame (records : List (GroupId × RaftGroupLogRecord C)) (core : Core C) :
    (core.appendFrames records).metadata = core.metadata ∧
      (core.Durable → (core.appendFrames records).Durable) ∧
      (core.Sized → (core.appendFrames records).Sized) := by
  induction records generalizing core with
  | nil => exact ⟨rfl, id, id⟩
  | cons record records ih =>
    obtain ⟨hmetadata, hdurable, hsized⟩ := ih (core.appendFrame record.1 record.2)
    exact ⟨hmetadata.trans (modifyNewest_frame _).1,
      fun h => hdurable (durable_appendFrame h record.1 record.2),
      fun h => hsized (h.appendFrame record.1 record.2)⟩

/-- What the next segment leaves alone. -/
theorem rotate_frame (header : Bool) : (core.rotate header).metadata = core.metadata ∧
    (core.Durable → (core.rotate header).Durable) ∧ (core.Sized → (core.rotate header).Sized) := by
  unfold rotate
  split
  · exact ⟨rfl, id, id⟩
  · exact ⟨rfl, fun _ => Nat.zero_le _, fun _ => ⟨Nat.zero_le _⟩⟩

/-- What the end of a process leaves alone. -/
theorem cutShort_frame (cut : CutShort) : (core.cutShort cut).metadata = core.metadata ∧
    (core.Durable → (core.cutShort cut).Durable) ∧ (core.Sized → (core.cutShort cut).Sized) := by
  cases cut with
  | nothing => exact ⟨rfl, id, id⟩
  | frame =>
    unfold cutShort modifyNewest
    cases hlast : core.dir.segments.getLast? with
    | none => exact ⟨rfl, id, id⟩
    | some segment =>
      refine ⟨rfl, id, fun h => ⟨?_⟩⟩
      have hacked := h.acked
      rw [newest, hlast] at hacked
      simpa [newest] using hacked
  | header => exact rotate_frame false

theorem sized_drop (loss : Loss) : (core.drop loss).Sized := ⟨min_le_right _ _⟩

theorem metadata_drop (loss : Loss) : (core.drop loss).metadata = core.metadata :=
  (modifyNewest_frame _).1

theorem durable_drop (loss : Loss) (h : core.Durable) : (core.drop loss).Durable := by
  show min core.acked _ ≤ (core.modifyNewest _).synced
  rw [(modifyNewest_frame _).2.1]
  exact (min_le_left _ _).trans h

/-- A core whose acknowledged appends are on disk loses none of them. -/
theorem Sized.not_loses (h : core.Sized) (hdurable : core.Durable) (loss : Loss) :
    core.loses loss = false := by
  have hkept : core.acked ≤ (core.drop loss).newest.length := by
    show core.acked ≤ (core.modifyNewest _).newest.length
    have hacked := h.acked
    unfold modifyNewest
    unfold newest at hacked ⊢
    cases hlast : core.dir.segments.getLast? with
    | none => simpa [hlast] using hacked
    | some segment =>
      simp only [hlast, Option.map_some, Option.getD_some] at hacked
      have hsynced : core.acked ≤ core.synced := hdurable
      simp only [getLast?_append_cons, getLast?_singleton, Option.map_some,
        Option.getD_some, length_take]
      omega
  exact decide_eq_false (Nat.not_lt.mpr hkept)

/-! ### Opens -/

theorem newest_verified (h : other.dir.segments = core.dir.segments.map Segment.verified) :
    other.newest = core.newest := by
  unfold newest
  rw [h, getLast?_map]
  cases core.dir.segments.getLast? <;> rfl

theorem steady_gated (scan : Scan C) :
    core.metadata.Steady (({ core with dir := core.dir.gated scan } : Core C).metadata) := by
  unfold metadata JournalDir.gated
  split_ifs
  · exact scan.steady_gate _
  · exact .refl _

theorem metadata_settled (scan : Scan C) (options : OpenOptions)
    (logs : OrdMap GroupId (GroupLog C)) :
    ({ core with dir := core.dir.settled scan options logs } : Core C).metadata =
      scan.settle core.dir.metadata options core.dir.snapshotRecords logs
        ({ core with dir := core.dir.gated scan } : Core C).metadata := by
  unfold metadata JournalDir.settled JournalDir.repaired
  dsimp only
  split_ifs with hsame
  · exact hsame
  · rfl

/-- What the newest segment leaves alone once it exists. -/
theorem activate_frame (cut : Cut) (header : Bool) :
    (core.activate cut header).metadata = core.metadata ∧
      (core.Durable → (core.activate cut header).Durable) ∧
      (core.Sized → (core.activate cut header).Sized) := by
  unfold activate
  split_ifs with hempty
  · refine ⟨rfl, id, fun h => ⟨?_⟩⟩
    have hacked := h.acked
    rw [newest, hempty] at hacked
    exact hacked
  · exact ⟨rfl, id, id⟩

theorem metadata_repair (scan : Scan C) :
    (core.repair scan).metadata = ({ core with dir := core.dir.gated scan } : Core C).metadata := by
  unfold repair
  cases scan.cut <;> rfl

/-- What an open does to a core once its metadata is stored: the journal was read in the run's
epoch, and one that was not read since the epoch began is left with every group out of elections and
every frame on disk. -/
structure Settled (core : Core C) (epoch : ℕ) (opened : Core C) : Prop where
  sized : opened.Sized
  steady : (core.metadata.setVerifiedEpoch epoch).Steady opened.metadata
  durable : core.Durable → opened.Durable
  unread : core.metadata.verifiedEpoch < epoch → opened.metadata.NoneInitialized ∧ opened.Durable

theorem Settled.activate {epoch : ℕ} {opened : Core C} (h : core.Settled epoch opened) (cut : Cut)
    (header : Bool) : core.Settled epoch (opened.activate cut header) := by
  obtain ⟨hmetadata, hdurable, hsized⟩ := @activate_frame C opened cut header
  exact ⟨hsized h.sized, hmetadata ▸ h.steady, fun hbefore => hdurable (h.durable hbefore),
    fun hepoch => ⟨hmetadata ▸ (h.unread hepoch).1, hdurable (h.unread hepoch).2⟩⟩

section Open

variable [LogFormat C] {options : OpenOptions} {opened : Core C}

/-- A cut keeps every acknowledged append, and what is on disk. -/
theorem repair_frame (h : core.Sized) {scan : Scan C} {cacheBytes : ℕ}
    (hscan : core.dir.scan cacheBytes = .ok scan) :
    (core.repair scan).Sized ∧ (core.Durable → (core.repair scan).Durable) := by
  unfold repair
  rcases scanSegments_kept hscan with hkept | ⟨id, hcut⟩
  · cases scan.cut with
    | tornNewest => exact ⟨⟨le_rfl⟩, fun _ => le_rfl⟩
    | none | truncate =>
      refine ⟨⟨?_⟩, id⟩
      rw [@newest_verified C core _ hkept]
      exact h.acked
  · -- the segment before the one that goes was put on disk when it was sealed
    rw [hcut]
    exact ⟨⟨le_rfl⟩, fun _ => le_rfl⟩

/-- An open that stops before its metadata is stored keeps log states and what is on disk. -/
theorem openStage_steady (h : core.Sized) {stop : OpenStop}
    (hstop : stop = .read ∨ stop = .gate ∨ stop = .repair)
    (hopen : core.openStage options stop = .ok opened) :
    opened.Sized ∧ core.metadata.Steady opened.metadata ∧ (core.Durable → opened.Durable) := by
  obtain ⟨scan, hscan, hopen⟩ := Checks.bind_eq_ok hopen
  rcases hstop with rfl | rfl | rfl
  · cases hopen
    exact ⟨h, .refl _, id⟩
  · cases hopen
    refine ⟨h.congr ?_ rfl, steady_gated scan, id⟩
    unfold JournalDir.gated
    split_ifs <;> rfl
  · cases hopen
    obtain ⟨hsized, hdurable⟩ := repair_frame h hscan
    exact ⟨hsized, metadata_repair scan ▸ steady_gated scan, hdurable⟩

theorem settled_settle (h : core.Sized) {scan : Scan C}
    (hscan : core.dir.scan options.cacheBytes = .ok scan) (logs : OrdMap GroupId (GroupLog C)) :
    core.Settled options.recoveryEpoch (core.settle scan options logs) := by
  obtain ⟨hrepaired, hdurable⟩ := repair_frame h hscan
  set settled : Core C := { core.repair scan with dir := core.dir.settled scan options logs }
  have hsized : settled.Sized := hrepaired.congr (by unfold repair; cases scan.cut <;> rfl) rfl
  have hmetadata : settled.metadata = scan.settle core.dir.metadata options core.dir.snapshotRecords
      logs ({ core with dir := core.dir.gated scan } : Core C).metadata :=
    metadata_settled scan options logs
  have hsteady : (core.metadata.setVerifiedEpoch options.recoveryEpoch).Steady
      settled.metadata := by
    rw [hmetadata]
    exact (steady_gated scan).setVerifiedEpoch.trans (scan.steady_settle _ _ _ _ _)
  unfold settle
  split_ifs with hreplay
  · refine ⟨hsized.sync, hsteady, fun _ => hsized.durable_sync, fun hepoch =>
      ⟨?_, hsized.durable_sync⟩⟩
    -- a journal that was not read since the epoch began counts as damaged
    have hdamaged : scan.damaged core.dir.metadata options = true := by
      have hmode : coreReplayMode (core.dir.metadata.getD .default).verifiedEpoch
          options.recoveryEpoch = .verifiedPrefix := if_pos hepoch
      simp [Scan.damaged, hmode]
    show settled.metadata.NoneInitialized
    rw [hmetadata]
    exact scan.noneInitialized_settle _ _ _ _ _ hdamaged
  · exact ⟨hsized, hsteady, hdurable, fun hepoch => absurd (.inr (if_pos hepoch)) hreplay⟩

/-- An open that stores its metadata settles the core, whether it ends with the journal open or
not. -/
theorem openStage_settles (h : core.Sized) {stop : OpenStop}
    (hstop : stop = .settle ∨ stop = .create ∨ stop = .done)
    (hopen : core.openStage options stop = .ok opened) :
    core.Settled options.recoveryEpoch opened := by
  obtain ⟨scan, hscan, hopen⟩ := Checks.bind_eq_ok hopen
  rcases hstop with rfl | rfl | rfl
  · obtain ⟨logs, -, hopen⟩ := Checks.bind_eq_ok hopen
    cases hopen
    exact settled_settle h hscan logs
  · obtain ⟨logs, -, hopen⟩ := Checks.bind_eq_ok hopen
    cases hopen
    exact (settled_settle h hscan logs).activate _ _
  · obtain ⟨logs, -, hopen⟩ := Checks.bind_eq_ok hopen
    cases hopen
    exact (settled_settle h hscan logs).activate _ _

end Open

/-! ### Writes -/

section Write

variable {fsync : WalFsync} {op : CoreWriteOp C}

theorem metadata_write : (core.write fsync op).metadata = op.metadata core.metadata := by
  unfold write
  have hstored : ∀ written : Core C, (((if op.requiresSync fsync then written.sync else written
      ).setMetadata (op.metadata core.metadata)).metadata) = op.metadata core.metadata :=
    fun written => metadata_setMetadata _
  cases op with
  | record groupId record first => cases record <;> exact hstored _
  | retire groupId =>
    dsimp only
    split_ifs <;> exact hstored _
  | _ => exact hstored _

theorem Sized.stored (h : core.Sized) (synced : Bool) (metadata : CoreMetadata) :
    ((if synced then core.sync else core).setMetadata metadata).Sized := by
  split_ifs
  · exact h.sync.setMetadata metadata
  · exact h.setMetadata metadata

theorem Sized.write (h : core.Sized) : (core.write fsync op).Sized := by
  unfold Core.write
  cases op with
  | record groupId record first =>
    have hstored := (h.appendFrame groupId record).stored
    cases record with
    | append => exact sized_acknowledge _
    | _ => exact hstored _ _
  | retire groupId =>
    dsimp only
    by_cases hretired : (core.metadata.retirement groupId).isSome
    · rw [if_pos hretired]
      exact (h.stored _ _).congr rfl rfl
    · rw [if_neg hretired]
      exact h.stored _ _
  | snapshot groupId generation => exact (h.stored _ _).congr rfl rfl
  | _ => exact h.stored _ _

theorem Sized.durable_stored (h : core.Sized) (hdurable : core.Durable) (synced : Bool)
    (metadata : CoreMetadata) :
    ((if synced then core.sync else core).setMetadata metadata).Durable := by
  rw [Durable, acked_setMetadata, synced_setMetadata]
  split_ifs
  · exact h.durable_sync
  · exact hdurable

/-- A run that syncs every append keeps every acknowledged append on disk. -/
theorem Sized.durable_write (h : core.Sized) (hdurable : core.Durable)
    (hfsync : fsync ≠ .never) : (core.write fsync op).Durable := by
  unfold Core.write
  dsimp only
  cases op with
  | record groupId record first =>
    have hstored := (h.appendFrame groupId record).durable_stored
      (durable_appendFrame hdurable groupId record)
    cases record with
    | append entries =>
      have hsync : (CoreWriteOp.record groupId (.append entries) first).requiresSync
          fsync = true := by
        cases fsync with
        | always => rfl
        | never => exact absurd rfl hfsync
      rw [hsync, if_pos rfl, Durable, Core.acknowledge, newest_congr (segments_setMetadata _)]
      rw [synced_setMetadata]
      exact le_rfl
    | _ => exact hstored _ _
  | retire groupId =>
    dsimp only
    by_cases hretired : (core.metadata.retirement groupId).isSome
    · rw [if_pos hretired]
      exact h.durable_stored hdurable _ _
    · rw [if_neg hretired]
      exact h.durable_stored hdurable _ _
  | _ => exact h.durable_stored hdurable _ _

/-- A group out of elections comes back only by a change that accepts it. -/
theorem owing_write {groupId : GroupId} (haccepts : op.accepts ≠ some groupId)
    (h : (core.metadata.group groupId).log.Owing) :
    ((core.write fsync op).metadata.group groupId).log.Owing := by
  rw [metadata_write]
  exact op.owing_metadata haccepts h

end Write

end Core

end Ursula.Wal

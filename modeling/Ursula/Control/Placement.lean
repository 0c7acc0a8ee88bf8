import Ursula.Control.SeedRule
import Ursula.Control.Sound

/-!
# The placement kernel over whole runs

The invariants hold in every bootstrapped state of every run, every move in progress can be
cancelled, and a group's placement key moves only to the id of the entry that moves it, so a key
that a group left never comes back.

## Main definitions

* `ControlPlaneState.key`: a group's placement key
* `MovesKey`: an accepted move or converge of a group, or a history event

## Main results

* `sound_replay`: the invariants, in every state of a run
* `placement_kernel_invariants`: all of it together
-/

namespace Ursula.Control

open Checks List Cluster NonEmptyNodeSet

/-! ## Bootstrap -/

variable {registered : OrdMap NodeId Registration}

theorem checkBootstrap_eq_ok {params : ClusterParams}
    {nodes : NodeSet} (h : checkBootstrap registered params nodes = .ok ()) :
    (∀ node ∈ nodes, ∃ registration, registered.get? node = some registration) ∧
      (∀ node ∈ params.metaVoters, node ∈ nodes) ∧ params.replicationFactor ≤ nodes.len := by
  unfold checkBootstrap at h
  split at h
  · cases h
  rename_i hregistered
  by_cases hcount : maxGroupCount < params.groupCount
  · rw [if_pos hcount] at h
    cases h
  rw [if_neg hcount] at h
  split at h
  · cases h
  rename_i hmeta
  split_ifs at h with hfactor
  refine ⟨fun node hnode => ?_, fun node hnode => ?_, not_lt.mp hfactor⟩
  · have hnone := find?_eq_none.mp hregistered node (mem_iter.mpr hnode)
    exact (OrdMap.contains_iff _ _).mp (by simpa using hnone)
  · have hnone := find?_eq_none.mp hmeta node (mem_iter.mpr hnode)
    simpa using hnone

theorem node_bootstrap (log : MetaLogId) (registered : OrdMap NodeId Registration)
    (params : ClusterParams) (nodes : NodeSet) (nowMs : ℕ) (node : NodeId) :
    (bootstrap log registered params nodes nowMs).node node =
      (registered.get? node).map fun registration =>
        { lifecycle := .active, sinceMs := nowMs, root := registration.root } :=
  OrdMap.get?_mapValues _ registered node

theorem group_bootstrap (log : MetaLogId) (registered : OrdMap NodeId Registration)
    (params : ClusterParams) (nodes : NodeSet) (nowMs : ℕ) (group : RaftGroupId) :
    (bootstrap log registered params nodes nowMs).group group =
      if group < params.groupCount then
        some (.seeded log (seedVoters group params.replicationFactor nodes)
          (initializer group nodes))
      else none := by
  unfold Cluster.group bootstrap
  rw [OrdMap.get?_tabulate]
  simp only [mem_range]

theorem sound_bootstrap {params : ClusterParams}
    {nodes : NodeSet} (h : checkBootstrap registered params nodes = .ok ()) (log : MetaLogId)
    (nowMs : ℕ) : (bootstrap log registered params nodes nowMs).Sound := by
  obtain ⟨hregistered, hmeta, hfactor⟩ := checkBootstrap_eq_ok h
  have hactive : ∀ node ∈ nodes, ∃ record,
      (bootstrap log registered params nodes nowMs).node node = some record ∧
        record.lifecycle = .active := by
    intro node hnode
    obtain ⟨registration, hregistration⟩ := hregistered node hnode
    rw [node_bootstrap, hregistration]
    exact ⟨_, rfl, rfl⟩
  have hlifecycle : ∀ node record,
      (bootstrap log registered params nodes nowMs).node node = some record →
        record.lifecycle = .active := by
    intro node record hrecord
    rw [node_bootstrap] at hrecord
    obtain ⟨registration, -, rfl⟩ := Option.map_eq_some_iff.mp hrecord
    rfl
  have hgroup : ∀ group placement,
      (bootstrap log registered params nodes nowMs).group group = some placement →
        placement = .seeded log (seedVoters group params.replicationFactor nodes)
          (initializer group nodes) := by
    intro group placement hplacement
    rw [group_bootstrap] at hplacement
    split_ifs at hplacement
    exact (Option.some_inj.mp hplacement).symm
  refine ⟨⟨fun group => ?_, fun group placement hplacement => ?_,
    fun group placement hplacement node hnode => ?_, fun _ _ _ _ _ _ => rfl,
    fun _ _ _ hretirement => ?_, fun _ _ hrecords => ?_, fun node hnode => ?_,
    fun node record hrecord hvacant => ?_⟩, fun node record hrecord hdecommissioning => ?_⟩
  · rw [group_bootstrap]
    show _ ↔ group < (params.groupCount : ℕ)
    split_ifs with hlt <;> simp [hlt]
  · rw [hgroup group placement hplacement]
    have hlen := min_eq_left hfactor
    exact ⟨len_seedVoters.trans hlen, len_seedVoters.trans hlen, by rintro moving ⟨⟩⟩
  · rw [hgroup group placement hplacement] at hnode
    obtain ⟨record, hrecord, hstate⟩ := hactive node (mem_seedVoters hnode)
    exact ⟨record, hrecord, by rw [hstate]; rfl⟩
  · cases hretirement
  · cases hrecords
  · obtain ⟨record, hrecord, hstate⟩ := hactive node (hmeta node hnode)
    exact ⟨record, hrecord, .inl hstate⟩
  · rw [hlifecycle node record hrecord] at hvacant
    cases hvacant
  · rw [hlifecycle node record hrecord] at hdecommissioning
    cases hdecommissioning

/-! ## Steps -/

namespace ControlPlaneState

variable {state : ControlPlaneState} {cluster : Cluster}

/-- A bootstrapped state after an entry is the Bootstrap's, a planned commit of the one before, the
one before, or that one rebased. -/
theorem step_eq_bootstrapped {log : MetaLogId} {entry : MetaEntry}
    (h : state.step (log, entry) = .bootstrapped cluster) :
    (∃ registered params nodes nowMs, state = .forming registered ∧
        checkBootstrap registered params nodes = .ok () ∧
        cluster = bootstrap log registered params nodes nowMs) ∨
      ∃ before, state = .bootstrapped before ∧
        (cluster = before ∨
          (∃ command change, entry = .command command ∧ before.plan command = .ok change ∧
            cluster = (before.commit log change).1) ∨
          ∃ cause, entry = .history cause ∧ cluster = rebase before log) := by
  cases entry with
  | history cause =>
    cases state with
    | forming registered => cases cause <;> cases h
    | formationCut => cases h
    | bootstrapped before =>
      cases h
      exact .inr ⟨before, rfl, .inr (.inr ⟨cause, rfl, rfl⟩)⟩
  | command command =>
    cases state with
    | formationCut => cases h
    | forming registered =>
      simp only [step, apply] at h
      split at h <;> cases h
      rename_i params nodes nowMs hplan
      cases formingPlanned_of_plan hplan with
      | bootstrap hcheck => exact .inl ⟨registered, params, nodes, nowMs, rfl, hcheck, rfl⟩
    | bootstrapped before =>
      refine .inr ⟨before, rfl, ?_⟩
      cases hplan : before.plan command with
      | error error =>
        simp only [step, apply, hplan] at h
        cases h
        exact .inl rfl
      | ok change =>
        simp only [step, apply, hplan] at h
        cases h
        exact .inr (.inl ⟨command, change, rfl, hplan, rfl⟩)

theorem sound_step {entry : MetaLogId × MetaEntry}
    (h : ∀ before, state = .bootstrapped before → before.Sound)
    (hstep : state.step entry = .bootstrapped cluster) : cluster.Sound := by
  obtain ⟨log, entry⟩ := entry
  obtain ⟨registered, params, nodes, nowMs, -, hcheck, rfl⟩ | ⟨before, hbefore, hcases⟩ :=
    step_eq_bootstrapped hstep
  · exact sound_bootstrap hcheck log nowMs
  have hsound := h before hbefore
  obtain rfl | ⟨command, change, -, hplan, rfl⟩ | ⟨cause, -, rfl⟩ := hcases
  · exact hsound
  · exact hsound.commit (planned_of_plan hplan) log
  · exact hsound.rebase log

variable (log : List (MetaLogId × MetaEntry))

/-- **Runs.** The invariants hold in every bootstrapped state of every run. -/
theorem sound_replay (h : replay log = .bootstrapped cluster) : cluster.Sound := by
  induction log using reverseRecOn generalizing cluster with
  | nil => cases h
  | append_singleton log entry ih =>
    rw [replay, foldl_append] at h
    exact sound_step (fun before hbefore => ih hbefore) h

/-! ## Placement keys -/

/-- The key of a group's placement. -/
def key (state : ControlPlaneState) (group : RaftGroupId) : Option PlacementEpoch :=
  state.cluster.bind fun cluster => (cluster.group group).map GroupPlacement.since

/-- An entry that moves the key of a group: an accepted move or converge of it, or a history
event. -/
inductive MovesKey (state : ControlPlaneState) (log : MetaLogId) (group : RaftGroupId) :
    MetaEntry → Prop
  | move (expected : PlacementEpoch) (toVoters : VoterSet) (nowMs : ℕ) (applied : ControlApplied)
      (h : (state.apply log (.requestMove group expected toVoters nowMs)).2 = .ok applied) :
    MovesKey state log group (.command (.requestMove group expected toVoters nowMs))
  | converge (since : PlacementEpoch) (voters : VoterSet) (membership : MembershipLogId) (nowMs : ℕ)
      (applied : ControlApplied)
      (h : (state.apply log (.reportConverged group since voters membership nowMs)).2 =
        .ok applied) :
    MovesKey state log group (.command (.reportConverged group since voters membership nowMs))
  | history (cause : HistoryCause) : MovesKey state log group (.history cause)

variable {since : PlacementEpoch} {group : RaftGroupId}

theorem key_eq_some (h : state.key group = some since) :
    ∃ cluster placement, state = .bootstrapped cluster ∧
      cluster.group group = some placement ∧ placement.since = since := by
  obtain ⟨cluster, hcluster, hplacement⟩ := Option.bind_eq_some_iff.mp h
  obtain ⟨placement, hgroup, hsince⟩ := Option.map_eq_some_iff.mp hplacement
  cases state with
  | bootstrapped own =>
    cases hcluster
    exact ⟨cluster, placement, rfl, hgroup, hsince⟩
  | forming | formationCut => cases hcluster

/-- A commit sets the key of the group a move or a converge names, and no other. -/
theorem group_commit {command : ControlCommand} {change : Change}
    (h : Planned cluster command change) (log : MetaLogId) (group : RaftGroupId) :
    (cluster.commit log change).1.group group = cluster.group group ∨
      (∃ placement, (cluster.commit log change).1.group group = some placement ∧
          placement.since = log) ∧
        ((∃ expected toVoters nowMs, command = .requestMove group expected toVoters nowMs) ∨
          ∃ since voters membership nowMs,
            command = .reportConverged group since voters membership nowMs) := by
  cases h with
  | @move group' since toVoters nowMs convergedAt target moving hgroup hlen htargets hmoving =>
    show (cluster.setGroup group' _).group group = _ ∨ _
    by_cases hsame : group = group'
    · subst hsame
      exact .inr ⟨⟨_, by rw [commit, group_setGroup, if_pos rfl], rfl⟩,
        .inl ⟨since, toVoters, nowMs, rfl⟩⟩
    · rw [group_setGroup, if_neg hsame]
      exact .inl rfl
  | @converge group' placement voters membership nowMs retired hgroup hretired =>
    have hset : (cluster.commit log (.converge group' membership voters retired nowMs)).1.group
        group = (cluster.setGroup group' (.live log membership (.stable voters))).group group := by
      simp [commit]
    by_cases hsame : group = group'
    · subst hsame
      exact .inr ⟨⟨_, by rw [hset, group_setGroup, if_pos rfl], rfl⟩,
        .inr ⟨placement.since, voters, membership, nowMs, rfl⟩⟩
    · rw [hset, group_setGroup, if_neg hsame]
      exact .inl rfl
  | tornDown hretirement =>
    left
    simp [commit]
  | _ => exact .inl rfl

/-- An entry leaves a group's key, or moves it to its own id. -/
theorem key_step (h : state.key group = some since) (log : MetaLogId) (entry : MetaEntry) :
    ∃ after, (state.step (log, entry)).key group = some after ∧
      (after = since ∨ after = log ∧ MovesKey state log group entry) := by
  obtain ⟨cluster, placement, rfl, hgroup, rfl⟩ := key_eq_some h
  cases entry with
  | history cause =>
    refine ⟨log, ?_, .inr ⟨rfl, .history cause⟩⟩
    show ((rebase cluster log).group group).map GroupPlacement.since = some log
    rw [group_rebase, hgroup]
    simp
  | command command =>
    cases hplan : cluster.plan command with
    | error error =>
      refine ⟨placement.since, ?_, .inl rfl⟩
      simp only [step, apply, hplan]
      exact h
    | ok change =>
      have hstep : (bootstrapped cluster).step (log, .command command) =
          .bootstrapped (cluster.commit log change).1 := by
        simp only [step, apply, hplan]
      have haccepted : ((bootstrapped cluster).apply log command).2 =
          .ok (cluster.commit log change).2 := by
        simp only [apply, hplan]
      have hkey : ((bootstrapped cluster).step (log, .command command)).key group =
          ((cluster.commit log change).1.group group).map GroupPlacement.since := by
        rw [hstep]
        rfl
      rw [hkey]
      obtain hsame | ⟨⟨placement', hplacement', hsince⟩, hcommand⟩ :=
        group_commit (planned_of_plan hplan) log group
      · exact ⟨placement.since, by rw [hsame, hgroup]; rfl, .inl rfl⟩
      refine ⟨log, by rw [hplacement', Option.map_some, hsince], .inr ⟨rfl, ?_⟩⟩
      obtain ⟨expected, toVoters, nowMs, rfl⟩ | ⟨since, voters, membership, nowMs, rfl⟩ := hcommand
      · exact .move expected toVoters nowMs _ haccepted
      · exact .converge since voters membership nowMs _ haccepted

variable (more : List (MetaLogId × MetaEntry))

theorem replay_append : replay (log ++ more) = more.foldl step (replay log) := by
  simp [replay]

/-- Every key is the id of an entry of the run. -/
theorem key_mem_log (h : (replay log).key group = some since) : since ∈ log.map Prod.fst := by
  induction log using reverseRecOn generalizing since with
  | nil => cases h
  | append_singleton log entry ih =>
    obtain ⟨id, entry⟩ := entry
    rw [replay_append] at h
    rw [map_append, mem_append]
    cases hbefore : (replay log).key group with
    | some before =>
      obtain ⟨after, hafter, hcases⟩ := key_step hbefore id entry
      have hsame : after = since := Option.some_inj.mp (hafter.symm.trans h)
      subst hsame
      obtain rfl | ⟨rfl, -⟩ := hcases
      · exact .inl (ih hbefore)
      · exact .inr (by simp)
    | none =>
      -- the Bootstrap gives every group its own id
      obtain ⟨cluster, placement, hstep, hgroup, rfl⟩ := key_eq_some h
      right
      obtain ⟨registered, params, nodes, nowMs, -, -, rfl⟩ | ⟨cluster', hcluster', hcases⟩ :=
        step_eq_bootstrapped hstep
      · rw [group_bootstrap] at hgroup
        split_ifs at hgroup
        cases hgroup
        simp [GroupPlacement.since]
      · have hnone : cluster'.group group = none := by
          rw [hcluster'] at hbefore
          simpa [key, ControlPlaneState.cluster] using hbefore
        obtain rfl | ⟨command, change, -, hplan, rfl⟩ | ⟨cause, -, rfl⟩ := hcases
        · rw [hnone] at hgroup
          cases hgroup
        · obtain hsame | ⟨⟨placement', hplacement', hsince⟩, -⟩ :=
            group_commit (planned_of_plan hplan) id group
          · rw [hsame, hnone] at hgroup
            cases hgroup
          · rw [hgroup] at hplacement'
            cases hplacement'
            simp [hsince]
        · rw [group_rebase, hnone] at hgroup
          cases hgroup

/-- Along entries of increasing ids a key only grows. -/
theorem key_mono (h : state.key group = some since)
    (hsorted : (more.map Prod.fst).Pairwise (· < ·)) (habove : ∀ entry ∈ more, since < entry.1) :
    ∃ after, (more.foldl step state).key group = some after ∧ since ≤ after := by
  induction more generalizing state since with
  | nil => exact ⟨since, h, le_refl _⟩
  | cons entry rest ih =>
    obtain ⟨id, entry⟩ := entry
    obtain ⟨next, hnext, hcases⟩ := key_step h id entry
    rw [map_cons, pairwise_cons] at hsorted
    have hle : since ≤ next ∧ ∀ entry ∈ rest, next < entry.1 := by
      obtain rfl | ⟨rfl, -⟩ := hcases
      · exact ⟨le_refl _, fun entry hentry => habove entry (mem_cons_of_mem _ hentry)⟩
      · exact ⟨(habove _ (mem_cons_self ..)).le, fun entry hentry =>
          hsorted.1 entry.1 (mem_map_of_mem hentry)⟩
    obtain ⟨after, hafter, hafter_le⟩ := ih hnext hsorted.2 hle.2
    exact ⟨after, hafter, hle.1.trans hafter_le⟩

/-- A key that a group left never comes back. -/
theorem key_ne_of_left {log mid late : List (MetaLogId × MetaEntry)}
    {since left after : PlacementEpoch}
    (hsorted : ((log ++ mid ++ late).map Prod.fst).Pairwise (· < ·))
    (hsince : (replay log).key group = some since)
    (hleft : (replay (log ++ mid)).key group = some left) (hne : left ≠ since)
    (hafter : (replay (log ++ mid ++ late)).key group = some after) : after ≠ since := by
  rw [map_append, pairwise_append] at hsorted
  obtain ⟨hfirst, hlate, hbelow⟩ := hsorted
  rw [map_append, pairwise_append] at hfirst
  obtain ⟨-, hmid, hbelowMid⟩ := hfirst
  have hlt : since < left := by
    obtain ⟨next, hnext, hle⟩ := key_mono mid hsince hmid fun entry hentry =>
      hbelowMid _ (key_mem_log log hsince) _ (mem_map_of_mem hentry)
    rw [← replay_append, hleft] at hnext
    cases hnext
    exact lt_of_le_of_ne hle (Ne.symm hne)
  obtain ⟨next, hnext, hle⟩ := key_mono late hleft hlate fun entry hentry =>
    hbelow _ (key_mem_log _ hleft) _ (mem_map_of_mem hentry)
  rw [← replay_append, hafter] at hnext
  cases hnext
  exact (lt_of_lt_of_le hlt hle).ne'

/-- A command that names another key than the group's is refused. -/
theorem refused_of_key_ne {after since : PlacementEpoch}
    (h : state.key group = some after) (hne : after ≠ since) (log : MetaLogId) (voters : VoterSet)
    (membership : MembershipLogId) (nowMs : ℕ) :
    (∃ error, state.apply log (.requestMove group since voters nowMs) = (state, .error error)) ∧
      ∃ error, state.apply log (.reportConverged group since voters membership nowMs) =
        (state, .error error) := by
  obtain ⟨cluster, placement, rfl, hgroup, rfl⟩ := key_eq_some h
  have hrefused : ∀ {command : ControlCommand} {error : ControlError},
      cluster.plan command = .error error →
        ∃ error, (bootstrapped cluster).apply log command =
          (bootstrapped cluster, .error error) := fun {command error} hplan =>
    ⟨error, by simp only [apply, hplan]⟩
  have hexisting : cluster.existing group = .ok placement := by
    unfold existing
    rw [hgroup]
  constructor
  · have hplan : cluster.plan (.requestMove group since voters nowMs) =
        cluster.planMove group since voters nowMs := by
      simp [plan, ControlCommand.group, hgroup, planCommand]
    unfold planMove at hplan
    rw [hexisting] at hplan
    cases placement with
    | seeded => exact hrefused hplan
    | live key =>
      exact hrefused (hplan.trans (if_pos hne))
  · have hplan : cluster.plan (.reportConverged group since voters membership nowMs) =
        cluster.planConverge group since voters membership nowMs := by
      simp [plan, ControlCommand.group, hgroup, planCommand]
    unfold planConverge at hplan
    rw [hexisting] at hplan
    exact hrefused (hplan.trans (if_pos hne))

end ControlPlaneState

/-! ## Cancelling a move -/

namespace Cluster

variable {cluster : Cluster}

/-- A node of the placed voters that is in a life and owes no teardown may be a target. -/
theorem checkTarget_of_placed {group : RaftGroupId} {placedNow : VoterSet} {node : NodeId}
    (halive : cluster.Alive node) (hplaced : node ∈ placedNow)
    (hretirement : cluster.retirement group node = none) :
    cluster.checkTarget group placedNow node = .ok () := by
  obtain ⟨record, hrecord, hlife⟩ := halive
  have hknown : cluster.known node = .ok record := by
    unfold known
    rw [hrecord]
  unfold checkTarget
  rw [hknown]
  show (checkLife node record >>= _) = _
  rw [checkLife_eq_ok_iff.mpr hlife]
  rw [if_neg fun hineligible => hineligible.2 hplaced, hretirement]
  rfl

/-- A move in progress goes back to the voters it comes from, which all are in a life and owe the
group no teardown. -/
theorem Sound.plan_cancel (h : cluster.Sound) {group : RaftGroupId} {since : PlacementEpoch}
    {convergedAt : MembershipLogId} {moving : Move}
    (hgroup : cluster.group group = some (.live since convergedAt (.moving moving)))
    (hne : moving.toVoters ≠ moving.fromVoters) (nowMs : ℕ) :
    ∃ change, cluster.plan (.requestMove group since moving.fromVoters nowMs) = .ok change := by
  have hsized := h.sized group _ hgroup
  have hholder : ∀ node ∈ moving.fromVoters,
      node ∈ (GroupPlacement.live since convergedAt (.moving moving)).holders := fun node hnode =>
    GroupPlacement.currentVoters_subset_holders (.live since convergedAt (.moving moving)) hnode
  have htargets : moving.fromVoters.iter.forM (cluster.checkTarget group moving.fromVoters) =
      .ok () :=
    forM_eq_ok_iff.mpr fun node hnode =>
      checkTarget_of_placed
        (h.holders group _ hgroup node (hholder node (mem_iter.mp hnode)))
        (mem_iter.mp hnode)
        (h.toBase.retirement_holder hgroup (hholder node (mem_iter.mp hnode)))
  have hexisting : cluster.existing group = .ok (.live since convergedAt (.moving moving)) := by
    unfold existing
    rw [hgroup]
  have hlen : moving.fromVoters.len = moving.toVoters.len :=
    hsized.current.trans hsized.target.symm
  have hplan : cluster.plan (.requestMove group since moving.fromVoters nowMs) =
      cluster.planMove group since moving.fromVoters nowMs := by
    simp [plan, ControlCommand.group, hgroup, planCommand]
  rw [hplan, planMove, hexisting]
  show ∃ change, (if since ≠ since then _ else if moving.fromVoters.len ≠ moving.toVoters.len then _
    else moving.fromVoters.iter.forM (cluster.checkTarget group moving.fromVoters) >>= _) = _
  rw [if_neg (not_not.mpr rfl), if_neg (not_not.mpr hlen), htargets]
  simp only [moveFrom, if_neg hne.symm]
  exact ⟨_, rfl⟩

end Cluster

/-! ## All of it -/

open ControlPlaneState

/-- **The placement kernel's invariants.** In every bootstrapped state of a run: one placement for
each group; as many voters, all registered, as the replication factor on every side of a placement;
no abandoned voter; no retirement beside a role, and no empty retirement map; no role and no
retirement of a removed or vacant node; a role for every decommissioning node; no meta voter that is
decommissioning, removed or vacant. Every move to other voters can be cancelled at the group's key.
An entry moves a group's key only to its own id, and only as an accepted move or converge of the
group or as a history event, so under increasing log ids every move and every report that names a
key the group left is refused. -/
theorem placement_kernel_invariants (log : List (MetaLogId × MetaEntry)) (cluster : Cluster)
    (h : replay log = .bootstrapped cluster) :
    cluster.groups.keys = List.range cluster.params.groupCount ∧
    (∀ group placement, cluster.group group = some placement →
      placement.currentVoters.len = cluster.params.replicationFactor ∧
      placement.targetVoters.len = cluster.params.replicationFactor ∧
      (∀ node, node ∈ placement.currentVoters ∨ node ∈ placement.targetVoters →
        ∃ record, cluster.node node = some record) ∧
      ∀ moving, placement.moving = some moving →
        Disjoint moving.abandoned moving.fromVoters.nodes ∧
          Disjoint moving.abandoned moving.toVoters.nodes) ∧
    (∀ group node, (cluster.retirement group node).isSome → cluster.role group node = none) ∧
    (∀ group records, cluster.retirements.get? group = some records → records ≠ ∅) ∧
    (∀ node record, cluster.node node = some record →
      record.lifecycle = .removed ∨ record.lifecycle = .vacant →
        cluster.hasAnyRole node = false ∧ ∀ group, cluster.retirement group node = none) ∧
    (∀ node record, cluster.node node = some record → record.lifecycle = .decommissioning →
      cluster.hasAnyRole node = true) ∧
    (∀ node ∈ cluster.params.metaVoters, ∀ record, cluster.node node = some record →
      record.lifecycle ≠ .decommissioning ∧ record.lifecycle ≠ .removed ∧
        record.lifecycle ≠ .vacant) ∧
    (∀ group placement moving, cluster.group group = some placement →
      placement.moving = some moving → moving.toVoters ≠ moving.fromVoters → ∀ id nowMs,
        ∃ applied, ((replay log).apply id
          (.requestMove group placement.since moving.fromVoters nowMs)).2 = .ok applied) ∧
    (∀ group since, (replay log).key group = some since → ∀ id entry,
      ∃ after, (replay (log ++ [(id, entry)])).key group = some after ∧
        (after ≠ since → after = id ∧ MovesKey (replay log) id group entry)) ∧
    (∀ before mid, log = before ++ mid → ∀ group since left after,
      (replay before).key group = some since → (replay (before ++ mid)).key group = some left →
      left ≠ since → ∀ late, ((log ++ late).map Prod.fst).Pairwise (· < ·) →
      (replay (log ++ late)).key group = some after → ∀ id voters membership nowMs,
        (∃ error, (replay (log ++ late)).apply id (.requestMove group since voters nowMs) =
          (replay (log ++ late), .error error)) ∧
        ∃ error,
          (replay (log ++ late)).apply id (.reportConverged group since voters membership nowMs) =
            (replay (log ++ late), .error error)) := by
  have hsound := sound_replay log h
  have hlife : ∀ node record, cluster.node node = some record →
      record.lifecycle = .removed ∨ record.lifecycle = .vacant → ¬ cluster.Alive node := by
    rintro node record hrecord hstate ⟨own, hown, hlife⟩
    rw [hrecord] at hown
    cases hown
    rcases hstate with hstate | hstate <;> rw [hstate] at hlife <;> cases hlife
  refine ⟨?_, fun group placement hgroup => ?_, fun group node hretirement => ?_,
    fun group records hrecords => ?_, fun node record hrecord hstate => ⟨?_, fun group => ?_⟩,
    hsound.decommissioning, fun node hnode record hrecord => ?_,
    fun group placement moving hgroup hmoving hne id nowMs => ?_,
    fun group since hkey id entry => ?_, ?_⟩
  · refine cluster.groups.keys_sorted.eq_of_mem_iff pairwise_lt_range fun group => ?_
    rw [OrdMap.mem_keys, mem_range]
    exact hsound.groups group
  · have hsized := hsound.sized group placement hgroup
    refine ⟨hsized.current, hsized.target, fun node hnode => ?_, fun moving hmoving => ?_⟩
    · have hholder : node ∈ placement.holders := by
        obtain hcurrent | htarget := hnode
        · exact placement.currentVoters_subset_holders hcurrent
        · exact placement.targetVoters_subset_holders htarget
      obtain ⟨record, hrecord, -⟩ := hsound.holders group placement hgroup node hholder
      exact ⟨record, hrecord⟩
    · exact ⟨Finset.disjoint_left.mpr fun node hnode =>
        (hsized.abandoned moving hmoving node hnode).1,
        Finset.disjoint_left.mpr fun node hnode => (hsized.abandoned moving hmoving node hnode).2⟩
  · obtain ⟨retirement, hretirement⟩ := Option.isSome_iff_exists.mp hretirement
    by_contra hrole
    obtain ⟨placement, hgroup, hnode⟩ :=
      role_isSome_iff.mp (Option.isSome_iff_ne_none.mpr hrole)
    exact (hsound.retired group node retirement hretirement).2 placement hgroup hnode
  · rintro rfl
    exact absurd (hsound.records group ∅ hrecords) (by decide)
  · rw [Bool.eq_false_iff]
    intro hrole
    obtain ⟨group, placement, hgroup, hnode⟩ := hasAnyRole_iff.mp hrole
    exact hlife node record hrecord hstate (hsound.holders group placement hgroup node hnode)
  · cases hretirement : cluster.retirement group node with
    | none => rfl
    | some retirement =>
      exact absurd (hsound.retired group node retirement hretirement).1
        (hlife node record hrecord hstate)
  · obtain ⟨own, hown, hstate⟩ := hsound.metaVoters node hnode
    rw [hrecord] at hown
    cases hown
    obtain hstate | hstate := hstate <;> simp [hstate]
  · rcases placement with ⟨since, voters, init⟩ | ⟨since, convergedAt, voters | own⟩
    · cases hmoving
    · cases hmoving
    cases hmoving
    obtain ⟨change, hplan⟩ := hsound.plan_cancel hgroup hne nowMs
    refine ⟨(cluster.commit id change).2, ?_⟩
    simp only [h, ControlPlaneState.apply]
    rw [show (GroupPlacement.live since convergedAt (.moving moving)).since = since from rfl, hplan]
  · obtain ⟨after, hafter, hcases⟩ := key_step hkey id entry
    refine ⟨after, by rwa [replay_append], fun hne => ?_⟩
    obtain hsame | hmoved := hcases
    · exact absurd hsame hne
    · exact hmoved
  · rintro before mid rfl group since left after hsince hleft hne late hsorted hafter id voters
      membership nowMs
    exact refused_of_key_ne hafter (key_ne_of_left hsorted hsince hleft hne hafter) id voters
      membership nowMs

/-! ## A move in progress -/

/-- Four nodes register, one group is seeded on three of them, forms and moves to the fourth. -/
def sampleMoveLog : List (MetaLogId × MetaEntry) :=
  let voters : NodeId → NodeId → NodeId → VoterSet := fun a b c => .fromFirst a {b, c}
  [(⟨1, 1, 1⟩, .history .genesis),
    (⟨1, 1, 2⟩, .command (.registerNode 1 21 true 0)),
    (⟨1, 1, 3⟩, .command (.registerNode 2 22 true 0)),
    (⟨1, 1, 4⟩, .command (.registerNode 3 23 true 0)),
    (⟨1, 1, 5⟩, .command (.registerNode 4 24 true 0)),
    (⟨1, 1, 6⟩, .command (.bootstrap
      { groupCount := 1, replicationFactor := 3, metaVoters := .single 1, maxConcurrentMoves := 1 }
      (.fromFirst 1 {2, 3, 4}) 0)),
    (⟨1, 1, 7⟩, .command (.reportConverged 0 ⟨1, 1, 6⟩ (voters 1 2 3) ⟨1, 1, 1⟩ 0)),
    (⟨1, 1, 8⟩, .command (.requestMove 0 ⟨1, 1, 7⟩ (voters 1 2 4) 0))]

/-- The cluster of a state, or one without groups and nodes. -/
def ControlPlaneState.clusterD (state : ControlPlaneState) : Cluster :=
  state.cluster.getD
    { params :=
        { groupCount := 1
          replicationFactor := 1
          metaVoters := .single 1
          maxConcurrentMoves := 0 }
      nodes := ∅
      groups := ∅
      retirements := ∅ }

/-- The invariants apply to a state with a move in progress, which can be cancelled. -/
theorem sampleMove_can_be_cancelled :
    (replay sampleMoveLog).clusterD.moving = 1 ∧
      ∃ applied, ((replay sampleMoveLog).apply ⟨1, 1, 9⟩
        (.requestMove 0 ⟨1, 1, 8⟩ (.fromFirst 1 {2, 3}) 0)).2 = .ok applied := by
  have hinvariants := placement_kernel_invariants sampleMoveLog
    (replay sampleMoveLog).clusterD (by decide +kernel)
  refine ⟨by decide +kernel, ?_⟩
  exact hinvariants.2.2.2.2.2.2.2.1 0
    (.live ⟨1, 1, 8⟩ ⟨1, 1, 1⟩ (.moving
      { fromVoters := .fromFirst 1 {2, 3}
        toVoters := .fromFirst 1 {2, 4}
        abandoned := ∅
        sinceMs := 0 }))
    _ (by decide +kernel) rfl (by decide +kernel) ⟨1, 1, 9⟩ 0

end Ursula.Control

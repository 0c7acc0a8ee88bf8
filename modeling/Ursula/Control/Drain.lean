import Ursula.Control.Decommission
import Ursula.Lib.Transition

/-!
# Decommission plans apply and drain

The meta leader plans on one state, but the kernel applies the planned moves one after another, each
to the state the moves before it left. A move changes one group's placement and nothing else that
the kernel checks, so each later move of the plan finds its own group, the nodes and the retirements
as they were planned on, and one slot fewer. Every move takes one leaving voter out of a group's
target, and a report of a converged move changes no target, so rounds of planning, moving and
reporting come to an end.

## Main definitions

* `kernel`: the control plane as a state machine that answers commands
* `Submission`, `Report`, `DrainRound`: the commands of a round
* `Cluster.toLeave`: how many leaving voters the groups' targets have

## Main results

* `Submitted.request`, `pending_report`: what one accepted move and one accepted report do
* `decommission_plans_apply_and_drain`: plans are accepted, and rounds end with blocked groups only
-/

namespace Ursula.Control

open Cluster List ControlPlaneState

/-! ## The commands of a round -/

/-- The control plane as a state machine: each command arrives as a meta entry. -/
def kernel : Responder ControlPlaneState (MetaLogId × ControlCommand) ControlResponse :=
  fun state input => state.apply input.1 input.2

/-- A planned move, the entry that submits it and its clock. -/
structure Submission where
  planned : DecommissionMove
  log : MetaLogId
  nowMs : ℕ

/-- The command a submission sends, at its log id. -/
def Submission.request (submission : Submission) : MetaLogId × ControlCommand :=
  (submission.log, .requestMove submission.planned.group submission.planned.expected
    submission.planned.toVoters submission.nowMs)

/-- A report that a submitted move converged on its target. -/
structure Report where
  submission : Submission
  log : MetaLogId
  membership : MembershipLogId
  nowMs : ℕ

/-- The command of a report: it names the key that the accepted move gave the group. -/
def Report.command (report : Report) : MetaLogId × ControlCommand :=
  (report.log, .reportConverged report.submission.planned.group report.submission.log
    report.submission.planned.toVoters report.membership report.nowMs)

/-- One round: a plan's moves are submitted in order, and each is reported converged, in any
order. -/
inductive DrainRound (eligibility : OrdMap NodeId NodeEligibility) (before after : Cluster) : Prop
  | mk (submissions : List Submission) (reports : List Report)
      (planned : submissions.map Submission.planned = (planDecommission before eligibility).moves)
      (reported : (reports.map Report.submission).Perm submissions)
      (ran : (kernel.run (.bootstrapped before)
        (submissions.map Submission.request ++ reports.map Report.command)).1 = .bootstrapped after)

/-- How many leaving voters the targets of all groups have. -/
def Cluster.toLeave (cluster : Cluster) : ℕ :=
  OrdMap.total (fun _ placement =>
    (placement.targetVoters.nodes.filter fun node => node ∈ cluster.leavingNodes).card)
    cluster.groups

namespace Cluster

variable {cluster : Cluster}

theorem moving_eq_total (cluster : Cluster) :
    cluster.moving =
      OrdMap.total (fun _ placement => if placement.moving.isSome then 1 else 0)
        cluster.groups := by
  rw [moving, OrdMap.values, filter_map, length_map]
  exact OrdMap.length_filter_entries (fun _ placement => placement.moving.isSome) cluster.groups

/-- The kernel's target check reads only the nodes and the retirements. -/
theorem checkTarget_congr {now : Cluster} (hnodes : now.nodes = cluster.nodes)
    (hretirements : now.retirements = cluster.retirements) (group : RaftGroupId)
    (placedNow : VoterSet) (node : NodeId) :
    now.checkTarget group placedNow node = cluster.checkTarget group placedNow node := by
  obtain ⟨params, nodes, groups, retirements⟩ := now
  subst hnodes hretirements
  rfl

variable {eligibility : OrdMap NodeId NodeEligibility} {earlier : List DecommissionMove}

variable {convergedAt : MembershipLogId} {voters : VoterSet}

/-- Every voter of a drained group's target passes the kernel's check. -/
theorem Drains.checkTarget (hsound : cluster.Sound) {planned : DecommissionMove}
    {leaving target : NodeId}
    (h : cluster.Drains eligibility earlier planned convergedAt voters leaving target)
    {node : NodeId} (hnode : node ∈ planned.toVoters) :
    cluster.checkTarget planned.group voters node = .ok () := by
  rw [← NonEmptyNodeSet.mem_nodes, h.toVoters, Finset.mem_insert] at hnode
  rcases hnode with rfl | hstays
  · exact (checkTarget_iff_candidate h.candidate.outside).mpr h.candidate
  · have hvoter : node ∈ voters := Finset.mem_of_mem_erase hstays
    exact checkTarget_of_placed (hsound.holders _ _ h.stable node hvoter) hvoter
      (hsound.toBase.retirement_holder h.stable hvoter)

theorem Drains.len {planned : DecommissionMove} {leaving target : NodeId}
    (h : cluster.Drains eligibility earlier planned convergedAt voters leaving target) :
    planned.toVoters.len = voters.len := by
  have hnew : target ∉ voters.nodes.erase leaving := fun hmem =>
    h.candidate.outside (Finset.mem_of_mem_erase hmem)
  rw [NonEmptyNodeSet.len, h.toVoters, Finset.card_insert_of_notMem hnew,
    Finset.card_erase_add_one h.leaves.1.1, NonEmptyNodeSet.len]

end Cluster

/-! ## Submitting a plan -/

/-- The group of a submission moves to its target, at the key of its entry. -/
def Submission.Pending (submission : Submission) (now : Cluster) : Prop :=
  ∃ convergedAt moving, now.group submission.planned.group =
      some (.live submission.log convergedAt (.moving moving)) ∧
    moving.toVoters = submission.planned.toVoters

/-- The cluster after the moves `done` of a plan on `cluster` were accepted. -/
structure Submitted (cluster : Cluster) (done : List Submission) (now : Cluster) : Prop where
  params : now.params = cluster.params
  nodes : now.nodes = cluster.nodes
  retirements : now.retirements = cluster.retirements
  groups : ∀ group, (∀ submission ∈ done, submission.planned.group ≠ group) →
    now.group group = cluster.group group
  moving : now.moving = cluster.moving + done.length
  pending : ∀ submission ∈ done, submission.Pending now
  toLeave : now.toLeave + done.length = cluster.toLeave

namespace Submitted

variable {cluster now : Cluster} {done : List Submission}

theorem nil (cluster : Cluster) : Submitted cluster [] cluster where
  params := rfl
  nodes := rfl
  retirements := rfl
  groups _ _ := rfl
  moving := rfl
  pending := by simp
  toLeave := rfl

theorem request (hsound : cluster.Sound) (h : Submitted cluster done now) {submission : Submission}
    {leaving target : NodeId}
    (hdrains : cluster.Drains eligibility earlier submission.planned convergedAt
      voters leaving target)
    (hnew : ∀ other ∈ done, other.planned.group ≠ submission.planned.group)
    (hslot : cluster.moving + done.length < cluster.params.maxConcurrentMoves) :
    ∃ next, kernel (.bootstrapped now) submission.request =
        (.bootstrapped next, .ok (.moveAccepted submission.log)) ∧
      Submitted cluster (done ++ [submission]) next := by
  obtain ⟨planned, log, nowMs⟩ := submission
  have hgroup : now.group planned.group =
      some (.live planned.expected convergedAt (.stable voters)) :=
    (h.groups planned.group hnew).trans hdrains.stable
  let moved : Move := ⟨voters, planned.toVoters, ∅, nowMs⟩
  let next := now.setGroup planned.group (.live log convergedAt (.moving moved))
  have htargets : planned.toVoters.iter.forM (now.checkTarget planned.group voters) = .ok () :=
    Checks.forM_eq_ok_iff.mpr fun node hnode => by
      rw [checkTarget_congr h.nodes h.retirements]
      exact hdrains.checkTarget hsound (NonEmptyNodeSet.mem_iter.mp hnode)
  have hother : planned.toVoters ≠ voters := fun heq => hdrains.candidate.outside (by
    rw [← heq, ← NonEmptyNodeSet.mem_nodes, hdrains.toVoters]
    exact Finset.mem_insert_self ..)
  have hlimit : ¬ now.params.maxConcurrentMoves ≤ now.moving := by
    rw [h.params, h.moving]
    omega
  have hplan : now.plan (.requestMove planned.group planned.expected planned.toVoters nowMs) =
      .ok (.move planned.group convergedAt moved) := by
    simp only [plan, ControlCommand.group, hgroup, Option.isNone_some, Bool.false_eq_true,
      if_false, planCommand, planMove, existing, bind, Except.bind, ne_eq,
      not_true, GroupPlacement.targetVoters, GroupPlacement.currentVoters, hdrains.len, htargets,
      moveFrom, hother, hlimit]
    rfl
  refine ⟨next, ?_, ?_⟩
  · simp only [kernel, Submission.request, apply, hplan]
    rfl
  have hkey : ∀ group, next.group group = if group = planned.group then
      some (.live log convergedAt (.moving moved)) else now.group group :=
    fun group => group_setGroup planned.group group _
  refine ⟨h.params, h.nodes, h.retirements, fun group hgroups => ?_, ?_, ?_, ?_⟩
  · rw [hkey, if_neg]
    · exact h.groups group fun other hmem => hgroups other (mem_append_left _ hmem)
    · exact (hgroups _ (mem_append_right _ (mem_singleton_self _))).symm
  · have hcount : next.moving + 0 = 1 + now.moving := by
      rw [moving_eq_total, moving_eq_total]
      exact OrdMap.total_insert_of_some hgroup
    rw [h.moving] at hcount
    rw [length_append, length_singleton]
    omega
  · intro other hmem
    rcases mem_append.mp hmem with hold | hnewest
    · obtain ⟨at_, moving, hother, hto⟩ := h.pending other hold
      exact ⟨at_, moving, by rw [hkey, if_neg (hnew other hold), hother], hto⟩
    · rw [mem_singleton.mp hnewest]
      exact ⟨convergedAt, moved, by rw [hkey, if_pos rfl], rfl⟩
  · have hleaves : leaving ∈ cluster.leavingNodes :=
      mem_leavingNodes.mpr hdrains.leaves.1.2
    have hstays : target ∉ cluster.leavingNodes := fun hmem => by
      obtain ⟨record, hrecord, hactive⟩ := hdrains.candidate.active
      obtain ⟨record', hrecord', hleaving⟩ := mem_leavingNodes.mp hmem
      rw [hrecord] at hrecord'
      cases hrecord'
      rw [hactive] at hleaving
      cases hleaving
    have hleavers : now.leavingNodes = cluster.leavingNodes := by
      rw [leavingNodes, leavingNodes, h.nodes]
    have hcard : (planned.toVoters.nodes.filter fun node => node ∈ cluster.leavingNodes).card + 1 =
        (voters.nodes.filter fun node => node ∈ cluster.leavingNodes).card := by
      rw [hdrains.toVoters, Finset.filter_insert, if_neg hstays, Finset.filter_erase]
      exact Finset.card_erase_add_one (Finset.mem_filter.mpr ⟨hdrains.leaves.1.1, hleaves⟩)
    have htotal : next.toLeave +
        (voters.nodes.filter fun node => node ∈ now.leavingNodes).card =
          (planned.toVoters.nodes.filter fun node => node ∈ now.leavingNodes).card + now.toLeave :=
      OrdMap.total_insert_of_some hgroup
    have hbefore := h.toLeave
    rw [hleavers] at htotal
    rw [length_append, length_singleton]
    omega

theorem requests (hsound : cluster.Sound)
    (later : List Submission) (h : Submitted cluster done now)
    (hmoves : (done ++ later).map Submission.planned =
      (planDecommission cluster eligibility).moves) :
    ∃ next, kernel.run (.bootstrapped now) (later.map Submission.request) =
        (.bootstrapped next, later.map fun submission => .ok (.moveAccepted submission.log)) ∧
      Submitted cluster (done ++ later) next := by
  induction later generalizing done now with
  | nil => exact ⟨now, rfl, by rwa [append_nil]⟩
  | cons submission later ih =>
    have hplanned := planned_planDecommission cluster eligibility
    rw [map_append, map_cons] at hmoves
    obtain ⟨convergedAt, voters, leaving, target, hdrains⟩ := hplanned.drains _ _ _ hmoves.symm
    have hnew : ∀ other ∈ done, other.planned.group ≠ submission.planned.group := by
      intro other hother
      have hdistinct := hplanned.distinct
      rw [← hmoves, map_append, nodup_append] at hdistinct
      exact hdistinct.2.2 _ (mem_map_of_mem (mem_map_of_mem hother)) _ (mem_cons_self ..)
    have hslot : cluster.moving + done.length < cluster.params.maxConcurrentMoves := by
      have hslots := hplanned.slots
      rw [← hmoves, length_append, length_cons, length_map, freeSlots] at hslots
      split_ifs at hslots <;> omega
    obtain ⟨next, hanswer, hnext⟩ := h.request hsound hdrains hnew hslot
    obtain ⟨last, hrun, hlast⟩ := ih hnext (by rw [← hmoves]; simp)
    refine ⟨last, ?_, by simpa using hlast⟩
    rw [map_cons, Responder.run, hanswer, hrun]
    rfl

end Submitted

/-! ## Reporting -/

theorem Cluster.toLeave_congr {before after : Cluster}
    (hgroups : ∀ group, after.group group = before.group group)
    (hleaving : ∀ group placement node, before.group group = some placement →
      node ∈ placement.targetVoters → (after.Leaving node ↔ before.Leaving node)) :
    after.toLeave = before.toLeave := by
  rw [toLeave, OrdMap.ext_get? hgroups, toLeave]
  refine OrdMap.total_congr fun group placement hgroup => ?_
  congr 1
  refine Finset.filter_congr fun node hnode => ?_
  rw [mem_leavingNodes, mem_leavingNodes]
  exact hleaving group placement node hgroup hnode

/-- A report of a pending move is accepted: its group settles, every other group stays as it is, and
no target loses or gains a leaving voter. -/
theorem pending_report {now : Cluster} {report : Report} (h : report.submission.Pending now) :
    ∃ next retired removed, kernel (.bootstrapped now) report.command =
        (.bootstrapped next, .ok (.converged report.log retired removed)) ∧
      next.params = now.params ∧ next.moving + 1 = now.moving ∧ next.toLeave = now.toLeave ∧
      ∀ group, group ≠ report.submission.planned.group → next.group group = now.group group := by
  obtain ⟨⟨planned, since, _⟩, log, membership, nowMs⟩ := report
  obtain ⟨convergedAt, moving, hgroup, hto⟩ := h
  dsimp only at hgroup hto
  let retired : Finset NodeId :=
    (moving.fromVoters.nodes ∪ moving.abandoned).filter fun node => node ∉ planned.toVoters
  let stable := now.setGroup planned.group (.live log membership (.stable planned.toVoters))
  let swept := (stable.retire planned.group retired log).removeRolelessDecommissioning nowMs
  have hplan : now.plan (.reportConverged planned.group since planned.toVoters membership nowMs) =
      .ok (.converge planned.group membership planned.toVoters retired nowMs) := by
    simp only [plan, ControlCommand.group, hgroup, Option.isNone_some, Bool.false_eq_true,
      if_false, planCommand, planConverge, existing, bind, Except.bind, ne_eq,
      not_true, GroupPlacement.since, retiredBy, hto]
    rfl
  have hgroups : ∀ group, swept.1.group group = stable.group group := fun group => by
    rw [group_sweep, group_retire]
  refine ⟨swept.1, retired \ swept.2, swept.2, ?_, ?_, ?_, ?_, fun group hne => ?_⟩
  · simp only [kernel, Report.command, apply, hplan]
    rfl
  · rw [params_sweep, params_retire]
    rfl
  · have hcount : stable.moving + 1 = 0 + now.moving := by
      rw [moving_eq_total, moving_eq_total]
      exact OrdMap.total_insert_of_some hgroup
    have hsame : swept.1.moving = stable.moving := by
      rw [Cluster.moving, OrdMap.ext_get? hgroups, Cluster.moving]
    omega
  · have hstable : stable.toLeave = now.toLeave := by
      have htotal : stable.toLeave +
          (moving.toVoters.nodes.filter fun node => node ∈ now.leavingNodes).card =
          (planned.toVoters.nodes.filter fun node => node ∈ now.leavingNodes).card +
            now.toLeave := OrdMap.total_insert_of_some hgroup
      rw [hto] at htotal
      omega
    rw [← hstable]
    refine toLeave_congr hgroups fun group placement node hplacement hnode => ?_
    -- a voter has a role, so the report does not remove it
    have hrole : node ∉ (stable.retire planned.group retired log).roleless :=
      notMem_roleless_of_holder (by rwa [group_retire])
        (GroupPlacement.targetVoters_subset_holders placement hnode)
    have hrecord : swept.1.node node = stable.node node := by
      rw [node_sweep, node_retire]
      simp [hrole]
    rw [Cluster.Leaving, hrecord, Cluster.Leaving]
  · rw [hgroups, group_setGroup, if_neg hne]

/-- The reports of a round are accepted, in any order. -/
theorem pending_reports (reports : List Report) {now : Cluster}
    (hdistinct : (reports.map fun report => report.submission.planned.group).Nodup)
    (hpending : ∀ report ∈ reports, report.submission.Pending now) :
    ∃ next answers, kernel.run (.bootstrapped now) (reports.map Report.command) =
        (.bootstrapped next, answers) ∧ (∀ answer ∈ answers, ∃ applied, answer = .ok applied) ∧
      next.params = now.params ∧ next.moving + reports.length = now.moving ∧
      next.toLeave = now.toLeave := by
  induction reports generalizing now with
  | nil => exact ⟨now, [], rfl, by simp, rfl, rfl, rfl⟩
  | cons report reports ih =>
    rw [map_cons, nodup_cons] at hdistinct
    obtain ⟨next, retired, removed, hanswer, hparams, hmoving, htoLeave, hgroups⟩ :=
      pending_report (hpending report (mem_cons_self ..))
    obtain ⟨last, answers, hrun, haccepted, hparams', hmoving', htoLeave'⟩ := ih hdistinct.2
      fun other hother => by
        obtain ⟨convergedAt, moving, hgroup, hto⟩ := hpending other (mem_cons_of_mem _ hother)
        refine ⟨convergedAt, moving, (hgroups _ fun hsame => hdistinct.1 ?_).trans hgroup, hto⟩
        exact hsame ▸ mem_map_of_mem (f := fun report => report.submission.planned.group) hother
    refine ⟨last, .ok (.converged report.log retired removed) :: answers, ?_, ?_,
      hparams'.trans hparams, ?_, htoLeave'.trans htoLeave⟩
    · rw [map_cons, Responder.run, hanswer, hrun]
    · intro answer hanswer
      rcases mem_cons.mp hanswer with rfl | hmem
      · exact ⟨_, rfl⟩
      · exact haccepted answer hmem
    · rw [length_cons]
      omega

/-! ## Rounds -/

theorem sound_run {cluster : Cluster} (hsound : cluster.Sound)
    (inputs : List (MetaLogId × ControlCommand)) {after : Cluster}
    (h : (kernel.run (.bootstrapped cluster) inputs).1 = .bootstrapped after) : after.Sound := by
  induction inputs generalizing cluster with
  | nil =>
    cases h
    exact hsound
  | cons input inputs ih =>
    rw [Responder.run] at h
    cases hnext : (kernel (.bootstrapped cluster) input).1 with
    | bootstrapped next =>
      rw [hnext] at h
      have hstep : step (.bootstrapped cluster) (input.1, .command input.2) =
          .bootstrapped next := hnext
      refine ih (sound_step ?_ hstep) h
      rintro before ⟨⟩
      exact hsound
    | forming registered | formationCut =>
      simp only [kernel, apply] at hnext
      split at hnext <;> cases hnext

/-- What a round does: every command is accepted, no move is left, and one leaving voter less is
among the targets for every planned move. -/
theorem drain_round {cluster : Cluster} (hsound : cluster.Sound) {submissions : List Submission}
    {reports : List Report}
    (hplanned : submissions.map Submission.planned = (planDecommission cluster eligibility).moves)
    (hreported : (reports.map Report.submission).Perm submissions) :
    ∃ after answers, kernel.run (.bootstrapped cluster)
        (submissions.map Submission.request ++ reports.map Report.command) =
          (.bootstrapped after, answers) ∧
      (∀ answer ∈ answers, ∃ applied, answer = .ok applied) ∧ after.params = cluster.params ∧
      after.moving = cluster.moving ∧
      after.toLeave + (planDecommission cluster eligibility).moves.length = cluster.toLeave := by
  obtain ⟨now, hrequests, hsubmitted⟩ :=
    Submitted.requests hsound submissions (.nil cluster) hplanned
  rw [nil_append] at hsubmitted
  have hdistinct : (reports.map fun report => report.submission.planned.group).Nodup := by
    have hperm := (hreported.map Submission.planned).map DecommissionMove.group
    rw [hplanned, map_map, map_map] at hperm
    exact hperm.nodup_iff.mpr (planned_planDecommission cluster eligibility).distinct
  have hpending : ∀ report ∈ reports, report.submission.Pending now := fun report hreport =>
    hsubmitted.pending _ (hreported.mem_iff.mp (mem_map_of_mem hreport))
  obtain ⟨after, answers, hreports, haccepted, hparams, hmoving, htoLeave⟩ :=
    pending_reports reports hdistinct hpending
  have hlength : reports.length = submissions.length := by
    rw [← hreported.length_eq, length_map]
  have hrun : kernel.run (.bootstrapped cluster)
      (submissions.map Submission.request ++ reports.map Report.command) = (.bootstrapped after,
        (submissions.map fun submission => .ok (.moveAccepted submission.log)) ++ answers) := by
    rw [Responder.run_append, hrequests]
    rw [hreports]
  refine ⟨after, _, hrun, ?_, hparams.trans hsubmitted.params, ?_, ?_⟩
  · intro answer hanswer
    rcases mem_append.mp hanswer with hmove | hreport
    · obtain ⟨submission, -, rfl⟩ := mem_map.mp hmove
      exact ⟨_, rfl⟩
    · exact haccepted answer hreport
  · have hnow := hsubmitted.moving
    omega
  · have hnow := hsubmitted.toLeave
    rw [← hplanned, length_map]
    omega

/-- With a slot and without a move in progress, a plan without moves blocks every group that a
leaving node has a role in. -/
theorem blocked_of_no_moves {cluster : Cluster}
    (hmoving : cluster.moving = 0) (hlimit : 0 < cluster.params.maxConcurrentMoves)
    (hmoves : (planDecommission cluster eligibility).moves = []) {group : RaftGroupId}
    {placement : GroupPlacement} {node : NodeId} (hgroup : cluster.group group = some placement)
    (hrole : (placement.role node).isSome) (hleaving : cluster.Leaving node) :
    ∃ blocked ∈ (planDecommission cluster eligibility).blocked, blocked.group = group := by
  have hstays : placement.moving = none := by
    rw [moving_eq_total] at hmoving
    have hle := OrdMap.le_total (f := fun _ placement => if placement.moving.isSome then 1 else 0)
      hgroup
    rw [hmoving] at hle
    cases hplacement : placement.moving with
    | none => rfl
    | some moving => simp [hplacement] at hle
  have hcomplete := (planned_planDecommission cluster eligibility).complete group placement node
    hgroup hstays hrole hleaving
  rw [hmoves] at hcomplete
  rcases hcomplete with ⟨planned, hmem, -⟩ | hblocked | hcut
  · cases hmem
  · exact hblocked
  · rw [length_nil, hmoving, freeSlots] at hcut
    split_ifs at hcut <;> omega

/-- Decommission plans on a reachable state. A plan replaces only the smallest leaving voter of each
stable group it moves, by the eligible candidate with the fewest roles; it blocks only groups whose
reason holds; it has at most as many moves as there are free slots, and what it neither moves nor
blocks the slots cut. The kernel accepts all of its moves, in order. Rounds of planning, moving and
reporting, all of whose commands the kernel accepts, come to a plan without moves when no other move
is in progress and the move limit is not zero, and every leaving node then has roles only in groups
that plan blocks. -/
theorem decommission_plans_apply_and_drain (log : List (MetaLogId × MetaEntry)) (cluster : Cluster)
    (hreachable : ControlPlaneState.replay log = .bootstrapped cluster)
    (eligibility : OrdMap NodeId NodeEligibility) :
    (planDecommission cluster eligibility).Planned cluster eligibility ∧
      (∀ submissions : List Submission,
        submissions.map Submission.planned = (planDecommission cluster eligibility).moves →
        (kernel.run (.bootstrapped cluster) (submissions.map Submission.request)).2 =
          submissions.map fun submission => .ok (.moveAccepted submission.log)) ∧
      (∀ (submissions : List Submission) (reports : List Report),
        submissions.map Submission.planned = (planDecommission cluster eligibility).moves →
        (reports.map Report.submission).Perm submissions →
        ∃ after answers, kernel.run (.bootstrapped cluster)
            (submissions.map Submission.request ++ reports.map Report.command) =
              (.bootstrapped after, answers) ∧
          ∀ answer ∈ answers, ∃ applied, answer = .ok applied) ∧
      (cluster.moving = 0 → 0 < cluster.params.maxConcurrentMoves →
        ∀ run : ℕ → Cluster, run 0 = cluster →
          (∀ i, DrainRound eligibility (run i) (run (i + 1))) →
          ∃ k ≤ cluster.toLeave, (planDecommission (run k) eligibility).moves = [] ∧
            ∀ node, (run k).Leaving node → ∀ group placement,
              (run k).group group = some placement → (placement.role node).isSome →
              ∃ blocked ∈ (planDecommission (run k) eligibility).blocked,
                blocked.group = group) := by
  have hsound := sound_replay log hreachable
  refine ⟨planned_planDecommission cluster eligibility, ?_, ?_, ?_⟩
  · intro submissions hplanned
    obtain ⟨now, hrun, -⟩ :=
      Submitted.requests hsound submissions (.nil cluster) hplanned
    rw [hrun]
  · intro submissions reports hplanned hreported
    obtain ⟨after, answers, hrun, haccepted, -⟩ := drain_round hsound hplanned hreported
    exact ⟨after, answers, hrun, haccepted⟩
  · intro hmoving hlimit run hstart hrounds
    have hround : ∀ i, (run i).Sound → (run (i + 1)).Sound ∧ (run (i + 1)).params = (run i).params ∧
        (run (i + 1)).moving = (run i).moving ∧ (run (i + 1)).toLeave +
          (planDecommission (run i) eligibility).moves.length = (run i).toLeave := by
      intro i hsound
      obtain ⟨submissions, reports, hplanned, hreported, hran⟩ := hrounds i
      obtain ⟨after, answers, hrun, -, hrest⟩ := drain_round hsound hplanned hreported
      refine ⟨sound_run hsound _ hran, ?_⟩
      rw [hrun] at hran
      cases hran
      exact hrest
    have hkept : ∀ i, (run i).Sound ∧ (run i).params = cluster.params ∧ (run i).moving = 0 := by
      intro i
      induction i with
      | zero => exact ⟨hstart ▸ hsound, by rw [hstart], by rw [hstart, hmoving]⟩
      | succ i ih =>
        obtain ⟨hnext, hparams, hmoving', -⟩ := hround i ih.1
        exact ⟨hnext, hparams.trans ih.2.1, hmoving'.trans ih.2.2⟩
    obtain ⟨k, hk, hdone, -⟩ := Nat.exists_first_of_decreasing (fun i => (run i).toLeave)
      (fun i => (planDecommission (run i) eligibility).moves = []) fun i hmoves => by
        have hless := (hround i (hkept i).1).2.2.2
        have hpos := length_pos_of_ne_nil hmoves
        omega
    refine ⟨k, hstart ▸ hk, hdone, fun node hleaving group placement hgroup hrole => ?_⟩
    exact blocked_of_no_moves (hkept k).2.2 (by rw [(hkept k).2.1]; exact hlimit) hdone hgroup hrole
      hleaving

/-! ### One leaving voter of three -/

/-- Three of four nodes form a group, and the third one leaves. -/
def sampleDrainLog : List (MetaLogId × MetaEntry) :=
  sampleMoveLog.take 7 ++ [(⟨1, 1, 8⟩, .command (.setNodeLifecycle 3 .decommission 0))]

/-- The fourth node may receive the group. -/
def sampleEligibility : OrdMap NodeId NodeEligibility :=
  (∅ : OrdMap NodeId NodeEligibility).insert 4 .eligible

/-- The move that takes the third node out of the group. -/
def sampleDrain : DecommissionMove := ⟨0, ⟨1, 1, 7⟩, .fromFirst 4 {1, 2}⟩

theorem sampleDrain_accepted :
    (planDecommission (ControlPlaneState.replay sampleDrainLog).clusterD sampleEligibility).moves =
        [sampleDrain] ∧
      (kernel.run (ControlPlaneState.replay sampleDrainLog)
        [(⟨1, 1, 9⟩, .requestMove 0 ⟨1, 1, 7⟩ (.fromFirst 4 {1, 2}) 0)]).2 =
          [.ok (.moveAccepted ⟨1, 1, 9⟩)] := by
  have hreplay : replay sampleDrainLog =
      .bootstrapped (replay sampleDrainLog).clusterD := by decide +kernel
  have hmoves : (planDecommission (replay sampleDrainLog).clusterD
      sampleEligibility).moves = [sampleDrain] := by decide +kernel
  have haccepted := (decommission_plans_apply_and_drain sampleDrainLog _ hreplay
    sampleEligibility).2.1 [⟨sampleDrain, ⟨1, 1, 9⟩, 0⟩] hmoves.symm
  exact ⟨hmoves, haccepted⟩

/-- At a move limit of zero no group moves, and the leaving voter's group is not blocked either. -/
theorem zero_limit_neither_moves_nor_blocks :
    let state := replay (sampleDrainLog ++ [(⟨1, 1, 9⟩, .command (.setMoveLimit 0))])
    state = .bootstrapped state.clusterD ∧ state.clusterD.moving = 0 ∧
      planDecommission state.clusterD sampleEligibility = ⟨[], []⟩ ∧
      state.clusterD.leavingNodes = [3] ∧
      (state.clusterD.group 0).map GroupPlacement.currentVoters = some (.fromFirst 1 {2, 3}) := by
  decide +kernel

end Ursula.Control

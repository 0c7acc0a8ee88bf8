import Ursula.Control.LeftMark
import Ursula.Control.Model

/-!
# What a node hosts

One decision says what a node runs: what its journal holds and what its placement gives it. It
starts to erase a replica only from a confirmed view that gives it no role, and the group then
decides the erasure: a teardown passes its first and its last step only on a live leader's answer
that the node is no member.

A plan goes over groups, and what it admits and starts for a group is the group's own rule, whatever
the groups around it. `planGroup_eq` states the rule as a function of the group, `planMember_eq`
says that the plan is the collection of the rules, and each law of a plan is then about one group.

## Main definitions

* `LocalReplica`, `HostingInput`: what the planner reads
* `planHosting`: the planner
* `Teardown.advance`, `Teardown.run`: a teardown, and its runs

## Main results

* `Teardown.heard_of_run`: what a run of a teardown heard
* `hosting_on_strong_evidence_only`: the laws of every plan and of every run of a teardown
-/

namespace Ursula.Control

open List

/-! ## Teardowns -/

/-- The steps of a teardown past its first answer. -/
inductive TeardownStep
  | fence
  | unregister
  | stop
  | awaitIdle
  | askAgain
  | retire
  | forgetMetrics
deriving DecidableEq

/-- A running teardown of one replica. -/
inductive Teardown
  | asking
  | running (step : TeardownStep)
deriving DecidableEq

/-- What the teardown executor observed. -/
inductive TeardownEvent
  /-- An ask ended: a live leader's classification of this node, or none answered. -/
  | answered (answer : Option MembershipAnswer)
  | stepDone
  | cancel
deriving DecidableEq

/-- How a teardown ended. -/
inductive TeardownEnd
  | retired
  | readmitted
  | cancelled
deriving DecidableEq

/-- Where a teardown went. -/
inductive TeardownOutcome
  | continues (teardown : Teardown)
  | ended (how : TeardownEnd)
deriving DecidableEq

namespace Teardown

/-- A teardown starts at its first ask. -/
def start : Teardown := .asking

/-- The teardown after an event. An event the current step does not wait for changes nothing. -/
def advance (teardown : Teardown) (event : TeardownEvent) : TeardownOutcome :=
  let notMember := event = .answered (some .notMember)
  match teardown, event with
  | .asking, .cancel => .ended .cancelled
  | .asking, .answered _ => if notMember then .continues (.running .fence) else .continues teardown
  | .running .askAgain, .answered _ =>
    if notMember then .continues (.running .retire) else .ended .readmitted
  | .running step, .stepDone =>
    match step with
    | .fence => .continues (.running .unregister)
    | .unregister => .continues (.running .stop)
    | .stop => .continues (.running .awaitIdle)
    | .awaitIdle => .continues (.running .askAgain)
    | .retire => .continues (.running .forgetMetrics)
    | .forgetMetrics => .ended .retired
    | .askAgain => .continues teardown
  | .asking, .stepDone => .continues teardown
  | .running _, .answered _ => .continues teardown
  | .running _, .cancel => .continues teardown

/-- A teardown fed a list of events, until it ends. -/
def run (teardown : Teardown) (events : List TeardownEvent) : TeardownOutcome :=
  events.foldl (fun outcome event =>
    match outcome with
    | .continues teardown => teardown.advance event
    | .ended how => .ended how) (.continues teardown)

end Teardown

/-! ## What the planner reads -/

/-- Whether the node knows itself removed, from a registration answer. -/
inductive Standing
  | member
  | removed
deriving DecidableEq

/-- The node's record when it is the record of the run on `root`. -/
def Cluster.ownRecord (cluster : Cluster) (node : NodeId) (root : RootId) : Option NodeRecord :=
  (cluster.node node).filter fun record => record.root.root = root

namespace Standing

/-- Whether the node, running on `root`, knows itself removed: its standing says so, or its own
record has no life. -/
def knowsRemoved (standing : Standing) (cluster : Option Cluster) (me : NodeId) (root : RootId) :
    Bool :=
  standing = .removed || (cluster.bind fun cluster => cluster.ownRecord me root).any fun record =>
    !record.lifecycle.hasLife

/-- The node's role in a group, read with this standing on `root`. -/
def placedRole (standing : Standing) (cluster : Cluster) (group : RaftGroupId) (me : NodeId)
    (root : RootId) : Option ReplicaRole :=
  if standing.knowsRemoved (some cluster) me root ∨ cluster.ownRecord me root = none then none
  else cluster.role group me

end Standing

/-- What the node's journal holds of a group. -/
inductive LocalLog
  /-- The group's core failed to open. -/
  | unknown
  | empty
  | holding
  | retired
deriving DecidableEq

/-- Whether the node holds a replica: every log but a retired one. -/
def LocalLog.isHeld : LocalLog → Bool
  | .unknown | .empty | .holding => true
  | .retired => false

/-- Whether a replica counts as a voter. -/
inductive Counts
  | voter
  | notVoter
deriving DecidableEq

/-- A group the node's journal names. -/
structure LocalReplica where
  log : LocalLog
  counts : Counts
  teardown : Option Teardown
deriving DecidableEq

open LocalReplica

/-- Whether the replica may be open: it is held and no teardown passed its first step. -/
def LocalReplica.admissible (replica : LocalReplica) : Bool :=
  replica.log.isHeld && !(replica.teardown.any fun teardown => teardown ≠ .asking)

/-- The placement view a plan reads, by the state it shows. -/
inductive ViewInput
  | unconfirmed (view : ControlPlaneState)
  | confirmed (view : ControlPlaneState)

/-- The view itself. -/
def ViewInput.view : ViewInput → ControlPlaneState
  | .unconfirmed view | .confirmed view => view

/-- One planning input of the hosting driver. -/
structure HostingInput where
  me : NodeId
  root : RootId
  standing : Standing
  view : ViewInput
  replicas : OrdMap RaftGroupId LocalReplica

/-! ## What the planner proposes -/

/-- How a replica may open. -/
inductive Admission
  | open
  | create
deriving DecidableEq

/-- Work the hosting driver starts. -/
inductive HostingStep
  | confirmView
  | tearDown (group : RaftGroupId)
  | cancelTeardown (group : RaftGroupId)
  | reportTornDown (group : RaftGroupId) (createdAt : MetaLogId)
deriving DecidableEq

/-- What a node runs and what it starts. -/
structure HostingPlan where
  admitted : OrdMap RaftGroupId Admission
  steps : List HostingStep
  unplaced : Finset RaftGroupId

namespace HostingPlan

/-- A plan without steps. -/
def empty : HostingPlan := ⟨∅, [], ∅⟩

/-- The plan with a replica admitted. -/
def admitReplica (plan : HostingPlan) (group : RaftGroupId) (admission : Admission) : HostingPlan :=
  { plan with admitted := plan.admitted.insert group admission }

/-- The plan with one more step. -/
def push (plan : HostingPlan) (step : HostingStep) : HostingPlan :=
  { plan with steps := plan.steps ++ [step] }

/-- The plan with a replica reported unplaced. -/
def unplace (plan : HostingPlan) (group : RaftGroupId) : HostingPlan :=
  { plan with unplaced := insert group plan.unplaced }

end HostingPlan

open HostingPlan

/-! ## The planner -/

/-- A removed node's plan of one replica. -/
def planRemovedReplica (plan : HostingPlan) (entry : RaftGroupId × LocalReplica) : HostingPlan :=
  let (group, replica) := entry
  let plan := if replica.admissible ∧ replica.counts = .voter then
      (plan.admitReplica group .open).unplace group
    else plan
  if replica.teardown = some .asking then plan.push (.cancelTeardown group) else plan

/-- A removed node's plan. -/
def planRemoved (replicas : OrdMap RaftGroupId LocalReplica) : HostingPlan :=
  replicas.entries.foldl planRemovedReplica .empty

/-- An admissible replica opens, and one without a role is reported unplaced. -/
def planHeldReplica (view : ControlPlaneState) (me : NodeId) (root : RootId) (plan : HostingPlan)
    (entry : RaftGroupId × LocalReplica) : HostingPlan :=
  let (group, replica) := entry
  let plan := if replica.admissible then plan.admitReplica group .open else plan
  match view.cluster with
  | some cluster =>
    if replica.log.isHeld ∧ Standing.member.placedRole cluster group me root = none then
      plan.unplace group
    else plan
  | none => plan

/-- Every admissible held replica opens, and nothing else is planned. -/
def planHeld (view : ControlPlaneState) (me : NodeId) (root : RootId)
    (replicas : OrdMap RaftGroupId LocalReplica) : HostingPlan :=
  replicas.entries.foldl (planHeldReplica view me root) .empty

/-- The rules for one group of a confirmed bootstrapped view. -/
def planGroup (cluster : Cluster) (me : NodeId) (group : RaftGroupId)
    (replica : Option LocalReplica) (plan : HostingPlan) : HostingPlan :=
  let held := replica.any fun replica => replica.log.isHeld
  let teardown := replica.bind LocalReplica.teardown
  let plan := if replica.any LocalReplica.admissible then plan.admitReplica group .open else plan
  match cluster.role group me with
  | none =>
    let plan := if held then plan.unplace group else plan
    match replica.map LocalReplica.log, teardown with
    | some .empty, none | some .holding, none => plan.push (.tearDown group)
    -- An unknown log is never torn down.
    | some .unknown, some .asking => plan.push (.cancelTeardown group)
    | none, none | some .retired, none =>
      match cluster.retirement group me with
      | some record => plan.push (.reportTornDown group record.createdAt)
      | none => plan
    | some _, some _ | none, some _ | some .unknown, none => plan
  | some role =>
    let plan := if teardown = some .asking then plan.push (.cancelTeardown group) else plan
    let creates := role = .voter ∨ role = .incoming
    if creates ∧ ¬ held ∧ teardown = none then plan.admitReplica group .create else plan

/-- The groups a member's plan goes over: those its journal names, those it has a role in, and those
it owes a teardown. -/
def hostedGroups (cluster : Cluster) (me : NodeId) (replicas : OrdMap RaftGroupId LocalReplica) :
    Finset RaftGroupId :=
  replicas.keys.toFinset ∪
    ((cluster.groups.entries.filter fun entry => (entry.2.role me).isSome).map Prod.fst).toFinset ∪
    ((cluster.retirements.entries.filter fun entry => entry.2.contains me).map Prod.fst).toFinset

/-- A member's plan from `view` taken as confirmed. -/
def planMember (me : NodeId) (root : RootId) (view : ControlPlaneState)
    (replicas : OrdMap RaftGroupId LocalReplica) : HostingPlan :=
  match view.cluster.filter fun cluster => (cluster.ownRecord me root).isSome with
  | none => planHeld view me root replicas
  | some cluster =>
    (hostedGroups cluster me replicas).ascending.foldl
      (fun plan group => planGroup cluster me group (replicas.get? group) plan) .empty

/-- The node knows itself removed. -/
def HostingInput.isRemoved (input : HostingInput) : Bool :=
  input.standing.knowsRemoved input.view.view.cluster input.me input.root

/-- What the node runs and starts now. -/
def planHosting (input : HostingInput) : HostingPlan :=
  if input.isRemoved then planRemoved input.replicas
  else
    match input.view with
    | .confirmed view => planMember input.me input.root view input.replicas
    | .unconfirmed view =>
      let plan := planHeld view input.me input.root input.replicas
      let confirmed := planMember input.me input.root view input.replicas
      if confirmed.admitted ≠ plan.admitted ∨ confirmed.steps ≠ plan.steps then
        { plan with steps := .confirmView :: plan.steps }
      else plan

/-! ## Plans group by group -/

/-- A fold that makes of each item one admission at its key and some steps. -/
theorem foldl_plan {α : Type} {f : HostingPlan → α → HostingPlan} (key : α → RaftGroupId)
    (admission : α → Option Admission) (steps : α → List HostingStep)
    (hadmitted : ∀ plan item, (f plan item).admitted =
      (admission item).elim plan.admitted (plan.admitted.insert (key item)))
    (hsteps : ∀ plan item, (f plan item).steps = plan.steps ++ steps item) (items : List α)
    (hnodup : (items.map key).Nodup) :
    (∀ item ∈ items, (items.foldl f .empty).admitted.get? (key item) = admission item) ∧
      (∀ group, group ∉ items.map key → (items.foldl f .empty).admitted.get? group = none) ∧
      (items.foldl f .empty).steps = items.flatMap steps := by
  induction items using reverseRecOn with
  | nil => exact ⟨by simp, fun _ _ => rfl, rfl⟩
  | append_singleton items last ih =>
    rw [map_append, map_singleton, nodup_append] at hnodup
    obtain ⟨hitems, hothers, hall⟩ := ih hnodup.1
    have hlast : key last ∉ items.map key := fun hmem =>
      hnodup.2.2 _ hmem _ (mem_singleton_self _) rfl
    have hget : ∀ group, ((items ++ [last]).foldl f .empty).admitted.get? group =
        if group = key last then admission last
          else (items.foldl f .empty).admitted.get? group := by
      intro group
      rw [foldl_append, foldl_cons, foldl_nil, hadmitted]
      by_cases hgroup : group = key last
      · subst hgroup
        cases admission last with
        | none => simp [hothers _ hlast]
        | some admitted => simp
      · cases admission last <;> simp [hgroup, OrdMap.get?_insert]
    refine ⟨fun item hitem => ?_, fun group hgroup => ?_, ?_⟩
    · rw [hget]
      rcases mem_append.mp hitem with hold | hnew
      · have hne : key item ≠ key last := fun hsame =>
          hlast (hsame ▸ mem_map_of_mem hold)
        rw [if_neg hne]
        exact hitems item hold
      · rw [mem_singleton.mp hnew, if_pos rfl]
    · rw [map_append, mem_append, not_or] at hgroup
      rw [hget, if_neg (by simpa using hgroup.2)]
      exact hothers group hgroup.1
    · rw [foldl_append, foldl_cons, foldl_nil, hsteps, hall]
      simp

section Member

variable (cluster : Cluster) (me : NodeId) (group : RaftGroupId) (replica : Option LocalReplica)

/-- What a confirmed view admits of a group. -/
def groupAdmission : Option Admission :=
  if replica.any LocalReplica.admissible then some .open
  else if (cluster.role group me = some .voter ∨ cluster.role group me = some .incoming) ∧
      (replica.any fun replica => replica.log.isHeld) = false ∧
      replica.bind LocalReplica.teardown = none then some .create
  else none

/-- What a confirmed view starts for a group. -/
def groupSteps : List HostingStep :=
  match cluster.role group me with
  | some _ =>
    if replica.bind LocalReplica.teardown = some .asking then [.cancelTeardown group] else []
  | none =>
    match replica.map LocalReplica.log, replica.bind LocalReplica.teardown with
    | some .empty, none | some .holding, none => [.tearDown group]
    | some .unknown, some .asking => [.cancelTeardown group]
    | none, none | some .retired, none =>
      match cluster.retirement group me with
      | some record => [.reportTornDown group record.createdAt]
      | none => []
    | some _, some _ | none, some _ | some .unknown, none => []

theorem planGroup_eq (plan : HostingPlan) :
    (planGroup cluster me group replica plan).admitted =
        (groupAdmission cluster me group replica).elim plan.admitted (plan.admitted.insert group) ∧
      (planGroup cluster me group replica plan).steps =
        plan.steps ++ groupSteps cluster me group replica := by
  unfold planGroup groupAdmission groupSteps
  generalize cluster.role group me = role
  generalize cluster.retirement group me = record
  rcases replica with _ | ⟨log, counts, _ | _ | step⟩
  · rcases role with _ | _ | _ | _ | _ <;> cases record <;>
      simp [push, admitReplica]
  all_goals
    rcases role with _ | _ | _ | _ | _ <;> cases log <;> cases record <;>
      simp [admissible, LocalLog.isHeld, push, admitReplica, unplace]

/-- A group that a member's plan does not go over has nothing to admit or start. -/
theorem rule_of_notMem {replicas : OrdMap RaftGroupId LocalReplica}
    (h : group ∉ hostedGroups cluster me replicas) :
    groupAdmission cluster me group (replicas.get? group) = none ∧
      groupSteps cluster me group (replicas.get? group) = [] := by
  rw [hostedGroups, Finset.mem_union, Finset.mem_union, not_or, not_or] at h
  obtain ⟨⟨hlocal, hplaced⟩, howed⟩ := h
  have hreplica : replicas.get? group = none := by
    rw [mem_toFinset, OrdMap.mem_keys] at hlocal
    cases hget : replicas.get? group with
    | none => rfl
    | some replica => exact absurd ⟨replica, hget⟩ hlocal
  have hrole : cluster.role group me = none := by
    by_contra hsome
    obtain ⟨role, hrole⟩ := Option.ne_none_iff_exists'.mp hsome
    obtain ⟨placement, hgroup, hplacement⟩ := Option.bind_eq_some_iff.mp hrole
    exact hplaced (mem_toFinset.mpr (mem_map.mpr ⟨(group, placement),
      mem_filter.mpr ⟨cluster.groups.mem_entries.mpr hgroup, by simp [hplacement]⟩, rfl⟩))
  have hrecord : cluster.retirement group me = none := by
    by_contra hsome
    obtain ⟨record, hrecord⟩ := Option.ne_none_iff_exists'.mp hsome
    obtain ⟨records, hgroup, hget⟩ := Option.bind_eq_some_iff.mp hrecord
    exact howed (mem_toFinset.mpr (mem_map.mpr ⟨(group, records),
      mem_filter.mpr ⟨cluster.retirements.mem_entries.mpr hgroup,
        (OrdMap.contains_iff _ _).mpr ⟨record, hget⟩⟩, rfl⟩))
  simp [groupAdmission, groupSteps, hreplica, hrole, hrecord]

end Member

variable {me : NodeId} {root : RootId} {view : ControlPlaneState}
  {replicas : OrdMap RaftGroupId LocalReplica}

/-- A member's plan from its own confirmed view is the collection of the groups' rules. -/
theorem planMember_eq {cluster : Cluster} (hcluster : view.cluster = some cluster)
    (hown : (cluster.ownRecord me root).isSome) :
    (∀ group, (planMember me root view replicas).admitted.get? group =
        groupAdmission cluster me group (replicas.get? group)) ∧
      ∀ step, step ∈ (planMember me root view replicas).steps ↔
        ∃ group, step ∈ groupSteps cluster me group (replicas.get? group) := by
  have hplan : planMember me root view replicas =
      (hostedGroups cluster me replicas).ascending.foldl
        (fun plan group => planGroup cluster me group (replicas.get? group) plan) .empty := by
    rw [planMember, hcluster, Option.filter_some, if_pos hown]
  obtain ⟨hitems, hothers, hsteps⟩ := foldl_plan id _ _
    (fun plan group => (planGroup_eq cluster me group (replicas.get? group) plan).1)
    (fun plan group => (planGroup_eq cluster me group (replicas.get? group) plan).2)
    (hostedGroups cluster me replicas).ascending (by simpa using Finset.nodup_ascending _)
  rw [← hplan] at hitems hothers hsteps
  refine ⟨fun group => ?_, fun step => ?_⟩
  · by_cases hgroup : group ∈ hostedGroups cluster me replicas
    · exact hitems group (Finset.mem_ascending.mpr hgroup)
    · rw [(rule_of_notMem cluster me group hgroup).1]
      exact hothers group (by simpa using hgroup)
  · rw [hsteps, mem_flatMap]
    constructor
    · rintro ⟨group, -, hstep⟩
      exact ⟨group, hstep⟩
    · rintro ⟨group, hstep⟩
      refine ⟨group, Finset.mem_ascending.mpr ?_, hstep⟩
      by_contra hgroup
      rw [(rule_of_notMem cluster me group hgroup).2] at hstep
      cases hstep

/-- What a fold over the replicas admits and starts, from what it makes of each entry. -/
theorem foldl_replicas {f : HostingPlan → RaftGroupId × LocalReplica → HostingPlan}
    (admission : LocalReplica → Option Admission)
    (steps : RaftGroupId × LocalReplica → List HostingStep)
    (hadmitted : ∀ plan entry, (f plan entry).admitted =
      (admission entry.2).elim plan.admitted (plan.admitted.insert entry.1))
    (hsteps : ∀ plan entry, (f plan entry).steps = plan.steps ++ steps entry) :
    (∀ group, (replicas.entries.foldl f .empty).admitted.get? group =
        (replicas.get? group).bind admission) ∧
      (replicas.entries.foldl f .empty).steps = replicas.entries.flatMap steps := by
  obtain ⟨hitems, hothers, hall⟩ := foldl_plan Prod.fst (fun entry => admission entry.2) steps
    hadmitted hsteps replicas.entries replicas.keys_nodup
  refine ⟨fun group => ?_, hall⟩
  cases hget : replicas.get? group with
  | some replica => exact hitems (group, replica) (replicas.mem_entries.mpr hget)
  | none =>
    refine hothers group fun hmem => ?_
    obtain ⟨⟨group', replica⟩, hentry, rfl⟩ := mem_map.mp hmem
    rw [replicas.mem_entries.mp hentry] at hget
    cases hget

theorem planHeld_eq (view : ControlPlaneState) (me : NodeId) (root : RootId)
    (replicas : OrdMap RaftGroupId LocalReplica) :
    (∀ group, (planHeld view me root replicas).admitted.get? group =
        (replicas.get? group).bind fun replica =>
          if replica.admissible then some .open else none) ∧
      (planHeld view me root replicas).steps = [] := by
  have hplan : ∀ plan entry, (planHeldReplica view me root plan entry).admitted =
        (if entry.2.admissible then some Admission.open else none).elim plan.admitted
          (plan.admitted.insert entry.1) ∧
      (planHeldReplica view me root plan entry).steps = plan.steps ++ [] := fun plan entry => by
    unfold planHeldReplica
    by_cases hadmissible : entry.2.admissible = true <;> cases view.cluster <;>
      simp only [hadmissible, if_true, if_false, Bool.false_eq_true] <;> (try split) <;>
      simp [admitReplica, unplace]
  obtain ⟨hget, hsteps⟩ := foldl_replicas
    (fun replica => if replica.admissible then some Admission.open else none) (fun _ => [])
    (fun plan entry => (hplan plan entry).1) fun plan entry => (hplan plan entry).2
  exact ⟨hget, hsteps.trans (by simp)⟩

theorem planRemoved_eq (replicas : OrdMap RaftGroupId LocalReplica) :
    (∀ group, (planRemoved replicas).admitted.get? group =
        (replicas.get? group).bind fun replica =>
          if replica.admissible ∧ replica.counts = .voter then some .open else none) ∧
      (planRemoved replicas).steps = replicas.entries.flatMap fun entry =>
        if entry.2.teardown = some .asking then [.cancelTeardown entry.1] else [] := by
  refine foldl_replicas (fun replica => if replica.admissible ∧ replica.counts = .voter then
      some .open else none)
    (fun entry => if entry.2.teardown = some .asking then [.cancelTeardown entry.1] else [])
    (fun plan entry => ?_) (fun plan entry => ?_)
  all_goals
    unfold planRemovedReplica
    by_cases hopens : entry.2.admissible = true ∧ entry.2.counts = .voter <;>
      by_cases hasking : entry.2.teardown = some .asking <;>
      simp [hopens, hasking, admitReplica, unplace, push]

/-! ## The laws of a plan -/

/-- The node's own cluster: a confirmed view whose record of the node names this run's root. -/
structure HostingInput.Own (input : HostingInput) (cluster : Cluster) : Prop where
  confirmed : ∃ view, input.view = .confirmed view ∧ view.cluster = some cluster
  record : ∃ record, cluster.node input.me = some record ∧ record.root.root = input.root

/-- No log of the group is held, and no teardown of it runs. -/
def HostingInput.Gone (input : HostingInput) (group : RaftGroupId) : Prop :=
  ∀ replica, input.replicas.get? group = some replica →
    replica.log = .retired ∧ replica.teardown = none

/-- The laws of a plan. -/
structure HostingPlan.Lawful (input : HostingInput) (plan : HostingPlan) : Prop where
  /-- A replica is created only on the node's own confirmed view. -/
  create : ∀ group, plan.admitted.get? group = some .create →
    input.isRemoved = false ∧ input.Gone group ∧ ∃ cluster, input.Own cluster ∧
      (cluster.role group input.me = some .voter ∨ cluster.role group input.me = some .incoming)
  /-- Only a held replica is opened, and on a node not known removed every such one, until its
  teardown passes its first step. -/
  opened : ∀ group, plan.admitted.get? group = some .open → ∃ replica,
    input.replicas.get? group = some replica ∧ replica.log.isHeld
  opens : input.isRemoved = false → ∀ group replica, input.replicas.get? group = some replica →
    replica.log.isHeld → (∀ step, replica.teardown ≠ some (.running step)) →
    plan.admitted.get? group = some .open
  past : ∀ group replica step, input.replicas.get? group = some replica →
    replica.teardown = some (.running step) → plan.admitted.get? group = none
  tearDown : ∀ group, .tearDown group ∈ plan.steps → ∃ cluster replica, input.Own cluster ∧
    cluster.role group input.me = none ∧ input.replicas.get? group = some replica ∧
    (replica.log = .empty ∨ replica.log = .holding) ∧ replica.teardown = none
  reportTornDown : ∀ group createdAt, .reportTornDown group createdAt ∈ plan.steps →
    input.Gone group ∧ ∃ cluster, input.Own cluster ∧
      cluster.retirement group input.me = some ⟨createdAt⟩
  /-- An unconfirmed view only asks for its confirmation, exactly when that would change the
  plan. -/
  unconfirmed : input.isRemoved = false → ∀ view, input.view = .unconfirmed view →
    (∀ step ∈ plan.steps, step = .confirmView) ∧
      (.confirmView ∈ plan.steps ↔
        (planHosting { input with view := .confirmed view }).admitted ≠ plan.admitted ∨
          (planHosting { input with view := .confirmed view }).steps ≠ [])
  /-- A removed node opens its admissible replicas that count as voters, and only cancels. -/
  removed : input.isRemoved = true →
    (∀ group admission, plan.admitted.get? group = some admission ↔ admission = .open ∧
      ∃ replica, input.replicas.get? group = some replica ∧ replica.admissible ∧
        replica.counts = .voter) ∧
    ∀ step ∈ plan.steps, ∃ group replica, step = .cancelTeardown group ∧
      input.replicas.get? group = some replica ∧ replica.teardown = some .asking

theorem LocalReplica.admissible_iff {replica : LocalReplica} :
    replica.admissible ↔ replica.log.isHeld ∧ ∀ step, replica.teardown ≠ some (.running step) := by
  obtain ⟨log, counts, _ | _ | step⟩ := replica <;> simp [admissible]

variable {cluster : Cluster} {group : RaftGroupId} {replica : Option LocalReplica}

/-- Without a held log and a teardown nothing is admitted but a creation. -/
theorem groupAdmission_eq_create (h : groupAdmission cluster me group replica = some .create) :
    (cluster.role group me = some .voter ∨ cluster.role group me = some .incoming) ∧
      ∀ held, replica = some held → held.log = .retired ∧ held.teardown = none := by
  unfold groupAdmission at h
  by_cases hadmissible : replica.any admissible = true
  · rw [if_pos hadmissible] at h
    cases h
  rw [if_neg hadmissible, Option.ite_none_right_eq_some] at h
  obtain ⟨hcreates, -⟩ := h
  refine ⟨hcreates.1, ?_⟩
  rintro held rfl
  refine ⟨?_, by simpa using hcreates.2.2⟩
  cases hlog : held.log <;> simp [LocalLog.isHeld, hlog] at hcreates ⊢

theorem mem_groupSteps {step : HostingStep} (h : step ∈ groupSteps cluster me group replica) :
    (∃ held, step = .tearDown group ∧ cluster.role group me = none ∧ replica = some held ∧
        (held.log = .empty ∨ held.log = .holding) ∧ held.teardown = none) ∨
      step = .cancelTeardown group ∨
      ∃ record, step = .reportTornDown group record.createdAt ∧
        cluster.retirement group me = some record ∧
        ∀ held, replica = some held → held.log = .retired ∧ held.teardown = none := by
  unfold groupSteps at h
  generalize cluster.role group me = role at h ⊢
  generalize cluster.retirement group me = record at h ⊢
  rcases replica with _ | ⟨log, counts, _ | _ | _⟩
  · rcases role with _ | role <;> cases record <;> simp at h ⊢
    exact .inr h
  all_goals
    rcases role with _ | role <;> cases log <;> cases record <;> simp at h ⊢ <;> simp [h]

theorem Cluster.ownRecord_isSome :
    (cluster.ownRecord me root).isSome ↔
      ∃ record, cluster.node me = some record ∧ record.root.root = root := by
  unfold ownRecord
  cases cluster.node me <;> simp

theorem groupAdmission_eq_open (h : groupAdmission cluster me group replica = some .open) :
    ∃ held, replica = some held ∧ held.admissible := by
  unfold groupAdmission at h
  cases replica with
  | none => simp at h
  | some held =>
    refine ⟨held, rfl, ?_⟩
    by_contra hnot
    simp [hnot] at h

/-- What a plan that opens the replicas with a property admits. -/
theorem bind_open_eq_some {opens : LocalReplica → Prop} [DecidablePred opens]
    {admission : Admission} :
    (replica.bind fun held => if opens held then some .open else none) = some admission ↔
      admission = .open ∧ ∃ held, replica = some held ∧ opens held := by
  simp only [Option.bind_eq_some_iff, Option.ite_none_right_eq_some, Option.some.injEq]
  constructor
  · rintro ⟨held, hheld, hopens, rfl⟩
    exact ⟨rfl, held, hheld, hopens⟩
  · rintro ⟨rfl, held, hheld, hopens⟩
    exact ⟨held, hheld, hopens, rfl⟩

namespace HostingPlan

variable {input : HostingInput} {plan : HostingPlan}

theorem lawful_removed (hremoved : input.isRemoved = true) :
    (planRemoved input.replicas).Lawful input := by
  obtain ⟨hadmitted, hsteps⟩ := planRemoved_eq input.replicas
  have hopen : ∀ group admission, (planRemoved input.replicas).admitted.get? group =
      some admission ↔ admission = .open ∧ ∃ replica, input.replicas.get? group = some replica ∧
        replica.admissible ∧ replica.counts = .voter := fun group admission => by
    rw [hadmitted]
    exact bind_open_eq_some
  have hcancel : ∀ step ∈ (planRemoved input.replicas).steps, ∃ group replica,
      step = .cancelTeardown group ∧ input.replicas.get? group = some replica ∧
        replica.teardown = some .asking := fun step hstep => by
    rw [hsteps, mem_flatMap] at hstep
    obtain ⟨⟨group, replica⟩, hentry, hstep⟩ := hstep
    by_cases hasking : replica.teardown = some .asking
    · rw [if_pos hasking, mem_singleton] at hstep
      exact ⟨group, replica, hstep, input.replicas.mem_entries.mp hentry, hasking⟩
    · rw [if_neg hasking] at hstep
      cases hstep
  refine ⟨fun group h => ?_, fun group h => ?_, fun h => ?_, fun group replica step hget h => ?_,
    fun group h => ?_, fun group createdAt h => ?_, fun h => ?_, fun _ => ⟨hopen, hcancel⟩⟩
  · cases ((hopen group _).mp h).1
  · obtain ⟨-, replica, hget, hadmissible, -⟩ := (hopen group _).mp h
    exact ⟨replica, hget, (admissible_iff.mp hadmissible).1⟩
  · rw [hremoved] at h
    cases h
  · rw [hadmitted, hget]
    simp [admissible, h]
  · obtain ⟨_, _, hstep, -⟩ := hcancel _ h
    cases hstep
  · obtain ⟨_, _, hstep, -⟩ := hcancel _ h
    cases hstep
  · rw [hremoved] at h
    cases h

/-- A plan that admits the held replicas, and starts at most a confirmation where one is due. -/
theorem lawful_held (hremoved : input.isRemoved = false) (view : ControlPlaneState)
    (hadmitted : plan.admitted = (planHeld view input.me input.root input.replicas).admitted)
    (hsteps : ∀ step ∈ plan.steps, step = .confirmView)
    (hconfirm : ∀ view, input.view = .unconfirmed view →
      (.confirmView ∈ plan.steps ↔
        (planHosting { input with view := .confirmed view }).admitted ≠ plan.admitted ∨
          (planHosting { input with view := .confirmed view }).steps ≠ [])) :
    plan.Lawful input := by
  have hget : ∀ group admission, plan.admitted.get? group = some admission ↔
      admission = .open ∧ ∃ replica, input.replicas.get? group = some replica ∧
        replica.admissible := fun group admission => by
    rw [hadmitted, (planHeld_eq ..).1]
    exact bind_open_eq_some
  refine ⟨fun group h => ?_, fun group h => ?_, fun _ group replica hreplica hheld hpast => ?_,
    fun group replica step hreplica hrunning => ?_, fun group h => ?_, fun group createdAt h => ?_,
    fun _ view hview => ⟨hsteps, hconfirm view hview⟩, fun h => ?_⟩
  · cases ((hget group _).mp h).1
  · obtain ⟨-, replica, hreplica, hadmissible⟩ := (hget group _).mp h
    exact ⟨replica, hreplica, (admissible_iff.mp hadmissible).1⟩
  · exact (hget group _).mpr ⟨rfl, replica, hreplica, admissible_iff.mpr ⟨hheld, hpast⟩⟩
  · rw [Option.eq_none_iff_forall_ne_some]
    intro admission hsome
    obtain ⟨-, replica', hreplica', hadmissible⟩ := (hget group _).mp hsome
    rw [hreplica] at hreplica'
    cases hreplica'
    exact (admissible_iff.mp hadmissible).2 step hrunning
  · cases hsteps _ h
  · cases hsteps _ h
  · rw [hremoved] at h
    cases h

theorem lawful_member (hremoved : input.isRemoved = false) {view : ControlPlaneState}
    (hview : input.view = .confirmed view) (hcluster : view.cluster = some cluster)
    (hown : (cluster.ownRecord input.me input.root).isSome) :
    (planMember input.me input.root view input.replicas).Lawful input := by
  obtain ⟨hadmitted, hsteps⟩ := @planMember_eq input.me input.root view
    input.replicas _ hcluster hown
  have howned : input.Own cluster := ⟨⟨view, hview, hcluster⟩, Cluster.ownRecord_isSome.mp hown⟩
  refine ⟨fun group h => ?_, fun group h => ?_, fun _ group replica hreplica hheld hpast => ?_,
    fun group replica step hreplica hrunning => ?_, fun group h => ?_, fun group createdAt h => ?_,
    fun _ other hother => ?_, fun h => ?_⟩
  · rw [hadmitted] at h
    obtain ⟨hrole, hgone⟩ := groupAdmission_eq_create h
    exact ⟨hremoved, hgone, cluster, howned, hrole⟩
  · rw [hadmitted] at h
    obtain ⟨replica, hreplica, hadmissible⟩ := groupAdmission_eq_open h
    exact ⟨replica, hreplica, (admissible_iff.mp hadmissible).1⟩
  · rw [hadmitted, hreplica]
    simp [groupAdmission, admissible_iff.mpr ⟨hheld, hpast⟩]
  · rw [hadmitted, hreplica]
    simp [groupAdmission, admissible, hrunning]
  · obtain ⟨group', hstep⟩ := (hsteps _).mp h
    rcases mem_groupSteps hstep with
      ⟨replica, heq, hrole, hreplica, hlog, hteardown⟩ | heq | ⟨_, heq, -⟩
    · cases heq
      exact ⟨cluster, replica, howned, hrole, hreplica, hlog, hteardown⟩
    · cases heq
    · cases heq
  · obtain ⟨group', hstep⟩ := (hsteps _).mp h
    rcases mem_groupSteps hstep with ⟨_, heq, -⟩ | heq | ⟨record, heq, hrecord, hgone⟩
    · cases heq
    · cases heq
    · cases heq
      exact ⟨hgone, cluster, howned, hrecord⟩
  · rw [hview] at hother
    cases hother
  · rw [hremoved] at h
    cases h

end HostingPlan

theorem planHosting_confirmed {input : HostingInput} {view : ControlPlaneState}
    (hremoved : input.isRemoved = false) (hview : input.view = .confirmed view) :
    planHosting input = planMember input.me input.root view input.replicas := by
  rw [planHosting, hremoved, if_neg Bool.false_ne_true, hview]

theorem lawful_planHosting (input : HostingInput) : (planHosting input).Lawful input := by
  cases hremoved : input.isRemoved with
  | true =>
    rw [planHosting, if_pos hremoved]
    exact lawful_removed hremoved
  | false =>
    cases hview : input.view with
    | confirmed view =>
      rw [planHosting_confirmed hremoved hview]
      cases hcluster : view.cluster.filter fun cluster =>
          (cluster.ownRecord input.me input.root).isSome with
      | none =>
        refine lawful_held hremoved view ?_ ?_ fun other hother => ?_
        · rw [planMember, hcluster]
        · rw [planMember, hcluster, (planHeld_eq _ _ _ _).2]
          intro step hstep
          cases hstep
        · rw [hview] at hother
          cases hother
      | some cluster =>
        obtain ⟨hsome, hown⟩ := Option.filter_eq_some_iff.mp hcluster
        exact lawful_member hremoved hview hsome hown
    | unconfirmed view =>
      have hconfirmed : planHosting { input with view := .confirmed view } =
          planMember input.me input.root view input.replicas :=
        planHosting_confirmed (by
          rw [HostingInput.isRemoved, hview] at hremoved
          exact hremoved) rfl
      have hheld := (planHeld_eq view input.me input.root input.replicas).2
      have hplan : planHosting input =
          let plan := planHeld view input.me input.root input.replicas
          let confirmed := planMember input.me input.root view input.replicas
          if confirmed.admitted ≠ plan.admitted ∨ confirmed.steps ≠ plan.steps then
            { plan with steps := .confirmView :: plan.steps }
          else plan := by
        rw [planHosting, hremoved, if_neg Bool.false_ne_true, hview]
      dsimp only at hplan
      refine lawful_held hremoved view ?_ ?_ fun other hother => ?_
      · rw [hplan]
        split_ifs <;> rfl
      · rw [hplan]
        intro step hstep
        split_ifs at hstep
        · rw [hheld, mem_singleton] at hstep
          exact hstep
        · rw [hheld] at hstep
          cases hstep
      · rw [hview] at hother
        cases hother
        rw [hconfirmed, hplan]
        split_ifs with hdiffers
        · exact iff_of_true (mem_cons_self ..) (by rwa [hheld] at hdiffers)
        · rw [hheld] at hdiffers ⊢
          exact iff_of_false (by simp) hdiffers

/-! ## Runs of a teardown -/

namespace Teardown

/-- A live leader's answer that the node is no member. -/
abbrev notMember : TeardownEvent := .answered (some .notMember)

theorem run_append (teardown : Teardown) (events : List TeardownEvent) (event : TeardownEvent) :
    teardown.run (events ++ [event]) =
      match teardown.run events with
      | .continues next => next.advance event
      | .ended how => .ended how := by
  rw [run, foldl_append]
  rfl

variable (events : List TeardownEvent)

/-- The events hold an answer that the node is no member, heard at the first ask. -/
def LeftOnce : Prop :=
  ∃ first rest, events = first ++ notMember :: rest ∧ run .start first = .continues .asking

/-- They hold a second one, heard once the replica stopped. -/
def LeftTwice : Prop :=
  ∃ first stops rest, events = first ++ notMember :: stops ++ notMember :: rest ∧
    run .start first = .continues .asking ∧
    run .start (first ++ notMember :: stops) = .continues (.running .askAgain)

/-- What the events before each outcome of a teardown hold. -/
def Heard : TeardownOutcome → Prop
  | .continues .asking => True
  | .continues (.running .retire) => LeftTwice events
  | .continues (.running .forgetMetrics) => LeftTwice events
  | .continues (.running _) => LeftOnce events
  | .ended .retired => LeftTwice events
  | .ended .readmitted => LeftOnce events ∧ ∃ before answer after,
    events = before ++ .answered answer :: after ∧ answer ≠ some .notMember ∧
      run .start before = .continues (.running .askAgain)
  | .ended .cancelled => ∃ before after, events = before ++ .cancel :: after ∧
    run .start before = .continues .asking

theorem LeftOnce.append {events : List TeardownEvent} (h : LeftOnce events)
    (event : TeardownEvent) : LeftOnce (events ++ [event]) := by
  obtain ⟨first, rest, rfl, hfirst⟩ := h
  exact ⟨first, rest ++ [event], by simp, hfirst⟩

theorem LeftTwice.append {events : List TeardownEvent} (h : LeftTwice events)
    (event : TeardownEvent) : LeftTwice (events ++ [event]) := by
  obtain ⟨first, stops, rest, rfl, hfirst, hstops⟩ := h
  exact ⟨first, stops, rest ++ [event], by simp, hfirst, hstops⟩

/-- What a run heard: induction on the events, with one case for every step of a teardown. -/
theorem heard_of_run (events : List TeardownEvent) : Heard events (run .start events) := by
  induction events using reverseRecOn with
  | nil => trivial
  | append_singleton events event ih =>
    rw [run_append]
    cases hrun : run .start events with
    | ended how =>
      rw [hrun] at ih
      cases how with
      | retired => exact LeftTwice.append ih event
      | readmitted =>
        obtain ⟨honce, before, answer, after, rfl, hanswer, hbefore⟩ := ih
        exact ⟨honce.append event, before, answer, after ++ [event], by simp, hanswer, hbefore⟩
      | cancelled =>
        obtain ⟨before, after, rfl, hbefore⟩ := ih
        exact ⟨before, after ++ [event], by simp, hbefore⟩
    | continues teardown =>
      rw [hrun] at ih
      cases teardown with
      | asking =>
        cases event with
        | answered answer =>
          by_cases hleft : answer = some .notMember
          · subst hleft
            exact ⟨events, [], rfl, hrun⟩
          · simp [advance, hleft, Heard]
        | stepDone => trivial
        | cancel => exact ⟨events, [], rfl, hrun⟩
      | running step =>
        cases event with
        | answered answer =>
          cases step with
          | askAgain =>
            by_cases hleft : answer = some .notMember
            · subst hleft
              obtain ⟨first, stops, hevents, hfirst⟩ := ih
              exact ⟨first, stops, [], by rw [hevents], hfirst, hevents ▸ hrun⟩
            · simp only [advance, TeardownEvent.answered.injEq, hleft, if_false]
              exact ⟨LeftOnce.append ih _, events, answer, [], rfl, hleft, hrun⟩
          | retire | forgetMetrics => exact LeftTwice.append ih _
          | fence | unregister | stop | awaitIdle => exact LeftOnce.append ih _
        | stepDone | cancel =>
          cases step with
          | retire | forgetMetrics => exact LeftTwice.append ih _
          | fence | unregister | stop | awaitIdle | askAgain => exact LeftOnce.append ih _

end Teardown

/-- Hosting on strong evidence only. Every plan, from any view, standing and local replicas, keeps
the laws of `HostingPlan.Lawful`. A teardown fed any events retires the log only after a live leader
answered that the node is no member at its first ask and again once the replica stopped; it readmits
the replica only on another answer to the second ask; and it is cancelled only at its first ask. -/
theorem hosting_on_strong_evidence_only :
    (∀ input : HostingInput, (planHosting input).Lawful input) ∧
      ∀ events : List TeardownEvent,
        (Teardown.run .start events = .ended .retired → Teardown.LeftTwice events) ∧
        (Teardown.run .start events = .ended .readmitted → ∃ before answer after,
          events = before ++ .answered answer :: after ∧ answer ≠ some .notMember ∧
            Teardown.run .start before = .continues (.running .askAgain)) ∧
        (Teardown.run .start events = .ended .cancelled → ∃ before after,
          events = before ++ .cancel :: after ∧
            Teardown.run .start before = .continues .asking) := by
  refine ⟨lawful_planHosting, fun events => ?_⟩
  have hheard := Teardown.heard_of_run events
  refine ⟨fun h => ?_, fun h => ?_, fun h => ?_⟩ <;> rw [h] at hheard
  · exact hheard
  · exact hheard.2
  · exact hheard

/-- A node that knows itself removed cancels a teardown on a view that is not confirmed. -/
theorem removed_cancels_unconfirmed :
    let input : HostingInput :=
      { me := 1
        root := 11
        standing := .removed
        view := .unconfirmed .new
        replicas := (∅ : OrdMap RaftGroupId LocalReplica).insert 0
          ⟨.holding, .voter, some .asking⟩ }
    input.view = .unconfirmed .new ∧ (planHosting input).steps = [.cancelTeardown 0] :=
  ⟨rfl, by decide⟩

end Ursula.Control

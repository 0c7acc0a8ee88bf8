import Ursula.Control.Placement
import Ursula.Lib.Transition

/-!
# The lives of a node id

A node id runs one life after another, each on roots of its own. A removed life ends with the
removal report of the root its slot names, and the id begins a new life only on an empty root other
than the released one. A slot is released before another root takes it, so a command that names an
earlier root meets a slot that names another one.

## Main definitions

* `ControlPlaneState.slot`, `ControlPlaneState.record`: a node's root slot and record
* `RecordChange`, `SlotChange`: how one entry changes them
* `ReleasedBetween`, `RoleGivenBetween`: what happened between two moments of a run

## Main results

* `removed_life_never_returns`: what holds between any two moments of a run
-/

namespace Ursula.Control

open Checks Cluster Option List

namespace ControlPlaneState

/-- The record of a node in a bootstrapped cluster. -/
def record (state : ControlPlaneState) (node : NodeId) : Option NodeRecord :=
  state.cluster.bind fun cluster => cluster.node node

/-- Where a node id stands in a bootstrapped cluster. -/
def lifecycle (state : ControlPlaneState) (node : NodeId) : Option NodeLifecycle :=
  (state.record node).map NodeRecord.lifecycle

/-- The slot of a registered node, before Bootstrap and after. -/
def slot (state : ControlPlaneState) (node : NodeId) : Option RootSlot :=
  match state with
  | .forming registered => (registered.get? node).map Registration.root
  | .formationCut => none
  | .bootstrapped cluster => (cluster.node node).map NodeRecord.root

/-- The retirement of a node in a group of a bootstrapped cluster. -/
def retirement (state : ControlPlaneState) (group : RaftGroupId) (node : NodeId) :
    Option Retirement :=
  state.cluster.bind fun cluster => cluster.retirement group node

/-- The role of a node in a group of a bootstrapped cluster. -/
def role (state : ControlPlaneState) (group : RaftGroupId) (node : NodeId) : Option ReplicaRole :=
  state.cluster.bind fun cluster => cluster.role group node

end ControlPlaneState

/-! ## One entry -/

/-- How one command changes a node's record. -/
inductive RecordChange (node : NodeId) :
    ControlCommand → Option NodeRecord → Option NodeRecord → Prop
  | same (command : ControlCommand) (record : Option NodeRecord) :
    RecordChange node command record record
  | first (root : RootId) (empty : Bool) (nowMs : ℕ) :
    RecordChange node (.registerNode node root empty nowMs) none
      (some { lifecycle := .active, sinceMs := nowMs, root := .bound root })
  /-- A new life begins on a root other than the released one. -/
  | reborn {root released : RootId} (nowMs : ℕ) {record : NodeRecord}
      (hvacant : record.lifecycle = .vacant) (hslot : record.root = .released released)
      (hroot : released ≠ root) :
    RecordChange node (.registerNode node root true nowMs) (some record)
      (some { lifecycle := .active, sinceMs := nowMs, root := .bound root })
  | rebind {root released : RootId} (nowMs : ℕ) {record : NodeRecord}
      (hlife : record.lifecycle.hasLife = true) (hslot : record.root = .released released)
      (hroot : released ≠ root) :
    RecordChange node (.registerNode node root true nowMs) (some record)
      (some { record with root := .bound root })
  | release {root : RootId} {record : NodeRecord} (hlife : record.lifecycle.hasLife = true)
      (hslot : record.root = .bound root) :
    RecordChange node (.releaseRoot node root) (some record)
      (some { record with root := .released root })
  | vacate {root : RootId} (nowMs : ℕ) {record : NodeRecord}
      (hremoved : record.lifecycle = .removed) (hroot : record.root.root = root) :
    RecordChange node (.reportRemovalComplete node root nowMs) (some record)
      (some { lifecycle := .vacant, sinceMs := nowMs, root := .released root })
  /-- A life goes on or ends, on the same root. -/
  | aged (command : ControlCommand) {record record' : NodeRecord}
      (hlife : record.lifecycle.hasLife = true) (hroot : record'.root = record.root)
      (hvacant : record'.lifecycle ≠ .vacant) :
    RecordChange node command (some record) (some record')

namespace Cluster

variable {cluster : Cluster}

/-- A sweep leaves a node's record, or ends its life on the same root. -/
theorem recordChange_sweep (command : ControlCommand) (nowMs : ℕ) (node : NodeId) :
    RecordChange node command (cluster.node node)
      ((cluster.removeRolelessDecommissioning nowMs).1.node node) := by
  rw [node_sweep]
  cases hnode : cluster.node node with
  | none => exact .same _ _
  | some record =>
    split_ifs with hroleless
    · obtain ⟨own, hown, hdecommissioning, -⟩ := mem_roleless.mp hroleless
      rw [hnode] at hown
      cases hown
      exact .aged command (by rw [hdecommissioning]; rfl) rfl (by simp)
    · exact .same _ _

variable {command : ControlCommand}

/-- A planned commit changes a node's record in one of the listed ways. -/
theorem recordChange_commit (h : cluster.Sound) {change : Change}
    (hplanned : Planned cluster command change) (log : MetaLogId) (node : NodeId) :
    RecordChange node command (cluster.node node) ((cluster.commit log change).1.node node) := by
  -- a change that sets the record of one node leaves those of the others
  have hset : ∀ {own before record}, cluster.node own = before →
      RecordChange own command before (some record) →
        RecordChange node command (cluster.node node) ((cluster.setNode own record).node node) := by
    rintro own _ record rfl hown
    rw [node_setNode]
    by_cases hnode : node = own
    · subst hnode
      rwa [if_pos rfl]
    · rw [if_neg hnode]
      exact .same _ _
  cases hplanned with
  | nothing => exact .same _ _
  | registerNew hnode => exact hset hnode (.first ..)
  | @registerVacant own root empty nowMs record slot hnode hvacant hslot =>
    obtain ⟨released, hreleased⟩ := h.vacant own record hnode hvacant
    obtain ⟨-, hbefore⟩ := registerSlot_eq_ok hslot
    rw [hreleased] at hbefore
    obtain hbound | ⟨other, hother, hroot, rfl⟩ := hbefore
    · cases hbound
    · cases hother
      exact hset hnode (.reborn nowMs hvacant hreleased hroot)
  | rebind hnode hlife hslot hroot => exact hset hnode (.rebind _ hlife hslot hroot)
  | release hnode hlife hslot => exact hset hnode (.release hlife hslot)
  | vacate hnode hremoved hroot => exact hset hnode (.vacate _ hremoved hroot)
  | move => exact .same _ _
  | @converge group placement voters membership nowMs retired hgroup hretired =>
    have hsweep := @recordChange_sweep
      ((cluster.setGroup group (.live log membership (.stable voters))).retire group retired log)
      (.reportConverged group placement.since voters membership nowMs) nowMs node
    rw [node_retire] at hsweep
    exact hsweep
  | @lifecycle own change nowMs record lifecycle hnode hlife hnext =>
    set aged : NodeRecord := { lifecycle, sinceMs := nowMs, root := record.root } with haged
    have hsweep := @recordChange_sweep (cluster.setNode own aged)
      (.setNodeLifecycle own change nowMs) nowMs node
    by_cases hown : node = own
    · subst hown
      have hafter : lifecycle ≠ .vacant := by
        cases change <;> simp only [nextLifecycle] at hnext
        · split_ifs at hnext
          cases hnext
          simp
        · cases hnext
          simp
        · split_ifs at hnext
          cases hnext
          simp
      rw [hnode]
      show RecordChange node _ _ (((cluster.setNode node aged).removeRolelessDecommissioning
        nowMs).1.node node)
      rw [node_sweep, node_setNode, if_pos rfl, map_some]
      split_ifs
      · exact .aged _ hlife rfl (by simp)
      · exact .aged _ hlife rfl hafter
    · rw [node_setNode, if_neg hown] at hsweep
      exact hsweep
  | moveLimit => exact .same _ _
  | tornDown =>
    simp only [commit, node_tearDown]
    exact .same _ _

end Cluster

/-- How one entry changes a node's slot. -/
inductive SlotChange (node : NodeId) : MetaEntry → RootSlot → RootSlot → Prop
  | same (entry : MetaEntry) (slot : RootSlot) : SlotChange node entry slot slot
  | release (root : RootId) :
    SlotChange node (.command (.releaseRoot node root)) (.bound root) (.released root)
  | vacate (root : RootId) (nowMs : ℕ) :
    SlotChange node (.command (.reportRemovalComplete node root nowMs)) (.bound root)
      (.released root)
  | bind {released root : RootId} (nowMs : ℕ) (hroot : released ≠ root) :
    SlotChange node (.command (.registerNode node root true nowMs)) (.released released)
      (.bound root)

/-- A change of a record changes its slot in one of the listed ways. -/
theorem RecordChange.slotChange {node : NodeId}
    {record record' : NodeRecord} (h : RecordChange node command (some record) (some record')) :
    SlotChange node (.command command) record.root record'.root := by
  cases h with
  | same => exact .same _ _
  | reborn nowMs _ hslot hroot | rebind nowMs _ hslot hroot =>
    rw [hslot]
    exact .bind nowMs hroot
  | release hlife hslot =>
    rw [hslot]
    exact .release _
  | vacate nowMs hremoved hroot =>
    cases hslot : record.root with
    | bound bound =>
      rw [hslot] at hroot
      cases hroot
      exact .vacate bound nowMs
    | released released =>
      rw [hslot] at hroot
      cases hroot
      exact .same _ _
  | aged command hlife hroot hvacant =>
    rw [hroot]
    exact .same _ _

theorem RecordChange.isSome {node : NodeId} {record : NodeRecord}
    {after : Option NodeRecord} (h : RecordChange node command (some record) after) :
    ∃ record', after = some record' := by
  cases h <;> exact ⟨_, rfl⟩

/-- Before Bootstrap a command that is accepted changes a node's slot in one of the listed ways. -/
theorem slotChange_forming {registered : OrdMap NodeId Registration}
    {node own : NodeId} {registration changed : Registration} {applied : ControlApplied}
    (hplan : planForming registered command = .ok (.slot own changed applied))
    (hnode : registered.get? node = some registration) :
    ∃ after, (registered.insert own changed).get? node = some after ∧
      SlotChange node (.command command) registration.root after.root := by
  rw [OrdMap.get?_insert]
  by_cases hown : node = own
  · subst hown
    refine ⟨changed, if_pos rfl, ?_⟩
    cases formingPlanned_of_plan hplan with
    | bind applied hnode' hslot hroot =>
      rw [hnode] at hnode'
      cases hnode'
      rw [hslot]
      exact .bind _ hroot
    | release applied hnode' hslot =>
      rw [hnode] at hnode'
      cases hnode'
      rw [hslot]
      exact .release _
  · refine ⟨registration, ?_, .same _ _⟩
    rw [if_neg hown, hnode]

namespace ControlPlaneState

variable {state : ControlPlaneState}

/-- An entry of a bootstrapped cluster leaves a node's record, or changes it as its command does. -/
theorem node_step {cluster : Cluster} (h : cluster.Sound) (node : NodeId) (log : MetaLogId)
    (entry : MetaEntry) :
    ∃ after, (bootstrapped cluster).step (log, entry) = .bootstrapped after ∧
      (after.node node = cluster.node node ∨ ∃ command, entry = .command command ∧
        RecordChange node command (cluster.node node) (after.node node)) := by
  cases entry with
  | history cause => exact ⟨_, rfl, .inl rfl⟩
  | command command =>
    cases hplan : cluster.plan command with
    | error error => exact ⟨cluster, by simp [step, apply, hplan], .inl rfl⟩
    | ok change =>
      exact ⟨_, by simp [step, apply, hplan], .inr ⟨command, rfl,
        recordChange_commit h (planned_of_plan hplan) log node⟩⟩

section Slots

variable (h : ∀ cluster, state = .bootstrapped cluster → cluster.Sound)
include h

/-- **Slots.** An entry leaves a node's slot, releases the root it names, binds another root to a
released one, or ends the formation. -/
theorem slot_step {node : NodeId} {before : RootSlot} (hslot : state.slot node = some before)
    (log : MetaLogId) (entry : MetaEntry) :
    state.step (log, entry) = .formationCut ∨
      ∃ after, (state.step (log, entry)).slot node = some after ∧
        SlotChange node entry before after := by
  cases state with
  | formationCut => cases hslot
  | forming registered =>
    obtain ⟨registration, hregistration, rfl⟩ := map_eq_some_iff.mp hslot
    cases entry with
    | history cause =>
      cases cause with
      | genesis => exact .inr ⟨_, hslot, .same _ _⟩
      | plan => exact .inl rfl
    | command command =>
      right
      cases hplan : planForming registered command with
      | error error =>
        refine ⟨_, ?_, .same _ _⟩
        simp only [step, apply, hplan]
        exact hslot
      | ok change =>
        simp only [step, apply, hplan]
        cases change with
        | nothing applied => exact ⟨_, hslot, .same _ _⟩
        | register own root nowMs =>
          -- a registered id is not registered afresh
          have hown : node ≠ own := by
            rintro rfl
            cases formingPlanned_of_plan hplan with
            | register hnode =>
              rw [hregistration] at hnode
              cases hnode
          refine ⟨registration.root, ?_, .same _ _⟩
          simp [slot, OrdMap.get?_insert, hown, hregistration]
        | slot own changed applied =>
          obtain ⟨after, hafter, hchange⟩ := slotChange_forming hplan hregistration
          exact ⟨after.root, by simp [slot, hafter], hchange⟩
        | bootstrap params nodes nowMs =>
          refine ⟨registration.root, ?_, .same _ _⟩
          simp [slot, node_bootstrap, hregistration]
  | bootstrapped cluster =>
    right
    obtain ⟨record, hrecord, rfl⟩ := map_eq_some_iff.mp hslot
    obtain ⟨after, hstep, hsame | ⟨command, rfl, hchange⟩⟩ :=
      node_step (h cluster rfl) node log entry
    · exact ⟨record.root, by simp [hstep, slot, hsame, hrecord], .same _ _⟩
    rw [hrecord] at hchange
    obtain ⟨record', hrecord'⟩ := hchange.isSome
    rw [hrecord'] at hchange
    exact ⟨record'.root, by simp [hstep, slot, hrecord'], hchange.slotChange⟩

/-- An entry changes the record of a node in a bootstrapped state as some command does. -/
theorem record_step {node : NodeId} {before : NodeRecord}
    (hrecord : state.record node = some before) (log : MetaLogId) (entry : MetaEntry) :
    ∃ after, (state.step (log, entry)).record node = some after ∧
      (after = before ∨ ∃ command, entry = .command command ∧
        RecordChange node command (some before) (some after)) := by
  cases state with
  | formationCut => cases hrecord
  | forming registered => cases hrecord
  | bootstrapped cluster =>
    have hnode : cluster.node node = some before := hrecord
    obtain ⟨next, hstep, hsame | ⟨command, rfl, hchange⟩⟩ :=
      node_step (h cluster rfl) node log entry
    · exact ⟨before, by rw [hstep]; exact hsame.trans hnode, .inl rfl⟩
    rw [hnode] at hchange
    obtain ⟨after, hafter⟩ := hchange.isSome
    rw [hafter] at hchange
    exact ⟨after, by rw [hstep]; exact hafter, .inr ⟨command, rfl, hchange⟩⟩

end Slots

variable {entry : MetaEntry}

/-- A node without a slot gets one only by binding it. -/
theorem slot_step_of_none (h : ∀ cluster, state = .bootstrapped cluster → cluster.Sound)
    {node : NodeId} (hslot : state.slot node = none) {log : MetaLogId}
    {after : RootSlot} (hafter : (state.step (log, entry)).slot node = some after) :
    ∃ root, after = .bound root := by
  cases state with
  | formationCut => cases entry <;> cases hafter
  | forming registered =>
    have hnone : registered.get? node = none := map_eq_none_iff.mp hslot
    cases entry with
    | history cause => cases cause <;> simp [step, beginHistory, slot, hnone] at hafter
    | command command =>
      cases hplan : planForming registered command with
      | error error => simp [step, apply, hplan, slot, hnone] at hafter
      | ok change =>
        simp only [step, apply, hplan] at hafter
        cases formingPlanned_of_plan hplan with
        | nothing => simp [slot, hnone] at hafter
        | @register own root empty nowMs hnode =>
          simp only [slot, OrdMap.get?_insert] at hafter
          split_ifs at hafter
          · cases hafter
            exact ⟨root, rfl⟩
          · simp [hnone] at hafter
        | @bind own _ _ _ _ _ hnode | @release own _ _ _ hnode =>
          have hown : node ≠ own := by
            rintro rfl
            rw [hnone] at hnode
            cases hnode
          simp [slot, OrdMap.get?_insert, hown, hnone] at hafter
        | bootstrap => simp [slot, node_bootstrap, hnone] at hafter
  | bootstrapped cluster =>
    have hnone : cluster.node node = none := map_eq_none_iff.mp hslot
    obtain ⟨next, hstep, hsame | ⟨command, rfl, hchange⟩⟩ :=
      node_step (h cluster rfl) node log entry
    · simp [hstep, slot, hsame, hnone] at hafter
    rw [hstep] at hafter
    obtain ⟨record, hrecord, rfl⟩ := map_eq_some_iff.mp hafter
    rw [hnone, hrecord] at hchange
    cases hchange
    exact ⟨_, rfl⟩

/-! ## Commands that name another root -/

/-- A command that names another root than the slot leaves the state, but for a registration of an
empty root in a released slot. -/
theorem apply_of_other_root {node : NodeId} {own : RootSlot} {root : RootId}
    (hslot : state.slot node = some own) (hroot : own.root ≠ root) (log : MetaLogId) (nowMs : ℕ) :
    (state.apply log (.releaseRoot node root)).1 = state ∧
      (state.apply log (.reportRemovalComplete node root nowMs)).1 = state ∧
      ∀ empty, ((∃ bound, own = .bound bound) ∨ empty = false) →
        (state.apply log (.registerNode node root empty nowMs)).1 = state := by
  have hrelease : releaseSlot node own root = .error (.staleRoot node own) := if_neg hroot
  have hregister : ∀ empty, ((∃ bound, own = .bound bound) ∨ empty = false) →
      registerSlot node (some own) root empty = .error (.otherRoot node own) := by
    rintro empty (⟨bound, rfl⟩ | rfl)
    · exact if_neg hroot
    · cases own with
      | bound bound => exact if_neg hroot
      | released released => simp [registerSlot]
  cases state with
  | formationCut => cases hslot
  | forming registered =>
    obtain ⟨registration, hregistration, rfl⟩ := map_eq_some_iff.mp hslot
    refine ⟨?_, rfl, fun empty hempty => ?_⟩
    · simp only [apply, planForming, hregistration, hrelease]
      rfl
    · simp only [apply, planForming, hregistration, hregister empty hempty]
      rfl
  | bootstrapped cluster =>
    obtain ⟨record, hrecord, rfl⟩ := map_eq_some_iff.mp hslot
    have hknown : cluster.known node = .ok record := by
      unfold known
      rw [hrecord]
    refine ⟨?_, ?_, fun empty hempty => ?_⟩
    · simp only [apply, plan, ControlCommand.group, planCommand,
        planRelease, hknown]
      cases hlife : checkLife node record <;> simp [bind, Except.bind, hlife, hrelease]
    · simp [apply, plan, ControlCommand.group, planCommand,
        planRemovalComplete, hknown, bind, Except.bind, hroot]
    · simp only [apply, plan, ControlCommand.group, planCommand,
        planRegister, hrecord, hregister empty hempty]
      cases record.lifecycle <;> rfl

/-! ## Retirements -/

variable {group : RaftGroupId}

/-- A retirement after an entry was there before, or is the entry's. -/
theorem retirement_step {node : NodeId} {log : MetaLogId} {after : Retirement}
    (h : (state.step (log, entry)).retirement group node = some after) :
    state.retirement group node = some after ∨ after.createdAt = log := by
  obtain ⟨cluster, hcluster, hafter⟩ := bind_eq_some_iff.mp h
  have hstep : state.step (log, entry) = .bootstrapped cluster := by
    cases hstate : state.step (log, entry) with
    | bootstrapped own =>
      rw [hstate] at hcluster
      cases hcluster
      rfl
    | forming | formationCut =>
      rw [hstate] at hcluster
      cases hcluster
  obtain ⟨registered, params, nodes, nowMs, -, -, rfl⟩ | ⟨before, rfl, hcases⟩ :=
    step_eq_bootstrapped hstep
  · cases hafter
  obtain rfl | ⟨command, change, -, hplan, rfl⟩ | ⟨cause, -, rfl⟩ := hcases
  · exact .inl hafter
  · show before.retirement group node = some after ∨ _
    cases planned_of_plan hplan with
    | converge hgroup hretired =>
      simp only [commit, retirement_sweep, retirement_retire] at hafter
      split_ifs at hafter
      · cases hafter
        exact .inr rfl
      · exact .inl hafter
    | lifecycle hnode hlife hnext =>
      simp only [commit, retirement_sweep] at hafter
      split_ifs at hafter
      exact .inl hafter
    | tornDown hretirement =>
      simp only [commit, retirement_tearDown] at hafter
      split_ifs at hafter
      exact .inl hafter
    | _ => exact .inl hafter
  · cases hafter

/-- A retirement that came up in a run was created by one of its entries. -/
theorem createdAt_mem_of_none {node : NodeId} {more : List (MetaLogId × MetaEntry)}
    {after : Retirement} (hnone : state.retirement group node = none)
    (hafter : (more.foldl step state).retirement group node = some after) :
    after.createdAt ∈ more.map Prod.fst := by
  induction more using reverseRecOn generalizing after with
  | nil =>
    rw [foldl_nil, hnone] at hafter
    cases hafter
  | append_singleton more entry ih =>
    rw [foldl_append] at hafter
    rw [map_append, mem_append]
    obtain hbefore | hcreated := retirement_step hafter
    · exact .inl (ih hbefore)
    · exact .inr (by simp [hcreated])

/-- A report of another retirement than the node's leaves the state. -/
theorem apply_tornDown_of_ne {node : NodeId} {createdAt : MetaLogId}
    (h : ∀ retirement, state.retirement group node = some retirement →
      retirement.createdAt ≠ createdAt) (log : MetaLogId) :
    (state.apply log (.reportTornDown group node createdAt)).1 = state := by
  cases state with
  | formationCut | forming => rfl
  | bootstrapped cluster =>
    cases hplan : cluster.plan (.reportTornDown group node createdAt) with
    | error error => simp only [apply, hplan]
    | ok change =>
      simp only [apply, hplan]
      cases planned_of_plan hplan with
      | nothing => rfl
      | tornDown hretirement => exact absurd rfl (h _ hretirement)

/-! ## Roles -/

/-- A node that an entry gives a role in a group is in a life, and the entry is an accepted move or
converge of the group. -/
theorem role_step {cluster : Cluster} (hsound : cluster.Sound) {node : NodeId} {log : MetaLogId}
    (hnone : cluster.role group node = none)
    (hafter : ((bootstrapped cluster).step (log, entry)).role group node ≠ none) :
    cluster.Alive node ∧ (∀ cause, entry ≠ .history cause) ∧
      MovesKey (.bootstrapped cluster) log group entry := by
  have hbefore : ∀ placement, cluster.group group = some placement → node ∉ placement.holders := by
    intro placement hgroup hnode
    have hrole := role_isSome_iff.mpr ⟨placement, hgroup, hnode⟩
    rw [hnone] at hrole
    cases hrole
  cases entry with
  | history cause =>
    refine absurd ?_ hafter
    by_contra hrole
    obtain ⟨placement, hgroup, hnode⟩ :=
      (@role_isSome_iff (rebase cluster log)).mp (isSome_iff_ne_none.mpr hrole)
    rw [group_rebase] at hgroup
    obtain ⟨before, hown, rfl⟩ := map_eq_some_iff.mp hgroup
    rw [GroupPlacement.holders_withSince] at hnode
    exact hbefore before hown hnode
  | command command =>
    cases hplan : cluster.plan command with
    | error error =>
      simp only [step, apply, hplan] at hafter
      exact absurd hnone hafter
    | ok change =>
      have hplanned := planned_of_plan hplan
      have hrole : (cluster.commit log change).1.role group node ≠ none := by
        simp only [step, apply, hplan] at hafter
        exact hafter
      obtain ⟨placement, hgroup, hnode⟩ :=
        role_isSome_iff.mp (isSome_iff_ne_none.mpr hrole)
      obtain hsame | ⟨-, hcommand⟩ := group_commit hplanned log group
      · rw [hsame] at hgroup
        exact absurd hnode (hbefore placement hgroup)
      -- the command is no registration, so the node was in a life before it
      have halive : cluster.Alive node := by
        obtain ⟨record, hrecord, hlife⟩ :=
          (hsound.commit hplanned log).holders group placement hgroup node hnode
        have hchange := recordChange_commit hsound hplanned log node
        rw [hrecord] at hchange
        generalize hown : cluster.node node = own at hchange
        obtain ⟨expected, toVoters, nowMs, rfl⟩ | ⟨since, voters, membership, nowMs, rfl⟩ :=
          hcommand
        all_goals
          cases hchange with
          | same => exact ⟨record, hown, hlife⟩
          | aged _ hbefore => exact ⟨_, hown, hbefore⟩
      have haccepted : ((bootstrapped cluster).apply log command).2 =
          .ok (cluster.commit log change).2 := by
        simp only [apply, hplan]
      refine ⟨halive, by simp, ?_⟩
      obtain ⟨expected, toVoters, nowMs, rfl⟩ | ⟨since, voters, membership, nowMs, rfl⟩ := hcommand
      · exact .move expected toVoters nowMs _ haccepted
      · exact .converge since voters membership nowMs _ haccepted

end ControlPlaneState

/-! ## Two moments of a run -/

open ControlPlaneState

/-- Between two moments of a run the root a node was bound to was released. -/
def ReleasedBetween (log mid : List (MetaLogId × MetaEntry)) (node : NodeId) (root : RootId) :
    Prop :=
  ∃ before entry after, mid = before ++ entry :: after ∧
    (replay (log ++ before)).slot node = some (.bound root) ∧
    (replay (log ++ (before ++ [entry]))).slot node = some (.released root)

/-- Between two moments of a run a node in a life was given a role in a group, by an accepted move
or converge of the group. -/
def RoleGivenBetween (log mid : List (MetaLogId × MetaEntry)) (group : RaftGroupId)
    (node : NodeId) : Prop :=
  ∃ before id entry after lifecycle, mid = before ++ (id, entry) :: after ∧
    (replay (log ++ before)).lifecycle node = some lifecycle ∧ lifecycle.hasLife = true ∧
    (replay (log ++ before)).role group node = none ∧
    (replay (log ++ (before ++ [(id, entry)]))).role group node ≠ none ∧
    (∀ cause, entry ≠ .history cause) ∧ MovesKey (replay (log ++ before)) id group entry

variable {log mid late : List (MetaLogId × MetaEntry)} {node : NodeId} {group : RaftGroupId}

theorem foldl_step_formationCut (more : List (MetaLogId × MetaEntry)) :
    more.foldl step .formationCut = .formationCut := by
  induction more with
  | nil => rfl
  | cons entry rest ih =>
    obtain ⟨id, command | cause⟩ := entry <;> exact ih

theorem foldl_step_bootstrapped {cluster : Cluster} (more : List (MetaLogId × MetaEntry)) :
    ∃ after, more.foldl step (.bootstrapped cluster) = .bootstrapped after := by
  induction more generalizing cluster with
  | nil => exact ⟨cluster, rfl⟩
  | cons entry rest ih =>
    obtain ⟨id, command | cause⟩ := entry
    · cases hplan : cluster.plan command <;> simpa [step, apply, hplan] using ih
    · exact ih

/-- A slot that left a bound root released it. -/
theorem releasedBetween_of_ne {root : RootId} {after : RootSlot}
    (hbound : (replay log).slot node = some (.bound root))
    (hafter : (replay (log ++ mid)).slot node = some after) (hne : after ≠ .bound root) :
    ReleasedBetween log mid node root := by
  rw [replay_append] at hafter
  obtain ⟨before, ⟨id, entry⟩, rest, rfl, hstill, hchanged⟩ :=
    @exists_step_of_foldl _ _ step (fun state => state.slot node ≠ some (.bound root))
      (replay log) mid (not_not.mpr hbound) (by rw [hafter]; simpa using hne)
  rw [not_not, ← replay_append] at hstill
  refine ⟨before, (id, entry), rest, rfl, hstill, ?_⟩
  rw [← replay_append, ← append_assoc, replay_append] at hchanged
  rw [← append_assoc, replay_append]
  obtain hcut | ⟨slot, hslot, hchange⟩ :=
    slot_step (fun cluster => sound_replay _) hstill id entry
  · -- a formation that ended has no slot left
    rw [foldl_append, foldl_cons, ← replay_append, hcut, foldl_step_formationCut] at hafter
    cases hafter
  · cases hchange with
    | same => exact absurd hslot hchanged
    | release => exact hslot
    | vacate => exact hslot

/-- A released slot was released by an entry of the run. -/
theorem releasedBetween_of_released {root : RootId}
    (h : (replay log).slot node = some (.released root)) :
    ReleasedBetween [] log node root := by
  obtain ⟨before, ⟨id, entry⟩, rest, rfl, hnot, hreleased⟩ :=
    @exists_step_of_foldl _ _ step (fun state => state.slot node = some (.released root))
      new log (by simp [new, slot]) h
  refine ⟨before, (id, entry), rest, rfl, ?_, hreleased⟩
  rw [foldl_append] at hreleased
  show (before.foldl step new).slot node = _
  cases hslot : (before.foldl step new).slot node with
  | none =>
    obtain ⟨bound, hbound⟩ :=
      slot_step_of_none (fun cluster => sound_replay before) hslot hreleased
    cases hbound
  | some slot =>
    obtain hcut | ⟨after, hafter, hchange⟩ :=
      slot_step (fun cluster => sound_replay before) hslot id entry
    · have hcut' : [(id, entry)].foldl step (before.foldl step new) = .formationCut := hcut
      rw [hcut'] at hreleased
      cases hreleased
    · have hsame : after = .released root := some_inj.mp (hafter.symm.trans hreleased)
      subst hsame
      cases hchange with
      | same => exact absurd hslot hnot
      | release => rfl
      | vacate => rfl

/-- A vacant id has a released slot, no role and no retirement. -/
theorem vacant_slot (h : (replay log).lifecycle node = some .vacant) :
    ∃ cluster released, replay log = .bootstrapped cluster ∧
      (replay log).slot node = some (.released released) ∧ ¬ cluster.Alive node := by
  obtain ⟨record, hrecord, hvacant⟩ := map_eq_some_iff.mp h
  cases hstate : replay log with
  | forming | formationCut =>
    rw [hstate] at hrecord
    cases hrecord
  | bootstrapped cluster =>
    rw [hstate] at hrecord
    have hnode : cluster.node node = some record := hrecord
    obtain ⟨released, hreleased⟩ := (sound_replay log hstate).vacant node record hnode hvacant
    refine ⟨cluster, released, rfl, ?_, ?_⟩
    · show (cluster.node node).map NodeRecord.root = _
      rw [hnode, map_some, hreleased]
    · rintro ⟨own, hown, hlife⟩
      rw [hnode] at hown
      cases hown
      rw [hvacant] at hlife
      cases hlife

theorem slot_of_record {state : ControlPlaneState} {record : NodeRecord}
    (h : state.record node = some record) : state.slot node = some record.root := by
  cases state with
  | forming | formationCut => cases h
  | bootstrapped cluster =>
    have hnode : cluster.node node = some record := h
    show (cluster.node node).map NodeRecord.root = _
    rw [hnode, map_some]

section Entry

variable {id : MetaLogId} {entry : MetaEntry}

/-- An entry after which a node id stands elsewhere changed its record. -/
theorem record_left {life : NodeLifecycle} (h : (replay log).lifecycle node = some life)
    (hleft : (replay (log ++ [(id, entry)])).lifecycle node ≠ some life) :
    ∃ record after command, entry = .command command ∧ (replay log).record node = some record ∧
      record.lifecycle = life ∧ (replay (log ++ [(id, entry)])).record node = some after ∧
      RecordChange node command (some record) (some after) ∧ after.lifecycle ≠ life := by
  obtain ⟨record, hrecord, hlifecycle⟩ := map_eq_some_iff.mp h
  obtain ⟨after, hafter, hcases⟩ := record_step (fun cluster => sound_replay log) hrecord id entry
  rw [replay_append] at hleft ⊢
  have hlife : after.lifecycle ≠ life := fun hstate => hleft (by simp [lifecycle, hafter, hstate])
  obtain rfl | ⟨command, rfl, hchange⟩ := hcases
  · exact absurd hlifecycle hlife
  · exact ⟨record, after, command, rfl, hrecord, hlifecycle, hafter, hchange, hlife⟩

theorem leaves_removed (hremoved : (replay log).lifecycle node = some .removed)
    (hleft : (replay (log ++ [(id, entry)])).lifecycle node ≠ some .removed) :
    ∃ root nowMs, entry = .command (.reportRemovalComplete node root nowMs) ∧
      ((replay log).slot node).map RootSlot.root = some root ∧
      (replay (log ++ [(id, entry)])).record node =
        some { lifecycle := .vacant, sinceMs := nowMs, root := .released root } := by
  obtain ⟨record, after, command, rfl, hrecord, hlifecycle, hafter, hchange, hlife⟩ :=
    record_left hremoved hleft
  cases hchange with
  | same => exact absurd hlifecycle hlife
  | reborn nowMs hvacant => simp [hlifecycle] at hvacant
  | rebind _ hlife' | release hlife' | aged _ hlife' =>
    simp [hlifecycle, NodeLifecycle.hasLife] at hlife'
  | @vacate root nowMs _ hremoved' hroot =>
    refine ⟨root, nowMs, rfl, ?_, hafter⟩
    rw [slot_of_record hrecord, map_some, hroot]

theorem leaves_vacant (hvacant : (replay log).lifecycle node = some .vacant)
    (hleft : (replay (log ++ [(id, entry)])).lifecycle node ≠ some .vacant) :
    ∃ released root nowMs, (replay log).slot node = some (.released released) ∧
      released ≠ root ∧ entry = .command (.registerNode node root true nowMs) ∧
      (replay (log ++ [(id, entry)])).record node =
        some { lifecycle := .active, sinceMs := nowMs, root := .bound root } := by
  obtain ⟨record, after, command, rfl, hrecord, hlifecycle, hafter, hchange, hlife⟩ :=
    record_left hvacant hleft
  cases hchange with
  | same => exact absurd hlifecycle hlife
  | @reborn root released nowMs _ hvacant' hslot hroot =>
    refine ⟨released, root, nowMs, ?_, hroot, rfl, hafter⟩
    rw [slot_of_record hrecord, hslot]
  | rebind _ hlife' | release hlife' | aged _ hlife' =>
    simp [hlifecycle, NodeLifecycle.hasLife] at hlife'
  | vacate nowMs hremoved => simp [hlifecycle] at hremoved

/-- The slot after an entry, where there is one, changed in one of the listed ways. -/
theorem slotChange_of_entry {before after : RootSlot}
    (hbefore : (replay log).slot node = some before)
    (hafter : (replay (log ++ [(id, entry)])).slot node = some after) :
    SlotChange node entry before after := by
  rw [replay_append] at hafter
  obtain hcut | ⟨slot, hslot, hchange⟩ :=
    slot_step (fun cluster => sound_replay log) hbefore id entry
  · rw [foldl_cons, foldl_nil, hcut] at hafter
    cases hafter
  · have hsame : slot = after := some_inj.mp (hslot.symm.trans hafter)
    exact hsame ▸ hchange

end Entry

/-- Once an id was vacant, the root it was bound to before was released. -/
theorem released_of_vacant {slot : RootSlot} (hslot : (replay log).slot node = some slot)
    (hvacant : (replay (log ++ mid)).lifecycle node = some .vacant)
    (late : List (MetaLogId × MetaEntry)) :
    ReleasedBetween log (mid ++ late) node slot.root ∨ ReleasedBetween [] log node slot.root := by
  cases slot with
  | released root => exact .inr (releasedBetween_of_released hslot)
  | bound root =>
    obtain ⟨cluster, released, -, hreleased, -⟩ := vacant_slot hvacant
    obtain ⟨before, entry, after, rfl, hbefore, hafter⟩ :=
      releasedBetween_of_ne hslot hreleased (by simp)
    exact .inl ⟨before, entry, after ++ late, by simp, hbefore, hafter⟩

/-- Once an id was vacant, its earlier retirements have other entries than its later ones. -/
theorem createdAt_ne_of_vacant {retirement after : Retirement}
    (hsorted : ((log ++ mid ++ late).map Prod.fst).Pairwise (· < ·))
    (hvacant : (replay (log ++ mid)).lifecycle node = some .vacant)
    (hretirement : (replay log).retirement group node = some retirement)
    (hafter : (replay (log ++ mid ++ late)).retirement group node = some after) :
    after.createdAt ≠ retirement.createdAt := by
  obtain ⟨cluster, released, hstate, -, halive⟩ := vacant_slot hvacant
  have hnone : (replay (log ++ mid)).retirement group node = none := by
    cases hown : (replay (log ++ mid)).retirement group node with
    | none => rfl
    | some own =>
      rw [hstate] at hown
      exact absurd ((sound_replay _ hstate).retired group node own hown).1 halive
  rw [replay_append] at hafter
  have hlate := createdAt_mem_of_none hnone hafter
  have hearly : retirement.createdAt ∈ log.map Prod.fst :=
    @createdAt_mem_of_none new group node log retirement rfl hretirement
  rw [map_append, pairwise_append] at hsorted
  exact (hsorted.2.2 _ (by rw [map_append]; exact mem_append_left _ hearly) _ hlate).ne'

/-- Once an id was vacant, every role it has was given to it since. -/
theorem roleGivenBetween_of_vacant (hvacant : (replay log).lifecycle node = some .vacant)
    (hrole : (replay (log ++ late)).role group node ≠ none) :
    RoleGivenBetween log late group node := by
  obtain ⟨cluster, released, hstate, -, halive⟩ := vacant_slot hvacant
  have hnone : ¬ (replay log).role group node ≠ none := by
    rw [hstate]
    intro hown
    obtain ⟨placement, hgroup, hnode⟩ :=
      (@role_isSome_iff cluster group node).mp (isSome_iff_ne_none.mpr hown)
    exact halive ((sound_replay _ hstate).holders group placement hgroup node hnode)
  rw [replay_append] at hrole
  obtain ⟨before, ⟨id, entry⟩, after, rfl, hbefore, hgiven⟩ :=
    @exists_step_of_foldl _ _ step (fun state => state.role group node ≠ none) (replay log)
      late hnone hrole
  obtain ⟨own, hown⟩ := @foldl_step_bootstrapped cluster before
  have hreplay : replay (log ++ before) = .bootstrapped own := by
    rw [replay_append, hstate, hown]
  rw [not_not, ← replay_append] at hbefore
  rw [← replay_append] at hgiven
  have hstep : ((bootstrapped own).step (id, entry)).role group node ≠ none := by
    rw [← append_assoc, replay_append, hreplay] at hgiven
    exact hgiven
  have hownRole : own.role group node = none := by
    rw [hreplay] at hbefore
    exact hbefore
  obtain ⟨⟨record, hrecord, hlife⟩, hcommand, hmoves⟩ :=
    role_step (sound_replay _ hreplay) hownRole hstep
  refine ⟨before, id, entry, after, record.lifecycle, rfl, ?_, hlife, hbefore, hgiven, hcommand,
    by rwa [hreplay]⟩
  rw [hreplay]
  show (own.node node).map NodeRecord.lifecycle = _
  rw [hrecord, map_some]

/-- **A removed life of a node id never comes back.** At every entry of a run: an id leaves
`removed` only by the removal report of the root its slot names, and is then vacant with that root
released; it leaves `vacant` only by a registration of an empty root other than the released one,
as a fresh active record; a bound slot is only released, and a released one only bound to another,
empty root. Between two moments at which the slot is bound to different roots, or between which the
id was vacant, the first root was released. A command that names another root than the slot does
changes nothing, unless it registers an empty root in a released slot. Once the id was vacant, a
teardown report of a retirement from before changes nothing, and every role of the id was given
after it by a command, while the id was in a life. -/
theorem removed_life_never_returns (log : List (MetaLogId × MetaEntry)) (node : NodeId) :
    (∀ id entry,
      ((replay log).lifecycle node = some .removed →
        (replay (log ++ [(id, entry)])).lifecycle node ≠ some .removed →
        ∃ root nowMs, entry = .command (.reportRemovalComplete node root nowMs) ∧
          ((replay log).slot node).map RootSlot.root = some root ∧
          (replay (log ++ [(id, entry)])).record node =
            some { lifecycle := .vacant, sinceMs := nowMs, root := .released root }) ∧
      ((replay log).lifecycle node = some .vacant →
        (replay (log ++ [(id, entry)])).lifecycle node ≠ some .vacant →
        ∃ released root nowMs, (replay log).slot node = some (.released released) ∧
          released ≠ root ∧ entry = .command (.registerNode node root true nowMs) ∧
          (replay (log ++ [(id, entry)])).record node =
            some { lifecycle := .active, sinceMs := nowMs, root := .bound root }) ∧
      (∀ root after, (replay log).slot node = some (.bound root) →
        (replay (log ++ [(id, entry)])).slot node = some after → after ≠ .bound root →
        after = .released root) ∧
      ∀ released after, (replay log).slot node = some (.released released) →
        (replay (log ++ [(id, entry)])).slot node = some after → after ≠ .released released →
        ∃ root nowMs, after = .bound root ∧ released ≠ root ∧
          entry = .command (.registerNode node root true nowMs)) ∧
    (∀ mid root root', (replay log).slot node = some (.bound root) →
      (replay (log ++ mid)).slot node = some (.bound root') → root ≠ root' →
      ReleasedBetween log mid node root) ∧
    (∀ mid late slot, (replay log).slot node = some slot →
      (replay (log ++ mid)).lifecycle node = some .vacant →
      ReleasedBetween log (mid ++ late) node slot.root ∨ ReleasedBetween [] log node slot.root) ∧
    (∀ own root, (replay log).slot node = some own → own.root ≠ root → ∀ id nowMs,
      ((replay log).apply id (.releaseRoot node root)).1 = replay log ∧
      ((replay log).apply id (.reportRemovalComplete node root nowMs)).1 = replay log ∧
      ∀ empty, ((∃ bound, own = .bound bound) ∨ empty = false) →
        ((replay log).apply id (.registerNode node root empty nowMs)).1 = replay log) ∧
    (∀ mid late, ((log ++ mid ++ late).map Prod.fst).Pairwise (· < ·) →
      (replay (log ++ mid)).lifecycle node = some .vacant → ∀ group retirement,
      (replay log).retirement group node = some retirement → ∀ id,
        ((replay (log ++ mid ++ late)).apply id
          (.reportTornDown group node retirement.createdAt)).1 = replay (log ++ mid ++ late)) ∧
    (∀ late group, (replay log).lifecycle node = some .vacant →
      (replay (log ++ late)).role group node ≠ none → RoleGivenBetween log late group node) := by
  refine ⟨fun id entry => ⟨leaves_removed, leaves_vacant, ?_, ?_⟩, ?_, ?_, ?_, ?_, ?_⟩
  · intro root after hbound hafter hne
    cases slotChange_of_entry hbound hafter with
    | same => exact absurd rfl hne
    | release => rfl
    | vacate => rfl
  · intro released after hreleased hafter hne
    cases slotChange_of_entry hreleased hafter with
    | same => exact absurd rfl hne
    | @bind _ root nowMs hroot => exact ⟨root, nowMs, rfl, hroot, rfl⟩
  · intro mid root root' hbound hbound' hne
    exact releasedBetween_of_ne hbound hbound' (by simpa using hne.symm)
  · intro mid late slot hslot hvacant
    exact released_of_vacant hslot hvacant late
  · intro own root hslot hroot id nowMs
    exact apply_of_other_root hslot hroot id nowMs
  · intro mid late hsorted hvacant group retirement hretirement id
    exact apply_tornDown_of_ne
      (fun after hafter => createdAt_ne_of_vacant hsorted hvacant hretirement hafter) id
  · intro late group hvacant hrole
    exact roleGivenBetween_of_vacant hvacant hrole

/-- A node's disk is replaced twice, and the second root is released too. -/
def sampleReplacedLog : List (MetaLogId × MetaEntry) :=
  [(⟨1, 1, 1⟩, .history .genesis),
    (⟨1, 1, 2⟩, .command (.registerNode 1 11 true 0)),
    (⟨1, 1, 3⟩, .command (.bootstrap
      { groupCount := ⟨1, Nat.one_pos⟩, replicationFactor := ⟨1, Nat.one_pos⟩
        metaVoters := .single 1, maxConcurrentMoves := 1 }
      (.single 1) 0)),
    (⟨1, 1, 4⟩, .command (.releaseRoot 1 11)),
    (⟨1, 1, 5⟩, .command (.registerNode 1 12 true 0)),
    (⟨1, 1, 6⟩, .command (.releaseRoot 1 12))]

/-- One slot remembers only the latest release: a registration that was sent for an earlier root,
while that root was empty, binds it again once the later root is released. -/
theorem earlier_root_binds_again :
    (replay (sampleReplacedLog.take 3)).slot 1 = some (.bound 11) ∧
      (replay (sampleReplacedLog.take 5)).slot 1 = some (.bound 12) ∧
      (replay sampleReplacedLog).slot 1 = some (.released 12) ∧
      ((replay sampleReplacedLog).apply ⟨1, 1, 7⟩ (.registerNode 1 11 true 0)).1.slot 1 =
        some (.bound 11) := by
  decide +kernel

end Ursula.Control

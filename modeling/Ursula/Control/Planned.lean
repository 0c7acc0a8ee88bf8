import Ursula.Control.Apply
import Ursula.Lib.Checks

/-!
# What an accepted command writes

`Planned` lists the changes the dispatcher plans, each with what its checks established, and the
frame lemmas say what committing each part of a change makes of the nodes, the placements and the
retirements.

## Main definitions

* `GroupPlacement.holders`: the nodes with a role in a placement
* `Cluster.Alive`: a node id is in a life
* `Planned`, `FormingPlanned`: the changes a command may be planned as, after Bootstrap and before

## Main results

* `Cluster.planned_of_plan`, `formingPlanned_of_plan`: a planned change is one of them
* `Cluster.retirement_retire`, `Cluster.retirement_tearDown`, `Cluster.retirement_sweep`: the
  retirements after each part of a commit
-/

namespace Ursula.Control

open Checks

/-! ## Roles -/

/-- The nodes with a role in a placement. -/
def GroupPlacement.holders : GroupPlacement → Finset NodeId
  | .seeded _ voters _ => voters.nodes
  | .live _ _ (.stable voters) => voters.nodes
  | .live _ _ (.moving moving) =>
    moving.fromVoters.nodes ∪ moving.toVoters.nodes ∪ moving.abandoned

namespace GroupPlacement

theorem role_isSome_iff {placement : GroupPlacement} {node : NodeId} :
    (placement.role node).isSome ↔ node ∈ placement.holders := by
  rcases placement with ⟨since, voters, init⟩ | ⟨since, at_, voters | moving⟩
  · by_cases h : node ∈ voters <;> simp [role, holders, h]
  · by_cases h : node ∈ voters <;> simp [role, holders, h]
  · by_cases hfrom : node ∈ moving.fromVoters <;> by_cases hto : node ∈ moving.toVoters <;>
      by_cases habandoned : node ∈ moving.abandoned <;>
      simp [role, Move.role, holders, hfrom, hto, habandoned]

theorem currentVoters_subset_holders (placement : GroupPlacement) :
    placement.currentVoters.nodes ⊆ placement.holders := by
  rcases placement with ⟨since, voters, init⟩ | ⟨since, at_, voters | moving⟩
  · exact Finset.Subset.refl _
  · exact Finset.Subset.refl _
  · exact Finset.subset_union_left.trans Finset.subset_union_left

theorem targetVoters_subset_holders (placement : GroupPlacement) :
    placement.targetVoters.nodes ⊆ placement.holders := by
  rcases placement with ⟨since, voters, init⟩ | ⟨since, at_, voters | moving⟩
  · exact Finset.Subset.refl _
  · exact Finset.Subset.refl _
  · exact Finset.subset_union_right.trans Finset.subset_union_left

@[simp] theorem since_withSince (key : PlacementEpoch) (placement : GroupPlacement) :
    (placement.withSince key).since = key := by
  cases placement <;> rfl

@[simp] theorem holders_withSince (key : PlacementEpoch) (placement : GroupPlacement) :
    (placement.withSince key).holders = placement.holders := by
  rcases placement with ⟨since, voters, init⟩ | ⟨since, at_, voters | moving⟩ <;> rfl

end GroupPlacement

namespace Cluster

variable {cluster : Cluster}

theorem role_isSome_iff {group : RaftGroupId} {node : NodeId} :
    (cluster.role group node).isSome ↔
      ∃ placement, cluster.group group = some placement ∧ node ∈ placement.holders := by
  unfold role
  cases h : cluster.group group with
  | none => simp
  | some placement => simpa using GroupPlacement.role_isSome_iff

theorem hasAnyRole_iff {node : NodeId} :
    cluster.hasAnyRole node = true ↔
      ∃ group placement, cluster.group group = some placement ∧ node ∈ placement.holders := by
  unfold hasAnyRole
  rw [List.any_eq_true]
  constructor
  · rintro ⟨placement, hmem, hrole⟩
    obtain ⟨group, hgroup⟩ := (cluster.groups.mem_values placement).mp hmem
    exact ⟨group, placement, hgroup, GroupPlacement.role_isSome_iff.mp hrole⟩
  · rintro ⟨group, placement, hgroup, hnode⟩
    exact ⟨placement, (cluster.groups.mem_values placement).mpr ⟨group, hgroup⟩,
      GroupPlacement.role_isSome_iff.mpr hnode⟩

/-- Whether a node is registered and has a life. -/
def Alive (cluster : Cluster) (node : NodeId) : Prop :=
  ∃ record, cluster.node node = some record ∧ record.lifecycle.hasLife = true

theorem known_eq_ok {node : NodeId} {record : NodeRecord} (h : cluster.known node = .ok record) :
    cluster.node node = some record := by
  unfold known at h
  cases hnode : cluster.node node with
  | none => simp [hnode] at h
  | some found => simpa [hnode] using h

theorem existing_eq_ok {group : RaftGroupId} {placement : GroupPlacement}
    (h : cluster.existing group = .ok placement) : cluster.group group = some placement := by
  unfold existing at h
  cases hgroup : cluster.group group with
  | none => simp [hgroup] at h
  | some found => simpa [hgroup] using h

end Cluster

theorem checkLife_eq_ok_iff {node : NodeId} {record : NodeRecord} :
    checkLife node record = .ok () ↔ record.lifecycle.hasLife = true := by
  unfold checkLife
  cases record.lifecycle <;> simp [NodeLifecycle.hasLife]

variable {root : RootId}

/-- The slot after an accepted registration: its own root stays bound, and a released slot binds an
empty root other than the released one. -/
theorem registerSlot_eq_ok {node : NodeId} {before slot : RootSlot} {empty : Bool}
    (h : registerSlot node (some before) root empty = .ok slot) :
    slot = .bound root ∧
      (before = .bound root ∨ ∃ released, before = .released released ∧ released ≠ root ∧
        empty = true) := by
  cases before with
  | bound bound =>
    simp only [registerSlot] at h
    split_ifs at h with hroot
    cases h
    exact ⟨rfl, .inl (by rw [hroot])⟩
  | released released =>
    simp only [registerSlot] at h
    split_ifs at h with hroot
    cases h
    exact ⟨rfl, .inr ⟨released, rfl, hroot.1, hroot.2⟩⟩

theorem releaseSlot_eq_ok {node : NodeId} {before slot : RootSlot}
    (h : releaseSlot node before root = .ok slot) : slot = .released root ∧ before.root = root := by
  unfold releaseSlot at h
  split_ifs at h with hroot
  cases h
  exact ⟨rfl, hroot⟩

/-! ## Planned changes -/

/-- The changes a command may be planned as before Bootstrap. -/
inductive FormingPlanned (registered : OrdMap NodeId Registration) :
    ControlCommand → FormingChange → Prop
  | nothing (command : ControlCommand) (applied : ControlApplied) :
    FormingPlanned registered command (.nothing applied)
  | register {node : NodeId} {root : RootId} {empty : Bool} {nowMs : ℕ}
      (hnode : registered.get? node = none) :
    FormingPlanned registered (.registerNode node root empty nowMs) (.register node root nowMs)
  | bind {node : NodeId} {root released : RootId} {nowMs : ℕ} {registration : Registration}
      (applied : ControlApplied) (hnode : registered.get? node = some registration)
      (hslot : registration.root = .released released) (hroot : released ≠ root) :
    FormingPlanned registered (.registerNode node root true nowMs)
      (.slot node { registration with root := .bound root } applied)
  | release {node : NodeId} {root : RootId} {registration : Registration}
      (applied : ControlApplied) (hnode : registered.get? node = some registration)
      (hslot : registration.root = .bound root) :
    FormingPlanned registered (.releaseRoot node root)
      (.slot node { registration with root := .released root } applied)
  | bootstrap {params : ClusterParams} {nodes : NodeSet} {nowMs : ℕ}
      (hcheck : checkBootstrap registered params nodes = .ok ()) :
    FormingPlanned registered (.bootstrap params nodes nowMs) (.bootstrap params nodes nowMs)

/-- A release of another slot than the released one finds the root bound. -/
theorem eq_bound_of_release {slot : RootSlot} (hroot : slot.root = root)
    (hslot : ¬ RootSlot.released root = slot) : slot = .bound root := by
  cases slot with
  | bound bound => exact congrArg RootSlot.bound hroot
  | released released => exact absurd (congrArg RootSlot.released hroot.symm) hslot

/-- **Inversion.** A change planned before Bootstrap is one of those listed. -/
theorem formingPlanned_of_plan {registered : OrdMap NodeId Registration} {command : ControlCommand}
    {change : FormingChange} (h : planForming registered command = .ok change) :
    FormingPlanned registered command change := by
  cases command with
  | registerNode node root empty nowMs =>
    simp only [planForming] at h
    cases hnode : registered.get? node with
    | none =>
      rw [hnode] at h
      cases h
      exact .register hnode
    | some registration =>
      rw [hnode] at h
      obtain ⟨slot, hslot, hchange⟩ := bind_eq_ok h
      obtain ⟨rfl, hbefore⟩ := registerSlot_eq_ok hslot
      cases hchange
      unfold FormingChange.ofSlot
      split_ifs with hsame
      · exact .nothing _ _
      · obtain hbound | ⟨released, hreleased, hroot, rfl⟩ := hbefore
        · exact absurd hbound.symm hsame
        · exact .bind _ hnode hreleased hroot
  | releaseRoot node root =>
    simp only [planForming] at h
    cases hnode : registered.get? node with
    | none =>
      rw [hnode] at h
      cases h
    | some registration =>
      rw [hnode] at h
      obtain ⟨slot, hslot, hchange⟩ := bind_eq_ok h
      obtain ⟨rfl, hroot⟩ := releaseSlot_eq_ok hslot
      cases hchange
      unfold FormingChange.ofSlot
      split_ifs with hsame
      · exact .nothing _ _
      · exact .release _ hnode (eq_bound_of_release hroot hsame)
  | bootstrap params nodes nowMs =>
    obtain ⟨_, hcheck, hchange⟩ := bind_eq_ok h
    cases hchange
    exact .bootstrap hcheck
  | _ => cases h

/-- The changes a command may be planned as, each with what its checks established. -/
inductive Planned (cluster : Cluster) : ControlCommand → Change → Prop
  | nothing (command : ControlCommand) (applied : ControlApplied) :
    Planned cluster command (.nothing applied)
  | registerNew {node : NodeId} {root : RootId} {empty : Bool} {nowMs : ℕ}
      (hnode : cluster.node node = none) :
    Planned cluster (.registerNode node root empty nowMs) (.register node root nowMs)
  | registerVacant {node : NodeId} {root : RootId} {empty : Bool} {nowMs : ℕ} {record : NodeRecord}
      {slot : RootSlot} (hnode : cluster.node node = some record)
      (hvacant : record.lifecycle = .vacant)
      (hslot : registerSlot node (some record.root) root empty = .ok slot) :
    Planned cluster (.registerNode node root empty nowMs) (.register node root nowMs)
  | rebind {node : NodeId} {root released : RootId} {nowMs : ℕ} {record : NodeRecord}
      (hnode : cluster.node node = some record) (hlife : record.lifecycle.hasLife = true)
      (hslot : record.root = .released released) (hroot : released ≠ root) :
    Planned cluster (.registerNode node root true nowMs)
      (.rebind node { record with root := .bound root })
  | release {node : NodeId} {root : RootId} {record : NodeRecord}
      (hnode : cluster.node node = some record) (hlife : record.lifecycle.hasLife = true)
      (hslot : record.root = .bound root) :
    Planned cluster (.releaseRoot node root) (.release node { record with root := .released root })
  | vacate {node : NodeId} {root : RootId} {nowMs : ℕ} {record : NodeRecord}
      (hnode : cluster.node node = some record) (hremoved : record.lifecycle = .removed)
      (hroot : record.root.root = root) :
    Planned cluster (.reportRemovalComplete node root nowMs)
      (.vacate node { lifecycle := .vacant, sinceMs := nowMs, root := .released root })
  | move {group : RaftGroupId} {since : PlacementEpoch} {toVoters : VoterSet} {nowMs : ℕ}
      {convergedAt : MembershipLogId} {target : Target} {moving : Move}
      (hgroup : cluster.group group = some (.live since convergedAt target))
      (hlen : toVoters.len = (GroupPlacement.live since convergedAt target).targetVoters.len)
      (htargets : ∀ node ∈ toVoters, cluster.checkTarget group
        (GroupPlacement.live since convergedAt target).currentVoters node = .ok ())
      (hmoving : cluster.moveFrom group toVoters nowMs target = .ok moving) :
    Planned cluster (.requestMove group since toVoters nowMs) (.move group convergedAt moving)
  | converge {group : RaftGroupId} {placement : GroupPlacement} {voters : VoterSet}
      {membership : MembershipLogId} {nowMs : ℕ} {retired : Finset NodeId}
      (hgroup : cluster.group group = some placement)
      (hretired : cluster.retiredBy group voters placement = .ok retired) :
    Planned cluster (.reportConverged group placement.since voters membership nowMs)
      (.converge group membership voters retired nowMs)
  | lifecycle {node : NodeId} {change : LifecycleChange} {nowMs : ℕ} {record : NodeRecord}
      {lifecycle : NodeLifecycle} (hnode : cluster.node node = some record)
      (hlife : record.lifecycle.hasLife = true)
      (hnext : cluster.nextLifecycle node record.lifecycle change = .ok lifecycle) :
    Planned cluster (.setNodeLifecycle node change nowMs)
      (.lifecycle node { lifecycle, sinceMs := nowMs, root := record.root })
  | moveLimit (limit : ℕ) : Planned cluster (.setMoveLimit limit) (.moveLimit limit)
  | tornDown {group : RaftGroupId} {node : NodeId} {createdAt : MetaLogId}
      (hretirement : cluster.retirement group node = some ⟨createdAt⟩) :
    Planned cluster (.reportTornDown group node createdAt) (.tornDown group node)

namespace Cluster

variable {cluster : Cluster} {change : Change}

variable {node : NodeId} {nowMs : ℕ}

theorem planned_register {empty : Bool}
    (h : cluster.planRegister node root empty nowMs = .ok change) :
    Planned cluster (.registerNode node root empty nowMs) change := by
  unfold planRegister at h
  cases hnode : cluster.node node with
  | none =>
    simp only [hnode] at h
    cases h
    exact .registerNew hnode
  | some record =>
    simp only [hnode] at h
    -- the three lifecycles with a life register alike
    have hbind : record.lifecycle.hasLife = true →
        (do
          let slot ← registerSlot node (some record.root) root empty
          return if slot = record.root then
              .nothing (.nodeRegistered (cluster.registered node record))
            else .rebind node { record with root := slot }) = Except.ok change →
        Planned cluster (.registerNode node root empty nowMs) change := by
      intro hlife hok
      obtain ⟨slot, hslot, hchange⟩ := bind_eq_ok hok
      obtain ⟨rfl, hbefore⟩ := registerSlot_eq_ok hslot
      cases hchange
      split_ifs with hsame
      · exact .nothing _ _
      · obtain hbound | ⟨released, hreleased, hroot, rfl⟩ := hbefore
        · exact absurd hbound.symm hsame
        · exact .rebind hnode hlife hreleased hroot
    cases hlifecycle : record.lifecycle with
    | removed => simp [hlifecycle] at h
    | vacant =>
      simp only [hlifecycle] at h
      obtain ⟨slot, hslot, hchange⟩ := bind_eq_ok h
      cases hchange
      exact .registerVacant hnode hlifecycle hslot
    | active | cordoned | decommissioning =>
      simp only [hlifecycle] at h
      rw [← hlifecycle] at h
      exact hbind (by rw [hlifecycle]; rfl) h

theorem planned_release (h : cluster.planRelease node root = .ok change) :
    Planned cluster (.releaseRoot node root) change := by
  obtain ⟨record, hknown, h⟩ := bind_eq_ok h
  obtain ⟨_, hlife, h⟩ := bind_eq_ok h
  obtain ⟨slot, hslot, h⟩ := bind_eq_ok h
  obtain ⟨rfl, hroot⟩ := releaseSlot_eq_ok hslot
  cases h
  split_ifs with hsame
  · exact .nothing _ _
  · exact .release (known_eq_ok hknown) (checkLife_eq_ok_iff.mp hlife)
      (eq_bound_of_release hroot hsame)

theorem planned_move {group : RaftGroupId} {expected : PlacementEpoch} {toVoters : VoterSet}
    (h : cluster.planMove group expected toVoters nowMs = .ok change) :
    Planned cluster (.requestMove group expected toVoters nowMs) change := by
  obtain ⟨placement, hgroup, h⟩ := bind_eq_ok h
  cases placement with
  | seeded => cases h
  | live since convergedAt target =>
    dsimp only at h
    split_ifs at h with hsince hlen
    obtain ⟨_, htargets, h⟩ := bind_eq_ok h
    obtain ⟨moving, hmoving, h⟩ := bind_eq_ok h
    cases h
    rw [not_not] at hsince hlen
    subst hsince
    refine .move (existing_eq_ok hgroup) hlen (fun node hnode => ?_) hmoving
    exact forM_eq_ok_iff.mp htargets node (NonEmptyNodeSet.mem_iter.mpr hnode)

theorem planned_converge {group : RaftGroupId} {since : PlacementEpoch} {voters : VoterSet}
    {membership : MembershipLogId}
    (h : cluster.planConverge group since voters membership nowMs = .ok change) :
    Planned cluster (.reportConverged group since voters membership nowMs) change := by
  obtain ⟨placement, hgroup, h⟩ := bind_eq_ok h
  split_ifs at h with hsince
  obtain ⟨retired, hretired, h⟩ := bind_eq_ok h
  cases h
  rw [not_not] at hsince
  subst hsince
  exact .converge (existing_eq_ok hgroup) hretired

theorem planned_lifecycle {lifecycleChange : LifecycleChange}
    (h : cluster.planLifecycle node lifecycleChange nowMs = .ok change) :
    Planned cluster (.setNodeLifecycle node lifecycleChange nowMs) change := by
  obtain ⟨record, hknown, h⟩ := bind_eq_ok h
  obtain ⟨_, hlife, h⟩ := bind_eq_ok h
  obtain ⟨lifecycle, hnext, h⟩ := bind_eq_ok h
  cases h
  split_ifs
  · exact .nothing _ _
  · exact .lifecycle (known_eq_ok hknown) (checkLife_eq_ok_iff.mp hlife) hnext

theorem planned_tornDown {group : RaftGroupId} {createdAt : MetaLogId}
    (h : cluster.planTornDown group node createdAt = .ok change) :
    Planned cluster (.reportTornDown group node createdAt) change := by
  obtain ⟨record, -, h⟩ := bind_eq_ok h
  obtain ⟨_, -, h⟩ := bind_eq_ok h
  cases h
  cases hretirement : cluster.retirement group node with
  | none => exact .nothing _ _
  | some retirement =>
    dsimp only
    split_ifs with hcreated
    · subst hcreated
      exact .tornDown hretirement
    · exact .nothing _ _

theorem planned_removalComplete (h : cluster.planRemovalComplete node root nowMs = .ok change) :
    Planned cluster (.reportRemovalComplete node root nowMs) change := by
  obtain ⟨record, hknown, h⟩ := bind_eq_ok h
  split_ifs at h with hroot
  rw [not_not] at hroot
  cases hlifecycle : record.lifecycle with
  | removed =>
    simp only [hlifecycle] at h
    cases h
    exact .vacate (known_eq_ok hknown) hlifecycle hroot
  | vacant =>
    simp only [hlifecycle] at h
    cases h
    exact .nothing _ _
  | active | cordoned | decommissioning => simp [hlifecycle] at h

/-- **Inversion.** A planned change is one of those listed. -/
theorem planned_of_plan {command : ControlCommand} (h : cluster.plan command = .ok change) :
    Planned cluster command change := by
  have hcommand : cluster.planCommand command = .ok change := by
    unfold plan at h
    split at h
    · split_ifs at h
      exact h
    · exact h
  cases command with
  | registerNode => exact planned_register hcommand
  | bootstrap => cases hcommand
  | requestMove => exact planned_move hcommand
  | reportConverged => exact planned_converge hcommand
  | setNodeLifecycle => exact planned_lifecycle hcommand
  | setMoveLimit limit =>
    cases hcommand
    exact .moveLimit limit
  | reportTornDown => exact planned_tornDown hcommand
  | releaseRoot => exact planned_release hcommand
  | reportRemovalComplete => exact planned_removalComplete hcommand

/-! ## The parts of a commit -/

theorem node_setNode (node node' : NodeId) (record : NodeRecord) :
    (cluster.setNode node record).node node' =
      if node' = node then some record else cluster.node node' :=
  cluster.nodes.get?_insert node node' record

theorem group_setGroup (group group' : RaftGroupId) (placement : GroupPlacement) :
    (cluster.setGroup group placement).group group' =
      if group' = group then some placement else cluster.group group' :=
  cluster.groups.get?_insert group group' placement

theorem get?_foldl_insert {retired : List NodeId} {records : OrdMap NodeId Retirement}
    {log : MetaLogId} (node : NodeId) :
    (retired.foldl (fun records node => records.insert node ⟨log⟩) records).get? node =
      if node ∈ retired then some ⟨log⟩ else records.get? node := by
  induction retired generalizing records with
  | nil => simp
  | cons first rest ih =>
    rw [List.foldl_cons, ih, OrdMap.get?_insert]
    by_cases hnode : node = first
    · simp [hnode]
    · simp [hnode]

theorem retirement_retire (group group' : RaftGroupId) (retired : Finset NodeId) (log : MetaLogId)
    (node : NodeId) :
    (cluster.retire group retired log).retirement group' node =
      if group' = group ∧ node ∈ retired then some ⟨log⟩ else cluster.retirement group' node := by
  unfold retire
  by_cases hempty : retired = ∅
  · simp [hempty]
  rw [if_neg hempty]
  unfold retirement
  by_cases hgroup : group' = group
  · subst hgroup
    rw [OrdMap.get?_insert_self, Option.bind_some, get?_foldl_insert]
    by_cases hnode : node ∈ retired
    · simp [hnode]
    · cases hrecords : cluster.retirements.get? group' <;> simp [hnode]
  · simp [OrdMap.get?_insert, hgroup]

variable (group : RaftGroupId) (retired : Finset NodeId)

@[simp] theorem node_retire (log : MetaLogId) :
    (cluster.retire group retired log).node = cluster.node := by
  unfold retire
  split_ifs <;> rfl

@[simp] theorem group_retire (log : MetaLogId) :
    (cluster.retire group retired log).group = cluster.group := by
  unfold retire
  split_ifs <;> rfl

@[simp] theorem params_retire (log : MetaLogId) :
    (cluster.retire group retired log).params = cluster.params := by
  unfold retire
  split_ifs <;> rfl

theorem retirement_tearDown (group group' : RaftGroupId) (node node' : NodeId) :
    (cluster.tearDown group node).retirement group' node' =
      if group' = group ∧ node' = node then none else cluster.retirement group' node' := by
  unfold tearDown retirement
  cases hrecords : cluster.retirements.get? group with
  | none =>
    by_cases hgroup : group' = group
    · subst hgroup
      simp [hrecords]
    · simp [hgroup]
  | some records =>
    dsimp only
    by_cases hgroup : group' = group
    · subst hgroup
      have herase := records.get?_erase node node'
      by_cases hleft : (records.erase node).isEmpty = true
      · have hnone := (OrdMap.isEmpty_iff _).mp hleft node'
        rw [if_pos hleft, OrdMap.get?_erase_self, hrecords]
        by_cases hnode : node' = node
        · simp [hnode]
        · rw [hnone, if_neg hnode] at herase
          simp [hnode, ← herase]
      · rw [if_neg hleft, OrdMap.get?_insert_self, hrecords]
        by_cases hnode : node' = node
        · simp [hnode]
        · simpa [hnode] using herase
    · simp only [hgroup, false_and, if_false]
      split_ifs
      · rw [OrdMap.get?_erase, if_neg hgroup]
      · rw [OrdMap.get?_insert, if_neg hgroup]

@[simp] theorem node_tearDown (node : NodeId) :
    (cluster.tearDown group node).node = cluster.node := by
  unfold tearDown
  split <;> rfl

@[simp] theorem group_tearDown (node : NodeId) :
    (cluster.tearDown group node).group = cluster.group := by
  unfold tearDown
  split <;> rfl

@[simp] theorem params_tearDown (node : NodeId) :
    (cluster.tearDown group node).params = cluster.params := by
  unfold tearDown
  split <;> rfl

theorem mem_roleless {node : NodeId} :
    node ∈ cluster.roleless ↔
      ∃ record, cluster.node node = some record ∧ record.lifecycle = .decommissioning ∧
        cluster.hasAnyRole node = false := by
  unfold roleless
  rw [List.mem_toFinset, List.mem_map]
  constructor
  · rintro ⟨⟨node', record⟩, hmem, rfl⟩
    obtain ⟨hentry, hp⟩ := List.mem_filter.mp hmem
    simp only [Bool.not_eq_eq_eq_not, Bool.not_true, decide_eq_true_eq] at hp
    exact ⟨record, cluster.nodes.mem_entries.mp hentry, hp⟩
  · rintro ⟨record, hnode, hp⟩
    refine ⟨(node, record), List.mem_filter.mpr ⟨cluster.nodes.mem_entries.mpr hnode, ?_⟩, rfl⟩
    simpa using hp

theorem node_sweep (nowMs : ℕ) (node : NodeId) :
    (cluster.removeRolelessDecommissioning nowMs).1.node node =
      (cluster.node node).map fun record =>
        if node ∈ cluster.roleless then
          { lifecycle := .removed, sinceMs := nowMs, root := record.root }
        else record :=
  OrdMap.get?_mapValues _ cluster.nodes node

theorem retirement_sweep (nowMs : ℕ) (group : RaftGroupId) (node : NodeId) :
    (cluster.removeRolelessDecommissioning nowMs).1.retirement group node =
      if node ∈ cluster.roleless then none else cluster.retirement group node := by
  unfold removeRolelessDecommissioning retirement
  dsimp only
  by_cases hempty : cluster.roleless = ∅
  · simp [hempty]
  rw [if_neg hempty, OrdMap.get?_filter, OrdMap.get?_mapValues]
  cases hrecords : cluster.retirements.get? group with
  | none => simp
  | some records =>
    have hget : (records.filter fun node _ => decide (node ∉ cluster.roleless)).get? node =
        if node ∈ cluster.roleless then none else records.get? node := by
      rw [OrdMap.get?_filter]
      by_cases hnode : node ∈ cluster.roleless <;> cases records.get? node <;> simp [hnode]
    rw [Option.map_some, Option.bind_some, ← hget]
    generalize (records.filter fun node _ => decide (node ∉ cluster.roleless)) = left
    cases hisEmpty : left.isEmpty with
    | true => simp [Option.filter, hisEmpty, (OrdMap.isEmpty_iff left).mp hisEmpty node]
    | false => simp [Option.filter, hisEmpty]

@[simp] theorem group_sweep (nowMs : ℕ) :
    (cluster.removeRolelessDecommissioning nowMs).1.group = cluster.group := rfl

@[simp] theorem params_sweep (nowMs : ℕ) :
    (cluster.removeRolelessDecommissioning nowMs).1.params = cluster.params := rfl

end Cluster

end Ursula.Control

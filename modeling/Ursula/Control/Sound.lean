import Ursula.Control.Planned

/-!
# The invariants of the control plane

Every group is placed on as many voters as the replication factor, every role is held by a node in
a life, a retirement is never beside a role of the same node in the same group, and a
decommissioning node keeps a role until it is removed. Every change of the dispatcher and every
history event keeps all of this; removing the decommissioning nodes without a role restores the
last part.

## Main definitions

* `Cluster.Base`: the invariants every part of a commit keeps
* `Cluster.Sound`: with a role for every decommissioning node

## Main results

* `Cluster.Sound.commit`: a planned change keeps the invariants
-/

namespace Ursula.Control

open Checks GroupPlacement Finset

/-- A placement has `size` voters on every side, and abandons no voter of either. -/
structure GroupPlacement.Sized (size : ℕ) (placement : GroupPlacement) : Prop where
  current : placement.currentVoters.len = size
  target : placement.targetVoters.len = size
  abandoned : ∀ moving, placement.moving = some moving →
    ∀ node ∈ moving.abandoned, node ∉ moving.fromVoters ∧ node ∉ moving.toVoters

/-- The invariants that every part of a commit keeps. -/
structure Cluster.Base (cluster : Cluster) : Prop where
  groups : ∀ group,
    (∃ placement, cluster.group group = some placement) ↔ group < cluster.params.groupCount
  sized : ∀ group placement, cluster.group group = some placement →
    placement.Sized cluster.params.replicationFactor
  holders : ∀ group placement, cluster.group group = some placement →
    ∀ node ∈ placement.holders, cluster.Alive node
  /-- A seeded group has retired nothing yet. -/
  seeded : ∀ group since voters init, cluster.group group = some (.seeded since voters init) →
    ∀ node, cluster.retirement group node = none
  retired : ∀ group node retirement, cluster.retirement group node = some retirement →
    cluster.Alive node ∧ ∀ placement, cluster.group group = some placement →
      node ∉ placement.holders
  records : ∀ group records, cluster.retirements.get? group = some records →
    records.isEmpty = false
  metaVoters : ∀ node ∈ cluster.params.metaVoters, ∃ record, cluster.node node = some record ∧
    (record.lifecycle = .active ∨ record.lifecycle = .cordoned)
  vacant : ∀ node record, cluster.node node = some record → record.lifecycle = .vacant →
    ∃ root, record.root = .released root

/-- The invariants of a cluster. -/
structure Cluster.Sound (cluster : Cluster) : Prop extends Cluster.Base cluster where
  decommissioning : ∀ node record, cluster.node node = some record →
    record.lifecycle = .decommissioning → cluster.hasAnyRole node = true

namespace Cluster

variable {cluster : Cluster}

/-! ## Setting a node's record -/

variable {record : NodeRecord}

theorem Alive.setNode {node node' : NodeId}
    (hlife : cluster.Alive node → record.lifecycle.hasLife = true) (h : cluster.Alive node') :
    (cluster.setNode node record).Alive node' := by
  unfold Alive
  rw [node_setNode]
  by_cases hnode : node' = node
  · subst hnode
    exact ⟨record, if_pos rfl, hlife h⟩
  · rw [if_neg hnode]
    exact h

variable {node : NodeId}

/-- A record that keeps a node with a life in one, and a meta voter in its roles, keeps the
invariants. -/
theorem Base.setNode (h : cluster.Base)
    (hlife : cluster.Alive node → record.lifecycle.hasLife = true)
    (hmeta : node ∈ cluster.params.metaVoters →
      record.lifecycle = .active ∨ record.lifecycle = .cordoned)
    (hvacant : record.lifecycle = .vacant → ∃ root, record.root = .released root) :
    (cluster.setNode node record).Base where
  groups := h.groups
  sized := h.sized
  holders group placement hgroup holder hholder :=
    (h.holders group placement hgroup holder hholder).setNode hlife
  seeded := h.seeded
  retired group node' retirement hretirement :=
    ⟨(h.retired group node' retirement hretirement).1.setNode hlife,
      (h.retired group node' retirement hretirement).2⟩
  records := h.records
  metaVoters node' hnode' := by
    rw [node_setNode]
    by_cases hnode : node' = node
    · subst hnode
      exact ⟨record, if_pos rfl, hmeta hnode'⟩
    · rw [if_neg hnode]
      exact h.metaVoters node' hnode'
  vacant node' record' := by
    rw [node_setNode]
    split_ifs with hnode
    · rintro ⟨⟩
      exact hvacant
    · exact h.vacant node' record'

/-- A record that is decommissioning only where the node was keeps every decommissioning node in a
role. -/
theorem Sound.setNode (h : cluster.Sound)
    (hlife : cluster.Alive node → record.lifecycle.hasLife = true)
    (hmeta : node ∈ cluster.params.metaVoters →
      record.lifecycle = .active ∨ record.lifecycle = .cordoned)
    (hvacant : record.lifecycle = .vacant → ∃ root, record.root = .released root)
    (hrole : record.lifecycle = .decommissioning → cluster.hasAnyRole node = true) :
    (cluster.setNode node record).Sound where
  toBase := h.toBase.setNode hlife hmeta hvacant
  decommissioning node' record' := by
    rw [node_setNode]
    split_ifs with hnode
    · rintro ⟨⟩ hdecommissioning
      subst hnode
      exact hrole hdecommissioning
    · exact h.decommissioning node' record'

/-- A record of the same lifecycle keeps the invariants. -/
theorem Sound.setRoot (h : cluster.Sound) (hnode : cluster.node node = some record)
    (hlife : record.lifecycle.hasLife = true) (slot : RootSlot) :
    (cluster.setNode node { record with root := slot }).Sound := by
  refine h.setNode (fun _ => hlife) (fun hvoter => ?_) (fun hvacant => ?_)
    (h.decommissioning node record hnode)
  · obtain ⟨own, hown, hstate⟩ := h.metaVoters node hvoter
    rw [hnode] at hown
    cases hown
    exact hstate
  · exact absurd hlife (by rw [show record.lifecycle = .vacant from hvacant]; decide)

/-! ## Setting a group's placement -/

variable {group : RaftGroupId} {placement : GroupPlacement}

/-- A placement of the right size, whose nodes are in a life and owe the group no teardown, keeps
the invariants. -/
theorem Base.setGroup (h : cluster.Base) {before : GroupPlacement}
    (hgroup : cluster.group group = some before)
    (hsized : placement.Sized cluster.params.replicationFactor)
    (hlive : ∀ since voters init, placement ≠ .seeded since voters init)
    (halive : ∀ node ∈ placement.holders, cluster.Alive node)
    (hretired : ∀ node ∈ placement.holders, cluster.retirement group node = none) :
    (cluster.setGroup group placement).Base where
  groups group' := by
    rw [group_setGroup]
    refine Iff.trans ?_ (h.groups group')
    by_cases hgroup' : group' = group
    · subst hgroup'
      simp [hgroup]
    · simp [hgroup']
  sized group' placement' := by
    rw [group_setGroup]
    split_ifs
    · rintro ⟨⟩
      exact hsized
    · exact h.sized group' placement'
  holders group' placement' := by
    rw [group_setGroup]
    split_ifs
    · rintro ⟨⟩
      exact halive
    · exact h.holders group' placement'
  seeded group' since voters init := by
    rw [group_setGroup]
    split_ifs with hgroup'
    · intro hplacement
      exact absurd (Option.some_inj.mp hplacement) (hlive since voters init)
    · exact h.seeded group' since voters init
  retired group' node retirement hretirement := by
    refine ⟨(h.retired group' node retirement hretirement).1, fun placement' => ?_⟩
    rw [group_setGroup]
    split_ifs with hgroup'
    · rintro ⟨⟩ hholder
      subst hgroup'
      cases (hretired node hholder).symm.trans hretirement
    · exact (h.retired group' node retirement hretirement).2 placement'
  records := h.records
  metaVoters := h.metaVoters
  vacant := h.vacant

/-- The holders of a placement owe its group no teardown. -/
theorem Base.retirement_holder (h : cluster.Base) (hgroup : cluster.group group = some placement)
    (hnode : node ∈ placement.holders) :
    cluster.retirement group node = none := by
  cases hretirement : cluster.retirement group node with
  | none => rfl
  | some retirement =>
    exact absurd hnode ((h.retired group node retirement hretirement).2 placement hgroup)

theorem checkTarget_eq_ok {placedNow : VoterSet}
    (h : cluster.checkTarget group placedNow node = .ok ()) :
    cluster.Alive node ∧ cluster.retirement group node = none := by
  obtain ⟨record, hknown, h⟩ := bind_eq_ok h
  obtain ⟨_, hlife, h⟩ := bind_eq_ok h
  split_ifs at h with _ hretirement
  refine ⟨⟨record, known_eq_ok hknown, checkLife_eq_ok_iff.mp hlife⟩, ?_⟩
  simpa using hretirement

/-- What a move's holders are made of: the placement's holders and the requested voters. -/
theorem moveFrom_eq_ok {toVoters : VoterSet} {nowMs : ℕ} {target : Target} {moving : Move}
    (h : cluster.moveFrom group toVoters nowMs target = .ok moving) (since : PlacementEpoch)
    (convergedAt : MembershipLogId) :
    moving.fromVoters = (live since convergedAt target).currentVoters ∧
      moving.toVoters = toVoters ∧
      (∀ node ∈ moving.abandoned, node ∉ moving.fromVoters ∧ node ∉ moving.toVoters) ∧
      moving.fromVoters.nodes ∪ moving.toVoters.nodes ∪ moving.abandoned =
        (live since convergedAt target).holders ∪ toVoters.nodes := by
  cases target with
  | stable voters =>
    simp only [moveFrom] at h
    split_ifs at h
    cases h
    exact ⟨rfl, rfl, by simp, by simp [holders]⟩
  | moving old =>
    simp only [moveFrom] at h
    split_ifs at h
    cases h
    refine ⟨rfl, rfl, fun node hnode => (mem_filter.mp hnode).2, ?_⟩
    ext node
    by_cases hfrom : node ∈ old.fromVoters <;> by_cases hto : node ∈ toVoters <;>
      simp [holders, hfrom, hto, or_comm]

theorem Sound.move (h : cluster.Sound) {since log : PlacementEpoch} {convergedAt : MembershipLogId}
    {target : Target} {toVoters : VoterSet} {nowMs : ℕ} {moving : Move}
    (hgroup : cluster.group group = some (.live since convergedAt target))
    (hlen : toVoters.len = (live since convergedAt target).targetVoters.len)
    (htargets : ∀ node ∈ toVoters, cluster.checkTarget group
      (live since convergedAt target).currentVoters node = .ok ())
    (hmoving : cluster.moveFrom group toVoters nowMs target = .ok moving) :
    (cluster.setGroup group (.live log convergedAt (.moving moving))).Sound := by
  obtain ⟨hfrom, hto, habandoned, hholders⟩ := moveFrom_eq_ok hmoving since convergedAt
  have hmem : ∀ node ∈ (live log convergedAt (.moving moving)).holders,
      node ∈ (live since convergedAt target).holders ∨ node ∈ toVoters := by
    intro node hnode
    have hnode' := hholders ▸ show node ∈ moving.fromVoters.nodes ∪ moving.toVoters.nodes ∪
      moving.abandoned from hnode
    exact mem_union.mp hnode'
  have hsized := h.sized group _ hgroup
  refine ⟨h.toBase.setGroup hgroup ⟨?_, ?_, ?_⟩ (by simp) ?_ ?_, ?_⟩
  · exact (congrArg NonEmptyNodeSet.len hfrom).trans hsized.current
  · exact (congrArg NonEmptyNodeSet.len hto).trans (hlen.trans hsized.target)
  · rintro moving' ⟨⟩
    exact habandoned
  · intro node hnode
    obtain hold | hnew := hmem node hnode
    · exact h.holders group _ hgroup node hold
    · exact (checkTarget_eq_ok (htargets node hnew)).1
  · intro node hnode
    obtain hold | hnew := hmem node hnode
    · exact h.toBase.retirement_holder hgroup hold
    · exact (checkTarget_eq_ok (htargets node hnew)).2
  · -- no role is lost: a move keeps the holders it found
    intro node record hnode hdecommissioning
    obtain ⟨group', placement, hgroup', hholder⟩ :=
      hasAnyRole_iff.mp (h.decommissioning node record hnode hdecommissioning)
    refine hasAnyRole_iff.mpr ⟨group', ?_⟩
    rw [group_setGroup]
    by_cases hsame : group' = group
    · subst hsame
      rw [hgroup] at hgroup'
      cases hgroup'
      refine ⟨_, if_pos rfl, ?_⟩
      show node ∈ moving.fromVoters.nodes ∪ moving.toVoters.nodes ∪ moving.abandoned
      rw [hholders]
      exact mem_union_left _ hholder
    · exact ⟨placement, by rw [if_neg hsame, hgroup'], hholder⟩

/-! ## Converging -/

variable {retired : Finset NodeId}

/-- What a report of voters establishes, and whom it retires. -/
theorem retiredBy_eq_ok (h : cluster.Base) (hgroup : cluster.group group = some placement)
    {voters : VoterSet} (hretired : cluster.retiredBy group voters placement = .ok retired) :
    voters.len = cluster.params.replicationFactor ∧
      (∀ node ∈ voters, cluster.Alive node ∧ cluster.retirement group node = none) ∧
      ∀ node ∈ retired, node ∈ placement.holders ∧ node ∉ voters := by
  rcases placement with ⟨since, seed, init⟩ | ⟨since, at_, stable | moving⟩
  · obtain ⟨_, hlives, hretired⟩ := bind_eq_ok hretired
    split_ifs at hretired with hlen
    cases hretired
    refine ⟨not_not.mp hlen, fun node hnode => ⟨?_, h.seeded group since seed init hgroup node⟩,
      by simp⟩
    have hnode' := forM_eq_ok_iff.mp hlives node (NonEmptyNodeSet.mem_iter.mpr hnode)
    obtain ⟨record, hknown, hlife⟩ := bind_eq_ok hnode'
    exact ⟨record, known_eq_ok hknown, checkLife_eq_ok_iff.mp hlife⟩
  · cases hretired
  · simp only [retiredBy] at hretired
    split_ifs at hretired with hvoters
    cases hretired
    rw [not_not] at hvoters
    subst hvoters
    have hholder : ∀ node ∈ moving.toVoters,
        node ∈ (live since at_ (.moving moving)).holders := fun node hnode =>
      targetVoters_subset_holders (.live since at_ (.moving moving)) hnode
    refine ⟨(h.sized group _ hgroup).target, fun node hnode => ?_, fun node hnode => ?_⟩
    · exact ⟨h.holders group _ hgroup node (hholder node hnode),
        h.retirement_holder hgroup (hholder node hnode)⟩
    · obtain ⟨hunion, hto⟩ := mem_filter.mp hnode
      refine ⟨?_, hto⟩
      simp only [holders, mem_union] at hunion ⊢
      tauto

/-- Retiring nodes with a life and without a role in the group keeps the invariants. -/
theorem Base.retire (h : cluster.Base) (log : MetaLogId)
    (hgroup : cluster.group group = some placement)
    (hlive : ∀ since voters init, placement ≠ .seeded since voters init)
    (hretired : ∀ node ∈ retired, cluster.Alive node ∧ node ∉ placement.holders) :
    (cluster.retire group retired log).Base where
  groups := by simpa using h.groups
  sized := by simpa using h.sized
  holders := by simpa [Alive] using h.holders
  seeded group' since voters init := by
    simp only [group_retire, retirement_retire]
    intro hseeded node
    rw [if_neg, h.seeded group' since voters init hseeded node]
    rintro ⟨rfl, -⟩
    rw [hgroup] at hseeded
    exact hlive since voters init (Option.some_inj.mp hseeded)
  retired group' node retirement := by
    rw [retirement_retire]
    simp only [group_retire, Alive, node_retire]
    split_ifs with hnew
    · intro _
      refine ⟨(hretired node hnew.2).1, fun placement' hplacement' => ?_⟩
      rw [hnew.1, hgroup] at hplacement'
      cases hplacement'
      exact (hretired node hnew.2).2
    · exact h.retired group' node retirement
  records group' records := by
    unfold Cluster.retire
    by_cases hempty : retired = ∅
    · rw [if_pos hempty]
      exact h.records group' records
    rw [if_neg hempty, OrdMap.get?_insert]
    split_ifs with hgroup'
    · rintro ⟨⟩
      obtain ⟨node, hnode⟩ := nonempty_of_ne_empty hempty
      rw [Bool.eq_false_iff, Ne, OrdMap.isEmpty_iff]
      intro hnone
      have hsome := hnone node
      rw [get?_foldl_insert, if_pos (mem_ascending.mpr hnode)] at hsome
      cases hsome
    · exact h.records group' records
  metaVoters := by simpa using h.metaVoters
  vacant := by simpa using h.vacant

/-! ## Removing decommissioned nodes -/

theorem alive_sweep {nowMs : ℕ} (h : cluster.Alive node) (hnode : node ∉ cluster.roleless) :
    (cluster.removeRolelessDecommissioning nowMs).1.Alive node := by
  obtain ⟨record, hrecord, hlife⟩ := h
  refine ⟨record, ?_, hlife⟩
  rw [node_sweep, hrecord, Option.map_some, if_neg hnode]

theorem notMem_roleless_of_holder (hgroup : cluster.group group = some placement)
    (hnode : node ∈ placement.holders) :
    node ∉ cluster.roleless := by
  intro hroleless
  obtain ⟨record, -, -, hrole⟩ := mem_roleless.mp hroleless
  rw [hasAnyRole_iff.mpr ⟨group, placement, hgroup, hnode⟩] at hrole
  cases hrole

theorem hasAnyRole_sweep (nowMs : ℕ) (node : NodeId) :
    (cluster.removeRolelessDecommissioning nowMs).1.hasAnyRole node = cluster.hasAnyRole node := rfl

/-- Removing the decommissioning nodes without a role leaves every other one with a role. -/
theorem Base.sweep (h : cluster.Base) (nowMs : ℕ) :
    (cluster.removeRolelessDecommissioning nowMs).1.Sound where
  groups := h.groups
  sized := h.sized
  holders group placement hgroup node hnode :=
    alive_sweep (h.holders group placement hgroup node hnode)
      (notMem_roleless_of_holder hgroup hnode)
  seeded group since voters init hgroup node := by
    rw [retirement_sweep, h.seeded group since voters init hgroup node]
    split_ifs <;> rfl
  retired group node retirement := by
    rw [retirement_sweep]
    split_ifs with hnode
    · intro hnone
      cases hnone
    · intro hretirement
      obtain ⟨halive, hrole⟩ := h.retired group node retirement hretirement
      exact ⟨alive_sweep halive hnode, hrole⟩
  records group records := by
    unfold removeRolelessDecommissioning
    dsimp only
    split_ifs with hempty
    · exact h.records group records
    · rw [OrdMap.get?_filter, Option.filter_eq_some_iff]
      rintro ⟨-, hleft⟩
      simpa using hleft
  metaVoters node hnode := by
    obtain ⟨record, hrecord, hstate⟩ := h.metaVoters node hnode
    refine ⟨record, ?_, hstate⟩
    have hroleless : node ∉ cluster.roleless := by
      intro hmem
      obtain ⟨record', hrecord', hdecommissioning, -⟩ := mem_roleless.mp hmem
      rw [hrecord] at hrecord'
      cases hrecord'
      rw [hdecommissioning] at hstate
      simp at hstate
    rw [node_sweep, hrecord, Option.map_some, if_neg hroleless]
  vacant node record := by
    rw [node_sweep]
    intro hrecord hvacant
    obtain ⟨record', hrecord', rfl⟩ := Option.map_eq_some_iff.mp hrecord
    by_cases hnode : node ∈ cluster.roleless
    · rw [if_pos hnode] at hvacant
      cases hvacant
    · rw [if_neg hnode] at hvacant ⊢
      exact h.vacant node record' hrecord' hvacant
  decommissioning node record := by
    rw [node_sweep, hasAnyRole_sweep]
    intro hrecord hdecommissioning
    obtain ⟨record', hrecord', rfl⟩ := Option.map_eq_some_iff.mp hrecord
    by_cases hnode : node ∈ cluster.roleless
    · rw [if_pos hnode] at hdecommissioning
      cases hdecommissioning
    rw [if_neg hnode] at hdecommissioning
    by_contra hrole
    exact hnode (mem_roleless.mpr
      ⟨record', hrecord', hdecommissioning, Bool.eq_false_iff.mpr hrole⟩)

theorem Sound.converge (h : cluster.Sound) (hgroup : cluster.group group = some placement)
    {voters : VoterSet} (hretired : cluster.retiredBy group voters placement = .ok retired)
    (log : MetaLogId) (membership : MembershipLogId) (nowMs : ℕ) :
    (((cluster.setGroup group (.live log membership (.stable voters))).retire group retired
      log).removeRolelessDecommissioning nowMs).1.Sound := by
  obtain ⟨hlen, hvoters, hout⟩ := retiredBy_eq_ok h.toBase hgroup hretired
  have hset : (cluster.setGroup group (.live log membership (.stable voters))).Base :=
    h.toBase.setGroup hgroup ⟨hlen, hlen, by rintro moving ⟨⟩⟩ (by simp)
      (fun node hnode => (hvoters node hnode).1) fun node hnode => (hvoters node hnode).2
  have hplaced : (cluster.setGroup group (.live log membership (.stable voters))).group group =
      some (.live log membership (.stable voters)) := by
    rw [group_setGroup, if_pos rfl]
  refine (hset.retire log hplaced (by simp) fun node hnode => ?_).sweep nowMs
  exact ⟨h.holders group placement hgroup node (hout node hnode).1, (hout node hnode).2⟩

/-! ## Tearing down and rebasing -/

theorem Sound.tearDown (h : cluster.Sound) (group : RaftGroupId) (node : NodeId) :
    (cluster.tearDown group node).Sound where
  groups := by simpa using h.groups
  sized := by simpa using h.sized
  holders := by simpa [Alive] using h.holders
  seeded group' since voters init := by
    simp only [group_tearDown, retirement_tearDown]
    intro hseeded node'
    rw [h.seeded group' since voters init hseeded node']
    split_ifs <;> rfl
  retired group' node' retirement := by
    rw [retirement_tearDown]
    simp only [group_tearDown, Alive, node_tearDown]
    split_ifs with htorn
    · intro hnone
      cases hnone
    · exact h.retired group' node' retirement
  records group' records := by
    unfold Cluster.tearDown
    cases hrecords : cluster.retirements.get? group with
    | none => exact h.records group' records
    | some own =>
      dsimp only
      split_ifs with hleft
      · rw [OrdMap.get?_erase]
        split_ifs
        · intro hnone
          cases hnone
        · exact h.records group' records
      · rw [OrdMap.get?_insert]
        split_ifs
        · rintro ⟨⟩
          simpa using hleft
        · exact h.records group' records
  metaVoters := by simpa using h.metaVoters
  vacant := by simpa using h.vacant
  decommissioning node' record := by
    simp only [node_tearDown, hasAnyRole_iff, group_tearDown]
    intro hrecord hdecommissioning
    exact hasAnyRole_iff.mp (h.decommissioning node' record hrecord hdecommissioning)

theorem group_rebase (log : MetaLogId) (group : RaftGroupId) :
    (ControlPlaneState.rebase cluster log).group group =
      (cluster.group group).map (withSince log) :=
  OrdMap.get?_mapValues _ cluster.groups group

theorem Sound.rebase (h : cluster.Sound) (log : MetaLogId) :
    (ControlPlaneState.rebase cluster log).Sound where
  groups group := by
    rw [group_rebase]
    refine Iff.trans ?_ (h.groups group)
    simp
  sized group placement hgroup := by
    rw [group_rebase] at hgroup
    obtain ⟨before, hbefore, rfl⟩ := Option.map_eq_some_iff.mp hgroup
    have hsized := h.sized group before hbefore
    rcases before with ⟨since, voters, init⟩ | ⟨since, at_, voters | moving⟩ <;>
      exact ⟨hsized.current, hsized.target, hsized.abandoned⟩
  holders group placement hgroup node hnode := by
    rw [group_rebase] at hgroup
    obtain ⟨before, hbefore, rfl⟩ := Option.map_eq_some_iff.mp hgroup
    rw [holders_withSince] at hnode
    exact h.holders group before hbefore node hnode
  seeded _ _ _ _ _ _ := rfl
  retired _ _ _ hretirement := by cases hretirement
  records _ _ hrecords := by cases hrecords
  metaVoters := h.metaVoters
  vacant := h.vacant
  decommissioning node record hrecord hdecommissioning := by
    obtain ⟨group, placement, hgroup, hnode⟩ :=
      hasAnyRole_iff.mp (h.decommissioning node record hrecord hdecommissioning)
    refine hasAnyRole_iff.mpr ⟨group, placement.withSince log, ?_, ?_⟩
    · rw [group_rebase, hgroup, Option.map_some]
    · rwa [holders_withSince]

/-! ## Commits -/

/-- **Step.** A planned change keeps the invariants. -/
theorem Sound.commit (h : cluster.Sound) {command : ControlCommand} {change : Change}
    (hplanned : Planned cluster command change) (log : MetaLogId) :
    (cluster.commit log change).1.Sound := by
  cases hplanned with
  | nothing => exact h
  | registerNew | registerVacant =>
    refine h.setNode (fun _ => rfl) (fun _ => .inl rfl) ?_ ?_ <;> intro hstate <;> cases hstate
  | rebind hnode hlife | release hnode hlife => exact h.setRoot hnode hlife _
  | @vacate node root nowMs record hnode hremoved hroot =>
    refine h.setNode (fun halive => ?_) (fun hvoter => ?_) (fun _ => ⟨root, rfl⟩) ?_
    · obtain ⟨own, hown, hlife⟩ := halive
      rw [hnode] at hown
      cases hown
      rw [hremoved] at hlife
      cases hlife
    · obtain ⟨own, hown, hstate⟩ := h.metaVoters node hvoter
      rw [hnode] at hown
      cases hown
      rw [hremoved] at hstate
      simp at hstate
    · intro hstate
      cases hstate
  | move hgroup hlen htargets hmoving => exact h.move hgroup hlen htargets hmoving
  | converge hgroup hretired => exact h.converge hgroup hretired log _ _
  | @lifecycle node change nowMs record lifecycle hnode hlife hnext =>
    have hstate : lifecycle.hasLife = true ∧ lifecycle ≠ .vacant ∧
        (node ∈ cluster.params.metaVoters → lifecycle = .active ∨ lifecycle = .cordoned) := by
      cases change <;> simp only [nextLifecycle] at hnext
      · split_ifs at hnext
        cases hnext
        exact ⟨rfl, by simp, fun _ => .inr rfl⟩
      · cases hnext
        exact ⟨rfl, by simp, fun _ => .inl rfl⟩
      · split_ifs at hnext with hmeta
        cases hnext
        exact ⟨rfl, by simp, fun hvoter => absurd hvoter hmeta⟩
    exact (h.toBase.setNode (fun _ => hstate.1) hstate.2.2
      fun hvacant => absurd hvacant hstate.2.1).sweep nowMs
  | moveLimit limit =>
    exact ⟨⟨h.groups, h.sized, h.holders, h.seeded, h.retired, h.records, h.metaVoters, h.vacant⟩,
      h.decommissioning⟩
  | tornDown hretirement => exact h.tearDown _ _

end Cluster

end Ursula.Control

import Ursula.Control.Placement

/-!
# The decommission planner

Which moves the meta leader submits to empty decommissioning nodes, and why the rest wait. A pass
takes the decommissioning nodes in ascending id and each of their groups in ascending id; a stable
group moves its leaving voter to the eligible node with the fewest roles, the smallest id on a tie.

A visit of a node and a group does something only when the group was not handled before, so the node
that a move takes out of its group is the smallest decommissioning one: every smaller one was
visited first. The load the planner keeps is at every visit the count of roles with the moves
planned so far.

## Main definitions

* `planDecommission`: the planner
* `rolesAfter`: a node's roles, counting moves that were planned
* `DecommissionMove.Drains`, `BlockedMove.Holds`: what a planned move and a blocked group should be

## Main results

* `planned_planDecommission`: every move drains, every reason holds, and only the slots cut a pass
-/

namespace Ursula.Control

open List Cluster

/-! ## The planner -/

/-- Whether a live node may receive a group now, as the meta leader sees it. -/
inductive NodeEligibility
  | eligible
  | diskPressure
  | unknown
deriving DecidableEq

/-- Why a decommissioning node's group does not move. -/
inductive BlockReason
  | noEligibleTarget
  | targetsUnderDiskPressure
  | groupNotLive
  | unknown
deriving DecidableEq

/-- A decommissioning node's group that cannot move now. -/
structure BlockedMove where
  group : RaftGroupId
  reason : BlockReason
deriving DecidableEq

/-- A move the meta leader submits. -/
structure DecommissionMove where
  group : RaftGroupId
  expected : PlacementEpoch
  toVoters : VoterSet
deriving DecidableEq

/-- One pass of the decommission driver. -/
structure DecommissionPlan where
  moves : List DecommissionMove
  blocked : List BlockedMove
deriving DecidableEq

/-- How many moves a pass may start: the free slots under `limit`, less one left to operators at a
limit of two or more. -/
def freeSlots (limit moving : ℕ) : ℕ :=
  let free := limit - moving
  if 2 ≤ limit then free - 1 else free

/-- How many groups a node has a role in. -/
def Cluster.roles (cluster : Cluster) (node : NodeId) : ℕ :=
  (cluster.groups.entries.filter fun entry => (entry.2.role node).isSome).length

/-- The nodes that may replace a voter of `group` but for their eligibility. -/
def Cluster.qualifying (cluster : Cluster) (group : RaftGroupId) (voters : VoterSet) :
    List NodeId :=
  cluster.nodes.keys.filter fun node =>
    node ∉ voters ∧ cluster.checkTarget group voters node = .ok ()

/-- The better of the best node so far and `node`. -/
def betterTarget (eligibility : OrdMap NodeId NodeEligibility) (load : OrdMap NodeId ℕ)
    (best : Option (ℕ × NodeId)) (node : NodeId) : Option (ℕ × NodeId) :=
  if eligibility.get? node ≠ some .eligible then best
  else
    let count := (load.get? node).getD 0
    match best with
    | none => some (count, node)
    | some (bestCount, bestNode) =>
      if count < bestCount ∨ (count = bestCount ∧ node < bestNode) then some (count, node)
      else some (bestCount, bestNode)

/-- The node that replaces a leaving voter of `group`, whose voters are `voters`. -/
def chooseTarget (cluster : Cluster) (group : RaftGroupId) (voters : VoterSet)
    (eligibility : OrdMap NodeId NodeEligibility) (load : OrdMap NodeId ℕ) :
    Except BlockReason NodeId :=
  let qualifying := cluster.qualifying group voters
  match qualifying.foldl (betterTarget eligibility load) none with
  | some (_, node) => .ok node
  | none =>
    if qualifying ≠ [] ∧ ∀ node ∈ qualifying, eligibility.get? node = some .diskPressure then
      .error .targetsUnderDiskPressure
    else .error .noEligibleTarget

/-- Where a pass stands. -/
structure Pass where
  plan : DecommissionPlan
  slots : ℕ
  load : OrdMap NodeId ℕ
  handled : Finset RaftGroupId

/-- The decommissioning nodes, in ascending id. -/
def Cluster.leavingNodes (cluster : Cluster) : List NodeId :=
  (cluster.nodes.entries.filter fun entry => entry.2.lifecycle = .decommissioning).map Prod.fst

/-- Takes up the group of `entry` for the decommissioning node `leaving`. -/
def Pass.visit (cluster : Cluster) (eligibility : OrdMap NodeId NodeEligibility) (leaving : NodeId)
    (pass : Pass) (entry : RaftGroupId × GroupPlacement) : Pass :=
  let group := entry.1
  if group ∈ pass.handled ∨ entry.2.role leaving = none then pass
  else
    match entry.2 with
    | .seeded .. =>
      { pass with
        plan.blocked := pass.plan.blocked ++ [⟨group, .groupNotLive⟩]
        handled := insert group pass.handled }
    | .live _ _ (.moving _) => pass
    | .live since _ (.stable voters) =>
      match chooseTarget cluster group voters eligibility pass.load with
      | .ok target =>
        if pass.slots = 0 then { pass with handled := insert group pass.handled }
        else
          { plan :=
              { pass.plan with
                moves := pass.plan.moves ++
                  [⟨group, since, .fromFirst target (voters.nodes.filter (· ≠ leaving))⟩] }
            slots := pass.slots - 1
            load := pass.load.modify target (· + 1)
            handled := insert group pass.handled }
      | .error reason =>
        { pass with
          plan.blocked := pass.plan.blocked ++ [⟨group, reason⟩]
          handled := insert group pass.handled }

/-- A pass that visited nothing yet. -/
def Pass.start (cluster : Cluster) : Pass where
  plan := ⟨[], []⟩
  slots := freeSlots cluster.params.maxConcurrentMoves cluster.moving
  load := cluster.nodes.mapValues fun node _ => cluster.roles node
  handled := ∅

/-- The moves that empty decommissioning nodes now, and the groups that cannot move. -/
def planDecommission (cluster : Cluster) (eligibility : OrdMap NodeId NodeEligibility) :
    DecommissionPlan :=
  (cluster.leavingNodes.foldl
    (fun pass leaving => cluster.groups.entries.foldl (Pass.visit cluster eligibility leaving) pass)
    (.start cluster)).plan

/-! ## What a plan should be -/

namespace Cluster

variable (cluster : Cluster)

/-- Whether a node is decommissioning. -/
def Leaving (node : NodeId) : Prop :=
  ∃ record, cluster.node node = some record ∧ record.lifecycle = .decommissioning

/-- The node is active, outside the voters, and owes the group no teardown. -/
structure Candidate (group : RaftGroupId) (voters : VoterSet) (node : NodeId) : Prop where
  outside : node ∉ voters
  active : ∃ record, cluster.node node = some record ∧ record.lifecycle = .active
  unretired : cluster.retirement group node = none

/-- A node's roles, counting planned moves. -/
def rolesAfter (moves : List DecommissionMove) (node : NodeId) : ℕ :=
  (cluster.groups.entries.filter fun entry => (entry.2.role node).isSome ∨
    ∃ planned ∈ moves, planned.group = entry.1 ∧ node ∈ planned.toVoters).length

/-- A move replaces the smallest leaving voter of a stable group by the eligible candidate with the
fewest roles, counting the moves planned before, and the smallest id on a tie. -/
structure Drains (eligibility : OrdMap NodeId NodeEligibility) (earlier : List DecommissionMove)
    (planned : DecommissionMove) (convergedAt : MembershipLogId) (voters : VoterSet)
    (leaving target : NodeId) : Prop where
  stable : cluster.group planned.group =
    some (.live planned.expected convergedAt (.stable voters))
  leaves : IsLeast {node | node ∈ voters ∧ cluster.Leaving node} leaving
  toVoters : planned.toVoters.nodes = insert target (voters.nodes.erase leaving)
  candidate : cluster.Candidate planned.group voters target
  eligible : eligibility.get? target = some .eligible
  least : ∀ node, cluster.Candidate planned.group voters node →
    eligibility.get? node = some .eligible →
    cluster.rolesAfter earlier target < cluster.rolesAfter earlier node ∨
      cluster.rolesAfter earlier target = cluster.rolesAfter earlier node ∧ target ≤ node

/-- The reason of a blocked group with a leaving voter holds. -/
structure Holds (eligibility : OrdMap NodeId NodeEligibility) (blocked : BlockedMove)
    (placement : GroupPlacement) : Prop where
  group : cluster.group blocked.group = some placement
  leaving : ∃ node ∈ placement.currentVoters, cluster.Leaving node
  reason : match placement, blocked.reason with
    | .seeded .., .groupNotLive => True
    | .live _ _ (.stable voters), .targetsUnderDiskPressure =>
      (∃ node, cluster.Candidate blocked.group voters node) ∧
        ∀ node, cluster.Candidate blocked.group voters node →
          eligibility.get? node = some .diskPressure
    | .live _ _ (.stable voters), .noEligibleTarget =>
      (∀ node, cluster.Candidate blocked.group voters node →
        eligibility.get? node ≠ some .eligible) ∧
      ((∃ node, cluster.Candidate blocked.group voters node) →
        ∃ node, cluster.Candidate blocked.group voters node ∧
          eligibility.get? node ≠ some .diskPressure)
    | _, _ => False

end Cluster

/-! ## The chosen target -/

namespace Cluster

variable {cluster : Cluster} {group : RaftGroupId} {voters : VoterSet} {node : NodeId}

theorem mem_leavingNodes : node ∈ cluster.leavingNodes ↔ cluster.Leaving node := by
  rw [leavingNodes, mem_map]
  constructor
  · rintro ⟨⟨node', record⟩, hmem, rfl⟩
    obtain ⟨hentry, hleaving⟩ := mem_filter.mp hmem
    exact ⟨record, cluster.nodes.mem_entries.mp hentry, by simpa using hleaving⟩
  · rintro ⟨record, hnode, hleaving⟩
    exact ⟨(node, record), mem_filter.mpr
      ⟨cluster.nodes.mem_entries.mpr hnode, by simpa using hleaving⟩, rfl⟩

/-- A node outside the voters passes the kernel's target check exactly when it is a candidate. -/
theorem checkTarget_iff_candidate (hnode : node ∉ voters) :
    cluster.checkTarget group voters node = .ok () ↔ cluster.Candidate group voters node := by
  constructor
  · intro h
    refine ⟨hnode, ?_, (checkTarget_eq_ok h).2⟩
    obtain ⟨record, hknown, h⟩ := Checks.bind_eq_ok h
    obtain ⟨_, hlife, h⟩ := Checks.bind_eq_ok h
    refine ⟨record, known_eq_ok hknown, ?_⟩
    split_ifs at h with hineligible hretirement
    have hlife := checkLife_eq_ok_iff.mp hlife
    cases hlifecycle : record.lifecycle with
    | active => rfl
    | cordoned => exact absurd ⟨.inl hlifecycle, hnode⟩ hineligible
    | decommissioning => exact absurd ⟨.inr hlifecycle, hnode⟩ hineligible
    | removed | vacant => rw [hlifecycle] at hlife; cases hlife
  · rintro ⟨-, ⟨record, hrecord, hactive⟩, hretirement⟩
    have hknown : cluster.known node = .ok record := by
      rw [known, hrecord]
    simp only [checkTarget, hknown, checkLife, hactive, hretirement, bind, Except.bind]
    simp

theorem mem_qualifying :
    node ∈ cluster.qualifying group voters ↔ cluster.Candidate group voters node := by
  rw [qualifying, mem_filter, OrdMap.mem_keys]
  constructor
  · rintro ⟨-, hchecked⟩
    rw [decide_eq_true_eq] at hchecked
    exact (checkTarget_iff_candidate hchecked.1).mp hchecked.2
  · intro h
    obtain ⟨record, hrecord, -⟩ := h.active
    exact ⟨⟨record, hrecord⟩, by
      simpa using ⟨h.outside, (checkTarget_iff_candidate h.outside).mpr h⟩⟩

end Cluster

section Choice

variable {eligibility : OrdMap NodeId NodeEligibility} {load : OrdMap NodeId ℕ}

/-- What a scan of nodes found: nothing, and then none is eligible, or an eligible one with the
least load, and the smallest id on a tie. -/
def Chosen (eligibility : OrdMap NodeId NodeEligibility) (load : OrdMap NodeId ℕ)
    (nodes : List NodeId) : Option (ℕ × NodeId) → Prop
  | none => ∀ node ∈ nodes, eligibility.get? node ≠ some .eligible
  | some (count, target) =>
    target ∈ nodes ∧ eligibility.get? target = some .eligible ∧
      count = (load.get? target).getD 0 ∧
      ∀ node ∈ nodes, eligibility.get? node = some .eligible →
        count < (load.get? node).getD 0 ∨ count = (load.get? node).getD 0 ∧ target ≤ node

theorem chosen_betterTarget {nodes : List NodeId} {best : Option (ℕ × NodeId)}
    (h : Chosen eligibility load nodes best) (node : NodeId) :
    Chosen eligibility load (nodes ++ [node]) (betterTarget eligibility load best node) := by
  unfold betterTarget
  by_cases heligible : eligibility.get? node ≠ some .eligible
  · rw [if_pos heligible]
    cases best with
    | none =>
      intro other hother
      rcases mem_append.mp hother with hold | hnew
      · exact h other hold
      · rw [mem_singleton.mp hnew]
        exact heligible
    | some best =>
      obtain ⟨hmem, htarget, hcount, hleast⟩ := h
      refine ⟨mem_append_left _ hmem, htarget, hcount, fun other hother hok => ?_⟩
      rcases mem_append.mp hother with hold | hnew
      · exact hleast other hold hok
      · rw [mem_singleton.mp hnew] at hok
        exact absurd hok heligible
  · rw [if_neg heligible]
    have hok : eligibility.get? node = some .eligible := not_not.mp heligible
    have hself : node ∈ nodes ++ [node] := mem_append_right _ (mem_singleton_self node)
    cases best with
    | none =>
      refine ⟨hself, hok, rfl, fun other hother hotherOk => ?_⟩
      rcases mem_append.mp hother with hold | hnew
      · exact absurd hotherOk (h other hold)
      · rw [mem_singleton.mp hnew]
        exact .inr ⟨rfl, le_rfl⟩
    | some best =>
      obtain ⟨hmem, htarget, hcount, hleast⟩ := h
      dsimp only
      split_ifs with hbetter
      · refine ⟨hself, hok, rfl, fun other hother hotherOk => ?_⟩
        rcases mem_append.mp hother with hold | hnew
        · have hbefore := hleast other hold hotherOk
          grind
        · rw [mem_singleton.mp hnew]
          exact .inr ⟨rfl, le_rfl⟩
      · refine ⟨mem_append_left _ hmem, htarget, hcount, fun other hother hotherOk => ?_⟩
        rcases mem_append.mp hother with hold | hnew
        · exact hleast other hold hotherOk
        · rw [mem_singleton.mp hnew]
          grind

theorem chosen_foldl (nodes : List NodeId) :
    Chosen eligibility load nodes (nodes.foldl (betterTarget eligibility load) none) := by
  induction nodes using reverseRecOn with
  | nil => exact fun _ h => by cases h
  | append_singleton nodes node ih =>
    rw [foldl_append]
    exact chosen_betterTarget ih node

variable {cluster : Cluster} {group : RaftGroupId} {voters : VoterSet}

theorem chooseTarget_eq_ok {target : NodeId}
    (h : chooseTarget cluster group voters eligibility load = .ok target) :
    cluster.Candidate group voters target ∧ eligibility.get? target = some .eligible ∧
      ∀ node, cluster.Candidate group voters node → eligibility.get? node = some .eligible →
        (load.get? target).getD 0 < (load.get? node).getD 0 ∨
          (load.get? target).getD 0 = (load.get? node).getD 0 ∧ target ≤ node := by
  have hchosen : Chosen eligibility load (cluster.qualifying group voters) _ := chosen_foldl _
  unfold chooseTarget at h
  dsimp only at h
  split at h
  · rename_i count node hbest
    cases h
    rw [hbest] at hchosen
    obtain ⟨hmem, htarget, hcount, hleast⟩ := hchosen
    refine ⟨mem_qualifying.mp hmem, htarget, fun node hnode hok => ?_⟩
    rw [← hcount]
    exact hleast node (mem_qualifying.mpr hnode) hok
  · split_ifs at h

variable {convergedAt : MembershipLogId}

/-- A group is blocked for want of an eligible candidate, with the reason that holds. -/
theorem chooseTarget_eq_error {reason : BlockReason} {since : PlacementEpoch}
    (hgroup : cluster.group group = some (.live since convergedAt (.stable voters)))
    (hleaving : ∃ node ∈ voters, cluster.Leaving node)
    (h : chooseTarget cluster group voters eligibility load = .error reason) :
    cluster.Holds eligibility ⟨group, reason⟩ (.live since convergedAt (.stable voters)) := by
  have hchosen : Chosen eligibility load (cluster.qualifying group voters) _ := chosen_foldl _
  refine ⟨hgroup, hleaving, ?_⟩
  unfold chooseTarget at h
  dsimp only at h
  split at h
  · cases h
  rename_i hbest
  rw [hbest] at hchosen
  split_ifs at h with hpressure
  · cases h
    obtain ⟨hne, hall⟩ := hpressure
    obtain ⟨node, hnode⟩ := exists_mem_of_ne_nil _ hne
    exact ⟨⟨node, mem_qualifying.mp hnode⟩, fun node hnode => hall node (mem_qualifying.mpr hnode)⟩
  · cases h
    refine ⟨fun node hnode => hchosen node (mem_qualifying.mpr hnode), ?_⟩
    rintro ⟨node, hnode⟩
    by_contra hnone
    refine hpressure ⟨ne_nil_of_mem (mem_qualifying.mpr hnode), fun other hother => ?_⟩
    by_contra hother'
    exact hnone ⟨other, mem_qualifying.mp hother, hother'⟩

end Choice

/-! ## Roles with the moves planned so far -/

namespace Cluster

variable {cluster : Cluster}

theorem rolesAfter_eq_total (moves : List DecommissionMove) (node : NodeId) :
    cluster.rolesAfter moves node = OrdMap.total (fun group placement =>
      if (placement.role node).isSome ∨
        ∃ planned ∈ moves, planned.group = group ∧ node ∈ planned.toVoters then 1 else 0)
      cluster.groups := by
  refine (OrdMap.length_filter_entries (fun group (placement : GroupPlacement) =>
    decide ((placement.role node).isSome ∨
      ∃ planned ∈ moves, planned.group = group ∧ node ∈ planned.toVoters)) _).trans ?_
  simp only [decide_eq_true_eq]

theorem rolesAfter_nil (node : NodeId) : cluster.rolesAfter [] node = cluster.roles node := by
  simp [rolesAfter, roles]

/-- A move of a group that no earlier one moves counts for its target, and for no other node. -/
theorem rolesAfter_append {moves : List DecommissionMove} {planned : DecommissionMove}
    {voters : VoterSet} {leaving target : NodeId}
    (hstable : cluster.group planned.group =
      some (.live planned.expected convergedAt (.stable voters)))
    (hto : planned.toVoters.nodes = insert target (voters.nodes.erase leaving))
    (houtside : target ∉ voters) (hnew : ∀ earlier ∈ moves, earlier.group ≠ planned.group)
    (node : NodeId) :
    cluster.rolesAfter (moves ++ [planned]) node =
      cluster.rolesAfter moves node + if node = target then 1 else 0 := by
  have hmem : node ∈ planned.toVoters ↔ node = target ∨ node ≠ leaving ∧ node ∈ voters := by
    rw [← NonEmptyNodeSet.mem_nodes, hto, Finset.mem_insert, Finset.mem_erase,
      NonEmptyNodeSet.mem_nodes]
  have hrole : (GroupPlacement.role (.live planned.expected convergedAt (.stable voters))
      node).isSome ↔ node ∈ voters := GroupPlacement.role_isSome_iff
  have hother : ∀ group placement, cluster.groups.get? group = some placement →
      group ≠ planned.group →
      ((∃ earlier ∈ moves ++ [planned], earlier.group = group ∧ node ∈ earlier.toVoters) ↔
        ∃ earlier ∈ moves, earlier.group = group ∧ node ∈ earlier.toVoters) :=
    fun group placement _ hne => by
      simp [hne.symm, or_and_right, exists_or]
  rw [rolesAfter_eq_total, rolesAfter_eq_total]
  by_cases htarget : node = target
  · rw [if_pos htarget]
    subst htarget
    refine OrdMap.total_succ hstable ?_ fun group placement hget hne => ?_
    · rw [if_pos (.inr ⟨planned, by simp, rfl, hmem.mpr (.inl rfl)⟩), if_neg]
      rintro (h | ⟨earlier, hearlier, hsame, -⟩)
      · exact houtside (hrole.mp h)
      · exact hnew earlier hearlier hsame
    · simp only [hother group placement hget hne]
  · rw [if_neg htarget, Nat.add_zero]
    refine OrdMap.total_congr fun group placement hget => ?_
    by_cases hne : group = planned.group
    · subst hne
      rw [show cluster.groups.get? planned.group = _ from hstable] at hget
      cases hget
      by_cases hvoter : node ∈ voters
      · rw [if_pos (.inl (hrole.mpr hvoter)), if_pos (.inl (hrole.mpr hvoter))]
      rw [if_neg, if_neg]
      · rintro (h | ⟨earlier, hearlier, hsame, -⟩)
        · exact hvoter (hrole.mp h)
        · exact hnew earlier hearlier hsame
      · rintro (h | ⟨earlier, hearlier, hsame, hnode⟩)
        · exact hvoter (hrole.mp h)
        · rcases mem_append.mp hearlier with hold | hnewest
          · exact hnew earlier hold hsame
          · rw [mem_singleton.mp hnewest, hmem] at hnode
            exact hnode.elim htarget fun h => hvoter h.2
    · simp only [hother group placement hget hne]

end Cluster

/-! ## A pass -/

/-- The visits of a pass, in order. -/
def Cluster.visits (cluster : Cluster) : List (NodeId × RaftGroupId × GroupPlacement) :=
  cluster.leavingNodes.flatMap fun leaving =>
    cluster.groups.entries.map fun entry => (leaving, entry)

theorem planDecommission_eq (cluster : Cluster) (eligibility : OrdMap NodeId NodeEligibility) :
    planDecommission cluster eligibility =
      (cluster.visits.foldl (fun pass visit => Pass.visit cluster eligibility visit.1 pass visit.2)
        (Pass.start cluster)).plan := by
  rw [planDecommission, visits, foldl_flatMap]
  simp only [foldl_map]

theorem Cluster.mem_visits {cluster : Cluster} {leaving : NodeId} {group : RaftGroupId}
    {placement : GroupPlacement} :
    (leaving, group, placement) ∈ cluster.visits ↔
      cluster.Leaving leaving ∧ cluster.group group = some placement := by
  rw [visits, mem_flatMap, Cluster.group, ← OrdMap.mem_entries]
  constructor
  · rintro ⟨node, hnode, hentry⟩
    obtain ⟨entry, hmem, heq⟩ := mem_map.mp hentry
    cases heq
    exact ⟨mem_leavingNodes.mp hnode, hmem⟩
  · rintro ⟨hleaving, hentry⟩
    exact ⟨leaving, mem_leavingNodes.mpr hleaving, mem_map.mpr ⟨_, hentry, rfl⟩⟩

theorem Cluster.visits_sorted (cluster : Cluster) :
    cluster.visits.Pairwise fun visit later => visit.1 ≤ later.1 := by
  have hsorted : cluster.leavingNodes.Pairwise (· < ·) := by
    refine List.Pairwise.sublist ?_ cluster.nodes.keys_sorted
    exact filter_sublist.map Prod.fst
  rw [visits, pairwise_flatMap]
  refine ⟨fun leaving _ => pairwise_map.mpr (pairwise_of_forall fun _ _ => le_rfl), ?_⟩
  refine hsorted.imp fun hlt visit hvisit later hlater => ?_
  obtain ⟨_, -, rfl⟩ := mem_map.mp hvisit
  obtain ⟨_, -, rfl⟩ := mem_map.mp hlater
  exact hlt.le

/-- What a pass keeps while it visits: what it handled is what it saw, its moves drain, its reasons
hold, its load counts its moves, and only the slots cut it. -/
structure Pass.Keeps (cluster : Cluster) (eligibility : OrdMap NodeId NodeEligibility)
    (seen : List (NodeId × RaftGroupId × GroupPlacement)) (pass : Pass) : Prop where
  handled : ∀ group, group ∈ pass.handled ↔ ∃ leaving placement,
    (leaving, group, placement) ∈ seen ∧ (placement.role leaving).isSome ∧ placement.moving = none
  drains : ∀ earlier planned later, pass.plan.moves = earlier ++ planned :: later →
    ∃ convergedAt voters leaving target,
      cluster.Drains eligibility earlier planned convergedAt voters leaving target
  holds : ∀ blocked ∈ pass.plan.blocked, ∃ placement, cluster.Holds eligibility blocked placement
  load : ∀ node, pass.load.get? node =
    (cluster.node node).map fun _ => cluster.rolesAfter pass.plan.moves node
  slots : pass.plan.moves.length + pass.slots =
    freeSlots cluster.params.maxConcurrentMoves cluster.moving
  distinct : (pass.plan.moves.map DecommissionMove.group).Nodup
  moved : ∀ planned ∈ pass.plan.moves, planned.group ∈ pass.handled
  complete : ∀ group ∈ pass.handled, (∃ planned ∈ pass.plan.moves, planned.group = group) ∨
    (∃ blocked ∈ pass.plan.blocked, blocked.group = group) ∨ pass.slots = 0

namespace Pass.Keeps

variable {cluster : Cluster} {eligibility : OrdMap NodeId NodeEligibility}
  {seen : List (NodeId × RaftGroupId × GroupPlacement)} {pass : Pass} {leaving : NodeId}
  {group : RaftGroupId} {placement : GroupPlacement}

theorem start : Keeps cluster eligibility [] (.start cluster) where
  handled group := by simp [Pass.start]
  drains earlier planned later h := by simp [Pass.start] at h
  holds := by simp [Pass.start]
  load node := by simp [Pass.start, OrdMap.get?_mapValues, Cluster.rolesAfter_nil, Cluster.node]
  slots := by simp [Pass.start]
  distinct := by simp [Pass.start]
  moved := by simp [Pass.start]
  complete := by simp [Pass.start]

/-- A visit of a handled group, or one that does not concern its node or that moves, changes
nothing. -/
theorem skip (h : Keeps cluster eligibility seen pass)
    (hskip : group ∈ pass.handled ∨ placement.role leaving = none ∨ placement.moving ≠ none) :
    Keeps cluster eligibility (seen ++ [(leaving, group, placement)]) pass := by
  refine { h with handled := fun group' => ?_ }
  rw [h.handled]
  constructor
  · rintro ⟨node, placed, hmem, hrole⟩
    exact ⟨node, placed, mem_append_left _ hmem, hrole⟩
  · rintro ⟨node, placed, hmem, hrole, hmoving⟩
    rcases mem_append.mp hmem with hold | hnew
    · exact ⟨node, placed, hold, hrole, hmoving⟩
    cases mem_singleton.mp hnew
    rcases hskip with hhandled | hnone | hmoves
    · exact (h.handled group).mp hhandled
    · simp [hnone] at hrole
    · exact absurd hmoving hmoves

theorem handled_insert (h : Keeps cluster eligibility seen pass)
    (hrole : (placement.role leaving).isSome) (hmoving : placement.moving = none)
    (group' : RaftGroupId) :
    group' ∈ insert group pass.handled ↔ ∃ node placed,
      (node, group', placed) ∈ seen ++ [(leaving, group, placement)] ∧ (placed.role node).isSome ∧
        placed.moving = none := by
  rw [Finset.mem_insert, h.handled]
  constructor
  · rintro (rfl | ⟨node, placed, hmem, hrole⟩)
    · exact ⟨leaving, placement, by simp, hrole, hmoving⟩
    · exact ⟨node, placed, mem_append_left _ hmem, hrole⟩
  · rintro ⟨node, placed, hmem, hrole, hmoving⟩
    rcases mem_append.mp hmem with hold | hnew
    · exact .inr ⟨node, placed, hold, hrole, hmoving⟩
    · cases mem_singleton.mp hnew
      exact .inl rfl

theorem block (h : Keeps cluster eligibility seen pass) (hrole : (placement.role leaving).isSome)
    (hmoving : placement.moving = none) {reason : BlockReason}
    (hholds : cluster.Holds eligibility ⟨group, reason⟩ placement) :
    Keeps cluster eligibility (seen ++ [(leaving, group, placement)]) { pass with
        plan.blocked := pass.plan.blocked ++ [⟨group, reason⟩]
        handled := insert group pass.handled } where
  handled := h.handled_insert hrole hmoving
  drains := h.drains
  holds blocked hblocked := by
    rcases mem_append.mp hblocked with hold | hnew
    · exact h.holds blocked hold
    · rw [mem_singleton.mp hnew]
      exact ⟨placement, hholds⟩
  load := h.load
  slots := h.slots
  distinct := h.distinct
  moved planned hplanned := Finset.mem_insert_of_mem (h.moved planned hplanned)
  complete group' hgroup' := by
    rcases Finset.mem_insert.mp hgroup' with rfl | hold
    · exact .inr (.inl ⟨_, mem_append_right _ (mem_singleton_self _), rfl⟩)
    · refine (h.complete group' hold).imp_right (Or.imp_left ?_)
      rintro ⟨blocked, hblocked, hsame⟩
      exact ⟨blocked, mem_append_left _ hblocked, hsame⟩

theorem cut (h : Keeps cluster eligibility seen pass) (hrole : (placement.role leaving).isSome)
    (hmoving : placement.moving = none) (hslots : pass.slots = 0) :
    Keeps cluster eligibility (seen ++ [(leaving, group, placement)])
      { pass with handled := insert group pass.handled } :=
  { h with
    handled := h.handled_insert hrole hmoving
    moved := fun planned hplanned => Finset.mem_insert_of_mem (h.moved planned hplanned)
    complete := fun _ _ => .inr (.inr hslots) }

theorem move (h : Keeps cluster eligibility seen pass) (planned : DecommissionMove)
    {voters : VoterSet} {target : NodeId}
    (hgroup : cluster.group planned.group =
      some (.live planned.expected convergedAt (.stable voters)))
    (hto : planned.toVoters.nodes = insert target (voters.nodes.erase leaving))
    (hnew : planned.group ∉ pass.handled)
    (hleast : IsLeast {node | node ∈ voters ∧ cluster.Leaving node} leaving)
    (hchosen : chooseTarget cluster planned.group voters eligibility pass.load = .ok target)
    (hslots : pass.slots ≠ 0) :
    Keeps cluster eligibility
      (seen ++ [(leaving, planned.group, .live planned.expected convergedAt (.stable voters))])
      { plan := { pass.plan with moves := pass.plan.moves ++ [planned] }
        slots := pass.slots - 1
        load := pass.load.modify target (· + 1)
        handled := insert planned.group pass.handled } := by
  obtain ⟨hcandidate, heligible, hfewest⟩ := chooseTarget_eq_ok hchosen
  have hrole : (GroupPlacement.role (.live planned.expected convergedAt (.stable voters))
      leaving).isSome := GroupPlacement.role_isSome_iff.mpr hleast.1.1
  have hload : ∀ node, cluster.Candidate planned.group voters node →
      (pass.load.get? node).getD 0 = cluster.rolesAfter pass.plan.moves node := fun node hnode => by
    obtain ⟨record, hrecord, -⟩ := hnode.active
    rw [h.load, hrecord]
    rfl
  have hgroups : ∀ earlier ∈ pass.plan.moves, earlier.group ≠ planned.group :=
    fun earlier hearlier hsame => hnew (hsame ▸ h.moved earlier hearlier)
  refine ⟨h.handled_insert hrole rfl, ?_, h.holds, fun node => ?_, ?_, ?_, ?_, ?_⟩
  · intro earlier planned' later hsplit
    rcases eq_nil_or_concat later with rfl | ⟨later, last, rfl⟩
    · obtain ⟨rfl, hlast⟩ := append_inj' hsplit rfl
      cases hlast
      refine ⟨convergedAt, voters, leaving, target, hgroup, hleast, hto, hcandidate, heligible,
        fun node hnode hok => ?_⟩
      have hbest := hfewest node hnode hok
      rwa [hload target hcandidate, hload node hnode] at hbest
    · rw [concat_eq_append, ← cons_append, ← append_assoc] at hsplit
      exact h.drains earlier planned' later (append_inj' hsplit rfl).1
  · obtain ⟨record, hrecord, -⟩ := hcandidate.active
    dsimp only
    rw [OrdMap.get?_modify, h.load, h.load, hrecord,
      rolesAfter_append hgroup hto hcandidate.outside hgroups]
    by_cases hnode : node = target
    · subst hnode
      simp [hrecord]
    · simp [hnode]
  · have hcount := h.slots
    dsimp only
    rw [length_append, length_singleton]
    omega
  · dsimp only
    rw [map_append, nodup_append]
    refine ⟨h.distinct, nodup_singleton _, fun a ha b hb => ?_⟩
    obtain ⟨earlier, hearlier, rfl⟩ := mem_map.mp ha
    rw [mem_singleton.mp hb]
    exact hgroups earlier hearlier
  · intro planned' hplanned
    rcases mem_append.mp hplanned with hold | hnewest
    · exact Finset.mem_insert_of_mem (h.moved planned' hold)
    · rw [mem_singleton.mp hnewest]
      exact Finset.mem_insert_self ..
  · intro group' hgroup'
    rcases Finset.mem_insert.mp hgroup' with rfl | hold
    · exact .inl ⟨planned, mem_append_right _ (mem_singleton_self _), rfl⟩
    rcases h.complete group' hold with ⟨planned', hplanned, hsame⟩ | hblocked | hnone
    · exact .inl ⟨planned', mem_append_left _ hplanned, hsame⟩
    · exact .inr (.inl hblocked)
    · exact absurd hnone hslots

/-- A visit keeps all of it, provided that every visit of a smaller node came before. -/
theorem visit (h : Keeps cluster eligibility seen pass) (hleaving : cluster.Leaving leaving)
    (hgroup : cluster.group group = some placement)
    (hsmaller : ∀ node, cluster.Leaving node → node < leaving → (node, group, placement) ∈ seen) :
    Keeps cluster eligibility (seen ++ [(leaving, group, placement)])
      (pass.visit cluster eligibility leaving (group, placement)) := by
  unfold Pass.visit
  by_cases hskip : group ∈ pass.handled ∨ placement.role leaving = none
  · rw [if_pos hskip]
    exact h.skip (hskip.imp_right .inl)
  rw [if_neg hskip]
  rw [not_or] at hskip
  obtain ⟨hnew, hnone⟩ := hskip
  have hrole : (placement.role leaving).isSome := Option.isSome_iff_ne_none.mpr hnone
  have hholder := GroupPlacement.role_isSome_iff.mp hrole
  rcases placement with ⟨since, voters, init⟩ | ⟨since, convergedAt, voters | moving⟩
  · exact h.block hrole rfl ⟨hgroup, ⟨leaving, hholder, hleaving⟩, trivial⟩
  · -- a smaller leaving voter would have been visited first, and the group handled
    have hleast : IsLeast {node | node ∈ voters ∧ cluster.Leaving node} leaving := by
      refine ⟨⟨hholder, hleaving⟩, fun node hnode => not_lt.mp fun hlt => hnew ?_⟩
      exact (h.handled group).mpr ⟨node, _, hsmaller node hnode.2 hlt,
        GroupPlacement.role_isSome_iff.mpr hnode.1, rfl⟩
    dsimp only
    cases hchosen : chooseTarget cluster group voters eligibility pass.load with
    | error reason =>
      exact h.block hrole rfl (chooseTarget_eq_error hgroup ⟨leaving, hholder, hleaving⟩ hchosen)
    | ok target =>
      dsimp only
      by_cases hslots : pass.slots = 0
      · rw [if_pos hslots]
        exact h.cut hrole rfl hslots
      rw [if_neg hslots]
      refine h.move ⟨group, since, .fromFirst target (voters.nodes.filter (· ≠ leaving))⟩ hgroup ?_
        hnew hleast hchosen hslots
      rw [NonEmptyNodeSet.fromFirst, Finset.filter_ne']
  · exact h.skip (.inr (.inr (Option.some_ne_none moving)))

end Pass.Keeps

/-- What a plan is: its moves drain and are of different groups, its reasons hold, it has at most as
many moves as there are slots, and with a slot left it takes up every group with a leaving node that
does not move. -/
structure DecommissionPlan.Planned (cluster : Cluster)
    (eligibility : OrdMap NodeId NodeEligibility) (plan : DecommissionPlan) : Prop where
  drains : ∀ earlier planned later, plan.moves = earlier ++ planned :: later →
    ∃ convergedAt voters leaving target,
      cluster.Drains eligibility earlier planned convergedAt voters leaving target
  distinct : (plan.moves.map DecommissionMove.group).Nodup
  holds : ∀ blocked ∈ plan.blocked, ∃ placement, cluster.Holds eligibility blocked placement
  slots : plan.moves.length ≤ freeSlots cluster.params.maxConcurrentMoves cluster.moving
  complete : ∀ group placement node, cluster.group group = some placement →
    placement.moving = none → (placement.role node).isSome → cluster.Leaving node →
    (∃ planned ∈ plan.moves, planned.group = group) ∨
      (∃ blocked ∈ plan.blocked, blocked.group = group) ∨
      plan.moves.length = freeSlots cluster.params.maxConcurrentMoves cluster.moving

theorem planned_planDecommission (cluster : Cluster) (eligibility : OrdMap NodeId NodeEligibility) :
    (planDecommission cluster eligibility).Planned cluster eligibility := by
  -- induction on the visits made so far, which the others follow
  have hkeeps : ∀ seen rest, cluster.visits = seen ++ rest → Pass.Keeps cluster eligibility seen
      (seen.foldl (fun pass visit => Pass.visit cluster eligibility visit.1 pass visit.2)
        (.start cluster)) := by
    intro seen
    induction seen using reverseRecOn with
    | nil => exact fun _ _ => Pass.Keeps.start
    | append_singleton seen visit ih =>
      intro rest hsplit
      obtain ⟨leaving, group, placement⟩ := visit
      rw [append_assoc, singleton_append] at hsplit
      obtain ⟨hleaving, hgroup⟩ : cluster.Leaving leaving ∧ cluster.group group = some placement :=
        mem_visits.mp (hsplit ▸ mem_append_right _ (mem_cons_self ..))
      rw [foldl_append]
      refine (ih _ hsplit).visit hleaving hgroup fun node hnode hlt => ?_
      have hmem : (node, group, placement) ∈ seen ++ (leaving, group, placement) :: rest :=
        hsplit ▸ mem_visits.mpr ⟨hnode, hgroup⟩
      refine (mem_append.mp hmem).resolve_right fun hlater => ?_
      have hsorted := hsplit ▸ cluster.visits_sorted
      rcases mem_cons.mp hlater with heq | hrest
      · cases heq
        exact lt_irrefl _ hlt
      · have hle := (pairwise_cons.mp (pairwise_append.mp hsorted).2.1).1 _ hrest
        exact absurd hlt (not_lt.mpr hle)
  have h := hkeeps cluster.visits [] (append_nil _).symm
  rw [planDecommission_eq]
  refine ⟨h.drains, h.distinct, h.holds, by have := h.slots; omega, ?_⟩
  intro group placement node hgroup hmoving hrole hleaving
  have hhandled := (h.handled group).mpr
    ⟨node, placement, mem_visits.mpr ⟨hleaving, hgroup⟩, hrole, hmoving⟩
  refine (h.complete group hhandled).imp_right (Or.imp_right fun hnone => ?_)
  have hslots := h.slots
  omega

end Ursula.Control

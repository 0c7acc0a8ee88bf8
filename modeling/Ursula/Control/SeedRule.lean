import Mathlib.Algebra.Order.BigOperators.Group.Finset
import Mathlib.Data.Int.CardIntervalMod
import Ursula.Control.Apply

/-!
# The seed rule

Bootstrap seeds each group on a window of consecutive nodes in ascending id, which starts one node
later for each next group and wraps around. A node's place `i` is in the window of a group when a
shift below the window's width takes the group there modulo the number of nodes. Each shift takes
every `N`-th group to `i`, so the windows spread evenly.

## Main results

* `mem_seedVoters_iff`: the places of a group's window
* `seed_rule_spreads`: every node votes in its share of the groups and initializes its share
-/

namespace Ursula.Control

open List NonEmptyNodeSet

variable {group : RaftGroupId} {nodes : NodeSet} {replicationFactor : ℕ+} {i : ℕ}

/-! ## The window of a group -/

theorem len_pos (nodes : NodeSet) : 0 < nodes.len := Finset.card_pos.mpr nodes.nonempty

theorem rotationStart_lt : rotationStart group nodes < nodes.iter.length := by
  rw [length_iter]
  exact Nat.mod_lt _ (len_pos nodes)

theorem initializer_eq : initializer group nodes =
    nodes.iter.get ⟨rotationStart group nodes, rotationStart_lt⟩ := by
  unfold initializer
  rw [getElem?_eq_getElem rotationStart_lt]
  rfl

theorem initializer_eq_iff (hi : i < nodes.iter.length) :
    initializer group nodes = nodes.iter.get ⟨i, hi⟩ ↔ group % nodes.len = i := by
  rw [initializer_eq]
  exact (Finset.nodup_ascending nodes.nodes).getElem_inj_iff

/-- The nodes of a group's window. -/
def seedWindow (group : RaftGroupId) (replicationFactor : ℕ+) (nodes : NodeSet) : List NodeId :=
  (nodes.iter.rotate (rotationStart group nodes)).take (min replicationFactor nodes.len)

theorem mem_seedWindow_iff (hi : i < nodes.iter.length) :
    nodes.iter.get ⟨i, hi⟩ ∈ seedWindow group replicationFactor nodes ↔
      ∃ k < min (replicationFactor : ℕ) nodes.len, (k + group) % nodes.len = i := by
  have hplace (k : ℕ) : (k + rotationStart group nodes) % nodes.len = (k + group) % nodes.len :=
    Nat.add_mod_mod ..
  simp only [seedWindow, mem_take_iff_getElem, length_rotate, getElem_rotate, length_iter,
    min_assoc, min_self, hplace]
  refine exists_congr fun k => ⟨?_, ?_⟩
  · rintro ⟨hk, hnode⟩
    exact ⟨hk, (Finset.nodup_ascending nodes.nodes).getElem_inj_iff.mp hnode⟩
  · rintro ⟨hk, rfl⟩
    exact ⟨hk, rfl⟩

theorem initializer_mem_seedWindow :
    initializer group nodes ∈ seedWindow group replicationFactor nodes := by
  rw [initializer_eq, mem_seedWindow_iff]
  refine ⟨0, lt_min replicationFactor.pos (len_pos nodes), ?_⟩
  rw [Nat.zero_add]
  rfl

theorem nodes_seedVoters : (seedVoters group replicationFactor nodes).nodes =
    (seedWindow group replicationFactor nodes).toFinset :=
  Finset.insert_eq_self.mpr (mem_toFinset.mpr initializer_mem_seedWindow)

theorem mem_seedVoters {node : NodeId} (h : node ∈ seedVoters group replicationFactor nodes) :
    node ∈ nodes := by
  rw [← mem_nodes, nodes_seedVoters, mem_toFinset] at h
  exact mem_iter.mp (mem_rotate.mp (mem_of_mem_take h))

/-- A group is seeded on as many voters as the replication factor, up to the node count. -/
theorem len_seedVoters :
    (seedVoters group replicationFactor nodes).len = min (replicationFactor : ℕ) nodes.len := by
  have hnodup : (seedWindow group replicationFactor nodes).Nodup :=
    (nodup_rotate.mpr (Finset.nodup_ascending nodes.nodes)).sublist (take_sublist ..)
  rw [len, nodes_seedVoters, toFinset_card_of_nodup hnodup, seedWindow, length_take, length_rotate,
    length_iter, min_assoc, min_self]

/-! ## Shares -/

/-- A shift takes every `N`-th group to one place. -/
theorem card_shift (groups k : ℕ) (hi : i < nodes.len) :
    ((Finset.range groups).filter fun group => (k + group) % nodes.len = i).card =
        groups / nodes.len ∨
      ((Finset.range groups).filter fun group => (k + group) % nodes.len = i).card =
        (groups + nodes.len - 1) / nodes.len := by
  have hpos := len_pos nodes
  -- the group that the shift takes to the place
  have hshift (group : ℕ) : (k + group) % nodes.len = i ↔
      group ≡ i + (nodes.len - k % nodes.len) [MOD nodes.len] := by
    have hback : (k + (i + (nodes.len - k % nodes.len))) % nodes.len = i := by
      have hwhole : k + (i + (nodes.len - k % nodes.len)) =
          i + nodes.len * (k / nodes.len + 1) := by
        have hk := Nat.div_add_mod k nodes.len
        have hless := Nat.mod_lt k hpos
        rw [Nat.mul_succ]
        omega
      rw [hwhole, Nat.add_mul_mod_self_left, Nat.mod_eq_of_lt hi]
    rw [← Nat.ModEq.add_iff_left (Nat.ModEq.refl k), Nat.ModEq, hback]
  simp only [hshift]
  rw [← Nat.count_eq_card_filter_range, Nat.count_modEq_card _ hpos]
  have hceil : groups % nodes.len = 0 ∨
      (groups + nodes.len - 1) / nodes.len = groups / nodes.len + 1 := by
    refine (Nat.eq_zero_or_pos _).imp_right fun hrest => ?_
    have hparts := Nat.div_add_mod groups nodes.len
    have hsum : groups + nodes.len - 1 =
        groups % nodes.len - 1 + nodes.len * (groups / nodes.len + 1) := by
      rw [Nat.mul_succ]
      omega
    have hless := Nat.mod_lt groups hpos
    rw [hsum, Nat.add_mul_div_left _ _ hpos, Nat.div_eq_of_lt (by omega), Nat.zero_add]
  split_ifs with hless
  · right
    omega
  · exact .inl (Nat.add_zero _)

/-- The groups whose window holds a place, by the shift that takes them there. -/
theorem card_voting (groups : ℕ) (hi : i < nodes.iter.length) :
    ((Finset.range groups).filter fun group =>
        nodes.iter.get ⟨i, hi⟩ ∈ seedVoters group replicationFactor nodes).card =
      ∑ k ∈ Finset.range (min replicationFactor nodes.len),
        ((Finset.range groups).filter fun group => (k + group) % nodes.len = i).card := by
  rw [← Finset.card_biUnion]
  · congr 1
    ext group
    rw [Finset.mem_filter, ← mem_nodes, nodes_seedVoters, mem_toFinset, mem_seedWindow_iff]
    simp only [Finset.mem_biUnion, Finset.mem_filter, Finset.mem_range]
    tauto
  · -- two shifts of one group to the place are equal, both below the number of nodes
    intro k hk k' hk' hne
    have hbelow {k : ℕ} (hk : k ∈ Finset.range (min replicationFactor nodes.len)) : k < nodes.len :=
      (lt_min_iff.mp (Finset.mem_range.mp hk)).2
    refine Finset.disjoint_filter.mpr fun group _ hplace hplace' => hne ?_
    have hmod : k ≡ k' [MOD nodes.len] :=
      Nat.ModEq.add_right_cancel' group (hplace.trans hplace'.symm)
    exact hmod.eq_of_lt_of_lt (hbelow hk) (hbelow hk')

/-- **The seed rule spreads evenly.** Every group has `min rf N` voters among the nodes, its
initializer one of them, and over the first groups every node votes in its share of them and
initializes its share, up to the partial last round. -/
theorem seed_rule_spreads (nodes : NodeSet) (replicationFactor : ℕ+) (groups : ℕ) :
    (∀ group, (seedVoters group replicationFactor nodes).len =
      min (replicationFactor : ℕ) nodes.len ∧
      (∀ node ∈ seedVoters group replicationFactor nodes, node ∈ nodes) ∧
      initializer group nodes ∈ seedVoters group replicationFactor nodes) ∧
    ∀ node ∈ nodes,
      let voting := (Finset.range groups).filter fun group =>
        node ∈ seedVoters group replicationFactor nodes
      let initializing := (Finset.range groups).filter fun group => initializer group nodes = node
      min (replicationFactor : ℕ) nodes.len * (groups / nodes.len) ≤ voting.card ∧
      voting.card ≤ min (replicationFactor : ℕ) nodes.len * ((groups + nodes.len - 1) / nodes.len) ∧
      (initializing.card = groups / nodes.len ∨
        initializing.card = (groups + nodes.len - 1) / nodes.len) := by
  refine ⟨fun group => ⟨len_seedVoters, fun _ => mem_seedVoters, Finset.mem_insert_self ..⟩,
    fun node hnode => ?_⟩
  obtain ⟨⟨i, hi⟩, rfl⟩ := mem_iff_get.mp (mem_iter.mpr hnode)
  have hlen : i < nodes.len := length_iter nodes ▸ hi
  set width := min (replicationFactor : ℕ) nodes.len
  have hceil : groups / nodes.len ≤ (groups + nodes.len - 1) / nodes.len :=
    Nat.div_le_div_right (by have := len_pos nodes; omega)
  have hconst (share : ℕ) : width * share = ∑ _k ∈ Finset.range width, share := by
    rw [Finset.sum_const_nat fun _ _ => rfl, Finset.card_range]
  dsimp only
  rw [card_voting]
  refine ⟨?_, ?_, ?_⟩
  · calc
      width * (groups / nodes.len) = ∑ _k ∈ Finset.range width, groups / nodes.len := hconst _
      _ ≤ _ := Finset.sum_le_sum fun k _ => by rcases card_shift groups k hlen with h | h <;> omega
  · calc
      _ ≤ ∑ _k ∈ Finset.range width, (groups + nodes.len - 1) / nodes.len :=
        Finset.sum_le_sum fun k _ => by rcases card_shift groups k hlen with h | h <;> omega
      _ = _ := (hconst _).symm
  · simpa only [initializer_eq_iff, Nat.zero_add] using card_shift groups 0 hlen

end Ursula.Control

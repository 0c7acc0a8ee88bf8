import Ursula.Fence.Book

/-!
# What a node believes of its peers

The book's entry of a peer is the process the node believed last for it. On one root the entry only
rises with the run. It leaves a root only when the view binds another one, so a root the views never
bind again is never believed again. A root may be seen before any view has a slot for its node, so
what is asked of the views counts the roots the node believed besides those the views named.

## Main definitions

* `Supersedes`: what a later process is to an earlier one
* `Roots`, `BindsFresh`: the roots that are spent, and views that bind none of them

## Main results

* `Tracks.run`: the book follows what the run believed
* `superseded_never_believed`: believed processes of a root rise, only the bound root is believed, a
  request never names a process again that another replaced, and a discarded answer changes nothing
-/

namespace Ursula.Fence

open List IncarnationBook PeerCluster

open Control (NodeId RootId RootSlot ControlPlaneState)

/-! ## Judgements -/

/-- What a later process must be to an earlier one: on the same root a higher run, or the same
process. -/
def Supersedes (earlier later : ProcessIncarnation) : Prop :=
  later.root = earlier.root → earlier.run < later.run ∨ later = earlier

theorem Supersedes.trans {p q r : ProcessIncarnation} (hpq : Supersedes p q) (hqr : Supersedes q r)
    (hroot : q.root = p.root) : Supersedes p r := by
  intro hr
  rcases hqr (hr.trans hroot.symm) with hlt | rfl
  · rcases hpq hroot with hlt' | rfl
    · exact .inl (hlt'.trans hlt)
    · exact .inl hlt
  · exact hpq hroot

variable {seen : ProcessIncarnation}

theorem relation_cases {entry : ProcessIncarnation}
    (h : entry.relation seen = .same ∨ entry.relation seen = .newer) : Supersedes entry seen := by
  intro _
  unfold ProcessIncarnation.relation at h
  split_ifs at h with hroot holder hnewer hnonce <;> simp only [or_self] at h
  · exact .inl hnewer
  obtain ⟨root, run, nonce⟩ := entry
  obtain ⟨root', run', nonce'⟩ := seen
  simp only [ne_eq, not_not] at hroot
  have hrun : run' = run := by
    dsimp only at holder hnewer
    omega
  dsimp only at hnonce hroot
  exact .inr (by rw [hroot, hrun, hnonce])

theorem judgeOn_accept {root : RootId} {entry : Option ProcessIncarnation}
    (h : judgeOn root entry seen = .accept) :
    seen.root = root ∧ ∀ process ∈ entry, Supersedes process seen := by
  unfold judgeOn at h
  split_ifs at h with hroot
  rw [ne_eq, not_not] at hroot
  refine ⟨hroot, ?_⟩
  rintro process ⟨⟩ hsame
  have hkept : (some process).filter (fun entry => entry.root = root) = some process :=
    Option.filter_some_pos (by rw [← hroot, hsame]; exact decide_eq_true rfl)
  rw [hkept] at h
  dsimp only at h
  refine relation_cases ?_ hsame
  split at h
  · exact .inl ‹_›
  · exact .inr ‹_›
  all_goals cases h

/-- An accepted process comes after the entry, is on the root the slot binds, and on the entry's
root when there is no slot. -/
theorem judge_accept {entry : Option ProcessIncarnation} {slot : Option RootSlot}
    (h : judge entry slot seen = .accept) :
    (∀ process ∈ entry, Supersedes process seen) ∧ (∀ s ∈ slot, s = .bound seen.root) ∧
      (slot = none → ∀ process ∈ entry, process.root = seen.root) := by
  unfold judge at h
  split at h
  · obtain ⟨hroot, hentry⟩ := judgeOn_accept h
    refine ⟨hentry, ?_, nofun⟩
    rintro s ⟨⟩
    rw [hroot]
  · cases h
  · obtain ⟨hroot, hentry⟩ := judgeOn_accept h
    refine ⟨hentry, nofun, ?_⟩
    rintro - process ⟨⟩
    exact hroot.symm
  · exact ⟨nofun, nofun, nofun⟩

/-! ## The book -/

namespace IncarnationBook

variable {book : IncarnationBook} {node : NodeId}

/-- The book holds only these nodes. -/
def Within (names : Finset NodeId) (book : IncarnationBook) : Prop :=
  ∀ node, (book.get? node).isSome → node ∈ names

variable {names : Finset NodeId}

theorem Within.hasRoom (h : book.Within names) (hcap : names.card < incarnationBookCap)
    (node : NodeId) : book.hasRoom node = true := by
  have hsubset : book.keys.toFinset ⊆ names := by
    intro key hkey
    obtain ⟨peer, hpeer⟩ := (book.mem_keys key).mp (mem_toFinset.mp hkey)
    exact h key (Option.isSome_of_eq_some hpeer)
  have hsize : book.size = book.keys.toFinset.card := by
    rw [toFinset_card_of_nodup book.keys_nodup, OrdMap.keys, length_map]
    rfl
  have hlt : book.size < incarnationBookCap := by
    rw [hsize]
    exact (Finset.card_le_card hsubset).trans_lt hcap
  rw [IncarnationBook.hasRoom, decide_eq_true hlt, Bool.or_true]

theorem Within.insert (h : book.Within names) (hnode : node ∈ names) (peer : Peer) :
    Within names (book.insert node peer) := by
  intro other hother
  rw [OrdMap.get?_insert] at hother
  split_ifs at hother with hsame
  · exact hsame ▸ hnode
  · exact h other hother

theorem peer_insert (book : IncarnationBook) (node other : NodeId) (peer : Peer) :
    IncarnationBook.peer (book.insert node peer) other =
      if other = node then peer else book.peer other := by
  unfold IncarnationBook.peer
  rw [OrdMap.get?_insert]
  split_ifs <;> rfl

theorem observe_accept (h : book.Within names) (hcap : names.card < incarnationBookCap)
    (haccept : judge (book.peer node).entry (book.peer node).slot seen = .accept) :
    (book.observe node seen).1 = book.insert node { book.peer node with entry := some seen } := by
  unfold observe
  dsimp only
  rw [haccept, h.hasRoom hcap node]
  rfl

theorem observe_refuse (h : (book.observe node seen).2 ≠ .accept) :
    (book.observe node seen).1 = book := by
  unfold observe at h ⊢
  dsimp only at h ⊢
  rw [decide_eq_false h]
  rfl

theorem foldl_setSlot (hcap : names.card < incarnationBookCap) {slots : List (NodeId × RootSlot)}
    (hslots : ∀ slot ∈ slots, slot.1 ∈ names) (hnodup : (slots.map Prod.fst).Nodup)
    (h : book.Within names) :
    Within names (slots.foldl setSlot book) ∧
      ∀ node, peer (slots.foldl setSlot book) node =
        { book.peer node with
          slot := (OrdMap.lookupIn node slots).or (book.peer node).slot } := by
  induction slots generalizing book with
  | nil => exact ⟨h, fun _ => rfl⟩
  | cons slot rest ih =>
    obtain ⟨hfresh, hrest⟩ := nodup_cons.mp hnodup
    have hset : setSlot book slot =
        book.insert slot.1 { book.peer slot.1 with slot := some slot.2 } := by
      rw [setSlot, if_pos (h.hasRoom hcap slot.1)]
    have hwithin : Within names (setSlot book slot) := by
      rw [hset]
      exact h.insert (hslots slot mem_cons_self) _
    obtain ⟨hrestWithin, hpeers⟩ :=
      ih (fun other hother => hslots other (mem_cons_of_mem _ hother)) hrest hwithin
    refine ⟨hrestWithin, fun node => ?_⟩
    have hlookup : OrdMap.lookupIn node (slot :: rest) =
        if node = slot.1 then some slot.2 else OrdMap.lookupIn node rest := rfl
    rw [foldl_cons, hpeers, hset, peer_insert, hlookup]
    by_cases hnode : node = slot.1
    · -- The rest of the view does not name this node again.
      have hnone : OrdMap.lookupIn node rest = none := by
        refine OrdMap.lookupIn_eq_none fun other hother hsame => hfresh ?_
        rw [← hnode, ← hsame]
        exact mem_map_of_mem hother
      rw [if_pos hnode, if_pos hnode, hnone, hnode]
      rfl
    · rw [if_neg hnode, if_neg hnode]

/-- A view sets the slot of every peer. -/
theorem peer_setSlots (hcap : names.card < incarnationBookCap) {slots : OrdMap NodeId RootSlot}
    (hslots : ∀ node ∈ slots.keys, node ∈ names) (h : book.Within names) :
    Within names (book.setSlots slots) ∧
      ∀ node, peer (book.setSlots slots) node =
        { book.peer node with slot := slots.get? node } := by
  have hcleared : Within names (book.mapValues fun _ peer => { peer with slot := none }) := by
    intro node hnode
    rw [OrdMap.get?_mapValues, Option.isSome_map] at hnode
    exact h node hnode
  obtain ⟨hwithin, hpeers⟩ := foldl_setSlot hcap
    (fun slot hslot => hslots slot.1 (mem_map_of_mem hslot)) slots.keys_nodup hcleared
  refine ⟨hwithin, fun node => ?_⟩
  have hpeer : peer (book.mapValues fun _ peer => { peer with slot := none }) node =
      { book.peer node with slot := none } := by
    unfold peer
    rw [OrdMap.get?_mapValues]
    cases book.get? node <;> rfl
  rw [setSlots, hpeers, hpeer, Option.or_none]
  rfl

end IncarnationBook

/-! ## Steps -/

/-- A request passes when it is a forward or its sender is accepted; otherwise the book stays. -/
theorem receive_cases (me : ProcessIncarnation) (sender : Option (NodeId × ProcessIncarnation))
    (target : Option ProcessIncarnation) (rpc : Rpc) (book : IncarnationBook) :
    (∃ node process, sender = some (node, process) ∧ rpc = .raft ∧
      (book.observe node process).2 = .accept ∧
      receive me sender target rpc book = ((book.observe node process).1, .pass)) ∨
    (rpc = .forward ∧ receive me sender target rpc book = (book, .pass)) ∨
    ∃ received, received ≠ .pass ∧ receive me sender target rpc book = (book, received) := by
  have hjudged : ∀ node process,
      ((book.observe node process).2 = .accept ∧
        Received.ofJudgement (book.observe node process).2 = .pass) ∨
      (Received.ofJudgement (book.observe node process).2 ≠ .pass ∧
        (book.observe node process).1 = book) := by
    intro node process
    by_cases haccept : (book.observe node process).2 = .accept
    · exact .inl ⟨haccept, by rw [haccept]; rfl⟩
    refine .inr ⟨?_, observe_refuse haccept⟩
    cases hjudgement : (book.observe node process).2 with
    | accept => exact absurd hjudgement haccept
    | older | duplicate | unbound => exact Received.noConfusion
  unfold receive
  rcases sender with _ | ⟨node, process⟩
  · exact .inr (.inr ⟨_, Received.noConfusion, rfl⟩)
  dsimp only
  split
  iterate 4
    · exact .inr (.inr ⟨_, Received.noConfusion, rfl⟩)
  all_goals
    cases rpc with
    | forward => exact .inr (.inl ⟨rfl, rfl⟩)
    | raft =>
      rcases hjudged node process with ⟨haccept, hpass⟩ | ⟨hrefused, hbook⟩
      · exact .inl ⟨node, process, rfl, rfl, haccept, by rw [hpass]⟩
      · exact .inr (.inr ⟨_, hrefused, by rw [hbook]⟩)

namespace PeerCluster

variable {cluster : PeerCluster} {me : ProcessIncarnation} {node : NodeId}

section Bound

variable (hme : cluster.me = some me)
include hme

/-- An answer is used when its responder is accepted, which raises the entry; a discarded one leaves
the node as it is. -/
theorem acceptResponder_spec (target : NodeId) (stamp : Stamp) :
    (∃ process, stamp.incarnation = some process ∧
      (cluster.book.observe target process).2 = .accept ∧
      cluster.acceptResponder target stamp =
        ({ cluster with book := (cluster.book.observe target process).1 }, .ok ())) ∨
    ∃ discarded, cluster.acceptResponder target stamp = (cluster, .error discarded) := by
  obtain ⟨_, book, leased, superseded⟩ := cluster
  cases hme
  unfold acceptResponder
  split_ifs
  · exact .inr ⟨_, rfl⟩
  · cases stamp.node.filter fun node => node ≠ target with
    | some other => exact .inr ⟨_, rfl⟩
    | none =>
      cases hprocess : stamp.incarnation with
      | none => exact .inr ⟨_, rfl⟩
      | some process =>
        dsimp only
        by_cases haccept : (book.observe target process).2 = .accept
        · exact .inl ⟨process, rfl, haccept, by rw [if_pos haccept]⟩
        · refine .inr ⟨.stale (book.observe target process).2, ?_⟩
          rw [if_neg haccept, observe_refuse haccept]

/-- A Raft request passes when its sender is accepted, which raises the entry; a refused one leaves
the book as it is. -/
theorem receive_spec (admitted : Option AdmittedPeer) (rpc : Rpc) :
    (∃ peer process, admitted = some peer ∧ peer.sender = some process ∧ rpc = .raft ∧
      (cluster.book.observe peer.node process).2 = .accept ∧
      cluster.receive admitted rpc =
        ({ cluster with book := (cluster.book.observe peer.node process).1 }, .ok ())) ∨
    (rpc = .forward ∧ cluster.receive admitted rpc = (cluster, .ok ())) ∨
    ∃ refusal, (cluster.receive admitted rpc).2 = .error refusal ∧
      (cluster.receive admitted rpc).1.book = cluster.book := by
  obtain ⟨_, book, leased, superseded⟩ := cluster
  cases hme
  unfold receive
  dsimp only
  split_ifs
  · exact .inr (.inr ⟨_, rfl, rfl⟩)
  · rcases receive_cases me
        (admitted.bind fun peer => peer.sender.map fun sender => (peer.node, sender))
        (admitted.bind AdmittedPeer.target) rpc book with
      ⟨node, process, hsender, rfl, haccept, heq⟩ | ⟨rfl, heq⟩ | ⟨received, hpass, heq⟩
    · obtain ⟨peer, rfl, hprocess⟩ := Option.bind_eq_some_iff.mp hsender
      obtain ⟨process, hprocess, hpair⟩ := Option.map_eq_some_iff.mp hprocess
      cases hpair
      refine .inl ⟨peer, process, rfl, hprocess, rfl, haccept, ?_⟩
      rw [heq]
    · refine .inr (.inl ⟨rfl, ?_⟩)
      rw [heq]
    · rw [heq]
      cases received with
      | pass => exact absurd rfl hpass
      | refused refusal => exact .inr (.inr ⟨refusal, rfl, rfl⟩)
      | superseded => exact .inr (.inr ⟨.fenced, rfl, rfl⟩)

/-- A failure that carries a stamp or a refusal changes the book as an answer does. -/
theorem observeFailure_book (target : NodeId) (stamp : Stamp)
    (refusal : Option FenceRefusal) : (cluster.observeFailure target stamp refusal).1.book =
      (cluster.acceptResponder target stamp).1.book := by
  rcases acceptResponder_spec hme target stamp with
    ⟨process, hprocess, -, heq⟩ | ⟨discarded, heq⟩
  · unfold observeFailure
    rw [heq, hprocess]
    cases refusal with
    | none => rfl
    | some refusal =>
      simp only [Option.isNone_some, Bool.and_false, Bool.false_eq_true, if_false,
        observeFenceRefusal]
      split_ifs <;> rfl
  · unfold observeFailure
    rw [heq]
    split_ifs <;> rfl

end Bound

theorem step_me (cluster : PeerCluster) (event : Event) : (cluster.step event).me = cluster.me := by
  obtain ⟨me, book, leased, superseded⟩ := cluster
  have hanswer : ∀ target stamp,
      (acceptResponder ⟨me, book, leased, superseded⟩ target stamp).1.me = me := by
    intro target stamp
    unfold acceptResponder
    split_ifs
    · rfl
    · cases me with
      | none => rfl
      | some me =>
        dsimp only
        split <;> rfl
  cases event with
  | receive admitted rpc =>
    show (receive ⟨me, book, leased, superseded⟩ admitted rpc).1.me = me
    unfold receive
    split_ifs
    · rfl
    · cases me with
      | none => rfl
      | some me =>
        dsimp only
        split <;> rfl
  | answer target stamp => exact hanswer target stamp
  | failure target stamp refusal =>
    show (observeFailure ⟨me, book, leased, superseded⟩ target stamp refusal).1.me = me
    unfold observeFailure
    split_ifs
    · rfl
    · have hme := hanswer target stamp
      generalize acceptResponder ⟨me, book, leased, superseded⟩ target stamp = answered at hme
      obtain ⟨after, _ | _⟩ := answered
      · exact hme
      cases refusal with
      | none => exact hme
      | some refusal =>
        simp only [observeFenceRefusal]
        split_ifs <;> exact hme
  | view view => rfl
  | lease held => rfl

/-- What an event does to the book: a believed process is accepted and raises its peer's entry, a
view sets the slots, and any other event leaves the book as it is. -/
theorem step_cases (hme : cluster.me = some me) (event : Event) :
    (∃ peer process, cluster.accepted event = some (peer, process) ∧ peer ∈ event.names ∧
      (∀ view, event ≠ .view view) ∧
      (cluster.book.observe peer process).2 = .accept ∧
      (cluster.step event).book = (cluster.book.observe peer process).1) ∨
    (cluster.accepted event = none ∧ (∀ view, event ≠ .view view) ∧
      (cluster.step event).book = cluster.book) ∨
    ∃ view, event = .view view ∧ cluster.accepted event = none ∧
      (cluster.step event).book = cluster.book.setSlots (viewSlots view) := by
  cases event with
  | receive admitted rpc =>
    rcases receive_spec hme admitted rpc with
      ⟨peer, process, rfl, hsender, rfl, haccept, heq⟩ | ⟨rfl, heq⟩ | ⟨refusal, hrefused, hbook⟩
    · refine .inl ⟨peer.node, process, ?_, mem_cons_self, nofun, haccept, ?_⟩
      · simp only [accepted, heq, Option.bind_some, hsender, Option.map_some]
      · simp only [step, heq]
    · refine .inr (.inl ⟨rfl, nofun, ?_⟩)
      simp only [step, heq]
    · refine .inr (.inl ⟨?_, nofun, hbook⟩)
      cases rpc with
      | forward => rfl
      | raft => simp only [accepted, hrefused]
  | answer target stamp =>
    rcases acceptResponder_spec hme target stamp with
      ⟨process, hprocess, haccept, heq⟩ | ⟨discarded, heq⟩
    · refine .inl ⟨target, process, ?_, mem_cons_self, nofun, haccept, ?_⟩
      · simp only [accepted, heq, hprocess, Option.map_some]
      · simp only [step, heq]
    · refine .inr (.inl ⟨?_, nofun, ?_⟩)
      · simp only [accepted, heq]
      · simp only [step, heq]
  | failure target stamp refusal =>
    have hbook := observeFailure_book hme target stamp refusal
    rcases acceptResponder_spec hme target stamp with
      ⟨process, hprocess, haccept, heq⟩ | ⟨discarded, heq⟩
    · refine .inl ⟨target, process, ?_, mem_cons_self, nofun, haccept, ?_⟩
      · simp only [accepted, heq, hprocess, Option.map_some]
      · exact hbook.trans (by rw [heq])
    · refine .inr (.inl ⟨?_, nofun, ?_⟩)
      · simp only [accepted, heq]
      · exact hbook.trans (by rw [heq])
  | view view => exact .inr (.inr ⟨view, rfl, rfl, rfl⟩)
  | lease held => exact .inr (.inl ⟨rfl, nofun, rfl⟩)

end PeerCluster

/-! ## Roots -/

/-- What a run says of the roots of one node: those it named so far, and those that are spent, each
released or named before the views bound another. -/
structure Roots where
  known : List RootId
  spent : List RootId

namespace Roots

/-- Before any view. -/
def none : Roots := ⟨[], []⟩

/-- The roots after a view's slot for the node. -/
def view (roots : Roots) : Option RootSlot → Roots
  | some (.bound root) => ⟨root :: roots.known, roots.spent ++ roots.known.filter (· ≠ root)⟩
  | some (.released root) => ⟨root :: roots.known, root :: roots.spent⟩
  | .none => roots

/-- The roots after an event, where `learned` is a root the run names by itself. -/
def after (roots : Roots) (node : NodeId) (learned : Option RootId) : Event → Roots
  | .view view => roots.view ((viewSlots view).get? node)
  | _ => ⟨learned.toList ++ roots.known, roots.spent⟩

end Roots

theorem slotAfter_of_ne {node : NodeId} {slot : Option RootSlot} {event : Event}
    (h : ∀ view, event ≠ .view view) : slotAfter node slot event = slot := by
  cases event with
  | view view => exact absurd rfl (h view)
  | receive | answer | failure | lease => rfl

theorem Roots.after_of_ne {roots : Roots} {node : NodeId} {learned : Option RootId} {event : Event}
    (h : ∀ view, event ≠ .view view) : roots.after node learned event =
      ⟨learned.toList ++ roots.known, roots.spent⟩ := by
  cases event with
  | view view => exact absurd rfl (h view)
  | receive | answer | failure | lease => rfl

/-- Along a run every view binds to the node only a root that is not spent. The run names the roots
its views name, and those that `learn` reads off its other events. -/
def BindsFresh (learn : PeerCluster → Event → Option RootId) (node : NodeId) :
    PeerCluster → Roots → List Event → Prop
  | _, _, [] => True
  | cluster, roots, event :: rest =>
    (match event with
      | .view view => ∀ root ∈ roots.spent, (viewSlots view).get? node ≠ some (.bound root)
      | _ => True) ∧
    BindsFresh learn node (cluster.step event) (roots.after node (learn cluster event) event) rest

/-- The root of the process an event makes the node believe for a peer. -/
def believedRoot (node : NodeId) (cluster : PeerCluster) (event : Event) : Option RootId :=
  (cluster.believes node event).map ProcessIncarnation.root

/-! ## The invariant -/

section Sublists

variable {α : Type} {l : List α} {p q r x : α}

theorem sublist_three_concat (h : [p, q, r].Sublist (l ++ [x])) :
    [p, q, r].Sublist l ∨ r = x ∧ [p, q].Sublist l := by
  obtain ⟨l₁, l₂, heq, h₁, h₂⟩ := sublist_append_iff.mp h
  rcases sublist_singleton.mp h₂ with rfl | rfl
  · rw [append_nil] at heq
    exact .inl (heq ▸ h₁)
  · obtain ⟨rfl, hr⟩ := append_inj' (show [p, q] ++ [r] = l₁ ++ [x] from heq) rfl
    exact .inr ⟨singleton_inj.mp hr, h₁⟩

theorem sublist_two_last (h : [p, q].Sublist l) (hlast : l.getLast? = some x) :
    q = x ∨ [p, q, x].Sublist l := by
  obtain ⟨before, rfl⟩ := getLast?_eq_some_iff.mp hlast
  obtain ⟨l₁, l₂, heq, h₁, h₂⟩ := sublist_append_iff.mp h
  rcases sublist_singleton.mp h₂ with rfl | rfl
  · rw [append_nil] at heq
    exact .inr ((heq ▸ h₁).append (List.Sublist.refl [x]))
  · obtain ⟨-, hq⟩ := append_inj' (show [p] ++ [q] = l₁ ++ [x] from heq) rfl
    exact .inl (singleton_inj.mp hq)

/-- The last element of a list and the other last element of a longer one. -/
theorem sublist_of_last {l' : List α} (hp : l.getLast? = some p) (hq : l'.getLast? = some q)
    (hne : q ≠ p) (h : l <+: l') : [p, q].Sublist l' := by
  obtain ⟨rest, rfl⟩ := h
  obtain ⟨before, rfl⟩ := getLast?_eq_some_iff.mp hp
  rw [append_assoc, singleton_append]
  cases hrest : rest.getLast? with
  | none =>
    rw [getLast?_eq_none_iff.mp hrest, append_nil, getLast?_concat] at hq
    exact absurd (Option.some.inj hq).symm hne
  | some last =>
    obtain ⟨middle, rfl⟩ := getLast?_eq_some_iff.mp hrest
    rw [← append_assoc, getLast?_concat] at hq
    cases hq
    refine List.Sublist.trans ?_ (sublist_append_right _ _)
    exact (sublist_append_right middle [q]).cons_cons p

end Sublists

/-- The book's peer follows the latest view's slot and what the run believed. -/
structure Tracks (node : NodeId) (slot : Option RootSlot) (history : List ProcessIncarnation)
    (roots : Roots) (cluster : PeerCluster) : Prop where
  entry : (cluster.book.peer node).entry = history.getLast?
  slotEq : (cluster.book.peer node).slot = slot
  ordered : history.Pairwise Supersedes
  /-- A root the book left does not come back. -/
  blocks : ∀ p q r, [p, q, r].Sublist history → r.root = p.root → q.root = p.root
  known : ∀ process ∈ history, process.root ∈ roots.known
  /-- The roots the book left are spent. -/
  moved : ∀ process ∈ history, ∀ last ∈ history.getLast?, process.root ≠ last.root →
    process.root ∈ roots.spent
  bound : ∀ root, slot = some (.bound root) → root ∉ roots.spent ∧
    ∀ process ∈ history, process.root ≠ root → process.root ∈ roots.spent

namespace Tracks

variable {node : NodeId} {slot : Option RootSlot} {history : List ProcessIncarnation}
  {roots : Roots} {cluster : PeerCluster}

variable {cluster' : PeerCluster}

variable (h : Tracks node slot history roots cluster)
include h

theorem believe {process : ProcessIncarnation}
    (haccept : judge (cluster.book.peer node).entry (cluster.book.peer node).slot process = .accept)
    (hpeer : cluster'.book.peer node = { cluster.book.peer node with entry := some process }) :
    Tracks node slot (history ++ [process])
      ⟨process.root :: roots.known, roots.spent⟩ cluster' := by
  rw [h.entry, h.slotEq] at haccept
  obtain ⟨hentry, hslot, hfirst⟩ := judge_accept haccept
  -- Processes of the new process's root: with another last root they would be spent, and the slot
  -- binds no spent root.
  have hsame : ∀ other ∈ history, process.root = other.root →
      ∀ last ∈ history.getLast?, other.root = last.root := by
    intro other hother hroot last hlast
    by_contra hne
    have hspent := h.moved other hother last hlast hne
    cases hs : slot with
    | none =>
      refine hne ?_
      rw [hfirst hs last hlast, hroot]
    | some s =>
      have hbound := hslot s hs
      rw [hbound] at hs
      exact (h.bound process.root hs).1 (hroot ▸ hspent)
  have hlast : ∀ other ∈ history, ∃ newest, history.getLast? = some newest := by
    intro other hother
    rw [← Option.isSome_iff_exists, getLast?_isSome]
    exact ne_nil_of_mem hother
  refine ⟨?_, ?_, ?_, ?_, ?_, ?_, ?_⟩
  · rw [hpeer, getLast?_concat]
  · rw [hpeer]
    exact h.slotEq
  · refine pairwise_append.mpr ⟨h.ordered, pairwise_singleton _ _, ?_⟩
    intro other hother new hnew
    rw [mem_singleton.mp hnew]
    intro hroot
    obtain ⟨newest, hnewest⟩ := hlast other hother
    have hrootNewest := hsame other hother hroot newest hnewest
    obtain ⟨before, rfl⟩ := getLast?_eq_some_iff.mp hnewest
    rcases mem_append.mp hother with hbefore | hlast
    · have hstep : Supersedes other newest :=
        (pairwise_append.mp h.ordered).2.2 other hbefore newest mem_cons_self
      exact hstep.trans (hentry newest hnewest) hrootNewest.symm hroot
    · rw [mem_singleton.mp hlast] at hroot ⊢
      exact hentry newest hnewest hroot
  · intro p q r hsub hroot
    rcases sublist_three_concat hsub with hold | ⟨rfl, hpair⟩
    · exact h.blocks p q r hold hroot
    have hp : p ∈ history := hpair.subset mem_cons_self
    obtain ⟨newest, hnewest⟩ := hlast p hp
    have hrootNewest := hsame p hp hroot newest hnewest
    rcases sublist_two_last hpair hnewest with rfl | hthree
    · exact hrootNewest.symm
    · exact h.blocks p q newest hthree hrootNewest.symm
  · intro other hother
    rcases mem_append.mp hother with hold | hnew
    · exact mem_cons_of_mem _ (h.known other hold)
    · rw [mem_singleton.mp hnew]
      exact mem_cons_self
  · intro other hother new hnew hne
    rw [getLast?_concat] at hnew
    cases hnew
    rcases mem_append.mp hother with hold | hnew
    · cases hs : slot with
      | none =>
        obtain ⟨newest, hnewest⟩ := hlast other hold
        refine h.moved other hold newest hnewest ?_
        rw [hfirst hs newest hnewest]
        exact hne
      | some s =>
        have hbound := hslot s hs
        rw [hbound] at hs
        exact (h.bound process.root hs).2 other hold hne
    · exact absurd (congrArg ProcessIncarnation.root (mem_singleton.mp hnew)) hne
  · intro root hs
    refine ⟨(h.bound root hs).1, fun other hother hne => ?_⟩
    rcases mem_append.mp hother with hold | hnew
    · exact (h.bound root hs).2 other hold hne
    · have hbound := hslot _ hs
      rw [mem_singleton.mp hnew] at hne
      exact absurd (RootSlot.bound.inj hbound).symm hne

theorem view {slot' : Option RootSlot} (hfresh : ∀ root ∈ roots.spent, slot' ≠ some (.bound root))
    (hpeer : cluster'.book.peer node = { cluster.book.peer node with slot := slot' }) :
    Tracks node slot' history (roots.view slot') cluster' := by
  have hknown : ∀ root ∈ roots.known, root ∈ (roots.view slot').known := by
    intro root hroot
    rcases slot' with _ | _ | _
    · exact hroot
    · exact mem_cons_of_mem _ hroot
    · exact mem_cons_of_mem _ hroot
  have hspent : ∀ root ∈ roots.spent, root ∈ (roots.view slot').spent := by
    intro root hroot
    rcases slot' with _ | _ | _
    · exact hroot
    · exact mem_append_left _ hroot
    · exact mem_cons_of_mem _ hroot
  refine ⟨?_, ?_, h.ordered, h.blocks, fun process hprocess => hknown _ (h.known process hprocess),
    fun process hprocess last hlast hne => hspent _ (h.moved process hprocess last hlast hne), ?_⟩
  · rw [hpeer]
    exact h.entry
  · rw [hpeer]
  · rintro root rfl
    refine ⟨fun hmem => ?_, fun process hprocess hne => ?_⟩
    · rcases mem_append.mp hmem with hold | hnew
      · exact hfresh root hold rfl
      · simp at hnew
    · refine mem_append_right _ (mem_filter.mpr ⟨h.known process hprocess, ?_⟩)
      simpa using hne

/-- The roots a run knows may grow. -/
theorem learn (hbook : cluster'.book.peer node = cluster.book.peer node) (learned : List RootId) :
    Tracks node slot history ⟨learned ++ roots.known, roots.spent⟩ cluster' :=
  ⟨hbook ▸ h.entry, hbook ▸ h.slotEq, h.ordered, h.blocks,
    fun process hprocess => mem_append_right _ (h.known process hprocess), h.moved, h.bound⟩

theorem step {me : ProcessIncarnation}
    (hme : cluster.me = some me) {names : Finset NodeId} (hcap : names.card < incarnationBookCap)
    (hwithin : cluster.book.Within names) {event : Event} (hnames : ∀ n ∈ event.names, n ∈ names)
    (hfresh : ∀ view, event = .view view → ∀ root ∈ roots.spent,
      (viewSlots view).get? node ≠ some (.bound root)) :
    (cluster.step event).book.Within names ∧
      Tracks node (slotAfter node slot event) (history ++ (cluster.believes node event).toList)
        (roots.after node (believedRoot node cluster event) event) (cluster.step event) := by
  rcases step_cases hme event with
    ⟨peer, process, haccepted, hpeer, hview, haccept, hbook⟩ | ⟨haccepted, hview, hbook⟩ |
      ⟨view, rfl, haccepted, hbook⟩
  · -- A believed process: of this peer, or of another one.
    rw [observe_accept hwithin hcap haccept] at hbook
    rw [slotAfter_of_ne hview, Roots.after_of_ne hview]
    refine ⟨hbook ▸ hwithin.insert (hnames peer hpeer) _, ?_⟩
    by_cases hsame : peer = node
    · subst hsame
      have hbelieves : cluster.believes peer event = some process := by
        simp [believes, haccepted]
      rw [believedRoot, hbelieves]
      refine h.believe haccept ?_
      rw [hbook, peer_insert, if_pos rfl]
    · have hbelieves : cluster.believes node event = none := by
        simp [believes, haccepted, hsame]
      rw [believedRoot, hbelieves, Option.toList_none, append_nil]
      refine h.learn ?_ []
      rw [hbook, peer_insert, if_neg (Ne.symm hsame)]
  · have hbelieves : cluster.believes node event = none := by
      rw [believes, haccepted]
      rfl
    rw [slotAfter_of_ne hview, Roots.after_of_ne hview, believedRoot, hbelieves,
      Option.toList_none, append_nil]
    exact ⟨hbook ▸ hwithin, h.learn (by rw [hbook]) []⟩
  · obtain ⟨hwithin', hpeers⟩ := peer_setSlots hcap
      (fun n hn => hnames n hn) hwithin
    have hbelieves : cluster.believes node (.view view) = none := rfl
    rw [hbelieves, Option.toList_none, append_nil]
    refine ⟨hbook ▸ hwithin', h.view (hfresh view rfl) ?_⟩
    exact hpeers node

theorem run {me : ProcessIncarnation} (hme : cluster.me = some me) {names : Finset NodeId}
    (hcap : names.card < incarnationBookCap) (hwithin : cluster.book.Within names)
    {events : List Event} (hnames : ∀ event ∈ events, ∀ n ∈ event.names, n ∈ names)
    (hfresh : BindsFresh (believedRoot node) node cluster roots events) :
    ∃ roots', Tracks node (events.foldl (slotAfter node) slot)
      (history ++ cluster.believed node events) roots' (cluster.run events) := by
  induction events generalizing slot history roots cluster with
  | nil =>
    refine ⟨roots, ?_⟩
    rw [believed, append_nil]
    exact h
  | cons event rest ih =>
    obtain ⟨hview, hrest⟩ := hfresh
    obtain ⟨hwithin', hstep⟩ := h.step hme hcap hwithin (hnames event mem_cons_self)
      (by rintro view rfl; exact hview)
    obtain ⟨roots', hrun⟩ := ih hstep ((cluster.step_me event).trans hme) hwithin'
      (fun other hother => hnames other (mem_cons_of_mem _ hother)) hrest
    refine ⟨roots', ?_⟩
    rw [append_assoc] at hrun
    exact hrun

/-- The process a request names is the one the node believed last. -/
theorem targetIncarnation_believed {process : ProcessIncarnation}
    (htarget : cluster.targetIncarnation node = some process) :
    history.getLast? = some process := by
  obtain ⟨-, -, hentry⟩ := Option.bind_eq_some_iff.mp htarget
  obtain ⟨peer, hpeer, hentry⟩ := Option.bind_eq_some_iff.mp hentry
  obtain ⟨entry, hentry, hjudged⟩ := Option.bind_eq_some_iff.mp hentry
  split_ifs at hjudged
  cases hjudged
  rw [← h.entry, IncarnationBook.peer, hpeer]
  exact hentry

/-- A process that another one replaced is not believed again. -/
theorem eq_of_returns {p q : ProcessIncarnation} (hsub : [p, q, p].Sublist history) : q = p := by
  have hroot := h.blocks p q p hsub rfl
  have hordered := h.ordered.sublist hsub
  rw [pairwise_cons, pairwise_cons] at hordered
  rcases hordered.1 q mem_cons_self hroot with hlt | heq
  · rcases hordered.2.1 p mem_cons_self hroot.symm with hgt | heq
    · omega
    · exact heq.symm
  · exact heq

end Tracks

theorem tracks_bind (me : ProcessIncarnation) (node : NodeId) :
    Tracks node none [] .none (.bind me) :=
  ⟨rfl, rfl, List.Pairwise.nil, (fun _ _ _ hsub => by cases hsub), nofun, nofun, nofun⟩

theorem BindsFresh.of_append {learn : PeerCluster → Event → Option RootId} {node : NodeId}
    {cluster : PeerCluster} {roots : Roots} {before after : List Event}
    (h : BindsFresh learn node cluster roots (before ++ after)) :
    BindsFresh learn node cluster roots before := by
  induction before generalizing cluster roots with
  | nil => trivial
  | cons event rest ih => exact ⟨h.1, ih h.2⟩

namespace PeerCluster

theorem run_me (me : ProcessIncarnation) (events : List Event) :
    ((bind me).run events).me = some me := by
  have hrun : ∀ cluster : PeerCluster, (cluster.run events).me = cluster.me := by
    induction events with
    | nil => exact fun _ => rfl
    | cons event rest ih => exact fun cluster => (ih _).trans (cluster.step_me event)
  exact hrun _

theorem believed_append (node : NodeId) (cluster : PeerCluster) (before after : List Event) :
    cluster.believed node (before ++ after) =
      cluster.believed node before ++ (cluster.run before).believed node after := by
  induction before generalizing cluster with
  | nil => rfl
  | cons event rest ih =>
    rw [cons_append, believed, believed, ih, append_assoc]
    rfl

end PeerCluster

section Run

variable {me : ProcessIncarnation} {node : NodeId} {events : List Event}

/-- What holds at every point of a run. -/
theorem tracks_prefix (hpeers : (peersOf events).card < incarnationBookCap)
    (hviews : BindsFresh (believedRoot node) node (.bind me) .none events)
    {before after : List Event} (hsplit : events = before ++ after) :
    ∃ roots, Tracks node (currentSlot node before) ((bind me).believed node before) roots
      ((bind me).run before) := by
  subst hsplit
  refine (tracks_bind me node).run rfl hpeers (fun n hn => by cases hn)
    (fun event hevent n hn => ?_) hviews.of_append
  exact mem_toFinset.mpr (mem_flatMap.mpr ⟨event, mem_append_left _ hevent, hn⟩)

/-- **A superseded process is never believed again.** The views bind no root to the peer that they
released, or that they or the node named before they bound another. Then the processes of one root
that the node believes for the peer rise; while the view has a slot for the peer only processes of
the root it binds are believed; the process that requests to the peer name is the one believed last,
and never again one that another replaced; and an answer that is discarded changes neither the node
nor, whatever it says, the result of the call. -/
theorem superseded_never_believed (hpeers : (peersOf events).card < incarnationBookCap)
    (hviews : BindsFresh (believedRoot node) node (.bind me) .none events) :
    ((PeerCluster.bind me).believed node events).Pairwise Supersedes ∧
    (∀ before event after process, events = before ++ event :: after →
      ((PeerCluster.bind me).run before).accepted event = some (node, process) →
      ∀ slot ∈ currentSlot node before, slot = .bound process.root) ∧
    (∀ before after process, events = before ++ after →
      ((PeerCluster.bind me).run before).targetIncarnation node = some process →
      ((PeerCluster.bind me).believed node before).getLast? = some process) ∧
    (∀ before middle after p q, events = before ++ middle ++ after →
      ((PeerCluster.bind me).run before).targetIncarnation node = some p →
      ((PeerCluster.bind me).run (before ++ middle)).targetIncarnation node = some q → q ≠ p →
      ((PeerCluster.bind me).run events).targetIncarnation node ≠ some p) ∧
    ∀ before after, events = before ++ after →
      ∀ (α : Type) (target : NodeId) (stamp : Stamp) (response response' : α)
        (discarded : Discarded),
        (((PeerCluster.bind me).run before).takeAnswer target stamp response).2 = .error discarded →
        (((PeerCluster.bind me).run before).takeAnswer target stamp response).1 =
          (PeerCluster.bind me).run before ∧
        (((PeerCluster.bind me).run before).takeAnswer target stamp response').2 =
          .error discarded := by
  refine ⟨?_, ?_, ?_, ?_, ?_⟩
  · obtain ⟨roots, htracks⟩ := tracks_prefix hpeers hviews (append_nil events).symm
    exact htracks.ordered
  · intro before event after process hsplit haccepted slot hslot
    obtain ⟨roots, htracks⟩ := tracks_prefix hpeers hviews hsplit
    rcases step_cases (run_me me before) event with
      ⟨peer, other, hother, -, -, haccept, -⟩ | ⟨hnone, -⟩ | ⟨-, -, hnone, -⟩
    · rw [haccepted] at hother
      cases hother
      rw [← htracks.slotEq] at hslot
      exact (judge_accept haccept).2.1 slot hslot
    · rw [haccepted] at hnone
      cases hnone
    · rw [haccepted] at hnone
      cases hnone
  · intro before after process hsplit htarget
    obtain ⟨roots, htracks⟩ := tracks_prefix hpeers hviews hsplit
    exact htracks.targetIncarnation_believed htarget
  · intro before middle after p q hsplit hp hq hne hback
    obtain ⟨rootsP, htracksP⟩ := tracks_prefix hpeers hviews
      (hsplit.trans (append_assoc before middle after))
    obtain ⟨rootsQ, htracksQ⟩ := tracks_prefix hpeers hviews hsplit
    obtain ⟨roots, htracks⟩ := tracks_prefix hpeers hviews (append_nil events).symm
    -- The histories extend each other, so the last one holds `p`, then `q`, then `p` again.
    have hlastP := htracksP.targetIncarnation_believed hp
    have hlastQ := htracksQ.targetIncarnation_believed hq
    have hlast := htracks.targetIncarnation_believed hback
    have hpair : [p, q].Sublist ((bind me).believed node (before ++ middle)) := by
      have hextends := believed_append node (.bind me) before middle
      exact sublist_of_last hlastP hlastQ hne ⟨_, hextends.symm⟩
    have hextends := believed_append node (.bind me) (before ++ middle) after
    rw [← hsplit] at hextends
    have hpair' : [p, q].Sublist ((bind me).believed node events) :=
      hpair.trans (hextends ▸ sublist_append_left _ _)
    rcases sublist_two_last hpair' hlast with rfl | hthree
    · exact hne rfl
    · exact hne (htracks.eq_of_returns hthree)
  · intro before after _ α target stamp response response' discarded hdiscarded
    unfold takeAnswer at hdiscarded ⊢
    rcases acceptResponder_spec (run_me me before) target stamp with
      ⟨process, -, -, heq⟩ | ⟨reason, heq⟩
    · rw [heq] at hdiscarded
      cases hdiscarded
    · rw [heq] at hdiscarded ⊢
      cases hdiscarded
      exact ⟨rfl, rfl⟩

end Run

/-- A view that binds one root to node 2. -/
def viewBinding (root : RootId) : ControlPlaneState :=
  .forming ((∅ : OrdMap NodeId Control.Registration).insert 2 ⟨0, .bound root⟩)

/-- A Raft request of node 2. -/
def requestFrom (process : ProcessIncarnation) : Event :=
  .receive (some ⟨2, some process, none⟩) .raft

/-- Node 2 restarts on its root, and the view then moves it to another. -/
def movedRoot : List Event :=
  [.view (viewBinding 7), requestFrom ⟨7, 4, 0⟩, requestFrom ⟨7, 5, 0⟩, requestFrom ⟨7, 4, 0⟩,
    .view (viewBinding 8), requestFrom ⟨8, 0, 0⟩]

theorem superseded_never_believed_movedRoot :
    (PeerCluster.bind ⟨1, 0, 0⟩).believed 2 movedRoot = [⟨7, 4, 0⟩, ⟨7, 5, 0⟩, ⟨8, 0, 0⟩] ∧
      ((PeerCluster.bind ⟨1, 0, 0⟩).believed 2 movedRoot).Pairwise Supersedes := by
  refine ⟨by decide +kernel, (superseded_never_believed (by decide +kernel) ?_).1⟩
  refine ⟨?_, trivial, trivial, trivial, ?_, trivial, trivial⟩
  · nofun
  · decide +kernel

/-- Node 2's root 7 is seen in run 5 while the view has no slot for the node. A view then binds the
root 8, a process of which replaces the entry, and the next view binds 7, for the first time: run 3
of root 7 is believed. -/
def seenBeforeBound : List Event :=
  [requestFrom ⟨7, 5, 0⟩, .view (viewBinding 8), requestFrom ⟨8, 0, 0⟩, .view (viewBinding 7),
    requestFrom ⟨7, 3, 0⟩]

theorem older_run_believed_again :
    (peersOf seenBeforeBound).card < incarnationBookCap ∧
    BindsFresh (fun _ _ => none) 2 (.bind ⟨1, 0, 0⟩) .none seenBeforeBound ∧
    (PeerCluster.bind ⟨1, 0, 0⟩).believed 2 seenBeforeBound =
      [⟨7, 5, 0⟩, ⟨8, 0, 0⟩, ⟨7, 3, 0⟩] ∧
    ¬ Supersedes ⟨7, 5, 0⟩ ⟨7, 3, 0⟩ := by
  refine ⟨by decide +kernel, ?_, by decide +kernel, ?_⟩
  · refine ⟨trivial, nofun, trivial, ?_, trivial, trivial⟩
    decide +kernel
  · intro h
    rcases h rfl with hlt | heq
    · exact absurd hlt (by decide)
    · exact absurd heq (by decide)

end Ursula.Fence

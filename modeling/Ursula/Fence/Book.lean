import Ursula.Control.Model

/-!
# The process fence between nodes

Every Raft request names the process that sends it and the process it is for, and every answer the
process that gives it. A process is a log root, the run of that root and a nonce. A node keeps a
book of its peers' processes: per peer the newest process seen on the root that the node's placement
view binds to it, or on the first root seen while the view has no slot for it. A request from a
process the book judges stale is refused, and an answer from one is discarded before it is decoded.

A node without a process incarnation of its own takes no part in the fence.

## Main definitions

* `ProcessIncarnation.relation`, `judge`: how a process stands to the one the book holds
* `IncarnationBook.observe`, `entry`, `setSlots`: the book
* `PeerCluster.receive`, `acceptResponder`, `observeFailure`, `observeView`: the checks at one node
* `Event`, `PeerCluster.step`, `PeerCluster.run`: what a node goes through
-/

namespace Ursula.Fence

open Control (NodeId RootId RootSlot ControlPlaneState)

/-! ## Processes -/

/-- One process of a node id. -/
structure ProcessIncarnation where
  root : RootId
  run : ℕ
  nonce : ℕ
deriving DecidableEq

/-- How one process stands to another. -/
inductive Relation
  | same
  | older
  | newer
  /-- Another process of the same run of the same root. -/
  | duplicate
  | otherRoot
deriving DecidableEq

/-- How `other` stands to a process. -/
def ProcessIncarnation.relation (process other : ProcessIncarnation) : Relation :=
  if process.root ≠ other.root then .otherRoot
  else if other.run < process.run then .older
  else if process.run < other.run then .newer
  else if other.nonce = process.nonce then .same
  else .duplicate

/-! ## The book -/

/-- How the book judges the process a peer says it is. -/
inductive Judgement
  /-- The entry, a newer run of its root, or a first entry. -/
  | accept
  | older
  | duplicate
  /-- A root other than the one the view binds, a released root, or, while the view has no slot,
  another root than the first seen. -/
  | unbound
deriving DecidableEq

/-- How a process stands to the entry, on the root that counts. -/
def judgeOn (root : RootId) (entry : Option ProcessIncarnation) (seen : ProcessIncarnation) :
    Judgement :=
  if seen.root ≠ root then .unbound
  else
    match entry.filter fun entry => entry.root = root with
    | none => .accept
    | some entry =>
      match entry.relation seen with
      | .same | .newer => .accept
      | .older => .older
      | .duplicate => .duplicate
      | .otherRoot => .unbound

/-- How a process stands to the newest one recorded for its node, under the root the view binds for
it. -/
def judge (entry : Option ProcessIncarnation) (slot : Option RootSlot) (seen : ProcessIncarnation) :
    Judgement :=
  match slot, entry with
  | some (.bound root), entry => judgeOn root entry seen
  | some (.released _), _ => .unbound
  | none, some entry => judgeOn entry.root (some entry) seen
  | none, none => .accept

/-- What a book holds of one peer. -/
structure Peer where
  entry : Option ProcessIncarnation
  slot : Option RootSlot
deriving DecidableEq

/-- A peer of which nothing is known. -/
def Peer.default : Peer := ⟨none, none⟩

/-- A node's table of its peers' processes. -/
abbrev IncarnationBook := OrdMap NodeId Peer

/-- The most peers a book remembers. -/
def incarnationBookCap : ℕ := 4096

namespace IncarnationBook

variable (book : IncarnationBook)

/-- What the book has of a node. -/
def peer (node : NodeId) : Peer := (book.get? node).getD .default

/-- Whether the book may hold the node: it holds it already, or has room. -/
def hasRoom (node : NodeId) : Bool :=
  book.contains node || decide (book.size < incarnationBookCap)

/-- Judges a process of a node, and raises the entry to it when accepted. -/
def observe (node : NodeId) (seen : ProcessIncarnation) :
    IncarnationBook × Judgement :=
  let peer := book.peer node
  let judgement := judge peer.entry peer.slot seen
  (if judgement = .accept && book.hasRoom node then
    book.insert node { peer with entry := some seen }
  else book, judgement)

/-- The process the book holds for a node: its entry, when the slot does not rule it out. -/
def entry (book : IncarnationBook) (node : NodeId) : Option ProcessIncarnation :=
  (book.get? node).bind fun peer => peer.entry.bind fun entry =>
    if judge (some entry) peer.slot entry = .accept then some entry else none

/-- The book with a node's slot, while there is room. -/
def setSlot (slot : NodeId × RootSlot) : IncarnationBook :=
  if book.hasRoom slot.1 then book.insert slot.1 { book.peer slot.1 with slot := some slot.2 }
  else book

/-- Takes the roots a view binds. A node the view does not name keeps no slot. -/
def setSlots (slots : OrdMap NodeId RootSlot) : IncarnationBook :=
  slots.entries.foldl setSlot (book.mapValues fun _ peer => { peer with slot := none })

end IncarnationBook

/-! ## The receiver's and the sender's checks -/

/-- Why a receiver refuses a request. -/
inductive FenceRefusal
  | fenced
  | staleTarget
  | staleSender
  | unboundRoot
  | duplicate
  | unidentified
deriving DecidableEq

/-- What a request is to the receiver's sender check. -/
inductive Rpc
  /-- A Raft RPC, a recovery barrier or a genesis probe. -/
  | raft
  /-- A forwarded write or read: never refused for its sender. -/
  | forward
deriving DecidableEq

/-- The receiver's verdict on a request. -/
inductive Received
  | pass
  | refused (refusal : FenceRefusal)
  /-- The request names a newer run of this root as its target. -/
  | superseded
deriving DecidableEq

/-- The verdict on a sender the book judged. -/
def Received.ofJudgement : Judgement → Received
  | .accept => .pass
  | .older => .refused .staleSender
  | .unbound => .refused .unboundRoot
  | .duplicate => .refused .duplicate

/-- How a request stands at the process `me`, and the book after it. -/
def receive (me : ProcessIncarnation) (sender : Option (NodeId × ProcessIncarnation))
    (target : Option ProcessIncarnation) (rpc : Rpc) (book : IncarnationBook) :
    IncarnationBook × Received :=
  match sender with
  | none => (book, .refused .unidentified)
  | some (node, process) =>
    match target.map me.relation with
    | some .newer => (book, .superseded)
    | some .older | some .otherRoot => (book, .refused .staleTarget)
    | some .duplicate => (book, .refused .duplicate)
    | some .same | none =>
      match rpc with
      | .forward => (book, .pass)
      | .raft => ((book.observe node process).1, .ofJudgement (book.observe node process).2)

/-- The responder's identity on an answer or refusal. -/
structure Stamp where
  node : Option NodeId
  incarnation : Option ProcessIncarnation
deriving DecidableEq

/-- Why a sender discards an answer before decoding it. -/
inductive Discarded
  | fenced
  | otherNode (node : NodeId)
  | unstamped
  | stale (judgement : Judgement)
deriving DecidableEq

/-- Whether the channel to the target is of no more use. -/
def Discarded.retires : Discarded → Bool
  | .stale _ => true
  | .fenced | .otherNode _ | .unstamped => false

/-- What a fence refusal asks of the sender. -/
inductive Effect
  | retire
  | retry
  | supersede
  | none
deriving DecidableEq

/-- The sender table's answer to a refusal. -/
def effect : FenceRefusal → Effect
  | .fenced => .retire
  | .staleTarget => .retry
  | .staleSender => .supersede
  | .unboundRoot | .duplicate | .unidentified => .none

/-- What an admitted request names: the sending node, its process, and the process it is for. -/
structure AdmittedPeer where
  node : NodeId
  sender : Option ProcessIncarnation
  target : Option ProcessIncarnation
deriving DecidableEq

/-- One node's side of the fence. -/
structure PeerCluster where
  /-- The process this node runs, if it takes part in the fence. -/
  me : Option ProcessIncarnation
  book : IncarnationBook
  /-- Whether the node holds its lease and is not closed. -/
  leased : Bool
  superseded : Bool
deriving DecidableEq

namespace PeerCluster

/-- The node once it bound its identity. -/
def bind (me : ProcessIncarnation) : PeerCluster where
  me := some me
  book := ∅
  leased := true
  superseded := false

variable (cluster : PeerCluster)

/-- Whether the node's fence lets Raft traffic pass. -/
def admits : Bool := cluster.leased && !cluster.superseded

/-- The receiver's check of an inbound request. -/
def receive (admitted : Option AdmittedPeer) (rpc : Rpc) : PeerCluster × Except FenceRefusal Unit :=
  if !cluster.admits then (cluster, .error .fenced)
  else
    match cluster.me with
    | none => (cluster, .ok ())
    | some me =>
      let sender := admitted.bind fun peer => peer.sender.map fun sender => (peer.node, sender)
      let target := admitted.bind AdmittedPeer.target
      let (book, received) := Fence.receive me sender target rpc cluster.book
      match received with
      | .pass => ({ cluster with book }, .ok ())
      | .refused refusal => ({ cluster with book }, .error refusal)
      | .superseded => ({ cluster with book, superseded := true }, .error .fenced)

/-- The process this node's requests to a target name. -/
def targetIncarnation (target : NodeId) : Option ProcessIncarnation :=
  cluster.me.bind fun _ => cluster.book.entry target

/-- The sender's check of an answer before it is decoded. -/
def acceptResponder (target : NodeId) (stamp : Stamp) : PeerCluster × Except Discarded Unit :=
  if !cluster.admits then (cluster, .error .fenced)
  else
    match cluster.me with
    | none => (cluster, .ok ())
    | some _ =>
      match stamp.node.filter fun node => node ≠ target, stamp.incarnation with
      | some node, _ => (cluster, .error (.otherNode node))
      | none, none => (cluster, .error .unstamped)
      | none, some seen =>
        let (book, judgement) := cluster.book.observe target seen
        ({ cluster with book },
          if judgement = .accept then .ok () else .error (.stale judgement))

/-- A call's result: the answer is decoded only when its responder is accepted, and otherwise the
call is lost. -/
def takeAnswer {α : Type} (target : NodeId) (stamp : Stamp) (response : α) :
    PeerCluster × Except Discarded α :=
  let (cluster, judged) := cluster.acceptResponder target stamp
  (cluster, judged.map fun _ => response)

/-- Takes a fence refusal by the target's process. -/
def observeFenceRefusal (refusal : FenceRefusal) : PeerCluster × Effect :=
  (if effect refusal = .supersede then { cluster with superseded := true } else cluster,
    effect refusal)

/-- The sender's reading of a failed call. -/
def observeFailure (target : NodeId) (stamp : Stamp) (refusal : Option FenceRefusal) :
    PeerCluster × Option Effect :=
  if stamp.incarnation.isNone && refusal.isNone then (cluster, none)
  else
    match cluster.acceptResponder target stamp with
    | (cluster, .ok ()) =>
      match refusal with
      | some refusal =>
        let (cluster, effect) := cluster.observeFenceRefusal refusal
        (cluster, some effect)
      | none => (cluster, none)
    | (cluster, .error discarded) =>
      (cluster, if discarded.retires then some .retire else none)

end PeerCluster

/-- The roots a placement view binds, by node id. -/
def viewSlots : ControlPlaneState → OrdMap NodeId RootSlot
  | .forming registered => registered.mapValues fun _ registration => registration.root
  | .bootstrapped cluster => cluster.nodes.mapValues fun _ record => record.root
  | .formationCut => ∅

/-- Takes the roots a view binds as the slots of the book. -/
def PeerCluster.observeView (cluster : PeerCluster) (view : ControlPlaneState) : PeerCluster :=
  { cluster with book := cluster.book.setSlots (viewSlots view) }

/-! ## What a node goes through -/

/-- What happens at a node. -/
inductive Event
  | receive (admitted : Option AdmittedPeer) (rpc : Rpc)
  | answer (target : NodeId) (stamp : Stamp)
  | failure (target : NodeId) (stamp : Stamp) (refusal : Option FenceRefusal)
  | view (view : ControlPlaneState)
  /-- The node's lease ends or is back, or the node closes. -/
  | lease (held : Bool)

namespace PeerCluster

/-- What an event does to a node. -/
def step (cluster : PeerCluster) : Event → PeerCluster
  | .receive admitted rpc => (cluster.receive admitted rpc).1
  | .answer target stamp => (cluster.acceptResponder target stamp).1
  | .failure target stamp refusal => (cluster.observeFailure target stamp refusal).1
  | .view view => cluster.observeView view
  | .lease held => { cluster with leased := held }

/-- What events do to a node. -/
def run (cluster : PeerCluster) (events : List Event) : PeerCluster := events.foldl step cluster

/-- The process an event makes the node believe, and the peer it is believed for: the sender of a
Raft request that passes, and the responder of an answer or failure that is used. -/
def accepted (cluster : PeerCluster) : Event → Option (NodeId × ProcessIncarnation)
  | .receive admitted .raft =>
    match (cluster.receive admitted .raft).2 with
    | .ok () => admitted.bind fun peer => peer.sender.map fun sender => (peer.node, sender)
    | .error _ => none
  | .receive _ .forward => none
  | .answer target stamp | .failure target stamp _ =>
    match (cluster.acceptResponder target stamp).2 with
    | .ok () => stamp.incarnation.map fun process => (target, process)
    | .error _ => none
  | .view _ | .lease _ => none

/-- The process of `node` that an event makes believed. -/
def believes (node : NodeId) (cluster : PeerCluster) (event : Event) : Option ProcessIncarnation :=
  ((cluster.accepted event).filter fun accepted => accepted.1 = node).map Prod.snd

/-- The processes a run makes the node believe for a peer, in order. -/
def believed (node : NodeId) (cluster : PeerCluster) : List Event → List ProcessIncarnation
  | [] => []
  | event :: rest =>
    (cluster.believes node event).toList ++ believed node (cluster.step event) rest

end PeerCluster

/-- The slot a view has for a node, or the one before. -/
def slotAfter (node : NodeId) (slot : Option RootSlot) : Event → Option RootSlot
  | .view view => (viewSlots view).get? node
  | _ => slot

/-- The slot the latest view has for a node. -/
def currentSlot (node : NodeId) (events : List Event) : Option RootSlot :=
  events.foldl (slotAfter node) none

/-- The nodes an event names. -/
def Event.names : Event → List NodeId
  | .receive admitted _ => admitted.toList.map AdmittedPeer.node
  | .answer target _ | .failure target _ _ => [target]
  | .view state => (viewSlots state).keys
  | .lease _ => []

/-- The nodes that events name. -/
def peersOf (events : List Event) : Finset NodeId := (events.flatMap Event.names).toFinset

end Ursula.Fence

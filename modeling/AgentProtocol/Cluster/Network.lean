-- SUMMARY: Nodes that run the control plane against each other: joins, pushes, farewells and membership anti-entropy in any order.
import AgentProtocol.Lib.Thread
import AgentProtocol.Cluster.Control

/-!
# A network of nodes

The operations of all nodes run as threads over one world, so their sections interleave
across nodes. A `join` runs the handler of the node that the address leads to, in the
thread of its caller. Other calls are messages that stay in the soup once sent: they may
arrive at any time, late, more than once or never. Where an address leads is up to the
environment.

The world also lists every membership record that some node has made up, as opposed to
copied.
-/

namespace AgentProtocol

open Lib

structure World where
  nodes : String → MembershipStore
  /-- What was sent, with the sender. -/
  soup : List (String × Message) := []
  issued : List MembershipRecord := []

/-- What the environment supplies. -/
structure Signal extends Input where
  /-- Where the address leads, if anywhere. -/
  target : Option String
  /-- The answer gets lost. -/
  lost : Bool

inductive NetAct where
  | at (node : String) (s : Section)
  | send (node : String) (msg : Message)
  | dial (address : String)
  | hangUp

namespace World

def exec (w : World) (r : Signal) : NetAct → World
  | .at node s =>
    { w with nodes := Function.update w.nodes node ((w.nodes node).act r.toInput s)
             issued := w.issued ++ (w.nodes node).issues r.now s }
  | .send node msg => { w with soup := w.soup ++ [(node, msg)] }
  | .dial _ => w
  | .hangUp => w

abbrev NetThread := Thread World Signal NetAct

/-- A node that answers others. -/
def callee (node : String) : Host NetThread where
  atomic s k := .step (.at node s) fun w r => k (w.nodes node) r.now
  join _ _ k := k (.error .transportError)
  tell msg k := .step (.send node msg) fun _ _ => k

def caller (node : String) : Host NetThread where
  atomic := (callee node).atomic
  join address body k := .step (.dial address) fun _ r =>
    match r.target with
    | none => k (.error .transportError)
    | some other => (callee other).handleJoin body fun answer =>
        .step .hangUp fun _ r => k (if r.lost then .error .transportError else .ok answer)
  tell := (callee node).tell

/-- `reconcile_with`: pull from `other` what it has newer. A call that fails ends it,
which is the same as never going on. -/
def reconcileWith (node other : String) : NetThread :=
  (callee node).atomic .read fun m _ =>
    match m.clusterId with
    | none => .done
    | some _ =>
      let token := m.peerToken other
      (callee other).atomic .read fun far _ =>
        let remote := far.serveSetDigest node token
        (callee node).atomic .read fun m _ =>
          let want := m.wanted remote
          if want = [] then .done
          else (callee other).atomic .read fun far _ =>
            (callee node).merge (far.serveSetPull node want token) .done

def handler (node sender : String) : Message → NetThread
  | .sync _ records token => (callee node).serveSetSync sender records token .done
  | .evict _ _ token => (callee node).handleEvicted sender token .done
  | .evictSelf _ token => (callee node).handleEvictSelf sender token .done

abbrev Net := Pool World Signal NetAct

inductive NetEvent where
  | setAdd (node : String) (members : List Member) (token : Option String) (newId : String)
  | setRemove (node : String) (members : List Member)
  /-- The sweeper of a node. -/
  | reconcileConnections (node : String)
  | reconcileWith (node other : String)
  | collect (node : String)
  /-- A message of the soup arrives at a node. -/
  | deliver (message : ℕ) (node : String)
  | go (thread : ℕ) (r : Signal)

def started (w : World) : NetEvent → Option NetThread
  | .setAdd node members token newId => some ((caller node).setAdd members token newId fun _ _ => .done)
  | .setRemove node members => some ((caller node).setRemove members fun _ => .done)
  | .reconcileConnections node => some ((caller node).reconcileConnections .done)
  | .reconcileWith node other => some (World.reconcileWith node other)
  | .collect node => some ((caller node).run .collect .done)
  | .deliver message node => (w.soup[message]?).map fun p => handler node p.1 p.2
  | .go _ _ => none

def netStep (p : Net) : NetEvent → Net
  | .go thread r => p.step exec (thread, r)
  | e => p.spawn (p.state.started e).toList

/-- Nodes that have no roster yet, with nothing under way. -/
def quiet (stores : String → ClusterStore) : Net where
  state := { nodes := fun node => { store := stores node } }
  threads := []

end World

end AgentProtocol

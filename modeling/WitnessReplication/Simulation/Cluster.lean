import WitnessReplication.Collector
import WitnessReplication.EventLoop
import WitnessReplication.Replica.Options
import WitnessReplication.Simulation.Network
import WitnessReplication.Text.Duration

/-!
# Cluster — whole replicas as members of a network

    Every member is a node: a replica with its event loop behind a link.  An exchange takes as long
    as the link says and then happens at once; the loop settles before anything else does.

* **`Cluster.ask`** — an event for a member's loop, and what leaves the loop because of it.
* **`Cluster.exchange`** — a request that arrives at a member.
* The **`Network`** instance — nodes as a network.
-/

namespace WitnessReplication

/-- A replica with its event loop, and the link to it. -/
structure Node (σ : Type) where
  loop      : EventLoop σ
  up        : Bool := true
  /-- How long an exchange takes, in nanoseconds. -/
  latency   : Nat := Duration.ofMillis 1
  /-- The same, for what a leader tells the other witnesses. -/
  gcLatency : Nat := Duration.ofMillis 3
  /-- What sweeps the replica's response cache, if anything does. -/
  collector : Option Collector := none

namespace Node

variable {σ : Type}

/-- The address of a node. -/
def address (n : Node σ) : Address := n.loop.replica.me

/-- The replica of a node. -/
def replica (n : Node σ) : Replica σ := n.loop.replica

/-- Whether a node can be connected to. -/
def isReachable (n : Node σ) : Bool := n.up && n.loop.running

/-- How long an exchange takes. -/
def delay (n : Node σ) (r : Request) : Nat :=
  match r with
  | .witnessGc _ => n.gcLatency
  | _            => n.latency

/-- Sweeps the response cache; returns how many answers were dropped. -/
def evict (n : Node σ) (now : Nat) : Nat × Node σ :=
  let (evicted, replica) := n.loop.replica.evict now
  (evicted, { n with loop := { n.loop with replica } })

/-- Lets the collector do what falls due up to a moment. -/
def sweepTo (n : Node σ) (now : Nat) : Node σ :=
  match n.collector with
  | none           => n
  | some collector =>
      let (collector, cache) := collector.runTo now n.loop.replica.cache
      { n with
        collector := some collector
        loop      := { n.loop with replica := { n.loop.replica with cache } } }

/-- Ends the loop of a node for good. -/
def kill (n : Node σ) : Node σ := { n with loop := n.loop.kill, collector := none }

end Node

/-- The nodes of a cluster. -/
structure Cluster (σ : Type) where
  nodes : List (Node σ)

namespace Cluster

variable {σ : Type}

/-- The address of the member at a place. -/
def addressAt (i : Nat) : Address := ⟨s!"m{i}"⟩

/-- A cluster in which nothing has happened. -/
def start (members : Nat) (leader : Option Nat) (term : Term) (machine : σ) (retention : Nat) :
    Cluster σ where
  nodes := (List.range members).map fun i =>
    { loop := { replica := .start (addressAt i) (leader.map addressAt) term machine retention } }

/-- A cluster in which nothing has happened, with a collector for every cache; exchanges take next
    to no time. -/
def startSwept (members : Nat) (leader : Option Nat) (term : Term) (machine : σ)
    (settings : ReplicaSettings) : Cluster σ where
  nodes := (start members leader term machine settings.retention).nodes.map fun n =>
    { n with
      latency   := 1000
      gcLatency := 1000
      collector := some (.start 0 settings.gcInterval settings.gcInterval_pos) }

/-- The place of a member. -/
def find? (c : Cluster σ) (a : Address) : Option Nat := c.nodes.findIdx? fun n => n.address = a

/-- Queues an event at a member and lets its loop settle; returns what left the loop, unless there
    is no such member or its loop has ended. -/
def ask [StateMachine σ] (c : Cluster σ) (i now : Nat) (e : Event) :
    Option (List Emission × Cluster σ) :=
  match c.nodes[i]? with
  | none   => none
  | some n => (n.loop.ask now e).map fun (loop, out) => (out, ⟨c.nodes.set i { n with loop }⟩)

/-- An exchange that fails on its way. -/
def lost : TransportError := ⟨.send, "connection reset"⟩

/-- What becomes of a request that arrives at the member at a place, and the batches for the
    member's forwarder. -/
def exchange [StateMachine σ] (c : Cluster σ) (i now : Nat) (r : Request) :
    (Except TransportError Reply × List (Nat × List RequestId)) × Cluster σ :=
  if c.nodes[i]?.any (·.isReachable) then
    match c.ask i now (.request r) with
    | none          => ((.error lost, []), c)
    | some (out, c) =>
        let answer := match Emission.replyTo? out 0 with
          | some reply => .ok reply.normalized
          | none       => .error lost
        ((answer, (Emission.batches out).map fun b => (i, b)), c)
  else ((.error lost, []), c)

instance [StateMachine σ] : Network (Cluster σ) where
  Flight             := Unit
  connect c a        :=
    if (c.nodes.find? fun n => n.address = a).any (·.isReachable) then (.ok (), c)
    else (.error ⟨.connect, a.text ++ " is down"⟩, c)
  dispatch c a r     :=
    ((((c.nodes.find? fun n => n.address = a).map (·.delay r)).getD 0, ()), c)
  deliver c now a r _ :=
    match c.find? a with
    | some i => c.exchange i now r
    | none   => ((.error lost, []), c)

end Cluster

end WitnessReplication

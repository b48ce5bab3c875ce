import WitnessReplication.Kv.Client
import WitnessReplication.Simulation.Cluster
import WitnessReplication.Simulation.World

/-!
# Deployment — a cluster with its forwarders and its clients

    Every member has a forwarder to all members, and a probe through which it is asked things one by
    one.  Clients have names; behind each name there are two clients of one configuration, one for
    the key-value store and one that takes any command.

* **`Deployment.perform`** — what clients do, each thing after some time.
* **`Deployment.probe`** — a single request to a member.
* **`Deployment.lead`**, **`Deployment.collect`**, **`Deployment.evict`** — what is done to members
  from outside, while time stands still.
-/

namespace WitnessReplication

/-- A cluster in virtual time, with the names of its clients in the order they first did
    something. -/
structure Deployment (σ : Type) [StateMachine σ] where
  world  : World (Cluster σ)
  config : SessionConfig
  names  : List String := []

namespace Deployment

variable {σ : Type} [StateMachine σ]

/-- How many members there are. -/
def size (d : Deployment σ) : Nat := d.world.network.nodes.length

/-- A deployment in which nothing has happened. -/
def start (cluster : Cluster σ) (config : SessionConfig) : Deployment σ :=
  let addresses := cluster.nodes.map (·.address)
  { world :=
      { network := cluster
        parties := (addresses.map fun a => .forwarder (.ofMembers a addresses)) ++
                     addresses.map fun a => .probe { address := a } }
    config }

/-! ## Clients -/

/-- Something that a named client does. -/
inductive ClientStep where
  /-- A command through the client for the store. -/
  | store (command : Kv.Command) (seq : Option SeqNo)
  /-- A command through the other client. -/
  | send (command : Kv.Command) (route : Route) (seq : Option SeqNo)
  /-- The end of what the client for the store keeps. -/
  | destroy
  deriving DecidableEq, Inhabited

/-- What came of it. -/
inductive ClientResult where
  | answered (result : Except Kv.Error Kv.Answer)
  | sent (result : Except SessionError CommandOutput)
  | destroyed

/-- The place of the first of a name's two clients; they are set up if the name is new. -/
def client (d : Deployment σ) (name : String) : Nat × Deployment σ :=
  let base := 2 * d.size
  match d.names.idxOf? name with
  | some k => (base + 2 * k, d)
  | none   =>
      (base + 2 * d.names.length,
        { d with
          names := d.names ++ [name]
          world := { d.world with
            parties := d.world.parties ++ List.replicate 2 (.client { config := d.config }) } })

/-- The job that a step gives to one of the two clients at a place. -/
def ClientStep.launch (place delay : Nat) : ClientStep → World.Launch
  | .store command seq      => ⟨place, .send (command.submission seq), delay⟩
  | .send command route seq => ⟨place + 1, .send (command.submission seq route), delay⟩
  | .destroy                => ⟨place, .destroy, delay⟩

/-- What the end of its job says about a step. -/
def ClientStep.result : ClientStep → Client.Outcome → ClientResult
  | .store command _, .sent result => .answered (command.answer result)
  | .send _ _ _, .sent result      => .sent result
  | _, _                           => .destroyed

/-- Sets clients up and lists the jobs for what they do. -/
def plan (d : Deployment σ) : List (String × ClientStep × Nat) → List World.Launch × Deployment σ
  | []                       => ([], d)
  | (name, step, delay) :: r =>
      let (place, d) := d.client name
      let (ls, d) := d.plan r
      (step.launch place delay :: ls, d)

/-- Lets named clients do things, each after some time in nanoseconds, and waits for all of it;
    returns what came of them in the order of the list. -/
def perform (d : Deployment σ) (steps : List (String × ClientStep × Nat)) :
    List ClientResult × Deployment σ :=
  let (ls, d) := d.plan steps
  let (outcomes, world) := d.world.launch ls
  (List.zipWith (fun (_, step, _) outcome => step.result outcome) steps outcomes, { d with world })

/-! ## Members -/

/-- Asks a member something and waits for the answer. -/
def probe (d : Deployment σ) (i : Nat) (r : Request) :
    Option (Except TransportError Reply) × Deployment σ :=
  let place := d.size + i
  let ask : Party → Party
    | .probe p => .probe (p.ask r)
    | p        => p
  let world := d.world.modify place ask true
  let (results, world) := world.await [⟨place, .only⟩]
  (results.findSome? fun
    | .answer outcome => some outcome
    | _               => none, { d with world })

/-- Puts an event into a member's loop; returns what left the loop, unless the loop has ended.  The
    batches go to the member's forwarder. -/
def ask (d : Deployment σ) (i : Nat) (e : Event) : Option (List Emission) × Deployment σ :=
  match d.world.network.ask i d.world.now e with
  | none                => (none, d)
  | some (out, network) =>
      let batches := (Emission.batches out).map fun b => (i, b)
      (some out, { d with world := { d.world with network }.post batches })

/-- Tells members who leads; says of each whether it heard. -/
def lead (d : Deployment σ) (leader : Option Nat) (term : Term) :
    List Nat → List Bool × Deployment σ
  | []     => ([], d)
  | i :: r =>
      let (out, d) := d.ask i (.lead (leader.map Cluster.addressAt) term)
      let (bs, d) := d.lead leader term r
      (out.isSome :: bs, d)

/-- Tells a member what is synced; returns how much its witness dropped, unless its loop has
    ended. -/
def collect (d : Deployment σ) (i : Nat) (ids : List RequestId) : Option Reply × Deployment σ :=
  let (out, d) := d.ask i (.request (.witnessGc ids))
  (out.bind fun out => Emission.replyTo? out 0, d)

/-- Changes a member, while time stands still. -/
def modify (d : Deployment σ) (i : Nat) (f : Node σ → Node σ) : Deployment σ :=
  { d with world := { d.world with network := ⟨d.world.network.nodes.modify i f⟩ } }

/-- Sweeps a member's response cache; returns how many answers were dropped. -/
def evict (d : Deployment σ) (i : Nat) : Nat × Deployment σ :=
  match d.world.network.nodes[i]? with
  | none   => (0, d)
  | some n =>
      let (evicted, n) := n.evict d.world.now
      (evicted, d.modify i fun _ => n)

/-- Ends a member for good. -/
def kill (d : Deployment σ) (i : Nat) : Deployment σ := d.modify i Node.kill

/-- Time passes, and collectors do what falls due. -/
def sleep (d : Deployment σ) (span : Nat) : Deployment σ :=
  let world := d.world.sleep span
  let nodes := world.network.nodes.map fun n => n.sweepTo world.now
  { d with world := { world with network := ⟨nodes⟩ } }

/-- How many answers each member keeps; none if its loop has ended. -/
def cached (d : Deployment σ) : List (Option Nat) :=
  d.world.network.nodes.map fun n =>
    if n.loop.running then some n.loop.replica.cache.size else none

end Deployment

end WitnessReplication

import WitnessReplication.Simulation.Scripted
import WitnessReplication.Simulation.World

/-!
# Forwarder bench — a forwarder among scripted members

    A bench drops batches into the mailbox of one forwarder and lets time pass.

* **`ForwarderBench.post`**, **`ForwarderBench.stop`** — what an event loop does to its forwarder.
-/

namespace WitnessReplication

/-- A forwarder among scripted members. -/
structure ForwarderBench where
  world : World ScriptedCluster

namespace ForwarderBench

/-- A forwarder that has done nothing. -/
def start (members : List ScriptedMember) (me : Address) : ForwarderBench where
  world :=
    { network := ⟨members⟩
      parties := [.forwarder (.ofMembers me (members.map (·.address)))] }

/-- The forwarder. -/
def forwarder (b : ForwarderBench) : Forwarder :=
  match b.world.parties with
  | [.forwarder f] => f
  | _              => .ofMembers ⟨""⟩ []

/-- Drops batches into the mailbox, one after the other; says of each whether it was taken. -/
def post (b : ForwarderBench) (batches : List (List RequestId)) : List Bool × ForwarderBench :=
  (batches.map fun _ => b.forwarder.accepts, ⟨b.world.post (batches.map fun batch => (0, batch))⟩)

/-- Nobody fills the mailbox any more. -/
def stop (b : ForwarderBench) : ForwarderBench :=
  ⟨b.world.modify 0 fun
    | .forwarder f => .forwarder f.detach
    | p            => p⟩

/-- Changes the members, while time stands still. -/
def direct (b : ForwarderBench) (f : ScriptedCluster → ScriptedCluster) : ForwarderBench :=
  ⟨{ b.world with network := f b.world.network }⟩

end ForwarderBench

end WitnessReplication

import WitnessReplication.Simulation.Scripted
import WitnessReplication.Simulation.World

/-!
# Courier bench — single errands among scripted members

    A bench sends out errands of one courier and waits for what they come to.

* **`CourierBench.run`**, **`CourierBench.runOne`** — errands that are sent out together, or one.
-/

namespace WitnessReplication

/-- A courier among scripted members. -/
structure CourierBench where
  world : World ScriptedCluster

namespace CourierBench

/-- A courier that has done nothing. -/
def start (members : List ScriptedMember) (addresses : List Address) (guess backoff : Nat)
    (knownTerm : Term) : CourierBench where
  world :=
    { network := ⟨members⟩
      parties := [.courier { pool := .ofMembers addresses, guess, backoff, knownTerm }] }

/-- The courier. -/
def courier (b : CourierBench) : Courier :=
  match b.world.parties with
  | [.courier c] => c
  | _            => { pool := .ofMembers [], guess := 0, backoff := 0 }

/-- Sends out errands and waits for all of them. -/
def run (b : CourierBench) (send : Courier → List Nat × Courier) :
    List Errand.Outcome × CourierBench :=
  let (ids, courier) := send b.courier
  let world := b.world.modify 0 (fun _ => .courier courier) true
  let (results, world) := world.await (ids.map fun id => ⟨0, .errand id⟩)
  (results.filterMap fun
    | .errand outcome => some outcome
    | _               => none, ⟨world⟩)

/-- Sends out one errand and waits for it. -/
def runOne (b : CourierBench) (send : Courier → Nat × Courier) :
    Option Errand.Outcome × CourierBench :=
  let (outcomes, b) := b.run fun c => let (id, c) := send c; ([id], c)
  (outcomes.head?, b)

/-- Changes the members, while time stands still. -/
def direct (b : CourierBench) (f : ScriptedCluster → ScriptedCluster) : CourierBench :=
  ⟨{ b.world with network := f b.world.network }⟩

end CourierBench

end WitnessReplication

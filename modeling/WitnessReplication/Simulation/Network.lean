import WitnessReplication.Message
import WitnessReplication.Transport.Error

/-!
# Networks — where simulated exchanges go

    A network decides what becomes of a connection and of an exchange.  Connecting takes no time.
    An exchange takes some: how much is settled when it sets out, and everything else when it
    arrives.

* **`Network`** — what a simulation asks of a network.
-/

namespace WitnessReplication

/-- What a simulation asks of a network of members. -/
class Network (ν : Type) where
  /-- What an exchange carries with it from the moment it sets out. -/
  Flight   : Type
  /-- Tries to connect to a member. -/
  connect  : ν → Address → Except TransportError Unit × ν
  /-- Sets out with an exchange; returns how long it takes, in nanoseconds. -/
  dispatch : ν → Address → Request → (Nat × Flight) × ν
  /-- Arrives at a moment; returns what the exchange comes to, and the batches that members have
      for their forwarders, each under the member's place. -/
  deliver  : ν → Nat → Address → Request → Flight →
               (Except TransportError Reply × List (Nat × List RequestId)) × ν

end WitnessReplication

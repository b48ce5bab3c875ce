import WitnessReplication.Text.Duration

/-!
# Replica options — what an operator may set, and what a replica runs with

* **`ReplicaOptions`** — every setting may be left out.
* **`ReplicaSettings`** — every setting is there and makes sense.
* **`ReplicaOptions.validate`** — fills in the defaults, or names the first fault.
-/

namespace WitnessReplication

/-- Spans of time in nanoseconds, each of which may be left out. -/
structure ReplicaOptions where
  gcInterval     : Option Nat := none
  retention      : Option Nat := none
  peerRpcTimeout : Option Nat := none
  deriving DecidableEq, Inhabited

/-- How often old answers are swept, how long answers are kept, and how long a call to another
    member may take.  None of them is zero. -/
structure ReplicaSettings where
  gcInterval         : Nat
  retention          : Nat
  peerRpcTimeout     : Nat
  gcInterval_pos     : 0 < gcInterval
  retention_pos      : 0 < retention
  peerRpcTimeout_pos : 0 < peerRpcTimeout

namespace ReplicaOptions

/-- What can be wrong with the options, in the order in which it is looked for. -/
inductive Fault where
  | zeroGcInterval
  | zeroRetention
  | zeroPeerRpcTimeout
  deriving DecidableEq, Inhabited

/-- The wording of a fault. -/
def Fault.message : Fault → String
  | .zeroGcInterval     => "Response cache GC interval must be non-zero"
  | .zeroRetention      =>
      "Response cache retention must be non-zero, or retransmissions would be re-executed"
  | .zeroPeerRpcTimeout => "Peer RPC timeout must be non-zero"

/-- Fills in a second, half a minute and a second for what is left out. -/
def validate (o : ReplicaOptions) : Except Fault ReplicaSettings :=
  let gcInterval := o.gcInterval.getD (Duration.ofMillis 1000)
  let retention := o.retention.getD (Duration.ofMillis 30000)
  let peerRpcTimeout := o.peerRpcTimeout.getD (Duration.ofMillis 1000)
  if hg : gcInterval = 0 then .error .zeroGcInterval
  else if hr : retention = 0 then .error .zeroRetention
  else if hp : peerRpcTimeout = 0 then .error .zeroPeerRpcTimeout
  else .ok ⟨gcInterval, retention, peerRpcTimeout,
    Nat.pos_of_ne_zero hg, Nat.pos_of_ne_zero hr, Nat.pos_of_ne_zero hp⟩

end ReplicaOptions

end WitnessReplication

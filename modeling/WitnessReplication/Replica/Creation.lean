import WitnessReplication.Replica.Options
import WitnessReplication.Replica.SocketAddress

/-!
# Creation — what a replica needs before it can start

* **`ReplicaCreationError.check`** — the settings of a replica that may start, or why none can.
-/

namespace WitnessReplication

/-- Why a replica cannot start. -/
inductive ReplicaCreationError where
  | invalidAddress (text : String)
  | illegalOptions (reason : String)
  deriving DecidableEq, Inhabited

namespace ReplicaCreationError

/-- The name of an error's kind. -/
def name : ReplicaCreationError → String
  | .invalidAddress _ => "InvalidAddress"
  | .illegalOptions _ => "IllegalOptions"

/-- The wording of an error. -/
def message : ReplicaCreationError → String
  | .invalidAddress text   => "Invalid address " ++ text
  | .illegalOptions reason => "Illegal options for configuring replica: " ++ reason

/-- Looks at the options first, then at the address. -/
def check (address : String) (options : ReplicaOptions) :
    Except ReplicaCreationError ReplicaSettings :=
  match options.validate with
  | .error fault => .error (.illegalOptions fault.message)
  | .ok settings =>
      if SocketAddress.isSocketAddress address then .ok settings
      else .error (.invalidAddress address)

end ReplicaCreationError

end WitnessReplication

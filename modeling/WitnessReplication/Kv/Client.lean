import WitnessReplication.Client
import WitnessReplication.Kv.Command

/-!
# Key-value client — the store's commands over a session

* **`Command.submission`** — a command as it is handed to a client.
* **`Command.answer`** — what a committed command's output says.
-/

namespace WitnessReplication.Kv

/-- Why a command for the store has no answer. -/
inductive Error where
  | session (cause : SessionError)
  /-- The output is no result of the store. -/
  | undecodable
  deriving DecidableEq, Inhabited

namespace Error

/-- The wording of an error that a session caused. -/
def sessionMessage (cause : SessionError) : String := "Session failure: " ++ cause.message

/-- The errors behind an error, the nearest first. -/
def sources : Error → List SessionError
  | .session cause => cause :: cause.sources
  | .undecodable   => []

end Error

/-- What the store says to a command. -/
inductive Answer where
  | stored
  | value (text : String)
  | counter (n : UInt64)
  deriving DecidableEq, Inhabited

namespace Command

/-- A command as it is handed to a client, under a number if one is chosen. -/
def submission (c : Command) (seq : Option SeqNo := none) (route : Route := .fast) : Submission :=
  { data := c.encode, keys := c.keys, route, seq }

/-- What a command's output says.  Nobody looks at the output of a `set`. -/
def answer (c : Command) : Except SessionError CommandOutput → Except Error Answer
  | .error cause => .error (.session cause)
  | .ok output   =>
      match c with
      | .set _ _ => .ok .stored
      | .get _   =>
          match Result.decode? output.data with
          | some r => .ok (.value r.value)
          | none   => .error .undecodable
      | .inc     =>
          match Result.decode? output.data with
          | some r => .ok (.counter r.counter)
          | none   => .error .undecodable

end Command

end WitnessReplication.Kv

import WitnessReplication.Text.Duration

/-!
# Session errors — what a client is told when a command or a session fails

* **`SessionError.message`** — the wording of an error.
* **`SessionError.sources`** — the errors behind an error, the nearest first: only giving up after
  many attempts has one behind it, the error of the last attempt.
-/

namespace WitnessReplication

/-- Why a session could not be opened, or could not commit a command. -/
inductive SessionError where
  | emptyCluster
  | illegalOptions (reason : String)
  | noActiveServers
  | noActiveLeader
  | malformedResponse (text : String)
  /-- The leader that the witnesses were chosen for is not the one that is believed to lead any
      more. -/
  | leaderChanged
  | retriesExhausted (attempts : Nat) (last : SessionError)
  /-- The time, in nanoseconds, that the command was given. -/
  | deadlineExceeded (deadline : Nat)
  | sessionClosed
  deriving DecidableEq, Inhabited

namespace SessionError

/-- The name of an error's kind. -/
def name : SessionError → String
  | .emptyCluster         => "EmptyCluster"
  | .illegalOptions _     => "IllegalOptions"
  | .noActiveServers      => "NoActiveServers"
  | .noActiveLeader       => "NoActiveLeader"
  | .malformedResponse _  => "MalformedResponse"
  | .leaderChanged        => "LeaderChanged"
  | .retriesExhausted _ _ => "RetriesExhausted"
  | .deadlineExceeded _   => "DeadlineExceeded"
  | .sessionClosed        => "SessionClosed"

/-- The wording of an error. -/
def message : SessionError → String
  | .emptyCluster            => "Cluster member list is empty"
  | .illegalOptions reason   => "Illegal options for configuring session: " ++ reason
  | .noActiveServers         => "No cluster member is reachable"
  | .noActiveLeader          => "Tried every cluster member without finding an active leader"
  | .malformedResponse text  => "Malformed response from cluster: " ++ text
  | .leaderChanged           => "Leader changed while recording at witnesses"
  | .retriesExhausted n last => s!"Gave up after {n} attempts: " ++ last.message
  | .deadlineExceeded d      =>
      "Deadline of " ++ Duration.text d ++ " elapsed before the command was committed"
  | .sessionClosed           => "Session is closed"

/-- The errors behind an error, the nearest first. -/
def sources : SessionError → List SessionError
  | .retriesExhausted _ last => last :: last.sources
  | _                        => []

end SessionError

end WitnessReplication

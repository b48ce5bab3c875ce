import WitnessReplication.Wire.Entry

/-!
# Transport errors — why an exchange with a member came to nothing

* **`TransportErrorKind`** — no connection, a failed exchange, or an answer nobody can read.
* **`TransportError.text`** — the kind and the message.
-/

namespace WitnessReplication

/-- How an exchange failed. -/
inductive TransportErrorKind where
  /-- No connection could be opened. -/
  | connect
  /-- The exchange failed on an open connection. -/
  | send
  /-- The member answered with something that is no reply. -/
  | malformed
  deriving DecidableEq, Inhabited

/-- The name of a kind. -/
def TransportErrorKind.name : TransportErrorKind → String
  | .connect   => "Connect"
  | .send      => "Send"
  | .malformed => "Malformed"

/-- Why an exchange with a member came to nothing. -/
structure TransportError where
  kind    : TransportErrorKind
  message : String
  deriving DecidableEq, Inhabited

namespace TransportError

/-- The error as a reader sees it. -/
def text (e : TransportError) : String := e.kind.name ++ " failure: " ++ e.message

/-- A reply that could be read and makes no sense. -/
def ofMalformation (m : Wire.Malformation) : TransportError := ⟨.malformed, m.message⟩

end TransportError

end WitnessReplication

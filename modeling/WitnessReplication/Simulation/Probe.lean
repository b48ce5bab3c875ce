import WitnessReplication.Activity

/-!
# Probe — one request at a time to one member

    A probe asks a member something and hands back whatever comes of it.  It connects when it is
    first used, and keeps its connection whatever happens on it.

* **`Probe.ask`** — gives the probe a request.
* **`Probe.step`** — tells the probe something.
-/

namespace WitnessReplication

namespace Probe

/-- How far a probe is. -/
inductive Stage where
  | idle
  /-- It has a request and may go on. -/
  | asked (request : Request)
  /-- It waits for a connection. -/
  | connecting (request : Request)
  /-- It waits for a reply. -/
  | exchanging
  deriving DecidableEq, Inhabited

end Probe

/-- A probe: the member it asks, and whether it is connected. -/
structure Probe where
  address   : Address
  connected : Bool := false
  stage     : Probe.Stage := .idle
  deriving DecidableEq, Inhabited

namespace Probe

/-- What one step comes to.  A probe is one activity. -/
abbrev Step := Progress Probe Unit (Except TransportError Reply)

/-- Gives the probe a request. -/
def ask (p : Probe) (r : Request) : Probe := { p with stage := .asked r }

/-- Hands back what came of the request. -/
def finish (p : Probe) (answer : Except TransportError Reply) : Step :=
  { state := { p with stage := .idle }, results := [((), answer)] }

/-- Sends a request over the connection. -/
def send (p : Probe) (r : Request) : Step :=
  { state   := { p with connected := true, stage := .exchanging }
    demands := [.exchange () p.address r] }

/-- Tells the probe something.  What it does not wait for changes nothing. -/
def step (p : Probe) (signal : Signal) : Step :=
  match signal, p.stage with
  | .proceed, .asked r                 =>
      if p.connected then p.send r
      else { state := { p with stage := .connecting r }, demands := [.connect () p.address] }
  | .connected (.ok _), .connecting r  => p.send r
  | .connected (.error e), .connecting _ => p.finish (.error e)
  | .answered answer, .exchanging      => p.finish answer
  | _, _                               => { state := p }

/-- Whether the probe may go on. -/
def mayProceed (p : Probe) : Bool :=
  match p.stage with
  | .asked _ => true
  | _        => false

/-- Whether the probe waits for a reply. -/
def isExchanging (p : Probe) : Bool := p.stage = .exchanging

end Probe

end WitnessReplication

import WitnessReplication.Activity

/-!
# Forwarder — tells the other members' witnesses what is synced

    A replica's event loop drops batches of synced names into a forwarder's mailbox.  The forwarder
    goes round: it takes all batches that have piled up and sends their names to one peer after the
    other, over connections that it keeps.  A peer that cannot be reached, or fails, is passed over
    and hears nothing more of this round.  When the mailbox is empty and nobody can fill it any
    more, the forwarder ends.

* **`Forwarder.post`**, **`Forwarder.detach`** — what the loop does.
* **`Forwarder.step`** — tells the forwarder something.
-/

namespace WitnessReplication

/-- Another member, and whether there is a connection to it. -/
structure Peer where
  address   : Address
  connected : Bool := false
  deriving DecidableEq, Inhabited

namespace Forwarder

/-- How far a forwarder is. -/
inductive Stage where
  /-- Between two rounds. -/
  | idle
  /-- In a round with these names, about to turn to a peer. -/
  | turning (synced : List RequestId) (peer : Nat)
  /-- It waits for a connection to a peer. -/
  | connecting (synced : List RequestId) (peer : Nat)
  /-- It waits for a peer's reply. -/
  | exchanging (synced : List RequestId) (peer : Nat)
  | ended
  deriving DecidableEq, Inhabited

end Forwarder

/-- A forwarder: its peers, the batches it has not taken yet, and whether there may be more. -/
structure Forwarder where
  peers    : List Peer
  mailbox  : List (List RequestId) := []
  attached : Bool := true
  stage    : Forwarder.Stage := .idle
  deriving DecidableEq, Inhabited

namespace Forwarder

/-- What one step comes to.  A forwarder is one activity, and has no results. -/
abbrev Step := Progress Forwarder Unit Empty

/-- A forwarder for a member: every other member is a peer. -/
def ofMembers (me : Address) (members : List Address) : Forwarder :=
  { peers := (members.filter (· ≠ me)).map fun a => { address := a } }

/-- Whether the forwarder has not ended. -/
def running (f : Forwarder) : Bool := f.stage ≠ .ended

/-- Whether a batch that is dropped into the mailbox is going to be taken. -/
def accepts (f : Forwarder) : Bool := f.running && f.attached

/-- Drops a batch into the mailbox, if it is going to be taken. -/
def post (f : Forwarder) (batch : List RequestId) : Forwarder :=
  if f.accepts then { f with mailbox := f.mailbox ++ [batch] } else f

/-- Nobody fills the mailbox any more. -/
def detach (f : Forwarder) : Forwarder := { f with attached := false }

/-- Changes what is known of a peer's connection. -/
def mark (f : Forwarder) (peer : Nat) (connected : Bool) : Forwarder :=
  { f with peers := f.peers.modify peer fun p => { p with connected } }

/-- Waits for something outside, at a stage. -/
def await (f : Forwarder) (stage : Stage) (demand : Demand Unit) : Step :=
  { state := { f with stage }, demands := [demand] }

/-- Sends the names of a round to a peer that there is a connection to. -/
def send (f : Forwarder) (synced : List RequestId) (peer : Nat) (target : Address) : Step :=
  f.await (.exchanging synced peer) (.exchange () target (.witnessGc synced))

/-- Turns to a peer, or ends the round after the last. -/
def turn (f : Forwarder) (synced : List RequestId) (peer : Nat) : Step :=
  match f.peers[peer]? with
  | none   => { state := { f with stage := .idle } }
  | some p =>
      if p.connected then f.send synced peer p.address
      else f.await (.connecting synced peer) (.connect () p.address)

/-- Begins a round with everything in the mailbox, or ends. -/
def begin (f : Forwarder) : Step :=
  match f.mailbox with
  | []     => { state := if f.attached then f else { f with stage := .ended } }
  | _ :: _ => { f with mailbox := [] }.turn f.mailbox.flatten 0

/-- Tells the forwarder something.  What it does not wait for changes nothing. -/
def step (f : Forwarder) (signal : Signal) : Step :=
  match signal, f.stage with
  | .proceed, .idle                           => f.begin
  | .proceed, .turning synced i               => f.turn synced i
  | .connected (.ok _), .connecting synced i  =>
      match f.peers[i]? with
      | some p => (f.mark i true).send synced i p.address
      | none   => { state := { f with stage := .idle } }
  | .connected (.error _), .connecting synced i =>
      { state := { f with stage := .turning synced (i + 1) } }
  | .answered (.ok _), .exchanging synced i    =>
      { state := { f with stage := .turning synced (i + 1) } }
  | .answered (.error _), .exchanging synced i =>
      { state := { f.mark i false with stage := .turning synced (i + 1) } }
  | _, _                                      => { state := f }

/-- Whether the forwarder may go on. -/
def mayProceed (f : Forwarder) : Bool :=
  match f.stage with
  | .idle        => f.mailbox ≠ [] || !f.attached
  | .turning _ _ => true
  | _            => false

/-- Whether the forwarder waits for a reply. -/
def isExchanging (f : Forwarder) : Bool :=
  match f.stage with
  | .exchanging _ _ => true
  | _               => false

end Forwarder

end WitnessReplication

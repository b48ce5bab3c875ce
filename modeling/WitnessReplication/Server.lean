import WitnessReplication.EventLoop
import WitnessReplication.Wire.Frame

/-!
# Server — a replica behind the wire

    The server turns the frame of a request into an event for the replica's loop, and the answer
    into a frame.  A request that makes no sense is refused before the replica sees it, whether the
    loop still runs or not; a sound one is refused if the loop has ended.

* **`Server.accept`** — the request, or why it is refused.
* **`Server.serve`** — frames that arrive before the loop runs, and what each is answered with.
* **`Server.reply`** — the frame in which an answer is sent back.
-/

namespace WitnessReplication

/-- Why a server refuses a request. -/
inductive Refusal where
  | invalidArgument (cause : Wire.Malformation)
  | unavailable
  deriving DecidableEq, Inhabited

/-- The wording of a loop that has ended. -/
def EventLoop.endedMessage : String := "Replica event loop has exited"

/-- The wording of a refusal. -/
def Refusal.message : Refusal → String
  | .invalidArgument cause => cause.message
  | .unavailable           => EventLoop.endedMessage

namespace Server

variable {σ : Type}

/-- The request to queue, unless the frame makes no sense or the loop has ended. -/
def accept (l : EventLoop σ) (frame : Wire.Frame Wire.RawRequest) : Except Refusal Request :=
  match frame.body.request with
  | .error cause => .error (.invalidArgument cause)
  | .ok request  => if l.running then .ok request else .error .unavailable

/-- Queues the request of a frame under a caller's number, or refuses it. -/
def receive (l : EventLoop σ) (caller : Nat) (frame : Wire.Frame Wire.RawRequest) :
    Except Refusal (EventLoop σ) :=
  (accept l frame).map fun request => l.submit caller (.request request)

/-- Queues the requests of some frames, each under its place counted from `caller`.  Returns, of
    each, why it was refused, if it was. -/
def receiveAll (l : EventLoop σ) (caller : Nat) :
    List (Wire.Frame Wire.RawRequest) → EventLoop σ × List (Option Refusal)
  | []         => (l, [])
  | frame :: r =>
      match receive l caller frame with
      | .ok l'         =>
          let (l'', rest) := receiveAll l' (caller + 1) r
          (l'', none :: rest)
      | .error refusal =>
          let (l', rest) := receiveAll l (caller + 1) r
          (l', some refusal :: rest)

/-- Serves frames that arrive before the loop runs.  Returns the loop once it has settled, what each
    frame is answered with, and the batches for the other witnesses.  A request that was queued when
    the loop ended is answered like one that came later. -/
def serve [StateMachine σ] (l : EventLoop σ) (now : Nat)
    (frames : List (Wire.Frame Wire.RawRequest)) :
    EventLoop σ × List (Except Refusal Reply) × List (List RequestId) :=
  let (l, refusals) := receiveAll l 0 frames
  let (l, out) := l.settle now
  let answers := refusals.zipIdx.map fun (refusal, caller) =>
    match refusal, Emission.replyTo? out caller with
    | some refusal, _  => .error refusal
    | none, some reply => .ok reply
    | none, none       => .error .unavailable
  (l, answers, Emission.batches out)

/-- The frame in which an answer is sent back, under the current revision. -/
def reply (r : Reply) : Wire.Frame Wire.RawReply := Wire.toReplyFrame (.seal r)

end Server

end WitnessReplication

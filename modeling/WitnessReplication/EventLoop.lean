import WitnessReplication.Replica

/-!
# Event loop — one replica, one event at a time

    Whatever changes a replica goes through one queue.  The loop takes the oldest event, handles
    it, and passes on the names that wait for the other witnesses.  When nothing is queued and
    something is unsynced it commits; when nothing is left to do it waits.  It ends when it is
    killed, or when nobody holds a handle to it any more and the queue is empty; then what is
    unsynced stays so.

* **`turn`** — one round of the loop, if it has something to do.
* **`settle`** — rounds until it waits or has ended.
* **`ask`** — one event, and everything that follows from it.
* **`Emission`** — what leaves the loop: answers to the callers and batches of synced names.
-/

namespace WitnessReplication

/-- Something that is done to a replica through its event loop. -/
inductive Event where
  | request (r : Request)
  | lead (leader : Option Address) (term : Term)
  deriving DecidableEq, Inhabited

/-- What leaves the loop: the answer to the caller of the given number, or a batch of names for the
    other witnesses.  A change of leadership is answered without a reply. -/
inductive Emission where
  | answer (caller : Nat) (reply : Option Reply)
  | batch (synced : List RequestId)
  deriving DecidableEq, Inhabited

namespace Emission

/-- The reply to a caller among what left a loop. -/
def replyTo? (out : List Emission) (caller : Nat) : Option Reply :=
  out.findSome? fun
    | .answer c reply => if c = caller then reply else none
    | .batch _        => none

/-- The batches among what left a loop. -/
def batches (out : List Emission) : List (List RequestId) :=
  out.filterMap fun
    | .batch synced => some synced
    | .answer _ _   => none

end Emission

/-- A replica with the events that wait for it, the oldest first, each under its caller's number. -/
structure EventLoop (σ : Type) where
  replica  : Replica σ
  queue    : List (Nat × Event) := []
  /-- Somebody takes the batches. -/
  listener : Bool := true
  /-- Somebody can still send events. -/
  attached : Bool := true
  running  : Bool := true

namespace EventLoop

variable {σ : Type}

/-- Queues an event.  A loop that has ended takes none. -/
def submit (l : EventLoop σ) (caller : Nat) (e : Event) : EventLoop σ :=
  if l.running then { l with queue := l.queue ++ [(caller, e)] } else l

/-- Passes on the names that wait for the other witnesses, if there are any and somebody listens. -/
def forward (l : EventLoop σ) : EventLoop σ × List Emission :=
  let (synced, replica) := l.replica.takePending
  let l' := { l with replica }
  if synced = [] || !l.listener then (l', []) else (l', [.batch synced])

/-- Handles one event and passes on what it synced. -/
def handle [StateMachine σ] (l : EventLoop σ) (now : Nat) (caller : Nat) (e : Event) :
    EventLoop σ × List Emission :=
  let (reply, replica) := match e with
    | .request r        => let (a, r') := l.replica.answer now r; (some a, r')
    | .lead leader term => (none, l.replica.lead leader term)
  let (l', out) := { l with replica }.forward
  (l', .answer caller reply :: out)

/-- Commits what is unsynced and passes it on. -/
def commit (l : EventLoop σ) : EventLoop σ × List Emission :=
  { l with replica := l.replica.syncAll }.forward

/-- One round.  `none` when the loop waits for an event or has ended. -/
def turn [StateMachine σ] (l : EventLoop σ) (now : Nat) : Option (EventLoop σ × List Emission) :=
  if !l.running then none
  else match l.queue with
    | (caller, e) :: rest => some ({ l with queue := rest }.handle now caller e)
    | []                  =>
        if !l.attached then some ({ l with running := false }, [])
        else if l.replica.unsynced = [] then none
        else some l.commit

/-- At most `n` rounds, and what left the loop during them. -/
def turns [StateMachine σ] (now : Nat) : Nat → EventLoop σ → EventLoop σ × List Emission
  | 0, l     => (l, [])
  | n + 1, l =>
      match l.turn now with
      | none          => (l, [])
      | some (l', out) =>
          let (l'', more) := turns now n l'
          (l'', out ++ more)

/-- Rounds until the loop waits or has ended.  Every event takes one, and a commit or the end of
    the loop one more after the last. -/
def settle [StateMachine σ] (l : EventLoop σ) (now : Nat) : EventLoop σ × List Emission :=
  l.turns now (l.queue.length + 1)

/-- Queues one event and settles; `none` if the loop has ended. -/
def ask [StateMachine σ] (l : EventLoop σ) (now : Nat) (e : Event) :
    Option (EventLoop σ × List Emission) :=
  if l.running then some ((l.submit 0 e).settle now) else none

/-- Kills the loop: what is queued is lost. -/
def kill (l : EventLoop σ) : EventLoop σ := { l with running := false, queue := [] }

/-- Drops the last handle through which events could be sent. -/
def detach (l : EventLoop σ) : EventLoop σ := { l with attached := false }

/-- Drops the receiving end of the batches. -/
def dropListener (l : EventLoop σ) : EventLoop σ := { l with listener := false }

end EventLoop

end WitnessReplication

import WitnessReplication.Activity
import WitnessReplication.Client.Locator

/-!
# Courier — a client's errands at the members

    A courier runs errands, any number of them at once.  They share the pool, the belief who leads,
    and the highest term a witness has told.  An errand is an activity; each step of it is one of
    the small functions below, and each leads to at most one demand or one result.

    Errands that look for the leader go one at a time: an errand keeps its turn from its first try
    to its last.  The belief who leads is changed by the errand whose turn it is, and by no other.

* **`Courier.begin`** — sends out an errand.
* **`Courier.step`** — tells an errand something.
* **`Courier.abandon`** — calls an errand off: it leaves every line, a connection it used stays.
* **`Courier.runnable`** — the errands that may go on.
-/

namespace WitnessReplication

namespace Errand

/-- What an errand is for. -/
inductive Aim where
  /-- One exchange with a member. -/
  | direct (member : Nat) (request : Request)
  /-- A request that the leader must take, with the tries that are left. -/
  | lead (request : Request) (tries : Nat)
  /-- A record at a witness.  The term is the one known when the errand set off. -/
  | record (witness : Nat) (entry : LogEntry) (term : Term)
  /-- A connection to every member from a place on, with the members reached so far. -/
  | survey (next : Nat) (reached : List Nat)
  /-- The end of every connection from a place on. -/
  | close (next : Nat)
  deriving DecidableEq, Inhabited

/-- How far an errand is. -/
inductive Stage where
  /-- It may go on. -/
  | ready
  /-- It waits for its turn to look for the leader. -/
  | awaitsTurn
  /-- It waits in line at a member's slot. -/
  | awaitsSlot (member : Nat)
  /-- It holds a slot and waits for a connection. -/
  | connecting (member : Nat)
  /-- It holds a slot and waits for a reply. -/
  | exchanging (member : Nat)
  /-- It waits some time before it asks for the leader again. -/
  | backingOff
  deriving DecidableEq, Inhabited

/-- How an errand ended. -/
inductive Outcome where
  | replied (reply : Except TransportError Reply)
  | led (reply : Except SessionError Reply)
  | recorded (accepted : Bool)
  | surveyed (reached : List Nat)
  | closed

/-- How many of some records were accepted. -/
def accepted (outcomes : List Outcome) : Nat :=
  outcomes.countP fun
    | .recorded ok => ok
    | _            => false

/-- The request that an errand makes of a member. -/
def Aim.request? : Aim → Option Request
  | .direct _ request     => some request
  | .lead request _       => some request
  | .record _ entry term  => some (.record entry term)
  | .survey _ _           => none
  | .close _              => none

end Errand

/-- An errand under way. -/
structure Errand where
  id    : Nat
  aim   : Errand.Aim
  stage : Errand.Stage
  deriving DecidableEq, Inhabited

/-- The errands of a client and what they share. -/
structure Courier where
  pool      : Pool
  /-- The place of the member that is believed to lead. -/
  guess     : Nat
  /-- Whose turn it is to look for the leader. -/
  turn      : FairLock := {}
  /-- How long to wait, in nanoseconds, before a member that knows no leader is asked again. -/
  backoff   : Nat
  /-- The highest term that a witness which refused has told. -/
  knownTerm : Term := ⟨0⟩
  errands   : List Errand := []
  /-- The number that the next activity gets. -/
  fresh     : Nat := 0

namespace Courier

/-- What one step of an errand comes to. -/
abbrev Step := Progress Courier Nat Errand.Outcome

/-- The errand of a number. -/
def find? (c : Courier) (id : Nat) : Option Errand := c.errands.find? fun e => e.id = id

/-- Puts an errand in place of what it was before. -/
def put (c : Courier) (e : Errand) : Courier :=
  { c with errands := c.errands.map fun f => if f.id = e.id then e else f }

/-- Takes a number that no activity had. -/
def takeNumber (c : Courier) : Nat × Courier := (c.fresh, { c with fresh := c.fresh + 1 })

/-- An errand goes on later, at a stage. -/
def wait (c : Courier) (e : Errand) (stage : Errand.Stage) : Step :=
  { state := c.put { e with stage } }

/-- An errand waits for something outside, at a stage. -/
def await (c : Courier) (e : Errand) (stage : Errand.Stage) (demand : Demand Nat) : Step :=
  { state := c.put { e with stage }, demands := [demand] }

/-- Takes an errand away: it leaves every line. -/
def abandon (c : Courier) (id : Nat) : Courier :=
  { c with
    errands := c.errands.filter fun e => e.id ≠ id
    turn    := c.turn.leave id
    pool    := c.pool.leaveAll id }

/-- Ends an errand. -/
def finish (c : Courier) (e : Errand) (outcome : Errand.Outcome) : Step :=
  { state := c.abandon e.id, results := [(e.id, outcome)] }

/-! ## Setting out -/

/-- Sends out an errand, and returns its number.  One for the leader lines up for its turn.  One
    that closes refuses all exchanges that are not admitted yet. -/
def begin (c : Courier) (aim : Errand.Aim) : Nat × Courier :=
  let (id, c) := c.takeNumber
  match aim with
  | .lead _ _ => (id, { c with errands := c.errands ++ [⟨id, aim, .awaitsTurn⟩]
                               turn    := c.turn.join id })
  | .close _  => (id, { c with errands := c.errands ++ [⟨id, aim, .ready⟩]
                               pool    := c.pool.close })
  | _         => (id, { c with errands := c.errands ++ [⟨id, aim, .ready⟩] })

/-- Sends out a request to the leader, with a try for every member. -/
def beginLead (c : Courier) (request : Request) : Nat × Courier :=
  c.begin (.lead request c.pool.size)

/-- Sends out a record to each of some witnesses, in order, and returns the errands' numbers. -/
def beginRecords (c : Courier) (entry : LogEntry) : List Nat → List Nat × Courier
  | []     => ([], c)
  | w :: r =>
      let (id, c) := c.begin (.record w entry c.knownTerm)
      let (ids, c) := c.beginRecords entry r
      (id :: ids, c)

/-! ## After a try -/

/-- What an exchange came to, for an errand that is at no slot any more. -/
def settle (c : Courier) (e : Errand) (outcome : Except TransportError Reply) : Step :=
  match e.aim with
  | .direct _ _           => c.finish e (.replied outcome)
  | .lead request tries   =>
      let e := { e with aim := .lead request (tries - 1) }
      match Locator.verdict c.pool c.guess outcome with
      | .accepted reply  => c.finish e (.led (.ok reply))
      | .malformed error => c.finish e (.led (.error error))
      | .retarget guess  => { c with guess }.wait e .ready
      | .backOff         => c.await e .backingOff (.pause e.id c.backoff)
  | .record _ _ _         =>
      match outcome with
      | .error _  => c.finish e (.recorded false)
      | .ok reply =>
          if reply.accepted then c.finish e (.recorded true)
          else { c with knownTerm := c.knownTerm.max (reply.term?.getD ⟨0⟩) }.finish e
                 (.recorded false)
  | .survey _ _           => { state := c }
  | .close _              => { state := c }

/-- The errand goes on to the next slot, if it has no exchange to make at this one. -/
def moveOn (c : Courier) (e : Errand) (member : Nat) (reached : Bool) : Step :=
  let c := { c with pool := c.pool.leave member e.id }
  match e.aim with
  | .survey next seen =>
      let seen := if reached then seen ++ [member] else seen
      c.wait { e with aim := .survey (next + 1) seen } .ready
  | .close next       => c.wait { e with aim := .close (next + 1) } .ready
  | _                 => { state := c }

/-! ## At a slot -/

/-- The errand holds a slot with a connection: it makes its exchange, or moves on if it has none
    to make. -/
def use (c : Courier) (e : Errand) (member : Nat) : Step :=
  match e.aim.request? with
  | some request =>
      c.await e (.exchanging member) (.exchange e.id (c.pool.address member) request)
  | none         => c.moveOn e member true

/-- The errand holds a slot: a closing one drops the connection, another one needs it. -/
def enter (c : Courier) (e : Errand) (member : Nat) : Step :=
  match e.aim with
  | .close _ => { c with pool := c.pool.disconnect member }.moveOn e member false
  | _        =>
      if c.pool.connected member then c.use e member
      else c.await e (.connecting member) (.connect e.id (c.pool.address member))

/-- The errand enters a slot it is in line for, or waits for it. -/
def enterOrWait (c : Courier) (e : Errand) (member : Nat) : Step :=
  if c.pool.holds member e.id then c.enter e member else c.wait e (.awaitsSlot member)

/-- The errand lines up for an exchange, if the pool lets it. -/
def visit (c : Courier) (e : Errand) (member : Nat) : Step :=
  match c.pool.enroll member e.id with
  | .error error => c.settle e (.error error)
  | .ok pool     => { c with pool }.enterOrWait e member

/-! ## Signals -/

/-- An errand that may go on sets off for its next slot, or ends if there is none. -/
def setOff (c : Courier) (e : Errand) : Step :=
  match e.aim with
  | .direct member _      => c.visit e member
  | .lead _ 0             => c.finish e (.led (.error .noActiveLeader))
  | .lead _ _             => c.visit e c.guess
  | .record w entry _     => c.visit { e with aim := .record w entry c.knownTerm } w
  | .survey next reached  =>
      if next < c.pool.size then { c with pool := c.pool.lineUp next e.id }.enterOrWait e next
      else c.finish e (.surveyed reached)
  | .close next           =>
      if next < c.pool.size then { c with pool := c.pool.lineUp next e.id }.enterOrWait e next
      else c.finish e .closed

/-- The errand is told to go on: it does if it is not kept waiting by another. -/
def proceed (c : Courier) (e : Errand) : Step :=
  match e.stage with
  | .ready         => c.setOff e
  | .awaitsTurn    => if c.turn.holds e.id then c.setOff e else { state := c }
  | .awaitsSlot m  => if c.pool.holds m e.id then c.enter e m else { state := c }
  | _              => { state := c }

/-- The errand is told whether it has a connection. -/
def connected (c : Courier) (e : Errand) (outcome : Except TransportError Unit) : Step :=
  match e.stage, outcome with
  | .connecting m, .ok _        => { c with pool := c.pool.connect m }.use e m
  | .connecting m, .error error =>
      match e.aim.request? with
      | some _ => { c with pool := c.pool.leave m e.id }.settle e (.error error)
      | none   => c.moveOn e m false
  | _, _                        => { state := c }

/-- Whether an exchange that came to this leaves its connection usable: it does unless the exchange
    failed.  An answer that nobody can read is no failure of the connection. -/
def keepsConnection : Except TransportError Reply → Bool
  | .ok _        => true
  | .error error => error.kind = .malformed

/-- The errand is told what its exchange came to. -/
def answered (c : Courier) (e : Errand) (outcome : Except TransportError Reply) : Step :=
  match e.stage with
  | .exchanging m =>
      let pool := if keepsConnection outcome then c.pool else c.pool.disconnect m
      { c with pool := pool.leave m e.id }.settle e outcome
  | _             => { state := c }

/-- The errand has waited before asking for the leader again. -/
def rested (c : Courier) (e : Errand) : Step :=
  match e.stage with
  | .backingOff => c.wait e .ready
  | _           => { state := c }

/-- Tells an errand something.  What it does not wait for changes nothing. -/
def step (c : Courier) (id : Nat) (s : Signal) : Step :=
  match c.find? id with
  | none   => { state := c }
  | some e =>
      match s with
      | .proceed            => c.proceed e
      | .connected outcome  => c.connected e outcome
      | .answered outcome   => c.answered e outcome
      | .rested             => c.rested e
      | .expired            => { state := c }

/-- Whether an errand may go on. -/
def mayProceed (c : Courier) (e : Errand) : Bool :=
  match e.stage with
  | .ready        => true
  | .awaitsTurn   => c.turn.holds e.id
  | .awaitsSlot m => c.pool.holds m e.id
  | _             => false

/-- The errands that may go on, in the order they were sent out. -/
def runnable (c : Courier) : List Nat := (c.errands.filter c.mayProceed).map (·.id)

/-- Whether an errand waits for a reply. -/
def isExchanging (c : Courier) (id : Nat) : Bool :=
  match c.find? id with
  | some ⟨_, _, .exchanging _⟩ => true
  | _                          => false

end Courier

end WitnessReplication

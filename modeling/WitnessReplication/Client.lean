import WitnessReplication.Client.Opening

/-!
# Client — sessions that are opened when they are needed

    A client keeps one session, opened by the first job that needs it, until the client is
    destroyed; the next job after that opens another one.  Jobs that need the kept session line up
    for it, so that it is opened once.  A session that was handed out stays usable by whoever has
    it, whatever becomes of the kept one.

    Every session that a client ever opened has a seat, and keeps it.

* **`Client.start`** — gives a client a job.
* **`Client.step`** — tells a job, or an activity of a session, something.
-/

namespace WitnessReplication

/-- A command as a user hands it over: its payload, the keys it touches, who gets it, and its
    number if the user chooses it. -/
structure Submission where
  data  : Bytes
  keys  : List Key
  route : Route := .fast
  seq   : Option SeqNo := none
  deriving DecidableEq, Inhabited

/-- A session's place, from before it is open. -/
inductive Seat where
  | opening (o : Opening)
  | taken (s : Session)
  | failed

namespace Seat

/-- The activities of what is in a seat that may go on. -/
def runnable : Seat → List Nat
  | .opening o => o.runnable
  | .taken s   => s.runnable
  | .failed    => []

/-- Whether an activity of what is in a seat waits for a reply. -/
def isExchanging (s : Seat) (id : Nat) : Bool :=
  match s with
  | .opening o => o.isExchanging id
  | .taken s   => s.isExchanging id
  | .failed    => false

/-- On whose behalf an activity of what is in a seat goes on. -/
def owner (s : Seat) (id : Nat) : Nat :=
  match s with
  | .taken s => s.owner id
  | _        => id

end Seat

namespace Client

/-- What a client can be asked to do. -/
inductive Aim where
  /-- Open a session that is not kept. -/
  | openNew
  /-- Hand out the kept session. -/
  | obtain
  /-- Commit a command through the kept session. -/
  | send (command : Submission)
  /-- Commit a command through the session in a seat. -/
  | sendAt (seat : Nat) (command : Submission)
  /-- Close the session in a seat. -/
  | closeAt (seat : Nat)
  /-- Close the kept session and keep it no more. -/
  | destroy
  deriving DecidableEq, Inhabited

/-- How far a job is. -/
inductive Stage where
  | ready
  /-- It waits until its time has come. -/
  | delayed
  /-- It waits in line for the kept session. -/
  | awaitsLock
  /-- It waits until the session in a seat is open. -/
  | opening (seat : Nat)
  /-- It waits for an activity of the session in a seat. -/
  | waiting (seat activity : Nat)
  deriving DecidableEq, Inhabited

/-- Something a client was asked to do, after some time in nanoseconds. -/
structure Job where
  id    : Nat
  aim   : Aim
  delay : Nat := 0
  stage : Stage := .ready
  deriving DecidableEq, Inhabited

/-- How a job ended. -/
inductive Outcome where
  /-- There is a session in this seat, or could not be. -/
  | opened (seat : Except SessionError Nat)
  | sent (result : Except SessionError CommandOutput)
  | done

/-- Who is told something. -/
inductive Activity where
  | job (id : Nat)
  /-- A call or an errand of the session in a seat. -/
  | inSeat (seat id : Nat)
  deriving DecidableEq, Inhabited

end Client

/-- A client: the sessions it opened, which of them it keeps, and its jobs. -/
structure Client where
  config : SessionConfig
  seats  : List Seat := []
  kept   : Option Nat := none
  /-- Who may look at, or change, what is kept. -/
  lock   : FairLock := {}
  jobs   : List Client.Job := []
  /-- The number that the next job gets. -/
  fresh  : Nat := 0

namespace Client

/-- What one step comes to; the results are those of jobs. -/
abbrev Step := Progress Client Activity Outcome

/-- The job of a number. -/
def find? (c : Client) (id : Nat) : Option Job := c.jobs.find? fun j => j.id = id

/-- Puts a job in place of what it was before. -/
def put (c : Client) (j : Job) : Client :=
  { c with jobs := c.jobs.map fun k => if k.id = j.id then j else k }

/-- Puts something into a seat. -/
def seat (c : Client) (i : Nat) (s : Seat) : Client := { c with seats := c.seats.set i s }

/-- Ends a job: it leaves the line for the kept session. -/
def finish (c : Client) (j : Job) (outcome : Outcome) : Step :=
  { state   := { c with jobs := c.jobs.filter fun k => k.id ≠ j.id, lock := c.lock.leave j.id }
    results := [(.job j.id, outcome)] }

/-- Whether a job looks at, or changes, what is kept. -/
def Aim.needsLock : Aim → Bool
  | .obtain  => true
  | .send _  => true
  | .destroy => true
  | _        => false

/-- Gives a client a job, to be begun after some time in nanoseconds; returns the job's number. -/
def start (c : Client) (aim : Aim) (delay : Nat := 0) : Nat × Client :=
  (c.fresh, { c with fresh := c.fresh + 1, jobs := c.jobs ++ [{ id := c.fresh, aim, delay }] })

/-! ## What sessions come to -/

/-- The job that waits for an activity of the session in a seat. -/
def waiter? (c : Client) (seat id : Nat) : Option Job :=
  c.jobs.find? fun j => j.stage = .waiting seat id

/-- Hands what a call came to, or the end of a session, on to the job that waits for it. -/
def deliver (seat : Nat) (c : Client) (id : Nat) (outcome : Session.Outcome) : Step :=
  match c.waiter? seat id with
  | none   => { state := c }
  | some j =>
      match outcome with
      | .returned result => c.finish j (.sent result)
      | .closed          => c.finish j .done

/-- Takes in what a step of the session in a seat came to. -/
def absorb (c : Client) (seat : Nat) (p : Session.Step) : Step :=
  let p : Progress Session Activity (Nat × Session.Outcome) :=
    { state   := p.state
      demands := p.demands.map (·.rename (.inSeat seat))
      results := p.results.map fun (id, outcome) => (.inSeat seat id, id, outcome) }
  p.feed (fun s => c.seat seat (.taken s)) fun c _ (id, outcome) => deliver seat c id outcome

/-! ## What jobs do -/

/-- A job sends a command through the session in a seat. -/
def sendAt (c : Client) (j : Job) (seat : Nat) (command : Submission) : Step :=
  match c.seats[seat]? with
  | some (.taken s) =>
      let (id, p) := s.invoke command.data command.keys command.route command.seq
      (c.put { j with stage := .waiting seat id }).absorb seat p
  | _               => c.finish j (.sent (.error .sessionClosed))

/-- A job closes the session in a seat. -/
def closeAt (c : Client) (j : Job) (seat : Nat) : Step :=
  match c.seats[seat]? with
  | some (.taken s) =>
      let (id, s) := s.close
      { state := (c.seat seat (.taken s)).put { j with stage := .waiting seat id } }
  | _               => c.finish j .done

/-- A job has come to an open session. -/
def reach (c : Client) (j : Job) (seat : Nat) : Step :=
  match j.aim with
  | .send command => { c with lock := c.lock.leave j.id }.sendAt j seat command
  | _             => c.finish j (.opened (.ok seat))

/-- A job could not open a session. -/
def miss (c : Client) (j : Job) (error : SessionError) : Step :=
  match j.aim with
  | .send _ => c.finish j (.sent (.error error))
  | _       => c.finish j (.opened (.error error))

/-- A job opens a session in a new seat. -/
def openSeat (c : Client) (j : Job) : Step :=
  match Opening.begin c.config with
  | .error error => c.miss j error
  | .ok o        =>
      { state := { c with seats := c.seats ++ [Seat.opening o] }.put
                   { j with stage := .opening c.seats.length } }

/-- A job whose turn it is at what is kept uses it. -/
def useKept (c : Client) (j : Job) : Step :=
  match j.aim, c.kept with
  | .destroy, some seat =>
      { c with kept := none, lock := c.lock.leave j.id }.closeAt j seat
  | .destroy, none      => c.finish j .done
  | _, some seat        => c.reach j seat
  | _, none             => c.openSeat j

/-- A job uses what is kept if it is its turn, and waits for it otherwise. -/
def useOrWait (c : Client) (j : Job) : Step :=
  if c.lock.holds j.id then c.useKept j else { state := c.put { j with stage := .awaitsLock } }

/-- A job begins. -/
def begin (c : Client) (j : Job) : Step :=
  match j.aim with
  | .sendAt seat command => c.sendAt j seat command
  | .closeAt seat        => c.closeAt j seat
  | .openNew             => c.openSeat j
  | _                    => { c with lock := c.lock.join j.id }.useOrWait j

/-- A job that may go on goes on. -/
def proceed (c : Client) (j : Job) : Step :=
  match j.stage with
  | .ready      =>
      if j.delay = 0 then c.begin j
      else
        { state   := c.put { j with stage := .delayed }
          demands := [.pause (.job j.id) j.delay] }
  | .awaitsLock => c.useOrWait j
  | _           => { state := c }

/-- A job's time has come. -/
def rested (c : Client) (j : Job) : Step :=
  match j.stage with
  | .delayed => c.begin j
  | _        => { state := c }

/-- A session is open, or could not be opened: the job that waited for it goes on.  One that needs
    the kept session keeps this one. -/
def settle (c : Client) (seat : Nat) (result : Except SessionError Session) : Step :=
  match c.jobs.find? fun j => j.stage = .opening seat with
  | none   => { state := c }
  | some j =>
      match result with
      | .error error => (c.seat seat .failed).miss j error
      | .ok s        =>
          let c := c.seat seat (.taken s)
          { c with kept := if j.aim.needsLock then some seat else c.kept }.reach j seat

/-! ## Signals -/

/-- Tells an activity of what is in a seat something. -/
def stepSeat (c : Client) (seat id : Nat) (signal : Signal) : Step :=
  match c.seats[seat]? with
  | some (.opening o) =>
      let p := o.step id signal
      let p : Progress Opening Activity (Except SessionError Session) :=
        { state   := p.state
          demands := p.demands.map (·.rename (.inSeat seat))
          results := p.results.map fun (id, result) => (.inSeat seat id, result) }
      p.feed (fun o => c.seat seat (.opening o)) fun c _ result => c.settle seat result
  | some (.taken s)   => c.absorb seat (s.step id signal)
  | _                 => { state := c }

/-- Tells an activity something.  What it does not wait for changes nothing. -/
def step (c : Client) (who : Activity) (signal : Signal) : Step :=
  match who with
  | .inSeat seat id => c.stepSeat seat id signal
  | .job id         =>
      match c.find? id, signal with
      | some j, .proceed => c.proceed j
      | some j, .rested  => c.rested j
      | _, _             => { state := c }

/-- Whether a job may go on. -/
def mayProceed (c : Client) (j : Job) : Bool :=
  match j.stage with
  | .ready      => true
  | .awaitsLock => c.lock.holds j.id
  | _           => false

/-- The activities that may go on: jobs first, then those of sessions, seat by seat. -/
def runnable (c : Client) : List Activity :=
  (c.jobs.filter c.mayProceed).map (fun j => .job j.id) ++
    c.seats.zipIdx.flatMap fun (s, i) => s.runnable.map (.inSeat i)

/-- Whether an activity waits for a reply. -/
def isExchanging (c : Client) : Activity → Bool
  | .job _          => false
  | .inSeat seat id => c.seats[seat]?.any fun s => s.isExchanging id

/-- On whose behalf an activity goes on: a call is part of the job that made it, and so is the
    opening of a session. -/
def owner (c : Client) : Activity → Activity
  | .job id         => .job id
  | .inSeat seat id =>
      let id := (c.seats[seat]?.map fun s => s.owner id).getD id
      match c.jobs.find? fun j => j.stage = .opening seat || j.stage = .waiting seat id with
      | some j => .job j.id
      | none   => .inSeat seat id

/-- The client id of the session in a seat. -/
def clientId? (c : Client) (seat : Nat) : Option ClientId :=
  match c.seats[seat]? with
  | some (.taken s) => some s.identity.client
  | _               => none

end Client

end WitnessReplication

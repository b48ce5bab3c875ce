import WitnessReplication.Client.Courier
import WitnessReplication.Client.Options

/-!
# Session — a client's commands, each tried until it is committed

    A session has an identity, a courier, and the calls that are under way.  A call makes attempts
    one after the other, with pauses between them.  An attempt on the fast route sends the command
    to the leader and a record of it to every selected witness, all at once, and waits for all of
    them; if it takes a sync to commit the command, one more errand follows.

    A call is an activity and so are its errands.  A call that runs out of time calls off its errand
    to the leader; its records go on, and nobody waits for them.

* **`Attempt.decision`** — what follows once the leader and the witnesses have answered.
* **`RetryPolicy.verdict`** — what follows once an attempt has failed: another one, or an error.
* **`Session.invoke`**, **`Session.close`** — what a user of a session does.
* **`Session.step`** — tells a call or an errand something.
-/

namespace WitnessReplication

/-- How a command came to be committed. -/
inductive CommitPath where
  /-- The leader executed it and every selected witness holds it. -/
  | witnessQuorum
  /-- The leader said that it has ordered it durably already. -/
  | leaderSynced
  /-- Not every witness holds it, so the leader was made to order it durably. -/
  | explicitSync
  /-- The leader executed it and no witness was asked to hold it. -/
  | leaderOnly
  deriving DecidableEq, Inhabited

/-- The name of a path. -/
def CommitPath.name : CommitPath → String
  | .witnessQuorum => "WitnessQuorum"
  | .leaderSynced  => "LeaderSynced"
  | .explicitSync  => "ExplicitSync"
  | .leaderOnly    => "LeaderOnly"

/-- What a committed command was answered with. -/
structure CommandOutput where
  seq  : SeqNo
  data : Bytes
  path : CommitPath
  deriving DecidableEq, Inhabited

/-- Who gets a command. -/
inductive Route where
  /-- The leader and the witnesses. -/
  | fast
  /-- The leader and nobody else. -/
  | leaderOnly
  deriving DecidableEq, Inhabited

/-! ## Attempts -/

/-- One attempt to commit a command. -/
structure Attempt where
  route    : Route
  /-- Who was believed to lead when the attempt began. -/
  snapshot : Nat
  /-- How many witnesses were selected. -/
  selected : Nat
  /-- The errand that takes the command to the leader. -/
  leader   : Nat
  /-- What came of it. -/
  answer   : Option (Except SessionError Reply) := none
  /-- The errands that take records to the witnesses and are not done. -/
  pending  : List Nat := []
  /-- How many witnesses hold the command. -/
  accepted : Nat := 0

/-- The attempt once a witness has been heard of. -/
def Attempt.hear (a : Attempt) (errand : Nat) (accepted : Bool) : Attempt :=
  { a with
    pending  := a.pending.erase errand
    accepted := if accepted then a.accepted + 1 else a.accepted }

/-- Whether nobody is waited for any more. -/
def Attempt.isComplete (a : Attempt) : Bool := a.answer.isSome && a.pending.isEmpty

/-- What follows from an attempt. -/
inductive Decision where
  | commit (data : Bytes) (path : CommitPath)
  /-- The leader has the command, and must be made to order it durably. -/
  | sync (data : Bytes)
  | fail (error : SessionError)
  deriving DecidableEq, Inhabited

/-- What follows once the leader and all witnesses have answered, when a given member is believed
    to lead.  If that changed during the attempt, the witnesses were selected for another leader and
    their word counts for nothing. -/
def Attempt.decision (a : Attempt) (guess : Nat) (answer : Except SessionError Reply) : Decision :=
  match answer with
  | .error error => .fail error
  | .ok reply    =>
      match a.route with
      | .leaderOnly => .commit reply.data .leaderOnly
      | .fast       =>
          if guess ≠ a.snapshot then .fail .leaderChanged
          else if reply.synced then .commit reply.data .leaderSynced
          else if a.accepted = a.selected then .commit reply.data .witnessQuorum
          else .sync reply.data

/-- Whether an error ends a call at once: another attempt could not do better. -/
def SessionError.isFatal : SessionError → Bool
  | .malformedResponse _ => true
  | .sessionClosed       => true
  | _                    => false

/-- What an attempt's error makes of a call that has made some attempts: the call's own error, if it
    ends here.  An error that no attempt can mend is the call's; after the last attempt that is
    allowed the call gives up. -/
def RetryPolicy.verdict (p : RetryPolicy) (attempts : Nat) (error : SessionError) :
    Option SessionError :=
  if error.isFatal then some error
  else if p.maxAttempts.any fun m => m ≤ attempts then some (.retriesExhausted attempts error)
  else none

/-- A call goes on exactly if the error can be mended and another attempt is allowed. -/
theorem RetryPolicy.verdict_eq_none_iff {p : RetryPolicy} {attempts : Nat} {error : SessionError} :
    p.verdict attempts error = none ↔
      error.isFatal = false ∧ ∀ m, p.maxAttempts = some m → attempts < m := by
  unfold verdict
  cases hf : error.isFatal with
  | true  => simp
  | false =>
      cases hm : p.maxAttempts with
      | none   => simp
      | some m =>
          by_cases h : m ≤ attempts
          · simp [h]
          · simp [h, Nat.lt_of_not_le h]

/-! ## Calls -/

namespace Call

/-- How far a call is. -/
inductive Stage where
  | attempting (a : Attempt)
  /-- The leader has answered with this and is made to order the command, by this errand. -/
  | syncing (data : Bytes) (errand : Nat)
  | pausing

/-- The errand to the leader that a call waits for. -/
def Stage.errand? : Stage → Option Nat
  | .attempting a    => some a.leader
  | .syncing _ id    => some id
  | .pausing         => none

end Call

/-- A call under way: its command, and how often it was tried. -/
structure Call where
  id       : Nat
  entry    : LogEntry
  route    : Route
  attempts : Nat := 0
  stage    : Call.Stage := .pausing

/-- A client's session with the cluster. -/
structure Session where
  settings : SessionSettings
  identity : Identity
  courier  : Courier
  calls    : List Call := []

namespace Session

/-- How something that a user of a session started has ended. -/
inductive Outcome where
  | returned (result : Except SessionError CommandOutput)
  | closed

/-- What one step of a call or an errand comes to. -/
abbrev Step := Progress Session Nat Outcome

/-- The call of a number. -/
def call? (s : Session) (id : Nat) : Option Call := s.calls.find? fun c => c.id = id

/-- Puts a call in place of what it was before. -/
def put (s : Session) (c : Call) : Session :=
  { s with calls := s.calls.map fun d => if d.id = c.id then c else d }

/-- Ends a call. -/
def finish (s : Session) (c : Call) (result : Except SessionError CommandOutput) : Step :=
  { state   := { s with calls := s.calls.filter fun d => d.id ≠ c.id }
    results := [(c.id, .returned result)] }

/-! ## The life of a call -/

/-- Begins an attempt: the command sets off for the leader first, then the records for the
    witnesses. -/
def startAttempt (s : Session) (c : Call) : Session :=
  let snapshot := s.courier.guess
  let witnesses := match c.route with
    | .fast       => s.settings.selection.witnesses s.courier.pool.size snapshot
    | .leaderOnly => []
  let (leader, courier) := s.courier.beginLead (.command c.entry)
  let (pending, courier) := courier.beginRecords c.entry witnesses
  let attempt : Attempt :=
    { route := c.route, snapshot, selected := witnesses.length, leader, pending }
  { s with courier }.put { c with attempts := c.attempts + 1, stage := .attempting attempt }

/-- A call goes round: it makes its next attempt, unless the session is closed. -/
def goRound (s : Session) (c : Call) : Step :=
  if s.courier.pool.closed then s.finish c (.error .sessionClosed)
  else { state := s.startAttempt c }

/-- An attempt has failed: the call ends, or pauses before the next one. -/
def conclude (s : Session) (c : Call) (error : SessionError) : Step :=
  match s.settings.retry.verdict c.attempts error with
  | some error => s.finish c (.error error)
  | none       =>
      { state   := s.put { c with stage := .pausing }
        demands := [.pause c.id s.settings.retry.backoff] }

/-- Does what was decided for a call. -/
def follow (s : Session) (c : Call) : Decision → Step
  | .commit data path => s.finish c (.ok ⟨c.entry.seq, data, path⟩)
  | .fail error       => s.conclude c error
  | .sync data        =>
      let (errand, courier) := s.courier.beginLead (.sync (some c.entry))
      { state := { s with courier }.put { c with stage := .syncing data errand } }

/-- A call's attempt has moved on: it is decided once nobody is waited for. -/
def advance (s : Session) (c : Call) (a : Attempt) : Step :=
  match a.answer, a.pending with
  | some answer, [] => s.follow c (a.decision s.courier.guess answer)
  | _, _            => { state := s.put { c with stage := .attempting a } }

/-! ## What errands come to -/

/-- The leader has answered an errand of a call. -/
def led (s : Session) (c : Call) (errand : Nat) (answer : Except SessionError Reply) : Step :=
  match c.stage with
  | .attempting a      =>
      if a.leader = errand then s.advance c { a with answer := some answer } else { state := s }
  | .syncing data id   =>
      if id = errand then
        match answer with
        | .ok _        => s.finish c (.ok ⟨c.entry.seq, data, .explicitSync⟩)
        | .error error => s.conclude c error
      else { state := s }
  | .pausing           => { state := s }

/-- A witness has answered an errand of a call, or could not be reached.  If that was the last thing
    the call waited for, it may go on. -/
def recorded (s : Session) (c : Call) (errand : Nat) (accepted : Bool) : Step :=
  match c.stage with
  | .attempting a => { state := s.put { c with stage := .attempting (a.hear errand accepted) } }
  | _             => { state := s }

/-- Whether a call waits for an errand. -/
def awaits (c : Call) (errand : Nat) : Bool :=
  match c.stage with
  | .attempting a => a.leader = errand || a.pending.contains errand
  | .syncing _ id => id = errand
  | .pausing      => false

/-- Hands what an errand came to on to the call that waits for it, if there is one. -/
def deliver (s : Session) (errand : Nat) (outcome : Errand.Outcome) : Step :=
  match outcome, s.calls.find? fun c => awaits c errand with
  | .closed, _            => { state := s, results := [(errand, .closed)] }
  | .led answer, some c   => s.led c errand answer
  | .recorded ok, some c  => s.recorded c errand ok
  | _, _                  => { state := s }

/-- Takes in what a step of an errand came to. -/
def absorb (s : Session) (p : Courier.Step) : Step :=
  p.feed (fun courier => { s with courier }) deliver

/-! ## What a user does -/

/-- Begins a call, under the next number unless one is given, and returns the call's number.  Its
    time runs from here. -/
def invoke (s : Session) (data : Bytes) (keys : List Key) (route : Route)
    (seq : Option SeqNo := none) : Nat × Step :=
  let (seq, identity) := match seq with
    | some n => (n, s.identity)
    | none   => s.identity.take
  let (id, courier) := s.courier.takeNumber
  let call : Call := { id, entry := .command data keys identity.client seq, route }
  let step := { s with identity, courier, calls := s.calls ++ [call] }.goRound call
  match step.results, s.settings.retry.deadline with
  | [], some span => (id, { step with demands := .deadline id span :: step.demands })
  | _, _          => (id, step)

/-- Closes the session, and returns the number of the errand that does it.  From here on no attempt
    begins. -/
def close (s : Session) : Nat × Session :=
  let (id, courier) := s.courier.begin (.close 0)
  (id, { s with courier })

/-! ## Signals -/

/-- A call has run out of time. -/
def expire (s : Session) (c : Call) : Step :=
  let courier := match c.stage.errand? with
    | some errand => s.courier.abandon errand
    | none        => s.courier
  { s with courier }.finish c
    (.error (.deadlineExceeded (s.settings.retry.deadline.getD 0)))

/-- Tells a call or an errand something.  What it does not wait for changes nothing. -/
def step (s : Session) (id : Nat) (signal : Signal) : Step :=
  match s.call? id with
  | none   => s.absorb (s.courier.step id signal)
  | some c =>
      match signal, c.stage with
      | .proceed, .attempting a => s.advance c a
      | .rested, .pausing       => s.goRound c
      | .expired, _             => s.expire c
      | _, _                    => { state := s }

/-- Whether a call may go on. -/
def mayProceed (c : Call) : Bool :=
  match c.stage with
  | .attempting a => a.isComplete
  | _             => false

/-- The calls and the errands that may go on. -/
def runnable (s : Session) : List Nat :=
  (s.calls.filter mayProceed).map (·.id) ++ s.courier.runnable

/-- On whose behalf an activity goes on: a call's errand to the leader is part of the call, and
    every other errand goes on by itself. -/
def owner (s : Session) (id : Nat) : Nat :=
  match s.calls.find? fun c => c.stage.errand? = some id with
  | some c => c.id
  | none   => id

/-- Whether an errand waits for a reply. -/
def isExchanging (s : Session) (id : Nat) : Bool := s.courier.isExchanging id

end Session

end WitnessReplication

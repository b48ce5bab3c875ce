import WitnessReplication.Client.Session

/-!
# Opening — how a client comes to a session

    The options are checked, a connection to every member is tried, and the first member that was
    reached is the first guess who leads.  From there the leader is looked for, and it hands out the
    client id.

* **`Opening.begin`** — checks what needs no member, and sets out.
* **`Opening.step`** — tells the errand that is under way something; the result is a session.
-/

namespace WitnessReplication

/-- What it takes to open a session. -/
structure SessionConfig where
  members : List Address
  options : SessionOptions
  deriving DecidableEq, Inhabited

namespace Opening

/-- What the errand under way is for. -/
inductive Stage where
  /-- Connections to all members are tried. -/
  | surveying
  /-- The leader is asked for a client id. -/
  | asking
  deriving DecidableEq, Inhabited

end Opening

/-- A session that is being opened. -/
structure Opening where
  settings : SessionSettings
  courier  : Courier
  stage    : Opening.Stage := .surveying

namespace Opening

/-- What one step comes to. -/
abbrev Step := Progress Opening Nat (Except SessionError Session)

/-- Sets out, unless the options make no sense or there are no members. -/
def begin (config : SessionConfig) : Except SessionError Opening :=
  match config.options.validate with
  | .error fault => .error (.illegalOptions fault.message)
  | .ok settings =>
      if config.members = [] then .error .emptyCluster
      else
        let courier : Courier :=
          { pool := .ofMembers config.members, guess := 0, backoff := settings.leaderBackoff }
        .ok { settings, courier := (courier.begin (.survey 0 [])).2 }

/-- The members that were reached decide where the leader is looked for first. -/
def surveyed (o : Opening) (errand : Nat) : List Nat → Step
  | []         => { state := o, results := [(errand, .error .noActiveServers)] }
  | guess :: _ =>
      let (_, courier) := { o.courier with guess }.beginLead .clientId
      { state := { o with courier, stage := .asking } }

/-- The leader's answer makes the session. -/
def asked (o : Opening) (errand : Nat) (answer : Except SessionError Reply) : Step :=
  { state   := o
    results := [(errand, answer.map fun reply =>
      { settings := o.settings
        identity := ⟨reply.client, ⟨o.settings.firstSeq⟩⟩
        courier  := o.courier })] }

/-- Hands on what an errand came to. -/
def deliver (o : Opening) (errand : Nat) (outcome : Errand.Outcome) : Step :=
  match outcome with
  | .surveyed reached => o.surveyed errand reached
  | .led answer       => o.asked errand answer
  | _                 => { state := o }

/-- Tells the errand under way something. -/
def step (o : Opening) (id : Nat) (signal : Signal) : Step :=
  (o.courier.step id signal).feed (fun courier => { o with courier }) deliver

/-- The errands that may go on. -/
def runnable (o : Opening) : List Nat := o.courier.runnable

/-- Whether an errand waits for a reply. -/
def isExchanging (o : Opening) (id : Nat) : Bool := o.courier.isExchanging id

end Opening

end WitnessReplication

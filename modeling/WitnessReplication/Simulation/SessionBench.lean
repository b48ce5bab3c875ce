import WitnessReplication.Kv.Client
import WitnessReplication.Simulation.Scripted
import WitnessReplication.Simulation.World

/-!
# Session bench — clients among scripted members

    Three clients of one configuration: one that opens sessions by hand, one that opens its session
    when it is needed, and one for the key-value store.  Commands go through the session in use,
    which is the one that was opened, or handed out, last.

* **`SessionBench.openSession`**, **`SessionBench.obtainSession`** — put a session into use.
* **`SessionBench.send`**, **`SessionBench.close`** — what is done with it.
* **`SessionBench.clientSend`**, **`SessionBench.store`** — commands of the other two clients.
-/

namespace WitnessReplication

/-- Three clients among scripted members, and the session in use: its client's place and its
    seat. -/
structure SessionBench where
  world : World ScriptedCluster
  inUse : Option (Nat × Nat) := none

namespace SessionBench

/-- The place of the client whose sessions are opened by hand. -/
def byHand : Nat := 0

/-- The place of the client that opens its session when it is needed. -/
def onDemand : Nat := 1

/-- The place of the client for the store. -/
def forStore : Nat := 2

/-- A bench on which nothing has happened. -/
def start (members : List ScriptedMember) (config : SessionConfig) : SessionBench :=
  { world := { network := ⟨members⟩, parties := List.replicate 3 (.client { config }) } }

/-- The client id of a session in a client's seat. -/
def clientId? (b : SessionBench) (party seat : Nat) : Option ClientId :=
  match b.world.parties[party]? with
  | some (.client c) => c.clientId? seat
  | _                => none

/-- Gives a client a job that comes to a session, and puts the session into use if there is one. -/
def use (b : SessionBench) (party : Nat) (aim : Client.Aim) :
    Option (Except SessionError ClientId) × SessionBench :=
  let (outcomes, world) := b.world.launch [{ party, aim }]
  let b := { b with world }
  match outcomes with
  | [.opened (.ok seat)]  =>
      ((b.clientId? party seat).map .ok, { b with inUse := some (party, seat) })
  | [.opened (.error e)]  => (some (.error e), b)
  | _                     => (none, b)

/-- Opens a session by hand and puts it into use. -/
def openSession (b : SessionBench) : Option (Except SessionError ClientId) × SessionBench :=
  b.use byHand .openNew

/-- Puts the session of the other client into use. -/
def obtainSession (b : SessionBench) : Option (Except SessionError ClientId) × SessionBench :=
  b.use onDemand .obtain

/-- What came of a command. -/
def sent? : Client.Outcome → Option (Except SessionError CommandOutput)
  | .sent result => some result
  | _            => none

/-- Commits commands through the session in use, each after some time in nanoseconds; `none` if no
    session is in use. -/
def send (b : SessionBench) (commands : List (Submission × Nat)) :
    Option (List (Except SessionError CommandOutput)) × SessionBench :=
  match b.inUse with
  | none               => (none, b)
  | some (party, seat) =>
      let (outcomes, world) := b.world.launch
        (commands.map fun (command, delay) => { party, aim := .sendAt seat command, delay })
      (some (outcomes.filterMap sent?), { b with world })

/-- Closes the session in use, if there is one. -/
def close (b : SessionBench) : SessionBench :=
  match b.inUse with
  | none               => b
  | some (party, seat) => { b with world := (b.world.launch [{ party, aim := .closeAt seat }]).2 }

/-- Destroys a client's kept session. -/
def destroy (b : SessionBench) (party : Nat) : SessionBench :=
  { b with world := (b.world.launch [{ party, aim := .destroy }]).2 }

/-- Commits a command through the session of a client that opens it when it is needed. -/
def sendKept (b : SessionBench) (party : Nat) (command : Submission) :
    Option (Except SessionError CommandOutput) × SessionBench :=
  let (outcomes, world) := b.world.launch [{ party, aim := .send command }]
  ((outcomes.filterMap sent?).head?, { b with world })

/-- Commits a command through the second client. -/
def clientSend (b : SessionBench) (command : Submission) :
    Option (Except SessionError CommandOutput) × SessionBench := b.sendKept onDemand command

/-- Commits a command for the store through the third client. -/
def store (b : SessionBench) (command : Kv.Command) (seq : Option SeqNo) :
    Option (Except Kv.Error Kv.Answer) × SessionBench :=
  let (result, b) := b.sendKept forStore (command.submission seq)
  (result.map command.answer, b)

/-- Changes the members, while time stands still. -/
def direct (b : SessionBench) (f : ScriptedCluster → ScriptedCluster) : SessionBench :=
  { b with world := { b.world with network := f b.world.network } }

end SessionBench

end WitnessReplication

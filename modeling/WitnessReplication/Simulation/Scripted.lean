import WitnessReplication.Simulation.Network
import WitnessReplication.Text.Duration

/-!
# Scripted members — members that do as they are told

    A scripted member holds no replica: its behaviour says how it answers.  The behaviour can be
    changed at any time, and a script changes it for one exchange after the other.  Each member
    keeps a journal of the connections and the exchanges that came to an end.

* **`Behaviour`** and **`Change`** — how a member answers, and what of it is different.
* **`Behaviour.reply`** — the answer to a request.
* **`Request.journalText`** — what is written about an exchange.
* The **`Network`** instance — scripted members as a network.
-/

namespace WitnessReplication

/-- How an exchange with a member that is up goes. -/
inductive Fate where
  | answered
  | reset
  | refused
  | garbled
  deriving DecidableEq, Inhabited

/-- How a scripted member answers. -/
structure Behaviour where
  up      : Bool := true
  fate    : Fate := .answered
  leader  : Bool := false
  hint    : Option Address := none
  client  : ClientId := ⟨42⟩
  synced  : Bool := false
  /-- Whether a record under the member's term is accepted. -/
  records : Bool := true
  term    : Term := ⟨0⟩
  /-- Whether a sync is accepted, if the member leads. -/
  syncs   : Bool := true
  /-- The answer to commands; without it the answer names the command. -/
  data    : Option Bytes := none
  /-- How long an exchange takes, in nanoseconds. -/
  latency : Nat := Duration.ofMillis 1
  deriving DecidableEq, Inhabited

/-- What is different in a behaviour. -/
structure Change where
  up      : Option Bool := none
  fate    : Option Fate := none
  leader  : Option Bool := none
  hint    : Option (Option Address) := none
  client  : Option ClientId := none
  synced  : Option Bool := none
  records : Option Bool := none
  term    : Option Term := none
  syncs   : Option Bool := none
  data    : Option (Option Bytes) := none
  latency : Option Nat := none
  deriving DecidableEq, Inhabited

namespace Behaviour

/-- The behaviour with something different. -/
def change (b : Behaviour) (c : Change) : Behaviour where
  up      := c.up.getD b.up
  fate    := c.fate.getD b.fate
  leader  := c.leader.getD b.leader
  hint    := c.hint.getD b.hint
  client  := c.client.getD b.client
  synced  := c.synced.getD b.synced
  records := c.records.getD b.records
  term    := c.term.getD b.term
  syncs   := c.syncs.getD b.syncs
  data    := c.data.getD b.data
  latency := c.latency.getD b.latency

/-- The answer to a request. -/
def reply (b : Behaviour) : Request → Reply
  | .clientId     => .clientId ⟨b.leader, if b.leader then b.client else ⟨0⟩, b.hint⟩
  | .command e    =>
      .command ⟨b.leader, b.hint, b.data.getD (Bytes.ofText s!"resp-{e.seq.val.toNat}"), b.synced⟩
  | .record _ t   => .record ⟨b.records && t = b.term, b.term⟩
  | .sync _       => .sync ⟨b.leader && b.syncs, b.hint, Bytes.ofText "sync"⟩
  | .recoveryData => .recoveryData []
  | .unfreeze     => .unfreeze
  | .witnessGc _  => .witnessGc 0

end Behaviour

/-! ## Journal lines -/

/-- An entry in a journal: its name, its payload and its keys. -/
def LogEntry.journalText (e : LogEntry) : String :=
  s!"{e.client.val.toNat}/{e.seq.val.toNat} " ++ Bytes.hex e.data ++
    "[" ++ ",".intercalate (e.keys.map fun k => Bytes.hex k.bytes) ++ "]"

/-- A request in a journal. -/
def Request.journalText : Request → String
  | .clientId       => "client_id"
  | .command e      => "client_request " ++ e.journalText
  | .record e t     => "record " ++ e.journalText ++ s!" term {t.val.toNat}"
  | .sync (some e)  => "sync " ++ e.journalText
  | .sync none      => "sync -"
  | .recoveryData   => "recovery_data"
  | .unfreeze       => "unfreeze"
  | .witnessGc ids  =>
      "witness_gc [" ++
        ",".intercalate (ids.map fun i => s!"[{i.client.val.toNat},{i.seq.val.toNat}]") ++ "]"

/-! ## Members -/

/-- A scripted member. -/
structure ScriptedMember where
  address   : Address
  behaviour : Behaviour := {}
  /-- What is different in the exchanges to come, one change for each. -/
  script    : List Change := []
  /-- What came to an end, the oldest first. -/
  journal   : List String := []
  deriving DecidableEq, Inhabited

namespace ScriptedMember

/-- Writes a line into the journal. -/
def note (m : ScriptedMember) (line : String) : ScriptedMember :=
  { m with journal := m.journal ++ [line] }

/-- Answers an attempt to connect. -/
def connect (m : ScriptedMember) : Except TransportError Unit × ScriptedMember :=
  if m.behaviour.up then (.ok (), m.note "connect")
  else (.error ⟨.connect, m.address.text ++ " is down"⟩, m.note "connect!down")

/-- What an exchange comes to under a behaviour, and the mark that is put on its line. -/
def outcome (m : ScriptedMember) (b : Behaviour) (r : Request) :
    Except TransportError Reply × String :=
  if !b.up then (.error ⟨.send, "connection reset"⟩, "!reset")
  else match b.fate with
    | .answered => (.ok (b.reply r), "")
    | .reset    => (.error ⟨.send, "connection reset"⟩, "!reset")
    | .refused  => (.error ⟨.connect, m.address.text ++ " refused"⟩, "!refused")
    | .garbled  => (.error ⟨.malformed, "garbage on the wire"⟩, "!malformed")

/-- Takes the next item off the script; returns it with the time that the exchange takes. -/
def dispatch (m : ScriptedMember) : (Nat × Option Change) × ScriptedMember :=
  match m.script with
  | []     => ((m.behaviour.latency, none), m)
  | c :: r => ((c.latency.getD m.behaviour.latency, some c), { m with script := r })

/-- Answers an exchange as the behaviour is now, but for what the script made different. -/
def deliver (m : ScriptedMember) (r : Request) (c : Option Change) :
    Except TransportError Reply × ScriptedMember :=
  let b := match c with
    | some c => m.behaviour.change c
    | none   => m.behaviour
  let (answer, mark) := m.outcome b r
  (answer, m.note (r.journalText ++ mark))

end ScriptedMember

/-- Members that do as they are told.  Of two with the same address the first is meant. -/
structure ScriptedCluster where
  members : List ScriptedMember
  deriving DecidableEq, Inhabited

namespace ScriptedCluster

/-- The place of a member. -/
def find? (c : ScriptedCluster) (a : Address) : Option Nat :=
  c.members.findIdx? fun m => m.address = a

/-- Changes the behaviour of a member. -/
def change (c : ScriptedCluster) (i : Nat) (d : Change) : ScriptedCluster :=
  ⟨c.members.modify i fun m => { m with behaviour := m.behaviour.change d }⟩

/-- Changes the behaviour of every member. -/
def changeAll (c : ScriptedCluster) (d : Change) : ScriptedCluster :=
  ⟨c.members.map fun m => { m with behaviour := m.behaviour.change d }⟩

/-- Puts items at the end of a member's script. -/
def extend (c : ScriptedCluster) (i : Nat) (items : List Change) : ScriptedCluster :=
  ⟨c.members.modify i fun m => { m with script := m.script ++ items }⟩

/-- Takes out the journals. -/
def takeJournals (c : ScriptedCluster) : List (List String) × ScriptedCluster :=
  (c.members.map (·.journal), ⟨c.members.map fun m => { m with journal := [] }⟩)

/-- What is said of an address that nobody has. -/
def unknown (a : Address) : TransportError := ⟨.connect, "unknown member " ++ a.text⟩

/-- Does something at the member with an address. -/
def visit {α : Type} (c : ScriptedCluster) (a : Address) (otherwise : α)
    (f : ScriptedMember → α × ScriptedMember) : α × ScriptedCluster :=
  match c.find? a with
  | none   => (otherwise, c)
  | some i =>
      match c.members[i]? with
      | none   => (otherwise, c)
      | some m =>
          let (r, m) := f m
          (r, ⟨c.members.set i m⟩)

instance : Network ScriptedCluster where
  Flight            := Option Change
  connect c a       := c.visit a (.error (unknown a)) (·.connect)
  dispatch c a _    := c.visit a (0, none) (·.dispatch)
  deliver c _ a r d :=
    let (answer, c) := c.visit a (.error (unknown a)) (·.deliver r d)
    ((answer, []), c)

end ScriptedCluster

end WitnessReplication

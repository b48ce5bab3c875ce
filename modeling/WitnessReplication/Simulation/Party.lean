import WitnessReplication.Client
import WitnessReplication.Forwarder
import WitnessReplication.Simulation.Probe

/-!
# Parties — who takes part in a simulation

    Clients, couriers, forwarders and probes are all made of activities that go on in steps.  A
    party is any of them, so that a simulation need not tell them apart.

* **`Party.step`** — tells an activity of a party something.
* **`Party.runnable`** — the activities that may go on.
-/

namespace WitnessReplication

/-- Who takes part in a simulation. -/
inductive Party where
  | client (c : Client)
  | courier (c : Courier)
  | forwarder (f : Forwarder)
  | probe (p : Probe)

namespace Party

/-- An activity of a party. -/
inductive Activity where
  | inClient (who : Client.Activity)
  | errand (id : Nat)
  /-- The activity of a party that has only one. -/
  | only
  deriving DecidableEq, Inhabited

/-- What an activity came to. -/
inductive Result where
  | job (outcome : Client.Outcome)
  | errand (outcome : Errand.Outcome)
  | answer (outcome : Except TransportError Reply)

/-- What one step comes to. -/
abbrev Step := Progress Party Activity Result

/-- A step of one kind of party as a step of a party. -/
def lift {α ι ρ : Type} (p : Progress α ι ρ) (party : α → Party) (who : ι → Activity)
    (result : ρ → Result) : Step :=
  { state   := party p.state
    demands := p.demands.map (·.rename who)
    results := p.results.map fun (i, r) => (who i, result r) }

/-- Tells an activity of a party something. -/
def step (p : Party) (who : Activity) (signal : Signal) : Step :=
  match p, who with
  | .client c, .inClient a => lift (c.step a signal) .client .inClient .job
  | .courier c, .errand id => lift (c.step id signal) .courier .errand .errand
  | .forwarder f, .only    => lift (f.step signal) .forwarder (fun _ => .only) nofun
  | .probe p, .only        => lift (p.step signal) .probe (fun _ => .only) .answer
  | p, _                   => { state := p }

/-- The activities that may go on. -/
def runnable : Party → List Activity
  | .client c    => c.runnable.map .inClient
  | .courier c   => c.runnable.map .errand
  | .forwarder f => if f.mayProceed then [.only] else []
  | .probe p     => if p.mayProceed then [.only] else []

/-- Whether an activity waits for a reply. -/
def isExchanging (p : Party) (who : Activity) : Bool :=
  match p, who with
  | .client c, .inClient a => c.isExchanging a
  | .courier c, .errand id => c.isExchanging id
  | .forwarder f, .only    => f.isExchanging
  | .probe p, .only        => p.isExchanging
  | _, _                   => false

/-- On whose behalf an activity goes on. -/
def owner (p : Party) (who : Activity) : Activity :=
  match p, who with
  | .client c, .inClient a => .inClient (c.owner a)
  | _, who                 => who

/-- Whether somebody outside waits for an activity: for a job, or for what a probe was asked. -/
def isAwaited (p : Party) (who : Activity) : Bool :=
  match p, p.owner who with
  | .client _, .inClient (.job _) => true
  | .probe _, _                   => true
  | _, _                          => false

/-- Drops a batch into a forwarder's mailbox. -/
def post (p : Party) (batch : List RequestId) : Party :=
  match p with
  | .forwarder f => .forwarder (f.post batch)
  | p            => p

end Party

end WitnessReplication

import WitnessReplication.Simulation.Network
import WitnessReplication.Simulation.Party

/-!
# World — parties on a network, in virtual time

    Time stands still while anybody can go on, and jumps to the next moment at which something falls
    due otherwise.  Whoever can go on waits in one line.  An activity, with everything that goes on
    on its behalf, goes on until it has to wait for time or for others; a connection is there, or
    not, at once.

    Somebody outside starts some activities and waits for them.  They go first of all when they are
    started, and of all that falls due at one moment.  Once somebody else lets one of them go on, it
    does when nobody else can.  And when its time is up at the very moment at which something else
    happens to it, that comes first, so that an answer that is just in time counts.

* **`World.tell`** — one step of an activity.
* **`World.tick`** — whatever happens next, if anything does.
* **`World.advance`** — everything before a moment.
* **`World.await`** — whatever happens until some activities have ended.
* **`World.launch`** — jobs for clients, each after some time, and how they ended.
-/

namespace WitnessReplication

/-- An activity, by the place of its party. -/
structure Task where
  party : Nat
  who   : Party.Activity
  deriving DecidableEq, Inhabited

/-- What an activity is told, or what decides it. -/
inductive Cue (φ : Type) where
  | signal (s : Signal)
  /-- An exchange arrives. -/
  | arrival (target : Address) (request : Request) (flight : φ)

/-- Whether the cue is that an activity's time is up. -/
def Cue.isExpiry {φ : Type} : Cue φ → Bool
  | .signal .expired => true
  | _                => false

/-- Whether the cue is that an activity may go on. -/
def Cue.isProceed {φ : Type} : Cue φ → Bool
  | .signal .proceed => true
  | _                => false

/-- What falls due for an activity at a moment. -/
structure Timer (φ : Type) where
  due  : Nat
  task : Task
  cue  : Cue φ

/-- Parties on a network at a moment, in nanoseconds. -/
structure World (ν : Type) [Network ν] where
  network : ν
  parties : List Party
  now     : Nat := 0
  /-- Who goes on next, and what they are told. -/
  ready   : List (Task × Cue (Network.Flight ν)) := []
  /-- Who goes on once nobody is ready. -/
  late    : List (Task × Cue (Network.Flight ν)) := []
  /-- What falls due, the earliest first. -/
  timers  : List (Timer (Network.Flight ν)) := []
  /-- How activities ended that nobody has asked about yet. -/
  results : List (Task × Party.Result) := []

/-- How many things may happen before a simulation is given up. -/
def World.patience : Nat := 10000000

namespace World

variable {ν : Type} [Network ν]

/-- On whose behalf an activity goes on. -/
def owner (w : World ν) (t : Task) : Task :=
  match w.parties[t.party]? with
  | some p => ⟨t.party, p.owner t.who⟩
  | none   => t

/-- Whether somebody outside waits for an activity. -/
def isAwaited (w : World ν) (t : Task) : Bool :=
  w.parties[t.party]?.any fun p => p.isAwaited t.who

/-- Whether an activity has been told to go on and has not done so. -/
def isQueued (w : World ν) (t : Task) : Bool :=
  (w.ready ++ w.late).any fun (u, c) => u = t && c.isProceed

/-- Puts everybody of a party who may go on into the line, unless they are in it; in front of it
    those for whom `first` holds. -/
def wake (w : World ν) (i : Nat) (first : Task → Bool) : World ν :=
  match w.parties[i]? with
  | none   => w
  | some p =>
      let tasks := (p.runnable.map (Task.mk i)).filter fun t => !w.isQueued t
      let (own, others) := tasks.partition first
      let (late, soon) := others.partition w.isAwaited
      let cue (t : Task) : Task × Cue (Network.Flight ν) := (t, .signal .proceed)
      { w with ready := own.map cue ++ w.ready ++ soon.map cue, late := w.late ++ late.map cue }

/-- Changes a party from outside, and wakes whoever of it may go on now. -/
def modify (w : World ν) (i : Nat) (f : Party → Party) (first : Bool := false) : World ν :=
  { w with parties := w.parties.modify i f }.wake i fun _ => first

/-- Sees to it that something falls due; what is due already does so at once. -/
def setTimer (w : World ν) (t : Timer (Network.Flight ν)) : World ν :=
  if t.due ≤ w.now then { w with ready := (t.task, t.cue) :: w.ready }
  else
    { w with timers := w.timers.takeWhile (fun u => u.due ≤ t.due) ++
                         t :: w.timers.dropWhile (fun u => u.due ≤ t.due) }

/-- Sees to it that an activity gets what it waits for. -/
def arrange (i : Nat) (w : World ν) : Demand Party.Activity → World ν
  | .connect who target          =>
      let (outcome, network) := Network.connect w.network target
      { w with network, ready := (⟨i, who⟩, .signal (.connected outcome)) :: w.ready }
  | .exchange who target request =>
      let ((latency, flight), network) := Network.dispatch w.network target request
      { w with network }.setTimer ⟨w.now + latency, ⟨i, who⟩, .arrival target request flight⟩
  | .pause who span              => w.setTimer ⟨w.now + span, ⟨i, who⟩, .signal .rested⟩
  | .deadline who span           => w.setTimer ⟨w.now + span, ⟨i, who⟩, .signal .expired⟩

/-- One step of an activity. -/
def tell (w : World ν) (t : Task) (signal : Signal) : World ν :=
  match w.parties[t.party]? with
  | none   => w
  | some p =>
      let behalf := w.owner t
      let r := p.step t.who signal
      let w := { w with
        parties := w.parties.set t.party r.state
        results := w.results ++ r.results.map fun (who, result) => (⟨t.party, who⟩, result) }
      (r.demands.foldl (arrange t.party) w).wake t.party fun u => w.owner u = behalf

/-- Drops batches into the mailboxes of forwarders, each under its party's place. -/
def post (w : World ν) (batches : List (Nat × List RequestId)) : World ν :=
  batches.foldl (fun w (i, batch) => w.modify i fun p => p.post batch) w

/-- Whether an activity waits for a reply. -/
def isExchanging (w : World ν) (t : Task) : Bool :=
  w.parties[t.party]?.any fun p => p.isExchanging t.who

/-- An activity gets its cue.  An exchange that nobody waits for any more does not arrive. -/
def follow (w : World ν) (t : Task) : Cue (Network.Flight ν) → World ν
  | .signal s => w.tell t s
  | .arrival target request flight =>
      if w.isExchanging t then
        let ((answer, batches), network) := Network.deliver w.network w.now target request flight
        ({ w with network }.tell t (.answered answer)).post batches
      else w

/-- The line with everything in front that is for one activity or on its behalf; that its time is up
    comes last of that. -/
def gather (w : World ν) (behalf : Task) (line : List (Task × Cue (Network.Flight ν))) :
    List (Task × Cue (Network.Flight ν)) :=
  let (own, others) := line.partition fun (t, _) => w.owner t = behalf
  let (ends, rest) := own.partition fun (_, c) => c.isExpiry
  rest ++ ends ++ others

/-- Everything that falls due next falls due, all at once; what somebody outside waits for goes
    first. -/
def strike (w : World ν) : Option (World ν) :=
  match w.timers with
  | []     => none
  | t :: _ =>
      let due := (w.timers.takeWhile fun u => u.due ≤ t.due).map fun u => (u.task, u.cue)
      let (first, rest) := due.partition fun (t, _) => w.isAwaited t
      some { w with
        now    := max w.now t.due
        timers := w.timers.dropWhile fun u => u.due ≤ t.due
        ready  := first ++ w.ready ++ rest }

/-- Whatever happens next, if anything does. -/
def tick (w : World ν) : Option (World ν) :=
  match w.ready, w.late with
  | (t, c) :: r, _ =>
      match w.gather (w.owner t) ((t, c) :: r) with
      | []          => none
      | (t, c) :: r => some ({ w with ready := r }.follow t c)
  | [], _ :: _     => some { w with ready := w.late, late := [] }
  | [], []         => w.strike

/-- Whatever happens until something holds, at most `n` things. -/
def runUntil (stop : World ν → Bool) : Nat → World ν → World ν
  | 0, w     => w
  | n + 1, w =>
      if stop w then w
      else match w.tick with
        | some w' => runUntil stop n w'
        | none    => w

/-- Whether nobody can go on and nothing falls due before a moment. -/
def isQuietBefore (moment : Nat) (w : World ν) : Bool :=
  w.ready.isEmpty && w.late.isEmpty && w.timers.head?.all fun t => moment ≤ t.due

/-- Everything before a moment, which then comes: what falls due at it does so, and whoever waited
    for the moment goes first. -/
def advance (w : World ν) (moment : Nat) : World ν :=
  let w := w.runUntil (isQuietBefore moment) patience
  let w := if w.timers.head?.any fun t => t.due ≤ moment then w.strike.getD w else w
  { w with now := max w.now moment }

/-- Everything for some time, in nanoseconds; nothing at all for no time. -/
def sleep (w : World ν) (span : Nat) : World ν :=
  if span = 0 then w else w.advance (w.now + span)

/-- How an activity ended, if it did. -/
def result? (w : World ν) (t : Task) : Option Party.Result :=
  (w.results.find? fun (u, _) => u = t).map (·.2)

/-- Whatever happens until some activities have ended; returns how they did, in their order. -/
def await (w : World ν) (tasks : List Task) : List Party.Result × World ν :=
  let w := w.runUntil (fun w => tasks.all fun t => (w.result? t).isSome) patience
  (tasks.filterMap w.result?, { w with results := [] })

/-! ## Jobs for clients -/

/-- A job for a client that is a party, to be begun after some time in nanoseconds. -/
structure Launch where
  party : Nat
  aim   : Client.Aim
  delay : Nat := 0

/-- Gives a client a job; there is no task if there is no such client. -/
def start (w : World ν) (l : Launch) : Option Task × World ν :=
  match w.parties[l.party]? with
  | some (.client c) =>
      let (id, c) := c.start l.aim l.delay
      (some ⟨l.party, .inClient (.job id)⟩, { w with parties := w.parties.set l.party (.client c) })
  | _                => (none, w)

/-- Gives clients jobs. -/
def startAll (w : World ν) : List Launch → List Task × World ν
  | []     => ([], w)
  | l :: r =>
      let (t, w) := w.start l
      let (ts, w) := w.startAll r
      (t.toList ++ ts, w)

/-- The outcome of a job. -/
def jobOutcome? : Party.Result → Option Client.Outcome
  | .job outcome => some outcome
  | _            => none

/-- Gives clients jobs and waits until all have ended; returns how they did, in the order of the
    list. -/
def launch (w : World ν) (ls : List Launch) : List Client.Outcome × World ν :=
  let (tasks, w) := w.startAll ls
  let w := { w with ready := tasks.map (fun t => (t, Cue.signal .proceed)) ++ w.ready }
  let (results, w) := w.await tasks
  (results.filterMap jobOutcome?, w)

end World

end WitnessReplication

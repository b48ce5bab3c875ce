import WitnessReplication.Client
import WitnessReplication.Proofs.OpeningRuns
import WitnessReplication.Proofs.TakenNumbers

/-!
# Client runs — what a client's jobs come to at its sessions

    A client is driven from outside as a session is: it is given jobs, and whatever a job, an
    opening or a session waits for is told to it.  A run is any list of such inputs, so every
    interleaving of any number of jobs, at every point at which one of them waits, is a run.

    Each input reaches one session at most, and does there what an input of the session does.  It
    may be the very input that opens the session, when the job that has waited for it goes on at
    once.  Read seat by seat, a run of a client is therefore a run of each of its sessions, from the
    moment at which it was opened.

* **`Client.react`** and **`Client.run`** — one input; a list of them.
* **`Client.touch?`** — what an input comes to at a session.
* **`Client.Seats`** and **`react_seats`** — what an input does to the seats.
* **`Client.grant?`** — the client id that an opening is given.
* **`Client.Holds`** and **`Fate.holds`** — what is in a seat, and what it was given.
-/

namespace WitnessReplication

namespace Opening

/-- A step of an opening comes to one result at most. -/
theorem step_results {o : Opening} (h : o.InOrder) (id : Nat) (sig : Signal) :
    (o.step id sig).results = [] ∨ ∃ who result, (o.step id sig).results = [(who, result)] := by
  unfold step
  rcases Courier.step_advances h.courier.placed id sig with ⟨_, hidle⟩ | ⟨e, _, rfl, hadv⟩
  · exact .inl (by rw [hidle]; rfl)
  · cases hadv.turns with
    | rests _ results          => exact .inl (by rw [Progress.feed_of_nil results])
    | moves _ _ _ _ _ results  => exact .inl (by rw [Progress.feed_of_nil results])
    | ends outcome _ _ results =>
        rw [(Progress.feed_of_singleton (β := Opening) results).2]
        unfold deliver
        split
        · unfold surveyed
          split
          · exact .inr ⟨_, _, rfl⟩
          · exact .inl rfl
        · exact .inr ⟨_, _, rfl⟩
        · exact .inl rfl

theorem deliver_settings (o : Opening) (errand : Nat) (outcome : Errand.Outcome) :
    (o.deliver errand outcome).state.settings = o.settings := by
  unfold deliver
  split
  · unfold surveyed
    split <;> rfl
  · rfl
  · rfl

theorem step_settings (o : Opening) (id : Nat) (sig : Signal) :
    (o.step id sig).state.settings = o.settings :=
  Progress.feed_kept (P := fun p : Opening => p.settings = o.settings) rfl
    fun p errand outcome hp => (deliver_settings p errand outcome).trans hp

theorem run_settings (o : Opening) (told : List (Nat × Signal)) :
    (o.run told).settings = o.settings := by
  induction told generalizing o with
  | nil          => rfl
  | cons t told ih => exact (ih _).trans (step_settings o t.1 t.2)

theorem run_append (o : Opening) (told more : List (Nat × Signal)) :
    o.run (told ++ more) = (o.run told).run more := by
  induction told generalizing o with
  | nil          => rfl
  | cons t told ih => exact ih _

/-- The first number is the one that the options name, or zero. -/
theorem begin_firstSeq {config : SessionConfig} {o : Opening} (h : begin config = .ok o) :
    o.settings.firstSeq = config.options.firstSeq.getD 0 := by
  unfold begin at h
  split at h
  · cases h
  · rename_i settings hvalid
    split at h
    · cases h
    · obtain rfl := Except.ok.inj h
      unfold SessionOptions.validate at hvalid
      dsimp only at hvalid
      split at hvalid
      · cases hvalid
      split at hvalid
      · cases hvalid
      split at hvalid
      · cases hvalid
      split at hvalid
      · cases hvalid
      · rw [← Except.ok.inj hvalid]

/-- A session has its client id from a reply that this very input is. -/
theorem opened_by {o : Opening} (h : o.InOrder) {id who : Nat} {sig : Signal} {s : Session}
    (hmem : (who, .ok s) ∈ (o.step id sig).results) :
    ∃ reply, sig = .answered (.ok reply) ∧ reply.accepted = true ∧ o.isExchanging id = true ∧
      s.identity = ⟨reply.client, ⟨o.settings.firstSeq⟩⟩ := by
  unfold step at hmem
  rcases Courier.step_advances h.courier.placed id sig with ⟨_, hidle⟩ | ⟨e, hf, rfl, hadv⟩
  · rw [hidle] at hmem
    exact nomatch hmem
  · cases hadv.turns with
    | rests _ results                  =>
        rw [Progress.feed_of_nil results] at hmem
        exact nomatch hmem
    | moves _ _ _ _ _ results          =>
        rw [Progress.feed_of_nil results] at hmem
        exact nomatch hmem
    | ends outcome warranted _ results =>
        rw [(Progress.feed_of_singleton (β := Opening) results).2] at hmem
        cases outcome with
        | surveyed reached =>
            cases reached with
            | nil      => exact nomatch congrArg Prod.snd (List.mem_singleton.1 hmem)
            | cons _ _ => exact nomatch hmem
        | led answer       =>
            have hsession := congrArg Prod.snd (List.mem_singleton.1 hmem)
            cases answer with
            | error error => exact nomatch hsession
            | ok reply    =>
                obtain ⟨haccepted, m, hstage, rfl⟩ := warranted.2 reply rfl
                refine ⟨reply, rfl, haccepted, ?_, by rw [Except.ok.inj hsession]⟩
                obtain ⟨eid, aim, stage⟩ := e
                obtain rfl : stage = .exchanging m := hstage
                simp only [isExchanging, Courier.isExchanging, hf]
        | replied _ | recorded _ | closed => exact nomatch hmem

end Opening

/-- The input of a session that hands it a command. -/
def Submission.input (m : Submission) : Session.Input := .invoke m.data m.keys m.route m.seq

namespace Client

-- ── Runs ─────────────────────────────────────────────────────────────────────────────────────────

/-- A client as it begins: without sessions and without jobs. -/
def new (config : SessionConfig) : Client := { config }

/-- What can happen to a client. -/
inductive Input where
  /-- It is given a job. -/
  | start (aim : Aim) (delay : Nat)
  /-- A job, or an activity of what is in a seat, is told something. -/
  | tell (who : Activity) (signal : Signal)

/-- What a client does when something happens to it. -/
def react (c : Client) : Input → Step
  | .start aim delay => { state := (c.start aim delay).2 }
  | .tell who signal => c.step who signal

/-- A client, after some inputs. -/
def run (c : Client) : List Input → Client
  | []        => c
  | x :: rest => (c.react x).state.run rest

theorem run_append (c : Client) (xs ys : List Input) : c.run (xs ++ ys) = (c.run xs).run ys := by
  induction xs generalizing c with
  | nil          => rfl
  | cons x xs ih => exact ih _

-- ── What reaches a session ───────────────────────────────────────────────────────────────────────

/-- What comes to a session: the seat that it is in, the session as it is then, and the input. -/
structure Touch where
  seat    : Nat
  session : Session
  input   : Session.Input

/-- An input comes to the session in a seat, if there is one. -/
def touchAt? (seats : List Seat) (i : Nat) (y : Session.Input) : Option Touch :=
  match seats[i]? with
  | some (.taken s) => some ⟨i, s, y⟩
  | _               => none

/-- What a job does at the kept session. -/
def keptTouch? (c : Client) (j : Job) : Option Touch :=
  match j.aim, c.kept with
  | .destroy, some i => touchAt? c.seats i .close
  | .send m, some i  => touchAt? c.seats i m.input
  | _, _             => none

/-- A job does so only when it is its turn. -/
def turnTouch? (c : Client) (j : Job) : Option Touch :=
  if c.lock.holds j.id then c.keptTouch? j else none

/-- What a job does that begins. -/
def beginTouch? (c : Client) (j : Job) : Option Touch :=
  match j.aim with
  | .sendAt i m => touchAt? c.seats i m.input
  | .closeAt i  => touchAt? c.seats i .close
  | .openNew    => none
  | _           => { c with lock := c.lock.join j.id }.turnTouch? j

/-- What a job does that is told something. -/
def jobTouch? (c : Client) (j : Job) : Signal → Option Touch
  | .proceed =>
      match j.stage with
      | .ready      => if j.delay = 0 then c.beginTouch? j else none
      | .awaitsLock => c.turnTouch? j
      | _           => none
  | .rested  =>
      match j.stage with
      | .delayed => c.beginTouch? j
      | _        => none
  | _        => none

/-- What the job does that has waited for the session in a seat, when the opening is over. -/
def openTouch? (c : Client) (i : Nat) : Except SessionError Session → Option Touch
  | .error _ => none
  | .ok s    =>
      match c.jobs.find? fun j => j.stage = .opening i with
      | some ⟨_, .send m, _, _⟩ => some ⟨i, s, m.input⟩
      | _                       => none

/-- What an activity comes to of what is in a seat. -/
def seatTouch? (c : Client) (i id : Nat) (sig : Signal) : Option Touch :=
  match c.seats[i]? with
  | some (.taken s)   => some ⟨i, s, .signal id sig⟩
  | some (.opening o) => (o.step id sig).results.head?.bind fun r => c.openTouch? i r.2
  | _                 => none

/-- What an input comes to at a session. -/
def touch? (c : Client) : Input → Option Touch
  | .start _ _               => none
  | .tell (.job id) sig      => (c.find? id).bind fun j => c.jobTouch? j sig
  | .tell (.inSeat i id) sig => c.seatTouch? i id sig

-- ── What an input does to the seats ──────────────────────────────────────────────────────────────

/-- What an input does to the seats of a client, and what comes to a session. -/
inductive Seats (config : SessionConfig) (seats : List Seat) (x : Input) (seats' : List Seat) :
    Option Touch → Prop where
  | rests (same : seats' = seats) : Seats config seats x seats' none
  /-- Something is to be opened in a new seat. -/
  | begins (o : Opening) (begun : Opening.begin config = .ok o)
      (grown : seats' = seats ++ [.opening o]) : Seats config seats x seats' none
  | asks (i id : Nat) (sig : Signal) (o : Opening) (seat : seats[i]? = some (.opening o))
      (set : seats' = seats.set i (.opening (o.step id sig).state)) :
      Seats config seats x seats' none
  | fails (i : Nat) (o : Opening) (seat : seats[i]? = some (.opening o))
      (set : seats' = seats.set i .failed) : Seats config seats x seats' none
  /-- A session is open, and the job that has waited for it has no command. -/
  | opens (i id who : Nat) (sig : Signal) (o : Opening) (s : Session)
      (input : x = .tell (.inSeat i id) sig) (seat : seats[i]? = some (.opening o))
      (result : (who, .ok s) ∈ (o.step id sig).results) (set : seats' = seats.set i (.taken s)) :
      Seats config seats x seats' none
  /-- A session is open, and is given a command at once. -/
  | opensWith (i id who : Nat) (sig : Signal) (o : Opening) (s : Session) (y : Session.Input)
      (input : x = .tell (.inSeat i id) sig) (seat : seats[i]? = some (.opening o))
      (result : (who, .ok s) ∈ (o.step id sig).results)
      (set : seats' = seats.set i (.taken (s.react y).state)) :
      Seats config seats x seats' (some ⟨i, s, y⟩)
  | reaches (i : Nat) (s : Session) (y : Session.Input) (seat : seats[i]? = some (.taken s))
      (set : seats' = seats.set i (.taken (s.react y).state)) :
      Seats config seats x seats' (some ⟨i, s, y⟩)

variable {c d : Client} {j : Job} {x : Input}

/-- What a session comes to concerns its own seat, and jobs. -/
theorem absorb_seats (i : Nat) (p : Session.Step) :
    (c.absorb i p).state.seats = c.seats.set i (.taken p.state) := by
  unfold absorb
  refine Progress.feed_kept (P := fun d : Client => d.seats = c.seats.set i (.taken p.state)) rfl
    fun d _ result hd => ?_
  show (deliver i d result.1 result.2).state.seats = _
  unfold deliver
  split
  · exact hd
  · split <;> exact hd

theorem sendAt_seats (c : Client) (j : Job) (i : Nat) (m : Submission) :
    Seats c.config c.seats x (c.sendAt j i m).state.seats (touchAt? c.seats i m.input) := by
  unfold sendAt touchAt?
  cases hseat : c.seats[i]? with
  | none      => exact .rests rfl
  | some seat =>
      cases seat with
      | opening o => exact .rests rfl
      | failed    => exact .rests rfl
      | taken s   => exact .reaches i s m.input hseat (absorb_seats i _)

theorem closeAt_seats (c : Client) (j : Job) (i : Nat) :
    Seats c.config c.seats x (c.closeAt j i).state.seats (touchAt? c.seats i .close) := by
  unfold closeAt touchAt?
  cases hseat : c.seats[i]? with
  | none      => exact .rests rfl
  | some seat =>
      cases seat with
      | opening o => exact .rests rfl
      | failed    => exact .rests rfl
      | taken s   => exact .reaches i s .close hseat rfl

theorem miss_seats (c : Client) (j : Job) (error : SessionError) :
    (c.miss j error).state.seats = c.seats := by
  unfold miss
  split <;> rfl

theorem openSeat_seats (c : Client) (j : Job) :
    Seats c.config c.seats x (c.openSeat j).state.seats none := by
  unfold openSeat
  split
  · exact .rests (miss_seats c j _)
  · rename_i o hbegin
    exact .begins o hbegin rfl

theorem useKept_seats (c : Client) (j : Job) :
    Seats c.config c.seats x (c.useKept j).state.seats (c.keptTouch? j) := by
  obtain ⟨id, aim, delay, stage⟩ := j
  unfold useKept keptTouch?
  cases hkept : c.kept with
  | none   =>
      cases aim with
      | destroy => exact .rests rfl
      | openNew | obtain | send _ | sendAt _ _ | closeAt _ => exact openSeat_seats c _
  | some i =>
      cases aim with
      | destroy => exact closeAt_seats { c with kept := none, lock := c.lock.leave id } _ i
      | send m  => exact sendAt_seats { c with lock := c.lock.leave id } _ i m
      | openNew | obtain | sendAt _ _ | closeAt _ => exact .rests rfl

theorem useOrWait_seats (c : Client) (j : Job) :
    Seats c.config c.seats x (c.useOrWait j).state.seats (c.turnTouch? j) := by
  unfold useOrWait turnTouch?
  split
  · exact useKept_seats c j
  · exact .rests rfl

theorem begin_seats (c : Client) (j : Job) :
    Seats c.config c.seats x (c.begin j).state.seats (c.beginTouch? j) := by
  obtain ⟨id, aim, delay, stage⟩ := j
  unfold begin beginTouch?
  cases aim with
  | sendAt i m => exact sendAt_seats c _ i m
  | closeAt i  => exact closeAt_seats c _ i
  | openNew    => exact openSeat_seats c _
  | obtain | send _ | destroy => exact useOrWait_seats { c with lock := c.lock.join id } _

/-- A job that has waited for a session gives it its command, if it has one. -/
theorem reach_seats (j : Job) {i : Nat} {s : Session} (hseat : c.seats[i]? = some (.taken s)) :
    (∃ m, j.aim = .send m ∧
        (c.reach j i).state.seats = c.seats.set i (.taken (s.react m.input).state)) ∨
      (∀ m, j.aim ≠ .send m) ∧ (c.reach j i).state.seats = c.seats := by
  obtain ⟨id, aim, delay, stage⟩ := j
  unfold reach
  cases aim with
  | send m =>
      refine .inl ⟨m, rfl, ?_⟩
      dsimp only
      unfold sendAt
      rw [hseat]
      exact absorb_seats i _
  | openNew | obtain | sendAt _ _ | closeAt _ | destroy =>
      exact .inr ⟨fun _ => Aim.noConfusion, rfl⟩

/-- The opening of a session in a seat is over. -/
theorem settle_seats (c : Client) {i id who : Nat} {sig : Signal} {o o' : Opening}
    (hinput : x = .tell (.inSeat i id) sig) (hseat : c.seats[i]? = some (.opening o))
    {result : Except SessionError Session} (hresult : (who, result) ∈ (o.step id sig).results)
    (ho' : o' = (o.step id sig).state) :
    Seats c.config c.seats x ((c.seat i (.opening o')).settle i result).state.seats
      (c.openTouch? i result) := by
  have hlt : i < c.seats.length := (List.getElem?_eq_some_iff.1 hseat).1
  have hwaiter : (c.seat i (.opening o')).jobs = c.jobs := rfl
  unfold settle
  rw [hwaiter]
  cases hfind : c.jobs.find? fun j => j.stage = .opening i with
  | none   =>
      have hnone : c.openTouch? i result = none := by
        cases result with
        | error _ => rfl
        | ok s    => simp only [openTouch?, hfind]
      rw [hnone]
      exact .asks i id sig o hseat (by rw [← ho']; rfl)
  | some j =>
      cases result with
      | error error =>
          refine .fails i o hseat ?_
          show (miss _ j error).state.seats = _
          rw [miss_seats]
          exact List.set_set ..
      | ok s        =>
          have htaken : (c.seats.set i (.opening o')).set i (.taken s) = c.seats.set i (.taken s) :=
            List.set_set ..
          obtain ⟨jid, aim, delay, stage⟩ := j
          have hthere :
              ((c.seat i (.opening o')).seat i (.taken s)).seats[i]? = some (.taken s) := by
            rw [← List.getElem?_set_self hlt, ← htaken]
            rfl
          rcases reach_seats (c := { (c.seat i (.opening o')).seat i (.taken s) with
              kept := if aim.needsLock then some i else c.kept })
              ⟨jid, aim, delay, stage⟩ hthere with ⟨m, rfl, hseats⟩ | ⟨hnone, hseats⟩
          · have htouch : c.openTouch? i (.ok s) = some ⟨i, s, m.input⟩ := by
              simp only [openTouch?, hfind]
            rw [htouch]
            refine .opensWith i id who sig o s m.input hinput hseat hresult (hseats.trans ?_)
            show ((c.seats.set i _).set i _).set i _ = _
            rw [htaken]
            exact List.set_set ..
          · have htouch : c.openTouch? i (.ok s) = none := by
              cases aim with
              | send m => exact absurd rfl (hnone m)
              | openNew | obtain | sendAt _ _ | closeAt _ | destroy =>
                  simp only [openTouch?, hfind]
            rw [htouch]
            exact .opens i id who sig o s hinput hseat hresult (hseats.trans htaken)

/-- As long as an opening goes on, nothing else happens. -/
theorem stepSeat_of_nil {i : Nat} {o : Opening} (hseat : c.seats[i]? = some (.opening o)) {id : Nat}
    {sig : Signal} (hnone : (o.step id sig).results = []) :
    (c.stepSeat i id sig).state = c.seat i (.opening (o.step id sig).state) := by
  unfold stepSeat
  rw [hseat]
  dsimp only
  rw [Progress.feed_of_nil (by rw [hnone]; rfl)]

/-- When it is over, this is settled. -/
theorem stepSeat_of_singleton {i : Nat} {o : Opening} (hseat : c.seats[i]? = some (.opening o))
    {id who : Nat} {sig : Signal} {result : Except SessionError Session}
    (hone : (o.step id sig).results = [(who, result)]) :
    (c.stepSeat i id sig).state =
      ((c.seat i (.opening (o.step id sig).state)).settle i result).state := by
  unfold stepSeat
  rw [hseat]
  dsimp only
  rw [Progress.feed, hone]
  rfl

/-- What is told to an activity of what is in a seat. -/
theorem stepSeat_seats (ho : ∀ (i : Nat) (o : Opening), c.seats[i]? = some (.opening o) → o.InOrder)
    (i id : Nat) (sig : Signal) :
    Seats c.config c.seats (.tell (.inSeat i id) sig) (c.stepSeat i id sig).state.seats
      (c.seatTouch? i id sig) := by
  unfold seatTouch?
  cases hseat : c.seats[i]? with
  | none      =>
      unfold stepSeat
      rw [hseat]
      exact .rests rfl
  | some seat =>
      cases seat with
      | failed    =>
          unfold stepSeat
          rw [hseat]
          exact .rests rfl
      | taken s   =>
          unfold stepSeat
          rw [hseat]
          exact .reaches i s (.signal id sig) hseat (absorb_seats i _)
      | opening o =>
          dsimp only
          rcases Opening.step_results (ho i o hseat) id sig with hnone | ⟨who, result, hone⟩
          · rw [stepSeat_of_nil hseat hnone, hnone]
            exact .asks i id sig o hseat rfl
          · rw [stepSeat_of_singleton hseat hone, hone]
            exact settle_seats c rfl hseat (hone ▸ List.mem_singleton.2 rfl) rfl

theorem proceed_seats (c : Client) (j : Job) :
    Seats c.config c.seats x (c.proceed j).state.seats (c.jobTouch? j .proceed) := by
  unfold proceed jobTouch?
  cases j.stage with
  | ready     =>
      dsimp only
      split
      · exact begin_seats c j
      · exact .rests rfl
  | awaitsLock => exact useOrWait_seats c j
  | delayed | opening _ | waiting _ _ => exact .rests rfl

theorem rested_seats (c : Client) (j : Job) :
    Seats c.config c.seats x (c.rested j).state.seats (c.jobTouch? j .rested) := by
  unfold rested jobTouch?
  cases j.stage with
  | delayed => exact begin_seats c j
  | ready | awaitsLock | opening _ | waiting _ _ => exact .rests rfl

/-- A job that is gone is told nothing. -/
theorem react_of_gone {id : Nat} (hfind : c.find? id = none) (sig : Signal) :
    c.react (.tell (.job id) sig) = { state := c } := by
  simp only [react, step, hfind]

theorem react_proceed {id : Nat} (hfind : c.find? id = some j) :
    c.react (.tell (.job id) .proceed) = c.proceed j := by
  simp only [react, step, hfind]

theorem react_rested {id : Nat} (hfind : c.find? id = some j) :
    c.react (.tell (.job id) .rested) = c.rested j := by
  simp only [react, step, hfind]

/-- A job takes in nothing else. -/
theorem react_of_other {id : Nat} (hfind : c.find? id = some j) {sig : Signal}
    (hp : sig ≠ .proceed) (hr : sig ≠ .rested) :
    c.react (.tell (.job id) sig) = { state := c } := by
  cases sig with
  | proceed => exact absurd rfl hp
  | rested  => exact absurd rfl hr
  | connected _ | answered _ | expired => simp only [react, step, hfind]

/-- **What an input does to the seats**: what comes to a session is what it comes to at one. -/
theorem react_seats (ho : ∀ (i : Nat) (o : Opening), c.seats[i]? = some (.opening o) → o.InOrder)
    (x : Input) : Seats c.config c.seats x (c.react x).state.seats (c.touch? x) := by
  cases x with
  | start aim delay => exact .rests rfl
  | tell who sig    =>
      cases who with
      | inSeat i id => exact stepSeat_seats ho i id sig
      | job id      =>
          have htouch : c.touch? (.tell (.job id) sig) =
              (c.find? id).bind fun j => c.jobTouch? j sig := rfl
          rw [htouch]
          cases hfind : c.find? id with
          | none   =>
              rw [react_of_gone hfind]
              exact .rests rfl
          | some j =>
              rw [Option.bind_some]
              cases sig with
              | proceed =>
                  rw [react_proceed hfind]
                  exact proceed_seats c j
              | rested  =>
                  rw [react_rested hfind]
                  exact rested_seats c j
              | connected _ | answered _ | expired =>
                  rw [react_of_other hfind Signal.noConfusion Signal.noConfusion]
                  exact .rests rfl

-- ── What a run leaves behind ─────────────────────────────────────────────────────────────────────

variable {α : Type}

/-- What some inputs come to, one after the other. -/
def log (f : Client → Input → Option α) (c : Client) : List Input → List α
  | []        => []
  | x :: rest => (f c x).toList ++ log f (c.react x).state rest

theorem log_concat (f : Client → Input → Option α) (c : Client) (xs : List Input) (x : Input) :
    log f c (xs ++ [x]) = log f c xs ++ (f (c.run xs) x).toList := by
  induction xs generalizing c with
  | nil          =>
      show (f c x).toList ++ [] = [] ++ (f c x).toList
      rw [List.append_nil, List.nil_append]
  | cons y xs ih =>
      show (f c y).toList ++ log f _ (xs ++ [x]) = ((f c y).toList ++ log f _ xs) ++ _
      rw [ih, List.append_assoc]
      rfl

/-- The client id that an opening is given: a member that it has asked says that it has taken the
    request. -/
def grant? (c : Client) : Input → Option ClientId
  | .tell (.inSeat i id) (.answered (.ok reply)) =>
      match c.seats[i]? with
      | some (.opening o) =>
          if o.isExchanging id && reply.accepted then some reply.client else none
      | _                 => none
  | _                                            => none

/-- The client ids that a run is given. -/
def granted (c : Client) (xs : List Input) : List ClientId := log grant? c xs

/-- What comes to the sessions in a run. -/
def touches (c : Client) (xs : List Input) : List Touch := log touch? c xs

/-- The name of a command that comes to a session without a number. -/
def Touch.name? (t : Touch) : Option RequestId := t.session.named? t.input

/-- What came to the session in a seat. -/
def inputsAt (i : Nat) (ts : List Touch) : List Session.Input :=
  ts.filterMap fun t => if t.seat = i then some t.input else none

/-- The names of the commands that came to the session in a seat without a number. -/
def namesAt (i : Nat) (ts : List Touch) : List RequestId :=
  ts.filterMap fun t => if t.seat = i then t.name? else none

/-- The number that every session of a client begins with. -/
def firstSeq (config : SessionConfig) : SeqNo := ⟨config.options.firstSeq.getD 0⟩

-- ── What is in a seat ────────────────────────────────────────────────────────────────────────────

/-- What may be in a seat, when some client ids were granted, some inputs have come to the session
    there, and some commands had no number. -/
def Holds (config : SessionConfig) (ids : List ClientId) (ys : List Session.Input)
    (ns : List RequestId) : Option Seat → Prop
  | some (.opening o) =>
      (∃ o₀ told, Opening.begin config = .ok o₀ ∧ o = o₀.run told) ∧ ys = [] ∧ ns = []
  | some (.taken s)   =>
      ∃ s₀ : Session, s₀.Opened ∧ s₀.identity.next = firstSeq config ∧
        s₀.identity.client ∈ ids ∧ s = s₀.run ys ∧ ns = s₀.names ys
  | _                 => ys = [] ∧ ns = []

variable {config : SessionConfig} {ids : List ClientId} {ys : List Session.Input}
  {ns : List RequestId} {seats seats' : List Seat}

/-- More client ids are granted. -/
theorem Holds.mono {seat : Option Seat} (h : Holds config ids ys ns seat) (more : List ClientId) :
    Holds config (ids ++ more) ys ns seat := by
  match seat, h with
  | none, h                 => exact h
  | some (.opening o), h    => exact h
  | some .failed, h         => exact h
  | some (.taken s), h      =>
      obtain ⟨s₀, hopened, hfirst, hgranted, hrun⟩ := h
      exact ⟨s₀, hopened, hfirst, List.mem_append_left _ hgranted, hrun⟩

/-- What is being opened is in order. -/
theorem Holds.inOrder {o : Opening} (h : Holds config ids ys ns (some (.opening o))) :
    o.InOrder := by
  obtain ⟨⟨o₀, told, hbegin, rfl⟩, _⟩ := h
  exact Opening.run_inOrder (Opening.begin_inOrder hbegin) told

/-- A session that is open was opened, and its client id was granted by the last input. -/
theorem Holds.opens {o : Opening} (h : Holds config ids ys ns (some (.opening o)))
    {i id who : Nat} {sig : Signal} {s : Session} (hc : c.seats[i]? = some (.opening o))
    (hresult : (who, .ok s) ∈ (o.step id sig).results) :
    s.Opened ∧ s.identity.next = firstSeq config ∧
      c.grant? (.tell (.inSeat i id) sig) = some s.identity.client := by
  have horder := h.inOrder
  obtain ⟨⟨o₀, told, hbegin, rfl⟩, _⟩ := h
  obtain ⟨reply, rfl, haccepted, hasks, hidentity⟩ := Opening.opened_by horder hresult
  refine ⟨⟨config, o₀, told, id, _, who, hbegin, hresult⟩, ?_, ?_⟩
  · rw [hidentity, Opening.run_settings, Opening.begin_firstSeq hbegin]
    rfl
  · simp only [grant?, hc, hasks, haccepted, hidentity, Bool.and_self, if_true]

/-- Nothing has come to the session in a seat. -/
@[simp] theorem inputsAt_nil (i : Nat) : inputsAt i [] = [] ∧ namesAt i [] = [] := ⟨rfl, rfl⟩

theorem inputsAt_append (i : Nat) (ts us : List Touch) :
    inputsAt i (ts ++ us) = inputsAt i ts ++ inputsAt i us ∧
      namesAt i (ts ++ us) = namesAt i ts ++ namesAt i us :=
  ⟨List.filterMap_append, List.filterMap_append⟩

/-- What comes to one seat does not come to another. -/
theorem inputsAt_elsewhere {i : Nat} {t : Option Touch} (h : ∀ u ∈ t.toList, u.seat ≠ i) :
    inputsAt i t.toList = [] ∧ namesAt i t.toList = [] := by
  cases t with
  | none   => exact inputsAt_nil i
  | some u => simp [inputsAt, namesAt, h u (List.mem_singleton.2 rfl)]

theorem inputsAt_here (i : Nat) (s : Session) (y : Session.Input) :
    inputsAt i (some (⟨i, s, y⟩ : Touch)).toList = [y] ∧
      namesAt i (some (⟨i, s, y⟩ : Touch)).toList = (s.named? y).toList := by
  have hname : (⟨i, s, y⟩ : Touch).name? = s.named? y := rfl
  constructor
  · simp [inputsAt]
  · cases h : s.named? y with
    | none   => simp [namesAt, hname, h]
    | some n => simp [namesAt, hname, h]

/-- What an input does to one seat. -/
inductive Fate (config : SessionConfig) (x : Input) (i : Nat) (seat : Option Seat) :
    Option Seat → Option Touch → Prop where
  | rests (t : Option Touch) (elsewhere : ∀ u ∈ t.toList, u.seat ≠ i) :
      Fate config x i seat seat t
  | begins (o : Opening) (before : seat = none) (begun : Opening.begin config = .ok o) :
      Fate config x i seat (some (.opening o)) none
  | asks (id : Nat) (sig : Signal) (o : Opening) (before : seat = some (.opening o)) :
      Fate config x i seat (some (.opening (o.step id sig).state)) none
  | fails (o : Opening) (before : seat = some (.opening o)) :
      Fate config x i seat (some .failed) none
  | opens (id who : Nat) (sig : Signal) (o : Opening) (s : Session)
      (input : x = .tell (.inSeat i id) sig) (before : seat = some (.opening o))
      (result : (who, .ok s) ∈ (o.step id sig).results) :
      Fate config x i seat (some (.taken s)) none
  | opensWith (id who : Nat) (sig : Signal) (o : Opening) (s : Session) (y : Session.Input)
      (input : x = .tell (.inSeat i id) sig) (before : seat = some (.opening o))
      (result : (who, .ok s) ∈ (o.step id sig).results) :
      Fate config x i seat (some (.taken (s.react y).state)) (some ⟨i, s, y⟩)
  | reaches (s : Session) (y : Session.Input) (before : seat = some (.taken s)) :
      Fate config x i seat (some (.taken (s.react y).state)) (some ⟨i, s, y⟩)

/-- Where one seat is set, it is that one or another. -/
theorem fate_set {t : Option Touch} (i k : Nat) {before after : Seat}
    (hseat : seats[k]? = some before) (ht : ∀ u ∈ t.toList, u.seat = k)
    (hk : Fate config x k seats[k]? (some after) t) :
    Fate config x i seats[i]? (seats.set k after)[i]? t := by
  by_cases h : k = i
  · subst h
    rw [List.getElem?_set_self (List.getElem?_eq_some_iff.1 hseat).1]
    exact hk
  · rw [List.getElem?_set_ne h]
    exact .rests t fun u hu => by rw [ht u hu]; exact h

/-- **What an input does to every seat.** -/
theorem Seats.fate {t : Option Touch} (h : Seats config seats x seats' t) (i : Nat) :
    Fate config x i seats[i]? seats'[i]? t := by
  have hnone : ∀ k, ∀ u ∈ (none : Option Touch).toList, u.seat = k := fun _ _ hu => nomatch hu
  cases h with
  | rests same            =>
      rw [same]
      exact .rests none fun _ hu => nomatch hu
  | begins o begun grown  =>
      rw [grown]
      rcases Nat.lt_trichotomy i seats.length with hlt | rfl | hgt
      · rw [List.getElem?_append_left hlt]
        exact .rests none fun _ hu => nomatch hu
      · rw [List.getElem?_concat_length]
        exact .begins o (List.getElem?_eq_none (Nat.le_refl _)) begun
      · rw [List.getElem?_eq_none (Nat.le_of_lt hgt),
          List.getElem?_eq_none (by rw [List.length_append]; exact hgt)]
        exact .rests none fun _ hu => nomatch hu
  | asks k id sig o seat set =>
      rw [set]
      exact fate_set i k seat (hnone k) (.asks id sig o seat)
  | fails k o seat set       =>
      rw [set]
      exact fate_set i k seat (hnone k) (.fails o seat)
  | opens k id who sig o s input seat result set       =>
      rw [set]
      exact fate_set i k seat (hnone k) (.opens id who sig o s input seat result)
  | opensWith k id who sig o s y input seat result set =>
      rw [set]
      refine fate_set i k seat (fun u hu => ?_) (.opensWith id who sig o s y input seat result)
      rw [List.mem_singleton.1 hu]
  | reaches k s y seat set                             =>
      rw [set]
      refine fate_set i k seat (fun u hu => ?_) (.reaches s y seat)
      rw [List.mem_singleton.1 hu]

/-- What is being opened was so before, or begins to be. -/
theorem Fate.opening {i : Nat} {seat : Option Seat} {o : Opening} {t : Option Touch}
    (h : Fate config x i seat (some (.opening o)) t) :
    seat = some (.opening o) ∨ Opening.begin config = .ok o ∨
      ∃ id sig o', seat = some (.opening o') ∧ o = (o'.step id sig).state := by
  cases h with
  | rests _ _               => exact .inl rfl
  | begins _ _ begun        => exact .inr (.inl begun)
  | asks id sig o' before   => exact .inr (.inr ⟨id, sig, o', before, rfl⟩)

/-- A session that is open was so before, or what was being opened has come to it. -/
theorem Fate.taken {i : Nat} {seat : Option Seat} {s : Session} {t : Option Touch}
    (h : Fate config x i seat (some (.taken s)) t) :
    (∃ s', seat = some (.taken s') ∧ s.identity.client = s'.identity.client) ∨
      ∃ id sig who o s', x = .tell (.inSeat i id) sig ∧ seat = some (.opening o) ∧
        (who, .ok s') ∈ (o.step id sig).results ∧ s.identity.client = s'.identity.client := by
  cases h with
  | rests _ _                                       => exact .inl ⟨s, rfl, rfl⟩
  | opens id who sig o _ input before result        =>
      exact .inr ⟨id, sig, who, o, s, input, before, result, rfl⟩
  | opensWith id who sig o s' y input before result =>
      exact .inr ⟨id, sig, who, o, s', input, before, result, s'.run_client [y]⟩
  | reaches s' y before                             => exact .inl ⟨s', before, s'.run_client [y]⟩

/-- **One input keeps the account of a seat.** -/
theorem Fate.holds {i : Nat} {seat : Option Seat} {t : Option Touch}
    (h : Fate config x i c.seats[i]? seat t) (ts : List Touch)
    (hold : Holds config ids (inputsAt i ts) (namesAt i ts) c.seats[i]?) :
    Holds config (ids ++ (c.grant? x).toList) (inputsAt i (ts ++ t.toList))
      (namesAt i (ts ++ t.toList)) seat := by
  rw [(inputsAt_append i ts _).1, (inputsAt_append i ts _).2]
  cases h with
  | rests t elsewhere      =>
      obtain ⟨hy, hn⟩ := inputsAt_elsewhere elsewhere
      rw [hy, hn, List.append_nil, List.append_nil]
      exact hold.mono _
  | begins o before begun  =>
      rw [before] at hold
      obtain ⟨hy, hn⟩ := hold
      rw [hy, hn]
      exact ⟨⟨o, [], begun, rfl⟩, rfl, rfl⟩
  | asks id sig o before   =>
      rw [before] at hold
      obtain ⟨⟨o₀, told, hbegin, rfl⟩, hy, hn⟩ := hold
      rw [hy, hn]
      have hrun := (Opening.run_append o₀ told [(id, sig)]).symm
      exact ⟨⟨o₀, told ++ [(id, sig)], hbegin, hrun⟩, rfl, rfl⟩
  | fails o before         =>
      rw [before] at hold
      obtain ⟨_, hy, hn⟩ := hold
      rw [hy, hn]
      exact ⟨rfl, rfl⟩
  | opens id who sig o s input before result         =>
      rw [before] at hold
      obtain ⟨hopened, hfirst, hgrant⟩ := hold.opens before result
      obtain ⟨_, hy, hn⟩ := hold
      rw [hy, hn, input, hgrant]
      exact ⟨s, hopened, hfirst, List.mem_append_right _ (List.mem_singleton.2 rfl), rfl, rfl⟩
  | opensWith id who sig o s y input before result   =>
      rw [before] at hold
      obtain ⟨hopened, hfirst, hgrant⟩ := hold.opens before result
      obtain ⟨_, hy, hn⟩ := hold
      obtain ⟨hy', hn'⟩ := inputsAt_here i s y
      rw [hy, hn, hy', hn', input, hgrant]
      exact ⟨s, hopened, hfirst, List.mem_append_right _ (List.mem_singleton.2 rfl), rfl,
        (List.append_nil _).symm⟩
  | reaches s y before                               =>
      rw [before] at hold
      obtain ⟨s₀, hopened, hfirst, hgranted, hrun, hnames⟩ := hold
      obtain ⟨hy', hn'⟩ := inputsAt_here i s y
      refine ⟨s₀, hopened, hfirst, List.mem_append_left _ hgranted, ?_, ?_⟩
      · rw [hy', Session.run_append, ← hrun]
        rfl
      · rw [hy', hn', Session.names_append, ← hrun, hnames]
        exact congrArg _ (List.append_nil _).symm

end Client

end WitnessReplication

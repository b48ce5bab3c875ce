import WitnessReplication.Proofs.LineRuns

/-!
# Courier runs — what a session does with its courier, in any order

    A session takes numbers, sends out errands of three kinds, tells errands something and calls
    them off; the order is up to its users and to the members.  A run of a courier is any list of
    such events.  Whatever the order, three things hold together: the lines and the errands agree;
    who is at work at a slot is first in line there; and who looks for the leader has its turn, so
    that nobody else moves the belief who leads meanwhile.

    So an errand may be followed through a run as if it were alone.  What others do leaves it where
    it is, first in line if it was, and with the turn if it had it.

* **`Courier.Event`**, **`happen`** and **`run`** — one event; a list of them.
* **`Courier.Shuts`** and **`step_shuts`** — what an errand does that closes the pool.
* **`Courier.Affects`** and **`step_affects`** — a step of an errand is a step of no other.
* **`Courier.Spares`** and **`happen_spares`** — what an event leaves as it was for an errand.
* **`Courier.Sound`** — what holds at any time; **`sound_run`**, that every run keeps it so.
-/

namespace WitnessReplication

/-- What somebody may do to a line: leave it as it is, join its end, or go away from it. -/
inductive Redrawn (who : Nat) (l : List Nat) : List Nat → Prop where
  | same   : Redrawn who l l
  | joined : Redrawn who l (l ++ [who])
  | left   : Redrawn who l (l.erase who)

/-- Whoever is first in line stays so, whatever somebody else does to the line. -/
theorem Redrawn.head? {who i : Nat} {l l' : List Nat} (h : Redrawn who l l') (hne : i ≠ who)
    (hi : l.head? = some i) : l'.head? = some i := by
  cases h with
  | same   => exact hi
  | joined =>
      rw [List.head?_append, hi]
      rfl
  | left   =>
      cases l with
      | nil      => exact nomatch hi
      | cons a l =>
          obtain rfl : a = i := Option.some.inj hi
          rw [List.erase_cons_tail (by simpa using hne)]
          rfl

/-- Whose demand it is. -/
def Demand.who {ι : Type} : Demand ι → ι
  | .connect who _    => who
  | .exchange who _ _ => who
  | .pause who _      => who
  | .deadline who _   => who

/-- Whether something is demanded of a member: a connection, or an exchange. -/
def Demand.reaches {ι : Type} : Demand ι → Bool
  | .connect _ _    => true
  | .exchange _ _ _ => true
  | _               => false

namespace Pool

variable {p q : Pool} {m who i : Nat}

-- ── Lines ────────────────────────────────────────────────────────────────────────────────────────

/-- Only the lines matter. -/
theorem holds_of_line (h : q.line m = p.line m) : q.holds m i = p.holds m i := by
  rw [Bool.eq_iff_iff, holds_iff, holds_iff, h]

theorem redrawn_lineUp (p : Pool) (k who m : Nat) :
    Redrawn who (p.line m) ((p.lineUp k who).line m) := by
  by_cases hk : k < p.size
  · rw [line_lineUp hk]
    split
    · exact .joined
    · exact .same
  · have hsame : p.lineUp k who = p := by
      rw [lineUp, modify, List.modify_eq_self (Nat.le_of_not_lt hk)]
    rw [hsame]
    exact .same

/-- Whoever leaves every line, and may have left one of them before, has left them once. -/
theorem redrawn_leaveAll (hnodup : (p.line m).Nodup)
    (h : q.line m = p.line m ∨ q.line m = (p.line m).erase who) :
    Redrawn who (p.line m) ((q.leaveAll who).line m) := by
  rw [line_leaveAll]
  rcases h with h | h
  · rw [h]
    exact .left
  · rw [h, List.erase_of_not_mem (List.Nodup.not_mem_erase hnodup)]
    exact .left

-- ── Connections ──────────────────────────────────────────────────────────────────────────────────

/-- A change that leaves the connection of every slot as it is. -/
theorem connected_modify (p : Pool) (k m : Nat) {f : Slot → Slot}
    (hf : ∀ s, (f s).connected = s.connected) : (p.modify k f).connected m = p.connected m := by
  rw [connected, connected, modify, List.getElem?_modify]
  cases p.slots[m]? with
  | none   => rfl
  | some s =>
      by_cases h : k = m
      · simp [h, hf]
      · simp [h]

@[simp] theorem connected_lineUp (k : Nat) : (p.lineUp k who).connected m = p.connected m :=
  p.connected_modify k m fun _ => rfl

@[simp] theorem connected_leave (k : Nat) : (p.leave k who).connected m = p.connected m :=
  p.connected_modify k m fun _ => rfl

@[simp] theorem connected_leaveAll : (p.leaveAll who).connected m = p.connected m := by
  rw [connected, connected, leaveAll, List.getElem?_map]
  cases p.slots[m]? <;> rfl

/-- One connection goes, and the others stay. -/
theorem connected_disconnect (p : Pool) (k m : Nat) :
    (p.disconnect k).connected m = (p.connected m && k != m) := by
  rw [connected, connected, disconnect, modify, List.getElem?_modify]
  cases p.slots[m]? with
  | none   => rfl
  | some s =>
      by_cases h : k = m
      · simp [h]
      · simp [h]

/-- One connection comes, and the others stay. -/
theorem connected_connect (p : Pool) (k m : Nat) :
    (p.connect k).connected m = (p.connected m || (k == m && decide (m < p.size))) := by
  rw [connected, connected, connect, modify, List.getElem?_modify, size]
  cases hs : p.slots[m]? with
  | none   =>
      have hout : ¬ m < p.slots.length := by simpa using hs
      simp [hout]
  | some s =>
      obtain ⟨hin, _⟩ := List.getElem?_eq_some_iff.1 hs
      by_cases h : k = m
      · simp [h, hin]
      · simp [h]

end Pool

theorem FairLock.holds_iff {l : FairLock} {i : Nat} :
    l.holds i = true ↔ l.line.head? = some i := by
  rw [holds, beq_iff_eq]

/-- An errand closes the pool, and has the slot at a place before it: it is on its way there, or
    waits there. -/
structure Errand.Closes (e : Errand) (next : Nat) : Prop where
  aim   : e.aim = .close next
  stage : e.stage = .ready ∨ e.stage = .awaitsSlot next

namespace Courier

-- ── Events ───────────────────────────────────────────────────────────────────────────────────────

/-- Something that a session does with its courier. -/
inductive Event where
  /-- A number is taken. -/
  | number
  /-- A request is sent out to the leader. -/
  | leads (request : Request)
  /-- Records are sent out to some witnesses. -/
  | records (entry : LogEntry) (witnesses : List Nat)
  /-- An errand is sent out that closes the pool. -/
  | closes
  /-- An errand is told something. -/
  | tells (id : Nat) (s : Signal)
  /-- An errand is called off. -/
  | callsOff (id : Nat)
  deriving DecidableEq

/-- What comes of an event. -/
def happen (c : Courier) : Event → Step
  | .number           => { state := c.takeNumber.2 }
  | .leads request    => { state := (c.beginLead request).2 }
  | .records entry ws => { state := (c.beginRecords entry ws).2 }
  | .closes           => { state := (c.begin (.close 0)).2 }
  | .tells id s       => c.step id s
  | .callsOff id      => { state := c.abandon id }

/-- What comes of some events, the first one first. -/
def run (c : Courier) : List Event → Step
  | []      => { state := c }
  | x :: xs =>
      let p := c.happen x
      let q := p.state.run xs
      { state := q.state, demands := p.demands ++ q.demands, results := p.results ++ q.results }

/-- The errand that an event is about, if it is one that was sent out before. -/
def Event.errand? : Event → Option Nat
  | .tells id _   => some id
  | .callsOff id  => some id
  | _             => none

variable {c d : Courier} {e f : Errand} {p : Step}

/-- A run goes on where another one stopped. -/
theorem run_append (c : Courier) (xs ys : List Event) :
    c.run (xs ++ ys) =
      { state   := ((c.run xs).state.run ys).state
        demands := (c.run xs).demands ++ ((c.run xs).state.run ys).demands
        results := (c.run xs).results ++ ((c.run xs).state.run ys).results } := by
  induction xs generalizing c with
  | nil          => rfl
  | cons x xs ih => simp only [List.cons_append, run, ih, List.append_assoc]

theorem run_singleton (c : Courier) (x : Event) : c.run [x] = c.happen x := by
  simp only [run, List.append_nil]

/-- One more event. -/
theorem run_concat (c : Courier) (xs : List Event) (x : Event) :
    c.run (xs ++ [x]) =
      { state   := ((c.run xs).state.happen x).state
        demands := (c.run xs).demands ++ ((c.run xs).state.happen x).demands
        results := (c.run xs).results ++ ((c.run xs).state.happen x).results } := by
  simp only [run_append, run, List.append_nil]

-- ── Finding errands ──────────────────────────────────────────────────────────────────────────────

theorem find?_abandon (c : Courier) (id : Nat) : (c.abandon id).find? id = none := by
  refine List.find?_eq_none.2 fun f hf => ?_
  simpa using (List.mem_filter.1 hf).2

theorem find?_put (h : c.find? f.id = some e) : (c.put f).find? f.id = some f := by
  have hsame : ((fun g : Errand => decide (g.id = f.id)) ∘ fun g => if g.id = f.id then f else g) =
      fun g => decide (g.id = f.id) := by
    funext g
    by_cases hid : g.id = f.id
    · simp [hid]
    · simp [hid]
  have hid : e.id = f.id := by simpa using List.find?_some h
  rw [find?] at h ⊢
  show (c.errands.map _).find? _ = _
  rw [List.find?_map, hsame, h, Option.map_some, if_pos hid]

/-- What is told to an errand that is gone changes nothing. -/
theorem step_of_gone {id : Nat} (h : c.find? id = none) (s : Signal) :
    c.step id s = { state := c } := by
  rw [step, h]

-- ── An errand that closes the pool ───────────────────────────────────────────────────────────────

/-- All that an errand does that closes the pool, when it is told something. -/
inductive Shuts (c : Courier) (e : Errand) (next : Nat) : Signal → Step → Prop where
  /-- It does not wait for this. -/
  | rests {s : Signal} (deaf : c.heeds e s = false) : Shuts c e next s { state := c }
  /-- It was at every slot. -/
  | ends (free : e.stage = .ready) (past : c.pool.size ≤ next) :
      Shuts c e next .proceed (c.finish e .closed)
  /-- It lines up behind somebody. -/
  | queues (free : e.stage = .ready) (listed : next < c.pool.size)
      (behind : (c.pool.lineUp next e.id).holds next e.id = false) :
      Shuts c e next .proceed
        { state := { c with pool := c.pool.lineUp next e.id }.put
            { e with stage := .awaitsSlot next } }
  /-- It is first in line, drops the connection and leaves. -/
  | empties {pool : Pool}
      (lined : e.stage = .awaitsSlot next ∧ pool = c.pool ∨
        e.stage = .ready ∧ next < c.pool.size ∧ pool = c.pool.lineUp next e.id)
      (first : pool.holds next e.id = true) :
      Shuts c e next .proceed
        { state := { c with pool := (pool.disconnect next).leave next e.id }.put
            { e with aim := .close (next + 1), stage := .ready } }

/-- What it comes to that the errand is first in line. -/
private theorem enter_close {next : Nat} (h : e.aim = .close next) (m : Nat) :
    c.enter e m =
      { state := { c with pool := (c.pool.disconnect m).leave m e.id }.put
          { e with aim := .close (next + 1), stage := .ready } } := by
  rw [enter, h]
  dsimp only
  rw [moveOn, h]
  rfl

/-- It waits for nothing but to go on. -/
private theorem proceed_of_heeds {next : Nat} (h : e.Closes next) {s : Signal}
    (heeded : c.heeds e s = true) : s = .proceed := by
  cases s with
  | proceed     => rfl
  | connected o =>
      obtain ⟨m, hm⟩ := connecting_of_heeds heeded
      rcases h.stage with hstage | hstage <;> (rw [hm] at hstage; exact nomatch hstage)
  | answered o  =>
      obtain ⟨m, hm⟩ := exchanging_of_heeds heeded
      rcases h.stage with hstage | hstage <;> (rw [hm] at hstage; exact nomatch hstage)
  | rested      =>
      have hm := backingOff_of_heeds heeded
      rcases h.stage with hstage | hstage <;> (rw [hm] at hstage; exact nomatch hstage)
  | expired     => exact nomatch heeded

/-- **What an errand does that closes the pool**: one of the cases. -/
theorem step_shuts {id next : Nat} (hf : c.find? id = some e) (h : e.Closes next) (s : Signal) :
    c.Shuts e next s (c.step id s) := by
  cases hheeds : c.heeds e s with
  | false =>
      rw [step_of_deaf hf hheeds]
      exact .rests hheeds
  | true  =>
      obtain rfl := proceed_of_heeds h hheeds
      rw [step, hf]
      rcases h.stage with hstage | hstage
      · simp only [proceed, hstage, setOff, h.aim]
        split
        · rename_i hlisted
          rw [enterOrWait]
          split
          · rename_i hfirst
            rw [enter_close h.aim]
            exact .empties (Or.inr ⟨hstage, hlisted, rfl⟩) hfirst
          · rename_i hbehind
            exact .queues hstage hlisted (Bool.eq_false_iff.2 hbehind)
        · rename_i hpast
          exact .ends hstage (Nat.le_of_not_lt hpast)
      · have hfirst : c.pool.holds next e.id = true := by
          rw [heeds, mayProceed, hstage] at hheeds
          exact hheeds
        simp only [proceed, hstage, hfirst, if_true]
        rw [enter_close h.aim]
        exact .empties (Or.inl ⟨hstage, rfl⟩) hfirst

-- ── What holds of an errand ──────────────────────────────────────────────────────────────────────

/-- What holds of an errand at any time.  It is one that a session sends out; at work at a slot, it
    is first in line there; and if it looks for the leader it has its turn from when it sets off,
    and is at the member that is believed to lead, with a try left. -/
structure Behaves (c : Courier) (e : Errand) : Prop where
  kinds : e.OfCall ∨ ∃ next, e.Closes next
  works : ∀ m, e.stage = .connecting m ∨ e.stage = .exchanging m → c.pool.holds m e.id = true
  turns : e.Leads → e.stage = .awaitsTurn ∨ c.turn.holds e.id = true
  seeks : e.Leads → ∀ m, e.stage.member? = some m → m = c.guess
  tries : ∀ request, e.aim = .lead request 0 → e.stage.member? = none

/-- An errand that looks for the leader has its turn, unless it waits for it. -/
theorem Behaves.turn (h : c.Behaves e) (hl : e.Leads) (hstage : e.stage ≠ .awaitsTurn) :
    c.turn.holds e.id = true :=
  (h.turns hl).resolve_left hstage

/-- It has its turn when it sets off. -/
theorem Behaves.turn_of_setsOff (h : c.Behaves e) (hl : e.Leads) (free : c.setsOff e = true) :
    c.turn.holds e.id = true := by
  rcases h.turns hl with hstage | hturn
  · rw [setsOff, hstage] at free
    exact free
  · exact hturn

/-- What a step of one errand may touch: the errand itself, its place in the lines, and the belief
    who leads if it has its turn.  All that comes of the step is its own. -/
structure Affects (c : Courier) (e : Errand) (p : Step) : Prop where
  others  : ∀ f : Errand, f.id ≠ e.id → (f ∈ p.state.errands ↔ f ∈ c.errands)
  lines   : ∀ m, Redrawn e.id (c.pool.line m) (p.state.pool.line m)
  turn    : Redrawn e.id c.turn.line p.state.turn.line
  guess   : p.state.guess = c.guess ∨ c.turn.holds e.id = true
  itself  : ∀ f ∈ p.state.errands, f.id = e.id → p.state.Behaves f
  demands : ∀ d ∈ p.demands, d.who = e.id
  results : ∀ r ∈ p.results, r.1 = e.id

/-- The errand goes on its way. -/
theorem put_affects (hid : f.id = e.id) (errands : d.errands = c.errands) (turn : d.turn = c.turn)
    (lines : ∀ m, Redrawn e.id (c.pool.line m) (d.pool.line m))
    (guess : d.guess = c.guess ∨ c.turn.holds e.id = true) (itself : d.Behaves f)
    {ds : List (Demand Nat)} (own : ∀ x ∈ ds, x.who = e.id) :
    c.Affects e { state := d.put f, demands := ds } where
  others  := by
    intro g hne
    show g ∈ d.errands.map _ ↔ _
    rw [errands, List.mem_map]
    constructor
    · rintro ⟨g₀, hg₀, rfl⟩
      by_cases hsame : g₀.id = f.id
      · rw [if_pos hsame] at hne
        exact absurd hid hne
      · rw [if_neg hsame]
        exact hg₀
    · exact fun hg => ⟨g, hg, if_neg (hid ▸ hne)⟩
  lines   := lines
  turn    := by
    show Redrawn e.id c.turn.line d.turn.line
    rw [turn]
    exact .same
  guess   := guess
  itself  := by
    intro g hg hgid
    obtain ⟨g₀, _, rfl⟩ := List.mem_map.1 hg
    by_cases hsame : g₀.id = f.id
    · rw [if_pos hsame]
      exact ⟨itself.kinds, itself.works, itself.turns, itself.seeks, itself.tries⟩
    · rw [if_neg hsame] at hgid
      exact absurd (hgid.trans hid.symm) hsame
  demands := own
  results := fun _ hr => nomatch hr

/-- The errand ends, and may have left its slot before. -/
theorem finish_affects (hq : c.Queued) (errands : d.errands = c.errands) (turn : d.turn = c.turn)
    (lines : ∀ m, d.pool.line m = c.pool.line m ∨ d.pool.line m = (c.pool.line m).erase e.id)
    (guess : d.guess = c.guess) (hid : f.id = e.id) (outcome : Errand.Outcome) :
    c.Affects e (d.finish f outcome) where
  others  := by
    intro g hne
    show g ∈ d.errands.filter _ ↔ _
    rw [errands, List.mem_filter]
    exact and_iff_left (by simpa [hid] using hne)
  lines   := fun m => hid ▸ Pool.redrawn_leaveAll (hq.nodup m) (hid ▸ lines m)
  turn    := by
    show Redrawn e.id c.turn.line (d.turn.line.erase f.id)
    rw [turn, hid]
    exact .left
  guess   := Or.inl guess
  itself  := by
    intro g hg hgid
    have hne := (List.mem_filter.1 hg).2
    simp [hid, hgid] at hne
  demands := fun _ hd => nomatch hd
  results := fun r hr => by rw [List.mem_singleton.1 hr]; exact hid

/-- The errand settles what came of its exchange, and may have left its slot before. -/
theorem settle_affects (hq : c.Queued) (h : e.OfCall) (hturn : e.Leads → c.turn.holds e.id = true)
    {pool : Pool}
    (lines : ∀ m, pool.line m = c.pool.line m ∨ pool.line m = (c.pool.line m).erase e.id)
    (outcome : Except TransportError Reply) : c.Affects e ({ c with pool }.settle e outcome) := by
  have hredrawn : ∀ m, Redrawn e.id (c.pool.line m) (pool.line m) := by
    intro m
    rcases lines m with hline | hline
    · rw [hline]
      exact .same
    · rw [hline]
      exact .left
  cases haim : e.aim with
  | lead request tries =>
      have hleads : e.Leads := ⟨request, by rw [haim]; rfl⟩
      have hof : ∀ (d : Courier) (stage : Errand.Stage), d.turn = c.turn →
          stage.member? = none →
          d.Behaves { e with aim := .lead request (tries - 1), stage } := by
        intro d stage hsame hnone
        refine ⟨Or.inl (Or.inl ⟨request, rfl⟩), fun m hm => ?_, fun _ => Or.inr ?_,
          fun _ m hm => ?_, fun _ _ => hnone⟩
        · obtain hm | hm : stage = _ ∨ stage = _ := hm <;> (rw [hm] at hnone; exact nomatch hnone)
        · rw [hsame]
          exact hturn hleads
        · exact nomatch hnone.symm.trans hm
      have hsettles := settle_lead (c := { c with pool }) haim outcome
      generalize settle _ e outcome = p at hsettles
      cases hsettles with
      | accepted _           =>
          exact finish_affects (d := { c with pool }) hq rfl rfl lines rfl rfl _
      | malformed _          =>
          exact finish_affects (d := { c with pool }) hq rfl rfl lines rfl rfl _
      | @retargets _ guess _ =>
          exact put_affects (c := c) (e := e) (d := { c with pool, guess })
            (f := { e with aim := .lead request (tries - 1), stage := .ready }) rfl rfl rfl hredrawn
            (Or.inr (hturn hleads)) (hof _ .ready rfl rfl) (List.forall_mem_nil _)
      | backsOff _ _ pauses  =>
          subst pauses
          refine put_affects (c := c) (e := e) (d := { c with pool })
            (f := { e with aim := .lead request (tries - 1), stage := .backingOff }) rfl rfl rfl
            hredrawn (Or.inl rfl) (hof _ .backingOff rfl rfl) fun x hx => ?_
          rw [List.mem_singleton.1 hx]
          rfl
  | record w entry term =>
      obtain ⟨known, ok, heq, _⟩ := settle_record (c := { c with pool }) haim outcome
      rw [heq]
      exact finish_affects (d := { c with pool, knownTerm := known }) hq rfl rfl lines rfl rfl _
  | direct _ _ | survey _ _ | close _ =>
      rcases h with ⟨_, hp⟩ | ⟨_, _, hp⟩ <;> (rw [haim] at hp; exact nomatch hp)

/-- An errand boards a slot and is first in line there, or waits. -/
theorem Boards.works {i m : Nat} {request : Request} {stage : Errand.Stage}
    {ds : List (Demand Nat)} (h : d.Boards i m request stage ds) {k : Nat}
    (hk : stage = .connecting k ∨ stage = .exchanging k) : d.pool.holds k i = true := by
  cases h with
  | waits _          => rcases hk with hk | hk <;> exact nomatch hk
  | connects first _ =>
      rcases hk with hk | hk
      · exact Errand.Stage.connecting.inj hk ▸ first
      · exact nomatch hk
  | uses first _     =>
      rcases hk with hk | hk
      · exact nomatch hk
      · exact Errand.Stage.exchanging.inj hk ▸ first

theorem Boards.member? {i m : Nat} {request : Request} {stage : Errand.Stage}
    {ds : List (Demand Nat)} (h : d.Boards i m request stage ds) : stage.member? = some m := by
  cases h <;> rfl

/-- What is demanded there is demanded for the errand. -/
theorem Boards.own {i m : Nat} {request : Request} {stage : Errand.Stage}
    {ds : List (Demand Nat)} (h : d.Boards i m request stage ds) : ∀ x ∈ ds, x.who = i := by
  intro x hx
  cases h with
  | waits _      => exact nomatch hx
  | connects _ _ => rw [List.mem_singleton.1 hx]; rfl
  | uses _ _     => rw [List.mem_singleton.1 hx]; rfl

/-- Nothing happens to the errand. -/
theorem idle_affects (hq : c.Queued) (he : e ∈ c.errands) (hb : c.Behaves e) :
    c.Affects e { state := c } where
  others  := fun _ _ => Iff.rfl
  lines   := fun _ => .same
  turn    := .same
  guess   := Or.inl rfl
  itself  := fun _ hf hid => eq_of_id hq.distinct he hf hid.symm ▸ hb
  demands := fun _ hd => nomatch hd
  results := fun _ hr => nomatch hr

/-- What an errand for the leader is for stays as it is when it sets off. -/
theorem eq_of_brief (c : Courier) {aim : Errand.Aim} {request : Request} {tries : Nat}
    (h : c.brief aim = .lead request tries) : aim = .lead request tries := by
  cases aim with
  | record _ _ _ => exact nomatch h
  | _            => exact h

theorem goes_affects (hq : c.Queued) (he : e ∈ c.errands) (hb : c.Behaves e) (hof : e.OfCall)
    {s : Signal} (h : c.Goes e s p) : c.Affects e p := by
  cases h with
  | rests _               => exact idle_affects hq he hb
  | givesUp _ _           => exact finish_affects hq rfl rfl (fun _ => Or.inl rfl) rfl rfl _
  | refused free _ _ _ _  =>
      exact settle_affects hq hof (fun hl => hb.turn_of_setsOff hl free) (fun _ => Or.inl rfl) _
  | @arrives stage ds free tries _ _ _ aboard =>
      obtain ⟨request, _, hboards⟩ := aboard
      refine put_affects (c := c) (e := e)
        (d := { c with pool := c.pool.lineUp (c.destination e) e.id })
        (f := { e with aim := c.brief e.aim, stage }) rfl rfl rfl
        (fun m => c.pool.redrawn_lineUp (c.destination e) e.id m) (Or.inl rfl) ?_ hboards.own
      have hleads : ({ e with aim := c.brief e.aim, stage } : Errand).Leads → e.Leads :=
        fun ⟨q, hp⟩ => ⟨q, (c.brief_purpose e.aim).symm.trans hp⟩
      refine ⟨Or.inl (Errand.ofCall_of_purpose hof (c.brief_purpose e.aim)),
        fun m hm => hboards.works hm, fun hl => Or.inr (hb.turn_of_setsOff (hleads hl) free),
        fun hl m hm => ?_, fun q hq => absurd (c.eq_of_brief hq) (tries q)⟩
      obtain ⟨q, hp⟩ := hleads hl
      obtain rfl := Option.some.inj (hboards.member?.symm.trans hm)
      unfold destination
      rw [hp]
      rfl
  | @enters m stage ds waits _ _ aboard =>
      obtain ⟨request, _, hboards⟩ := aboard
      refine put_affects (c := c) (e := e) (d := c) (f := { e with stage }) rfl rfl rfl
        (fun _ => .same) (Or.inl rfl)
        ⟨Or.inl hof, fun k hk => hboards.works hk, fun hl => Or.inr ?_, fun hl k hk => ?_,
          fun q hq => ?_⟩
        hboards.own
      · exact hb.turn hl (by rw [waits]; exact nofun)
      · obtain rfl := Option.some.inj (hboards.member?.symm.trans hk)
        exact hb.seeks hl m (by rw [waits]; rfl)
      · have hnone := hb.tries q hq
        rw [waits] at hnone
        exact nomatch hnone
  | @connects m ds waits asks =>
      obtain ⟨request, _, rfl⟩ := asks
      refine put_affects (c := c) (e := e) (d := { c with pool := c.pool.connect m })
        (f := { e with stage := .exchanging m }) rfl rfl rfl (fun k => ?_) (Or.inl rfl)
        ⟨Or.inl hof, fun k hk => ?_, fun hl => Or.inr ?_, fun hl k hk => ?_, fun q hq => ?_⟩
        fun x hx => ?_
      · show Redrawn e.id _ ((c.pool.connect m).line k)
        rw [Pool.line_connect]
        exact .same
      · obtain hk | hk : Errand.Stage.exchanging m = _ ∨ Errand.Stage.exchanging m = _ := hk
        · exact nomatch hk
        · obtain rfl := Errand.Stage.exchanging.inj hk
          show (c.pool.connect m).holds m e.id = true
          rw [Pool.holds_of_line (c.pool.line_connect m m)]
          exact hb.works m (Or.inl waits)
      · exact hb.turn hl (by rw [waits]; exact nofun)
      · exact hb.seeks hl k (by rw [waits]; exact hk)
      · have hnone := hb.tries q hq
        rw [waits] at hnone
        exact nomatch hnone
      · rw [List.mem_singleton.1 hx]
        rfl
  | @unconnected m error waits =>
      refine settle_affects hq hof (fun hl => hb.turn hl (by rw [waits]; exact nofun))
        (fun k => ?_) _
      rw [Pool.line_leave]
      split
      · exact Or.inr rfl
      · exact Or.inl rfl
  | @exchanged m outcome pool waits kept =>
      refine settle_affects hq hof (fun hl => hb.turn hl (by rw [waits]; exact nofun))
        (fun k => ?_) _
      have hline : pool.line k = c.pool.line k := by
        rcases kept with rfl | rfl
        · rfl
        · exact c.pool.line_disconnect m k
      rw [Pool.line_leave, hline]
      split
      · exact Or.inr rfl
      · exact Or.inl rfl
  | wakes waits =>
      refine put_affects (c := c) (e := e) (d := c) (f := { e with stage := .ready }) rfl rfl rfl
        (fun _ => .same) (Or.inl rfl)
        ⟨Or.inl hof, fun _ hk => ?_, fun hl => Or.inr ?_, fun _ _ hk => (nomatch hk),
          fun _ _ => rfl⟩
        (List.forall_mem_nil _)
      · rcases hk with hk | hk <;> exact nomatch hk
      · exact hb.turn hl (by rw [waits]; exact nofun)

/-- An errand that closes the pool does not look for the leader, and works at no slot. -/
theorem behaves_of_closes {next : Nat} (h : e.Closes next) : d.Behaves e := by
  have hno : ¬ e.Leads := by
    rintro ⟨request, hp⟩
    rw [h.aim] at hp
    exact nomatch hp
  refine ⟨Or.inr ⟨next, h⟩, fun m hm => ?_, fun hl => absurd hl hno, fun hl => absurd hl hno,
    fun request hq => ?_⟩
  · rcases h.stage with hstage | hstage <;> rw [hstage] at hm <;>
      rcases hm with hm | hm <;> exact nomatch hm
  · rw [h.aim] at hq
    exact nomatch hq

theorem shuts_affects (hq : c.Queued) (he : e ∈ c.errands) (hb : c.Behaves e) {next : Nat}
    (hc : e.Closes next) {s : Signal} (h : c.Shuts e next s p) : c.Affects e p := by
  cases h with
  | rests _                => exact idle_affects hq he hb
  | ends _ _               => exact finish_affects hq rfl rfl (fun _ => Or.inl rfl) rfl rfl _
  | queues _ _ _           =>
      exact put_affects (c := c) (e := e) (d := { c with pool := c.pool.lineUp next e.id })
        (f := { e with stage := .awaitsSlot next }) rfl rfl rfl
        (fun m => c.pool.redrawn_lineUp next e.id m) (Or.inl rfl)
        (behaves_of_closes ⟨hc.aim, Or.inr rfl⟩) (List.forall_mem_nil _)
  | @empties pool lined _  =>
      refine put_affects (c := c) (e := e)
        (d := { c with pool := (pool.disconnect next).leave next e.id })
        (f := { e with aim := .close (next + 1), stage := .ready }) rfl rfl rfl (fun m => ?_)
        (Or.inl rfl) (behaves_of_closes ⟨rfl, Or.inl rfl⟩) (List.forall_mem_nil _)
      show Redrawn e.id _ (((pool.disconnect next).leave next e.id).line m)
      rw [Pool.line_leave, Pool.line_disconnect]
      rcases lined with ⟨_, rfl⟩ | ⟨hstage, hlisted, rfl⟩
      · split
        · exact .left
        · exact .same
      · -- who lines up and leaves at once leaves no trace
        have hout : e.id ∉ c.pool.line m := fun hin => by
          have hat := ((hq.stands he).itself m).1 hin
          rw [hstage] at hat
          exact nomatch hat
        rw [Pool.line_lineUp hlisted]
        split
        · rw [List.erase_append_right _ hout, List.erase_cons_head, List.append_nil]
          exact .same
        · exact .same

/-- **What a step of an errand does to the others**: nothing. -/
theorem step_affects (hq : c.Queued) {id : Nat} (hf : c.find? id = some e) (hb : c.Behaves e)
    (s : Signal) : c.Affects e (c.step id s) := by
  have he := List.mem_of_find?_eq_some hf
  rcases hb.kinds with hof | ⟨next, hc⟩
  · exact goes_affects hq he hb hof (step_goes hf hof s)
  · exact shuts_affects hq he hb hc (step_shuts hf hc s)

-- ── What an event leaves as it was ───────────────────────────────────────────────────────────────

/-- What an event leaves as it was for an errand that it is not about. -/
structure Spares (c : Courier) (i : Nat) (p : Step) : Prop where
  errand  : ∀ f : Errand, f.id = i → (f ∈ p.state.errands ↔ f ∈ c.errands)
  first   : ∀ m, c.pool.holds m i = true → p.state.pool.holds m i = true
  turn    : c.turn.holds i = true → p.state.turn.holds i = true
  guess   : c.turn.holds i = true → p.state.guess = c.guess
  demands : ∀ d ∈ p.demands, d.who ≠ i
  results : ∀ r ∈ p.results, r.1 ≠ i

/-- So it behaves as before. -/
theorem Spares.behaves (h : c.Spares f.id p) (hb : c.Behaves f) : p.state.Behaves f where
  kinds := hb.kinds
  works := fun m hm => h.first m (hb.works m hm)
  turns := fun hl => (hb.turns hl).imp_right h.turn
  seeks := by
    intro hl m hm
    have hturn : c.turn.holds f.id = true := by
      refine hb.turn hl fun hstage => ?_
      rw [hstage] at hm
      exact nomatch hm
    rw [h.guess hturn]
    exact hb.seeks hl m hm
  tries := hb.tries

theorem Affects.spares (h : c.Affects e p) {i : Nat} (hne : i ≠ e.id) : c.Spares i p where
  errand  := fun f hf => h.others f (hf ▸ hne)
  first   := fun m hm => Pool.holds_iff.2 ((h.lines m).head? hne (Pool.holds_iff.1 hm))
  turn    := fun ht => FairLock.holds_iff.2 (h.turn.head? hne (FairLock.holds_iff.1 ht))
  guess   := fun ht => h.guess.resolve_right fun ht' => hne (FairLock.holds_unique ht ht')
  demands := fun d hd hw => hne (hw.symm.trans (h.demands d hd))
  results := fun r hr hw => hne (hw.symm.trans (h.results r hr))

/-- What holds at any time: the lines and the errands agree, and every errand behaves. -/
structure Sound (c : Courier) : Prop where
  order   : c.InOrder
  queued  : c.Queued
  behaves : ∀ e ∈ c.errands, c.Behaves e

/-- Errands with new numbers are sent out. -/
theorem spares_of_append {fs : List Errand} (errands : d.errands = c.errands ++ fs)
    (hnew : ∀ f ∈ fs, c.fresh ≤ f.id) (lines : ∀ m, d.pool.line m = c.pool.line m)
    (turn : ∃ late, d.turn.line = c.turn.line ++ late) (guess : d.guess = c.guess) {i : Nat}
    (hi : i < c.fresh) : c.Spares i { state := d } where
  errand  := by
    intro f hf
    rw [errands, List.mem_append, or_iff_left fun hmem => ?_]
    have hle := hnew f hmem
    omega
  first   := fun m hm => by rw [Pool.holds_of_line (lines m)]; exact hm
  turn    := by
    intro ht
    obtain ⟨late, hlate⟩ := turn
    rw [FairLock.holds_iff] at ht ⊢
    rw [hlate, List.head?_append, ht]
    rfl
  guess   := fun _ => guess
  demands := fun _ hd => nomatch hd
  results := fun _ hr => nomatch hr

/-- **What an event leaves as it was**, if it is not about an errand: the errand, its places in
    line, and the belief who leads if the errand has its turn. -/
theorem happen_spares (h : c.Sound) {x : Event} {i : Nat} (hx : x.errand? ≠ some i)
    (hi : i < c.fresh) : c.Spares i (c.happen x) := by
  cases x with
  | number           =>
      exact spares_of_append (c := c) (d := c.takeNumber.2) (List.append_nil _).symm
        (List.forall_mem_nil _) (fun _ => rfl) ⟨[], (List.append_nil _).symm⟩ rfl hi
  | leads request    =>
      refine spares_of_append (c := c) (d := (c.beginLead request).2) rfl (fun f hf => ?_)
        (fun _ => rfl) ⟨[c.fresh], rfl⟩ rfl hi
      exact Nat.le_of_eq (congrArg Errand.id (List.mem_singleton.1 hf)).symm
  | records entry ws =>
      have heq : c.happen (.records entry ws) = { state := (c.beginRecords entry ws).2 } := rfl
      rw [heq, beginRecords_eq]
      refine spares_of_append (c := c)
        (d := { c with
          errands := c.errands ++ recordErrands entry c.knownTerm c.fresh ws
          fresh   := c.fresh + ws.length })
        rfl (fun f hf => ?_) (fun _ => rfl) ⟨[], (List.append_nil _).symm⟩ rfl hi
      obtain ⟨q, hq, rfl⟩ := List.mem_map.1 hf
      exact (List.mem_range'_1.1 (List.of_mem_zip hq).1).1
  | closes           =>
      refine spares_of_append (c := c) (d := (c.begin (.close 0)).2) rfl (fun f hf => ?_)
        (fun _ => rfl) ⟨[], (List.append_nil _).symm⟩ rfl hi
      exact Nat.le_of_eq (congrArg Errand.id (List.mem_singleton.1 hf)).symm
  | tells id s       =>
      have hne : i ≠ id := fun heq => hx (congrArg some heq.symm)
      cases hf : c.find? id with
      | none   =>
          have hidle : c.happen (.tells id s) = { state := c } := step_of_gone hf s
          rw [hidle]
          exact spares_of_append (List.append_nil _).symm (List.forall_mem_nil _) (fun _ => rfl)
            ⟨[], (List.append_nil _).symm⟩ rfl hi
      | some e =>
          have hid : e.id = id := by simpa using List.find?_some hf
          exact (step_affects h.queued hf (h.behaves e (List.mem_of_find?_eq_some hf)) s).spares
            (hid ▸ hne)
  | callsOff id      =>
      have hne : i ≠ id := fun heq => hx (congrArg some heq.symm)
      exact {
        errand  := fun f hf => by
          show f ∈ c.errands.filter _ ↔ _
          rw [List.mem_filter]
          exact and_iff_left (by simpa [hf] using hne)
        first   := fun m hm => Pool.holds_iff.2
          ((Pool.redrawn_leaveAll (h.queued.nodup m) (Or.inl rfl)).head? hne (Pool.holds_iff.1 hm))
        turn    := fun ht => FairLock.holds_iff.2
          (Redrawn.left.head? hne (FairLock.holds_iff.1 ht))
        guess   := fun _ => rfl
        demands := fun _ hd => nomatch hd
        results := fun _ hr => nomatch hr }

theorem happen_inOrder (h : c.InOrder) (x : Event) : (c.happen x).state.InOrder := by
  cases x with
  | number           => exact h.takeNumber
  | leads request    => exact (beginLead_setOut h request).order
  | records entry ws => exact (beginRecords_sentOut h entry ws).order
  | closes           => exact h.begin (.close 0) rfl
  | tells id s       => exact step_inOrder h id s
  | callsOff id      => exact h.abandon id

theorem happen_queued (ho : c.InOrder) (h : c.Queued) (x : Event) : (c.happen x).state.Queued := by
  cases x with
  | number           => exact ⟨h.distinct, h.nodup, h.lines, h.once, h.turns, h.fits⟩
  | leads request    => exact begin_queued h ho _
  | records entry ws => exact beginRecords_queued h ho entry ws
  | closes           => exact begin_queued h ho _
  | tells id s       => exact step_queued h id s
  | callsOff id      => exact (h.apart id).abandon

/-- An errand that was just sent out behaves. -/
theorem behaves_of_new (h : e.OfCall ∨ ∃ next, e.Closes next)
    (hstage : e.stage.member? = none) (hturn : e.Leads → e.stage = .awaitsTurn) : d.Behaves e := by
  refine ⟨h, fun m hm => ?_, fun hl => Or.inl (hturn hl), fun _ m hm => ?_, fun _ _ => hstage⟩
  · rcases hm with hm | hm <;> (rw [hm] at hstage; exact nomatch hstage)
  · exact nomatch hstage.symm.trans hm

/-- **Every event keeps it so.** -/
theorem sound_happen (h : c.Sound) (x : Event) : (c.happen x).state.Sound := by
  refine ⟨happen_inOrder h.order x, happen_queued h.order h.queued x, fun f hf => ?_⟩
  -- an errand from before that the event is not about is spared
  have hold : f ∈ c.errands → x.errand? ≠ some f.id → (c.happen x).state.Behaves f :=
    fun hf hx => (happen_spares h hx (h.order.numbered f hf)).behaves (h.behaves f hf)
  cases x with
  | number           => exact hold hf nofun
  | leads request    =>
      rcases List.mem_append.1 hf with hf | hf
      · exact hold hf nofun
      · rw [List.mem_singleton.1 hf]
        exact behaves_of_new (Or.inl (Or.inl ⟨request, rfl⟩)) rfl fun _ => rfl
  | records entry ws =>
      have hmem : f ∈ (c.beginRecords entry ws).2.errands := hf
      rw [beginRecords_eq] at hmem
      rcases List.mem_append.1 hmem with hf | hf
      · exact hold hf nofun
      · obtain ⟨q, _, rfl⟩ := List.mem_map.1 hf
        exact behaves_of_new (Or.inl (Or.inr ⟨q.2, entry, rfl⟩)) rfl fun ⟨_, hp⟩ => nomatch hp
  | closes           =>
      rcases List.mem_append.1 hf with hf | hf
      · exact hold hf nofun
      · rw [List.mem_singleton.1 hf]
        exact behaves_of_closes (⟨rfl, Or.inl rfl⟩ : Errand.Closes _ 0)
  | tells id s       =>
      cases hfound : c.find? id with
      | none   =>
          have hidle : c.happen (.tells id s) = { state := c } := step_of_gone hfound s
          rw [hidle] at hf ⊢
          exact h.behaves f hf
      | some e =>
          have hid : e.id = id := by simpa using List.find?_some hfound
          have haffects := step_affects h.queued hfound
            (h.behaves e (List.mem_of_find?_eq_some hfound)) s
          by_cases hsame : f.id = e.id
          · exact haffects.itself f hf hsame
          · exact hold ((haffects.others f hsame).1 hf) fun heq =>
              hsame ((Option.some.inj heq).symm.trans hid.symm)
  | callsOff id      =>
      obtain ⟨hf, hne⟩ := List.mem_filter.1 hf
      exact hold hf fun heq => by simp [Option.some.inj heq] at hne

/-- **Every run keeps it so.** -/
theorem sound_run (h : c.Sound) (xs : List Event) : (c.run xs).state.Sound := by
  induction xs generalizing c with
  | nil          => exact h
  | cons x xs ih => exact ih (sound_happen h x)

/-- A courier, later: the members are the same, and so is the length of a pause; an errand is one
    from before, with the purpose it had, or a new one. -/
structure Lasts (c d : Courier) : Prop extends Follows c d where
  backoff : d.backoff = c.backoff

theorem Lasts.trans {c₁ c₂ c₃ : Courier} (h : c₁.Lasts c₂) (h' : c₂.Lasts c₃) : c₁.Lasts c₃ :=
  ⟨h.toFollows.trans h'.toFollows, h'.backoff.trans h.backoff⟩

theorem happen_lasts (h : c.InOrder) (x : Event) : c.Lasts (c.happen x).state := by
  cases x with
  | number           => exact ⟨c.takeNumber_follows, rfl⟩
  | leads request    => exact ⟨c.begin_follows _, rfl⟩
  | records entry ws =>
      refine ⟨(beginRecords_sentOut h entry ws).follows, ?_⟩
      show (c.beginRecords entry ws).2.backoff = c.backoff
      rw [beginRecords_eq]
  | closes           => exact ⟨c.begin_follows _, rfl⟩
  | tells id s       =>
      show c.Lasts (c.step id s).state
      rcases step_advances h.placed id s with ⟨_, hidle⟩ | ⟨e, hf, _, hadv⟩
      · rw [hidle]
        exact ⟨.refl c, rfl⟩
      · exact ⟨hadv.follows (List.mem_of_find?_eq_some hf), hadv.keeps.backoff⟩
  | callsOff id      => exact ⟨c.abandon_follows id, rfl⟩

theorem run_lasts (h : c.InOrder) (xs : List Event) : c.Lasts (c.run xs).state := by
  induction xs generalizing c with
  | nil          => exact ⟨.refl c, rfl⟩
  | cons x xs ih => exact (happen_lasts h x).trans (ih (happen_inOrder h x))

/-- An errand that an event is not about is found as it was. -/
theorem Spares.find?_eq {i : Nat} (h : c.Spares i p) (hp : p.state.Queued) :
    p.state.find? i = c.find? i := by
  cases hf : c.find? i with
  | some f =>
      have hid : f.id = i := by simpa using List.find?_some hf
      have hmem := (h.errand f hid).2 (List.mem_of_find?_eq_some hf)
      rw [← hid]
      exact find?_of_mem hp.distinct hmem
  | none   =>
      refine List.find?_eq_none.2 fun f hf' => ?_
      rw [decide_eq_true_eq]
      intro hid
      have hmem := (h.errand f hid).1 hf'
      simpa [hid] using List.find?_eq_none.1 hf f hmem

/-- Events that are about no errand from before leave all of them as they were. -/
theorem mem_run_of_calm (h : c.Sound) (hf : f.id < c.fresh) {xs : List Event}
    (calm : ∀ y ∈ xs, y.errand? = none) : f ∈ (c.run xs).state.errands ↔ f ∈ c.errands := by
  induction xs generalizing c with
  | nil          => exact Iff.rfl
  | cons x xs ih =>
      have hx : x.errand? ≠ some f.id := by
        rw [calm x (List.mem_cons_self ..)]
        exact nofun
      exact (ih (sound_happen h x) (Nat.lt_of_lt_of_le hf (happen_lasts h.order x).fresh)
        fun y hy => calm y (List.mem_cons_of_mem x hy)).trans
        ((happen_spares h hx hf).errand f rfl)

/-- An errand that is gone does not come back. -/
theorem gone_happen (h : c.Sound) {id : Nat} (hid : id < c.fresh) (hgone : c.find? id = none)
    (x : Event) : (c.happen x).state.find? id = none := by
  by_cases hx : x.errand? = some id
  · cases x with
    | tells who s  =>
        obtain rfl := Option.some.inj hx
        rw [happen, step_of_gone hgone]
        exact hgone
    | callsOff who =>
        obtain rfl := Option.some.inj hx
        exact find?_abandon c who
    | _            => exact nomatch hx
  · exact ((happen_spares h hx hid).find?_eq (happen_queued h.order h.queued x)).trans hgone

theorem gone_run (h : c.Sound) {id : Nat} (hid : id < c.fresh) (hgone : c.find? id = none)
    (xs : List Event) : (c.run xs).state.find? id = none := by
  induction xs generalizing c with
  | nil          => exact hgone
  | cons x xs ih =>
      exact ih (sound_happen h x) (Nat.lt_of_lt_of_le hid (happen_lasts h.order x).fresh)
        (gone_happen h hid hgone x)

/-- What an event does to a line: nobody but the errand it is about joins it or leaves it. -/
theorem happen_redrawn (h : c.Sound) (x : Event) (m : Nat) :
    ∃ who, Redrawn who (c.pool.line m) ((c.happen x).state.pool.line m) ∧
      ((c.happen x).state.pool.line m = c.pool.line m ++ [who] → x.errand? = some who) := by
  have hnot : ∀ {l : List Nat} {who : Nat}, l ≠ l ++ [who] := by
    intro l who heq
    simp at heq
  cases x with
  | number           => exact ⟨0, .same, fun heq => absurd heq hnot⟩
  | leads request    => exact ⟨0, .same, fun heq => absurd heq hnot⟩
  | records entry ws =>
      have hline : (c.happen (.records entry ws)).state.pool.line m = c.pool.line m := by
        show (c.beginRecords entry ws).2.pool.line m = _
        rw [beginRecords_eq]
      rw [hline]
      exact ⟨0, .same, fun heq => absurd heq hnot⟩
  | closes           => exact ⟨0, .same, fun heq => absurd heq hnot⟩
  | tells id s       =>
      cases hf : c.find? id with
      | none   =>
          rw [happen, step_of_gone hf]
          exact ⟨0, .same, fun heq => absurd heq hnot⟩
      | some e =>
          have hid : e.id = id := by simpa using List.find?_some hf
          have haffects := step_affects h.queued hf (h.behaves e (List.mem_of_find?_eq_some hf)) s
          exact ⟨e.id, haffects.lines m, fun _ => congrArg some hid.symm⟩
  | callsOff id      =>
      exact ⟨id, Pool.redrawn_leaveAll (h.queued.nodup m) (Or.inl rfl), fun _ => rfl⟩

/-- Nothing is under way: there are no errands, and nobody stands in line. -/
structure AtRest (c : Courier) : Prop where
  guess   : c.guess < c.pool.size
  errands : c.errands = []
  lines   : ∀ m, c.pool.line m = []
  turn    : c.turn.line = []

/-- Where nothing is under way, all is as it should be. -/
theorem AtRest.sound (h : c.AtRest) : c.Sound := by
  have hnone : ∀ {P : Errand → Prop}, ∀ e ∈ c.errands, P e := by
    intro P e he
    rw [h.errands] at he
    exact nomatch he
  refine ⟨⟨h.guess, hnone, hnone⟩, ⟨?_, fun m => ?_, fun m i => ?_, ?_, fun i => ?_, hnone⟩, hnone⟩
  · rw [h.errands]
    exact List.nodup_nil
  · rw [h.lines]
    exact List.nodup_nil
  · rw [h.lines, h.errands]
    simp
  · rw [h.turn]
    exact List.nodup_nil
  · rw [h.turn, h.errands]
    simp

end Courier

/-- The courier of a session that was opened has nothing under way. -/
theorem Session.Opened.atRest {s : Session} (h : s.Opened) : s.courier.AtRest := by
  have hlined := h.lined
  have hnone : ∀ e, e ∉ s.courier.errands := fun e he => by
    rw [h.fresh.errands] at he
    exact nomatch he
  refine ⟨h.fresh.guess, h.fresh.errands, fun m => ?_, ?_⟩
  · refine List.eq_nil_iff_forall_not_mem.2 fun i hi => ?_
    obtain ⟨e, he, _⟩ := (hlined.lines m i).1 hi
    exact hnone e he
  · refine List.eq_nil_iff_forall_not_mem.2 fun i hi => ?_
    obtain ⟨e, he, _⟩ := (hlined.turns i).1 hi
    exact hnone e he

end WitnessReplication

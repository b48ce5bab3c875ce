import WitnessReplication.Client.Courier

/-!
# Courier steps — what one step of one errand does

    Every step of a courier is a step of one errand, which is told something.  There are only three
    things it can do to the errands: nothing, put the errand further on its way, or end it with an
    outcome.  What an errand is for never changes, and a good outcome is warranted: it comes from an
    exchange that the errand was waiting for, with a member that took the request.

* **`Errand.Purpose`** — what stays the same about an errand.
* **`Errand.Placed`** — an errand is at the slot of a member, a record at that of its witness.
* **`Errand.Warrants`** — what an outcome says of what has just happened.
* **`Courier.step_advances`** — the law, from one lemma for each of the functions of a step.
-/

namespace WitnessReplication

namespace Errand

/-! ## What stays the same about an errand -/

/-- What an errand is for, whatever it has come to so far. -/
inductive Purpose where
  | exchange (member : Nat) (request : Request)
  | lead (request : Request)
  | record (witness : Nat) (entry : LogEntry)
  | survey
  | close
  deriving DecidableEq, Inhabited

/-- What an aim is for. -/
def Aim.purpose : Aim → Purpose
  | .direct member request  => .exchange member request
  | .lead request _         => .lead request
  | .record witness entry _ => .record witness entry
  | .survey _ _             => .survey
  | .close _                => .close

/-- The one member that an errand is for, if it may go to no other. -/
def Purpose.target? : Purpose → Option Nat
  | .exchange member _ => some member
  | .record witness _  => some witness
  | _                  => none

/-- The member at whose slot an errand is. -/
def Stage.member? : Stage → Option Nat
  | .awaitsSlot m => some m
  | .connecting m => some m
  | .exchanging m => some m
  | _             => none

/-- A member is one of `size` members, and one that an errand may go to. -/
def Suits (size : Nat) (e : Errand) (m : Nat) : Prop :=
  m < size ∧ ∀ w, e.aim.purpose.target? = some w → m = w

/-- The members that an errand has reached so far, if it is out to reach them all. -/
def Aim.reached : Aim → List Nat
  | .survey _ reached => reached
  | _                 => []

/-- Whoever an errand has reached is one of `size` members. -/
def Reaches (size : Nat) (e : Errand) : Prop := ∀ m ∈ e.aim.reached, m < size

/-- An errand is at no slot, or at one that suits it, and has reached members only. -/
structure Placed (size : Nat) (e : Errand) : Prop where
  slot    : ∀ m, e.stage.member? = some m → e.Suits size m
  reached : e.Reaches size

/-- An errand waits for the reply of a member, and is told it. -/
def Hears (e : Errand) (s : Signal) (m : Nat) (reply : Reply) : Prop :=
  e.stage = .exchanging m ∧ s = .answered (.ok reply)

/-- What an outcome says of what has just happened: if it is good, the errand has heard from a
    member that took the request, or it has reached members only. -/
def Warrants (size : Nat) (e : Errand) (s : Signal) : Outcome → Prop
  | .led answer       =>
      (∃ request, e.aim.purpose = .lead request) ∧
        ∀ reply, answer = .ok reply → reply.accepted = true ∧ ∃ m, e.Hears s m reply
  | .recorded ok      =>
      (∃ w entry, e.aim.purpose = .record w entry) ∧
        (ok = true → ∃ m reply, reply.accepted = true ∧ e.Hears s m reply)
  | .surveyed reached => e.aim.purpose = .survey ∧ ∀ m ∈ reached, m < size
  | _                 => True

end Errand

namespace Pool

/-! ## The members never change -/

/-- The members, in order. -/
def members (p : Pool) : List Address := p.slots.map (·.address)

/-- As many members are as many slots. -/
theorem size_of_members {p q : Pool} (h : p.members = q.members) : p.size = q.size := by
  have hlength := congrArg List.length h
  rw [members, members, List.length_map, List.length_map] at hlength
  exact hlength

/-- The member at a place is read off the members. -/
theorem address_of_members {p q : Pool} (h : p.members = q.members) (i : Nat) :
    p.address i = q.address i := by
  have hget : ∀ r : Pool, r.address i = (r.members[i]?).getD ⟨""⟩ := by
    intro r
    rw [address, members, List.getElem?_map]
    cases r.slots[i]? <;> rfl
  rw [hget, hget, h]

theorem members_modify (p : Pool) (i : Nat) {f : Slot → Slot} (hf : ∀ s, (f s).address = s.address) :
    (p.modify i f).members = p.members := by
  refine List.ext_getElem? fun j => ?_
  show ((p.slots.modify i f).map _)[j]? = (p.slots.map _)[j]?
  rw [List.getElem?_map, List.getElem?_map, List.getElem?_modify]
  cases p.slots[j]? with
  | none   => rfl
  | some s =>
      by_cases hij : i = j
      · simp [hij, hf]
      · simp [hij]

@[simp] theorem members_lineUp (p : Pool) (i who : Nat) : (p.lineUp i who).members = p.members :=
  p.members_modify i fun _ => rfl

@[simp] theorem members_leave (p : Pool) (i who : Nat) : (p.leave i who).members = p.members :=
  p.members_modify i fun _ => rfl

@[simp] theorem members_connect (p : Pool) (i : Nat) : (p.connect i).members = p.members :=
  p.members_modify i fun _ => rfl

@[simp] theorem members_disconnect (p : Pool) (i : Nat) : (p.disconnect i).members = p.members :=
  p.members_modify i fun _ => rfl

@[simp] theorem members_leaveAll (p : Pool) (who : Nat) : (p.leaveAll who).members = p.members := by
  rw [members, leaveAll, List.map_map]
  rfl

end Pool

/-- A guess inside the list is followed by one inside the list. -/
theorem Locator.lt_of_retarget {p : Pool} {guess next : Nat}
    {outcome : Except TransportError Reply} (hg : guess < p.size)
    (h : Locator.verdict p guess outcome = .retarget next) : next < p.size := by
  have hround : Locator.next p guess < p.size := next_lt guess (Nat.zero_lt_of_lt hg)
  unfold Locator.verdict at h
  cases outcome with
  | error e  =>
      by_cases hk : e.kind = .malformed
      · simp only [hk, if_true] at h
        exact nomatch h
      · simp only [hk, if_false] at h
        obtain rfl : Locator.next p guess = next := Locator.Verdict.retarget.inj h
        exact hround
  | ok reply =>
      by_cases ha : reply.accepted = true
      · simp only [ha, if_true] at h
        exact nomatch h
      · cases hh : reply.hint with
        | none   =>
            simp only [ha, hh] at h
            exact nomatch h
        | some a =>
            simp only [ha, hh] at h
            obtain rfl := Locator.Verdict.retarget.inj h
            -- a member that is hinted at is found in the list, or the next one is taken
            cases hi : p.indexOf? a with
            | none   => exact hround
            | some i => exact (List.findIdx?_eq_some_iff_findIdx_eq.1 hi).1

namespace Courier

/-! ## What a step does -/

/-- What no step of an errand touches: the members, the numbers that were given, whether the pool is
    closed, and how long a pause is.  The member that is believed to lead is one of the members, if
    it was. -/
structure Keeps (c c' : Courier) : Prop where
  members : c'.pool.members = c.pool.members
  fresh   : c'.fresh = c.fresh
  guess   : c.guess < c.pool.size → c'.guess < c.pool.size
  closed  : c'.pool.closed = c.pool.closed
  backoff : c'.backoff = c.backoff

/-- The three things a step of an errand, told something, does to the errands. -/
inductive Turns (c : Courier) (e : Errand) (s : Signal) (p : Step) : Prop where
  /-- Nothing. -/
  | rests (errands : p.state.errands = c.errands) (results : p.results = [])
  /-- The errand goes on its way. -/
  | moves (e' : Errand) (id : e'.id = e.id) (purpose : e'.aim.purpose = e.aim.purpose)
      (placed : e'.Placed c.pool.size) (errands : p.state.errands = (c.put e').errands)
      (results : p.results = [])
  /-- The errand ends. -/
  | ends (outcome : Errand.Outcome) (warranted : e.Warrants c.pool.size s outcome)
      (errands : p.state.errands = (c.abandon e.id).errands)
      (results : p.results = [(e.id, outcome)])

/-- What a step of an errand does to the errands and to what they share. -/
structure Advances (c : Courier) (e : Errand) (s : Signal) (p : Step) : Prop where
  keeps : c.Keeps p.state
  turns : c.Turns e s p

variable {c : Courier} {e : Errand} {s : Signal} {p : Step}

theorem Keeps.size {c c' : Courier} (h : c.Keeps c') : c'.pool.size = c.pool.size :=
  Pool.size_of_members h.members

theorem Keeps.refl (c : Courier) : c.Keeps c := ⟨rfl, rfl, id, rfl, rfl⟩

/-- Only the pool has changed, and neither its members nor whether it is closed. -/
theorem Keeps.of_pool {pool : Pool} (h : pool.members = c.pool.members)
    (closed : pool.closed = c.pool.closed := by rfl) : c.Keeps { c with pool } :=
  ⟨h, rfl, id, closed, rfl⟩

theorem Keeps.trans {c₁ c₂ c₃ : Courier} (h : c₁.Keeps c₂) (h' : c₂.Keeps c₃) : c₁.Keeps c₃ := by
  refine ⟨h'.members.trans h.members, h'.fresh.trans h.fresh, ?_, h'.closed.trans h.closed,
    h'.backoff.trans h.backoff⟩
  intro hg
  have hg' := h.guess hg
  rw [← h.size] at hg' ⊢
  exact h'.guess hg'

/-- A step may begin with a change to what the errands share. -/
theorem Advances.of_keeps {d : Courier} (h : d.Advances e s p) (hk : c.Keeps d)
    (he : d.errands = c.errands) : c.Advances e s p := by
  refine ⟨hk.trans h.keeps, ?_⟩
  cases h.turns with
  | rests errands results                       => exact .rests (errands.trans he) results
  | moves e' id purpose placed errands results  =>
      refine .moves e' id purpose (hk.size ▸ placed) ?_ results
      rw [errands]
      show d.errands.map _ = c.errands.map _
      rw [he]
  | ends outcome warranted errands results      =>
      refine .ends outcome (hk.size ▸ warranted) ?_ results
      rw [errands]
      show d.errands.filter _ = c.errands.filter _
      rw [he]

/-- A step may begin with a change to what an errand has come to. -/
theorem Advances.of_errand {f : Errand} (h : c.Advances f s p) (hid : f.id = e.id)
    (hp : f.aim.purpose = e.aim.purpose) (hs : f.stage = e.stage) : c.Advances e s p := by
  refine ⟨h.keeps, ?_⟩
  cases h.turns with
  | rests errands results                      => exact .rests errands results
  | moves e' id purpose placed errands results =>
      exact .moves e' (id.trans hid) (purpose.trans hp) placed errands results
  | ends outcome warranted errands results     =>
      refine .ends outcome ?_ (hid ▸ errands) (hid ▸ results)
      have hhears : ∀ m reply, f.Hears s m reply → e.Hears s m reply :=
        fun m reply h => ⟨hs ▸ h.1, h.2⟩
      cases outcome with
      | led answer  =>
          refine ⟨hp ▸ warranted.1, fun reply hr => ?_⟩
          obtain ⟨hacc, m, hm⟩ := warranted.2 reply hr
          exact ⟨hacc, m, hhears m reply hm⟩
      | recorded ok =>
          refine ⟨hp ▸ warranted.1, fun hok => ?_⟩
          obtain ⟨m, reply, hacc, hm⟩ := warranted.2 hok
          exact ⟨m, reply, hacc, hhears m reply hm⟩
      | surveyed _  => exact ⟨hp ▸ warranted.1, warranted.2⟩
      | replied _   => trivial
      | closed      => trivial

/-! ## The functions of a step, one by one -/

theorem idle_advances (c : Courier) (e : Errand) (s : Signal) : c.Advances e s { state := c } :=
  ⟨.refl c, .rests rfl rfl⟩

theorem finish_advances {outcome : Errand.Outcome} (h : e.Warrants c.pool.size s outcome) :
    c.Advances e s (c.finish e outcome) :=
  ⟨⟨c.pool.members_leaveAll e.id, rfl, id, rfl, rfl⟩, .ends outcome h rfl rfl⟩

theorem wait_advances {stage : Errand.Stage} (hr : e.Reaches c.pool.size)
    (h : ∀ m, stage.member? = some m → e.Suits c.pool.size m) :
    c.Advances e s (c.wait e stage) :=
  ⟨⟨rfl, rfl, id, rfl, rfl⟩, .moves { e with stage } rfl rfl ⟨h, hr⟩ rfl rfl⟩

theorem await_advances {stage : Errand.Stage} {demand : Demand Nat} (hr : e.Reaches c.pool.size)
    (h : ∀ m, stage.member? = some m → e.Suits c.pool.size m) :
    c.Advances e s (c.await e stage demand) :=
  ⟨⟨rfl, rfl, id, rfl, rfl⟩, .moves { e with stage } rfl rfl ⟨h, hr⟩ rfl rfl⟩

/-- What an exchange came to is settled; a reply, if there is one, was heard. -/
theorem settle_advances {outcome : Except TransportError Reply}
    (h : ∀ reply, outcome = .ok reply → ∃ m, e.Hears s m reply) :
    c.Advances e s (c.settle e outcome) := by
  obtain ⟨id, aim, stage⟩ := e
  cases aim with
  | direct member request => exact finish_advances trivial
  | lead request tries    =>
      have hlead : (∃ q, (Errand.Aim.lead request tries).purpose = .lead q) := ⟨request, rfl⟩
      -- the tries that are left say nothing about the errand that a step could not
      refine Advances.of_errand (f := ⟨id, .lead request (tries - 1), stage⟩) ?_ rfl rfl rfl
      unfold settle
      dsimp only
      cases hv : Locator.verdict c.pool c.guess outcome with
      | accepted reply  =>
          obtain ⟨rfl, hacc⟩ := Locator.verdict_eq_accepted_iff.1 hv
          refine finish_advances ⟨hlead, fun reply' hr => ?_⟩
          obtain rfl : reply = reply' := Except.ok.inj hr
          exact ⟨hacc, h reply rfl⟩
      | malformed error => exact finish_advances ⟨hlead, fun _ hr => nomatch hr⟩
      | retarget guess  =>
          refine Advances.of_keeps (d := { c with guess }) (wait_advances nofun nofun) ?_ rfl
          exact ⟨rfl, rfl, fun hg => Locator.lt_of_retarget hg hv, rfl, rfl⟩
      | backOff         => exact await_advances nofun nofun
  | record w entry term   =>
      have hrecord : ∃ w' e', (Errand.Aim.record w entry term).purpose = .record w' e' :=
        ⟨w, entry, rfl⟩
      cases outcome with
      | error error => exact finish_advances ⟨hrecord, nofun⟩
      | ok reply    =>
          rw [settle]
          dsimp only
          split
          · rename_i hacc
            refine finish_advances ⟨hrecord, fun _ => ?_⟩
            obtain ⟨m, hm⟩ := h reply rfl
            exact ⟨m, reply, hacc, hm⟩
          · exact Advances.of_keeps (finish_advances ⟨hrecord, nofun⟩)
              ⟨rfl, rfl, fun hg => hg, rfl, rfl⟩ rfl
  | survey next reached   => exact idle_advances ..
  | close next            => exact idle_advances ..

theorem moveOn_advances {member : Nat} (hr : e.Reaches c.pool.size) (hm : member < c.pool.size)
    (reached : Bool) : c.Advances e s (c.moveOn e member reached) := by
  have hsize := c.pool.size_leave member e.id
  have hkeeps : c.Keeps { c with pool := c.pool.leave member e.id } :=
    .of_pool (c.pool.members_leave member e.id)
  obtain ⟨id, aim, stage⟩ := e
  rw [moveOn]
  dsimp only
  cases aim with
  | survey next seen      =>
      refine Advances.of_keeps (Advances.of_errand (wait_advances ?_ nofun) rfl rfl rfl) hkeeps rfl
      intro m hmem
      show m < (c.pool.leave member id).size
      rw [hsize]
      have hmem' : m ∈ if reached then seen ++ [member] else seen := hmem
      split at hmem'
      · rcases List.mem_append.1 hmem' with hmem' | hmem'
        · exact hr m hmem'
        · rw [List.mem_singleton.1 hmem']
          exact hm
      · exact hr m hmem'
  | close next            =>
      exact Advances.of_keeps (Advances.of_errand (wait_advances nofun nofun) rfl rfl rfl) hkeeps rfl
  | direct member request => exact (idle_advances ..).of_keeps hkeeps rfl
  | lead request tries    => exact (idle_advances ..).of_keeps hkeeps rfl
  | record w entry term   => exact (idle_advances ..).of_keeps hkeeps rfl

/-- An errand goes to a slot only if it suits it. -/
theorem use_advances {member : Nat} (hr : e.Reaches c.pool.size)
    (h : e.Suits c.pool.size member) : c.Advances e s (c.use e member) := by
  rw [use]
  split
  · refine await_advances hr fun m hm => ?_
    obtain rfl : member = m := Option.some.inj hm
    exact h
  · exact moveOn_advances hr h.1 true

theorem enter_advances {member : Nat} (hr : e.Reaches c.pool.size)
    (h : e.Suits c.pool.size member) : c.Advances e s (c.enter e member) := by
  rw [enter]
  split
  · have hsize := c.pool.size_disconnect member
    exact (moveOn_advances (hsize.symm ▸ hr) (hsize.symm ▸ h.1) false).of_keeps
      (.of_pool (c.pool.members_disconnect member)) rfl
  · split
    · exact use_advances hr h
    · refine await_advances hr fun m hm => ?_
      obtain rfl : member = m := Option.some.inj hm
      exact h

theorem enterOrWait_advances {member : Nat} (hr : e.Reaches c.pool.size)
    (h : e.Suits c.pool.size member) : c.Advances e s (c.enterOrWait e member) := by
  rw [enterOrWait]
  split
  · exact enter_advances hr h
  · refine wait_advances hr fun m hm => ?_
    obtain rfl : member = m := Option.some.inj hm
    exact h

/-- An errand lines up at a slot that suits it. -/
theorem lineUp_advances {member : Nat} (hr : e.Reaches c.pool.size)
    (h : e.Suits c.pool.size member) :
    c.Advances e s ({ c with pool := c.pool.lineUp member e.id }.enterOrWait e member) := by
  have hsize := c.pool.size_lineUp member e.id
  exact (enterOrWait_advances (hsize.symm ▸ hr) (hsize.symm ▸ h)).of_keeps
    (.of_pool (c.pool.members_lineUp member e.id)) rfl

/-- The pool lets an errand line up only at a slot that there is. -/
theorem visit_advances {member : Nat} (hr : e.Reaches c.pool.size)
    (h : ∀ w, e.aim.purpose.target? = some w → member = w) :
    c.Advances e s (c.visit e member) := by
  rw [visit]
  split
  · exact settle_advances nofun
  · rename_i pool hpool
    obtain ⟨_, hlt, rfl⟩ := Pool.enroll_eq_ok_iff.1 hpool
    exact lineUp_advances hr ⟨hlt, h⟩

theorem setOff_advances (hr : e.Reaches c.pool.size) : c.Advances e s (c.setOff e) := by
  obtain ⟨id, aim, stage⟩ := e
  cases aim with
  | direct member request => exact visit_advances hr fun w hw => Option.some.inj hw
  | lead request tries    =>
      cases tries with
      | zero   => exact finish_advances ⟨⟨request, rfl⟩, nofun⟩
      | succ n => exact visit_advances hr nofun
  | record w entry term   =>
      have hvisit : c.Advances ⟨id, .record w entry c.knownTerm, stage⟩ s
          (c.visit ⟨id, .record w entry c.knownTerm, stage⟩ w) :=
        visit_advances nofun fun w' hw => Option.some.inj hw
      exact hvisit.of_errand rfl rfl rfl
  | survey next reached   =>
      rw [setOff]
      dsimp only
      split
      · rename_i hlt
        exact lineUp_advances hr ⟨hlt, nofun⟩
      · exact finish_advances ⟨rfl, hr⟩
  | close next            =>
      rw [setOff]
      dsimp only
      split
      · rename_i hlt
        exact lineUp_advances hr ⟨hlt, nofun⟩
      · exact finish_advances trivial

theorem proceed_advances (h : e.Placed c.pool.size) : c.Advances e s (c.proceed e) := by
  rw [proceed]
  split
  · exact setOff_advances h.reached
  · split
    · exact setOff_advances h.reached
    · exact idle_advances ..
  · rename_i m hstage
    split
    · exact enter_advances h.reached (h.slot m (by rw [hstage]; rfl))
    · exact idle_advances ..
  · exact idle_advances ..

theorem connected_advances {outcome : Except TransportError Unit} (h : e.Placed c.pool.size) :
    c.Advances e s (c.connected e outcome) := by
  unfold connected
  split
  · rename_i m _ hstage
    have hsuits := h.slot m (by rw [hstage]; rfl)
    have hsize := c.pool.size_connect m
    exact (use_advances (hsize.symm ▸ h.reached) (hsize.symm ▸ hsuits)).of_keeps
      (.of_pool (c.pool.members_connect m)) rfl
  · rename_i m error hstage
    split
    · -- a failed connection is settled like a failed exchange
      have hsettle : ({ c with pool := c.pool.leave m e.id } : Courier).Advances e s
          ({ c with pool := c.pool.leave m e.id }.settle e (.error error)) := settle_advances nofun
      exact hsettle.of_keeps (.of_pool (c.pool.members_leave m e.id)) rfl
    · -- an errand without a request has nothing to settle and goes on to the next member
      exact moveOn_advances h.reached (h.slot m (by rw [hstage]; rfl)).1 false
  · exact idle_advances ..

/-- The one step at which an errand hears from a member. -/
theorem answered_advances (c : Courier) (e : Errand) (outcome : Except TransportError Reply) :
    c.Advances e (.answered outcome) (c.answered e outcome) := by
  rw [answered]
  split
  · rename_i m hstage
    refine (settle_advances fun reply hr => ⟨m, hstage, hr ▸ rfl⟩).of_keeps
      (.of_pool ?members ?closed) rfl
    case members =>
      rw [Pool.members_leave]
      split
      · rfl
      · exact c.pool.members_disconnect m
    case closed  => split <;> rfl
  · exact idle_advances ..

theorem rested_advances (h : e.Placed c.pool.size) : c.Advances e s (c.rested e) := by
  rw [rested]
  split
  · exact wait_advances h.reached nofun
  · exact idle_advances ..

/-- **What a step does**: it puts the errand that is told something on its way, or ends it, or does
    nothing.  If there is no such errand it does nothing. -/
theorem step_advances (h : ∀ e ∈ c.errands, e.Placed c.pool.size) (id : Nat) (s : Signal) :
    (c.find? id = none ∧ c.step id s = { state := c }) ∨
      ∃ e, c.find? id = some e ∧ e.id = id ∧ c.Advances e s (c.step id s) := by
  cases hf : c.find? id with
  | none   => exact Or.inl ⟨rfl, by rw [step, hf]⟩
  | some e =>
      have hid : e.id = id := by simpa using List.find?_some hf
      have hplaced : e.Placed c.pool.size := h e (List.mem_of_find?_eq_some hf)
      refine Or.inr ⟨e, rfl, hid, ?_⟩
      rw [step, hf]
      cases s with
      | proceed           => exact proceed_advances hplaced
      | connected outcome => exact connected_advances hplaced
      | answered outcome  => exact answered_advances c e outcome
      | rested            => exact rested_advances hplaced
      | expired           => exact idle_advances c e _

/-! ## Errands along a run -/

/-- The member that is believed to lead is one of the members, every errand is at a slot that suits
    it, and every errand has a number that was given. -/
structure InOrder (c : Courier) : Prop where
  guess    : c.guess < c.pool.size
  placed   : ∀ e ∈ c.errands, e.Placed c.pool.size
  numbered : ∀ e ∈ c.errands, e.id < c.fresh

/-- A courier, later: an errand is one from before, with the purpose it had, or has a number that
    was not given before. -/
structure Follows (c c' : Courier) : Prop where
  members : c'.pool.members = c.pool.members
  fresh   : c.fresh ≤ c'.fresh
  errands : ∀ e' ∈ c'.errands,
    (∃ e ∈ c.errands, e.id = e'.id ∧ e.aim.purpose = e'.aim.purpose) ∨ c.fresh ≤ e'.id

theorem Follows.size {c c' : Courier} (h : c.Follows c') : c'.pool.size = c.pool.size :=
  Pool.size_of_members h.members

theorem Follows.refl (c : Courier) : c.Follows c :=
  ⟨rfl, Nat.le_refl _, fun e he => Or.inl ⟨e, he, rfl, rfl⟩⟩

theorem Follows.trans {c₁ c₂ c₃ : Courier} (h : c₁.Follows c₂) (h' : c₂.Follows c₃) :
    c₁.Follows c₃ := by
  refine ⟨h'.members.trans h.members, Nat.le_trans h.fresh h'.fresh, ?_⟩
  intro e₃ he₃
  rcases h'.errands e₃ he₃ with ⟨e₂, he₂, hid, hp⟩ | hlt
  · rcases h.errands e₂ he₂ with ⟨e₁, he₁, hid', hp'⟩ | hlt
    · exact Or.inl ⟨e₁, he₁, hid'.trans hid, hp'.trans hp⟩
    · exact Or.inr (hid ▸ hlt)
  · exact Or.inr (Nat.le_trans h.fresh hlt)

/-- An errand of a later courier under a number that was given before has the purpose that every
    errand of this number had. -/
theorem Follows.purpose {c c' : Courier} (h : c.Follows c') {i : Nat} (hi : i < c.fresh)
    {purpose : Errand.Purpose} (hp : ∀ e ∈ c.errands, e.id = i → e.aim.purpose = purpose) :
    ∀ e ∈ c'.errands, e.id = i → e.aim.purpose = purpose := by
  intro e' he' hid
  rcases h.errands e' he' with ⟨e, he, hid', hp'⟩ | hlt
  · exact hp'.symm.trans (hp e he (hid'.trans hid))
  · omega

/-- A number is taken. -/
theorem takeNumber_follows (c : Courier) : c.Follows c.takeNumber.2 :=
  ⟨rfl, Nat.le_succ _, fun e he => Or.inl ⟨e, he, rfl, rfl⟩⟩

theorem InOrder.takeNumber (h : c.InOrder) : c.takeNumber.2.InOrder :=
  ⟨h.guess, h.placed, fun e he => Nat.lt_succ_of_lt (h.numbered e he)⟩

/-- An errand is called off. -/
theorem abandon_follows (c : Courier) (id : Nat) : c.Follows (c.abandon id) :=
  ⟨c.pool.members_leaveAll id, Nat.le_refl _,
    fun e he => Or.inl ⟨e, (List.mem_filter.1 he).1, rfl, rfl⟩⟩

theorem InOrder.abandon (h : c.InOrder) (id : Nat) : (c.abandon id).InOrder := by
  have hsize : (c.abandon id).pool.size = c.pool.size := c.pool.size_leaveAll id
  refine ⟨hsize ▸ h.guess, fun e he => ?_, fun e he => ?_⟩
  · exact hsize ▸ h.placed e (List.mem_filter.1 he).1
  · exact h.numbered e (List.mem_filter.1 he).1

/-- The errands after one was sent out: it is the last one, and its number is new. -/
theorem errands_begin (c : Courier) (aim : Errand.Aim) :
    (c.begin aim).1 = c.fresh ∧ (c.begin aim).2.fresh = c.fresh + 1 ∧
      (c.begin aim).2.guess = c.guess ∧ (c.begin aim).2.pool.members = c.pool.members ∧
      (c.begin aim).2.knownTerm = c.knownTerm ∧
      ∃ stage, stage.member? = none ∧
        (c.begin aim).2.errands = c.errands ++ [⟨c.fresh, aim, stage⟩] := by
  cases aim with
  | lead request tries => exact ⟨rfl, rfl, rfl, rfl, rfl, .awaitsTurn, rfl, rfl⟩
  | close next         => exact ⟨rfl, rfl, rfl, rfl, rfl, .ready, rfl, rfl⟩
  | direct m request   => exact ⟨rfl, rfl, rfl, rfl, rfl, .ready, rfl, rfl⟩
  | record w entry t   => exact ⟨rfl, rfl, rfl, rfl, rfl, .ready, rfl, rfl⟩
  | survey next seen   => exact ⟨rfl, rfl, rfl, rfl, rfl, .ready, rfl, rfl⟩

theorem begin_follows (c : Courier) (aim : Errand.Aim) : c.Follows (c.begin aim).2 := by
  obtain ⟨_, hfresh, _, hmembers, _, stage, _, herrands⟩ := c.errands_begin aim
  refine ⟨hmembers, hfresh ▸ Nat.le_succ _, fun e he => ?_⟩
  rw [herrands] at he
  rcases List.mem_append.1 he with he | he
  · exact Or.inl ⟨e, he, rfl, rfl⟩
  · rw [List.mem_singleton.1 he]
    exact Or.inr (Nat.le_refl _)

theorem InOrder.begin (h : c.InOrder) (aim : Errand.Aim) (ha : aim.reached = []) :
    (c.begin aim).2.InOrder := by
  obtain ⟨_, hfresh, hguess, hmembers, _, stage, hnone, herrands⟩ := c.errands_begin aim
  have hsize := Pool.size_of_members hmembers
  refine ⟨?_, fun e he => ?_, fun e he => ?_⟩
  · rw [hguess, hsize]
    exact h.guess
  · rw [herrands] at he
    rw [hsize]
    rcases List.mem_append.1 he with he | he
    · exact h.placed e he
    · rw [List.mem_singleton.1 he]
      refine ⟨fun m hm => ?_, fun m hm => ?_⟩
      · rw [hnone] at hm
        exact nomatch hm
      · have hm' : m ∈ aim.reached := hm
        rw [ha] at hm'
        exact nomatch hm'
  · rw [herrands] at he
    rw [hfresh]
    rcases List.mem_append.1 he with he | he
    · exact Nat.lt_succ_of_lt (h.numbered e he)
    · rw [List.mem_singleton.1 he]
      exact Nat.lt_succ_self _

/-- An errand that was sent out has the purpose of its aim. -/
theorem purpose_begin (h : c.InOrder) (aim : Errand.Aim) :
    ∀ e ∈ (c.begin aim).2.errands, e.id = (c.begin aim).1 → e.aim.purpose = aim.purpose := by
  obtain ⟨hid, _, _, _, _, stage, _, herrands⟩ := c.errands_begin aim
  intro e he heid
  rw [herrands] at he
  rcases List.mem_append.1 he with he | he
  · -- the errands from before have smaller numbers
    have hlt := h.numbered e he
    omega
  · rw [List.mem_singleton.1 he]

/-- What it means that a request was sent out to the leader: it has an errand of its own, with a
    number that was not given before. -/
structure SetOut (c : Courier) (request : Request) (id : Nat) (c' : Courier) : Prop where
  follows : c.Follows c'
  order   : c'.InOrder
  guess   : c'.guess = c.guess
  given   : id < c'.fresh
  purpose : ∀ e ∈ c'.errands, e.id = id → e.aim.purpose = .lead request

theorem beginLead_setOut (h : c.InOrder) (request : Request) :
    c.SetOut request (c.beginLead request).1 (c.beginLead request).2 := by
  obtain ⟨hid, hfresh, hguess, _⟩ := c.errands_begin (.lead request c.pool.size)
  refine ⟨c.begin_follows _, h.begin _ rfl, hguess, ?_, purpose_begin h _⟩
  rw [beginLead, hid, hfresh]
  exact Nat.lt_succ_self _

/-- What it means that records were sent out to witnesses: each has an errand of its own, with a
    number that was not given before. -/
structure SentOut (c : Courier) (entry : LogEntry) (ws : List Nat) (ids : List Nat)
    (c' : Courier) : Prop where
  follows : c.Follows c'
  order   : c'.InOrder
  guess   : c'.guess = c.guess
  length  : ids.length = ws.length
  given   : ∀ i ∈ ids, i < c'.fresh
  purpose : ∀ p ∈ ids.zip ws, ∀ e ∈ c'.errands, e.id = p.1 → e.aim.purpose = .record p.2 entry

theorem beginRecords_sentOut (h : c.InOrder) (entry : LogEntry) (ws : List Nat) :
    c.SentOut entry ws (c.beginRecords entry ws).1 (c.beginRecords entry ws).2 := by
  -- on the witnesses; the errand of the first one keeps its purpose while the others are sent out
  induction ws generalizing c with
  | nil          =>
      exact ⟨.refl c, h, rfl, rfl, (fun _ hi => nomatch hi), (fun _ hp => nomatch hp)⟩
  | cons w ws ih =>
      obtain ⟨hid, hfresh, hguess, _⟩ := c.errands_begin (.record w entry c.knownTerm)
      have hrest := ih (h.begin (.record w entry c.knownTerm) rfl)
      have hlt : (c.begin (.record w entry c.knownTerm)).1 <
          (c.begin (.record w entry c.knownTerm)).2.fresh := by omega
      refine ⟨(c.begin_follows _).trans hrest.follows, hrest.order, hrest.guess.trans hguess,
        congrArg (· + 1) hrest.length, ?given, ?purpose⟩
      case given =>
        intro i hi
        rcases List.mem_cons.1 hi with rfl | hi
        · exact Nat.lt_of_lt_of_le hlt hrest.follows.fresh
        · exact hrest.given i hi
      case purpose =>
        intro p hp
        rcases List.mem_cons.1 hp with rfl | hp
        · exact hrest.follows.purpose hlt (purpose_begin h _)
        · exact hrest.purpose p hp

/-- An errand that is put on its way, or ended, is the only one that changes. -/
theorem Advances.follows (h : c.Advances e s p) (he : e ∈ c.errands) : c.Follows p.state := by
  refine ⟨h.keeps.members, Nat.le_of_eq h.keeps.fresh.symm, fun e' he' => Or.inl ?_⟩
  cases h.turns with
  | rests errands _                         => exact ⟨e', errands ▸ he', rfl, rfl⟩
  | moves moved id purpose _ errands _      =>
      rw [errands] at he'
      obtain ⟨f, hf, rfl⟩ := List.mem_map.1 he'
      -- whatever has the number of the errand that moved is that errand now
      by_cases hid : f.id = moved.id
      · rw [if_pos hid]
        exact ⟨e, he, id.symm, purpose.symm⟩
      · rw [if_neg hid]
        exact ⟨f, hf, rfl, rfl⟩
  | ends _ _ errands _                      =>
      rw [errands] at he'
      exact ⟨e', (List.mem_filter.1 he').1, rfl, rfl⟩

theorem Advances.inOrder (h : c.Advances e s p) (he : e ∈ c.errands) (hc : c.InOrder) :
    p.state.InOrder := by
  have hall : ∀ e' ∈ p.state.errands, e'.Placed c.pool.size ∧ e'.id < c.fresh := by
    intro e' he'
    cases h.turns with
    | rests errands _                          =>
        rw [errands] at he'
        exact ⟨hc.placed e' he', hc.numbered e' he'⟩
    | moves moved id purpose placed errands _  =>
        rw [errands] at he'
        obtain ⟨f, hf, rfl⟩ := List.mem_map.1 he'
        split
        · exact ⟨placed, id.symm ▸ hc.numbered e he⟩
        · exact ⟨hc.placed f hf, hc.numbered f hf⟩
    | ends _ _ errands _                       =>
        rw [errands] at he'
        have hmem := (List.mem_filter.1 he').1
        exact ⟨hc.placed e' hmem, hc.numbered e' hmem⟩
  refine ⟨?_, fun e' he' => ?_, fun e' he' => ?_⟩
  · exact h.keeps.size ▸ h.keeps.guess hc.guess
  · exact h.keeps.size ▸ (hall e' he').1
  · exact h.keeps.fresh ▸ (hall e' he').2

end Courier

end WitnessReplication

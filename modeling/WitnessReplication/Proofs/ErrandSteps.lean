import WitnessReplication.Proofs.CourierSteps

/-!
# Errand steps — what an errand of a call does, signal by signal

    The errands of a call are of two kinds: one takes a request to the leader, the others take a
    record to a witness each.  Both go through the same stages, and a step of either is one of a few
    things: it keeps waiting, lines up at a slot, gets further there, or is done at the slot and
    settles what came of it.  Here each of them is written down in full, with the state after it, so
    that whatever is to be shown of errands is shown by looking at these cases.

* **`Courier.Goes`** — the cases, and **`step_goes`**, that there are no others.
* **`Courier.SettlesLead`** — what settling comes to for an errand to the leader.
* **`settle_record`** — for an errand to a witness.
* **`beginRecords_eq`** — the errands that set out to the witnesses, with their numbers.
-/

namespace WitnessReplication

namespace Errand

/-- The errand takes a request to the leader. -/
def Leads (e : Errand) : Prop := ∃ request, e.aim.purpose = .lead request

/-- The errand takes a record to a witness. -/
def Notes (e : Errand) : Prop := ∃ witness entry, e.aim.purpose = .record witness entry

/-- The errand is one that a call sends out. -/
def OfCall (e : Errand) : Prop := e.Leads ∨ e.Notes

theorem not_leads_of_notes {e : Errand} (h : e.Notes) : ¬ e.Leads := by
  obtain ⟨w, entry, h⟩ := h
  rintro ⟨request, h'⟩
  rw [h] at h'
  exact nomatch h'

theorem ofCall_of_purpose {e f : Errand} (h : e.OfCall) (hp : f.aim.purpose = e.aim.purpose) :
    f.OfCall := by
  rwa [OfCall, Leads, Notes, hp]

/-- An errand of a call has a request to make. -/
theorem OfCall.request {e : Errand} (h : e.OfCall) : ∃ request, e.aim.request? = some request := by
  obtain ⟨id, aim, stage⟩ := e
  rcases h with ⟨_, h⟩ | ⟨_, _, h⟩ <;> cases aim <;> first | exact ⟨_, rfl⟩ | exact nomatch h

/-- How far an errand at a stage is from the end of its try. -/
def Stage.effort : Stage → Nat
  | .awaitsTurn   => 5
  | .backingOff   => 5
  | .ready        => 4
  | .awaitsSlot _ => 3
  | .connecting _ => 2
  | .exchanging _ => 1

theorem Stage.effort_pos (stage : Stage) : 0 < stage.effort := by
  cases stage <;> exact Nat.succ_pos _

theorem Stage.effort_le (stage : Stage) : stage.effort ≤ 5 := by
  cases stage <;> simp [effort]

/-- Whoever is at a slot is past the way there. -/
theorem Stage.effort_le_of_member {stage : Stage} {m : Nat}
    (h : stage.member? = some m) : stage.effort ≤ 3 := by
  cases stage with
  | awaitsSlot _ | connecting _ | exchanging _ => simp [effort]
  | ready | awaitsTurn | backingOff            => exact nomatch h

/-- Whoever is first in line is past the waiting there. -/
theorem Stage.effort_lt_awaitsSlot {stage : Stage} {m : Nat}
    (h : stage = .connecting m ∨ stage = .exchanging m) :
    stage.effort < (awaitsSlot m).effort := by
  rcases h with rfl | rfl
  · exact Nat.lt_succ_self 2
  · exact Nat.lt_succ_of_lt (Nat.lt_succ_self 1)

end Errand

namespace Courier

variable {c : Courier} {e : Errand}

/-- The member to which an errand of a call sets off: its witness, or whoever is believed to lead. -/
def destination (c : Courier) (e : Errand) : Nat := e.aim.purpose.target?.getD c.guess

/-- An errand sets off when it is ready, or when its turn has come. -/
def setsOff (c : Courier) (e : Errand) : Bool :=
  match e.stage with
  | .ready      => true
  | .awaitsTurn => c.turn.holds e.id
  | _           => false

/-- An errand that sets off is at no slot. -/
theorem member?_of_setsOff (free : c.setsOff e = true) : e.stage.member? = none := by
  cases hstage : e.stage <;> simp [setsOff, hstage, Errand.Stage.member?] at free ⊢

/-- Whoever may set off has the whole try before it. -/
theorem effort_of_setsOff (h : c.setsOff e = true) : 4 ≤ e.stage.effort := by
  unfold setsOff at h
  split at h
  · rename_i hstage
    simp [hstage, Errand.Stage.effort]
  · rename_i hstage
    simp [hstage, Errand.Stage.effort]
  · exact nomatch h

/-- Whether a signal is one that the errand waits for. -/
def heeds (c : Courier) (e : Errand) : Signal → Bool
  | .proceed     => c.mayProceed e
  | .connected _ => match e.stage with | .connecting _ => true | _ => false
  | .answered _  => match e.stage with | .exchanging _ => true | _ => false
  | .rested      => match e.stage with | .backingOff => true | _ => false
  | .expired     => false

theorem connecting_of_heeds {outcome : Except TransportError Unit}
    (h : c.heeds e (.connected outcome) = true) : ∃ m, e.stage = .connecting m := by
  cases hstage : e.stage with
  | connecting m => exact ⟨m, rfl⟩
  | _            => simp [heeds, hstage] at h

theorem exchanging_of_heeds {outcome : Except TransportError Reply}
    (h : c.heeds e (.answered outcome) = true) : ∃ m, e.stage = .exchanging m := by
  cases hstage : e.stage with
  | exchanging m => exact ⟨m, rfl⟩
  | _            => simp [heeds, hstage] at h

theorem backingOff_of_heeds (h : c.heeds e .rested = true) : e.stage = .backingOff := by
  cases hstage : e.stage with
  | backingOff => rfl
  | _          => simp [heeds, hstage] at h

/-- What an errand does not wait for changes nothing. -/
theorem step_of_deaf {id : Nat} (hf : c.find? id = some e) {s : Signal}
    (h : c.heeds e s = false) : c.step id s = { state := c } := by
  rw [step, hf]
  cases s with
  | proceed     =>
      have hwaits : c.mayProceed e = false := h
      cases hstage : e.stage with
      | ready        => simp [mayProceed, hstage] at hwaits
      | awaitsTurn   => simp [mayProceed, hstage] at hwaits; simp [proceed, hstage, hwaits]
      | awaitsSlot m => simp [mayProceed, hstage] at hwaits; simp [proceed, hstage, hwaits]
      | _            => simp only [proceed, hstage]
  | connected o =>
      cases hstage : e.stage with
      | connecting m => simp [heeds, hstage] at h
      | _            => simp only [connected, hstage]
  | answered o  =>
      cases hstage : e.stage with
      | exchanging m => simp [heeds, hstage] at h
      | _            => simp only [answered, hstage]
  | rested      =>
      cases hstage : e.stage with
      | backingOff => simp [heeds, hstage] at h
      | _          => simp only [rested, hstage]
  | expired     => rfl

/-- What an errand is for as it sets off: a record takes along the term that is known now. -/
def brief (c : Courier) : Errand.Aim → Errand.Aim
  | .record w entry _ => .record w entry c.knownTerm
  | aim               => aim

@[simp] theorem brief_purpose (c : Courier) (aim : Errand.Aim) :
    (c.brief aim).purpose = aim.purpose := by
  cases aim <;> rfl

/-! ## The cases -/

/-- How far an errand gets at a slot in whose line it is, with a request to make there: it waits, or
    it is first and asks for a connection, or it has one and makes its exchange. -/
inductive Boards (c : Courier) (id m : Nat) (request : Request) :
    Errand.Stage → List (Demand Nat) → Prop where
  | waits (behind : c.pool.holds m id = false) : Boards c id m request (.awaitsSlot m) []
  | connects (first : c.pool.holds m id = true) (unlinked : c.pool.connected m = false) :
      Boards c id m request (.connecting m) [.connect id (c.pool.address m)]
  | uses (first : c.pool.holds m id = true) (linked : c.pool.connected m = true) :
      Boards c id m request (.exchanging m) [.exchange id (c.pool.address m) request]

/-- All that an errand of a call does when it is told something, with what is then the state. -/
inductive Goes (c : Courier) (e : Errand) : Signal → Step → Prop where
  /-- It does not wait for this. -/
  | rests {s : Signal} (deaf : c.heeds e s = false) : Goes c e s { state := c }
  /-- Every member was tried. -/
  | givesUp {request : Request} (free : c.setsOff e = true) (aim : e.aim = .lead request 0) :
      Goes c e .proceed (c.finish e (.led (.error .noActiveLeader)))
  /-- The pool does not let it line up. -/
  | refused {error : TransportError} (free : c.setsOff e = true)
      (shut : c.pool.closed = true ∨ c.pool.size ≤ c.destination e) (kind : error.kind = .connect)
      (tries : ∀ request, e.aim ≠ .lead request 0)
      (refuses : c.pool.enroll (c.destination e) e.id = .error error) :
      Goes c e .proceed (c.settle e (.error error))
  /-- It lines up at the slot of its destination, and may have got further there. -/
  | arrives {stage : Errand.Stage} {ds : List (Demand Nat)} (free : c.setsOff e = true)
      (tries : ∀ request, e.aim ≠ .lead request 0) (unclosed : c.pool.closed = false)
      (listed : c.destination e < c.pool.size) (place : stage.member? = some (c.destination e))
      (aboard : ∃ request, (c.brief e.aim).request? = some request ∧
        Boards { c with pool := c.pool.lineUp (c.destination e) e.id } e.id (c.destination e)
          request stage ds) :
      Goes c e .proceed
        { state   := { c with pool := c.pool.lineUp (c.destination e) e.id }.put
                       { e with aim := c.brief e.aim, stage }
          demands := ds }
  /-- It is first in line at a slot. -/
  | enters {m : Nat} {stage : Errand.Stage} {ds : List (Demand Nat)}
      (waits : e.stage = .awaitsSlot m) (first : c.pool.holds m e.id = true)
      (further : stage = .connecting m ∨ stage = .exchanging m)
      (aboard : ∃ request, e.aim.request? = some request ∧ c.Boards e.id m request stage ds) :
      Goes c e .proceed { state := c.put { e with stage }, demands := ds }
  | connects {m : Nat} {ds : List (Demand Nat)} (waits : e.stage = .connecting m)
      (asks : ∃ request, e.aim.request? = some request ∧
        ds = [.exchange e.id (c.pool.address m) request]) :
      Goes c e (.connected (.ok ()))
        { state   := { c with pool := c.pool.connect m }.put { e with stage := .exchanging m }
          demands := ds }
  | unconnected {m : Nat} {error : TransportError} (waits : e.stage = .connecting m) :
      Goes c e (.connected (.error error))
        ({ c with pool := c.pool.leave m e.id }.settle e (.error error))
  /-- Its exchange is over; a connection that has failed is dropped. -/
  | exchanged {m : Nat} {outcome : Except TransportError Reply} {pool : Pool}
      (waits : e.stage = .exchanging m) (kept : pool = c.pool ∨ pool = c.pool.disconnect m) :
      Goes c e (.answered outcome) ({ c with pool := pool.leave m e.id }.settle e outcome)
  | wakes (waits : e.stage = .backingOff) :
      Goes c e .rested { state := c.put { e with stage := .ready } }

/-- The outcome of a record does not depend on the term that it takes along. -/
private theorem settle_brief (c : Courier) (e : Errand) (outcome : Except TransportError Reply) :
    c.settle { e with aim := c.brief e.aim } outcome = c.settle e outcome := by
  obtain ⟨id, aim, stage⟩ := e
  cases aim <;> rfl

/-- An errand of a call that is first in line at a slot asks for a connection, or makes its exchange. -/
private theorem enter_eq {request : Request} (h : e.aim.request? = some request) {m : Nat}
    (first : c.pool.holds m e.id = true) :
    ∃ stage ds, (stage = .connecting m ∨ stage = .exchanging m) ∧
      c.Boards e.id m request stage ds ∧
      c.enter e m = { state := c.put { e with stage }, demands := ds } := by
  unfold enter
  split
  · rename_i next haim
    rw [haim] at h
    exact nomatch h
  · split
    · rename_i hlinked
      rw [use, h]
      exact ⟨.exchanging m, _, Or.inr rfl, .uses first hlinked, rfl⟩
    · rename_i hunlinked
      exact ⟨.connecting m, _, Or.inl rfl, .connects first (Bool.eq_false_iff.2 hunlinked), rfl⟩

/-- Where an errand of a call is in line, it gets as far as it can. -/
private theorem enterOrWait_eq {request : Request} (h : e.aim.request? = some request) (m : Nat) :
    ∃ stage ds, stage.member? = some m ∧ c.Boards e.id m request stage ds ∧
      c.enterOrWait e m = { state := c.put { e with stage }, demands := ds } := by
  rw [enterOrWait]
  split
  · rename_i hfirst
    obtain ⟨stage, ds, hfurther, hboards, heq⟩ := enter_eq h hfirst
    refine ⟨stage, ds, ?_, hboards, heq⟩
    rcases hfurther with rfl | rfl <;> rfl
  · rename_i hbehind
    exact ⟨.awaitsSlot m, [], rfl, .waits (Bool.eq_false_iff.2 hbehind), rfl⟩

/-- An errand of a call that sets off is refused, or lines up. -/
private theorem visit_goes (h : e.OfCall) (free : c.setsOff e = true)
    (tries : ∀ request, e.aim ≠ .lead request 0) :
    c.Goes e .proceed (c.visit { e with aim := c.brief e.aim } (c.destination e)) := by
  have hbrief : ({ e with aim := c.brief e.aim } : Errand).OfCall :=
    Errand.ofCall_of_purpose h (c.brief_purpose e.aim)
  obtain ⟨request, hrequest⟩ := hbrief.request
  unfold visit
  split
  · rename_i error herror
    rw [settle_brief]
    have hrefuses : c.pool.enroll (c.destination e) e.id = .error error := herror
    unfold Pool.enroll at herror
    split at herror
    · rename_i hclosed
      obtain rfl := Except.error.inj herror
      exact .refused free (Or.inl hclosed) rfl tries hrefuses
    · split at herror
      · exact nomatch herror
      · rename_i hsize
        obtain rfl := Except.error.inj herror
        exact .refused free (Or.inr (Nat.le_of_not_lt hsize)) rfl tries hrefuses
  · rename_i pool hpool
    obtain ⟨hopen, hlt, rfl⟩ := Pool.enroll_eq_ok_iff.1 hpool
    obtain ⟨stage, ds, hplace, hboards, heq⟩ := enterOrWait_eq
      (c := { c with pool := c.pool.lineUp (c.destination e) e.id }) hrequest (c.destination e)
    rw [heq]
    exact .arrives free tries hopen hlt hplace ⟨request, hrequest, hboards⟩

private theorem setOff_goes (h : e.OfCall) (free : c.setsOff e = true) :
    c.Goes e .proceed (c.setOff e) := by
  obtain ⟨id, aim, stage⟩ := e
  cases aim with
  | lead request tries  =>
      cases tries with
      | zero   => exact .givesUp free rfl
      | succ n => exact visit_goes h free fun _ => nofun
  | record w entry term => exact visit_goes h free fun _ => nofun
  | direct m request    => rcases h with ⟨_, h⟩ | ⟨_, _, h⟩ <;> exact nomatch h
  | survey next reached => rcases h with ⟨_, h⟩ | ⟨_, _, h⟩ <;> exact nomatch h
  | close next          => rcases h with ⟨_, h⟩ | ⟨_, _, h⟩ <;> exact nomatch h

private theorem enter_goes (h : e.OfCall) {m : Nat} (waits : e.stage = .awaitsSlot m)
    (first : c.pool.holds m e.id = true) : c.Goes e .proceed (c.enter e m) := by
  obtain ⟨request, hrequest⟩ := h.request
  obtain ⟨stage, ds, hfurther, hboards, heq⟩ := enter_eq hrequest first
  rw [heq]
  exact .enters waits first hfurther ⟨request, hrequest, hboards⟩

private theorem proceed_goes (h : e.OfCall) (heeded : c.heeds e .proceed = true) :
    c.Goes e .proceed (c.proceed e) := by
  have hmay : c.mayProceed e = true := heeded
  rw [mayProceed] at hmay
  cases hstage : e.stage with
  | ready        =>
      rw [proceed, hstage]
      exact setOff_goes h (by rw [setsOff, hstage])
  | awaitsTurn   =>
      rw [hstage] at hmay
      simp only [proceed, hstage, hmay, if_true]
      exact setOff_goes h (by rw [setsOff, hstage]; exact hmay)
  | awaitsSlot m =>
      rw [hstage] at hmay
      simp only [proceed, hstage, hmay, if_true]
      exact enter_goes h hstage hmay
  | connecting m | exchanging m | backingOff =>
      rw [hstage] at hmay
      exact absurd hmay Bool.false_ne_true

private theorem connected_goes (h : e.OfCall) {m : Nat} (hstage : e.stage = .connecting m)
    (outcome : Except TransportError Unit) :
    c.Goes e (.connected outcome) (c.connected e outcome) := by
  obtain ⟨request, hrequest⟩ := h.request
  cases outcome with
  | ok u        =>
      have hconnected : c.connected e (.ok u) =
          { state   := { c with pool := c.pool.connect m }.put { e with stage := .exchanging m }
            demands := [.exchange e.id (c.pool.address m) request] } := by
        rw [← Pool.address_of_members (c.pool.members_connect m)]
        simp only [connected, hstage, use, hrequest]
        rfl
      rw [hconnected]
      exact .connects hstage ⟨request, hrequest, rfl⟩
  | error error =>
      have hconnected : c.connected e (.error error) =
          { c with pool := c.pool.leave m e.id }.settle e (.error error) := by
        simp only [connected, hstage, hrequest]
      rw [hconnected]
      exact .unconnected hstage

private theorem answered_goes {m : Nat} (hstage : e.stage = .exchanging m)
    (outcome : Except TransportError Reply) :
    c.Goes e (.answered outcome) (c.answered e outcome) := by
  rw [answered, hstage]
  refine .exchanged hstage ?_
  split
  · exact Or.inl rfl
  · exact Or.inr rfl

/-- **What an errand of a call does**: one of the cases. -/
theorem step_goes {id : Nat} (hf : c.find? id = some e) (h : e.OfCall) (s : Signal) :
    c.Goes e s (c.step id s) := by
  cases hheeds : c.heeds e s with
  | false =>
      rw [step_of_deaf hf hheeds]
      exact .rests hheeds
  | true  =>
      rw [step, hf]
      cases s with
      | proceed           => exact proceed_goes h hheeds
      | connected outcome =>
          obtain ⟨m, hstage⟩ := connecting_of_heeds hheeds
          exact connected_goes h hstage outcome
      | answered outcome  =>
          obtain ⟨m, hstage⟩ := exchanging_of_heeds hheeds
          exact answered_goes hstage outcome
      | rested            =>
          have hstage := backingOff_of_heeds hheeds
          dsimp only
          rw [rested, hstage]
          exact .wakes hstage
      | expired           => exact absurd hheeds Bool.false_ne_true

/-! ## Settling -/

/-- What a try comes to for an errand to the leader. -/
inductive SettlesLead (c : Courier) (e : Errand) (request : Request) (tries : Nat) :
    Except TransportError Reply → Step → Prop where
  | accepted {reply : Reply} (taken : reply.accepted = true) :
      SettlesLead c e request tries (.ok reply) (c.finish e (.led (.ok reply)))
  | malformed {error : TransportError} (kind : error.kind = .malformed) :
      SettlesLead c e request tries (.error error)
        (c.finish e (.led (.error (.malformedResponse error.text))))
  | retargets {outcome : Except TransportError Reply} {guess : Nat}
      (verdict : Locator.verdict c.pool c.guess outcome = .retarget guess) :
      SettlesLead c e request tries outcome
        { state := { c with guess }.put { e with aim := .lead request (tries - 1), stage := .ready } }
  | backsOff {reply : Reply} {ds : List (Demand Nat)} (refused : reply.accepted = false)
      (unhinted : reply.hint = none) (pauses : ds = [.pause e.id c.backoff]) :
      SettlesLead c e request tries (.ok reply)
        { state   := c.put { e with aim := .lead request (tries - 1), stage := .backingOff }
          demands := ds }

theorem settle_lead {request : Request} {tries : Nat} (h : e.aim = .lead request tries)
    (outcome : Except TransportError Reply) :
    c.SettlesLead e request tries outcome (c.settle e outcome) := by
  obtain ⟨id, aim, stage⟩ := e
  obtain rfl : aim = .lead request tries := h
  unfold settle
  dsimp only
  cases hv : Locator.verdict c.pool c.guess outcome with
  | accepted reply  =>
      obtain ⟨rfl, htaken⟩ := Locator.verdict_eq_accepted_iff.1 hv
      exact .accepted htaken
  | malformed error =>
      cases outcome with
      | ok reply    =>
          unfold Locator.verdict at hv
          dsimp only at hv
          split at hv
          · exact nomatch hv
          · split at hv <;> exact nomatch hv
      | error fault =>
          unfold Locator.verdict at hv
          dsimp only at hv
          split at hv
          · rename_i hkind
            obtain rfl := Locator.Verdict.malformed.inj hv
            exact .malformed hkind
          · exact nomatch hv
  | retarget guess  => exact .retargets hv
  | backOff         =>
      cases outcome with
      | error fault =>
          unfold Locator.verdict at hv
          dsimp only at hv
          split at hv <;> exact nomatch hv
      | ok reply    =>
          unfold Locator.verdict at hv
          dsimp only at hv
          split at hv
          · exact nomatch hv
          · rename_i hrefused
            split at hv
            · exact nomatch hv
            · rename_i hhint
              exact .backsOff (Bool.eq_false_iff.2 hrefused) hhint rfl

/-- A record is done at once, and has been taken exactly if the witness said so.  A witness that
    refuses tells its term. -/
theorem settle_record {w : Nat} {entry : LogEntry} {term : Term} (h : e.aim = .record w entry term)
    (outcome : Except TransportError Reply) :
    ∃ known ok, c.settle e outcome = { c with knownTerm := known }.finish e (.recorded ok) ∧
      (ok = true ↔ ∃ reply, outcome = .ok reply ∧ reply.accepted = true) := by
  obtain ⟨id, aim, stage⟩ := e
  obtain rfl : aim = .record w entry term := h
  unfold settle
  cases outcome with
  | error fault => exact ⟨c.knownTerm, false, rfl, nofun, fun ⟨_, hok, _⟩ => nomatch hok⟩
  | ok reply    =>
      dsimp only
      split
      · rename_i htaken
        exact ⟨c.knownTerm, true, rfl, fun _ => ⟨reply, rfl, htaken⟩, fun _ => rfl⟩
      · rename_i hrefused
        refine ⟨_, false, rfl, nofun, fun ⟨reply', hok, htaken⟩ => ?_⟩
        obtain rfl := Except.ok.inj hok
        exact absurd htaken hrefused

/-! ## Setting out -/

/-- The errands to some witnesses, with numbers from `first` on. -/
def recordErrands (entry : LogEntry) (term : Term) (first : Nat) (ws : List Nat) : List Errand :=
  ((List.range' first ws.length).zip ws).map fun p => ⟨p.1, .record p.2 entry term, .ready⟩

/-- The errands to the witnesses get the next numbers, in order, and are ready to set off. -/
theorem beginRecords_eq (c : Courier) (entry : LogEntry) (ws : List Nat) :
    c.beginRecords entry ws =
      (List.range' c.fresh ws.length,
        { c with
          errands := c.errands ++ recordErrands entry c.knownTerm c.fresh ws
          fresh   := c.fresh + ws.length }) := by
  induction ws generalizing c with
  | nil          => simp [beginRecords, recordErrands]
  | cons w ws ih =>
      have hbegin : c.begin (.record w entry c.knownTerm) =
          (c.fresh,
            { c with
              errands := c.errands ++ [⟨c.fresh, .record w entry c.knownTerm, .ready⟩]
              fresh   := c.fresh + 1 }) := rfl
      rw [beginRecords, hbegin]
      dsimp only
      rw [ih]
      simp only [List.length_cons, List.range'_succ, recordErrands, List.zip_cons_cons,
        List.map_cons, List.append_assoc, List.singleton_append, Nat.add_assoc, Nat.add_comm 1]

end Courier

end WitnessReplication

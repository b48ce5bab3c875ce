import WitnessReplication.Proofs.LeaderSearch
import WitnessReplication.Proofs.SessionEvents

/-!
# Retry rounds — a call is a loop, whatever else goes on in its session

    A call goes round: it looks whether the session is closed, makes an attempt, and pauses if the
    attempt has failed and another one may be made.  In the session this loop is cut into pieces.
    What ends an attempt may be told to the call, or to one of its errands; between two pieces come
    those of other calls and errands, and the session may be closed.

    The pieces of one call are put together again here.  What happens to the call is read off the
    inputs as a row of beats, and what is left of the session is how far the call is.  An input that
    is no beat of the call neither moves it nor makes it say anything, so a run of the session is a
    run of a machine with three kinds of states.

* **`Session.beat?`** — what an input is for a call: a round, the end of an attempt, the end of its
  time, or nothing.
* **`Session.phase`** — how far a call is, and how many attempts it has begun.
* **`Moves`** — the machine: a beat moves the call on, and makes it pause or return.
* **`react_goes`** and **`invoke_goes`** — every input moves every call as the machine says.
-/

namespace WitnessReplication

-- ── What happens to a call ───────────────────────────────────────────────────────────────────────

/-- What a decision about an entry comes to, if it ends the attempt. -/
def Decision.outcome? (entry : LogEntry) :
    Decision → Option (Except SessionError CommandOutput)
  | .commit data path => some (.ok ⟨entry.seq, data, path⟩)
  | .fail error       => some (.error error)
  | .sync _           => none

/-- What an attempt has come to, when a given member is believed to lead.  There is nothing to be
    said while somebody is waited for, or if a sync has to follow. -/
def Attempt.outcome? (a : Attempt) (guess : Nat) (entry : LogEntry) :
    Option (Except SessionError CommandOutput) :=
  match a.answer, a.pending with
  | some answer, [] => (a.decision guess answer).outcome? entry
  | _, _            => none

/-- What a call's attempt comes to with the leader's answer to an errand. -/
def Call.outcome? (c : Call) (guess errand : Nat) (answer : Except SessionError Reply) :
    Option (Except SessionError CommandOutput) :=
  match c.stage with
  | .attempting a    =>
      if a.leader = errand then { a with answer := some answer }.outcome? guess c.entry else none
  | .syncing data id =>
      if id = errand then some (answer.map fun _ => ⟨c.entry.seq, data, .explicitSync⟩) else none
  | .pausing         => none

/-- Something that happens to a call. -/
inductive Beat where
  /-- It looks whether the session is closed, as it does before every attempt. -/
  | round (closed : Bool)
  /-- Its attempt has come to its end. -/
  | ended (outcome : Except SessionError CommandOutput)
  /-- Its time is up. -/
  | expired
  deriving DecidableEq

/-- How far a call is, with the number of attempts that it has begun. -/
inductive Phase where
  /-- It has returned, or was not begun. -/
  | over
  | pausing (attempts : Nat)
  | trying (attempts : Nat)
  deriving DecidableEq

/-- How far a call under way is. -/
def Call.phase (c : Call) : Phase :=
  match c.stage with
  | .pausing => .pausing c.attempts
  | _        => .trying c.attempts

theorem Call.phase_pausing {c : Call} (h : c.stage = .pausing) : c.phase = .pausing c.attempts := by
  rw [phase, h]

theorem Call.phase_trying {c : Call} (h : c.stage ≠ .pausing) : c.phase = .trying c.attempts := by
  unfold phase
  split
  · rename_i hpausing
    exact absurd hpausing h
  · rfl

namespace Session

/-- What a signal to a call is for the call. -/
def ownBeat? (s : Session) (c : Call) (sig : Signal) : Option Beat :=
  match sig, c.stage with
  | .proceed, .attempting a => (a.outcome? s.courier.guess c.entry).map .ended
  | .rested, .pausing       => some (.round s.courier.pool.closed)
  | .expired, _             => some .expired
  | _, _                    => none

/-- What the outcome of an errand is for a call: it may be what the call waits for. -/
def heardBeat? (s : Session) (id errand : Nat) (outcome : Errand.Outcome) : Option Beat :=
  match outcome, s.calls.find? fun c => awaits c errand with
  | .led answer, some c =>
      if c.id = id then (c.outcome? s.courier.guess errand answer).map .ended else none
  | _, _                => none

/-- What a signal to an errand is for a call. -/
def errandBeat? (s : Session) (id errand : Nat) (sig : Signal) : Option Beat :=
  match (s.courier.step errand sig).results with
  | [(_, outcome)] =>
      { s with courier := (s.courier.step errand sig).state }.heardBeat? id errand outcome
  | _              => none

/-- What an input is for the call of a number. -/
def beat? (s : Session) (id : Nat) : Input → Option Beat
  | .invoke _ _ _ _ => if id = s.courier.fresh then some (.round s.courier.pool.closed) else none
  | .close          => none
  | .signal i sig   =>
      match s.call? i with
      | some c => if i = id then s.ownBeat? c sig else none
      | none   => s.errandBeat? id i sig

/-- How far the call of a number is. -/
def phase (s : Session) (id : Nat) : Phase :=
  match s.call? id with
  | some c => c.phase
  | none   => .over

end Session

/-- The loop: how a beat moves a call on, for how long it pauses then, and what comes of it. -/
inductive Moves (p : RetryPolicy) :
    Phase → Option Beat → Phase → List Nat → List Session.Outcome → Prop where
  | rests {ph : Phase} : Moves p ph none ph [] []
  | refused {n : Nat} : Moves p (.pausing n) (some (.round true)) .over []
      [.returned (.error .sessionClosed)]
  | begins {n : Nat} : Moves p (.pausing n) (some (.round false)) (.trying (n + 1)) [] []
  | commits {n : Nat} {out : CommandOutput} :
      Moves p (.trying n) (some (.ended (.ok out))) .over [] [.returned (.ok out)]
  | fails {n : Nat} {e final : SessionError} (verdict : p.verdict n e = some final) :
      Moves p (.trying n) (some (.ended (.error e))) .over [] [.returned (.error final)]
  | pauses {n : Nat} {e : SessionError} (verdict : p.verdict n e = none) :
      Moves p (.trying n) (some (.ended (.error e))) (.pausing n) [p.backoff] []
  | expires {ph : Phase} (live : ph ≠ .over) : Moves p ph (some .expired) .over []
      [.returned (.error (.deadlineExceeded (p.deadline.getD 0)))]

/-- No errand is found under such a number. -/
theorem Courier.Past.find?_eq_none {c : Courier} {i : Nat} (h : c.Past i) : c.find? i = none := by
  refine List.find?_eq_none.2 fun e he => ?_
  simpa using h.2 e he

namespace Session

variable {s t : Session} {c d : Call} {id i : Nat} {p : Step}

/-- A step that moves a call, if it was so far, as the loop says. -/
def Goes (s : Session) (id : Nat) (start : Phase) (beat : Option Beat) (p : Step) : Prop :=
  Moves s.settings.retry start beat (p.state.phase id) (p.pausesOf id) (p.outcomesOf id)

-- ── Calls and their numbers ──────────────────────────────────────────────────────────────────────

theorem beat?_of_call (h : s.call? i = some c) {sig : Signal} :
    s.beat? id (.signal i sig) = if i = id then s.ownBeat? c sig else none := by
  simp only [beat?, h]

theorem beat?_of_errand (h : s.call? i = none) {sig : Signal} :
    s.beat? id (.signal i sig) = s.errandBeat? id i sig := by
  simp only [beat?, h]

theorem id_of_call? (h : s.call? id = some c) : c.id = id := by
  simpa using List.find?_some h

theorem phase_of_call? (h : s.call? id = some c) : s.phase id = c.phase := by
  rw [phase, h]

theorem phase_eq_over_iff : s.phase id = .over ↔ s.call? id = none := by
  unfold phase
  cases s.call? id with
  | none   => exact iff_of_true rfl rfl
  | some c =>
      refine iff_of_false ?_ nofun
      show c.phase ≠ .over
      unfold Call.phase
      split <;> exact nofun

theorem call?_put_self (h : s.call? c.id = some d) : (s.put c).call? c.id = some c := by
  have hsame : (fun e : Call => decide (e.id = c.id)) ∘ (fun e => if e.id = c.id then c else e) =
      fun e => decide (e.id = c.id) := by
    funext e
    by_cases he : e.id = c.id <;> simp [he]
  rw [call?] at h
  rw [call?, put, List.find?_map, hsame, h, Option.map_some, if_pos (id_of_call? h)]

theorem call?_put_of_ne (h : id ≠ c.id) : (s.put c).call? id = s.call? id := by
  have hsame : (fun e : Call => decide (e.id = id)) ∘ (fun e => if e.id = c.id then c else e) =
      fun e => decide (e.id = id) := by
    funext e
    by_cases he : e.id = c.id
    · simp [he]
    · simp [he]
  rw [call?, call?, put, List.find?_map, hsame]
  cases hfind : s.calls.find? fun e => e.id = id with
  | none   => rfl
  | some e =>
      have hid : e.id = id := by simpa using List.find?_some hfind
      rw [Option.map_some, if_neg (hid.trans_ne h)]

theorem call?_finish_self (s : Session) (c : Call) (result : Except SessionError CommandOutput) :
    (s.finish c result).state.call? c.id = none := by
  simp [call?, finish, List.find?_filter]

theorem call?_finish_of_ne (h : id ≠ c.id) (result : Except SessionError CommandOutput) :
    (s.finish c result).state.call? id = s.call? id := by
  rw [call?, call?, finish, List.find?_filter]
  congr 1
  funext e
  by_cases he : e.id = id
  · simp [he, h]
  · simp [he]

@[simp] theorem phase_finish (s : Session) (c : Call)
    (result : Except SessionError CommandOutput) :
    (s.finish c result).state.phase c.id = .over :=
  phase_eq_over_iff.2 (s.call?_finish_self c result)

@[simp] theorem pausesOf_finish (s : Session) (c : Call)
    (result : Except SessionError CommandOutput) : (s.finish c result).pausesOf id = [] := rfl

@[simp] theorem outcomesOf_finish (s : Session) (c : Call)
    (result : Except SessionError CommandOutput) :
    (s.finish c result).outcomesOf c.id = [.returned result] := by
  simp [Progress.outcomesOf, finish]

theorem phase_put (h : s.call? c.id = some d) : (s.put c).phase c.id = c.phase :=
  phase_of_call? (call?_put_self h)

-- ── A call's own steps ───────────────────────────────────────────────────────────────────────────

/-- A call that rests. -/
theorem rests_goes (h : t.call? c.id = some c) : t.Goes c.id c.phase none { state := t } := by
  unfold Goes
  rw [phase_of_call? h]
  exact .rests

/-- A call that ends. -/
theorem finish_goes {start : Phase} {beat : Option Beat}
    {result : Except SessionError CommandOutput}
    (h : Moves t.settings.retry start beat .over [] [.returned result]) :
    t.Goes c.id start beat (t.finish c result) := by
  unfold Goes
  rw [phase_finish, pausesOf_finish, outcomesOf_finish]
  exact h

/-- A call that goes on within its round: nobody is told. -/
theorem put_goes {ph : Phase} (h : t.call? c.id = some d) (hphase : c.phase = ph) :
    t.Goes c.id ph none { state := t.put c } := by
  subst hphase
  unfold Goes
  rw [phase_put h]
  exact .rests

/-- An attempt has failed. -/
theorem conclude_goes (h : t.call? c.id = some d) (error : SessionError) :
    t.Goes c.id (.trying c.attempts) (some (.ended (.error error))) (t.conclude c error) := by
  unfold conclude
  cases hv : t.settings.retry.verdict c.attempts error with
  | some final => exact finish_goes (.fails hv)
  | none       =>
      have hphase : (t.put { c with stage := .pausing }).phase c.id = .pausing c.attempts :=
        phase_put (c := { c with stage := .pausing }) h
      have hpauses : Progress.pausesOf (ρ := Outcome)
          { state   := t.put { c with stage := .pausing }
            demands := [.pause c.id t.settings.retry.backoff] } c.id =
          [t.settings.retry.backoff] := by
        simp [Progress.pausesOf, Demand.pause?]
      unfold Goes
      dsimp only
      rw [hphase, hpauses]
      exact .pauses hv

/-- What was decided about an attempt is done. -/
theorem follow_goes (h : t.call? c.id = some d) (decision : Decision) :
    t.Goes c.id (.trying c.attempts) ((decision.outcome? c.entry).map .ended)
      (t.follow c decision) := by
  cases decision with
  | commit data path => exact finish_goes .commits
  | fail error       => exact conclude_goes h error
  | sync data        =>
      exact put_goes (t := { t with courier := (t.courier.beginLead (.sync (some c.entry))).2 })
        (c := { c with stage := .syncing data (t.courier.beginLead (.sync (some c.entry))).1 }) h
        rfl

/-- An attempt has moved on. -/
theorem advance_goes (h : t.call? c.id = some d) (a : Attempt) :
    t.Goes c.id (.trying c.attempts) ((a.outcome? t.courier.guess c.entry).map .ended)
      (t.advance c a) := by
  have hwaits : t.Goes c.id (.trying c.attempts) none
      { state := t.put { c with stage := .attempting a } } :=
    put_goes (c := { c with stage := .attempting a }) h rfl
  unfold advance Attempt.outcome?
  cases a.answer with
  | none        => exact hwaits
  | some answer =>
      cases a.pending with
      | nil      => exact follow_goes h _
      | cons _ _ => exact hwaits

/-- A call goes round. -/
theorem goRound_goes (h : t.call? c.id = some d) :
    t.Goes c.id (.pausing c.attempts) (some (.round t.courier.pool.closed)) (t.goRound c) := by
  unfold goRound
  cases t.courier.pool.closed with
  | true  => exact finish_goes .refused
  | false =>
      have hphase : (t.startAttempt c).phase c.id = .trying (c.attempts + 1) := by
        rw [startAttempt_eq]
        exact phase_put (s := { t with courier := t.sendsOut c }) (c := { c with
          attempts := c.attempts + 1, stage := .attempting (t.nextAttempt c) }) h
      rw [if_neg Bool.false_ne_true]
      unfold Goes
      dsimp only
      rw [hphase]
      exact .begins

/-- A call hears what the leader has answered. -/
theorem led_goes (h : t.call? c.id = some c) (errand : Nat)
    (answer : Except SessionError Reply) :
    t.Goes c.id c.phase ((c.outcome? t.courier.guess errand answer).map .ended)
      (t.led c errand answer) := by
  unfold led Call.outcome?
  cases hstage : c.stage with
  | attempting a    =>
      dsimp only
      split
      · rw [Call.phase_trying (by rw [hstage]; exact nofun)]
        exact advance_goes h _
      · exact rests_goes h
  | syncing data id =>
      dsimp only
      split
      · rw [Call.phase_trying (by rw [hstage]; exact nofun)]
        cases answer with
        | ok reply    => exact finish_goes .commits
        | error error => exact conclude_goes h error
      · exact rests_goes h
  | pausing         => exact rests_goes h

/-- A call hears of a witness; it acts on that when it goes on. -/
theorem recorded_goes (h : t.call? c.id = some c) (errand : Nat) (ok : Bool) :
    t.Goes c.id c.phase none (t.recorded c errand ok) := by
  unfold recorded
  split
  · rename_i a hstage
    exact put_goes (c := { c with stage := .attempting (a.hear errand ok) }) h
      (by rw [Call.phase, Call.phase, hstage])
  · exact rests_goes h

/-- A call has run out of time. -/
theorem expire_goes (h : t.call? c.id = some c) :
    t.Goes c.id c.phase (some .expired) (t.expire c) := by
  have hlive : c.phase ≠ .over := by
    rw [← phase_of_call? h, Ne, phase_eq_over_iff, h]
    exact nofun
  exact finish_goes (t := { t with courier := t.callsOff c }) (.expires hlive)

-- ── The steps of another call ────────────────────────────────────────────────────────────────────

/-- A step that concerns one call: every other one stays as it is, and nothing is said of it. -/
structure Concerns (s : Session) (i : Nat) (p : Step) : Prop where
  others  : ∀ id, id ≠ i → p.state.call? id = s.call? id
  demands : ∀ d ∈ p.demands, d.who = i
  results : ∀ r ∈ p.results, r.1 = i

/-- So another call rests. -/
theorem Concerns.goes (h : s.Concerns i p) (hid : id ≠ i) : s.Goes id (s.phase id) none p := by
  unfold Goes
  rw [Progress.pausesOf_eq_nil fun d hd => (h.demands d hd).trans_ne hid.symm,
    Progress.outcomesOf_eq_nil fun r hr => (h.results r hr).trans_ne hid.symm,
    show p.state.phase id = s.phase id by rw [phase, phase, h.others id hid]]
  exact .rests

/-- Only the calls matter. -/
theorem Concerns.of_calls (h : t.Concerns i p) (hcalls : t.calls = s.calls) : s.Concerns i p := by
  refine ⟨fun id hid => (h.others id hid).trans ?_, h.demands, h.results⟩
  rw [call?, call?, hcalls]

theorem idle_concerns (s : Session) (i : Nat) : s.Concerns i { state := s } :=
  ⟨fun _ _ => rfl, fun _ h => (nomatch h), fun _ h => (nomatch h)⟩

theorem finish_concerns (s : Session) (c : Call) (result : Except SessionError CommandOutput) :
    s.Concerns c.id (s.finish c result) :=
  ⟨fun _ h => call?_finish_of_ne h result, fun _ h => (nomatch h),
    fun _ h => congrArg Prod.fst (List.mem_singleton.1 h)⟩

theorem put_concerns (s : Session) (c : Call) {ds : List (Demand Nat)}
    (hds : ∀ d ∈ ds, d.who = c.id) : s.Concerns c.id { state := s.put c, demands := ds } :=
  ⟨fun _ h => call?_put_of_ne h, hds, fun _ h => (nomatch h)⟩

theorem conclude_concerns (s : Session) (c : Call) (error : SessionError) :
    s.Concerns c.id (s.conclude c error) := by
  unfold conclude
  split
  · exact s.finish_concerns c _
  · exact s.put_concerns { c with stage := .pausing } fun d hd => List.mem_singleton.1 hd ▸ rfl

theorem advance_concerns (s : Session) (c : Call) (a : Attempt) :
    s.Concerns c.id (s.advance c a) := by
  unfold advance
  split
  · cases a.decision s.courier.guess _ with
    | commit data path => exact s.finish_concerns c _
    | fail error       => exact s.conclude_concerns c error
    | sync data        =>
        refine Concerns.of_calls
          (t := { s with courier := (s.courier.beginLead (.sync (some c.entry))).2 }) ?_ rfl
        exact put_concerns _
          { c with stage := .syncing data (s.courier.beginLead (.sync (some c.entry))).1 }
          (List.forall_mem_nil _)
  · exact s.put_concerns { c with stage := .attempting a } (List.forall_mem_nil _)

theorem goRound_concerns (s : Session) (c : Call) : s.Concerns c.id (s.goRound c) := by
  unfold goRound
  split
  · exact s.finish_concerns c _
  · rw [startAttempt_eq]
    refine Concerns.of_calls (t := { s with courier := s.sendsOut c }) ?_ rfl
    exact put_concerns _
      { c with attempts := c.attempts + 1, stage := .attempting (s.nextAttempt c) }
      (List.forall_mem_nil _)

theorem led_concerns (s : Session) (c : Call) (errand : Nat) (answer : Except SessionError Reply) :
    s.Concerns c.id (s.led c errand answer) := by
  unfold led
  split
  · split
    · exact s.advance_concerns c _
    · exact s.idle_concerns c.id
  · split
    · split
      · exact s.finish_concerns c _
      · exact s.conclude_concerns c _
    · exact s.idle_concerns c.id
  · exact s.idle_concerns c.id

theorem recorded_concerns (s : Session) (c : Call) (errand : Nat) (ok : Bool) :
    s.Concerns c.id (s.recorded c errand ok) := by
  unfold recorded
  split
  · exact s.put_concerns { c with stage := .attempting _ } (List.forall_mem_nil _)
  · exact s.idle_concerns c.id

theorem expire_concerns (s : Session) (c : Call) : s.Concerns c.id (s.expire c) :=
  (finish_concerns { s with courier := s.callsOff c } c _).of_calls rfl

-- ── Every input ──────────────────────────────────────────────────────────────────────────────────

/-- A step that the loop of a call passes over may demand or yield something for others first. -/
theorem Goes.of_others {start : Phase} {beat : Option Beat} {q : Step}
    (h : s.Goes id start beat p) (hstate : q.state = p.state)
    (hpauses : q.pausesOf id = p.pausesOf id) (hresults : q.results = p.results) :
    s.Goes id start beat q := by
  unfold Goes at h ⊢
  rw [hstate, hpauses, Progress.outcomesOf, hresults]
  exact h

/-- A call is found under its number, if no other one has it. -/
theorem call?_of_mem (hdistinct : (s.calls.map (·.id)).Nodup) (hc : c ∈ s.calls) :
    s.call? c.id = some c := by
  cases hcall : s.call? c.id with
  | none   =>
      have hne := List.find?_eq_none.1 hcall c hc
      simp at hne
  | some d =>
      rw [List.inj_on_of_nodup_map hdistinct (List.mem_of_find?_eq_some hcall) hc
        (id_of_call? hcall)]

/-- What an errand has come to is handed on to the call that waits for it. -/
theorem deliver_goes (hdistinct : (t.calls.map (·.id)).Nodup) (hid : id ≠ i)
    (outcome : Errand.Outcome) :
    t.Goes id (t.phase id) (t.heardBeat? id i outcome) (t.deliver i outcome) := by
  have hrests : t.Goes id (t.phase id) none { state := t } := (t.idle_concerns i).goes hid
  have hself : ∀ {c : Call}, (t.calls.find? fun c => awaits c i) = some c →
      t.call? c.id = some c := fun hfind => call?_of_mem hdistinct (List.mem_of_find?_eq_some hfind)
  cases outcome with
  | closed      =>
      -- a session that is closed tells the user so, under the number of the errand
      have hsilent : (t.deliver i .closed).outcomesOf id = [] :=
        Progress.outcomesOf_eq_nil fun r hr => List.mem_singleton.1 hr ▸ hid.symm
      unfold Goes
      rw [hsilent]
      exact .rests
  | led answer  =>
      cases hfind : t.calls.find? fun c => awaits c i with
      | none   =>
          unfold deliver heardBeat?
          rw [hfind]
          exact hrests
      | some c =>
          rw [deliver_led hfind]
          unfold heardBeat?
          rw [hfind]
          dsimp only
          split
          · rename_i hc
            subst hc
            rw [phase_of_call? (hself hfind)]
            exact led_goes (hself hfind) i answer
          · rename_i hc
            exact (t.led_concerns c i answer).goes (Ne.symm hc)
  | recorded ok =>
      cases hfind : t.calls.find? fun c => awaits c i with
      | none   =>
          unfold deliver heardBeat?
          rw [hfind]
          exact hrests
      | some c =>
          rw [deliver_recorded hfind]
          show t.Goes id (t.phase id) none (t.recorded c i ok)
          by_cases hc : c.id = id
          · subst hc
            rw [phase_of_call? (hself hfind)]
            exact recorded_goes (hself hfind) i ok
          · exact (t.recorded_concerns c i ok).goes (Ne.symm hc)
  | replied _ | surveyed _ => exact hrests

/-- What is told under a number that is no errand's changes nothing. -/
theorem absorb_of_past (hpast : s.courier.Past id) (sig : Signal) :
    s.absorb (s.courier.step id sig) = { state := s } := by
  rw [Courier.step_of_gone hpast.find?_eq_none, absorb, Progress.feed_of_nil rfl]

/-- An errand is told something: what it comes to is handed on, if it comes to anything. -/
theorem absorb_goes (h : s.Sound) (hpast : s.courier.Past id) {sig : Signal}
    (hcall : s.call? i = none) :
    s.Goes id (s.phase id) (s.errandBeat? id i sig) (s.absorb (s.courier.step i sig)) := by
  by_cases hid : id = i
  · subst hid
    rw [absorb_of_past hpast, errandBeat?, Courier.step_of_gone hpast.find?_eq_none]
    exact .rests
  · have hpauses : (s.courier.step i sig).pausesOf id = [] := by
      have hspares := Courier.happen_spares h.courier (x := .tells i sig) (i := id)
        (fun he => hid (Option.some.inj he).symm) hpast.1
      exact Progress.pausesOf_eq_nil hspares.demands
    obtain ⟨_, _, hresults⟩ := errand_reports h.order hcall sig
    rcases hresults with hnone | ⟨outcome, hone, _⟩
    · unfold errandBeat? absorb
      rw [hnone, Progress.feed_of_nil hnone]
      exact Goes.of_others (p := { state := { s with courier := (s.courier.step i sig).state } })
        .rests rfl hpauses rfl
    · obtain ⟨hstate, hyields⟩ := Progress.feed_of_singleton (β := Session) hone
      have hdemands : (s.absorb (s.courier.step i sig)).demands = (s.courier.step i sig).demands ++
          (deliver { s with courier := (s.courier.step i sig).state } i outcome).demands :=
        Progress.feed_demands_of_singleton (β := Session) hone
      unfold errandBeat?
      rw [hone]
      refine Goes.of_others
        (p := deliver { s with courier := (s.courier.step i sig).state } i outcome)
        ?_ hstate ?_ hyields
      · exact deliver_goes (t := { s with courier := (s.courier.step i sig).state })
          h.order.distinct hid outcome
      · rw [Progress.pausesOf, hdemands, List.filterMap_append]
        exact (congrArg (· ++ _) hpauses).trans (List.nil_append _)

/-- The session in which a call that begins takes its first round. -/
def enlist (s : Session) (identity : Identity) (entry : LogEntry) (route : Route) : Session :=
  { s with
    identity
    courier := s.courier.takeNumber.2
    calls   := s.calls ++ [{ id := s.courier.fresh, entry, route }] }

/-- What a call that begins asks for besides: a word when its time is up, if the time is limited and
    it has not returned at once. -/
def alarms (s : Session) : List (Demand Nat) :=
  if s.courier.pool.closed then []
  else (s.settings.retry.deadline.map (.deadline s.courier.fresh)).toList

theorem pausesOf_alarms (s : Session) (id : Nat) : s.alarms.filterMap (Demand.pause? id) = [] := by
  unfold alarms
  split
  · rfl
  · cases s.settings.retry.deadline <;> rfl

theorem who_of_alarms (s : Session) {d : Demand Nat} (h : d ∈ s.alarms) :
    d.who = s.courier.fresh := by
  unfold alarms at h
  split at h
  · exact nomatch h
  · obtain ⟨span, _, rfl⟩ := Option.map_eq_some_iff.1 (Option.mem_toList.1 h)
    rfl

/-- A round demands nothing by itself. -/
theorem pausesOf_goRound (s : Session) (c : Call) : (s.goRound c).pausesOf id = [] := by
  unfold goRound
  split <;> rfl

/-- A call begins with a round. -/
theorem invoke_eq (s : Session) (data : Bytes) (keys : List Key) (route : Route)
    (seq : Option SeqNo) :
    ∃ identity entry, (s.invoke data keys route seq).2 =
      { (s.enlist identity entry route).goRound { id := s.courier.fresh, entry, route } with
        demands := s.alarms } := by
  have hround : ∀ (identity : Identity) (entry : LogEntry) (p : Step),
      p = (s.enlist identity entry route).goRound { id := s.courier.fresh, entry, route } →
      (∀ span, p.results = [] → s.settings.retry.deadline = some span →
        { p with demands := .deadline s.courier.fresh span :: p.demands } =
          { p with demands := s.alarms }) ∧
      ((∀ span, p.results = [] → s.settings.retry.deadline = some span → False) →
        p = { p with demands := s.alarms }) := by
    rintro identity entry p rfl
    have hpool : (s.enlist identity entry route).courier.pool = s.courier.pool := rfl
    unfold goRound alarms
    rw [hpool]
    cases s.courier.pool.closed with
    | true  => exact ⟨fun _ h => (nomatch h), fun _ => rfl⟩
    | false =>
        cases s.settings.retry.deadline with
        | none   => exact ⟨fun _ _ h => (nomatch h), fun _ => rfl⟩
        | some _ => exact ⟨fun _ _ h => Option.some.inj h ▸ rfl, fun h => (h _ rfl rfl).elim⟩
  unfold invoke
  cases seq with
  | none   =>
      refine ⟨s.identity.take.2, .command data keys s.identity.take.2.client s.identity.take.1, ?_⟩
      dsimp only
      split
      · exact (hround _ _ _ rfl).1 _ ‹_› ‹_›
      · exact (hround _ _ _ rfl).2 ‹_›
  | some n =>
      refine ⟨s.identity, .command data keys s.identity.client n, ?_⟩
      dsimp only
      split
      · exact (hround _ _ _ rfl).1 _ ‹_› ‹_›
      · exact (hround _ _ _ rfl).2 ‹_›

/-- A number that is not given yet is nobody's. -/
theorem call?_fresh (h : s.InOrder) : s.call? s.courier.fresh = none := by
  refine List.find?_eq_none.2 fun c hc => ?_
  simpa using Nat.ne_of_lt (h.numbered c hc)

/-- **A call that begins goes round**, and no errand has its number. -/
theorem invoke_goes (h : s.InOrder) (data : Bytes) (keys : List Key) (route : Route)
    (seq : Option SeqNo) :
    s.Goes s.courier.fresh (.pausing 0) (some (.round s.courier.pool.closed))
        (s.invoke data keys route seq).2 ∧
      (s.invoke data keys route seq).2.state.courier.Past s.courier.fresh := by
  obtain ⟨identity, entry, heq⟩ := s.invoke_eq data keys route seq
  rw [heq]
  constructor
  · have hcall : (s.enlist identity entry route).call? s.courier.fresh =
        some { id := s.courier.fresh, entry, route } := by
      have hnone := call?_fresh h
      rw [call?] at hnone
      rw [call?, enlist, List.find?_append, hnone]
      simp
    have hgoes := goRound_goes (c := { id := s.courier.fresh, entry, route }) hcall
    refine Goes.of_others (s := s) hgoes rfl ?_ rfl
    exact (s.pausesOf_alarms _).trans (pausesOf_goRound _ _).symm
  · -- its errands get later numbers
    have hpast : s.courier.takeNumber.2.Past s.courier.fresh :=
      ⟨Nat.lt_succ_self _, fun e he => Nat.ne_of_lt (h.courier.numbered e he)⟩
    obtain ⟨⟨xs, _, hcourier⟩, _⟩ := (s.enlist identity entry route).goRound_calms
      { id := s.courier.fresh, entry, route }
    show (goRound _ _).state.courier.Past _
    rw [hcourier]
    exact hpast.follows (Courier.run_lasts h.courier.takeNumber xs).toFollows

/-- Other calls do not notice. -/
theorem invoke_concerns (s : Session) (data : Bytes) (keys : List Key) (route : Route)
    (seq : Option SeqNo) : s.Concerns s.courier.fresh (s.invoke data keys route seq).2 := by
  obtain ⟨identity, entry, heq⟩ := s.invoke_eq data keys route seq
  obtain ⟨hothers, _, hresults⟩ := (s.enlist identity entry route).goRound_concerns
    { id := s.courier.fresh, entry, route }
  rw [heq]
  refine ⟨fun id hid => (hothers id hid).trans ?_, fun d hd => ?_, hresults⟩
  · rw [call?, call?, enlist, List.find?_append]
    simp [Ne.symm hid]
  · exact s.who_of_alarms hd

/-- What a call is told moves it on. -/
theorem step_call_goes (h : s.call? id = some c) (sig : Signal) :
    s.Goes id c.phase (s.ownBeat? c sig) (s.step id sig) := by
  obtain rfl := id_of_call? h
  unfold step ownBeat?
  rw [h]
  dsimp only
  cases sig with
  | proceed     =>
      cases hstage : c.stage with
      | attempting a  =>
          rw [Call.phase_trying (by rw [hstage]; exact nofun)]
          exact advance_goes h a
      | syncing _ _   => exact rests_goes h
      | pausing       => exact rests_goes h
  | rested      =>
      cases hstage : c.stage with
      | attempting _  => exact rests_goes h
      | syncing _ _   => exact rests_goes h
      | pausing       =>
          rw [Call.phase_pausing hstage]
          exact goRound_goes h
  | expired     => exact expire_goes h
  | connected _ => exact rests_goes h
  | answered _  => exact rests_goes h

theorem step_call_concerns (h : s.call? id = some c) (sig : Signal) :
    s.Concerns id (s.step id sig) := by
  obtain rfl := id_of_call? h
  unfold step
  rw [h]
  dsimp only
  split
  · exact s.advance_concerns c _
  · exact s.goRound_concerns c
  · exact s.expire_concerns c
  · exact s.idle_concerns c.id

/-- **Every input moves a call on as the loop says.** -/
theorem react_goes (h : s.Sound) (hpast : s.courier.Past id) (x : Input) :
    s.Goes id (s.phase id) (s.beat? id x) (s.react x) := by
  cases x with
  | invoke data keys route seq =>
      have hid : id ≠ s.courier.fresh := Nat.ne_of_lt hpast.1
      rw [beat?, if_neg hid]
      exact (s.invoke_concerns data keys route seq).goes hid
  | close                      => exact .rests
  | signal i sig               =>
      cases hcall : s.call? i with
      | none   =>
          rw [beat?_of_errand hcall]
          show s.Goes id (s.phase id) _ (s.step i sig)
          rw [step_errand hcall]
          exact absorb_goes h hpast hcall
      | some c =>
          rw [beat?_of_call hcall]
          split
          · rename_i hid
            subst hid
            rw [phase_of_call? hcall]
            exact step_call_goes hcall sig
          · rename_i hid
            exact (step_call_concerns hcall sig).goes (Ne.symm hid)

end Session

end WitnessReplication

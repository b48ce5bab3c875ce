import WitnessReplication.Proofs.LineRuns
import WitnessReplication.Proofs.SteadyCourier

/-!
# Steady calls — a sole call to a cluster that does not change

    A call on the fast route waits for errands that are under way, and for nothing else.  Its errand
    to the leader ends at the leader, which is believed to lead from then on.  If somebody else was
    believed to lead when the attempt began, its witnesses were selected for the wrong leader, and
    the attempt fails; but the next one begins with the right belief, and that one commits.

    Whatever is told to such a session leaves less to do: fewer attempts, then less that the call
    still has to decide, then less for its errands.

* **`Session.Serves`** — what a session may be told.
* **`Call.Heading`** — a call that is on its way, with all it waits for under way.
* **`serve_approaches`** — what it does when it is told something: it goes on, or ends with success.
* **`Steady.unstuck`** — while it is under way, there is something it can be told.
-/

namespace WitnessReplication

/-- No more members are selected than there are. -/
theorem WitnessSelection.length_witnesses_le (s : WitnessSelection) (members leader : Nat) :
    (s.witnesses members leader).length ≤ members := by
  cases s with
  | excludeLeader =>
      exact Nat.le_trans (List.length_filter_le ..) (Nat.le_of_eq List.length_range)
  | allMembers    => exact Nat.le_of_eq List.length_range

/-- The errands that a call waits for. -/
def Call.Stage.waitsFor : Call.Stage → List Nat
  | .attempting a => (if a.answer.isNone then [a.leader] else []) ++ a.pending
  | .syncing _ id => [id]
  | .pausing      => []

/-- An attempt without an answer waits for all its errands. -/
theorem Call.Stage.waitsFor_unanswered {a : Attempt} (h : a.answer = none) :
    (Call.Stage.attempting a).waitsFor = a.leader :: a.pending := by
  show (if a.answer.isNone then [a.leader] else []) ++ a.pending = _
  rw [h]
  rfl

/-- One that has an answer waits for those to the witnesses. -/
theorem Call.Stage.waitsFor_answered {a : Attempt} {answer : Except SessionError Reply}
    (h : a.answer = some answer) : (Call.Stage.attempting a).waitsFor = a.pending := by
  show (if a.answer.isNone then [a.leader] else []) ++ a.pending = _
  rw [h]
  rfl

/-- An attempt is complete exactly if it waits for nobody. -/
theorem Attempt.isComplete_iff {a : Attempt} :
    a.isComplete = true ↔ (Call.Stage.attempting a).waitsFor = [] := by
  unfold isComplete
  cases hanswer : a.answer with
  | none   => simp [Call.Stage.waitsFor_unanswered hanswer]
  | some _ => simp [Call.Stage.waitsFor_answered hanswer]

/-- A witness that was heard of is not waited for any more. -/
theorem Call.Stage.waitsFor_hear {a : Attempt} {i : Nat} (hne : a.leader ≠ i) (ok : Bool) :
    (Call.Stage.attempting (a.hear i ok)).waitsFor = (Call.Stage.attempting a).waitsFor.erase i := by
  show (if a.answer.isNone then [a.leader] else []) ++ a.pending.erase i =
    ((if a.answer.isNone then [a.leader] else []) ++ a.pending).erase i
  rw [List.erase_append_right]
  split
  · exact fun hi => hne (List.mem_singleton.1 hi).symm
  · exact List.not_mem_nil

namespace Call

/-- How much the two attempts that a call may need have to do: each sends out an errand to the leader,
    a record for every member at most, and a sync. -/
def attemptEffort (size : Nat) : Nat := 2 * Courier.leadEffort size + 4 * size + 2

/-- An attempt under way may need a sync. -/
def Stage.effort (size : Nat) : Stage → Nat
  | .attempting _ => Courier.leadEffort size + 1
  | .syncing _ _  => 0
  | .pausing      => 0

/-- How much a call has to do besides what its errands have. -/
def effort (size : Nat) (c : Call) : Nat :=
  (2 - c.attempts) * attemptEffort size + c.stage.effort size

theorem effort_with_stage (c : Call) (stage : Stage) (size : Nat) :
    ({ c with stage } : Call).effort size =
      (2 - c.attempts) * attemptEffort size + stage.effort size := rfl

/-- What an attempt has heard of makes no difference. -/
theorem effort_of_attempting {c : Call} {a : Attempt} (h : c.stage = .attempting a) (b : Attempt)
    (size : Nat) : c.effort size = ({ c with stage := .attempting b } : Call).effort size := by
  rw [effort, effort, h]
  rfl

/-- How a call stands at a stage: an attempt is answered by the leader only, and a call that pauses or
    makes its second attempt has found the leader. -/
def OnCourse (c : Call) (leader first guess : Nat) : Prop :=
  match c.stage with
  | .attempting a =>
      a.route = .fast ∧ (c.attempts = 1 → a.snapshot = first) ∧
        (c.attempts = 2 → a.snapshot = leader) ∧
        ∀ answer, a.answer = some answer → guess = leader ∧ ∃ reply, answer = .ok reply
  | .syncing _ _  => guess = leader
  | .pausing      => c.attempts = 1 ∧ first ≠ leader ∧ guess = leader

/-- A call on the fast route that began when `first` was believed to lead is on its way: everything it
    waits for is under way, and it makes a second attempt only if `first` did not lead. -/
structure Heading (c : Call) (leader first : Nat) (courier : Courier) : Prop where
  route    : c.route = .fast
  heads    : courier.Heads leader
  numbered : courier.Past c.id
  attended : ∀ i ∈ c.stage.waitsFor, ∃ e ∈ courier.errands, e.id = i
  distinct : c.stage.waitsFor.Nodup
  attempts : c.attempts = 1 ∨ c.attempts = 2 ∧ first ≠ leader ∧ courier.guess = leader
  onCourse : c.OnCourse leader first courier.guess

variable {c c' : Call} {leader first : Nat} {courier courier' : Courier}

/-- More happens, and everything the call waits for is still under way. -/
theorem Heading.follows (h : c.Heading leader first courier) (hf : courier.Follows courier')
    (heads : courier'.Heads leader) (stays : courier.guess = leader → courier'.guess = leader)
    (attended : ∀ i ∈ c.stage.waitsFor, ∃ e ∈ courier'.errands, e.id = i) :
    c.Heading leader first courier' where
  route    := h.route
  heads    := heads
  numbered := h.numbered.follows hf
  attended := attended
  distinct := h.distinct
  attempts := h.attempts.imp_right fun ⟨htwo, hwrong, hguess⟩ => ⟨htwo, hwrong, stays hguess⟩
  onCourse := by
    have honCourse := h.onCourse
    unfold OnCourse at honCourse ⊢
    cases hstage : c.stage with
    | attempting a        =>
        rw [hstage] at honCourse
        obtain ⟨hroute, hfirst, hsecond, hanswer⟩ := honCourse
        exact ⟨hroute, hfirst, hsecond, fun answer ha => (hanswer answer ha).imp_left stays⟩
    | syncing data errand =>
        rw [hstage] at honCourse
        exact stays honCourse
    | pausing             =>
        rw [hstage] at honCourse
        exact ⟨honCourse.1, honCourse.2.1, stays honCourse.2.2⟩

end Call

namespace Courier

/-- A step of an errand that is found. -/
theorem turns_of_mem {c : Courier} (h : ∀ e ∈ c.errands, e.Placed c.pool.size) {e : Errand}
    {id : Nat} (hfind : c.find? id = some e) (s : Signal) : c.Turns e s (c.step id s) := by
  rcases step_advances h id s with ⟨hnone, _⟩ | ⟨f, hf, _, hadv⟩
  · exact nomatch hnone.symm.trans hfind
  · rw [Option.some.inj (hfind.symm.trans hf)]
    exact hadv.turns

/-- Whoever is under way still is after a step, unless the step has ended it. -/
theorem Turns.under_way {c : Courier} {e : Errand} {s : Signal} {p : Step} (h : c.Turns e s p)
    {i : Nat} (hi : ∃ f ∈ c.errands, f.id = i) (hstill : p.results = [] ∨ i ≠ e.id) :
    ∃ f ∈ p.state.errands, f.id = i := by
  obtain ⟨f, hf, rfl⟩ := hi
  cases h with
  | rests errands _             => exact ⟨f, errands ▸ hf, rfl⟩
  | moves e' _ _ _ errands _    =>
      rw [errands]
      by_cases hsame : f.id = e'.id
      · exact ⟨e', List.mem_map.2 ⟨f, hf, if_pos hsame⟩, hsame.symm⟩
      · exact ⟨f, List.mem_map.2 ⟨f, hf, if_neg hsame⟩, rfl⟩
  | ends _ _ errands results    =>
      have hne : f.id ≠ e.id := hstill.resolve_left (by rw [results]; exact nofun)
      rw [errands]
      exact ⟨f, List.mem_filter.2 ⟨hf, by simpa using hne⟩, rfl⟩

end Courier

namespace Session

/-- What a session may be told: an errand what the members make of what it waits for, and a call that
    it may go on, or that its time is up if it was given only so much. -/
inductive Serves (b : MemberBehaviour) (s : Session) : Input → Prop
  | errand {e : Errand} {sig : Signal} (mem : e ∈ s.courier.errands)
      (serves : s.courier.Serves b e sig) : Serves b s (.signal e.id sig)
  | completes {c : Call} (mem : c ∈ s.calls) (may : mayProceed c = true) :
      Serves b s (.signal c.id .proceed)
  | wakes {c : Call} (mem : c ∈ s.calls) (stage : c.stage = .pausing) :
      Serves b s (.signal c.id .rested)
  | expires {c : Call} (mem : c ∈ s.calls) (limited : s.settings.retry.deadline ≠ none) :
      Serves b s (.signal c.id .expired)

/-- How much a session has to do. -/
def effort (s : Session) : Nat :=
  s.courier.effort + (s.calls.map (·.effort s.courier.pool.size)).sum

variable {s t : Session} {c : Call} {b : MemberBehaviour} {leader first : Nat}

theorem effort_of_sole (h : s.calls = [c]) :
    s.effort = s.courier.effort + c.effort s.courier.pool.size := by
  simp [effort, h]

theorem effort_of_none (h : s.calls = []) : s.effort = s.courier.effort := by
  simp [effort, h]

/-- What becomes of a sole call that is on its way. -/
inductive Comes (leader first : Nat) (c : Call) (p : Step) : Prop
  /-- It goes on. -/
  | goesOn (c' : Call) (id : c'.id = c.id) (entry : c'.entry = c.entry)
      (calls : p.state.calls = [c']) (heading : c'.Heading leader first p.state.courier)
      (results : p.results = [])
  /-- It ends with success. -/
  | ends (out : CommandOutput) (calls : p.state.calls = [])
      (heads : p.state.courier.Heads leader) (guess : p.state.courier.guess = leader)
      (results : p.results = [(c.id, .returned (.ok out))])

/-- The call ends with success. -/
theorem finish_comes (hcalls : t.calls = [c]) (heads : t.courier.Heads leader)
    (guess : t.courier.guess = leader) (first : Nat) (out : CommandOutput) :
    Comes leader first c (t.finish c (.ok out)) ∧
      (t.finish c (.ok out)).state.effort = t.courier.effort := by
  have hnil := calls_finish hcalls (.ok out)
  exact ⟨.ends out hnil heads guess rfl, effort_of_none hnil⟩

theorem effort_put (hcalls : t.calls = [c]) (c' : Call) (hid : c'.id = c.id) :
    (t.put c').effort = t.courier.effort + c'.effort t.courier.pool.size :=
  effort_of_sole (calls_put hcalls hid)

/-- The call goes on at another stage. -/
theorem put_comes (hcalls : t.calls = [c]) (c' : Call) (hid : c'.id = c.id)
    (hentry : c'.entry = c.entry) (h : c'.Heading leader first t.courier) (ds : List (Demand Nat)) :
    Comes leader first c { state := t.put c', demands := ds } ∧
      (t.put c').effort = t.courier.effort + c'.effort t.courier.pool.size :=
  ⟨.goesOn c' hid hentry (calls_put hcalls hid) h rfl, effort_put hcalls c' hid⟩

/-- The call ends, and there is less to do. -/
theorem commit_comes (hcalls : t.calls = [c]) {a : Attempt}
    (h : ({ c with stage := .attempting a } : Call).Heading leader first t.courier)
    (guess : t.courier.guess = leader) (out : CommandOutput) :
    Comes leader first c (t.finish c (.ok out)) ∧
      (t.finish c (.ok out)).state.effort < t.courier.effort +
        ({ c with stage := .attempting a } : Call).effort t.courier.pool.size := by
  obtain ⟨hcomes, heffort⟩ := finish_comes hcalls h.heads guess first out
  refine ⟨hcomes, ?_⟩
  rw [heffort, Call.effort_with_stage, Call.Stage.effort]
  omega

/-- The first attempt has failed, since its witnesses were selected for somebody else.  There is
    another attempt, so the call pauses. -/
theorem conclude_comes (hcalls : t.calls = [c])
    (hretry : ∀ m, t.settings.retry.maxAttempts = some m → 2 ≤ m) {a : Attempt}
    (h : ({ c with stage := .attempting a } : Call).Heading leader first t.courier)
    (hone : c.attempts = 1) (hwrong : first ≠ leader) (hguess : t.courier.guess = leader) :
    Comes leader first c (t.conclude c .leaderChanged) ∧
      (t.conclude c .leaderChanged).state.effort < t.courier.effort +
        ({ c with stage := .attempting a } : Call).effort t.courier.pool.size := by
  have hverdict : t.settings.retry.verdict c.attempts .leaderChanged = none := by
    refine RetryPolicy.verdict_eq_none_iff.2 ⟨rfl, fun m hm => ?_⟩
    have htwo := hretry m hm
    omega
  have hconclude : t.conclude c .leaderChanged =
      { state   := t.put { c with stage := .pausing }
        demands := [.pause c.id t.settings.retry.backoff] } := by
    unfold conclude
    rw [hverdict]
  have hpauses : ({ c with stage := .pausing } : Call).Heading leader first t.courier :=
    ⟨h.route, h.heads, h.numbered, (fun _ hi => nomatch hi), List.nodup_nil, h.attempts, hone,
      hwrong, hguess⟩
  rw [hconclude]
  obtain ⟨hcomes, heffort⟩ := put_comes hcalls { c with stage := .pausing } rfl rfl hpauses
    [.pause c.id t.settings.retry.backoff]
  refine ⟨hcomes, ?_⟩
  rw [heffort, Call.effort_with_stage, Call.effort_with_stage, Call.Stage.effort, Call.Stage.effort]
  omega

/-- The leader is made to order the command: one more errand sets off for it. -/
theorem sync_comes (hcalls : t.calls = [c]) (ho : t.courier.InOrder)
    (hlisted : leader < t.courier.pool.size) {a : Attempt}
    (h : ({ c with stage := .attempting a } : Call).Heading leader first t.courier)
    (hguess : t.courier.guess = leader) (data : Bytes) :
    Comes leader first c (t.follow c (.sync data)) ∧
      (t.follow c (.sync data)).state.effort < t.courier.effort +
        ({ c with stage := .attempting a } : Call).effort t.courier.pool.size := by
  have hset := Courier.beginLead_setOut ho (.sync (some c.entry))
  have hsyncs : ({ c with stage := .syncing data t.courier.fresh } : Call).Heading leader first
      (t.courier.beginLead (.sync (some c.entry))).2 := by
    refine ⟨h.route, h.heads.beginLead ho.guess hlisted rfl, h.numbered.follows hset.follows,
      fun i hi => ?_, List.nodup_singleton _, h.attempts, hguess⟩
    rw [List.mem_singleton.1 hi]
    exact ⟨_, List.mem_append_right _ (List.mem_singleton.2 rfl), rfl⟩
  obtain ⟨hcomes, heffort⟩ := put_comes
    (t := { t with courier := (t.courier.beginLead (.sync (some c.entry))).2 }) hcalls
    { c with stage := .syncing data t.courier.fresh } rfl rfl hsyncs []
  have hfollow : t.follow c (.sync data) =
      { state := ({ t with courier := (t.courier.beginLead (.sync (some c.entry))).2 }).put
          { c with stage := .syncing data t.courier.fresh } } := rfl
  rw [hfollow]
  refine ⟨hcomes, ?_⟩
  rw [heffort, hset.follows.size, Courier.effort_beginLead, Call.effort_with_stage,
    Call.effort_with_stage, Call.Stage.effort, Call.Stage.effort]
  omega

/-- An attempt has moved on, and all that it knows is on course.  If nobody is waited for any more,
    there is less to do. -/
theorem advance_comes (hcalls : t.calls = [c]) (ho : t.courier.InOrder)
    (hlisted : leader < t.courier.pool.size)
    (hretry : ∀ m, t.settings.retry.maxAttempts = some m → 2 ≤ m) {a : Attempt}
    (h : ({ c with stage := .attempting a } : Call).Heading leader first t.courier) :
    Comes leader first c (t.advance c a) ∧
      (t.advance c a).state.effort + (if a.isComplete then 1 else 0) ≤ t.courier.effort +
        ({ c with stage := .attempting a } : Call).effort t.courier.pool.size := by
  unfold advance
  split
  · rename_i answer hanswer hpending
    obtain ⟨hroute, hfirst, hsecond, hanswered⟩ := h.onCourse
    obtain ⟨hguess, reply, rfl⟩ := hanswered answer hanswer
    rw [if_pos (Attempt.isComplete_iff.2 ((Call.Stage.waitsFor_answered hanswer).trans hpending))]
    have hdecides := a.decides t.courier.guess reply
    generalize a.decision t.courier.guess (.ok reply) = d at hdecides
    cases hdecides with
    | leaderOnly route           => exact nomatch route.symm.trans hroute
    | leaderSynced _ _ _         => exact commit_comes hcalls h hguess _
    | witnessQuorum _ _ _ _      => exact commit_comes hcalls h hguess _
    | sync _ _ _ _               => exact sync_comes hcalls ho hlisted h hguess _
    | leaderChanged _ moved      =>
        -- the second attempt is made for the leader, so this is the first one
        rcases h.attempts with hone | ⟨htwo, _, _⟩
        · refine conclude_comes hcalls hretry h hone ?_ hguess
          rw [← hfirst hone, ← hguess]
          exact moved.symm
        · exact absurd (hguess.trans (hsecond htwo).symm) moved
  · rename_i hwaits
    have hincomplete : ¬ a.isComplete = true := by
      rw [Attempt.isComplete_iff]
      intro hnobody
      cases hanswer : a.answer with
      | none        => exact List.cons_ne_nil _ _ (Call.Stage.waitsFor_unanswered hanswer ▸ hnobody)
      | some answer => exact hwaits answer hanswer (Call.Stage.waitsFor_answered hanswer ▸ hnobody)
    obtain ⟨hcomes, heffort⟩ := put_comes hcalls { c with stage := .attempting a } rfl rfl h []
    rw [if_neg hincomplete]
    exact ⟨hcomes, Nat.le_of_eq heffort⟩

/-- A call's next attempt is on its way, with everybody under way that it waits for. -/
theorem heading_nextAttempt (ho : t.courier.InOrder) (hlisted : leader < t.courier.pool.size)
    (hroute : c.route = .fast) (heads : t.courier.Heads leader) (hpast : t.courier.Past c.id)
    (hattempts : c.attempts = 0 ∧ t.courier.guess = first ∨
      c.attempts = 1 ∧ first ≠ leader ∧ t.courier.guess = leader) :
    ({ c with
      attempts := c.attempts + 1
      stage    := .attempting (t.nextAttempt c) } : Call).Heading leader first (t.sendsOut c) := by
  have hlead := Courier.beginLead_setOut ho (.command c.entry)
  have hsent := Courier.beginRecords_sentOut hlead.order c.entry (t.selects c)
  have herrands : (t.sendsOut c).errands = (t.courier.beginLead (.command c.entry)).2.errands ++
      Courier.recordErrands c.entry t.courier.knownTerm (t.courier.fresh + 1) (t.selects c) := by
    rw [sendsOut, Courier.beginRecords_eq]
    rfl
  have hguess : (t.sendsOut c).guess = t.courier.guess := hsent.guess.trans hlead.guess
  refine ⟨hroute, (heads.beginLead ho.guess hlisted rfl).beginRecords _ _,
    hpast.follows (hlead.follows.trans hsent.follows), fun i hi => ?attended, ?distinct, ?attempts,
    hroute, fun hone => ?first, fun htwo => ?second, nofun⟩
  case attended =>
    rw [herrands]
    rcases List.mem_cons.1 hi with rfl | hi
    · exact ⟨_, List.mem_append_left _ (List.mem_append_right _ (List.mem_singleton.2 rfl)), rfl⟩
    · have hfst : (List.range' (t.courier.fresh + 1) (t.selects c).length).length ≤
          (t.selects c).length := Nat.le_of_eq List.length_range'
      have hi' : i ∈ List.range' (t.courier.fresh + 1) (t.selects c).length := hi
      rw [← List.map_fst_zip hfst] at hi'
      obtain ⟨p, hp, rfl⟩ := List.mem_map.1 hi'
      exact ⟨_, List.mem_append_right _ (List.mem_map.2 ⟨p, hp, rfl⟩), rfl⟩
  case distinct =>
    show (List.range' t.courier.fresh ((t.selects c).length + 1)).Nodup
    exact List.nodup_range' ..
  case attempts =>
    rw [hguess]
    rcases hattempts with ⟨hzero, _⟩ | ⟨hone, hwrong, hright⟩
    · exact Or.inl (congrArg (· + 1) hzero)
    · exact Or.inr ⟨congrArg (· + 1) hone, hwrong, hright⟩
  case first    =>
    have hzero : c.attempts = 0 := Nat.succ.inj hone
    rcases hattempts with ⟨_, hfirst⟩ | ⟨hone', _⟩
    · exact hfirst
    · exact absurd (hzero.symm.trans hone') nofun
  case second   =>
    have hone : c.attempts = 1 := Nat.succ.inj htwo
    rcases hattempts with ⟨hzero, _⟩ | ⟨_, _, hright⟩
    · exact absurd (hzero.symm.trans hone) nofun
    · exact hright

/-- A call makes its next attempt. -/
theorem goRound_heading (hcalls : t.calls = [c]) (ho : t.courier.InOrder)
    (hopen : t.courier.pool.closed = false) (hlisted : leader < t.courier.pool.size)
    (hroute : c.route = .fast) (heads : t.courier.Heads leader) (hpast : t.courier.Past c.id)
    (hattempts : c.attempts = 0 ∧ t.courier.guess = first ∨
      c.attempts = 1 ∧ first ≠ leader ∧ t.courier.guess = leader) :
    (t.goRound c).results = [] ∧
      (∃ c', c'.id = c.id ∧ c'.entry = c.entry ∧ (t.goRound c).state.calls = [c'] ∧
        c'.Heading leader first (t.goRound c).state.courier) ∧
      (t.goRound c).state.effort < t.courier.effort +
        (2 - c.attempts) * Call.attemptEffort t.courier.pool.size := by
  have hlead := Courier.beginLead_setOut ho (.command c.entry)
  have hsent := Courier.beginRecords_sentOut hlead.order c.entry (t.selects c)
  have hgo : t.goRound c =
      { state := { t with courier := t.sendsOut c }.put { c with
          attempts := c.attempts + 1
          stage    := .attempting (t.nextAttempt c) } } := by
    rw [goRound, hopen, startAttempt_eq]
    rfl
  have heffort := effort_put (t := { t with courier := t.sendsOut c }) hcalls
    { c with attempts := c.attempts + 1, stage := .attempting (t.nextAttempt c) } rfl
  have hsize : (t.sendsOut c).pool.size = t.courier.pool.size :=
    (hlead.follows.trans hsent.follows).size
  have hselects : (t.selects c).length ≤ t.courier.pool.size := by
    rw [selects, hroute]
    exact WitnessSelection.length_witnesses_le ..
  have hsends : (t.sendsOut c).effort = t.courier.effort + Courier.leadEffort t.courier.pool.size +
      4 * (t.selects c).length := by
    rw [sendsOut, Courier.effort_beginRecords, Courier.effort_beginLead]
  rw [hgo]
  refine ⟨rfl, ⟨{ c with
      attempts := c.attempts + 1
      stage    := .attempting (t.nextAttempt c) }, rfl, rfl, calls_put hcalls rfl,
    heading_nextAttempt ho hlisted hroute heads hpast hattempts⟩, ?_⟩
  rw [heffort]
  show (t.sendsOut c).effort + (_ + Call.Stage.effort _ _) < _
  rw [hsends, hsize, Call.Stage.effort]
  rcases hattempts with ⟨hzero, _⟩ | ⟨hone, _⟩
  · simp only [hzero, Call.attemptEffort]
    omega
  · simp only [hone, Call.attemptEffort]
    omega

/-! ## What is told -/

/-- What becomes of a session that is told something, with its sole call on its way. -/
structure Approaches (s : Session) (leader first : Nat) (c : Call) (p : Step) : Prop where
  comes  : Comes leader first c p
  effort : p.state.effort < s.effort

/-- What is waited for plays no part. -/
theorem Approaches.of_demands {p q : Step} (h : s.Approaches leader first c p)
    (hstate : q.state = p.state) (hresults : q.results = p.results) :
    s.Approaches leader first c q where
  comes  := by
    cases h.comes with
    | goesOn c' id entry calls heading results =>
        exact .goesOn c' id entry (hstate ▸ calls) (hstate ▸ heading) (hresults ▸ results)
    | ends out calls heads guess results       =>
        exact .ends out (hstate ▸ calls) (hstate ▸ heads) (hstate ▸ guess) (hresults ▸ results)
  effort := hstate ▸ h.effort

/-- A session whose sole call is on its way, in a cluster that does not change. -/
structure Steady (s : Session) (b : MemberBehaviour) (leader first : Nat) (c : Call) : Prop where
  sole    : s.Sole
  order   : s.InOrder
  lined   : s.courier.Lined
  stable  : b.Stable s.courier.pool.members leader
  retry   : ∀ m, s.settings.retry.maxAttempts = some m → 2 ≤ m
  patient : s.settings.retry.deadline = none
  calls   : s.calls = [c]
  heading : c.Heading leader first s.courier
  /-- The errand that the call's request goes with looks for the leader. -/
  leading : ∀ i, c.stage.errand? = some i → ∀ e ∈ s.courier.errands, e.id = i → e.Leads

namespace Steady

variable (h : s.Steady b leader first c)
include h

/-- An errand has gone on, and the call goes on waiting. -/
theorem still {courier : Courier} (hf : s.courier.Follows courier)
    (hheads : courier.Heads leader) (hless : courier.effort < s.courier.effort)
    (hstays : s.courier.guess = leader → courier.guess = leader)
    (hattended : ∀ i ∈ c.stage.waitsFor, ∃ e ∈ courier.errands, e.id = i)
    (ds : List (Demand Nat)) :
    s.Approaches leader first c { state := { s with courier }, demands := ds } where
  comes  := .goesOn c rfl rfl h.calls (h.heading.follows hf hheads hstays hattended) rfl
  effort := by
    have hafter : ({ s with courier } : Session).effort = courier.effort +
        c.effort courier.pool.size := effort_of_sole (s := { s with courier }) h.calls
    show ({ s with courier } : Session).effort < _
    rw [hafter, effort_of_sole h.calls, hf.size]
    omega

/-- The leader has answered the errand that the call's request went with. -/
theorem led {courier : Courier} (hf : s.courier.Follows courier) (ho : courier.InOrder)
    (hheads : courier.Heads leader) (hless : courier.effort < s.courier.effort)
    (hguess : courier.guess = leader) {i : Nat} (hawaited : c.stage.awaited? = some i)
    (hunderWay : ∀ j ∈ c.stage.waitsFor, j ≠ i → ∃ e ∈ courier.errands, e.id = j) (reply : Reply) :
    s.Approaches leader first c ({ s with courier }.led c i (.ok reply)) := by
  have hheading := h.heading
  unfold Session.led
  cases hstage : c.stage with
  | pausing             => rw [hstage] at hawaited; exact nomatch hawaited
  | syncing data errand =>
      rw [hstage] at hawaited
      obtain rfl := Option.some.inj hawaited
      dsimp only
      rw [if_pos rfl]
      obtain ⟨hcomes, heffort⟩ := finish_comes (t := { s with courier }) h.calls hheads
        hguess first ⟨c.entry.seq, data, .explicitSync⟩
      refine ⟨hcomes, ?_⟩
      rw [heffort, effort_of_sole h.calls]
      exact Nat.lt_of_lt_of_le hless (Nat.le_add_right ..)
  | attempting a        =>
      rw [hstage] at hawaited
      obtain ⟨hnone, rfl⟩ := Call.Stage.awaited?_attempting.1 hawaited
      have hdistinct := hheading.distinct
      rw [hstage, Call.Stage.waitsFor_unanswered hnone] at hdistinct hunderWay
      have honCourse := hheading.onCourse
      unfold Call.OnCourse at honCourse
      rw [hstage] at honCourse
      obtain ⟨hroute, hfirst, hsecond, _⟩ := honCourse
      have hanswered : ({ c with stage := .attempting { a with answer := some (.ok reply) } } :
          Call).Heading leader first courier := by
        refine ⟨hheading.route, hheads, hheading.numbered.follows hf, fun j hj => ?_,
          (List.nodup_cons.1 hdistinct).2, ?_, hroute, hfirst, hsecond, fun answer hanswer => ?_⟩
        · have hj' : j ∈ a.pending := hj
          refine hunderWay j (List.mem_cons_of_mem _ hj') fun hsame => ?_
          exact (List.nodup_cons.1 hdistinct).1 (hsame ▸ hj')
        · exact hheading.attempts.imp_right fun ⟨htwo, hwrong, _⟩ => ⟨htwo, hwrong, hguess⟩
        · exact ⟨hguess, reply, (Option.some.inj hanswer).symm⟩
      dsimp only
      rw [if_pos rfl]
      obtain ⟨hcomes, heffort⟩ := advance_comes (t := { s with courier }) h.calls ho
        (hf.size ▸ h.stable.lt_size) h.retry hanswered
      refine ⟨hcomes, ?_⟩
      refine Nat.lt_of_le_of_lt (Nat.le_trans (Nat.le_add_right ..) heffort) ?_
      show courier.effort + Call.effort courier.pool.size _ < _
      rw [effort_of_sole h.calls, hf.size,
        Call.effort_of_attempting hstage { a with answer := some (.ok reply) }]
      omega

/-- A witness was heard of, or an errand from before has come to something: the call goes on. -/
theorem recorded {courier : Courier} (hf : s.courier.Follows courier)
    (hheads : courier.Heads leader) (hless : courier.effort < s.courier.effort)
    (hstays : s.courier.guess = leader → courier.guess = leader) {i : Nat}
    (hother : c.stage.errand? ≠ some i)
    (hunderWay : ∀ j ∈ c.stage.waitsFor, j ≠ i → ∃ e ∈ courier.errands, e.id = j) (ok : Bool) :
    s.Approaches leader first c ({ s with courier }.deliver i (.recorded ok)) := by
  have hheading := h.heading
  have hidle : i ∉ c.stage.waitsFor → s.Approaches leader first c { state := { s with courier } } :=
    fun hnot => h.still hf hheads hless hstays
      (fun j hj => hunderWay j hj fun hsame => hnot (hsame ▸ hj)) []
  cases hstage : c.stage with
  | pausing             =>
      rw [deliver_unawaited (s := { s with courier })
        (find?_awaits_eq_none h.calls (awaits_pausing hstage))]
      exact hidle (by rw [hstage]; exact List.not_mem_nil)
  | syncing data errand =>
      rw [hstage] at hother
      have hne : errand ≠ i := fun hsame => hother (congrArg some hsame)
      have hawaits : awaits c i = false :=
        Bool.eq_false_iff.2 fun hawaits => hne ((awaits_syncing hstage).1 hawaits)
      rw [deliver_unawaited (s := { s with courier }) (find?_awaits_eq_none h.calls hawaits)]
      refine hidle fun hi => ?_
      rw [hstage] at hi
      exact hne (List.mem_singleton.1 hi).symm
  | attempting a        =>
      rw [hstage] at hother
      have hne : a.leader ≠ i := fun hsame => hother (congrArg some hsame)
      by_cases hi : i ∈ a.pending
      · have hrecorded : ({ s with courier } : Session).recorded c i ok =
            { state := put { s with courier } { c with stage := .attempting (a.hear i ok) } } := by
          unfold Session.recorded
          rw [hstage]
        rw [deliver_recorded (s := { s with courier })
          (find?_awaits h.calls ((awaits_attempting hstage).2 (Or.inr hi))), hrecorded]
        have hheard : ({ c with stage := .attempting (a.hear i ok) } : Call).Heading leader first
            courier := by
          have hwaits := Call.Stage.waitsFor_hear hne ok
          have hdistinct := hheading.distinct
          rw [hstage] at hdistinct hunderWay
          have honCourse := hheading.onCourse
          unfold Call.OnCourse at honCourse
          rw [hstage] at honCourse
          obtain ⟨hroute, hfirst, hsecond, hanswer⟩ := honCourse
          refine ⟨hheading.route, hheads, hheading.numbered.follows hf, fun j hj => ?_, ?_,
            hheading.attempts.imp_right fun ⟨htwo, hwrong, hguess⟩ => ⟨htwo, hwrong, hstays hguess⟩,
            hroute, hfirst, hsecond, fun answer ha => (hanswer answer ha).imp_left hstays⟩
          · rw [hwaits, hdistinct.mem_erase_iff] at hj
            exact hunderWay j hj.2 hj.1
          · rw [hwaits]
            exact hdistinct.erase i
        obtain ⟨hcomes, heffort⟩ := put_comes (t := { s with courier }) h.calls
          { c with stage := .attempting (a.hear i ok) } rfl rfl hheard []
        refine ⟨hcomes, ?_⟩
        show (put { s with courier } _).effort < _
        rw [heffort, effort_of_sole h.calls, Call.effort_of_attempting hstage (a.hear i ok)]
        show courier.effort + Call.effort courier.pool.size _ < _
        rw [hf.size]
        omega
      · have hawaits : awaits c i = false :=
          Bool.eq_false_iff.2 fun hawaits => ((awaits_attempting hstage).1 hawaits).elim hne hi
        rw [deliver_unawaited (s := { s with courier }) (find?_awaits_eq_none h.calls hawaits)]
        refine hidle fun hwaits => ?_
        rw [hstage] at hwaits
        cases hanswer : a.answer with
        | none   =>
            rw [Call.Stage.waitsFor_unanswered hanswer] at hwaits
            exact (List.mem_cons.1 hwaits).elim (fun hsame => hne hsame.symm) hi
        | some _ =>
            rw [Call.Stage.waitsFor_answered hanswer] at hwaits
            exact hi hwaits

/-- An errand is told what the members make of what it waits for. -/
theorem serve_errand {e : Errand} {sig : Signal} (he : e ∈ s.courier.errands)
    (hserves : s.courier.Serves b e sig) :
    s.Approaches leader first c (s.react (.signal e.id sig)) := by
  have hcall : s.call? e.id = none := by
    have hne : c.id ≠ e.id := fun hsame => h.heading.numbered.2 e he hsame.symm
    simp [call?, h.calls, hne]
  have hfind := Courier.find?_of_mem h.lined.distinct he
  have hsteered := h.sole.led c (by rw [h.calls]; exact List.mem_singleton.2 rfl)
  have hnears := Courier.serve_nears h.stable h.order.courier h.lined.distinct h.lined.unclosed
    hsteered h.heading.heads he hserves (Courier.step_goes hfind (hsteered.ofCall e he) sig)
  have htells := step_tells h.order hsteered hcall hfind sig
  obtain ⟨hfollows, horder, _⟩ := errand_reports h.order hcall sig
  have hunderWay := fun i hi => (Courier.turns_of_mem h.order.courier.placed hfind sig).under_way
    (h.heading.attended i hi)
  have hreact : s.react (.signal e.id sig) = s.absorb (s.courier.step e.id sig) :=
    step_errand hcall sig
  rw [hreact]
  generalize s.courier.step e.id sig = p at *
  generalize hresults : p.results = results at htells
  cases htells with
  | nothing _                 =>
      unfold absorb
      rw [Progress.feed_of_nil hresults]
      exact h.still hfollows hnears.heads hnears.effort hnears.stays
        (fun i hi => hunderWay i hi (Or.inl hresults)) _
  | @led request answer hp _  =>
      obtain ⟨hguess, reply, rfl⟩ := hnears.led e.id answer
        (by rw [hresults]; exact List.mem_singleton.2 rfl)
      have hawaited := hsteered.sole e he ⟨request, hp⟩
      obtain ⟨hstate, hres⟩ := s.absorb_of_singleton hresults
      rw [deliver_led (s := { s with courier := p.state })
        (find?_awaits h.calls (awaits_of_awaited hawaited))] at hstate hres
      exact (h.led hfollows horder hnears.heads hnears.effort hguess hawaited
        (fun i hi hne => hunderWay i hi (Or.inr hne)) reply).of_demands hstate hres
  | @recorded w entry ok hp _ _ =>
      obtain ⟨hstate, hres⟩ := s.absorb_of_singleton hresults
      have hother : c.stage.errand? ≠ some e.id := fun hsome =>
        Errand.not_leads_of_notes ⟨w, entry, hp⟩ (h.leading e.id hsome e he rfl)
      exact (h.recorded hfollows hnears.heads hnears.effort hnears.stays hother
        (fun i hi hne => hunderWay i hi (Or.inr hne)) ok).of_demands hstate hres

/-- **What a session does that is told something**: its call goes on, or ends with success, and there
    is less to do. -/
theorem serve_approaches {x : Input} (hserves : s.Serves b x) :
    s.Approaches leader first c (s.react x) := by
  have hmine : ∀ d ∈ s.calls, d = c := fun d hd => by
    rw [h.calls] at hd
    exact List.mem_singleton.1 hd
  cases hserves with
  | errand mem serves    => exact h.serve_errand mem serves
  | @completes d mem may =>
      obtain rfl := hmine d mem
      obtain ⟨a, hstage, hcomplete⟩ := mayProceed_iff.1 may
      have hreact : s.react (.signal d.id .proceed) = s.advance d a := step_proceed h.calls hstage
      have hself : ({ d with stage := .attempting a } : Call) = d := by rw [← hstage]
      obtain ⟨hcomes, heffort⟩ := advance_comes (a := a) h.calls h.order.courier h.stable.lt_size
        h.retry (by rw [hself]; exact h.heading)
      rw [if_pos hcomplete, hself, ← effort_of_sole h.calls] at heffort
      rw [hreact]
      exact ⟨hcomes, heffort⟩
  | @wakes d mem stage   =>
      obtain rfl := hmine d mem
      have hreact : s.react (.signal d.id .rested) = s.goRound d := step_rested h.calls stage
      have honCourse := h.heading.onCourse
      unfold Call.OnCourse at honCourse
      rw [stage] at honCourse
      obtain ⟨hresults, ⟨c', hid, hentry, hcalls, hheading⟩, heffort⟩ := goRound_heading h.calls
        h.order.courier h.lined.unclosed h.stable.lt_size h.heading.route h.heading.heads
        h.heading.numbered (Or.inr honCourse)
      rw [hreact]
      refine ⟨.goesOn c' hid hentry hcalls hheading hresults, Nat.lt_of_lt_of_le heffort ?_⟩
      rw [effort_of_sole h.calls, Call.effort, stage]
      exact Nat.le_refl _
  | expires _ limited    => exact absurd h.patient limited

end Steady

/-- Where there are errands, one of them can be told something. -/
theorem serves_of_errand (hl : s.courier.Lined)
    (stable : b.Stable s.courier.pool.members leader) {e : Errand} (he : e ∈ s.courier.errands) :
    ∃ x, s.Serves b x := by
  obtain ⟨f, hf, hcan⟩ := hl.unstuck he
  rcases hcan with hmay | ⟨m, hstage⟩ | ⟨m, hstage⟩ | hstage
  · exact ⟨_, .errand hf (.proceeds hmay)⟩
  · obtain ⟨outcome, hcan⟩ := stable.connecting m
    exact ⟨_, .errand hf (.connects hstage hcan)⟩
  · obtain ⟨request, hasks⟩ := Option.ne_none_iff_exists'.1 ((hl.fits f hf).asking m hstage)
    obtain ⟨outcome, hcan⟩ := stable.answering m request
    exact ⟨_, .errand hf (.answers hstage hasks hcan)⟩
  · exact ⟨_, .errand hf (.rests hstage)⟩

/-- **While the call is under way, there is something it or an errand can be told.** -/
theorem Steady.unstuck (h : s.Steady b leader first c) : ∃ x, s.Serves b x := by
  have hc : c ∈ s.calls := by rw [h.calls]; exact List.mem_singleton.2 rfl
  have hattended := h.heading.attended
  cases hstage : c.stage with
  | pausing             => exact ⟨_, .wakes hc hstage⟩
  | syncing data errand =>
      rw [hstage] at hattended
      obtain ⟨e, he, _⟩ := hattended errand (List.mem_singleton.2 rfl)
      exact serves_of_errand h.lined h.stable he
  | attempting a        =>
      rw [hstage] at hattended
      by_cases hcomplete : a.isComplete = true
      · exact ⟨_, .completes hc (mayProceed_iff.2 ⟨a, hstage, hcomplete⟩)⟩
      · obtain ⟨i, hi⟩ : ∃ i, i ∈ (Call.Stage.attempting a).waitsFor :=
          List.exists_mem_of_ne_nil _ fun hnobody => hcomplete (Attempt.isComplete_iff.2 hnobody)
        obtain ⟨e, he, _⟩ := hattended i hi
        exact serves_of_errand h.lined h.stable he

/-- Once the call has ended, the errands from before go on, and nothing is returned. -/
theorem serve_idle (hs : s.Sole) (ho : s.InOrder) (hl : s.courier.Lined)
    (stable : b.Stable s.courier.pool.members leader) (hheads : s.courier.Heads leader)
    (hnil : s.calls = []) {x : Input} (hserves : s.Serves b x) :
    (s.react x).state.calls = [] ∧ (s.react x).state.courier.Heads leader ∧
      (s.react x).state.effort < s.effort ∧
      ∀ id result, (id, Outcome.returned result) ∉ (s.react x).results := by
  cases hserves with
  | completes mem _       => rw [hnil] at mem; exact nomatch mem
  | wakes mem _           => rw [hnil] at mem; exact nomatch mem
  | expires mem _         => rw [hnil] at mem; exact nomatch mem
  | @errand e sig he hserves =>
      have hcall : s.call? e.id = none := by
        unfold call?
        rw [hnil]
        rfl
      have hfind := Courier.find?_of_mem hl.distinct he
      have hsteered := hs.unled hnil
      have hnears := Courier.serve_nears stable ho.courier hl.distinct hl.unclosed hsteered hheads
        he hserves (Courier.step_goes hfind (hsteered.ofCall e he) sig)
      have htells := step_tells ho hsteered hcall hfind sig
      have hreact : s.react (.signal e.id sig) = s.absorb (s.courier.step e.id sig) :=
        step_errand hcall sig
      rw [hreact]
      generalize s.courier.step e.id sig = p at *
      have hquiet : ∀ {state : Session}, state = { s with courier := p.state } →
          state.calls = [] ∧ state.courier.Heads leader ∧ state.effort < s.effort := by
        rintro _ rfl
        refine ⟨hnil, hnears.heads, ?_⟩
        rw [effort_of_none hnil, effort_of_none (s := { s with courier := p.state }) hnil]
        exact hnears.effort
      generalize hresults : p.results = results at htells
      cases htells with
      | nothing _                   =>
          unfold absorb
          rw [Progress.feed_of_nil hresults]
          obtain ⟨hcalls, hheads', hless⟩ := hquiet rfl
          exact ⟨hcalls, hheads', hless, fun _ _ => List.not_mem_nil⟩
      | @led request _ hp _         => exact nomatch hsteered.sole e he ⟨request, hp⟩
      | @recorded _ _ ok _ _ _      =>
          obtain ⟨hstate, hres⟩ := s.absorb_of_singleton hresults
          rw [deliver_unawaited (s := { s with courier := p.state }) (by rw [hnil]; rfl)]
            at hstate hres
          obtain ⟨hcalls, hheads', hless⟩ := hquiet hstate
          exact ⟨hcalls, hheads', hless, fun id result => by rw [hres]; exact List.not_mem_nil⟩

end Session

end WitnessReplication

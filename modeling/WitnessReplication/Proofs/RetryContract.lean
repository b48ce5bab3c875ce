import WitnessReplication.Proofs.OpeningRuns
import WitnessReplication.Proofs.RetryRounds

/-!
# Retry contract — what a call returns, and after how many attempts and pauses

    A call has made some attempts that failed, each with an error that another attempt may make up
    for and each followed by a pause, and fewer of them than it may make.  Then comes what ends it,
    if it has ended: a round in a closed session, a success, an error that no attempt mends, or the
    error of the last attempt that it may make.  This is the whole of its course, and it returns in
    the very step that ends it.

    A call with a deadline asks for a word when its time is up, and gives up at that word.  Whoever
    keeps the time is outside of the session; it is taken to be punctual.  What the call would have
    returned is what it returns in the same run without that word.

* **`Course`** — how a call goes that is not told that its time is up.
* **`run_course`** — every call goes so, whatever else happens in the session.
* **`Punctual`** — a call is told so when its time is up, and not otherwise.
* **`Session.Retries`** and **`call_retries`** — the contract, without a deadline and with one.
-/

namespace WitnessReplication

-- ── The course of a call ─────────────────────────────────────────────────────────────────────────

/-- Another attempt may make up for an error. -/
def SessionError.Mendable (e : SessionError) : Prop :=
  (∀ text, e ≠ .malformedResponse text) ∧ e ≠ .sessionClosed

theorem SessionError.mendable_iff {e : SessionError} : e.Mendable ↔ e.isFatal = false := by
  cases e <;> simp [Mendable, isFatal]

/-- A call may go on after attempts with these errors: it may make more than these. -/
structure RetryPolicy.Overcomes (p : RetryPolicy) (errors : List SessionError) : Prop where
  mendable : ∀ e ∈ errors, e.Mendable
  allowed  : ∀ m, p.maxAttempts = some m → errors.length < m

/-- What happens to a call during attempts that end with these errors. -/
def failed (errors : List SessionError) : List Beat :=
  errors.flatMap fun e => [.round false, .ended (.error e)]

/-- How a call goes by itself: what happens to it, the pauses that it makes, what it has returned,
    and how far it is then. -/
inductive Course (p : RetryPolicy) :
    List Beat → List Nat → List Session.Outcome → Phase → Prop where
  /-- Every attempt so far has failed and was followed by a pause. -/
  | pausing {errors : List SessionError} (overcome : p.Overcomes errors) :
      Course p (failed errors) (List.replicate errors.length p.backoff) []
        (.pausing errors.length)
  | trying {errors : List SessionError} (overcome : p.Overcomes errors) :
      Course p (failed errors ++ [.round false]) (List.replicate errors.length p.backoff) []
        (.trying (errors.length + 1))
  /-- A round begins when the session is closed. -/
  | refused {errors : List SessionError} (overcome : p.Overcomes errors) :
      Course p (failed errors ++ [.round true]) (List.replicate errors.length p.backoff)
        [.returned (.error .sessionClosed)] .over
  /-- An attempt succeeds. -/
  | committed {errors : List SessionError} {out : CommandOutput} (overcome : p.Overcomes errors) :
      Course p (failed errors ++ [.round false, .ended (.ok out)])
        (List.replicate errors.length p.backoff) [.returned (.ok out)] .over
  /-- An attempt fails with an error that no attempt mends. -/
  | fatal {errors : List SessionError} {e : SessionError} (overcome : p.Overcomes errors)
      (final : ¬ e.Mendable) :
      Course p (failed errors ++ [.round false, .ended (.error e)])
        (List.replicate errors.length p.backoff) [.returned (.error e)] .over
  /-- The last attempt that is allowed fails. -/
  | exhausted {errors : List SessionError} {e : SessionError} (overcome : p.Overcomes errors)
      (mendable : e.Mendable) (last : p.maxAttempts = some (errors.length + 1)) :
      Course p (failed errors ++ [.round false, .ended (.error e)])
        (List.replicate errors.length p.backoff)
        [.returned (.error (.retriesExhausted (errors.length + 1) e))] .over

theorem failed_concat (errors : List SessionError) (e : SessionError) :
    failed (errors ++ [e]) = failed errors ++ [.round false, .ended (.error e)] := by
  simp [failed]

/-- A call goes on after an attempt exactly if it overcomes the attempt's error too. -/
theorem RetryPolicy.Overcomes.verdict_eq_none_iff {p : RetryPolicy} {errors : List SessionError}
    (h : p.Overcomes errors) {e : SessionError} :
    p.verdict (errors.length + 1) e = none ↔ p.Overcomes (errors ++ [e]) := by
  rw [RetryPolicy.verdict_eq_none_iff, ← SessionError.mendable_iff]
  constructor
  · rintro ⟨hmend, hmore⟩
    refine ⟨fun f hf => ?_, ?_⟩
    · rcases List.mem_append.1 hf with hf | hf
      · exact h.mendable f hf
      · exact List.mem_singleton.1 hf ▸ hmend
    · rw [List.length_append]
      exact hmore
  · rintro ⟨hmend, hmore⟩
    refine ⟨hmend e List.mem_concat_self, ?_⟩
    rw [List.length_append] at hmore
    exact hmore

/-- What a call returns if it does not go on: the error itself, or that it gave up with it. -/
theorem RetryPolicy.Overcomes.verdict_eq_some {p : RetryPolicy} {errors : List SessionError}
    (h : p.Overcomes errors) {e final : SessionError}
    (hv : p.verdict (errors.length + 1) e = some final) :
    (¬ e.Mendable ∧ final = e) ∨ (e.Mendable ∧ p.maxAttempts = some (errors.length + 1) ∧
      final = .retriesExhausted (errors.length + 1) e) := by
  rw [SessionError.mendable_iff]
  unfold RetryPolicy.verdict at hv
  split at hv
  · rename_i hfatal
    exact Or.inl ⟨by simp [hfatal], (Option.some.inj hv).symm⟩
  · rename_i hmends
    cases hm : p.maxAttempts with
    | none   => simp [hm] at hv
    | some m =>
        -- it was allowed to make this attempt
        have hallowed := h.allowed m hm
        by_cases hle : m ≤ errors.length + 1
        · obtain rfl : m = errors.length + 1 := by omega
          simp only [hm, Option.any_some, decide_true, if_true, Nat.le_refl] at hv
          exact Or.inr ⟨Bool.eq_false_iff.2 hmends, rfl, (Option.some.inj hv).symm⟩
        · simp [hm, hle] at hv

/-- **One beat more** keeps a call on its course. -/
theorem Course.moves {p : RetryPolicy} {beats : List Beat} {pauses pauses' : List Nat}
    {outcomes outcomes' : List Session.Outcome} {ph ph' : Phase} {beat : Option Beat}
    (h : Course p beats pauses outcomes ph) (hm : Moves p ph beat ph' pauses' outcomes')
    (htime : beat ≠ some .expired) :
    Course p (beats ++ beat.toList) (pauses ++ pauses') (outcomes ++ outcomes') ph' := by
  cases hm with
  | rests           => simpa using h
  | refused         =>
      cases h with
      | pausing overcome => simpa using Course.refused overcome
  | begins          =>
      cases h with
      | pausing overcome => simpa using Course.trying overcome
  | commits         =>
      cases h with
      | trying overcome  => simpa using Course.committed overcome
  | fails verdict   =>
      cases h with
      | trying overcome  =>
          rcases overcome.verdict_eq_some verdict with ⟨final, rfl⟩ | ⟨mendable, last, rfl⟩
          · simpa using Course.fatal overcome final
          · simpa using Course.exhausted overcome mendable last
  | pauses verdict  =>
      cases h with
      | trying overcome  =>
          have hmore := Course.pausing (overcome.verdict_eq_none_iff.1 verdict)
          rw [failed_concat, List.length_append, List.length_singleton,
            List.replicate_succ'] at hmore
          simpa using hmore
  | expires live    => exact absurd rfl htime

/-- What is over does not move. -/
theorem Moves.of_over {p : RetryPolicy} {ph : Phase} {beat : Option Beat} {pauses : List Nat}
    {outcomes : List Session.Outcome} (h : Moves p .over beat ph pauses outcomes) :
    ph = .over ∧ outcomes = [] := by
  cases h with
  | rests        => exact ⟨rfl, rfl⟩
  | expires live => exact absurd rfl live

/-- A call whose time is up gives up. -/
theorem Moves.of_expired {p : RetryPolicy} {ph ph' : Phase} {pauses : List Nat}
    {outcomes : List Session.Outcome} (h : Moves p ph (some .expired) ph' pauses outcomes) :
    ph' = .over ∧ outcomes = [.returned (.error (.deadlineExceeded (p.deadline.getD 0)))] := by
  cases h with
  | expires live => exact ⟨rfl, rfl⟩

/-- A call returns exactly when it comes to its end. -/
theorem Moves.ends {p : RetryPolicy} {ph ph' : Phase} {beat : Option Beat} {pauses : List Nat}
    {outcomes : List Session.Outcome} (h : Moves p ph beat ph' pauses outcomes)
    (hlive : ph ≠ .over) :
    (ph' ≠ .over ∧ outcomes = []) ∨ (ph' = .over ∧ ∃ r, outcomes = [r]) := by
  cases h with
  | rests           => exact Or.inl ⟨hlive, rfl⟩
  | begins          => exact Or.inl ⟨nofun, rfl⟩
  | pauses verdict  => exact Or.inl ⟨nofun, rfl⟩
  | refused         => exact Or.inr ⟨rfl, _, rfl⟩
  | commits         => exact Or.inr ⟨rfl, _, rfl⟩
  | fails verdict   => exact Or.inr ⟨rfl, _, rfl⟩
  | expires live    => exact Or.inr ⟨rfl, _, rfl⟩

namespace Session

variable {s s₀ : Session} {id : Nat} {inputs : List Input}

-- ── What is gathered along a run ─────────────────────────────────────────────────────────────────

/-- What is seen along a run, input by input. -/
def gather {α : Type} (see : Session → Input → List α) (s : Session) : List Input → List α
  | []        => []
  | x :: rest => see s x ++ (s.react x).state.gather see rest

/-- What happens to a call in a run. -/
def beats (s : Session) (id : Nat) : List Input → List Beat :=
  s.gather fun s x => (s.beat? id x).toList

/-- The pauses that a call makes in a run. -/
def pauses (s : Session) (id : Nat) : List Input → List Nat :=
  s.gather fun s x => (s.react x).pausesOf id

/-- What a call comes to in a run. -/
def outcomes (s : Session) (id : Nat) : List Input → List Outcome :=
  s.gather fun s x => (s.react x).outcomesOf id

theorem outcomes_cons (s : Session) (id : Nat) (x : Input) (rest : List Input) :
    s.outcomes id (x :: rest) =
      (s.react x).outcomesOf id ++ (s.react x).state.outcomes id rest := rfl

theorem gather_append {α : Type} (see : Session → Input → List α) (s : Session)
    (xs ys : List Input) :
    s.gather see (xs ++ ys) = s.gather see xs ++ (s.run xs).gather see ys := by
  induction xs generalizing s with
  | nil          => rfl
  | cons x xs ih => simp only [List.cons_append, gather, run, ih, List.append_assoc]

-- ── Every run ────────────────────────────────────────────────────────────────────────────────────

/-- An activity whose number is not an errand's stays so. -/
theorem react_past (h : s.Sound) (hpast : s.courier.Past id) (x : Input) :
    (s.react x).state.courier.Past id :=
  hpast.follows (react_carries h.order x).follows

theorem run_past (h : s.Sound) (hpast : s.courier.Past id) (inputs : List Input) :
    (s.run inputs).courier.Past id :=
  hpast.follows (run_follows h.order inputs).2.2

/-- Only the word that its time is up ends a call's time. -/
theorem beat?_ne_expired {x : Input} (hx : x ≠ .signal id .expired) :
    s.beat? id x ≠ some .expired := by
  have hnone : (none : Option Beat) ≠ some .expired := (Option.some_ne_none _).symm
  have hended : ∀ o : Option (Except SessionError CommandOutput),
      o.map Beat.ended ≠ some .expired := by simp
  cases x with
  | invoke data keys route seq =>
      rw [beat?]
      split
      · simp
      · exact hnone
  | close                      => exact hnone
  | signal i sig               =>
      cases hcall : s.call? i with
      | none   =>
          rw [beat?_of_errand hcall, errandBeat?]
          split
          · unfold heardBeat?
            split
            · split
              · exact hended _
              · exact hnone
            · exact hnone
          · exact hnone
      | some c =>
          rw [beat?_of_call hcall]
          split
          · rename_i hid
            subst hid
            unfold ownBeat?
            split
            · exact hended _
            · simp
            · exact absurd rfl hx
            · exact hnone
          · exact hnone

/-- **Every call keeps its course**, whatever else happens in the session. -/
theorem run_course (h : s.Sound) (hpast : s.courier.Past id) {bs : List Beat} {ps : List Nat}
    {os : List Outcome} (hcourse : Course s.settings.retry bs ps os (s.phase id))
    (htime : .signal id .expired ∉ inputs) :
    Course s.settings.retry (bs ++ s.beats id inputs) (ps ++ s.pauses id inputs)
      (os ++ s.outcomes id inputs) ((s.run inputs).phase id) := by
  induction inputs generalizing s bs ps os with
  | nil            => simpa [beats, pauses, outcomes, gather, run] using hcourse
  | cons x rest ih =>
      have hx : x ≠ .signal id .expired := fun he => htime (he ▸ List.mem_cons_self)
      have hnext := hcourse.moves (react_goes h hpast x) (beat?_ne_expired hx)
      rw [← (react_carries h.order x).settings] at hnext ⊢
      have hrest := ih (react_sound h x) (react_past h hpast x) hnext
        fun hmem => htime (List.mem_cons_of_mem _ hmem)
      simpa [beats, pauses, outcomes, gather, run, List.append_assoc] using hrest

-- ── Calls that are over ──────────────────────────────────────────────────────────────────────────

/-- What is over stays over, and nothing comes of it any more. -/
theorem run_of_over (h : s.Sound) (hpast : s.courier.Past id) (hover : s.phase id = .over)
    (inputs : List Input) : (s.run inputs).phase id = .over ∧ s.outcomes id inputs = [] := by
  induction inputs generalizing s with
  | nil            => exact ⟨hover, rfl⟩
  | cons x rest ih =>
      have hgoes := react_goes h hpast x
      unfold Goes at hgoes
      rw [hover] at hgoes
      obtain ⟨hstays, hsilent⟩ := hgoes.of_over
      obtain ⟨hlast, hnone⟩ := ih (react_sound h x) (react_past h hpast x) hstays
      rw [outcomes_cons, hsilent, hnone]
      exact ⟨hlast, rfl⟩

/-- A call that is not over has come to nothing, and comes to one thing when it is. -/
theorem run_of_live (h : s.Sound) (hpast : s.courier.Past id) (hlive : s.phase id ≠ .over)
    (inputs : List Input) :
    ((s.run inputs).phase id ≠ .over ∧ s.outcomes id inputs = []) ∨
      ((s.run inputs).phase id = .over ∧ ∃ r, s.outcomes id inputs = [r]) := by
  induction inputs generalizing s with
  | nil            => exact Or.inl ⟨hlive, rfl⟩
  | cons x rest ih =>
      rw [outcomes_cons]
      rcases (react_goes h hpast x).ends hlive with ⟨hgoes, hsilent⟩ | ⟨hover, r, hr⟩
      · rw [hsilent, List.nil_append]
        exact ih (react_sound h x) (react_past h hpast x) hgoes
      · obtain ⟨hlast, hnone⟩ := run_of_over (react_sound h x) (react_past h hpast x) hover rest
        rw [hr, hnone]
        exact Or.inr ⟨hlast, r, rfl⟩

/-- What is told to a call that is over changes nothing. -/
theorem react_of_over (hpast : s.courier.Past id) (hover : s.phase id = .over) (sig : Signal) :
    s.react (.signal id sig) = { state := s } := by
  show s.step id sig = _
  rw [step_errand (phase_eq_over_iff.1 hover), absorb_of_past hpast]

/-- The outcome of a call that has run out of time. -/
def timeUp (s : Session) : Outcome :=
  .returned (.error (.deadlineExceeded (s.settings.retry.deadline.getD 0)))

/-- A call that is told that its time is up returns at once. -/
theorem react_expired (h : s.Sound) (hpast : s.courier.Past id) (hlive : s.phase id ≠ .over) :
    (s.react (.signal id .expired)).state.phase id = .over ∧
      (s.react (.signal id .expired)).outcomesOf id = [s.timeUp] := by
  have hgoes := react_goes h hpast (.signal id .expired)
  have hbeat : s.beat? id (.signal id .expired) = some .expired := by
    cases hcall : s.call? id with
    | none   => exact absurd (phase_eq_over_iff.2 hcall) hlive
    | some c =>
        rw [beat?_of_call hcall, if_pos rfl]
        rfl
  unfold Goes at hgoes
  rw [hbeat] at hgoes
  exact hgoes.of_expired

-- ── Time that is up ──────────────────────────────────────────────────────────────────────────────

/-- The same inputs, without the word to a call that its time is up. -/
def unhurried (id : Nat) (inputs : List Input) : List Input :=
  inputs.filter fun x => x ≠ .signal id .expired

/-- Once that word was given the call is over. -/
theorem over_of_expired (h : s.Sound) (hpast : s.courier.Past id)
    (htold : .signal id .expired ∈ inputs) : (s.run inputs).phase id = .over := by
  obtain ⟨before, after, rfl⟩ := List.append_of_mem htold
  have hsound := run_sound h before
  have hpast' := run_past h hpast before
  rw [run_append]
  refine (run_of_over (react_sound hsound _) (react_past hsound hpast' _) ?_ after).1
  by_cases hover : (s.run before).phase id = .over
  · rw [react_of_over hpast' hover]
    exact hover
  · exact (react_expired hsound hpast' hover).1

/-- **The word makes a call give up or nothing at all**: if the call does not return that its time
    is up, it is as if the word had not been given. -/
theorem run_unhurried (h : s.Sound) (hpast : s.courier.Past id) (inputs : List Input) :
    s.outcomes id inputs = s.outcomes id (unhurried id inputs) ∨
      s.outcomes id inputs = [s.timeUp] := by
  induction inputs generalizing s with
  | nil            => exact Or.inl rfl
  | cons x rest ih =>
      by_cases hover : s.phase id = .over
      · -- the word would come too late to matter
        refine Or.inl ?_
        rw [(run_of_over h hpast hover _).2, (run_of_over h hpast hover _).2]
      · by_cases hx : x = .signal id .expired
        · subst hx
          obtain ⟨hends, hreturns⟩ := react_expired h hpast hover
          refine Or.inr ?_
          rw [outcomes_cons, hreturns,
            (run_of_over (react_sound h _) (react_past h hpast _) hends rest).2]
          rfl
        · have hkeep : unhurried id (x :: rest) = x :: unhurried id rest :=
            List.filter_cons_of_pos (by simpa using hx)
          rw [hkeep, outcomes_cons, outcomes_cons]
          rcases (react_goes h hpast x).ends hover with ⟨_, hsilent⟩ | ⟨hends, _⟩
          · rw [hsilent, List.nil_append, List.nil_append]
            have hrest := ih (react_sound h x) (react_past h hpast x)
            rwa [timeUp, (react_carries h.order x).settings] at hrest
          · refine Or.inl ?_
            rw [(run_of_over (react_sound h x) (react_past h hpast x) hends _).2,
              (run_of_over (react_sound h x) (react_past h hpast x) hends _).2]

/-- The time of a call is kept, in a session to which things happen at some times: the call is told
    that its time is up when it is, and not at another time, unless it is over by then. -/
structure Punctual (s : Session) (id due : Nat) (told : List (Nat × Input)) : Prop where
  timely : ∀ time, (time, .signal id .expired) ∈ told → time = due
  prompt : ∀ early y late, told = early ++ y :: late → due < y.1 →
    (due, .signal id .expired) ∈ early ∨ (s.run (early.map Prod.snd)).call? id = none

/-- The time of a call has passed between two parts of what happens: it was told so in the first
    one, or the second one begins later. -/
def Passed (id due : Nat) (early late : List (Nat × Input)) : Prop :=
  (due, .signal id .expired) ∈ early ∨ ∃ y more, late = y :: more ∧ due < y.1

-- ── The contract ─────────────────────────────────────────────────────────────────────────────────

/-- The contract of the call of a number that begins with an input, in a session that is as it is
    then. -/
structure Retries (s : Session) (id : Nat) (x : Input) : Prop where
  /-- A call that is not told that its time is up returns by itself, where its course ends. -/
  own     : ∀ rest, .signal id .expired ∉ rest →
    Course s.settings.retry (s.beats id (x :: rest)) (s.pauses id (x :: rest))
      (s.outcomes id (x :: rest)) ((s.run (x :: rest)).phase id)
  /-- It asks to be told so if it has a deadline and the session is open, and not otherwise. -/
  alarm   : ∀ span, .deadline id span ∈ (s.react x).demands ↔
    s.settings.retry.deadline = some span ∧ s.courier.pool.closed = false
  /-- What it has returned by itself before its time is up is what it returns. -/
  inTime  : ∀ span start early late r, s.settings.retry.deadline = some span →
    (s.react x).state.Punctual id (start + span) (early ++ late) →
    (∀ y ∈ early, y.1 < start + span) →
    s.outcomes id (x :: unhurried id (early.map Prod.snd)) = [r] →
    s.outcomes id (x :: (early ++ late).map Prod.snd) = [r]
  /-- If it has not returned by itself when its time has passed, it returns that its time is up. -/
  tooLate : ∀ span start early late, s.settings.retry.deadline = some span →
    (s.react x).state.Punctual id (start + span) (early ++ late) →
    Passed id (start + span) early late →
    s.outcomes id (x :: unhurried id (early.map Prod.snd)) = [] →
    s.outcomes id (x :: (early ++ late).map Prod.snd) =
      [.returned (.error (.deadlineExceeded span))]

/-- A call that begins is at the start of its course. -/
theorem course_start (settings : SessionSettings) :
    Course settings.retry [] [] [] (.pausing 0) := by
  have hnone : settings.retry.Overcomes [] := by
    refine ⟨List.forall_mem_nil _, fun m hm => Nat.pos_of_ne_zero fun hzero => ?_⟩
    rw [hzero] at hm
    exact settings.maxAttempts_ne hm
  exact .pausing hnone

/-- An input begins a call: it goes round for the first time, and no errand has its number. -/
structure Begins (s : Session) (x : Input) : Prop where
  beat : s.beat? s.courier.fresh x = some (.round s.courier.pool.closed)
  goes : s.Goes s.courier.fresh (.pausing 0) (some (.round s.courier.pool.closed)) (s.react x)
  past : (s.react x).state.courier.Past s.courier.fresh

/-- An invocation does. -/
theorem InOrder.begins (h : s.InOrder) (data : Bytes) (keys : List Key) (route : Route)
    (seq : Option SeqNo) : s.Begins (.invoke data keys route seq) := by
  obtain ⟨hgoes, hpast⟩ := invoke_goes h data keys route seq
  exact ⟨if_pos rfl, hgoes, hpast⟩

namespace Begins

variable {x : Input} {due span : Nat} {early late : List (Nat × Input)}

/-- A call that is not told that its time is up keeps its course from the beginning. -/
theorem course (hb : s.Begins x) (h : s.Sound) {rest : List Input}
    (htime : .signal s.courier.fresh .expired ∉ rest) :
    Course s.settings.retry (s.beats s.courier.fresh (x :: rest))
      (s.pauses s.courier.fresh (x :: rest)) (s.outcomes s.courier.fresh (x :: rest))
      ((s.run (x :: rest)).phase s.courier.fresh) := by
  have hfirst := (course_start s.settings).moves hb.goes nofun
  rw [← hb.beat, ← (react_carries h.order x).settings] at hfirst
  rw [← (react_carries h.order x).settings]
  exact run_course (react_sound h x) hb.past hfirst htime

/-- After its first step a call has returned or goes on, and so at any time. -/
theorem returns (hb : s.Begins x) (h : s.Sound) (rest : List Input) :
    ((s.run (x :: rest)).phase s.courier.fresh ≠ .over ∧
        s.outcomes s.courier.fresh (x :: rest) = []) ∨
      ((s.run (x :: rest)).phase s.courier.fresh = .over ∧
        ∃ r, s.outcomes s.courier.fresh (x :: rest) = [r]) := by
  rw [outcomes_cons]
  rcases hb.goes.ends nofun with ⟨hlive, hsilent⟩ | ⟨hover, r, hr⟩
  · rw [hsilent, List.nil_append]
    exact run_of_live (react_sound h x) hb.past hlive rest
  · obtain ⟨hlast, hnone⟩ := run_of_over (react_sound h x) hb.past hover rest
    rw [hr, hnone]
    exact Or.inr ⟨hlast, r, rfl⟩

/-- What a call has returned is all that it returns. -/
theorem returned (hb : s.Begins x) (h : s.Sound) {rest : List Input} {r : Outcome}
    (hr : s.outcomes s.courier.fresh (x :: rest) = [r]) (more : List Input) :
    s.outcomes s.courier.fresh (x :: (rest ++ more)) = [r] := by
  have hover : ((s.react x).state.run rest).phase s.courier.fresh = .over := by
    rcases hb.returns h rest with ⟨_, hnone⟩ | ⟨hover, _⟩
    · rw [hnone] at hr
      exact nomatch hr
    · exact hover
  have hmore := (run_of_over (run_sound (react_sound h x) rest)
    (run_past (react_sound h x) hb.past rest) hover more).2
  rw [← List.cons_append, outcomes, gather_append]
  exact (congrArg₂ (· ++ ·) hr hmore).trans (List.append_nil [r])

/-- What a call has returned by itself before its time is up is what it returns. -/
theorem inTime (hb : s.Begins x) (h : s.Sound)
    (hpunctual : (s.react x).state.Punctual s.courier.fresh due (early ++ late))
    (hearly : ∀ y ∈ early, y.1 < due) {r : Outcome}
    (hr : s.outcomes s.courier.fresh (x :: unhurried s.courier.fresh (early.map Prod.snd)) = [r]) :
    s.outcomes s.courier.fresh (x :: (early ++ late).map Prod.snd) = [r] := by
  have hunhurried : unhurried s.courier.fresh (early.map Prod.snd) = early.map Prod.snd := by
    refine List.filter_eq_self.2 fun z hz => ?_
    obtain ⟨⟨time, z⟩, hmem, rfl⟩ := List.mem_map.1 hz
    refine decide_eq_true ?_
    rintro rfl
    have hdue := hpunctual.timely time (List.mem_append_left _ hmem)
    exact absurd (hearly _ hmem) (hdue ▸ Nat.lt_irrefl _)
  rw [hunhurried] at hr
  rw [List.map_append]
  exact hb.returned h hr _

/-- A call that has not returned by itself when its time has passed returns that it is up. -/
theorem tooLate (hb : s.Begins x) (h : s.Sound)
    (hlimit : s.settings.retry.deadline = some span)
    (hpunctual : (s.react x).state.Punctual s.courier.fresh due (early ++ late))
    (hpassed : Passed s.courier.fresh due early late)
    (hnone : s.outcomes s.courier.fresh
      (x :: unhurried s.courier.fresh (early.map Prod.snd)) = []) :
    s.outcomes s.courier.fresh (x :: (early ++ late).map Prod.snd) =
      [.returned (.error (.deadlineExceeded span))] := by
  have hsound := react_sound h x
  have hsettings := (react_carries h.order x).settings
  -- whatever is later than its time finds the call over, so it has returned something
  have hover : ((s.react x).state.run (early.map Prod.snd)).phase s.courier.fresh = .over := by
    have hword : (due, .signal s.courier.fresh .expired) ∈ early →
        ((s.react x).state.run (early.map Prod.snd)).phase s.courier.fresh = .over :=
      fun hmem => over_of_expired hsound hb.past (List.mem_map.2 ⟨_, hmem, rfl⟩)
    rcases hpassed with hmem | ⟨y, more, rfl, hlater⟩
    · exact hword hmem
    · exact (hpunctual.prompt early y more rfl hlater).elim hword phase_eq_over_iff.2
  obtain ⟨r, hr⟩ : ∃ r, s.outcomes s.courier.fresh (x :: early.map Prod.snd) = [r] := by
    rcases hb.returns h (early.map Prod.snd) with ⟨hlive, _⟩ | ⟨_, hr⟩
    · exact absurd hover hlive
    · exact hr
  rw [outcomes_cons] at hnone
  obtain ⟨hfirst, hrest⟩ := List.append_eq_nil_iff.1 hnone
  have hreturned : (s.react x).state.outcomes s.courier.fresh (early.map Prod.snd) = [r] := by
    rwa [outcomes_cons, hfirst, List.nil_append] at hr
  have hup : r = .returned (.error (.deadlineExceeded span)) := by
    rcases run_unhurried hsound hb.past (early.map Prod.snd) with hsame | hup
    · -- without the word it has returned nothing
      rw [hreturned] at hsame
      exact nomatch hsame.trans hrest
    · rw [hreturned, timeUp, hsettings, hlimit] at hup
      exact List.head_eq_of_cons_eq hup
  rw [List.map_append]
  exact hup ▸ hb.returned h hr _

end Begins

/-- **Every call keeps its contract**, in every session that was opened, whatever has happened in it
    before and whatever happens while the call is under way. -/
theorem call_retries (h : s₀.Opened) (before : List Input) (data : Bytes) (keys : List Key)
    (route : Route) (seq : Option SeqNo) :
    (s₀.run before).Retries (s₀.run before).courier.fresh (.invoke data keys route seq) := by
  have hsound := run_sound h.sound before
  have hbegins := hsound.order.begins data keys route seq
  refine ⟨fun rest htime => hbegins.course hsound htime, fun span => ?_,
    fun span start early late r _ hpunctual hearly hr => hbegins.inTime hsound hpunctual hearly hr,
    fun span start early late hlimit hpunctual hpassed hnone =>
      hbegins.tooLate hsound hlimit hpunctual hpassed hnone⟩
  obtain ⟨identity, entry, heq⟩ := (s₀.run before).invoke_eq data keys route seq
  have hdemands : ((s₀.run before).react (.invoke data keys route seq)).demands =
      (s₀.run before).alarms := congrArg Progress.demands heq
  rw [hdemands, alarms]
  cases (s₀.run before).courier.pool.closed with
  | true  => simp
  | false => simp

/-- A session with one member, in which a call may make two attempts and has fifty milliseconds. -/
def hurried : Session where
  settings :=
    { leaderBackoff := 100000000, selection := .excludeLeader, firstSeq := 0
      retry             := { maxAttempts := some 2, deadline := some 50000000 }
      leaderBackoff_pos := trio.settings.leaderBackoff_pos
      maxAttempts_ne    := by decide
      deadline_ne       := by decide
      backoff_pos       := trio.settings.backoff_pos }
  identity := ⟨⟨42⟩, ⟨0⟩⟩
  courier  :=
    { pool := ⟨[⟨⟨"m0"⟩, true, {}⟩], false⟩, guess := 0, backoff := 100000000, fresh := 2 }

theorem hurried_opened : hurried.Opened := by
  have hresults : ((Opening.run
      { settings := hurried.settings
        courier  :=
          { pool := .ofMembers [⟨"m0"⟩], guess := 0, backoff := 100000000
            errands := [⟨0, .survey 0 [], .ready⟩], fresh := 1 } }
      [(0, .proceed), (0, .connected (.ok ())), (0, .proceed), (1, .proceed)]).step 1
      (.answered (.ok (.clientId ⟨true, ⟨42⟩, some ⟨"m0"⟩⟩)))).results = [(1, .ok hurried)] := rfl
  have hmem := List.mem_singleton.2 (Eq.refl ((1 : Nat), Except.ok (ε := SessionError) hurried))
  rw [← hresults] at hmem
  exact ⟨⟨[⟨"m0"⟩], { retry := some { maxAttempts := some 2, deadline := some 50000000 } }⟩,
    _, _, 1, _, 1, rfl, hmem⟩

/-- A command for the member alone. -/
def hurriedCall : Input := .invoke [97] [] .leaderOnly none

/-- An errand asks the member, which refuses and names itself; there is nobody else to ask. -/
def refusal (errand : Nat) : List Input :=
  [.signal errand .proceed,
    .signal errand (.answered (.ok (.command ⟨false, some ⟨"m0"⟩, [], false⟩))),
    .signal errand .proceed]

/-- What happens until the time of that call is up: its errand has asked the member. -/
def untilDue : List (Nat × Input) := [(1000, .signal 3 .proceed), (50000000, .signal 2 .expired)]

/-- The member replies too late. -/
def afterDue : Nat × Input :=
  (60000000, .signal 3 (.answered (.ok (.command ⟨true, some ⟨"m0"⟩, [49], true⟩))))

theorem hurried_punctual :
    (hurried.react hurriedCall).state.Punctual 2 50000000 (untilDue ++ [afterDue]) where
  timely := fun time hmem => by simpa [untilDue, afterDue] using hmem
  prompt := by
    intro early y late heq hlater
    refine Or.inl ?_
    match early, heq with
    | [], heq              =>
        obtain rfl := (List.cons.inj heq).1
        exact absurd hlater (by decide)
    | [_], heq             =>
        obtain rfl := (List.cons.inj (List.cons.inj heq).2).1
        exact absurd hlater (by decide)
    | _ :: _ :: early, heq =>
        obtain rfl := (List.cons.inj (List.cons.inj heq).2).1
        exact List.mem_cons_of_mem _ List.mem_cons_self

/-- The member refuses twice while there is time.  Or it takes too long, and its reply finds the
    call over. -/
theorem hurried_retries :
    hurried.Opened ∧
      hurried.outcomes 2 (hurriedCall :: (refusal 3 ++ .signal 2 .rested :: refusal 4)) =
        [.returned (.error (.retriesExhausted 2 .noActiveLeader))] ∧
      hurried.pauses 2 (hurriedCall :: (refusal 3 ++ .signal 2 .rested :: refusal 4)) =
        [10000000] ∧
      hurried.outcomes 2 (hurriedCall :: (untilDue ++ [afterDue]).map Prod.snd) =
        [.returned (.error (.deadlineExceeded 50000000))] := by
  refine ⟨hurried_opened, by decide, by decide, ?_⟩
  exact (call_retries hurried_opened [] [97] [] .leaderOnly none).tooLate 50000000 0 untilDue
    [afterDue] rfl hurried_punctual (Or.inl (by decide)) (by decide)

end Session

end WitnessReplication

import WitnessReplication.Proofs.PoolClosing
import WitnessReplication.Proofs.SessionEvents

/-!
# Closed sessions — that a session is closed is final, and hurts nobody who was served

    A user closes a session while any number of calls and records are under way, and may begin more
    of them afterwards.  Once the errand that closes the session has ended, no member is connected,
    none ever will be, and nothing is asked of a member again.  A call that begins after the session
    was closed is refused at once, and no member hears of it.

    An errand that was at a slot when the closing began is not hurt: it stays there with nobody new
    before it until it hears how its exchange ended, unless its call runs out of time.  What it is
    told there has the same effect, on the session and for its user, as if nobody had closed it.  It
    need not wait for ever: whoever is first in line can be told something, and after three signals
    at most it is gone.

* **`Session.Silent`**, **`Refuses`**, **`Attends`** — what holds of a closed session at one moment.
* **`Session.Leaves`** — how a visit to a slot ends; **`visit_run`**, that there is no other way.
* **`react_withClosed`** — a visit goes on as if the session were open.
* **`close_is_final`** — all of it, for every session that was opened, and every run.
-/

namespace WitnessReplication

namespace Session

variable {s s₀ t : Session} {p : Step} {c : Call} {e f : Errand} {x : Input} {m : Nat}
  {before after : List Input}

-- ── What is promised ─────────────────────────────────────────────────────────────────────────────

/-- No member is connected, and nothing that may happen next asks anything of a member. -/
structure Silent (s : Session) : Prop where
  unlinked : ∀ m, s.courier.pool.connected m = false
  quiet    : ∀ x, ∀ d ∈ (s.react x).demands, d.reaches = false

/-- A call that a user begins is refused at once: it waits for nothing, sends out no errand, and is
    not under way. -/
structure Refuses (s : Session) (data : Bytes) (keys : List Key) (route : Route)
    (seq : Option SeqNo) : Prop where
  results : (s.invoke data keys route seq).2.results =
    [((s.invoke data keys route seq).1, .returned (.error .sessionClosed))]
  demands : (s.invoke data keys route seq).2.demands = []
  courier : (s.invoke data keys route seq).2.state.courier = s.courier.takeNumber.2
  calls   : (s.invoke data keys route seq).2.state.calls = s.calls

/-- The same session, closed or open. -/
def withClosed (s : Session) (closed : Bool) : Session :=
  { s with courier := s.courier.withClosed closed }

/-- Those who are at the slots are served: whoever is first in line can be told something; whoever
    is told what it waits for gets further, or is gone; and what is told to an errand at a slot has
    the same effect as if the session were open. -/
structure Attends (s : Session) : Prop where
  first   : ∀ m i, (s.courier.pool.line m).head? = some i →
    ∃ e ∈ s.courier.errands, e.id = i ∧ e.At m ∧ ∃ sig, s.courier.heeds e sig = true
  hastens : ∀ e ∈ s.courier.errands, ∀ m, e.At m → ∀ sig, s.courier.heeds e sig = true →
    ∀ f ∈ (s.react (.signal e.id sig)).state.courier.errands, f.id = e.id →
      f.stage.member? = none ∨ f.stage.effort < e.stage.effort
  asOpen  : ∀ e ∈ s.courier.errands, ∀ m, e.At m → ∀ sig closed,
    (s.withClosed closed).react (.signal e.id sig) =
      { s.react (.signal e.id sig) with
        state := (s.react (.signal e.id sig)).state.withClosed closed }

/-- How the visit of an errand to a slot ends. -/
inductive Leaves (s : Session) (e : Errand) : Input → Prop where
  /-- It hears that there is no connection, or what its exchange came to. -/
  | ends {sig : Signal} (ended : e.EndsVisit sig) : Leaves s e (.signal e.id sig)
  /-- It is the errand to the leader of a call that runs out of time. -/
  | expires {c : Call} (mem : c ∈ s.calls) (waits : c.stage.errand? = some e.id) :
      Leaves s e (.signal c.id .expired)

/-- The visit of an errand to a slot through some inputs: it goes on to the end, with nobody new
    before the errand; or it has ended with one of the inputs. -/
def Visits (s : Session) (e : Errand) (m : Nat) (after : List Input) : Prop :=
  s.courier.Stays (s.run after).courier e m ∨
    ∃ ys y, ys ++ [y] <+: after ∧ ∃ f ∈ (s.run ys).courier.errands, f.id = e.id ∧ f.aim = e.aim ∧
      f.At m ∧ (s.run ys).Leaves f y

/-- What becomes of a session that is about to be closed, when some inputs follow. -/
structure ClosesFor (s : Session) (after : List Input) : Prop where
  /-- Once the errand that closes it has ended, it is silent. -/
  final   : ∀ ys y, ys ++ [y] <+: after →
    (s.close.1, .closed) ∈ ((s.close.2.run ys).react y).results → (s.close.2.run after).Silent
  /-- Whatever call begins, it is refused. -/
  refuses : ∀ data keys route seq, (s.close.2.run after).Refuses data keys route seq
  /-- An errand of a call that was at a slot stays there until its visit ends. -/
  visits  : ∀ e ∈ s.courier.errands, e.OfCall → ∀ m, e.At m → s.close.2.Visits e m after
  attends : (s.close.2.run after).Attends

-- ── One input ────────────────────────────────────────────────────────────────────────────────────

/-- The errand to the leader that a call waits for is one. -/
def Leading (s : Session) : Prop :=
  ∀ c ∈ s.calls, ∀ i, c.stage.errand? = some i → i < s.courier.fresh ∧
    ∃ request, ∀ e ∈ s.courier.errands, e.id = i → e.aim.purpose = .lead request

theorem leading_run (h₀ : s₀.Fresh) (inputs : List Input) : (s₀.run inputs).Leading := by
  obtain ⟨_, _, _, hcalls⟩ := run_traced h₀ inputs
  intro c hc i hi
  rcases hcalls c hc with hpausing | ⟨_, _, _, htraced⟩
  · rw [hpausing] at hi
    exact nomatch hi
  · cases hstage : c.stage with
    | attempting a        =>
        obtain ⟨_, _, htraces⟩ := (Call.traced_attempting hstage).1 htraced
        rw [hstage] at hi
        obtain rfl := Option.some.inj hi
        exact ⟨htraces.leader_lt, _, htraces.leading⟩
    | syncing data errand =>
        obtain ⟨_, hlt, hleading⟩ := (Call.traced_syncing hstage).1 htraced
        rw [hstage] at hi
        obtain rfl := Option.some.inj hi
        exact ⟨hlt, _, hleading⟩
    | pausing             =>
        rw [hstage] at hi
        exact nomatch hi

/-- So a session calls off errands to the leader only. -/
theorem Prompts.admits {xs : List Courier.Event} (h : s.Prompts x xs) (hl : s.Leading) :
    ∀ y ∈ xs, s.courier.Admits y := by
  intro y hy i hi
  subst hi
  cases h with
  | alone calm                     => exact nomatch calm _ hy
  | tells _ calm                   => exact nomatch calm _ ((List.mem_cons.1 hy).resolve_left nofun)
  | @callsOff c j mem waits _      =>
      obtain rfl := Courier.Event.callsOff.inj (List.mem_singleton.1 hy)
      exact hl c mem i waits

theorem react_closed (h : s.Sound) (hclosed : s.courier.pool.closed = true) (x : Input) :
    (s.react x).state.courier.pool.closed = true := by
  obtain ⟨xs, hdrives⟩ := react_drives h.order x
  rw [hdrives.courier]
  exact Courier.run_closed h.courier hclosed xs

/-- Every input keeps the invariant of the closing; and when its end is told, the errand that closes
    the session is gone. -/
theorem closing_react (h : s.Sound) (hl : s.Leading) (hclosed : s.courier.pool.closed = true)
    {k : Nat} (hk : k < s.courier.fresh) (hc : s.courier.Closing k) (x : Input) :
    (s.react x).state.courier.Closing k ∧
      ((k, .closed) ∈ (s.react x).results → (s.react x).state.courier.find? k = none) := by
  obtain ⟨xs, hdrives⟩ := react_drives h.order x
  obtain ⟨hnext, hends⟩ :=
    Courier.closing_run h.courier hclosed hk hc (hdrives.prompts.admits hl)
  rw [hdrives.courier]
  exact ⟨hnext, fun hresult => hends _ (hdrives.results k hresult)⟩

/-- A session whose pool was emptied is silent. -/
theorem silent_of_emptied (h : s.Sound) (hc : s.courier.Emptied) : s.Silent where
  unlinked := fun m => (hc.cleared m).unlinked
  quiet    := by
    intro x d hd
    obtain ⟨xs, hdrives⟩ := react_drives h.order x
    rw [Bool.eq_false_iff]
    intro hreaches
    exact nomatch ((hc.run h.courier xs).2 d (hdrives.demands d hd hreaches)).symm.trans hreaches

theorem refuses_of_closed (h : s.InOrder) (hclosed : s.courier.pool.closed = true) (data : Bytes)
    (keys : List Key) (route : Route) (seq : Option SeqNo) : s.Refuses data keys route seq := by
  have hshut : s.courier.takeNumber.2.pool.closed = true := hclosed
  have hcalls : ∀ call : Call, call.id = s.courier.fresh →
      (s.calls ++ [call]).filter (fun d => d.id ≠ call.id) = s.calls := by
    intro call hid
    rw [List.filter_append, List.filter_eq_self.2, List.filter_eq_nil_iff.2, List.append_nil]
    · simp
    · intro d hd
      have hlt := h.numbered d hd
      simpa [hid] using Nat.ne_of_lt hlt
  have hgo : ∀ (identity : Identity) (call : Call), call.id = s.courier.fresh →
      goRound { s with
          identity
          courier := s.courier.takeNumber.2
          calls   := s.calls ++ [call] } call =
        { state   := { s with identity, courier := s.courier.takeNumber.2 }
          results := [(call.id, .returned (.error .sessionClosed))] } := by
    intro identity call hid
    rw [goRound]
    simp only [hshut, if_true, finish, hcalls call hid]
  have hinvoke : ∃ identity, s.invoke data keys route seq = (s.courier.fresh,
      { state   := { s with identity, courier := s.courier.takeNumber.2 }
        results := [(s.courier.fresh, .returned (.error .sessionClosed))] }) := by
    unfold invoke
    cases seq with
    | none   =>
        dsimp only
        rw [hgo _ _ rfl]
        exact ⟨_, rfl⟩
    | some n =>
        dsimp only
        rw [hgo _ _ rfl]
        exact ⟨_, rfl⟩
  obtain ⟨identity, hinvoke⟩ := hinvoke
  constructor <;> rw [hinvoke]

-- ── Visits ───────────────────────────────────────────────────────────────────────────────────────

/-- **How a visit goes on with one input**, whatever it is. -/
theorem visit_react (h : s.Sound) (he : e ∈ s.courier.errands) (hof : e.OfCall) (hat : e.At m)
    (x : Input) : s.courier.Stays (s.react x).state.courier e m ∨ s.Leaves e x := by
  obtain ⟨xs, hdrives⟩ := react_drives h.order x
  rw [hdrives.courier]
  cases hdrives.prompts with
  | alone calm                    =>
      exact Or.inl (Courier.stays_of_calm h.courier he hof hat calm)
  | @tells i sig ys input calm    =>
      rcases Courier.visit_happen h.courier he hof hat (.tells i sig) with
        ⟨f, hf, hid, haim, hat', hbefore⟩ | ⟨sig', heq, hends⟩ | heq
      · have hof' := Errand.ofCall_of_purpose hof (congrArg Errand.Aim.purpose haim)
        exact Or.inl (.trans hid haim hbefore
          (Courier.stays_of_calm (Courier.sound_happen h.courier _) hf hof' hat' calm))
      · obtain ⟨rfl, rfl⟩ := Courier.Event.tells.inj heq
        exact Or.inr (input ▸ .ends hends)
      · exact nomatch heq
  | @callsOff c i mem waits input =>
      rcases Courier.visit_happen h.courier he hof hat (.callsOff i) with
        hstays | ⟨_, heq, _⟩ | heq
      · exact Or.inl hstays
      · exact nomatch heq
      · obtain rfl := Courier.Event.callsOff.inj heq
        exact Or.inr (input ▸ .expires mem waits)

/-- **How a visit goes on through a run.** -/
theorem visit_run (h : s.Sound) (he : e ∈ s.courier.errands) (hof : e.OfCall) (hat : e.At m)
    (after : List Input) : s.Visits e m after := by
  induction after using List.reverseRecOn with
  | nil                        => exact Or.inl ⟨e, he, rfl, rfl, hat, fun _ hj => hj⟩
  | append_singleton after x ih =>
      have hmore : ∀ {ys : List Input}, ys <+: after → ys <+: after ++ [x] := fun hys =>
        hys.trans (List.prefix_append ..)
      rcases ih with ⟨f, hf, hid, haim, hat', hbefore⟩ | ⟨ys, y, hys, hleaves⟩
      · have hof' := Errand.ofCall_of_purpose hof (congrArg Errand.Aim.purpose haim)
        rcases visit_react (run_sound h after) hf hof' hat' x with hstays | hleaves
        · refine Or.inl ?_
          rw [run_append]
          exact .trans hid haim hbefore hstays
        · exact Or.inr ⟨after, x, List.prefix_rfl, f, hf, hid, haim, hat', hleaves⟩
      · exact Or.inr ⟨ys, y, hmore hys, hleaves⟩

-- ── As if the session were open ──────────────────────────────────────────────────────────────────

theorem conclude_withClosed (s : Session) (closed : Bool) (c : Call) (error : SessionError) :
    (s.withClosed closed).conclude c error =
      { s.conclude c error with state := (s.conclude c error).state.withClosed closed } := by
  have hsettings : (s.withClosed closed).settings = s.settings := rfl
  unfold conclude
  rw [hsettings]
  cases s.settings.retry.verdict c.attempts error <;> rfl

theorem advance_withClosed (s : Session) (closed : Bool) (c : Call) (a : Attempt) :
    (s.withClosed closed).advance c a =
      { s.advance c a with state := (s.advance c a).state.withClosed closed } := by
  have hguess : (s.withClosed closed).courier.guess = s.courier.guess := rfl
  unfold advance
  rw [hguess]
  split
  · rename_i answer _ _
    cases a.decision s.courier.guess answer with
    | commit data path => rfl
    | fail error       => exact s.conclude_withClosed closed c error
    | sync data        => rfl
  · rfl

theorem deliver_withClosed (s : Session) (closed : Bool) (i : Nat) (outcome : Errand.Outcome) :
    (s.withClosed closed).deliver i outcome =
      { s.deliver i outcome with state := (s.deliver i outcome).state.withClosed closed } := by
  have hcalls : (s.withClosed closed).calls = s.calls := rfl
  unfold deliver
  rw [hcalls]
  split
  · rfl
  · rename_i answer c _
    unfold led
    split
    · split
      · exact s.advance_withClosed closed c _
      · rfl
    · split
      · split
        · rfl
        · exact s.conclude_withClosed closed c _
      · rfl
    · rfl
  · unfold recorded
    split <;> rfl
  · rfl

/-- **What is told to an errand at a slot has the same effect as if the session were open**, on the
    session and for its user. -/
theorem react_withClosed (h : s.Sound) (he : e ∈ s.courier.errands) (hat : e.At m) (sig : Signal)
    (closed : Bool) : (s.withClosed closed).react (.signal e.id sig) =
      { s.react (.signal e.id sig) with
        state := (s.react (.signal e.id sig)).state.withClosed closed } := by
  have hcall := h.call?_eq_none he
  have hcall' : (s.withClosed closed).call? e.id = none := hcall
  have hfind := Courier.find?_of_mem h.courier.queued.distinct he
  have hreact : s.react (.signal e.id sig) = s.absorb (s.courier.step e.id sig) :=
    step_errand hcall sig
  have hreact' : (s.withClosed closed).react (.signal e.id sig) =
      (s.withClosed closed).absorb ((s.courier.withClosed closed).step e.id sig) :=
    step_errand hcall' sig
  rw [hreact, hreact', Courier.step_withClosed hfind hat]
  rcases Courier.step_advances h.order.courier.placed e.id sig with ⟨hnone, _⟩ | ⟨f, _, _, hadv⟩
  · exact nomatch hnone.symm.trans hfind
  · cases hadv.turns with
    | rests _ results           =>
        rw [absorb, absorb, Progress.feed, Progress.feed, results]
        rfl
    | moves _ _ _ _ _ results   =>
        rw [absorb, absorb, Progress.feed, Progress.feed, results]
        rfl
    | ends outcome _ _ results  =>
        rw [absorb, absorb, Progress.feed, Progress.feed, results]
        exact congrArg
          (fun q : Step => ({
            state   := q.state
            demands := (s.courier.step e.id sig).demands ++ q.demands
            results := [] ++ q.results } : Step))
          (deliver_withClosed { s with courier := (s.courier.step e.id sig).state } closed f.id
            outcome)

/-- **Those who are at the slots of a session are served**, at any time. -/
theorem Sound.attends (h : s.Sound) : s.Attends where
  first   := fun _ _ hfirst => Courier.first_heeds h.courier.queued hfirst
  hastens := by
    intro e he m hat sig heeded f hf hid
    have hreact : s.react (.signal e.id sig) = s.absorb (s.courier.step e.id sig) :=
      step_errand (h.call?_eq_none he) sig
    obtain ⟨ys, hcalm, hdrives⟩ := absorb_drives h.order e.id sig
    rw [hreact, hdrives.courier] at hf
    have hsound := Courier.sound_happen h.courier (.tells e.id sig)
    have hgiven : f.id < (s.courier.happen (.tells e.id sig)).state.fresh := by
      rw [hid]
      exact Nat.lt_of_lt_of_le (h.courier.order.numbered e he)
        (Courier.happen_lasts h.courier.order _).fresh
    exact Courier.step_hastens h.courier he hat heeded f
      ((Courier.mem_run_of_calm hsound hgiven hcalm).1 hf) hid
  asOpen  := fun _ he _ hat sig closed => react_withClosed h he hat sig closed

-- ── Every run ────────────────────────────────────────────────────────────────────────────────────

theorem Sound.close (h : s.Sound) : s.close.2.Sound := react_sound h .close

/-- What holds from when the session is closed on. -/
theorem closing_run (h : s.Sound) (hl : ∀ after, (s.close.2.run after).Leading)
    (after : List Input) :
    (s.close.2.run after).courier.pool.closed = true ∧
      s.close.1 < (s.close.2.run after).courier.fresh ∧
      (s.close.2.run after).courier.Closing s.close.1 ∧
      ∀ ys y, ys ++ [y] <+: after →
        (s.close.1, .closed) ∈ ((s.close.2.run ys).react y).results →
        (s.close.2.run after).courier.find? s.close.1 = none := by
  induction after using List.reverseRecOn with
  | nil                         =>
      refine ⟨rfl, Nat.lt_succ_self _, Courier.closing_begins h.courier, fun ys y hys => ?_⟩
      simp at hys
  | append_singleton after x ih =>
      obtain ⟨hclosed, hgiven, hclosing, hends⟩ := ih
      have hsound := run_sound h.close after
      obtain ⟨hnext, hlast⟩ := closing_react hsound (hl after) hclosed hgiven hclosing x
      obtain ⟨xs, hdrives⟩ := react_drives hsound.order x
      have hgone : (s.close.2.run after).courier.find? s.close.1 = none →
          ((s.close.2.run after).react x).state.courier.find? s.close.1 = none := by
        rw [hdrives.courier]
        exact fun hnone => Courier.gone_run hsound.courier hgiven hnone xs
      rw [run_append]
      refine ⟨react_closed hsound hclosed x, ?_, hnext, fun ys y hys hresult => ?_⟩
      · exact Nat.lt_of_lt_of_le hgiven (react_carries hsound.order x).follows.fresh
      · rcases List.prefix_concat_iff.1 hys with heq | hys
        · obtain ⟨rfl, hlasts⟩ := List.append_inj' heq rfl
          obtain rfl := List.singleton_inj.1 hlasts
          exact hlast hresult
        · exact hgone (hends ys y hys hresult)

/-- **That a session is closed is final, and hurts nobody who was served.** -/
theorem close_is_final (h : s₀.Opened) (before after : List Input) :
    (s₀.run before).ClosesFor after := by
  have hsound := run_sound h.sound before
  have hleading : ∀ after, ((s₀.run before).close.2.run after).Leading := by
    intro after
    have hrun : s₀.run (before ++ .close :: after) = (s₀.run before).close.2.run after :=
      run_append ..
    exact hrun ▸ leading_run h.fresh _
  obtain ⟨hclosed, _, hclosing, hends⟩ := closing_run hsound hleading after
  have hafter := run_sound hsound.close after
  refine ⟨?final, ?refuses, ?visits, hafter.attends⟩
  case final   =>
    intro ys y hys hresult
    exact silent_of_emptied hafter (hclosing.emptied hclosed (hends ys y hys hresult))
  case refuses => exact refuses_of_closed hafter.order hclosed
  case visits  =>
    intro e he hof m hat
    exact visit_run hsound.close (List.mem_append_left _ he) hof hat after

/-- A trio with two calls: the record of the one is exchanged with the second member, and the record
    of the other waits behind it. -/
def trioBusy : List Input :=
  [.invoke [97] [⟨[107]⟩] .fast none, .signal 4 .proceed,
    .invoke [98] [⟨[108]⟩] .fast none, .signal 8 .proceed]

/-- It is closed; the first record fails and takes the connection with it, so that the second one
    opens a new one before the errand that closes the session gets there. -/
def trioClosing : List Input :=
  [.signal 10 .proceed, .signal 10 .proceed, .signal 4 (.answered (.error ⟨.send, "reset"⟩)),
    .signal 8 .proceed, .signal 8 (.connected (.ok ())),
    .signal 8 (.answered (.ok (.record ⟨true, ⟨0⟩⟩))), .signal 10 .proceed, .signal 10 .proceed]

theorem trio_close_is_final :
    trio.Opened ∧ (trio.run trioBusy).close.1 = 10 ∧
      (((trio.run trioBusy).close.2.run (trioClosing.take 3)).react (.signal 8 .proceed)).demands =
        [.connect 8 ⟨"m1"⟩] ∧
      (((trio.run trioBusy).close.2.run trioClosing).react (.signal 10 .proceed)).results =
        [(10, .closed)] ∧
      (trio.run trioBusy).ClosesFor (trioClosing ++ [.signal 10 .proceed]) :=
  ⟨trio_opened, rfl, rfl, rfl, close_is_final trio_opened trioBusy _⟩

end Session

end WitnessReplication

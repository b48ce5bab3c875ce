import WitnessReplication.Proofs.ClusterRuns

/-!
# Answer origin — whose answer a client is given

    A member that takes a command has its answer cached from then on, and so has a member that takes
    a sync for a command: if it has not seen the command before, it executes it now, on the state
    that it is in.  So each of the two can vouch for an answer, and it is the one that completes the
    call that has made the command durable.

    Without a sync the two are the same.  With one they need not be: leadership may move between the
    command and the sync, and the sync then goes on to the next leader.  What the client is given is
    what the first one has said, and what the second one says is thrown away.

* **`answer_held_iff`** — the member that completes a call holds the answer that the client is given
  if and only if it has answered so itself.
* **`answer_not_held`** — a call during which leadership moves, and whose answer its next leader does
  not hold.
-/

namespace WitnessReplication

/-- By whose word a call is completed.  Without a sync this is a member that has taken the command
    from the attempt's own errand; with a sync, the member that has just taken the sync.  `xs` are
    the exchanges since the last attempt began, `x` is the one that comes to its end right now. -/
inductive Completes (c : Call) (path : CommitPath) (xs x : List Exchange) (m : Nat) (reply : Reply) :
    Prop where
  | command (a : Attempt) (stage : c.stage = .attempting a) (nosync : path ≠ .explicitSync)
      (taken : Taken (xs ++ x) a.leader m (.command c.entry) reply)
  | sync (i : Nat) (sync : path = .explicitSync)
      (taken : Taken x i m (.sync (some c.entry)) reply)

namespace Net

variable {σ : Type} [StateMachine σ] {n₀ : Net σ}

/-- What was heard since an attempt began was heard in the run. -/
theorem holds_of_taken (h₀ : n₀.Initial) {events : List Event} {last : Event}
    (hsweeps : ∀ ev ∈ events ++ [last], ev.sweeps = false) {j : Nat} {x : Session.Input}
    (hx : (n₀.run events).input? j last = some x) {id attempts : Nat}
    {begun window : List Session.Input}
    (hlast : (n₀.sessions j).LastAttempt (n₀.inputs j events) id attempts begun window)
    {i m : Nat} {q : Request} {reply : Reply} {e : LogEntry}
    (htaken : Taken (((n₀.sessions j).run begun).exchanges (window ++ [x])) i m q reply)
    (he : Replica.Action.entry? (.request q) = some e) (hk : e.kind = .command) :
    ((n₀.run (events ++ [last])).member j m).Holds e.id reply.data := by
  refine (vouched_run h₀ hsweeps).heard j ⟨i, m, q, .ok reply⟩ ?_ reply rfl e he hk htaken.1
  rw [inputs_concat, hx, hlast.split, List.append_assoc, Session.exchanges_append]
  exact List.mem_append_right _ htaken.2

/-- **Whose answer a client is given**: with any number of sessions and calls, whatever happens to
    the members and on the way as long as no cache is swept.  When a call returns, some member `m`
    has taken its command, has given the answer that is returned, and holds it.  The member `k` that
    has completed the call holds the answer that it has given itself; so it holds the one that is
    returned if and only if the two agree.  Without a sync `k` is `m`, and whenever they are one
    member their answers do agree. -/
theorem answer_held_iff (h₀ : n₀.Initial) {events : List Event} {last : Event}
    (hsweeps : ∀ ev ∈ events ++ [last], ev.sweeps = false) {j : Nat} {x : Session.Input}
    (hx : (n₀.run events).input? j last = some x) {id : Nat} {out : CommandOutput}
    (hret : (id, .returned (.ok out)) ∈ (((n₀.run events).sessions j).react x).results) :
    ∃ c ∈ ((n₀.run events).sessions j).calls, c.id = id ∧ out.seq = c.entry.seq ∧
      ∃ begun window, (n₀.sessions j).LastAttempt (n₀.inputs j events) id c.attempts begun window ∧
      ∃ i m took k reply,
        Taken (((n₀.sessions j).run begun).exchanges (window ++ [x])) i m (.command c.entry) took ∧
        took.data = out.data ∧
        ((n₀.run (events ++ [last])).member j m).Holds c.entry.id out.data ∧
        Completes c out.path (((n₀.sessions j).run begun).exchanges window)
          (((n₀.run events).sessions j).exchange? x).toList k reply ∧
        ((n₀.run (events ++ [last])).member j k).Holds c.entry.id reply.data ∧
        (((n₀.run (events ++ [last])).member j k).Holds c.entry.id out.data ↔
          reply.data = out.data) ∧
        (out.path ≠ .explicitSync → k = m) ∧
        ((n₀.sessions j).courier.pool.address k = (n₀.sessions j).courier.pool.address m →
          reply.data = out.data) := by
  have hfresh := h₀.fresh j
  have hsession := n₀.run_sessions j events
  rw [hsession] at hret ⊢
  obtain ⟨c, hc, hid, begun, window, hlast, hfounded⟩ := Session.returned_founded hfresh hret
  have hk : c.entry.kind = .command := (Session.run_traced hfresh _).1.commands c hc
  obtain ⟨i, m, took, htook, hdata, horigin⟩ := hfounded.taken
  rw [← hlast.exchanges] at htook
  have hheld := holds_of_taken h₀ hsweeps hx hlast htook rfl hk
  rw [hdata] at hheld
  refine ⟨c, hc, hid, hfounded.seq, begun, window, hlast, i, m, took, ?_⟩
  -- with a sync there are two exchanges to go by, without one it is the same for both
  rcases Decidable.em (out.path = .explicitSync) with hsync | hnosync
  · obtain ⟨i', k, reply, htaken⟩ := hfounded.ordered hsync
    have htaken' : Taken (((n₀.sessions j).run begun).exchanges (window ++ [x])) i' k
        (.sync (some c.entry)) reply := by
      rw [hlast.exchanges]
      exact ⟨htaken.1, List.mem_append_right _ htaken.2⟩
    have hheld' := holds_of_taken h₀ hsweeps hx hlast htaken' rfl hk
    refine ⟨k, reply, htook, hdata, hheld, .sync i' hsync htaken, hheld',
      ⟨hheld'.unique, fun h => h ▸ hheld'⟩, fun hno => absurd hsync hno, fun haddress => ?_⟩
    -- one and the same replica holds one answer only
    rw [member_run h₀, haddress, ← member_run h₀] at hheld'
    exact hheld'.unique hheld
  · obtain hsync | ⟨a, hstage, rfl⟩ := horigin
    · exact absurd hsync hnosync
    · have hcompletes : Completes c out.path (((n₀.sessions j).run begun).exchanges window)
          (((n₀.sessions j).run (n₀.inputs j events)).exchange? x).toList m took := by
        refine .command a hstage hnosync ?_
        rw [← hlast.exchanges]
        exact htook
      refine ⟨m, took, htook, hdata, hheld, hcompletes, ?_, ⟨fun _ => hdata, fun _ => hheld⟩,
        fun _ => rfl, fun _ => hdata⟩
      rw [hdata]
      exact hheld

/-! ## Leadership moves, or stays -/

/-- Three members, which count the commands they execute, and sessions that know all three.  At
    first the second member leads. -/
def tallies : Net Tally where
  sessions _ := Session.trio
  members a  := .start a (some ⟨"m1"⟩) ⟨1⟩ {} 5

theorem tallies_initial : tallies.Initial where
  sessions _ := Session.trio_opened
  members _  := ⟨_, _, _, _, rfl⟩
  flights    := rfl

/-- One of the first two members leads from now on, and both take that in. -/
def moveLead (now : Nat) (leader : Address) (term : Term) : List Event :=
  [.member ⟨"m0"⟩ now (.lead (some leader) term), .member ⟨"m1"⟩ now (.lead (some leader) term)]

/-- The second member executes a command of somebody else; then the first one leads.  It executes a
    session's command, as its first.  One witness refuses the record, at the other one it is lost,
    and so the session is about to ask for a sync. -/
def untilSync : List Event :=
  [.member ⟨"m1"⟩ 0 (.request (.command (.command [98] [] ⟨7⟩ ⟨0⟩)))] ++ moveLead 1 ⟨"m0"⟩ ⟨2⟩ ++
    [.session 0 (.invoke [97] [⟨[107]⟩] .fast none),
      .session 0 (.signal 3 .proceed), .serve 0 3 2, .arrive 0,
      .session 0 (.signal 4 .proceed), .serve 0 4 2, .arrive 1,
      .session 0 (.signal 5 .proceed),
      .session 0 (.signal 5 (.answered (.error ⟨.send, "connection reset"⟩))),
      .session 0 (.signal 2 .proceed)]

/-- The leader stays, and takes the sync. -/
def stays : List Event := untilSync ++ [.session 0 (.signal 6 .proceed), .serve 0 6 3]

/-- Leadership goes back to the second member, to which the first one sends the sync on. -/
def moves : List Event :=
  untilSync ++ moveLead 3 ⟨"m1"⟩ ⟨3⟩ ++
    [.session 0 (.signal 6 .proceed), .serve 0 6 4, .arrive 2,
      .session 0 (.signal 6 .proceed), .serve 0 6 4]

/-- The session hears that the leader has taken the sync, and what it has answered. -/
def syncTaken (leader : Address) (data : Bytes) : Session.Input :=
  .signal 6 (.answered (.ok (.sync ⟨true, some leader, data⟩)))

/-- The law at a call during which the leader stays: it has counted one command, and its cache says
    so. -/
theorem answer_held_when_leader_stays :
    tallies.Initial ∧ (∀ ev ∈ stays ++ [.arrive 2], ev.sweeps = false) ∧
      (tallies.run stays).input? 0 (.arrive 2) = some (syncTaken ⟨"m0"⟩ [49]) ∧
      (2, .returned (.ok ⟨⟨0⟩, [49], .explicitSync⟩)) ∈
        (((tallies.run stays).sessions 0).react (syncTaken ⟨"m0"⟩ [49])).results ∧
      ∃ c ∈ ((tallies.run stays).sessions 0).calls, ∃ xs k reply,
        Completes c .explicitSync xs
          (((tallies.run stays).sessions 0).exchange? (syncTaken ⟨"m0"⟩ [49])).toList k reply ∧
        (((tallies.run (stays ++ [.arrive 2])).member 0 k).Holds c.entry.id [49] ↔
          reply.data = [49]) := by
  have hsweeps : ∀ ev ∈ stays ++ [.arrive 2], ev.sweeps = false := by decide
  have hx : (tallies.run stays).input? 0 (.arrive 2) = some (syncTaken ⟨"m0"⟩ [49]) := rfl
  have hresults : (((tallies.run stays).sessions 0).react (syncTaken ⟨"m0"⟩ [49])).results =
      [(2, .returned (.ok ⟨⟨0⟩, [49], .explicitSync⟩))] := rfl
  have hret : (2, .returned (.ok ⟨⟨0⟩, [49], .explicitSync⟩)) ∈
      (((tallies.run stays).sessions 0).react (syncTaken ⟨"m0"⟩ [49])).results := by
    rw [hresults]
    exact List.mem_singleton.2 rfl
  obtain ⟨c, hc, _, _, _, _, _, _, _, _, k, reply, _, _, _, hcompletes, _, hiff, _⟩ :=
    answer_held_iff tallies_initial hsweeps hx hret
  exact ⟨tallies_initial, hsweeps, hx, hret, c, hc, _, k, reply, hcompletes, hiff⟩

/-- **A call during which leadership moves**: the second member takes the sync, executes the command
    as its second one, and caches that.  The client is given what the first member has said, which
    the second one does not hold. -/
theorem answer_not_held :
    tallies.Initial ∧ (∀ ev ∈ moves ++ [.arrive 3], ev.sweeps = false) ∧
      (tallies.run moves).input? 0 (.arrive 3) = some (syncTaken ⟨"m1"⟩ [50]) ∧
      (2, .returned (.ok ⟨⟨0⟩, [49], .explicitSync⟩)) ∈
        (((tallies.run moves).sessions 0).react (syncTaken ⟨"m1"⟩ [50])).results ∧
      ∃ c ∈ ((tallies.run moves).sessions 0).calls, c.id = 2 ∧
        Completes c .explicitSync (Session.trio.exchanges (tallies.inputs 0 moves))
          (((tallies.run moves).sessions 0).exchange? (syncTaken ⟨"m1"⟩ [50])).toList 1
          (.sync ⟨true, some ⟨"m1"⟩, [50]⟩) ∧
        ¬ ((tallies.run (moves ++ [.arrive 3])).member 0 1).Holds c.entry.id [49] := by
  have hresults : (((tallies.run moves).sessions 0).react (syncTaken ⟨"m1"⟩ [50])).results =
      [(2, .returned (.ok ⟨⟨0⟩, [49], .explicitSync⟩))] := rfl
  have hcalls : ((tallies.run moves).sessions 0).calls =
      [⟨2, Session.trioEntry 0, .fast, 1, .syncing [49] 6⟩] := rfl
  have hexchange : ((tallies.run moves).sessions 0).exchange? (syncTaken ⟨"m1"⟩ [50]) =
      some ⟨6, 1, .sync (some (Session.trioEntry 0)), .ok (.sync ⟨true, some ⟨"m1"⟩, [50]⟩)⟩ := rfl
  have hheld : ((tallies.run (moves ++ [.arrive 3])).member 0 1).Holds (Session.trioEntry 0).id
      [50] := rfl
  refine ⟨tallies_initial, by decide, rfl, ?returns,
    ⟨2, Session.trioEntry 0, .fast, 1, .syncing [49] 6⟩, ?call, rfl, ?completes, ?missing⟩
  case returns =>
    rw [hresults]
    exact List.mem_singleton.2 rfl
  case call =>
    rw [hcalls]
    exact List.mem_singleton.2 rfl
  case completes =>
    refine .sync 6 rfl ⟨rfl, ?_⟩
    rw [hexchange]
    exact List.mem_singleton.2 rfl
  case missing =>
    intro h
    exact nomatch h.unique hheld

end Net

end WitnessReplication

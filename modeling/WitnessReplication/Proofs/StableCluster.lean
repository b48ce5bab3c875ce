import WitnessReplication.Proofs.OwnedErrands
import WitnessReplication.Proofs.SteadyCalls

/-!
# Stable clusters — a call commits within two attempts

    A cluster that does not change has one member that leads; every other one is down, or refuses
    and names the leader or nobody who is listed.  Whatever a session comes from, if it is open, has
    no call under way and sets no deadline, then a call on the fast route that may make two attempts
    commits, and the leader is believed to lead from then on.  It takes one attempt if that was so
    when it began, and how it is committed is up to the leader and the witnesses of the last one.

    That the call commits is said of every order in which a session may be told what its members
    make of its errands: no such order goes on for ever, none stops before the call has returned, and
    what is returned is a success.

* **`Session.Served`** — the runs of a session in a cluster.
* **`Commits`** — what a call has come to that has committed, and **`Merits`**, on which path.
* **`stable_cluster_commits`** — the law.
-/

namespace WitnessReplication

/-- On which path a command is committed that a leader took, by the exchanges since the attempt began
    for which the witnesses `ws` were selected. -/
def Merits (entry : LogEntry) (leader : Nat) (ws : List Nat) (xs : List Exchange)
    (out : CommandOutput) : Prop :=
  ∃ errand reply, Taken xs errand leader (.command entry) reply ∧
    out.seq = entry.seq ∧ out.data = reply.data ∧
    (reply.synced = true → out.path = .leaderSynced) ∧
    (reply.synced = false → AllRecorded xs (recordsAfter errand ws) entry →
      out.path = .witnessQuorum) ∧
    (reply.synced = false → ¬ AllRecorded xs (recordsAfter errand ws) entry →
      out.path = .explicitSync)

namespace Session

variable {s : Session} {b : MemberBehaviour} {leader : Nat} {schedule : List Input} {data : Bytes}
  {keys : List Key} {seq : Option SeqNo}

/-! ## What is served -/

/-- A session is told what its members make of its errands, and when its calls may go on. -/
def Served (b : MemberBehaviour) (s : Session) : List Input → Prop
  | []        => True
  | x :: rest => s.Serves b x ∧ Served b (s.react x).state rest

theorem served_append {more : List Input} :
    s.Served b (schedule ++ more) ↔ s.Served b schedule ∧ (s.run schedule).Served b more := by
  induction schedule generalizing s with
  | nil          => simp [Served, run]
  | cons x rest ih =>
      show s.Serves b x ∧ (s.react x).state.Served b (rest ++ more) ↔ (_ ∧ _) ∧ _
      rw [ih, and_assoc]
      rfl

/-- Whatever is served, nobody begins another call or closes the session. -/
theorem Served.oneAtATime (h : s.Served b schedule) : s.OneAtATime schedule := by
  induction schedule generalizing s with
  | nil            => trivial
  | cons x rest ih =>
      refine ⟨?_, ih h.2⟩
      cases h.1 <;> trivial

/-- An exchange that comes to its end is one of a member that behaves as members do. -/
theorem answers_of_serves (hl : s.courier.Lined) {x : Input} (h : s.Serves b x) :
    ∀ y ∈ (s.exchange? x).toList, b.answers y.member y.request y.outcome := by
  intro y hy
  cases h with
  | completes _ _          => exact nomatch hy
  | wakes _ _              => exact nomatch hy
  | expires _ _            => exact nomatch hy
  | @errand e sig he serves =>
      cases serves with
      | proceeds _             => exact nomatch hy
      | connects _ _           => exact nomatch hy
      | rests _                => exact nomatch hy
      | @answers m request outcome stage asks can =>
          obtain ⟨hx, _, f, hfind, hstage, hasks⟩ := mem_exchange?_iff.1 hy
          obtain ⟨hid, hsig⟩ := Input.signal.inj hx
          rw [← hid, Courier.find?_of_mem hl.distinct he] at hfind
          obtain rfl := Option.some.inj hfind
          obtain rfl := Errand.Stage.exchanging.inj (stage.symm.trans hstage)
          obtain rfl := Option.some.inj (asks.symm.trans hasks)
          rw [← Signal.answered.inj hsig]
          exact can

/-- So is every exchange of a run. -/
theorem answers_of_served (ho : s.courier.InOrder) (hl : s.courier.Lined)
    (h : s.Served b schedule) :
    ∀ y ∈ s.exchanges schedule, b.answers y.member y.request y.outcome := by
  induction schedule generalizing s with
  | nil          => exact fun _ hy => nomatch hy
  | cons x rest ih =>
      have hnext := react_kept Courier.kept_lined ⟨ho, hl⟩ x fun hx =>
        (by have hserves := h.1; rw [hx] at hserves; exact nomatch hserves)
      intro y hy
      rcases List.mem_append.1 hy with hy | hy
      · exact answers_of_serves hl h.1 y hy
      · exact ih hnext.1 hnext.2 h.2 y hy

/-! ## The call begins -/

/-- The entry of a command that is begun, under the next number unless one is given. -/
def nextEntry (s : Session) (data : Bytes) (keys : List Key) (seq : Option SeqNo) : LogEntry :=
  .command data keys s.identity.client (seq.getD s.identity.next)

/-- A call that is begun is on its way. -/
theorem invoke_heading (hs : s.Sole) (ho : s.InOrder) (hl : s.courier.Lined)
    (hlisted : leader < s.courier.pool.size) (hnil : s.calls = []) :
    (s.react (.invoke data keys .fast seq)).results = [] ∧
      ∃ c, (s.react (.invoke data keys .fast seq)).state.calls = [c] ∧ c.id = s.courier.fresh ∧
        c.entry = s.nextEntry data keys seq ∧
        c.Heading leader s.courier.guess (s.react (.invoke data keys .fast seq)).state.courier := by
  have hgo : ∀ (identity : Identity) (entry : LogEntry) (p : Step),
      p.results = (goRound { s with
          identity
          courier := s.courier.takeNumber.2
          calls   := s.calls ++ [{ id := s.courier.fresh, entry, route := .fast }] }
        { id := s.courier.fresh, entry, route := .fast }).results →
      p.state = (goRound { s with
          identity
          courier := s.courier.takeNumber.2
          calls   := s.calls ++ [{ id := s.courier.fresh, entry, route := .fast }] }
        { id := s.courier.fresh, entry, route := .fast }).state →
      p.results = [] ∧ ∃ c, p.state.calls = [c] ∧ c.id = s.courier.fresh ∧ c.entry = entry ∧
        c.Heading leader s.courier.guess p.state.courier := by
    intro identity entry p hresults hstate
    have hheads : s.courier.takeNumber.2.Heads leader := by
      intro e he request tries haim
      exact nomatch (hs.unled hnil).sole e he ⟨request, by rw [haim]; rfl⟩
    have hpast : s.courier.takeNumber.2.Past s.courier.fresh :=
      ⟨Nat.lt_succ_self _, fun e he => Nat.ne_of_lt (ho.courier.numbered e he)⟩
    obtain ⟨hnone, ⟨c, hid, hentry, hcalls, hheading⟩, _⟩ := goRound_heading
      (t := { s with
        identity
        courier := s.courier.takeNumber.2
        calls   := s.calls ++ [{ id := s.courier.fresh, entry, route := .fast }] })
      (c := { id := s.courier.fresh, entry, route := .fast }) (by rw [hnil]; rfl)
      ho.courier.takeNumber hl.unclosed hlisted rfl hheads hpast (Or.inl ⟨rfl, rfl⟩)
    rw [hresults, hstate]
    exact ⟨hnone, c, hcalls, hid, hentry, hheading⟩
  have hstep : ∀ p : Step, p = (s.invoke data keys .fast seq).2 → p.results = [] ∧
      ∃ c, p.state.calls = [c] ∧ c.id = s.courier.fresh ∧ c.entry = s.nextEntry data keys seq ∧
        c.Heading leader s.courier.guess p.state.courier := by
    intro p hp
    unfold invoke at hp
    cases seq with
    | none   =>
        have hnext := hgo s.identity.take.2 (s.nextEntry data keys none)
        dsimp only at hp
        split at hp <;> (subst hp; exact hnext _ rfl rfl)
    | some n =>
        have hnext := hgo s.identity (s.nextEntry data keys (some n))
        dsimp only at hp
        split at hp <;> (subst hp; exact hnext _ rfl rfl)
  exact hstep _ rfl

/-! ## What the last attempt has come to -/

/-- What a call returns is what its last attempt has earned, if only the leader takes commands. -/
theorem merits_of_lawful {c : Call} {selection : WitnessSelection} {size snapshot : Nat}
    {xs : List Exchange} {out : CommandOutput} (hbusy : c.stage ≠ .pausing)
    (hsnapshot : ∀ a, c.stage = .attempting a → a.route = .fast ∧ a.snapshot = snapshot)
    (hlaw : c.Lawful selection size snapshot xs (.success out))
    (honly : ∀ errand m reply, Taken xs errand m (.command c.entry) reply → m = leader) :
    Merits c.entry leader (selection.witnesses size leader) xs out := by
  cases hstage : c.stage with
  | pausing             => exact absurd hstage hbusy
  | attempting a        =>
      obtain ⟨hroute, hsame⟩ := hsnapshot a hstage
      obtain ⟨reply, htaken, hout⟩ := (((Call.lawful_attempting hstage).1 hlaw).success out).1 rfl
      obtain rfl := honly _ _ _ htaken
      have hrecords : a.records selection size =
          recordsAfter a.leader (selection.witnesses size snapshot) := by
        unfold Attempt.records Attempt.witnesses
        rw [hroute, hsame]
      rw [hrecords] at hout
      rcases hout with ⟨hsynced, rfl⟩ | ⟨hunsynced, hall, rfl⟩
      · exact ⟨a.leader, reply, htaken, rfl, rfl, fun _ => rfl,
          fun hno => (nomatch hno.symm.trans hsynced), fun hno => nomatch hno.symm.trans hsynced⟩
      · exact ⟨a.leader, reply, htaken, rfl, rfl, (fun hyes => nomatch hyes.symm.trans hunsynced),
          fun _ _ => rfl, fun _ hmissed => absurd hall hmissed⟩
  | syncing data errand =>
      have hsync := (Call.lawful_syncing hstage).1 hlaw
      obtain ⟨rfl, _⟩ := (hsync.success out).1 rfl
      obtain ⟨errand', ⟨reply, htaken, hunsynced, hdata⟩, hmissed⟩ := hsync.answered
      obtain rfl := honly _ _ _ htaken
      exact ⟨errand', reply, htaken, rfl, hdata.symm,
        (fun hyes => nomatch hyes.symm.trans hunsynced),
        fun _ hall => absurd hall hmissed, fun _ _ => rfl⟩

/-- Where a call may be begun that is to commit: a session in use that has no call under way, sets no
    deadline and allows two attempts, in a cluster that does not change. -/
structure Ready (s : Session) (b : MemberBehaviour) (leader : Nat) : Prop where
  inUse   : s.InUse
  idle    : s.calls = []
  stable  : b.Stable s.courier.pool.members leader
  retry   : ∀ m, s.settings.retry.maxAttempts = some m → 2 ≤ m
  patient : s.settings.retry.deadline = none

/-- What a call has come to that commits with an input: it returns a success, the leader is believed
    to lead, and the call's last attempt, the first one or the second, has earned the result.  It is
    the first one if the leader was believed to lead to begin with. -/
structure Commits (s : Session) (inputs : List Input) (x : Input) (id : Nat) (entry : LogEntry)
    (leader : Nat) (out : CommandOutput) : Prop where
  returns : ((s.run inputs).react x).results = [(id, .returned (.ok out))]
  guess   : ((s.run inputs).react x).state.courier.guess = leader
  earned  : ∃ attempts begun window, (attempts = 1 ∨ attempts = 2 ∧ s.courier.guess ≠ leader) ∧
    s.LastAttempt inputs id attempts begun window ∧
      Merits entry leader (s.settings.selection.witnesses s.courier.pool.size leader)
        ((s.run begun).exchanges (window ++ [x])) out

namespace Ready

variable (h : s.Ready b leader) {call : Input} (hcall : call = .invoke data keys .fast seq)
include h

theorem sole : s.Sole := h.inUse.allOwned.sole h.idle

theorem stable_run (inputs : List Input) :
    b.Stable (s.run inputs).courier.pool.members leader := by
  rw [(run_follows h.inUse.inOrder inputs).2.2.members]
  exact h.stable

include hcall

theorem oneAtATime (hserved : (s.react call).state.Served b schedule) :
    s.OneAtATime (call :: schedule) := by
  refine ⟨?_, hserved.oneAtATime⟩
  rw [hcall]
  exact h.idle

theorem lined_run (hserved : (s.react call).state.Served b schedule) :
    (s.run (call :: schedule)).courier.Lined :=
  run_lined h.inUse.inOrder.courier h.inUse.lined (h.oneAtATime hcall hserved).unclosed

/-- While the call is on its way, the session is as it should be. -/
theorem steady (hserved : (s.react call).state.Served b schedule) {c : Call}
    (hcalls : (s.run (call :: schedule)).calls = [c])
    (hheading : c.Heading leader s.courier.guess (s.run (call :: schedule)).courier) :
    (s.run (call :: schedule)).Steady b leader s.courier.guess c := by
  obtain ⟨horder, hsettings, _⟩ := run_follows h.inUse.inOrder (call :: schedule)
  obtain ⟨hsole, hknows⟩ := run_knows h.sole h.inUse.inOrder h.idle (h.oneAtATime hcall hserved)
  refine ⟨hsole, horder, h.lined_run hcall hserved, h.stable_run _, hsettings ▸ h.retry,
    hsettings ▸ h.patient, hcalls, hheading, ?_⟩
  intro i hi e he hid
  rcases hknows c (by rw [hcalls]; exact List.mem_singleton.2 rfl) with
    hpausing | ⟨_, _, _, hknows⟩
  · rw [hpausing] at hi
    exact nomatch hi
  · exact hknows.leading i hi e he hid

/-- Once the call has ended, the errands from before go on, and nothing is returned. -/
theorem serve_idle (hserved : (s.react call).state.Served b schedule)
    (hheads : (s.run (call :: schedule)).courier.Heads leader)
    (hnil : (s.run (call :: schedule)).calls = []) {x : Input}
    (hserves : (s.run (call :: schedule)).Serves b x) :
    ((s.run (call :: schedule)).react x).state.calls = [] ∧
      ((s.run (call :: schedule)).react x).state.courier.Heads leader ∧
      ((s.run (call :: schedule)).react x).state.effort < (s.run (call :: schedule)).effort ∧
      ∀ id result, (id, Outcome.returned result) ∉
        ((s.run (call :: schedule)).react x).results :=
  Session.serve_idle
    (run_knows h.sole h.inUse.inOrder h.idle (h.oneAtATime hcall hserved)).1
    (run_follows h.inUse.inOrder _).1 (h.lined_run hcall hserved) (h.stable_run _) hheads hnil
    hserves

/-- Since the call began, nobody but the leader has taken a command. -/
theorem only_leader (hserved : (s.react call).state.Served b schedule)
    {begun window : List Input} (hsplit : call :: schedule = begun ++ window) {entry : LogEntry}
    {errand m : Nat} {reply : Reply}
    (htaken : Taken ((s.run begun).exchanges window) errand m (.command entry) reply) :
    m = leader := by
  have hnext := react_kept Courier.kept_lined ⟨h.inUse.inOrder.courier, h.inUse.lined⟩ call
    (by rw [hcall]; exact nofun)
  have hnone : s.exchange? call = none := by rw [hcall]; rfl
  -- every exchange since then is one that the members may make
  have hall : ∀ y ∈ s.exchanges (call :: schedule), b.answers y.member y.request y.outcome := by
    show ∀ y ∈ (s.exchange? call).toList ++ _, _
    rw [hnone]
    exact answers_of_served hnext.1 hnext.2 hserved
  rw [hsplit, exchanges_append] at hall
  by_contra hne
  have hdeclines := h.stable.declines m (.command entry) (.ok reply) hne rfl
    (hall _ (List.mem_append_right _ htaken.2))
  cases hdeclines with
  | refuses refused _ _ => exact nomatch htaken.1.symm.trans refused

/-- A call that returns a success has earned it. -/
theorem commits {x : Input} (hserved : (s.react call).state.Served b (schedule ++ [x])) {c : Call}
    (hcalls : (s.run (call :: schedule)).calls = [c])
    (hheading : c.Heading leader s.courier.guess (s.run (call :: schedule)).courier)
    {out : CommandOutput}
    (hguess : ((s.run (call :: schedule)).react x).state.courier.guess = leader)
    (hresults : ((s.run (call :: schedule)).react x).results = [(c.id, .returned (.ok out))]) :
    s.Commits (call :: schedule) x c.id c.entry leader out where
  returns := hresults
  guess   := hguess
  earned  := by
    have hbefore := (served_append.1 hserved).1
    have hallows : (s.run (call :: schedule)).Allows x :=
      (oneAtATime_append.1 (h.oneAtATime hcall hserved).2).2.1
    have hc : c ∈ (s.run (call :: schedule)).calls := by
      rw [hcalls]
      exact List.mem_singleton.2 rfl
    have hmem : (c.id, Outcome.returned (.ok out)) ∈ ((s.run (call :: schedule)).react x).results :=
      by rw [hresults]; exact List.mem_singleton.2 rfl
    obtain ⟨horder, hsettings, hfollows⟩ := run_follows h.inUse.inOrder (call :: schedule)
    obtain ⟨hsole, hknows⟩ := run_knows h.sole h.inUse.inOrder h.idle (h.oneAtATime hcall hbefore)
    obtain ⟨d, hd, _, hbusy, _⟩ := (react_carries horder x).returns c.id out hmem
    obtain rfl : d = c := by rw [hcalls] at hd; exact List.mem_singleton.1 hd
    obtain ⟨begun, window, hlast, hknows⟩ := (hknows d hc).resolve_left hbusy
    refine ⟨d.attempts, begun, window,
      hheading.attempts.imp_right fun ⟨htwo, hwrong, _⟩ => ⟨htwo, hwrong⟩, hlast, ?_⟩
    have hlaws := ((react_minds hsole horder hallows).rules d hc hbusy hheading.route _
      (.returns hmem)).1
    rw [hsettings, hfollows.size] at hlaws
    have hlaw := hlaws _ _ hknows
    rw [← hlast.exchanges] at hlaw
    refine merits_of_lawful hbusy (fun a hstage => ?_) hlaw fun errand m reply htaken => ?_
    · obtain ⟨hsnapshot, hroute, _⟩ := (Call.knows_attempting hstage).1 hknows
      exact ⟨hroute.trans hheading.route, hsnapshot⟩
    · refine h.only_leader hcall hserved ?_ htaken
      rw [← List.append_assoc, ← hlast.split]
      rfl

/-- One more input leaves less to do; the call goes on, or has committed. -/
theorem run_comes (hserved : (s.react call).state.Served b schedule) :
    (s.run (call :: schedule)).effort + schedule.length ≤ (s.react call).state.effort ∧
      ((∃ c, (s.run (call :: schedule)).calls = [c] ∧ c.id = s.courier.fresh ∧
          c.entry = s.nextEntry data keys seq ∧
          c.Heading leader s.courier.guess (s.run (call :: schedule)).courier) ∨
        (s.run (call :: schedule)).calls = [] ∧
          (s.run (call :: schedule)).courier.Heads leader ∧
          ∃ done x rest out, schedule = done ++ x :: rest ∧ s.Commits (call :: done) x
            s.courier.fresh (s.nextEntry data keys seq) leader out) := by
  induction schedule using List.reverseRecOn with
  | nil                        =>
      refine ⟨Nat.le_refl _, Or.inl ?_⟩
      rw [hcall]
      exact (invoke_heading h.sole h.inUse.inOrder h.inUse.lined h.stable.lt_size h.idle).2
  | append_singleton done x ih =>
      obtain ⟨hbefore, hserves, _⟩ := served_append.1 hserved
      have hrun : s.run (call :: (done ++ [x])) = ((s.run (call :: done)).react x).state :=
        run_append ..
      obtain ⟨hbound, hcase⟩ := ih hbefore
      rw [hrun, List.length_append, List.length_singleton]
      rcases hcase with ⟨c, hcalls, hid, hentry, hheading⟩ | ⟨hnil, hheads, hdone⟩
      · obtain ⟨hcomes, hless⟩ := (h.steady hcall hbefore hcalls hheading).serve_approaches hserves
        refine ⟨by omega, ?_⟩
        cases hcomes with
        | goesOn c' hid' hentry' hcalls' hheading' _ =>
            exact Or.inl ⟨c', hcalls', hid'.trans hid, hentry'.trans hentry, hheading'⟩
        | ends out hnil hheads hguess hresults       =>
            refine Or.inr ⟨hnil, hheads, done, x, [], out, rfl, ?_⟩
            rw [← hid, ← hentry]
            exact h.commits hcall hserved hcalls hheading hguess hresults
      · obtain ⟨hnil', hheads', hless, _⟩ := h.serve_idle hcall hbefore hheads hnil hserves
        obtain ⟨done', x', rest, out, rfl, hcommits⟩ := hdone
        refine ⟨by omega, Or.inr ⟨hnil', hheads', done', x', rest ++ [x], out, ?_, hcommits⟩⟩
        rw [List.append_assoc, List.cons_append]

end Ready

/-! ## The law -/

/-- A call of this number, begun with an input, is sure to commit, whatever is served. -/
structure CommitsSoon (s : Session) (call : Input) (b : MemberBehaviour) (leader id : Nat)
    (entry : LogEntry) : Prop where
  /-- Not everything can be served for ever. -/
  bounded : ∃ bound, ∀ schedule, (s.react call).state.Served b schedule → schedule.length ≤ bound
  /-- Something can be served until the call has committed. -/
  goesOn  : ∀ schedule, (s.react call).state.Served b schedule →
    (∃ x, (s.react call).state.Served b (schedule ++ [x])) ∨
      ∃ done x rest out, schedule = done ++ x :: rest ∧
        s.Commits (call :: done) x id entry leader out
  /-- It does not return anything but what it has committed. -/
  returns : ∀ done x result, (s.react call).state.Served b (done ++ [x]) →
    (id, .returned result) ∈ ((s.run (call :: done)).react x).results →
      ∃ out, result = .ok out ∧ s.Commits (call :: done) x id entry leader out

/-- **A stable cluster commits within two attempts**: a call on the fast route, with nobody else who
    calls, no deadline and two attempts, returns a success that its first attempt has earned if the
    leader was believed to lead, and its second one otherwise, and the leader is believed to lead
    from then on. -/
theorem stable_cluster_commits (h : s.Ready b leader) (data : Bytes) (keys : List Key)
    (seq : Option SeqNo) :
    s.CommitsSoon (.invoke data keys .fast seq) b leader s.courier.fresh
      (s.nextEntry data keys seq) where
  bounded := by
    refine ⟨(s.react (.invoke data keys .fast seq)).state.effort, fun schedule hserved => ?_⟩
    exact Nat.le_trans (Nat.le_add_left ..) (h.run_comes rfl hserved).1
  goesOn  := by
    intro schedule hserved
    rcases (h.run_comes rfl hserved).2 with ⟨c, hcalls, _, _, hheading⟩ | ⟨_, _, hdone⟩
    · obtain ⟨x, hserves⟩ := (h.steady rfl hserved hcalls hheading).unstuck
      exact Or.inl ⟨x, served_append.2 ⟨hserved, hserves, trivial⟩⟩
    · exact Or.inr hdone
  returns := by
    intro done x result hserved hmem
    obtain ⟨hbefore, hserves, _⟩ := served_append.1 hserved
    rcases (h.run_comes rfl hbefore).2 with ⟨c, hcalls, hid, hentry, hheading⟩ | ⟨hnil, hheads, _⟩
    · cases ((h.steady rfl hbefore hcalls hheading).serve_approaches hserves).comes with
      | goesOn _ _ _ _ _ hnone       => rw [hnone] at hmem; exact nomatch hmem
      | ends out _ _ hguess hresults =>
          rw [hresults] at hmem
          obtain ⟨_, hout⟩ := Prod.mk.inj (List.mem_singleton.1 hmem)
          refine ⟨out, Outcome.returned.inj hout, ?_⟩
          rw [← hid, ← hentry]
          exact h.commits rfl hserved hcalls hheading hguess hresults
    · obtain ⟨_, _, _, hquiet⟩ := h.serve_idle rfl hbefore hheads hnil hserves
      exact absurd hmem (hquiet _ _)

/-- Three members of which the second one leads.  The first one refuses and names it, and the third
    one is down. -/
def secondLeads : MemberBehaviour where
  connects m outcome        := outcome = if m = 2 then .error ⟨.connect, "refused"⟩ else .ok ()
  answers m request outcome := outcome =
    match request with
    | .command _ => .ok (.command ⟨m = 1, some ⟨"m1"⟩, [49], false⟩)
    | .sync _    => .ok (.sync ⟨m = 1, some ⟨"m1"⟩, [49]⟩)
    | _          => .ok (.record ⟨true, ⟨0⟩⟩)

/-- The law at three members, the first of which is believed to lead. -/
theorem stable_cluster_commits_of_three :
    trio.Ready secondLeads 1 ∧
      trio.CommitsSoon (.invoke [97] [⟨[107]⟩] .fast none) secondLeads 1 2 (trioEntry 0) := by
  have hstable : secondLeads.Stable [⟨"m0"⟩, ⟨"m1"⟩, ⟨"m2"⟩] 1 := by
    refine ⟨by decide, by decide, nofun, fun request outcome hseeks h => ?takes,
      fun m error h => ?down, fun m request outcome hne hseeks h => ?declines,
      fun _ => ⟨_, rfl⟩, fun _ _ => ⟨_, rfl⟩⟩
    case takes    =>
      cases request with
      | command _ | sync _ => exact ⟨_, h, rfl⟩
      | _                  => exact nomatch hseeks
    case down     =>
      by_cases hm : m = 2
      · have herror : Except.error error = .error ⟨.connect, "refused"⟩ := h.trans (if_pos hm)
        rw [Except.error.inj herror]
        exact nofun
      · have hok : Except.error error = .ok () := h.trans (if_neg hm)
        exact nomatch hok
    case declines =>
      obtain ⟨reply, rfl, hrefuses, hhint⟩ : ∃ reply, outcome = .ok reply ∧
          reply.accepted = false ∧ reply.hint = some ⟨"m1"⟩ := by
        cases request with
        | command _ | sync _ => exact ⟨_, h, decide_eq_false hne, rfl⟩
        | _                  => exact nomatch hseeks
      exact .refuses hrefuses hhint (Or.inl rfl)
  have hready : trio.Ready secondLeads 1 :=
    ⟨⟨trio, [], trio_opened, fun _ hx => absurd hx List.not_mem_nil, rfl⟩, rfl, hstable,
      fun m hm => by cases hm; decide, rfl⟩
  exact ⟨hready, stable_cluster_commits hready [97] [⟨[107]⟩] none⟩

end Session

end WitnessReplication

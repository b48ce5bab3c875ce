import Mathlib.Data.List.Induction
import WitnessReplication.Proofs.BegunCommands
import WitnessReplication.Proofs.Executions
import WitnessReplication.Proofs.SyncedNames

/-!
# End to end — what a client's call has to do with what the machines execute

    A call tries again and again, at one member and the next, under the same name each time.  Its
    requests are lost on the way there or their replies on the way back, come late, come twice, are
    sent on by members that do not lead; a sync may execute what no command request has brought.  As
    long as one and the same member leads and keeps what it has cached, none of this shows: a call
    that returns an answer has had its command executed once, and that answer is what came of it; a
    call that fails has had it executed once or not at all.

    The leader remembers all that it has executed, and stands by all that it has replied.  What
    followers reply commits to nothing.  So whatever answer reaches a client is the answer of an
    execution that the leader remembers.  And the entry of that execution is the client's own, since
    only what was begun is asked for, and names tell apart what was begun.

* **`Net.Orderly`** — the runs that the law is about.
* **`stays_run`**, **`attested_run`**, **`remembers_leader`** — what is true of the leader.
* **`entry_of_executed`** — whatever is executed under the name of a command is that command.
* **`executed_end_to_end`** — the law.
-/

namespace WitnessReplication

namespace Replica

variable {σ : Type} [StateMachine σ]

/-- A replica leads exactly if the last word was that it does. -/
theorem lead_isLeader (r : Replica σ) (now : Nat) (leader : Option Address) (term : Term) :
    (r.perform now (.lead leader term)).2.isLeader = decide (leader = some r.me) := by
  show (r.lead leader term).isLeader = _
  rw [lead]
  split <;> rfl

/-- What a member replies, if it does not lead, commits to nothing. -/
theorem standsBy_refused {r r' : Replica σ} (hr : r'.isLeader = false) (now : Nat)
    (q : Request) : r.StandsBy q (r'.answer now q).1 := by
  intro e he _ hacc
  obtain ⟨reply, hreply, hrefused, _⟩ := perform_entry_refused he hr now
  obtain rfl : (r'.answer now q).1 = reply := Option.some.inj hreply
  rw [hacc] at hrefused
  exact nomatch hrefused

end Replica

namespace Net

variable {σ : Type}

/-- An event under a leader that stays: no other member is told that it leads, and this one is told
    nothing else. -/
def Event.Steady (L : Address) : Event → Prop
  | .member a _ (.lead leader _) => leader = some a ↔ a = L
  | _                            => True

instance (L : Address) : (ev : Event) → Decidable (ev.Steady L)
  | .member a _ (.lead leader _) => inferInstanceAs (Decidable (leader = some a ↔ a = L))
  | .member _ _ (.request _)     => inferInstanceAs (Decidable True)
  | .member _ _ .commit          => inferInstanceAs (Decidable True)
  | .member _ _ .takePending     => inferInstanceAs (Decidable True)
  | .member _ _ .evict           => inferInstanceAs (Decidable True)
  | .session _ _                 => inferInstanceAs (Decidable True)
  | .serve _ _ _                 => inferInstanceAs (Decidable True)
  | .arrive _                    => inferInstanceAs (Decidable True)

/-- The session in which an event begins a call. -/
def Event.caller? : Event → Option Nat
  | .session j (.invoke _ _ _ _) => some j
  | _                            => none

/-- The entry that an event asks a member to execute although no errand waits for it. -/
def Event.stray? : Event → Option LogEntry
  | .member _ _ action => action.entry?
  | _                  => none

variable [StateMachine σ]

/-- The calls that some events begin in a session, each with its number and its command. -/
def begun (n : Net σ) (j : Nat) (events : List Event) : List (Nat × LogEntry) :=
  (n.sessions j).begun (n.inputs j events)

/-- The commands that a member's machine executes in the course of some events, with its answers. -/
def executions (n : Net (Logged σ)) (a : Address) (events : List Event) :
    List (LogEntry × Bytes) :=
  (n.members a).executions (n.acts a events)

/-- Those of one name. -/
def executionsOf (n : Net (Logged σ)) (a : Address) (id : RequestId) (events : List Event) :
    List (LogEntry × Bytes) :=
  (n.executions a events).filter fun x => x.1.id = id

/-- What was begun was begun, whatever happens then. -/
theorem begun_mono {n : Net σ} {j : Nat} {xs : List Event} {p : Nat × LogEntry}
    (h : p ∈ n.begun j xs) (ys : List Event) : p ∈ n.begun j (xs ++ ys) := by
  rw [begun, inputs_append, Session.begun_append]
  exact List.mem_append_left _ h

theorem executions_append (n : Net (Logged σ)) (a : Address) (xs ys : List Event) :
    n.executions a (xs ++ ys) = n.executions a xs ++ (n.run xs).executions a ys := by
  rw [executions, acts_append, Replica.executions_append, ← members_run]
  rfl

-- ── A leader that stays ──────────────────────────────────────────────────────────────────────────

section Leader

variable {n n₀ : Net σ} {L : Address} {events : List Event} {ev : Event}

omit [StateMachine σ] in
/-- Whoever acts, it is under a leader that stays. -/
theorem steady_of_action {a : Address} {now : Nat} {action : Replica.Action} (hev : ev.Steady L)
    (h : n.action? ev = some (a, now, action)) : (Event.member a now action).Steady L := by
  cases ev with
  | serve j errand now' =>
      obtain ⟨⟨m, q⟩, _, hx⟩ := Option.map_eq_some_iff.1 h
      cases hx
      trivial
  | member b now' act   =>
      cases h
      exact hev
  | session _ _         => exact nomatch h
  | arrive _            => exact nomatch h

/-- What stays true of a member: it goes by its own address, leads if it is the one that leads, and
    leaves its machine alone if it is not. -/
structure Stays (L a : Address) (machine : σ) (r : Replica σ) : Prop where
  me    : r.me = a
  leads : r.isLeader = decide (a = L)
  idle  : a ≠ L → r.machine = machine

theorem Stays.perform {a : Address} {machine : σ} {r : Replica σ} (h : Stays L a machine r)
    {now : Nat} {action : Replica.Action} (hsteady : (Event.member a now action).Steady L) :
    Stays L a machine (r.perform now action).2 where
  me    := (r.perform_me now action).trans h.me
  idle  := by
    intro ha
    rw [Replica.machine_perform (h.leads.trans (decide_eq_false ha))]
    exact h.idle ha
  leads := by
    cases hlead : action.elects with
    | false => rw [Replica.perform_isLeader hlead, h.leads]
    | true  =>
        cases action with
        | lead leader term =>
            rw [Replica.lead_isLeader, h.me]
            exact decide_eq_decide.2 hsteady
        | request _        => exact nomatch hlead
        | commit           => exact nomatch hlead
        | takePending      => exact nomatch hlead
        | evict            => exact nomatch hlead

/-- **Who leads at first leads throughout**, and nobody else leads or executes anything. -/
theorem stays_run (h₀ : n₀.Initial) (hled : ∀ a, (n₀.members a).isLeader = true ↔ a = L)
    (hsteady : ∀ ev ∈ events, ev.Steady L) (a : Address) :
    Stays L a (n₀.members a).machine ((n₀.run events).members a) := by
  induction events using List.reverseRecOn with
  | nil                         =>
      obtain ⟨leader, term, machine, retention, hstart⟩ := h₀.members a
      have hleads : (n₀.members a).isLeader = decide (a = L) := by
        rw [Bool.eq_iff_iff, decide_eq_true_iff]
        exact hled a
      refine ⟨?_, hleads, fun _ => rfl⟩
      show (n₀.members a).me = a
      rw [hstart]
      rfl
  | append_singleton events ev ih =>
      have hbefore := ih fun e he => hsteady e (List.mem_append_left _ he)
      have hlast : n₀.run (events ++ [ev]) = (n₀.run events).step ev := run_append ..
      rw [hlast]
      rcases (n₀.run events).members_step ev a with hsame | ⟨now, action, haction, hdone⟩
      · rw [hsame]
        exact hbefore
      · rw [hdone]
        have hev := hsteady ev (List.mem_append_right _ (List.mem_singleton.2 rfl))
        exact hbefore.perform (steady_of_action hev haction)

/-- A member that forgets nothing in the whole of a run forgets nothing at first, nor at the end. -/
theorem kept_before {a : Address} {xs ys : List Event}
    (h : ¬ Replica.Occurs Replica.Forgets (n.members a) (n.acts a (xs ++ ys))) :
    ¬ Replica.Occurs Replica.Forgets (n.members a) (n.acts a xs) := by
  rw [acts_append, Replica.occurs_append, not_or] at h
  exact h.1

theorem kept_last {a : Address} {now : Nat} {action : Replica.Action}
    (h : ¬ Replica.Occurs Replica.Forgets (n.members a) (n.acts a (events ++ [ev])))
    (haction : (n.run events).action? ev = some (a, now, action)) :
    ¬ ((n.run events).members a).Forgets now action := by
  rw [acts_append, acts, acts, act?_eq_some_iff.2 haction, List.append_nil] at h
  rw [members_run]
  exact fun hforgets => h ((Replica.occurs_concat ..).2 (Or.inr hforgets))

/-- **The leader stands by all that is on its way and all that was heard**, whoever has said it. -/
theorem attested_run (h₀ : n₀.Initial) (hled : ∀ a, (n₀.members a).isLeader = true ↔ a = L)
    (hsteady : ∀ ev ∈ events, ev.Steady L)
    (hkept : ¬ Replica.Occurs Replica.Forgets (n₀.members L) (n₀.acts L events)) :
    (n₀.run events).Attested (fun j => (n₀.sessions j).exchanges (n₀.inputs j events))
      fun _ _ => ((n₀.run events).members L).StandsBy := by
  induction events using List.reverseRecOn with
  | nil                         =>
      refine ⟨fun f hf => ?_, fun _ _ hx => nomatch hx⟩
      have hf' : f ∈ n₀.flights := hf
      rw [h₀.flights] at hf'
      exact nomatch hf'
  | append_singleton events ev ih =>
      have hbefore : ∀ e ∈ events, e.Steady L := fun e he => hsteady e (List.mem_append_left _ he)
      have hlast : n₀.run (events ++ [ev]) = (n₀.run events).step ev := run_append ..
      have hstays := stays_run h₀ hled hbefore
      rw [hlast, heard_concat]
      refine (ih hbefore (kept_before hkept)).step ?stays (fun hq => hq.normalized) ?sent
      case stays =>
        intro _ _ q reply hq
        rcases (n₀.run events).members_step ev L with hsame | ⟨now, action, haction, hdone⟩
        · rw [hsame]
          exact hq
        · rw [hdone]
          exact hq.of_not_forgets (kept_last hkept haction)
      case sent =>
        -- the one reply that is new is the leader's, or it refuses
        intro f hf
        obtain ⟨now, haction, hreply⟩ := action?_of_sent hf
        rw [hreply]
        by_cases hL : ((n₀.run events).sessions f.session).courier.pool.address f.member = L
        · rw [hL] at haction
          rw [members_step_self haction, member, hL]
          exact Replica.standsBy_answer _ now f.request
        · exact Replica.standsBy_refused ((hstays _).leads.trans (decide_eq_false hL)) now f.request

end Leader

-- ── Whose commands are executed ──────────────────────────────────────────────────────────────────

section Begun

variable {n n₀ : Net σ} {events : List Event} {j : Nat}

/-- What a session waits for a member to execute was begun there. -/
theorem begun_of_awaited (h₀ : n₀.Initial) {errand m : Nat} {q : Request} {e : LogEntry}
    (h : ((n₀.run events).sessions j).awaited? errand = some (m, q))
    (he : Replica.Action.entry? (.request q) = some e) : ∃ id, (id, e) ∈ n₀.begun j events := by
  rw [run_sessions] at h
  have hwithin := Session.within_run (h₀.fresh j) (n₀.inputs j events)
  unfold Session.awaited? at h
  split at h
  · rename_i aim m' _ hfind
    obtain ⟨q', hq, hx⟩ := Option.map_eq_some_iff.1 h
    obtain ⟨rfl, rfl⟩ := Prod.mk.inj hx
    exact hwithin.errands _ (List.mem_of_find?_eq_some hfind) e (Errand.Aim.entry?_of_request hq he)
  · exact nomatch h

/-- Whatever a member is asked to execute was begun in a session, or somebody else asks for it. -/
theorem asked_of_acts (h₀ : n₀.Initial) {a : Address} {now : Nat} {action : Replica.Action}
    (hx : (now, action) ∈ n₀.acts a events) {e : LogEntry} (he : action.entry? = some e) :
    (∃ j id, (id, e) ∈ n₀.begun j events) ∨ ∃ ev ∈ events, ev.stray? = some e := by
  induction events using List.reverseRecOn with
  | nil                         => exact nomatch hx
  | append_singleton events ev ih =>
      rw [acts_append] at hx
      rcases List.mem_append.1 hx with hx | hx
      · rcases ih hx with ⟨j, id, hbegun⟩ | ⟨stray, hmem, hstray⟩
        · exact Or.inl ⟨j, id, begun_mono hbegun _⟩
        · exact Or.inr ⟨stray, List.mem_append_left _ hmem, hstray⟩
      · rw [acts, acts, List.append_nil, Option.mem_toList, act?_eq_some_iff] at hx
        cases ev with
        | serve j errand now' =>
            obtain ⟨⟨m, q⟩, hawaited, hx⟩ := Option.map_eq_some_iff.1 hx
            cases hx
            obtain ⟨id, hbegun⟩ := begun_of_awaited h₀ hawaited he
            exact Or.inl ⟨j, id, begun_mono hbegun _⟩
        | member b now' act   =>
            cases hx
            exact Or.inr ⟨_, List.mem_append_right _ (List.mem_singleton.2 rfl), he⟩
        | session _ _         => exact nomatch hx
        | arrive _            => exact nomatch hx

/-- No call begins in a session in which no user begins one. -/
theorem begun_eq_nil (h : ∀ ev ∈ events, ev.caller? ≠ some j) : n.begun j events = [] := by
  induction events using List.reverseRecOn with
  | nil                         => rfl
  | append_singleton events ev ih =>
      have hev := h ev (List.mem_append_right _ (List.mem_singleton.2 rfl))
      have hbefore := ih fun e he => h e (List.mem_append_left _ he)
      have hlast : ((n.run events).sessions j).begun ((n.run events).input? j ev).toList = [] := by
        cases ev with
        | session i x  =>
            rw [input?]
            split
            · rename_i hi
              cases x with
              | invoke data keys route seq => exact absurd (congrArg some hi.1) hev
              | close                      => rfl
              | signal id sig              => rfl
            · rfl
        | arrive k     =>
            rw [input?]
            split
            · split <;> rfl
            · rfl
        | serve _ _ _  => rfl
        | member _ _ _ => rfl
      rw [begun] at hbefore ⊢
      rw [inputs_concat, Session.begun_append, hbefore, ← run_sessions, hlast]
      rfl

end Begun

-- ── The law ──────────────────────────────────────────────────────────────────────────────────────

/-- **The runs that the law is about.**  Everything begins anew; one member leads, and goes on to,
    and forgets no answer; no two sessions that begin calls have one client id, and no two calls of
    a session have one sequence number.  Whatever else reaches members besides what sessions wait
    for does not abuse the names of what was begun: it is the same command, late or once more. -/
structure Orderly (n₀ : Net σ) (L : Address) (events : List Event) : Prop where
  initial : n₀.Initial
  led     : ∀ a, (n₀.members a).isLeader = true ↔ a = L
  steady  : ∀ ev ∈ events, ev.Steady L
  kept    : ¬ Replica.Occurs Replica.Forgets (n₀.members L) (n₀.acts L events)
  clients : ∀ i j, n₀.begun i events ≠ [] → n₀.begun j events ≠ [] →
    (n₀.sessions i).identity.client = (n₀.sessions j).identity.client → i = j
  numbers : ∀ j, ((n₀.begun j events).map fun p => p.2.seq).Nodup
  strays  : ∀ ev ∈ events, ∀ e, ev.stray? = some e →
    ∀ j, ∀ p ∈ n₀.begun j events, e.id = p.2.id → e = p.2

/-- **What a client's calls have to do with what the machines execute.** -/
structure ExecutesOnce (n₀ : Net (Logged σ)) (L : Address) (events : List Event) : Prop where
  /-- No machine but the leader's executes anything, and the leader's executes `executions`. -/
  followers : ∀ a, a ≠ L → ((n₀.run events).members a).machine = (n₀.members a).machine
  leader    : ((n₀.run events).members L).machine.calls =
    (n₀.members L).machine.calls ++ (n₀.executions L events).map fun x => (x.1.data, x.2)
  /-- Whatever is returned is returned to one call that was begun.  If it is an answer, the call's
      command has been executed, with this answer, and is not executed again in the run.  If it is
      an error, the command is executed at most once in the run. -/
  returns   : ∀ before last more, events = before ++ last :: more → ∀ j x,
    (n₀.run before).input? j last = some x → ∀ id result,
    (id, .returned result) ∈ (((n₀.run before).sessions j).react x).results →
    ∃ e, (id, e) ∈ n₀.begun j (before ++ [last]) ∧ (∀ f, (id, f) ∈ n₀.begun j events → f = e) ∧
      match result with
      | .ok out  => out.seq = e.seq ∧
          n₀.executionsOf L e.id (before ++ [last]) = [(e, out.data)] ∧
          n₀.executionsOf L e.id events = [(e, out.data)]
      | .error _ => n₀.executionsOf L e.id events = [] ∨
          ∃ answer, n₀.executionsOf L e.id events = [(e, answer)]

section Law

variable {n₀ : Net (Logged σ)} {L : Address} {events : List Event}

/-- Names tell apart what was begun. -/
theorem Orderly.eq_of_id {n₀ : Net σ} (h : n₀.Orderly L events) {i j : Nat} {p q : Nat × LogEntry}
    (hp : p ∈ n₀.begun i events) (hq : q ∈ n₀.begun j events) (hid : p.2.id = q.2.id) :
    p.2 = q.2 := by
  have hclient : ∀ {k : Nat} {r : Nat × LogEntry}, r ∈ n₀.begun k events →
      r.2.client = (n₀.sessions k).identity.client :=
    fun hr => (Session.client_of_begun (h.initial.fresh _) hr).2
  have hsame : i = j := by
    refine h.clients i j (List.ne_nil_of_mem hp) (List.ne_nil_of_mem hq) ?_
    rw [← hclient hp, ← hclient hq]
    exact congrArg RequestId.client hid
  subst hsame
  exact congrArg Prod.snd
    (List.inj_on_of_nodup_map (h.numbers i) hp hq (congrArg RequestId.seq hid))

/-- **Whatever is executed under the name of a command that was begun is that command.** -/
theorem Orderly.entry_of_executed (h : n₀.Orderly L events) {e f : LogEntry} {answer : Bytes}
    (hf : (f, answer) ∈ n₀.executions L events) {j id : Nat} (he : (id, e) ∈ n₀.begun j events)
    (hid : f.id = e.id) : f = e := by
  obtain ⟨⟨now, action⟩, hx, hentry⟩ := Replica.asked_of_executed hf
  rcases asked_of_acts h.initial hx hentry with ⟨i, id', hbegun⟩ | ⟨ev, hev, hstray⟩
  · exact h.eq_of_id hbegun he hid
  · exact h.strays ev hev f hstray j (id, e) he hid

/-- The leader remembers all that it has executed. -/
theorem remembers_leader (h₀ : n₀.Initial)
    (hkept : ¬ Replica.Occurs Replica.Forgets (n₀.members L) (n₀.acts L events)) :
    ((n₀.run events).members L).Remembers (n₀.executions L events) := by
  obtain ⟨leader, term, machine, retention, hstart⟩ := h₀.members L
  rw [members_run]
  refine Replica.remembers_run ?_ ?_ hkept
  · rw [hstart]
    exact ResponseCache.distinct_empty retention
  · rw [hstart]
    exact fun _ _ => rfl

/-- What was executed was executed, whatever happens then. -/
theorem executions_mono {a : Address} {xs : List Event} {p : LogEntry × Bytes}
    (h : p ∈ n₀.executions a xs) (ys : List Event) : p ∈ n₀.executions a (xs ++ ys) := by
  rw [executions_append]
  exact List.mem_append_left _ h

/-- The executions under the name of a command that was begun: one at most, and of this command. -/
theorem Orderly.executionsOf_cases (h : n₀.Orderly L events) {j id : Nat} {e : LogEntry}
    (he : (id, e) ∈ n₀.begun j events) :
    n₀.executionsOf L e.id events = [] ∨
      ∃ answer, n₀.executionsOf L e.id events = [(e, answer)] := by
  cases hx : n₀.executionsOf L e.id events with
  | nil          => exact Or.inl rfl
  | cons p rest  =>
      obtain ⟨f, answer⟩ := p
      obtain ⟨hmem, hid⟩ := List.mem_filter.1 (hx ▸ List.mem_cons_self .. :
        (f, answer) ∈ n₀.executionsOf L e.id events)
      obtain rfl := h.entry_of_executed hmem he (of_decide_eq_true hid)
      rw [← hx]
      exact Or.inr ⟨answer, (remembers_leader h.initial h.kept).filter_eq hmem⟩

/-- **An answer that a client is given comes of an execution**, of the command of the call to which
    it is given, and the leader has made this execution by then. -/
theorem executed_of_answer (h₀ : n₀.Initial) (hled : ∀ a, (n₀.members a).isLeader = true ↔ a = L)
    {last : Event} (hsteady : ∀ ev ∈ events ++ [last], ev.Steady L)
    (hkept : ¬ Replica.Occurs Replica.Forgets (n₀.members L) (n₀.acts L (events ++ [last])))
    {j : Nat} {x : Session.Input}
    (hx : (n₀.run events).input? j last = some x) {id : Nat} {out : CommandOutput}
    (hret : (id, .returned (.ok out)) ∈ (((n₀.run events).sessions j).react x).results) :
    ∃ e, (id, e) ∈ n₀.begun j events ∧ out.seq = e.seq ∧
      ∃ f, f.id = e.id ∧ (f, out.data) ∈ n₀.executions L (events ++ [last]) := by
  have hfresh := h₀.fresh j
  rw [run_sessions] at hret
  obtain ⟨c, hc, rfl, begun, window, hlast, hfounded⟩ := Session.returned_founded hfresh hret
  have hk : c.entry.kind = .command := (Session.run_traced hfresh _).1.commands c hc
  obtain ⟨i, m, took, htook, hdata, _⟩ := hfounded.taken
  rw [← hlast.exchanges] at htook
  refine ⟨c.entry, Session.entry_of_begun hfresh hc, hfounded.seq, ?_⟩
  -- what the session has heard was heard in the run, and so the leader stands by it
  have hheard : (⟨i, m, .command c.entry, .ok took⟩ : Exchange) ∈
      (n₀.sessions j).exchanges (n₀.inputs j (events ++ [last])) := by
    rw [inputs_concat, hx, hlast.split, List.append_assoc, Session.exchanges_append]
    exact List.mem_append_right _ htook.2
  have hstands := (attested_run h₀ hled hsteady hkept).heard j _ hheard took rfl
  have hheld := hstands c.entry rfl hk htook.1
  rw [hdata] at hheld
  exact ((remembers_leader h₀ hkept).holds c.entry.id out.data).1 hheld

/-- **Exactly once, from end to end**: over every machine, with any number of sessions and calls,
    whatever happens to the members and on the way, as long as one and the same member leads and
    keeps what it has cached. -/
theorem executed_end_to_end (h : n₀.Orderly L events) : n₀.ExecutesOnce L events := by
  have hstays := stays_run h.initial h.led h.steady
  refine ⟨fun a ha => (hstays a).idle ha, ?leader, ?returns⟩
  case leader =>
    rw [members_run]
    exact Replica.calls_run ..
  case returns =>
    rintro before last more rfl j x hx id result hret
    have hsplit : before ++ last :: more = (before ++ [last]) ++ more := by
      rw [List.append_assoc]
      rfl
    have hfresh := h.initial.fresh j
    have hbegan : ∃ e, (id, e) ∈ n₀.begun j (before ++ [last]) := by
      rw [run_sessions] at hret
      rw [begun, inputs_concat, hx]
      exact Session.begun_of_returned hfresh hret
    obtain ⟨e, he⟩ := hbegan
    have hall : (id, e) ∈ n₀.begun j (before ++ last :: more) := by
      rw [hsplit]
      exact begun_mono he more
    refine ⟨e, he, fun f hf => Session.begun_unique hfresh hall hf, ?_⟩
    cases result with
    | error error => exact h.executionsOf_cases hall
    | ok out      =>
        have hkept := h.kept
        have hsteady := h.steady
        rw [hsplit] at hkept hsteady
        have hkept' := kept_before hkept
        obtain ⟨e', he', hseq, f, hid, hmem⟩ :=
          executed_of_answer h.initial h.led (fun ev hev => hsteady ev (List.mem_append_left _ hev))
            hkept' hx hret
        obtain rfl : e' = e := Session.begun_unique hfresh he (begun_mono he' [last])
        have hmem' : (f, out.data) ∈ n₀.executions L (before ++ last :: more) := by
          rw [hsplit]
          exact executions_mono hmem more
        obtain rfl := h.entry_of_executed hmem' hall hid
        exact ⟨hseq, (remembers_leader h.initial hkept').filter_eq hmem,
          (remembers_leader h.initial h.kept).filter_eq hmem'⟩

end Law

/-- Three members, which log the commands that they count, and sessions that know all three.  The
    second member leads. -/
def loggedTallies : Net (Logged Tally) where
  sessions _ := Session.trio
  members a  := .start a (some ⟨"m1"⟩) ⟨1⟩ (Logged.mk {} []) 5

/-- A call on its way to an answer.  It is sent on by the first member; executed by the second one,
    whose reply is lost; sent on by the third one when there are no tries left.  The second attempt
    finds the answer in the cache; one witness does not take the record, and a sync sets off. -/
def untilAnswer : List Event :=
  [.session 0 (.invoke [97] [⟨[107]⟩] .fast none),
    .session 0 (.signal 3 .proceed), .serve 0 3 1, .arrive 0,
    .session 0 (.signal 3 .proceed), .serve 0 3 2,
    .session 0 (.signal 3 (.answered (.error ⟨.send, "connection reset"⟩))),
    .session 0 (.signal 3 .proceed), .serve 0 3 3, .arrive 2, .session 0 (.signal 3 .proceed),
    .member ⟨"m2"⟩ 4 (.request .recoveryData), .member ⟨"m0"⟩ 4 .evict,
    .session 0 (.signal 4 .proceed), .session 0 (.signal 4 (.connected (.ok ()))), .serve 0 4 4,
    .arrive 3, .session 0 (.signal 5 .proceed), .serve 0 5 4, .arrive 4,
    .session 0 (.signal 2 .proceed), .session 0 (.signal 2 .rested),
    .session 0 (.signal 6 .proceed), .serve 0 6 5, .arrive 5,
    .session 0 (.signal 7 .proceed), .serve 0 7 6, .arrive 6,
    .session 0 (.signal 8 .proceed), .serve 0 8 6, .arrive 7,
    .session 0 (.signal 2 .proceed), .session 0 (.signal 9 .proceed), .serve 0 9 7]

/-- Another call, which is executed and runs out of time; its command arrives once more. -/
def untilExpired : List Event :=
  [.session 0 (.invoke [98] [⟨[108]⟩] .leaderOnly none), .session 0 (.signal 11 .proceed),
    .serve 0 11 8, .session 0 (.signal 10 .expired),
    .member ⟨"m1"⟩ 9 (.request (.command (Session.trioEntry 1)))]

/-- The law at a call that goes through most of what can happen to one. -/
theorem executed_once_through_losses :
    let answer : Session.Input := .signal 9 (.answered (.ok (.sync ⟨true, some ⟨"m1"⟩, [49]⟩)))
    let events := untilAnswer ++ .arrive 8 :: untilExpired
    loggedTallies.Orderly ⟨"m1"⟩ events ∧
      (loggedTallies.run untilAnswer).input? 0 (.arrive 8) = some answer ∧
      (2, .returned (.ok ⟨⟨0⟩, [49], .explicitSync⟩)) ∈
        (((loggedTallies.run untilAnswer).sessions 0).react answer).results ∧
      ∃ e, (2, e) ∈ loggedTallies.begun 0 (untilAnswer ++ [.arrive 8]) ∧
        loggedTallies.executionsOf ⟨"m1"⟩ e.id events = [(e, [49])] := by
  intro answer events
  have hbegun : loggedTallies.begun 0 events =
      [(2, Session.trioEntry 0), (10, Session.trioEntry 1)] := by decide +kernel
  have hcallers : ∀ ev ∈ events, ev.caller? = none ∨ ev.caller? = some 0 := by decide
  have hstrays : events.filterMap Event.stray? = [Session.trioEntry 1] := by decide
  have hunswept : ∀ x ∈ loggedTallies.acts ⟨"m1"⟩ events, x.2 ≠ .evict := by decide +kernel
  have hnone : ∀ j, j ≠ 0 → loggedTallies.begun j events = [] := by
    intro j hj
    refine begun_eq_nil fun ev hev hcaller => ?_
    rcases hcallers ev hev with hno | hzero
    · exact nomatch hno.symm.trans hcaller
    · exact hj (Option.some.inj (hcaller.symm.trans hzero))
  have horderly : loggedTallies.Orderly ⟨"m1"⟩ events := by
    refine ⟨⟨fun _ => Session.trio_opened, fun _ => ⟨_, _, _, _, rfl⟩, rfl⟩, ?led, by decide, ?kept,
      ?clients, ?numbers, ?strays⟩
    case led =>
      intro a
      show decide (some ⟨"m1"⟩ = some a) = true ↔ a = ⟨"m1"⟩
      rw [decide_eq_true_iff, Option.some_inj]
      exact eq_comm
    case kept =>
      exact Replica.not_forgets_run (ResponseCache.distinct_empty 5) hunswept
    case clients =>
      intro i j hi hj _
      rw [Decidable.not_imp_comm.1 (hnone i) hi, Decidable.not_imp_comm.1 (hnone j) hj]
    case numbers =>
      intro j
      by_cases hj : j = 0
      · rw [hj, hbegun]
        decide
      · rw [hnone j hj]
        exact List.nodup_nil
    case strays =>
      intro ev hev e he j p hp hid
      have hmem : e ∈ events.filterMap Event.stray? := List.mem_filterMap.2 ⟨ev, hev, he⟩
      rw [hstrays] at hmem
      obtain rfl := List.mem_singleton.1 hmem
      by_cases hj : j = 0
      · rw [hj, hbegun] at hp
        revert hid
        revert p
        decide
      · rw [hnone j hj] at hp
        exact nomatch hp
  have hx : (loggedTallies.run untilAnswer).input? 0 (.arrive 8) = some answer := by decide +kernel
  have hret : (2, .returned (.ok ⟨⟨0⟩, [49], .explicitSync⟩)) ∈
      (((loggedTallies.run untilAnswer).sessions 0).react answer).results := by decide +kernel
  obtain ⟨e, he, _, _, _, honce⟩ := (executed_end_to_end horderly).returns untilAnswer (.arrive 8)
    untilExpired rfl 0 answer hx 2 _ hret
  exact ⟨horderly, hx, hret, e, he, honce⟩

end Net

end WitnessReplication

import Mathlib.Logic.Function.Basic
import WitnessReplication.Proofs.LoggedMachine
import WitnessReplication.Proofs.OpeningRuns

/-!
# Cluster runs — sessions, members, and the replies on their way

    Sessions and members meet in messages only.  A member serves a request while an errand waits for
    it, and from then on its reply is on its way: it arrives soon, or late, or more than once, or
    never.  An errand that hears of no reply is told so, whether or not its request was served.  And
    at any moment anything else may happen to a member: leadership moves, what is unsynced is
    committed, requests of others are served, and such as nobody waits for any more.

    For each session a run of the whole is a run of its own, so all that is known of the runs of one
    session holds.  What the whole adds is where replies come from.  As long as no cache is swept, a
    member stands by what it has said: the answer to a command is in its cache from then on.

* **`Net.step`** and **`Net.run`** — one event; a list of them.
* **`Net.run_sessions`**, **`Net.members_run`** — a run of the whole is a run of each session, and of
  each member.
* **`Replica.StandsBy`** — a member has cached what it has answered.
* **`vouched_run`** — members stand by all that is on its way, and by all that was heard.
-/

namespace WitnessReplication

/-! ## What a member stands by -/

@[simp] theorem Reply.accepted_normalized (r : Reply) : r.normalized.accepted = r.accepted := by
  cases r <;> rfl

@[simp] theorem Reply.data_normalized (r : Reply) : r.normalized.data = r.data := by
  cases r <;> rfl

namespace Replica

variable {σ : Type} {r : Replica σ} {q : Request} {reply : Reply}

/-- The response cache holds just this answer to the command of this name. -/
def Holds (r : Replica σ) (id : RequestId) (data : Bytes) : Prop :=
  (r.cache.lookup id.client id.seq).map (·.response) = some data

/-- The response cache holds one answer at most. -/
theorem Holds.unique {id : RequestId} {data data' : Bytes} (h : r.Holds id data)
    (h' : r.Holds id data') : data = data' :=
  Option.some.inj (h.symm.trans h')

/-- A replica stands by a reply: if it has executed a command for it, or had done so before, the
    answer in its cache is the one in the reply. -/
def StandsBy (r : Replica σ) (q : Request) (reply : Reply) : Prop :=
  ∀ e, Action.entry? (.request q) = some e → e.kind = .command → reply.accepted = true →
    r.Holds e.id reply.data

/-- A reply is stood by as its receiver reads it. -/
theorem StandsBy.normalized (h : r.StandsBy q reply) : r.StandsBy q reply.normalized := by
  intro e he hk hacc
  rw [Reply.accepted_normalized] at hacc
  rw [Reply.data_normalized]
  exact h e he hk hacc

variable [StateMachine σ]

/-- A replica stands by what it replies. -/
theorem standsBy_answer (r : Replica σ) (now : Nat) (q : Request) :
    (r.answer now q).2.StandsBy q (r.answer now q).1 := by
  intro e he hk hacc
  have hreplies : r.Replies now (.request q) e.id (r.answer now q).1.data :=
    ⟨e, _, he, hk, rfl, rfl, hacc, rfl⟩
  obtain ⟨kept, hl, hdata⟩ := lookup_of_replies hreplies
  show Option.map _ ((r.perform now (.request q)).2.cache.lookup e.id.client e.id.seq) = _
  rw [hl, hdata]
  rfl

/-- A replica stands by its replies whatever happens to it but a sweep. -/
theorem StandsBy.perform (hd : r.cache.Distinct) (h : r.StandsBy q reply) (now : Nat) {a : Action}
    (ha : a ≠ .evict) : (r.perform now a).2.StandsBy q reply := by
  intro e he hk hacc
  obtain ⟨kept, hl, hdata⟩ := Option.map_eq_some_iff.1 (h e he hk hacc)
  rw [Holds, lookup_perform hd hl now a fun hev => absurd hev ha]
  exact congrArg some hdata

end Replica

/-! ## The whole -/

/-- A reply on its way, to the errand of a session that asked a member. -/
structure Flight where
  session : Nat
  errand  : Nat
  member  : Nat
  request : Request
  reply   : Reply

/-- Any number of sessions, the members they may ask, and the replies on their way. -/
structure Net (σ : Type) where
  sessions : Nat → Session
  members  : Address → Replica σ
  flights  : List Flight := []

/-- Whether an errand hears a reply with this. -/
def Session.Input.isReply : Session.Input → Bool
  | .signal _ (.answered (.ok _)) => true
  | _                             => false

/-- Only with a reply does a session hear a reply. -/
theorem Session.isReply_of_exchange? {s : Session} {x : Session.Input} {i m : Nat} {q : Request}
    {reply : Reply} (h : s.exchange? x = some ⟨i, m, q, .ok reply⟩) : x.isReply = true := by
  unfold Session.exchange? at h
  split at h
  · obtain ⟨⟨m', q'⟩, _, hx⟩ := Option.map_eq_some_iff.1 h
    cases hx
    rfl
  · exact nomatch h

namespace Net

/-- Something that happens. -/
inductive Event where
  /-- Something happens to a session that is no reply: a user acts, time passes, an errand goes on, a
      connection comes or does not, an exchange fails. -/
  | session (j : Nat) (x : Session.Input)
  /-- A member serves the request for which an errand waits. -/
  | serve (j errand now : Nat)
  /-- A reply arrives. -/
  | arrive (flight : Nat)
  /-- Anything else happens to a member. -/
  | member (a : Address) (now : Nat) (action : Replica.Action)

/-- Whether a response cache is swept. -/
def Event.sweeps : Event → Bool
  | .member _ _ .evict => true
  | _                  => false

variable {σ : Type}

/-- The replica that a session finds at a place of its list of members. -/
def member (n : Net σ) (j m : Nat) : Replica σ :=
  n.members ((n.sessions j).courier.pool.address m)

/-- What an event is for a session.  A reply is heard only by the errand that waits for it. -/
def input? (n : Net σ) (j : Nat) : Event → Option Session.Input
  | .session i x => if i = j ∧ x.isReply = false then some x else none
  | .arrive k    =>
      match n.flights[k]? with
      | some f =>
          if f.session = j ∧ (n.sessions j).awaited? f.errand = some (f.member, f.request) then
            some (.signal f.errand (.answered (.ok f.reply.normalized)))
          else none
      | none   => none
  | _            => none

/-- What an event makes a member do, and when. -/
def action? (n : Net σ) : Event → Option (Address × Nat × Replica.Action)
  | .serve j errand now     =>
      ((n.sessions j).awaited? errand).map fun (m, q) =>
        ((n.sessions j).courier.pool.address m, now, .request q)
  | .member a now action => some (a, now, action)
  | _                    => none

/-- What an event makes a given member do, and when. -/
def act? (n : Net σ) (a : Address) (ev : Event) : Option (Nat × Replica.Action) :=
  (n.action? ev).bind fun (b, now, action) => if b = a then some (now, action) else none

/-- A reply that a session hears was on its way to it. -/
theorem flight_of_heard {n : Net σ} {ev : Event} {j : Nat} {x : Session.Input}
    (hx : n.input? j ev = some x) {i m : Nat} {q : Request} {reply : Reply}
    (he : (n.sessions j).exchange? x = some ⟨i, m, q, .ok reply⟩) :
    ∃ f ∈ n.flights, f.session = j ∧ f.member = m ∧ f.request = q ∧
      reply = f.reply.normalized := by
  cases ev with
  | session i' y  =>
      rw [input?] at hx
      split at hx
      · rename_i hy
        obtain rfl := Option.some.inj hx
        rw [Session.isReply_of_exchange? he] at hy
        cases hy.2
      · cases hx
  | arrive k      =>
      rw [input?] at hx
      split at hx
      · rename_i f hf
        split at hx
        · rename_i hawaited
          obtain rfl := Option.some.inj hx
          rw [Session.exchange?, hawaited.2] at he
          cases he
          exact ⟨f, List.mem_of_getElem? hf, hawaited.1, rfl, rfl, rfl⟩
        · cases hx
      · cases hx
  | serve _ _ _   => cases hx
  | member _ _ _  => cases hx

/-- An event that sweeps no cache makes nobody do so. -/
theorem action?_ne_evict {n : Net σ} {ev : Event} (hev : ev.sweeps = false) {a : Address} {now : Nat}
    {action : Replica.Action} (h : n.action? ev = some (a, now, action)) : action ≠ .evict := by
  rintro rfl
  cases ev with
  | serve j errand now' =>
      obtain ⟨⟨m, q⟩, _, hx⟩ := Option.map_eq_some_iff.1 h
      exact nomatch congrArg (fun p => p.2.2) hx
  | member a' now' b    =>
      obtain rfl : b = .evict := congrArg (fun p => p.2.2) (Option.some.inj h)
      exact nomatch hev
  | session _ _         => exact nomatch h
  | arrive _            => exact nomatch h

variable [StateMachine σ]

/-- The reply that an event sends on its way. -/
def sent? (n : Net σ) : Event → Option Flight
  | .serve j errand now =>
      ((n.sessions j).awaited? errand).map fun (m, q) =>
        ⟨j, errand, m, q, ((n.member j m).answer now q).1⟩
  | _                   => none

/-- The whole after an event. -/
def step (n : Net σ) (ev : Event) : Net σ where
  sessions j := (n.sessions j).run (n.input? j ev).toList
  members    := match n.action? ev with
    | some (a, now, action) => Function.update n.members a ((n.members a).perform now action).2
    | none                  => n.members
  flights    := n.flights ++ (n.sent? ev).toList

/-- The whole after some events. -/
def run (n : Net σ) : List Event → Net σ
  | []         => n
  | ev :: rest => (n.step ev).run rest

/-- What some events are for a session, one after the other. -/
def inputs (n : Net σ) (j : Nat) : List Event → List Session.Input
  | []         => []
  | ev :: rest => (n.input? j ev).toList ++ (n.step ev).inputs j rest

/-- What some events make a given member do, one after the other. -/
def acts (n : Net σ) (a : Address) : List Event → List (Nat × Replica.Action)
  | []         => []
  | ev :: rest => (n.act? a ev).toList ++ (n.step ev).acts a rest

/-- A run goes on where another one stopped. -/
theorem run_append (n : Net σ) (xs ys : List Event) : n.run (xs ++ ys) = (n.run xs).run ys := by
  induction xs generalizing n with
  | nil          => rfl
  | cons x xs ih => exact ih _

theorem inputs_append (n : Net σ) (j : Nat) (xs ys : List Event) :
    n.inputs j (xs ++ ys) = n.inputs j xs ++ (n.run xs).inputs j ys := by
  induction xs generalizing n with
  | nil          => rfl
  | cons x xs ih =>
      show (n.input? j x).toList ++ _ = ((n.input? j x).toList ++ _) ++ _
      rw [List.append_assoc]
      exact congrArg _ (ih _)

/-- One more event: what it is for a session comes last. -/
theorem inputs_concat (n : Net σ) (j : Nat) (events : List Event) (ev : Event) :
    n.inputs j (events ++ [ev]) = n.inputs j events ++ ((n.run events).input? j ev).toList := by
  rw [inputs_append]
  show _ ++ (((n.run events).input? j ev).toList ++ []) = _
  rw [List.append_nil]

/-- **A run of the whole is a run of each session.** -/
theorem run_sessions (n : Net σ) (j : Nat) (events : List Event) :
    (n.run events).sessions j = (n.sessions j).run (n.inputs j events) := by
  induction events generalizing n with
  | nil           => rfl
  | cons ev events ih =>
      show ((n.step ev).run events).sessions j = _
      rw [ih]
      exact (Session.run_append ..).symm

/-- One more event: what a session hears with it comes last. -/
theorem heard_concat (n : Net σ) (events : List Event) (ev : Event) :
    (fun j => (n.sessions j).exchanges (n.inputs j (events ++ [ev]))) = fun j =>
      (n.sessions j).exchanges (n.inputs j events) ++
        ((n.run events).sessions j).exchanges ((n.run events).input? j ev).toList := by
  funext j
  rw [inputs_concat, Session.exchanges_append, ← run_sessions]

/-! ## Where replies come from -/

variable {n : Net σ} {ev : Event}

/-- A reply that is sent is a member's, at this very event. -/
theorem action?_of_sent {f : Flight} (h : n.sent? ev = some f) :
    ∃ now, n.action? ev =
        some ((n.sessions f.session).courier.pool.address f.member, now, .request f.request) ∧
      f.reply = ((n.member f.session f.member).answer now f.request).1 := by
  cases ev with
  | serve j errand now =>
      obtain ⟨⟨m, q⟩, hawaited, rfl⟩ := Option.map_eq_some_iff.1 h
      refine ⟨now, ?_, rfl⟩
      rw [action?, hawaited]
      rfl
  | session _ _        => exact nomatch h
  | arrive _           => exact nomatch h
  | member _ _ _       => exact nomatch h

/-- The member that an event makes do something. -/
theorem members_step_self {a : Address} {now : Nat} {action : Replica.Action}
    (h : n.action? ev = some (a, now, action)) :
    (n.step ev).members a = ((n.members a).perform now action).2 := by
  rw [step, h]
  exact Function.update_self ..

/-- A member is as it was, or has done what the event makes it do. -/
theorem members_step (n : Net σ) (ev : Event) (a : Address) :
    (n.step ev).members a = n.members a ∨
      ∃ now action, n.action? ev = some (a, now, action) ∧
        (n.step ev).members a = ((n.members a).perform now action).2 := by
  cases h : n.action? ev with
  | none   =>
      refine Or.inl ?_
      rw [step, h]
  | some p =>
      obtain ⟨b, now, action⟩ := p
      by_cases hab : a = b
      · subst hab
        exact Or.inr ⟨now, action, rfl, members_step_self h⟩
      · refine Or.inl ?_
        rw [step, h]
        exact Function.update_of_ne hab ..

/-! ## Runs of members -/

omit [StateMachine σ] in
theorem act?_eq_some_iff {a : Address} {now : Nat} {action : Replica.Action} :
    n.act? a ev = some (now, action) ↔ n.action? ev = some (a, now, action) := by
  rw [act?]
  constructor
  · intro h
    obtain ⟨⟨b, x⟩, hb, hx⟩ := Option.bind_eq_some_iff.1 h
    dsimp only at hx
    split at hx
    · rename_i hba
      obtain ⟨rfl, rfl⟩ := Prod.mk.inj (Option.some.inj hx)
      rw [hb, hba]
    · exact nomatch hx
  · intro h
    rw [h]
    exact if_pos rfl

theorem members_act (n : Net σ) (a : Address) (ev : Event) :
    (n.step ev).members a = (n.members a).run (n.act? a ev).toList := by
  cases h : n.act? a ev with
  | some x =>
      obtain ⟨now, action⟩ := x
      exact members_step_self (act?_eq_some_iff.1 h)
  | none   =>
      rcases n.members_step ev a with hsame | ⟨now, action, haction, _⟩
      · exact hsame
      · rw [act?_eq_some_iff.2 haction] at h
        exact nomatch h

/-- **A run of the whole is a run of each member.** -/
theorem members_run (n : Net σ) (a : Address) (events : List Event) :
    (n.run events).members a = (n.members a).run (n.acts a events) := by
  induction events generalizing n with
  | nil               => rfl
  | cons ev events ih =>
      show ((n.step ev).run events).members a = _
      rw [ih, members_act]
      exact (Replica.run_append ..).symm

theorem acts_append (n : Net σ) (a : Address) (xs ys : List Event) :
    n.acts a (xs ++ ys) = n.acts a xs ++ (n.run xs).acts a ys := by
  induction xs generalizing n with
  | nil          => rfl
  | cons x xs ih =>
      show (n.act? a x).toList ++ _ = ((n.act? a x).toList ++ _) ++ _
      rw [List.append_assoc]
      exact congrArg _ (ih _)

/-! ## What replies are worth -/

/-- Of every reply that is on its way, and of every reply that was heard, something is true: of the
    session and the place of its member, of what was asked and of the reply. -/
structure Attested (n : Net σ) (heard : Nat → List Exchange)
    (P : Nat → Nat → Request → Reply → Prop) : Prop where
  flights : ∀ f ∈ n.flights, P f.session f.member f.request f.reply
  heard   : ∀ j, ∀ x ∈ heard j, ∀ reply, x.outcome = .ok reply → P j x.member x.request reply

/-- Replies come from nowhere: what stays true through an event, and is true of the reply that the
    event sends, is true of all replies afterwards. -/
theorem Attested.step {heard : Nat → List Exchange} {P Q : Nat → Nat → Request → Reply → Prop}
    (h : n.Attested heard P)
    (hstays : ∀ {j m q reply}, P j m q reply → Q j m q reply)
    (hnormal : ∀ {j m q reply}, Q j m q reply → Q j m q reply.normalized)
    (hsent : ∀ f, n.sent? ev = some f → Q f.session f.member f.request f.reply) :
    (n.step ev).Attested
      (fun j => heard j ++ (n.sessions j).exchanges (n.input? j ev).toList) Q := by
  refine ⟨?flights, ?heard⟩
  case flights =>
    intro f hf
    rcases List.mem_append.1 hf with hf | hf
    · exact hstays (h.flights f hf)
    · exact hsent f (Option.mem_toList.1 hf)
  case heard =>
    intro j x hx reply hreply
    rcases List.mem_append.1 hx with hx | hx
    · exact hstays (h.heard j x hx reply hreply)
    · cases hinput : n.input? j ev with
      | none   =>
          rw [hinput] at hx
          exact nomatch hx
      | some y =>
          rw [hinput] at hx
          have hx' : x ∈ ((n.sessions j).exchange? y).toList := by simpa [Session.exchanges] using hx
          obtain ⟨i, m, q, outcome⟩ := x
          subst hreply
          -- what is heard now was on its way until now
          obtain ⟨f, hf, rfl, rfl, rfl, rfl⟩ := flight_of_heard hinput (Option.mem_toList.1 hx')
          exact hnormal (hstays (h.flights f hf))

/-- Every member stands by what is on its way from it, and by what was heard of it. -/
structure Vouched (n : Net σ) (heard : Nat → List Exchange) : Prop where
  distinct : ∀ a, (n.members a).cache.Distinct
  flights  : ∀ f ∈ n.flights, (n.member f.session f.member).StandsBy f.request f.reply
  heard    : ∀ j, ∀ x ∈ heard j, ∀ reply, x.outcome = .ok reply →
    (n.member j x.member).StandsBy x.request reply

/-- **Members stand by their word**: an event that sweeps no cache and leaves the lists of members
    as they are keeps everything vouched for. -/
theorem vouched_step {heard : Nat → List Exchange} (h : n.Vouched heard) (hev : ev.sweeps = false)
    (hmembers : ∀ j, ((n.step ev).sessions j).courier.pool.members =
      (n.sessions j).courier.pool.members) :
    (n.step ev).Vouched fun j =>
      heard j ++ (n.sessions j).exchanges (n.input? j ev).toList := by
  have haddress : ∀ j m, (n.step ev).member j m =
      (n.step ev).members ((n.sessions j).courier.pool.address m) := by
    intro j m
    rw [member, Pool.address_of_members (hmembers j)]
  -- who stood by a reply still does
  have hstands : ∀ {j m q reply}, (n.member j m).StandsBy q reply →
      ((n.step ev).member j m).StandsBy q reply := by
    intro j m q reply hq
    rw [haddress]
    rcases n.members_step ev ((n.sessions j).courier.pool.address m) with
      hsame | ⟨now, action, haction, hdone⟩
    · rw [hsame]
      exact hq
    · rw [hdone]
      exact hq.perform (h.distinct _) now (action?_ne_evict hev haction)
  have hattested : (n.step ev).Attested
      (fun j => heard j ++ (n.sessions j).exchanges (n.input? j ev).toList)
      fun j m => ((n.step ev).member j m).StandsBy := by
    refine Attested.step ⟨h.flights, h.heard⟩ hstands (fun hq => hq.normalized) fun f hf => ?_
    -- the one reply that is new is that of the member that acts
    obtain ⟨now, haction, hreply⟩ := action?_of_sent hf
    rw [haddress, members_step_self haction, hreply]
    exact (n.member f.session f.member).standsBy_answer now f.request
  refine ⟨fun a => ?_, hattested.flights, hattested.heard⟩
  rcases n.members_step ev a with hsame | ⟨now, action, _, hdone⟩
  · rw [hsame]
    exact h.distinct a
  · rw [hdone]
    exact (Replica.distinct_perform (h.distinct a) now action).1

/-! ## Runs from the beginning -/

/-- All sessions have just been opened, and all members have just been set up.  What a member does
    before any session does something is a matter of how a run begins. -/
structure Initial (n : Net σ) : Prop where
  sessions : ∀ j, (n.sessions j).Opened
  members  : ∀ a, ∃ leader term machine retention,
    n.members a = .start a leader term machine retention
  flights  : n.flights = []

variable {n₀ : Net σ}

omit [StateMachine σ] in
theorem Initial.fresh (h₀ : n₀.Initial) (j : Nat) : (n₀.sessions j).Fresh := (h₀.sessions j).fresh

/-- Every run keeps every session's list of members. -/
theorem run_members (h₀ : n₀.Initial) (events : List Event) (j : Nat) :
    ((n₀.run events).sessions j).courier.pool.members =
      (n₀.sessions j).courier.pool.members := by
  rw [run_sessions]
  exact (Session.run_traced (h₀.fresh j) _).2.2.1

/-- A session finds a member at the place where it was at first. -/
theorem member_run (h₀ : n₀.Initial) (events : List Event) (j m : Nat) :
    (n₀.run events).member j m =
      (n₀.run events).members ((n₀.sessions j).courier.pool.address m) := by
  rw [member, Pool.address_of_members (run_members h₀ events j)]

/-- **Members stand by their word in every run** in which no cache is swept. -/
theorem vouched_run (h₀ : n₀.Initial) {events : List Event}
    (hevents : ∀ ev ∈ events, ev.sweeps = false) :
    (n₀.run events).Vouched fun j => (n₀.sessions j).exchanges (n₀.inputs j events) := by
  induction events using List.reverseRecOn with
  | nil                         =>
      refine ⟨fun a => ?_, fun f hf => ?_, fun _ _ hx => nomatch hx⟩
      · obtain ⟨leader, term, machine, retention, hstart⟩ := h₀.members a
        show (n₀.members a).cache.Distinct
        rw [hstart]
        exact ResponseCache.distinct_empty retention
      · have hf' : f ∈ n₀.flights := hf
        rw [h₀.flights] at hf'
        exact nomatch hf'
  | append_singleton events ev ih =>
      have hlast : n₀.run (events ++ [ev]) = (n₀.run events).step ev := run_append ..
      have hbefore := ih fun e he => hevents e (List.mem_append_left _ he)
      have hev : ev.sweeps = false := hevents ev (List.mem_append_right _ (List.mem_singleton.2 rfl))
      rw [hlast, heard_concat]
      refine vouched_step hbefore hev fun j => ?_
      rw [← hlast, run_members h₀, run_members h₀]

end Net

end WitnessReplication

import Mathlib.Data.List.Nodup
import WitnessReplication.Client.Session
import WitnessReplication.Proofs.CourierSteps

/-!
# Session runs — what happens to a session, in any order

    A session is driven from outside: a user begins calls and closes the session, and whatever a
    call or an errand waits for is told to it.  A run is any list of such inputs.  Nothing is
    assumed of their order or of what the members reply, so every interleaving of any number of
    calls, at every point at which one of them waits, is a run; so is every behaviour of the
    members, and every loss on the way.

    What the members said in a run is read off the run: an exchange has come to its end where an
    errand that waits for a reply is told one.

* **`Session.react`** and **`Session.run`** — one input; a list of them.
* **`Session.exchanges`** — the exchanges of a run, in order.
* **`errand_reports`** — what an errand comes to is what an exchange of this very moment says.
-/

namespace WitnessReplication

namespace Progress

variable {α β ι ρ σ : Type} {p : Progress α ι ρ} {embed : α → β}
  {deliver : β → ι → ρ → Progress β ι σ}

/-- A step without a result is taken in as it is. -/
theorem feed_of_nil (h : p.results = []) :
    p.feed embed deliver = { state := embed p.state, demands := p.demands } := by
  rw [feed, h]
  rfl

/-- A step with one result is taken in, and then the result is handed on. -/
theorem feed_of_singleton {who : ι} {result : ρ} (h : p.results = [(who, result)]) :
    (p.feed embed deliver).state = (deliver (embed p.state) who result).state ∧
      (p.feed embed deliver).results = (deliver (embed p.state) who result).results := by
  rw [feed, h]
  exact ⟨rfl, List.nil_append _⟩

/-- What is waited for comes first of the step, and then of the handing on. -/
theorem feed_demands_of_singleton {who : ι} {result : ρ} (h : p.results = [(who, result)]) :
    (p.feed embed deliver).demands =
      p.demands ++ (deliver (embed p.state) who result).demands := by
  rw [feed, h]
  rfl

end Progress

/-- An exchange that has come to its end: the errand that made it, with which member, what was
    asked and what came back. -/
structure Exchange where
  errand  : Nat
  member  : Nat
  request : Request
  outcome : Except TransportError Reply

namespace Session

/-- Something that happens to a session. -/
inductive Input where
  /-- A user begins a call. -/
  | invoke (data : Bytes) (keys : List Key) (route : Route) (seq : Option SeqNo)
  /-- A user closes the session. -/
  | close
  /-- A call or an errand is told something. -/
  | signal (id : Nat) (signal : Signal)

deriving instance DecidableEq for Signal, Input, Outcome

/-- What a session does when something happens to it. -/
def react (s : Session) : Input → Step
  | .invoke data keys route seq => (s.invoke data keys route seq).2
  | .close                      => { state := s.close.2 }
  | .signal id signal           => s.step id signal

/-- The session after some inputs. -/
def run (s : Session) : List Input → Session
  | []        => s
  | x :: rest => (s.react x).state.run rest

/-- What an errand waits for a member to reply to: the member's place, and the request. -/
def awaited? (s : Session) (id : Nat) : Option (Nat × Request) :=
  match s.call? id, s.courier.find? id with
  | none, some ⟨_, aim, .exchanging m⟩ => aim.request?.map fun request => (m, request)
  | _, _                               => none

/-- The exchange that comes to its end with an input: an errand that waits for a reply is told
    what came back. -/
def exchange? (s : Session) : Input → Option Exchange
  | .signal id (.answered outcome) =>
      (s.awaited? id).map fun (m, request) => ⟨id, m, request, outcome⟩
  | _                              => none

/-- The exchanges that come to their end in a run, in order. -/
def exchanges (s : Session) : List Input → List Exchange
  | []        => []
  | x :: rest => (s.exchange? x).toList ++ (s.react x).state.exchanges rest

/-- A run goes on where another one stopped. -/
theorem run_append (s : Session) (xs ys : List Input) : s.run (xs ++ ys) = (s.run xs).run ys := by
  induction xs generalizing s with
  | nil          => rfl
  | cons x xs ih => exact ih _

/-- The exchanges of a run, and then those of the run that goes on from there. -/
theorem exchanges_append (s : Session) (xs ys : List Input) :
    s.exchanges (xs ++ ys) = s.exchanges xs ++ (s.run xs).exchanges ys := by
  induction xs generalizing s with
  | nil          => rfl
  | cons x xs ih =>
      show (s.exchange? x).toList ++ _ = ((s.exchange? x).toList ++ _) ++ _
      rw [List.append_assoc]
      exact congrArg _ (ih _)

/-- One more input: the exchange that comes to its end with it is the last one. -/
theorem exchanges_concat (s : Session) (xs : List Input) (x : Input) :
    s.exchanges (xs ++ [x]) = s.exchanges xs ++ ((s.run xs).exchange? x).toList := by
  rw [exchanges_append]
  show _ ++ (((s.run xs).exchange? x).toList ++ []) = _
  rw [List.append_nil]

/-! ## The numbers of calls -/

/-- The courier is in order, and every call is for a command and has a number of its own that was
    given. -/
structure InOrder (s : Session) : Prop where
  courier  : s.courier.InOrder
  distinct : (s.calls.map (·.id)).Nodup
  numbered : ∀ c ∈ s.calls, c.id < s.courier.fresh
  commands : ∀ c ∈ s.calls, c.entry.kind = .command

/-- Two calls of a session in order that have the same number are the same. -/
theorem InOrder.eq_of_id {s : Session} (h : s.InOrder) {c d : Call} (hc : c ∈ s.calls)
    (hd : d ∈ s.calls) (hid : c.id = d.id) : c = d :=
  List.inj_on_of_nodup_map h.distinct hc hd hid

/-! ## What errands come to -/

/-- What an errand's outcome says of the exchange that has just come to its end: if the outcome is
    good, the exchange is the errand's own, and the member took the request. -/
def Reports (s : Session) (x : Input) (i : Nat) : Errand.Outcome → Prop
  | .led answer  =>
      ∃ e ∈ s.courier.errands, e.id = i ∧ ∃ request, e.aim.purpose = .lead request ∧
        ∀ reply, answer = .ok reply → reply.accepted = true ∧
          ∃ m, s.exchange? x = some ⟨i, m, request, .ok reply⟩
  | .recorded ok =>
      ∃ e ∈ s.courier.errands, e.id = i ∧ ∃ w entry, e.aim.purpose = .record w entry ∧
        (ok = true → ∃ term reply, reply.accepted = true ∧
          s.exchange? x = some ⟨i, w, .record entry term, .ok reply⟩)
  | _            => True

/-- An errand that hears from a member ends its exchange with it. -/
theorem exchange?_of_hears {s : Session} {i : Nat} {e : Errand} {sig : Signal} {m : Nat}
    {reply : Reply} {request : Request} (hcall : s.call? i = none)
    (he : s.courier.find? i = some e) (hh : e.Hears sig m reply)
    (hr : e.aim.request? = some request) :
    s.exchange? (.signal i sig) = some ⟨i, m, request, .ok reply⟩ := by
  obtain ⟨id, aim, stage⟩ := e
  obtain ⟨rfl, rfl⟩ := hh
  have hr' : aim.request? = some request := hr
  simp only [exchange?, awaited?, hcall, he, hr', Option.map_some]

/-- **What an errand comes to**: a step of an errand leads to no outcome, or to one that says what
    has just been exchanged. -/
theorem errand_reports {s : Session} (h : s.InOrder) {i : Nat} (hcall : s.call? i = none)
    (sig : Signal) :
    s.courier.Follows (s.courier.step i sig).state ∧ (s.courier.step i sig).state.InOrder ∧
      ((s.courier.step i sig).results = [] ∨
        ∃ outcome, (s.courier.step i sig).results = [(i, outcome)] ∧
          s.Reports (.signal i sig) i outcome) := by
  rcases Courier.step_advances h.courier.placed i sig with ⟨_, hidle⟩ | ⟨e, hf, rfl, hadv⟩
  · rw [hidle]
    exact ⟨.refl _, h.courier, Or.inl rfl⟩
  · have hmem : e ∈ s.courier.errands := List.mem_of_find?_eq_some hf
    refine ⟨hadv.follows hmem, hadv.inOrder hmem h.courier, ?_⟩
    cases hadv.turns with
    | rests _ results              => exact Or.inl results
    | moves _ _ _ _ _ results      => exact Or.inl results
    | ends outcome warranted _ results =>
        refine Or.inr ⟨outcome, results, ?_⟩
        cases outcome with
        | led answer  =>
            obtain ⟨⟨request, hp⟩, hok⟩ := warranted
            refine ⟨e, hmem, rfl, request, hp, fun reply hr => ?_⟩
            obtain ⟨hacc, m, hh⟩ := hok reply hr
            refine ⟨hacc, m, exchange?_of_hears hcall hf hh ?_⟩
            obtain ⟨id, aim, stage⟩ := e
            cases aim with
            | lead q tries => exact congrArg some (Errand.Purpose.lead.inj hp)
            | direct _ _   => exact nomatch hp
            | record _ _ _ => exact nomatch hp
            | survey _ _   => exact nomatch hp
            | close _      => exact nomatch hp
        | recorded ok =>
            obtain ⟨⟨w, entry, hp⟩, hok⟩ := warranted
            refine ⟨e, hmem, rfl, w, entry, hp, fun hr => ?_⟩
            obtain ⟨m, reply, hacc, hh⟩ := hok hr
            -- a record is at the slot of its witness, so the reply is the witness's
            have hm : m = w :=
              ((h.courier.placed e hmem).slot m (by rw [hh.1]; rfl)).2 w (by rw [hp]; rfl)
            subst hm
            obtain ⟨id, aim, stage⟩ := e
            cases aim with
            | record w' entry' term =>
                obtain ⟨rfl, rfl⟩ := Errand.Purpose.record.inj hp
                exact ⟨term, reply, hacc, exchange?_of_hears hcall hf hh rfl⟩
            | direct _ _   => exact nomatch hp
            | lead _ _     => exact nomatch hp
            | survey _ _   => exact nomatch hp
            | close _      => exact nomatch hp
        | replied _   => trivial
        | surveyed _  => trivial
        | closed      => trivial

end Session

end WitnessReplication

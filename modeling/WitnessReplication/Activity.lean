import WitnessReplication.Message
import WitnessReplication.Transport.Error

/-!
# Activities — work that goes on in steps between which it waits

    Clients and forwarders do many things at once.  Each of them is an activity with a number: it
    runs until it has to wait for something, and says what it waits for; its surroundings tell it
    when it may go on.  What happens between is one step, and whatever order the surroundings
    choose, a step sees the state that the steps before it left.

* **`Demand`** — what an activity waits for, if it is not another activity.
* **`Signal`** — what an activity is told.
* **`Progress`** — what a step comes to: a new state, demands, and results of activities that ended.
* **`Progress.feed`** — a step of a part, taken into the whole.
-/

namespace WitnessReplication

/-- What an activity named `who` waits for. -/
inductive Demand (ι : Type) where
  /-- A connection to a member. -/
  | connect (who : ι) (target : Address)
  /-- A member's reply to a request, over the connection to it. -/
  | exchange (who : ι) (target : Address) (request : Request)
  /-- Some time, in nanoseconds. -/
  | pause (who : ι) (span : Nat)
  /-- Its own end, whatever it does, after some time in nanoseconds. -/
  | deadline (who : ι) (span : Nat)

/-- What an activity is told. -/
inductive Signal where
  /-- It need not wait for another activity any more. -/
  | proceed
  | connected (outcome : Except TransportError Unit)
  | answered (outcome : Except TransportError Reply)
  /-- Its pause is over. -/
  | rested
  /-- Its time is up. -/
  | expired

/-- What a step comes to: the state after it, what is waited for, and what ended how. -/
structure Progress (α ι ρ : Type) where
  state   : α
  demands : List (Demand ι) := []
  results : List (ι × ρ) := []

namespace Progress

variable {α β ι ρ σ : Type}

/-- Takes a step into a larger state, and hands each of its results on there, in order. -/
def feed (p : Progress α ι ρ) (embed : α → β) (deliver : β → ι → ρ → Progress β ι σ) :
    Progress β ι σ :=
  p.results.foldl
    (fun sofar (who, result) =>
      let next := deliver sofar.state who result
      { state   := next.state
        demands := sofar.demands ++ next.demands
        results := sofar.results ++ next.results })
    { state := embed p.state, demands := p.demands }

end Progress

namespace Demand

variable {ι κ : Type}

/-- The demand under other names of activities. -/
def rename (f : ι → κ) : Demand ι → Demand κ
  | .connect who target          => .connect (f who) target
  | .exchange who target request => .exchange (f who) target request
  | .pause who span              => .pause (f who) span
  | .deadline who span           => .deadline (f who) span

end Demand

end WitnessReplication

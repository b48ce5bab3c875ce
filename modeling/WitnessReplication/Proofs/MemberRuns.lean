import WitnessReplication.Proofs.Durability

/-!
# Member runs — the replicas of a cluster side by side

    Members share nothing.  Whatever one of them does leaves the others as they were, and only the
    word that somebody else leads now may come to all of them at once.  So a run of the whole is a
    run of each member, on its own share of what happens, and whatever is known of the runs of one
    replica is known of every member.

* **`Members.step`** and **`Members.run`** — one event; a list of them.
* **`shares`** and **`run_member`** — what some events are for a member, and that its run is its own.
* **`Started`** and **`Led`** — how a cluster begins.
-/

namespace WitnessReplication

/-- The members of a cluster, by their addresses. -/
abbrev Members (σ : Type) := Address → Replica σ

namespace Members

variable {σ : Type}

/-- Something that happens in a cluster. -/
inductive Event where
  /-- Something is done to one member. -/
  | act (a : Address) (now : Nat) (action : Replica.Action)
  /-- All members take in who leads now. -/
  | elect (leader : Option Address) (term : Term)
  deriving DecidableEq

/-- What an event is for a member. -/
def share? (a : Address) : Event → Option (Nat × Replica.Action)
  | .act b now action  => if b = a then some (now, action) else none
  | .elect leader term => some (0, .lead leader term)

/-- What some events are for a member. -/
def shares (a : Address) (events : List Event) : List (Nat × Replica.Action) :=
  events.filterMap (share? a)

theorem shares_append (a : Address) (xs ys : List Event) :
    shares a (xs ++ ys) = shares a xs ++ shares a ys := List.filterMap_append

theorem shares_concat (a : Address) (events : List Event) (ev : Event) :
    shares a (events ++ [ev]) = shares a events ++ (share? a ev).toList := by
  rw [shares_append]
  cases h : share? a ev <;> simp [shares, h]

/-- What is done to a member is done to it alone, or it hears of a leader as all do. -/
theorem act_or_elect_of_mem_shares {a : Address} {events : List Event} {now : Nat}
    {action : Replica.Action} (h : (now, action) ∈ shares a events) :
    Event.act a now action ∈ events ∨
      ∃ leader term, Event.elect leader term ∈ events ∧ action = .lead leader term := by
  obtain ⟨ev, hev, hshare⟩ := List.mem_filterMap.1 h
  cases ev with
  | act b now' action' =>
      left
      rw [share?] at hshare
      split at hshare
      · rename_i hb
        obtain ⟨rfl, rfl⟩ := Prod.mk.inj (Option.some.inj hshare)
        rw [← hb]
        exact hev
      · exact nomatch hshare
  | elect leader term  =>
      obtain ⟨-, rfl⟩ := Prod.mk.inj (Option.some.inj hshare)
      exact Or.inr ⟨leader, term, hev, rfl⟩

section Running

variable [StateMachine σ]

/-- The members after an event. -/
def step (m : Members σ) (ev : Event) : Members σ := fun a => (m a).run (share? a ev).toList

/-- The members after some events. -/
def run (m : Members σ) : List Event → Members σ
  | []         => m
  | ev :: rest => (step m ev).run rest

/-- **A run of the whole is a run of each member.** -/
theorem run_member (m : Members σ) (events : List Event) (a : Address) :
    m.run events a = (m a).run (shares a events) := by
  induction events generalizing m with
  | nil               => rfl
  | cons ev events ih =>
      show (step m ev).run events a = _
      rw [ih]
      show ((m a).run (share? a ev).toList).run _ = _
      rw [← Replica.run_append]
      cases h : share? a ev <;> simp [shares, h]

/-! ## One more action -/

variable {a b : Address} {now : Nat} {action : Replica.Action}

omit [StateMachine σ] in
theorem shares_act (events : List Event) :
    shares a (events ++ [.act a now action]) = shares a events ++ [(now, action)] := by
  rw [shares_concat, share?, if_pos rfl]
  rfl

omit [StateMachine σ] in
theorem shares_act_of_ne (h : b ≠ a) (events : List Event) :
    shares a (events ++ [.act b now action]) = shares a events := by
  rw [shares_concat, share?, if_neg h]
  exact List.append_nil _

theorem run_act (m : Members σ) (events : List Event) :
    m.run (events ++ [.act a now action]) a = ((m.run events a).perform now action).2 := by
  rw [run_member, shares_act, Replica.run_append, ← run_member]
  rfl

/-- Whoever does not act stays as it is. -/
theorem run_act_of_ne (h : b ≠ a) (m : Members σ) (events : List Event) :
    m.run (events ++ [.act b now action]) a = m.run events a := by
  rw [run_member, shares_act_of_ne h, ← run_member]

end Running

/-! ## Where members begin -/

/-- Every member has done nothing yet, and goes by its own address. -/
def Started (m : Members σ) : Prop :=
  ∀ a, ∃ leader term machine retention, m a = .start a leader term machine retention

/-- Every member has done nothing yet, and one and the same leader is known to all. -/
def Led (L : Address) (term : Term) (m : Members σ) : Prop :=
  ∀ a, ∃ machine retention, m a = .start a (some L) term machine retention

end Members

end WitnessReplication

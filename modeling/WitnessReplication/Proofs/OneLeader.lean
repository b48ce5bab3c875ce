import WitnessReplication.Proofs.FollowerRuns
import WitnessReplication.Proofs.MemberRuns

/-!
# One leader — runs during which the same member leads

    One member leads from the beginning, under one term, and nobody hears of another.  Then every
    other member follows throughout, and the two halves of the protocol meet in messages only: an
    entry that a client asks both to execute and to record, and names that the leader has synced and
    the followers are told.

    In such a run a name stands for one entry, since whoever issues a command issues it again as it
    was.

* **`Calm`** — what may happen under one leader.
* **`entries`** and **`UniqueNames`** — what is asked for, and that names tell it apart.
* **`follows_run`** — who follows goes on to follow.
* **`recorded_asked`**, **`executed_asked`** — what is held and what is executed was asked for.
-/

namespace WitnessReplication

namespace Members

variable {σ : Type}

/-- An event under one leader: nobody hears of another, and no follower's witness is made to hand
    everything over. -/
def Calm (L : Address) : Event → Prop
  | .act a _ action => action.elects = false ∧ (action.recovers = true → a = L)
  | .elect _ _      => False

instance (L : Address) : (ev : Event) → Decidable (Calm L ev)
  | .act a _ action =>
      inferInstanceAs (Decidable (action.elects = false ∧ (action.recovers = true → a = L)))
  | .elect _ _      => inferInstanceAs (Decidable False)

/-- The entries that an event asks to execute or to record. -/
def Event.entries : Event → List LogEntry
  | .act _ _ action => action.entry?.toList ++ action.recorded?.toList
  | .elect _ _      => []

/-- The entries that some events ask to execute or to record. -/
def entries (events : List Event) : List LogEntry := events.flatMap Event.entries

/-- Entries of one name are one entry. -/
def UniqueNames (events : List Event) : Prop :=
  ∀ e ∈ entries events, ∀ f ∈ entries events, e.id = f.id → e = f

instance (events : List Event) : Decidable (UniqueNames events) :=
  inferInstanceAs (Decidable (∀ e ∈ _, ∀ f ∈ _, _))

theorem entries_concat (events : List Event) (ev : Event) :
    entries (events ++ [ev]) = entries events ++ ev.entries := by
  rw [entries, List.flatMap_append, List.flatMap_singleton]
  rfl

theorem UniqueNames.before {events : List Event} {ev : Event} (h : UniqueNames (events ++ [ev])) :
    UniqueNames events := by
  intro e he f hf
  rw [UniqueNames, entries_concat] at h
  exact h e (List.mem_append_left _ he) f (List.mem_append_left _ hf)

/-! ## What a member is asked for -/

/-- Under one leader a member hears of nobody else. -/
theorem act_of_mem_shares {L a : Address} {events : List Event} (h : ∀ ev ∈ events, Calm L ev)
    {now : Nat} {action : Replica.Action} (hx : (now, action) ∈ shares a events) :
    Event.act a now action ∈ events ∧ action.elects = false ∧
      (action.recovers = true → a = L) := by
  rcases act_or_elect_of_mem_shares hx with hev | ⟨leader, term, hev, -⟩
  · exact ⟨hev, h _ hev⟩
  · exact (h _ hev).elim

theorem mem_entries {a : Address} {events : List Event} {now : Nat} {action : Replica.Action}
    {e : LogEntry} (hx : Event.act a now action ∈ events)
    (he : action.entry? = some e ∨ action.recorded? = some e) : e ∈ entries events := by
  refine List.mem_flatMap.2 ⟨_, hx, ?_⟩
  rcases he with he | he
  · exact List.mem_append_left _ (Option.mem_toList.2 he)
  · exact List.mem_append_right _ (Option.mem_toList.2 he)

/-! ## Who leads, and who follows -/

variable [StateMachine σ] {L : Address} {term : Term} {m₀ : Members σ}

omit [StateMachine σ] in
theorem Led.isLeader (h₀ : m₀.Led L term) (a : Address) : (m₀ a).isLeader = decide (L = a) := by
  obtain ⟨machine, retention, hstart⟩ := h₀ a
  rw [hstart]
  simp [Replica.isLeader, Replica.start]

/-- What a member is before anything has happened. -/
structure Blank (r : Replica σ) : Prop where
  distinct : r.cache.Distinct
  unsynced : r.unsynced = []
  pending  : r.pending = []
  recorded : r.witness.recorded = []
  early    : r.witness.early = []

omit [StateMachine σ] in
theorem Led.blank (h₀ : m₀.Led L term) (a : Address) : Blank (m₀ a) := by
  obtain ⟨machine, retention, hstart⟩ := h₀ a
  rw [hstart]
  exact ⟨ResponseCache.distinct_empty retention, rfl, rfl, rfl, rfl⟩

omit [StateMachine σ] in
theorem Led.follows (h₀ : m₀.Led L term) {a : Address} (ha : a ≠ L) : (m₀ a).Follows where
  led  := by
    rw [h₀.isLeader]
    exact decide_eq_false fun h => ha h.symm
  idle := (h₀.blank a).unsynced

variable {events : List Event}

theorem follows_run (h₀ : m₀.Led L term) (h : ∀ ev ∈ events, Calm L ev) {a : Address}
    (ha : a ≠ L) : (m₀.run events a).Follows := by
  rw [run_member]
  exact (h₀.follows ha).run fun x hx => (act_of_mem_shares h hx).2.1

theorem recorded_asked (h₀ : m₀.Led L term) (h : ∀ ev ∈ events, Calm L ev) {F : Address}
    (hF : F ≠ L) {u : LogEntry} (hu : u ∈ (m₀.run events F).witness.recorded) :
    u ∈ entries events := by
  rw [run_member] at hu
  have hled : ∀ x ∈ shares F events, x.2.elects = false :=
    fun x hx => (act_of_mem_shares h hx).2.1
  rcases Replica.recorded_run (h₀.follows hF) hled hu with hu | ⟨x, hx, hu⟩
  · rw [(h₀.blank F).recorded] at hu
    exact nomatch hu
  · exact mem_entries (act_of_mem_shares h hx).1 (Or.inr hu)

theorem executed_asked (h : ∀ ev ∈ events, Calm L ev) {a : Address} {x : Nat × Replica.Action}
    (hx : x ∈ shares a events) {e : LogEntry} (he : Replica.Action.entry? x.2 = some e) :
    e ∈ entries events :=
  mem_entries (act_of_mem_shares h hx).1 (Or.inl he)

end Members

end WitnessReplication

import WitnessReplication.Proofs.OneLeader

/-!
# Witness drain — which entries a witness goes on to hold

    Once the leader has nothing unsynced, has handed out all names, and a follower has been told them
    all, nothing more will ever be told.  An entry that the follower holds then is held until the
    witness is made to hand everything over, and its keys are blocked until then.

    Whether it is held is a matter of counting.  To record an entry anew and to be told its name
    cancel each other, in whatever order they come.  A name is told once if its command was answered
    as unsynced, since then the command waited and was synced with the others.  But if the leader has
    executed it for a sync, or as the command whose conflict made it sync, the command never waited,
    and its name is never told.

* **`Quiet`** — all is synced and told.
* **`not_held_iff`** — the counting, for any entry.
* **`drained_iff`** — when an executed command is gone from a witness.
* **`executed_entry_held`** — three ways in which one is not.
-/

namespace WitnessReplication

namespace Members

variable {σ : Type} [StateMachine σ]

/-- A run under one leader, without sweeps at the leader, after which all is synced and handed out,
    and a follower was told just what was handed out, with room for all of it. -/
structure Quiet (m₀ : Members σ) (L F : Address) (events : List Event) : Prop where
  calm    : ∀ ev ∈ events, Calm L ev
  names   : UniqueNames events
  unswept : ∀ x ∈ shares L events, x.2 ≠ .evict
  room    : ¬ Replica.Occurs Replica.Overflows (m₀ F) (shares F events)
  synced  : (m₀.run events L).unsynced = []
  handed  : (m₀.run events L).pending = []
  told    : (Replica.told (shares F events)).Perm ((m₀ L).handed (shares L events))

/-- An action at which a command is executed, and answered successfully. -/
def Serves (e : LogEntry) (r : Replica σ) (now : Nat) (a : Replica.Action) : Prop :=
  r.Executes a e ∧ ∃ reply, (r.perform now a).1 = some reply ∧ reply.accepted = true

variable {L F : Address} {term : Term} {m₀ : Members σ} {events : List Event}

/-- Of every name, a follower remembers as many beyond the entries it holds as were synced beyond the
    times it was recorded anew. -/
theorem Quiet.balance (h : Quiet m₀ L F events) (h₀ : m₀.Led L term) (hF : F ≠ L)
    (id : RequestId) :
    (m₀.run events F).witness.Exclusive ∧
    (m₀.run events F).witness.early.count id + Replica.anew id (m₀ F) (shares F events) =
      ((m₀ L).synced (shares L events)).count id +
        ((m₀.run events F).witness.recorded.map (·.id)).count id := by
  have hblank := h₀.blank F
  have hexcl : (m₀ F).witness.Exclusive := by
    intro id hheld
    rw [Witness.Holds, hblank.recorded] at hheld
    cases hheld
  have hkeeps : ∀ x ∈ shares F events, x.2.recovers = false := by
    intro x hx
    rw [← Bool.not_eq_true]
    exact fun hrec => hF ((act_of_mem_shares h.calm hx).2.2 hrec)
  obtain ⟨hexcl', hbalance⟩ := Replica.balance_run (h₀.follows hF) hexcl
    (fun x hx => (act_of_mem_shares h.calm hx).2.1) hkeeps h.room id
  have haccounts := (m₀ L).handed_append_pending (shares L events)
  rw [← run_member, h.handed, (h₀.blank L).pending, List.append_nil, List.nil_append] at haccounts
  rw [hblank.recorded, hblank.early, h.told.count_eq, haccounts] at hbalance
  rw [← run_member] at hbalance hexcl'
  simp only [List.map_nil, List.count_nil, Nat.add_zero, Nat.zero_add] at hbalance
  exact ⟨hexcl', hbalance⟩

/-- **When a follower does not hold an entry**, once all is quiet. -/
theorem not_held_iff (h₀ : m₀.Led L term) (h : Quiet m₀ L F events) (hF : F ≠ L) {e : LogEntry}
    (he : e ∈ entries events) :
    e ∉ (m₀.run events F).witness.recorded ↔
      Replica.anew e.id (m₀ F) (shares F events) ≤ 1 ∧
      (0 < Replica.anew e.id (m₀ F) (shares F events) →
        Replica.Occurs (Replica.AnswersUnsynced e) (m₀ L) (shares L events)) := by
  -- under a name a follower holds this entry or none
  have hheld : e ∈ (m₀.run events F).witness.recorded ↔
      0 < ((m₀.run events F).witness.recorded.map (·.id)).count e.id := by
    rw [List.count_pos_iff, List.mem_map]
    constructor
    · exact fun hmem => ⟨e, hmem, rfl⟩
    · rintro ⟨u, hu, hid⟩
      obtain rfl : u = e := h.names u (recorded_asked h₀ h.calm hF hu) e he hid
      exact hu
  have hexclusive : 0 < ((m₀.run events F).witness.recorded.map (·.id)).count e.id →
      (m₀.run events F).witness.early.count e.id = 0 := fun hpos =>
    List.count_eq_zero.2 ((h.balance h₀ hF e.id).1 e.id (List.count_pos_iff.1 hpos))
  have hbalance := (h.balance h₀ hF e.id).2
  have haccount := Replica.account_run (h₀.blank L).distinct (h₀.blank L).unsynced
    (fun x hx => (act_of_mem_shares h.calm hx).2.1) h.unswept
    (fun x hx f hf hid => h.names f (executed_asked h.calm hx hf) e he hid)
  rw [← run_member, h.synced, List.map_nil, List.count_nil, Nat.add_zero] at haccount
  rw [hheld]
  cases haccount with
  | once answered cached count =>
      -- told once: it is gone unless it was recorded anew twice
      constructor
      · intro hnone
        exact ⟨by omega, fun _ => answered⟩
      · rintro ⟨hle, -⟩ hpos
        have := hexclusive hpos
        omega
  | never unanswered count     =>
      -- never told: it is gone only if it was never recorded
      constructor
      · intro hnone
        exact ⟨by omega, fun hpos => absurd hpos (by omega)⟩
      · rintro ⟨-, himp⟩ hpos
        have := hexclusive hpos
        exact unanswered (himp (by omega))

theorem served_asked (h : ∀ ev ∈ events, Calm L ev) {r : Replica σ} {e : LogEntry} {a : Address}
    {acts : List (Nat × Replica.Action)} (hacts : ∀ x ∈ acts, x ∈ shares a events)
    (hserves : Replica.Occurs (Serves e) r acts) : e ∈ entries events := by
  induction acts generalizing r with
  | nil            => exact hserves.elim
  | cons x acts ih =>
      rcases hserves with hnow | hlater
      · exact executed_asked h (hacts x (List.mem_cons_self ..)) hnow.1.1
      · exact ih (fun y hy => hacts y (List.mem_cons_of_mem _ hy)) hlater

/-- **When an executed command is gone from a witness**, once all is quiet: over every machine, in
    every run under one leader, an entry that the leader has executed and acknowledged is held by a
    follower no more if and only if the follower recorded it anew at most once, and, in case it did,
    the leader has answered it as unsynced. -/
theorem drained_iff (h₀ : m₀.Led L term) (h : Quiet m₀ L F events) (hF : F ≠ L) {e : LogEntry}
    (he : Replica.Occurs (Serves e) (m₀ L) (shares L events)) :
    e ∉ (m₀.run events F).witness.recorded ↔
      Replica.anew e.id (m₀ F) (shares F events) ≤ 1 ∧
      (0 < Replica.anew e.id (m₀ F) (shares F events) →
        Replica.Occurs (Replica.AnswersUnsynced e) (m₀ L) (shares L events)) :=
  not_held_iff h₀ h hF (served_asked h.calm (fun _ hx => hx) he)

/-- The law at an entry that is recorded, executed, committed and told: it was recorded once and
    answered as unsynced, and it is gone. -/
theorem drained_after_commit :
    let L : Address := ⟨"m0"⟩
    let F : Address := ⟨"m1"⟩
    let m₀ : Members Echo := fun a => .start a (some L) ⟨1⟩ {} 5
    let e : LogEntry := .command [97] [⟨[107]⟩] ⟨1⟩ ⟨0⟩
    let events : List Event := [.act F 0 (.request (.record e ⟨1⟩)),
      .act L 0 (.request (.command e)), .act L 1 .commit, .act L 1 .takePending,
      .act F 2 (.request (.witnessGc [e.id]))]
    m₀.Led L ⟨1⟩ ∧ Quiet m₀ L F events ∧ F ≠ L ∧
      Replica.Occurs (Serves e) (m₀ L) (shares L events) ∧
      e ∉ (m₀.run events F).witness.recorded := by
  intro L F m₀ e events
  have h₀ : m₀.Led L ⟨1⟩ := fun a => ⟨{}, 5, rfl⟩
  have hquiet : Quiet m₀ L F events :=
    ⟨by decide, by decide, by decide, by decide, by decide, by decide, by decide⟩
  have hserves : Replica.Occurs (Serves e) (m₀ L) (shares L events) :=
    Or.inl ⟨by unfold Replica.Executes; decide, _, rfl, by decide⟩
  have hanswers : Replica.Occurs (Replica.AnswersUnsynced e) (m₀ L) (shares L events) :=
    Or.inl ⟨rfl, _, rfl, by decide, by decide⟩
  have hgone := (drained_iff h₀ hquiet (by decide) hserves).2 ⟨by decide, fun _ => hanswers⟩
  exact ⟨h₀, hquiet, by decide, hserves, hgone⟩

/-- **An executed command may be held for good**: one that the leader has executed for a sync, one
    whose conflict with what waited made the leader sync, and one that was recorded again after its
    name was told.  In each case all is quiet, and the witness holds what is executed and
    acknowledged. -/
theorem executed_entry_held :
    let L : Address := ⟨"m0"⟩
    let F : Address := ⟨"m1"⟩
    let m₀ : Members Echo := fun a => .start a (some L) ⟨1⟩ {} 5
    let d : LogEntry := .command [100] [⟨[107]⟩] ⟨1⟩ ⟨0⟩
    let e : LogEntry := .command [97] [⟨[107]⟩] ⟨1⟩ ⟨1⟩
    let sync : List Event := [.act F 0 (.request (.record e ⟨1⟩)),
      .act L 0 (.request (.sync (some e)))]
    let conflict : List Event := [.act F 0 (.request (.record e ⟨1⟩)),
      .act L 0 (.request (.command d)), .act L 1 (.request (.command e)), .act L 2 .takePending,
      .act F 3 (.request (.witnessGc [d.id]))]
    let again : List Event := [.act F 0 (.request (.record e ⟨1⟩)),
      .act L 0 (.request (.command e)), .act L 1 .commit, .act L 1 .takePending,
      .act F 2 (.request (.witnessGc [e.id])), .act F 3 (.request (.record e ⟨1⟩))]
    m₀.Led L ⟨1⟩ ∧ ∀ events ∈ [sync, conflict, again], Quiet m₀ L F events ∧
      Replica.Occurs (Serves e) (m₀ L) (shares L events) ∧
      e ∈ (m₀.run events F).witness.recorded := by
  intro L F m₀ d e sync conflict again
  have hsync : Quiet m₀ L F sync :=
    ⟨by decide, by decide, by decide, by decide, by decide, by decide, by decide⟩
  have hconflict : Quiet m₀ L F conflict :=
    ⟨by decide, by decide, by decide, by decide, by decide, by decide, by decide⟩
  have hagain : Quiet m₀ L F again :=
    ⟨by decide, by decide, by decide, by decide, by decide, by decide, by decide⟩
  refine ⟨fun a => ⟨{}, 5, rfl⟩, ?_⟩
  intro events hevents
  rcases List.mem_cons.1 hevents with rfl | hevents
  · exact ⟨hsync, Or.inl ⟨by unfold Replica.Executes; decide, _, rfl, by decide⟩, by decide⟩
  rcases List.mem_cons.1 hevents with rfl | hevents
  · exact ⟨hconflict,
      Or.inr (Or.inl ⟨by unfold Replica.Executes; decide, _, rfl, by decide⟩), by decide⟩
  obtain rfl := List.mem_singleton.1 hevents
  exact ⟨hagain, Or.inl ⟨by unfold Replica.Executes; decide, _, rfl, by decide⟩, by decide⟩

end Members

end WitnessReplication

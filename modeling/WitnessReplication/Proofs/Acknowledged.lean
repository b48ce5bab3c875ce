import WitnessReplication.Proofs.OneLeader

/-!
# Acknowledged records — what becomes of an entry that a witness has accepted

    A client trusts a witness: if the witness accepts a record, the entry survives the leader.  But
    to accept is not to hold.  A witness that was told the name before it got the record accepts and
    throws the entry away, and a witness that holds it throws it away when it is told.  Batches of
    names are on their way for any time, come in any order, more than once, or never.

    What saves the client is that names are told only after the leader has synced them.  So for every
    follower there are two invariants that keep each other up: every name it remembers is synced, and
    every entry it has accepted is held or synced.

* **`Reign`** — a run under one leader, in which followers are told only what it has handed out.
* **`Kept`** and **`kept_step`** — the invariants, and that they are kept.
* **`acknowledged_until_synced`** — the law for all followers and the leader.
-/

namespace WitnessReplication

namespace Members

variable {σ : Type} [StateMachine σ]

/-- What may happen under one leader after some events.  A follower is told only such names as the
    leader has handed out before. -/
def May (m₀ : Members σ) (L : Address) (before : List Event) (ev : Event) : Prop :=
  Calm L ev ∧ match ev with
    | .act a _ action => a = L ∨ ∀ id ∈ action.told, id ∈ (m₀ L).handed (shares L before)
    | .elect _ _      => True

instance (m₀ : Members σ) (L : Address) (before : List Event) :
    (ev : Event) → Decidable (m₀.May L before ev)
  | .act a now action  =>
      inferInstanceAs (Decidable (Calm L (.act a now action) ∧
        (a = L ∨ ∀ id ∈ action.told, id ∈ (m₀ L).handed (shares L before))))
  | .elect leader term => inferInstanceAs (Decidable (Calm L (.elect leader term) ∧ True))

/-- A run under one leader. -/
inductive Reign (m₀ : Members σ) (L : Address) : List Event → Prop where
  | nil : Reign m₀ L []
  | snoc {before : List Event} {ev : Event} (reign : Reign m₀ L before)
      (may : m₀.May L before ev) : Reign m₀ L (before ++ [ev])

variable {L : Address} {term : Term} {m₀ : Members σ}

theorem Reign.calm {events : List Event} (h : Reign m₀ L events) : ∀ ev ∈ events, Calm L ev := by
  induction h with
  | nil            => exact fun _ hev => nomatch hev
  | snoc _ may ih  =>
      intro ev hev
      rcases List.mem_append.1 hev with hev | hev
      · exact ih ev hev
      · rw [List.mem_singleton.1 hev]
        exact may.1

/-- What is true of a follower after some events: what it remembers is synced, and what it has
    accepted it holds, or it is synced. -/
structure Kept (m₀ : Members σ) (L F : Address) (events : List Event) : Prop where
  told    : ∀ id, (m₀.run events F).witness.Remembers id → id ∈ (m₀ L).synced (shares L events)
  vouched : ∀ e, Replica.Occurs (Replica.Vouches e) (m₀ F) (shares F events) →
    e ∈ (m₀.run events F).witness.recorded ∨ e.id ∈ (m₀ L).synced (shares L events)

theorem synced_mono {events : List Event} (ev : Event) {id : RequestId}
    (h : id ∈ (m₀ L).synced (shares L events)) :
    id ∈ (m₀ L).synced (shares L (events ++ [ev])) := by
  rw [shares_concat, Replica.synced_append]
  exact List.mem_append_left _ h

/-- The invariants of a follower are kept when it acts. -/
theorem kept_act (h₀ : m₀.Led L term) {events : List Event} (hreign : Reign m₀ L events)
    {F : Address} (hF : F ≠ L) {now : Nat} {action : Replica.Action}
    (hmay : m₀.May L events (.act F now action))
    (hone : UniqueNames (events ++ [.act F now action])) (h : Kept m₀ L F events) :
    Kept m₀ L F (events ++ [.act F now action]) := by
  have hcalm := (hreign.snoc hmay).calm
  obtain ⟨⟨hled, hrecovers⟩, hhanded⟩ := hmay
  have hlast : Event.act F now action ∈ events ++ [.act F now action] :=
    List.mem_append_right _ (List.mem_singleton.2 rfl)
  have hkeeps : action.recovers = false := by
    rw [← Bool.not_eq_true]
    exact fun hrec => hF (hrecovers hrec)
  have htold : ∀ id ∈ action.told,
      id ∈ (m₀ L).synced (shares L (events ++ [.act F now action])) := by
    intro id hid
    have hhand := hhanded.resolve_left hF id hid
    exact synced_mono _ (Replica.synced_of_handed (h₀.blank L).pending hhand)
  have hwitness : (m₀.run (events ++ [.act F now action]) F).witness =
      action.onWitness (m₀.run events F).witness := by
    rw [run_act]
    exact ((follows_run h₀ hreign.calm hF).perform hled now).2
  refine ⟨?told, ?vouched⟩ <;> rw [hwitness]
  case told =>
    intro id hid
    rcases Replica.remembers_onWitness hid with hid | hid
    · exact synced_mono _ (h.told id hid)
    · exact htold id hid
  case vouched =>
    intro e he
    rw [shares_act, Replica.occurs_concat, ← run_member] at he
    rcases he with he | he
    · -- accepted before: what was held is held on, or its name is told now
      rcases h.vouched e he with hheld | hid
      · exact (Replica.held_onWitness hkeeps hheld).imp_right (htold e.id)
      · exact Or.inr (synced_mono _ hid)
    · -- accepted now: an entry of the name is held, and a name stands for one entry
      rcases Replica.held_of_vouches he with ⟨u, hu, hid⟩ | hremembers
      · have hu' := hu
        rw [← hwitness] at hu'
        have hasked := recorded_asked h₀ hcalm hF hu'
        obtain rfl : u = e := hone u hasked e (mem_entries hlast (Or.inr he.1)) hid
        exact Or.inl hu
      · exact Or.inr (synced_mono _ (h.told e.id hremembers))

/-- **One step of the invariants**, by who acts. -/
theorem kept_step (h₀ : m₀.Led L term) {events : List Event} (hreign : Reign m₀ L events)
    {ev : Event} (hmay : m₀.May L events ev) (hone : UniqueNames (events ++ [ev])) {F : Address}
    (hF : F ≠ L) (h : Kept m₀ L F events) : Kept m₀ L F (events ++ [ev]) := by
  cases ev with
  | elect leader term => exact hmay.1.elim
  | act a now action  =>
      by_cases ha : a = F
      · subst ha
        exact kept_act h₀ hreign hF hmay hone h
      · refine ⟨?_, ?_⟩ <;> rw [run_act_of_ne ha]
        · exact fun id hid => synced_mono _ (h.told id hid)
        · rw [shares_act_of_ne ha]
          exact fun e he => (h.vouched e he).imp_right (synced_mono _)

/-- **The invariants hold in every run under one leader.** -/
theorem kept_run (h₀ : m₀.Led L term) {events : List Event} (hreign : Reign m₀ L events)
    (hone : UniqueNames events) {F : Address} (hF : F ≠ L) : Kept m₀ L F events := by
  induction hreign with
  | nil                =>
      have hblank := h₀.blank F
      refine ⟨fun id hid => ?_, fun e he => he.elim⟩
      have hid' : id ∈ (m₀ F).witness.early := hid
      rw [hblank.early] at hid'
      exact nomatch hid'
  | snoc reign may ih  => exact kept_step h₀ reign may hone hF (ih hone.before)

/-- A command that was answered as unsynced waits right then, as it was asked for. -/
theorem unsynced_of_answersUnsynced (h₀ : m₀.Led L term) {events : List Event}
    (hcalm : ∀ ev ∈ events, Calm L ev) (hone : UniqueNames events)
    {xs ys : List (Nat × Replica.Action)} {now : Nat} {a : Replica.Action}
    (hsplit : shares L events = xs ++ (now, a) :: ys) {e : LogEntry}
    (h : ((m₀ L).run xs).AnswersUnsynced e now a) :
    e ∈ (((m₀ L).run xs).perform now a).2.unsynced := by
  have hasked : ∀ x ∈ xs ++ (now, a) :: ys, ∀ f, Replica.Action.entry? x.2 = some f →
      f ∈ entries events := by
    intro x hx f hf
    rw [← hsplit] at hx
    exact executed_asked hcalm hx hf
  have he : e ∈ entries events := by
    refine hasked (now, a) (List.mem_append_right _ (List.mem_cons_self ..)) e ?_
    rw [h.1]
    rfl
  obtain ⟨u, hu, hid, hor⟩ := Replica.waits_of_answersUnsynced h
  have hu' : u ∈ entries events := by
    rcases hor with rfl | hwaited
    · exact he
    · rcases Replica.unsynced_run hwaited with hnew | ⟨x, hx, hux⟩
      · rw [(h₀.blank L).unsynced] at hnew
        exact nomatch hnew
      · exact hasked x (List.mem_append_left _ hx) u hux
  obtain rfl : u = e := hone u hu' e he hid
  exact hu

/-- **Acknowledged records survive until the leader has synced**: in every run under one leader, with
    any number of followers, in which names stand for one entry and followers are told only names
    that the leader has handed out, at any time and any number of times.  Every entry whose record a
    follower has ever accepted is held there, or the leader has synced it.  And every command that
    the leader has ever answered as unsynced waits at the leader, or was synced since. -/
theorem acknowledged_until_synced (h₀ : m₀.Led L term) {events : List Event}
    (hreign : Reign m₀ L events) (hone : UniqueNames events) :
    (∀ F, F ≠ L → ∀ e, Replica.Occurs (Replica.Vouches e) (m₀ F) (shares F events) →
      e ∈ (m₀.run events F).witness.recorded ∨ e.id ∈ (m₀ L).synced (shares L events)) ∧
    (∀ xs now a ys, shares L events = xs ++ (now, a) :: ys →
      ∀ e, ((m₀ L).run xs).AnswersUnsynced e now a →
        e ∈ (m₀.run events L).unsynced ∨
          e.id ∈ (((m₀ L).run xs).perform now a).2.synced ys) := by
  constructor
  · intro F hF e he
    exact (kept_run h₀ hreign hone hF).vouched e he
  · intro xs now a ys hsplit e hans
    have hwaits := unsynced_of_answersUnsynced h₀ hreign.calm hone hsplit hans
    have hled : ∀ x ∈ ys, x.2.elects = false := by
      intro x hx
      have hx' : x ∈ shares L events := by
        rw [hsplit]
        exact List.mem_append_right _ (List.mem_cons_of_mem _ hx)
      exact (act_of_mem_shares hreign.calm hx').2.1
    have hrun : m₀.run events L = (((m₀ L).run xs).perform now a).2.run ys := by
      rw [run_member, hsplit, Replica.run_append]
      rfl
    rw [hrun]
    exact Replica.unsynced_or_synced hled hwaits

/-- Every event that may happen after those before it makes a run under one leader. -/
theorem reign_of_may {events : List Event}
    (h : ∀ k, (hk : k < events.length) → m₀.May L (events.take k) (events.get ⟨k, hk⟩)) :
    Reign m₀ L events := by
  have hprefix : ∀ n, n ≤ events.length → Reign m₀ L (events.take n) := by
    intro n
    induction n with
    | zero      => exact fun _ => .nil
    | succ n ih =>
        intro hn
        rw [List.take_succ_eq_append_getElem hn]
        exact (ih (Nat.le_of_succ_le hn)).snoc (h n hn)
  have hall := hprefix events.length (Nat.le_refl _)
  rwa [List.take_length] at hall

/-- The law at a run in which a name overtakes its record.  The leader executes an entry, syncs it,
    and hands its name out; one follower is told the name, then accepts the record and does not hold
    the entry; to another the name never comes.  A second command waits. -/
theorem acknowledged_around_overtaking :
    let L : Address := ⟨"m0"⟩
    let m₀ : Members Echo := fun a => .start a (some L) ⟨1⟩ {} 5
    let e : LogEntry := .command [97] [⟨[107]⟩] ⟨1⟩ ⟨0⟩
    let f : LogEntry := .command [98] [⟨[106]⟩] ⟨1⟩ ⟨1⟩
    let events : List Event := [.act L 0 (.request (.command e)), .act L 1 .commit,
      .act L 1 .takePending, .act ⟨"m1"⟩ 2 (.request (.witnessGc [e.id])),
      .act ⟨"m1"⟩ 3 (.request (.record e ⟨1⟩)), .act ⟨"m2"⟩ 4 (.request (.record e ⟨1⟩)),
      .act L 5 (.request (.command f))]
    m₀.Led L ⟨1⟩ ∧ Reign m₀ L events ∧ UniqueNames events ∧
      Replica.Occurs (Replica.Vouches e) (m₀ ⟨"m1"⟩) (shares ⟨"m1"⟩ events) ∧
      e ∉ (m₀.run events ⟨"m1"⟩).witness.recorded ∧
      (e ∈ (m₀.run events ⟨"m1"⟩).witness.recorded ∨ e.id ∈ (m₀ L).synced (shares L events)) := by
  intro L m₀ e f events
  have h₀ : m₀.Led L ⟨1⟩ := fun a => ⟨{}, 5, rfl⟩
  have hreign : Reign m₀ L events := reign_of_may (by decide)
  have hone : UniqueNames events := by decide
  have hvouched : Replica.Occurs (Replica.Vouches e) (m₀ ⟨"m1"⟩) (shares ⟨"m1"⟩ events) :=
    Or.inr (Or.inl (Replica.vouches_iff.2 ⟨⟨1⟩, rfl, by decide⟩))
  exact ⟨h₀, hreign, hone, hvouched, by decide,
    (acknowledged_until_synced h₀ hreign hone).1 ⟨"m1"⟩ (by decide) e hvouched⟩

end Members

end WitnessReplication

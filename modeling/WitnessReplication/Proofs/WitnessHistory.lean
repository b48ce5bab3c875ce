import Mathlib.Data.List.Induction
import WitnessReplication.Proofs.WitnessRuns

/-!
# Witness history — what is handed over, read off what was asked

    The next leader knows of the unsynced commands what the witnesses hand over and nothing else.
    So it matters that a witness hands over what it has accepted, and only that.  Two things take an
    accepted entry away: to be told its name, and to hand it over.  The name may also have been told
    before, since what is remembered outlives a handover; a record that uses such a name up is
    accepted, and nothing is held.

    Where a name was never told it is not remembered, so whoever accepts it holds it, and holds it
    on (`holds_run`).  The other way round, what is held was taken in by a record that can be
    pointed at in the history, with neither its name told nor a handover since (`held_since`).

* **`Accepts`** — an action that is a record of an entry, and is accepted.
* **`Faithful`** — nothing is lost, nothing is made up, nothing comes twice; a refusal is no change.
* **`faithful_run`** — every run of a witness is faithful.
-/

namespace WitnessReplication

namespace Witness

/-- The names that an action tells the witness to forget. -/
def Action.told : Action → List RequestId
  | .collect synced => synced
  | _               => []

/-- An action that is a record of an entry, and is accepted. -/
def Accepts (w : Witness) (a : Action) (e : LogEntry) : Prop :=
  ∃ term, a = .record e term ∧ (w.record e term).1 = .accepted

-- ── One action ───────────────────────────────────────────────────────────────────────────────────

theorem remembers_perform {w : Witness} {a : Action} {id : RequestId}
    (h : (w.perform a).Remembers id) : w.Remembers id ∨ id ∈ a.told := by
  cases a with
  | record e term  => exact Or.inl (remembers_of_record h)
  | setTerm term   => exact Or.inl h
  | recover        => exact Or.inl h
  | unfreeze       => exact Or.inl h
  | collect synced => exact remembers_collect h

/-- Two actions let go of an entry that is held. -/
theorem holds_perform {w : Witness} {a : Action} {id : RequestId} (h : w.Holds id)
    (hrecover : a ≠ .recover) (htold : id ∉ a.told) : (w.perform a).Holds id := by
  obtain ⟨e, he, rfl⟩ := List.mem_map.1 h
  refine List.mem_map.2 ⟨e, ?_, rfl⟩
  cases a with
  | record f term  => exact recorded_subset_record he f term
  | setTerm term   => exact he
  | recover        => exact absurd rfl hrecover
  | unfreeze       => exact he
  | collect synced => exact (held_or_told he synced).resolve_right htold

/-- An entry that is held was held before and its name is not told now, or it is taken in now. -/
theorem held_perform {w : Witness} (hw : w.Coherent) {a : Action} {u : LogEntry}
    (h : u ∈ (w.perform a).recorded) :
    (u ∈ w.recorded ∧ a ≠ .recover ∧ u.id ∉ a.told) ∨ w.Accepts a u := by
  cases a with
  | record e term =>
      by_cases hacc : (w.record e term).1 = .accepted
      · rcases mem_recorded_record h with hu | rfl
        · exact Or.inl ⟨hu, nofun, List.not_mem_nil⟩
        · exact Or.inr ⟨term, rfl, hacc⟩
      · have hsame : w.perform (.record e term) = w := record_of_ne_accepted hacc
        rw [hsame] at h
        exact Or.inl ⟨h, nofun, List.not_mem_nil⟩
  | setTerm term   => exact Or.inl ⟨h, nofun, List.not_mem_nil⟩
  | recover        => exact nomatch h
  | unfreeze       => exact Or.inl ⟨h, nofun, List.not_mem_nil⟩
  | collect synced =>
      have hkept : u ∈ w.recorded.filter fun e => e.id ∉ synced := by
        rw [← sweep_eq_filter hw.distinct]
        exact h
      obtain ⟨hu, huntold⟩ := List.mem_filter.1 hkept
      exact Or.inl ⟨hu, nofun, of_decide_eq_true huntold⟩

-- ── Runs ─────────────────────────────────────────────────────────────────────────────────────────

theorem remembers_run {w : Witness} {acts : List Action} {id : RequestId}
    (h : (w.run acts).Remembers id) : w.Remembers id ∨ ∃ a ∈ acts, id ∈ a.told := by
  induction acts generalizing w with
  | nil => exact Or.inl h
  | cons a acts ih =>
      rcases ih h with hnow | ⟨b, hb, htold⟩
      · rcases remembers_perform hnow with hbefore | htold
        · exact Or.inl hbefore
        · exact Or.inr ⟨a, List.mem_cons_self .., htold⟩
      · exact Or.inr ⟨b, List.mem_cons_of_mem _ hb, htold⟩

/-- What is held stays, as long as nothing is handed over and its name is not told. -/
theorem holds_run {w : Witness} {acts : List Action} {id : RequestId} (h : w.Holds id)
    (hrecover : .recover ∉ acts) (htold : ∀ a ∈ acts, id ∉ a.told) : (w.run acts).Holds id := by
  induction acts generalizing w with
  | nil => exact h
  | cons a acts ih =>
      rw [List.mem_cons, not_or] at hrecover
      have hnow : (w.perform a).Holds id :=
        holds_perform h (Ne.symm hrecover.1) (htold a (List.mem_cons_self ..))
      exact ih hnow hrecover.2 fun b hb => htold b (List.mem_cons_of_mem _ hb)

/-- What is held was accepted at some point of the run, and since then nothing was handed over and
    its name was not told. -/
theorem held_since {w : Witness} (hw : w.Coherent) (hnew : w.recorded = []) {acts : List Action}
    {u : LogEntry} (h : u ∈ (w.run acts).recorded) :
    ∃ before a since, acts = before ++ a :: since ∧ .recover ∉ since ∧
      (w.run before).Accepts a u ∧ ∀ b ∈ since, u.id ∉ b.told := by
  induction acts using List.reverseRecOn with
  | nil =>
      rw [run_nil, hnew] at h
      exact nomatch h
  | append_singleton acts x ih =>
      rw [run_concat] at h
      rcases held_perform (hw.run acts) h with ⟨hu, hrecover, huntold⟩ | hacc
      · -- the record lies further back, and `x` is one more action since
        obtain ⟨before, a, since, rfl, hsince, hacc, htold⟩ := ih hu
        refine ⟨before, a, since ++ [x], by simp, ?_, hacc, ?_⟩
        · rw [List.mem_append, List.mem_singleton, not_or]
          exact ⟨hsince, Ne.symm hrecover⟩
        · intro b hb
          rcases List.mem_append.1 hb with hb | hb
          · exact htold b hb
          · rw [List.mem_singleton.1 hb]
            exact huntold
      · exact ⟨acts, x, [], rfl, List.not_mem_nil, hacc, nofun⟩

/-- Whoever accepts an entry whose name was never told holds an entry of that name. -/
theorem holds_of_accepts {w : Witness} {a : Action} {e : LogEntry} (h : w.Accepts a e)
    (huntold : ¬ w.Remembers e.id) : (w.perform a).Holds e.id := by
  obtain ⟨term, rfl, hacc⟩ := h
  obtain ⟨u, hu, hid⟩ := (held_of_accepted hacc).resolve_right huntold
  exact List.mem_map.2 ⟨u, hu, hid⟩

-- ── What is handed over ──────────────────────────────────────────────────────────────────────────

/-- What a witness hands over after a run is what the run makes it answerable for. -/
structure Faithful (w : Witness) (acts : List Action) : Prop where
  /-- Nothing is lost: what was accepted since the last handover is handed over under its name,
      unless the name was told in the run. -/
  kept : ∀ before a since e, acts = before ++ a :: since → .recover ∉ since →
    (w.run before).Accepts a e → (∀ b ∈ acts, e.id ∉ b.told) →
    e.id ∈ (w.run acts).recover.1.map (·.id)
  /-- Nothing is made up: what is handed over was accepted since the last handover, and its name
      was not told after that. -/
  earned : ∀ u ∈ (w.run acts).recover.1, ∃ before a since, acts = before ++ a :: since ∧
    .recover ∉ since ∧ (w.run before).Accepts a u ∧ ∀ b ∈ since, u.id ∉ b.told
  /-- Nothing comes twice. -/
  once : ((w.run acts).recover.1.map (·.id)).Nodup
  /-- A record that is not accepted changes nothing. -/
  refused : ∀ e term, ((w.run acts).record e term).1 ≠ .accepted →
    ((w.run acts).record e term).2 = w.run acts

/-- **A witness neither loses nor makes up a command**, whatever it is asked and in whatever order.
    (The run is what precedes the handover, and may contain others.) -/
theorem faithful_run (term : Term) (acts : List Action) : Faithful { term } acts := by
  have hw : Coherent { term } := coherent_new term
  constructor
  · intro before a since e hacts hsince hacc huntold
    subst hacts
    -- the name was not told before the record either, so it is not remembered there
    have hunremembered : ¬ (run { term } before).Remembers e.id := by
      intro hearly
      rcases remembers_run hearly with hnew | ⟨b, hb, htold⟩
      · exact nomatch hnew
      · exact huntold b (List.mem_append_left _ hb) htold
    have hheld : ((run { term } before).perform a).Holds e.id := holds_of_accepts hacc hunremembered
    rw [run_append]
    show (((run { term } before).perform a).run since).Holds e.id
    refine holds_run hheld hsince ?_
    intro b hb
    exact huntold b (List.mem_append_right _ (List.mem_cons_of_mem _ hb))
  · intro u hu
    exact held_since hw rfl hu
  · exact (hw.run acts).distinct
  · intro e term' hrefused
    exact record_of_ne_accepted hrefused

/-- A name that is told before a handover is used up by a record after it: the record is accepted,
    and nothing is handed over for it. -/
example :
    let e : LogEntry := .command [97] [⟨[107]⟩] ⟨1⟩ ⟨1⟩
    let w := run { term := ⟨1⟩ } [.collect [e.id], .recover, .unfreeze]
    w.Accepts (.record e ⟨1⟩) e ∧ (w.perform (.record e ⟨1⟩)).recover.1 = [] :=
  ⟨⟨⟨1⟩, rfl, by decide⟩, by decide⟩

end Witness

end WitnessReplication

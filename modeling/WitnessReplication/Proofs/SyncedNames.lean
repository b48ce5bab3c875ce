import Mathlib.Data.List.Count
import WitnessReplication.Proofs.Durability

/-!
# Synced names — what a leader syncs, and whom it tells

    A command that commutes with all that wait is answered as unsynced, and waits.  When the leader
    syncs, the names of all that waited go to those that the other witnesses have to be told, and
    from there they are taken away in batches.  No name gets into a batch in any other way.

    So two accounts of a leader's run agree: the names that it has handed out, followed by those
    that it still has to hand out, are the names that it has synced, in their order.

* **`handed_append_pending`** — the two accounts.
* **`unsynced_or_synced`** — what waits goes on to wait until it is synced.
* **`waits_of_answersUnsynced`** — a command that is answered as unsynced waits.
* **`account_run`** — without sweeps a name is synced at most once, and only if its command was
  answered as unsynced.
-/

namespace WitnessReplication

namespace Replica

variable {σ : Type}

/-- Whether an action is the word that somebody leads now. -/
def Action.elects : Action → Bool
  | .lead _ _ => true
  | _         => false

variable [StateMachine σ]

/-- Only by hearing of a leader does a replica begin or cease to lead. -/
theorem perform_isLeader {a : Action} (ha : a.elects = false) (r : Replica σ) (now : Nat) :
    (r.perform now a).2.isLeader = r.isLeader := by
  cases he : a.entry? with
  | some e => exact perform_entry_isLeader he r now
  | none   =>
      cases a with
      | request q =>
          cases q with
          | clientId     =>
              show r.clientIdReply.2.isLeader = _
              rw [clientIdReply]
              split <;> rfl
          | command e    => cases he
          | record e t   => rfl
          | sync e       =>
              show (r.syncReply now e).2.isLeader = _
              obtain rfl : e = none := he
              rw [syncReply]
              split
              · exact r.syncAll_isLeader
              · rfl
          | recoveryData => rfl
          | unfreeze     => rfl
          | witnessGc ss => rfl
      | lead leader term => cases ha
      | commit           => exact r.syncAll_isLeader
      | takePending      => rfl
      | evict            => rfl

/-! ## Names on their way to the other witnesses -/

omit [StateMachine σ] in
theorem acknowledge_pending_or (r : Replica σ) (e : LogEntry) (again : Bool) :
    (r.acknowledge e again).2.pending = r.pending ∨ (r.acknowledge e again).2 = r.syncAll := by
  rw [acknowledge]
  split
  · exact Or.inl rfl
  · split
    · exact Or.inl rfl
    · split
      · exact Or.inl rfl
      · exact Or.inr rfl

/-- An action leaves the names that wait to be told as they are, or it syncs; unless it takes them
    away. -/
theorem perform_pending {a : Action} (ha : a ≠ .takePending) (r : Replica σ) (now : Nat) :
    (r.perform now a).2.pending = r.pending ∨ r.Drains now a := by
  cases a with
  | request q =>
      cases q with
      | clientId     =>
          left
          show r.clientIdReply.2.pending = _
          rw [clientIdReply]
          split <;> rfl
      | command e    =>
          rw [Drains]
          show (r.commandReply now e).2.pending = _ ∨ (r.commandReply now e).2.unsynced = [] ∧
            (r.commandReply now e).2.pending = _
          simp only [commandReply]
          split
          · rcases acknowledge_pending_or (r.applyOnce now e).2 e (r.isRetransmission e) with h | h
            · exact Or.inl (h.trans (r.applyOnce_pending now e))
            · right
              rw [h]
              simp
          · exact Or.inl rfl
      | record e t   => exact Or.inl rfl
      | sync e       =>
          rw [Drains]
          show (r.syncReply now e).2.pending = _ ∨ (r.syncReply now e).2.unsynced = [] ∧
            (r.syncReply now e).2.pending = _
          simp only [syncReply]
          split
          · right
            cases e <;> simp
          · exact Or.inl rfl
      | recoveryData => exact Or.inl rfl
      | unfreeze     => exact Or.inl rfl
      | witnessGc ss => exact Or.inl rfl
  | lead leader term =>
      left
      show (r.lead leader term).pending = _
      rw [lead]
      split <;> rfl
  | commit      => exact Or.inr ⟨r.syncAll_unsynced, r.syncAll_pending⟩
  | takePending => exact absurd rfl ha
  | evict       => exact Or.inl rfl

instance (r : Replica σ) (now : Nat) (a : Action) : Decidable (r.Drains now a) :=
  inferInstanceAs (Decidable (_ ∧ _))

/-- The names of what an action syncs. -/
def syncs (r : Replica σ) (now : Nat) (a : Action) : List RequestId :=
  if r.Drains now a then r.unsynced.map (·.id) else []

/-- The names of all that is synced in a run. -/
def synced (r : Replica σ) : List (Nat × Action) → List RequestId
  | []               => []
  | (now, a) :: rest => r.syncs now a ++ (r.perform now a).2.synced rest

/-- The batches of names that are taken away in a run. -/
def batches (r : Replica σ) : List (Nat × Action) → List (List RequestId)
  | []               => []
  | (now, a) :: rest =>
      (if a = .takePending then [r.pending] else []) ++ (r.perform now a).2.batches rest

/-- The names that are taken away in a run. -/
def handed (r : Replica σ) (acts : List (Nat × Action)) : List RequestId := (r.batches acts).flatten

theorem synced_append (r : Replica σ) (xs ys : List (Nat × Action)) :
    r.synced (xs ++ ys) = r.synced xs ++ (r.run xs).synced ys := by
  induction xs generalizing r with
  | nil          => rfl
  | cons x xs ih =>
      show r.syncs x.1 x.2 ++ (r.perform x.1 x.2).2.synced (xs ++ ys) = _
      rw [ih, ← List.append_assoc]
      rfl

theorem pending_perform {a : Action} (ha : a ≠ .takePending) (r : Replica σ) (now : Nat) :
    (r.perform now a).2.pending = r.pending ++ r.syncs now a := by
  rw [syncs]
  split
  · rename_i hdrains
    exact hdrains.2
  · rename_i hdrains
    rw [List.append_nil]
    exact (perform_pending ha r now).resolve_right hdrains

theorem syncs_takePending (r : Replica σ) (now : Nat) : r.syncs now .takePending = [] := by
  rw [syncs]
  split
  · rename_i hdrains
    have hempty : r.unsynced = [] := hdrains.1
    rw [hempty]
    rfl
  · rfl

/-- **The two accounts of a run**: the names that were handed out and those that wait to be, are
    those that waited at first and those that were synced. -/
theorem handed_append_pending (r : Replica σ) (acts : List (Nat × Action)) :
    r.handed acts ++ (r.run acts).pending = r.pending ++ r.synced acts := by
  induction acts generalizing r with
  | nil            => exact (List.append_nil _).symm
  | cons x acts ih =>
      obtain ⟨now, a⟩ := x
      have hrest := ih (r.perform now a).2
      rw [handed, batches, synced, List.flatten_append, List.append_assoc]
      show _ ++ ((r.perform now a).2.handed acts ++ ((r.perform now a).2.run acts).pending) = _
      rw [hrest, ← List.append_assoc, ← List.append_assoc]
      congr 1
      by_cases ha : a = .takePending
      · subst ha
        rw [if_pos rfl, syncs_takePending]
        show [r.pending].flatten ++ [] = r.pending ++ []
        simp
      · rw [if_neg ha, pending_perform ha]
        rfl

/-- Whatever was handed out was synced before, if nothing waited to be told at first. -/
theorem synced_of_handed {r : Replica σ} (h : r.pending = []) {acts : List (Nat × Action)}
    {id : RequestId} (hid : id ∈ r.handed acts) : id ∈ r.synced acts := by
  have htwo := r.handed_append_pending acts
  rw [h, List.nil_append] at htwo
  rw [← htwo]
  exact List.mem_append_left _ hid

/-! ## Commands that wait -/

theorem unsynced_perform {r : Replica σ} {now : Nat} {a : Action} {u : LogEntry}
    (h : u ∈ (r.perform now a).2.unsynced) : u ∈ r.unsynced ∨ a.entry? = some u := by
  cases r.perform_settles now a with
  | waits idle same led           =>
      rw [same] at h
      exact Or.inl h
  | joins e executed behind led   =>
      rw [behind] at h
      rcases List.mem_append.1 h with h | h
      · exact Or.inl h
      · rw [List.mem_singleton.1 h]
        exact Or.inr executed.1
  | drains empty told led         =>
      rw [empty] at h
      exact nomatch h
  | drops idle led lost empty untold =>
      rw [empty] at h
      exact nomatch h

theorem unsynced_run {r : Replica σ} {acts : List (Nat × Action)} {u : LogEntry}
    (h : u ∈ (r.run acts).unsynced) : u ∈ r.unsynced ∨ ∃ x ∈ acts, Action.entry? x.2 = some u := by
  induction acts generalizing r with
  | nil            => exact Or.inl h
  | cons x acts ih =>
      rcases ih h with h | ⟨y, hy, hu⟩
      · rcases unsynced_perform h with h | h
        · exact Or.inl h
        · exact Or.inr ⟨x, List.mem_cons_self .., h⟩
      · exact Or.inr ⟨y, List.mem_cons_of_mem _ hy, hu⟩

/-- What waits at a leader that stays one goes on to wait, or is synced. -/
theorem unsynced_or_syncs {r : Replica σ} {now : Nat} {a : Action} (ha : a.elects = false)
    {u : LogEntry} (h : u ∈ r.unsynced) :
    u ∈ (r.perform now a).2.unsynced ∨ u.id ∈ r.syncs now a := by
  cases r.perform_settles now a with
  | waits idle same led           =>
      rw [same]
      exact Or.inl h
  | joins e executed behind led   =>
      rw [behind]
      exact Or.inl (List.mem_append_left _ h)
  | drains empty told led         =>
      right
      rw [syncs, if_pos ⟨empty, told⟩]
      exact List.mem_map_of_mem h
  | drops idle led lost empty untold =>
      rw [perform_isLeader ha, led] at lost
      exact nomatch lost

/-- **What waits goes on to wait until it is synced**, as long as the leader stays one. -/
theorem unsynced_or_synced {r : Replica σ} {acts : List (Nat × Action)}
    (hacts : ∀ x ∈ acts, x.2.elects = false) {u : LogEntry} (h : u ∈ r.unsynced) :
    u ∈ (r.run acts).unsynced ∨ u.id ∈ r.synced acts := by
  induction acts generalizing r with
  | nil            => exact Or.inl h
  | cons x acts ih =>
      rcases unsynced_or_syncs (hacts x (List.mem_cons_self ..)) h with hwaits | hsyncs
      · have hrest : ∀ y ∈ acts, y.2.elects = false := fun y hy => hacts y (List.mem_cons_of_mem _ hy)
        exact (ih hrest hwaits).imp_right (List.mem_append_right _)
      · exact Or.inr (List.mem_append_left _ hsyncs)

/-! ## Answers -/

/-- An action that is a request to execute a command, and is answered as unsynced. -/
def AnswersUnsynced (e : LogEntry) (r : Replica σ) (now : Nat) (a : Action) : Prop :=
  a = .request (.command e) ∧ ∃ reply, (r.perform now a).1 = some (.command reply) ∧
    reply.success = true ∧ reply.synced = false

/-- A command is answered as unsynced exactly by a leader that does not acknowledge it. -/
theorem answersUnsynced_iff {r : Replica σ} {now : Nat} {e : LogEntry} :
    r.AnswersUnsynced e now (.request (.command e)) ↔
      r.isLeader = true ∧
        ((r.applyOnce now e).2.acknowledge e (r.isRetransmission e)).1 = false := by
  constructor
  · rintro ⟨-, reply, hreply, hsuccess, hsynced⟩
    obtain rfl : (r.commandReply now e).1 = reply := Reply.command.inj (Option.some.inj hreply)
    cases hr : r.isLeader with
    | false =>
        rw [commandReply, hr] at hsuccess
        cases hsuccess
    | true  =>
        rw [commandReply, if_pos hr] at hsynced
        exact ⟨rfl, hsynced⟩
  · rintro ⟨hr, hack⟩
    refine ⟨rfl, (r.commandReply now e).1, rfl, ?_, ?_⟩ <;> rw [commandReply, if_pos hr]
    exact hack

/-- A command that is answered as unsynced waits from then on, or another one of its name has waited
    already. -/
theorem waits_of_answersUnsynced {r : Replica σ} {now : Nat} {a : Action} {e : LogEntry}
    (h : r.AnswersUnsynced e now a) :
    ∃ u ∈ (r.perform now a).2.unsynced, u.id = e.id ∧ (u = e ∨ u ∈ r.unsynced) := by
  obtain rfl := h.1
  obtain ⟨hr, hack⟩ := answersUnsynced_iff.1 h
  rw [perform_command hr]
  rw [acknowledge] at hack ⊢
  split at hack
  · cases hack
  · rename_i hkind
    rw [if_neg hkind]
    split at hack
    · rename_i hagain
      rw [if_pos hagain]
      rw [Bool.not_eq_false', List.any_eq_true] at hack
      obtain ⟨u, hu, hid⟩ := hack
      refine ⟨u, hu, of_decide_eq_true hid, Or.inr ?_⟩
      rw [applyOnce_unsynced] at hu
      exact hu
    · rename_i hagain
      rw [if_neg hagain]
      split at hack
      · rename_i hcommutes
        rw [if_pos hcommutes]
        exact ⟨e, List.mem_append_right _ (List.mem_singleton.2 rfl), rfl, Or.inl rfl⟩
      · cases hack

/-- A command that joins those that wait is answered as unsynced. -/
theorem answersUnsynced_of_joins {r : Replica σ} {now : Nat} {a : Action} {e : LogEntry}
    (h : r.Executes a e) (hbehind : (r.perform now a).2.unsynced = r.unsynced ++ [e]) :
    r.AnswersUnsynced e now a := by
  obtain ⟨ha, hk, hr, hl⟩ := h
  have hne : r.unsynced ++ [e] ≠ [] := List.append_ne_nil_of_right_ne_nil _ (List.cons_ne_nil e [])
  rcases Action.eq_of_entry? ha with rfl | rfl
  · refine answersUnsynced_iff.2 ⟨hr, ?_⟩
    have hkind : ¬ e.kind = .noop := by
      rw [hk]
      decide
    have hagain : ¬ r.isRetransmission e = true := by
      rw [isRetransmission, hl]
      exact Bool.false_ne_true
    rw [perform_command hr] at hbehind
    rw [acknowledge, if_neg hkind, if_neg hagain] at hbehind ⊢
    split
    · rfl
    · rename_i hconflict
      rw [if_neg hconflict, syncAll_unsynced] at hbehind
      exact absurd hbehind.symm hne
  · -- after a sync nothing waits
    have hempty : (r.perform now (.request (.sync (some e)))).2.unsynced = [] := by
      show (r.syncReply now (some e)).2.unsynced = []
      rw [syncReply, if_pos hr]
      exact syncAll_unsynced _
    rw [hempty] at hbehind
    exact absurd hbehind.symm hne

/-! ## How often a name is synced -/

/-- Whatever a leader does, what it syncs and what waits then is what waited before; or it syncs
    nothing, and one command that it executes joins those that wait. -/
theorem syncs_append_unsynced {a : Action} (ha : a.elects = false) (r : Replica σ) (now : Nat) :
    r.syncs now a ++ (r.perform now a).2.unsynced.map (·.id) = r.unsynced.map (·.id) ∨
    ∃ e, r.Executes a e ∧ r.syncs now a = [] ∧
      (r.perform now a).2.unsynced = r.unsynced ++ [e] := by
  cases r.perform_settles now a with
  | waits idle same led           =>
      left
      rw [same, syncs]
      split
      · rename_i hdrains
        -- a sync after which as much waits as before finds nothing that waits
        have hempty : r.unsynced = [] := same.symm.trans hdrains.1
        rw [hempty]
        rfl
      · rfl
  | joins e executed behind led   =>
      right
      refine ⟨e, executed, ?_, behind⟩
      rw [syncs, if_neg]
      rintro ⟨hempty, -⟩
      rw [behind] at hempty
      exact List.append_ne_nil_of_right_ne_nil _ (List.cons_ne_nil e []) hempty
  | drains empty told led         =>
      left
      rw [syncs, if_pos ⟨empty, told⟩, empty]
      exact List.append_nil _
  | drops idle led lost empty untold =>
      rw [perform_isLeader ha, led] at lost
      exact nomatch lost

/-- Without sweeps, what is cached stays cached, and so is what an action executes. -/
theorem cached_of_cached_or_executes {r : Replica σ} (hd : r.cache.Distinct) {now : Nat}
    {a : Action} (ha : a ≠ .evict) {id : RequestId}
    (h : r.Cached id ∨ ∃ e, r.Executes a e ∧ e.id = id) : (r.perform now a).2.Cached id := by
  rcases h with h | ⟨e, ⟨he, hk, hr, -⟩, rfl⟩
  · obtain ⟨kept, hl⟩ := Option.isSome_iff_exists.1 h
    rw [Cached, lookup_perform hd hl now a fun hev => absurd hev ha]
    rfl
  · obtain ⟨_, _, _, _, _, hc⟩ := perform_entry he hr now
    obtain ⟨kept, hl, -⟩ := lookup_applyOnce (r := r) hk now
    have hl' : (r.applyOnce now e).2.cache.lookup e.id.client e.id.seq = some kept := hl
    rw [Cached, hc, hl']
    rfl

/-- How often a name was synced and waits, from whether its command was answered as unsynced and is
    cached. -/
inductive Account (answered cached : Prop) (count : Nat) : Prop where
  | once  (answered : answered)     (cached : cached) (count : count = 1)
  | never (unanswered : ¬ answered) (count : count = 0)

/-- **One step of an account**: only a command that is executed for the first time, and is answered
    as unsynced, opens one. -/
theorem account_perform {r : Replica σ} (hd : r.cache.Distinct) (now : Nat) {a : Action}
    (hled : a.elects = false) (hevict : a ≠ .evict) {e : LogEntry}
    (hone : ∀ f, a.entry? = some f → f.id = e.id → f = e) {answered : Prop} {before : Nat}
    (h : Account answered (r.Cached e.id) (before + (r.unsynced.map (·.id)).count e.id)) :
    Account (answered ∨ r.AnswersUnsynced e now a) ((r.perform now a).2.Cached e.id)
      (before +
        (r.syncs now a ++ (r.perform now a).2.unsynced.map (·.id)).count e.id) := by
  have hstays : r.Cached e.id → (r.perform now a).2.Cached e.id := fun hcached =>
    cached_of_cached_or_executes hd hevict (Or.inl hcached)
  rcases syncs_append_unsynced hled r now with hsame | ⟨f, hf, hnone, hjoins⟩
  · -- nothing joins, so whatever is answered as unsynced has waited before
    have hwaited : r.AnswersUnsynced e now a → 0 < (r.unsynced.map (·.id)).count e.id := by
      intro hans
      obtain ⟨u, hu, hid, -⟩ := waits_of_answersUnsynced hans
      rw [List.count_pos_iff, ← hsame, ← hid]
      exact List.mem_append_right _ (List.mem_map_of_mem hu)
    rw [hsame]
    cases h with
    | once answered cached count => exact .once (Or.inl answered) (hstays cached) count
    | never unanswered count     =>
        refine .never (not_or.2 ⟨unanswered, fun hans => ?_⟩) count
        have := hwaited hans
        omega
  · rw [hnone, hjoins, List.nil_append, List.map_append, List.count_append, ← Nat.add_assoc]
    by_cases hid : f.id = e.id
    · -- the command is executed now, so it was not cached, and has no account yet
      obtain rfl : f = e := hone f hf.1 hid
      cases h with
      | once answered cached count =>
          have hl : r.cache.lookup f.id.client f.id.seq = none := hf.2.2.2
          rw [Cached, hl] at cached
          cases cached
      | never unanswered count     =>
          refine .once (Or.inr (answersUnsynced_of_joins hf hjoins))
            (cached_of_cached_or_executes hd hevict (Or.inr ⟨f, hf, rfl⟩)) ?_
          rw [count]
          simp
    · have hother : ¬ r.AnswersUnsynced e now a := by
        rintro ⟨rfl, -⟩
        exact hid (congrArg LogEntry.id (Option.some.inj hf.1).symm)
      have hzero : ([f].map (·.id)).count e.id = 0 := by
        rw [List.count_eq_zero, List.map_cons, List.map_nil, List.mem_singleton]
        exact fun h => hid h.symm
      rw [hzero, Nat.add_zero]
      cases h with
      | once answered cached count => exact .once (Or.inl answered) (hstays cached) count
      | never unanswered count     => exact .never (not_or.2 ⟨unanswered, hother⟩) count

/-- **How often a name is synced**: along every run without sweeps of a leader that has done nothing
    yet, and stays leader, a name is synced or waits once if its command was ever answered as
    unsynced, and never if not. -/
theorem account_run {r₀ : Replica σ} (hd : r₀.cache.Distinct) (hnew : r₀.unsynced = [])
    {acts : List (Nat × Action)} (hled : ∀ x ∈ acts, x.2.elects = false)
    (hevict : ∀ x ∈ acts, x.2 ≠ .evict) {e : LogEntry}
    (hone : ∀ x ∈ acts, ∀ f, Action.entry? x.2 = some f → f.id = e.id → f = e) :
    Account (Occurs (AnswersUnsynced e) r₀ acts) ((r₀.run acts).Cached e.id)
      ((r₀.synced acts).count e.id + ((r₀.run acts).unsynced.map (·.id)).count e.id) := by
  induction acts using List.reverseRecOn with
  | nil                      =>
      refine .never not_false ?_
      rw [run_nil, hnew]
      rfl
  | append_singleton acts x ih =>
      obtain ⟨now, a⟩ := x
      have hlast : (now, a) ∈ acts ++ [(now, a)] :=
        List.mem_append_right _ (List.mem_singleton.2 rfl)
      have hbefore := ih (fun y hy => hled y (List.mem_append_left _ hy))
        (fun y hy => hevict y (List.mem_append_left _ hy))
        (fun y hy => hone y (List.mem_append_left _ hy))
      have hstep := account_perform (distinct_run hd acts).1 now (hled _ hlast) (hevict _ hlast)
        (hone _ hlast) hbefore
      have hsynced : (r₀.run acts).synced [(now, a)] = (r₀.run acts).syncs now a :=
        List.append_nil _
      rw [List.count_append, ← Nat.add_assoc] at hstep
      rw [occurs_concat, run_append, synced_append, hsynced, List.count_append]
      exact hstep

end Replica

end WitnessReplication

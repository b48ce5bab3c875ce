import WitnessReplication.Proofs.Durability
import WitnessReplication.Proofs.Reordering

/-!
# Speculation — a leader may execute before anybody has fixed the order

    A leader over the key-value store executes commands as they come, and lets them wait.  Suppose
    the order that is fixed later is another one: then its state and its answers must be what that
    order would have brought about.  They are, as long as what waits commutes, and a leader sees to
    it that it does.

    The state to start from is that of the last moment at which nothing waited.  Much happens in
    between that leaves no trace in what waits: a command whose conflict forces a sync is executed
    and never waits, a sync executes a command that was not seen, a command whose answer was swept
    is executed again, leadership is lost and all that waits is dropped.  After each of these
    nothing waits, and so the state to start from is the one they leave behind.

* **`Kv.Carries`** — an entry with the payload and the keys of a command.
* **`LastSettled`** — the last moment at which nothing waited.
* **`Speculates`** — what holds of a leader that has executed what waits, from that moment on.
* **`speculates_perform`** and **`speculates_run`** — one action; every run.
* **`speculation_order_insensitive`** — what waits may be executed in any order instead.
-/

namespace WitnessReplication

namespace Kv

/-- An entry carries a command of the store: its payload, whose length is a word, and its keys. -/
structure Carries (e : LogEntry) (c : Command) : Prop where
  data : e.data = c.encode
  keys : e.keys = c.keys
  fits : e.data.length < UInt64.size

theorem Carries.encode_fits {e : LogEntry} {c : Command} (h : Carries e c) :
    c.encode.length < UInt64.size := by
  rw [← h.data]
  exact h.fits

theorem Carries.apart {e f : LogEntry} {c d : Command} (he : Carries e c) (hf : Carries f d)
    (h : e.commutesWith f = true) : c.Apart d := by
  rw [LogEntry.commutesWith_iff, he.keys, hf.keys] at h
  exact h

section Entries

variable {command : RequestId → Command} {es : List LogEntry}

theorem map_data (hes : ∀ e ∈ es, Carries e (command e.id)) :
    es.map (·.data) = (es.map fun e => command e.id).map Command.encode := by
  rw [List.map_map]
  refine List.map_congr_left ?_
  intro e he
  exact (hes e he).data

theorem encode_fits_of_mem (hes : ∀ e ∈ es, Carries e (command e.id)) :
    ∀ c ∈ es.map fun e => command e.id, c.encode.length < UInt64.size := by
  intro c hc
  obtain ⟨e, he, rfl⟩ := List.mem_map.1 hc
  exact (hes e he).encode_fits

theorem view_after_entries (hes : ∀ e ∈ es, Carries e (command e.id)) (s : Store) :
    (s.after (es.map (·.data))).view =
      (es.map fun e => command e.id).foldl Command.effect s.view := by
  rw [map_data hes]
  exact Store.view_after (encode_fits_of_mem hes) s

theorem pairwise_apart (hes : ∀ e ∈ es, Carries e (command e.id))
    (hcommuting : es.Pairwise fun e f => e.commutesWith f = true) :
    (es.map fun e => command e.id).Pairwise Command.Apart := by
  rw [List.pairwise_map]
  refine hcommuting.imp_of_mem ?_
  intro e f he hf h
  exact (hes e he).apart (hes f hf) h

/-- Entries that commute are answered as if each were the only one. -/
theorem zip_replay_entries (hes : ∀ e ∈ es, Carries e (command e.id))
    (hcommuting : es.Pairwise fun e f => e.commutesWith f = true) (s : Store) :
    es.zip (s.replay (es.map (·.data))) = es.map fun e => (e, (command e.id).output s.view) := by
  rw [map_data hes, Store.replay_apart (encode_fits_of_mem hes) (pairwise_apart hes hcommuting),
    List.map_map, List.map_prod_left_eq_zip]
  rfl

end Entries

end Kv

open Kv

namespace Replica

-- ── The last moment at which nothing waited ──────────────────────────────────────────────────────

section LastSettled

variable {σ : Type} [StateMachine σ]

/-- A run comes to a moment at which nothing waits, and after it something always does. -/
structure LastSettled (r : Replica σ) (before since : List (Nat × Action)) : Prop where
  settled : (r.run before).unsynced = []
  waiting : ∀ more, more <+: since → more ≠ [] → (r.run (before ++ more)).unsynced ≠ []

theorem lastSettled_of_settled {r : Replica σ} {acts : List (Nat × Action)}
    (h : (r.run acts).unsynced = []) : r.LastSettled acts [] where
  settled := h
  waiting := fun _ hprefix hne => absurd (List.prefix_nil.1 hprefix) hne

/-- It stays the last such moment as long as something waits. -/
theorem LastSettled.concat {r : Replica σ} {before since : List (Nat × Action)}
    (h : r.LastSettled before since) {x : Nat × Action}
    (hwaits : (r.run (before ++ (since ++ [x]))).unsynced ≠ []) :
    r.LastSettled before (since ++ [x]) where
  settled := h.settled
  waiting := by
    intro more hprefix hne
    rcases List.prefix_concat_iff.1 hprefix with rfl | hprefix
    · exact hwaits
    · exact h.waiting more hprefix hne

end LastSettled

-- ── What a leader has executed on top of it ──────────────────────────────────────────────────────

/-- A command that comes to wait commutes with all that wait already. -/
theorem commutes_of_joins {σ : Type} [StateMachine σ] {r : Replica σ} {now : Nat} {a : Action}
    {e : LogEntry} (h : r.Executes a e)
    (hbehind : (r.perform now a).2.unsynced = r.unsynced ++ [e]) :
    ∀ u ∈ r.unsynced, u.commutesWith e = true := by
  obtain ⟨ha, hk, hr, hl⟩ := h
  have hne : ¬ [] = r.unsynced ++ [e] := by simp
  rcases Action.eq_of_entry? ha with rfl | rfl
  · have hk' : ¬ e.kind = .noop := by
      rw [hk]
      decide
    have hagain : ¬ r.isRetransmission e = true := by
      rw [isRetransmission, hl]
      exact Bool.false_ne_true
    rw [perform_command hr, acknowledge, if_neg hk', if_neg hagain, applyOnce_unsynced] at hbehind
    split at hbehind
    · rename_i hall
      exact List.all_eq_true.1 hall
    · rw [syncAll_unsynced] at hbehind
      exact absurd hbehind hne
  · -- a sync leaves nothing waiting
    have hempty : (r.perform now (.request (.sync (some e)))).2.unsynced = [] := by
      show (r.syncReply now (some e)).2.unsynced = []
      rw [syncReply, if_pos hr]
      exact syncAll_unsynced _
    rw [hempty] at hbehind
    exact absurd hbehind hne

variable {command : RequestId → Command}

/-- What waits was executed in its order from a state `base`, by a leader, and commutes.  An answer
    that is still cached is the one its command would get from `base` alone. -/
structure Speculates (command : RequestId → Command) (base : Store) (r : Replica Store) : Prop where
  led       : r.unsynced ≠ [] → r.isLeader = true
  kind      : ∀ u ∈ r.unsynced, u.kind = .command
  carries   : ∀ u ∈ r.unsynced, Carries u (command u.id)
  commuting : r.unsynced.Pairwise fun u v => u.commutesWith v = true
  machine   : r.machine = base.after (r.unsynced.map (·.data))
  cached    : ∀ u ∈ r.unsynced, ∀ kept, r.cache.lookup u.client u.seq = some kept →
    kept.response = (command u.id).output base.view

theorem speculates_of_settled {r : Replica Store} (h : r.unsynced = []) :
    r.Speculates command r.machine := by
  constructor
  · exact fun hne => absurd h hne
  · rw [h]
    exact nofun
  · rw [h]
    exact nofun
  · rw [h]
    exact .nil
  · rw [h]
    rfl
  · rw [h]
    exact nofun

/-- An action that executes nothing and lets what waits wait on. -/
theorem Speculates.waits {base : Store} {r : Replica Store} (h : r.Speculates command base)
    (hd : r.cache.Distinct) {now : Nat} {a : Action} (hidle : ∀ e, ¬ r.Executes a e)
    (hsame : (r.perform now a).2.unsynced = r.unsynced)
    (hled : r.isLeader = true → (r.perform now a).2.isLeader = true) :
    (r.perform now a).2.Speculates command base := by
  rcases r.perform_cases now a with ⟨e, hx, _⟩ | ⟨_, hm, hc⟩
  · exact absurd hx (hidle e)
  · constructor
    · rw [hsame]
      intro hne
      exact hled (h.led hne)
    · rw [hsame]
      exact h.kind
    · rw [hsame]
      exact h.carries
    · rw [hsame]
      exact h.commuting
    · rw [hsame, hm]
      exact h.machine
    · rw [hsame, hc]
      intro u hu kept hl
      refine h.cached u hu kept ?_
      split at hl
      · -- a sweep lets answers go, and changes none
        rw [ResponseCache.lookup_evict hd] at hl
        exact (Option.filter_eq_some_iff.1 hl).1
      · exact hl

/-- A command that commutes with all that wait is answered as it would be from `base` alone. -/
theorem Speculates.answer_alone {base : Store} {r : Replica Store} (h : r.Speculates command base)
    {e : LogEntry} (he : Carries e (command e.id))
    (hcommutes : ∀ u ∈ r.unsynced, u.commutesWith e = true) :
    (StateMachine.execute r.machine e.data).2 = (command e.id).output base.view := by
  have hapart : ∀ c ∈ r.unsynced.map fun u => command u.id, c.Apart (command e.id) := by
    intro c hc
    obtain ⟨u, hu, rfl⟩ := List.mem_map.1 hc
    exact (h.carries u hu).apart he (hcommutes u hu)
  rw [he.data, execute_encode _ he.encode_fits]
  show (((r.machine.run (command e.id)).2.map Result.encode).getD []) = _
  rw [Store.result_run, h.machine, view_after_entries h.carries]
  exact Command.output_foldl_effect hapart base.view

/-- An action that executes a command and lets it wait behind the others. -/
theorem Speculates.joins {base : Store} {r : Replica Store} (h : r.Speculates command base)
    {now : Nat} {a : Action} {e : LogEntry} (hx : r.Executes a e) (he : Carries e (command e.id))
    (hbehind : (r.perform now a).2.unsynced = r.unsynced ++ [e])
    (hled : (r.perform now a).2.isLeader = r.isLeader) :
    (r.perform now a).2.Speculates command base := by
  have hcommutes := commutes_of_joins hx hbehind
  rcases r.perform_cases now a with ⟨e', hx', hm, hc⟩ | ⟨hidle, _⟩
  · obtain rfl : e = e' := Option.some.inj (hx.1.symm.trans hx'.1)
    constructor
    · intro _
      rw [hled]
      exact hx.2.2.1
    · rw [hbehind]
      intro u hu
      rcases List.mem_append.1 hu with hu | hu
      · exact h.kind u hu
      · rw [List.mem_singleton.1 hu]
        exact hx.2.1
    · rw [hbehind]
      intro u hu
      rcases List.mem_append.1 hu with hu | hu
      · exact h.carries u hu
      · rw [List.mem_singleton.1 hu]
        exact he
    · rw [hbehind, List.pairwise_append]
      refine ⟨h.commuting, List.pairwise_singleton .., ?_⟩
      intro u hu v hv
      rw [List.mem_singleton.1 hv]
      exact hcommutes u hu
    · rw [hbehind, hm, List.map_append, Store.after_append, ← h.machine]
      rfl
    · rw [hbehind, hc]
      intro u hu kept hl
      rw [ResponseCache.lookup_record] at hl
      split at hl
      · rename_i hid
        have hnone : r.cache.lookup e.client e.seq = none := hx.2.2.2
        have hsame : u.id = e.id := by rw [LogEntry.id, LogEntry.id, hid.1, hid.2]
        rw [hnone] at hl
        rw [← Option.some.inj hl, hsame]
        exact h.answer_alone he hcommutes
      · rename_i hid
        rcases List.mem_append.1 hu with hu | hu
        · exact h.cached u hu kept hl
        · rw [List.mem_singleton.1 hu] at hid
          exact absurd ⟨rfl, rfl⟩ hid
  · exact absurd hx (hidle e)

/-- **One step of speculation**: unless nothing waits any more, what waits was executed from the
    same state as before. -/
theorem speculates_perform {base : Store} {r : Replica Store} (h : r.Speculates command base)
    (hd : r.cache.Distinct) {now : Nat} {a : Action}
    (ha : ∀ e, a.entry? = some e → e.kind = .command → Carries e (command e.id))
    (hwaits : (r.perform now a).2.unsynced ≠ []) : (r.perform now a).2.Speculates command base := by
  cases r.perform_settles now a with
  | waits idle same led        => exact h.waits hd idle same led
  | joins e executed behind led =>
      exact h.joins executed (ha e executed.1 executed.2.1) behind led
  | drains empty told led      => exact absurd empty hwaits
  | drops idle led lost empty  => exact absurd empty hwaits

/-- The commands that a run asks for carry one command of the store for each name. -/
def Names (command : RequestId → Command) (acts : List (Nat × Action)) : Prop :=
  ∀ x ∈ acts, ∀ e, Action.entry? x.2 = some e → e.kind = .command → Carries e (command e.id)

/-- Along every run, what waits was executed from the state of the last moment at which nothing
    waited. -/
theorem speculates_run {r₀ : Replica Store} (hd : r₀.cache.Distinct) (hnew : r₀.unsynced = [])
    {acts : List (Nat × Action)} (hacts : Names command acts) :
    ∃ before since, acts = before ++ since ∧ r₀.LastSettled before since ∧
      (r₀.run acts).Speculates command (r₀.run before).machine := by
  induction acts using List.reverseRecOn with
  | nil => exact ⟨[], [], rfl, lastSettled_of_settled hnew, speculates_of_settled hnew⟩
  | append_singleton acts x ih =>
      by_cases hempty : (r₀.run (acts ++ [x])).unsynced = []
      · exact ⟨acts ++ [x], [], (List.append_nil _).symm, lastSettled_of_settled hempty,
          speculates_of_settled hempty⟩
      · have hprefix : Names command acts := fun y hy => hacts y (List.mem_append_left _ hy)
        have hx := hacts x (List.mem_append_right _ (List.mem_singleton_self x))
        obtain ⟨before, since, rfl, hlast, h⟩ := ih hprefix
        rw [run_append] at hempty ⊢
        refine ⟨before, since ++ [x], List.append_assoc .., hlast.concat ?_, ?_⟩
        · rw [← List.append_assoc, run_append]
          exact hempty
        · exact speculates_perform h (distinct_run hd _).1 hx hempty

-- ── Any other order ──────────────────────────────────────────────────────────────────────────────

/-- Any other order of what waits leads to the same map and counter. -/
theorem Speculates.view_of_perm {base : Store} {r : Replica Store} (h : r.Speculates command base)
    {us : List LogEntry} (hperm : us.Perm r.unsynced) :
    (base.after (us.map (·.data))).view = r.machine.view := by
  have hus : ∀ u ∈ us, Carries u (command u.id) := fun u hu => h.carries u (hperm.mem_iff.1 hu)
  rw [h.machine, view_after_entries h.carries, view_after_entries hus]
  refine (Command.foldl_effect_perm (pairwise_apart h.carries h.commuting) ?_ base.view).symm
  exact (hperm.map _).symm

/-- In any other order a command is answered as is cached for it, if an answer still is. -/
theorem Speculates.response_of_perm {base : Store} {r : Replica Store}
    (h : r.Speculates command base) {us : List LogEntry} (hperm : us.Perm r.unsynced) :
    ∀ p ∈ us.zip (base.replay (us.map (·.data))), ∀ kept,
      r.cache.lookup p.1.client p.1.seq = some kept → kept.response = p.2 := by
  have hus : ∀ u ∈ us, Carries u (command u.id) := fun u hu => h.carries u (hperm.mem_iff.1 hu)
  have hcommuting : us.Pairwise fun u v => u.commutesWith v = true := by
    refine (hperm.pairwise_iff ?_).2 h.commuting
    intro u v huv
    rw [LogEntry.commutesWith_comm]
    exact huv
  rw [zip_replay_entries hus hcommuting]
  intro p hp kept hl
  obtain ⟨u, hu, rfl⟩ := List.mem_map.1 hp
  exact h.cached u (hperm.mem_iff.1 hu) kept hl

/-- After a run, what waits is what only a leader may let wait, and could have been executed in any
    order. -/
structure OrderInsensitive (r₀ : Replica Store) (acts : List (Nat × Action)) : Prop where
  led       : (r₀.run acts).isLeader = false → (r₀.run acts).unsynced = []
  commands  : ∀ u ∈ (r₀.run acts).unsynced, u.kind = .command
  commuting : (r₀.run acts).unsynced.Pairwise fun u v => u.commutesWith v = true
  /-- In any order `us` of what waits, from the state when nothing waited for the last time: the
      same map, the same counter, and to every command the answer that is cached for it, if one
      still is. -/
  replays   : ∃ before since, acts = before ++ since ∧ r₀.LastSettled before since ∧
    ∀ us : List LogEntry, us.Perm (r₀.run acts).unsynced →
      ((r₀.run before).machine.after (us.map (·.data))).view = (r₀.run acts).machine.view ∧
      ∀ p ∈ us.zip ((r₀.run before).machine.replay (us.map (·.data))), ∀ kept,
        (r₀.run acts).cache.lookup p.1.client p.1.seq = some kept → kept.response = p.2

/-- **Speculation does not depend on the order**: in every run of a replica over the key-value
    store, from any state of the store, that asks for one command under each name. -/
theorem speculation_order_insensitive (me : Address) (leader : Option Address) (term : Term)
    (machine : Store) (retention : Nat) {command : RequestId → Command}
    {acts : List (Nat × Action)} (hacts : Names command acts) :
    OrderInsensitive (start me leader term machine retention) acts := by
  have hd : (start me leader term machine retention).cache.Distinct :=
    ResponseCache.distinct_empty retention
  have hnew : (start me leader term machine retention).unsynced = [] := rfl
  generalize start me leader term machine retention = r₀ at hd hnew ⊢
  obtain ⟨before, since, hsplit, hlast, h⟩ := speculates_run hd hnew hacts
  constructor
  · intro hfollows
    by_contra hne
    rw [h.led hne] at hfollows
    cases hfollows
  · exact h.kind
  · exact h.commuting
  · refine ⟨before, since, hsplit, hlast, ?_⟩
    intro us hperm
    exact ⟨h.view_of_perm hperm, h.response_of_perm hperm⟩

/-- The law at a text that is set and an increment, both of which wait, after the answer to the
    first was swept. -/
theorem speculation_after_sweep :
    let me : Address := ⟨"m0"⟩
    let command : RequestId → Command := fun id => if id.seq.val = 1 then .set "a" "1" else .inc
    let e : LogEntry := (command ⟨⟨1⟩, ⟨1⟩⟩).entry ⟨⟨1⟩, ⟨1⟩⟩
    let f : LogEntry := (command ⟨⟨1⟩, ⟨2⟩⟩).entry ⟨⟨1⟩, ⟨2⟩⟩
    let acts : List (Nat × Action) :=
      [(0, .request (.command e)), (1, .request (.command f)), (5, .evict)]
    let r₀ := start me (some me) ⟨1⟩ ({} : Store) 5
    Names command acts ∧
      (r₀.run acts).unsynced = [e, f] ∧ (r₀.run acts).cache.lookup e.client e.seq = none ∧
      OrderInsensitive r₀ acts := by
  intro me command e f acts r₀
  have he : Carries e (command e.id) := ⟨rfl, rfl, by decide⟩
  have hf : Carries f (command f.id) := ⟨rfl, rfl, by decide⟩
  have hacts : Names command acts := by
    intro x hx u hu _
    rcases List.mem_cons.1 hx with rfl | hx
    · rw [← Option.some.inj hu]
      exact he
    rcases List.mem_cons.1 hx with rfl | hx
    · rw [← Option.some.inj hu]
      exact hf
    · rw [List.mem_singleton.1 hx] at hu
      exact nomatch hu
  have hlaw := speculation_order_insensitive me (some me) ⟨1⟩ {} 5 hacts
  exact ⟨hacts, by decide, by decide, hlaw⟩

end Replica

end WitnessReplication

import Mathlib.Data.List.Induction
import Mathlib.Data.List.Nodup
import WitnessReplication.Proofs.ClusterRuns
import WitnessReplication.Proofs.Durability

/-!
# Executions — the commands that a replica's machine was really given, by their names

    The log of a machine has payloads and answers, and no names.  But an action executes one command
    at most, the one that it asks for.  So the executions of a run can be read off the log, each
    with the whole entry that it was for, and together they are the log.

    A replica that never forgets an answer remembers all of them.  It holds an answer under a name
    exactly if the machine gave that answer to an entry of this name in the run, and so no name is
    executed twice.  Sweeps alone make a replica forget, and only if they come late enough.

* **`Replica.executed?`** and **`Replica.executions`** — what one action executes; what a run does.
* **`calls_run`** — together they are the log.
* **`Forgets`** — an action after which an answer is gone.
* **`remembers_run`** — the law of a replica that never forgets.
-/

namespace WitnessReplication

namespace Replica

variable {σ : Type} [StateMachine σ] {r r₀ : Replica (Logged σ)} {now : Nat} {a : Action}
  {e : LogEntry} {answer : Bytes}

/-! ## One action -/

/-- The command that an action makes the machine execute, with the answer that the machine gives:
    the one it asks for, if the log of the machine grows. -/
def executed? (r : Replica (Logged σ)) (now : Nat) (a : Action) : Option (LogEntry × Bytes) :=
  match a.entry?, (r.perform now a).2.machine.calls.drop r.machine.calls.length with
  | some e, (_, answer) :: _ => some (e, answer)
  | _, _                     => none

/-- What one call of the machine adds to its log. -/
theorem executed?_of_calls (ha : a.entry? = some e)
    (hcalls : (r.perform now a).2.machine.calls = r.machine.calls ++ [(e.data, answer)]) :
    r.executed? now a = some (e, answer) := by
  rw [executed?, ha, hcalls, List.drop_left]

/-- Where the log does not grow nothing is executed. -/
theorem executed?_of_idle (hcalls : (r.perform now a).2.machine.calls = r.machine.calls) :
    r.executed? now a = none := by
  rw [executed?, hcalls, List.drop_length]
  cases a.entry? <;> rfl

/-- What an action does to the log and the cache, by what it executes. -/
inductive Accounts (r : Replica (Logged σ)) (now : Nat) (a : Action) : Prop where
  | executes (e : LogEntry) (answer : Bytes) (now' : Nat)
      (executed : r.executed? now a = some (e, answer))
      (executes : r.Executes a e)
      (calls : (r.perform now a).2.machine.calls = r.machine.calls ++ [(e.data, answer)])
      (cache : (r.perform now a).2.cache = (r.cache.record now' e.client e.seq answer).2)
  | idles (executed : r.executed? now a = none) (machine : (r.perform now a).2.machine = r.machine)
      (cache : a ≠ .evict → (r.perform now a).2.cache = r.cache)

theorem perform_accounts (r : Replica (Logged σ)) (now : Nat) (a : Action) : r.Accounts now a := by
  rcases perform_cases r now a with ⟨e, hx, hm, hc⟩ | ⟨_, hm, hc⟩
  · have hcalls := Logged.execute_calls r.machine e.data
    rw [← hm] at hcalls
    exact .executes e _ now (executed?_of_calls hx.1 hcalls) hx hcalls hc
  · refine .idles (executed?_of_idle (by rw [hm])) hm fun hne => ?_
    rw [hc, if_neg hne]

/-! ## Runs -/

/-- The commands that the machine executes in the course of some actions, with its answers, the
    first one first. -/
def executions (r : Replica (Logged σ)) : List (Nat × Action) → List (LogEntry × Bytes)
  | []               => []
  | (now, a) :: rest => (r.executed? now a).toList ++ (r.perform now a).2.executions rest

theorem executions_append (r : Replica (Logged σ)) (xs ys : List (Nat × Action)) :
    r.executions (xs ++ ys) = r.executions xs ++ (r.run xs).executions ys := by
  induction xs generalizing r with
  | nil          => rfl
  | cons x xs ih =>
      show (r.executed? x.1 x.2).toList ++ _ = ((r.executed? x.1 x.2).toList ++ _) ++ _
      rw [List.append_assoc]
      exact congrArg _ (ih _)

theorem executions_concat (r : Replica (Logged σ)) (acts : List (Nat × Action)) (now : Nat)
    (a : Action) :
    r.executions (acts ++ [(now, a)]) =
      r.executions acts ++ ((r.run acts).executed? now a).toList := by
  rw [executions_append]
  show _ ++ (((r.run acts).executed? now a).toList ++ []) = _
  rw [List.append_nil]

/-- **The executions of a run are the log of the machine.** -/
theorem calls_run (r : Replica (Logged σ)) (acts : List (Nat × Action)) :
    (r.run acts).machine.calls =
      r.machine.calls ++ (r.executions acts).map fun x => (x.1.data, x.2) := by
  induction acts generalizing r with
  | nil           => exact (List.append_nil _).symm
  | cons x acts ih =>
      obtain ⟨now, a⟩ := x
      rw [run_cons, ih, executions, List.map_append, ← List.append_assoc]
      congr 1
      cases r.perform_accounts now a with
      | executes e answer _ executed _ calls _ => rw [executed, calls]; rfl
      | idles executed machine _               => rw [executed, machine]; simp

/-- Whatever is executed was asked for. -/
theorem asked_of_executed {acts : List (Nat × Action)} (h : (e, answer) ∈ r.executions acts) :
    ∃ x ∈ acts, Action.entry? x.2 = some e := by
  induction acts generalizing r with
  | nil           => exact nomatch h
  | cons x acts ih =>
      rcases List.mem_append.1 h with h | h
      · refine ⟨x, List.mem_cons_self .., ?_⟩
        cases r.perform_accounts x.1 x.2 with
        | executes e' answer' _ executed executes _ _ =>
            rw [executed] at h
            obtain ⟨rfl, rfl⟩ := Prod.mk.inj (Option.some.inj (Option.mem_toList.1 h))
            exact executes.1
        | idles executed _ _                          =>
            rw [executed] at h
            exact nomatch h
      · obtain ⟨y, hy, he⟩ := ih h
        exact ⟨y, List.mem_cons_of_mem _ hy, he⟩

/-! ## What is remembered -/

/-- An action that makes the replica forget an answer. -/
def Forgets (r : Replica σ) (now : Nat) (a : Action) : Prop :=
  ∃ id data, r.Holds id data ∧ ¬ (r.perform now a).2.Holds id data

theorem holds_of_not_forgets {r : Replica σ} (h : ¬ r.Forgets now a) {id : RequestId} {data : Bytes}
    (hheld : r.Holds id data) : (r.perform now a).2.Holds id data :=
  Classical.byContradiction fun hno => h ⟨id, data, hheld, hno⟩

/-- A replica stands by its replies as long as it does not forget. -/
theorem StandsBy.of_not_forgets {r : Replica σ} {q : Request} {reply : Reply}
    (h : r.StandsBy q reply) (hkept : ¬ r.Forgets now a) : (r.perform now a).2.StandsBy q reply :=
  fun f hf hk hacc => holds_of_not_forgets hkept (h f hf hk hacc)

/-- Only a sweep makes a replica forget. -/
theorem not_forgets_of_ne_evict {r : Replica σ} (hd : r.cache.Distinct) (ha : a ≠ .evict) :
    ¬ r.Forgets now a := by
  rintro ⟨id, data, hheld, hno⟩
  obtain ⟨kept, hl, hdata⟩ := Option.map_eq_some_iff.1 hheld
  refine hno ?_
  rw [Holds, lookup_perform hd hl now a fun hev => absurd hev ha, Option.map_some, hdata]

theorem not_forgets_run {r : Replica σ} (hd : r.cache.Distinct) {acts : List (Nat × Action)}
    (hacts : ∀ x ∈ acts, x.2 ≠ .evict) : ¬ Occurs Forgets r acts := by
  induction acts generalizing r with
  | nil            => exact id
  | cons x acts ih =>
      rintro (hforgets | hrest)
      · exact not_forgets_of_ne_evict hd (hacts x (List.mem_cons_self ..)) hforgets
      · have hacts' : ∀ y ∈ acts, y.2 ≠ .evict := fun y hy => hacts y (List.mem_cons_of_mem _ hy)
        exact ih (distinct_perform hd x.1 x.2).1 hacts' hrest

/-- A sweep adds nothing to what is held. -/
theorem holds_of_evict {r : Replica σ} (hd : r.cache.Distinct) {id : RequestId} {data : Bytes}
    (h : (r.perform now .evict).2.Holds id data) : r.Holds id data := by
  have h' : ((r.cache.evict now).2.lookup id.client id.seq).map (·.response) = some data := h
  rw [ResponseCache.lookup_evict hd] at h'
  obtain ⟨kept, hl, hdata⟩ := Option.map_eq_some_iff.1 h'
  rw [Holds, (Option.filter_eq_some_iff.1 hl).1, Option.map_some, hdata]

/-- What a replica remembers of some executions: no two are under one name, and the answers that it
    holds are theirs. -/
structure Remembers (r : Replica (Logged σ)) (xs : List (LogEntry × Bytes)) : Prop where
  distinct : (xs.map fun x => x.1.id).Nodup
  holds    : ∀ id data, r.Holds id data ↔ ∃ e, e.id = id ∧ (e, data) ∈ xs

omit [StateMachine σ] in
/-- Once an answer is cached under a name that had none, it is held beside all others. -/
theorem holds_of_record {r' : Replica (Logged σ)} {now' : Nat}
    (hnew : r.cache.lookup e.client e.seq = none)
    (hcache : r'.cache = (r.cache.record now' e.client e.seq answer).2) (id : RequestId)
    (data : Bytes) : r'.Holds id data ↔ r.Holds id data ∨ (e.id = id ∧ answer = data) := by
  rw [Holds, Holds, hcache, ResponseCache.lookup_record]
  by_cases hid : e.id = id
  · subst hid
    have hold : ¬ (r.cache.lookup e.id.client e.id.seq).map (·.response) = some data := by
      intro hdata
      obtain ⟨kept, hl, _⟩ := Option.map_eq_some_iff.1 hdata
      exact Option.some_ne_none kept (hl.symm.trans hnew)
    rw [if_pos ⟨rfl, rfl⟩, hnew]
    show some answer = some data ↔ _
    constructor
    · intro hdata
      exact Or.inr ⟨rfl, Option.some.inj hdata⟩
    · rintro (hdata | ⟨_, rfl⟩)
      · exact absurd hdata hold
      · rfl
  · rw [if_neg]
    · exact ⟨Or.inl, fun hor => hor.resolve_right fun hx => hid hx.1⟩
    · rintro ⟨hclient, hseq⟩
      exact hid (by rw [LogEntry.id, hclient, hseq])

/-- An action adds to what is remembered what it executes. -/
theorem Remembers.perform {xs : List (LogEntry × Bytes)} (h : r.Remembers xs)
    (hd : r.cache.Distinct) (hkept : ¬ r.Forgets now a) :
    (r.perform now a).2.Remembers (xs ++ (r.executed? now a).toList) := by
  cases r.perform_accounts now a with
  | idles executed machine cache                       =>
      have hsame : ∀ id data, (r.perform now a).2.Holds id data ↔ r.Holds id data := by
        intro id data
        refine ⟨fun hheld => ?_, holds_of_not_forgets hkept⟩
        by_cases ha : a = .evict
        · subst ha
          exact holds_of_evict hd hheld
        · rw [Holds, cache ha] at hheld
          exact hheld
      rw [executed]
      refine ⟨by simpa using h.distinct, fun id data => ?_⟩
      rw [hsame, h.holds]
      simp
  | executes e answer now' executed executes calls cache =>
      have hnew := executes.2.2.2
      rw [executed]
      refine ⟨?distinct, fun id data => ?holds⟩
      case distinct =>
        -- a command is executed only if no answer is held under its name
        show ((xs ++ [(e, answer)]).map fun x => x.1.id).Nodup
        rw [List.map_append]
        refine List.nodup_append'.2 ⟨h.distinct, List.nodup_singleton _, ?_⟩
        intro id hid hid'
        obtain rfl := List.mem_singleton.1 hid'
        obtain ⟨⟨f, data⟩, hf, hfe⟩ := List.mem_map.1 hid
        have hheld := Option.map_eq_some_iff.1 ((h.holds e.id data).2 ⟨f, hfe, hf⟩)
        obtain ⟨kept, hl, _⟩ := hheld
        exact Option.some_ne_none kept (hl.symm.trans hnew)
      case holds =>
        rw [holds_of_record hnew cache, h.holds]
        simp only [Option.toList_some, List.mem_append, List.mem_singleton, Prod.mk.injEq]
        constructor
        · rintro (⟨f, hid, hf⟩ | ⟨hid, rfl⟩)
          · exact ⟨f, hid, Or.inl hf⟩
          · exact ⟨e, hid, Or.inr ⟨rfl, rfl⟩⟩
        · rintro ⟨f, hid, hf | ⟨rfl, rfl⟩⟩
          · exact Or.inl ⟨f, hid, hf⟩
          · exact Or.inr ⟨hid, rfl⟩

/-- **A replica that never forgets remembers all that it has executed**, if it begins with an empty
    cache. -/
theorem remembers_run (hd : r₀.cache.Distinct)
    (hempty : ∀ client seq, r₀.cache.lookup client seq = none) {acts : List (Nat × Action)}
    (hkept : ¬ Occurs Forgets r₀ acts) : (r₀.run acts).Remembers (r₀.executions acts) := by
  induction acts using List.reverseRecOn with
  | nil                     =>
      refine ⟨List.nodup_nil, fun id data => ?_⟩
      rw [run_nil, Holds, hempty]
      constructor
      · intro h
        cases h
      · rintro ⟨_, _, h⟩
        cases h
  | append_singleton acts x ih =>
      obtain ⟨now, a⟩ := x
      rw [occurs_concat, not_or] at hkept
      rw [executions_concat, run_append]
      exact (ih hkept.1).perform (distinct_run hd acts).1 hkept.2

omit [StateMachine σ] in
/-- Among executions that are remembered an entry is the only one of its name. -/
theorem Remembers.filter_eq {xs : List (LogEntry × Bytes)} (h : r.Remembers xs)
    (hmem : (e, answer) ∈ xs) : xs.filter (fun x => x.1.id = e.id) = [(e, answer)] := by
  obtain ⟨before, after, rfl⟩ := List.append_of_mem hmem
  have hdistinct := h.distinct
  rw [List.map_append, List.map_cons, List.nodup_append'] at hdistinct
  obtain ⟨_, hafter, hapart⟩ := hdistinct
  have hnone : ∀ ys : List (LogEntry × Bytes), e.id ∉ ys.map (fun x => x.1.id) →
      ys.filter (fun x => x.1.id = e.id) = [] := by
    intro ys hys
    rw [List.filter_eq_nil_iff]
    intro x hx hid
    exact hys (of_decide_eq_true hid ▸ List.mem_map_of_mem hx)
  rw [List.filter_append, List.filter_cons_of_pos (by simp),
    hnone after (List.nodup_cons.1 hafter).1,
    hnone before fun hid => hapart hid (List.mem_cons_self ..)]
  rfl

/-- Who does not lead leaves the machine alone. -/
theorem machine_perform {r : Replica σ} (hr : r.isLeader = false) (now : Nat) (a : Action) :
    (r.perform now a).2.machine = r.machine := by
  rcases perform_cases r now a with ⟨e, hx, _, _⟩ | ⟨_, hm, _⟩
  · rw [hx.2.2.1] at hr
    exact nomatch hr
  · exact hm

end Replica

end WitnessReplication

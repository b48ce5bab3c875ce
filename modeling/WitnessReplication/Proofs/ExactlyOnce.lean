import Mathlib.Data.List.Induction
import Mathlib.Tactic.ByContra
import WitnessReplication.Proofs.LoggedMachine

/-!
# Exactly once — a command is executed again only after its answer was swept away

    Two ways lead to an execution, a command request and a sync, and both ask the response cache
    first.  Leadership may go and come back between any two deliveries, the clock may jump, and the
    cache may be swept.  What holds everything together is that the cache remembers the history:

        an answer is cached under a name if and only if the machine gave it to a command of that
        name, at the moment kept with it, and no sweep since then was old enough to drop it.

* **`lookup_run_of_fresh`** — forwards: a cached answer outlives every run without such a sweep.
* **`lookup_traced`** — backwards: every cached answer comes from a call in the run.
* **`exactly_once`** — the law that follows for every run, over every machine.
-/

namespace WitnessReplication

namespace Replica

variable {σ : Type} [StateMachine σ]

/-- No sweep among some actions reads a clock that is `retention` or more past a moment. -/
def NoSweepFrom (moment : Nat) (acts : List (Nat × Action)) : Prop :=
  ∀ s, (s, Action.evict) ∈ acts → s < moment

/-! ## Forwards -/

/-- A cached answer is still there after a run in which no sweep comes when it is old enough. -/
theorem lookup_run_of_fresh {r : Replica σ} (h : r.cache.Distinct) (hpos : 0 < r.cache.retention)
    {client : ClientId} {seq : SeqNo} {kept : CachedResponse}
    (hl : r.cache.lookup client seq = some kept) {acts : List (Nat × Action)}
    (hacts : NoSweepFrom (kept.createdAt + r.cache.retention) acts) :
    (r.run acts).cache.lookup client seq = some kept := by
  induction acts generalizing r with
  | nil          => exact hl
  | cons x acts ih =>
      obtain ⟨now, a⟩ := x
      obtain ⟨hd, hret⟩ := distinct_perform h now a
      have hfresh : a = .evict → r.cache.isFresh now kept = true := by
        rintro rfl
        exact ResponseCache.isFresh_of_lt hpos (hacts now (List.mem_cons_self ..))
      refine ih hd ?_ (lookup_perform h hl now a hfresh) ?_
      · rw [hret]
        exact hpos
      · rw [hret]
        intro s hs
        exact hacts s (List.mem_cons_of_mem _ hs)

/-- A call leaves its answer in the cache, with the moment of the call. -/
theorem lookup_of_calls {r : Replica (Logged σ)} {now : Nat} {a : Action} {id : RequestId}
    {answer : Bytes} (h : r.Calls now a id answer) :
    (r.perform now a).2.cache.lookup id.client id.seq = some ⟨answer, now⟩ := by
  obtain ⟨e, ⟨ha, hk, hr, hl⟩, rfl, rfl⟩ := calls_iff.1 h
  obtain ⟨_, _, _, _, _, hc⟩ := perform_entry ha hr now
  rw [hc, applyOnce_fresh hk hl]
  show (r.cache.record now e.client e.seq _).2.lookup e.client e.seq = _
  rw [ResponseCache.lookup_record, if_pos ⟨rfl, rfl⟩, hl, Option.getD_none]
  rfl

/-! ## Backwards -/

/-- Every cached answer was given by the machine in the run, at the moment kept with it, and no
    sweep since then came when it was old enough. -/
theorem lookup_traced {r₀ : Replica (Logged σ)} (h₀ : r₀.cache.Distinct)
    (hempty : ∀ client seq, r₀.cache.lookup client seq = none) {id : RequestId}
    {kept : CachedResponse} {acts : List (Nat × Action)}
    (hl : (r₀.run acts).cache.lookup id.client id.seq = some kept) :
    ∃ before a after, acts = before ++ (kept.createdAt, a) :: after ∧
      (r₀.run before).Calls kept.createdAt a id kept.response ∧
      NoSweepFrom (kept.createdAt + r₀.cache.retention) after := by
  induction acts using List.reverseRecOn generalizing kept with
  | nil                  =>
      rw [run_nil, hempty] at hl
      exact nomatch hl
  | append_singleton acts x ih =>
      obtain ⟨now, a⟩ := x
      obtain ⟨hd, hret⟩ := distinct_run h₀ acts
      rw [run_append, run_cons, run_nil] at hl
      -- an answer that was there before has its call before; the action only follows it
      have hold : (r₀.run acts).cache.lookup id.client id.seq = some kept →
          (a = .evict → now < kept.createdAt + r₀.cache.retention) →
          ∃ before b after, acts ++ [(now, a)] = before ++ (kept.createdAt, b) :: after ∧
            (r₀.run before).Calls kept.createdAt b id kept.response ∧
            NoSweepFrom (kept.createdAt + r₀.cache.retention) after := by
        intro hbefore hnow
        obtain ⟨before, b, after, rfl, hcalls, hsweep⟩ := ih hbefore
        refine ⟨before, b, after ++ [(now, a)], by simp, hcalls, ?_⟩
        intro s hs
        rcases List.mem_append.1 hs with hs | hs
        · exact hsweep s hs
        · have hx := List.mem_singleton.1 hs
          have hs' : s = now := congrArg Prod.fst hx
          rw [hs']
          exact hnow (congrArg Prod.snd hx).symm
      rcases perform_cases (r₀.run acts) now a with ⟨e, hx, _, hc⟩ | ⟨_, _, hc⟩
      · rw [hc, ResponseCache.lookup_record] at hl
        have hne : a ≠ .evict := by
          rintro rfl
          exact nomatch hx.1
        split at hl
        · rename_i hid
          obtain ⟨hcl, hsq⟩ := hid
          rw [hx.2.2.2, Option.getD_none] at hl
          obtain rfl := Option.some.inj hl
          refine ⟨acts, a, [], rfl, calls_iff.2 ⟨e, hx, ?_, rfl⟩, ?_⟩
          · rw [LogEntry.id, hcl, hsq]
          · intro s hs
            exact absurd hs (List.not_mem_nil)
        · exact hold hl fun he => absurd he hne
      · rw [hc] at hl
        by_cases hev : a = .evict
        · rw [if_pos hev, ResponseCache.lookup_evict hd] at hl
          obtain ⟨hbefore, hfresh⟩ := Option.filter_eq_some_iff.1 hl
          refine hold hbefore fun _ => ?_
          rw [ResponseCache.isFresh, decide_eq_true_eq, hret] at hfresh
          omega
        · rw [if_neg hev] at hl
          exact hold hl fun he => absurd he hev

/-! ## The law -/

/-- What it means that commands are executed exactly once along every run from a replica. -/
structure ExactlyOnce (r₀ : Replica (Logged σ)) : Prop where
  /-- The machine is called only while the replica leads, and only for the command it is asked to
      execute, once. -/
  led : ∀ acts now a,
    ((r₀.run acts).perform now a).2.machine.calls ≠ (r₀.run acts).machine.calls →
    (r₀.run acts).isLeader = true ∧ ∃ id answer, (r₀.run acts).Calls now a id answer
  /-- The first call caches its answer, and before a second call under the same name there is a
      sweep that reads a clock `retention` or more past the moment kept with that answer. -/
  swept : ∀ before t a between t' a' id x y,
    (r₀.run before).Calls t a id x →
    (r₀.run (before ++ (t, a) :: between)).Calls t' a' id y →
    ∃ kept, (r₀.run (before ++ [(t, a)])).cache.lookup id.client id.seq = some kept ∧
      ∃ s, (s, Action.evict) ∈ between ∧ kept.createdAt + r₀.cache.retention ≤ s
  /-- A reply at the call itself carries the answer. -/
  direct : ∀ acts t a id x y,
    (r₀.run acts).Calls t a id x → (r₀.run acts).Replies t a id y → y = x
  /-- A reply after a call carries the call's answer, if no such sweep lies between. -/
  repeated : ∀ before t a between t' a' id x y,
    (r₀.run before).Calls t a id x →
    NoSweepFrom (t + r₀.cache.retention) between →
    (r₀.run (before ++ (t, a) :: between)).Replies t' a' id y → y = x
  /-- Every reply carries the answer of a call, made by this very action or by an earlier one with
      no such sweep between. -/
  founded : ∀ acts t a id y, (r₀.run acts).Replies t a id y →
    (r₀.run acts).Calls t a id y ∨
    ∃ before t' a' between, acts = before ++ (t', a') :: between ∧
      (r₀.run before).Calls t' a' id y ∧ NoSweepFrom (t' + r₀.cache.retention) between
  /-- Two replies carry the same answer, if no sweep between them could drop it. -/
  agree : ∀ before t a between t' a' id x y kept,
    (r₀.run before).Replies t a id x →
    (r₀.run (before ++ [(t, a)])).cache.lookup id.client id.seq = some kept →
    NoSweepFrom (kept.createdAt + r₀.cache.retention) between →
    (r₀.run (before ++ (t, a) :: between)).Replies t' a' id y → y = x

/-- Going on from a state in the middle of a run. -/
private theorem run_middle (r₀ : Replica σ) (before : List (Nat × Action)) (t : Nat) (a : Action)
    (between : List (Nat × Action)) :
    r₀.run (before ++ (t, a) :: between) = (r₀.run (before ++ [(t, a)])).run between := by
  rw [← run_append, List.append_assoc]
  rfl

/-- The state right after an action in a run. -/
private theorem run_last (r₀ : Replica σ) (before : List (Nat × Action)) (t : Nat) (a : Action) :
    r₀.run (before ++ [(t, a)]) = ((r₀.run before).perform t a).2 := by
  rw [run_append]
  rfl

/-- **Exactly-once execution**: over every machine, for every replica with an empty cache of
    non-zero retention, along every run. -/
theorem exactly_once (me : Address) (leader : Option Address) (term : Term) (machine : σ)
    (retention : Nat) (hpos : 0 < retention) :
    ExactlyOnce (start me leader term (Logged.mk machine []) retention) := by
  have h₀ : (start me leader term (Logged.mk machine []) retention).cache.Distinct :=
    ResponseCache.distinct_empty retention
  have hempty : ∀ client seq,
      (start me leader term (Logged.mk machine []) retention).cache.lookup client seq = none :=
    fun _ _ => rfl
  have hret : (start me leader term (Logged.mk machine []) retention).cache.retention =
      retention := rfl
  generalize start me leader term (Logged.mk machine []) retention = r₀ at h₀ hempty hret
  -- what a run has cached stays cached through whatever follows without a late sweep
  have hstays : ∀ (acts between : List (Nat × Action)) (id : RequestId) (kept : CachedResponse),
      (r₀.run acts).cache.lookup id.client id.seq = some kept →
      NoSweepFrom (kept.createdAt + r₀.cache.retention) between →
      ((r₀.run acts).run between).cache.lookup id.client id.seq = some kept := by
    intro acts between id kept hl hsweep
    obtain ⟨hd, hr⟩ := distinct_run h₀ acts
    refine lookup_run_of_fresh hd ?_ hl ?_
    · rw [hr, hret]
      exact hpos
    · rw [hr]
      exact hsweep
  refine ⟨?led, ?swept, ?direct, ?repeated, ?founded, ?agree⟩
  case led =>
    intro acts now a h
    exact calls_of_log_ne h
  case swept =>
    intro before t a between t' a' id x y hx hy
    have hl := lookup_of_calls hx
    rw [← run_last] at hl
    refine ⟨_, hl, ?_⟩
    by_contra hno
    have hsweep : NoSweepFrom (t + r₀.cache.retention) between := by
      intro s hs
      by_contra hle
      exact hno ⟨s, hs, Nat.le_of_not_lt hle⟩
    rw [run_middle] at hy
    exact not_calls_of_lookup (hstays _ _ _ _ hl hsweep) hy
  case direct =>
    intro acts t a id x y hx hy
    obtain ⟨kept, hl, rfl⟩ := lookup_of_replies hy
    rw [lookup_of_calls hx] at hl
    rw [← Option.some.inj hl]
  case repeated =>
    intro before t a between t' a' id x y hx hsweep hy
    have hl := lookup_of_calls hx
    rw [← run_last] at hl
    rw [run_middle] at hy
    exact reply_of_lookup hy (hstays _ _ _ _ hl hsweep)
  case founded =>
    intro acts t a id y hy
    cases hl : (r₀.run acts).cache.lookup id.client id.seq with
    | some kept =>
        right
        rw [reply_of_lookup hy hl]
        obtain ⟨before, b, after, hacts, hcalls, hsweep⟩ := lookup_traced h₀ hempty hl
        exact ⟨before, kept.createdAt, b, after, hacts, hcalls, hsweep⟩
    | none      =>
        left
        obtain ⟨e, ha, hk, rfl, hr, rfl⟩ := replies_iff.1 hy
        have hl' : (r₀.run acts).cache.lookup e.client e.seq = none := hl
        refine calls_iff.2 ⟨e, ⟨ha, hk, hr, hl'⟩, rfl, ?_⟩
        rw [applyOnce_fresh hk hl']
        rfl
  case agree =>
    intro before t a between t' a' id x y kept hx hl hsweep hy
    obtain ⟨kept', hl', rfl⟩ := lookup_of_replies hx
    rw [← run_last, hl] at hl'
    rw [run_middle] at hy
    rw [reply_of_lookup hy (hstays _ _ _ _ hl hsweep), Option.some.inj hl']

/-- The law at a run in which the answer is swept away between two deliveries of one command: the
    machine is called at both, and the sweep between them is as late as the law says. -/
theorem exactly_once_around_sweep :
    let me : Address := ⟨"m0"⟩
    let e : LogEntry := .command [7] [] ⟨1⟩ ⟨0⟩
    let ask : Action := .request (.command e)
    let r₀ := start me (some me) ⟨1⟩ (Logged.mk Echo.mk []) 5
    0 < 5 ∧ r₀.Calls 3 ask e.id [7] ∧
      (r₀.run [(3, ask), (8, .evict)]).Calls 2 ask e.id [7] ∧
      ∃ kept, (r₀.run [(3, ask)]).cache.lookup ⟨1⟩ ⟨0⟩ = some kept ∧
        ∃ s, (s, Action.evict) ∈ [(8, Action.evict)] ∧ kept.createdAt + 5 ≤ s := by
  intro me e ask r₀
  have hfirst : r₀.Calls 3 ask e.id [7] := ⟨e, rfl, rfl, rfl, by decide⟩
  have hsecond : (r₀.run [(3, ask), (8, .evict)]).Calls 2 ask e.id [7] :=
    ⟨e, rfl, rfl, rfl, by decide⟩
  exact ⟨by decide, hfirst, hsecond,
    (exactly_once me (some me) ⟨1⟩ Echo.mk 5 (by decide)).swept [] 3 ask [(8, .evict)] 2 ask e.id
      [7] [7] hfirst hsecond⟩

end Replica

end WitnessReplication

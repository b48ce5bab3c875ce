import WitnessReplication.Proofs.ReplicaRuns

/-!
# Logged machines — which commands a replica really executed

    That a command was executed cannot be read off a replica whose machine forgets.  So a machine is
    put into another one that logs every command it is given, with the answer.  The log is the only
    difference: a replica over the logged machine replies to everything what it replies over the
    plain one, and its machine inside goes through the same states.

* **`Logged`** — a machine with the log of its calls.
* **`perform_mapMachine`** and **`run_forget`** — the log changes nothing.
* **`Replica.Calls`** — an action at which the machine is called for a command.
* **`Replica.Replies`** — an action at which a command is answered successfully.
* **`calls_iff`**, **`replies_iff`** — when that is.
-/

namespace WitnessReplication

/-- A state machine that logs every command it is given, with what it answered. -/
structure Logged (σ : Type) where
  machine : σ
  calls   : List (Bytes × Bytes) := []

instance {σ : Type} [StateMachine σ] : StateMachine (Logged σ) where
  apply s command :=
    (⟨(StateMachine.apply s.machine command).1,
      s.calls ++ [(command, (StateMachine.execute s.machine command).2)]⟩,
      (StateMachine.apply s.machine command).2)

namespace Logged

variable {σ : Type} [StateMachine σ]

/-- Every call is logged. -/
theorem execute_calls (s : Logged σ) (command : Bytes) :
    (StateMachine.execute s command).1.calls =
      s.calls ++ [(command, (StateMachine.execute s.machine command).2)] := rfl

end Logged

namespace Replica

variable {σ τ : Type}

/-! ## The log changes nothing -/

/-- The replica with its machine's state seen through `f`. -/
def mapMachine (f : σ → τ) (r : Replica σ) : Replica τ where
  me         := r.me
  leader     := r.leader
  term       := r.term
  nextClient := r.nextClient
  machine    := f r.machine
  cache      := r.cache
  witness    := r.witness
  unsynced   := r.unsynced
  pending    := r.pending

@[simp] theorem mapMachine_unsynced (f : σ → τ) (r : Replica σ) :
    (r.mapMachine f).unsynced = r.unsynced := rfl

@[simp] theorem mapMachine_isLeader (f : σ → τ) (r : Replica σ) :
    (r.mapMachine f).isLeader = r.isLeader := rfl

theorem mapMachine_syncAll (f : σ → τ) (r : Replica σ) :
    (r.mapMachine f).syncAll = r.syncAll.mapMachine f := by
  rw [syncAll, syncAll, mapMachine_unsynced]
  split <;> rfl

theorem mapMachine_acknowledge (f : σ → τ) (r : Replica σ) (e : LogEntry) (again : Bool) :
    (r.mapMachine f).acknowledge e again =
      ((r.acknowledge e again).1, (r.acknowledge e again).2.mapMachine f) := by
  rw [acknowledge, acknowledge, mapMachine_unsynced, mapMachine_syncAll]
  split
  · rfl
  · split
    · rfl
    · split <;> rfl

section

variable [StateMachine σ] [StateMachine τ]

/-- A view of a machine that goes along with its steps and shows its answers. -/
def IsView (f : σ → τ) : Prop :=
  ∀ s command, StateMachine.apply (f s) command =
    (f (StateMachine.apply s command).1, (StateMachine.apply s command).2)

theorem mapMachine_applyOnce {f : σ → τ} (hf : IsView f) (r : Replica σ) (now : Nat)
    (e : LogEntry) :
    (r.mapMachine f).applyOnce now e = ((r.applyOnce now e).1, (r.applyOnce now e).2.mapMachine f) := by
  have hx : StateMachine.execute (f r.machine) e.data =
      (f (StateMachine.execute r.machine e.data).1, (StateMachine.execute r.machine e.data).2) := by
    rw [StateMachine.execute, hf]
    rfl
  cases hk : e.kind with
  | noop    =>
      rw [applyOnce_noop hk, applyOnce_noop hk]
  | command =>
      cases hl : r.cache.lookup e.client e.seq with
      | some kept =>
          have hl' : (r.mapMachine f).cache.lookup e.client e.seq = some kept := hl
          rw [applyOnce_cached hk hl, applyOnce_cached hk hl']
      | none      =>
          have hl' : (r.mapMachine f).cache.lookup e.client e.seq = none := hl
          rw [applyOnce_fresh hk hl, applyOnce_fresh hk hl']
          show (_, ({ r.mapMachine f with machine := _, cache := _ } : Replica τ)) = _
          simp only [mapMachine, hx]

/-- A replica over the view of a machine does what the replica over the machine does. -/
theorem perform_mapMachine {f : σ → τ} (hf : IsView f) (r : Replica σ) (now : Nat) (a : Action) :
    (r.mapMachine f).perform now a = ((r.perform now a).1, (r.perform now a).2.mapMachine f) := by
  cases a with
  | request q =>
      cases q with
      | clientId     =>
          cases hr : r.isLeader <;>
            simp only [perform, answer, clientIdReply, mapMachine_isLeader, hr] <;> rfl
      | command e    =>
          cases hr : r.isLeader with
          | true  =>
              simp only [perform, answer, commandReply, mapMachine_isLeader, hr,
                mapMachine_applyOnce hf, mapMachine_acknowledge]
              rfl
          | false =>
              simp only [perform, answer, commandReply, mapMachine_isLeader, hr]
              rfl
      | record e t   => rfl
      | sync e       =>
          cases hr : r.isLeader with
          | true  =>
              cases e with
              | none   =>
                  simp only [perform, answer, syncReply, mapMachine_isLeader, hr, mapMachine_syncAll]
                  rfl
              | some e =>
                  simp only [perform, answer, syncReply, mapMachine_isLeader, hr,
                    mapMachine_applyOnce hf, mapMachine_syncAll]
                  rfl
          | false =>
              simp only [perform, answer, syncReply, mapMachine_isLeader, hr]
              rfl
      | recoveryData => rfl
      | unfreeze     => rfl
      | witnessGc ss => rfl
  | lead leader term =>
      simp only [perform, lead, mapMachine_isLeader]
      by_cases h : (r.isLeader && !({ r with leader, term, witness := r.witness.setTerm term } :
          Replica σ).isLeader) = true
      · rw [if_pos h]
        exact congrArg (Prod.mk none) (if_pos h)
      · rw [if_neg h]
        exact congrArg (Prod.mk none) (if_neg h)
  | commit      => rw [perform, mapMachine_syncAll]; rfl
  | takePending => rfl
  | evict       => rfl

/-- A run over the view of a machine is the view of the run. -/
theorem run_mapMachine {f : σ → τ} (hf : IsView f) (r : Replica σ) (acts : List (Nat × Action)) :
    (r.mapMachine f).run acts = (r.run acts).mapMachine f := by
  induction acts generalizing r with
  | nil          => rfl
  | cons x xs ih =>
      rw [run, run, perform_mapMachine hf]
      exact ih _

end

variable [StateMachine σ]

/-- Whatever is done to a replica over a logged machine, the replica over the plain one goes the
    same way. -/
theorem run_forget (r : Replica (Logged σ)) (acts : List (Nat × Action)) :
    (r.mapMachine Logged.machine).run acts = (r.run acts).mapMachine Logged.machine :=
  run_mapMachine (fun _ _ => rfl) r acts

/-! ## Calls and replies -/

/-- An action at which the machine is called once, for a command of this name, and answers so. -/
def Calls (r : Replica (Logged σ)) (now : Nat) (a : Action) (id : RequestId) (answer : Bytes) :
    Prop :=
  ∃ e, a.entry? = some e ∧ e.kind = .command ∧ e.id = id ∧
    (r.perform now a).2.machine.calls = r.machine.calls ++ [(e.data, answer)]

/-- An action that is a request to execute a command of this name, and is answered successfully. -/
def Replies (r : Replica σ) (now : Nat) (a : Action) (id : RequestId) (data : Bytes) : Prop :=
  ∃ e reply, a.entry? = some e ∧ e.kind = .command ∧ e.id = id ∧
    (r.perform now a).1 = some reply ∧ reply.accepted = true ∧ reply.data = data

/-- The machine is called exactly when the leader is asked for a command that has no cached
    answer. -/
theorem calls_iff {r : Replica (Logged σ)} {now : Nat} {a : Action} {id : RequestId}
    {answer : Bytes} :
    r.Calls now a id answer ↔
      ∃ e, r.Executes a e ∧ e.id = id ∧
        answer = (StateMachine.execute r.machine.machine e.data).2 := by
  constructor
  · rintro ⟨e, ha, hk, hid, hcalls⟩
    rcases perform_cases r now a with ⟨e', hx, hm, _⟩ | ⟨_, hm, _⟩
    · obtain rfl : e = e' := Option.some.inj (ha.symm.trans hx.1)
      refine ⟨e, hx, hid, ?_⟩
      rw [hm, Logged.execute_calls] at hcalls
      have hlast := List.append_cancel_left hcalls
      exact (congrArg Prod.snd (List.cons.inj hlast).1).symm
    · -- a machine that is left alone has the log it had
      rw [hm] at hcalls
      exact absurd (congrArg List.length hcalls) (by simp)
  · rintro ⟨e, ⟨ha, hk, hr, hl⟩, hid, rfl⟩
    refine ⟨e, ha, hk, hid, ?_⟩
    obtain ⟨_, _, _, _, hm, _⟩ := perform_entry ha hr now
    rw [hm, applyOnce_fresh hk hl]
    exact Logged.execute_calls ..

/-- A name under which an answer is cached is not called. -/
theorem not_calls_of_lookup {r : Replica (Logged σ)} {now : Nat} {a : Action} {id : RequestId}
    {answer : Bytes} {kept : CachedResponse} (hl : r.cache.lookup id.client id.seq = some kept) :
    ¬ r.Calls now a id answer := by
  intro h
  obtain ⟨e, ⟨_, _, _, hnone⟩, rfl, _⟩ := calls_iff.1 h
  have hl' : r.cache.lookup e.client e.seq = some kept := hl
  rw [hl'] at hnone
  exact nomatch hnone

/-- An action changes the log only by a call for the command it asks for, and only at the leader. -/
theorem calls_of_log_ne {r : Replica (Logged σ)} {now : Nat} {a : Action}
    (h : (r.perform now a).2.machine.calls ≠ r.machine.calls) :
    r.isLeader = true ∧ ∃ id answer, r.Calls now a id answer := by
  rcases perform_cases r now a with ⟨e, hx, _, _⟩ | ⟨_, hm, _⟩
  · exact ⟨hx.2.2.1, e.id, _, calls_iff.2 ⟨e, hx, rfl, rfl⟩⟩
  · rw [hm] at h
    exact absurd rfl h

/-- A command is answered exactly by the leader, with what executing it comes to. -/
theorem replies_iff {r : Replica σ} {now : Nat} {a : Action} {id : RequestId} {data : Bytes} :
    r.Replies now a id data ↔
      ∃ e, a.entry? = some e ∧ e.kind = .command ∧ e.id = id ∧ r.isLeader = true ∧
        data = (r.applyOnce now e).1 := by
  constructor
  · rintro ⟨e, reply, ha, hk, hid, hreply, hacc, hdata⟩
    cases hr : r.isLeader with
    | true  =>
        obtain ⟨reply', hreply', _, hdata', _⟩ := perform_entry ha hr now
        obtain rfl : reply = reply' := Option.some.inj (hreply.symm.trans hreply')
        exact ⟨e, ha, hk, hid, rfl, hdata.symm.trans hdata'⟩
    | false =>
        obtain ⟨reply', hreply', hacc', _⟩ := perform_entry_refused ha hr now
        obtain rfl : reply = reply' := Option.some.inj (hreply.symm.trans hreply')
        rw [hacc] at hacc'
        exact nomatch hacc'
  · rintro ⟨e, ha, hk, hid, hr, rfl⟩
    obtain ⟨reply, hreply, hacc, hdata, _⟩ := perform_entry ha hr now
    exact ⟨e, reply, ha, hk, hid, hreply, hacc, hdata⟩

/-- A name under which an answer is cached is answered with it. -/
theorem reply_of_lookup {r : Replica σ} {now : Nat} {a : Action} {id : RequestId}
    {data : Bytes} (h : r.Replies now a id data) {kept : CachedResponse}
    (hl : r.cache.lookup id.client id.seq = some kept) : data = kept.response := by
  obtain ⟨e, _, hk, rfl, _, rfl⟩ := replies_iff.1 h
  rw [applyOnce_cached hk hl]

/-- Whoever answers a command has the answer cached from then on. -/
theorem lookup_of_replies {r : Replica σ} {now : Nat} {a : Action} {id : RequestId}
    {data : Bytes} (h : r.Replies now a id data) :
    ∃ kept, (r.perform now a).2.cache.lookup id.client id.seq = some kept ∧
      data = kept.response := by
  obtain ⟨e, ha, hk, rfl, hr, rfl⟩ := replies_iff.1 h
  obtain ⟨_, _, _, _, _, hc⟩ := perform_entry ha hr now
  rw [hc]
  exact lookup_applyOnce hk now

end Replica

end WitnessReplication

import WitnessReplication.Proofs.CacheLaws
import WitnessReplication.Replica

/-!
# Replica runs — what happens to a replica, one action after the other

    A replica is driven from outside: requests arrive, leadership moves, what is unsynced is
    committed, the names of synced commands are taken away, the response cache is swept.  Each of
    these is an action, done at a moment that a clock tells; nothing is assumed of the clock, so
    that it may also go back.

* **`Replica.perform`** and **`Replica.run`** — one action; a list of them.
* **`perform_entry`** — all that a request to execute does to the machine and the cache.
* **`perform_cases`** — what any action does to them: it executes one command, or sweeps, or leaves
  both alone.
* **`lookup_perform`** — a cached answer stays, unless a sweep finds it old enough.
-/

namespace WitnessReplication

namespace Replica

variable {σ : Type}

/-- Something that is done to a replica. -/
inductive Action where
  | request (r : Request)
  | lead (leader : Option Address) (term : Term)
  /-- What is unsynced is committed. -/
  | commit
  /-- The names for the other witnesses are taken away. -/
  | takePending
  /-- The response cache is swept. -/
  | evict
  deriving DecidableEq, Inhabited

/-- The entry that an action asks the replica to execute. -/
def Action.entry? : Action → Option LogEntry
  | .request (.command e) => some e
  | .request (.sync e)    => e
  | _                     => none

/-- There are two ways to ask for an entry, a command and a sync. -/
theorem Action.eq_of_entry? {a : Action} {e : LogEntry} (h : a.entry? = some e) :
    a = .request (.command e) ∨ a = .request (.sync (some e)) := by
  unfold Action.entry? at h
  split at h
  · rw [Option.some.inj h]
    exact Or.inl rfl
  · rw [h]
    exact Or.inr rfl
  · exact nomatch h

/-- Does something to a replica at a moment; returns the reply, if the action is a request. -/
def perform [StateMachine σ] (r : Replica σ) (now : Nat) : Action → Option Reply × Replica σ
  | .request q        => (some (r.answer now q).1, (r.answer now q).2)
  | .lead leader term => (none, r.lead leader term)
  | .commit           => (none, r.syncAll)
  | .takePending      => (none, r.takePending.2)
  | .evict            => (none, (r.evict now).2)

/-- An action makes the replica execute a command: it leads, is asked for the command, and has no
    answer cached for it. -/
def Executes (r : Replica σ) (a : Action) (e : LogEntry) : Prop :=
  a.entry? = some e ∧ e.kind = .command ∧ r.isLeader = true ∧
    r.cache.lookup e.client e.seq = none

/-- An action that asks for no entry executes none. -/
theorem not_executes_of_no_entry {r : Replica σ} {a : Action} (ha : a.entry? = none)
    (e : LogEntry) : ¬ r.Executes a e := by
  rintro ⟨ha', _⟩
  rw [ha] at ha'
  exact nomatch ha'

/-- The replica after some actions, each at its moment. -/
def run [StateMachine σ] (r : Replica σ) : List (Nat × Action) → Replica σ
  | []               => r
  | (now, a) :: rest => (r.perform now a).2.run rest

@[simp] theorem run_nil [StateMachine σ] (r : Replica σ) : r.run [] = r := rfl

theorem run_cons [StateMachine σ] (r : Replica σ) (now : Nat) (a : Action)
    (acts : List (Nat × Action)) : r.run ((now, a) :: acts) = (r.perform now a).2.run acts := rfl

/-- A run goes on where another one stopped. -/
theorem run_append [StateMachine σ] (r : Replica σ) (xs ys : List (Nat × Action)) :
    r.run (xs ++ ys) = (r.run xs).run ys := by
  induction xs generalizing r with
  | nil         => rfl
  | cons x xs ih => exact ih _

/-! ## What syncing leaves alone -/

@[simp] theorem syncAll_me (r : Replica σ) : r.syncAll.me = r.me := by
  rw [syncAll]; split <;> rfl

@[simp] theorem syncAll_leader (r : Replica σ) : r.syncAll.leader = r.leader := by
  rw [syncAll]; split <;> rfl

@[simp] theorem syncAll_machine (r : Replica σ) : r.syncAll.machine = r.machine := by
  rw [syncAll]; split <;> rfl

@[simp] theorem syncAll_cache (r : Replica σ) : r.syncAll.cache = r.cache := by
  rw [syncAll]; split <;> rfl

/-- After syncing nothing is unsynced. -/
@[simp] theorem syncAll_unsynced (r : Replica σ) : r.syncAll.unsynced = [] := by
  rw [syncAll]
  split
  · rename_i h
    exact h
  · rfl

/-- Syncing moves the names of what was unsynced to those that wait to be told. -/
@[simp] theorem syncAll_pending (r : Replica σ) :
    r.syncAll.pending = r.pending ++ r.unsynced.map (·.id) := by
  rw [syncAll]
  split
  · rename_i h
    simp [h]
  · rfl

@[simp] theorem syncAll_isLeader (r : Replica σ) : r.syncAll.isLeader = r.isLeader := by
  rw [isLeader, isLeader, syncAll_me, syncAll_leader]

@[simp] theorem acknowledge_machine (r : Replica σ) (e : LogEntry) (again : Bool) :
    (r.acknowledge e again).2.machine = r.machine := by
  rw [acknowledge]
  split
  · rfl
  · split
    · rfl
    · split
      · rfl
      · exact r.syncAll_machine

@[simp] theorem acknowledge_cache (r : Replica σ) (e : LogEntry) (again : Bool) :
    (r.acknowledge e again).2.cache = r.cache := by
  rw [acknowledge]
  split
  · rfl
  · split
    · rfl
    · split
      · rfl
      · exact r.syncAll_cache

@[simp] theorem acknowledge_me (r : Replica σ) (e : LogEntry) (again : Bool) :
    (r.acknowledge e again).2.me = r.me := by
  rw [acknowledge]
  split
  · rfl
  · split
    · rfl
    · split
      · rfl
      · exact r.syncAll_me

@[simp] theorem acknowledge_isLeader (r : Replica σ) (e : LogEntry) (again : Bool) :
    (r.acknowledge e again).2.isLeader = r.isLeader := by
  rw [acknowledge]
  split
  · rfl
  · split
    · rfl
    · split
      · rfl
      · exact r.syncAll_isLeader

/-! ## Executing -/

section Executing

variable [StateMachine σ]

/-- An entry that only holds a place is not executed. -/
theorem applyOnce_noop {r : Replica σ} {e : LogEntry} (h : e.kind = .noop) (now : Nat) :
    r.applyOnce now e = ([], r) := by
  rw [applyOnce, h]

/-- A command whose answer is cached is not executed. -/
theorem applyOnce_cached {r : Replica σ} {e : LogEntry} (h : e.kind = .command)
    {kept : CachedResponse} (hl : r.cache.lookup e.client e.seq = some kept) (now : Nat) :
    r.applyOnce now e = (kept.response, r) := by
  rw [applyOnce, h]
  simp only [hl]

/-- A command whose answer is not cached is executed, and its answer is cached. -/
theorem applyOnce_fresh {r : Replica σ} {e : LogEntry} (h : e.kind = .command)
    (hl : r.cache.lookup e.client e.seq = none) (now : Nat) :
    r.applyOnce now e =
      ((StateMachine.execute r.machine e.data).2,
        { r with
          machine := (StateMachine.execute r.machine e.data).1
          cache   := (r.cache.record now e.client e.seq
                        (StateMachine.execute r.machine e.data).2).2 }) := by
  rw [applyOnce, h]
  simp only [hl, ResponseCache.record]

/-- Executing changes the machine and the cache and nothing else. -/
theorem applyOnce_frame (r : Replica σ) (now : Nat) (e : LogEntry) :
    (r.applyOnce now e).2 =
      { r with machine := (r.applyOnce now e).2.machine, cache := (r.applyOnce now e).2.cache } := by
  cases hk : e.kind with
  | noop    => rw [applyOnce_noop hk]
  | command =>
      cases hl : r.cache.lookup e.client e.seq with
      | some kept => rw [applyOnce_cached hk hl]
      | none      => rw [applyOnce_fresh hk hl]

@[simp] theorem applyOnce_unsynced (r : Replica σ) (now : Nat) (e : LogEntry) :
    (r.applyOnce now e).2.unsynced = r.unsynced := by
  rw [applyOnce_frame]

@[simp] theorem applyOnce_pending (r : Replica σ) (now : Nat) (e : LogEntry) :
    (r.applyOnce now e).2.pending = r.pending := by
  rw [applyOnce_frame]

@[simp] theorem applyOnce_me (r : Replica σ) (now : Nat) (e : LogEntry) :
    (r.applyOnce now e).2.me = r.me := by
  rw [applyOnce_frame]

@[simp] theorem applyOnce_isLeader (r : Replica σ) (now : Nat) (e : LogEntry) :
    (r.applyOnce now e).2.isLeader = r.isLeader := by
  rw [applyOnce_frame]
  rfl

/-- The answer to a command is cached once the command was executed, or was not. -/
theorem lookup_applyOnce {r : Replica σ} {e : LogEntry} (h : e.kind = .command) (now : Nat) :
    ∃ kept, (r.applyOnce now e).2.cache.lookup e.client e.seq = some kept ∧
      (r.applyOnce now e).1 = kept.response := by
  cases hl : r.cache.lookup e.client e.seq with
  | some kept =>
      rw [applyOnce_cached h hl]
      exact ⟨kept, hl, rfl⟩
  | none      =>
      rw [applyOnce_fresh h hl]
      refine ⟨⟨(StateMachine.execute r.machine e.data).2, now⟩, ?_, rfl⟩
      show (r.cache.record now e.client e.seq _).2.lookup e.client e.seq = _
      rw [ResponseCache.lookup_record, if_pos ⟨rfl, rfl⟩, hl, Option.getD_none]

/-- A leader that is asked to execute an entry does so once, and replies with the answer. -/
theorem perform_entry {r : Replica σ} {a : Action} {e : LogEntry} (ha : a.entry? = some e)
    (hr : r.isLeader = true) (now : Nat) :
    ∃ reply, (r.perform now a).1 = some reply ∧ reply.accepted = true ∧
      reply.data = (r.applyOnce now e).1 ∧
      (r.perform now a).2.machine = (r.applyOnce now e).2.machine ∧
      (r.perform now a).2.cache = (r.applyOnce now e).2.cache := by
  rcases Action.eq_of_entry? ha with rfl | rfl
  · refine ⟨_, rfl, ?_⟩
    simp [perform, answer, commandReply, hr, Reply.accepted, Reply.data]
  · refine ⟨_, rfl, ?_⟩
    simp [perform, answer, syncReply, hr, Reply.accepted, Reply.data]

/-- A replica that does not lead refuses to execute an entry, and is left as it was. -/
theorem perform_entry_refused {r : Replica σ} {a : Action} {e : LogEntry} (ha : a.entry? = some e)
    (hr : r.isLeader = false) (now : Nat) :
    ∃ reply, (r.perform now a).1 = some reply ∧ reply.accepted = false ∧
      (r.perform now a).2 = r := by
  rcases Action.eq_of_entry? ha with rfl | rfl
  · refine ⟨_, rfl, ?_⟩
    simp [perform, answer, commandReply, hr, Reply.accepted]
  · refine ⟨_, rfl, ?_⟩
    simp [perform, answer, syncReply, hr, Reply.accepted]

/-- What a leader does with a command. -/
theorem perform_command {r : Replica σ} (hr : r.isLeader = true) (now : Nat) (e : LogEntry) :
    r.perform now (.request (.command e)) =
      (some (.command ⟨true, some r.me, (r.applyOnce now e).1,
          ((r.applyOnce now e).2.acknowledge e (r.isRetransmission e)).1⟩),
        ((r.applyOnce now e).2.acknowledge e (r.isRetransmission e)).2) := by
  rw [perform, answer, commandReply, if_pos hr]

/-- A request to execute an entry does not touch leadership. -/
theorem perform_entry_isLeader {a : Action} {e : LogEntry} (ha : a.entry? = some e)
    (r : Replica σ) (now : Nat) : (r.perform now a).2.isLeader = r.isLeader := by
  cases hr : r.isLeader with
  | false =>
      obtain ⟨_, _, _, hstate⟩ := perform_entry_refused ha hr now
      rw [hstate, hr]
  | true  =>
      rcases Action.eq_of_entry? ha with rfl | rfl
      · simp [perform, answer, commandReply, hr]
      · simp [perform, answer, syncReply, hr]

/-- What an action does that asks for no entry to be executed: a sweep changes the cache, and
    nothing else does. -/
theorem perform_no_entry {a : Action} (ha : a.entry? = none) (r : Replica σ) (now : Nat) :
    (r.perform now a).2.machine = r.machine ∧
      (r.perform now a).2.cache = if a = .evict then (r.cache.evict now).2 else r.cache := by
  cases a with
  | request q =>
      cases q with
      | clientId     =>
          show (r.clientIdReply).2.machine = r.machine ∧ (r.clientIdReply).2.cache = _
          rw [clientIdReply]
          split <;> exact ⟨rfl, rfl⟩
      | command e    => exact nomatch ha
      | record e t   => exact ⟨rfl, rfl⟩
      | sync e       =>
          obtain rfl : e = none := ha
          show (r.syncReply now none).2.machine = r.machine ∧ (r.syncReply now none).2.cache = _
          rw [syncReply]
          split
          · exact ⟨r.syncAll_machine, r.syncAll_cache⟩
          · exact ⟨rfl, rfl⟩
      | recoveryData => exact ⟨rfl, rfl⟩
      | unfreeze     => exact ⟨rfl, rfl⟩
      | witnessGc ss => exact ⟨rfl, rfl⟩
  | lead leader term =>
      show (r.lead leader term).machine = r.machine ∧ (r.lead leader term).cache = _
      rw [lead]
      split <;> exact ⟨rfl, rfl⟩
  | commit      => exact ⟨r.syncAll_machine, r.syncAll_cache⟩
  | takePending => exact ⟨rfl, rfl⟩
  | evict       => exact ⟨rfl, rfl⟩

/-- **What any action does to the machine and the cache**: it executes one command and caches what
    the machine says; or it executes none and leaves the machine alone, and the cache too unless it
    sweeps. -/
theorem perform_cases (r : Replica σ) (now : Nat) (a : Action) :
    (∃ e, r.Executes a e ∧
      (r.perform now a).2.machine = (StateMachine.execute r.machine e.data).1 ∧
      (r.perform now a).2.cache = (r.cache.record now e.client e.seq
        (StateMachine.execute r.machine e.data).2).2) ∨
    ((∀ e, ¬ r.Executes a e) ∧
      (r.perform now a).2.machine = r.machine ∧
      (r.perform now a).2.cache = if a = .evict then (r.cache.evict now).2 else r.cache) := by
  cases ha : a.entry? with
  | none   => exact Or.inr ⟨not_executes_of_no_entry ha, perform_no_entry ha r now⟩
  | some e =>
      have hne : a ≠ .evict := by
        rintro rfl
        exact nomatch ha
      -- there is only one entry to execute, so whatever rules it out rules out every other
      have hnot : ¬ (e.kind = .command ∧ r.isLeader = true ∧
          r.cache.lookup e.client e.seq = none) → ∀ e', ¬ r.Executes a e' := by
        rintro h e' ⟨ha', h'⟩
        obtain rfl : e = e' := Option.some.inj (ha.symm.trans ha')
        exact h h'
      rw [if_neg hne]
      cases hr : r.isLeader with
      | false =>
          obtain ⟨_, _, _, hstate⟩ := perform_entry_refused ha hr now
          rw [hstate]
          exact Or.inr ⟨hnot (by simp [hr]), rfl, rfl⟩
      | true  =>
          obtain ⟨_, _, _, _, hm, hc⟩ := perform_entry ha hr now
          rw [hm, hc]
          cases hk : e.kind with
          | noop    =>
              rw [applyOnce_noop hk]
              exact Or.inr ⟨hnot (by simp [hk]), rfl, rfl⟩
          | command =>
              cases hl : r.cache.lookup e.client e.seq with
              | some kept =>
                  rw [applyOnce_cached hk hl]
                  exact Or.inr ⟨hnot (by simp [hl]), rfl, rfl⟩
              | none      =>
                  refine Or.inl ⟨e, ⟨ha, hk, hr, hl⟩, ?_⟩
                  rw [applyOnce_fresh hk hl]
                  exact ⟨rfl, rfl⟩

/-- A replica goes by its own address, whatever it does. -/
theorem perform_me (r : Replica σ) (now : Nat) (a : Action) : (r.perform now a).2.me = r.me := by
  cases a with
  | request q =>
      cases q with
      | clientId     =>
          show r.clientIdReply.2.me = _
          rw [clientIdReply]
          split <;> rfl
      | command e    =>
          show (r.commandReply now e).2.me = _
          rw [commandReply]
          split
          · simp
          · rfl
      | record e t   => rfl
      | sync e       =>
          show (r.syncReply now e).2.me = _
          simp only [syncReply]
          split
          · cases e <;> simp
          · rfl
      | recoveryData => rfl
      | unfreeze     => rfl
      | witnessGc ss => rfl
  | lead leader term =>
      show (r.lead leader term).me = _
      rw [lead]
      split <;> rfl
  | commit      => exact r.syncAll_me
  | takePending => rfl
  | evict       => rfl

/-! ## The response cache along a run -/

/-- An action keeps the cache in order, and its retention. -/
theorem distinct_perform {r : Replica σ} (h : r.cache.Distinct) (now : Nat) (a : Action) :
    (r.perform now a).2.cache.Distinct ∧
      (r.perform now a).2.cache.retention = r.cache.retention := by
  rcases perform_cases r now a with ⟨e, _, _, hc⟩ | ⟨_, _, hc⟩
  · rw [hc]
    exact ⟨h.record .., ResponseCache.retention_record ..⟩
  · rw [hc]
    split
    · exact ⟨h.evict now, ResponseCache.retention_evict h now⟩
    · exact ⟨h, rfl⟩

/-- A run keeps the cache in order, and its retention. -/
theorem distinct_run {r : Replica σ} (h : r.cache.Distinct) (acts : List (Nat × Action)) :
    (r.run acts).cache.Distinct ∧ (r.run acts).cache.retention = r.cache.retention := by
  induction acts generalizing r with
  | nil          => exact ⟨h, rfl⟩
  | cons x acts ih =>
      obtain ⟨hd, hr⟩ := distinct_perform h x.1 x.2
      obtain ⟨hd', hr'⟩ := ih hd
      exact ⟨hd', hr'.trans hr⟩

/-- A cached answer stays as it is, unless the cache is swept and the answer is old enough. -/
theorem lookup_perform {r : Replica σ} (h : r.cache.Distinct) {client : ClientId} {seq : SeqNo}
    {kept : CachedResponse} (hl : r.cache.lookup client seq = some kept) (now : Nat) (a : Action)
    (ha : a = .evict → r.cache.isFresh now kept = true) :
    (r.perform now a).2.cache.lookup client seq = some kept := by
  rcases perform_cases r now a with ⟨e, ⟨_, _, _, hnone⟩, _, hc⟩ | ⟨_, _, hc⟩
  · rw [hc, ResponseCache.lookup_record, if_neg]
    · exact hl
    · rintro ⟨rfl, rfl⟩
      rw [hl] at hnone
      exact nomatch hnone
  · rw [hc]
    split
    · rename_i hev
      rw [ResponseCache.lookup_evict h, hl, Option.filter, if_pos (ha hev)]
    · exact hl

end Executing

end Replica

end WitnessReplication

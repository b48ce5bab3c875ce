import WitnessReplication.Proofs.Durability

/-!
# Interrupted requests — a request during which the response cache is swept

    Everything that is done to a replica is done by one activity, one thing after the other, except
    for the sweeps of the response cache, which go on beside it.  A sweep looks at one bucket at a
    time, so its steps may come anywhere between two accesses to the cache.  A command request makes
    two looks and, if it executes, one record: the first look decides whether the command is a
    retransmission, the second one whether it is executed.

    Almost all of these sweeps might as well have come before the request or after it.  The one that
    might not takes away, between the two looks, an answer that the first look has found.  Then a
    command is executed and acknowledged like a retransmission.

* **`Turn`** and **`undergo`** — an action with the sweeps that come in its course.
* **`undergoAll_undisturbed`** and **`evict_eq_steps`** — without sweeps this is a run, and a sweep is
  made of its steps.
* **`Torn`** — a turn in which an answer gets lost between the two looks.
* **`undergoes`** — what a turn comes to.
-/

namespace WitnessReplication

namespace ResponseCache

/-! ## A sweep in steps -/

/-- One step of a sweep. -/
inductive SweepStep where
  /-- What was not fresh when the sweep began is dropped from a client's bucket. -/
  | retain (now : Nat) (client : ClientId)
  /-- A client's bucket is removed if it is empty. -/
  | drop (client : ClientId)
  deriving DecidableEq

/-- The cache after a step of a sweep. -/
def sweepStep (c : ResponseCache) : SweepStep → ResponseCache
  | .retain now client => (c.retainFresh now client).2
  | .drop client       => c.dropIfEmpty client

/-- The cache after some steps of sweeps. -/
def sweptBy (c : ResponseCache) (steps : List SweepStep) : ResponseCache := steps.foldl sweepStep c

/-- The steps in which the buckets of some clients are swept. -/
def sweepSteps (now : Nat) (clients : List ClientId) : List SweepStep :=
  clients.flatMap fun client => [.retain now client, .drop client]

theorem sweptBy_append (c : ResponseCache) (xs ys : List SweepStep) :
    c.sweptBy (xs ++ ys) = (c.sweptBy xs).sweptBy ys := List.foldl_append

/-- A sweep is made of its steps. -/
theorem evict_eq_steps (c : ResponseCache) (now : Nat) :
    (c.evict now).2 = c.sweptBy (sweepSteps now c.clients) := by
  have hsweep : ∀ (clients : List ClientId) (c : ResponseCache),
      (c.sweep now clients).2 = c.sweptBy (sweepSteps now clients) := by
    intro clients
    induction clients with
    | nil              => exact fun _ => rfl
    | cons client _ ih => exact fun c => ih ((c.retainFresh now client).2.dropIfEmpty client)
  exact hsweep c.clients c

theorem Distinct.sweepStep {c : ResponseCache} (h : c.Distinct) (s : SweepStep) :
    (c.sweepStep s).Distinct := by
  cases s with
  | retain now client => exact h.retainFresh now client
  | drop client       => exact h.dropIfEmpty client

theorem Distinct.sweptBy {c : ResponseCache} (h : c.Distinct) (steps : List SweepStep) :
    (c.sweptBy steps).Distinct := by
  induction steps generalizing c with
  | nil            => exact h
  | cons s rest ih => exact ih (h.sweepStep s)

theorem lookup_of_sweepStep {c : ResponseCache} (h : c.Distinct) {s : SweepStep}
    {client : ClientId} {seq : SeqNo} {kept : CachedResponse}
    (hl : (c.sweepStep s).lookup client seq = some kept) : c.lookup client seq = some kept := by
  cases s with
  | retain now swept =>
      have hfilter := lookup_retainFresh h now swept client seq
      rw [sweepStep, hfilter] at hl
      split at hl
      · exact (Option.filter_eq_some_iff.1 hl).1
      · exact hl
  | drop swept       =>
      rw [sweepStep, lookup, bucket_dropIfEmpty h] at hl
      exact hl

/-- Sweeps add no answer. -/
theorem lookup_of_sweptBy {c : ResponseCache} (h : c.Distinct) {steps : List SweepStep}
    {client : ClientId} {seq : SeqNo} {kept : CachedResponse}
    (hl : (c.sweptBy steps).lookup client seq = some kept) : c.lookup client seq = some kept := by
  induction steps generalizing c with
  | nil            => exact hl
  | cons s rest ih => exact lookup_of_sweepStep h (ih (h.sweepStep s) hl)

end ResponseCache

namespace Replica

open ResponseCache (SweepStep)

variable {σ : Type}

/-! ## Actions with sweeps in their course -/

/-- The replica after some steps of sweeps. -/
def swept (r : Replica σ) (steps : List SweepStep) : Replica σ :=
  { r with cache := r.cache.sweptBy steps }

@[simp] theorem swept_nil (r : Replica σ) : r.swept [] = r := rfl

theorem swept_append (r : Replica σ) (xs ys : List SweepStep) :
    r.swept (xs ++ ys) = (r.swept xs).swept ys := by
  rw [swept, ResponseCache.sweptBy_append]
  rfl

@[simp] theorem swept_unsynced (r : Replica σ) (steps : List SweepStep) :
    (r.swept steps).unsynced = r.unsynced := rfl

@[simp] theorem swept_isLeader (r : Replica σ) (steps : List SweepStep) :
    (r.swept steps).isLeader = r.isLeader := rfl

theorem swept_syncAll (r : Replica σ) (steps : List SweepStep) :
    (r.swept steps).syncAll = r.syncAll.swept steps := by
  rw [syncAll, syncAll, swept_unsynced]
  split <;> rfl

/-- An action at a moment, with the steps of sweeps that come before it, between the two looks that
    a command request takes at the cache, and between the last look and the record. -/
structure Turn where
  now     : Nat
  action  : Action
  before  : List SweepStep := []
  between : List SweepStep := []
  amid    : List SweepStep := []
  deriving DecidableEq

/-- All the steps of sweeps in a turn. -/
def Turn.sweeps (t : Turn) : List SweepStep := t.before ++ t.between ++ t.amid

section Undergoing

variable [StateMachine σ]

/-- Executes a command unless its answer is cached, while sweeps go on. -/
def applyOnceAmid (r : Replica σ) (now : Nat) (e : LogEntry) (amid : List SweepStep) :
    Bytes × Replica σ :=
  match e.kind with
  | .noop    => ([], r.swept amid)
  | .command =>
      match r.cache.lookup e.client e.seq with
      | some kept => (kept.response, r.swept amid)
      | none      =>
          let (machine, out) := StateMachine.execute r.machine e.data
          let (kept, cache) := (r.cache.sweptBy amid).record now e.client e.seq out
          (kept.response, { r with machine, cache })

/-- Executes a command if the replica leads, while sweeps go on. -/
def commandReplyAmid (r : Replica σ) (now : Nat) (e : LogEntry) (between amid : List SweepStep) :
    CommandReply × Replica σ :=
  if r.isLeader then
    let retransmission := r.isRetransmission e
    let (data, r₁) := (r.swept between).applyOnceAmid now e amid
    let (synced, r₂) := r₁.acknowledge e retransmission
    (⟨true, some r.me, data, synced⟩, r₂)
  else (⟨false, r.leader, [], false⟩, r.swept (between ++ amid))

/-- Syncs if the replica leads, while sweeps go on. -/
def syncReplyAmid (r : Replica σ) (now : Nat) (e : Option LogEntry)
    (between amid : List SweepStep) : SyncReply × Replica σ :=
  if r.isLeader then
    let (data, r₁) := match e with
      | some e => (r.swept between).applyOnceAmid now e amid
      | none   => ([], r.swept (between ++ amid))
    (⟨true, some r.me, data⟩, r₁.syncAll)
  else (⟨false, r.leader, []⟩, r.swept (between ++ amid))

/-- Does something to a replica while sweeps go on. -/
def undergo (r : Replica σ) (t : Turn) : Option Reply × Replica σ :=
  let r₁ := r.swept t.before
  match t.action with
  | .request (.command e) =>
      let (a, r₂) := r₁.commandReplyAmid t.now e t.between t.amid
      (some (.command a), r₂)
  | .request (.sync e)    =>
      let (a, r₂) := r₁.syncReplyAmid t.now e t.between t.amid
      (some (.sync a), r₂)
  | a                     =>
      let (reply, r₂) := r₁.perform t.now a
      (reply, r₂.swept (t.between ++ t.amid))

/-- The replica after some turns. -/
def undergoAll (r : Replica σ) : List Turn → Replica σ
  | []        => r
  | t :: rest => (r.undergo t).2.undergoAll rest

theorem undergoAll_append (r : Replica σ) (xs ys : List Turn) :
    r.undergoAll (xs ++ ys) = (r.undergoAll xs).undergoAll ys := by
  induction xs generalizing r with
  | nil          => rfl
  | cons x xs ih => exact ih _

theorem undergo_undisturbed (r : Replica σ) (now : Nat) (a : Action) :
    r.undergo { now, action := a } = r.perform now a := by
  cases a with
  | request q =>
      cases q with
      | command e    => rfl
      | sync e       => cases e <;> rfl
      | clientId     => rfl
      | record e t   => rfl
      | recoveryData => rfl
      | unfreeze     => rfl
      | witnessGc ss => rfl
  | lead leader term => rfl
  | commit           => rfl
  | takePending      => rfl
  | evict            => rfl

/-- Without sweeps in their course turns are a run. -/
theorem undergoAll_undisturbed (r : Replica σ) (acts : List (Nat × Action)) :
    r.undergoAll (acts.map fun x => { now := x.1, action := x.2 }) = r.run acts := by
  induction acts generalizing r with
  | nil            => rfl
  | cons x acts ih =>
      show (r.undergo { now := x.1, action := x.2 }).2.undergoAll _ = _
      rw [undergo_undisturbed]
      exact ih _

end Undergoing

/-! ## What a turn comes to -/

theorem cached_of_swept {r : Replica σ} (hd : r.cache.Distinct) {steps : List SweepStep}
    {id : RequestId} (h : (r.swept steps).Cached id) : r.Cached id := by
  obtain ⟨kept, hl⟩ := Option.isSome_iff_exists.1 h
  rw [Cached, ResponseCache.lookup_of_sweptBy hd hl]
  rfl

theorem lookup_swept_of_none {r : Replica σ} (hd : r.cache.Distinct) {client : ClientId}
    {seq : SeqNo} (hl : r.cache.lookup client seq = none) (steps : List SweepStep) :
    (r.swept steps).cache.lookup client seq = none := by
  rw [Option.eq_none_iff_forall_ne_some]
  intro kept hkept
  rw [ResponseCache.lookup_of_sweptBy hd hkept] at hl
  exact nomatch hl

theorem swept_acknowledge (r : Replica σ) (steps : List SweepStep) (e : LogEntry) (again : Bool) :
    (r.swept steps).acknowledge e again =
      ((r.acknowledge e again).1, (r.acknowledge e again).2.swept steps) := by
  rw [acknowledge, acknowledge, swept_unsynced, swept_syncAll]
  split
  · rfl
  · split
    · rfl
    · split <;> rfl

section Coming

variable [StateMachine σ]

/-- A turn in which a leader finds the answer to a command at its first look, and does not find it
    at its second one. -/
def Torn (r : Replica σ) (t : Turn) (e : LogEntry) : Prop :=
  t.action = .request (.command e) ∧ e.kind = .command ∧ r.isLeader = true ∧
    (r.swept t.before).Cached e.id ∧ ¬ (r.swept (t.before ++ t.between)).Cached e.id

/-- What a turn comes to. -/
inductive Undergoes (r : Replica σ) (t : Turn) (result : Option Reply × Replica σ) : Prop where
  /-- The sweeps might as well have come before the action and after it. -/
  | apart (pre post : List SweepStep) (whole : ∀ e, ¬ r.Torn t e)
      (same : result = (((r.swept pre).perform t.now t.action).1,
        ((r.swept pre).perform t.now t.action).2.swept post))
  /-- A command is executed, and acknowledged like a retransmission. -/
  | torn (e : LogEntry) (torn : r.Torn t e)
      (lost : (r.swept t.sweeps).cache.lookup e.client e.seq = none)
      (same : result =
        (some (.command ⟨true, some r.me, ((r.swept t.sweeps).applyOnce t.now e).1,
            !r.unsynced.any fun u => u.id = e.id⟩),
          ((r.swept t.sweeps).applyOnce t.now e).2))

/-- Sweeps while the machine executes might as well have come before. -/
theorem applyOnceAmid_fresh {r : Replica σ} (hd : r.cache.Distinct) {e : LogEntry}
    (h : e.kind = .command) (hl : r.cache.lookup e.client e.seq = none) (now : Nat)
    (amid : List SweepStep) : r.applyOnceAmid now e amid = (r.swept amid).applyOnce now e := by
  have hlost : (r.swept amid).cache.lookup e.client e.seq = none := lookup_swept_of_none hd hl amid
  have hlost' : (r.cache.sweptBy amid).lookup e.client e.seq = none := hlost
  rw [applyOnceAmid, applyOnce, h]
  simp only [hl, hlost, ResponseCache.record, hlost']
  rfl

/-- To execute while sweeps go on is to execute between sweeps, and the last look finds the same. -/
theorem applyOnceAmid_apart {r : Replica σ} (hd : r.cache.Distinct) (now : Nat) (e : LogEntry)
    (amid : List SweepStep) :
    ∃ pre post, (r.swept pre).isRetransmission e = r.isRetransmission e ∧
      r.applyOnceAmid now e amid =
        (((r.swept pre).applyOnce now e).1, ((r.swept pre).applyOnce now e).2.swept post) := by
  cases hk : e.kind with
  | noop    =>
      refine ⟨[], amid, rfl, ?_⟩
      rw [applyOnceAmid, swept_nil, applyOnce_noop hk, hk]
  | command =>
      cases hl : r.cache.lookup e.client e.seq with
      | some kept =>
          refine ⟨[], amid, rfl, ?_⟩
          rw [applyOnceAmid, swept_nil, applyOnce_cached hk hl, hk]
          simp only [hl]
      | none      =>
          refine ⟨amid, [], ?_, applyOnceAmid_fresh hd hk hl now amid⟩
          rw [isRetransmission, isRetransmission, lookup_swept_of_none hd hl, hl]

theorem undergo_command {r : Replica σ} (hr : r.isLeader = true) {t : Turn} {e : LogEntry}
    (ht : t.action = .request (.command e)) {executed : Bytes × Replica σ}
    (hexecuted : (r.swept (t.before ++ t.between)).applyOnceAmid t.now e t.amid = executed) :
    r.undergo t =
      (some (.command ⟨true, some r.me, executed.1,
          (executed.2.acknowledge e ((r.swept t.before).isRetransmission e)).1⟩),
        (executed.2.acknowledge e ((r.swept t.before).isRetransmission e)).2) := by
  have hr' : (r.swept t.before).isLeader = true := hr
  rw [swept_append] at hexecuted
  rw [undergo, ht]
  simp only [commandReplyAmid, if_pos hr', hexecuted]
  rfl

omit [StateMachine σ] in
/-- Unless a turn is torn, it does not matter which look the acknowledgement goes by. -/
theorem acknowledge_of_whole {r : Replica σ} (hd : r.cache.Distinct) (hr : r.isLeader = true)
    {t : Turn} {e : LogEntry} (ht : t.action = .request (.command e)) (h : ¬ r.Torn t e)
    (r' : Replica σ) :
    r'.acknowledge e ((r.swept t.before).isRetransmission e) =
      r'.acknowledge e ((r.swept (t.before ++ t.between)).isRetransmission e) := by
  cases hfirst : (r.swept t.before).isRetransmission e with
  | false =>
      -- what the second look finds the first one has found
      have hsecond : (r.swept (t.before ++ t.between)).isRetransmission e = false := by
        rw [← Bool.not_eq_true, swept_append]
        intro hfound
        have hbefore : (r.swept t.before).Cached e.id := cached_of_swept (hd.sweptBy _) hfound
        exact Bool.false_ne_true (hfirst.symm.trans hbefore)
      rw [hsecond]
  | true  =>
      cases hsecond : (r.swept (t.before ++ t.between)).isRetransmission e with
      | true  => rfl
      | false =>
          cases hk : e.kind with
          | noop    => rw [acknowledge, acknowledge, if_pos hk, if_pos hk]
          | command =>
              refine absurd ⟨ht, hk, hr, hfirst, ?_⟩ h
              exact fun hfound => Bool.false_ne_true (hsecond.symm.trans hfound)

/-- A torn turn executes its command, and acknowledges it by the first look. -/
theorem undergoes_torn {r : Replica σ} (hd : r.cache.Distinct) {t : Turn} {e : LogEntry}
    (h : r.Torn t e) : Undergoes r t (r.undergo t) := by
  have htorn := h
  obtain ⟨ht, hk, hr, hfound, hgone⟩ := h
  have hd₂ : (r.swept (t.before ++ t.between)).cache.Distinct := hd.sweptBy _
  have hfirst : (r.swept t.before).isRetransmission e = true := hfound
  have hsecond : (r.swept (t.before ++ t.between)).cache.lookup e.client e.seq = none := by
    rw [← Option.not_isSome_iff_eq_none]
    exact hgone
  have hk' : ¬ e.kind = .noop := by
    rw [hk]
    decide
  refine .torn e htorn ?_ ?_
  · rw [Turn.sweeps, swept_append]
    exact lookup_swept_of_none hd₂ hsecond _
  · rw [undergo_command hr ht (applyOnceAmid_fresh hd₂ hk hsecond _ _), hfirst, acknowledge,
      if_neg hk', if_pos rfl, applyOnce_unsynced, ← swept_append]
    rfl

/-- A command request comes to the request between sweeps, or it is torn. -/
theorem undergoes_command {r : Replica σ} (hd : r.cache.Distinct) {t : Turn} {e : LogEntry}
    (ht : t.action = .request (.command e)) : Undergoes r t (r.undergo t) := by
  by_cases htorn : r.Torn t e
  · exact undergoes_torn hd htorn
  have hwhole : ∀ e', ¬ r.Torn t e' := by
    intro e' htorn'
    obtain rfl : e' = e := Request.command.inj (Action.request.inj (htorn'.1.symm.trans ht))
    exact htorn htorn'
  cases hr : r.isLeader with
  | false =>
      have hr' : ¬ (r.swept t.before).isLeader = true := by
        rw [swept_isLeader, hr]
        exact Bool.false_ne_true
      refine .apart t.before (t.between ++ t.amid) hwhole ?_
      rw [undergo, ht]
      simp only [commandReplyAmid, perform, answer, commandReply, if_neg hr']
  | true  =>
      have hd₂ : (r.swept (t.before ++ t.between)).cache.Distinct := hd.sweptBy _
      obtain ⟨pre, post, hlast, hexecuted⟩ := applyOnceAmid_apart hd₂ t.now e t.amid
      have hleads : ((r.swept (t.before ++ t.between)).swept pre).isLeader = true := hr
      refine .apart (t.before ++ t.between ++ pre) post hwhole ?_
      rw [undergo_command hr ht hexecuted, swept_acknowledge, acknowledge_of_whole hd hr ht htorn,
        ht, r.swept_append (t.before ++ t.between), perform_command hleads, hlast]
      rfl

theorem undergoes_sync {r : Replica σ} (hd : r.cache.Distinct) {t : Turn} {e : Option LogEntry}
    (ht : t.action = .request (.sync e)) : Undergoes r t (r.undergo t) := by
  have hwhole : ∀ e', ¬ r.Torn t e' := by
    rintro e' ⟨he, -⟩
    rw [ht] at he
    exact nomatch he
  have hd₂ : (r.swept (t.before ++ t.between)).cache.Distinct := hd.sweptBy _
  cases hr : r.isLeader with
  | false =>
      have hr' : ¬ (r.swept t.before).isLeader = true := by
        rw [swept_isLeader, hr]
        exact Bool.false_ne_true
      refine .apart t.before (t.between ++ t.amid) hwhole ?_
      rw [undergo, ht]
      simp only [syncReplyAmid, perform, answer, syncReply, if_neg hr']
  | true  =>
      have hleads : ∀ steps, (r.swept steps).isLeader = true := fun _ => hr
      cases e with
      | none   =>
          refine .apart t.before (t.between ++ t.amid) hwhole ?_
          rw [undergo, ht]
          simp only [syncReplyAmid, perform, answer, syncReply, if_pos (hleads _), swept_syncAll]
      | some e =>
          obtain ⟨pre, post, -, hexecuted⟩ := applyOnceAmid_apart hd₂ t.now e t.amid
          refine .apart (t.before ++ t.between ++ pre) post hwhole ?_
          have hleads' : (((r.swept t.before).swept t.between).swept pre).isLeader = true := hr
          rw [swept_append] at hexecuted
          rw [undergo, ht]
          simp only [syncReplyAmid, perform, answer, syncReply, if_pos (hleads _), hexecuted,
            swept_syncAll, swept_append, if_pos hleads']
          rfl

/-- **What a turn comes to**: the action between sweeps, unless the answer to a command is swept
    away between the two looks at it. -/
theorem undergoes {r : Replica σ} (hd : r.cache.Distinct) (t : Turn) :
    Undergoes r t (r.undergo t) := by
  have hother : (∀ e, t.action ≠ .request (.command e)) →
      r.undergo t = (((r.swept t.before).perform t.now t.action).1,
        ((r.swept t.before).perform t.now t.action).2.swept (t.between ++ t.amid)) →
      Undergoes r t (r.undergo t) := by
    intro hno hsame
    exact .apart _ _ (fun e htorn => hno e htorn.1) hsame
  cases ht : t.action with
  | request q =>
      cases q with
      | command e    => exact undergoes_command hd ht
      | sync e       => exact undergoes_sync hd ht
      | clientId     => exact hother (by rw [ht]; exact nofun) (by rw [undergo, ht])
      | record e t   => exact hother (by rw [ht]; exact nofun) (by rw [undergo, ht])
      | recoveryData => exact hother (by rw [ht]; exact nofun) (by rw [undergo, ht])
      | unfreeze     => exact hother (by rw [ht]; exact nofun) (by rw [undergo, ht])
      | witnessGc ss => exact hother (by rw [ht]; exact nofun) (by rw [undergo, ht])
  | lead leader term => exact hother (by rw [ht]; exact nofun) (by rw [undergo, ht])
  | commit           => exact hother (by rw [ht]; exact nofun) (by rw [undergo, ht])
  | takePending      => exact hother (by rw [ht]; exact nofun) (by rw [undergo, ht])
  | evict            => exact hother (by rw [ht]; exact nofun) (by rw [undergo, ht])

end Coming

end Replica

end WitnessReplication

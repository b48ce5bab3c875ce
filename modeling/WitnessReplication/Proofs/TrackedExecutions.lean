import WitnessReplication.Proofs.InterruptedRequests

/-!
# Tracked executions — a leader keeps track of what it executes, if no sweep comes in between

    Whoever asks for a command and is told that it is not synced looks for witnesses; whoever is told
    that it is synced does not.  So a command that is executed must wait among what is not synced, or
    everything must be synced before the answer goes out.

    The leader sees to it for a command that it takes for a new one.  It does not for a command that
    it takes for a retransmission, since it believes it executed already, and a torn turn executes
    what it takes for a retransmission.  If the command does not wait from before, nobody keeps track
    of what the second execution did.

* **`Tracked`** — an answer that keeps track of its command.
* **`cached_past`** — what is cached was executed, and waits or was made durable since.
* **`executed_tracked_iff`** — which executions are kept track of, and what the others have behind
  them.
* **`torn_execution_untracked`** — an execution that nobody keeps track of.
-/

namespace WitnessReplication

namespace Replica

open ResponseCache (SweepStep sweepSteps)

variable {σ : Type} [StateMachine σ]

/-! ## What happens in turns -/

/-- Something holds at one of some turns. -/
def Happened (P : Replica σ → Turn → Prop) (r : Replica σ) : List Turn → Prop
  | []        => False
  | t :: rest => P r t ∨ Happened P (r.undergo t).2 rest

instance decidableHappened {P : Replica σ → Turn → Prop} [∀ r t, Decidable (P r t)] :
    (r : Replica σ) → (turns : List Turn) → Decidable (Happened P r turns)
  | _, []        => inferInstanceAs (Decidable False)
  | r, t :: rest =>
      have := decidableHappened (P := P) (r.undergo t).2 rest
      inferInstanceAs (Decidable (_ ∨ _))

theorem happened_concat {P : Replica σ → Turn → Prop} (r : Replica σ) (turns : List Turn)
    (t : Turn) :
    Happened P r (turns ++ [t]) ↔ Happened P r turns ∨ P (r.undergoAll turns) t := by
  induction turns generalizing r with
  | nil              => exact or_comm
  | cons x turns ih  =>
      show P r x ∨ Happened P _ (turns ++ [t]) ↔ (P r x ∨ Happened P _ turns) ∨ _
      rw [ih, or_assoc]
      exact Iff.rfl

/-- A turn after which the replica does not lead. -/
def Deposed (r : Replica σ) (t : Turn) : Prop := (r.undergo t).2.isLeader = false

instance (r : Replica σ) (t : Turn) : Decidable (r.Deposed t) :=
  inferInstanceAs (Decidable (_ = _))

/-- A turn in which the machine is called once, for a command of this name. -/
def CallsAmid (id : RequestId) (r : Replica (Logged σ)) (t : Turn) : Prop :=
  ∃ e answer, t.action.entry? = some e ∧ e.kind = .command ∧ e.id = id ∧
    (r.undergo t).2.machine.calls = r.machine.calls ++ [(e.data, answer)]

/-- A turn that makes a command durable: the command waits, or it is executed by a turn that is not
    torn; and the turn syncs. -/
def Secures (id : RequestId) (r : Replica (Logged σ)) (t : Turn) : Prop :=
  (r.Waits id ∨ CallsAmid id r t ∧ ∀ e, ¬ r.Torn t e) ∧ (r.undergo t).2.unsynced = [] ∧
    (r.undergo t).2.pending = r.pending ++ r.unsynced.map (·.id)

/-- An answer that keeps track of its command: it says that the command is not synced, and the
    command waits; or it says that it is, and something waited, and all of it is synced now. -/
def Tracked (r : Replica σ) (t : Turn) (e : LogEntry) : Prop :=
  ∃ reply, (r.undergo t).1 = some (.command reply) ∧ reply.success = true ∧
    (reply.synced = false ∧ (r.undergo t).2.Waits e.id ∨
     reply.synced = true ∧ r.unsynced ≠ [] ∧ (r.undergo t).2.unsynced = [] ∧
        (r.undergo t).2.pending = r.pending ++ r.unsynced.map (·.id))

/-- Between sweeps the machine is called as it is without them. -/
theorem callsAmid_apart {r : Replica (Logged σ)} {t : Turn} {pre post : List SweepStep}
    (h : r.undergo t = (((r.swept pre).perform t.now t.action).1,
      ((r.swept pre).perform t.now t.action).2.swept post)) (id : RequestId) :
    CallsAmid id r t ↔ ∃ e, (r.swept pre).Executes t.action e ∧ e.id = id := by
  have hcalls : CallsAmid id r t ↔ ∃ answer, (r.swept pre).Calls t.now t.action id answer := by
    rw [CallsAmid, h, exists_comm]
    exact Iff.rfl
  rw [hcalls]
  constructor
  · rintro ⟨_, hanswer⟩
    obtain ⟨e, he, hid, -⟩ := calls_iff.1 hanswer
    exact ⟨e, he, hid⟩
  · rintro ⟨e, he, hid⟩
    exact ⟨_, calls_iff.2 ⟨e, he, hid, rfl⟩⟩

/-- In a torn turn no command is called but the one that is asked for. -/
theorem id_of_torn {r : Replica (Logged σ)} {t : Turn} {e : LogEntry} (h : r.Torn t e)
    {id : RequestId} (hcalls : CallsAmid id r t) : e.id = id := by
  obtain ⟨f, _, hf, _, hid, _⟩ := hcalls
  rw [h.1] at hf
  obtain rfl : e = f := Option.some.inj hf
  exact hid

/-! ## What is cached -/

/-- What a turn leaves cached was cached before, or is executed in it. -/
theorem cached_undergo {r : Replica (Logged σ)} (hd : r.cache.Distinct) {t : Turn}
    {id : RequestId} (h : (r.undergo t).2.Cached id) : r.Cached id ∨ CallsAmid id r t := by
  -- a record adds the answer of its command only
  have hrecord : ∀ {c : ResponseCache} {f : LogEntry} {out : Bytes},
      ((c.record t.now f.client f.seq out).2.lookup id.client id.seq).isSome = true →
      f.id ≠ id → (c.lookup id.client id.seq).isSome = true := by
    intro c f out hsome hid
    rw [ResponseCache.lookup_record, if_neg] at hsome
    · exact hsome
    · rintro ⟨hclient, hseq⟩
      exact hid (by rw [LogEntry.id, hclient, hseq])
  cases undergoes hd t with
  | apart pre post whole same =>
      have hd' : (r.swept pre).cache.Distinct := hd.sweptBy pre
      rw [callsAmid_apart same]
      rw [same] at h
      have hcached := cached_of_swept (distinct_perform hd' t.now t.action).1 h
      rcases perform_cases (r.swept pre) t.now t.action with ⟨f, hf, -, hc⟩ | ⟨-, -, hc⟩
      · by_cases hid : f.id = id
        · exact Or.inr ⟨f, hf, hid⟩
        · rw [Cached, hc] at hcached
          exact Or.inl (cached_of_swept hd (hrecord hcached hid))
      · left
        rw [Cached, hc] at hcached
        split at hcached
        · obtain ⟨kept, hl⟩ := Option.isSome_iff_exists.1 hcached
          rw [ResponseCache.lookup_evict hd'] at hl
          have hl' := (Option.filter_eq_some_iff.1 hl).1
          exact cached_of_swept hd (Option.isSome_iff_exists.2 ⟨kept, hl'⟩)
        · exact cached_of_swept hd hcached
  | torn e torn lost same     =>
      rw [same, applyOnce_fresh torn.2.1 lost] at h
      by_cases hid : e.id = id
      · left
        rw [← hid]
        exact cached_of_swept hd torn.2.2.2.1
      · exact Or.inl (cached_of_swept hd (hrecord h hid))

theorem distinct_undergo {r : Replica σ} (hd : r.cache.Distinct) (t : Turn) :
    (r.undergo t).2.cache.Distinct := by
  cases undergoes hd t with
  | apart pre post whole same =>
      have hd' : (r.swept pre).cache.Distinct := hd.sweptBy pre
      rw [same]
      exact (distinct_perform hd' t.now t.action).1.sweptBy post
  | torn e torn lost same     =>
      rw [same, applyOnce_fresh torn.2.1 lost]
      exact (hd.sweptBy _).record ..

/-- What waits at a leader, or is executed by it in a turn that is not torn, waits after the turn or
    is made durable in it. -/
theorem waits_or_secures {r : Replica (Logged σ)} (hd : r.cache.Distinct) {t : Turn}
    (hled : ¬ r.Deposed t) {id : RequestId}
    (h : r.Waits id ∨ CallsAmid id r t ∧ ∀ e, ¬ r.Torn t e) :
    (r.undergo t).2.Waits id ∨ Secures id r t := by
  cases undergoes hd t with
  | apart pre post whole same =>
      have hwaits : (r.undergo t).2.Waits id ↔
          ((r.swept pre).perform t.now t.action).2.Waits id := by
        rw [same]
        rfl
      have hcalls := callsAmid_apart same id
      cases (r.swept pre).perform_settles t.now t.action with
      | waits idle unchanged led         =>
          left
          rw [hwaits, Waits, unchanged]
          rcases h with h | ⟨h, -⟩
          · exact h
          · obtain ⟨e, he, -⟩ := hcalls.1 h
            exact absurd he (idle e)
      | joins e executed behind led      =>
          left
          rw [hwaits, Waits, behind, List.map_append]
          rcases h with h | ⟨h, -⟩
          · exact List.mem_append_left _ h
          · obtain ⟨f, hf, hid⟩ := hcalls.1 h
            obtain rfl : e = f := Option.some.inj (executed.1.symm.trans hf.1)
            exact List.mem_append_right _ (List.mem_singleton.2 hid.symm)
      | drains empty told led            =>
          refine Or.inr ⟨h, ?_⟩
          rw [same]
          exact ⟨empty, told⟩
      | drops idle led lost empty untold =>
          refine absurd ?_ hled
          rw [Deposed, same]
          exact lost
  | torn e torn lost same     =>
      left
      rw [same, Waits, applyOnce_unsynced]
      rcases h with h | ⟨-, h⟩
      · exact h
      · exact absurd torn (h e)

/-- What is cached at a leader was executed, and waits or was made durable since. -/
theorem cached_past {r₀ : Replica (Logged σ)} (hd : r₀.cache.Distinct)
    (hempty : ∀ id, ¬ r₀.Cached id) {turns : List Turn}
    (hled : ¬ Happened Deposed r₀ turns) (id : RequestId) :
    (r₀.undergoAll turns).cache.Distinct ∧
      ((r₀.undergoAll turns).Cached id → Happened (CallsAmid id) r₀ turns ∧
        ((r₀.undergoAll turns).Waits id ∨ Happened (Secures id) r₀ turns)) := by
  induction turns using List.reverseRecOn with
  | nil                       => exact ⟨hd, fun h => absurd h (hempty id)⟩
  | append_singleton turns t ih =>
      rw [happened_concat, not_or] at hled
      obtain ⟨hdistinct, hpast⟩ := ih hled.1
      rw [undergoAll_append, happened_concat, happened_concat]
      show ((r₀.undergoAll turns).undergo t).2.cache.Distinct ∧ _
      refine ⟨distinct_undergo hdistinct t, fun hcached => ?_⟩
      have hkeep : ((r₀.undergoAll turns).Waits id ∨
          CallsAmid id (r₀.undergoAll turns) t ∧ ∀ e, ¬ (r₀.undergoAll turns).Torn t e) →
          ((r₀.undergoAll turns).undergo t).2.Waits id ∨
            (Happened (Secures id) r₀ turns ∨ Secures id (r₀.undergoAll turns) t) := fun h =>
        (waits_or_secures hdistinct hled.2 h).imp_right Or.inr
      have hbefore : (r₀.undergoAll turns).Cached id →
          ((r₀.undergoAll turns).undergo t).2.Waits id ∨
            (Happened (Secures id) r₀ turns ∨ Secures id (r₀.undergoAll turns) t) := by
        intro h
        rcases (hpast h).2 with hwaits | hsecured
        · exact hkeep (Or.inl hwaits)
        · exact Or.inr (Or.inl hsecured)
      rcases cached_undergo hdistinct hcached with h | h
      · exact ⟨Or.inl (hpast h).1, hbefore h⟩
      · refine ⟨Or.inr h, ?_⟩
        -- a torn turn executes only what was cached before it
        by_cases htorn : ∃ e, (r₀.undergoAll turns).Torn t e
        · obtain ⟨e, htorn⟩ := htorn
          rw [← id_of_torn htorn h] at hbefore ⊢
          exact hbefore (cached_of_swept hdistinct htorn.2.2.2.1)
        · exact hkeep (Or.inr ⟨h, not_exists.1 htorn⟩)

/-! ## What is kept track of -/

theorem tracked_apart {r : Replica σ} {t : Turn} {pre post : List SweepStep} {e : LogEntry}
    (same : r.undergo t = (((r.swept pre).perform t.now t.action).1,
      ((r.swept pre).perform t.now t.action).2.swept post))
    (ht : t.action = .request (.command e)) (h : (r.swept pre).Executes t.action e) :
    r.Tracked t e := by
  obtain ⟨-, hk, hr, hl⟩ := h
  have hk' : ¬ e.kind = .noop := by
    rw [hk]
    decide
  have hagain : ¬ (r.swept pre).isRetransmission e = true := by
    rw [isRetransmission, hl]
    exact Bool.false_ne_true
  rw [ht, perform_command hr] at same
  rw [Tracked, same]
  refine ⟨_, rfl, rfl, ?_⟩
  simp only [acknowledge, if_neg hk', if_neg hagain]
  split
  · left
    refine ⟨rfl, ?_⟩
    show e.id ∈ (((r.swept pre).applyOnce t.now e).2.unsynced ++ [e]).map (·.id)
    rw [List.map_append]
    exact List.mem_append_right _ (List.mem_singleton.2 rfl)
  · rename_i hconflict
    right
    rw [applyOnce_unsynced] at hconflict
    refine ⟨rfl, ?_, syncAll_unsynced _, ?_⟩
    · intro hnone
      rw [swept_unsynced, hnone] at hconflict
      exact hconflict rfl
    · show ((r.swept pre).applyOnce t.now e).2.syncAll.pending = _
      rw [syncAll_pending, applyOnce_pending, applyOnce_unsynced]
      rfl

/-- A turn that is not torn keeps track of what it executes. -/
theorem tracked_of_whole {r : Replica (Logged σ)} (hd : r.cache.Distinct) {t : Turn} {e : LogEntry}
    (ht : t.action = .request (.command e)) (hwhole : ¬ r.Torn t e) (h : CallsAmid e.id r t) :
    r.Tracked t e := by
  cases undergoes hd t with
  | apart pre post whole same =>
      obtain ⟨f, hf, -⟩ := (callsAmid_apart same e.id).1 h
      obtain rfl : f = e := by
        have hasked := hf.1
        rw [ht] at hasked
        exact (Option.some.inj hasked).symm
      exact tracked_apart same ht hf
  | torn f torn lost same     =>
      obtain rfl : f = e := Request.command.inj (Action.request.inj (torn.1.symm.trans ht))
      exact absurd torn hwhole

/-- A torn turn keeps track of what it executes exactly if that waits. -/
theorem tracked_torn {r : Replica σ} (hd : r.cache.Distinct) {t : Turn} {e : LogEntry}
    (h : r.Torn t e) : r.Tracked t e ↔ r.Waits e.id := by
  have hwaits : (r.unsynced.any fun u => u.id = e.id) = true ↔ r.Waits e.id := by
    simp [Waits]
  cases undergoes hd t with
  | apart pre post whole same => exact absurd h (whole e)
  | torn f torn lost same     =>
      obtain rfl : f = e := Request.command.inj (Action.request.inj (torn.1.symm.trans h.1))
      rw [Tracked, same]
      constructor
      · rintro ⟨reply, hreply, -, ⟨-, hleft⟩ | ⟨-, hsome, hnone, -⟩⟩
        · rw [Waits, applyOnce_unsynced] at hleft
          exact hleft
        · rw [applyOnce_unsynced] at hnone
          exact absurd hnone hsome
      · intro hleft
        refine ⟨_, rfl, rfl, Or.inl ⟨?_, ?_⟩⟩
        · simp only [hwaits.2 hleft, Bool.not_true]
        · rw [Waits, applyOnce_unsynced]
          exact hleft

/-- A leader that has done nothing yet. -/
def freshLeader (me : Address) (term : Term) (machine : σ) (retention : Nat) :
    Replica (Logged σ) := start me (some me) term ⟨machine, []⟩ retention

/-- **Which executions are kept track of**: over every machine, at a leader that has done nothing yet
    and stays leader, with sweeps at any point of any turn.  A command request that executes its
    command is answered as unsynced, and the command waits; or it is answered as synced, and all
    that waited is synced by the request.  The only exception is a request whose answer is swept away
    between its two looks, while the command does not wait.  Such an execution is not the first one
    of the command, and the command was made durable before. -/
theorem executed_tracked_iff (me : Address) (term : Term) (machine : σ) (retention : Nat)
    {turns : List Turn} (hled : ¬ Happened Deposed (freshLeader me term machine retention) turns)
    {t : Turn} {e : LogEntry} (ht : t.action = .request (.command e))
    (h : CallsAmid e.id ((freshLeader me term machine retention).undergoAll turns) t) :
    (((freshLeader me term machine retention).undergoAll turns).Tracked t e ↔
      ¬ (((freshLeader me term machine retention).undergoAll turns).Torn t e ∧
        ¬ ((freshLeader me term machine retention).undergoAll turns).Waits e.id)) ∧
    (¬ ((freshLeader me term machine retention).undergoAll turns).Tracked t e →
      Happened (CallsAmid e.id) (freshLeader me term machine retention) turns ∧
      Happened (Secures e.id) (freshLeader me term machine retention) turns) := by
  have hd : (freshLeader me term machine retention).cache.Distinct :=
    ResponseCache.distinct_empty retention
  have hempty : ∀ id, ¬ (freshLeader me term machine retention).Cached id :=
    fun id => Bool.false_ne_true
  generalize freshLeader me term machine retention = r₀ at hled h hd hempty ⊢
  obtain ⟨hdistinct, hpast⟩ := cached_past hd hempty hled e.id
  have htracked : (r₀.undergoAll turns).Tracked t e ↔
      ¬ ((r₀.undergoAll turns).Torn t e ∧ ¬ (r₀.undergoAll turns).Waits e.id) := by
    by_cases htorn : (r₀.undergoAll turns).Torn t e
    · rw [tracked_torn hdistinct htorn, not_and_not_right]
      exact ⟨fun hwaits _ => hwaits, fun himp => himp htorn⟩
    · exact iff_of_true (tracked_of_whole hdistinct ht htorn h) fun hboth => htorn hboth.1
  refine ⟨htracked, fun huntracked => ?_⟩
  obtain ⟨htorn, hwaits⟩ := not_not.1 (mt htracked.2 huntracked)
  obtain ⟨hcalled, hkept⟩ := hpast (cached_of_swept hdistinct htorn.2.2.2.1)
  exact ⟨hcalled, hkept.resolve_left hwaits⟩

/-- The law at a command that waits when its answer is swept away between the two looks of a second
    request for it.  The sweep is a whole one.  The command is executed again, and waits on. -/
theorem torn_execution_tracked :
    let me : Address := ⟨"m0"⟩
    let e : LogEntry := .command [97] [⟨[107]⟩] ⟨1⟩ ⟨1⟩
    let ask : Turn := { now := 0, action := .request (.command e) }
    let r := (freshLeader me ⟨1⟩ Echo.mk 5).undergoAll [ask]
    let again : Turn :=
      { now := 6, action := .request (.command e), between := sweepSteps 6 r.cache.clients }
    ¬ Happened Deposed (freshLeader me ⟨1⟩ Echo.mk 5) [ask] ∧ CallsAmid e.id r again ∧
      r.Torn again e ∧ r.Tracked again e := by
  intro me e ask r again
  have hled : ¬ Happened Deposed (freshLeader me ⟨1⟩ Echo.mk 5) [ask] := by decide
  have hcalls : CallsAmid e.id r again := ⟨e, [97], rfl, rfl, rfl, by decide⟩
  have htorn : r.Torn again e := by
    unfold Torn Cached
    decide
  have hwaits : r.Waits e.id := by
    unfold Waits
    decide
  exact ⟨hled, hcalls, htorn,
    (executed_tracked_iff me ⟨1⟩ Echo.mk 5 hled rfl hcalls).1.2 fun hboth => hboth.2 hwaits⟩

/-- **An execution that nobody keeps track of**: a command was executed and committed, and another
    one waits.  The first one is asked for again, and a whole sweep, which finds its answer old
    enough, comes between the two looks.  The machine is called a second time, and the answer says
    that the command is synced, while nothing is synced and the other command waits on. -/
theorem torn_execution_untracked :
    let me : Address := ⟨"m0"⟩
    let e : LogEntry := .command [97] [⟨[107]⟩] ⟨1⟩ ⟨1⟩
    let u : LogEntry := .command [98] [⟨[106]⟩] ⟨1⟩ ⟨2⟩
    let turns : List Turn := [{ now := 0, action := .request (.command e) },
      { now := 1, action := .commit }, { now := 2, action := .request (.command u) }]
    let r := (freshLeader me ⟨1⟩ Echo.mk 5).undergoAll turns
    let again : Turn :=
      { now := 6, action := .request (.command e), between := sweepSteps 6 r.cache.clients }
    ¬ Happened Deposed (freshLeader me ⟨1⟩ Echo.mk 5) turns ∧ CallsAmid e.id r again ∧
      (r.undergo again).1 = some (.command ⟨true, some me, [97], true⟩) ∧
      (r.undergo again).2.unsynced = [u] ∧ ¬ r.Tracked again e := by
  intro me e u turns r again
  have hanswer : (r.undergo again).1 = some (.command ⟨true, some me, [97], true⟩) := by decide
  have hwaits : (r.undergo again).2.unsynced = [u] := by decide
  refine ⟨by decide, ⟨e, [97], rfl, rfl, rfl, by decide⟩, hanswer, hwaits, ?_⟩
  rintro ⟨reply, hreply, -, ⟨hsynced, -⟩ | ⟨-, -, hnone, -⟩⟩
  · rw [hanswer] at hreply
    obtain rfl := Reply.command.inj (Option.some.inj hreply)
    exact nomatch hsynced
  · rw [hwaits] at hnone
    exact nomatch hnone

end Replica

end WitnessReplication

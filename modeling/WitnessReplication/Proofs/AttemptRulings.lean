import WitnessReplication.Proofs.ExactAttempts

/-!
# Attempt rulings — what the exchanges of an attempt make of it

    An attempt on the fast route can be decided in three ways: its call returns, or the leader is made
    to order the command, or the attempt has failed.  Which of them it is follows from what was
    exchanged since the attempt began: from whether the member that was believed to lead has taken
    the command, from what it said of ordering it, and from whether every selected witness has taken
    its record.

* **`Ruling`** — the three ways, and **`Rules`**, by what step.
* **`FastRuling`**, **`SyncRuling`** — what the exchanges make of an attempt.
* **`Call.Knows`** — a call knows all that was exchanged; **`Exact.ruling`**, so it decides rightly.
-/

namespace WitnessReplication

/-- How an attempt of a call is decided. -/
inductive Ruling where
  /-- The call returns this. -/
  | success (out : CommandOutput)
  /-- The leader, which has answered with this, is made to order the command, by this errand. -/
  | fallback (data : Bytes) (errand : Nat)
  /-- Nothing was committed: the call pauses before another attempt, or returns an error. -/
  | failure
  deriving DecidableEq, Inhabited

/-- How a step decides the attempt of a call.  A call that has run out of time ends without its
    attempt being decided. -/
inductive Rules (c : Call) (p : Session.Step) : Ruling → Prop where
  | returns {out : CommandOutput} (result : (c.id, .returned (.ok out)) ∈ p.results) :
      Rules c p (.success out)
  | sends {a : Attempt} {c' : Call} {data : Bytes} {errand : Nat}
      (attempting : c.stage = .attempting a) (mem : c' ∈ p.state.calls) (same : c'.id = c.id)
      (stage : c'.stage = .syncing data errand) : Rules c p (.fallback data errand)
  | pauses {c' : Call} (mem : c' ∈ p.state.calls) (same : c'.id = c.id)
      (stage : c'.stage = .pausing) : Rules c p .failure
  | fails {error : SessionError} (inTime : ∀ span, error ≠ .deadlineExceeded span)
      (result : (c.id, .returned (.error error)) ∈ p.results) : Rules c p .failure

/-- How an attempt must be decided by the exchanges `xs` since it began, when `snapshot` was believed
    to lead: `leader` is its errand to the leader, and `own` are those to the witnesses. -/
structure FastRuling (entry : LogEntry) (leader : Nat) (own : List (Nat × Nat)) (snapshot : Nat)
    (xs : List Exchange) (r : Ruling) : Prop where
  success  : ∀ out, r = .success out ↔
    ∃ reply, Taken xs leader snapshot (.command entry) reply ∧
      (reply.synced = true ∧ out = ⟨entry.seq, reply.data, .leaderSynced⟩ ∨
        reply.synced = false ∧ AllRecorded xs own entry ∧
          out = ⟨entry.seq, reply.data, .witnessQuorum⟩)
  fallback : ∀ data, (∃ errand, r = .fallback data errand) ↔
    ∃ reply, Taken xs leader snapshot (.command entry) reply ∧ reply.synced = false ∧
      ¬ AllRecorded xs own entry ∧ reply.data = data
  failure  : r = .failure ↔ ∀ reply, ¬ Taken xs leader snapshot (.command entry) reply

/-- Why the leader is made to order a command: it was believed to lead when the attempt began, it has
    taken the command without ordering it, and not all of the selected witnesses `ws` have taken
    their records.  `leader` is the attempt's errand to the leader. -/
structure Resorts (entry : LogEntry) (leader snapshot : Nat) (ws : List Nat) (data : Bytes)
    (xs : List Exchange) : Prop where
  taken  : ∃ reply, Taken xs leader snapshot (.command entry) reply ∧ reply.synced = false ∧
    reply.data = data
  missed : ¬ AllRecorded xs (recordsAfter leader ws) entry

/-- More happens, and nobody takes anything more from the errands to the witnesses. -/
theorem Resorts.append {entry : LogEntry} {leader snapshot : Nat} {ws : List Nat} {data : Bytes}
    {xs ys : List Exchange} (h : Resorts entry leader snapshot ws data xs)
    (hown : ∀ p ∈ recordsAfter leader ws, Silent ys p.1) :
    Resorts entry leader snapshot ws data (xs ++ ys) where
  taken  := by
    obtain ⟨reply, htaken, hsaid⟩ := h.taken
    exact ⟨reply, htaken.mono, hsaid⟩
  missed := fun hall => h.missed fun p hp => (hown p hp).recorded_iff.1 (hall p hp)

/-- How it must be decided once `errand` was sent out with a sync, for what the member has answered
    that was believed to lead: `ws` are the selected witnesses. -/
structure SyncRuling (entry : LogEntry) (data : Bytes) (errand snapshot : Nat) (ws : List Nat)
    (xs : List Exchange) (r : Ruling) : Prop where
  answered : ∃ leader, Resorts entry leader snapshot ws data xs
  success  : ∀ out, r = .success out ↔
    out = ⟨entry.seq, data, .explicitSync⟩ ∧ ∃ m reply, Taken xs errand m (.sync (some entry)) reply
  fallback : ∀ data errand, r ≠ .fallback data errand
  failure  : r = .failure ↔ ∀ m reply, ¬ Taken xs errand m (.sync (some entry)) reply

/-- What a call on the fast route must come to, at the stage it is at. -/
def Call.Lawful (c : Call) (selection : WitnessSelection) (size snapshot : Nat)
    (xs : List Exchange) (r : Ruling) : Prop :=
  match c.stage with
  | .attempting a        => FastRuling c.entry a.leader (a.records selection size) snapshot xs r
  | .syncing data errand =>
      SyncRuling c.entry data errand snapshot (selection.witnesses size snapshot) xs r
  | .pausing             => True

theorem Call.lawful_attempting {c : Call} {selection : WitnessSelection} {size snapshot : Nat}
    {xs : List Exchange} {r : Ruling} {a : Attempt} (h : c.stage = .attempting a) :
    c.Lawful selection size snapshot xs r ↔
      FastRuling c.entry a.leader (a.records selection size) snapshot xs r := by
  unfold Lawful
  rw [h]

theorem Call.lawful_syncing {c : Call} {selection : WitnessSelection} {size snapshot : Nat}
    {xs : List Exchange} {r : Ruling} {data : Bytes} {errand : Nat}
    (h : c.stage = .syncing data errand) :
    c.Lawful selection size snapshot xs r ↔
      SyncRuling c.entry data errand snapshot (selection.witnesses size snapshot) xs r := by
  unfold Lawful
  rw [h]

/-! ## What a call knows -/

/-- A call at any stage knows all that was exchanged with its own errands since its last attempt
    began, when `snapshot` was believed to lead. -/
def Call.Knows (c : Call) (selection : WitnessSelection) (courier : Courier) (snapshot : Nat)
    (xs : List Exchange) : Prop :=
  match c.stage with
  | .attempting a        =>
      a.snapshot = snapshot ∧ a.route = c.route ∧
        a.Traces selection c.entry courier (a.records selection courier.pool.size) xs ∧
        a.Exact c.entry courier (a.records selection courier.pool.size) xs
  | .syncing data errand =>
      (∃ leader, Resorts c.entry leader snapshot (selection.witnesses courier.pool.size snapshot)
          data xs ∧
        ∀ p ∈ recordsAfter leader (selection.witnesses courier.pool.size snapshot),
          courier.Past p.1) ∧ errand < courier.fresh ∧
        (∀ e ∈ courier.errands, e.id = errand → e.aim.purpose = .lead (.sync (some c.entry))) ∧
        Silent xs errand
  | .pausing             => True

variable {xs ys : List Exchange} {selection : WitnessSelection} {courier courier' : Courier}
  {snapshot : Nat} {c c' : Call}

theorem Call.knows_attempting {a : Attempt} (h : c.stage = .attempting a) :
    c.Knows selection courier snapshot xs ↔
      a.snapshot = snapshot ∧ a.route = c.route ∧
        a.Traces selection c.entry courier (a.records selection courier.pool.size) xs ∧
        a.Exact c.entry courier (a.records selection courier.pool.size) xs := by
  rw [Call.Knows, h]

theorem Call.knows_syncing {data : Bytes} {errand : Nat} (h : c.stage = .syncing data errand) :
    c.Knows selection courier snapshot xs ↔
      (∃ leader, Resorts c.entry leader snapshot (selection.witnesses courier.pool.size snapshot)
          data xs ∧
        ∀ p ∈ recordsAfter leader (selection.witnesses courier.pool.size snapshot),
          courier.Past p.1) ∧ errand < courier.fresh ∧
        (∀ e ∈ courier.errands, e.id = errand → e.aim.purpose = .lead (.sync (some c.entry))) ∧
        Silent xs errand := by
  rw [Call.Knows, h]

/-- The errand that a call's request goes with looks for the leader. -/
theorem Call.Knows.leading (h : c.Knows selection courier snapshot xs) :
    ∀ i, c.stage.errand? = some i → ∀ e ∈ courier.errands, e.id = i → e.Leads := by
  intro i hi e he hid
  cases hstage : c.stage with
  | pausing             => rw [hstage] at hi; exact nomatch hi
  | attempting a        =>
      rw [hstage] at hi
      obtain ⟨_, _, htraces, _⟩ := (knows_attempting hstage).1 h
      exact ⟨_, htraces.leading e he (hid.trans (Option.some.inj hi).symm)⟩
  | syncing data errand =>
      rw [hstage] at hi
      obtain ⟨_, _, hpurpose, _⟩ := (knows_syncing hstage).1 h
      exact ⟨_, hpurpose e he (hid.trans (Option.some.inj hi).symm)⟩

/-- More happens, and none of the errands that the call waits for is told of an exchange. -/
theorem Call.Knows.follows (h : c.Knows selection courier snapshot xs)
    (hf : courier.Follows courier') (hnew : ∀ y ∈ ys, y.errand < courier.fresh)
    (hguess : c.stage.awaited? = none → courier'.guess = courier.guess)
    (hgone : ∀ i, (∀ e ∈ courier.errands, e.id ≠ i) → Silent ys i)
    (hawaited : ∀ i, Session.awaits c i = true → Silent ys i) :
    c.Knows selection courier' snapshot (xs ++ ys) := by
  cases hstage : c.stage with
  | attempting a        =>
      obtain ⟨hsnapshot, hroute, htraces, hexact⟩ := (knows_attempting hstage).1 h
      have hawaits : ∀ i, i = a.leader ∨ i ∈ a.pending → Silent ys i := by
        exact fun i hi => hawaited i ((Session.awaits_attempting hstage).2 (hi.imp_left Eq.symm))
      refine (knows_attempting hstage).2 ⟨hsnapshot, hroute, ?_, ?_⟩
      · exact hf.size ▸ htraces.follows hf ys
      · rw [hf.size]
        refine hexact.follows htraces hf hnew (fun hsome => hguess ?_) (hawaits _ (Or.inl rfl)) ?_
        · rw [hstage]
          cases hanswer : a.answer with
          | none        => exact absurd hanswer hsome
          | some answer => exact Call.Stage.awaited?_answered hanswer
        · intro p hp
          by_cases hpending : p.1 ∈ a.pending
          · exact hawaits _ (Or.inr hpending)
          · exact hgone _ (hexact.heard p hp hpending)
  | syncing data errand =>
      obtain ⟨⟨leader, hresorts, hpast⟩, hlt, hpurpose, hsilent⟩ := (knows_syncing hstage).1 h
      rw [← hf.size] at hresorts hpast
      refine (knows_syncing hstage).2 ⟨⟨leader, hresorts.append fun p hp => hgone p.1 (hpast p hp).2,
        fun p hp => (hpast p hp).follows hf⟩,
        Nat.lt_of_lt_of_le hlt hf.fresh, hf.purpose hlt hpurpose, ?_⟩
      have hquiet := hawaited errand ((Session.awaits_syncing hstage).2 rfl)
      exact fun m q reply htaken => hsilent m q reply (hquiet.append_iff.1 htaken)
  | pausing             =>
      rw [Call.Knows, hstage]
      trivial

/-- What is decided, as a ruling; `errand` is the number that an errand with a sync gets. -/
def Decision.ruling (entry : LogEntry) (errand : Nat) : Decision → Ruling
  | .commit data path => .success ⟨entry.seq, data, path⟩
  | .sync data        => .fallback data errand
  | .fail _           => .failure

/-- What an attempt knows that waits for nobody decides it as its exchanges say. -/
theorem Attempt.Exact.ruling {a : Attempt} {own : List (Nat × Nat)} {entry : LogEntry}
    (h : a.Exact entry courier own xs) (ht : a.Traces selection entry courier own xs)
    (hfast : a.route = .fast) {answer : Except SessionError Reply} (hanswer : a.answer = some answer)
    (hpending : a.pending = []) (hsnapshot : a.snapshot = snapshot) (errand : Nat) :
    FastRuling entry a.leader own snapshot xs
      ((a.decision courier.guess answer).ruling entry errand) := by
  have htaken := h.answered answer hanswer snapshot
  have hall := h.allRecorded_iff ht hpending
  cases answer with
  | error error =>
      have hnone : ∀ reply, ¬ Taken xs a.leader snapshot (.command entry) reply :=
        fun reply hr => nomatch ((htaken reply).1 hr).2
      show FastRuling entry a.leader own snapshot xs .failure
      constructor <;> simp [hnone]
  | ok reply    =>
      have honly : ∀ reply', Taken xs a.leader snapshot (.command entry) reply' ↔
          courier.guess = a.snapshot ∧ reply' = reply := by
        intro reply'
        rw [htaken reply', Except.ok.injEq, ← hsnapshot, eq_comm, eq_comm (a := reply)]
      have hdecides := a.decides courier.guess reply
      generalize a.decision courier.guess (.ok reply) = d at hdecides
      -- with the reply and the count of witnesses in hand, each case is read off
      cases hdecides with
      | leaderOnly route                          => rw [hfast] at route; exact nomatch route
      | leaderChanged route moved                 =>
          constructor <;> simp [Decision.ruling, honly, moved]
      | leaderSynced route stays synced           =>
          constructor <;> simp [Decision.ruling, honly, stays, synced]
          exact fun _ => eq_comm
      | witnessQuorum route stays unsynced counts =>
          constructor <;> simp [Decision.ruling, honly, stays, unsynced, hall, counts]
          exact fun _ => eq_comm
      | sync route stays unsynced missed          =>
          constructor <;> simp [Decision.ruling, honly, stays, unsynced, hall, missed]

end WitnessReplication

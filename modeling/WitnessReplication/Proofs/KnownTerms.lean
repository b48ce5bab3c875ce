import WitnessReplication.Proofs.SessionEvents

/-!
# Known terms — what a session knows of the witnesses' term is what refusals have told

    A session does not ask for the witnesses' term.  It sends its records under the highest term
    that it knows, and a witness that refuses one says under which term it is.  The records of all
    calls read and raise the same number, each at moments of its own.

    So the number is followed through every run by looking at the replies to records and at nothing
    else: a reply that refuses raises it to the term that is told, and a reply that accepts leaves
    it.  No other step of an errand touches it, and nothing else that a session does.

* **`Receipt`**, **`receipt?`** and **`receipts`** — the replies to the records of a run.
* **`Term.highest`** — the maximum of zero and some terms, and **`highest_spec`**, that it is this.
* **`Courier.step_knownTerm`** — what a step of an errand does to what is known.
* **`known_run`** — what is known after a run, from what was known before.
* **`Opened.untold`** — a session that was just opened knows of no term.
-/

namespace WitnessReplication

-- ── Terms ────────────────────────────────────────────────────────────────────────────────────────

namespace Term

/-- The maximum of zero and some terms. -/
def highest (ts : List Term) : Term := ts.foldl Term.max ⟨0⟩

theorem max_eq_or (s t : Term) : s.max t = s ∨ s.max t = t := by
  rw [max]
  split
  · exact .inr rfl
  · exact .inl rfl

theorem le_max_left (s t : Term) : s.val ≤ (s.max t).val := by
  rw [max]
  split
  · rename_i hlt
    exact UInt64.le_of_lt hlt
  · exact UInt64.le_refl _

theorem le_max_right (s t : Term) : t.val ≤ (s.max t).val := by
  rw [max]
  split
  · exact UInt64.le_refl _
  · rename_i hlt
    exact UInt64.not_lt.1 hlt

@[simp] theorem max_zero (t : Term) : t.max ⟨0⟩ = t := by
  rw [max, if_neg]
  exact UInt64.not_lt_zero

theorem max_self (t : Term) : t.max t = t := (max_eq_or t t).elim id id

/-- Raised by some terms, a term is at least as high as before and as each of them, and it is itself
    or one of them. -/
theorem foldl_max_spec (s : Term) (ts : List Term) :
    s.val ≤ (ts.foldl Term.max s).val ∧ (∀ t ∈ ts, t.val ≤ (ts.foldl Term.max s).val) ∧
      (ts.foldl Term.max s = s ∨ ts.foldl Term.max s ∈ ts) := by
  induction ts generalizing s with
  | nil          => exact ⟨UInt64.le_refl _, List.forall_mem_nil _, .inl rfl⟩
  | cons t ts ih =>
      obtain ⟨hfirst, hrest, hmem⟩ := ih (s.max t)
      refine ⟨UInt64.le_trans (le_max_left s t) hfirst, List.forall_mem_cons.2
        ⟨UInt64.le_trans (le_max_right s t) hfirst, hrest⟩, ?_⟩
      show ts.foldl Term.max (s.max t) = s ∨ ts.foldl Term.max (s.max t) ∈ t :: ts
      rcases hmem with heq | hmem
      · rw [heq]
        rcases max_eq_or s t with h | h
        · exact .inl h
        · exact .inr (List.mem_cons.2 (.inl h))
      · exact .inr (List.mem_cons_of_mem t hmem)

/-- **The highest of some terms**: none of them is higher, and it is zero or one of them. -/
theorem highest_spec (ts : List Term) :
    (∀ t ∈ ts, t.val ≤ (highest ts).val) ∧ (highest ts = ⟨0⟩ ∨ highest ts ∈ ts) :=
  (foldl_max_spec ⟨0⟩ ts).2

end Term

-- ── Replies to records ───────────────────────────────────────────────────────────────────────────

/-- A reply to a record: the errand that hears it, what it has brought to its witness under which
    term, and the reply. -/
structure Receipt where
  errand  : Nat
  witness : Nat
  entry   : LogEntry
  term    : Term
  reply   : Reply

/-- The term that a reply tells that refuses. -/
def Receipt.told? (r : Receipt) : Option Term := if r.reply.accepted then none else r.reply.term?

/-- The terms that are told by some replies. -/
def told (rs : List Receipt) : List Term := rs.filterMap Receipt.told?

namespace Courier

/-- The reply to a record that a signal is: its errand waits at the witness. -/
def receipt? (c : Courier) (id : Nat) : Signal → Option Receipt
  | .answered (.ok reply) =>
      match c.find? id with
      | some ⟨_, .record w entry term, .exchanging _⟩ => some ⟨id, w, entry, term, reply⟩
      | _                                             => none
  | _                     => none

variable {c : Courier} {e : Errand}

theorem receipt?_eq_some_iff {id : Nat} {s : Signal} {r : Receipt} :
    c.receipt? id s = some r ↔ r.errand = id ∧ s = .answered (.ok r.reply) ∧
      ∃ e m, c.find? id = some e ∧ e.stage = .exchanging m ∧
        e.aim = .record r.witness r.entry r.term := by
  constructor
  · intro h
    unfold receipt? at h
    split at h
    · split at h
      · rename_i hfind
        obtain rfl := Option.some.inj h
        exact ⟨rfl, rfl, _, _, hfind, rfl, rfl⟩
      · exact nomatch h
    · exact nomatch h
  · rintro ⟨rfl, rfl, ⟨id, aim, stage⟩, m, hfind, rfl, rfl⟩
    simp only [receipt?, hfind]

/-- What a record is told that waits for no reply is none. -/
theorem receipt?_of_find {id : Nat} {s : Signal} (hf : c.find? id = some e)
    (h : ∀ w entry term m, e.aim = .record w entry term → e.stage ≠ .exchanging m) :
    c.receipt? id s = none := by
  refine Option.eq_none_iff_forall_ne_some.2 fun r hr => ?_
  obtain ⟨_, _, f, m, hf', hstage, haim⟩ := receipt?_eq_some_iff.1 hr
  obtain rfl := Option.some.inj (hf.symm.trans hf')
  exact h _ _ _ m haim hstage

-- ── The functions of a step, one by one ──────────────────────────────────────────────────────────

/-- What was not exchanged tells nothing. -/
theorem settle_error_knownTerm (error : TransportError) :
    (c.settle e (.error error)).state.knownTerm = c.knownTerm := by
  obtain ⟨id, aim, stage⟩ := e
  cases aim with
  | lead request tries =>
      unfold settle
      dsimp only
      cases Locator.verdict c.pool c.guess (.error error) <;> rfl
  | _                  => rfl

/-- Only what a record comes to tells something. -/
theorem settle_knownTerm (h : ∀ w entry term, e.aim ≠ .record w entry term)
    (outcome : Except TransportError Reply) :
    (c.settle e outcome).state.knownTerm = c.knownTerm := by
  obtain ⟨id, aim, stage⟩ := e
  cases aim with
  | record w entry term => exact absurd rfl (h w entry term)
  | lead request tries  =>
      unfold settle
      dsimp only
      cases Locator.verdict c.pool c.guess outcome <;> rfl
  | _                   => rfl

/-- A reply to a record tells a term if it refuses. -/
theorem settle_record_knownTerm {r : Receipt} (h : e.aim = .record r.witness r.entry r.term) :
    (c.settle e (.ok r.reply)).state.knownTerm = (told [r]).foldl Term.max c.knownTerm := by
  obtain ⟨id, aim, stage⟩ := e
  obtain rfl : aim = .record r.witness r.entry r.term := h
  unfold settle
  dsimp only
  cases haccepted : r.reply.accepted with
  | true  =>
      have htold : told [r] = [] := by simp [told, Receipt.told?, haccepted]
      rw [if_pos rfl, htold]
      rfl
  | false =>
      rw [if_neg Bool.false_ne_true]
      show c.knownTerm.max (r.reply.term?.getD ⟨0⟩) = _
      cases hterm : r.reply.term? with
      | none   => simp [told, Receipt.told?, haccepted, hterm]
      | some t => simp [told, Receipt.told?, haccepted, hterm]

theorem moveOn_knownTerm (m : Nat) (reached : Bool) :
    (c.moveOn e m reached).state.knownTerm = c.knownTerm := by
  unfold moveOn
  dsimp only
  split <;> rfl

theorem use_knownTerm (m : Nat) : (c.use e m).state.knownTerm = c.knownTerm := by
  unfold use
  split
  · rfl
  · exact moveOn_knownTerm m true

theorem enter_knownTerm (m : Nat) : (c.enter e m).state.knownTerm = c.knownTerm := by
  unfold enter
  split
  · exact moveOn_knownTerm m false
  · split
    · exact use_knownTerm m
    · rfl

theorem enterOrWait_knownTerm (m : Nat) : (c.enterOrWait e m).state.knownTerm = c.knownTerm := by
  unfold enterOrWait
  split
  · exact enter_knownTerm m
  · rfl

theorem visit_knownTerm (m : Nat) : (c.visit e m).state.knownTerm = c.knownTerm := by
  unfold visit
  split
  · exact settle_error_knownTerm _
  · exact enterOrWait_knownTerm m

theorem setOff_knownTerm : (c.setOff e).state.knownTerm = c.knownTerm := by
  unfold setOff
  split
  · exact visit_knownTerm _
  · rfl
  · exact visit_knownTerm _
  · exact visit_knownTerm _
  · split
    · exact enterOrWait_knownTerm _
    · rfl
  · split
    · exact enterOrWait_knownTerm _
    · rfl

theorem proceed_knownTerm : (c.proceed e).state.knownTerm = c.knownTerm := by
  unfold proceed
  split
  · exact setOff_knownTerm
  · split
    · exact setOff_knownTerm
    · rfl
  · split
    · exact enter_knownTerm _
    · rfl
  · rfl

theorem connected_knownTerm (outcome : Except TransportError Unit) :
    (c.connected e outcome).state.knownTerm = c.knownTerm := by
  unfold connected
  split
  · exact use_knownTerm _
  · split
    · exact settle_error_knownTerm _
    · exact moveOn_knownTerm _ _
  · rfl

/-- An exchange that is over is settled. -/
theorem step_answered {id m : Nat} (hf : c.find? id = some e) (hstage : e.stage = .exchanging m)
    (outcome : Except TransportError Reply) :
    ∃ pool, c.step id (.answered outcome) = { c with pool }.settle e outcome := by
  rw [step, hf]
  dsimp only
  rw [answered, hstage]
  exact ⟨_, rfl⟩

/-- An exchange that is over tells a term if it was a record, and was refused. -/
theorem step_answered_knownTerm {id m : Nat} (hf : c.find? id = some e)
    (hstage : e.stage = .exchanging m) (outcome : Except TransportError Reply) :
    (c.step id (.answered outcome)).state.knownTerm =
      (told (c.receipt? id (.answered outcome)).toList).foldl Term.max c.knownTerm := by
  obtain ⟨pool, hsettle⟩ := step_answered hf hstage outcome
  rw [hsettle]
  by_cases haim : ∃ w entry term, e.aim = .record w entry term
  · obtain ⟨w, entry, term, haim⟩ := haim
    cases outcome with
    | error error => exact settle_error_knownTerm error
    | ok reply    =>
        have hreceipt : c.receipt? id (.answered (.ok reply)) = some ⟨id, w, entry, term, reply⟩ :=
          receipt?_eq_some_iff.2 ⟨rfl, rfl, e, m, hf, hstage, haim⟩
        rw [hreceipt]
        exact settle_record_knownTerm (r := ⟨id, w, entry, term, reply⟩) haim
  · have hnot : ∀ w entry term, e.aim ≠ .record w entry term :=
      fun w entry term h => haim ⟨w, entry, term, h⟩
    rw [receipt?_of_find hf fun w entry term _ h => absurd h (hnot w entry term)]
    exact settle_knownTerm hnot outcome

/-- **What a step of an errand does to what is known**: a reply that refuses a record raises it to
    the term that is told, and nothing else changes it. -/
theorem step_knownTerm (c : Courier) (id : Nat) (s : Signal) :
    (c.step id s).state.knownTerm = (told (c.receipt? id s).toList).foldl Term.max c.knownTerm := by
  have hquiet : (c.step id s).state.knownTerm = c.knownTerm → c.receipt? id s = none →
      (c.step id s).state.knownTerm =
        (told (c.receipt? id s).toList).foldl Term.max c.knownTerm := by
    intro hsame hnone
    rw [hsame, hnone]
    rfl
  cases hf : c.find? id with
  | none   =>
      refine hquiet (by rw [step_of_gone hf]) ?_
      refine Option.eq_none_iff_forall_ne_some.2 fun r hr => ?_
      obtain ⟨_, _, f, _, hf', _⟩ := receipt?_eq_some_iff.1 hr
      exact nomatch hf.symm.trans hf'
  | some e =>
      cases s with
      | proceed           =>
          refine hquiet ?_ rfl
          rw [step, hf]
          exact proceed_knownTerm
      | connected outcome =>
          refine hquiet ?_ rfl
          rw [step, hf]
          exact connected_knownTerm outcome
      | rested            =>
          refine hquiet ?_ rfl
          rw [step, hf]
          dsimp only
          unfold rested
          split <;> rfl
      | expired           =>
          refine hquiet ?_ rfl
          rw [step, hf]
      | answered outcome  =>
          by_cases hstage : ∃ m, e.stage = .exchanging m
          · obtain ⟨m, hstage⟩ := hstage
            exact step_answered_knownTerm hf hstage outcome
          · have hnot : ∀ m, e.stage ≠ .exchanging m := fun m h => hstage ⟨m, h⟩
            refine hquiet ?_ (receipt?_of_find hf fun _ _ _ m _ => hnot m)
            rw [step, hf]
            dsimp only
            unfold answered
            split
            · rename_i m h
              exact absurd h (hnot m)
            · rfl

/-- What is about no errand from before tells nothing. -/
theorem happen_knownTerm {x : Event} (h : ∀ id s, x ≠ .tells id s) :
    (c.happen x).state.knownTerm = c.knownTerm := by
  cases x with
  | number           => rfl
  | leads request    => rfl
  | closes           => rfl
  | callsOff id      => rfl
  | tells id s       => exact absurd rfl (h id s)
  | records entry ws =>
      show (c.beginRecords entry ws).2.knownTerm = _
      rw [beginRecords_eq]

theorem run_knownTerm {xs : List Event} (h : ∀ y ∈ xs, y.errand? = none) :
    (c.run xs).state.knownTerm = c.knownTerm := by
  induction xs generalizing c with
  | nil          => rfl
  | cons x xs ih =>
      obtain ⟨hx, hrest⟩ := List.forall_mem_cons.1 h
      refine (ih hrest).trans (happen_knownTerm ?_)
      rintro id s rfl
      exact nomatch hx

end Courier

-- ── Every run ────────────────────────────────────────────────────────────────────────────────────

namespace Session

/-- The reply to a record that an input is. -/
def receipt? (s : Session) : Input → Option Receipt
  | .signal id sig => if (s.call? id).isNone then s.courier.receipt? id sig else none
  | _              => none

/-- The replies to records in a run, in order. -/
def receipts (s : Session) : List Input → List Receipt
  | []        => []
  | x :: rest => (s.receipt? x).toList ++ (s.react x).state.receipts rest

variable {s s₀ : Session}

/-- Every reply of a run came with one of its inputs. -/
theorem mem_receipts {xs : List Input} {r : Receipt} (hr : r ∈ s.receipts xs) :
    ∃ before x after, xs = before ++ x :: after ∧ (s.run before).receipt? x = some r := by
  induction xs generalizing s with
  | nil          => exact nomatch hr
  | cons x xs ih =>
      rcases List.mem_append.1 hr with hr | hr
      · exact ⟨[], x, xs, rfl, Option.mem_toList.1 hr⟩
      · obtain ⟨before, y, after, rfl, hy⟩ := ih hr
        exact ⟨x :: before, y, after, rfl, hy⟩

/-- What is told under the number of a call is told to no errand. -/
theorem Sound.find?_eq_none (h : s.Sound) {id : Nat} {c : Call} (hcall : s.call? id = some c) :
    s.courier.find? id = none := by
  refine List.find?_eq_none.2 fun e he => ?_
  rw [decide_eq_true_eq]
  intro hid
  have hnone := h.call?_eq_none he
  rw [hid, hcall] at hnone
  exact nomatch hnone

/-- **What an input does to what is known.** -/
theorem known_react (h : s.Sound) (x : Input) :
    (s.react x).state.courier.knownTerm =
      (told (s.receipt? x).toList).foldl Term.max s.courier.knownTerm := by
  -- an errand is told something, or none is
  have hquiet : s.receipt? x = none →
      (∀ id sig, x = .signal id sig → s.courier.find? id = none) →
      (s.react x).state.courier.knownTerm =
        (told (s.receipt? x).toList).foldl Term.max s.courier.knownTerm := by
    intro hnone hdeaf
    obtain ⟨xs, hdrives⟩ := react_drives h.order x
    rw [hnone, hdrives.courier]
    cases hdrives.prompts with
    | alone calm                => exact Courier.run_knownTerm calm
    | callsOff _ _ _            => rfl
    | @tells i sig ys input calm =>
        have hgone : s.courier.happen (.tells i sig) = { state := s.courier } :=
          Courier.step_of_gone (hdeaf i sig input) sig
        show ((s.courier.happen (.tells i sig)).state.run ys).state.knownTerm = _
        rw [hgone]
        exact Courier.run_knownTerm calm
  cases x with
  | invoke _ _ _ _ => exact hquiet rfl fun _ _ hx => nomatch hx
  | close          => exact hquiet rfl fun _ _ hx => nomatch hx
  | signal id sig  =>
      cases hcall : s.call? id with
      | some c =>
          refine hquiet (by simp [receipt?, hcall]) fun i sig' hx => ?_
          obtain ⟨rfl, -⟩ := Input.signal.inj hx
          exact h.find?_eq_none hcall
      | none   =>
          have hreact : s.react (.signal id sig) = s.absorb (s.courier.step id sig) :=
            step_errand hcall sig
          have hreceipt : s.receipt? (.signal id sig) = s.courier.receipt? id sig := by
            simp [receipt?, hcall]
          obtain ⟨ys, hcalm, hdrives⟩ := absorb_drives h.order id sig
          rw [hreact, hdrives.courier, hreceipt, ← Courier.step_knownTerm]
          exact Courier.run_knownTerm hcalm

/-- Nothing makes a session know less. -/
theorem known_react_le (h : s.Sound) (x : Input) :
    s.courier.knownTerm.val ≤ (s.react x).state.courier.knownTerm.val := by
  rw [known_react h x]
  exact (Term.foldl_max_spec ..).1

/-- **What is known after a run** is what was known before, raised by what was told. -/
theorem known_run (h : s.Sound) (xs : List Input) :
    (s.run xs).courier.knownTerm =
      (told (s.receipts xs)).foldl Term.max s.courier.knownTerm := by
  induction xs generalizing s with
  | nil          => rfl
  | cons x xs ih =>
      show ((s.react x).state.run xs).courier.knownTerm =
        (((s.receipt? x).toList ++ (s.react x).state.receipts xs).filterMap Receipt.told?).foldl
          Term.max s.courier.knownTerm
      rw [ih (react_sound h x), known_react h x, List.filterMap_append, List.foldl_append]
      rfl

end Session

-- ── A session that was just opened ───────────────────────────────────────────────────────────────

/-- A courier without records, to which nobody has told a term. -/
structure Courier.Untold (c : Courier) : Prop where
  known   : c.knownTerm = ⟨0⟩
  unnoted : ∀ e ∈ c.errands, ¬ e.Notes

namespace Courier.Untold

variable {c : Courier}

theorem begin (h : c.Untold) (aim : Errand.Aim)
    (haim : ∀ w entry, aim.purpose ≠ .record w entry) : (c.begin aim).2.Untold := by
  obtain ⟨_, _, _, _, hknown, stage, _, herrands⟩ := c.errands_begin aim
  refine ⟨hknown.trans h.known, fun e he => ?_⟩
  rw [herrands] at he
  rcases List.mem_append.1 he with he | he
  · exact h.unnoted e he
  · rw [List.mem_singleton.1 he]
    exact fun ⟨w, entry, hp⟩ => haim w entry hp

/-- Without a record there is no reply to one. -/
theorem step (h : c.Untold) (ho : c.InOrder) (id : Nat) (s : Signal) :
    (c.step id s).state.Untold := by
  have hreceipt : c.receipt? id s = none := by
    refine Option.eq_none_iff_forall_ne_some.2 fun r hr => ?_
    obtain ⟨_, _, e, _, hf, _, haim⟩ := receipt?_eq_some_iff.1 hr
    exact h.unnoted e (List.mem_of_find?_eq_some hf) ⟨r.witness, r.entry, by rw [haim]; rfl⟩
  constructor
  case known   =>
    rw [step_knownTerm, hreceipt]
    exact h.known
  case unnoted =>
    rcases step_advances ho.placed id s with ⟨_, hidle⟩ | ⟨e, hf, rfl, hadv⟩
    · rw [hidle]
      exact h.unnoted
    · rintro e' he' ⟨w, entry, hp⟩
      -- whatever the errand was for before the step, it still is
      rcases (hadv.follows (List.mem_of_find?_eq_some hf)).errands e' he' with
        ⟨f, hf', _, hpurpose⟩ | hnew
      · exact h.unnoted f hf' ⟨w, entry, hpurpose.trans hp⟩
      · have hlt := (hadv.inOrder (List.mem_of_find?_eq_some hf) ho).numbered e' he'
        rw [hadv.keeps.fresh] at hlt
        omega

end Courier.Untold

namespace Opening

/-- What becomes of an opening whose errand has ended, and a session that it leads to. -/
theorem deliver_untold {o : Opening} (h : o.courier.Untold) (id : Nat)
    (outcome : Errand.Outcome) :
    (o.deliver id outcome).state.courier.Untold ∧
      ∀ who s, (who, Except.ok s) ∈ (o.deliver id outcome).results → s.courier.Untold := by
  cases outcome with
  | surveyed reached =>
      cases reached with
      | nil                =>
          refine ⟨h, fun who s hmem => ?_⟩
          exact nomatch congrArg Prod.snd (List.mem_singleton.1 hmem)
      | cons guess reached =>
          have huntold : Courier.Untold { o.courier with guess } := ⟨h.known, h.unnoted⟩
          exact ⟨huntold.begin (.lead .clientId o.courier.pool.size) fun _ _ hp => (nomatch hp),
            fun _ _ hmem => nomatch hmem⟩
  | led answer       =>
      refine ⟨h, fun who s hmem => ?_⟩
      have hsession := congrArg Prod.snd (List.mem_singleton.1 hmem)
      cases answer with
      | error error => exact nomatch hsession
      | ok reply    =>
          rw [Except.ok.inj hsession]
          exact h
  | replied _        => exact ⟨h, fun _ _ hmem => nomatch hmem⟩
  | recorded _       => exact ⟨h, fun _ _ hmem => nomatch hmem⟩
  | closed           => exact ⟨h, fun _ _ hmem => nomatch hmem⟩

theorem step_untold {o : Opening} (ho : o.InOrder) (h : o.courier.Untold) (id : Nat)
    (sig : Signal) :
    (o.step id sig).state.courier.Untold ∧
      ∀ who s, (who, Except.ok s) ∈ (o.step id sig).results → s.courier.Untold := by
  have hstep := h.step ho.courier id sig
  unfold step
  rcases Courier.step_advances ho.courier.placed id sig with ⟨_, hidle⟩ | ⟨e, hf, rfl, hadv⟩
  · rw [Progress.feed_of_nil (by rw [hidle])]
    exact ⟨hstep, fun _ _ hmem => nomatch hmem⟩
  · cases hadv.turns with
    | rests _ results           =>
        rw [Progress.feed_of_nil results]
        exact ⟨hstep, fun _ _ hmem => nomatch hmem⟩
    | moves _ _ _ _ _ results   =>
        rw [Progress.feed_of_nil results]
        exact ⟨hstep, fun _ _ hmem => nomatch hmem⟩
    | ends outcome _ _ results  =>
        obtain ⟨hstate, hres⟩ := Progress.feed_of_singleton (β := Opening) results
        rw [hstate, hres]
        exact deliver_untold hstep e.id outcome

theorem run_untold {o : Opening} (ho : o.InOrder) (h : o.courier.Untold)
    (told : List (Nat × Signal)) : (o.run told).courier.Untold := by
  induction told generalizing o with
  | nil            => exact h
  | cons t told ih => exact ih (step_inOrder ho t.1 t.2).1 (step_untold ho h t.1 t.2).1

end Opening

/-- **A session that was just opened knows of no term.** -/
theorem Session.Opened.untold {s : Session} (h : s.Opened) : s.courier.Untold := by
  obtain ⟨config, o, told, id, sig, who, hbegin, hmem⟩ := h
  have hstart : o.courier.Untold := by
    unfold Opening.begin at hbegin
    split at hbegin
    · cases hbegin
    · split at hbegin
      · cases hbegin
      · obtain rfl := Except.ok.inj hbegin
        have hnone : Courier.Untold
            { pool := .ofMembers config.members, guess := 0, backoff := 0 } :=
          ⟨rfl, List.forall_mem_nil _⟩
        exact ⟨rfl, (hnone.begin (.survey 0 []) fun _ _ hp => nomatch hp).unnoted⟩
  have horder := Opening.begin_inOrder hbegin
  exact (Opening.step_untold (Opening.run_inOrder horder told)
    (Opening.run_untold horder hstart told) id sig).2 who s hmem

end WitnessReplication

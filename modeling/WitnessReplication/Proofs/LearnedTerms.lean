import WitnessReplication.Proofs.BegunCommands
import WitnessReplication.Proofs.CarriedTerms
import WitnessReplication.Proofs.WitnessQuorum

/-!
# Learned terms — one answer from a witness is enough

    A session that does not know the witnesses' term sends its first records in vain, and makes the
    leader order those commands durably.  It takes one reply to a record, of whichever call, for the
    term to be known.  An attempt that begins later brings all its records under this term, so they
    are all accepted, and nobody has to be made to order anything because of the term.

    An attempt is full as long as every witness that it has heard of has accepted.  What can make it
    less than full is the end of one of its own records, and the records of an attempt that begins
    when the term is known do not come to nothing, unless the session is closed meanwhile.

* **`Attempt.Full`** — nobody is missed so far.
* **`Session.Fares`** and **`react_fares`** — how an input leaves every call's attempt.
* **`full_run`** — an attempt that begins once the term is known stays full.
* **`witness_term_learned`** — the law, for every session that was opened and every run.
-/

namespace WitnessReplication

/-- Every selected witness that an attempt has heard of has accepted. -/
def Attempt.Full (a : Attempt) : Prop := a.accepted + a.pending.length = a.selected

/-- A full attempt stays so when one of its witnesses accepts. -/
theorem Attempt.Full.hear {a : Attempt} (h : a.Full) {i : Nat} (hi : i ∈ a.pending) :
    (a.hear i true).Full := by
  have hpos := List.length_pos_of_mem hi
  have hlength : (a.pending.erase i).length = a.pending.length - 1 := List.length_erase_of_mem hi
  have hfull : a.accepted + a.pending.length = a.selected := h
  show a.accepted + 1 + (a.pending.erase i).length = a.selected
  omega

/-- If the leader has to be made to order a command, somebody was missed. -/
theorem Attempt.missed_of_sync {a : Attempt} {guess : Nat} {answer : Except SessionError Reply}
    {data : Bytes} (h : a.decision guess answer = .sync data) : a.accepted ≠ a.selected := by
  obtain ⟨reply, rfl, _⟩ := Attempt.decision_eq_sync h
  have hdecides := a.decides guess reply
  rw [h] at hdecides
  cases hdecides with
  | sync _ _ _ missed => exact missed

/-- What comes to its end as a record is one. -/
theorem Courier.noted_of_recorded {c : Courier} (h : c.InOrder) {i : Nat} {sig : Signal} {ok : Bool}
    (hr : (c.step i sig).results = [(i, .recorded ok)]) :
    ∃ e, c.find? i = some e ∧ e.id = i ∧ ∃ w entry t, e.aim = .record w entry t := by
  rcases step_advances h.placed i sig with ⟨_, hidle⟩ | ⟨e, hf, hid, hadv⟩
  · rw [hidle] at hr
    exact nomatch hr
  · refine ⟨e, hf, hid, ?_⟩
    cases hadv.turns with
    | rests _ results                   => exact nomatch results.symm.trans hr
    | moves _ _ _ _ _ results           => exact nomatch results.symm.trans hr
    | ends outcome warranted _ results  =>
        obtain rfl : outcome = .recorded ok :=
          congrArg Prod.snd (List.singleton_inj.1 (results.symm.trans hr))
        obtain ⟨⟨w, entry, hp⟩, _⟩ := warranted
        obtain ⟨id, aim, stage⟩ := e
        cases aim with
        | record w entry t => exact ⟨w, entry, t, rfl⟩
        | lead _ _ | direct _ _ | survey _ _ | close _ => exact nomatch hp

namespace Session

variable {s s₀ s₁ t : Session} {p : Step} {c d : Call} {x : Input} {xs ys : List Input} {T : Term}

-- ── How an input leaves every attempt ────────────────────────────────────────────────────────────

/-- How an input leaves a call, as far as its records go. -/
inductive Fares (s : Session) (x : Input) (c' : Call) : Prop where
  | stays (mem : c' ∈ s.calls)
  | pauses (stage : c'.stage = .pausing)
  /-- An attempt begins, and all its records are new. -/
  | begins (a : Attempt) (stage : c'.stage = .attempting a) (full : a.Full)
      (new : ∀ i ∈ a.pending, s.courier.fresh ≤ i)
  /-- The leader has answered, or nothing has happened to the attempt. -/
  | goesOn (c : Call) (a : Attempt) (answer : Option (Except SessionError Reply))
      (mem : c ∈ s.calls) (id : c.id = c'.id) (attempts : c.attempts = c'.attempts)
      (before : c.stage = .attempting a) (stage : c'.stage = .attempting { a with answer })
  /-- A record has come to its end. -/
  | hears (c : Call) (a : Attempt) (i : Nat) (sig : Signal) (ok : Bool) (mem : c ∈ s.calls)
      (id : c.id = c'.id) (attempts : c.attempts = c'.attempts) (before : c.stage = .attempting a)
      (awaited : awaits c i = true) (input : x = .signal i sig)
      (told : (s.courier.step i sig).results = [(i, .recorded ok)])
      (stage : c'.stage = .attempting (a.hear i ok))
  /-- Everybody was heard of, and somebody was missed. -/
  | syncs (c : Call) (a : Attempt) (mem : c ∈ s.calls) (id : c.id = c'.id)
      (attempts : c.attempts = c'.attempts) (before : c.stage = .attempting a)
      (done : a.pending = []) (missed : a.accepted ≠ a.selected)

/-- A call is put in place of what it was. -/
theorem put_fares (h : ∀ d ∈ t.calls, s.Fares x d) (hc : s.Fares x c) :
    ∀ d ∈ (t.put c).calls, s.Fares x d := by
  intro d hd
  obtain ⟨e, he, rfl⟩ := List.mem_map.1 hd
  by_cases hid : e.id = c.id
  · rw [if_pos hid]
    exact hc
  · rw [if_neg hid]
    exact h e he

theorem finish_fares (h : ∀ d ∈ t.calls, s.Fares x d) (c : Call)
    (result : Except SessionError CommandOutput) :
    ∀ d ∈ (t.finish c result).state.calls, s.Fares x d :=
  fun d hd => h d (List.mem_filter.1 hd).1

theorem conclude_fares (h : ∀ d ∈ t.calls, s.Fares x d) (c : Call) (error : SessionError) :
    ∀ d ∈ (t.conclude c error).state.calls, s.Fares x d := by
  unfold conclude
  split
  · exact finish_fares h c _
  · exact put_fares h (.pauses rfl)

/-- A call makes its next attempt, with new records, unless the session is closed. -/
theorem goRound_fares (h : ∀ d ∈ t.calls, s.Fares x d) (hfresh : s.courier.fresh ≤ t.courier.fresh)
    (c : Call) : ∀ d ∈ (t.goRound c).state.calls, s.Fares x d := by
  unfold goRound
  split
  · exact finish_fares h c _
  · rw [startAttempt_eq]
    refine put_fares (t := { t with courier := t.sendsOut c }) h
      (.begins (t.nextAttempt c) rfl ?_ fun i hi => ?_)
    · show 0 + (List.range' _ _).length = _
      rw [List.length_range', Nat.zero_add]
      rfl
    · obtain ⟨_, _, hi⟩ := List.mem_range'.1 hi
      omega

/-- A call's attempt has moved on, and is decided if nobody is waited for. -/
theorem advance_fares (h : ∀ d ∈ t.calls, s.Fares x d) (hc : c ∈ s.calls) {a : Attempt}
    (hstage : c.stage = .attempting a) (answer : Option (Except SessionError Reply)) :
    ∀ d ∈ (t.advance c { a with answer }).state.calls, s.Fares x d := by
  unfold advance
  split
  · rename_i reply _ hpending
    cases hd : ({ a with answer } : Attempt).decision t.courier.guess reply with
    | commit data path => exact finish_fares h c _
    | fail error       => exact conclude_fares h c error
    | sync data        =>
        exact put_fares
          (t := { t with courier := (t.courier.beginLead (.sync (some c.entry))).2 }) h
          (.syncs c a hc rfl rfl hstage hpending (Attempt.missed_of_sync hd))
  · exact put_fares h (.goesOn c a answer hc rfl rfl hstage rfl)

theorem led_fares (h : ∀ d ∈ t.calls, s.Fares x d) (hc : c ∈ s.calls) (errand : Nat)
    (answer : Except SessionError Reply) :
    ∀ d ∈ (t.led c errand answer).state.calls, s.Fares x d := by
  unfold led
  split
  · rename_i a hstage
    split
    · exact advance_fares h hc hstage (some answer)
    · exact h
  · split
    · split
      · exact finish_fares h c _
      · exact conclude_fares h c _
    · exact h
  · exact h

/-- What an errand has come to is handed on to the call that waits for it. -/
theorem deliver_fares (hcalls : t.calls = s.calls) {i : Nat} {sig : Signal}
    (hx : x = .signal i sig) {outcome : Errand.Outcome}
    (htold : (s.courier.step i sig).results = [(i, outcome)]) :
    ∀ d ∈ (t.deliver i outcome).state.calls, s.Fares x d := by
  have hstay : ∀ d ∈ t.calls, s.Fares x d := fun d hd => .stays (hcalls ▸ hd)
  unfold deliver
  split
  · exact hstay
  · rename_i answer c hfind
    exact led_fares hstay (hcalls ▸ List.mem_of_find?_eq_some hfind) i answer
  · rename_i ok c hfind
    have hc : c ∈ s.calls := hcalls ▸ List.mem_of_find?_eq_some hfind
    have hawaits : awaits c i = true := List.find?_some (p := fun c => awaits c i) hfind
    unfold recorded
    split
    · rename_i a hstage
      exact put_fares hstay (.hears c a i sig ok hc rfl rfl hstage hawaits hx htold rfl)
    · exact hstay
  · exact hstay

/-- An errand is told something, and what it comes to is taken in. -/
theorem absorb_fares (h : s.InOrder) (i : Nat) (sig : Signal) :
    ∀ d ∈ (s.absorb (s.courier.step i sig)).state.calls, s.Fares (.signal i sig) d := by
  have hquiet : (s.courier.step i sig).results = [] →
      ∀ d ∈ (s.absorb (s.courier.step i sig)).state.calls, s.Fares (.signal i sig) d := by
    intro hnone
    unfold absorb
    rw [Progress.feed_of_nil hnone]
    exact fun d hd => .stays hd
  rcases Courier.step_advances h.courier.placed i sig with ⟨_, hidle⟩ | ⟨e, _, rfl, hadv⟩
  · exact hquiet (by rw [hidle])
  · cases hadv.turns with
    | rests _ results         => exact hquiet results
    | moves _ _ _ _ _ results => exact hquiet results
    | ends outcome _ _ results =>
        unfold absorb
        rw [(Progress.feed_of_singleton (β := Session) results).1]
        exact @deliver_fares s { s with courier := (s.courier.step e.id sig).state } _ rfl e.id sig
          rfl outcome results

/-- **How every input leaves every call.** -/
theorem react_fares (h : s.InOrder) (x : Input) : ∀ d ∈ (s.react x).state.calls, s.Fares x d := by
  have hstay : ∀ d ∈ s.calls, s.Fares x d := fun d hd => .stays hd
  cases x with
  | close                      => exact hstay
  | invoke data keys route seq =>
      obtain ⟨identity, entry, _, _, hstate, _⟩ := s.invoke_goRound data keys route seq
      show ∀ d ∈ (s.invoke data keys route seq).2.state.calls, _
      rw [hstate]
      refine goRound_fares (fun d hd => ?_) (Nat.le_succ _) _
      rcases List.mem_append.1 hd with hd | hd
      · exact hstay d hd
      · rw [List.mem_singleton.1 hd]
        exact .pauses rfl
  | signal id sig              =>
      show ∀ d ∈ (s.step id sig).state.calls, _
      rw [step]
      cases hcall : s.call? id with
      | none   => exact absorb_fares h id sig
      | some c =>
          have hc : c ∈ s.calls := List.mem_of_find?_eq_some hcall
          dsimp only
          split
          · rename_i a hstage
            exact advance_fares hstay hc hstage a.answer
          · exact goRound_fares hstay (Nat.le_refl _) c
          · unfold expire
            exact fun d hd => hstay d (List.mem_filter.1 hd).1
          · exact hstay

/-- **A reply to a record begins no attempt.** -/
theorem steady_react {r : Receipt} (hr : s.receipt? x = some r)
    (hd : d ∈ (s.react x).state.calls) (hbusy : d.stage ≠ .pausing) :
    ∃ c ∈ s.calls, c.id = d.id ∧ c.attempts = d.attempts ∧ c.stage ≠ .pausing := by
  cases x with
  | invoke _ _ _ _ => cases hr
  | close          => cases hr
  | signal id sig  =>
      have hreceipt : s.receipt? (.signal id sig) =
          if (s.call? id).isNone then s.courier.receipt? id sig else none := rfl
      rw [hreceipt] at hr
      split at hr
      · rename_i hcall
        obtain ⟨_, rfl, e, m, hf, hstage, haim⟩ := Courier.receipt?_eq_some_iff.1 hr
        obtain ⟨pool, hsettle⟩ := Courier.step_answered hf hstage (.ok r.reply)
        obtain ⟨known, ok, heq, _⟩ :=
          Courier.settle_record (c := { s.courier with pool }) haim (.ok r.reply)
        have hreact : s.react (.signal id (.answered (.ok r.reply))) =
            s.absorb (s.courier.step id (.answered (.ok r.reply))) :=
          step_errand (Option.isNone_iff_eq_none.1 hcall) _
        have hresults : (s.courier.step id (.answered (.ok r.reply))).results =
            [(e.id, .recorded ok)] := by
          rw [hsettle, heq]
          rfl
        rw [hreact, absorb, (Progress.feed_of_singleton (β := Session) hresults).1] at hd
        unfold deliver at hd
        split at hd
        · exact ⟨d, hd, rfl, rfl, hbusy⟩
        · rename_i answer _ hsame _
          cases hsame
        · rename_i c hsame hfind
          have hc : c ∈ s.calls := List.mem_of_find?_eq_some hfind
          unfold recorded at hd
          split at hd
          · rename_i a hattempting
            obtain ⟨f, hmem, rfl⟩ := List.mem_map.1 hd
            by_cases hid : f.id = c.id
            · rw [if_pos hid]
              exact ⟨c, hc, rfl, rfl, by simp [hattempting]⟩
            · rw [if_neg hid] at hbusy ⊢
              exact ⟨f, hmem, rfl, rfl, hbusy⟩
          · exact ⟨d, hd, rfl, rfl, hbusy⟩
        · exact ⟨d, hd, rfl, rfl, hbusy⟩
      · cases hr

-- ── Records that come to their end ───────────────────────────────────────────────────────────────

/-- A record that a call waits for belongs to its attempt, and goes to a member. -/
theorem awaited_record (h₀ : s₀.Fresh) (hc : c ∈ (s₀.run xs).calls) {a : Attempt}
    (hstage : c.stage = .attempting a) {e : Errand} (he : e ∈ (s₀.run xs).courier.errands)
    {w : Nat} {entry : LogEntry} (hp : e.aim.purpose = .record w entry)
    (hawaits : awaits c e.id = true) :
    e.id ∈ a.pending ∧ w < (s₀.run xs).courier.pool.size := by
  obtain ⟨_, _, _, hcalls⟩ := run_traced h₀ xs
  rcases hcalls c hc with hpausing | ⟨_, _, _, htraced⟩
  · cases hstage.symm.trans hpausing
  · obtain ⟨_, own, htraces⟩ := (Call.traced_attempting hstage).1 htraced
    have hpending : e.id ∈ a.pending := by
      have hor : a.leader = e.id ∨ e.id ∈ a.pending := by simpa [awaits, hstage] using hawaits
      refine hor.resolve_left fun hlead => ?_
      cases hp.symm.trans (htraces.leading e he hlead.symm)
    obtain ⟨v, hown⟩ := htraces.pending _ hpending
    obtain ⟨rfl, _⟩ := Errand.Purpose.record.inj (hp.symm.trans (htraces.recording _ hown e he rfl))
    have hmem : w ∈ own.map (·.2) := List.mem_map.2 ⟨_, hown, rfl⟩
    rw [htraces.witnesses] at hmem
    refine ⟨hpending, ?_⟩
    unfold Attempt.witnesses at hmem
    split at hmem
    · exact WitnessSelection.lt_of_mem_witnesses hmem
    · exact absurd hmem List.not_mem_nil

/-- A record that sets off when the term is known is accepted, unless the session is closed. -/
theorem record_accepted (h : s₁.Sound) (hrun : s₁.CalmRun T xs) (hknown : s₁.courier.knownTerm = T)
    {i : Nat} {sig : Signal} (hcalm : (s₁.run xs).Calm T (.signal i sig)) {e : Errand}
    (hf : (s₁.run xs).courier.find? i = some e) {w : Nat} {entry : LogEntry} {u : Term}
    (haim : e.aim = .record w entry u) (hw : w < (s₁.run xs).courier.pool.size)
    (hnew : ∀ t, ¬ s₁.courier.Brought e t) {ok : Bool}
    (hr : ((s₁.run xs).courier.step i sig).results = [(i, .recorded ok)]) :
    (s₁.run xs).courier.pool.closed = true ∨ ok = true := by
  cases ok with
  | true  => exact .inr rfl
  | false =>
      refine .inl ?_
      rcases Courier.step_recorded hf haim hr with hshut | ⟨m, error, hstage, rfl⟩ |
        ⟨m, outcome, hstage, rfl, hrefused⟩
      · exact hshut.resolve_right (Nat.not_le.2 hw)
      · exact absurd rfl (hcalm.linked i e m error hf ⟨w, entry, by rw [haim]; rfl⟩ hstage)
      · -- the witness has refused the term, which is the one that it is at
        obtain ⟨witness, hclear, hreply⟩ := hcalm.replies i e m outcome w entry u hf haim hstage rfl
        have hterm : u = T := by
          have hcarries : e.Carries u := ⟨by rw [hstage]; exact nofun, w, entry, haim⟩
          exact (carried_run h hrun hknown (List.mem_of_find?_eq_some hf) hcarries).resolve_right
            (hnew u)
        have haccepted := hrefused _ hreply
        rw [hclear.reply_eq u, hterm] at haccepted
        simp [Reply.accepted] at haccepted

-- ── Every run once the term is known ─────────────────────────────────────────────────────────────

/-- How a call may stand later: it pauses, or its attempt was under way in the beginning, or nobody
    is missed by it and all its records are new. -/
inductive Keeps (s₁ : Session) (c : Call) : Prop where
  | pauses (stage : c.stage = .pausing)
  | old (d : Call) (mem : d ∈ s₁.calls) (id : d.id = c.id) (attempts : d.attempts = c.attempts)
      (busy : d.stage ≠ .pausing)
  | full (a : Attempt) (stage : c.stage = .attempting a) (full : a.Full)
      (new : ∀ i ∈ a.pending, s₁.courier.fresh ≤ i)

/-- Of an attempt that goes on, either its call goes on with it as one that was under way, or nobody
    is missed so far. -/
theorem Keeps.attempting (h : s₁.Keeps c) {a : Attempt} (hstage : c.stage = .attempting a)
    (hid : c.id = d.id) (hattempts : c.attempts = d.attempts) :
    s₁.Keeps d ∨ a.Full ∧ ∀ i ∈ a.pending, s₁.courier.fresh ≤ i := by
  cases h with
  | pauses hpauses                => exact nomatch hstage.symm.trans hpauses
  | old e he heid heattempts busy => exact .inl (.old e he (heid.trans hid)
      (heattempts.trans hattempts) busy)
  | full b hb full new            =>
      obtain rfl := Call.Stage.attempting.inj (hstage.symm.trans hb)
      exact .inr ⟨full, new⟩

/-- A record of an attempt that begins once the term is known is accepted. -/
theorem hears_accepted (h₀ : s₀.Opened) (hrun : (s₀.run xs).CalmRun T ys)
    (hknown : (s₀.run xs).courier.knownTerm = T)
    (hopen : ((s₀.run xs).run ys).courier.pool.closed ≠ true) {i : Nat} {sig : Signal}
    (hcalm : ((s₀.run xs).run ys).Calm T (.signal i sig)) (hc : c ∈ ((s₀.run xs).run ys).calls)
    {a : Attempt} (hstage : c.stage = .attempting a) (hawaits : awaits c i = true)
    (hnew : ∀ i ∈ a.pending, (s₀.run xs).courier.fresh ≤ i) {ok : Bool}
    (htold : (((s₀.run xs).run ys).courier.step i sig).results = [(i, .recorded ok)]) :
    i ∈ a.pending ∧ ok = true := by
  have hsound := run_sound h₀.sound xs
  obtain ⟨e, hf, rfl, w, entry, u, haim⟩ :=
    Courier.noted_of_recorded (run_sound hsound ys).order.courier htold
  have hpurpose : e.aim.purpose = .record w entry := by rw [haim]; rfl
  have he := List.mem_of_find?_eq_some hf
  rw [← run_append] at hc he
  obtain ⟨hpending, hw⟩ := awaited_record h₀.fresh hc hstage he hpurpose hawaits
  rw [run_append] at hw
  have hfar : ∀ t, ¬ (s₀.run xs).courier.Brought e t := by
    rintro t ⟨f, hmem, hid, _⟩
    have hlt := hsound.order.courier.numbered f hmem
    have hle := hnew e.id hpending
    omega
  exact ⟨hpending, (record_accepted hsound hrun hknown hcalm hf haim hw hfar htold).resolve_left
    hopen⟩

/-- **An attempt that begins once the term is known stays full**, unless the session is closed. -/
theorem full_run (h₀ : s₀.Opened) (hrun : (s₀.run xs).CalmRun T ys)
    (hknown : (s₀.run xs).courier.knownTerm = T) :
    ((s₀.run xs).run ys).courier.pool.closed = true ∨
      ∀ c ∈ ((s₀.run xs).run ys).calls, (s₀.run xs).Keeps c := by
  have hsound := run_sound h₀.sound xs
  induction ys using List.reverseRecOn with
  | nil                      =>
      refine .inr fun c hc => ?_
      by_cases hbusy : c.stage = .pausing
      · exact .pauses hbusy
      · exact .old c hc rfl rfl hbusy
  | append_singleton ys x ih =>
      obtain ⟨hbefore, hcalm, _⟩ := calmRun_append.1 hrun
      have hnext : (s₀.run xs).run (ys ++ [x]) = (((s₀.run xs).run ys).react x).state :=
        run_append ..
      have hlater := run_sound hsound ys
      rw [hnext]
      by_cases hopen : ((s₀.run xs).run ys).courier.pool.closed = true
      · exact .inl (react_closed hlater hopen x)
      have hkeeps := (ih hbefore).resolve_left hopen
      refine .inr fun c' hc' => ?_
      cases react_fares hlater.order x c' hc' with
      | stays mem               => exact hkeeps c' mem
      | pauses stage            => exact .pauses stage
      | begins a stage full new =>
          have hgrown := (run_follows hsound.order ys).2.2.fresh
          exact .full a stage full fun i hi => Nat.le_trans hgrown (new i hi)
      | goesOn c a answer mem id attempts before stage                        =>
          rcases (hkeeps c mem).attempting before id attempts with hold | ⟨hfull, hnew⟩
          · exact hold
          · exact .full _ stage hfull hnew
      | hears c a i sig ok mem id attempts before awaited input told stage    =>
          rcases (hkeeps c mem).attempting before id attempts with hold | ⟨hfull, hnew⟩
          · exact hold
          · subst input
            obtain ⟨hpending, rfl⟩ :=
              hears_accepted h₀ hbefore hknown hopen hcalm mem before awaited hnew told
            exact .full _ stage (hfull.hear hpending) fun i hi =>
              hnew i (List.mem_of_mem_erase hi)
      | syncs c a mem id attempts before done missed =>
          rcases (hkeeps c mem).attempting before id attempts with hold | ⟨hfull, _⟩
          · exact hold
          · -- nobody is waited for any more, so all have accepted
            rw [Attempt.Full, done] at hfull
            exact absurd hfull missed

-- ── The law ──────────────────────────────────────────────────────────────────────────────────────

/-- An errand that is on its way already. -/
def UnderWay (s : Session) (i : Nat) : Prop := ∃ e ∈ s.courier.errands, e.id = i ∧ e.stage ≠ .ready

/-- How a session goes on that has learned the witnesses' term, where nothing but a term is in the
    way of a record. -/
structure Attuned (T : Term) (s : Session) (ys : List Input) : Prop where
  /-- The term stays known. -/
  known    : (s.run ys).courier.knownTerm = T
  /-- Every record that sets off later takes it along. -/
  carried  : ∀ e ∈ (s.run ys).courier.errands, ∀ t, e.Carries t → s.UnderWay e.id ∨ t = T
  /-- And whatever comes in reply to it is that it was accepted. -/
  accepted : ∀ r ∈ s.receipts ys, s.UnderWay r.errand ∨ r.term = T ∧ r.reply.accepted = true
  /-- The leader is made to order a command only if the attempt was under way already, unless the
      session is closed meanwhile. -/
  falls    : ∀ c ∈ (s.run ys).calls, ∀ data errand, c.stage = .syncing data errand →
    (s.run ys).courier.pool.closed = true ∨
      ∃ d ∈ s.calls, d.id = c.id ∧ d.attempts = c.attempts ∧ d.stage ≠ .pausing

/-- Once the term is known, a session is attuned to it. -/
theorem attuned_of_known (h₀ : s₀.Opened) (hrun : (s₀.run xs).CalmRun T ys)
    (hknown : (s₀.run xs).courier.knownTerm = T) : Attuned T (s₀.run xs) ys := by
  have hsound := run_sound h₀.sound xs
  have hunderWay : ∀ {e : Errand} {t : Term}, (s₀.run xs).courier.Brought e t →
      (s₀.run xs).UnderWay e.id := by
    rintro e t ⟨f, hf, hid, hset, _⟩
    exact ⟨f, hf, hid, hset⟩
  constructor
  case known    => exact known_stays hsound hrun hknown
  case carried  =>
    intro e he t ht
    exact (carried_run hsound hrun hknown he ht).symm.imp_left hunderWay
  case accepted =>
    intro r hr
    obtain ⟨before, x, after, rfl, hx⟩ := mem_receipts hr
    obtain ⟨hbefore, hcalm, _⟩ := calmRun_append.1 hrun
    obtain ⟨e, he, hid, hcarries⟩ := carries_of_receipt hx
    rcases carried_run hsound hbefore hknown he hcarries with hterm | hbrought
    · refine .inr ⟨hterm, ?_⟩
      rw [hcalm.receipt hx, hterm]
      simp [Reply.accepted]
    · exact .inl (hid ▸ hunderWay hbrought)
  case falls    =>
    intro c hc data errand hstage
    refine (full_run h₀ hrun hknown).imp_right fun hkeeps => ?_
    cases hkeeps c hc with
    | pauses hpauses                => cases hstage.symm.trans hpauses
    | old d hd hid hattempts hbusy  => exact ⟨d, hd, hid, hattempts, hbusy⟩
    | full a hattempting _ _        => cases hstage.symm.trans hattempting

/-- What a session knows of the witnesses' term, after a run. -/
structure KnowsTerm (s₀ : Session) (xs : List Input) : Prop where
  /-- It is the maximum of zero and all terms that were told by refusals. -/
  exact  : (s₀.run xs).courier.knownTerm = Term.highest (told (s₀.receipts xs))
  /-- It only grows. -/
  grows  : ∀ x, (s₀.run xs).courier.knownTerm.val ≤ (s₀.run (xs ++ [x])).courier.knownTerm.val
  /-- A reply to a record begins no attempt. -/
  steady : ∀ x r, (s₀.run xs).receipt? x = some r → ∀ d ∈ (s₀.run (xs ++ [x])).calls,
    d.stage ≠ .pausing →
      ∃ c ∈ (s₀.run xs).calls, c.id = d.id ∧ c.attempts = d.attempts ∧ c.stage ≠ .pausing
  /-- Where nothing but a term is in the way, one reply is enough to learn it; and a term of zero
      needs none. -/
  tunes  : ∀ T ys, s₀.CalmRun T (xs ++ ys) → s₀.receipts xs ≠ [] ∨ T = ⟨0⟩ →
    Attuned T (s₀.run xs) ys

/-- **How the witnesses' term is learned**: for every session that was opened and in every run,
    however its calls and the records of all of them go on. -/
theorem witness_term_learned (h₀ : s₀.Opened) (xs : List Input) : s₀.KnowsTerm xs := by
  constructor
  case exact  =>
    rw [known_run h₀.sound, h₀.untold.known]
    rfl
  case grows  =>
    intro x
    rw [run_append]
    exact known_react_le (run_sound h₀.sound xs) x
  case steady =>
    intro x r hr d hd hbusy
    rw [run_append] at hd
    exact steady_react hr hd hbusy
  case tunes  =>
    intro T ys hcalm hlearned
    obtain ⟨hbefore, hafter⟩ := calmRun_append.1 hcalm
    exact attuned_of_known h₀ hafter (known_of_calm h₀ hbefore hlearned)

/-- The first command's record is brought to a witness, which refuses it and tells its term. -/
def refusedRun : List Input :=
  [.invoke [97] [⟨[107]⟩] .fast none, .signal 4 .proceed, hear 4 (.record ⟨false, ⟨2⟩⟩)]

/-- Then its other record sets off, and so does one of the second command. -/
def acceptedRun : List Input :=
  [.signal 5 .proceed, hear 5 (.record ⟨true, ⟨2⟩⟩), .invoke [98] [⟨[108]⟩] .fast none,
    .signal 8 .proceed, hear 8 (.record ⟨true, ⟨2⟩⟩)]

/-- The law where all witnesses are at the term two: one refusal, and it is known. -/
theorem term_learned_by_refusal :
    trio.Opened ∧ trio.CalmRun ⟨2⟩ (refusedRun ++ acceptedRun) ∧
      trio.receipts refusedRun ≠ [] ∧
      ((trio.run refusedRun).receipts acceptedRun).map (fun r => (r.errand, r.term)) =
        [(5, ⟨2⟩), (8, ⟨2⟩)] ∧
      Attuned ⟨2⟩ (trio.run refusedRun) acceptedRun := by
  have hclear : ∀ n, (⟨⟨2⟩, false, [], []⟩ : Witness).Clear ⟨2⟩ (trioEntry n) :=
    fun _ => ⟨rfl, rfl, List.forall_mem_nil _⟩
  have hinvokes : ∀ {s : Session} {data : Bytes} {keys : List Key},
      s.Calm ⟨2⟩ (.invoke data keys .fast none) := .of_proceed fun _ _ h => nomatch h
  have hproceeds : ∀ {s : Session} {i : Nat}, s.Calm ⟨2⟩ (.signal i .proceed) :=
    .of_proceed fun _ _ h => (Input.signal.inj h).2.symm
  have hcalm : trio.CalmRun ⟨2⟩ (refusedRun ++ acceptedRun) :=
    ⟨hinvokes, hproceeds, .of_reply rfl rfl _ (hclear 0) (by decide),
      hproceeds, .of_reply rfl rfl _ (hclear 0) (by decide),
      hinvokes, hproceeds, .of_reply rfl rfl _ (hclear 1) (by decide), trivial⟩
  have hreceipts : trio.receipts refusedRun =
      [⟨4, 1, trioEntry 0, ⟨0⟩, .record ⟨false, ⟨2⟩⟩⟩] := rfl
  have hsome : trio.receipts refusedRun ≠ [] := by
    rw [hreceipts]
    exact nofun
  exact ⟨trio_opened, hcalm, hsome, rfl,
    (witness_term_learned trio_opened refusedRun).tunes ⟨2⟩ acceptedRun hcalm (.inl hsome)⟩

end Session

end WitnessReplication

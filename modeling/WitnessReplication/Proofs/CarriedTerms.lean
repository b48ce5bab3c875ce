import WitnessReplication.Replica
import WitnessReplication.Proofs.ClosedSessions
import WitnessReplication.Proofs.KnownTerms

/-!
# Carried terms — under which term a record is brought to its witness

    A record takes along the term that is known when it sets off, and keeps it however long it waits
    at its witness.  Meanwhile more may become known, but not to the records under way.

    Where every witness is up, unfrozen and free of conflicts, and all are at one term, the replies
    to records can tell one term only.  Once one of them has been answered this is the term that is
    known, and from then on whatever sets off takes it along and is accepted.

* **`Errand.Carries`** and **`react_carries_term`** — what records take along, input by input.
* **`Courier.step_recorded`** — why a record may come to nothing.
* **`Witness.Clear`**, **`Session.Calm`**, **`CalmRun`** — where nothing but a term is in the way.
* **`known_of_calm`** and **`carried_run`** — what is known there, and what is taken along.
-/

namespace WitnessReplication

/-- A record that has set off, under a term. -/
def Errand.Carries (e : Errand) (t : Term) : Prop :=
  e.stage ≠ .ready ∧ ∃ w entry, e.aim = .record w entry t

-- ── One step of an errand ────────────────────────────────────────────────────────────────────────

namespace Courier

variable {c d : Courier} {e f : Errand} {p : Step} {s : Signal} {t : Term} {id : Nat}

/-- A record under way has set off before, under the term that it takes along. -/
def Brought (c : Courier) (f : Errand) (t : Term) : Prop :=
  ∃ e ∈ c.errands, e.id = f.id ∧ e.Carries t

/-- What an exchange came to is settled: the errand is gone, or takes no record. -/
theorem settle_carries (h : e.OfCall) (outcome : Except TransportError Reply)
    (hf : f ∈ (c.settle e outcome).state.errands) (hid : f.id = e.id) : ¬ f.Carries t := by
  rintro ⟨_, w, entry, haim⟩
  cases he : e.aim with
  | lead request tries =>
      have hsettles := settle_lead (c := c) he outcome
      generalize settle c e outcome = p at hsettles hf
      cases hsettles with
      | accepted _ | malformed _ => exact not_mem_abandon hf hid
      | retargets _              =>
          rw [eq_of_mem_put hf hid] at haim
          exact nomatch haim
      | backsOff _ _ _           =>
          rw [eq_of_mem_put hf hid] at haim
          exact nomatch haim
  | record w entry term =>
      obtain ⟨known, ok, heq, _⟩ := settle_record (c := c) he outcome
      rw [heq] at hf
      exact not_mem_abandon hf hid
  | direct _ _ | survey _ _ | close _ =>
      rcases h with ⟨_, hp⟩ | ⟨_, _, hp⟩ <;> (rw [he] at hp; exact nomatch hp)

/-- An errand of a call that sets off with a record takes along what is known; one that has set off
    before keeps what it took. -/
theorem goes_carries (h : c.Goes e s p) (he : e ∈ c.errands) (hof : e.OfCall)
    (hf : f ∈ p.state.errands) (hid : f.id = e.id) (ht : f.Carries t) :
    t = c.knownTerm ∨ c.Brought f t := by
  -- a stage further on the way to the witness changes nothing about what is taken along
  have hfurther : ∀ {stage : Errand.Stage}, e.stage ≠ .ready → f = { e with stage } →
      c.Brought f t := by
    rintro stage hset rfl
    obtain ⟨w, entry, haim⟩ := ht.2
    exact ⟨e, he, rfl, hset, w, entry, haim⟩
  cases h with
  | rests _                      => exact .inr ⟨f, hf, rfl, ht⟩
  | givesUp _ _                  => exact absurd hid (not_mem_abandon hf)
  | refused _ _ _ _ _            => exact absurd ht (settle_carries hof _ hf hid)
  | unconnected _                => exact absurd ht (settle_carries hof _ hf hid)
  | exchanged _ _                => exact absurd ht (settle_carries hof _ hf hid)
  | enters waits _ _ _           =>
      exact .inr (hfurther (by rw [waits]; exact nofun) (eq_of_mem_put hf hid))
  | connects waits _             =>
      exact .inr (hfurther (by rw [waits]; exact nofun) (eq_of_mem_put hf hid))
  | wakes _                      =>
      rw [eq_of_mem_put hf hid] at ht
      exact absurd rfl ht.1
  | arrives _ _ _ _ _ _          =>
      rw [eq_of_mem_put hf hid] at ht
      obtain ⟨_, w, entry, haim⟩ := ht
      obtain ⟨i, aim, stage⟩ := e
      cases aim with
      | record w' entry' t' =>
          obtain ⟨_, _, hterm⟩ := Errand.Aim.record.inj haim
          exact .inl hterm.symm
      | lead _ _ | direct _ _ | survey _ _ | close _ => exact nomatch haim

/-- An errand that closes the pool takes no record. -/
theorem shuts_carries {next : Nat} (h : c.Shuts e next s p) (he : e.Closes next)
    (hf : f ∈ p.state.errands) (hid : f.id = e.id) (ht : f.Carries t) : c.Brought f t := by
  have hclose : ∀ {g : Errand} {k : Nat}, f = g → g.aim = .close k → c.Brought f t := by
    rintro g k rfl haim
    obtain ⟨_, w, entry, haim'⟩ := ht
    exact nomatch haim.symm.trans haim'
  cases h with
  | rests _       => exact ⟨f, hf, rfl, ht⟩
  | ends _ _      => exact absurd hid (not_mem_abandon hf)
  | queues _ _ _  => exact hclose (eq_of_mem_put hf hid) he.aim
  | empties _ _   => exact hclose (eq_of_mem_put hf hid) rfl

/-- **What a step of an errand does to what records take along**: a record that sets off with it
    takes along what is known, and every other one has set off before. -/
theorem step_carries (h : c.Sound) (id : Nat) (s : Signal) {f : Errand}
    (hf : f ∈ (c.step id s).state.errands) (ht : f.Carries t) :
    t = c.knownTerm ∨ c.Brought f t := by
  cases hfind : c.find? id with
  | none   =>
      rw [step_of_gone hfind] at hf
      exact .inr ⟨f, hf, rfl, ht⟩
  | some e =>
      have he : e ∈ c.errands := List.mem_of_find?_eq_some hfind
      by_cases hid : f.id = e.id
      · rcases (h.behaves e he).kinds with hof | ⟨next, hcloses⟩
        · exact goes_carries (step_goes hfind hof s) he hof hf hid ht
        · exact .inr (shuts_carries (step_shuts hfind hcloses s) hcloses hf hid ht)
      · have haffects := step_affects h.queued hfind (h.behaves e he) s
        exact .inr ⟨f, (haffects.others f hid).1 hf, rfl, ht⟩

/-- An event that tells no errand anything makes no record set off. -/
theorem happen_carries {x : Event} (hx : ∀ id s, x ≠ .tells id s) {f : Errand}
    (hf : f ∈ (c.happen x).state.errands) (ht : f.Carries t) : c.Brought f t := by
  have hbegun : ∀ aim : Errand.Aim, (∀ w entry t, aim ≠ .record w entry t) →
      f ∈ (c.begin aim).2.errands → c.Brought f t := by
    intro aim hnot hf
    obtain ⟨_, _, _, _, _, stage, _, herrands⟩ := c.errands_begin aim
    rw [herrands] at hf
    rcases List.mem_append.1 hf with hf | hf
    · exact ⟨f, hf, rfl, ht⟩
    · obtain ⟨_, w, entry, haim⟩ := ht
      rw [List.mem_singleton.1 hf] at haim
      exact absurd haim (hnot w entry t)
  cases x with
  | number           => exact ⟨f, hf, rfl, ht⟩
  | leads request    => exact hbegun (.lead request c.pool.size) (fun _ _ _ h => nomatch h) hf
  | closes           => exact hbegun (.close 0) (fun _ _ _ h => nomatch h) hf
  | tells id s       => exact absurd rfl (hx id s)
  | callsOff id      => exact ⟨f, (List.mem_filter.1 hf).1, rfl, ht⟩
  | records entry ws =>
      have hfresh : f ∈ c.errands ++ recordErrands entry c.knownTerm c.fresh ws := by
        have hf' : f ∈ (c.beginRecords entry ws).2.errands := hf
        rwa [beginRecords_eq] at hf'
      rcases List.mem_append.1 hfresh with hf | hf
      · exact ⟨f, hf, rfl, ht⟩
      · -- it is ready to set off, and has not done so yet
        obtain ⟨_, _, rfl⟩ := List.mem_map.1 hf
        exact absurd rfl ht.1

theorem run_carries {xs : List Event} (calm : ∀ y ∈ xs, y.errand? = none) {f : Errand}
    (hf : f ∈ (c.run xs).state.errands) (ht : f.Carries t) : c.Brought f t := by
  induction xs generalizing c with
  | nil          => exact ⟨f, hf, rfl, ht⟩
  | cons x xs ih =>
      obtain ⟨hx, hrest⟩ := List.forall_mem_cons.1 calm
      obtain ⟨g, hg, hid, htg⟩ := ih hrest hf
      have hx' : ∀ id s, x ≠ .tells id s := by
        rintro id s rfl
        exact nomatch hx
      obtain ⟨e, he, hid', hte⟩ := happen_carries hx' hg htg
      exact ⟨e, he, hid'.trans hid, hte⟩

/-- **Why a record may come to nothing**: the pool does not let it line up, there is no connection,
    the exchange has failed, or the witness has refused it. -/
theorem step_recorded (hf : c.find? id = some e) {w : Nat} {entry : LogEntry}
    (haim : e.aim = .record w entry t) {i : Nat}
    (hr : (c.step id s).results = [(i, .recorded false)]) :
    (c.pool.closed = true ∨ c.pool.size ≤ w) ∨
      (∃ m error, e.stage = .connecting m ∧ s = .connected (.error error)) ∨
      ∃ m outcome, e.stage = .exchanging m ∧ s = .answered outcome ∧
        ∀ reply, outcome = .ok reply → reply.accepted = false := by
  have hnotes : e.Notes := ⟨w, entry, by rw [haim]; rfl⟩
  have hgoes := step_goes hf (.inr hnotes) s
  generalize c.step id s = p at hgoes hr
  cases hgoes with
  | rests _                       => exact nomatch hr
  | givesUp _ aim                 => exact nomatch haim.symm.trans aim
  | arrives _ _ _ _ _ _           => exact nomatch hr
  | enters _ _ _ _                => exact nomatch hr
  | connects _ _                  => exact nomatch hr
  | wakes _                       => exact nomatch hr
  | refused _ shut _ _ _          =>
      have hdestination : c.destination e = w := by
        rw [destination, haim]
        rfl
      exact .inl (hdestination ▸ shut)
  | unconnected waits             => exact .inr (.inl ⟨_, _, waits, rfl⟩)
  | @exchanged m outcome pool waits _ =>
      refine .inr (.inr ⟨m, outcome, waits, rfl, ?_⟩)
      rintro reply rfl
      obtain ⟨known, ok, heq, hok⟩ :=
        settle_record (c := { c with pool := pool.leave m e.id }) haim (.ok reply)
      rw [heq] at hr
      obtain rfl : ok = false := Errand.Outcome.recorded.inj
        (congrArg Prod.snd (List.singleton_inj.1 hr))
      exact Bool.eq_false_iff.2 fun htaken => Bool.false_ne_true (hok.2 ⟨reply, rfl, htaken⟩)

end Courier

-- ── One input ────────────────────────────────────────────────────────────────────────────────────

namespace Session

variable {s s₀ : Session} {x : Input} {xs ys : List Input} {t T : Term}

/-- A reply to a record finds the record on its way, under its term. -/
theorem carries_of_receipt {r : Receipt} (hr : s.receipt? x = some r) :
    ∃ e ∈ s.courier.errands, e.id = r.errand ∧ e.Carries r.term := by
  cases x with
  | invoke _ _ _ _ => exact nomatch hr
  | close          => exact nomatch hr
  | signal id sig  =>
      have hreceipt : s.receipt? (.signal id sig) =
          if (s.call? id).isNone then s.courier.receipt? id sig else none := rfl
      rw [hreceipt] at hr
      split at hr
      · obtain ⟨rfl, _, e, m, hf, hstage, haim⟩ := Courier.receipt?_eq_some_iff.1 hr
        have hid : e.id = r.errand := by simpa using List.find?_some hf
        exact ⟨e, List.mem_of_find?_eq_some hf, hid, by rw [hstage]; exact nofun, _, _, haim⟩
      · exact nomatch hr

/-- **What an input does to what records take along.** -/
theorem react_carries_term (h : s.Sound) (x : Input) {f : Errand}
    (hf : f ∈ (s.react x).state.courier.errands) (ht : f.Carries t) :
    t = s.courier.knownTerm ∨ s.courier.Brought f t := by
  obtain ⟨xs, hdrives⟩ := react_drives h.order x
  rw [hdrives.courier] at hf
  cases hdrives.prompts with
  | alone calm                  => exact .inr (Courier.run_carries calm hf ht)
  | callsOff _ _ _              => exact .inr ⟨f, (List.mem_filter.1 hf).1, rfl, ht⟩
  | @tells i sig ys input calm  =>
      obtain ⟨g, hg, hid, htg⟩ := Courier.run_carries (c := (s.courier.step i sig).state) calm hf ht
      rcases Courier.step_carries h.courier i sig hg htg with hknown | ⟨e, he, hid', hte⟩
      · exact .inl hknown
      · exact .inr ⟨e, he, hid'.trans hid, hte⟩

/-- Nothing is taken along but what is known, or was at an earlier time. -/
theorem carried_le (h₀ : s₀.Opened) (xs : List Input) {f : Errand}
    (hf : f ∈ (s₀.run xs).courier.errands) (ht : f.Carries t) :
    t.val ≤ (s₀.run xs).courier.knownTerm.val := by
  induction xs using List.reverseRecOn generalizing f with
  | nil                      =>
      have hnone : f ∈ s₀.courier.errands := hf
      rw [h₀.fresh.errands] at hnone
      exact nomatch hnone
  | append_singleton xs x ih =>
      have hsound := run_sound h₀.sound xs
      have hrun : s₀.run (xs ++ [x]) = ((s₀.run xs).react x).state := run_append ..
      rw [hrun] at hf ⊢
      refine UInt64.le_trans ?_ (known_react_le hsound x)
      rcases react_carries_term hsound x hf ht with rfl | ⟨g, hg, _, htg⟩
      · exact UInt64.le_refl _
      · exact ih hg htg

/-- So it is with the records that were replied to. -/
theorem receipt_le (h₀ : s₀.Opened) {r : Receipt} (hr : r ∈ s₀.receipts xs) :
    r.term.val ≤ (s₀.run xs).courier.knownTerm.val := by
  obtain ⟨before, x, after, rfl, hx⟩ := mem_receipts hr
  obtain ⟨e, he, _, hcarries⟩ := carries_of_receipt hx
  rw [run_append, known_run (run_sound h₀.sound before)]
  exact UInt64.le_trans (carried_le h₀ before he hcarries) (Term.foldl_max_spec ..).1

end Session

-- ── Where nothing but a term is in the way ───────────────────────────────────────────────────────

/-- A witness that will take a record of an entry under a term, and under no other: it is not
    frozen, and holds nothing that conflicts. -/
structure Witness.Clear (w : Witness) (T : Term) (entry : LogEntry) : Prop where
  term     : w.term = T
  unfrozen : w.frozen = false
  free     : ∀ held ∈ w.recorded, held.commutesWith entry = true

/-- What a witness replies to a record. -/
def Witness.reply (w : Witness) (entry : LogEntry) (t : Term) : Reply :=
  .record ⟨(w.record entry t).1 = .accepted, (w.record entry t).2.term⟩

/-- This is what a replica replies with such a witness. -/
theorem Replica.recordReply_eq {σ : Type} (r : Replica σ) (entry : LogEntry) (t : Term) :
    Reply.record (r.recordReply entry t).1 = r.witness.reply entry t := rfl

/-- Such a witness accepts a record under its term, and refuses every other one and tells its
    term. -/
theorem Witness.Clear.reply_eq {w : Witness} {T : Term} {entry : LogEntry} (h : w.Clear T entry)
    (t : Term) : w.reply entry t = .record ⟨t = T, T⟩ := by
  have hrecord : ((w.record entry t).1 = .accepted ↔ t = T) ∧ (w.record entry t).2.term = T := by
    have hall : (w.recorded.all fun held => held.commutesWith entry) = true :=
      List.all_eq_true.2 h.free
    rw [Witness.record, h.unfrozen, if_neg Bool.false_ne_true, h.term]
    by_cases ht : t = T
    · rw [if_neg (not_not.2 ht)]
      split
      · exact ⟨iff_of_true rfl ht, rfl⟩
      · split
        · exact ⟨iff_of_true rfl ht, h.term⟩
        · exact ⟨iff_of_true rfl ht, rfl⟩
    · rw [if_pos ht]
      exact ⟨iff_of_false nofun ht, h.term⟩
  rw [Witness.reply, hrecord.2]
  simp only [hrecord.1]

namespace Session

variable {s s₀ : Session} {x : Input} {xs ys : List Input} {t T : Term}

/-- An input at which nothing but a term is in the way of a record: no witness is down, and whoever
    is asked is unfrozen, without conflicts, and at the term `T`. -/
structure Calm (T : Term) (s : Session) (x : Input) : Prop where
  linked  : ∀ i e m error, s.courier.find? i = some e → e.Notes → e.stage = .connecting m →
    x ≠ .signal i (.connected (.error error))
  replies : ∀ i e m outcome w entry t, s.courier.find? i = some e →
    e.aim = .record w entry t → e.stage = .exchanging m → x = .signal i (.answered outcome) →
    ∃ witness : Witness, witness.Clear T entry ∧ outcome = .ok (witness.reply entry t)

/-- An input that is the word of no member is such an input. -/
theorem Calm.of_proceed (h : ∀ i sig, x = .signal i sig → sig = .proceed) : s.Calm T x where
  linked  := fun i _ _ _ _ _ _ hx => nomatch h i _ hx
  replies := fun i _ _ _ _ _ _ _ _ _ hx => nomatch h i _ hx

/-- And so is the reply of a witness that will take the record under its term. -/
theorem Calm.of_reply {i : Nat} {e : Errand} {w : Nat} {entry : LogEntry} {reply : Reply}
    (hf : s.courier.find? i = some e) (haim : e.aim = .record w entry t) (witness : Witness)
    (hclear : witness.Clear T entry) (hreply : reply = .record ⟨t = T, T⟩) :
    s.Calm T (.signal i (.answered (.ok reply))) where
  linked  := fun _ _ _ _ _ _ _ hx => nomatch hx
  replies := by
    intro i' f m outcome w' entry' t' hf' haim' _ hx
    obtain ⟨rfl, hsig⟩ := Input.signal.inj hx
    obtain rfl := Signal.answered.inj hsig
    obtain rfl := Option.some.inj (hf.symm.trans hf')
    obtain ⟨rfl, rfl, rfl⟩ := Errand.Aim.record.inj (haim.symm.trans haim')
    exact ⟨witness, hclear, by rw [hclear.reply_eq, hreply]⟩

/-- A run of such inputs. -/
def CalmRun (T : Term) (s : Session) : List Input → Prop
  | []        => True
  | x :: rest => s.Calm T x ∧ CalmRun T (s.react x).state rest

theorem calmRun_append : s.CalmRun T (xs ++ ys) ↔ s.CalmRun T xs ∧ (s.run xs).CalmRun T ys := by
  induction xs generalizing s with
  | nil          => simp [CalmRun, run]
  | cons x xs ih =>
      show s.Calm T x ∧ (s.react x).state.CalmRun T (xs ++ ys) ↔ (_ ∧ _) ∧ _
      rw [ih, and_assoc]
      rfl

/-- A reply to a record, where nothing but a term is in the way. -/
theorem Calm.receipt (h : s.Calm T x) {r : Receipt} (hr : s.receipt? x = some r) :
    r.reply = .record ⟨r.term = T, T⟩ := by
  cases x with
  | invoke _ _ _ _ => exact nomatch hr
  | close          => exact nomatch hr
  | signal id sig  =>
      have hreceipt : s.receipt? (.signal id sig) =
          if (s.call? id).isNone then s.courier.receipt? id sig else none := rfl
      rw [hreceipt] at hr
      split at hr
      · obtain ⟨_, rfl, e, m, hf, hstage, haim⟩ := Courier.receipt?_eq_some_iff.1 hr
        obtain ⟨witness, hclear, hreply⟩ := h.replies id e m _ _ _ _ hf haim hstage rfl
        exact (Except.ok.inj hreply).trans (hclear.reply_eq r.term)
      · exact nomatch hr

/-- So there is one term only that is ever told. -/
theorem CalmRun.told (h : s.CalmRun T xs) : ∀ u ∈ told (s.receipts xs), u = T := by
  induction xs generalizing s with
  | nil          => exact List.forall_mem_nil _
  | cons x xs ih =>
      have hfirst : ∀ u ∈ WitnessReplication.told (s.receipt? x).toList, u = T := by
        intro u hu
        obtain ⟨r, hr, htold⟩ := List.mem_filterMap.1 hu
        have hreply := h.1.receipt (Option.mem_toList.1 hr)
        rw [Receipt.told?, hreply] at htold
        split at htold
        · cases htold
        · exact (Option.some.inj htold).symm
      intro u hu
      have hsplit : u ∈ WitnessReplication.told (s.receipt? x).toList ++
          WitnessReplication.told ((s.react x).state.receipts xs) := by
        rw [WitnessReplication.told, WitnessReplication.told, ← List.filterMap_append]
        exact hu
      exact (List.mem_append.1 hsplit).elim (hfirst u) (ih h.2 u)

/-- A term that is raised by itself only stays. -/
theorem known_stays (h : s.Sound) (hcalm : s.CalmRun T xs) (hknown : s.courier.knownTerm = T) :
    (s.run xs).courier.knownTerm = T := by
  rw [known_run h, hknown]
  have htold := hcalm.told
  generalize WitnessReplication.told (s.receipts xs) = ts at htold
  induction ts with
  | nil          => rfl
  | cons u ts ih =>
      obtain ⟨rfl, hrest⟩ := List.forall_mem_cons.1 htold
      rw [List.foldl_cons, Term.max_self]
      exact ih hrest

/-- A record that has set off takes along the term that is known all the time, unless it has set off
    before. -/
theorem carried_run (h : s.Sound) (hcalm : s.CalmRun T xs) (hknown : s.courier.knownTerm = T)
    {f : Errand} (hf : f ∈ (s.run xs).courier.errands) (ht : f.Carries t) :
    t = T ∨ s.courier.Brought f t := by
  induction xs using List.reverseRecOn generalizing f with
  | nil                     => exact .inr ⟨f, hf, rfl, ht⟩
  | append_singleton xs x ih =>
      have hbefore := (calmRun_append.1 hcalm).1
      have hrun : s.run (xs ++ [x]) = ((s.run xs).react x).state := run_append ..
      rw [hrun] at hf
      rcases react_carries_term (run_sound h xs) x hf ht with hterm | ⟨g, hg, hid, htg⟩
      · exact .inl (hterm.trans (known_stays h hbefore hknown))
      · rcases ih hbefore hg htg with hterm | ⟨e, he, hid', hte⟩
        · exact .inl hterm
        · exact .inr ⟨e, he, hid'.trans hid, hte⟩

/-- One reply is enough to know the term: a witness that has accepted was brought the term, so it
    was known, and one that has refused has told it. -/
theorem known_of_calm (h₀ : s₀.Opened) (hcalm : s₀.CalmRun T xs)
    (hlearned : s₀.receipts xs ≠ [] ∨ T = ⟨0⟩) : (s₀.run xs).courier.knownTerm = T := by
  have hknown : (s₀.run xs).courier.knownTerm = ⟨0⟩ ∨ (s₀.run xs).courier.knownTerm = T := by
    rw [known_run h₀.sound, h₀.untold.known]
    exact (Term.highest_spec _).2.imp_right (hcalm.told _)
  rcases hlearned with hsome | rfl
  · obtain ⟨r, hr⟩ := List.exists_mem_of_ne_nil _ hsome
    have hle : T.val ≤ (s₀.run xs).courier.knownTerm.val := by
      by_cases hterm : r.term = T
      · exact hterm ▸ receipt_le h₀ hr
      · have htold : T ∈ WitnessReplication.told (s₀.receipts xs) := by
          obtain ⟨before, x, after, rfl, hx⟩ := mem_receipts hr
          have hreply := (calmRun_append.1 hcalm).2.1.receipt hx
          refine List.mem_filterMap.2 ⟨r, hr, ?_⟩
          rw [Receipt.told?, hreply]
          simp [Reply.accepted, Reply.term?, hterm]
        rw [known_run h₀.sound, h₀.untold.known]
        exact (Term.highest_spec _).1 T htold
    refine hknown.elim (fun hzero => ?_) id
    rw [hzero] at hle ⊢
    exact congrArg Term.mk (UInt64.le_antisymm UInt64.zero_le hle)
  · exact hknown.elim id id

end Session

end WitnessReplication

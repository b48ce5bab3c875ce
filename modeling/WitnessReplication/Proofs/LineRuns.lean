import WitnessReplication.Proofs.OpeningRuns
import WitnessReplication.Proofs.SlotLines
import WitnessReplication.Proofs.SoleRuns

/-!
# Line runs — the lines of a session that stays open

    A session does only a few things with its courier: it takes numbers, sends out requests and
    records, tells errands something, and calls them off.  What survives each of them survives every
    run in which nobody closes the session.  The lines and the errands of a courier agree when a
    session begins to be opened, and so they do ever after.

* **`Courier.Kept`** — what survives all that a session does, and **`react_kept`**, that it does.
* **`run_lined`** — the lines of every run; **`Opened.lined`**, of every session that was opened.
-/

namespace WitnessReplication

namespace Courier

/-- What holds of the courier of a session whatever it does with it, as long as it stays open. -/
structure Kept (P : Courier → Prop) : Prop where
  number  : ∀ c, P c → P c.takeNumber.2
  lead    : ∀ c request, P c → P (c.beginLead request).2
  records : ∀ c entry ws, P c → P (c.beginRecords entry ws).2
  step    : ∀ c id s, P c → P (c.step id s).state
  abandon : ∀ c id, P c → P (c.abandon id)

theorem step_inOrder {c : Courier} (ho : c.InOrder) (id : Nat) (s : Signal) :
    (c.step id s).state.InOrder := by
  rcases step_advances ho.placed id s with ⟨_, hidle⟩ | ⟨e, hf, _, hadv⟩
  · rw [hidle]
    exact ho
  · exact hadv.inOrder (List.mem_of_find?_eq_some hf) ho

/-- No step opens the pool or closes it. -/
theorem closed_step {c : Courier} (ho : c.InOrder) (id : Nat) (s : Signal) :
    (c.step id s).state.pool.closed = c.pool.closed := by
  rcases step_advances ho.placed id s with ⟨_, hidle⟩ | ⟨e, _, _, hadv⟩
  · rw [hidle]
  · exact hadv.keeps.closed

theorem step_lined {c : Courier} (ho : c.InOrder) (h : c.Lined) (id : Nat) (s : Signal) :
    (c.step id s).state.Lined :=
  ⟨step_queued h.toQueued id s, (closed_step ho id s).trans h.unclosed⟩

/-- That the lines and the errands agree is kept. -/
theorem kept_lined : Kept fun c => c.InOrder ∧ c.Lined where
  number  := fun _ ⟨ho, h⟩ =>
    ⟨ho.takeNumber, ⟨h.distinct, h.nodup, h.lines, h.once, h.turns, h.fits⟩, h.unclosed⟩
  lead    := fun _ request ⟨ho, h⟩ =>
    ⟨(beginLead_setOut ho request).order, begin_queued h.toQueued ho _, h.unclosed⟩
  records := fun c entry ws ⟨ho, h⟩ =>
    ⟨(beginRecords_sentOut ho entry ws).order, beginRecords_queued h.toQueued ho entry ws, by
      rw [beginRecords_eq]
      exact h.unclosed⟩
  step    := fun _ id s ⟨ho, h⟩ => ⟨step_inOrder ho id s, step_lined ho h id s⟩
  abandon := fun _ id ⟨ho, h⟩ => ⟨ho.abandon id, (h.apart id).abandon, h.unclosed⟩

end Courier

/-- What holds before a step is taken in, and is kept by handing on what it came to, holds then. -/
theorem Progress.feed_kept {α β ι ρ σ : Type} {p : Progress α ι ρ} {embed : α → β}
    {deliver : β → ι → ρ → Progress β ι σ} {P : β → Prop} (h : P (embed p.state))
    (hd : ∀ b who result, P b → P (deliver b who result).state) : P (p.feed embed deliver).state :=
  List.foldlRecOn (motive := fun q : Progress β ι σ => P q.state) p.results _ h
    fun q hq r _ => hd q.state r.1 r.2 hq

namespace Session

variable {s : Session} {P : Courier → Prop}

/-! ## Every run -/

theorem conclude_kept (h : P s.courier) (c : Call) (error : SessionError) :
    P (s.conclude c error).state.courier := by
  rw [conclude]
  split <;> exact h

theorem advance_kept (hk : Courier.Kept P) (h : P s.courier) (c : Call) (a : Attempt) :
    P (s.advance c a).state.courier := by
  rw [advance]
  split
  · rename_i answer _ _
    cases a.decision s.courier.guess answer with
    | commit data path => exact h
    | fail error       => exact conclude_kept h c error
    | sync data        => exact hk.lead _ _ h
  · exact h

theorem deliver_kept (hk : Courier.Kept P) (h : P s.courier) (errand : Nat)
    (outcome : Errand.Outcome) : P (s.deliver errand outcome).state.courier := by
  unfold deliver
  split
  · exact h
  · rename_i answer c _
    unfold led
    split
    · split
      · exact advance_kept hk h c _
      · exact h
    · split
      · split
        · exact h
        · exact conclude_kept h c _
      · exact h
    · exact h
  · unfold recorded
    split <;> exact h
  · exact h

theorem goRound_kept (hk : Courier.Kept P) (h : P s.courier) (c : Call) :
    P (s.goRound c).state.courier := by
  rw [goRound]
  split
  · exact h
  · rw [startAttempt_eq]
    exact hk.records _ _ _ (hk.lead _ _ h)

/-- **Every input but a close** keeps what is kept. -/
theorem react_kept (hk : Courier.Kept P) (h : P s.courier) (x : Input) (hclose : x ≠ .close) :
    P (s.react x).state.courier := by
  cases x with
  | close                      => exact absurd rfl hclose
  | invoke data keys route seq =>
      show P (s.invoke data keys route seq).2.state.courier
      unfold invoke
      cases seq <;> dsimp only <;> split <;> exact goRound_kept hk (hk.number _ h) _
  | signal id sig              =>
      show P (s.step id sig).state.courier
      rw [step]
      split
      · exact Progress.feed_kept (P := fun t : Session => P t.courier) (hk.step _ id sig h)
          fun _ who outcome ht => deliver_kept hk ht who outcome
      · rename_i c _
        split
        · exact advance_kept hk h c _
        · exact goRound_kept hk h c
        · rw [expire]
          cases c.stage.errand? with
          | some errand => exact hk.abandon _ errand h
          | none        => exact h
        · exact h

/-- In every run of a session that stays open, the lines and the errands agree, if they did. -/
theorem run_lined {s₀ : Session} (ho : s₀.courier.InOrder) (h : s₀.courier.Lined)
    {inputs : List Input} (hopen : ∀ x ∈ inputs, x ≠ .close) :
    (s₀.run inputs).courier.Lined := by
  have hboth : (s₀.run inputs).courier.InOrder ∧ (s₀.run inputs).courier.Lined := by
    induction inputs generalizing s₀ with
    | nil          => exact ⟨ho, h⟩
    | cons x xs ih =>
        have hnext := react_kept Courier.kept_lined ⟨ho, h⟩ x (hopen x (List.mem_cons_self ..))
        exact ih hnext.1 hnext.2 fun y hy => hopen y (List.mem_cons_of_mem _ hy)
  exact hboth.2

end Session

namespace Opening

/-- Nobody stands in line when a session begins to be opened. -/
theorem begin_lined {config : SessionConfig} {o : Opening} (h : begin config = .ok o) :
    o.courier.Lined := by
  unfold begin at h
  split at h
  · cases h
  · rename_i settings _
    split at h
    · cases h
    · rename_i hmembers
      obtain rfl := Except.ok.inj h
      have hline : ∀ m, (Pool.ofMembers config.members).line m = [] := by
        intro m
        unfold Pool.line Pool.ofMembers
        rw [List.getElem?_map]
        cases config.members[m]? <;> rfl
      have hsize : 0 < (Pool.ofMembers config.members).size := by
        unfold Pool.size Pool.ofMembers
        rw [List.length_map]
        exact List.length_pos_iff.2 hmembers
      refine ⟨Courier.begin_queued ?_ ⟨hsize, fun _ he => absurd he List.not_mem_nil,
        fun _ he => absurd he List.not_mem_nil⟩ (.survey 0 []), rfl⟩
      refine ⟨List.nodup_nil, fun m => ?_, fun m i => ?_, List.nodup_nil, fun i => ?_,
        fun _ he => nomatch he⟩
      · rw [hline]
        exact List.nodup_nil
      · rw [hline]
        simp
      · simp

/-- What becomes of an opening whose errand has ended, and a session that it leads to. -/
theorem deliver_lined {o : Opening} (ho : o.courier.InOrder) (h : o.courier.Lined) (id : Nat)
    {outcome : Errand.Outcome}
    (hreached : ∀ reached, outcome = .surveyed reached → ∀ m ∈ reached, m < o.courier.pool.size) :
    (o.deliver id outcome).state.courier.Lined ∧
      ∀ who s, (who, Except.ok s) ∈ (o.deliver id outcome).results → s.courier.Lined := by
  cases outcome with
  | surveyed reached =>
      cases reached with
      | nil                =>
          refine ⟨h, fun who s hmem => ?_⟩
          exact nomatch congrArg Prod.snd (List.mem_singleton.1 hmem)
      | cons guess reached =>
          have hguess : guess < o.courier.pool.size := hreached _ rfl guess (List.mem_cons_self ..)
          have horder : Courier.InOrder { o.courier with guess } := ⟨hguess, ho.placed, ho.numbered⟩
          have hqueued : Courier.Queued { o.courier with guess } :=
            ⟨h.distinct, h.nodup, h.lines, h.once, h.turns, h.fits⟩
          exact ⟨⟨Courier.begin_queued hqueued horder (.lead .clientId _), h.unclosed⟩,
            fun _ _ hmem => nomatch hmem⟩
  | led answer       =>
      refine ⟨h, fun who s hmem => ?_⟩
      have hsession := congrArg Prod.snd (List.mem_singleton.1 hmem)
      cases answer with
      | error error => exact nomatch hsession
      | ok reply    =>
          rw [Except.ok.inj hsession]
          exact h
  | replied _        => exact ⟨h, fun _ _ hmem => nomatch hmem⟩
  | recorded _       => exact ⟨h, fun _ _ hmem => nomatch hmem⟩
  | closed           => exact ⟨h, fun _ _ hmem => nomatch hmem⟩

theorem step_lined {o : Opening} (ho : o.InOrder) (h : o.courier.Lined) (id : Nat) (sig : Signal) :
    (o.step id sig).state.courier.Lined ∧
      ∀ who s, (who, Except.ok s) ∈ (o.step id sig).results → s.courier.Lined := by
  have hline := Courier.step_lined ho.courier h id sig
  unfold step
  rcases Courier.step_advances ho.courier.placed id sig with ⟨_, hidle⟩ | ⟨e, hf, rfl, hadv⟩
  · rw [Progress.feed_of_nil (by rw [hidle]), hidle]
    exact ⟨h, fun _ _ hmem => nomatch hmem⟩
  · have horder := hadv.inOrder (List.mem_of_find?_eq_some hf) ho.courier
    cases hadv.turns with
    | rests _ results         =>
        rw [Progress.feed_of_nil results]
        exact ⟨hline, fun _ _ hmem => nomatch hmem⟩
    | moves _ _ _ _ _ results =>
        rw [Progress.feed_of_nil results]
        exact ⟨hline, fun _ _ hmem => nomatch hmem⟩
    | ends outcome warranted _ results =>
        obtain ⟨hstate, hres⟩ := Progress.feed_of_singleton (β := Opening) results
        rw [hstate, hres]
        refine deliver_lined horder hline e.id ?_
        rintro reached rfl m hm
        show m < (o.courier.step e.id sig).state.pool.size
        rw [hadv.keeps.size]
        exact warranted.2 m hm

theorem run_lined {o : Opening} (ho : o.InOrder) (h : o.courier.Lined)
    (told : List (Nat × Signal)) : (o.run told).courier.Lined := by
  induction told generalizing o with
  | nil          => exact h
  | cons t told ih => exact ih (step_inOrder ho t.1 t.2).1 (step_lined ho h t.1 t.2).1

end Opening

/-- **Every session that was opened has its lines in order.** -/
theorem Session.Opened.lined {s : Session} (h : s.Opened) : s.courier.Lined := by
  obtain ⟨config, o, told, id, sig, who, hbegin, hmem⟩ := h
  have horder := Opening.run_inOrder (Opening.begin_inOrder hbegin) told
  have hlined := Opening.run_lined (Opening.begin_inOrder hbegin) (Opening.begin_lined hbegin) told
  exact (Opening.step_lined horder hlined id sig).2 who s hmem

end WitnessReplication

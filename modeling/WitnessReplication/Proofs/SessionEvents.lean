import WitnessReplication.Proofs.CourierRuns

/-!
# Session events — what an input makes a session do with its courier

    Whatever happens to a session, it sends out errands or closes the pool, tells one errand
    something, or calls one off.  So a run of a session is a run of its courier, and what holds of
    the courier whatever happens to it holds of the courier of every session.  The session asks
    nothing of a member by itself: all that it asks is asked by its errands.

    What is told to an errand comes first, and what the session makes of it later.  Only the errand
    to the leader of a call is called off, when the call has run out of time.

* **`Session.Prompts`** — the events that an input may lead to.
* **`Session.Drives`** and **`react_drives`** — what every input does to the courier.
* **`run_sound`** — the courier of a session is sound, and calls and errands have different numbers.
-/

namespace WitnessReplication

namespace Session

variable {s t : Session} {p : Step} {c : Call} {x : Input} {xs : List Courier.Event}

/-- The events that an input may lead to. -/
inductive Prompts (s : Session) (x : Input) : List Courier.Event → Prop where
  /-- No errand from before is concerned. -/
  | alone {xs : List Courier.Event} (calm : ∀ y ∈ xs, y.errand? = none) : Prompts s x xs
  /-- An errand is told what the input says. -/
  | tells {i : Nat} {sig : Signal} {xs : List Courier.Event} (input : x = .signal i sig)
      (calm : ∀ y ∈ xs, y.errand? = none) : Prompts s x (.tells i sig :: xs)
  /-- A call has run out of time, and its errand to the leader is called off. -/
  | callsOff {c : Call} {i : Nat} (mem : c ∈ s.calls) (waits : c.stage.errand? = some i)
      (input : x = .signal c.id .expired) : Prompts s x [.callsOff i]

/-- What a session does with its courier. -/
structure Drives (s : Session) (x : Input) (xs : List Courier.Event) (p : Step) : Prop where
  prompts : s.Prompts x xs
  courier : p.state.courier = (s.courier.run xs).state
  /-- A call is one from before, or has the number that is taken first of all. -/
  calls   : ∀ c ∈ p.state.calls, (∃ d ∈ s.calls, d.id = c.id) ∨
    c.id = s.courier.fresh ∧ ∃ ys, xs = .number :: ys
  demands : ∀ d ∈ p.demands, d.reaches = true → d ∈ (s.courier.run xs).demands
  results : ∀ i, (i, .closed) ∈ p.results → (i, .closed) ∈ (s.courier.run xs).results

/-! ## Errands from before are let alone -/

/-- A step of a session that lets the errands from before alone. -/
structure Calms (s : Session) (p : Step) : Prop where
  events  : ∃ xs, (∀ y ∈ xs, y.errand? = none) ∧ p.state.courier = (s.courier.run xs).state
  calls   : ∀ c ∈ p.state.calls, ∃ d ∈ s.calls, d.id = c.id
  demands : ∀ d ∈ p.demands, d.reaches = false
  results : ∀ i, (i, .closed) ∉ p.results

theorem idle_calms (s : Session) : s.Calms { state := s } :=
  ⟨⟨[], fun _ h => (nomatch h), rfl⟩, fun c hc => ⟨c, hc, rfl⟩, fun _ h => (nomatch h),
    fun _ h => (nomatch h)⟩

theorem finish_calms (s : Session) (c : Call) (result : Except SessionError CommandOutput) :
    s.Calms (s.finish c result) where
  events  := ⟨[], fun _ h => (nomatch h), rfl⟩
  calls   := fun d hd => ⟨d, (List.mem_filter.1 hd).1, rfl⟩
  demands := fun _ h => nomatch h
  results := fun _ h => nomatch congrArg Prod.snd (List.mem_singleton.1 h)

/-- A call goes on, and errands may have been sent out. -/
theorem put_calms (s : Session) {t : Session} (c : Call) (hcalls : t.calls = s.calls)
    (events : ∃ xs : List Courier.Event, (∀ y ∈ xs, y.errand? = none) ∧
      t.courier = (s.courier.run xs).state)
    {ds : List (Demand Nat)} (hds : ∀ d ∈ ds, d.reaches = false) :
    s.Calms { state := t.put c, demands := ds } where
  events  := events
  calls   := by
    intro c' hc'
    obtain ⟨d, hd, rfl⟩ := List.mem_map.1 hc'
    refine ⟨d, hcalls ▸ hd, ?_⟩
    split
    · assumption
    · rfl
  demands := hds
  results := fun _ h => nomatch h

theorem conclude_calms (s : Session) (c : Call) (error : SessionError) :
    s.Calms (s.conclude c error) := by
  unfold conclude
  split
  · exact s.finish_calms c _
  · exact s.put_calms _ rfl ⟨[], fun _ h => (nomatch h), rfl⟩
      fun d hd => List.mem_singleton.1 hd ▸ rfl

theorem advance_calms (s : Session) (c : Call) (a : Attempt) : s.Calms (s.advance c a) := by
  unfold advance
  split
  · rename_i answer _ _
    cases a.decision s.courier.guess answer with
    | commit data path => exact s.finish_calms c _
    | fail error       => exact s.conclude_calms c error
    | sync data        =>
        exact s.put_calms
          (t := { s with courier := (s.courier.beginLead (.sync (some c.entry))).2 }) _ rfl
          ⟨[.leads (.sync (some c.entry))], fun y hy => List.mem_singleton.1 hy ▸ rfl, rfl⟩
          fun _ h => nomatch h
  · exact s.put_calms _ rfl ⟨[], fun _ h => (nomatch h), rfl⟩ fun _ h => nomatch h

/-- What an errand of a call has come to is handed on. -/
theorem deliver_calms (s : Session) (i : Nat) {outcome : Errand.Outcome} (h : outcome ≠ .closed) :
    s.Calms (s.deliver i outcome) := by
  unfold deliver
  split
  · exact absurd rfl h
  · rename_i answer c _
    unfold led
    split
    · split
      · exact s.advance_calms c _
      · exact s.idle_calms
    · split
      · split
        · exact s.finish_calms c _
        · exact s.conclude_calms c _
      · exact s.idle_calms
    · exact s.idle_calms
  · unfold recorded
    split
    · exact s.put_calms _ rfl ⟨[], fun _ h => (nomatch h), rfl⟩ fun _ h => nomatch h
    · exact s.idle_calms
  · exact s.idle_calms

theorem goRound_calms (s : Session) (c : Call) : s.Calms (s.goRound c) := by
  unfold goRound
  split
  · exact s.finish_calms c _
  · rw [startAttempt_eq]
    refine s.put_calms (t := { s with courier := s.sendsOut c }) _ rfl
      ⟨[.leads (.command c.entry), .records c.entry (s.selects c)], fun y hy => ?_, rfl⟩
      fun _ h => nomatch h
    rcases List.mem_pair.1 hy with rfl | rfl <;> rfl

/-! ## Every input -/

/-- What an errand is told leads to what the session does next. -/
theorem Calms.drives (h : s.Calms p) : ∃ xs, s.Drives x xs p := by
  obtain ⟨⟨xs, hcalm, hcourier⟩, hcalls, hdemands, hresults⟩ := h
  exact ⟨xs, .alone hcalm, hcourier, fun c hc => Or.inl (hcalls c hc),
    fun d hd hr => (nomatch (hdemands d hd).symm.trans hr), fun i hi => absurd hi (hresults i)⟩

/-- A user begins a call: it takes a number, and may begin its first attempt. -/
theorem invoke_drives (s : Session) (data : Bytes) (keys : List Key) (route : Route)
    (seq : Option SeqNo) : ∃ xs, s.Drives x xs (s.invoke data keys route seq).2 := by
  have hgo : ∀ (identity : Identity) (entry : LogEntry) (ds : List (Demand Nat)) (p : Step),
      p = goRound { s with
          identity
          courier := s.courier.takeNumber.2
          calls   := s.calls ++ [{ id := s.courier.fresh, entry, route }] }
        { id := s.courier.fresh, entry, route } →
      (∀ d ∈ ds, d.reaches = false) →
      ∃ xs, s.Drives x xs { p with demands := ds ++ p.demands } := by
    rintro identity entry ds p rfl hds
    obtain ⟨⟨xs, hcalm, hcourier⟩, hcalls, hdemands, hresults⟩ := goRound_calms
      { s with
        identity
        courier := s.courier.takeNumber.2
        calls   := s.calls ++ [{ id := s.courier.fresh, entry, route }] }
      { id := s.courier.fresh, entry, route }
    refine ⟨.number :: xs, .alone fun y hy => ?_, hcourier, fun c hc => ?_, fun d hd hr => ?_,
      fun i hi => absurd hi (hresults i)⟩
    · exact (List.mem_cons.1 hy).elim (fun hy => hy ▸ rfl) (hcalm y)
    · obtain ⟨d, hd, hid⟩ := hcalls c hc
      rcases List.mem_append.1 hd with hd | hd
      · exact Or.inl ⟨d, hd, hid⟩
      · rw [List.mem_singleton.1 hd] at hid
        exact Or.inr ⟨hid.symm, xs, rfl⟩
    · have hnone := (List.mem_append.1 hd).elim (hds d) (hdemands d)
      exact nomatch hnone.symm.trans hr
  unfold invoke
  cases seq with
  | none   =>
      dsimp only
      split
      · exact hgo _ _ [_] _ rfl fun d hd => List.mem_singleton.1 hd ▸ rfl
      · exact hgo _ _ [] _ rfl fun _ h => nomatch h
  | some n =>
      dsimp only
      split
      · exact hgo _ _ [_] _ rfl fun d hd => List.mem_singleton.1 hd ▸ rfl
      · exact hgo _ _ [] _ rfl fun _ h => nomatch h

/-- A call runs out of time, and its errand to the leader is called off. -/
theorem expire_drives {id : Nat} (hcall : s.call? id = some c) :
    ∃ xs, s.Drives (.signal id .expired) xs (s.expire c) := by
  have hc : c ∈ s.calls := List.mem_of_find?_eq_some hcall
  have hid : c.id = id := by simpa using List.find?_some hcall
  have hends : ∀ {courier : Courier} {xs : List Courier.Event},
      s.Prompts (.signal id .expired) xs → courier = (s.courier.run xs).state →
      ∀ result, s.Drives (.signal id .expired) xs
        (({ s with courier } : Session).finish c result) := by
    intro courier xs hprompts hcourier result
    refine ⟨hprompts, hcourier, fun d hd => Or.inl ⟨d, (List.mem_filter.1 hd).1, rfl⟩,
      fun _ hd => (nomatch hd), fun i hi => ?_⟩
    exact absurd hi (({ s with courier } : Session).finish_calms c result |>.results i)
  rw [expire]
  cases hwaits : c.stage.errand? with
  | none   => exact ⟨[], hends (.alone (List.forall_mem_nil _)) rfl _⟩
  | some i => exact ⟨[.callsOff i], hends (.callsOff hc hwaits (by rw [hid])) rfl _⟩

/-- What an errand comes to is handed on; that it has closed the pool is told to the user. -/
theorem deliver_hands (t : Session) (i : Nat) (outcome : Errand.Outcome) :
    t.Calms { t.deliver i outcome with results := [] } ∧
      ∀ j, (j, .closed) ∈ (t.deliver i outcome).results → j = i ∧ outcome = .closed := by
  by_cases h : outcome = .closed
  · subst h
    exact ⟨t.idle_calms, fun j hj => ⟨congrArg Prod.fst (List.mem_singleton.1 hj), rfl⟩⟩
  · obtain ⟨hevents, hcalls, hdemands, hresults⟩ := t.deliver_calms i h
    exact ⟨⟨hevents, hcalls, hdemands, fun _ hj => (nomatch hj)⟩,
      fun j hj => absurd hj (hresults j)⟩

/-- An errand is told something, and what it comes to is taken in. -/
theorem absorb_drives (h : s.InOrder) (i : Nat) (sig : Signal) :
    ∃ xs, (∀ y ∈ xs, y.errand? = none) ∧
      s.Drives (.signal i sig) (.tells i sig :: xs) (s.absorb (s.courier.step i sig)) := by
  have hone : s.courier.run [.tells i sig] = s.courier.step i sig :=
    s.courier.run_singleton (.tells i sig)
  have hquiet : (s.courier.step i sig).results = [] →
      ∃ xs, (∀ y ∈ xs, y.errand? = none) ∧
        s.Drives (.signal i sig) (.tells i sig :: xs) (s.absorb (s.courier.step i sig)) := by
    intro hnone
    unfold absorb
    rw [Progress.feed_of_nil hnone]
    refine ⟨[], List.forall_mem_nil _, .tells rfl (List.forall_mem_nil _), ?_,
      fun c hc => Or.inl ⟨c, hc, rfl⟩, fun d hd _ => ?_, fun _ hi => (nomatch hi)⟩
    · rw [hone]
    · rw [hone]
      exact hd
  rcases Courier.step_advances h.courier.placed i sig with ⟨_, hidle⟩ | ⟨e, _, rfl, hadv⟩
  · exact hquiet (by rw [hidle])
  · cases hadv.turns with
    | rests _ results           => exact hquiet results
    | moves _ _ _ _ _ results   => exact hquiet results
    | ends outcome _ _ results  =>
        obtain ⟨⟨⟨ys, hcalm, hcourier⟩, hcalls, hdemands, _⟩, hclosed⟩ :=
          deliver_hands { s with courier := (s.courier.step e.id sig).state } e.id outcome
        have hrun : s.courier.run (.tells e.id sig :: ys) =
            { state   := ((s.courier.step e.id sig).state.run ys).state
              demands := (s.courier.step e.id sig).demands ++
                ((s.courier.step e.id sig).state.run ys).demands
              results := (s.courier.step e.id sig).results ++
                ((s.courier.step e.id sig).state.run ys).results } := rfl
        obtain ⟨hstate, hresults⟩ := Progress.feed_of_singleton (β := Session) results
        unfold absorb
        refine ⟨ys, hcalm, .tells rfl hcalm, ?_, ?_, fun d hd hr => ?_, fun i hi => ?_⟩
        · rw [hrun, hstate]
          exact hcourier
        · rw [hstate]
          exact fun c hc => Or.inl (hcalls c hc)
        · rw [Progress.feed_demands_of_singleton (β := Session) results] at hd
          rw [hrun]
          refine List.mem_append_left _ ((List.mem_append.1 hd).resolve_right fun hd => ?_)
          exact nomatch (hdemands d hd).symm.trans hr
        · rw [hresults] at hi
          obtain ⟨rfl, rfl⟩ := hclosed i hi
          rw [hrun, results]
          exact List.mem_append_left _ (List.mem_singleton.2 rfl)

/-- **What every input does to the courier.** -/
theorem react_drives (h : s.InOrder) (x : Input) : ∃ xs, s.Drives x xs (s.react x) := by
  cases x with
  | invoke data keys route seq => exact s.invoke_drives data keys route seq
  | close                      =>
      exact ⟨[.closes], .alone fun y hy => List.mem_singleton.1 hy ▸ rfl, rfl,
        fun c hc => Or.inl ⟨c, hc, rfl⟩, fun _ hd => (nomatch hd), fun _ hi => (nomatch hi)⟩
  | signal id sig              =>
      show ∃ xs, s.Drives _ xs (s.step id sig)
      rw [step]
      cases hcall : s.call? id with
      | none   =>
          obtain ⟨xs, _, hdrives⟩ := absorb_drives h id sig
          exact ⟨_, hdrives⟩
      | some c =>
          dsimp only
          split
          · exact (s.advance_calms c _).drives
          · exact (s.goRound_calms c).drives
          · exact expire_drives hcall
          · exact s.idle_calms.drives

/-! ## Every run -/

/-- What holds of a session at any time: it is in order, its courier is sound, and no call has the
    number of an errand. -/
structure Sound (s : Session) : Prop where
  order   : s.InOrder
  courier : s.courier.Sound
  apart   : ∀ e ∈ s.courier.errands, ∀ c ∈ s.calls, e.id ≠ c.id

/-- What is told under the number of an errand is told to the errand. -/
theorem Sound.call?_eq_none (h : s.Sound) {e : Errand} (he : e ∈ s.courier.errands) :
    s.call? e.id = none := by
  refine List.find?_eq_none.2 fun c hc => ?_
  simpa using (h.apart e he c hc).symm

/-- **Every input keeps it so.** -/
theorem react_sound (h : s.Sound) (x : Input) : (s.react x).state.Sound := by
  obtain ⟨xs, hdrives⟩ := react_drives h.order x
  refine ⟨(react_carries h.order x).order, ?_, fun e he c hc => ?_⟩
  · rw [hdrives.courier]
    exact Courier.sound_run h.courier xs
  · rw [hdrives.courier] at he
    rcases hdrives.calls c hc with ⟨d, hd, hid⟩ | ⟨hid, ys, rfl⟩
    · rcases (Courier.run_lasts h.courier.order xs).errands e he with ⟨f, hf, hfid, _⟩ | hnew
      · rw [← hfid, ← hid]
        exact h.apart f hf d hd
      · have hlt := h.order.numbered d hd
        omega
    · -- the call has taken its number before any errand of its own was sent out
      have hlasts := Courier.run_lasts h.courier.order.takeNumber ys
      rcases hlasts.errands e he with ⟨f, hf, hfid, _⟩ | hnew
      · have hlt := h.courier.order.numbered f hf
        omega
      · have hnext : s.courier.takeNumber.2.fresh = s.courier.fresh + 1 := rfl
        omega

/-- **Every run keeps it so.** -/
theorem run_sound (h : s.Sound) (inputs : List Input) : (s.run inputs).Sound := by
  induction inputs generalizing s with
  | nil            => exact h
  | cons x rest ih => exact ih (react_sound h x)

/-- So it is with every session that was opened. -/
theorem Opened.sound (h : s.Opened) : s.Sound := by
  refine ⟨h.fresh.inOrder, h.atRest.sound, fun e he => ?_⟩
  rw [h.fresh.errands] at he
  exact nomatch he

end Session

end WitnessReplication

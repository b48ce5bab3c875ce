import Mathlib.Data.List.Induction
import WitnessReplication.Proofs.SharedCache

/-!
# Concurrent sweeps — what all who share a cache can rely on

    Sweeps overtake each other, a record fills a bucket that a sweep has just emptied, and clocks are
    read before they are used.  All the same an answer stays until a sweep finds it old by its own
    reading of the clock, and what sweeps return adds up to what is no longer there.

* **`lookup_step`** — what a step does to an answer that is kept.
* **`account_run`** — what was dropped and what is kept is what was inserted.
* **`attended_of_hollow`** — a bucket is empty only as long as a sweep is about to look at it.
* **`gone_of_ended`** — what a sweep leaves of what was old when it collected the clients.
* **`reliable`** — the law, put together from these.
-/

namespace WitnessReplication

namespace SharedCache

/-! ## What is kept -/

/-- A cache in order, with the retention that it was made with. -/
structure Sound (s : SharedCache) (retention : Nat) : Prop where
  distinct  : s.cache.Distinct
  retention : s.cache.retention = retention

theorem sound_step {s : SharedCache} {retention : Nat} (h : s.Sound retention) (x : Event) :
    (s.step x).2.Sound retention := by
  obtain ⟨hd, hr⟩ := h
  have hsteps := s.step_steps x
  generalize s.step x = result at hsteps
  cases hsteps with
  | beginSweep | collect | finish | beginRecord | lookup | ended => exact ⟨hd, hr⟩
  | retain i w client rest _ _ =>
      exact ⟨hd.retainFresh w.now client, (ResponseCache.retention_retainFresh ..).trans hr⟩
  | drop i w client rest _ _   => exact ⟨hd.dropIfEmpty client, hr⟩
  | record j w _               =>
      exact ⟨hd.record w.now w.client w.seq w.response, (ResponseCache.retention_record ..).trans hr⟩

theorem sound_ran (retention : Nat) (events : List Event) :
    (ran retention events).Sound retention := by
  induction events using List.reverseRecOn with
  | nil              => exact ⟨ResponseCache.distinct_empty retention, rfl⟩
  | append_singleton events x ih =>
      rw [ran_concat]
      exact sound_step ih x

theorem stale_of_old {s : SharedCache} {retention : Nat} (h : s.Sound retention)
    (hpos : 0 < retention) {kept : CachedResponse} {now : Nat}
    (old : kept.createdAt + retention ≤ now) : s.cache.isFresh now kept = false :=
  ResponseCache.isFresh_of_le (h.retention ▸ hpos) (h.retention ▸ old)

/-- What a step does to an answer that is kept: nothing, unless it is a step of a sweep that read
    the clock when the answer was old enough. -/
theorem lookup_step {s : SharedCache} {retention : Nat} (h : s.Sound retention)
    (hpos : 0 < retention) {client : ClientId} {seq : SeqNo} {kept : CachedResponse}
    (hl : s.cache.lookup client seq = some kept) (x : Event) :
    (s.step x).2.cache.lookup client seq = some kept ∨
      (s.step x).2.cache.lookup client seq = none ∧
        ∃ i w, x = .sweep i ∧ s.sweeps[i]? = some w ∧ kept.createdAt + retention ≤ w.now := by
  have hd := h.distinct
  have hsteps := s.step_steps x
  generalize s.step x = result at hsteps
  cases hsteps with
  | beginSweep | collect | finish | beginRecord | lookup | ended => exact Or.inl hl
  | retain i w swept rest found _ =>
      show (s.cache.retainFresh w.now swept).2.lookup client seq = _ ∨
        (s.cache.retainFresh w.now swept).2.lookup client seq = _ ∧ _
      rw [ResponseCache.lookup_retainFresh hd, hl]
      by_cases hold : kept.createdAt + retention ≤ w.now
      · by_cases hc : swept = client
        · refine Or.inr ⟨?_, i, w, rfl, found, hold⟩
          rw [if_pos hc, Option.filter, stale_of_old h hpos hold]
          rfl
        · exact Or.inl (if_neg hc)
      · refine Or.inl ?_
        have hfresh : s.cache.isFresh w.now kept = true :=
          ResponseCache.isFresh_of_lt (h.retention ▸ hpos) (h.retention ▸ Nat.lt_of_not_le hold)
        rw [Option.filter, hfresh]
        simp
  | drop i w swept rest _ _       =>
      refine Or.inl ?_
      show ((s.cache.dropIfEmpty swept).bucket client).lookup seq = some kept
      rw [ResponseCache.bucket_dropIfEmpty hd]
      exact hl
  | record j w _                  =>
      refine Or.inl ?_
      show (s.cache.record w.now w.client w.seq w.response).2.lookup client seq = some kept
      rw [ResponseCache.lookup_record]
      split
      · rename_i hsame
        rw [hsame.1, hsame.2, hl]
        rfl
      · exact hl

/-- Whoever asks for an answer that is kept is told this one. -/
theorem told_of_kept {s : SharedCache} {client : ClientId} {seq : SeqNo} {kept : CachedResponse}
    (hl : s.cache.lookup client seq = some kept) :
    (s.step (.lookup client seq)).1 = some (.found (some kept)) ∧
      ∀ j w, s.recording? j = some w → w.client = client → w.seq = seq →
        (s.step (.record j)).1 = some (.kept kept) := by
  constructor
  · rw [step, hl]
  · intro j w hw hclient hseq
    rw [step, hw]
    simp only [hclient, hseq, ResponseCache.record, hl]

/-- An answer that is kept after a step was kept before it, or the step has inserted it. -/
theorem lookup_of_step {s : SharedCache} (hd : s.cache.Distinct) {x : Event} {client : ClientId}
    {seq : SeqNo} {kept : CachedResponse}
    (hl : (s.step x).2.cache.lookup client seq = some kept) :
    s.cache.lookup client seq = some kept ∨ s.insertion? x = some (⟨client, seq⟩, kept) := by
  have hsteps := s.step_steps x
  generalize s.step x = result at hl hsteps
  cases hsteps with
  | beginSweep | collect | finish | beginRecord | lookup | ended => exact Or.inl hl
  | retain i w swept rest _ _ =>
      have hfilter := ResponseCache.lookup_retainFresh hd w.now swept client seq
      refine Or.inl ?_
      rw [hfilter] at hl
      split at hl
      · exact (Option.filter_eq_some_iff.1 hl).1
      · exact hl
  | drop i w swept rest _ _   =>
      refine Or.inl ?_
      rwa [ResponseCache.lookup, ResponseCache.bucket_dropIfEmpty hd] at hl
  | record j w found          =>
      rw [ResponseCache.lookup_record] at hl
      split at hl
      · rename_i hsame
        obtain ⟨rfl, rfl⟩ := hsame
        cases hw : s.cache.lookup w.client w.seq with
        | some kept' =>
            rw [hw] at hl
            exact Or.inl hl
        | none       =>
            rw [hw] at hl
            refine Or.inr ?_
            simp only [insertion?, found, hw, if_true]
            rw [← Option.some.inj hl]
            rfl
      · exact Or.inl hl

/-! ## What sweeps return -/

theorem owedBy_append (l₁ l₂ : List Sweep) : owedBy (l₁ ++ l₂) = owedBy l₁ + owedBy l₂ := by
  induction l₁ with
  | nil         => exact (Nat.zero_add _).symm
  | cons w r ih =>
      show w.owed + owedBy (r ++ l₂) = w.owed + owedBy r + owedBy l₂
      rw [ih, Nat.add_assoc]

/-- What one sweep owes changes the sum, and what the others owe does not. -/
theorem owedBy_set {l : List Sweep} {i : Nat} {w : Sweep} (found : l[i]? = some w) (w' : Sweep) :
    owedBy (l.set i w') + w.owed = owedBy l + w'.owed := by
  induction l generalizing i with
  | nil         => exact nomatch found
  | cons v r ih =>
      cases i with
      | zero   =>
          have hv : v = w := Option.some.inj found
          subst hv
          show w'.owed + owedBy r + v.owed = v.owed + owedBy r + w'.owed
          omega
      | succ i =>
          have hr := ih (i := i) found
          show v.owed + owedBy (r.set i w') + w.owed = v.owed + owedBy r + w'.owed
          omega

theorem owedBy_of_ended {l : List Sweep} (h : ∀ w ∈ l, w.stage = .ended) : owedBy l = 0 := by
  induction l with
  | nil         => rfl
  | cons w r ih =>
      rw [List.forall_mem_cons] at h
      show w.owed + owedBy r = 0
      rw [Sweep.owed, if_pos h.1, ih h.2]

theorem owed_of_ne {w : Sweep} (h : w.stage ≠ .ended) : w.owed = w.dropped := if_neg h

/-- In one step: what is returned, what is still owed and what is kept is what was owed and kept
    before, and what the step inserts. -/
theorem account_step {s : SharedCache} (hd : s.cache.Distinct) (x : Event) :
    s.count x + owedBy (s.step x).2.sweeps + (s.step x).2.cache.size =
      owedBy s.sweeps + s.cache.size + (s.insertion? x).toList.length := by
  have hsteps := s.step_steps x
  rw [count]
  generalize s.step x = result at hsteps
  cases hsteps with
  | beginSweep now             =>
      show 0 + owedBy (s.sweeps ++ [{ now := now }]) + s.cache.size =
        owedBy s.sweeps + s.cache.size + 0
      rw [owedBy_append, Nat.zero_add]
      rfl
  | lookup | beginRecord       => exact congrArg (· + _) (Nat.zero_add _)
  | ended x nothing            =>
      rw [nothing]
      exact congrArg (· + _) (Nat.zero_add _)
  | collect i w found stage    =>
      have hset := owedBy_set found { w with stage := .sweeping s.cache.clients }
      rw [owed_of_ne (stage ▸ Stage.noConfusion), owed_of_ne Stage.noConfusion] at hset
      show 0 + owedBy (s.sweeps.set i _) + s.cache.size = owedBy s.sweeps + s.cache.size + 0
      rw [Nat.add_right_cancel hset, Nat.zero_add]
      rfl
  | finish i w found stage     =>
      have hset := owedBy_set found { w with stage := .ended }
      rw [owed_of_ne (stage ▸ Stage.noConfusion)] at hset
      have hpaid : Sweep.owed { w with stage := .ended } = 0 := if_pos rfl
      show w.dropped + owedBy (s.sweeps.set i _) + s.cache.size =
        owedBy s.sweeps + s.cache.size + 0
      omega
  | retain i w client rest found stage =>
      have hset := owedBy_set found { w with
        stage := .dropping client rest
        dropped := w.dropped + (s.cache.retainFresh w.now client).1 }
      rw [owed_of_ne (stage ▸ Stage.noConfusion), owed_of_ne Stage.noConfusion] at hset
      have hsize := ResponseCache.size_retainFresh hd w.now client
      show 0 + owedBy (s.sweeps.set i _) + (s.cache.retainFresh w.now client).2.size =
        owedBy s.sweeps + s.cache.size + 0
      simp only at hset
      omega
  | drop i w client rest found stage   =>
      have hset := owedBy_set found { w with stage := .sweeping rest }
      rw [owed_of_ne (stage ▸ Stage.noConfusion), owed_of_ne Stage.noConfusion] at hset
      show 0 + owedBy (s.sweeps.set i _) + (s.cache.dropIfEmpty client).size =
        owedBy s.sweeps + s.cache.size + 0
      rw [Nat.add_right_cancel hset, ResponseCache.size_dropIfEmpty, Nat.zero_add]
      rfl
  | record j w found           =>
      have hsize := ResponseCache.size_record hd w.now w.client w.seq w.response
      show 0 + owedBy s.sweeps + (s.cache.record w.now w.client w.seq w.response).2.size = _
      rw [hsize, insertion?, found]
      simp only
      split
      · simp
        omega
      · simp

/-- What is returned and what is still owed is what was inserted and is not kept. -/
theorem account_run {s : SharedCache} {retention : Nat} (h : s.Sound retention)
    (events : List Event) :
    s.returned events + owedBy (s.run events).sweeps + (s.run events).cache.size =
      owedBy s.sweeps + s.cache.size + (s.insertions events).length := by
  induction events generalizing s with
  | nil            => simp [returned, run, insertions]
  | cons x rest ih =>
      have hstep := account_step h.distinct x
      have hrest := ih (sound_step h x)
      rw [returned, run, insertions, List.length_append]
      omega

/-- Another sweep stays where it is. -/
theorem sweep_of_step {s : SharedCache} {x : Event} {i : Nat} {w : Sweep}
    (found : s.sweeps[i]? = some w) (h : x ≠ .sweep i) : (s.step x).2.sweeps[i]? = some w := by
  have hother : ∀ j w', Event.sweep j ≠ .sweep i → (s.sweeps.set j w')[i]? = some w := by
    intro j w' hj
    rw [List.getElem?_set_ne fun he => hj (congrArg Event.sweep he)]
    exact found
  have hsteps := s.step_steps x
  generalize s.step x = result at hsteps
  cases hsteps with
  | beginRecord | lookup | ended | record => exact found
  | collect | retain | drop | finish     => exact hother _ _ h
  | beginSweep now                       =>
      exact (List.getElem?_append_left (List.getElem?_eq_some_iff.1 found).1).trans found

/-! ## Empty buckets -/

/-- One of the sweeps is about to look whether the client's bucket is empty. -/
def Attended (sweeps : List Sweep) (client : ClientId) : Prop :=
  ∃ (i : Nat) (w : Sweep) (rest : List ClientId),
    sweeps[i]? = some w ∧ w.stage = .dropping client rest

/-- A step of a sweep that is about to do something else changes nothing about that. -/
theorem Attended.set {sweeps : List Sweep} {client : ClientId} (h : Attended sweeps client) {i : Nat}
    {w : Sweep} (found : sweeps[i]? = some w) (hne : ∀ rest, w.stage ≠ .dropping client rest)
    (w' : Sweep) : Attended (sweeps.set i w') client := by
  obtain ⟨j, v, rest, foundv, stage⟩ := h
  refine ⟨j, v, rest, ?_, stage⟩
  have hij : i ≠ j := by
    rintro rfl
    rw [Option.some.inj (foundv.symm.trans found)] at stage
    exact hne rest stage
  rw [List.getElem?_set_ne hij]
  exact foundv

theorem attended_step {s : SharedCache}
    (h : ∀ client, s.cache.Hollow client → Attended s.sweeps client) (x : Event)
    (client : ClientId) (hollow : (s.step x).2.cache.Hollow client) :
    Attended (s.step x).2.sweeps client := by
  have hsteps := s.step_steps x
  generalize s.step x = result at hollow hsteps
  cases hsteps with
  | beginRecord | lookup | ended       => exact h client hollow
  | record j w _                       => exact h client (ResponseCache.hollow_of_record hollow)
  | beginSweep now                     =>
      obtain ⟨i, w, rest, found, stage⟩ := h client hollow
      have hi := (List.getElem?_eq_some_iff.1 found).1
      exact ⟨i, w, rest, (List.getElem?_append_left hi).trans found, stage⟩
  | collect i w found stage            =>
      exact (h client hollow).set found (fun _ => stage ▸ Stage.noConfusion) _
  | finish i w found stage             =>
      exact (h client hollow).set found (fun _ => stage ▸ Stage.noConfusion) _
  | retain i w swept rest found stage  =>
      rcases ResponseCache.hollow_of_retainFresh hollow with rfl | hollow
      · have hi := (List.getElem?_eq_some_iff.1 found).1
        exact ⟨i, _, rest, List.getElem?_set_self hi, rfl⟩
      · exact (h client hollow).set found (fun _ => stage ▸ Stage.noConfusion) _
  | drop i w swept rest found stage    =>
      obtain ⟨hne, hollow⟩ := ResponseCache.hollow_of_dropIfEmpty hollow
      refine (h client hollow).set found (fun rest' he => ?_) _
      rw [stage] at he
      exact hne (Stage.dropping.inj he).1.symm

/-- A bucket is empty only as long as a sweep is about to look whether it is. -/
theorem attended_of_hollow (retention : Nat) (events : List Event) (client : ClientId)
    (hollow : (ran retention events).cache.Hollow client) :
    Attended (ran retention events).sweeps client := by
  induction events using List.reverseRecOn generalizing client with
  | nil              => exact absurd hollow List.not_mem_nil
  | append_singleton events x ih =>
      rw [ran_concat] at hollow ⊢
      exact attended_step ih x client hollow

/-! ## A sweep from its begin to its end -/

/-- The sweep is yet to drop what is old from the client's bucket. -/
def Sweep.Ahead (w : Sweep) (client : ClientId) : Prop :=
  match w.stage with
  | .sweeping clients => client ∈ clients
  | .dropping _ rest  => client ∈ rest
  | _                 => False

/-- A sweep that is yet to come to a client is still to come there after a step, or what was old
    is gone. -/
theorem ahead_step {s : SharedCache} {retention : Nat} (h : s.Sound retention)
    (hpos : 0 < retention) {client : ClientId} {seq : SeqNo} {kept : CachedResponse}
    (hl : s.cache.lookup client seq = some kept) {i : Nat} {w : Sweep}
    (found : s.sweeps[i]? = some w) (ahead : w.Ahead client)
    (old : kept.createdAt + retention ≤ w.now) (x : Event) :
    (s.step x).2.cache.lookup client seq = none ∨
      ∃ w', (s.step x).2.sweeps[i]? = some w' ∧ w'.now = w.now ∧ w'.Ahead client := by
  by_cases hx : x = .sweep i
  · subst hx
    obtain ⟨now, stage, dropped⟩ := w
    cases stage with
    | begun | ended          => exact nomatch ahead
    | dropping swept rest    =>
        exact Or.inr ⟨_, sweep_step found Stage.noConfusion, rfl, ahead⟩
    | sweeping clients       =>
        cases clients with
        | nil             => exact nomatch ahead
        | cons swept rest =>
            by_cases hc : swept = client
            · refine Or.inl ?_
              rw [step_sweeping found Stage.noConfusion]
              show (s.cache.retainFresh now swept).2.lookup client seq = none
              rw [ResponseCache.lookup_retainFresh h.distinct, if_pos hc, hl, Option.filter,
                stale_of_old h hpos old]
              rfl
            · have hrest : client ∈ rest := (List.mem_cons.1 ahead).resolve_left fun e => hc e.symm
              exact Or.inr ⟨_, sweep_step found Stage.noConfusion, rfl, hrest⟩
  · exact Or.inr ⟨w, sweep_of_step found hx, rfl, ahead⟩

/-- A client with an answer has a bucket. -/
theorem mem_clients_of_lookup {c : ResponseCache} {client : ClientId} {seq : SeqNo}
    {kept : CachedResponse} (hl : c.lookup client seq = some kept) : client ∈ c.clients := by
  by_contra hmem
  rw [ResponseCache.lookup, ResponseCache.bucket_of_unknown hmem] at hl
  cases hl

/-- Of what was old when a sweep collected the clients, a sweep that has ended has left nothing. -/
theorem gone_of_ended {retention : Nat} (hpos : 0 < retention) {before more : List Event}
    {i now dropped : Nat} (begun : (ran retention before).sweeps[i]? = some ⟨now, .begun, dropped⟩)
    {w : Sweep} (ended : (ran retention (before ++ .sweep i :: more)).sweeps[i]? = some w)
    (stage : w.stage = .ended) {client : ClientId} {seq : SeqNo} {kept : CachedResponse}
    (hl : (ran retention before).cache.lookup client seq = some kept)
    (old : kept.createdAt + retention ≤ now) :
    ∃ p, p <+: more ∧ (ran retention (before ++ .sweep i :: p)).cache.lookup client seq = none := by
  have hreach : (∃ p, p <+: more ∧
        (ran retention (before ++ .sweep i :: p)).cache.lookup client seq = none) ∨
      (ran retention (before ++ .sweep i :: more)).cache.lookup client seq = some kept ∧
        ∃ w, (ran retention (before ++ .sweep i :: more)).sweeps[i]? = some w ∧ w.now = now ∧
          w.Ahead client := by
    clear ended
    induction more using List.reverseRecOn with
    | nil                    =>
        rw [ran_concat]
        refine Or.inr ⟨?_, _, sweep_step begun Stage.noConfusion, rfl, mem_clients_of_lookup hl⟩
        rw [step_sweeping begun Stage.noConfusion]
        exact hl
    | append_singleton more x ih =>
        rcases ih with ⟨p, hp, hnone⟩ | ⟨hkept, w, found, rfl, ahead⟩
        · exact Or.inl ⟨p, hp.trans (List.prefix_append ..), hnone⟩
        · have hsound := sound_ran retention (before ++ .sweep i :: more)
          have hconcat := ran_concat retention (before ++ .sweep i :: more) x
          rw [List.append_assoc, List.cons_append] at hconcat
          rw [hconcat]
          by_cases hnone :
              ((ran retention (before ++ .sweep i :: more)).step x).2.cache.lookup client seq = none
          · exact Or.inl ⟨more ++ [x], List.prefix_rfl, hconcat ▸ hnone⟩
          · refine Or.inr ⟨?_, ?_⟩
            · exact (lookup_step hsound hpos hkept x).resolve_right fun h => hnone h.1
            · exact (ahead_step hsound hpos hkept found ahead old x).resolve_left hnone
  rcases hreach with gone | ⟨_, w', found, _, ahead⟩
  · exact gone
  · rw [Option.some.inj (found.symm.trans ended), Sweep.Ahead, stage] at ahead
    exact ahead.elim

/-- An answer that is kept was inserted once, and has been kept since. -/
theorem inserted_of_kept {retention : Nat} {events : List Event} {client : ClientId} {seq : SeqNo}
    {kept : CachedResponse} (hl : (ran retention events).cache.lookup client seq = some kept) :
    ∃ before x since, events = before ++ x :: since ∧
      (ran retention before).insertion? x = some (⟨client, seq⟩, kept) ∧
      ∀ p, p <+: since →
        (ran retention (before ++ x :: p)).cache.lookup client seq = some kept := by
  induction events using List.reverseRecOn with
  | nil                    => exact nomatch hl
  | append_singleton events x ih =>
      have hl' := hl
      rw [ran_concat] at hl'
      rcases lookup_of_step (sound_ran retention events).distinct hl' with hbefore | hinsert
      · obtain ⟨before, y, since, rfl, hinsert, hsince⟩ := ih hbefore
        refine ⟨before, y, since ++ [x], by rw [List.append_assoc, List.cons_append], hinsert, ?_⟩
        intro p hp
        rcases List.prefix_concat_iff.1 hp with rfl | hp
        · rwa [List.append_assoc, List.cons_append] at hl
        · exact hsince p hp
      · refine ⟨events, x, [], rfl, hinsert, ?_⟩
        intro p hp
        rw [List.prefix_nil.1 hp]
        exact hl

/-! ## The law -/

/-- What all who share a cache can rely on, whatever the order of their steps. -/
structure Reliable (retention : Nat) : Prop where
  /-- What is kept stays, unless it is taken away by a sweep whose own reading of the clock is past
      it by the retention. -/
  aged : ∀ events client seq kept x,
    (ran retention events).cache.lookup client seq = some kept →
      (ran retention (events ++ [x])).cache.lookup client seq = some kept ∨
      (ran retention (events ++ [x])).cache.lookup client seq = none ∧
        ∃ i w, x = .sweep i ∧ (ran retention events).sweeps[i]? = some w ∧
          kept.createdAt + retention ≤ w.now
  /-- What is kept is what was inserted, and has been kept since. -/
  original : ∀ events client seq kept,
    (ran retention events).cache.lookup client seq = some kept →
      ∃ before x since, events = before ++ x :: since ∧
        (ran retention before).insertion? x = some (⟨client, seq⟩, kept) ∧
        ∀ p, p <+: since →
          (ran retention (before ++ x :: p)).cache.lookup client seq = some kept
  /-- As long as it is kept, every look-up and every record of its name is told it. -/
  told : ∀ events client seq kept,
    (ran retention events).cache.lookup client seq = some kept →
      ((ran retention events).step (.lookup client seq)).1 = some (.found (some kept)) ∧
      ∀ j w, (ran retention events).recording? j = some w → w.client = client → w.seq = seq →
        ((ran retention events).step (.record j)).1 = some (.kept kept)
  /-- When a sweep has ended, everything is gone that was old when it collected the clients. -/
  swept : ∀ before i now dropped more w client seq kept,
    (ran retention before).sweeps[i]? = some ⟨now, .begun, dropped⟩ →
    (ran retention (before ++ .sweep i :: more)).sweeps[i]? = some w → w.stage = .ended →
    (ran retention before).cache.lookup client seq = some kept →
    retention ≤ now - kept.createdAt →
      ∃ p, p <+: more ∧ (ran retention (before ++ .sweep i :: p)).cache.lookup client seq = none
  /-- What sweeps have returned, what they are still to return and what is kept was inserted. -/
  counted : ∀ events,
    (start retention).returned events + owedBy (ran retention events).sweeps +
      (ran retention events).cache.size = ((start retention).insertions events).length
  /-- While no sweep is in progress, they have returned all that was inserted and is not kept. -/
  settled : ∀ events, (ran retention events).Quiet →
    (start retention).returned events + (ran retention events).cache.size =
      ((start retention).insertions events).length
  /-- While no sweep is in progress, no bucket is empty. -/
  filled : ∀ events, (ran retention events).Quiet →
    ∀ client, ¬ (ran retention events).cache.Hollow client

/-- **What all who share a cache can rely on**, whatever the order of their steps and whatever the
    clock reads. -/
theorem reliable (retention : Nat) (hpos : 0 < retention) : Reliable retention := by
  have hcounted : ∀ events,
      (start retention).returned events + owedBy (ran retention events).sweeps +
        (ran retention events).cache.size = ((start retention).insertions events).length := by
    intro events
    have haccount := account_run (sound_ran retention []) events
    rwa [show owedBy (ran retention []).sweeps + (ran retention []).cache.size = 0 from rfl,
      Nat.zero_add] at haccount
  constructor
  case aged =>
    intro events client seq kept x hl
    rw [ran_concat]
    exact lookup_step (sound_ran retention events) hpos hl x
  case original => exact fun events client seq kept hl => inserted_of_kept hl
  case told     => exact fun events client seq kept hl => told_of_kept hl
  case swept    =>
    intro before i now dropped more w client seq kept begun ended stage hl old
    exact gone_of_ended hpos begun ended stage hl (by omega)
  case counted  => exact hcounted
  case settled  =>
    intro events quiet
    have h := hcounted events
    rwa [owedBy_of_ended quiet, Nat.add_zero] at h
  case filled   =>
    intro events quiet client hollow
    obtain ⟨i, w, rest, found, stage⟩ := attended_of_hollow retention events client hollow
    rw [quiet w (List.mem_of_getElem? found)] at stage
    exact nomatch stage

/-- Two sweeps of one bucket, the second with an older reading of the clock.  The first empties the
    bucket, and before it looks whether it did, the bucket is filled again. -/
def refilled : List Event :=
  [.beginRecord 0 ⟨1⟩ ⟨1⟩ [1], .record 0, .beginSweep 5, .sweep 0, .beginSweep 1, .sweep 1, .sweep 0,
    .beginRecord 3 ⟨1⟩ ⟨2⟩ [2], .record 1, .sweep 0, .sweep 0, .sweep 1, .sweep 1, .sweep 1]

theorem reliable_refilled :
    0 < 2 ∧ Reliable 2 ∧ (ran 2 refilled).Quiet ∧
      (ran 2 (refilled.take 7)).cache.Hollow ⟨1⟩ ∧
      (ran 2 refilled).cache.lookup ⟨1⟩ ⟨1⟩ = none ∧
      (ran 2 refilled).cache.lookup ⟨1⟩ ⟨2⟩ = some ⟨[2], 3⟩ ∧
      (start 2).returned refilled = 1 ∧ ((start 2).insertions refilled).length = 2 :=
  ⟨by decide, reliable 2 (by decide), by decide, by decide, by decide, by decide, by decide,
    by decide⟩

end SharedCache

end WitnessReplication

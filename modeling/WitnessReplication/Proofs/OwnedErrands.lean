import WitnessReplication.Proofs.LineRuns

/-!
# Owned errands — who waits for the errands to the leader

    Any number of calls may be under way at once, each of them with an errand to the leader now and
    then.  Such an errand is waited for by its call until it is done, and called off if the call ends
    before that.  So once no call is under way, nobody looks for the leader, however many calls there
    have been; what may be left are errands to witnesses.

* **`Session.Owned`** — every errand is one of a call, and those to the leader are waited for.
* **`react_owned`** — every input but a close keeps it so.
* **`AllOwned.sole`** — where no call is under way, the next one is alone.
* **`Session.InUse`** — a session that was opened and that nobody has closed.
-/

namespace WitnessReplication

namespace Session

/-- Every errand is an errand of a call, and those to the leader are waited for by calls with certain
    numbers. -/
structure Owned (s : Session) (mine : Nat → Prop) : Prop where
  ofCall : ∀ e ∈ s.courier.errands, e.OfCall
  led    : ∀ e ∈ s.courier.errands, e.Leads →
    ∃ c ∈ s.calls, mine c.id ∧ c.stage.awaited? = some e.id

/-- All errands to the leader are waited for. -/
def AllOwned (s : Session) : Prop := s.Owned fun _ => True

variable {s t : Session} {c : Call} {mine : Nat → Prop}

/-- Errands go on, or end. -/
theorem Owned.of_errands (h : s.Owned mine) {courier : Courier}
    (errands : ∀ f ∈ courier.errands, ∃ e ∈ s.courier.errands, f.id = e.id ∧
      f.aim.purpose = e.aim.purpose) : ({ s with courier } : Session).Owned mine where
  ofCall := by
    intro f hf
    obtain ⟨e, he, _, hpurpose⟩ := errands f hf
    exact Errand.ofCall_of_purpose (h.ofCall e he) hpurpose
  led    := by
    rintro f hf ⟨request, hp⟩
    obtain ⟨e, he, hid, hpurpose⟩ := errands f hf
    obtain ⟨c, hc, hmine, hawaited⟩ := h.led e he ⟨request, hpurpose.symm.trans hp⟩
    exact ⟨c, hc, hmine, hawaited.trans (congrArg some hid.symm)⟩

/-- A call that waits for no errand to the leader owns none. -/
theorem AllOwned.but (h : s.AllOwned) (hd : (s.calls.map (·.id)).Nodup) (hc : c ∈ s.calls)
    (hnone : ∀ e ∈ s.courier.errands, c.stage.awaited? ≠ some e.id) : s.Owned (· ≠ c.id) where
  ofCall := h.ofCall
  led    := by
    intro e he hleads
    obtain ⟨d, hmem, _, hawaited⟩ := h.led e he hleads
    refine ⟨d, hmem, fun hid => ?_, hawaited⟩
    obtain rfl := List.inj_on_of_nodup_map hd hmem hc hid
    exact hnone e he hawaited

/-! ## The functions of a step, one by one -/

/-- A call that owns no errand ends. -/
theorem Owned.finish (h : t.Owned (· ≠ c.id)) (result : Except SessionError CommandOutput) :
    (t.finish c result).state.AllOwned where
  ofCall := h.ofCall
  led    := by
    intro e he hleads
    obtain ⟨d, hd, hne, hawaited⟩ := h.led e he hleads
    exact ⟨d, List.mem_filter.2 ⟨hd, by simpa using hne⟩, trivial, hawaited⟩

/-- A call that owns no errand is put in place of what it was.  If it has sent out an errand to the
    leader, it waits for it. -/
theorem Owned.put (h : t.Owned (· ≠ c.id)) (hc : c ∈ t.calls) (c' : Call) (hid : c'.id = c.id)
    {courier : Courier} (errands : ∀ e ∈ courier.errands, e ∈ t.courier.errands ∨
      e.OfCall ∧ (e.Leads → c'.stage.awaited? = some e.id)) :
    (({ t with courier } : Session).put c').AllOwned where
  ofCall := fun e he => (errands e he).elim (h.ofCall e) And.left
  led    := by
    intro e he hleads
    rcases errands e he with hold | ⟨_, hnew⟩
    · obtain ⟨d, hd, hne, hawaited⟩ := h.led e hold hleads
      exact ⟨d, List.mem_map.2 ⟨d, hd, if_neg (hid ▸ hne)⟩, trivial, hawaited⟩
    · exact ⟨c', List.mem_map.2 ⟨c, hc, if_pos hid.symm⟩, trivial, hnew hleads⟩

/-- A call goes on waiting for the same errand to the leader. -/
theorem AllOwned.put (h : t.AllOwned) (hd : (t.calls.map (·.id)).Nodup) (hc : c ∈ t.calls)
    (c' : Call) (hid : c'.id = c.id) (hawaited : c'.stage.awaited? = c.stage.awaited?) :
    (t.put c').AllOwned where
  ofCall := h.ofCall
  led    := by
    intro e he hleads
    obtain ⟨d, hmem, _, hwaits⟩ := h.led e he hleads
    by_cases hsame : d.id = c'.id
    · obtain rfl := List.inj_on_of_nodup_map hd hmem hc (hsame.trans hid)
      exact ⟨c', List.mem_map.2 ⟨d, hmem, if_pos hsame⟩, trivial, hawaited.trans hwaits⟩
    · exact ⟨d, List.mem_map.2 ⟨d, hmem, if_neg hsame⟩, trivial, hwaits⟩

theorem conclude_owned (h : t.Owned (· ≠ c.id)) (hc : c ∈ t.calls) (error : SessionError) :
    (t.conclude c error).state.AllOwned := by
  unfold conclude
  split
  · exact h.finish _
  · exact h.put hc { c with stage := .pausing } rfl fun e he => Or.inl he

/-- A call moves on that owns no errand, since the one it had is done. -/
theorem advance_owned (h : t.Owned (· ≠ c.id)) (hc : c ∈ t.calls) (a : Attempt) :
    (t.advance c a).state.AllOwned := by
  unfold advance
  split
  · rename_i answer _ _
    cases a.decision t.courier.guess answer with
    | commit data path => exact h.finish _
    | fail error       => exact conclude_owned h hc error
    | sync data        =>
        refine h.put hc { c with stage := .syncing data t.courier.fresh } rfl fun e he =>
          (List.mem_append.1 he).imp_right fun hnew => ?_
        rw [List.mem_singleton.1 hnew]
        exact ⟨Or.inl ⟨.sync (some c.entry), rfl⟩, fun _ => rfl⟩
  · exact h.put hc { c with stage := .attempting a } rfl fun e he => Or.inl he

theorem goRound_owned (h : t.Owned (· ≠ c.id)) (hc : c ∈ t.calls) :
    (t.goRound c).state.AllOwned := by
  unfold goRound
  split
  · exact h.finish _
  · rw [startAttempt_eq]
    refine h.put hc { c with
        attempts := c.attempts + 1
        stage    := .attempting (t.nextAttempt c) } rfl fun e he => ?_
    unfold sendsOut at he
    rw [Courier.beginRecords_eq] at he
    rcases List.mem_append.1 he with he | he
    · refine (List.mem_append.1 he).imp_right fun hnew => ?_
      rw [List.mem_singleton.1 hnew]
      exact ⟨Or.inl ⟨.command c.entry, rfl⟩, fun _ => rfl⟩
    · obtain ⟨p, _, rfl⟩ := List.mem_map.1 he
      refine Or.inr ⟨Or.inr ⟨p.2, c.entry, rfl⟩, ?_⟩
      rintro ⟨request, hp⟩
      exact nomatch hp

/-- The leader's answer is told to a call, once its errand is gone. -/
theorem led_owned (h : t.AllOwned) (hd : (t.calls.map (·.id)).Nodup) (hc : c ∈ t.calls) {i : Nat}
    (hgone : ∀ e ∈ t.courier.errands, e.id ≠ i) (answer : Except SessionError Reply) :
    (t.led c i answer).state.AllOwned := by
  have hbut : (∀ j, c.stage.awaited? = some j → j = i) → t.Owned (· ≠ c.id) := fun honly =>
    h.but hd hc fun e he hawaited => hgone e he (honly e.id hawaited)
  unfold led
  cases hstage : c.stage with
  | pausing             => exact h
  | attempting a        =>
      rw [hstage] at hbut
      dsimp only
      split
      · rename_i hleader
        refine advance_owned (hbut fun j hj => ?_) hc _
        exact (Call.Stage.awaited?_attempting.1 hj).2.symm.trans hleader
      · exact h
  | syncing data errand =>
      rw [hstage] at hbut
      dsimp only
      split
      · rename_i herrand
        have hdone := hbut fun j hj => (Option.some.inj hj).symm.trans herrand
        cases answer with
        | ok reply    => exact hdone.finish _
        | error error => exact conclude_owned hdone hc error
      · exact h

theorem recorded_owned (h : t.AllOwned) (hd : (t.calls.map (·.id)).Nodup) (hc : c ∈ t.calls)
    (i : Nat) (ok : Bool) : (t.recorded c i ok).state.AllOwned := by
  unfold recorded
  split
  · rename_i a hstage
    exact h.put hd hc { c with stage := .attempting (a.hear i ok) } rfl (by rw [hstage]; rfl)
  · exact h

/-- What an errand came to is told to whoever waits for it. -/
theorem deliver_owned (h : t.AllOwned) (hd : (t.calls.map (·.id)).Nodup) {i : Nat}
    (hgone : ∀ e ∈ t.courier.errands, e.id ≠ i) (outcome : Errand.Outcome) :
    (t.deliver i outcome).state.AllOwned := by
  unfold deliver
  split
  · exact h
  · rename_i answer c hfind
    exact led_owned h hd (List.mem_of_find?_eq_some hfind) hgone answer
  · rename_i ok c hfind
    exact recorded_owned h hd (List.mem_of_find?_eq_some hfind) i ok
  · exact h

/-- A step of an errand takes it on its way, or ends it. -/
theorem Owned.of_turns (h : s.Owned mine) {e : Errand} (he : e ∈ s.courier.errands) {sig : Signal}
    {q : Courier.Step} (ht : s.courier.Turns e sig q) :
    ({ s with courier := q.state } : Session).Owned mine := by
  refine h.of_errands fun f hf => ?_
  cases ht with
  | rests errands _                 => exact ⟨f, errands ▸ hf, rfl, rfl⟩
  | moves e' id purpose _ errands _ =>
      rw [errands] at hf
      obtain ⟨g, hg, rfl⟩ := List.mem_map.1 hf
      by_cases hid : g.id = e'.id
      · rw [if_pos hid]
        exact ⟨e, he, id, purpose⟩
      · rw [if_neg hid]
        exact ⟨g, hg, rfl, rfl⟩
  | ends _ _ errands _              =>
      rw [errands] at hf
      exact ⟨f, (List.mem_filter.1 hf).1, rfl, rfl⟩

theorem absorb_owned (h : s.AllOwned) (ho : s.InOrder) (i : Nat) (sig : Signal) :
    (s.absorb (s.courier.step i sig)).state.AllOwned := by
  rcases Courier.step_advances ho.courier.placed i sig with ⟨_, hidle⟩ | ⟨e, hf, rfl, hadv⟩
  · rw [hidle]
    exact h
  · have hturned := h.of_turns (List.mem_of_find?_eq_some hf) hadv.turns
    have hgone : (s.courier.step e.id sig).results ≠ [] → _ := gone_of_results ho
    generalize s.courier.step e.id sig = q at *
    cases hadv.turns with
    | rests _ results             =>
        unfold absorb
        rw [Progress.feed_of_nil results]
        exact hturned
    | moves _ _ _ _ _ results     =>
        unfold absorb
        rw [Progress.feed_of_nil results]
        exact hturned
    | ends outcome _ _ results    =>
        rw [(s.absorb_of_singleton results).1]
        exact deliver_owned hturned ho.distinct (hgone (by rw [results]; exact nofun)) outcome

/-- A call that runs out of time calls off the errand that it waits for. -/
theorem callsOff_owned (h : s.AllOwned) (hd : (s.calls.map (·.id)).Nodup) (hc : c ∈ s.calls) :
    ({ s with courier := s.callsOff c } : Session).Owned (· ≠ c.id) := by
  have hleft : ∀ e ∈ (s.callsOff c).errands,
      e ∈ s.courier.errands ∧ c.stage.awaited? ≠ some e.id := by
    intro e he
    cases hstage : c.stage with
    | pausing             =>
        unfold callsOff at he
        rw [hstage] at he
        exact ⟨he, nofun⟩
    | syncing data errand =>
        unfold callsOff at he
        rw [hstage] at he
        obtain ⟨hmem, hne⟩ := List.mem_filter.1 he
        exact ⟨hmem, fun hsame => by simp [(Option.some.inj hsame).symm] at hne⟩
    | attempting a        =>
        unfold callsOff at he
        rw [hstage] at he
        obtain ⟨hmem, hne⟩ := List.mem_filter.1 he
        refine ⟨hmem, fun hsame => ?_⟩
        simp [(Call.Stage.awaited?_attempting.1 hsame).2] at hne
  have hall : ({ s with courier := s.callsOff c } : Session).AllOwned :=
    Owned.of_errands h fun e he => ⟨e, (hleft e he).1, rfl, rfl⟩
  exact hall.but hd hc fun e he => (hleft e he).2

/-- What a call is told that goes on by itself. -/
theorem step_call_owned (h : s.AllOwned) (ho : s.InOrder) {id : Nat} (hcall : s.call? id = some c)
    (sig : Signal) : (s.step id sig).state.AllOwned := by
  have hc : c ∈ s.calls := List.mem_of_find?_eq_some hcall
  have hbut : c.stage.awaited? = none → s.Owned (· ≠ c.id) := fun hnone =>
    h.but ho.distinct hc fun _ _ => by rw [hnone]; exact nofun
  unfold step
  rw [hcall]
  dsimp only
  split
  · rename_i a hstage
    rw [hstage] at hbut
    cases hanswer : a.answer with
    | some answer => exact advance_owned (hbut (Call.Stage.awaited?_answered hanswer)) hc a
    | none        =>
        have hwaits : s.advance c a = { state := s.put { c with stage := .attempting a } } := by
          unfold advance
          rw [hanswer]
        rw [hwaits]
        exact h.put ho.distinct hc { c with stage := .attempting a } rfl (by rw [hstage])
  · rename_i hstage
    exact goRound_owned (hbut (by rw [hstage]; rfl)) hc
  · exact (callsOff_owned h ho.distinct hc).finish _
  · exact h

/-- A user begins a call, under a new number. -/
theorem invoke_owned (h : s.AllOwned) (ho : s.InOrder) (data : Bytes) (keys : List Key)
    (route : Route) (seq : Option SeqNo) : (s.invoke data keys route seq).2.state.AllOwned := by
  have hgo : ∀ (identity : Identity) (entry : LogEntry),
      (goRound { s with
          identity
          courier := s.courier.takeNumber.2
          calls   := s.calls ++ [{ id := s.courier.fresh, entry, route }] }
        { id := s.courier.fresh, entry, route }).state.AllOwned := by
    intro identity entry
    refine goRound_owned ⟨h.ofCall, fun e he hleads => ?_⟩
      (List.mem_append_right _ (List.mem_singleton.2 rfl))
    obtain ⟨d, hd, _, hawaited⟩ := h.led e he hleads
    exact ⟨d, List.mem_append_left _ hd, Nat.ne_of_lt (ho.numbered d hd), hawaited⟩
  unfold invoke
  cases seq <;> dsimp only <;> split <;> exact hgo _ _

/-- **Every input but a close** leaves every errand with its owner. -/
theorem react_owned (h : s.AllOwned) (ho : s.InOrder) (x : Input) (hx : x ≠ .close) :
    (s.react x).state.AllOwned := by
  cases x with
  | close                      => exact absurd rfl hx
  | invoke data keys route seq => exact invoke_owned h ho data keys route seq
  | signal id sig              =>
      show (s.step id sig).state.AllOwned
      cases hcall : s.call? id with
      | some c => exact step_call_owned h ho hcall sig
      | none   =>
          rw [step_errand hcall]
          exact absorb_owned h ho id sig

/-- **Where no call is under way, the next one is alone**: nobody looks for the leader. -/
theorem AllOwned.sole (h : s.AllOwned) (hnil : s.calls = []) : s.Sole := by
  have hnone : ∀ e ∈ s.courier.errands, ¬ e.Leads := by
    intro e he hleads
    obtain ⟨c, hc, _⟩ := h.led e he hleads
    rw [hnil] at hc
    exact nomatch hc
  exact .of_none hnil ⟨h.ofCall, fun e he hleads => absurd hleads (hnone e he),
    fun e he hleads => absurd hleads (hnone e he)⟩

/-! ## Sessions in use -/

/-- A session that was opened, after anything that may have happened to it but a close. -/
def InUse (s : Session) : Prop :=
  ∃ (s₀ : Session) (inputs : List Input), s₀.Opened ∧ (∀ x ∈ inputs, x ≠ .close) ∧
    s = s₀.run inputs

namespace InUse

variable (h : s.InUse)
include h

theorem inOrder : s.InOrder := by
  obtain ⟨s₀, inputs, hopened, _, rfl⟩ := h
  exact (run_follows hopened.fresh.inOrder inputs).1

theorem lined : s.courier.Lined := by
  obtain ⟨s₀, inputs, hopened, hopen, rfl⟩ := h
  exact run_lined hopened.fresh.inOrder.courier hopened.lined hopen

theorem allOwned : s.AllOwned := by
  obtain ⟨s₀, inputs, hopened, hopen, rfl⟩ := h
  induction inputs using List.reverseRecOn with
  | nil                         =>
      constructor <;> (show ∀ e ∈ s₀.courier.errands, _; rw [hopened.fresh.errands]; exact nofun)
  | append_singleton inputs x ih =>
      have hbefore := ih fun y hy => hopen y (List.mem_append_left _ hy)
      have hrun : s₀.run (inputs ++ [x]) = ((s₀.run inputs).react x).state := run_append ..
      rw [hrun]
      exact react_owned hbefore (run_follows hopened.fresh.inOrder inputs).1 x
        (hopen x (List.mem_append_right _ (List.mem_singleton.2 rfl)))

end InUse

end Session

end WitnessReplication

import WitnessReplication.Proofs.AttemptRulings

/-!
# Sole runs — what happens to a session that is used by one call at a time

    In a session that stays open and is used by one call at a time, every input does one of a few
    things to the call: it concerns an errand that goes on, or one that tells the call something, or
    the call itself.  In each case the call goes on knowing all that was exchanged since its last
    attempt began, and if its attempt is decided, then as these exchanges say.

* **`Session.Sole`** — a session with one call at most, whose errands nobody else steers.
* **`Session.Minds`** — what a step does to its call, and **`react_minds`**, every input does this.
* **`Session.OneAtATime`** — the runs of such a session; **`run_knows`** — what its call knows.
-/

namespace WitnessReplication

variable {xs : List Exchange} {selection : WitnessSelection} {courier : Courier}
  {snapshot : Nat} {c c' : Call}

namespace Session

/-! ## What an input does to a sole call -/

/-- A session that is used by one call at most: nobody but the errand that this call waits for
    looks for the leader. -/
structure Sole (s : Session) : Prop where
  one   : s.calls.length ≤ 1
  led   : ∀ c ∈ s.calls, s.courier.Steered c.stage.awaited?
  unled : s.calls = [] → s.courier.Steered none

variable {s t : Session} {x : List Exchange}

/-- A sole call is all there is. -/
theorem Sole.calls_eq (h : s.Sole) (hc : c ∈ s.calls) : s.calls = [c] := by
  obtain ⟨d, hd⟩ := List.length_eq_one_iff.1
    (Nat.le_antisymm h.one (List.length_pos_of_mem hc))
  rw [hd] at hc ⊢
  rw [List.mem_singleton.1 hc]

theorem Sole.of_one (h : s.calls = [c]) (hs : s.courier.Steered c.stage.awaited?) : s.Sole := by
  refine ⟨by rw [h]; exact Nat.le_refl 1, fun d hd => ?_, fun hnil => ?_⟩
  · rw [h] at hd
    rw [List.mem_singleton.1 hd]
    exact hs
  · rw [h] at hnil
    exact nomatch hnil

theorem Sole.of_none (h : s.calls = []) (hs : s.courier.Steered none) : s.Sole := by
  refine ⟨by rw [h]; exact Nat.zero_le 1, fun d hd => ?_, fun _ => hs⟩
  rw [h] at hd
  exact nomatch hd

/-- A sole call that is put in place of what it was is all there is. -/
theorem calls_put (h : t.calls = [c]) (hid : c'.id = c.id) : (t.put c').calls = [c'] := by
  simp [put, h, hid]

theorem mem_put (h : t.calls = [c]) (hid : c'.id = c.id) : c' ∈ (t.put c').calls := by
  rw [calls_put h hid]
  exact List.mem_singleton.2 rfl

/-- Nothing is left when a sole call ends. -/
theorem calls_finish (h : t.calls = [c]) (result : Except SessionError CommandOutput) :
    (t.finish c result).state.calls = [] := by
  simp [finish, h]

/-- What an input makes of what a call knows, by the courier after it and the exchange that comes to
    its end with it. -/
inductive Learns (s : Session) (x : List Exchange) (courier : Courier) (c' : Call) : Prop where
  /-- The call is between two attempts. -/
  | pauses (stage : c'.stage = .pausing)
  /-- The call begins an attempt. -/
  | begins (anew : ∀ c ∈ s.calls, c.id = c'.id → c.attempts < c'.attempts)
      (knows : c'.Knows s.settings.selection courier s.courier.guess x)
  /-- The call goes on with its attempt. -/
  | goesOn (c : Call) (mem : c ∈ s.calls) (id : c.id = c'.id) (attempts : c.attempts = c'.attempts)
      (busy : c.stage ≠ .pausing)
      (knows : ∀ snapshot xs, c.Knows s.settings.selection s.courier snapshot xs →
        c'.Knows s.settings.selection courier snapshot (xs ++ x))

/-- An errand is under way that was sent out with a sync, under a new number. -/
def SendsSync (s : Session) (courier : Courier) (entry : LogEntry) (errand : Nat) : Prop :=
  s.courier.fresh ≤ errand ∧ ∃ e ∈ courier.errands, e.id = errand ∧
    e.aim.purpose = .lead (.sync (some entry))

/-- What a step does to a sole call, and how it decides its attempt. -/
structure Minds (s : Session) (x : List Exchange) (p : Step) : Prop where
  sole  : p.state.Sole
  calls : ∀ c' ∈ p.state.calls, s.Learns x p.state.courier c'
  rules : ∀ c ∈ s.calls, c.stage ≠ .pausing → c.route = .fast → ∀ r, Rules c p r →
    (∀ snapshot xs, c.Knows s.settings.selection s.courier snapshot xs →
      c.Lawful s.settings.selection s.courier.pool.size snapshot (xs ++ x) r) ∧
    ∀ data errand, r = .fallback data errand → s.SendsSync p.state.courier c.entry errand

/-- What is waited for plays no part. -/
theorem Minds.of_demands {p q : Step} (h : s.Minds x p) (hstate : q.state = p.state)
    (hresults : q.results = p.results) : s.Minds x q where
  sole  := hstate ▸ h.sole
  calls := hstate ▸ h.calls
  rules := by
    intro c hc hbusy hfast r hr
    rw [hstate]
    refine h.rules c hc hbusy hfast r ?_
    cases hr with
    | returns result                   => exact .returns (hresults ▸ result)
    | sends attempting mem same stage  => exact .sends attempting (hstate ▸ mem) same stage
    | pauses mem same stage            => exact .pauses (hstate ▸ mem) same stage
    | fails inTime result              => exact .fails inTime (hresults ▸ result)

/-- Nothing is decided by a step without a result after which the sole call goes on with what it
    did: it still makes its attempt if it did so. -/
theorem not_rules {p : Step} (hresults : p.results = []) (hcalls : p.state.calls = [c'])
    (hpausing : c'.stage ≠ .pausing) (hstays : (∃ a, c.stage = .attempting a) →
      ∃ a, c'.stage = .attempting a) {r : Ruling} : ¬ Rules c p r := by
  intro hr
  cases hr with
  | returns result                  => rw [hresults] at result; exact nomatch result
  | fails _ result                  => rw [hresults] at result; exact nomatch result
  | pauses mem _ stage              =>
      rw [hcalls] at mem
      exact hpausing (List.mem_singleton.1 mem ▸ stage)
  | sends attempting mem _ stage    =>
      rw [hcalls] at mem
      obtain ⟨a, ha⟩ := hstays ⟨_, attempting⟩
      rw [List.mem_singleton.1 mem, ha] at stage
      exact nomatch stage

/-- A step without a result that leaves the calls as they are. -/
theorem still_minds {p : Step} (hs : s.Sole) (hresults : p.results = [])
    (hcalls : p.state.calls = s.calls)
    (hsteered : ∀ lead, s.courier.Steered lead → p.state.courier.Steered lead)
    (hknows : ∀ c ∈ s.calls, c.stage ≠ .pausing → ∀ snapshot xs,
      c.Knows s.settings.selection s.courier snapshot xs →
        c.Knows s.settings.selection p.state.courier snapshot (xs ++ x)) : s.Minds x p where
  sole  := by
    refine ⟨hcalls ▸ hs.one, fun c hc => ?_, fun hnil => ?_⟩
    · exact hsteered _ (hs.led c (hcalls ▸ hc))
    · exact hsteered _ (hs.unled (hcalls ▸ hnil))
  calls := by
    intro c hc
    have hmem : c ∈ s.calls := hcalls ▸ hc
    by_cases hpausing : c.stage = .pausing
    · exact .pauses hpausing
    · exact .goesOn c hmem rfl rfl hpausing (hknows c hmem hpausing)
  rules := by
    intro c hc hbusy _ r hr
    exact absurd hr (not_rules hresults (hcalls.trans (hs.calls_eq hc)) hbusy id)

/-- The sole call goes on with its attempt, at another point of it, and nothing is decided. -/
theorem put_minds (c' : Call) (htcalls : t.calls = [c]) (hcalls : s.calls = [c])
    (hid : c'.id = c.id) (hsteered : t.courier.Steered c'.stage.awaited?) {a' : Attempt}
    (hstage : c'.stage = .attempting a') (hlearns : s.Learns x t.courier c')
    {ds : List (Demand Nat)} : s.Minds x { state := t.put c', demands := ds } where
  sole  := .of_one (calls_put htcalls hid) hsteered
  calls := by
    intro d hd
    rw [calls_put htcalls hid] at hd
    rw [List.mem_singleton.1 hd]
    exact hlearns
  rules := by
    intro d hd _ _ r hr
    rw [hcalls] at hd
    obtain rfl := List.mem_singleton.1 hd
    have hpausing : c'.stage ≠ .pausing := by rw [hstage]; exact nofun
    exact absurd hr (not_rules rfl (calls_put htcalls hid) hpausing fun _ => ⟨a', hstage⟩)

/-- The sole call ends. -/
theorem finish_minds (htcalls : t.calls = [c]) (hcalls : s.calls = [c])
    (hsteered : t.courier.Steered none) {result : Except SessionError CommandOutput}
    (hok : ∀ out, result = .ok out → c.route = .fast → ∀ snapshot xs,
      c.Knows s.settings.selection s.courier snapshot xs →
        c.Lawful s.settings.selection s.courier.pool.size snapshot (xs ++ x) (.success out))
    (herror : ∀ error, result = .error error → (∀ span, error ≠ .deadlineExceeded span) →
      c.stage ≠ .pausing → c.route = .fast → ∀ snapshot xs,
      c.Knows s.settings.selection s.courier snapshot xs →
        c.Lawful s.settings.selection s.courier.pool.size snapshot (xs ++ x) .failure) :
    s.Minds x (t.finish c result) where
  sole  := .of_none (calls_finish htcalls result) hsteered
  calls := by
    intro d hd
    rw [calls_finish htcalls result] at hd
    exact nomatch hd
  rules := by
    intro d hd hbusy hfast r hr
    rw [hcalls] at hd
    obtain rfl := List.mem_singleton.1 hd
    have hcall : ∀ d', d' ∉ (t.finish d result).state.calls := by
      intro d' hd'
      rw [calls_finish htcalls result] at hd'
      exact nomatch hd'
    cases hr with
    | returns mem            =>
        have hres : Outcome.returned _ = Outcome.returned result :=
          congrArg Prod.snd (List.mem_singleton.1 mem)
        exact ⟨hok _ (Outcome.returned.inj hres).symm hfast, nofun⟩
    | fails inTime mem       =>
        have hres : Outcome.returned _ = Outcome.returned result :=
          congrArg Prod.snd (List.mem_singleton.1 mem)
        exact ⟨herror _ (Outcome.returned.inj hres).symm inTime hbusy hfast, nofun⟩
    | pauses mem _ _         => exact absurd mem (hcall _)
    | sends _ mem _ _        => exact absurd mem (hcall _)

/-- The sole call's attempt has failed. -/
theorem conclude_minds (htcalls : t.calls = [c]) (hcalls : s.calls = [c])
    (hsteered : t.courier.Steered none) (error : SessionError)
    (hlaw : c.route = .fast → ∀ snapshot xs, c.Knows s.settings.selection s.courier snapshot xs →
      c.Lawful s.settings.selection s.courier.pool.size snapshot (xs ++ x) .failure) :
    s.Minds x (t.conclude c error) := by
  unfold conclude
  split
  · exact finish_minds htcalls hcalls hsteered (fun _ h => nomatch h) fun _ _ _ _ => hlaw
  · have hput : (t.put { c with stage := .pausing }).calls = [{ c with stage := .pausing }] :=
      calls_put htcalls rfl
    refine ⟨.of_one hput hsteered, fun d hd => ?_, fun d hd _ hfast r hr => ?_⟩
    · have hd' : d ∈ (t.put { c with stage := .pausing }).calls := hd
      rw [hput] at hd'
      rw [List.mem_singleton.1 hd']
      exact .pauses rfl
    · rw [hcalls] at hd
      obtain rfl := List.mem_singleton.1 hd
      cases hr with
      | returns result        => exact nomatch result
      | fails _ result        => exact nomatch result
      | pauses _ _ _          => exact ⟨hlaw hfast, nofun⟩
      | sends _ mem _ stage   =>
          have hmem : _ ∈ (t.put { d with stage := .pausing }).calls := mem
          rw [hput] at hmem
          rw [List.mem_singleton.1 hmem] at stage
          exact nomatch stage

/-- The sole call sends out an errand with a sync. -/
theorem sync_minds {data : Bytes} {errand : Nat} (htcalls : t.calls = [c]) (hcalls : s.calls = [c])
    (hbusy : c.stage ≠ .pausing) (hsteered : t.courier.Steered (some errand))
    (hsends : s.SendsSync t.courier c.entry errand)
    (hknows : ∀ snapshot xs, c.Knows s.settings.selection s.courier snapshot xs →
      ({ c with stage := .syncing data errand } : Call).Knows s.settings.selection t.courier snapshot
        (xs ++ x))
    (hlaw : c.route = .fast → ∀ snapshot xs, c.Knows s.settings.selection s.courier snapshot xs →
      c.Lawful s.settings.selection s.courier.pool.size snapshot (xs ++ x)
        (.fallback data errand)) :
    s.Minds x { state := t.put { c with stage := .syncing data errand } } := by
  have hput : (t.put { c with stage := .syncing data errand }).calls =
      [{ c with stage := .syncing data errand }] := calls_put htcalls rfl
  refine ⟨.of_one hput hsteered, fun d hd => ?_, fun d hd _ hfast r hr => ?_⟩
  · have hd' : d ∈ (t.put { c with stage := .syncing data errand }).calls := hd
    rw [hput] at hd'
    rw [List.mem_singleton.1 hd']
    exact .goesOn c (by rw [hcalls]; exact List.mem_singleton.2 rfl) rfl rfl hbusy hknows
  · rw [hcalls] at hd
    obtain rfl := List.mem_singleton.1 hd
    have hsame : ∀ d', d' ∈ (t.put { d with stage := .syncing data errand }).calls →
        d'.stage = .syncing data errand := by
      intro d' hd'
      rw [hput] at hd'
      rw [List.mem_singleton.1 hd']
    cases hr with
    | returns result      => exact nomatch result
    | fails _ result      => exact nomatch result
    | pauses mem _ stage  => exact nomatch stage.symm.trans (hsame _ mem)
    | sends _ mem _ stage =>
        obtain ⟨rfl, rfl⟩ := Call.Stage.syncing.inj (stage.symm.trans (hsame _ mem))
        refine ⟨hlaw hfast, fun data' errand' h => ?_⟩
        rw [← (Ruling.fallback.inj h).2]
        exact hsends

/-- The sole call's attempt has moved on: if nobody is waited for any more it is decided as its
    exchanges say. -/
theorem advance_minds (htcalls : t.calls = [c]) (hcalls : s.calls = [c])
    (hf : s.courier.Follows t.courier)
    (horder : t.courier.InOrder) {a b : Attempt} (hstage : c.stage = .attempting b)
    (hleader : a.leader = b.leader)
    (hrecords : ∀ selection size, a.records selection size = b.records selection size)
    (hsteered : t.courier.Steered (Call.Stage.attempting a).awaited?)
    (ha : ∀ snapshot xs, c.Knows s.settings.selection s.courier snapshot xs →
      ({ c with stage := .attempting a } : Call).Knows s.settings.selection t.courier snapshot
        (xs ++ x)) : s.Minds x (t.advance c a) := by
  have hbusy : c.stage ≠ .pausing := by rw [hstage]; exact nofun
  have hlawful : ∀ {snapshot xs r},
      FastRuling c.entry a.leader (a.records s.settings.selection t.courier.pool.size) snapshot xs r →
        c.Lawful s.settings.selection s.courier.pool.size snapshot xs r := by
    intro snapshot xs r hr
    rw [hleader, hrecords, hf.size] at hr
    exact (Call.lawful_attempting hstage).2 hr
  unfold advance
  split
  · rename_i answer hanswer hpending
    have hnobody : t.courier.Steered none := Call.Stage.awaited?_answered hanswer ▸ hsteered
    have hruling : c.route = .fast → ∀ snapshot xs,
        c.Knows s.settings.selection s.courier snapshot xs →
          c.Lawful s.settings.selection s.courier.pool.size snapshot (xs ++ x)
            ((a.decision t.courier.guess answer).ruling c.entry t.courier.fresh) := by
      -- the attempt knows all that was exchanged, and nobody is waited for
      intro hfast snapshot xs hknows
      obtain ⟨hsnapshot, hroute, htraces, hexact⟩ := ha snapshot xs hknows
      exact hlawful (hexact.ruling htraces (hroute.trans hfast) hanswer hpending hsnapshot _)
    cases hd : a.decision t.courier.guess answer with
    | commit data path =>
        rw [hd] at hruling
        refine finish_minds htcalls hcalls hnobody (fun out hout => ?_) fun _ h => nomatch h
        obtain rfl := Except.ok.inj hout
        exact hruling
    | fail error       =>
        rw [hd] at hruling
        exact conclude_minds htcalls hcalls hnobody error hruling
    | sync data        =>
        rw [hd] at hruling
        obtain ⟨reply, rfl, rfl⟩ := Attempt.decision_eq_sync hd
        have hlead := Courier.beginLead_setOut horder (.sync (some c.entry))
        refine sync_minds (t := { t with courier := (t.courier.beginLead _).2 }) htcalls hcalls
          hbusy (hnobody.beginLead (.sync (some c.entry))) ⟨hf.fresh, ?_⟩ ?knows hruling
        · exact ⟨_, List.mem_append_right _ (List.mem_singleton.2 rfl), rfl, rfl⟩
        case knows =>
          intro snapshot xs hknows
          obtain ⟨hsnapshot, _, htraces, hexact⟩ := ha snapshot xs hknows
          have hdecides := a.decides t.courier.guess reply
          rw [hd] at hdecides
          cases hdecides with
          | sync route stays unsynced missed =>
              have hws : a.witnesses s.settings.selection t.courier.pool.size =
                  s.settings.selection.witnesses
                    (t.courier.beginLead (.sync (some c.entry))).2.pool.size snapshot := by
                rw [hlead.follows.size, Attempt.witnesses, route, hsnapshot]
              refine ⟨⟨a.leader, ⟨⟨reply, ?_, unsynced, rfl⟩, fun hall => ?_⟩, fun p hp => ?_⟩,
                hlead.given, hlead.purpose, ?_⟩
              · rw [← hsnapshot]
                exact (hexact.answered _ hanswer _ _).2 ⟨stays.symm, rfl⟩
              · rw [← hws] at hall
                exact missed ((hexact.allRecorded_iff htraces hpending).1 hall)
              · rw [← hws] at hp
                refine Courier.Past.follows ⟨htraces.own_lt p hp, hexact.heard p hp ?_⟩ hlead.follows
                rw [hpending]
                exact List.not_mem_nil
              · -- the new errand has a number that nobody had who has made an exchange
                exact fun m q reply' htaken => absurd (hexact.given _ htaken.2) (Nat.lt_irrefl _)
  · exact put_minds { c with stage := .attempting a } htcalls hcalls rfl hsteered rfl
      (.goesOn c (by rw [hcalls]; exact List.mem_singleton.2 rfl) rfl rfl hbusy ha)

/-! ## Every input -/

/-- The members at which a call's next attempt records. -/
def selects (s : Session) (c : Call) : List Nat :=
  match c.route with
  | .fast       => s.settings.selection.witnesses s.courier.pool.size s.courier.guess
  | .leaderOnly => []

/-- A call's next attempt, when it begins: its errands have the next numbers. -/
def nextAttempt (s : Session) (c : Call) : Attempt where
  route    := c.route
  snapshot := s.courier.guess
  selected := (s.selects c).length
  leader   := s.courier.fresh
  pending  := List.range' (s.courier.fresh + 1) (s.selects c).length

/-- The courier once the errands of a call's next attempt were sent out. -/
def sendsOut (s : Session) (c : Call) : Courier :=
  ((s.courier.beginLead (.command c.entry)).2.beginRecords c.entry (s.selects c)).2

theorem startAttempt_eq (s : Session) (c : Call) :
    s.startAttempt c = { s with courier := s.sendsOut c }.put
      { c with attempts := c.attempts + 1, stage := .attempting (s.nextAttempt c) } := by
  have hpending : ((s.courier.beginLead (.command c.entry)).2.beginRecords c.entry (s.selects c)).1 =
      (s.nextAttempt c).pending := by
    rw [Courier.beginRecords_eq]
    rfl
  have hstart : s.startAttempt c = { s with courier := s.sendsOut c }.put
      { c with
        attempts := c.attempts + 1
        stage    := .attempting { s.nextAttempt c with pending := ((s.courier.beginLead
          (.command c.entry)).2.beginRecords c.entry (s.selects c)).1 } } := rfl
  rw [hstart, hpending]

/-- An attempt that begins knows all that was exchanged, since nothing was. -/
theorem knows_nextAttempt (horder : s.courier.InOrder) (c : Call) :
    ({ c with
      attempts := c.attempts + 1
      stage    := .attempting (s.nextAttempt c) } : Call).Knows s.settings.selection (s.sendsOut c)
        s.courier.guess [] := by
  have hlead := Courier.beginLead_setOut horder (.command c.entry)
  have hsent := Courier.beginRecords_sentOut hlead.order c.entry (s.selects c)
  have hpending : ((s.courier.beginLead (.command c.entry)).2.beginRecords c.entry (s.selects c)).1 =
      (s.nextAttempt c).pending := by
    rw [Courier.beginRecords_eq]
    rfl
  have hwitnesses : ∀ size, size = s.courier.pool.size →
      (s.nextAttempt c).witnesses s.settings.selection size = s.selects c := by
    rintro size rfl
    rfl
  have hrecords : (s.nextAttempt c).records s.settings.selection (s.sendsOut c).pool.size =
      (s.nextAttempt c).pending.zip (s.selects c) := by
    have hsize : (s.sendsOut c).pool.size = s.courier.pool.size :=
      (hlead.follows.trans hsent.follows).size
    rw [Attempt.records, hwitnesses _ hsize]
    rfl
  refine ⟨rfl, rfl, ?_, ?_⟩
  · rw [hrecords]
    exact Attempt.traces_begun horder s.settings.selection c.entry _ hwitnesses rfl rfl rfl rfl
      hpending.symm []
  · refine Attempt.exact_begun rfl rfl (List.nodup_range' ..) (fun p hp => ?_) ?_
    · rw [hrecords] at hp
      exact (List.of_mem_zip hp).1
    · exact List.length_range'.symm

/-- A call begins an attempt. -/
theorem startAttempt_minds (htcalls : t.calls = [c])
    (hpaused : ∀ d ∈ s.calls, d.stage = .pausing ∧ (d.id = c.id → d.attempts ≤ c.attempts))
    (hset : t.settings = s.settings) (horder : t.courier.InOrder)
    (hguess : t.courier.guess = s.courier.guess) (hsteered : t.courier.Steered none) :
    s.Minds [] { state := t.startAttempt c } := by
  have hput : (t.startAttempt c).calls = [{ c with
      attempts := c.attempts + 1
      stage    := .attempting (t.nextAttempt c) }] := by
    rw [startAttempt_eq]
    exact calls_put htcalls rfl
  have hcourier : (t.startAttempt c).courier = t.sendsOut c := by
    rw [startAttempt_eq]
    rfl
  refine ⟨.of_one hput ?steered, fun d hd => ?learns, fun d hd hbusy =>
    absurd (hpaused d hd).1 hbusy⟩
  case steered =>
    rw [hcourier]
    exact (hsteered.beginLead (.command c.entry)).beginRecords c.entry _
  case learns  =>
    have hd' : d ∈ (t.startAttempt c).calls := hd
    rw [hput] at hd'
    rw [List.mem_singleton.1 hd']
    refine .begins (fun d' hd'' hid => Nat.lt_succ_of_le ((hpaused d' hd'').2 hid)) ?_
    rw [← hset, ← hguess]
    show Call.Knows _ _ (t.startAttempt c).courier _ _
    rw [hcourier]
    exact knows_nextAttempt horder c

/-- A call makes its next attempt, unless the session is closed. -/
theorem goRound_minds (htcalls : t.calls = [c])
    (hpaused : ∀ d ∈ s.calls, d.stage = .pausing ∧ (d.id = c.id → d.attempts ≤ c.attempts))
    (hset : t.settings = s.settings) (horder : t.courier.InOrder)
    (hguess : t.courier.guess = s.courier.guess) (hsteered : t.courier.Steered none) :
    s.Minds [] (t.goRound c) := by
  unfold goRound
  split
  · refine ⟨.of_none (calls_finish htcalls _) hsteered, fun d hd => ?_, fun d hd hbusy =>
      absurd (hpaused d hd).1 hbusy⟩
    rw [calls_finish htcalls] at hd
    exact nomatch hd
  · exact startAttempt_minds htcalls hpaused hset horder hguess hsteered

/-- Whoever makes an exchange is under way. -/
theorem exchange?_errand (s : Session) (input : Input) :
    ∀ y ∈ (s.exchange? input).toList, ∃ e ∈ s.courier.errands, e.id = y.errand := by
  intro y hy
  obtain ⟨_, _, e, hfind, _⟩ := mem_exchange?_iff.1 hy
  exact ⟨e, List.mem_of_find?_eq_some hfind, by simpa using List.find?_some hfind⟩

/-- The leader's answer, or what came of a sync, is told to the sole call, which waits for it. -/
theorem led_minds (hcalls : s.calls = [c]) {i : Nat} (hawaited : c.stage.awaited? = some i)
    {e : Errand} (he : e ∈ s.courier.errands) (hid : e.id = i) {request : Request}
    (hp : e.aim.purpose = .lead request) (hf : s.courier.Follows courier) (horder : courier.InOrder)
    (hnew : ∀ y ∈ x, y.errand < s.courier.fresh) (hsteered : courier.Steered none)
    (hgone : ∀ e ∈ courier.errands, e.id ≠ i) {answer : Except SessionError Reply}
    (exact : ∀ j m q reply, Taken x j m q reply ↔
      j = i ∧ m = courier.guess ∧ q = request ∧ answer = .ok reply) :
    s.Minds x ({ s with courier }.led c i answer) := by
  have hothers : ∀ j, j ≠ i → Silent x j := fun j hj m q reply htaken =>
    hj ((exact j m q reply).1 htaken).1
  unfold led
  cases hstage : c.stage with
  | pausing             => rw [hstage] at hawaited; exact nomatch hawaited
  | attempting a        =>
      rw [hstage] at hawaited
      obtain ⟨hnone, hleader⟩ := Call.Stage.awaited?_attempting.1 hawaited
      dsimp only
      rw [if_pos hleader]
      refine advance_minds (t := { s with courier }) (b := a) hcalls hcalls hf horder hstage rfl
        (fun _ _ => rfl) hsteered ?_
      intro snapshot xs hknows
      obtain ⟨hsnapshot, hroute, htraces, hexact⟩ := (Call.knows_attempting hstage).1 hknows
      obtain rfl : request = .command c.entry := Errand.Purpose.lead.inj
        (hp.symm.trans (htraces.leading e he (hid.trans hleader.symm)))
      have hanswer : ∀ m reply, Taken x a.leader m (.command c.entry) reply ↔
          m = courier.guess ∧ answer = .ok reply := by
        intro m reply
        rw [exact, and_iff_right hleader]
        simp only [true_and]
      refine ⟨hsnapshot, hroute, ?traces, ?exact⟩
      case traces =>
        rw [hf.size]
        refine (htraces.follows hf x).answer fun reply hreply => ⟨courier.guess, ?_⟩
        exact Taken.append_iff.2 (Or.inr ((hanswer _ _).2 ⟨rfl, hreply⟩))
      case exact  =>
        rw [hf.size]
        exact hexact.answer htraces hf hnew hnone (fun p hq => a.leader_lt_of_records hq)
          (fun e' he' => hleader ▸ hgone e' he') (fun j hj => hothers j (hleader ▸ hj)) hanswer
  | syncing data errand =>
      rw [hstage] at hawaited
      obtain rfl := Option.some.inj hawaited
      dsimp only
      rw [if_pos rfl]
      have htaken : ∀ snapshot xs, c.Knows s.settings.selection s.courier snapshot xs →
          (∃ leader, Resorts c.entry leader snapshot
            (s.settings.selection.witnesses s.courier.pool.size snapshot) data (xs ++ x)) ∧
          ∀ m reply, Taken (xs ++ x) errand m (.sync (some c.entry)) reply ↔
            m = courier.guess ∧ answer = .ok reply := by
        intro snapshot xs hknows
        obtain ⟨⟨leader, hresorts, hpast⟩, _, hpurpose, hsilent⟩ :=
          (Call.knows_syncing hstage).1 hknows
        obtain rfl : request = .sync (some c.entry) :=
          Errand.Purpose.lead.inj (hp.symm.trans (hpurpose e he hid))
        refine ⟨⟨leader, hresorts.append fun p hq => hothers p.1 fun hsame => ?_⟩,
          fun m reply => ?_⟩
        · -- the errands to the witnesses are done, and this one is not
          exact (hpast p hq).2 e he (hid.trans hsame.symm)
        rw [Taken.append_iff, or_iff_right (hsilent m _ reply), exact]
        simp only [true_and]
      cases answer with
      | ok reply    =>
          refine finish_minds (t := { s with courier }) hcalls hcalls hsteered
            (fun out hout _ snapshot xs hknows => ?_) fun _ h => nomatch h
          obtain rfl := Except.ok.inj hout
          obtain ⟨hanswered, hsync⟩ := htaken snapshot xs hknows
          refine (Call.lawful_syncing hstage).2 ⟨hanswered, fun out => ?_, nofun, ?_⟩
          · simp only [Ruling.success.injEq, hsync, Except.ok.injEq]
            exact ⟨fun h => ⟨h.symm, _, reply, rfl, rfl⟩, fun h => h.1.symm⟩
          · exact ⟨nofun, fun h => absurd ((hsync _ reply).2 ⟨rfl, rfl⟩) (h _ reply)⟩
      | error error =>
          refine conclude_minds (t := { s with courier }) hcalls hcalls hsteered error
            fun _ snapshot xs hknows => ?_
          obtain ⟨hanswered, hsync⟩ := htaken snapshot xs hknows
          have hno : ∀ m reply, ¬ Taken (xs ++ x) errand m (.sync (some c.entry)) reply :=
            fun m reply h => nomatch ((hsync m reply).1 h).2
          refine (Call.lawful_syncing hstage).2
            ⟨hanswered, fun out => ⟨nofun, ?_⟩, nofun, fun _ => hno, fun _ => rfl⟩
          rintro ⟨_, m, reply, h⟩
          exact absurd h (hno m reply)

/-- An errand that has come to something is not under way any more. -/
theorem gone_of_results (ho : s.InOrder) {i : Nat} {sig : Signal}
    (h : (s.courier.step i sig).results ≠ []) :
    ∀ e ∈ (s.courier.step i sig).state.errands, e.id ≠ i := by
  intro e' he' hid
  rcases Courier.step_advances ho.courier.placed i sig with ⟨_, hidle⟩ | ⟨e, _, rfl, hadv⟩
  · rw [hidle] at h
    exact h rfl
  · cases hadv.turns with
    | rests _ results         => exact h results
    | moves _ _ _ _ _ results => exact h results
    | ends _ _ errands _      =>
        rw [errands] at he'
        simpa [hid] using (List.mem_filter.1 he').2

/-- What an errand comes to is handed on. -/
theorem absorb_of_singleton {p : Courier.Step} {i : Nat} {outcome : Errand.Outcome}
    (h : p.results = [(i, outcome)]) :
    (s.absorb p).state = (deliver { s with courier := p.state } i outcome).state ∧
      (s.absorb p).results = (deliver { s with courier := p.state } i outcome).results :=
  Progress.feed_of_singleton h

/-- What came of a record is told to the sole call, which waits for it. -/
theorem recorded_minds (hs : s.Sole) (hcalls : s.calls = [c]) {i : Nat} (hawaits : awaits c i = true)
    {e : Errand} (he : e ∈ s.courier.errands) (hid : e.id = i) {w : Nat} {entry : LogEntry}
    (hp : e.aim.purpose = .record w entry) (hf : s.courier.Follows courier)
    (hnew : ∀ y ∈ x, y.errand < s.courier.fresh) (hguess : courier.guess = s.courier.guess)
    (hsteered : ∀ lead, s.courier.Steered lead → courier.Steered lead)
    (hgone : ∀ e ∈ courier.errands, e.id ≠ i) {ok : Bool} (others : ∀ j, j ≠ i → Silent x j)
    (took : ok = true ↔ RecordedBy x i w entry) :
    s.Minds x ({ s with courier }.recorded c i ok) := by
  have hc : c ∈ s.calls := by rw [hcalls]; exact List.mem_singleton.2 rfl
  unfold recorded
  split
  · rename_i a hstage
    have hled := hsteered _ (hs.led c hc)
    refine put_minds (t := { s with courier }) { c with stage := .attempting (a.hear i ok) } hcalls
      hcalls rfl (by rw [hstage] at hled; exact hled) rfl (.goesOn c hc rfl rfl
        (by rw [hstage]; exact nofun) ?_)
    intro snapshot xs hknows
    obtain ⟨hsnapshot, hroute, htraces, hexact⟩ := (Call.knows_attempting hstage).1 hknows
    have hleader : a.leader ≠ i := by
      -- the errand to the leader makes no record
      intro heq
      have hlead := htraces.leading e he (hid.trans heq.symm)
      rw [hp] at hlead
      exact nomatch hlead
    have hi : i ∈ a.pending := ((awaits_attempting hstage).1 hawaits).resolve_left hleader
    obtain ⟨w', hw'⟩ := htraces.pending i hi
    have hsame : ∀ w', (i, w') ∈ a.records s.settings.selection s.courier.pool.size →
        w = w' ∧ entry = c.entry := fun w' hw =>
      Errand.Purpose.record.inj (hp.symm.trans (htraces.recording (i, w') hw e he hid))
    refine ⟨hsnapshot, hroute, ?traces, ?exact⟩
    case traces =>
      rw [hf.size]
      refine (htraces.follows hf x).hear hi fun hok w₁ hw₁ => ?_
      obtain ⟨rfl, rfl⟩ := hsame w₁ hw₁
      exact RecordedBy.append_iff.2 (Or.inr (took.1 hok))
    case exact  =>
      rw [hf.size]
      obtain ⟨rfl, rfl⟩ := hsame w' hw'
      exact hexact.hear htraces hf hnew hguess hi hw' hleader hgone others took
  · rename_i hstage
    refine still_minds hs rfl rfl hsteered fun d hd _ snapshot xs hknows => ?_
    rw [hcalls] at hd
    obtain rfl := List.mem_singleton.1 hd
    cases hd : d.stage with
    | attempting a        => exact absurd hd (hstage a)
    | pausing             => exact nomatch (awaits_pausing hd).symm.trans hawaits
    | syncing data errand =>
        -- the errand with a sync makes no record
        have hsync := ((Call.knows_syncing hd).1 hknows).2.2.1 e he
          (hid.trans ((awaits_syncing hd).1 hawaits).symm)
        rw [hp] at hsync
        exact nomatch hsync

/-- An errand is told something: what it tells is handed on to the call that waits for it. -/
theorem absorb_minds (hs : s.Sole) (ho : s.InOrder) {i : Nat} (hcall : s.call? i = none)
    (sig : Signal) :
    s.Minds (s.exchange? (.signal i sig)).toList (s.absorb (s.courier.step i sig)) := by
  obtain ⟨hfollows, horder, _⟩ := errand_reports ho hcall sig
  have hnew : ∀ y ∈ (s.exchange? (.signal i sig)).toList, y.errand < s.courier.fresh := by
    intro y hy
    obtain ⟨e, he, hid⟩ := s.exchange?_errand _ y hy
    exact hid ▸ ho.courier.numbered e he
  have hnobody : ∀ j, (∀ e ∈ s.courier.errands, e.id ≠ j) →
      Silent (s.exchange? (.signal i sig)).toList j := by
    intro j hj m q reply htaken
    obtain ⟨e, he, hid⟩ := s.exchange?_errand _ _ htaken.2
    exact hj e he hid
  cases hfind : s.courier.find? i with
  | none   =>
      have hstep : s.courier.step i sig = { state := s.courier } := by
        unfold Courier.step
        rw [hfind]
      have hnone : (s.exchange? (.signal i sig)).toList = [] := by
        refine List.eq_nil_iff_forall_not_mem.2 fun y hy => ?_
        obtain ⟨hx, _, e, hsome, _⟩ := mem_exchange?_iff.1 hy
        rw [(Input.signal.inj hx).1] at hfind
        exact nomatch hfind.symm.trans hsome
      rw [hstep, hnone]
      unfold absorb
      rw [Progress.feed_of_nil rfl]
      refine still_minds hs rfl rfl (fun _ h => h) fun c hc _ snapshot xs hknows => ?_
      exact hknows.follows (.refl _) (fun _ hy => nomatch hy) (fun _ => rfl)
        (fun j _ => silent_nil j) fun j _ => silent_nil j
  | some e =>
      have he : e ∈ s.courier.errands := List.mem_of_find?_eq_some hfind
      have hid : e.id = i := by simpa using List.find?_some hfind
      obtain ⟨lead, hsteered, hlead, hunled⟩ : ∃ lead, s.courier.Steered lead ∧
          (∀ c, s.calls = [c] → lead = c.stage.awaited?) ∧ (s.calls = [] → lead = none) := by
        cases hcalls : s.calls with
        | nil           => exact ⟨none, hs.unled hcalls, (fun _ h => nomatch h), fun _ => rfl⟩
        | cons c others =>
            have hc : c ∈ s.calls := by rw [hcalls]; exact List.mem_cons_self ..
            refine ⟨c.stage.awaited?, hs.led c hc, fun d hd => ?_, fun h => nomatch h⟩
            rw [(List.cons.inj hd).1]
      have hof := hsteered.ofCall e he
      have htells := step_tells ho hsteered hcall hfind sig
      have hcond : ∀ lead, s.courier.Steered lead → s.courier.Conducted e lead
          (s.courier.step i sig) := fun lead h =>
        Courier.goes_conducted h he (Courier.step_goes hfind hof sig)
      have hgone : (s.courier.step i sig).results ≠ [] → _ := gone_of_results ho
      generalize s.courier.step i sig = p at *
      generalize (s.exchange? (.signal i sig)).toList = x at *
      subst hid
      have hstill : (∀ c ∈ s.calls, ∀ j, awaits c j = true → Silent x j) → ∀ ds,
          s.Minds x { state := { s with courier := p.state }, demands := ds } := by
        intro hsilent ds
        refine still_minds hs rfl rfl (fun lead h => (hcond lead h).steered)
          fun c hc _ snapshot xs hknows => ?_
        refine hknows.follows hfollows hnew (fun hnone => ?_) hnobody (hsilent c hc)
        rcases hof with hleads | hnotes
        · -- the call does not wait for an errand to the leader, so this one is none
          have h := hsteered.sole e he hleads
          rw [hlead c (hs.calls_eq hc), hnone] at h
          exact nomatch h
        · exact (hcond lead hsteered).noted hnotes
      generalize hresults : p.results = results at htells
      cases htells with
      | nothing silent                      =>
          unfold absorb
          rw [Progress.feed_of_nil hresults]
          exact hstill (fun _ _ j _ => silent j) _
      | @led request answer hp exact        =>
          have hleads : e.Leads := ⟨request, hp⟩
          have hsole := hsteered.sole e he hleads
          obtain ⟨c, hc⟩ : ∃ c, s.calls = [c] := by
            refine List.length_eq_one_iff.1 (Nat.le_antisymm hs.one ?_)
            refine List.length_pos_iff.2 fun hnil => ?_
            rw [hunled hnil] at hsole
            exact nomatch hsole
          have hawaited := (hlead c hc).symm.trans hsole
          have hended : p.results ≠ [] := by rw [hresults]; exact nofun
          obtain ⟨hstate, hres⟩ := s.absorb_of_singleton hresults
          rw [deliver_led (s := { s with courier := p.state })
            (find?_awaits hc (awaits_of_awaited hawaited))] at hstate hres
          refine Minds.of_demands (led_minds hc hawaited he rfl hp hfollows horder hnew
            ((hcond lead hsteered).ended hleads hended) (hgone hended) ?_) hstate hres
          -- the belief has not changed if the member took the request
          intro j m q reply
          rw [exact]
          refine and_congr_right fun _ => and_congr_left fun hreply => ?_
          rw [(hcond lead hsteered).taken reply (by rw [hresults, hreply.2])]
      | @recorded w entry ok hp others took =>
          have hended : p.results ≠ [] := by rw [hresults]; exact nofun
          have hguess := (hcond lead hsteered).noted ⟨w, entry, hp⟩
          obtain ⟨hstate, hres⟩ := s.absorb_of_singleton hresults
          refine Minds.of_demands ?_ hstate hres
          cases hwho : s.calls.find? fun c => awaits c e.id with
          | none   =>
              rw [deliver_unawaited (s := { s with courier := p.state }) hwho]
              refine hstill (fun c hc j hj => others j fun hsame => ?_) []
              exact List.find?_eq_none.1 hwho c hc (hsame ▸ hj)
          | some c =>
              rw [deliver_recorded (s := { s with courier := p.state }) hwho]
              have hawaits : awaits c e.id = true := by simpa using List.find?_some hwho
              exact recorded_minds hs (hs.calls_eq (List.mem_of_find?_eq_some hwho)) hawaits he rfl hp
                hfollows hnew hguess (fun lead h => (hcond lead h).steered) (hgone hended) others took

/-- What may happen to a session that stays open and is used by one call at a time. -/
def Allows (s : Session) : Input → Prop
  | .invoke _ _ _ _ => s.calls = []
  | .close          => False
  | .signal _ _     => True

/-- The courier once the errand to the leader that a call waits for was called off. -/
def callsOff (s : Session) (c : Call) : Courier :=
  match c.stage.errand? with
  | some errand => s.courier.abandon errand
  | none        => s.courier

/-- Nobody looks for the leader then. -/
theorem steered_callsOff (h : s.courier.Steered c.stage.awaited?) : (s.callsOff c).Steered none := by
  rw [callsOff]
  cases hstage : c.stage with
  | pausing             =>
      rw [hstage] at h
      exact h
  | syncing data errand =>
      rw [hstage] at h
      exact Courier.Steered.abandon_lead h
  | attempting a        =>
      cases hanswer : a.answer with
      | none   =>
          rw [hstage, Call.Stage.awaited?_attempting.2 ⟨hanswer, rfl⟩] at h
          exact h.abandon_lead
      | some _ =>
          rw [hstage, Call.Stage.awaited?_answered hanswer] at h
          exact h.abandon a.leader

/-- What happens to a call is no exchange. -/
theorem exchange?_of_call {id : Nat} (hcall : s.call? id = some c) (sig : Signal) :
    s.exchange? (.signal id sig) = none := by
  cases sig <;> simp [exchange?, awaited?, hcall]

/-- What a call is told that goes on by itself. -/
theorem step_call_minds (hs : s.Sole) (ho : s.InOrder) {id : Nat} (hcall : s.call? id = some c)
    (sig : Signal) : s.Minds [] (s.step id sig) := by
  have hc : c ∈ s.calls := List.mem_of_find?_eq_some hcall
  have hcalls := hs.calls_eq hc
  have hled := hs.led c hc
  unfold step
  rw [hcall]
  dsimp only
  split
  · rename_i a hstage
    refine advance_minds hcalls hcalls (.refl _) ho.courier hstage rfl (fun _ _ => rfl)
      (by rw [← hstage]; exact hled) fun snapshot xs hknows => ?_
    rw [List.append_nil, ← hstage]
    exact hknows
  · rename_i hstage
    refine goRound_minds hcalls (fun d hd => ?_) rfl ho.courier rfl
      (by rw [hstage] at hled; exact hled)
    rw [hcalls] at hd
    rw [List.mem_singleton.1 hd]
    exact ⟨hstage, fun _ => Nat.le_refl _⟩
  · refine finish_minds (t := { s with courier := s.callsOff c }) hcalls hcalls
      (steered_callsOff hled) (fun _ h => nomatch h) fun error herror inTime => ?_
    exact absurd (Except.error.inj herror).symm (inTime _)
  · refine still_minds hs rfl rfl (fun _ h => h) fun d hd _ snapshot xs hknows => ?_
    rw [List.append_nil]
    exact hknows

/-- A user begins the sole call. -/
theorem invoke_minds (hs : s.Sole) (ho : s.InOrder) (hnil : s.calls = []) (data : Bytes)
    (keys : List Key) (route : Route) (seq : Option SeqNo) :
    s.Minds [] (s.invoke data keys route seq).2 := by
  have hgo : ∀ (identity : Identity) (entry : LogEntry), s.Minds []
      (goRound { s with
          identity
          courier := s.courier.takeNumber.2
          calls   := s.calls ++ [{ id := s.courier.fresh, entry, route }] }
        { id := s.courier.fresh, entry, route }) := by
    intro identity entry
    refine goRound_minds (by rw [hnil]; rfl) (fun d hd => ?_) rfl ho.courier.takeNumber rfl
      ((hs.unled hnil).of_errands rfl rfl)
    rw [hnil] at hd
    exact nomatch hd
  unfold invoke
  cases seq with
  | none   =>
      dsimp only
      split
      · exact (hgo _ _).of_demands rfl rfl
      · exact hgo _ _
  | some n =>
      dsimp only
      split
      · exact (hgo _ _).of_demands rfl rfl
      · exact hgo _ _

/-- **What an input does to a sole call**: it goes on knowing all that was exchanged, and its attempt
    is decided as the exchanges say. -/
theorem react_minds (hs : s.Sole) (ho : s.InOrder) {input : Input} (ha : s.Allows input) :
    s.Minds (s.exchange? input).toList (s.react input) := by
  cases input with
  | invoke data keys route seq => exact invoke_minds hs ho ha data keys route seq
  | close                      => exact ha.elim
  | signal id sig              =>
      show s.Minds _ (s.step id sig)
      cases hcall : s.call? id with
      | some c =>
          rw [exchange?_of_call hcall]
          exact step_call_minds hs ho hcall sig
      | none   =>
          rw [step]
          rw [hcall]
          exact absorb_minds hs ho hcall sig

/-! ## Every run -/

/-- A session stays open and is used by one call at a time: nobody closes it, and a call is begun
    only when no other one is under way. -/
def OneAtATime (s : Session) : List Input → Prop
  | []        => True
  | x :: rest => s.Allows x ∧ (s.react x).state.OneAtATime rest

theorem oneAtATime_append {s : Session} {inputs more : List Input} :
    s.OneAtATime (inputs ++ more) ↔ s.OneAtATime inputs ∧ (s.run inputs).OneAtATime more := by
  induction inputs generalizing s with
  | nil          => simp [OneAtATime, run]
  | cons x rest ih =>
      show s.Allows x ∧ (s.react x).state.OneAtATime (rest ++ more) ↔ (_ ∧ _) ∧ _
      rw [ih, and_assoc]
      rfl

/-- Nobody closes such a session. -/
theorem OneAtATime.unclosed {s : Session} {inputs : List Input} (h : s.OneAtATime inputs) :
    ∀ x ∈ inputs, x ≠ .close := by
  induction inputs generalizing s with
  | nil          => exact fun _ hx => absurd hx List.not_mem_nil
  | cons y _ ih =>
      intro x hx hclose
      rcases List.mem_cons.1 hx with rfl | hx
      · rw [hclose] at h
        exact h.1
      · exact ih h.2 x hx hclose

theorem Fresh.sole (h : s.Fresh) : s.Sole := by
  refine .of_none h.calls ⟨?_, ?_, ?_⟩ <;> (rw [h.errands]; exact fun _ he => nomatch he)

/-- **What a sole call knows**: in every such run, all that was exchanged since its last attempt
    began. -/
theorem run_knows {s₀ : Session} (hs : s₀.Sole) (ho : s₀.InOrder) (hnil : s₀.calls = [])
    {inputs : List Input} (hopen : s₀.OneAtATime inputs) :
    (s₀.run inputs).Sole ∧ ∀ c ∈ (s₀.run inputs).calls, c.stage = .pausing ∨
      ∃ begun window, s₀.LastAttempt inputs c.id c.attempts begun window ∧
        c.Knows s₀.settings.selection (s₀.run inputs).courier (s₀.run begun).courier.guess
          ((s₀.run begun).exchanges window) := by
  induction inputs using List.reverseRecOn with
  | nil                       =>
      refine ⟨hs, fun c hc => ?_⟩
      have hc' : c ∈ s₀.calls := hc
      rw [hnil] at hc'
      exact nomatch hc'
  | append_singleton inputs x ih =>
      obtain ⟨hbefore, hallows, _⟩ := oneAtATime_append.1 hopen
      obtain ⟨hsole, hcalls⟩ := ih hbefore
      obtain ⟨horder, hsettings, _⟩ := run_follows ho inputs
      have hminds := react_minds hsole horder hallows
      have hrun : s₀.run (inputs ++ [x]) = ((s₀.run inputs).react x).state := run_append ..
      rw [hrun]
      refine ⟨hminds.sole, fun c' hc' => ?_⟩
      cases hminds.calls c' hc' with
      | pauses stage                           => exact Or.inl stage
      | begins anew knows                      =>
          refine Or.inr ⟨inputs, [x], .begins hc' anew, ?_⟩
          rw [← hsettings]
          show c'.Knows _ _ _ (((s₀.run inputs).exchange? x).toList ++ [])
          rw [List.append_nil]
          exact knows
      | goesOn c hc hid hattempts busy knows   =>
          rcases hcalls c hc with hpausing | ⟨begun, window, hlast, hknows⟩
          · exact absurd hpausing busy
          · rw [← hid, ← hattempts]
            refine Or.inr ⟨begun, window ++ [x], hlast.goesOn x, ?_⟩
            rw [hlast.exchanges, ← hsettings]
            rw [← hsettings] at hknows
            exact knows _ _ hknows

end Session

end WitnessReplication

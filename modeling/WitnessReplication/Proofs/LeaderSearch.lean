import Mathlib
import WitnessReplication.Proofs.CourierRuns
import WitnessReplication.Proofs.SteadyCourier

/-!
# Leader searches — the tries of an errand that looks for the leader

    An errand that looks for the leader makes one try after the other, at most one for every member
    there is.  A try is made at whoever is believed to lead, and what comes of it decides who is
    believed to lead next: so the belief drives the errand, and the errand the belief.  Any number
    of other errands may be under way meanwhile, the session may be closed, the errand may be called
    off, and the members may say whatever they like, also with regard to all that went before.

    The tries of an errand are read off a run: a try is over where the errand is told what its
    exchange came to, or that there is no connection, or where the pool does not let it line up.
    The errand is followed by what a step of it can come to (`Seeks`), and what it has come to after
    a run is put together event by event (`Status`).

* **`Try`** and **`Courier.tries`** — a try that is over; those of an errand, in order.
* **`step_seeks`** — what one step comes to for an errand that looks for the leader.
* **`search_run`** — how its search stands after any run, and what is true of its tries.
* **`Courier.Searches`** — the contract of a search, and **`lead_searches`**, that it is kept.
-/

namespace WitnessReplication

-- ── Tries ────────────────────────────────────────────────────────────────────────────────────────

/-- A try that is over: the member at which it was made, what came of it, and who is believed to
    lead afterwards. -/
structure Try where
  member  : Nat
  outcome : Except TransportError Reply
  left    : Nat
  deriving DecidableEq

namespace Try

/-- The member took the request and replied this. -/
def Took (t : Try) (reply : Reply) : Prop := t.outcome = .ok reply ∧ reply.accepted = true

/-- What came back was no reply. -/
def Garbled (t : Try) (error : TransportError) : Prop :=
  t.outcome = .error error ∧ error.kind = .malformed

/-- The member refused, or could not be reached, or did not reply. -/
def Missed (t : Try) : Prop :=
  (∃ reply, t.outcome = .ok reply ∧ reply.accepted = false) ∨
    ∃ error, t.outcome = .error error ∧ error.kind ≠ .malformed

/-- The try ends a search, with this answer. -/
def Answers (t : Try) (answer : Except SessionError Reply) : Prop :=
  (∃ reply, t.Took reply ∧ answer = .ok reply) ∨
    ∃ error, t.Garbled error ∧ answer = .error (.malformedResponse error.text)

/-- Whether the member refused and named nobody. -/
def unhinted (t : Try) : Bool :=
  match t.outcome with
  | .ok reply => !reply.accepted && reply.hint.isNone
  | .error _  => false

/-- A try comes to one thing only. -/
theorem Missed.not_took {t : Try} (h : t.Missed) (reply : Reply) : ¬ t.Took reply := by
  rintro ⟨hok, htaken⟩
  rcases h with ⟨reply', hok', hrefused⟩ | ⟨error, herror, _⟩
  · obtain rfl := Except.ok.inj (hok.symm.trans hok')
    rw [htaken] at hrefused
    exact nomatch hrefused
  · exact nomatch hok.symm.trans herror

theorem Missed.not_garbled {t : Try} (h : t.Missed) (error : TransportError) :
    ¬ t.Garbled error := by
  rintro ⟨herror, hkind⟩
  rcases h with ⟨reply, hok, _⟩ | ⟨error', herror', hfine⟩
  · exact nomatch hok.symm.trans herror
  · obtain rfl := Except.error.inj (herror.symm.trans herror')
    exact hfine hkind

theorem Missed.not_answers {t : Try} (h : t.Missed) (answer : Except SessionError Reply) :
    ¬ t.Answers answer := by
  rintro (⟨reply, htook, _⟩ | ⟨error, hgarbled, _⟩)
  · exact h.not_took reply htook
  · exact h.not_garbled error hgarbled

theorem Answers.inj {t : Try} {answer answer' : Except SessionError Reply} (h : t.Answers answer)
    (h' : t.Answers answer') : answer = answer' := by
  rcases h with ⟨reply, ⟨hok, _⟩, rfl⟩ | ⟨error, ⟨herror, _⟩, rfl⟩
  · rcases h' with ⟨reply', ⟨hok', _⟩, rfl⟩ | ⟨error', ⟨herror', _⟩, rfl⟩
    · rw [Except.ok.inj (hok.symm.trans hok')]
    · exact nomatch hok.symm.trans herror'
  · rcases h' with ⟨reply', ⟨hok', _⟩, rfl⟩ | ⟨error', ⟨herror', _⟩, rfl⟩
    · exact nomatch herror.symm.trans hok'
    · rw [Except.error.inj (herror.symm.trans herror')]

/-- A member that ends a search has not refused. -/
theorem Answers.hinted {t : Try} {answer : Except SessionError Reply} (h : t.Answers answer) :
    t.unhinted = false := by
  rcases h with ⟨reply, htook, _⟩ | ⟨error, hgarbled, _⟩
  · simp [unhinted, htook.1, htook.2]
  · simp [unhinted, hgarbled.1]

theorem answers_ok {t : Try} {reply : Reply} : t.Answers (.ok reply) ↔ t.Took reply := by
  constructor
  · rintro (⟨reply', htook, heq⟩ | ⟨_, _, heq⟩)
    · rwa [Except.ok.inj heq]
    · exact nomatch heq
  · exact fun h => Or.inl ⟨reply, h, rfl⟩

theorem answers_malformed {t : Try} {text : String} :
    t.Answers (.error (.malformedResponse text)) ↔
      ∃ error, t.Garbled error ∧ error.text = text := by
  constructor
  · rintro (⟨_, _, heq⟩ | ⟨error, hgarbled, heq⟩)
    · exact nomatch heq
    · exact ⟨error, hgarbled, (SessionError.malformedResponse.inj (Except.error.inj heq)).symm⟩
  · rintro ⟨error, hgarbled, rfl⟩
    exact Or.inr ⟨error, hgarbled, rfl⟩

end Try

namespace Locator

/-- Who is believed to lead after a try at a member. -/
def after (p : Pool) (member : Nat) (outcome : Except TransportError Reply) : Nat :=
  match verdict p member outcome with
  | .retarget next => next
  | _              => member

/-- Only the members matter. -/
theorem verdict_of_members {p q : Pool} (h : p.members = q.members) (member : Nat)
    (outcome : Except TransportError Reply) :
    verdict p member outcome = verdict q member outcome := by
  have hindex : ∀ (r : Pool) (a : Address), r.indexOf? a = r.members.findIdx? (· = a) := by
    intro r a
    rw [Pool.indexOf?, Pool.members, List.findIdx?_map]
    rfl
  have hnext : next p member = next q member := by rw [next, next, Pool.size_of_members h]
  simp only [verdict, hindex, h, hnext]

theorem after_of_members {p q : Pool} (h : p.members = q.members) (member : Nat)
    (outcome : Except TransportError Reply) : after p member outcome = after q member outcome := by
  rw [after, after, verdict_of_members h]

end Locator

/-- How long an errand asks to pause, if that is what is demanded. -/
def Demand.pause? (id : Nat) : Demand Nat → Option Nat
  | .pause who span => if who = id then some span else none
  | _               => none

namespace Progress

variable {α ρ : Type}

/-- The pauses that a step demands for an activity. -/
def pausesOf (p : Progress α Nat ρ) (id : Nat) : List Nat := p.demands.filterMap (Demand.pause? id)

/-- What a step comes to for an activity. -/
def outcomesOf (p : Progress α Nat ρ) (id : Nat) : List ρ :=
  p.results.filterMap fun r => if r.1 = id then some r.2 else none

theorem pausesOf_eq_nil {p : Progress α Nat ρ} {id : Nat} (h : ∀ d ∈ p.demands, d.who ≠ id) :
    p.pausesOf id = [] := by
  refine List.filterMap_eq_nil_iff.2 fun d hd => ?_
  cases d with
  | pause who span => exact if_neg (h _ hd)
  | _              => rfl

theorem outcomesOf_eq_nil {p : Progress α Nat ρ} {id : Nat} (h : ∀ r ∈ p.results, r.1 ≠ id) :
    p.outcomesOf id = [] :=
  List.filterMap_eq_nil_iff.2 fun r hr => if_neg (h r hr)

end Progress

namespace Courier

/-- How a try ends for an errand that is told something, if it does: at which member, and with what.
    It ends with the member's answer, with a connection that cannot be had, or with a pool that lets
    nobody line up. -/
def ended? (c : Courier) (e : Errand) : Signal → Option (Nat × Except TransportError Reply)
  | .answered outcome         =>
      match e.stage with
      | .exchanging m => some (m, outcome)
      | _             => none
  | .connected (.error error) =>
      match e.stage with
      | .connecting m => some (m, .error error)
      | _             => none
  | .proceed                  =>
      if c.setsOff e ∧ e.aim.tries ≠ 0 then
        match c.pool.enroll c.guess e.id with
        | .error error => some (c.guess, .error error)
        | .ok _        => none
      else none
  | _                         => none

/-- The try of an errand that is over with an event. -/
def tryOf? (c : Courier) (id : Nat) : Event → Option Try
  | .tells who s =>
      if who = id then
        (c.find? id).bind fun e =>
          (c.ended? e s).map fun (member, outcome) => ⟨member, outcome, (c.step id s).state.guess⟩
      else none
  | _            => none

/-- The tries of an errand that are over after some events, in order. -/
def tries (c : Courier) (id : Nat) : List Event → List Try
  | []      => []
  | x :: xs => (c.tryOf? id x).toList ++ (c.happen x).state.tries id xs

/-- Whether an event tells an errand what it waits for. -/
def heedsEvent (c : Courier) (id : Nat) : Event → Bool
  | .tells who s => who = id && (c.find? id).any fun e => c.heeds e s
  | _            => false

/-- How often an errand was told what it waited for. -/
def heard (c : Courier) (id : Nat) : List Event → Nat
  | []      => 0
  | x :: xs => (c.heedsEvent id x).toNat + (c.happen x).state.heard id xs

variable {c d : Courier} {e f : Errand} {p : Step} {id : Nat} {request : Request} {s : Signal}
  {k : Nat}

theorem tries_concat (c : Courier) (id : Nat) (xs : List Event) (x : Event) :
    c.tries id (xs ++ [x]) = c.tries id xs ++ ((c.run xs).state.tryOf? id x).toList := by
  induction xs generalizing c with
  | nil          => exact List.append_nil _
  | cons y ys ih => simp only [List.cons_append, tries, run, ih, List.append_assoc]

theorem heard_concat (c : Courier) (id : Nat) (xs : List Event) (x : Event) :
    c.heard id (xs ++ [x]) = c.heard id xs + ((c.run xs).state.heedsEvent id x).toNat := by
  induction xs generalizing c with
  | nil          => exact (Nat.add_zero _).trans (Nat.zero_add _).symm
  | cons y ys ih => simp only [List.cons_append, heard, run, ih, Nat.add_assoc]

theorem pausesOf_concat (c : Courier) (id : Nat) (xs : List Event) (x : Event) :
    (c.run (xs ++ [x])).pausesOf id =
      (c.run xs).pausesOf id ++ ((c.run xs).state.happen x).pausesOf id := by
  rw [run_concat]
  exact List.filterMap_append

theorem outcomesOf_concat (c : Courier) (id : Nat) (xs : List Event) (x : Event) :
    (c.run (xs ++ [x])).outcomesOf id =
      (c.run xs).outcomesOf id ++ ((c.run xs).state.happen x).outcomesOf id := by
  rw [run_concat]
  exact List.filterMap_append

/-- An errand that ends has come to one thing. -/
theorem outcomesOf_finish (c : Courier) (e : Errand) (o : Errand.Outcome) :
    (c.finish e o).outcomesOf e.id = [o] := by
  simp [Progress.outcomesOf, finish]

-- ── One step of a search ─────────────────────────────────────────────────────────────────────────

/-- What a step comes to for an errand that looks for the leader, with so many tries left, and with
    a try that is over or none. -/
inductive Seeks (d : Courier) (e : Errand) (request : Request) (s : Signal) :
    Nat → Option Try → Step → Prop where
  /-- It goes on with the try it makes, or with none. -/
  | goesOn {k : Nat} {stage : Errand.Stage} {p : Step}
      (found : p.state.find? e.id = some ⟨e.id, .lead request k, stage⟩)
      (less : stage.effort + (d.heeds e s).toNat ≤ e.stage.effort)
      (guess : p.state.guess = d.guess) (turn : p.state.turn = d.turn)
      (pauses : p.pausesOf e.id = []) (outcomes : p.outcomesOf e.id = []) :
      Seeks d e request s k none p
  /-- A try came to nothing. -/
  | misses {k : Nat} {stage : Errand.Stage} {t : Try} {p : Step}
      (found : p.state.find? e.id = some ⟨e.id, .lead request k, stage⟩)
      (missed : t.Missed) (guess : p.state.guess = t.left) (turn : p.state.turn = d.turn)
      (pauses : p.pausesOf e.id = if t.unhinted then [d.backoff] else [])
      (outcomes : p.outcomesOf e.id = []) :
      Seeks d e request s (k + 1) (some t) p
  /-- A try has answered it. -/
  | ends {k : Nat} {t : Try} {answer : Except SessionError Reply} {p : Step}
      (gone : p.state.find? e.id = none) (answers : t.Answers answer) (stays : t.left = t.member)
      (pauses : p.pausesOf e.id = []) (outcomes : p.outcomesOf e.id = [.led answer]) :
      Seeks d e request s (k + 1) (some t) p
  /-- Every member was tried. -/
  | givesUp {p : Step} (gone : p.state.find? e.id = none) (pauses : p.pausesOf e.id = [])
      (outcomes : p.outcomesOf e.id = [.led (.error .noActiveLeader)]) :
      Seeks d e request s 0 none p

/-- What is true of a try as it ends: it was made at whoever was believed to lead, it has moved the
    belief as it should, and the errand had its turn. -/
structure Made (d : Courier) (id : Nat) (t : Try) : Prop where
  member : t.member = d.guess
  led    : t.left = Locator.after d.pool t.member t.outcome
  turn   : d.turn.holds id = true

/-- What comes of a try, once the errand has left its slot. -/
theorem settle_seeks (hf : d.find? e.id = some e) (haim : e.aim = .lead request (k + 1))
    (hturn : d.turn.holds e.id = true) {pool : Pool} (hpool : pool.members = d.pool.members)
    (outcome : Except TransportError Reply) {p : Step}
    (hp : p = { d with pool }.settle e outcome) :
    d.Seeks e request s (k + 1) (some ⟨d.guess, outcome, p.state.guess⟩) p ∧
      d.Made e.id ⟨d.guess, outcome, p.state.guess⟩ := by
  suffices hboth : d.Seeks e request s (k + 1) (some ⟨d.guess, outcome, p.state.guess⟩) p ∧
      p.state.guess = Locator.after pool d.guess outcome from
    ⟨hboth.1, ⟨rfl, hboth.2.trans (Locator.after_of_members hpool _ _), hturn⟩⟩
  have hsettles := settle_lead (c := { d with pool }) haim outcome
  rw [← hp] at hsettles
  clear hp
  unfold Locator.after
  cases hsettles with
  | @accepted reply taken        =>
      refine ⟨.ends (find?_abandon _ _) (Or.inl ⟨reply, ⟨rfl, taken⟩, rfl⟩) rfl rfl ?_, ?_⟩
      · exact outcomesOf_finish ..
      · rw [Locator.verdict_eq_accepted_iff.2 ⟨rfl, taken⟩]
        rfl
  | @malformed error kind        =>
      refine ⟨.ends (find?_abandon _ _) (Or.inr ⟨error, ⟨rfl, kind⟩, rfl⟩) rfl rfl ?_, ?_⟩
      · exact outcomesOf_finish ..
      · simp [Locator.verdict, kind, finish, abandon]
  | @retargets outcome guess verdict =>
      have hverdict : Locator.verdict pool d.guess outcome = .retarget guess := verdict
      refine ⟨.misses (find?_put hf : _ = some (Errand.mk _ _ .ready)) ?_ rfl rfl ?_ rfl, ?_⟩
      · cases outcome with
        | error error =>
            exact Or.inr ⟨error, rfl, fun hk => by simp [Locator.verdict, hk] at verdict⟩
        | ok reply    =>
            exact Or.inl ⟨reply, rfl, Bool.eq_false_iff.2 fun ha => by
              simp [Locator.verdict, ha] at verdict⟩
      · -- a refusal that names nobody does not lead to another member
        have hhinted : (⟨d.guess, outcome, guess⟩ : Try).unhinted = false := by
          cases outcome with
          | error error => rfl
          | ok reply    =>
              rw [Try.unhinted, Bool.eq_false_iff]
              intro hun
              simp only [Bool.and_eq_true, Bool.not_eq_true', Option.isNone_iff_eq_none] at hun
              simp [Locator.verdict, hun.1, hun.2] at verdict
        simp [Progress.pausesOf, put, hhinted]
      · rw [hverdict]
        rfl
  | @backsOff reply ds refused unhinted pauses =>
      subst pauses
      refine ⟨.misses (find?_put hf : _ = some (Errand.mk _ _ .backingOff))
        (Or.inl ⟨reply, rfl, refused⟩) rfl rfl ?_ rfl, ?_⟩
      · simp [Progress.pausesOf, Demand.pause?, Try.unhinted, refused, unhinted]
      · simp [Locator.verdict, refused, unhinted, put]

/-- A try is over where the errand is told how it ends. -/
theorem tryOf?_tells (hf : d.find? id = some e) (s : Signal) :
    d.tryOf? id (.tells id s) =
      (d.ended? e s).map fun (member, outcome) => ⟨member, outcome, (d.step id s).state.guess⟩ := by
  rw [tryOf?, if_pos rfl, hf]
  rfl

/-- An errand that is at a slot already makes no try by setting off. -/
theorem ended?_of_member {m : Nat} (hat : e.stage.member? = some m) :
    d.ended? e .proceed = none := by
  rw [ended?, if_neg]
  rintro ⟨free, _⟩
  exact nomatch (member?_of_setsOff free).symm.trans hat

/-- What an errand does not wait for ends no try. -/
theorem ended?_of_deaf (h : d.heeds e s = false) : d.ended? e s = none := by
  cases s with
  | proceed           =>
      have hmay : d.mayProceed e = false := h
      have hfree : d.setsOff e ≠ true := by
        unfold setsOff
        cases hstage : e.stage with
        | ready      => simp [mayProceed, hstage] at hmay
        | awaitsTurn => simpa [mayProceed, hstage] using hmay
        | _          => simp
      rw [ended?, if_neg fun hboth => hfree hboth.1]
  | connected outcome =>
      cases outcome with
      | ok u        => rfl
      | error error =>
          cases hstage : e.stage with
          | connecting m => simp [heeds, hstage] at h
          | _            => simp only [ended?, hstage]
  | answered outcome  =>
      cases hstage : e.stage with
      | exchanging m => simp [heeds, hstage] at h
      | _            => simp only [ended?, hstage]
  | rested            => rfl
  | expired           => rfl

/-- **What a step comes to for an errand that looks for the leader.** -/
theorem step_seeks (h : d.Sound) (hf : d.find? e.id = some e) (haim : e.aim = .lead request k)
    (s : Signal) :
    d.Seeks e request s k (d.tryOf? e.id (.tells e.id s)) (d.step e.id s) ∧
      ∀ t ∈ d.tryOf? e.id (.tells e.id s), d.Made e.id t := by
  have he := List.mem_of_find?_eq_some hf
  have hb := h.behaves e he
  have hleads : e.Leads := ⟨request, by rw [haim]; rfl⟩
  have hgoes := step_goes hf (Or.inl hleads) s
  -- where the errand is at a slot, it has a try left, and is at whoever is believed to lead
  have hslot : ∀ m, e.stage.member? = some m → m = d.guess ∧ ∃ j, k = j + 1 := by
    intro m hm
    refine ⟨hb.seeks hleads m hm, Nat.exists_eq_succ_of_ne_zero ?_⟩
    rintro rfl
    exact nomatch (hb.tries request haim).symm.trans hm
  have hgoesOn : ∀ (d' : Courier) (stage : Errand.Stage) (ds : List (Demand Nat)),
      d'.errands = d.errands → d'.guess = d.guess → d'.turn = d.turn →
      stage.effort < e.stage.effort →
      ds.filterMap (Demand.pause? e.id) = [] →
      d.Seeks e request s k none
        { state := d'.put ⟨e.id, .lead request k, stage⟩, demands := ds } := by
    intro d' stage ds herrands hguess hturn hless hpauses
    have hone := Bool.toNat_le (d.heeds e s)
    refine .goesOn (find?_put (e := e) ?_) (by omega) hguess hturn hpauses rfl
    unfold find?
    rw [herrands]
    exact hf
  have hmoves : ∀ stage, ({ e with stage } : Errand) = ⟨e.id, .lead request k, stage⟩ :=
    fun stage => by rw [← haim]
  rw [tryOf?_tells hf]
  generalize d.step e.id s = p at hgoes ⊢
  cases hgoes with
  | rests deaf            =>
      rw [ended?_of_deaf deaf]
      have hfound : d.find? e.id = some ⟨e.id, .lead request k, e.stage⟩ := by
        rw [← haim]
        exact hf
      refine ⟨.goesOn hfound ?_ rfl rfl rfl rfl, fun _ ht => nomatch ht⟩
      rw [deaf]
      exact Nat.le_refl _
  | givesUp free aim      =>
      obtain ⟨-, rfl⟩ := Errand.Aim.lead.inj (haim.symm.trans aim)
      have hnone : d.ended? e .proceed = none := by
        rw [ended?, if_neg]
        rintro ⟨_, htries⟩
        exact htries (by rw [haim]; rfl)
      rw [hnone]
      refine ⟨.givesUp (find?_abandon _ _) rfl ?_, fun _ ht => nomatch ht⟩
      exact outcomesOf_finish ..
  | @refused error free shut kind tries refuses =>
      obtain ⟨j, rfl⟩ := Nat.exists_eq_succ_of_ne_zero fun hk => tries request (hk ▸ haim)
      have hdest : d.destination e = d.guess := by
        unfold destination
        rw [haim]
        rfl
      have hended : d.ended? e .proceed = some (d.guess, .error error) := by
        rw [hdest] at refuses
        rw [ended?, if_pos ⟨free, by rw [haim]; exact Nat.succ_ne_zero j⟩, refuses]
      rw [hended]
      have hseeks := settle_seeks (s := .proceed) hf haim (hb.turn_of_setsOff hleads free)
        (rfl : d.pool.members = d.pool.members) (.error error) rfl
      exact ⟨hseeks.1, fun t ht => Option.some.inj ht ▸ hseeks.2⟩
  | @arrives stage ds free tries unclosed listed place aboard =>
      obtain ⟨q, _, hboards⟩ := aboard
      have hdest : d.destination e = d.guess := by
        unfold destination
        rw [haim]
        rfl
      have hnone : d.ended? e .proceed = none := by
        rw [ended?]
        split
        · rw [Pool.enroll_eq_ok_iff.2 ⟨unclosed, hdest ▸ listed, rfl⟩]
        · rfl
      rw [hnone]
      have hbrief : d.brief e.aim = .lead request k := by
        rw [haim]
        rfl
      rw [hbrief]
      refine ⟨hgoesOn { d with pool := d.pool.lineUp (d.destination e) e.id } stage ds rfl rfl rfl
        ?_ ?_, fun _ ht => nomatch ht⟩
      · have hfar := effort_of_setsOff free
        have hnear := Errand.Stage.effort_le_of_member place
        omega
      · cases hboards <;> rfl
  | @enters m stage ds waits first further aboard =>
      obtain ⟨q, _, hboards⟩ := aboard
      have hnone : d.ended? e .proceed = none := ended?_of_member (m := m) (by rw [waits]; rfl)
      rw [hnone, hmoves]
      refine ⟨hgoesOn d stage ds rfl rfl rfl ?_ ?_, fun _ ht => nomatch ht⟩
      · rw [waits]
        exact Errand.Stage.effort_lt_awaitsSlot further
      · cases hboards <;> rfl
  | @connects m ds waits asks =>
      obtain ⟨q, _, rfl⟩ := asks
      rw [show d.ended? e (.connected (.ok ())) = none from rfl, hmoves]
      refine ⟨hgoesOn { d with pool := d.pool.connect m } (.exchanging m) _ rfl rfl rfl
        ?_ rfl, fun _ ht => nomatch ht⟩
      rw [waits]
      exact Nat.lt_succ_self 1
  | @unconnected m error waits =>
      obtain ⟨rfl, j, rfl⟩ := hslot m (by rw [waits]; rfl)
      have hended : d.ended? e (.connected (.error error)) = some (d.guess, .error error) := by
        simp [ended?, waits]
      rw [hended]
      have hseeks := settle_seeks (s := .connected (.error error)) hf haim
        (hb.turn hleads (by rw [waits]; exact nofun)) (d.pool.members_leave d.guess e.id)
        (.error error) rfl
      exact ⟨hseeks.1, fun t ht => Option.some.inj ht ▸ hseeks.2⟩
  | @exchanged m outcome pool waits kept =>
      obtain ⟨rfl, j, rfl⟩ := hslot m (by rw [waits]; rfl)
      have hended : d.ended? e (.answered outcome) = some (d.guess, outcome) := by
        simp [ended?, waits]
      have hpool : (pool.leave d.guess e.id).members = d.pool.members := by
        rw [Pool.members_leave]
        rcases kept with rfl | rfl
        · rfl
        · exact d.pool.members_disconnect d.guess
      rw [hended]
      have hseeks := settle_seeks (s := .answered outcome) hf haim
        (hb.turn hleads (by rw [waits]; exact nofun)) hpool outcome rfl
      exact ⟨hseeks.1, fun t ht => Option.some.inj ht ▸ hseeks.2⟩
  | wakes waits           =>
      rw [show d.ended? e .rested = none from rfl, hmoves]
      refine ⟨hgoesOn d .ready [] rfl rfl rfl ?_ rfl, fun _ ht => nomatch ht⟩
      rw [waits]
      exact Nat.lt_succ_self 4

-- ── Runs ─────────────────────────────────────────────────────────────────────────────────────────

/-- How the search of an errand stands after some events. -/
inductive Status (c : Courier) (id : Nat) (request : Request) (xs : List Event) : Prop where
  /-- It goes on: every try so far came to nothing, and the last one has left who is believed to
      lead. -/
  | searching {j : Nat} {stage : Errand.Stage}
      (found : (c.run xs).state.find? id = some ⟨id, .lead request j, stage⟩)
      (left : (c.tries id xs).length + j = c.pool.size)
      (missed : ∀ t ∈ c.tries id xs, t.Missed)
      (mark : ∀ t ∈ (c.tries id xs).getLast?,
        (c.run xs).state.turn.holds id = true ∧ (c.run xs).state.guess = t.left)
      (outcomes : (c.run xs).outcomesOf id = [])
      (effort : c.heard id xs + (5 * j + stage.effort) ≤ leadEffort c.pool.size)
  /-- It was called off. -/
  | calledOff (gone : (c.run xs).state.find? id = none) (event : .callsOff id ∈ xs)
      (budget : (c.tries id xs).length ≤ c.pool.size) (missed : ∀ t ∈ c.tries id xs, t.Missed)
      (outcomes : (c.run xs).outcomesOf id = [])
  /-- The last try has answered it. -/
  | answered {ts : List Try} {t : Try} {answer : Except SessionError Reply}
      (gone : (c.run xs).state.find? id = none) (tries : c.tries id xs = ts ++ [t])
      (budget : (c.tries id xs).length ≤ c.pool.size) (missed : ∀ u ∈ ts, u.Missed)
      (stays : t.left = t.member) (answers : t.Answers answer)
      (outcomes : (c.run xs).outcomesOf id = [.led answer])
  /-- Every try came to nothing. -/
  | gaveUp (gone : (c.run xs).state.find? id = none)
      (all : (c.tries id xs).length = c.pool.size) (missed : ∀ t ∈ c.tries id xs, t.Missed)
      (outcomes : (c.run xs).outcomesOf id = [.led (.error .noActiveLeader)])

/-- What is true of the tries that an errand has made. -/
structure Trail (c : Courier) (id : Nat) (xs : List Event) : Prop where
  chained : (c.tries id xs).IsChain fun t u => u.member = t.left
  led     : ∀ t ∈ c.tries id xs, t.left = Locator.after c.pool t.member t.outcome
  pauses  : (c.run xs).pausesOf id =
    List.replicate ((c.tries id xs).countP Try.unhinted) c.backoff

variable {xs : List Event} {x : Event}

/-- An event ends no try of an errand, and does not make it pause. -/
structure Silent (d : Courier) (id : Nat) (x : Event) : Prop where
  tries    : d.tryOf? id x = none
  heeds    : d.heedsEvent id x = false
  pauses   : (d.happen x).pausesOf id = []
  outcomes : (d.happen x).outcomesOf id = []

/-- An event that is not about an errand is none of its business. -/
theorem silent_of_spares (hx : x.errand? ≠ some id) (h : d.Spares id (d.happen x)) :
    d.Silent id x := by
  refine ⟨?_, ?_, Progress.pausesOf_eq_nil h.demands, Progress.outcomesOf_eq_nil h.results⟩
  · cases x with
    | tells who s => exact if_neg fun heq => hx (congrArg some heq)
    | _           => rfl
  · cases x with
    | tells who s =>
        have hne : who ≠ id := fun heq => hx (congrArg some heq)
        simp [heedsEvent, hne]
    | _           => rfl

/-- Nothing happens to an errand that is gone. -/
theorem silent_of_gone (h : d.Sound) (hid : id < d.fresh) (hgone : d.find? id = none)
    (x : Event) : d.Silent id x := by
  by_cases hx : x.errand? = some id
  · cases x with
    | tells who s   =>
        obtain rfl := Option.some.inj hx
        have hidle : d.happen (.tells who s) = { state := d } := step_of_gone hgone s
        refine ⟨?_, ?_, ?_, ?_⟩
        · simp [tryOf?, hgone]
        · simp [heedsEvent, hgone]
        · rw [hidle]
          rfl
        · rw [hidle]
          rfl
    | callsOff who  => exact ⟨rfl, rfl, rfl, rfl⟩
    | _             => exact nomatch hx
  · exact silent_of_spares hx (happen_spares h hx hid)

theorem tries_concat_of_none (h : (c.run xs).state.tryOf? id x = none) :
    c.tries id (xs ++ [x]) = c.tries id xs := by
  rw [tries_concat, h]
  exact List.append_nil _

theorem tries_concat_of_some {t : Try} (h : (c.run xs).state.tryOf? id x = some t) :
    c.tries id (xs ++ [x]) = c.tries id xs ++ [t] := by
  rw [tries_concat, h]
  rfl

/-- No try is over with an event, and no pause begins. -/
theorem Trail.concat_none (h : c.Trail id xs) (htry : (c.run xs).state.tryOf? id x = none)
    (hpauses : ((c.run xs).state.happen x).pausesOf id = []) : c.Trail id (xs ++ [x]) := by
  have htries := tries_concat_of_none htry
  refine ⟨htries ▸ h.chained, htries ▸ h.led, ?_⟩
  rw [pausesOf_concat, hpauses, List.append_nil, htries]
  exact h.pauses

theorem state_concat (c : Courier) (xs : List Event) (x : Event) :
    (c.run (xs ++ [x])).state = ((c.run xs).state.happen x).state := by
  rw [run_concat]

/-- A try is over with an event, and a pause begins if nobody was named. -/
theorem Trail.concat_some (h : c.Trail id xs) {t : Try}
    (ht : (c.run xs).state.tryOf? id x = some t)
    (mark : ∀ u ∈ (c.tries id xs).getLast?, t.member = u.left)
    (led : t.left = Locator.after c.pool t.member t.outcome)
    (pauses : ((c.run xs).state.happen x).pausesOf id = if t.unhinted then [c.backoff] else []) :
    c.Trail id (xs ++ [x]) := by
  have htries := tries_concat_of_some ht
  refine ⟨?_, ?_, ?_⟩
  · rw [htries, List.isChain_append]
    refine ⟨h.chained, List.isChain_singleton t, fun u hu v hv => ?_⟩
    rw [← Option.some.inj hv]
    exact mark u hu
  · rw [htries]
    intro u hu
    rcases List.mem_append.1 hu with hu | hu
    · exact h.led u hu
    · rw [List.mem_singleton.1 hu]
      exact led
  · rw [pausesOf_concat, htries, List.countP_append, List.replicate_add, h.pauses, pauses]
    cases hun : t.unhinted with
    | true  => simp [hun]
    | false => simp [hun]

/-- An event that is none of an errand's business leaves its search as it was. -/
theorem Status.concat_silent (hs : c.Status id request xs) (hx : (c.run xs).state.Silent id x)
    (hsame : ((c.run xs).state.happen x).state.find? id = (c.run xs).state.find? id)
    (hturn : (c.run xs).state.find? id ≠ none → (c.run xs).state.turn.holds id = true →
      ((c.run xs).state.happen x).state.turn.holds id = true ∧
        ((c.run xs).state.happen x).state.guess = (c.run xs).state.guess) :
    c.Status id request (xs ++ [x]) := by
  have htries := tries_concat_of_none hx.tries
  have houtcomes : (c.run (xs ++ [x])).outcomesOf id = (c.run xs).outcomesOf id := by
    rw [outcomesOf_concat, hx.outcomes, List.append_nil]
  have hheard : c.heard id (xs ++ [x]) = c.heard id xs := by
    rw [heard_concat, hx.heeds]
    rfl
  rw [← state_concat] at hsame hturn
  cases hs with
  | searching found left missed mark outcomes effort       =>
      refine .searching (hsame.trans found) (htries ▸ left) (htries ▸ missed) (fun t ht => ?_)
        (houtcomes.trans outcomes) (hheard ▸ effort)
      rw [htries] at ht
      obtain ⟨hholds, hguess⟩ := mark t ht
      have hkept := hturn (by rw [found]; exact nofun) hholds
      exact ⟨hkept.1, hkept.2.trans hguess⟩
  | calledOff gone event budget missed outcomes            =>
      exact .calledOff (hsame.trans gone) (List.mem_append_left _ event) (htries ▸ budget)
        (htries ▸ missed) (houtcomes.trans outcomes)
  | answered gone tries budget missed stays answers outcomes =>
      exact .answered (hsame.trans gone) (htries.trans tries) (htries ▸ budget) missed stays answers
        (houtcomes.trans outcomes)
  | gaveUp gone all missed outcomes                        =>
      exact .gaveUp (hsame.trans gone) (htries ▸ all) (htries ▸ missed) (houtcomes.trans outcomes)

/-- The errand is told something while it searches. -/
theorem search_told (h : c.Sound) (hs : c.Status id request xs) (ht : c.Trail id xs)
    (hfound : (c.run xs).state.find? id ≠ none) (s : Signal) :
    c.Status id request (xs ++ [.tells id s]) ∧ c.Trail id (xs ++ [.tells id s]) := by
  have hlasts := run_lasts h.order xs
  cases hs with
  | calledOff gone _ _ _ _      => exact absurd gone hfound
  | answered gone _ _ _ _ _ _   => exact absurd gone hfound
  | gaveUp gone _ _ _           => exact absurd gone hfound
  | @searching j stage found left missed mark outcomes effort =>
      obtain ⟨hseeks, hmade⟩ :=
        step_seeks (e := ⟨id, .lead request j, stage⟩) (sound_run h xs) found rfl s
      have hstate := state_concat c xs (.tells id s)
      have houtcomes := outcomesOf_concat c id xs (.tells id s)
      have hheard := heard_concat c id xs (.tells id s)
      have hheeds : (c.run xs).state.heedsEvent id (.tells id s) =
          (c.run xs).state.heeds ⟨id, .lead request j, stage⟩ s := by
        simp [heedsEvent, found]
      have hone := Bool.toNat_le ((c.run xs).state.heeds ⟨id, .lead request j, stage⟩ s)
      rw [hheeds] at hheard
      rw [outcomes, List.nil_append] at houtcomes
      simp only [happen] at hstate houtcomes
      have hpauses : ((c.run xs).state.happen (.tells id s)).pausesOf id =
          ((c.run xs).state.step id s).pausesOf id := rfl
      generalize htry : (c.run xs).state.tryOf? id (.tells id s) = tr at hseeks hmade
      generalize (c.run xs).state.step id s = p at hseeks hstate houtcomes hpauses
      have hmark : ∀ t, tr = some t → ∀ u ∈ (c.tries id xs).getLast?, t.member = u.left :=
        fun t htr u hu => (hmade t htr).member.trans (mark u hu).2
      have hled : ∀ t, tr = some t → t.left = Locator.after c.pool t.member t.outcome :=
        fun t htr => (hmade t htr).led.trans (Locator.after_of_members hlasts.members _ _)
      cases hseeks with
      | @goesOn _ stage' _ found' less guess turn pauses quiet =>
          have htries := tries_concat_of_none htry
          rw [← hstate] at found'
          refine ⟨.searching found' (htries ▸ left) (htries ▸ missed) (fun t hlast => ?_)
            (houtcomes.trans quiet) ?_,
            ht.concat_none htry (hpauses.trans pauses)⟩
          · rw [htries] at hlast
            rw [hstate, guess, turn]
            exact mark t hlast
          · dsimp only at less
            omega
      | @misses i stage' t _ found' miss guess turn pauses quiet =>
          have htries := tries_concat_of_some htry
          have hstage := stage.effort_pos
          have hstage' := stage'.effort_le
          rw [← hstate] at found'
          refine ⟨.searching found' ?_ ?_ (fun u hlast => ?_)
            (houtcomes.trans quiet) (by omega), ht.concat_some htry (hmark t rfl) (hled t rfl) ?_⟩
          · rw [htries, List.length_append, List.length_singleton]
            omega
          · rw [htries]
            exact List.forall_mem_append.2 ⟨missed, List.forall_mem_singleton.2 miss⟩
          · rw [htries, List.getLast?_concat] at hlast
            obtain rfl := Option.some.inj hlast
            rw [hstate, turn]
            exact ⟨(hmade t rfl).turn, guess⟩
          · rw [hpauses, pauses, hlasts.backoff]
      | @ends i t answer _ gone answers stays pauses result =>
          have htries := tries_concat_of_some htry
          refine ⟨.answered (hstate ▸ gone) htries ?_ missed stays answers
            (houtcomes.trans result), ht.concat_some htry (hmark t rfl) (hled t rfl) ?_⟩
          · rw [htries, List.length_append, List.length_singleton]
            omega
          · rw [hpauses, pauses, answers.hinted]
            rfl
      | givesUp gone pauses result =>
          have htries := tries_concat_of_none htry
          exact ⟨.gaveUp (hstate ▸ gone) (htries ▸ left) (htries ▸ missed)
            (houtcomes.trans result), ht.concat_none htry (hpauses.trans pauses)⟩

/-- **One more event**, whatever it is, and the search stands as it should. -/
theorem search_concat (h : c.Sound) (hid : id < c.fresh) (hs : c.Status id request xs)
    (ht : c.Trail id xs) (x : Event) :
    c.Status id request (xs ++ [x]) ∧ c.Trail id (xs ++ [x]) := by
  have hd := sound_run h xs
  have hid' : id < (c.run xs).state.fresh := Nat.lt_of_lt_of_le hid (run_lasts h.order xs).fresh
  by_cases hgone : (c.run xs).state.find? id = none
  · have hsilent := silent_of_gone hd hid' hgone x
    have hgone' := gone_happen hd hid' hgone x
    exact ⟨hs.concat_silent hsilent (hgone'.trans hgone.symm) fun hfound => absurd hgone hfound,
      ht.concat_none hsilent.tries hsilent.pauses⟩
  · by_cases hx : x.errand? = some id
    · cases x with
      | tells who s  =>
          obtain rfl := Option.some.inj hx
          exact search_told h hs ht hgone s
      | callsOff who =>
          obtain rfl := Option.some.inj hx
          have htries : c.tries who (xs ++ [.callsOff who]) = c.tries who xs :=
            tries_concat_of_none rfl
          refine ⟨?_, ht.concat_none rfl rfl⟩
          cases hs with
          | searching found left missed mark outcomes effort =>
              refine .calledOff ?_ (List.mem_append_right _ (List.mem_singleton.2 rfl)) ?_
                (htries ▸ missed) ((outcomesOf_concat ..).trans ?_)
              · rw [state_concat]
                exact find?_abandon _ who
              · rw [htries]
                omega
              · rw [outcomes]
                rfl
          | calledOff gone _ _ _ _    => exact absurd gone hgone
          | answered gone _ _ _ _ _ _ => exact absurd gone hgone
          | gaveUp gone _ _ _         => exact absurd gone hgone
      | _            => exact nomatch hx
    · have hspares := happen_spares hd hx hid'
      have hsilent := silent_of_spares hx hspares
      exact ⟨hs.concat_silent hsilent (hspares.find?_eq (happen_queued hd.order hd.queued x))
        fun _ hturn => ⟨hspares.turn hturn, hspares.guess hturn⟩,
        ht.concat_none hsilent.tries hsilent.pauses⟩

/-- A request that was just sent out, with a try for every member, and waits for its turn. -/
def Begun (c : Courier) (id : Nat) (request : Request) : Prop :=
  c.find? id = some ⟨id, .lead request c.pool.size, .awaitsTurn⟩

/-- **Every run**, and the search stands as it should. -/
theorem search_run (h : c.Sound) (hbegun : c.Begun id request) (xs : List Event) :
    c.Status id request xs ∧ c.Trail id xs := by
  have hid : id < c.fresh := h.order.numbered _ (List.mem_of_find?_eq_some hbegun)
  -- on the events, from the last one
  induction xs using List.reverseRecOn with
  | nil                     =>
      refine ⟨.searching hbegun (Nat.zero_add _) (List.forall_mem_nil _)
        (fun t ht => nomatch ht) rfl ?_, ⟨List.isChain_nil, List.forall_mem_nil _, rfl⟩⟩
      exact Nat.le_of_eq (Nat.zero_add _)
  | append_singleton xs x ih => exact search_concat h hid ih.1 ih.2 x

/-- A try that is over with an event was made where it should be. -/
theorem try_made (h : c.Sound) (hbegun : c.Begun id request) {t : Try}
    (ht : (c.run xs).state.tryOf? id x = some t) :
    (c.run xs).state.Made id t ∧ t.left = ((c.run xs).state.happen x).state.guess := by
  cases x with
  | tells who s =>
      by_cases hwho : who = id
      · subst hwho
        cases hf : (c.run xs).state.find? who with
        | none   =>
            rw [tryOf?, if_pos rfl, hf] at ht
            exact nomatch ht
        | some e =>
            -- whatever errand goes by the number is the one that was sent out
            have hfound : ∃ j stage, e = ⟨who, .lead request j, stage⟩ := by
              cases (search_run h hbegun xs).1 with
              | @searching j stage found _ _ _ _ _ =>
                  exact ⟨j, stage, Option.some.inj (hf.symm.trans found)⟩
              | calledOff gone _ _ _ _             => exact nomatch gone.symm.trans hf
              | answered gone _ _ _ _ _ _          => exact nomatch gone.symm.trans hf
              | gaveUp gone _ _ _                  => exact nomatch gone.symm.trans hf
            obtain ⟨j, stage, rfl⟩ := hfound
            have hseeks :=
              step_seeks (e := ⟨who, .lead request j, stage⟩) (sound_run h xs) hf rfl s
            refine ⟨hseeks.2 t ht, ?_⟩
            rw [tryOf?_tells hf] at ht
            obtain ⟨ended, _, rfl⟩ := Option.map_eq_some_iff.1 ht
            rfl
      · rw [tryOf?, if_neg hwho] at ht
        exact nomatch ht
  | _           => exact nomatch ht

-- ── The contract ─────────────────────────────────────────────────────────────────────────────────

/-- What a search has come to, if it is over: the last try has answered it, or it has given up. -/
theorem Status.led_mem_iff (h : c.Status id request xs) (answer : Except SessionError Reply)
    (hne : answer ≠ .error .noActiveLeader) :
    .led answer ∈ (c.run xs).outcomesOf id ↔
      ∃ ts t, c.tries id xs = ts ++ [t] ∧ t.Answers answer := by
  have hnever : (∀ t ∈ c.tries id xs, t.Missed) →
      ¬ ∃ ts t, c.tries id xs = ts ++ [t] ∧ t.Answers answer := by
    rintro hmissed ⟨ts, t, htries, hanswers⟩
    exact (hmissed t (by rw [htries]; exact List.mem_concat_self)).not_answers answer hanswers
  cases h with
  | searching _ _ missed _ outcomes _ =>
      rw [outcomes]
      exact iff_of_false List.not_mem_nil (hnever missed)
  | calledOff _ _ _ missed outcomes   =>
      rw [outcomes]
      exact iff_of_false List.not_mem_nil (hnever missed)
  | @answered ts t answer' _ tries _ _ _ answers outcomes =>
      rw [outcomes, List.mem_singleton, tries]
      constructor
      · intro heq
        exact ⟨ts, t, rfl, Errand.Outcome.led.inj heq ▸ answers⟩
      · rintro ⟨ts', t', heq, hanswers⟩
        obtain rfl := List.singleton_inj.1 (List.append_inj' heq rfl).2
        rw [answers.inj hanswers]
  | gaveUp _ _ missed outcomes        =>
      rw [outcomes, List.mem_singleton]
      exact iff_of_false (fun heq => hne (Errand.Outcome.led.inj heq)) (hnever missed)

/-- Every try but the last one came to nothing. -/
theorem Status.missed_of_append (h : c.Status id request xs) {ts : List Try} {t : Try}
    (htries : c.tries id xs = ts ++ [t]) : ∀ u ∈ ts, u.Missed := by
  have hall : (∀ u ∈ c.tries id xs, u.Missed) → ∀ u ∈ ts, u.Missed := fun hmissed u hu =>
    hmissed u (htries ▸ List.mem_append_left _ hu)
  cases h with
  | searching _ _ missed _ _ _      => exact hall missed
  | calledOff _ _ _ missed _        => exact hall missed
  | answered _ tries _ missed _ _ _ =>
      obtain rfl := (List.append_inj' (tries.symm.trans htries) rfl).1
      exact missed
  | gaveUp _ _ missed _             => exact hall missed

/-- **The contract of a search**, after any events since the request was sent out. -/
structure Searches (c : Courier) (id : Nat) (request : Request) (xs : List Event) : Prop where
  /-- Whoever is believed to lead is a member, so that nobody who lines up there is told that there
      is no such member. -/
  listed    : (c.run xs).state.guess < c.pool.size ∧ ∀ who error,
    (c.run xs).state.pool.enroll (c.run xs).state.guess who = .error error →
      (c.run xs).state.pool.closed = true
  /-- A try is made at whoever is believed to lead, and leaves somebody who is believed to lead. -/
  atGuess   : ∀ ys x t, ys ++ [x] <+: xs → (c.run ys).state.tryOf? id x = some t →
    t.member = (c.run ys).state.guess ∧ t.left = (c.run (ys ++ [x])).state.guess
  /-- The next try is made there. -/
  chained   : (c.tries id xs).IsChain fun t u => u.member = t.left
  /-- Whom a try leaves depends on the member and on what came of it. -/
  led       : ∀ t ∈ c.tries id xs, t.left = Locator.after c.pool t.member t.outcome
  /-- There are at most as many tries as members, a try that is under way counted. -/
  budget    : (c.tries id xs).length ≤ c.pool.size ∧
    ∀ e, (c.run xs).state.find? id = some e → e.stage.member? ≠ none →
      (c.tries id xs).length < c.pool.size
  /-- It comes to one thing at most: to an answer, to a reply that is none, or to no leader. -/
  single    : (c.run xs).outcomesOf id = [] ∨ ∃ answer, (c.run xs).outcomesOf id = [.led answer] ∧
    ((∃ reply, answer = .ok reply) ∨ (∃ text, answer = .error (.malformedResponse text)) ∨
      answer = .error .noActiveLeader)
  /-- It comes to a reply exactly if the last try brought it and no earlier one did. -/
  accepted  : ∀ reply, .led (.ok reply) ∈ (c.run xs).outcomesOf id ↔
    ∃ ts t, c.tries id xs = ts ++ [t] ∧ t.Took reply ∧ ∀ u ∈ ts, ∀ earlier, ¬ u.Took earlier
  /-- Then the member that replied is believed to lead. -/
  accepting : ∀ ts t reply, c.tries id xs = ts ++ [t] → t.Took reply → t.left = t.member
  /-- It comes to a malformed response exactly if the last try brought one and no earlier one. -/
  garbled   : ∀ text, .led (.error (.malformedResponse text)) ∈ (c.run xs).outcomesOf id ↔
    ∃ ts t, c.tries id xs = ts ++ [t] ∧ (∃ error, t.Garbled error ∧ error.text = text) ∧
      ∀ u ∈ ts, ∀ earlier, ¬ u.Garbled earlier
  /-- When it is over, it has found no leader exactly if there was a try for every member and each
      came to nothing. -/
  exhausted : ∀ answer, .led answer ∈ (c.run xs).outcomesOf id →
    (answer = .error .noActiveLeader ↔
      (c.tries id xs).length = c.pool.size ∧ ∀ t ∈ c.tries id xs, t.Missed)
  /-- There is one pause for each refusal that named nobody, and no other. -/
  pauses    : (c.run xs).pausesOf id =
    List.replicate ((c.tries id xs).countP Try.unhinted) c.backoff
  /-- As long as it is not over and was not called off it goes on, with a try left for every one
      that was not made; and it is over once it was told often enough what it waits for. -/
  present   : (c.run xs).outcomesOf id = [] → .callsOff id ∉ xs →
    c.heard id xs < leadEffort c.pool.size ∧ ∃ stage, (c.run xs).state.find? id =
      some ⟨id, .lead request (c.pool.size - (c.tries id xs).length), stage⟩

theorem search_contract (h : c.Sound) (hbegun : c.Begun id request) (xs : List Event) :
    c.Searches id request xs := by
  obtain ⟨hstatus, htrail⟩ := search_run h hbegun xs
  have hlasts := run_lasts h.order xs
  have hsize := Pool.size_of_members hlasts.members
  have hguess : (c.run xs).state.guess < c.pool.size := hsize ▸ (sound_run h xs).order.guess
  refine {
    listed    := ⟨hguess, fun who error herror => ?listed⟩
    atGuess   := fun ys x t _ ht => ?atGuess
    chained   := htrail.chained
    led       := htrail.led
    budget    := ?budget
    single    := ?single
    accepted  := fun reply => ?accepted
    accepting := fun ts t reply htries htook => ?accepting
    garbled   := fun text => ?garbled
    exhausted := fun answer hmem => ?exhausted
    pauses    := htrail.pauses
    present   := fun hnone hkept => ?present }
  case listed    =>
    cases hclosed : (c.run xs).state.pool.closed with
    | true  => rfl
    | false =>
        rw [Pool.enroll_eq_ok_iff.2 ⟨hclosed, hsize.symm ▸ hguess, rfl⟩] at herror
        exact nomatch herror
  case atGuess   =>
    obtain ⟨hmade, hleft⟩ := try_made h hbegun ht
    rw [state_concat]
    exact ⟨hmade.member, hleft⟩
  case budget    =>
    cases hstatus with
    | @searching j stage found left _ _ _ _ =>
        refine ⟨by omega, fun e he hslot => ?_⟩
        obtain rfl := Option.some.inj (found.symm.trans he)
        have hbehaves := (sound_run h xs).behaves _ (List.mem_of_find?_eq_some found)
        have hj : j ≠ 0 := by
          rintro rfl
          exact hslot (hbehaves.tries request rfl)
        omega
    | calledOff gone _ budget _ _       =>
        exact ⟨budget, fun e he => nomatch gone.symm.trans he⟩
    | answered gone _ budget _ _ _ _    =>
        exact ⟨budget, fun e he => nomatch gone.symm.trans he⟩
    | gaveUp gone all _ _               =>
        exact ⟨Nat.le_of_eq all, fun e he => nomatch gone.symm.trans he⟩
  case single    =>
    cases hstatus with
    | searching _ _ _ _ outcomes _          => exact Or.inl outcomes
    | calledOff _ _ _ _ outcomes            => exact Or.inl outcomes
    | answered _ _ _ _ _ answers outcomes   =>
        refine Or.inr ⟨_, outcomes, ?_⟩
        rcases answers with ⟨reply, _, rfl⟩ | ⟨error, _, rfl⟩
        · exact Or.inl ⟨reply, rfl⟩
        · exact Or.inr (Or.inl ⟨_, rfl⟩)
    | gaveUp _ _ _ outcomes                 => exact Or.inr ⟨_, outcomes, Or.inr (Or.inr rfl)⟩
  case accepted  =>
    rw [hstatus.led_mem_iff (.ok reply) nofun]
    constructor
    · rintro ⟨ts, t, htries, hanswers⟩
      exact ⟨ts, t, htries, Try.answers_ok.1 hanswers, fun u hu =>
        (hstatus.missed_of_append htries u hu).not_took⟩
    · rintro ⟨ts, t, htries, htook, _⟩
      exact ⟨ts, t, htries, Try.answers_ok.2 htook⟩
  case accepting =>
    rw [htrail.led t (by rw [htries]; exact List.mem_concat_self), Locator.after, htook.1,
      Locator.verdict_eq_accepted_iff.2 ⟨rfl, htook.2⟩]
  case garbled   =>
    rw [hstatus.led_mem_iff (.error (.malformedResponse text)) nofun]
    constructor
    · rintro ⟨ts, t, htries, hanswers⟩
      exact ⟨ts, t, htries, Try.answers_malformed.1 hanswers, fun u hu =>
        (hstatus.missed_of_append htries u hu).not_garbled⟩
    · rintro ⟨ts, t, htries, hgarbled, _⟩
      exact ⟨ts, t, htries, Try.answers_malformed.2 hgarbled⟩
  case exhausted =>
    cases hstatus with
    | searching _ _ _ _ outcomes _        => rw [outcomes] at hmem; exact nomatch hmem
    | calledOff _ _ _ _ outcomes          => rw [outcomes] at hmem; exact nomatch hmem
    | @answered ts t answer' _ tries _ _ _ answers outcomes =>
        rw [outcomes, List.mem_singleton] at hmem
        obtain rfl := Errand.Outcome.led.inj hmem
        refine iff_of_false ?_ fun ⟨_, hmissed⟩ =>
          (hmissed t (by rw [tries]; exact List.mem_concat_self)).not_answers answer answers
        rcases answers with ⟨reply, _, rfl⟩ | ⟨error, _, rfl⟩ <;> exact nofun
    | gaveUp _ all missed outcomes        =>
        rw [outcomes, List.mem_singleton] at hmem
        exact iff_of_true (Errand.Outcome.led.inj hmem) ⟨all, missed⟩
  case present   =>
    cases hstatus with
    | @searching j stage found left _ _ _ effort =>
        have hstage := stage.effort_pos
        refine ⟨by omega, stage, ?_⟩
        rw [show c.pool.size - (c.tries id xs).length = j by omega]
        exact found
    | calledOff _ event _ _ _              => exact absurd event hkept
    | answered _ _ _ _ _ _ outcomes        => rw [outcomes] at hnone; exact nomatch hnone
    | gaveUp _ _ _ outcomes                => rw [outcomes] at hnone; exact nomatch hnone

/-- A request that is sent out waits for its turn. -/
theorem begun_of_beginLead (h : c.Sound) (request : Request) :
    (c.beginLead request).2.Sound ∧
      (c.beginLead request).2.Begun (c.beginLead request).1 request := by
  have hsound : (c.beginLead request).2.Sound := sound_happen h (.leads request)
  exact ⟨hsound, find?_of_mem (e := ⟨c.fresh, .lead request c.pool.size, .awaitsTurn⟩)
    hsound.queued.distinct List.mem_concat_self⟩

/-- **Every search keeps its contract**: whatever happened before the request was sent out, whatever
    happens to it and to all others afterwards, and whatever the members say. -/
theorem lead_searches (h : c.AtRest) (before : List Event) (request : Request)
    (after : List Event) :
    ((c.run before).state.beginLead request).2.Searches
      ((c.run before).state.beginLead request).1 request after := by
  obtain ⟨hsound, hbegun⟩ := begun_of_beginLead (sound_run h.sound before) request
  exact search_contract hsound hbegun after

/-- A command is under way at the first of three members. -/
def busyTrio : List Event := [.leads (.command (Session.trioEntry 0)), .tells 2 .proceed]

/-- A sync waits until the command is done.  The first member refuses it and names nobody, and is
    asked again; it names the third one then, which takes it. -/
def trioSearch : List Event :=
  [.tells 3 .proceed, .tells 2 (.answered (.ok (.command ⟨true, none, [49], false⟩))),
    .tells 3 .proceed, .tells 3 (.answered (.ok (.sync ⟨false, none, []⟩))),
    .tells 3 .rested, .tells 3 .proceed,
    .tells 3 (.answered (.ok (.sync ⟨false, some ⟨"m2"⟩, []⟩))), .tells 3 .proceed,
    .tells 3 (.answered (.ok (.sync ⟨true, some ⟨"m2"⟩, [50]⟩)))]

theorem trio_searches :
    Session.trio.courier.AtRest ∧
      ((((Session.trio.courier.run busyTrio).state.beginLead (.sync none)).2.tries 3 trioSearch).map
        fun t => (t.member, t.left)) = [(0, 0), (0, 2), (2, 2)] ∧
      ((Session.trio.courier.run busyTrio).state.beginLead (.sync none)).2.Searches 3 (.sync none)
        trioSearch :=
  ⟨Session.trio_opened.atRest, by decide,
    lead_searches Session.trio_opened.atRest busyTrio (.sync none) trioSearch⟩

end Courier

end WitnessReplication

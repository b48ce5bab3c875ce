import Mathlib.Data.List.Induction
import Mathlib.Data.List.Nodup
import WitnessReplication.Proofs.ClusterRuns

/-!
# Begun commands — a session asks for nothing that its user has not asked for

    A call has a number and a command, both from the moment at which the user begins it.  From then
    on the command goes through many hands: attempts, errands to whoever is believed to lead, syncs
    that name it once more.  None of them makes up a command.  Every call under way is one that was
    begun, with its command; every errand that could make a member execute something asks for a
    command that was begun; and whatever a session returns, it returns to a call that was begun.

* **`Session.begins?`** and **`Session.begun`** — the calls that a run begins, with their commands.
* **`Courier.Asks`** — what the errands of a courier ask to have executed.
* **`Session.Within`** — what calls and errands have to do with what was begun.
* **`within_react`** and **`within_run`** — it holds along every run.
* **`begun_unique`** — a number stands for one call.
-/

namespace WitnessReplication

/-! ## What errands ask to have executed -/

/-- The entry that a purpose is to have executed. -/
def Errand.Purpose.entry? : Errand.Purpose → Option LogEntry
  | .exchange _ request => Replica.Action.entry? (.request request)
  | .lead request       => Replica.Action.entry? (.request request)
  | _                   => none

/-- What a member is asked to execute is what the errand is for. -/
theorem Errand.Aim.entry?_of_request {aim : Errand.Aim} {request : Request} {e : LogEntry}
    (h : aim.request? = some request) (he : Replica.Action.entry? (.request request) = some e) :
    aim.purpose.entry? = some e := by
  cases aim with
  | direct m q   => obtain rfl := Option.some.inj h; exact he
  | lead q tries => obtain rfl := Option.some.inj h; exact he
  | record w f t => obtain rfl := Option.some.inj h; exact nomatch he
  | survey n seen => exact nomatch h
  | close n      => exact nomatch h

namespace Courier

variable {P : LogEntry → Prop} {c : Courier}

/-- Every entry that an errand asks to have executed satisfies `P`. -/
def Asks (P : LogEntry → Prop) (c : Courier) : Prop :=
  ∀ e ∈ c.errands, ∀ f, e.aim.purpose.entry? = some f → P f

theorem Asks.begin (h : c.Asks P) {aim : Errand.Aim}
    (ha : ∀ f, aim.purpose.entry? = some f → P f) : (c.begin aim).2.Asks P := by
  obtain ⟨_, _, _, _, _, stage, _, herrands⟩ := c.errands_begin aim
  intro e he
  rw [herrands] at he
  rcases List.mem_append.1 he with he | he
  · exact h e he
  · rw [List.mem_singleton.1 he]
    exact ha

/-- A record is not executed. -/
theorem Asks.beginRecords (h : c.Asks P) (entry : LogEntry) (ws : List Nat) :
    (c.beginRecords entry ws).2.Asks P := by
  induction ws generalizing c with
  | nil          => exact h
  | cons w ws ih =>
      have hfirst : (c.begin (.record w entry c.knownTerm)).2.Asks P :=
        h.begin fun _ hf => nomatch hf
      exact ih hfirst

theorem Asks.abandon (h : c.Asks P) (id : Nat) : (c.abandon id).Asks P :=
  fun e he => h e (List.mem_filter.1 he).1

/-- A step of an errand does not change what it is for. -/
theorem Asks.step (h : c.Asks P) (hc : c.InOrder) (id : Nat) (s : Signal) :
    (c.step id s).state.Asks P := by
  rcases Courier.step_advances hc.placed id s with ⟨_, hidle⟩ | ⟨e, hf, rfl, hadv⟩
  · rw [hidle]
    exact h
  · have he : e ∈ c.errands := List.mem_of_find?_eq_some hf
    intro e' he' f hf'
    cases hadv.turns with
    | rests errands _                    => exact h e' (errands ▸ he') f hf'
    | moves moved _ purpose _ errands _  =>
        rw [errands] at he'
        obtain ⟨d, hd, rfl⟩ := List.mem_map.1 he'
        split at hf'
        · exact h e he f (purpose ▸ hf')
        · exact h d hd f hf'
    | ends _ _ errands _                 =>
        rw [errands] at he'
        exact h e' (List.mem_filter.1 he').1 f hf'

end Courier

namespace Session

/-! ## What a user begins -/

/-- The call that an input begins: its number and its command. -/
def begins? (s : Session) : Input → Option (Nat × LogEntry)
  | .invoke data keys route seq =>
      some ((s.invoke data keys route seq).1,
        .command data keys s.identity.client (seq.getD s.identity.next))
  | _                           => none

/-- The calls that some inputs begin, each with its number and its command. -/
def begun (s : Session) : List Input → List (Nat × LogEntry)
  | []        => []
  | x :: rest => (s.begins? x).toList ++ (s.react x).state.begun rest

theorem begun_append (s : Session) (xs ys : List Input) :
    s.begun (xs ++ ys) = s.begun xs ++ (s.run xs).begun ys := by
  induction xs generalizing s with
  | nil          => rfl
  | cons x xs ih =>
      show (s.begins? x).toList ++ _ = ((s.begins? x).toList ++ _) ++ _
      rw [List.append_assoc]
      exact congrArg _ (ih _)

theorem begun_concat (s : Session) (xs : List Input) (x : Input) :
    s.begun (xs ++ [x]) = s.begun xs ++ ((s.run xs).begins? x).toList := by
  rw [begun_append]
  show _ ++ (((s.run xs).begins? x).toList ++ []) = _
  rw [List.append_nil]

/-- A call as it begins. -/
def newCall (s : Session) (entry : LogEntry) (route : Route) : Call :=
  { id := s.courier.fresh, entry, route }

/-- The session in which a call goes round for the first time. -/
def withCall (s : Session) (identity : Identity) (c : Call) : Session :=
  { s with identity, courier := s.courier.takeNumber.2, calls := s.calls ++ [c] }

/-- A call that is begun has the next number, and goes round in a session of the same client. -/
theorem invoke_goRound (s : Session) (data : Bytes) (keys : List Key) (route : Route)
    (seq : Option SeqNo) :
    ∃ identity entry, identity.client = s.identity.client ∧
      s.begins? (.invoke data keys route seq) = some (s.courier.fresh, entry) ∧
      (s.invoke data keys route seq).2.state =
        ((s.withCall identity (s.newCall entry route)).goRound (s.newCall entry route)).state ∧
      (s.invoke data keys route seq).2.results =
        ((s.withCall identity (s.newCall entry route)).goRound (s.newCall entry route)).results := by
  cases seq with
  | none   =>
      refine ⟨s.identity.take.2, .command data keys s.identity.client s.identity.next, rfl, ?_, ?_⟩
      · rw [begins?, invoke]
        dsimp only
        split <;> rfl
      · unfold invoke
        dsimp only
        split <;> exact ⟨rfl, rfl⟩
  | some n =>
      refine ⟨s.identity, .command data keys s.identity.client n, rfl, ?_, ?_⟩
      · rw [begins?, invoke]
        dsimp only
        split <;> rfl
      · unfold invoke
        dsimp only
        split <;> exact ⟨rfl, rfl⟩

/-! ## Within what was begun -/

/-- A session keeps to its client id and to what was begun: every call has the command with which it
    was begun, and what errands ask to have executed was begun. -/
structure Within (s : Session) (client : ClientId) (asked : List (Nat × LogEntry)) : Prop where
  client  : s.identity.client = client
  calls   : ∀ c ∈ s.calls, (c.id, c.entry) ∈ asked
  errands : s.courier.Asks fun f => ∃ id, (id, f) ∈ asked

/-- A step leads to such a session, and returns only to calls that were begun. -/
structure StepsWithin (p : Step) (client : ClientId) (asked : List (Nat × LogEntry)) : Prop where
  state   : p.state.Within client asked
  returns : ∀ id result, (id, .returned result) ∈ p.results → ∃ e, (id, e) ∈ asked

namespace Within

variable {s : Session} {client : ClientId} {asked : List (Nat × LogEntry)} {c : Call}

/-- More is begun. -/
theorem mono (h : s.Within client asked) (more : List (Nat × LogEntry)) :
    s.Within client (asked ++ more) where
  client  := h.client
  calls   := fun c hc => List.mem_append_left _ (h.calls c hc)
  errands := fun e he f hf => (h.errands e he f hf).imp fun _ => List.mem_append_left _

theorem courier (h : s.Within client asked) {courier : Courier}
    (hc : courier.Asks fun f => ∃ id, (id, f) ∈ asked) :
    ({ s with courier } : Session).Within client asked := ⟨h.client, h.calls, hc⟩

/-- A call is put in place of what it was. -/
theorem put (h : s.Within client asked) (hc : (c.id, c.entry) ∈ asked) :
    (s.put c).Within client asked := by
  refine ⟨h.client, fun d hd => ?_, h.errands⟩
  obtain ⟨d', hd', rfl⟩ := List.mem_map.1 hd
  split
  · exact hc
  · exact h.calls d' hd'

/-- Nothing is returned. -/
theorem rests (h : s.Within client asked) {ds : List (Demand Nat)} :
    StepsWithin { state := s, demands := ds } client asked := ⟨h, fun _ _ hmem => nomatch hmem⟩

/-- A call ends. -/
theorem finish (h : s.Within client asked) (hc : (c.id, c.entry) ∈ asked)
    (result : Except SessionError CommandOutput) :
    StepsWithin (s.finish c result) client asked where
  state   := ⟨h.client, fun d hd => h.calls d (List.mem_filter.1 hd).1, h.errands⟩
  returns := by
    intro id _ hmem
    obtain rfl : id = c.id := congrArg Prod.fst (List.mem_singleton.1 hmem)
    exact ⟨c.entry, hc⟩

/-! ### The life of a call -/

theorem startAttempt (h : s.Within client asked) (hc : (c.id, c.entry) ∈ asked) :
    (s.startAttempt c).Within client asked := by
  have hlead : (s.courier.beginLead (.command c.entry)).2.Asks fun f => ∃ id, (id, f) ∈ asked :=
    h.errands.begin fun f hf => ⟨c.id, Option.some.inj hf ▸ hc⟩
  exact (h.courier (hlead.beginRecords c.entry _)).put hc

theorem goRound (h : s.Within client asked) (hc : (c.id, c.entry) ∈ asked) :
    StepsWithin (s.goRound c) client asked := by
  rw [Session.goRound]
  split
  · exact h.finish hc _
  · exact (h.startAttempt hc).rests

theorem conclude (h : s.Within client asked) (hc : (c.id, c.entry) ∈ asked)
    (error : SessionError) : StepsWithin (s.conclude c error) client asked := by
  rw [Session.conclude]
  split
  · exact h.finish hc _
  · exact (h.put (c := { c with stage := .pausing }) hc).rests

/-- A sync names the command of the call. -/
theorem follow (h : s.Within client asked) (hc : (c.id, c.entry) ∈ asked) (d : Decision) :
    StepsWithin (s.follow c d) client asked := by
  cases d with
  | commit data path => exact h.finish hc _
  | fail error       => exact h.conclude hc error
  | sync data        =>
      have hsync : (s.courier.beginLead (.sync (some c.entry))).2.Asks
          fun f => ∃ id, (id, f) ∈ asked :=
        h.errands.begin fun f hf => ⟨c.id, Option.some.inj hf ▸ hc⟩
      exact ((h.courier hsync).put
        (c := { c with stage := .syncing data (s.courier.beginLead (.sync (some c.entry))).1 })
        hc).rests

theorem advance (h : s.Within client asked) (hc : (c.id, c.entry) ∈ asked) (a : Attempt) :
    StepsWithin (s.advance c a) client asked := by
  rw [Session.advance]
  split
  · exact h.follow hc _
  · exact (h.put (c := { c with stage := .attempting a }) hc).rests

/-! ### What errands come to -/

theorem led (h : s.Within client asked) (hc : (c.id, c.entry) ∈ asked) (errand : Nat)
    (answer : Except SessionError Reply) :
    StepsWithin (s.led c errand answer) client asked := by
  rw [Session.led]
  split
  · split
    · exact h.advance hc _
    · exact h.rests
  · split
    · split
      · exact h.finish hc _
      · exact h.conclude hc _
    · exact h.rests
  · exact h.rests

theorem recorded (h : s.Within client asked) (hc : (c.id, c.entry) ∈ asked) (errand : Nat)
    (accepted : Bool) : StepsWithin (s.recorded c errand accepted) client asked := by
  rw [Session.recorded]
  split
  · rename_i a _
    exact (h.put (c := { c with stage := .attempting (a.hear errand accepted) }) hc).rests
  · exact h.rests

theorem deliver (h : s.Within client asked) (errand : Nat) (outcome : Errand.Outcome) :
    StepsWithin (s.deliver errand outcome) client asked := by
  unfold Session.deliver
  split
  · refine ⟨h, fun id result hmem => ?_⟩
    exact nomatch congrArg Prod.snd (List.mem_singleton.1 hmem)
  · rename_i hfind
    exact h.led (h.calls _ (List.mem_of_find?_eq_some hfind)) errand _
  · rename_i hfind
    exact h.recorded (h.calls _ (List.mem_of_find?_eq_some hfind)) errand _
  · exact h.rests

theorem expire (h : s.Within client asked) (hc : (c.id, c.entry) ∈ asked) :
    StepsWithin (s.expire c) client asked := by
  rw [Session.expire]
  refine (h.courier ?_).finish hc _
  cases c.stage.errand? with
  | none        => exact h.errands
  | some errand => exact h.errands.abandon errand

/-! ### What a user does -/

/-- The one way in which something comes to be asked for. -/
theorem invoke (h : s.Within client asked) (data : Bytes) (keys : List Key) (route : Route)
    (seq : Option SeqNo) :
    StepsWithin (s.invoke data keys route seq).2 client
      (asked ++ (s.begins? (.invoke data keys route seq)).toList) := by
  obtain ⟨identity, entry, hclient, hbegins, hstate, hresults⟩ :=
    s.invoke_goRound data keys route seq
  rw [hbegins]
  have hnew : (s.courier.fresh, entry) ∈ asked ++ [(s.courier.fresh, entry)] :=
    List.mem_append_right _ (List.mem_singleton.2 rfl)
  have hwith : (s.withCall identity (s.newCall entry route)).Within client
      (asked ++ [(s.courier.fresh, entry)]) := by
    have hold := h.mono [(s.courier.fresh, entry)]
    refine ⟨hclient.trans h.client, fun c hc => ?_, hold.errands⟩
    rcases List.mem_append.1 hc with hc | hc
    · exact hold.calls c hc
    · rw [List.mem_singleton.1 hc]
      exact hnew
  have hgo := hwith.goRound (c := s.newCall entry route) hnew
  exact ⟨hstate ▸ hgo.state, hresults ▸ hgo.returns⟩

/-- **Whatever happens to a session, it keeps to what was begun.** -/
theorem react (h : s.Within client asked) (ho : s.InOrder) (x : Input) :
    StepsWithin (s.react x) client (asked ++ (s.begins? x).toList) := by
  cases x with
  | invoke data keys route seq => exact h.invoke data keys route seq
  | close                      =>
      have hmono := h.mono []
      have hclose : (s.courier.begin (.close 0)).2.Asks fun f => ∃ id, (id, f) ∈ asked ++ [] :=
        hmono.errands.begin nofun
      exact (hmono.courier hclose).rests
  | signal id sig              =>
      show StepsWithin (s.step id sig) client (asked ++ [])
      have hmono := h.mono []
      rw [Session.step]
      split
      · -- an errand goes on, and a call may hear of it
        have herrands := hmono.errands.step ho.courier id sig
        rw [Session.absorb]
        rcases Session.errand_reports ho ‹_› sig with ⟨_, _, hnone | ⟨outcome, hone, _⟩⟩
        · rw [Progress.feed_of_nil hnone]
          exact (hmono.courier herrands).rests
        · have hdeliver := (hmono.courier herrands).deliver id outcome
          obtain ⟨hstate, hresults⟩ := Progress.feed_of_singleton (β := Session) hone
          refine ⟨?_, ?_⟩
          · rw [hstate]
            exact hdeliver.state
          · rw [hresults]
            exact hdeliver.returns
      · rename_i c hcall
        have hc := hmono.calls c (List.mem_of_find?_eq_some hcall)
        split
        · exact hmono.advance hc _
        · exact hmono.goRound hc
        · exact hmono.expire hc
        · exact hmono.rests

end Within

/-! ## Runs from the beginning -/

variable {s₀ : Session}

/-- **A session keeps to what was begun, in every run.** -/
theorem within_run (h₀ : s₀.Fresh) (inputs : List Input) :
    (s₀.run inputs).Within s₀.identity.client (s₀.begun inputs) := by
  induction inputs using List.reverseRecOn with
  | nil                         =>
      refine ⟨rfl, fun c hc => ?_, fun e he => ?_⟩
      · have hc' : c ∈ s₀.calls := hc
        rw [h₀.calls] at hc'
        exact nomatch hc'
      · have he' : e ∈ s₀.courier.errands := he
        rw [h₀.errands] at he'
        exact nomatch he'
  | append_singleton inputs x ih =>
      rw [begun_concat, run_append]
      exact (ih.react (run_traced h₀ inputs).1 x).state

/-- Whatever is returned is returned to a call that was begun. -/
theorem begun_of_returned (h₀ : s₀.Fresh) {inputs : List Input} {last : Input} {id : Nat}
    {result : Except SessionError CommandOutput}
    (hret : (id, .returned result) ∈ ((s₀.run inputs).react last).results) :
    ∃ e, (id, e) ∈ s₀.begun (inputs ++ [last]) := by
  rw [begun_concat]
  exact ((within_run h₀ inputs).react (run_traced h₀ inputs).1 last).returns id result hret

/-- What is begun is a command of the session's client. -/
theorem client_of_begun (h₀ : s₀.Fresh) {inputs : List Input} {p : Nat × LogEntry}
    (hp : p ∈ s₀.begun inputs) : p.2.kind = .command ∧ p.2.client = s₀.identity.client := by
  induction inputs using List.reverseRecOn with
  | nil                         => exact nomatch hp
  | append_singleton inputs x ih =>
      rw [begun_concat] at hp
      rcases List.mem_append.1 hp with hp | hp
      · exact ih hp
      · cases x with
        | invoke data keys route seq =>
            rw [← Option.some.inj (Option.mem_toList.1 hp)]
            exact ⟨rfl, (within_run h₀ inputs).client⟩
        | close                      => exact nomatch hp
        | signal id sig              => exact nomatch hp

/-! ## The numbers of calls -/

/-- A number that is given once is not given again: when a call begins, the numbers go on behind
    its own. -/
theorem fresh_invoke {s : Session} (h : s.InOrder) (data : Bytes) (keys : List Key) (route : Route)
    (seq : Option SeqNo) :
    s.courier.fresh < (s.invoke data keys route seq).2.state.courier.fresh := by
  obtain ⟨identity, entry, _, _, hstate, _⟩ := s.invoke_goRound data keys route seq
  have hlt : s.courier.fresh < s.courier.takeNumber.2.fresh := Nat.lt_succ_self _
  rw [hstate, goRound]
  split
  · exact hlt
  · have hlead := Courier.beginLead_setOut h.courier.takeNumber (.command entry)
    have hsent := fun ws => Courier.beginRecords_sentOut hlead.order entry ws
    exact Nat.lt_of_lt_of_le hlt (hlead.follows.trans (hsent _).follows).fresh

/-- The calls of a run have numbers that were given, each its own. -/
theorem begun_numbered (h₀ : s₀.Fresh) (inputs : List Input) :
    ((s₀.begun inputs).map (·.1)).Nodup ∧
      ∀ p ∈ s₀.begun inputs, p.1 < (s₀.run inputs).courier.fresh := by
  induction inputs using List.reverseRecOn with
  | nil                         => exact ⟨List.nodup_nil, fun _ hp => nomatch hp⟩
  | append_singleton inputs x ih =>
      obtain ⟨hnodup, hlt⟩ := ih
      have horder := (run_traced h₀ inputs).1
      have hgrows := (react_carries horder x).follows.fresh
      have hold : ∀ p ∈ s₀.begun inputs, p.1 < ((s₀.run inputs).react x).state.courier.fresh :=
        fun p hp => Nat.lt_of_lt_of_le (hlt p hp) hgrows
      rw [begun_concat, run_append]
      show _ ∧ ∀ p ∈ s₀.begun inputs ++ _, p.1 < ((s₀.run inputs).react x).state.courier.fresh
      cases x with
      | invoke data keys route seq =>
          obtain ⟨_, entry, _, hbegins, _⟩ := (s₀.run inputs).invoke_goRound data keys route seq
          rw [hbegins]
          refine ⟨?_, fun p hp => ?_⟩
          · rw [List.map_append]
            refine List.nodup_append'.2 ⟨hnodup, List.nodup_singleton _, ?_⟩
            intro i hi hi'
            obtain ⟨p, hp, rfl⟩ := List.mem_map.1 hi
            exact Nat.ne_of_lt (hlt p hp) (List.mem_singleton.1 hi')
          · rcases List.mem_append.1 hp with hp | hp
            · exact hold p hp
            · rw [List.mem_singleton.1 hp]
              exact fresh_invoke horder data keys route seq
      | close                      =>
          show ((s₀.begun inputs ++ []).map _).Nodup ∧ ∀ p ∈ s₀.begun inputs ++ [], _
          rw [List.append_nil]
          exact ⟨hnodup, hold⟩
      | signal id sig              =>
          show ((s₀.begun inputs ++ []).map _).Nodup ∧ ∀ p ∈ s₀.begun inputs ++ [], _
          rw [List.append_nil]
          exact ⟨hnodup, hold⟩

/-- A number stands for one call and one command. -/
theorem begun_unique (h₀ : s₀.Fresh) {inputs : List Input} {id : Nat} {e f : LogEntry}
    (he : (id, e) ∈ s₀.begun inputs) (hf : (id, f) ∈ s₀.begun inputs) : f = e :=
  congrArg Prod.snd (List.inj_on_of_nodup_map (begun_numbered h₀ inputs).1 hf he rfl)

/-- A call under way has the command with which it was begun. -/
theorem entry_of_begun (h₀ : s₀.Fresh) {inputs : List Input} {c : Call}
    (hc : c ∈ (s₀.run inputs).calls) : (c.id, c.entry) ∈ s₀.begun inputs :=
  (within_run h₀ inputs).calls c hc

end Session

end WitnessReplication

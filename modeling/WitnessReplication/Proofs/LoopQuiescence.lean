import WitnessReplication.EventLoop
import WitnessReplication.Proofs.SyncedNames

/-!
# Loop quiescence — what an event loop leaves undone, and what it passes on

    A loop takes events as they come, one by one or many at once, and commits when it finds none.  It
    passes on what was synced after every round.  So each of its rounds is two actions of its replica,
    an event or a commit and then the taking of names, and between two rounds no name waits to be
    taken.

    A command that joins those that wait is pushed behind them.  From there it is synced, or it is
    wiped when leadership is lost, or it waits at the end of a loop that nobody holds a handle to any
    more.  What is passed on is, in their order, the pushes less those that are wiped and those that
    wait.

* **`synced_append_unsynced`** — what becomes of the pushes of a run.
* **`Input`**, **`play`** and **`trace`** — a loop from outside, and the run of its replica.
* **`play_traced`** — what a loop does is what its replica does in that run.
* **`turn_settle`** — a loop comes to wait.
* **`quiescent`** — the law, put together from these.
-/

namespace WitnessReplication

namespace Replica

variable {σ : Type} [StateMachine σ]

/-! ## What becomes of a push -/

/-- The name that an action pushes behind those that wait. -/
def pushes (r : Replica σ) (now : Nat) (a : Action) : List RequestId :=
  match a.entry? with
  | none   => []
  | some e => if (r.perform now a).2.unsynced = r.unsynced ++ [e] then [e.id] else []

/-- The names that are pushed in a run. -/
def pushed (r : Replica σ) : List (Nat × Action) → List RequestId
  | []               => []
  | (now, a) :: rest => r.pushes now a ++ (r.perform now a).2.pushed rest

/-- The replica ceases to lead. -/
def Resigns (r : Replica σ) (now : Nat) (a : Action) : Prop :=
  r.isLeader = true ∧ (r.perform now a).2.isLeader = false

instance (r : Replica σ) (now : Nat) (a : Action) : Decidable (r.Resigns now a) :=
  inferInstanceAs (Decidable (_ ∧ _))

/-- What waits is wiped: the replica ceases to lead before it syncs. -/
def wipes (r : Replica σ) : List (Nat × Action) → Bool
  | []               => false
  | (now, a) :: rest =>
      if r.Drains now a then false
      else if r.Resigns now a then true
      else (r.perform now a).2.wipes rest

/-- The names that are pushed in a run and not wiped in its course. -/
def surviving (r : Replica σ) : List (Nat × Action) → List RequestId
  | []               => []
  | (now, a) :: rest =>
      (if (r.perform now a).2.wipes rest then [] else r.pushes now a) ++
        (r.perform now a).2.surviving rest

theorem batches_append (r : Replica σ) (xs ys : List (Nat × Action)) :
    r.batches (xs ++ ys) = r.batches xs ++ (r.run xs).batches ys := by
  induction xs generalizing r with
  | nil          => rfl
  | cons x xs ih =>
      show _ ++ (r.perform x.1 x.2).2.batches (xs ++ ys) = _
      rw [ih, ← List.append_assoc]
      rfl

/-- Unless a command joins those that wait, nothing is pushed. -/
theorem pushes_of_apart {r : Replica σ} {now : Nat} {a : Action}
    (h : ∀ e, (r.perform now a).2.unsynced ≠ r.unsynced ++ [e]) : r.pushes now a = [] := by
  rw [pushes]
  split
  · rfl
  · rw [if_neg (h _)]

theorem pushes_of_empty {r : Replica σ} {now : Nat} {a : Action}
    (h : (r.perform now a).2.unsynced = []) : r.pushes now a = [] := by
  refine pushes_of_apart fun e he => ?_
  rw [h] at he
  exact List.append_ne_nil_of_right_ne_nil _ (List.cons_ne_nil e []) he.symm

/-- What one action does to what waits: it is synced, wiped, or goes on to wait with what is pushed
    now.  Whether what waits after the action will be wiped is left open. -/
theorem syncs_append_waiting (r : Replica σ) (now : Nat) (a : Action) (later : Bool) :
    r.syncs now a ++ (if later then [] else (r.perform now a).2.unsynced.map (·.id)) =
      (if (if r.Drains now a then false else if r.Resigns now a then true else later) then []
        else r.unsynced.map (·.id)) ++ (if later then [] else r.pushes now a) := by
  -- a drain that finds nothing to sync is none that matters
  have hempty : r.unsynced = [] → r.syncs now a = [] := by
    intro h
    rw [syncs, h]
    split <;> rfl
  cases r.perform_settles now a with
  | waits idle same led              =>
      have hpushes : r.pushes now a = [] := by
        refine pushes_of_apart fun e he => ?_
        rw [same] at he
        exact List.cons_ne_nil e [] (List.self_eq_append_right.1 he)
      have hresigns : ¬ r.Resigns now a := by
        rintro ⟨hled, hlost⟩
        exact Bool.false_ne_true (hlost.symm.trans (led hled))
      rw [hpushes, same, if_neg hresigns]
      by_cases hnone : r.unsynced = []
      · rw [hempty hnone, hnone]
        simp
      · have hdrains : ¬ r.Drains now a := fun h => hnone (same ▸ h.1)
        rw [syncs, if_neg hdrains, if_neg hdrains]
        simp
  | joins e executed behind led      =>
      have hpushes : r.pushes now a = [e.id] := by
        rw [pushes, executed.1]
        exact if_pos behind
      have hresigns : ¬ r.Resigns now a := by
        rintro ⟨hled, hlost⟩
        exact Bool.false_ne_true (hlost.symm.trans (led.trans hled))
      have hdrains : ¬ r.Drains now a := by
        rintro ⟨hnone, _⟩
        rw [behind] at hnone
        exact List.append_ne_nil_of_right_ne_nil _ (List.cons_ne_nil e []) hnone
      rw [syncs, hpushes, behind, if_neg hdrains, if_neg hdrains, if_neg hresigns]
      cases later <;> simp
  | drains empty told led            =>
      have hdrains : r.Drains now a := ⟨empty, told⟩
      rw [syncs, pushes_of_empty empty, empty, if_pos hdrains, if_pos hdrains]
      simp
  | drops idle led lost empty untold =>
      rw [pushes_of_empty empty, empty, if_pos (show r.Resigns now a from ⟨led, lost⟩)]
      by_cases hnone : r.unsynced = []
      · rw [hempty hnone, hnone]
        simp
      · have hdrains : ¬ r.Drains now a := by
          rintro ⟨_, htold⟩
          rw [untold] at htold
          exact hnone (List.map_eq_nil_iff.1 (List.self_eq_append_right.1 htold))
        rw [syncs, if_neg hdrains, if_neg hdrains]
        simp

/-- **What becomes of the pushes**: those that are not wiped are synced or wait, and so does what
    waited at first. -/
theorem synced_append_unsynced (r : Replica σ) (acts : List (Nat × Action)) :
    r.synced acts ++ (r.run acts).unsynced.map (·.id) =
      (if r.wipes acts then [] else r.unsynced.map (·.id)) ++ r.surviving acts := by
  induction acts generalizing r with
  | nil            => exact (List.append_nil _).symm
  | cons x acts ih =>
      obtain ⟨now, a⟩ := x
      have hrest := ih (r.perform now a).2
      have hstep := r.syncs_append_waiting now a ((r.perform now a).2.wipes acts)
      rw [synced, surviving, wipes, List.append_assoc, run_cons, hrest, ← List.append_assoc, hstep,
        List.append_assoc]

/-- Unless leadership is lost nothing is wiped. -/
theorem surviving_eq_pushed {r : Replica σ} {acts : List (Nat × Action)}
    (h : ¬ Occurs Resigns r acts) : r.surviving acts = r.pushed acts := by
  have hwipes : ∀ {r : Replica σ} {acts : List (Nat × Action)}, ¬ Occurs Resigns r acts →
      r.wipes acts = false := by
    intro r acts h
    induction acts generalizing r with
    | nil            => rfl
    | cons x acts ih =>
        obtain ⟨hresigns, hrest⟩ := not_or.1 h
        rw [wipes, if_neg hresigns, ih hrest, ite_self]
  induction acts generalizing r with
  | nil            => rfl
  | cons x acts ih =>
      have hrest := (not_or.1 h).2
      rw [surviving, pushed, hwipes hrest, ih hrest]
      rfl

end Replica

/-! ## A loop from outside -/

/-- The action that an event asks for. -/
def Event.action : Event → Replica.Action
  | .request q        => .request q
  | .lead leader term => .lead leader term

namespace EventLoop

variable {σ : Type}

/-- What happens to a loop from outside, and its own rounds. -/
inductive Input where
  | submit (caller : Nat) (e : Event)
  /-- The loop is let go on for a round, unless it waits or has ended. -/
  | turn (now : Nat)
  /-- Nobody holds a handle any more. -/
  | detach
  /-- The response cache is swept. -/
  | evict (now : Nat)
  deriving DecidableEq

/-- A loop of a replica that has done nothing yet. -/
def opened (me : Address) (leader : Option Address) (term : Term) (machine : σ)
    (retention : Nat) : EventLoop σ :=
  { replica := .start me leader term machine retention }

section Playing

variable [StateMachine σ]

/-- The loop after an input, and what leaves it. -/
def feed (l : EventLoop σ) : Input → EventLoop σ × List Emission
  | .submit caller e => (if l.attached then l.submit caller e else l, [])
  | .turn now        => (l.turn now).getD (l, [])
  | .detach          => (l.detach, [])
  | .evict now       => ({ l with replica := (l.replica.evict now).2 }, [])

/-- The loop after some inputs, and all that leaves it. -/
def play (l : EventLoop σ) : List Input → EventLoop σ × List Emission
  | []        => (l, [])
  | x :: rest => (((l.feed x).1.play rest).1, (l.feed x).2 ++ ((l.feed x).1.play rest).2)

/-- What an input does to the replica. -/
def actions (l : EventLoop σ) : Input → List (Nat × Replica.Action)
  | .turn now  =>
      if !l.running then []
      else match l.queue with
        | (_, e) :: _ => [(now, e.action), (now, .takePending)]
        | []          =>
            if !l.attached || l.replica.unsynced = [] then []
            else [(now, .commit), (now, .takePending)]
  | .evict now => [(now, .evict)]
  | _          => []

/-- What some inputs do to the replica. -/
def trace (l : EventLoop σ) : List Input → List (Nat × Replica.Action)
  | []        => []
  | x :: rest => l.actions x ++ (l.feed x).1.trace rest

/-! ## What a loop does is a run of its replica -/

/-- From a loop that somebody listens to, some actions of its replica lead to a loop and to what
    leaves it. -/
structure Follows (l : EventLoop σ) (acts : List (Nat × Replica.Action))
    (result : EventLoop σ × List Emission) : Prop where
  replica  : result.1.replica = l.replica.run acts
  listener : result.1.listener = true
  batches  : Emission.batches result.2 = (l.replica.batches acts).filter (· ≠ [])
  /-- Between two rounds no name waits to be taken. -/
  told     : l.replica.pending = [] → result.1.replica.pending = []

omit [StateMachine σ] in
theorem batches_append (xs ys : List Emission) :
    Emission.batches (xs ++ ys) = Emission.batches xs ++ Emission.batches ys :=
  List.filterMap_append ..

omit [StateMachine σ] in
/-- What is passed on is what waits to be told, if there is any and somebody listens. -/
theorem forward_listened {l : EventLoop σ} (h : l.listener = true) :
    l.forward.1 = { l with replica := l.replica.takePending.2 } ∧
      Emission.batches l.forward.2 = [l.replica.pending].filter (· ≠ []) := by
  by_cases hpending : l.replica.pending = []
  · have hforward : l.forward = ({ l with replica := l.replica.takePending.2 }, []) := by
      simp only [forward, Replica.takePending, hpending, decide_true, Bool.true_or, if_true]
    rw [hforward, hpending]
    exact ⟨rfl, rfl⟩
  · have hforward : l.forward =
        ({ l with replica := l.replica.takePending.2 }, [.batch l.replica.pending]) := by
      simp only [forward, Replica.takePending, hpending, h, decide_false, Bool.not_true,
        Bool.or_self]
      rfl
    have hkeep : [l.replica.pending].filter (· ≠ []) = [l.replica.pending] :=
      List.filter_cons_of_pos (decide_eq_true hpending)
    rw [hforward, hkeep]
    exact ⟨rfl, rfl⟩

/-- A round is an action and the taking of names. -/
theorem round_follows {l : EventLoop σ} (h : l.listener = true) {now : Nat} {a : Replica.Action}
    (ha : a ≠ .takePending) {l₁ : EventLoop σ}
    (h₁ : l₁ = { l with replica := (l.replica.perform now a).2, queue := l₁.queue })
    (before : List Emission) (hbefore : Emission.batches before = []) :
    l.Follows [(now, a), (now, .takePending)] (l₁.forward.1, before ++ l₁.forward.2) := by
  have hreplica : l₁.replica = (l.replica.perform now a).2 := congrArg EventLoop.replica h₁
  have hlistener : l₁.listener = true := (congrArg EventLoop.listener h₁).trans h
  obtain ⟨hstate, hbatches⟩ := forward_listened hlistener
  constructor
  case replica  =>
    rw [hstate, hreplica]
    rfl
  case listener =>
    rw [hstate]
    exact hlistener
  case batches  =>
    rw [batches_append, hbefore, hbatches, hreplica, List.nil_append]
    show _ = List.filter _ ((if a = .takePending then [l.replica.pending] else []) ++ [_])
    rw [if_neg ha]
    rfl
  case told     =>
    intro _
    rw [hstate]
    rfl

/-- An input that does nothing to the replica. -/
theorem idle_follows {l l' : EventLoop σ} (h : l.listener = true) (hreplica : l'.replica = l.replica)
    (hlistener : l'.listener = l.listener) : l.Follows [] (l', []) :=
  ⟨hreplica, hlistener.trans h, rfl, fun told => (congrArg Replica.pending hreplica).trans told⟩

theorem action_ne_takePending (e : Event) : e.action ≠ .takePending := by
  cases e <;> exact Replica.Action.noConfusion

/-- All that a round can be, and the actions that it consists of. -/
inductive Turns (l : EventLoop σ) (now : Nat) :
    List (Nat × Replica.Action) → Option (EventLoop σ × List Emission) → Prop where
  | ended (stopped : l.running = false) : Turns l now [] none
  | waits (running : l.running = true) (queue : l.queue = []) (attached : l.attached = true)
      (unsynced : l.replica.unsynced = []) : Turns l now [] none
  | ends (running : l.running = true) (queue : l.queue = []) (detached : l.attached = false) :
      Turns l now [] (some ({ l with running := false }, []))
  | commits (running : l.running = true) (queue : l.queue = []) (attached : l.attached = true)
      (unsynced : l.replica.unsynced ≠ []) :
      Turns l now [(now, .commit), (now, .takePending)] (some l.commit)
  | handles (caller : Nat) (e : Event) (rest : List (Nat × Event)) (running : l.running = true)
      (queue : l.queue = (caller, e) :: rest) :
      Turns l now [(now, e.action), (now, .takePending)]
        (some ({ l with queue := rest }.handle now caller e))

theorem turn_turns (l : EventLoop σ) (now : Nat) :
    l.Turns now (l.actions (.turn now)) (l.turn now) := by
  obtain ⟨replica, queue, listener, attached, running⟩ := l
  cases running with
  | false => exact .ended rfl
  | true  =>
      cases queue with
      | cons x rest => exact .handles x.1 x.2 rest rfl rfl
      | nil         =>
          cases attached with
          | false => exact .ends rfl rfl rfl
          | true  =>
              by_cases unsynced : replica.unsynced = []
              · simp only [actions, turn, unsynced, decide_true, Bool.or_true, if_true]
                exact .waits rfl rfl rfl unsynced
              · simp only [actions, turn, unsynced, decide_false, Bool.not_true, Bool.or_self]
                exact .commits rfl rfl rfl unsynced

/-- Handling an event is a round. -/
theorem handle_follows {l : EventLoop σ} (h : l.listener = true) (now caller : Nat) (e : Event)
    (rest : List (Nat × Event)) :
    l.Follows [(now, e.action), (now, .takePending)]
      ({ l with queue := rest }.handle now caller e) := by
  cases e with
  | request q        =>
      exact round_follows h (a := .request q) (action_ne_takePending (.request q)) rfl
        [.answer caller (some (l.replica.answer now q).1)] rfl
  | lead leader term =>
      exact round_follows h (a := .lead leader term) (action_ne_takePending (.lead leader term)) rfl
        [.answer caller none] rfl

theorem feed_follows {l : EventLoop σ} (h : l.listener = true) (x : Input) :
    l.Follows (l.actions x) (l.feed x) := by
  cases x with
  | submit caller e =>
      have hsame : (l.submit caller e).replica = l.replica ∧
          (l.submit caller e).listener = l.listener := by
        rw [submit]
        split <;> exact ⟨rfl, rfl⟩
      rw [feed]
      split
      · exact idle_follows h hsame.1 hsame.2
      · exact idle_follows h rfl rfl
  | detach          => exact idle_follows h rfl rfl
  | evict now       => exact ⟨rfl, h, rfl, id⟩
  | turn now        =>
      have hturns := l.turn_turns now
      rw [feed]
      generalize l.actions (.turn now) = acts at hturns ⊢
      generalize l.turn now = result at hturns ⊢
      cases hturns with
      | ended | waits | ends         => exact idle_follows h rfl rfl
      | commits                      =>
          exact round_follows h (a := .commit) Replica.Action.noConfusion rfl [] rfl
      | handles caller e rest _ _    => exact handle_follows h now caller e rest

/-- What one run comes to, followed by another. -/
theorem Follows.trans {l : EventLoop σ} {xs ys : List (Nat × Replica.Action)}
    {first second : EventLoop σ × List Emission} (h₁ : l.Follows xs first)
    (h₂ : first.1.Follows ys second) : l.Follows (xs ++ ys) (second.1, first.2 ++ second.2) := by
  constructor
  case replica  => rw [Replica.run_append, ← h₁.replica, h₂.replica]
  case listener => exact h₂.listener
  case batches  =>
    rw [batches_append, Replica.batches_append, List.filter_append, h₁.batches, h₂.batches,
      h₁.replica]
  case told     => exact fun told => h₂.told (h₁.told told)

/-- **What a loop does is a run of its replica**, as far as somebody listens. -/
theorem play_follows {l : EventLoop σ} (h : l.listener = true) (inputs : List Input) :
    l.Follows (l.trace inputs) (l.play inputs) := by
  induction inputs generalizing l with
  | nil            => exact idle_follows h rfl rfl
  | cons x rest ih =>
      have hfirst := feed_follows h x
      exact hfirst.trans (ih hfirst.listener)

/-! ## How far a loop gets -/

theorem turns_of_none {l : EventLoop σ} {now : Nat} (h : l.turn now = none) (n : Nat) :
    (l.turns now n).1 = l := by
  cases n with
  | zero   => rfl
  | succ n => rw [turns, h]

omit [StateMachine σ] in
theorem forward_state (l : EventLoop σ) :
    l.forward.1 = { l with replica := l.replica.takePending.2 } := by
  rw [forward]
  split
  rename_i h
  obtain ⟨rfl, rfl⟩ := Prod.mk.inj h
  split <;> rfl

theorem handle_running (l : EventLoop σ) (now caller : Nat) (e : Event) :
    (l.handle now caller e).1.running = l.running ∧ (l.handle now caller e).1.queue = l.queue := by
  cases e <;> (rw [handle]; simp only [forward_state, and_self])

/-- A loop waits that has nothing to do. -/
theorem turn_of_idle {l : EventLoop σ} (queue : l.queue = []) (attached : l.attached = true)
    (unsynced : l.replica.unsynced = []) (now : Nat) : l.turn now = none := by
  simp [turn, queue, attached, unsynced]

/-- After a round there is one event less, or nothing left to do. -/
theorem turn_decreases {l : EventLoop σ} {now : Nat} {result : EventLoop σ × List Emission}
    (h : l.turn now = some result) :
    result.1.queue.length + 1 = l.queue.length ∨ result.1.turn now = none := by
  have hturns := l.turn_turns now
  rw [h] at hturns
  generalize l.actions (.turn now) = acts at hturns
  cases hturns with
  | ends _ _ _                                 => exact Or.inr rfl
  | commits running queue attached _           =>
      refine Or.inr ?_
      rw [commit, forward_state]
      have unsynced : l.replica.syncAll.takePending.2.unsynced = [] := l.replica.syncAll_unsynced
      exact turn_of_idle (l := { l with replica := l.replica.syncAll.takePending.2 })
        queue attached unsynced now
  | handles caller e rest running queue        =>
      rw [(handle_running { l with queue := rest } now caller e).2, queue]
      exact Or.inl rfl

/-- Every event takes a round, and a commit or the end one more. -/
theorem turn_turns_of_le (now : Nat) (n : Nat) {l : EventLoop σ} (h : l.queue.length < n) :
    (l.turns now n).1.turn now = none := by
  induction n generalizing l with
  | zero      => exact absurd h (Nat.not_lt_zero _)
  | succ n ih =>
      cases hturn : l.turn now with
      | none   => rw [turns_of_none hturn, hturn]
      | some r =>
          rw [turns, hturn]
          show (turns now n r.1).1.turn now = none
          rcases turn_decreases hturn with hless | hnone
          · exact ih (by omega)
          · rw [turns_of_none hnone, hnone]

/-- Left alone, a loop comes to wait or ends. -/
theorem turn_settle (l : EventLoop σ) (now : Nat) : (l.settle now).1.turn now = none :=
  turn_turns_of_le now _ (Nat.lt_succ_self _)

/-- A loop ends by itself only when nobody holds a handle and nothing is queued. -/
structure Finished (l : EventLoop σ) : Prop where
  detached : l.attached = false
  queue    : l.queue = []

theorem finished_feed {l : EventLoop σ} (h : l.running = false → l.Finished) (x : Input)
    (stopped : (l.feed x).1.running = false) : (l.feed x).1.Finished := by
  cases x with
  | submit caller e =>
      rw [feed] at stopped ⊢
      split at stopped
      · rename_i attached
        cases running : l.running with
        | false => exact nomatch attached.symm.trans (h running).detached
        | true  =>
            rw [submit, if_pos running] at stopped
            exact nomatch running.symm.trans stopped
      · rename_i detached
        rw [if_neg detached]
        exact h stopped
  | detach          => exact ⟨rfl, (h stopped).queue⟩
  | evict now       => exact ⟨(h stopped).detached, (h stopped).queue⟩
  | turn now        =>
      have hturns := l.turn_turns now
      rw [feed] at stopped ⊢
      generalize l.actions (.turn now) = acts at hturns
      generalize l.turn now = result at hturns stopped ⊢
      cases hturns with
      | ended | waits                          => exact h stopped
      | ends _ queue detached                  => exact ⟨detached, queue⟩
      | commits running                        =>
          have hstopped : (l.commit).1.running = false := stopped
          rw [commit, forward_state] at hstopped
          exact nomatch running.symm.trans hstopped
      | handles caller e rest running _        =>
          have hstopped := (handle_running { l with queue := rest } now caller e).1.symm.trans stopped
          exact nomatch running.symm.trans hstopped

theorem finished_play {l : EventLoop σ} (h : l.running = false → l.Finished) (inputs : List Input)
    (stopped : (l.play inputs).1.running = false) : (l.play inputs).1.Finished := by
  induction inputs generalizing l with
  | nil            => exact h stopped
  | cons x rest ih => exact ih (finished_feed h x) stopped

/-! ## The law -/

/-- What a loop leaves undone, and what it passes on, if somebody listens. -/
structure Quiescent (l₀ : EventLoop σ) : Prop where
  /-- The trace of a loop is what its replica goes through. -/
  traced : ∀ inputs, (l₀.play inputs).1.replica = l₀.replica.run (l₀.trace inputs)
  /-- While it waits nothing is left to sync, and no name to pass on. -/
  waits : ∀ inputs now, (l₀.play inputs).1.running = true →
    (l₀.play inputs).1.turn now = none →
      (l₀.play inputs).1.replica.unsynced = [] ∧ (l₀.play inputs).1.replica.pending = []
  /-- It does come to wait, or it ends. -/
  settles : ∀ inputs now, ((l₀.play inputs).1.settle now).1.turn now = none
  nonempty : ∀ inputs, ∀ batch ∈ Emission.batches (l₀.play inputs).2, batch ≠ []
  /-- What was passed on until now is what was synced until now. -/
  synced : ∀ inputs, (Emission.batches (l₀.play inputs).2).flatten =
    l₀.replica.synced (l₀.trace inputs)
  /-- It is what was pushed, less what was wiped and what waits. -/
  kept : ∀ inputs, (Emission.batches (l₀.play inputs).2).flatten ++
    (l₀.play inputs).1.replica.unsynced.map (·.id) = l₀.replica.surviving (l₀.trace inputs)
  /-- Nothing is wiped unless leadership is lost. -/
  whole : ∀ inputs, ¬ Replica.Occurs Replica.Resigns l₀.replica (l₀.trace inputs) →
    l₀.replica.surviving (l₀.trace inputs) = l₀.replica.pushed (l₀.trace inputs)
  /-- It ends only when nobody holds a handle and nothing is queued. -/
  ends : ∀ inputs, (l₀.play inputs).1.running = false → (l₀.play inputs).1.Finished

/-- **What a loop leaves undone, and what it passes on**, whatever happens to it and whenever. -/
theorem quiescent (me : Address) (leader : Option Address) (term : Term) (machine : σ)
    (retention : Nat) : Quiescent (opened me leader term machine retention) := by
  have hlistener : (opened me leader term machine retention).listener = true := rfl
  have hrunning : (opened me leader term machine retention).running = true := rfl
  have hpending : (opened me leader term machine retention).replica.pending = [] := rfl
  have hunsynced : (opened me leader term machine retention).replica.unsynced = [] := rfl
  generalize opened me leader term machine retention = l₀ at *
  have hfollows := play_follows hlistener
  have hsynced : ∀ inputs, (Emission.batches (l₀.play inputs).2).flatten =
      l₀.replica.synced (l₀.trace inputs) := by
    intro inputs
    have htwo := l₀.replica.handed_append_pending (l₀.trace inputs)
    rw [← (hfollows inputs).replica, (hfollows inputs).told hpending, hpending, List.append_nil,
      List.nil_append] at htwo
    rw [(hfollows inputs).batches, List.flatten_filter_ne_nil]
    exact htwo
  constructor
  case traced   => exact fun inputs => (hfollows inputs).replica
  case waits    =>
    intro inputs now running waiting
    refine ⟨?_, (hfollows inputs).told hpending⟩
    have hturns := (l₀.play inputs).1.turn_turns now
    rw [waiting] at hturns
    generalize actions _ _ = acts at hturns
    cases hturns with
    | ended stopped            => exact nomatch running.symm.trans stopped
    | waits _ _ _ unsynced     => exact unsynced
  case settles  => exact fun inputs now => turn_settle _ now
  case nonempty =>
    intro inputs batch hbatch
    rw [(hfollows inputs).batches] at hbatch
    exact of_decide_eq_true (List.mem_filter.1 hbatch).2
  case synced   => exact hsynced
  case kept     =>
    intro inputs
    rw [hsynced inputs, (hfollows inputs).replica, Replica.synced_append_unsynced, hunsynced,
      List.map_nil, ite_self, List.nil_append]
  case whole    => exact fun inputs h => Replica.surviving_eq_pushed h
  case ends     =>
    intro inputs stopped
    exact finished_play (fun h => nomatch hrunning.symm.trans h) inputs stopped

end Playing

/-- Two commands are wiped when leadership is lost, and a third one is committed. -/
example :
    let ask (seq : UInt64) : Event :=
      .request (.command (.command [97] [⟨[seq.toUInt8]⟩] ⟨1⟩ ⟨seq⟩))
    let l₀ := opened ⟨"m0"⟩ (some ⟨"m0"⟩) ⟨1⟩ Echo.mk 60
    let inputs : List Input :=
      [.submit 0 (ask 1), .submit 1 (ask 2), .submit 2 (.lead none ⟨2⟩),
        .submit 3 (.lead (some ⟨"m0"⟩) ⟨3⟩), .submit 4 (ask 3), .turn 0, .turn 0, .turn 0, .turn 0,
        .turn 0, .turn 0]
    Emission.batches (l₀.play inputs).2 = [[⟨⟨1⟩, ⟨3⟩⟩]] ∧
      (l₀.replica.pushed (l₀.trace inputs)).length = 3 := by
  decide

end EventLoop

end WitnessReplication

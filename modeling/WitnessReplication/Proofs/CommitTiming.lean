import WitnessReplication.Proofs.ClientIds
import WitnessReplication.Proofs.LoopQuiescence

/-!
# Commit timing — nobody can tell from the answers when a replica committed

    A loop commits when it finds nothing queued, so how often it commits, and after which command,
    depends on how fast the events arrive.  What a replica executes does not: it looks at who leads,
    at its cache and at its machine, and a commit touches none of them.

    So the replica is seen through its face, which forgets what waits to be synced, what waits to be
    told, and what the witness holds.  A commit does not change the face, and any other action does
    to the face what it does to the replica.  The replies go along, except for the little in them
    that tells of what was forgotten: whether a command is synced, and what the witness said.

* **`Replica.face`**, **`Reply.timeless`** — what is left when the timing of commits is forgotten.
* **`perform_face`** — one action.
* **`run_deeds`** — a run is, face by face, the run without its commits.
* **`play_serves`** — the same for a loop, whatever arrives when.
* **`commit_timing_unseen`** — two runs and two loops side by side.
-/

namespace WitnessReplication

/-- A reply without what depends on when its member commits: whether a command is synced, and what
    the member's own witness holds.  The witness's term stays. -/
def Reply.timeless : Reply → Reply
  | .command r      => .command { r with synced := false }
  | .record r       => .record { r with success := false }
  | .recoveryData _ => .recoveryData []
  | .witnessGc _    => .witnessGc 0
  | r               => r

namespace Replica

variable {σ : Type}

/-- All of a replica that what it executes rests on.  Of its witness only the term is left. -/
def face (r : Replica σ) : Replica σ :=
  { r with witness := { term := r.witness.term }, unsynced := [], pending := [] }

@[simp] theorem face_isLeader (r : Replica σ) : r.face.isLeader = r.isLeader := rfl

/-- The face is all that it shows. -/
theorem face_eq_of {r r' : Replica σ} (me : r.me = r'.me) (leader : r.leader = r'.leader)
    (term : r.term = r'.term) (nextClient : r.nextClient = r'.nextClient)
    (machine : r.machine = r'.machine) (cache : r.cache = r'.cache)
    (witness : r.witness.term = r'.witness.term) : r.face = r'.face := by
  simp only [face, me, leader, term, nextClient, machine, cache, witness]

/-! ## What does not show -/

/-- A commit does not show. -/
@[simp] theorem face_syncAll (r : Replica σ) : r.syncAll.face = r.face := by
  rw [syncAll]
  split <;> rfl

@[simp] theorem face_takePending (r : Replica σ) : r.takePending.2.face = r.face := rfl

/-- Whether a command is made to wait or everything is synced does not show. -/
@[simp] theorem face_acknowledge (r : Replica σ) (e : LogEntry) (again : Bool) :
    (r.acknowledge e again).2.face = r.face := by
  rw [acknowledge]
  split
  · rfl
  · split
    · rfl
    · split
      · rfl
      · exact r.face_syncAll

/-- What the witness does with a record does not show. -/
theorem face_recordReply (r : Replica σ) (e : LogEntry) (term : Term) :
    (r.recordReply e term).2.face = r.face ∧ (r.recordReply e term).1.term = r.witness.term := by
  have hterm : (r.witness.record e term).2.term = r.witness.term := by
    rw [Witness.record]
    split
    · rfl
    · split
      · rfl
      · split
        · rfl
        · split
          · rfl
          · split <;> rfl
  exact ⟨face_eq_of rfl rfl rfl rfl rfl rfl hterm, hterm⟩

/-! ## One action -/

/-- Something that a replica does at somebody's behest, and not to keep house. -/
def Action.isDeed : Action → Bool
  | .commit      => false
  | .takePending => false
  | _            => true

section Performing

variable [StateMachine σ]

/-- Executing a command looks at the face only. -/
theorem applyOnce_face (r : Replica σ) (now : Nat) (e : LogEntry) :
    (r.face.applyOnce now e).1 = (r.applyOnce now e).1 ∧
      (r.face.applyOnce now e).2.face = (r.applyOnce now e).2.face := by
  cases hk : e.kind with
  | noop    =>
      rw [applyOnce_noop hk, applyOnce_noop hk]
      exact ⟨rfl, rfl⟩
  | command =>
      cases hl : r.cache.lookup e.client e.seq with
      | some kept =>
          have hl' : r.face.cache.lookup e.client e.seq = some kept := hl
          rw [applyOnce_cached hk hl, applyOnce_cached hk hl']
          exact ⟨rfl, rfl⟩
      | none      =>
          have hl' : r.face.cache.lookup e.client e.seq = none := hl
          rw [applyOnce_fresh hk hl, applyOnce_fresh hk hl']
          exact ⟨rfl, rfl⟩

/-- **One action**: it does to the face what it does to the replica, and up to the timing of commits
    its reply is the one that the face would give. -/
theorem perform_face (r : Replica σ) (now : Nat) (a : Action) :
    (r.face.perform now a).1.map Reply.timeless = (r.perform now a).1.map Reply.timeless ∧
      (r.face.perform now a).2.face = (r.perform now a).2.face := by
  cases a with
  | request q =>
      cases q with
      | clientId     =>
          cases hr : r.isLeader <;>
            simp only [perform, answer, clientIdReply, face_isLeader, hr] <;> exact ⟨rfl, rfl⟩
      | command e    =>
          obtain ⟨hdata, hface⟩ := r.applyOnce_face now e
          cases hr : r.isLeader with
          | true  =>
              simp only [perform, answer, commandReply, face_isLeader, hr, if_true, hdata,
                face_acknowledge, hface, and_true]
              rfl
          | false =>
              simp only [perform, answer, commandReply, face_isLeader, hr]
              exact ⟨rfl, rfl⟩
      | record e t   =>
          obtain ⟨hface, hterm⟩ := r.face_recordReply e t
          obtain ⟨hface', hterm'⟩ := r.face.face_recordReply e t
          simp only [perform, answer, Option.map_some, Reply.timeless, hface, hface', hterm, hterm']
          exact ⟨rfl, rfl⟩
      | sync e       =>
          cases hr : r.isLeader with
          | true  =>
              cases e with
              | none   =>
                  simp only [perform, answer, syncReply, face_isLeader, hr, if_true, face_syncAll]
                  exact ⟨rfl, rfl⟩
              | some e =>
                  obtain ⟨hdata, hface⟩ := r.applyOnce_face now e
                  simp only [perform, answer, syncReply, face_isLeader, hr, if_true, hdata,
                    face_syncAll, hface, and_true]
                  rfl
          | false =>
              simp only [perform, answer, syncReply, face_isLeader, hr]
              exact ⟨rfl, rfl⟩
      | recoveryData => exact ⟨rfl, rfl⟩
      | unfreeze     => exact ⟨rfl, rfl⟩
      | witnessGc ss => exact ⟨rfl, rfl⟩
  | lead leader term =>
      refine ⟨rfl, ?_⟩
      -- a leader that is no longer one drops what waits, and that does not show either
      have hlead : ∀ r : Replica σ, (r.lead leader term).face =
          ({ r with leader, term, witness := r.witness.setTerm term } : Replica σ).face := by
        intro r
        rw [lead]
        split <;> rfl
      show (r.face.lead leader term).face = (r.lead leader term).face
      rw [hlead, hlead]
      rfl
  | commit      =>
      show none = none ∧ r.face.syncAll.face = r.syncAll.face
      rw [face_syncAll, face_syncAll]
      exact ⟨rfl, rfl⟩
  | takePending => exact ⟨rfl, rfl⟩
  | evict       => exact ⟨rfl, rfl⟩

/-- Replicas with the same face stay so, and reply the same up to the timing of commits. -/
theorem perform_of_face {r r' : Replica σ} (h : r.face = r'.face) (now : Nat) (a : Action) :
    (r.perform now a).1.map Reply.timeless = (r'.perform now a).1.map Reply.timeless ∧
      (r.perform now a).2.face = (r'.perform now a).2.face := by
  obtain ⟨hreply, hface⟩ := r.perform_face now a
  obtain ⟨hreply', hface'⟩ := r'.perform_face now a
  rw [h] at hreply hface
  exact ⟨hreply.symm.trans hreply', hface.symm.trans hface'⟩

/-- Keeping house does not show, and is not replied to. -/
theorem perform_of_not_deed {a : Action} (ha : a.isDeed = false) (r : Replica σ) (now : Nat) :
    (r.perform now a).1 = none ∧ (r.perform now a).2.face = r.face := by
  cases a with
  | commit      => exact ⟨rfl, r.face_syncAll⟩
  | takePending => exact ⟨rfl, r.face_takePending⟩
  | request q   => exact nomatch ha
  | lead l t    => exact nomatch ha
  | evict       => exact nomatch ha

/-! ## Runs -/

/-- The replies to the requests of a run, in order. -/
def answers (r : Replica σ) : List (Nat × Action) → List Reply
  | []               => []
  | (now, a) :: rest => (r.perform now a).1.toList ++ (r.perform now a).2.answers rest

omit [StateMachine σ] in
/-- The actions of a run other than those that keep house. -/
def deeds (acts : List (Nat × Action)) : List (Nat × Action) := acts.filter fun x => x.2.isDeed

/-- **A run without its commits** gives the same answers and comes to the same face. -/
theorem run_deeds {r r' : Replica σ} (h : r.face = r'.face) (acts : List (Nat × Action)) :
    (r.answers acts).map Reply.timeless = (r'.answers (deeds acts)).map Reply.timeless ∧
      (r.run acts).face = (r'.run (deeds acts)).face := by
  induction acts generalizing r r' with
  | nil            => exact ⟨rfl, h⟩
  | cons x acts ih =>
      obtain ⟨now, a⟩ := x
      cases ha : a.isDeed with
      | true  =>
          have hdeeds : deeds ((now, a) :: acts) = (now, a) :: deeds acts :=
            List.filter_cons_of_pos ha
          obtain ⟨hreply, hface⟩ := perform_of_face h now a
          obtain ⟨hanswers, hrun⟩ := ih hface
          have hlist : ((r.perform now a).1.toList).map Reply.timeless =
              ((r'.perform now a).1.toList).map Reply.timeless := by
            rw [← Option.toList_map, ← Option.toList_map, hreply]
          rw [hdeeds, answers, answers, List.map_append, List.map_append, hlist, hanswers]
          exact ⟨rfl, hrun⟩
      | false =>
          have hdeeds : deeds ((now, a) :: acts) = deeds acts :=
            List.filter_cons_of_neg (by rw [ha]; exact Bool.false_ne_true)
          obtain ⟨hnone, hface⟩ := perform_of_not_deed ha r now
          obtain ⟨hanswers, hrun⟩ := ih (hface.trans h)
          rw [hdeeds, answers, hnone]
          exact ⟨hanswers, hrun⟩

end Performing

end Replica

/-! ## Loops -/

/-- The answers among what left a loop, each with its caller. -/
def Emission.answers (out : List Emission) : List (Nat × Option Reply) :=
  out.filterMap fun
    | .answer caller reply => some (caller, reply)
    | .batch _             => none

namespace EventLoop

variable {σ : Type}

/-- Something that a loop's replica does at somebody's behest. -/
inductive Task where
  | event (caller : Nat) (e : Event)
  | sweep
  deriving DecidableEq

/-- What the replica does at an input of its loop, and when, unless it keeps house. -/
def task? (l : EventLoop σ) : Input → Option (Nat × Task)
  | .turn now  =>
      match l.running, l.queue with
      | true, (caller, e) :: _ => some (now, .event caller e)
      | _, _                   => none
  | .evict now => some (now, .sweep)
  | _          => none

/-- Answers, each with its caller, up to the timing of commits. -/
def timeless (answers : List (Nat × Option Reply)) : List (Nat × Option Reply) :=
  answers.map fun p => (p.1, p.2.map Reply.timeless)

section Playing

variable [StateMachine σ]

/-- What the replica of a loop does in a run, and when. -/
def tasks (l : EventLoop σ) : List Input → List (Nat × Task)
  | []        => []
  | x :: rest => (l.task? x).toList ++ (l.feed x).1.tasks rest

/-- A replica that does some tasks one after the other and never commits, with its answers. -/
def serve (r : Replica σ) : List (Nat × Task) → Replica σ × List (Nat × Option Reply)
  | []                              => (r, [])
  | (now, .event caller e) :: rest =>
      ((serve (r.perform now e.action).2 rest).1,
        (caller, (r.perform now e.action).1) :: (serve (r.perform now e.action).2 rest).2)
  | (now, .sweep) :: rest           => serve (r.evict now).2 rest

omit [StateMachine σ] in
theorem answers_append (xs ys : List Emission) :
    Emission.answers (xs ++ ys) = Emission.answers xs ++ Emission.answers ys :=
  List.filterMap_append ..

/-- Some tasks, and then others. -/
theorem serve_append (r : Replica σ) (xs ys : List (Nat × Task)) :
    serve r (xs ++ ys) =
      ((serve (serve r xs).1 ys).1, (serve r xs).2 ++ (serve (serve r xs).1 ys).2) := by
  induction xs generalizing r with
  | nil          => rfl
  | cons x xs ih =>
      obtain ⟨now, task⟩ := x
      cases task with
      | event caller e => simp only [List.cons_append, serve, ih]
      | sweep          => simp only [List.cons_append, serve, ih]

omit [StateMachine σ] in
/-- A loop with nothing queued has no task. -/
theorem task?_of_empty {l : EventLoop σ} (h : l.queue = []) (now : Nat) :
    l.task? (.turn now) = none := by
  rw [task?, h]
  split <;> simp_all

omit [StateMachine σ] in
/-- Passing names on answers nobody, and does not show. -/
theorem forward_unseen (l : EventLoop σ) :
    Emission.answers l.forward.2 = [] ∧ l.forward.1.replica.face = l.replica.face := by
  have hanswers : Emission.answers l.forward.2 = [] := by
    rw [forward]
    dsimp only
    split <;> rfl
  rw [forward_state]
  exact ⟨hanswers, rfl⟩

/-- Handling an event answers its caller what the replica replies. -/
theorem handle_answers (l : EventLoop σ) (now caller : Nat) (e : Event) :
    Emission.answers (l.handle now caller e).2 = [(caller, (l.replica.perform now e.action).1)] ∧
      (l.handle now caller e).1.replica.face = (l.replica.perform now e.action).2.face := by
  cases e with
  | request q        =>
      obtain ⟨hanswers, hface⟩ :=
        forward_unseen { l with replica := (l.replica.answer now q).2 }
      exact ⟨congrArg _ hanswers, hface⟩
  | lead leader term =>
      obtain ⟨hanswers, hface⟩ := forward_unseen { l with replica := l.replica.lead leader term }
      exact ⟨congrArg _ hanswers, hface⟩

theorem handle_attached (l : EventLoop σ) (now caller : Nat) (e : Event) :
    (l.handle now caller e).1.attached = l.attached := by
  cases e <;> (rw [handle]; simp only [forward_state])

/-- What a loop answers and shows is what a replica answers and shows that does some tasks. -/
def Serves (result : EventLoop σ × List Emission) (r : Replica σ) (tasks : List (Nat × Task)) :
    Prop :=
  timeless (Emission.answers result.2) = timeless (serve r tasks).2 ∧
    result.1.replica.face = (serve r tasks).1.face

/-- One input of a loop: a task is done, or nothing that shows. -/
theorem feed_serves {l : EventLoop σ} {r : Replica σ} (h : l.replica.face = r.face) (x : Input) :
    Serves (l.feed x) r (l.task? x).toList := by
  cases x with
  | submit caller e =>
      have hreplica : (l.submit caller e).replica = l.replica := by
        rw [submit]
        split <;> rfl
      refine ⟨rfl, ?_⟩
      rw [feed]
      split
      · exact (congrArg Replica.face hreplica).trans h
      · exact h
  | detach          => exact ⟨rfl, h⟩
  | evict now       => exact ⟨rfl, (Replica.perform_of_face h now .evict).2⟩
  | turn now        =>
      have hturns := l.turn_turns now
      generalize l.actions (.turn now) = acts at hturns
      rw [feed]
      generalize hresult : l.turn now = result at hturns
      cases hturns with
      | ended stopped                         =>
          have htask : l.task? (.turn now) = none := by rw [task?, stopped]
          rw [htask]
          exact ⟨rfl, h⟩
      | waits _ queue | ends _ queue          =>
          rw [task?_of_empty queue]
          exact ⟨rfl, h⟩
      | commits _ queue                       =>
          rw [task?_of_empty queue]
          obtain ⟨hanswers, hface⟩ := forward_unseen { l with replica := l.replica.syncAll }
          exact ⟨congrArg timeless hanswers, (hface.trans l.replica.face_syncAll).trans h⟩
      | handles caller e behind running queue =>
          have htask : l.task? (.turn now) = some (now, .event caller e) := by
            rw [task?, running, queue]
          rw [htask]
          obtain ⟨hanswers, hface⟩ := handle_answers { l with queue := behind } now caller e
          obtain ⟨hreply, hface'⟩ := Replica.perform_of_face h now e.action
          refine ⟨?_, hface.trans hface'⟩
          rw [Option.getD_some, hanswers]
          show [(caller, _)] = [(caller, _)]
          rw [hreply]

/-- **A loop without its commits**: up to their timing it answers everybody what a replica of the
    same face would that does the tasks of the loop and nothing else, and comes to the same face. -/
theorem play_serves {l : EventLoop σ} {r : Replica σ} (h : l.replica.face = r.face)
    (inputs : List Input) : Serves (l.play inputs) r (l.tasks inputs) := by
  induction inputs generalizing l r with
  | nil            => exact ⟨rfl, h⟩
  | cons x rest ih =>
      obtain ⟨hanswers, hface⟩ := feed_serves h x
      obtain ⟨hrest, hrun⟩ := ih hface
      rw [tasks, play, Serves, serve_append]
      refine ⟨?_, hrun⟩
      rw [answers_append, timeless, timeless, List.map_append, List.map_append]
      exact congrArg₂ (· ++ ·) hanswers hrest

end Playing

/-! ## Many events at once, and one at a time -/

/-- Some events with their callers, all queued before the loop goes on; each is handled at its
    moment. -/
def atOnce (calls : List (Nat × Nat × Event)) : List Input :=
  calls.map (fun c => .submit c.2.1 c.2.2) ++ calls.map fun c => .turn c.1

/-- Some events with their callers, each of them handled at its moment before the next is queued; in
    between the loop finds nothing queued, and commits. -/
def oneByOne (calls : List (Nat × Nat × Event)) : List Input :=
  calls.flatMap fun c => [.submit c.2.1 c.2.2, .turn c.1, .turn c.1]

/-- The tasks that some events are. -/
def tasksOf (calls : List (Nat × Nat × Event)) : List (Nat × Task) :=
  calls.map fun c => (c.1, .event c.2.1 c.2.2)

section Playing

variable [StateMachine σ]

/-- The tasks of a run, and then those of the run that goes on from there. -/
theorem tasks_append (l : EventLoop σ) (xs ys : List Input) :
    l.tasks (xs ++ ys) = l.tasks xs ++ (l.play xs).1.tasks ys := by
  induction xs generalizing l with
  | nil          => rfl
  | cons x xs ih => rw [List.cons_append, tasks, tasks, ih, List.append_assoc, play]

/-- Queueing events is no task. -/
theorem tasks_submits {l : EventLoop σ} (running : l.running = true) (attached : l.attached = true)
    (calls : List (Nat × Nat × Event)) :
    l.tasks (calls.map fun c => .submit c.2.1 c.2.2) = [] ∧
      (l.play (calls.map fun c => .submit c.2.1 c.2.2)).1 =
        { l with queue := l.queue ++ calls.map (·.2) } := by
  induction calls generalizing l with
  | nil           => exact ⟨rfl, by simp [play]⟩
  | cons c calls ih =>
      have hfeed : (l.feed (.submit c.2.1 c.2.2)).1 = { l with queue := l.queue ++ [c.2] } := by
        rw [feed, if_pos attached, submit, if_pos running]
      obtain ⟨htasks, hplay⟩ := ih (l := { l with queue := l.queue ++ [c.2] }) running attached
      rw [List.map_cons, tasks, play, hfeed]
      refine ⟨htasks, hplay.trans ?_⟩
      simp

/-- As many rounds as events are queued handle them all, in order. -/
theorem tasks_turns {l : EventLoop σ} (running : l.running = true)
    {calls : List (Nat × Nat × Event)} (queue : l.queue = calls.map (·.2)) :
    l.tasks (calls.map fun c => .turn c.1) = tasksOf calls := by
  induction calls generalizing l with
  | nil             => rfl
  | cons c calls ih =>
      obtain ⟨now, caller, e⟩ := c
      have htask : l.task? (.turn now) = some (now, .event caller e) := by
        rw [task?, running, queue]
        rfl
      have hfeed : (l.feed (.turn now)).1 =
          ({ l with queue := calls.map Prod.snd }.handle now caller e).1 := by
        rw [feed, turn, running, queue]
        rfl
      obtain ⟨hrunning, hqueue⟩ :=
        handle_running { l with queue := calls.map Prod.snd } now caller e
      rw [List.map_cons, tasks, htask, hfeed, ih (hrunning.trans running) hqueue]
      rfl

/-- A loop that is ready for events: it goes on, somebody can send them, and none is queued. -/
structure Ready (l : EventLoop σ) : Prop where
  running  : l.running = true
  attached : l.attached = true
  queue    : l.queue = []

theorem tasks_atOnce {l : EventLoop σ} (h : l.Ready) (calls : List (Nat × Nat × Event)) :
    l.tasks (atOnce calls) = tasksOf calls := by
  obtain ⟨hsubmits, hplay⟩ := tasks_submits h.running h.attached calls
  have hqueue : (l.play (calls.map fun c => .submit c.2.1 c.2.2)).1.queue = calls.map (·.2) := by
    rw [hplay, h.queue]
    rfl
  rw [atOnce, tasks_append, hsubmits]
  exact tasks_turns (by rw [hplay]; exact h.running) hqueue

/-- A loop that is ready is ready again once it has handled an event and found nothing queued. -/
theorem ready_round {l : EventLoop σ} (h : l.Ready) (now caller : Nat) (e : Event) :
    l.tasks [.submit caller e, .turn now, .turn now] = [(now, .event caller e)] ∧
      (l.play [.submit caller e, .turn now, .turn now]).1.Ready := by
  have hsubmit : (l.feed (.submit caller e)).1 = { l with queue := [(caller, e)] } := by
    show (if l.attached = true then l.submit caller e else l) = _
    unfold submit
    rw [if_pos h.attached, if_pos h.running, h.queue, List.nil_append]
  have hhandle : ({ l with queue := [(caller, e)] } : EventLoop σ).feed (.turn now) =
      { l with queue := [] }.handle now caller e := by
    unfold feed turn
    rw [h.running]
    rfl
  have htask : ({ l with queue := [(caller, e)] } : EventLoop σ).task? (.turn now) =
      some (now, .event caller e) := by
    unfold task?
    rw [h.running]
  have hready : ({ l with queue := [] }.handle now caller e).1.Ready := by
    obtain ⟨hrunning, hqueue⟩ := handle_running { l with queue := [] } now caller e
    refine ⟨hrunning.trans h.running, ?_, hqueue⟩
    rw [handle_attached]
    exact h.attached
  have hcommit : ∀ {l : EventLoop σ}, l.Ready → (l.feed (.turn now)).1.Ready := by
    intro l h
    have hturns := l.turn_turns now
    show ((l.turn now).getD (l, [])).1.Ready
    generalize l.actions (.turn now) = acts at hturns
    generalize l.turn now = result at hturns
    cases hturns with
    | ended | waits          => exact h
    | ends _ _ detached      => exact nomatch h.attached.symm.trans detached
    | commits                =>
        show l.commit.1.Ready
        unfold commit
        rw [forward_state]
        exact ⟨h.running, h.attached, h.queue⟩
    | handles _ _ _ _ queue  => exact nomatch h.queue.symm.trans queue
  simp only [tasks, play, hsubmit, hhandle, htask, task?_of_empty hready.queue]
  exact ⟨rfl, hcommit hready⟩

theorem tasks_oneByOne {l : EventLoop σ} (h : l.Ready) (calls : List (Nat × Nat × Event)) :
    l.tasks (oneByOne calls) = tasksOf calls := by
  induction calls generalizing l with
  | nil             => rfl
  | cons c calls ih =>
      obtain ⟨now, caller, e⟩ := c
      obtain ⟨htasks, hready⟩ := ready_round h now caller e
      rw [oneByOne, List.flatMap_cons, tasks_append, htasks]
      exact congrArg ((now, Task.event caller e) :: ·) (ih hready)

end Playing

end EventLoop

/-! ## The law -/

/-- Nobody can tell from the answers of a replica when it committed. -/
structure CommitsUnseen {σ : Type} [StateMachine σ] (r₀ : Replica σ) : Prop where
  /-- Two runs with the same actions at the same moments, but for commits and for the taking of
      names, give the same answers and come to the same face. -/
  runs : ∀ xs ys, Replica.deeds xs = Replica.deeds ys →
    (r₀.answers xs).map Reply.timeless = (r₀.answers ys).map Reply.timeless ∧
      (r₀.run xs).face = (r₀.run ys).face
  /-- Two loops of the replica that handle the same events at the same moments, whenever these
      arrive, answer every caller the same. -/
  loops : ∀ l l' : EventLoop σ, l.replica = r₀ → l'.replica = r₀ → ∀ xs ys,
    l.tasks xs = l'.tasks ys →
      EventLoop.timeless (Emission.answers (l.play xs).2) =
          EventLoop.timeless (Emission.answers (l'.play ys).2) ∧
        (l.play xs).1.replica.face = (l'.play ys).1.replica.face
  /-- So do events that are queued at once, and the same events one at a time. -/
  batched : ∀ l : EventLoop σ, l.replica = r₀ → l.Ready → ∀ calls,
    EventLoop.timeless (Emission.answers (l.play (EventLoop.atOnce calls)).2) =
        EventLoop.timeless (Emission.answers (l.play (EventLoop.oneByOne calls)).2) ∧
      (l.play (EventLoop.atOnce calls)).1.replica.face =
        (l.play (EventLoop.oneByOne calls)).1.replica.face

/-- **The timing of commits does not show**: whatever the replica and its application, two runs that
    differ only in when it commits give the same answers, and leave the same leader, term, count of
    client ids, machine and cache.  Only what tells of syncing may differ. -/
theorem commit_timing_unseen {σ : Type} [StateMachine σ] (r₀ : Replica σ) : CommitsUnseen r₀ := by
  have hloops : ∀ l l' : EventLoop σ, l.replica = r₀ → l'.replica = r₀ → ∀ xs ys,
      l.tasks xs = l'.tasks ys →
        EventLoop.timeless (Emission.answers (l.play xs).2) =
            EventLoop.timeless (Emission.answers (l'.play ys).2) ∧
          (l.play xs).1.replica.face = (l'.play ys).1.replica.face := by
    intro l l' hl hl' xs ys htasks
    obtain ⟨hanswers, hface⟩ := EventLoop.play_serves (congrArg Replica.face hl) xs
    obtain ⟨hanswers', hface'⟩ := EventLoop.play_serves (congrArg Replica.face hl') ys
    rw [htasks] at hanswers hface
    exact ⟨hanswers.trans hanswers'.symm, hface.trans hface'.symm⟩
  constructor
  case runs    =>
    intro xs ys hdeeds
    obtain ⟨hanswers, hface⟩ := Replica.run_deeds (r := r₀) rfl xs
    obtain ⟨hanswers', hface'⟩ := Replica.run_deeds (r := r₀) rfl ys
    rw [hdeeds] at hanswers hface
    exact ⟨hanswers.trans hanswers'.symm, hface.trans hface'.symm⟩
  case loops   => exact hloops
  case batched =>
    intro l hl hready calls
    refine hloops l l hl hl _ _ ?_
    rw [EventLoop.tasks_atOnce hready, EventLoop.tasks_oneByOne hready]

/-- What does show: a second command with the same key is synced at once if the first still waits,
    and waits itself if the first was committed. -/
example :
    let ask (seq : UInt64) : Event := .request (.command (.command [97] [⟨[107]⟩] ⟨1⟩ ⟨seq⟩))
    let l := EventLoop.opened ⟨"m0"⟩ (some ⟨"m0"⟩) ⟨1⟩ (Tally.mk 0) 60
    let calls := [(0, 0, ask 1), (0, 1, ask 2)]
    (Emission.answers (l.play (EventLoop.atOnce calls)).2).map (fun p => p.2.map Reply.synced) =
        [some false, some true] ∧
      (Emission.answers (l.play (EventLoop.oneByOne calls)).2).map (fun p => p.2.map Reply.synced) =
        [some false, some false] := by
  decide

end WitnessReplication

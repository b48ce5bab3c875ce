import WitnessReplication.Server
import WitnessReplication.Proofs.CommitTiming

/-!
# Served requests — a server is its replica behind the wire

    A request comes as a frame.  Either it makes no sense, and then the server refuses it and its
    loop never hears of it; or it is the image of exactly one request, and that is queued behind
    whatever waits already.  When all that was ahead of it is handled, its turn comes: the replica
    handles it by its method, and the answer goes back as a frame of the current revision.

    Meanwhile anything may happen: other frames arrive, leadership changes, the cache is swept, the
    last handle is dropped, the loop is killed.  None of this lets a request overtake another one,
    and only the death of the loop keeps a request from being answered.

* **`Wire.Malformed`** and **`Wire.Reads`** — which requests make no sense, and what the others say.
* **`Replica.Handles`** — what each method is answered with, field by field.
* **`Server.Input`**, **`feed`**, **`play`** — what happens at a server, and what leaves it.
* **`Server.Fate`** — what can become of a request that was queued.
* **`fate_play`** — it has one of these fates, whatever happens next.
* **`replica_behind_wire`** — all of it, for every frame and every loop.
-/

namespace WitnessReplication

-- ── Frames that make no sense ────────────────────────────────────────────────────────────────────

namespace Wire

/-- Nothing is written with this kind. -/
def RawEntry.Unknown (e : RawEntry) : Prop := e.kind ≠ 0 ∧ e.kind ≠ 1

/-- A request makes no sense: it lacks an entry that it cannot do without, or has one of a kind that
    nobody knows.  The number of the kind is read as one with a sign. -/
inductive Malformed : RawRequest → Malformation → Prop where
  | commandLacks : Malformed (.command none) (.missingEntry "ClientRequest")
  | recordLacks (t : UInt64) : Malformed (.record none t) (.missingEntry "RecordRequest")
  | command (e : RawEntry) (unknown : e.Unknown) :
      Malformed (.command (some e)) (.unknownKind e.kind.toInt32.toInt)
  | record (e : RawEntry) (t : UInt64) (unknown : e.Unknown) :
      Malformed (.record (some e) t) (.unknownKind e.kind.toInt32.toInt)
  | sync (e : RawEntry) (unknown : e.Unknown) :
      Malformed (.sync (some e)) (.unknownKind e.kind.toInt32.toInt)

/-- A request as it is written, and what it is read as: it is the image of the request that it is
    read as, or makes no sense. -/
inductive Reads : RawRequest → Except Malformation Request → Prop where
  | image (q : Request) : Reads (toRequestFrame (.seal q)).body (.ok q)
  | fault {raw : RawRequest} {cause : Malformation} (malformed : Malformed raw cause) :
      Reads raw (.error cause)

theorem RawEntry.entry_unknown {e : RawEntry} (h : e.Unknown) :
    e.entry = .error (.unknownKind e.kind.toInt32.toInt) := by
  rw [entry, if_neg h.1, if_neg h.2]

/-- An entry is the image of a log entry, or of an unknown kind. -/
theorem RawEntry.image_or_unknown (e : RawEntry) : (∃ entry, e = .ofEntry entry) ∨ e.Unknown := by
  obtain ⟨kind, data, keys, client, seq⟩ := e
  have hkeys : (keys.map fun k => (⟨k⟩ : Key)).map (·.bytes) = keys := by
    rw [List.map_map]
    exact List.map_id keys
  by_cases h0 : kind = 0
  · refine .inl ⟨⟨.command, data, keys.map (⟨·⟩), ⟨client⟩, ⟨seq⟩⟩, ?_⟩
    rw [ofEntry, hkeys, h0]
    rfl
  · by_cases h1 : kind = 1
    · refine .inl ⟨⟨.noop, data, keys.map (⟨·⟩), ⟨client⟩, ⟨seq⟩⟩, ?_⟩
      rw [ofEntry, hkeys, h1]
      rfl
    · exact .inr ⟨h0, h1⟩

/-- **Every request is read one way or the other**. -/
theorem request_reads (raw : RawRequest) : Reads raw raw.request := by
  cases raw with
  | clientId         => exact .image .clientId
  | recoveryData     => exact .image .recoveryData
  | unfreeze         => exact .image .unfreeze
  | witnessGc synced => exact .image (.witnessGc synced)
  | command entry?   =>
      cases entry? with
      | none   => exact .fault .commandLacks
      | some e =>
          rw [RawRequest.request, RawEntry.required]
          rcases e.image_or_unknown with ⟨entry, rfl⟩ | h
          · rw [RawEntry.entry_ofEntry]
            exact .image (.command entry)
          · rw [RawEntry.entry_unknown h]
            exact .fault (.command e h)
  | record entry? t  =>
      cases entry? with
      | none   => exact .fault (.recordLacks t)
      | some e =>
          rw [RawRequest.request, RawEntry.required]
          rcases e.image_or_unknown with ⟨entry, rfl⟩ | h
          · rw [RawEntry.entry_ofEntry]
            exact .image (.record entry ⟨t⟩)
          · rw [RawEntry.entry_unknown h]
            exact .fault (.record e t h)
  | sync entry?      =>
      cases entry? with
      | none   => exact .image (.sync none)
      | some e =>
          rw [RawRequest.request, RawEntry.optional]
          rcases e.image_or_unknown with ⟨entry, rfl⟩ | h
          · rw [RawEntry.entry_ofEntry]
            exact .image (.sync (some entry))
          · rw [RawEntry.entry_unknown h]
            exact .fault (.sync e h)

/-- What is read is the image of what it is read as. -/
theorem request_image {raw : RawRequest} {q : Request} (h : raw.request = .ok q) :
    raw = (toRequestFrame (.seal q)).body := by
  have hreads := request_reads raw
  rw [h] at hreads
  cases hreads with
  | image => rfl

/-- A request is malformed exactly if it cannot be read, and for this reason. -/
theorem malformed_iff {raw : RawRequest} {cause : Malformation} :
    Malformed raw cause ↔ raw.request = .error cause := by
  constructor
  · intro h
    cases h with
    | commandLacks | recordLacks => rfl
    | command e h | record e _ h =>
        rw [RawRequest.request, RawEntry.required, RawEntry.entry_unknown h]
        rfl
    | sync e h                   =>
        rw [RawRequest.request, RawEntry.optional, RawEntry.entry_unknown h]
        rfl
  · intro h
    have hreads := request_reads raw
    rw [h] at hreads
    cases hreads with
    | fault malformed => exact malformed

end Wire

-- ── What each method is answered with ────────────────────────────────────────────────────────────

open Wire (Frame RawRequest RawReply RawEntry hintText toRequestFrame Malformed Malformation)

namespace Replica

variable {σ : Type} [StateMachine σ]

/-- A replica handles a request as it is written: each method has its handler, and of the handler's
    answer every field is written. -/
inductive Handles (r : Replica σ) (now : Nat) : RawRequest → RawReply → Replica σ → Prop where
  | clientId (c : ClientIdReply) (r' : Replica σ) (handled : r.clientIdReply = (c, r')) :
      Handles r now .clientId (.clientId c.success c.client.val (hintText c.hint)) r'
  | command (e : LogEntry) (c : CommandReply) (r' : Replica σ)
      (handled : r.commandReply now e = (c, r')) :
      Handles r now (.command (some (.ofEntry e)))
        (.command c.success (hintText c.hint) c.data c.synced) r'
  | record (e : LogEntry) (t : UInt64) (c : RecordReply) (r' : Replica σ)
      (handled : r.recordReply e ⟨t⟩ = (c, r')) :
      Handles r now (.record (some (.ofEntry e)) t) (.record c.success c.term.val) r'
  | sync (e : Option LogEntry) (c : SyncReply) (r' : Replica σ)
      (handled : r.syncReply now e = (c, r')) :
      Handles r now (.sync (e.map .ofEntry)) (.sync c.success (hintText c.hint) c.data) r'
  | recoveryData (es : List LogEntry) (r' : Replica σ) (handled : r.recover = (es, r')) :
      Handles r now .recoveryData (.recoveryData (es.map .ofEntry)) r'
  | unfreeze : Handles r now .unfreeze .unfreeze r.unfreeze
  | witnessGc (synced : List RequestId) (removed : Nat) (r' : Replica σ)
      (handled : r.collect synced = (removed, r')) :
      Handles r now (.witnessGc synced) (.witnessGc (UInt64.ofNat removed)) r'

/-- What a replica answers to a request, seen from the wire. -/
theorem answer_handles (r : Replica σ) (now : Nat) (q : Request) :
    ∃ raw, Server.reply (r.answer now q).1 = ⟨some .current, raw⟩ ∧
      r.Handles now (toRequestFrame (.seal q)).body raw (r.answer now q).2 := by
  cases q with
  | clientId     => exact ⟨_, rfl, .clientId _ _ rfl⟩
  | command e    => exact ⟨_, rfl, .command e _ _ rfl⟩
  | record e t   => exact ⟨_, rfl, .record e t.val _ _ rfl⟩
  | sync e       => exact ⟨_, rfl, .sync e _ _ rfl⟩
  | recoveryData => exact ⟨_, rfl, .recoveryData _ _ rfl⟩
  | unfreeze     => exact ⟨_, rfl, .unfreeze⟩
  | witnessGc ss => exact ⟨_, rfl, .witnessGc ss _ _ rfl⟩

end Replica

/-- The actions of a run that somebody asked for, without the taking of names and the sweeps. -/
def Replica.asked (acts : List (Nat × Replica.Action)) : List Replica.Action :=
  (acts.map (·.2)).filter fun a => a ≠ .takePending ∧ a ≠ .evict

theorem Replica.asked_append (xs ys : List (Nat × Replica.Action)) :
    asked (xs ++ ys) = asked xs ++ asked ys := by
  rw [asked, List.map_append, List.filter_append]
  rfl

/-- Handling an event is all that somebody asked for in the round. -/
theorem Event.asked_action (e : Event) (now : Nat) :
    Replica.asked [(now, e.action), (now, .takePending)] = [e.action] := by
  cases e <;> rfl

namespace Server

variable {σ : Type}

-- ── What happens at a server ─────────────────────────────────────────────────────────────────────

/-- What happens at a server: a frame arrives from a caller, or something happens to the loop. -/
inductive Input where
  | call (caller : Nat) (frame : Frame RawRequest)
  | loop (x : EventLoop.Input)
  | kill

/-- The caller that an input comes from. -/
def Input.caller? : Input → Option Nat
  | .call caller _          => some caller
  | .loop (.submit caller _) => some caller
  | _                       => none

/-- The loop is let go on for a round. -/
def Input.isTurn : Input → Bool
  | .loop (.turn _) => true
  | _               => false

/-- How many rounds a loop is let go on for. -/
def rounds (xs : List Input) : Nat := xs.countP Input.isTurn

/-- What a caller is answered with. -/
abbrev Response := Nat × Except Refusal (Frame RawReply)

/-- The answers among what leaves a loop, as frames. -/
def responses (out : List Emission) : List Response :=
  (Emission.answers out).filterMap fun p => p.2.map fun r => (p.1, .ok (reply r))

/-- Those whose requests are lost with a loop. -/
def forsaken (l : EventLoop σ) : List Response :=
  l.queue.filterMap fun p =>
    match p.2 with
    | .request _ => some (p.1, .error .unavailable)
    | .lead _ _  => none

/-- What a caller hears. -/
def heard (caller : Nat) (rs : List Response) : List (Except Refusal (Frame RawReply)) :=
  (rs.filter (·.1 = caller)).map (·.2)

theorem heard_append (caller : Nat) (rs ss : List Response) :
    heard caller (rs ++ ss) = heard caller rs ++ heard caller ss := by
  rw [heard, List.filter_append, List.map_append]
  rfl

theorem heard_eq_nil {caller : Nat} {rs : List Response} (h : ∀ p ∈ rs, p.1 ≠ caller) :
    heard caller rs = [] := by
  have hnone : rs.filter (·.1 = caller) = [] :=
    List.filter_eq_nil_iff.2 fun p hp => by simpa using h p hp
  rw [heard, hnone]
  rfl

section Playing

variable [StateMachine σ]

/-- What is left after an input: the loop, the answers, and the batches for the other witnesses. -/
structure Outcome (σ : Type) where
  loop    : EventLoop σ
  answers : List Response := []
  batches : List (List RequestId) := []

/-- A server at an input. -/
def feed (l : EventLoop σ) : Input → Outcome σ
  | .call caller frame =>
      match receive l caller frame with
      | .ok l'         => { loop := l' }
      | .error refusal => { loop := l, answers := [(caller, .error refusal)] }
  | .loop x =>
      let (l', out) := l.feed x
      { loop := l', answers := responses out, batches := Emission.batches out }
  | .kill => { loop := l.kill, answers := forsaken l }

/-- A server at some inputs, one after the other. -/
def play (l : EventLoop σ) : List Input → Outcome σ
  | []      => { loop := l }
  | x :: xs =>
      let first := feed l x
      let rest := play first.loop xs
      { rest with
        answers := first.answers ++ rest.answers
        batches := first.batches ++ rest.batches }

-- ── What becomes of a request ────────────────────────────────────────────────────────────────────

/-- What can have become of a caller's request, written as `body`, when `xs` has happened since it
    came to stand behind `ahead` in the queue of `l`:

    * it still waits, and there have been no more rounds than what was ahead of it takes;
    * there has been a round more, and in this round it was handled, by a replica that had until
      then done what was asked by those ahead, in order, and nothing else that anybody asked for;
    * or the loop was killed before that round. -/
inductive Fate (l : EventLoop σ) (ahead : List (Nat × Event)) (caller : Nat) (body : RawRequest)
    (xs : List Input) : Prop where
  | waits (silent : heard caller (play l xs).answers = [])
      (running : (play l xs).loop.running = true) (soon : rounds xs ≤ ahead.length)
  | answered (before after : List Input) (now : Nat) (acts : List (Nat × Replica.Action))
      (raw : RawReply) (r' : Replica σ)
      (split : xs = before ++ .loop (.turn now) :: after)
      (due : rounds before = ahead.length)
      (course : (play l before).loop.replica = l.replica.run acts)
      (order : Replica.asked acts = ahead.map (·.2.action))
      (handled : (play l before).loop.replica.Handles now body raw r')
      (next : (play l (before ++ [.loop (.turn now)])).loop.replica = r'.takePending.2)
      (told : heard caller (play l xs).answers = [.ok ⟨some .current, raw⟩])
  | lost (before after : List Input) (split : xs = before ++ .kill :: after)
      (early : rounds before ≤ ahead.length)
      (told : heard caller (play l xs).answers = [.error .unavailable])

theorem play_cons (l : EventLoop σ) (x : Input) (xs : List Input) :
    (play l (x :: xs)).loop = (play (feed l x).loop xs).loop ∧
      (play l (x :: xs)).answers = (feed l x).answers ++ (play (feed l x).loop xs).answers :=
  ⟨rfl, rfl⟩

/-- An input that the caller does not hear of, and that brings its request forward by what is
    handled there, leaves it to its fate. -/
theorem Fate.cons {l : EventLoop σ} {x : Input} {xs : List Input} {caller : Nat} {body : RawRequest}
    {ahead : List (Nat × Event)} (done : List (Nat × Event)) (acts : List (Nat × Replica.Action))
    (replica : (feed l x).loop.replica = l.replica.run acts)
    (asked : Replica.asked acts = done.map (·.2.action)) (rank : rounds [x] = done.length)
    (silent : heard caller (feed l x).answers = [])
    (h : Fate (feed l x).loop ahead caller body xs) :
    Fate l (done ++ ahead) caller body (x :: xs) := by
  have hheard : heard caller (play l (x :: xs)).answers =
      heard caller (play (feed l x).loop xs).answers := by
    rw [(play_cons l x xs).2, heard_append, silent, List.nil_append]
  have hrounds : ∀ ys, rounds (x :: ys) = done.length + rounds ys := by
    intro ys
    rw [← rank]
    show ([x] ++ ys).countP _ = _
    exact List.countP_append
  cases h with
  | waits none running soon                                                      =>
      refine .waits (hheard.trans none) running ?_
      rw [hrounds, List.length_append]
      exact Nat.add_le_add_left soon _
  | answered before after now later raw r' split due course order handled next told =>
      refine .answered (x :: before) after now (acts ++ later) raw r' (congrArg _ split) ?_ ?_ ?_
        handled next (hheard.trans told)
      · rw [hrounds, List.length_append, due]
      · rw [Replica.run_append, ← replica]
        exact course
      · rw [Replica.asked_append, asked, order, List.map_append]
  | lost before after split early told                                           =>
      refine .lost (x :: before) after (congrArg _ split) ?_ (hheard.trans told)
      rw [hrounds, List.length_append]
      exact Nat.add_le_add_left early _

-- ── One input ────────────────────────────────────────────────────────────────────────────────────

/-- A caller has nothing queued. -/
def Absent (caller : Nat) (queue : List (Nat × Event)) : Prop := ∀ p ∈ queue, p.1 ≠ caller

/-- A frame that makes no sense is refused, whatever the loop does, and nothing else happens. -/
theorem feed_malformed {frame : Frame RawRequest} {cause : Malformation}
    (h : Malformed frame.body cause) (l : EventLoop σ) (caller : Nat) :
    feed l (.call caller frame) =
      { loop := l, answers := [(caller, .error (.invalidArgument cause))] } := by
  have hreceive : receive l caller frame = .error (.invalidArgument cause) := by
    rw [receive, accept, Wire.malformed_iff.1 h]
    rfl
  rw [feed, hreceive]

/-- A sound one is queued behind all others if the loop goes on. -/
theorem feed_running {l : EventLoop σ} (h : l.running = true) {frame : Frame RawRequest}
    {q : Request} (hq : frame.body.request = .ok q) (caller : Nat) :
    feed l (.call caller frame) =
      { loop := { l with queue := l.queue ++ [(caller, .request q)] } } := by
  have hreceive : receive l caller frame =
      .ok { l with queue := l.queue ++ [(caller, .request q)] } := by
    simp only [receive, accept, hq, h, if_true, Except.map, EventLoop.submit]
  rw [feed, hreceive]

/-- And if it does not, it is refused. -/
theorem feed_gone {l : EventLoop σ} (h : l.running = false) {frame : Frame RawRequest}
    {q : Request} (hq : frame.body.request = .ok q) (caller : Nat) :
    feed l (.call caller frame) = { loop := l, answers := [(caller, .error .unavailable)] } := by
  have hreceive : receive l caller frame = .error .unavailable := by
    simp only [receive, accept, hq, h, Bool.false_eq_true, if_false, Except.map]
  rw [feed, hreceive]

/-- Whatever somebody else asks, a loop has at most one event more, at the end, and a caller does
    not hear of it. -/
theorem feed_call (l : EventLoop σ) {c caller : Nat} (hother : c ≠ caller)
    (frame : Frame RawRequest) :
    ∃ new : List (Nat × Event), Absent caller new ∧
      (feed l (.call c frame)).loop = { l with queue := l.queue ++ new } ∧
      heard caller (feed l (.call c frame)).answers = [] := by
  have hsame : l = { l with queue := l.queue ++ [] } := by rw [List.append_nil]
  have hunheard : ∀ answer, heard caller [(c, answer)] = [] := fun _ =>
    heard_eq_nil (List.forall_mem_singleton.2 hother)
  cases hbody : frame.body.request with
  | error cause =>
      rw [feed_malformed (Wire.malformed_iff.2 hbody)]
      exact ⟨[], List.forall_mem_nil _, hsame, hunheard _⟩
  | ok q        =>
      rcases Bool.eq_false_or_eq_true l.running with hrunning | hrunning
      · rw [feed_running hrunning hbody]
        exact ⟨[(c, .request q)], List.forall_mem_singleton.2 hother, rfl, rfl⟩
      · rw [feed_gone hrunning hbody]
        exact ⟨[], List.forall_mem_nil _, hsame, hunheard _⟩

/-- The same for an event from elsewhere. -/
theorem feed_submit (l : EventLoop σ) {c caller : Nat} (hother : c ≠ caller) (e : Event) :
    ∃ new : List (Nat × Event), Absent caller new ∧
      (feed l (.loop (.submit c e))).loop = { l with queue := l.queue ++ new } ∧
      heard caller (feed l (.loop (.submit c e))).answers = [] := by
  have hsame : l = { l with queue := l.queue ++ [] } := by rw [List.append_nil]
  show ∃ new : List (Nat × Event), _ ∧ (l.feed (.submit c e)).1 = _ ∧
    heard caller (responses (l.feed (.submit c e)).2) = _
  rw [EventLoop.feed]
  split
  · rw [EventLoop.submit]
    split
    · exact ⟨[(c, e)], List.forall_mem_singleton.2 hother, rfl, rfl⟩
    · exact ⟨[], List.forall_mem_nil _, hsame, rfl⟩
  · exact ⟨[], List.forall_mem_nil _, hsame, rfl⟩

/-- A round of a loop with something queued answers the oldest. -/
theorem feed_turn {l : EventLoop σ} (running : l.running = true) {caller : Nat} {e : Event}
    {rest : List (Nat × Event)} (queue : l.queue = (caller, e) :: rest) (now : Nat) :
    (feed l (.loop (.turn now))).loop.replica =
        l.replica.run [(now, e.action), (now, .takePending)] ∧
      (feed l (.loop (.turn now))).loop.running = true ∧
      (feed l (.loop (.turn now))).loop.queue = rest ∧
      (feed l (.loop (.turn now))).answers =
        ((l.replica.perform now e.action).1.map fun r => (caller, .ok (reply r))).toList := by
  have hfeed : l.feed (.turn now) = { l with queue := rest }.handle now caller e := by
    rw [EventLoop.feed, EventLoop.turn, running, queue]
    rfl
  have hreplica : ({ l with queue := rest }.handle now caller e).1.replica =
      l.replica.run [(now, e.action), (now, .takePending)] := by
    cases e <;> (rw [EventLoop.handle]; simp only [EventLoop.forward_state]; rfl)
  obtain ⟨hrunning, hqueue⟩ :=
    EventLoop.handle_running { l with queue := rest } now caller e
  obtain ⟨hanswers, _⟩ := EventLoop.handle_answers { l with queue := rest } now caller e
  show (l.feed (.turn now)).1.replica = _ ∧ (l.feed (.turn now)).1.running = true ∧
    (l.feed (.turn now)).1.queue = rest ∧ responses (l.feed (.turn now)).2 = _
  rw [hfeed]
  refine ⟨hreplica, hrunning.trans running, hqueue, ?_⟩
  rw [responses, hanswers]
  cases e <;> rfl

/-- A round of a loop with nothing queued answers nobody. -/
theorem feed_turn_idle {l : EventLoop σ} (h : l.running = false ∨ l.queue = []) (now : Nat) :
    (feed l (.loop (.turn now))).answers = [] ∧
      (feed l (.loop (.turn now))).loop.queue = l.queue := by
  have hturns := l.turn_turns now
  show responses (l.feed (.turn now)).2 = [] ∧ (l.feed (.turn now)).1.queue = l.queue
  rw [EventLoop.feed]
  generalize l.actions (.turn now) = acts at hturns
  generalize l.turn now = result at hturns
  cases hturns with
  | ended | waits | ends           => exact ⟨rfl, rfl⟩
  | commits                        =>
      obtain ⟨hanswers, _⟩ := EventLoop.forward_unseen { l with replica := l.replica.syncAll }
      show responses (EventLoop.forward _).2 = [] ∧ (EventLoop.forward _).1.queue = _
      rw [responses, hanswers, EventLoop.forward_state]
      exact ⟨rfl, rfl⟩
  | handles _ _ rest running queue =>
      rcases h with h | h
      · exact absurd (h.symm.trans running) Bool.false_ne_true
      · exact absurd (h.symm.trans queue) (List.cons_ne_nil _ rest).symm

omit [StateMachine σ] in
/-- Who is told that a loop was killed had something queued. -/
theorem mem_forsaken {l : EventLoop σ} {p : Response} (h : p ∈ forsaken l) :
    ∃ e, (p.1, e) ∈ l.queue := by
  obtain ⟨⟨caller, e⟩, hmem, hsome⟩ := List.mem_filterMap.1 h
  cases e with
  | request q  =>
      obtain rfl := Option.some.inj hsome
      exact ⟨_, hmem⟩
  | lead _ _   => exact nomatch hsome

-- ── Somebody who asked for nothing ───────────────────────────────────────────────────────────────

/-- A caller who has nothing queued, and asks for nothing, has nothing queued afterwards and hears
    nothing. -/
theorem feed_absent {l : EventLoop σ} {caller : Nat} (h : Absent caller l.queue) {x : Input}
    (hx : x.caller? ≠ some caller) :
    Absent caller (feed l x).loop.queue ∧ heard caller (feed l x).answers = [] := by
  cases x with
  | call c frame =>
      obtain ⟨new, hnew, hloop, hsilent⟩ := feed_call l (fun heq => hx (congrArg some heq)) frame
      rw [hloop]
      exact ⟨List.forall_mem_append.2 ⟨h, hnew⟩, hsilent⟩
  | kill         =>
      refine ⟨List.forall_mem_nil _, heard_eq_nil fun p hp => ?_⟩
      obtain ⟨e, hmem⟩ := mem_forsaken hp
      exact h _ hmem
  | loop x       =>
      cases x with
      | submit c e =>
          obtain ⟨new, hnew, hloop, hsilent⟩ := feed_submit l (fun heq => hx (congrArg some heq)) e
          rw [hloop]
          exact ⟨List.forall_mem_append.2 ⟨h, hnew⟩, hsilent⟩
      | detach     => exact ⟨h, rfl⟩
      | evict now  => exact ⟨h, rfl⟩
      | turn now   =>
          cases hrunning : l.running with
          | false =>
              obtain ⟨hanswers, hqueue⟩ := feed_turn_idle (.inl hrunning) now
              rw [hanswers, hqueue]
              exact ⟨h, rfl⟩
          | true  =>
              cases hqueue : l.queue with
              | nil          =>
                  obtain ⟨hanswers, hqueue⟩ := feed_turn_idle (.inr hqueue) now
                  rw [hanswers, hqueue]
                  exact ⟨h, rfl⟩
              | cons p rest =>
                  obtain ⟨c, e⟩ := p
                  rw [hqueue] at h
                  obtain ⟨hother, hrest⟩ := List.forall_mem_cons.1 h
                  obtain ⟨_, _, hafter, hanswers⟩ := feed_turn hrunning hqueue now
                  rw [hafter, hanswers]
                  refine ⟨hrest, heard_eq_nil fun p hp => ?_⟩
                  obtain ⟨r, _, rfl⟩ := Option.map_eq_some_iff.1 (Option.mem_toList.1 hp)
                  exact hother

theorem play_absent {l : EventLoop σ} {caller : Nat} (h : Absent caller l.queue)
    {xs : List Input} (hxs : ∀ x ∈ xs, x.caller? ≠ some caller) :
    heard caller (play l xs).answers = [] := by
  induction xs generalizing l with
  | nil          => rfl
  | cons x xs ih =>
      obtain ⟨hx, hrest⟩ := List.forall_mem_cons.1 hxs
      obtain ⟨habsent, hsilent⟩ := feed_absent h hx
      rw [(play_cons l x xs).2, heard_append, hsilent, ih habsent hrest]
      rfl

-- ── A request that was queued ────────────────────────────────────────────────────────────────────

omit [StateMachine σ] in
/-- Whose request was queued when the loop is killed is told so. -/
theorem heard_forsaken {l : EventLoop σ} {caller : Nat} {q : Request}
    {ahead behind : List (Nat × Event)} (queue : l.queue = ahead ++ (caller, .request q) :: behind)
    (hahead : Absent caller ahead) (hbehind : Absent caller behind) :
    heard caller (forsaken l) = [.error .unavailable] := by
  have hnone : ∀ {queue : List (Nat × Event)}, Absent caller queue →
      heard caller (forsaken { l with queue }) = [] := fun h =>
    heard_eq_nil fun p hp => (mem_forsaken hp).elim fun e hmem => h _ hmem
  have hsplit : forsaken l = forsaken { l with queue := ahead } ++
      (caller, .error .unavailable) :: forsaken { l with queue := behind } := by
    rw [forsaken, queue, List.filterMap_append]
    rfl
  have hmine : heard caller [(caller, .error .unavailable)] = [.error .unavailable] := by
    simp [heard]
  rw [hsplit, heard_append, hnone hahead, List.nil_append, ← List.singleton_append, heard_append,
    hnone hbehind, hmine]
  rfl

/-- **A request has one of its fates**, as long as nobody else uses the number of its caller. -/
theorem fate_play {l : EventLoop σ} (running : l.running = true) {caller : Nat} {q : Request}
    {ahead behind : List (Nat × Event)}
    (queue : l.queue = ahead ++ (caller, .request q) :: behind)
    (hahead : Absent caller ahead) (hbehind : Absent caller behind) {xs : List Input}
    (hxs : ∀ x ∈ xs, x.caller? ≠ some caller) :
    Fate l ahead caller (toRequestFrame (.seal q)).body xs := by
  induction xs generalizing l ahead behind with
  | nil          => exact .waits rfl running (Nat.zero_le _)
  | cons x xs ih =>
      obtain ⟨hx, hrest⟩ := List.forall_mem_cons.1 hxs
      -- whoever joins the queue stands behind the request
      have hjoined : ∀ new : List (Nat × Event), Absent caller new →
          (feed l x).loop = { l with queue := l.queue ++ new } →
          heard caller (feed l x).answers = [] → rounds [x] = 0 →
          Fate l ahead caller (toRequestFrame (.seal q)).body (x :: xs) := by
        intro new hnew hloop hsilent hrank
        have hqueue : (feed l x).loop.queue = ahead ++ (caller, .request q) :: (behind ++ new) := by
          rw [hloop]
          show l.queue ++ new = _
          rw [queue, List.append_assoc]
          rfl
        have hrunning : (feed l x).loop.running = true := by
          rw [hloop]
          exact running
        have hreplica : (feed l x).loop.replica = l.replica := by
          rw [hloop]
        exact .cons [] [] hreplica rfl hrank hsilent
          (ih hrunning hqueue hahead (List.forall_mem_append.2 ⟨hbehind, hnew⟩) hrest)
      cases x with
      | call c frame =>
          obtain ⟨new, hnew, hloop, hsilent⟩ :=
            feed_call l (fun heq => hx (congrArg some heq)) frame
          exact hjoined new hnew hloop hsilent rfl
      | kill         =>
          refine .lost [] xs rfl (Nat.zero_le _) ?_
          have habsent : Absent caller l.kill.queue := List.forall_mem_nil _
          rw [(play_cons l .kill xs).2, heard_append]
          show heard caller (forsaken l) ++ heard caller (play l.kill xs).answers = _
          rw [heard_forsaken queue hahead hbehind, play_absent habsent hrest]
          rfl
      | loop x       =>
          cases x with
          | submit c e =>
              obtain ⟨new, hnew, hloop, hsilent⟩ :=
                feed_submit l (fun heq => hx (congrArg some heq)) e
              exact hjoined new hnew hloop hsilent rfl
          | detach     =>
              have hrest := @ih l.detach running _ _ queue hahead hbehind hrest
              exact .cons [] [] rfl rfl rfl rfl hrest
          | evict now  =>
              have hrest := @ih { l with replica := (l.replica.evict now).2 } running _ _ queue
                hahead hbehind hrest
              exact .cons [] [(now, .evict)] rfl rfl rfl rfl hrest
          | turn now   =>
              cases ahead with
              | nil             =>
                  obtain ⟨hreplica, _, hqueue, hanswers⟩ := feed_turn running queue now
                  obtain ⟨raw, hframe, hhandles⟩ := l.replica.answer_handles now q
                  refine .answered [] xs now [] raw _ rfl rfl rfl rfl hhandles hreplica ?_
                  have hmine : heard caller (feed l (.loop (.turn now))).answers =
                      [.ok ⟨some .current, raw⟩] := by
                    rw [hanswers, ← hframe]
                    show heard caller [(caller, _)] = _
                    simp [heard]
                  rw [(play_cons l (.loop (.turn now)) xs).2, heard_append, hmine,
                    play_absent (hqueue ▸ hbehind) hrest]
                  rfl
              | cons p ahead    =>
                  obtain ⟨c, e⟩ := p
                  obtain ⟨hother, hahead'⟩ := List.forall_mem_cons.1 hahead
                  obtain ⟨hreplica, hrunning, hqueue, hanswers⟩ := feed_turn running queue now
                  refine .cons [(c, e)] _ hreplica (e.asked_action now) rfl
                    (heard_eq_nil fun p hp => ?_) (ih hrunning hqueue hahead' hbehind hrest)
                  obtain ⟨r, _, rfl⟩ :=
                    Option.map_eq_some_iff.1 (Option.mem_toList.1 (hanswers ▸ hp))
                  exact hother

-- ── The law ──────────────────────────────────────────────────────────────────────────────────────

/-- Nobody else uses the number of a caller, neither among what is queued nor among what comes. -/
structure Fresh (caller : Nat) (l : EventLoop σ) (xs : List Input) : Prop where
  queued : Absent caller l.queue
  later  : ∀ x ∈ xs, x.caller? ≠ some caller

/-- How a server stands in front of its replica when a frame arrives. -/
structure Fronts (l : EventLoop σ) (caller : Nat) (frame : Frame RawRequest) : Prop where
  /-- A frame that makes no sense is refused for what is wrong with it, whether the loop goes on or
      not.  The loop stays as it is, with its replica and its queue, and no batch is passed on. -/
  malformed : ∀ cause, Malformed frame.body cause →
    feed l (.call caller frame) =
      { loop := l, answers := [(caller, .error (.invalidArgument cause))] }
  /-- Once the loop has ended, any other frame is refused as unavailable. -/
  gone : l.running = false → (∀ cause, ¬ Malformed frame.body cause) →
    feed l (.call caller frame) = { loop := l, answers := [(caller, .error .unavailable)] }
  /-- As long as it goes on, any other frame is the image of a request.  This is queued behind all
      that waits, nobody is answered as yet, and then the request has one of its fates. -/
  served : l.running = true → (∀ cause, ¬ Malformed frame.body cause) →
    ∃ q, frame.body = (toRequestFrame (.seal q)).body ∧
      feed l (.call caller frame) =
        { loop := { l with queue := l.queue ++ [(caller, .request q)] } } ∧
      ∀ xs, Fresh caller l xs →
        Fate { l with queue := l.queue ++ [(caller, .request q)] } l.queue caller frame.body xs
  /-- So the caller is told that its argument was invalid if it was, and never else. -/
  invalid_iff : ∀ xs cause, Fresh caller l xs →
    (.error (.invalidArgument cause) ∈
        heard caller (play l (.call caller frame :: xs)).answers ↔
      Malformed frame.body cause)

/-- What a caller hears of a request that was queued is no word about its argument. -/
theorem Fate.valid {l : EventLoop σ} {ahead : List (Nat × Event)} {caller : Nat}
    {body : RawRequest} {xs : List Input} (h : Fate l ahead caller body xs) (cause : Malformation) :
    .error (.invalidArgument cause) ∉ heard caller (play l xs).answers := by
  cases h with
  | waits silent                               => simp [silent]
  | answered _ _ _ _ _ _ _ _ _ _ _ _ told      => simp [told]
  | lost _ _ _ _ told                          => simp [told]

/-- **A server is its replica behind the wire**, for every frame that arrives at any loop, and
    whatever happens then. -/
theorem replica_behind_wire (l : EventLoop σ) (caller : Nat) (frame : Frame RawRequest) :
    Fronts l caller frame := by
  -- what is not malformed is read as a request
  have hsound : (∀ cause, ¬ Malformed frame.body cause) → ∃ q, frame.body.request = .ok q := by
    intro h
    cases hq : frame.body.request with
    | ok q        => exact ⟨q, rfl⟩
    | error cause => exact absurd (Wire.malformed_iff.2 hq) (h cause)
  have hserved : ∀ q, frame.body.request = .ok q → l.running = true → ∀ xs, Fresh caller l xs →
      Fate { l with queue := l.queue ++ [(caller, .request q)] } l.queue caller frame.body xs := by
    intro q hq hrunning xs hfresh
    rw [Wire.request_image hq]
    exact @fate_play _ _ { l with queue := l.queue ++ [(caller, .request q)] } hrunning _ _ _ [] rfl
      hfresh.queued (List.forall_mem_nil _) _ hfresh.later
  constructor
  case malformed   => exact fun cause h => feed_malformed h l caller
  case gone        =>
    intro hgone h
    obtain ⟨q, hq⟩ := hsound h
    exact feed_gone hgone hq caller
  case served      =>
    intro hrunning h
    obtain ⟨q, hq⟩ := hsound h
    exact ⟨q, Wire.request_image hq, feed_running hrunning hq caller, hserved q hq hrunning⟩
  case invalid_iff =>
    intro xs cause hfresh
    rw [(play_cons l (.call caller frame) xs).2, heard_append, List.mem_append]
    cases hq : frame.body.request with
    | error cause' =>
        have hrest : heard caller (play l xs).answers = [] :=
          play_absent hfresh.queued hfresh.later
        rw [feed_malformed (Wire.malformed_iff.2 hq), hrest, Wire.malformed_iff, hq]
        simp [heard, eq_comm]
    | ok q         =>
        have hnot : ¬ Malformed frame.body cause := by
          rw [Wire.malformed_iff, hq]
          exact nofun
        refine iff_of_false (not_or.2 ?_) hnot
        rcases Bool.eq_false_or_eq_true l.running with hrunning | hrunning
        · rw [feed_running hrunning hq]
          exact ⟨nofun, (hserved q hq hrunning xs hfresh).valid cause⟩
        · rw [feed_gone hrunning hq, play_absent hfresh.queued hfresh.later]
          simp [heard]

/-- A record is queued, and another frame is refused at once, for it lacks an entry.  The record is
    answered when its turn comes.  The request behind it is lost with the loop, and whoever comes
    later is refused. -/
example :
    let l := EventLoop.opened ⟨"m0"⟩ (some ⟨"m0"⟩) ⟨1⟩ (Tally.mk 0) 60
    let record : RawRequest := .record (some ⟨0, [97], [[107]], 7, 0⟩) 1
    (play l [.call 0 ⟨some .current, record⟩, .call 1 ⟨none, .command none⟩,
        .call 2 ⟨some .current, .clientId⟩, .loop (.turn 0), .kill,
        .call 3 ⟨some .current, .clientId⟩]).answers =
      [(1, .error (.invalidArgument (.missingEntry "ClientRequest"))),
        (0, .ok ⟨some .current, .record true 1⟩), (2, .error .unavailable),
        (3, .error .unavailable)] := by
  decide

end Playing

end Server

end WitnessReplication

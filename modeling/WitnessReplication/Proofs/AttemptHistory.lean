import Mathlib.Data.List.Induction
import WitnessReplication.Proofs.SessionRuns

/-!
# Attempt history — what a call knows is what was exchanged since its attempt began

    A call keeps little: the leader's answer, how many witnesses have accepted, which are still to be
    heard of.  That it may act on so little rests on where these came from.  For every call there is
    a moment at which its last attempt began, and everything the call knows is warranted by an
    exchange since then, made by one of the attempt's own errands.

    The errands of an attempt are told from all others by their numbers, which were not given before
    the attempt began.  What counts the witnesses is an inequality: those that have accepted and
    those that are still to be heard of are together at most the selected ones, and fewer as soon as
    one of the selected ones was heard of and has not accepted.

* **`Attempt.Traces`** — an attempt and the exchanges since it began.
* **`Session.Becomes`** — what an input makes of a call: its history goes on, or begins anew.
* **`react_carries`** — every input does this to every call; and a good result is founded.
* **`run_traced`** — every call of every run has its history.
-/

namespace WitnessReplication

/-- A member has taken the record of an entry. -/
def Recorded (exchanges : List Exchange) (member : Nat) (entry : LogEntry) : Prop :=
  ∃ errand term reply, reply.accepted = true ∧
    (⟨errand, member, .record entry term, .ok reply⟩ : Exchange) ∈ exchanges

/-- An errand's own record was taken by its witness. -/
def RecordedBy (exchanges : List Exchange) (errand witness : Nat) (entry : LogEntry) : Prop :=
  ∃ term reply, reply.accepted = true ∧
    (⟨errand, witness, .record entry term, .ok reply⟩ : Exchange) ∈ exchanges

theorem RecordedBy.mono {xs ys : List Exchange} {errand witness : Nat} {entry : LogEntry}
    (h : RecordedBy xs errand witness entry) : RecordedBy (xs ++ ys) errand witness entry := by
  obtain ⟨term, reply, hacc, hmem⟩ := h
  exact ⟨term, reply, hacc, List.mem_append_left _ hmem⟩

/-- A member has taken a request from an errand, and has replied so. -/
def Taken (exchanges : List Exchange) (errand member : Nat) (request : Request) (reply : Reply) :
    Prop :=
  reply.accepted = true ∧ (⟨errand, member, request, .ok reply⟩ : Exchange) ∈ exchanges

theorem Taken.mono {xs ys : List Exchange} {errand member : Nat} {request : Request} {reply : Reply}
    (h : Taken xs errand member request reply) : Taken (xs ++ ys) errand member request reply :=
  ⟨h.1, List.mem_append_left _ h.2⟩

/-! ## Attempts and their exchanges -/

/-- The members at which an attempt records: those that were selected against its snapshot. -/
def Attempt.witnesses (a : Attempt) (selection : WitnessSelection) (size : Nat) : List Nat :=
  match a.route with
  | .fast       => selection.witnesses size a.snapshot
  | .leaderOnly => []

/-- All that an attempt knows is warranted by exchanges of its own errands: `own` are the errands
    to its witnesses, each with its witness. -/
structure Attempt.Traces (a : Attempt) (selection : WitnessSelection) (entry : LogEntry)
    (courier : Courier) (own : List (Nat × Nat)) (xs : List Exchange) : Prop where
  /-- The errand to the leader has a number that was given, and takes the command. -/
  leader_lt : a.leader < courier.fresh
  leading   : ∀ e ∈ courier.errands, e.id = a.leader → e.aim.purpose = .lead (.command entry)
  /-- The leader's answer was given to it. -/
  answered  : ∀ reply, a.answer = some (.ok reply) →
    ∃ m, Taken xs a.leader m (.command entry) reply
  /-- The errands to the witnesses have numbers that were given, and take records. -/
  witnesses : own.map (·.2) = a.witnesses selection courier.pool.size
  selected  : a.selected = own.length
  own_lt    : ∀ p ∈ own, p.1 < courier.fresh
  recording : ∀ p ∈ own, ∀ e ∈ courier.errands, e.id = p.1 → e.aim.purpose = .record p.2 entry
  pending   : ∀ i ∈ a.pending, ∃ w, (i, w) ∈ own
  /-- Who has accepted and who is still to be heard of were selected. -/
  counted   : a.accepted + a.pending.length ≤ a.selected
  /-- They are not all if somebody was heard of who has not accepted. -/
  missed    : ∀ p ∈ own, p.1 ∉ a.pending → ¬ RecordedBy xs p.1 p.2 entry →
    a.accepted + a.pending.length < a.selected

namespace Attempt.Traces

variable {a : Attempt} {selection : WitnessSelection} {entry : LogEntry} {courier : Courier}
  {own : List (Nat × Nat)} {xs : List Exchange}

/-- More happens, and nothing of it concerns the attempt. -/
theorem follows (h : a.Traces selection entry courier own xs) {courier' : Courier}
    (hf : courier.Follows courier') (ys : List Exchange) :
    a.Traces selection entry courier' own (xs ++ ys) where
  leader_lt := Nat.lt_of_lt_of_le h.leader_lt hf.fresh
  leading   := hf.purpose h.leader_lt h.leading
  answered  := by
    intro reply hr
    obtain ⟨m, hm⟩ := h.answered reply hr
    exact ⟨m, hm.mono⟩
  witnesses := hf.size ▸ h.witnesses
  selected  := h.selected
  own_lt    := fun p hp => Nat.lt_of_lt_of_le (h.own_lt p hp) hf.fresh
  recording := fun p hp => hf.purpose (h.own_lt p hp) (h.recording p hp)
  pending   := h.pending
  counted   := h.counted
  missed    := fun p hp hnot hno => h.missed p hp hnot fun hr => hno hr.mono

/-- The leader has answered. -/
theorem answer (h : a.Traces selection entry courier own xs)
    {answer : Except SessionError Reply}
    (hr : ∀ reply, answer = .ok reply → ∃ m, Taken xs a.leader m (.command entry) reply) :
    ({ a with answer := some answer } : Attempt).Traces selection entry courier own xs where
  leader_lt := h.leader_lt
  leading   := h.leading
  answered  := fun reply he => hr reply (Option.some.inj he)
  witnesses := h.witnesses
  selected  := h.selected
  own_lt    := h.own_lt
  recording := h.recording
  pending   := h.pending
  counted   := h.counted
  missed    := h.missed

/-- A witness was heard of.  If it has accepted, it moves from those that are waited for to those
    that have; if not, it is missed from now on. -/
theorem hear (h : a.Traces selection entry courier own xs) {i : Nat} (hi : i ∈ a.pending) {ok : Bool}
    (hr : ok = true → ∀ w, (i, w) ∈ own → RecordedBy xs i w entry) :
    (a.hear i ok).Traces selection entry courier own xs := by
  have hlength : (a.pending.erase i).length + 1 = a.pending.length := by
    have hpos := List.length_pos_of_mem hi
    rw [List.length_erase_of_mem hi]
    omega
  have hcounted := h.counted
  refine ⟨h.leader_lt, h.leading, h.answered, h.witnesses, h.selected, h.own_lt, h.recording,
    ?pending, ?counted, ?missed⟩
  case pending =>
    intro j hj
    exact h.pending j (List.mem_of_mem_erase hj)
  case counted =>
    show (if ok then a.accepted + 1 else a.accepted) + (a.pending.erase i).length ≤ a.selected
    split <;> omega
  case missed =>
    intro p hp hnot hno
    show (if ok then a.accepted + 1 else a.accepted) + (a.pending.erase i).length < a.selected
    cases ok with
    | false =>
        rw [if_neg Bool.false_ne_true]
        omega
    | true  =>
        have hlt : a.accepted + a.pending.length < a.selected := by
          refine h.missed p hp ?_ hno
          intro hmem
          by_cases hpi : p.1 = i
          · -- it is the witness that was just heard of
            subst hpi
            exact hno (hr rfl p.2 hp)
          · exact hnot ((List.mem_erase_of_ne hpi).2 hmem)
        rw [if_pos rfl]
        omega

/-- An attempt all of whose witnesses have accepted has a record at every member it selected. -/
theorem recorded (h : a.Traces selection entry courier own xs) (hp : a.pending = [])
    (hall : a.accepted = a.selected) :
    ∀ w ∈ a.witnesses selection courier.pool.size, Recorded xs w entry := by
  intro w hw
  rw [← h.witnesses] at hw
  obtain ⟨p, hmem, rfl⟩ := List.mem_map.1 hw
  -- a witness that was missed would leave the count below what was selected
  by_cases hr : RecordedBy xs p.1 p.2 entry
  · obtain ⟨term, reply, hacc, hx⟩ := hr
    exact ⟨p.1, term, reply, hacc, hx⟩
  · have hlt := h.missed p hmem (by rw [hp]; exact List.not_mem_nil) hr
    rw [hall] at hlt
    omega

end Attempt.Traces

/-- An attempt whose errands have just been sent out: they are all new, everybody is waited for, and
    nothing was exchanged yet. -/
theorem Attempt.traces_begun {courier : Courier} (h : courier.InOrder)
    (selection : WitnessSelection) (entry : LogEntry) (a : Attempt) {ws : List Nat}
    (hws : ∀ size, size = courier.pool.size → a.witnesses selection size = ws)
    (hselected : a.selected = ws.length) (haccepted : a.accepted = 0) (hanswer : a.answer = none)
    (hleader : a.leader = (courier.beginLead (.command entry)).1)
    (hpending : a.pending = ((courier.beginLead (.command entry)).2.beginRecords entry ws).1)
    (xs : List Exchange) :
    a.Traces selection entry ((courier.beginLead (.command entry)).2.beginRecords entry ws).2
      (a.pending.zip ws) xs := by
  have hlead := Courier.beginLead_setOut h (.command entry)
  have hsent := Courier.beginRecords_sentOut hlead.order entry ws
  rw [← hleader] at hlead
  rw [← hpending] at hsent
  refine ⟨Nat.lt_of_lt_of_le hlead.given hsent.follows.fresh,
    hsent.follows.purpose hlead.given hlead.purpose, ?answered, ?witnesses, ?selected, ?own_lt,
    hsent.purpose, ?pending, ?counted, ?missed⟩
  case answered =>
    intro reply hr
    rw [hanswer] at hr
    exact nomatch hr
  case witnesses =>
    rw [hws _ (hlead.follows.trans hsent.follows).size]
    exact List.map_snd_zip (Nat.le_of_eq hsent.length.symm)
  case selected =>
    rw [hselected, List.length_zip, hsent.length, Nat.min_self]
  case own_lt =>
    intro p hp
    exact hsent.given p.1 (List.of_mem_zip hp).1
  case pending =>
    intro i hi
    rw [← List.map_fst_zip (Nat.le_of_eq hsent.length)] at hi
    obtain ⟨p, hp, rfl⟩ := List.mem_map.1 hi
    exact ⟨p.2, hp⟩
  case counted =>
    rw [hselected, haccepted, hsent.length]
    omega
  case missed =>
    intro p hp hnot
    exact absurd (List.of_mem_zip hp).1 hnot

/-- What follows from the reply of a leader, when a given member is believed to lead. -/
inductive Attempt.Decides (a : Attempt) (guess : Nat) (reply : Reply) : Decision → Prop where
  | leaderOnly (route : a.route = .leaderOnly) :
      Decides a guess reply (.commit reply.data .leaderOnly)
  | leaderChanged (route : a.route = .fast) (moved : guess ≠ a.snapshot) :
      Decides a guess reply (.fail .leaderChanged)
  | leaderSynced (route : a.route = .fast) (stays : guess = a.snapshot)
      (synced : reply.synced = true) : Decides a guess reply (.commit reply.data .leaderSynced)
  | witnessQuorum (route : a.route = .fast) (stays : guess = a.snapshot)
      (unsynced : reply.synced = false) (all : a.accepted = a.selected) :
      Decides a guess reply (.commit reply.data .witnessQuorum)
  | sync (route : a.route = .fast) (stays : guess = a.snapshot)
      (unsynced : reply.synced = false) (missed : a.accepted ≠ a.selected) :
      Decides a guess reply (.sync reply.data)

/-- What is decided follows from the reply. -/
theorem Attempt.decides (a : Attempt) (guess : Nat) (reply : Reply) :
    a.Decides guess reply (a.decision guess (.ok reply)) := by
  simp only [Attempt.decision]
  split
  · rename_i hroute
    exact .leaderOnly hroute
  · rename_i hroute
    split
    · rename_i hmoved
      exact .leaderChanged hroute hmoved
    · rename_i hstays
      have hstays' : guess = a.snapshot := Decidable.not_not.1 hstays
      split
      · rename_i hsynced
        exact .leaderSynced hroute hstays' hsynced
      · rename_i hunsynced
        have hunsynced' : reply.synced = false := Bool.eq_false_iff.2 hunsynced
        split
        · rename_i hall
          exact .witnessQuorum hroute hstays' hunsynced' hall
        · rename_i hmissed
          exact .sync hroute hstays' hunsynced' hmissed

/-- What is committed on the leader's word was said by the leader. -/
theorem Attempt.decision_eq_commit {a : Attempt} {guess : Nat} {answer : Except SessionError Reply}
    {data : Bytes} {path : CommitPath} (h : a.decision guess answer = .commit data path) :
    ∃ reply, answer = .ok reply ∧ reply.data = data ∧ path ≠ .explicitSync ∧
      (path = .witnessQuorum → a.route = .fast ∧ a.accepted = a.selected) := by
  cases answer with
  | error error => exact nomatch h
  | ok reply    =>
      refine ⟨reply, rfl, ?_⟩
      have hdecides := a.decides guess reply
      rw [h] at hdecides
      cases hdecides with
      | leaderOnly route                   => exact ⟨rfl, nofun, nofun⟩
      | leaderSynced route stays synced    => exact ⟨rfl, nofun, nofun⟩
      | witnessQuorum route stays none all => exact ⟨rfl, nofun, fun _ => ⟨route, all⟩⟩

/-- What is to be ordered was said by the leader. -/
theorem Attempt.decision_eq_sync {a : Attempt} {guess : Nat} {answer : Except SessionError Reply}
    {data : Bytes} (h : a.decision guess answer = .sync data) :
    ∃ reply, answer = .ok reply ∧ reply.data = data := by
  cases answer with
  | error error => exact nomatch h
  | ok reply    =>
      have hdecides := a.decides guess reply
      rw [h] at hdecides
      cases hdecides
      exact ⟨reply, rfl, rfl⟩

/-! ## Calls and their exchanges -/

/-- All that a call knows is warranted by the exchanges since its last attempt began, when
    `snapshot` was believed to lead. -/
def Call.Traced (c : Call) (selection : WitnessSelection) (courier : Courier) (snapshot : Nat)
    (xs : List Exchange) : Prop :=
  match c.stage with
  | .attempting a        =>
      a.snapshot = snapshot ∧ ∃ own, a.Traces selection c.entry courier own xs
  | .syncing data errand =>
      (∃ i m reply, Taken xs i m (.command c.entry) reply ∧ reply.data = data) ∧
        errand < courier.fresh ∧
        ∀ e ∈ courier.errands, e.id = errand → e.aim.purpose = .lead (.sync (some c.entry))
  | .pausing             => True

/-- What a call knows while it makes an attempt. -/
theorem Call.traced_attempting {c : Call} {a : Attempt} (h : c.stage = .attempting a)
    {selection : WitnessSelection} {courier : Courier} {snapshot : Nat} {xs : List Exchange} :
    c.Traced selection courier snapshot xs ↔
      a.snapshot = snapshot ∧ ∃ own, a.Traces selection c.entry courier own xs := by
  rw [Call.Traced, h]

/-- What a call knows while it waits for a sync. -/
theorem Call.traced_syncing {c : Call} {data : Bytes} {errand : Nat}
    (h : c.stage = .syncing data errand) {selection : WitnessSelection} {courier : Courier}
    {snapshot : Nat} {xs : List Exchange} :
    c.Traced selection courier snapshot xs ↔
      (∃ i m reply, Taken xs i m (.command c.entry) reply ∧ reply.data = data) ∧
        errand < courier.fresh ∧
        ∀ e ∈ courier.errands, e.id = errand → e.aim.purpose = .lead (.sync (some c.entry)) := by
  rw [Call.Traced, h]

/-- More happens, and nothing of it concerns the call. -/
theorem Call.Traced.follows {c : Call} {selection : WitnessSelection} {courier courier' : Courier}
    {snapshot : Nat} {xs : List Exchange} (h : c.Traced selection courier snapshot xs)
    (hf : courier.Follows courier') (ys : List Exchange) :
    c.Traced selection courier' snapshot (xs ++ ys) := by
  cases hstage : c.stage with
  | attempting a        =>
      obtain ⟨hsnapshot, own, htraces⟩ := (traced_attempting hstage).1 h
      exact (traced_attempting hstage).2 ⟨hsnapshot, own, htraces.follows hf ys⟩
  | syncing data errand =>
      obtain ⟨⟨i, m, reply, htaken, hdata⟩, hlt, hpurpose⟩ := (traced_syncing hstage).1 h
      exact (traced_syncing hstage).2 ⟨⟨i, m, reply, htaken.mono, hdata⟩,
        Nat.lt_of_lt_of_le hlt hf.fresh, hf.purpose hlt hpurpose⟩
  | pausing             =>
      rw [Call.Traced, hstage]
      trivial

/-- What the good result of a call is founded on: exchanges since its last attempt began, of which
    `x` is the one, if any, that has just come to its end. -/
structure Call.Founded (c : Call) (selection : WitnessSelection) (size snapshot : Nat)
    (xs x : List Exchange) (out : CommandOutput) : Prop where
  seq      : out.seq = c.entry.seq
  /-- A member took the command, and its answer is the result; if there was no sync, the attempt's
      own errand to the leader brought it there. -/
  taken    : ∃ i m reply, Taken (xs ++ x) i m (.command c.entry) reply ∧ reply.data = out.data ∧
    (out.path = .explicitSync ∨ ∃ a, c.stage = .attempting a ∧ a.leader = i)
  /-- Every selected witness has the command. -/
  recorded : out.path = .witnessQuorum →
    ∀ w ∈ selection.witnesses size snapshot, Recorded (xs ++ x) w c.entry
  /-- A member was made to order the command, by the last exchange. -/
  ordered  : out.path = .explicitSync →
    ∃ i m reply, Taken x i m (.sync (some c.entry)) reply

namespace Session

/-- What an input makes of a call, by the courier after it and the exchange that comes to its end
    with it. -/
inductive Becomes (s : Session) (x : List Exchange) (courier : Courier) (c' : Call) : Prop where
  /-- The call is between two attempts. -/
  | pauses (stage : c'.stage = .pausing)
  /-- The call begins an attempt, with the member that is believed to lead now. -/
  | begins (anew : ∀ c ∈ s.calls, c.id = c'.id → c.attempts < c'.attempts)
      (traced : c'.Traced s.settings.selection courier s.courier.guess x)
  /-- The call goes on with its attempt. -/
  | goesOn (c : Call) (mem : c ∈ s.calls) (id : c.id = c'.id) (attempts : c.attempts = c'.attempts)
      (paused : c.stage = .pausing → c'.stage = .pausing)
      (traced : ∀ snapshot xs, c.Traced s.settings.selection s.courier snapshot xs →
        c'.Traced s.settings.selection courier snapshot (xs ++ x))

/-- What a step does to all calls, and what its good results are founded on. -/
structure Carries (s : Session) (x : List Exchange) (p : Step) : Prop where
  settings : p.state.settings = s.settings
  follows  : s.courier.Follows p.state.courier
  order    : p.state.InOrder
  calls    : ∀ c' ∈ p.state.calls, s.Becomes x p.state.courier c'
  returns  : ∀ id out, (id, .returned (.ok out)) ∈ p.results →
    ∃ c ∈ s.calls, c.id = id ∧ c.stage ≠ .pausing ∧
      ∀ snapshot xs, c.Traced s.settings.selection s.courier snapshot xs →
        c.Founded s.settings.selection s.courier.pool.size snapshot xs x out

/-- A session on its way through a step: only the courier and one call may have changed. -/
structure Resumes (s s₁ : Session) (id : Nat) : Prop where
  settings : s₁.settings = s.settings
  follows  : s.courier.Follows s₁.courier
  order    : s₁.InOrder
  others   : ∀ d ∈ s₁.calls, d.id ≠ id → d ∈ s.calls

variable {s s₁ : Session} {x : List Exchange}

/-- A call that the step does not concern. -/
theorem becomes_stays {courier : Courier} (hf : s.courier.Follows courier) {d : Call}
    (hd : d ∈ s.calls) : s.Becomes x courier d :=
  .goesOn d hd rfl rfl id fun _ _ h => h.follows hf x

/-- Nothing happens to any call. -/
theorem idle_carries (hset : s₁.settings = s.settings) (hf : s.courier.Follows s₁.courier)
    (hcalls : s₁.calls = s.calls) (ho : s₁.InOrder) {ds : List (Demand Nat)} :
    s.Carries x { state := s₁, demands := ds } where
  settings := hset
  follows  := hf
  order    := ho
  calls    := fun _ hd => becomes_stays hf (hcalls ▸ hd)
  returns  := fun _ _ h => nomatch h

/-- A call is put in place of what it was. -/
theorem put_carries {d : Call} (hr : s.Resumes s₁ d.id) (hb : s.Becomes x s₁.courier d)
    (hk : d.entry.kind = .command) {ds : List (Demand Nat)} :
    s.Carries x { state := s₁.put d, demands := ds } where
  settings := hr.settings
  follows  := hr.follows
  order    := by
    have hids : (s₁.put d).calls.map (·.id) = s₁.calls.map (·.id) := by
      show (s₁.calls.map fun c => if c.id = d.id then d else c).map (·.id) = _
      rw [List.map_map]
      refine List.map_congr_left fun c _ => ?_
      show (if c.id = d.id then d else c).id = c.id
      split
      · rename_i h
        exact h.symm
      · rfl
    refine ⟨hr.order.courier, hids ▸ hr.order.distinct, fun c hc => ?_, fun c hc => ?_⟩
    · have hmem : c.id ∈ s₁.calls.map (·.id) := hids ▸ List.mem_map_of_mem hc
      obtain ⟨c₁, hc₁, hid⟩ := List.mem_map.1 hmem
      exact hid ▸ hr.order.numbered c₁ hc₁
    · obtain ⟨c₁, hc₁, rfl⟩ := List.mem_map.1 hc
      by_cases hid : c₁.id = d.id
      · rw [if_pos hid]
        exact hk
      · rw [if_neg hid]
        exact hr.order.commands c₁ hc₁
  calls    := by
    intro c' hc'
    obtain ⟨c, hc, rfl⟩ := List.mem_map.1 hc'
    by_cases hid : c.id = d.id
    · rw [if_pos hid]
      exact hb
    · rw [if_neg hid]
      exact becomes_stays hr.follows (hr.others c hc hid)
  returns  := fun _ _ h => nomatch h

/-- A call ends; a good result is founded. -/
theorem finish_carries {c : Call} (hr : s.Resumes s₁ c.id)
    {result : Except SessionError CommandOutput}
    (hret : ∀ out, result = .ok out → ∃ c' ∈ s.calls, c'.id = c.id ∧ c'.stage ≠ .pausing ∧
      ∀ snapshot xs, c'.Traced s.settings.selection s.courier snapshot xs →
        c'.Founded s.settings.selection s.courier.pool.size snapshot xs x out) :
    s.Carries x (s₁.finish c result) where
  settings := hr.settings
  follows  := hr.follows
  order    := by
    refine ⟨hr.order.courier, ?_, fun d hd => hr.order.numbered d (List.mem_filter.1 hd).1,
      fun d hd => hr.order.commands d (List.mem_filter.1 hd).1⟩
    exact hr.order.distinct.sublist (List.filter_sublist.map _)
  calls    := by
    intro d hd
    obtain ⟨hmem, hne⟩ := List.mem_filter.1 hd
    exact becomes_stays hr.follows (hr.others d hmem (by simpa using hne))
  returns  := by
    intro id out hmem
    have hpair := List.mem_singleton.1 hmem
    obtain rfl : id = c.id := congrArg Prod.fst hpair
    have hresult : Outcome.returned (.ok out) = Outcome.returned result := congrArg Prod.snd hpair
    exact hret out (Outcome.returned.inj hresult).symm

/-! ## The functions of a step, one by one -/

/-- A call begins an attempt. -/
theorem startAttempt_carries {c : Call} (hr : s.Resumes s₁ c.id) (hk : c.entry.kind = .command)
    (hguess : s₁.courier.guess = s.courier.guess)
    (hanew : ∀ d ∈ s.calls, d.id = c.id → d.attempts ≤ c.attempts) {ds : List (Demand Nat)} :
    s.Carries x { state := s₁.startAttempt c, demands := ds } := by
  have horder := hr.order.courier
  have hlead := Courier.beginLead_setOut horder (.command c.entry)
  have hsent := fun ws => Courier.beginRecords_sentOut hlead.order c.entry ws
  refine put_carries ?resumes (.begins ?anew ?traced) ?command
  case resumes =>
    refine ⟨hr.settings, (hr.follows.trans hlead.follows).trans (hsent _).follows,
      ⟨(hsent _).order, hr.order.distinct, fun d hd => ?_, hr.order.commands⟩, hr.others⟩
    exact Nat.lt_of_lt_of_le (hr.order.numbered d hd) (hlead.follows.trans (hsent _).follows).fresh
  case command => exact hk
  case anew =>
    intro d hd hid
    exact Nat.lt_succ_of_le (hanew d hd hid)
  case traced =>
    rw [← hr.settings]
    refine ⟨hguess, _, Attempt.traces_begun horder _ _ _ ?_ rfl rfl rfl rfl rfl x⟩
    rintro size rfl
    rfl

/-- A call makes its next attempt, unless the session is closed. -/
theorem goRound_carries {c : Call} (hr : s.Resumes s₁ c.id) (hk : c.entry.kind = .command)
    (hguess : s₁.courier.guess = s.courier.guess)
    (hanew : ∀ d ∈ s.calls, d.id = c.id → d.attempts ≤ c.attempts) :
    s.Carries x (s₁.goRound c) := by
  rw [goRound]
  split
  · exact finish_carries hr fun _ h => nomatch h
  · exact startAttempt_carries hr hk hguess hanew

/-- A call whose attempt has failed ends without a good result, or pauses. -/
theorem conclude_carries {c : Call} (hr : s.Resumes s₁ c.id) (hk : c.entry.kind = .command)
    (error : SessionError) : s.Carries x (s₁.conclude c error) := by
  rw [conclude]
  split
  · exact finish_carries hr fun _ h => nomatch h
  · exact put_carries (d := { c with stage := .pausing }) hr (.pauses rfl) hk

/-- A call does what was decided: what it commits is founded on what the attempt knows. -/
theorem advance_carries {c : Call} (hc : c ∈ s.calls) {a : Attempt} (hr : s.Resumes s₁ c.id)
    (hk : c.entry.kind = .command)
    (ha : ∀ snapshot xs, c.Traced s.settings.selection s.courier snapshot xs →
      ({ c with stage := .attempting a } : Call).Traced s.settings.selection s₁.courier snapshot
        (xs ++ x))
    {b : Attempt} (hstage : c.stage = .attempting b) (hleader : a.leader = b.leader) :
    s.Carries x (s₁.advance c a) := by
  have hbusy : ∀ {stage : Call.Stage}, c.stage = .pausing → stage = .pausing := by
    intro stage hpausing
    rw [hstage] at hpausing
    exact nomatch hpausing
  rw [advance]
  split
  · rename_i answer hanswer hpending
    -- nobody is waited for any more, so all that the attempt knows counts
    cases hd : a.decision s₁.courier.guess answer with
    | commit data path =>
        obtain ⟨reply, rfl, rfl, hpath, hquorum⟩ := Attempt.decision_eq_commit hd
        refine finish_carries hr fun out hout =>
          ⟨c, hc, rfl, (fun h => nomatch hstage.symm.trans h), fun snapshot xs htraced => ?_⟩
        obtain rfl := Except.ok.inj hout
        obtain ⟨hsnapshot, own, htraces⟩ := ha snapshot xs htraced
        refine ⟨rfl, ?taken, ?recorded, fun h => absurd h hpath⟩
        case taken =>
          obtain ⟨m, htaken⟩ := htraces.answered reply hanswer
          exact ⟨a.leader, m, reply, htaken, rfl, Or.inr ⟨b, hstage, hleader.symm⟩⟩
        case recorded =>
          intro h
          obtain ⟨hroute, hall⟩ := hquorum h
          have hrecorded := htraces.recorded hpending hall
          rw [Attempt.witnesses] at hrecorded
          rw [hroute, hsnapshot, hr.follows.size] at hrecorded
          exact hrecorded
    | fail error       => exact conclude_carries hr hk error
    | sync data        =>
        obtain ⟨reply, rfl, rfl⟩ := Attempt.decision_eq_sync hd
        have hset := Courier.beginLead_setOut hr.order.courier (.sync (some c.entry))
        have hbecomes : s.Becomes x (s₁.courier.beginLead (.sync (some c.entry))).2
            { c with stage := .syncing reply.data
                                (s₁.courier.beginLead (.sync (some c.entry))).1 } := by
          refine .goesOn c hc rfl rfl hbusy fun snapshot xs htraced => ?_
          obtain ⟨_, own, htraces⟩ := ha snapshot xs htraced
          obtain ⟨m, htaken⟩ := htraces.answered reply hanswer
          exact ⟨⟨a.leader, m, reply, htaken, rfl⟩, hset.given, hset.purpose⟩
        refine put_carries ?_ hbecomes ?_
        · refine ⟨hr.settings, hr.follows.trans hset.follows,
            ⟨hset.order, hr.order.distinct, fun d hd => ?_, hr.order.commands⟩, hr.others⟩
          exact Nat.lt_of_lt_of_le (hr.order.numbered d hd) hset.follows.fresh
        · exact hk
  · exact put_carries (d := { c with stage := .attempting a }) hr
      (.goesOn c hc rfl rfl hbusy ha) hk

/-- The leader has answered an errand that a call waits for. -/
theorem led_carries {input : Input} (hr : ∀ id, s.Resumes s₁ id) (hcalls : s₁.calls = s.calls)
    {c : Call} (hc : c ∈ s.calls) {i : Nat} {answer : Except SessionError Reply}
    (hreports : s.Reports input i (.led answer)) :
    s.Carries (s.exchange? input).toList (s₁.led c i answer) := by
  obtain ⟨e, he, hid, request, hpurpose, hok⟩ := hreports
  have hk : c.entry.kind = .command := (hr 0).order.commands c (hcalls ▸ hc)
  have hidle : s.Carries (s.exchange? input).toList { state := s₁ } :=
    idle_carries (hr 0).settings (hr 0).follows hcalls (hr 0).order
  -- an errand with the purpose of this one has given its request to whoever replied
  have htaken : ∀ {request'}, e.aim.purpose = .lead request' → ∀ reply, answer = .ok reply →
      ∃ m, Taken (s.exchange? input).toList i m request' reply := by
    intro request' hp reply hreply
    obtain rfl : request = request' := Errand.Purpose.lead.inj (hpurpose.symm.trans hp)
    obtain ⟨hacc, m, hx⟩ := hok reply hreply
    exact ⟨m, hacc, by rw [hx]; exact List.mem_singleton.2 rfl⟩
  rw [led]
  split
  · rename_i a hstage
    split
    · rename_i hleader
      refine advance_carries hc (hr c.id) hk (fun snapshot xs htraced => ?_) hstage rfl
      obtain ⟨hsnapshot, own, htraces⟩ := (Call.traced_attempting hstage).1 htraced
      refine ⟨hsnapshot, own, (htraces.follows (hr 0).follows _).answer fun reply hreply => ?_⟩
      obtain ⟨m, hacc, hmem⟩ := htaken (htraces.leading e he (hid.trans hleader.symm)) reply hreply
      rw [hleader]
      exact ⟨m, hacc, List.mem_append_right _ hmem⟩
    · exact hidle
  · rename_i data errand hstage
    split
    · rename_i herrand
      split
      · rename_i reply
        refine finish_carries (hr c.id) fun out hout =>
          ⟨c, hc, rfl, (fun h => nomatch hstage.symm.trans h), fun snapshot xs htraced => ?_⟩
        obtain rfl := Except.ok.inj hout
        -- the data are the leader's from before; the reply to the sync only says that it was taken
        obtain ⟨⟨j, m, reply', htook, hdata⟩, _, hsync⟩ := (Call.traced_syncing hstage).1 htraced
        refine ⟨rfl, ⟨j, m, reply', htook.mono, hdata, Or.inl rfl⟩, nofun, fun _ => ?_⟩
        obtain ⟨m', htook'⟩ := htaken (hsync e he (hid.trans herrand.symm)) reply rfl
        exact ⟨i, m', reply, htook'⟩
      · exact conclude_carries (hr c.id) hk _
    · exact hidle
  · exact hidle

/-- A witness was heard of, for a call that waits for it. -/
theorem recorded_carries {input : Input} (hr : ∀ id, s.Resumes s₁ id) (hcalls : s₁.calls = s.calls)
    {c : Call} (hc : c ∈ s.calls) {i : Nat} (hawaits : awaits c i = true) {ok : Bool}
    (hreports : s.Reports input i (.recorded ok)) :
    s.Carries (s.exchange? input).toList (s₁.recorded c i ok) := by
  obtain ⟨e, he, hid, w, entry, hpurpose, hok⟩ := hreports
  rw [recorded]
  split
  · rename_i a hstage
    refine put_carries (d := { c with stage := .attempting (a.hear i ok) }) (hr c.id)
      (.goesOn c hc rfl rfl (fun h => nomatch hstage.symm.trans h) fun snapshot xs htraced => ?_)
      ((hr 0).order.commands c (hcalls ▸ hc))
    obtain ⟨hsnapshot, own, htraces⟩ := (Call.traced_attempting hstage).1 htraced
    have hi : i ∈ a.pending := by
      rw [awaits] at hawaits
      rw [hstage] at hawaits
      rcases Bool.or_eq_true_iff.1 hawaits with hleader | hmem
      · -- the errand to the leader makes no record
        have hlead := htraces.leading e he (hid.trans (of_decide_eq_true hleader).symm)
        rw [hpurpose] at hlead
        exact nomatch hlead
      · exact List.contains_iff_mem.1 hmem
    refine ⟨hsnapshot, own, (htraces.follows (hr 0).follows _).hear hi fun hyes w' hw' => ?_⟩
    have hrecord := htraces.recording (i, w') hw' e he hid
    rw [hpurpose] at hrecord
    obtain ⟨rfl, rfl⟩ := Errand.Purpose.record.inj hrecord
    obtain ⟨term, reply, hacc, hx⟩ := hok hyes
    refine ⟨term, reply, hacc, List.mem_append_right _ ?_⟩
    rw [hx]
    exact List.mem_singleton.2 rfl
  · exact idle_carries (hr 0).settings (hr 0).follows hcalls (hr 0).order

/-- What is waited for plays no part in what a step does to the calls. -/
theorem Carries.of_demands {p q : Step} (h : s.Carries x p) (hstate : q.state = p.state)
    (hresults : q.results = p.results) : s.Carries x q where
  settings := hstate ▸ h.settings
  follows  := hstate ▸ h.follows
  order    := hstate ▸ h.order
  calls    := hstate ▸ h.calls
  returns  := hresults ▸ h.returns

/-- An errand is told something: what it comes to is handed on to the call that waits for it. -/
theorem absorb_carries (h : s.InOrder) {i : Nat} (hcall : s.call? i = none) (sig : Signal) :
    s.Carries (s.exchange? (.signal i sig)).toList (s.absorb (s.courier.step i sig)) := by
  obtain ⟨hfollows, horder, hresults⟩ := errand_reports h hcall sig
  have hr : ∀ id, s.Resumes { s with courier := (s.courier.step i sig).state } id := by
    intro id
    refine ⟨rfl, hfollows, ⟨horder, h.distinct, fun c hc => ?_, h.commands⟩, fun d hd _ => hd⟩
    exact Nat.lt_of_lt_of_le (h.numbered c hc) hfollows.fresh
  have hidle : ∀ ds, s.Carries (s.exchange? (.signal i sig)).toList
      { state := { s with courier := (s.courier.step i sig).state }, demands := ds } :=
    fun ds => idle_carries (hr 0).settings hfollows rfl (hr 0).order
  rw [absorb]
  -- an errand that goes on concerns no call; one that has ended concerns the call that waits for it
  rcases hresults with hnone | ⟨outcome, hone, hreports⟩
  · rw [Progress.feed_of_nil hnone]
    exact hidle _
  · obtain ⟨hstate, hres⟩ := Progress.feed_of_singleton (β := Session) hone
    refine Carries.of_demands ?_ hstate hres
    unfold deliver
    split
    · refine ⟨rfl, hfollows, (hr 0).order, fun d hd => becomes_stays hfollows hd, ?_⟩
      intro id out hmem
      exact nomatch congrArg Prod.snd (List.mem_singleton.1 hmem)
    · rename_i answer c hfind
      exact led_carries hr rfl (List.mem_of_find?_eq_some hfind) hreports
    · rename_i ok c hfind
      have hawaits : awaits c i = true := List.find?_some (p := fun d => awaits d i) hfind
      exact recorded_carries hr rfl (List.mem_of_find?_eq_some hfind) hawaits hreports
    · exact hidle _

/-- A user begins a call: it has a new number, and begins its first attempt. -/
theorem invoke_carries (h : s.InOrder) (data : Bytes) (keys : List Key) (route : Route)
    (seq : Option SeqNo) : s.Carries x (s.invoke data keys route seq).2 := by
  have hgo : ∀ (identity : Identity) (entry : LogEntry), entry.kind = .command → s.Carries x
      (goRound { s with
          identity
          courier := s.courier.takeNumber.2
          calls   := s.calls ++ [{ id := s.courier.fresh, entry, route }] }
        { id := s.courier.fresh, entry, route }) := by
    intro identity entry hk
    -- the number is new, so the call is told from all others
    have hold : ∀ d ∈ s.calls, d.id ≠ s.courier.fresh :=
      fun d hd => Nat.ne_of_lt (h.numbered d hd)
    refine goRound_carries
      ⟨rfl, s.courier.takeNumber_follows, ⟨h.courier.takeNumber, ?_, ?_, ?_⟩, ?_⟩ hk rfl
      fun d hd hid => absurd hid (hold d hd)
    · rw [List.map_append, List.nodup_append]
      refine ⟨h.distinct, by simp, ?_⟩
      intro i hi j hj hij
      obtain ⟨d, hd, hdi⟩ := List.mem_map.1 hi
      exact hold d hd (hdi.trans (hij.trans (List.mem_singleton.1 hj)))
    · intro d hd
      rcases List.mem_append.1 hd with hd | hd
      · exact Nat.lt_succ_of_lt (h.numbered d hd)
      · rw [List.mem_singleton.1 hd]
        exact Nat.lt_succ_self _
    · intro d hd
      rcases List.mem_append.1 hd with hd | hd
      · exact h.commands d hd
      · rw [List.mem_singleton.1 hd]
        exact hk
    · intro d hd hne
      rcases List.mem_append.1 hd with hd | hd
      · exact hd
      · exact absurd (congrArg Call.id (List.mem_singleton.1 hd)) hne
  unfold invoke
  cases seq with
  | none   =>
      dsimp only
      split
      · exact (hgo _ _ rfl).of_demands rfl rfl
      · exact hgo _ _ rfl
  | some n =>
      dsimp only
      split
      · exact (hgo _ _ rfl).of_demands rfl rfl
      · exact hgo _ _ rfl

/-- A call runs out of time. -/
theorem expire_carries (h : s.InOrder) (c : Call) : s.Carries x (s.expire c) := by
  rw [expire]
  refine finish_carries ?_ fun _ hout => nomatch hout
  -- the errand to the leader is called off; the records go on and find nobody who waits
  cases c.stage.errand? with
  | none        => exact ⟨rfl, .refl _, h, fun d hd _ => hd⟩
  | some errand =>
      exact ⟨rfl, s.courier.abandon_follows errand,
        ⟨h.courier.abandon errand, h.distinct, h.numbered, h.commands⟩, fun d hd _ => hd⟩

/-- A call that goes on by itself. -/
theorem step_call_carries (h : s.InOrder) {id : Nat} {c : Call} (hcall : s.call? id = some c)
    (sig : Signal) : s.Carries x (s.step id sig) := by
  have hc : c ∈ s.calls := List.mem_of_find?_eq_some hcall
  have hr : s.Resumes s c.id := ⟨rfl, .refl _, h, fun d hd _ => hd⟩
  rw [step]
  rw [hcall]
  dsimp only
  split
  · rename_i a hstage
    refine advance_carries hc hr (h.commands c hc) (fun snapshot xs htraced => ?_) hstage rfl
    have htraced' := htraced.follows (.refl _) x
    exact (Call.traced_attempting rfl).2 ((Call.traced_attempting hstage).1 htraced')
  · refine goRound_carries hr (h.commands c hc) rfl fun d hd hid => ?_
    have hsame : d = c := h.eq_of_id hd hc hid
    exact Nat.le_of_eq (congrArg Call.attempts hsame)
  · exact expire_carries h c
  · exact idle_carries rfl (.refl _) rfl h

/-- **What any input does**: every call goes on with what it knows, or pauses, or begins an attempt;
    and what is returned is founded on what was exchanged. -/
theorem react_carries (h : s.InOrder) (input : Input) :
    s.Carries (s.exchange? input).toList (s.react input) := by
  cases input with
  | invoke data keys route seq => exact invoke_carries h data keys route seq
  | close                      =>
      have hfollows := s.courier.begin_follows (.close 0)
      have horder : s.close.2.InOrder := by
        refine ⟨h.courier.begin (.close 0) rfl, h.distinct, fun c hc => ?_, h.commands⟩
        exact Nat.lt_of_lt_of_le (h.numbered c hc) hfollows.fresh
      have hsettings : s.close.2.settings = s.settings := rfl
      exact idle_carries hsettings hfollows rfl horder
  | signal id sig              =>
      show s.Carries _ (s.step id sig)
      cases hcall : s.call? id with
      | some c => exact step_call_carries h hcall sig
      | none   =>
          rw [step]
          rw [hcall]
          exact absorb_carries h hcall sig

/-- A run keeps a session in order, with its settings, and its numbers only grow. -/
theorem run_follows {s : Session} (h : s.InOrder) (inputs : List Input) :
    (s.run inputs).InOrder ∧ (s.run inputs).settings = s.settings ∧
      s.courier.Follows (s.run inputs).courier := by
  induction inputs generalizing s with
  | nil          => exact ⟨h, rfl, .refl _⟩
  | cons x _ ih =>
      have hcarries := react_carries h x
      obtain ⟨horder, hsettings, hfollows⟩ := ih hcarries.order
      exact ⟨horder, hsettings.trans hcarries.settings, hcarries.follows.trans hfollows⟩

/-! ## The history of every call of a run -/

/-- A session at which nothing has happened yet; the member that is believed to lead is one of the
    members. -/
structure Fresh (s : Session) : Prop where
  calls   : s.calls = []
  errands : s.courier.errands = []
  guess   : s.courier.guess < s.courier.pool.size

/-- A fresh session is in order. -/
theorem Fresh.inOrder (h : s.Fresh) : s.InOrder := by
  refine ⟨⟨h.guess, ?_, ?_⟩, ?_, ?_, ?_⟩
  · rw [h.errands]
    exact fun _ he => nomatch he
  · rw [h.errands]
    exact fun _ he => nomatch he
  · rw [h.calls]
    exact List.nodup_nil
  · rw [h.calls]
    exact fun _ hc => nomatch hc
  · rw [h.calls]
    exact fun _ hc => nomatch hc

/-- The last attempt of a call in a run, the attempt of this number, begins with the first input
    after `begun`: until there the call has made fewer attempts, or none. -/
structure LastAttempt (s₀ : Session) (inputs : List Input) (id attempts : Nat)
    (begun window : List Input) : Prop where
  split : inputs = begun ++ window
  anew  : ∀ c ∈ (s₀.run begun).calls, c.id = id → c.attempts < attempts
  began : ∃ first rest, window = first :: rest ∧
    ∃ c ∈ ((s₀.run begun).react first).state.calls, c.id = id ∧ c.attempts = attempts

/-- An attempt that begins with an input is the call's last one. -/
theorem LastAttempt.begins {s₀ : Session} {inputs : List Input} {input : Input} {c : Call}
    (hc : c ∈ ((s₀.run inputs).react input).state.calls)
    (anew : ∀ d ∈ (s₀.run inputs).calls, d.id = c.id → d.attempts < c.attempts) :
    s₀.LastAttempt (inputs ++ [input]) c.id c.attempts inputs [input] :=
  ⟨rfl, anew, input, [], rfl, c, hc, rfl, rfl⟩

/-- The last attempt goes on through one more input. -/
theorem LastAttempt.goesOn {s₀ : Session} {inputs begun window : List Input} {id attempts : Nat}
    (h : s₀.LastAttempt inputs id attempts begun window) (input : Input) :
    s₀.LastAttempt (inputs ++ [input]) id attempts begun (window ++ [input]) := by
  obtain ⟨hsplit, hanew, first, rest, hwindow, hbegan⟩ := h
  refine ⟨by rw [hsplit, List.append_assoc], hanew, first, rest ++ [input], ?_, hbegan⟩
  rw [hwindow, List.cons_append]

/-- The exchanges of a last attempt, with the one at the end. -/
theorem LastAttempt.exchanges {s₀ : Session} {inputs : List Input} {id attempts : Nat}
    {begun window : List Input} (h : s₀.LastAttempt inputs id attempts begun window)
    (last : Input) :
    (s₀.run begun).exchanges (window ++ [last]) =
      (s₀.run begun).exchanges window ++ ((s₀.run inputs).exchange? last).toList := by
  rw [exchanges_concat, ← run_append, ← h.split]

/-- **The history of every call**: in every run, a call that is not between two attempts has a last
    attempt, and all that it knows is warranted by the exchanges since then. -/
theorem run_traced {s₀ : Session} (h₀ : s₀.Fresh) (inputs : List Input) :
    (s₀.run inputs).InOrder ∧ (s₀.run inputs).settings = s₀.settings ∧
      (s₀.run inputs).courier.pool.members = s₀.courier.pool.members ∧
      ∀ c ∈ (s₀.run inputs).calls, c.stage = .pausing ∨
        ∃ begun window, s₀.LastAttempt inputs c.id c.attempts begun window ∧
          c.Traced s₀.settings.selection (s₀.run inputs).courier (s₀.run begun).courier.guess
            ((s₀.run begun).exchanges window) := by
  induction inputs using List.reverseRecOn with
  | nil                         =>
      refine ⟨h₀.inOrder, rfl, rfl, fun c hc => ?_⟩
      have hc' : c ∈ s₀.calls := hc
      rw [h₀.calls] at hc'
      exact nomatch hc'
  | append_singleton inputs x ih =>
      obtain ⟨horder, hsettings, hmembers, hcalls⟩ := ih
      have hcarries := react_carries horder x
      have hrun : s₀.run (inputs ++ [x]) = ((s₀.run inputs).react x).state := run_append ..
      rw [hrun]
      refine ⟨hcarries.order, hcarries.settings.trans hsettings,
        hcarries.follows.members.trans hmembers, fun c' hc' => ?_⟩
      -- a last attempt begins with this input, or the one from before goes on through it
      cases hcarries.calls c' hc' with
      | pauses stage                      => exact Or.inl stage
      | begins anew traced                =>
          refine Or.inr ⟨inputs, [x], .begins hc' anew, ?_⟩
          rw [← hsettings]
          show c'.Traced _ _ _ (((s₀.run inputs).exchange? x).toList ++ [])
          rw [List.append_nil]
          exact traced
      | goesOn c hc hid hattempts paused traced =>
          rcases hcalls c hc with hpausing | ⟨begun, window, hlast, htraced⟩
          · exact Or.inl (paused hpausing)
          · rw [← hid, ← hattempts]
            refine Or.inr ⟨begun, window ++ [x], hlast.goesOn x, ?_⟩
            rw [hlast.exchanges, ← hsettings]
            rw [← hsettings] at htraced
            exact traced _ _ htraced

/-- **What a good result is founded on**: exchanges since the call's last attempt began. -/
theorem returned_founded {s₀ : Session} (h₀ : s₀.Fresh) {inputs : List Input} {last : Input}
    {id : Nat} {out : CommandOutput}
    (hret : (id, .returned (.ok out)) ∈ ((s₀.run inputs).react last).results) :
    ∃ c ∈ (s₀.run inputs).calls, c.id = id ∧ ∃ begun window,
      s₀.LastAttempt inputs id c.attempts begun window ∧
      c.Founded s₀.settings.selection s₀.courier.pool.size (s₀.run begun).courier.guess
        ((s₀.run begun).exchanges window) ((s₀.run inputs).exchange? last).toList out := by
  obtain ⟨horder, hsettings, hmembers, hcalls⟩ := run_traced h₀ inputs
  obtain ⟨c, hc, rfl, hbusy, hfounded⟩ := (react_carries horder last).returns id out hret
  rw [hsettings, Pool.size_of_members hmembers] at hfounded
  rcases hcalls c hc with hpausing | ⟨begun, window, hlast, htraced⟩
  · exact absurd hpausing hbusy
  · exact ⟨c, hc, rfl, begun, window, hlast, hfounded _ _ htraced⟩

end Session

end WitnessReplication

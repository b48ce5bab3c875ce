import WitnessReplication.Proofs.SoleCalls

/-!
# Exact attempts — the attempt of a sole call knows all that was exchanged

    That everything a call knows was exchanged is one half.  The other half needs that the call is
    the only one: then an errand that has made an exchange tells it to the call at once, and until
    the attempt is decided nothing else touches the belief who leads.  So the leader's answer is
    what a member has replied that took the command, and that member is the one believed to lead
    ever since; and a witness that is not waited for any more counts exactly if it took its record.

* **`Errand.Tells`** — what an errand comes to, against the exchange of this moment.
* **`step_tells`** — every step of an errand of a call.
* **`Attempt.Exact`** — an attempt and the exchanges since it began, both ways.
* **`Call.Knows`** — the same for a call at any stage.
-/

namespace WitnessReplication

/-! ## What was taken -/

/-- Nobody has taken anything from an errand. -/
def Silent (xs : List Exchange) (errand : Nat) : Prop :=
  ∀ m request reply, ¬ Taken xs errand m request reply

variable {xs ys : List Exchange} {i m : Nat} {request : Request} {reply : Reply} {entry : LogEntry}

theorem Taken.append_iff :
    Taken (xs ++ ys) i m request reply ↔ Taken xs i m request reply ∨ Taken ys i m request reply := by
  simp only [Taken, List.mem_append]
  tauto

theorem RecordedBy.append_iff {w : Nat} :
    RecordedBy (xs ++ ys) i w entry ↔ RecordedBy xs i w entry ∨ RecordedBy ys i w entry := by
  constructor
  · rintro ⟨term, reply, htaken⟩
    rcases Taken.append_iff.1 htaken with h | h
    · exact Or.inl ⟨term, reply, h⟩
    · exact Or.inr ⟨term, reply, h⟩
  · rintro (⟨term, reply, htaken⟩ | ⟨term, reply, htaken⟩)
    · exact ⟨term, reply, Taken.append_iff.2 (Or.inl htaken)⟩
    · exact ⟨term, reply, Taken.append_iff.2 (Or.inr htaken)⟩

theorem silent_nil (errand : Nat) : Silent [] errand := fun _ _ _ h => nomatch h.2

/-- What nobody has taken from an errand changes nothing about what was. -/
theorem Silent.append_iff (h : Silent ys i) :
    Taken (xs ++ ys) i m request reply ↔ Taken xs i m request reply := by
  rw [Taken.append_iff, or_iff_left (h m request reply)]

theorem Silent.recorded_iff (h : Silent ys i) {w : Nat} :
    RecordedBy (xs ++ ys) i w entry ↔ RecordedBy xs i w entry := by
  rw [RecordedBy.append_iff, or_iff_left fun ⟨_, _, htaken⟩ => h _ _ _ htaken]

/-! ## What an errand tells -/

/-- What an errand of a call comes to, against the exchange of this moment: a good outcome if and
    only if a member has just taken what the errand brought. -/
inductive Errand.Tells (e : Errand) (guess : Nat) (x : List Exchange) :
    List (Nat × Errand.Outcome) → Prop where
  | nothing (silent : ∀ i, Silent x i) : Tells e guess x []
  | led {request : Request} {answer : Except SessionError Reply}
      (purpose : e.aim.purpose = .lead request)
      (exact : ∀ i m q reply, Taken x i m q reply ↔
        i = e.id ∧ m = guess ∧ q = request ∧ answer = .ok reply) :
      Tells e guess x [(e.id, .led answer)]
  | recorded {w : Nat} {entry : LogEntry} {ok : Bool} (purpose : e.aim.purpose = .record w entry)
      (others : ∀ i, i ≠ e.id → Silent x i) (took : ok = true ↔ RecordedBy x e.id w entry) :
      Tells e guess x [(e.id, .recorded ok)]

namespace Courier

/-- The exchange of this moment is the one of an errand at its destination, with what came of it. -/
def Exchanged (c : Courier) (e : Errand) (outcome : Except TransportError Reply)
    (x : List Exchange) : Prop :=
  ∀ i m q reply, Taken x i m q reply ↔ i = e.id ∧ m = c.destination e ∧
    e.aim.request? = some q ∧ outcome = .ok reply ∧ reply.accepted = true

/-- What did not come to an exchange was taken by nobody. -/
theorem exchanged_error (c : Courier) (e : Errand) (error : TransportError) :
    c.Exchanged e (.error error) [] :=
  fun _ _ _ _ => ⟨fun h => (nomatch h.2), fun ⟨_, _, _, h, _⟩ => nomatch h⟩

/-- Settling tells what was exchanged. -/
theorem settle_tells {c c' : Courier} {e : Errand} (h : e.OfCall)
    {outcome : Except TransportError Reply} {x : List Exchange} (hx : c.Exchanged e outcome x) :
    e.Tells c.guess x (c'.settle e outcome).results := by
  obtain ⟨id, aim, stage⟩ := e
  rcases h with ⟨request, hp⟩ | ⟨w, entry, hp⟩
  · cases aim with
    | lead request' tries =>
        obtain rfl := Errand.Purpose.lead.inj hp
        have hexact : ∀ i m q reply, Taken x i m q reply ↔
            i = id ∧ m = c.guess ∧ q = request' ∧ outcome = .ok reply ∧ reply.accepted = true := by
          intro i m q reply
          rw [hx i m q reply]
          refine and_congr_right fun _ => and_congr_right fun _ => and_congr_left fun _ => ?_
          exact (Option.some_inj).trans eq_comm
        have hsettles := settle_lead (c := c') (e := ⟨id, .lead request' tries, stage⟩) rfl outcome
        generalize c'.settle _ outcome = p at hsettles
        cases hsettles with
        | accepted taken     =>
            refine .led hp fun i m q reply => (hexact i m q reply).trans ?_
            simp only [Except.ok.injEq]
            refine and_congr_right fun _ => and_congr_right fun _ => and_congr_right fun _ => ?_
            exact ⟨And.left, fun hreply => ⟨hreply, hreply ▸ taken⟩⟩
        | malformed kind     =>
            refine .led hp fun i m q reply => (hexact i m q reply).trans ?_
            simp only [reduceCtorEq, false_and]
        | retargets verdict  =>
            refine .nothing fun i m q reply htaken => ?_
            obtain ⟨_, _, _, hok, htook⟩ := (hexact i m q reply).1 htaken
            rw [Locator.verdict_eq_accepted_iff.2 ⟨hok, htook⟩] at verdict
            exact nomatch verdict
        | backsOff refused _ =>
            refine .nothing fun i m q reply htaken => ?_
            obtain ⟨_, _, _, hok, htook⟩ := (hexact i m q reply).1 htaken
            rw [Except.ok.inj hok, htook] at refused
            exact nomatch refused
    | direct _ _ | record _ _ _ | survey _ _ | close _ => exact nomatch hp
  · cases aim with
    | record w' entry' term =>
        obtain ⟨rfl, rfl⟩ := Errand.Purpose.record.inj hp
        obtain ⟨known, ok, hsettle, hok⟩ := settle_record (c := c')
          (e := ⟨id, .record w' entry' term, stage⟩) rfl outcome
        rw [hsettle]
        refine .recorded hp (fun i hi m q reply htaken => hi ((hx i m q reply).1 htaken).1) ?_
        rw [hok]
        constructor
        · rintro ⟨reply, hreply, htook⟩
          exact ⟨term, reply, (hx _ _ _ _).2 ⟨rfl, rfl, rfl, hreply, htook⟩⟩
        · rintro ⟨term', reply, htaken⟩
          obtain ⟨_, _, _, hreply, htook⟩ := (hx _ _ _ _).1 htaken
          exact ⟨reply, hreply, htook⟩
    | direct _ _ | lead _ _ | survey _ _ | close _ => exact nomatch hp

end Courier

namespace Session

variable {s : Session}

/-- An errand waits for a reply exactly if it is at an exchange. -/
theorem awaited?_eq_some_iff {id m : Nat} {request : Request} :
    s.awaited? id = some (m, request) ↔ s.call? id = none ∧ ∃ e, s.courier.find? id = some e ∧
      e.stage = .exchanging m ∧ e.aim.request? = some request := by
  unfold awaited?
  cases hcall : s.call? id with
  | some c => simp
  | none   =>
      cases hfind : s.courier.find? id with
      | none   => simp
      | some e =>
          obtain ⟨i, aim, stage⟩ := e
          cases stage with
          | exchanging k => simp [and_comm]
          | _            => simp

/-- An exchange comes to its end exactly if the errand that is at it is told what came back. -/
theorem mem_exchange?_iff {x : Input} {y : Exchange} :
    y ∈ (s.exchange? x).toList ↔ x = .signal y.errand (.answered y.outcome) ∧
      s.call? y.errand = none ∧ ∃ e, s.courier.find? y.errand = some e ∧
        e.stage = .exchanging y.member ∧ e.aim.request? = some y.request := by
  rw [Option.mem_toList, ← awaited?_eq_some_iff]
  unfold exchange?
  split
  · rename_i id outcome
    obtain ⟨errand, member, request, outcome'⟩ := y
    simp only [Option.map_eq_some_iff, Exchange.mk.injEq, Input.signal.injEq,
      Signal.answered.injEq]
    constructor
    · rintro ⟨⟨m, q⟩, hawaited, rfl, rfl, rfl, rfl⟩
      exact ⟨⟨rfl, rfl⟩, hawaited⟩
    · rintro ⟨⟨rfl, rfl⟩, hawaited⟩
      exact ⟨_, hawaited, rfl, rfl, rfl, rfl⟩
  · rename_i hother
    simp only [reduceCtorEq, false_iff, not_and]
    exact fun hx => absurd hx (hother _ _)

/-- **What an errand of a call tells** is exactly what was exchanged: if it leads, it is at the slot
    of the member that is believed to lead. -/
theorem step_tells (horder : s.InOrder) {lead : Option Nat} (hsteered : s.courier.Steered lead)
    {id : Nat} (hcall : s.call? id = none) {e : Errand} (hf : s.courier.find? id = some e)
    (sig : Signal) :
    e.Tells s.courier.guess (s.exchange? (.signal id sig)).toList
      (s.courier.step id sig).results := by
  have he : e ∈ s.courier.errands := List.mem_of_find?_eq_some hf
  have hof := hsteered.ofCall e he
  have hid : e.id = id := by simpa using List.find?_some hf
  have hgoes := Courier.step_goes hf hof sig
  generalize s.courier.step id sig = p at hgoes
  cases hgoes with
  | rests deaf              =>
      have hnone : (s.exchange? (.signal id sig)).toList = [] := by
        refine List.eq_nil_iff_forall_not_mem.2 fun y hy => ?_
        -- an errand that hears of no exchange is at none
        obtain ⟨hx, _, f, hf', hstage, _⟩ := mem_exchange?_iff.1 hy
        obtain ⟨rfl, rfl⟩ := Input.signal.inj hx
        obtain rfl := Option.some.inj (hf.symm.trans hf')
        unfold Courier.heeds at deaf
        rw [hstage] at deaf
        exact nomatch deaf
      rw [hnone]
      exact .nothing silent_nil
  | givesUp _ aim           =>
      have hp := congrArg Errand.Aim.purpose aim
      exact .led hp fun _ _ _ _ => ⟨fun h => (nomatch h.2), fun ⟨_, _, _, h⟩ => nomatch h⟩
  | refused _ _ _           => exact Courier.settle_tells hof (s.courier.exchanged_error e _)
  | arrives _ _ _ _ _       => exact .nothing silent_nil
  | enters _ _ _            => exact .nothing silent_nil
  | connects _              => exact .nothing silent_nil
  | unconnected _           => exact Courier.settle_tells hof (s.courier.exchanged_error e _)
  | wakes _                 => exact .nothing silent_nil
  | @exchanged m outcome pool waits _ =>
      obtain ⟨request, hrequest⟩ := hof.request
      have hx : s.exchange? (.signal id (.answered outcome)) = some ⟨id, m, request, outcome⟩ :=
        Option.mem_toList.1 (mem_exchange?_iff.2 ⟨rfl, hcall, e, hf, waits, hrequest⟩)
      have hplace : m = s.courier.destination e := by
        have hm : e.stage.member? = some m := by rw [waits]; rfl
        rcases hof with hleads | ⟨w, entry, hp⟩
        · have ⟨_, hp⟩ := hleads
          rw [Courier.destination, hp]
          exact hsteered.member e he hleads m hm
        · rw [Courier.destination, hp]
          exact ((horder.courier.placed e he).slot m hm).2 w (by rw [hp]; rfl)
      refine Courier.settle_tells hof fun i m' q reply => ?_
      rw [hx, Taken, Option.toList_some, List.mem_singleton, Exchange.mk.injEq, hrequest, hid,
        ← hplace, Option.some_inj]
      constructor
      · rintro ⟨htook, rfl, rfl, rfl, houtcome⟩
        exact ⟨rfl, rfl, rfl, houtcome.symm, htook⟩
      · rintro ⟨rfl, rfl, rfl, houtcome, htook⟩
        exact ⟨htook, rfl, rfl, rfl, houtcome.symm⟩

end Session

/-! ## An attempt, both ways -/

/-- The errands that take records to some witnesses, each with its witness: they are sent out right
    after the errand to the leader. -/
def recordsAfter (leader : Nat) (ws : List Nat) : List (Nat × Nat) :=
  (List.range' (leader + 1) ws.length).zip ws

/-- The errands that take an attempt's records. -/
def Attempt.records (a : Attempt) (selection : WitnessSelection) (size : Nat) : List (Nat × Nat) :=
  recordsAfter a.leader (a.witnesses selection size)

/-- Every one of some witnesses has taken the record that its errand brought. -/
def AllRecorded (xs : List Exchange) (own : List (Nat × Nat)) (entry : LogEntry) : Prop :=
  ∀ p ∈ own, RecordedBy xs p.1 p.2 entry

/-- The errands to the witnesses are others than the one to the leader. -/
theorem Attempt.leader_lt_of_records {a : Attempt} {selection : WitnessSelection} {size : Nat}
    {p : Nat × Nat} (hp : p ∈ a.records selection size) : a.leader < p.1 := by
  obtain ⟨_, _, hfst⟩ := List.mem_range'.1 (List.of_mem_zip hp).1
  omega

/-- A number that was given, and under which no errand is under way: it is one of a call, or the
    errand is done. -/
def Courier.Past (c : Courier) (i : Nat) : Prop := i < c.fresh ∧ ∀ e ∈ c.errands, e.id ≠ i

/-- What is past stays past: later errands have numbers that were not given before. -/
theorem Courier.Past.follows {c c' : Courier} (h : c.Past i) (hf : c.Follows c') : c'.Past i := by
  refine ⟨Nat.lt_of_lt_of_le h.1 hf.fresh, fun e' he' hid => ?_⟩
  rcases hf.errands e' he' with ⟨e, he, hsame, _⟩ | hnew
  · exact h.2 e he (hsame.trans hid)
  · exact absurd h.1 (by omega)

/-- An attempt knows all that was exchanged with its own errands. -/
structure Attempt.Exact (a : Attempt) (entry : LogEntry) (courier : Courier)
    (own : List (Nat × Nat)) (xs : List Exchange) : Prop where
  /-- Until the leader has answered, nobody has taken the command. -/
  unanswered : a.answer = none → Silent xs a.leader
  /-- The answer is the reply of the member that took it, and that one is believed to lead. -/
  answered   : ∀ answer, a.answer = some answer → ∀ m reply,
    Taken xs a.leader m (.command entry) reply ↔ m = courier.guess ∧ answer = .ok reply
  /-- An errand that is done is not under way any more. -/
  gone       : a.answer ≠ none → ∀ e ∈ courier.errands, e.id ≠ a.leader
  heard      : ∀ p ∈ own, p.1 ∉ a.pending → ∀ e ∈ courier.errands, e.id ≠ p.1
  /-- A witness that is still to be heard of has taken nothing, and is waited for once. -/
  waiting    : ∀ i ∈ a.pending, Silent xs i
  distinct   : a.pending.Nodup
  /-- Whoever has made an exchange has a number that was given. -/
  given      : ∀ y ∈ xs, y.errand < courier.fresh
  /-- If all that were heard of have accepted, nobody is missed. -/
  full       : (∀ p ∈ own, p.1 ∉ a.pending → RecordedBy xs p.1 p.2 entry) →
    a.accepted + a.pending.length = a.selected

namespace Attempt.Exact

variable {a : Attempt} {courier courier' : Courier} {own : List (Nat × Nat)}
  {selection : WitnessSelection}

private theorem given_follows (hf : courier.Follows courier')
    (h : ∀ y ∈ xs, y.errand < courier.fresh) (hnew : ∀ y ∈ ys, y.errand < courier.fresh) :
    ∀ y ∈ xs ++ ys, y.errand < courier'.fresh := by
  intro y hy
  rcases List.mem_append.1 hy with hy | hy
  · exact Nat.lt_of_lt_of_le (h y hy) hf.fresh
  · exact Nat.lt_of_lt_of_le (hnew y hy) hf.fresh

/-- More happens, and none of the attempt's errands is told of an exchange. -/
theorem follows (h : a.Exact entry courier own xs) (ht : a.Traces selection entry courier own xs)
    (hf : courier.Follows courier') (hnew : ∀ y ∈ ys, y.errand < courier.fresh)
    (hguess : a.answer ≠ none → courier'.guess = courier.guess)
    (hleader : Silent ys a.leader) (hown : ∀ p ∈ own, Silent ys p.1) :
    a.Exact entry courier' own (xs ++ ys) where
  unanswered := fun hnone m q reply htaken =>
    h.unanswered hnone m q reply (hleader.append_iff.1 htaken)
  answered   := by
    intro answer hanswer m reply
    rw [hleader.append_iff, hguess (by rw [hanswer]; exact nofun)]
    exact h.answered answer hanswer m reply
  gone       := fun hsome => (Courier.Past.follows ⟨ht.leader_lt, h.gone hsome⟩ hf).2
  heard      := fun p hp hnot =>
    (Courier.Past.follows ⟨ht.own_lt p hp, h.heard p hp hnot⟩ hf).2
  waiting    := by
    intro i hi m q reply htaken
    obtain ⟨w, hw⟩ := ht.pending i hi
    exact h.waiting i hi m q reply ((hown (i, w) hw).append_iff.1 htaken)
  distinct   := h.distinct
  given      := given_follows hf h.given hnew
  full       := fun hall => h.full fun p hp hnot => (hown p hp).recorded_iff.1 (hall p hp hnot)

/-- The leader has answered. -/
theorem answer (h : a.Exact entry courier own xs) (ht : a.Traces selection entry courier own xs)
    (hf : courier.Follows courier') (hnew : ∀ y ∈ ys, y.errand < courier.fresh)
    (hnone : a.answer = none) (hown : ∀ p ∈ own, a.leader < p.1)
    (hgone : ∀ e ∈ courier'.errands, e.id ≠ a.leader)
    {answer : Except SessionError Reply} (others : ∀ i, i ≠ a.leader → Silent ys i)
    (exact : ∀ m reply, Taken ys a.leader m (.command entry) reply ↔
      m = courier'.guess ∧ answer = .ok reply) :
    ({ a with answer := some answer } : Attempt).Exact entry courier' own (xs ++ ys) := by
  have hsilent : ∀ p ∈ own, Silent ys p.1 := fun p hp => others p.1 (Nat.ne_of_gt (hown p hp))
  refine ⟨nofun, ?answered, fun _ => hgone, ?heard, ?waiting, h.distinct,
    given_follows hf h.given hnew, ?full⟩
  case answered =>
    intro answer' hanswer m reply
    obtain rfl := Option.some.inj hanswer
    rw [Taken.append_iff, or_iff_right (h.unanswered hnone m _ reply)]
    exact exact m reply
  case heard    =>
    exact fun p hp hnot => (Courier.Past.follows ⟨ht.own_lt p hp, h.heard p hp hnot⟩ hf).2
  case waiting  =>
    intro i hi m q reply htaken
    obtain ⟨w, hw⟩ := ht.pending i hi
    exact h.waiting i hi m q reply ((hsilent (i, w) hw).append_iff.1 htaken)
  case full     =>
    exact fun hall => h.full fun p hp hnot => (hsilent p hp).recorded_iff.1 (hall p hp hnot)

/-- A witness was heard of. -/
theorem hear (h : a.Exact entry courier own xs) (ht : a.Traces selection entry courier own xs)
    (hf : courier.Follows courier') (hnew : ∀ y ∈ ys, y.errand < courier.fresh)
    (hguess : courier'.guess = courier.guess) {w : Nat} (hi : i ∈ a.pending) (hw : (i, w) ∈ own)
    (hleader : a.leader ≠ i)
    (hgone : ∀ e ∈ courier'.errands, e.id ≠ i) {ok : Bool} (others : ∀ j, j ≠ i → Silent ys j)
    (took : ok = true ↔ RecordedBy ys i w entry) :
    (a.hear i ok).Exact entry courier' own (xs ++ ys) := by
  have hlength : (a.pending.erase i).length + 1 = a.pending.length := by
    have hpos := List.length_pos_of_mem hi
    rw [List.length_erase_of_mem hi]
    omega
  refine ⟨?unanswered, ?answered, ?gone, ?heard, ?waiting, h.distinct.erase i,
    given_follows hf h.given hnew, ?full⟩
  case unanswered =>
    intro hnone m q reply htaken
    exact h.unanswered hnone m q reply ((others _ hleader).append_iff.1 htaken)
  case answered   =>
    intro answer hanswer m reply
    show Taken _ a.leader _ _ _ ↔ _
    rw [(others _ hleader).append_iff, hguess]
    exact h.answered answer hanswer m reply
  case gone       => exact fun hsome => (Courier.Past.follows ⟨ht.leader_lt, h.gone hsome⟩ hf).2
  case heard      =>
    intro p hp hnot
    by_cases hpi : p.1 = i
    · rw [hpi]
      exact hgone
    · have hnot' : p.1 ∉ a.pending := fun hmem => hnot ((List.mem_erase_of_ne hpi).2 hmem)
      exact (Courier.Past.follows ⟨ht.own_lt p hp, h.heard p hp hnot'⟩ hf).2
  case waiting    =>
    intro j hj m q reply htaken
    have hj' : j ∈ a.pending.erase i := hj
    have hji : j ≠ i := ((h.distinct.mem_erase_iff).1 hj').1
    exact h.waiting j (List.mem_of_mem_erase hj) m q reply ((others j hji).append_iff.1 htaken)
  case full       =>
    intro hall
    have hnow : RecordedBy (xs ++ ys) i w entry :=
      hall (i, w) hw fun hmem => ((h.distinct.mem_erase_iff).1 hmem).1 rfl
    -- it had taken nothing before, so it has taken its record just now
    have hok : ok = true := by
      refine took.2 ((RecordedBy.append_iff.1 hnow).resolve_left ?_)
      rintro ⟨term, reply, htaken⟩
      exact h.waiting i hi w _ reply htaken
    have hfull := h.full fun p hp hnot => by
      have hpi : p.1 ≠ i := fun he => hnot (he ▸ hi)
      exact (others p.1 hpi).recorded_iff.1
        (hall p hp fun hmem => hnot (List.mem_of_mem_erase hmem))
    show (if ok then a.accepted + 1 else a.accepted) + (a.pending.erase i).length = a.selected
    rw [if_pos hok]
    omega

/-- When everybody was heard of, the witnesses count as many as were selected exactly if all of them
    have taken their records. -/
theorem allRecorded_iff (h : a.Exact entry courier own xs)
    (ht : a.Traces selection entry courier own xs) (hnone : a.pending = []) :
    AllRecorded xs own entry ↔ a.accepted = a.selected := by
  have hcount : a.accepted + a.pending.length = a.accepted := by rw [hnone]; rfl
  constructor
  · intro hall
    rw [← hcount]
    exact h.full fun p hp _ => hall p hp
  · intro heq p hp
    by_contra hno
    have hlt := ht.missed p hp (by rw [hnone]; exact List.not_mem_nil) hno
    omega

end Attempt.Exact

/-- An attempt whose errands have just been sent out knows all, since nothing was exchanged. -/
theorem Attempt.exact_begun {a : Attempt} {courier : Courier} {own : List (Nat × Nat)}
    (hanswer : a.answer = none) (haccepted : a.accepted = 0) (hdistinct : a.pending.Nodup)
    (hown : ∀ p ∈ own, p.1 ∈ a.pending) (hselected : a.selected = a.pending.length) :
    a.Exact entry courier own [] where
  unanswered := fun _ => silent_nil a.leader
  answered   := fun answer h => by rw [hanswer] at h; exact nomatch h
  gone       := fun h => absurd hanswer h
  heard      := fun p hp hnot => absurd (hown p hp) hnot
  waiting    := fun i _ => silent_nil i
  distinct   := hdistinct
  given      := fun _ hy => nomatch hy
  full       := fun _ => by rw [haccepted, hselected, Nat.zero_add]

end WitnessReplication

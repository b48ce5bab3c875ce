import WitnessReplication.Proofs.ForwarderCourse

/-!
# Forwarded rounds — what is sent to a forwarder is told to every peer, once and in order

    Put together from what a course has come to: the rounds have taken the batches whole and in
    order; each round has at most one letter for every other member, and it tells the names of the
    round; and a member is told the rounds in which its own connection and its own answer came
    about, whatever the others did.  A forwarder that is left alone comes to rest, so that every
    batch has its round in the end, and it ends only after that.

* **`Course.Forwards`** — the clauses of the law.
* **`go_hastens`** — every step brings a forwarder nearer to its rest.
* **`every_batch_forwarded`** — the law.
-/

namespace WitnessReplication

namespace Forwarder

/-- The names of some rounds, the first of them numbered `k + 1`: of those for which `p` holds. -/
def namesOf (p : Nat → Bool) : Nat → List (List (List RequestId)) → List RequestId
  | _, []              => []
  | k, batches :: rest => (if p (k + 1) then batches.flatten else []) ++ namesOf p (k + 1) rest

theorem namesOf_concat (p : Nat → Bool) (k : Nat) (past : List (List (List RequestId)))
    (batches : List (List RequestId)) :
    namesOf p k (past ++ [batches]) =
      namesOf p k past ++ if p (k + past.length + 1) then batches.flatten else [] := by
  induction past generalizing k with
  | nil          => exact List.append_nil _
  | cons b bs ih =>
      have hnumber : k + 1 + bs.length = k + (b :: bs).length := by
        rw [List.length_cons]
        omega
      show _ ++ namesOf p (k + 1) (bs ++ [batches]) = (_ ++ namesOf p (k + 1) bs) ++ _
      rw [ih, List.append_assoc, hnumber]

/-! ## What is in the letters -/

variable {p : Address → Nat → Bool} {peers : List Address}

/-- A letter is one of a round, to a peer. -/
theorem mem_letters {k : Nat} {rounds : List (List (List RequestId))} {l : Letter}
    (h : l ∈ letters p peers k rounds) :
    l.target ∈ peers ∧ ∃ batches, (batches, l.round) ∈ rounds.zipIdx (k + 1) ∧
      l.request = .witnessGc batches.flatten := by
  induction rounds generalizing k with
  | nil               => exact nomatch h
  | cons batches rest ih =>
      rcases List.mem_append.1 h with h | h
      · obtain ⟨a, ha, rfl⟩ := List.mem_map.1 h
        exact ⟨(List.mem_filter.1 ha).1, batches, List.mem_cons_self, rfl⟩
      · obtain ⟨htarget, b, hb, hrequest⟩ := ih h
        exact ⟨htarget, b, List.mem_cons_of_mem _ hb, hrequest⟩

theorem lt_round {k : Nat} {rounds : List (List (List RequestId))} {l : Letter}
    (h : l ∈ letters p peers k rounds) : k < l.round ∧ l.round ≤ k + rounds.length := by
  obtain ⟨-, batches, hmem, -⟩ := mem_letters h
  obtain ⟨hlow, hhigh, -⟩ := List.mem_zipIdx hmem
  omega

/-- The letters of one round go to as many peers. -/
theorem nodup_page {targets : List Address} (hd : targets.Nodup) (k : Nat)
    (batches : List (List RequestId)) :
    ((targets.map (letter k batches)).map fun l => (l.round, l.target)).Nodup := by
  rw [List.map_map]
  exact hd.map fun a b hab => congrArg Prod.snd hab

theorem nodup_letters (hd : peers.Nodup) (k : Nat) (rounds : List (List (List RequestId))) :
    ((letters p peers k rounds).map fun l => (l.round, l.target)).Nodup := by
  induction rounds generalizing k with
  | nil               => exact List.nodup_nil
  | cons batches rest ih =>
      rw [letters, List.map_append]
      refine List.nodup_append'.2 ⟨nodup_page (hd.filter _) _ _, ih (k + 1), ?_⟩
      intro x hx hx'
      obtain ⟨l, hl, rfl⟩ := List.mem_map.1 hx
      obtain ⟨a, -, rfl⟩ := List.mem_map.1 hl
      obtain ⟨l', hl', heq⟩ := List.mem_map.1 hx'
      -- later letters are of later rounds
      have hround : l'.round = k + 1 := congrArg Prod.fst heq
      have := (lt_round hl').1
      omega

/-- What one round tells a peer. -/
theorem names_page {targets : List Address} (hd : targets.Nodup) (a : Address) (k : Nat)
    (batches : List (List RequestId)) :
    (((targets.map (letter k batches)).filter fun l => l.target = a).flatMap Letter.names) =
      if a ∈ targets then batches.flatten else [] := by
  induction targets with
  | nil            => rfl
  | cons b rest ih =>
      obtain ⟨hb, hrest⟩ := List.nodup_cons.1 hd
      rw [List.map_cons, List.filter_cons]
      by_cases hba : b = a
      · subst hba
        have hnone := ih hrest
        rw [if_neg hb] at hnone
        have hself : decide ((letter k batches b).target = b) = true := decide_eq_true rfl
        rw [if_pos hself, List.flatMap_cons, hnone, if_pos List.mem_cons_self]
        exact List.append_nil _
      · have hne : ¬ decide ((letter k batches b).target = a) = true := by
          rw [decide_eq_true_iff]
          exact hba
        rw [if_neg hne, ih hrest]
        simp [Ne.symm hba]

/-- What the letters tell a peer. -/
theorem names_letters (hd : peers.Nodup) {a : Address} (ha : a ∈ peers) (k : Nat)
    (rounds : List (List (List RequestId))) :
    ((letters p peers k rounds).filter fun l => l.target = a).flatMap Letter.names =
      namesOf (p a) k rounds := by
  induction rounds generalizing k with
  | nil               => rfl
  | cons batches rest ih =>
      rw [letters, List.filter_append, List.flatMap_append, names_page (hd.filter _), ih, namesOf]
      simp only [List.mem_filter, ha, true_and]

namespace Course

variable {w : Fortune} {others : List Address} {c : Course} {events : List Event}

/-- A round is over for the peers it is done with, and not for the others. -/
theorem Amid.passed {past : List (List (List RequestId))} {batches : List (List RequestId)}
    {done todo asked : List Address} {rest : List Peer}
    (h : c.Amid w others past batches done todo asked rest)
    (hpeer : c.forwarder.stage.peer? = some done.length) (a : Address) :
    c.passed a = if a ∈ done then past.length + 1 else past.length := by
  have hrounds : c.rounds.length = past.length + 1 := by
    rw [h.rounds, List.length_append]
    rfl
  have htake : (c.forwarder.peers.take done.length).map (·.address) = done := by
    rw [h.peers, List.take_left' (List.length_map ..), List.map_map]
    exact List.map_id done
  rw [Course.passed, hpeer]
  dsimp only
  rw [htake, hrounds]
  rfl

/-- What the peers were told so far in a round under way. -/
theorem Amid.received {past : List (List (List RequestId))} {batches : List (List RequestId)}
    {done todo asked : List Address} {rest : List Peer}
    (h : c.Amid w others past batches done todo asked rest) (hd : others.Nodup)
    (hpeer : c.forwarder.stage.peer? = some done.length) {a : Address} (ha : a ∈ others) :
    c.received a = namesOf (w.tells a) 0 (c.rounds.take (c.passed a)) := by
  have hdone : done.Nodup := by
    rw [h.split] at hd
    exact (List.nodup_append'.1 hd).1
  rw [Course.received, h.answered, List.filter_append, List.flatMap_append, names_letters hd ha,
    names_page (hdone.filter _), h.passed hpeer, h.rounds]
  by_cases hin : a ∈ done
  · have hall : (past ++ [batches]).take (past.length + 1) = past ++ [batches] :=
      List.take_of_length_le (Nat.le_of_eq List.length_append)
    rw [if_pos hin, hall, namesOf_concat, Nat.zero_add]
    simp only [List.mem_filter, hin, true_and]
  · have hnot : ¬ a ∈ done.filter (w.tells · (past.length + 1)) :=
      fun hmem => hin (List.mem_filter.1 hmem).1
    rw [if_neg hin, if_neg hnot, List.append_nil, List.take_left' rfl]

theorem Between.received (h : c.Between w others) (hd : others.Nodup)
    (hpeer : c.forwarder.stage.peer? = none) {a : Address} (ha : a ∈ others) :
    c.received a = namesOf (w.tells a) 0 (c.rounds.take (c.passed a)) := by
  have hpassed : c.passed a = c.rounds.length := by
    rw [Course.passed, hpeer]
  rw [Course.received, h.answered, names_letters hd ha, hpassed, List.take_length]

/-- What a peer was told are the rounds that are over for it and in which it was told. -/
theorem Stands.received (h : c.Stands w others) (hd : others.Nodup) {a : Address}
    (ha : a ∈ others) : c.received a = namesOf (w.tells a) 0 (c.rounds.take (c.passed a)) := by
  cases h with
  | rests stage between               => exact between.received hd (by rw [stage]; rfl) ha
  | ended stage between               => exact between.received hd (by rw [stage]; rfl) ha
  | turns _ _ _ _ stage amid          => exact amid.received hd (by rw [stage]; rfl) ha
  | connects _ _ _ _ _ stage amid _   => exact amid.received hd (by rw [stage]; rfl) ha
  | exchanges _ _ _ _ _ stage amid _  => exact amid.received hd (by rw [stage]; rfl) ha

/-- The letters that were sent are letters of the rounds to peers, and no two of them to one peer in
    one round. -/
structure Lettered (others : List Address) (c : Course) : Prop where
  letters : ∀ l ∈ c.sent, l.target ∈ others ∧ ∃ batches,
    (batches, l.round) ∈ c.rounds.zipIdx 1 ∧ l.request = .witnessGc batches.flatten
  once    : (c.sent.map fun l => (l.round, l.target)).Nodup

theorem Between.lettered (h : c.Between w others) (hd : others.Nodup) : c.Lettered others where
  letters := fun l hl => mem_letters (h.sent ▸ hl)
  once    := by
    rw [h.sent]
    exact nodup_letters hd 0 c.rounds

theorem Amid.lettered {past : List (List (List RequestId))} {batches : List (List RequestId)}
    {done todo asked : List Address} {rest : List Peer}
    (h : c.Amid w others past batches done todo asked rest) (hd : others.Nodup)
    (hasked : asked.Sublist todo) : c.Lettered others := by
  have hsub : (done.filter (w.reaches · (past.length + 1)) ++ asked).Sublist others := by
    rw [h.split]
    exact List.filter_sublist.append hasked
  have hzip : c.rounds.zipIdx 1 = past.zipIdx 1 ++ [(batches, past.length + 1)] := by
    rw [h.rounds, List.zipIdx_append, Nat.add_comm]
    rfl
  constructor
  case letters =>
    intro l hl
    rw [h.sent] at hl
    rw [hzip]
    rcases List.mem_append.1 hl with hl | hl
    · obtain ⟨htarget, b, hb, hrequest⟩ := mem_letters hl
      exact ⟨htarget, b, List.mem_append_left _ hb, hrequest⟩
    · obtain ⟨a, ha, rfl⟩ := List.mem_map.1 hl
      exact ⟨hsub.subset ha, batches, List.mem_append_right _ (List.mem_singleton.2 rfl), rfl⟩
  case once    =>
    rw [h.sent, List.map_append]
    refine List.nodup_append'.2 ⟨nodup_letters hd 0 past, nodup_page (hsub.nodup hd) _ _, ?_⟩
    intro x hx hx'
    obtain ⟨l, hl, rfl⟩ := List.mem_map.1 hx
    obtain ⟨l', hl', heq⟩ := List.mem_map.1 hx'
    obtain ⟨a, -, rfl⟩ := List.mem_map.1 hl'
    -- the letters of the rounds before are of smaller numbers
    have hround : past.length + 1 = l.round := congrArg Prod.fst heq
    have := (lt_round hl).2
    omega

theorem Stands.lettered (h : c.Stands w others) (hd : others.Nodup) : c.Lettered others := by
  cases h with
  | rests _ between                => exact between.lettered hd
  | ended _ between                => exact between.lettered hd
  | turns _ _ _ _ _ amid           => exact amid.lettered hd (List.nil_sublist _)
  | connects _ _ _ _ _ _ amid _    => exact amid.lettered hd (List.nil_sublist _)
  | exchanges _ _ _ todo a _ amid _ =>
      exact amid.lettered hd ((List.nil_sublist todo).cons_cons a)

end Course

/-! ## Coming to rest -/

/-- How many steps a round has still to make, at most. -/
def Stage.effort (peers : Nat) : Stage → Nat
  | .turning _ i    => 3 * (peers - i) + 1
  | .connecting _ i => 3 * (peers - i)
  | .exchanging _ i => 3 * (peers - i) - 1
  | _               => 0

/-- How many steps a forwarder has to make, at most, after the round that is under way: those of one
    more round if there is something in the mailbox, and its end if nobody fills it any more. -/
def reserve (f : Forwarder) : Nat :=
  (if f.mailbox = [] then 0 else 3 * f.peers.length + 2) + if f.attached then 0 else 1

/-- How many steps a forwarder that is left alone has still to make, at most. -/
def effort (f : Forwarder) : Nat :=
  if f.running then f.stage.effort f.peers.length + f.reserve else 0

theorem effort_of_running {f : Forwarder} (h : f.running = true) :
    f.effort = f.stage.effort f.peers.length + f.reserve := if_pos h

/-- A stage that is not the end. -/
theorem running_of_stage {f : Forwarder} {stage : Stage} (h : f.stage = stage)
    (hne : stage ≠ .ended) : f.running = true := by
  simp [running, h, hne]

theorem effort_of_stage {f : Forwarder} {stage : Stage} (h : f.stage = stage)
    (hne : stage ≠ .ended) : f.effort = stage.effort f.peers.length + f.reserve := by
  rw [effort_of_running (running_of_stage h hne), h]

variable {f : Forwarder} {synced : List RequestId} {i : Nat}

theorem turn_hastens (f : Forwarder) (synced : List RequestId) (i : Nat) :
    (f.turn synced i).state.effort ≤ 3 * (f.peers.length - i) + f.reserve := by
  rw [turn]
  split
  · rw [effort_of_running rfl]
    exact Nat.add_le_add_right (Nat.zero_le _) _
  · split
    · rw [send, await, effort_of_running rfl]
      exact Nat.add_le_add_right (Nat.sub_le _ _) _
    · rw [await, effort_of_running rfl]
      exact Nat.le_refl _

theorem begin_hastens (hstage : f.stage = .idle) (h : f.effort ≠ 0) :
    f.begin.state.effort < f.effort := by
  rw [effort_of_stage hstage nofun] at h ⊢
  rw [begin]
  cases hmail : f.mailbox with
  | nil             =>
      cases hopen : f.attached with
      | true  => simp [Stage.effort, reserve, hmail, hopen] at h
      | false => simp [effort, running, reserve, hmail, hopen]
  | cons batch more =>
      have hturn := turn_hastens { f with mailbox := [] } f.mailbox.flatten 0
      have hless :
          ({ f with mailbox := [] } : Forwarder).reserve + 3 * f.peers.length < f.reserve := by
        simp only [reserve, hmail, if_true, reduceCtorEq, if_false]
        omega
      rw [hmail] at hturn
      refine Nat.lt_of_le_of_lt hturn ?_
      show 3 * (f.peers.length - 0) + _ < 0 + f.reserve
      omega

theorem connected_hastens (hstage : f.stage = .connecting synced i) (hi : i < f.peers.length)
    (outcome : Except TransportError Unit) :
    (f.step (.connected outcome)).state.effort < f.effort := by
  have hmark : (f.mark i true).peers.length = f.peers.length := List.length_modify ..
  have hreserve : (f.mark i true).reserve = f.reserve := by
    rw [reserve, hmark]
    rfl
  rw [effort_of_stage hstage nofun]
  cases outcome with
  | ok _    =>
      simp only [step, hstage, List.getElem?_eq_getElem hi]
      rw [send, await, effort_of_running rfl]
      show 3 * ((f.mark i true).peers.length - i) - 1 + (f.mark i true).reserve <
        3 * (f.peers.length - i) + f.reserve
      rw [hmark, hreserve]
      omega
  | error e =>
      simp only [step, hstage]
      rw [effort_of_running rfl]
      show 3 * (f.peers.length - (i + 1)) + 1 + f.reserve < 3 * (f.peers.length - i) + f.reserve
      omega

theorem answered_hastens (hstage : f.stage = .exchanging synced i) (hi : i < f.peers.length)
    (outcome : Except TransportError Reply) :
    (f.step (.answered outcome)).state.effort < f.effort := by
  have hmark : (f.mark i false).peers.length = f.peers.length := List.length_modify ..
  have hreserve : (f.mark i false).reserve = f.reserve := by
    rw [reserve, hmark]
    rfl
  rw [effort_of_stage hstage nofun]
  cases outcome with
  | ok reply =>
      simp only [step, hstage]
      rw [effort_of_running rfl]
      show 3 * (f.peers.length - (i + 1)) + 1 + f.reserve <
        3 * (f.peers.length - i) - 1 + f.reserve
      omega
  | error e  =>
      simp only [step, hstage]
      rw [effort_of_running rfl]
      show 3 * ((f.mark i false).peers.length - (i + 1)) + 1 + (f.mark i false).reserve <
        3 * (f.peers.length - i) - 1 + f.reserve
      rw [hmark, hreserve]
      omega

namespace Course

variable {w : Fortune} {others : List Address} {c : Course} {events : List Event}

/-- The peer that is waited for is one of the peers. -/
theorem Amid.lt_peers {past : List (List (List RequestId))} {batches : List (List RequestId)}
    {done todo asked : List Address} {p : Peer} {rest : List Peer}
    (h : c.Amid w others past batches done todo asked (p :: rest)) :
    done.length < c.forwarder.peers.length :=
  (List.getElem?_eq_some_iff.1 h.peer?).1

/-- **Every step brings a forwarder nearer to its rest.** -/
theorem go_hastens (h : c.Stands w others) (heffort : c.forwarder.effort ≠ 0) :
    (c.go w).forwarder.effort < c.forwarder.effort := by
  show (c.forwarder.step (w.signal c.rounds.length c.forwarder)).state.effort < _
  cases h with
  | rests stage between                                   =>
      have hstep : c.forwarder.step (w.signal c.rounds.length c.forwarder) = c.forwarder.begin := by
        simp only [Fortune.signal, stage, Forwarder.step]
      rw [hstep]
      exact begin_hastens stage heffort
  | ended stage                                           =>
      simp [effort, running, stage] at heffort
  | turns past batches done todo stage amid               =>
      have hstep : c.forwarder.step (w.signal c.rounds.length c.forwarder) =
          c.forwarder.turn batches.flatten done.length := by
        simp only [Fortune.signal, stage, Forwarder.step]
      rw [hstep, effort_of_stage stage (by simp)]
      refine Nat.lt_of_le_of_lt (turn_hastens ..) ?_
      show _ < 3 * (c.forwarder.peers.length - done.length) + 1 + c.forwarder.reserve
      omega
  | connects past batches done todo a stage amid apart    =>
      simp only [Fortune.signal, stage]
      exact connected_hastens stage amid.lt_peers _
  | exchanges past batches done todo a stage amid reached =>
      simp only [Fortune.signal, stage]
      exact answered_hastens stage amid.lt_peers _

/-- A forwarder has nothing to do any more. -/
structure AtRest (c : Course) : Prop where
  empty : c.forwarder.mailbox = []
  idle  : c.forwarder.stage.peer? = none
  ended : c.forwarder.attached = false → c.forwarder.running = false

theorem Stands.atRest (h : c.Stands w others) (heffort : c.forwarder.effort = 0) : c.AtRest := by
  have hpositive : ∀ {stage : Stage}, c.forwarder.stage = stage → stage ≠ .ended →
      stage.effort c.forwarder.peers.length = 0 ∧ c.forwarder.reserve = 0 := by
    intro stage hstage hne
    rw [effort_of_stage hstage hne] at heffort
    omega
  cases h with
  | rests stage between                             =>
      have hreserve := (hpositive stage (by simp)).2
      have hmail : c.forwarder.mailbox = [] := by
        by_contra hmail
        rw [reserve, if_neg hmail] at hreserve
        omega
      refine ⟨hmail, by rw [stage]; rfl, fun hdetached => ?_⟩
      rw [reserve, hdetached, if_neg Bool.false_ne_true] at hreserve
      omega
  | ended stage between empty detached              =>
      exact ⟨empty, by rw [stage]; rfl, fun _ => by simp [running, stage]⟩
  | turns past batches done todo stage amid         =>
      have hzero : 3 * (c.forwarder.peers.length - done.length) + 1 = 0 :=
        (hpositive stage (by simp)).1
      omega
  | connects past batches done todo a stage amid _  =>
      have hlt := amid.lt_peers
      have hzero : 3 * (c.forwarder.peers.length - done.length) = 0 :=
        (hpositive stage (by simp)).1
      omega
  | exchanges past batches done todo a stage amid _ =>
      have hlt := amid.lt_peers
      have hzero : 3 * (c.forwarder.peers.length - done.length) - 1 = 0 :=
        (hpositive stage (by simp)).1
      omega

/-- **A forwarder that is left alone comes to rest.** -/
theorem rests_alone (h : c.Stands w others) : ∃ n, (c.run w (List.replicate n .go)).AtRest := by
  induction hn : c.forwarder.effort using Nat.strongRecOn generalizing c with
  | _ n ih =>
      by_cases heffort : c.forwarder.effort = 0
      · exact ⟨0, h.atRest heffort⟩
      · obtain ⟨m, hm⟩ := ih _ (hn ▸ go_hastens h heffort) (go_stands h) rfl
        exact ⟨m + 1, hm⟩

/-! ## The law -/

/-- A good answer is one to a letter that was sent. -/
theorem answered_subset (w : Fortune) (me : Address) (members : List Address)
    (events : List Event) :
    (run w (start me members) events).answered ⊆ (run w (start me members) events).sent := by
  induction events using List.reverseRecOn with
  | nil                       => exact List.nil_subset _
  | append_singleton xs x ih =>
      rw [run_concat]
      cases x with
      | post batch => exact ih
      | detach     => exact ih
      | go         =>
          refine List.append_subset.2 ⟨fun l hl => List.mem_append_left _ (ih hl), fun l hl => ?_⟩
          split at hl
          · exact List.mem_append_left _ (List.mem_of_getLast? (Option.mem_toList.1 hl))
          · exact nomatch hl

/-- What a forwarder of a member does with what is sent to it, however its peers fare. -/
structure Forwards (w : Fortune) (me : Address) (members : List Address) (events : List Event)
    (c : Course) : Prop where
  /-- The rounds take the batches whole and in order; what they have not taken waits. -/
  conserves : c.rounds.flatten ++ c.forwarder.mailbox = posted events
  /-- A letter goes to another member and tells exactly the names of its round. -/
  faithful  : ∀ l ∈ c.sent, l.target ∈ members ∧ l.target ≠ me ∧ ∃ batches,
    (batches, l.round) ∈ c.rounds.zipIdx 1 ∧ l.request = .witnessGc batches.flatten
  /-- No member is sent two letters in one round. -/
  once      : (c.sent.map fun l => (l.round, l.target)).Nodup
  /-- Another member is told, with success, the names of those rounds in which its own connection
      and its own exchange came about: of all rounds that are over for it. -/
  received  : ∀ a ∈ members, a ≠ me →
    c.received a = namesOf (w.tells a) 0 (c.rounds.take (c.passed a))
  /-- All rounds but the last one are over for every member. -/
  passed    : ∀ a, c.rounds.length ≤ c.passed a + 1
  /-- The member itself is told nothing. -/
  spared    : c.received me = []
  /-- A forwarder ends only when nobody fills its mailbox and all that was sent has had a round. -/
  ended     : c.forwarder.running = false →
    .detach ∈ events ∧ c.rounds.flatten = posted events ∧ ∀ a, c.passed a = c.rounds.length
  /-- A forwarder that is left alone brings all that was sent through a round, and ends if nobody
      fills its mailbox. -/
  settles   : ∃ n, (c.run w (List.replicate n .go)).rounds.flatten = posted events ∧
    (∀ a, (c.run w (List.replicate n .go)).passed a =
      (c.run w (List.replicate n .go)).rounds.length) ∧
    (.detach ∈ events → (c.run w (List.replicate n .go)).forwarder.running = false)

theorem passed_of_between {c : Course} (h : c.forwarder.stage.peer? = none) (a : Address) :
    c.passed a = c.rounds.length := by
  rw [passed, h]

end Course

/-- A forwarder that goes on sends itself nothing. -/
theorem posted_append_go (events : List Event) (n : Nat) :
    posted (events ++ List.replicate n .go) = posted events := by
  induction events with
  | nil            =>
      induction n with
      | zero      => rfl
      | succ n ih => exact ih
  | cons x rest ih =>
      cases x with
      | post batch => exact congrArg (batch :: ·) ih
      | detach     => rfl
      | go         => exact ih

open Course in
/-- **Every batch that is sent is told to every other member once, in its order, as far as the
    member's own connection and answers go.** -/
theorem every_batch_forwarded (w : Fortune) (me : Address) {members : List Address}
    (distinct : members.Nodup) (events : List Event) :
    (run w (start me members) events).Forwards w me members events := by
  have hsound := sound_run w me members events
  have hothers : (members.filter (· ≠ me)).Nodup := distinct.filter _
  have hlettered := hsound.stands.lettered hothers
  have hanswered := answered_subset w me members events
  have hmembers : ∀ a, a ∈ members.filter (· ≠ me) ↔ a ∈ members ∧ a ≠ me := by
    intro a
    rw [List.mem_filter, decide_eq_true_iff]
  generalize hc : run w (start me members) events = c at *
  have hfaithful : ∀ l ∈ c.sent, l.target ∈ members ∧ l.target ≠ me ∧ ∃ batches,
      (batches, l.round) ∈ c.rounds.zipIdx 1 ∧ l.request = .witnessGc batches.flatten := by
    intro l hl
    obtain ⟨htarget, hround⟩ := hlettered.letters l hl
    obtain ⟨hmem, hne⟩ := (hmembers _).1 htarget
    exact ⟨hmem, hne, hround⟩
  refine ⟨hsound.conserves, hfaithful, hlettered.once, ?received, ?passed, ?spared, ?ended,
    ?settles⟩
  case received =>
    exact fun a ha hne => hsound.stands.received hothers ((hmembers a).2 ⟨ha, hne⟩)
  case passed   =>
    intro a
    rw [Course.passed]
    split
    · omega
    · split <;> omega
  case spared   =>
    have hnone : c.answered.filter (fun l => l.target = me) = [] := by
      refine List.filter_eq_nil_iff.2 fun l hl htarget => ?_
      exact (hfaithful l (hanswered hl)).2.1 (of_decide_eq_true htarget)
    rw [Course.received, hnone]
    rfl
  case ended    =>
    intro hended
    have hstage : c.forwarder.stage = .ended := by simpa [running] using hended
    obtain ⟨_, hempty, hdetached⟩ := hsound.stands.of_ended hstage
    have hconserves := hsound.conserves
    rw [hempty, List.append_nil] at hconserves
    refine ⟨?_, hconserves, passed_of_between (by rw [hstage]; rfl)⟩
    by_contra hnot
    exact Bool.false_ne_true (hdetached.symm.trans (hsound.attached.2 hnot))
  case settles  =>
    obtain ⟨n, hrest⟩ := rests_alone hsound.stands
    have hlater := sound_run w me members (events ++ List.replicate n .go)
    have hjoin : run w (start me members) (events ++ List.replicate n .go) =
        c.run w (List.replicate n .go) := by
      rw [← hc]
      exact List.foldl_append ..
    rw [hjoin] at hlater
    have hconserves := hlater.conserves
    rw [hrest.empty, List.append_nil, posted_append_go] at hconserves
    refine ⟨n, hconserves, passed_of_between hrest.idle, fun hmem => hrest.ended ?_⟩
    refine Bool.eq_false_iff.2 fun hopen => ?_
    exact hlater.attached.1 hopen (List.mem_append_left _ hmem)

/-! ### Two peers, each of them lost once -/

/-- In the first round there is no connection to `m1`; in the second one `m2` does not answer. -/
def mishaps : Fortune where
  connect k a := if k = 1 ∧ a = ⟨"m1"⟩ then .error ⟨.connect, "m1 is down"⟩ else .ok ()
  answer k a  :=
    if k = 2 ∧ a = ⟨"m2"⟩ then .error ⟨.send, "connection reset"⟩ else .ok (.witnessGc 0)

/-- The second round takes two batches that came while the first one was under way, and a batch that
    comes too late is not sent. -/
def crowded : List Event :=
  [.post [⟨⟨1⟩, ⟨0⟩⟩], .go, .post [⟨⟨1⟩, ⟨1⟩⟩, ⟨⟨1⟩, ⟨2⟩⟩], .go, .post [⟨⟨2⟩, ⟨0⟩⟩], .go, .go, .go,
    .detach, .post [⟨⟨2⟩, ⟨1⟩⟩], .go, .go, .go, .go, .go, .go, .go, .go]

open Course in
theorem forwarded_around_mishaps :
    [⟨"m0"⟩, ⟨"m1"⟩, (⟨"m2"⟩ : Address)].Nodup ∧
      (run mishaps (start ⟨"m0"⟩ [⟨"m0"⟩, ⟨"m1"⟩, ⟨"m2"⟩]) crowded).Forwards mishaps ⟨"m0"⟩
        [⟨"m0"⟩, ⟨"m1"⟩, ⟨"m2"⟩] crowded ∧
      (run mishaps (start ⟨"m0"⟩ [⟨"m0"⟩, ⟨"m1"⟩, ⟨"m2"⟩]) crowded).received ⟨"m1"⟩ =
        [⟨⟨1⟩, ⟨1⟩⟩, ⟨⟨1⟩, ⟨2⟩⟩, ⟨⟨2⟩, ⟨0⟩⟩] ∧
      (run mishaps (start ⟨"m0"⟩ [⟨"m0"⟩, ⟨"m1"⟩, ⟨"m2"⟩]) crowded).received ⟨"m2"⟩ =
        [⟨⟨1⟩, ⟨0⟩⟩] ∧
      (run mishaps (start ⟨"m0"⟩ [⟨"m0"⟩, ⟨"m1"⟩, ⟨"m2"⟩]) crowded).forwarder.running = false :=
  ⟨by decide, every_batch_forwarded mishaps ⟨"m0"⟩ (by decide) crowded, by decide, by decide,
    by decide⟩

end Forwarder

end WitnessReplication

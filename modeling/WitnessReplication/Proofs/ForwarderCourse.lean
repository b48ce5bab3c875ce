import Mathlib.Data.List.Induction
import Mathlib.Data.List.Nodup
import WitnessReplication.Forwarder

/-!
# Forwarder course — the rounds of a forwarder, whenever batches come and however peers fare

    Batches are dropped into the mailbox at any moment: between two rounds, or while the forwarder
    waits for a connection or for an answer.  A connection that is tried may come about or not, and
    so may an answer, at every peer and in every round.  What a forwarder does then is a course: the
    batches that each round took out of the mailbox, the requests that were sent, and those that
    were answered well.

    At every moment the course is known exactly.  Some peers are done with the round, one may be
    waited for, and the others are as the round before has left them.  A peer keeps its connection
    from one round to the next exactly if it was told of the one before, so that nothing but its own
    outcomes decides what it is told.

* **`Forwarder.Fortune`** — how connections and exchanges turn out, by the round and the peer.
* **`Forwarder.Course`** and **`Course.run`** — a forwarder with its past.
* **`Course.Stands`** — what a course has come to; **`stands_run`** — it always has.
-/

namespace WitnessReplication

namespace Forwarder

/-! ## Fortunes -/

/-- How it turns out when a connection to a peer is tried, and when a peer is told something, by the
    number of the round and the peer.  A round tries either once at most, so that any behaviour of
    the peers is such a fortune. -/
structure Fortune where
  connect : Nat → Address → Except TransportError Unit
  answer  : Nat → Address → Except TransportError Reply

namespace Fortune

/-- Whether a peer is told of a round: it has kept the connection over which it was told of the
    round before, or gets a new one, and the exchange succeeds.  The first round is the one
    numbered 1. -/
def tells (w : Fortune) (a : Address) : Nat → Bool
  | 0     => false
  | k + 1 => (w.tells a k || (w.connect (k + 1) a).isOk) && (w.answer (k + 1) a).isOk

/-- Whether there is a connection to a peer when it is its turn in a round. -/
def reaches (w : Fortune) (a : Address) : Nat → Bool
  | 0     => false
  | k + 1 => w.tells a k || (w.connect (k + 1) a).isOk

/-- A peer as a round has left it. -/
def peer (w : Fortune) (k : Nat) (a : Address) : Peer := ⟨a, w.tells a k⟩

/-- What a forwarder waits for, in the round of a number. -/
def signal (w : Fortune) (round : Nat) (f : Forwarder) : Signal :=
  match f.stage with
  | .connecting _ i => .connected (w.connect round ((f.peers[i]?.map (·.address)).getD ⟨""⟩))
  | .exchanging _ i => .answered (w.answer round ((f.peers[i]?.map (·.address)).getD ⟨""⟩))
  | _               => .proceed

end Fortune

/-! ## Courses -/

/-- What happens to a forwarder.  A batch that comes while the mailbox is being emptied is one that
    has come before, if it is taken, and else one that comes right after. -/
inductive Event where
  | post (batch : List RequestId)
  /-- Nobody fills the mailbox any more. -/
  | detach
  /-- The forwarder goes on: it is told what it waits for. -/
  | go
  deriving DecidableEq

/-- The batches that are sent: whatever is dropped into the mailbox while somebody may fill it. -/
def posted : List Event → List (List RequestId)
  | []                  => []
  | .post batch :: rest => batch :: posted rest
  | .detach :: _        => []
  | .go :: rest         => posted rest

/-- A request on its way: in which round it was sent, and to whom. -/
structure Letter where
  round   : Nat
  target  : Address
  request : Request
  deriving DecidableEq

namespace Letter

/-- The names that a letter tells of. -/
def names (l : Letter) : List RequestId :=
  match l.request with
  | .witnessGc synced => synced
  | _                 => []

/-- The letter that is sent with a demand. -/
def of? (round : Nat) : Demand Unit → Option Letter
  | .exchange _ target request => some ⟨round, target, request⟩
  | _                          => none

end Letter

/-- A forwarder with its past. -/
structure Course where
  forwarder : Forwarder
  /-- The batches that each round took, the rounds in order. -/
  rounds    : List (List (List RequestId)) := []
  /-- The letters that were sent. -/
  sent      : List Letter := []
  /-- The letters that were answered well. -/
  answered  : List Letter := []

/-- Whether somebody has answered, and well. -/
def repliedTo : Signal → Bool
  | .answered outcome => outcome.isOk
  | _                 => false

namespace Course

/-- A forwarder for a member that has done nothing yet. -/
def start (me : Address) (members : List Address) : Course :=
  { forwarder := ofMembers me members }

/-- The forwarder goes on.  What leaves the mailbox is taken by a new round, and a good answer is
    one to the letter that was sent last. -/
def go (w : Fortune) (c : Course) : Course :=
  let signal := w.signal c.rounds.length c.forwarder
  let p := c.forwarder.step signal
  let taken := c.forwarder.mailbox.take (c.forwarder.mailbox.length - p.state.mailbox.length)
  let rounds := if taken = [] then c.rounds else c.rounds ++ [taken]
  { forwarder := p.state
    rounds
    sent      := c.sent ++ p.demands.filterMap (Letter.of? rounds.length)
    answered  := c.answered ++ if repliedTo signal then c.sent.getLast?.toList else [] }

/-- Something happens. -/
def step (w : Fortune) (c : Course) : Event → Course
  | .post batch => { c with forwarder := c.forwarder.post batch }
  | .detach     => { c with forwarder := c.forwarder.detach }
  | .go         => c.go w

/-- One thing happens after the other. -/
def run (w : Fortune) (c : Course) (events : List Event) : Course := events.foldl (step w) c

/-- The names of which a peer was told successfully, in order. -/
def received (c : Course) (a : Address) : List RequestId :=
  (c.answered.filter fun l => l.target = a).flatMap Letter.names

end Course

/-- The peer at which a round is. -/
def Stage.peer? : Stage → Option Nat
  | .turning _ i    => some i
  | .connecting _ i => some i
  | .exchanging _ i => some i
  | _               => none

/-- How many rounds are over for a peer: all that have begun, unless one is at the peer or has not
    come to it yet. -/
def Course.passed (c : Course) (a : Address) : Nat :=
  match c.forwarder.stage.peer? with
  | none   => c.rounds.length
  | some i =>
      if a ∈ (c.forwarder.peers.take i).map (·.address) then c.rounds.length
      else c.rounds.length - 1

/-! ## Letters -/

/-- The letter of a round to a peer. -/
def letter (k : Nat) (batches : List (List RequestId)) (a : Address) : Letter :=
  ⟨k, a, .witnessGc batches.flatten⟩

/-- The letters of some rounds, the first of them numbered `k + 1`: in each of them to the peers for
    which `p` holds. -/
def letters (p : Address → Nat → Bool) (peers : List Address) :
    Nat → List (List (List RequestId)) → List Letter
  | _, []              => []
  | k, batches :: rest =>
      (peers.filter (p · (k + 1))).map (letter (k + 1) batches) ++ letters p peers (k + 1) rest

theorem letters_concat (p : Address → Nat → Bool) (peers : List Address) (k : Nat)
    (past : List (List (List RequestId))) (batches : List (List RequestId)) :
    letters p peers k (past ++ [batches]) = letters p peers k past ++
      (peers.filter (p · (k + past.length + 1))).map (letter (k + past.length + 1) batches) := by
  induction past generalizing k with
  | nil          => exact List.append_nil _
  | cons b bs ih =>
      have hnumber : k + 1 + bs.length = k + (b :: bs).length := by
        rw [List.length_cons]
        omega
      show _ ++ letters p peers (k + 1) (bs ++ [batches]) = (_ ++ letters p peers (k + 1) bs) ++ _
      rw [ih, List.append_assoc, hnumber]

/-! ## What a course has come to -/

namespace Course

variable {w : Fortune} {others : List Address} {c : Course}

/-- A round is under way: it has taken its batches, is done with some peers, and has asked some more
    that have not answered. -/
structure Amid (w : Fortune) (others : List Address) (c : Course)
    (past : List (List (List RequestId))) (batches : List (List RequestId))
    (done todo asked : List Address) (rest : List Peer) : Prop where
  split    : others = done ++ todo
  rounds   : c.rounds = past ++ [batches]
  peers    : c.forwarder.peers = done.map (w.peer (past.length + 1)) ++ rest
  sent     : c.sent = letters w.reaches others 0 past ++
    (done.filter (w.reaches · (past.length + 1)) ++ asked).map (letter (past.length + 1) batches)
  answered : c.answered = letters w.tells others 0 past ++
    (done.filter (w.tells · (past.length + 1))).map (letter (past.length + 1) batches)

/-- All rounds are over. -/
structure Between (w : Fortune) (others : List Address) (c : Course) : Prop where
  peers    : c.forwarder.peers = others.map (w.peer c.rounds.length)
  sent     : c.sent = letters w.reaches others 0 c.rounds
  answered : c.answered = letters w.tells others 0 c.rounds

/-- What a course has come to, by the stage of the forwarder. -/
inductive Stands (w : Fortune) (others : List Address) (c : Course) : Prop where
  | rests (stage : c.forwarder.stage = .idle) (between : c.Between w others)
  | ended (stage : c.forwarder.stage = .ended) (between : c.Between w others)
      (empty : c.forwarder.mailbox = []) (detached : c.forwarder.attached = false)
  | turns (past : List (List (List RequestId))) (batches : List (List RequestId))
      (done todo : List Address)
      (stage : c.forwarder.stage = .turning batches.flatten done.length)
      (amid : c.Amid w others past batches done todo [] (todo.map (w.peer past.length)))
  | connects (past : List (List (List RequestId))) (batches : List (List RequestId))
      (done todo : List Address) (a : Address)
      (stage : c.forwarder.stage = .connecting batches.flatten done.length)
      (amid : c.Amid w others past batches done (a :: todo) []
        ((a :: todo).map (w.peer past.length)))
      (apart : w.tells a past.length = false)
  | exchanges (past : List (List (List RequestId))) (batches : List (List RequestId))
      (done todo : List Address) (a : Address)
      (stage : c.forwarder.stage = .exchanging batches.flatten done.length)
      (amid : c.Amid w others past batches done (a :: todo) [a]
        (⟨a, true⟩ :: todo.map (w.peer past.length)))
      (reached : w.reaches a (past.length + 1) = true)

/-- The peer whose turn it is comes behind those that the round is done with. -/
theorem Amid.peer? {past : List (List (List RequestId))} {batches : List (List RequestId)}
    {done todo asked : List Address} {rest : List Peer}
    (h : c.Amid w others past batches done todo asked rest) :
    c.forwarder.peers[done.length]? = rest.head? := by
  have hlength : (done.map (w.peer (past.length + 1))).length ≤ done.length :=
    Nat.le_of_eq (List.length_map ..)
  rw [h.peers, List.getElem?_append_right hlength, List.length_map, Nat.sub_self,
    List.head?_eq_getElem?]

/-- The letters that a forwarder sends as it turns to a peer. -/
def turn (c : Course) (synced : List RequestId) (i : Nat) : Course :=
  { c with
    forwarder := (c.forwarder.turn synced i).state
    sent      := c.sent ++
      (c.forwarder.turn synced i).demands.filterMap (Letter.of? c.rounds.length) }

/-- **Turning to a peer**: it is sent the letter of the round if there is a connection to it, and
    after the last peer the round is over. -/
theorem turn_stands {past : List (List (List RequestId))} {batches : List (List RequestId)}
    {done todo : List Address}
    (h : c.Amid w others past batches done todo [] (todo.map (w.peer past.length))) :
    (c.turn batches.flatten done.length).Stands w others := by
  have hrounds : c.rounds.length = past.length + 1 := by
    rw [h.rounds, List.length_append]
    rfl
  have hpeer := h.peer?
  cases todo with
  | nil       =>
      have hothers : others = done := by
        rw [h.split, List.append_nil]
      have hturn : c.forwarder.turn batches.flatten done.length =
          { state := { c.forwarder with stage := .idle } } := by
        rw [Forwarder.turn, hpeer]
        rfl
      have hfull : ∀ p, letters p others 0 c.rounds = letters p others 0 past ++
          (done.filter (p · (past.length + 1))).map (letter (past.length + 1) batches) := by
        intro p
        rw [h.rounds, letters_concat, Nat.zero_add, hothers]
      rw [turn, hturn]
      refine .rests rfl ⟨?_, ?_, ?_⟩
      · show c.forwarder.peers = others.map (w.peer c.rounds.length)
        rw [h.peers, hrounds, hothers]
        exact List.append_nil _
      · show c.sent ++ [] = letters w.reaches others 0 c.rounds
        rw [List.append_nil, hfull, h.sent, List.append_nil]
      · show c.answered = letters w.tells others 0 c.rounds
        rw [hfull, h.answered]
  | cons a as =>
      cases hlinked : w.tells a past.length with
      | false =>
          have hturn : c.forwarder.turn batches.flatten done.length =
              c.forwarder.await (.connecting batches.flatten done.length) (.connect () a) := by
            rw [Forwarder.turn, hpeer]
            show (if w.tells a past.length = true then _ else _) = _
            rw [hlinked]
            rfl
          rw [turn, hturn]
          refine .connects past batches done as a rfl ?_ hlinked
          refine ⟨h.split, h.rounds, h.peers, ?_, h.answered⟩
          show c.sent ++ [] = _
          rw [List.append_nil, h.sent]
      | true  =>
          have hturn : c.forwarder.turn batches.flatten done.length =
              c.forwarder.send batches.flatten done.length a := by
            rw [Forwarder.turn, hpeer]
            show (if w.tells a past.length = true then _ else _) = _
            rw [hlinked]
            rfl
          rw [turn, hturn]
          refine .exchanges past batches done as a rfl ?_ ?_
          · refine ⟨h.split, h.rounds, ?_, ?_, h.answered⟩
            · show c.forwarder.peers = _
              rw [h.peers]
              show _ ++ (⟨a, w.tells a past.length⟩ : Peer) :: _ = _
              rw [hlinked]
            · show c.sent ++ [letter c.rounds.length batches a] = _
              rw [h.sent, hrounds, List.append_assoc, List.append_nil, List.map_append]
              rfl
          · show (w.tells a past.length || _) = true
            rw [hlinked]
            rfl

/-- A peer is done with, whether it was told or not, and has a connection accordingly: the round
    goes on to the next. -/
theorem Amid.passes {past : List (List (List RequestId))} {batches : List (List RequestId)}
    {done todo asked : List Address} {a : Address} {rest : List Peer} {f : Forwarder}
    {answered : List Letter} (h : c.Amid w others past batches done (a :: todo) asked rest)
    (stage : f.stage = .turning batches.flatten (done.length + 1))
    (peers : f.peers = done.map (w.peer (past.length + 1)) ++
      w.peer (past.length + 1) a :: todo.map (w.peer past.length))
    (hasked : asked = [a].filter (w.reaches · (past.length + 1)))
    (hanswered : answered =
      ([a].filter (w.tells · (past.length + 1))).map (letter (past.length + 1) batches)) :
    Stands w others ⟨f, c.rounds, c.sent ++ [], c.answered ++ answered⟩ := by
  have hlength : (done ++ [a]).length = done.length + 1 := List.length_append
  refine .turns past batches (done ++ [a]) todo (hlength ▸ stage) ⟨?_, h.rounds, ?_, ?_, ?_⟩
  · rw [h.split, List.append_assoc]
    rfl
  · show f.peers = _
    rw [peers, List.map_append, List.append_assoc]
    rfl
  · show c.sent ++ [] = _
    rw [h.sent, hasked, List.filter_append, List.append_nil, List.append_nil]
  · show c.answered ++ answered = _
    rw [h.answered, hanswered, List.filter_append, List.map_append, List.append_assoc]

/-- The state of a forwarder that goes on while nothing leaves the mailbox. -/
theorem go_of_kept {p : Forwarder.Step}
    (hstep : c.forwarder.step (w.signal c.rounds.length c.forwarder) = p)
    (hkept : p.state.mailbox = c.forwarder.mailbox) :
    c.go w =
      { forwarder := p.state
        rounds    := c.rounds
        sent      := c.sent ++ p.demands.filterMap (Letter.of? c.rounds.length)
        answered  := c.answered ++
          if repliedTo (w.signal c.rounds.length c.forwarder) then c.sent.getLast?.toList
          else [] } := by
  rw [go, hstep, hkept, Nat.sub_self, List.take_zero]
  rfl

/-- Turning to a peer takes nothing out of the mailbox, and keeps it as open as it was. -/
theorem turn_keeps (f : Forwarder) (synced : List RequestId) (i : Nat) :
    (f.turn synced i).state.mailbox = f.mailbox ∧
      (f.turn synced i).state.attached = f.attached := by
  rw [Forwarder.turn]
  split
  · exact ⟨rfl, rfl⟩
  · split <;> exact ⟨rfl, rfl⟩

/-- Between two rounds, or after the last, a forwarder that goes on begins a round with everything
    in the mailbox, or ends if there is nothing and cannot be any more. -/
theorem idle_stands (hstage : c.forwarder.stage = .idle) (h : c.Between w others) :
    (c.go w).Stands w others := by
  have hsignal : w.signal c.rounds.length c.forwarder = .proceed := by
    rw [Fortune.signal, hstage]
  have hstep : c.forwarder.step (w.signal c.rounds.length c.forwarder) = c.forwarder.begin := by
    simp only [hsignal, Forwarder.step, hstage]
  cases hmail : c.forwarder.mailbox with
  | nil             =>
      have hbegin : c.forwarder.begin = { state :=
          if c.forwarder.attached then c.forwarder else { c.forwarder with stage := .ended } } := by
        simp only [Forwarder.begin, hmail]
      rw [go_of_kept (hstep.trans hbegin) (by split <;> rfl), hsignal]
      cases hopen : c.forwarder.attached with
      | true  =>
          refine .rests hstage ⟨h.peers, ?_, ?_⟩
          · exact (List.append_nil _).trans h.sent
          · exact (List.append_nil _).trans h.answered
      | false =>
          refine .ended rfl ⟨h.peers, ?_, ?_⟩ hmail hopen
          · exact (List.append_nil _).trans h.sent
          · exact (List.append_nil _).trans h.answered
  | cons batch more =>
      have hbegin : c.forwarder.begin =
          { c.forwarder with mailbox := [] }.turn c.forwarder.mailbox.flatten 0 := by
        simp only [Forwarder.begin, hmail]
      have hgo : c.go w = Course.turn
          { c with
            forwarder := { c.forwarder with mailbox := [] }
            rounds    := c.rounds ++ [c.forwarder.mailbox] } c.forwarder.mailbox.flatten 0 := by
        have htaken : c.forwarder.mailbox.take (c.forwarder.mailbox.length -
            ({ c.forwarder with mailbox := [] }.turn
              c.forwarder.mailbox.flatten 0).state.mailbox.length) = c.forwarder.mailbox := by
          rw [(turn_keeps ..).1]
          exact List.take_length
        have hsome : c.forwarder.mailbox ≠ [] := by
          rw [hmail]
          exact List.cons_ne_nil batch more
        rw [go, hstep, hbegin, htaken, if_neg hsome, hsignal, turn]
        show Course.mk _ _ _ (c.answered ++ []) = _
        rw [List.append_nil]
      rw [hgo]
      have hamid : Amid w others
          { c with
            forwarder := { c.forwarder with mailbox := [] }
            rounds    := c.rounds ++ [c.forwarder.mailbox] } c.rounds c.forwarder.mailbox [] others
          [] (others.map (w.peer c.rounds.length)) :=
        ⟨rfl, rfl, h.peers, h.sent.trans (List.append_nil _).symm,
          h.answered.trans (List.append_nil _).symm⟩
      exact turn_stands hamid

/-- The peer at a place, and the list with another one in its place. -/
theorem mark_at {f : Forwarder} {before after : List Peer} {p : Peer}
    (h : f.peers = before ++ p :: after) {i : Nat} (hi : before.length = i) (connected : Bool) :
    (f.mark i connected).peers = before ++ { p with connected } :: after := by
  show f.peers.modify i _ = _
  rw [h, ← hi]
  exact List.modifyTailIdx_add _ 0 before (p :: after)

/-- The address of the peer whose turn it is. -/
theorem Amid.address {past : List (List (List RequestId))} {batches : List (List RequestId)}
    {done todo asked : List Address} {p : Peer} {rest : List Peer}
    (h : c.Amid w others past batches done todo asked (p :: rest)) :
    (c.forwarder.peers[done.length]?.map (·.address)).getD ⟨""⟩ = p.address := by
  rw [h.peer?]
  rfl

/-- A connection was tried: the peer is sent the letter, or passed over. -/
theorem connecting_stands {past : List (List (List RequestId))} {batches : List (List RequestId)}
    {done todo : List Address} {a : Address}
    (hstage : c.forwarder.stage = .connecting batches.flatten done.length)
    (h : c.Amid w others past batches done (a :: todo) [] ((a :: todo).map (w.peer past.length)))
    (apart : w.tells a past.length = false) : (c.go w).Stands w others := by
  have hrounds : c.rounds.length = past.length + 1 := by
    rw [h.rounds, List.length_append]
    rfl
  have hsignal : w.signal c.rounds.length c.forwarder =
      .connected (w.connect (past.length + 1) a) := by
    simp only [Fortune.signal, hstage]
    rw [h.address, hrounds]
    rfl
  have hdone : (done.map (w.peer (past.length + 1))).length = done.length := List.length_map ..
  cases houtcome : w.connect (past.length + 1) a with
  | ok _    =>
      have hstep : c.forwarder.step (w.signal c.rounds.length c.forwarder) =
          (c.forwarder.mark done.length true).send batches.flatten done.length a := by
        rw [hsignal, houtcome]
        simp only [Forwarder.step, hstage]
        rw [h.peer?]
        rfl
      have hpeers := mark_at (i := done.length) h.peers hdone true
      rw [go_of_kept hstep rfl, hsignal]
      refine .exchanges past batches done todo a rfl ⟨h.split, h.rounds, hpeers, ?_, ?_⟩ ?_
      · show c.sent ++ [letter c.rounds.length batches a] = _
        rw [h.sent, hrounds, List.append_assoc, List.append_nil, List.map_append]
        rfl
      · exact (List.append_nil _).trans h.answered
      · show (w.tells a past.length || (w.connect (past.length + 1) a).isOk) = true
        rw [houtcome]
        exact Bool.or_true _
  | error e =>
      have hstep : c.forwarder.step (w.signal c.rounds.length c.forwarder) =
          { state := { c.forwarder with
              stage := .turning batches.flatten (done.length + 1) } } := by
        rw [hsignal, houtcome]
        simp only [Forwarder.step, hstage]
      have hreaches : w.reaches a (past.length + 1) = false := by
        show (w.tells a past.length || (w.connect (past.length + 1) a).isOk) = false
        rw [apart, houtcome]
        rfl
      have htells : w.tells a (past.length + 1) = false := by
        show (w.reaches a (past.length + 1) && _) = false
        rw [hreaches, Bool.false_and]
      rw [go_of_kept hstep rfl, hsignal]
      refine h.passes rfl ?_ ?_ ?_
      · show c.forwarder.peers = _
        rw [h.peers]
        show _ ++ (⟨a, w.tells a past.length⟩ : Peer) :: _ = _ ++ ⟨a, _⟩ :: _
        rw [apart, htells]
      · rw [List.filter_singleton, hreaches]
        rfl
      · rw [List.filter_singleton, htells]
        rfl

/-- A peer has answered, or failed to: the round goes on to the next. -/
theorem exchanging_stands {past : List (List (List RequestId))} {batches : List (List RequestId)}
    {done todo : List Address} {a : Address}
    (hstage : c.forwarder.stage = .exchanging batches.flatten done.length)
    (h : c.Amid w others past batches done (a :: todo) [a]
      (⟨a, true⟩ :: todo.map (w.peer past.length)))
    (reached : w.reaches a (past.length + 1) = true) : (c.go w).Stands w others := by
  have hrounds : c.rounds.length = past.length + 1 := by
    rw [h.rounds, List.length_append]
    rfl
  have hsignal : w.signal c.rounds.length c.forwarder =
      .answered (w.answer (past.length + 1) a) := by
    simp only [Fortune.signal, hstage]
    rw [h.address, hrounds]
  have hdone : (done.map (w.peer (past.length + 1))).length = done.length := List.length_map ..
  have hlast : c.sent.getLast? = some (letter (past.length + 1) batches a) := by
    rw [h.sent, List.map_append, ← List.append_assoc]
    exact List.getLast?_concat
  have htells : w.tells a (past.length + 1) = (w.answer (past.length + 1) a).isOk := by
    show (w.reaches a (past.length + 1) && _) = _
    rw [reached, Bool.true_and]
  have hasked : [a] = [a].filter (w.reaches · (past.length + 1)) := by
    rw [List.filter_singleton, reached]
    rfl
  cases houtcome : w.answer (past.length + 1) a with
  | ok reply =>
      have hstep : c.forwarder.step (w.signal c.rounds.length c.forwarder) =
          { state := { c.forwarder with
              stage := .turning batches.flatten (done.length + 1) } } := by
        rw [hsignal, houtcome]
        simp only [Forwarder.step, hstage]
      rw [houtcome] at htells
      rw [go_of_kept hstep rfl, hsignal, houtcome, hlast]
      refine h.passes rfl ?_ hasked ?_
      · show c.forwarder.peers = _
        rw [h.peers]
        show _ = _ ++ (⟨a, w.tells a (past.length + 1)⟩ : Peer) :: _
        rw [htells]
        rfl
      · rw [List.filter_singleton, htells]
        rfl
  | error e  =>
      have hstep : c.forwarder.step (w.signal c.rounds.length c.forwarder) =
          { state := { c.forwarder.mark done.length false with
              stage := .turning batches.flatten (done.length + 1) } } := by
        rw [hsignal, houtcome]
        simp only [Forwarder.step, hstage]
      have hpeers := mark_at (i := done.length) h.peers hdone false
      rw [houtcome] at htells
      rw [go_of_kept hstep rfl, hsignal, houtcome]
      refine h.passes rfl ?_ hasked ?_
      · show (c.forwarder.mark done.length false).peers = _
        rw [hpeers]
        show _ = _ ++ (⟨a, w.tells a (past.length + 1)⟩ : Peer) :: _
        rw [htells]
        rfl
      · rw [List.filter_singleton, htells]
        rfl

/-- **Going on leads from one standing to the next.** -/
theorem go_stands (h : c.Stands w others) : (c.go w).Stands w others := by
  cases h with
  | rests stage between                                    => exact idle_stands stage between
  | ended stage between empty detached                     =>
      have hsignal : w.signal c.rounds.length c.forwarder = .proceed := by
        simp only [Fortune.signal, stage]
      have hstep : c.forwarder.step (w.signal c.rounds.length c.forwarder) =
          { state := c.forwarder } := by
        simp only [hsignal, Forwarder.step, stage]
      rw [go_of_kept hstep rfl, hsignal]
      refine .ended stage ⟨between.peers, ?_, ?_⟩ empty detached
      · exact (List.append_nil _).trans between.sent
      · exact (List.append_nil _).trans between.answered
  | turns past batches done todo stage amid                =>
      have hsignal : w.signal c.rounds.length c.forwarder = .proceed := by
        simp only [Fortune.signal, stage]
      have hstep : c.forwarder.step (w.signal c.rounds.length c.forwarder) =
          c.forwarder.turn batches.flatten done.length := by
        simp only [hsignal, Forwarder.step, stage]
      have hgo : c.go w = c.turn batches.flatten done.length := by
        rw [go_of_kept hstep (turn_keeps ..).1, hsignal, turn]
        show Course.mk _ _ _ (c.answered ++ []) = _
        rw [List.append_nil]
      rw [hgo]
      exact turn_stands amid
  | connects past batches done todo a stage amid apart     =>
      exact connecting_stands stage amid apart
  | exchanges past batches done todo a stage amid reached  =>
      exact exchanging_stands stage amid reached

/-! ## What is in the mailbox -/

/-- A step of a forwarder leaves the mailbox as it was, or empties it; it does not close it. -/
theorem step_keeps (f : Forwarder) (s : Signal) :
    ((f.step s).state.mailbox = f.mailbox ∨ (f.step s).state.mailbox = []) ∧
      (f.step s).state.attached = f.attached := by
  unfold Forwarder.step
  split
  · rw [Forwarder.begin]
    split
    · split <;> exact ⟨.inl rfl, rfl⟩
    · exact ⟨.inr (turn_keeps ..).1, (turn_keeps ..).2⟩
  · exact ⟨.inl (turn_keeps ..).1, (turn_keeps ..).2⟩
  · split <;> exact ⟨.inl rfl, rfl⟩
  all_goals exact ⟨.inl rfl, rfl⟩

/-- What leaves the mailbox is in a round, and nothing else is. -/
theorem go_conserves (w : Fortune) (c : Course) :
    (c.go w).rounds.flatten ++ (c.go w).forwarder.mailbox =
      c.rounds.flatten ++ c.forwarder.mailbox := by
  rw [go]
  dsimp only
  rcases (step_keeps c.forwarder (w.signal c.rounds.length c.forwarder)).1 with hkept | hgone
  · rw [hkept, Nat.sub_self, List.take_zero, if_pos rfl]
  · rw [hgone, List.length_nil, Nat.sub_zero, List.take_length]
    split
    · rename_i hempty
      rw [hempty]
    · rw [List.flatten_append, List.append_nil]
      simp

/-! ## Runs -/

/-- What a course has come to after some events. -/
structure Sound (w : Fortune) (others : List Address) (events : List Event) (c : Course) :
    Prop where
  stands    : c.Stands w others
  conserves : c.rounds.flatten ++ c.forwarder.mailbox = posted events
  attached  : c.forwarder.attached = true ↔ .detach ∉ events

theorem run_concat (w : Fortune) (c : Course) (events : List Event) (x : Event) :
    c.run w (events ++ [x]) = (c.run w events).step w x := List.foldl_concat ..

end Course

/-- A batch is sent unless somebody was the last to fill the mailbox before. -/
theorem posted_concat (events : List Event) (x : Event) :
    posted (events ++ [x]) =
      if .detach ∈ events then posted events else posted events ++ posted [x] := by
  induction events with
  | nil            => rfl
  | cons y rest ih =>
      cases y with
      | post batch =>
          simp only [List.cons_append, posted, ih, List.mem_cons, reduceCtorEq, false_or]
          split <;> rfl
      | detach     => simp only [List.cons_append, posted, List.mem_cons, true_or, if_true]
      | go         =>
          simp only [List.cons_append, posted, ih, List.mem_cons, reduceCtorEq, false_or]

namespace Course

variable {w : Fortune} {others : List Address} {c : Course} {events : List Event}

/-- A forwarder that has ended has nothing in its mailbox, and nobody can fill it. -/
theorem Stands.of_ended (h : c.Stands w others) (hstage : c.forwarder.stage = .ended) :
    c.Between w others ∧ c.forwarder.mailbox = [] ∧ c.forwarder.attached = false := by
  cases h with
  | ended _ between empty detached => exact ⟨between, empty, detached⟩
  | rests stage _                  => exact nomatch stage.symm.trans hstage
  | turns _ _ _ _ stage _          => exact nomatch stage.symm.trans hstage
  | connects _ _ _ _ _ stage _ _   => exact nomatch stage.symm.trans hstage
  | exchanges _ _ _ _ _ stage _ _  => exact nomatch stage.symm.trans hstage

/-- A mailbox that somebody may fill is one that the forwarder still empties. -/
theorem Sound.accepts (h : c.Sound w others events) :
    c.forwarder.accepts = c.forwarder.attached := by
  have hrunning : c.forwarder.running = false → c.forwarder.attached = false := by
    intro hended
    have hstage : c.forwarder.stage = .ended := by simpa [running] using hended
    exact (h.stands.of_ended hstage).2.2
  rw [Forwarder.accepts]
  cases hr : c.forwarder.running with
  | true  => rfl
  | false => rw [hrunning hr, Bool.and_false]

/-- Only the mailbox changes, or who may fill it. -/
theorem Stands.mail {f : Forwarder} (h : c.Stands w others)
    (stage : f.stage = c.forwarder.stage) (peers : f.peers = c.forwarder.peers)
    (ended : f.stage = .ended → f.mailbox = [] ∧ f.attached = false) :
    Stands w others { c with forwarder := f } := by
  cases h with
  | rests at_ between                               =>
      exact .rests (stage.trans at_) ⟨peers.trans between.peers, between.sent, between.answered⟩
  | ended at_ between _ _                           =>
      obtain ⟨empty, detached⟩ := ended (stage.trans at_)
      exact .ended (stage.trans at_) ⟨peers.trans between.peers, between.sent, between.answered⟩
        empty detached
  | turns past batches done todo at_ amid           =>
      exact .turns past batches done todo (stage.trans at_)
        ⟨amid.split, amid.rounds, peers.trans amid.peers, amid.sent, amid.answered⟩
  | connects past batches done todo a at_ amid h    =>
      exact .connects past batches done todo a (stage.trans at_)
        ⟨amid.split, amid.rounds, peers.trans amid.peers, amid.sent, amid.answered⟩ h
  | exchanges past batches done todo a at_ amid h   =>
      exact .exchanges past batches done todo a (stage.trans at_)
        ⟨amid.split, amid.rounds, peers.trans amid.peers, amid.sent, amid.answered⟩ h

/-- What happens leads from one sound course to the next. -/
theorem Sound.step (h : c.Sound w others events) (x : Event) :
    (c.step w x).Sound w others (events ++ [x]) := by
  have hposted := posted_concat events x
  cases x with
  | post batch =>
      have hopen : c.forwarder.accepts = decide (.detach ∉ events) := by
        rw [h.accepts, Bool.eq_iff_iff, h.attached, decide_eq_true_iff]
      have hpost : c.forwarder.post batch =
          if .detach ∈ events then c.forwarder
          else { c.forwarder with mailbox := c.forwarder.mailbox ++ [batch] } := by
        rw [Forwarder.post, hopen]
        by_cases hd : .detach ∈ events <;> simp [hd]
      refine ⟨?stands, ?conserves, ?attached⟩
      case stands    =>
        show Stands w others { c with forwarder := c.forwarder.post batch }
        rw [hpost]
        split
        · exact h.stands
        · rename_i hd
          refine h.stands.mail rfl rfl fun hended => ?_
          exact absurd (h.attached.2 hd) (Bool.eq_false_iff.1 (h.stands.of_ended hended).2.2)
      case conserves =>
        show c.rounds.flatten ++ (c.forwarder.post batch).mailbox = _
        rw [hpost, hposted]
        split
        · exact h.conserves
        · show _ ++ (_ ++ _) = _
          rw [← List.append_assoc, h.conserves]
          rfl
      case attached  =>
        show (c.forwarder.post batch).attached = true ↔ _
        rw [hpost, List.mem_append]
        split <;> simpa using h.attached
  | detach     =>
      refine ⟨?stands, ?conserves, ?attached⟩
      case stands    =>
        exact h.stands.mail rfl rfl fun hended => ⟨(h.stands.of_ended hended).2.1, rfl⟩
      case conserves =>
        refine Eq.trans h.conserves ?_
        rw [hposted]
        split
        · rfl
        · exact (List.append_nil _).symm
      case attached  =>
        show (false = true) ↔ _
        simp
  | go         =>
      refine ⟨go_stands h.stands, ?conserves, ?attached⟩
      case conserves =>
        refine (go_conserves w c).trans (h.conserves.trans ?_)
        rw [hposted]
        split
        · rfl
        · exact (List.append_nil _).symm
      case attached  =>
        have hkept := (step_keeps c.forwarder (w.signal c.rounds.length c.forwarder)).2
        show (c.forwarder.step _).state.attached = true ↔ _
        rw [hkept, h.attached, List.mem_append]
        simp

/-- **Whatever happens, a course stays sound.** -/
theorem sound_run (w : Fortune) (me : Address) (members : List Address) (events : List Event) :
    (run w (start me members) events).Sound w (members.filter (· ≠ me)) events := by
  induction events using List.reverseRecOn with
  | nil                       =>
      refine ⟨.rests rfl ⟨?_, rfl, rfl⟩, rfl, ?_⟩
      · rfl
      · exact ⟨fun _ => List.not_mem_nil, fun _ => rfl⟩
  | append_singleton xs x ih =>
      rw [run_concat]
      exact ih.step x

end Course

end Forwarder

end WitnessReplication

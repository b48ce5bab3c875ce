import Mathlib
import WitnessReplication.Proofs.SlotLines
import WitnessReplication.Proofs.SoleCalls

/-!
# Steady couriers — errands to a cluster that does not change

    One member leads and takes what only a leader takes.  Every other one is down, or refuses and
    names the leader or somebody who is not listed; so what it says never leads past the leader.  An
    errand that looks for the leader has a try for every member, and each try that fails brings it
    one member nearer, or to the leader at once.  So it never runs out of tries, and ends at the
    leader.

    Whatever an errand is told, it has less to do afterwards: tries that are left count most, and
    then how far it is from the end of the one it makes.

* **`MemberBehaviour.Stable`** — a cluster that does not change.
* **`Locator.away`** — how many members there are from a guess to the leader, round the list.
* **`Courier.Heads`** — every errand for the leader has enough tries left to get there.
* **`serve_nears`** — what an errand does that is told what such a cluster may tell it.
-/

namespace WitnessReplication

/-! ## What the members do -/

/-- Whether a request is one that a call makes and only a leader takes. -/
def Request.seeksLeader : Request → Bool
  | .command _ => true
  | .sync _    => true
  | _          => false

/-- How members, by their places, behave: what a connection to a member may come to, and what an
    exchange with one. -/
structure MemberBehaviour where
  connects : Nat → Except TransportError Unit → Prop
  answers  : Nat → Request → Except TransportError Reply → Prop

/-- What may come of a leader's request at a member that does not lead: it is down, or it refuses and
    names the leader or somebody who is not listed. -/
inductive Declines (members : List Address) (leader : Nat) : Except TransportError Reply → Prop
  | down {error : TransportError} (kind : error.kind ≠ .malformed) :
      Declines members leader (.error error)
  | refuses {reply : Reply} {a : Address} (refused : reply.accepted = false)
      (hint : reply.hint = some a) (names : members[leader]? = some a ∨ a ∉ members) :
      Declines members leader (.ok reply)

/-- One member leads: it can be reached, and takes what only a leader takes.  Every other one is down
    or declines.  Whatever is asked of a member comes to something; what a record comes to is left
    open. -/
structure MemberBehaviour.Stable (b : MemberBehaviour) (members : List Address) (leader : Nat) :
    Prop where
  distinct   : members.Nodup
  listed     : leader < members.length
  reachable  : ∀ error, ¬ b.connects leader (.error error)
  takes      : ∀ request outcome, request.seeksLeader = true → b.answers leader request outcome →
    ∃ reply, outcome = .ok reply ∧ reply.accepted = true
  down       : ∀ m error, b.connects m (.error error) → error.kind ≠ .malformed
  declines   : ∀ m request outcome, m ≠ leader → request.seeksLeader = true →
    b.answers m request outcome → Declines members leader outcome
  connecting : ∀ m, ∃ outcome, b.connects m outcome
  answering  : ∀ m request, ∃ outcome, b.answers m request outcome

/-- The leader has a place in a pool of these members. -/
theorem MemberBehaviour.Stable.lt_size {b : MemberBehaviour} {p : Pool} {leader : Nat}
    (h : b.Stable p.members leader) : leader < p.size := by
  simpa [Pool.members, Pool.size] using h.listed

/-! ## How far it is to the leader -/

namespace Locator

/-- How many members there are from a guess to the leader, round a list of `size`. -/
def away (size guess leader : Nat) : Nat :=
  if guess ≤ leader then leader - guess else leader + size - guess

theorem away_self (size leader : Nat) : away size leader leader = 0 := by
  simp [away]

/-- A guess in the list is less than once round the list away. -/
theorem away_lt {size guess leader : Nat} (hg : guess < size) (hl : leader < size) :
    away size guess leader < size := by
  rw [away]
  split <;> omega

theorem away_pos {size guess leader : Nat} (hg : guess < size) (hne : guess ≠ leader) :
    0 < away size guess leader := by
  rw [away]
  split <;> omega

/-- The member after a wrong guess is one nearer. -/
theorem away_next {p : Pool} {guess leader : Nat} (hg : guess < p.size) (hl : leader < p.size)
    (hne : guess ≠ leader) :
    away p.size (next p guess) leader + 1 = away p.size guess leader := by
  rcases Nat.lt_or_ge (guess + 1) p.size with hlt | hge
  · rw [next, Nat.mod_eq_of_lt hlt, away, away]
    split <;> split <;> omega
  · obtain rfl : guess = p.size - 1 := by omega
    have hround : next p (p.size - 1) = 0 := by
      rw [next, Nat.sub_add_cancel (by omega), Nat.mod_self]
    rw [hround, away, away]
    split <;> split <;> omega

/-- The place of a listed member, where nobody is listed twice. -/
theorem indexOf?_eq {p : Pool} (h : p.members.Nodup) {i : Nat} {a : Address}
    (ha : p.members[i]? = some a) : p.indexOf? a = some i := by
  rw [Pool.members, List.getElem?_map, Option.map_eq_some_iff] at ha
  obtain ⟨s, hs, rfl⟩ := ha
  obtain ⟨hi, rfl⟩ := List.getElem?_eq_some_iff.1 hs
  rw [Pool.indexOf?, List.findIdx?_eq_some_iff_getElem]
  refine ⟨hi, by simp, fun j hj => ?_⟩
  have hne := List.nodup_iff_injective_getElem.1 h
  simp only [decide_eq_true_eq]
  intro hsame
  have hinj := @hne ⟨j, by simpa [Pool.members] using Nat.lt_trans hj hi⟩
    ⟨i, by simpa [Pool.members] using hi⟩ (by simpa [Pool.members] using hsame)
  exact absurd (Fin.mk.inj hinj) (Nat.ne_of_lt hj)

/-- Who is not listed has no place. -/
theorem indexOf?_eq_none {p : Pool} {a : Address} (ha : a ∉ p.members) : p.indexOf? a = none := by
  rw [Pool.indexOf?, List.findIdx?_eq_none_iff]
  intro s hs
  have hne : s.address ≠ a := fun heq => ha (List.mem_map.2 ⟨s, hs, heq⟩)
  simpa using hne

/-- After a try that came to nothing, the next one is made at the leader or at the next member. -/
theorem verdict_of_declines {p : Pool} (h : p.members.Nodup) {leader : Nat}
    {outcome : Except TransportError Reply} (hd : Declines p.members leader outcome) (guess : Nat) :
    verdict p guess outcome = .retarget leader ∨
      verdict p guess outcome = .retarget (next p guess) := by
  cases hd with
  | down kind                  => simp [verdict, kind]
  | refuses refused hint names =>
      rcases names with hlisted | hunlisted
      · simp [verdict, refused, hint, indexOf?_eq h hlisted]
      · simp [verdict, refused, hint, indexOf?_eq_none hunlisted]

end Locator

/-! ## How much there is to do -/

/-- The tries that an errand has left. -/
def Errand.Aim.tries : Errand.Aim → Nat
  | .lead _ tries => tries
  | _             => 0

/-- How much an errand has to do: tries that are left count more than the stages of one. -/
def Errand.effort (e : Errand) : Nat := 5 * e.aim.tries + e.stage.effort

/-- A try that is further on leaves less to do. -/
theorem Errand.effort_lt {e f : Errand} (htries : f.aim.tries = e.aim.tries)
    (hstage : f.stage.effort < e.stage.effort) : f.effort < e.effort := by
  unfold effort
  omega

theorem Errand.effort_pos (e : Errand) : 0 < e.effort :=
  Nat.lt_of_lt_of_le e.stage.effort_pos (Nat.le_add_left ..)

/-- A try that has come to nothing leaves less to do. -/
theorem Errand.effort_retarget_lt {e : Errand} {request : Request} {tries : Nat}
    (haim : e.aim = .lead request tries) (hpos : 0 < tries) :
    ({ e with aim := .lead request (tries - 1), stage := .ready } : Errand).effort < e.effort := by
  have hstage := e.stage.effort_pos
  simp only [Errand.effort, haim, Errand.Aim.tries, Errand.Stage.effort]
  omega

namespace Courier

/-- How much all errands have to do. -/
def effort (c : Courier) : Nat := (c.errands.map (·.effort)).sum

variable {c : Courier} {e : Errand} {leader : Nat}

/-- An errand that has less to do than before lowers the whole. -/
theorem effort_put_lt (h : (c.errands.map (·.id)).Nodup) (he : e ∈ c.errands) {f : Errand}
    (hid : f.id = e.id) (hless : f.effort < e.effort) : (c.put f).effort < c.effort := by
  have hsum : (c.put f).effort =
      (c.errands.map fun g => (if g.id = f.id then f else g).effort).sum := by
    show ((c.errands.map _).map _).sum = _
    rw [List.map_map]
    rfl
  rw [hsum]
  refine List.sum_lt_sum _ _ (fun g hg => ?_) ⟨e, he, ?_⟩
  · split
    · rename_i hsame
      obtain rfl := eq_of_id h hg he (hsame.trans hid)
      exact Nat.le_of_lt hless
    · exact Nat.le_refl _
  · rw [if_pos hid.symm]
    exact hless

/-- An errand that is taken away lowers the whole. -/
theorem effort_abandon_lt (he : e ∈ c.errands) : (c.abandon e.id).effort < c.effort := by
  have hsum : ∀ l : List Errand, ((l.filter fun f => f.id ≠ e.id).map (·.effort)).sum =
      (l.map fun f => if f.id = e.id then 0 else f.effort).sum := by
    intro l
    induction l with
    | nil          => rfl
    | cons f l ih =>
        by_cases hid : f.id = e.id
        · simp [hid, ← ih]
        · simp [hid, ← ih]
  rw [effort, effort]
  show ((c.errands.filter _).map _).sum < _
  rw [hsum]
  refine List.sum_lt_sum _ _ (fun f _ => ?_) ⟨e, he, ?_⟩
  · split
    · exact Nat.zero_le _
    · exact Nat.le_refl _
  · rw [if_pos rfl]
    exact e.effort_pos

/-! ## One step of an errand -/

/-- Every errand for the leader asks what only a leader takes, and has more tries left than there are
    members to the leader. -/
def Heads (c : Courier) (leader : Nat) : Prop :=
  ∀ e ∈ c.errands, ∀ request tries, e.aim = .lead request tries →
    request.seeksLeader = true ∧ Locator.away c.pool.size c.guess leader < tries

/-- What an errand may be told: that it may go on, or what the members make of what it waits for. -/
inductive Serves (b : MemberBehaviour) (c : Courier) (e : Errand) : Signal → Prop
  | proceeds (may : c.mayProceed e = true) : Serves b c e .proceed
  | connects {m : Nat} {outcome : Except TransportError Unit} (stage : e.stage = .connecting m)
      (can : b.connects m outcome) : Serves b c e (.connected outcome)
  | answers {m : Nat} {request : Request} {outcome : Except TransportError Reply}
      (stage : e.stage = .exchanging m) (asks : e.aim.request? = some request)
      (can : b.answers m request outcome) : Serves b c e (.answered outcome)
  | rests (stage : e.stage = .backingOff) : Serves b c e .rested

/-- An errand may be told only what it waits for. -/
theorem Serves.heeded {b : MemberBehaviour} {s : Signal} (h : c.Serves b e s) :
    c.heeds e s = true := by
  cases h with
  | proceeds may      => exact may
  | connects stage _  => simp [heeds, stage]
  | answers stage _ _ => simp [heeds, stage]
  | rests stage       => simp [heeds, stage]

/-- What becomes of a courier when an errand was told something: there is less to do, the errands for
    the leader still get there, and whoever got there has an answer. -/
structure Nears (c : Courier) (leader : Nat) (p : Step) : Prop where
  heads  : p.state.Heads leader
  effort : p.state.effort < c.effort
  stays  : c.guess = leader → p.state.guess = leader
  led    : ∀ i answer, (i, .led answer) ∈ p.results →
    p.state.guess = leader ∧ ∃ reply, answer = .ok reply

variable {b : MemberBehaviour} {lead : Option Nat} {s : Signal} {p : Step}

/-- An errand goes on its way, with less to do.  If that moves the belief who leads, then no other
    errand looks for the leader. -/
theorem nears_put (hids : (c.errands.map (·.id)).Nodup) (h : c.Heads leader) (he : e ∈ c.errands)
    {f : Errand} (hid : f.id = e.id) (hless : f.effort < e.effort) {d : Courier}
    (errands : d.errands = c.errands) (size : d.pool.size = c.pool.size)
    (stays : c.guess = leader → d.guess = leader)
    (others : d.guess = c.guess ∨ ∀ g ∈ c.errands, g.Leads → g.id = e.id)
    (own : ∀ request tries, f.aim = .lead request tries →
      request.seeksLeader = true ∧ Locator.away c.pool.size d.guess leader < tries)
    {ds : List (Demand Nat)} : c.Nears leader { state := d.put f, demands := ds } where
  heads  := by
    intro g hg request tries haim
    show _ ∧ Locator.away d.pool.size d.guess leader < tries
    rw [size]
    have hg' : g ∈ d.errands.map fun g => if g.id = f.id then f else g := hg
    rw [errands] at hg'
    obtain ⟨g₀, hg₀, rfl⟩ := List.mem_map.1 hg'
    by_cases hsame : g₀.id = f.id
    · rw [if_pos hsame] at haim
      exact own request tries haim
    · rw [if_neg hsame] at haim
      rcases others with hguess | honly
      · rw [hguess]
        exact h g₀ hg₀ request tries haim
      · exact absurd ((honly g₀ hg₀ ⟨request, by rw [haim]; rfl⟩).trans hid.symm) hsame
  effort := by
    have hput : (d.put f).errands = (c.put f).errands := by
      show d.errands.map _ = c.errands.map _
      rw [errands]
    show (d.put f).effort < c.effort
    rw [effort, hput]
    exact effort_put_lt hids he hid hless
  stays  := stays
  led    := fun _ _ hmem => nomatch hmem

/-- An errand ends.  If it has an answer of the leader, the leader is believed to lead. -/
theorem nears_finish (h : c.Heads leader) (he : e ∈ c.errands) (outcome : Errand.Outcome)
    (hled : ∀ answer, outcome = .led answer → c.guess = leader ∧ ∃ reply, answer = .ok reply)
    {pool : Pool} (hpool : pool.size = c.pool.size) (knownTerm : Term) :
    c.Nears leader ({ c with pool, knownTerm }.finish e outcome) where
  heads  := by
    intro f hf request tries haim
    have hsize : (pool.leaveAll e.id).size = c.pool.size := (pool.size_leaveAll e.id).trans hpool
    show _ ∧ Locator.away (pool.leaveAll e.id).size c.guess leader < tries
    rw [hsize]
    exact h f (List.mem_filter.1 hf).1 request tries haim
  effort := effort_abandon_lt he
  stays  := id
  led    := by
    intro i answer hmem
    exact hled answer (congrArg Prod.snd (List.mem_singleton.1 hmem)).symm

/-- What has come of a try at the member that is believed to lead. -/
def Heard (c : Courier) (leader : Nat) (outcome : Except TransportError Reply) : Prop :=
  (c.guess = leader ∧ ∃ reply, outcome = .ok reply ∧ reply.accepted = true) ∨
    c.guess ≠ leader ∧ Declines c.pool.members leader outcome

/-- An errand settles what came of its try. -/
theorem settle_nears (hnodup : c.pool.members.Nodup) (hlisted : leader < c.pool.size)
    (hguess : c.guess < c.pool.size) (hids : (c.errands.map (·.id)).Nodup)
    (hs : c.Steered lead) (h : c.Heads leader) (he : e ∈ c.errands) {pool : Pool}
    (hpool : pool.members = c.pool.members) {outcome : Except TransportError Reply}
    (hheard : e.Leads → c.Heard leader outcome) :
    c.Nears leader ({ c with pool }.settle e outcome) := by
  have hsize := Pool.size_of_members hpool
  cases haim : e.aim with
  | lead request tries  =>
      have hleads : e.Leads := ⟨request, by rw [haim]; rfl⟩
      obtain ⟨hseeks, haway⟩ := h e he request tries haim
      have hsettles := settle_lead (c := { c with pool }) haim outcome
      generalize settle _ e outcome = p at hsettles
      rcases hheard hleads with ⟨hright, reply, rfl, htook⟩ | ⟨hwrong, hdeclines⟩
      · -- the leader takes the request
        cases hsettles with
        | accepted _           =>
            refine nears_finish h he _ (fun answer hanswer => ⟨hright, reply, ?_⟩) hsize c.knownTerm
            exact (Errand.Outcome.led.inj hanswer).symm
        | retargets verdict    =>
            rw [Locator.verdict_eq_accepted_iff.2 ⟨rfl, htook⟩] at verdict
            exact nomatch verdict
        | backsOff refused _   =>
            rw [htook] at refused
            exact nomatch refused
      · -- any other member leads on, to the leader or to the next one
        have hverdict := Locator.verdict_of_declines (p := pool) (hpool ▸ hnodup)
          (hpool ▸ hdeclines) c.guess
        have hpos : 0 < Locator.away c.pool.size c.guess leader :=
          Locator.away_pos hguess hwrong
        cases hsettles with
        | @retargets _ guess verdict =>
            have hnearer : Locator.away c.pool.size guess leader < tries - 1 := by
              rcases hverdict with hto | hto <;> rw [hto] at verdict
              · rw [← Locator.Verdict.retarget.inj verdict, Locator.away_self]
                omega
              · have hnext := Locator.away_next (p := pool) (hsize ▸ hguess) (hsize ▸ hlisted)
                  hwrong
                rw [hsize, Locator.Verdict.retarget.inj verdict] at hnext
                omega
            refine nears_put hids h he
              (f := { e with aim := .lead request (tries - 1), stage := .ready })
              (d := { c with pool, guess }) rfl ?_ rfl hsize (fun hright => absurd hright hwrong)
              (Or.inr fun g hg hl => ?_) fun q t hq => ?_
            · exact Errand.effort_retarget_lt haim (Nat.zero_lt_of_lt haway)
            · exact Option.some.inj ((hs.sole g hg hl).symm.trans (hs.sole e he hleads))
            · obtain ⟨rfl, rfl⟩ := Errand.Aim.lead.inj hq
              exact ⟨hseeks, hnearer⟩
        | accepted taken             =>
            rw [Locator.verdict_eq_accepted_iff.2 ⟨rfl, taken⟩] at hverdict
            rcases hverdict with hto | hto <;> exact nomatch hto
        | malformed kind             => cases hdeclines with | down fine => exact absurd kind fine
        | backsOff _ unhinted        =>
            cases hdeclines with
            | refuses _ hint _ => rw [hint] at unhinted; exact nomatch unhinted
  | record w entry term =>
      obtain ⟨known, ok, heq, _⟩ := settle_record (c := { c with pool }) haim outcome
      rw [heq]
      exact nears_finish h he (.recorded ok) nofun hsize known
  | direct _ _ | survey _ _ | close _ =>
      rcases hs.ofCall e he with ⟨_, hp⟩ | ⟨_, _, hp⟩ <;> (rw [haim] at hp; exact nomatch hp)

/-- **What an errand does in a cluster that does not change**: it has less to do, and if it looks for
    the leader it ends at the leader, and not before. -/
theorem serve_nears (stable : b.Stable c.pool.members leader) (ho : c.InOrder)
    (hids : (c.errands.map (·.id)).Nodup) (hopen : c.pool.closed = false) (hs : c.Steered lead)
    (h : c.Heads leader) (he : e ∈ c.errands) (hserves : c.Serves b e s) (hg : c.Goes e s p) :
    c.Nears leader p := by
  have hlisted := stable.lt_size
  -- an errand for the leader keeps what it asks, and the tries it has left
  have hkeeps : ∀ {f : Errand}, f.aim = e.aim → ∀ request tries, f.aim = .lead request tries →
      request.seeksLeader = true ∧ Locator.away c.pool.size c.guess leader < tries :=
    fun haim request tries hf => h e he request tries (haim ▸ hf)
  have hmember : e.Leads → ∀ m, e.stage.member? = some m → m = c.guess := hs.member e he
  cases hg with
  | rests deaf            => exact nomatch deaf.symm.trans hserves.heeded
  | givesUp _ aim         => exact absurd (h e he _ 0 aim).2 (Nat.not_lt_zero _)
  | refused _ shut _      =>
      refine settle_nears stable.distinct hlisted ho.guess hids hs h he rfl fun hleads => ?_
      -- the pool lets an errand for the leader line up
      obtain ⟨request, hp⟩ := hleads
      unfold destination at shut
      rw [hopen, hp] at shut
      rcases shut with hclosed | hsize
      · exact nomatch hclosed
      · exact absurd ho.guess (Nat.not_lt.2 hsize)
  | @arrives stage _ free _ _ _ place =>
      have hbrief : (c.brief e.aim).tries = e.aim.tries := by cases e.aim <;> rfl
      refine nears_put hids h he (f := { e with aim := c.brief e.aim, stage })
        (d := { c with pool := c.pool.lineUp (c.destination e) e.id }) rfl ?_ rfl
        (c.pool.size_lineUp _ _) id (Or.inl rfl) fun request tries hf => ?_
      · exact Errand.effort_lt hbrief (Nat.lt_of_le_of_lt (Errand.Stage.effort_le_of_member place)
          (effort_of_setsOff free))
      · cases haim : e.aim with
        | lead q t => exact hkeeps (f := e) rfl request tries (by rw [← hf, haim]; rfl)
        | _        => rw [haim] at hf; exact nomatch hf
  | @enters _ stage _ waits _ further =>
      refine nears_put hids h he (f := { e with stage }) rfl ?_ rfl rfl id (Or.inl rfl)
        (hkeeps rfl)
      refine Errand.effort_lt rfl ?_
      rw [waits]
      rcases further with rfl | rfl
      · exact Nat.lt_succ_self 2
      · exact Nat.lt_of_succ_lt (Nat.lt_succ_self 2)
  | @connects m _ waits   =>
      refine nears_put hids h he (f := { e with stage := .exchanging m })
        (d := { c with pool := c.pool.connect m }) rfl ?_ rfl (c.pool.size_connect m) id
        (Or.inl rfl) (hkeeps rfl)
      exact Errand.effort_lt rfl (by rw [waits]; exact Nat.lt_succ_self 1)
  | @unconnected m error waits =>
      cases hserves with
      | connects stage can =>
          obtain rfl := Errand.Stage.connecting.inj (waits.symm.trans stage)
          refine settle_nears stable.distinct hlisted ho.guess hids hs h he
            (c.pool.members_leave m e.id) fun hleads => Or.inr ⟨fun hright => ?_, .down ?_⟩
          · have hm := hmember hleads m (by rw [waits]; rfl)
            rw [hm, hright] at can
            exact stable.reachable error can
          · exact stable.down m error can
  | @exchanged m outcome pool waits kept =>
      cases hserves with
      | @answers m' request _ stage asks can =>
          obtain rfl := Errand.Stage.exchanging.inj (waits.symm.trans stage)
          have hpool : (pool.leave m e.id).members = c.pool.members := by
            rw [Pool.members_leave]
            rcases kept with rfl | rfl
            · rfl
            · exact c.pool.members_disconnect m
          refine settle_nears stable.distinct hlisted ho.guess hids hs h he hpool fun hleads => ?_
          obtain rfl := hmember hleads m (by rw [waits]; rfl)
          obtain ⟨q, hp⟩ := hleads
          have hseeks : request.seeksLeader = true := by
            cases haim : e.aim with
            | lead q' t =>
                rw [haim] at asks
                exact Option.some.inj asks ▸ (h e he q' t haim).1
            | _         => rw [haim] at hp; exact nomatch hp
          by_cases hright : c.guess = leader
          · rw [hright] at can
            exact Or.inl ⟨hright, stable.takes request outcome hseeks can⟩
          · exact Or.inr ⟨hright, stable.declines _ request outcome hright hseeks can⟩
  | wakes waits           =>
      refine nears_put hids h he (f := { e with stage := .ready }) rfl ?_ rfl rfl id (Or.inl rfl)
        (hkeeps rfl)
      exact Errand.effort_lt rfl (by rw [waits]; exact Nat.lt_succ_self 4)

/-! ## Setting out -/

/-- How much an errand for the leader has to do when it is sent out. -/
def leadEffort (size : Nat) : Nat := 5 * size + 5

theorem effort_beginLead (c : Courier) (request : Request) :
    (c.beginLead request).2.effort = c.effort + leadEffort c.pool.size := by
  show ((c.errands ++ [_]).map _).sum = _
  rw [List.map_append, List.sum_append]
  rfl

theorem effort_beginRecords (c : Courier) (entry : LogEntry) (ws : List Nat) :
    (c.beginRecords entry ws).2.effort = c.effort + 4 * ws.length := by
  induction ws generalizing c with
  | nil          => rfl
  | cons w ws ih =>
      have hfirst : (c.begin (.record w entry c.knownTerm)).2.effort = c.effort + 4 := by
        show ((c.errands ++ [_]).map _).sum = _
        rw [List.map_append, List.sum_append]
        rfl
      show ((c.begin (.record w entry c.knownTerm)).2.beginRecords entry ws).2.effort = _
      rw [ih, hfirst, List.length_cons]
      omega

/-- A request that is sent out has a try for every member, so it gets to the leader. -/
theorem Heads.beginLead (h : c.Heads leader) (hguess : c.guess < c.pool.size)
    (hlisted : leader < c.pool.size) {request : Request} (hseeks : request.seeksLeader = true) :
    (c.beginLead request).2.Heads leader := by
  intro e he q tries haim
  rcases List.mem_append.1 he with he | he
  · exact h e he q tries haim
  · rw [List.mem_singleton.1 he] at haim
    obtain ⟨rfl, rfl⟩ := Errand.Aim.lead.inj haim
    exact ⟨hseeks, Locator.away_lt hguess hlisted⟩

theorem Heads.beginRecords (h : c.Heads leader) (entry : LogEntry) (ws : List Nat) :
    (c.beginRecords entry ws).2.Heads leader := by
  rw [beginRecords_eq]
  intro e he request tries haim
  rcases List.mem_append.1 he with he | he
  · exact h e he request tries haim
  · obtain ⟨p, _, rfl⟩ := List.mem_map.1 he
    exact nomatch haim

end Courier

end WitnessReplication

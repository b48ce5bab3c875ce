import WitnessReplication.Proofs.ClientRuns

/-!
# Kept sessions — opened once between two destructions

    A job that needs the kept session waits until it is its turn, and keeps its turn while it opens
    one.  So whoever opens a session to be kept holds the lock, and nothing is kept meanwhile.  When
    it is open it is kept, and every job whose turn comes later finds it there, until one destroys
    it.  An opening that fails keeps nothing, and the next job tries again.

* **`Client.Orderly`** — what holds of the jobs of a client at any time.
* **`Client.Next`** and **`react_next`** — every input keeps it so; what becomes of what is kept.
* **`Client.taken?`** and **`created?`** — a kept session is taken away; one is opened to be kept.
* **`created_once`** — as long as none is taken away, one is opened at most.
-/

namespace WitnessReplication

namespace FairLock

variable {l : FairLock} {a b : Nat}

/-- Whoever comes later waits. -/
theorem holds_join (h : l.holds a = true) (b : Nat) : (l.join b).holds a = true := by
  obtain ⟨line⟩ := l
  cases line with
  | nil         => simp [holds] at h
  | cons c rest => simpa [holds, join] using h

/-- Whoever else leaves, the first in line stays. -/
theorem holds_leave (h : l.holds a = true) (hne : b ≠ a) : (l.leave b).holds a = true := by
  obtain ⟨line⟩ := l
  cases line with
  | nil         => simp [holds] at h
  | cons c rest =>
      obtain rfl : c = a := by simpa [holds] using h
      rw [leave, List.erase_cons_tail (by simpa using hne.symm)]
      simp [holds]

end FairLock

namespace Client

/-- Whether a job waits until a session is open. -/
def Stage.isOpening : Stage → Bool
  | .opening _ => true
  | _          => false

/-- A job that opens a session to be kept. -/
def Job.Opens (j : Job) : Prop := j.stage.isOpening = true ∧ j.aim.needsLock = true

/-- The jobs of a client have numbers of their own, and one that opens a session to be kept holds
    the lock while nothing is kept. -/
structure Orderly (c : Client) : Prop where
  distinct : (c.jobs.map (·.id)).Nodup
  numbered : ∀ n ∈ c.jobs.map (·.id), n < c.fresh
  sole     : ∀ j ∈ c.jobs, j.Opens → c.lock.holds j.id = true ∧ c.kept = none

/-- What follows upon a client: the same options, and in order again.  Unless something is
    destroyed, what is kept stays. -/
structure Next (c : Client) (destroys : Prop) (d : Client) : Prop where
  config  : d.config = c.config
  orderly : d.Orderly
  kept    : d.kept = c.kept ∨ destroys ∧ d.kept = none

variable {c d : Client} {j k : Job} {x : Input} {P Q : Prop}

-- ── Order among the jobs ─────────────────────────────────────────────────────────────────────────

namespace Orderly

/-- A client without jobs is in order. -/
theorem empty (config : SessionConfig) : (new config).Orderly :=
  ⟨List.nodup_nil, (fun _ hn => nomatch hn), fun _ hj => nomatch hj⟩

/-- The numbers of jobs stay, or some of them are gone. -/
theorem of_ids (h : c.Orderly) (hids : (d.jobs.map (·.id)).Sublist (c.jobs.map (·.id)))
    (hfresh : d.fresh = c.fresh)
    (hsole : ∀ j ∈ d.jobs, j.Opens → d.lock.holds j.id = true ∧ d.kept = none) : d.Orderly :=
  ⟨h.distinct.sublist hids, fun n hn => hfresh ▸ h.numbered n (hids.subset hn), hsole⟩

/-- The jobs after one is put in place of what it was. -/
theorem ids_put (c : Client) (j : Job) : (c.put j).jobs.map (·.id) = c.jobs.map (·.id) := by
  show (c.jobs.map _).map _ = _
  rw [List.map_map]
  refine List.map_congr_left fun k _ => ?_
  show (if k.id = j.id then j else k).id = k.id
  split
  · rename_i hid
    exact hid.symm
  · rfl

theorem mem_put (hk : k ∈ (c.put j).jobs) : k = j ∨ k ∈ c.jobs ∧ k.id ≠ j.id := by
  obtain ⟨k', hk', rfl⟩ := List.mem_map.1 hk
  by_cases hid : k'.id = j.id
  · exact .inl (if_pos hid)
  · rw [if_neg hid]
    exact .inr ⟨hk', hid⟩

theorem mem_finish {outcome : Outcome} (hk : k ∈ (c.finish j outcome).state.jobs) :
    k ∈ c.jobs ∧ k.id ≠ j.id :=
  ⟨(List.mem_filter.1 hk).1, of_decide_eq_true (List.mem_filter.1 hk).2⟩

theorem put (h : c.Orderly) (hj : j.Opens → c.lock.holds j.id = true ∧ c.kept = none) :
    (c.put j).Orderly := by
  refine h.of_ids (by rw [ids_put]) rfl fun k hk hopens => ?_
  rcases mem_put hk with rfl | ⟨hmem, _⟩
  · exact hj hopens
  · exact h.sole k hmem hopens

theorem finish (h : c.Orderly) (j : Job) (outcome : Outcome) :
    (c.finish j outcome).state.Orderly := by
  refine h.of_ids (List.filter_sublist.map _) rfl fun k hk hopens => ?_
  obtain ⟨hmem, hne⟩ := mem_finish hk
  obtain ⟨hholds, hkept⟩ := h.sole k hmem hopens
  exact ⟨FairLock.holds_leave hholds (Ne.symm hne), hkept⟩

theorem start (h : c.Orderly) (aim : Aim) (delay : Nat) : (c.start aim delay).2.Orderly where
  distinct := by
    show ((c.jobs ++ [_]).map _).Nodup
    rw [List.map_append]
    refine List.nodup_append'.2 ⟨h.distinct, List.nodup_singleton _, fun n hn hn' => ?_⟩
    exact Nat.ne_of_lt (h.numbered n hn) (List.mem_singleton.1 hn')
  numbered := by
    intro n hn
    obtain ⟨k, hk, rfl⟩ := List.mem_map.1 hn
    rcases List.mem_append.1 hk with hk | hk
    · exact Nat.lt_succ_of_lt (h.numbered k.id (List.mem_map.2 ⟨k, hk, rfl⟩))
    · rw [List.mem_singleton.1 hk]
      exact Nat.lt_succ_self _
  sole     := by
    intro k hk hopens
    rcases List.mem_append.1 hk with hk | hk
    · exact h.sole k hk hopens
    · rw [List.mem_singleton.1 hk] at hopens
      exact nomatch hopens.1

/-- When something is kept, nobody opens a session to be kept. -/
theorem nobody (h : c.Orderly) {i : Nat} (hkept : c.kept = some i) : ∀ k ∈ c.jobs, ¬ k.Opens :=
  fun k hk hopens => nomatch hkept.symm.trans (h.sole k hk hopens).2

/-- While one job opens a session to be kept, nobody else does. -/
theorem nobody_else (h : c.Orderly) (hj : j ∈ c.jobs) (hopens : j.Opens) :
    ∀ k ∈ c.jobs, k.id ≠ j.id → ¬ k.Opens :=
  fun k hk hne hother => hne (FairLock.holds_unique (h.sole k hk hother).1 (h.sole j hj hopens).1)

/-- Then whoever comes or leaves, and whatever is kept, nothing gets out of order. -/
theorem of_nobody (h : c.Orderly) (hnobody : ∀ k ∈ c.jobs, ¬ k.Opens) (lock : FairLock)
    (kept : Option Nat) : ({ c with lock, kept } : Client).Orderly :=
  ⟨h.distinct, h.numbered, fun k hk hopens => absurd hopens (hnobody k hk)⟩

theorem join (h : c.Orderly) (n : Nat) : ({ c with lock := c.lock.join n } : Client).Orderly :=
  ⟨h.distinct, h.numbered, fun k hk hopens =>
    ⟨FairLock.holds_join (h.sole k hk hopens).1 n, (h.sole k hk hopens).2⟩⟩

end Orderly

-- ── What follows ─────────────────────────────────────────────────────────────────────────────────

namespace Next

/-- Nothing happens. -/
theorem rests (h : c.Orderly) : c.Next P c := ⟨rfl, h, .inl rfl⟩

theorem imp (h : c.Next P d) (hpq : P → Q) : c.Next Q d :=
  ⟨h.config, h.orderly, h.kept.imp_right fun hp => ⟨hpq hp.1, hp.2⟩⟩

/-- What was only changed about the lock does not matter. -/
theorem of_lock {lock : FairLock} (h : ({ c with lock } : Client).Next P d) : c.Next P d :=
  ⟨h.config, h.orderly, h.kept⟩

theorem put (h : c.Next P d) (hj : j.Opens → d.lock.holds j.id = true ∧ d.kept = none) :
    c.Next P (d.put j) := ⟨h.config, h.orderly.put hj, h.kept⟩

theorem finish (h : c.Next P d) (j : Job) (outcome : Outcome) :
    c.Next P (d.finish j outcome).state := ⟨h.config, h.orderly.finish j outcome, h.kept⟩

theorem seat (h : c.Next P d) (i : Nat) (s : Seat) : c.Next P (d.seat i s) :=
  ⟨h.config, ⟨h.orderly.distinct, h.orderly.numbered, h.orderly.sole⟩, h.kept⟩

theorem absorb (h : c.Next P d) (i : Nat) (p : Session.Step) :
    c.Next P (d.absorb i p).state := by
  refine Progress.feed_kept (P := c.Next P) (h.seat i _) fun b _ result hb => ?_
  show c.Next P (deliver i b result.1 result.2).state
  unfold deliver
  split
  · exact hb
  · split <;> exact hb.finish _ _

theorem sendAt (h : c.Next P d) (j : Job) (i : Nat) (m : Submission) :
    c.Next P (d.sendAt j i m).state := by
  unfold Client.sendAt
  split
  · rename_i s _
    have hput : c.Next P
        (d.put { j with stage := .waiting i (s.invoke m.data m.keys m.route m.seq).1 }) :=
      h.put fun hopens => nomatch hopens.1
    exact hput.absorb i _
  · exact h.finish j _

theorem closeAt (h : c.Next P d) (j : Job) (i : Nat) : c.Next P (d.closeAt j i).state := by
  unfold Client.closeAt
  split
  · exact (h.seat i _).put fun hopens => nomatch hopens.1
  · exact h.finish j _

theorem miss (h : c.Next P d) (j : Job) (error : SessionError) :
    c.Next P (d.miss j error).state := by
  unfold Client.miss
  split <;> exact h.finish j _

/-- A session that is to be kept is opened by a job whose turn it is. -/
theorem openSeat (h : c.Next P d) (j : Job)
    (hj : j.aim.needsLock = true → d.lock.holds j.id = true ∧ d.kept = none) :
    c.Next P (d.openSeat j).state := by
  unfold Client.openSeat
  split
  · exact h.miss j _
  · rename_i o _
    have hgrown : c.Next P { d with seats := d.seats ++ [Seat.opening o] } :=
      ⟨h.config, ⟨h.orderly.distinct, h.orderly.numbered, h.orderly.sole⟩, h.kept⟩
    exact hgrown.put fun hopens => hj hopens.2

end Next

-- ── One input ────────────────────────────────────────────────────────────────────────────────────

/-- A job at what is kept, whose turn it is. -/
theorem useKept_next (h : c.Orderly) (hholds : c.lock.holds j.id = true) :
    c.Next (j.aim = .destroy) (c.useKept j).state := by
  obtain ⟨id, aim, delay, stage⟩ := j
  unfold useKept
  cases hkept : c.kept with
  | none   =>
      cases aim with
      | destroy => exact (Next.rests h).finish _ _
      | openNew | obtain | send _ | sendAt _ _ | closeAt _ =>
          exact (Next.rests h).openSeat _ fun _ => ⟨hholds, hkept⟩
  | some i =>
      have hnobody := h.nobody hkept
      cases aim with
      | destroy =>
          have htaken : c.Next (Aim.destroy = .destroy)
              { c with kept := none, lock := c.lock.leave id } :=
            ⟨rfl, h.of_nobody hnobody _ _, .inr ⟨rfl, rfl⟩⟩
          exact htaken.closeAt _ i
      | send m  =>
          have hleft : c.Next (Aim.send m = .destroy) { c with lock := c.lock.leave id } :=
            ⟨rfl, h.of_nobody hnobody _ _, .inl rfl⟩
          exact hleft.sendAt _ i m
      | openNew | obtain | sendAt _ _ | closeAt _ => exact (Next.rests h).finish _ _

theorem useOrWait_next (h : c.Orderly) (j : Job) :
    c.Next (j.aim = .destroy) (c.useOrWait j).state := by
  unfold useOrWait
  split
  · exact useKept_next h ‹_›
  · exact (Next.rests h).put fun hopens => nomatch hopens.1

theorem begin_next (h : c.Orderly) (j : Job) : c.Next (j.aim = .destroy) (c.begin j).state := by
  obtain ⟨id, aim, delay, stage⟩ := j
  unfold begin
  cases aim with
  | sendAt i m => exact (Next.rests h).sendAt _ i m
  | closeAt i  => exact (Next.rests h).closeAt _ i
  | openNew    => exact (Next.rests h).openSeat _ fun hneeds => nomatch hneeds
  | obtain | send _ | destroy => exact (useOrWait_next (h.join id) _).of_lock

theorem proceed_next (h : c.Orderly) (j : Job) :
    c.Next (j.aim = .destroy) (c.proceed j).state := by
  unfold proceed
  split
  · split
    · exact begin_next h j
    · exact (Next.rests h).put fun hopens => nomatch hopens.1
  · exact useOrWait_next h j
  · exact .rests h

theorem rested_next (h : c.Orderly) (j : Job) : c.Next (j.aim = .destroy) (c.rested j).state := by
  unfold rested
  split
  · exact begin_next h j
  · exact .rests h

/-- A session is open that is to be kept: from now on it is, and the job that has waited for it goes
    on and lets the next one have its turn. -/
theorem reach_next (h : c.Orderly) (hj : j ∈ c.jobs) (hopens : j.Opens) (i : Nat) :
    ({ c with kept := some i } : Client).Next False
      (({ c with kept := some i } : Client).reach j i).state := by
  have hothers := h.nobody_else hj hopens
  have hfinish : ∀ (lock : FairLock) (outcome : Outcome), ({ c with kept := some i } : Client).Next
      False (({ c with kept := some i, lock } : Client).finish j outcome).state := by
    intro lock outcome
    refine ⟨rfl, h.of_ids (List.filter_sublist.map _) rfl fun k hk hk' => ?_, .inl rfl⟩
    obtain ⟨hmem, hne⟩ := Orderly.mem_finish hk
    exact absurd hk' (hothers k hmem hne)
  unfold reach
  split
  · unfold sendAt
    split
    · rename_i m _ _ s _
      have hput : ({ c with kept := some i } : Client).Next False
          (({ c with kept := some i, lock := c.lock.leave j.id } : Client).put
            { j with stage := .waiting i (s.invoke m.data m.keys m.route m.seq).1 }) := by
        refine ⟨rfl, h.of_ids (by rw [Orderly.ids_put]) rfl fun k hk hk' => ?_, .inl rfl⟩
        rcases Orderly.mem_put hk with rfl | ⟨hmem, hne⟩
        · exact nomatch hk'.1
        · exact absurd hk' (hothers k hmem hne)
      exact hput.absorb i _
    · exact hfinish _ _
  · exact hfinish _ _

/-- The opening of a session in a seat is over. -/
inductive Settles (c : Client) (i : Nat) (result : Except SessionError Session) (d : Client) :
    Prop where
  /-- Nothing else is kept than before. -/
  | rests (next : c.Next False d)
      (whose : ∀ j s, (c.jobs.find? fun j => j.stage = .opening i) = some j → result = .ok s →
        j.aim.needsLock = false)
  /-- It is kept, and nothing was before. -/
  | keeps (before : c.kept = none) (next : ({ c with kept := some i } : Client).Next False d)

/-- What was only changed about the seats does not matter. -/
theorem Settles.of_seat {i k : Nat} {seat : Seat} {result : Except SessionError Session}
    (h : (c.seat k seat).Settles i result d) : c.Settles i result d := by
  cases h with
  | rests next whose  => exact .rests ⟨next.config, next.orderly, next.kept⟩ whose
  | keeps before next => exact .keeps before ⟨next.config, next.orderly, next.kept⟩

theorem settle_settles (h : c.Orderly) (i : Nat) (result : Except SessionError Session) :
    c.Settles i result (c.settle i result).state := by
  unfold settle
  cases hfind : c.jobs.find? fun j => j.stage = .opening i with
  | none   => exact .rests (.rests h) fun _ _ hj => nomatch hfind.symm.trans hj
  | some j =>
      have hj : j ∈ c.jobs := List.mem_of_find?_eq_some hfind
      have hstage : j.stage = .opening i := by simpa using List.find?_some hfind
      cases result with
      | error error =>
          exact .rests (((Next.rests h).seat i .failed).miss j error) fun _ _ _ hr => nomatch hr
      | ok s        =>
          have hseat : (c.seat i (.taken s)).Orderly := ⟨h.distinct, h.numbered, h.sole⟩
          dsimp only
          cases hneeds : j.aim.needsLock with
          | true  =>
              have hopens : j.Opens := ⟨by rw [hstage]; rfl, hneeds⟩
              refine .keeps (h.sole j hj hopens).2 ?_
              obtain ⟨hconfig, horderly, hkept⟩ := reach_next hseat hj hopens i
              rw [if_pos rfl]
              exact ⟨hconfig, horderly, hkept⟩
          | false =>
              refine .rests ?_ fun k _ hk _ => ?_
              · rw [if_neg Bool.false_ne_true]
                unfold reach
                split
                · rename_i haim
                  rw [haim] at hneeds
                  exact nomatch hneeds
                · exact ((Next.rests h).seat i _).finish j _
              · obtain rfl := Option.some.inj (hfind.symm.trans hk)
                exact hneeds

/-- What is told to an activity of what is in a seat: an opening is over, or nothing else is kept
    than before. -/
theorem stepSeat_next (h : c.Orderly)
    (ho : ∀ (i : Nat) (o : Opening), c.seats[i]? = some (.opening o) → o.InOrder) (i id : Nat)
    (sig : Signal) :
    (∃ o who result, c.seats[i]? = some (.opening o) ∧ (o.step id sig).results = [(who, result)] ∧
        c.Settles i result (c.stepSeat i id sig).state) ∨
      c.Next False (c.stepSeat i id sig).state ∧
        ∀ o, c.seats[i]? = some (.opening o) → (o.step id sig).results = [] := by
  cases hseat : c.seats[i]? with
  | none      =>
      unfold stepSeat
      rw [hseat]
      exact .inr ⟨.rests h, fun _ hnone => by cases hnone⟩
  | some seat =>
      cases seat with
      | failed    =>
          unfold stepSeat
          rw [hseat]
          exact .inr ⟨.rests h, fun _ hnone => by cases hnone⟩
      | taken s   =>
          unfold stepSeat
          rw [hseat]
          exact .inr ⟨(Next.rests h).absorb i _, fun _ hnone => by cases hnone⟩
      | opening o =>
          rcases Opening.step_results (ho i o hseat) id sig with hnone | ⟨who, result, hone⟩
          · refine .inr ?_
            rw [stepSeat_of_nil hseat hnone]
            refine ⟨(Next.rests h).seat i _, fun o' ho' => ?_⟩
            obtain rfl := Seat.opening.inj (Option.some.inj ho')
            exact hnone
          · refine .inl ⟨o, who, result, rfl, hone, ?_⟩
            rw [stepSeat_of_singleton hseat hone]
            exact (settle_settles ((Next.rests (P := False) h).seat i _).orderly i result).of_seat

/-- A job that is told something and destroys what is kept. -/
def Destroys (c : Client) (x : Input) : Prop :=
  ∃ j ∈ c.jobs, (∃ sig, x = .tell (.job j.id) sig) ∧ j.aim = .destroy

/-- What holds of a client at any time. -/
structure Sound (c : Client) : Prop where
  orderly  : c.Orderly
  openings : ∀ (i : Nat) (o : Opening), c.seats[i]? = some (.opening o) → o.InOrder

/-- **What becomes of what is kept**: an input may have something kept where nothing was, and if it
    takes something away, it destroys it. -/
theorem react_next (h : c.Sound) (x : Input) :
    ∃ kept, (kept = c.kept ∨ c.kept = none) ∧
      ({ c with kept } : Client).Next (c.Destroys x) (c.react x).state := by
  cases x with
  | start aim delay =>
      exact ⟨c.kept, .inl rfl, rfl, h.orderly.start aim delay, .inl rfl⟩
  | tell who sig    =>
      cases who with
      | inSeat i id =>
          rcases stepSeat_next h.orderly h.openings i id sig with
            ⟨_, _, _, _, _, hsettles⟩ | ⟨hnext, _⟩
          · cases hsettles with
            | rests next _      => exact ⟨c.kept, .inl rfl, next.imp False.elim⟩
            | keeps before next => exact ⟨some i, .inr before, next.imp False.elim⟩
          · exact ⟨c.kept, .inl rfl, hnext.imp False.elim⟩
      | job id      =>
          refine ⟨c.kept, .inl rfl, ?_⟩
          cases hfind : c.find? id with
          | none   =>
              rw [react_of_gone hfind]
              exact .rests h.orderly
          | some j =>
              have hj : j ∈ c.jobs := List.mem_of_find?_eq_some hfind
              have hid : j.id = id := by simpa using List.find?_some hfind
              have hdestroys : j.aim = .destroy → c.Destroys (.tell (.job id) sig) :=
                fun haim => ⟨j, hj, ⟨sig, by rw [hid]⟩, haim⟩
              cases sig with
              | proceed =>
                  rw [react_proceed hfind]
                  exact (proceed_next h.orderly j).imp hdestroys
              | rested  =>
                  rw [react_rested hfind]
                  exact (rested_next h.orderly j).imp hdestroys
              | connected _ | answered _ | expired =>
                  rw [react_of_other hfind Signal.noConfusion Signal.noConfusion]
                  exact .rests h.orderly

/-- **Every input keeps it so.** -/
theorem react_sound (h : c.Sound) (x : Input) : (c.react x).state.Sound := by
  obtain ⟨kept, _, hnext⟩ := react_next h x
  refine ⟨hnext.orderly, fun i o ho => ?_⟩
  have hfate := (react_seats h.openings x).fate i
  rw [ho] at hfate
  rcases hfate.opening with hsame | hbegun | ⟨id, sig, o', hbefore, rfl⟩
  · exact h.openings i o hsame
  · exact Opening.begin_inOrder hbegun
  · exact (Opening.step_inOrder (h.openings i o' hbefore) id sig).1

theorem run_sound (h : c.Sound) (xs : List Input) : (c.run xs).Sound := by
  induction xs generalizing c with
  | nil          => exact h
  | cons x xs ih => exact ih (react_sound h x)

theorem Sound.empty (config : SessionConfig) : (new config).Sound :=
  ⟨.empty config, fun _ _ hnone => nomatch hnone⟩

-- ── Between two destructions ─────────────────────────────────────────────────────────────────────

/-- The seat of a kept session that an input takes away: it was kept, and nothing is any more. -/
def taken? (c : Client) (x : Input) : Option Nat :=
  match c.kept, (c.react x).state.kept with
  | some i, none => some i
  | _, _         => none

/-- The seat in which an input has a session open, for a job that has waited for it and needs the
    kept one. -/
def created? (c : Client) (x : Input) : Option Nat :=
  match x with
  | .tell (.inSeat i _) _ =>
      match c.seats[i]?, (c.react x).state.seats[i]?,
          c.jobs.find? (fun j => j.stage = .opening i) with
      | some (.opening _), some (.taken _), some j => if j.aim.needsLock then some i else none
      | _, _, _                                    => none
  | _                     => none

/-- Only a destruction takes a kept session away. -/
theorem destroys_of_taken (h : c.Sound) {i : Nat} (hx : c.taken? x = some i) : c.Destroys x := by
  unfold taken? at hx
  split at hx
  · rename_i k hkept hgone
    obtain ⟨kept, hsame, hnext⟩ := react_next h x
    obtain rfl := hsame.resolve_right (by rw [hkept]; exact nofun)
    refine (hnext.kept.resolve_left fun hstays => ?_).1
    exact nomatch hkept.symm.trans (hstays.symm.trans hgone)
  · exact nomatch hx

/-- A session is opened to be kept when nothing is kept, and is kept from then on. -/
theorem kept_of_created (h : c.Sound) {i : Nat} (hx : c.created? x = some i) :
    c.kept = none ∧ (c.react x).state.kept = some i := by
  unfold created? at hx
  split at hx
  · rename_i k id sig
    split at hx
    · rename_i o s j hbefore hafter hfind
      split at hx
      · rename_i hneeds
        obtain rfl := Option.some.inj hx
        have hfate := (react_seats h.openings (.tell (.inSeat k id) sig)).fate k
        rw [hbefore, hafter] at hfate
        obtain ⟨_, hno, _⟩ | ⟨id', sig', who, o', s₀, hinput, ho', hresult, _⟩ := hfate.taken
        · exact nomatch hno
        obtain ⟨hwho, rfl⟩ := Input.tell.inj hinput
        obtain ⟨_, rfl⟩ := Activity.inSeat.inj hwho
        obtain rfl := Seat.opening.inj (Option.some.inj ho')
        rcases stepSeat_next h.orderly h.openings k id sig with
          ⟨o', who', result, hseat, hone, hsettles⟩ | ⟨_, hquiet⟩
        · obtain rfl := Seat.opening.inj (Option.some.inj (hbefore.symm.trans hseat))
          rw [hone] at hresult
          obtain rfl : Except.ok s₀ = result := congrArg Prod.snd (List.mem_singleton.1 hresult)
          cases hsettles with
          | rests _ whose     => exact nomatch hneeds.symm.trans (whose j s₀ hfind rfl)
          | keeps before next => exact ⟨before, next.kept.resolve_right And.left⟩
        · rw [hquiet o hbefore] at hresult
          exact nomatch hresult
      · exact nomatch hx
    · exact nomatch hx
  · exact nomatch hx

/-- The kept sessions that a run takes away, by their seats. -/
def taken (c : Client) (xs : List Input) : List Nat := log taken? c xs

/-- The sessions that a run opens to be kept, by their seats. -/
def created (c : Client) (xs : List Input) : List Nat := log created? c xs

/-- **A session is opened once to be kept**: as long as none is taken away, there is one at most,
    and none if one is kept already. -/
theorem created_once (h : c.Sound) {xs : List Input} (hnone : c.taken xs = []) :
    (c.created xs).length ≤ if c.kept.isSome then 0 else 1 := by
  induction xs generalizing c with
  | nil          => exact Nat.zero_le _
  | cons x xs ih =>
      obtain ⟨hfirst, hrest⟩ := List.append_eq_nil_iff.1 hnone
      have hstays : c.taken? x = none := by simpa using hfirst
      have hlater := ih (react_sound h x) hrest
      show ((c.created? x).toList ++ (c.react x).state.created xs).length ≤ _
      rw [List.length_append]
      cases hx : c.created? x with
      | some i =>
          obtain ⟨hbefore, hafter⟩ := kept_of_created h hx
          rw [hafter, Option.isSome_some, if_pos rfl] at hlater
          rw [hbefore, Option.isSome_none, if_neg Bool.false_ne_true, Option.toList_some]
          exact Nat.add_le_add_left hlater 1
      | none   =>
          rw [Option.toList_none, List.length_nil, Nat.zero_add]
          cases hkept : c.kept with
          | none   => exact Nat.le_trans hlater (by split <;> simp)
          | some i =>
              have hafter : (c.react x).state.kept.isSome = true := by
                rw [taken?, hkept] at hstays
                split at hstays
                · exact nomatch hstays
                · rename_i hnot
                  cases hnext : (c.react x).state.kept with
                  | none   => exact absurd hnext (hnot i rfl)
                  | some k => rfl
              rw [hafter, if_pos rfl] at hlater
              exact hlater

end Client

end WitnessReplication

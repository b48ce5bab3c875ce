import WitnessReplication.Proofs.OpeningRuns

/-!
# Witness quorum — which members hold a command that a quorum of witnesses has committed

    An attempt selects its witnesses against a guess: all members but the one that is believed to
    lead.  The command itself is taken by whichever member leads, after as many redirects as it
    needs, and redirects move the guess.  So at the end the guess is looked at again, and if it has
    moved, the witnesses' word counts for nothing.

    What is compared is the guess before and the guess after, and not the member that took the
    command.  Calls share the guess: while one still waits for a slow witness, another one may move
    it on and back.  Then the command was taken by one member, the witnesses were selected against
    another, and the one that was left out has not seen the command at all.

* **`witness_quorum_iff`** — every member but the snapshot holds the command, so every member but
  the one that took it does if and only if these two are the same, or the snapshot holds it anyway.
* **`witness_quorum_unsound`** — two calls after which they are not.
-/

namespace WitnessReplication

/-- Every member but one has taken the record of an entry. -/
def EveryOther (exchanges : List Exchange) (size m : Nat) (entry : LogEntry) : Prop :=
  ∀ k, k < size → k ≠ m → Recorded exchanges k entry

/-- Where every member but one has taken a record, so has every member but another one exactly if
    the first one has, too, or is the other one. -/
theorem everyOther_iff {exchanges : List Exchange} {size m guess : Nat} {entry : LogEntry}
    (h : EveryOther exchanges size guess entry) (hg : guess < size) :
    EveryOther exchanges size m entry ↔ m = guess ∨ Recorded exchanges guess entry := by
  constructor
  · intro hm
    by_cases hmg : m = guess
    · exact Or.inl hmg
    · exact Or.inr (hm guess hg fun he => hmg he.symm)
  · rintro (rfl | hrecorded)
    · exact h
    · intro k hk _
      by_cases hkg : k = guess
      · rw [hkg]
        exact hrecorded
      · exact h k hk hkg

namespace Session

/-- Every run keeps the guess inside the list of members. -/
theorem run_guess_lt {s₀ : Session} (h₀ : s₀.Fresh) (inputs : List Input) :
    (s₀.run inputs).courier.guess < s₀.courier.pool.size := by
  obtain ⟨horder, _, hmembers, _⟩ := run_traced h₀ inputs
  rw [← Pool.size_of_members hmembers]
  exact horder.courier.guess

/-- **What a quorum of witnesses is worth**: for every session, in every run, whatever its members
    do and in whatever order its calls go on.  If a call returns a command as committed by a quorum
    of witnesses, then since its last attempt began some member `m` has taken the command and given
    the answer, and every member but the one that was believed to lead at the beginning has taken a
    record of it.  So every member but `m` has, if and only if `m` is the one that was believed to
    lead, or that one has taken a record of the same entry as well. -/
theorem witness_quorum_iff {s₀ : Session} (h₀ : s₀.Opened) {inputs : List Input} {last : Input}
    {id : Nat} {out : CommandOutput}
    (hret : (id, .returned (.ok out)) ∈ ((s₀.run inputs).react last).results)
    (hpath : out.path = .witnessQuorum) :
    ∃ c ∈ (s₀.run inputs).calls, c.id = id ∧ ∃ begun window a m reply,
      s₀.LastAttempt inputs id c.attempts begun window ∧ c.stage = .attempting a ∧
      Taken ((s₀.run begun).exchanges (window ++ [last])) a.leader m (.command c.entry) reply ∧
      reply.data = out.data ∧
      EveryOther ((s₀.run begun).exchanges (window ++ [last])) s₀.courier.pool.size
        (s₀.run begun).courier.guess c.entry ∧
      (EveryOther ((s₀.run begun).exchanges (window ++ [last])) s₀.courier.pool.size m c.entry ↔
        m = (s₀.run begun).courier.guess ∨
          Recorded ((s₀.run begun).exchanges (window ++ [last])) (s₀.run begun).courier.guess
            c.entry) := by
  have hfresh := h₀.fresh
  obtain ⟨c, hc, hid, begun, window, hlast, hfounded⟩ := returned_founded hfresh hret
  obtain ⟨i, m, reply, htaken, hdata, hpath' | ⟨a, hstage, rfl⟩⟩ := hfounded.taken
  · rw [hpath] at hpath'
    exact nomatch hpath'
  · have hothers : EveryOther ((s₀.run begun).exchanges (window ++ [last])) s₀.courier.pool.size
        (s₀.run begun).courier.guess c.entry := by
      intro k hk hne
      rw [hlast.exchanges]
      exact hfounded.recorded hpath k (WitnessSelection.mem_witnesses hk hne)
    refine ⟨c, hc, hid, begun, window, a, m, reply, hlast, hstage, ?_, hdata, hothers, ?_⟩
    · rw [hlast.exchanges]
      exact htaken
    · exact everyOther_iff hothers (run_guess_lt hfresh begun)

/-! ## Two calls -/

/-- A member takes a command. -/
def takes (hint : Address) : Reply := .command ⟨true, some hint, [1], false⟩

/-- A member sends a command on to another one. -/
def sendsOn (hint : Address) : Reply := .command ⟨false, some hint, [], false⟩

/-- A witness takes a record. -/
def holds : Reply := .record ⟨true, ⟨0⟩⟩

/-- An errand is told a reply. -/
def hear (errand : Nat) (reply : Reply) : Input := .signal errand (.answered (.ok reply))

/-- A call that goes well, until all its errands are done. -/
def smoothRun : List Input :=
  [.invoke [97] [⟨[107]⟩] .fast none,
    .signal 3 .proceed, hear 3 (takes ⟨"m0"⟩),
    .signal 4 .proceed, hear 4 holds,
    .signal 5 .proceed, hear 5 holds]

/-- Two calls that share the guess.  The first one is sent on from the first member to the second,
    which takes its command; its record at the third is slow.  Meanwhile the second call is sent on
    from the second member back to the first. -/
def crossedRun : List Input :=
  [.invoke [97] [⟨[107]⟩] .fast none,
    .signal 3 .proceed, hear 3 (sendsOn ⟨"m1"⟩), .signal 3 .proceed, hear 3 (takes ⟨"m1"⟩),
    .signal 4 .proceed, hear 4 holds,
    .signal 5 .proceed,
    .invoke [98] [⟨[108]⟩] .fast none,
    .signal 7 .proceed, hear 7 (sendsOn ⟨"m0"⟩), .signal 7 .proceed, hear 7 (takes ⟨"m0"⟩),
    hear 5 holds]

/-- The law at a call that goes well: the first member takes the command, the other two take its
    records, and this is every member but the first. -/
theorem witness_quorum_of_three :
    trio.Opened ∧
      (2, .returned (.ok ⟨⟨0⟩, [1], .witnessQuorum⟩)) ∈
        ((trio.run smoothRun).react (.signal 2 .proceed)).results ∧
      ∃ c ∈ (trio.run smoothRun).calls, ∃ begun window a m reply,
        trio.LastAttempt smoothRun 2 c.attempts begun window ∧ c.stage = .attempting a ∧
        Taken ((trio.run begun).exchanges (window ++ [.signal 2 .proceed])) a.leader m
          (.command c.entry) reply ∧
        EveryOther ((trio.run begun).exchanges (window ++ [.signal 2 .proceed])) 3
          (trio.run begun).courier.guess c.entry := by
  have hresults : ((trio.run smoothRun).react (.signal 2 .proceed)).results =
      [(2, .returned (.ok ⟨⟨0⟩, [1], .witnessQuorum⟩))] := rfl
  have hret : (2, .returned (.ok ⟨⟨0⟩, [1], .witnessQuorum⟩)) ∈
      ((trio.run smoothRun).react (.signal 2 .proceed)).results := by
    rw [hresults]
    exact List.mem_singleton.2 rfl
  obtain ⟨c, hc, hid, begun, window, a, m, reply, hlast, hstage, htaken, _, hothers, _⟩ :=
    witness_quorum_iff trio_opened hret rfl
  exact ⟨trio_opened, hret, c, hc, begun, window, a, m, reply, hlast, hstage, htaken, hothers⟩

/-- **Two calls that share the guess**: when the slow record is taken at last, the guess is what it
    was, and the first call returns its command as committed by a quorum of witnesses, though the
    first member has taken no record of it and the second one has taken the command. -/
theorem witness_quorum_unsound :
    trio.Opened ∧
      (2, .returned (.ok ⟨⟨0⟩, [1], .witnessQuorum⟩)) ∈
        ((trio.run crossedRun).react (.signal 2 .proceed)).results ∧
      trio.LastAttempt crossedRun 2 1 [] crossedRun ∧
      Taken (trio.exchanges (crossedRun ++ [.signal 2 .proceed])) 3 1 (.command (trioEntry 0))
        (takes ⟨"m1"⟩) ∧
      ¬ EveryOther (trio.exchanges (crossedRun ++ [.signal 2 .proceed])) 3 1 (trioEntry 0) := by
  have hresults : ((trio.run crossedRun).react (.signal 2 .proceed)).results =
      [(2, .returned (.ok ⟨⟨0⟩, [1], .witnessQuorum⟩))] := rfl
  have hexchanges : trio.exchanges (crossedRun ++ [.signal 2 .proceed]) =
      [⟨3, 0, .command (trioEntry 0), .ok (sendsOn ⟨"m1"⟩)⟩,
        ⟨3, 1, .command (trioEntry 0), .ok (takes ⟨"m1"⟩)⟩,
        ⟨4, 1, .record (trioEntry 0) ⟨0⟩, .ok holds⟩,
        ⟨7, 1, .command (trioEntry 1), .ok (sendsOn ⟨"m0"⟩)⟩,
        ⟨7, 0, .command (trioEntry 1), .ok (takes ⟨"m0"⟩)⟩,
        ⟨5, 2, .record (trioEntry 0) ⟨0⟩, .ok holds⟩] := rfl
  refine ⟨trio_opened, ?returns, ?lastAttempt, ?taken, ?missing⟩
  case returns =>
    rw [hresults]
    exact List.mem_singleton.2 rfl
  case lastAttempt =>
    exact ⟨rfl, (fun _ hc => nomatch hc), _, _, rfl, _, List.mem_singleton.2 rfl, rfl, rfl⟩
  case taken =>
    rw [hexchanges]
    exact ⟨rfl, List.mem_cons_of_mem _ (List.mem_cons_self ..)⟩
  case missing =>
    intro hothers
    obtain ⟨errand, term, reply, _, hmem⟩ := hothers 0 (by decide) (by decide)
    rw [hexchanges] at hmem
    simp at hmem

end Session

end WitnessReplication

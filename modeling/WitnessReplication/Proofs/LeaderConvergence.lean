import WitnessReplication.Proofs.LeaderSearch

/-!
# Leader convergence — a search that cannot miss the leader

    One member leads and takes the request.  Every other one is down, or refuses and names the
    leader or somebody who is not listed.  So a try elsewhere leads to the leader at once or to the
    next member, round the list, and never past the leader: with each try the way that is left gets
    shorter by one member at least.  The way is shorter than once round the list from the start, so
    a try for every member is enough wherever the search begins, and it ends at the leader.

    What the members do is asked only of the tries that are made.  Others may have any number of
    errands under way, and may get any answers.

* **`Try.Meets`** — what a try may meet in such a cluster.
* **`length_le_away`** — tries that are not at the leader are at most as many as there are members
  on the way to it.
* **`Courier.Converges`** — what a search comes to there, and **`search_converges`**, that it does.
-/

namespace WitnessReplication

/-- What a try may meet where one member leads: the leader takes the request, and any other member
    is down, or refuses and names the leader or somebody who is not listed. -/
structure Try.Meets (t : Try) (members : List Address) (leader : Nat) : Prop where
  takes    : t.member = leader → ∃ reply, t.Took reply
  declines : t.member ≠ leader → Declines members leader t.outcome

/-- The member refuses and names the leader. -/
def Try.Directs (t : Try) (members : List Address) (leader : Nat) : Prop :=
  ∃ reply, t.outcome = .ok reply ∧ reply.accepted = false ∧ reply.hint = members[leader]?

namespace Locator

/-- Whoever is believed to lead after a member has declined is the leader, or the next member. -/
theorem after_of_declines {p : Pool} (h : p.members.Nodup) {leader : Nat}
    {outcome : Except TransportError Reply} (hd : Declines p.members leader outcome)
    (member : Nat) :
    after p member outcome = leader ∨ after p member outcome = next p member := by
  rcases verdict_of_declines h hd member with hto | hto
  · exact Or.inl (by rw [after, hto])
  · exact Or.inr (by rw [after, hto])

/-- A member that names the leader leads there. -/
theorem after_of_directs {p : Pool} (h : p.members.Nodup) {leader : Nat} (hl : leader < p.size)
    {t : Try} (hd : t.Directs p.members leader) : after p t.member t.outcome = leader := by
  obtain ⟨reply, hok, hrefused, hhint⟩ := hd
  have hlisted : leader < p.members.length := by simpa [Pool.members, Pool.size] using hl
  have ha : p.members[leader]? = some p.members[leader] := List.getElem?_eq_getElem hlisted
  rw [hok, after, verdict, hhint, ha, hrefused]
  simp [indexOf?_eq h ha]

end Locator

/-- **As long as no try is made at the leader**, each one shortens the way: there are at most as
    many as there are members on it. -/
theorem length_le_away {p : Pool} (hnodup : p.members.Nodup) {leader : Nat} (hl : leader < p.size)
    {t : Try} {ts : List Try} (hchain : (t :: ts).IsChain fun t u => u.member = t.left)
    (hled : ∀ u ∈ t :: ts, u.left = Locator.after p u.member u.outcome)
    (hlisted : ∀ u ∈ t :: ts, u.member < p.size)
    (hdeclines : ∀ u ∈ t :: ts, Declines p.members leader u.outcome)
    (hne : ∀ u ∈ t :: ts, u.member ≠ leader) :
    (t :: ts).length ≤ Locator.away p.size t.member leader := by
  -- on the tries that follow; the next one is made at the leader, which cannot be, or one nearer
  induction ts generalizing t with
  | nil          =>
      exact Locator.away_pos (hlisted t (List.mem_cons_self ..)) (hne t (List.mem_cons_self ..))
  | cons u ts ih =>
      have ht : t ∈ t :: u :: ts := List.mem_cons_self ..
      have hu : u ∈ t :: u :: ts := List.mem_cons_of_mem _ (List.mem_cons_self ..)
      have hrest := ih (List.isChain_cons_cons.1 hchain).2
        (fun v hv => hled v (List.mem_cons_of_mem _ hv))
        (fun v hv => hlisted v (List.mem_cons_of_mem _ hv))
        (fun v hv => hdeclines v (List.mem_cons_of_mem _ hv))
        (fun v hv => hne v (List.mem_cons_of_mem _ hv))
      have hstep : u.member = Locator.after p t.member t.outcome :=
        (List.isChain_cons_cons.1 hchain).1.trans (hled t ht)
      have hnext : u.member = Locator.next p t.member := by
        rcases Locator.after_of_declines hnodup (hdeclines t ht) t.member with hto | hto
        · exact absurd (hstep.trans hto) (hne u hu)
        · exact hstep.trans hto
      have haway := Locator.away_next (hlisted t ht) hl (hne t ht)
      rw [← hnext] at haway
      rw [List.length_cons]
      omega

namespace Courier

variable {c : Courier} {id leader : Nat} {request : Request} {xs : List Event}

/-- A try of a run is over with one of its events. -/
theorem exists_of_mem_tries {t : Try} (ht : t ∈ c.tries id xs) :
    ∃ ys x, ys ++ [x] <+: xs ∧ (c.run ys).state.tryOf? id x = some t := by
  induction xs using List.reverseRecOn with
  | nil                      => exact nomatch ht
  | append_singleton xs x ih =>
      rw [tries_concat] at ht
      rcases List.mem_append.1 ht with ht | ht
      · obtain ⟨ys, y, hprefix, hover⟩ := ih ht
        exact ⟨ys, y, hprefix.trans (List.prefix_append xs [x]), hover⟩
      · exact ⟨xs, x, List.prefix_rfl, Option.mem_toList.1 ht⟩

/-- Tries are made at members. -/
theorem member_lt_of_mem_tries (h : c.Sound) (hbegun : c.Begun id request) {t : Try}
    (ht : t ∈ c.tries id xs) : t.member < c.pool.size := by
  obtain ⟨ys, x, _, hover⟩ := exists_of_mem_tries ht
  rw [(try_made h hbegun hover).1.member, ← Pool.size_of_members (run_lasts h.order ys).members]
  exact (sound_run h ys).order.guess

/-- Tries that came to nothing were not made at the leader. -/
theorem length_lt_of_missed (h : c.Sound) (hbegun : c.Begun id request)
    (hnodup : c.pool.members.Nodup) (hl : leader < c.pool.size) (htrail : c.Trail id xs)
    (hmeets : ∀ t ∈ c.tries id xs, t.Meets c.pool.members leader)
    (hmissed : ∀ t ∈ c.tries id xs, t.Missed) : (c.tries id xs).length < c.pool.size := by
  have hne : ∀ t ∈ c.tries id xs, t.member ≠ leader := by
    intro t ht hat
    obtain ⟨reply, htook⟩ := (hmeets t ht).takes hat
    exact (hmissed t ht).not_took reply htook
  have hlisted : ∀ t ∈ c.tries id xs, t.member < c.pool.size := fun t ht =>
    member_lt_of_mem_tries h hbegun ht
  cases htries : c.tries id xs with
  | nil       => exact Nat.zero_lt_of_lt hl
  | cons t ts =>
      rw [htries] at hmeets hne hlisted
      have hway := length_le_away hnodup hl (htries ▸ htrail.chained) (htries ▸ htrail.led) hlisted
        (fun u hu => (hmeets u hu).declines (hne u hu)) hne
      exact Nat.lt_of_le_of_lt hway (Locator.away_lt (hlisted t (List.mem_cons_self ..)) hl)

/-- What a search comes to where one member leads. -/
structure Converges (c : Courier) (id leader : Nat) (xs : List Event) : Prop where
  /-- There are at most as many tries as members. -/
  budget  : (c.tries id xs).length ≤ c.pool.size
  /-- When it is over, the last try was made at the leader, which took the request; it has come to
      the leader's reply, and the leader is believed to lead. -/
  replied : ∀ o ∈ (c.run xs).outcomesOf id, ∃ ts t reply, o = .led (.ok reply) ∧
    c.tries id xs = ts ++ [t] ∧ t.member = leader ∧ t.Took reply ∧ t.left = leader ∧
    ∀ u ∈ ts, u.member ≠ leader
  /-- It is over once the leader has taken the request. -/
  taken   : ∀ t ∈ c.tries id xs, t.member = leader → (c.run xs).outcomesOf id ≠ []
  /-- Unless it was called off, it goes on until then: there is a try left, somebody can be told
      what he waits for, and the search is over once it was told often enough what it waits for. -/
  returns : (c.run xs).outcomesOf id = [] → .callsOff id ∉ xs →
    (c.tries id xs).length < c.pool.size ∧ c.heard id xs < leadEffort c.pool.size ∧
      (∃ e, (c.run xs).state.find? id = some e) ∧
      ∃ f ∈ (c.run xs).state.errands, ∃ s, (c.run xs).state.heeds f s = true
  /-- Two tries are enough if whoever refuses names the leader. -/
  direct  : (∀ t ∈ c.tries id xs, t.member ≠ leader → t.Directs c.pool.members leader) →
    (c.tries id xs).length ≤ 2

/-- As long as there are errands, one of them waits for something that it can be told. -/
theorem Queued.exists_heeds (h : c.Queued) {e : Errand} (he : e ∈ c.errands) :
    ∃ f ∈ c.errands, ∃ s, c.heeds f s = true := by
  obtain ⟨f, hf, hcan⟩ := h.unstuck he
  refine ⟨f, hf, ?_⟩
  rcases hcan with hmay | ⟨m, hstage⟩ | ⟨m, hstage⟩ | hstage
  · exact ⟨.proceed, hmay⟩
  · exact ⟨.connected (.ok ()), by simp [heeds, hstage]⟩
  · exact ⟨.answered (.ok .unfreeze), by simp [heeds, hstage]⟩
  · exact ⟨.rested, by simp [heeds, hstage]⟩

/-- Whoever refuses names the leader, so that the second try is made there, and is the last one. -/
theorem length_le_two (hnodup : c.pool.members.Nodup) (hl : leader < c.pool.size)
    (hstatus : c.Status id request xs) (htrail : c.Trail id xs)
    (hmeets : ∀ t ∈ c.tries id xs, t.Meets c.pool.members leader)
    (hdirects : ∀ t ∈ c.tries id xs, t.member ≠ leader → t.Directs c.pool.members leader) :
    (c.tries id xs).length ≤ 2 := by
  by_contra hmore
  obtain ⟨t, u, v, ts, htries⟩ : ∃ t u v ts, c.tries id xs = t :: u :: v :: ts := by
    match hall : c.tries id xs, hmore with
    | t :: u :: v :: ts, _ => exact ⟨t, u, v, ts, rfl⟩
    | [], hmore            => exact absurd (Nat.zero_le 2) hmore
    | [_], hmore           => exact absurd (Nat.le_succ 1) hmore
    | [_, _], hmore        => exact absurd (Nat.le_refl 2) hmore
  have hmem : ∀ w ∈ [t, u], w ∈ c.tries id xs := by
    intro w hw
    rw [htries]
    exact List.mem_append_left (v :: ts) hw
  -- neither the first nor the second is the last one, so both came to nothing
  have hmissed : ∀ w ∈ [t, u], w.Missed := by
    have hlast : c.tries id xs =
        (t :: u :: (v :: ts).dropLast) ++ [(v :: ts).getLast (List.cons_ne_nil v ts)] := by
      rw [htries, List.cons_append, List.cons_append, List.dropLast_append_getLast]
    intro w hw
    exact hstatus.missed_of_append hlast w (List.mem_append_left _ hw)
  have hne : ∀ w ∈ [t, u], w.member ≠ leader := by
    intro w hw hat
    obtain ⟨reply, htook⟩ := (hmeets w (hmem w hw)).takes hat
    exact (hmissed w hw).not_took reply htook
  have ht : t ∈ [t, u] := List.mem_cons_self ..
  have hchain := htrail.chained
  rw [htries] at hchain
  refine hne u (List.mem_cons_of_mem _ (List.mem_cons_self ..)) ?_
  calc u.member
      = t.left                                   := (List.isChain_cons_cons.1 hchain).1
    _ = Locator.after c.pool t.member t.outcome := htrail.led t (hmem t ht)
    _ = leader                                   :=
        Locator.after_of_directs hnodup hl (hdirects t (hmem t ht) (hne t ht))

theorem converges_of_begun (h : c.Sound) (hbegun : c.Begun id request)
    (hnodup : c.pool.members.Nodup) (hl : leader < c.pool.size)
    (hmeets : ∀ t ∈ c.tries id xs, t.Meets c.pool.members leader) :
    c.Converges id leader xs := by
  obtain ⟨hstatus, htrail⟩ := search_run h hbegun xs
  have hcontract := search_contract h hbegun xs
  have hshort := length_lt_of_missed h hbegun hnodup hl htrail hmeets
  have helsewhere : ∀ u ∈ c.tries id xs, u.Missed → u.member ≠ leader := by
    intro u hu hmissed hat
    obtain ⟨reply, htook⟩ := (hmeets u hu).takes hat
    exact hmissed.not_took reply htook
  refine {
    budget  := hcontract.budget.1
    replied := fun o ho => ?replied
    taken   := fun t ht hat => ?taken
    returns := fun hnone hkept => ?returns
    direct  := length_le_two hnodup hl hstatus htrail hmeets }
  case replied =>
    cases hstatus with
    | searching _ _ _ _ outcomes _ => rw [outcomes] at ho; exact nomatch ho
    | calledOff _ _ _ _ outcomes   => rw [outcomes] at ho; exact nomatch ho
    | gaveUp _ all missed _        => exact absurd all (Nat.ne_of_lt (hshort missed))
    | @answered ts t answer _ tries _ missed stays answers outcomes =>
        rw [outcomes, List.mem_singleton] at ho
        have ht : t ∈ c.tries id xs := by rw [tries]; exact List.mem_concat_self
        have hat : t.member = leader := by
          by_contra hne
          -- whoever declines gives no answer
          have hdeclines := (hmeets t ht).declines hne
          rcases answers with ⟨reply, htook, _⟩ | ⟨error, hgarbled, _⟩
          · rw [htook.1] at hdeclines
            cases hdeclines with
            | refuses refused _ _ => rw [htook.2] at refused; exact nomatch refused
          · rw [hgarbled.1] at hdeclines
            cases hdeclines with
            | down kind => exact kind hgarbled.2
        obtain ⟨reply, htook⟩ := (hmeets t ht).takes hat
        obtain rfl := answers.inj (Try.answers_ok.2 htook)
        exact ⟨ts, t, reply, ho, tries, hat, htook, stays.trans hat, fun u hu =>
          helsewhere u (by rw [tries]; exact List.mem_append_left _ hu) (missed u hu)⟩
  case taken   =>
    cases hstatus with
    | searching _ _ missed _ _ _         => exact absurd hat (helsewhere t ht (missed t ht))
    | calledOff _ _ _ missed _           => exact absurd hat (helsewhere t ht (missed t ht))
    | answered _ _ _ _ _ _ outcomes      => rw [outcomes]; exact List.cons_ne_nil _ _
    | gaveUp _ _ _ outcomes              => rw [outcomes]; exact List.cons_ne_nil _ _
  case returns =>
    obtain ⟨hheard, stage, hfound⟩ := hcontract.present hnone hkept
    refine ⟨?_, hheard, ⟨_, hfound⟩,
      (sound_run h xs).queued.exists_heeds (List.mem_of_find?_eq_some hfound)⟩
    cases hstatus with
    | searching _ _ missed _ _ _    => exact hshort missed
    | calledOff _ _ _ missed _      => exact hshort missed
    | answered _ _ _ _ _ _ outcomes => rw [outcomes] at hnone; exact nomatch hnone
    | gaveUp _ _ _ outcomes         => rw [outcomes] at hnone; exact nomatch hnone

/-- **Every search ends at the leader** where one member leads, whoever is believed to lead when it
    begins, and whatever else goes on: with as many tries as members at most, and with two if
    whoever refuses names the leader. -/
theorem search_converges (h : c.AtRest) (before : List Event) (request : Request)
    (after : List Event) (hnodup : c.pool.members.Nodup) (hl : leader < c.pool.size)
    (hmeets : ∀ t ∈ ((c.run before).state.beginLead request).2.tries
      ((c.run before).state.beginLead request).1 after, t.Meets c.pool.members leader) :
    ((c.run before).state.beginLead request).2.Converges
      ((c.run before).state.beginLead request).1 leader after := by
  obtain ⟨hsound, hbegun⟩ := begun_of_beginLead (sound_run h.sound before) request
  have hmembers : ((c.run before).state.beginLead request).2.pool.members = c.pool.members :=
    (run_lasts h.sound.order before).members
  refine converges_of_begun hsound hbegun (hmembers ▸ hnodup) ?_ (hmembers ▸ hmeets)
  rw [Pool.size_of_members hmembers]
  exact hl

/-- The first of three members does not reply, the second one names somebody who is not listed, and
    the third one leads. -/
def trioWalk : List Event :=
  [.tells 2 .proceed, .tells 2 (.answered (.error ⟨.send, "reset"⟩)),
    .tells 2 .proceed, .tells 2 (.answered (.ok (.sync ⟨false, some ⟨"m9"⟩, []⟩))),
    .tells 2 .proceed, .tells 2 (.answered (.ok (.sync ⟨true, none, [50]⟩)))]

theorem trio_converges :
    Session.trio.courier.AtRest ∧ Session.trio.courier.pool.members.Nodup ∧
      2 < Session.trio.courier.pool.size ∧
      (∀ t ∈ (Session.trio.courier.beginLead (.sync none)).2.tries 2 trioWalk,
        t.Meets Session.trio.courier.pool.members 2) ∧
      (Session.trio.courier.beginLead (.sync none)).2.Converges 2 2 trioWalk := by
  have htries : (Session.trio.courier.beginLead (.sync none)).2.tries 2 trioWalk =
      [⟨0, .error ⟨.send, "reset"⟩, 1⟩, ⟨1, .ok (.sync ⟨false, some ⟨"m9"⟩, []⟩), 2⟩,
        ⟨2, .ok (.sync ⟨true, none, [50]⟩), 2⟩] := by decide
  have hmeets : ∀ t ∈ (Session.trio.courier.beginLead (.sync none)).2.tries 2 trioWalk,
      t.Meets Session.trio.courier.pool.members 2 := by
    rw [htries]
    simp only [List.forall_mem_cons]
    refine ⟨⟨nofun, fun _ => .down nofun⟩, ⟨nofun, fun _ => ?_⟩, ⟨fun _ => ?_, fun hne => ?_⟩,
      nofun⟩
    · exact .refuses (a := ⟨"m9"⟩) rfl rfl (Or.inr (by decide))
    · exact ⟨_, rfl, rfl⟩
    · exact absurd rfl hne
  exact ⟨Session.trio_opened.atRest, by decide, by decide, hmeets,
    search_converges Session.trio_opened.atRest [] (.sync none) trioWalk (by decide) (by decide)
      hmeets⟩

end Courier

end WitnessReplication

import WitnessReplication.Proofs.CourierRuns

/-!
# Pool closing — what is left of a pool once it was closed

    From when an errand sets out to close the pool, nobody lines up for an exchange any more.  Who
    stood in line before may still open a connection; but the errand that closes the pool goes to
    each slot in turn and lines up behind all of them.  So when it is first in line, whoever is
    behind it is there to close the pool as well, and what it drops is not opened again.

    That is the invariant of a closing pool.  The slots that the errand has left behind have no
    connection, and nobody stands in line there but to close the pool; and where it waits, everybody
    behind it is there to close the pool.  When the errand has ended, every slot has been left
    behind.

    Whoever was at a slot when the closing began is served as if the pool were open: nobody new gets
    in before him, and what he is told has the same effect.

* **`Courier.Cleared`** — a slot that was left behind; **`Closing`**, the invariant.
* **`closing_happen`** and **`closing_run`** — every event keeps it, so every run does.
* **`quiet_of_cleared`** — where every slot was left behind, nothing is connected or exchanged.
* **`visit_happen`** — how the visit of an errand to a slot goes on; **`step_withClosed`**, that it
  goes on as if the pool were open.
-/

namespace WitnessReplication

-- ── Lines ────────────────────────────────────────────────────────────────────────────────────────

namespace Redrawn

variable {who i j : Nat} {l l' : List Nat}

/-- Whoever stands in line stood there, or has joined it. -/
theorem mem_or (h : Redrawn who l l') (hi : i ∈ l') : i ∈ l ∨ i = who ∧ l' = l ++ [who] := by
  cases h with
  | same   => exact Or.inl hi
  | joined => exact (List.mem_append.1 hi).imp_right fun hi => ⟨List.mem_singleton.1 hi, rfl⟩
  | left   => exact Or.inl (List.mem_of_mem_erase hi)

/-- Whoever stands behind somebody stood behind him, or has joined the line. -/
theorem before_or (h : Redrawn who l l') (hb : [i, j].Sublist l') :
    [i, j].Sublist l ∨ j = who ∧ l' = l ++ [who] := by
  cases h with
  | same   => exact Or.inl hb
  | joined =>
      obtain ⟨l₁, l₂, heq, h₁, h₂⟩ := List.sublist_append_iff.1 hb
      rcases List.sublist_singleton.1 h₂ with rfl | rfl
      · rw [List.append_nil] at heq
        exact Or.inl (heq ▸ h₁)
      · have hlast : [i] ++ [j] = l₁ ++ [who] := heq
        exact Or.inr ⟨List.singleton_inj.1 (List.append_inj' hlast rfl).2, rfl⟩
  | left   => exact Or.inl (hb.trans List.erase_sublist)

/-- Nobody gets in before one who stood in line. -/
theorem before_of_mem (h : Redrawn who l l') (hnodup : l'.Nodup) (hj : j ∈ l)
    (hb : [i, j].Sublist l') : [i, j].Sublist l := by
  rcases h.before_or hb with hb | ⟨rfl, rfl⟩
  · exact hb
  · have hdisjoint := (List.nodup_append.1 hnodup).2.2 j hj j (List.mem_singleton.2 rfl)
    exact absurd rfl hdisjoint

end Redrawn

/-- The visit of an errand to a slot is over when it is told this: that there is no connection, or
    what its exchange came to. -/
def Errand.EndsVisit (e : Errand) (s : Signal) : Prop :=
  (∃ m error, e.stage = .connecting m ∧ s = .connected (.error error)) ∨
    ∃ m outcome, e.stage = .exchanging m ∧ s = .answered outcome

namespace Courier

variable {c d : Courier} {e f : Errand} {p : Step} {s : Signal} {k m : Nat} {x : Event}

-- ── Errands of calls, once the pool is closed ────────────────────────────────────────────────────

theorem eq_of_mem_put {g : Errand} (hg : g ∈ (c.put f).errands) (hid : g.id = f.id) : g = f := by
  obtain ⟨g₀, _, rfl⟩ := List.mem_map.1 hg
  by_cases hsame : g₀.id = f.id
  · rw [if_pos hsame]
  · rw [if_neg hsame] at hid
    exact absurd hid hsame

theorem mem_put (he : e ∈ c.errands) (hid : f.id = e.id) : f ∈ (c.put f).errands :=
  List.mem_map.2 ⟨e, he, if_pos hid.symm⟩

theorem not_mem_abandon {id : Nat} (hf : f ∈ (c.abandon id).errands) : f.id ≠ id := by
  simpa using (List.mem_filter.1 hf).2

/-- What it comes to that an errand of a call settles what came of its exchange: no connection comes
    or goes, it is at no slot, and it demands nothing of a member. -/
structure Withdraws (c : Courier) (e : Errand) (p : Step) : Prop where
  links   : ∀ m, p.state.pool.connected m = c.pool.connected m
  place   : ∀ f ∈ p.state.errands, f.id = e.id → f.stage.member? = none
  demands : ∀ d ∈ p.demands, d.reaches = false

theorem finish_withdraws (hid : f.id = e.id) (hpool : d.pool = c.pool) (o : Errand.Outcome) :
    c.Withdraws e (d.finish f o) where
  links   := fun m => by
    show (d.pool.leaveAll f.id).connected m = _
    rw [hpool, Pool.connected_leaveAll]
  place   := fun _ hg hgid => absurd (hgid.trans hid.symm) (not_mem_abandon hg)
  demands := fun _ hd => nomatch hd

theorem put_withdraws (hid : f.id = e.id) (hpool : d.pool = c.pool)
    (hstage : f.stage.member? = none) {ds : List (Demand Nat)}
    (hds : ∀ d ∈ ds, d.reaches = false) : c.Withdraws e { state := d.put f, demands := ds } where
  links   := fun m => by
    show d.pool.connected m = _
    rw [hpool]
  place   := fun g hg hgid => by
    rw [eq_of_mem_put hg (hgid.trans hid.symm)]
    exact hstage
  demands := hds

theorem settle_withdraws (h : e.OfCall) (outcome : Except TransportError Reply) :
    c.Withdraws e (c.settle e outcome) := by
  cases haim : e.aim with
  | lead request tries =>
      have hsettles := settle_lead (c := c) haim outcome
      generalize settle c e outcome = p at hsettles
      cases hsettles with
      | accepted _           => exact finish_withdraws rfl rfl _
      | malformed _          => exact finish_withdraws rfl rfl _
      | @retargets _ guess _ =>
          exact put_withdraws (c := c) (d := { c with guess }) (e := e)
            (f := { e with aim := .lead request (tries - 1), stage := .ready }) rfl rfl rfl
            (List.forall_mem_nil _)
      | backsOff _ _ pauses  =>
          subst pauses
          exact put_withdraws (c := c) (e := e)
            (f := { e with aim := .lead request (tries - 1), stage := .backingOff }) rfl rfl rfl
            fun d hd => List.mem_singleton.1 hd ▸ rfl
  | record w entry term =>
      obtain ⟨known, ok, heq, _⟩ := settle_record (c := c) haim outcome
      rw [heq]
      exact finish_withdraws (c := c) (d := { c with knownTerm := known }) rfl rfl _
  | direct _ _ | survey _ _ | close _ =>
      rcases h with ⟨_, hp⟩ | ⟨_, _, hp⟩ <;> (rw [haim] at hp; exact nomatch hp)

/-- What a step of an errand of a call does to a closed pool: it opens a connection only where it
    asked for one, and lines up nowhere; and it demands nothing of a member but at a slot. -/
structure Retreats (c : Courier) (e : Errand) (p : Step) : Prop where
  links   : ∀ m, p.state.pool.connected m = true →
    c.pool.connected m = true ∨ e.stage = .connecting m
  place   : ∀ f ∈ p.state.errands, f.id = e.id → ∀ m, f.At m → e.At m
  demands : ∀ d ∈ p.demands, d.reaches = true → ∃ m, e.At m

theorem Withdraws.retreats (h : d.Withdraws e p)
    (links : ∀ m, d.pool.connected m = true → c.pool.connected m = true) : c.Retreats e p where
  links   := fun m hm => Or.inl (links m (h.links m ▸ hm))
  place   := fun g hg hid _ hm => nomatch (h.place g hg hid).symm.trans hm
  demands := fun x hx hr => nomatch (h.demands x hx).symm.trans hr

theorem goes_retreats (h : c.Goes e s p) (hq : c.Queued) (he : e ∈ c.errands) (hof : e.OfCall)
    (hclosed : c.pool.closed = true) : c.Retreats e p := by
  have hown : ∀ f ∈ c.errands, f.id = e.id → ∀ m, f.At m → e.At m := fun f hf hid m hm =>
    eq_of_id hq.distinct hf he hid ▸ hm
  cases h with
  | rests _                        =>
      exact ⟨fun m hm => Or.inl hm, hown, fun _ hd => nomatch hd⟩
  | givesUp _ _                    =>
      refine ⟨fun m hm => Or.inl ?_, fun g hg hgid => absurd hgid (not_mem_abandon hg),
        fun _ hd => nomatch hd⟩
      rw [← Pool.connected_leaveAll]
      exact hm
  | refused _ _ _ _ _              => exact (settle_withdraws hof _).retreats fun _ hm => hm
  | arrives _ _ unclosed _ _ _     => exact nomatch unclosed.symm.trans hclosed
  | @enters k stage ds waits _ _ aboard =>
      obtain ⟨_, _, hboards⟩ := aboard
      have hat : e.At k := by rw [Errand.At, waits]; rfl
      refine ⟨fun m hm => Or.inl hm, fun f hf hid m hm => ?_, fun _ _ _ => ⟨k, hat⟩⟩
      rw [eq_of_mem_put hf hid] at hm
      exact Option.some.inj (hboards.member?.symm.trans hm) ▸ hat
  | @connects k ds waits _         =>
      have hat : e.At k := by rw [Errand.At, waits]; rfl
      refine ⟨fun m hm => ?_, fun f hf hid m hm => ?_, fun _ _ _ => ⟨k, hat⟩⟩
      · have hlinked : (c.pool.connect k).connected m = true := hm
        rw [Pool.connected_connect, Bool.or_eq_true, Bool.and_eq_true, beq_iff_eq] at hlinked
        rcases hlinked with hbefore | ⟨rfl, _⟩
        · exact Or.inl hbefore
        · exact Or.inr waits
      · rw [eq_of_mem_put hf hid] at hm
        exact Option.some.inj hm ▸ hat
  | @unconnected k error waits     =>
      refine (settle_withdraws hof _).retreats fun m hm => ?_
      rwa [Pool.connected_leave] at hm
  | @exchanged k outcome pool waits kept =>
      refine (settle_withdraws hof _).retreats fun m hm => ?_
      rw [Pool.connected_leave] at hm
      rcases kept with rfl | rfl
      · exact hm
      · rw [Pool.connected_disconnect, Bool.and_eq_true] at hm
        exact hm.1
  | wakes _                        =>
      refine ⟨fun m hm => Or.inl hm, fun f hf hid m hm => ?_, fun _ hd => nomatch hd⟩
      rw [eq_of_mem_put hf hid] at hm
      exact nomatch hm

/-- No step of an errand that closes the pool opens a connection. -/
theorem shuts_links {next : Nat} (h : c.Shuts e next s p)
    (hm : p.state.pool.connected m = true) : c.pool.connected m = true := by
  cases h with
  | rests _      => exact hm
  | ends _ _     =>
      rw [← Pool.connected_leaveAll]
      exact hm
  | queues _ _ _ =>
      rw [← Pool.connected_lineUp next]
      exact hm
  | @empties pool lined _ =>
      have hlinked : ((pool.disconnect next).leave next e.id).connected m = true := hm
      rw [Pool.connected_leave, Pool.connected_disconnect, Bool.and_eq_true] at hlinked
      rcases lined with ⟨_, rfl⟩ | ⟨_, _, rfl⟩
      · exact hlinked.1
      · rw [← Pool.connected_lineUp next]
        exact hlinked.1

/-- It demands nothing. -/
theorem shuts_demands {next : Nat} (h : c.Shuts e next s p) : p.demands = [] := by
  cases h <;> rfl

-- ── Errands that close the pool ──────────────────────────────────────────────────────────────────

/-- Whoever goes by a number is there to close the pool. -/
def Closer (c : Courier) (i : Nat) : Prop := ∀ e ∈ c.errands, e.id = i → e.aim.purpose = .close

/-- What an event does to a closed pool: it opens a connection only where an errand asked for one,
    and nobody joins a line but to close the pool. -/
structure Shrinks (c d : Courier) : Prop where
  links : ∀ m, d.pool.connected m = true →
    c.pool.connected m = true ∨ ∃ e ∈ c.errands, e.stage = .connecting m
  lines : ∀ m, ∃ who, Redrawn who (c.pool.line m) (d.pool.line m) ∧
    (d.pool.line m = c.pool.line m ++ [who] → d.Closer who)

/-- An errand of a call is not there to close the pool. -/
theorem not_ofCall_of_close (h : e.aim.purpose = .close) : ¬ e.OfCall := by
  rintro (⟨_, hp⟩ | ⟨_, _, hp⟩) <;> exact nomatch h.symm.trans hp

/-- Whoever is there to close the pool is on its way to a slot, or waits there. -/
theorem Behaves.closes (hb : c.Behaves e) (h : e.aim.purpose = .close) :
    ∃ next, e.Closes next :=
  hb.kinds.resolve_left (not_ofCall_of_close h)

/-- The errands that an event is about, one at most, are the only ones that may join a line. -/
theorem happen_shrinks (h : c.Sound) (hclosed : c.pool.closed = true) (x : Event) :
    c.Shrinks (c.happen x).state := by
  have hsound := sound_happen h x
  refine ⟨fun m hm => ?links, fun m => ?lines⟩
  case links =>
    cases x with
    | number           => exact Or.inl hm
    | leads request    => exact Or.inl hm
    | records entry ws =>
        have hlinked : (c.beginRecords entry ws).2.pool.connected m = true := hm
        rw [beginRecords_eq] at hlinked
        exact Or.inl hlinked
    | closes           => exact Or.inl hm
    | tells id s       =>
        cases hf : c.find? id with
        | none   =>
            have hidle : c.happen (.tells id s) = { state := c } := step_of_gone hf s
            rw [hidle] at hm
            exact Or.inl hm
        | some e =>
            have he := List.mem_of_find?_eq_some hf
            rcases (h.behaves e he).kinds with hof | ⟨next, hcloses⟩
            · have hretreats := goes_retreats (step_goes hf hof s) h.queued he hof hclosed
              exact (hretreats.links m hm).imp_right fun hstage => ⟨e, he, hstage⟩
            · exact Or.inl (shuts_links (step_shuts hf hcloses s) hm)
    | callsOff id      =>
        refine Or.inl ?_
        rw [← Pool.connected_leaveAll]
        exact hm
  case lines =>
    obtain ⟨who, hredrawn, hjoins⟩ := happen_redrawn h x m
    refine ⟨who, hredrawn, fun hjoined => ?_⟩
    have hwho := hjoins hjoined
    have hin : who ∈ (c.happen x).state.pool.line m := by
      rw [hjoined]
      exact List.mem_concat_self
    have hnodup := hsound.queued.nodup m
    -- whoever has joined was not in line before, so it is not an errand of a call
    have hout : who ∉ c.pool.line m := by
      rw [hjoined] at hnodup
      exact fun hmem => (List.nodup_append.1 hnodup).2.2 who hmem who (List.mem_singleton.2 rfl) rfl
    obtain ⟨f, hf, hid, hat⟩ := (hsound.queued.lines m who).1 hin
    cases x with
    | tells id s  =>
        obtain rfl := Option.some.inj hwho
        cases hfound : c.find? id with
        | none   =>
            have hidle : c.happen (.tells id s) = { state := c } := step_of_gone hfound s
            rw [hidle] at hin
            exact absurd hin hout
        | some e =>
            have he := List.mem_of_find?_eq_some hfound
            have heid : e.id = id := by simpa using List.find?_some hfound
            rcases (h.behaves e he).kinds with hof | ⟨next, hcloses⟩
            · have hretreats := goes_retreats (step_goes hfound hof s) h.queued he hof hclosed
              have hbefore := hretreats.place f hf (hid.trans heid.symm) m hat
              exact absurd ((h.queued.lines m id).2 ⟨e, he, heid, hbefore⟩) hout
            · refine (happen_lasts h.order (.tells id s)).toFollows.purpose
                (heid ▸ h.order.numbered e he) fun g hg hgid => ?_
              rw [eq_of_id h.queued.distinct hg he (hgid.trans heid.symm), hcloses.aim]
              rfl
    | callsOff id =>
        obtain rfl := Option.some.inj hwho
        exact absurd hid (not_mem_abandon hf)
    | _           => exact nomatch hwho

/-- A slot that was left behind: it has no connection, and nobody stands in line there but to close
    the pool. -/
structure Cleared (c : Courier) (m : Nat) : Prop where
  unlinked : c.pool.connected m = false
  closers  : ∀ i ∈ c.pool.line m, c.Closer i

/-- Where there is no slot, there is nothing to clear. -/
theorem cleared_of_size_le (h : c.pool.size ≤ m) : c.Cleared m := by
  have hnone : c.pool.slots[m]? = none := List.getElem?_eq_none h
  have hline : c.pool.line m = [] := by
    unfold Pool.line
    rw [hnone]
  constructor
  · unfold Pool.connected
    rw [hnone]
  · rw [hline]
    exact List.forall_mem_nil _

/-- Whoever stands in line has a number that was given. -/
theorem lt_of_mem_line (h : c.Sound) {i : Nat} (hi : i ∈ c.pool.line m) : i < c.fresh := by
  obtain ⟨e, he, rfl, _⟩ := (h.queued.lines m i).1 hi
  exact h.order.numbered e he

/-- Whoever stands in line to close the pool goes on doing so. -/
theorem Closer.happen (hcloser : c.Closer k) (h : c.Sound) (hk : k < c.fresh) (x : Event) :
    (c.happen x).state.Closer k :=
  (happen_lasts h.order x).toFollows.purpose hk hcloser

/-- **What was left behind stays so.** -/
theorem Cleared.happen (hcleared : c.Cleared m) (h : c.Sound) (hclosed : c.pool.closed = true)
    (x : Event) : (c.happen x).state.Cleared m := by
  have hshrinks := happen_shrinks h hclosed x
  constructor
  · rw [Bool.eq_false_iff]
    intro hlinked
    rcases hshrinks.links m hlinked with hbefore | ⟨e, he, hstage⟩
    · exact nomatch hbefore.symm.trans hcleared.unlinked
    · -- whoever waits for a connection stands in line, and not to close the pool
      have hin : e.id ∈ c.pool.line m :=
        (h.queued.lines m e.id).2 ⟨e, he, rfl, by rw [Errand.At, hstage]; rfl⟩
      obtain ⟨next, hcloses⟩ := (h.behaves e he).closes (hcleared.closers e.id hin e he rfl)
      rcases hcloses.stage with hwaits | hwaits <;> exact nomatch hstage.symm.trans hwaits
  · intro i hi
    obtain ⟨who, hredrawn, hjoins⟩ := hshrinks.lines m
    rcases hredrawn.mem_or hi with hbefore | ⟨rfl, hjoined⟩
    · exact (hcleared.closers i hbefore).happen h (lt_of_mem_line h hbefore) x
    · exact hjoins hjoined

-- ── The invariant ────────────────────────────────────────────────────────────────────────────────

/-- How far a closing is: the errand is on its way to a slot or waits there, with all slots before
    it cleared, and everybody behind it there to close the pool; or it has ended, and all are
    cleared. -/
inductive Closing (c : Courier) (k : Nat) : Prop where
  | sweeps {next : Nat} {stage : Errand.Stage}
      (found : c.find? k = some ⟨k, .close next, stage⟩) (cleared : ∀ m < next, c.Cleared m)
      (behind : ∀ i, [k, i].Sublist (c.pool.line next) → c.Closer i)
  | done (gone : c.find? k = none) (cleared : ∀ m, c.Cleared m)

/-- Only an errand that was sent out to the leader is called off. -/
def Admits (c : Courier) (x : Event) : Prop :=
  ∀ i, x = .callsOff i → i < c.fresh ∧
    ∃ request, ∀ e ∈ c.errands, e.id = i → e.aim.purpose = .lead request

theorem Admits.happen (hx : c.Admits x) (h : c.InOrder) (y : Event) :
    (c.happen y).state.Admits x := by
  intro i hi
  obtain ⟨hlt, request, hpurpose⟩ := hx i hi
  have hlasts := happen_lasts h y
  exact ⟨Nat.lt_of_lt_of_le hlt hlasts.fresh, request, hlasts.toFollows.purpose hlt hpurpose⟩

/-- Whoever stands behind somebody is there to close the pool, if everybody who stood there is. -/
theorem behind_happen (h : c.Sound) (hclosed : c.pool.closed = true)
    (hbehind : ∀ i, [k, i].Sublist (c.pool.line m) → c.Closer i) (x : Event) :
    ∀ i, [k, i].Sublist ((c.happen x).state.pool.line m) → (c.happen x).state.Closer i := by
  intro i hi
  obtain ⟨who, hredrawn, hjoins⟩ := (happen_shrinks h hclosed x).lines m
  rcases hredrawn.before_or hi with hbefore | ⟨rfl, hjoined⟩
  · have hin : i ∈ c.pool.line m :=
      hbefore.subset (List.mem_cons_of_mem _ (List.mem_singleton.2 rfl))
    exact (hbehind i hbefore).happen h (lt_of_mem_line h hin) x
  · exact hjoins hjoined

/-- Whoever has the only place in line has nobody behind it. -/
theorem not_before_of_not_mem {l : List Nat} {i : Nat} (h : k ∉ l) : ¬ [k, i].Sublist l :=
  fun hb => h (hb.subset (List.mem_cons_self ..))

/-- The slot that the errand has just left is cleared. -/
theorem cleared_of_empties {next : Nat} {stage : Errand.Stage} {pool : Pool}
    (lined : stage = .awaitsSlot next ∧ pool = c.pool ∨
      stage = .ready ∧ next < c.pool.size ∧ pool = c.pool.lineUp next k)
    (first : pool.holds next k = true) (out : stage = .ready → k ∉ c.pool.line next)
    (behind : ∀ i, [k, i].Sublist (c.pool.line next) → c.Closer i)
    (left : d.pool = (pool.disconnect next).leave next k)
    (lasts : ∀ i ∈ c.pool.line next, c.Closer i → d.Closer i) : d.Cleared next := by
  have hunlinked : d.pool.connected next = false := by
    rw [left, Pool.connected_leave, Pool.connected_disconnect, bne_self_eq_false, Bool.and_false]
  obtain ⟨rest, hrest⟩ : ∃ rest, pool.line next = k :: rest :=
    List.head?_eq_some_iff.1 (Pool.holds_iff.1 first)
  have hline : d.pool.line next = rest := by
    rw [left, Pool.line_leave, if_pos rfl, Pool.line_disconnect, hrest, List.erase_cons_head]
  refine ⟨hunlinked, fun i hi => ?_⟩
  rw [hline] at hi
  rcases lined with ⟨_, rfl⟩ | ⟨hfree, hlisted, rfl⟩
  · have hbehind : [k, i].Sublist (c.pool.line next) :=
      hrest ▸ (List.singleton_sublist.2 hi).cons_cons k
    exact lasts i (hrest ▸ List.mem_cons_of_mem k hi) (behind i hbehind)
  · -- it has just lined up and is first, so nobody else stands there
    rw [Pool.line_lineUp hlisted, if_pos rfl] at hrest
    cases hl : c.pool.line next with
    | nil      =>
        rw [hl] at hrest
        rw [← (List.cons.inj hrest).2] at hi
        exact nomatch hi
    | cons j l =>
        rw [hl, List.cons_append] at hrest
        exact absurd (hl ▸ (List.cons.inj hrest).1 ▸ List.mem_cons_self ..) (out hfree)

/-- The errand that closes the pool is told something. -/
theorem closing_told (h : c.Sound) (hclosed : c.pool.closed = true) {next : Nat}
    {stage : Errand.Stage} (found : c.find? k = some ⟨k, .close next, stage⟩)
    (cleared : ∀ m < next, c.Cleared m)
    (behind : ∀ i, [k, i].Sublist (c.pool.line next) → c.Closer i) (s : Signal) :
    (c.happen (.tells k s)).state.Closing k ∧
      ∀ o, (k, o) ∈ (c.happen (.tells k s)).results →
        (c.happen (.tells k s)).state.find? k = none := by
  have he := List.mem_of_find?_eq_some found
  obtain ⟨next', hcloses⟩ := (h.behaves _ he).closes rfl
  obtain rfl := Errand.Aim.close.inj hcloses.aim
  have hshuts := step_shuts found hcloses s
  have hsound := sound_happen h (.tells k s)
  have hcleared : ∀ m < next, (c.happen (.tells k s)).state.Cleared m := fun m hm =>
    (cleared m hm).happen h hclosed _
  have hbehind := behind_happen h hclosed behind (.tells k s)
  have hall : c.pool.size ≤ next → ∀ m, (c.happen (.tells k s)).state.Cleared m := by
    intro hpast m
    by_cases hm : m < next
    · exact hcleared m hm
    · exact (cleared_of_size_le (by omega)).happen h hclosed _
  have hout : stage = .ready → ∀ m, k ∉ c.pool.line m := by
    rintro rfl m hin
    exact nomatch ((h.queued.stands he).itself m).1 hin
  have hlasts : ∀ i ∈ c.pool.line next, c.Closer i → (c.happen (.tells k s)).state.Closer i :=
    fun i hi hcloser => hcloser.happen h (lt_of_mem_line h hi) _
  have hhappen : c.happen (.tells k s) = c.step k s := rfl
  rw [hhappen] at hsound hcleared hbehind hall hlasts ⊢
  generalize c.step k s = p at *
  cases hshuts with
  | rests _                     =>
      exact ⟨.sweeps found cleared behind, fun _ hr => nomatch hr⟩
  | ends _ past                 =>
      exact ⟨.done (find?_abandon c k) (hall past), fun _ _ => find?_abandon c k⟩
  | queues _ _ _                =>
      exact ⟨.sweeps (find?_put found) hcleared hbehind, fun _ hr => nomatch hr⟩
  | @empties pool lined first   =>
      have hnext := cleared_of_empties lined first (fun hstage => hout hstage next) behind rfl
        hlasts
      refine ⟨.sweeps (find?_put found) (fun m hm => ?_) fun i hi => ?_, fun _ hr => nomatch hr⟩
      · rcases Nat.lt_succ_iff_lt_or_eq.1 hm with hm | rfl
        · exact hcleared m hm
        · exact hnext
      · have hfree := ((hsound.queued.stands (List.mem_of_find?_eq_some (find?_put found))).itself
          (next + 1)).not.2 (nomatch ·)
        exact absurd hi (not_before_of_not_mem hfree)

theorem happen_closed (ho : c.InOrder) (hclosed : c.pool.closed = true) (x : Event) :
    (c.happen x).state.pool.closed = true := by
  cases x with
  | records entry ws =>
      show (c.beginRecords entry ws).2.pool.closed = true
      rw [beginRecords_eq]
      exact hclosed
  | tells id s       => exact (closed_step ho id s).trans hclosed
  | closes           => rfl
  | _                => exact hclosed

theorem run_closed (h : c.Sound) (hclosed : c.pool.closed = true) (xs : List Event) :
    (c.run xs).state.pool.closed = true := by
  induction xs generalizing c with
  | nil          => exact hclosed
  | cons x xs ih => exact ih (sound_happen h x) (happen_closed h.order hclosed x)

/-- **Every event keeps the invariant**; and when the errand has an outcome, it has ended. -/
theorem closing_happen (h : c.Sound) (hclosed : c.pool.closed = true) (hk : k < c.fresh)
    (hc : c.Closing k) (hx : c.Admits x) :
    (c.happen x).state.Closing k ∧
      ∀ o, (k, o) ∈ (c.happen x).results → (c.happen x).state.find? k = none := by
  cases hc with
  | done gone cleared                    =>
      have hgone := gone_happen h hk gone x
      exact ⟨.done hgone fun m => (cleared m).happen h hclosed x, fun _ _ => hgone⟩
  | @sweeps next stage found cleared behind =>
      by_cases habout : x.errand? = some k
      · cases x with
        | tells id s  =>
            obtain rfl := Option.some.inj habout
            exact closing_told h hclosed found cleared behind s
        | callsOff id =>
            obtain rfl := Option.some.inj habout
            have he := List.mem_of_find?_eq_some found
            obtain ⟨request, hpurpose⟩ := (hx id rfl).2
            exact nomatch hpurpose _ he rfl
        | _           => exact nomatch habout
      · have hspares := happen_spares h habout hk
        have hfound := (hspares.find?_eq (happen_queued h.order h.queued x)).trans found
        exact ⟨.sweeps hfound (fun m hm => (cleared m hm).happen h hclosed x)
          (behind_happen h hclosed behind x), fun o ho => absurd rfl (hspares.results _ ho)⟩

/-- Somebody sets out to close the pool. -/
theorem closing_begins (h : c.Sound) : (c.happen .closes).state.Closing c.fresh := by
  have hsound := sound_happen h .closes
  have hmem : (⟨c.fresh, .close 0, .ready⟩ : Errand) ∈ (c.happen .closes).state.errands :=
    List.mem_concat_self
  -- it has stood nowhere yet, so nobody is behind it
  have hout : c.fresh ∉ c.pool.line 0 := fun hin => Nat.lt_irrefl _ (lt_of_mem_line h hin)
  exact .sweeps (find?_of_mem hsound.queued.distinct hmem)
    (fun m hm => absurd hm (Nat.not_lt_zero m)) fun i hi => absurd hi (not_before_of_not_mem hout)

/-- **Every run keeps the invariant.** -/
theorem closing_run (h : c.Sound) (hclosed : c.pool.closed = true) (hk : k < c.fresh)
    (hc : c.Closing k) {xs : List Event} (hxs : ∀ x ∈ xs, c.Admits x) :
    (c.run xs).state.Closing k ∧
      ∀ o, (k, o) ∈ (c.run xs).results → (c.run xs).state.find? k = none := by
  induction xs generalizing c with
  | nil          => exact ⟨hc, fun _ hr => nomatch hr⟩
  | cons x xs ih =>
      obtain ⟨hnext, hends⟩ := closing_happen h hclosed hk hc (hxs x (List.mem_cons_self ..))
      have hsound := sound_happen h x
      have hfresh := Nat.lt_of_lt_of_le hk (happen_lasts h.order x).fresh
      obtain ⟨hlast, hlater⟩ := ih hsound (happen_closed h.order hclosed x) hfresh hnext
        fun y hy => (hxs y (List.mem_cons_of_mem x hy)).happen h.order x
      refine ⟨hlast, fun o ho => ?_⟩
      rcases List.mem_append.1 ho with ho | ho
      · exact gone_run hsound hfresh (hends o ho) xs
      · exact hlater o ho

-- ── Once the closing is over ─────────────────────────────────────────────────────────────────────

/-- A pool that was closed, and all of whose slots were left behind. -/
structure Emptied (c : Courier) : Prop where
  closed  : c.pool.closed = true
  cleared : ∀ m, c.Cleared m

/-- When the errand that closes the pool has ended, all slots were left behind. -/
theorem Closing.emptied (h : c.Closing k) (hclosed : c.pool.closed = true)
    (hgone : c.find? k = none) : c.Emptied := by
  cases h with
  | sweeps found _ _ => exact nomatch found.symm.trans hgone
  | done _ cleared   => exact ⟨hclosed, cleared⟩

theorem Emptied.happen (hc : c.Emptied) (h : c.Sound) (x : Event) : (c.happen x).state.Emptied :=
  ⟨happen_closed h.order hc.closed x, fun m => (hc.cleared m).happen h hc.closed x⟩

/-- **Nothing is connected or exchanged any more.** -/
theorem quiet_happen (hc : c.Emptied) (h : c.Sound) (x : Event) :
    ∀ d ∈ (c.happen x).demands, d.reaches = false := by
  intro d hd
  cases x with
  | tells id s =>
      cases hf : c.find? id with
      | none   =>
          have hidle : c.happen (.tells id s) = { state := c } := step_of_gone hf s
          rw [hidle] at hd
          exact nomatch hd
      | some e =>
          have he := List.mem_of_find?_eq_some hf
          rw [Bool.eq_false_iff]
          intro hreaches
          rcases (h.behaves e he).kinds with hof | ⟨next, hcloses⟩
          · -- it would be at a slot, where nobody is but to close the pool
            obtain ⟨m, hat⟩ :=
              (goes_retreats (step_goes hf hof s) h.queued he hof hc.closed).demands d hd hreaches
            have hin := (h.queued.lines m e.id).2 ⟨e, he, rfl, hat⟩
            exact not_ofCall_of_close ((hc.cleared m).closers e.id hin e he rfl) hof
          · have hnone : (c.happen (.tells id s)).demands = [] :=
              shuts_demands (step_shuts hf hcloses s)
            rw [hnone] at hd
            exact nomatch hd
  | _          => exact nomatch hd

/-- It stays so through every run. -/
theorem Emptied.run (hc : c.Emptied) (h : c.Sound) (xs : List Event) :
    (c.run xs).state.Emptied ∧ ∀ d ∈ (c.run xs).demands, d.reaches = false := by
  induction xs generalizing c with
  | nil          => exact ⟨hc, fun _ hd => nomatch hd⟩
  | cons x xs ih =>
      obtain ⟨hlast, hquiet⟩ := ih (hc.happen h x) (sound_happen h x)
      exact ⟨hlast, fun d hd => (List.mem_append.1 hd).elim (quiet_happen hc h x d) (hquiet d)⟩

-- ── Visits ───────────────────────────────────────────────────────────────────────────────────────

/-- What is told to an errand of a call that is at a slot: if it waited for this, it gets further
    there, or its visit is over and it is at no slot any more. -/
theorem goes_visit (h : c.Goes e s p) (he : e ∈ c.errands) (hof : e.OfCall) (hat : e.At m) :
    (∃ f ∈ p.state.errands, f.id = e.id ∧ f.aim = e.aim ∧ f.At m ∧
        f.stage.effort + (c.heeds e s).toNat ≤ e.stage.effort) ∨
      e.EndsVisit s ∧ ∀ f ∈ p.state.errands, f.id = e.id → f.stage.member? = none := by
  have hfree : c.setsOff e = true → False := fun free =>
    nomatch (member?_of_setsOff free).symm.trans hat
  cases h with
  | rests deaf                          => exact Or.inl ⟨e, he, rfl, rfl, hat, by simp [deaf]⟩
  | givesUp free _                      => exact (hfree free).elim
  | refused free _ _ _ _                => exact (hfree free).elim
  | arrives free _ _ _ _ _              => exact (hfree free).elim
  | @enters k stage ds waits _ further _ =>
      obtain rfl : k = m := by
        rw [Errand.At, waits] at hat
        exact Option.some.inj hat
      refine Or.inl ⟨{ e with stage }, mem_put he rfl, rfl, rfl, ?_, ?_⟩
      · rcases further with rfl | rfl <;> rfl
      · have hone := (c.heeds e .proceed).toNat_le
        have hfurther := Errand.Stage.effort_lt_awaitsSlot further
        rw [waits]
        exact Nat.le_trans (Nat.add_le_add_left hone _) hfurther
  | @connects k ds waits _              =>
      obtain rfl : k = m := by
        rw [Errand.At, waits] at hat
        exact Option.some.inj hat
      refine Or.inl ⟨{ e with stage := .exchanging k }, mem_put he rfl, rfl, rfl, rfl, ?_⟩
      rw [waits]
      exact Nat.add_le_add_left (c.heeds e (.connected (.ok ()))).toNat_le 1
  | @unconnected k error waits          =>
      exact Or.inr ⟨Or.inl ⟨k, error, waits, rfl⟩, (settle_withdraws hof _).place⟩
  | @exchanged k outcome pool waits _   =>
      exact Or.inr ⟨Or.inr ⟨k, outcome, waits, rfl⟩, (settle_withdraws hof _).place⟩
  | wakes waits                         =>
      rw [Errand.At, waits] at hat
      exact nomatch hat

/-- An errand that closes the pool leaves a slot when it is told to go on there. -/
theorem shuts_visit {next : Nat} (h : c.Shuts e next s p) (hat : e.At m)
    (heeded : c.heeds e s = true) :
    ∀ f ∈ p.state.errands, f.id = e.id → f.stage.member? = none := by
  cases h with
  | rests deaf        => exact nomatch deaf.symm.trans heeded
  | ends free _       => rw [Errand.At, free] at hat; exact nomatch hat
  | queues free _ _   => rw [Errand.At, free] at hat; exact nomatch hat
  | empties _ _       =>
      intro f hf hid
      rw [eq_of_mem_put hf hid]
      rfl

/-- The visit of an errand to a slot goes on: it is still there with the same request to make, and
    nobody has got in before it. -/
def Stays (c d : Courier) (e : Errand) (m : Nat) : Prop :=
  ∃ f ∈ d.errands, f.id = e.id ∧ f.aim = e.aim ∧ f.At m ∧
    ∀ j, [j, e.id].Sublist (d.pool.line m) → [j, e.id].Sublist (c.pool.line m)

theorem Stays.trans {c₁ c₂ c₃ : Courier} (hid : f.id = e.id) (haim : f.aim = e.aim)
    (before : ∀ j, [j, e.id].Sublist (c₂.pool.line m) → [j, e.id].Sublist (c₁.pool.line m))
    (h : c₂.Stays c₃ f m) : c₁.Stays c₃ e m := by
  obtain ⟨g, hg, hgid, hgaim, hat, hbefore⟩ := h
  exact ⟨g, hg, hgid.trans hid, hgaim.trans haim, hat,
    fun j hj => before j (hid ▸ hbefore j (hid ▸ hj))⟩

/-- **How the visit of an errand of a call goes on**, whatever happens: it stays where it is, or it
    is told the end of its visit, or called off. -/
theorem visit_happen (h : c.Sound) (he : e ∈ c.errands) (hof : e.OfCall) (hat : e.At m)
    (x : Event) :
    c.Stays (c.happen x).state e m ∨ (∃ s, x = .tells e.id s ∧ e.EndsVisit s) ∨
      x = .callsOff e.id := by
  have hbefore : ∀ j, [j, e.id].Sublist ((c.happen x).state.pool.line m) →
      [j, e.id].Sublist (c.pool.line m) := by
    intro j hj
    obtain ⟨who, hredrawn, _⟩ := happen_redrawn h x m
    exact hredrawn.before_of_mem ((sound_happen h x).queued.nodup m)
      ((h.queued.lines m e.id).2 ⟨e, he, rfl, hat⟩) hj
  by_cases habout : x.errand? = some e.id
  · cases x with
    | tells id s  =>
        obtain rfl := Option.some.inj habout
        have hgoes := step_goes (find?_of_mem h.queued.distinct he) hof s
        rcases goes_visit hgoes he hof hat with ⟨f, hf, hid, haim, hat', _⟩ | ⟨hends, _⟩
        · exact Or.inl ⟨f, hf, hid, haim, hat', hbefore⟩
        · exact Or.inr (Or.inl ⟨s, rfl, hends⟩)
    | callsOff id => exact Or.inr (Or.inr (congrArg Event.callsOff (Option.some.inj habout)))
    | _           => exact nomatch habout
  · have hspares := happen_spares h habout (h.order.numbered e he)
    exact Or.inl ⟨e, (hspares.errand e rfl).2 he, rfl, rfl, hat, hbefore⟩

/-- Events that are about no errand from before leave its visit as it is. -/
theorem stays_of_calm (h : c.Sound) (he : e ∈ c.errands) (hof : e.OfCall) (hat : e.At m)
    {xs : List Event} (calm : ∀ y ∈ xs, y.errand? = none) : c.Stays (c.run xs).state e m := by
  induction xs generalizing c e with
  | nil          => exact ⟨e, he, rfl, rfl, hat, fun _ hj => hj⟩
  | cons x xs ih =>
      have hx := calm x (List.mem_cons_self ..)
      rcases visit_happen h he hof hat x with ⟨f, hf, hid, haim, hat', hbefore⟩ | ⟨s, rfl, _⟩ | rfl
      · have hof' := Errand.ofCall_of_purpose hof (congrArg Errand.Aim.purpose haim)
        exact .trans hid haim hbefore (ih (sound_happen h x) hf hof' hat' fun y hy =>
          calm y (List.mem_cons_of_mem x hy))
      · exact nomatch hx
      · exact nomatch hx

/-- **Whoever is at a slot and is told what it waits for** gets further, or is gone from there. -/
theorem step_hastens (h : c.Sound) (he : e ∈ c.errands) (hat : e.At m)
    (heeded : c.heeds e s = true) :
    ∀ f ∈ (c.step e.id s).state.errands, f.id = e.id →
      f.stage.member? = none ∨ f.stage.effort < e.stage.effort := by
  intro f hf hid
  have hfind := find?_of_mem h.queued.distinct he
  rcases (h.behaves e he).kinds with hof | ⟨next, hcloses⟩
  · rcases goes_visit (step_goes hfind hof s) he hof hat with
      ⟨g, hg, hgid, _, _, hfewer⟩ | ⟨_, hout⟩
    · have hsame := eq_of_id (step_queued h.queued e.id s).distinct hf hg (hid.trans hgid.symm)
      rw [heeded] at hfewer
      exact Or.inr (hsame ▸ hfewer)
    · exact Or.inl (hout f hf hid)
  · exact Or.inl (shuts_visit (step_shuts hfind hcloses s) hat heeded f hf hid)

/-- **Whoever is first in line** is at that slot, and there is something that it can be told. -/
theorem first_heeds (h : c.Queued) {i : Nat} (hfirst : (c.pool.line m).head? = some i) :
    ∃ e ∈ c.errands, e.id = i ∧ e.At m ∧ ∃ s, c.heeds e s = true := by
  obtain ⟨e, he, rfl, hat⟩ := (h.lines m i).1 (List.mem_of_mem_head? hfirst)
  refine ⟨e, he, rfl, hat, ?_⟩
  have hplace : e.stage.member? = some m := hat
  cases hstage : e.stage with
  | ready        => rw [hstage] at hplace; exact nomatch hplace
  | awaitsTurn   => rw [hstage] at hplace; exact nomatch hplace
  | backingOff   => rw [hstage] at hplace; exact nomatch hplace
  | awaitsSlot k =>
      rw [hstage] at hplace
      obtain rfl := Option.some.inj hplace
      exact ⟨.proceed, by simpa [heeds, mayProceed, hstage] using Pool.holds_iff.2 hfirst⟩
  | connecting k => exact ⟨.connected (.ok ()), by simp [heeds, hstage]⟩
  | exchanging k => exact ⟨.answered (.ok .unfreeze), by simp [heeds, hstage]⟩

-- ── As if the pool were open ─────────────────────────────────────────────────────────────────────

/-- The same, with a pool that is closed or open. -/
def withClosed (c : Courier) (closed : Bool) : Courier :=
  { c with pool := { c.pool with closed } }

theorem settle_withClosed (c : Courier) (b : Bool) (e : Errand)
    (outcome : Except TransportError Reply) :
    (c.withClosed b).settle e outcome =
      { c.settle e outcome with state := (c.settle e outcome).state.withClosed b } := by
  have hverdict : Locator.verdict (c.withClosed b).pool c.guess outcome =
    Locator.verdict c.pool c.guess outcome := rfl
  have hguess : (c.withClosed b).guess = c.guess := rfl
  unfold settle
  cases e.aim with
  | direct _ _        => rfl
  | lead request tries =>
      dsimp only
      rw [hguess, hverdict]
      cases Locator.verdict c.pool c.guess outcome <;> rfl
  | record _ _ _      =>
      cases outcome with
      | error _ => rfl
      | ok reply =>
          dsimp only
          split <;> rfl
  | survey _ _        => rfl
  | close _           => rfl

theorem moveOn_withClosed (c : Courier) (b : Bool) (e : Errand) (m : Nat) (reached : Bool) :
    (c.withClosed b).moveOn e m reached =
      { c.moveOn e m reached with state := (c.moveOn e m reached).state.withClosed b } := by
  unfold moveOn
  cases e.aim <;> rfl

theorem use_withClosed (c : Courier) (b : Bool) (e : Errand) (m : Nat) :
    (c.withClosed b).use e m = { c.use e m with state := (c.use e m).state.withClosed b } := by
  unfold use
  cases e.aim.request? with
  | some request => rfl
  | none         => exact moveOn_withClosed c b e m true

theorem enter_withClosed (c : Courier) (b : Bool) (e : Errand) (m : Nat) :
    (c.withClosed b).enter e m =
      { c.enter e m with state := (c.enter e m).state.withClosed b } := by
  unfold enter
  have hlinked : (c.withClosed b).pool.connected m = c.pool.connected m := rfl
  rw [hlinked]
  split
  · exact moveOn_withClosed { c with pool := c.pool.disconnect m } b e m false
  · split
    · exact use_withClosed c b e m
    · rfl

/-- **What is told to an errand that is at a slot has the same effect whether or not the pool is
    closed.** -/
theorem step_withClosed (hf : c.find? k = some e) (hat : e.At m) (s : Signal) (b : Bool) :
    (c.withClosed b).step k s = { c.step k s with state := (c.step k s).state.withClosed b } := by
  have hf' : (c.withClosed b).find? k = some e := hf
  unfold step
  rw [hf, hf']
  cases hstage : e.stage with
  | ready         => rw [Errand.At, hstage] at hat; exact nomatch hat
  | awaitsTurn    => rw [Errand.At, hstage] at hat; exact nomatch hat
  | backingOff    => rw [Errand.At, hstage] at hat; exact nomatch hat
  | awaitsSlot j  =>
      have hfirst : (c.withClosed b).pool.holds j e.id = c.pool.holds j e.id := rfl
      cases s with
      | proceed =>
          simp only [proceed, hstage, hfirst]
          split
          · exact enter_withClosed c b e j
          · rfl
      | _       => simp only [connected, answered, rested, hstage]
  | connecting j  =>
      cases s with
      | connected outcome =>
          simp only [connected, hstage]
          cases outcome with
          | ok _        => exact use_withClosed { c with pool := c.pool.connect j } b e j
          | error error =>
              dsimp only
              cases e.aim.request? with
              | some _ => exact settle_withClosed { c with pool := c.pool.leave j e.id } b e _
              | none   => exact moveOn_withClosed c b e j false
      | _                 => simp only [proceed, answered, rested, hstage]
  | exchanging j  =>
      cases s with
      | answered outcome =>
          simp only [answered, hstage]
          split
          · exact settle_withClosed { c with pool := c.pool.leave j e.id } b e outcome
          · exact settle_withClosed { c with pool := (c.pool.disconnect j).leave j e.id } b e
              outcome
      | _                => simp only [proceed, connected, rested, hstage]

end Courier

end WitnessReplication

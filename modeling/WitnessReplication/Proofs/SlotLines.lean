import Mathlib.Data.List.Nodup
import WitnessReplication.Proofs.ErrandSteps

/-!
# Slot lines — who stands in line, and for what

    An errand that is at the slot of a member stands in the line of that slot, and nobody else does;
    and every errand that looks for the leader stands in the one line for its turn, from when it is
    sent out to when it ends.  So whoever is first in a line is an errand that can be told something,
    and nobody waits behind one that is gone.

    While a step is under way an errand may have left its slot, or lined up at one, before its stage
    says so.  So the law is stated with the place at which one errand really is.

* **`Pool.line`** — the line of a slot, and what the operations of a pool do to it.
* **`Courier.Queued`** — the lines and the errands agree; **`Courier.Stands`**, all but for one errand.
* **`step_queued`** — every step of a courier keeps it so; **`begin_queued`**, so does setting out.
* **`Queued.unstuck`** — as long as there are errands, one of them can be told something.
* **`Courier.Lined`** — the same, with a pool that is open.
-/

namespace WitnessReplication

namespace Pool

/-- The numbers of those who hold or want a slot, in the order of arrival. -/
def line (p : Pool) (m : Nat) : List Nat :=
  match p.slots[m]? with
  | some s => s.lock.line
  | none   => []

theorem holds_iff {p : Pool} {m who : Nat} : p.holds m who = true ↔ (p.line m).head? = some who := by
  rw [holds, line]
  cases p.slots[m]? with
  | none   => simp
  | some s => simp [FairLock.holds]

theorem line_modify (p : Pool) (m k : Nat) (f : Slot → Slot) :
    (p.modify m f).line k = if m = k then (p.slots[k]?.map fun s => (f s).lock.line).getD []
      else p.line k := by
  rw [line, modify, List.getElem?_modify]
  cases hs : p.slots[k]? with
  | none   => by_cases h : m = k <;> simp [h, line, hs]
  | some s => by_cases h : m = k <;> simp [h, line, hs]

theorem line_lineUp {p : Pool} {m : Nat} (hm : m < p.size) (k who : Nat) :
    (p.lineUp m who).line k = if m = k then p.line k ++ [who] else p.line k := by
  rw [lineUp, line_modify]
  split
  · rename_i h
    obtain ⟨s, hs⟩ : ∃ s, p.slots[k]? = some s := ⟨_, List.getElem?_eq_getElem (h ▸ hm)⟩
    rw [line, hs]
    rfl
  · rfl

theorem line_leave (p : Pool) (m k who : Nat) :
    (p.leave m who).line k = if m = k then (p.line k).erase who else p.line k := by
  rw [leave, line_modify]
  split
  · rw [line]
    cases p.slots[k]? <;> rfl
  · rfl

theorem line_leaveAll (p : Pool) (k who : Nat) : (p.leaveAll who).line k = (p.line k).erase who := by
  rw [line, line, leaveAll, List.getElem?_map]
  cases p.slots[k]? <;> rfl

@[simp] theorem line_connect (p : Pool) (m k : Nat) : (p.connect m).line k = p.line k := by
  rw [connect, line_modify]
  split
  · rw [line]
    cases p.slots[k]? <;> rfl
  · rfl

@[simp] theorem line_disconnect (p : Pool) (m k : Nat) : (p.disconnect m).line k = p.line k := by
  rw [disconnect, line_modify]
  split
  · rw [line]
    cases p.slots[k]? <;> rfl
  · rfl

end Pool

/-- A stage fits what an errand is for: only one that has a request waits for a reply, and only one
    that looks for the leader waits for its turn. -/
structure Errand.Fits (e : Errand) : Prop where
  asking  : ∀ m, e.stage = .exchanging m → e.aim.request? ≠ none
  turning : e.stage = .awaitsTurn → e.Leads

/-- An errand is at the slot of a member. -/
def Errand.At (e : Errand) (m : Nat) : Prop := e.stage.member? = some m

/-- At any stage but two, whatever an errand is for fits. -/
theorem Errand.fits {e : Errand} (hasking : ∀ m, e.stage ≠ .exchanging m)
    (hturning : e.stage ≠ .awaitsTurn) : e.Fits :=
  ⟨fun m h => absurd h (hasking m), fun h => absurd h hturning⟩

namespace Courier

/-- The lines and the errands agree. -/
structure Queued (c : Courier) : Prop where
  distinct : (c.errands.map (·.id)).Nodup
  nodup    : ∀ m, (c.pool.line m).Nodup
  lines    : ∀ m i, i ∈ c.pool.line m ↔ ∃ e ∈ c.errands, e.id = i ∧ e.At m
  once     : c.turn.line.Nodup
  turns    : ∀ i, i ∈ c.turn.line ↔ ∃ e ∈ c.errands, e.id = i ∧ e.Leads
  fits     : ∀ e ∈ c.errands, e.Fits

/-- They agree, but for the errand of one number, which may be at any slots. -/
structure Apart (c : Courier) (id : Nat) : Prop where
  distinct : (c.errands.map (·.id)).Nodup
  nodup    : ∀ m, (c.pool.line m).Nodup
  others   : ∀ m i, i ≠ id → (i ∈ c.pool.line m ↔ ∃ f ∈ c.errands, f.id = i ∧ f.At m)
  once     : c.turn.line.Nodup
  turns    : ∀ i, i ∈ c.turn.line ↔ ∃ f ∈ c.errands, f.id = i ∧ f.Leads
  fits     : ∀ f ∈ c.errands, f.id ≠ id → f.Fits

/-- They agree, but for an errand that is on its way: it really is at the slot of `place?`, or at
    none.  Whether it is one for the leader is known. -/
structure Stands (c : Courier) (e : Errand) (place? : Option Nat) : Prop extends Apart c e.id where
  itself : ∀ m, e.id ∈ c.pool.line m ↔ place? = some m
  known  : ∃ f ∈ c.errands, f.id = e.id ∧ (f.Leads ↔ e.Leads)

variable {c : Courier} {e : Errand} {place? : Option Nat}

/-- An errand is told from all others by its number. -/
theorem eq_of_id (h : (c.errands.map (·.id)).Nodup) {e f : Errand} (he : e ∈ c.errands)
    (hf : f ∈ c.errands) (hid : e.id = f.id) : e = f :=
  List.inj_on_of_nodup_map h he hf hid

/-- An errand that is found is one of the errands. -/
theorem find?_of_mem (h : (c.errands.map (·.id)).Nodup) (he : e ∈ c.errands) :
    c.find? e.id = some e := by
  cases hf : c.find? e.id with
  | none   => simpa using List.find?_eq_none.1 hf e he
  | some f =>
      have hid : f.id = e.id := by simpa using List.find?_some hf
      rw [eq_of_id h (List.mem_of_find?_eq_some hf) he hid]

theorem Queued.apart (h : c.Queued) (id : Nat) : c.Apart id :=
  ⟨h.distinct, h.nodup, fun m i _ => h.lines m i, h.once, h.turns,
    fun f hf _ => h.fits f hf⟩

/-- Where the lines and the errands agree, an errand is where its stage says. -/
theorem Queued.stands (h : c.Queued) (he : e ∈ c.errands) : c.Stands e e.stage.member? where
  toApart := h.apart e.id
  itself  := by
    intro m
    rw [h.lines]
    constructor
    · rintro ⟨f, hf, hid, hat⟩
      rwa [eq_of_id h.distinct hf he hid] at hat
    · exact fun hm => ⟨e, he, rfl, hm⟩
  known   := ⟨e, he, rfl, Iff.rfl⟩

/-- Only the lines matter. -/
theorem Apart.of_lines {id : Nat} (h : c.Apart id) {d : Courier}
    (line : ∀ m, d.pool.line m = c.pool.line m) (errands : d.errands = c.errands)
    (turn : d.turn = c.turn) : d.Apart id where
  distinct := errands ▸ h.distinct
  nodup    := fun m => line m ▸ h.nodup m
  others   := fun m i hi => by rw [line, errands]; exact h.others m i hi
  once     := turn ▸ h.once
  turns    := fun i => by rw [turn, errands]; exact h.turns i
  fits     := errands ▸ h.fits

/-- An errand is taken away, wherever it is. -/
theorem Apart.abandon {id : Nat} (h : c.Apart id) : (c.abandon id).Queued := by
  have hmem : ∀ f, f ∈ (c.abandon id).errands ↔ f ∈ c.errands ∧ f.id ≠ id := by
    intro f
    show f ∈ c.errands.filter _ ↔ _
    simp
  have hline : ∀ m, (c.abandon id).pool.line m = (c.pool.line m).erase id :=
    fun m => c.pool.line_leaveAll m id
  refine ⟨h.distinct.sublist (List.filter_sublist.map _), fun m => ?nodup,
    fun m i => ?lines, h.once.erase id, fun i => ?turns, fun f hf => ?fits⟩
  case nodup =>
    rw [hline]
    exact (h.nodup m).erase id
  case lines =>
    rw [hline, (h.nodup m).mem_erase_iff]
    constructor
    · rintro ⟨hne, hi⟩
      obtain ⟨f, hf, rfl, hat⟩ := (h.others m i hne).1 hi
      exact ⟨f, (hmem f).2 ⟨hf, hne⟩, rfl, hat⟩
    · rintro ⟨f, hf, rfl, hat⟩
      obtain ⟨hf, hne⟩ := (hmem f).1 hf
      exact ⟨hne, (h.others m f.id hne).2 ⟨f, hf, rfl, hat⟩⟩
  case turns =>
    show i ∈ c.turn.line.erase id ↔ _
    rw [h.once.mem_erase_iff, h.turns]
    constructor
    · rintro ⟨hne, f, hf, rfl, hleads⟩
      exact ⟨f, (hmem f).2 ⟨hf, hne⟩, rfl, hleads⟩
    · rintro ⟨f, hf, rfl, hleads⟩
      obtain ⟨hf, hne⟩ := (hmem f).1 hf
      exact ⟨hne, f, hf, rfl, hleads⟩
  case fits  =>
    obtain ⟨hf, hne⟩ := (hmem f).1 hf
    exact h.fits f hf hne

namespace Stands

theorem of_lines (h : c.Stands e place?) {d : Courier}
    (line : ∀ m, d.pool.line m = c.pool.line m) (errands : d.errands = c.errands)
    (turn : d.turn = c.turn) : d.Stands e place? where
  toApart := h.toApart.of_lines line errands turn
  itself  := fun m => by rw [line]; exact h.itself m
  known   := errands ▸ h.known

/-- What an errand has come to may change, as long as it is for the leader as before. -/
theorem of_errand (h : c.Stands e place?) {f : Errand} (hid : f.id = e.id)
    (hleads : f.Leads ↔ e.Leads) : c.Stands f place? where
  toApart := hid ▸ h.toApart
  itself  := fun m => by rw [hid]; exact h.itself m
  known   := by rw [hid, hleads]; exact h.known

/-- An errand lines up at a slot. -/
theorem lineUp (h : c.Stands e none) {m : Nat} (hm : m < c.pool.size) :
    ({ c with pool := c.pool.lineUp m e.id } : Courier).Stands e (some m) := by
  have hline : ∀ k, (c.pool.lineUp m e.id).line k = _ := fun k => Pool.line_lineUp hm k e.id
  have hnot : ∀ k, e.id ∉ c.pool.line k := fun k hk => nomatch (h.itself k).1 hk
  refine ⟨⟨h.distinct, fun k => ?nodup, fun k i hi => ?others, h.once, h.turns,
    h.fits⟩, fun k => ?itself, h.known⟩
  case nodup  =>
    show ((c.pool.lineUp m e.id).line k).Nodup
    rw [hline]
    split
    · refine List.nodup_append.2 ⟨h.nodup k, by simp, fun i hi j hj hij => ?_⟩
      rw [hij, List.mem_singleton.1 hj] at hi
      exact hnot k hi
    · exact h.nodup k
  case others =>
    show i ∈ (c.pool.lineUp m e.id).line k ↔ _
    rw [hline]
    split
    · rw [List.mem_append, List.mem_singleton, or_iff_left hi]
      exact h.others k i hi
    · exact h.others k i hi
  case itself =>
    show e.id ∈ (c.pool.lineUp m e.id).line k ↔ _
    rw [hline]
    split
    · rename_i hmk
      simp [hmk]
    · rename_i hmk
      simp [hmk, hnot k]

/-- An errand leaves its slot. -/
theorem leave {m : Nat} (h : c.Stands e (some m)) :
    ({ c with pool := c.pool.leave m e.id } : Courier).Stands e none := by
  have hline : ∀ k, (c.pool.leave m e.id).line k = _ := fun k => c.pool.line_leave m k e.id
  refine ⟨⟨h.distinct, fun k => ?nodup, fun k i hi => ?others, h.once, h.turns,
    h.fits⟩, fun k => ?itself, h.known⟩
  case nodup  =>
    show ((c.pool.leave m e.id).line k).Nodup
    rw [hline]
    split
    · exact (h.nodup k).erase e.id
    · exact h.nodup k
  case others =>
    show i ∈ (c.pool.leave m e.id).line k ↔ _
    rw [hline]
    split
    · rw [List.mem_erase_of_ne hi]
      exact h.others k i hi
    · exact h.others k i hi
  case itself =>
    show e.id ∈ (c.pool.leave m e.id).line k ↔ _
    rw [hline]
    split
    · simp [(h.nodup k).mem_erase_iff]
    · rename_i hmk
      rw [h.itself k]
      simp [hmk]

/-- An errand is put where it really is, and the lines and the errands agree again. -/
theorem put (h : c.Stands e place?) {f : Errand} (hid : f.id = e.id) (hleads : f.Leads ↔ e.Leads)
    (hstage : f.stage.member? = place?) (hfits : f.Fits) : (c.put f).Queued := by
  obtain ⟨e₀, he₀, hid₀, hleads₀⟩ := h.known
  have hmem : ∀ g, g ∈ (c.put f).errands ↔ g = f ∨ g ∈ c.errands ∧ g.id ≠ e.id := by
    intro g
    rw [← hid]
    constructor
    · intro hg
      obtain ⟨g₀, hg₀, rfl⟩ := List.mem_map.1 hg
      by_cases hsame : g₀.id = f.id
      · rw [if_pos hsame]
        exact Or.inl rfl
      · rw [if_neg hsame]
        exact Or.inr ⟨hg₀, hsame⟩
    · rintro (rfl | ⟨hg, hne⟩)
      · exact List.mem_map.2 ⟨e₀, he₀, if_pos (hid₀.trans hid.symm)⟩
      · exact List.mem_map.2 ⟨g, hg, if_neg hne⟩
  refine ⟨?distinct, h.nodup, fun m i => ?lines, h.once, fun i => ?turns,
    fun g hg => ?fits⟩
  case distinct =>
    have hids : (c.put f).errands.map (·.id) = c.errands.map (·.id) := by
      show (c.errands.map _).map _ = _
      rw [List.map_map]
      refine List.map_congr_left fun g _ => ?_
      show (if g.id = f.id then f else g).id = g.id
      split
      · rename_i hsame
        exact hsame.symm
      · rfl
    exact hids ▸ h.distinct
  case lines    =>
    show i ∈ c.pool.line m ↔ _
    by_cases hi : i = e.id
    · subst hi
      rw [h.itself, ← hstage]
      constructor
      · exact fun hat => ⟨f, (hmem f).2 (Or.inl rfl), hid, hat⟩
      · rintro ⟨g, hg, hgid, hat⟩
        obtain rfl := ((hmem g).1 hg).resolve_right fun hg' => hg'.2 hgid
        exact hat
    · rw [h.others m i hi]
      constructor
      · rintro ⟨g, hg, rfl, hat⟩
        exact ⟨g, (hmem g).2 (Or.inr ⟨hg, hi⟩), rfl, hat⟩
      · rintro ⟨g, hg, rfl, hat⟩
        rcases (hmem g).1 hg with rfl | ⟨hg, _⟩
        · exact absurd hid hi
        · exact ⟨g, hg, rfl, hat⟩
  case turns    =>
    show i ∈ c.turn.line ↔ _
    rw [h.turns]
    constructor
    · rintro ⟨g, hg, rfl, hl⟩
      by_cases hsame : g.id = e.id
      · obtain rfl := eq_of_id h.distinct hg he₀ (hsame.trans hid₀.symm)
        exact ⟨f, (hmem f).2 (Or.inl rfl), hid.trans hsame.symm, hleads.2 (hleads₀.1 hl)⟩
      · exact ⟨g, (hmem g).2 (Or.inr ⟨hg, hsame⟩), rfl, hl⟩
    · rintro ⟨g, hg, rfl, hl⟩
      rcases (hmem g).1 hg with rfl | ⟨hg, _⟩
      · exact ⟨e₀, he₀, hid₀.trans hid.symm, hleads₀.2 (hleads.1 hl)⟩
      · exact ⟨g, hg, rfl, hl⟩
  case fits     =>
    rcases (hmem g).1 hg with rfl | ⟨hg, hne⟩
    · exact hfits
    · exact h.fits g hg hne

end Stands

/-! ## The functions of a step, one by one -/

theorem finish_queued (h : c.Stands e place?) (outcome : Errand.Outcome) :
    (c.finish e outcome).state.Queued := h.abandon

theorem wait_queued (h : c.Stands e place?) (stage : Errand.Stage) (hstage : stage.member? = place?)
    (hfits : ({ e with stage } : Errand).Fits) : (c.wait e stage).state.Queued :=
  h.put (f := { e with stage }) rfl Iff.rfl hstage hfits

theorem await_queued (h : c.Stands e place?) (stage : Errand.Stage) (hstage : stage.member? = place?)
    (hfits : ({ e with stage } : Errand).Fits) (demand : Demand Nat) :
    (c.await e stage demand).state.Queued :=
  h.put (f := { e with stage }) rfl Iff.rfl hstage hfits

/-- An errand that has left its slot settles what came of its exchange. -/
theorem settle_queued (h : c.Stands e none) (hrequest : e.aim.request? ≠ none)
    (outcome : Except TransportError Reply) : (c.settle e outcome).state.Queued := by
  obtain ⟨id, aim, stage⟩ := e
  cases aim with
  | direct member request => exact finish_queued h _
  | lead request tries    =>
      have hlead : c.Stands ⟨id, .lead request (tries - 1), stage⟩ none := h.of_errand rfl Iff.rfl
      unfold settle
      dsimp only
      split
      · exact finish_queued hlead _
      · exact finish_queued hlead _
      · rename_i guess _
        exact wait_queued (hlead.of_lines (d := { c with guess }) (fun _ => rfl) rfl rfl)
          .ready rfl (Errand.fits nofun nofun)
      · exact await_queued hlead .backingOff rfl (Errand.fits nofun nofun) _
  | record w entry term   =>
      unfold settle
      dsimp only
      split
      · exact finish_queued h _
      · split
        · exact finish_queued h _
        · exact finish_queued (h.of_lines (d := { c with knownTerm := c.knownTerm.max _ })
            (fun _ => rfl) rfl rfl) _
  | survey next reached   => exact absurd rfl hrequest
  | close next            => exact absurd rfl hrequest

/-- An errand without a request leaves its slot and goes on. -/
theorem moveOn_queued {m : Nat} (h : c.Stands e (some m)) (hrequest : e.aim.request? = none)
    (reached : Bool) : (c.moveOn e m reached).state.Queued := by
  have hleft := h.leave
  obtain ⟨id, aim, stage⟩ := e
  cases aim with
  | survey next seen      =>
      exact (hleft.of_errand (f := ⟨id, .survey (next + 1) _, stage⟩) rfl
        ⟨fun ⟨_, hp⟩ => (nomatch hp), fun ⟨_, hp⟩ => nomatch hp⟩).put rfl Iff.rfl rfl
        (Errand.fits nofun nofun)
  | close next            =>
      exact (hleft.of_errand (f := ⟨id, .close (next + 1), stage⟩) rfl
        ⟨fun ⟨_, hp⟩ => (nomatch hp), fun ⟨_, hp⟩ => nomatch hp⟩).put rfl Iff.rfl rfl
        (Errand.fits nofun nofun)
  | direct member request => exact nomatch hrequest
  | lead request tries    => exact nomatch hrequest
  | record w entry term   => exact nomatch hrequest

theorem use_queued {m : Nat} (h : c.Stands e (some m)) : (c.use e m).state.Queued := by
  unfold use
  split
  · rename_i request hrequest
    have hasks : e.aim.request? ≠ none := by rw [hrequest]; exact nofun
    exact await_queued h (.exchanging m) rfl ⟨fun _ _ => hasks, nofun⟩ _
  · rename_i hrequest
    exact moveOn_queued h hrequest true

theorem enter_queued {m : Nat} (h : c.Stands e (some m)) : (c.enter e m).state.Queued := by
  unfold enter
  split
  · rename_i next haim
    refine moveOn_queued (h.of_lines (d := { c with pool := c.pool.disconnect m })
      (fun k => c.pool.line_disconnect m k) rfl rfl) ?_ false
    rw [haim]
    rfl
  · split
    · exact use_queued h
    · exact await_queued h (.connecting m) rfl (Errand.fits nofun nofun) _

theorem enterOrWait_queued {m : Nat} (h : c.Stands e (some m)) :
    (c.enterOrWait e m).state.Queued := by
  unfold enterOrWait
  split
  · exact enter_queued h
  · exact wait_queued h (.awaitsSlot m) rfl (Errand.fits nofun nofun)

theorem visit_queued (h : c.Stands e none) (hrequest : e.aim.request? ≠ none) (m : Nat) :
    (c.visit e m).state.Queued := by
  rw [visit]
  split
  · exact settle_queued h hrequest _
  · rename_i pool hpool
    obtain ⟨_, hlt, rfl⟩ := Pool.enroll_eq_ok_iff.1 hpool
    exact enterOrWait_queued (h.lineUp hlt)

theorem setOff_queued (h : c.Stands e none) : (c.setOff e).state.Queued := by
  obtain ⟨id, aim, stage⟩ := e
  cases aim with
  | direct member request => exact visit_queued h nofun member
  | lead request tries    =>
      cases tries with
      | zero   => exact finish_queued h _
      | succ n => exact visit_queued h nofun c.guess
  | record w entry term   =>
      have hbrief : c.Stands ⟨id, .record w entry c.knownTerm, stage⟩ none :=
        h.of_errand rfl Iff.rfl
      exact visit_queued hbrief nofun w
  | survey next reached   =>
      rw [setOff]
      dsimp only
      split
      · rename_i hlt
        exact enterOrWait_queued (h.lineUp hlt)
      · exact finish_queued h _
  | close next            =>
      rw [setOff]
      dsimp only
      split
      · rename_i hlt
        exact enterOrWait_queued (h.lineUp hlt)
      · exact finish_queued h _

theorem proceed_queued (h : c.Queued) (he : e ∈ c.errands) : (c.proceed e).state.Queued := by
  have hstands := h.stands he
  rw [proceed]
  split
  · rename_i hstage
    rw [hstage] at hstands
    exact setOff_queued hstands
  · rename_i hstage
    rw [hstage] at hstands
    split
    · exact setOff_queued hstands
    · exact h
  · rename_i m hstage
    rw [hstage] at hstands
    split
    · exact enter_queued hstands
    · exact h
  · exact h

theorem connected_queued (h : c.Queued) (he : e ∈ c.errands) (outcome : Except TransportError Unit) :
    (c.connected e outcome).state.Queued := by
  have hstands := h.stands he
  unfold connected
  split
  · rename_i m _ hstage
    rw [hstage] at hstands
    exact use_queued (hstands.of_lines (d := { c with pool := c.pool.connect m })
      (fun k => c.pool.line_connect m k) rfl rfl)
  · rename_i m error hstage
    rw [hstage] at hstands
    split
    · rename_i request hrequest
      exact settle_queued hstands.leave (by rw [hrequest]; exact nofun) _
    · rename_i hrequest
      exact moveOn_queued hstands hrequest false
  · exact h

theorem answered_queued (h : c.Queued) (he : e ∈ c.errands) (outcome : Except TransportError Reply) :
    (c.answered e outcome).state.Queued := by
  have hstands := h.stands he
  rw [answered]
  split
  · rename_i m hstage
    rw [hstage] at hstands
    have hdropped : ({ c with pool := c.pool.disconnect m } : Courier).Stands e (some m) :=
      hstands.of_lines (fun k => c.pool.line_disconnect m k) rfl rfl
    refine settle_queued ?_ ((h.fits e he).asking m hstage) outcome
    split
    · exact hstands.leave
    · exact hdropped.leave
  · exact h

theorem rested_queued (h : c.Queued) (he : e ∈ c.errands) : (c.rested e).state.Queued := by
  have hstands := h.stands he
  unfold rested
  split
  · rename_i hstage
    rw [hstage] at hstands
    exact wait_queued hstands .ready rfl (Errand.fits nofun nofun)
  · exact h

/-- **Every step keeps the lines in order**: whoever is at a slot stands in its line, and nobody
    else. -/
theorem step_queued (h : c.Queued) (id : Nat) (s : Signal) : (c.step id s).state.Queued := by
  rw [step]
  split
  · exact h
  · rename_i e hf
    have he : e ∈ c.errands := List.mem_of_find?_eq_some hf
    cases s with
    | proceed           => exact proceed_queued h he
    | connected outcome => exact connected_queued h he outcome
    | answered outcome  => exact answered_queued h he outcome
    | rested            => exact rested_queued h he
    | expired           => exact h

/-- **As long as there are errands, one of them can be told something**: whoever waits in a line
    waits behind one that can. -/
theorem Queued.unstuck (h : c.Queued) (he : e ∈ c.errands) :
    ∃ f ∈ c.errands, c.mayProceed f = true ∨ (∃ m, f.stage = .connecting m) ∨
      (∃ m, f.stage = .exchanging m) ∨ f.stage = .backingOff := by
  -- at a slot, the first in line can be told something
  have hslot : ∀ f ∈ c.errands, ∀ m, f.stage = .awaitsSlot m → ∃ g ∈ c.errands,
      c.mayProceed g = true ∨ (∃ m, g.stage = .connecting m) ∨ ∃ m, g.stage = .exchanging m := by
    intro f hf m hm
    have hin : f.id ∈ c.pool.line m :=
      (h.lines m f.id).2 ⟨f, hf, rfl, by unfold Errand.At; rw [hm]; rfl⟩
    obtain ⟨i, hhead⟩ : ∃ i, (c.pool.line m).head? = some i :=
      Option.isSome_iff_exists.1 (List.isSome_head?.2 (List.ne_nil_of_mem hin))
    obtain ⟨g, hg, rfl, hat⟩ := (h.lines m i).1 (List.mem_of_mem_head? hhead)
    have hat' : g.stage.member? = some m := hat
    refine ⟨g, hg, ?_⟩
    cases hstage : g.stage with
    | connecting k => exact Or.inr (Or.inl ⟨k, rfl⟩)
    | exchanging k => exact Or.inr (Or.inr ⟨k, rfl⟩)
    | awaitsSlot k =>
        rw [hstage] at hat'
        obtain rfl := Option.some.inj hat'
        refine Or.inl ?_
        unfold mayProceed
        rw [hstage]
        exact Pool.holds_iff.2 hhead
    | _            => rw [hstage] at hat'; exact nomatch hat'
  cases hstage : e.stage with
  | ready        => exact ⟨e, he, Or.inl (by unfold mayProceed; rw [hstage])⟩
  | connecting m => exact ⟨e, he, Or.inr (Or.inl ⟨m, hstage⟩)⟩
  | exchanging m => exact ⟨e, he, Or.inr (Or.inr (Or.inl ⟨m, hstage⟩))⟩
  | backingOff   => exact ⟨e, he, Or.inr (Or.inr (Or.inr hstage))⟩
  | awaitsSlot m =>
      obtain ⟨g, hg, hcan⟩ := hslot e he m hstage
      exact ⟨g, hg, hcan.imp_right fun hcan => hcan.imp_right Or.inl⟩
  | awaitsTurn   =>
      have hin : e.id ∈ c.turn.line := (h.turns e.id).2 ⟨e, he, rfl, (h.fits e he).turning hstage⟩
      obtain ⟨i, hhead⟩ : ∃ i, c.turn.line.head? = some i :=
        Option.isSome_iff_exists.1 (List.isSome_head?.2 (List.ne_nil_of_mem hin))
      obtain ⟨f, hf, rfl, _⟩ := (h.turns i).1 (List.mem_of_mem_head? hhead)
      cases hturn : f.stage with
      | ready        => exact ⟨f, hf, Or.inl (by unfold mayProceed; rw [hturn])⟩
      | connecting m => exact ⟨f, hf, Or.inr (Or.inl ⟨m, hturn⟩)⟩
      | exchanging m => exact ⟨f, hf, Or.inr (Or.inr (Or.inl ⟨m, hturn⟩))⟩
      | backingOff   => exact ⟨f, hf, Or.inr (Or.inr (Or.inr hturn))⟩
      | awaitsSlot m =>
          obtain ⟨g, hg, hcan⟩ := hslot f hf m hturn
          exact ⟨g, hg, hcan.imp_right fun hcan => hcan.imp_right Or.inl⟩
      | awaitsTurn   =>
          refine ⟨f, hf, Or.inl ?_⟩
          unfold mayProceed
          rw [hturn]
          simpa [FairLock.holds] using hhead

/-! ## Setting out -/

/-- An errand that is at no slot joins the others.  If it looks for the leader it lines up for its
    turn. -/
theorem Queued.join (h : c.Queued) (hnew : ∀ f ∈ c.errands, f.id ≠ e.id)
    (hnone : e.stage.member? = none) (hfits : e.Fits) {d : Courier}
    (line : ∀ m, d.pool.line m = c.pool.line m) (errands : d.errands = c.errands ++ [e])
    (turn : ∀ i, i ∈ d.turn.line ↔ i ∈ c.turn.line ∨ i = e.id ∧ e.Leads)
    (once : d.turn.line.Nodup) : d.Queued := by
  have hmem : ∀ f, f ∈ d.errands ↔ f ∈ c.errands ∨ f = e := by
    intro f
    rw [errands, List.mem_append, List.mem_singleton]
  refine ⟨?distinct, fun m => line m ▸ h.nodup m, fun m i => ?lines, once, fun i => ?turns,
    fun f hf => ?fits⟩
  case distinct =>
    rw [errands, List.map_append, List.nodup_append]
    refine ⟨h.distinct, by simp, fun i hi j hj hij => ?_⟩
    obtain ⟨f, hf, hfi⟩ := List.mem_map.1 hi
    exact hnew f hf (hfi.trans (hij.trans (List.mem_singleton.1 hj)))
  case lines    =>
    rw [line, h.lines]
    constructor
    · rintro ⟨f, hf, hid, hat⟩
      exact ⟨f, (hmem f).2 (Or.inl hf), hid, hat⟩
    · rintro ⟨f, hf, hid, hat⟩
      rcases (hmem f).1 hf with hf | rfl
      · exact ⟨f, hf, hid, hat⟩
      · exact nomatch hnone.symm.trans hat
  case turns    =>
    rw [turn, h.turns]
    constructor
    · rintro (⟨f, hf, hid, hleads⟩ | ⟨rfl, hleads⟩)
      · exact ⟨f, (hmem f).2 (Or.inl hf), hid, hleads⟩
      · exact ⟨e, (hmem e).2 (Or.inr rfl), rfl, hleads⟩
    · rintro ⟨f, hf, rfl, hleads⟩
      rcases (hmem f).1 hf with hf | rfl
      · exact Or.inl ⟨f, hf, rfl, hleads⟩
      · exact Or.inr ⟨rfl, hleads⟩
  case fits     =>
    rcases (hmem f).1 hf with hf | rfl
    · exact h.fits f hf
    · exact hfits

/-- An errand is sent out. -/
theorem begin_queued (h : c.Queued) (ho : c.InOrder) (aim : Errand.Aim) :
    (c.begin aim).2.Queued := by
  have hnew : ∀ f ∈ c.errands, f.id ≠ c.fresh := fun f hf => Nat.ne_of_lt (ho.numbered f hf)
  have hready : (¬ ∃ request, aim.purpose = .lead request) → ∀ {pool : Pool},
      (∀ m, pool.line m = c.pool.line m) →
      ({ c with pool, errands := c.errands ++ [⟨c.fresh, aim, .ready⟩], fresh := c.fresh + 1 } :
        Courier).Queued := by
    intro hno pool hline
    refine h.join (e := ⟨c.fresh, aim, .ready⟩) hnew rfl (Errand.fits nofun nofun) hline rfl
      (fun i => ?_) h.once
    rw [or_iff_left fun hi => hno hi.2]
  cases aim with
  | lead request tries    =>
      refine h.join (e := ⟨c.fresh, .lead request tries, .awaitsTurn⟩) hnew rfl
        ⟨nofun, fun _ => ⟨request, rfl⟩⟩ (fun _ => rfl) rfl (fun i => ?_) ?_
      · show i ∈ c.turn.line ++ [c.fresh] ↔ _
        rw [List.mem_append, List.mem_singleton]
        exact or_congr_right (iff_self_and.2 fun _ => ⟨request, rfl⟩)
      · refine List.nodup_append.2 ⟨h.once, by simp, fun i hi j hj hij => ?_⟩
        obtain ⟨f, hf, hid, _⟩ := (h.turns i).1 hi
        exact hnew f hf (hid.trans (hij.trans (List.mem_singleton.1 hj)))
  | direct member request => exact hready (fun ⟨_, hp⟩ => nomatch hp) fun _ => rfl
  | record w entry term   => exact hready (fun ⟨_, hp⟩ => nomatch hp) fun _ => rfl
  | survey next reached   => exact hready (fun ⟨_, hp⟩ => nomatch hp) fun _ => rfl
  | close next            => exact hready (fun ⟨_, hp⟩ => nomatch hp) fun _ => rfl

theorem beginRecords_queued (h : c.Queued) (ho : c.InOrder) (entry : LogEntry) (ws : List Nat) :
    (c.beginRecords entry ws).2.Queued := by
  induction ws generalizing c with
  | nil          => exact h
  | cons w ws ih =>
      exact ih (begin_queued h ho (.record w entry c.knownTerm))
        (ho.begin (.record w entry c.knownTerm) rfl)

/-! ## Open pools -/

/-- The pool is open, and the lines and the errands agree. -/
structure Lined (c : Courier) : Prop extends Queued c where
  unclosed : c.pool.closed = false

end Courier

end WitnessReplication

import WitnessReplication.Proofs.ExactCollection

/-!
# Either order — a record and the word that its command is synced may overtake each other

    The client sends the record and the leader sends the word, and nothing orders the two.  If the
    record comes first, the entry is held and then dropped.  If the word comes first, the name is
    remembered and then used up.  The two ways have no code in common, and they come to the same.

    What a witness remembers in the end comes in another order, because the last of the names that
    are looked for takes the place of one that is found, and because a name that is used up is taken
    out of the middle.  So it is compared name by name: as many of each (`perm_of_either_order`).

* **`record_of_fresh`**, **`record_of_told`** — a record of an entry that is new, or was told early.
* **`EitherOrder`** — what it means that the order does not matter.
* **`record_collect_either_order`** — it does not, for every witness that was reached.
-/

namespace WitnessReplication

namespace Witness

variable {w : Witness} {e : LogEntry} {synced : List RequestId}

-- ── The two records ──────────────────────────────────────────────────────────────────────────────

/-- The witness with one more entry. -/
def holding (w : Witness) (e : LogEntry) : Witness := { w with recorded := w.recorded ++ [e] }

/-- An entry that commutes with all that is held, and that was neither recorded nor told before, is
    held from now on. -/
theorem record_of_fresh (hunfrozen : w.frozen = false) (huntold : ¬ w.Remembers e.id)
    (hunheld : ¬ w.Holds e.id) (hcommutes : ∀ h ∈ w.recorded, h.commutesWith e = true) :
    w.record e w.term = (.accepted, w.holding e) := by
  have hnew : ¬ (w.recorded.any fun h => h.id = e.id) = true := by simpa [Holds] using hunheld
  have hunnamed : e.id ∉ w.early := huntold
  unfold record
  rw [if_neg (ne_true_of_eq_false hunfrozen), if_neg (not_not.2 rfl), if_neg hunnamed,
    if_neg hnew, if_pos (List.all_eq_true.2 hcommutes), holding]

/-- An entry that does not commute with all that is held, and that was neither recorded nor told
    before, is refused. -/
theorem record_of_conflict (hunfrozen : w.frozen = false) (huntold : ¬ w.Remembers e.id)
    (hunheld : ¬ w.Holds e.id) (hconflict : ¬ (w.recorded.all fun h => h.commutesWith e) = true) :
    w.record e w.term = (.conflict, w) := by
  have hnew : ¬ (w.recorded.any fun h => h.id = e.id) = true := by simpa [Holds] using hunheld
  have hunnamed : e.id ∉ w.early := huntold
  unfold record
  rw [if_neg (ne_true_of_eq_false hunfrozen), if_neg (not_not.2 rfl), if_neg hunnamed,
    if_neg hnew, if_neg hconflict]

/-- An entry whose name was told early is accepted, and the name is used up. -/
theorem record_of_told (hunfrozen : w.frozen = false) (htold : w.Remembers e.id) :
    w.record e w.term = (.accepted, { w with early := w.early.erase e.id }) := by
  have hnamed : e.id ∈ w.early := htold
  unfold record
  rw [if_neg (ne_true_of_eq_false hunfrozen), if_neg (not_not.2 rfl), if_pos hnamed]

-- ── One more entry to collect ────────────────────────────────────────────────────────────────────

theorem dropped_holding (w : Witness) (e : LogEntry) (synced : List RequestId) :
    (w.holding e).dropped synced = w.dropped synced ++ if e.id ∈ synced then [e] else [] := by
  rw [dropped, holding, List.filter_append]
  by_cases hnamed : e.id ∈ synced <;> simp [dropped, hnamed]

/-- **What is left over, with the entry and without it**: without it, its name is left over once more
    if it was told. -/
theorem perm_of_either_order {left left' : List RequestId}
    (hleft : ((w.dropped synced).map (·.id) ++ left).Perm synced)
    (hleft' : (((w.holding e).dropped synced).map (·.id) ++ left').Perm synced) :
    ((if e.id ∈ synced then [e.id] else []) ++ left').Perm left := by
  rw [dropped_holding, List.map_append, List.append_assoc] at hleft'
  have hboth := (List.perm_append_left_iff _).1 (hleft'.trans hleft.symm)
  have hname : (if e.id ∈ synced then [e] else []).map (·.id) =
      if e.id ∈ synced then [e.id] else [] := by
    split <;> rfl
  rwa [hname] at hboth

/-- Everything is remembered if there is room for it. -/
theorem Collects.early_of_room {count : Nat} {w' : Witness} (h : w.Collects synced count w')
    (hroom : w.early.length + synced.length ≤ earlyLimit) :
    ∃ left, ((w.dropped synced).map (·.id) ++ left).Perm synced ∧ w'.early = w.early ++ left := by
  obtain ⟨left, hperm, hearly⟩ := h.remembered
  refine ⟨left, hperm, ?_⟩
  have hlength := hperm.length_eq
  rw [List.length_append] at hlength
  rw [hearly]
  refine rtake_of_length_le (Nat.le_trans ?_ hroom)
  rw [List.length_append]
  omega

-- ── Either order ─────────────────────────────────────────────────────────────────────────────────

/-- It does not matter whether an entry is recorded before some names are told, or after. -/
structure EitherOrder (w : Witness) (e : LogEntry) (synced : List RequestId) : Prop where
  /-- The entry is accepted before the names are told. -/
  before   : (w.record e w.term).1 = .accepted
  /-- The entry is accepted after the names were told. -/
  after    : ((w.collect synced).2.record e w.term).1 = .accepted
  /-- The same entries are held in the end, in the same order. -/
  recorded : ((w.record e w.term).2.collect synced).2.recorded =
    ((w.collect synced).2.record e w.term).2.recorded
  /-- Every name is remembered as often. -/
  early    : ((w.record e w.term).2.collect synced).2.early.Perm
    ((w.collect synced).2.record e w.term).2.early
  /-- Recorded before, the entry is one more that is dropped if it is named. -/
  counted  : ((w.record e w.term).2.collect synced).1 =
    (w.collect synced).1 + if e.id ∈ synced then 1 else 0

theorem Coherent.either_order (hw : w.Coherent) (hunfrozen : w.frozen = false)
    (hunheld : ¬ w.Holds e.id) (huntold : ¬ w.Remembers e.id)
    (hcommutes : ∀ h ∈ w.recorded, h.commutesWith e = true)
    (hroom : w.early.length + synced.length ≤ earlyLimit) : w.EitherOrder e synced := by
  have hrecord : w.record e w.term = (.accepted, w.holding e) :=
    record_of_fresh hunfrozen huntold hunheld hcommutes
  have hw' : (w.holding e).Coherent := by
    have hrecorded := coherent_record hw e w.term
    rwa [hrecord] at hrecorded
  -- the names told to the witness with the entry, and to the one without it
  have hwith := hw'.collects synced
  have hwithout := hw.collects synced
  obtain ⟨left', hleft', hearly'⟩ := hwith.early_of_room hroom
  obtain ⟨left, hleft, hearly⟩ := hwithout.early_of_room hroom
  have hboth := perm_of_either_order hleft hleft'
  have hcount : ((w.holding e).collect synced).1 =
      (w.collect synced).1 + if e.id ∈ synced then 1 else 0 := by
    rw [hwith.counted, hwithout.counted, dropped_holding, List.length_append]
    split <;> rfl
  have hkept : ((w.holding e).collect synced).2.recorded =
      (w.collect synced).2.recorded ++ if e.id ∈ synced then [] else [e] := by
    rw [hwith.kept, hwithout.kept, holding, List.filter_append, List.filter_singleton]
    by_cases hnamed : e.id ∈ synced <;> simp [hnamed]
  have hunfrozen' : (w.collect synced).2.frozen = false := hunfrozen
  have hlater : (w.collect synced).2.record e w.term =
      (w.collect synced).2.record e (w.collect synced).2.term := rfl
  by_cases hnamed : e.id ∈ synced
  · -- the name is left over, so the record that comes late uses it up
    rw [if_pos hnamed] at hboth hkept
    have hmem : e.id ∈ left := hboth.subset (List.mem_cons_self ..)
    have htold : (w.collect synced).2.Remembers e.id := by
      rw [Remembers, hearly]
      exact List.mem_append_right _ hmem
    have hspent := record_of_told hunfrozen' htold
    refine ⟨by rw [hrecord], by rw [hlater, hspent], ?_, ?_, by rw [hrecord, hcount]⟩
    · rw [hrecord, hlater, hspent, hkept, List.append_nil]
    · rw [hrecord, hlater, hspent, hearly']
      show (w.early ++ left').Perm ((w.collect synced).2.early.erase e.id)
      rw [hearly, List.erase_append_right _ huntold]
      exact .append_left _ ((List.perm_cons_erase hmem).symm.trans hboth.symm).cons_inv.symm
  · rw [if_neg hnamed] at hboth hkept
    have hunheld' : ¬ (w.collect synced).2.Holds e.id := by
      intro hheld
      obtain ⟨u, hu, hid⟩ := List.mem_map.1 hheld
      exact hunheld (List.mem_map.2 ⟨u, mem_recorded_collect hu, hid⟩)
    have huntold' : ¬ (w.collect synced).2.Remembers e.id := fun htold =>
      (remembers_collect htold).elim huntold hnamed
    have hfresh := record_of_fresh hunfrozen' huntold' hunheld'
      fun u hu => hcommutes u (mem_recorded_collect hu)
    refine ⟨by rw [hrecord], by rw [hlater, hfresh], ?_, ?_, by rw [hrecord, hcount]⟩
    · rw [hrecord, hlater, hfresh, hkept]
      rfl
    · rw [hrecord, hlater, hfresh, hearly']
      show (w.early ++ left').Perm (w.collect synced).2.early
      rw [hearly]
      exact .append_left _ hboth

/-- **A record and the word that its command is synced may come in either order**, at every unfrozen
    witness that was reached, for every entry that it would take in now, and for any names that
    there is room to remember. -/
theorem record_collect_either_order (term : Term) (acts : List Action) (e : LogEntry)
    (synced : List RequestId) (hunfrozen : (run { term } acts).frozen = false)
    (hunheld : ¬ (run { term } acts).Holds e.id)
    (huntold : ¬ (run { term } acts).Remembers e.id)
    (hcommutes : ∀ h ∈ (run { term } acts).recorded, h.commutesWith e = true)
    (hroom : (run { term } acts).early.length + synced.length ≤ 1024) :
    (run { term } acts).EitherOrder e synced :=
  ((coherent_new term).run acts).either_order hunfrozen hunheld huntold hcommutes hroom

/-- The law at a witness that holds an entry and remembers a name, for an entry that is named twice
    among others. -/
theorem either_order_named_twice :
    let f : LogEntry := .command [98] [⟨[106]⟩] ⟨2⟩ ⟨1⟩
    let e : LogEntry := .command [97] [⟨[107]⟩] ⟨1⟩ ⟨1⟩
    let acts : List Action := [.collect [⟨⟨3⟩, ⟨7⟩⟩], .record f ⟨1⟩]
    let w := run { term := ⟨1⟩ } acts
    let synced : List RequestId := [e.id, ⟨⟨4⟩, ⟨9⟩⟩, f.id, e.id]
    w.frozen = false ∧ ¬ w.Holds e.id ∧ ¬ w.Remembers e.id ∧
      (∀ h ∈ w.recorded, h.commutesWith e = true) ∧ w.early.length + synced.length ≤ 1024 ∧
      w.EitherOrder e synced := by
  intro f e acts w synced
  have hunfrozen : w.frozen = false := by decide
  have hunheld : ¬ w.Holds e.id := by decide
  have huntold : ¬ w.Remembers e.id := by unfold Remembers; decide
  have hcommutes : ∀ h ∈ w.recorded, h.commutesWith e = true := by decide
  have hroom : w.early.length + synced.length ≤ 1024 := by decide
  exact ⟨hunfrozen, hunheld, huntold, hcommutes, hroom,
    record_collect_either_order ⟨1⟩ acts e synced hunfrozen hunheld huntold hcommutes hroom⟩

end Witness

end WitnessReplication

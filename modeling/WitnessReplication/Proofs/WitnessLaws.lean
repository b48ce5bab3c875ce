import Mathlib.Data.List.Basic
import WitnessReplication.Witness

/-!
# Witness laws — what a witness holds, and what it remembers

    A witness holds entries and remembers names.  A record adds an entry, unless its name is
    remembered, and then it uses the name up.  To be told what is synced takes entries away, and the
    names that no entry was found for are remembered.  So names and entries cancel each other, one
    by one, and it does not matter which of them came first.

* **`Witness.Records`** and **`record_records`** — all that a record can do.
* **`perm_swapRemove`** — to take a name out is to take it out, whatever moves to its place.
* **`count_sweep`** and **`count_collect`** — each entry that goes uses up one name.
* **`held_or_told`**, **`remembers_collect`** — what goes, and what is remembered.
* **`Exclusive`** — no name is remembered of an entry that is held.
-/

namespace WitnessReplication

namespace Witness

/-- The witness holds an entry of this name. -/
def Holds (w : Witness) (id : RequestId) : Prop := id ∈ w.recorded.map (·.id)

/-- The witness was told to forget this name before it held it. -/
def Remembers (w : Witness) (id : RequestId) : Prop := id ∈ w.early

/-! ## Records -/

/-- What a record of an entry comes to, under a term. -/
inductive Records (w : Witness) (e : LogEntry) (term : Term) : RecordOutcome × Witness → Prop where
  /-- The name is remembered, and used up. -/
  | spent (unfrozen : w.frozen = false) (current : term = w.term) (told : w.Remembers e.id) :
      Records w e term (.accepted, { w with early := w.early.erase e.id })
  /-- An entry of this name is held. -/
  | again (unfrozen : w.frozen = false) (current : term = w.term) (untold : ¬ w.Remembers e.id)
      (held : w.Holds e.id) : Records w e term (.accepted, w)
  /-- The entry is held from now on. -/
  | fresh (unfrozen : w.frozen = false) (current : term = w.term) (untold : ¬ w.Remembers e.id)
      (unheld : ¬ w.Holds e.id) (commutes : ∀ h ∈ w.recorded, h.commutesWith e = true) :
      Records w e term (.accepted, { w with recorded := w.recorded ++ [e] })
  /-- The witness refuses, and stays as it is. -/
  | refused (outcome : RecordOutcome) (unaccepted : outcome ≠ .accepted) :
      Records w e term (outcome, w)

theorem record_records (w : Witness) (e : LogEntry) (term : Term) :
    w.Records e term (w.record e term) := by
  rw [record]
  split
  · exact .refused _ RecordOutcome.noConfusion
  · rename_i hfrozen
    rw [Bool.not_eq_true] at hfrozen
    split
    · exact .refused _ RecordOutcome.noConfusion
    · rename_i hterm
      rw [not_not] at hterm
      split
      · rename_i htold
        exact .spent hfrozen hterm htold
      · rename_i huntold
        have hholds : (w.recorded.any fun h => h.id = e.id) = true ↔ w.Holds e.id := by
          simp [Holds]
        split
        · rename_i hheld
          exact .again hfrozen hterm huntold (hholds.1 hheld)
        · rename_i hunheld
          split
          · rename_i hcommutes
            exact .fresh hfrozen hterm huntold (mt hholds.2 hunheld) (List.all_eq_true.1 hcommutes)
          · exact .refused _ RecordOutcome.noConfusion

theorem mem_recorded_record {w : Witness} {e u : LogEntry} {term : Term}
    (h : u ∈ (w.record e term).2.recorded) : u ∈ w.recorded ∨ u = e := by
  have hrecords := w.record_records e term
  generalize w.record e term = result at h hrecords
  cases hrecords with
  | spent _ _ told             => exact Or.inl h
  | again _ _ untold held      => exact Or.inl h
  | fresh _ _ untold unheld _  =>
      rcases List.mem_append.1 h with h | h
      · exact Or.inl h
      · exact Or.inr (List.mem_singleton.1 h)
  | refused outcome unaccepted => exact Or.inl h

theorem recorded_subset_record {w : Witness} {u : LogEntry} (h : u ∈ w.recorded) (e : LogEntry)
    (term : Term) : u ∈ (w.record e term).2.recorded := by
  have hrecords := w.record_records e term
  generalize w.record e term = result at hrecords
  cases hrecords with
  | spent _ _ told             => exact h
  | again _ _ untold held      => exact h
  | fresh _ _ untold unheld _  => exact List.mem_append_left _ h
  | refused outcome unaccepted => exact h

theorem remembers_of_record {w : Witness} {e : LogEntry} {term : Term} {id : RequestId}
    (h : (w.record e term).2.Remembers id) : w.Remembers id := by
  have hrecords := w.record_records e term
  generalize w.record e term = result at h hrecords
  cases hrecords with
  | spent _ _ told             => exact List.mem_of_mem_erase h
  | again _ _ untold held      => exact h
  | fresh _ _ untold unheld _  => exact h
  | refused outcome unaccepted => exact h

/-- Who accepts a record holds an entry of that name, or has remembered the name until now. -/
theorem held_of_accepted {w : Witness} {e : LogEntry} {term : Term}
    (h : (w.record e term).1 = .accepted) :
    (∃ u ∈ (w.record e term).2.recorded, u.id = e.id) ∨ w.Remembers e.id := by
  have hrecords := w.record_records e term
  generalize w.record e term = result at h hrecords
  cases hrecords with
  | spent _ _ told             => exact Or.inr told
  | again _ _ untold held      =>
      obtain ⟨u, hu, hid⟩ := List.mem_map.1 held
      exact Or.inl ⟨u, hu, hid⟩
  | fresh _ _ untold unheld _  =>
      exact Or.inl ⟨e, List.mem_append_right _ (List.mem_singleton.2 rfl), rfl⟩
  | refused outcome unaccepted => exact absurd h unaccepted

/-! ## Names that are looked for -/

section Names

variable {α : Type}

/-- What is left after an element was taken out, with the element, is what there was. -/
theorem perm_swapRemove {xs : List α} {i : Nat} {a : α} (h : xs[i]? = some a) :
    (a :: swapRemove xs i).Perm xs := by
  rcases List.eq_nil_or_concat xs with rfl | ⟨ys, last, rfl⟩
  · exact nomatch h
  · rw [List.concat_eq_append] at h ⊢
    rw [swapRemove, List.getLast?_concat]
    show (a :: ((ys ++ [last]).set i last).dropLast).Perm _
    rcases Nat.lt_or_ge i ys.length with hi | hi
    · -- the last element comes to the place of the one that goes
      rw [List.getElem?_append_left hi] at h
      obtain ⟨hi', rfl⟩ := List.getElem?_eq_some_iff.1 h
      rw [List.set_append_left _ _ hi, List.dropLast_concat, List.set_eq_take_append_cons_drop,
        if_pos hi]
      have hys : ys = ys.take i ++ ys[i] :: ys.drop (i + 1) := by
        rw [List.getElem_cons_drop, List.take_append_drop]
      have hlast : (ys.take i ++ last :: ys.drop (i + 1)).Perm
          (ys.take i ++ (ys.drop (i + 1) ++ [last])) :=
        .append_left _ (List.perm_append_singleton ..).symm
      have hmiddle : (ys.take i ++ ys[i] :: (ys.drop (i + 1) ++ [last])).Perm
          (ys[i] :: (ys.take i ++ (ys.drop (i + 1) ++ [last]))) := List.perm_middle
      rw [← List.cons_append, ← List.append_assoc, ← hys] at hmiddle
      exact (hlast.cons _).trans hmiddle.symm
    · rw [List.getElem?_append_right hi] at h
      have hi' : i = ys.length := by
        have := (List.getElem?_eq_some_iff.1 h).1
        simp only [List.length_singleton] at this
        omega
      subst hi'
      obtain rfl : last = a := by simpa using h
      rw [List.set_append_right _ _ (Nat.le_refl _), Nat.sub_self, List.set_cons_zero,
        List.dropLast_concat]
      exact (List.perm_append_singleton ..).symm

end Names

/-! ## Sweeps -/

/-- An entry goes if its name is looked for, and uses the name up; else it stays. -/
theorem sweep_cons (e : LogEntry) (l : List LogEntry) (ids : List RequestId) :
    (∃ rest, (e.id :: rest).Perm ids ∧ sweep (e :: l) ids = sweep l rest) ∨
    (e.id ∉ ids ∧ sweep (e :: l) ids = (e :: (sweep l ids).1, (sweep l ids).2)) := by
  rw [sweep]
  cases hi : ids.idxOf? e.id with
  | none   => exact Or.inr ⟨List.idxOf?_eq_none_iff.1 hi, rfl⟩
  | some i =>
      obtain ⟨hlt, hat, _⟩ := List.idxOf?_eq_some_iff.1 hi
      refine Or.inl ⟨swapRemove ids i, perm_swapRemove ?_, rfl⟩
      rw [List.getElem?_eq_getElem hlt, hat]

theorem sublist_sweep (l : List LogEntry) (ids : List RequestId) : (sweep l ids).1.Sublist l := by
  induction l generalizing ids with
  | nil         => exact List.Sublist.refl _
  | cons e l ih =>
      rcases sweep_cons e l ids with ⟨rest, _, heq⟩ | ⟨_, heq⟩ <;> rw [heq]
      · exact (ih rest).cons _
      · exact (ih ids).cons_cons _

theorem mem_of_mem_left {l : List LogEntry} {ids : List RequestId} {id : RequestId}
    (h : id ∈ (sweep l ids).2) : id ∈ ids := by
  induction l generalizing ids with
  | nil         => exact h
  | cons e l ih =>
      rcases sweep_cons e l ids with ⟨rest, hperm, heq⟩ | ⟨_, heq⟩ <;> rw [heq] at h
      · exact hperm.mem_iff.1 (List.mem_cons_of_mem _ (ih h))
      · exact ih h

/-- The name of an entry that stays is not left over: it was not looked for any more. -/
theorem not_mem_left_of_kept {l : List LogEntry} {ids : List RequestId} {e : LogEntry}
    (h : e ∈ (sweep l ids).1) : e.id ∉ (sweep l ids).2 := by
  induction l generalizing ids with
  | nil         => exact nomatch h
  | cons f l ih =>
      rcases sweep_cons f l ids with ⟨rest, _, heq⟩ | ⟨hunnamed, heq⟩ <;> rw [heq] at h ⊢
      · exact ih h
      · rcases List.mem_cons.1 h with rfl | h
        · exact fun hleft => hunnamed (mem_of_mem_left hleft)
        · exact ih h

/-- An entry stays, or its name was looked for. -/
theorem kept_or_named {l : List LogEntry} {e : LogEntry} (h : e ∈ l) (ids : List RequestId) :
    e ∈ (sweep l ids).1 ∨ e.id ∈ ids := by
  induction l generalizing ids with
  | nil         => exact nomatch h
  | cons f l ih =>
      rcases sweep_cons f l ids with ⟨rest, hperm, heq⟩ | ⟨_, heq⟩ <;> rw [heq]
      · rcases List.mem_cons.1 h with rfl | h
        · exact Or.inr (hperm.mem_iff.1 (List.mem_cons_self ..))
        · exact (ih h rest).imp_right fun hid => hperm.mem_iff.1 (List.mem_cons_of_mem _ hid)
      · rcases List.mem_cons.1 h with rfl | h
        · exact Or.inl (List.mem_cons_self ..)
        · exact (ih h ids).imp_left (List.mem_cons_of_mem _)

/-- **Each entry that goes uses up one name**: of every name, as many are left over beyond the
    entries that stay as were looked for beyond the entries there were. -/
theorem count_sweep (l : List LogEntry) (ids : List RequestId) (id : RequestId) :
    (sweep l ids).2.count id + (l.map (·.id)).count id =
      ids.count id + ((sweep l ids).1.map (·.id)).count id := by
  induction l generalizing ids with
  | nil         => rfl
  | cons e l ih =>
      rw [List.map_cons, List.count_cons]
      rcases sweep_cons e l ids with ⟨rest, hperm, heq⟩ | ⟨_, heq⟩ <;> rw [heq]
      · have hrest := ih rest
        have hcount := hperm.count_eq id
        rw [List.count_cons] at hcount
        omega
      · have hrest := ih ids
        show (sweep l ids).2.count id + _ =
          ids.count id + ((e :: (sweep l ids).1).map (·.id)).count id
        rw [List.map_cons, List.count_cons]
        omega

/-- **Whose entries are of distinct names loses exactly those that are named**, in whatever order
    and however often the names come. -/
theorem sweep_eq_filter {l : List LogEntry} (h : (l.map (·.id)).Nodup) (ids : List RequestId) :
    (sweep l ids).1 = l.filter fun e => e.id ∉ ids := by
  induction l generalizing ids with
  | nil         => rfl
  | cons e l ih =>
      rw [List.map_cons, List.nodup_cons] at h
      obtain ⟨hnew, hrest⟩ := h
      rcases sweep_cons e l ids with ⟨rest, hperm, heq⟩ | ⟨hunnamed, heq⟩
      · have hnamed : e.id ∈ ids := hperm.mem_iff.1 (List.mem_cons_self ..)
        rw [heq, ih hrest, List.filter_cons_of_neg (by simpa using hnamed)]
        refine List.filter_congr ?_
        -- the name that was used up is no name of the entries that follow
        intro f hf
        have hne : f.id ≠ e.id := fun heq => hnew (heq ▸ List.mem_map_of_mem hf)
        have hmem : f.id ∈ rest ↔ f.id ∈ ids := by
          rw [← hperm.mem_iff, List.mem_cons, or_iff_right hne]
        simp only [hmem]
      · rw [heq, ih hrest, List.filter_cons_of_pos (by simpa using hunnamed)]

/-! ## Names that are remembered -/

theorem length_remember {early : List RequestId} (h : early.length ≤ earlyLimit) (new : RequestId) :
    (remember early new).length ≤ earlyLimit := by
  rw [remember]
  split
  · rename_i hfull
    simp only [List.length_append, List.length_tail, List.length_singleton]
    have : 0 < earlyLimit := by decide
    omega
  · simp only [List.length_append, List.length_singleton]
    omega

theorem length_foldl_remember {early : List RequestId} (h : early.length ≤ earlyLimit)
    (left : List RequestId) : (left.foldl remember early).length ≤ earlyLimit := by
  induction left generalizing early with
  | nil           => exact h
  | cons new r ih => exact ih (length_remember h new)

theorem mem_remember {early : List RequestId} {id new : RequestId} (h : id ∈ remember early new) :
    id ∈ early ∨ id = new := by
  rw [remember] at h
  split at h
  · rcases List.mem_append.1 h with h | h
    · exact Or.inl (List.mem_of_mem_tail h)
    · exact Or.inr (List.mem_singleton.1 h)
  · rcases List.mem_append.1 h with h | h
    · exact Or.inl h
    · exact Or.inr (List.mem_singleton.1 h)

theorem mem_foldl_remember {early left : List RequestId} {id : RequestId}
    (h : id ∈ left.foldl remember early) : id ∈ early ∨ id ∈ left := by
  induction left generalizing early with
  | nil            => exact Or.inl h
  | cons new left ih =>
      rcases ih h with h | h
      · rcases mem_remember h with h | rfl
        · exact Or.inl h
        · exact Or.inr (List.mem_cons_self ..)
      · exact Or.inr (List.mem_cons_of_mem _ h)

/-- Nothing is forgotten as long as there is room for all the names. -/
theorem foldl_remember_of_room {early left : List RequestId}
    (h : early.length + left.length ≤ earlyLimit) : left.foldl remember early = early ++ left := by
  induction left generalizing early with
  | nil            => exact (List.append_nil _).symm
  | cons new left ih =>
      rw [List.length_cons] at h
      have hroom : ¬ early.length = earlyLimit := by omega
      have hnext : (early ++ [new]).length + left.length ≤ earlyLimit := by
        rw [List.length_append, List.length_singleton]
        omega
      rw [List.foldl_cons, remember, if_neg hroom, ih hnext, List.append_assoc]
      rfl

/-! ## Collecting -/

/-- There is room to remember all the names that no entry is found for. -/
def HasRoom (w : Witness) (synced : List RequestId) : Prop :=
  w.early.length + (sweep w.recorded synced).2.length ≤ earlyLimit

@[simp] theorem recorded_collect (w : Witness) (synced : List RequestId) :
    (w.collect synced).2.recorded = (sweep w.recorded synced).1 := rfl

/-- An entry that is held is held still, or the witness was told its name. -/
theorem held_or_told {w : Witness} {e : LogEntry} (h : e ∈ w.recorded) (synced : List RequestId) :
    e ∈ (w.collect synced).2.recorded ∨ e.id ∈ synced :=
  kept_or_named h synced

theorem remembers_collect {w : Witness} {synced : List RequestId} {id : RequestId}
    (h : (w.collect synced).2.Remembers id) : w.Remembers id ∨ id ∈ synced :=
  (mem_foldl_remember h).imp_right mem_of_mem_left

theorem mem_recorded_collect {w : Witness} {synced : List RequestId} {e : LogEntry}
    (h : e ∈ (w.collect synced).2.recorded) : e ∈ w.recorded :=
  (sublist_sweep _ _).mem h

/-- **Names and entries cancel each other**: with room for all the names, of every name the witness
    remembers as many beyond those it holds as it did before, and as many more as it was told. -/
theorem count_collect {w : Witness} {synced : List RequestId} (h : w.HasRoom synced)
    (id : RequestId) :
    (w.collect synced).2.early.count id + (w.recorded.map (·.id)).count id =
      w.early.count id + synced.count id +
        ((w.collect synced).2.recorded.map (·.id)).count id := by
  have hearly : (w.collect synced).2.early = w.early ++ (sweep w.recorded synced).2 :=
    foldl_remember_of_room h
  have hsweep := count_sweep w.recorded synced id
  rw [hearly, List.count_append, recorded_collect]
  omega

/-! ## What is held is not remembered -/

/-- No name is remembered of an entry that is held. -/
def Exclusive (w : Witness) : Prop := ∀ id, w.Holds id → ¬ w.Remembers id

theorem exclusive_record {w : Witness} (h : w.Exclusive) (e : LogEntry) (term : Term) :
    (w.record e term).2.Exclusive := by
  have hrecords := w.record_records e term
  generalize w.record e term = result at hrecords
  cases hrecords with
  | spent _ _ told             =>
      intro id hheld hearly
      exact h id hheld (List.mem_of_mem_erase hearly)
  | again _ _ untold held      => exact h
  | fresh _ _ untold unheld _  =>
      intro id hheld hearly
      rw [Holds, List.map_append, List.mem_append] at hheld
      rcases hheld with hheld | hnew
      · exact h id hheld hearly
      · obtain rfl : id = e.id := by simpa using hnew
        exact untold hearly
  | refused outcome unaccepted => exact h

theorem exclusive_collect {w : Witness} (h : w.Exclusive) (synced : List RequestId) :
    (w.collect synced).2.Exclusive := by
  intro id hheld hearly
  obtain ⟨e, he, rfl⟩ := List.mem_map.1 hheld
  rcases mem_foldl_remember hearly with hearly | hleft
  · exact h e.id (List.mem_map_of_mem (mem_recorded_collect he)) hearly
  · exact not_mem_left_of_kept he hleft

instance (w : Witness) (id : RequestId) : Decidable (w.Holds id) :=
  inferInstanceAs (Decidable (_ ∈ _))

/-- A record of a name is anew if it is accepted although no entry of that name is held. -/
def RecordsAnew (w : Witness) (e : LogEntry) (term : Term) (id : RequestId) : Prop :=
  e.id = id ∧ (w.record e term).1 = .accepted ∧ ¬ w.Holds id

instance (w : Witness) (e : LogEntry) (term : Term) (id : RequestId) :
    Decidable (w.RecordsAnew e term id) := inferInstanceAs (Decidable (_ ∧ _ ∧ _))

/-- A record anew adds an entry of its name, or uses up the name once where it is remembered.  No
    other record does either. -/
theorem count_record {w : Witness} (h : w.Exclusive) (e : LogEntry) (term : Term) (id : RequestId) :
    (w.record e term).2.early.count id + (w.recorded.map (·.id)).count id +
        (if w.RecordsAnew e term id then 1 else 0) =
      w.early.count id + ((w.record e term).2.recorded.map (·.id)).count id := by
  have hrecords := w.record_records e term
  generalize hresult : w.record e term = result at hrecords
  cases hrecords with
  | spent _ _ told             =>
      have herase := (List.perm_cons_erase told).count_eq id
      rw [List.count_cons] at herase
      by_cases hid : e.id = id
      · subst hid
        have hunheld : ¬ w.Holds e.id := fun hheld => h e.id hheld told
        rw [if_pos ⟨rfl, congrArg Prod.fst hresult, hunheld⟩]
        simp only [beq_self_eq_true, if_true] at herase
        show (w.early.erase e.id).count e.id + _ + 1 =
          w.early.count e.id + (w.recorded.map (·.id)).count e.id
        omega
      · rw [if_neg fun hanew => hid hanew.1]
        simp only [beq_iff_eq, hid, if_false, Nat.add_zero] at herase
        show (w.early.erase e.id).count id + _ + 0 =
          w.early.count id + (w.recorded.map (·.id)).count id
        omega
  | again _ _ untold held      =>
      rw [if_neg]
      · rfl
      · rintro ⟨rfl, -, hunheld⟩
        exact hunheld held
  | fresh _ _ untold unheld _  =>
      show w.early.count id + _ + _ = w.early.count id + ((w.recorded ++ [e]).map (·.id)).count id
      rw [List.map_append, List.count_append, List.map_cons, List.map_nil, List.count_singleton]
      by_cases hid : e.id = id
      · subst hid
        rw [if_pos ⟨rfl, congrArg Prod.fst hresult, unheld⟩]
        simp
        omega
      · rw [if_neg fun hanew => hid hanew.1]
        simp [hid]
  | refused outcome unaccepted =>
      rw [if_neg fun hanew => unaccepted ((congrArg Prod.fst hresult).symm.trans hanew.2.1)]
      rfl

end Witness

end WitnessReplication

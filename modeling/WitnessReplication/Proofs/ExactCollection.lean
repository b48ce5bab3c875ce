import Mathlib.Data.List.DropRight
import WitnessReplication.Proofs.WitnessRuns

/-!
# Exact collection — what goes when names are told, and what is remembered

    A witness is told names in any order, some of them twice and some that it never heard of.  The
    entries so named go and the others stay in place.  Each entry that goes uses up one name, and
    the last name of the list takes the place of the used one; so the names that are left over come
    in an order of their own, and nothing is said of it but which names they are.

    What is remembered is a queue of limited length that forgets at one end for every name that
    comes in at the other.  Told many names at once, it is as if they had all been let in first and
    then everything but the end had been forgotten (`foldl_remember_eq`).

* **`Collects`** — exactly what a collection comes to.
* **`perm_sweep`** — the names used up and those left over are the names that were told.
* **`collect_exact`** — every collection of every witness that was reached is exact.
-/

namespace WitnessReplication

namespace Witness

/-- The entries that a witness holds and is told to forget. -/
def dropped (w : Witness) (synced : List RequestId) : List LogEntry :=
  w.recorded.filter fun e => e.id ∈ synced

/-- What it means that a witness was told some names: how many entries it dropped, and the witness
    after it. -/
structure Collects (w : Witness) (synced : List RequestId) (count : Nat) (w' : Witness) : Prop where
  /-- The entries that are not named stay, in the old order. -/
  kept : w'.recorded = w.recorded.filter fun e => e.id ∉ synced
  /-- The others are counted. -/
  counted : count = (w.dropped synced).length
  /-- Each entry that goes uses up one occurrence of its name.  The names that are left over are
      remembered behind the old ones, in some order, and of all these the last ones. -/
  remembered : ∃ left, ((w.dropped synced).map (·.id) ++ left).Perm synced ∧
    w'.early = (w.early ++ left).rtake 1024
  /-- Nothing else changes. -/
  apart : w'.term = w.term ∧ w'.frozen = w.frozen

-- ── What is remembered ───────────────────────────────────────────────────────────────────────────

section Queue

variable {early left : List RequestId}

/-- To keep the end of a list that is short enough is to keep the list. -/
theorem rtake_of_length_le {α : Type} {xs : List α} {n : Nat} (h : xs.length ≤ n) :
    xs.rtake n = xs := by
  rw [List.rtake, Nat.sub_eq_zero_of_le h, List.drop_zero]

/-- A full queue forgets the oldest name for a new one, and so it keeps the end of all there was. -/
theorem remember_rtake (all : List RequestId) (new : RequestId) :
    remember (all.rtake earlyLimit) new = (all ++ [new]).rtake earlyLimit := by
  have hlength : (all.rtake earlyLimit).length = min earlyLimit all.length := by
    rw [List.rtake, List.length_drop]
    omega
  have hlimit : earlyLimit = 1023 + 1 := rfl
  rw [remember, hlength]
  split
  · rename_i hfull
    have hlong : earlyLimit ≤ all.length := by omega
    rw [hlimit, List.rtake_concat_succ, List.rtake, List.rtake, List.tail_drop]
    have hnext : all.length - (1023 + 1) + 1 = all.length - 1023 := by omega
    rw [hnext]
  · rename_i hroom
    have hshort : all.length < earlyLimit := by omega
    have hnew : (all ++ [new]).length ≤ earlyLimit := by
      rw [List.length_append, List.length_singleton]
      omega
    rw [rtake_of_length_le (Nat.le_of_lt hshort), rtake_of_length_le hnew]

/-- Told many names, a queue keeps the end of all there was and all that came. -/
theorem foldl_remember_eq (h : early.length ≤ earlyLimit) :
    left.foldl remember early = (early ++ left).rtake earlyLimit := by
  induction left using List.reverseRecOn with
  | nil                       => rw [List.append_nil, rtake_of_length_le h, List.foldl_nil]
  | append_singleton left new ih =>
      rw [List.foldl_concat, ih, remember_rtake, List.append_assoc]

end Queue

-- ── What is left over ────────────────────────────────────────────────────────────────────────────

/-- The entries that go and those that stay are all there were, by their names. -/
theorem count_map_filter (l : List LogEntry) (ids : List RequestId) (id : RequestId) :
    (l.map (·.id)).count id = ((l.filter fun e => e.id ∈ ids).map (·.id)).count id +
      ((l.filter fun e => e.id ∉ ids).map (·.id)).count id := by
  have hparts : (l.filter (fun e => e.id ∈ ids) ++ l.filter fun e => e.id ∉ ids).Perm l := by
    simpa using List.filter_append_perm (fun e : LogEntry => decide (e.id ∈ ids)) l
  rw [← List.count_append, ← List.map_append]
  exact ((hparts.map _).count_eq id).symm

/-- **The names used up and those left over are the names that were told**, where the entries are of
    distinct names. -/
theorem perm_sweep {l : List LogEntry} (h : (l.map (·.id)).Nodup) (ids : List RequestId) :
    ((l.filter fun e => e.id ∈ ids).map (·.id) ++ (sweep l ids).2).Perm ids := by
  rw [List.perm_iff_count]
  intro id
  have hsweep := count_sweep l ids id
  rw [sweep_eq_filter h] at hsweep
  have hparts := count_map_filter l ids id
  rw [List.count_append]
  omega

-- ── Collections ──────────────────────────────────────────────────────────────────────────────────

theorem Coherent.collects {w : Witness} (h : w.Coherent) (synced : List RequestId) :
    w.Collects synced (w.collect synced).1 (w.collect synced).2 where
  kept       := sweep_eq_filter h.distinct synced
  counted    := by
    show w.recorded.length - (sweep w.recorded synced).1.length = (w.dropped synced).length
    rw [sweep_eq_filter h.distinct]
    have hparts := List.length_eq_length_filter_add (l := w.recorded)
      fun e => decide (e.id ∈ synced)
    have hkept : (w.recorded.filter fun e => !decide (e.id ∈ synced)) =
        w.recorded.filter fun e => e.id ∉ synced := by simp
    rw [hkept] at hparts
    rw [dropped]
    omega
  remembered := ⟨(sweep w.recorded synced).2, perm_sweep h.distinct synced,
    foldl_remember_eq h.bounded⟩
  apart      := ⟨rfl, rfl⟩

/-- **Every collection is exact**, whatever the witness was asked before and whatever names it is
    told. -/
theorem collect_exact (term : Term) (acts : List Action) (synced : List RequestId) :
    let w := run { term } acts
    w.Collects synced (w.collect synced).1 (w.collect synced).2 :=
  ((coherent_new term).run acts).collects synced

/-- A name that is told twice is used up once, and remembered once; the last name comes to the place
    of the one that is used up. -/
example :
    let e : LogEntry := .command [97] [⟨[107]⟩] ⟨1⟩ ⟨1⟩
    let w := run { term := ⟨1⟩ } [.record e ⟨1⟩]
    w.collect [e.id, ⟨⟨2⟩, ⟨7⟩⟩, e.id] =
      (1, { term := ⟨1⟩, early := [e.id, ⟨⟨2⟩, ⟨7⟩⟩] }) := by decide

end Witness

end WitnessReplication

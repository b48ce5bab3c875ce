import WitnessReplication.Proofs.WitnessLaws

/-!
# Witness runs — what holds of a witness, whatever it is asked

    A witness may be asked anything in any order: to record an entry again, or under a wrong term;
    to forget names it never heard of, or one name twice; to hand everything over while it is
    frozen.  Five things hold of it all the same, and they hold together or not at all.  Entries
    have distinct names because a record looks for the name first; they commute because a record
    looks at all of them, unless the name was told early, and then nothing is taken in; and a name
    that is told early is the name of no entry that is held.

* **`perform`** and **`run`** — one action; a list of them.
* **`Coherent`** — the five things.
* **`coherent_perform`** — every action keeps them, one lemma for each that does something.
* **`coherent_run`** — so they hold after every run, and of every set that is handed over.
-/

namespace WitnessReplication

namespace Witness

/-- Something that is asked of a witness. -/
inductive Action where
  | record (e : LogEntry) (term : Term)
  | setTerm (term : Term)
  /-- Everything is handed over. -/
  | recover
  | unfreeze
  | collect (synced : List RequestId)
  deriving DecidableEq, Inhabited

/-- The witness after an action. -/
def perform (w : Witness) : Action → Witness
  | .record e term   => (w.record e term).2
  | .setTerm term    => w.setTerm term
  | .recover         => w.recover.2
  | .unfreeze        => w.unfreeze
  | .collect synced  => (w.collect synced).2

/-- The witness after some actions, the first one first. -/
def run (w : Witness) (acts : List Action) : Witness := acts.foldl perform w

@[simp] theorem run_nil (w : Witness) : w.run [] = w := rfl

theorem run_append (w : Witness) (xs ys : List Action) : w.run (xs ++ ys) = (w.run xs).run ys :=
  List.foldl_append

theorem run_concat (w : Witness) (acts : List Action) (a : Action) :
    w.run (acts ++ [a]) = (w.run acts).perform a := run_append w acts [a]

/-- What holds of a witness at any time. -/
structure Coherent (w : Witness) : Prop where
  commuting : w.recorded.Pairwise fun e f => e.commutesWith f = true
  distinct  : (w.recorded.map (·.id)).Nodup
  exclusive : w.Exclusive
  bounded   : w.early.length ≤ earlyLimit
  idle      : w.frozen = true → w.recorded = []

theorem coherent_new (term : Term) : Coherent { term } where
  commuting := .nil
  distinct  := .nil
  exclusive := nofun
  bounded   := Nat.zero_le _
  idle      := nofun

/-! ## One action -/

theorem coherent_record {w : Witness} (h : w.Coherent) (e : LogEntry) (term : Term) :
    (w.record e term).2.Coherent := by
  have hexclusive := exclusive_record h.exclusive e term
  have hrecords := w.record_records e term
  generalize w.record e term = result at hexclusive hrecords
  cases hrecords with
  | spent unfrozen _ told =>
      -- nothing is taken in, so that there is nothing to compare
      have hlength : (w.early.erase e.id).length ≤ w.early.length := List.length_erase_le ..
      exact ⟨h.commuting, h.distinct, hexclusive, Nat.le_trans hlength h.bounded, h.idle⟩
  | again => exact h
  | fresh unfrozen _ untold unheld commutes =>
      constructor
      · show (w.recorded ++ [e]).Pairwise _
        rw [List.pairwise_append]
        refine ⟨h.commuting, List.pairwise_singleton .., ?_⟩
        intro u hu f hf
        rw [List.mem_singleton.1 hf]
        exact commutes u hu
      · show ((w.recorded ++ [e]).map (·.id)).Nodup
        rw [List.map_append, List.nodup_append]
        refine ⟨h.distinct, List.pairwise_singleton .., ?_⟩
        rintro id hheld id' hnew rfl
        rw [List.map_singleton, List.mem_singleton] at hnew
        exact unheld (hnew ▸ hheld)
      · exact hexclusive
      · exact h.bounded
      · intro hfrozen
        rw [show w.frozen = true from hfrozen] at unfrozen
        cases unfrozen
  | refused => exact h

theorem coherent_collect {w : Witness} (h : w.Coherent) (synced : List RequestId) :
    (w.collect synced).2.Coherent := by
  have hsub : (w.collect synced).2.recorded.Sublist w.recorded := sublist_sweep ..
  constructor
  · exact h.commuting.sublist hsub
  · exact h.distinct.sublist (hsub.map _)
  · exact exclusive_collect h.exclusive synced
  · exact length_foldl_remember h.bounded _
  · intro hfrozen
    rw [h.idle hfrozen] at hsub
    exact List.sublist_nil.1 hsub

/-- To hand everything over leaves nothing that could be at odds. -/
theorem coherent_recover {w : Witness} (h : w.Coherent) : w.recover.2.Coherent where
  commuting := .nil
  distinct  := .nil
  exclusive := nofun
  bounded   := h.bounded
  idle      := fun _ => rfl

theorem coherent_perform {w : Witness} (h : w.Coherent) (a : Action) : (w.perform a).Coherent := by
  cases a with
  | record e term  => exact coherent_record h e term
  | setTerm term   => exact ⟨h.commuting, h.distinct, h.exclusive, h.bounded, h.idle⟩
  | recover        => exact coherent_recover h
  | unfreeze       => exact ⟨h.commuting, h.distinct, h.exclusive, h.bounded, nofun⟩
  | collect synced => exact coherent_collect h synced

/-! ## Runs -/

theorem Coherent.run {w : Witness} (h : w.Coherent) (acts : List Action) :
    (w.run acts).Coherent := by
  induction acts generalizing w with
  | nil            => exact h
  | cons a acts ih => exact ih (coherent_perform h a)

/-- **What holds of a witness after every run**, and therefore of every set of entries that is
    handed over: no two of them have one name, and any two commute. -/
theorem coherent_run (term : Term) (acts : List Action) :
    (run { term } acts).Coherent ∧
      ((run { term } acts).recover.1.map (·.id)).Nodup ∧
      (run { term } acts).recover.1.Pairwise fun e f => e.commutesWith f = true := by
  have h : (run { term } acts).Coherent := (coherent_new term).run acts
  exact ⟨h, h.distinct, h.commuting⟩

end Witness

end WitnessReplication

import WitnessReplication.LogEntry

/-!
# Witness — a set of commuting commands that the leader may not have synced yet

    A witness vouches for commands: if the leader fails, the next one recovers them from here and
    may replay them in any order, because no two of them touch a common key.  The leader says when
    a command needs no witness any more.  That word can overtake the record it is meant for, so a
    witness remembers, up to a limit, the names it was told about and did not hold.

* **`record`** — takes in a command, or says why not.
* **`collect`** — forgets what the leader has synced.
* **`recover`**, **`unfreeze`** — hands everything over and stops; starts again.
-/

namespace WitnessReplication

/-- What a witness says to a record. -/
inductive RecordOutcome where
  /-- It holds the command, or need not hold it because the leader has synced it. -/
  | accepted
  /-- It has handed everything over and is not started again. -/
  | frozen
  /-- The record was issued under another term than the witness's. -/
  | staleTerm
  /-- The command shares a key with one that is held. -/
  | conflict
  deriving DecidableEq, Inhabited

/-- The commands a witness holds, and the names it was told to forget before it held them, the
    oldest first. -/
structure Witness where
  term     : Term
  frozen   : Bool := false
  recorded : List LogEntry := []
  early    : List RequestId := []
  deriving DecidableEq, Inhabited

namespace Witness

/-- How many names are remembered at most. -/
def earlyLimit : Nat := 1024

/-- Takes in a command that was issued under a term. -/
def record (w : Witness) (e : LogEntry) (term : Term) : RecordOutcome × Witness :=
  if w.frozen then (.frozen, w)
  else if term ≠ w.term then (.staleTerm, w)
  else if e.id ∈ w.early then (.accepted, { w with early := w.early.erase e.id })
  else if w.recorded.any fun h => h.id = e.id then (.accepted, w)
  else if w.recorded.all fun h => h.commutesWith e then
    (.accepted, { w with recorded := w.recorded ++ [e] })
  else (.conflict, w)

/-- A record that is not accepted changes nothing. -/
theorem record_of_ne_accepted {w : Witness} {e : LogEntry} {term : Term}
    (h : (w.record e term).1 ≠ .accepted) : (w.record e term).2 = w := by
  unfold record at h ⊢
  split
  · rfl
  · split
    · rfl
    · split
      · simp_all
      · split
        · rfl
        · split
          · simp_all
          · rfl

/-- Takes in commands one after the other. -/
def recordAll (w : Witness) (es : List LogEntry) (term : Term) : List RecordOutcome × Witness :=
  match es with
  | []     => ([], w)
  | e :: r =>
      let (o, w) := w.record e term
      let (os, w) := w.recordAll r term
      (o :: os, w)

/-- Moves to a term. -/
def setTerm (w : Witness) (term : Term) : Witness := { w with term }

/-- Hands over everything that is held, and holds nothing more until it is unfrozen. -/
def recover (w : Witness) : List LogEntry × Witness :=
  (w.recorded, { w with frozen := true, recorded := [] })

/-- Lets the witness record again. -/
def unfreeze (w : Witness) : Witness := { w with frozen := false }

/-! ## Collecting -/

/-- Takes the element at a position out of a list: the last element moves to its place. -/
def swapRemove {α : Type} (xs : List α) (i : Nat) : List α :=
  match xs.getLast? with
  | some last => (xs.set i last).dropLast
  | none      => []

/-- Drops the held entries that are named.  Returns the entries that stay and the names that no
    entry was found for; each entry uses up one name. -/
def sweep : List LogEntry → List RequestId → List LogEntry × List RequestId
  | [], ids     => ([], ids)
  | e :: r, ids =>
      match ids.idxOf? e.id with
      | some i => sweep r (swapRemove ids i)
      | none   =>
          let (kept, left) := sweep r ids
          (e :: kept, left)

/-- Remembers a name, and forgets the oldest one if there are too many. -/
def remember (early : List RequestId) (id : RequestId) : List RequestId :=
  if early.length = earlyLimit then early.tail ++ [id] else early ++ [id]

/-- Forgets the commands that the leader has synced, and remembers the names it held no command
    for.  Returns how many commands were dropped. -/
def collect (w : Witness) (synced : List RequestId) : Nat × Witness :=
  let (kept, left) := sweep w.recorded synced
  (w.recorded.length - kept.length,
    { w with recorded := kept, early := left.foldl remember w.early })

end Witness

end WitnessReplication

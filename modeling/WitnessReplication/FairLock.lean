/-!
# Fair locks — one at a time, in the order of arrival

    A lock is the line of those who want it.  The first in line holds it; whoever leaves, whether
    done or tired of waiting, makes room for the next.

* **`holds_unique`** — two do not hold a lock at once.
-/

namespace WitnessReplication

/-- The numbers of those who hold or want a lock, in the order of arrival. -/
structure FairLock where
  line : List Nat := []
  deriving DecidableEq, Inhabited

namespace FairLock

/-- Joins the end of the line. -/
def join (l : FairLock) (who : Nat) : FairLock := ⟨l.line ++ [who]⟩

/-- Leaves the line. -/
def leave (l : FairLock) (who : Nat) : FairLock := ⟨l.line.erase who⟩

/-- Whether somebody is first in line. -/
def holds (l : FairLock) (who : Nat) : Bool := l.line.head? == some who

/-- Two do not hold a lock at once. -/
theorem holds_unique {l : FairLock} {a b : Nat} (ha : l.holds a = true) (hb : l.holds b = true) :
    a = b := by
  have ha' : l.line.head? = some a := by simpa [holds] using ha
  have hb' : l.line.head? = some b := by simpa [holds] using hb
  rw [ha'] at hb'
  exact Option.some.inj hb'

end FairLock

end WitnessReplication

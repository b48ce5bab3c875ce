import WitnessReplication.Kv.Command
import WitnessReplication.StateMachine

/-!
# The key-value store — the state machine that commands run on

* **`Store.run`** — what a command does to the map and the counter, and what it answers.
* The **`StateMachine`** instance — the same on payloads: one that is no command changes nothing
  and is answered with nothing.
-/

namespace WitnessReplication.Kv

/-- Texts under text keys, the newest first and each key once, and a counter. -/
structure Store where
  map     : List (String × String) := []
  counter : UInt64 := 0
  deriving DecidableEq, Inhabited

namespace Store

/-- The text under a key, if one was set. -/
def get? (s : Store) (key : String) : Option String := s.map.lookup key

/-- Puts a text under a key, in place of what was there. -/
def set (s : Store) (key value : String) : Store :=
  { s with map := (key, value) :: s.map.filter fun p => p.1 != key }

/-- A text that was set is there. -/
theorem get?_set_self (s : Store) (key value : String) :
    (s.set key value).get? key = some value := by
  simp [get?, set]

/-- Setting a text leaves the texts under other keys alone. -/
theorem get?_set_of_ne (s : Store) {key other : String} (value : String) (h : other ≠ key) :
    (s.set key value).get? other = s.get? other := by
  have hk : (other == key) = false := by simpa using h
  simp only [get?, set, List.lookup_cons, hk]
  induction s.map with
  | nil => rfl
  | cons p r ih =>
      obtain ⟨k, v⟩ := p
      by_cases hkk : k = key
      · simp [hkk, List.lookup_cons, hk, ih]
      · by_cases hko : other = k
        · simp [hkk, hko]
        · have hne : (other == k) = false := by simpa using hko
          simp [hkk, List.lookup_cons, hne, ih]

/-- Does what a command asks.  A `set` is answered with nothing. -/
def run (s : Store) : Command → Store × Option Result
  | .get key       => (s, some ⟨(s.get? key).getD "", 0⟩)
  | .set key value => (s.set key value, none)
  | .inc           =>
      let counter := s.counter + 1
      ({ s with counter }, some ⟨"", counter⟩)

instance : StateMachine Store where
  apply s payload :=
    match Command.decode? payload with
    | none   => (s, none)
    | some c =>
        let (s', result) := s.run c
        (s', result.map Result.encode)

/-- Runs payloads one after the other and collects what each is answered with. -/
def replay (s : Store) : List Bytes → List Bytes
  | []     => []
  | p :: r =>
      let (s', out) := StateMachine.execute s p
      out :: s'.replay r

end Store

end WitnessReplication.Kv

import WitnessReplication.Bytes

/-!
# State machines — the application behind a replica

    A replica does not know what its commands mean.  It hands their payloads to a state machine, in
    some order, at most once each, and keeps the answers.

* **`StateMachine`** — a state that takes in one payload and answers it, perhaps with nothing.
* **`Echo`**, **`Tally`**, **`Mute`** — three small applications: one answers with the command, one
  with how many commands it has taken in, one with nothing.
-/

namespace WitnessReplication

/-- A state that takes in one command at a time.  `none` is an answer without data. -/
class StateMachine (σ : Type) where
  apply : σ → Bytes → σ × Option Bytes

/-- Applies a command; an answer without data is no octets. -/
def StateMachine.execute {σ : Type} [StateMachine σ] (s : σ) (command : Bytes) : σ × Bytes :=
  let (s', out) := apply s command
  (s', out.getD [])

/-- Answers every command with the command. -/
structure Echo where
  deriving DecidableEq, Inhabited

instance : StateMachine Echo where
  apply s command := (s, some command)

/-- Answers every command with how many it has taken in, in decimal. -/
structure Tally where
  applied : Nat := 0
  deriving DecidableEq, Inhabited

instance : StateMachine Tally where
  apply s _ := (⟨s.applied + 1⟩, some (Bytes.ofText (toString (s.applied + 1))))

/-- Answers nothing. -/
structure Mute where
  deriving DecidableEq, Inhabited

instance : StateMachine Mute where
  apply s _ := (s, none)

end WitnessReplication

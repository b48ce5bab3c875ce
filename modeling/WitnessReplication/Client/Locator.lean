import WitnessReplication.Client.Pool
import WitnessReplication.Client.Error

/-!
# Locator — where to look for the leader next

    A leader-directed request is tried at the member that is believed to lead.  What the member
    says, or that it says nothing, decides what happens next.

* **`Locator.verdict`** — what follows from one try.
-/

namespace WitnessReplication.Locator

/-- What follows from one try. -/
inductive Verdict where
  /-- The member took the request. -/
  | accepted (reply : Reply)
  /-- What came back is no reply: trying elsewhere would hide a broken member. -/
  | malformed (error : SessionError)
  /-- Try at another member. -/
  | retarget (guess : Nat)
  /-- The member knows no leader, so there may be an election: wait, then ask it again. -/
  | backOff
  deriving DecidableEq, Inhabited

/-- The member after another one, round the list. -/
def next (p : Pool) (guess : Nat) : Nat := (guess + 1) % p.size

/-- What follows from a try at a member: a refusal with a hint leads to the member it names, if
    that member is listed, and any other failure to the next one. -/
def verdict (p : Pool) (guess : Nat) : Except TransportError Reply → Verdict
  | .error e =>
      if e.kind = .malformed then .malformed (.malformedResponse e.text)
      else .retarget (next p guess)
  | .ok reply =>
      if reply.accepted then .accepted reply
      else match reply.hint with
        | some a => .retarget ((p.indexOf? a).getD (next p guess))
        | none   => .backOff

/-- A try is the last one exactly if the member takes the request or answers nonsense. -/
theorem verdict_eq_accepted_iff {p : Pool} {guess : Nat} {outcome : Except TransportError Reply}
    {reply : Reply} :
    verdict p guess outcome = .accepted reply ↔ outcome = .ok reply ∧ reply.accepted = true := by
  cases outcome with
  | error e =>
      by_cases h : e.kind = .malformed
      · simp [verdict, h]
      · simp [verdict, h]
  | ok r =>
      by_cases h : r.accepted = true
      · simp only [verdict, h, if_true, Verdict.accepted.injEq, Except.ok.injEq]
        exact ⟨fun e => ⟨e, e ▸ h⟩, And.left⟩
      · have hn : ¬ (Except.ok r = (Except.ok reply : Except TransportError Reply) ∧
            reply.accepted = true) := by
          rintro ⟨he, ha⟩
          exact h (Except.ok.inj he ▸ ha)
        cases hh : r.hint with
        | none   => simpa [verdict, h, hh] using hn
        | some a => simpa [verdict, h, hh] using hn

/-- A guess inside the list is followed by one inside the list. -/
theorem next_lt {p : Pool} (guess : Nat) (h : 0 < p.size) : next p guess < p.size :=
  Nat.mod_lt _ h

end WitnessReplication.Locator

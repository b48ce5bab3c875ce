import WitnessReplication.Text.Duration

/-!
# Session options — what a user may set, and what a session runs with

* **`SessionOptions`** — every setting may be left out.
* **`SessionSettings`** — every setting is there and makes sense.
* **`SessionOptions.validate`** — fills in the defaults, or names the first fault.
* **`WitnessSelection.witnesses`** — at which members a command is recorded.
-/

namespace WitnessReplication

/-- How often, how long and how fast an attempt to commit a command is repeated. -/
structure RetryPolicy where
  /-- The most attempts; without it there is no such bound. -/
  maxAttempts : Option Nat := some 10
  /-- The most time, over all attempts, in nanoseconds. -/
  deadline    : Option Nat := none
  /-- The pause between two attempts, in nanoseconds. -/
  backoff     : Nat := Duration.ofMillis 10
  deriving DecidableEq, Inhabited

/-- At which members a command is recorded. -/
inductive WitnessSelection where
  /-- At every member but the one that is believed to lead: it gets the command anyway. -/
  | excludeLeader
  /-- At every member. -/
  | allMembers
  deriving DecidableEq, Inhabited

namespace WitnessSelection

/-- The name of a selection. -/
def name : WitnessSelection → String
  | .excludeLeader => "ExcludeLeader"
  | .allMembers    => "AllMembers"

/-- The members, by their place in the list, at which a command is recorded. -/
def witnesses (s : WitnessSelection) (members leader : Nat) : List Nat :=
  match s with
  | .excludeLeader => (List.range members).filter (· ≠ leader)
  | .allMembers    => List.range members

/-- Members, and only members, are selected. -/
theorem lt_of_mem_witnesses {s : WitnessSelection} {members leader w : Nat}
    (h : w ∈ s.witnesses members leader) : w < members := by
  cases s with
  | excludeLeader => exact List.mem_range.1 (List.mem_filter.1 h).1
  | allMembers    => exact List.mem_range.1 h

/-- Every member but the one that is believed to lead is selected, whatever the selection. -/
theorem mem_witnesses {s : WitnessSelection} {members leader w : Nat} (h : w < members)
    (hw : w ≠ leader) : w ∈ s.witnesses members leader := by
  cases s with
  | excludeLeader => exact List.mem_filter.2 ⟨List.mem_range.2 h, by simpa using hw⟩
  | allMembers    => exact List.mem_range.2 h

end WitnessSelection

/-- Settings of a session, each of which may be left out. -/
structure SessionOptions where
  leaderBackoff : Option Nat := none
  retry         : Option RetryPolicy := none
  selection     : Option WitnessSelection := none
  firstSeq      : Option UInt64 := none
  deriving DecidableEq, Inhabited

/-- What a session runs with: no pause and no bound is zero. -/
structure SessionSettings where
  leaderBackoff     : Nat
  retry             : RetryPolicy
  selection         : WitnessSelection
  firstSeq          : UInt64
  leaderBackoff_pos : 0 < leaderBackoff
  maxAttempts_ne    : retry.maxAttempts ≠ some 0
  deadline_ne       : retry.deadline ≠ some 0
  backoff_pos       : 0 < retry.backoff

namespace SessionOptions

/-- What can be wrong with the options, in the order in which it is looked for. -/
inductive Fault where
  | zeroLeaderBackoff
  | noAttempts
  | zeroDeadline
  | zeroBackoff
  deriving DecidableEq, Inhabited

/-- The wording of a fault. -/
def Fault.message : Fault → String
  | .zeroLeaderBackoff =>
      "Leader backoff must be non-zero, or an election would be polled in a hot loop"
  | .noAttempts        => "Retry policy must allow at least one attempt"
  | .zeroDeadline      => "Retry deadline must be non-zero"
  | .zeroBackoff       => "Retry backoff must be non-zero"

/-- Fills in what is left out: a tenth of a second between two questions for the leader, ten
    attempts with ten milliseconds between them, recording at all but the leader, and numbers from
    zero on. -/
def validate (o : SessionOptions) : Except Fault SessionSettings :=
  let leaderBackoff := o.leaderBackoff.getD (Duration.ofMillis 100)
  let retry := o.retry.getD {}
  let selection := o.selection.getD .excludeLeader
  let firstSeq := o.firstSeq.getD 0
  if hl : leaderBackoff = 0 then .error .zeroLeaderBackoff
  else if ha : retry.maxAttempts = some 0 then .error .noAttempts
  else if hd : retry.deadline = some 0 then .error .zeroDeadline
  else if hb : retry.backoff = 0 then .error .zeroBackoff
  else .ok ⟨leaderBackoff, retry, selection, firstSeq,
    Nat.pos_of_ne_zero hl, ha, hd, Nat.pos_of_ne_zero hb⟩

end SessionOptions

end WitnessReplication

/-!
# Identity — who sent a command, and which of its commands it is

    The cluster hands each session a client id; the session numbers its commands itself.  The pair
    of the two names a command everywhere: in the response cache, at the witnesses, and in the
    batches that tell the witnesses what is synced.

* **`ClientId`**, **`SeqNo`**, **`Term`** — words of 64 bits that must not be mixed up.
* **`RequestId`** — the name of a command.
* **`Identity`** — a session's client id with the number its next command gets.
-/

namespace WitnessReplication

/-- The number the cluster gave to a session.  Zero means that none is assigned. -/
structure ClientId where
  val : UInt64
  deriving DecidableEq, Inhabited

/-- The number a session gave to one of its commands. -/
structure SeqNo where
  val : UInt64
  deriving DecidableEq, Inhabited

/-- The number of a leader's reign. -/
structure Term where
  val : UInt64
  deriving DecidableEq, Inhabited

/-- The later of two terms. -/
def Term.max (s t : Term) : Term := if s.val < t.val then t else s

/-- The name of a command: the session that issued it and its number there. -/
structure RequestId where
  client : ClientId
  seq    : SeqNo
  deriving DecidableEq, Inhabited

/-- A session's client id, with the number that its next command gets. -/
structure Identity where
  client : ClientId
  next   : SeqNo
  deriving DecidableEq, Inhabited

namespace Identity

/-- Takes the next number.  After the largest word the count starts again at zero. -/
def take (i : Identity) : SeqNo × Identity :=
  (i.next, { i with next := ⟨i.next.val + 1⟩ })

/-- The numbers of the next `n` commands, in the order they are taken. -/
def takeMany (i : Identity) : Nat → List SeqNo
  | 0     => []
  | n + 1 => i.take.1 :: i.take.2.takeMany n

end Identity

end WitnessReplication

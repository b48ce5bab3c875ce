import WitnessReplication.Bytes
import WitnessReplication.Identity

/-!
# Log entries — commands as they travel to the leader and the witnesses

    A command names the keys it touches.  Two commands without a common key may be applied in
    either order with the same result, and this is all that the leader and the witnesses know about
    what a command does.

* **`LogEntry.id`** — the name under which an entry is executed once, held and collected.
* **`LogEntry.commutesWith`** — neither entry names a key of the other.
-/

namespace WitnessReplication

/-- Whether an entry carries a command or only holds a place in the log. -/
inductive EntryKind where
  | command
  | noop
  deriving DecidableEq, Inhabited

/-- An opaque tag: entries that share one must keep their order. -/
structure Key where
  bytes : Bytes
  deriving DecidableEq, Inhabited

/-- A command of a client, with the keys it touches and its name. -/
structure LogEntry where
  kind   : EntryKind
  data   : Bytes
  keys   : List Key
  client : ClientId
  seq    : SeqNo
  deriving DecidableEq, Inhabited

namespace LogEntry

/-- An entry that carries a command. -/
def command (data : Bytes) (keys : List Key) (client : ClientId) (seq : SeqNo) : LogEntry :=
  ⟨.command, data, keys, client, seq⟩

/-- The name of the entry. -/
def id (e : LogEntry) : RequestId := ⟨e.client, e.seq⟩

/-- No key of the first entry is a key of the second. -/
def commutesWith (e f : LogEntry) : Bool :=
  !e.keys.any fun k => f.keys.contains k

/-- To commute is to have no key in common. -/
theorem commutesWith_iff {e f : LogEntry} :
    e.commutesWith f = true ↔ ∀ k ∈ e.keys, k ∉ f.keys := by
  simp [commutesWith]

/-- Commuting does not depend on which entry is named first. -/
theorem commutesWith_comm (e f : LogEntry) : e.commutesWith f = f.commutesWith e := by
  rw [Bool.eq_iff_iff, commutesWith_iff, commutesWith_iff]
  exact ⟨fun h k hf he => h k he hf, fun h k he hf => h k hf he⟩

end LogEntry

end WitnessReplication

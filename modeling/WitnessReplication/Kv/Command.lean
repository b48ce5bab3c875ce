import WitnessReplication.Wire.Field
import WitnessReplication.LogEntry

/-!
# Key-value commands — what clients ask of the store, as payloads

    The store holds texts under text keys and one counter.  A command travels as the payload of a
    log entry, so it has a form in octets, and it names the keys it touches, so that the cluster
    knows which commands commute.  All increments touch one reserved key.

* **`Command.keys`** — the keys a command touches.
* **`Command.encode`**, **`Command.decode?`** — a command as a payload, and back; a payload that is
  no command is `none`.
* **`Result.encode`**, **`Result.decode?`** — the same for what `get` and `inc` answer.
-/

namespace WitnessReplication.Kv

open Wire

/-- What a client can ask of the store. -/
inductive Command where
  | get (key : String)
  | set (key value : String)
  | inc
  deriving DecidableEq, Inhabited

/-- What the store answers to `get` and `inc`. -/
structure Result where
  value   : String
  counter : UInt64
  deriving DecidableEq, Inhabited

/-! ## Keys -/

/-- The key that every increment touches. -/
def counterKey : Key := ⟨[1]⟩

/-- The keys that a command touches. -/
def Command.keys : Command → List Key
  | .get key   => [⟨Bytes.ofText key⟩]
  | .set key _ => [⟨Bytes.ofText key⟩]
  | .inc       => [counterKey]

/-! ## Commands as payloads -/

namespace Command

/-- A command as a payload: which of the three it is by the number of its only field. -/
def encode : Command → Bytes
  | .get key       => encodeFields (Field.part 1 (Field.text 1 key))
  | .set key value => encodeFields (Field.part 2 (Field.text 1 key ++ Field.text 2 value))
  | .inc           => encodeFields (Field.part 3 [])

/-- Takes a field into what a `get` asks for. -/
def mergeGet : Merge String := fun budget key f =>
  match f.number with
  | 1 => f.payload.text?
  | _ => passOver budget key

/-- Takes a field into what a `set` asks for. -/
def mergeSet : Merge (String × String) := fun budget (key, value) f =>
  match f.number with
  | 1 => f.payload.text?.map fun k => (k, value)
  | 2 => f.payload.text?.map fun v => (key, v)
  | _ => passOver budget (key, value)

/-- Takes a field into an `inc`, which asks for nothing. -/
def mergeInc : Merge Unit := fun budget m _ => passOver budget m

/-- Takes a field into the command read so far: the same kind of command is extended, another kind
    replaces it. -/
def merge : Merge (Option Command) := fun budget c f =>
  match f.number, c with
  | 1, some (.get k)   => (f.payload.part? mergeGet budget k).map fun k => some (.get k)
  | 1, _               => (f.payload.part? mergeGet budget "").map fun k => some (.get k)
  | 2, some (.set k v) => (f.payload.part? mergeSet budget (k, v)).map fun (k, v) => some (.set k v)
  | 2, _               => (f.payload.part? mergeSet budget ("", "")).map
                            fun (k, v) => some (.set k v)
  | 3, _               => (f.payload.part? mergeInc budget ()).map fun _ => some .inc
  | _, c               => passOver budget c

/-- The command that a payload spells, if it spells one. -/
def decode? (bs : Bytes) : Option Command :=
  (readMessage? merge nestingLimit none bs).join

end Command

/-! ## Results as octets -/

namespace Result

/-- A result as octets. -/
def encode (r : Result) : Bytes :=
  encodeFields (Field.text 1 r.value ++ Field.word 2 r.counter)

/-- Takes a field into a result. -/
def merge : Merge Result := fun budget r f =>
  match f.number with
  | 1 => f.payload.text?.map fun v => { r with value := v }
  | 2 => f.payload.word?.map fun n => { r with counter := n }
  | _ => passOver budget r

/-- The result that octets spell. -/
def decode? (bs : Bytes) : Option Result :=
  readMessage? merge nestingLimit ⟨"", 0⟩ bs

end Result

end WitnessReplication.Kv

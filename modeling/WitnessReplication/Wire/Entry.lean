import WitnessReplication.Wire.Field
import WitnessReplication.Message

/-!
# Entries on the wire — headers, request names and log entries

    What the messages share.  A log entry is read in two steps: the fields give a `RawEntry`, whose
    kind is still the number that was written, and `RawEntry.entry` turns it into a log entry or
    says why it is malformed.  So octets that are no message at all and messages that make no
    sense stay apart.

* **`RawEntry.entry`** — fails exactly when the kind's number is neither 0 nor 1.
* **`Malformation.message`** — the wording of what is wrong with a message.
-/

namespace WitnessReplication.Wire

/-- What can be wrong with a message whose octets could be read. -/
inductive Malformation where
  | unknownKind (code : Int)
  | missingEntry (message : String)
  deriving DecidableEq, Inhabited

/-- What is wrong, in words. -/
def Malformation.reason : Malformation → String
  | .unknownKind code  => s!"Unknown log entry type {code}"
  | .missingEntry name => s!"{name} is missing its log entry"

/-- The wording of a malformed message, given what is wrong. -/
def malformedMessage (reason : String) : String := "Malformed message: " ++ reason

/-- The wording of what is wrong. -/
def Malformation.message (m : Malformation) : String := malformedMessage m.reason

/-- A log entry as it is written: the kind by its number. -/
structure RawEntry where
  kind   : UInt32
  data   : Bytes
  keys   : List Bytes
  client : UInt64
  seq    : UInt64
  deriving DecidableEq, Inhabited

/-! ## Headers -/

/-- The fields of a header. -/
def headerFields (h : Header) : List Field := Field.word 1 h.version.toUInt64

/-- Takes a field into a header. -/
def mergeHeader : Merge Header := fun budget h f =>
  match f.number with
  | 1 => f.payload.word?.map fun v => ⟨v.toUInt32⟩
  | _ => passOver budget h

/-! ## Names of commands -/

/-- The fields of a command's name. -/
def requestIdFields (id : RequestId) : List Field :=
  Field.word 1 id.client.val ++ Field.word 2 id.seq.val

/-- Takes a field into a command's name. -/
def mergeRequestId : Merge RequestId := fun budget id f =>
  match f.number with
  | 1 => f.payload.word?.map fun v => { id with client := ⟨v⟩ }
  | 2 => f.payload.word?.map fun v => { id with seq := ⟨v⟩ }
  | _ => passOver budget id

/-! ## Log entries -/

namespace RawEntry

/-- The entry before any field is read. -/
def blank : RawEntry := ⟨0, [], [], 0, 0⟩

/-- The fields of an entry. -/
def fields (e : RawEntry) : List Field :=
  Field.word 1 e.kind.toUInt64
    ++ Field.octets 2 e.data
    ++ e.keys.map (fun k => ⟨3, .bytes k⟩)
    ++ Field.word 4 e.client
    ++ Field.word 5 e.seq

/-- Takes a field into an entry. -/
def merge : Merge RawEntry := fun budget e f =>
  match f.number with
  | 1 => f.payload.word?.map fun v => { e with kind := v.toUInt32 }
  | 2 => f.payload.octets?.map fun b => { e with data := b }
  | 3 => f.payload.octets?.map fun b => { e with keys := e.keys ++ [b] }
  | 4 => f.payload.word?.map fun v => { e with client := v }
  | 5 => f.payload.word?.map fun v => { e with seq := v }
  | _ => passOver budget e

/-- The number a kind is written as. -/
def kindCode : EntryKind → UInt32
  | .command => 0
  | .noop    => 1

/-- The entry as it is written. -/
def ofEntry (e : LogEntry) : RawEntry :=
  ⟨kindCode e.kind, e.data, e.keys.map (·.bytes), e.client.val, e.seq.val⟩

/-- The log entry, unless its kind is unknown. -/
def entry (e : RawEntry) : Except Malformation LogEntry :=
  let known kind := ⟨kind, e.data, e.keys.map (⟨·⟩), ⟨e.client⟩, ⟨e.seq⟩⟩
  if e.kind = 0 then .ok (known .command)
  else if e.kind = 1 then .ok (known .noop)
  else .error (.unknownKind e.kind.toInt32.toInt)

/-- An entry is what is read from the entry as it is written. -/
theorem entry_ofEntry (e : LogEntry) : (ofEntry e).entry = .ok e := by
  obtain ⟨kind, data, keys, ⟨client⟩, ⟨seq⟩⟩ := e
  have hk : (keys.map (·.bytes)).map (fun b => (⟨b⟩ : Key)) = keys := by
    rw [List.map_map]
    exact List.map_id keys
  cases kind
  · simp only [ofEntry, entry, kindCode, hk, if_pos]
  · have h10 : ¬ (1 : UInt32) = 0 := by decide
    simp only [ofEntry, entry, kindCode, hk, if_neg h10, if_pos]

/-- A message that cannot do without its entry. -/
def required (message : String) : Option RawEntry → Except Malformation LogEntry
  | some e => e.entry
  | none   => .error (.missingEntry message)

/-- A message that may come without an entry. -/
def optional : Option RawEntry → Except Malformation (Option LogEntry)
  | some e => e.entry.map some
  | none   => .ok none

/-- Every entry of a list, or what is wrong with the first that is malformed. -/
def all : List RawEntry → Except Malformation (List LogEntry)
  | []     => .ok []
  | e :: r =>
      match e.entry, all r with
      | .error m, _     => .error m
      | .ok _, .error m => .error m
      | .ok x, .ok xs   => .ok (x :: xs)

end RawEntry

end WitnessReplication.Wire

import WitnessReplication.Wire.Varint

/-!
# Fields — a message on the wire is a list of numbered fields

    A message is written as a sequence of fields, each under a key that holds its number and how
    its payload is delimited.  Reading has two halves.  The first, `fields?`, cuts the octets into
    fields without knowing the message; the second folds them into a message, each message by its
    own `merge`, so that a later field of the same number overrides or extends an earlier one and a
    number nobody knows is passed over.

    Groups are an old way to nest fields between two keys.  No message here uses them, but they are
    valid fields of unknown number, so they are checked for their shape and passed over.  How deep
    messages and groups may nest is bounded by a budget.

* **`Field.encode`** — a field as octets.
* **`fields?`** — the fields of a message.
* **`readMessage?`** — a message, from its `merge` and what it is before any field is read.
-/

namespace WitnessReplication.Wire

/-- What a field holds, by how it is delimited. -/
inductive Payload where
  | varint (value : UInt64)
  | fixed64 (octets : Bytes)
  | bytes (octets : Bytes)
  | group
  | fixed32 (octets : Bytes)
  deriving DecidableEq, Inhabited

/-- A numbered field. -/
structure Field where
  number  : Nat
  payload : Payload
  deriving DecidableEq, Inhabited

/-! ## Writing -/

/-- The code in a key that tells how the payload is delimited. -/
def Payload.code : Payload → Nat
  | .varint _  => 0
  | .fixed64 _ => 1
  | .bytes _   => 2
  | .group     => 3
  | .fixed32 _ => 5

/-- The key under which a field of the given number and delimiting code is written. -/
def key (number code : Nat) : Bytes := Varint.encode (UInt64.ofNat (8 * number + code))

/-- A field as octets. -/
def Field.encode (f : Field) : Bytes :=
  key f.number f.payload.code ++ match f.payload with
    | .varint v  => Varint.encode v
    | .fixed64 b => b
    | .bytes b   => Varint.encode (UInt64.ofNat b.length) ++ b
    | .group     => key f.number 4
    | .fixed32 b => b

/-- Fields as octets, one after the other. -/
def encodeFields (fs : List Field) : Bytes := fs.flatMap Field.encode

namespace Field

/-- A number, left out when it is zero. -/
def word (number : Nat) (v : UInt64) : List Field :=
  if v = 0 then [] else [⟨number, .varint v⟩]

/-- A truth value, left out when it is false. -/
def flag (number : Nat) (b : Bool) : List Field :=
  if b then [⟨number, .varint 1⟩] else []

/-- Octets, left out when there are none. -/
def octets (number : Nat) (b : Bytes) : List Field :=
  if b = [] then [] else [⟨number, .bytes b⟩]

/-- A text, left out when it is empty. -/
def text (number : Nat) (s : String) : List Field := octets number (Bytes.ofText s)

/-- A part that is present, written even when nothing is in it. -/
def part (number : Nat) (fs : List Field) : List Field :=
  [⟨number, .bytes (encodeFields fs)⟩]

end Field

/-! ## Reading -/

/-- What stands first on the wire. -/
inductive Token where
  | field (f : Field)
  | opens (number : Nat)
  | closes (number : Nat)

/-- A key is smaller than this: it fits into 32 bits. -/
def keyBound : Nat := 4294967296

/-- The number and the delimiting code of the key in front.  A number is at least one. -/
def readKey? (bs : Bytes) : Option (Nat × Nat × Bytes) :=
  match Varint.decode? bs with
  | none        => none
  | some (v, r) =>
      if v.toNat < keyBound ∧ 8 ≤ v.toNat then some (v.toNat / 8, v.toNat % 8, r) else none

/-- The first `n` octets and the rest, if there are that many. -/
def split? (n : Nat) (bs : Bytes) : Option (Bytes × Bytes) :=
  if n ≤ bs.length then some (bs.take n, bs.drop n) else none

/-- What stands first on the wire, and the rest. -/
def Token.read? (bs : Bytes) : Option (Token × Bytes) :=
  match readKey? bs with
  | none => none
  | some (n, code, r) =>
      match code with
      | 0 => (Varint.decode? r).map fun (v, r) => (.field ⟨n, .varint v⟩, r)
      | 1 => (split? 8 r).map fun (b, r) => (.field ⟨n, .fixed64 b⟩, r)
      | 2 => (Varint.decode? r).bind fun (v, r) =>
               (split? v.toNat r).map fun (b, r) => (.field ⟨n, .bytes b⟩, r)
      | 3 => some (.opens n, r)
      | 4 => some (.closes n, r)
      | 5 => (split? 4 r).map fun (b, r) => (.field ⟨n, .fixed32 b⟩, r)
      | _ => none

/-- Cuts octets into fields.  `inside` holds the numbers of the groups that are open, the innermost
    first; what stands inside a group costs one of the budget per group and is passed over.  The
    count bounds the tokens still to come. -/
def scan (budget : Nat) : Nat → List Nat → Bytes → Option (List Field)
  | _, [], []                => some []
  | _, _ :: _, []            => none
  | 0, _, _ :: _             => none
  | k + 1, [], b :: bs       =>
      match Token.read? (b :: bs) with
      | some (.field f, r)  => (scan budget k [] r).map (f :: ·)
      | some (.opens n, r)  => (scan budget k [n] r).map (⟨n, .group⟩ :: ·)
      | _                   => none
  | k + 1, n :: out, b :: bs =>
      match Token.read? (b :: bs) with
      | some (.closes m, r) => if m = n then scan budget k out r else none
      | some (.field _, r)  => if out.length + 1 < budget then scan budget k (n :: out) r else none
      | some (.opens m, r)  =>
          if out.length + 1 < budget then scan budget k (m :: n :: out) r else none
      | none                => none

/-- The fields of a message, in the order they are written. -/
def fields? (budget : Nat) (bs : Bytes) : Option (List Field) := scan budget bs.length [] bs

/-- The budget of a message that is not part of another. -/
def nestingLimit : Nat := 100

/-- How a message takes in one of its fields, within a nesting budget. -/
abbrev Merge (α : Type) := Nat → α → Field → Option α

/-- Reads a message: its fields, one after the other, into what it is before any of them. -/
def readMessage? {α : Type} (merge : Merge α) (budget : Nat) (start : α) (bs : Bytes) : Option α :=
  (fields? budget bs).bind fun fs => fs.foldlM (merge budget) start

namespace Payload

/-- The payload as a number. -/
def word? : Payload → Option UInt64
  | .varint v => some v
  | _         => none

/-- The payload as a truth value: every number but zero is true. -/
def flag? : Payload → Option Bool
  | .varint v => some (v != 0)
  | _         => none

/-- The payload as octets. -/
def octets? : Payload → Option Bytes
  | .bytes b => some b
  | _        => none

/-- The payload as a text. -/
def text? : Payload → Option String
  | .bytes b => Bytes.toText? b
  | _        => none

/-- The payload as a part of the message, read into what the part is so far.  Going into a part
    costs one of the budget. -/
def part? {α : Type} (p : Payload) (merge : Merge α) (budget : Nat) (start : α) : Option α :=
  match p, budget with
  | .bytes b, k + 1 => readMessage? merge k start b
  | _, _            => none

end Payload

/-- Takes in a field whose number the message does not know: it changes nothing. -/
def passOver {α : Type} (budget : Nat) (m : α) : Option α :=
  if 0 < budget then some m else none

end WitnessReplication.Wire

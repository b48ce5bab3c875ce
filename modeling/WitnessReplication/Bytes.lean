/-!
# Bytes — payloads, keys and texts as lists of octets

    Everything the cluster carries without looking inside is a list of octets: command payloads,
    commutativity keys, responses, encoded messages.  A list, and not an array, so that the codecs
    are structural recursions.

* **`Bytes.ofText`** and **`Bytes.toText?`** — a text as its UTF-8 octets, and back.
* **`toText?_ofText`** — the second undoes the first.
* **`Bytes.hex`** and **`Bytes.ofHex?`** — two lowercase digits per octet, and back.
-/

namespace WitnessReplication

/-- A string of octets. -/
abbrev Bytes := List UInt8

namespace Bytes

/-- The UTF-8 octets of a text. -/
def ofText (s : String) : Bytes := s.toUTF8.data.toList

/-- The text whose UTF-8 octets these are, if they are valid UTF-8. -/
def toText? (bs : Bytes) : Option String := String.fromUTF8? ⟨bs.toArray⟩

/-- Reading the octets of a text gives the text back. -/
theorem toText?_ofText (s : String) : toText? (ofText s) = some s := by
  have h : (ByteArray.mk (ofText s).toArray) = s.toUTF8 := by
      simp [ofText]
  rw [toText?, h, String.fromUTF8?, String.toUTF8_eq_toByteArray, dif_pos s.isValidUTF8]
  rfl

/-- A hexadecimal digit of a number below sixteen, in lower case. -/
def hexDigit (n : Nat) : Char :=
  if n < 10 then Char.ofNat (48 + n) else Char.ofNat (87 + n)

/-- The number a hexadecimal digit stands for. -/
def hexValue? (c : Char) : Option Nat :=
  let n := c.toNat
  if 48 ≤ n ∧ n ≤ 57 then some (n - 48)
  else if 97 ≤ n ∧ n ≤ 102 then some (n - 87)
  else if 65 ≤ n ∧ n ≤ 70 then some (n - 55)
  else none

/-- The octets as lowercase hexadecimal digits, two for each. -/
def hex (bs : Bytes) : String :=
  String.ofList (bs.flatMap fun b => [hexDigit (b.toNat / 16), hexDigit (b.toNat % 16)])

/-- The octets that a list of hexadecimal digits spells, two digits for each. -/
def ofHexDigits? : List Char → Option Bytes
  | []            => some []
  | [_]           => none
  | hi :: lo :: r => do
      let h ← hexValue? hi
      let l ← hexValue? lo
      let rest ← ofHexDigits? r
      pure (UInt8.ofNat (16 * h + l) :: rest)

/-- The octets that a hexadecimal text spells. -/
def ofHex? (s : String) : Option Bytes := ofHexDigits? s.toList

end Bytes

end WitnessReplication

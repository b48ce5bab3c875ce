import WitnessReplication.Bytes
import WitnessReplication.Text.Unshown

/-!
# Quoted text — values as they are shown to a reader

    Texts and octets are shown between quotes, with everything escaped that would not show as it
    is.  Records are shown by their name and their fields.

* **`quote`** — a text: the usual escapes, and a code point in braces for what is not shown.
* **`quoteOctets`** — octets: printable ASCII as it is, all else by two hexadecimal digits.
* **`record`**, **`wrapped`**, **`list`**, **`optional`** — the shapes that values are built from.
-/

namespace WitnessReplication.Text

/-- A number in lowercase hexadecimal digits, without leading zeros. -/
def hexNumber (n : Nat) : List Char := Nat.toDigits 16 n

/-- A character of a quoted text. -/
def quoteChar (c : Char) : List Char :=
  if c = '\x00' then ['\\', '0']
  else if c = '\t' then ['\\', 't']
  else if c = '\r' then ['\\', 'r']
  else if c = '\n' then ['\\', 'n']
  else if c = '"' then ['\\', '"']
  else if c = '\\' then ['\\', '\\']
  else if c.toNat < 32 || isUnshown c then ['\\', 'u', '\x7b'] ++ hexNumber c.toNat ++ ['\x7d']
  else [c]

/-- A text between quotes. -/
def quote (s : String) : String :=
  String.ofList (['"'] ++ s.toList.flatMap quoteChar ++ ['"'])

/-- An octet among quoted octets. -/
def quoteOctet (b : UInt8) : List Char :=
  let n := b.toNat
  if n = 10 then ['\\', 'n']
  else if n = 13 then ['\\', 'r']
  else if n = 9 then ['\\', 't']
  else if n = 92 then ['\\', '\\']
  else if n = 34 then ['\\', '"']
  else if n = 0 then ['\\', '0']
  else if 32 ≤ n && n < 127 then [Char.ofNat n]
  else ['\\', 'x', Bytes.hexDigit (n / 16), Bytes.hexDigit (n % 16)]

/-- Octets between quotes, marked as octets by the letter in front. -/
def quoteOctets (bs : Bytes) : String :=
  String.ofList (['b', '"'] ++ bs.flatMap quoteOctet ++ ['"'])

/-! ## Shapes -/

/-- A record: its name and its fields. -/
def record (name : String) (fields : List (String × String)) : String :=
  name ++ " \x7b " ++ ", ".intercalate (fields.map fun (n, v) => n ++ ": " ++ v) ++ " \x7d"

/-- A value in a wrapper that has a name. -/
def wrapped (name value : String) : String := name ++ "(" ++ value ++ ")"

/-- A list of values. -/
def list (values : List String) : String := "[" ++ ", ".intercalate values ++ "]"

/-- A value that may be missing. -/
def optional : Option String → String
  | some v => wrapped "Some" v
  | none   => "None"

end WitnessReplication.Text

import WitnessReplication.Bytes

/-!
# URIs — whether a member's address can be dialled

    A member is dialled under the URI that has the address after `http://`.  What comes before the
    first slash, question mark or hash is the authority, with a host, perhaps a port, and perhaps a
    user in front of an at sign.  What comes after it is path and query; a fragment is ignored.

* **`Authority.scan`** — reads an authority octet by octet.
* **`isDiallable`** — whether an address makes a URI.
-/

namespace WitnessReplication.Uri

/-- The longest URI, in octets. -/
def maxLength : Nat := 65534

/-- Letters and digits. -/
def isAlphanumeric (b : Nat) : Bool :=
  (48 ≤ b && b ≤ 57) || (65 ≤ b && b ≤ 90) || (97 ≤ b && b ≤ 122)

/-- The marks that may stand in an authority and mean nothing there. -/
def marks : List Nat := "!$&'()*+,-.;=_~".toList.map Char.toNat

/-- What was seen in an authority so far. -/
structure Authority where
  /-- Colons since the last at sign or closing bracket. -/
  colons  : Nat := 0
  opened  : Bool := false
  closed  : Bool := false
  /-- A percent sign since the last at sign or closing bracket. -/
  percent : Bool := false
  /-- The last octet was an at sign. -/
  atSign  : Bool := false
  /-- Nothing was seen. -/
  blank   : Bool := true
  deriving DecidableEq, Inhabited

namespace Authority

/-- Whether an authority may end here: brackets come in pairs, there is one port, the host has no
    percent sign, and something follows an at sign. -/
def isComplete (a : Authority) : Bool :=
  a.opened == a.closed && a.colons ≤ 1 && !a.percent && !a.atSign && !a.blank

/-- Takes in an octet of an authority. -/
def take (a : Authority) (b : Nat) : Option Authority :=
  let a := { a with blank := false, atSign := b = 64 }
  if b = 58 then some { a with colons := a.colons + 1 }
  else if b = 91 then
    if a.percent || a.opened then none else some { a with opened := true }
  else if b = 93 then
    if a.closed then none else some { a with closed := true, colons := 0, percent := false }
  else if b = 64 then some { a with colons := 0, percent := false }
  else if b = 37 then some { a with percent := true }
  else if isAlphanumeric b || marks.contains b then some a
  else none

/-- Reads an authority up to its end, and returns what comes after it. -/
def scan (a : Authority) : List Nat → Option (List Nat)
  | []     => if a.isComplete then some [] else none
  | b :: r =>
      if b = 47 || b = 63 || b = 35 then (if a.isComplete then some (b :: r) else none)
      else (a.take b).bind fun a => a.scan r

end Authority

/-- The octets that may stand in a path. -/
def isPathOctet (b : Nat) : Bool :=
  b = 33 || b = 34 || (36 ≤ b && b ≤ 59) || b = 61 || (64 ≤ b && b ≤ 95) ||
    (97 ≤ b && b ≤ 126)

/-- The octets that may stand in a query. -/
def isQueryOctet (b : Nat) : Bool :=
  b = 33 || (36 ≤ b && b ≤ 59) || b = 61 || (63 ≤ b && b ≤ 126)

/-- Whether octets are a path and a query; a hash ends both. -/
def isPathAndQuery (bs : List Nat) : Bool :=
  let shown := bs.takeWhile (· ≠ 35)
  (shown.takeWhile (· ≠ 63)).all isPathOctet && ((shown.dropWhile (· ≠ 63)).drop 1).all isQueryOctet

/-- Whether an address makes a URI. -/
def isDiallable (address : String) : Bool :=
  let bs := (Bytes.ofText address).map UInt8.toNat
  bs.length + 7 ≤ maxLength && ((({} : Authority).scan bs).any isPathAndQuery)

end WitnessReplication.Uri

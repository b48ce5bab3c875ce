/-!
# Socket addresses — the texts a replica can serve on

    An address is a numeric host and a port.  The host is four decimal numbers with points between
    them, or, in brackets, eight hexadecimal groups with colons between them.  Of the eight, the
    last two may be written as four decimal numbers, and one run of zero groups may be left out; a
    scope may follow after a percent sign.

    Each reader takes what it is for off the front and returns the rest, or fails.

* **`isSocketAddress`** — whether a text is a whole address.
-/

namespace WitnessReplication.SocketAddress

/-- The value of a digit in a base up to sixteen. -/
def digit? (base : Nat) (c : Char) : Option Nat :=
  let n := c.toNat
  let v :=
    if 48 ≤ n ∧ n ≤ 57 then n - 48
    else if 97 ≤ n ∧ n ≤ 102 then n - 87
    else if 65 ≤ n ∧ n ≤ 70 then n - 55
    else base
  if v < base then some v else none

/-- All digits in front, as their values, and the rest. -/
def digits (base : Nat) : List Char → List Nat × List Char
  | []     => ([], [])
  | c :: r =>
      match digit? base c with
      | some v => let (vs, r') := digits base r; (v :: vs, r')
      | none   => ([], c :: r)

/-- The number that digits stand for. -/
def value (base : Nat) (ds : List Nat) : Nat := ds.foldl (fun n d => n * base + d) 0

/-- Reads a number below a bound. -/
def number? (base bound : Nat) (cs : List Char) : Option (List Char) :=
  let (ds, r) := digits base cs
  if ds ≠ [] ∧ value base ds < bound then some r else none

/-- Reads an octet in decimal: at most three digits, and no zero in front of others. -/
def octet? (cs : List Char) : Option (List Char) :=
  let (ds, r) := digits 10 cs
  if ds ≠ [] ∧ ds.length ≤ 3 ∧ value 10 ds < 256 ∧ (ds.head? = some 0 → ds.length = 1) then some r
  else none

/-- Reads a group: at most four hexadecimal digits. -/
def group? (cs : List Char) : Option (List Char) :=
  let (ds, r) := digits 16 cs
  if ds ≠ [] ∧ ds.length ≤ 4 then some r else none

/-- Reads one character. -/
def char? (c : Char) : List Char → Option (List Char)
  | d :: r => if d = c then some r else none
  | []     => none

/-- Reads four octets with points between them. -/
def ipv4? (cs : List Char) : Option (List Char) :=
  (((((((octet? cs).bind (char? '.')).bind octet?).bind (char? '.')).bind octet?).bind
    (char? '.')).bind octet?)

/-- Reads as many groups as there are, up to `left`, with colons between them.  Where at least two
    may still come, four octets may stand for the last two.  Returns how many groups were read,
    whether octets were, and the rest. -/
def groups (first : Bool) : (left : Nat) → List Char → Nat × Bool × List Char
  | 0, cs        => (0, false, cs)
  | left + 1, cs =>
      let start := if first then some cs else char? ':' cs
      match (if 1 ≤ left then start.bind ipv4? else none) with
      | some r => (2, true, r)
      | none   =>
          match start.bind group? with
          | some r =>
              let (n, octets, r') := groups false left r
              (n + 1, octets, r')
          | none   => (0, false, cs)

/-- Reads eight groups, or fewer around two colons that stand for the groups left out. -/
def ipv6? (cs : List Char) : Option (List Char) :=
  let (n, octets, r) := groups true 8 cs
  if n = 8 then some r
  else if octets then none
  else ((char? ':' r).bind (char? ':')).map fun r => (groups true (7 - n) r).2.2

/-- Reads a colon and a port. -/
def port? (cs : List Char) : Option (List Char) := (char? ':' cs).bind (number? 10 65536)

/-- Reads a percent sign and a scope, if both are there. -/
def scope (cs : List Char) : List Char :=
  ((char? '%' cs).bind (number? 10 4294967296)).getD cs

/-- Whether a text is the address of a socket. -/
def isSocketAddress (s : String) : Bool :=
  let cs := s.toList
  let four := (ipv4? cs).bind port?
  let six := (char? '[' cs).bind ipv6? |>.bind fun r => char? ']' (scope r) |>.bind port?
  match four with
  | some r => r = []
  | none   => six = some []

end WitnessReplication.SocketAddress

/-!
# Durations — spans of time as a reader sees them

    Every span of time in this library is a number of nanoseconds, and so is every moment: it is
    counted from when the clock started.

* **`Duration.text`** — the largest of the units s, ms, µs and ns whose integer part is not zero,
  with the fraction that is left, without trailing zeros.
-/

namespace WitnessReplication

namespace Duration

/-- A span of whole milliseconds. -/
def ofMillis (n : Nat) : Nat := n * 1000000

/-- How many units of the last of some decimal places make a whole. -/
def whole : (places : Nat) → Nat
  | 0          => 1
  | places + 1 => 10 * whole places

/-- The decimal digits of a fraction of a whole, without trailing zeros. -/
def fractionDigits : (places : Nat) → (n : Nat) → List Char
  | 0, _          => []
  | places + 1, n =>
      if n = 0 then []
      else Nat.digitChar (n / whole places % 10) :: fractionDigits places (n % whole places)

/-- A number with `places` decimal places, the value given in the last place, and its unit. -/
def decimal (value places : Nat) (unit : String) : String :=
  let fraction := fractionDigits places (value % whole places)
  let point := if fraction = [] then "" else "." ++ String.ofList fraction
  toString (value / whole places) ++ point ++ unit

/-- The span in the largest unit whose integer part is not zero. -/
def text (d : Nat) : String :=
  if 1000000000 ≤ d then decimal d 9 "s"
  else if 1000000 ≤ d then decimal d 6 "ms"
  else if 1000 ≤ d then decimal d 3 "µs"
  else decimal d 0 "ns"

end Duration

end WitnessReplication

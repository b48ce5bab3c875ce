import WitnessReplication.ResponseCache

/-!
# Collector — sweeps a response cache again and again

    A collector waits, sweeps, and waits again.  How long it waits is drawn anew each time, between
    its interval and twice that, so that collectors which started together do not sweep together.
    It ends when it is told to, or when it wakes up and finds that nobody needs the cache any more.

* **`Collector.runTo`** — the sweeps that fall due up to a moment.
-/

namespace WitnessReplication

/-- A collector: its interval, what it draws for its waits, how many it has drawn, and when it
    wakes up next. -/
structure Collector where
  interval     : Nat
  interval_pos : 0 < interval
  /-- The wait that is drawn each time. -/
  wait         : Nat → Nat
  interval_le  : ∀ k, interval ≤ wait k
  le_double    : ∀ k, wait k ≤ 2 * interval
  drawn        : Nat
  due          : Nat

namespace Collector

/-- Starts a collector that always draws the shortest wait. -/
def start (now : Nat) (interval : Nat) (h : 0 < interval) : Collector where
  interval     := interval
  interval_pos := h
  wait         := fun _ => interval
  interval_le  := fun _ => Nat.le_refl _
  le_double    := fun _ => by omega
  drawn        := 1
  due          := now + interval

/-- Draws the next wait. -/
def rest (c : Collector) : Collector :=
  { c with drawn := c.drawn + 1, due := c.due + c.wait c.drawn }

/-- Resting moves the next sweep on. -/
theorem due_lt_rest (c : Collector) : c.due < c.rest.due := by
  have h₁ := c.interval_pos
  have h₂ := c.interval_le c.drawn
  show c.due < c.due + c.wait c.drawn
  omega

/-- Sweeps whenever it is due, up to a moment. -/
def runTo (c : Collector) (now : Nat) (cache : ResponseCache) : Collector × ResponseCache :=
  if c.due ≤ now then c.rest.runTo now (cache.evict c.due).2
  else (c, cache)
termination_by now + 1 - c.due
decreasing_by
  have := c.due_lt_rest
  omega

end Collector

end WitnessReplication

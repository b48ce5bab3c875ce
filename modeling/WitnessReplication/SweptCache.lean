import WitnessReplication.Collector

/-!
# Swept cache — a response cache with its collector, in virtual time

    The collector works as long as somebody holds on to it, and does not keep the cache alive.

* **`SweptCache.sleep`** — time passes, and the collector does what falls due.
-/

namespace WitnessReplication

/-- A response cache, unless it was dropped, with its collector, unless that was stopped. -/
structure SweptCache where
  cache     : Option ResponseCache
  collector : Option Collector
  now       : Nat := 0

namespace SweptCache

/-- A cache whose collector starts now; there is none without an interval. -/
def start? (retention interval : Nat) : Option SweptCache :=
  if h : 0 < interval then
    some { cache := some { retention }, collector := some (.start 0 interval h) }
  else none

/-- Keeps an answer, unless the name has one; returns the answer that is kept. -/
def record (s : SweptCache) (client : ClientId) (seq : SeqNo) (response : Bytes) :
    Option CachedResponse × SweptCache :=
  match s.cache with
  | none   => (none, s)
  | some c =>
      let (kept, c) := c.record s.now client seq response
      (some kept, { s with cache := some c })

/-- The answer kept under a name. -/
def lookup (s : SweptCache) (client : ClientId) (seq : SeqNo) : Option CachedResponse :=
  s.cache.bind fun c => c.lookup client seq

/-- Time passes.  A collector that wakes up and finds the cache gone ends. -/
def sleep (s : SweptCache) (span : Nat) : SweptCache :=
  let now := s.now + span
  match s.cache, s.collector with
  | some cache, some collector =>
      let (collector, cache) := collector.runTo now cache
      { cache := some cache, collector := some collector, now }
  | none, some collector       =>
      { s with collector := if collector.due ≤ now then none else some collector, now }
  | _, none                    => { s with now }

/-- Stops the collector. -/
def stop (s : SweptCache) : SweptCache := { s with collector := none }

/-- Drops the cache. -/
def drop (s : SweptCache) : SweptCache := { s with cache := none }

/-- Whether the cache is gone. -/
def isFreed (s : SweptCache) : Bool := s.cache.isNone

end SweptCache

end WitnessReplication

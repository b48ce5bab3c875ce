import WitnessReplication.Identity
import WitnessReplication.Bytes

/-!
# Response cache — what every executed command was answered with

    A command that arrives again is answered from here instead of being executed again.  Answers
    are kept in one bucket per client and are dropped once they are old enough.

    A sweep may run while commands are being executed, so it is made of small steps, each of which
    looks at one bucket only: **`retainFresh`** drops what is old from a bucket, **`dropIfEmpty`**
    removes the bucket if nothing is left in it.

* **`lookup`** — the answer kept under a name.
* **`record`** — keeps an answer unless the name has one, and returns the one that is kept.
* **`evict`** — a whole sweep.
-/

namespace WitnessReplication

/-- An answer, with the moment it was first kept. -/
structure CachedResponse where
  response  : Bytes
  createdAt : Nat
  deriving DecidableEq, Inhabited

/-- The answers of one client, each number once. -/
abbrev Bucket := List (SeqNo × CachedResponse)

/-- Answers by client and number, with the age at which they are dropped. -/
structure ResponseCache where
  retention : Nat
  buckets   : List (ClientId × Bucket) := []
  deriving DecidableEq, Inhabited

namespace ResponseCache

/-- A client's bucket, empty if the client has none. -/
def bucket (c : ResponseCache) (client : ClientId) : Bucket :=
  (c.buckets.lookup client).getD []

/-- The answer kept under a name. -/
def lookup (c : ResponseCache) (client : ClientId) (seq : SeqNo) : Option CachedResponse :=
  (c.bucket client).lookup seq

/-- Puts a client's bucket in place of what it had. -/
def setBucket (c : ResponseCache) (client : ClientId) (b : Bucket) : ResponseCache :=
  if c.buckets.any fun p => p.1 = client then
    { c with buckets := c.buckets.map fun p => if p.1 = client then (client, b) else p }
  else { c with buckets := c.buckets ++ [(client, b)] }

/-- Keeps an answer given now, unless the name has one; returns the answer that is kept. -/
def record (c : ResponseCache) (now : Nat) (client : ClientId) (seq : SeqNo)
    (response : Bytes) : CachedResponse × ResponseCache :=
  match c.lookup client seq with
  | some kept => (kept, c)
  | none      =>
      let fresh := ⟨response, now⟩
      (fresh, c.setBucket client (c.bucket client ++ [(seq, fresh)]))

/-- How many answers are kept. -/
def size (c : ResponseCache) : Nat := (c.buckets.flatMap fun p => p.2).length

/-! ## Sweeps -/

/-- An answer is fresh as long as its age is below the retention.  A clock that went back makes
    its age zero. -/
def isFresh (c : ResponseCache) (now : Nat) (kept : CachedResponse) : Bool :=
  now - kept.createdAt < c.retention

/-- Drops what is not fresh from a client's bucket; returns how much was dropped. -/
def retainFresh (c : ResponseCache) (now : Nat) (client : ClientId) : Nat × ResponseCache :=
  match c.buckets.lookup client with
  | none   => (0, c)
  | some b =>
      let fresh := b.filter fun p => c.isFresh now p.2
      (b.length - fresh.length, c.setBucket client fresh)

/-- Removes a client's bucket if it is empty. -/
def dropIfEmpty (c : ResponseCache) (client : ClientId) : ResponseCache :=
  { c with buckets := c.buckets.filter fun p => !(p.1 = client && p.2.isEmpty) }

/-- The clients that have a bucket. -/
def clients (c : ResponseCache) : List ClientId := c.buckets.map (·.1)

/-- Sweeps the buckets of some clients, one after the other. -/
def sweep (c : ResponseCache) (now : Nat) : List ClientId → Nat × ResponseCache
  | []          => (0, c)
  | client :: r =>
      let (n, c₁) := c.retainFresh now client
      let (m, c₂) := (c₁.dropIfEmpty client).sweep now r
      (n + m, c₂)

/-- Drops every answer that is not fresh; returns how many were dropped. -/
def evict (c : ResponseCache) (now : Nat) : Nat × ResponseCache :=
  c.sweep now c.clients

end ResponseCache

end WitnessReplication

import WitnessReplication.Proofs.CacheLaws

/-!
# Shared cache — sweeps, records and look-ups that go on at the same time

    A cache is shared by whoever executes commands and by whoever sweeps.  Each access to one bucket
    is a step of its own, and between two steps anything may happen.  A record reads the clock and
    then keeps its answer.  A sweep reads the clock, then collects the clients, and then takes two
    steps for every client.  The clock may have gone back between two readings, and a reading may be
    out of date when it is used.

* **`SharedCache`** and **`step`** — how far every sweep and every record is, and what comes next.
* **`Steps`** and **`step_steps`** — all that one step can do.
* **`run_sweep_alone`** and **`run_record_alone`** — undisturbed, they do what a cache does at once.
-/

namespace WitnessReplication

namespace SharedCache

/-- How far a sweep is. -/
inductive Stage where
  /-- It has read the clock. -/
  | begun
  /-- It is to drop what is old from the buckets of these clients. -/
  | sweeping (clients : List ClientId)
  /-- It has done so with this client's bucket, and is to remove the bucket if it is empty. -/
  | dropping (client : ClientId) (rest : List ClientId)
  | ended
  deriving DecidableEq

/-- A sweep, with its reading of the clock and how much it has dropped. -/
structure Sweep where
  now     : Nat
  stage   : Stage := .begun
  dropped : Nat := 0
  deriving DecidableEq

/-- The next step of a sweep: what it returns, the sweep and the cache. -/
def Sweep.advance (w : Sweep) (c : ResponseCache) : Option Nat × Sweep × ResponseCache :=
  match w.stage with
  | .begun                => (none, { w with stage := .sweeping c.clients }, c)
  | .sweeping []          => (some w.dropped, { w with stage := .ended }, c)
  | .sweeping (client :: rest) =>
      let (n, c₁) := c.retainFresh w.now client
      (none, { w with stage := .dropping client rest, dropped := w.dropped + n }, c₁)
  | .dropping client rest => (none, { w with stage := .sweeping rest }, c.dropIfEmpty client)
  | .ended                => (none, w, c)

/-- An answer to keep, with a reading of the clock and, in the end, the answer that is kept. -/
structure Record where
  now      : Nat
  client   : ClientId
  seq      : SeqNo
  response : Bytes
  kept     : Option CachedResponse := none
  deriving DecidableEq

/-- What somebody who shares a cache does in one step. -/
inductive Event where
  /-- A sweep begins and reads the clock. -/
  | beginSweep (now : Nat)
  | sweep (i : Nat)
  /-- A record begins and reads the clock. -/
  | beginRecord (now : Nat) (client : ClientId) (seq : SeqNo) (response : Bytes)
  | record (j : Nat)
  | lookup (client : ClientId) (seq : SeqNo)
  deriving DecidableEq

/-- What somebody who shares a cache is told. -/
inductive Answer where
  /-- So much was dropped by a sweep. -/
  | dropped (n : Nat)
  | kept (answer : CachedResponse)
  | found (answer : Option CachedResponse)
  deriving DecidableEq

end SharedCache

/-- A cache with the sweeps and the records that have begun. -/
structure SharedCache where
  cache   : ResponseCache
  sweeps  : List SharedCache.Sweep := []
  records : List SharedCache.Record := []
  deriving DecidableEq

namespace SharedCache

/-- A sweep that has not ended. -/
def sweeping? (s : SharedCache) (i : Nat) : Option Sweep :=
  s.sweeps[i]?.filter fun w => w.stage ≠ .ended

/-- A record that has not kept its answer yet. -/
def recording? (s : SharedCache) (j : Nat) : Option Record :=
  s.records[j]?.filter fun w => w.kept = none

/-- One step.  A sweep or a record that is over takes none. -/
def step (s : SharedCache) : Event → Option Answer × SharedCache
  | .beginSweep now => (none, { s with sweeps := s.sweeps ++ [{ now }] })
  | .sweep i        =>
      match s.sweeping? i with
      | none   => (none, s)
      | some w =>
          let (count, w', cache) := w.advance s.cache
          (count.map .dropped, { s with cache, sweeps := s.sweeps.set i w' })
  | .beginRecord now client seq response =>
      (none, { s with records := s.records ++ [{ now, client, seq, response }] })
  | .record j       =>
      match s.recording? j with
      | none   => (none, s)
      | some w =>
          let (kept, cache) := s.cache.record w.now w.client w.seq w.response
          (some (.kept kept),
            { s with cache, records := s.records.set j { w with kept := some kept } })
  | .lookup client seq => (some (.found (s.cache.lookup client seq)), s)

/-- The cache after some steps. -/
def run (s : SharedCache) : List Event → SharedCache
  | []        => s
  | x :: rest => (s.step x).2.run rest

/-- A cache that nobody has used yet. -/
def start (retention : Nat) : SharedCache := { cache := { retention } }

/-- A new cache after some steps. -/
def ran (retention : Nat) (events : List Event) : SharedCache := (start retention).run events

/-- The answer that a step inserts, and its name. -/
def insertion? (s : SharedCache) : Event → Option (RequestId × CachedResponse)
  | .record j =>
      match s.recording? j with
      | none   => none
      | some w =>
          if s.cache.lookup w.client w.seq = none then
            some (⟨w.client, w.seq⟩, ⟨w.response, w.now⟩)
          else none
  | _         => none

/-- The answers that some steps insert. -/
def insertions (s : SharedCache) : List Event → List (RequestId × CachedResponse)
  | []        => []
  | x :: rest => (s.insertion? x).toList ++ (s.step x).2.insertions rest

/-- The count that a sweep returns in a step. -/
def count (s : SharedCache) (x : Event) : Nat :=
  match (s.step x).1 with
  | some (.dropped n) => n
  | _                 => 0

/-- What the counts that sweeps return come to. -/
def returned (s : SharedCache) : List Event → Nat
  | []        => 0
  | x :: rest => s.count x + (s.step x).2.returned rest

/-- What a sweep has dropped and not returned. -/
def Sweep.owed (w : Sweep) : Nat := if w.stage = .ended then 0 else w.dropped

/-- What some sweeps have dropped and not returned. -/
def owedBy : List Sweep → Nat
  | []     => 0
  | w :: r => w.owed + owedBy r

/-- No sweep is in progress. -/
def Quiet (s : SharedCache) : Prop := ∀ w ∈ s.sweeps, w.stage = .ended

instance (s : SharedCache) : Decidable s.Quiet :=
  inferInstanceAs (Decidable (∀ w ∈ s.sweeps, w.stage = .ended))

theorem run_append (s : SharedCache) (xs ys : List Event) :
    s.run (xs ++ ys) = (s.run xs).run ys := by
  induction xs generalizing s with
  | nil          => rfl
  | cons x xs ih => exact ih _

theorem ran_append (retention : Nat) (xs ys : List Event) :
    ran retention (xs ++ ys) = (ran retention xs).run ys := run_append _ xs ys

theorem ran_concat (retention : Nat) (xs : List Event) (x : Event) :
    ran retention (xs ++ [x]) = ((ran retention xs).step x).2 := ran_append retention xs [x]

/-! ## What one step can do -/

/-- What a step comes to. -/
inductive Steps (s : SharedCache) : Event → Option Answer × SharedCache → Prop where
  | beginSweep (now : Nat) :
      Steps s (.beginSweep now) (none, { s with sweeps := s.sweeps ++ [{ now }] })
  | collect (i : Nat) (w : Sweep) (found : s.sweeps[i]? = some w) (stage : w.stage = .begun) :
      Steps s (.sweep i)
        (none, { s with sweeps := s.sweeps.set i { w with stage := .sweeping s.cache.clients } })
  | retain (i : Nat) (w : Sweep) (client : ClientId) (rest : List ClientId)
      (found : s.sweeps[i]? = some w) (stage : w.stage = .sweeping (client :: rest)) :
      Steps s (.sweep i)
        (none, { s with
          cache := (s.cache.retainFresh w.now client).2
          sweeps := s.sweeps.set i { w with
            stage := .dropping client rest
            dropped := w.dropped + (s.cache.retainFresh w.now client).1 } })
  | drop (i : Nat) (w : Sweep) (client : ClientId) (rest : List ClientId)
      (found : s.sweeps[i]? = some w) (stage : w.stage = .dropping client rest) :
      Steps s (.sweep i)
        (none, { s with
          cache := s.cache.dropIfEmpty client
          sweeps := s.sweeps.set i { w with stage := .sweeping rest } })
  | finish (i : Nat) (w : Sweep) (found : s.sweeps[i]? = some w) (stage : w.stage = .sweeping []) :
      Steps s (.sweep i)
        (some (.dropped w.dropped), { s with sweeps := s.sweeps.set i { w with stage := .ended } })
  | beginRecord (now : Nat) (client : ClientId) (seq : SeqNo) (response : Bytes) :
      Steps s (.beginRecord now client seq response)
        (none, { s with records := s.records ++ [{ now, client, seq, response }] })
  | record (j : Nat) (w : Record) (found : s.recording? j = some w) :
      Steps s (.record j)
        (some (.kept (s.cache.record w.now w.client w.seq w.response).1), { s with
          cache := (s.cache.record w.now w.client w.seq w.response).2
          records := s.records.set j
            { w with kept := some (s.cache.record w.now w.client w.seq w.response).1 } })
  | lookup (client : ClientId) (seq : SeqNo) :
      Steps s (.lookup client seq) (some (.found (s.cache.lookup client seq)), s)
  /-- The sweep or the record is over. -/
  | ended (x : Event) (nothing : s.insertion? x = none) : Steps s x (none, s)

theorem step_steps (s : SharedCache) (x : Event) : s.Steps x (s.step x) := by
  cases x with
  | beginSweep now                      => exact .beginSweep now
  | beginRecord now client seq response => exact .beginRecord now client seq response
  | lookup client seq                   => exact .lookup client seq
  | record j =>
      rw [step]
      cases hw : s.recording? j with
      | none   => exact .ended _ (by rw [insertion?, hw])
      | some w => exact .record j w hw
  | sweep i =>
      rw [step]
      cases hw : s.sweeping? i with
      | none   => exact .ended _ rfl
      | some w =>
          obtain ⟨hat, hstage⟩ := Option.filter_eq_some_iff.1 hw
          simp only [Sweep.advance]
          split
          case h_1 h => exact .collect i w hat h
          case h_2 h => exact .finish i w hat h
          case h_3 h => exact .retain i w _ _ hat h
          case h_4 h => exact .drop i w _ _ hat h
          case h_5 h => exact absurd h (by simpa using hstage)

/-! ## Undisturbed -/

theorem step_sweeping {s : SharedCache} {i : Nat} {w : Sweep} (found : s.sweeps[i]? = some w)
    (h : w.stage ≠ .ended) :
    s.step (.sweep i) = ((w.advance s.cache).1.map .dropped, { s with
      cache := (w.advance s.cache).2.2
      sweeps := s.sweeps.set i (w.advance s.cache).2.1 }) := by
  have hw : s.sweeping? i = some w := by
    rw [sweeping?, found, Option.filter_eq_some_iff]
    exact ⟨rfl, decide_eq_true h⟩
  rw [step, hw]

/-- The sweep is in the place where it was after one more step. -/
theorem sweep_step {s : SharedCache} {i : Nat} {w : Sweep} (found : s.sweeps[i]? = some w)
    (h : w.stage ≠ .ended) :
    (s.step (.sweep i)).2.sweeps[i]? = some (w.advance s.cache).2.1 := by
  rw [step_sweeping found h]
  exact List.getElem?_set_self (List.getElem?_eq_some_iff.1 found).1

/-- The steps that are left of a sweep, one after the other. -/
private theorem run_sweeping (s : SharedCache) (i now dropped : Nat) (clients : List ClientId)
    (found : s.sweeps[i]? = some ⟨now, .sweeping clients, dropped⟩) :
    (s.run (List.replicate (2 * clients.length + 1) (.sweep i))).cache =
        (s.cache.sweep now clients).2 ∧
      s.returned (List.replicate (2 * clients.length + 1) (.sweep i)) =
        dropped + (s.cache.sweep now clients).1 := by
  induction clients generalizing s dropped with
  | nil              =>
      have hstep := step_sweeping found Stage.noConfusion
      refine ⟨?_, ?_⟩
      · show (s.step (.sweep i)).2.cache = s.cache
        rw [hstep]
        rfl
      · show s.count (.sweep i) + 0 = dropped + 0
        rw [count, hstep]
        rfl
  | cons client rest ih =>
      have hretain := step_sweeping found Stage.noConfusion
      have found₁ := sweep_step found Stage.noConfusion
      have hdrop := step_sweeping found₁ Stage.noConfusion
      have found₂ := sweep_step found₁ Stage.noConfusion
      obtain ⟨hcache, hreturned⟩ := ih _ _ found₂
      have hswept : ((s.step (.sweep i)).2.step (.sweep i)).2.cache =
          ((s.cache.retainFresh now client).2.dropIfEmpty client) := by
        rw [hdrop, hretain]
        rfl
      have hquiet : s.count (.sweep i) = 0 ∧ (s.step (.sweep i)).2.count (.sweep i) = 0 := by
        rw [count, count, hdrop, hretain]
        exact ⟨rfl, rfl⟩
      rw [hswept] at hcache hreturned
      refine ⟨hcache, ?_⟩
      show s.count (.sweep i) + ((s.step (.sweep i)).2.count (.sweep i) +
          ((s.step (.sweep i)).2.step (.sweep i)).2.returned
            (List.replicate (2 * rest.length + 1) (.sweep i))) =
        dropped + ((s.cache.retainFresh now client).1 +
          (((s.cache.retainFresh now client).2.dropIfEmpty client).sweep now rest).1)
      rw [hquiet.1, hquiet.2, hreturned, Nat.zero_add, Nat.zero_add, ← Nat.add_assoc]
      rfl

/-- A sweep whose steps follow each other does what a sweep at once does. -/
theorem run_sweep_alone (s : SharedCache) (now : Nat) :
    let events := .beginSweep now ::
      List.replicate (2 * s.cache.clients.length + 2) (.sweep s.sweeps.length)
    (s.run events).cache = (s.cache.evict now).2 ∧ s.returned events = (s.cache.evict now).1 := by
  have found : (s.step (.beginSweep now)).2.sweeps[s.sweeps.length]? = some { now } := by
    simp [step]
  have hcollect := step_sweeping found Stage.noConfusion
  have found₁ := sweep_step found Stage.noConfusion
  obtain ⟨hcache, hreturned⟩ := run_sweeping _ _ _ _ _ found₁
  have hsame : ((s.step (.beginSweep now)).2.step (.sweep s.sweeps.length)).2.cache = s.cache := by
    rw [hcollect]
    rfl
  have hcount : (s.step (.beginSweep now)).2.count (.sweep s.sweeps.length) = 0 := by
    rw [count, hcollect]
    rfl
  rw [hsame] at hcache hreturned
  refine ⟨hcache, ?_⟩
  show 0 + ((s.step (.beginSweep now)).2.count (.sweep s.sweeps.length) +
    ((s.step (.beginSweep now)).2.step (.sweep s.sweeps.length)).2.returned
      (List.replicate (2 * s.cache.clients.length + 1) (.sweep s.sweeps.length))) = _
  rw [hcount, Nat.zero_add, Nat.zero_add]
  exact hreturned.trans (Nat.zero_add _)

/-- A record whose steps follow each other does what a record at once does. -/
theorem run_record_alone (s : SharedCache) (now : Nat) (client : ClientId) (seq : SeqNo)
    (response : Bytes) :
    let begun := (s.step (.beginRecord now client seq response)).2
    (begun.step (.record s.records.length)).1 =
        some (.kept (s.cache.record now client seq response).1) ∧
      (begun.step (.record s.records.length)).2.cache =
        (s.cache.record now client seq response).2 := by
  intro begun
  have found : begun.recording? s.records.length = some ⟨now, client, seq, response, none⟩ := by
    rw [recording?, Option.filter_eq_some_iff]
    simp [begun, step]
  simp only [step, found]
  exact ⟨rfl, rfl⟩

end SharedCache

end WitnessReplication

import WitnessReplication.SweptCache
import WitnessReplication.Proofs.CacheLaws

/-!
# Tended cache — a collector and the owners of its cache, step by step in virtual time

    A swept cache does in one step all that falls due while time passes.  Here everything is a step of
    its own, and what happens at one moment may happen in any order: the collector may wake up before
    a record of the same moment or after it, and it may be told to end before it wakes up or after.
    Time passes only while there is nothing to do: not past a moment when the collector is due, and
    not before a collector has ended that was told to.

    The collector does not own the cache.  It takes hold of it when it wakes up, if there is still an
    owner, and lets go of it after the sweep.

* **`TendedCache`** and **`step?`** — one step, if it is possible now.
* **`Steps`** and **`step_steps`** — all that one step can do.
* **`scheduled`** — whatever is done to a swept cache is done by a schedule of such steps.
-/

namespace WitnessReplication

/-- A cache with its owners and its collector. -/
structure TendedCache where
  cache     : ResponseCache
  collector : Option Collector
  now       : Nat := 0
  /-- The cache has an owner. -/
  owned     : Bool := true
  /-- The collector was not told to end. -/
  held      : Bool := true
  /-- The collector has taken hold of the cache and is about to sweep it. -/
  sweeping  : Bool := false

namespace TendedCache

/-- What happens in one step. -/
inductive Event where
  /-- Time passes. -/
  | pass (span : Nat)
  /-- The collector wakes up. -/
  | wake
  | sweep
  /-- The collector finds that it was told to end. -/
  | stop
  | record (client : ClientId) (seq : SeqNo) (response : Bytes)
  /-- The collector is told to end. -/
  | release
  /-- The owners drop the cache. -/
  | abandon
  deriving DecidableEq

/-- Nothing is left to do now, and nothing falls due before the span is over. -/
def MayPass (s : TendedCache) (span : Nat) : Prop :=
  s.sweeping = false ∧ ∀ c ∈ s.collector, s.held = true ∧ s.now + span ≤ c.due

instance (s : TendedCache) (span : Nat) : Decidable (s.MayPass span) :=
  inferInstanceAs (Decidable (_ ∧ _))

/-- One step, if it is possible now. -/
def step? (s : TendedCache) : Event → Option TendedCache
  | .pass span => if s.MayPass span then some { s with now := s.now + span } else none
  | .wake      =>
      match s.collector with
      | none   => none
      | some c =>
          if c.due ≤ s.now ∧ s.sweeping = false then
            some (if s.owned then { s with sweeping := true } else { s with collector := none })
          else none
  | .sweep     =>
      match s.collector with
      | none   => none
      | some c =>
          if s.sweeping then
            some { s with
              cache := (s.cache.evict s.now).2, collector := some c.rest, sweeping := false }
          else none
  | .stop      =>
      if s.held = false ∧ s.sweeping = false then some { s with collector := none } else none
  | .record client seq response =>
      if s.owned then some { s with cache := (s.cache.record s.now client seq response).2 }
      else none
  | .release   => some { s with held := false }
  | .abandon   => some { s with owned := false }

/-- The cache after a schedule, if every step of it is possible. -/
def run? (s : TendedCache) : List Event → Option TendedCache
  | []        => some s
  | x :: rest => (s.step? x).bind (run? · rest)

/-- A new cache with its collector. -/
def start (retention : Nat) (c : Collector) : TendedCache :=
  { cache := { retention }, collector := some c }

/-- Somebody has hold of the cache. -/
def alive (s : TendedCache) : Bool := s.owned || s.sweeping

theorem run?_append (s : TendedCache) (xs ys : List Event) :
    s.run? (xs ++ ys) = (s.run? xs).bind (run? · ys) := by
  induction xs generalizing s with
  | nil          => rfl
  | cons x xs ih =>
      show (s.step? x).bind (run? · (xs ++ ys)) = ((s.step? x).bind (run? · xs)).bind _
      rw [Option.bind_assoc]
      exact Option.bind_congr fun s' _ => ih s'

theorem run?_cons {s s' : TendedCache} {x : Event} {rest : List Event}
    (h : s.run? (x :: rest) = some s') : ∃ s₁, s.step? x = some s₁ ∧ s₁.run? rest = some s' :=
  Option.bind_eq_some_iff.1 h

/-! ## What one step can do -/

/-- What a step comes to. -/
inductive Steps (s : TendedCache) : Event → TendedCache → Prop where
  | pass (span : Nat) (idle : s.sweeping = false)
      (waits : ∀ c, s.collector = some c → s.held = true ∧ s.now + span ≤ c.due) :
      Steps s (.pass span) { s with now := s.now + span }
  | wake (c : Collector) (tended : s.collector = some c) (due : c.due ≤ s.now)
      (idle : s.sweeping = false) (owned : s.owned = true) :
      Steps s .wake { s with sweeping := true }
  /-- There is no owner left, and the collector ends. -/
  | leave (c : Collector) (tended : s.collector = some c) (due : c.due ≤ s.now)
      (idle : s.sweeping = false) (abandoned : s.owned = false) :
      Steps s .wake { s with collector := none }
  | sweep (c : Collector) (tended : s.collector = some c) (sweeping : s.sweeping = true) :
      Steps s .sweep { s with
        cache := (s.cache.evict s.now).2, collector := some c.rest, sweeping := false }
  | stop (released : s.held = false) (idle : s.sweeping = false) :
      Steps s .stop { s with collector := none }
  | record (client : ClientId) (seq : SeqNo) (response : Bytes) (owned : s.owned = true) :
      Steps s (.record client seq response)
        { s with cache := (s.cache.record s.now client seq response).2 }
  | release : Steps s .release { s with held := false }
  | abandon : Steps s .abandon { s with owned := false }

theorem step_steps {s s' : TendedCache} {x : Event} (h : s.step? x = some s') : s.Steps x s' := by
  cases x with
  | pass span =>
      obtain ⟨⟨idle, waits⟩, ⟨⟩⟩ := Option.ite_none_right_eq_some.1 h
      exact .pass span idle waits
  | wake      =>
      rw [step?] at h
      split at h
      · exact nomatch h
      · rename_i c tended
        obtain ⟨⟨due, idle⟩, ⟨⟩⟩ := Option.ite_none_right_eq_some.1 h
        by_cases howned : s.owned = true
        · rw [if_pos howned]
          exact .wake c tended due idle howned
        · rw [if_neg howned]
          exact .leave c tended due idle (Bool.eq_false_iff.2 howned)
  | sweep     =>
      rw [step?] at h
      split at h
      · exact nomatch h
      · rename_i c tended
        obtain ⟨sweeping, ⟨⟩⟩ := Option.ite_none_right_eq_some.1 h
        exact .sweep c tended sweeping
  | stop      =>
      obtain ⟨⟨released, idle⟩, ⟨⟩⟩ := Option.ite_none_right_eq_some.1 h
      exact .stop released idle
  | record client seq response =>
      obtain ⟨owned, ⟨⟩⟩ := Option.ite_none_right_eq_some.1 h
      exact .record client seq response owned
  | release   =>
      cases h
      exact .release
  | abandon   =>
      cases h
      exact .abandon

/-! ## Swept caches are tended -/

/-- Nothing is left to do for the collector but to wait. -/
structure Settled (s : TendedCache) : Prop where
  idle  : s.sweeping = false
  held  : ∀ c, s.collector = some c → s.held = true
  ahead : ∀ c, s.collector = some c → s.now ≤ c.due

/-- What is to be seen of a tended cache in which nothing is left to do. -/
def view (s : TendedCache) : SweptCache where
  cache     := if s.owned then some s.cache else none
  collector := s.collector
  now       := s.now

/-- Time may pass up to the moment when the collector is due. -/
theorem step?_passTo {s : TendedCache} (h : s.Settled) {c : Collector}
    (tended : s.collector = some c) {moment : Nat} (hnow : s.now ≤ moment) (hdue : moment ≤ c.due) :
    s.step? (.pass (moment - s.now)) = some { s with now := moment } := by
  have hmoment : s.now + (moment - s.now) = moment := by omega
  have hmay : s.MayPass (moment - s.now) := by
    refine ⟨h.idle, fun c' hc' => ⟨h.held c' hc', ?_⟩⟩
    rw [hmoment, Option.some.inj (hc'.symm.trans tended)]
    exact hdue
  rw [step?, if_pos hmay, hmoment]

/-- Without a collector time may pass. -/
theorem step?_untended {s : TendedCache} (idle : s.sweeping = false) (untended : s.collector = none)
    (span : Nat) : s.step? (.pass span) = some { s with now := s.now + span } :=
  if_pos ⟨idle, fun _ hc => nomatch hc.symm.trans untended⟩

theorem run?_nil (s : TendedCache) : s.run? [] = some s := rfl

/-- The next step is possible, and a schedule from there on leads to the state. -/
theorem run?_of_step {s s₁ s' : TendedCache} {x : Event} {rest : List Event}
    (h : s.step? x = some s₁) (hrest : s₁.run? rest = some s') : s.run? (x :: rest) = some s' :=
  (congrArg (Option.bind · (run? · rest)) h).trans hrest

/-- A collector that has done what fell due up to a moment is due later. -/
theorem lt_due_runTo (moment : Nat) (c : Collector) (cache : ResponseCache) :
    moment < (c.runTo moment cache).1.due := by
  induction c, cache using Collector.runTo.induct moment with
  | case1 c cache hdue ih =>
      rw [Collector.runTo, if_pos hdue]
      exact ih
  | case2 c cache hdue    =>
      rw [Collector.runTo, if_neg hdue]
      exact Nat.lt_of_not_le hdue

/-- The steps in which a collector sweeps whenever it is due, up to a moment. -/
theorem runTo_scheduled (moment : Nat) (c : Collector) (cache : ResponseCache) :
    ∀ s : TendedCache, s.Settled → s.owned = true → s.collector = some c → s.cache = cache →
      s.now ≤ moment →
      ∃ events, s.run? events = some { s with
        now := moment
        collector := some (c.runTo moment cache).1
        cache := (c.runTo moment cache).2 } := by
  induction c, cache using Collector.runTo.induct moment with
  | case1 c cache hdue ih  =>
      intro s hs howned htended hcache hnow
      have hahead := hs.ahead c htended
      have hlater := c.due_lt_rest
      let swept : TendedCache := { s with
        now := c.due, cache := (cache.evict c.due).2, collector := some c.rest, sweeping := false }
      have hswept : swept.Settled := by
        refine ⟨rfl, fun _ _ => hs.held c htended, ?_⟩
        rintro c' ⟨⟩
        exact Nat.le_of_lt hlater
      obtain ⟨events, hrun⟩ := ih swept hswept howned rfl rfl hdue
      refine ⟨.pass (c.due - s.now) :: .wake :: .sweep :: events, ?_⟩
      have hpass := step?_passTo hs htended hahead (Nat.le_refl _)
      have hwake : { s with now := c.due }.step? .wake =
          some { s with now := c.due, sweeping := true } := by
        simp only [step?, htended, howned, hs.idle, Nat.le_refl, and_self, if_true]
      have hsweep : { s with now := c.due, sweeping := true }.step? .sweep = some swept := by
        simp only [step?, htended, if_true, hcache]
        rfl
      refine run?_of_step hpass (run?_of_step hwake (run?_of_step hsweep ?_))
      rw [hrun, Collector.runTo.eq_1 c moment cache, if_pos hdue, hs.idle]
  | case2 c cache hdue     =>
      intro s hs howned htended hcache hnow
      have hpass := step?_passTo hs htended hnow (Nat.le_of_not_le hdue)
      refine ⟨[.pass (moment - s.now)], run?_of_step hpass ?_⟩
      rw [Collector.runTo, if_neg hdue, ← htended, ← hcache]
      rfl

/-- Time passes for a swept cache as it does in some schedule. -/
theorem sleep_scheduled {s : TendedCache} (hs : s.Settled) (span : Nat) :
    ∃ events s', s.run? events = some s' ∧ s'.Settled ∧ s'.view = s.view.sleep span := by
  cases htended : s.collector with
  | none   =>
      have hpass := step?_untended hs.idle htended span
      refine ⟨[.pass span], _, run?_of_step hpass rfl, ⟨hs.idle, hs.held, ?_⟩, ?_⟩
      · rintro c hc
        exact nomatch hc.symm.trans htended
      · simp only [view, SweptCache.sleep, htended]
  | some c =>
      by_cases howned : s.owned = true
      · obtain ⟨events, hrun⟩ := runTo_scheduled (s.now + span) c s.cache s hs howned htended rfl
          (Nat.le_add_right _ _)
        refine ⟨events, _, hrun, ⟨hs.idle, fun _ _ => hs.held c htended, ?_⟩, ?_⟩
        · rintro c' ⟨⟩
          exact Nat.le_of_lt (lt_due_runTo ..)
        · simp only [view, SweptCache.sleep, htended, howned, if_true]
      · have hview : s.view.sleep span =
            { s.view with
              collector := if c.due ≤ s.now + span then none else some c
              now := s.now + span } := by
          simp only [view, SweptCache.sleep, htended, howned]
          rfl
        by_cases hdue : c.due ≤ s.now + span
        · have hpass := step?_passTo hs htended (hs.ahead c htended) (Nat.le_refl _)
          have hleave : { s with now := c.due }.step? .wake =
              some { s with now := c.due, collector := none } := by
            simp only [step?, htended, howned, hs.idle, Nat.le_refl, and_self, if_true]
            rfl
          have hrest : { s with now := c.due, collector := none }.step?
              (.pass (s.now + span - c.due)) =
                some { s with now := c.due + (s.now + span - c.due), collector := none } :=
            step?_untended (s := { s with now := c.due, collector := none }) hs.idle rfl _
          rw [Nat.add_sub_cancel' hdue] at hrest
          refine ⟨_, _, run?_of_step hpass (run?_of_step hleave (run?_of_step hrest (run?_nil _))),
            ⟨hs.idle, by simp, by simp⟩, ?_⟩
          rw [hview, if_pos hdue]
          rfl
        · have hahead : s.now + span ≤ c.due := Nat.le_of_not_le hdue
          have hpass := step?_passTo hs htended (Nat.le_add_right _ _) hahead
          refine ⟨[_], _, run?_of_step hpass rfl, ⟨hs.idle, hs.held, ?_⟩, ?_⟩
          · intro c' hc'
            rw [Option.some.inj (hc'.symm.trans htended)]
            exact hahead
          · rw [hview, if_neg hdue, ← htended]
            rfl

/-- What is done to a swept cache. -/
inductive Deed where
  | sleep (span : Nat)
  | record (client : ClientId) (seq : SeqNo) (response : Bytes)
  | stop
  | drop
  deriving DecidableEq

/-- The swept cache after something was done to it. -/
def Deed.apply (s : SweptCache) : Deed → SweptCache
  | .sleep span                 => s.sleep span
  | .record client seq response => (s.record client seq response).2
  | .stop                       => s.stop
  | .drop                       => s.drop

theorem deed_scheduled {s : TendedCache} (hs : s.Settled) (d : Deed) :
    ∃ events s', s.run? events = some s' ∧ s'.Settled ∧ s'.view = d.apply s.view := by
  cases d with
  | sleep span => exact sleep_scheduled hs span
  | record client seq response =>
      by_cases howned : s.owned = true
      · have hrecord : s.step? (.record client seq response) = some _ := if_pos howned
        refine ⟨[_], _, run?_of_step hrecord rfl, ⟨hs.idle, hs.held, hs.ahead⟩, ?_⟩
        simp only [view, Deed.apply, SweptCache.record, howned, if_true]
      · refine ⟨[], s, rfl, hs, ?_⟩
        simp only [view, Deed.apply, SweptCache.record, howned]
        rfl
  | stop =>
      have hstop : { s with held := false }.step? .stop = some _ := if_pos ⟨rfl, hs.idle⟩
      refine ⟨[.release, .stop], _, run?_of_step rfl (run?_of_step hstop rfl), ⟨hs.idle, ?_, ?_⟩,
        rfl⟩
      · rintro _ ⟨⟩
      · rintro _ ⟨⟩
  | drop => exact ⟨[.abandon], _, rfl, ⟨hs.idle, hs.held, hs.ahead⟩, rfl⟩

/-- **Whatever is done to a swept cache** is done by a schedule in which nothing is left to do. -/
theorem scheduled (retention : Nat) (c : Collector) (deeds : List Deed) :
    ∃ events s, (start retention c).run? events = some s ∧ s.Settled ∧
      s.view = deeds.foldl Deed.apply { cache := some { retention }, collector := some c } := by
  have hstart : (start retention c).Settled :=
    ⟨rfl, fun _ _ => rfl, fun c _ => Nat.zero_le c.due⟩
  have hfold : ∀ s : TendedCache, s.Settled →
      ∃ events s', s.run? events = some s' ∧ s'.Settled ∧
        s'.view = deeds.foldl Deed.apply s.view := by
    induction deeds with
    | nil           => exact fun s hs => ⟨[], s, rfl, hs, rfl⟩
    | cons d deeds ih =>
        intro s hs
        obtain ⟨first, s₁, hfirst, hs₁, hview₁⟩ := deed_scheduled hs d
        obtain ⟨events, s', hrun, hs', hview⟩ := ih s₁ hs₁
        refine ⟨first ++ events, s', ?_, hs', ?_⟩
        · rw [run?_append, hfirst]
          exact hrun
        · rw [hview, hview₁]
          rfl
  exact hfold _ hstart

end TendedCache

end WitnessReplication

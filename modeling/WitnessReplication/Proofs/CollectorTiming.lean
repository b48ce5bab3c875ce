import WitnessReplication.Proofs.TendedCache

/-!
# Collector timing — how long an answer stays in a cache that is tended

    An answer is safe for the retention.  The next sweep after that takes it away, and between two
    sweeps the collector waits for twice its interval at most, whatever it draws.  So the collector is
    never due later than the retention and twice the interval after any answer that is kept, and that
    is the invariant which carries the bound.

    A collector that was told to end sweeps once more at most, at this very moment, and only if it was
    due.  To sweep it takes hold of the cache; this is the only way in which a cache outlives its
    owners, and it is over before time passes.

* **`OnTime`** and **`onTime_run`** — the invariant.
* **`lookup_step`** — what a step does to an answer that is kept.
* **`kept_of_young`** and **`gone_of_old`** — how long an answer stays.
* **`sweep_of_released`** and **`sweeping_of_abandoned`** — what happens after the end.
* **`timely`** — the law, put together from these.
-/

namespace WitnessReplication

namespace TendedCache

/-- What holds of a tended cache at any moment. -/
structure OnTime (s : TendedCache) (retention interval : Nat) : Prop where
  distinct : s.cache.Distinct
  retains  : s.cache.retention = retention
  period   : ∀ c, s.collector = some c → c.interval = interval
  ahead    : ∀ c, s.collector = some c → s.now ≤ c.due
  near     : ∀ c, s.collector = some c → c.due ≤ s.now + 2 * interval
  /-- Whoever sweeps is due. -/
  busy     : s.sweeping = true → ∃ c, s.collector = some c ∧ c.due = s.now
  past     : ∀ client seq kept, s.cache.lookup client seq = some kept → kept.createdAt ≤ s.now
  /-- The next sweep is not too late for any answer. -/
  soon     : ∀ c, s.collector = some c → ∀ client seq kept,
    s.cache.lookup client seq = some kept → c.due ≤ kept.createdAt + retention + 2 * interval

/-- What a record keeps was kept before, or is what it was given. -/
theorem lookup_of_record {c : ResponseCache} {now : Nat} {client : ClientId} {seq : SeqNo}
    {response : Bytes} {client' : ClientId} {seq' : SeqNo} {kept : CachedResponse}
    (h : (c.record now client seq response).2.lookup client' seq' = some kept) :
    c.lookup client' seq' = some kept ∨ kept = ⟨response, now⟩ := by
  rw [ResponseCache.lookup_record] at h
  split at h
  · rename_i hsame
    obtain ⟨rfl, rfl⟩ := hsame
    cases hl : c.lookup client seq with
    | none       =>
        rw [hl] at h
        exact Or.inr (Option.some.inj h).symm
    | some kept' =>
        rw [hl] at h
        exact Or.inl h
  · exact Or.inl h

/-- What a sweep leaves was kept before, and is younger than the retention. -/
theorem lookup_of_evict {c : ResponseCache} (hd : c.Distinct) {now : Nat} {client : ClientId}
    {seq : SeqNo} {kept : CachedResponse} (h : (c.evict now).2.lookup client seq = some kept) :
    c.lookup client seq = some kept ∧ now - kept.createdAt < c.retention := by
  rw [ResponseCache.lookup_evict hd] at h
  obtain ⟨hl, hfresh⟩ := Option.filter_eq_some_iff.1 h
  exact ⟨hl, of_decide_eq_true hfresh⟩

theorem onTime_step {s s' : TendedCache} {retention interval : Nat} (h : s.OnTime retention interval)
    {x : Event} (hstep : s.step? x = some s') : s'.OnTime retention interval := by
  cases step_steps hstep with
  | pass span idle waits           =>
      refine { h with ahead := fun c hc => (waits c hc).2, near := ?_, busy := ?_, past := ?_ }
      · intro c hc
        have hnear := h.near c hc
        show c.due ≤ s.now + span + 2 * interval
        omega
      · exact fun busy => nomatch busy.symm.trans idle
      · intro client seq kept hl
        exact Nat.le_trans (h.past client seq kept hl) (Nat.le_add_right _ _)
  | wake c tended due idle owned   =>
      exact { h with busy := fun _ => ⟨c, tended, Nat.le_antisymm due (h.ahead c tended)⟩ }
  | leave c tended due idle abandoned =>
      exact { h with
        period := nofun, ahead := nofun, near := nofun, soon := nofun
        busy := fun busy => nomatch busy.symm.trans idle }
  | stop released idle             =>
      exact { h with
        period := nofun, ahead := nofun, near := nofun, soon := nofun
        busy := fun busy => nomatch busy.symm.trans idle }
  | sweep c tended sweeping        =>
      obtain ⟨c', tended', hdue⟩ := h.busy sweeping
      rw [Option.some.inj (tended'.symm.trans tended)] at hdue
      have hwait : c.rest.due ≤ s.now + 2 * interval := by
        have hdouble := c.le_double c.drawn
        rw [h.period c tended] at hdouble
        show c.due + c.wait c.drawn ≤ s.now + 2 * interval
        omega
      refine
        { distinct := h.distinct.evict s.now
          retains  := (ResponseCache.retention_evict h.distinct s.now).trans h.retains
          period   := ?_, ahead := ?_, near := ?_, busy := nofun, past := ?_, soon := ?_ }
      · rintro _ ⟨⟩
        exact h.period c tended
      · rintro _ ⟨⟩
        exact hdue ▸ Nat.le_of_lt c.due_lt_rest
      · rintro _ ⟨⟩
        exact hwait
      · intro client seq kept hl
        exact h.past client seq kept (lookup_of_evict h.distinct hl).1
      · -- what the sweep leaves is young, so the next sweep is soon enough for it
        rintro _ ⟨⟩ client seq kept hl
        have hyoung := (lookup_of_evict h.distinct hl).2
        rw [h.retains] at hyoung
        omega
  | record client seq response owned  =>
      refine { h with
        distinct := h.distinct.record s.now client seq response
        retains  := (ResponseCache.retention_record ..).trans h.retains
        past     := ?_
        soon     := ?_ }
      · intro client' seq' kept hl
        rcases lookup_of_record hl with hl | rfl
        · exact h.past client' seq' kept hl
        · exact Nat.le_refl _
      · intro c hc client' seq' kept hl
        rcases lookup_of_record hl with hl | rfl
        · exact h.soon c hc client' seq' kept hl
        · have hnear := h.near c hc
          show c.due ≤ s.now + retention + 2 * interval
          omega
  | release                        => exact { h with }
  | abandon                        => exact { h with }

theorem onTime_run {s s' : TendedCache} {retention interval : Nat} (h : s.OnTime retention interval)
    {events : List Event} (hrun : s.run? events = some s') : s'.OnTime retention interval := by
  induction events generalizing s with
  | nil          => exact Option.some.inj hrun ▸ h
  | cons x _ ih =>
      obtain ⟨s₁, hstep, hrest⟩ := run?_cons hrun
      exact ih (onTime_step h hstep) hrest

/-- A collector that has just begun is on time for a new cache. -/
theorem onTime_start (retention : Nat) {c : Collector} (hdue : c.due = c.wait 0) :
    (start retention c).OnTime retention c.interval := by
  refine
    { distinct := ResponseCache.distinct_empty retention
      retains := rfl
      period := ?_, ahead := ?_, near := ?_, busy := nofun, past := nofun, soon := ?_ }
  · rintro _ ⟨⟩
    rfl
  · exact fun c _ => Nat.zero_le c.due
  · rintro _ ⟨⟩
    have hdouble := c.le_double 0
    show c.due ≤ 0 + 2 * c.interval
    omega
  · intro _ _ _ _ _ hl
    exact nomatch hl

/-! ## How long an answer stays -/

theorem now_le_step {s s' : TendedCache} {x : Event} (h : s.step? x = some s') : s.now ≤ s'.now := by
  cases step_steps h with
  | pass span => exact Nat.le_add_right _ _
  | wake | leave | sweep | stop | record | release | abandon => exact Nat.le_refl _

theorem now_le_run {s s' : TendedCache} {events : List Event} (h : s.run? events = some s') :
    s.now ≤ s'.now := by
  induction events generalizing s with
  | nil         => exact Nat.le_of_eq (congrArg now (Option.some.inj h))
  | cons x _ ih =>
      obtain ⟨s₁, hstep, hrest⟩ := run?_cons h
      exact Nat.le_trans (now_le_step hstep) (ih hrest)

/-- What a step does to an answer that is kept: nothing, unless it is a sweep and the answer is old
    enough. -/
theorem lookup_step {s s' : TendedCache} {retention interval : Nat}
    (h : s.OnTime retention interval) (hpos : 0 < retention) {x : Event}
    (hstep : s.step? x = some s') {client : ClientId} {seq : SeqNo} {kept : CachedResponse}
    (hl : s.cache.lookup client seq = some kept) :
    s'.cache.lookup client seq = some kept ∨
      s'.cache.lookup client seq = none ∧ x = .sweep ∧ s'.now = s.now ∧
        kept.createdAt + retention ≤ s.now ∧ ∃ c, s.collector = some c := by
  cases step_steps hstep with
  | pass | wake | leave | stop | release | abandon => exact Or.inl hl
  | record client' seq' response owned =>
      refine Or.inl ?_
      rw [ResponseCache.lookup_record]
      split
      · rename_i hsame
        rw [hsame.1, hsame.2, hl]
        rfl
      · exact hl
  | sweep c tended sweeping            =>
      show (s.cache.evict s.now).2.lookup client seq = _ ∨
        (s.cache.evict s.now).2.lookup client seq = _ ∧ _
      rw [ResponseCache.lookup_evict h.distinct, hl]
      by_cases hold : kept.createdAt + retention ≤ s.now
      · have hstale : s.cache.isFresh s.now kept = false :=
          ResponseCache.isFresh_of_le (h.retains ▸ hpos) (h.retains ▸ hold)
        exact Or.inr ⟨by rw [Option.filter, hstale]; rfl, rfl, rfl, hold, c, tended⟩
      · have hfresh : s.cache.isFresh s.now kept = true :=
          ResponseCache.isFresh_of_lt (h.retains ▸ hpos) (h.retains ▸ Nat.lt_of_not_le hold)
        exact Or.inl (by rw [Option.filter, hfresh]; rfl)

/-- An answer stays as long as it is younger than the retention. -/
theorem kept_of_young {s s' : TendedCache} {retention interval : Nat}
    (h : s.OnTime retention interval) (hpos : 0 < retention) {events : List Event}
    (hrun : s.run? events = some s') {client : ClientId} {seq : SeqNo} {kept : CachedResponse}
    (hl : s.cache.lookup client seq = some kept) (hyoung : s'.now < kept.createdAt + retention) :
    s'.cache.lookup client seq = some kept := by
  induction events generalizing s with
  | nil         => exact Option.some.inj hrun ▸ hl
  | cons x _ ih =>
      obtain ⟨s₁, hstep, hrest⟩ := run?_cons hrun
      rcases lookup_step h hpos hstep hl with hl₁ | ⟨_, _, hnow, hold, _⟩
      · exact ih (onTime_step h hstep) hrest hl₁
      · have hle := now_le_run hrest
        omega

/-- As long as its collector goes on, no cache keeps an answer for too long. -/
theorem age_of_kept {s : TendedCache} {retention interval : Nat} (h : s.OnTime retention interval)
    (htended : s.collector.isSome = true) {client : ClientId} {seq : SeqNo} {kept : CachedResponse}
    (hl : s.cache.lookup client seq = some kept) :
    s.now ≤ kept.createdAt + retention + 2 * interval := by
  obtain ⟨c, hc⟩ := Option.isSome_iff_exists.1 htended
  exact Nat.le_trans (h.ahead c hc) (h.soon c hc client seq kept hl)

/-- As long as it is not told to end and there is an owner, a collector goes on. -/
theorem goes_on_step {s s' : TendedCache} {x : Event} (h : s.step? x = some s')
    (held : s'.held = true) (owned : s'.owned = true) :
    s.held = true ∧ s.owned = true ∧ (s.collector.isSome = true → s'.collector.isSome = true) := by
  cases step_steps h with
  | pass | wake | record                  => exact ⟨held, owned, id⟩
  | sweep                                 => exact ⟨held, owned, fun _ => rfl⟩
  | leave _ _ _ _ abandoned               => exact nomatch owned.symm.trans abandoned
  | stop released                         => exact nomatch held.symm.trans released
  | release                               => exact nomatch held
  | abandon                               => exact nomatch owned

theorem goes_on_run {s s' : TendedCache} {events : List Event} (h : s.run? events = some s')
    (held : s'.held = true) (owned : s'.owned = true) :
    s.held = true ∧ s.owned = true ∧ (s.collector.isSome = true → s'.collector.isSome = true) := by
  induction events generalizing s with
  | nil         =>
      cases h
      exact ⟨held, owned, id⟩
  | cons x _ ih =>
      obtain ⟨s₁, hstep, hrest⟩ := run?_cons h
      obtain ⟨held₁, owned₁, htended₁⟩ := ih hrest
      obtain ⟨held₀, owned₀, htended₀⟩ := goes_on_step hstep held₁ owned₁
      exact ⟨held₀, owned₀, fun htended => htended₁ (htended₀ htended)⟩

/-- An answer is gone in time, if the collector goes on. -/
theorem gone_of_old {s s' : TendedCache} {retention interval : Nat}
    (h : s.OnTime retention interval) (hpos : 0 < retention) {events : List Event}
    (hrun : s.run? events = some s') (htended : s'.collector.isSome = true) {client : ClientId}
    {seq : SeqNo} {kept : CachedResponse} (hl : s.cache.lookup client seq = some kept)
    (hold : kept.createdAt + retention + 2 * interval < s'.now) :
    ∃ p s₁, p <+: events ∧ s.run? p = some s₁ ∧
      s₁.now ≤ kept.createdAt + retention + 2 * interval ∧ s₁.cache.lookup client seq = none := by
  induction events generalizing s with
  | nil            =>
      cases hrun
      have hage := age_of_kept h htended hl
      omega
  | cons x rest ih =>
      obtain ⟨s₁, hstep, hrest⟩ := run?_cons hrun
      rcases lookup_step h hpos hstep hl with hl₁ | ⟨hnone, _, hnow, _, c, hc⟩
      · obtain ⟨p, s₂, hp, hrun₂, hnow₂, hnone⟩ := ih (onTime_step h hstep) hrest hl₁
        exact ⟨x :: p, s₂, (List.prefix_cons_inj x).2 hp, run?_of_step hstep hrun₂, hnow₂, hnone⟩
      · refine ⟨[x], s₁, ⟨rest, rfl⟩, run?_of_step hstep (run?_nil s₁), ?_, hnone⟩
        rw [hnow]
        exact Nat.le_trans (h.ahead c hc) (h.soon c hc client seq kept hl)

/-! ## After the end -/

/-- The collector was told to end, and is not due. -/
structure Over (s : TendedCache) : Prop where
  released : s.held = false
  idle     : s.sweeping = false
  later    : ∀ c, s.collector = some c → s.now < c.due

theorem over_step {s s' : TendedCache} (h : s.Over) {x : Event} (hstep : s.step? x = some s') :
    x ≠ .sweep ∧ s'.Over := by
  cases step_steps hstep with
  | pass span _ waits    =>
      -- while there is a collector that was told to end, no time passes
      refine ⟨Event.noConfusion, { h with later := fun c tended => ?_ }⟩
      exact nomatch h.released.symm.trans (waits c tended).1
  | wake c tended due _  => exact absurd due (Nat.not_le_of_lt (h.later c tended))
  | leave c tended due _ => exact absurd due (Nat.not_le_of_lt (h.later c tended))
  | sweep c _ sweeping   => exact nomatch sweeping.symm.trans h.idle
  | stop                 =>
      exact ⟨Event.noConfusion, { h with later := fun _ tended => nomatch tended }⟩
  | record | abandon     => exact ⟨Event.noConfusion, { h with }⟩
  | release              => exact ⟨Event.noConfusion, { h with released := rfl }⟩

theorem no_sweep_of_over {s s' : TendedCache} (h : s.Over) {events : List Event}
    (hrun : s.run? events = some s') : .sweep ∉ events := by
  induction events generalizing s with
  | nil         => exact List.not_mem_nil
  | cons x _ ih =>
      obtain ⟨s₁, hstep, hrest⟩ := run?_cons hrun
      obtain ⟨hx, h₁⟩ := over_step h hstep
      exact List.not_mem_cons_of_ne_of_not_mem hx.symm (ih h₁ hrest)

/-- After a sweep of a collector that was told to end there is none. -/
theorem over_of_sweep {s s' : TendedCache} {retention interval : Nat}
    (h : s.OnTime retention interval) (released : s.held = false)
    (hstep : s.step? .sweep = some s') :
    s'.Over ∧ ∃ c, s.collector = some c ∧ c.due = s.now := by
  cases step_steps hstep with
  | sweep c tended sweeping =>
      obtain ⟨c', tended', hdue⟩ := h.busy sweeping
      refine ⟨⟨released, rfl, ?_⟩, c', tended', hdue⟩
      rintro _ ⟨⟩
      rw [Option.some.inj (tended'.symm.trans tended)] at hdue
      exact hdue ▸ c.due_lt_rest

/-- A collector that was told to end sweeps once more at most, at this moment, if it was due. -/
theorem sweep_of_released {s s' : TendedCache} {retention interval : Nat}
    (h : s.OnTime retention interval) (released : s.held = false) {before after : List Event}
    (hrun : s.run? (before ++ .sweep :: after) = some s') :
    .sweep ∉ before ∧ .sweep ∉ after ∧ (∃ s₁, s.run? before = some s₁ ∧ s₁.now = s.now) ∧
      ∃ c, s.collector = some c ∧ c.due = s.now := by
  induction before generalizing s with
  | nil              =>
      obtain ⟨s₁, hstep, hrest⟩ := run?_cons hrun
      obtain ⟨hover, hdue⟩ := over_of_sweep h released hstep
      exact ⟨List.not_mem_nil, no_sweep_of_over hover hrest, ⟨s, rfl, rfl⟩, hdue⟩
  | cons x before ih =>
      obtain ⟨s₁, hstep, hrest⟩ := run?_cons hrun
      have hx : x ≠ .sweep := by
        rintro rfl
        have hnot := no_sweep_of_over (over_of_sweep h released hstep).1 hrest
        exact hnot (List.mem_append_right _ (List.mem_cons_self ..))
      have h₁ := onTime_step h hstep
      have hlift : s₁.held = false → s₁.now = s.now → s₁.collector = s.collector →
          .sweep ∉ x :: before ∧ .sweep ∉ after ∧
            (∃ s₁, s.run? (x :: before) = some s₁ ∧ s₁.now = s.now) ∧
            ∃ c, s.collector = some c ∧ c.due = s.now := by
        intro released₁ hnow htended
        obtain ⟨hbefore, hafter, ⟨s₂, hrun₂, hnow₂⟩, c, tended, hdue⟩ := ih h₁ released₁ hrest
        exact ⟨List.not_mem_cons_of_ne_of_not_mem hx.symm hbefore, hafter,
          ⟨s₂, run?_of_step hstep hrun₂, hnow₂.trans hnow⟩, c, htended ▸ tended, hdue.trans hnow⟩
      cases step_steps hstep with
      | sweep => exact absurd rfl hx
      | wake | record | abandon => exact hlift released rfl rfl
      | release => exact hlift rfl rfl rfl
      | pass span _ waits =>
          obtain ⟨_, _, _, c, tended, _⟩ := ih h₁ released hrest
          exact nomatch released.symm.trans (waits c tended).1
      | leave | stop =>
          obtain ⟨_, _, _, c, tended, _⟩ := ih h₁ released hrest
          exact nomatch tended

/-- Without an owner nobody takes hold of the cache, and whoever has lets go before time passes. -/
theorem abandoned_step {s s' : TendedCache} (abandoned : s.owned = false) {x : Event}
    (hstep : s.step? x = some s') :
    s'.owned = false ∧ (s'.sweeping = true → s.sweeping = true ∧ s'.now = s.now) := by
  cases step_steps hstep with
  | pass span idle _             =>
      exact ⟨abandoned, fun sweeping => nomatch sweeping.symm.trans idle⟩
  | wake c _ _ _ owned           => exact nomatch owned.symm.trans abandoned
  | record _ _ _ owned           => exact nomatch owned.symm.trans abandoned
  | sweep                        => exact ⟨abandoned, fun sweeping => nomatch sweeping⟩
  | leave | stop | release       => exact ⟨abandoned, fun sweeping => ⟨sweeping, rfl⟩⟩
  | abandon                      => exact ⟨rfl, fun sweeping => ⟨sweeping, rfl⟩⟩

/-- What outlives the owners is a sweep that has begun, and it is over before time passes. -/
theorem sweeping_of_abandoned {s s' : TendedCache} (abandoned : s.owned = false)
    {events : List Event} (hrun : s.run? events = some s') :
    s'.owned = false ∧ (s'.sweeping = true → s.sweeping = true ∧ s'.now = s.now) := by
  induction events generalizing s with
  | nil         =>
      cases hrun
      exact ⟨abandoned, fun sweeping => ⟨sweeping, rfl⟩⟩
  | cons x _ ih =>
      obtain ⟨s₁, hstep, hrest⟩ := run?_cons hrun
      obtain ⟨abandoned₁, hsweeping₁⟩ := abandoned_step abandoned hstep
      obtain ⟨abandoned', hsweeping'⟩ := ih abandoned₁ hrest
      refine ⟨abandoned', fun sweeping => ?_⟩
      obtain ⟨sweeping₁, hnow'⟩ := hsweeping' sweeping
      obtain ⟨sweeping₀, hnow₁⟩ := hsweeping₁ sweeping₁
      exact ⟨sweeping₀, hnow'.trans hnow₁⟩

/-- A collector without a cache ends when it wakes up next. -/
theorem untended_of_abandoned {s s' : TendedCache} {retention interval : Nat}
    (h : s.OnTime retention interval) (abandoned : s.owned = false) {limit : Nat}
    (hlimit : ∀ c, s.collector = some c → c.due ≤ limit)
    (hsweeping : s.sweeping = true → s.now + 2 * interval ≤ limit) {events : List Event}
    (hrun : s.run? events = some s') (late : limit < s'.now) : s'.collector = none := by
  induction events generalizing s with
  | nil         =>
      cases hrun
      rw [Option.eq_none_iff_forall_ne_some]
      intro c tended
      have hahead := h.ahead c tended
      have hdue := hlimit c tended
      omega
  | cons x _ ih =>
      obtain ⟨s₁, hstep, hrest⟩ := run?_cons hrun
      have h₁ := onTime_step h hstep
      obtain ⟨abandoned₁, hsweeping₁⟩ := abandoned_step abandoned hstep
      refine ih h₁ abandoned₁ ?_ ?_ hrest
      · intro c tended
        cases step_steps hstep with
        | pass | wake | record | release | abandon => exact hlimit c tended
        | leave | stop                             => exact nomatch tended
        | sweep _ _ sweeping                       =>
            exact Nat.le_trans (h₁.near c tended) (hsweeping sweeping)
      · intro sweeping
        obtain ⟨sweeping₀, hnow⟩ := hsweeping₁ sweeping
        rw [hnow]
        exact hsweeping sweeping₀

/-! ## No schedule gets stuck -/

/-- What is left to do at a moment can be done at this moment. -/
theorem settles {s : TendedCache} {retention interval : Nat} (h : s.OnTime retention interval) :
    ∃ events s', s.run? events = some s' ∧ s'.Settled ∧ s'.now = s.now := by
  -- a sweep that has begun comes first, then the collector ends if it was told to
  have hsweep : ∃ events s', s.run? events = some s' ∧ s'.sweeping = false ∧
      s'.OnTime retention interval ∧ s'.now = s.now := by
    cases sweeping : s.sweeping with
    | false => exact ⟨[], s, rfl, sweeping, h, rfl⟩
    | true  =>
        obtain ⟨c, tended, _⟩ := h.busy sweeping
        have hstep : s.step? .sweep = some { s with
            cache := (s.cache.evict s.now).2, collector := some c.rest, sweeping := false } := by
          simp only [step?, tended, sweeping, if_true]
        exact ⟨[.sweep], _, run?_of_step hstep (run?_nil _), rfl, onTime_step h hstep, rfl⟩
  obtain ⟨events, s₁, hrun, idle, h₁, hnow⟩ := hsweep
  cases held : s₁.held with
  | true  => exact ⟨events, s₁, hrun, ⟨idle, fun _ _ => held, h₁.ahead⟩, hnow⟩
  | false =>
      have hstep : s₁.step? .stop = some { s₁ with collector := none } := if_pos ⟨held, idle⟩
      refine ⟨events ++ [.stop], { s₁ with collector := none }, ?_, ⟨idle, ?_, ?_⟩, hnow⟩
      · rw [run?_append, hrun]
        exact run?_of_step hstep (run?_nil _)
      · intro _ tended
        cases tended
      · intro _ tended
        cases tended

/-- Time goes on, whatever has happened. -/
theorem passes {s : TendedCache} {retention interval : Nat} (h : s.OnTime retention interval)
    {moment : Nat} (hle : s.now ≤ moment) :
    ∃ events s', s.run? events = some s' ∧ s'.now = moment := by
  obtain ⟨first, s₁, hfirst, hs₁, hnow⟩ := settles h
  obtain ⟨events, s', hrun, _, hview⟩ := sleep_scheduled hs₁ (moment - s₁.now)
  refine ⟨first ++ events, s', ?_, ?_⟩
  · rw [run?_append, hfirst]
    exact hrun
  · have hslept : (s₁.view.sleep (moment - s₁.now)).now = s₁.now + (moment - s₁.now) := by
      rw [SweptCache.sleep]
      split <;> rfl
    have hnow' := (congrArg SweptCache.now hview).trans hslept
    have : s'.view.now = s'.now := rfl
    omega

/-! ## The law -/

/-- What whoever uses a tended cache can rely on, whatever the collector draws and in whatever order
    things happen. -/
structure Timely (retention : Nat) (c : Collector) : Prop where
  /-- A new answer is what every look-up finds until the retention is over. -/
  kept : ∀ before client seq response after s₀ s,
    (start retention c).run? before = some s₀ → s₀.cache.lookup client seq = none →
    (start retention c).run? (before ++ .record client seq response :: after) = some s →
    s.now < s₀.now + retention → s.cache.lookup client seq = some ⟨response, s₀.now⟩
  /-- It is gone at some moment after that, at most twice the interval later, if the collector goes
      on. -/
  gone : ∀ before client seq response after s₀ s,
    (start retention c).run? before = some s₀ → s₀.cache.lookup client seq = none →
    (start retention c).run? (before ++ .record client seq response :: after) = some s →
    s.held = true → s.owned = true → s₀.now + retention + 2 * c.interval < s.now →
      ∃ p s₁, p <+: after ∧
        (start retention c).run? (before ++ .record client seq response :: p) = some s₁ ∧
        s₁.now ≤ s₀.now + retention + 2 * c.interval ∧ s₁.cache.lookup client seq = none
  /-- No look-up finds an answer that is older than this. -/
  bounded : ∀ events s, (start retention c).run? events = some s →
    s.held = true → s.owned = true → ∀ client seq kept, s.cache.lookup client seq = some kept →
      s.now ≤ kept.createdAt + retention + 2 * c.interval
  /-- When the collector is told to end, it sweeps once more at most, and at the same moment, if it
      is due then. -/
  released : ∀ before between after s₀ s, (start retention c).run? before = some s₀ →
    (start retention c).run? (before ++ .release :: (between ++ .sweep :: after)) = some s →
      .sweep ∉ between ∧ .sweep ∉ after ∧
      (∃ s₁, (start retention c).run? (before ++ .release :: between) = some s₁ ∧
        s₁.now = s₀.now) ∧
      ∃ c₀, s₀.collector = some c₀ ∧ c₀.due = s₀.now
  /-- When the owners drop the cache, it is gone, unless a sweep has begun; and before time passes
      it is gone. -/
  abandoned : ∀ before after s₀ s, (start retention c).run? before = some s₀ →
    (start retention c).run? (before ++ .abandon :: after) = some s →
      s.alive = true → s₀.sweeping = true ∧ s.now = s₀.now
  /-- After that the collector ends when it would have swept next. -/
  ended : ∀ before after s₀ s, (start retention c).run? before = some s₀ →
    (start retention c).run? (before ++ .abandon :: after) = some s →
      s₀.now + 2 * c.interval < s.now → s.collector = none
  /-- No schedule gets stuck. -/
  passes : ∀ events s, (start retention c).run? events = some s → ∀ moment, s.now ≤ moment →
    ∃ more s', s.run? more = some s' ∧ s'.now = moment

/-- A schedule up to one event, the event, and what comes after it. -/
theorem run?_split {s s₀ s' : TendedCache} {before : List Event} {x : Event} {after : List Event}
    (h₀ : s.run? before = some s₀) (h : s.run? (before ++ x :: after) = some s') :
    ∃ s₁, s₀.step? x = some s₁ ∧ s₁.run? after = some s' := by
  rw [run?_append, h₀] at h
  exact run?_cons h

theorem run?_join {s s₀ s₁ s' : TendedCache} {before : List Event} {x : Event}
    {after : List Event} (h₀ : s.run? before = some s₀) (hstep : s₀.step? x = some s₁)
    (h : s₁.run? after = some s') : s.run? (before ++ x :: after) = some s' := by
  rw [run?_append, h₀]
  exact run?_of_step hstep h

/-- What a new name is recorded with is kept under it. -/
theorem lookup_of_new {s s' : TendedCache} {client : ClientId} {seq : SeqNo} {response : Bytes}
    (hnew : s.cache.lookup client seq = none)
    (hstep : s.step? (.record client seq response) = some s') :
    s'.cache.lookup client seq = some ⟨response, s.now⟩ := by
  cases step_steps hstep with
  | record =>
      rw [ResponseCache.lookup_record, if_pos ⟨rfl, rfl⟩, hnew]
      rfl

/-- **How long an answer stays**, and what happens after the end, for a collector that has just
    begun, whatever it draws. -/
theorem timely (retention : Nat) (hpos : 0 < retention) (c : Collector) (hdue : c.due = c.wait 0) :
    Timely retention c := by
  have hstart := onTime_start retention hdue
  constructor
  case kept =>
    intro before client seq response after s₀ s h₀ hnew hrun hyoung
    obtain ⟨s₁, hstep, hafter⟩ := run?_split h₀ hrun
    have h₁ := onTime_step (onTime_run hstart h₀) hstep
    exact kept_of_young h₁ hpos hafter (lookup_of_new hnew hstep) hyoung
  case gone =>
    intro before client seq response after s₀ s h₀ hnew hrun held owned hold
    obtain ⟨s₁, hstep, hafter⟩ := run?_split h₀ hrun
    have h₁ := onTime_step (onTime_run hstart h₀) hstep
    have htended := (goes_on_run hrun held owned).2.2 rfl
    obtain ⟨p, s₂, hp, hrun₂, hnow, hnone⟩ :=
      gone_of_old h₁ hpos hafter htended (lookup_of_new hnew hstep) hold
    exact ⟨p, s₂, hp, run?_join h₀ hstep hrun₂, hnow, hnone⟩
  case bounded =>
    intro events s hrun held owned client seq kept hl
    exact age_of_kept (onTime_run hstart hrun) ((goes_on_run hrun held owned).2.2 rfl) hl
  case released =>
    intro before between after s₀ s h₀ hrun
    obtain ⟨s₁, hstep, hafter⟩ := run?_split h₀ hrun
    have h₁ := onTime_step (onTime_run hstart h₀) hstep
    cases hstep
    obtain ⟨hbetween, hafter, ⟨s₂, hrun₂, hnow⟩, hdue⟩ := sweep_of_released h₁ rfl hafter
    exact ⟨hbetween, hafter, ⟨s₂, run?_join h₀ rfl hrun₂, hnow⟩, hdue⟩
  case abandoned =>
    intro before after s₀ s h₀ hrun alive
    obtain ⟨s₁, hstep, hafter⟩ := run?_split h₀ hrun
    cases hstep
    obtain ⟨abandoned, hsweeping⟩ := sweeping_of_abandoned rfl hafter
    rw [TendedCache.alive, abandoned] at alive
    exact hsweeping alive
  case ended =>
    intro before after s₀ s h₀ hrun late
    obtain ⟨s₁, hstep, hafter⟩ := run?_split h₀ hrun
    have h₁ := onTime_step (onTime_run hstart h₀) hstep
    cases hstep
    exact untended_of_abandoned h₁ rfl h₁.near (fun _ => Nat.le_refl _) hafter late
  case passes =>
    exact fun events s hrun moment hle => TendedCache.passes (onTime_run hstart hrun) hle

/-- A collector whose waits are short and long by turns. -/
def jittery : Collector where
  interval     := 2
  interval_pos := by decide
  wait         := fun k => if k % 2 = 0 then 4 else 2
  interval_le  := fun k => by split <;> decide
  le_double    := fun k => by split <;> decide
  drawn        := 1
  due          := 4

/-- An answer is recorded just before a sweep, stays over the next one, and is gone after the
    third. -/
def passing : List Event :=
  [.pass 4, .record ⟨1⟩ ⟨1⟩ [7], .wake, .sweep, .pass 2, .wake, .sweep, .pass 4, .wake, .sweep,
    .release, .stop, .pass 9]

theorem timely_jittery :
    0 < 3 ∧ jittery.due = jittery.wait 0 ∧ Timely 3 jittery ∧
      (((start 3 jittery).run? (passing.take 7)).map fun s =>
        (s.now, s.cache.lookup ⟨1⟩ ⟨1⟩)) = some (6, some ⟨[7], 4⟩) ∧
      (((start 3 jittery).run? passing).map fun s =>
        (s.now, s.cache.lookup ⟨1⟩ ⟨1⟩)) = some (19, none) :=
  ⟨by decide, rfl, timely 3 (by decide) jittery rfl, by decide, by decide⟩

end TendedCache

end WitnessReplication

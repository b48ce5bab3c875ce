import WitnessReplication.Client.Opening
import WitnessReplication.Proofs.AttemptHistory

/-!
# Opening runs — every session that was opened is fresh

    While a session is being opened there is one errand, first to every member and then to the
    leader.  When the leader has answered, that errand is gone, and what is handed out is a session
    without calls and without errands that believes one of the members to lead.

* **`Session.Opened`** — a session that some configuration and some members have led to.
* **`Opened.fresh`** — it is one at which nothing has happened yet.
* **`Session.trio`** — one with three members, on which later modules run single calls.
-/

namespace WitnessReplication

namespace Opening

/-- What is being opened, after the errands under way were told some things. -/
def run (o : Opening) : List (Nat × Signal) → Opening
  | []               => o
  | (id, sig) :: told => (o.step id sig).state.run told

/-- The courier is in order and has at most one errand. -/
structure InOrder (o : Opening) : Prop where
  courier : o.courier.InOrder
  sole    : o.courier.errands.length ≤ 1

/-- What is being opened is in order from the start. -/
theorem begin_inOrder {config : SessionConfig} {o : Opening} (h : begin config = .ok o) :
    o.InOrder := by
  rw [begin] at h
  split at h
  · cases h
  · rename_i settings _
    split at h
    · cases h
    · rename_i hmembers
      obtain rfl := Except.ok.inj h
      have hsize : 0 < (Pool.ofMembers config.members).size := by
        rw [Pool.size, Pool.ofMembers, List.length_map]
        exact List.length_pos_iff.2 hmembers
      have hempty : Courier.InOrder
          { pool := .ofMembers config.members, guess := 0, backoff := settings.leaderBackoff } :=
        ⟨hsize, fun _ he => absurd he List.not_mem_nil, fun _ he => absurd he List.not_mem_nil⟩
      exact ⟨hempty.begin (.survey 0 []) rfl, Nat.le_refl 1⟩

/-- Where there is at most one errand, nothing is left when it ends. -/
private theorem errands_abandon {c : Courier} (h : c.errands.length ≤ 1) {e : Errand}
    (he : e ∈ c.errands) : (c.abandon e.id).errands = [] := by
  obtain ⟨f, hf⟩ : ∃ f, c.errands = [f] := by
    cases hc : c.errands with
    | nil         => rw [hc] at he; exact nomatch he
    | cons f rest =>
        rw [hc] at h
        have hrest : rest = [] := List.length_eq_zero_iff.1 (Nat.le_zero.1 (Nat.le_of_succ_le_succ h))
        exact ⟨f, by rw [hrest]⟩
  show c.errands.filter _ = []
  rw [hf] at he ⊢
  rw [List.mem_singleton.1 he]
  simp

/-- What becomes of an opening whose errand has ended: another errand is sent out, or none. -/
theorem deliver_inOrder {o : Opening} (h : o.courier.InOrder) (hnone : o.courier.errands = [])
    (id : Nat) {outcome : Errand.Outcome}
    (hreached : ∀ reached, outcome = .surveyed reached → ∀ m ∈ reached, m < o.courier.pool.size) :
    (o.deliver id outcome).state.InOrder ∧
      ∀ who s, (who, Except.ok s) ∈ (o.deliver id outcome).results → s.Fresh := by
  have hsole : o.InOrder := ⟨h, by rw [hnone]; exact Nat.zero_le 1⟩
  cases outcome with
  | surveyed reached =>
      cases reached with
      | nil                =>
          refine ⟨hsole, fun who s hmem => ?_⟩
          exact nomatch congrArg Prod.snd (List.mem_singleton.1 hmem)
      | cons guess reached =>
          have hguess : guess < o.courier.pool.size := hreached _ rfl guess (List.mem_cons_self ..)
          have horder : Courier.InOrder { o.courier with guess } := ⟨hguess, h.placed, h.numbered⟩
          refine ⟨⟨(Courier.beginLead_setOut horder .clientId).order, ?_⟩, fun _ _ hmem => nomatch hmem⟩
          show (o.courier.errands ++ [_]).length ≤ 1
          rw [hnone]
          exact Nat.le_refl 1
  | led answer       =>
      refine ⟨hsole, fun who s hmem => ?_⟩
      have hsession := congrArg Prod.snd (List.mem_singleton.1 hmem)
      cases answer with
      | error error => exact nomatch hsession
      | ok reply    =>
          rw [Except.ok.inj hsession]
          exact ⟨rfl, hnone, h.guess⟩
  | replied _        => exact ⟨hsole, fun _ _ hmem => nomatch hmem⟩
  | recorded _       => exact ⟨hsole, fun _ _ hmem => nomatch hmem⟩
  | closed           => exact ⟨hsole, fun _ _ hmem => nomatch hmem⟩

/-- A step keeps what is being opened in order, and a session that it leads to is fresh. -/
theorem step_inOrder {o : Opening} (h : o.InOrder) (id : Nat) (sig : Signal) :
    (o.step id sig).state.InOrder ∧
      ∀ who s, (who, Except.ok s) ∈ (o.step id sig).results → s.Fresh := by
  rw [step]
  rcases Courier.step_advances h.courier.placed id sig with ⟨_, hidle⟩ | ⟨e, hf, rfl, hadv⟩
  · rw [Progress.feed_of_nil (by rw [hidle]), hidle]
    exact ⟨h, fun _ _ hmem => nomatch hmem⟩
  · have hmem : e ∈ o.courier.errands := List.mem_of_find?_eq_some hf
    have horder := hadv.inOrder hmem h.courier
    cases hadv.turns with
    | rests errands results                  =>
        rw [Progress.feed_of_nil results]
        exact ⟨⟨horder, errands ▸ h.sole⟩, fun _ _ hmem => nomatch hmem⟩
    | moves e' _ _ _ errands results         =>
        rw [Progress.feed_of_nil results]
        refine ⟨⟨horder, ?_⟩, fun _ _ hmem => nomatch hmem⟩
        show (o.courier.step e.id sig).state.errands.length ≤ 1
        rw [errands]
        show (o.courier.errands.map _).length ≤ 1
        rw [List.length_map]
        exact h.sole
    | ends outcome warranted errands results =>
        obtain ⟨hstate, hres⟩ := Progress.feed_of_singleton (β := Opening) results
        rw [hstate, hres]
        refine deliver_inOrder horder (errands.trans (errands_abandon h.sole hmem)) e.id ?_
        rintro reached rfl m hm
        show m < (o.courier.step e.id sig).state.pool.size
        rw [hadv.keeps.size]
        exact warranted.2 m hm

/-- What is being opened stays in order. -/
theorem run_inOrder {o : Opening} (h : o.InOrder) (told : List (Nat × Signal)) :
    (o.run told).InOrder := by
  induction told generalizing o with
  | nil          => exact h
  | cons t told ih => exact ih (step_inOrder h t.1 t.2).1

end Opening

/-- A session that was opened: some configuration, with whatever its members said, has led to it. -/
def Session.Opened (s : Session) : Prop :=
  ∃ config o told id sig who, Opening.begin config = .ok o ∧
    (who, Except.ok s) ∈ ((o.run told).step id sig).results

/-- **Every session that was opened is fresh.** -/
theorem Session.Opened.fresh {s : Session} (h : s.Opened) : s.Fresh := by
  obtain ⟨config, o, told, id, sig, who, hbegin, hmem⟩ := h
  have horder := Opening.run_inOrder (Opening.begin_inOrder hbegin) told
  exact (Opening.step_inOrder horder id sig).2 who s hmem

/-! ## Three members -/

namespace Session

/-- A session with three members, as it is when it was opened at the first one. -/
def trio : Session where
  settings :=
    { leaderBackoff := 100000000, retry := {}, selection := .excludeLeader, firstSeq := 0
      leaderBackoff_pos := by decide, maxAttempts_ne := by decide, deadline_ne := by decide
      backoff_pos := by decide }
  identity := ⟨⟨42⟩, ⟨0⟩⟩
  courier  :=
    { pool := ⟨[⟨⟨"m0"⟩, true, {}⟩, ⟨⟨"m1"⟩, true, {}⟩, ⟨⟨"m2"⟩, true, {}⟩], false⟩
      guess := 0, backoff := 100000000, fresh := 2 }

/-- The trio while its members are being reached. -/
def trioOpening : Opening where
  settings := trio.settings
  courier  :=
    { pool := .ofMembers [⟨"m0"⟩, ⟨"m1"⟩, ⟨"m2"⟩], guess := 0, backoff := 100000000
      errands := [⟨0, .survey 0 [], .ready⟩], fresh := 1 }

/-- What its errands are told until the first member is asked for a client id. -/
def trioTold : List (Nat × Signal) :=
  [(0, .proceed), (0, .connected (.ok ())), (0, .proceed), (0, .connected (.ok ())),
    (0, .proceed), (0, .connected (.ok ())), (0, .proceed), (1, .proceed)]

/-- All three members were reached, and the first one has handed out the client id. -/
theorem trio_opened : trio.Opened := by
  have hbegin : Opening.begin ⟨[⟨"m0"⟩, ⟨"m1"⟩, ⟨"m2"⟩], {}⟩ = .ok trioOpening := rfl
  have hresults : ((trioOpening.run trioTold).step 1
      (.answered (.ok (.clientId ⟨true, ⟨42⟩, some ⟨"m0"⟩⟩)))).results = [(1, .ok trio)] := rfl
  have hmem := List.mem_singleton.2 (Eq.refl ((1 : Nat), Except.ok (ε := SessionError) trio))
  rw [← hresults] at hmem
  exact ⟨_, trioOpening, trioTold, 1, _, 1, hbegin, hmem⟩

/-- The first command that a trio is given, and the second. -/
def trioEntry (n : Nat) : LogEntry :=
  .command [UInt8.ofNat (97 + n)] [⟨[UInt8.ofNat (107 + n)]⟩] ⟨42⟩ ⟨UInt64.ofNat n⟩

end Session

end WitnessReplication

import WitnessReplication.Proofs.SoleRuns
import WitnessReplication.Proofs.WitnessQuorum

/-!
# Fast path — how the attempt of a sole call is decided

    In a session that stays open and is used by one call at a time, an attempt on the fast route is
    decided by what was exchanged since it began, and by nothing else.  A witness alone never
    decides: whatever becomes of its record, the call goes on waiting.  And once nobody is waited for
    any more, the attempt is decided as soon as the call goes on.

* **`record_decides_nothing`** — an errand to a witness and the call.
* **`rules_of_complete`** — an attempt that waits for nobody.
* **`fast_path_exact`** — every attempt of every run is decided as its exchanges say.
-/

namespace WitnessReplication

namespace Session

variable {s : Session} {c : Call}

/-- An errand to a witness decides nothing, whatever has become of its record. -/
theorem record_decides_nothing (hs : s.Sole) (ho : s.InOrder) (hc : c ∈ s.calls)
    (hbusy : c.stage ≠ .pausing) {i : Nat} (hcall : s.call? i = none) {e : Errand}
    (hfind : s.courier.find? i = some e) (hnotes : e.Notes) (sig : Signal) :
    (s.react (.signal i sig)).results = [] ∧ ∀ r, ¬ Rules c (s.react (.signal i sig)) r := by
  have hreact : s.react (.signal i sig) = s.absorb (s.courier.step i sig) := step_errand hcall sig
  have hcalls := hs.calls_eq hc
  have htells := step_tells ho (hs.led c hc) hcall hfind sig
  have hid : e.id = i := by simpa using List.find?_some hfind
  rw [hreact]
  generalize s.courier.step i sig = p at htells ⊢
  generalize hresults : p.results = results at htells
  cases htells with
  | nothing _    =>
      unfold absorb
      rw [Progress.feed_of_nil hresults]
      exact ⟨rfl, fun _ => not_rules rfl hcalls hbusy fun h => h⟩
  | led hp _     => exact absurd ⟨_, hp⟩ (Errand.not_leads_of_notes hnotes)
  | @recorded w entry ok hp _ _ =>
      obtain ⟨hstate, hres⟩ := s.absorb_of_singleton hresults
      -- the call stays as it is, or has heard of one witness more
      have hquiet : ∃ c' courier, c'.stage ≠ .pausing ∧
          ((∃ a, c.stage = .attempting a) → ∃ a, c'.stage = .attempting a) ∧
          deliver { s with courier := p.state } e.id (.recorded ok) =
            { state := { s with courier, calls := [c'] } } := by
        cases hawaits : awaits c e.id with
        | true  =>
            rw [deliver_recorded (s := { s with courier := p.state }) (find?_awaits hcalls hawaits)]
            unfold recorded
            split
            · rename_i a hstage
              refine ⟨{ c with stage := .attempting (a.hear e.id ok) }, p.state, nofun,
                fun _ => ⟨_, rfl⟩, ?_⟩
              exact congrArg (fun calls => ({ state := { s with courier := p.state, calls } } : Step))
                (calls_put (t := { s with courier := p.state }) hcalls rfl)
            · exact ⟨c, p.state, hbusy, id, by rw [hcalls]⟩
        | false =>
            refine ⟨c, p.state, hbusy, id, ?_⟩
            rw [deliver_unawaited (s := { s with courier := p.state })
              (find?_awaits_eq_none hcalls hawaits), hcalls]
      obtain ⟨c', courier, hpausing, hkept, hdeliver⟩ := hquiet
      rw [hdeliver] at hstate hres
      exact ⟨hres, fun r => not_rules hres (by rw [hstate]) hpausing hkept⟩

/-- A call that ends because its attempt has failed has not run out of time. -/
theorem ne_deadlineExceeded_of_verdict {policy : RetryPolicy} {attempts : Nat}
    {error last : SessionError} (h : policy.verdict attempts last = some error) (span : Nat) :
    error ≠ .deadlineExceeded span := by
  rintro rfl
  rw [RetryPolicy.verdict] at h
  split at h
  · rename_i hfatal
    rw [Option.some.inj h] at hfatal
    exact nomatch hfatal
  · split at h
    · exact nomatch Option.some.inj h
    · exact nomatch h

/-- An attempt that waits for nobody is decided when the call goes on. -/
theorem rules_of_complete (hs : s.Sole) (hc : c ∈ s.calls) {a : Attempt}
    (hstage : c.stage = .attempting a) (hcomplete : a.isComplete = true) :
    ∃ r, Rules c (s.react (.signal c.id .proceed)) r := by
  have hcalls := hs.calls_eq hc
  have hreact : s.react (.signal c.id .proceed) = s.advance c a := step_proceed hcalls hstage
  obtain ⟨hanswer, hpending⟩ := Bool.and_eq_true_iff.1 hcomplete
  obtain ⟨answer, hanswer⟩ := Option.isSome_iff_exists.1 hanswer
  have hfollow : s.advance c a = s.follow c (a.decision s.courier.guess answer) := by
    simp [advance, hanswer, List.isEmpty_iff.1 hpending]
  rw [hreact, hfollow]
  cases a.decision s.courier.guess answer with
  | commit data path => exact ⟨_, .returns (List.mem_singleton.2 rfl)⟩
  | sync data        =>
      have hmem := mem_put (t := { s with courier := (s.courier.beginLead (.sync (some c.entry))).2 })
        hcalls (Eq.refl ({ c with stage := .syncing data s.courier.fresh } : Call).id)
      exact ⟨_, .sends hstage hmem rfl rfl⟩
  | fail error       =>
      rw [follow, conclude]
      split
      · rename_i error' hverdict
        exact ⟨_, .fails (ne_deadlineExceeded_of_verdict hverdict) (List.mem_singleton.2 rfl)⟩
      · have hmem := mem_put hcalls (Eq.refl ({ c with stage := .pausing } : Call).id)
        exact ⟨_, .pauses hmem rfl rfl⟩

/-- How a step decides the attempt of a sole call, whose last attempt began when `snapshot` was
    believed to lead: `xs` are the exchanges since then. -/
structure DecidesExactly (s : Session) (c : Call) (x : Input) (selection : WitnessSelection)
    (size snapshot : Nat) (xs : List Exchange) : Prop where
  /-- Whatever is decided is what the exchanges say. -/
  lawful  : ∀ r, Rules c (s.react x) r → c.Lawful selection size snapshot xs r
  /-- To make the leader order a command is to send it a sync of this command. -/
  sends   : ∀ data errand, Rules c (s.react x) (.fallback data errand) →
    s.SendsSync (s.react x).state.courier c.entry errand
  /-- An attempt that waits for nobody is decided when it goes on. -/
  decides : ∀ a, c.stage = .attempting a → a.isComplete = true → x = .signal c.id .proceed →
    ∃ r, Rules c (s.react x) r
  /-- A witness decides nothing, whatever has become of its record. -/
  records : ∀ i sig e, x = .signal i sig → s.call? i = none → s.courier.find? i = some e → e.Notes →
    (s.react x).results = [] ∧ ∀ r, ¬ Rules c (s.react x) r

/-- **The fast path is exact**: for every session that stays open and is used by one call at a time,
    whatever its members do, every attempt on the fast route is decided as the exchanges since it
    began say, and by nothing else. -/
theorem fast_path_exact {s₀ : Session} (h₀ : s₀.Opened) {inputs : List Input} {x : Input}
    (hopen : s₀.OneAtATime (inputs ++ [x])) {c : Call} (hc : c ∈ (s₀.run inputs).calls)
    (hfast : c.route = .fast) (hbusy : c.stage ≠ .pausing) :
    ∃ begun window, s₀.LastAttempt inputs c.id c.attempts begun window ∧
      (s₀.run inputs).DecidesExactly c x s₀.settings.selection s₀.courier.pool.size
        (s₀.run begun).courier.guess ((s₀.run begun).exchanges (window ++ [x])) := by
  have hfresh := h₀.fresh
  obtain ⟨hbefore, hallows, _⟩ := oneAtATime_append.1 hopen
  obtain ⟨hsole, hcalls⟩ := run_knows hfresh.sole hfresh.inOrder hfresh.calls hbefore
  obtain ⟨horder, hsettings, hmembers, _⟩ := run_traced hfresh inputs
  obtain ⟨begun, window, hlast, hknows⟩ := (hcalls c hc).resolve_left hbusy
  have hminds := react_minds hsole horder hallows
  refine ⟨begun, window, hlast, ?lawful, ?sends, ?decides, ?records⟩
  case lawful  =>
    intro r hr
    have hlaw := (hminds.rules c hc hbusy hfast r hr).1
    rw [hsettings, Pool.size_of_members hmembers] at hlaw
    rw [hlast.exchanges]
    exact hlaw _ _ hknows
  case sends   => exact fun data errand hr => (hminds.rules c hc hbusy hfast _ hr).2 data errand rfl
  case decides =>
    rintro a hstage hcomplete rfl
    exact rules_of_complete hsole hc hstage hcomplete
  case records =>
    rintro i sig e rfl hcall hfind hnotes
    exact record_decides_nothing hsole horder hc hbusy hcall hfind hnotes sig

/-- The law at a call that goes well: it waits for nobody any more, so it is decided. -/
theorem fast_path_exact_of_three :
    trio.Opened ∧ trio.OneAtATime (smoothRun ++ [.signal 2 .proceed]) ∧
      ∃ c ∈ (trio.run smoothRun).calls, c.route = .fast ∧ c.stage ≠ .pausing ∧
        ∃ begun window, trio.LastAttempt smoothRun c.id c.attempts begun window ∧
          (trio.run smoothRun).DecidesExactly c (.signal 2 .proceed) .excludeLeader 3
            (trio.run begun).courier.guess
            ((trio.run begun).exchanges (window ++ [.signal 2 .proceed])) := by
  have hopen : trio.OneAtATime (smoothRun ++ [.signal 2 .proceed]) :=
    ⟨rfl, trivial, trivial, trivial, trivial, trivial, trivial, trivial, trivial⟩
  have hc : _ ∈ (trio.run smoothRun).calls := List.mem_singleton.2 rfl
  exact ⟨trio_opened, hopen, _, hc, rfl, nofun, fast_path_exact trio_opened hopen hc rfl nofun⟩

end Session

end WitnessReplication

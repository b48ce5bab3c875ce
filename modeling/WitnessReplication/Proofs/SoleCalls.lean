import WitnessReplication.Proofs.AttemptHistory
import WitnessReplication.Proofs.ErrandSteps

/-!
# Sole calls — a session that is used by one call at a time

    Calls share the belief who leads, and each of them may move it while another one waits.  If one
    call is made after the other, nobody but the call's own errand to the leader moves it.  So that
    errand, when it is at a member's slot, is at the slot of the member that is believed to lead; and
    whoever takes the request is believed to lead from then on, until the next such errand.

* **`Courier.Steered`** — at most one errand looks for the leader, and it is where the belief is.
* **`goes_conducted`** — a step of an errand keeps it so.
* **`Session.Sole`** — the same for a session, and **`Session.OneAtATime`**, the runs that keep it.
* **`Session.step_errand`** — what an errand is told is up to the courier, and what comes of it, to the
  call that waits for it.
-/

namespace WitnessReplication

/-- The errand to the leader that a call waits for and that is not done. -/
def Call.Stage.awaited? : Call.Stage → Option Nat
  | .attempting a => if a.answer.isNone then some a.leader else none
  | .syncing _ id => some id
  | .pausing      => none

/-- An attempt waits for its errand to the leader until that is done. -/
theorem Call.Stage.awaited?_attempting {a : Attempt} {i : Nat} :
    (Call.Stage.attempting a).awaited? = some i ↔ a.answer = none ∧ a.leader = i := by
  show (if a.answer.isNone = true then some a.leader else none) = some i ↔ _
  cases a.answer <;> simp

/-- Once it is answered, it waits for the witnesses only. -/
theorem Call.Stage.awaited?_answered {a : Attempt} {answer : Except SessionError Reply}
    (h : a.answer = some answer) : (Call.Stage.attempting a).awaited? = none := by
  show (if a.answer.isNone = true then some a.leader else none) = none
  rw [h]
  rfl

namespace Session

variable {c : Call} {i : Nat}

/-- An attempt waits for its errand to the leader and for those to the witnesses. -/
theorem awaits_attempting {a : Attempt} (h : c.stage = .attempting a) :
    awaits c i = true ↔ a.leader = i ∨ i ∈ a.pending := by
  unfold awaits
  rw [h]
  simp

theorem awaits_syncing {data : Bytes} {errand : Nat} (h : c.stage = .syncing data errand) :
    awaits c i = true ↔ errand = i := by
  unfold awaits
  rw [h]
  simp

theorem awaits_pausing (h : c.stage = .pausing) : awaits c i = false := by
  unfold awaits
  rw [h]

/-- A call waits for the errand to the leader that is not done. -/
theorem awaits_of_awaited (h : c.stage.awaited? = some i) : awaits c i = true := by
  cases hstage : c.stage with
  | pausing             => rw [hstage] at h; exact nomatch h
  | syncing data errand =>
      rw [hstage] at h
      exact (awaits_syncing hstage).2 (Option.some.inj h)
  | attempting a        =>
      rw [hstage] at h
      exact (awaits_attempting hstage).2 (Or.inl (Call.Stage.awaited?_attempting.1 h).2)

/-- A call may go on once its attempt waits for nobody. -/
theorem mayProceed_iff :
    mayProceed c = true ↔ ∃ a, c.stage = .attempting a ∧ a.isComplete = true := by
  unfold mayProceed
  cases c.stage <;> simp

variable {s : Session}

/-- A sole call is found by its number. -/
theorem call?_self (hcalls : s.calls = [c]) : s.call? c.id = some c := by
  simp [call?, hcalls]

/-- A call goes on with its attempt. -/
theorem step_proceed (hcalls : s.calls = [c]) {a : Attempt} (hstage : c.stage = .attempting a) :
    s.step c.id .proceed = s.advance c a := by
  unfold step
  rw [call?_self hcalls]
  dsimp only
  rw [hstage]

/-- Once it has rested, it makes its next attempt. -/
theorem step_rested (hcalls : s.calls = [c]) (hstage : c.stage = .pausing) :
    s.step c.id .rested = s.goRound c := by
  unfold step
  rw [call?_self hcalls]
  dsimp only
  rw [hstage]

/-- What an errand comes to is handed on. -/
theorem step_errand (hcall : s.call? i = none) (sig : Signal) :
    s.step i sig = s.absorb (s.courier.step i sig) := by
  unfold step
  rw [hcall]

/-- The leader's answer is told to the call that waits for it. -/
theorem deliver_led (h : (s.calls.find? fun d => awaits d i) = some c)
    (answer : Except SessionError Reply) : s.deliver i (.led answer) = s.led c i answer := by
  unfold deliver
  rw [h]

/-- So is what came of a record. -/
theorem deliver_recorded (h : (s.calls.find? fun d => awaits d i) = some c) (ok : Bool) :
    s.deliver i (.recorded ok) = s.recorded c i ok := by
  unfold deliver
  rw [h]

/-- Nobody is told of a record that no call waits for. -/
theorem deliver_unawaited (h : (s.calls.find? fun d => awaits d i) = none) (ok : Bool) :
    s.deliver i (.recorded ok) = { state := s } := by
  unfold deliver
  rw [h]

/-- Whether a sole call waits for an errand. -/
theorem find?_awaits (hcalls : s.calls = [c]) (h : awaits c i = true) :
    (s.calls.find? fun d => awaits d i) = some c := by
  rw [hcalls]
  exact List.find?_cons_of_pos h

theorem find?_awaits_eq_none (hcalls : s.calls = [c]) (h : awaits c i = false) :
    (s.calls.find? fun d => awaits d i) = none := by
  rw [hcalls]
  exact List.find?_cons_of_neg (Bool.eq_false_iff.1 h)

end Session

namespace Courier

/-- All errands are errands of calls.  At most one of them looks for the leader; if it is at the slot
    of a member, that member is believed to lead. -/
structure Steered (c : Courier) (lead : Option Nat) : Prop where
  ofCall : ∀ e ∈ c.errands, e.OfCall
  sole   : ∀ e ∈ c.errands, e.Leads → lead = some e.id
  member : ∀ e ∈ c.errands, e.Leads → ∀ m, e.stage.member? = some m → m = c.guess

variable {c : Courier} {e : Errand} {s : Signal} {lead : Option Nat}

namespace Steered

/-- Only the errands and the belief matter. -/
theorem of_errands (h : c.Steered lead) {c' : Courier} (errands : c'.errands = c.errands)
    (guess : c'.guess = c.guess) : c'.Steered lead where
  ofCall := errands ▸ h.ofCall
  sole   := errands ▸ h.sole
  member := by
    rw [errands, guess]
    exact h.member

/-- An errand goes on its way.  If it looks for the leader it may change the belief, since no other
    errand does. -/
theorem put (h : c.Steered lead) (he : e ∈ c.errands) (e' : Errand) (id : e'.id = e.id)
    (purpose : e'.aim.purpose = e.aim.purpose) {c₁ : Courier} (errands : c₁.errands = c.errands)
    (guess : e.Leads ∨ c₁.guess = c.guess)
    (member : e'.Leads → ∀ m, e'.stage.member? = some m → m = c₁.guess) :
    (c₁.put e').Steered lead := by
  have hleads : e'.Leads ↔ e.Leads := by rw [Errand.Leads, Errand.Leads, purpose]
  have hmem : ∀ f' ∈ (c₁.put e').errands, f' = e' ∨ f' ∈ c.errands ∧ f'.id ≠ e'.id := by
    intro f' hf'
    have hf'' : f' ∈ c.errands.map fun f => if f.id = e'.id then e' else f := errands ▸ hf'
    obtain ⟨f, hf, rfl⟩ := List.mem_map.1 hf''
    by_cases hid : f.id = e'.id
    · rw [if_pos hid]
      exact Or.inl rfl
    · rw [if_neg hid]
      exact Or.inr ⟨hf, hid⟩
  constructor
  case ofCall =>
    intro f' hf'
    rcases hmem f' hf' with rfl | ⟨hf, _⟩
    · exact Errand.ofCall_of_purpose (h.ofCall e he) purpose
    · exact h.ofCall f' hf
  case sole   =>
    intro f' hf' hl
    rcases hmem f' hf' with rfl | ⟨hf, _⟩
    · rw [id]
      exact h.sole e he (hleads.1 hl)
    · exact h.sole f' hf hl
  case member =>
    intro f' hf' hl m hm
    rcases hmem f' hf' with rfl | ⟨hf, hne⟩
    · exact member hl m hm
    · rcases guess with hlead | hsame
      · -- two errands that look for the leader have the same number
        have hid := (h.sole f' hf hl).symm.trans (h.sole e he hlead)
        exact absurd ((Option.some.inj hid).trans id.symm) hne
      · exact (h.member f' hf hl m hm).trans hsame.symm

/-- An errand is taken away. -/
theorem abandon (h : c.Steered lead) (id : Nat) : (c.abandon id).Steered lead where
  ofCall := fun e he => h.ofCall e (List.mem_filter.1 he).1
  sole   := fun e he => h.sole e (List.mem_filter.1 he).1
  member := fun e he => h.member e (List.mem_filter.1 he).1

/-- The errand that looks for the leader is taken away, and there is no other. -/
theorem abandon_lead {id : Nat} (h : c.Steered (some id)) : (c.abandon id).Steered none where
  ofCall := (h.abandon id).ofCall
  sole   := by
    intro e he hleads
    obtain ⟨hmem, hne⟩ := List.mem_filter.1 he
    rw [Option.some.inj (h.sole e hmem hleads)] at hne
    exact absurd rfl (of_decide_eq_true hne)
  member := (h.abandon id).member

/-- A request is sent out to the leader. -/
theorem beginLead (h : c.Steered none) (request : Request) :
    (c.beginLead request).2.Steered (some (c.beginLead request).1) := by
  have hmem : ∀ e ∈ (c.beginLead request).2.errands, e ∈ c.errands ∨
      e = ⟨c.fresh, .lead request c.pool.size, .awaitsTurn⟩ := by
    intro e he
    rcases List.mem_append.1 he with he | he
    · exact Or.inl he
    · exact Or.inr (List.mem_singleton.1 he)
  constructor
  case ofCall =>
    intro e he
    rcases hmem e he with he | rfl
    · exact h.ofCall e he
    · exact Or.inl ⟨request, rfl⟩
  case sole   =>
    intro e he hleads
    rcases hmem e he with he | rfl
    · exact nomatch h.sole e he hleads
    · rfl
  case member =>
    intro e he hleads m hm
    rcases hmem e he with he | rfl
    · exact nomatch h.sole e he hleads
    · exact nomatch hm

/-- Records are sent out to witnesses. -/
theorem beginRecords (h : c.Steered lead) (entry : LogEntry) (ws : List Nat) :
    (c.beginRecords entry ws).2.Steered lead := by
  have hmem : ∀ e ∈ (c.beginRecords entry ws).2.errands, e ∈ c.errands ∨ e.Notes := by
    intro e he
    rw [beginRecords_eq] at he
    rcases List.mem_append.1 he with he | he
    · exact Or.inl he
    · obtain ⟨p, _, rfl⟩ := List.mem_map.1 he
      exact Or.inr ⟨p.2, entry, rfl⟩
  have hguess : (c.beginRecords entry ws).2.guess = c.guess := by rw [beginRecords_eq]
  constructor
  case ofCall =>
    intro e he
    rcases hmem e he with he | hnotes
    · exact h.ofCall e he
    · exact Or.inr hnotes
  case sole   =>
    intro e he hleads
    rcases hmem e he with he | hnotes
    · exact h.sole e he hleads
    · exact absurd hleads (Errand.not_leads_of_notes hnotes)
  case member =>
    intro e he hleads m hm
    rw [hguess]
    rcases hmem e he with he | hnotes
    · exact h.member e he hleads m hm
    · exact absurd hleads (Errand.not_leads_of_notes hnotes)

end Steered

/-! ## What a step does to the belief -/

/-- What a step of an errand does to the belief who leads, and to the errands that look for the
    leader. -/
structure Conducted (c : Courier) (e : Errand) (lead : Option Nat) (p : Step) : Prop where
  steered : p.state.Steered lead
  /-- When the errand to the leader ends, nobody looks for the leader any more. -/
  ended   : e.Leads → p.results ≠ [] → p.state.Steered none
  /-- A record does not change the belief. -/
  noted   : e.Notes → p.state.guess = c.guess
  /-- Neither does a member that takes the request. -/
  taken   : ∀ reply, p.results = [(e.id, .led (.ok reply))] → p.state.guess = c.guess

/-- An errand goes on its way, and the belief stays. -/
private theorem conducted_put (h : c.Steered lead) (he : e ∈ c.errands) {aim : Errand.Aim}
    (stage : Errand.Stage) (purpose : aim.purpose = e.aim.purpose)
    (member : e.Leads → ∀ m, stage.member? = some m → m = c.guess) (pool : Pool)
    (ds : List (Demand Nat)) :
    c.Conducted e lead { state := { c with pool }.put { e with aim, stage }, demands := ds } where
  steered := h.put he { e with aim, stage } rfl purpose rfl (Or.inr rfl) fun hleads =>
    member (by rwa [Errand.Leads, purpose] at hleads)
  ended   := fun _ hne => absurd rfl hne
  noted   := fun _ => rfl
  taken   := nofun

/-- An errand ends, and the belief stays. -/
private theorem conducted_finish (h : c.Steered lead) (he : e ∈ c.errands)
    (outcome : Errand.Outcome) (pool : Pool) (knownTerm : Term) :
    c.Conducted e lead ({ c with pool, knownTerm }.finish e outcome) := by
  have hsame : ({ c with pool, knownTerm } : Courier).Steered lead := h.of_errands rfl rfl
  refine ⟨hsame.abandon e.id, fun hleads _ => ?_, fun _ => rfl, fun _ _ => rfl⟩
  have hlead := h.sole e he hleads
  subst hlead
  exact hsame.abandon_lead

/-- Settling what came of a try: only an errand that looks for the leader changes the belief, and
    only if it is to try elsewhere. -/
private theorem conducted_settle (h : c.Steered lead) (he : e ∈ c.errands)
    (outcome : Except TransportError Reply) (pool : Pool) :
    c.Conducted e lead ({ c with pool }.settle e outcome) := by
  have hof := h.ofCall e he
  cases haim : e.aim with
  | lead request tries =>
      have hpurpose : (Errand.Aim.lead request (tries - 1)).purpose = e.aim.purpose := by
        rw [haim]
        rfl
      have hsettles := settle_lead (c := { c with pool }) haim outcome
      generalize settle _ e outcome = p at hsettles
      cases hsettles with
      | accepted _ | malformed _ => exact conducted_finish h he _ pool c.knownTerm
      | backsOff _ _             =>
          exact conducted_put h he .backingOff hpurpose (fun _ _ hm => nomatch hm) pool _
      | retargets verdict        =>
          have hleads : e.Leads := ⟨request, by rw [haim]; rfl⟩
          refine ⟨?_, (fun _ hne => absurd rfl hne), fun hnotes => ?_, nofun⟩
          · exact h.put he { e with aim := _, stage := .ready } rfl hpurpose rfl
              (Or.inl hleads) fun _ _ hm => nomatch hm
          · exact absurd hleads (Errand.not_leads_of_notes hnotes)
  | record w entry term =>
      obtain ⟨known, ok, heq, _⟩ := settle_record (c := { c with pool }) haim outcome
      rw [heq]
      exact conducted_finish h he _ pool known
  | direct _ _ | survey _ _ | close _ =>
      rcases hof with ⟨_, hp⟩ | ⟨_, _, hp⟩ <;> (rw [haim] at hp; exact nomatch hp)

/-- **A step of an errand** keeps the belief with the errand that looks for the leader. -/
theorem goes_conducted (h : c.Steered lead) (he : e ∈ c.errands) {p : Step} (hg : c.Goes e s p) :
    c.Conducted e lead p := by
  cases hg with
  | rests _                 => exact ⟨h, (fun _ hne => absurd rfl hne), fun _ => rfl, nofun⟩
  | givesUp _ _             => exact conducted_finish h he _ c.pool c.knownTerm
  | refused _ _ _           => exact conducted_settle h he _ c.pool
  | arrives _ _ _ _ place   =>
      refine conducted_put h he _ (c.brief_purpose e.aim) (fun hleads m hm => ?_) _ _
      obtain ⟨request, hp⟩ := hleads
      obtain rfl := Option.some.inj (place.symm.trans hm)
      rw [destination, hp]
      rfl
  | enters waits _ further  =>
      refine conducted_put h he _ rfl (fun hleads m hm => ?_) c.pool _
      refine h.member e he hleads m ?_
      rw [waits]
      rcases further with rfl | rfl <;> exact hm
  | connects waits          =>
      refine conducted_put h he _ rfl (fun hleads m hm => ?_) _ _
      refine h.member e he hleads m ?_
      rw [waits]
      exact hm
  | unconnected _           => exact conducted_settle h he _ _
  | exchanged _ _           => exact conducted_settle h he _ _
  | wakes _                 =>
      exact conducted_put h he .ready rfl (fun _ _ hm => nomatch hm) c.pool []

end Courier

end WitnessReplication

import Mathlib.Data.List.Induction
import WitnessReplication.Proofs.LoggedMachine

/-!
# Durability — what becomes of a command after it was executed

    A leader that has executed a command either syncs everything in the same breath or lets the
    command wait among the unsynced ones.  From there two ways lead out: a sync takes everything
    that waits and makes it durable, and a loss of leadership drops everything that waits.  Nothing
    marks a command that was dropped; its answer stays cached, and whether a command is durable is
    read off its absence from what waits.

    So, without sweeps, a command is in exactly one of four places, and its place is a function of
    the run: never executed, waiting, durable, dropped.

* **`Settles`** and **`perform_settles`** — the four things an action does to what waits.
* **`Fate`** and **`fate_run`** — the place of every command after every run.
* **`acks_durable_iff`** — a command that is acknowledged as durable is durable, unless it was
  dropped.
* **`acks_dropped`** — and one that was dropped is acknowledged as well.
-/

namespace WitnessReplication

namespace Replica

variable {σ : Type} [StateMachine σ]

/-! ## What an action does to the commands that wait -/

/-- The four things an action, done to `r` and leaving `r'`, does to the commands that wait. -/
inductive Settles (r : Replica σ) (a : Action) (r' : Replica σ) : Prop where
  /-- No command is executed, and what waited waits on.  Leadership is not lost over it. -/
  | waits (idle : ∀ e, ¬ r.Executes a e) (same : r'.unsynced = r.unsynced)
      (led : r.isLeader = true → r'.isLeader = true)
  /-- A command is executed, and waits behind the others. -/
  | joins (e : LogEntry) (executed : r.Executes a e) (behind : r'.unsynced = r.unsynced ++ [e])
      (led : r'.isLeader = r.isLeader)
  /-- Perhaps a command is executed, and then everything is synced. -/
  | drains (empty : r'.unsynced = []) (told : r'.pending = r.pending ++ r.unsynced.map (·.id))
      (led : r'.isLeader = r.isLeader)
  /-- Leadership is lost, and what waited is dropped without a word to the other witnesses. -/
  | drops (idle : ∀ e, ¬ r.Executes a e) (led : r.isLeader = true) (lost : r'.isLeader = false)
      (empty : r'.unsynced = []) (untold : r'.pending = r.pending)

/-- Syncing after an entry was executed makes all that waited durable. -/
theorem syncAll_settles (r : Replica σ) (now : Nat) (e : LogEntry) (a : Action) :
    r.Settles a (r.applyOnce now e).2.syncAll := by
  refine .drains (syncAll_unsynced _) ?_ ?_
  · rw [syncAll_pending, applyOnce_pending, applyOnce_unsynced]
  · rw [syncAll_isLeader, applyOnce_isLeader]

/-- A leader that is asked to execute a command executes it, unless its answer is cached. -/
theorem command_settles (r : Replica σ) (now : Nat) (e : LogEntry) :
    r.Settles (.request (.command e)) (r.perform now (.request (.command e))).2 := by
  cases hr : r.isLeader with
  | false =>
      obtain ⟨_, _, _, hstate⟩ := perform_entry_refused (a := .request (.command e)) rfl hr now
      rw [hstate]
      refine .waits ?_ rfl id
      rintro e' ⟨_, _, hr', _⟩
      rw [hr] at hr'
      cases hr'
  | true  =>
      have hstate : (r.perform now (.request (.command e))).2 =
          ((r.applyOnce now e).2.acknowledge e (r.isRetransmission e)).2 := by
        show (r.commandReply now e).2 = _
        rw [commandReply, if_pos hr]
      rw [hstate]
      cases hk : e.kind with
      | noop    =>
          rw [applyOnce_noop hk, acknowledge, if_pos hk]
          refine .waits ?_ rfl id
          rintro e' ⟨he, hk', _⟩
          obtain rfl : e = e' := Option.some.inj he
          rw [hk] at hk'
          cases hk'
      | command =>
          have hk' : ¬ e.kind = .noop := by
            rw [hk]
            decide
          cases hl : r.cache.lookup e.client e.seq with
          | some kept =>
              have hagain : r.isRetransmission e = true := by rw [isRetransmission, hl]; rfl
              rw [applyOnce_cached hk hl, acknowledge, if_neg hk', if_pos hagain]
              refine .waits ?_ rfl id
              rintro e' ⟨he, _, _, hnone⟩
              obtain rfl : e = e' := Option.some.inj he
              rw [hl] at hnone
              cases hnone
          | none      =>
              have hagain : ¬ r.isRetransmission e = true := by
                rw [isRetransmission, hl]
                exact Bool.false_ne_true
              rw [acknowledge, if_neg hk', if_neg hagain]
              split
              · refine .joins e ⟨rfl, hk, hr, hl⟩ ?_ (r.applyOnce_isLeader now e)
                show (r.applyOnce now e).2.unsynced ++ [e] = _
                rw [applyOnce_unsynced]
              · exact r.syncAll_settles now e _

/-- A leader that is asked to sync executes the command that is named, if any, and then syncs. -/
theorem sync_settles (r : Replica σ) (now : Nat) (e : Option LogEntry) :
    r.Settles (.request (.sync e)) (r.perform now (.request (.sync e))).2 := by
  show r.Settles (.request (.sync e)) (r.syncReply now e).2
  simp only [syncReply]
  split
  · cases e with
    | none   => exact .drains r.syncAll_unsynced r.syncAll_pending r.syncAll_isLeader
    | some e => exact r.syncAll_settles now e _
  · rename_i hr
    refine .waits ?_ rfl id
    rintro e' ⟨_, _, hr', _⟩
    exact hr hr'

/-- A change of leadership drops what waits at a leader that is none any more, and nothing else. -/
theorem lead_settles (r : Replica σ) (now : Nat) (leader : Option Address) (term : Term) :
    r.Settles (.lead leader term) (r.perform now (.lead leader term)).2 := by
  have hidle := fun e => not_executes_of_no_entry (r := r) (a := .lead leader term) rfl e
  show r.Settles (.lead leader term) (r.lead leader term)
  rw [lead]
  split
  · rename_i h
    obtain ⟨hr, hr'⟩ := Bool.and_eq_true_iff.1 h
    exact .drops hidle hr ((Bool.not_eq_true' _).mp hr') rfl rfl
  · rename_i h
    refine .waits hidle rfl fun hr => ?_
    rw [hr, Bool.true_and, Bool.not_eq_true', Bool.not_eq_false] at h
    exact h

/-- **What any action does to the commands that wait.** -/
theorem perform_settles (r : Replica σ) (now : Nat) (a : Action) :
    r.Settles a (r.perform now a).2 := by
  cases a with
  | request q =>
      cases q with
      | clientId     =>
          have hstate : (r.perform now (.request .clientId)).2 = r.clientIdReply.2 := rfl
          rw [hstate, clientIdReply]
          split <;> exact .waits (not_executes_of_no_entry rfl) rfl id
      | command e    => exact r.command_settles now e
      | record e t   => exact .waits (not_executes_of_no_entry rfl) rfl id
      | sync e       => exact r.sync_settles now e
      | recoveryData => exact .waits (not_executes_of_no_entry rfl) rfl id
      | unfreeze     => exact .waits (not_executes_of_no_entry rfl) rfl id
      | witnessGc ss => exact .waits (not_executes_of_no_entry rfl) rfl id
  | lead leader term => exact r.lead_settles now leader term
  | commit           => exact .drains r.syncAll_unsynced r.syncAll_pending r.syncAll_isLeader
  | takePending      => exact .waits (not_executes_of_no_entry rfl) rfl id
  | evict            => exact .waits (not_executes_of_no_entry rfl) rfl id

/-! ## Where a command is -/

/-- Something holds at one of the actions of a run. -/
def Occurs (P : Replica σ → Nat → Action → Prop) (r : Replica σ) : List (Nat × Action) → Prop
  | []               => False
  | (now, a) :: rest => P r now a ∨ Occurs P (r.perform now a).2 rest

instance decidableOccurs {P : Replica σ → Nat → Action → Prop}
    [∀ r now a, Decidable (P r now a)] :
    (r : Replica σ) → (acts : List (Nat × Action)) → Decidable (Occurs P r acts)
  | _, []               => inferInstanceAs (Decidable False)
  | r, (now, a) :: rest =>
      have := decidableOccurs (P := P) (r.perform now a).2 rest
      inferInstanceAs (Decidable (_ ∨ _))

/-- What occurs in a run occurs in its first part or in its second. -/
theorem occurs_append {P : Replica σ → Nat → Action → Prop} (r : Replica σ)
    (xs ys : List (Nat × Action)) :
    Occurs P r (xs ++ ys) ↔ Occurs P r xs ∨ Occurs P (r.run xs) ys := by
  induction xs generalizing r with
  | nil          => exact ⟨Or.inr, fun h => h.resolve_left id⟩
  | cons x xs ih =>
      show P r x.1 x.2 ∨ Occurs P _ (xs ++ ys) ↔ (P r x.1 x.2 ∨ Occurs P _ xs) ∨ _
      rw [ih, or_assoc]
      exact Iff.rfl

/-- What occurs in a run with one more action occurs in the run, or at this action. -/
theorem occurs_concat {P : Replica σ → Nat → Action → Prop} (r : Replica σ)
    (acts : List (Nat × Action)) (now : Nat) (a : Action) :
    Occurs P r (acts ++ [(now, a)]) ↔ Occurs P r acts ∨ P (r.run acts) now a := by
  rw [occurs_append]
  show _ ∨ (P (r.run acts) now a ∨ False) ↔ _
  rw [or_false]

/-- A command of this name waits to be synced. -/
def Waits (r : Replica σ) (id : RequestId) : Prop := id ∈ r.unsynced.map (·.id)

/-- An action that syncs: nothing waits after it, and the names of what did are told. -/
def Drains (r : Replica σ) (now : Nat) (a : Action) : Prop :=
  (r.perform now a).2.unsynced = [] ∧
    (r.perform now a).2.pending = r.pending ++ r.unsynced.map (·.id)

/-- An action that makes a command durable: the command waited, or the machine is called for it in
    this very action, and the action syncs. -/
def MakesDurable (id : RequestId) (r : Replica (Logged σ)) (now : Nat) (a : Action) : Prop :=
  (r.Waits id ∨ ∃ answer, r.Calls now a id answer) ∧ r.Drains now a

/-- An action that drops a command: it waited, and leadership is lost. -/
def Drops (id : RequestId) (r : Replica σ) (now : Nat) (a : Action) : Prop :=
  r.Waits id ∧ r.isLeader = true ∧ (r.perform now a).2.isLeader = false

/-- A command's answer is cached: it was executed. -/
def Cached (r : Replica σ) (id : RequestId) : Prop :=
  (r.cache.lookup id.client id.seq).isSome = true

/-- The place of a command, from whether it is cached, waits, was made durable and was dropped. -/
inductive Fate (cached waits durable dropped : Prop) : Prop where
  | unseen  (cached : ¬ cached) (waits : ¬ waits) (durable : ¬ durable) (dropped : ¬ dropped)
  | waiting (cached : cached)   (waits : waits)   (durable : ¬ durable) (dropped : ¬ dropped)
  | durable (cached : cached)   (waits : ¬ waits) (durable : durable)   (dropped : ¬ dropped)
  | dropped (cached : cached)   (waits : ¬ waits) (durable : ¬ durable) (dropped : dropped)

/-- A command that no action executes is not called by it. -/
theorem not_calls_of_idle {r : Replica (Logged σ)} {now : Nat} {a : Action}
    (h : ∀ e, ¬ r.Executes a e) (id : RequestId) : ¬ ∃ answer, r.Calls now a id answer := by
  rintro ⟨_, hcalls⟩
  obtain ⟨e, hx, _⟩ := calls_iff.1 hcalls
  exact h e hx

/-- Without sweeps, what is cached after an action was cached before or is executed by it. -/
theorem cached_perform {r : Replica (Logged σ)} {now : Nat} {a : Action} (ha : a ≠ .evict)
    (id : RequestId) :
    (r.perform now a).2.Cached id ↔ r.Cached id ∨ ∃ answer, r.Calls now a id answer := by
  rcases perform_cases r now a with ⟨e, hx, _, hc⟩ | ⟨hidle, _, hc⟩
  · rw [Cached, hc, ResponseCache.lookup_record]
    by_cases hid : e.id = id
    · subst hid
      rw [if_pos ⟨rfl, rfl⟩]
      exact iff_of_true rfl (Or.inr ⟨_, calls_iff.2 ⟨e, hx, rfl, rfl⟩⟩)
    · rw [if_neg fun h => hid (by rw [LogEntry.id, h.1, h.2])]
      constructor
      · exact Or.inl
      · rintro (h | ⟨_, h⟩)
        · exact h
        · obtain ⟨e', hx', hid', _⟩ := calls_iff.1 h
          obtain rfl : e = e' := Option.some.inj (hx.1.symm.trans hx'.1)
          exact absurd hid' hid
  · rw [Cached, hc, if_neg ha]
    exact (or_iff_left (not_calls_of_idle hidle id)).symm

/-- A command that is cached is not executed. -/
theorem not_calls_of_cached {r : Replica (Logged σ)} {now : Nat} {a : Action} {id : RequestId}
    (h : r.Cached id) : ¬ ∃ answer, r.Calls now a id answer := by
  obtain ⟨kept, hl⟩ := Option.isSome_iff_exists.1 h
  rintro ⟨_, hcalls⟩
  exact not_calls_of_lookup hl hcalls

/-- Nothing is dropped as long as leadership is not lost. -/
theorem not_drops_of_led {r : Replica σ} {now : Nat} {a : Action}
    (h : r.isLeader = true → (r.perform now a).2.isLeader = true) (id : RequestId) :
    ¬ Drops id r now a := by
  rintro ⟨_, hr, hr'⟩
  rw [h hr] at hr'
  exact nomatch hr'

/-- **One step of a fate**: a command that is executed waits or is durable at once, a command that
    waits is made durable or dropped, and there is no way back from either. -/
theorem fate_perform {r : Replica (Logged σ)} {id : RequestId} {durable dropped : Prop}
    (h : Fate (r.Cached id) (r.Waits id) durable dropped) {now : Nat} {a : Action}
    (ha : a ≠ .evict) :
    Fate ((r.perform now a).2.Cached id) ((r.perform now a).2.Waits id)
      (durable ∨ MakesDurable id r now a) (dropped ∨ Drops id r now a) := by
  have hcached : (r.perform now a).2.Cached id ↔ r.Cached id ∨ ∃ answer, r.Calls now a id answer :=
    cached_perform ha id
  -- nobody waits where nothing does
  have hnobody : ∀ {r' : Replica (Logged σ)}, r'.unsynced = [] → ¬ r'.Waits id := by
    intro r' hempty hw
    rw [Waits, hempty] at hw
    exact nomatch hw
  cases r.perform_settles now a with
  | waits idle same led =>
      have hcalls : ¬ ∃ answer, r.Calls now a id answer := not_calls_of_idle idle id
      have hwaits : (r.perform now a).2.Waits id ↔ r.Waits id := by rw [Waits, same]; rfl
      have hdurable : ¬ MakesDurable id r now a := by
        rintro ⟨hw | hc, hempty, _⟩
        · exact hnobody hempty (hwaits.2 hw)
        · exact hcalls hc
      have hdropped := not_drops_of_led led id
      simpa only [hcached, hcalls, hwaits, hdurable, hdropped, or_false] using h
  | joins e executed behind led =>
      have hcalls : (∃ answer, r.Calls now a id answer) ↔ e.id = id := by
        constructor
        · rintro ⟨_, hc⟩
          obtain ⟨e', hx, hid, _⟩ := calls_iff.1 hc
          obtain rfl : e = e' := Option.some.inj (executed.1.symm.trans hx.1)
          exact hid
        · intro hid
          exact ⟨_, calls_iff.2 ⟨e, executed, hid, rfl⟩⟩
      have hwaits : (r.perform now a).2.Waits id ↔ r.Waits id ∨ e.id = id := by
        rw [Waits, behind, List.map_append, List.mem_append]
        simp only [List.map_cons, List.map_nil, List.mem_singleton]
        rw [Waits, eq_comm (a := id)]
      have hdurable : ¬ MakesDurable id r now a := by
        rintro ⟨_, hempty, _⟩
        rw [behind] at hempty
        exact List.append_ne_nil_of_right_ne_nil _ (List.cons_ne_nil e []) hempty
      have hdropped := not_drops_of_led (fun hr => led.trans hr) id
      by_cases hid : e.id = id
      · -- a command that is executed was not cached, so it is the unseen one
        have hnew : ¬ r.Cached id := fun hc => not_calls_of_cached hc (hcalls.2 hid)
        cases h with
        | unseen _ _ hdur hdrop =>
            exact .waiting (hcached.2 (Or.inr (hcalls.2 hid))) (hwaits.2 (Or.inr hid))
              (not_or.2 ⟨hdur, hdurable⟩) (not_or.2 ⟨hdrop, hdropped⟩)
        | waiting hc            => exact absurd hc hnew
        | durable hc            => exact absurd hc hnew
        | dropped hc            => exact absurd hc hnew
      · simpa only [hcached, hcalls, hwaits, hdurable, hdropped, hid, or_false] using h
  | drains empty told led =>
      have hwaits := hnobody empty
      have hdurable : MakesDurable id r now a ↔
          r.Waits id ∨ ∃ answer, r.Calls now a id answer := and_iff_left ⟨empty, told⟩
      have hdropped := not_drops_of_led (fun hr => led.trans hr) id
      cases h with
      | unseen hc hw hdur hdrop =>
          by_cases hcalls : ∃ answer, r.Calls now a id answer
          · exact .durable (hcached.2 (Or.inr hcalls)) hwaits
              (Or.inr (hdurable.2 (Or.inr hcalls))) (not_or.2 ⟨hdrop, hdropped⟩)
          · exact .unseen (fun h => (hcached.1 h).elim hc hcalls) hwaits
              (not_or.2 ⟨hdur, fun h => (hdurable.1 h).elim hw hcalls⟩)
              (not_or.2 ⟨hdrop, hdropped⟩)
      | waiting hc hw hdur hdrop =>
          exact .durable (hcached.2 (Or.inl hc)) hwaits (Or.inr (hdurable.2 (Or.inl hw)))
            (not_or.2 ⟨hdrop, hdropped⟩)
      | durable hc hw hdur hdrop =>
          exact .durable (hcached.2 (Or.inl hc)) hwaits (Or.inl hdur) (not_or.2 ⟨hdrop, hdropped⟩)
      | dropped hc hw hdur hdrop =>
          refine .dropped (hcached.2 (Or.inl hc)) hwaits (not_or.2 ⟨hdur, fun h => ?_⟩)
            (Or.inl hdrop)
          exact (hdurable.1 h).elim hw (not_calls_of_cached hc)
  | drops idle led lost empty untold =>
      have hcalls : ¬ ∃ answer, r.Calls now a id answer := not_calls_of_idle idle id
      have hwaits := hnobody empty
      have hdropped : Drops id r now a ↔ r.Waits id := and_iff_left ⟨led, lost⟩
      have hdurable : ¬ MakesDurable id r now a := by
        rintro ⟨hw | hc, _, htold⟩
        · -- a sync would have told the name
          rw [untold] at htold
          exact hnobody (List.map_eq_nil_iff.1 (List.self_eq_append_right.1 htold)) hw
        · exact hcalls hc
      have hcached' : (r.perform now a).2.Cached id ↔ r.Cached id :=
        hcached.trans (or_iff_left hcalls)
      cases h with
      | unseen hc hw hdur hdrop  =>
          exact .unseen (mt hcached'.1 hc) hwaits (not_or.2 ⟨hdur, hdurable⟩)
            (not_or.2 ⟨hdrop, mt hdropped.1 hw⟩)
      | waiting hc hw hdur hdrop =>
          exact .dropped (hcached'.2 hc) hwaits (not_or.2 ⟨hdur, hdurable⟩)
            (Or.inr (hdropped.2 hw))
      | durable hc hw hdur hdrop =>
          exact .durable (hcached'.2 hc) hwaits (Or.inl hdur) (not_or.2 ⟨hdrop, mt hdropped.1 hw⟩)
      | dropped hc hw hdur hdrop =>
          exact .dropped (hcached'.2 hc) hwaits (not_or.2 ⟨hdur, hdurable⟩) (Or.inl hdrop)

/-- **The fate of every command**, along every run without sweeps from a replica with an empty
    cache that has done nothing yet. -/
theorem fate_run {r₀ : Replica (Logged σ)}
    (hempty : ∀ client seq, r₀.cache.lookup client seq = none) (hnew : r₀.unsynced = [])
    {acts : List (Nat × Action)} (hacts : ∀ x ∈ acts, x.2 ≠ .evict) (id : RequestId) :
    Fate ((r₀.run acts).Cached id) ((r₀.run acts).Waits id)
      (Occurs (MakesDurable id) r₀ acts) (Occurs (Drops id) r₀ acts) := by
  induction acts using List.reverseRecOn with
  | nil                      =>
      refine .unseen ?_ ?_ not_false not_false
      · rw [run_nil, Cached, hempty]
        exact nofun
      · rw [run_nil, Waits, hnew]
        exact nofun
  | append_singleton acts x ih =>
      obtain ⟨now, a⟩ := x
      have hprefix : ∀ y ∈ acts, y.2 ≠ .evict := fun y hy => hacts y (List.mem_append_left _ hy)
      have ha : a ≠ .evict := hacts (now, a) (List.mem_append_right _ (List.mem_singleton.2 rfl))
      rw [run_append, occurs_concat, occurs_concat]
      exact fate_perform (ih hprefix) ha

/-! ## Acknowledgements -/

/-- An action that acknowledges a command as durable: a command request for it that is answered as
    synced, or a sync that names it and succeeds. -/
def Acks (r : Replica σ) (now : Nat) (a : Action) (id : RequestId) : Prop :=
  ∃ e reply, a.entry? = some e ∧ e.kind = .command ∧ e.id = id ∧
    (r.perform now a).1 = some reply ∧ reply.accepted = true ∧
    (reply.synced = true ∨ reply.method = .sync)

omit [StateMachine σ] in
/-- A command that is acknowledged right after its execution does not wait. -/
theorem not_waits_of_acknowledge {r : Replica σ} {e : LogEntry} {again : Bool}
    (hk : e.kind = .command) (h : (r.acknowledge e again).1 = true) :
    ¬ (r.acknowledge e again).2.Waits e.id := by
  have hk' : ¬ e.kind = .noop := by
    rw [hk]
    decide
  rw [acknowledge, if_neg hk'] at h ⊢
  split at h
  · rename_i hagain
    rw [if_pos hagain]
    intro hw
    obtain ⟨u, hu, hid⟩ := List.mem_map.1 hw
    rw [Bool.not_eq_true', List.any_eq_false] at h
    exact h u hu (decide_eq_true hid)
  · rename_i hagain
    rw [if_neg hagain]
    split at h
    · cases h
    · rename_i hcommutes
      rw [if_neg hcommutes, Waits, syncAll_unsynced]
      exact List.not_mem_nil

/-- Who acknowledges a command has its answer cached and does not let it wait.  This is all that an
    acknowledgement says. -/
theorem not_waits_of_acks {r : Replica σ} {now : Nat} {a : Action} {id : RequestId}
    (h : r.Acks now a id) :
    (r.perform now a).2.Cached id ∧ ¬ (r.perform now a).2.Waits id := by
  obtain ⟨e, reply, ha, hk, rfl, hreply, hacc, hack⟩ := h
  cases hr : r.isLeader with
  | false =>
      -- a replica that does not lead acknowledges nothing
      obtain ⟨reply', hreply', hacc', _⟩ := perform_entry_refused ha hr now
      obtain rfl : reply = reply' := Option.some.inj (hreply.symm.trans hreply')
      rw [hacc] at hacc'
      cases hacc'
  | true  =>
      constructor
      · obtain ⟨_, _, _, _, _, hc⟩ := perform_entry ha hr now
        obtain ⟨kept, hl, _⟩ := lookup_applyOnce (r := r) hk now
        rw [Cached, hc]
        exact Option.isSome_iff_exists.2 ⟨kept, hl⟩
      · rcases Action.eq_of_entry? ha with rfl | rfl
        · obtain rfl : Reply.command (r.commandReply now e).1 = reply := Option.some.inj hreply
          have hmethod : ¬ (Reply.command (r.commandReply now e).1).method = .sync :=
            Method.noConfusion
          have hsynced : (r.commandReply now e).1.synced = true := hack.resolve_right hmethod
          show ¬ (r.commandReply now e).2.Waits e.id
          rw [commandReply, if_pos hr] at hsynced ⊢
          exact not_waits_of_acknowledge hk hsynced
        · show ¬ (r.syncReply now (some e)).2.Waits e.id
          rw [syncReply, if_pos hr, Waits, syncAll_unsynced]
          exact List.not_mem_nil

/-- **When an acknowledgement is honest**: along every run without sweeps, over every machine, a
    command that is acknowledged as durable was made durable in the run, by this very action at the
    latest, if and only if no loss of leadership in the run dropped it. -/
theorem acks_durable_iff (me : Address) (leader : Option Address) (term : Term) (machine : σ)
    (retention : Nat) {acts : List (Nat × Action)} (hacts : ∀ x ∈ acts, x.2 ≠ .evict) {now : Nat}
    {a : Action} {id : RequestId}
    (h : ((start me leader term (Logged.mk machine []) retention).run acts).Acks now a id) :
    Occurs (MakesDurable id) (start me leader term (Logged.mk machine []) retention)
        (acts ++ [(now, a)]) ↔
      ¬ Occurs (Drops id) (start me leader term (Logged.mk machine []) retention) acts := by
  have hempty : ∀ client seq,
      (start me leader term (Logged.mk machine []) retention).cache.lookup client seq = none :=
    fun _ _ => rfl
  have hnew : (start me leader term (Logged.mk machine []) retention).unsynced = [] := rfl
  generalize start me leader term (Logged.mk machine []) retention = r₀ at h hempty hnew ⊢
  have hentry : ∃ e, a.entry? = some e := by
    obtain ⟨e, _, he, _⟩ := h
    exact ⟨e, he⟩
  obtain ⟨e, he⟩ := hentry
  have ha : a ≠ .evict := by
    rintro rfl
    exact nomatch he
  have hacts' : ∀ x ∈ acts ++ [(now, a)], x.2 ≠ .evict := by
    intro x hx
    rcases List.mem_append.1 hx with hx | hx
    · exact hacts x hx
    · rw [List.mem_singleton.1 hx]
      exact ha
  -- the request itself drops nothing
  have hdrops : Occurs (Drops id) r₀ (acts ++ [(now, a)]) ↔ Occurs (Drops id) r₀ acts := by
    rw [occurs_concat]
    refine or_iff_left ?_
    rintro ⟨_, hr, hr'⟩
    rw [perform_entry_isLeader he, hr] at hr'
    exact nomatch hr'
  obtain ⟨hcached, hwaits⟩ := not_waits_of_acks h
  have hfate := fate_run hempty hnew hacts' id
  rw [hdrops, run_append] at hfate
  cases hfate with
  | unseen hc               => exact absurd hcached hc
  | waiting _ hw            => exact absurd hw hwaits
  | durable _ _ hdur hdrop  => exact iff_of_true hdur hdrop
  | dropped _ _ hdur hdrop  => exact iff_of_false hdur (not_not_intro hdrop)

/-- The law at a command that waits, is committed and is then asked for again: the second reply
    acknowledges it, and it is durable. -/
theorem acks_durable_after_commit :
    let me : Address := ⟨"m0"⟩
    let e : LogEntry := .command [97] [⟨[107]⟩] ⟨1⟩ ⟨1⟩
    let ask : Action := .request (.command e)
    let r₀ := start me (some me) ⟨1⟩ (Logged.mk Echo.mk []) 60
    let acts := [(0, ask), (1, .commit)]
    (∀ x ∈ acts, x.2 ≠ .evict) ∧ (r₀.run acts).Acks 2 ask e.id ∧
      (Occurs (MakesDurable e.id) r₀ (acts ++ [(2, ask)]) ↔ ¬ Occurs (Drops e.id) r₀ acts) := by
  intro me e ask r₀ acts
  have hacts : ∀ x ∈ acts, x.2 ≠ .evict := by decide
  have hacks : (r₀.run acts).Acks 2 ask e.id :=
    ⟨e, _, rfl, rfl, rfl, rfl, by decide, Or.inl (by decide)⟩
  exact ⟨hacts, hacks, acks_durable_iff me (some me) ⟨1⟩ Echo.mk 60 hacts hacks⟩

/-- **A command that was dropped is acknowledged too**: it waits when leadership goes, leadership
    comes back, and asked for again it is answered from the cache as synced, though nothing in the
    run, the last request included, made it durable. -/
theorem acks_dropped :
    let me : Address := ⟨"m0"⟩
    let e : LogEntry := .command [97] [⟨[107]⟩] ⟨1⟩ ⟨1⟩
    let ask : Action := .request (.command e)
    let r₀ := start me (some me) ⟨1⟩ (Logged.mk Echo.mk []) 60
    let acts := [(0, ask), (1, .lead (some ⟨"m1"⟩) ⟨2⟩), (2, .lead (some me) ⟨3⟩)]
    (∀ x ∈ acts, x.2 ≠ .evict) ∧ (r₀.run acts).Acks 3 ask e.id ∧
      ¬ Occurs (MakesDurable e.id) r₀ (acts ++ [(3, ask)]) := by
  intro me e ask r₀ acts
  have hacts : ∀ x ∈ acts ++ [(3, ask)], x.2 ≠ .evict := by decide
  refine ⟨by decide, ⟨e, _, rfl, rfl, rfl, rfl, by decide, Or.inl (by decide)⟩, ?_⟩
  -- it waits at the second action, and there leadership is lost
  have hdropped : Occurs (Drops e.id) r₀ (acts ++ [(3, ask)]) :=
    Or.inr (Or.inl ⟨by unfold Waits; decide, by decide, by decide⟩)
  have hfate : Fate _ _ _ (Occurs (Drops e.id) r₀ (acts ++ [(3, ask)])) :=
    fate_run (fun _ _ => rfl) rfl hacts e.id
  cases hfate with
  | unseen _ _ _ hdrop  => exact absurd hdropped hdrop
  | waiting _ _ _ hdrop => exact absurd hdropped hdrop
  | durable _ _ _ hdrop => exact absurd hdropped hdrop
  | dropped _ _ hdur _  => exact hdur

end Replica

end WitnessReplication

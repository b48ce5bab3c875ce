import WitnessReplication.Proofs.SyncedNames
import WitnessReplication.Proofs.WitnessLaws

/-!
# Follower runs — what happens to a witness whose member does not lead

    A follower executes nothing and syncs nothing.  Its witness changes only by what others ask of
    it: to record an entry, to forget what is synced, to hand everything over.  So a follower's
    witness can be followed along a run without a look at the rest of the replica.

* **`Follows`** — somebody else leads, and nothing waits here.
* **`perform_witness`** — what an action does to a follower's witness.
* **`held_onWitness`**, **`remembers_onWitness`** — what is held and what is remembered.
* **`balance_run`** — of every name, the times it was recorded anew and the times it was told cancel
  each other.
-/

namespace WitnessReplication

namespace Replica

variable {σ : Type} [StateMachine σ]

/-- A replica that does not lead, with nothing that waits. -/
structure Follows (r : Replica σ) : Prop where
  led  : r.isLeader = false
  idle : r.unsynced = []

/-- What an action does to a follower's witness. -/
def Action.onWitness (w : Witness) : Action → Witness
  | .request (.record e term)    => (w.record e term).2
  | .request (.witnessGc synced) => (w.collect synced).2
  | .request .recoveryData       => w.recover.2
  | .request .unfreeze           => w.unfreeze
  | .lead _ term                 => w.setTerm term
  | _                            => w

/-- **What an action does to a follower**, unless it is told to lead: it goes on to follow, and its
    witness does what it was asked. -/
theorem Follows.perform {r : Replica σ} (h : r.Follows) {a : Action} (ha : a.elects = false)
    (now : Nat) :
    (r.perform now a).2.Follows ∧ (r.perform now a).2.witness = a.onWitness r.witness := by
  have hled : (r.perform now a).2.isLeader = false := (perform_isLeader ha r now).trans h.led
  have hsync : r.syncAll = r := by rw [syncAll, if_pos h.idle]
  have hled' : ¬ r.isLeader = true := by
    rw [h.led]
    exact Bool.false_ne_true
  cases a with
  | request q =>
      cases q with
      | clientId     =>
          have hsame : (r.perform now (.request .clientId)).2 = r := by
            show r.clientIdReply.2 = r
            rw [clientIdReply, if_neg hled']
          rw [hsame]
          exact ⟨h, rfl⟩
      | command e    =>
          have hsame : (r.perform now (.request (.command e))).2 = r := by
            show (r.commandReply now e).2 = r
            rw [commandReply, if_neg hled']
          rw [hsame]
          exact ⟨h, rfl⟩
      | record e t   => exact ⟨⟨hled, h.idle⟩, rfl⟩
      | sync e       =>
          have hsame : (r.perform now (.request (.sync e))).2 = r := by
            show (r.syncReply now e).2 = r
            simp only [syncReply, if_neg hled']
          rw [hsame]
          exact ⟨h, rfl⟩
      | recoveryData => exact ⟨⟨hled, h.idle⟩, rfl⟩
      | unfreeze     => exact ⟨⟨hled, h.idle⟩, rfl⟩
      | witnessGc ss => exact ⟨⟨hled, h.idle⟩, rfl⟩
  | lead leader term => cases ha
  | commit           =>
      have hsame : (r.perform now .commit).2 = r := hsync
      rw [hsame]
      exact ⟨h, rfl⟩
  | takePending      => exact ⟨⟨hled, h.idle⟩, rfl⟩
  | evict            => exact ⟨⟨hled, h.idle⟩, rfl⟩

theorem Follows.run {r : Replica σ} (h : r.Follows) {acts : List (Nat × Action)}
    (hacts : ∀ x ∈ acts, x.2.elects = false) : (r.run acts).Follows := by
  induction acts generalizing r with
  | nil            => exact h
  | cons x acts ih =>
      have hx := (h.perform (hacts x (List.mem_cons_self ..)) x.1).1
      exact ih hx fun y hy => hacts y (List.mem_cons_of_mem _ hy)

/-! ## What is asked of a witness -/

/-- The entry that an action asks a witness to record. -/
def Action.recorded? : Action → Option LogEntry
  | .request (.record e _) => some e
  | _                      => none

/-- The names that an action tells a witness to forget. -/
def Action.told : Action → List RequestId
  | .request (.witnessGc synced) => synced
  | _                            => []

/-- Whether an action makes a witness hand everything over. -/
def Action.recovers : Action → Bool
  | .request .recoveryData => true
  | _                      => false

/-- An action that is a request to record an entry, and is accepted. -/
def Vouches (e : LogEntry) (r : Replica σ) (now : Nat) (a : Action) : Prop :=
  a.recorded? = some e ∧ ∃ reply, (r.perform now a).1 = some reply ∧ reply.accepted = true

theorem vouches_iff {r : Replica σ} {now : Nat} {a : Action} {e : LogEntry} :
    r.Vouches e now a ↔
      ∃ term, a = .request (.record e term) ∧ (r.witness.record e term).1 = .accepted := by
  constructor
  · rintro ⟨ha, reply, hreply, hacc⟩
    unfold Action.recorded? at ha
    split at ha
    · rename_i e' term
      obtain rfl := Option.some.inj ha
      obtain rfl : Reply.record (r.recordReply e' term).1 = reply := Option.some.inj hreply
      exact ⟨term, rfl, of_decide_eq_true hacc⟩
    · exact nomatch ha
  · rintro ⟨term, rfl, hacc⟩
    exact ⟨rfl, _, rfl, decide_eq_true hacc⟩

theorem recorded_onWitness {w : Witness} {a : Action} {u : LogEntry}
    (h : u ∈ (a.onWitness w).recorded) : u ∈ w.recorded ∨ a.recorded? = some u := by
  unfold Action.onWitness at h
  split at h
  · rename_i e term
    exact (Witness.mem_recorded_record h).imp_right fun he => congrArg some he.symm
  · exact Or.inl (Witness.mem_recorded_collect h)
  · exact nomatch h
  · exact Or.inl h
  · exact Or.inl h
  · exact Or.inl h

theorem remembers_onWitness {w : Witness} {a : Action} {id : RequestId}
    (h : (a.onWitness w).Remembers id) : w.Remembers id ∨ id ∈ a.told := by
  unfold Action.onWitness at h
  split at h
  · exact Or.inl (Witness.remembers_of_record h)
  · exact Witness.remembers_collect h
  · exact Or.inl h
  · exact Or.inl h
  · exact Or.inl h
  · exact Or.inl h

/-- An entry that is held is held on, or the witness was told its name; unless it hands everything
    over. -/
theorem held_onWitness {w : Witness} {a : Action} (ha : a.recovers = false) {u : LogEntry}
    (h : u ∈ w.recorded) : u ∈ (a.onWitness w).recorded ∨ u.id ∈ a.told := by
  unfold Action.onWitness
  split
  · exact Or.inl (Witness.recorded_subset_record h ..)
  · exact Witness.held_or_told h _
  · exact nomatch ha
  · exact Or.inl h
  · exact Or.inl h
  · exact Or.inl h

theorem recorded_run {r : Replica σ} (h : r.Follows) {acts : List (Nat × Action)}
    (hled : ∀ x ∈ acts, x.2.elects = false) {u : LogEntry}
    (hu : u ∈ (r.run acts).witness.recorded) :
    u ∈ r.witness.recorded ∨ ∃ x ∈ acts, x.2.recorded? = some u := by
  induction acts generalizing r with
  | nil            => exact Or.inl hu
  | cons x acts ih =>
      obtain ⟨hfollows, hwitness⟩ := h.perform (hled x (List.mem_cons_self ..)) x.1
      rcases ih hfollows (fun y hy => hled y (List.mem_cons_of_mem _ hy)) hu with hu | ⟨y, hy, hu⟩
      · rw [hwitness] at hu
        rcases recorded_onWitness hu with hu | hu
        · exact Or.inl hu
        · exact Or.inr ⟨x, List.mem_cons_self .., hu⟩
      · exact Or.inr ⟨y, List.mem_cons_of_mem _ hy, hu⟩

/-- Whoever accepts a record holds an entry of that name, or has remembered the name until now. -/
theorem held_of_vouches {r : Replica σ} {now : Nat} {a : Action} {e : LogEntry}
    (h : r.Vouches e now a) :
    (∃ u ∈ (a.onWitness r.witness).recorded, u.id = e.id) ∨ r.witness.Remembers e.id := by
  obtain ⟨term, rfl, hacc⟩ := vouches_iff.1 h
  exact Witness.held_of_accepted hacc

theorem exclusive_onWitness {w : Witness} (h : w.Exclusive) (a : Action) :
    (a.onWitness w).Exclusive := by
  unfold Action.onWitness
  split
  · rename_i e term
    exact Witness.exclusive_record h e term
  · exact Witness.exclusive_collect h _
  · exact fun _ hheld => nomatch hheld
  · exact h
  · exact h
  · exact h

/-! ## Names that are recorded anew, and names that are told -/

/-- How often an action records a name anew: once or never. -/
def Action.anew (w : Witness) (id : RequestId) : Action → Nat
  | .request (.record e term) => if w.RecordsAnew e term id then 1 else 0
  | _                         => 0

/-- An action that tells a witness more names than there is room for. -/
def Overflows (r : Replica σ) (_ : Nat) : Action → Prop
  | .request (.witnessGc synced) => ¬ r.witness.HasRoom synced
  | _                            => False

instance (w : Witness) (synced : List RequestId) : Decidable (w.HasRoom synced) :=
  inferInstanceAs (Decidable (_ ≤ _))

instance (r : Replica σ) (now : Nat) (a : Action) : Decidable (r.Overflows now a) := by
  unfold Overflows
  split <;> infer_instance

/-- How often a name is recorded anew in a run. -/
def anew (id : RequestId) (r : Replica σ) : List (Nat × Action) → Nat
  | []               => 0
  | (now, a) :: rest => a.anew r.witness id + anew id (r.perform now a).2 rest

/-- The names that are told in a run. -/
def told (acts : List (Nat × Action)) : List RequestId := acts.flatMap fun x => x.2.told

omit [StateMachine σ] in
theorem told_cons (now : Nat) (a : Action) (acts : List (Nat × Action)) :
    told ((now, a) :: acts) = a.told ++ told acts := rfl

omit [StateMachine σ] in
/-- **One step of the balance**: of every name, the times it is recorded anew and the times it is
    told cancel each other. -/
theorem balance_onWitness {r : Replica σ} (h : r.witness.Exclusive) {now : Nat} {a : Action}
    (ha : a.recovers = false) (hroom : ¬ r.Overflows now a) (id : RequestId) :
    (a.onWitness r.witness).early.count id + (r.witness.recorded.map (·.id)).count id +
        a.anew r.witness id =
      r.witness.early.count id + a.told.count id +
        ((a.onWitness r.witness).recorded.map (·.id)).count id := by
  cases a with
  | request q =>
      cases q with
      | record e term  => exact Witness.count_record h e term id
      | witnessGc ss   => exact Witness.count_collect (not_not.1 hroom) id
      | recoveryData   => exact nomatch ha
      | clientId       => rfl
      | command e      => rfl
      | sync e         => rfl
      | unfreeze       => rfl
  | lead leader term => rfl
  | commit           => rfl
  | takePending      => rfl
  | evict            => rfl

/-- **The balance of a run**: at a follower that never hands everything over, and has room for all
    the names it is told, a name is remembered as often beyond the entries held of it as it was told
    beyond the times it was recorded anew. -/
theorem balance_run {r : Replica σ} (h : r.Follows) (hexcl : r.witness.Exclusive)
    {acts : List (Nat × Action)} (hled : ∀ x ∈ acts, x.2.elects = false)
    (hkept : ∀ x ∈ acts, x.2.recovers = false) (hroom : ¬ Occurs Overflows r acts)
    (id : RequestId) :
    (r.run acts).witness.Exclusive ∧
    (r.run acts).witness.early.count id + (r.witness.recorded.map (·.id)).count id +
        anew id r acts =
      r.witness.early.count id + (told acts).count id +
        ((r.run acts).witness.recorded.map (·.id)).count id := by
  induction acts generalizing r with
  | nil            => exact ⟨hexcl, rfl⟩
  | cons x acts ih =>
      obtain ⟨now, a⟩ := x
      have ha : a.elects = false := hled _ (List.mem_cons_self ..)
      have hrec : a.recovers = false := hkept _ (List.mem_cons_self ..)
      obtain ⟨hfollows, hwitness⟩ := h.perform ha now
      obtain ⟨hnow, hlater⟩ := not_or.1 hroom
      have hstep := balance_onWitness hexcl hrec hnow id
      have hrest := ih hfollows (hwitness ▸ exclusive_onWitness hexcl a)
        (fun y hy => hled y (List.mem_cons_of_mem _ hy))
        (fun y hy => hkept y (List.mem_cons_of_mem _ hy)) hlater
      rw [← hwitness] at hstep
      refine ⟨hrest.1, ?_⟩
      have htwo := hrest.2
      rw [run_cons, anew, told_cons, List.count_append]
      omega

end Replica

end WitnessReplication

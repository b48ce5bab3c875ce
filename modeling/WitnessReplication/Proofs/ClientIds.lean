import Mathlib.Data.List.Nodup
import WitnessReplication.Proofs.MemberRuns

/-!
# Client ids — which numbers the members of a cluster hand out

    The name of a command is a client id with a number that the client chose.  Everything that
    relies on names — cached answers, what the witnesses hold, what they are told to forget — relies
    on client ids that belong to one session only.

    Each member counts for itself, from one upwards.  Its count survives when leadership goes and
    comes back, so that it hands out no number twice.  But nobody tells the next leader how far the
    count has come, and so that one begins with one again.

* **`perform_grants`** — one action: the count goes on by what it grants.
* **`grants_run`** — a member hands out `1, 2, 3, …`, whatever else happens to it.
* **`client_ids_distinct_iff`** — the ids of a cluster are distinct exactly when one member grants
  them all.
* **`client_ids_collide`** — two leaders, one after the other, grant the same id.
-/

namespace WitnessReplication

namespace Replica

variable {σ : Type}

/-- The client id that is granted by a reply, if the reply grants one. -/
def granted? : Option Reply → Option ClientId
  | some (.clientId reply) => if reply.success then some reply.client else none
  | _                      => none

/-! ## One member -/

@[simp] theorem syncAll_nextClient (r : Replica σ) : r.syncAll.nextClient = r.nextClient := by
  rw [syncAll]; split <;> rfl

@[simp] theorem acknowledge_nextClient (r : Replica σ) (e : LogEntry) (again : Bool) :
    (r.acknowledge e again).2.nextClient = r.nextClient := by
  rw [acknowledge]
  split
  · rfl
  · split
    · rfl
    · split
      · rfl
      · exact r.syncAll_nextClient

variable [StateMachine σ]

@[simp] theorem applyOnce_nextClient (r : Replica σ) (now : Nat) (e : LogEntry) :
    (r.applyOnce now e).2.nextClient = r.nextClient := by
  rw [applyOnce_frame]

/-- An action that is no request for a client id leaves the count as it is. -/
theorem perform_nextClient {a : Action} (ha : a ≠ .request .clientId) (r : Replica σ) (now : Nat) :
    (r.perform now a).2.nextClient = r.nextClient := by
  cases a with
  | request q =>
      cases q with
      | clientId     => exact absurd rfl ha
      | command e    =>
          show (r.commandReply now e).2.nextClient = _
          rw [commandReply]
          split
          · simp
          · rfl
      | record e t   => rfl
      | sync e       =>
          show (r.syncReply now e).2.nextClient = _
          simp only [syncReply]
          split
          · cases e <;> simp
          · rfl
      | recoveryData => rfl
      | unfreeze     => rfl
      | witnessGc ss => rfl
  | lead leader term =>
      show (r.lead leader term).nextClient = _
      rw [lead]
      split <;> rfl
  | commit      => exact r.syncAll_nextClient
  | takePending => rfl
  | evict       => rfl

/-- No reply but the one to a request for a client id grants one. -/
theorem granted_of_ne {a : Action} (ha : a ≠ .request .clientId) (r : Replica σ) (now : Nat) :
    granted? (r.perform now a).1 = none := by
  cases a with
  | request q =>
      cases q with
      | clientId => exact absurd rfl ha
      | _        => rfl
  | _         => rfl

/-- An action grants the id that is next, and the count goes on by one; or it grants none, and the
    count stays. -/
theorem perform_grants (r : Replica σ) (now : Nat) (a : Action) :
    (granted? (r.perform now a).1 = some r.nextClient ∧
      (r.perform now a).2.nextClient = ⟨r.nextClient.val + 1⟩) ∨
    (granted? (r.perform now a).1 = none ∧ (r.perform now a).2.nextClient = r.nextClient) := by
  by_cases ha : a = .request .clientId
  · subst ha
    show (granted? (some (.clientId r.clientIdReply.1)) = _ ∧ r.clientIdReply.2.nextClient = _) ∨
      (granted? (some (.clientId r.clientIdReply.1)) = _ ∧ r.clientIdReply.2.nextClient = _)
    rw [clientIdReply]
    split
    · exact Or.inl ⟨rfl, rfl⟩
    · exact Or.inr ⟨rfl, rfl⟩
  · exact Or.inr ⟨granted_of_ne ha r now, perform_nextClient ha r now⟩

/-- The ids that a replica grants, the first one first. -/
def grants (r : Replica σ) : List (Nat × Action) → List ClientId
  | []               => []
  | (now, a) :: rest => (granted? (r.perform now a).1).toList ++ (r.perform now a).2.grants rest

/-- **A replica grants one number after the other**, whatever else happens to it. -/
theorem grants_run {r : Replica σ} {k : Nat} (h : r.nextClient = ⟨.ofNat k⟩)
    (acts : List (Nat × Action)) :
    r.grants acts = (List.range' k (r.grants acts).length).map fun n => ⟨.ofNat n⟩ := by
  induction acts generalizing r k with
  | nil            => rfl
  | cons x acts ih =>
      obtain ⟨now, a⟩ := x
      rw [grants]
      rcases r.perform_grants now a with ⟨hgrant, hnext⟩ | ⟨hnone, hnext⟩
      · have hsucc : (r.perform now a).2.nextClient = ⟨.ofNat (k + 1)⟩ := by
          rw [hnext, h, UInt64.ofNat_add]
          rfl
        rw [hgrant, h]
        show _ :: (r.perform now a).2.grants acts = _
        rw [ih hsucc]
        simp [List.range'_succ]
      · rw [hnone]
        exact ih (hnext.trans h)

end Replica

namespace Members

variable {σ : Type} [StateMachine σ]

/-! ## All members -/

/-- The member that an event makes grant a client id, with the id. -/
def granted? (m : Members σ) : Event → Option (Address × ClientId)
  | .act a now action => (Replica.granted? ((m a).perform now action).1).map fun id => (a, id)
  | .elect _ _        => none

/-- Who has granted which client id, the first one first. -/
def granted (m : Members σ) : List Event → List (Address × ClientId)
  | []         => []
  | ev :: rest => (granted? m ev).toList ++ granted (m.step ev) rest

/-- What one member has granted among all. -/
def grantedBy (m : Members σ) (events : List Event) (a : Address) : List ClientId :=
  ((granted m events).filter fun p => p.1 = a).map (·.2)

/-- What a member has granted among all is what it grants on its own. -/
theorem grantedBy_eq (m : Members σ) (events : List Event) (a : Address) :
    grantedBy m events a = (m a).grants (shares a events) := by
  induction events generalizing m with
  | nil               => rfl
  | cons ev events ih =>
      have hrest := ih (m.step ev)
      rw [grantedBy] at hrest ⊢
      rw [granted, List.filter_append, List.map_append, hrest]
      cases ev with
      | elect leader term   =>
          -- nobody grants an id by hearing of a leader
          rfl
      | act b now action    =>
          by_cases hb : b = a
          · subst hb
            cases hg : Replica.granted? ((m b).perform now action).1 <;>
              simp [granted?, shares, share?, Replica.grants, step, Replica.run, hg]
          · cases hg : Replica.granted? ((m b).perform now action).1 <;>
              simp [granted?, shares, share?, step, hg, hb]

/-- Every member grants `1, 2, 3, …`. -/
theorem grantedBy_started {m : Members σ} (h₀ : m.Started) (events : List Event) (a : Address) :
    grantedBy m events a =
      (List.range' 1 (grantedBy m events a).length).map fun n => ⟨.ofNat n⟩ := by
  obtain ⟨leader, term, machine, retention, hstart⟩ := h₀ a
  rw [grantedBy_eq]
  refine Replica.grants_run ?_ _
  rw [hstart]
  rfl

theorem mem_grantedBy {m : Members σ} {events : List Event} {a : Address} {id : ClientId} :
    id ∈ grantedBy m events a ↔ (a, id) ∈ granted m events := by
  rw [grantedBy, List.mem_map]
  constructor
  · rintro ⟨⟨b, id'⟩, hmem, rfl⟩
    obtain ⟨hgranted, hb⟩ := List.mem_filter.1 hmem
    obtain rfl : b = a := of_decide_eq_true hb
    exact hgranted
  · intro h
    exact ⟨(a, id), List.mem_filter.2 ⟨h, decide_eq_true rfl⟩, rfl⟩

theorem ofNat_inj {k n : Nat} (hk : k < UInt64.size) (hn : n < UInt64.size)
    (h : UInt64.ofNat k = UInt64.ofNat n) : k = n := by
  have h' := congrArg UInt64.toNat h
  rwa [UInt64.toNat_ofNat_of_lt' hk, UInt64.toNat_ofNat_of_lt' hn] at h'

/-- **When the client ids of a cluster are distinct**: whatever happens to its members, as long as
    the words do not run out.  Every member grants `1, 2, 3, …`, so none grants zero; and no two
    replies carry one id if and only if one and the same member has granted them all. -/
theorem client_ids_distinct_iff {m : Members σ} (h₀ : m.Started) {events : List Event}
    (hfew : (granted m events).length < UInt64.size - 1) :
    (∀ a, grantedBy m events a =
      (List.range' 1 (grantedBy m events a).length).map fun n => ⟨.ofNat n⟩) ∧
    (∀ p ∈ granted m events, p.2 ≠ ⟨0⟩) ∧
    (((granted m events).map (·.2)).Nodup ↔
      ∀ p ∈ granted m events, ∀ q ∈ granted m events, p.1 = q.1) := by
  have hcount : ∀ a, (grantedBy m events a).length < UInt64.size - 1 := by
    intro a
    rw [grantedBy, List.length_map]
    exact Nat.lt_of_le_of_lt (List.length_filter_le _ _) hfew
  refine ⟨grantedBy_started h₀ events, ?nonzero, ?distinct, ?single⟩
  case nonzero =>
    rintro ⟨a, id⟩ hp hzero
    have hid := mem_grantedBy.2 hp
    rw [grantedBy_started h₀, List.mem_map] at hid
    obtain ⟨n, hn, rfl⟩ := hid
    rw [List.mem_range'_1] at hn
    have hlt := hcount a
    have : n = 0 := ofNat_inj (by omega) (by omega) (congrArg ClientId.val hzero)
    omega
  case distinct =>
    -- whoever grants an id at all has granted the first one
    intro hnodup
    have hfirst : ∀ p ∈ granted m events, (p.1, (⟨.ofNat 1⟩ : ClientId)) ∈ granted m events := by
      rintro ⟨a, id⟩ hp
      have hmem := mem_grantedBy.2 hp
      have hpos : 0 < (grantedBy m events a).length := List.length_pos_of_mem hmem
      rw [← mem_grantedBy, grantedBy_started h₀, List.mem_map]
      refine ⟨1, List.mem_range'_1.2 ⟨Nat.le_refl _, ?_⟩, rfl⟩
      exact Nat.lt_add_of_pos_right hpos
    intro p hp q hq
    have heq := List.inj_on_of_nodup_map hnodup (hfirst p hp) (hfirst q hq) rfl
    exact (Prod.mk.inj heq).1
  case single =>
    intro hone
    cases hg : granted m events with
    | nil         => exact List.nodup_nil
    | cons p rest =>
        have hall : (granted m events).filter (fun q => q.1 = p.1) = granted m events := by
          rw [List.filter_eq_self]
          intro q hq
          refine decide_eq_true (hone q hq p ?_)
          rw [hg]
          exact List.mem_cons_self ..
        have hby : (granted m events).map (·.2) = grantedBy m events p.1 := by
          rw [grantedBy, hall]
        rw [← hg, hby, grantedBy_started h₀]
        refine List.Nodup.map_on ?_ List.nodup_range'
        intro k hk n hn heq
        rw [List.mem_range'_1] at hk hn
        have hlt := hcount p.1
        exact ofNat_inj (by omega) (by omega) (congrArg ClientId.val heq)

/-- Members all of which know the first one as their leader, and apply commands by echoing them. -/
def echoes : Members Echo := fun a => .start a (some ⟨"m0"⟩) ⟨1⟩ {} 5

/-- The law at a member that grants an id, loses leadership, gets it back, and grants another. -/
theorem client_ids_distinct_at_one_member :
    let events : List Event := [.act ⟨"m0"⟩ 0 (.request .clientId), .elect (some ⟨"m1"⟩) ⟨2⟩,
      .act ⟨"m0"⟩ 1 (.request .clientId), .elect (some ⟨"m0"⟩) ⟨3⟩,
      .act ⟨"m0"⟩ 2 (.request .clientId)]
    echoes.Started ∧ (granted echoes events).length < UInt64.size - 1 ∧
      granted echoes events = [(⟨"m0"⟩, ⟨1⟩), (⟨"m0"⟩, ⟨2⟩)] ∧
      (((granted echoes events).map (·.2)).Nodup ↔
        ∀ p ∈ granted echoes events, ∀ q ∈ granted echoes events, p.1 = q.1) := by
  intro events
  have h₀ : echoes.Started := fun a => ⟨some ⟨"m0"⟩, ⟨1⟩, {}, 5, rfl⟩
  have hfew : (granted echoes events).length < UInt64.size - 1 := by decide
  exact ⟨h₀, hfew, by decide, (client_ids_distinct_iff h₀ hfew).2.2⟩

/-- **Two leaders grant one id**: the first member grants an id, all members take in that the second
    one leads, and that one grants the same id. -/
theorem client_ids_collide :
    let events : List Event := [.act ⟨"m0"⟩ 0 (.request .clientId), .elect (some ⟨"m1"⟩) ⟨2⟩,
      .act ⟨"m1"⟩ 1 (.request .clientId)]
    echoes.Started ∧ granted echoes events = [(⟨"m0"⟩, ⟨1⟩), (⟨"m1"⟩, ⟨1⟩)] ∧
      ¬ ((granted echoes events).map (·.2)).Nodup := by
  intro events
  exact ⟨fun a => ⟨some ⟨"m0"⟩, ⟨1⟩, {}, 5, rfl⟩, by decide, by decide⟩

end Members

end WitnessReplication

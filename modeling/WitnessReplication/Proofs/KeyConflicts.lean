import WitnessReplication.Proofs.EitherOrder
import WitnessReplication.Proofs.ReplicaRuns
import WitnessReplication.Proofs.Reordering

/-!
# Key conflicts — which commands of the store get in each other's way

    A command is about one **`Cell`** of the store: the text under a key, or the counter.  Commands
    about one cell must keep their order; commands about different cells need not, and so they
    should have no key in common.  If they have one all the same, a witness that holds the one
    refuses the other, and the leader syncs for nothing.

    The keys that users choose and the one that stands for the counter are octets all alike, and the
    octet that stands for the counter is a text.  So there is a cell that is taken for the counter,
    the one under **`reservedText`**, and it is the only one (`key_inj_iff`).

* **`keys_meet_iff`** — two commands have a common key exactly if their cells have the same key.
* **`conflict_iff`**, **`synced_iff`** — so this is when a witness refuses and when a leader syncs.
* **`as_needed_iff`** — commands get in each other's way as needed, unless one is about the counter
  and the other about the text under `reservedText`.
-/

namespace WitnessReplication

namespace Kv

-- ── What commands are about ──────────────────────────────────────────────────────────────────────

/-- What a command may be about. -/
inductive Cell where
  /-- The text under a key. -/
  | text (key : String)
  | counter
  deriving DecidableEq

/-- The key that stands for a cell. -/
def Cell.key : Cell → Key
  | .text key => ⟨Bytes.ofText key⟩
  | .counter  => counterKey

/-- What a command is about. -/
def Command.cell : Command → Cell
  | .get key   => .text key
  | .set key _ => .text key
  | .inc       => .counter

/-- The text whose octets are the key of the counter. -/
def reservedText : String := "\x01"

/-- One is the counter, and the other is taken for it. -/
def Cell.Mistaken (a b : Cell) : Prop :=
  a = .counter ∧ b = .text reservedText ∨ a = .text reservedText ∧ b = .counter

instance (a b : Cell) : Decidable (a.Mistaken b) := inferInstanceAs (Decidable (_ ∨ _))

theorem not_mistaken_self (a : Cell) : ¬ a.Mistaken a := by
  rintro (⟨rfl, h⟩ | ⟨rfl, h⟩)
  · exact nomatch h
  · exact nomatch h

theorem ofText_eq_counter_iff {s : String} : Bytes.ofText s = [1] ↔ s = reservedText := by
  have hreserved : Bytes.ofText reservedText = [1] := by decide
  constructor
  · intro h
    exact Bytes.ofText_inj (h.trans hreserved.symm)
  · rintro rfl
    exact hreserved

/-- **The key tells the cell**, but for the counter and the text that is taken for it. -/
theorem key_inj_iff {a b : Cell} : a.key = b.key ↔ a = b ∨ a.Mistaken b := by
  cases a with
  | text s =>
      cases b with
      | text t =>
          simp only [Cell.key, Key.mk.injEq, Cell.text.injEq, Cell.Mistaken, reduceCtorEq,
            false_and, and_false, or_false]
          exact ⟨Bytes.ofText_inj, congrArg Bytes.ofText⟩
      | counter =>
          simp only [Cell.key, counterKey, Key.mk.injEq, Cell.text.injEq, Cell.Mistaken,
            reduceCtorEq, false_and, and_true, false_or]
          exact ofText_eq_counter_iff
  | counter =>
      cases b with
      | text t =>
          simp only [Cell.key, counterKey, Key.mk.injEq, Cell.text.injEq, Cell.Mistaken,
            reduceCtorEq, false_and, true_and, or_false, false_or]
          exact eq_comm.trans ofText_eq_counter_iff
      | counter => simp

-- ── When two commands meet ───────────────────────────────────────────────────────────────────────

variable {c d : Command}

theorem keys_eq (c : Command) : c.keys = [c.cell.key] := by
  cases c <;> rfl

theorem keys_meet_iff : (∃ k ∈ c.keys, k ∈ d.keys) ↔ c.cell.key = d.cell.key := by
  simp [keys_eq]

theorem commutes_iff {i j : RequestId} :
    (d.entry j).commutesWith (c.entry i) = true ↔ c.cell.key ≠ d.cell.key := by
  rw [LogEntry.commutesWith_comm, Command.commutesWith_entry, ne_eq, ← keys_meet_iff]
  simp only [Command.Apart, not_exists, not_and]

/-- Among entries one of which may not commute, all commute exactly if that one does. -/
theorem all_commute_iff {us : List LogEntry} {u e : LogEntry} (hu : u ∈ us)
    (hothers : ∀ v ∈ us, v ≠ u → v.commutesWith e = true) :
    (us.all fun v => v.commutesWith e) = true ↔ u.commutesWith e = true := by
  rw [List.all_eq_true]
  constructor
  · exact fun h => h u hu
  · intro h v hv
    by_cases heq : v = u
    · exact heq ▸ h
    · exact hothers v hv heq

/-- The other entries are about other things: a command is compared with one of them only. -/
def Singled (us : List LogEntry) (u e : LogEntry) : Prop :=
  u ∈ us ∧ ∀ v ∈ us, v ≠ u → v.commutesWith e = true

/-- **When a witness refuses a command because of another.** -/
theorem conflict_iff {w : Witness} {i j : RequestId} (hunfrozen : w.frozen = false)
    (hunheld : ¬ w.Holds i) (huntold : ¬ w.Remembers i)
    (hone : Singled w.recorded (d.entry j) (c.entry i)) :
    (w.record (c.entry i) w.term).1 = .conflict ↔ c.cell.key = d.cell.key := by
  have hall := (all_commute_iff hone.1 hone.2).trans commutes_iff
  by_cases hkey : c.cell.key = d.cell.key
  · have hnot : ¬ (w.recorded.all fun v => v.commutesWith (c.entry i)) = true :=
      fun h => hall.1 h hkey
    rw [Witness.record_of_conflict (e := c.entry i) hunfrozen huntold hunheld hnot]
    exact iff_of_true rfl hkey
  · have hcommutes := List.all_eq_true.1 (hall.2 hkey)
    rw [Witness.record_of_fresh (e := c.entry i) hunfrozen huntold hunheld hcommutes]
    exact iff_of_false RecordOutcome.noConfusion hkey

/-- **When a leader syncs before it answers a command because of another.** -/
theorem synced_iff {σ : Type} [StateMachine σ] {r : Replica σ} {i j : RequestId} (now : Nat)
    (hleads : r.isLeader = true) (hnew : r.cache.lookup i.client i.seq = none)
    (hone : Singled r.unsynced (d.entry j) (c.entry i)) :
    (r.commandReply now (c.entry i)).1.synced = true ↔ c.cell.key = d.cell.key := by
  have hall := (all_commute_iff hone.1 hone.2).trans commutes_iff
  have hanew : r.isRetransmission (c.entry i) = false := by
    rw [Replica.isRetransmission]
    exact congrArg Option.isSome hnew
  have hcommand : ¬ (c.entry i).kind = .noop := EntryKind.noConfusion
  rw [Replica.commandReply, if_pos hleads, hanew]
  show ((r.applyOnce now (c.entry i)).2.acknowledge (c.entry i) false).1 = true ↔ _
  rw [Replica.acknowledge, if_neg hcommand, if_neg Bool.false_ne_true, Replica.applyOnce_unsynced]
  by_cases hkey : c.cell.key = d.cell.key
  · rw [if_neg fun h => hall.1 h hkey]
    exact iff_of_true rfl hkey
  · rw [if_pos (hall.2 hkey)]
    exact iff_of_false Bool.false_ne_true hkey

-- ── As needed ────────────────────────────────────────────────────────────────────────────────────

/-- A command gets in another one's way exactly if they are about the same cell. -/
structure AsNeeded (c d : Command) : Prop where
  /-- They have a key in common. -/
  keys    : (∃ k ∈ c.keys, k ∈ d.keys) ↔ c.cell = d.cell
  /-- A witness that holds the one, and nothing else in the way, refuses the other. -/
  witness : ∀ (w : Witness) (i j : RequestId), w.frozen = false → ¬ w.Holds i → ¬ w.Remembers i →
    Singled w.recorded (d.entry j) (c.entry i) →
    ((w.record (c.entry i) w.term).1 = .conflict ↔ c.cell = d.cell)
  /-- A leader for which the one is not synced, and nothing else is in the way, syncs before it
      answers the other. -/
  leader  : ∀ (r : Replica Store) (now : Nat) (i j : RequestId), r.isLeader = true →
    r.cache.lookup i.client i.seq = none → Singled r.unsynced (d.entry j) (c.entry i) →
    ((r.commandReply now (c.entry i)).1.synced = true ↔ c.cell = d.cell)

/-- **When commands get in each other's way as needed, and not otherwise**: exactly unless one is an
    increment, and the other asks for the text under the key of one octet that stands for the
    counter, or sets it. -/
theorem as_needed_iff (c d : Command) : AsNeeded c d ↔ ¬ c.cell.Mistaken d.cell := by
  constructor
  · intro h hmistaken
    have hsame : c.cell = d.cell := h.keys.1 (keys_meet_iff.2 (key_inj_iff.2 (Or.inr hmistaken)))
    rw [hsame] at hmistaken
    exact not_mistaken_self _ hmistaken
  · intro hclear
    have hkey : c.cell.key = d.cell.key ↔ c.cell = d.cell :=
      key_inj_iff.trans (or_iff_left hclear)
    refine ⟨keys_meet_iff.trans hkey, ?witness, ?leader⟩
    case witness =>
      intro w i j hunfrozen hunheld huntold hone
      exact (conflict_iff hunfrozen hunheld huntold hone).trans hkey
    case leader =>
      intro r now i j hleads hnew hone
      exact (synced_iff now hleads hnew hone).trans hkey

/-- **An increment gets in the way of an unrelated text**: the key of one octet that stands for the
    counter is the key of a text as well.  A witness that holds a command on that text refuses the
    increment, and a leader for which such a command is not synced syncs before it answers. -/
theorem inc_not_as_needed :
    let c : Command := .set "\x01" "v"
    let w := Witness.run { term := ⟨1⟩ } [.record (c.entry ⟨⟨1⟩, ⟨1⟩⟩) ⟨1⟩]
    let r := Replica.run (.start ⟨"m0"⟩ (some ⟨"m0"⟩) ⟨1⟩ ({} : Store) 5)
      [(0, .request (.command (c.entry ⟨⟨1⟩, ⟨1⟩⟩)))]
    c.cell ≠ Command.inc.cell ∧ c.keys = Command.inc.keys ∧
      (w.record (Command.inc.entry ⟨⟨1⟩, ⟨2⟩⟩) ⟨1⟩).1 = .conflict ∧
      (r.commandReply 1 (Command.inc.entry ⟨⟨1⟩, ⟨2⟩⟩)).1.synced = true ∧
      ¬ AsNeeded Command.inc c := by
  intro c w r
  have hkeys : c.keys = Command.inc.keys := by decide
  refine ⟨by decide, hkeys, by decide, by decide, ?_⟩
  intro h
  have hmeet : ∃ k ∈ Command.inc.keys, k ∈ c.keys := by
    rw [hkeys]
    exact ⟨counterKey, List.mem_singleton_self _, List.mem_singleton_self _⟩
  exact nomatch h.keys.1 hmeet

end Kv

end WitnessReplication

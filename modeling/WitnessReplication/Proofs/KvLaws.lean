import Mathlib.Logic.Function.Basic
import WitnessReplication.Kv.Store
import WitnessReplication.Proofs.FieldLaws

/-!
# Key-value laws — what a command of the store does, and to whom it matters

    The store is run on payloads, and a payload is read before it is run.  So the first law is that
    a command is what is read from its payload.  A payload whose length is no word of 64 bits cannot
    be framed, and is none that a log entry carries.

    The map of a store is a list in which the text that was set last stands first, so that stores
    that no client can tell apart may differ.  What clients can tell is the **`View`**: the text
    under each key, and the counter.  A command's effect on it and its answer are functions of it.

* **`decode?_encode`** — reading a command undoes writing it.
* **`execute_encode`** — so to execute its payload is to run it.
* **`Store.view`**, **`Command.effect`**, **`Command.result?`** — what clients can tell, what a
  command does to it, and what it is answered with.
-/

namespace WitnessReplication.Kv

open Wire

namespace Command

-- ── Payloads ─────────────────────────────────────────────────────────────────────────────────────

theorem readGet {key : String} (budget : Nat)
    (hfits : (encodeFields (Field.text 1 key)).length < UInt64.size) :
    readMessage? mergeGet budget "" (encodeFields (Field.text 1 key)) = some key := by
  have hwritable : ∀ f ∈ Field.text 1 key, f.Writable := writable_text (by decide) (by decide) hfits
  rw [readMessage?_encodeFields _ _ _ hwritable]
  exact foldlM_text id rfl (Bytes.toText?_ofText key)

theorem readSet {key value : String} (budget : Nat)
    (hfits : (encodeFields (Field.text 1 key ++ Field.text 2 value)).length < UInt64.size) :
    readMessage? mergeSet budget ("", "") (encodeFields (Field.text 1 key ++ Field.text 2 value)) =
      some (key, value) := by
  have hlength := hfits
  rw [encodeFields_append, List.length_append] at hlength
  have hwritable : ∀ f ∈ Field.text 1 key ++ Field.text 2 value, f.Writable := by
    intro f hf
    rcases List.mem_append.1 hf with hf | hf
    · exact writable_text (by decide) (by decide) (by omega) f hf
    · exact writable_text (by decide) (by decide) (by omega) f hf
  have hkey : (Field.text 1 key).foldlM (mergeSet budget) ("", "") = some (key, "") := by
    refine foldlM_text (fun k => (k, "")) rfl ?_
    simp [mergeSet, Payload.text?, Bytes.toText?_ofText]
  have hvalue : (Field.text 2 value).foldlM (mergeSet budget) (key, "") = some (key, value) := by
    refine foldlM_text (fun v => (key, v)) rfl ?_
    simp [mergeSet, Payload.text?, Bytes.toText?_ofText]
  rw [readMessage?_encodeFields _ _ _ hwritable, List.foldlM_append, hkey]
  exact hvalue

/-- **Reading a command undoes writing it**, as long as the length of its payload is a word. -/
theorem decode?_encode {c : Command} (hfits : c.encode.length < UInt64.size) :
    decode? c.encode = some c := by
  cases c with
  | get key =>
      have hinner := readGet 99 (Nat.lt_trans (length_lt_part 1 _) hfits)
      rw [decode?, encode, readMessage?_part _ _ _ (by decide) (by decide) hfits]
      show ((readMessage? mergeGet 99 "" (encodeFields (Field.text 1 key))).map _).join = _
      rw [hinner]
      rfl
  | set key value =>
      have hinner := readSet 99 (Nat.lt_trans (length_lt_part 2 _) hfits)
      rw [decode?, encode, readMessage?_part _ _ _ (by decide) (by decide) hfits]
      show ((readMessage? mergeSet 99 ("", "") _).map _).join = _
      rw [hinner]
      rfl
  | inc => rfl

end Command

/-- To execute the payload of a command is to run the command. -/
theorem execute_encode (s : Store) {c : Command} (hfits : c.encode.length < UInt64.size) :
    StateMachine.execute s c.encode =
      ((s.run c).1, ((s.run c).2.map Result.encode).getD []) := by
  rw [StateMachine.execute]
  simp only [StateMachine.apply, Command.decode?_encode hfits]

-- ── What clients can tell ────────────────────────────────────────────────────────────────────────

/-- What clients can tell of a store: the text under each key, if one was set, and the counter. -/
structure View where
  text    : String → Option String
  counter : UInt64

def Store.view (s : Store) : View := ⟨s.get?, s.counter⟩

/-- What a command does to the view. -/
def Command.effect (v : View) : Command → View
  | .get _         => v
  | .set key value => { v with text := Function.update v.text key (some value) }
  | .inc           => { v with counter := v.counter + 1 }

/-- What a command is answered with, if it is answered at all. -/
def Command.result? (v : View) : Command → Option Result
  | .get key => some ⟨(v.text key).getD "", 0⟩
  | .set _ _ => none
  | .inc     => some ⟨"", v.counter + 1⟩

theorem Store.view_set (s : Store) (key value : String) :
    (s.set key value).view =
      { s.view with text := Function.update s.view.text key (some value) } := by
  have htext : (s.set key value).get? = Function.update s.get? key (some value) := by
    funext other
    by_cases h : other = key
    · rw [h, get?_set_self, Function.update_self]
    · rw [get?_set_of_ne s value h, Function.update_of_ne h]
  rw [view, htext]
  rfl

/-- A run shows in the view as the command's effect. -/
theorem Store.view_run (s : Store) (c : Command) : (s.run c).1.view = c.effect s.view := by
  cases c with
  | get key       => rfl
  | set key value => exact s.view_set key value
  | inc           => rfl

/-- The answer can be told from the view. -/
theorem Store.result_run (s : Store) (c : Command) : (s.run c).2 = c.result? s.view := by
  cases c <;> rfl

end WitnessReplication.Kv

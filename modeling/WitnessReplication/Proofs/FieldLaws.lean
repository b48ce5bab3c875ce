import Mathlib.Data.List.Basic
import WitnessReplication.Wire.Field

/-!
# Field laws — reading the fields of a message undoes writing them

    A field is written under a key, and what has a length is written behind its length.  Lengths
    are words, so that octets that are more than a word can count have no form that could be read
    back; and so is the number of a field, together with how it is delimited.  A field within these
    bounds is **`Writable`**.

    Reading cuts one token off the front and goes on with the rest, so the law is stated for a field
    with anything behind it, and the one for a whole message follows field by field.

* **`Token.read?_encode`** — the token in front of what a field was written to is the field.
* **`fields?_encodeFields`** — the fields of a message are the fields that were written.
* **`readMessage?_encodeFields`** — so a message is read by folding those into it.
* **`foldlM_text`** — a text that may be left out is read all the same.
-/

namespace WitnessReplication

namespace Bytes

/-- Different texts have different octets. -/
theorem ofText_inj {s t : String} (h : ofText s = ofText t) : s = t := by
  have hread : some s = some t := by
    rw [← toText?_ofText s, ← toText?_ofText t, h]
  exact Option.some.inj hread

/-- Only the empty text is written as nothing. -/
theorem ofText_eq_nil_iff {s : String} : ofText s = [] ↔ s = "" := by
  have hempty : ofText "" = [] := rfl
  constructor
  · intro h
    exact ofText_inj (h.trans hempty.symm)
  · rintro rfl
    exact hempty

end Bytes

namespace Wire

/-- What a payload that has a length of its own must keep to.  A group is no payload that is
    written. -/
def Payload.Writable : Payload → Prop
  | .varint _  => True
  | .fixed64 b => b.length = 8
  | .bytes b   => b.length < UInt64.size
  | .group     => False
  | .fixed32 b => b.length = 4

/-- A field whose key fits into 32 bits and whose payload can be read back. -/
structure Field.Writable (f : Field) : Prop where
  numbered : 1 ≤ f.number
  keyed    : 8 * f.number + 8 ≤ keyBound
  payload  : f.payload.Writable

-- ── Keys and lengths ─────────────────────────────────────────────────────────────────────────────

theorem Payload.code_lt (p : Payload) : p.code < 8 := by
  cases p <;> simp [Payload.code]

theorem readKey?_key {number code : Nat} (hnumber : 1 ≤ number) (hcode : code < 8)
    (hbound : 8 * number + 8 ≤ keyBound) (rest : Bytes) :
    readKey? (key number code ++ rest) = some (number, code, rest) := by
  have hword : (UInt64.ofNat (8 * number + code)).toNat = 8 * number + code := by
    refine UInt64.toNat_ofNat_of_lt (Nat.lt_of_lt_of_le (m := keyBound) ?_ (by decide))
    omega
  have hfits : 8 * number + code < keyBound ∧ 8 ≤ 8 * number + code := by omega
  have hsplit : (8 * number + code) / 8 = number ∧ (8 * number + code) % 8 = code := by omega
  rw [readKey?, key, Varint.decode?_encode]
  simp only [hword, hfits, hsplit, and_self, if_true]

theorem split?_append {xs : Bytes} {n : Nat} (h : xs.length = n) (rest : Bytes) :
    split? n (xs ++ rest) = some (xs, rest) := by
  subst h
  rw [split?, if_pos (by simp), List.take_left, List.drop_left]

-- ── One field ────────────────────────────────────────────────────────────────────────────────────

/-- **The token in front is the field that was written**, whatever comes behind it. -/
theorem Token.read?_encode {f : Field} (h : f.Writable) (rest : Bytes) :
    Token.read? (f.encode ++ rest) = some (.field f, rest) := by
  obtain ⟨number, payload⟩ := f
  obtain ⟨hnumber, hbound, hpayload⟩ := h
  have hkey := fun r => readKey?_key hnumber payload.code_lt hbound r
  cases payload with
  | varint v =>
      rw [Field.encode, List.append_assoc, Token.read?, hkey]
      simp only [Payload.code, Varint.decode?_encode, Option.map_some]
  | fixed64 b =>
      rw [Field.encode, List.append_assoc, Token.read?, hkey]
      simp only [Payload.code, split?_append hpayload, Option.map_some]
  | bytes b =>
      have hlength : (UInt64.ofNat b.length).toNat = b.length := UInt64.toNat_ofNat_of_lt hpayload
      rw [Field.encode, List.append_assoc, Token.read?, hkey]
      simp only [Payload.code, List.append_assoc, Varint.decode?_encode, Option.bind_some, hlength,
        split?_append rfl, Option.map_some]
  | group => exact hpayload.elim
  | fixed32 b =>
      rw [Field.encode, List.append_assoc, Token.read?, hkey]
      simp only [Payload.code, split?_append hpayload, Option.map_some]

theorem Field.encode_ne_nil (f : Field) : f.encode ≠ [] := by
  intro h
  rw [Field.encode, List.append_eq_nil_iff] at h
  exact Varint.groups_ne_nil _ _ h.1

/-- The octets of a field are more than those of its payload. -/
theorem Field.length_lt_encode (number : Nat) (b : Bytes) :
    b.length < (Field.encode ⟨number, .bytes b⟩).length := by
  have hkey : 0 < (key number 2).length := List.length_pos_iff.2 (Varint.groups_ne_nil _ _)
  have hlength : (Field.encode ⟨number, .bytes b⟩).length =
      (key number 2).length + ((Varint.encode (UInt64.ofNat b.length)).length + b.length) := by
    simp [Field.encode, Payload.code]
  omega

-- ── A message ────────────────────────────────────────────────────────────────────────────────────

@[simp] theorem encodeFields_nil : encodeFields [] = [] := rfl

@[simp] theorem encodeFields_cons (f : Field) (fs : List Field) :
    encodeFields (f :: fs) = f.encode ++ encodeFields fs := rfl

@[simp] theorem encodeFields_append (fs gs : List Field) :
    encodeFields (fs ++ gs) = encodeFields fs ++ encodeFields gs := List.flatMap_append

theorem scan_encodeFields {fs : List Field} (h : ∀ f ∈ fs, f.Writable) (budget : Nat) {k : Nat}
    (hk : (encodeFields fs).length ≤ k) : scan budget k [] (encodeFields fs) = some fs := by
  induction fs generalizing k with
  | nil => cases k <;> rfl
  | cons f fs ih =>
      have hread := Token.read?_encode (h f (List.mem_cons_self ..)) (encodeFields fs)
      rw [encodeFields_cons] at hk ⊢
      rw [List.length_append] at hk
      -- a field takes at least one octet, so there is a count left for the others
      cases hfield : f.encode with
      | nil => exact absurd hfield f.encode_ne_nil
      | cons b bs =>
          rw [hfield, List.length_cons] at hk
          rw [hfield] at hread
          obtain ⟨k, rfl⟩ : ∃ k', k = k' + 1 := ⟨k - 1, by omega⟩
          have hrest := ih (fun g hg => h g (List.mem_cons_of_mem _ hg)) (k := k) (by omega)
          rw [List.cons_append] at hread ⊢
          simp only [scan, hread, hrest, Option.map_some]

/-- **Reading the fields of a message undoes writing them.** -/
theorem fields?_encodeFields {fs : List Field} (h : ∀ f ∈ fs, f.Writable) (budget : Nat) :
    fields? budget (encodeFields fs) = some fs :=
  scan_encodeFields h budget (Nat.le_refl _)

theorem readMessage?_encodeFields {α : Type} (merge : Merge α) (budget : Nat) (start : α)
    {fs : List Field} (h : ∀ f ∈ fs, f.Writable) :
    readMessage? merge budget start (encodeFields fs) = fs.foldlM (merge budget) start := by
  rw [readMessage?, fields?_encodeFields h, Option.bind_some]

-- ── Parts and texts ──────────────────────────────────────────────────────────────────────────────

/-- A part is shorter than the message that it is part of. -/
theorem length_lt_part (number : Nat) (fs : List Field) :
    (encodeFields fs).length < (encodeFields (Field.part number fs)).length := by
  rw [Field.part, encodeFields_cons, encodeFields_nil, List.append_nil]
  exact Field.length_lt_encode ..

/-- A message that is one part takes in that part and nothing else. -/
theorem readMessage?_part {α : Type} (merge : Merge α) (budget : Nat) (start : α) {number : Nat}
    (hnumber : 1 ≤ number) (hbound : 8 * number + 8 ≤ keyBound) {fs : List Field}
    (hfits : (encodeFields (Field.part number fs)).length < UInt64.size) :
    readMessage? merge budget start (encodeFields (Field.part number fs)) =
      merge budget start ⟨number, .bytes (encodeFields fs)⟩ := by
  have hwritable : ∀ f ∈ Field.part number fs, f.Writable := by
    intro f hf
    rw [List.mem_singleton.1 hf]
    exact ⟨hnumber, hbound, Nat.lt_trans (length_lt_part number fs) hfits⟩
  rw [readMessage?_encodeFields _ _ _ hwritable, Field.part, List.foldlM_cons]
  exact bind_pure _

theorem writable_text {number : Nat} (hnumber : 1 ≤ number) (hbound : 8 * number + 8 ≤ keyBound)
    {s : String} (hfits : (encodeFields (Field.text number s)).length < UInt64.size) :
    ∀ f ∈ Field.text number s, f.Writable := by
  intro f hf
  rw [Field.text, Field.octets] at hf hfits
  split at hf
  · exact nomatch hf
  · rename_i hne
    rw [if_neg hne, encodeFields_cons, encodeFields_nil, List.append_nil] at hfits
    rw [List.mem_singleton.1 hf]
    exact ⟨hnumber, hbound, Nat.lt_trans (Field.length_lt_encode ..) hfits⟩

/-- A text is read whether it is written or, being empty, left out: `put` says what the message is
    with the text in it, and it is the message so far with no text in it. -/
theorem foldlM_text {α : Type} {merge : α → Field → Option α} {number : Nat} {start : α}
    (put : String → α) {s : String} (hempty : put "" = start)
    (htake : merge start ⟨number, .bytes (Bytes.ofText s)⟩ = some (put s)) :
    (Field.text number s).foldlM merge start = some (put s) := by
  rw [Field.text, Field.octets]
  split
  · rename_i hnil
    rw [Bytes.ofText_eq_nil_iff.1 hnil, hempty]
    rfl
  · rw [List.foldlM_cons, htake]
    rfl

end Wire

end WitnessReplication

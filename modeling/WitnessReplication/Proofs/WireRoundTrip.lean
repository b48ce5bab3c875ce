import WitnessReplication.Proofs.FieldLaws
import WitnessReplication.Wire.Frame

/-!
# Wire round trip — every message is read back as it was written

    A message is written as fields, in the order of their numbers, and a field that holds nothing but
    a default is left out.  It is read by folding the fields into a message that holds nothing but
    defaults.  So reading undoes writing field by field: one that was written puts its value in, and
    for one that was left out the value is there already.  A part that is present is always written,
    even when all that is in it was left out.

    Octets that were written to memory are fewer than a word can count, and with them all the octets
    inside them.  The only thing that does not survive is a hint that names nobody.

* **`foldlM_word`**, **`foldlM_flag`**, **`foldlM_octets`**, **`foldlM_parts`** — the fields.
* **`Frame.decode?_encode`** — a message with its header, from the law of its own fields.
* **`wire_round_trip`** — all requests, replies, log entries and names of commands.
-/

namespace WitnessReplication.Wire

-- ── Plain fields ─────────────────────────────────────────────────────────────────────────────────

/-- A field of the messages here: a number from one to five, and a word or octets. -/
structure Field.Plain (f : Field) : Prop where
  numbered : 1 ≤ f.number ∧ f.number ≤ 5
  payload  : f.payload.code = 0 ∨ f.payload.code = 2

theorem length_encode_le {f : Field} {fs : List Field} (h : f ∈ fs) :
    f.encode.length ≤ (encodeFields fs).length := by
  obtain ⟨before, after, rfl⟩ := List.append_of_mem h
  simp only [encodeFields_append, encodeFields_cons, List.length_append]
  omega

/-- Plain fields that were written to countably few octets are writable. -/
theorem writable_of_plain {fs : List Field} (h : ∀ f ∈ fs, f.Plain)
    (hfits : (encodeFields fs).length < UInt64.size) : ∀ f ∈ fs, f.Writable := by
  intro f hf
  have hlength := Nat.lt_of_le_of_lt (length_encode_le hf) hfits
  obtain ⟨⟨hlow, hhigh⟩, hpayload⟩ := h f hf
  have hkeyed : 8 * f.number + 8 ≤ keyBound := Nat.le_trans (by omega) (by decide : 48 ≤ keyBound)
  obtain ⟨number, payload⟩ := f
  cases payload with
  | varint v  => exact ⟨hlow, hkeyed, trivial⟩
  | bytes b   => exact ⟨hlow, hkeyed, Nat.lt_trans (Field.length_lt_encode number b) hlength⟩
  | fixed64 b => simp [Payload.code] at hpayload
  | group     => simp [Payload.code] at hpayload
  | fixed32 b => simp [Payload.code] at hpayload

/-- A message of plain fields is read by folding them into it. -/
theorem readMessage?_plain {α : Type} (merge : Merge α) (budget : Nat) (start : α) {fs : List Field}
    (h : ∀ f ∈ fs, f.Plain) (hfits : (encodeFields fs).length < UInt64.size) :
    readMessage? merge budget start (encodeFields fs) = fs.foldlM (merge budget) start :=
  readMessage?_encodeFields merge budget start (writable_of_plain h hfits)

section Plain

variable {number : Nat} (h : 1 ≤ number ∧ number ≤ 5)
include h

theorem plain_word (v : UInt64) : ∀ f ∈ Field.word number v, f.Plain ∧ f.number = number := by
  intro f hf
  rw [Field.word] at hf
  split at hf
  · exact nomatch hf
  · rw [List.mem_singleton.1 hf]
    exact ⟨⟨h, Or.inl rfl⟩, rfl⟩

/-- A word is writable however long the message is. -/
theorem writable_word (v : UInt64) : ∀ f ∈ Field.word number v, f.Writable := by
  intro f hf
  rw [Field.word] at hf
  split at hf
  · exact nomatch hf
  · rw [List.mem_singleton.1 hf]
    have hkeyed : 8 * number + 8 ≤ keyBound := Nat.le_trans (by omega) (by decide : 48 ≤ keyBound)
    exact ⟨h.1, hkeyed, trivial⟩

theorem plain_flag (b : Bool) : ∀ f ∈ Field.flag number b, f.Plain ∧ f.number = number := by
  intro f hf
  rw [Field.flag] at hf
  split at hf
  · rw [List.mem_singleton.1 hf]
    exact ⟨⟨h, Or.inl rfl⟩, rfl⟩
  · exact nomatch hf

theorem plain_octets (b : Bytes) : ∀ f ∈ Field.octets number b, f.Plain ∧ f.number = number := by
  intro f hf
  unfold Field.octets at hf
  split at hf
  · exact nomatch hf
  · rw [List.mem_singleton.1 hf]
    exact ⟨⟨h, Or.inr rfl⟩, rfl⟩

theorem plain_part (fs : List Field) : ∀ f ∈ Field.part number fs, f.Plain ∧ f.number = number := by
  intro f hf
  rw [List.mem_singleton.1 hf]
  exact ⟨⟨h, Or.inr rfl⟩, rfl⟩

end Plain

-- ── Fields that may be left out ──────────────────────────────────────────────────────────────────

section Folds

variable {α β : Type} {merge : α → Field → Option α} {start next last : α}

/-- Fields are taken in one group after the other. -/
theorem foldlM_append_some {fs gs : List Field} (hfs : fs.foldlM merge start = some next)
    (hgs : gs.foldlM merge next = some last) : (fs ++ gs).foldlM merge start = some last := by
  rw [List.foldlM_append, hfs]
  exact hgs

/-- A word is read whether it is written or, being zero, left out. -/
theorem foldlM_word (number : Nat) (v : UInt64) (put : UInt64 → α) (hzero : put 0 = start)
    (htake : merge start ⟨number, .varint v⟩ = some (put v)) :
    (Field.word number v).foldlM merge start = some (put v) := by
  rw [Field.word]
  split
  · rename_i h
    rw [h, hzero]
    rfl
  · rw [List.foldlM_cons, htake]
    rfl

/-- A truth value is read whether it is written or, being false, left out. -/
theorem foldlM_flag (number : Nat) (b : Bool) (put : Bool → α) (hfalse : put false = start)
    (htake : merge start ⟨number, .varint 1⟩ = some (put true)) :
    (Field.flag number b).foldlM merge start = some (put b) := by
  cases b with
  | false => rw [hfalse]; rfl
  | true  =>
      rw [Field.flag, if_pos rfl, List.foldlM_cons, htake]
      rfl

/-- Octets are read whether they are written or, there being none, left out. -/
theorem foldlM_octets (number : Nat) (b : Bytes) (put : Bytes → α) (hnil : put [] = start)
    (htake : merge start ⟨number, .bytes b⟩ = some (put b)) :
    (Field.octets number b).foldlM merge start = some (put b) := by
  rw [Field.octets]
  split
  · rename_i h
    rw [h, hnil]
    rfl
  · rw [List.foldlM_cons, htake]
    rfl

/-- Fields of one number, one for each of some values, are taken in one after the other. -/
theorem foldlM_each (field : β → Field) (put : List β → α) (values : List β)
    (htake : ∀ sofar, ∀ v ∈ values, merge (put sofar) (field v) = some (put (sofar ++ [v])))
    (sofar : List β) :
    (values.map field).foldlM merge (put sofar) = some (put (sofar ++ values)) := by
  induction values generalizing sofar with
  | nil              => rw [List.append_nil]; rfl
  | cons v values ih =>
      have hrest := ih (fun sofar w hw => htake sofar w (List.mem_cons_of_mem _ hw)) (sofar ++ [v])
      rw [List.map_cons, List.foldlM_cons, htake sofar v (List.mem_cons_self ..)]
      rw [List.append_assoc] at hrest
      exact hrest

end Folds

-- ── What the messages share ──────────────────────────────────────────────────────────────────────

theorem readHeader (h : Header) (budget : Nat) :
    readMessage? mergeHeader budget ⟨0⟩ (encodeFields (headerFields h)) = some h := by
  rw [headerFields, readMessage?_encodeFields _ _ _ (writable_word (by decide) _)]
  have htake : (Field.word 1 h.version.toUInt64).foldlM (mergeHeader budget) ⟨0⟩ =
      some ⟨h.version.toUInt64.toUInt32⟩ :=
    foldlM_word 1 _ (fun v => (⟨v.toUInt32⟩ : Header)) rfl rfl
  rw [htake, UInt32.toUInt32_toUInt64]

theorem readRequestId (id : RequestId) (budget : Nat) :
    readMessage? mergeRequestId budget ⟨⟨0⟩, ⟨0⟩⟩ (encodeFields (requestIdFields id)) = some id := by
  have hwritable : ∀ f ∈ requestIdFields id, f.Writable := List.forall_mem_append.2
    ⟨writable_word (by decide) _, writable_word (by decide) _⟩
  rw [readMessage?_encodeFields _ _ _ hwritable]
  exact foldlM_append_some
    (foldlM_word 1 _ (fun v => (⟨⟨v⟩, ⟨0⟩⟩ : RequestId)) rfl rfl)
    (foldlM_word 2 _ (fun v => (⟨id.client, ⟨v⟩⟩ : RequestId)) rfl rfl)

namespace RawEntry

theorem plain_fields (e : RawEntry) : ∀ f ∈ e.fields, f.Plain := by
  simp only [fields, List.forall_mem_append]
  refine ⟨⟨⟨⟨?_, ?_⟩, ?_⟩, ?_⟩, ?_⟩
  · exact fun f hf => (plain_word (by decide) _ f hf).1
  · exact fun f hf => (plain_octets (by decide) _ f hf).1
  · intro f hf
    obtain ⟨key, _, rfl⟩ := List.mem_map.1 hf
    exact ⟨(by decide : 1 ≤ 3 ∧ 3 ≤ 5), Or.inr rfl⟩
  · exact fun f hf => (plain_word (by decide) _ f hf).1
  · exact fun f hf => (plain_word (by decide) _ f hf).1

/-- **A log entry is read as it was written.** -/
theorem read (e : RawEntry) (budget : Nat) (hfits : (encodeFields e.fields).length < UInt64.size) :
    readMessage? merge budget .blank (encodeFields e.fields) = some e := by
  obtain ⟨kind, data, keys, client, seq⟩ := e
  rw [readMessage?_plain _ _ _ (plain_fields _) hfits]
  have hkind : (Field.word 1 kind.toUInt64).foldlM (merge budget) .blank =
      some ⟨kind.toUInt64.toUInt32, [], [], 0, 0⟩ :=
    foldlM_word 1 _ (fun v => (⟨v.toUInt32, [], [], 0, 0⟩ : RawEntry)) rfl rfl
  rw [UInt32.toUInt32_toUInt64] at hkind
  -- each field finds what was read before it, and the defaults of those behind it
  have hdata := foldlM_append_some hkind
    (foldlM_octets 2 data (fun b => (⟨kind, b, [], 0, 0⟩ : RawEntry)) rfl rfl)
  have hkeys := foldlM_append_some hdata
    (foldlM_each (fun k => ⟨3, .bytes k⟩) (fun ks => (⟨kind, data, ks, 0, 0⟩ : RawEntry)) keys
      (fun _ _ _ => rfl) [])
  have hclient := foldlM_append_some hkeys
    (foldlM_word 4 client (fun v => (⟨kind, data, keys, v, 0⟩ : RawEntry)) rfl rfl)
  exact foldlM_append_some hclient
    (foldlM_word 5 seq (fun v => (⟨kind, data, keys, client, v⟩ : RawEntry)) rfl rfl)

/-- Entries are what is read from them as they are written. -/
theorem all_ofEntry (es : List LogEntry) : all (es.map .ofEntry) = .ok es := by
  induction es with
  | nil          => rfl
  | cons e es ih => rw [List.map_cons, all, entry_ofEntry, ih]

end RawEntry

-- ── Frames ───────────────────────────────────────────────────────────────────────────────────────

/-- Fields behind the header. -/
def Inner (fs : List Field) : Prop := ∀ f ∈ fs, f.Plain ∧ f.number ≠ 1

@[simp] theorem inner_nil : Inner [] := fun _ hf => nomatch hf

@[simp] theorem inner_append {fs gs : List Field} : Inner (fs ++ gs) ↔ Inner fs ∧ Inner gs :=
  List.forall_mem_append

/-- Fields of one number are behind the header if that number is. -/
theorem inner_of_number {number : Nat} (h : 2 ≤ number) {fs : List Field}
    (hfs : ∀ f ∈ fs, f.Plain ∧ f.number = number) : Inner fs := by
  intro f hf
  obtain ⟨hplain, hnumber⟩ := hfs f hf
  exact ⟨hplain, by omega⟩

section Inner

variable {number : Nat} (h : 2 ≤ number ∧ number ≤ 5)
include h

theorem inner_word (v : UInt64) : Inner (Field.word number v) :=
  inner_of_number h.1 (plain_word ⟨by omega, h.2⟩ v)

theorem inner_flag (b : Bool) : Inner (Field.flag number b) :=
  inner_of_number h.1 (plain_flag ⟨by omega, h.2⟩ b)

theorem inner_octets (b : Bytes) : Inner (Field.octets number b) :=
  inner_of_number h.1 (plain_octets ⟨by omega, h.2⟩ b)

theorem inner_part (fs : List Field) : Inner (Field.part number fs) :=
  inner_of_number h.1 (plain_part ⟨by omega, h.2⟩ fs)

theorem inner_parts {β : Type} (values : List β) (fields : β → List Field) :
    Inner (values.flatMap fun v => Field.part number (fields v)) := by
  intro f hf
  obtain ⟨v, _, hf⟩ := List.mem_flatMap.1 hf
  exact inner_part h (fields v) f hf

end Inner

/-- A part inside some fields takes up fewer octets than they do. -/
theorem length_part_lt {number : Nat} {part fs : List Field}
    (h : ⟨number, .bytes (encodeFields part)⟩ ∈ fs) :
    (encodeFields part).length < (encodeFields fs).length :=
  Nat.lt_of_lt_of_le (Field.length_lt_encode number _) (length_encode_le h)

/-- Parts under one number, one for each of some values, are fields of this number. -/
theorem flatMap_part {β : Type} (number : Nat) (values : List β) (fields : β → List Field) :
    (values.flatMap fun v => Field.part number (fields v)) =
      values.map fun v => ⟨number, .bytes (encodeFields (fields v))⟩ :=
  List.map_eq_flatMap.symm

/-- The fields of a body are taken into it, and the header stays. -/
theorem Frame.foldlM_body {α : Type} (mergeBody : Merge α) (budget : Nat) (header : Option Header)
    {fs : List Field} (h : ∀ f ∈ fs, f.number ≠ 1) (start : α) :
    fs.foldlM (merge mergeBody budget) ⟨header, start⟩ =
      (fs.foldlM (mergeBody budget) start).map fun body => ⟨header, body⟩ := by
  induction fs generalizing start with
  | nil          => rfl
  | cons f fs ih =>
      have hmerge : merge mergeBody budget ⟨header, start⟩ f =
          (mergeBody budget start f).map fun body => ⟨header, body⟩ := by
        rw [merge]
        split
        · rename_i hone
          exact absurd hone (h f (List.mem_cons_self ..))
        · rfl
      rw [List.foldlM_cons, List.foldlM_cons, hmerge]
      cases mergeBody budget start f with
      | none      => rfl
      | some body => exact ih (fun g hg => h g (List.mem_cons_of_mem _ hg)) body

/-- **A message is read as it was written**, header and body, if its body is. -/
theorem Frame.decode?_encode {α : Type} {mergeBody : Merge α} {fields : α → List Field}
    {header : Header} {blank body : α} (hinner : Inner (fields body))
    (hfits : (encode fields ⟨some header, body⟩).length < UInt64.size)
    (hread : (fields body).foldlM (mergeBody nestingLimit) blank = some body) :
    decode? mergeBody blank (encode fields ⟨some header, body⟩) = some ⟨some header, body⟩ := by
  have hall : ∀ f ∈ Field.part 1 (headerFields header) ++ fields body, f.Plain :=
    List.forall_mem_append.2
      ⟨fun f hf => (plain_part (by decide) _ f hf).1, fun f hf => (hinner f hf).1⟩
  have hheader : (Field.part 1 (headerFields header)).foldlM (merge mergeBody nestingLimit)
      ⟨none, blank⟩ = some ⟨some header, blank⟩ := by
    rw [Field.part, List.foldlM_cons]
    have htake : merge mergeBody nestingLimit ⟨none, blank⟩
        ⟨1, .bytes (encodeFields (headerFields header))⟩ = some ⟨some header, blank⟩ := by
      show Option.map _ (readMessage? mergeHeader 99 ⟨0⟩ _) = _
      rw [readHeader]
      rfl
    rw [htake]
    rfl
  rw [decode?, encode, readMessage?_plain _ _ _ hall hfits]
  refine foldlM_append_some hheader ?_
  rw [foldlM_body mergeBody nestingLimit (some header) fun f hf => (hinner f hf).2, hread]
  rfl

-- ── Requests ─────────────────────────────────────────────────────────────────────────────────────

namespace RawRequest

/-- The method of a request as it is written. -/
def method : RawRequest → Method
  | .clientId     => .clientId
  | .command _    => .command
  | .record _ _   => .record
  | .sync _       => .sync
  | .recoveryData => .recoveryData
  | .unfreeze     => .unfreeze
  | .witnessGc _  => .witnessGc

theorem inner_entryFields (entry : Option RawEntry) : Inner (entryFields entry) := by
  cases entry with
  | none   => exact inner_nil
  | some e => exact inner_part (by decide) e.fields

theorem inner_fields (r : RawRequest) : Inner r.fields := by
  cases r with
  | clientId         => exact inner_nil
  | command entry    => exact inner_entryFields entry
  | record entry t   => exact inner_append.2 ⟨inner_entryFields entry, inner_word (by decide) t⟩
  | sync entry       => exact inner_entryFields entry
  | recoveryData     => exact inner_nil
  | unfreeze         => exact inner_nil
  | witnessGc synced => exact inner_parts (by decide) synced requestIdFields

/-- An entry is read as it was written, if there is one: `put` says what the request is with it. -/
theorem foldlM_entry (put : Option RawEntry → RawRequest) (entry : Option RawEntry)
    (hmerge : ∀ b, merge nestingLimit (put none) ⟨2, .bytes b⟩ =
      (mergeEntry nestingLimit none ⟨2, .bytes b⟩).map fun e => put (some e))
    (hfits : (encodeFields (entryFields entry)).length < UInt64.size) :
    (entryFields entry).foldlM (merge nestingLimit) (put none) = some (put entry) := by
  cases entry with
  | none   => rfl
  | some e =>
      have hread : mergeEntry nestingLimit none ⟨2, .bytes (encodeFields e.fields)⟩ = some e :=
        e.read 99 (Nat.lt_trans (length_lt_part 2 _) hfits)
      rw [entryFields, Field.part, List.foldlM_cons, hmerge, hread]
      rfl

/-- **The fields of a request are read into it.** -/
theorem foldlM_fields (r : RawRequest) (hfits : (encodeFields r.fields).length < UInt64.size) :
    r.fields.foldlM (merge nestingLimit) (blank r.method) = some r := by
  cases r with
  | clientId         => rfl
  | command entry    => exact foldlM_entry .command entry (fun _ => rfl) hfits
  | record entry t   =>
      rw [fields, encodeFields_append, List.length_append] at hfits
      exact foldlM_append_some
        (foldlM_entry (fun e => .record e 0) entry (fun _ => rfl) (by omega))
        (foldlM_word 3 t (fun t => RawRequest.record entry t) rfl rfl)
  | sync entry       => exact foldlM_entry .sync entry (fun _ => rfl) hfits
  | recoveryData     => rfl
  | unfreeze         => rfl
  | witnessGc synced =>
      rw [fields, flatMap_part]
      refine foldlM_each _ RawRequest.witnessGc synced (fun sofar id _ => ?_) []
      show Option.map _ (readMessage? mergeRequestId 99 ⟨⟨0⟩, ⟨0⟩⟩ _) = _
      rw [readRequestId]
      rfl

end RawRequest

/-- The request that a request stands for as it is written is the request. -/
theorem request_toRequestFrame (m : Envelope Request) :
    (toRequestFrame m).body.request = .ok m.body := by
  obtain ⟨header, body⟩ := m
  cases body with
  | command entry    =>
      show (RawEntry.ofEntry entry).entry.map _ = _
      rw [RawEntry.entry_ofEntry]
      rfl
  | record entry t   =>
      show (RawEntry.ofEntry entry).entry.map _ = _
      rw [RawEntry.entry_ofEntry]
      rfl
  | sync entry       =>
      cases entry with
      | none       => rfl
      | some entry =>
          show ((RawEntry.ofEntry entry).entry.map some).map _ = _
          rw [RawEntry.entry_ofEntry]
          rfl
  | clientId | recoveryData | unfreeze | witnessGc _ => rfl

-- ── Replies ──────────────────────────────────────────────────────────────────────────────────────

namespace RawReply

/-- The method of a reply as it is written. -/
def method : RawReply → Method
  | .clientId _ _ _  => .clientId
  | .command _ _ _ _ => .command
  | .record _ _      => .record
  | .sync _ _ _      => .sync
  | .recoveryData _  => .recoveryData
  | .unfreeze        => .unfreeze
  | .witnessGc _     => .witnessGc

theorem inner_fields (r : RawReply) : Inner r.fields := by
  cases r with
  | clientId ok client hint     =>
      simp only [fields, inner_append]
      exact ⟨⟨inner_flag (by decide) ok, inner_word (by decide) client⟩,
        inner_octets (by decide) (Bytes.ofText hint)⟩
  | command ok hint data synced =>
      simp only [fields, inner_append]
      exact ⟨⟨⟨inner_flag (by decide) ok, inner_octets (by decide) (Bytes.ofText hint)⟩,
        inner_octets (by decide) data⟩, inner_flag (by decide) synced⟩
  | record ok t                 =>
      exact inner_append.2 ⟨inner_flag (by decide) ok, inner_word (by decide) t⟩
  | sync ok hint data           =>
      simp only [fields, inner_append]
      exact ⟨⟨inner_flag (by decide) ok, inner_octets (by decide) (Bytes.ofText hint)⟩,
        inner_octets (by decide) data⟩
  | recoveryData entries        => exact inner_parts (by decide) entries RawEntry.fields
  | unfreeze                    => exact inner_nil
  | witnessGc removed           => exact inner_word (by decide) removed

/-- A hint is read whether it is written or, naming nobody, left out. -/
theorem foldlM_hint (number : Nat) (put : String → RawReply) (hint : String)
    (hmerge : ∀ b, merge nestingLimit (put "") ⟨number, .bytes b⟩ =
      (Bytes.toText? b).map fun h => put h) :
    (Field.text number hint).foldlM (merge nestingLimit) (put "") = some (put hint) := by
  refine foldlM_text put rfl ?_
  rw [hmerge, Bytes.toText?_ofText]
  rfl

/-- **The fields of a reply are read into it.** -/
theorem foldlM_fields (r : RawReply) (hfits : (encodeFields r.fields).length < UInt64.size) :
    r.fields.foldlM (merge nestingLimit) (blank r.method) = some r := by
  cases r with
  | clientId ok client hint     =>
      have hok : (Field.flag 2 ok).foldlM (merge nestingLimit) (clientId false 0 "") =
          some (clientId ok 0 "") := foldlM_flag 2 ok (fun ok => clientId ok 0 "") rfl rfl
      have hclient := foldlM_append_some hok
        (foldlM_word 3 client (fun v => clientId ok v "") rfl rfl)
      exact foldlM_append_some hclient (foldlM_hint 4 (clientId ok client) hint fun _ => rfl)
  | command ok hint data synced =>
      have hok : (Field.flag 2 ok).foldlM (merge nestingLimit) (command false "" [] false) =
          some (command ok "" [] false) := foldlM_flag 2 ok (fun ok => command ok "" [] false) rfl rfl
      have hhint := foldlM_append_some hok
        (foldlM_hint 3 (fun h => command ok h [] false) hint fun _ => rfl)
      have hdata := foldlM_append_some hhint
        (foldlM_octets 4 data (fun b => command ok hint b false) rfl rfl)
      exact foldlM_append_some hdata (foldlM_flag 5 synced (command ok hint data) rfl rfl)
  | record ok t                 =>
      have hok : (Field.flag 2 ok).foldlM (merge nestingLimit) (record false 0) =
          some (record ok 0) := foldlM_flag 2 ok (fun ok => record ok 0) rfl rfl
      exact foldlM_append_some hok (foldlM_word 3 t (record ok) rfl rfl)
  | sync ok hint data           =>
      have hok : (Field.flag 2 ok).foldlM (merge nestingLimit) (sync false "" []) =
          some (sync ok "" []) := foldlM_flag 2 ok (fun ok => sync ok "" []) rfl rfl
      have hhint := foldlM_append_some hok
        (foldlM_hint 3 (fun h => sync ok h []) hint fun _ => rfl)
      exact foldlM_append_some hhint (foldlM_octets 4 data (sync ok hint) rfl rfl)
  | recoveryData entries        =>
      rw [fields, flatMap_part] at hfits ⊢
      refine foldlM_each _ recoveryData entries (fun sofar e he => ?_) []
      have hmem : (⟨2, .bytes (encodeFields e.fields)⟩ : Field) ∈
          entries.map fun e => ⟨2, .bytes (encodeFields e.fields)⟩ := List.mem_map_of_mem he
      have hread := e.read 99 (Nat.lt_trans (length_part_lt hmem) hfits)
      show Option.map _ (readMessage? RawEntry.merge 99 .blank _) = _
      rw [hread]
      rfl
  | unfreeze                    => rfl
  | witnessGc removed           => exact foldlM_word 2 removed witnessGc rfl rfl

end RawReply

/-- A hint is read as the receiver is to see it: one that names nobody is none. -/
theorem hintOf_hintText (hint : Option Address) :
    hintOf (hintText hint) = Address.normalizeHint hint := by
  cases hint with
  | none   => rfl
  | some a =>
      obtain ⟨text⟩ := a
      rfl

/-- The reply that a reply stands for as it is written is the reply as its receiver is to see it. -/
theorem reply_toReplyFrame (m : Envelope Reply) :
    (toReplyFrame m).body.reply = .ok m.body.normalized := by
  obtain ⟨header, body⟩ := m
  cases body with
  | clientId r       => simp only [toReplyFrame, RawReply.reply, hintOf_hintText]; rfl
  | command r        => simp only [toReplyFrame, RawReply.reply, hintOf_hintText]; rfl
  | sync r           => simp only [toReplyFrame, RawReply.reply, hintOf_hintText]; rfl
  | recoveryData es  =>
      show (RawEntry.all (es.map .ofEntry)).map _ = _
      rw [RawEntry.all_ofEntry]
      rfl
  | record _ | unfreeze | witnessGc _ => rfl

-- ── Whole messages ───────────────────────────────────────────────────────────────────────────────

/-- The fields of a message take up fewer octets than the message with its header. -/
theorem Frame.length_fields_le {α : Type} (fields : α → List Field) (m : Frame α) :
    (encodeFields (fields m.body)).length ≤ (m.encode fields).length := by
  rw [encode, encodeFields_append, List.length_append]
  omega

/-- **Every request is read as it was written**, whatever its method and its revision. -/
theorem decodeRequest_encodeRequest (m : Envelope Request)
    (hfits : (encodeRequest m).length < UInt64.size) :
    decodeRequest m.body.method (encodeRequest m) = .ok m := by
  have hmethod : (toRequestFrame m).body.method = m.body.method := by
    obtain ⟨header, body⟩ := m
    cases body <;> rfl
  have hread := (toRequestFrame m).body.foldlM_fields
    (Nat.lt_of_le_of_lt (Frame.length_fields_le RawRequest.fields _) hfits)
  rw [hmethod] at hread
  have hframe : decodeRequestFrame? m.body.method (encodeRequest m) = some (toRequestFrame m) :=
    Frame.decode?_encode (RawRequest.inner_fields _) hfits hread
  rw [decodeRequest, hframe, interpret, request_toRequestFrame]
  rfl

/-- **Every reply is read as it was written**, but for a hint that names nobody. -/
theorem decodeReply_encodeReply (m : Envelope Reply)
    (hfits : (encodeReply m).length < UInt64.size) :
    decodeReply m.body.method (encodeReply m) = .ok ⟨m.header, m.body.normalized⟩ := by
  have hmethod : (toReplyFrame m).body.method = m.body.method := by
    obtain ⟨header, body⟩ := m
    cases body <;> rfl
  have hread := (toReplyFrame m).body.foldlM_fields
    (Nat.lt_of_le_of_lt (Frame.length_fields_le RawReply.fields _) hfits)
  rw [hmethod] at hread
  have hframe : Frame.decode? RawReply.merge (.blank m.body.method) (encodeReply m) =
      some (toReplyFrame m) := Frame.decode?_encode (RawReply.inner_fields _) hfits hread
  rw [decodeReply, hframe, interpret, reply_toReplyFrame]
  rfl

/-- A log entry that travels by itself is read as it was written. -/
theorem decodeEntry_encodeEntry (e : LogEntry) (hfits : (encodeEntry e).length < UInt64.size) :
    decodeEntry (encodeEntry e) = .ok e := by
  rw [decodeEntry, encodeEntry, RawEntry.read _ _ hfits]
  simp only [RawEntry.entry_ofEntry]

/-- So is the name of a command. -/
theorem decodeRequestId_encodeRequestId (id : RequestId) :
    decodeRequestId (encodeRequestId id) = .ok id := by
  rw [decodeRequestId, encodeRequestId, readRequestId]

/-- Only the hint of a reply is passed through. -/
theorem mapHint_congr {f g : Option Address → Option Address} {r : Reply}
    (h : f r.hint = g r.hint) : r.mapHint f = r.mapHint g := by
  cases r with
  | clientId r | command r | sync r =>
      simp only [Reply.hint] at h
      simp only [Reply.mapHint, h]
  | record _ | recoveryData _ | unfreeze | witnessGc _ => rfl

/-- Only a hint that names nobody is seen otherwise than it was given. -/
theorem normalized_eq (r : Reply) :
    r.normalized = if r.hint = some ⟨""⟩ then r.mapHint fun _ => none else r := by
  split
  · rename_i hempty
    refine mapHint_congr ?_
    rw [hempty]
    rfl
  · rename_i hnamed
    have hsame : r.mapHint id = r := by cases r <;> rfl
    refine (mapHint_congr ?_).trans hsame
    cases hhint : r.hint with
    | none   => rfl
    | some a =>
        have ha : ¬ a.text = "" := fun h => hnamed (by rw [hhint, ← h])
        rw [Address.normalizeHint, if_neg ha]
        rfl

/-- **The round trip of the whole protocol**: every request and every reply of every method under
    every revision, every log entry and every name of a command is read back as it was written, but
    for a hint that names nobody, which is read as none.  What is asked of their octets is that they
    can be counted by a word, as any octets in memory can. -/
theorem wire_round_trip :
    (∀ m : Envelope Request, (encodeRequest m).length < UInt64.size →
      decodeRequest m.body.method (encodeRequest m) = .ok m) ∧
    (∀ m : Envelope Reply, (encodeReply m).length < UInt64.size →
      decodeReply m.body.method (encodeReply m) =
        .ok ⟨m.header, if m.body.hint = some ⟨""⟩ then m.body.mapHint fun _ => none else m.body⟩) ∧
    (∀ e : LogEntry, (encodeEntry e).length < UInt64.size → decodeEntry (encodeEntry e) = .ok e) ∧
    ∀ id : RequestId, decodeRequestId (encodeRequestId id) = .ok id := by
  refine ⟨decodeRequest_encodeRequest, fun m hfits => ?_, decodeEntry_encodeEntry,
    decodeRequestId_encodeRequestId⟩
  rw [decodeReply_encodeReply m hfits, normalized_eq]

/-- A command with two keys, whose client id and number take as many octets as a word can. -/
def fullEntry : LogEntry :=
  .command [1, 2, 255] [⟨[107]⟩, ⟨[0, 128]⟩] ⟨18446744073709551615⟩ ⟨9223372036854775808⟩

/-- The law at both ends.  Messages may hold nothing but defaults: a record of a command without
    data, and a refusal whose hint names nobody.  Or every field of them says something. -/
theorem wire_round_trip_of_extremes :
    decodeRequest .record (encodeRequest ⟨⟨0⟩, .record ⟨.command, [], [], ⟨0⟩, ⟨0⟩⟩ ⟨0⟩⟩) =
        .ok ⟨⟨0⟩, .record ⟨.command, [], [], ⟨0⟩, ⟨0⟩⟩ ⟨0⟩⟩ ∧
      decodeReply .sync (encodeReply ⟨⟨1⟩, .sync ⟨false, some ⟨""⟩, []⟩⟩) =
        .ok ⟨⟨1⟩, .sync ⟨false, none, []⟩⟩ ∧
      decodeRequest .record (encodeRequest ⟨⟨4294967295⟩, .record fullEntry ⟨300⟩⟩) =
        .ok ⟨⟨4294967295⟩, .record fullEntry ⟨300⟩⟩ ∧
      decodeReply .command (encodeReply ⟨⟨1⟩, .command ⟨true, some ⟨"m1:9001"⟩, [0, 7], true⟩⟩) =
        .ok ⟨⟨1⟩, .command ⟨true, some ⟨"m1:9001"⟩, [0, 7], true⟩⟩ ∧
      decodeEntry (encodeEntry fullEntry) = .ok fullEntry ∧
      decodeRequestId (encodeRequestId fullEntry.id) = .ok fullEntry.id :=
  ⟨wire_round_trip.1 ⟨⟨0⟩, .record ⟨.command, [], [], ⟨0⟩, ⟨0⟩⟩ ⟨0⟩⟩ (by decide),
    wire_round_trip.2.1 ⟨⟨1⟩, .sync ⟨false, some ⟨""⟩, []⟩⟩ (by decide),
    wire_round_trip.1 ⟨⟨4294967295⟩, .record fullEntry ⟨300⟩⟩ (by decide),
    wire_round_trip.2.1 ⟨⟨1⟩, .command ⟨true, some ⟨"m1:9001"⟩, [0, 7], true⟩⟩ (by decide),
    wire_round_trip.2.2.1 fullEntry (by decide), wire_round_trip.2.2.2 fullEntry.id⟩

/-- The header of the first revision and nothing else. -/
example : encodeRequest (.seal .clientId) = [10, 2, 8, 1] := by decide

end WitnessReplication.Wire

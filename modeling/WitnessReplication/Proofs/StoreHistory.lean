import Mathlib.Data.List.Induction
import WitnessReplication.Proofs.Reordering
import WitnessReplication.Proofs.WireRoundTrip

/-!
# Store history — what the store answers, told from what was fed to it

    The store keeps a map and a counter.  A client knows of neither; it knows what was sent, and what
    it may expect can be told from that alone: under a key there is the text that was set last, and
    the counter is the number of increments so far.  What cannot be read as a command might as well
    not have been sent.

    So there are two accounts of the view.  The store's own is carried along from one payload to the
    next; the other, **`recollect`**, looks back at all that came before.  They agree because looking
    back at one more command is looking back and then taking in the effect of that command
    (`recollect_concat`).

* **`Result.decode?_encode`** — an answer is read back from its octets, as a command is.
* **`Owed`** — what the history says an item must be answered with.
* **`Faithful`** and **`replay_faithful`** — every item is answered with what it is owed, and what is
  no command leaves no trace.
-/

namespace WitnessReplication.Kv

open Wire

-- ── Answers as octets ────────────────────────────────────────────────────────────────────────────

/-- **Reading a result undoes writing it**, as long as the length of its text is a word. -/
theorem Result.decode?_encode {r : Result}
    (hfits : (encodeFields (Field.text 1 r.value)).length < UInt64.size) :
    decode? r.encode = some r := by
  obtain ⟨value, counter⟩ := r
  have hwritable : ∀ f ∈ Field.text 1 value ++ Field.word 2 counter, f.Writable := by
    intro f hf
    rcases List.mem_append.1 hf with hf | hf
    · exact writable_text (by decide) (by decide) hfits f hf
    · exact writable_word (by decide) counter f hf
  have hvalue : (Field.text 1 value).foldlM (merge nestingLimit) ⟨"", 0⟩ = some ⟨value, 0⟩ := by
    refine foldlM_text (fun v => Result.mk v 0) rfl ?_
    simp [merge, Payload.text?, Bytes.toText?_ofText]
  have hcounter : (Field.word 2 counter).foldlM (merge nestingLimit) ⟨value, 0⟩ =
      some ⟨value, counter⟩ :=
    foldlM_word 2 counter (fun n => Result.mk value n) rfl rfl
  rw [decode?, encode, readMessage?_encodeFields _ _ _ hwritable]
  exact foldlM_append_some hvalue hcounter

/-- A text takes fewer octets in an answer than in the payload of the command that sets it. -/
theorem length_text_lt (key value : String) :
    (encodeFields (Field.text 1 value)).length < (Command.encode (.set key value)).length := by
  have hpart := length_lt_part 2 (Field.text 1 key ++ Field.text 2 value)
  have hsame : (encodeFields (Field.text 1 value)).length =
      (encodeFields (Field.text 2 value)).length := by
    have hnumber : (Wire.key 1 2).length = (Wire.key 2 2).length := by decide
    rw [Field.text, Field.text, Field.octets, Field.octets]
    split
    · rfl
    · simp only [encodeFields_cons, encodeFields_nil, Field.encode, Payload.code,
        List.length_append, hnumber]
  rw [encodeFields_append, List.length_append] at hpart
  rw [Command.encode, hsame]
  omega

-- ── What is fed to the store ─────────────────────────────────────────────────────────────────────

/-- Something that is fed to the store: a command as its payload, or octets that are none. -/
inductive Feed where
  | command (c : Command)
  | junk (bs : Bytes)
  deriving DecidableEq

namespace Feed

/-- The octets that are fed. -/
def payload : Feed → Bytes
  | .command c => c.encode
  | .junk bs   => bs

/-- The payload of a command has a length that is a word, and junk cannot be read as a command. -/
def Proper : Feed → Prop
  | .command c => c.encode.length < UInt64.size
  | .junk bs   => Command.decode? bs = none

instance : (x : Feed) → Decidable x.Proper
  | .command _ => inferInstanceAs (Decidable (_ < _))
  | .junk _    => inferInstanceAs (Decidable (_ = _))

/-- Whether a command is fed. -/
def isCommand : Feed → Bool
  | .command _ => true
  | .junk _    => false

/-- The text that is set under a key by this item, if one is. -/
def textUnder? (key : String) : Feed → Option String
  | .command (.set k value) => if k = key then some value else none
  | _                       => none

/-- What the item does to the view. -/
def effect (v : View) : Feed → View
  | .command c => c.effect v
  | .junk _    => v

/-- What the item is answered with. -/
def output (v : View) : Feed → Bytes
  | .command c => c.output v
  | .junk _    => []

end Feed

/-- Junk changes nothing. -/
theorem execute_junk (s : Store) {bs : Bytes} (h : Command.decode? bs = none) :
    StateMachine.execute s bs = (s, []) := by
  simp only [StateMachine.execute, StateMachine.apply, h, Option.getD_none]

/-- To execute the payload of an item is to answer it, and to take in its effect. -/
theorem execute_feed (s : Store) {x : Feed} (h : x.Proper) :
    (StateMachine.execute s x.payload).1.view = x.effect s.view ∧
      (StateMachine.execute s x.payload).2 = x.output s.view := by
  cases x with
  | command c =>
      have hrun := execute_encode s h
      refine ⟨?_, ?_⟩
      · rw [Feed.payload, hrun]
        exact s.view_run c
      · rw [Feed.payload, hrun, Store.result_run]
        rfl
  | junk bs =>
      rw [Feed.payload, execute_junk s h]
      exact ⟨rfl, rfl⟩

/-- Junk might as well not have been fed. -/
theorem after_filter {fed : List Feed} (h : ∀ x ∈ fed, x.Proper) (s : Store) :
    s.after (fed.map Feed.payload) = s.after ((fed.filter Feed.isCommand).map Feed.payload) := by
  induction fed generalizing s with
  | nil => rfl
  | cons x fed ih =>
      have hrest := ih fun y hy => h y (List.mem_cons_of_mem _ hy)
      cases x with
      | command c => exact hrest (StateMachine.execute s c.encode).1
      | junk bs =>
          have hjunk := execute_junk s (h (.junk bs) (List.mem_cons_self ..))
          show Store.after (StateMachine.execute s bs).1 (fed.map Feed.payload) = _
          rw [hjunk]
          exact hrest s

-- ── Looking back ─────────────────────────────────────────────────────────────────────────────────

/-- The text that was set last under a key, if one was. -/
def lastText? (fed : List Feed) (key : String) : Option String :=
  (fed.filterMap (·.textUnder? key)).getLast?

/-- How many increments there were. -/
def increments (fed : List Feed) : Nat := fed.count (.command .inc)

/-- What can be told of the store by looking back. -/
def recollect (fed : List Feed) : View := ⟨lastText? fed, UInt64.ofNat (increments fed)⟩

theorem lastText?_concat (fed : List Feed) (x : Feed) (key : String) :
    lastText? (fed ++ [x]) key = (x.textUnder? key).or (lastText? fed key) := by
  rw [lastText?, List.filterMap_append, List.filterMap_cons, List.filterMap_nil]
  cases x.textUnder? key with
  | none       => rw [List.append_nil]; rfl
  | some value => exact List.getLast?_concat

theorem increments_concat (fed : List Feed) (x : Feed) :
    increments (fed ++ [x]) = increments fed + if x = .command .inc then 1 else 0 := by
  rw [increments, List.count_append, List.count_singleton]
  simp only [beq_iff_eq]
  rfl

/-- **To look back at one more item is to take in its effect.** -/
theorem recollect_concat (fed : List Feed) (x : Feed) :
    recollect (fed ++ [x]) = x.effect (recollect fed) := by
  have htext : lastText? (fed ++ [x]) = fun key => (x.textUnder? key).or (lastText? fed key) :=
    funext (lastText?_concat fed x)
  rw [recollect, htext, increments_concat]
  match x with
  | .command (.get _)         => rfl
  | .junk _                   => rfl
  | .command .inc             =>
      rw [if_pos rfl, UInt64.ofNat_add]
      rfl
  | .command (.set key value) =>
      have hset : (fun k => (if key = k then some value else none).or (lastText? fed k)) =
          Function.update (lastText? fed) key (some value) := by
        funext k
        by_cases hk : k = key
        · subst hk
          rw [if_pos rfl, Function.update_self]
          rfl
        · rw [if_neg (Ne.symm hk), Function.update_of_ne hk]
          rfl
      show View.mk _ _ = View.mk (Function.update (lastText? fed) key (some value)) _
      rw [← hset]
      rfl

/-- **The store's own account and the one that looks back agree.** -/
theorem view_after_feeds {fed : List Feed} (h : ∀ x ∈ fed, x.Proper) :
    (Store.after {} (fed.map Feed.payload)).view = recollect fed := by
  induction fed using List.reverseRecOn with
  | nil                       => rfl
  | append_singleton fed x ih =>
      have hbefore := ih fun y hy => h y (List.mem_append_left _ hy)
      have hx := h x (List.mem_append_right _ (List.mem_singleton_self x))
      rw [List.map_append, Store.after_append]
      show (StateMachine.execute (Store.after {} _) x.payload).1.view = _
      rw [(execute_feed _ hx).1, hbefore, recollect_concat]

-- ── What every item is answered with ─────────────────────────────────────────────────────────────

/-- What an item must be answered with, after others. -/
def Owed (before : List Feed) (out : Bytes) : Feed → Prop
  | .command (.get key) => Result.decode? out = some ⟨(lastText? before key).getD "", 0⟩
  | .command (.set _ _) => out = []
  | .command .inc       => ∃ n, Result.decode? out = some ⟨"", n⟩ ∧ n.toNat = increments before + 1
  | .junk _             => out = []

/-- A text that was set can be answered. -/
theorem length_lastText_lt {fed : List Feed} (h : ∀ x ∈ fed, x.Proper) (key : String) :
    (encodeFields (Field.text 1 ((lastText? fed key).getD ""))).length < UInt64.size := by
  cases hlast : lastText? fed key with
  | none       => decide
  | some value =>
      obtain ⟨x, hx, htext⟩ := List.mem_filterMap.1 (List.mem_of_getLast? hlast)
      match x with
      | .command (.set k value') =>
          rw [Feed.textUnder?] at htext
          split at htext
          · obtain rfl : value' = value := Option.some.inj htext
            exact Nat.lt_trans (length_text_lt k value') (h _ hx)
          · exact nomatch htext
      | .command (.get _) => exact nomatch htext
      | .command .inc     => exact nomatch htext
      | .junk _           => exact nomatch htext

theorem owed_output {before : List Feed} (h : ∀ y ∈ before, y.Proper) {x : Feed}
    (hfew : increments (before ++ [x]) < UInt64.size) :
    Owed before (x.output (recollect before)) x := by
  match x with
  | .command (.get key) => exact Result.decode?_encode (length_lastText_lt h key)
  | .command (.set _ _) => exact rfl
  | .junk _             => exact rfl
  | .command .inc       =>
      rw [increments_concat, if_pos rfl] at hfew
      have hempty : (encodeFields (Field.text 1 "")).length < UInt64.size := by decide
      refine ⟨UInt64.ofNat (increments before) + 1, Result.decode?_encode hempty, ?_⟩
      rw [UInt64.toNat_add, UInt64.toNat_ofNat_of_lt' (by omega)]
      exact Nat.mod_eq_of_lt hfew

/-- An output is the answer after all that came before. -/
theorem getElem?_replay (s : Store) (payloads : List Bytes) (i : Nat) :
    (s.replay payloads)[i]? =
      payloads[i]?.map fun p => (StateMachine.execute (s.after (payloads.take i)) p).2 := by
  induction payloads generalizing s i with
  | nil => rfl
  | cons p rest ih =>
      cases i with
      | zero   => rfl
      | succ i => exact ih (StateMachine.execute s p).1 i

/-- What it means that a new store keeps to its history. -/
structure Faithful (fed : List Feed) : Prop where
  /-- Every item is answered. -/
  answered  : (Store.replay {} (fed.map Feed.payload)).length = fed.length
  /-- It is answered with what it is owed after the items before it. -/
  owed      : ∀ i x out, fed[i]? = some x →
    (Store.replay {} (fed.map Feed.payload))[i]? = some out → Owed (fed.take i) out x
  /-- Junk leaves no trace. -/
  traceless : Store.after {} (fed.map Feed.payload) =
    Store.after {} ((fed.filter Feed.isCommand).map Feed.payload)

theorem length_replay (s : Store) (payloads : List Bytes) :
    (s.replay payloads).length = payloads.length := by
  induction payloads generalizing s with
  | nil => rfl
  | cons p rest ih => exact congrArg Nat.succ (ih (StateMachine.execute s p).1)

/-- **A new store answers as its history says**, whatever it is fed, as long as the increments can
    be counted in a word; and commands and results are read back from their octets.  (Octets whose
    number is no word cannot be framed.) -/
theorem replay_faithful {fed : List Feed} (hproper : ∀ x ∈ fed, x.Proper)
    (hfew : increments fed < UInt64.size) :
    Faithful fed ∧
      (∀ c : Command, c.encode.length < UInt64.size → Command.decode? c.encode = some c) ∧
      (∀ r : Result, r.encode.length < UInt64.size → Result.decode? r.encode = some r) := by
  refine ⟨⟨?answered, ?owed, after_filter hproper {}⟩, ?commands, ?results⟩
  case answered => rw [length_replay, List.length_map]
  case owed =>
    intro i x out hx hout
    have hbefore : ∀ y ∈ fed.take i, y.Proper := fun y hy => hproper y (List.mem_of_mem_take hy)
    have hnow : increments (fed.take i ++ [x]) ≤ increments fed := by
      have htake : fed.take i ++ [x] = fed.take (i + 1) := by
        rw [List.take_add_one, hx]
        rfl
      rw [htake]
      exact (List.take_sublist (i + 1) fed).count_le _
    rw [getElem?_replay, List.getElem?_map, hx, ← List.map_take] at hout
    have hexecute := (execute_feed (Store.after {} ((fed.take i).map Feed.payload))
      (hproper x (List.mem_of_getElem? hx))).2
    rw [view_after_feeds hbefore] at hexecute
    have hanswer : x.output (recollect (fed.take i)) = out :=
      hexecute.symm.trans (Option.some.inj hout)
    rw [← hanswer]
    exact owed_output hbefore (Nat.lt_of_le_of_lt hnow hfew)
  case commands => exact fun c hfits => Command.decode?_encode hfits
  case results =>
    intro r hfits
    rw [Result.encode, encodeFields_append, List.length_append] at hfits
    exact Result.decode?_encode (by omega)

/-- The law at empty texts, a key that is set twice, and octets that are no command. -/
theorem replay_faithful_around_junk :
    let fed : List Feed := [.command (.get ""), .command .inc, .command (.set "" ""),
      .command (.set "k" "1"), .junk [255], .command (.set "k" "2"), .command (.get "k"),
      .junk [], .command .inc]
    (∀ x ∈ fed, x.Proper) ∧ increments fed < UInt64.size ∧ Faithful fed ∧
      Result.decode? ((Store.replay {} (fed.map Feed.payload)).getD 6 []) = some ⟨"2", 0⟩ ∧
      Result.decode? ((Store.replay {} (fed.map Feed.payload)).getD 8 []) = some ⟨"", 2⟩ := by
  intro fed
  have hproper : ∀ x ∈ fed, x.Proper := by decide
  have hfew : increments fed < UInt64.size := by decide
  exact ⟨hproper, hfew, (replay_faithful hproper hfew).1, by decide, by decide⟩

end WitnessReplication.Kv

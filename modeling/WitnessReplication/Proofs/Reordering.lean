import Mathlib.Data.List.Pairwise
import Mathlib.Data.List.Perm.Basic
import WitnessReplication.Proofs.KvLaws

/-!
# Reordering — commands without a common key may be run in any order

    This is what speculation stands on, and the recovery from witnesses as well: nobody who orders
    commands looks at more of them than their keys.  It is a law of the store, and of the keys that
    the store's commands name.

    Two commands that are **`Apart`** do not notice each other: what the one is answered with is the
    same before and after the other (`result?_effect`), and their effects come to the same in either
    order (`effect_comm`).  Hence, among commands that are pairwise apart, every one is answered as
    if it were the only one (`replay_apart`), and the effects add up to the same in every order
    (`foldl_effect_perm`).

* **`reordering_sound`** — commands that commute as log entries, in a given order and in any
  permutation of it: the same map, the same counter, and to every command the same octets.
-/

namespace WitnessReplication.Kv

namespace Command

/-- No key of the one is a key of the other. -/
def Apart (c d : Command) : Prop := ∀ k ∈ c.keys, k ∉ d.keys

theorem Apart.symm {c d : Command} (h : c.Apart d) : d.Apart c := by
  intro k hd hc
  exact h k hc hd

instance : Std.Symm Apart := ⟨fun _ _ => Apart.symm⟩

/-- A command as an entry of the log, under a name. -/
def entry (c : Command) (id : RequestId) : LogEntry := .command c.encode c.keys id.client id.seq

/-- As entries of the log commands commute if they are apart, whatever their names. -/
theorem commutesWith_entry {c d : Command} {i j : RequestId} :
    (c.entry i).commutesWith (d.entry j) = true ↔ c.Apart d := LogEntry.commutesWith_iff

/-- Every command touches a key, so that it is not apart from itself. -/
theorem not_apart_self (c : Command) : ¬ c.Apart c := by
  cases c with
  | get key       => exact fun h => h _ (List.mem_singleton_self _) (List.mem_singleton_self _)
  | set key value => exact fun h => h _ (List.mem_singleton_self _) (List.mem_singleton_self _)
  | inc           => exact fun h => h _ (List.mem_singleton_self _) (List.mem_singleton_self _)

-- ── Two commands ─────────────────────────────────────────────────────────────────────────────────

/-- Effects come to the same in either order. -/
theorem effect_comm {c d : Command} (h : c.Apart d) (v : View) :
    d.effect (c.effect v) = c.effect (d.effect v) := by
  cases c with
  | get key => rfl
  | set key value =>
      cases d with
      | get other => rfl
      | set other value' =>
          have hne : other ≠ key := by
            rintro rfl
            exact h _ (List.mem_singleton_self _) (List.mem_singleton_self _)
          show View.mk (Function.update (Function.update v.text key _) other _) v.counter =
            View.mk (Function.update (Function.update v.text other _) key _) v.counter
          rw [Function.update_comm hne.symm]
      | inc => rfl
  | inc => cases d <;> rfl

/-- A command is answered the same before and after another one. -/
theorem result?_effect {c d : Command} (h : c.Apart d) (v : View) :
    d.result? (c.effect v) = d.result? v := by
  cases c with
  | get key => rfl
  | set key value =>
      cases d with
      | get other =>
          have hne : other ≠ key := by
            rintro rfl
            exact h _ (List.mem_singleton_self _) (List.mem_singleton_self _)
          show some (Result.mk ((Function.update v.text key _ other).getD "") 0) = _
          rw [Function.update_of_ne hne]
          rfl
      | set other value' => rfl
      | inc => rfl
  | inc =>
      cases d with
      | get other => rfl
      | set other value => rfl
      | inc => exact absurd h (not_apart_self .inc)

-- ── Many commands ────────────────────────────────────────────────────────────────────────────────

/-- What is sent back for a command, as far as it can be told. -/
def output (v : View) (c : Command) : Bytes := ((c.result? v).map Result.encode).getD []

/-- A command is answered the same before and after any commands that it is apart from. -/
theorem output_foldl_effect {cs : List Command} {d : Command} (h : ∀ c ∈ cs, c.Apart d) (v : View) :
    output (cs.foldl effect v) d = output v d := by
  induction cs generalizing v with
  | nil => rfl
  | cons c cs ih =>
      have hhead : output (c.effect v) d = output v d := by
        rw [output, output, result?_effect (h c (List.mem_cons_self ..))]
      rw [List.foldl_cons, ih fun b hb => h b (List.mem_cons_of_mem _ hb)]
      exact hhead

theorem foldl_effect_perm {cs ds : List Command} (hapart : cs.Pairwise Apart) (hperm : cs.Perm ds)
    (v : View) : cs.foldl effect v = ds.foldl effect v := by
  refine hperm.foldl_eq' ?_ v
  intro c hc d hd v
  by_cases heq : c = d
  · rw [heq]
  · exact effect_comm (hapart.forall hc hd heq) v

end Command

open Command

namespace Store

/-- The store after some payloads were executed, the first one first. -/
def after (s : Store) (payloads : List Bytes) : Store :=
  payloads.foldl (fun s p => (StateMachine.execute s p).1) s

theorem after_append (s : Store) (xs ys : List Bytes) :
    s.after (xs ++ ys) = (s.after xs).after ys := List.foldl_append

variable {cs : List Command}

theorem view_after (hfits : ∀ c ∈ cs, c.encode.length < UInt64.size) (s : Store) :
    (s.after (cs.map encode)).view = cs.foldl effect s.view := by
  induction cs generalizing s with
  | nil => rfl
  | cons c cs ih =>
      have hhead : (StateMachine.execute s c.encode).1 = (s.run c).1 := by
        rw [execute_encode s (hfits c (List.mem_cons_self ..))]
      show (after (StateMachine.execute s c.encode).1 (cs.map encode)).view = _
      rw [hhead, ih fun d hd => hfits d (List.mem_cons_of_mem _ hd), view_run]
      rfl

/-- **Among commands that are pairwise apart every one is answered as if it were the only one.** -/
theorem replay_apart (hfits : ∀ c ∈ cs, c.encode.length < UInt64.size)
    (hapart : cs.Pairwise Apart) (s : Store) :
    s.replay (cs.map encode) = cs.map (output s.view) := by
  induction cs generalizing s with
  | nil => rfl
  | cons c cs ih =>
      obtain ⟨hc, hcs⟩ := List.pairwise_cons.1 hapart
      have htail : cs.map (output (s.run c).1.view) = cs.map (output s.view) := by
        refine List.map_congr_left ?_
        intro d hd
        have hone : ∀ b ∈ [c], b.Apart d := by
          intro b hb
          rw [List.mem_singleton.1 hb]
          exact hc d hd
        rw [view_run]
        exact output_foldl_effect hone s.view
      rw [List.map_cons, replay, execute_encode s (hfits c (List.mem_cons_self ..))]
      show _ :: replay (s.run c).1 (cs.map encode) = _
      rw [ih (fun d hd => hfits d (List.mem_cons_of_mem _ hd)) hcs, htail, result_run]
      rfl

/-- **Commands without a common key may be run in any order.**  In a given order and in any
    permutation of it, from any state, their payloads lead to the same map and the same counter, and
    every command is answered with the same octets.  (The length of a payload is a word, as it is of
    every payload that a log entry can carry.) -/
theorem reordering_sound (s : Store) {cs ds : List Command}
    (hfits : ∀ c ∈ cs, c.encode.length < UInt64.size)
    (hcommute : cs.Pairwise fun c d => ∀ i j, (c.entry i).commutesWith (d.entry j) = true)
    (hperm : cs.Perm ds) :
    (s.after (cs.map encode)).view = (s.after (ds.map encode)).view ∧
      (cs.zip (s.replay (cs.map encode))).Perm (ds.zip (s.replay (ds.map encode))) := by
  have hapart : cs.Pairwise Apart := hcommute.imp fun h => commutesWith_entry.1 (h default default)
  have hapart' : ds.Pairwise Apart := (hperm.pairwise_iff Apart.symm).1 hapart
  have hfits' : ∀ d ∈ ds, d.encode.length < UInt64.size := fun d hd => hfits d (hperm.mem_iff.2 hd)
  constructor
  · rw [view_after hfits, view_after hfits']
    exact foldl_effect_perm hapart hperm s.view
  · rw [replay_apart hfits hapart, replay_apart hfits' hapart', ← List.map_prod_left_eq_zip,
      ← List.map_prod_left_eq_zip]
    exact hperm.map _

/-- The law at a text that is set, another that is asked for, and an increment. -/
theorem reordering_of_three :
    let cs : List Command := [.set "a" "1", .inc, .get "b"]
    let ds : List Command := [.get "b", .set "a" "1", .inc]
    let s : Store := { map := [("b", "0")], counter := 7 }
    (∀ c ∈ cs, c.encode.length < UInt64.size) ∧
      (cs.Pairwise fun c d => ∀ i j, (c.entry i).commutesWith (d.entry j) = true) ∧ cs.Perm ds ∧
      (s.after (cs.map encode)).view = (s.after (ds.map encode)).view ∧
      (cs.zip (s.replay (cs.map encode))).Perm (ds.zip (s.replay (ds.map encode))) := by
  intro cs ds s
  have hfits : ∀ c ∈ cs, c.encode.length < UInt64.size := by decide
  have hcommute : cs.Pairwise fun c d => ∀ i j, (c.entry i).commutesWith (d.entry j) = true := by
    have hapart : cs.Pairwise Apart := by unfold Apart; decide
    exact hapart.imp fun h i j => commutesWith_entry.2 h
  have hperm : cs.Perm ds := by decide
  exact ⟨hfits, hcommute, hperm, reordering_sound s hfits hcommute hperm⟩

end Store

end WitnessReplication.Kv

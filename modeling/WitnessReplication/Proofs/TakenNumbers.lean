import WitnessReplication.Proofs.BegunCommands
import WitnessReplication.Proofs.LineRuns

/-!
# Taken numbers — a session gives no number twice

    A command that is begun without a number takes the session's next one, and nothing else does.
    It is taken for good: a command that fails, or that a closed session refuses, does not give it
    back, and no retry takes another.  So the numbers that a session gives are consecutive from its
    first one, modulo `2 ^ 64`, and as many as fit into a word are all different.

* **`Identity.takeMany_eq`** and **`nodup_takeMany`** — the numbers that are taken, written out.
* **`Session.names`** — the names of the commands that take a number in a run.
* **`react_identity`** — nothing but such a command changes a session's identity.
* **`names_eq`** — the law, for every run of every session.
-/

namespace WitnessReplication

namespace Identity

/-- **The numbers that are taken**, written out. -/
theorem takeMany_eq (i : Identity) (n : Nat) :
    i.takeMany n = (List.range n).map fun k => ⟨i.next.val + UInt64.ofNat k⟩ := by
  induction n generalizing i with
  | zero      => rfl
  | succ n ih =>
      have hnext : ∀ k, i.next.val + 1 + UInt64.ofNat k = i.next.val + UInt64.ofNat (k + 1) := by
        intro k
        rw [UInt64.ofNat_add, UInt64.add_comm (UInt64.ofNat k), ← UInt64.add_assoc]
        rfl
      rw [takeMany, ih, List.range_succ_eq_map, List.map_cons, List.map_map]
      refine List.cons_eq_cons.2 ⟨?_, List.map_congr_left fun k _ => ?_⟩
      · show i.next = ⟨i.next.val + 0⟩
        rw [UInt64.add_zero]
      · exact congrArg SeqNo.mk (hnext k)

/-- As many numbers as there are words are all different. -/
theorem nodup_takeMany (i : Identity) {n : Nat} (h : n ≤ UInt64.size) : (i.takeMany n).Nodup := by
  rw [takeMany_eq]
  refine List.Nodup.map_on (fun j hj k hk heq => ?_) List.nodup_range
  have hwords : UInt64.ofNat j = UInt64.ofNat k := (UInt64.add_right_inj _).1 (SeqNo.mk.inj heq)
  have hmod : j % UInt64.size = k % UInt64.size :=
    UInt64.toNat_ofNat'.symm.trans ((congrArg UInt64.toNat hwords).trans UInt64.toNat_ofNat')
  rw [List.mem_range] at hj hk
  rwa [Nat.mod_eq_of_lt (Nat.lt_of_lt_of_le hj h),
    Nat.mod_eq_of_lt (Nat.lt_of_lt_of_le hk h)] at hmod

end Identity

namespace Session

variable {s t : Session} {i : Identity}

-- ── Names ────────────────────────────────────────────────────────────────────────────────────────

/-- The name of the command that an input begins without a number. -/
def named? (s : Session) : Input → Option RequestId
  | .invoke data keys route none => (s.begins? (.invoke data keys route none)).map fun p => p.2.id
  | _                            => none

/-- The names of the commands that some inputs begin without a number, in order. -/
def names (s : Session) : List Input → List RequestId
  | []        => []
  | x :: rest => (s.named? x).toList ++ (s.react x).state.names rest

theorem names_append (s : Session) (xs ys : List Input) :
    s.names (xs ++ ys) = s.names xs ++ (s.run xs).names ys := by
  induction xs generalizing s with
  | nil          => rfl
  | cons x xs ih =>
      show (s.named? x).toList ++ _ = ((s.named? x).toList ++ _) ++ _
      rw [List.append_assoc]
      exact congrArg _ (ih _)

/-- Such a command has the client id of the session, and its next number. -/
theorem eq_of_named? {x : Input} {r : RequestId} (h : s.named? x = some r) :
    r = ⟨s.identity.client, s.identity.next⟩ := by
  cases x with
  | signal id sig              => exact nomatch h
  | close                      => exact nomatch h
  | invoke data keys route seq =>
      cases seq with
      | none   => exact (Option.some.inj h).symm
      | some n => exact nomatch h

-- ── Nothing else takes a number ──────────────────────────────────────────────────────────────────

theorem goRound_identity (c : Call) (h : s.identity = i) : (s.goRound c).state.identity = i := by
  unfold goRound
  split <;> exact h

theorem conclude_identity (c : Call) (error : SessionError) (h : s.identity = i) :
    (s.conclude c error).state.identity = i := by
  unfold conclude
  split <;> exact h

theorem follow_identity (c : Call) (d : Decision) (h : s.identity = i) :
    (s.follow c d).state.identity = i := by
  cases d with
  | commit data path => exact h
  | fail error       => exact conclude_identity c error h
  | sync data        => exact h

theorem advance_identity (c : Call) (a : Attempt) (h : s.identity = i) :
    (s.advance c a).state.identity = i := by
  unfold advance
  split
  · exact follow_identity c _ h
  · exact h

theorem led_identity (c : Call) (errand : Nat) (answer : Except SessionError Reply)
    (h : s.identity = i) : (s.led c errand answer).state.identity = i := by
  unfold led
  split
  · split
    · exact advance_identity c _ h
    · exact h
  · split
    · split
      · exact h
      · exact conclude_identity c _ h
    · exact h
  · exact h

theorem deliver_identity (errand : Nat) (outcome : Errand.Outcome) (h : s.identity = i) :
    (s.deliver errand outcome).state.identity = i := by
  unfold deliver
  split
  · exact h
  · exact led_identity _ errand _ h
  · unfold recorded
    split <;> exact h
  · exact h

/-- Whatever an activity is told, no number is taken. -/
theorem step_identity (s : Session) (id : Nat) (sig : Signal) :
    (s.step id sig).state.identity = s.identity := by
  rw [step]
  split
  · exact Progress.feed_kept (P := fun t : Session => t.identity = s.identity) rfl
      fun t errand outcome ht => deliver_identity errand outcome ht
  · split
    · exact advance_identity _ _ rfl
    · exact goRound_identity _ rfl
    · rfl
    · rfl

/-- **Nothing but a command without a number changes a session's identity**, and it takes the next
    number. -/
theorem react_identity (s : Session) (x : Input) :
    (s.react x).state.identity =
      if (s.named? x).isSome then s.identity.take.2 else s.identity := by
  cases x with
  | close                      => rfl
  | signal id sig              => exact step_identity s id sig
  | invoke data keys route seq =>
      show (s.invoke data keys route seq).2.state.identity = _
      unfold invoke
      cases seq with
      | none   =>
          dsimp only
          split <;> exact goRound_identity _ rfl
      | some n =>
          dsimp only
          split <;> exact goRound_identity _ rfl

/-- **The numbers that a session gives** are consecutive from its next one, whatever becomes of the
    commands. -/
theorem names_eq (s : Session) (xs : List Input) :
    s.names xs =
      (s.identity.takeMany (s.names xs).length).map (RequestId.mk s.identity.client) := by
  induction xs generalizing s with
  | nil          => rfl
  | cons x xs ih =>
      have hidentity := s.react_identity x
      have hrest := ih (s.react x).state
      cases hname : s.named? x with
      | none   =>
          rw [hname] at hidentity
          have hnames : s.names (x :: xs) = (s.react x).state.names xs := by
            show (s.named? x).toList ++ _ = _
            rw [hname]
            rfl
          rw [hidentity] at hrest
          rw [hnames]
          exact hrest
      | some r =>
          rw [hname] at hidentity
          have hnames : s.names (x :: xs) = r :: (s.react x).state.names xs := by
            show (s.named? x).toList ++ _ = _
            rw [hname]
            rfl
          rw [hnames, List.length_cons, Identity.takeMany, List.map_cons, eq_of_named? hname]
          refine List.cons_eq_cons.2 ⟨rfl, ?_⟩
          rw [hidentity] at hrest
          exact hrest

/-- They are names of the session's client. -/
theorem client_of_names {s : Session} {xs : List Input} {r : RequestId} (h : r ∈ s.names xs) :
    r.client = s.identity.client := by
  rw [names_eq] at h
  obtain ⟨n, _, rfl⟩ := List.mem_map.1 h
  rfl

/-- A session's client id stays what it was. -/
theorem run_client (s : Session) (xs : List Input) :
    (s.run xs).identity.client = s.identity.client := by
  induction xs generalizing s with
  | nil          => rfl
  | cons x xs ih =>
      refine (ih _).trans ?_
      rw [react_identity]
      split <;> rfl

/-- So a session gives no name twice, as long as the numbers suffice. -/
theorem nodup_names (s : Session) {xs : List Input} (h : (s.names xs).length ≤ UInt64.size) :
    (s.names xs).Nodup := by
  rw [names_eq]
  refine List.Nodup.map (fun m n heq => (RequestId.mk.inj heq).2) ?_
  exact s.identity.nodup_takeMany h

end Session

end WitnessReplication

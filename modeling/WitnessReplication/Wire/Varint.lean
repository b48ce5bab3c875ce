import WitnessReplication.Bytes

/-!
# Varints — words in groups of seven bits

    A word of 64 bits is written seven bits at a time, the lowest group first, and every octet but
    the last has its top bit set.  At most ten octets are read; longer forms than needed are
    accepted, and whatever the tenth octet says above bit 63 is dropped.

* **`Varint.encode`** — the shortest form of a word.
* **`Varint.decode?`** — reads one word off the front and returns what follows.
* **`decode?_encode`** — reading undoes writing, whatever follows.
-/

namespace WitnessReplication.Varint

/-- The most octets a word can take. -/
def maxLength : Nat := 10

/-- The groups of seven bits of `n`, lowest first, at most `k` of them. -/
def groups : Nat → Nat → Bytes
  | 0, _     => []
  | k + 1, n =>
      if n < 128 then [UInt8.ofNat n]
      else UInt8.ofNat (n % 128 + 128) :: groups k (n / 128)

/-- Reads groups until one has its top bit clear, at most `k` of them. -/
def readGroups : Nat → Bytes → Option (Nat × Bytes)
  | 0, _          => none
  | _ + 1, []     => none
  | k + 1, b :: r =>
      if b.toNat < 128 then some (b.toNat, r)
      else match readGroups k r with
        | none         => none
        | some (n, r') => some (b.toNat - 128 + 128 * n, r')

/-- The least number that does not fit into some groups. -/
def capacity : Nat → Nat
  | 0     => 1
  | k + 1 => 128 * capacity k

/-- The shortest form of a word. -/
def encode (v : UInt64) : Bytes := groups maxLength v.toNat

/-- Reads a word off the front.  `none` when the octets end too early or there are too many. -/
def decode? (bs : Bytes) : Option (UInt64 × Bytes) :=
  (readGroups maxLength bs).map fun (n, r) => (UInt64.ofNat n, r)

/-- Reading undoes writing for every number that fits into the groups. -/
theorem readGroups_groups (k n : Nat) (h : n < capacity (k + 1)) (rest : Bytes) :
    readGroups (k + 1) (groups (k + 1) n ++ rest) = some (n, rest) := by
  induction k generalizing n with
  | zero =>
      have hn : n < 128 := by simpa [capacity] using h
      have hb : (UInt8.ofNat n).toNat = n := by
        rw [UInt8.toNat_ofNat']; omega
      simp [groups, readGroups, hn, hb]
  | succ k ih =>
      by_cases hn : n < 128
      · have hb : (UInt8.ofNat n).toNat = n := by
          rw [UInt8.toNat_ofNat']; omega
        simp [groups, readGroups, hn, hb]
      · have hb : (UInt8.ofNat (n % 128 + 128)).toNat = n % 128 + 128 := by
          rw [UInt8.toNat_ofNat']; omega
        have hd : n / 128 < capacity (k + 1) := Nat.div_lt_of_lt_mul h
        have hlt : ¬ (n % 128 + 128 < 128) := by omega
        rw [groups, if_neg hn, List.cons_append, readGroups, hb, if_neg hlt, ih _ hd]
        simp only [Option.some.injEq, Prod.mk.injEq, and_true]
        omega

/-- Reading undoes writing, whatever follows. -/
theorem decode?_encode (v : UInt64) (rest : Bytes) :
    decode? (encode v ++ rest) = some (v, rest) := by
  have h : v.toNat < capacity (9 + 1) := by
    have hv : v.toNat < 18446744073709551616 := v.toNat_lt
    have hc : 18446744073709551616 ≤ capacity (9 + 1) := by decide
    exact Nat.lt_of_lt_of_le hv hc
  simp [decode?, encode, maxLength, readGroups_groups 9 _ h]

/-- At least one group is written while any are allowed. -/
theorem groups_ne_nil (k n : Nat) : groups (k + 1) n ≠ [] := by
  simp only [groups]; split <;> simp

end WitnessReplication.Varint

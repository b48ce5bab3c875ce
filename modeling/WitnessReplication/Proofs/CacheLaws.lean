import WitnessReplication.ResponseCache

/-!
# Cache laws — what the operations of a response cache do to a look-up

    A cache is a list of buckets and a bucket is a list of answers.  Whoever uses a cache looks at
    it through **`ResponseCache.lookup`** only, so the laws here say what each operation does to a
    look-up, and nothing above this file opens a bucket.

* **`ResponseCache.Distinct`** — every client has one bucket, every number in it one answer.
* **`lookup_record`** — a record adds one answer and changes no other.
* **`lookup_evict`** — a sweep takes away exactly what is not fresh.
* **`size_record`** and **`size_retainFresh`** — how many answers are kept then.
* **`Hollow`** — a bucket with nothing in it; only to drop what is old leaves one.
-/

namespace WitnessReplication

namespace ResponseCache

/-! ## Association lists -/

section Lists

variable {κ ν : Type} [DecidableEq κ]

/-- Replacing what a key has, where the key is present. -/
private theorem lookup_map_replace (k : κ) (v : ν) (l : List (κ × ν)) (k' : κ) :
    (l.map fun p => if p.1 = k then (k, v) else p).lookup k' =
      if k = k' then (l.lookup k').map (fun _ => v) else l.lookup k' := by
  induction l with
  | nil => simp
  | cons p r ih =>
      rw [List.map_cons, List.lookup_cons, List.lookup_cons, ih]
      by_cases hp : p.1 = k
      · by_cases hk : k = k'
        · subst hk
          simp [hp]
        · have hk' : (k' == k) = false := by simpa using fun h => hk h.symm
          simp [hp, hk, hk']
      · by_cases hk : k = k'
        · subst hk
          have hp' : (k == p.1) = false := by simpa using fun h => hp h.symm
          simp [hp, hp']
        · simp [hp, hk]

/-- Where keys are distinct, filtering the pairs filters what a key has. -/
private theorem lookup_filter (q : κ × ν → Bool) (l : List (κ × ν)) (h : (l.map (·.1)).Nodup)
    (k : κ) : (l.filter q).lookup k = (l.lookup k).filter fun v => q (k, v) := by
  induction l with
  | nil => rfl
  | cons p r ih =>
      obtain ⟨key, v⟩ := p
      rw [List.map_cons, List.nodup_cons] at h
      have hr := ih h.2
      rw [List.lookup_cons]
      by_cases hk : k = key
      · subst hk
        -- the rest does not have the key, so nothing behind the dropped pair comes to light
        have hnone : r.lookup k = none := by
          rw [List.lookup_eq_none_iff]
          intro x hx
          rw [bne_iff_ne]
          intro he
          exact h.1 (List.mem_map.2 ⟨x, hx, he.symm⟩)
        by_cases hf : q (k, v) = true
        · rw [List.filter_cons_of_pos hf]
          simp [Option.filter, hf]
        · rw [List.filter_cons_of_neg hf, hr, hnone]
          simp [Option.filter, hf]
      · have hk' : (k == key) = false := by simpa using hk
        by_cases hf : q (key, v) = true
        · rw [List.filter_cons_of_pos hf, List.lookup_cons]
          simp [hk', hr]
        · rw [List.filter_cons_of_neg hf]
          simp [hk', hr]

end Lists

/-! ## Buckets -/

/-- Every client has one bucket, and every number in a bucket has one answer. -/
structure Distinct (c : ResponseCache) : Prop where
  clients : c.clients.Nodup
  numbers : ∀ p ∈ c.buckets, (p.2.map (·.1)).Nodup

/-- The numbers in a client's bucket are distinct, also if the client has none. -/
theorem Distinct.bucket {c : ResponseCache} (h : c.Distinct) (client : ClientId) :
    ((c.bucket client).map (·.1)).Nodup := by
  rw [ResponseCache.bucket]
  cases hb : c.buckets.lookup client with
  | none   => exact List.nodup_nil
  | some b =>
      obtain ⟨l₁, l₂, hl, _⟩ := List.lookup_eq_some_iff.1 hb
      refine h.numbers (client, b) ?_
      rw [hl]
      exact List.mem_append_right _ (List.mem_cons_self ..)

/-- A cache without answers is in order. -/
theorem distinct_empty (retention : Nat) : Distinct { retention } :=
  ⟨List.nodup_nil, by simp⟩

@[simp] theorem retention_setBucket (c : ResponseCache) (client : ClientId) (b : Bucket) :
    (c.setBucket client b).retention = c.retention := by
  rw [setBucket]
  split <;> rfl

/-- Setting a bucket changes this bucket and no other. -/
theorem bucket_setBucket (c : ResponseCache) (client : ClientId) (b : Bucket) (client' : ClientId) :
    (c.setBucket client b).bucket client' = if client = client' then b else c.bucket client' := by
  rw [setBucket]
  split
  · rename_i h
    rw [ResponseCache.bucket, lookup_map_replace]
    by_cases hk : client = client'
    · subst hk
      obtain ⟨p, hp, hpk⟩ := List.any_eq_true.1 h
      have hsome : (c.buckets.lookup client).isSome = true := by
        rw [List.lookup_isSome_iff]
        exact ⟨p, hp, by simpa using (of_decide_eq_true hpk).symm⟩
      obtain ⟨v, hv⟩ := Option.isSome_iff_exists.1 hsome
      simp [hv]
    · simp [hk, ResponseCache.bucket]
  · rename_i h
    rw [ResponseCache.bucket, List.lookup_append, List.lookup_cons]
    by_cases hk : client = client'
    · subst hk
      have hnone : c.buckets.lookup client = none := by
        rw [List.lookup_eq_none_iff]
        intro p hp
        rw [bne_iff_ne]
        intro he
        exact h (List.any_eq_true.2 ⟨p, hp, by simpa using he.symm⟩)
      simp [hnone]
    · have hk' : (client' == client) = false := by simpa using fun h => hk h.symm
      simp [hk, hk', ResponseCache.bucket]

/-- Setting a bucket keeps a cache in order, if the numbers in the bucket are distinct. -/
theorem Distinct.setBucket {c : ResponseCache} (h : c.Distinct) (client : ClientId) {b : Bucket}
    (hb : (b.map (·.1)).Nodup) : (c.setBucket client b).Distinct := by
  rw [ResponseCache.setBucket]
  split
  · refine ⟨?_, ?_⟩
    · have hmap : (c.buckets.map fun p => if p.1 = client then (client, b) else p).map (·.1) =
          c.clients := by
        rw [List.map_map, ResponseCache.clients]
        refine List.map_congr_left fun p _ => ?_
        show (if p.1 = client then (client, b) else p).1 = p.1
        split
        · rename_i hp
          exact hp.symm
        · rfl
      show ((c.buckets.map fun p => if p.1 = client then (client, b) else p).map (·.1)).Nodup
      rw [hmap]
      exact h.clients
    · intro p hp
      obtain ⟨q, hq, he⟩ := List.mem_map.1 hp
      rw [← he]
      split
      · exact hb
      · exact h.numbers q hq
  · rename_i hnew
    refine ⟨?_, ?_⟩
    · show ((c.buckets ++ [(client, b)]).map (·.1)).Nodup
      rw [List.map_append, List.nodup_append]
      refine ⟨h.clients, by simp, ?_⟩
      intro k hk k' hk' he
      obtain ⟨p, hp, hpk⟩ := List.mem_map.1 hk
      have hk'' : k' = client := by simpa using hk'
      exact hnew (List.any_eq_true.2 ⟨p, hp, by simp [hpk, he, hk'']⟩)
    · intro p hp
      rcases List.mem_append.1 hp with hp | hp
      · exact h.numbers p hp
      · rw [List.mem_singleton.1 hp]
        exact hb

/-! ## Records -/

/-- A record adds one answer, unless there is one, and changes no other. -/
theorem lookup_record (c : ResponseCache) (now : Nat) (client : ClientId) (seq : SeqNo)
    (response : Bytes) (client' : ClientId) (seq' : SeqNo) :
    (c.record now client seq response).2.lookup client' seq' =
      if client = client' ∧ seq = seq' then some ((c.lookup client seq).getD ⟨response, now⟩)
      else c.lookup client' seq' := by
  rw [record]
  cases hl : c.lookup client seq with
  | some kept =>
      show c.lookup client' seq' = _
      by_cases hk : client = client' ∧ seq = seq'
      · obtain ⟨rfl, rfl⟩ := hk
        simpa using hl
      · rw [if_neg hk]
  | none      =>
      show ((c.setBucket client _).bucket client').lookup seq' = _
      rw [bucket_setBucket]
      by_cases hc : client = client'
      · subst hc
        rw [if_pos rfl, List.lookup_append, List.lookup_cons]
        by_cases hs : seq = seq'
        · subst hs
          have hl' : (c.bucket client).lookup seq = none := hl
          simp [hl']
        · have hs' : (seq' == seq) = false := by simpa using fun h => hs h.symm
          simp [hs, hs', lookup]
      · simp [hc, lookup]

@[simp] theorem retention_record (c : ResponseCache) (now : Nat) (client : ClientId) (seq : SeqNo)
    (response : Bytes) : (c.record now client seq response).2.retention = c.retention := by
  rw [record]
  split
  · rfl
  · exact retention_setBucket ..

/-- A record keeps a cache in order. -/
theorem Distinct.record {c : ResponseCache} (h : c.Distinct) (now : Nat) (client : ClientId)
    (seq : SeqNo) (response : Bytes) : (c.record now client seq response).2.Distinct := by
  rw [ResponseCache.record]
  split
  · exact h
  · rename_i hl
    refine h.setBucket client ?_
    rw [List.map_append, List.nodup_append]
    refine ⟨h.bucket client, by simp, ?_⟩
    intro s hs s' hs' he
    obtain ⟨p, hp, hps⟩ := List.mem_map.1 hs
    have hs'' : s' = seq := by simpa using hs'
    have hnone : (c.bucket client).lookup seq = none := hl
    rw [List.lookup_eq_none_iff] at hnone
    have hne := hnone p hp
    rw [bne_iff_ne] at hne
    exact hne (by rw [hps, he, hs''])

/-! ## Sweeps -/

/-- Retaining what is fresh filters one bucket. -/
theorem bucket_retainFresh (c : ResponseCache) (now : Nat) (client client' : ClientId) :
    (c.retainFresh now client).2.bucket client' =
      if client = client' then (c.bucket client').filter fun p => c.isFresh now p.2
      else c.bucket client' := by
  rw [retainFresh]
  cases hb : c.buckets.lookup client with
  | none   =>
      by_cases hc : client = client'
      · subst hc
        have hempty : c.bucket client = [] := by rw [bucket, hb]; rfl
        simp [hempty]
      · simp [hc]
  | some b =>
      show (c.setBucket client _).bucket client' = _
      rw [bucket_setBucket]
      by_cases hc : client = client'
      · subst hc
        have hbucket : c.bucket client = b := by rw [bucket, hb]; rfl
        rw [if_pos rfl, if_pos rfl, hbucket]
      · rw [if_neg hc, if_neg hc]

/-- Retaining what is fresh filters the look-ups of one client. -/
theorem lookup_retainFresh {c : ResponseCache} (h : c.Distinct) (now : Nat)
    (client client' : ClientId) (seq : SeqNo) :
    (c.retainFresh now client).2.lookup client' seq =
      if client = client' then (c.lookup client' seq).filter fun k => c.isFresh now k
      else c.lookup client' seq := by
  rw [lookup, bucket_retainFresh]
  split
  · rw [lookup_filter _ _ (h.bucket client')]
    rfl
  · rfl

@[simp] theorem retention_retainFresh (c : ResponseCache) (now : Nat) (client : ClientId) :
    (c.retainFresh now client).2.retention = c.retention := by
  rw [retainFresh]
  split
  · rfl
  · exact retention_setBucket ..

/-- Retaining what is fresh keeps a cache in order. -/
theorem Distinct.retainFresh {c : ResponseCache} (h : c.Distinct) (now : Nat) (client : ClientId) :
    (c.retainFresh now client).2.Distinct := by
  rw [ResponseCache.retainFresh]
  cases hb : c.buckets.lookup client with
  | none   => exact h
  | some b =>
      refine h.setBucket client ?_
      have hbucket : c.bucket client = b := by rw [ResponseCache.bucket, hb]; rfl
      have hsub : (b.filter fun p => c.isFresh now p.2).Sublist b := List.filter_sublist
      exact (hbucket ▸ h.bucket client).sublist (hsub.map _)

/-- Dropping an empty bucket changes no bucket. -/
theorem bucket_dropIfEmpty {c : ResponseCache} (h : c.Distinct) (client client' : ClientId) :
    (c.dropIfEmpty client).bucket client' = c.bucket client' := by
  show ((c.buckets.filter fun p => !(p.1 = client && p.2.isEmpty)).lookup client').getD [] =
    (c.buckets.lookup client').getD []
  rw [lookup_filter _ _ h.clients]
  cases hb : c.buckets.lookup client' with
  | none   => rfl
  | some b =>
      cases b with
      | nil      => by_cases hc : client' = client <;> simp [Option.filter, hc]
      | cons _ _ => simp [Option.filter]

@[simp] theorem retention_dropIfEmpty (c : ResponseCache) (client : ClientId) :
    (c.dropIfEmpty client).retention = c.retention := rfl

/-- Dropping an empty bucket keeps a cache in order. -/
theorem Distinct.dropIfEmpty {c : ResponseCache} (h : c.Distinct) (client : ClientId) :
    (c.dropIfEmpty client).Distinct := by
  refine ⟨?_, ?_⟩
  · exact h.clients.sublist (List.filter_sublist.map _)
  · intro p hp
    exact h.numbers p (List.mem_filter.1 hp).1

/-- A sweep keeps the retention and keeps a cache in order. -/
theorem Distinct.sweep {c : ResponseCache} (h : c.Distinct) (now : Nat) (clients : List ClientId) :
    (c.sweep now clients).2.Distinct ∧ (c.sweep now clients).2.retention = c.retention := by
  induction clients generalizing c with
  | nil            => exact ⟨h, rfl⟩
  | cons client r ih =>
      obtain ⟨hd, hr⟩ := ih ((h.retainFresh now client).dropIfEmpty client)
      refine ⟨hd, hr.trans ?_⟩
      rw [retention_dropIfEmpty, retention_retainFresh]

/-- A sweep of some clients filters their buckets and no other. -/
theorem bucket_sweep {c : ResponseCache} (h : c.Distinct) (now : Nat) (clients : List ClientId)
    (client' : ClientId) :
    (c.sweep now clients).2.bucket client' =
      if client' ∈ clients then (c.bucket client').filter fun p => c.isFresh now p.2
      else c.bucket client' := by
  induction clients generalizing c with
  | nil            => simp [sweep]
  | cons client r ih =>
      have hd := h.retainFresh now client
      have hfresh : ∀ kept, ((c.retainFresh now client).2.dropIfEmpty client).isFresh now kept =
          c.isFresh now kept := by
        intro kept
        rw [isFresh, isFresh, retention_dropIfEmpty, retention_retainFresh]
      show (((c.retainFresh now client).2.dropIfEmpty client).sweep now r).2.bucket client' = _
      rw [ih (hd.dropIfEmpty client), bucket_dropIfEmpty hd, bucket_retainFresh]
      simp only [hfresh]
      by_cases hc : client = client'
      · subst hc
        simp [List.filter_filter]
      · have hc' : ¬ client' = client := fun e => hc e.symm
        simp [hc, hc']

@[simp] theorem retention_evict {c : ResponseCache} (h : c.Distinct) (now : Nat) :
    (c.evict now).2.retention = c.retention := (h.sweep now c.clients).2

/-- A sweep keeps a cache in order. -/
theorem Distinct.evict {c : ResponseCache} (h : c.Distinct) (now : Nat) :
    (c.evict now).2.Distinct := (h.sweep now c.clients).1

/-- **What a sweep does**: it takes away exactly the answers that are not fresh. -/
theorem lookup_evict {c : ResponseCache} (h : c.Distinct) (now : Nat) (client : ClientId)
    (seq : SeqNo) :
    (c.evict now).2.lookup client seq = (c.lookup client seq).filter fun k => c.isFresh now k := by
  have hbucket : (c.evict now).2.bucket client =
      (c.bucket client).filter fun p => c.isFresh now p.2 := by
    rw [evict, bucket_sweep h]
    split
    · rfl
    · rename_i hmem
      -- a client without a bucket has nothing to sweep
      have hnone : c.buckets.lookup client = none := by
        rw [List.lookup_eq_none_iff]
        intro p hp
        rw [bne_iff_ne]
        intro he
        exact hmem (List.mem_map.2 ⟨p, hp, he.symm⟩)
      have hempty : c.bucket client = [] := by rw [bucket, hnone]; rfl
      simp [hempty]
  rw [lookup, hbucket, lookup_filter _ _ (h.bucket client)]
  rfl

/-- An answer is kept by every sweep whose moment is less than the retention after its own. -/
theorem isFresh_of_lt {c : ResponseCache} {now : Nat} {kept : CachedResponse}
    (hpos : 0 < c.retention) (h : now < kept.createdAt + c.retention) :
    c.isFresh now kept = true := by
  rw [isFresh, decide_eq_true_eq]
  omega

/-- An answer is dropped by every sweep whose moment is the retention after its own, or later. -/
theorem isFresh_of_le {c : ResponseCache} {now : Nat} {kept : CachedResponse}
    (hpos : 0 < c.retention) (h : kept.createdAt + c.retention ≤ now) :
    c.isFresh now kept = false := by
  rw [isFresh, decide_eq_false_iff_not]
  omega

/-! ## How many answers are kept -/

/-- Where a key is absent, replacing what it has does nothing. -/
private theorem map_replace_of_absent {k : ClientId} (b : Bucket) {l : List (ClientId × Bucket)}
    (h : k ∉ l.map (·.1)) : (l.map fun p => if p.1 = k then (k, b) else p) = l := by
  have hsame : (l.map fun p => if p.1 = k then (k, b) else p) = l.map id := by
    refine List.map_congr_left fun p hp => ?_
    rw [if_neg fun he => h (List.mem_map.2 ⟨p, hp, he⟩)]
    rfl
  rw [hsame, List.map_id]

/-- A bucket that is replaced is no longer counted, and the new one is. -/
private theorem size_map_replace {k : ClientId} (b : Bucket) {l : List (ClientId × Bucket)}
    (hd : (l.map (·.1)).Nodup) (hk : k ∈ l.map (·.1)) :
    ((l.map fun p => if p.1 = k then (k, b) else p).flatMap (·.2)).length +
        ((l.lookup k).getD []).length =
      (l.flatMap (·.2)).length + b.length := by
  induction l with
  | nil => exact absurd hk List.not_mem_nil
  | cons p r ih =>
      obtain ⟨key, b'⟩ := p
      rw [List.map_cons, List.nodup_cons] at hd
      by_cases he : key = k
      · subst he
        have hrest := map_replace_of_absent b hd.1
        simp [hrest]
        omega
      · have hk' : (k == key) = false := by simpa using fun h => he h.symm
        have hmem : k ∈ r.map (·.1) := by
          rcases List.mem_cons.1 hk with h | h
          · exact absurd h.symm he
          · exact h
        have hr := ih hd.2 hmem
        simp [he, hk', List.lookup_cons] at hr ⊢
        omega

/-- A client is known if it has a bucket. -/
theorem mem_clients_iff {c : ResponseCache} {client : ClientId} :
    client ∈ c.clients ↔ c.buckets.any (fun p => p.1 = client) = true := by
  simp [clients]

/-- The bucket of a client that is not known is empty. -/
theorem bucket_of_unknown {c : ResponseCache} {client : ClientId} (h : client ∉ c.clients) :
    c.bucket client = [] := by
  have hnone : c.buckets.lookup client = none := by
    rw [List.lookup_eq_none_iff]
    intro p hp
    rw [bne_iff_ne]
    exact fun he => h (List.mem_map.2 ⟨p, hp, he.symm⟩)
  rw [bucket, hnone]
  rfl

/-- Setting a bucket replaces what was counted for the client. -/
theorem size_setBucket {c : ResponseCache} (h : c.Distinct) (client : ClientId) (b : Bucket) :
    (c.setBucket client b).size + (c.bucket client).length = c.size + b.length := by
  rw [setBucket]
  split
  · rename_i hk
    exact size_map_replace b h.clients (mem_clients_iff.2 hk)
  · rename_i hk
    rw [bucket_of_unknown (mt mem_clients_iff.1 hk)]
    simp [size]

/-- A record counts one more, unless the name has an answer. -/
theorem size_record {c : ResponseCache} (h : c.Distinct) (now : Nat) (client : ClientId)
    (seq : SeqNo) (response : Bytes) :
    (c.record now client seq response).2.size =
      c.size + if c.lookup client seq = none then 1 else 0 := by
  rw [record]
  cases hl : c.lookup client seq with
  | some kept => rfl
  | none      =>
      have hset := size_setBucket h client (c.bucket client ++ [(seq, ⟨response, now⟩)])
      rw [List.length_append, List.length_singleton] at hset
      show (c.setBucket client _).size = _
      rw [if_pos rfl]
      omega

/-- What a sweep drops from a bucket is what is no longer kept. -/
theorem size_retainFresh {c : ResponseCache} (h : c.Distinct) (now : Nat) (client : ClientId) :
    (c.retainFresh now client).2.size + (c.retainFresh now client).1 = c.size := by
  rw [retainFresh]
  cases hb : c.buckets.lookup client with
  | none   => rfl
  | some b =>
      have hbucket : c.bucket client = b := by rw [bucket, hb]; rfl
      have hset := size_setBucket h client (b.filter fun p => c.isFresh now p.2)
      have hle := b.length_filter_le fun p => c.isFresh now p.2
      rw [hbucket] at hset
      show (c.setBucket client _).size + (b.length - _) = _
      omega

/-- An empty bucket counts nothing. -/
theorem size_dropIfEmpty (c : ResponseCache) (client : ClientId) :
    (c.dropIfEmpty client).size = c.size := by
  have hcount : ∀ l : List (ClientId × Bucket),
      ((l.filter fun p => !(p.1 = client && p.2.isEmpty)).flatMap (·.2)).length =
        (l.flatMap (·.2)).length := by
    intro l
    induction l with
    | nil => rfl
    | cons p r ih =>
        rw [List.filter_cons]
        split
        · rw [List.flatMap_cons, List.flatMap_cons, List.length_append, List.length_append, ih]
        · rename_i hp
          have hempty : p.2 = [] := by
            simp only [Bool.not_eq_true', Bool.not_eq_false, Bool.and_eq_true,
              List.isEmpty_iff] at hp
            exact hp.2
          rw [ih, List.flatMap_cons, hempty, List.nil_append]
  exact hcount c.buckets

/-! ## Empty buckets -/

/-- The client has a bucket with nothing in it. -/
def Hollow (c : ResponseCache) (client : ClientId) : Prop := (client, []) ∈ c.buckets

instance (c : ResponseCache) (client : ClientId) : Decidable (c.Hollow client) :=
  inferInstanceAs (Decidable ((client, []) ∈ c.buckets))

theorem mem_buckets_setBucket {c : ResponseCache} {client : ClientId} {b : Bucket}
    {p : ClientId × Bucket} (h : p ∈ (c.setBucket client b).buckets) :
    p = (client, b) ∨ p ∈ c.buckets := by
  rw [setBucket] at h
  split at h
  · obtain ⟨q, hq, he⟩ := List.mem_map.1 h
    split at he
    · exact Or.inl he.symm
    · exact Or.inr (he ▸ hq)
  · rcases List.mem_append.1 h with h | h
    · exact Or.inr h
    · exact Or.inl (List.mem_singleton.1 h)

/-- A record leaves no bucket empty that was not. -/
theorem hollow_of_record {c : ResponseCache} {now : Nat} {client : ClientId} {seq : SeqNo}
    {response : Bytes} {client' : ClientId}
    (h : (c.record now client seq response).2.Hollow client') : c.Hollow client' := by
  rw [record] at h
  split at h
  · exact h
  · rcases mem_buckets_setBucket h with h | h
    · have hb := congrArg Prod.snd h
      exact absurd hb.symm (List.append_ne_nil_of_right_ne_nil _ (List.cons_ne_nil _ _))
    · exact h

/-- To drop what is old empties one bucket at most. -/
theorem hollow_of_retainFresh {c : ResponseCache} {now : Nat} {client client' : ClientId}
    (h : (c.retainFresh now client).2.Hollow client') : client' = client ∨ c.Hollow client' := by
  rw [retainFresh] at h
  split at h
  · exact Or.inr h
  · rcases mem_buckets_setBucket h with h | h
    · exact Or.inl (congrArg Prod.fst h)
    · exact Or.inr h

theorem hollow_of_dropIfEmpty {c : ResponseCache} {client client' : ClientId}
    (h : (c.dropIfEmpty client).Hollow client') : client' ≠ client ∧ c.Hollow client' := by
  obtain ⟨hmem, hkept⟩ := List.mem_filter.1 h
  exact ⟨by simpa using hkept, hmem⟩

end ResponseCache

end WitnessReplication

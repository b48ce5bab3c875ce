import WitnessReplication.Proofs.KeptSessions

/-!
# Command identities — no two commands of a client have the same name

    A client opens sessions one after the other, for itself and for its user, and every session that
    was handed out stays in use as long as somebody likes.  A command without a number gets the
    session's next one, and the session's client id with it.  As no client id is handed out twice,
    the sessions of a client cannot get into each other's way; and a session by itself gives no
    number twice before it has given all of them.

* **`run_holds`** — what is in a seat, after any run.
* **`run_apart`** — two sessions have two client ids.
* **`Client.Identifies`** and **`command_identities`** — the law, for every run of every client.
-/

namespace WitnessReplication

namespace Client

variable {config : SessionConfig} {xs : List Input} {x : Input} {i j : Nat} {s t : Session}

-- ── Every seat, after any run ────────────────────────────────────────────────────────────────────

/-- **What is in a seat**, after any run: what came there is all that has happened to it. -/
theorem run_holds (config : SessionConfig) (xs : List Input) :
    ((new config).run xs).config = config ∧
      ∀ i, Holds config ((new config).granted xs)
        (inputsAt i ((new config).touches xs))
        (namesAt i ((new config).touches xs))
        ((new config).run xs).seats[i]? := by
  induction xs using List.reverseRecOn with
  | nil                      => exact ⟨rfl, fun _ => ⟨rfl, rfl⟩⟩
  | append_singleton xs x ih =>
      obtain ⟨hconfig, hseats⟩ := ih
      have hsound := run_sound (.empty config) xs
      obtain ⟨_, _, hnext⟩ := react_next hsound x
      have hrun : (new config).run (xs ++ [x]) =
          (((new config).run xs).react x).state := run_append ..
      rw [hrun]
      refine ⟨hnext.config.trans hconfig, fun i => ?_⟩
      have hfate := (react_seats hsound.openings x).fate i
      rw [hconfig] at hfate
      rw [granted, log_concat, touches, log_concat]
      exact hfate.holds _ (hseats i)

/-- A session's client id was granted. -/
theorem granted_of_taken (hs : ((new config).run xs).seats[i]? = some (.taken s)) :
    s.identity.client ∈ (new config).granted xs := by
  have hholds := (run_holds config xs).2 i
  rw [hs] at hholds
  obtain ⟨s₀, _, _, hgranted, rfl, _⟩ := hholds
  rw [Session.run_client]
  exact hgranted

/-- A session that is open after one more input was so before, or has its client id from it. -/
theorem taken_concat (hs : ((new config).run (xs ++ [x])).seats[i]? = some (.taken s)) :
    (∃ s', ((new config).run xs).seats[i]? = some (.taken s') ∧
        s.identity.client = s'.identity.client) ∨
      (∃ id sig, x = .tell (.inSeat i id) sig) ∧
        ((new config).run xs).grant? x = some s.identity.client := by
  rw [run_append] at hs
  have hfate := (react_seats (run_sound (.empty config) xs).openings x).fate i
  have hs' : (((new config).run xs).react x).state.seats[i]? = some (.taken s) := hs
  rw [hs'] at hfate
  rcases hfate.taken with hold | ⟨id, sig, who, o, s', rfl, hbefore, hresult, hclient⟩
  · exact .inl hold
  · refine .inr ⟨⟨id, sig, rfl⟩, ?_⟩
    have hholds := (run_holds config xs).2 i
    rw [hbefore] at hholds
    rw [hclient]
    exact (hholds.opens hbefore hresult).2.2

/-- **Two sessions have two client ids**, if none was granted twice. -/
theorem run_apart (hids : ((new config).granted xs).Nodup)
    (hs : ((new config).run xs).seats[i]? = some (.taken s))
    (ht : ((new config).run xs).seats[j]? = some (.taken t))
    (hclient : s.identity.client = t.identity.client) : i = j := by
  induction xs using List.reverseRecOn generalizing s t with
  | nil                      => exact nomatch hs
  | append_singleton xs x ih =>
      rw [granted, log_concat] at hids
      obtain ⟨hbefore, _, hapart⟩ := List.nodup_append'.1 hids
      -- a client id that was granted before is not granted by the last input
      have hnew : ∀ {k : Nat} {u v : Session},
          ((new config).run xs).seats[k]? = some (.taken u) →
          ((new config).run xs).grant? x = some v.identity.client →
          u.identity.client ≠ v.identity.client := by
        intro k u v hu hv heq
        exact hapart (granted_of_taken hu) (by rw [hv, heq]; exact List.mem_singleton.2 rfl)
      rcases taken_concat hs with ⟨s', hs', hsc⟩ | ⟨⟨id, sig, hx⟩, hgs⟩
      · rcases taken_concat ht with ⟨t', ht', htc⟩ | ⟨_, hgt⟩
        · exact ih hbefore hs' ht' (hsc.symm.trans (hclient.trans htc))
        · exact absurd (hsc.symm.trans hclient) (hnew hs' hgt)
      · rcases taken_concat ht with ⟨t', ht', htc⟩ | ⟨⟨id', sig', hx'⟩, _⟩
        · exact absurd (htc.symm.trans hclient.symm) (hnew ht' hgs)
        · obtain ⟨hwho, _⟩ := Input.tell.inj (hx.symm.trans hx')
          exact (Activity.inSeat.inj hwho).1

-- ── Names ────────────────────────────────────────────────────────────────────────────────────────

/-- Where every part of a list has no value twice, and no value is in two parts, the list has none
    twice. -/
theorem nodup_of_parts {α β κ : Type} [DecidableEq κ] {part : α → κ} {f : α → Option β}
    {as : List α}
    (hparts : ∀ k, (as.filterMap fun a => if part a = k then f a else none).Nodup)
    (hapart : ∀ a ∈ as, ∀ b ∈ as, ∀ v, f a = some v → f b = some v → part a = part b) :
    (as.filterMap f).Nodup := by
  induction as with
  | nil          => exact List.nodup_nil
  | cons a as ih =>
      have hrest : (as.filterMap f).Nodup := by
        refine ih (fun k => ?_) fun b hb c hc =>
          hapart b (List.mem_cons_of_mem a hb) c (List.mem_cons_of_mem a hc)
        have hk := hparts k
        rw [List.filterMap_cons] at hk
        split at hk
        · exact hk
        · exact (List.nodup_cons.1 hk).2
      rw [List.filterMap_cons]
      cases hv : f a with
      | none   => exact hrest
      | some v =>
          refine List.nodup_cons.2 ⟨fun hmem => ?_, hrest⟩
          obtain ⟨b, hb, hbv⟩ := List.mem_filterMap.1 hmem
          have hsame := hapart a (List.mem_cons_self ..) b (List.mem_cons_of_mem a hb) v hv hbv
          have hk := hparts (part a)
          rw [List.filterMap_cons, if_pos rfl, hv] at hk
          refine (List.nodup_cons.1 hk).1 (List.mem_filterMap.2 ⟨b, hb, ?_⟩)
          rw [if_pos hsame.symm]
          exact hbv

/-- The names of all commands of a run that have no number. -/
def names (c : Client) (xs : List Input) : List RequestId := (c.touches xs).filterMap Touch.name?

/-- The names at a seat are those that the session there gave, if there is one. -/
theorem namesAt_cases (config : SessionConfig) (xs : List Input) (i : Nat) :
    namesAt i ((new config).touches xs) = [] ∨
      ∃ (s₀ : Session) (ys : List Session.Input),
        ((new config).run xs).seats[i]? = some (.taken (s₀.run ys)) ∧
        namesAt i ((new config).touches xs) = s₀.names ys := by
  have hholds := (run_holds config xs).2 i
  cases hseat : ((new config).run xs).seats[i]? with
  | none      =>
      rw [hseat] at hholds
      exact .inl hholds.2
  | some seat =>
      rw [hseat] at hholds
      cases seat with
      | opening o => exact .inl hholds.2.2
      | failed    => exact .inl hholds.2
      | taken s   =>
          obtain ⟨s₀, _, _, _, rfl, hnames⟩ := hholds
          exact .inr ⟨s₀, _, rfl, hnames⟩

/-- A command without a number came to a session that is open, and is named after its client. -/
theorem taken_of_name {r : RequestId} (hr : r ∈ namesAt i ((new config).touches xs)) :
    ∃ s, ((new config).run xs).seats[i]? = some (.taken s) ∧
      s.identity.client = r.client := by
  rcases namesAt_cases config xs i with hnone | ⟨s₀, ys, hseat, hnames⟩
  · rw [hnone] at hr
    exact nomatch hr
  · rw [hnames] at hr
    exact ⟨_, hseat, by rw [Session.run_client, Session.client_of_names hr]⟩

/-- A session gives no name twice, as long as its numbers suffice. -/
theorem nodup_namesAt (h : (namesAt i ((new config).touches xs)).length ≤ UInt64.size) :
    (namesAt i ((new config).touches xs)).Nodup := by
  rcases namesAt_cases config xs i with hnone | ⟨s₀, ys, _, hnames⟩
  · rw [hnone]
    exact List.nodup_nil
  · rw [hnames] at h ⊢
    exact s₀.nodup_names h

/-- A client's commands have names of their own, and its sessions times of their own. -/
structure Identifies (config : SessionConfig) (xs : List Input) : Prop where
  /-- A session that is open was opened once, and what came to it is all that has happened to it
      since.  The numbers that it gave are consecutive from the first one, modulo `2 ^ 64`. -/
  sessions : ∀ i s, ((new config).run xs).seats[i]? = some (.taken s) →
    ∃ s₀ : Session, s₀.Opened ∧ s = s₀.run (inputsAt i ((new config).touches xs)) ∧
      namesAt i ((new config).touches xs) =
        s₀.names (inputsAt i ((new config).touches xs)) ∧
      namesAt i ((new config).touches xs) =
        (List.range (namesAt i ((new config).touches xs)).length).map fun k =>
          ⟨s.identity.client, ⟨(firstSeq config).val + UInt64.ofNat k⟩⟩
  /-- No two commands have the same name, if no client id is granted twice and no session gives more
      numbers than there are. -/
  apart    : ((new config).granted xs).Nodup →
    (∀ i, (namesAt i ((new config).touches xs)).length ≤ UInt64.size) →
    ((new config).names xs).Nodup
  /-- Only a destruction takes a kept session away. -/
  destroys : ∀ x i, ((new config).run xs).taken? x = some i →
    ((new config).run xs).Destroys x
  /-- As long as none is taken away, one session at most is opened to be kept. -/
  once     : ∀ ys, ((new config).run xs).taken ys = [] →
    (((new config).run xs).created ys).length ≤ 1

/-- **Names are never used again**: for every client and in every run, however its jobs go on. -/
theorem command_identities (config : SessionConfig) (xs : List Input) : Identifies config xs := by
  have hsound := run_sound (.empty config) xs
  constructor
  case sessions =>
    intro i s hs
    have hholds := (run_holds config xs).2 i
    rw [hs] at hholds
    obtain ⟨s₀, hopened, hfirst, _, rfl, hnames⟩ := hholds
    refine ⟨s₀, hopened, rfl, hnames, ?_⟩
    rw [Session.run_client, ← hfirst, hnames]
    refine (s₀.names_eq _).trans ?_
    rw [Identity.takeMany_eq, List.map_map]
    rfl
  case apart    =>
    intro hids hfew
    refine nodup_of_parts (fun i => nodup_namesAt (hfew i)) fun a ha b hb r har hbr => ?_
    have hat : ∀ a ∈ (new config).touches xs, a.name? = some r →
        r ∈ namesAt a.seat ((new config).touches xs) := fun a ha har =>
      List.mem_filterMap.2 ⟨a, ha, by rw [if_pos rfl]; exact har⟩
    obtain ⟨s, hs, hsr⟩ := taken_of_name (hat a ha har)
    obtain ⟨t, ht, htr⟩ := taken_of_name (hat b hb hbr)
    exact run_apart hids hs ht (hsr.trans htr.symm)
  case destroys => exact fun x i hx => destroys_of_taken hsound hx
  case once     =>
    intro ys hnone
    refine Nat.le_trans (created_once hsound hnone) ?_
    split
    · exact Nat.zero_le 1
    · exact Nat.le_refl 1

/-- Three members are reached from a seat, and the first one hands out a client id. -/
def opensAs (seat : Nat) (id : UInt64) : List Input :=
  Session.trioTold.map (fun t => .tell (.inSeat seat t.1) t.2) ++
    [.tell (.inSeat seat 1) (.answered (.ok (.clientId ⟨true, ⟨id⟩, some ⟨"m0"⟩⟩)))]

/-- A command opens a session, which is destroyed.  Its user sends another command through it, in
    vain, and then a third one opens another session. -/
def twoSessions : List Input :=
  [.start (.send { data := [97], keys := [] }) 0, .tell (.job 0) .proceed] ++ opensAs 0 42 ++
    [.start .destroy 0, .tell (.job 1) .proceed,
      .start (.sendAt 0 { data := [98], keys := [], route := .leaderOnly }) 0,
      .tell (.job 2) .proceed,
      .start (.send { data := [99], keys := [] }) 0, .tell (.job 3) .proceed] ++ opensAs 1 43

/-- A client of three members. -/
def ofThree : Client := new ⟨[⟨"m0"⟩, ⟨"m1"⟩, ⟨"m2"⟩], {}⟩

/-- The law at three commands: the one that the closed session refuses has a name as well. -/
theorem three_names :
    (ofThree.granted twoSessions).Nodup ∧ ofThree.taken twoSessions = [0] ∧
      ofThree.created twoSessions = [0, 1] ∧
      ofThree.names twoSessions = [⟨⟨42⟩, ⟨0⟩⟩, ⟨⟨42⟩, ⟨1⟩⟩, ⟨⟨43⟩, ⟨0⟩⟩] ∧
      (ofThree.names twoSessions).Nodup := by
  have hgranted : ofThree.granted twoSessions = [⟨42⟩, ⟨43⟩] := rfl
  have htaken : ofThree.taken twoSessions = [0] := rfl
  have hcreated : ofThree.created twoSessions = [0, 1] := rfl
  have hnames : ofThree.names twoSessions = [⟨⟨42⟩, ⟨0⟩⟩, ⟨⟨42⟩, ⟨1⟩⟩, ⟨⟨43⟩, ⟨0⟩⟩] := rfl
  have htouches : (ofThree.touches twoSessions).length = 4 := rfl
  have hids : (ofThree.granted twoSessions).Nodup := by
    rw [hgranted]
    decide
  have hfew : ∀ i, (namesAt i (ofThree.touches twoSessions)).length ≤ UInt64.size := by
    intro i
    have hle : (namesAt i (ofThree.touches twoSessions)).length ≤ 4 :=
      htouches ▸ List.length_filterMap_le ..
    exact Nat.le_trans hle (by decide)
  exact ⟨hids, htaken, hcreated, hnames, (command_identities _ twoSessions).apart hids hfew⟩

end Client

end WitnessReplication

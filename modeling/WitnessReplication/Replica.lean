import WitnessReplication.Message
import WitnessReplication.Witness
import WitnessReplication.ResponseCache
import WitnessReplication.StateMachine

/-!
# Replica — one member of the cluster

    Who leads is decided elsewhere and handed to the replica.  Given that, it plays leader or
    witness.  The leader executes a command at once, whatever its order.  If the command commutes
    with everything not yet synced it is answered as unsynced; if not, everything is synced first.
    Whatever is synced is collected from the replica's own witness, and its names wait to be told
    to the other members' witnesses.

    Each operation that executes takes the moment at which it runs, for the response cache.

* **`commandReply`** is made of three steps, between which the response cache may be swept:
  **`isRetransmission`**, **`applyOnce`**, **`acknowledge`**.
* **`syncReply`**, **`clientIdReply`**, **`recordReply`** — the other requests a client sends.
* **`lead`** — a change of leadership.
* **`answer`** — any request, by its method.
-/

namespace WitnessReplication

/-- A member of the cluster over a state machine of states `σ`. -/
structure Replica (σ : Type) where
  me         : Address
  leader     : Option Address
  term       : Term
  /-- The client id that is handed out next. -/
  nextClient : ClientId := ⟨1⟩
  machine    : σ
  cache      : ResponseCache
  witness    : Witness
  /-- Commands that were executed and are not synced, in the order they were executed. -/
  unsynced   : List LogEntry := []
  /-- Names of synced commands that the other witnesses have not been told about. -/
  pending    : List RequestId := []

namespace Replica

variable {σ : Type}

/-- A replica that has done nothing yet. -/
def start (me : Address) (leader : Option Address) (term : Term) (machine : σ)
    (retention : Nat) : Replica σ where
  me      := me
  leader  := leader
  term    := term
  machine := machine
  cache   := { retention }
  witness := { term }

/-- Whether the replica leads. -/
def isLeader (r : Replica σ) : Bool := r.leader = some r.me

/-! ## Syncing -/

/-- Makes every unsynced command durable.  The replica's own witness forgets them, and their names
    wait to be told to the others. -/
def syncAll (r : Replica σ) : Replica σ :=
  if r.unsynced = [] then r
  else
    let synced := r.unsynced.map (·.id)
    { r with
      unsynced := []
      witness  := (r.witness.collect synced).2
      pending  := r.pending ++ synced }

/-- Hands out the names that wait to be told to the other witnesses. -/
def takePending (r : Replica σ) : List RequestId × Replica σ :=
  (r.pending, { r with pending := [] })

/-! ## Executing -/

/-- Whether the response cache has an answer for the command already. -/
def isRetransmission (r : Replica σ) (e : LogEntry) : Bool :=
  (r.cache.lookup e.client e.seq).isSome

/-- Executes a command unless its answer is cached, and returns its answer either way.  An entry
    that only holds a place is not executed. -/
def applyOnce [StateMachine σ] (r : Replica σ) (now : Nat) (e : LogEntry) : Bytes × Replica σ :=
  match e.kind with
  | .noop    => ([], r)
  | .command =>
      match r.cache.lookup e.client e.seq with
      | some kept => (kept.response, r)
      | none      =>
          let (machine, out) := StateMachine.execute r.machine e.data
          let (kept, cache) := r.cache.record now e.client e.seq out
          (kept.response, { r with machine, cache })

/-- Decides whether a command that was executed is synced.  A retransmission is if it does not wait
    to be; a new command waits if it commutes with all that wait, and else everything is synced. -/
def acknowledge (r : Replica σ) (e : LogEntry) (retransmission : Bool) : Bool × Replica σ :=
  if e.kind = .noop then (true, r)
  else if retransmission then (!r.unsynced.any fun u => u.id = e.id, r)
  else if r.unsynced.all fun u => u.commutesWith e then
    (false, { r with unsynced := r.unsynced ++ [e] })
  else (true, r.syncAll)

/-! ## Requests -/

/-- Hands out a client id if the replica leads. -/
def clientIdReply (r : Replica σ) : ClientIdReply × Replica σ :=
  if r.isLeader then
    (⟨true, r.nextClient, some r.me⟩, { r with nextClient := ⟨r.nextClient.val + 1⟩ })
  else (⟨false, ⟨0⟩, r.leader⟩, r)

/-- Executes a command if the replica leads. -/
def commandReply [StateMachine σ] (r : Replica σ) (now : Nat) (e : LogEntry) :
    CommandReply × Replica σ :=
  if r.isLeader then
    let retransmission := r.isRetransmission e
    let (data, r₁) := r.applyOnce now e
    let (synced, r₂) := r₁.acknowledge e retransmission
    (⟨true, some r.me, data, synced⟩, r₂)
  else (⟨false, r.leader, [], false⟩, r)

/-- Records a command at the replica's witness, whoever leads. -/
def recordReply (r : Replica σ) (e : LogEntry) (term : Term) : RecordReply × Replica σ :=
  let (outcome, witness) := r.witness.record e term
  (⟨outcome = .accepted, witness.term⟩, { r with witness })

/-- Makes everything durable if the replica leads, after executing the command that is named if it
    was never seen. -/
def syncReply [StateMachine σ] (r : Replica σ) (now : Nat) (e : Option LogEntry) :
    SyncReply × Replica σ :=
  if r.isLeader then
    let (data, r₁) := match e with
      | some e => r.applyOnce now e
      | none   => ([], r)
    (⟨true, some r.me, data⟩, r₁.syncAll)
  else (⟨false, r.leader, []⟩, r)

/-- Freezes the witness and hands over what it holds. -/
def recover (r : Replica σ) : List LogEntry × Replica σ :=
  let (entries, witness) := r.witness.recover
  (entries, { r with witness })

/-- Lets the witness record again. -/
def unfreeze (r : Replica σ) : Replica σ := { r with witness := r.witness.unfreeze }

/-- Lets the witness forget what another leader has synced; returns how much it held. -/
def collect (r : Replica σ) (synced : List RequestId) : Nat × Replica σ :=
  let (removed, witness) := r.witness.collect synced
  (removed, { r with witness })

/-- Takes in who leads now, and under which term.  A leader that is no longer one drops what it has
    not synced: the next leader recovers it from the witnesses. -/
def lead (r : Replica σ) (leader : Option Address) (term : Term) : Replica σ :=
  let r' := { r with leader, term, witness := r.witness.setTerm term }
  if r.isLeader && !r'.isLeader then { r' with unsynced := [] } else r'

/-- Drops cached answers that are old enough; returns how many. -/
def evict (r : Replica σ) (now : Nat) : Nat × Replica σ :=
  let (evicted, cache) := r.cache.evict now
  (evicted, { r with cache })

/-- Answers a request by its method. -/
def answer [StateMachine σ] (r : Replica σ) (now : Nat) : Request → Reply × Replica σ
  | .clientId         => let (a, r') := r.clientIdReply; (.clientId a, r')
  | .command e        => let (a, r') := r.commandReply now e; (.command a, r')
  | .record e t       => let (a, r') := r.recordReply e t; (.record a, r')
  | .sync e           => let (a, r') := r.syncReply now e; (.sync a, r')
  | .recoveryData     => let (es, r') := r.recover; (.recoveryData es, r')
  | .unfreeze         => (.unfreeze, r.unfreeze)
  | .witnessGc synced => let (n, r') := r.collect synced; (.witnessGc (UInt64.ofNat n), r')

end Replica

end WitnessReplication

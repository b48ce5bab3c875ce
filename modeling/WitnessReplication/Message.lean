import WitnessReplication.LogEntry

/-!
# Messages — what members and clients say to each other

    Seven methods, each with one request and one reply.  Every message travels in an envelope
    whose header tells the sender's protocol revision; the rest of the library looks at the body
    only, so that a reply is always sent under the current revision.

* **`Request`**, **`Reply`** — the bodies, one constructor per method.
* **`Reply.accepted`** and **`Reply.hint`** — the two things a sender that looks for the leader
  reads from a reply, whatever its method.
* **`Reply.normalized`** — a reply as its receiver sees it: an empty hint is no hint.
-/

namespace WitnessReplication

/-- The name under which a member is listed.  Two names are the same member only if they are equal
    as texts. -/
structure Address where
  text : String
  deriving DecidableEq, Inhabited

/-- Tells the protocol revision a message was written under. -/
structure Header where
  version : UInt32
  deriving DecidableEq, Inhabited

/-- The newest revision, under which everything is sent. -/
def Header.current : Header := ⟨1⟩

/-- A message with its header. -/
structure Envelope (α : Type) where
  header : Header
  body   : α
  deriving DecidableEq

/-- Puts a message into an envelope of the current revision. -/
def Envelope.seal {α : Type} (body : α) : Envelope α := ⟨.current, body⟩

/-- What a client or a member can ask of a member. -/
inductive Method where
  | clientId
  | command
  | record
  | sync
  | recoveryData
  | unfreeze
  | witnessGc
  deriving DecidableEq, Inhabited

/-- A request, by its method. -/
inductive Request where
  /-- Hand out a client id (leader only). -/
  | clientId
  /-- Execute the entry (leader only). -/
  | command (entry : LogEntry)
  /-- Hold the entry as a witness of the given term. -/
  | record (entry : LogEntry) (term : Term)
  /-- Make everything durable and answer for the entry, if one is named (leader only). -/
  | sync (entry : Option LogEntry)
  /-- Freeze the witness and hand over what it holds. -/
  | recoveryData
  /-- Let the witness record again. -/
  | unfreeze
  /-- Forget the named entries: the leader has synced them. -/
  | witnessGc (synced : List RequestId)
  deriving DecidableEq, Inhabited

/-- The method of a request. -/
def Request.method : Request → Method
  | .clientId     => .clientId
  | .command _    => .command
  | .record _ _   => .record
  | .sync _       => .sync
  | .recoveryData => .recoveryData
  | .unfreeze     => .unfreeze
  | .witnessGc _  => .witnessGc

/-- Answers a request for a client id. -/
structure ClientIdReply where
  success : Bool
  client  : ClientId
  hint    : Option Address
  deriving DecidableEq, Inhabited

/-- Answers a command.  `synced` says that the leader has ordered it durably already. -/
structure CommandReply where
  success : Bool
  hint    : Option Address
  data    : Bytes
  synced  : Bool
  deriving DecidableEq, Inhabited

/-- Answers a record.  The term is the witness's own, so that a client can catch up. -/
structure RecordReply where
  success : Bool
  term    : Term
  deriving DecidableEq, Inhabited

/-- Answers a sync. -/
structure SyncReply where
  success : Bool
  hint    : Option Address
  data    : Bytes
  deriving DecidableEq, Inhabited

/-- A reply, by its method. -/
inductive Reply where
  | clientId (reply : ClientIdReply)
  | command (reply : CommandReply)
  | record (reply : RecordReply)
  | sync (reply : SyncReply)
  | recoveryData (entries : List LogEntry)
  | unfreeze
  | witnessGc (removed : UInt64)
  deriving DecidableEq, Inhabited

namespace Reply

/-- The method of a reply. -/
def method : Reply → Method
  | .clientId _     => .clientId
  | .command _      => .command
  | .record _       => .record
  | .sync _         => .sync
  | .recoveryData _ => .recoveryData
  | .unfreeze       => .unfreeze
  | .witnessGc _    => .witnessGc

/-- Whether the member did what it was asked. -/
def accepted : Reply → Bool
  | .clientId r => r.success
  | .command r  => r.success
  | .record r   => r.success
  | .sync r     => r.success
  | _           => true

/-- The leader that a refusing member names.  It knows none during an election. -/
def hint : Reply → Option Address
  | .clientId r => r.hint
  | .command r  => r.hint
  | .sync r     => r.hint
  | _           => none

/-- The witness's term, on the reply to a record. -/
def term? : Reply → Option Term
  | .record r => some r.term
  | _         => none

/-- The client id handed out, or none if the reply answers something else. -/
def client : Reply → ClientId
  | .clientId r => r.client
  | _           => ⟨0⟩

/-- The response to a command or a sync. -/
def data : Reply → Bytes
  | .command r => r.data
  | .sync r    => r.data
  | _          => []

/-- Whether the leader has ordered the command durably. -/
def synced : Reply → Bool
  | .command r => r.synced
  | _          => false

/-- The reply with its hint passed through `f`. -/
def mapHint (f : Option Address → Option Address) : Reply → Reply
  | .clientId r => .clientId { r with hint := f r.hint }
  | .command r  => .command { r with hint := f r.hint }
  | .sync r     => .sync { r with hint := f r.hint }
  | r           => r

end Reply

/-- A hint that names nobody is no hint. -/
def Address.normalizeHint : Option Address → Option Address
  | some a => if a.text = "" then none else some a
  | none   => none

/-- The reply as its receiver reads it off the wire. -/
def Reply.normalized (r : Reply) : Reply := r.mapHint Address.normalizeHint

end WitnessReplication

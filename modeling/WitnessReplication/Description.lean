import WitnessReplication.Message
import WitnessReplication.Kv.Command
import WitnessReplication.Text.Quoted

/-!
# Descriptions — messages and commands as they are shown in a log

    Numbers and addresses are shown bare.  Everything else is shown by its name and its fields, in
    the order in which they are declared.

* **`LogEntry.describe`**, **`RequestId.describe`**, **`Kv.Command.describe`** — the pieces.
* **`Request.describe`**, **`Reply.describe`** — a message with its header.
-/

namespace WitnessReplication

open Text

/-- A word as it is shown. -/
def describeWord (n : UInt64) : String := toString n.toNat

/-- A flag as it is shown. -/
def describeFlag (b : Bool) : String := if b then "true" else "false"

/-- A tag as it is shown. -/
def Key.describe (k : Key) : String := wrapped "CommutativityKey" (quoteOctets k.bytes)

/-- The name of a command as it is shown. -/
def RequestId.describe (id : RequestId) : String :=
  record "RequestId"
    [("client_id", describeWord id.client.val), ("seq_no", describeWord id.seq.val)]

/-- The kind of an entry as it is shown. -/
def EntryKind.describe : EntryKind → String
  | .command => "Command"
  | .noop    => "Noop"

/-- A log entry as it is shown. -/
def LogEntry.describe (e : LogEntry) : String :=
  record "LogEntry"
    [ ("log_type", e.kind.describe)
    , ("data", quoteOctets e.data)
    , ("keys", list (e.keys.map Key.describe))
    , ("client_id", describeWord e.client.val)
    , ("seq_no", describeWord e.seq.val) ]

/-- A command for the key-value store as it is shown. -/
def Kv.Command.describe : Kv.Command → String
  | .get key       => record "Get" [("key", quote key)]
  | .set key value => record "Set" [("key", quote key), ("value", quote value)]
  | .inc           => "Inc"

/-- A hint as it is shown. -/
def describeHint (hint : Option Address) : String := optional (hint.map (·.text))

/-- The field of a header. -/
def Header.shown (h : Header) : String × String :=
  ("header", record "RpcHeader" [("protocol_version", toString h.version.toNat)])

/-- A method's part in the names of its messages. -/
def Method.messageName : Method → String
  | .clientId     => "ClientId"
  | .command      => "Client"
  | .record       => "Record"
  | .sync         => "Sync"
  | .recoveryData => "RecoveryData"
  | .unfreeze     => "Unfreeze"
  | .witnessGc    => "WitnessGc"

/-- The fields of a request. -/
def Request.shown : Request → List (String × String)
  | .clientId         => []
  | .command entry    => [("entry", entry.describe)]
  | .record entry t   => [("entry", entry.describe), ("term", describeWord t.val)]
  | .sync entry       => [("entry", optional (entry.map LogEntry.describe))]
  | .recoveryData     => []
  | .unfreeze         => []
  | .witnessGc synced => [("synced", list (synced.map RequestId.describe))]

/-- A request as it is shown. -/
def Request.describe (m : Envelope Request) : String :=
  Text.record (m.body.method.messageName ++ "Request") (m.header.shown :: m.body.shown)

/-- The fields of a reply. -/
def Reply.shown : Reply → List (String × String)
  | .clientId r       =>
      [ ("success", describeFlag r.success)
      , ("client_id", describeWord r.client.val)
      , ("leader_hint", describeHint r.hint) ]
  | .command r        =>
      [ ("success", describeFlag r.success)
      , ("leader_hint", describeHint r.hint)
      , ("response_data", quoteOctets r.data)
      , ("synced", describeFlag r.synced) ]
  | .record r         => [("success", describeFlag r.success), ("term", describeWord r.term.val)]
  | .sync r           =>
      [ ("success", describeFlag r.success)
      , ("leader_hint", describeHint r.hint)
      , ("response_data", quoteOctets r.data) ]
  | .recoveryData es  => [("entries", list (es.map LogEntry.describe))]
  | .unfreeze         => []
  | .witnessGc n      => [("removed", describeWord n)]

/-- A reply as it is shown. -/
def Reply.describe (m : Envelope Reply) : String :=
  Text.record (m.body.method.messageName ++ "Response") (m.header.shown :: m.body.shown)

end WitnessReplication

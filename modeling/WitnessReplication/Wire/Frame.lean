import WitnessReplication.Wire.Entry

/-!
# Frames — requests and replies on the wire

    Every message has its header as field 1 and its own fields after it.  A frame is a message as
    it is written: the header may be missing (peers of an older revision send none), entries are
    raw, hints are texts that may be empty.  A frame is read within the shape of one method, which
    the caller knows beforehand.

* **`Frame.encode`**, **`Frame.decode?`** — a frame as octets, and back.
* **`Request.toFrame`**, **`Request.ofFrame`** — a request as it is written, and back; the way back
  can find it malformed.
* **`Reply.toFrame`**, **`Reply.ofFrame`** — the same for replies.
-/

namespace WitnessReplication.Wire

/-- A message as it is written: its header, if it has one, and its own fields. -/
structure Frame (α : Type) where
  header : Option Header
  body   : α
  deriving DecidableEq

/-- A request as it is written. -/
inductive RawRequest where
  | clientId
  | command (entry : Option RawEntry)
  | record (entry : Option RawEntry) (term : UInt64)
  | sync (entry : Option RawEntry)
  | recoveryData
  | unfreeze
  | witnessGc (synced : List RequestId)
  deriving DecidableEq, Inhabited

/-- A reply as it is written. -/
inductive RawReply where
  | clientId (success : Bool) (client : UInt64) (hint : String)
  | command (success : Bool) (hint : String) (data : Bytes) (synced : Bool)
  | record (success : Bool) (term : UInt64)
  | sync (success : Bool) (hint : String) (data : Bytes)
  | recoveryData (entries : List RawEntry)
  | unfreeze
  | witnessGc (removed : UInt64)
  deriving DecidableEq, Inhabited

/-! ## Frames as octets -/

namespace Frame

/-- A frame as octets, given the fields of its body. -/
def encode {α : Type} (fields : α → List Field) (m : Frame α) : Bytes :=
  let header := match m.header with
    | some h => Field.part 1 (headerFields h)
    | none   => []
  encodeFields (header ++ fields m.body)

/-- Takes a field into a frame, given how its body takes in its own. -/
def merge {α : Type} (mergeBody : Merge α) : Merge (Frame α) := fun budget m f =>
  match f.number with
  | 1 => (f.payload.part? mergeHeader budget (m.header.getD ⟨0⟩)).map
           fun h => { m with header := some h }
  | _ => (mergeBody budget m.body f).map fun b => { m with body := b }

/-- The frame that octets spell, read into a body that nothing was read into yet. -/
def decode? {α : Type} (mergeBody : Merge α) (blank : α) (bs : Bytes) : Option (Frame α) :=
  readMessage? (merge mergeBody) nestingLimit ⟨none, blank⟩ bs

end Frame

/-! ## Requests -/

namespace RawRequest

/-- The request of a method before any field is read. -/
def blank : Method → RawRequest
  | .clientId     => .clientId
  | .command      => .command none
  | .record       => .record none 0
  | .sync         => .sync none
  | .recoveryData => .recoveryData
  | .unfreeze     => .unfreeze
  | .witnessGc    => .witnessGc []

/-- The field of an entry, if there is one. -/
def entryFields : Option RawEntry → List Field
  | some e => Field.part 2 e.fields
  | none   => []

/-- The fields of a request, its header apart. -/
def fields : RawRequest → List Field
  | .clientId         => []
  | .command entry    => entryFields entry
  | .record entry t   => entryFields entry ++ Field.word 3 t
  | .sync entry       => entryFields entry
  | .recoveryData     => []
  | .unfreeze         => []
  | .witnessGc synced => synced.flatMap fun id => Field.part 2 (requestIdFields id)

/-- Reads an entry into what it is so far. -/
def mergeEntry (budget : Nat) (entry : Option RawEntry) (f : Field) : Option RawEntry :=
  f.payload.part? RawEntry.merge budget (entry.getD .blank)

/-- Takes a field into a request. -/
def merge : Merge RawRequest := fun budget r f =>
  match r, f.number with
  | .command entry, 2    => (mergeEntry budget entry f).map fun e => .command (some e)
  | .record entry t, 2   => (mergeEntry budget entry f).map fun e => .record (some e) t
  | .record entry _, 3   => f.payload.word?.map fun t => .record entry t
  | .sync entry, 2       => (mergeEntry budget entry f).map fun e => .sync (some e)
  | .witnessGc synced, 2 => (f.payload.part? mergeRequestId budget ⟨⟨0⟩, ⟨0⟩⟩).map
                              fun id => .witnessGc (synced ++ [id])
  | r, _                 => passOver budget r

end RawRequest

/-- A request in its envelope, as it is written. -/
def toRequestFrame (m : Envelope Request) : Frame RawRequest :=
  ⟨some m.header, match m.body with
    | .clientId         => .clientId
    | .command entry    => .command (some (.ofEntry entry))
    | .record entry t   => .record (some (.ofEntry entry)) t.val
    | .sync entry       => .sync (entry.map .ofEntry)
    | .recoveryData     => .recoveryData
    | .unfreeze         => .unfreeze
    | .witnessGc synced => .witnessGc synced⟩

/-- The request that a raw request stands for. -/
def RawRequest.request : RawRequest → Except Malformation Request
  | .clientId         => .ok .clientId
  | .command entry    => (RawEntry.required "ClientRequest" entry).map .command
  | .record entry t   => (RawEntry.required "RecordRequest" entry).map (.record · ⟨t⟩)
  | .sync entry       => (RawEntry.optional entry).map .sync
  | .recoveryData     => .ok .recoveryData
  | .unfreeze         => .ok .unfreeze
  | .witnessGc synced => .ok (.witnessGc synced)

/-! ## Replies -/

/-- A hint as a text: empty when nobody is named. -/
def hintText : Option Address → String
  | some a => a.text
  | none   => ""

/-- The hint that a text stands for. -/
def hintOf (s : String) : Option Address := if s = "" then none else some ⟨s⟩

namespace RawReply

/-- The reply of a method before any field is read. -/
def blank : Method → RawReply
  | .clientId     => .clientId false 0 ""
  | .command      => .command false "" [] false
  | .record       => .record false 0
  | .sync         => .sync false "" []
  | .recoveryData => .recoveryData []
  | .unfreeze     => .unfreeze
  | .witnessGc    => .witnessGc 0

/-- The fields of a reply, its header apart. -/
def fields : RawReply → List Field
  | .clientId ok client hint     => Field.flag 2 ok ++ Field.word 3 client ++ Field.text 4 hint
  | .command ok hint data synced =>
      Field.flag 2 ok ++ Field.text 3 hint ++ Field.octets 4 data ++ Field.flag 5 synced
  | .record ok t                 => Field.flag 2 ok ++ Field.word 3 t
  | .sync ok hint data           => Field.flag 2 ok ++ Field.text 3 hint ++ Field.octets 4 data
  | .recoveryData entries        => entries.flatMap fun e => Field.part 2 e.fields
  | .unfreeze                    => []
  | .witnessGc removed           => Field.word 2 removed

/-- Takes a field into a reply. -/
def merge : Merge RawReply := fun budget r f =>
  match r, f.number with
  | .clientId _ c h, 2   => f.payload.flag?.map fun ok => .clientId ok c h
  | .clientId ok _ h, 3  => f.payload.word?.map fun c => .clientId ok c h
  | .clientId ok c _, 4  => f.payload.text?.map fun h => .clientId ok c h
  | .command _ h d s, 2  => f.payload.flag?.map fun ok => .command ok h d s
  | .command ok _ d s, 3 => f.payload.text?.map fun h => .command ok h d s
  | .command ok h _ s, 4 => f.payload.octets?.map fun d => .command ok h d s
  | .command ok h d _, 5 => f.payload.flag?.map fun s => .command ok h d s
  | .record _ t, 2       => f.payload.flag?.map fun ok => .record ok t
  | .record ok _, 3      => f.payload.word?.map fun t => .record ok t
  | .sync _ h d, 2       => f.payload.flag?.map fun ok => .sync ok h d
  | .sync ok _ d, 3      => f.payload.text?.map fun h => .sync ok h d
  | .sync ok h _, 4      => f.payload.octets?.map fun d => .sync ok h d
  | .recoveryData es, 2  => (f.payload.part? RawEntry.merge budget .blank).map
                              fun e => .recoveryData (es ++ [e])
  | .witnessGc _, 2      => f.payload.word?.map fun n => .witnessGc n
  | r, _                 => passOver budget r

end RawReply

/-- A reply in its envelope, as it is written. -/
def toReplyFrame (m : Envelope Reply) : Frame RawReply :=
  ⟨some m.header, match m.body with
    | .clientId r       => .clientId r.success r.client.val (hintText r.hint)
    | .command r        => .command r.success (hintText r.hint) r.data r.synced
    | .record r         => .record r.success r.term.val
    | .sync r           => .sync r.success (hintText r.hint) r.data
    | .recoveryData es  => .recoveryData (es.map .ofEntry)
    | .unfreeze         => .unfreeze
    | .witnessGc n      => .witnessGc n⟩

/-- The reply that a raw reply stands for. -/
def RawReply.reply : RawReply → Except Malformation Reply
  | .clientId ok client hint     => .ok (.clientId ⟨ok, ⟨client⟩, hintOf hint⟩)
  | .command ok hint data synced => .ok (.command ⟨ok, hintOf hint, data, synced⟩)
  | .record ok t                 => .ok (.record ⟨ok, ⟨t⟩⟩)
  | .sync ok hint data           => .ok (.sync ⟨ok, hintOf hint, data⟩)
  | .recoveryData entries        => (RawEntry.all entries).map .recoveryData
  | .unfreeze                    => .ok .unfreeze
  | .witnessGc n                 => .ok (.witnessGc n)

/-! ## Whole messages -/

/-- Why octets are not the message they should be. -/
inductive ReadError where
  /-- The octets are no message of this shape. -/
  | undecodable
  /-- They are, but the message makes no sense. -/
  | malformed (cause : Malformation)
  deriving DecidableEq, Inhabited

/-- The header of a frame: peers of an older revision leave it out, which reads as zero. -/
def Frame.headerOrZero {α : Type} (m : Frame α) : Header := m.header.getD ⟨0⟩

/-- Octets into a message: first into a frame, then into what the frame stands for. -/
def interpret {ρ α : Type} (meaning : ρ → Except Malformation α) :
    Option (Frame ρ) → Except ReadError (Envelope α)
  | none   => .error .undecodable
  | some m =>
      match meaning m.body with
      | .ok body     => .ok ⟨m.headerOrZero, body⟩
      | .error cause => .error (.malformed cause)

/-- A request as octets. -/
def encodeRequest (m : Envelope Request) : Bytes :=
  (toRequestFrame m).encode RawRequest.fields

/-- The frame of a request of the given method. -/
def decodeRequestFrame? (method : Method) (bs : Bytes) : Option (Frame RawRequest) :=
  Frame.decode? RawRequest.merge (.blank method) bs

/-- The request of the given method that octets spell. -/
def decodeRequest (method : Method) (bs : Bytes) : Except ReadError (Envelope Request) :=
  interpret RawRequest.request (decodeRequestFrame? method bs)

/-- A reply as octets. -/
def encodeReply (m : Envelope Reply) : Bytes :=
  (toReplyFrame m).encode RawReply.fields

/-- The reply of the given method that octets spell. -/
def decodeReply (method : Method) (bs : Bytes) : Except ReadError (Envelope Reply) :=
  interpret RawReply.reply (Frame.decode? RawReply.merge (.blank method) bs)

/-- A log entry as octets. -/
def encodeEntry (e : LogEntry) : Bytes := encodeFields (RawEntry.ofEntry e).fields

/-- The log entry that octets spell. -/
def decodeEntry (bs : Bytes) : Except ReadError LogEntry :=
  match readMessage? RawEntry.merge nestingLimit .blank bs with
  | none   => .error .undecodable
  | some e => match e.entry with
    | .ok e        => .ok e
    | .error cause => .error (.malformed cause)

/-- The name of a command as octets. -/
def encodeRequestId (id : RequestId) : Bytes := encodeFields (requestIdFields id)

/-- The name of a command that octets spell. -/
def decodeRequestId (bs : Bytes) : Except ReadError RequestId :=
  match readMessage? mergeRequestId nestingLimit ⟨⟨0⟩, ⟨0⟩⟩ bs with
  | none    => .error .undecodable
  | some id => .ok id

end WitnessReplication.Wire

import OeAware.Common.Serialize

/-! @src src/common/message_protocol.h, src/common/event.h, include/oeaware/data_list.h |
    name:Opt, Message, Event, EventResult, DataList

    What travels between a client, the message manager and the plugin manager. An `Opt` is an enum,
    but a message holds the `int` it was decoded from: `static_cast` lets any 32 bits through. -/

namespace OeAware

inductive Opt where
  | LOAD | ENABLED | DISABLED | REMOVE | QUERY | QUERY_ALL | QUERY_SUB_GRAPH | QUERY_ALL_SUB_GRAPH
  | LIST | INFO | DOWNLOAD | SUBSCRIBE | UNSUBSCRIBE | PUBLISH | DATA | RESPONSE_OK
  | RESPONSE_ERROR | SHUTDOWN | RELOAD_CONF
  deriving DecidableEq

/-- `static_cast<int>(opt)`. -/
def Opt.toInt (o : Opt) : UInt32 := UInt32.ofNat o.ctorIdx

inductive MessageType where
  | REQUEST | RESPONSE
  deriving DecidableEq

/-- `static_cast<int>(type)`. -/
def MessageType.toInt (t : MessageType) : UInt32 := UInt32.ofNat t.ctorIdx

/-- `Message`; `opt` is the enumerator's value. -/
structure Message where
  opt : UInt32
  payload : List Str
  deriving DecidableEq

/-- `Message::Serialize`. -/
def Message.serialize (m : Message) : Str := serInt m.opt ++ serVec m.payload

/-- `Message::Deserialize`; `junk` is what the uninitialised local `op` holds. -/
def Message.deserialize (junk : UInt32) (s : InStream) : Option (Message × InStream) := do
  let (op, s) := s.readInt junk
  let (payload, s) ← s.readVec
  pure (⟨op, payload⟩, s)

inductive EventType where
  | INTERNAL | EXTERNAL
  deriving DecidableEq

/-- `Event`, as queued for the plugin manager or the data thread. -/
structure Event where
  opt : UInt32
  type : EventType
  payload : List Str
  deriving DecidableEq

/-- `EventResult`, the plugin manager's answer to an event. -/
structure EventResult where
  opt : UInt32
  payload : List Str
  deriving DecidableEq

/-- `DataList`. An element is what its registered codec writes for it. -/
structure DataList where
  topic : Topic
  data : List Str
  deriving DecidableEq

/-- `DataListSerialize`. -/
def DataList.serialize (d : DataList) : Str :=
  serStr d.topic.instanceName ++ serStr d.topic.topicName ++ serStr d.topic.params ++
    serSize d.data.length ++ d.data.flatten

/-- A message reads back as itself, and exactly its bytes are consumed. -/
theorem deserialize_serialize (m : Message) (junk : UInt32) (rest : Str)
    (hl : m.payload.length < 2 ^ 64) (h : ∀ s ∈ m.payload, s.length ≤ stringMaxSize) :
    Message.deserialize junk ⟨m.serialize ++ rest, true⟩ = some (m, ⟨rest, true⟩) := by
  rw [Message.deserialize, Message.serialize, List.append_assoc, readInt_ser]
  simp only [readVec_ser _ _ hl h]
  rfl

end OeAware

import Mathlib.Algebra.GroupWithZero.Nat
import Miso.Net.Tls

/-!
# MQTT packets (`mqtt.zig`, `MQTTPacket.h`)

The packets that the client hands to Paho for serialisation (`Packet`), what Paho makes of a
received one (`Inbound`), and the messages that wait in the two message queues of the service.

Paho is not part of the repository.  Its serialisers are a parameter of the model
(`Externs.MQTTSerialize`: the length they return); what `MQTTPacket_readnb` and the
deserialisers return is an input (`Inbound`).
-/

namespace Miso.Mqtt

open Zig Net

/-- `mqtt.msgTypes`. -/
inductive msgTypes where
  | err_msg | try_again | connect | connack | publish | puback | pubrec | pubrel | pubcomp
  | subscribe | suback | unsubscribe | unsuback | pingreq | pingresp | disconnect
  deriving DecidableEq, Repr

/-- `mqtt.state`. -/
inductive state where
  | err | not_connected | connecting | connected | disconnecting
  deriving DecidableEq, Repr

/-- `mqtt.QoS`. -/
inductive QoS where
  | qos0 | qos1 | qos2
  deriving DecidableEq, Repr

namespace QoS

/-- `@intFromEnum`. -/
def intFromEnum : QoS → Nat
  | qos0 => 0
  | qos1 => 1
  | qos2 => 2

/-- `QoS.fromInt`. -/
def fromInt (x : Int) : Except Error QoS :=
  if x = 0 then .ok qos0
  else if x = 1 then .ok qos1
  else if x = 2 then .ok qos2
  else .error .qos_not_supported

end QoS

/-- The bytes of a Zig string literal. -/
def ascii (text : String) : List UInt8 := text.toList.map fun c => UInt8.ofNat c.toNat

def keepAliveInterval_s : Nat := 60
def fw_update_topic : List UInt8 := ascii "zig/fw"
def conf_update_topic : List UInt8 := ascii "zig/conf"

/-! ## Outgoing packets -/

/-- `MQTTPacket_connectData_initializer`; a last will is never set. -/
structure connectData where
  MQTTVersion : Nat := 4
  clientID : List UInt8 := []
  keepAliveInterval : Nat := keepAliveInterval_s
  cleansession : Bool := true
  username : Option (List UInt8) := none
  password : Option (List UInt8) := none
  deriving DecidableEq, Repr

/-- A packet, with the arguments of its serialiser. -/
inductive Packet where
  | connect (data : connectData)
  | publish (dup : Bool) (qos : QoS) (retain : Bool) (packetId : UInt16) (topic payload : List UInt8)
  | puback (packetId : UInt16)
  | pubrec (packetId : UInt16)
  | pubrel (dup : Bool) (packetId : UInt16)
  | pubcomp (packetId : UInt16)
  | subscribe (dup : Bool) (packetId : UInt16) (topics : List (List UInt8 × QoS))
  | pingreq
  | disconnect
  deriving DecidableEq, Repr

/-- What the service takes from code outside the module. -/
structure Externs where
  /-- The length that a serialiser of Paho returns for a buffer of the given size; it is not
      positive if the packet cannot be serialised. -/
  MQTTSerialize : Packet → Nat → Int
  /-- The parsed `config_get_mqtt_url`. -/
  config_get_mqtt_url : Uri
  config_get_mqtt_device_id : List UInt8

def workBuffer_len : Nat := 256
def rxBuffer_len : Nat := 512

/-- `serializeCheck`. -/
def serializeCheck (packetLen : Int) : Except Error Nat :=
  if packetLen ≤ 0 then .error .packetlen
  else if workBuffer_len < packetLen then .error .packetlen
  else .ok packetLen.toNat

/-- The bytes that a packet takes up in `workBuffer`. -/
def Externs.size (X : Externs) (p : Packet) : Nat := (X.MQTTSerialize p workBuffer_len).toNat

/-! ### Lengths in MQTT 3.1.1 -/

namespace Packet

/-- A string is preceded by its length. -/
def field (bytes : List UInt8) : Nat := 2 + bytes.length

/-- The length of what follows the fixed header. -/
def remainingLength : Packet → Nat
  | connect data => 10 + field data.clientID + (data.username.map field).getD 0 +
    (data.password.map field).getD 0
  | publish _ qos _ _ topic payload =>
    field topic + (if qos = .qos0 then 0 else 2) + payload.length
  | puback _ => 2
  | pubrec _ => 2
  | pubrel _ _ => 2
  | pubcomp _ => 2
  | subscribe _ _ topics => 2 + (topics.map fun t => field t.1 + 1).sum
  | pingreq => 0
  | disconnect => 0

/-- The length of the packet; no packet of the service takes three bytes for its remaining length. -/
def wireLength (p : Packet) : Nat :=
  1 + (if p.remainingLength < 128 then 1 else 2) + p.remainingLength

end Packet

def MQTTPACKET_BUFFER_TOO_SHORT : Int := -2

/-- The serialisers as they are documented, and a configuration. -/
def Externs.documented : Externs where
  MQTTSerialize p buflen :=
    if p.wireLength ≤ buflen then p.wireLength else MQTTPACKET_BUFFER_TOO_SHORT
  config_get_mqtt_url := ⟨"mqtts", some "MQTT_BROKER_HOST", some 8883⟩
  config_get_mqtt_device_id := ascii "miso"

/-! ## Received packets -/

/-- What `MQTTDeserialize_publish` yields. -/
structure PublishFields where
  dup : Bool
  qos : Int
  retained : Bool
  packetId : UInt16
  topic : List UInt8
  payload : List UInt8
  deriving DecidableEq, Repr

/-- What `MQTTDeserialize_ack` yields. -/
structure AckFields where
  packetType : msgTypes
  dup : Bool
  packetId : UInt16
  deriving DecidableEq, Repr

/-- The outcome of `packet.read`, with the content of `rxBuffer` as its deserialiser sees it;
    `none` if the deserialiser fails. -/
inductive Inbound where
  | err_msg
  | try_again
  | connack (connack_rc : Option UInt8)
  | publish (fields : Option PublishFields)
  | puback (fields : Option AckFields)
  | pubrec (fields : Option AckFields)
  | pubrel (fields : Option AckFields)
  | pubcomp (fields : Option AckFields)
  /-- The packet identifier, and the codes written to `grantedQoSs`. -/
  | suback (fields : Option (UInt16 × List UInt8))
  | unsuback
  | pingresp
  /-- A packet that only a client sends. -/
  | client
  /-- A type that `msgTypes` does not have. -/
  | reserved
  deriving DecidableEq, Repr

/-- `packet.publish_response`; an empty topic is an undefined slice. -/
structure publish_response where
  packetId : UInt16
  qos : QoS
  dup : Bool
  retained : Bool
  topic : Option (List UInt8)
  payload : List UInt8
  deriving DecidableEq, Repr

/-- `getMQTTString` of a length-delimited string. -/
def getMQTTString (data : List UInt8) : Option (List UInt8) := if data = [] then none else some data

/-- `deserializePublish`. -/
def deserializePublish : Option PublishFields → Except Error publish_response
  | none => .error .parse_failed
  | some f => do
    let retQos ← QoS.fromInt f.qos
    pure { packetId := f.packetId, qos := retQos, dup := f.dup, retained := f.retained,
           topic := getMQTTString f.topic, payload := f.payload }

/-- The shape of the deserialisers of acknowledgements. -/
def deserializeAck (packetType : msgTypes) : Option AckFields → Except Error UInt16
  | none => .error .parse_failed
  | some f => if f.packetType ≠ packetType then .error .parse_failed else .ok f.packetId

def deserializePuback : Option AckFields → Except Error UInt16 := deserializeAck .puback
def deserializePubrel : Option AckFields → Except Error UInt16 := deserializeAck .pubrel
def deserializePubrec : Option AckFields → Except Error UInt16 := deserializeAck .pubrec
def deserializePubcomp : Option AckFields → Except Error UInt16 := deserializeAck .pubcomp

/-- `processConnAck`. -/
def processConnAck : Option UInt8 → Except Error Unit
  | none => .error .parse_failed
  | some connack_rc => if connack_rc ≠ 0 then .error .connack_failed else .ok ()

/-! ## Formatted texts -/

/-- `{d}`. -/
def decimal (n : Nat) : List UInt8 := (Nat.toDigits 10 n).map fun c => UInt8.ofNat c.toNat

/-- The text about a message, behind its first words. -/
def messageText (words : List UInt8) (packetId : UInt16) (qos : QoS) (topic payload : List UInt8) :
    List UInt8 :=
  words ++ decimal packetId.toNat ++ ascii ", " ++ decimal qos.intFromEnum ++ ascii " " ++ topic ++
    ascii " " ++ payload ++ ascii "\r\n"

def publishWords : List UInt8 := ascii "publish recieved: "
def pubrelWords : List UInt8 := ascii "Pubrel recieved: "

/-- The length of the buffer the text is formatted into. -/
def printBuffer_len : Nat := 64

/-- `std.fmt.bufPrint` of the text. -/
def bufPrint (text : List UInt8) : Except Error (List UInt8) :=
  if text.length ≤ printBuffer_len then .ok text else .error .NoSpaceLeft

/-! ## Queued messages -/

/-- A slice returned by the allocator; an empty one takes no memory. -/
structure Buffer where
  block : Option Nat
  bytes : List UInt8
  deriving DecidableEq, Repr

/-- What a message is: the code leaves topic and payload of a `.pubrel` undefined. -/
inductive Content where
  | publish (topic payload : Buffer)
  | pubrel
  deriving DecidableEq, Repr

/-- `QueuedMessage`; every message is created with a packet identifier. -/
structure QueuedMessage where
  packetId : UInt16
  qos : QoS
  dup : Bool
  retained : Bool
  content : Content
  deadline : Nat
  deriving DecidableEq, Repr

def Content.packetType : Content → msgTypes
  | publish _ _ => .publish
  | pubrel => .pubrel

def QueuedMessage.packetType (m : QueuedMessage) : msgTypes := m.content.packetType

/-- The two message queues of the service. -/
inductive Queue where
  | qosQueue
  | qos2Queue
  deriving DecidableEq, Repr

/-- `orderedRemove` of the first item that satisfies `f`. -/
def removeFirst {α : Type} (f : α → Bool) : List α → Option (α × List α)
  | [] => none
  | a :: l => if f a then some (a, l) else (removeFirst f l).map fun r => (r.1, a :: r.2)

end Miso.Mqtt

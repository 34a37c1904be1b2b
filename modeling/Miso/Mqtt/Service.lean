import Miso.Mqtt.Packet

/-!
# The MQTT service (`mqtt.zig`)

The state of the service and its functions, in the order of the source.

* `Service` — the fields of the source, the system clock, and two ghosts: the record of what has
  happened to packets and messages (`Event`), and the ledger of the message buffers.
* `State` — the service with the connection under it and the answers of its environment (`Env`).
* `waiting` — a timer callback that has found no room in `txQueue` waits in its send and keeps
  `workBufferMutex`; the MQTT task is then stuck as soon as it takes the mutex.

The MQTT task reads `txQueue` itself, so a send of its own that finds no room never returns: it
is a `halt`, recorded as `Event.blocked`.
-/

namespace Miso.Mqtt

open Zig Net

/-! ## State -/

/-- What happens to packets and messages. -/
inductive Event where
  /-- `connection.open` has succeeded. -/
  | opened
  /-- `connection.close` is called. -/
  | closed
  /-- The packet is in `txQueue`. -/
  | queued (p : Packet)
  /-- The task waits for room for the packet. -/
  | blocked (p : Packet)
  /-- `processSendQueue` has found `txQueue` empty. -/
  | drained
  /-- The packet is handed to `connection.send`. -/
  | sent (p : Packet)
  /-- `packet.read` has returned. -/
  | received (m : Inbound)
  /-- The message is handed over to the application. -/
  | handover (packetId : UInt16) (qos : QoS) (topic payload : List UInt8)
  /-- `system.reset()` is called. -/
  | reset
  /-- The codes that SUBACK grants are used as values of `QoS`. -/
  | granted (codes : List UInt8)
  /-- `pingTimer` expires. -/
  | ping
  /-- The handler of PINGRESP is called. -/
  | pingresp
  deriving DecidableEq, Repr

/-- What runs in the timer task. -/
inductive Job where
  | pingTimer (curr_tick : Nat)
  | pubTimer
  /-- A `publish` by the application. -/
  | publish (topic payload : List UInt8) (qos : QoS)
  deriving DecidableEq, Repr

/-- The fields of the service. -/
structure Service where
  connectionCounter : Nat
  disconnectionCounter : Nat
  pingCounter : Nat
  /-- `pingTimer` and `pubTimer` are running. -/
  pingTimer : Bool
  pubTimer : Bool
  state : state
  packetIdState : UInt16
  txQueue : List Packet
  waiting : Option Job
  qosQueue : List QueuedMessage
  qos2Queue : List QueuedMessage
  /-- The one element of `pingQueue`. -/
  pingQueue : Option Nat
  /-- `system.time.now()`. -/
  now : Nat
  /-- The moves of the allocator for message buffers, oldest first. -/
  heap : List (Move Nat)
  /-- The number of blocks allocated so far. -/
  blocks : Nat
  /-- Oldest event first. -/
  log : List Event

/-- The calls whose outcome the environment decides. -/
inductive Os where
  | xSemaphoreTake
  | xMessageBufferSend
  | allocPayload
  | allocTopic
  | append
  deriving DecidableEq, Repr

/-- The answers to come, by call. -/
structure Env where
  /-- Whether the call succeeds. -/
  ok : Os → Nat → Bool
  /-- What `waitRx` returns; `none` is its error. -/
  waitRx : Nat → Option Bool
  read : Nat → Inbound

structure State where
  srv : Service
  link : Link
  env : Env

abbrev MqttM := Prog State Error

namespace Service

def record (s : Service) (l : List Event) : Service := { s with log := s.log ++ l }

def queue (s : Service) : Queue → List QueuedMessage
  | .qosQueue => s.qosQueue
  | .qos2Queue => s.qos2Queue

def setQueue (s : Service) (q : Queue) (l : List QueuedMessage) : Service :=
  match q with
  | .qosQueue => { s with qosQueue := l }
  | .qos2Queue => { s with qos2Queue := l }

/-- The packet at the end of `txQueue`. -/
def enqueue (s : Service) (p : Packet) : Service :=
  { s with txQueue := s.txQueue ++ [p], log := s.log ++ [.queued p] }

/-- The bytes used in the message buffer: every message takes four more for its length. -/
def used (X : Externs) (s : Service) : Nat := (s.txQueue.map fun p => X.size p + 4).sum

end Service

/-- What a message buffer of 1024 bytes can hold. -/
def txQueue_capacity : Nat := 1024 - 1

namespace Env

/-- The next answer about `a` has been used. -/
def advance (e : Env) (a : Os) : Env :=
  { e with ok := fun b => if b = a then fun n => e.ok a (n + 1) else e.ok b }

def advanceWait (e : Env) : Env := { e with waitRx := fun n => e.waitRx (n + 1) }

def advanceRead (e : Env) : Env := { e with read := fun n => e.read (n + 1) }

end Env

/-- A change of the service alone. -/
def update (f : Service → Service) : MqttM Unit := Prog.modify fun s => { s with srv := f s.srv }

def service : MqttM Service := fun s => (.ok s.srv, s)

def record (l : List Event) : MqttM Unit := update (·.record l)

/-- A call of the connection. -/
def onLink {α : Type} (m : NetM α) : MqttM α :=
  Prog.zoom State.link (fun l s => { s with link := l }) m

def ofExcept {α : Type} : Except Error α → MqttM α
  | .ok a => pure a
  | .error e => Prog.throw e

/-- Whether the next call of `a` succeeds. -/
def ask (a : Os) : MqttM Bool := fun s => (.ok (s.env.ok a 0), { s with env := s.env.advance a })

/-- The path taken by a failed call. -/
def require (a : Os) (e : Error) : MqttM Unit := do
  if ← ask a then pure () else Prog.throw e

def u32_max : Nat := 2 ^ 32 - 1

/-- `system.time.calculateDeadline`: the sum of two `u32`. -/
def calculateDeadline (timeout_s : Nat) : MqttM Nat := do
  let now := (← service).now
  if now ≤ u32_max - timeout_s then pure (now + timeout_s) else Prog.trap

/-! ## The connection -/

/-- The parameters of `connectionType`. -/
def connectionType : TlsContext := ⟨.tls_ip4, .psk⟩

namespace connection

def «open» (fuel : Nat) (uri : Uri) : MqttM Unit := do
  onLink (TlsContext.open fuel connectionType uri)
  record [.opened]

def close : MqttM Unit := do
  record [.closed]
  onLink TlsContext.close

/-- `send` of a serialised packet. -/
def send (X : Externs) (fuel : Nat) (p : Packet) : MqttM Nat := do
  record [.sent p]
  onLink (TlsContext.send_tls fuel (X.size p))

def waitRx (_timeout_s : Nat) : MqttM Bool := fun s =>
  let s' : State := { s with env := s.env.advanceWait }
  match s.env.waitRx 0 with
  | some b => (.ok b, s')
  | none => (.err .QueueSendFailed, s')

end connection

/-! ## `QueuedMessgeQueue` -/

namespace QueuedMessgeQueue

/-- `allocator.alloc` of a copy of `bytes`. -/
def alloc (a : Os) (bytes : List UInt8) : MqttM Buffer :=
  if bytes = [] then pure ⟨none, []⟩
  else do
    require a .OutOfMemory
    let block := (← service).blocks
    update fun s => { s with heap := s.heap ++ [.acquire block], blocks := s.blocks + 1 }
    pure ⟨some block, bytes⟩

/-- The moves that `allocator.free` makes. -/
def freeMoves (b : Buffer) : List (Move Nat) :=
  match b.block with
  | some block => [.release block]
  | none => []

/-- `allocator.free` of the topic and the payload. -/
def free (topic payload : Buffer) : MqttM Unit :=
  update fun s => { s with heap := s.heap ++ freeMoves topic ++ freeMoves payload }

def append (q : Queue) (m : QueuedMessage) : MqttM Unit := do
  require .append .OutOfMemory
  update fun s => s.setQueue q (s.queue q ++ [m])

def addPublish (q : Queue) (packetId : UInt16) (qos : QoS) (dup retained : Bool)
    (topic payload : List UInt8) (deadline : Nat) : MqttM Unit := do
  let new_payload ← alloc .allocPayload payload
  let new_topic ← alloc .allocTopic topic
  append q ⟨packetId, qos, dup, retained, .publish new_topic new_payload, deadline⟩

def addPubRel (q : Queue) (packetId : UInt16) (dup : Bool) (deadline : Nat) : MqttM Unit :=
  append q ⟨packetId, .qos2, dup, false, .pubrel, deadline⟩

/-- The first item of the queue that satisfies `f` is taken out. -/
def take (q : Queue) (f : QueuedMessage → Bool) : MqttM (Option QueuedMessage) := do
  match removeFirst f ((← service).queue q) with
  | some (msg, rest) =>
    update (·.setQueue q rest)
    pure (some msg)
  | none => pure none

def acknowledge (q : Queue) (packetId : UInt16) (packetType : msgTypes) : MqttM Bool := do
  match ← take q fun m => m.packetId = packetId ∧ m.packetType = packetType with
  | some msg =>
    match msg.content with
    | .publish topic payload => free topic payload
    | .pubrel => pure ()
    pure true
  | none => pure false

def prune (q : Queue) : MqttM (Option QueuedMessage) := do
  let now := (← service).now
  take q fun m => m.deadline < now

def findAndRemove (q : Queue) (packetId : UInt16) : MqttM (Option QueuedMessage) :=
  take q fun m => m.packetId = packetId

end QueuedMessgeQueue

open QueuedMessgeQueue

/-! ## `packet` -/

section Packets

variable (X : Externs)

/-- `workBufferMutex.take(null)`; every function that takes the mutex gives it back at its end. -/
def workBufferMutex.take : MqttM Unit := do
  if (← service).waiting.isSome then Prog.halt id
  else require .xSemaphoreTake .SemaphoreTakeTimeout

/-- The three steps of `generatePacketId`. -/
def xorShift (x : UInt16) : UInt16 :=
  let x := x ^^^ x <<< 7
  let x := x ^^^ x >>> 9
  x ^^^ x <<< 8

/-- The state behind `generatePacketId`. -/
def nextPacketId (x : UInt16) : UInt16 := if x ≠ 0 then xorShift x else 1

def generatePacketId : MqttM UInt16 := do
  update fun s => { s with packetIdState := nextPacketId s.packetIdState }
  pure (← service).packetIdState

/-- `sendtoTxQueue` of the packet in `workBuffer`. -/
def sendtoTxQueue (p : Packet) (packetId : Option UInt16) : MqttM UInt16 := do
  if txQueue_capacity < (← service).used X + (X.size p + 4) then
    record [.blocked p]
    Prog.halt id
  else do
    require .xMessageBufferSend .enqueue_failed
    update (·.enqueue p)
    pure (packetId.getD 0)

/-- The end of every `prepare…Packet`: serialise, check, send. -/
def prepare (p : Packet) (packetId : Option UInt16) : MqttM UInt16 := do
  let _ ← ofExcept (serializeCheck (X.MQTTSerialize p workBuffer_len))
  sendtoTxQueue X p packetId

def connectPacket (clientID : List UInt8) (username password : Option (List UInt8)) : Packet :=
  .connect { clientID := clientID, username := username, password := password,
             keepAliveInterval := 400 }

def prepareConnectPacket (clientID : List UInt8) (username password : Option (List UInt8)) :
    MqttM UInt16 := do
  workBufferMutex.take
  prepare X (connectPacket clientID username password) none

def preparePubAckPacket (packetId : UInt16) : MqttM UInt16 := do
  workBufferMutex.take
  prepare X (.puback packetId) (some packetId)

def preparePubRecPacket (packetId : UInt16) : MqttM UInt16 := do
  workBufferMutex.take
  prepare X (.pubrec packetId) (some packetId)

def preparePubCompPacket (packetId : UInt16) : MqttM UInt16 := do
  workBufferMutex.take
  prepare X (.pubcomp packetId) (some packetId)

def preparePubRelPacket (packetId : UInt16) (dup : Bool) : MqttM UInt16 := do
  workBufferMutex.take
  prepare X (.pubrel dup packetId) (some packetId)

def prepareSubscribePacket (topicFilter : List (List UInt8)) (qos : List QoS) : MqttM UInt16 := do
  workBufferMutex.take
  if topicFilter.length ≠ qos.length then Prog.throw .subscribe_qos_topic_count_mismatch
  else do
    let packetId ← generatePacketId
    prepare X (.subscribe false packetId (topicFilter.zip qos)) (some packetId)

def preparePingPacket : MqttM UInt16 := do
  workBufferMutex.take
  prepare X .pingreq none

def prepareDisconnectPacket : MqttM UInt16 := do
  workBufferMutex.take
  prepare X .disconnect none

def preparePublishPacket (topic payload : List UInt8) (qos : QoS) (dup : Bool)
    (packetId : Option UInt16) : MqttM UInt16 := do
  workBufferMutex.take
  let id ← match packetId with
    | some id => pure id
    | none => generatePacketId
  prepare X (.publish dup qos false id topic payload) (some id)

/-- `packet.read`. -/
def read : MqttM Inbound := do
  let m ← fun s => (.ok (s.env.read 0), { s with env := s.env.advanceRead })
  record [.received m]
  pure m

/-- `deserializeSubAck` into an array of `len` codes. -/
def deserializeSubAck (fields : Option (UInt16 × List UInt8)) (len : Nat) :
    MqttM (UInt16 × List UInt8) :=
  match fields with
  | none => Prog.throw .parse_failed
  | some (packetId, codes) => do
    record [.granted codes]
    if len < codes.length then Prog.trap else pure (packetId, codes)

end Packets

/-! ## The service -/

section Service

variable (X : Externs) (fuel : Nat)

/-- One round of `processSendQueue`: `txQueue.receive` and `connection.send`. -/
def sendNext : MqttM (Unit ⊕ Unit) := do
  match (← service).txQueue with
  | [] =>
    record [.drained]
    pure (.inr ())
  | p :: rest =>
    update fun s => { s with txQueue := rest }
    let _ ← connection.send X fuel p
    pure (.inl ())

def processSendQueue : MqttM Unit := Prog.loop (fun _ => sendNext X fuel) fuel ()

def publish (topic payload : List UInt8) (qos : QoS) (dup : Bool) (packetId : Option UInt16)
    (deadline : Nat) : MqttM Unit := do
  let ret ← preparePublishPacket X topic payload qos dup packetId
  addPublish .qosQueue ret qos dup false topic payload deadline

/-- `pingTimer` up to its packet. -/
def countPing (curr_tick : Nat) : MqttM Unit := do
  record [.ping]
  if (← service).pingQueue.isSome then Prog.trap
  else update fun s => { s with pingQueue := some curr_tick, pingCounter := s.pingCounter + 1 }

def pingTimer (curr_tick : Nat) : MqttM Unit := do
  countPing curr_tick
  let _ ← (preparePingPacket X).orUnreachable

def pubTimer : MqttM Unit := do
  let deadline ← calculateDeadline 2000
  (publish X (ascii "zig/pub") (ascii "test") .qos2 false none deadline).orUnreachable

/-- What a round of the receive loop of `loop` does next. -/
inductive Flow where
  | again
  | «break»
  deriving DecidableEq, Repr

/-- The end of the publish handler: hand over, or keep until PUBREL. -/
def deliver (packetId : UInt16) (r : publish_response) : MqttM Flow :=
  match r.topic with
  | none => Prog.trap
  | some topic =>
    if r.qos ≠ .qos2 then
      -- the slice of the topic is as long as `fw_update_topic`
      if topic.length < fw_update_topic.length then Prog.trap
      else if topic.take fw_update_topic.length = fw_update_topic then do
        record [.reset]
        pure .break
      else do
        let _ ← ofExcept (bufPrint (messageText publishWords packetId r.qos topic r.payload))
        record [.handover packetId r.qos topic r.payload]
        pure .again
    else do
      let deadline ← calculateDeadline 2000
      addPublish .qos2Queue packetId r.qos r.dup r.retained topic r.payload deadline
      pure .again

/-- The reply to a publish packet, by its quality of service. -/
def answerPublish (r : publish_response) : MqttM UInt16 :=
  match r.qos with
  | .qos0 => pure r.packetId
  | .qos1 => preparePubAckPacket X r.packetId
  | .qos2 => preparePubRecPacket X r.packetId

def onPublish (fields : Option PublishFields) : MqttM Flow := do
  let r ← ofExcept (deserializePublish fields)
  let packetId ← answerPublish X r
  if r.qos = .qos1 then processSendQueue X fuel
  deliver packetId r

def onPuback (fields : Option AckFields) : MqttM Flow := do
  let packetId ← ofExcept (deserializePuback fields)
  if ← acknowledge .qosQueue packetId .publish then pure .again
  else Prog.throw .qos_packet_not_found

def onPingresp : MqttM Flow := do
  record [.pingresp]
  match (← service).pingQueue with
  | none => Prog.trap
  | some _ =>
    update fun s => { s with pingQueue := none }
    pure .again

def onPubrec (fields : Option AckFields) : MqttM Flow := do
  let rx_packetId ← ofExcept (deserializePubrec fields)
  if ← acknowledge .qosQueue rx_packetId .publish then do
    let dup ← acknowledge .qosQueue rx_packetId .pubrel
    let ret ← preparePubRelPacket X rx_packetId dup
    let deadline ← calculateDeadline 2000
    addPubRel .qosQueue ret false deadline
    pure .again
  else Prog.throw .qos_packet_not_found

/-- The end of the pubrel handler: the stored message is handed over and released. -/
def complete (packetId : UInt16) (msg : QueuedMessage) : MqttM Unit :=
  match msg.content with
  | .pubrel => Prog.trap
  | .publish topic payload => do
    let _ ← ofExcept
      (bufPrint (messageText pubrelWords packetId msg.qos topic.bytes payload.bytes))
    record [.handover packetId msg.qos topic.bytes payload.bytes]
    free topic payload

def onPubrel (fields : Option AckFields) : MqttM Flow := do
  let packetId ← ofExcept (deserializePubrel fields)
  match ← findAndRemove .qos2Queue packetId with
  | some msg =>
    let _ ← preparePubCompPacket X packetId
    processSendQueue X fuel
    complete packetId msg
    pure .again
  | none => pure .again

def onPubcomp (fields : Option AckFields) : MqttM Flow := do
  let resp ← ofExcept (deserializePubcomp fields)
  if ← acknowledge .qosQueue resp .pubrel then pure .again
  else Prog.throw .pubrel_packet_not_found

/-- The `switch` on what `packet.read` has returned. -/
def dispatch : Inbound → MqttM Flow
  | .try_again => pure .again
  | .publish fields => onPublish X fuel fields
  | .puback fields => onPuback fields
  | .pingresp => onPingresp
  | .connack connack_rc => do
    ofExcept (processConnAck connack_rc)
    pure .again
  | .client => pure .break
  | .suback fields => do
    let _ ← deserializeSubAck fields 2
    pure .again
  | .unsuback => pure .again
  | .pubrec fields => onPubrec X fields
  | .pubrel fields => onPubrel X fuel fields
  | .pubcomp fields => onPubcomp fields
  | .err_msg => pure .break
  | .reserved => Prog.trap

/-- One round of the loop over the expired messages of `qosQueue`. -/
def retransmit : MqttM (Unit ⊕ Unit) := do
  match ← prune .qosQueue with
  | none => pure (.inr ())
  | some msg =>
    match msg.content with
    | .publish topic payload =>
      let deadline ← calculateDeadline 2000
      publish X topic.bytes payload.bytes msg.qos true (some msg.packetId) deadline
    | .pubrel =>
      let ret ← preparePubRelPacket X msg.packetId true
      let deadline ← calculateDeadline 2000
      addPubRel .qosQueue ret true deadline
    pure (.inl ())

/-- One round of the loop over the expired messages of `qos2Queue`. -/
def expire : MqttM (Unit ⊕ Unit) := do
  match ← prune .qos2Queue with
  | none => pure (.inr ())
  | some msg =>
    match msg.content with
    | .publish topic payload => free topic payload
    | .pubrel => Prog.trap
    pure (.inl ())

/-- One round of the receive loop; it is also left when nothing has arrived in time. -/
def receive : MqttM (Unit ⊕ Unit) := do
  if ← (connection.waitRx 1).tryCatch fun _ => pure false then
    match ← dispatch X fuel (← read) with
    | .again => pure (.inl ())
    | .break => pure (.inr ())
  else pure (.inr ())

/-- One round of the `while (true)` loop of `loop`. -/
def cycle : MqttM Unit := do
  Prog.loop (fun _ => retransmit X) fuel ()
  Prog.loop (fun _ => expire) fuel ()
  processSendQueue X fuel
  Prog.loop (fun _ => receive X fuel) fuel ()

/-- The wait for CONNACK in `connect`. -/
def awaitConnack : MqttM Unit := do
  if ← connection.waitRx 5 then
    match ← read with
    | .connack connack_rc => ofExcept (processConnAck connack_rc)
    | .reserved => Prog.trap
    | _ => Prog.throw .connect_failed

/-- The wait for SUBACK in `connect`; the granted codes are printed by their index. -/
def awaitSuback (packetId : UInt16) : MqttM Unit := do
  if ← connection.waitRx 5 then
    match ← read with
    | .suback fields =>
      let (id, codes) ← deserializeSubAck fields 2
      if id = packetId ∧ codes.length < 2 then Prog.trap
    | .reserved => Prog.trap
    | _ => pure ()

def subscribePacket : MqttM UInt16 :=
  prepareSubscribePacket X [fw_update_topic, conf_update_topic] [.qos1, .qos2]

def connect (uri : Uri) : MqttM Unit := do
  update fun s => { s with state := .connecting, connectionCounter := s.connectionCounter + 1 }
  Prog.errdeferring (do
      update fun s => { s with state := .err }
      connection.close.orIgnore) do
    connection.open fuel uri
    let _ ← prepareConnectPacket X X.config_get_mqtt_device_id none none
    processSendQueue X fuel
    awaitConnack
    let packetId ← subscribePacket X
    processSendQueue X fuel
    awaitSuback packetId
    update fun s => { s with state := .connected, pingTimer := true, pubTimer := true }

def disconnect : MqttM Unit := do
  update fun s => { s with pingTimer := false, pubTimer := false }
  Prog.deferring (do
      connection.close.orIgnore
      update fun s => { s with disconnectionCounter := s.disconnectionCounter + 1 }) do
    let _ ← prepareDisconnectPacket X
    processSendQueue X fuel

/-- `loop` returns with an error only. -/
def loop (uri : Uri) : MqttM Unit := do
  connect X fuel uri
  Prog.deferring (disconnect X fuel) (Prog.loop (fun _ => do
    cycle X fuel
    pure (.inl ())) fuel ())

/-- `taskFunction`; the waits and the printing of its `catch` have no effect on the state. -/
def taskFunction : MqttM Unit := do
  update fun s => { s with connectionCounter := 0, disconnectionCounter := 0, pingCounter := 0,
                           pingQueue := none }
  Prog.loop (fun _ => do
    match ← (loop X fuel X.config_get_mqtt_url).attempt with
    | .ok () => pure (.inl ())
    | .error err =>
      if err = .create_error then update fun s => { s with pingQueue := none }
      pure (.inl ())) fuel ()

end Service

end Miso.Mqtt

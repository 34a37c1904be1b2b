import Miso.Mqtt.Steps
import Miso.Net.TlsSpec

/-!
# What the functions of the service do

One relation for each function that a step is made of: the service it starts from, its exits, and
the service each of them leaves behind.  The answers of the environment decide between the exits.

* `Prepared`, `Stored`, `Published`, `Delivered` — the functions that serialise, store, publish
  and hand over; `Received` — a round of the receive loop;
* `Taken`, `Called`, `Moved` — one step of the task, of a callback and of the system.
-/

namespace Miso.Mqtt

open Zig Net QueuedMessgeQueue

/-! ## Pure views -/

namespace Service

/-- A successful `alloc`. -/
def alloc (s : Service) (bytes : List UInt8) : Buffer × Service :=
  if bytes = [] then (⟨none, []⟩, s)
  else (⟨some s.blocks, bytes⟩,
    { s with heap := s.heap ++ [.acquire s.blocks], blocks := s.blocks + 1 })

/-- The buffers of a message are freed. -/
def freed (s : Service) : Content → Service
  | .publish topic payload => { s with heap := s.heap ++ freeMoves topic ++ freeMoves payload }
  | .pubrel => s

/-- A successful `addPublish`. -/
def stored (s : Service) (q : Queue) (packetId : UInt16) (qos : QoS) (dup retained : Bool)
    (topic payload : List UInt8) (deadline : Nat) : Service :=
  let p := s.alloc payload
  let t := p.2.alloc topic
  t.2.setQueue q (t.2.queue q ++ [⟨packetId, qos, dup, retained, .publish t.1 p.1, deadline⟩])

/-- The service that `open` works on. -/
def connecting (s : Service) : Service :=
  { s with state := .connecting, connectionCounter := s.connectionCounter + 1 }

/-- The end of `connect`. -/
def connected (s : Service) : Service :=
  { s with state := .connected, pingTimer := true, pubTimer := true }

/-- The beginning of `disconnect`. -/
def disconnecting (s : Service) : Service := { s with pingTimer := false, pubTimer := false }

def withId (s : Service) (k : UInt16) : Service := { s with packetIdState := k }

end Service

/-- The item that an acknowledgement is for. -/
def acks (packetId : UInt16) (packetType : msgTypes) (m : QueuedMessage) : Bool :=
  m.packetId = packetId ∧ m.packetType = packetType

/-- The item has expired. -/
def expired (now : Nat) (m : QueuedMessage) : Bool := m.deadline < now

theorem removeFirst_some {α : Type} {f : α → Bool} {l rest : List α} {a : α}
    (h : removeFirst f l = some (a, rest)) :
    ∃ l₁ l₂, l = l₁ ++ a :: l₂ ∧ rest = l₁ ++ l₂ ∧ f a = true ∧ ∀ b ∈ l₁, f b = false := by
  induction l generalizing rest with
  | nil => cases h
  | cons b l ih =>
    unfold removeFirst at h
    by_cases hb : f b = true
    · rw [if_pos hb] at h
      cases h
      exact ⟨[], l, rfl, rfl, hb, fun _ hc => absurd hc List.not_mem_nil⟩
    · rw [if_neg hb] at h
      cases hr : removeFirst f l with
      | none => simp [hr] at h
      | some r =>
        simp only [hr, Option.map_some, Option.some.injEq, Prod.mk.injEq] at h
        obtain ⟨rfl, rfl⟩ := h
        obtain ⟨l₁, l₂, hl, hrest, ha, hall⟩ := ih hr
        refine ⟨b :: l₁, l₂, by rw [hl]; rfl, by rw [hrest]; rfl, ha, ?_⟩
        intro c hc
        obtain rfl | hc := List.mem_cons.mp hc
        · exact Bool.eq_false_iff.mpr hb
        · exact hall c hc

theorem removeFirst_none {α : Type} {f : α → Bool} {l : List α} (h : removeFirst f l = none) :
    ∀ a ∈ l, f a = false := by
  induction l with
  | nil => exact fun _ ha => absurd ha List.not_mem_nil
  | cons b l ih =>
    unfold removeFirst at h
    by_cases hb : f b = true
    · rw [if_pos hb] at h
      cases h
    · rw [if_neg hb, Option.map_eq_none_iff] at h
      intro a ha
      obtain rfl | ha := List.mem_cons.mp ha
      · exact Bool.eq_false_iff.mpr hb
      · exact ih h a ha

/-! ## Exits -/

section Exits

variable (X : Externs)

/-- The packet passes `serializeCheck`. -/
def Serializes (p : Packet) : Prop :=
  0 < X.MQTTSerialize p workBuffer_len ∧ X.MQTTSerialize p workBuffer_len ≤ workBuffer_len

instance (p : Packet) : Decidable (Serializes X p) := inferInstanceAs (Decidable (_ ∧ _))

/-- `txQueue` has room for the packet and its length. -/
def HasRoom (s : Service) (p : Packet) : Prop := s.used X + (X.size p + 4) ≤ txQueue_capacity

instance (s : Service) (p : Packet) : Decidable (HasRoom X s p) :=
  inferInstanceAs (Decidable (_ ≤ _))

/-- Nothing keeps the packet from `txQueue`. -/
structure Ready (ok : Os → Nat → Bool) (s : Service) (p : Packet) : Prop where
  mutex : s.waiting = none
  take : ok .xSemaphoreTake 0 = true
  serializes : Serializes X p
  room : HasRoom X s p
  send : ok .xMessageBufferSend 0 = true

instance (ok : Os → Nat → Bool) (s : Service) (p : Packet) : Decidable (Ready X ok s p) :=
  decidable_of_iff (s.waiting = none ∧ ok .xSemaphoreTake 0 = true ∧ Serializes X p ∧
      HasRoom X s p ∧ ok .xMessageBufferSend 0 = true)
    ⟨fun ⟨h₁, h₂, h₃, h₄, h₅⟩ => ⟨h₁, h₂, h₃, h₄, h₅⟩,
      fun ⟨h₁, h₂, h₃, h₄, h₅⟩ => ⟨h₁, h₂, h₃, h₄, h₅⟩⟩

theorem HasRoom.congr {X : Externs} {s s' : Service} {p : Packet} (h : HasRoom X s p)
    (htx : s'.txQueue = s.txQueue) : HasRoom X s' p := by
  unfold HasRoom Service.used at *
  rw [htx]
  exact h

theorem Ready.congr {X : Externs} {ok : Os → Nat → Bool} {s s' : Service} {p : Packet}
    (h : Ready X ok s p) (hwaiting : s'.waiting = s.waiting) (htx : s'.txQueue = s.txQueue) :
    Ready X ok s' p where
  mutex := hwaiting.trans h.mutex
  take := h.take
  serializes := h.serializes
  room := h.room.congr htx
  send := h.send

/-- How a function that prepares `p` ends; the generator is left in `k`, if it has been used, and
where it was without the mutex. -/
inductive Prepared (ok : Os → Nat → Bool) (s : Service) (p : Packet) (k id : UInt16) :
    Exit Error UInt16 → Service → Prop where
  | queued : Ready X ok s p → Prepared ok s p k id (.ok id) ((s.withId k).enqueue p)
  | failed (err : Error) (k' : UInt16) : ¬Ready X ok s p → Common err →
    k' = k ∨ ok .xSemaphoreTake 0 = false ∧ k' = s.packetIdState →
    Prepared ok s p k id (.err err) (s.withId k')
  | stuck : s.waiting ≠ none → Prepared ok s p k id .halt s
  | blocked : s.waiting = none → ok .xSemaphoreTake 0 = true → Serializes X p → ¬HasRoom X s p →
    Prepared ok s p k id .halt ((s.withId k).record [.blocked p])

/-- An allocation succeeds; an empty one always does. -/
def AllocOk (ok : Os → Nat → Bool) (a : Os) (bytes : List UInt8) : Prop := bytes = [] ∨ ok a 0 = true

instance (ok : Os → Nat → Bool) (a : Os) (bytes : List UInt8) : Decidable (AllocOk ok a bytes) :=
  inferInstanceAs (Decidable (_ ∨ _))

/-- Nothing keeps the message from its queue. -/
structure Fits (ok : Os → Nat → Bool) (topic payload : List UInt8) : Prop where
  payload : AllocOk ok .allocPayload payload
  topic : AllocOk ok .allocTopic topic
  append : ok .append 0 = true

instance (ok : Os → Nat → Bool) (topic payload : List UInt8) : Decidable (Fits ok topic payload) :=
  decidable_of_iff (AllocOk ok .allocPayload payload ∧ AllocOk ok .allocTopic topic ∧
      ok .append 0 = true)
    ⟨fun ⟨h₁, h₂, h₃⟩ => ⟨h₁, h₂, h₃⟩, fun ⟨h₁, h₂, h₃⟩ => ⟨h₁, h₂, h₃⟩⟩

/-- How `addPublish` ends: what has been allocated before a failure stays allocated. -/
inductive Stored (ok : Os → Nat → Bool) (s : Service) (q : Queue) (packetId : UInt16) (qos : QoS)
    (dup retained : Bool) (topic payload : List UInt8) (deadline : Nat) :
    Exit Error Unit → Service → Prop where
  | stored : Fits ok topic payload → Stored ok s q packetId qos dup retained topic payload deadline
    (.ok ()) (s.stored q packetId qos dup retained topic payload deadline)
  | noPayload : ¬AllocOk ok .allocPayload payload →
    Stored ok s q packetId qos dup retained topic payload deadline (.err .OutOfMemory) s
  | noTopic : AllocOk ok .allocPayload payload → ¬AllocOk ok .allocTopic topic →
    Stored ok s q packetId qos dup retained topic payload deadline (.err .OutOfMemory)
      (s.alloc payload).2
  | noAppend : AllocOk ok .allocPayload payload → AllocOk ok .allocTopic topic →
    ok .append 0 = false →
    Stored ok s q packetId qos dup retained topic payload deadline (.err .OutOfMemory)
      ((s.alloc payload).2.alloc topic).2

/-- The identifier of a published packet. -/
def publishId (s : Service) (packetId : Option UInt16) : UInt16 :=
  packetId.getD (nextPacketId s.packetIdState)

/-- The generator behind `publish`. -/
def publishState (s : Service) : Option UInt16 → UInt16
  | some _ => s.packetIdState
  | none => nextPacketId s.packetIdState

/-- The packet of `publish`. -/
def publishPacket (s : Service) (topic payload : List UInt8) (qos : QoS) (dup : Bool)
    (packetId : Option UInt16) : Packet :=
  .publish dup qos false (publishId s packetId) topic payload

/-- How `publish` ends: the packet is queued before its message is stored. -/
inductive Published (ok : Os → Nat → Bool) (s : Service) (topic payload : List UInt8) (qos : QoS) (dup : Bool)
    (packetId : Option UInt16) (deadline : Nat) : Exit Error Unit → Service → Prop where
  | failed (err : Error) (s' : Service) :
    Prepared X ok s (publishPacket s topic payload qos dup packetId) (publishState s packetId)
      (publishId s packetId) (.err err) s' →
    Published ok s topic payload qos dup packetId deadline (.err err) s'
  | halted (s' : Service) :
    Prepared X ok s (publishPacket s topic payload qos dup packetId) (publishState s packetId)
      (publishId s packetId) .halt s' →
    Published ok s topic payload qos dup packetId deadline .halt s'
  | queued (x : Exit Error Unit) (s' : Service) :
    Ready X ok s (publishPacket s topic payload qos dup packetId) →
    Stored ok ((s.withId (publishState s packetId)).enqueue
        (publishPacket s topic payload qos dup packetId)) .qosQueue (publishId s packetId) qos dup
      false topic payload deadline x s' →
    Published ok s topic payload qos dup packetId deadline x s'

/-- How the retransmission of a PUBREL, or the reply to a PUBREC, ends. -/
inductive Released (ok : Os → Nat → Bool) (s : Service) (packetId : UInt16) (dup stored : Bool) :
    Exit Error Unit → Service → Prop where
  | failed (err : Error) (s' : Service) :
    Prepared X ok s (.pubrel dup packetId) s.packetIdState packetId (.err err) s' →
    Released ok s packetId dup stored (.err err) s'
  | halted (s' : Service) :
    Prepared X ok s (.pubrel dup packetId) s.packetIdState packetId .halt s' →
    Released ok s packetId dup stored .halt s'
  | overflow : Ready X ok s (.pubrel dup packetId) → u32_max - 2000 < s.now →
    Released ok s packetId dup stored .trap (s.enqueue (.pubrel dup packetId))
  | noAppend : Ready X ok s (.pubrel dup packetId) → ok .append 0 = false →
    Released ok s packetId dup stored (.err .OutOfMemory) (s.enqueue (.pubrel dup packetId))
  | queued : Ready X ok s (.pubrel dup packetId) → ok .append 0 = true →
    Released ok s packetId dup stored (.ok ())
      { s.enqueue (.pubrel dup packetId) with
        qosQueue := s.qosQueue ++ [⟨packetId, .qos2, stored, false, .pubrel, s.now + 2000⟩] }

/-- How `deliver` ends. -/
inductive Delivered (ok : Os → Nat → Bool) (s : Service) (packetId : UInt16) (r : publish_response) :
    Exit Error Pc → Service → Prop where
  | undefined : r.topic = none → Delivered ok s packetId r .trap s
  | short (topic : List UInt8) : r.topic = some topic → r.qos ≠ .qos2 →
    topic.length < fw_update_topic.length → Delivered ok s packetId r .trap s
  | reset (topic : List UInt8) : r.topic = some topic → r.qos ≠ .qos2 →
    fw_update_topic <+: topic → Delivered ok s packetId r (.ok .retransmit) (s.record [.reset])
  | noSpace (topic : List UInt8) : r.topic = some topic → r.qos ≠ .qos2 →
    ¬fw_update_topic <+: topic →
    printBuffer_len < (messageText publishWords packetId r.qos topic r.payload).length →
    Delivered ok s packetId r (.err .NoSpaceLeft) s
  | printed (topic : List UInt8) : r.topic = some topic → r.qos ≠ .qos2 →
    fw_update_topic.length ≤ topic.length → ¬fw_update_topic <+: topic →
    (messageText publishWords packetId r.qos topic r.payload).length ≤ printBuffer_len →
    Delivered ok s packetId r (.ok .receive) (s.record [.handover packetId r.qos topic r.payload])
  | overflow (topic : List UInt8) : r.topic = some topic → r.qos = .qos2 →
    u32_max - 2000 < s.now → Delivered ok s packetId r .trap s
  | kept (topic : List UInt8) (s' : Service) : r.topic = some topic → r.qos = .qos2 →
    Stored ok s .qos2Queue packetId .qos2 r.dup r.retained topic r.payload (s.now + 2000) (.ok ()) s' →
    s.now ≤ u32_max - 2000 → Delivered ok s packetId r (.ok .receive) s'
  | lost (topic : List UInt8) (err : Error) (s' : Service) : r.topic = some topic → r.qos = .qos2 →
    Stored ok s .qos2Queue packetId .qos2 r.dup r.retained topic r.payload (s.now + 2000) (.err err)
      s' →
    s.now ≤ u32_max - 2000 → Delivered ok s packetId r (.err err) s'

/-- The error that a deserialiser reports, or the check behind it. -/
def Inbound.error : Inbound → Option Error
  | .connack connack_rc => match processConnAck connack_rc with
    | .ok _ => none
    | .error err => some err
  | .publish fields => match deserializePublish fields with
    | .ok _ => none
    | .error err => some err
  | .puback fields => match deserializePuback fields with
    | .ok _ => none
    | .error err => some err
  | .pubrec fields => match deserializePubrec fields with
    | .ok _ => none
    | .error err => some err
  | .pubrel fields => match deserializePubrel fields with
    | .ok _ => none
    | .error err => some err
  | .pubcomp fields => match deserializePubcomp fields with
    | .ok _ => none
    | .error err => some err
  | .suback none => some .parse_failed
  | _ => none

-- the cases of `Inbound.error` overlap, so that its equations are stated here once
@[simp] theorem Inbound.error_connack (connack_rc : Option UInt8) : (Inbound.connack connack_rc).error =
    match processConnAck connack_rc with
    | .ok _ => none
    | .error err => some err := rfl

@[simp] theorem Inbound.error_publish (fields : Option PublishFields) : (Inbound.publish fields).error =
    match deserializePublish fields with
    | .ok _ => none
    | .error err => some err := rfl

@[simp] theorem Inbound.error_puback (fields : Option AckFields) : (Inbound.puback fields).error =
    match deserializePuback fields with
    | .ok _ => none
    | .error err => some err := rfl

@[simp] theorem Inbound.error_pubrec (fields : Option AckFields) : (Inbound.pubrec fields).error =
    match deserializePubrec fields with
    | .ok _ => none
    | .error err => some err := rfl

@[simp] theorem Inbound.error_pubrel (fields : Option AckFields) : (Inbound.pubrel fields).error =
    match deserializePubrel fields with
    | .ok _ => none
    | .error err => some err := rfl

@[simp] theorem Inbound.error_pubcomp (fields : Option AckFields) : (Inbound.pubcomp fields).error =
    match deserializePubcomp fields with
    | .ok _ => none
    | .error err => some err := rfl

/-- The service behind an acknowledgement of the packet. -/
def Service.acknowledged (s : Service) (packetId : UInt16) (packetType : msgTypes) :
    Option Service :=
  (removeFirst (acks packetId packetType) s.qosQueue).map fun r =>
    { s with qosQueue := r.2 }.freed r.1.content

/-- How a round of the receive loop ends, up to `processSendQueue`; `s` has received the packet. -/
inductive Received (ok : Os → Nat → Bool) (s : Service) : Inbound → Exit Error Pc → Service → Prop where
  | again (m : Inbound) : m = .try_again ∨ m = .unsuback ∨ m = .connack (some 0) →
    Received ok s m (.ok .receive) s
  | left (m : Inbound) : m = .err_msg ∨ m = .client → Received ok s m (.ok .retransmit) s
  | malformed (m : Inbound) (err : Error) : m.error = some err → Common err →
    Received ok s m (.err err) s
  | reserved : Received ok s .reserved .trap s
  | publish0 (fields : Option PublishFields) (r : publish_response) (x : Exit Error Pc)
      (s' : Service) : deserializePublish fields = .ok r → r.qos = .qos0 →
    Delivered ok s r.packetId r x s' → Received ok s (.publish fields) x s'
  | publish1 (fields : Option PublishFields) (r : publish_response) :
    deserializePublish fields = .ok r → r.qos = .qos1 → Ready X ok s (.puback r.packetId) →
    Received ok s (.publish fields) (.ok (.drain (.publish r.packetId r)))
      (s.enqueue (.puback r.packetId))
  | publish2 (fields : Option PublishFields) (r : publish_response) (x : Exit Error Pc)
      (s' : Service) : deserializePublish fields = .ok r → r.qos = .qos2 →
    Ready X ok s (.pubrec r.packetId) →
    Delivered ok (s.enqueue (.pubrec r.packetId)) r.packetId r x s' →
    Received ok s (.publish fields) x s'
  | unanswered (fields : Option PublishFields) (r : publish_response) (p : Packet) (err : Error)
      (s' : Service) : deserializePublish fields = .ok r →
    r.qos = .qos1 ∧ p = .puback r.packetId ∨ r.qos = .qos2 ∧ p = .pubrec r.packetId →
    Prepared X ok s p s.packetIdState r.packetId (.err err) s' →
    Received ok s (.publish fields) (.err err) s'
  | unansweredHalt (fields : Option PublishFields) (r : publish_response) (p : Packet)
      (s' : Service) : deserializePublish fields = .ok r →
    r.qos = .qos1 ∧ p = .puback r.packetId ∨ r.qos = .qos2 ∧ p = .pubrec r.packetId →
    Prepared X ok s p s.packetIdState r.packetId .halt s' →
    Received ok s (.publish fields) .halt s'
  | puback (fields : Option AckFields) (id : UInt16) (s' : Service) :
    deserializePuback fields = .ok id → s.acknowledged id .publish = some s' →
    Received ok s (.puback fields) (.ok .receive) s'
  | pubackUnknown (fields : Option AckFields) (id : UInt16) :
    deserializePuback fields = .ok id → s.acknowledged id .publish = none →
    Received ok s (.puback fields) (.err .qos_packet_not_found) s
  | pingresp (tick : Nat) : s.pingQueue = some tick →
    Received ok s .pingresp (.ok .receive) { s.record [.pingresp] with pingQueue := none }
  | pingrespUnknown : s.pingQueue = none → Received ok s .pingresp .trap (s.record [.pingresp])
  | pubrec (fields : Option AckFields) (id : UInt16) (s₁ : Service) (x : Exit Error Unit)
      (s' : Service) : deserializePubrec fields = .ok id → s.acknowledged id .publish = some s₁ →
    Released X ok ((s₁.acknowledged id .pubrel).getD s₁) id (s₁.acknowledged id .pubrel).isSome
      false x s' →
    Received ok s (.pubrec fields) (x.as .receive) s'
  | pubrecUnknown (fields : Option AckFields) (id : UInt16) :
    deserializePubrec fields = .ok id → s.acknowledged id .publish = none →
    Received ok s (.pubrec fields) (.err .qos_packet_not_found) s
  | pubrel (fields : Option AckFields) (id : UInt16) (msg : QueuedMessage)
      (rest : List QueuedMessage) : deserializePubrel fields = .ok id →
    removeFirst (fun m => m.packetId = id) s.qos2Queue = some (msg, rest) →
    Ready X ok { s with qos2Queue := rest } (.pubcomp id) →
    Received ok s (.pubrel fields) (.ok (.drain (.pubrel id msg)))
      ({ s with qos2Queue := rest }.enqueue (.pubcomp id))
  | pubrelFailed (fields : Option AckFields) (id : UInt16) (msg : QueuedMessage)
      (rest : List QueuedMessage) (err : Error) (s' : Service) : deserializePubrel fields = .ok id →
    removeFirst (fun m => m.packetId = id) s.qos2Queue = some (msg, rest) →
    Prepared X ok { s with qos2Queue := rest } (.pubcomp id) s.packetIdState id (.err err) s' →
    Received ok s (.pubrel fields) (.err err) s'
  | pubrelHalted (fields : Option AckFields) (id : UInt16) (msg : QueuedMessage)
      (rest : List QueuedMessage) (s' : Service) : deserializePubrel fields = .ok id →
    removeFirst (fun m => m.packetId = id) s.qos2Queue = some (msg, rest) →
    Prepared X ok { s with qos2Queue := rest } (.pubcomp id) s.packetIdState id .halt s' →
    Received ok s (.pubrel fields) .halt s'
  | pubrelUnknown (fields : Option AckFields) (id : UInt16) : deserializePubrel fields = .ok id →
    removeFirst (fun m => m.packetId = id) s.qos2Queue = none →
    Received ok s (.pubrel fields) (.ok .receive) s
  | pubcomp (fields : Option AckFields) (id : UInt16) (s' : Service) :
    deserializePubcomp fields = .ok id → s.acknowledged id .pubrel = some s' →
    Received ok s (.pubcomp fields) (.ok .receive) s'
  | pubcompUnknown (fields : Option AckFields) (id : UInt16) :
    deserializePubcomp fields = .ok id → s.acknowledged id .pubrel = none →
    Received ok s (.pubcomp fields) (.err .pubrel_packet_not_found) s
  | suback (id : UInt16) (codes : List UInt8) : codes.length ≤ 2 →
    Received ok s (.suback (some (id, codes))) (.ok .receive) (s.record [.granted codes])
  | subackLong (id : UInt16) (codes : List UInt8) : 2 < codes.length →
    Received ok s (.suback (some (id, codes))) .trap (s.record [.granted codes])

/-- The SUBSCRIBE packet of `connect`. -/
def subscribeOf (packetId : UInt16) : Packet :=
  .subscribe false packetId [(fw_update_topic, .qos1), (conf_update_topic, .qos2)]

/-- The CONNECT packet of the service. -/
def Externs.connectPacket : Packet := Mqtt.connectPacket X.config_get_mqtt_device_id none none

/-- **One step of the task**: what it makes of the service `s` and the connection `l`. -/
inductive Taken (e : Env) (fuel : Nat) (l : Link) :
    Pc → Service → Exit Error Pc → Service → Link → Prop where
  | start (s : Service) : Taken e fuel l .start s (.ok .connect)
      { s with connectionCounter := 0, disconnectionCounter := 0, pingCounter := 0,
               pingQueue := none } l
  | opened (s : Service) (l' : Link) :
    TlsContext.open fuel connectionType X.config_get_mqtt_url l = (.ok (), l') →
    Taken e fuel l .connect s (.ok .connectPacket) (s.connecting.record [.opened]) l'
  | openFailed (s : Service) (err : Error) (l' : Link) :
    TlsContext.open fuel connectionType X.config_get_mqtt_url l = (.err err, l') →
    Taken e fuel l .connect s (.err err) s.connecting l'
  | openTrap (s : Service) (l' : Link) :
    TlsContext.open fuel connectionType X.config_get_mqtt_url l = (.trap, l') →
    Taken e fuel l .connect s .trap s.connecting l'
  | openHalt (s : Service) (l' : Link) :
    TlsContext.open fuel connectionType X.config_get_mqtt_url l = (.halt, l') →
    Taken e fuel l .connect s .halt s.connecting l'
  | connectPacket (s : Service) (x : Exit Error UInt16) (s' : Service) :
    Prepared X e.ok s X.connectPacket s.packetIdState 0 x s' →
    Taken e fuel l .connectPacket s (x.as (.drain .connect)) s' l
  | connackTimeout (s : Service) : e.waitRx 0 = some false →
    Taken e fuel l .connack s (.ok .subscribe) s l
  | connackError (s : Service) : e.waitRx 0 = none →
    Taken e fuel l .connack s (.err .QueueSendFailed) s l
  | connackAccepted (s : Service) : e.waitRx 0 = some true → e.read 0 = .connack (some 0) →
    Taken e fuel l .connack s (.ok .subscribe) (s.record [.received (e.read 0)]) l
  | connackRefused (s : Service) (err : Error) : e.waitRx 0 = some true →
    e.read 0 ≠ .connack (some 0) → e.read 0 ≠ .reserved → Common err →
    Taken e fuel l .connack s (.err err) (s.record [.received (e.read 0)]) l
  | connackReserved (s : Service) : e.waitRx 0 = some true → e.read 0 = .reserved →
    Taken e fuel l .connack s .trap (s.record [.received (e.read 0)]) l
  | subscribe (s : Service) (x : Exit Error UInt16) (s' : Service) :
    Prepared X e.ok s (subscribeOf (nextPacketId s.packetIdState)) (nextPacketId s.packetIdState)
      (nextPacketId s.packetIdState) x s' →
    Taken e fuel l .subscribe s (x.as (.drain (.subscribe (nextPacketId s.packetIdState)))) s' l
  | subackTimeout (packetId : UInt16) (s : Service) : e.waitRx 0 = some false →
    Taken e fuel l (.suback packetId) s (.ok .retransmit) s.connected l
  | subackError (packetId : UInt16) (s : Service) : e.waitRx 0 = none →
    Taken e fuel l (.suback packetId) s (.err .QueueSendFailed) s l
  | subackOther (packetId : UInt16) (s : Service) : e.waitRx 0 = some true →
    (∀ fields, e.read 0 ≠ .suback fields) → e.read 0 ≠ .reserved →
    Taken e fuel l (.suback packetId) s (.ok .retransmit)
      (s.record [.received (e.read 0)]).connected l
  | suback (packetId : UInt16) (s : Service) (id : UInt16) (codes : List UInt8) :
    e.waitRx 0 = some true → e.read 0 = .suback (some (id, codes)) → codes.length ≤ 2 →
    ¬(id = packetId ∧ codes.length < 2) →
    Taken e fuel l (.suback packetId) s (.ok .retransmit)
      ((s.record [.received (e.read 0)]).record [.granted codes]).connected l
  | subackMalformed (packetId : UInt16) (s : Service) : e.waitRx 0 = some true →
    e.read 0 = .suback none →
    Taken e fuel l (.suback packetId) s (.err .parse_failed) (s.record [.received (e.read 0)]) l
  | subackReserved (packetId : UInt16) (s : Service) : e.waitRx 0 = some true →
    e.read 0 = .reserved →
    Taken e fuel l (.suback packetId) s .trap (s.record [.received (e.read 0)]) l
  | subackIndex (packetId : UInt16) (s : Service) (id : UInt16) (codes : List UInt8) :
    e.waitRx 0 = some true → e.read 0 = .suback (some (id, codes)) →
    2 < codes.length ∨ id = packetId ∧ codes.length < 2 →
    Taken e fuel l (.suback packetId) s .trap
      ((s.record [.received (e.read 0)]).record [.granted codes]) l
  | retransmitted (s : Service) : removeFirst (expired s.now) s.qosQueue = none →
    Taken e fuel l .retransmit s (.ok .expire) s l
  | retransmit (s : Service) (msg : QueuedMessage) (rest : List QueuedMessage)
      (topic payload : Buffer) (x : Exit Error Unit) (s' : Service) :
    removeFirst (expired s.now) s.qosQueue = some (msg, rest) →
    msg.content = .publish topic payload → s.now ≤ u32_max - 2000 →
    Published X e.ok { s with qosQueue := rest } topic.bytes payload.bytes msg.qos true
      (some msg.packetId) (s.now + 2000) x s' →
    Taken e fuel l .retransmit s (x.as .retransmit) s' l
  | retransmitOverflow (s : Service) (msg : QueuedMessage) (rest : List QueuedMessage)
      (topic payload : Buffer) : removeFirst (expired s.now) s.qosQueue = some (msg, rest) →
    msg.content = .publish topic payload → u32_max - 2000 < s.now →
    Taken e fuel l .retransmit s .trap { s with qosQueue := rest } l
  | retransmitPubrel (s : Service) (msg : QueuedMessage) (rest : List QueuedMessage)
      (x : Exit Error Unit) (s' : Service) :
    removeFirst (expired s.now) s.qosQueue = some (msg, rest) → msg.content = .pubrel →
    Released X e.ok { s with qosQueue := rest } msg.packetId true true x s' →
    Taken e fuel l .retransmit s (x.as .retransmit) s' l
  | unexpired (s : Service) : removeFirst (expired s.now) s.qos2Queue = none →
    Taken e fuel l .expire s (.ok (.drain .cycle)) s l
  | expire (s : Service) (msg : QueuedMessage) (rest : List QueuedMessage)
      (topic payload : Buffer) : removeFirst (expired s.now) s.qos2Queue = some (msg, rest) →
    msg.content = .publish topic payload →
    Taken e fuel l .expire s (.ok .expire) ({ s with qos2Queue := rest }.freed msg.content) l
  | expirePubrel (s : Service) (msg : QueuedMessage) (rest : List QueuedMessage) :
    removeFirst (expired s.now) s.qos2Queue = some (msg, rest) → msg.content = .pubrel →
    Taken e fuel l .expire s .trap { s with qos2Queue := rest } l
  | drained (caller : Drain) (s : Service) : s.txQueue = [] →
    Taken e fuel l (.drain caller) s (.ok caller.next) (s.record [.drained]) l
  | sent (caller : Drain) (s : Service) (p : Packet) (rest : List Packet) (n : Nat) (l' : Link) :
    s.txQueue = p :: rest → TlsContext.send_tls fuel (X.size p) l = (.ok n, l') →
    Taken e fuel l (.drain caller) s (.ok (.drain caller))
      ({ s with txQueue := rest }.record [.sent p]) l'
  | sendFailed (caller : Drain) (s : Service) (p : Packet) (rest : List Packet) (err : Error)
      (l' : Link) : s.txQueue = p :: rest →
    TlsContext.send_tls fuel (X.size p) l = (.err err, l') →
    Taken e fuel l (.drain caller) s (.err err) ({ s with txQueue := rest }.record [.sent p]) l'
  | sendTrap (caller : Drain) (s : Service) (p : Packet) (rest : List Packet) (l' : Link) :
    s.txQueue = p :: rest → TlsContext.send_tls fuel (X.size p) l = (.trap, l') →
    Taken e fuel l (.drain caller) s .trap ({ s with txQueue := rest }.record [.sent p]) l'
  | sendHalt (caller : Drain) (s : Service) (p : Packet) (rest : List Packet) (l' : Link) :
    s.txQueue = p :: rest → TlsContext.send_tls fuel (X.size p) l = (.halt, l') →
    Taken e fuel l (.drain caller) s .halt ({ s with txQueue := rest }.record [.sent p]) l'
  | idle (s : Service) : e.waitRx 0 ≠ some true → Taken e fuel l .receive s (.ok .retransmit) s l
  | received (s : Service) (x : Exit Error Pc) (s' : Service) : e.waitRx 0 = some true →
    Received X e.ok (s.record [.received (e.read 0)]) (e.read 0) x s' →
    Taken e fuel l .receive s x s' l
  | deliver (packetId : UInt16) (r : publish_response) (s : Service) (x : Exit Error Pc)
      (s' : Service) : Delivered e.ok s packetId r x s' →
    Taken e fuel l (.deliver packetId r) s x s' l
  | completed (packetId : UInt16) (msg : QueuedMessage) (s : Service) (topic payload : Buffer) :
    msg.content = .publish topic payload →
    (messageText pubrelWords packetId msg.qos topic.bytes payload.bytes).length ≤ printBuffer_len →
    Taken e fuel l (.complete packetId msg) s (.ok .receive)
      ((s.record [.handover packetId msg.qos topic.bytes payload.bytes]).freed msg.content) l
  | completeNoSpace (packetId : UInt16) (msg : QueuedMessage) (s : Service)
      (topic payload : Buffer) : msg.content = .publish topic payload →
    printBuffer_len < (messageText pubrelWords packetId msg.qos topic.bytes payload.bytes).length →
    Taken e fuel l (.complete packetId msg) s (.err .NoSpaceLeft) s l
  | completePubrel (packetId : UInt16) (msg : QueuedMessage) (s : Service) :
    msg.content = .pubrel → Taken e fuel l (.complete packetId msg) s .trap s l
  | refused (err : Error) (s : Service) (x : Exit Error Unit) (l' : Link) :
    TlsContext.close l = (x, l') →
    Taken e fuel l (.refused err) s (.ok (.lost err)) ({ s with state := .err }.record [.closed]) l'
  | disconnect (err : Error) (s : Service) (x : Exit Error UInt16) (s' : Service) :
    Prepared X e.ok s.disconnecting .disconnect s.packetIdState 0 x s' →
    Taken e fuel l (.disconnect err) s (x.as (.drain (.disconnect err))) s' l
  | close (err : Error) (s : Service) (x : Exit Error Unit) (l' : Link) :
    TlsContext.close l = (x, l') →
    Taken e fuel l (.close err) s (.ok (.lost err))
      { s.record [.closed] with disconnectionCounter := s.disconnectionCounter + 1 } l'
  | lost (err : Error) (s : Service) : err ≠ .create_error →
    Taken e fuel l (.lost err) s (.ok .connect) s l
  | lostReset (s : Service) :
    Taken e fuel l (.lost .create_error) s (.ok .connect) { s with pingQueue := none } l
  | halted (s : Service) : Taken e fuel l .halted s .halt s l
  | trapped (s : Service) : Taken e fuel l .trapped s .trap s l

/-- What a callback publishes. -/
def Job.publishes : Job → Option (List UInt8 × List UInt8 × QoS)
  | pingTimer _ => none
  | pubTimer => some (ascii "zig/pub", ascii "test", .qos2)
  | publish topic payload qos => some (topic, payload, qos)

/-- **A callback** from where it waits for room. -/
inductive Called (ok : Os → Nat → Bool) (s : Service) : Job → Exit Error Unit → Service → Prop where
  | pinged (tick : Nat) : Ready X ok s .pingreq →
    Called ok s (.pingTimer tick) (.ok ()) (s.enqueue .pingreq)
  | pingFailed (tick : Nat) (err : Error) (s' : Service) :
    Prepared X ok s .pingreq s.packetIdState 0 (.err err) s' →
    Called ok s (.pingTimer tick) .trap s'
  | pingWaits (tick : Nat) (s' : Service) : Prepared X ok s .pingreq s.packetIdState 0 .halt s' →
    Called ok s (.pingTimer tick) .halt s'
  | published (j : Job) (topic payload : List UInt8) (qos : QoS) (s' : Service) :
    j.publishes = some (topic, payload, qos) → s.now ≤ u32_max - 2000 →
    Published X ok s topic payload qos false none (s.now + 2000) (.ok ()) s' →
    Called ok s j (.ok ()) s'
  | publishFailed (topic payload : List UInt8) (qos : QoS) (err : Error) (s' : Service) :
    s.now ≤ u32_max - 2000 →
    Published X ok s topic payload qos false none (s.now + 2000) (.err err) s' →
    Called ok s (.publish topic payload qos) (.ok ()) s'
  | pubTimerFailed (err : Error) (s' : Service) : s.now ≤ u32_max - 2000 →
    Published X ok s (ascii "zig/pub") (ascii "test") .qos2 false none (s.now + 2000) (.err err) s' →
    Called ok s .pubTimer .trap s'
  | publishWaits (j : Job) (topic payload : List UInt8) (qos : QoS) (s' : Service) :
    j.publishes = some (topic, payload, qos) → s.now ≤ u32_max - 2000 →
    Published X ok s topic payload qos false none (s.now + 2000) .halt s' →
    Called ok s j .halt s'
  | overflow (j : Job) (topic payload : List UInt8) (qos : QoS) :
    j.publishes = some (topic, payload, qos) → u32_max - 2000 < s.now → Called ok s j .trap s

/-- Where the exit of a callback leads to. -/
def Pc.after {α : Type} (pc : Pc) : Exit Error α → Pc
  | .trap => .trapped
  | _ => pc

/-- **One step of the system.** -/
inductive Moved (s : Sys) : Input → Sys → Prop where
  | task (a : Answers) (x : Exit Error Pc) (srv' : Service) (link' : Link) :
    Taken X a.env a.fuel (s.start a).link s.pc s.srv x srv' link' →
    Moved s (.task a) ⟨s.pc.next x, srv', link'⟩
  | pingFull (tick tick' : Nat) (env : Env) : s.srv.pingQueue = some tick' →
    Moved s (.job (.pingTimer tick) env) ⟨.trapped, s.srv.record [.ping], s.link⟩
  | job (j : Job) (env : Env) (x : Exit Error Unit) (srv' : Service) :
    (∀ tick, j = .pingTimer tick → s.srv.pingQueue = none) →
    Called X env.ok (j.begun s.srv) j x srv' → x ≠ .halt →
    Moved s (.job j env) ⟨s.pc.after x, srv', s.link⟩
  | waits (j : Job) (env : Env) (srv' : Service) :
    (∀ tick, j = .pingTimer tick → s.srv.pingQueue = none) →
    Called X env.ok (j.begun s.srv) j .halt srv' →
    Moved s (.job j env) ⟨s.pc, { j.begun s.srv with waiting := some j }, s.link⟩
  | idle (env : Env) : s.srv.waiting = none → Moved s (.resume env) s
  | resumed (j : Job) (env : Env) (x : Exit Error Unit) (srv' : Service) :
    s.srv.waiting = some j → Called X env.ok { s.srv with waiting := none } j x srv' → x ≠ .halt →
    Moved s (.resume env) ⟨s.pc.after x, srv', s.link⟩
  | stays (j : Job) (env : Env) (srv' : Service) : s.srv.waiting = some j →
    Called X env.ok { s.srv with waiting := none } j .halt srv' → Moved s (.resume env) s
  | clock (now : Nat) : Moved s (.clock now) ⟨s.pc, { s.srv with now := now }, s.link⟩

end Exits

/-! ## Rules for the primitives -/

section Primitives

variable {α : Type} {s : State}

@[simp] theorem wp_update (f : Service → Service) (Q : Exit Error Unit → State → Prop) :
    wp (update f) Q s ↔ Q (.ok ()) { s with srv := f s.srv } := Iff.rfl

@[simp] theorem wp_record (l : List Event) (Q : Exit Error Unit → State → Prop) :
    wp (record l) Q s ↔ Q (.ok ()) { s with srv := s.srv.record l } := Iff.rfl

@[simp] theorem wp_service (Q : Exit Error Service → State → Prop) :
    wp service Q s ↔ Q (.ok s.srv) s := Iff.rfl

@[simp] theorem wp_require (a : Os) (err : Error) (Q : Exit Error Unit → State → Prop) :
    wp (require a err) Q s ↔
      if s.env.ok a 0 = true then Q (.ok ()) { s with env := s.env.advance a }
      else Q (.err err) { s with env := s.env.advance a } := by
  have hask : wp (ask a >>= fun b => if b = true then pure () else Prog.throw err) Q s ↔
      wp (if s.env.ok a 0 = true then pure () else Prog.throw err) Q
        { s with env := s.env.advance a } := Iff.rfl
  show wp (ask a >>= _) Q s ↔ _
  rw [hask, wp_ite]
  rfl

@[simp] theorem wp_ofExcept_ok (a : α) (Q : Exit Error α → State → Prop) :
    wp (ofExcept (.ok a)) Q s ↔ Q (.ok a) s := Iff.rfl

@[simp] theorem wp_ofExcept_error (err : Error) (Q : Exit Error α → State → Prop) :
    wp (ofExcept (.error err)) Q s ↔ Q (.err err) s := Iff.rfl

end Primitives

@[simp] theorem Env.advance_ok_ne (e : Env) {a b : Os} (h : b ≠ a) :
    (e.advance a).ok b = e.ok b := by
  simp only [Env.advance, h, if_false]

/-- Some packets have been prepared at most: the answers to the other calls are still to come. -/
structure Beside (s t : State) : Prop where
  link : t.link = s.link
  allocPayload : t.env.ok .allocPayload = s.env.ok .allocPayload
  allocTopic : t.env.ok .allocTopic = s.env.ok .allocTopic
  append : t.env.ok .append = s.env.ok .append

theorem Beside.refl (s : State) : Beside s s := ⟨rfl, rfl, rfl, rfl⟩

theorem serializeCheck_ok {X : Externs} {p : Packet} (h : Serializes X p) :
    serializeCheck (X.MQTTSerialize p workBuffer_len) = .ok (X.size p) := by
  have hpos : ¬X.MQTTSerialize p workBuffer_len ≤ 0 := by
    have := h.1
    omega
  have hlen : ¬(workBuffer_len : Int) < X.MQTTSerialize p workBuffer_len := by
    have := h.2
    omega
  simp only [serializeCheck, hpos, hlen, if_false]
  rfl

theorem serializeCheck_error {X : Externs} {p : Packet} (h : ¬Serializes X p) :
    serializeCheck (X.MQTTSerialize p workBuffer_len) = .error .packetlen := by
  unfold serializeCheck
  split
  · rfl
  · rename_i hpos
    split
    · rfl
    · rename_i hlen
      exact absurd ⟨by omega, by omega⟩ h

section Functions

variable (X : Externs)

/-- The mutex is taken, or the function has ended. -/
theorem take_spec {α : Type} {m : MqttM α} {Q : Exit Error α → State → Prop} {s : State}
    (hstuck : s.srv.waiting ≠ none → Q .halt s)
    (hfailed : ∀ t, Beside s t → t.srv = s.srv → s.env.ok .xSemaphoreTake 0 = false →
      Q (.err .SemaphoreTakeTimeout) t)
    (htaken : ∀ t, Beside s t → t.srv = s.srv →
      t.env.ok .xMessageBufferSend = s.env.ok .xMessageBufferSend → s.srv.waiting = none →
      s.env.ok .xSemaphoreTake 0 = true → wp m Q t) :
    wp (workBufferMutex.take >>= fun _ => m) Q s := by
  have hbeside : Beside s { s with env := s.env.advance .xSemaphoreTake } :=
    ⟨rfl, Env.advance_ok_ne _ (by decide), Env.advance_ok_ne _ (by decide),
      Env.advance_ok_ne _ (by decide)⟩
  unfold workBufferMutex.take
  rw [wp_bind, wp_bind, wp_service, thenPost_ok, wp_ite]
  cases hw : s.srv.waiting with
  | some j => exact hstuck (by simp [hw])
  | none =>
    rw [if_neg (by simp), wp_require]
    split
    · rename_i hok
      exact htaken _ hbeside rfl (Env.advance_ok_ne _ (by decide)) hw hok
    · rename_i hok
      exact hfailed _ hbeside rfl (Bool.eq_false_iff.mpr hok)

/-- `prepare` behind the mutex, with the generator left in `k`. -/
theorem prepare_spec {s t : State} {p : Packet} {k id : UInt16} {packetId : Option UInt16}
    (hid : packetId.getD 0 = id) (hbeside : Beside s t) (hsrv : t.srv = s.srv.withId k)
    (hsend : t.env.ok .xMessageBufferSend = s.env.ok .xMessageBufferSend)
    (hmutex : s.srv.waiting = none) (htake : s.env.ok .xSemaphoreTake 0 = true) :
    wp (prepare X p packetId)
      (fun x t' => Beside s t' ∧ Prepared X s.env.ok s.srv p k id x t'.srv) t := by
  have hused : t.srv.used X = s.srv.used X := by rw [hsrv]; rfl
  unfold prepare
  rw [wp_bind]
  by_cases hser : Serializes X p
  · rw [serializeCheck_ok hser, wp_ofExcept_ok, thenPost_ok]
    unfold sendtoTxQueue
    rw [wp_bind, wp_service, thenPost_ok, wp_ite, hused]
    split
    · rename_i hroom
      rw [wp_bind, wp_record, thenPost_ok, hsrv]
      exact ⟨⟨hbeside.link, hbeside.allocPayload, hbeside.allocTopic, hbeside.append⟩,
        .blocked hmutex htake hser (Nat.not_le.mpr hroom)⟩
    · rename_i hroom
      have hadv : ∀ a, a ≠ .xMessageBufferSend →
          (t.env.advance .xMessageBufferSend).ok a = t.env.ok a := fun a ha =>
        Env.advance_ok_ne _ ha
      rw [wp_bind, wp_require, hsend]
      split
      · rename_i hok
        rw [thenPost_ok, wp_bind, wp_update, thenPost_ok, hid, hsrv]
        refine ⟨⟨hbeside.link, ?_, ?_, ?_⟩, .queued ⟨hmutex, htake, hser, ?_, hok⟩⟩
        · exact (hadv _ (by decide)).trans hbeside.allocPayload
        · exact (hadv _ (by decide)).trans hbeside.allocTopic
        · exact (hadv _ (by decide)).trans hbeside.append
        · exact Nat.not_lt.mp hroom
      · rename_i hok
        rw [thenPost_err, hsrv]
        refine ⟨⟨hbeside.link, ?_, ?_, ?_⟩,
          .failed .enqueue_failed k (fun h => hok h.send) (by decide) (.inl rfl)⟩
        · exact (hadv _ (by decide)).trans hbeside.allocPayload
        · exact (hadv _ (by decide)).trans hbeside.allocTopic
        · exact (hadv _ (by decide)).trans hbeside.append
  · rw [serializeCheck_error hser, wp_ofExcept_error, thenPost_err, hsrv]
    exact ⟨hbeside, .failed .packetlen k (fun h => hser h.serializes) (by decide) (.inl rfl)⟩

/-- A function that takes the mutex and prepares `p`. -/
theorem prepared_spec (p : Packet) (packetId : Option UInt16) (s : State) :
    wp (workBufferMutex.take >>= fun _ => prepare X p packetId) (fun x t =>
      Beside s t ∧ Prepared X s.env.ok s.srv p s.srv.packetIdState (packetId.getD 0) x t.srv) s := by
  apply take_spec
  · intro hstuck
    exact ⟨.refl s, .stuck hstuck⟩
  · intro t hbeside hsrv hfail
    rw [hsrv]
    exact ⟨hbeside, .failed .SemaphoreTakeTimeout s.srv.packetIdState
      (fun h => by simp [h.take] at hfail) (by decide) (.inr ⟨hfail, rfl⟩)⟩
  · intro t hbeside hsrv hsend hmutex htake
    exact prepare_spec X rfl hbeside hsrv hsend hmutex htake

/-- `preparePublishPacket`: the generator is used unless an identifier is given. -/
theorem preparePublishPacket_spec (topic payload : List UInt8) (qos : QoS) (dup : Bool)
    (packetId : Option UInt16) (s : State) :
    wp (preparePublishPacket X topic payload qos dup packetId) (fun x t => Beside s t ∧
      Prepared X s.env.ok s.srv (publishPacket s.srv topic payload qos dup packetId)
        (publishState s.srv packetId) (publishId s.srv packetId) x t.srv) s := by
  apply take_spec
  · intro hstuck
    exact ⟨.refl s, .stuck hstuck⟩
  · intro t hbeside hsrv hfail
    rw [hsrv]
    exact ⟨hbeside, .failed .SemaphoreTakeTimeout s.srv.packetIdState
      (fun h => by simp [h.take] at hfail) (by decide) (.inr ⟨hfail, rfl⟩)⟩
  · intro t hbeside hsrv hsend hmutex htake
    cases packetId with
    | some id => exact prepare_spec X rfl hbeside hsrv hsend hmutex htake
    | none =>
      have hgen : generatePacketId t = (.ok (nextPacketId s.srv.packetIdState),
          { t with srv := s.srv.withId (nextPacketId s.srv.packetIdState) }) := by
        rw [← hsrv]
        rfl
      apply wp_of_same (Prog.bind_ok _ hgen)
      exact prepare_spec X rfl
        ⟨hbeside.link, hbeside.allocPayload, hbeside.allocTopic, hbeside.append⟩ rfl hsend hmutex
        htake

theorem prepareSubscribePacket_spec {topicFilter : List (List UInt8)} {qos : List QoS}
    (hlen : topicFilter.length = qos.length) (s : State) :
    wp (prepareSubscribePacket X topicFilter qos) (fun x t => Beside s t ∧
      Prepared X s.env.ok s.srv
        (.subscribe false (nextPacketId s.srv.packetIdState) (topicFilter.zip qos))
        (nextPacketId s.srv.packetIdState) (nextPacketId s.srv.packetIdState) x t.srv) s := by
  apply take_spec
  · intro hstuck
    exact ⟨.refl s, .stuck hstuck⟩
  · intro t hbeside hsrv hfail
    rw [hsrv]
    exact ⟨hbeside, .failed .SemaphoreTakeTimeout s.srv.packetIdState
      (fun h => by simp [h.take] at hfail) (by decide) (.inr ⟨hfail, rfl⟩)⟩
  · intro t hbeside hsrv hsend hmutex htake
    have hgen : generatePacketId t = (.ok (nextPacketId s.srv.packetIdState),
        { t with srv := s.srv.withId (nextPacketId s.srv.packetIdState) }) := by
      rw [← hsrv]
      rfl
    rw [if_neg (not_not_intro hlen)]
    apply wp_of_same (Prog.bind_ok _ hgen)
    exact prepare_spec X rfl
      ⟨hbeside.link, hbeside.allocPayload, hbeside.allocTopic, hbeside.append⟩ rfl hsend hmutex
      htake

theorem subscribePacket_spec (s : State) :
    wp (subscribePacket X) (fun x t => Beside s t ∧
      Prepared X s.env.ok s.srv (subscribeOf (nextPacketId s.srv.packetIdState))
        (nextPacketId s.srv.packetIdState) (nextPacketId s.srv.packetIdState) x t.srv) s :=
  prepareSubscribePacket_spec X rfl s

/-- `alloc`: the bytes are copied to a new block, or there is none. -/
theorem alloc_spec {α : Type} {a : Os} {bytes : List UInt8} {f : Buffer → MqttM α}
    {Q : Exit Error α → State → Prop} {s : State}
    (hfailed : ∀ t, t.link = s.link → t.srv = s.srv → ¬AllocOk s.env.ok a bytes →
      Q (.err .OutOfMemory) t)
    (hok : ∀ t, t.link = s.link → t.srv = (s.srv.alloc bytes).2 →
      (∀ b, b ≠ a → t.env.ok b = s.env.ok b) → AllocOk s.env.ok a bytes →
      wp (f (s.srv.alloc bytes).1) Q t) :
    wp (alloc a bytes >>= f) Q s := by
  by_cases hb : bytes = []
  · have hrun : alloc a bytes s = (.ok ⟨none, []⟩, s) := by
      unfold alloc
      rw [if_pos hb]
      rfl
    have halloc : s.srv.alloc bytes = (⟨none, []⟩, s.srv) := by
      simp only [Service.alloc, hb, if_true]
    rw [halloc] at hok
    apply wp_of_same (Prog.bind_ok f hrun)
    exact hok s rfl rfl (fun _ _ => rfl) (.inl hb)
  · have halloc : s.srv.alloc bytes = (⟨some s.srv.blocks, bytes⟩,
        { s.srv with heap := s.srv.heap ++ [.acquire s.srv.blocks], blocks := s.srv.blocks + 1 }) := by
      simp only [Service.alloc, hb, if_false]
    rw [halloc] at hok
    rw [wp_bind]
    unfold alloc
    rw [if_neg hb, wp_bind, wp_require]
    split
    · rename_i hans
      exact hok _ rfl rfl (fun b hne => Env.advance_ok_ne _ hne) (.inr hans)
    · rename_i hans
      exact hfailed _ rfl rfl fun h => h.elim hb hans

theorem append_spec (q : Queue) (m : QueuedMessage) (s : State) :
    wp (append q m) (fun x t => t.link = s.link ∧
      ((s.env.ok .append 0 = true ∧ x = .ok () ∧
          t.srv = s.srv.setQueue q (s.srv.queue q ++ [m])) ∨
        (s.env.ok .append 0 = false ∧ x = .err .OutOfMemory ∧ t.srv = s.srv))) s := by
  unfold append
  rw [wp_bind, wp_require]
  split
  · rename_i hok
    exact ⟨rfl, .inl ⟨hok, rfl, rfl⟩⟩
  · rename_i hok
    exact ⟨rfl, .inr ⟨Bool.eq_false_iff.mpr hok, rfl, rfl⟩⟩

theorem addPublish_spec (q : Queue) (packetId : UInt16) (qos : QoS) (dup retained : Bool)
    (topic payload : List UInt8) (deadline : Nat) (s : State) :
    wp (addPublish q packetId qos dup retained topic payload deadline) (fun x t =>
      t.link = s.link ∧
        Stored s.env.ok s.srv q packetId qos dup retained topic payload deadline x t.srv) s := by
  unfold addPublish
  apply alloc_spec
  · intro t hlink hsrv hfail
    rw [hsrv]
    exact ⟨hlink, .noPayload hfail⟩
  intro t₁ hlink₁ hsrv₁ hans₁ hpayload
  have htopic : AllocOk t₁.env.ok .allocTopic topic ↔ AllocOk s.env.ok .allocTopic topic := by
    unfold AllocOk
    rw [hans₁ _ (by decide)]
  apply alloc_spec
  · intro t hlink hsrv hfail
    rw [hsrv, hsrv₁]
    exact ⟨hlink.trans hlink₁, .noTopic hpayload fun h => hfail (htopic.mpr h)⟩
  intro t₂ hlink₂ hsrv₂ hans₂ hok
  have happend : t₂.env.ok .append = s.env.ok .append := by
    rw [hans₂ _ (by decide), hans₁ _ (by decide)]
  refine wp_mono (append_spec q _ t₂) ?_
  intro x t hx
  obtain ⟨hlink, ⟨happ, rfl, hsrv⟩ | ⟨happ, rfl, hsrv⟩⟩ := hx
  · refine ⟨(hlink.trans hlink₂).trans hlink₁, ?_⟩
    rw [hsrv, hsrv₂, hsrv₁]
    exact .stored ⟨hpayload, htopic.mp hok, happend ▸ happ⟩
  · refine ⟨(hlink.trans hlink₂).trans hlink₁, ?_⟩
    rw [hsrv, hsrv₂, hsrv₁]
    exact .noAppend hpayload (htopic.mp hok) (happend ▸ happ)

/-- `calculateDeadline`: the sum is a `u32`. -/
theorem calculateDeadline_spec {α : Type} {timeout_s : Nat} {f : Nat → MqttM α}
    {Q : Exit Error α → State → Prop} {s : State}
    (hok : s.srv.now ≤ u32_max - timeout_s → wp (f (s.srv.now + timeout_s)) Q s)
    (htrap : u32_max - timeout_s < s.srv.now → Q .trap s) :
    wp (calculateDeadline timeout_s >>= f) Q s := by
  have hrun : calculateDeadline timeout_s s =
      (if s.srv.now ≤ u32_max - timeout_s then pure (s.srv.now + timeout_s) else Prog.trap :
        MqttM Nat) s := rfl
  by_cases hle : s.srv.now ≤ u32_max - timeout_s
  · rw [if_pos hle] at hrun
    apply wp_of_same (Prog.bind_ok f hrun)
    exact hok hle
  · rw [if_neg hle] at hrun
    exact wp_of_eq (Prog.bind_trap f hrun) (htrap (Nat.not_le.mp hle))

/-- What is stored depends on three answers only. -/
theorem Stored.congr {ok ok' : Os → Nat → Bool} {s s' : Service} {q : Queue} {packetId : UInt16} {qos : QoS}
    {dup retained : Bool} {topic payload : List UInt8} {deadline : Nat} {x : Exit Error Unit}
    (h : Stored ok' s q packetId qos dup retained topic payload deadline x s')
    (hp : ok' .allocPayload = ok .allocPayload) (ht : ok' .allocTopic = ok .allocTopic)
    (ha : ok' .append = ok .append) :
    Stored ok s q packetId qos dup retained topic payload deadline x s' := by
  have hpayload : AllocOk ok' .allocPayload payload ↔ AllocOk ok .allocPayload payload := by
    unfold AllocOk
    rw [hp]
  have htopic : AllocOk ok' .allocTopic topic ↔ AllocOk ok .allocTopic topic := by
    unfold AllocOk
    rw [ht]
  cases h with
  | stored h => exact .stored ⟨hpayload.mp h.payload, htopic.mp h.topic, ha ▸ h.append⟩
  | noPayload h => exact .noPayload fun hok => h (hpayload.mpr hok)
  | noTopic h h' => exact .noTopic (hpayload.mp h) fun hok => h' (htopic.mpr hok)
  | noAppend h h' h'' => exact .noAppend (hpayload.mp h) (htopic.mp h') (ha ▸ h'')

theorem publish_spec (topic payload : List UInt8) (qos : QoS) (dup : Bool)
    (packetId : Option UInt16) (deadline : Nat) (s : State) :
    wp (publish X topic payload qos dup packetId deadline) (fun x t => t.link = s.link ∧
      Published X s.env.ok s.srv topic payload qos dup packetId deadline x t.srv) s := by
  unfold publish
  rw [wp_bind]
  refine wp_mono (preparePublishPacket_spec X topic payload qos dup packetId s) ?_
  intro x t hx
  obtain ⟨hbeside, hprep⟩ := hx
  generalize hsrv : t.srv = s' at hprep
  cases hprep with
  | queued hready =>
    rw [thenPost_ok]
    refine wp_mono (addPublish_spec .qosQueue _ qos dup false topic payload deadline t) ?_
    intro x t' hx
    obtain ⟨hlink, hstored⟩ := hx
    rw [hsrv] at hstored
    exact ⟨hlink.trans hbeside.link, .queued x _ hready
      (hstored.congr hbeside.allocPayload hbeside.allocTopic hbeside.append)⟩
  | failed err k' hready herr hk =>
    rw [thenPost_err, hsrv]
    exact ⟨hbeside.link, .failed err _ (.failed err k' hready herr hk)⟩
  | stuck hstuck =>
    rw [thenPost_halt, hsrv]
    exact ⟨hbeside.link, .halted _ (.stuck hstuck)⟩
  | blocked hmutex htake hser hroom =>
    rw [thenPost_halt, hsrv]
    exact ⟨hbeside.link, .halted _ (.blocked hmutex htake hser hroom)⟩

/-- PUBREL is sent, and kept in `qosQueue` until it is answered. -/
theorem pubrel_spec (packetId : UInt16) (dup stored : Bool) (s : State) :
    wp (do
      let ret ← preparePubRelPacket X packetId dup
      let deadline ← calculateDeadline 2000
      addPubRel .qosQueue ret stored deadline) (fun x t => t.link = s.link ∧
        Released X s.env.ok s.srv packetId dup stored x t.srv) s := by
  rw [wp_bind]
  refine wp_mono (prepared_spec X (.pubrel dup packetId) (some packetId) s) ?_
  intro x t hx
  obtain ⟨hbeside, hprep⟩ := hx
  generalize hsrv : t.srv = s' at hprep
  cases hprep with
  | queued hready =>
    have hnow : t.srv.now = s.srv.now := by rw [hsrv]; rfl
    rw [thenPost_ok]
    apply calculateDeadline_spec
    · intro _
      rw [hnow]
      refine wp_mono (append_spec .qosQueue _ t) ?_
      intro x t' hx
      rw [hbeside.append, hsrv] at hx
      obtain ⟨hlink, ⟨happ, rfl, hsrv'⟩ | ⟨happ, rfl, hsrv'⟩⟩ := hx
      · rw [hsrv']
        exact ⟨hlink.trans hbeside.link, .queued hready happ⟩
      · rw [hsrv']
        exact ⟨hlink.trans hbeside.link, .noAppend hready happ⟩
    · intro hlt
      rw [hnow] at hlt
      rw [hsrv]
      exact ⟨hbeside.link, .overflow hready hlt⟩
  | failed err k' hready herr hk =>
    rw [thenPost_err, hsrv]
    exact ⟨hbeside.link, .failed err _ (.failed err k' hready herr hk)⟩
  | stuck hstuck =>
    rw [thenPost_halt, hsrv]
    exact ⟨hbeside.link, .halted _ (.stuck hstuck)⟩
  | blocked hmutex htake hser hroom =>
    rw [thenPost_halt, hsrv]
    exact ⟨hbeside.link, .halted _ (.blocked hmutex htake hser hroom)⟩

theorem deliver_spec (packetId : UInt16) (r : publish_response) (s : State) :
    wp (deliver packetId r >>= fun flow => pure flow.next) (fun x t => t.link = s.link ∧
      Delivered s.env.ok s.srv packetId r x t.srv) s := by
  unfold deliver
  cases htopic : r.topic with
  | none => exact ⟨rfl, .undefined htopic⟩
  | some topic =>
    by_cases hqos : r.qos = .qos2
    · simp only [hqos, ne_eq, not_true_eq_false, if_false]
      rw [wp_bind]
      apply calculateDeadline_spec
      · intro hnow
        rw [wp_bind]
        refine wp_mono (addPublish_spec .qos2Queue packetId .qos2 r.dup r.retained topic r.payload
          (s.srv.now + 2000) s) ?_
        intro x t hx
        obtain ⟨hlink, hstored⟩ := hx
        cases x with
        | ok u => exact ⟨hlink, .kept topic _ htopic hqos hstored hnow⟩
        | err err => exact ⟨hlink, .lost topic err _ htopic hqos hstored hnow⟩
        | trap => nomatch hstored
        | halt => nomatch hstored
      · intro hlt
        exact ⟨rfl, .overflow topic htopic hqos hlt⟩
    · simp only [hqos, ne_eq, not_false_eq_true, if_true]
      by_cases hshort : topic.length < fw_update_topic.length
      · rw [if_pos hshort]
        exact ⟨rfl, .short topic htopic hqos hshort⟩
      · rw [if_neg hshort]
        by_cases hfw : topic.take fw_update_topic.length = fw_update_topic
        · rw [if_pos hfw]
          exact ⟨rfl, .reset topic htopic hqos (List.prefix_iff_eq_take.mpr hfw.symm)⟩
        · have hnot : ¬fw_update_topic <+: topic := fun h =>
            hfw (List.prefix_iff_eq_take.mp h).symm
          rw [if_neg hfw]
          unfold bufPrint
          split
          · rename_i hlen
            exact ⟨rfl, .printed topic htopic hqos (Nat.not_lt.mp hshort) hnot hlen⟩
          · rename_i hlen
            exact ⟨rfl, .noSpace topic htopic hqos hnot (Nat.not_le.mp hlen)⟩

end Functions

end Miso.Mqtt

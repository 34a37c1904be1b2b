import Miso.Mqtt.Service
import Miso.Zig.System

/-!
# Runs of the MQTT service

`taskFunction` in steps, and the system in which the timer callbacks interleave with them.

* `taskStep` — a step of the task leads from one `Pc` to the next; an error of a step is dealt
  with by the `errdefer` and `defer` in force there (`Pc.handler`).
* `mqtt` — the system takes an `Input`: a step of the task, a callback, a callback that goes on
  after it has waited for room, or a change of the clock.  An input that runs code comes with the
  answers of its environment.

A callback is atomic and runs between two steps of the task.  In the firmware the timer task has the
higher priority and `qosQueue` no lock: what a callback does in the middle of a step is not modelled.
-/

namespace Miso.Mqtt

open Zig Net

/-! ## The task -/

/-- The callers of `processSendQueue`, with the variables they still need. -/
inductive Drain where
  | connect
  | subscribe (packetId : UInt16)
  | cycle
  | publish (packetId : UInt16) (r : publish_response)
  | pubrel (packetId : UInt16) (msg : QueuedMessage)
  | disconnect (err : Error)
  deriving DecidableEq, Repr

/-- Where `taskFunction` is. -/
inductive Pc where
  | start
  /-- In `connect`: before `open`, CONNECT, CONNACK, SUBSCRIBE and SUBACK. -/
  | connect
  | connectPacket
  | connack
  | subscribe
  | suback (packetId : UInt16)
  /-- In `loop`: at the two loops over expired messages and at the receive loop. -/
  | retransmit
  | expire
  | receive
  /-- In `processSendQueue`. -/
  | drain (caller : Drain)
  /-- In the publish and pubrel handlers, behind `processSendQueue`. -/
  | deliver (packetId : UInt16) (r : publish_response)
  | complete (packetId : UInt16) (msg : QueuedMessage)
  /-- At the `errdefer` of `connect`. -/
  | refused (err : Error)
  /-- At the deferred `disconnect`, and at its own `defer`. -/
  | disconnect (err : Error)
  | close (err : Error)
  /-- At the `catch` of `taskFunction`. -/
  | lost (err : Error)
  /-- The task waits for ever, or is observed no longer. -/
  | halted
  | trapped
  deriving DecidableEq, Repr

/-- Where `processSendQueue` returns to. -/
def Drain.next : Drain → Pc
  | connect => .connack
  | subscribe packetId => .suback packetId
  | cycle => .receive
  | publish packetId r => .deliver packetId r
  | pubrel packetId msg => .complete packetId msg
  | disconnect err => .close err

/-- Where an error in `processSendQueue` leads to. -/
def Drain.handler : Drain → Error → Pc
  | connect, e => .refused e
  | subscribe _, e => .refused e
  | cycle, e => .disconnect e
  | publish _ _, e => .disconnect e
  | pubrel _ _, e => .disconnect e
  | disconnect err, _ => .close err

/-- Where an error leads to. -/
def Pc.handler : Pc → Error → Pc
  | connect, e => .refused e
  | connectPacket, e => .refused e
  | connack, e => .refused e
  | subscribe, e => .refused e
  | suback _, e => .refused e
  | retransmit, e => .disconnect e
  | expire, e => .disconnect e
  | receive, e => .disconnect e
  | deliver _ _, e => .disconnect e
  | complete _ _, e => .disconnect e
  | drain caller, e => caller.handler e
  | disconnect err, _ => .close err
  | close err, _ => .lost err
  | refused err, _ => .lost err
  | lost _, _ => .connect
  | start, e => .lost e
  | halted, _ => .halted
  | trapped, _ => .trapped

/-- The task waits for a packet. -/
def Pc.waits : Pc → Bool
  | connack => true
  | suback _ => true
  | receive => true
  | _ => false

def Flow.next : Flow → Pc
  | .again => .receive
  | .break => .retransmit

section Task

variable (X : Externs) (fuel : Nat)

/-- The publish handler up to `processSendQueue`. -/
def publishStep (fields : Option PublishFields) : MqttM Pc := do
  let r ← ofExcept (deserializePublish fields)
  let packetId ← answerPublish X r
  if r.qos = .qos1 then pure (.drain (.publish packetId r))
  else do
    let flow ← deliver packetId r
    pure flow.next

/-- The pubrel handler up to `processSendQueue`. -/
def pubrelStep (fields : Option AckFields) : MqttM Pc := do
  let packetId ← ofExcept (deserializePubrel fields)
  match ← QueuedMessgeQueue.findAndRemove .qos2Queue packetId with
  | some msg =>
    let _ ← preparePubCompPacket X packetId
    pure (.drain (.pubrel packetId msg))
  | none => pure .receive

/-- `dispatch`, up to `processSendQueue` where a handler calls it. -/
def dispatchStep : Inbound → MqttM Pc
  | .publish fields => publishStep X fields
  | .pubrel fields => pubrelStep X fields
  | m => do
    let flow ← dispatch X fuel m
    pure flow.next

/-- One step of `taskFunction`. -/
def taskStep : Pc → MqttM Pc
  | .start => do
    update fun s => { s with connectionCounter := 0, disconnectionCounter := 0, pingCounter := 0,
                             pingQueue := none }
    pure .connect
  | .connect => do
    update fun s => { s with state := .connecting, connectionCounter := s.connectionCounter + 1 }
    connection.open fuel X.config_get_mqtt_url
    pure .connectPacket
  | .connectPacket => do
    let _ ← prepareConnectPacket X X.config_get_mqtt_device_id none none
    pure (.drain .connect)
  | .connack => do
    awaitConnack
    pure .subscribe
  | .subscribe => do
    let packetId ← subscribePacket X
    pure (.drain (.subscribe packetId))
  | .suback packetId => do
    awaitSuback packetId
    update fun s => { s with state := .connected, pingTimer := true, pubTimer := true }
    pure .retransmit
  | .retransmit => do
    match ← retransmit X with
    | .inl () => pure .retransmit
    | .inr () => pure .expire
  | .expire => do
    match ← expire with
    | .inl () => pure .expire
    | .inr () => pure (.drain .cycle)
  | .drain caller => do
    match ← sendNext X fuel with
    | .inl () => pure (.drain caller)
    | .inr () => pure caller.next
  | .receive => do
    if ← (connection.waitRx 1).tryCatch fun _ => pure false then
      dispatchStep X fuel (← read)
    else pure .retransmit
  | .deliver packetId r => do
    let flow ← deliver packetId r
    pure flow.next
  | .complete packetId msg => do
    complete packetId msg
    pure .receive
  | .refused err => do
    update fun s => { s with state := .err }
    connection.close.orIgnore
    pure (.lost err)
  | .disconnect err => do
    update fun s => { s with pingTimer := false, pubTimer := false }
    let _ ← prepareDisconnectPacket X
    pure (.drain (.disconnect err))
  | .close err => do
    connection.close.orIgnore
    update fun s => { s with disconnectionCounter := s.disconnectionCounter + 1 }
    pure (.lost err)
  | .lost err => do
    if err = .create_error then update fun s => { s with pingQueue := none }
    pure .connect
  | .halted => Prog.halt id
  | .trapped => Prog.trap

end Task

/-- Where the exit of a step leads to. -/
def Pc.next (pc : Pc) : Exit Error Pc → Pc
  | .ok pc' => pc'
  | .err e => pc.handler e
  | .trap => .trapped
  | .halt => .halted

/-! ## The system -/

/-- The answers of the environment to one step of the task. -/
structure Answers where
  env : Env
  code : Api → Nat → Int
  auth : Nat → Except auth_error Unit
  fuel : Nat

/-- The task and the state it works on. -/
structure Sys where
  pc : Pc
  srv : Service
  link : Link

inductive Input where
  /-- A step of the task. -/
  | task (a : Answers)
  /-- A callback of a timer, or a `publish` of the application. -/
  | job (j : Job) (env : Env)
  /-- The callback that waits goes on. -/
  | resume (env : Env)
  /-- Time passes, or is set. -/
  | clock (now : Nat)

namespace Job

variable (X : Externs)

/-- The callback; the error of a `publish` is its caller's. -/
def run : Job → MqttM Unit
  | pingTimer curr_tick => Mqtt.pingTimer X curr_tick
  | pubTimer => Mqtt.pubTimer X
  | publish topic payload qos => do
    let deadline ← calculateDeadline 2000
    (Mqtt.publish X topic payload qos false none deadline).orIgnore

/-- The callback from where it waits for room. -/
def rest : Job → MqttM Unit
  | pingTimer _ => do
    let _ ← (preparePingPacket X).orUnreachable
  | pubTimer => run X .pubTimer
  | publish topic payload qos => run X (.publish topic payload qos)

/-- What a callback has done when it begins to wait. -/
def begun : Job → Service → Service
  | pingTimer curr_tick, s =>
    { s with pingQueue := some curr_tick, pingCounter := s.pingCounter + 1, log := s.log ++ [.ping] }
  | pubTimer, s => s
  | publish _ _ _, s => s

/-- The timer of the callback runs; the application publishes when it likes. -/
def active : Job → Service → Bool
  | pingTimer _, s => s.pingTimer
  | pubTimer, s => s.pubTimer
  | publish _ _ _, _ => true

end Job

namespace Sys

variable (X : Externs)

/-- The state in which a step of the task begins. -/
def start (s : Sys) (a : Answers) : State :=
  { srv := s.srv, link := { s.link with code := a.code, auth := a.auth }, env := a.env }

/-- The system after the task has been run. -/
def tasked (s : Sys) (r : Exit Error Pc × State) : Sys :=
  { pc := s.pc.next r.1, srv := r.2.srv, link := r.2.link }

/-- The system after a callback; one that finds no room leaves the service to `stuck`. -/
def called (s : Sys) (stuck : Service) (r : Exit Error Unit × State) : Sys :=
  match r.1 with
  | .ok _ => { s with srv := r.2.srv }
  | .err _ => { s with srv := r.2.srv }
  | .trap => { s with pc := .trapped, srv := r.2.srv }
  | .halt => { s with srv := stuck }

def next (s : Sys) : Input → Sys
  | .task a => s.tasked (taskStep X a.fuel s.pc (s.start a))
  | .job j env =>
    s.called { j.begun s.srv with waiting := some j } (j.run X ⟨s.srv, s.link, env⟩)
  | .resume env =>
    match s.srv.waiting with
    | none => s
    | some j => s.called s.srv (j.rest X ⟨{ s.srv with waiting := none }, s.link, env⟩)
  | .clock now => { s with srv := { s.srv with now := now } }

/-- Nothing happens after a trap; one callback waits at a time. -/
def Enabled (s : Sys) : Input → Prop
  | .task _ => s.pc ≠ .halted ∧ s.pc ≠ .trapped
  | .job j _ => s.pc ≠ .trapped ∧ s.srv.waiting = none ∧ j.active s.srv = true
  | .resume _ => s.pc ≠ .trapped
  | .clock _ => s.pc ≠ .trapped

instance (s : Sys) : ∀ i : Input, Decidable (s.Enabled i)
  | .task _ => inferInstanceAs (Decidable (_ ∧ _))
  | .job _ _ => inferInstanceAs (Decidable (_ ∧ _ ∧ _))
  | .resume _ => inferInstanceAs (Decidable (_ ≠ _))
  | .clock _ => inferInstanceAs (Decidable (_ ≠ _))

end Sys

/-- The MQTT service as a system. -/
def mqtt (X : Externs) : System Sys Input where
  Enabled := Sys.Enabled
  next := Sys.next X

instance (X : Externs) (s : Sys) (i : Input) : Decidable ((mqtt X).Enabled s i) :=
  inferInstanceAs (Decidable (s.Enabled i))

/-- Nothing happens after a trap. -/
theorem enabled_untrapped {X : Externs} {s : Sys} {i : Input} (h : (mqtt X).Enabled s i) :
    s.pc ≠ .trapped := by
  cases i with
  | task a => exact h.2
  | job j env => exact h.1
  | resume env => exact h
  | clock now => exact h

/-- `init()`, and what `create` adds to it; the clock may show anything. -/
def Service.init (now : Nat) : Service where
  connectionCounter := 0
  disconnectionCounter := 0
  pingCounter := 0
  pingTimer := false
  pubTimer := false
  state := .not_connected
  packetIdState := 1
  txQueue := []
  waiting := none
  qosQueue := []
  qos2Queue := []
  pingQueue := none
  now := now
  heap := []
  blocks := 0
  log := []

/-- The task at its beginning, over a connection that has never been opened. -/
structure Initial (s : Sys) : Prop where
  pc : s.pc = .start
  srv : s.srv = .init s.srv.now
  link : s.link.log = []

/-! ## Scripts -/

/-- Answers with which no call fails: `m` has arrived, and a write takes `written` bytes. -/
def Answers.smooth (m : Option Inbound) (written : Int) : Answers where
  env := ⟨fun _ _ => true, fun _ => some m.isSome, fun _ => m.getD .try_again⟩
  code := fun a _ => if a = .mbedtls_ssl_write then written else 0
  auth := fun _ => .ok ()
  fuel := 8

namespace Inbound

/-- A PUBLISH with quality of service 2. -/
def publish2 (dup : Bool) (packetId : UInt16) (topic payload : List UInt8) : Inbound :=
  .publish (some ⟨dup, 2, false, packetId, topic, payload⟩)

/-- A PUBREL. -/
def release (packetId : UInt16) : Inbound := .pubrel (some ⟨.pubrel, false, packetId⟩)

end Inbound

namespace Input

/-- A step of the task in which nothing has to be received or sent. -/
def go : Input := .task (.smooth none 0)

/-- `m` arrives. -/
def receive (m : Inbound) : Input := .task (.smooth (some m) 0)

/-- The next packet of `txQueue` is sent. -/
def send (written : Int) : Input := .task (.smooth none written)

/-- `pubTimer` expires. -/
def pub : Input := .job .pubTimer (Answers.smooth none 0).env

/-- The loops over expired messages find none, and `txQueue` is empty. -/
def rounds : List Input := [go, go, go]

/-- `connect` up to the wait for CONNACK, with the documented serialisers. -/
def connecting : List Input := [go, go, send 18, go]

/-- `connect` behind the wait for CONNACK. -/
def subscribing (packetId : UInt16) : List Input :=
  [go, send 24, go, receive (.suback (some (packetId, [1, 2])))]

/-- The first `connect`. -/
def established : List Input :=
  [go] ++ connecting ++ [receive (.connack (some 0))] ++ subscribing 33153

end Input

/-- The service at power-up, over a link whose answers come with the inputs. -/
def Sys.initial : Sys := ⟨.start, .init 0, ⟨fun _ _ => 0, fun _ => .ok (), -1, []⟩⟩

theorem Sys.initial_initial : Initial Sys.initial := ⟨rfl, rfl, rfl⟩

end Miso.Mqtt

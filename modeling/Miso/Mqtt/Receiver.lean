import Miso.Mqtt.Queues

/-!
# The receiving side

What a step of the service does to the messages of quality of service 2 that it receives: PUBREC
is queued and the message is stored in `qos2Queue`; PUBREL takes it out again, and behind PUBCOMP
it is handed over.

* `Receiver` — the ways in which a step of the task deals with such messages;
* `Taken.receiver` — every step deals with them in one of these ways.
-/

namespace Miso.Mqtt

open Zig Net

/-! ## Messages -/

/-- A message under its packet identifier. -/
structure Message where
  packetId : UInt16
  topic : List UInt8
  payload : List UInt8
  deriving DecidableEq, Repr

/-- The message of an entry. -/
def QueuedMessage.message (m : QueuedMessage) : Option Message :=
  match m.content with
  | .publish topic payload => some ⟨m.packetId, topic.bytes, payload.bytes⟩
  | .pubrel => none

def publish_response.message (r : publish_response) : Option Message :=
  r.topic.map fun topic => ⟨r.packetId, topic, r.payload⟩

/-- A PUBLISH with quality of service 2. -/
def Inbound.qos2 : Inbound → Option publish_response
  | .publish fields =>
    match deserializePublish fields with
    | .ok r => if r.qos = .qos2 then some r else none
    | .error _ => none
  | _ => none

/-- The identifier of a PUBREL. -/
def Inbound.released : Inbound → Option UInt16
  | .pubrel fields => (deserializePubrel fields).toOption
  | _ => none

/-- The event is not about messages of quality of service 2 that are received. -/
def Event.aside : Event → Bool
  | .received _ => false
  | .queued (.pubrec _) => false
  | .queued (.pubcomp _) => false
  | .handover _ qos _ _ => qos ≠ .qos2
  | _ => true

/-- The message that the pubrel handler is about to hand over. -/
def Pc.hand : Pc → Option (UInt16 × QueuedMessage)
  | drain (.pubrel packetId msg) => some (packetId, msg)
  | complete packetId msg => some (packetId, msg)
  | _ => none

/-- The publish handler goes on behind `processSendQueue` for quality of service 1 only. -/
def Pc.Acked : Pc → Prop
  | drain (.publish _ r) => r.qos ≠ .qos2
  | deliver _ r => r.qos ≠ .qos2
  | _ => True

theorem qos2_eq {fields : Option PublishFields} {r : publish_response}
    (hr : deserializePublish fields = .ok r) (hqos : r.qos = .qos2) :
    (Inbound.publish fields).qos2 = some r := by
  simp [Inbound.qos2, hr, hqos]

theorem qos2_qos {m : Inbound} {r : publish_response} (h : m.qos2 = some r) : r.qos = .qos2 := by
  cases m with
  | publish fields =>
    simp only [Inbound.qos2] at h
    split at h
    · split at h
      · rename_i hqos
        cases h
        exact hqos
      · cases h
    · cases h
  | _ => cases h

theorem qos2_none {fields : Option PublishFields} {r : publish_response}
    (hr : deserializePublish fields = .ok r) (hqos : r.qos ≠ .qos2) :
    (Inbound.publish fields).qos2 = none := by
  simp [Inbound.qos2, hr, hqos]

theorem released_eq {fields : Option AckFields} {id : UInt16}
    (hid : deserializePubrel fields = .ok id) : (Inbound.pubrel fields).released = some id := by
  simp [Inbound.released, hid, Except.toOption]

/-! ## Steps -/

section Steps

variable (X : Externs)

/-- The text about the message fits into the buffer of the pubrel handler. -/
def QueuedMessage.Prints (packetId : UInt16) (m : QueuedMessage) : Prop :=
  match m.content with
  | .publish topic payload =>
    (messageText pubrelWords packetId m.qos topic.bytes payload.bytes).length ≤ printBuffer_len
  | .pubrel => False

instance (packetId : UInt16) : ∀ m : QueuedMessage, Decidable (m.Prints packetId)
  | ⟨_, _, _, _, .publish _ _, _⟩ => inferInstanceAs (Decidable (_ ≤ _))
  | ⟨_, _, _, _, .pubrel, _⟩ => inferInstanceAs (Decidable False)

/-- The pubrel handler goes on to hand the message over. -/
def Pc.Finishes (fuel : Nat) (l : Link) (s : Service) : Pc → Prop
  | drain (.pubrel _ _) => ∀ p ∈ s.txQueue.head?,
    (TlsContext.send_tls fuel (X.size p) l).1.returned = true
  | complete packetId msg => msg.Prints packetId
  | _ => True

instance (fuel : Nat) (l : Link) (s : Service) : ∀ pc : Pc, Decidable (pc.Finishes X fuel l s)
  | .drain (.pubrel _ _) => inferInstanceAs (Decidable (∀ _ ∈ _, _))
  | .complete _ _ => inferInstanceAs (Decidable (QueuedMessage.Prints _ _))
  | .drain .connect | .drain (.subscribe _) | .drain .cycle | .drain (.publish _ _)
  | .drain (.disconnect _) | .start | .connect | .connectPacket | .connack | .subscribe | .suback _
  | .retransmit | .expire | .receive | .deliver _ _ | .refused _ | .disconnect _ | .close _
  | .lost _ | .halted | .trapped => inferInstanceAs (Decidable True)

/-- A PUBREL finds a message, and PUBCOMP can be queued. -/
def Inbound.Finds (ok : Os → Nat → Bool) (s : Service) (m : Inbound) : Prop :=
  ∀ id ∈ m.released,
    (removeFirst (fun m => m.packetId = id) s.qos2Queue).isSome = true ∧ Ready X ok s (.pubcomp id)

-- by the content of the option, not by enumeration of the identifiers
instance (ok : Os → Nat → Bool) (s : Service) (m : Inbound) : Decidable (m.Finds X ok s) :=
  Option.decidableForallMem _

/-- The packet read in the receive loop is as `C` says, PUBRELs are read nowhere else, and the
pubrel handler finishes what it has begun. -/
def Pc.Handles (C : Inbound → Prop) (a : Answers) (s : Service) (l : Link) : Pc → Prop
  | receive => a.env.waitRx 0 = some true → C (a.env.read 0)
  | connack => a.env.waitRx 0 = some true → (a.env.read 0).released = none
  | suback _ => a.env.waitRx 0 = some true → (a.env.read 0).released = none
  | pc => pc.Finishes X a.fuel l s

instance (C : Inbound → Prop) [DecidablePred C] (a : Answers) (s : Service) (l : Link) :
    ∀ pc : Pc, Decidable (pc.Handles X C a s l)
  | .receive | .connack | .suback _ => inferInstanceAs (Decidable (_ → _))
  | .drain caller => inferInstanceAs (Decidable (Pc.Finishes X a.fuel l s (.drain caller)))
  | .complete packetId msg =>
    inferInstanceAs (Decidable (Pc.Finishes X a.fuel l s (.complete packetId msg)))
  | .start | .connect | .connectPacket | .subscribe | .retransmit | .expire | .deliver _ _
  | .refused _ | .disconnect _ | .close _ | .lost _ | .halted | .trapped =>
    inferInstanceAs (Decidable True)

/-- The packet changes nothing on the receiving side. -/
structure Inbound.Passes (ok : Os → Nat → Bool) (s : Service) (m : Inbound) : Prop where
  publish : ∀ r, m.qos2 = some r → ¬Ready X ok s (.pubrec r.packetId)
  pubrel : ∀ id, m.released = some id → removeFirst (fun m => m.packetId = id) s.qos2Queue = none

/-- **What a step of the task does on the receiving side.** -/
inductive Receiver (e : Env) (fuel : Nat) (l : Link) (s : Service) (pc : Pc) :
    Exit Error Pc → Service → Prop where
  | aside (x : Exit Error Pc) (s' : Service) : Untouched Event.aside .qos2Queue s s' →
    (pc.next x).hand = pc.hand → Receiver e fuel l s pc x s'
  | unfinished (x : Exit Error Pc) (s' : Service) : ¬pc.Finishes X fuel l s →
    Untouched Event.aside .qos2Queue s s' → (pc.next x).hand = none → Receiver e fuel l s pc x s'
  | read (x : Exit Error Pc) (s' : Service) : pc.waits = true → e.waitRx 0 = some true →
    (pc = .receive → (e.read 0).Passes X e.ok s) →
    Untouched Event.aside .qos2Queue (s.record [.received (e.read 0)]) s' →
    (pc.next x).hand = none → Receiver e fuel l s pc x s'
  | kept (r : publish_response) (x : Exit Error Pc) (s' : Service) : pc = .receive →
    e.waitRx 0 = some true → (e.read 0).qos2 = some r → Ready X e.ok s (.pubrec r.packetId) →
    Delivered e.ok ((s.record [.received (e.read 0)]).enqueue (.pubrec r.packetId)) r.packetId r x
      s' → Receiver e fuel l s pc x s'
  | released (id : UInt16) (msg : QueuedMessage) (rest : List QueuedMessage) : pc = .receive →
    e.waitRx 0 = some true → (e.read 0).released = some id →
    removeFirst (fun m => m.packetId = id) s.qos2Queue = some (msg, rest) →
    Ready X e.ok s (.pubcomp id) →
    Receiver e fuel l s pc (.ok (.drain (.pubrel id msg)))
      ({ s.record [.received (e.read 0)] with qos2Queue := rest }.enqueue (.pubcomp id))
  | unreleased (id : UInt16) (msg : QueuedMessage) (rest : List QueuedMessage) (x : Exit Error Pc)
      (s' : Service) : pc = .receive → e.waitRx 0 = some true → (e.read 0).released = some id →
    removeFirst (fun m => m.packetId = id) s.qos2Queue = some (msg, rest) →
    ¬Ready X e.ok s (.pubcomp id) →
    Untouched Event.aside .qos2Queue { s.record [.received (e.read 0)] with qos2Queue := rest } s' →
    (pc.next x).hand = none → Receiver e fuel l s pc x s'
  | expired (msg : QueuedMessage) (rest : List QueuedMessage) (x : Exit Error Pc) (s' : Service) :
    pc = .expire → removeFirst (Mqtt.expired s.now) s.qos2Queue = some (msg, rest) →
    s'.qos2Queue = rest → Extends s s' [] → (pc.next x).hand = none →
    Receiver e fuel l s pc x s'
  | completed (id : UInt16) (msg : QueuedMessage) (topic payload : Buffer) (s' : Service) :
    pc = .complete id msg → msg.content = .publish topic payload → s'.qos2Queue = s.qos2Queue →
    Extends s s' [.handover id msg.qos topic.bytes payload.bytes] →
    Receiver e fuel l s pc (.ok .receive) s'

end Steps

section Relations

variable {X : Externs} {ok : Os → Nat → Bool} {s s' : Service}

theorem Published.aside {topic payload : List UInt8} {qos : QoS} {dup : Bool}
    {packetId : Option UInt16} {deadline : Nat} {x : Exit Error Unit}
    (h : Published X ok s topic payload qos dup packetId deadline x s') :
    Untouched Event.aside .qos2Queue s s' := by
  cases h with
  | failed _ _ hprep => exact hprep.untouched rfl rfl
  | halted _ hprep => exact hprep.untouched rfl rfl
  | queued _ _ _ hstored =>
    have hqueued : Untouched Event.aside .qos2Queue s
        ((s.withId (publishState s packetId)).enqueue
          (publishPacket s topic payload qos dup packetId)) := .one rfl (.queued rfl rfl) rfl
    exact untouched_frame.trans hqueued (hstored.untouched (by decide))

theorem Released.aside {packetId : UInt16} {dup stored : Bool} {x : Exit Error Unit}
    (h : Released X ok s packetId dup stored x s') : Untouched Event.aside .qos2Queue s s' := by
  cases h with
  | failed _ _ hprep => exact hprep.untouched rfl rfl
  | halted _ hprep => exact hprep.untouched rfl rfl
  | overflow => exact .one rfl (.queued rfl rfl) rfl
  | noAppend => exact .one rfl (.queued rfl rfl) rfl
  | queued => exact .one rfl (.queued rfl rfl) rfl

/-- A message of another quality of service is handed over at once. -/
theorem Delivered.aside {packetId : UInt16} {r : publish_response} {x : Exit Error Pc}
    (h : Delivered ok s packetId r x s') (hqos : r.qos ≠ .qos2) :
    Untouched Event.aside .qos2Queue s s' := by
  cases h with
  | undefined => exact untouched_frame.refl s
  | short => exact untouched_frame.refl s
  | reset => exact .one rfl (.recorded rfl rfl rfl rfl) rfl
  | noSpace => exact untouched_frame.refl s
  | printed => exact .one rfl (.recorded rfl rfl rfl rfl) (by simp [Event.aside, hqos])
  | overflow _ _ hqos' => exact absurd hqos' hqos
  | kept _ _ _ hqos' => exact absurd hqos' hqos
  | lost _ _ _ _ hqos' => exact absurd hqos' hqos

/-- A message of quality of service 2 is stored, or something has kept it from its queue. -/
theorem Delivered.stores {r : publish_response} {x : Exit Error Pc}
    (h : Delivered ok s r.packetId r x s') (hqos : r.qos = .qos2) : Extends s s' [] ∧
      ((s'.qos2Queue = s.qos2Queue ∧
          ∀ topic ∈ r.topic, ¬(s.now ≤ u32_max - 2000 ∧ Fits ok topic r.payload)) ∨
        ∃ m, s'.qos2Queue = s.qos2Queue ++ [m] ∧ m.packetId = r.packetId ∧ m.qos = .qos2 ∧
          m.message = r.message) := by
  cases h with
  | undefined hnone =>
    refine ⟨.refl s, .inl ⟨rfl, ?_⟩⟩
    intro topic htopic
    rw [hnone] at htopic
    cases htopic
  | short _ _ hne => exact absurd hqos hne
  | reset _ _ hne => exact absurd hqos hne
  | noSpace _ _ hne => exact absurd hqos hne
  | printed _ _ hne => exact absurd hqos hne
  | overflow _ _ _ hlt =>
    refine ⟨.refl s, .inl ⟨rfl, ?_⟩⟩
    intro _ _ hfits
    omega
  | kept topic _ htopic _ hstored =>
    refine ⟨hstored.extends, .inr ?_⟩
    cases hstored with
    | stored =>
      obtain ⟨t, p, ht, hp, hqueue⟩ := stored_queue s .qos2Queue r.packetId .qos2 r.dup r.retained
        topic r.payload (s.now + 2000)
      refine ⟨_, hqueue, rfl, rfl, ?_⟩
      simp [QueuedMessage.message, publish_response.message, htopic, ht, hp]
  | lost topic err _ htopic _ hstored =>
    obtain ⟨hnot, hqueue⟩ := hstored.not_fits rfl
    refine ⟨hstored.extends, .inl ⟨hqueue, ?_⟩⟩
    intro topic' htopic' hfits
    rw [htopic] at htopic'
    cases htopic'
    exact hnot hfits.2

/-- Behind the handler, or at an error, no message is left to be handed over. -/
theorem Delivered.hand {packetId : UInt16} {r : publish_response} {x : Exit Error Pc}
    (h : Delivered ok s packetId r x s') : (Pc.receive.next x).hand = none := by
  cases h <;> rfl

theorem Pc.handler_hand (pc : Pc) (err : Error) : (pc.handler err).hand = none := by
  cases pc with
  | drain caller => cases caller <;> rfl
  | _ => rfl

theorem Drain.next_hand (caller : Drain) : caller.next.hand = (Pc.drain caller).hand := by
  cases caller <;> rfl

/-- The exit that goes on at `pc'` leaves nothing to be handed over. -/
theorem Pc.next_as_hand {α : Type} (pc : Pc) {pc' : Pc} (x : Exit Error α) (h : pc'.hand = none) :
    (pc.next (x.as pc')).hand = none := by
  cases x with
  | ok => exact h
  | err err => exact pc.handler_hand err
  | trap => rfl
  | halt => rfl

theorem Inbound.Passes.of_other {m : Inbound} (hqos2 : m.qos2 = none) (hreleased : m.released = none) :
    m.Passes X ok s := by
  constructor
  · intro r hr
    rw [hqos2] at hr
    cases hr
  · intro id hid
    rw [hreleased] at hid
    cases hid

/-- The answer to a PUBLISH cannot be queued. -/
theorem Prepared.unanswered {l : List Event} {fields : Option PublishFields}
    {r : publish_response} {p : Packet} {k : UInt16} {x : Exit Error UInt16}
    (h : Prepared X ok (s.record l) p k r.packetId x s') (hr : deserializePublish fields = .ok r)
    (hp : r.qos = .qos1 ∧ p = .puback r.packetId ∨ r.qos = .qos2 ∧ p = .pubrec r.packetId)
    (hx : x.returned = false) : (Inbound.publish fields).Passes X ok s ∧
      Untouched Event.aside .qos2Queue (s.record l) s' := by
  rcases hp with ⟨hqos, rfl⟩ | ⟨hqos, rfl⟩
  · have hne : r.qos ≠ .qos2 := by simp [hqos]
    exact ⟨.of_other (qos2_none hr hne) rfl, h.untouched rfl rfl⟩
  · have hnot := h.not_ready hx
    refine ⟨⟨?_, nofun⟩, h.unqueued hnot rfl⟩
    intro r' hr' hready
    rw [qos2_eq hr hqos] at hr'
    cases hr'
    exact hnot (hready.congr rfl rfl)

/-- A packet read in the receive loop. -/
theorem Received.receiver {e : Env} {fuel : Nat} {l : Link} {x : Exit Error Pc}
    (hwait : e.waitRx 0 = some true)
    (h : Received X e.ok (s.record [.received (e.read 0)]) (e.read 0) x s') :
    Receiver X e fuel l s .receive x s' := by
  -- the packet is not about quality of service 2, or its answer cannot be queued
  have passed (hpass : (e.read 0).Passes X e.ok s)
      (hrest : Untouched Event.aside .qos2Queue (s.record [.received (e.read 0)]) s')
      (hhand : (Pc.receive.next x).hand = none) : Receiver X e fuel l s .receive x s' :=
    .read x s' rfl hwait (fun _ => hpass) hrest hhand
  generalize hm : e.read 0 = m at h
  rw [hm] at passed
  have hsame : Untouched Event.aside .qos2Queue (s.record [.received m])
      (s.record [.received m]) := untouched_frame.refl _
  cases h with
  | again m hm' =>
    apply passed _ hsame rfl
    rcases hm' with rfl | rfl | rfl <;> exact .of_other rfl rfl
  | left m hm' =>
    apply passed _ hsame rfl
    rcases hm' with rfl | rfl <;> exact .of_other rfl rfl
  | malformed m err herr =>
    apply passed _ hsame rfl
    cases m with
    | publish fields =>
      refine .of_other ?_ rfl
      cases hr : deserializePublish fields with
      | ok r => simp [hr] at herr
      | error err' => simp [Inbound.qos2, hr]
    | pubrel fields =>
      refine .of_other rfl ?_
      cases hid : deserializePubrel fields with
      | ok id => simp [hid] at herr
      | error err' => simp [Inbound.released, hid, Except.toOption]
    | _ => exact .of_other rfl rfl
  | reserved => exact passed (.of_other rfl rfl) hsame rfl
  | publish0 fields r _ _ hr hqos hdel =>
    have hne : r.qos ≠ .qos2 := by simp [hqos]
    exact passed (.of_other (qos2_none hr hne) rfl) (hdel.aside hne) hdel.hand
  | publish1 fields r hr hqos =>
    have hne : r.qos ≠ .qos2 := by simp [hqos]
    exact passed (.of_other (qos2_none hr hne) rfl) (.one rfl (.queued rfl rfl) rfl) rfl
  | publish2 fields r x _ hr hqos hready hdel =>
    have hqos2 : (e.read 0).qos2 = some r := by
      rw [hm]
      exact qos2_eq hr hqos
    rw [← hm] at hdel
    exact .kept r x s' rfl hwait hqos2 (hready.congr rfl rfl) hdel
  | unanswered fields r p err _ hr hp hprep =>
    obtain ⟨hpass, hrest⟩ := hprep.unanswered hr hp rfl
    exact passed hpass hrest rfl
  | unansweredHalt fields r p _ hr hp hprep =>
    obtain ⟨hpass, hrest⟩ := hprep.unanswered hr hp rfl
    exact passed hpass hrest rfl
  | puback _ _ _ _ hack => exact passed (.of_other rfl rfl) (acknowledged_untouched hack) rfl
  | pubackUnknown => exact passed (.of_other rfl rfl) hsame rfl
  | pingresp => exact passed (.of_other rfl rfl) (.one rfl (.recorded rfl rfl rfl rfl) rfl) rfl
  | pingrespUnknown => exact passed (.of_other rfl rfl) (.one rfl (.recorded rfl rfl rfl rfl) rfl) rfl
  | pubrec _ id s₁ x _ _ hack hrel =>
    have hacked : Untouched Event.aside .qos2Queue (s.record _)
        ((s₁.acknowledged id .pubrel).getD s₁) :=
      untouched_frame.trans (acknowledged_untouched hack)
        (acknowledged_getD_untouched s₁ id .pubrel)
    exact passed (.of_other rfl rfl) (untouched_frame.trans hacked hrel.aside)
      (Pc.next_as_hand .receive x rfl)
  | pubrecUnknown => exact passed (.of_other rfl rfl) hsame rfl
  | pubrel fields id msg rest hid hr hready =>
    have hreleased : (e.read 0).released = some id := by
      rw [hm]
      exact released_eq hid
    rw [← hm]
    exact .released id msg rest rfl hwait hreleased hr (hready.congr rfl rfl)
  | pubrelFailed fields id msg rest err _ hid hr hprep =>
    have hreleased : (e.read 0).released = some id := by
      rw [hm]
      exact released_eq hid
    have hnot := hprep.not_ready rfl
    rw [← hm] at hprep hnot
    exact .unreleased id msg rest _ _ rfl hwait hreleased hr (fun h => hnot (h.congr rfl rfl))
      (hprep.unqueued hnot rfl) rfl
  | pubrelHalted fields id msg rest _ hid hr hprep =>
    have hreleased : (e.read 0).released = some id := by
      rw [hm]
      exact released_eq hid
    have hnot := hprep.not_ready rfl
    rw [← hm] at hprep hnot
    exact .unreleased id msg rest _ _ rfl hwait hreleased hr (fun h => hnot (h.congr rfl rfl))
      (hprep.unqueued hnot rfl) rfl
  | pubrelUnknown fields id hid hr =>
    apply passed _ hsame rfl
    constructor
    · nofun
    · intro id' hid'
      rw [released_eq hid] at hid'
      cases hid'
      exact hr
  | pubcomp _ _ _ _ hack => exact passed (.of_other rfl rfl) (acknowledged_untouched hack) rfl
  | pubcompUnknown => exact passed (.of_other rfl rfl) hsame rfl
  | suback => exact passed (.of_other rfl rfl) (.one rfl (.recorded rfl rfl rfl rfl) rfl) rfl
  | subackLong => exact passed (.of_other rfl rfl) (.one rfl (.recorded rfl rfl rfl rfl) rfl) rfl

/-- A send that fails leaves the message in hand behind. -/
theorem Receiver.of_send {e : Env} {fuel : Nat} {l : Link} {caller : Drain} {p : Packet}
    {rest : List Packet} {x : Exit Error Pc} (htx : s.txQueue = p :: rest)
    (hrest : Untouched Event.aside .qos2Queue s s')
    (hsend : (TlsContext.send_tls fuel (X.size p) l).1.returned = false)
    (hx : ((Pc.drain caller).next x).hand = none) : Receiver X e fuel l s (.drain caller) x s' := by
  cases caller with
  | pubrel id msg =>
    apply Receiver.unfinished _ _ _ hrest hx
    intro hfinishes
    have hreturned := hfinishes p (by rw [htx]; rfl)
    rw [hsend] at hreturned
    cases hreturned
  | _ => exact .aside _ _ hrest hx

/-- **Every step of the task deals with received messages in one of these ways.** -/
theorem Taken.receiver {e : Env} {fuel : Nat} {l l' : Link} {pc : Pc} {x : Exit Error Pc}
    (h : Taken X e fuel l pc s x s' l') (hpc : pc.Acked) : Receiver X e fuel l s pc x s' := by
  have hrefl (s : Service) : Untouched Event.aside .qos2Queue s s := untouched_frame.refl s
  cases h with
  | start => exact .aside _ _ (.same rfl rfl rfl) rfl
  | opened => exact .aside _ _ (.one rfl (.recorded rfl rfl rfl rfl) rfl) rfl
  | openFailed => exact .aside _ _ (.same rfl rfl rfl) rfl
  | openTrap => exact .aside _ _ (.same rfl rfl rfl) rfl
  | openHalt => exact .aside _ _ (.same rfl rfl rfl) rfl
  | connectPacket _ x _ hprep =>
    exact .aside _ _ (hprep.untouched rfl rfl) (Pc.next_as_hand .connectPacket x rfl)
  | connackTimeout => exact .aside _ _ (hrefl s) rfl
  | connackError => exact .aside _ _ (hrefl s) rfl
  | connackAccepted _ hwait => exact .read _ _ rfl hwait nofun (hrefl _) rfl
  | connackRefused _ _ hwait => exact .read _ _ rfl hwait nofun (hrefl _) rfl
  | connackReserved _ hwait => exact .read _ _ rfl hwait nofun (hrefl _) rfl
  | subscribe _ x _ hprep =>
    exact .aside _ _ (hprep.untouched rfl rfl) (Pc.next_as_hand .subscribe x rfl)
  | subackTimeout => exact .aside _ _ (.same rfl rfl rfl) rfl
  | subackError => exact .aside _ _ (hrefl s) rfl
  | subackOther _ _ hwait => exact .read _ _ rfl hwait nofun (.same rfl rfl rfl) rfl
  | suback _ _ _ _ hwait =>
    exact .read _ _ rfl hwait nofun (.one rfl (.recorded rfl rfl rfl rfl) rfl) rfl
  | subackMalformed _ _ hwait => exact .read _ _ rfl hwait nofun (hrefl _) rfl
  | subackReserved _ _ hwait => exact .read _ _ rfl hwait nofun (hrefl _) rfl
  | subackIndex _ _ _ _ hwait =>
    exact .read _ _ rfl hwait nofun (.one rfl (.recorded rfl rfl rfl rfl) rfl) rfl
  | retransmitted => exact .aside _ _ (hrefl s) rfl
  | retransmit _ _ rest _ _ x _ _ _ _ hpub =>
    have hrest : Untouched Event.aside .qos2Queue s { s with qosQueue := rest } := .same rfl rfl rfl
    exact .aside _ _ (untouched_frame.trans hrest hpub.aside) (Pc.next_as_hand .retransmit x rfl)
  | retransmitOverflow => exact .aside _ _ (.same rfl rfl rfl) rfl
  | retransmitPubrel _ _ rest x _ _ _ hrel =>
    have hrest : Untouched Event.aside .qos2Queue s { s with qosQueue := rest } := .same rfl rfl rfl
    exact .aside _ _ (untouched_frame.trans hrest hrel.aside) (Pc.next_as_hand .retransmit x rfl)
  | unexpired => exact .aside _ _ (hrefl s) rfl
  | expire _ msg rest _ _ hr =>
    have hfreed := freed_same { s with qos2Queue := rest } msg.content
    exact .expired msg rest _ _ rfl hr (hfreed.2.2 .qos2Queue) (.same hfreed.1 hfreed.2.1) rfl
  | expirePubrel _ msg rest hr => exact .expired msg rest _ _ rfl hr rfl (.same rfl rfl) rfl
  | drained caller =>
    exact .aside _ _ (.one rfl (.recorded rfl rfl rfl rfl) rfl) caller.next_hand
  | sent _ _ _ _ _ _ htx => exact .aside _ _ (.one rfl (.sent htx) rfl) rfl
  | sendFailed caller _ p rest err _ htx hsend =>
    have hsent : Untouched Event.aside .qos2Queue s
        ({ s with txQueue := rest }.record [.sent p]) := .one rfl (.sent htx) rfl
    exact .of_send htx hsent (by rw [hsend]; rfl) ((Pc.drain caller).handler_hand err)
  | sendTrap caller _ p rest _ htx hsend =>
    have hsent : Untouched Event.aside .qos2Queue s
        ({ s with txQueue := rest }.record [.sent p]) := .one rfl (.sent htx) rfl
    exact .of_send htx hsent (by rw [hsend]; rfl) rfl
  | sendHalt caller _ p rest _ htx hsend =>
    have hsent : Untouched Event.aside .qos2Queue s
        ({ s with txQueue := rest }.record [.sent p]) := .one rfl (.sent htx) rfl
    exact .of_send htx hsent (by rw [hsend]; rfl) rfl
  | idle => exact .aside _ _ (hrefl s) rfl
  | received _ _ _ hwait hrec => exact hrec.receiver hwait
  | deliver _ _ _ _ _ hdel => exact .aside _ _ (hdel.aside hpc) hdel.hand
  | completed packetId msg _ topic payload hc =>
    have hfreed := freed_same
      (s.record [.handover packetId msg.qos topic.bytes payload.bytes]) msg.content
    exact .completed packetId msg topic payload _ rfl hc (hfreed.2.2 .qos2Queue)
      (.recorded hfreed.1 hfreed.2.1 rfl rfl)
  | completeNoSpace packetId msg _ topic payload hc hlong =>
    apply Receiver.unfinished _ _ _ (hrefl s) rfl
    intro hfinishes
    have hprints : msg.Prints packetId := hfinishes
    unfold QueuedMessage.Prints at hprints
    rw [hc] at hprints
    omega
  | completePubrel packetId msg _ hc =>
    apply Receiver.unfinished _ _ _ (hrefl s) rfl
    intro hfinishes
    have hprints : msg.Prints packetId := hfinishes
    unfold QueuedMessage.Prints at hprints
    rw [hc] at hprints
    exact hprints
  | refused => exact .aside _ _ (.one rfl (.recorded rfl rfl rfl rfl) rfl) rfl
  | disconnect err _ x _ hprep =>
    have hstopped : Untouched Event.aside .qos2Queue s s.disconnecting := .same rfl rfl rfl
    exact .aside _ _ (untouched_frame.trans hstopped (hprep.untouched rfl rfl))
      (Pc.next_as_hand (.disconnect err) x rfl)
  | close => exact .aside _ _ (.one rfl (.recorded rfl rfl rfl rfl) rfl) rfl
  | lost => exact .aside _ _ (hrefl s) rfl
  | lostReset => exact .aside _ _ (.same rfl rfl rfl) rfl
  | halted => exact .aside _ _ (hrefl s) rfl
  | trapped => exact .aside _ _ (hrefl s) rfl

theorem Pc.handler_acked (pc : Pc) (err : Error) : (pc.handler err).Acked := by
  cases pc with
  | drain caller => cases caller <;> trivial
  | _ => trivial

theorem Pc.next_as_acked {α : Type} (pc : Pc) {pc' : Pc} (x : Exit Error α) (h : pc'.Acked) :
    (pc.next (x.as pc')).Acked := by
  cases x with
  | ok => exact h
  | err err => exact pc.handler_acked err
  | trap => trivial
  | halt => trivial

theorem Delivered.acked {pc : Pc} {packetId : UInt16} {r : publish_response} {x : Exit Error Pc}
    (h : Delivered ok s packetId r x s') : (pc.next x).Acked := by
  cases h with
  | noSpace => exact pc.handler_acked _
  | lost => exact pc.handler_acked _
  | _ => trivial

theorem Received.acked {m : Inbound} {x : Exit Error Pc} (h : Received X ok s m x s') :
    (Pc.receive.next x).Acked := by
  cases h with
  | publish0 _ _ _ _ _ _ hdel => exact hdel.acked
  | publish1 _ r _ hqos =>
    show r.qos ≠ .qos2
    rw [hqos]
    decide
  | publish2 _ _ _ _ _ _ _ hdel => exact hdel.acked
  | pubrec _ _ _ x => exact Pc.next_as_acked .receive x trivial
  | _ => trivial

theorem Taken.acked {e : Env} {fuel : Nat} {l l' : Link} {pc : Pc} {x : Exit Error Pc}
    (h : Taken X e fuel l pc s x s' l') (hpc : pc.Acked) : (pc.next x).Acked := by
  cases h with
  | connectPacket _ x => exact Pc.next_as_acked .connectPacket x trivial
  | subscribe _ x => exact Pc.next_as_acked .subscribe x trivial
  | retransmit _ _ _ _ _ x => exact Pc.next_as_acked .retransmit x trivial
  | retransmitPubrel _ _ _ x => exact Pc.next_as_acked .retransmit x trivial
  | drained caller => cases caller <;> trivial
  | sent => exact hpc
  | sendFailed caller _ _ _ err => exact Pc.handler_acked (.drain caller) err
  | received _ _ _ _ hrec => exact hrec.acked
  | deliver _ _ _ _ _ hdel => exact hdel.acked
  | disconnect err _ x => exact Pc.next_as_acked (.disconnect err) x trivial
  | _ => trivial

theorem Called.aside {j : Job} {x : Exit Error Unit} (h : Called X ok s j x s') :
    Untouched Event.aside .qos2Queue s s' := by
  cases h with
  | pinged => exact .one rfl (.queued rfl rfl) rfl
  | pingFailed _ _ _ hprep => exact hprep.untouched rfl rfl
  | pingWaits _ _ hprep => exact hprep.untouched rfl rfl
  | published _ _ _ _ _ _ _ hpub => exact hpub.aside
  | publishFailed _ _ _ _ _ _ hpub => exact hpub.aside
  | pubTimerFailed _ _ _ hpub => exact hpub.aside
  | publishWaits _ _ _ _ _ _ _ hpub => exact hpub.aside
  | overflow => exact untouched_frame.refl s

theorem begun_aside (j : Job) (s : Service) :
    Untouched Event.aside .qos2Queue s (j.begun s) := by
  cases j with
  | pingTimer tick => exact .one rfl (.recorded rfl rfl rfl rfl) rfl
  | pubTimer => exact untouched_frame.refl s
  | publish topic payload qos => exact untouched_frame.refl s

theorem Pc.after_cases {α : Type} (pc : Pc) (x : Exit Error α) :
    pc.after x = pc ∨ pc.after x = .trapped := by
  cases x with
  | trap => exact .inr rfl
  | _ => exact .inl rfl

theorem Pc.waits_hand {pc : Pc} (h : pc.waits = true) : pc.hand = none := by
  cases pc <;> first | rfl | cases h

theorem qos2_released {m : Inbound} {r : publish_response} (h : m.qos2 = some r) :
    m.released = none := by
  cases m <;> first | rfl | cases h

theorem message_packetId {m : QueuedMessage} {msg : Message} (h : m.message = some msg) :
    m.packetId = msg.packetId := by
  unfold QueuedMessage.message at h
  split at h
  · cases h
    rfl
  · cases h

/-- Where the task waits, PUBRELs are read in the receive loop only. -/
theorem Pc.Handles.released {C : Inbound → Prop} {a : Answers} {l : Link} {pc : Pc}
    (h : pc.Handles X C a s l) (hC : ∀ m, C m → m.Finds X a.env.ok s) (hwaits : pc.waits = true)
    (hwait : a.env.waitRx 0 = some true)
    (hpass : pc = .receive → (a.env.read 0).Passes X a.env.ok s) :
    (a.env.read 0).released = none := by
  cases pc with
  | receive =>
    cases hid : (a.env.read 0).released with
    | none => rfl
    | some id =>
      have hsome := (hC _ (h hwait) id hid).1
      rw [(hpass rfl).pubrel id hid] at hsome
      cases hsome
  | connack => exact h hwait
  | suback => exact h hwait
  | _ => cases hwaits

theorem Pc.Handles.finishes {C : Inbound → Prop} {a : Answers} {l : Link} {pc : Pc}
    (h : pc.Handles X C a s l) : pc.Finishes X a.fuel l s := by
  cases pc with
  | drain caller => exact h
  | complete => exact h
  | _ => trivial

/-- What is stored has quality of service 2. -/
structure Stocked (s : Service) (pc : Pc) : Prop where
  queue : ∀ m ∈ s.qos2Queue, m.qos = .qos2
  hand : ∀ h ∈ pc.hand, h.2.qos = .qos2

theorem Receiver.stocked {e : Env} {fuel : Nat} {l : Link} {pc : Pc} {x : Exit Error Pc}
    (h : Receiver X e fuel l s pc x s') (hs : Stocked s pc) : Stocked s' (pc.next x) := by
  have of_same (hqueue : s'.qos2Queue = s.qos2Queue)
      (hhand : (pc.next x).hand = pc.hand ∨ (pc.next x).hand = none) : Stocked s' (pc.next x) := by
    constructor
    · rw [hqueue]
      exact hs.queue
    · intro h hmem
      rcases hhand with hhand | hhand
      · rw [hhand] at hmem
        exact hs.hand h hmem
      · rw [hhand] at hmem
        cases hmem
  have of_rest {f : QueuedMessage → Bool} {m : QueuedMessage} {rest : List QueuedMessage}
      (hr : removeFirst f s.qos2Queue = some (m, rest)) : m.qos = .qos2 ∧
        ∀ m' ∈ rest, m'.qos = .qos2 := by
    have hmem := (removeFirst_mem hr).2
    exact ⟨hs.queue m ((hmem m).mpr (.inl rfl)), fun m' hm' => hs.queue m' ((hmem m').mpr (.inr hm'))⟩
  cases h with
  | aside _ _ hrest hhand => exact of_same hrest.queue (.inl hhand)
  | unfinished _ _ _ hrest hhand => exact of_same hrest.queue (.inr hhand)
  | read _ _ _ _ _ hrest hhand => exact of_same hrest.queue (.inr hhand)
  | kept r _ _ hpc _ hqos2 _ hdel =>
    have hhand := hdel.hand
    rw [← hpc] at hhand
    rcases (hdel.stores (qos2_qos hqos2)).2 with ⟨hqueue, -⟩ | ⟨m, hqueue, -, hm, -⟩
    · exact of_same hqueue (.inr hhand)
    · constructor
      · intro m' hm'
        rw [hqueue] at hm'
        rcases List.mem_append.mp hm' with hm' | hm'
        · exact hs.queue m' hm'
        · rw [List.mem_singleton.mp hm']
          exact hm
      · intro h hmem
        rw [hhand] at hmem
        cases hmem
  | released id msg rest _ _ _ hr =>
    obtain ⟨hmsg, hrest⟩ := of_rest hr
    constructor
    · exact hrest
    · intro h hmem
      cases hmem
      exact hmsg
  | unreleased id msg rest _ _ _ _ _ hr _ huntouched hhand =>
    constructor
    · have hqueue : s'.qos2Queue = rest := huntouched.queue
      rw [hqueue]
      exact (of_rest hr).2
    · intro h hmem
      rw [hhand] at hmem
      cases hmem
  | expired msg rest _ _ _ hr hqueue _ hhand =>
    constructor
    · rw [hqueue]
      exact (of_rest hr).2
    · intro h hmem
      rw [hhand] at hmem
      cases hmem
  | completed _ _ _ _ _ _ _ hqueue => exact of_same hqueue (.inr rfl)

/-- A step of the system is one of the task, or leaves the receiving side alone. -/
theorem Moved.aside {s s' : Sys} {i : Input} (h : Moved X s i s') (hi : ∀ a, i ≠ .task a) :
    Untouched Event.aside .qos2Queue s.srv s'.srv ∧ (s'.pc = s.pc ∨ s'.pc = .trapped) := by
  cases h with
  | task a => exact absurd rfl (hi a)
  | pingFull => exact ⟨.one rfl (.recorded rfl rfl rfl rfl) rfl, .inr rfl⟩
  | job j env x srv' _ hcalled =>
    exact ⟨untouched_frame.trans (begun_aside j s.srv) hcalled.aside, s.pc.after_cases x⟩
  | waits j =>
    have hwaits : Untouched Event.aside .qos2Queue (j.begun s.srv)
        { j.begun s.srv with waiting := some j } := .same rfl rfl rfl
    exact ⟨untouched_frame.trans (begun_aside j s.srv) hwaits, .inl rfl⟩
  | idle => exact ⟨untouched_frame.refl _, .inl rfl⟩
  | resumed j env x srv' _ hcalled =>
    have hresumed : Untouched Event.aside .qos2Queue s.srv { s.srv with waiting := none } :=
      .same rfl rfl rfl
    exact ⟨untouched_frame.trans hresumed hcalled.aside, s.pc.after_cases x⟩
  | stays => exact ⟨untouched_frame.refl _, .inl rfl⟩
  | clock => exact ⟨.same rfl rfl rfl, .inl rfl⟩

end Relations

end Miso.Mqtt

import Miso.Mqtt.Transitions
import Miso.Zig.Trace

/-!
# What the steps record

Most steps are made of a few kinds of changes (`Change`): packets are queued, messages kept,
released and handed over.  A frame that the changes keep is kept by every relation a step is made
of (`Changes.frame`).

* `Taken.calm`, `Called.changes` — the steps that neither open nor close nor send;
* `Inside` — the frame of what goes on inside a session;
* `Fifo` — `txQueue` is what has been queued and not been sent, in order.
-/

namespace Miso.Mqtt

open Zig Net

/-! ## Events -/

/-- The event is not about the connection. -/
def Event.inner : Event → Bool
  | .opened => false
  | .closed => false
  | .drained => false
  | .sent _ => false
  | _ => true

def Event.queuedPacket : Event → Option Packet
  | .queued p => some p
  | _ => none

def Event.sentPacket : Event → Option Packet
  | .sent p => some p
  | _ => none

/-- The packets put into `txQueue`. -/
def queuedPackets (l : List Event) : List Packet := l.filterMap Event.queuedPacket

/-- The packets handed to `connection.send`. -/
def sentPackets (l : List Event) : List Packet := l.filterMap Event.sentPacket

@[simp] theorem queuedPackets_append (l k : List Event) :
    queuedPackets (l ++ k) = queuedPackets l ++ queuedPackets k := List.filterMap_append

@[simp] theorem sentPackets_append (l k : List Event) :
    sentPackets (l ++ k) = sentPackets l ++ sentPackets k := List.filterMap_append

theorem sentPackets_inner {l : List Event} (h : ∀ ev ∈ l, ev.inner = true) :
    sentPackets l = [] := by
  unfold sentPackets
  rw [List.filterMap_eq_nil_iff]
  intro ev hev
  have hinner := h ev hev
  cases ev with
  | sent p => cases hinner
  | _ => rfl

theorem opened_notMem_inner {l : List Event} (h : ∀ ev ∈ l, ev.inner = true) : .opened ∉ l :=
  fun hmem => nomatch h _ hmem

theorem closed_notMem_inner {l : List Event} (h : ∀ ev ∈ l, ev.inner = true) : .closed ∉ l :=
  fun hmem => nomatch h _ hmem

theorem sent_notMem_inner {l : List Event} (h : ∀ ev ∈ l, ev.inner = true) (p : Packet) :
    .sent p ∉ l :=
  fun hmem => nomatch h _ hmem

/-! ## Changes -/

/-- The events that the handling of packets and messages records. -/
def Event.plain : Event → Bool
  | .blocked _ => true
  | .received _ => true
  | .handover _ _ _ _ => true
  | .reset => true
  | .granted _ => true
  | _ => false

/-- One change of the service. -/
inductive Change (s : Service) : Service → Prop where
  | withId (k : UInt16) : Change s (s.withId k)
  | enqueue (p : Packet) : Change s (s.enqueue p)
  | record (ev : Event) : ev.plain = true → Change s (s.record [ev])
  | heap (moves : List (Move Nat)) (blocks : Nat) :
    Change s { s with heap := moves, blocks := blocks }
  | setQueue (q : Queue) (l : List QueuedMessage) : Change s (s.setQueue q l)

abbrev Changes : Service → Service → Prop := Relation.ReflTransGen Change

theorem Change.changes {s s' : Service} (h : Change s s') : Changes s s' := .single h

/-- **The frame rule**: what every change keeps, all of them keep. -/
theorem Changes.frame {R : Service → Service → Prop} (hR : Frame R)
    (hchange : ∀ s s', Change s s' → R s s') {s s' : Service} (h : Changes s s') : R s s' := by
  induction h with
  | refl => exact hR.refl s
  | tail _ hstep ih => exact hR.trans ih (hchange _ _ hstep)

section Relations

variable {X : Externs} {ok : Os → Nat → Bool} {s s' : Service}

theorem Prepared.changes {p : Packet} {k id : UInt16} {x : Exit Error UInt16}
    (h : Prepared X ok s p k id x s') : Changes s s' := by
  cases h with
  | queued => exact (Change.withId k).changes.tail (.enqueue p)
  | failed _ k' => exact (Change.withId k').changes
  | stuck => exact .refl
  | blocked => exact (Change.withId k).changes.tail (.record (.blocked p) rfl)

theorem alloc_changes (s : Service) (bytes : List UInt8) : Changes s (s.alloc bytes).2 := by
  unfold Service.alloc
  split
  · exact .refl
  · exact (Change.heap _ _).changes

theorem freed_changes (s : Service) (c : Content) : Changes s (s.freed c) := by
  cases c with
  | publish topic payload => exact (Change.heap _ s.blocks).changes
  | pubrel => exact .refl

/-- The message queues are set directly. -/
theorem qosQueue_change (s : Service) (l : List QueuedMessage) :
    Change s { s with qosQueue := l } := .setQueue .qosQueue l

theorem qos2Queue_change (s : Service) (l : List QueuedMessage) :
    Change s { s with qos2Queue := l } := .setQueue .qos2Queue l

theorem Stored.changes {q : Queue} {packetId : UInt16} {qos : QoS} {dup retained : Bool}
    {topic payload : List UInt8} {deadline : Nat} {x : Exit Error Unit}
    (h : Stored ok s q packetId qos dup retained topic payload deadline x s') : Changes s s' := by
  cases h with
  | stored =>
    exact ((alloc_changes s payload).trans (alloc_changes _ topic)).tail (.setQueue q _)
  | noPayload => exact .refl
  | noTopic => exact alloc_changes s payload
  | noAppend => exact (alloc_changes s payload).trans (alloc_changes _ topic)

theorem Published.changes {topic payload : List UInt8} {qos : QoS} {dup : Bool}
    {packetId : Option UInt16} {deadline : Nat} {x : Exit Error Unit}
    (h : Published X ok s topic payload qos dup packetId deadline x s') : Changes s s' := by
  cases h with
  | failed err s' hprep => exact hprep.changes
  | halted s' hprep => exact hprep.changes
  | queued x s' hready hstored =>
    exact ((Change.withId _).changes.tail (.enqueue _)).trans hstored.changes

theorem Released.changes {packetId : UInt16} {dup stored : Bool} {x : Exit Error Unit}
    (h : Released X ok s packetId dup stored x s') : Changes s s' := by
  cases h with
  | failed err s' hprep => exact hprep.changes
  | halted s' hprep => exact hprep.changes
  | overflow => exact (Change.enqueue _).changes
  | noAppend => exact (Change.enqueue _).changes
  | queued => exact (Change.enqueue _).changes.tail (qosQueue_change _ _)

theorem Delivered.changes {packetId : UInt16} {r : publish_response} {x : Exit Error Pc}
    (h : Delivered ok s packetId r x s') : Changes s s' := by
  cases h with
  | undefined => exact .refl
  | short => exact .refl
  | reset => exact (Change.record .reset rfl).changes
  | noSpace => exact .refl
  | printed topic => exact (Change.record (.handover packetId r.qos topic r.payload) rfl).changes
  | overflow => exact .refl
  | kept topic s' _ _ hstored => exact hstored.changes
  | lost topic err s' _ _ hstored => exact hstored.changes

theorem acknowledged_changes {id : UInt16} {packetType : msgTypes}
    (h : s.acknowledged id packetType = some s') : Changes s s' := by
  unfold Service.acknowledged at h
  obtain ⟨r, -, rfl⟩ := Option.map_eq_some_iff.mp h
  exact (qosQueue_change s r.2).changes.trans (freed_changes _ r.1.content)

theorem acknowledged_getD_changes (s : Service) (id : UInt16) (packetType : msgTypes) :
    Changes s ((s.acknowledged id packetType).getD s) := by
  cases h : s.acknowledged id packetType with
  | none => exact .refl
  | some s' => exact acknowledged_changes h

/-- Every handler but that of PINGRESP. -/
theorem Received.changes {m : Inbound} {x : Exit Error Pc} (h : Received X ok s m x s')
    (hm : m ≠ .pingresp) : Changes s s' := by
  cases h with
  | again => exact .refl
  | left => exact .refl
  | malformed => exact .refl
  | reserved => exact .refl
  | publish0 _ r _ _ _ _ hdel => exact hdel.changes
  | publish1 => exact (Change.enqueue _).changes
  | publish2 _ r _ _ _ _ _ hdel => exact (Change.enqueue _).changes.trans hdel.changes
  | unanswered _ _ _ _ _ _ _ hprep => exact hprep.changes
  | unansweredHalt _ _ _ _ _ _ hprep => exact hprep.changes
  | puback _ _ _ _ hack => exact acknowledged_changes hack
  | pubackUnknown => exact .refl
  | pingresp => exact absurd rfl hm
  | pingrespUnknown => exact absurd rfl hm
  | pubrec _ id s₁ _ _ _ hack hrel =>
    exact ((acknowledged_changes hack).trans (acknowledged_getD_changes s₁ id .pubrel)).trans
      hrel.changes
  | pubrecUnknown => exact .refl
  | pubrel _ id _ rest => exact (qos2Queue_change s rest).changes.tail (.enqueue _)
  | pubrelFailed _ _ _ rest _ _ _ _ hprep => exact (qos2Queue_change s rest).changes.trans hprep.changes
  | pubrelHalted _ _ _ rest _ _ _ hprep => exact (qos2Queue_change s rest).changes.trans hprep.changes
  | pubrelUnknown => exact .refl
  | pubcomp _ _ _ _ hack => exact acknowledged_changes hack
  | pubcompUnknown => exact .refl
  | suback _ codes => exact (Change.record (.granted codes) rfl).changes
  | subackLong _ codes => exact (Change.record (.granted codes) rfl).changes

theorem Called.changes {j : Job} {x : Exit Error Unit} (h : Called X ok s j x s') :
    Changes s s' := by
  cases h with
  | pinged => exact (Change.enqueue _).changes
  | pingFailed _ _ _ hprep => exact hprep.changes
  | pingWaits _ _ hprep => exact hprep.changes
  | published _ _ _ _ _ _ _ hpub => exact hpub.changes
  | publishFailed _ _ _ _ _ _ hpub => exact hpub.changes
  | pubTimerFailed _ _ _ hpub => exact hpub.changes
  | publishWaits _ _ _ _ _ _ _ hpub => exact hpub.changes
  | overflow => exact .refl

/-- The places from which a step neither opens nor closes nor sends. -/
def Pc.calm : Pc → Bool
  | connect => false
  | refused _ => false
  | close _ => false
  | drain _ => false
  | _ => true

/-- The service behind the first step of `taskFunction`. -/
def Service.started (s : Service) : Service :=
  { s with connectionCounter := 0, disconnectionCounter := 0, pingCounter := 0, pingQueue := none }

variable (X) in
/-- What the steps do that neither open nor close nor send. -/
inductive Calm (e : Env) (s : Service) : Pc → Exit Error Pc → Service → Prop where
  | changes (pc : Pc) (x : Exit Error Pc) (s' : Service) : Changes s s' → Calm e s pc x s'
  | started : Calm e s .start (.ok .connect) s.started
  | connected (id : UInt16) (s₁ : Service) : Changes s s₁ →
    Calm e s (.suback id) (.ok .retransmit) s₁.connected
  | disconnecting (err : Error) (x : Exit Error Pc) (s' : Service) :
    Changes s.disconnecting s' → Calm e s (.disconnect err) x s'
  | pingresp (x : Exit Error Pc) (s' : Service) : e.waitRx 0 = some true →
    e.read 0 = .pingresp → Received X e.ok (s.record [.received .pingresp]) .pingresp x s' →
    Calm e s .receive x s'
  | reset : Calm e s (.lost .create_error) (.ok .connect) { s with pingQueue := none }

theorem Taken.calm {e : Env} {fuel : Nat} {l l' : Link} {pc : Pc} {x : Exit Error Pc}
    (h : Taken X e fuel l pc s x s' l') (hpc : pc.calm = true) : Calm X e s pc x s' := by
  have hread : Change s (s.record [.received (e.read 0)]) := .record _ rfl
  cases h with
  | start => exact .started
  | opened => cases hpc
  | openFailed => cases hpc
  | openTrap => cases hpc
  | openHalt => cases hpc
  | connectPacket _ _ _ hprep => exact .changes _ _ _ hprep.changes
  | connackTimeout => exact .changes _ _ _ .refl
  | connackError => exact .changes _ _ _ .refl
  | connackAccepted => exact .changes _ _ _ hread.changes
  | connackRefused => exact .changes _ _ _ hread.changes
  | connackReserved => exact .changes _ _ _ hread.changes
  | subscribe _ _ _ hprep => exact .changes _ _ _ hprep.changes
  | subackTimeout id => exact .connected id s .refl
  | subackError => exact .changes _ _ _ .refl
  | subackOther id => exact .connected id _ hread.changes
  | suback packetId _ _ codes =>
    exact .connected packetId _ (hread.changes.tail (.record (.granted codes) rfl))
  | subackMalformed => exact .changes _ _ _ hread.changes
  | subackReserved => exact .changes _ _ _ hread.changes
  | subackIndex _ _ _ codes =>
    exact .changes _ _ _ (hread.changes.tail (.record (.granted codes) rfl))
  | retransmitted => exact .changes _ _ _ .refl
  | retransmit _ _ rest _ _ _ _ _ _ _ hpub =>
    exact .changes _ _ _ ((qosQueue_change s rest).changes.trans hpub.changes)
  | retransmitOverflow _ _ rest => exact .changes _ _ _ (qosQueue_change s rest).changes
  | retransmitPubrel _ _ rest _ _ _ _ hrel =>
    exact .changes _ _ _ ((qosQueue_change s rest).changes.trans hrel.changes)
  | unexpired => exact .changes _ _ _ .refl
  | expire _ msg rest =>
    exact .changes _ _ _ ((qos2Queue_change s rest).changes.trans (freed_changes _ msg.content))
  | expirePubrel _ _ rest => exact .changes _ _ _ (qos2Queue_change s rest).changes
  | drained => cases hpc
  | sent => cases hpc
  | sendFailed => cases hpc
  | sendTrap => cases hpc
  | sendHalt => cases hpc
  | idle => exact .changes _ _ _ .refl
  | received _ _ _ hwait hrec =>
    by_cases hm : e.read 0 = .pingresp
    · rw [hm] at hrec
      exact .pingresp _ _ hwait hm hrec
    · exact .changes _ _ _ (hread.changes.trans (hrec.changes hm))
  | deliver _ _ _ _ _ hdel => exact .changes _ _ _ hdel.changes
  | completed packetId msg _ topic payload =>
    have hover : Change s (s.record [.handover packetId msg.qos topic.bytes payload.bytes]) :=
      .record _ rfl
    exact .changes _ _ _ (hover.changes.trans (freed_changes _ msg.content))
  | completeNoSpace => exact .changes _ _ _ .refl
  | completePubrel => exact .changes _ _ _ .refl
  | refused => cases hpc
  | disconnect err _ _ _ hprep =>
    cases hprep with
    | queued => exact .disconnecting err _ _ (Change.enqueue _).changes
    | failed _ k' => exact .disconnecting err _ _ (Change.withId k').changes
    | stuck => exact .disconnecting err _ _ .refl
    | blocked => exact .disconnecting err _ _ (Change.record (.blocked .disconnect) rfl).changes
  | close => cases hpc
  | lost => exact .changes _ _ _ .refl
  | lostReset => exact .reset
  | halted => exact .changes _ _ _ .refl
  | trapped => exact .changes _ _ _ .refl

end Relations

/-! ## Inside a session -/

/-- Packets may be queued and messages handed over, and nothing else is visible. -/
structure Inside (s s' : Service) : Prop where
  state : s'.state = s.state
  log : ∃ es, s'.log = s.log ++ es ∧ (∀ ev ∈ es, ev.inner = true) ∧
    s'.txQueue = s.txQueue ++ queuedPackets es

/-- The rest of the service may change. -/
theorem Inside.rest {s s' : Service} (hstate : s'.state = s.state) (hlog : s'.log = s.log)
    (htx : s'.txQueue = s.txQueue) : Inside s s' :=
  ⟨hstate, [], by simp [hlog], by simp, by simp [htx, queuedPackets]⟩

theorem Inside.record_one {s : Service} (ev : Event) (h : ev.inner = true)
    (h' : ev.queuedPacket = none) : Inside s (s.record [ev]) := by
  refine ⟨rfl, [ev], rfl, by simpa using h, ?_⟩
  have hnil : queuedPackets [ev] = [] := by simp [queuedPackets, h']
  rw [hnil, List.append_nil]
  rfl

theorem inside_frame : Frame Inside where
  refl _ := .rest rfl rfl rfl
  trans := by
    intro s₁ s₂ s₃ h h'
    obtain ⟨hstate, es, hlog, hinner, htx⟩ := h
    obtain ⟨hstate', es', hlog', hinner', htx'⟩ := h'
    refine ⟨hstate'.trans hstate, es ++ es', ?_, ?_, ?_⟩
    · rw [hlog', hlog, List.append_assoc]
    · intro ev hev
      rcases List.mem_append.mp hev with hev | hev
      · exact hinner ev hev
      · exact hinner' ev hev
    · rw [htx', htx, queuedPackets_append, List.append_assoc]

theorem Event.plain_inner {ev : Event} (h : ev.plain = true) :
    ev.inner = true ∧ ev.queuedPacket = none := by
  cases ev <;> first | exact ⟨rfl, rfl⟩ | cases h

theorem Change.inside {s s' : Service} (h : Change s s') : Inside s s' := by
  cases h with
  | withId k => exact .rest rfl rfl rfl
  | enqueue p => exact ⟨rfl, [.queued p], rfl, by simp [Event.inner], rfl⟩
  | record ev hev => exact .record_one ev (Event.plain_inner hev).1 (Event.plain_inner hev).2
  | heap moves blocks => exact .rest rfl rfl rfl
  | setQueue q l => cases q <;> exact .rest rfl rfl rfl

theorem Changes.inside {s s' : Service} (h : Changes s s') : Inside s s' :=
  h.frame inside_frame fun _ _ => Change.inside

/-- The end of `connect` sets the state, and every other calm step is inside the session. -/
theorem Taken.inside {X : Externs} {e : Env} {fuel : Nat} {l l' : Link} {pc : Pc}
    {s s' : Service} {x : Exit Error Pc} (h : Taken X e fuel l pc s x s' l')
    (hpc : pc.calm = true) :
    Inside s s' ∨ ∃ id s₁, pc = .suback id ∧ x = .ok .retransmit ∧ Inside s s₁ ∧
      s' = s₁.connected := by
  cases h.calm hpc with
  | changes _ _ _ hch => exact .inl hch.inside
  | started => exact .inl (.rest rfl rfl rfl)
  | connected id s₁ hch => exact .inr ⟨id, s₁, rfl, rfl, hch.inside, rfl⟩
  | disconnecting err _ _ hch =>
    have hin : Inside s s.disconnecting := .rest rfl rfl rfl
    exact .inl (inside_frame.trans hin hch.inside)
  | pingresp _ _ _ _ hrec =>
    have hin : Inside s ((s.record [.received .pingresp]).record [.pingresp]) :=
      inside_frame.trans (.record_one _ rfl rfl) (.record_one _ rfl rfl)
    cases hrec with
    | malformed _ _ herr => cases herr
    | again _ hm => rcases hm with hm | hm | hm <;> cases hm
    | left _ hm => rcases hm with hm | hm <;> cases hm
    | pingresp => exact .inl (inside_frame.trans hin (.rest rfl rfl rfl))
    | pingrespUnknown => exact .inl hin
  | reset => exact .inl (.rest rfl rfl rfl)

theorem begun_inside (j : Job) (s : Service) : Inside s (j.begun s) := by
  cases j with
  | pingTimer tick =>
    have hin : Inside s (s.record [.ping]) := .record_one _ rfl rfl
    exact inside_frame.trans hin (.rest rfl rfl rfl)
  | pubTimer => exact inside_frame.refl s
  | publish topic payload qos => exact inside_frame.refl s

/-- What is not a step of the task is inside the session, and leaves the task where it is. -/
theorem Moved.inside {X : Externs} {s s' : Sys} {i : Input} (h : Moved X s i s')
    (hi : ∀ a, i ≠ .task a) : Inside s.srv s'.srv ∧ (s'.pc = s.pc ∨ s'.pc = .trapped) := by
  have hafter : ∀ x : Exit Error Unit, s.pc.after x = s.pc ∨ s.pc.after x = .trapped := by
    intro x
    cases x with
    | trap => exact .inr rfl
    | _ => exact .inl rfl
  cases h with
  | task a => exact absurd rfl (hi a)
  | pingFull => exact ⟨.record_one _ rfl rfl, .inr rfl⟩
  | job j _ x _ _ hcalled =>
    exact ⟨inside_frame.trans (begun_inside j s.srv) hcalled.changes.inside, hafter x⟩
  | waits j => exact ⟨inside_frame.trans (begun_inside j s.srv) (.rest rfl rfl rfl), .inl rfl⟩
  | idle => exact ⟨inside_frame.refl _, .inl rfl⟩
  | resumed j _ x _ _ hcalled =>
    have hin : Inside s.srv { s.srv with waiting := none } := .rest rfl rfl rfl
    exact ⟨inside_frame.trans hin hcalled.changes.inside, hafter x⟩
  | stays => exact ⟨inside_frame.refl _, .inl rfl⟩
  | clock => exact ⟨.rest rfl rfl rfl, .inl rfl⟩

/-! ## First in, first out -/

/-- `txQueue` is what has been queued and not been sent. -/
def Fifo (s : Service) : Prop := queuedPackets s.log = sentPackets s.log ++ s.txQueue

theorem Fifo.inside {s s' : Service} (hs : Fifo s) (h : Inside s s') : Fifo s' := by
  obtain ⟨-, es, hlog, hinner, htx⟩ := h
  unfold Fifo at *
  rw [hlog, queuedPackets_append, sentPackets_append, sentPackets_inner hinner, htx, hs]
  simp

end Miso.Mqtt

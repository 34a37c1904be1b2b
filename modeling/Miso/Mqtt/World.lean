import Miso.Mqtt.Queues

/-!
# The service and its peer

The service and a broker over two channels that neither lose nor reorder anything as long as the
connection lasts; `open` and `close` empty them.

* `Wire` — the channels, which follow the events that the service records;
* `Peer`, `world` — a broker, and the system in which it takes steps between those of the service;
* `pipe_suffix` — the way of the packets from `txQueue` to the broker is one queue.
-/

namespace Miso.Mqtt

open Zig Net

/-! ## Channels -/

/-- The channels to the broker and from it, oldest first. -/
structure Wire where
  up : List Packet
  down : List Inbound
  deriving DecidableEq, Repr

namespace Wire

def empty : Wire := ⟨[], []⟩

/-- What an event of the service does to the channels. -/
def event (w : Wire) : Event → Wire
  | .opened => empty
  | .closed => empty
  | .sent p => { w with up := w.up ++ [p] }
  | .received _ => { w with down := w.down.tail }
  | _ => w

def events (w : Wire) (es : List Event) : Wire := es.foldl event w

theorem events_append (w : Wire) (es es' : List Event) :
    w.events (es ++ es') = (w.events es).events es' := List.foldl_append ..

theorem events_concat (w : Wire) (es : List Event) (ev : Event) :
    w.events (es ++ [ev]) = (w.events es).event ev := by
  rw [events_append]
  rfl

/-- What is on its way to the broker has been there before, or has been sent. -/
theorem up_suffix (w : Wire) (es : List Event) : (w.events es).up <:+ w.up ++ sentPackets es := by
  induction es using List.reverseRecOn with
  | nil => simp [events, sentPackets]
  | append_singleton es ev ih =>
    rw [events_concat, sentPackets_append, ← List.append_assoc]
    cases ev with
    | sent p => exact List.suffix_append_self_iff.mpr ih
    | opened => exact List.nil_suffix
    | closed => exact List.nil_suffix
    | _ =>
      rw [show sentPackets [_] = [] from rfl, List.append_nil]
      exact ih

/-- What is on its way to the service has been there before. -/
theorem down_suffix (w : Wire) (es : List Event) : (w.events es).down <:+ w.down := by
  induction es using List.reverseRecOn with
  | nil => exact List.suffix_rfl
  | append_singleton es ev ih =>
    rw [events_concat]
    cases ev with
    | received m => exact (List.tail_suffix _).trans ih
    | opened => exact List.nil_suffix
    | closed => exact List.nil_suffix
    | _ => exact ih

/-- A packet that is read is taken off its channel. -/
theorem down_received (w : Wire) (m : Inbound) (es : List Event) :
    (w.events (.received m :: es)).down <:+ w.down.tail :=
  down_suffix (w.event (.received m)) es

end Wire

/-! ## The system -/

/-- A broker with states `β` and steps `κ`; it may keep a record of what the service does. -/
structure Peer (β κ : Type) where
  Enabled : β → Wire → κ → Prop
  next : β → Wire → κ → β × Wire
  observe : β → Event → β

/-- The service, the channels and the broker. -/
structure World (β : Type) where
  client : Sys
  wire : Wire
  peer : β

/-- The service at its beginning; nothing has been sent. -/
structure World.Begins {β : Type} (b : β) (w : World β) : Prop where
  client : Initial w.client
  wire : w.wire = .empty
  peer : w.peer = b

/-- The packet that a step of the service reads. -/
def Input.reads (s : Sys) : Input → Option Inbound
  | .task a => if s.pc.waits = true ∧ a.env.waitRx 0 = some true then some (a.env.read 0) else none
  | _ => none

namespace World

variable {β κ : Type} (X : Externs) (P : Peer β κ)

/-- The service reads what the broker has sent. -/
def Enabled (w : World β) : Input ⊕ κ → Prop
  | .inl i => (mqtt X).Enabled w.client i ∧ ∀ m ∈ i.reads w.client, w.wire.down.head? = some m
  | .inr k => P.Enabled w.peer w.wire k

/-- The world behind the events of a step of the service. -/
def follow (w : World β) (s' : Sys) (es : List Event) : World β :=
  ⟨s', w.wire.events es, es.foldl P.observe w.peer⟩

def next (w : World β) : Input ⊕ κ → World β
  | .inl i =>
    let s' := (mqtt X).next w.client i
    w.follow P s' (s'.srv.log.drop w.client.srv.log.length)
  | .inr k =>
    let r := P.next w.peer w.wire k
    { w with peer := r.1, wire := r.2 }

/-- What is on its way to the broker: the channel, and `txQueue` behind it. -/
def pipe (w : World β) : List Packet := w.wire.up ++ w.client.srv.txQueue

end World

/-- **The service and the broker as a system.** -/
def world {β κ : Type} (X : Externs) (P : Peer β κ) : System (World β) (Input ⊕ κ) where
  Enabled := World.Enabled X P
  next := World.next X P

instance {β κ : Type} (X : Externs) (P : Peer β κ) [∀ b w k, Decidable (P.Enabled b w k)]
    (w : World β) : ∀ i : Input ⊕ κ, Decidable ((world X P).Enabled w i)
  | .inl i => inferInstanceAs (Decidable ((mqtt X).Enabled w.client i ∧
      ∀ m ∈ i.reads w.client, w.wire.down.head? = some m))
  | .inr k => inferInstanceAs (Decidable (P.Enabled w.peer w.wire k))

section World

variable {β κ : Type} {X : Externs} {P : Peer β κ} {w : World β}

theorem next_follow {i : Input} {es : List Event}
    (h : (w.client.next X i).srv.log = w.client.srv.log ++ es) :
    (world X P).next w (.inl i) = w.follow P (w.client.next X i) es := by
  show w.follow P (w.client.next X i) (List.drop _ (w.client.next X i).srv.log) = _
  rw [h, List.drop_left]

/-- **Packets go their way in order**: what a step adds comes behind what is on its way. -/
theorem pipe_suffix {s' : Sys} {es : List Event} (h : Extends w.client.srv s'.srv es) :
    (w.follow P s' es).pipe <:+ w.pipe ++ queuedPackets es := by
  have hup : (w.wire.events es).up ++ s'.srv.txQueue <:+
      (w.wire.up ++ sentPackets es) ++ s'.srv.txQueue :=
    List.suffix_append_self_iff.mpr (w.wire.up_suffix es)
  rw [List.append_assoc, h.order, ← List.append_assoc] at hup
  exact hup

end World

/-! ## Scripts -/

/-- `m` is sent by the broker, and read by the service. -/
def Input.arrives {κ : Type} (other : Inbound → κ) (m : Inbound) : List (Input ⊕ κ) :=
  [.inr (other m), .inl (.receive m)]

/-- The first `connect`; the broker reads CONNECT and SUBSCRIBE. -/
def Input.joined {κ : Type} (other : Inbound → κ) (read : κ) : List (Input ⊕ κ) :=
  .inl .go :: connecting.map .inl ++ [.inr read] ++ arrives other (.connack (some 0)) ++
    [.inl .go, .inl (.send 24), .inl .go, .inr read] ++
    arrives other (.suback (some (33153, [1, 2])))

end Miso.Mqtt

import Miso.Mqtt.Events

/-!
# The message queues

`qosQueue` belongs to the sending side of the service and `qos2Queue` to the receiving side.

* `Extends` — what has been recorded since, and that packets leave `txQueue` in order;
* `Untouched` — the steps that leave one of the two queues alone.
-/

namespace Miso.Mqtt

open Zig Net

theorem removeFirst_mem {f : QueuedMessage → Bool} {l rest : List QueuedMessage}
    {m : QueuedMessage} (h : removeFirst f l = some (m, rest)) :
    f m = true ∧ ∀ m', m' ∈ l ↔ m' = m ∨ m' ∈ rest := by
  obtain ⟨l₁, l₂, rfl, rfl, hm, -⟩ := removeFirst_some h
  refine ⟨hm, ?_⟩
  intro m'
  simp only [List.mem_append, List.mem_cons]
  tauto

/-! ## Extensions of the log -/

/-- `es` has been recorded since; packets leave `txQueue` in the order in which they enter it. -/
structure Extends (s s' : Service) (es : List Event) : Prop where
  log : s'.log = s.log ++ es
  order : sentPackets es ++ s'.txQueue = s.txQueue ++ queuedPackets es

theorem Extends.same {s s' : Service} (hlog : s'.log = s.log) (htx : s'.txQueue = s.txQueue) :
    Extends s s' [] := by
  constructor
  · simp [hlog]
  · simp [htx, sentPackets, queuedPackets]

theorem Extends.log_nil {s s' : Service} (h : Extends s s' []) : s'.log = s.log :=
  h.log.trans (List.append_nil _)

theorem Extends.refl (s : Service) : Extends s s [] := .same rfl rfl

theorem Extends.trans {s₁ s₂ s₃ : Service} {es es' : List Event} (h : Extends s₁ s₂ es)
    (h' : Extends s₂ s₃ es') : Extends s₁ s₃ (es ++ es') := by
  constructor
  · rw [h'.log, h.log, List.append_assoc]
  · rw [sentPackets_append, queuedPackets_append, List.append_assoc, h'.order,
      ← List.append_assoc, h.order, List.append_assoc]

theorem Extends.queued {s s' : Service} {p : Packet} (hlog : s'.log = s.log ++ [.queued p])
    (htx : s'.txQueue = s.txQueue ++ [p]) : Extends s s' [.queued p] := ⟨hlog, htx⟩

/-- An event that is not about `txQueue` is recorded. -/
theorem Extends.recorded {s s' : Service} {ev : Event} (hlog : s'.log = s.log ++ [ev])
    (htx : s'.txQueue = s.txQueue) (hqueued : ev.queuedPacket = none)
    (hsent : ev.sentPacket = none) : Extends s s' [ev] := by
  constructor
  · exact hlog
  · simp [sentPackets, queuedPackets, hqueued, hsent, htx]

theorem Extends.sent {s : Service} {p : Packet} {rest : List Packet} (htx : s.txQueue = p :: rest) :
    Extends s ({ s with txQueue := rest }.record [.sent p]) [.sent p] := by
  constructor
  · rfl
  · rw [htx]
    simp [sentPackets, queuedPackets, Event.sentPacket, Event.queuedPacket, Service.record]

/-! ## Untouched queues -/

/-- Since `s`, the queue has been left alone, and all events are of the kind `P`. -/
structure Untouched (P : Event → Bool) (q : Queue) (s s' : Service) : Prop where
  queue : s'.queue q = s.queue q
  log : ∃ es, Extends s s' es ∧ ∀ ev ∈ es, P ev = true

section Untouched

variable {P : Event → Bool} {q : Queue} {s s' : Service}

theorem Untouched.of_extends {es : List Event} (hqueue : s'.queue q = s.queue q)
    (h : Extends s s' es) (hes : ∀ ev ∈ es, P ev = true) : Untouched P q s s' := ⟨hqueue, es, h, hes⟩

theorem Untouched.same (hqueue : s'.queue q = s.queue q) (hlog : s'.log = s.log)
    (htx : s'.txQueue = s.txQueue) : Untouched P q s s' :=
  .of_extends hqueue (.same hlog htx) (by simp)

theorem Untouched.one {ev : Event} (hqueue : s'.queue q = s.queue q) (h : Extends s s' [ev])
    (hev : P ev = true) : Untouched P q s s' := .of_extends hqueue h (by simp [hev])

theorem untouched_frame : Frame (Untouched P q) where
  refl s := .same rfl rfl rfl
  trans := by
    intro s₁ s₂ s₃ h h'
    obtain ⟨es, hext, hes⟩ := h.log
    obtain ⟨es', hext', hes'⟩ := h'.log
    apply Untouched.of_extends (h'.queue.trans h.queue) (hext.trans hext')
    intro ev hmem
    rcases List.mem_append.mp hmem with hmem | hmem
    · exact hes ev hmem
    · exact hes' ev hmem

variable {X : Externs} {ok : Os → Nat → Bool}

theorem Prepared.not_ready {p : Packet} {k id : UInt16} {x : Exit Error UInt16}
    (h : Prepared X ok s p k id x s') (hx : x.returned = false) : ¬Ready X ok s p := by
  intro hready
  cases h with
  | queued => cases hx
  | failed _ _ hnot => exact hnot hready
  | stuck hstuck => exact hstuck hready.mutex
  | blocked _ _ _ hroom => exact hroom hready.room

/-- A packet that is not queued leaves at most the wait for it behind. -/
theorem Prepared.unqueued {p : Packet} {k id : UInt16} {x : Exit Error UInt16}
    (h : Prepared X ok s p k id x s') (hnot : ¬Ready X ok s p) (hblocked : P (.blocked p) = true) :
    Untouched P q s s' := by
  cases h with
  | queued hready => exact absurd hready hnot
  | failed =>
    apply Untouched.same
    · cases q <;> rfl
    · rfl
    · rfl
  | stuck => exact untouched_frame.refl s
  | blocked =>
    apply Untouched.one
    · cases q <;> rfl
    · exact Extends.recorded rfl rfl rfl rfl
    · exact hblocked

theorem Prepared.untouched {p : Packet} {k id : UInt16} {x : Exit Error UInt16}
    (h : Prepared X ok s p k id x s') (hqueued : P (.queued p) = true)
    (hblocked : P (.blocked p) = true) : Untouched P q s s' := by
  by_cases hready : Ready X ok s p
  · cases h with
    | queued =>
      apply Untouched.one
      · cases q <;> rfl
      · exact Extends.queued rfl rfl
      · exact hqueued
    | failed _ _ hnot => exact absurd hready hnot
    | stuck hstuck => exact absurd hready.mutex hstuck
    | blocked _ _ _ hroom => exact absurd hready.room hroom
  · exact h.unqueued hready hblocked

theorem alloc_same (s : Service) (bytes : List UInt8) :
    (s.alloc bytes).2.log = s.log ∧ (s.alloc bytes).2.txQueue = s.txQueue ∧
      ∀ q, (s.alloc bytes).2.queue q = s.queue q := by
  unfold Service.alloc
  split
  · exact ⟨rfl, rfl, fun _ => rfl⟩
  · refine ⟨rfl, rfl, ?_⟩
    intro q
    cases q <;> rfl

theorem freed_same (s : Service) (c : Content) :
    (s.freed c).log = s.log ∧ (s.freed c).txQueue = s.txQueue ∧
      ∀ q, (s.freed c).queue q = s.queue q := by
  cases c with
  | publish topic payload =>
    refine ⟨rfl, rfl, ?_⟩
    intro q
    cases q <;> rfl
  | pubrel => exact ⟨rfl, rfl, fun _ => rfl⟩

/-- A message is added to its queue, or the queues stay as they are. -/
theorem Stored.extends {q' : Queue} {packetId : UInt16} {qos : QoS} {dup retained : Bool}
    {topic payload : List UInt8} {deadline : Nat} {x : Exit Error Unit}
    (h : Stored ok s q' packetId qos dup retained topic payload deadline x s') :
    Extends s s' [] := by
  have hp := alloc_same s payload
  have ht := alloc_same (s.alloc payload).2 topic
  cases h with
  | stored =>
    apply Extends.same
    · cases q' <;> exact ht.1.trans hp.1
    · cases q' <;> exact ht.2.1.trans hp.2.1
  | noPayload => exact .refl s
  | noTopic => exact .same hp.1 hp.2.1
  | noAppend => exact .same (ht.1.trans hp.1) (ht.2.1.trans hp.2.1)

theorem alloc_bytes (s : Service) (bytes : List UInt8) : (s.alloc bytes).1.bytes = bytes := by
  unfold Service.alloc
  split
  · rename_i hempty
    exact hempty.symm
  · rfl

/-- A copy of the message is put at the end of its queue. -/
theorem stored_queue (s : Service) (q' : Queue) (packetId : UInt16) (qos : QoS)
    (dup retained : Bool) (topic payload : List UInt8) (deadline : Nat) :
    ∃ t p : Buffer, t.bytes = topic ∧ p.bytes = payload ∧
      (s.stored q' packetId qos dup retained topic payload deadline).queue q' =
        s.queue q' ++ [⟨packetId, qos, dup, retained, .publish t p, deadline⟩] := by
  have hp := (alloc_same s payload).2.2 q'
  have ht := (alloc_same (s.alloc payload).2 topic).2.2 q'
  refine ⟨_, _, alloc_bytes (s.alloc payload).2 topic, alloc_bytes s payload, ?_⟩
  rw [← hp, ← ht]
  cases q' <;> rfl

theorem Stored.not_fits {q' : Queue} {packetId : UInt16} {qos : QoS} {dup retained : Bool}
    {topic payload : List UInt8} {deadline : Nat} {x : Exit Error Unit}
    (h : Stored ok s q' packetId qos dup retained topic payload deadline x s')
    (hx : x.returned = false) : ¬Fits ok topic payload ∧ s'.queue q' = s.queue q' := by
  have hp := (alloc_same s payload).2.2 q'
  have ht := (alloc_same (s.alloc payload).2 topic).2.2 q'
  cases h with
  | stored => cases hx
  | noPayload hnot => exact ⟨fun hfits => hnot hfits.payload, rfl⟩
  | noTopic _ hnot => exact ⟨fun hfits => hnot hfits.topic, hp⟩
  | noAppend _ _ hnot =>
    refine ⟨?_, ht.trans hp⟩
    intro hfits
    rw [hfits.append] at hnot
    cases hnot

theorem Stored.other {q' : Queue} {packetId : UInt16} {qos : QoS} {dup retained : Bool}
    {topic payload : List UInt8} {deadline : Nat} {x : Exit Error Unit}
    (h : Stored ok s q' packetId qos dup retained topic payload deadline x s') (hne : q' ≠ q) :
    s'.queue q = s.queue q := by
  have hp := (alloc_same s payload).2.2
  have ht := (alloc_same (s.alloc payload).2 topic).2.2
  cases h with
  | stored =>
    cases q with
    | qosQueue =>
      cases q' with
      | qosQueue => exact absurd rfl hne
      | qos2Queue => exact (ht .qosQueue).trans (hp .qosQueue)
    | qos2Queue =>
      cases q' with
      | qosQueue => exact (ht .qos2Queue).trans (hp .qos2Queue)
      | qos2Queue => exact absurd rfl hne
  | noPayload => rfl
  | noTopic => exact hp q
  | noAppend => exact (ht q).trans (hp q)

theorem Stored.untouched {q' : Queue} {packetId : UInt16} {qos : QoS} {dup retained : Bool}
    {topic payload : List UInt8} {deadline : Nat} {x : Exit Error Unit}
    (h : Stored ok s q' packetId qos dup retained topic payload deadline x s') (hne : q' ≠ q) :
    Untouched P q s s' := .of_extends (h.other hne) h.extends (by simp)

/-- An acknowledgement changes `qosQueue` and the heap only. -/
theorem acknowledged_same {id : UInt16} {packetType : msgTypes}
    (h : s.acknowledged id packetType = some s') : s'.log = s.log ∧ s'.txQueue = s.txQueue ∧
      ∃ m, removeFirst (acks id packetType) s.qosQueue = some (m, s'.qosQueue) := by
  unfold Service.acknowledged at h
  obtain ⟨⟨m, rest⟩, hr, rfl⟩ := Option.map_eq_some_iff.mp h
  cases hc : m.content <;> exact ⟨rfl, rfl, m, hr⟩

theorem acknowledged_waiting {id : UInt16} {packetType : msgTypes}
    (h : s.acknowledged id packetType = some s') : s'.waiting = s.waiting := by
  unfold Service.acknowledged at h
  obtain ⟨⟨m, rest⟩, -, rfl⟩ := Option.map_eq_some_iff.mp h
  cases hc : m.content <;> rfl

theorem acknowledged_untouched {id : UInt16} {packetType : msgTypes}
    (h : s.acknowledged id packetType = some s') : Untouched P .qos2Queue s s' := by
  unfold Service.acknowledged at h
  obtain ⟨⟨m, rest⟩, hr, rfl⟩ := Option.map_eq_some_iff.mp h
  cases hc : m.content <;> exact .same rfl rfl rfl

theorem acknowledged_getD_untouched (s : Service) (id : UInt16) (packetType : msgTypes) :
    Untouched P .qos2Queue s ((s.acknowledged id packetType).getD s) := by
  cases h : s.acknowledged id packetType with
  | none => exact untouched_frame.refl s
  | some s' => exact acknowledged_untouched h

end Untouched

end Miso.Mqtt

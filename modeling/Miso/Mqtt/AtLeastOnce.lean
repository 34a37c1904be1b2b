import Miso.Mqtt.Retransmission
import Miso.Mqtt.Sender

/-!
# Messages that ask for an answer

A message of `qosQueue` waits for PUBACK, or for PUBREC and then for PUBCOMP.

* `due` — the packet that is still to be answered, after what has happened since;
* `Preserves` — what is due has an entry, and keeps one;
* `Lossless` — the steps that take no entry out of `qosQueue` before its answer;
* `kept_until_answered` — in a run of such steps every published message has its entry until it has
  been answered.
-/

namespace Miso.Mqtt

open Zig Net

/-! ## What is due -/

/-- The identifier of a PUBACK. -/
def Inbound.pubackId : Inbound → Option UInt16
  | .puback fields => (deserializePuback fields).toOption
  | _ => none

/-- The identifier of a PUBREC. -/
def Inbound.pubrecId : Inbound → Option UInt16
  | .pubrec fields => (deserializePubrec fields).toOption
  | _ => none

/-- The identifier of a PUBCOMP. -/
def Inbound.pubcompId : Inbound → Option UInt16
  | .pubcomp fields => (deserializePubcomp fields).toOption
  | _ => none

/-- What is due for a packet behind `m`. -/
def Packet.behind (m : Inbound) : Packet → Option Packet
  | .publish dup .qos1 retain packetId topic payload =>
    if m.pubackId = some packetId then none
    else some (.publish dup .qos1 retain packetId topic payload)
  | .publish dup .qos2 retain packetId topic payload =>
    if m.pubrecId = some packetId then some (.pubrel true packetId)
    else some (.publish dup .qos2 retain packetId topic payload)
  | .pubrel dup packetId => if m.pubcompId = some packetId then none else some (.pubrel dup packetId)
  | p => some p

def Packet.next (p : Packet) : Event → Option Packet
  | .received m => p.behind m
  | _ => some p

/-- What is due for a packet after the events. -/
def due : Packet → List Event → Option Packet
  | p, [] => some p
  | p, ev :: l => (p.next ev).bind fun p' => due p' l

/-- No packet is read. -/
def Event.unread : Event → Bool
  | .received _ => false
  | _ => true

theorem due_append (p : Packet) (l l' : List Event) :
    due p (l ++ l') = (due p l).bind fun p' => due p' l' := by
  induction l generalizing p with
  | nil => rfl
  | cons ev l ih =>
    simp only [List.cons_append, due, Option.bind_assoc]
    congr 1
    funext p'
    exact ih p'

theorem due_unread {l : List Event} (h : ∀ ev ∈ l, ev.unread = true) (p : Packet) :
    due p l = some p := by
  induction l with
  | nil => rfl
  | cons ev l ih =>
    have hnext : p.next ev = some p := by
      have hev := h ev List.mem_cons_self
      cases ev with
      | received m => cases hev
      | _ => rfl
    rw [due, hnext]
    exact ih fun ev hmem => h ev (List.mem_cons_of_mem _ hmem)

/-- A packet is due until its answer, but for a PUBLISH that a PUBREC replaces by its PUBREL. -/
theorem behind_cases {m : Inbound} {p p' : Packet} (h : p' ∈ p.behind m) :
    p' = p ∨ ∃ packetId dup retain topic payload, m.pubrecId = some packetId ∧
      p = .publish dup .qos2 retain packetId topic payload ∧ p' = .pubrel true packetId := by
  have hite {c : Prop} [Decidable c] (h : p' ∈ if c then none else some p) : p' = p := by
    split at h
    · cases h
    · exact (Option.some.inj h).symm
  cases p with
  | publish dup qos retain packetId topic payload =>
    cases qos with
    | qos0 => exact .inl (Option.some.inj h).symm
    | qos1 => exact .inl (hite h)
    | qos2 =>
      by_cases hid : m.pubrecId = some packetId
      · have hnext : some p' = some (.pubrel true packetId) := h.symm.trans (if_pos hid)
        exact .inr ⟨packetId, dup, retain, topic, payload, hid, rfl, Option.some.inj hnext⟩
      · have hnext : some p' = some (.publish dup .qos2 retain packetId topic payload) :=
          h.symm.trans (if_neg hid)
        exact .inl (Option.some.inj hnext)
  | pubrel dup packetId => exact .inl (hite h)
  | _ => exact .inl (Option.some.inj h).symm

theorem behind_asks {m : Inbound} {p p' : Packet} (h : p' ∈ p.behind m) (hp : p.asks ≠ none) :
    p'.asks ≠ none := by
  obtain rfl | ⟨packetId, _, _, _, _, -, -, rfl⟩ := behind_cases h
  · exact hp
  · exact fun hnone => by cases hnone

theorem due_asks {p p' : Packet} {l : List Event} (h : p' ∈ due p l) (hp : p.asks ≠ none) :
    p'.asks ≠ none := by
  induction l generalizing p with
  | nil =>
    obtain rfl := Option.some.inj h
    exact hp
  | cons ev l ih =>
    obtain ⟨q, hq, hdue⟩ := Option.bind_eq_some_iff.mp h
    apply ih hdue
    cases ev with
    | received m => exact behind_asks hq hp
    | _ =>
      obtain rfl := Option.some.inj hq
      exact hp

/-! ## Entries -/

/-- `qosQueue` has an entry with which `p` is repeated. -/
def Repeats (s : Service) (p : Packet) : Prop := ∃ m ∈ s.qosQueue, m.repeated = p

/-- **What is due has an entry**: it keeps it, or has been answered since. -/
def Preserves (s s' : Service) : Prop :=
  ∃ es, s'.log = s.log ++ es ∧
    ∀ p, p.asks ≠ none → Repeats s p → ∀ p' ∈ due p es, Repeats s' p'

/-- Since `s`, nothing has been read and no entry has gone. -/
structure Grows (s s' : Service) : Prop where
  queue : ∀ m ∈ s.qosQueue, m ∈ s'.qosQueue
  log : ∃ es, s'.log = s.log ++ es ∧ ∀ ev ∈ es, ev.unread = true

section Entries

variable {s s' : Service}

theorem Repeats.grows {p : Packet} (h : Repeats s p) (hgrows : Grows s s') : Repeats s' p := by
  obtain ⟨m, hm, hp⟩ := h
  exact ⟨m, hgrows.queue m hm, hp⟩

/-- An entry that is taken out is the one that is looked for. -/
theorem Repeats.removed {p : Packet} {f : QueuedMessage → Bool} {m : QueuedMessage}
    {rest : List QueuedMessage} (h : Repeats s p) (hr : removeFirst f s.qosQueue = some (m, rest)) :
    p = m.repeated ∨ ∃ e ∈ rest, e.repeated = p := by
  obtain ⟨e, he, hp⟩ := h
  obtain rfl | he := ((removeFirst_mem hr).2 e).mp he
  · exact .inl hp.symm
  · exact .inr ⟨e, he, hp⟩

theorem Grows.untouched (h : Untouched Event.unread .qosQueue s s') : Grows s s' := by
  obtain ⟨es, hext, hes⟩ := h.log
  have hqueue : s'.qosQueue = s.qosQueue := h.queue
  refine ⟨?_, es, hext.log, hes⟩
  rw [hqueue]
  exact fun m hm => hm

/-- A packet is queued, and entries are added. -/
theorem Grows.added {p : Packet} {l : List QueuedMessage} (hlog : s'.log = s.log ++ [.queued p])
    (hqueue : s'.qosQueue = s.qosQueue ++ l) : Grows s s' := by
  refine ⟨?_, _, hlog, by simp [Event.unread]⟩
  rw [hqueue]
  exact fun m hm => List.mem_append_left _ hm

theorem grows_frame : Frame Grows where
  refl s := .untouched (untouched_frame.refl s)
  trans := by
    intro s₁ s₂ s₃ h h'
    obtain ⟨es, hlog, hes⟩ := h.log
    obtain ⟨es', hlog', hes'⟩ := h'.log
    refine ⟨fun m hm => h'.queue m (h.queue m hm), es ++ es', ?_, ?_⟩
    · rw [hlog', hlog, List.append_assoc]
    · intro ev hmem
      rcases List.mem_append.mp hmem with hmem | hmem
      · exact hes ev hmem
      · exact hes' ev hmem

theorem Preserves.trans {s₁ s₂ s₃ : Service} (h : Preserves s₁ s₂) (h' : Preserves s₂ s₃) :
    Preserves s₁ s₃ := by
  obtain ⟨es, hlog, hall⟩ := h
  obtain ⟨es', hlog', hall'⟩ := h'
  refine ⟨es ++ es', by rw [hlog', hlog, List.append_assoc], ?_⟩
  intro p hp hrep p' hp'
  rw [due_append] at hp'
  obtain ⟨q, hq, hdue⟩ := Option.bind_eq_some_iff.mp hp'
  exact hall' q (due_asks hq hp) (hall p hp hrep q hq) p' hdue

theorem Preserves.grows (h : Grows s s') : Preserves s s' := by
  obtain ⟨es, hlog, hes⟩ := h.log
  refine ⟨es, hlog, ?_⟩
  intro p _ hrep p' hp'
  rw [due_unread hes] at hp'
  obtain rfl := Option.some.inj hp'
  exact hrep.grows h

/-- An entry is taken out and put back. -/
theorem Preserves.renewed {f : QueuedMessage → Bool} {m : QueuedMessage} {rest : List QueuedMessage}
    (hr : removeFirst f s.qosQueue = some (m, rest)) (h : Grows { s with qosQueue := rest } s')
    (hm : m.repeated.asks ≠ none → Repeats s' m.repeated) : Preserves s s' := by
  obtain ⟨es, hlog, hes⟩ := h.log
  refine ⟨es, hlog, ?_⟩
  intro p hasks hrep p' hp'
  rw [due_unread hes] at hp'
  obtain rfl := Option.some.inj hp'
  obtain rfl | hrest := hrep.removed hr
  · exact hm hasks
  · exact Repeats.grows (s := { s with qosQueue := rest }) hrest h

/-- A packet is read. -/
theorem Preserves.read {m : Inbound}
    (h : ∃ es, s'.log = (s.record [.received m]).log ++ es ∧ ∀ ev ∈ es, ev.unread = true)
    (hall : ∀ p, p.asks ≠ none → Repeats s p → ∀ p' ∈ p.behind m, Repeats s' p') :
    Preserves s s' := by
  obtain ⟨es, hlog, hes⟩ := h
  refine ⟨.received m :: es, ?_, ?_⟩
  · rw [hlog]
    exact List.append_assoc ..
  · intro p hasks hrep p' hp'
    obtain ⟨q, hq, hdue⟩ := Option.bind_eq_some_iff.mp hp'
    rw [due_unread hes] at hdue
    obtain rfl := Option.some.inj hdue
    exact hall p hasks hrep q hq

/-- A PUBREC for no message with quality of service 2. -/
def Inbound.Unheeded (s : Service) (m : Inbound) : Prop :=
  ∀ id ∈ m.pubrecId, ∀ e ∈ s.qosQueue, acks id .publish e = true → e.qos ≠ .qos2

/-- The packet of an entry that waits for PUBACK or PUBREC. -/
theorem repeated_publish {id : UInt16} {m : QueuedMessage} (h : acks id .publish m = true) :
    ∃ topic payload, m.repeated = .publish true m.qos false id topic payload := by
  obtain ⟨rfl, htype⟩ := of_decide_eq_true h
  unfold QueuedMessage.packetType at htype
  unfold QueuedMessage.repeated
  cases hc : m.content with
  | publish topic payload => exact ⟨topic.bytes, payload.bytes, rfl⟩
  | pubrel =>
    rw [hc] at htype
    cases htype

/-- The packet of an entry that waits for PUBCOMP. -/
theorem repeated_pubrel {id : UInt16} {m : QueuedMessage} (h : acks id .pubrel m = true) :
    m.repeated = .pubrel true id := by
  obtain ⟨rfl, htype⟩ := of_decide_eq_true h
  unfold QueuedMessage.packetType at htype
  unfold QueuedMessage.repeated
  cases hc : m.content with
  | publish topic payload =>
    rw [hc] at htype
    cases htype
  | pubrel => rfl

/-- The entry with which a PUBLISH is repeated. -/
theorem Repeats.publish {dup retain : Bool} {qos : QoS} {id : UInt16} {topic payload : List UInt8}
    (h : Repeats s (.publish dup qos retain id topic payload)) :
    ∃ m ∈ s.qosQueue, acks id .publish m = true ∧ m.qos = qos := by
  obtain ⟨m, hm, hp⟩ := h
  unfold QueuedMessage.repeated at hp
  cases hc : m.content with
  | publish t p =>
    rw [hc] at hp
    cases hp
    refine ⟨m, hm, decide_eq_true ⟨rfl, ?_⟩, rfl⟩
    unfold QueuedMessage.packetType
    rw [hc]
    rfl
  | pubrel =>
    rw [hc] at hp
    cases hp

/-- A packet is read, and `qosQueue` is left alone. -/
theorem Preserves.aside {m : Inbound} (hm : m.Unheeded s) (h : Grows (s.record [.received m]) s') :
    Preserves s s' := by
  apply Preserves.read h.log
  intro p hasks hrep p' hp'
  obtain rfl | ⟨id, _, _, _, _, hid, rfl, -⟩ := behind_cases hp'
  · exact Repeats.grows (s := s.record [.received m]) hrep h
  · obtain ⟨e, he, hacks, hqos⟩ := hrep.publish
    exact absurd hqos (hm id hid e he hacks)

end Entries

/-! ## The functions of the service -/

section Relations

variable {X : Externs} {ok : Os → Nat → Bool} {s s' : Service}

theorem Published.grows {topic payload : List UInt8} {qos : QoS} {dup : Bool}
    {packetId : Option UInt16} {deadline : Nat} {x : Exit Error Unit}
    (h : Published X ok s topic payload qos dup packetId deadline x s') : Grows s s' := by
  cases h with
  | failed _ _ hprep => exact .untouched (hprep.untouched rfl rfl)
  | halted _ hprep => exact .untouched (hprep.untouched rfl rfl)
  | queued x _ _ hstored =>
    have hlog := hstored.extends.log_nil
    by_cases hx : x.returned = true
    · cases hstored with
      | stored =>
        obtain ⟨t, p, -, -, hqueue⟩ := stored_queue ((s.withId (publishState s packetId)).enqueue
          (publishPacket s topic payload qos dup packetId)) .qosQueue (publishId s packetId) qos dup
          false topic payload deadline
        exact .added hlog hqueue
      | _ => cases hx
    · obtain ⟨-, hqueue⟩ := hstored.not_fits (Bool.eq_false_iff.mpr hx)
      exact .added (l := []) hlog (hqueue.trans (List.append_nil _).symm)

theorem Released.grows {packetId : UInt16} {dup stored : Bool} {x : Exit Error Unit}
    (h : Released X ok s packetId dup stored x s') : Grows s s' := by
  cases h with
  | failed _ _ hprep => exact .untouched (hprep.untouched rfl rfl)
  | halted _ hprep => exact .untouched (hprep.untouched rfl rfl)
  | overflow => exact .untouched (.one rfl (.queued rfl rfl) rfl)
  | noAppend => exact .untouched (.one rfl (.queued rfl rfl) rfl)
  | queued => exact .added rfl rfl

/-- A message that is published again has its entry afterwards. -/
theorem Published.repeats {m : QueuedMessage} {rest : List QueuedMessage} {topic payload : Buffer}
    {x : Exit Error Unit} (hc : m.content = .publish topic payload)
    (h : Published X ok { s with qosQueue := rest } topic.bytes payload.bytes m.qos true
      (some m.packetId) (s.now + 2000) x s')
    (hready : Ready X ok { s with qosQueue := rest } m.repeated)
    (hfits : Fits ok topic.bytes payload.bytes) : Repeats s' m.repeated := by
  have hpacket : publishPacket { s with qosQueue := rest } topic.bytes payload.bytes m.qos true
      (some m.packetId) = m.repeated := by
    simp only [QueuedMessage.repeated, hc]
    rfl
  rw [← hpacket] at hready
  obtain ⟨-, rfl⟩ := h.complete hready hfits
  obtain ⟨m', hrearms⟩ := rearms_publish (s := s) rest hc
  rw [hpacket]
  refine ⟨m', ?_, hrearms.copy.repeated⟩
  have hlast : m' ∈ rest ++ [m'] := List.mem_append_right _ (List.mem_singleton.mpr rfl)
  rw [← hrearms.qosQueue] at hlast
  exact hlast

theorem Delivered.grows {packetId : UInt16} {r : publish_response} {x : Exit Error Pc}
    (h : Delivered ok s packetId r x s') : Grows s s' := by
  apply Grows.untouched
  cases h with
  | reset => exact .one rfl (.recorded rfl rfl rfl rfl) rfl
  | printed => exact .one rfl (.recorded rfl rfl rfl rfl) rfl
  | kept _ _ _ _ hstored => exact hstored.untouched (by decide)
  | lost _ _ _ _ _ hstored => exact hstored.untouched (by decide)
  | _ => exact untouched_frame.refl s

variable (X) in
/-- A PUBREL is queued and stored. -/
structure Releasable (ok : Os → Nat → Bool) (s : Service) (p : Packet) : Prop where
  ready : Ready X ok s p
  append : ok .append 0 = true
  clock : s.now ≤ u32_max - 2000

instance (ok : Os → Nat → Bool) (s : Service) (p : Packet) : Decidable (Releasable X ok s p) :=
  decidable_of_iff (Ready X ok s p ∧ ok .append 0 = true ∧ s.now ≤ u32_max - 2000)
    ⟨fun ⟨h₁, h₂, h₃⟩ => ⟨h₁, h₂, h₃⟩, fun ⟨h₁, h₂, h₃⟩ => ⟨h₁, h₂, h₃⟩⟩

theorem Released.repeats {id : UInt16} {dup stored : Bool} {x : Exit Error Unit}
    (h : Released X ok s id dup stored x s') (hrel : Releasable X ok s (.pubrel dup id)) :
    Repeats s' (.pubrel true id) := by
  obtain ⟨-, rfl⟩ := h.complete hrel.ready hrel.clock hrel.append
  exact ⟨_, List.mem_append_right _ (List.mem_singleton.mpr rfl), rfl⟩

variable (X) in
/-- **The packet takes no entry out of `qosQueue` before its answer**: a PUBACK is for no message
with quality of service 2, a PUBREC for none with 1, and nothing keeps a PUBREL from being queued
and stored. -/
structure Inbound.Lossless (ok : Os → Nat → Bool) (s : Service) (m : Inbound) : Prop where
  puback : ∀ id ∈ m.pubackId, ∀ r ∈ removeFirst (acks id .publish) s.qosQueue, r.1.qos ≠ .qos2
  pubrec : ∀ id ∈ m.pubrecId, ∀ r ∈ removeFirst (acks id .publish) s.qosQueue, r.1.qos ≠ .qos1 ∧
    ((∃ e ∈ s.qosQueue, e.packetId = id ∧ (e.qos = .qos2 ∨ e.packetType = .pubrel)) →
      ∀ p ∈ answer s m, Releasable X ok s p)

/-- An acknowledged entry is taken out. -/
theorem acknowledged_grows {id : UInt16} {packetType : msgTypes}
    (h : s.acknowledged id packetType = some s') :
    ∃ m rest, removeFirst (acks id packetType) s.qosQueue = some (m, rest) ∧
      acks id packetType m = true ∧ s'.qosQueue = rest ∧ s'.log = s.log := by
  obtain ⟨hlog, -, m, hr⟩ := acknowledged_same h
  exact ⟨m, s'.qosQueue, hr, (removeFirst_mem hr).1, rfl, hlog⟩

theorem pubackId_eq {fields : Option AckFields} {id : UInt16}
    (h : deserializePuback fields = .ok id) : (Inbound.puback fields).pubackId = some id := by
  simp [Inbound.pubackId, h, Except.toOption]

theorem pubrecId_eq {fields : Option AckFields} {id : UInt16}
    (h : deserializePubrec fields = .ok id) : (Inbound.pubrec fields).pubrecId = some id := by
  simp [Inbound.pubrecId, h, Except.toOption]

theorem pubcompId_eq {fields : Option AckFields} {id : UInt16}
    (h : deserializePubcomp fields = .ok id) : (Inbound.pubcomp fields).pubcompId = some id := by
  simp [Inbound.pubcompId, h, Except.toOption]

/-- A PUBACK or PUBCOMP takes out the entry that it answers. -/
theorem answered_preserves {m : Inbound} {id : UInt16} {packetType : msgTypes}
    (hack : (s.record [.received m]).acknowledged id packetType = some s')
    (hpubrec : m.pubrecId = none)
    (hanswers : ∀ e rest, removeFirst (acks id packetType) s.qosQueue = some (e, rest) →
      acks id packetType e = true → e.repeated.asks ≠ none → e.repeated.behind m = none) :
    Preserves s s' := by
  obtain ⟨e, rest, hr, he, hqueue, hlog⟩ := acknowledged_grows hack
  apply Preserves.read ⟨[], hlog.trans (List.append_nil _).symm, by simp⟩
  intro p hasks hrep p' hp'
  obtain rfl | hrest := hrep.removed hr
  · rw [hanswers e rest hr he hasks] at hp'
    cases hp'
  · obtain rfl | ⟨_, _, _, _, _, hid, -, -⟩ := behind_cases hp'
    · unfold Repeats
      rw [hqueue]
      exact hrest
    · rw [hpubrec] at hid
      cases hid

theorem puback_preserves {fields : Option AckFields} {id : UInt16}
    (hid : deserializePuback fields = .ok id)
    (hack : (s.record [.received (.puback fields)]).acknowledged id .publish = some s')
    (hC : (Inbound.puback fields).Lossless X ok s) : Preserves s s' := by
  apply answered_preserves hack rfl
  intro e rest hr he hasks
  have hqos := hC.puback id (pubackId_eq hid) _ hr
  obtain ⟨topic, payload, hp⟩ := repeated_publish he
  rw [hp] at hasks ⊢
  cases hq : e.qos with
  | qos0 =>
    rw [hq] at hasks
    exact absurd rfl hasks
  | qos1 => exact if_pos (pubackId_eq hid)
  | qos2 => exact absurd hq hqos

theorem pubcomp_preserves {fields : Option AckFields} {id : UInt16}
    (hid : deserializePubcomp fields = .ok id)
    (hack : (s.record [.received (.pubcomp fields)]).acknowledged id .pubrel = some s') :
    Preserves s s' := by
  apply answered_preserves hack rfl
  intro e _ _ he _
  rw [repeated_pubrel he]
  exact if_pos (pubcompId_eq hid)

theorem Releasable.congr {p : Packet} (h : Releasable X ok s p) (hwaiting : s'.waiting = s.waiting)
    (htx : s'.txQueue = s.txQueue) (hnow : s'.now = s.now) : Releasable X ok s' p where
  ready := h.ready.congr hwaiting htx
  append := h.append
  clock := by
    rw [hnow]
    exact h.clock

/-- What an acknowledgement leaves alone, and what it takes out. -/
theorem acknowledged_getD_aside (s : Service) (id : UInt16) (packetType : msgTypes) :
    ∃ s', (s.acknowledged id packetType).getD s = s' ∧ s'.log = s.log ∧ s'.txQueue = s.txQueue ∧
      s'.waiting = s.waiting ∧ s'.now = s.now ∧
      ∀ e ∈ s.qosQueue, e ∈ s'.qosQueue ∨ acks id packetType e = true := by
  cases h : s.acknowledged id packetType with
  | none => exact ⟨s, rfl, rfl, rfl, rfl, rfl, fun e he => .inl he⟩
  | some s' =>
    refine ⟨s', rfl, ?_⟩
    unfold Service.acknowledged at h
    obtain ⟨⟨m, rest⟩, hr, rfl⟩ := Option.map_eq_some_iff.mp h
    have hqueue : ∀ e ∈ s.qosQueue, e ∈ rest ∨ acks id packetType e = true := by
      intro e he
      obtain rfl | he := ((removeFirst_mem hr).2 e).mp he
      · exact .inr (removeFirst_mem hr).1
      · exact .inl he
    cases hc : m.content <;> exact ⟨rfl, rfl, rfl, rfl, hqueue⟩

/-- A PUBREC takes out a PUBLISH and a PUBREL, and puts a PUBREL in their place. -/
theorem pubrec_preserves {fields : Option AckFields} {id : UInt16} {s₁ : Service}
    {x : Exit Error Unit} (hid : deserializePubrec fields = .ok id)
    (hack : (s.record [.received (.pubrec fields)]).acknowledged id .publish = some s₁)
    (hrel : Released X ok ((s₁.acknowledged id .pubrel).getD s₁) id
      (s₁.acknowledged id .pubrel).isSome false x s')
    (hC : (Inbound.pubrec fields).Lossless X ok s) : Preserves s s' := by
  obtain ⟨hlog, htx, m, hr⟩ := acknowledged_same hack
  have hwaiting := acknowledged_waiting hack
  have hnow : s₁.now = s.now := by
    unfold Service.acknowledged at hack
    obtain ⟨⟨m, rest⟩, -, rfl⟩ := Option.map_eq_some_iff.mp hack
    cases hc : m.content <;> rfl
  have hm := (removeFirst_mem hr).1
  obtain ⟨hqos, hpubrel⟩ := hC.pubrec id (pubrecId_eq hid) _ hr
  have hanswer := pubrec_answer (s := s) hid hr
  obtain ⟨s₂, hs₂, hlog₂, htx₂, hwaiting₂, hnow₂, hqueue₂⟩ := acknowledged_getD_aside s₁ id .pubrel
  rw [hs₂] at hrel
  -- a message with quality of service 2 has its PUBREL afterwards
  have hsecond : (∃ e ∈ s.qosQueue, e.packetId = id ∧ (e.qos = .qos2 ∨ e.packetType = .pubrel)) →
      Repeats s' (.pubrel true id) := by
    intro hsome
    apply hrel.repeats
    exact (hpubrel hsome _ hanswer).congr (hwaiting₂.trans hwaiting) (htx₂.trans htx)
      (hnow₂.trans hnow)
  obtain ⟨es, hes, hunread⟩ := hrel.grows.log
  apply Preserves.read ⟨es, by rw [hes, hlog₂, hlog], hunread⟩
  intro p hasks hrep p' hp'
  obtain rfl | ⟨id', _, _, _, _, hid', rfl, rfl⟩ := behind_cases hp'
  · obtain ⟨e, he, hp⟩ := hrep
    obtain rfl | hrest := ((removeFirst_mem hr).2 e).mp he
    · obtain ⟨topic, payload, hpub⟩ := repeated_publish hm
      rw [← hp, hpub] at hasks hp'
      cases hq : e.qos with
      | qos0 =>
        rw [hq] at hasks
        exact absurd rfl hasks
      | qos1 => exact absurd hq hqos
      | qos2 =>
        rw [hq] at hp'
        have hpubrel : some _ = some (Packet.pubrel true id) := hp'.symm.trans (if_pos (pubrecId_eq hid))
        cases hpubrel
    · obtain hkept | hacks := hqueue₂ e hrest
      · exact Repeats.grows ⟨e, hkept, hp⟩ hrel.grows
      · rw [← hp, repeated_pubrel hacks]
        obtain ⟨heid, htype⟩ := of_decide_eq_true hacks
        exact hsecond ⟨e, he, heid, .inr htype⟩
  · rw [pubrecId_eq hid] at hid'
    obtain rfl := Option.some.inj hid'
    obtain ⟨e, he, hacks, heqos⟩ := hrep.publish
    exact hsecond ⟨e, he, (of_decide_eq_true hacks).1, .inl heqos⟩

/-- A round of the receive loop. -/
theorem Received.preserves {m : Inbound} {x : Exit Error Pc}
    (h : Received X ok (s.record [.received m]) m x s') (hC : m.Lossless X ok s) :
    Preserves s s' := by
  have haside (hm : m.pubrecId = none) (h : Grows (s.record [.received m]) s') :
      Preserves s s' := by
    apply Preserves.aside _ h
    intro id hid
    rw [hm] at hid
    cases hid
  have hsame : Grows (s.record [.received m]) (s.record [.received m]) := grows_frame.refl _
  have hqueued (p : Packet) : Grows (s.record [.received m]) ((s.record [.received m]).enqueue p) :=
    .added (l := []) rfl (List.append_nil _).symm
  have htaken (rest : List QueuedMessage) : Grows (s.record [.received m])
      { s.record [.received m] with qos2Queue := rest } := .untouched (.same rfl rfl rfl)
  cases h with
  | again _ hm =>
    obtain rfl | rfl | rfl := hm
    · exact haside rfl hsame
    · exact haside rfl hsame
    · exact haside rfl hsame
  | left _ hm =>
    obtain rfl | rfl := hm
    · exact haside rfl hsame
    · exact haside rfl hsame
  | malformed _ _ herr =>
    apply haside _ hsame
    cases m with
    | pubrec fields =>
      cases hid : deserializePubrec fields with
      | ok id =>
        rw [Inbound.error_pubrec, hid] at herr
        cases herr
      | error err => simp [Inbound.pubrecId, hid, Except.toOption]
    | _ => rfl
  | reserved => exact haside rfl hsame
  | publish0 _ _ _ _ _ _ hdel => exact haside rfl hdel.grows
  | publish1 => exact haside rfl (hqueued _)
  | publish2 _ _ _ _ _ _ _ hdel => exact haside rfl (grows_frame.trans (hqueued _) hdel.grows)
  | unanswered _ _ p _ _ _ hp hprep =>
    obtain ⟨-, rfl⟩ | ⟨-, rfl⟩ := hp
    · exact haside rfl (.untouched (hprep.untouched rfl rfl))
    · exact haside rfl (.untouched (hprep.untouched rfl rfl))
  | unansweredHalt _ _ p _ _ hp hprep =>
    obtain ⟨-, rfl⟩ | ⟨-, rfl⟩ := hp
    · exact haside rfl (.untouched (hprep.untouched rfl rfl))
    · exact haside rfl (.untouched (hprep.untouched rfl rfl))
  | puback _ _ _ hid hack => exact puback_preserves hid hack hC
  | pubackUnknown => exact haside rfl hsame
  | pingresp => exact haside rfl (.untouched (.one rfl (.recorded rfl rfl rfl rfl) rfl))
  | pingrespUnknown => exact haside rfl (.untouched (.one rfl (.recorded rfl rfl rfl rfl) rfl))
  | pubrec _ _ _ _ _ hid hack hrel => exact pubrec_preserves hid hack hrel hC
  | pubrecUnknown _ id hid hack =>
    apply Preserves.aside _ hsame
    intro id' hid' e he hacks
    rw [pubrecId_eq hid] at hid'
    obtain rfl := Option.some.inj hid'
    rw [removeFirst_none (acknowledged_none hack) e he] at hacks
    cases hacks
  | pubrel _ _ _ rest =>
    exact haside rfl
      (grows_frame.trans (htaken rest) (.added (l := []) rfl (List.append_nil _).symm))
  | pubrelFailed _ _ _ rest _ _ _ _ hprep =>
    exact haside rfl (grows_frame.trans (htaken rest) (.untouched (hprep.untouched rfl rfl)))
  | pubrelHalted _ _ _ rest _ _ _ hprep =>
    exact haside rfl (grows_frame.trans (htaken rest) (.untouched (hprep.untouched rfl rfl)))
  | pubrelUnknown => exact haside rfl hsame
  | pubcomp _ _ _ hid hack => exact pubcomp_preserves hid hack
  | pubcompUnknown => exact haside rfl hsame
  | suback => exact haside rfl (.untouched (.one rfl (.recorded rfl rfl rfl rfl) rfl))
  | subackLong => exact haside rfl (.untouched (.one rfl (.recorded rfl rfl rfl rfl) rfl))

end Relations

/-! ## The steps -/

section Steps

variable (X : Externs)

instance (ok : Os → Nat → Bool) (s : Service) (m : Inbound) : Decidable (m.Lossless X ok s) :=
  have : Decidable (∀ id ∈ m.pubackId, ∀ r ∈ removeFirst (acks id .publish) s.qosQueue,
      r.1.qos ≠ .qos2) := Option.decidableForallMem _
  have : Decidable (∀ id ∈ m.pubrecId, ∀ r ∈ removeFirst (acks id .publish) s.qosQueue,
      r.1.qos ≠ .qos1 ∧
        ((∃ e ∈ s.qosQueue, e.packetId = id ∧ (e.qos = .qos2 ∨ e.packetType = .pubrel)) →
          ∀ p ∈ answer s m, Releasable X ok s p)) := Option.decidableForallMem _
  decidable_of_iff (_ ∧ _) ⟨fun h => ⟨h.1, h.2⟩, fun h => ⟨h.1, h.2⟩⟩

instance (s : Service) (m : Inbound) : Decidable (m.Unheeded s) :=
  Option.decidableForallMem _

/-- An expired entry is queued and stored again; a PUBREC that comes while the task waits for CONNACK
or SUBACK is for no entry. -/
def Pc.Lossless (e : Env) (s : Service) : Pc → Prop
  | retransmit => ∀ r ∈ removeFirst (expired s.now) s.qosQueue, r.1.repeated.asks ≠ none →
    Ready X e.ok s r.1.repeated ∧ r.1.Fits e.ok ∧ s.now ≤ u32_max - 2000
  | connack => e.waitRx 0 = some true → (e.read 0).Unheeded s
  | suback _ => e.waitRx 0 = some true → (e.read 0).Unheeded s
  | receive => e.waitRx 0 = some true → (e.read 0).Lossless X e.ok s
  | _ => True

/-- **The step takes no entry out of `qosQueue` before its answer.** -/
def Lossless (s : Sys) : Input → Prop
  | .task a => s.pc.Lossless X a.env s.srv
  | _ => True

instance (e : Env) (s : Service) : ∀ pc : Pc, Decidable (pc.Lossless X e s)
  | .retransmit => Option.decidableForallMem _
  | .connack => inferInstanceAs (Decidable (_ → _))
  | .suback _ => inferInstanceAs (Decidable (_ → _))
  | .receive => inferInstanceAs (Decidable (_ → _))
  | .start | .connect | .connectPacket | .subscribe | .expire | .drain _ | .deliver _ _
  | .complete _ _ | .refused _ | .disconnect _ | .close _ | .lost _ | .halted | .trapped =>
    inferInstanceAs (Decidable True)

instance (s : Sys) : ∀ i : Input, Decidable (Lossless X s i)
  | .task _ => inferInstanceAs (Decidable (Pc.Lossless _ _ _ _))
  | .job _ _ => inferInstanceAs (Decidable True)
  | .resume _ => inferInstanceAs (Decidable True)
  | .clock _ => inferInstanceAs (Decidable True)

variable {X} {s s' : Service}

/-- **Every step of the task** preserves what is due. -/
theorem Taken.preserves {e : Env} {fuel : Nat} {l l' : Link} {pc : Pc} {x : Exit Error Pc}
    (h : Taken X e fuel l pc s x s' l') (hC : pc.Lossless X e s) : Preserves s s' := by
  have hread {s' : Service} (hwait : e.waitRx 0 = some true)
      (hm : e.waitRx 0 = some true → (e.read 0).Unheeded s)
      (h : Untouched Event.unread .qosQueue (s.record [.received (e.read 0)]) s') :
      Preserves s s' := .aside (hm hwait) (.untouched h)
  have hgrows {s' : Service} (h : Untouched Event.unread .qosQueue s s') : Preserves s s' :=
    .grows (.untouched h)
  cases h with
  | start => exact hgrows (.same rfl rfl rfl)
  | opened => exact hgrows (.one rfl (.recorded rfl rfl rfl rfl) rfl)
  | openFailed => exact hgrows (.same rfl rfl rfl)
  | openTrap => exact hgrows (.same rfl rfl rfl)
  | openHalt => exact hgrows (.same rfl rfl rfl)
  | connectPacket _ _ _ hprep => exact hgrows (hprep.untouched rfl rfl)
  | connackAccepted _ hwait => exact hread hwait hC (untouched_frame.refl _)
  | connackRefused _ _ hwait => exact hread hwait hC (untouched_frame.refl _)
  | connackReserved _ hwait => exact hread hwait hC (untouched_frame.refl _)
  | subscribe _ _ _ hprep => exact hgrows (hprep.untouched rfl rfl)
  | subackTimeout => exact hgrows (.same rfl rfl rfl)
  | subackOther _ _ hwait => exact hread hwait hC (.same rfl rfl rfl)
  | suback _ _ _ _ hwait => exact hread hwait hC (.one rfl (.recorded rfl rfl rfl rfl) rfl)
  | subackMalformed _ _ hwait => exact hread hwait hC (untouched_frame.refl _)
  | subackReserved _ _ hwait => exact hread hwait hC (untouched_frame.refl _)
  | subackIndex _ _ _ _ hwait => exact hread hwait hC (.one rfl (.recorded rfl rfl rfl rfl) rfl)
  | retransmit _ msg rest topic payload x _ hr hc hnow hpub =>
    apply Preserves.renewed hr hpub.grows
    intro hasks
    obtain ⟨hready, hfits, -⟩ := hC _ hr hasks
    unfold QueuedMessage.Fits at hfits
    rw [hc] at hfits
    exact hpub.repeats hc (hready.congr rfl rfl) hfits
  | retransmitOverflow _ msg rest topic payload hr hc hlt =>
    apply Preserves.renewed hr (grows_frame.refl _)
    intro hasks
    exact absurd (hC _ hr hasks).2.2 (Nat.not_le.mpr hlt)
  | retransmitPubrel _ msg rest x _ hr hc hrel =>
    apply Preserves.renewed hr hrel.grows
    intro hasks
    obtain ⟨hready, hfits, hnow⟩ := hC _ hr hasks
    have hpacket : msg.repeated = .pubrel true msg.packetId := by
      simp only [QueuedMessage.repeated, hc]
    unfold QueuedMessage.Fits at hfits
    rw [hc] at hfits
    rw [hpacket] at hready ⊢
    exact hrel.repeats ⟨hready.congr rfl rfl, hfits, hnow⟩
  | expire _ msg rest =>
    have hfreed := freed_same { s with qos2Queue := rest } msg.content
    exact hgrows (.same (hfreed.2.2 .qosQueue) hfreed.1 hfreed.2.1)
  | expirePubrel => exact hgrows (.same rfl rfl rfl)
  | drained => exact hgrows (.one rfl (.recorded rfl rfl rfl rfl) rfl)
  | sent _ _ _ _ _ _ htx => exact hgrows (.one rfl (.sent htx) rfl)
  | sendFailed _ _ _ _ _ _ htx => exact hgrows (.one rfl (.sent htx) rfl)
  | sendTrap _ _ _ _ _ htx => exact hgrows (.one rfl (.sent htx) rfl)
  | sendHalt _ _ _ _ _ htx => exact hgrows (.one rfl (.sent htx) rfl)
  | received _ _ _ hwait hrec => exact hrec.preserves (hC hwait)
  | deliver _ _ _ _ _ hdel => exact .grows hdel.grows
  | completed packetId msg _ topic payload hc =>
    have hfreed := freed_same
      (s.record [.handover packetId msg.qos topic.bytes payload.bytes]) msg.content
    exact hgrows (.one (hfreed.2.2 .qosQueue) (.recorded hfreed.1 hfreed.2.1 rfl rfl) rfl)
  | refused => exact hgrows (.one rfl (.recorded rfl rfl rfl rfl) rfl)
  | disconnect _ _ _ _ hprep =>
    have hstopped : Untouched Event.unread .qosQueue s s.disconnecting := .same rfl rfl rfl
    exact hgrows (untouched_frame.trans hstopped (hprep.untouched rfl rfl))
  | close => exact hgrows (.one rfl (.recorded rfl rfl rfl rfl) rfl)
  | lostReset => exact hgrows (.same rfl rfl rfl)
  | _ => exact hgrows (untouched_frame.refl s)

theorem Called.grows {ok : Os → Nat → Bool} {j : Job} {x : Exit Error Unit}
    (h : Called X ok s j x s') : Grows s s' := by
  cases h with
  | pinged => exact .added (l := []) rfl (List.append_nil _).symm
  | pingFailed _ _ _ hprep => exact .untouched (hprep.untouched rfl rfl)
  | pingWaits _ _ hprep => exact .untouched (hprep.untouched rfl rfl)
  | published _ _ _ _ _ _ _ hpub => exact hpub.grows
  | publishFailed _ _ _ _ _ _ hpub => exact hpub.grows
  | pubTimerFailed _ _ _ hpub => exact hpub.grows
  | publishWaits _ _ _ _ _ _ _ hpub => exact hpub.grows
  | overflow => exact grows_frame.refl s

theorem begun_grows (j : Job) (s : Service) : Grows s (j.begun s) := by
  cases j with
  | pingTimer tick => exact .untouched (.one rfl (.recorded rfl rfl rfl rfl) rfl)
  | pubTimer => exact grows_frame.refl s
  | publish topic payload qos => exact grows_frame.refl s

/-- **Every step of the system** preserves what is due. -/
theorem Moved.preserves {s s' : Sys} {i : Input} (h : Moved X s i s') (hC : Lossless X s i) :
    Preserves s.srv s'.srv := by
  cases h with
  | task a x srv' link' htaken => exact htaken.preserves hC
  | pingFull => exact .grows (.untouched (.one rfl (.recorded rfl rfl rfl rfl) rfl))
  | job j env x srv' _ hcalled =>
    exact .grows (grows_frame.trans (begun_grows j s.srv) hcalled.grows)
  | waits j =>
    have hwaits : Grows (j.begun s.srv) { j.begun s.srv with waiting := some j } :=
      .untouched (.same rfl rfl rfl)
    exact .grows (grows_frame.trans (begun_grows j s.srv) hwaits)
  | idle => exact .grows (grows_frame.refl _)
  | resumed j env x srv' _ hcalled =>
    have hresumed : Grows s.srv { s.srv with waiting := none } := .untouched (.same rfl rfl rfl)
    exact .grows (grows_frame.trans hresumed hcalled.grows)
  | stays => exact .grows (grows_frame.refl _)
  | clock => exact .grows (.untouched (.same rfl rfl rfl))

end Steps

/-! ## The runs -/

section Runs

variable (X : Externs)

/-- **`publish` returns without error** in the step `i`: in a callback, in one that has waited, or for
an expired entry. -/
inductive Publishes (s : Sys) : Input → UInt16 → QoS → List UInt8 → List UInt8 → Prop where
  | job (j : Job) (env : Env) (topic payload : List UInt8) (qos : QoS) :
    j.publishes = some (topic, payload, qos) → s.srv.now ≤ u32_max - 2000 →
    (publish X topic payload qos false none (s.srv.now + 2000) ⟨s.srv, s.link, env⟩).1 = .ok () →
    Publishes s (.job j env) (publishId s.srv none) qos topic payload
  | resume (j : Job) (env : Env) (topic payload : List UInt8) (qos : QoS) :
    s.srv.waiting = some j → j.publishes = some (topic, payload, qos) →
    s.srv.now ≤ u32_max - 2000 →
    (publish X topic payload qos false none (s.srv.now + 2000)
      ⟨{ s.srv with waiting := none }, s.link, env⟩).1 = .ok () →
    Publishes s (.resume env) (publishId s.srv none) qos topic payload
  | again (a : Answers) (m : QueuedMessage) (rest : List QueuedMessage) (topic payload : Buffer) :
    s.pc = .retransmit → removeFirst (expired s.srv.now) s.srv.qosQueue = some (m, rest) →
    m.content = .publish topic payload → s.srv.now ≤ u32_max - 2000 →
    (publish X topic.bytes payload.bytes m.qos true (some m.packetId) (s.srv.now + 2000)
      { s.start a with srv := { s.srv with qosQueue := rest } }).1 = .ok () →
    Publishes s (.task a) m.packetId m.qos topic.bytes payload.bytes

variable {X} {s s' : Sys} {i : Input} {id : UInt16} {qos : QoS} {topic payload : List UInt8}

/-- The packet is queued and its message is stored, if `publish` returns without error. -/
theorem publish_ok {dup : Bool} {packetId : Option UInt16} {deadline : Nat} {s : State}
    (h : (publish X topic payload qos dup packetId deadline s).1 = .ok ()) :
    Ready X s.env.ok s.srv (publishPacket s.srv topic payload qos dup packetId) ∧
      Fits s.env.ok topic payload := by
  have hspec := (publish_spec X topic payload qos dup packetId deadline s).2
  rw [h] at hspec
  generalize (publish X topic payload qos dup packetId deadline s).2.srv = s' at hspec
  cases hspec with
  | queued _ _ hready hstored =>
    cases hstored with
    | stored hfits => exact ⟨hready, hfits⟩

/-- The entry of a message that has been stored. -/
theorem stored_repeats (s : Service) (dup : Bool) (deadline : Nat) :
    Repeats (s.stored .qosQueue id qos dup false topic payload deadline)
      (.publish true qos false id topic payload) := by
  obtain ⟨t, p, rfl, rfl, hmem⟩ := stored_mem s id qos dup false topic payload deadline
  exact ⟨_, hmem, rfl⟩

/-- A message that has been published has its entry. -/
theorem Publishes.repeats (h : Publishes X s i id qos topic payload) (hmoved : Moved X s i s') :
    Repeats s'.srv (.publish true qos false id topic payload) := by
  cases h with
  | job j env topic payload qos hj hnow hok =>
    obtain ⟨hready, hfits⟩ := publish_ok hok
    have hbegun : j.begun s.srv = s.srv := by
      cases j with
      | pingTimer tick => cases hj
      | pubTimer => rfl
      | publish topic payload qos => rfl
    cases hmoved with
    | pingFull => cases hj
    | job _ _ x srv' _ hcalled =>
      rw [hbegun] at hcalled
      obtain ⟨-, rfl⟩ := hcalled.complete hj hnow hready hfits
      exact stored_repeats _ false _
    | waits _ _ srv' _ hcalled =>
      rw [hbegun] at hcalled
      cases (hcalled.complete hj hnow hready hfits).1
  | resume j env topic payload qos hwaiting hj hnow hok =>
    obtain ⟨hready, hfits⟩ := publish_ok hok
    have hsame {j' : Job} (h : s.srv.waiting = some j') : j' = j :=
      Option.some.inj (h.symm.trans hwaiting)
    cases hmoved with
    | idle _ hnone =>
      rw [hnone] at hwaiting
      cases hwaiting
    | resumed _ _ x srv' hwaiting' hcalled =>
      obtain rfl := hsame hwaiting'
      obtain ⟨-, rfl⟩ := hcalled.complete hj hnow hready hfits
      exact stored_repeats _ false _
    | stays _ _ srv' hwaiting' hcalled =>
      obtain rfl := hsame hwaiting'
      cases (hcalled.complete hj hnow hready hfits).1
  | again a m rest topic payload hpc hr hc hnow hok =>
    obtain ⟨hready, hfits⟩ := publish_ok hok
    have hpacket : m.repeated = .publish true m.qos false m.packetId topic.bytes payload.bytes := by
      simp only [QueuedMessage.repeated, hc]
    rw [← hpacket]
    cases hmoved with
    | task a x srv' link' htaken =>
      rw [hpc] at htaken
      cases htaken with
      | retransmitted _ hnone =>
        rw [hr] at hnone
        cases hnone
      | retransmit _ msg rest' topic' payload' x _ hr' hc' _ hpub =>
        rw [hr] at hr'
        cases hr'
        rw [hc] at hc'
        cases hc'
        apply hpub.repeats hc _ hfits
        rw [hpacket]
        exact hready
      | retransmitOverflow _ _ _ _ _ _ _ hlt => exact absurd hnow (Nat.not_le.mpr hlt)
      | retransmitPubrel _ msg rest' x _ hr' hc' =>
        rw [hr] at hr'
        cases hr'
        rw [hc] at hc'
        cases hc'

/-- **No message is lost**: once `publish` has returned without error, a message that asks for an
answer has its entry in `qosQueue` until it has been answered, in every run that takes no entry
out before. -/
theorem kept_until_answered (X : Externs) {s t : Sys} {i : Input} {id : UInt16} {qos : QoS}
    {topic payload : List UInt8} (hpub : Publishes X s i id qos topic payload) (hqos : qos ≠ .qos0)
    (h : (mqtt X).Reaches (Lossless X) ((mqtt X).next s i) t) :
    ∃ l, t.srv.log = ((mqtt X).next s i).srv.log ++ l ∧
      ∀ p ∈ due (.publish true qos false id topic payload) l, Repeats t.srv p := by
  have hstart := hpub.repeats (next_moved X s i)
  have hasks : (Packet.publish true qos false id topic payload).asks ≠ none := by
    rw [Packet.asks, if_neg hqos]
    exact fun hnone => by cases hnone
  have hall : Preserves ((mqtt X).next s i).srv t.srv := by
    apply h.invariant (I := fun t => Preserves ((mqtt X).next s i).srv t.srv)
    · exact .grows (grows_frame.refl _)
    · exact fun t i ht _ hC => ht.trans ((next_moved X t i).preserves hC)
  obtain ⟨l, hlog, hdue⟩ := hall
  exact ⟨l, hlog, hdue _ hasks hstart⟩

/-- The service is connected. -/
def Sys.established : Sys := (mqtt .documented).run .initial Input.established

/-- The message of `pubTimer` expires, and the task comes to it. -/
def Input.expiring (a : Answers) : List Input := [.clock 3000, .task a]

theorem kept_until_answered_expiring :
    ∃ l, ((mqtt .documented).run ((mqtt .documented).next .established .pub)
        (Input.expiring (.smooth none 0))).srv.log =
          ((mqtt .documented).next .established .pub).srv.log ++ l ∧
      ∀ p ∈ due (.publish true .qos2 false 24609 (ascii "zig/pub") (ascii "test")) l,
        Repeats ((mqtt .documented).run ((mqtt .documented).next .established .pub)
          (Input.expiring (.smooth none 0))).srv p := by
  have hid : publishId Sys.established.srv none = 24609 := by decide +kernel
  have hpub : Publishes .documented .established .pub (publishId Sys.established.srv none) .qos2
      (ascii "zig/pub") (ascii "test") := .job _ _ _ _ _ rfl (by decide +kernel) (by decide +kernel)
  rw [hid] at hpub
  exact kept_until_answered .documented hpub (by decide) (System.reaches_run (by decide +kernel))

/-- The message of `pubTimer` is sent, and acknowledged as one of quality of service 1 is. -/
def Input.acknowledged : List Input :=
  [go, go, send 17, go, receive (.puback (some ⟨.puback, false, 24609⟩))]

/-- A message of quality of service 2 is lost to a PUBACK. -/
theorem puback_lost : ¬∀ (X : Externs) (s₀ s t : Sys) (i : Input) (id : UInt16) (qos : QoS)
    (topic payload : List UInt8), Initial s₀ → (mqtt X).Reaches System.Free s₀ s →
    (mqtt X).Enabled s i → Publishes X s i id qos topic payload → qos ≠ .qos0 →
    (mqtt X).Reaches System.Free ((mqtt X).next s i) t →
    ∃ l, t.srv.log = ((mqtt X).next s i).srv.log ++ l ∧
      ∀ p ∈ due (.publish true qos false id topic payload) l, Repeats t.srv p := by
  intro hall
  have hpub : Publishes .documented .established .pub (publishId Sys.established.srv none) .qos2
      (ascii "zig/pub") (ascii "test") := .job _ _ _ _ _ rfl (by decide +kernel) (by decide +kernel)
  obtain ⟨l, hlog, hdue⟩ := hall .documented .initial .established
    ((mqtt .documented).run ((mqtt .documented).next .established .pub) Input.acknowledged)
    .pub _ _ _ _ Sys.initial_initial (System.reaches_run (by decide +kernel)) (by decide +kernel)
    hpub (by decide) (System.reaches_run (by decide +kernel))
  have hread : ((mqtt .documented).run ((mqtt .documented).next .established .pub)
      Input.acknowledged).srv.log = ((mqtt .documented).next .established .pub).srv.log ++
        [.sent (.publish false .qos2 false 24609 (ascii "zig/pub") (ascii "test")), .drained,
          .received (.puback (some ⟨.puback, false, 24609⟩))] := by
    decide +kernel
  obtain rfl := List.append_cancel_left (hlog.symm.trans hread)
  obtain ⟨m, hm, -⟩ := hdue _ rfl
  have hnil : ((mqtt .documented).run ((mqtt .documented).next .established .pub)
      Input.acknowledged).srv.qosQueue = [] := by
    decide +kernel
  rw [hnil] at hm
  cases hm

end Runs

end Miso.Mqtt

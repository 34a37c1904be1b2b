import Miso.Mqtt.Capacity
import Miso.Mqtt.Errors

/-!
# The sending side

`qosQueue` keeps an entry for each packet that asks for an answer.

* `held`, `asked` — the entries of a kind, and the packets that ask for the answer to them;
* `Covers` — what is asked is held, but for the items that a step takes out;
* `Taken.sends`, `Moved.sends` — what the steps of the task and of the system send.
-/

namespace Miso.Mqtt

open Zig Net

/-! ## What is held and what is asked -/

/-- What an entry of `qosQueue` waits for: the type and the identifier of its packet. -/
abbrev Ask := msgTypes × UInt16

/-- What a packet asks for. -/
def Packet.asks : Packet → Option Ask
  | .publish _ qos _ packetId _ _ => if qos = .qos0 then none else some (.publish, packetId)
  | .pubrel _ packetId => some (.pubrel, packetId)
  | _ => none

def QueuedMessage.ask (m : QueuedMessage) : Ask := (m.packetType, m.packetId)

/-- The entries of `qosQueue`. -/
def held (s : Service) (a : Ask) : Nat := s.qosQueue.countP fun m => m.ask = a

/-- The packets that ask for an answer. -/
def asked (l : List Packet) (a : Ask) : Nat := l.countP fun p => p.asks = some a

/-- The event puts no packet into `txQueue` that asks for an answer. -/
def Event.unasked : Event → Bool
  | .queued p => p.asks.isNone
  | _ => true

theorem acks_ask (a : Ask) (m : QueuedMessage) : acks a.2 a.1 m = decide (m.ask = a) := by
  unfold acks QueuedMessage.ask
  congr 1
  rw [Prod.ext_iff]
  exact propext And.comm

theorem asked_append (l l' : List Packet) (a : Ask) : asked (l ++ l') a = asked l a + asked l' a :=
  List.countP_append ..

theorem asked_unasked {es : List Event} (h : ∀ ev ∈ es, ev.unasked = true) (a : Ask) :
    asked (queuedPackets es) a = 0 := by
  unfold asked
  rw [List.countP_eq_zero]
  intro p hp
  obtain ⟨ev, hev, hqueued⟩ := List.mem_filterMap.mp hp
  have hunasked := h ev hev
  cases ev with
  | queued q =>
    cases hqueued
    simp [Option.isNone_iff_eq_none.mp hunasked]
  | _ => cases hqueued

/-- An entry has been taken out of the queue. -/
theorem countP_removeFirst {f : QueuedMessage → Bool} {l rest : List QueuedMessage}
    {m : QueuedMessage} (h : removeFirst f l = some (m, rest)) (a : Ask) :
    l.countP (fun m => m.ask = a) = rest.countP (fun m => m.ask = a) + [m.ask].count a := by
  obtain ⟨l₁, l₂, rfl, rfl, -, -⟩ := removeFirst_some h
  simp only [List.countP_append, List.countP_cons, List.count_singleton, decide_eq_true_eq,
    beq_iff_eq]
  omega

/-- What has been recorded since: apart from the items of `l`, an entry has come for each packet
that asks for an answer, and no entry has gone. -/
def Covers (l : List Ask) (s s' : Service) : Prop :=
  ∃ es, Extends s s' es ∧
    ∀ a, held s a + asked (queuedPackets es) a ≤ held s' a + l.count a

theorem Covers.untouched {s s' : Service} (h : Untouched Event.unasked .qosQueue s s') :
    Covers [] s s' := by
  obtain ⟨es, hext, hes⟩ := h.log
  have hqueue : s'.qosQueue = s.qosQueue := h.queue
  refine ⟨es, hext, ?_⟩
  intro a
  unfold held
  rw [asked_unasked hes, hqueue]
  omega

theorem Covers.trans {l l' : List Ask} {s₁ s₂ s₃ : Service} (h : Covers l s₁ s₂)
    (h' : Covers l' s₂ s₃) : Covers (l ++ l') s₁ s₃ := by
  obtain ⟨es, hext, hes⟩ := h
  obtain ⟨es', hext', hes'⟩ := h'
  refine ⟨es ++ es', hext.trans hext', ?_⟩
  intro a
  have h₁ := hes a
  have h₂ := hes' a
  rw [queuedPackets_append, asked_append, List.count_append]
  omega

theorem Covers.mono {l l' : List Ask} {s s' : Service} (h : Covers l s s')
    (hl : l.Sublist l') : Covers l' s s' := by
  obtain ⟨es, hext, hes⟩ := h
  refine ⟨es, hext, ?_⟩
  intro a
  have hcount := hl.count_le a
  have hle := hes a
  omega

/-- An entry is taken out, and nothing else happens to the queues. -/
theorem Covers.removed {s s' : Service} {f : QueuedMessage → Bool} {m : QueuedMessage}
    (hr : removeFirst f s.qosQueue = some (m, s'.qosQueue)) (hlog : s'.log = s.log)
    (htx : s'.txQueue = s.txQueue) : Covers [m.ask] s s' := by
  refine ⟨[], .same hlog htx, ?_⟩
  intro a
  have hcount := countP_removeFirst hr a
  show held s a + 0 ≤ _
  unfold held
  omega

/-- A packet is queued together with its entry. -/
theorem Covers.added {s s' : Service} {p : Packet} {m : QueuedMessage}
    (hext : Extends s s' [.queued p]) (hqueue : s'.qosQueue = s.qosQueue ++ [m])
    (hp : ∀ a, p.asks = some a → m.ask = a) : Covers [] s s' := by
  refine ⟨_, hext, ?_⟩
  intro a
  have hle : asked [p] a ≤ [m].countP fun m => m.ask = a := by
    unfold asked
    simp only [List.countP_singleton, decide_eq_true_eq]
    split
    · rename_i hask
      rw [if_pos (hp a hask)]
    · exact Nat.zero_le _
  unfold held
  rw [hqueue, List.countP_append]
  show _ + asked [p] a ≤ _
  omega

/-! ## The functions of the service -/

section Relations

variable {X : Externs} {ok : Os → Nat → Bool} {s s' : Service}

/-- A message is queued behind the others, or the queue stays as it is. -/
theorem Published.covers {topic payload : List UInt8} {qos : QoS} {dup : Bool}
    {packetId : Option UInt16} {deadline : Nat} {x : Exit Error Unit}
    (h : Published X ok s topic payload qos dup packetId deadline x s')
    (hfits : qos ≠ .qos0 → Ready X ok s (publishPacket s topic payload qos dup packetId) →
      Fits ok topic payload) : Covers [] s s' := by
  have hprepared (x : Exit Error UInt16) (hx : x.returned = false)
      (hprep : Prepared X ok s (publishPacket s topic payload qos dup packetId)
        (publishState s packetId) (publishId s packetId) x s') : Covers [] s s' :=
    .untouched (hprep.unqueued (hprep.not_ready hx) rfl)
  cases h with
  | failed _ _ hprep => exact hprepared _ rfl hprep
  | halted _ hprep => exact hprepared _ rfl hprep
  | queued x _ hready hstored =>
    have hqueued : Extends s ((s.withId (publishState s packetId)).enqueue
        (publishPacket s topic payload qos dup packetId))
        [.queued (publishPacket s topic payload qos dup packetId)] := .queued rfl rfl
    have hext := hqueued.trans hstored.extends
    rw [List.append_nil] at hext
    by_cases hx : x.returned = true
    · cases hstored with
      | stored =>
        obtain ⟨t, p, -, -, hqueue⟩ := stored_queue ((s.withId (publishState s packetId)).enqueue
          (publishPacket s topic payload qos dup packetId)) .qosQueue (publishId s packetId) qos dup
          false topic payload deadline
        apply Covers.added hext hqueue
        intro a ha
        have hasks : (publishPacket s topic payload qos dup packetId).asks =
            if qos = .qos0 then none else some (.publish, publishId s packetId) := rfl
        rw [hasks] at ha
        split at ha
        · cases ha
        · exact Option.some.inj ha
      | _ => cases hx
    · obtain ⟨hnot, hqueue⟩ := hstored.not_fits (Bool.eq_false_iff.mpr hx)
      have hqos : qos = .qos0 := by
        by_contra hne
        exact hnot (hfits hne hready)
      have hunasked : Event.unasked
          (.queued (publishPacket s topic payload qos dup packetId)) = true := by
        simp [Event.unasked, publishPacket, Packet.asks, hqos]
      exact .untouched (.one hqueue hext hunasked)

theorem Released.covers {packetId : UInt16} {dup stored : Bool} {x : Exit Error Unit}
    (h : Released X ok s packetId dup stored x s') (hx : x ≠ .trap)
    (happend : Ready X ok s (.pubrel dup packetId) → ok .append 0 = true) : Covers [] s s' := by
  cases h with
  | failed _ _ hprep => exact .untouched (hprep.unqueued (hprep.not_ready rfl) rfl)
  | halted _ hprep => exact .untouched (hprep.unqueued (hprep.not_ready rfl) rfl)
  | overflow => exact absurd rfl hx
  | noAppend hready hnot =>
    rw [happend hready] at hnot
    cases hnot
  | queued =>
    apply Covers.added (.queued rfl rfl) rfl
    intro a ha
    exact Option.some.inj ha

theorem Delivered.covers {packetId : UInt16} {r : publish_response} {x : Exit Error Pc}
    (h : Delivered ok s packetId r x s') : Covers [] s s' := by
  apply Covers.untouched
  cases h with
  | reset => exact .one rfl (.recorded rfl rfl rfl rfl) rfl
  | printed => exact .one rfl (.recorded rfl rfl rfl rfl) rfl
  | kept _ _ _ _ hstored => exact hstored.untouched (by decide)
  | lost _ _ _ _ _ hstored => exact hstored.untouched (by decide)
  | _ => exact untouched_frame.refl s

theorem acknowledged_covers {id : UInt16} {packetType : msgTypes}
    (h : s.acknowledged id packetType = some s') :
    0 < held s (packetType, id) ∧ s'.waiting = s.waiting ∧ s'.txQueue = s.txQueue ∧
      Covers [(packetType, id)] s s' := by
  obtain ⟨hlog, htx, m, hr⟩ := acknowledged_same h
  have hask : m.ask = (packetType, id) := by
    have hm := (removeFirst_mem hr).1
    rw [acks_ask (packetType, id)] at hm
    exact of_decide_eq_true hm
  refine ⟨?_, acknowledged_waiting h, htx, ?_⟩
  · have hcount := countP_removeFirst hr (packetType, id)
    rw [hask, List.count_singleton_self] at hcount
    unfold held
    omega
  · rw [← hask]
    exact .removed hr hlog htx

/-- A PUBREC acknowledges the PUBREL that is held already, besides its PUBLISH. -/
def Inbound.renews (s : Service) : Inbound → List Ask
  | .pubrec fields =>
    match deserializePubrec fields with
    | .ok id => if 0 < held s (.pubrel, id) then [(.pubrel, id)] else []
    | .error _ => []
  | _ => []

/-- The PUBREL that answers a PUBREC. -/
theorem pubrec_answer {fields : Option AckFields} {id : UInt16} {s₁ : Service} {m : QueuedMessage}
    (hid : deserializePubrec fields = .ok id)
    (hr : removeFirst (acks id .publish) s.qosQueue = some (m, s₁.qosQueue)) :
    .pubrel (s₁.acknowledged id .pubrel).isSome id ∈ answer s (.pubrec fields) := by
  simp only [answer, hid, hr, Option.map_some, acknowledged_isSome, Option.mem_def]

/-- A PUBREC is answered by a PUBREL with its entry. -/
theorem pubrec_covers {fields : Option AckFields} {id : UInt16} {s₁ : Service}
    {x : Exit Error Unit} (hid : deserializePubrec fields = .ok id)
    (hack : s.acknowledged id .publish = some s₁)
    (hrel : Released X ok ((s₁.acknowledged id .pubrel).getD s₁) id
      (s₁.acknowledged id .pubrel).isSome false x s') (hx : x ≠ .trap)
    (happend : ∀ p ∈ answer s (.pubrec fields), p.asks ≠ none → Ready X ok s p →
      ok .append 0 = true) :
    Covers ((.publish, id) :: (Inbound.pubrec fields).renews s) s s' := by
  obtain ⟨-, hwaiting, htx, hcovers⟩ := acknowledged_covers hack
  obtain ⟨-, -, m, hr⟩ := acknowledged_same hack
  have hanswer := pubrec_answer hid hr
  have hrenews : (Inbound.pubrec fields).renews s =
      if 0 < held s (.pubrel, id) then [(.pubrel, id)] else [] := by
    simp only [Inbound.renews, hid]
  have hrel' (s₂ : Service) (hs₂ : (s₁.acknowledged id .pubrel).getD s₁ = s₂)
      (hwaiting₂ : s₂.waiting = s₁.waiting) (htx₂ : s₂.txQueue = s₁.txQueue) :
      Covers [] s₂ s' := by
    rw [hs₂] at hrel
    apply hrel.covers hx
    intro hready
    apply happend _ hanswer (fun h => by cases h)
    exact hready.congr (hwaiting₂.trans hwaiting).symm (htx₂.trans htx).symm
  cases hack' : s₁.acknowledged id .pubrel with
  | none =>
    have hrest := hrel' s₁ (by rw [hack']; rfl) rfl rfl
    apply (hcovers.trans hrest).mono
    simp
  | some s₂ =>
    obtain ⟨hheld, hwaiting₂, htx₂, hcovers₂⟩ := acknowledged_covers hack'
    have hrest := hrel' s₂ (by rw [hack']; rfl) hwaiting₂ htx₂
    have hfound : 0 < held s (.pubrel, id) := by
      have hcount := countP_removeFirst hr (.pubrel, id)
      unfold held at hheld ⊢
      omega
    rw [hrenews, if_pos hfound]
    exact (hcovers.trans hcovers₂).trans hrest

/-- A round of the receive loop takes out what is acknowledged, and what a PUBREC renews. -/
theorem Received.covers {m : Inbound} {x : Exit Error Pc} (h : Received X ok s m x s')
    (hx : x ≠ .trap)
    (happend : ∀ p ∈ answer s m, p.asks ≠ none → Ready X ok s p → ok .append 0 = true) :
    Covers (m.acked.toList ++ m.renews s) s s' := by
  have hrest {s' : Service} (h : Untouched Event.unasked .qosQueue s s') :
      Covers (m.acked.toList ++ m.renews s) s s' := (Covers.untouched h).mono (List.nil_sublist _)
  have hsame : Untouched Event.unasked .qosQueue s s := untouched_frame.refl s
  cases h with
  | publish0 _ _ _ _ _ _ hdel => exact hdel.covers
  | publish1 => exact hrest (.one rfl (.queued rfl rfl) rfl)
  | publish2 _ r _ _ _ _ _ hdel =>
    have hqueued : Covers [] s (s.enqueue (.pubrec r.packetId)) :=
      .untouched (.one rfl (.queued rfl rfl) rfl)
    exact hqueued.trans hdel.covers
  | unanswered _ _ p _ _ _ hp hprep =>
    rcases hp with ⟨-, rfl⟩ | ⟨-, rfl⟩ <;> exact hrest (hprep.untouched rfl rfl)
  | unansweredHalt _ _ p _ _ hp hprep =>
    rcases hp with ⟨-, rfl⟩ | ⟨-, rfl⟩ <;> exact hrest (hprep.untouched rfl rfl)
  | puback _ _ _ hid hack =>
    rw [puback_acked hid]
    exact (acknowledged_covers hack).2.2.2
  | pingresp => exact hrest (.one rfl (.recorded rfl rfl rfl rfl) rfl)
  | pubrec _ _ _ x _ hid hack hrel =>
    rw [pubrec_acked hid]
    apply pubrec_covers hid hack hrel _ happend
    rintro rfl
    exact hx rfl
  | pubrel => exact hrest (.one rfl (.queued rfl rfl) rfl)
  | pubrelFailed _ _ _ rest _ _ _ _ hprep =>
    have htaken : Untouched Event.unasked .qosQueue s { s with qos2Queue := rest } :=
      .same rfl rfl rfl
    exact hrest (untouched_frame.trans htaken (hprep.untouched rfl rfl))
  | pubrelHalted _ _ _ rest _ _ _ hprep =>
    have htaken : Untouched Event.unasked .qosQueue s { s with qos2Queue := rest } :=
      .same rfl rfl rfl
    exact hrest (untouched_frame.trans htaken (hprep.untouched rfl rfl))
  | pubcomp _ _ _ hid hack =>
    rw [pubcomp_acked hid]
    exact (acknowledged_covers hack).2.2.2
  | suback => exact hrest (.one rfl (.recorded rfl rfl rfl rfl) rfl)
  | subackLong => exact hrest (.one rfl (.recorded rfl rfl rfl rfl) rfl)
  | pingrespUnknown => exact hrest (.one rfl (.recorded rfl rfl rfl rfl) rfl)
  | _ => exact hrest hsame

end Relations

/-! ## The steps -/

/-- What a step takes out of `qosQueue` in order to send it again. -/
def Pc.renews (e : Env) (s : Service) : Pc → List Ask
  | retransmit => (removeFirst (expired s.now) s.qosQueue).toList.map fun r => r.1.ask
  | receive => if e.waitRx 0 = some true then (e.read 0).renews s else []
  | _ => []

/-- What a packet that is read takes out of `qosQueue`. -/
def Pc.takes (e : Env) : Pc → List Ask
  | receive => (e.read 0).acked.toList
  | _ => []

section Stores

variable (X : Externs)

/-- Nothing keeps the entry from its queue. -/
def QueuedMessage.Fits (ok : Os → Nat → Bool) (m : QueuedMessage) : Prop :=
  match m.content with
  | .publish topic payload => Mqtt.Fits ok topic.bytes payload.bytes
  | .pubrel => ok .append 0 = true

instance (ok : Os → Nat → Bool) : ∀ m : QueuedMessage, Decidable (m.Fits ok)
  | ⟨_, _, _, _, .publish _ _, _⟩ => inferInstanceAs (Decidable (Mqtt.Fits _ _ _))
  | ⟨_, _, _, _, .pubrel, _⟩ => inferInstanceAs (Decidable (_ = _))

/-- A packet that asks for an answer is stored if it is queued. -/
def Pc.Stores (e : Env) (s : Service) : Pc → Prop
  | retransmit => ∀ r ∈ removeFirst (expired s.now) s.qosQueue,
    r.1.repeated.asks ≠ none → Ready X e.ok s r.1.repeated → r.1.Fits e.ok
  | receive => e.waitRx 0 = some true →
    ∀ p ∈ answer s (e.read 0), p.asks ≠ none → Ready X e.ok s p → e.ok .append 0 = true
  | _ => True

def Job.Stores (ok : Os → Nat → Bool) (s : Service) (j : Job) : Prop :=
  ∀ m ∈ j.publishes, m.2.2 ≠ .qos0 →
    Ready X ok s (publishPacket s m.1 m.2.1 m.2.2 false none) → Fits ok m.1 m.2.1

/-- **A message that is sent and waits for its answer is stored.** -/
def Stores (s : Sys) : Input → Prop
  | .task a => s.pc.Stores X a.env s.srv
  | .job j env => j.Stores X env.ok (j.begun s.srv)
  | .resume env => ∀ j ∈ s.srv.waiting, j.Stores X env.ok { s.srv with waiting := none }
  | .clock _ => True

instance (e : Env) (s : Service) : ∀ pc : Pc, Decidable (pc.Stores X e s)
  | .retransmit => inferInstanceAs (Decidable (∀ _ ∈ _, _))
  | .receive => inferInstanceAs (Decidable (_ → ∀ _ ∈ _, _))
  | .start | .connect | .connectPacket | .connack | .subscribe | .suback _ | .expire | .drain _
  | .deliver _ _ | .complete _ _ | .refused _ | .disconnect _ | .close _ | .lost _ | .halted
  | .trapped => inferInstanceAs (Decidable True)

instance (ok : Os → Nat → Bool) (s : Service) (j : Job) : Decidable (j.Stores X ok s) :=
  inferInstanceAs (Decidable (∀ _ ∈ _, _))

instance (s : Sys) : ∀ i : Input, Decidable (Stores X s i)
  | .task _ => inferInstanceAs (Decidable (Pc.Stores _ _ _ _))
  | .job _ _ => inferInstanceAs (Decidable (Job.Stores _ _ _ _))
  | .resume _ => inferInstanceAs (Decidable (∀ _ ∈ _, _))
  | .clock _ => inferInstanceAs (Decidable True)

end Stores

/-- **What a step of the task does on the sending side.** -/
inductive Sends (e : Env) (pc : Pc) (s s' : Service) : Prop where
  | aside : Covers (pc.renews e s) s s' → Sends e pc s s'
  | read : pc.waits = true → e.waitRx 0 = some true →
    Covers (pc.takes e ++ pc.renews e s) (s.record [.received (e.read 0)]) s' → Sends e pc s s'

section Steps

variable {X : Externs} {ok : Os → Nat → Bool} {s s' : Service}

theorem Sends.untouched {e : Env} {pc : Pc} (h : Untouched Event.unasked .qosQueue s s') :
    Sends e pc s s' := .aside ((Covers.untouched h).mono (List.nil_sublist _))

/-- **Every step of the task covers what it asks.** -/
theorem Taken.sends {e : Env} {fuel : Nat} {l l' : Link} {pc : Pc} {x : Exit Error Pc}
    (h : Taken X e fuel l pc s x s' l') (hx : x ≠ .trap) (hstores : pc.Stores X e s) :
    Sends e pc s s' := by
  have hrefl (s : Service) : Untouched Event.unasked .qosQueue s s := untouched_frame.refl s
  cases h with
  | start => exact .untouched (.same rfl rfl rfl)
  | opened => exact .untouched (.one rfl (.recorded rfl rfl rfl rfl) rfl)
  | openFailed => exact .untouched (.same rfl rfl rfl)
  | openTrap => exact .untouched (.same rfl rfl rfl)
  | openHalt => exact .untouched (.same rfl rfl rfl)
  | connectPacket _ _ _ hprep => exact .untouched (hprep.untouched rfl rfl)
  | connackAccepted _ hwait => exact .read rfl hwait (.untouched (hrefl _))
  | connackRefused _ _ hwait => exact .read rfl hwait (.untouched (hrefl _))
  | connackReserved _ hwait => exact .read rfl hwait (.untouched (hrefl _))
  | subscribe _ _ _ hprep => exact .untouched (hprep.untouched rfl rfl)
  | subackTimeout => exact .untouched (.same rfl rfl rfl)
  | subackOther _ _ hwait => exact .read rfl hwait (.untouched (.same rfl rfl rfl))
  | suback _ _ _ _ hwait =>
    exact .read rfl hwait (.untouched (.one rfl (.recorded rfl rfl rfl rfl) rfl))
  | subackMalformed _ _ hwait => exact .read rfl hwait (.untouched (hrefl _))
  | subackReserved _ _ hwait => exact .read rfl hwait (.untouched (hrefl _))
  | subackIndex _ _ _ _ hwait =>
    exact .read rfl hwait (.untouched (.one rfl (.recorded rfl rfl rfl rfl) rfl))
  | retransmit _ msg rest topic payload _ _ hr hc _ hpub =>
    have hremoved : Covers [msg.ask] s { s with qosQueue := rest } := .removed hr rfl rfl
    have hpacket : publishPacket { s with qosQueue := rest } topic.bytes payload.bytes msg.qos true
        (some msg.packetId) = msg.repeated := by
      simp only [QueuedMessage.repeated, hc]
      rfl
    have hpublished : Covers [] { s with qosQueue := rest } s' := by
      apply hpub.covers
      intro hqos hready
      rw [hpacket] at hready
      have hasks : msg.repeated.asks ≠ none := by
        rw [← hpacket]
        simp [publishPacket, Packet.asks, hqos]
      have hfits := hstores _ hr hasks (hready.congr rfl rfl)
      unfold QueuedMessage.Fits at hfits
      rw [hc] at hfits
      exact hfits
    apply Sends.aside
    unfold Pc.renews
    rw [hr]
    exact hremoved.trans hpublished
  | retransmitOverflow => exact absurd rfl hx
  | retransmitPubrel _ msg rest x _ hr hc hrel =>
    have hremoved : Covers [msg.ask] s { s with qosQueue := rest } := .removed hr rfl rfl
    have hpacket : msg.repeated = .pubrel true msg.packetId := by
      simp only [QueuedMessage.repeated, hc]
    have hreleased : Covers [] { s with qosQueue := rest } s' := by
      apply hrel.covers
      · rintro rfl
        exact hx rfl
      · intro hready
        rw [← hpacket] at hready
        have hasks : msg.repeated.asks ≠ none := by
          rw [hpacket]
          intro hnone
          cases hnone
        have hfits := hstores _ hr hasks (hready.congr rfl rfl)
        unfold QueuedMessage.Fits at hfits
        rw [hc] at hfits
        exact hfits
    apply Sends.aside
    unfold Pc.renews
    rw [hr]
    exact hremoved.trans hreleased
  | expire _ msg rest =>
    have hfreed := freed_same { s with qos2Queue := rest } msg.content
    exact .untouched (.same (hfreed.2.2 .qosQueue) hfreed.1 hfreed.2.1)
  | expirePubrel => exact .untouched (.same rfl rfl rfl)
  | drained => exact .untouched (.one rfl (.recorded rfl rfl rfl rfl) rfl)
  | sent _ _ _ _ _ _ htx => exact .untouched (.one rfl (.sent htx) rfl)
  | sendFailed _ _ _ _ _ _ htx => exact .untouched (.one rfl (.sent htx) rfl)
  | sendTrap _ _ _ _ _ htx => exact .untouched (.one rfl (.sent htx) rfl)
  | sendHalt _ _ _ _ _ htx => exact .untouched (.one rfl (.sent htx) rfl)
  | received _ _ _ hwait hrec =>
    apply Sends.read rfl hwait
    unfold Pc.renews Pc.takes
    rw [if_pos hwait]
    apply hrec.covers hx
    intro p hp hasks hready
    exact hstores hwait p hp hasks (hready.congr rfl rfl)
  | deliver _ _ _ _ _ hdel => exact .aside hdel.covers
  | completed packetId msg _ topic payload hc =>
    have hfreed := freed_same
      (s.record [.handover packetId msg.qos topic.bytes payload.bytes]) msg.content
    exact .untouched (.one (hfreed.2.2 .qosQueue) (.recorded hfreed.1 hfreed.2.1 rfl rfl) rfl)
  | refused => exact .untouched (.one rfl (.recorded rfl rfl rfl rfl) rfl)
  | disconnect _ _ _ _ hprep =>
    have hstopped : Untouched Event.unasked .qosQueue s s.disconnecting := .same rfl rfl rfl
    exact .untouched (untouched_frame.trans hstopped (hprep.untouched rfl rfl))
  | close => exact .untouched (.one rfl (.recorded rfl rfl rfl rfl) rfl)
  | lostReset => exact .untouched (.same rfl rfl rfl)
  | _ => exact .untouched (hrefl s)

theorem Called.covers {j : Job} {x : Exit Error Unit} (h : Called X ok s j x s') (hx : x ≠ .trap)
    (hstores : j.Stores X ok s) : Covers [] s s' := by
  have hpublished {topic payload : List UInt8} {qos : QoS} {x : Exit Error Unit}
      (hj : j.publishes = some (topic, payload, qos))
      (h : Published X ok s topic payload qos false none (s.now + 2000) x s') : Covers [] s s' :=
    h.covers (hstores _ hj)
  cases h with
  | pinged => exact .untouched (.one rfl (.queued rfl rfl) rfl)
  | pingFailed _ _ _ hprep => exact .untouched (hprep.untouched rfl rfl)
  | pingWaits _ _ hprep => exact .untouched (hprep.untouched rfl rfl)
  | published _ _ _ _ _ hj _ hpub => exact hpublished hj hpub
  | publishFailed _ _ _ _ _ _ hpub => exact hpublished rfl hpub
  | pubTimerFailed => exact absurd rfl hx
  | publishWaits _ _ _ _ _ hj _ hpub => exact hpublished hj hpub
  | overflow => exact absurd rfl hx

theorem begun_covers (j : Job) (s : Service) : Covers [] s (j.begun s) := by
  apply Covers.untouched
  cases j with
  | pingTimer tick => exact .one rfl (.recorded rfl rfl rfl rfl) rfl
  | pubTimer => exact untouched_frame.refl s
  | publish topic payload qos => exact untouched_frame.refl s

/-- The other steps of the system add to what is held, and leave the task where it is. -/
theorem Moved.covers {s s' : Sys} {i : Input} (h : Moved X s i s') (hi : ∀ a, i ≠ .task a)
    (htrap : s'.pc ≠ .trapped) (hstores : Stores X s i) :
    Covers [] s.srv s'.srv ∧ s'.pc = s.pc := by
  have hafter {x : Exit Error Unit} (hx : s.pc.after x ≠ .trapped) :
      x ≠ .trap ∧ s.pc.after x = s.pc := by
    cases x with
    | trap => exact absurd rfl hx
    | _ => exact ⟨nofun, rfl⟩
  cases h with
  | task a => exact absurd rfl (hi a)
  | pingFull => exact absurd rfl htrap
  | job j env x srv' _ hcalled =>
    obtain ⟨hx, hpc⟩ := hafter htrap
    exact ⟨(begun_covers j s.srv).trans (hcalled.covers hx hstores), hpc⟩
  | waits j =>
    have hwaits : Covers [] (j.begun s.srv) { j.begun s.srv with waiting := some j } :=
      .untouched (.same rfl rfl rfl)
    exact ⟨(begun_covers j s.srv).trans hwaits, rfl⟩
  | idle => exact ⟨.untouched (untouched_frame.refl _), rfl⟩
  | resumed j env x srv' hwaiting hcalled =>
    obtain ⟨hx, hpc⟩ := hafter htrap
    have hresumed : Covers [] s.srv { s.srv with waiting := none } :=
      .untouched (.same rfl rfl rfl)
    exact ⟨hresumed.trans (hcalled.covers hx (hstores j hwaiting)), hpc⟩
  | stays => exact ⟨.untouched (untouched_frame.refl _), rfl⟩
  | clock => exact ⟨.untouched (.same rfl rfl rfl), rfl⟩

end Steps

end Miso.Mqtt

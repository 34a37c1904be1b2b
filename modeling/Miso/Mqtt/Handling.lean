import Miso.Mqtt.Receiver
import Miso.Net.Writes

/-!
# The handling of received packets

What becomes of a PUBLISH, a PUBREL or a SUBACK, read in the receive loop or in `connect`.

* `Handled` — the packet is processed to its end, all values of `QoS` are valid, and what has been
  acknowledged to the broker is handed over or kept;
* `Manageable` — the condition on the packet, the service and the answers of its environment;
* `inbound_handled` — a packet is handled exactly if it is manageable.
-/

namespace Miso.Mqtt

open Zig Net QueuedMessgeQueue

/-! ## Sending -/

section Sending

variable (X : Externs)

/-- Every packet can be written. -/
inductive Writable : List Packet → Link → Prop where
  | nil (l : Link) : Writable [] l
  | cons (p : Packet) (rest : List Packet) (l l' : Link) : Written (X.size p) l l' →
    Writable rest l' → Writable (p :: rest) l

/-- Every packet is sent with the given fuel. -/
def SendsAll (fuel : Nat) : List Packet → Link → Prop
  | [], _ => True
  | p :: rest, l => (TlsContext.send_tls fuel (X.size p) l).1.returned = true ∧
    SendsAll fuel rest (TlsContext.send_tls fuel (X.size p) l).2

variable {X}

theorem returned_ok {ε α : Type} {x : Exit ε α} (h : x.returned = true) : ∃ a, x = .ok a := by
  cases x with
  | ok a => exact ⟨a, rfl⟩
  | _ => cases h

theorem SendsAll.writable {fuel : Nat} {l : List Packet} {k : Link} (h : SendsAll X fuel l k) :
    Writable X l k := by
  induction l generalizing k with
  | nil => exact .nil k
  | cons p rest ih =>
    obtain ⟨hreturned, hrest⟩ := h
    obtain ⟨n, hn⟩ := returned_ok hreturned
    exact .cons p rest k _ (send_tls_written (Prod.ext hn rfl)) (ih hrest)

theorem Writable.sendsAll {l : List Packet} {k : Link} (h : Writable X l k) :
    ∃ n, ∀ fuel, n ≤ fuel → SendsAll X fuel l k := by
  induction h with
  | nil => exact ⟨0, fun _ _ => trivial⟩
  | cons p rest k k' hwritten _ ih =>
    obtain ⟨n, hn⟩ := send_tls_of_written hwritten
    obtain ⟨m, hm⟩ := ih
    refine ⟨n + m, ?_⟩
    intro fuel hfuel
    obtain ⟨a, ha⟩ := hn fuel (by omega)
    unfold SendsAll
    rw [ha]
    exact ⟨rfl, hm fuel (by omega)⟩

/-- The event is about the sends of `processSendQueue`. -/
def Event.sending : Event → Bool
  | .sent _ => true
  | .drained => true
  | _ => false

theorem sendNext_nil {fuel : Nat} {t : State} (h : t.srv.txQueue = []) :
    sendNext X fuel t = (.ok (.inr ()), { t with srv := t.srv.record [.drained] }) := by
  unfold sendNext
  refine (Prog.bind_ok _ (show service t = (.ok t.srv, t) from rfl)).trans ?_
  rw [h]
  rfl

theorem sendNext_cons {fuel : Nat} {t : State} {p : Packet} {rest : List Packet}
    (h : t.srv.txQueue = p :: rest) : sendNext X fuel t =
      ((TlsContext.send_tls fuel (X.size p) t.link).1.as (.inl ()),
        { t with srv := { t.srv with txQueue := rest }.record [.sent p],
                 link := (TlsContext.send_tls fuel (X.size p) t.link).2 }) := by
  unfold sendNext
  refine (Prog.bind_ok _ (show service t = (.ok t.srv, t) from rfl)).trans ?_
  rw [h]
  show (connection.send X fuel p >>= fun _ => pure (Sum.inl ()))
    { t with srv := { t.srv with txQueue := rest } } = _
  have hsend : connection.send X fuel p { t with srv := { t.srv with txQueue := rest } } =
      ((TlsContext.send_tls fuel (X.size p) t.link).1,
        { t with srv := { t.srv with txQueue := rest }.record [.sent p],
                 link := (TlsContext.send_tls fuel (X.size p) t.link).2 }) := rfl
  cases hx : (TlsContext.send_tls fuel (X.size p) t.link).1 with
  | ok n =>
    rw [hx] at hsend
    exact Prog.bind_ok _ hsend
  | err err =>
    rw [hx] at hsend
    exact Prog.bind_err _ hsend
  | trap =>
    rw [hx] at hsend
    exact Prog.bind_trap _ hsend
  | halt =>
    rw [hx] at hsend
    exact Prog.bind_halt _ hsend

/-- What `processSendQueue` leaves alone. -/
structure Drained (t t' : State) : Prop where
  env : t'.env = t.env
  untouched : Untouched Event.sending .qos2Queue t.srv t'.srv

theorem drain_spec (fuel n : Nat) (t : State) : wp (Prog.loop (fun _ => sendNext X fuel) n ())
    (fun x t' => (x.returned = true ↔
        t.srv.txQueue.length < n ∧ SendsAll X fuel t.srv.txQueue t.link) ∧ Drained t t') t := by
  induction n generalizing t with
  | zero =>
    have hrun : Prog.loop (fun _ => sendNext X fuel) 0 () t = (.halt, t) := rfl
    apply wp_of_eq hrun
    exact ⟨by simp [Exit.returned], rfl, untouched_frame.refl _⟩
  | succ n ih =>
    cases htx : t.srv.txQueue with
    | nil =>
      apply wp_of_eq (Prog.loop_inr n (sendNext_nil htx))
      refine ⟨by simp [Exit.returned, SendsAll], rfl, ?_⟩
      exact .one rfl (.recorded rfl rfl rfl rfl) rfl
    | cons p rest =>
      have hnext := @sendNext_cons X fuel t p rest htx
      have hsent : Untouched Event.sending .qos2Queue t.srv
          ({ t.srv with txQueue := rest }.record [.sent p]) := .one rfl (.sent htx) rfl
      unfold SendsAll
      cases hx : (TlsContext.send_tls fuel (X.size p) t.link).1 with
      | ok k =>
        rw [hx] at hnext
        apply wp_of_same (Prog.loop_inl n hnext)
        apply wp_mono (ih _)
        intro x t' h
        obtain ⟨hiff, henv, huntouched⟩ := h
        refine ⟨?_, henv, untouched_frame.trans hsent huntouched⟩
        rw [hiff]
        simp [Exit.returned, Service.record]
      | err err =>
        rw [hx] at hnext
        apply wp_of_eq (Prog.loop_err n hnext)
        exact ⟨by simp [Exit.returned], rfl, hsent⟩
      | trap =>
        rw [hx] at hnext
        apply wp_of_eq (Prog.loop_trap n hnext)
        exact ⟨by simp [Exit.returned], rfl, hsent⟩
      | halt =>
        rw [hx] at hnext
        apply wp_of_eq (Prog.bind_halt _ hnext)
        exact ⟨by simp [Exit.returned], rfl, hsent⟩

end Sending

/-! ## What handling means -/

/-- Where a packet is read. -/
inductive Site where
  | loop
  | connack
  | suback (packetId : UInt16)
  deriving DecidableEq, Repr

def Site.pc : Site → Pc
  | loop => .receive
  | connack => .connack
  | suback packetId => .suback packetId

/-- A packet is waited for, read and processed. -/
def Site.process (X : Externs) (fuel : Nat) : Site → MqttM Unit
  | loop => do
    let _ ← receive X fuel
    pure ()
  | connack => awaitConnack
  | suback packetId => awaitSuback packetId

/-- The length of a packet in MQTT 3.1.1, if it is not much longer than `rxBuffer`. -/
def Inbound.wireLength (remainingLength : Nat) : Nat :=
  1 + (if remainingLength < 128 then 1 else 2) + remainingLength

/-- A well-formed PUBLISH, PUBREL or SUBACK that fits into `rxBuffer`. -/
def Inbound.WellFormed : Inbound → Prop
  | .publish (some f) => f.topic ≠ [] ∧ (f.qos = 0 ∨ f.qos = 1 ∨ f.qos = 2) ∧
    wireLength (Packet.field f.topic + (if f.qos = 0 then 0 else 2) + f.payload.length) ≤
      rxBuffer_len
  | .pubrel (some f) => f.packetType = .pubrel
  | .suback (some f) => wireLength (2 + f.2.length) ≤ rxBuffer_len
  | _ => False

instance (m : Inbound) : Decidable m.WellFormed :=
  match m with
  | .publish (some f) => inferInstanceAs (Decidable (f.topic ≠ [] ∧
      (f.qos = 0 ∨ f.qos = 1 ∨ f.qos = 2) ∧
      Inbound.wireLength (Packet.field f.topic + (if f.qos = 0 then 0 else 2) + f.payload.length) ≤
        rxBuffer_len))
  | .pubrel (some f) => inferInstanceAs (Decidable (f.packetType = .pubrel))
  | .suback (some f) =>
    inferInstanceAs (Decidable (Inbound.wireLength (2 + f.2.length) ≤ rxBuffer_len))
  | .publish none | .pubrel none | .suback none => inferInstanceAs (Decidable False)
  | .connack _ | .puback _ | .pubrec _ | .pubcomp _ => inferInstanceAs (Decidable False)
  | .err_msg | .try_again | .unsuback | .pingresp | .client | .reserved =>
    inferInstanceAs (Decidable False)

/-- What the packet has made the service acknowledge to the broker is handed over, or kept until
PUBREL; what PUBREL finds is handed over.  A message about the firmware starts the update. -/
def Settled (s s' : Service) (es : List Event) : Inbound → Prop
  | .publish fields => ∀ r, deserializePublish fields = .ok r →
    match r.qos with
    | .qos0 => True
    | .qos1 => .queued (.puback r.packetId) ∈ es → ∃ topic ∈ r.topic,
      .reset ∈ es ∨ .handover r.packetId .qos1 topic r.payload ∈ es
    | .qos2 => .queued (.pubrec r.packetId) ∈ es → ∃ m ∈ s'.qos2Queue, m.packetId = r.packetId ∧
      m.message = r.message
  | .pubrel fields => ∀ id, deserializePubrel fields = .ok id →
    ∀ r, removeFirst (fun m => m.packetId = id) s.qos2Queue = some r →
      ∃ msg, r.1.message = some msg ∧ .handover id r.1.qos msg.topic msg.payload ∈ es
  | _ => True

/-- The packet `m`, which has been read, is done with. -/
def Done (s : Service) (m : Inbound) (x : Exit Error Unit) (t' : State) : Prop :=
  x.returned = true ∧ ∃ es, t'.srv.log = s.log ++ es ∧
    (∀ codes, .granted codes ∈ es → ∀ c ∈ codes, c.toNat ≤ 2) ∧ Settled s t'.srv es m

/-- **The packet that is read is handled**, given enough fuel. -/
def Handled (X : Externs) (site : Site) (t : State) : Prop :=
  ∃ n, ∀ fuel, n ≤ fuel →
    wp (site.process X fuel) (Done (t.srv.record [.received (t.env.read 0)]) (t.env.read 0)) t

/-! ## When a packet is handled -/

/-- The publish handler hands the message over, or starts the update. -/
def publish_response.Shown (r : publish_response) : Prop :=
  ∃ topic ∈ r.topic, fw_update_topic <+: topic ∨ fw_update_topic.length ≤ topic.length ∧
    (messageText publishWords r.packetId r.qos topic r.payload).length ≤ printBuffer_len

/-- The publish handler stores the message. -/
def publish_response.Kept (r : publish_response) (ok : Os → Nat → Bool) (now : Nat) : Prop :=
  ∃ topic ∈ r.topic, now ≤ u32_max - 2000 ∧ Fits ok topic r.payload

section Condition

variable (X : Externs) (D : List Packet → Prop) (ok : Os → Nat → Bool) (s : Service)

/-- In the receive loop: the answer can be queued, `txQueue` can be sent, and the message is short
enough for the buffers of the handlers, and its topic long enough. -/
def Inbound.Passable : Inbound → Prop
  | .publish fields => ∀ r, deserializePublish fields = .ok r →
    match r.qos with
    | .qos0 => r.Shown
    | .qos1 => Ready X ok s (.puback r.packetId) ∧ D (s.txQueue ++ [.puback r.packetId]) ∧ r.Shown
    | .qos2 => Ready X ok s (.pubrec r.packetId) ∧ r.Kept ok s.now
  | .pubrel fields => ∀ id, deserializePubrel fields = .ok id →
    ∀ r, removeFirst (fun m => m.packetId = id) s.qos2Queue = some r →
      Ready X ok s (.pubcomp id) ∧ D (s.txQueue ++ [.pubcomp id]) ∧ r.1.Prints id
  | .suback fields => ∀ f ∈ fields, f.2.length ≤ 2 ∧ ∀ c ∈ f.2, c.toNat ≤ 2
  | _ => True

/-- At the wait for SUBACK: the codes are two, if they answer the SUBSCRIBE, and PUBREL is for
nothing that is stored. -/
def Inbound.Subacked (packetId : UInt16) : Inbound → Prop
  | .pubrel fields => ∀ id, deserializePubrel fields = .ok id →
    removeFirst (fun m => m.packetId = id) s.qos2Queue = none
  | .suback fields => ∀ f ∈ fields, f.2.length ≤ 2 ∧ (∀ c ∈ f.2, c.toNat ≤ 2) ∧
    (f.1 = packetId → f.2.length = 2)
  | _ => True

/-- Nothing is handled at the wait for CONNACK. -/
def Site.Passable (m : Inbound) : Site → Prop
  | loop => m.Passable X D ok s
  | connack => False
  | suback packetId => m.Subacked s packetId

end Condition

/-- **The condition under which the packet that is read is handled.** -/
def Manageable (X : Externs) (site : Site) (t : State) : Prop :=
  site.Passable X (fun l => Writable X l t.link) t.env.ok t.srv (t.env.read 0)

/-! ## The handlers -/

section Handlers

variable {X : Externs} {ok : Os → Nat → Bool} {s s' : Service} {r : publish_response}

theorem Delivered.shown {x : Exit Error Pc} (h : Delivered ok s r.packetId r x s')
    (hqos : r.qos ≠ .qos2) : (x.returned = true ↔ r.Shown) ∧ (x.returned = true →
      ∃ topic ∈ r.topic, ∃ ev, s'.log = s.log ++ [ev] ∧
        (ev = .reset ∨ ev = .handover r.packetId r.qos topic r.payload)) := by
  unfold publish_response.Shown
  cases h with
  | undefined hnone => simp [Exit.returned, hnone]
  | short topic htopic _ hshort =>
    refine ⟨⟨nofun, ?_⟩, nofun⟩
    rintro ⟨topic', htopic', hfw | ⟨hlen, -⟩⟩
    · rw [htopic] at htopic'
      cases htopic'
      have hle := hfw.length_le
      omega
    · rw [htopic] at htopic'
      cases htopic'
      omega
  | reset topic htopic _ hfw =>
    exact ⟨⟨fun _ => ⟨topic, htopic, .inl hfw⟩, fun _ => rfl⟩,
      fun _ => ⟨topic, htopic, .reset, rfl, .inl rfl⟩⟩
  | noSpace topic htopic _ hfw hlong =>
    refine ⟨⟨nofun, ?_⟩, nofun⟩
    rintro ⟨topic', htopic', hfw' | ⟨-, hlen⟩⟩
    · rw [htopic] at htopic'
      cases htopic'
      exact absurd hfw' hfw
    · rw [htopic] at htopic'
      cases htopic'
      omega
  | printed topic htopic _ hlen hfw hprint =>
    exact ⟨⟨fun _ => ⟨topic, htopic, .inr ⟨hlen, hprint⟩⟩, fun _ => rfl⟩,
      fun _ => ⟨topic, htopic, _, rfl, .inr rfl⟩⟩
  | overflow _ _ hqos' => exact absurd hqos' hqos
  | kept _ _ _ hqos' => exact absurd hqos' hqos
  | lost _ _ _ _ hqos' => exact absurd hqos' hqos

theorem Delivered.kept_iff {x : Exit Error Pc} (h : Delivered ok s r.packetId r x s')
    (hqos : r.qos = .qos2) : (x.returned = true ↔ r.Kept ok s.now) ∧ (x.returned = true →
      s'.log = s.log ∧ ∃ m ∈ s'.qos2Queue, m.packetId = r.packetId ∧ m.message = r.message) := by
  cases h with
  | undefined hnone => simp [Exit.returned, publish_response.Kept, hnone]
  | short _ _ hne => exact absurd hqos hne
  | reset _ _ hne => exact absurd hqos hne
  | noSpace _ _ hne => exact absurd hqos hne
  | printed _ _ hne => exact absurd hqos hne
  | overflow _ _ _ hlt =>
    refine ⟨⟨fun h => absurd h Bool.false_ne_true, ?_⟩,
      fun h => absurd h Bool.false_ne_true⟩
    rintro ⟨_, _, hnow, -⟩
    omega
  | kept topic _ htopic _ hstored hnow =>
    have hlog := hstored.extends.log_nil
    cases hstored with
    | stored hfits =>
      obtain ⟨t, p, ht, hp, hqueue⟩ := stored_queue s .qos2Queue r.packetId .qos2 r.dup r.retained
        topic r.payload (s.now + 2000)
      refine ⟨⟨fun _ => ⟨topic, htopic, hnow, hfits⟩, fun _ => rfl⟩, fun _ => ⟨hlog, ?_⟩⟩
      show ∃ m ∈ Service.queue _ .qos2Queue, _
      rw [hqueue]
      refine ⟨_, List.mem_append_right _ List.mem_cons_self, rfl, ?_⟩
      simp [QueuedMessage.message, publish_response.message, htopic, ht, hp]
  | lost topic _ _ htopic _ hstored =>
    refine ⟨⟨fun h => absurd h Bool.false_ne_true, ?_⟩,
      fun h => absurd h Bool.false_ne_true⟩
    rintro ⟨topic', htopic', -, hfits⟩
    rw [htopic] at htopic'
    cases htopic'
    exact absurd hfits (hstored.not_fits rfl).1

/-- `deliver`, with the exit of the step that it is a part of. -/
theorem deliver_delivered (packetId : UInt16) (r : publish_response) (u : State) :
    wp (deliver packetId r) (fun x u' => ∃ y, Delivered u.env.ok u.srv packetId r y u'.srv ∧
      y.returned = x.returned) u := by
  have hspec := deliver_spec packetId r u
  rw [wp_bind] at hspec
  apply wp_mono hspec
  intro x u' hx
  cases x with
  | ok flow => exact ⟨_, hx.2, rfl⟩
  | err err => exact ⟨_, hx.2, rfl⟩
  | trap => exact ⟨_, hx.2, rfl⟩
  | halt => exact ⟨_, hx.2, rfl⟩

theorem passable_publish {D : List Packet → Prop} {fields : Option PublishFields}
    (hr : deserializePublish fields = .ok r) : (Inbound.publish fields).Passable X D ok s ↔
      match r.qos with
      | .qos0 => r.Shown
      | .qos1 => Ready X ok s (.puback r.packetId) ∧ D (s.txQueue ++ [.puback r.packetId]) ∧
        r.Shown
      | .qos2 => Ready X ok s (.pubrec r.packetId) ∧ r.Kept ok s.now := by
  constructor
  · intro h
    exact h r hr
  · intro h r' hr'
    rw [hr] at hr'
    cases hr'
    exact h

theorem settled_publish {es : List Event} {fields : Option PublishFields}
    (hr : deserializePublish fields = .ok r) (h : match r.qos with
      | .qos0 => True
      | .qos1 => ∃ topic ∈ r.topic, .reset ∈ es ∨ .handover r.packetId .qos1 topic r.payload ∈ es
      | .qos2 => ∃ m ∈ s'.qos2Queue, m.packetId = r.packetId ∧ m.message = r.message) :
    Settled s s' es (.publish fields) := by
  intro r' hr'
  rw [hr] at hr'
  cases hr'
  cases hqos : r.qos with
  | qos0 => trivial
  | qos1 =>
    rw [hqos] at h
    exact fun _ => h
  | qos2 =>
    rw [hqos] at h
    exact fun _ => h

theorem as_returned {ε α β : Type} (b : β) (x : Exit ε α) : (x.as b).returned = x.returned := by
  cases x <;> rfl

/-- A handler that does not return is not done. -/
theorem done_iff_of_not {m : Inbound} {x : Exit Error Unit} {u : State} {P : Prop}
    (hx : x.returned = false) (hP : ¬P) : Done s m x u ↔ P := by
  refine ⟨?_, fun h => absurd h hP⟩
  intro h
  have hreturned := h.1
  rw [hx] at hreturned
  cases hreturned

theorem done_iff_of {m : Inbound} {x : Exit Error Unit} {u : State} {P : Prop} {es : List Event}
    (hx : x.returned = true) (hP : P) (hlog : u.srv.log = s.log ++ es)
    (hes : ∀ codes, .granted codes ∉ es) (hsettled : Settled s u.srv es m) : Done s m x u ↔ P :=
  ⟨fun _ => hP, fun _ => ⟨hx, es, hlog, fun codes hmem => absurd hmem (hes codes), hsettled⟩⟩

/-- A handler that queues its answer, sends what is queued, and goes on. -/
theorem answer_done {α : Type} {fuel : Nat} {s : Service} {m : Inbound} {p : Packet} {id : UInt16}
    {f : UInt16 → MqttM α} {R : Prop} {u : State} (hlog : u.srv.log = s.log)
    (hf : ∀ v es, v.srv.log = s.log ++ es → .queued p ∈ es → (∀ codes, .granted codes ∉ es) →
      wp (f id) (fun x u' => Done s m (x.as ()) u' ↔ R) v) :
    wp ((workBufferMutex.take >>= fun _ => prepare X p (some id)) >>= fun k =>
      processSendQueue X fuel >>= fun _ => f k) (fun x u' => Done s m (x.as ()) u' ↔
        Ready X u.env.ok u.srv p ∧ ((u.srv.txQueue ++ [p]).length < fuel ∧
          SendsAll X fuel (u.srv.txQueue ++ [p]) u.link) ∧ R) u := by
  apply prepared_then
  · intro v hbeside hsrv hready
    have htx : v.srv.txQueue = u.srv.txQueue ++ [p] := by
      rw [hsrv]
      rfl
    rw [wp_bind]
    apply wp_mono (drain_spec fuel fuel v)
    intro x w hx
    obtain ⟨hiff, hdrained⟩ := hx
    rw [htx, hbeside.link] at hiff
    have hnot (hx : x.returned = false) : ¬(Ready X u.env.ok u.srv p ∧
        ((u.srv.txQueue ++ [p]).length < fuel ∧
          SendsAll X fuel (u.srv.txQueue ++ [p]) u.link) ∧ R) := by
      intro h
      rw [hiff.mpr h.2.1] at hx
      cases hx
    cases x with
    | ok _ =>
      obtain ⟨es, hext, hes⟩ := hdrained.untouched.log
      have hlog' : w.srv.log = s.log ++ (.queued p :: es) := by
        rw [hext.log, hsrv, ← hlog]
        simp [Service.enqueue]
      have hungranted (codes : List UInt8) : Event.granted codes ∉ Event.queued p :: es := by
        intro hmem
        rcases List.mem_cons.mp hmem with hmem | hmem
        · cases hmem
        · cases hes _ hmem
      rw [thenPost_ok]
      apply wp_mono (hf w _ hlog' List.mem_cons_self hungranted)
      intro x u' hdone
      rw [hdone]
      exact ⟨fun h => ⟨hready, hiff.mp rfl, h⟩, fun h => h.2.2⟩
    | err err => exact done_iff_of_not rfl (hnot rfl)
    | trap => exact done_iff_of_not rfl (hnot rfl)
    | halt => exact done_iff_of_not rfl (hnot rfl)
  · intro err v _ hprep
    exact done_iff_of_not rfl fun h => hprep.not_ready rfl h.1
  · intro v _ hprep
    exact done_iff_of_not rfl fun h => hprep.not_ready rfl h.1

/-- The end of the publish handler, for a message that is handed over at once. -/
theorem deliver_done {fields : Option PublishFields} {es : List Event} {v : State}
    (hr : deserializePublish fields = .ok r) (hqos : r.qos ≠ .qos2)
    (hlog : v.srv.log = s.log ++ es) (hes : ∀ codes, .granted codes ∉ es) :
    wp (deliver r.packetId r)
      (fun x u' => Done s (.publish fields) (x.as ()) u' ↔ r.Shown) v := by
  apply wp_mono (deliver_delivered r.packetId r v)
  intro x u' hx
  obtain ⟨y, hdel, hy⟩ := hx
  obtain ⟨hiff, hshown⟩ := hdel.shown hqos
  rw [hy] at hiff hshown
  by_cases hx : x.returned = true
  · obtain ⟨topic, htopic, ev, hlog', hev⟩ := hshown hx
    have hlog'' : u'.srv.log = s.log ++ (es ++ [ev]) := by
      rw [hlog', hlog, List.append_assoc]
    apply done_iff_of ((as_returned () x).trans hx) (hiff.mp hx) hlog''
    · intro codes hmem
      rcases List.mem_append.mp hmem with hmem | hmem
      · exact hes codes hmem
      · rw [← List.mem_singleton.mp hmem] at hev
        rcases hev with hev | hev <;> cases hev
    · apply settled_publish hr
      cases hqos' : r.qos with
      | qos0 => trivial
      | qos1 =>
        rw [hqos'] at hev
        refine ⟨topic, htopic, ?_⟩
        rcases hev with rfl | rfl
        · exact .inl (by simp)
        · exact .inr (by simp)
      | qos2 => exact absurd hqos' hqos
  · apply done_iff_of_not ((as_returned () x).trans (Bool.eq_false_iff.mpr hx))
    intro h
    exact hx (hiff.mpr h)

/-- A well-formed PUBLISH is understood. -/
theorem wellFormed_publish {f : PublishFields} (h : (Inbound.publish (some f)).WellFormed) :
    ∃ r, deserializePublish (some f) = .ok r ∧ r.topic = some f.topic := by
  obtain ⟨htopic, hqos, -⟩ := h
  have hmqtt : getMQTTString f.topic = some f.topic := if_neg htopic
  have hrun (q : QoS) (hq : QoS.fromInt f.qos = .ok q) : deserializePublish (some f) =
      .ok ⟨f.packetId, q, f.dup, f.retained, getMQTTString f.topic, f.payload⟩ := by
    show (QoS.fromInt f.qos >>= fun _ => _) = _
    rw [hq]
    rfl
  rcases hqos with hqos | hqos | hqos
  · exact ⟨_, hrun .qos0 (by rw [hqos]; rfl), hmqtt⟩
  · exact ⟨_, hrun .qos1 (by rw [hqos]; rfl), hmqtt⟩
  · exact ⟨_, hrun .qos2 (by rw [hqos]; rfl), hmqtt⟩

/-- The publish handler. -/
theorem onPublish_spec {fuel : Nat} {fields : Option PublishFields}
    (hr : deserializePublish fields = .ok r) (u : State) : wp (onPublish X fuel fields)
      (fun x u' => Done u.srv (.publish fields) (x.as ()) u' ↔
        (Inbound.publish fields).Passable X
          (fun l => l.length < fuel ∧ SendsAll X fuel l u.link) u.env.ok u.srv) u := by
  rw [passable_publish hr]
  unfold onPublish
  rw [wp_bind, hr, wp_ofExcept_ok, thenPost_ok]
  cases hqos : r.qos with
  | qos0 =>
    simp only [answerPublish, hqos]
    exact deliver_done hr (by rw [hqos]; decide) (List.append_nil _).symm (by simp)
  | qos1 =>
    simp only [answerPublish, hqos, if_true]
    apply answer_done rfl
    intro v es hlog _ hes
    exact deliver_done hr (by rw [hqos]; decide) hlog hes
  | qos2 =>
    simp only [answerPublish, hqos]
    apply prepared_then
    · intro v hbeside hsrv hready
      show wp (deliver r.packetId r) _ v
      apply wp_mono (deliver_delivered r.packetId r v)
      intro x u' hx
      obtain ⟨y, hdel, hy⟩ := hx
      have hdel := hdel.congr hbeside.allocPayload hbeside.allocTopic hbeside.append
      obtain ⟨hiff, hkept⟩ := hdel.kept_iff hqos
      have hnow : v.srv.now = u.srv.now := by
        rw [hsrv]
        rfl
      rw [hy] at hiff hkept
      rw [hnow] at hiff
      by_cases hx : x.returned = true
      · obtain ⟨hlog, hstored⟩ := hkept hx
        have hlog' : u'.srv.log = u.srv.log ++ [.queued (.pubrec r.packetId)] := by
          rw [hlog, hsrv]
          rfl
        apply done_iff_of ((as_returned () x).trans hx) ⟨hready, hiff.mp hx⟩ hlog' (by simp)
        apply settled_publish hr
        rw [hqos]
        exact hstored
      · apply done_iff_of_not ((as_returned () x).trans (Bool.eq_false_iff.mpr hx))
        intro h
        exact hx (hiff.mpr h.2)
    · intro err v _ hprep
      exact done_iff_of_not rfl fun h => hprep.not_ready rfl h.1
    · intro v _ hprep
      exact done_iff_of_not rfl fun h => hprep.not_ready rfl h.1

/-- The end of the pubrel handler. -/
theorem complete_spec (packetId : UInt16) (msg : QueuedMessage) (u : State) :
    wp (complete packetId msg) (fun x u' => (x.returned = true ↔ msg.Prints packetId) ∧
      (x.returned = true → ∃ m, msg.message = some m ∧
        u'.srv.log = u.srv.log ++ [.handover packetId msg.qos m.topic m.payload])) u := by
  unfold complete QueuedMessage.Prints QueuedMessage.message
  cases hc : msg.content with
  | pubrel => exact ⟨⟨nofun, nofun⟩, nofun⟩
  | publish topic payload =>
    simp only
    rw [wp_bind]
    unfold bufPrint
    split
    · rename_i hlen
      exact ⟨⟨fun _ => hlen, fun _ => rfl⟩, fun _ => ⟨_, rfl, rfl⟩⟩
    · rename_i hlen
      exact ⟨⟨nofun, fun h => absurd h hlen⟩, nofun⟩

/-- The pubrel handler. -/
theorem onPubrel_spec {fuel : Nat} {fields : Option AckFields} {id : UInt16}
    (hid : deserializePubrel fields = .ok id) (u : State) : wp (onPubrel X fuel fields)
      (fun x u' => Done u.srv (.pubrel fields) (x.as ()) u' ↔
        (Inbound.pubrel fields).Passable X
          (fun l => l.length < fuel ∧ SendsAll X fuel l u.link) u.env.ok u.srv) u := by
  have hpassable {D : List Packet → Prop} {ok : Os → Nat → Bool} {s : Service} :
      (Inbound.pubrel fields).Passable X D ok s ↔
        ∀ r, removeFirst (fun m => m.packetId = id) s.qos2Queue = some r →
          Ready X ok s (.pubcomp id) ∧ D (s.txQueue ++ [.pubcomp id]) ∧ r.1.Prints id := by
    constructor
    · intro h
      exact h id hid
    · intro h id' hid'
      rw [hid] at hid'
      cases hid'
      exact h
  have hsettled {s s' : Service} {es : List Event}
      (h : ∀ r, removeFirst (fun m => m.packetId = id) s.qos2Queue = some r →
        ∃ msg, r.1.message = some msg ∧ .handover id r.1.qos msg.topic msg.payload ∈ es) :
      Settled s s' es (.pubrel fields) := by
    intro id' hid'
    rw [hid] at hid'
    cases hid'
    exact h
  rw [hpassable]
  unfold onPubrel
  rw [wp_bind, hid, wp_ofExcept_ok, thenPost_ok, wp_bind]
  have hfind : findAndRemove .qos2Queue id u = _ := take_run .qos2Queue (fun m => m.packetId = id) u
  rw [show u.srv.queue .qos2Queue = u.srv.qos2Queue from rfl] at hfind
  cases hr : removeFirst (fun m => m.packetId = id) u.srv.qos2Queue with
  | none =>
    rw [hr] at hfind
    apply wp_of_eq hfind
    show Done _ _ _ _ ↔ _
    apply done_iff_of rfl nofun (List.append_nil _).symm (by simp)
    apply hsettled
    rw [hr]
    exact nofun
  | some r =>
    obtain ⟨msg, rest⟩ := r
    have honly {P : QueuedMessage × List QueuedMessage → Prop} :
        (∀ r, some (msg, rest) = some r → P r) ↔ P (msg, rest) := by simp
    rw [hr] at hfind
    rw [honly]
    apply wp_of_eq hfind
    rw [thenPost_ok]
    have hready : Ready X u.env.ok u.srv (.pubcomp id) ↔
        Ready X u.env.ok (u.srv.setQueue .qos2Queue rest) (.pubcomp id) :=
      ⟨fun h => h.congr rfl rfl, fun h => h.congr rfl rfl⟩
    rw [hready]
    show wp (preparePubCompPacket X id >>= fun _ => processSendQueue X fuel >>= fun _ =>
      complete id msg >>= fun _ => pure Flow.again) _ _
    apply answer_done
    · rfl
    intro v es hlog _ hes
    rw [wp_bind]
    apply wp_mono (complete_spec id msg v)
    intro x u' hx
    obtain ⟨hprints, hhanded⟩ := hx
    have hfailed (hx : x.returned = false) : ¬msg.Prints id := by
      intro h
      rw [hprints.mpr h] at hx
      cases hx
    cases x with
    | ok _ =>
      obtain ⟨m, hm, hlog'⟩ := hhanded rfl
      have hlog'' : u'.srv.log = u.srv.log ++ (es ++ [.handover id msg.qos m.topic m.payload]) := by
        rw [hlog', hlog, List.append_assoc]
      show Done _ _ _ _ ↔ _
      apply done_iff_of rfl (hprints.mp rfl) hlog''
      · intro codes hmem
        rcases List.mem_append.mp hmem with hmem | hmem
        · exact hes codes hmem
        · cases List.mem_singleton.mp hmem
      · apply hsettled
        rw [hr, honly]
        exact ⟨m, hm, by simp⟩
    | err err => exact done_iff_of_not rfl (hfailed rfl)
    | trap => exact done_iff_of_not rfl (hfailed rfl)
    | halt => exact done_iff_of_not rfl (hfailed rfl)

/-- The codes of a SUBACK are recorded before they are counted. -/
theorem granted_done {id : UInt16} {codes : List UInt8} {x : Exit Error Unit} {u : State} {P : Prop}
    (hlog : u.srv.log = s.log ++ [.granted codes]) (hx : x.returned = true ↔ P) :
    Done s (.suback (some (id, codes))) x u ↔ P ∧ ∀ c ∈ codes, c.toNat ≤ 2 := by
  constructor
  · rintro ⟨hreturned, es, hlog', hvalid, -⟩
    have hes : es = [.granted codes] := List.append_cancel_left (hlog'.symm.trans hlog)
    subst hes
    exact ⟨hx.mp hreturned, hvalid codes List.mem_cons_self⟩
  · rintro ⟨hP, hvalid⟩
    refine ⟨hx.mpr hP, _, hlog, ?_, trivial⟩
    intro codes' hmem
    cases List.mem_singleton.mp hmem
    exact hvalid

/-- **A packet that is read in the receive loop.** -/
theorem dispatch_spec {fuel : Nat} {m : Inbound} (hm : m.WellFormed) (u : State) :
    wp (dispatch X fuel m) (fun x u' => Done u.srv m (x.as ()) u' ↔
      m.Passable X (fun l => l.length < fuel ∧ SendsAll X fuel l u.link) u.env.ok u.srv) u := by
  match m, hm with
  | .publish (some f), hm =>
    obtain ⟨r, hr, -⟩ := wellFormed_publish hm
    exact onPublish_spec hr u
  | .pubrel (some f), hm =>
    have hid : deserializePubrel (some f) = .ok f.packetId := by
      have htype : f.packetType = .pubrel := hm
      show (if f.packetType ≠ .pubrel then _ else _) = _
      rw [if_neg (not_not.mpr htype)]
    exact onPubrel_spec hid u
  | .suback (some (id, codes)), _ =>
    have hpassable {D : List Packet → Prop} {ok : Os → Nat → Bool} {s : Service} :
        (Inbound.suback (some (id, codes))).Passable X D ok s ↔
          codes.length ≤ 2 ∧ ∀ c ∈ codes, c.toNat ≤ 2 := by
      simp [Inbound.Passable]
    rw [hpassable]
    show wp ((do
      record [.granted codes]
      if 2 < codes.length then Prog.trap else pure (id, codes)) >>= fun _ => pure Flow.again) _ u
    rw [wp_bind, wp_bind, wp_record, thenPost_ok, wp_ite]
    split
    · rename_i hlen
      apply granted_done rfl
      exact ⟨nofun, fun hle => absurd hlen (Nat.not_lt.mpr hle)⟩
    · rename_i hlen
      apply granted_done rfl
      exact ⟨fun _ => Nat.not_lt.mp hlen, fun _ => rfl⟩

end Handlers

/-! ## The three places -/

section Sites

variable {X : Externs} {t : State} {fuel : Nat}

/-- The receive loop. -/
theorem loop_spec (hwait : t.env.waitRx 0 = some true) (hm : (t.env.read 0).WellFormed) :
    wp (Site.loop.process X fuel) (fun x t' =>
      Done (t.srv.record [.received (t.env.read 0)]) (t.env.read 0) x t' ↔
        (t.env.read 0).Passable X (fun l => l.length < fuel ∧ SendsAll X fuel l t.link) t.env.ok
          (t.srv.record [.received (t.env.read 0)])) t := by
  have hrun : (connection.waitRx 1).tryCatch (fun _ => pure false) t =
      (.ok true, { t with env := t.env.advanceWait }) := by
    unfold Prog.tryCatch connection.waitRx
    rw [hwait]
  show wp (receive X fuel >>= fun _ => pure ()) _ t
  rw [wp_bind]
  unfold receive
  apply wp_of_same (Prog.bind_ok _ hrun)
  rw [if_pos rfl]
  apply read_spec
  rw [wp_bind]
  apply wp_mono (dispatch_spec hm _)
  intro x u' hx
  cases x with
  | ok flow => cases flow <;> exact hx
  | err err => exact hx
  | trap => exact hx
  | halt => exact hx

/-- The wait for CONNACK. -/
theorem connack_spec (hwait : t.env.waitRx 0 = some true) (hm : (t.env.read 0).WellFormed)
    (s : Service) : wp awaitConnack (fun x t' => Done s (t.env.read 0) x t' ↔ False) t := by
  unfold awaitConnack
  apply waitRx_spec
  · intro hnone
    rw [hwait] at hnone
    cases hnone
  · intro b hb
    rw [hwait] at hb
    cases hb
    rw [if_pos rfl]
    apply read_spec
    match hread : t.env.read 0, hm with
    | .publish (some _), _ => exact done_iff_of_not rfl not_false
    | .pubrel (some _), _ => exact done_iff_of_not rfl not_false
    | .suback (some _), _ => exact done_iff_of_not rfl not_false

/-- Nothing has been acknowledged. -/
theorem settled_publish_nil (s s' : Service) (fields : Option PublishFields) :
    Settled s s' [] (.publish fields) := by
  intro r _
  cases r.qos with
  | qos0 => trivial
  | qos1 => exact nofun
  | qos2 => exact nofun

/-- The wait for SUBACK. -/
theorem suback_spec {packetId : UInt16} (hwait : t.env.waitRx 0 = some true)
    (hm : (t.env.read 0).WellFormed) : wp (awaitSuback packetId) (fun x t' =>
      Done (t.srv.record [.received (t.env.read 0)]) (t.env.read 0) x t' ↔
        (t.env.read 0).Subacked t.srv packetId) t := by
  unfold awaitSuback
  apply waitRx_spec
  · intro hnone
    rw [hwait] at hnone
    cases hnone
  · intro b hb
    rw [hwait] at hb
    cases hb
    rw [if_pos rfl]
    apply read_spec
    match hread : t.env.read 0, hm with
    | .publish (some f), _ =>
      exact done_iff_of rfl trivial (List.append_nil _).symm (by simp)
        (settled_publish_nil _ _ _)
    | .pubrel (some f), _ =>
      show Done _ _ (.ok ()) _ ↔ _
      constructor
      · rintro ⟨-, es, hlog, -, hsettled⟩
        have hes : es = [] := List.append_right_eq_self.mp hlog.symm
        subst hes
        intro id hid
        cases hr : removeFirst (fun m => m.packetId = id) t.srv.qos2Queue with
        | none => rfl
        | some r =>
          obtain ⟨_, -, hmem⟩ := hsettled id hid r hr
          cases hmem
      · intro hnone
        refine ⟨rfl, [], (List.append_nil _).symm, by simp, ?_⟩
        intro id hid r hr
        have hfound := hnone id hid
        rw [show removeFirst (fun m => m.packetId = id) t.srv.qos2Queue = some r from hr] at hfound
        cases hfound
    | .suback (some (id, codes)), _ =>
      have hsubacked : (Inbound.suback (some (id, codes))).Subacked t.srv packetId ↔
          (codes.length ≤ 2 ∧ (id = packetId → codes.length = 2)) ∧ ∀ c ∈ codes, c.toNat ≤ 2 := by
        unfold Inbound.Subacked
        simp only [Option.mem_def, Option.some.injEq, forall_eq']
        tauto
      rw [hsubacked]
      show wp ((do
        let r ← (do
          record [.granted codes]
          if 2 < codes.length then Prog.trap else pure (id, codes))
        if r.1 = packetId ∧ r.2.length < 2 then Prog.trap) : MqttM Unit) _ _
      rw [wp_bind, wp_bind, wp_record, thenPost_ok, wp_ite]
      split
      · rename_i hlen
        apply granted_done rfl
        exact ⟨nofun, fun h => absurd hlen (Nat.not_lt.mpr h.1)⟩
      · rename_i hlen
        rw [wp_pure, thenPost_ok, wp_ite]
        split
        · rename_i hshort
          apply granted_done rfl
          refine ⟨nofun, fun h => ?_⟩
          have htwo := h.2 hshort.1
          have hlt : codes.length < 2 := hshort.2
          omega
        · rename_i hlong
          apply granted_done rfl
          refine ⟨fun _ => ⟨Nat.not_lt.mp hlen, fun hid => ?_⟩, fun _ => rfl⟩
          have hlt : ¬codes.length < 2 := fun hlt => hlong ⟨hid, hlt⟩
          omega

theorem process_spec {site : Site} (hwait : t.env.waitRx 0 = some true)
    (hm : (t.env.read 0).WellFormed) : wp (site.process X fuel) (fun x t' =>
      Done (t.srv.record [.received (t.env.read 0)]) (t.env.read 0) x t' ↔
        site.Passable X (fun l => l.length < fuel ∧ SendsAll X fuel l t.link) t.env.ok
          (t.srv.record [.received (t.env.read 0)]) (t.env.read 0)) t := by
  cases site with
  | loop => exact loop_spec hwait hm
  | connack => exact connack_spec hwait hm _
  | suback packetId => exact suback_spec hwait hm

end Sites

/-! ## Enough fuel -/

section Fuel

variable {X : Externs} {D E : List Packet → Prop} {ok : Os → Nat → Bool} {s : Service} {m : Inbound}

theorem passable_record {es : List Event} :
    m.Passable X D ok (s.record es) ↔ m.Passable X D ok s := by
  have hready (p : Packet) : Ready X ok (s.record es) p ↔ Ready X ok s p :=
    ⟨fun h => h.congr rfl rfl, fun h => h.congr rfl rfl⟩
  cases m with
  | publish fields =>
    unfold Inbound.Passable
    simp only [hready]
    exact Iff.rfl
  | pubrel fields =>
    unfold Inbound.Passable
    simp only [hready]
    exact Iff.rfl
  | _ => exact Iff.rfl

/-- The packets that are sent when the packet is processed. -/
def Inbound.answers (s : Service) : Inbound → List Packet
  | .publish fields =>
    match deserializePublish fields with
    | .ok r => s.txQueue ++ [.puback r.packetId]
    | .error _ => []
  | .pubrel fields =>
    match deserializePubrel fields with
    | .ok id => s.txQueue ++ [.pubcomp id]
    | .error _ => []
  | _ => []

/-- Only the condition on the packets that are sent matters. -/
theorem Inbound.Passable.answers (h : m.Passable X D ok s)
    (hDE : D (m.answers s) → E (m.answers s)) : m.Passable X E ok s := by
  cases m with
  | publish fields =>
    intro r hr
    have hpass := h r hr
    have hanswers : (Inbound.publish fields).answers s = s.txQueue ++ [.puback r.packetId] := by
      simp only [Inbound.answers, hr]
    rw [hanswers] at hDE
    cases hqos : r.qos with
    | qos0 =>
      rw [hqos] at hpass
      exact hpass
    | qos1 =>
      rw [hqos] at hpass
      exact ⟨hpass.1, hDE hpass.2.1, hpass.2.2⟩
    | qos2 =>
      rw [hqos] at hpass
      exact hpass
  | pubrel fields =>
    intro id hid r hr
    have hanswers : (Inbound.pubrel fields).answers s = s.txQueue ++ [.pubcomp id] := by
      simp only [Inbound.answers, hid]
    rw [hanswers] at hDE
    obtain ⟨hready, hdrained, hprints⟩ := h id hid r hr
    exact ⟨hready, hDE hdrained, hprints⟩
  | _ => exact h

/-- What can be written is written with enough fuel. -/
theorem passable_fuel {l : Link} : m.Passable X (fun p => Writable X p l) ok s ↔
    ∃ n, ∀ fuel, n ≤ fuel →
      m.Passable X (fun p => p.length < fuel ∧ SendsAll X fuel p l) ok s := by
  constructor
  · intro h
    by_cases hwritable : Writable X (m.answers s) l
    · obtain ⟨n, hn⟩ := hwritable.sendsAll
      refine ⟨n + ((m.answers s).length + 1), ?_⟩
      intro fuel hfuel
      apply h.answers
      intro _
      exact ⟨by omega, hn fuel (by omega)⟩
    · refine ⟨0, ?_⟩
      intro fuel _
      exact h.answers fun hw => absurd hw hwritable
  · rintro ⟨n, hn⟩
    apply (hn n le_rfl).answers
    exact fun h => h.2.writable

end Fuel

/-- **A packet is handled exactly if it is manageable**, wherever and in whatever state it is
read. -/
theorem inbound_handled (X : Externs) {site : Site} {t : State}
    (hwait : t.env.waitRx 0 = some true) (hm : (t.env.read 0).WellFormed) :
    Handled X site t ↔ Manageable X site t := by
  have hdone (fuel : Nat) := @process_spec X t fuel site hwait hm
  have hhandled : Handled X site t ↔ ∃ n, ∀ fuel, n ≤ fuel → site.Passable X
      (fun l => l.length < fuel ∧ SendsAll X fuel l t.link) t.env.ok
        (t.srv.record [.received (t.env.read 0)]) (t.env.read 0) := by
    constructor
    · rintro ⟨n, hn⟩
      exact ⟨n, fun fuel hfuel => (hdone fuel).mp (hn fuel hfuel)⟩
    · rintro ⟨n, hn⟩
      exact ⟨n, fun fuel hfuel => (hdone fuel).mpr (hn fuel hfuel)⟩
  rw [hhandled]
  unfold Manageable
  cases site with
  | loop =>
    unfold Site.Passable
    simp only [passable_record]
    exact passable_fuel.symm
  | connack => exact ⟨fun ⟨n, hn⟩ => hn n le_rfl, fun h => ⟨0, fun _ _ => h⟩⟩
  | suback packetId =>
    constructor
    · rintro ⟨n, hn⟩
      exact hn n le_rfl
    · intro h
      exact ⟨0, fun _ _ => h⟩

/-! ## Two messages -/

namespace Sys

/-- The receive loop, when nothing is left to be sent. -/
def listening : Sys := (mqtt .documented).run .initial (Input.established ++ Input.rounds)

/-- `m` has arrived, and a write takes `written` bytes. -/
def reading (m : Inbound) (written : Int) : State := listening.start (.smooth (some m) written)

end Sys

/-- A message with quality of service `qos`. -/
def Inbound.told (qos : Int) (topic : String) : Inbound :=
  .publish (some ⟨false, qos, false, 7, ascii topic, ascii "on"⟩)

theorem inbound_handled_told : Handled .documented .loop (Sys.reading (.told 1 "zig/conf") 4) := by
  rw [inbound_handled .documented (by decide +kernel) (by decide +kernel)]
  intro r hr
  cases hr
  refine ⟨by decide +kernel, ?_, ?_⟩
  · exact .cons _ [] _ _ (.last _ _ (by decide +kernel) (by decide +kernel) (by decide +kernel))
      (.nil _)
  · exact ⟨ascii "zig/conf", rfl, .inr (by decide +kernel)⟩

/-- A topic of three bytes is too short for the handler. -/
theorem short_topic_unhandled : ¬∀ (X : Externs) (s₀ s : Sys) (site : Site) (a : Answers),
    Initial s₀ → (mqtt X).Reaches System.Free s₀ s → s.pc = site.pc →
    a.env.waitRx 0 = some true → (a.env.read 0).WellFormed → Handled X site (s.start a) := by
  intro h
  have hreach : (mqtt .documented).Reaches System.Free Sys.initial Sys.listening :=
    System.reaches_run (by decide +kernel)
  have hwait : (Sys.reading (.told 0 "a/b") 0).env.waitRx 0 = some true := rfl
  have hm : ((Sys.reading (.told 0 "a/b") 0).env.read 0).WellFormed := by decide +kernel
  obtain ⟨n, hn⟩ := h .documented Sys.initial Sys.listening .loop
    (.smooth (some (.told 0 "a/b")) 0) Sys.initial_initial hreach (by decide +kernel) hwait hm
  have hpass := (@process_spec _ _ _ .loop hwait hm).mp (hn n le_rfl)
  obtain ⟨topic, htopic, hshown⟩ := hpass _ rfl
  cases htopic
  revert hshown
  decide +kernel

end Miso.Mqtt

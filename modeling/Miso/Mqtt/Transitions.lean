import Mathlib.Tactic.NthRewrite
import Miso.Mqtt.Outcomes

/-!
# The transitions of the service

Every step of the task is a `Taken`, every callback a `Called` and every step of the system a
`Moved`.  The invariants of the service are derived from these.

* `taskStep_taken` — the steps of the task;
* `run_called`, `rest_called` — the callbacks, from their beginning and from where they wait;
* `next_moved` — the steps of the system.
-/

namespace Miso.Mqtt

open Zig Net QueuedMessgeQueue

/-! ## The queues -/

theorem take_run (q : Queue) (f : QueuedMessage → Bool) (s : State) :
    take q f s = match removeFirst f (s.srv.queue q) with
      | some (msg, rest) => (.ok (some msg), { s with srv := s.srv.setQueue q rest })
      | none => (.ok none, s) := by
  show (match removeFirst f (s.srv.queue q) with
    | some (msg, rest) => (do
        update (·.setQueue q rest)
        pure (some msg) : MqttM (Option QueuedMessage))
    | none => pure none) s = _
  cases removeFirst f (s.srv.queue q) with
  | none => rfl
  | some r => rfl

theorem prune_run (q : Queue) (s : State) :
    prune q s = match removeFirst (expired s.srv.now) (s.srv.queue q) with
      | some (msg, rest) => (.ok (some msg), { s with srv := s.srv.setQueue q rest })
      | none => (.ok none, s) := take_run q (expired s.srv.now) s

theorem acknowledge_run (packetId : UInt16) (packetType : msgTypes) (s : State) :
    acknowledge .qosQueue packetId packetType s =
      (.ok (s.srv.acknowledged packetId packetType).isSome,
        { s with srv := (s.srv.acknowledged packetId packetType).getD s.srv }) := by
  have htake := take_run .qosQueue (acks packetId packetType) s
  unfold Service.acknowledged
  cases hr : removeFirst (acks packetId packetType) s.srv.qosQueue with
  | none =>
    rw [show s.srv.queue .qosQueue = s.srv.qosQueue from rfl, hr] at htake
    exact Prog.bind_ok _ htake
  | some r =>
    rw [show s.srv.queue .qosQueue = s.srv.qosQueue from rfl, hr] at htake
    refine (Prog.bind_ok _ htake).trans ?_
    obtain ⟨msg, rest⟩ := r
    obtain ⟨packetId', qos, dup, retained, content, deadline⟩ := msg
    cases content with
    | publish topic payload => rfl
    | pubrel => rfl

/-! ## `connect` -/

section Task

variable (X : Externs) (fuel : Nat) (s : State)

theorem connect_taken : wp (taskStep X fuel .connect)
    (fun x t => Taken X s.env fuel s.link .connect s.srv x t.srv t.link) s := by
  cases hrun : TlsContext.open fuel connectionType X.config_get_mqtt_url s.link with
  | mk x l =>
  have hlink : onLink (TlsContext.open fuel connectionType X.config_get_mqtt_url)
      { s with srv := s.srv.connecting } = (x, { s with srv := s.srv.connecting, link := l }) := by
    unfold onLink Prog.zoom
    rw [hrun]
  have hstep : taskStep X fuel .connect s = ((onLink (TlsContext.open fuel connectionType
      X.config_get_mqtt_url) >>= fun _ => record [.opened]) >>= fun _ => pure Pc.connectPacket)
        { s with srv := s.srv.connecting } := rfl
  apply wp_of_same hstep
  rw [wp_bind, wp_bind]
  apply wp_of_eq hlink
  cases x with
  | ok u => exact .opened s.srv l hrun
  | err err => exact .openFailed s.srv err l hrun
  | trap => exact .openTrap s.srv l hrun
  | halt => exact .openHalt s.srv l hrun

/-- `waitRx`: the answers about other calls stay. -/
theorem waitRx_spec {α : Type} {f : Bool → MqttM α} {Q : Exit Error α → State → Prop} (n : Nat)
    (herr : s.env.waitRx 0 = none → Q (.err .QueueSendFailed) { s with env := s.env.advanceWait })
    (hok : ∀ b, s.env.waitRx 0 = some b → wp (f b) Q { s with env := s.env.advanceWait }) :
    wp (connection.waitRx n >>= f) Q s := by
  rw [wp_bind]
  unfold wp connection.waitRx
  cases h : s.env.waitRx 0 with
  | none => exact herr h
  | some b => exact hok b h

/-- `read`: the packet is recorded. -/
theorem read_spec {α : Type} {f : Inbound → MqttM α} {Q : Exit Error α → State → Prop}
    (h : wp (f (s.env.read 0)) Q
      { s with srv := s.srv.record [.received (s.env.read 0)], env := s.env.advanceRead }) :
    wp (read >>= f) Q s := h

theorem processConnAck_some (rc : UInt8) : processConnAck (some rc) =
    if rc ≠ 0 then .error .connack_failed else .ok () := rfl

theorem processConnAck_error {connack_rc : Option UInt8} {err : Error}
    (h : processConnAck connack_rc = .error err) :
    connack_rc ≠ some 0 ∧ Common err := by
  cases connack_rc with
  | none =>
    cases h
    exact ⟨nofun, by decide⟩
  | some rc =>
    rw [processConnAck_some] at h
    by_cases hrc : rc ≠ 0
    · rw [if_pos hrc] at h
      cases h
      exact ⟨fun hsome => hrc (Option.some.inj hsome), by decide⟩
    · rw [if_neg hrc] at h
      cases h

theorem processConnAck_ok {connack_rc : Option UInt8} (h : processConnAck connack_rc = .ok ()) :
    connack_rc = some 0 := by
  cases connack_rc with
  | none => cases h
  | some rc =>
    rw [processConnAck_some] at h
    by_cases hrc : rc ≠ 0
    · rw [if_pos hrc] at h
      cases h
    · rw [not_not.mp hrc]

theorem connack_taken : wp (taskStep X fuel .connack)
    (fun x t => Taken X s.env fuel s.link .connack s.srv x t.srv t.link) s := by
  show wp (awaitConnack >>= fun _ => pure Pc.subscribe) _ s
  rw [wp_bind]
  unfold awaitConnack
  apply waitRx_spec
  · intro hnone
    exact .connackError s.srv hnone
  · intro b hb
    cases b with
    | false =>
      rw [if_neg (by decide)]
      exact .connackTimeout s.srv hb
    | true =>
      rw [if_pos rfl]
      apply read_spec
      dsimp only
      rw [show s.env.advanceWait.read 0 = s.env.read 0 from rfl]
      obtain ⟨m, hread⟩ : ∃ m, s.env.read 0 = m := ⟨_, rfl⟩
      -- the packet in the `match`, not the one that is recorded
      nth_rewrite 1 [hread]
      have hother : s.env.read 0 ≠ .reserved → (∀ rc, s.env.read 0 ≠ .connack rc) →
          Taken X s.env fuel s.link .connack s.srv (.err .connect_failed)
            (s.srv.record [.received (s.env.read 0)]) s.link := fun hres hne =>
        .connackRefused s.srv _ hb (hne _) hres (by decide)
      cases m with
      | connack connack_rc =>
        show wp (ofExcept (processConnAck connack_rc)) _ _
        cases hrc : processConnAck connack_rc with
        | ok u =>
          obtain rfl := processConnAck_ok hrc
          exact .connackAccepted s.srv hb hread
        | error err =>
          obtain ⟨hne, herr⟩ := processConnAck_error hrc
          exact .connackRefused s.srv err hb
            (fun h => hne (Inbound.connack.inj (hread.symm.trans h)))
            (fun h => Inbound.noConfusion (hread.symm.trans h)) herr
      | reserved =>
        exact .connackReserved s.srv hb hread
      | _ => exact hother (by rw [hread]; nofun) (by rw [hread]; nofun)

theorem suback_taken (packetId : UInt16) : wp (taskStep X fuel (.suback packetId))
    (fun x t => Taken X s.env fuel s.link (.suback packetId) s.srv x t.srv t.link) s := by
  show wp (awaitSuback packetId >>= fun _ => (do
    update Service.connected
    pure Pc.retransmit)) _ s
  rw [wp_bind]
  unfold awaitSuback
  apply waitRx_spec
  · intro hnone
    exact .subackError packetId s.srv hnone
  · intro b hb
    cases b with
    | false =>
      rw [if_neg (by decide)]
      exact .subackTimeout packetId s.srv hb
    | true =>
      rw [if_pos rfl]
      apply read_spec
      dsimp only
      rw [show s.env.advanceWait.read 0 = s.env.read 0 from rfl]
      obtain ⟨m, hread⟩ : ∃ m, s.env.read 0 = m := ⟨_, rfl⟩
      -- the packet in the `match`, not the one that is recorded
      nth_rewrite 1 [hread]
      have hother : s.env.read 0 ≠ .reserved → (∀ fields, s.env.read 0 ≠ .suback fields) →
          Taken X s.env fuel s.link (.suback packetId) s.srv (.ok .retransmit)
            (s.srv.record [.received (s.env.read 0)]).connected s.link := fun hres hne =>
        .subackOther packetId s.srv hb hne hres
      cases m with
      | suback fields =>
        cases fields with
        | none => exact .subackMalformed packetId s.srv hb hread
        | some f =>
          obtain ⟨id, codes⟩ := f
          show wp (do
            let r ← (do
              record [.granted codes]
              if 2 < codes.length then Prog.trap else pure (id, codes))
            if r.1 = packetId ∧ r.2.length < 2 then Prog.trap) _ _
          rw [wp_bind, wp_bind, wp_record, thenPost_ok, wp_ite]
          split
          · rename_i hlen
            exact .subackIndex packetId s.srv id codes hb hread (.inl hlen)
          · rename_i hlen
            rw [wp_pure, thenPost_ok, wp_ite]
            split
            · rename_i hid
              exact .subackIndex packetId s.srv id codes hb hread (.inr hid)
            · rename_i hid
              exact .suback packetId s.srv id codes hb hread (Nat.not_lt.mp hlen) hid
      | reserved => exact .subackReserved packetId s.srv hb hread
      | _ => exact hother (by rw [hread]; nofun) (by rw [hread]; nofun)

/-- A step that prepares a packet and goes on at `pc`. -/
theorem prepared_step {m : MqttM UInt16} {p : Packet} {k id : UInt16} (s₀ t : State)
    (pc : UInt16 → Pc) {Q : Exit Error Pc → Service → Link → Prop} (hlink : t.link = s₀.link)
    (hm : wp m (fun x t' => Beside t t' ∧ Prepared X s.env.ok s.srv p k id x t'.srv) t)
    (hQ : ∀ x s', Prepared X s.env.ok s.srv p k id x s' → Q (x.as (pc id)) s' s₀.link) :
    wp (m >>= fun a => pure (pc a)) (fun x t' => Q x t'.srv t'.link) t := by
  rw [wp_bind]
  apply wp_mono hm
  intro x t' hx
  obtain ⟨hbeside, hprep⟩ := hx
  have hend := hQ x t'.srv hprep
  rw [← hlink, ← hbeside.link] at hend
  generalize hsrv : t'.srv = s' at hprep
  cases hprep with
  | queued => exact hend
  | failed => exact hend
  | stuck => exact hend
  | blocked => exact hend

theorem connectPacket_taken : wp (taskStep X fuel .connectPacket)
    (fun x t => Taken X s.env fuel s.link .connectPacket s.srv x t.srv t.link) s := by
  apply prepared_step X s s s (fun _ => .drain .connect) rfl
    (prepared_spec X X.connectPacket none s)
  intro x s' hprep
  exact .connectPacket s.srv x s' hprep

theorem subscribe_taken : wp (taskStep X fuel .subscribe)
    (fun x t => Taken X s.env fuel s.link .subscribe s.srv x t.srv t.link) s := by
  apply prepared_step X s s s (fun packetId => .drain (.subscribe packetId)) rfl
    (subscribePacket_spec X s)
  intro x s' hprep
  exact .subscribe s.srv x s' hprep

theorem disconnect_taken (err : Error) : wp (taskStep X fuel (.disconnect err))
    (fun x t => Taken X s.env fuel s.link (.disconnect err) s.srv x t.srv t.link) s := by
  have hstep : taskStep X fuel (.disconnect err) s =
      (prepareDisconnectPacket X >>= fun _ => pure (Pc.drain (.disconnect err)))
        { s with srv := s.srv.disconnecting } := rfl
  apply wp_of_same hstep
  apply prepared_step X { s with srv := s.srv.disconnecting } s
    { s with srv := s.srv.disconnecting } (fun _ => .drain (.disconnect err)) rfl
    (prepared_spec X .disconnect none _)
  intro x s' hprep
  exact .disconnect err s.srv x s' hprep

/-! ## The loops of `loop` -/

theorem retransmit_taken : wp (taskStep X fuel .retransmit)
    (fun x t => Taken X s.env fuel s.link .retransmit s.srv x t.srv t.link) s := by
  have hprune := prune_run .qosQueue s
  show wp (retransmit X >>= _) _ s
  rw [wp_bind]
  unfold retransmit
  rw [wp_bind]
  cases hr : removeFirst (expired s.srv.now) s.srv.qosQueue with
  | none =>
    rw [show s.srv.queue .qosQueue = s.srv.qosQueue from rfl, hr] at hprune
    apply wp_of_eq hprune
    exact .retransmitted s.srv hr
  | some r =>
    obtain ⟨msg, rest⟩ := r
    rw [show s.srv.queue .qosQueue = s.srv.qosQueue from rfl, hr] at hprune
    apply wp_of_eq hprune
    rw [thenPost_ok]
    cases hc : msg.content with
    | publish topic payload =>
      simp only [hc]
      apply calculateDeadline_spec
      · intro hle
        rw [wp_bind]
        apply wp_mono (publish_spec X topic.bytes payload.bytes msg.qos true (some msg.packetId)
          (s.srv.now + 2000) _)
        intro x t hx
        have htaken : Taken X s.env fuel s.link .retransmit s.srv (x.as .retransmit) t.srv
            t.link := by
          rw [hx.1]
          exact .retransmit s.srv msg rest topic payload x t.srv hr hc hle hx.2
        cases x <;> exact htaken
      · intro hlt
        exact .retransmitOverflow s.srv msg rest topic payload hr hc hlt
    | pubrel =>
      have hassoc : (do
          let ret ← preparePubRelPacket X msg.packetId true
          let deadline ← calculateDeadline 2000
          addPubRel .qosQueue ret true deadline
          pure (.inl ()) : MqttM (Unit ⊕ Unit)) = (do
            let ret ← preparePubRelPacket X msg.packetId true
            let deadline ← calculateDeadline 2000
            addPubRel .qosQueue ret true deadline) >>= fun _ => pure (.inl ()) := by
        simp only [Prog.bind_assoc]
      simp only [hc]
      rw [hassoc, wp_bind]
      apply wp_mono (pubrel_spec X msg.packetId true true _)
      intro x t hx
      have htaken : Taken X s.env fuel s.link .retransmit s.srv (x.as .retransmit) t.srv
          t.link := by
        rw [hx.1]
        exact .retransmitPubrel s.srv msg rest x t.srv hr hc hx.2
      cases x <;> exact htaken

theorem expire_taken : wp (taskStep X fuel .expire)
    (fun x t => Taken X s.env fuel s.link .expire s.srv x t.srv t.link) s := by
  have hprune := prune_run .qos2Queue s
  show wp (expire >>= _) _ s
  rw [wp_bind]
  unfold expire
  rw [wp_bind]
  cases hr : removeFirst (expired s.srv.now) s.srv.qos2Queue with
  | none =>
    rw [show s.srv.queue .qos2Queue = s.srv.qos2Queue from rfl, hr] at hprune
    apply wp_of_eq hprune
    exact .unexpired s.srv hr
  | some r =>
    obtain ⟨msg, rest⟩ := r
    rw [show s.srv.queue .qos2Queue = s.srv.qos2Queue from rfl, hr] at hprune
    apply wp_of_eq hprune
    rw [thenPost_ok]
    cases hc : msg.content with
    | publish topic payload =>
      have htaken : Taken X s.env fuel s.link .expire s.srv (.ok .expire)
          ({ s.srv with qos2Queue := rest }.freed msg.content) s.link :=
        .expire s.srv msg rest topic payload hr hc
      rw [hc] at htaken
      simp only [hc]
      exact htaken
    | pubrel =>
      simp only [hc]
      exact .expirePubrel s.srv msg rest hr hc

theorem drain_taken (caller : Drain) : wp (taskStep X fuel (.drain caller))
    (fun x t => Taken X s.env fuel s.link (.drain caller) s.srv x t.srv t.link) s := by
  show wp (sendNext X fuel >>= _) _ s
  rw [wp_bind]
  unfold sendNext
  rw [wp_bind, wp_service, thenPost_ok]
  cases hq : s.srv.txQueue with
  | nil => exact .drained caller s.srv hq
  | cons p rest =>
    cases hrun : TlsContext.send_tls fuel (X.size p) s.link with
    | mk x l =>
    have hsend : connection.send X fuel p { s with srv := { s.srv with txQueue := rest } } =
        (x, { s with srv := { s.srv with txQueue := rest }.record [.sent p], link := l }) := by
      have hlink : onLink (TlsContext.send_tls fuel (X.size p))
          { s with srv := { s.srv with txQueue := rest }.record [.sent p] } =
          (x, { s with srv := { s.srv with txQueue := rest }.record [.sent p], link := l }) := by
        unfold onLink Prog.zoom
        rw [hrun]
      exact (Prog.bind_ok _ rfl).trans hlink
    show wp (update (fun s => { s with txQueue := rest }) >>= fun _ =>
      connection.send X fuel p >>= fun _ => pure (Sum.inl ())) _ s
    rw [wp_bind, wp_update, thenPost_ok, wp_bind]
    apply wp_of_eq hsend
    cases x with
    | ok n => exact .sent caller s.srv p rest n l hq hrun
    | err err => exact .sendFailed caller s.srv p rest err l hq hrun
    | trap => exact .sendTrap caller s.srv p rest l hq hrun
    | halt => exact .sendHalt caller s.srv p rest l hq hrun

/-! ## The receive loop -/

theorem deserializeAck_error {packetType : msgTypes} {fields : Option AckFields} {err : Error}
    (h : deserializeAck packetType fields = .error err) : Common err := by
  cases fields with
  | none =>
    cases h
    decide
  | some f =>
    have hrun : deserializeAck packetType (some f) =
      if f.packetType ≠ packetType then .error .parse_failed else .ok f.packetId := rfl
    rw [hrun] at h
    by_cases hty : f.packetType ≠ packetType
    · rw [if_pos hty] at h
      cases h
      decide
    · rw [if_neg hty] at h
      cases h

theorem deserializePublish_error {fields : Option PublishFields} {err : Error}
    (h : deserializePublish fields = .error err) : Common err := by
  cases fields with
  | none =>
    cases h
    decide
  | some f =>
    cases hq : QoS.fromInt f.qos with
    | ok q =>
      have hrun : deserializePublish (some f) = .ok ⟨f.packetId, q, f.dup, f.retained,
          getMQTTString f.topic, f.payload⟩ := by
        show (QoS.fromInt f.qos >>= fun _ => _) = _
        rw [hq]
        rfl
      rw [hrun] at h
      cases h
    | error err' =>
      have hrun : deserializePublish (some f) = .error err' := by
        show (QoS.fromInt f.qos >>= fun _ => _) = _
        rw [hq]
        rfl
      rw [hrun] at h
      cases h
      unfold QoS.fromInt at hq
      split at hq
      · cases hq
      · split at hq
        · cases hq
        · split at hq
          · cases hq
          · cases hq
            decide

/-- What is handed over or stored depends on three answers only. -/
theorem Delivered.congr {ok ok' : Os → Nat → Bool} {s' : Service} {packetId : UInt16} {r : publish_response}
    {x : Exit Error Pc} {s'' : Service} (h : Delivered ok' s' packetId r x s'')
    (hp : ok' .allocPayload = ok .allocPayload) (ht : ok' .allocTopic = ok .allocTopic)
    (ha : ok' .append = ok .append) : Delivered ok s' packetId r x s'' := by
  cases h with
  | undefined h => exact .undefined h
  | short topic h h' h'' => exact .short topic h h' h''
  | reset topic h h' h'' => exact .reset topic h h' h''
  | noSpace topic h h' h'' h''' => exact .noSpace topic h h' h'' h'''
  | printed topic h h' h'' h''' h'''' => exact .printed topic h h' h'' h''' h''''
  | overflow topic h h' h'' => exact .overflow topic h h' h''
  | kept topic s'' h h' hst hnow => exact .kept topic s'' h h' (hst.congr hp ht ha) hnow
  | lost topic err s'' h h' hst hnow => exact .lost topic err s'' h h' (hst.congr hp ht ha) hnow

/-- A packet is prepared, and the handler goes on if it is queued. -/
theorem prepared_then {α : Type} {p : Packet} {id : UInt16} {f : UInt16 → MqttM α} {s : State}
    {Q : Exit Error α → State → Prop}
    (hqueued : ∀ t, Beside s t → t.srv = s.srv.enqueue p → Ready X s.env.ok s.srv p → wp (f id) Q t)
    (hfailed : ∀ err t, t.link = s.link →
      Prepared X s.env.ok s.srv p s.srv.packetIdState id (.err err) t.srv → Q (.err err) t)
    (hhalted : ∀ t, t.link = s.link →
      Prepared X s.env.ok s.srv p s.srv.packetIdState id .halt t.srv → Q .halt t) :
    wp ((workBufferMutex.take >>= fun _ => prepare X p (some id)) >>= f) Q s := by
  rw [wp_bind]
  apply wp_mono (prepared_spec X p (some id) s)
  intro x t hx
  obtain ⟨hbeside, hprep⟩ := hx
  cases x with
  | ok a =>
    generalize hsrv : t.srv = s' at hprep
    cases hprep with
    | queued hready => exact hqueued t hbeside hsrv hready
  | err err => exact hfailed err t hbeside.link hprep
  | trap => nomatch hprep
  | halt => exact hhalted t hbeside.link hprep

theorem publish_received (fields : Option PublishFields) :
    wp (publishStep X fields)
      (fun x t => t.link = s.link ∧ Received X s.env.ok s.srv (.publish fields) x t.srv) s := by
  unfold publishStep
  rw [wp_bind]
  cases hd : deserializePublish fields with
  | error err =>
    rw [wp_ofExcept_error, thenPost_err]
    refine ⟨rfl, .malformed _ err ?_ (deserializePublish_error hd)⟩
    simp only [Inbound.error_publish, hd]
  | ok r =>
    rw [wp_ofExcept_ok, thenPost_ok]
    cases hq : r.qos with
    | qos0 =>
      simp only [answerPublish, hq]
      apply wp_mono (deliver_spec r.packetId r s)
      intro x t hx
      exact ⟨hx.1, .publish0 fields r x t.srv hd hq hx.2⟩
    | qos1 =>
      simp only [answerPublish, hq, if_true]
      apply prepared_then
      · intro t hbeside hsrv hready
        have hreceived : Received X s.env.ok s.srv (.publish fields)
            (.ok (.drain (.publish r.packetId r))) t.srv := by
          rw [hsrv]
          exact .publish1 fields r hd hq hready
        exact ⟨hbeside.link, hreceived⟩
      · intro err t hlink hprep
        exact ⟨hlink, .unanswered fields r _ err _ hd (.inl ⟨hq, rfl⟩) hprep⟩
      · intro t hlink hprep
        exact ⟨hlink, .unansweredHalt fields r _ _ hd (.inl ⟨hq, rfl⟩) hprep⟩
    | qos2 =>
      simp only [answerPublish, hq]
      apply prepared_then
      · intro t hbeside hsrv hready
        apply wp_mono (deliver_spec r.packetId r t)
        intro x t' hx
        obtain ⟨hlink, hdel⟩ := hx
        rw [hsrv] at hdel
        exact ⟨hlink.trans hbeside.link, .publish2 fields r x t'.srv hd hq hready
          (hdel.congr hbeside.allocPayload hbeside.allocTopic hbeside.append)⟩
      · intro err t hlink hprep
        exact ⟨hlink, .unanswered fields r _ err _ hd (.inr ⟨hq, rfl⟩) hprep⟩
      · intro t hlink hprep
        exact ⟨hlink, .unansweredHalt fields r _ _ hd (.inr ⟨hq, rfl⟩) hprep⟩

theorem pubrel_received (fields : Option AckFields) :
    wp (pubrelStep X fields)
      (fun x t => t.link = s.link ∧ Received X s.env.ok s.srv (.pubrel fields) x t.srv) s := by
  unfold pubrelStep
  rw [wp_bind]
  cases hd : deserializePubrel fields with
  | error err =>
    rw [wp_ofExcept_error, thenPost_err]
    refine ⟨rfl, .malformed _ err ?_ (deserializeAck_error hd)⟩
    simp only [Inbound.error_pubrel, hd]
  | ok id =>
    rw [wp_ofExcept_ok, thenPost_ok, wp_bind]
    have hfind : findAndRemove .qos2Queue id s = _ := take_run .qos2Queue (fun m => m.packetId = id) s
    rw [show s.srv.queue .qos2Queue = s.srv.qos2Queue from rfl] at hfind
    cases hr : removeFirst (fun m => m.packetId = id) s.srv.qos2Queue with
    | none =>
      rw [hr] at hfind
      apply wp_of_eq hfind
      exact ⟨rfl, .pubrelUnknown fields id hd hr⟩
    | some r =>
      obtain ⟨msg, rest⟩ := r
      rw [hr] at hfind
      apply wp_of_eq hfind
      rw [thenPost_ok]
      apply prepared_then
      · intro t hbeside hsrv hready
        have hreceived : Received X s.env.ok s.srv (.pubrel fields)
            (.ok (.drain (.pubrel id msg))) t.srv := by
          rw [hsrv]
          exact .pubrel fields id msg rest hd hr hready
        exact ⟨hbeside.link, hreceived⟩
      · intro err t hlink hprep
        exact ⟨hlink, .pubrelFailed fields id msg rest err _ hd hr hprep⟩
      · intro t hlink hprep
        exact ⟨hlink, .pubrelHalted fields id msg rest _ hd hr hprep⟩

/-- A handler that looks for the item an acknowledgement is for. -/
theorem acknowledge_then {α : Type} {id : UInt16} {packetType : msgTypes} {f : Bool → MqttM α}
    {Q : Exit Error α → State → Prop} {s : State}
    (hfound : ∀ s', s.srv.acknowledged id packetType = some s' →
      wp (f true) Q { s with srv := s' })
    (hunknown : s.srv.acknowledged id packetType = none → wp (f false) Q s) :
    wp (acknowledge .qosQueue id packetType >>= f) Q s := by
  rw [wp_bind]
  apply wp_of_eq (acknowledge_run id packetType s)
  cases h : s.srv.acknowledged id packetType with
  | none => exact hunknown h
  | some s' => exact hfound s' h

theorem puback_received (fields : Option AckFields) :
    wp (onPuback fields >>= fun flow => pure flow.next)
      (fun x t => t.link = s.link ∧ Received X s.env.ok s.srv (.puback fields) x t.srv) s := by
  unfold onPuback
  rw [wp_bind, wp_bind]
  cases hd : deserializePuback fields with
  | error err =>
    rw [wp_ofExcept_error, thenPost_err]
    refine ⟨rfl, .malformed _ err ?_ (deserializeAck_error hd)⟩
    simp only [Inbound.error_puback, hd]
  | ok id =>
    rw [wp_ofExcept_ok, thenPost_ok]
    apply acknowledge_then
    · intro s' hs'
      exact ⟨rfl, .puback fields id s' hd hs'⟩
    · intro hnone
      exact ⟨rfl, .pubackUnknown fields id hd hnone⟩

theorem pubcomp_received (fields : Option AckFields) :
    wp (onPubcomp fields >>= fun flow => pure flow.next)
      (fun x t => t.link = s.link ∧ Received X s.env.ok s.srv (.pubcomp fields) x t.srv) s := by
  unfold onPubcomp
  rw [wp_bind, wp_bind]
  cases hd : deserializePubcomp fields with
  | error err =>
    rw [wp_ofExcept_error, thenPost_err]
    refine ⟨rfl, .malformed _ err ?_ (deserializeAck_error hd)⟩
    simp only [Inbound.error_pubcomp, hd]
  | ok id =>
    rw [wp_ofExcept_ok, thenPost_ok]
    apply acknowledge_then
    · intro s' hs'
      exact ⟨rfl, .pubcomp fields id s' hd hs'⟩
    · intro hnone
      exact ⟨rfl, .pubcompUnknown fields id hd hnone⟩

theorem pubrec_received (fields : Option AckFields) :
    wp (onPubrec X fields >>= fun flow => pure flow.next)
      (fun x t => t.link = s.link ∧ Received X s.env.ok s.srv (.pubrec fields) x t.srv) s := by
  unfold onPubrec
  rw [wp_bind, wp_bind]
  cases hd : deserializePubrec fields with
  | error err =>
    rw [wp_ofExcept_error, thenPost_err]
    refine ⟨rfl, .malformed _ err ?_ (deserializeAck_error hd)⟩
    simp only [Inbound.error_pubrec, hd]
  | ok id =>
    rw [wp_ofExcept_ok, thenPost_ok]
    apply acknowledge_then
    · intro s₁ hs₁
      rw [if_pos rfl, wp_bind]
      apply wp_of_eq (acknowledge_run id .pubrel _)
      have hassoc : (do
          let ret ← preparePubRelPacket X id (s₁.acknowledged id .pubrel).isSome
          let deadline ← calculateDeadline 2000
          addPubRel .qosQueue ret false deadline
          pure .again : MqttM Flow) = (do
            let ret ← preparePubRelPacket X id (s₁.acknowledged id .pubrel).isSome
            let deadline ← calculateDeadline 2000
            addPubRel .qosQueue ret false deadline) >>= fun _ => pure .again := by
        simp only [Prog.bind_assoc]
      rw [thenPost_ok, hassoc, wp_bind]
      apply wp_mono (pubrel_spec X id (s₁.acknowledged id .pubrel).isSome false _)
      intro x t hx
      have hreceived := Received.pubrec fields id s₁ x t.srv hd hs₁ hx.2
      cases x <;> exact ⟨hx.1, hreceived⟩
    · intro hnone
      exact ⟨rfl, .pubrecUnknown fields id hd hnone⟩

/-- **A round of the receive loop** behind `packet.read`. -/
theorem dispatchStep_received (m : Inbound) : wp (dispatchStep X fuel m)
    (fun x t => t.link = s.link ∧ Received X s.env.ok s.srv m x t.srv) s := by
  cases m with
  | publish fields => exact publish_received X s fields
  | pubrel fields => exact pubrel_received X s fields
  | puback fields => exact puback_received X s fields
  | pubrec fields => exact pubrec_received X s fields
  | pubcomp fields => exact pubcomp_received X s fields
  | try_again => exact ⟨rfl, .again _ (.inl rfl)⟩
  | unsuback => exact ⟨rfl, .again _ (.inr (.inl rfl))⟩
  | err_msg => exact ⟨rfl, .left _ (.inl rfl)⟩
  | client => exact ⟨rfl, .left _ (.inr rfl)⟩
  | reserved => exact ⟨rfl, .reserved⟩
  | connack connack_rc =>
    show wp ((ofExcept (processConnAck connack_rc) >>= fun _ => pure Flow.again) >>=
      fun flow => pure flow.next) _ s
    rw [wp_bind, wp_bind]
    cases hrc : processConnAck connack_rc with
    | ok u =>
      obtain rfl := processConnAck_ok hrc
      exact ⟨rfl, .again _ (.inr (.inr rfl))⟩
    | error err =>
      refine ⟨rfl, .malformed _ err ?_ (processConnAck_error hrc).2⟩
      simp only [Inbound.error_connack, hrc]
  | suback fields =>
    cases fields with
    | none => exact ⟨rfl, .malformed _ .parse_failed rfl (by decide)⟩
    | some f =>
      obtain ⟨id, codes⟩ := f
      show wp (((do
          record [.granted codes]
          if 2 < codes.length then Prog.trap else pure (id, codes)) >>= fun _ =>
            pure Flow.again) >>= fun flow => pure flow.next) _ s
      rw [wp_bind, wp_bind, wp_bind, wp_record, thenPost_ok, wp_ite]
      split
      · rename_i hlen
        exact ⟨rfl, .subackLong id codes hlen⟩
      · rename_i hlen
        exact ⟨rfl, .suback id codes (Nat.not_lt.mp hlen)⟩
  | pingresp =>
    unfold dispatchStep dispatch onPingresp
    rw [wp_bind, wp_bind, wp_record, thenPost_ok, wp_bind, wp_service, thenPost_ok]
    dsimp only
    rw [show (s.srv.record [.pingresp]).pingQueue = s.srv.pingQueue from rfl]
    cases hp : s.srv.pingQueue with
    | none => exact ⟨rfl, .pingrespUnknown hp⟩
    | some tick => exact ⟨rfl, .pingresp tick hp⟩

theorem receive_taken : wp (taskStep X fuel .receive)
    (fun x t => Taken X s.env fuel s.link .receive s.srv x t.srv t.link) s := by
  show wp ((connection.waitRx 1).tryCatch (fun _ => pure false) >>= fun b =>
    if b = true then read >>= fun m => dispatchStep X fuel m else pure Pc.retransmit) _ s
  have hidle : s.env.waitRx 0 ≠ some true →
      Taken X s.env fuel s.link .receive s.srv (.ok .retransmit) s.srv s.link := .idle s.srv
  cases hw : s.env.waitRx 0 with
  | none =>
    have hrun : (connection.waitRx 1).tryCatch (fun _ => pure false) s =
        (.ok false, { s with env := s.env.advanceWait }) := by
      unfold Prog.tryCatch connection.waitRx
      rw [hw]
      rfl
    apply wp_of_same (Prog.bind_ok _ hrun)
    rw [if_neg (by decide)]
    exact hidle (by rw [hw]; nofun)
  | some b =>
    have hrun : (connection.waitRx 1).tryCatch (fun _ => pure false) s =
        (.ok b, { s with env := s.env.advanceWait }) := by
      unfold Prog.tryCatch connection.waitRx
      rw [hw]
    apply wp_of_same (Prog.bind_ok _ hrun)
    cases b with
    | false =>
      rw [if_neg (by decide)]
      exact hidle (by rw [hw]; nofun)
    | true =>
      rw [if_pos rfl]
      apply read_spec
      apply wp_mono (dispatchStep_received X fuel _ (s.env.read 0))
      intro x t hx
      have htaken : Taken X s.env fuel s.link .receive s.srv x t.srv t.link := by
        rw [hx.1]
        exact .received s.srv x t.srv hw hx.2
      exact htaken

theorem deliver_taken (packetId : UInt16) (r : publish_response) :
    wp (taskStep X fuel (.deliver packetId r))
      (fun x t => Taken X s.env fuel s.link (.deliver packetId r) s.srv x t.srv t.link) s := by
  apply wp_mono (deliver_spec packetId r s)
  intro x t hx
  rw [hx.1]
  exact .deliver packetId r s.srv x t.srv hx.2

theorem complete_taken (packetId : UInt16) (msg : QueuedMessage) :
    wp (taskStep X fuel (.complete packetId msg))
      (fun x t => Taken X s.env fuel s.link (.complete packetId msg) s.srv x t.srv t.link) s := by
  show wp (complete packetId msg >>= fun _ => pure Pc.receive) _ s
  rw [wp_bind]
  unfold complete
  cases hc : msg.content with
  | pubrel => exact .completePubrel packetId msg s.srv hc
  | publish topic payload =>
    simp only
    rw [wp_bind]
    unfold bufPrint
    split
    · rename_i hlen
      have htaken : Taken X s.env fuel s.link (.complete packetId msg) s.srv (.ok .receive)
          ((s.srv.record [.handover packetId msg.qos topic.bytes payload.bytes]).freed msg.content)
          s.link := .completed packetId msg s.srv topic payload hc hlen
      rw [hc] at htaken
      exact htaken
    · rename_i hlen
      exact .completeNoSpace packetId msg s.srv topic payload hc (Nat.not_le.mp hlen)

/-! ## The end of a session -/

/-- `close` comes to its end, and its error is dropped. -/
theorem close_spec {s : State} {pc : Pc} {f : Service → Service}
    {Q : Exit Error Pc → State → Prop}
    (h : ∀ x l', TlsContext.close s.link = (x, l') →
      Q (.ok pc) { s with srv := f (s.srv.record [.closed]), link := l' }) :
    wp (connection.close.orIgnore >>= fun _ => (do
      update f
      pure pc)) Q s := by
  obtain ⟨x, l', hclose, hx⟩ : ∃ x l', TlsContext.close s.link = (x, l') ∧
      (x = .ok () ∨ x = .err .close_error) := by
    refine ⟨_, _, TlsContext.close_run s.link, ?_⟩
    split
    · exact .inr rfl
    · exact .inl rfl
  have hrun : connection.close s = (x, { s with srv := s.srv.record [.closed], link := l' }) := by
    have hlink : onLink TlsContext.close { s with srv := s.srv.record [.closed] } =
        ((TlsContext.close s.link).1,
          { s with srv := s.srv.record [.closed], link := (TlsContext.close s.link).2 }) := rfl
    rw [hclose] at hlink
    exact (Prog.bind_ok _ rfl).trans hlink
  rw [wp_bind, wp_orIgnore]
  apply wp_of_eq hrun
  obtain rfl | rfl := hx
  · exact h _ l' hclose
  · exact h _ l' hclose

theorem refused_taken (err : Error) : wp (taskStep X fuel (.refused err))
    (fun x t => Taken X s.env fuel s.link (.refused err) s.srv x t.srv t.link) s := by
  have hstep : taskStep X fuel (.refused err) s = (connection.close.orIgnore >>= fun _ => (do
      update id
      pure (Pc.lost err))) { s with srv := { s.srv with state := .err } } := rfl
  apply wp_of_same hstep
  apply close_spec
  intro x l' hclose
  exact .refused err s.srv x l' hclose

theorem close_taken (err : Error) : wp (taskStep X fuel (.close err))
    (fun x t => Taken X s.env fuel s.link (.close err) s.srv x t.srv t.link) s := by
  apply close_spec
  intro x l' hclose
  exact .close err s.srv x l' hclose

theorem lost_taken (err : Error) : wp (taskStep X fuel (.lost err))
    (fun x t => Taken X s.env fuel s.link (.lost err) s.srv x t.srv t.link) s := by
  by_cases herr : err = .create_error
  · subst herr
    exact .lostReset s.srv
  · cases err with
    | create_error => exact absurd rfl herr
    | _ => exact .lost _ s.srv herr

/-- **Every step of the task is one of the transitions.** -/
theorem taskStep_taken (pc : Pc) : wp (taskStep X fuel pc)
    (fun x t => Taken X s.env fuel s.link pc s.srv x t.srv t.link) s := by
  cases pc with
  | start => exact .start s.srv
  | connect => exact connect_taken X fuel s
  | connectPacket => exact connectPacket_taken X fuel s
  | connack => exact connack_taken X fuel s
  | subscribe => exact subscribe_taken X fuel s
  | suback packetId => exact suback_taken X fuel s packetId
  | retransmit => exact retransmit_taken X fuel s
  | expire => exact expire_taken X fuel s
  | receive => exact receive_taken X fuel s
  | drain caller => exact drain_taken X fuel s caller
  | deliver packetId r => exact deliver_taken X fuel s packetId r
  | complete packetId msg => exact complete_taken X fuel s packetId msg
  | refused err => exact refused_taken X fuel s err
  | disconnect err => exact disconnect_taken X fuel s err
  | close err => exact close_taken X fuel s err
  | lost err => exact lost_taken X fuel s err
  | halted => exact .halted s.srv
  | trapped => exact .trapped s.srv

end Task

/-! ## Callbacks -/

section Callbacks

variable (X : Externs)

/-- `publish` neither unwraps nor slices. -/
theorem Published.not_trap {ok : Os → Nat → Bool} {s s' : Service} {topic payload : List UInt8}
    {qos : QoS} {dup : Bool} {packetId : Option UInt16} {deadline : Nat}
    (h : Published X ok s topic payload qos dup packetId deadline .trap s') : False := by
  cases h with
  | queued x s' hready hstored => nomatch hstored

theorem rest_called (j : Job) (s : State) :
    wp (j.rest X) (fun x t => Called X s.env.ok s.srv j x t.srv) s := by
  cases j with
  | pingTimer tick =>
    show wp ((preparePingPacket X).orUnreachable >>= fun _ => pure ()) _ s
    rw [wp_bind, wp_orUnreachable]
    apply wp_mono (prepared_spec X .pingreq none s)
    intro x t hx
    obtain ⟨-, hprep⟩ := hx
    cases x with
    | ok id =>
      generalize hsrv : t.srv = s' at hprep
      cases hprep with
      | queued hready =>
        show Called X s.env.ok s.srv _ (.ok ()) t.srv
        rw [hsrv]
        exact .pinged tick hready
    | err err => exact .pingFailed tick err t.srv hprep
    | trap => nomatch hprep
    | halt => exact .pingWaits tick t.srv hprep
  | pubTimer =>
    apply calculateDeadline_spec
    · intro hle
      rw [wp_orUnreachable]
      apply wp_mono (publish_spec X (ascii "zig/pub") (ascii "test") .qos2 false none _ s)
      intro x t hx
      cases x with
      | ok u => exact .published .pubTimer _ _ _ t.srv rfl hle hx.2
      | err err => exact .pubTimerFailed err t.srv hle hx.2
      | trap => exact (hx.2.not_trap X).elim
      | halt => exact .publishWaits .pubTimer _ _ _ t.srv rfl hle hx.2
    · intro hlt
      exact .overflow .pubTimer _ _ _ rfl hlt
  | publish topic payload qos =>
    apply calculateDeadline_spec
    · intro hle
      rw [wp_orIgnore]
      apply wp_mono (publish_spec X topic payload qos false none _ s)
      intro x t hx
      cases x with
      | ok u => exact .published (.publish topic payload qos) _ _ _ t.srv rfl hle hx.2
      | err err => exact .publishFailed topic payload qos err t.srv hle hx.2
      | trap => exact (hx.2.not_trap X).elim
      | halt => exact .publishWaits (.publish topic payload qos) _ _ _ t.srv rfl hle hx.2
    · intro hlt
      exact .overflow (.publish topic payload qos) _ _ _ rfl hlt

theorem run_called (j : Job) (s : State) :
    wp (j.run X) (fun x t =>
      (∃ tick tick', j = .pingTimer tick ∧ s.srv.pingQueue = some tick' ∧ x = .trap ∧
        t.srv = s.srv.record [.ping]) ∨
      ((∀ tick, j = .pingTimer tick → s.srv.pingQueue = none) ∧
        Called X s.env.ok (j.begun s.srv) j x t.srv)) s := by
  cases j with
  | pingTimer tick =>
    show wp (countPing tick >>= fun _ => (Job.pingTimer tick).rest X) _ s
    rw [wp_bind]
    unfold countPing
    rw [wp_bind, wp_record, thenPost_ok, wp_bind, wp_service, thenPost_ok]
    cases hp : s.srv.pingQueue with
    | some tick' =>
      have hfull : { s with srv := s.srv.record [.ping] }.srv.pingQueue.isSome = true := by
        show s.srv.pingQueue.isSome = true
        rw [hp]
        rfl
      rw [if_pos hfull]
      exact .inl ⟨tick, tick', rfl, rfl, rfl, rfl⟩
    | none =>
      have hroom : ¬{ s with srv := s.srv.record [.ping] }.srv.pingQueue.isSome = true := by
        show ¬s.srv.pingQueue.isSome = true
        rw [hp]
        decide
      rw [if_neg hroom, wp_update, thenPost_ok]
      apply wp_mono (rest_called X (.pingTimer tick) _)
      intro x t hx
      exact .inr ⟨fun _ _ => rfl, hx⟩
  | pubTimer =>
    apply wp_mono (rest_called X .pubTimer s)
    intro x t hx
    exact .inr ⟨nofun, hx⟩
  | publish topic payload qos =>
    apply wp_mono (rest_called X (.publish topic payload qos) s)
    intro x t hx
    exact .inr ⟨nofun, hx⟩

end Callbacks

/-! ## The system -/

/-- **Every step of the system is one of the moves.** -/
theorem next_moved (X : Externs) (s : Sys) (i : Input) : Moved X s i (s.next X i) := by
  cases i with
  | task a => exact .task a _ _ _ (taskStep_taken X a.fuel (s.start a) s.pc)
  | clock now => exact .clock now
  | job j env =>
    have hwp := run_called X j ⟨s.srv, s.link, env⟩
    have hnext : s.next X (.job j env) = s.called { j.begun s.srv with waiting := some j }
      (j.run X ⟨s.srv, s.link, env⟩) := rfl
    cases hrun : j.run X ⟨s.srv, s.link, env⟩ with
    | mk x t =>
    rw [hnext, hrun]
    obtain ⟨tick, tick', rfl, hp, rfl, hsrv⟩ | ⟨hp, hcalled⟩ := wp_of_run hwp hrun
    · show Moved X s _ ⟨.trapped, t.srv, s.link⟩
      rw [hsrv]
      exact .pingFull tick tick' env hp
    · cases x with
      | ok u => exact .job j env _ t.srv hp hcalled nofun
      | err err => exact .job j env _ t.srv hp hcalled nofun
      | trap => exact .job j env _ t.srv hp hcalled nofun
      | halt => exact .waits j env t.srv hp hcalled
  | resume env =>
    cases hw : s.srv.waiting with
    | none =>
      have hnext : s.next X (.resume env) = s := by
        simp only [Sys.next, hw]
      rw [hnext]
      exact .idle env hw
    | some j =>
      have hwp := rest_called X j ⟨{ s.srv with waiting := none }, s.link, env⟩
      have hnext : s.next X (.resume env) = s.called s.srv
          (j.rest X ⟨{ s.srv with waiting := none }, s.link, env⟩) := by
        simp only [Sys.next, hw]
      cases hrun : j.rest X ⟨{ s.srv with waiting := none }, s.link, env⟩ with
      | mk x t =>
      rw [hnext, hrun]
      have hcalled := wp_of_run hwp hrun
      cases x with
      | ok u => exact .resumed j env _ t.srv hw hcalled nofun
      | err err => exact .resumed j env _ t.srv hw hcalled nofun
      | trap => exact .resumed j env _ t.srv hw hcalled nofun
      | halt => exact .stays j env t.srv hw hcalled

end Miso.Mqtt

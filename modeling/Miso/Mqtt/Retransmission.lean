import Miso.Mqtt.Capacity

/-!
# Publishing and publishing again

`publish` queues a packet and stores its message in `qosQueue`; the pass over `qosQueue` at the
head of the loop does so again for every expired entry.

* `publish_atomic` — `publish` does both or neither; an allocation that fails does not return;
* `retransmit_rearms` — one round of the pass;
* `pass_exact` — the pass ends behind as many rounds as entries have expired, sends each of them
  once and leaves the re-armed copies at the end of the queue.
-/

namespace Miso.Mqtt

open Zig Net QueuedMessgeQueue

/-! ## Publishing -/

section Publishing

variable (X : Externs)

/-- The message `m` is a copy of what has been published. -/
structure QueuedMessage.Copies (m : QueuedMessage) (packetId : UInt16) (qos : QoS)
    (topic payload : List UInt8) : Prop where
  packetId : m.packetId = packetId
  qos : m.qos = qos
  content : ∃ t p : Buffer, m.content = .publish t p ∧ t.bytes = topic ∧ p.bytes = payload

/-- The hook of the application, which is called in front of every allocation that fails. -/
def vApplicationMallocFailedHook : MqttM Unit := Prog.halt id

/-- An allocation of the application: where there is no memory the hook is called. -/
def hooked {α : Type} (m : MqttM α) : MqttM α := m.tryCatch fun err => do
  if err = .OutOfMemory then vApplicationMallocFailedHook
  Prog.throw err

namespace Hooked

def addPublish (q : Queue) (packetId : UInt16) (qos : QoS) (dup retained : Bool)
    (topic payload : List UInt8) (deadline : Nat) : MqttM Unit := do
  let new_payload ← hooked (alloc .allocPayload payload)
  let new_topic ← hooked (alloc .allocTopic topic)
  hooked (append q ⟨packetId, qos, dup, retained, .publish new_topic new_payload, deadline⟩)

/-- `publish` as the application has it. -/
def publish (topic payload : List UInt8) (qos : QoS) (dup : Bool) (packetId : Option UInt16)
    (deadline : Nat) : MqttM Unit := do
  let ret ← preparePublishPacket X topic payload qos dup packetId
  addPublish .qosQueue ret qos dup false topic payload deadline

end Hooked

variable {X} {ok : Os → Nat → Bool} {s s' : Service} {topic payload : List UInt8} {qos : QoS}
  {dup : Bool} {packetId : Option UInt16} {deadline : Nat}

/-- The hook may be called at the end of a sequence. -/
theorem hooked_bind {α β : Type} (m : MqttM α) (f : α → MqttM β) :
    hooked (m >>= f) = hooked m >>= fun a => hooked (f a) := by
  funext s
  rcases hm : m s with ⟨x, t⟩
  have hbind : ∀ y t', (m >>= f) s = (y, t') → hooked (m >>= f) s = hooked (fun _ => (y, t')) s := by
    intro y t' h
    unfold hooked Prog.tryCatch
    rw [h]
  cases x with
  | ok a =>
    have hok : hooked m s = (.ok a, t) := by
      unfold hooked Prog.tryCatch
      rw [hm]
    rw [Prog.bind_ok _ hok, hbind _ _ (Prog.bind_ok f hm)]
    rfl
  | err e =>
    rw [hbind _ _ (Prog.bind_err f hm)]
    by_cases he : e = .OutOfMemory
    · have herr : hooked m s = (.halt, t) := by
        unfold hooked Prog.tryCatch
        rw [hm, he]
        rfl
      rw [Prog.bind_halt _ herr, he]
      rfl
    · have herr : hooked m s = (.err e, t) := by
        unfold hooked Prog.tryCatch
        rw [hm]
        simp only [if_neg he]
        rfl
      rw [Prog.bind_err _ herr]
      unfold hooked Prog.tryCatch
      simp only [if_neg he]
      rfl
  | trap =>
    have htrap : hooked m s = (.trap, t) := by
      unfold hooked Prog.tryCatch
      rw [hm]
    rw [Prog.bind_trap _ htrap, hbind _ _ (Prog.bind_trap f hm)]
    rfl
  | halt =>
    have hhalt : hooked m s = (.halt, t) := by
      unfold hooked Prog.tryCatch
      rw [hm]
    rw [Prog.bind_halt _ hhalt, hbind _ _ (Prog.bind_halt f hm)]
    rfl

theorem Hooked.addPublish_eq (q : Queue) (packetId : UInt16) (qos : QoS) (dup retained : Bool)
    (topic payload : List UInt8) (deadline : Nat) :
    Hooked.addPublish q packetId qos dup retained topic payload deadline =
      hooked (QueuedMessgeQueue.addPublish q packetId qos dup retained topic payload deadline) := by
  unfold Hooked.addPublish QueuedMessgeQueue.addPublish
  rw [hooked_bind]
  congr 1
  funext p
  rw [hooked_bind]

/-- No other error comes from storing a message. -/
theorem Stored.memory {q : Queue} {packetId : UInt16} {dup retained : Bool} {err : Error}
    (h : Stored ok s q packetId qos dup retained topic payload deadline (.err err) s') :
    err = .OutOfMemory := by
  cases h <;> rfl

/-- A message is stored, or the hook is called. -/
theorem Hooked.addPublish_spec (q : Queue) (packetId : UInt16) (qos : QoS) (dup retained : Bool)
    (topic payload : List UInt8) (deadline : Nat) (s : State) :
    wp (Hooked.addPublish q packetId qos dup retained topic payload deadline) (fun x t =>
      (x = .ok () ∧
        Stored s.env.ok s.srv q packetId qos dup retained topic payload deadline (.ok ()) t.srv) ∨
      x = .halt ∧ Stored s.env.ok s.srv q packetId qos dup retained topic payload deadline
        (.err .OutOfMemory) t.srv) s := by
  have hspec := Mqtt.addPublish_spec q packetId qos dup retained topic payload deadline s
  rw [Hooked.addPublish_eq]
  unfold wp at hspec ⊢
  unfold hooked Prog.tryCatch
  rcases hrun : QueuedMessgeQueue.addPublish q packetId qos dup retained topic payload deadline s with
    ⟨x, t⟩
  rw [hrun] at hspec
  obtain ⟨-, hstored⟩ := hspec
  cases x with
  | ok u => exact .inl ⟨rfl, hstored⟩
  | err e =>
    obtain rfl := hstored.memory
    exact .inr ⟨rfl, hstored⟩
  | trap => cases hstored
  | halt => cases hstored

/-- What `publish` leaves behind where nothing keeps it from its end. -/
theorem Published.complete {x : Exit Error Unit}
    (h : Published X ok s topic payload qos dup packetId deadline x s')
    (hready : Ready X ok s (publishPacket s topic payload qos dup packetId))
    (hfits : Fits ok topic payload) :
    x = .ok () ∧ s' = ((s.withId (publishState s packetId)).enqueue
      (publishPacket s topic payload qos dup packetId)).stored .qosQueue (publishId s packetId) qos
      dup false topic payload deadline := by
  cases h with
  | failed _ _ hprep => exact absurd hready (hprep.not_ready rfl)
  | halted _ hprep => exact absurd hready (hprep.not_ready rfl)
  | queued _ _ _ hstored =>
    cases hstored with
    | stored => exact ⟨rfl, rfl⟩
    | noPayload hnot => exact absurd hfits.payload hnot
    | noTopic _ hnot => exact absurd hfits.topic hnot
    | noAppend _ _ hnot =>
      rw [hfits.append] at hnot
      cases hnot

/-- What a callback leaves behind where nothing keeps its message from its end. -/
theorem Called.complete {j : Job} {x : Exit Error Unit} (h : Called X ok s j x s')
    (hj : j.publishes = some (topic, payload, qos)) (hnow : s.now ≤ u32_max - 2000)
    (hready : Ready X ok s (publishPacket s topic payload qos false none))
    (hfits : Fits ok topic payload) :
    x = .ok () ∧ s' = ((s.withId (publishState s none)).enqueue
      (publishPacket s topic payload qos false none)).stored .qosQueue (publishId s none) qos false
      false topic payload (s.now + 2000) := by
  have hpublished {topic' payload' : List UInt8} {qos' : QoS} {x : Exit Error Unit}
      (hj' : j.publishes = some (topic', payload', qos'))
      (h : Published X ok s topic' payload' qos' false none (s.now + 2000) x s') :
      x = .ok () ∧ s' = ((s.withId (publishState s none)).enqueue
        (publishPacket s topic payload qos false none)).stored .qosQueue (publishId s none) qos
        false false topic payload (s.now + 2000) := by
    have hsame := Option.some.inj (hj.symm.trans hj')
    obtain ⟨rfl, rfl, rfl⟩ : topic = topic' ∧ payload = payload' ∧ qos = qos' :=
      ⟨congrArg Prod.fst hsame, congrArg (fun m => m.2.1) hsame, congrArg (fun m => m.2.2) hsame⟩
    exact h.complete hready hfits
  cases h with
  | pinged => cases hj
  | pingFailed => cases hj
  | pingWaits => cases hj
  | published _ _ _ _ _ hj' _ hpub => exact hpublished hj' hpub
  | publishFailed _ _ _ _ _ _ hpub => cases (hpublished rfl hpub).1
  | pubTimerFailed _ _ _ hpub => cases (hpublished rfl hpub).1
  | publishWaits _ _ _ _ _ hj' _ hpub => exact hpublished hj' hpub
  | overflow _ _ _ _ _ hlt => exact absurd hnow (Nat.not_le.mpr hlt)

/-- The message that has been stored. -/
theorem stored_mem (s : Service) (packetId : UInt16) (qos : QoS) (dup retained : Bool)
    (topic payload : List UInt8) (deadline : Nat) :
    ∃ t p : Buffer, t.bytes = topic ∧ p.bytes = payload ∧
      ⟨packetId, qos, dup, retained, .publish t p, deadline⟩ ∈
        (s.stored .qosQueue packetId qos dup retained topic payload deadline).qosQueue := by
  obtain ⟨t, p, ht, hp, hqueue⟩ := stored_queue s .qosQueue packetId qos dup retained topic payload
    deadline
  refine ⟨t, p, ht, hp, ?_⟩
  rw [show (s.stored .qosQueue packetId qos dup retained topic payload deadline).qosQueue = _
    from hqueue]
  exact List.mem_append_right _ (List.mem_singleton.mpr rfl)

/-- What a PUBREL leaves behind where nothing keeps it from its end. -/
theorem Released.complete {id : UInt16} {stored : Bool} {x : Exit Error Unit}
    (h : Released X ok s id dup stored x s') (hready : Ready X ok s (.pubrel dup id))
    (hnow : s.now ≤ u32_max - 2000) (happend : ok .append 0 = true) :
    x = .ok () ∧ s' = { s.enqueue (.pubrel dup id) with
      qosQueue := s.qosQueue ++ [⟨id, .qos2, stored, false, .pubrel, s.now + 2000⟩] } := by
  cases h with
  | failed _ _ hprep => exact absurd hready (hprep.not_ready rfl)
  | halted _ hprep => exact absurd hready (hprep.not_ready rfl)
  | overflow _ hlt => exact absurd hnow (Nat.not_le.mpr hlt)
  | noAppend _ hnot =>
    rw [happend] at hnot
    cases hnot
  | queued => exact ⟨rfl, rfl⟩

end Publishing

/-! ## Calls that succeed -/

section Granting

variable (X : Externs)

/-- No call fails. -/
def Env.Granted (e : Env) : Prop := ∀ a n, e.ok a n = true

theorem Env.Granted.advance {e : Env} (h : e.Granted) (a : Os) : (e.advance a).Granted := by
  intro b n
  unfold Env.advance
  by_cases hb : b = a
  · simp only [hb, if_true]
    exact h a (n + 1)
  · simp only [hb, if_false]
    exact h b n

/-- If no call was going to fail, none is going to. -/
def Granting (s t : State) : Prop := s.env.Granted → t.env.Granted

theorem granting_frame : Frame Granting where
  refl _ := id
  trans h h' := h' ∘ h

theorem update_granting (f : Service → Service) : Keeps Granting (update f) := fun _ => id

theorem service_granting : Keeps Granting service := fun _ => id

theorem require_granting (a : Os) (err : Error) : Keeps Granting (require a err) := by
  apply Keeps.bind granting_frame
  · exact fun s h => h.advance a
  · intro b
    cases b with
    | true => exact .pure granting_frame ()
    | false => exact .throw granting_frame err

theorem calculateDeadline_granting (n : Nat) : Keeps Granting (calculateDeadline n) := by
  apply Keeps.bind granting_frame service_granting
  intro srv
  exact .ite _ (.pure granting_frame _) (.trap granting_frame)

theorem alloc_granting (a : Os) (bytes : List UInt8) : Keeps Granting (alloc a bytes) := by
  apply Keeps.ite
  · exact .pure granting_frame _
  · apply Keeps.bind granting_frame (require_granting a _)
    intro _
    apply Keeps.bind granting_frame service_granting
    intro srv
    apply Keeps.bind granting_frame (update_granting _)
    exact fun _ => .pure granting_frame _

theorem append_granting (q : Queue) (m : QueuedMessage) : Keeps Granting (append q m) :=
  .bind granting_frame (require_granting .append _) fun _ => update_granting _

theorem addPublish_granting (q : Queue) (packetId : UInt16) (qos : QoS) (dup retained : Bool)
    (topic payload : List UInt8) (deadline : Nat) :
    Keeps Granting (addPublish q packetId qos dup retained topic payload deadline) := by
  apply Keeps.bind granting_frame (alloc_granting _ payload)
  intro new_payload
  apply Keeps.bind granting_frame (alloc_granting _ topic)
  exact fun new_topic => append_granting q _

theorem take_granting : Keeps Granting workBufferMutex.take := by
  apply Keeps.bind granting_frame service_granting
  intro srv
  exact .ite _ (fun _ => id) (require_granting _ _)

theorem prepare_granting (p : Packet) (packetId : Option UInt16) :
    Keeps Granting (prepare X p packetId) := by
  apply Keeps.bind granting_frame
  · cases serializeCheck (X.MQTTSerialize p workBuffer_len) with
    | ok n => exact .pure granting_frame n
    | error err => exact .throw granting_frame err
  intro n
  apply Keeps.bind granting_frame service_granting
  intro srv
  apply Keeps.ite
  · exact .bind granting_frame (update_granting _) fun _ _ => id
  · apply Keeps.bind granting_frame (require_granting _ _)
    intro _
    exact .bind granting_frame (update_granting _) fun _ => .pure granting_frame _

theorem publish_granting (topic payload : List UInt8) (qos : QoS) (dup : Bool)
    (packetId : Option UInt16) (deadline : Nat) :
    Keeps Granting (publish X topic payload qos dup packetId deadline) := by
  apply Keeps.bind granting_frame
  · apply Keeps.bind granting_frame take_granting
    intro _
    cases packetId with
    | some id => exact prepare_granting X _ _
    | none =>
      apply Keeps.bind granting_frame
      · exact .bind granting_frame (update_granting _) fun _ =>
          .bind granting_frame service_granting fun srv => .pure granting_frame _
      · exact fun id => prepare_granting X _ _
  · exact fun ret => addPublish_granting _ _ _ _ _ _ _ _

theorem take_queue_granting (q : Queue) (f : QueuedMessage → Bool) :
    Keeps Granting (take q f) := by
  intro s
  rw [take_run]
  cases removeFirst f (s.srv.queue q) <;> exact id

theorem retransmit_granting : Keeps Granting (retransmit X) := by
  apply Keeps.bind granting_frame
  · exact .bind granting_frame service_granting fun srv => take_queue_granting _ _
  intro r
  cases r with
  | none => exact .pure granting_frame _
  | some msg =>
    cases hc : msg.content with
    | publish topic payload =>
      simp only [hc]
      apply Keeps.bind granting_frame (calculateDeadline_granting 2000)
      intro deadline
      exact .bind granting_frame (publish_granting X _ _ _ _ _ _) fun _ => .pure granting_frame _
    | pubrel =>
      simp only [hc]
      apply Keeps.bind granting_frame
      · exact .bind granting_frame take_granting fun _ => prepare_granting X _ _
      intro ret
      apply Keeps.bind granting_frame (calculateDeadline_granting 2000)
      intro deadline
      exact .bind granting_frame (append_granting _ _) fun _ => .pure granting_frame _

end Granting

/-! ## One round -/

section Round

variable (X : Externs)

/-- `m'` is the copy of `m` with which `m` is armed again at `now`. -/
structure Rearmed (now : Nat) (m m' : QueuedMessage) : Prop where
  packetId : m'.packetId = m.packetId
  dup : m'.dup = true
  retained : m'.retained = false
  deadline : m'.deadline = now + 2000
  packetType : m'.packetType = m.packetType
  /-- The message of a PUBLISH, with which it is repeated. -/
  repeated : m'.repeated = m.repeated

/-- What a round does with the entry `m`, which leaves `rest` in the queue. -/
structure Rearms (s t : Service) (m m' : QueuedMessage) (rest : List QueuedMessage) : Prop where
  copy : Rearmed s.now m m'
  qosQueue : t.qosQueue = rest ++ [m']
  txQueue : t.txQueue = s.txQueue ++ [m.repeated]
  log : t.log = s.log ++ [.queued m.repeated]
  now : t.now = s.now
  waiting : t.waiting = s.waiting

theorem Env.Granted.fits {e : Env} (h : e.Granted) (topic payload : List UInt8) :
    Fits e.ok topic payload := ⟨.inr (h _ 0), .inr (h _ 0), h _ 0⟩

theorem Env.Granted.ready {e : Env} (h : e.Granted) {s : Service} {p : Packet}
    (hmutex : s.waiting = none) (hser : Serializes X p) (hroom : HasRoom X s p) :
    Ready X e.ok s p := ⟨hmutex, h _ 0, hser, hroom, h _ 0⟩

theorem stored_aside (s : Service) (packetId : UInt16) (qos : QoS) (dup retained : Bool)
    (topic payload : List UInt8) (deadline : Nat) :
    (s.stored .qosQueue packetId qos dup retained topic payload deadline).now = s.now ∧
      (s.stored .qosQueue packetId qos dup retained topic payload deadline).waiting = s.waiting := by
  have halloc (s : Service) (bytes : List UInt8) :
      (s.alloc bytes).2.now = s.now ∧ (s.alloc bytes).2.waiting = s.waiting := by
    unfold Service.alloc
    split <;> exact ⟨rfl, rfl⟩
  have hp := halloc s payload
  have ht := halloc (s.alloc payload).2 topic
  exact ⟨ht.1.trans hp.1, ht.2.trans hp.2⟩

/-- What has been published again. -/
theorem rearms_publish {s : Service} {m : QueuedMessage} (rest : List QueuedMessage)
    {topic payload : Buffer} (hc : m.content = .publish topic payload) :
    ∃ m', Rearms s ((({ s with qosQueue := rest }.withId s.packetIdState).enqueue
      m.repeated).stored .qosQueue m.packetId m.qos true false topic.bytes payload.bytes
        (s.now + 2000)) m m' rest := by
  obtain ⟨t, p, ht, hp, hqueue⟩ := stored_queue
    (({ s with qosQueue := rest }.withId s.packetIdState).enqueue m.repeated) .qosQueue m.packetId
    m.qos true false topic.bytes payload.bytes (s.now + 2000)
  obtain ⟨hnow, hwaiting⟩ := stored_aside
    (({ s with qosQueue := rest }.withId s.packetIdState).enqueue m.repeated) m.packetId m.qos true
    false topic.bytes payload.bytes (s.now + 2000)
  have hp' := alloc_same (({ s with qosQueue := rest }.withId s.packetIdState).enqueue m.repeated)
    payload.bytes
  have ht' := alloc_same ((({ s with qosQueue := rest }.withId s.packetIdState).enqueue
    m.repeated).alloc payload.bytes).2 topic.bytes
  refine ⟨⟨m.packetId, m.qos, true, false, .publish t p, s.now + 2000⟩, ⟨rfl, rfl, rfl, rfl, ?_, ?_⟩,
    hqueue, ht'.2.1.trans hp'.2.1, ht'.1.trans hp'.1, hnow, hwaiting⟩
  · unfold QueuedMessage.packetType
    rw [hc]
    rfl
  · simp only [QueuedMessage.repeated, hc, ht, hp]

/-- **One round of the pass**: the first expired entry is sent again, and armed again at the end of
the queue. -/
theorem retransmit_rearms {s : State} {m : QueuedMessage} {rest : List QueuedMessage}
    (hok : s.env.Granted) (hmutex : s.srv.waiting = none) (hnow : s.srv.now ≤ u32_max - 2000)
    (hser : Serializes X m.repeated) (hroom : HasRoom X s.srv m.repeated)
    (hr : removeFirst (expired s.srv.now) s.srv.qosQueue = some (m, rest)) :
    ∃ t m', retransmit X s = (.ok (.inl ()), t) ∧ Rearms s.srv t.srv m m' rest := by
  obtain ⟨s₁, hs₁⟩ : ∃ s₁ : State, s₁ = { s with srv := { s.srv with qosQueue := rest } } := ⟨_, rfl⟩
  have hprune : prune .qosQueue s = (.ok (some m), s₁) := by
    rw [hs₁, prune_run, show s.srv.queue .qosQueue = s.srv.qosQueue from rfl, hr]
    rfl
  have hdeadline : calculateDeadline 2000 s₁ = (.ok (s.srv.now + 2000), s₁) := by
    rw [hs₁]
    refine (Prog.bind_ok _ (show service _ = (.ok { s.srv with qosQueue := rest }, _) from rfl)).trans ?_
    exact if_pos (c := s.srv.now ≤ u32_max - 2000) hnow ▸ rfl
  have hready : Ready X s₁.env.ok s₁.srv m.repeated := by
    rw [hs₁]
    exact hok.ready X hmutex hser (hroom.congr rfl)
  have hok₁ : s₁.env.Granted := by
    rw [hs₁]
    exact hok
  cases hc : m.content with
  | publish topic payload =>
    have hpacket : m.repeated = publishPacket s₁.srv topic.bytes payload.bytes m.qos true
        (some m.packetId) := by
      simp only [QueuedMessage.repeated, hc]
      rfl
    rw [hpacket] at hready
    obtain ⟨hexit, hsrv⟩ := (publish_spec X topic.bytes payload.bytes m.qos true (some m.packetId)
      (s.srv.now + 2000) s₁).2.complete hready (hok₁.fits _ _)
    obtain ⟨m', hrearms⟩ := rearms_publish (s := s.srv) rest hc
    have hrearms' : Rearms s.srv (publish X topic.bytes payload.bytes m.qos true (some m.packetId)
        (s.srv.now + 2000) s₁).2.srv m m' rest := by
      rw [hsrv, ← hpacket, hs₁]
      exact hrearms
    refine ⟨_, m', (Prog.bind_ok _ hprune).trans ?_, hrearms'⟩
    simp only [hc]
    exact (Prog.bind_ok _ hdeadline).trans (Prog.bind_ok _ (Prog.run_of_exit hexit))
  | pubrel =>
    have hpacket : m.repeated = .pubrel true m.packetId := by
      simp only [QueuedMessage.repeated, hc]
    rw [hpacket] at hready
    have hspec := pubrel_spec X m.packetId true true s₁
    obtain ⟨again, hagain⟩ : ∃ again : MqttM Unit, again = (do
      let ret ← preparePubRelPacket X m.packetId true
      let deadline ← calculateDeadline 2000
      addPubRel .qosQueue ret true deadline) := ⟨_, rfl⟩
    rw [← hagain] at hspec
    obtain ⟨hexit, hsrv⟩ := hspec.2.complete hready (by rw [hs₁]; exact hnow) (hok₁ _ 0)
    have hrearms : Rearms s.srv (again s₁).2.srv m
        ⟨m.packetId, .qos2, true, false, .pubrel, s.srv.now + 2000⟩ rest := by
      rw [hsrv, ← hpacket, hs₁]
      have htype : m.packetType = .pubrel := by
        rw [QueuedMessage.packetType, hc]
        rfl
      exact ⟨⟨rfl, rfl, rfl, rfl, htype.symm, hpacket.symm⟩, rfl, rfl, rfl, rfl, rfl⟩
    refine ⟨_, _, (Prog.bind_ok _ hprune).trans ?_, hrearms⟩
    have hassoc : (do
        let ret ← preparePubRelPacket X m.packetId true
        let deadline ← calculateDeadline 2000
        addPubRel .qosQueue ret true deadline
        pure (.inl ()) : MqttM (Unit ⊕ Unit)) = again >>= fun _ => pure (.inl ()) := by
      simp only [hagain, Prog.bind_assoc]
    simp only [hc]
    rw [hassoc]
    exact Prog.bind_ok _ (Prog.run_of_exit hexit)

end Round

/-! ## The pass -/

section Pass

variable (X : Externs)

/-- The entries that have expired. -/
def Service.expired (s : Service) : List QueuedMessage := s.qosQueue.filter (Mqtt.expired s.now)

/-- The entries that have not. -/
def Service.unexpired (s : Service) : List QueuedMessage :=
  s.qosQueue.filter fun m => !Mqtt.expired s.now m

/-- Nothing keeps the expired entries from being sent and armed again. -/
structure Unhindered (s : State) : Prop where
  ok : s.env.Granted
  mutex : s.srv.waiting = none
  clock : s.srv.now ≤ u32_max - 2000
  serializes : ∀ m ∈ s.srv.expired, Serializes X m.repeated
  room : s.srv.used X + weight X (s.srv.expired.map QueuedMessage.repeated) ≤ txQueue_capacity

/-- **What the pass makes of the service**, with the copies in the order of the entries. -/
structure Passed (s t : Service) (copies : List QueuedMessage) : Prop where
  rearmed : List.Forall₂ (Rearmed s.now) s.expired copies
  qosQueue : t.qosQueue = s.unexpired ++ copies
  txQueue : t.txQueue = s.txQueue ++ s.expired.map QueuedMessage.repeated
  log : t.log = s.log ++ (s.expired.map QueuedMessage.repeated).map .queued

theorem Rearmed.unexpired {now : Nat} {m m' : QueuedMessage} (h : Rearmed now m m') :
    expired now m' = false := by
  unfold expired
  rw [h.deadline]
  simp

/-- The first of the elements that satisfy `f` is found. -/
theorem removeFirst_found {α : Type} {f : α → Bool} {l₁ l₂ : List α} {a : α}
    (hbefore : ∀ b ∈ l₁, f b = false) (ha : f a = true) :
    removeFirst f (l₁ ++ a :: l₂) = some (a, l₁ ++ l₂) := by
  induction l₁ with
  | nil => simp only [List.nil_append, removeFirst, ha, if_true]
  | cons b l₁ ih =>
    have hb := hbefore b List.mem_cons_self
    have hrest := ih fun c hc => hbefore c (List.mem_cons_of_mem b hc)
    simp only [List.cons_append, removeFirst, hb, hrest, Bool.false_eq_true, if_false,
      Option.map_some]

theorem removeFirst_absent {α : Type} {f : α → Bool} {l : List α} (h : ∀ a ∈ l, f a = false) :
    removeFirst f l = none := by
  induction l with
  | nil => rfl
  | cons b l ih =>
    have hrest := ih fun c hc => h c (List.mem_cons_of_mem b hc)
    simp only [removeFirst, h b List.mem_cons_self, hrest, Bool.false_eq_true, if_false,
      Option.map_none]

theorem first_expired {now : Nat} {l : List QueuedMessage} (h : l.filter (expired now) ≠ []) :
    ∃ l₁ m l₂, l = l₁ ++ m :: l₂ ∧ expired now m = true ∧ ∀ b ∈ l₁, expired now b = false := by
  cases hr : removeFirst (expired now) l with
  | none =>
    refine absurd (List.filter_eq_nil_iff.mpr ?_) h
    intro m hm
    rw [removeFirst_none hr m hm]
    exact Bool.false_ne_true
  | some r =>
    obtain ⟨l₁, l₂, hl, -, hm, hbefore⟩ := removeFirst_some hr
    exact ⟨l₁, r.1, l₂, hl, hm, hbefore⟩

/-- The entries of `l` are still to be looked at; those of `c` are armed. -/
structure Remains (s : State) (l c : List QueuedMessage) : Prop where
  ok : s.env.Granted
  mutex : s.srv.waiting = none
  clock : s.srv.now ≤ u32_max - 2000
  qosQueue : s.srv.qosQueue = l ++ c
  armed : ∀ m ∈ c, expired s.srv.now m = false
  serializes : ∀ m ∈ l.filter (expired s.srv.now), Serializes X m.repeated
  room : s.srv.used X + weight X ((l.filter (expired s.srv.now)).map QueuedMessage.repeated) ≤
    txQueue_capacity

section Remains

variable {X} {s : State} {l c : List QueuedMessage}

/-- The pass ends where nothing has expired. -/
theorem Remains.ends (h : Remains X s l c) (hnone : l.filter (expired s.srv.now) = []) :
    retransmit X s = (.ok (.inr ()), s) := by
  have habsent : removeFirst (expired s.srv.now) s.srv.qosQueue = none := by
    rw [h.qosQueue]
    apply removeFirst_absent
    intro m hm
    rcases List.mem_append.mp hm with hm | hm
    · exact Bool.eq_false_iff.mpr (List.filter_eq_nil_iff.mp hnone m hm)
    · exact h.armed m hm
  have hprune : prune .qosQueue s = (.ok none, s) := by
    rw [prune_run, show s.srv.queue .qosQueue = s.srv.qosQueue from rfl, habsent]
  exact Prog.bind_ok _ hprune

/-- Otherwise the first expired entry goes to the end of the queue. -/
theorem Remains.step {m : QueuedMessage} {l₁ l₂ : List QueuedMessage}
    (h : Remains X s (l₁ ++ m :: l₂) c) (hbefore : ∀ b ∈ l₁, expired s.srv.now b = false)
    (hm : expired s.srv.now m = true) :
    ∃ t m', retransmit X s = (.ok (.inl ()), t) ∧
      Rearms s.srv t.srv m m' (l₁ ++ l₂ ++ c) ∧ Remains X t (l₁ ++ l₂) (c ++ [m']) := by
  have hfilter : (l₁ ++ m :: l₂).filter (expired s.srv.now) = m :: l₂.filter (expired s.srv.now) := by
    rw [List.filter_append, List.filter_eq_nil_iff.mpr (by simpa using hbefore),
      List.filter_cons_of_pos hm, List.nil_append]
  have hrest : (l₁ ++ l₂).filter (expired s.srv.now) = l₂.filter (expired s.srv.now) := by
    rw [List.filter_append, List.filter_eq_nil_iff.mpr (by simpa using hbefore), List.nil_append]
  have hserializes := h.serializes
  have hroom := h.room
  rw [hfilter] at hserializes hroom
  have hroom₁ : HasRoom X s.srv m.repeated := room_of_demand (List.mem_cons_self) hroom
  have hfound : removeFirst (expired s.srv.now) s.srv.qosQueue = some (m, l₁ ++ l₂ ++ c) := by
    rw [h.qosQueue, List.append_assoc, List.cons_append, removeFirst_found hbefore hm,
      List.append_assoc]
  obtain ⟨t, m', hrun, hrearms⟩ := retransmit_rearms X h.ok h.mutex h.clock
    (hserializes m List.mem_cons_self) hroom₁ hfound
  have hgranted := retransmit_granting X s h.ok
  rw [hrun] at hgranted
  refine ⟨t, m', hrun, hrearms, hgranted, hrearms.waiting.trans h.mutex, ?_, ?_, ?_, ?_, ?_⟩
  · rw [hrearms.now]
    exact h.clock
  · rw [hrearms.qosQueue, List.append_assoc]
  · rw [hrearms.now]
    intro b hb
    rcases List.mem_append.mp hb with hb | hb
    · exact h.armed b hb
    · obtain rfl := List.mem_singleton.mp hb
      exact hrearms.copy.unexpired
  · rw [hrearms.now, hrest]
    exact fun b hb => hserializes b (List.mem_cons_of_mem m hb)
  · have hused : t.srv.used X = s.srv.used X + (X.size m.repeated + 4) := by
      unfold Service.used
      rw [hrearms.txQueue, List.map_append, List.sum_append]
      simp
    have hweight : weight X ((m :: l₂.filter (expired s.srv.now)).map QueuedMessage.repeated) =
        X.size m.repeated + 4 + weight X ((l₂.filter (expired s.srv.now)).map
          QueuedMessage.repeated) := by
      simp [weight]
    rw [hrearms.now, hrest, hused]
    omega

/-- **The pass, entry by entry**: `l` is what it has still to look at. -/
theorem Remains.run (k : Nat) (h : Remains X s l c)
    (hk : (l.filter (expired s.srv.now)).length = k) :
    (∀ n ≤ k, (Prog.loop (fun _ => retransmit X) n () s).1 = .halt) ∧
    ∃ t copies, (∀ n, Prog.loop (fun _ => retransmit X) (k + 1 + n) () s = (.ok (), t)) ∧
      List.Forall₂ (Rearmed s.srv.now) (l.filter (expired s.srv.now)) copies ∧
      t.srv.qosQueue = l.filter (fun m => !expired s.srv.now m) ++ c ++ copies ∧
      t.srv.txQueue = s.srv.txQueue ++ (l.filter (expired s.srv.now)).map QueuedMessage.repeated ∧
      t.srv.log = s.srv.log ++
        ((l.filter (expired s.srv.now)).map QueuedMessage.repeated).map .queued := by
  induction k generalizing s l c with
  | zero =>
    have hnone := List.eq_nil_of_length_eq_zero hk
    have hall : l.filter (fun m => !expired s.srv.now m) = l := by
      apply List.filter_eq_self.mpr
      intro m hm
      have := List.filter_eq_nil_iff.mp hnone m hm
      simpa using this
    refine ⟨?_, s, [], fun n => ?_, ?_, ?_, ?_, ?_⟩
    · intro n hn
      obtain rfl := Nat.le_zero.mp hn
      rfl
    · rw [Nat.add_comm, ← Nat.add_assoc]
      exact Prog.loop_inr (n + 0) (h.ends hnone)
    · rw [hnone]
      exact .nil
    · rw [hall, List.append_nil]
      exact h.qosQueue
    · rw [hnone, List.map_nil, List.append_nil]
    · rw [hnone, List.map_nil, List.map_nil, List.append_nil]
  | succ k ih =>
    have hne : l.filter (expired s.srv.now) ≠ [] := by
      intro hnil
      rw [hnil] at hk
      cases hk
    obtain ⟨l₁, m, l₂, rfl, hm, hbefore⟩ := first_expired hne
    obtain ⟨t₁, m', hrun, hrearms, hremains⟩ := h.step hbefore hm
    have hnil : l₁.filter (expired s.srv.now) = [] := List.filter_eq_nil_iff.mpr (by simpa using hbefore)
    have hall : (l₁ ++ m :: l₂).filter (fun m => !expired s.srv.now m) =
        (l₁ ++ l₂).filter (fun m => !expired s.srv.now m) := by
      rw [List.filter_append, List.filter_append, List.filter_cons_of_neg (by simp [hm])]
    have hfirst : (l₁ ++ m :: l₂).filter (expired s.srv.now) =
        m :: (l₁ ++ l₂).filter (expired s.srv.now) := by
      rw [List.filter_append, List.filter_append, hnil, List.filter_cons_of_pos hm, List.nil_append,
        List.nil_append]
    rw [hfirst] at hk
    have hk' : ((l₁ ++ l₂).filter (expired t₁.srv.now)).length = k := by
      rw [hrearms.now]
      exact Nat.succ.inj hk
    obtain ⟨hhalt, t, copies, hloop, hcopies, hqueue, htx, hlog⟩ := ih hremains hk'
    rw [hrearms.now] at hcopies hqueue htx hlog
    refine ⟨?_, t, m' :: copies, ?_, ?_, ?_, ?_, ?_⟩
    · intro n hn
      cases n with
      | zero => rfl
      | succ n =>
        rw [Prog.loop_inl n hrun]
        exact hhalt n (Nat.le_of_succ_le_succ hn)
    · intro n
      rw [show k + 1 + 1 + n = k + 1 + n + 1 by omega, Prog.loop_inl _ hrun]
      exact hloop n
    · rw [hfirst]
      exact .cons hrearms.copy hcopies
    · rw [hqueue, hall]
      simp only [List.append_assoc, List.cons_append, List.nil_append]
    · rw [htx, hrearms.txQueue, hfirst, List.map_cons, List.append_assoc]
      rfl
    · rw [hlog, hrearms.log, hfirst, List.map_cons, List.map_cons, List.append_assoc]
      rfl

end Remains

/-- **The pass is exact.**  Where nothing keeps the expired entries from being sent and armed, the
loop ends behind as many rounds as there are expired entries, one packet has been queued for each
of them, and the queue holds the unexpired entries and the copies of the expired ones. -/
theorem pass_exact {s : State} (h : Unhindered X s) :
    (∀ n ≤ s.srv.expired.length, (Prog.loop (fun _ => retransmit X) n () s).1 = .halt) ∧
    ∃ t copies, Passed s.srv t.srv copies ∧ ∀ n > s.srv.expired.length,
      Prog.loop (fun _ => retransmit X) n () s = (.ok (), t) := by
  have hremains : Remains X s s.srv.qosQueue [] :=
    ⟨h.ok, h.mutex, h.clock, (List.append_nil _).symm, by simp, h.serializes, h.room⟩
  obtain ⟨hhalt, t, copies, hloop, hcopies, hqueue, htx, hlog⟩ := hremains.run _ rfl
  rw [List.append_nil] at hqueue
  refine ⟨hhalt, t, copies, ⟨hcopies, hqueue, htx, hlog⟩, ?_⟩
  intro n hn
  obtain ⟨d, rfl⟩ := Nat.exists_eq_add_of_lt hn
  have hd := hloop d
  rwa [Nat.add_right_comm] at hd

/-- A PUBLISH and a PUBREL with the same identifier have expired, and a PUBREL between them has
not. -/
def State.overdue : State :=
  { srv := { Service.init 3000 with
      qosQueue := [⟨7, .qos1, false, false, .publish ⟨none, ascii "a"⟩ ⟨none, ascii "b"⟩, 2000⟩,
        ⟨8, .qos2, false, false, .pubrel, 5000⟩, ⟨7, .qos2, false, false, .pubrel, 100⟩] }
    link := Sys.initial.link
    env := (Answers.smooth none 0).env }

theorem pass_exact_overdue :
    (∀ n ≤ State.overdue.srv.expired.length,
      (Prog.loop (fun _ => retransmit .documented) n () .overdue).1 = .halt) ∧
    ∃ t copies, Passed State.overdue.srv t.srv copies ∧ ∀ n > State.overdue.srv.expired.length,
      Prog.loop (fun _ => retransmit .documented) n () .overdue = (.ok (), t) :=
  pass_exact .documented ⟨fun _ _ => rfl, rfl, by decide, by decide +kernel, by decide +kernel⟩

end Pass

end Miso.Mqtt

import Miso.Mqtt.Queues

/-!
# The capacity of `txQueue`

The MQTT task is the only reader of `txQueue`, and its own sends wait for room without a limit.

* `Input.demand` — the packets that an input calls for: those of a step of the task, and those of
  a timer or of the application;
* `counted` — the service, with the bytes that have been called for since `txQueue` was found
  empty;
* `never_blocks` — the task never waits for room if what has been called for is at most what
  `txQueue` can hold, whenever the task itself calls for a packet.
-/

namespace Miso.Mqtt

open Zig Net

/-! ## What an input calls for -/

/-- The bytes that packets take up in `txQueue`. -/
def weight (X : Externs) (l : List Packet) : Nat := (l.map fun p => X.size p + 4).sum

/-- The packet with which an entry of `qosQueue` is repeated. -/
def QueuedMessage.repeated (m : QueuedMessage) : Packet :=
  match m.content with
  | .publish topic payload => .publish true m.qos false m.packetId topic.bytes payload.bytes
  | .pubrel => .pubrel true m.packetId

/-- The answer to a packet in the receive loop. -/
def answer (s : Service) : Inbound → Option Packet
  | .publish fields =>
    match deserializePublish fields with
    | .ok r =>
      match r.qos with
      | .qos0 => none
      | .qos1 => some (.puback r.packetId)
      | .qos2 => some (.pubrec r.packetId)
    | .error _ => none
  | .pubrec fields =>
    match deserializePubrec fields with
    | .ok id =>
      (removeFirst (acks id .publish) s.qosQueue).map fun r =>
        .pubrel (removeFirst (acks id .pubrel) r.2).isSome id
    | .error _ => none
  | .pubrel fields =>
    match deserializePubrel fields with
    | .ok id =>
      (removeFirst (fun m => m.packetId = id) s.qos2Queue).map fun _ => .pubcomp id
    | .error _ => none
  | _ => none

/-- What a step of the task calls for; a pass over `qosQueue` takes one expired entry a step. -/
def demand (X : Externs) (s : Service) (e : Env) : Pc → List Packet
  | .connectPacket => [X.connectPacket]
  | .subscribe => [subscribeOf (nextPacketId s.packetIdState)]
  | .disconnect _ => [.disconnect]
  | .retransmit => ((removeFirst (expired s.now) s.qosQueue).map fun r => r.1.repeated).toList
  | .receive => if e.waitRx 0 = some true then (answer s (e.read 0)).toList else []
  | _ => []

/-- The packet of a callback. -/
def Job.packet (s : Service) : Job → Packet
  | .pingTimer _ => .pingreq
  | .pubTimer => publishPacket s (ascii "zig/pub") (ascii "test") .qos2 false none
  | .publish topic payload qos => publishPacket s topic payload qos false none

/-- **What an input calls for**, whether it is queued or not. -/
def Input.demand (X : Externs) (s : Sys) : Input → List Packet
  | .task a => Mqtt.demand X s.srv a.env s.pc
  | .job j _ => [j.packet s.srv]
  | .resume _ => (s.srv.waiting.map (Job.packet s.srv)).toList
  | .clock _ => []

/-- The step finds `txQueue` empty. -/
def Sys.drained (s : Sys) : Input → Bool
  | .task _ =>
    match s.pc with
    | .drain _ => s.srv.txQueue.isEmpty
    | _ => false
  | _ => false

/-- The service, with the bytes that have been called for since `txQueue` was found empty. -/
def counted (X : Externs) : System (Sys × Nat) Input where
  Enabled s i := s.1.Enabled i
  next s i := (s.1.next X i, if s.1.drained i then 0 else s.2 + weight X (i.demand X s.1))

instance (X : Externs) (s : Sys × Nat) (i : Input) : Decidable ((counted X).Enabled s i) :=
  inferInstanceAs (Decidable (s.1.Enabled i))

/-- If the task calls for a packet, what has been called for since `txQueue` was found empty fits
into it. -/
def Modest (X : Externs) (s : Sys × Nat) : Input → Prop
  | .task a => demand X s.1.srv a.env s.1.pc = [] ∨
      s.2 + weight X (demand X s.1.srv a.env s.1.pc) ≤ txQueue_capacity
  | _ => True

instance (X : Externs) (s : Sys × Nat) : ∀ i : Input, Decidable (Modest X s i)
  | .task _ => inferInstanceAs (Decidable (_ ∨ _))
  | .job _ _ => inferInstanceAs (Decidable True)
  | .resume _ => inferInstanceAs (Decidable True)
  | .clock _ => inferInstanceAs (Decidable True)

theorem weight_append (X : Externs) (l k : List Packet) :
    weight X (l ++ k) = weight X l + weight X k := by
  simp [weight]

theorem weight_mem {X : Externs} {l : List Packet} {p : Packet} (h : p ∈ l) :
    X.size p + 4 ≤ weight X l := by
  obtain ⟨l₁, l₂, rfl⟩ := List.append_of_mem h
  simp only [weight, List.map_append, List.map_cons, List.sum_append, List.sum_cons]
  omega

/-- Room for a demand is room for each of its packets. -/
theorem room_of_demand {X : Externs} {s : Service} {l : List Packet} {p : Packet} (h : p ∈ l)
    (hfits : s.used X + weight X l ≤ txQueue_capacity) : HasRoom X s p := by
  have hle := weight_mem (X := X) h
  unfold HasRoom
  omega

/-! ## Steps that do not wait -/

/-- Packets of at most `n` bytes have been queued, and the task has not begun to wait for room. -/
def Spends (X : Externs) (n : Nat) (s s' : Service) : Prop :=
  ∃ es, Extends s s' es ∧ (∀ p, .blocked p ∉ es) ∧ weight X (queuedPackets es) ≤ n

section Spends

variable {X : Externs} {s s' s'' : Service} {n k : Nat}

theorem Spends.same (hlog : s'.log = s.log) (htx : s'.txQueue = s.txQueue) : Spends X n s s' :=
  ⟨[], .same hlog htx, by simp, Nat.zero_le _⟩

theorem Spends.trans (h : Spends X n s s') (h' : Spends X k s' s'') : Spends X (n + k) s s'' := by
  obtain ⟨es, hext, hes, hn⟩ := h
  obtain ⟨es', hext', hes', hk⟩ := h'
  refine ⟨es ++ es', hext.trans hext', ?_, ?_⟩
  · intro p hmem
    rcases List.mem_append.mp hmem with hmem | hmem
    · exact hes p hmem
    · exact hes' p hmem
  · rw [queuedPackets_append, weight_append]
    exact Nat.add_le_add hn hk

/-- A step in front of which nothing is queued. -/
theorem Spends.after (h : Spends X 0 s s') (h' : Spends X n s' s'') : Spends X n s s'' := by
  have htrans := h.trans h'
  rwa [Nat.zero_add] at htrans

theorem Spends.one (ev : Event) (h : Extends s s' [ev]) (hqueued : ev.queuedPacket = none)
    (hev : ∀ p, ev ≠ .blocked p) : Spends X n s s' := by
  refine ⟨[ev], h, ?_, ?_⟩
  · intro p hmem
    exact hev p (List.mem_singleton.mp hmem).symm
  · simp [queuedPackets, hqueued, weight]

theorem Spends.recorded (ev : Event) (hlog : s'.log = s.log ++ [ev]) (htx : s'.txQueue = s.txQueue)
    (hqueued : ev.queuedPacket = none) (hsent : ev.sentPacket = none)
    (hev : ∀ p, ev ≠ .blocked p) : Spends X n s s' :=
  .one ev (.recorded hlog htx hqueued hsent) hqueued hev

theorem Spends.queued {p : Packet} (hlog : s'.log = s.log ++ [.queued p])
    (htx : s'.txQueue = s.txQueue ++ [p]) : Spends X (weight X [p]) s s' := by
  refine ⟨[.queued p], .queued hlog htx, ?_, Nat.le_refl _⟩
  intro q hmem
  cases List.mem_singleton.mp hmem

/-- What is in use grows by what has been queued at most. -/
theorem Spends.used (h : Spends X n s s') : s'.used X ≤ s.used X + n := by
  obtain ⟨es, hext, -, hn⟩ := h
  have horder : weight X (sentPackets es) + s'.used X = s.used X + weight X (queuedPackets es) := by
    have hweight := congrArg (weight X) hext.order
    rwa [weight_append, weight_append] at hweight
  omega

theorem Spends.unblocked (h : Spends X n s s') {p : Packet} (hp : .blocked p ∉ s.log) :
    .blocked p ∉ s'.log := by
  obtain ⟨es, hext, hes, -⟩ := h
  rw [hext.log, List.mem_append]
  rintro (hmem | hmem)
  · exact hp hmem
  · exact hes p hmem

end Spends

section Relations

variable {X : Externs} {ok : Os → Nat → Bool} {s s' : Service}

theorem Prepared.spends {p : Packet} {k id : UInt16} {x : Exit Error UInt16}
    (h : Prepared X ok s p k id x s') (hroom : x = .halt → HasRoom X s p) :
    Spends X (weight X [p]) s s' := by
  cases h with
  | queued => exact .queued rfl rfl
  | failed => exact .same rfl rfl
  | stuck => exact .same rfl rfl
  | blocked _ _ _ hnot => exact absurd (hroom rfl) hnot

theorem Stored.txQueue {q : Queue} {packetId : UInt16} {qos : QoS} {dup retained : Bool}
    {topic payload : List UInt8} {deadline : Nat} {x : Exit Error Unit}
    (h : Stored ok s q packetId qos dup retained topic payload deadline x s') :
    s'.txQueue = s.txQueue := by
  simpa [sentPackets, queuedPackets] using h.extends.order

theorem Published.spends {topic payload : List UInt8} {qos : QoS} {dup : Bool}
    {packetId : Option UInt16} {deadline : Nat} {x : Exit Error Unit}
    (h : Published X ok s topic payload qos dup packetId deadline x s')
    (hroom : x = .halt → HasRoom X s (publishPacket s topic payload qos dup packetId)) :
    Spends X (weight X [publishPacket s topic payload qos dup packetId]) s s' := by
  cases h with
  | failed _ _ hprep => exact hprep.spends nofun
  | halted _ hprep => exact hprep.spends fun _ => hroom rfl
  | queued _ _ _ hstored => exact .queued hstored.extends.log_nil hstored.txQueue

theorem Released.spends {packetId : UInt16} {dup stored : Bool} {x : Exit Error Unit}
    (h : Released X ok s packetId dup stored x s')
    (hroom : x = .halt → HasRoom X s (.pubrel dup packetId)) :
    Spends X (weight X [.pubrel dup packetId]) s s' := by
  cases h with
  | failed _ _ hprep => exact hprep.spends nofun
  | halted _ hprep => exact hprep.spends fun _ => hroom rfl
  | overflow => exact .queued rfl rfl
  | noAppend => exact .queued rfl rfl
  | queued => exact .queued rfl rfl

theorem Delivered.spends {packetId : UInt16} {r : publish_response} {x : Exit Error Pc}
    (h : Delivered ok s packetId r x s') : Spends X 0 s s' := by
  cases h with
  | undefined => exact .same rfl rfl
  | short => exact .same rfl rfl
  | reset => exact .recorded .reset rfl rfl rfl rfl nofun
  | noSpace => exact .same rfl rfl
  | printed topic =>
    exact .recorded (.handover packetId r.qos topic r.payload) rfl rfl rfl rfl nofun
  | overflow => exact .same rfl rfl
  | kept _ _ _ _ hstored => exact .same hstored.extends.log_nil hstored.txQueue
  | lost _ _ _ _ _ hstored => exact .same hstored.extends.log_nil hstored.txQueue

theorem acknowledged_isSome (s : Service) (id : UInt16) (packetType : msgTypes) :
    (s.acknowledged id packetType).isSome = (removeFirst (acks id packetType) s.qosQueue).isSome :=
  Option.isSome_map ..

/-- What is queued in a round of the receive loop is the answer. -/
theorem Received.spends {m : Inbound} {x : Exit Error Pc} (h : Received X ok s m x s')
    (hroom : ∀ p, answer s m = some p → HasRoom X s p) :
    Spends X (weight X (answer s m).toList) s s' := by
  cases h with
  | again => exact .same rfl rfl
  | left => exact .same rfl rfl
  | malformed => exact .same rfl rfl
  | reserved => exact .same rfl rfl
  | publish0 fields r _ _ hr hqos hdel =>
    have hanswer : answer s (.publish fields) = none := by simp only [answer, hr, hqos]
    rw [hanswer]
    exact hdel.spends
  | publish1 fields r hr hqos =>
    have hanswer : answer s (.publish fields) = some (.puback r.packetId) := by
      simp only [answer, hr, hqos]
    rw [hanswer]
    exact .queued rfl rfl
  | publish2 fields r _ _ hr hqos _ hdel =>
    have hanswer : answer s (.publish fields) = some (.pubrec r.packetId) := by
      simp only [answer, hr, hqos]
    have hqueued : Spends X (weight X [.pubrec r.packetId]) s (s.enqueue (.pubrec r.packetId)) :=
      .queued rfl rfl
    rw [hanswer]
    exact hqueued.trans hdel.spends
  | unanswered fields r p _ _ hr hp hprep =>
    have hanswer : answer s (.publish fields) = some p := by
      rcases hp with ⟨hqos, rfl⟩ | ⟨hqos, rfl⟩ <;> simp only [answer, hr, hqos]
    rw [hanswer]
    exact hprep.spends nofun
  | unansweredHalt fields r p _ hr hp hprep =>
    have hanswer : answer s (.publish fields) = some p := by
      rcases hp with ⟨hqos, rfl⟩ | ⟨hqos, rfl⟩ <;> simp only [answer, hr, hqos]
    have hspends := hprep.spends fun _ => hroom p hanswer
    rw [hanswer]
    exact hspends
  | puback _ _ _ _ hack => exact .same (acknowledged_same hack).1 (acknowledged_same hack).2.1
  | pubackUnknown => exact .same rfl rfl
  | pingresp => exact .recorded .pingresp rfl rfl rfl rfl nofun
  | pingrespUnknown => exact .recorded .pingresp rfl rfl rfl rfl nofun
  | pubrec fields id s₁ _ _ hid hack hrel =>
    have hs₁ := acknowledged_same hack
    have hs₂ : ((s₁.acknowledged id .pubrel).getD s₁).log = s₁.log ∧
        ((s₁.acknowledged id .pubrel).getD s₁).txQueue = s₁.txQueue := by
      cases hack' : s₁.acknowledged id .pubrel with
      | none => exact ⟨rfl, rfl⟩
      | some s₂ => exact ⟨(acknowledged_same hack').1, (acknowledged_same hack').2.1⟩
    obtain ⟨m, hm⟩ := hs₁.2.2
    have hanswer : answer s (.pubrec fields) =
        some (.pubrel (s₁.acknowledged id .pubrel).isSome id) := by
      simp only [answer, hid, hm, Option.map_some, acknowledged_isSome]
    have hroom' := (hroom _ hanswer).congr (hs₂.2.trans hs₁.2.1)
    have hsame : Spends X 0 s ((s₁.acknowledged id .pubrel).getD s₁) :=
      .same (hs₂.1.trans hs₁.1) (hs₂.2.trans hs₁.2.1)
    rw [hanswer]
    exact hsame.after (hrel.spends fun _ => hroom')
  | pubrecUnknown => exact .same rfl rfl
  | pubrel fields id _ rest hid hfound =>
    have hanswer : answer s (.pubrel fields) = some (.pubcomp id) := by
      simp only [answer, hid, hfound, Option.map_some]
    rw [hanswer]
    exact .queued rfl rfl
  | pubrelFailed fields id _ rest _ _ hid hfound hprep =>
    have hanswer : answer s (.pubrel fields) = some (.pubcomp id) := by
      simp only [answer, hid, hfound, Option.map_some]
    have hfound' : Spends X 0 s { s with qos2Queue := rest } := .same rfl rfl
    rw [hanswer]
    exact hfound'.after (hprep.spends nofun)
  | pubrelHalted fields id _ rest _ hid hfound hprep =>
    have hanswer : answer s (.pubrel fields) = some (.pubcomp id) := by
      simp only [answer, hid, hfound, Option.map_some]
    have hfound' : Spends X 0 s { s with qos2Queue := rest } := .same rfl rfl
    have hspends := hprep.spends fun _ => (hroom _ hanswer).congr rfl
    rw [hanswer]
    exact hfound'.after hspends
  | pubrelUnknown => exact .same rfl rfl
  | pubcomp _ _ _ _ hack => exact .same (acknowledged_same hack).1 (acknowledged_same hack).2.1
  | pubcompUnknown => exact .same rfl rfl
  | suback _ codes => exact .recorded (.granted codes) rfl rfl rfl rfl nofun
  | subackLong _ codes => exact .recorded (.granted codes) rfl rfl rfl rfl nofun

/-- **What is queued in a step of the task is what the step calls for.** -/
theorem Taken.spends {e : Env} {fuel : Nat} {l l' : Link} {pc : Pc} {x : Exit Error Pc}
    (h : Taken X e fuel l pc s x s' l') (hroom : ∀ p ∈ demand X s e pc, HasRoom X s p) :
    Spends X (weight X (demand X s e pc)) s s' := by
  have hread : Spends X 0 s (s.record [.received (e.read 0)]) :=
    .recorded _ rfl rfl rfl rfl nofun
  cases h with
  | start => exact .same rfl rfl
  | opened => exact .recorded .opened rfl rfl rfl rfl nofun
  | openFailed => exact .same rfl rfl
  | openTrap => exact .same rfl rfl
  | openHalt => exact .same rfl rfl
  | connectPacket _ _ _ hprep => exact hprep.spends fun _ => hroom _ List.mem_cons_self
  | connackTimeout => exact .same rfl rfl
  | connackError => exact .same rfl rfl
  | connackAccepted => exact hread
  | connackRefused => exact hread
  | connackReserved => exact hread
  | subscribe _ _ _ hprep => exact hprep.spends fun _ => hroom _ List.mem_cons_self
  | subackTimeout => exact .same rfl rfl
  | subackError => exact .same rfl rfl
  | subackOther => exact .recorded (.received (e.read 0)) rfl rfl rfl rfl nofun
  | suback _ _ _ codes => exact hread.after (.recorded (.granted codes) rfl rfl rfl rfl nofun)
  | subackMalformed => exact hread
  | subackReserved => exact hread
  | subackIndex _ _ _ codes =>
    exact hread.after (.recorded (.granted codes) rfl rfl rfl rfl nofun)
  | retransmitted => exact .same rfl rfl
  | retransmit _ msg rest topic payload _ _ hr hc _ hpub =>
    have hdemand : demand X s e .retransmit = [msg.repeated] := by simp [demand, hr]
    have hpacket : publishPacket { s with qosQueue := rest } topic.bytes payload.bytes msg.qos true
        (some msg.packetId) = msg.repeated := by
      simp only [QueuedMessage.repeated, hc]
      rfl
    have hroom' : HasRoom X { s with qosQueue := rest } msg.repeated :=
      (hroom _ (by rw [hdemand]; exact List.mem_cons_self)).congr rfl
    have hsame : Spends X 0 s { s with qosQueue := rest } := .same rfl rfl
    rw [← hpacket] at hroom' hdemand
    rw [hdemand]
    exact hsame.after (hpub.spends fun _ => hroom')
  | retransmitOverflow => exact .same rfl rfl
  | retransmitPubrel _ msg rest _ _ hr hc hrel =>
    have hdemand : demand X s e .retransmit = [.pubrel true msg.packetId] := by
      simp [demand, hr, QueuedMessage.repeated, hc]
    have hroom' : HasRoom X { s with qosQueue := rest } (.pubrel true msg.packetId) :=
      (hroom _ (by rw [hdemand]; exact List.mem_cons_self)).congr rfl
    have hsame : Spends X 0 s { s with qosQueue := rest } := .same rfl rfl
    rw [hdemand]
    exact hsame.after (hrel.spends fun _ => hroom')
  | unexpired => exact .same rfl rfl
  | expire _ msg => exact .same (freed_same _ msg.content).1 (freed_same _ msg.content).2.1
  | expirePubrel => exact .same rfl rfl
  | drained => exact .recorded .drained rfl rfl rfl rfl nofun
  | sent _ _ p _ _ _ htx => exact .one (.sent p) (.sent htx) rfl nofun
  | sendFailed _ _ p _ _ _ htx => exact .one (.sent p) (.sent htx) rfl nofun
  | sendTrap _ _ p _ _ htx => exact .one (.sent p) (.sent htx) rfl nofun
  | sendHalt _ _ p _ _ htx => exact .one (.sent p) (.sent htx) rfl nofun
  | idle => exact .same rfl rfl
  | received _ _ _ hwait hrec =>
    have hdemand : demand X s e .receive = (answer s (e.read 0)).toList := by
      simp [demand, hwait]
    have hspends := hrec.spends (fun p hp => ?_)
    · rw [hdemand]
      exact hread.after hspends
    · have hp' : answer s (e.read 0) = some p := hp
      exact (hroom p (by simp [hdemand, hp'])).congr rfl
  | deliver _ _ _ _ _ hdel => exact hdel.spends
  | completed packetId msg _ topic payload =>
    exact .recorded (.handover packetId msg.qos topic.bytes payload.bytes)
      (freed_same _ msg.content).1 (freed_same _ msg.content).2.1 rfl rfl nofun
  | completeNoSpace => exact .same rfl rfl
  | completePubrel => exact .same rfl rfl
  | refused => exact .recorded .closed rfl rfl rfl rfl nofun
  | disconnect _ _ _ _ hprep =>
    have hsame : Spends X 0 s s.disconnecting := .same rfl rfl
    exact hsame.after (hprep.spends fun _ => (hroom _ List.mem_cons_self).congr rfl)
  | close => exact .recorded .closed rfl rfl rfl rfl nofun
  | lost => exact .same rfl rfl
  | lostReset => exact .same rfl rfl
  | halted => exact .same rfl rfl
  | trapped => exact .same rfl rfl

/-- What is queued in a callback that does not wait is its packet. -/
theorem Called.spends {j : Job} {x : Exit Error Unit} (h : Called X ok s j x s') (hx : x ≠ .halt) :
    Spends X (weight X [j.packet s]) s s' := by
  have hpublished {topic payload : List UInt8} {qos : QoS} {y : Exit Error Unit}
      (hj : j.publishes = some (topic, payload, qos))
      (hpub : Published X ok s topic payload qos false none (s.now + 2000) y s') (hy : y ≠ .halt) :
      Spends X (weight X [j.packet s]) s s' := by
    have hpacket : j.packet s = publishPacket s topic payload qos false none := by
      cases j <;> cases hj <;> rfl
    rw [hpacket]
    exact hpub.spends fun hhalt => absurd hhalt hy
  cases h with
  | pinged => exact .queued rfl rfl
  | pingFailed _ _ _ hprep => exact hprep.spends nofun
  | pingWaits => exact absurd rfl hx
  | published _ _ _ _ _ hj _ hpub => exact hpublished hj hpub nofun
  | publishFailed _ _ _ _ _ _ hpub => exact hpublished rfl hpub nofun
  | pubTimerFailed _ _ _ hpub => exact hpublished rfl hpub nofun
  | publishWaits => exact absurd rfl hx
  | overflow => exact .same rfl rfl

theorem begun_spends (j : Job) (s : Service) : Spends X 0 s (j.begun s) := by
  cases j with
  | pingTimer tick => exact .recorded .ping rfl rfl rfl rfl nofun
  | pubTimer => exact .same rfl rfl
  | publish topic payload qos => exact .same rfl rfl

/-- The packet of a callback does not depend on what it has done before it waits. -/
theorem packet_begun (j : Job) (s : Service) : j.packet (j.begun s) = j.packet s := by
  cases j <;> rfl

end Relations

/-! ## Runs -/

/-- A step queues what its input calls for. -/
theorem next_spends {X : Externs} {s : Sys} {i : Input}
    (hroom : ∀ a, i = .task a → ∀ p ∈ demand X s.srv a.env s.pc, HasRoom X s.srv p) :
    Spends X (weight X (i.demand X s)) s.srv (s.next X i).srv := by
  have hmoved := next_moved X s i
  generalize s.next X i = s' at hmoved
  cases hmoved with
  | task a x srv' link' htaken => exact htaken.spends (hroom a rfl)
  | pingFull => exact .recorded .ping rfl rfl rfl rfl nofun
  | job j env x srv' _ hcalled hx =>
    have hspends := (begun_spends j s.srv).after (hcalled.spends hx)
    rwa [packet_begun] at hspends
  | waits j => exact (begun_spends j s.srv).after (.same rfl rfl)
  | idle => exact .same rfl rfl
  | resumed j env x srv' hwaiting hcalled hx =>
    have hsame : Spends X 0 s.srv { s.srv with waiting := none } := .same rfl rfl
    have hdemand : (Input.resume env).demand X s = [j.packet s.srv] := by
      simp [Input.demand, hwaiting]
    rw [hdemand]
    exact hsame.after (hcalled.spends hx)
  | stays => exact .same rfl rfl
  | clock => exact .same rfl rfl

/-- A step that finds `txQueue` empty leaves it empty. -/
theorem next_drained {X : Externs} {s : Sys} {i : Input} (h : s.drained i = true) :
    (s.next X i).srv.txQueue = [] := by
  obtain ⟨pc, srv, link⟩ := s
  cases i with
  | task a =>
    have hmoved := next_moved X ⟨pc, srv, link⟩ (.task a)
    cases pc with
    | drain caller =>
      have hempty : srv.txQueue = [] := List.isEmpty_iff.mp h
      generalize Sys.next X ⟨.drain caller, srv, link⟩ (.task a) = s' at hmoved
      cases hmoved with
      | task _ x srv' link' htaken =>
        cases htaken with
        | drained => exact hempty
        | sent _ _ _ _ _ _ htx => exact absurd (hempty.symm.trans htx) nofun
        | sendFailed _ _ _ _ _ _ htx => exact absurd (hempty.symm.trans htx) nofun
        | sendTrap _ _ _ _ _ htx => exact absurd (hempty.symm.trans htx) nofun
        | sendHalt _ _ _ _ _ htx => exact absurd (hempty.symm.trans htx) nofun
    | _ => cases h
  | _ => cases h

/-- The count goes along with the runs of the service. -/
theorem counted_run (X : Externs) (s : Sys × Nat) (l : List Input) :
    ((counted X).run s l).1 = (mqtt X).run s.1 l := by
  induction l generalizing s with
  | nil => rfl
  | cons i l ih => exact ih ((counted X).next s i)

/-- What is in use is at most what has been called for, and the task has not waited. -/
structure Afforded (X : Externs) (s : Sys × Nat) : Prop where
  used : s.1.srv.used X ≤ s.2
  unblocked : ∀ p, .blocked p ∉ s.1.srv.log

theorem Afforded.next {X : Externs} {s : Sys × Nat} {i : Input} (h : Afforded X s)
    (hC : Modest X s i) : Afforded X ((counted X).next s i) := by
  have hstep : Spends X (weight X (i.demand X s.1)) s.1.srv (s.1.next X i).srv := by
    apply next_spends
    rintro a rfl q hq
    have hfits : s.2 + weight X (demand X s.1.srv a.env s.1.pc) ≤ txQueue_capacity :=
      hC.resolve_left (List.ne_nil_of_mem hq)
    exact room_of_demand hq (Nat.le_trans (Nat.add_le_add_right h.used _) hfits)
  refine ⟨?_, fun p => hstep.unblocked (h.unblocked p)⟩
  show (s.1.next X i).srv.used X ≤ if s.1.drained i then 0 else s.2 + weight X (i.demand X s.1)
  split
  · rename_i hdrained
    unfold Service.used
    rw [next_drained hdrained]
    exact Nat.le_refl 0
  · exact Nat.le_trans hstep.used (Nat.add_le_add_right h.used _)

/-- **The task never waits for room.**  In every run in which, whenever the task calls for a packet,
what has been called for since `txQueue` was found empty fits into it, the task does not wait in a
send of its own. -/
theorem never_blocks (X : Externs) {s₀ : Sys} {l : List Input} (h₀ : Initial s₀)
    (h : (counted X).Allows (Modest X) (s₀, 0) l) (p : Packet) :
    .blocked p ∉ ((mqtt X).run s₀ l).srv.log := by
  have hrun : Afforded X ((counted X).run (s₀, 0) l) := by
    apply (System.reaches_run h).invariant (I := Afforded X)
    · rw [show s₀ = ⟨s₀.pc, s₀.srv, s₀.link⟩ from rfl, h₀.srv]
      exact ⟨Nat.le_refl _, fun p => List.not_mem_nil⟩
    · exact fun s i hs _ hC => hs.next hC
  rw [← counted_run X (s₀, 0) l]
  exact hrun.unblocked p

/-- A message is sent, is not answered and is sent again. -/
def Input.repeated : List Input :=
  established ++ [pub, go, go, send 17, go, .clock 3000, go, go, go, go, send 17, go]

theorem never_blocks_repeated :
    .sent (.publish true .qos2 false 24609 (ascii "zig/pub") (ascii "test")) ∈
        ((mqtt .documented).run Sys.initial Input.repeated).srv.log ∧
      ∀ p, .blocked p ∉ ((mqtt .documented).run Sys.initial Input.repeated).srv.log :=
  ⟨by decide +kernel, never_blocks .documented Sys.initial_initial (by decide +kernel)⟩

/-- 48 messages are sent and never answered, and expire together when one more is in `txQueue`. -/
def Input.unanswered : List Input :=
  established ++ List.replicate 48 pub ++ [go, go] ++ List.replicate 48 (send 17) ++
    [go, pub, .clock 3000, go] ++ List.replicate 48 go

/-- The retransmission pass waits for room that only the task itself could make. -/
theorem retransmission_blocks : ¬∀ (X : Externs) (s₀ s : Sys), Initial s₀ →
    (mqtt X).Reaches System.Free s₀ s → ∀ p, .blocked p ∉ s.srv.log := by
  intro h
  have hreach : (mqtt .documented).Reaches System.Free Sys.initial
      ((mqtt .documented).run Sys.initial Input.unanswered) := System.reaches_run (by decide +kernel)
  have hblocked : ∃ p, .blocked p ∈ ((mqtt .documented).run Sys.initial Input.unanswered).srv.log :=
    ⟨.publish true .qos2 false 40820 (ascii "zig/pub") (ascii "test"), by decide +kernel⟩
  obtain ⟨p, hp⟩ := hblocked
  exact h .documented Sys.initial _ Sys.initial_initial hreach p hp

end Miso.Mqtt

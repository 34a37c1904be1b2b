import Miso.Mqtt.Queues

/-!
# The message buffers

`addPublish` allocates a copy of the topic and of the payload; `acknowledge`, the expiry of
`qos2Queue` and the pubrel handler free them.

* `Owns` — the live blocks are those of the entries of the two queues and of the message that a
  handler has in hand, once each;
* `Tidy` — the step does not lose a message that it has in hand;
* `buffers_owned` — between two events the live blocks are those of the entries of the two queues.
-/

namespace Miso.Mqtt

open Zig Net QueuedMessgeQueue

/-! ## Ownership -/

/-- The blocks of topic and payload. -/
def Content.blocks : Content → List Nat
  | publish topic payload => topic.block.toList ++ payload.block.toList
  | pubrel => []

/-- The blocks of the entries of a queue. -/
def owned (l : List QueuedMessage) : List Nat := l.flatMap fun m => m.content.blocks

/-- The blocks of the entries of both queues. -/
def buffers (s : Service) : List Nat := owned s.qosQueue ++ owned s.qos2Queue

/-- The live blocks are those of `l`, and the next one is fresh. -/
structure Holds (s : Service) (l : List Nat) : Prop where
  live : Ledger.Holds s.heap l
  fresh : ∀ b ∈ l, b < s.blocks

theorem Holds.congr {s s' : Service} {l l' : List Nat} (h : Holds s l) (hheap : s'.heap = s.heap)
    (hblocks : s'.blocks = s.blocks) (hl : ∀ b, l'.count b = l.count b) : Holds s' l' := by
  refine ⟨hheap ▸ h.live.congr hl, ?_⟩
  intro b hb
  rw [hblocks]
  apply h.fresh b
  rw [← List.count_pos_iff, ← hl b]
  exact List.count_pos_iff.mpr hb

theorem Holds.alloc {s : Service} {l : List Nat} (h : Holds s l) (bytes : List UInt8) :
    Holds (s.alloc bytes).2 ((s.alloc bytes).1.block.toList ++ l) := by
  unfold Service.alloc
  split
  · exact h
  · have hnot : s.blocks ∉ l := fun hmem => absurd (h.fresh _ hmem) (Nat.lt_irrefl _)
    refine ⟨h.live.acquire hnot, ?_⟩
    intro b hb
    rcases List.mem_append.mp hb with hb | hb
    · obtain rfl := List.mem_singleton.mp hb
      exact Nat.lt_succ_self _
    · exact Nat.lt_succ_of_lt (h.fresh b hb)

/-- One buffer is released. -/
theorem Holds.release {s : Service} {b : Buffer} {l : List Nat}
    (h : Holds s (b.block.toList ++ l)) :
    Holds { s with heap := s.heap ++ freeMoves b } l := by
  cases hb : b.block with
  | none =>
    rw [hb] at h
    have hmoves : freeMoves b = [] := by simp [freeMoves, hb]
    exact h.congr (by simp [hmoves]) rfl fun _ => rfl
  | some block =>
    rw [hb] at h
    have hmoves : freeMoves b = [.release block] := by simp [freeMoves, hb]
    refine ⟨?_, fun c hc => h.fresh c (List.mem_append_right _ hc)⟩
    rw [hmoves]
    exact h.live.release

theorem Holds.freed {s : Service} {c : Content} {l : List Nat} (h : Holds s (c.blocks ++ l)) :
    Holds (s.freed c) l := by
  cases c with
  | pubrel => exact h
  | publish topic payload =>
    have htopic : Holds s (topic.block.toList ++ (payload.block.toList ++ l)) := by
      rw [← List.append_assoc]
      exact h
    exact htopic.release.release

/-! ## What the functions do with the buffers -/

/-- The live blocks are those of the queues and of the message in hand. -/
def Owns (s : Service) (hand : List Nat) : Prop := Holds s (hand ++ buffers s)

/-- If the message cannot be stored, nothing has been allocated for it. -/
def Whole (ok : Os → Nat → Bool) (topic payload : List UInt8) : Prop :=
  AllocOk ok .allocPayload payload →
    (payload ≠ [] → AllocOk ok .allocTopic topic) ∧
      (AllocOk ok .allocTopic topic → ok .append 0 = true ∨ payload = [] ∧ topic = [])

instance (ok : Os → Nat → Bool) (topic payload : List UInt8) : Decidable (Whole ok topic payload) :=
  inferInstanceAs (Decidable (_ → _ ∧ _))

/-- A message of quality of service 2 is stored, or nothing is allocated for it. -/
def Kept (ok : Os → Nat → Bool) (s : Service) (r : publish_response) : Prop :=
  r.qos = .qos2 → s.now ≤ u32_max - 2000 → ∀ topic ∈ r.topic, Whole ok topic r.payload

instance (ok : Os → Nat → Bool) (s : Service) (r : publish_response) : Decidable (Kept ok s r) :=
  inferInstanceAs (Decidable (_ → _ → _))

@[simp] theorem owned_append (l k : List QueuedMessage) : owned (l ++ k) = owned l ++ owned k :=
  List.flatMap_append

@[simp] theorem owned_cons (m : QueuedMessage) (l : List QueuedMessage) :
    owned (m :: l) = m.content.blocks ++ owned l := List.flatMap_cons

@[simp] theorem owned_nil : owned [] = [] := rfl

theorem owned_removeFirst {f : QueuedMessage → Bool} {l rest : List QueuedMessage}
    {m : QueuedMessage} (h : removeFirst f l = some (m, rest)) (b : Nat) :
    (owned l).count b = m.content.blocks.count b + (owned rest).count b := by
  obtain ⟨l₁, l₂, rfl, rfl, -, -⟩ := removeFirst_some h
  simp only [owned_append, owned_cons, List.count_append]
  omega

section Relations

variable {X : Externs} {ok : Os → Nat → Bool} {s s' : Service} {hand : List Nat}

theorem Owns.congr {hand' : List Nat} (h : Owns s hand) (hheap : s'.heap = s.heap)
    (hblocks : s'.blocks = s.blocks)
    (hcount : ∀ b, (hand' ++ buffers s').count b = (hand ++ buffers s).count b) : Owns s' hand' :=
  Holds.congr h hheap hblocks hcount

theorem Owns.same (h : Owns s hand) (hheap : s'.heap = s.heap) (hblocks : s'.blocks = s.blocks)
    (hqos : s'.qosQueue = s.qosQueue) (hqos2 : s'.qos2Queue = s.qos2Queue) : Owns s' hand := by
  apply h.congr hheap hblocks
  intro b
  unfold buffers
  rw [hqos, hqos2]

theorem Owns.record (h : Owns s hand) (l : List Event) : Owns (s.record l) hand :=
  h.same rfl rfl rfl rfl

theorem Owns.enqueue (h : Owns s hand) (p : Packet) : Owns (s.enqueue p) hand :=
  h.same rfl rfl rfl rfl

/-- The message in hand is released. -/
theorem Owns.freed {c : Content} (h : Owns s (c.blocks ++ hand)) : Owns (s.freed c) hand := by
  have hfreed : Holds (s.freed c) (hand ++ buffers s) := by
    apply Holds.freed
    rw [← List.append_assoc]
    exact h
  cases c <;> exact hfreed

/-- An entry of a queue is taken in hand. -/
theorem Owns.take {q : Queue} {f : QueuedMessage → Bool} {m : QueuedMessage}
    {rest : List QueuedMessage} (h : Owns s hand) (hr : removeFirst f (s.queue q) = some (m, rest)) :
    Owns (s.setQueue q rest) (m.content.blocks ++ hand) := by
  have hcount := owned_removeFirst hr
  cases q with
  | qosQueue =>
    apply h.congr
    · rfl
    · rfl
    · intro b
      have hb := hcount b
      simp only [buffers, Service.setQueue, Service.queue, List.count_append] at hb ⊢
      omega
  | qos2Queue =>
    apply h.congr
    · rfl
    · rfl
    · intro b
      have hb := hcount b
      simp only [buffers, Service.setQueue, Service.queue, List.count_append] at hb ⊢
      omega

theorem Prepared.owns {p : Packet} {k id : UInt16} {x : Exit Error UInt16}
    (h : Prepared X ok s p k id x s') (hs : Owns s hand) : Owns s' hand := by
  cases h <;> exact hs.same rfl rfl rfl rfl

theorem alloc_nil (s : Service) : s.alloc [] = (⟨none, []⟩, s) := rfl

theorem stored_owns {q : Queue} {packetId : UInt16} {qos : QoS} {dup retained : Bool}
    {topic payload : List UInt8} {deadline : Nat} (hs : Owns s hand) :
    Owns (s.stored q packetId qos dup retained topic payload deadline) hand := by
  have hp := (alloc_same s payload).2.2
  have ht := (alloc_same (s.alloc payload).2 topic).2.2
  have hholds := (Holds.alloc hs payload).alloc topic
  have hqos : ((s.alloc payload).2.alloc topic).2.qosQueue = s.qosQueue :=
    (ht .qosQueue).trans (hp .qosQueue)
  have hqos2 : ((s.alloc payload).2.alloc topic).2.qos2Queue = s.qos2Queue :=
    (ht .qos2Queue).trans (hp .qos2Queue)
  have hcount : ∀ b, (hand ++ buffers (s.stored q packetId qos dup retained topic payload
      deadline)).count b = (((s.alloc payload).2.alloc topic).1.block.toList ++
        ((s.alloc payload).1.block.toList ++ (hand ++ buffers s))).count b := by
    intro b
    cases q <;> simp only [buffers, Service.stored, Service.setQueue, Service.queue, hqos, hqos2,
      owned_append, owned_cons, owned_nil, Content.blocks, List.count_append, List.append_nil] <;>
      omega
  cases q with
  | qosQueue => exact Holds.congr hholds rfl rfl hcount
  | qos2Queue => exact Holds.congr hholds rfl rfl hcount

theorem Stored.owns {q : Queue} {packetId : UInt16} {qos : QoS} {dup retained : Bool}
    {topic payload : List UInt8} {deadline : Nat} {x : Exit Error Unit}
    (h : Stored ok s q packetId qos dup retained topic payload deadline x s')
    (hwhole : Whole ok topic payload) (hs : Owns s hand) : Owns s' hand := by
  cases h with
  | stored => exact stored_owns hs
  | noPayload => exact hs
  | noTopic hpayload htopic =>
    by_cases hempty : payload = []
    · rw [hempty, alloc_nil]
      exact hs
    · exact absurd ((hwhole hpayload).1 hempty) htopic
  | noAppend hpayload htopic happend =>
    rcases (hwhole hpayload).2 htopic with hok | ⟨hempty, hempty'⟩
    · rw [happend] at hok
      cases hok
    · rw [hempty, hempty', alloc_nil, alloc_nil]
      exact hs

theorem Published.owns {topic payload : List UInt8} {qos : QoS} {dup : Bool}
    {packetId : Option UInt16} {deadline : Nat} {x : Exit Error Unit}
    (h : Published X ok s topic payload qos dup packetId deadline x s')
    (hwhole : Ready X ok s (publishPacket s topic payload qos dup packetId) →
      Whole ok topic payload) (hs : Owns s hand) : Owns s' hand := by
  cases h with
  | failed _ _ hprep => exact hprep.owns hs
  | halted _ hprep => exact hprep.owns hs
  | queued _ _ hready hstored =>
    have hid : Owns (s.withId (publishState s packetId)) hand := hs.same rfl rfl rfl rfl
    exact hstored.owns (hwhole hready) (hid.enqueue _)

/-- An entry for a PUBREL has no buffers. -/
theorem Released.owns {packetId : UInt16} {dup stored : Bool} {x : Exit Error Unit}
    (h : Released X ok s packetId dup stored x s') (hs : Owns s hand) : Owns s' hand := by
  cases h with
  | failed _ _ hprep => exact hprep.owns hs
  | halted _ hprep => exact hprep.owns hs
  | overflow => exact hs.same rfl rfl rfl rfl
  | noAppend => exact hs.same rfl rfl rfl rfl
  | queued =>
    apply hs.congr
    · rfl
    · rfl
    · intro b
      simp [buffers, Content.blocks, Service.enqueue]

theorem Delivered.owns {packetId : UInt16} {r : publish_response} {x : Exit Error Pc}
    (h : Delivered ok s packetId r x s') (hkept : Kept ok s r) (hs : Owns s hand) :
    Owns s' hand := by
  cases h with
  | kept topic _ htopic hqos hstored hnow => exact hstored.owns (hkept hqos hnow topic htopic) hs
  | lost topic _ _ htopic hqos hstored hnow => exact hstored.owns (hkept hqos hnow topic htopic) hs
  | _ => exact hs.same rfl rfl rfl rfl

/-- An acknowledged entry is taken out and its buffers are freed. -/
theorem acknowledged_owns {id : UInt16} {packetType : msgTypes}
    (h : s.acknowledged id packetType = some s') (hs : Owns s hand) : Owns s' hand := by
  unfold Service.acknowledged at h
  obtain ⟨⟨m, rest⟩, hr, rfl⟩ := Option.map_eq_some_iff.mp h
  have htaken : Owns (s.setQueue .qosQueue rest) (m.content.blocks ++ hand) := hs.take hr
  exact htaken.freed

theorem acknowledged_getD_owns (id : UInt16) (packetType : msgTypes) (hs : Owns s hand) :
    Owns ((s.acknowledged id packetType).getD s) hand := by
  cases h : s.acknowledged id packetType with
  | none => exact hs
  | some s' => exact acknowledged_owns h hs

end Relations

/-! ## Steps -/

/-- The blocks of the message that a handler has in hand. -/
def inHand : Pc → List Nat
  | .drain (.pubrel _ msg) => msg.content.blocks
  | .complete _ msg => msg.content.blocks
  | _ => []

/-- The handler of the packet does not lose a message. -/
def Inbound.Tidy (X : Externs) (ok : Os → Nat → Bool) (s : Service) : Inbound → Prop
  | .publish fields => ∀ r ∈ (deserializePublish fields).toOption,
    Ready X ok s (.pubrec r.packetId) → Kept ok s r
  | .pubrel fields => ∀ id ∈ (deserializePubrel fields).toOption,
    ∀ found ∈ removeFirst (fun m => m.packetId = id) s.qos2Queue,
      found.1.content.blocks = [] ∨ Ready X ok s (.pubcomp id)
  | _ => True

/-- The message has no buffers, or its text fits into the buffer of the pubrel handler. -/
def Printable (packetId : UInt16) (msg : QueuedMessage) : Prop :=
  match msg.content with
  | .publish topic payload =>
    topic.block.toList ++ payload.block.toList = [] ∨
      (messageText pubrelWords packetId msg.qos topic.bytes payload.bytes).length ≤ printBuffer_len
  | .pubrel => True

/-- The step of the task does not lose a message. -/
def Pc.Tidy (X : Externs) (a : Answers) (s : Service) (l : Link) : Pc → Prop
  | .retransmit => ∀ found ∈ removeFirst (expired s.now) s.qosQueue,
    found.1.content = .pubrel ∨ found.1.content = .publish ⟨none, []⟩ ⟨none, []⟩
  | .receive => a.env.waitRx 0 = some true → (a.env.read 0).Tidy X a.env.ok s
  | .drain (.pubrel _ msg) => ∀ p ∈ s.txQueue.head?,
    (TlsContext.send_tls a.fuel (X.size p) l).1.failed = true → msg.content.blocks = []
  | .deliver _ r => Kept a.env.ok s r
  | .complete packetId msg => Printable packetId msg
  | _ => True

/-- The callback does not lose a message. -/
def Job.Tidy (X : Externs) (ok : Os → Nat → Bool) (s : Service) (j : Job) : Prop :=
  ∀ m ∈ j.publishes, s.now ≤ u32_max - 2000 →
    Ready X ok s (publishPacket s m.1 m.2.1 m.2.2 false none) → Whole ok m.1 m.2.1

/-- **The step does not lose a message that it has in hand.** -/
def Tidy (X : Externs) (s : Sys) : Input → Prop
  | .task a => s.pc.Tidy X a s.srv (s.start a).link
  | .job j env => j.Tidy X env.ok s.srv
  | .resume env => ∀ j ∈ s.srv.waiting, j.Tidy X env.ok { s.srv with waiting := none }
  | .clock _ => True

section Decidable

variable (X : Externs)

instance (ok : Os → Nat → Bool) (s : Service) : ∀ m : Inbound, Decidable (m.Tidy X ok s)
  | .publish _ => inferInstanceAs (Decidable (∀ _ ∈ _, _))
  | .pubrel _ => inferInstanceAs (Decidable (∀ _ ∈ _, _))
  | .try_again | .puback _ | .pingresp | .connack _ | .client | .suback _ | .unsuback | .pubrec _
  | .pubcomp _ | .err_msg | .reserved => inferInstanceAs (Decidable True)

instance (packetId : UInt16) : ∀ msg : QueuedMessage, Decidable (Printable packetId msg)
  | ⟨_, _, _, _, .publish _ _, _⟩ => inferInstanceAs (Decidable (_ ∨ _))
  | ⟨_, _, _, _, .pubrel, _⟩ => inferInstanceAs (Decidable True)

instance (a : Answers) (s : Service) (l : Link) : ∀ pc : Pc, Decidable (pc.Tidy X a s l)
  | .retransmit => inferInstanceAs (Decidable (∀ _ ∈ _, _))
  | .receive => inferInstanceAs (Decidable (_ → _))
  | .drain (.pubrel _ _) => inferInstanceAs (Decidable (∀ _ ∈ _, _))
  | .deliver _ _ => inferInstanceAs (Decidable (Kept _ _ _))
  | .complete _ _ => inferInstanceAs (Decidable (Printable _ _))
  | .start | .connect | .connectPacket | .connack | .subscribe | .suback _ | .expire | .refused _
  | .disconnect _ | .close _ | .lost _ | .halted | .trapped | .drain .connect
  | .drain (.subscribe _) | .drain .cycle | .drain (.publish _ _) | .drain (.disconnect _) =>
    inferInstanceAs (Decidable True)

instance (ok : Os → Nat → Bool) (s : Service) (j : Job) : Decidable (j.Tidy X ok s) :=
  inferInstanceAs (Decidable (∀ _ ∈ _, _))

instance (s : Sys) : ∀ i : Input, Decidable (Tidy X s i)
  | .task _ => inferInstanceAs (Decidable (Pc.Tidy _ _ _ _ _))
  | .job _ _ => inferInstanceAs (Decidable (Job.Tidy _ _ _ _))
  | .resume _ => inferInstanceAs (Decidable (∀ _ ∈ _, _))
  | .clock _ => inferInstanceAs (Decidable True)

end Decidable

/-- The live blocks are those of the queues and of the message in hand, unless the task has
stopped. -/
def Owned (s : Service) (pc : Pc) : Prop := pc = .halted ∨ pc = .trapped ∨ Owns s (inHand pc)

theorem inHand_handler (pc : Pc) (err : Error) : inHand (pc.handler err) = [] := by
  cases pc with
  | drain caller => cases caller <;> rfl
  | _ => rfl

theorem inHand_next (caller : Drain) : inHand caller.next = inHand (.drain caller) := by
  cases caller <;> rfl

theorem mem_toOption {α : Type} {x : Except Error α} {a : α} (h : x = .ok a) : a ∈ x.toOption := by
  rw [h]
  rfl

section Relations

variable {X : Externs} {ok : Os → Nat → Bool} {s s' : Service} {pc : Pc}

/-- Nothing is in hand behind the step. -/
theorem owned_next {x : Exit Error Pc} (hs : Owns s [])
    (hx : ∀ pc', x = .ok pc' → inHand pc' = []) : Owned s (pc.next x) := by
  cases x with
  | ok pc' =>
    have howns : Owns s (inHand pc') := by
      rw [hx pc' rfl]
      exact hs
    exact .inr (.inr howns)
  | err err =>
    have howns : Owns s (inHand (pc.handler err)) := by
      rw [inHand_handler]
      exact hs
    exact .inr (.inr howns)
  | trap => exact .inr (.inl rfl)
  | halt => exact .inl rfl

theorem owned_err {err : Error} (hs : Owns s []) : Owned s (pc.next (.err err)) :=
  owned_next hs nofun

theorem owned_as {α : Type} {x : Exit Error α} {pc' : Pc} (hs : Owns s [])
    (hpc : inHand pc' = []) : Owned s (pc.next (x.as pc')) := by
  apply owned_next hs
  intro pc'' hx
  cases x <;> cases hx
  exact hpc

theorem Delivered.owned {packetId : UInt16} {r : publish_response} {x : Exit Error Pc}
    (h : Delivered ok s packetId r x s') (hkept : Kept ok s r) (hs : Owns s []) :
    Owned s' (pc.next x) := by
  apply owned_next (h.owns hkept hs)
  intro pc' hx
  subst hx
  cases h <;> rfl

/-- A round of the receive loop takes at most the message of a PUBREL in hand. -/
theorem Received.owned {m : Inbound} {x : Exit Error Pc}
    (h : Received X ok (s.record [.received m]) m x s') (htidy : m.Tidy X ok s) (hs : Owns s []) :
    Owned s' (pc.next x) := by
  have hread := hs.record [.received m]
  cases h with
  | again => exact owned_next hread (by rintro _ ⟨⟩; rfl)
  | left => exact owned_next hread (by rintro _ ⟨⟩; rfl)
  | malformed => exact owned_err hread
  | reserved => exact .inr (.inl rfl)
  | publish0 _ r _ _ _ hqos hdel =>
    apply hdel.owned _ hread
    intro hqos'
    rw [hqos] at hqos'
    cases hqos'
  | publish1 _ r => exact owned_next (hread.enqueue _) (by rintro _ ⟨⟩; rfl)
  | publish2 _ r _ _ hr _ hready hdel =>
    exact hdel.owned (htidy r (mem_toOption hr) (hready.congr rfl rfl)) (hread.enqueue _)
  | unanswered _ _ _ _ _ _ _ hprep => exact owned_err (hprep.owns hread)
  | unansweredHalt => exact .inl rfl
  | puback _ _ _ _ hack => exact owned_next (acknowledged_owns hack hread) (by rintro _ ⟨⟩; rfl)
  | pubackUnknown => exact owned_err hread
  | pingresp => exact owned_next (hread.same rfl rfl rfl rfl) (by rintro _ ⟨⟩; rfl)
  | pingrespUnknown => exact .inr (.inl rfl)
  | pubrec _ id s₁ x _ _ hack hrel =>
    have hacked := acknowledged_getD_owns id .pubrel (acknowledged_owns hack hread)
    exact owned_as (hrel.owns hacked) rfl
  | pubrecUnknown => exact owned_err hread
  | pubrel _ id msg rest _ hr _ =>
    have htaken : Owns _ (msg.content.blocks ++ []) := hread.take (q := .qos2Queue) hr
    rw [List.append_nil] at htaken
    exact .inr (.inr (htaken.enqueue _))
  | pubrelFailed _ id msg rest _ _ hid hr hprep =>
    have htaken : Owns _ (msg.content.blocks ++ []) := hread.take (q := .qos2Queue) hr
    rcases htidy id (mem_toOption hid) _ hr with hempty | hready
    · rw [hempty] at htaken
      exact owned_err (hprep.owns htaken)
    · cases hprep with
      | failed _ _ hnot => exact (hnot (hready.congr rfl rfl)).elim
  | pubrelHalted => exact .inl rfl
  | pubrelUnknown => exact owned_next hread (by rintro _ ⟨⟩; rfl)
  | pubcomp _ _ _ _ hack => exact owned_next (acknowledged_owns hack hread) (by rintro _ ⟨⟩; rfl)
  | pubcompUnknown => exact owned_err hread
  | suback => exact owned_next (hread.record _) (by rintro _ ⟨⟩; rfl)
  | subackLong => exact .inr (.inl rfl)

theorem Taken.owned {a : Answers} {l l' : Link} {x : Exit Error Pc}
    (h : Taken X a.env a.fuel l pc s x s' l') (htidy : pc.Tidy X a s l)
    (hs : Owns s (inHand pc)) : Owned s' (pc.next x) := by
  cases h with
  | start => exact owned_next (hs.same rfl rfl rfl rfl) (by rintro _ ⟨⟩; rfl)
  | opened => exact owned_next (hs.same rfl rfl rfl rfl) (by rintro _ ⟨⟩; rfl)
  | openFailed => exact owned_err (hs.same rfl rfl rfl rfl)
  | openTrap => exact .inr (.inl rfl)
  | openHalt => exact .inl rfl
  | connectPacket _ _ _ hprep => exact owned_as (hprep.owns hs) rfl
  | connackTimeout => exact owned_next hs (by rintro _ ⟨⟩; rfl)
  | connackError => exact owned_err hs
  | connackAccepted => exact owned_next (hs.record _) (by rintro _ ⟨⟩; rfl)
  | connackRefused => exact owned_err (hs.record _)
  | connackReserved => exact .inr (.inl rfl)
  | subscribe _ _ _ hprep => exact owned_as (hprep.owns hs) rfl
  | subackTimeout => exact owned_next (hs.same rfl rfl rfl rfl) (by rintro _ ⟨⟩; rfl)
  | subackError => exact owned_err hs
  | subackOther => exact owned_next (hs.same rfl rfl rfl rfl) (by rintro _ ⟨⟩; rfl)
  | suback => exact owned_next (hs.same rfl rfl rfl rfl) (by rintro _ ⟨⟩; rfl)
  | subackMalformed => exact owned_err (hs.record _)
  | subackReserved => exact .inr (.inl rfl)
  | subackIndex => exact .inr (.inl rfl)
  | retransmitted => exact owned_next hs (by rintro _ ⟨⟩; rfl)
  | retransmit _ msg rest topic payload _ _ hr hc _ hpub =>
    have htaken : Owns _ (msg.content.blocks ++ []) := hs.take (q := .qosQueue) hr
    rcases htidy _ hr with hpubrel | hempty
    · rw [hc] at hpubrel
      cases hpubrel
    · rw [hempty] at htaken
      rw [hc] at hempty
      cases hempty
      have hwhole : Whole a.env.ok [] [] :=
        fun _ => ⟨fun hne => absurd rfl hne, fun _ => .inr ⟨rfl, rfl⟩⟩
      exact owned_as (hpub.owns (fun _ => hwhole) htaken) rfl
  | retransmitOverflow => exact .inr (.inl rfl)
  | retransmitPubrel _ msg rest _ _ hr hc hrel =>
    have htaken : Owns _ (msg.content.blocks ++ []) := hs.take (q := .qosQueue) hr
    rw [hc] at htaken
    exact owned_as (hrel.owns htaken) rfl
  | unexpired => exact owned_next hs (by rintro _ ⟨⟩; rfl)
  | expire _ msg rest _ _ hr =>
    have htaken : Owns _ (msg.content.blocks ++ []) := hs.take (q := .qos2Queue) hr
    exact owned_next htaken.freed (by rintro _ ⟨⟩; rfl)
  | expirePubrel => exact .inr (.inl rfl)
  | drained caller =>
    have hdrained := hs.record [.drained]
    rw [← inHand_next] at hdrained
    exact .inr (.inr hdrained)
  | sent => exact .inr (.inr (hs.same rfl rfl rfl rfl))
  | sendFailed caller _ p rest err _ htx hsend =>
    have hempty : inHand (.drain caller) = [] := by
      cases caller with
      | pubrel id msg => exact htidy p (by rw [htx]; rfl) (by rw [hsend]; rfl)
      | _ => rfl
    rw [hempty] at hs
    exact owned_err (hs.same rfl rfl rfl rfl)
  | sendTrap => exact .inr (.inl rfl)
  | sendHalt => exact .inl rfl
  | idle => exact owned_next hs (by rintro _ ⟨⟩; rfl)
  | received _ _ _ hwait hrec => exact hrec.owned (htidy hwait) hs
  | deliver _ _ _ _ _ hdel => exact hdel.owned htidy hs
  | completed packetId msg _ topic payload =>
    have hhand : Owns s (msg.content.blocks ++ []) := by
      rw [List.append_nil]
      exact hs
    exact owned_next (hhand.record _).freed (by rintro _ ⟨⟩; rfl)
  | completeNoSpace packetId msg _ topic payload hc hlong =>
    have hempty : msg.content.blocks = [] := by
      have hprint : Printable packetId msg := htidy
      unfold Printable at hprint
      rw [hc] at hprint ⊢
      rcases hprint with hempty | hshort
      · exact hempty
      · omega
    have hhand : Owns s [] := hempty ▸ hs
    exact owned_err hhand
  | completePubrel => exact .inr (.inl rfl)
  | refused => exact owned_next (hs.same rfl rfl rfl rfl) (by rintro _ ⟨⟩; rfl)
  | disconnect _ _ _ _ hprep =>
    have hstopped : Owns s.disconnecting [] := hs.same rfl rfl rfl rfl
    exact owned_as (hprep.owns hstopped) rfl
  | close => exact owned_next (hs.same rfl rfl rfl rfl) (by rintro _ ⟨⟩; rfl)
  | lost => exact owned_next hs (by rintro _ ⟨⟩; rfl)
  | lostReset => exact owned_next (hs.same rfl rfl rfl rfl) (by rintro _ ⟨⟩; rfl)
  | halted => exact .inl rfl
  | trapped => exact .inr (.inl rfl)

theorem Called.owns {hand : List Nat} {j : Job} {x : Exit Error Unit} (h : Called X ok s j x s')
    (htidy : j.Tidy X ok s) (hs : Owns s hand) : Owns s' hand := by
  cases h with
  | pinged => exact hs.enqueue _
  | pingFailed _ _ _ hprep => exact hprep.owns hs
  | pingWaits _ _ hprep => exact hprep.owns hs
  | published _ _ _ _ _ hm hnow hpub => exact hpub.owns (htidy _ hm hnow) hs
  | publishFailed _ _ _ _ _ hnow hpub => exact hpub.owns (htidy _ rfl hnow) hs
  | pubTimerFailed _ _ hnow hpub => exact hpub.owns (htidy _ rfl hnow) hs
  | publishWaits _ _ _ _ _ hm hnow hpub => exact hpub.owns (htidy _ hm hnow) hs
  | overflow => exact hs

end Relations

theorem begun_owns {j : Job} {s : Service} {hand : List Nat} (hs : Owns s hand) :
    Owns (j.begun s) hand := by
  cases j with
  | pingTimer tick => exact hs.same rfl rfl rfl rfl
  | pubTimer => exact hs
  | publish topic payload qos => exact hs

theorem begun_tidy {X : Externs} {ok : Os → Nat → Bool} {j : Job} {s : Service}
    (h : j.Tidy X ok s) : j.Tidy X ok (j.begun s) := by
  cases j with
  | pingTimer tick => exact nofun
  | pubTimer => exact h
  | publish topic payload qos => exact h

/-- A callback leaves what the task has in hand. -/
theorem Owned.after {s s' : Service} {pc : Pc} (hs : Owned s pc)
    (h : Owns s (inHand pc) → Owns s' (inHand pc)) (x : Exit Error Unit) :
    Owned s' (pc.after x) := by
  have hpc : Owned s' pc := by
    rcases hs with hhalted | htrapped | howns
    · exact .inl hhalted
    · exact .inr (.inl htrapped)
    · exact .inr (.inr (h howns))
  cases x with
  | trap => exact .inr (.inl rfl)
  | _ => exact hpc

/-- **One step keeps the ownership of the buffers.** -/
theorem Moved.owned {X : Externs} {s s' : Sys} {i : Input} (h : Moved X s i s')
    (htidy : Tidy X s i) (hs : Owned s.srv s.pc) : Owned s'.srv s'.pc := by
  cases h with
  | task a x srv' link' htaken =>
    rcases hs with hhalted | htrapped | howns
    · rw [hhalted] at htaken ⊢
      cases htaken
      exact .inl rfl
    · rw [htrapped] at htaken ⊢
      cases htaken
      exact .inr (.inl rfl)
    · exact htaken.owned htidy howns
  | pingFull => exact .inr (.inl rfl)
  | job j env x srv' _ hcalled _ =>
    exact hs.after (fun howns => hcalled.owns (begun_tidy htidy) (begun_owns howns)) x
  | waits j =>
    rcases hs with hhalted | htrapped | howns
    · exact .inl hhalted
    · exact .inr (.inl htrapped)
    · exact .inr (.inr ((begun_owns howns).same rfl rfl rfl rfl))
  | idle => exact hs
  | resumed j env x srv' hwait hcalled _ =>
    exact hs.after (fun howns => hcalled.owns (htidy j hwait) (howns.same rfl rfl rfl rfl)) x
  | stays => exact hs
  | clock =>
    rcases hs with hhalted | htrapped | howns
    · exact .inl hhalted
    · exact .inr (.inl htrapped)
    · exact .inr (.inr (howns.same rfl rfl rfl rfl))

/-! ## Runs -/

/-- No handler has a message in hand, and the task has not stopped. -/
def Pc.settled : Pc → Bool
  | drain (.pubrel _ _) => false
  | complete _ _ => false
  | halted => false
  | trapped => false
  | _ => true

/-- **The live buffers are those of the queues.**  In every run in which no step loses a message
that it has in hand, after each event the ledger of the allocator is in order, and the blocks that
are live are the buffers of the entries of `qosQueue` and `qos2Queue`. -/
theorem buffers_owned (X : Externs) {s₀ s : Sys} (h₀ : Initial s₀)
    (h : (mqtt X).Reaches (Tidy X) s₀ s) (hpc : s.pc.settled = true) :
    Ledger.replay ∅ s.srv.heap = some (buffers s.srv).toFinset := by
  have howned : Owned s.srv s.pc := by
    apply h.invariant (I := fun s => Owned s.srv s.pc)
    · have hempty : Owns s₀.srv [] := by
        rw [h₀.srv]
        exact ⟨Ledger.Holds.nil, nofun⟩
      rw [h₀.pc]
      exact .inr (.inr hempty)
    · intro s i hs _ hC
      exact (next_moved X s i).owned hC hs
  have howns : Owns s.srv [] := by
    rcases howned with hhalted | htrapped | howns
    · rw [hhalted] at hpc
      cases hpc
    · rw [htrapped] at hpc
      cases hpc
    · cases hc : s.pc with
      | drain caller =>
        rw [hc] at hpc howns
        cases caller <;> first | exact howns | cases hpc
      | complete =>
        rw [hc] at hpc
        cases hpc
      | _ =>
        rw [hc] at howns
        exact howns
  exact howns.live.replay

theorem buffers_owned_published :
    Ledger.replay ∅
        ((mqtt .documented).run Sys.initial (Input.established ++ [.pub])).srv.heap =
      some (buffers
        ((mqtt .documented).run Sys.initial (Input.established ++ [.pub])).srv).toFinset :=
  buffers_owned .documented Sys.initial_initial (System.reaches_run (by decide +kernel))
    (by decide +kernel)

/-- A message is published, expires and is sent once more. -/
def Input.retransmitted : List Input := established ++ [pub, .clock 3000, go]

/-- The retransmission allocates new buffers, and leaves those of the expired entry behind. -/
theorem retransmission_leaks : ¬∀ (X : Externs) (s₀ s : Sys), Initial s₀ →
    (mqtt X).Reaches System.Free s₀ s → s.pc.settled = true →
    Ledger.replay ∅ s.srv.heap = some (buffers s.srv).toFinset := by
  intro h
  have hreach : (mqtt .documented).Reaches System.Free Sys.initial
      ((mqtt .documented).run Sys.initial Input.retransmitted) :=
    System.reaches_run (by decide +kernel)
  have hlive := h .documented Sys.initial _ Sys.initial_initial hreach (by decide +kernel)
  have hleak : Ledger.replay ∅ ((mqtt .documented).run Sys.initial Input.retransmitted).srv.heap ≠
      some (buffers ((mqtt .documented).run Sys.initial Input.retransmitted).srv).toFinset := by
    decide +kernel
  exact hleak hlive

end Miso.Mqtt

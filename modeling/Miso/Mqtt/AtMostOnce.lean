import Miso.Mqtt.Retransmission

/-!
# Messages that ask for no answer

`publish` stores a message of every quality of service in `qosQueue`, and the pass over `qosQueue`
sends it again.

* `Adds` — what is queued since without asking for an answer, as long as no such message is
  stored;
* `Moved.adds` — what one step of the system adds;
* `at_most_once_iff` — the runs that send each of them once at most are those that store none.
-/

namespace Miso.Mqtt

open Zig Net

/-! ## What is published -/

/-- What is published without asking for an answer: whether it is a duplicate, its topic and its
payload. -/
abbrev Message0 := Bool × List UInt8 × List UInt8

def Packet.message0 : Packet → Option Message0
  | .publish dup qos _ _ topic payload => if qos = .qos0 then some (dup, topic, payload) else none
  | _ => none

def messages0 (l : List Packet) : List Message0 := l.filterMap Packet.message0

/-- The message of a callback. -/
def Job.message0 (j : Job) : Option Message0 :=
  j.publishes.bind fun m => if m.2.2 = .qos0 then some (false, m.1, m.2.1) else none

/-- The message of a call of `publish`. -/
def Input.message0 : Input → Option Message0
  | .job j _ => j.message0
  | _ => none

/-- The message of the callback that waits. -/
def Service.pending0 (s : Service) : Option Message0 := s.waiting.bind Job.message0

/-- No message is kept that asks for no answer. -/
def Clean (s : Service) : Prop := ∀ m ∈ s.qosQueue, m.qos ≠ .qos0

/-- The event puts no such message into `txQueue`. -/
def Event.spares : Event → Bool
  | .queued p => p.message0.isNone
  | _ => true

theorem messages0_append (l k : List Packet) : messages0 (l ++ k) = messages0 l ++ messages0 k :=
  List.filterMap_append

theorem messages0_spares {es : List Event} (h : ∀ ev ∈ es, ev.spares = true) :
    messages0 (queuedPackets es) = [] := by
  apply List.filterMap_eq_nil_iff.mpr
  intro p hp
  obtain ⟨ev, hev, hqueued⟩ := List.mem_filterMap.mp hp
  have hspares := h ev hev
  cases ev with
  | queued q =>
    cases hqueued
    exact Option.isNone_iff_eq_none.mp hspares
  | _ => cases hqueued

/-- The messages of `l` at most have been queued since, and none has come to be kept. -/
def Adds (l : List Message0) (s s' : Service) : Prop :=
  Clean s → Clean s' ∧ ∃ es, Extends s s' es ∧ (messages0 (queuedPackets es)).Sublist l

namespace Adds

variable {l l' : List Message0} {s s' : Service}

theorem trans {s₁ s₂ s₃ : Service} (h : Adds l s₁ s₂) (h' : Adds l' s₂ s₃) :
    Adds (l ++ l') s₁ s₃ := by
  intro hclean
  obtain ⟨hclean₂, es, hext, hes⟩ := h hclean
  obtain ⟨hclean₃, es', hext', hes'⟩ := h' hclean₂
  refine ⟨hclean₃, es ++ es', hext.trans hext', ?_⟩
  rw [queuedPackets_append, messages0_append]
  exact hes.append hes'

theorem mono (h : Adds l s s') (hl : l.Sublist l') : Adds l' s s' := by
  intro hclean
  obtain ⟨hclean', es, hext, hes⟩ := h hclean
  exact ⟨hclean', es, hext, hes.trans hl⟩

/-- The queue is left alone, and nothing is queued but `l`. -/
theorem extended {es : List Event} (hqueue : s'.qosQueue = s.qosQueue) (hext : Extends s s' es)
    (hes : (messages0 (queuedPackets es)).Sublist l) : Adds l s s' := by
  intro hclean
  refine ⟨?_, es, hext, hes⟩
  unfold Clean
  rw [hqueue]
  exact hclean

theorem untouched (h : Untouched Event.spares .qosQueue s s') : Adds [] s s' := by
  obtain ⟨es, hext, hes⟩ := h.log
  have hqueue : s'.qosQueue = s.qosQueue := h.queue
  apply extended hqueue hext
  rw [messages0_spares hes]

theorem refl (s : Service) : Adds [] s s := .untouched (untouched_frame.refl s)

/-- Entries are taken out of the queue, and nothing is queued. -/
theorem removed (hqueue : ∀ m ∈ s'.qosQueue, m ∈ s.qosQueue) (hlog : s'.log = s.log)
    (htx : s'.txQueue = s.txQueue) : Adds [] s s' := by
  intro hclean
  exact ⟨fun m hm => hclean m (hqueue m hm), [], .same hlog htx, List.Sublist.refl []⟩

/-- A packet is queued together with its entry. -/
theorem added {p : Packet} {m : QueuedMessage} (hext : Extends s s' [.queued p])
    (hqueue : s'.qosQueue = s.qosQueue ++ [m]) (hm : m.qos ≠ .qos0) (hp : p.message0 = none) :
    Adds [] s s' := by
  intro hclean
  refine ⟨?_, _, hext, ?_⟩
  · unfold Clean
    rw [hqueue]
    intro m' hm'
    rcases List.mem_append.mp hm' with hm' | hm'
    · exact hclean m' hm'
    · obtain rfl := List.mem_singleton.mp hm'
      exact hm
  · rw [messages0_spares (by simpa [Event.spares] using hp)]

end Adds

/-! ## The functions of the service -/

section Relations

variable {X : Externs} {ok : Os → Nat → Bool} {s s' : Service}

/-- `publish` adds its message, if it does not store it. -/
theorem Published.adds {topic payload : List UInt8} {qos : QoS} {dup : Bool}
    {packetId : Option UInt16} {deadline : Nat} {x : Exit Error Unit}
    (h : Published X ok s topic payload qos dup packetId deadline x s')
    (hlost : qos = .qos0 → Ready X ok s (publishPacket s topic payload qos dup packetId) →
      ¬Fits ok topic payload) :
    Adds (publishPacket s topic payload qos dup packetId).message0.toList s s' := by
  have hprepared (x : Exit Error UInt16) (hx : x.returned = false)
      (hprep : Prepared X ok s (publishPacket s topic payload qos dup packetId)
        (publishState s packetId) (publishId s packetId) x s') :
      Adds (publishPacket s topic payload qos dup packetId).message0.toList s s' := by
    have hsame : Adds [] s s' := .untouched (hprep.unqueued (hprep.not_ready hx) rfl)
    exact hsame.mono (List.nil_sublist _)
  cases h with
  | failed _ _ hprep => exact hprepared _ rfl hprep
  | halted _ hprep => exact hprepared _ rfl hprep
  | queued x _ hready hstored =>
    have hqueued : Extends s ((s.withId (publishState s packetId)).enqueue
        (publishPacket s topic payload qos dup packetId))
        [.queued (publishPacket s topic payload qos dup packetId)] := .queued rfl rfl
    have hext := hqueued.trans hstored.extends
    rw [List.append_nil] at hext
    by_cases hx : x.returned = true
    · cases hstored with
      | stored hfits =>
        have hqos : qos ≠ .qos0 := fun hqos => hlost hqos hready hfits
        obtain ⟨t, p, -, -, hqueue⟩ := stored_queue ((s.withId (publishState s packetId)).enqueue
          (publishPacket s topic payload qos dup packetId)) .qosQueue (publishId s packetId) qos dup
          false topic payload deadline
        have hnone : (publishPacket s topic payload qos dup packetId).message0 = none := if_neg hqos
        exact (Adds.added hext hqueue hqos hnone).mono (List.nil_sublist _)
      | _ => cases hx
    · have hqueue : s'.qosQueue = s.qosQueue := (hstored.not_fits (Bool.eq_false_iff.mpr hx)).2
      apply Adds.extended hqueue hext
      show (messages0 [publishPacket s topic payload qos dup packetId]).Sublist _
      unfold messages0
      rw [List.filterMap_cons, List.filterMap_nil]
      cases (publishPacket s topic payload qos dup packetId).message0 <;> exact List.Sublist.refl _

theorem Released.adds {packetId : UInt16} {dup stored : Bool} {x : Exit Error Unit}
    (h : Released X ok s packetId dup stored x s') : Adds [] s s' := by
  cases h with
  | failed _ _ hprep => exact .untouched (hprep.unqueued (hprep.not_ready rfl) rfl)
  | halted _ hprep => exact .untouched (hprep.unqueued (hprep.not_ready rfl) rfl)
  | overflow => exact .untouched (.one rfl (.queued rfl rfl) rfl)
  | noAppend => exact .untouched (.one rfl (.queued rfl rfl) rfl)
  | queued => exact .added (.queued rfl rfl) rfl (fun h => by cases h) rfl

theorem Delivered.adds {packetId : UInt16} {r : publish_response} {x : Exit Error Pc}
    (h : Delivered ok s packetId r x s') : Adds [] s s' := by
  apply Adds.untouched
  cases h with
  | reset => exact .one rfl (.recorded rfl rfl rfl rfl) rfl
  | printed => exact .one rfl (.recorded rfl rfl rfl rfl) rfl
  | kept _ _ _ _ hstored => exact hstored.untouched (by decide)
  | lost _ _ _ _ _ hstored => exact hstored.untouched (by decide)
  | _ => exact untouched_frame.refl s

theorem acknowledged_adds {id : UInt16} {packetType : msgTypes}
    (h : s.acknowledged id packetType = some s') : Adds [] s s' := by
  obtain ⟨hlog, htx, m, hr⟩ := acknowledged_same h
  exact .removed (fun m' hm' => ((removeFirst_mem hr).2 m').mpr (.inr hm')) hlog htx

theorem acknowledged_getD_adds (s : Service) (id : UInt16) (packetType : msgTypes) :
    Adds [] s ((s.acknowledged id packetType).getD s) := by
  cases h : s.acknowledged id packetType with
  | none => exact .refl s
  | some s' => exact acknowledged_adds h

/-- The receive loop publishes nothing. -/
theorem Received.adds {m : Inbound} {x : Exit Error Pc} (h : Received X ok s m x s') :
    Adds [] s s' := by
  cases h with
  | publish0 _ _ _ _ _ _ hdel => exact hdel.adds
  | publish1 => exact .untouched (.one rfl (.queued rfl rfl) rfl)
  | publish2 _ r _ _ _ _ _ hdel =>
    have hqueued : Adds [] s (s.enqueue (.pubrec r.packetId)) :=
      .untouched (.one rfl (.queued rfl rfl) rfl)
    exact hqueued.trans hdel.adds
  | unanswered _ _ p _ _ _ hp hprep =>
    rcases hp with ⟨-, rfl⟩ | ⟨-, rfl⟩ <;> exact .untouched (hprep.untouched rfl rfl)
  | unansweredHalt _ _ p _ _ hp hprep =>
    rcases hp with ⟨-, rfl⟩ | ⟨-, rfl⟩ <;> exact .untouched (hprep.untouched rfl rfl)
  | puback _ _ _ _ hack => exact acknowledged_adds hack
  | pingresp => exact .untouched (.one rfl (.recorded rfl rfl rfl rfl) rfl)
  | pingrespUnknown => exact .untouched (.one rfl (.recorded rfl rfl rfl rfl) rfl)
  | pubrec _ id s₁ _ _ _ hack hrel =>
    exact ((acknowledged_adds hack).trans (acknowledged_getD_adds s₁ id .pubrel)).trans hrel.adds
  | pubrel _ id _ rest =>
    have htaken : Adds [] s { s with qos2Queue := rest } := .untouched (.same rfl rfl rfl)
    exact htaken.trans (.untouched (.one rfl (.queued rfl rfl) rfl))
  | pubrelFailed _ _ _ rest _ _ _ _ hprep =>
    have htaken : Adds [] s { s with qos2Queue := rest } := .untouched (.same rfl rfl rfl)
    exact htaken.trans (.untouched (hprep.untouched rfl rfl))
  | pubrelHalted _ _ _ rest _ _ _ hprep =>
    have htaken : Adds [] s { s with qos2Queue := rest } := .untouched (.same rfl rfl rfl)
    exact htaken.trans (.untouched (hprep.untouched rfl rfl))
  | pubcomp _ _ _ _ hack => exact acknowledged_adds hack
  | suback => exact .untouched (.one rfl (.recorded rfl rfl rfl rfl) rfl)
  | subackLong => exact .untouched (.one rfl (.recorded rfl rfl rfl rfl) rfl)
  | _ => exact .refl s

end Relations

/-! ## The steps -/

section Steps

variable {X : Externs} {ok : Os → Nat → Bool} {s s' : Service}

/-- The task publishes nothing but what is kept. -/
theorem Taken.adds {e : Env} {fuel : Nat} {l l' : Link} {pc : Pc} {x : Exit Error Pc}
    (h : Taken X e fuel l pc s x s' l') : Adds [] s s' := by
  have hread : Adds [] s (s.record [.received (e.read 0)]) :=
    .untouched (.one rfl (.recorded rfl rfl rfl rfl) rfl)
  cases h with
  | start => exact .untouched (.same rfl rfl rfl)
  | opened => exact .untouched (.one rfl (.recorded rfl rfl rfl rfl) rfl)
  | openFailed => exact .untouched (.same rfl rfl rfl)
  | openTrap => exact .untouched (.same rfl rfl rfl)
  | openHalt => exact .untouched (.same rfl rfl rfl)
  | connectPacket _ _ _ hprep => exact .untouched (hprep.untouched rfl rfl)
  | connackAccepted => exact hread
  | connackRefused => exact hread
  | connackReserved => exact hread
  | subscribe _ _ _ hprep => exact .untouched (hprep.untouched rfl rfl)
  | subackTimeout => exact .untouched (.same rfl rfl rfl)
  | subackOther => exact hread.trans (.untouched (.same rfl rfl rfl))
  | suback => exact hread.trans (.untouched (.one rfl (.recorded rfl rfl rfl rfl) rfl))
  | subackMalformed => exact hread
  | subackReserved => exact hread
  | subackIndex => exact hread.trans (.untouched (.one rfl (.recorded rfl rfl rfl rfl) rfl))
  | retransmit _ msg rest topic payload _ _ hr hc _ hpub =>
    intro hclean
    have hmem := removeFirst_mem hr
    have hremoved : Adds [] s { s with qosQueue := rest } :=
      .removed (fun m hm => (hmem.2 m).mpr (.inr hm)) rfl rfl
    -- the entry is one of the queue, which is clean
    have hqos : msg.qos ≠ .qos0 := hclean msg ((hmem.2 msg).mpr (.inl rfl))
    have hpublished := hpub.adds fun hqos' => absurd hqos' hqos
    have hnone : (publishPacket { s with qosQueue := rest } topic.bytes payload.bytes msg.qos true
        (some msg.packetId)).message0 = none := if_neg hqos
    rw [hnone] at hpublished
    exact hremoved.trans hpublished hclean
  | retransmitOverflow _ _ rest _ _ hr =>
    exact .removed (fun m hm => ((removeFirst_mem hr).2 m).mpr (.inr hm)) rfl rfl
  | retransmitPubrel _ _ rest _ _ hr _ hrel =>
    have hremoved : Adds [] s { s with qosQueue := rest } :=
      .removed (fun m hm => ((removeFirst_mem hr).2 m).mpr (.inr hm)) rfl rfl
    exact hremoved.trans hrel.adds
  | expire _ msg rest =>
    have hfreed := freed_same { s with qos2Queue := rest } msg.content
    exact .untouched (.same (hfreed.2.2 .qosQueue) hfreed.1 hfreed.2.1)
  | expirePubrel => exact .untouched (.same rfl rfl rfl)
  | drained => exact .untouched (.one rfl (.recorded rfl rfl rfl rfl) rfl)
  | sent _ _ _ _ _ _ htx => exact .untouched (.one rfl (.sent htx) rfl)
  | sendFailed _ _ _ _ _ _ htx => exact .untouched (.one rfl (.sent htx) rfl)
  | sendTrap _ _ _ _ _ htx => exact .untouched (.one rfl (.sent htx) rfl)
  | sendHalt _ _ _ _ _ htx => exact .untouched (.one rfl (.sent htx) rfl)
  | received _ _ _ _ hrec => exact hread.trans hrec.adds
  | deliver _ _ _ _ _ hdel => exact hdel.adds
  | completed packetId msg _ topic payload =>
    have hfreed := freed_same
      (s.record [.handover packetId msg.qos topic.bytes payload.bytes]) msg.content
    exact .untouched (.one (hfreed.2.2 .qosQueue) (.recorded hfreed.1 hfreed.2.1 rfl rfl) rfl)
  | refused => exact .untouched (.one rfl (.recorded rfl rfl rfl rfl) rfl)
  | disconnect _ _ _ _ hprep =>
    have hstopped : Adds [] s s.disconnecting := .untouched (.same rfl rfl rfl)
    exact hstopped.trans (.untouched (hprep.untouched rfl rfl))
  | close => exact .untouched (.one rfl (.recorded rfl rfl rfl rfl) rfl)
  | lostReset => exact .untouched (.same rfl rfl rfl)
  | _ => exact .refl s

/-- A change leaves the callback that waits alone. -/
theorem Changes.waiting (h : Changes s s') : s'.waiting = s.waiting := by
  refine h.frame (R := fun s s' => s'.waiting = s.waiting) ⟨fun _ => rfl, ?_⟩ ?_
  · intro s₁ s₂ s₃ h h'
    exact h'.trans h
  · intro s s' h
    cases h with
    | setQueue q l => cases q <;> rfl
    | _ => rfl

/-- The task leaves it alone, too. -/
theorem Taken.waiting {e : Env} {fuel : Nat} {l l' : Link} {pc : Pc} {x : Exit Error Pc}
    (h : Taken X e fuel l pc s x s' l') : s'.waiting = s.waiting := by
  by_cases hpc : pc.calm = true
  · cases h.calm hpc with
    | changes _ _ _ hch => exact hch.waiting
    | started => rfl
    | connected _ _ hch => exact hch.waiting
    | disconnecting _ _ _ hch => exact hch.waiting
    | pingresp _ _ _ _ hrec =>
      cases hrec with
      | again _ hm => rcases hm with hm | hm | hm <;> cases hm
      | left _ hm => rcases hm with hm | hm <;> cases hm
      | malformed _ _ herr => cases herr
      | pingresp => rfl
      | pingrespUnknown => rfl
    | reset => rfl
  · cases h with
    | opened => rfl
    | openFailed => rfl
    | openTrap => rfl
    | openHalt => rfl
    | drained => rfl
    | sent => rfl
    | sendFailed => rfl
    | sendTrap => rfl
    | sendHalt => rfl
    | refused => rfl
    | close => rfl
    | _ => exact absurd rfl hpc

variable (X) in
/-- A message that asks for no answer is not stored, if it is queued. -/
def Job.Unstored (ok : Os → Nat → Bool) (s : Service) (j : Job) : Prop :=
  ∀ m ∈ j.publishes, m.2.2 = .qos0 → s.now ≤ u32_max - 2000 →
    Ready X ok s (publishPacket s m.1 m.2.1 m.2.2 false none) → ¬Fits ok m.1 m.2.1

/-- A callback publishes its message at most. -/
theorem Called.adds {j : Job} {x : Exit Error Unit} (h : Called X ok s j x s')
    (hlost : j.Unstored X ok s) : Adds j.message0.toList s s' := by
  have hpublished {topic payload : List UInt8} {qos : QoS} {x : Exit Error Unit}
      (hj : j.publishes = some (topic, payload, qos)) (hnow : s.now ≤ u32_max - 2000)
      (h : Published X ok s topic payload qos false none (s.now + 2000) x s') :
      Adds j.message0.toList s s' := by
    have hmessage : (publishPacket s topic payload qos false none).message0 = j.message0 := by
      unfold Job.message0
      rw [hj]
      rfl
    rw [← hmessage]
    exact h.adds fun hqos => hlost _ hj hqos hnow
  cases h with
  | pinged => exact .untouched (.one rfl (.queued rfl rfl) rfl)
  | pingFailed _ _ _ hprep => exact .untouched (hprep.untouched rfl rfl)
  | pingWaits _ _ hprep => exact .untouched (hprep.untouched rfl rfl)
  | published _ _ _ _ _ hj hnow hpub => exact hpublished hj hnow hpub
  | publishFailed _ _ _ _ _ hnow hpub => exact hpublished rfl hnow hpub
  | pubTimerFailed _ _ hnow hpub => exact hpublished rfl hnow hpub
  | publishWaits _ _ _ _ _ hj hnow hpub => exact hpublished hj hnow hpub
  | overflow => exact (Adds.refl s).mono (List.nil_sublist _)

/-- A callback whose message is stored leaves it in the queue. -/
theorem Called.kept {j : Job} {x : Exit Error Unit} (h : Called X ok s j x s')
    (hstored : ¬j.Unstored X ok s) : x = .ok () ∧ ¬Clean s' := by
  unfold Job.Unstored at hstored
  push Not at hstored
  obtain ⟨⟨topic, payload, qos⟩, hj, hqos, hnow, hready, hfits⟩ := hstored
  obtain rfl : qos = .qos0 := hqos
  obtain ⟨hx, rfl⟩ := h.complete hj hnow hready hfits
  obtain ⟨t, p, -, -, hmem⟩ := stored_mem ((s.withId (publishState s none)).enqueue
    (publishPacket s topic payload .qos0 false none)) (publishId s none) .qos0 false false topic
    payload (s.now + 2000)
  exact ⟨hx, fun hclean => hclean _ hmem rfl⟩

theorem begun_adds (j : Job) (s : Service) :
    Adds [] s (j.begun s) ∧ (j.begun s).waiting = s.waiting := by
  cases j with
  | pingTimer tick => exact ⟨.untouched (.one rfl (.recorded rfl rfl rfl rfl) rfl), rfl⟩
  | pubTimer => exact ⟨.refl s, rfl⟩
  | publish topic payload qos => exact ⟨.refl s, rfl⟩

end Steps

section Runs

variable (X : Externs)

/-- **No message that asks for no answer is stored.** -/
def Unstored (s : Sys) : Input → Prop
  | .task _ => True
  | .job j env => j.Unstored X env.ok (j.begun s.srv)
  | .resume env => ∀ j ∈ s.srv.waiting, j.Unstored X env.ok { s.srv with waiting := none }
  | .clock _ => True

instance (ok : Os → Nat → Bool) (s : Service) (j : Job) : Decidable (j.Unstored X ok s) :=
  Option.decidableForallMem _

instance (s : Sys) : ∀ i : Input, Decidable (Unstored X s i)
  | .task _ => inferInstanceAs (Decidable True)
  | .job _ _ => inferInstanceAs (Decidable (Job.Unstored _ _ _ _))
  | .resume _ => Option.decidableForallMem _
  | .clock _ => inferInstanceAs (Decidable True)

variable {X} {s s' : Sys} {i : Input}

/-- **What a step of the system adds**: a message is published once at most, at the call or when
the callback that waits goes on. -/
theorem Moved.adds (h : Moved X s i s') (hi : s.Enabled i) (hlost : Unstored X s i) :
    ∃ l, Adds l s.srv s'.srv ∧
      (l ++ s'.srv.pending0.toList).Sublist (s.srv.pending0.toList ++ i.message0.toList) := by
  have hstays {l : List Message0} {s' : Service} (hadds : Adds [] s.srv s')
      (hwaiting : s'.waiting = s.srv.waiting) :
      ∃ l', Adds l' s.srv s' ∧
        (l' ++ s'.pending0.toList).Sublist (s.srv.pending0.toList ++ l) := by
    refine ⟨[], hadds, ?_⟩
    unfold Service.pending0
    rw [hwaiting]
    exact List.sublist_append_left _ _
  cases h with
  | task a x srv' link' htaken => exact hstays htaken.adds htaken.waiting
  | pingFull => exact hstays (.untouched (.one rfl (.recorded rfl rfl rfl rfl) rfl)) rfl
  | job j env x srv' _ hcalled =>
    obtain ⟨hbegun, hwaiting⟩ := begun_adds j s.srv
    have hnone : srv'.pending0 = none := by
      unfold Service.pending0
      rw [hcalled.changes.waiting, hwaiting, hi.2.1]
      rfl
    refine ⟨_, hbegun.trans (hcalled.adds hlost), ?_⟩
    rw [hnone]
    simp [Input.message0]
  | waits j =>
    obtain ⟨hbegun, -⟩ := begun_adds j s.srv
    have hwaits : Adds [] (j.begun s.srv) { j.begun s.srv with waiting := some j } :=
      .untouched (.same rfl rfl rfl)
    refine ⟨_, hbegun.trans hwaits, ?_⟩
    exact List.sublist_append_right _ _
  | idle => exact hstays (.refl _) rfl
  | resumed j env x srv' hj hcalled =>
    have hresumed : Adds [] s.srv { s.srv with waiting := none } := .untouched (.same rfl rfl rfl)
    have hnone : srv'.pending0 = none := by
      unfold Service.pending0
      rw [hcalled.changes.waiting]
      rfl
    refine ⟨_, hresumed.trans (hcalled.adds (hlost j hj)), ?_⟩
    rw [hnone, Service.pending0, hj]
    simp [Input.message0]
  | stays => exact hstays (.refl _) rfl
  | clock => exact hstays (.untouched (.same rfl rfl rfl)) rfl

/-- A step that stores such a message leaves it in the queue. -/
theorem Moved.kept (h : Moved X s i s') (hstored : ¬Unstored X s i) : ¬Clean s'.srv := by
  cases h with
  | task a => exact absurd trivial hstored
  | pingFull tick tick' env =>
    refine absurd ?_ hstored
    intro m hm
    cases hm
  | job j env x srv' _ hcalled => exact (hcalled.kept hstored).2
  | waits j env srv' _ hcalled => cases (hcalled.kept hstored).1
  | idle env hnone =>
    refine absurd ?_ hstored
    intro j hj
    rw [hnone] at hj
    cases hj
  | resumed j env x srv' hj hcalled =>
    have hjob : ¬j.Unstored X env.ok { s.srv with waiting := none } := by
      intro hlost
      apply hstored
      intro j' hj'
      obtain rfl := Option.some.inj (hj.symm.trans hj')
      exact hlost
    exact (hcalled.kept hjob).2
  | stays j env srv' hj hcalled =>
    have hjob : ¬j.Unstored X env.ok { s.srv with waiting := none } := by
      intro hlost
      apply hstored
      intro j' hj'
      obtain rfl := Option.some.inj (hj.symm.trans hj')
      exact hlost
    cases (hcalled.kept hjob).1
  | clock => exact absurd trivial hstored

/-! ## The runs -/

/-- **At most once**: the messages that ask for no answer and are handed to `connection.send` belong
to different calls, none of them is a duplicate, and none is kept. -/
structure AtMostOnce (l : List Input) (s : Service) : Prop where
  once : (messages0 (sentPackets s.log)).Sublist (l.filterMap Input.message0)
  fresh : ∀ m ∈ messages0 (sentPackets s.log), m.1 = false
  gone : ∀ m ∈ s.qosQueue, m.qos ≠ .qos0

/-- The messages that have been queued or wait for room belong to different calls. -/
structure Called0 (l : List Input) (s : Service) : Prop where
  clean : Clean s
  fifo : Fifo s
  calls : (messages0 (queuedPackets s.log) ++ s.pending0.toList).Sublist
    (l.filterMap Input.message0)

theorem Input.message0_fresh {i : Input} {m : Message0} (h : i.message0 = some m) :
    m.1 = false := by
  cases i with
  | job j env =>
    obtain ⟨⟨topic, payload, qos⟩, -, hm⟩ := Option.bind_eq_some_iff.mp h
    by_cases hqos : qos = .qos0
    · rw [if_pos hqos] at hm
      rw [← Option.some.inj hm]
    · rw [if_neg hqos] at hm
      cases hm
  | _ => cases h

theorem Called0.atMostOnce {l : List Input} {s : Service} (h : Called0 l s) : AtMostOnce l s := by
  have hsent : (messages0 (sentPackets s.log)).Sublist (l.filterMap Input.message0) := by
    have hqueued := (List.sublist_append_left _ _).trans h.calls
    rw [h.fifo, messages0_append] at hqueued
    exact (List.sublist_append_left _ _).trans hqueued
  refine ⟨hsent, ?_, h.clean⟩
  intro m hm
  obtain ⟨i, -, hi⟩ := List.mem_filterMap.mp (hsent.subset hm)
  exact Input.message0_fresh hi

theorem Called0.step {l : List Input} (h : Called0 l s.srv) (hmoved : Moved X s i s')
    (hi : s.Enabled i) (hlost : Unstored X s i) : Called0 (l ++ [i]) s'.srv := by
  obtain ⟨k, hadds, hk⟩ := hmoved.adds hi hlost
  obtain ⟨hclean, es, hext, hes⟩ := hadds h.clean
  refine ⟨hclean, ?_, ?_⟩
  · have hfifo := h.fifo
    unfold Fifo at *
    rw [hext.log, queuedPackets_append, sentPackets_append, hfifo, List.append_assoc,
      List.append_assoc, hext.order]
  · rw [hext.log, queuedPackets_append, messages0_append, List.append_assoc, List.filterMap_append]
    have hmore : (messages0 (queuedPackets es) ++ s'.srv.pending0.toList).Sublist
        (s.srv.pending0.toList ++ i.message0.toList) :=
      (hes.append (List.Sublist.refl _)).trans hk
    have hlast : [i].filterMap Input.message0 = i.message0.toList := by
      cases hm : i.message0 <;> simp [hm]
    have hall := h.calls.append (List.Sublist.refl i.message0.toList)
    rw [List.append_assoc] at hall
    rw [hlast]
    exact ((List.Sublist.refl _).append hmore).trans hall

/-- The runs that store no such message. -/
theorem Initial.called0 {s₀ : Sys} {l : List Input} (h₀ : Initial s₀)
    (h : (mqtt X).Allows (Unstored X) s₀ l) : Called0 l ((mqtt X).run s₀ l).srv := by
  apply h.history (I := fun l s => Called0 l s.srv)
  · rw [h₀.srv]
    exact ⟨fun _ hm => absurd hm List.not_mem_nil, rfl, List.Sublist.refl _⟩
  · intro l s i hs hi hlost
    exact hs.step (next_moved X s i) hi hlost

/-- **When messages that ask for no answer are sent at most once**: in all states of a run exactly
if none of its steps stores such a message. -/
theorem at_most_once_iff (X : Externs) {s₀ : Sys} {l : List Input} (h₀ : Initial s₀)
    (h : (mqtt X).Allows System.Free s₀ l) :
    (∀ k, k <+: l → AtMostOnce k ((mqtt X).run s₀ k).srv) ↔
      (mqtt X).Allows (Unstored X) s₀ l := by
  constructor
  · intro hall
    induction l using List.reverseRecOn with
    | nil => exact trivial
    | append_singleton l i ih =>
      obtain ⟨hl, hi⟩ := (System.allows_append l [i]).mp h
      have hlost := ih hl fun k hk => hall k (hk.trans (List.prefix_append l [i]))
      refine (System.allows_append l [i]).mpr ⟨hlost, ⟨hi.1.1, ?_⟩, trivial⟩
      by_contra hstored
      have hlast := (hall _ List.prefix_rfl).gone
      rw [System.run_concat] at hlast
      exact (next_moved X _ i).kept hstored hlast
  · intro hlost k hk
    obtain ⟨k', rfl⟩ := hk
    exact (h₀.called0 ((System.allows_append k k').mp hlost).1).atMostOnce

/-- A message that fits no packet is not sent; that of `pubTimer` is, and expires. -/
def Input.unstored : List Input :=
  established ++ [.job (.publish (ascii "a") (List.replicate 256 0x62) .qos0)
    (Answers.smooth none 0).env, pub, go, go, send 17, go, go, .clock 3000, go, go, send 17]

theorem at_most_once_unstored :
    (∀ k, k <+: Input.unstored → AtMostOnce k ((mqtt .documented).run Sys.initial k).srv) ↔
      (mqtt .documented).Allows (Unstored .documented) Sys.initial Input.unstored :=
  at_most_once_iff .documented Sys.initial_initial (by decide +kernel)

/-- A message that fits is sent and stored: its entry expires, and the message is sent again. -/
def Input.stored : List Input :=
  established ++ [.job (.publish (ascii "a") (ascii "b") .qos0) (Answers.smooth none 0).env, go, go,
    send 6, go, go, .clock 3000, go, go, go, send 6]

/-- A stored message that nobody answers is sent again and again. -/
theorem sent_again : ¬∀ (X : Externs) (s₀ : Sys) (l : List Input), Initial s₀ →
    (mqtt X).Allows System.Free s₀ l → AtMostOnce l ((mqtt X).run s₀ l).srv := by
  intro h
  have hfresh := (h .documented Sys.initial Input.stored Sys.initial_initial
    (by decide +kernel)).fresh
  exact absurd hfresh (by decide +kernel)

end Runs

end Miso.Mqtt

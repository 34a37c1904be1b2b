import Miso.Mqtt.Receiver

/-!
# PUBREL and PUBCOMP

* `Answered` — every PUBREL that has been received is followed by its PUBCOMP;
* `owed` — the messages for which PUBREC has been queued and whose PUBREL has not been processed;
* `releases_completed` — PUBRELs are answered, and no message that is owed is dropped, in every run
  in which a PUBREL finds its message and can be processed to its end.
-/

namespace Miso.Mqtt

open Zig Net

/-! ## What is owed -/

/-- A PUBCOMP is queued behind every PUBREL. -/
def Answered (l : List Event) : Prop :=
  ∀ past m rest id, l = past ++ .received m :: rest → m.released = some id →
    .queued (.pubcomp id) ∈ rest

/-- The message that has been read last, and the messages that are owed. -/
structure Dues where
  last : Option Message
  owed : List Message

/-- PUBREC makes the message that has been read last owed; the end of the pubrel handler settles
what is owed under its identifier. -/
def Dues.next (d : Dues) : Event → Dues
  | .received m => { d with last := m.qos2.bind publish_response.message }
  | .queued (.pubrec _) => { d with owed := d.owed ++ d.last.toList }
  | .handover packetId .qos2 _ _ => { d with owed := d.owed.filter fun msg => msg.packetId ≠ packetId }
  | _ => d

def dues (l : List Event) : Dues := l.foldl Dues.next ⟨none, []⟩

/-- The messages for which PUBREC has been queued and whose PUBREL has not been processed. -/
def owed (l : List Event) : List Message := (dues l).owed

/-- A message that is owed is in `qos2Queue`, or its PUBREL is being processed. -/
def Retained (s : Service) (pc : Pc) : Prop :=
  ∀ msg ∈ owed s.log, (∃ m ∈ s.qos2Queue, m.message = some msg) ∨
    ∃ h ∈ pc.hand, h.1 = msg.packetId

theorem Answered.append {l l' : List Event} (h : Answered l) (h' : Answered l') :
    Answered (l ++ l') := by
  intro past m rest id hsplit hid
  rcases List.append_eq_append_iff.mp hsplit with ⟨mid, rfl, hl'⟩ | ⟨mid, hl, hrest⟩
  · exact h' mid m rest id hl' hid
  · cases mid with
    | nil =>
      rw [List.nil_append] at hrest
      exact h' [] m rest id hrest.symm hid
    | cons ev mid =>
      obtain ⟨rfl, rfl⟩ := List.cons.inj hrest
      exact List.mem_append_left _ (h past m mid id hl hid)

theorem answered_unread {l : List Event} (h : ∀ m, Event.received m ∉ l) : Answered l := by
  intro past m rest id hsplit
  exact absurd (by simp [hsplit]) (h m)

theorem answered_aside {l : List Event} (h : ∀ ev ∈ l, ev.aside = true) : Answered l := by
  apply answered_unread
  intro m hmem
  cases h _ hmem

/-- A packet that is not a PUBREL needs no answer. -/
theorem answered_received {m : Inbound} (h : m.released = none) : Answered [.received m] := by
  intro past m' rest id hsplit hid
  cases past with
  | nil =>
    obtain ⟨hm, -⟩ := List.cons.inj hsplit
    cases hm
    rw [h] at hid
    cases hid
  | cons ev past =>
    obtain ⟨-, hnil⟩ := List.cons.inj hsplit
    simp at hnil

theorem dues_append (l l' : List Event) : dues (l ++ l') = l'.foldl Dues.next (dues l) :=
  List.foldl_append ..

theorem Dues.aside (d : Dues) {ev : Event} (h : ev.aside = true) : d.next ev = d := by
  cases ev with
  | received => cases h
  | queued p => cases p <;> first | rfl | cases h
  | handover _ qos => cases qos <;> first | rfl | cases h
  | _ => rfl

theorem dues_aside {l l' : List Event} (h : ∀ ev ∈ l', ev.aside = true) :
    dues (l ++ l') = dues l := by
  rw [dues_append]
  induction l' generalizing l with
  | nil => rfl
  | cons ev l' ih =>
    rw [List.foldl_cons, Dues.aside _ (h ev List.mem_cons_self)]
    exact ih fun ev' hev' => h ev' (List.mem_cons_of_mem _ hev')

/-! ## Steps that complete a transfer -/

section Conditions

variable (X : Externs)

/-- A PUBREL finds a message and can be answered; a message is stored once PUBREC is queued. -/
structure Inbound.Completes (ok : Os → Nat → Bool) (s : Service) (m : Inbound) : Prop where
  pubrel : m.Finds X ok s
  publish : ∀ r ∈ m.qos2, Ready X ok s (.pubrec r.packetId) →
    ∀ topic ∈ r.topic, s.now ≤ u32_max - 2000 ∧ Fits ok topic r.payload

/-- Nothing that is owed expires without a copy of it. -/
def Unowed (s : Service) : Prop :=
  ∀ found ∈ removeFirst (expired s.now) s.qos2Queue, ∀ msg ∈ owed s.log,
    found.1.message = some msg → ∃ m ∈ found.2, m.message = some msg

/-- The step of the task completes what it begins. -/
structure Pc.Completes (a : Answers) (s : Service) (l : Link) (pc : Pc) : Prop where
  handles : pc.Handles X (Inbound.Completes X a.env.ok s) a s l
  unowed : pc = .expire → Unowed s

/-- **The step of the service completes what it begins.** -/
def Completes (s : Sys) : Input → Prop
  | .task a => s.pc.Completes X a s.srv (s.start a).link
  | _ => True

instance (ok : Os → Nat → Bool) (s : Service) (m : Inbound) : Decidable (m.Completes X ok s) :=
  decidable_of_iff (m.Finds X ok s ∧ ∀ r ∈ m.qos2, Ready X ok s (.pubrec r.packetId) →
      ∀ topic ∈ r.topic, s.now ≤ u32_max - 2000 ∧ Fits ok topic r.payload)
    ⟨fun ⟨h₁, h₂⟩ => ⟨h₁, h₂⟩, fun ⟨h₁, h₂⟩ => ⟨h₁, h₂⟩⟩

instance (s : Service) : Decidable (Unowed s) := inferInstanceAs (Decidable (∀ _ ∈ _, _))

instance (a : Answers) (s : Service) (l : Link) (pc : Pc) : Decidable (pc.Completes X a s l) :=
  decidable_of_iff (pc.Handles X (Inbound.Completes X a.env.ok s) a s l ∧
      (pc = .expire → Unowed s))
    ⟨fun ⟨h₁, h₂⟩ => ⟨h₁, h₂⟩, fun ⟨h₁, h₂⟩ => ⟨h₁, h₂⟩⟩

instance (s : Sys) : ∀ i : Input, Decidable (Completes X s i)
  | .task _ => inferInstanceAs (Decidable (Pc.Completes _ _ _ _ _))
  | .job _ _ | .resume _ | .clock _ => inferInstanceAs (Decidable True)

end Conditions

/-! ## Steps -/

theorem owed_received (l : List Event) (m : Inbound) : owed (l ++ [.received m]) = owed l := by
  unfold owed
  rw [dues_append]
  rfl

theorem owed_aside {l l' : List Event} (h : ∀ ev ∈ l', ev.aside = true) :
    owed (l ++ l') = owed l := congrArg Dues.owed (dues_aside h)

/-- PUBREC makes its message owed. -/
theorem owed_pubrec {l : List Event} {m : Inbound} {r : publish_response} {id : UInt16}
    (h : m.qos2 = some r) :
    owed (l ++ [.received m] ++ [.queued (.pubrec id)]) = owed l ++ r.message.toList := by
  unfold owed
  rw [dues_append, dues_append]
  simp [Dues.next, h]

/-- The end of the pubrel handler settles its identifier. -/
theorem owed_handover {l : List Event} {id : UInt16} {qos : QoS} {topic payload : List UInt8}
    (hqos : qos = .qos2) : owed (l ++ [.handover id qos topic payload]) =
      (owed l).filter fun msg => msg.packetId ≠ id := by
  unfold owed
  rw [dues_append, hqos]
  rfl

section Relations

variable {X : Externs} {a : Answers} {l : Link} {s s' : Service} {pc : Pc} {x : Exit Error Pc}

/-- A step records PUBRELs with their answers. -/
theorem Receiver.answered (h : Receiver X a.env a.fuel l s pc x s') (hC : pc.Completes X a s l) :
    ∃ es, s'.log = s.log ++ es ∧ Answered es := by
  cases h with
  | aside _ _ hrest =>
    obtain ⟨es, hext, hes⟩ := hrest.log
    exact ⟨es, hext.log, answered_aside hes⟩
  | unfinished _ _ hnot => exact absurd hC.handles.finishes hnot
  | read _ _ hwaits hwait hpass hrest =>
    obtain ⟨es, hext, hes⟩ := hrest.log
    refine ⟨[.received (a.env.read 0)] ++ es, ?_, ?_⟩
    · rw [hext.log]
      simp [Service.record]
    · exact (answered_received
        (hC.handles.released (fun _ h => h.pubrel) hwaits hwait hpass)).append (answered_aside hes)
  | kept r _ _ _ _ hqos2 _ hdel =>
    have hext := (hdel.stores (qos2_qos hqos2)).1
    refine ⟨[.received (a.env.read 0)] ++ [.queued (.pubrec r.packetId)], ?_, ?_⟩
    · rw [hext.log_nil]
      simp [Service.record, Service.enqueue]
    · exact (answered_received (qos2_released hqos2)).append (answered_unread (by simp))
  | released id msg rest _ _ hid =>
    refine ⟨[.received (a.env.read 0), .queued (.pubcomp id)], ?_, ?_⟩
    · simp [Service.record, Service.enqueue]
    · intro past m rest' id' hsplit hid'
      cases past with
      | nil =>
        obtain ⟨hm, hrest'⟩ := List.cons.inj hsplit
        cases hm
        rw [hid] at hid'
        cases hid'
        simp [← hrest']
      | cons ev past =>
        obtain ⟨-, htail⟩ := List.cons.inj hsplit
        have hmem : Event.received m ∈ [Event.queued (.pubcomp id)] := by simp [htail]
        cases List.mem_singleton.mp hmem
  | unreleased id _ _ _ _ hpc hwait hid _ hnot =>
    have hcompletes := hpc ▸ hC.handles
    exact absurd ((hcompletes hwait).pubrel id hid).2 hnot
  | expired _ _ _ _ _ _ _ hext => exact ⟨[], hext.log, answered_aside (by simp)⟩
  | completed _ _ _ _ _ _ _ _ hext => exact ⟨_, hext.log, answered_unread (by simp)⟩

/-- A step drops no message that is owed. -/
theorem Receiver.retained (h : Receiver X a.env a.fuel l s pc x s') (hC : pc.Completes X a s l)
    (hstocked : Stocked s pc) (hs : Retained s pc) : Retained s' (pc.next x) := by
  -- nothing is in hand, and the queue still has what is owed
  have of_queue (howed : owed s'.log = owed s.log) (hhand : pc.hand = none)
      (hqueue : ∀ m ∈ s.qos2Queue, ∀ msg ∈ owed s.log, m.message = some msg →
        ∃ m' ∈ s'.qos2Queue, m'.message = some msg) : Retained s' (pc.next x) := by
    intro msg hmsg
    rw [howed] at hmsg
    rcases hs msg hmsg with ⟨m, hm, heq⟩ | ⟨h, hh, -⟩
    · exact .inl (hqueue m hm msg hmsg heq)
    · rw [hhand] at hh
      cases hh
  cases h with
  | aside _ _ hrest hhand =>
    obtain ⟨es, hext, hes⟩ := hrest.log
    intro msg hmsg
    rw [hext.log, owed_aside hes] at hmsg
    have hqueue : s'.qos2Queue = s.qos2Queue := hrest.queue
    rw [hqueue, hhand]
    exact hs msg hmsg
  | unfinished _ _ hnot => exact absurd hC.handles.finishes hnot
  | read _ _ hwaits _ _ hrest =>
    obtain ⟨es, hext, hes⟩ := hrest.log
    have howed : owed s'.log = owed s.log := by
      rw [hext.log, owed_aside hes]
      exact owed_received s.log _
    have hqueue : s'.qos2Queue = s.qos2Queue := hrest.queue
    apply of_queue howed (Pc.waits_hand hwaits)
    intro m hm msg _ heq
    exact ⟨m, hqueue ▸ hm, heq⟩
  | kept r _ _ hpc hwait hqos2 hready hdel =>
    obtain ⟨hext, hstores⟩ := hdel.stores (qos2_qos hqos2)
    have howed : owed s'.log = owed s.log ++ r.message.toList := by
      rw [hext.log_nil]
      exact owed_pubrec hqos2
    have hcompletes := hpc ▸ hC.handles
    intro msg hmsg
    rw [howed] at hmsg
    rcases hstores with ⟨hqueue, hnot⟩ | ⟨m, hqueue, -, -, hm⟩
    · have hnone : r.topic = none := by
        cases htopic : r.topic with
        | none => rfl
        | some topic => exact absurd ((hcompletes hwait).publish r hqos2 hready topic htopic) (hnot topic htopic)
      have hsame : r.message = none := by simp [publish_response.message, hnone]
      rw [hsame, Option.toList_none, List.append_nil] at hmsg
      rcases hs msg hmsg with ⟨m, hm, heq⟩ | ⟨h, hh, -⟩
      · exact .inl ⟨m, hqueue ▸ hm, heq⟩
      · rw [hpc] at hh
        cases hh
    · rcases List.mem_append.mp hmsg with hmsg | hmsg
      · rcases hs msg hmsg with ⟨m', hm', heq⟩ | ⟨h, hh, -⟩
        · exact .inl ⟨m', hqueue ▸ List.mem_append_left _ hm', heq⟩
        · rw [hpc] at hh
          cases hh
      · have hlast : m ∈ s'.qos2Queue := hqueue ▸ List.mem_append_right _ List.mem_cons_self
        exact .inl ⟨m, hlast, hm.trans (Option.mem_toList.mp hmsg)⟩
  | released id msg rest hpc _ _ hr =>
    obtain ⟨hid, hmem⟩ := removeFirst_mem hr
    intro msg' hmsg'
    have howed : msg' ∈ owed (s.log ++ [.received (a.env.read 0)] ++ [.queued (.pubcomp id)]) := hmsg'
    have hsame : owed (s.log ++ [.received (a.env.read 0)] ++ [.queued (.pubcomp id)]) =
        owed (s.log ++ [.received (a.env.read 0)]) := by
      unfold owed
      rw [dues_append]
      rfl
    rw [hsame, owed_received] at howed
    rcases hs msg' howed with ⟨m, hm, heq⟩ | ⟨h, hh, -⟩
    · rcases (hmem m).mp hm with rfl | hm
      · refine .inr ⟨(id, m), rfl, ?_⟩
        rw [← message_packetId heq]
        exact (of_decide_eq_true hid).symm
      · exact .inl ⟨m, hm, heq⟩
    · rw [hpc] at hh
      cases hh
  | unreleased id _ _ _ _ hpc hwait hid _ hnot =>
    have hcompletes := hpc ▸ hC.handles
    exact absurd ((hcompletes hwait).pubrel id hid).2 hnot
  | expired msg rest _ _ hpc hr hqueue hext =>
    have hunowed := hC.unowed hpc
    apply of_queue (by rw [hext.log_nil]) (by rw [hpc]; rfl)
    intro m hm msg' hmsg' heq
    rw [hqueue]
    rcases ((removeFirst_mem hr).2 m).mp hm with rfl | hm
    · exact hunowed _ hr msg' hmsg' heq
    · exact ⟨m, hm, heq⟩
  | completed id msg topic payload _ hpc _ hqueue hext =>
    have hqos : msg.qos = .qos2 := hstocked.hand (id, msg) (by rw [hpc]; rfl)
    intro msg' hmsg'
    rw [hext.log, owed_handover hqos] at hmsg'
    obtain ⟨hmsg', hne⟩ := List.mem_filter.mp hmsg'
    rcases hs msg' hmsg' with ⟨m, hm, heq⟩ | ⟨h, hh, heq⟩
    · exact .inl ⟨m, hqueue ▸ hm, heq⟩
    · rw [hpc] at hh
      cases hh
      exact absurd heq.symm (of_decide_eq_true hne)

end Relations

/-! ## Runs -/

/-- What holds of the receiving side between two steps. -/
structure Complete (s : Sys) : Prop where
  retained : Retained s.srv s.pc
  stocked : Stocked s.srv s.pc
  acked : s.pc.Acked

/-- A step that leaves the receiving side alone. -/
theorem Complete.aside {s s' : Sys} (hs : Complete s)
    (h : Untouched Event.aside .qos2Queue s.srv s'.srv) (hpc : s'.pc = s.pc) : Complete s' := by
  obtain ⟨es, hext, hes⟩ := h.log
  have hqueue : s'.srv.qos2Queue = s.srv.qos2Queue := h.queue
  constructor
  · intro msg hmsg
    rw [hext.log, owed_aside hes] at hmsg
    rw [hqueue, hpc]
    exact hs.retained msg hmsg
  · constructor
    · rw [hqueue]
      exact hs.stocked.queue
    · rw [hpc]
      exact hs.stocked.hand
  · rw [hpc]
    exact hs.acked

/-- **One step of the system completes what it begins.** -/
theorem Moved.complete {X : Externs} {s s' : Sys} {i : Input} (h : Moved X s i s')
    (hC : Completes X s i) (hs : Complete s) :
    (∃ es, s'.srv.log = s.srv.log ++ es ∧ Answered es) ∧ (s'.pc ≠ .trapped → Complete s') := by
  by_cases hi : ∃ a, i = .task a
  · obtain ⟨a, rfl⟩ := hi
    cases h with
    | task a x srv' link' htaken =>
      have hreceiver := htaken.receiver hs.acked
      refine ⟨hreceiver.answered hC, fun _ => ?_⟩
      constructor
      · exact hreceiver.retained hC hs.stocked hs.retained
      · exact hreceiver.stocked hs.stocked
      · exact htaken.acked hs.acked
  · obtain ⟨huntouched, hpc⟩ := h.aside fun a ha => hi ⟨a, ha⟩
    obtain ⟨es, hext, hes⟩ := huntouched.log
    refine ⟨⟨es, hext.log, answered_aside hes⟩, ?_⟩
    intro htrap
    rcases hpc with hpc | hpc
    · exact hs.aside huntouched hpc
    · exact absurd hpc htrap

theorem Initial.complete {s₀ : Sys} (h₀ : Initial s₀) : Complete s₀ := by
  constructor
  · intro msg hmsg
    rw [h₀.srv] at hmsg
    cases hmsg
  · constructor
    · rw [h₀.srv]
      exact nofun
    · rw [h₀.pc]
      exact nofun
  · rw [h₀.pc]
    trivial

/-- **PUBRELs are answered, and what is owed is kept.**  In every run in which every PUBREL finds a
message and is processed to its end, every message is stored once PUBREC is queued, and nothing
expires that is owed: PUBCOMP is queued behind every PUBREL, and a message for which PUBREC has
been queued stays in `qos2Queue` until its PUBREL is processed. -/
theorem releases_completed (X : Externs) {s₀ s : Sys} (h₀ : Initial s₀)
    (h : (mqtt X).Reaches (Completes X) s₀ s) :
    Answered s.srv.log ∧ (s.pc ≠ .trapped → Retained s.srv s.pc) := by
  have hinv : Answered s.srv.log ∧ (s.pc ≠ .trapped → Complete s) := by
    apply h.invariant (I := fun s => Answered s.srv.log ∧ (s.pc ≠ .trapped → Complete s))
    · refine ⟨?_, fun _ => h₀.complete⟩
      rw [h₀.srv]
      exact answered_unread (by simp [Service.init])
    · intro s i hs henabled hC
      obtain ⟨hanswered, hcomplete⟩ := hs
      have hs := hcomplete (enabled_untrapped henabled)
      obtain ⟨⟨es, hlog, hes⟩, hnext⟩ := (next_moved X s i).complete hC hs
      refine ⟨?_, hnext⟩
      show Answered (s.next X i).srv.log
      rw [hlog]
      exact hanswered.append hes
  exact ⟨hinv.1, fun htrap => (hinv.2 htrap).retained⟩

/-- A message is received, released and handed over. -/
def Input.transferred : List Input :=
  established ++ rounds ++ [receive (.publish2 false 1 (ascii "zig/conf") (ascii "on")),
    receive (.release 1), send 4, send 4, go, go]

theorem releases_completed_transferred :
    Answered ((mqtt .documented).run Sys.initial Input.transferred).srv.log ∧
      (((mqtt .documented).run Sys.initial Input.transferred).pc ≠ .trapped →
        Retained ((mqtt .documented).run Sys.initial Input.transferred).srv
          ((mqtt .documented).run Sys.initial Input.transferred).pc) :=
  releases_completed .documented Sys.initial_initial (System.reaches_run (by decide +kernel))

/-- A PUBREL is received for an identifier of which nothing is stored. -/
def Input.unknownRelease : List Input := established ++ rounds ++ [receive (.release 1)]

/-- No PUBCOMP is queued for a PUBREL with an unknown identifier. -/
theorem unknown_release_unanswered : ¬∀ (X : Externs) (s₀ s : Sys), Initial s₀ →
    (mqtt X).Reaches System.Free s₀ s →
    Answered s.srv.log ∧ (s.pc ≠ .trapped → Retained s.srv s.pc) := by
  intro h
  have hreach : (mqtt .documented).Reaches System.Free Sys.initial
      ((mqtt .documented).run Sys.initial Input.unknownRelease) :=
    System.reaches_run (by decide +kernel)
  have hanswered := (h .documented Sys.initial _ Sys.initial_initial hreach).1
  have hlast : ((mqtt .documented).run Sys.initial Input.unknownRelease).srv.log =
      ((mqtt .documented).run Sys.initial Input.unknownRelease).srv.log.dropLast ++
        .received (.release 1) :: [] := by decide +kernel
  have hmem := hanswered _ (.release 1) [] 1 hlast rfl
  cases hmem

end Miso.Mqtt

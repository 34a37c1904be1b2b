import Miso.Mqtt.Receiver
import Miso.Mqtt.Sender
import Miso.Mqtt.World

/-!
# A broker that answers

* `honest` — a broker that answers PUBLISH, PUBREL and nothing else, over the channels of `world`;
* `inFlight` — the questions and answers that are on their way;
* `answers_found` — if nothing is sent again while it is on its way, the service finds an entry for
  every answer.
-/

namespace Miso.Mqtt

open Zig Net

/-! ## The broker -/

/-- A step of the broker. -/
inductive Reply where
  /-- The next packet is read, and answered. -/
  | answer
  /-- A packet that answers nothing is sent. -/
  | other (m : Inbound)
  deriving DecidableEq, Repr

/-- The answer to a packet of the service. -/
def Packet.reply : Packet → Option Inbound
  | .publish _ .qos1 _ packetId _ _ => some (.puback (some ⟨.puback, false, packetId⟩))
  | .publish _ .qos2 _ packetId _ _ => some (.pubrec (some ⟨.pubrec, false, packetId⟩))
  | .pubrel _ packetId => some (.pubcomp (some ⟨.pubcomp, false, packetId⟩))
  | _ => none

/-- The broker as a peer of the service. -/
def honest : Peer Unit Reply where
  Enabled _ w
    | .answer => w.up ≠ []
    | .other m => m.acked = none
  next _ w
    | .answer =>
      match w.up with
      | [] => ((), w)
      | p :: rest => ((), { up := rest, down := w.down ++ p.reply.toList })
    | .other m => ((), { w with down := w.down ++ [m] })
  observe _ _ := ()

instance (b : Unit) (w : Wire) : ∀ k : Reply, Decidable (honest.Enabled b w k)
  | .answer => inferInstanceAs (Decidable (_ ≠ _))
  | .other _ => inferInstanceAs (Decidable (_ = _))

/-- A packet is answered by what it asks for. -/
theorem reply_acked (p : Packet) : p.reply.bind Inbound.acked = p.asks := by
  cases p with
  | publish _ qos => cases qos <;> rfl
  | _ => rfl

/-! ## On the way -/

/-- The packets that acknowledge what `a` asks for. -/
def acknowledging (l : List Inbound) (a : Ask) : Nat := l.countP fun m => m.acked = some a

/-- The packets that ask for the answer, in `txQueue` or behind it, and the answers. -/
def inFlight (w : World Unit) (a : Ask) : Nat := asked w.pipe a + acknowledging w.wire.down a

theorem acknowledging_append (l l' : List Inbound) (a : Ask) :
    acknowledging (l ++ l') a = acknowledging l a + acknowledging l' a := List.countP_append ..

theorem acknowledging_cons (m : Inbound) (l : List Inbound) (a : Ask) :
    acknowledging (m :: l) a = m.acked.toList.count a + acknowledging l a := by
  have hm : acknowledging [m] a = m.acked.toList.count a := by
    unfold acknowledging
    rw [List.countP_singleton]
    cases hm : m.acked with
    | none => rfl
    | some b => simp [List.count_singleton]
  rw [← hm, ← acknowledging_append, List.singleton_append]

theorem acknowledging_reply (p : Packet) (a : Ask) :
    acknowledging p.reply.toList a = asked [p] a := by
  have hasks := reply_acked p
  unfold acknowledging asked
  rw [List.countP_singleton, ← hasks]
  cases p.reply with
  | none => rfl
  | some m => exact List.countP_singleton

section Follow

variable {w : World Unit} {s' : Sys} {es : List Event}

theorem follow_asked (h : Extends w.client.srv s'.srv es) (a : Ask) :
    asked (w.follow honest s' es).pipe a ≤ asked w.pipe a + asked (queuedPackets es) a := by
  rw [← asked_append]
  exact (pipe_suffix h).sublist.countP_le

/-- A step of the service adds what it asks. -/
theorem follow_inFlight (h : Extends w.client.srv s'.srv es) (a : Ask) :
    inFlight (w.follow honest s' es) a ≤ inFlight w a + asked (queuedPackets es) a := by
  have hpipe := follow_asked h a
  have hdown : acknowledging (w.wire.events es).down a ≤ acknowledging w.wire.down a :=
    (w.wire.down_suffix es).sublist.countP_le
  show asked _ a + acknowledging (w.wire.events es).down a ≤ _
  unfold inFlight
  omega

/-- A packet that is read is on its way no longer. -/
theorem follow_read {m : Inbound} (h : Extends w.client.srv s'.srv (.received m :: es))
    (hhead : w.wire.down.head? = some m) (a : Ask) :
    inFlight (w.follow honest s' (.received m :: es)) a + m.acked.toList.count a ≤
      inFlight w a + asked (queuedPackets es) a := by
  have hpipe := follow_asked h a
  have hdown : acknowledging (w.wire.events (.received m :: es)).down a ≤
      acknowledging w.wire.down.tail a := (w.wire.down_received m es).sublist.countP_le
  have hcons : acknowledging w.wire.down a =
      m.acked.toList.count a + acknowledging w.wire.down.tail a := by
    rw [← acknowledging_cons, ← List.eq_cons_of_mem_head? hhead]
  have hqueued : queuedPackets (.received m :: es) = queuedPackets es := rfl
  rw [hqueued] at hpipe
  show asked _ a + acknowledging (w.wire.events (.received m :: es)).down a + _ ≤ _
  unfold inFlight
  omega

end Follow

/-! ## Steps -/

/-- **Nothing is sent again while it is on its way.** -/
def Patient (X : Externs) (w : World Unit) : Input ⊕ Reply → Prop
  | .inl i => Stores X w.client i ∧
    match i with
    | .task a => ∀ b ∈ w.client.pc.renews a.env w.client.srv, inFlight w b < held w.client.srv b
    | _ => True
  | .inr _ => True

instance (X : Externs) (w : World Unit) : ∀ i : Input ⊕ Reply, Decidable (Patient X w i)
  | .inl (.task _) => inferInstanceAs (Decidable (Stores _ _ _ ∧ ∀ _ ∈ _, _))
  | .inl (.job _ _) | .inl (.resume _) | .inl (.clock _) =>
    inferInstanceAs (Decidable (Stores _ _ _ ∧ True))
  | .inr _ => inferInstanceAs (Decidable True)

/-- Every answer that is on its way has its entry. -/
def Expected (w : World Unit) : Prop := ∀ a, inFlight w a ≤ held w.client.srv a

section Steps

variable {X : Externs} {w : World Unit}

theorem Inbound.renews_length (s : Service) (m : Inbound) : (m.renews s).length ≤ 1 := by
  unfold Inbound.renews
  split
  · split
    · split <;> simp
    · exact Nat.zero_le _
  · exact Nat.zero_le _

theorem Pc.renews_length (pc : Pc) (e : Env) (s : Service) : (pc.renews e s).length ≤ 1 := by
  cases pc with
  | retransmit =>
    show ((removeFirst (expired s.now) s.qosQueue).toList.map fun r => r.1.ask).length ≤ 1
    cases removeFirst (expired s.now) s.qosQueue <;> simp
  | receive =>
    show (if e.waitRx 0 = some true then (e.read 0).renews s else []).length ≤ 1
    split
    · exact (e.read 0).renews_length s
    · exact Nat.zero_le _
  | _ => exact Nat.zero_le _

theorem Expected.renewed (hw : Expected w) {l : List Ask} (hl : l.length ≤ 1)
    (h : ∀ b ∈ l, inFlight w b < held w.client.srv b) (a : Ask) :
    inFlight w a + l.count a ≤ held w.client.srv a := by
  have hle := hw a
  by_cases ha : a ∈ l
  · have hlt := h a ha
    have hcount := List.count_le_length (a := a) (l := l)
    omega
  · rw [List.count_eq_zero.mpr ha]
    exact hle

theorem Expected.task {a : Answers} {s' : Sys} (hw : Expected w)
    (hsends : Sends a.env w.client.pc w.client.srv s'.srv)
    (hrenews : ∀ b ∈ w.client.pc.renews a.env w.client.srv, inFlight w b < held w.client.srv b)
    (hreads : ∀ m ∈ (Input.task a).reads w.client, w.wire.down.head? = some m) :
    ∃ es, Extends w.client.srv s'.srv es ∧ Expected (w.follow honest s' es) := by
  have hrenewed := hw.renewed (w.client.pc.renews_length a.env w.client.srv) hrenews
  cases hsends with
  | aside hcovers =>
    obtain ⟨es, hext, hes⟩ := hcovers
    refine ⟨es, hext, ?_⟩
    intro b
    have hflight := follow_inFlight hext b
    have hcover := hes b
    have hrenew := hrenewed b
    show _ ≤ held s'.srv b
    omega
  | read hwaits hwait hcovers =>
    obtain ⟨es, hext, hes⟩ := hcovers
    have hreceived : Extends w.client.srv (w.client.srv.record [.received (a.env.read 0)])
        [.received (a.env.read 0)] := .recorded rfl rfl rfl rfl
    have hhead : w.wire.down.head? = some (a.env.read 0) := by
      apply hreads
      simp [Input.reads, hwaits, hwait]
    have hread : Extends w.client.srv s'.srv (.received (a.env.read 0) :: es) :=
      hreceived.trans hext
    refine ⟨_, hread, ?_⟩
    intro b
    have hflight := follow_read hread hhead b
    have hcover := hes b
    have hrenew := hrenewed b
    have htakes : (w.client.pc.takes a.env).count b ≤ (a.env.read 0).acked.toList.count b := by
      unfold Pc.takes
      split
      · exact Nat.le_refl _
      · exact Nat.zero_le _
    have hrecorded : held (w.client.srv.record [.received (a.env.read 0)]) b =
        held w.client.srv b := rfl
    rw [List.count_append, hrecorded] at hcover
    show _ ≤ held s'.srv b
    omega

/-- The answer that is read has its entry. -/
theorem Expected.found {m : Inbound} (hw : Expected w) (hhead : w.wire.down.head? = some m) :
    ¬m.Stray w.client.srv := by
  rintro ⟨a, hacked, hnone⟩
  have hle := hw a
  have hflight : 1 ≤ inFlight w a := by
    unfold inFlight
    rw [List.eq_cons_of_mem_head? hhead, acknowledging_cons, hacked, Option.toList_some,
      List.count_singleton_self]
    omega
  have hheld : held w.client.srv a = 0 := by
    unfold held
    rw [List.countP_eq_zero]
    intro e he
    have hnot := removeFirst_none hnone e he
    rw [acks_ask] at hnot
    simpa using hnot
  omega

/-- **A step of the service.** -/
theorem Expected.client {i : Input} (hw : Expected w)
    (hi : (world X honest).Enabled w (.inl i)) (hC : Patient X w (.inl i))
    (htrap : (w.client.next X i).pc ≠ .trapped) : Expected ((world X honest).next w (.inl i)) := by
  have hmoved := next_moved X w.client i
  have hstep : ∃ es, Extends w.client.srv (w.client.next X i).srv es ∧
      Expected (w.follow honest (w.client.next X i) es) := by
    generalize w.client.next X i = s' at hmoved htrap
    by_cases htask : ∃ a, i = .task a
    · obtain ⟨a, rfl⟩ := htask
      cases hmoved with
      | task a x srv' link' htaken =>
        have hx : x ≠ .trap := by
          rintro rfl
          exact htrap rfl
        exact hw.task (htaken.sends hx hC.1) hC.2 hi.2
    · obtain ⟨⟨es, hext, hes⟩, -⟩ := hmoved.covers (fun a ha => htask ⟨a, ha⟩) htrap hC.1
      refine ⟨es, hext, ?_⟩
      intro a
      have hflight := follow_inFlight hext a
      have hcover := hes a
      have hle := hw a
      rw [List.count_nil] at hcover
      show _ ≤ held s'.srv a
      omega
  obtain ⟨es, hext, hexpected⟩ := hstep
  rw [next_follow hext.log]
  exact hexpected

/-- **A step of the broker**: an answer takes the place of its question. -/
theorem Expected.broker {k : Reply} (hw : Expected w) (hk : (world X honest).Enabled w (.inr k)) :
    Expected ((world X honest).next w (.inr k)) := by
  intro a
  have hle := hw a
  cases k with
  | answer =>
    have hup : w.wire.up ≠ [] := hk
    obtain ⟨p, rest, hsplit⟩ := List.exists_cons_of_ne_nil hup
    have hnext : (world X honest).next w (.inr .answer) =
        ⟨w.client, ⟨rest, w.wire.down ++ p.reply.toList⟩, ()⟩ := by
      show (⟨w.client, (honest.next w.peer w.wire .answer).2, _⟩ : World Unit) = _
      unfold honest
      simp only [hsplit]
    rw [hnext]
    unfold inFlight World.pipe at *
    rw [hsplit, ← List.singleton_append, List.append_assoc, asked_append] at hle
    show asked (rest ++ w.client.srv.txQueue) a +
      acknowledging (w.wire.down ++ p.reply.toList) a ≤ held w.client.srv a
    rw [acknowledging_append, acknowledging_reply]
    omega
  | other m =>
    have hacked : m.acked = none := hk
    show asked w.pipe a + acknowledging (w.wire.down ++ [m]) a ≤ held w.client.srv a
    rw [acknowledging_append, acknowledging_cons, hacked]
    exact hle

end Steps

/-! ## Runs -/

/-- The error that ends the session is not that a packet has not been found. -/
def Pc.Found (pc : Pc) : Prop :=
  ∀ err, pc.error = some err → err ≠ .qos_packet_not_found ∧ err ≠ .pubrel_packet_not_found

/-- No step of the service fails to find a packet. -/
theorem Expected.found_next {X : Externs} {w : World Unit} {i : Input} (hw : Expected w)
    (hi : (world X honest).Enabled w (.inl i)) (hfound : w.client.pc.Found) :
    (w.client.next X i).pc.Found := by
  have hmoved := next_moved X w.client i
  generalize w.client.next X i = s' at hmoved
  by_cases htask : ∃ a, i = .task a
  · obtain ⟨a, rfl⟩ := htask
    cases hmoved with
    | task a x srv' link' htaken =>
      apply htaken.error _ hfound
      intro err hx
      subst hx
      rcases htaken.error_cases with hcommon | ⟨-, hpc, hwait, hstray⟩
      · exact hcommon.2
      · have hhead : w.wire.down.head? = some (a.env.read 0) := by
          have hwaits : w.client.pc.waits = true := by rw [hpc]; rfl
          apply hi.2
          simp [Input.reads, hwaits, hwait]
        exact absurd hstray (hw.found hhead)
  · rcases (hmoved.aside fun a ha => htask ⟨a, ha⟩).2 with hpc | hpc
    · rw [hpc]
      exact hfound
    · rw [hpc]
      exact nofun

/-- **An honest broker is understood.**  In every run in which every message that is sent is
stored, and nothing is sent again while its last copy, or the answer to it, is on its way, no
session ends because a packet has not been found. -/
theorem answers_found (X : Externs) {w₀ w : World Unit} (h₀ : w₀.Begins ())
    (h : (world X honest).Reaches (Patient X) w₀ w) : w.client.pc.Found := by
  have hinv : w.client.pc.Found ∧ (w.client.pc ≠ .trapped → Expected w) := by
    apply h.invariant (I := fun w => w.client.pc.Found ∧ (w.client.pc ≠ .trapped → Expected w))
    · constructor
      · rw [h₀.client.pc]
        exact nofun
      · intro _ a
        unfold inFlight World.pipe
        rw [h₀.wire, h₀.client.srv]
        exact Nat.zero_le _
    · rintro w (i | k) ⟨hfound, hexpected⟩ henabled hC
      · have hw := hexpected (enabled_untrapped henabled.1)
        exact ⟨hw.found_next henabled hfound, hw.client henabled hC⟩
      · exact ⟨hfound, fun htrap => (hexpected htrap).broker henabled⟩
  exact hinv.1

/-! ## An answer that comes too late -/

namespace World

def silent : World Unit := ⟨.initial, .empty, ()⟩

theorem silent_begins : silent.Begins () := ⟨Sys.initial_initial, rfl, rfl⟩

/-- The first `connect`, and a message. -/
def published : List (Input ⊕ Reply) :=
  Input.joined .other .answer ++ Input.rounds.map .inl ++ [.inl .pub]

/-- One cycle of `loop` that sends a packet of `n` bytes. -/
def cycle (n : Int) : List (Input ⊕ Reply) :=
  Input.rounds.map .inl ++ [.inl (.send n), .inl .go]

def pubrec : Inbound := .pubrec (some ⟨.pubrec, false, 24609⟩)

def pubcomp : Inbound := .pubcomp (some ⟨.pubcomp, false, 24609⟩)

/-- The message is answered, and so is its PUBREL. -/
def answered : List (Input ⊕ Reply) :=
  published ++ cycle 17 ++ [.inr .answer, .inl (.receive pubrec)] ++ cycle 4 ++
    [.inr .answer, .inl (.receive pubcomp)]

/-- The message expires before it is answered, and both copies are answered. -/
def hurried : List (Input ⊕ Reply) :=
  published ++ cycle 17 ++ [.inl (.clock 3000), .inl .go] ++ cycle 17 ++
    [.inr .answer, .inr .answer, .inl (.receive pubrec), .inl (.receive pubrec)]

end World

theorem answers_found_answered :
    ((world .documented honest).run World.silent World.answered).client.pc.Found :=
  answers_found .documented World.silent_begins (System.reaches_run (by decide +kernel))

/-- The answer to a copy comes when the entry has gone. -/
theorem late_answer_lost : ¬∀ (X : Externs) (w₀ w : World Unit), w₀.Begins () →
    (world X honest).Reaches System.Free w₀ w → w.client.pc.Found := by
  intro h
  have hreach : (world .documented honest).Reaches System.Free World.silent
      ((world .documented honest).run World.silent World.hurried) :=
    System.reaches_run (by decide +kernel)
  have herror : ((world .documented honest).run World.silent World.hurried).client.pc.error =
      some .qos_packet_not_found := by decide +kernel
  exact (h .documented World.silent _ World.silent_begins hreach _ herror).1 rfl

end Miso.Mqtt

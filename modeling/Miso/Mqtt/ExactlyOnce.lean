import Miso.Mqtt.World
import Miso.Mqtt.Receiver

/-!
# Messages of quality of service 2 from the broker

* `sender` — a broker that transfers messages: PUBLISH, repeated until PUBREC arrives, and then
  PUBREL; an identifier is used again only after PUBCOMP;
* `Orderly` — the step of the service finds the messages of no other transfer in its way;
* `exactly_once` — the messages handed over are those of the transfers that PUBREL completes, in
  order and once each.
-/

namespace Miso.Mqtt

open Zig Net

/-! ## The broker -/

/-- How far the transfer under an identifier is. -/
inductive Transfer where
  | idle
  /-- PUBLISH has been sent. -/
  | publishing (msg : Message)
  /-- PUBREC has arrived. -/
  | recorded (msg : Message)
  /-- PUBREL has been sent. -/
  | releasing (msg : Message)
  deriving DecidableEq, Repr

/-- The transfers of a broker; the two lists only record what happens. -/
structure Broker where
  transfer : UInt16 → Transfer
  /-- The messages of all transfers so far. -/
  started : List Message
  /-- The messages whose PUBREL the service has read. -/
  due : List Message

/-- A step of the broker. -/
inductive Act where
  /-- A new message is sent. -/
  | publish (msg : Message)
  /-- It is sent once more. -/
  | repeated (packetId : UInt16)
  /-- The next packet is read. -/
  | read
  /-- PUBREL is sent. -/
  | release (packetId : UInt16)
  /-- A packet about something else is sent. -/
  | other (m : Inbound)
  deriving DecidableEq, Repr

namespace Broker

def set (b : Broker) (packetId : UInt16) (t : Transfer) : Broker :=
  { b with transfer := Function.update b.transfer packetId t }

/-- What a packet of the service does to the transfer under its identifier. -/
def receive (b : Broker) : Packet → Broker
  | .pubrec packetId =>
    match b.transfer packetId with
    | .publishing msg => b.set packetId (.recorded msg)
    | _ => b
  | .pubcomp packetId =>
    match b.transfer packetId with
    | .releasing _ => b.set packetId .idle
    | _ => b
  | _ => b

def Enabled (b : Broker) (w : Wire) : Act → Prop
  | .publish msg => b.transfer msg.packetId = .idle ∧ msg.topic ≠ []
  | .repeated packetId =>
    match b.transfer packetId with
    | .publishing _ => True
    | _ => False
  | .read => w.up ≠ []
  | .release packetId =>
    match b.transfer packetId with
    | .recorded _ => True
    | _ => False
  | .other m => m.qos2 = none ∧ m.released = none

instance (b : Broker) (w : Wire) : ∀ k : Act, Decidable (b.Enabled w k)
  | .publish _ | .other _ => inferInstanceAs (Decidable (_ ∧ _))
  | .read => inferInstanceAs (Decidable (_ ≠ _))
  | .repeated packetId =>
    match h : b.transfer packetId with
    | .publishing _ => isTrue (by simp [Enabled, h])
    | .idle | .recorded _ | .releasing _ => isFalse (by simp [Enabled, h])
  | .release packetId =>
    match h : b.transfer packetId with
    | .recorded _ => isTrue (by simp [Enabled, h])
    | .idle | .publishing _ | .releasing _ => isFalse (by simp [Enabled, h])

def send (w : Wire) (m : Inbound) : Wire := { w with down := w.down ++ [m] }

def next (b : Broker) (w : Wire) : Act → Broker × Wire
  | .publish msg =>
    ({ b.set msg.packetId (.publishing msg) with started := b.started ++ [msg] },
      send w (.publish2 false msg.packetId msg.topic msg.payload))
  | .repeated packetId =>
    match b.transfer packetId with
    | .publishing msg => (b, send w (.publish2 true packetId msg.topic msg.payload))
    | _ => (b, w)
  | .read =>
    match w.up with
    | [] => (b, w)
    | p :: rest => (b.receive p, { w with up := rest })
  | .release packetId =>
    match b.transfer packetId with
    | .recorded msg => (b.set packetId (.releasing msg), send w (.release packetId))
    | _ => (b, w)
  | .other m => (b, send w m)

/-- The message of a PUBREL that the service reads is due. -/
def observe (b : Broker) : Event → Broker
  | .received m =>
    match m.released with
    | some packetId =>
      match b.transfer packetId with
      | .releasing msg => { b with due := b.due ++ [msg] }
      | _ => b
    | none => b
  | _ => b

end Broker

/-- The broker as a peer of the service. -/
def sender : Peer Broker Act where
  Enabled := Broker.Enabled
  next := Broker.next
  observe := Broker.observe

instance (b : Broker) (w : Wire) (k : Act) : Decidable (sender.Enabled b w k) :=
  inferInstanceAs (Decidable (b.Enabled w k))

/-! ## What is handed over -/

/-- The messages of quality of service 2 that have been handed over. -/
def handed (l : List Event) : List Message :=
  l.filterMap fun
    | .handover packetId .qos2 topic payload => some ⟨packetId, topic, payload⟩
    | _ => none

/-- The message that the pubrel handler is about to hand over. -/
def Pc.holding (pc : Pc) : List Message := (pc.hand.bind fun h => h.2.message).toList

section Orderly

variable (X : Externs)

/-- A message is stored beside copies of itself only, and a PUBREL finds its message and can be
answered. -/
structure Inbound.Orderly (ok : Os → Nat → Bool) (s : Service) (m : Inbound) : Prop where
  publish : ∀ r ∈ m.qos2, Ready X ok s (.pubrec r.packetId) →
    ∀ e ∈ s.qos2Queue, e.packetId = r.packetId → e.message = r.message
  pubrel : m.Finds X ok s

/-- **The step of the service finds no message of another transfer in its way.** -/
def Orderly (w : World Broker) : Input ⊕ Act → Prop
  | .inl (.task a) => w.client.pc.Handles X (Inbound.Orderly X a.env.ok w.client.srv) a w.client.srv
    (w.client.start a).link
  | _ => True

instance (ok : Os → Nat → Bool) (s : Service) (m : Inbound) : Decidable (m.Orderly X ok s) :=
  decidable_of_iff ((∀ r ∈ m.qos2, Ready X ok s (.pubrec r.packetId) →
      ∀ e ∈ s.qos2Queue, e.packetId = r.packetId → e.message = r.message) ∧ m.Finds X ok s)
    ⟨fun ⟨h₁, h₂⟩ => ⟨h₁, h₂⟩, fun ⟨h₁, h₂⟩ => ⟨h₁, h₂⟩⟩

instance (w : World Broker) : ∀ i : Input ⊕ Act, Decidable (Orderly X w i)
  | .inl (.task _) => inferInstanceAs (Decidable (Pc.Handles _ _ _ _ _ _))
  | .inl (.job _ _) | .inl (.resume _) | .inl (.clock _) | .inr _ =>
    inferInstanceAs (Decidable True)

end Orderly

/-! ## What is on its way -/

/-- Nothing about the identifier is on its way to the service. -/
def Quiet (id : UInt16) (l : List Inbound) : Prop :=
  ∀ m ∈ l, m.released ≠ some id ∧ ∀ r, m.qos2 = some r → r.packetId ≠ id

/-- Copies of the message are on their way to the service. -/
def Copies (msg : Message) (l : List Inbound) : Prop :=
  ∀ m ∈ l, m.released ≠ some msg.packetId ∧
    ∀ r, m.qos2 = some r → r.packetId = msg.packetId → r.message = some msg

/-- PUBREL is on its way to the service, behind copies of the message. -/
def Coming (msg : Message) (l : List Inbound) : Prop :=
  ∃ l₁ m l₂, l = l₁ ++ m :: l₂ ∧ Copies msg l₁ ∧ m.released = some msg.packetId ∧
    Quiet msg.packetId l₂

/-- Behind PUBCOMP nothing about the identifier is on its way to the broker. -/
def Last (id : UInt16) (l : List Packet) : Prop :=
  ∀ l₁ l₂, l = l₁ ++ .pubcomp id :: l₂ → .pubrec id ∉ l₂ ∧ .pubcomp id ∉ l₂

/-- What is stored under the identifier is the message. -/
def Seen (msg : Message) (l : List QueuedMessage) : Prop :=
  ∀ m ∈ l, m.packetId = msg.packetId → m.message = some msg

/-- The packet is not about the transfer. -/
def Packet.Apart (id : UInt16) (p : Packet) : Prop := p ≠ .pubrec id ∧ p ≠ .pubcomp id

theorem Quiet.append {id : UInt16} {l l' : List Inbound} (h : Quiet id l) (h' : Quiet id l') :
    Quiet id (l ++ l') := by
  intro m hm
  rcases List.mem_append.mp hm with hm | hm
  · exact h m hm
  · exact h' m hm

theorem Quiet.suffix {id : UInt16} {l l' : List Inbound} (h : Quiet id l) (hl : l' <:+ l) :
    Quiet id l' := fun m hm => h m (hl.mem hm)

theorem Quiet.copies {msg : Message} {l : List Inbound} (h : Quiet msg.packetId l) :
    Copies msg l := fun m hm => ⟨(h m hm).1, fun r hr hid => absurd hid ((h m hm).2 r hr)⟩

theorem Copies.append {msg : Message} {l l' : List Inbound} (h : Copies msg l)
    (h' : Copies msg l') : Copies msg (l ++ l') := by
  intro m hm
  rcases List.mem_append.mp hm with hm | hm
  · exact h m hm
  · exact h' m hm

theorem Copies.suffix {msg : Message} {l l' : List Inbound} (h : Copies msg l) (hl : l' <:+ l) :
    Copies msg l' := fun m hm => h m (hl.mem hm)

theorem Coming.append {msg : Message} {l l' : List Inbound} (h : Coming msg l)
    (h' : Quiet msg.packetId l') : Coming msg (l ++ l') := by
  obtain ⟨l₁, m, l₂, rfl, hcopies, hm, hquiet⟩ := h
  exact ⟨l₁, m, l₂ ++ l', by simp, hcopies, hm, hquiet.append h'⟩

/-- PUBREL is still on its way, or nothing is. -/
theorem Coming.suffix {msg : Message} {l l' : List Inbound} (h : Coming msg l) (hl : l' <:+ l) :
    Coming msg l' ∨ Quiet msg.packetId l' := by
  obtain ⟨l₁, m, l₂, rfl, hcopies, hm, hquiet⟩ := h
  obtain ⟨t, ht⟩ := hl
  rcases List.append_eq_append_iff.mp ht with ⟨a, hl₁, hl'⟩ | ⟨a, -, ha⟩
  · refine .inl ⟨a, m, l₂, hl', hcopies.suffix ⟨t, hl₁.symm⟩, hm, hquiet⟩
  · cases a with
    | nil => exact .inl ⟨[], m, l₂, ha.symm, nofun, hm, hquiet⟩
    | cons b a =>
      obtain ⟨-, hl₂⟩ := List.cons.inj ha
      exact .inr (hquiet.suffix ⟨a, hl₂.symm⟩)

theorem Last.append {id : UInt16} {l l' : List Packet} (h : Last id l)
    (h' : ∀ p ∈ l', p.Apart id) : Last id (l ++ l') := by
  intro l₁ l₂ hsplit
  rcases List.append_eq_append_iff.mp hsplit with ⟨a, -, hl'⟩ | ⟨a, hl, hl₂⟩
  · exact absurd rfl (h' (.pubcomp id) (by simp [hl'])).2
  · cases a with
    | nil =>
      rw [List.nil_append] at hl₂
      exact absurd rfl (h' (.pubcomp id) (hl₂ ▸ List.mem_cons_self)).2
    | cons b a =>
      obtain ⟨rfl, rfl⟩ := List.cons.inj hl₂
      obtain ⟨hrec, hcomp⟩ := h l₁ a hl
      constructor
      · intro hmem
        rcases List.mem_append.mp hmem with hmem | hmem
        · exact hrec hmem
        · exact absurd rfl (h' _ hmem).1
      · intro hmem
        rcases List.mem_append.mp hmem with hmem | hmem
        · exact hcomp hmem
        · exact absurd rfl (h' _ hmem).2

theorem Last.suffix {id : UInt16} {l l' : List Packet} (h : Last id l) (hl : l' <:+ l) :
    Last id l' := by
  obtain ⟨t, rfl⟩ := hl
  intro l₁ l₂ hsplit
  exact h (t ++ l₁) l₂ (by rw [hsplit, List.append_assoc])

theorem last_of_notMem {id : UInt16} {l : List Packet} (h : .pubcomp id ∉ l) : Last id l := by
  intro l₁ l₂ hsplit
  exact absurd (by simp [hsplit]) h

theorem notMem_apart {id : UInt16} {p : Packet} {l l' l'' : List Packet} (h : p ∉ l)
    (hp : ¬p.Apart id) (h' : ∀ p ∈ l', p.Apart id) (hl : l'' <:+ l ++ l') : p ∉ l'' := by
  intro hmem
  rcases List.mem_append.mp (hl.mem hmem) with hmem | hmem
  · exact h hmem
  · exact hp (h' p hmem)

/-! ## The state of a transfer -/

/-- What the transfers depend on. -/
structure Scene where
  queue : List QueuedMessage
  pipe : List Packet
  down : List Inbound
  started : List Message
  due : List Message

def World.scene (w : World Broker) : Scene :=
  ⟨w.client.srv.qos2Queue, w.pipe, w.wire.down, w.peer.started, w.peer.due⟩

/-- The message is not due yet. -/
def Scene.Open (S : Scene) (msg : Message) : Prop := S.due.count msg < S.started.count msg

/-- **How far the transfer under an identifier is, as the service sees it.** -/
inductive Consistent (id : UInt16) (S : Scene) : Transfer → Prop where
  | idle : Quiet id S.down → .pubrec id ∉ S.pipe → .pubcomp id ∉ S.pipe → Consistent id S .idle
  | publishing (msg : Message) : msg.packetId = id → msg.topic ≠ [] → Copies msg S.down →
    .pubcomp id ∉ S.pipe → (.pubrec id ∈ S.pipe → Seen msg S.queue) → S.Open msg →
    Consistent id S (.publishing msg)
  | recorded (msg : Message) : msg.packetId = id → Copies msg S.down → .pubcomp id ∉ S.pipe →
    Seen msg S.queue → S.Open msg → Consistent id S (.recorded msg)
  | coming (msg : Message) : msg.packetId = id → Coming msg S.down → .pubcomp id ∉ S.pipe →
    Seen msg S.queue → S.Open msg → Consistent id S (.releasing msg)
  | released (msg : Message) : msg.packetId = id → Quiet id S.down → Last id S.pipe →
    Consistent id S (.releasing msg)

/-- What happens beside the transfer under an identifier. -/
structure Beyond (id : UInt16) (S S' : Scene) : Prop where
  queue : ∀ msg, msg.packetId = id → Seen msg S.queue → Seen msg S'.queue
  pipe : ∃ l, S'.pipe <:+ S.pipe ++ l ∧ ∀ p ∈ l, p.Apart id
  down : ∃ l, S'.down <:+ S.down ++ l ∧ Quiet id l
  started : ∀ msg, S.started.count msg ≤ S'.started.count msg
  due : ∀ msg, msg.packetId = id → S'.due.count msg = S.due.count msg

theorem Consistent.beyond {id : UInt16} {S S' : Scene} {t : Transfer} (h : Consistent id S t)
    (hS : Beyond id S S') : Consistent id S' t := by
  obtain ⟨lp, hpipe, hlp⟩ := hS.pipe
  obtain ⟨ld, hdown, hld⟩ := hS.down
  have hopen (msg : Message) (hid : msg.packetId = id) (h : S.Open msg) : S'.Open msg := by
    have hdue := hS.due msg hid
    have hstarted := hS.started msg
    unfold Scene.Open at *
    omega
  have hcomp (h : .pubcomp id ∉ S.pipe) : .pubcomp id ∉ S'.pipe :=
    notMem_apart h (fun hap => hap.2 rfl) hlp hpipe
  have hrec (h : .pubrec id ∉ S.pipe) : .pubrec id ∉ S'.pipe :=
    notMem_apart h (fun hap => hap.1 rfl) hlp hpipe
  cases h with
  | idle hquiet hnorec hnocomp =>
    exact .idle ((hquiet.append hld).suffix hdown) (hrec hnorec) (hcomp hnocomp)
  | publishing msg hid htopic hcopies hnocomp hseen hnot =>
    subst hid
    apply Consistent.publishing msg rfl htopic ((hcopies.append hld.copies).suffix hdown) (hcomp hnocomp)
    · intro hmem
      apply hS.queue msg rfl
      by_contra hunseen
      exact hrec (fun h => hunseen (hseen h)) hmem
    · exact hopen msg rfl hnot
  | recorded msg hid hcopies hnocomp hseen hnot =>
    subst hid
    exact .recorded msg rfl ((hcopies.append hld.copies).suffix hdown) (hcomp hnocomp)
      (hS.queue msg rfl hseen) (hopen msg rfl hnot)
  | coming msg hid hcoming hnocomp hseen hnot =>
    subst hid
    rcases (hcoming.append hld).suffix hdown with hcoming | hquiet
    · exact .coming msg rfl hcoming (hcomp hnocomp) (hS.queue msg rfl hseen) (hopen msg rfl hnot)
    · exact .released msg rfl hquiet (last_of_notMem (hcomp hnocomp))
  | released msg hid hquiet hlast =>
    exact .released msg hid ((hquiet.append hld).suffix hdown) ((hlast.append hlp).suffix hpipe)

/-! ## Steps of the broker -/

theorem publish2_qos2 (dup : Bool) (packetId : UInt16) (topic payload : List UInt8) :
    (Inbound.publish2 dup packetId topic payload).qos2 =
      some ⟨packetId, .qos2, dup, false, getMQTTString topic, payload⟩ := rfl

theorem publish2_copies {msg : Message} (htopic : msg.topic ≠ []) (dup : Bool) :
    Copies msg [.publish2 dup msg.packetId msg.topic msg.payload] := by
  intro m hm
  rw [List.mem_singleton.mp hm]
  refine ⟨nofun, ?_⟩
  intro r hr _
  rw [publish2_qos2] at hr
  cases hr
  simp [publish_response.message, getMQTTString, htopic]

theorem publish2_quiet {id : UInt16} {msg : Message} (hne : id ≠ msg.packetId) (dup : Bool) :
    Quiet id [.publish2 dup msg.packetId msg.topic msg.payload] := by
  intro m hm
  rw [List.mem_singleton.mp hm]
  refine ⟨nofun, ?_⟩
  intro r hr
  rw [publish2_qos2] at hr
  cases hr
  exact hne.symm

theorem release_released (packetId : UInt16) :
    (Inbound.release packetId).released = some packetId := rfl

theorem release_quiet {id packetId : UInt16} (hne : id ≠ packetId) :
    Quiet id [.release packetId] := by
  intro m hm
  rw [List.mem_singleton.mp hm, release_released]
  exact ⟨fun h => hne (Option.some.inj h).symm, nofun⟩

/-- A packet is sent that is not about the transfer. -/
theorem Beyond.send {id : UInt16} {S : Scene} {m : Inbound} (hm : Quiet id [m]) :
    Beyond id S { S with down := S.down ++ [m] } where
  queue _ _ h := h
  pipe := ⟨[], by simp, nofun⟩
  down := ⟨[m], List.suffix_rfl, hm⟩
  started _ := Nat.le_refl _
  due _ _ := rfl

theorem Beyond.start {id : UInt16} {S : Scene} (msg : Message) :
    Beyond id S { S with started := S.started ++ [msg] } where
  queue _ _ h := h
  pipe := ⟨[], by simp, nofun⟩
  down := ⟨[], by simp, nofun⟩
  started m := by simp
  due _ _ := rfl

theorem Beyond.read {id : UInt16} {S : Scene} {l : List Packet} (h : l <:+ S.pipe) :
    Beyond id S { S with pipe := l } where
  queue _ _ h := h
  pipe := ⟨[], by simpa using h, nofun⟩
  down := ⟨[], by simp, nofun⟩
  started _ := Nat.le_refl _
  due _ _ := rfl

section Broker

variable {S : Scene} {b : Broker}

@[simp] theorem Broker.set_self (b : Broker) (id : UInt16) (t : Transfer) :
    (b.set id t).transfer id = t := Function.update_self ..

theorem Broker.set_ne (b : Broker) {id id' : UInt16} (t : Transfer) (h : id' ≠ id) :
    (b.set id t).transfer id' = b.transfer id' := Function.update_of_ne h ..

/-- A transfer has been changed, and what the others are about has not. -/
theorem consistent_set {S' : Scene} {id : UInt16} {t : Transfer}
    (h : ∀ id, Consistent id S (b.transfer id)) (hbeyond : ∀ id', id' ≠ id → Beyond id' S S')
    (ht : Consistent id S' t) (id' : UInt16) :
    Consistent id' S' ((b.set id t).transfer id') := by
  by_cases hid : id' = id
  · subst hid
    rw [Broker.set_self]
    exact ht
  · rw [Broker.set_ne b t hid]
    exact (h id').beyond (hbeyond id' hid)

/-- A new transfer. -/
theorem consistent_publish {msg : Message} (h : ∀ id, Consistent id S (b.transfer id))
    (hidle : b.transfer msg.packetId = .idle) (htopic : msg.topic ≠ [])
    (hdue : S.due.count msg ≤ S.started.count msg) (id : UInt16) :
    Consistent id { S with down := S.down ++ [.publish2 false msg.packetId msg.topic msg.payload],
                           started := S.started ++ [msg] }
      ((b.set msg.packetId (.publishing msg)).transfer id) := by
  apply consistent_set (fun id => (h id).beyond (.start msg)) (fun id hne => .send
    (publish2_quiet hne false))
  have hmsg := h msg.packetId
  rw [hidle] at hmsg
  cases hmsg with
  | idle hquiet hnorec hnocomp =>
    have hopen : S.due.count msg < (S.started ++ [msg]).count msg := by
      rw [List.count_append, List.count_singleton_self]
      omega
    exact .publishing msg rfl htopic (hquiet.copies.append (publish2_copies htopic false))
      hnocomp (fun hmem => absurd hmem hnorec) hopen

/-- A copy of the message is sent. -/
theorem consistent_repeated {msg : Message} {packetId : UInt16}
    (h : ∀ id, Consistent id S (b.transfer id)) (ht : b.transfer packetId = .publishing msg)
    (id : UInt16) :
    Consistent id { S with down := S.down ++ [.publish2 true packetId msg.topic msg.payload] }
      (b.transfer id) := by
  have hmsg := h packetId
  rw [ht] at hmsg
  cases hmsg with
  | publishing _ hid htopic hcopies hnocomp hseen hnot =>
    subst hid
    by_cases hne : id = msg.packetId
    · subst hne
      rw [ht]
      exact .publishing msg rfl htopic (hcopies.append (publish2_copies htopic true)) hnocomp hseen
        hnot
    · exact (h id).beyond (.send (publish2_quiet hne true))

theorem consistent_release {msg : Message} {packetId : UInt16}
    (h : ∀ id, Consistent id S (b.transfer id)) (ht : b.transfer packetId = .recorded msg)
    (id : UInt16) : Consistent id { S with down := S.down ++ [.release packetId] }
      ((b.set packetId (.releasing msg)).transfer id) := by
  apply consistent_set h (fun id hne => .send (release_quiet hne))
  have hmsg := h packetId
  rw [ht] at hmsg
  cases hmsg with
  | recorded _ hid hcopies hnocomp hseen hnot =>
    subst hid
    exact .coming msg rfl ⟨S.down, .release msg.packetId, [], rfl, hcopies, rfl, nofun⟩ hnocomp hseen
      hnot

/-- The next packet is read. -/
theorem consistent_receive {p : Packet} {rest : List Packet}
    (h : ∀ id, Consistent id S (b.transfer id)) (hpipe : S.pipe = p :: rest) (id : UInt16) :
    Consistent id { S with pipe := rest } ((b.receive p).transfer id) := by
  have hrest : rest <:+ S.pipe := hpipe ▸ List.suffix_cons p rest
  have hother (id : UInt16) : Consistent id { S with pipe := rest } (b.transfer id) :=
    (h id).beyond (.read hrest)
  cases p with
  | pubrec packetId =>
    have hp := h packetId
    unfold Broker.receive
    dsimp only
    split
    · rename_i msg ht
      rw [ht] at hp
      apply consistent_set h (fun _ _ => .read hrest)
      cases hp with
      | publishing _ hid htopic hcopies hnocomp hseen hnot =>
        exact .recorded msg hid hcopies (fun hmem => hnocomp (hrest.mem hmem))
          (hseen (by simp [hpipe])) hnot
    · exact hother id
  | pubcomp packetId =>
    have hp := h packetId
    unfold Broker.receive
    dsimp only
    split
    · rename_i msg ht
      rw [ht] at hp
      apply consistent_set h (fun _ _ => .read hrest)
      cases hp with
      | coming _ hid _ hnocomp => exact absurd (by simp [hpipe]) hnocomp
      | released _ hid hquiet hlast =>
        obtain ⟨hnorec, hnocomp⟩ := hlast [] rest hpipe
        exact .idle hquiet hnorec hnocomp
    · exact hother id
  | _ => exact hother id

end Broker

/-! ## Steps of the service -/

theorem last_concat {id : UInt16} {l : List Packet} (h : .pubcomp id ∉ l) :
    Last id (l ++ [.pubcomp id]) := by
  intro l₁ l₂ hsplit
  rcases List.eq_nil_or_concat l₂ with rfl | ⟨l₂, p, rfl⟩
  · exact ⟨nofun, nofun⟩
  · have hl : l ++ [.pubcomp id] = (l₁ ++ .pubcomp id :: l₂) ++ [p] := by simp [hsplit]
    obtain ⟨rfl, -⟩ := List.append_inj' hl rfl
    exact absurd (by simp) h

theorem handed_append (l l' : List Event) : handed (l ++ l') = handed l ++ handed l' :=
  List.filterMap_append

theorem handed_aside {l : List Event} (h : ∀ ev ∈ l, ev.aside = true) : handed l = [] := by
  unfold handed
  rw [List.filterMap_eq_nil_iff]
  intro ev hev
  have haside := h ev hev
  cases ev with
  | handover _ qos => cases qos <;> first | rfl | cases haside
  | _ => rfl

/-- The packets that a step puts into `txQueue` are not about received messages. -/
theorem queuedPackets_aside {l : List Event} (h : ∀ ev ∈ l, ev.aside = true) (id : UInt16) :
    ∀ p ∈ queuedPackets l, p.Apart id := by
  intro p hp
  obtain ⟨ev, hev, hqueued⟩ := List.mem_filterMap.mp hp
  have haside := h ev hev
  cases ev with
  | queued q =>
    cases hqueued
    constructor
    · rintro rfl
      cases haside
    · rintro rfl
      cases haside
  | _ => cases hqueued

theorem receive_same (b : Broker) (p : Packet) :
    (b.receive p).started = b.started ∧ (b.receive p).due = b.due := by
  unfold Broker.receive
  split
  · split <;> exact ⟨rfl, rfl⟩
  · split <;> exact ⟨rfl, rfl⟩
  · exact ⟨rfl, rfl⟩

theorem observe_same (b : Broker) (ev : Event) :
    (b.observe ev).transfer = b.transfer ∧ (b.observe ev).started = b.started := by
  unfold Broker.observe
  split
  · split
    · split <;> exact ⟨rfl, rfl⟩
    · exact ⟨rfl, rfl⟩
  · exact ⟨rfl, rfl⟩

theorem observe_unread (b : Broker) {l : List Event}
    (h : ∀ m, .received m ∈ l → m.released = none) : l.foldl Broker.observe b = b := by
  induction l with
  | nil => rfl
  | cons ev l ih =>
    have hev : b.observe ev = b := by
      cases ev with
      | received m => simp only [Broker.observe, h m List.mem_cons_self]
      | _ => rfl
    rw [List.foldl_cons, hev]
    exact ih fun m hm => h m (List.mem_cons_of_mem _ hm)

/-- **What the invariant says between two steps.** -/
structure Exact (w : World Broker) : Prop where
  consistent : ∀ id, Consistent id w.scene (w.peer.transfer id)
  due : ∀ msg, w.peer.due.count msg ≤ w.peer.started.count msg
  handed : handed w.client.srv.log ++ w.client.pc.holding = w.peer.due
  stocked : Stocked w.client.srv w.client.pc
  named : ∀ h ∈ w.client.pc.hand, h.2.packetId = h.1
  acked : w.client.pc.Acked

/-- What has been handed over is due, and nothing is due more often than it has been sent. -/
structure Safe (w : World Broker) : Prop where
  handed : handed w.client.srv.log <+: w.peer.due
  due : ∀ msg, w.peer.due.count msg ≤ w.peer.started.count msg

theorem Exact.safe {w : World Broker} (hw : Exact w) : Safe w where
  handed := ⟨_, hw.handed⟩
  due := hw.due

section Follow

variable {w : World Broker} {s' : Sys} {es : List Event}

theorem follow_transfer (w : World Broker) (s' : Sys) (es : List Event) :
    (w.follow sender s' es).peer.transfer = w.peer.transfer ∧
      (w.follow sender s' es).peer.started = w.peer.started := by
  show (es.foldl Broker.observe w.peer).transfer = _ ∧ (es.foldl Broker.observe w.peer).started = _
  generalize w.peer = b
  induction es generalizing b with
  | nil => exact ⟨rfl, rfl⟩
  | cons ev es ih =>
    obtain ⟨ht, hs⟩ := observe_same b ev
    obtain ⟨ht', hs'⟩ := ih (b.observe ev)
    exact ⟨ht'.trans ht, hs'.trans hs⟩

/-- A step of the service beside a transfer. -/
theorem Beyond.follow {id : UInt16} (hext : Extends w.client.srv s'.srv es)
    (hqueue : ∀ msg, msg.packetId = id → Seen msg w.client.srv.qos2Queue →
      Seen msg s'.srv.qos2Queue)
    (hpackets : ∀ p ∈ queuedPackets es, p.Apart id)
    (hdue : ∀ msg, msg.packetId = id →
      (w.follow sender s' es).peer.due.count msg = w.peer.due.count msg) :
    Beyond id w.scene (w.follow sender s' es).scene where
  queue := hqueue
  pipe := ⟨queuedPackets es, pipe_suffix hext, hpackets⟩
  down := by
    have hdown : (w.wire.events es).down <:+ w.wire.down ++ [] := by
      rw [List.append_nil]
      exact w.wire.down_suffix es
    exact ⟨[], hdown, nofun⟩
  started msg := by
    show w.peer.started.count msg ≤ (w.follow sender s' es).peer.started.count msg
    rw [(follow_transfer w s' es).2]
  due := hdue

/-- A step of the service beside all transfers. -/
theorem Exact.follow (hw : Exact w) (hext : Extends w.client.srv s'.srv es)
    (hqueue : ∀ msg, Seen msg w.client.srv.qos2Queue → Seen msg s'.srv.qos2Queue)
    (hpackets : ∀ id, ∀ p ∈ queuedPackets es, p.Apart id)
    (hread : ∀ m, .received m ∈ es → m.released = none)
    (hhanded : Mqtt.handed es ++ s'.pc.holding = w.client.pc.holding)
    (hstocked : Stocked s'.srv s'.pc) (hnamed : ∀ h ∈ s'.pc.hand, h.2.packetId = h.1)
    (hacked : s'.pc.Acked) : Exact (w.follow sender s' es) := by
  have hpeer : (w.follow sender s' es).peer = w.peer := observe_unread w.peer hread
  constructor
  · intro id
    rw [hpeer]
    exact (hw.consistent id).beyond
      (.follow hext (fun msg _ => hqueue msg) (hpackets id) (fun _ _ => by rw [hpeer]))
  · rw [hpeer]
    exact hw.due
  · show Mqtt.handed s'.srv.log ++ s'.pc.holding = _
    rw [hpeer, hext.log, handed_append, List.append_assoc, hhanded]
    exact hw.handed
  · exact hstocked
  · exact hnamed
  · exact hacked

/-- A copy of a message that is read belongs to the transfer that is under way. -/
theorem Consistent.copy {id : UInt16} {S : Scene} {t : Transfer} {m : Inbound}
    {tail : List Inbound} {r : publish_response} (h : Consistent id S t) (hdown : S.down = m :: tail)
    (hr : m.qos2 = some r) (hid : r.packetId = id) :
    ∃ msg, msg.packetId = id ∧ r.message = some msg ∧ ∀ S' : Scene, Seen msg S'.queue →
      S'.down <:+ tail → S'.pipe <:+ S.pipe ++ [.pubrec id] → (S.Open msg → S'.Open msg) →
      Consistent id S' t := by
  have hmem : m ∈ S.down := hdown ▸ List.mem_cons_self
  have htail : tail <:+ S.down := hdown ▸ List.suffix_cons m tail
  have hcomp {S' : Scene} (h : .pubcomp id ∉ S.pipe) (hpipe : S'.pipe <:+ S.pipe ++ [.pubrec id]) :
      .pubcomp id ∉ S'.pipe := by
    intro hmem
    rcases List.mem_append.mp (hpipe.mem hmem) with hmem | hmem
    · exact h hmem
    · cases List.mem_singleton.mp hmem
  cases h with
  | idle hquiet => exact absurd hid ((hquiet m hmem).2 r hr)
  | publishing msg hmsg htopic hcopies hnocomp _ hopen =>
    subst hmsg
    refine ⟨msg, rfl, (hcopies m hmem).2 r hr hid, ?_⟩
    intro S' hseen hdown' hpipe hopen'
    exact .publishing msg rfl htopic (hcopies.suffix (hdown'.trans htail)) (hcomp hnocomp hpipe)
      (fun _ => hseen) (hopen' hopen)
  | recorded msg hmsg hcopies hnocomp _ hopen =>
    subst hmsg
    refine ⟨msg, rfl, (hcopies m hmem).2 r hr hid, ?_⟩
    intro S' hseen hdown' hpipe hopen'
    exact .recorded msg rfl (hcopies.suffix (hdown'.trans htail)) (hcomp hnocomp hpipe) hseen
      (hopen' hopen)
  | coming msg hmsg hcoming hnocomp _ hopen =>
    subst hmsg
    obtain ⟨l₁, m', l₂, hsplit, hcopies, hm', hquiet⟩ := hcoming
    cases l₁ with
    | nil =>
      rw [hdown] at hsplit
      obtain ⟨rfl, -⟩ := List.cons.inj hsplit
      rw [qos2_released hr] at hm'
      cases hm'
    | cons b l₁ =>
      rw [hdown] at hsplit
      obtain ⟨rfl, htail'⟩ := List.cons.inj hsplit
      refine ⟨msg, rfl, (hcopies m List.mem_cons_self).2 r hr hid, ?_⟩
      intro S' hseen hdown' hpipe hopen'
      have hcoming : Coming msg tail :=
        ⟨l₁, m', l₂, htail', hcopies.suffix (List.suffix_cons m l₁), hm', hquiet⟩
      rcases hcoming.suffix hdown' with hcoming | hquiet
      · exact .coming msg rfl hcoming (hcomp hnocomp hpipe) hseen (hopen' hopen)
      · exact .released msg rfl hquiet (last_of_notMem (hcomp hnocomp hpipe))
  | released msg _ hquiet => exact absurd hid ((hquiet m hmem).2 r hr)

/-- A PUBREL that is read belongs to the transfer that is under way, and is its end. -/
theorem Consistent.release {id : UInt16} {S : Scene} {t : Transfer} {m : Inbound}
    {tail : List Inbound} (h : Consistent id S t) (hdown : S.down = m :: tail)
    (hm : m.released = some id) :
    ∃ msg, msg.packetId = id ∧ t = .releasing msg ∧ Seen msg S.queue ∧ S.Open msg ∧
      ∀ S' : Scene, S'.down <:+ tail → S'.pipe <:+ S.pipe ++ [.pubcomp id] →
        Consistent id S' t := by
  have hmem : m ∈ S.down := hdown ▸ List.mem_cons_self
  cases h with
  | idle hquiet => exact absurd hm (hquiet m hmem).1
  | publishing msg hmsg _ hcopies =>
    subst hmsg
    exact absurd hm (hcopies m hmem).1
  | recorded msg hmsg hcopies =>
    subst hmsg
    exact absurd hm (hcopies m hmem).1
  | coming msg hmsg hcoming hnocomp hseen hopen =>
    subst hmsg
    obtain ⟨l₁, m', l₂, hsplit, hcopies, -, hquiet⟩ := hcoming
    cases l₁ with
    | nil =>
      rw [hdown] at hsplit
      obtain ⟨-, htail⟩ := List.cons.inj hsplit
      refine ⟨msg, rfl, rfl, hseen, hopen, ?_⟩
      intro S' hdown' hpipe
      exact .released msg rfl ((htail ▸ hquiet).suffix hdown') ((last_concat hnocomp).suffix hpipe)
    | cons b l₁ =>
      rw [hdown] at hsplit
      obtain ⟨rfl, -⟩ := List.cons.inj hsplit
      exact absurd hm (hcopies m List.mem_cons_self).1
  | released msg _ hquiet => exact absurd hm (hquiet m hmem).1

theorem Seen.rest {msg : Message} {f : QueuedMessage → Bool} {l rest : List QueuedMessage}
    {m : QueuedMessage} (h : Seen msg l) (hr : removeFirst f l = some (m, rest)) :
    Seen msg rest := fun m' hm' => h m' (((removeFirst_mem hr).2 m').mpr (.inr hm'))

theorem head_tail {α : Type} {l : List α} {a : α} (h : l.head? = some a) : l = a :: l.tail := by
  cases l with
  | nil => cases h
  | cons b l =>
    cases h
    rfl

/-- A PUBLISH is acknowledged, and its message is stored. -/
theorem Exact.kept {m : Inbound} {r : publish_response} {ok : Os → Nat → Bool} {x : Exit Error Pc}
    {srv' : Service} (hw : Exact w) (hpc : w.client.pc = .receive)
    (hhead : w.wire.down.head? = some m) (hr : m.qos2 = some r)
    (hbeside : ∀ e ∈ w.client.srv.qos2Queue, e.packetId = r.packetId → e.message = r.message)
    (hdel : Delivered ok ((w.client.srv.record [.received m]).enqueue (.pubrec r.packetId))
      r.packetId r x srv')
    (hstocked : Stocked srv' (w.client.pc.next x)) (hacked : (w.client.pc.next x).Acked)
    (link' : Link) :
    ∃ es, Extends w.client.srv srv' es ∧
      Exact (w.follow sender ⟨w.client.pc.next x, srv', link'⟩ es) := by
  have hdown := head_tail hhead
  have hread := qos2_released hr
  obtain ⟨hlog, hstores⟩ := hdel.stores (qos2_qos hr)
  have hreceived : Extends w.client.srv (w.client.srv.record [.received m]) [.received m] :=
    .recorded rfl rfl rfl rfl
  have hqueued : Extends (w.client.srv.record [.received m])
      ((w.client.srv.record [.received m]).enqueue (.pubrec r.packetId))
      [.queued (.pubrec r.packetId)] := .queued rfl rfl
  have hext : Extends w.client.srv srv' [.received m, .queued (.pubrec r.packetId)] :=
    (hreceived.trans hqueued).trans hlog
  have hhand : (w.client.pc.next x).hand = none := by
    rw [hpc]
    exact hdel.hand
  -- what is stored under the identifier of the message afterwards
  have hqueue (e : QueuedMessage) (he : e ∈ srv'.qos2Queue) : e ∈ w.client.srv.qos2Queue ∨
      e.packetId = r.packetId ∧ e.message = r.message := by
    rcases hstores with ⟨hsame, -⟩ | ⟨e', hsame, hid, -, hmsg⟩
    · exact .inl (hsame ▸ he)
    · rw [hsame] at he
      rcases List.mem_append.mp he with he | he
      · exact .inl he
      · rw [List.mem_singleton.mp he]
        exact .inr ⟨hid, hmsg⟩
  have hpeer : (w.follow sender ⟨w.client.pc.next x, srv', link'⟩
      [.received m, .queued (.pubrec r.packetId)]).peer = w.peer := by
    apply observe_unread
    intro m' hm'
    simp only [List.mem_cons, Event.received.injEq, reduceCtorEq, List.not_mem_nil, or_false] at hm'
    exact hm' ▸ hread
  refine ⟨_, hext, ?_⟩
  constructor
  · intro id
    rw [hpeer]
    by_cases hid : id = r.packetId
    · obtain ⟨msg, hmsg, hmessage, hnext⟩ := (hw.consistent id).copy hdown hr hid.symm
      apply hnext
      · intro e he heid
        rcases hqueue e he with he | he
        · rw [hbeside e he (heid.trans (hmsg.trans hid)), hmessage]
        · rw [he.2, hmessage]
      · exact w.wire.down_received m _
      · rw [hid]
        exact pipe_suffix hext
      · intro hopen
        unfold Scene.Open World.scene at *
        rw [hpeer]
        exact hopen
    · apply (hw.consistent id).beyond
      apply Beyond.follow hext
      · intro msg hmsg hseen e he heid
        rcases hqueue e he with he | he
        · exact hseen e he heid
        · exact absurd (he.1.symm.trans (heid.trans hmsg)).symm hid
      · intro p hp
        rw [List.mem_singleton.mp hp]
        exact ⟨fun heq => hid (Packet.pubrec.inj heq).symm, nofun⟩
      · intro msg _
        rw [hpeer]
  · rw [hpeer]
    exact hw.due
  · have hhanded := hw.handed
    rw [hpc] at hhanded
    show Mqtt.handed srv'.log ++ (w.client.pc.next x).holding = _
    rw [hpeer, hext.log, handed_append]
    unfold Pc.holding at hhanded ⊢
    rw [hhand]
    simpa [Mqtt.handed, Pc.hand] using hhanded
  · exact hstocked
  · intro h hmem
    have hmem' : h ∈ (w.client.pc.next x).hand := hmem
    rw [hhand] at hmem'
    cases hmem'
  · exact hacked

/-- A message is released: it is in the hands of the pubrel handler. -/
theorem Exact.released {m : Inbound} {id : UInt16} {msg : QueuedMessage}
    {rest : List QueuedMessage} (hw : Exact w) (hpc : w.client.pc = .receive)
    (hhead : w.wire.down.head? = some m) (hid : m.released = some id)
    (hr : removeFirst (fun m => m.packetId = id) w.client.srv.qos2Queue = some (msg, rest))
    {srv' : Service} (hsrv : srv' = Service.enqueue
      { w.client.srv.record [.received m] with qos2Queue := rest } (.pubcomp id))
    (hstocked : Stocked srv' (.drain (.pubrel id msg))) (link' : Link) :
    ∃ es, Extends w.client.srv srv' es ∧
      Exact (w.follow sender ⟨.drain (.pubrel id msg), srv', link'⟩ es) := by
  have hdown := head_tail hhead
  have hreceived : Extends w.client.srv (w.client.srv.record [.received m]) [.received m] :=
    .recorded rfl rfl rfl rfl
  have hqueued : Extends (w.client.srv.record [.received m]) srv' [.queued (.pubcomp id)] := by
    subst hsrv
    exact .queued rfl rfl
  have hext : Extends w.client.srv srv' [.received m, .queued (.pubcomp id)] :=
    hreceived.trans hqueued
  have hqueue : srv'.qos2Queue = rest := by
    subst hsrv
    rfl
  obtain ⟨msg₀, hmsg₀, htransfer, hseen, hopen, hnext⟩ := (hw.consistent id).release hdown hid
  obtain ⟨hmsgid, hmem⟩ := removeFirst_mem hr
  have hmessage : msg.message = some msg₀ :=
    hseen msg ((hmem msg).mpr (.inl rfl)) ((of_decide_eq_true hmsgid).trans hmsg₀.symm)
  have hpeer : (w.follow sender ⟨.drain (.pubrel id msg), srv', link'⟩
      [.received m, .queued (.pubcomp id)]).peer = { w.peer with due := w.peer.due ++ [msg₀] } := by
    show (w.peer.observe (.received m)).observe (.queued (.pubcomp id)) = _
    simp only [Broker.observe, hid, htransfer]
  refine ⟨_, hext, ?_⟩
  constructor
  · intro id'
    rw [hpeer]
    by_cases hne : id' = id
    · subst hne
      exact hnext _ (w.wire.down_received m _) (pipe_suffix hext)
    · apply (hw.consistent id').beyond
      apply Beyond.follow hext
      · intro msg' _ hseen'
        show Seen msg' srv'.qos2Queue
        rw [hqueue]
        exact hseen'.rest hr
      · intro p hp
        rw [List.mem_singleton.mp hp]
        exact ⟨nofun, fun heq => hne (Packet.pubcomp.inj heq).symm⟩
      · intro msg' hmsg'
        rw [hpeer, List.count_append, List.count_singleton]
        have hdiff : msg₀ ≠ msg' := by
          rintro rfl
          exact hne (hmsg'.symm.trans hmsg₀)
        simp [hdiff]
  · intro msg'
    rw [hpeer]
    have hdue := hw.due msg'
    show (w.peer.due ++ [msg₀]).count msg' ≤ w.peer.started.count msg'
    rw [List.count_append, List.count_singleton]
    by_cases heq : msg₀ = msg'
    · subst heq
      have hlt : w.peer.due.count msg₀ < w.peer.started.count msg₀ := hopen
      simp
      omega
    · simp [heq]
      exact hdue
  · have hhanded := hw.handed
    rw [hpc] at hhanded
    have hholding : (Pc.drain (.pubrel id msg)).holding = [msg₀] := by
      simp [Pc.holding, Pc.hand, hmessage]
    show Mqtt.handed srv'.log ++ (Pc.drain (.pubrel id msg)).holding = _
    rw [hpeer, hext.log, handed_append, hholding]
    have hnone : Mqtt.handed [.received m, .queued (.pubcomp id)] = [] := rfl
    have hbefore : Mqtt.handed w.client.srv.log = w.peer.due := by
      simpa [Pc.holding, Pc.hand] using hhanded
    rw [hnone, List.append_nil, hbefore]
  · exact hstocked
  · intro h hmem'
    cases hmem'
    exact of_decide_eq_true hmsgid
  · trivial

theorem aside_unread {l : List Event} (h : ∀ ev ∈ l, ev.aside = true) (m : Inbound)
    (hm : .received m ∈ l) : m.released = none := by
  have haside := h _ hm
  cases haside

theorem Safe.aside (hw : Safe w) (hext : Extends w.client.srv s'.srv es)
    (hes : ∀ ev ∈ es, ev.aside = true) : Safe (w.follow sender s' es) := by
  have hpeer : (w.follow sender s' es).peer = w.peer := observe_unread w.peer (aside_unread hes)
  constructor
  · show Mqtt.handed s'.srv.log <+: _
    rw [hpeer, hext.log, handed_append, handed_aside hes, List.append_nil]
    exact hw.handed
  · rw [hpeer]
    exact hw.due

theorem Exact.receiver {X : Externs} {a : Answers} {l : Link} {x : Exit Error Pc}
    {srv' : Service} (hw : Exact w)
    (h : Receiver X a.env a.fuel l w.client.srv w.client.pc x srv')
    (hC : w.client.pc.Handles X (Inbound.Orderly X a.env.ok w.client.srv) a w.client.srv l)
    (hhead : ∀ m ∈ (Input.task a).reads w.client, w.wire.down.head? = some m)
    (hacked : (w.client.pc.next x).Acked) (link' : Link) :
    ∃ es, Extends w.client.srv srv' es ∧
      Exact (w.follow sender ⟨w.client.pc.next x, srv', link'⟩ es) := by
  have hstocked := h.stocked hw.stocked
  have hread (hwaits : w.client.pc.waits = true) (hwait : a.env.waitRx 0 = some true) :
      w.wire.down.head? = some (a.env.read 0) := by
    apply hhead
    simp [Input.reads, hwaits, hwait]
  -- a step that neither takes a message in hand nor stores one
  have hquiet {es : List Event} (hext : Extends w.client.srv srv' es)
      (hqueue : ∀ msg, Seen msg w.client.srv.qos2Queue → Seen msg srv'.qos2Queue)
      (hpackets : ∀ id, ∀ p ∈ queuedPackets es, p.Apart id)
      (hunread : ∀ m, .received m ∈ es → m.released = none)
      (hhanded : Mqtt.handed es ++ (w.client.pc.next x).holding = w.client.pc.holding)
      (hnamed : ∀ h ∈ (w.client.pc.next x).hand, h.2.packetId = h.1) :
      ∃ es, Extends w.client.srv srv' es ∧
        Exact (w.follow sender ⟨w.client.pc.next x, srv', link'⟩ es) :=
    ⟨es, hext, hw.follow hext hqueue hpackets hunread hhanded hstocked hnamed hacked⟩
  cases h with
  | aside _ _ hrest hhand =>
    obtain ⟨es, hext, hes⟩ := hrest.log
    have hqueue : srv'.qos2Queue = w.client.srv.qos2Queue := hrest.queue
    apply hquiet hext (fun _ hseen => hqueue ▸ hseen) (queuedPackets_aside hes) (aside_unread hes)
    · simp [handed_aside hes, Pc.holding, hhand]
    · rw [hhand]
      exact hw.named
  | unfinished _ _ hnot => exact absurd hC.finishes hnot
  | read _ _ hwaits hwait hpass hrest hhand =>
    obtain ⟨es, hext, hes⟩ := hrest.log
    have hqueue : srv'.qos2Queue = w.client.srv.qos2Queue := hrest.queue
    have hreceived : Extends w.client.srv (w.client.srv.record [.received (a.env.read 0)])
        [.received (a.env.read 0)] := .recorded rfl rfl rfl rfl
    have hreleased := hC.released (fun _ h => h.pubrel) hwaits hwait hpass
    have hpackets (id : UInt16) :
        ∀ p ∈ queuedPackets ([.received (a.env.read 0)] ++ es), p.Apart id := by
      rw [show queuedPackets ([.received (a.env.read 0)] ++ es) = queuedPackets es from rfl]
      exact queuedPackets_aside hes id
    refine hquiet (hreceived.trans hext) (fun _ hseen => hqueue ▸ hseen) hpackets ?_ ?_ ?_
    · intro m hm
      rcases List.mem_append.mp hm with hm | hm
      · cases List.mem_singleton.mp hm
        exact hreleased
      · exact aside_unread hes m hm
    · rw [handed_append, handed_aside hes]
      simp [Pc.holding, hhand, Pc.waits_hand hwaits, Mqtt.handed]
    · intro h hmem
      rw [hhand] at hmem
      cases hmem
  | kept r _ _ hpc hwait hr hready hdel =>
    have horderly := hpc ▸ hC
    have hhead := hread (by rw [hpc]; rfl) hwait
    exact hw.kept hpc hhead hr ((horderly hwait).publish r hr hready) hdel hstocked hacked link'
  | released id msg rest hpc hwait hid hr hready =>
    have hhead := hread (by rw [hpc]; rfl) hwait
    exact hw.released hpc hhead hid hr rfl hstocked link'
  | unreleased id _ _ _ _ hpc hwait hid _ hnot =>
    have horderly := hpc ▸ hC
    exact absurd ((horderly hwait).pubrel id hid).2 hnot
  | expired msg rest _ _ hpc hr hqueue hext hhand =>
    have hbefore : w.client.pc.hand = none := by
      rw [hpc]
      rfl
    refine hquiet hext (fun _ hseen => hqueue ▸ hseen.rest hr) (fun _ _ h => by cases h)
      (fun _ h => by cases h)
      ?_ ?_
    · simp [Pc.holding, hhand, hbefore, Mqtt.handed]
    · intro h hmem
      rw [hhand] at hmem
      cases hmem
  | completed id msg topic payload _ hpc hc hqueue hext =>
    have hhand : w.client.pc.hand = some (id, msg) := by
      rw [hpc]
      rfl
    have hqos : msg.qos = .qos2 := hw.stocked.hand (id, msg) hhand
    have hid : msg.packetId = id := hw.named (id, msg) hhand
    refine hquiet hext (fun _ hseen => hqueue ▸ hseen) (fun _ _ h => by cases h) ?_ ?_ ?_
    · intro m hm
      cases List.mem_singleton.mp hm
    · have hholding : w.client.pc.holding = [⟨id, topic.bytes, payload.bytes⟩] := by
        simp [Pc.holding, hhand, QueuedMessage.message, hc, hid]
      rw [hholding, hqos]
      rfl
    · intro _ h
      cases h

/-- **A step of the service.** -/
theorem Exact.client {X : Externs} {i : Input} (hw : Exact w)
    (hi : (world X sender).Enabled w (.inl i)) (hC : Orderly X w (.inl i)) :
    Safe ((world X sender).next w (.inl i)) ∧
      ((w.client.next X i).pc ≠ .trapped → Exact ((world X sender).next w (.inl i))) := by
  have hmoved := next_moved X w.client i
  have hstep : ∃ es, Extends w.client.srv (w.client.next X i).srv es ∧
      Safe (w.follow sender (w.client.next X i) es) ∧
      ((w.client.next X i).pc ≠ .trapped → Exact (w.follow sender (w.client.next X i) es)) := by
    generalize w.client.next X i = s' at hmoved
    by_cases htask : ∃ a, i = .task a
    · obtain ⟨a, rfl⟩ := htask
      cases hmoved with
      | task a x srv' link' htaken =>
        obtain ⟨es, hext, hexact⟩ :=
          hw.receiver (htaken.receiver hw.acked) hC hi.2 (htaken.acked hw.acked) link'
        exact ⟨es, hext, hexact.safe, fun _ => hexact⟩
    · obtain ⟨huntouched, hpc⟩ := hmoved.aside fun a ha => htask ⟨a, ha⟩
      obtain ⟨es, hext, hes⟩ := huntouched.log
      have hqueue : s'.srv.qos2Queue = w.client.srv.qos2Queue := huntouched.queue
      refine ⟨es, hext, hw.safe.aside hext hes, ?_⟩
      intro htrap
      have hpc := hpc.resolve_right htrap
      apply hw.follow hext (fun _ hseen => hqueue ▸ hseen) (queuedPackets_aside hes)
        (aside_unread hes)
      · rw [handed_aside hes, hpc, List.nil_append]
      · constructor
        · rw [hqueue]
          exact hw.stocked.queue
        · rw [hpc]
          exact hw.stocked.hand
      · rw [hpc]
        exact hw.named
      · rw [hpc]
        exact hw.acked
  obtain ⟨es, hext, hexact⟩ := hstep
  rw [next_follow hext.log]
  exact hexact

end Follow

section Acted

variable {w : World Broker} {b : Broker} {wire : Wire}

/-- A step of the broker makes nothing due. -/
theorem Safe.acted (hw : Safe w) (hstarted : w.peer.started <+: b.started)
    (hdue : b.due = w.peer.due) : Safe ⟨w.client, wire, b⟩ := by
  constructor
  · show _ <+: b.due
    rw [hdue]
    exact hw.handed
  · intro msg
    obtain ⟨l, hl⟩ := hstarted
    have hcount := hw.due msg
    show b.due.count msg ≤ b.started.count msg
    rw [hdue, ← hl, List.count_append]
    omega

theorem Exact.acted (hw : Exact w)
    (hconsistent : ∀ id, Consistent id (World.scene ⟨w.client, wire, b⟩) (b.transfer id))
    (hstarted : w.peer.started <+: b.started) (hdue : b.due = w.peer.due) :
    Exact ⟨w.client, wire, b⟩ := by
  have hsafe : Safe ⟨w.client, wire, b⟩ := hw.safe.acted hstarted hdue
  constructor
  · exact hconsistent
  · exact hsafe.due
  · show _ = b.due
    rw [hdue]
    exact hw.handed
  · exact hw.stocked
  · exact hw.named
  · exact hw.acked

theorem Broker.next_same (b : Broker) (wire : Wire) (k : Act) :
    b.started <+: (b.next wire k).1.started ∧ (b.next wire k).1.due = b.due := by
  unfold Broker.next
  cases k with
  | publish msg => exact ⟨List.prefix_append .., rfl⟩
  | repeated packetId =>
    dsimp only
    split <;> exact ⟨List.prefix_rfl, rfl⟩
  | read =>
    dsimp only
    split
    · exact ⟨List.prefix_rfl, rfl⟩
    · rename_i p _ _
      obtain ⟨hstarted, hdue⟩ := receive_same b p
      exact ⟨hstarted ▸ List.prefix_rfl, hdue⟩
  | release packetId =>
    dsimp only
    split <;> exact ⟨List.prefix_rfl, rfl⟩
  | other m => exact ⟨List.prefix_rfl, rfl⟩

end Acted

/-- **A step of the broker.** -/
theorem Exact.broker {X : Externs} {w : World Broker} {k : Act} (hw : Exact w)
    (hk : (world X sender).Enabled w (.inr k)) : Exact ((world X sender).next w (.inr k)) := by
  have henabled : w.peer.Enabled w.wire k := hk
  obtain ⟨hstarted, hdue⟩ := w.peer.next_same w.wire k
  have hnext : (world X sender).next w (.inr k) =
      ⟨w.client, (w.peer.next w.wire k).2, (w.peer.next w.wire k).1⟩ := rfl
  rw [hnext]
  refine hw.acted ?_ hstarted hdue
  cases k with
  | publish msg =>
    obtain ⟨hidle, htopic⟩ := henabled
    exact consistent_publish hw.consistent hidle htopic (hw.due msg)
  | repeated packetId =>
    unfold Broker.Enabled at henabled
    unfold Broker.next
    dsimp only at henabled ⊢
    split at henabled
    · rename_i msg ht
      exact consistent_repeated hw.consistent ht
    · exact henabled.elim
  | read =>
    unfold Broker.next
    dsimp only
    cases hup : w.wire.up with
    | nil => exact absurd hup henabled
    | cons p rest =>
      have hpipe : w.scene.pipe = p :: (rest ++ w.client.srv.txQueue) := by
        show w.wire.up ++ w.client.srv.txQueue = _
        rw [hup, List.cons_append]
      obtain ⟨hstarted, hdue⟩ := receive_same w.peer p
      have hscene : World.scene ⟨w.client, { w.wire with up := rest }, w.peer.receive p⟩ =
          { w.scene with pipe := rest ++ w.client.srv.txQueue } := by
        simp [World.scene, World.pipe, hstarted, hdue]
      intro id
      rw [hscene]
      exact consistent_receive hw.consistent hpipe id
  | release packetId =>
    unfold Broker.Enabled at henabled
    unfold Broker.next
    dsimp only at henabled ⊢
    split at henabled
    · rename_i msg ht
      exact consistent_release hw.consistent ht
    · exact henabled.elim
  | other m =>
    obtain ⟨hqos2, hreleased⟩ := henabled
    intro id
    have hquiet : Quiet id [m] := by
      intro m' hm'
      rw [List.mem_singleton.mp hm', hqos2, hreleased]
      exact ⟨nofun, nofun⟩
    exact (hw.consistent id).beyond (.send hquiet)

/-! ## Runs -/

/-- Nothing has been sent. -/
def Broker.initial : Broker := ⟨fun _ => .idle, [], []⟩

theorem World.Begins.exact {w₀ : World Broker} (h₀ : w₀.Begins .initial) : Exact w₀ := by
  have hsrv := h₀.client.srv
  have hpc := h₀.client.pc
  constructor
  · intro id
    rw [h₀.peer]
    apply Consistent.idle
    · rw [World.scene, h₀.wire]
      exact nofun
    · rw [World.scene, World.pipe, h₀.wire, hsrv]
      exact nofun
    · rw [World.scene, World.pipe, h₀.wire, hsrv]
      exact nofun
  · rw [h₀.peer]
    exact fun _ => Nat.le_refl _
  · rw [h₀.peer, hpc, hsrv]
    rfl
  · constructor
    · rw [hsrv]
      exact nofun
    · rw [hpc]
      exact nofun
  · rw [hpc]
    exact nofun
  · rw [hpc]
    trivial

/-- **Exactly once.**  In every run in which a message is stored beside copies of itself only, and
every PUBREL finds its message and is processed to its end, the messages that are handed over are
those whose PUBREL has been read, in this order, and none more often than it has been sent. -/
theorem exactly_once (X : Externs) {w₀ w : World Broker} (h₀ : w₀.Begins .initial)
    (h : (world X sender).Reaches (Orderly X) w₀ w) :
    (w.client.pc ≠ .trapped → handed w.client.srv.log ++ w.client.pc.holding = w.peer.due) ∧
      handed w.client.srv.log <+: w.peer.due ∧
      ∀ msg, (handed w.client.srv.log).count msg ≤ w.peer.started.count msg := by
  have hinv : Safe w ∧ (w.client.pc ≠ .trapped → Exact w) := by
    apply h.invariant (I := fun w => Safe w ∧ (w.client.pc ≠ .trapped → Exact w))
    · exact ⟨h₀.exact.safe, fun _ => h₀.exact⟩
    · rintro w (i | k) ⟨hsafe, hexact⟩ henabled hC
      · exact (hexact (enabled_untrapped henabled.1)).client henabled hC
      · obtain ⟨hstarted, hdue⟩ := w.peer.next_same w.wire k
        exact ⟨hsafe.acted hstarted hdue, fun htrap => (hexact htrap).broker henabled⟩
  obtain ⟨hsafe, hexact⟩ := hinv
  refine ⟨fun htrap => (hexact htrap).handed, hsafe.handed, ?_⟩
  intro msg
  exact (hsafe.handed.sublist.count_le msg).trans (hsafe.due msg)

/-! ## Two messages under one identifier -/

namespace World

def initial : World Broker := ⟨.initial, .empty, .initial⟩

theorem initial_begins : initial.Begins .initial := ⟨Sys.initial_initial, rfl, rfl⟩

/-- The first `connect`, up to the receive loop. -/
def received : List (Input ⊕ Act) := Input.joined .other .read ++ Input.rounds.map .inl

def message (payload : String) : Message := ⟨1, ascii "zig/conf", ascii payload⟩

/-- A copy of the message arrives. -/
def copied (dup : Bool) (msg : Message) : List (Input ⊕ Act) :=
  [.inl (.receive (.publish2 dup msg.packetId msg.topic msg.payload))]

/-- Back to the receive loop; PUBREC, which is sent `n` times on the way, is read. -/
def recorded (n : Nat) : List (Input ⊕ Act) :=
  Input.rounds.map .inl ++ List.replicate n (.inl (.send 4)) ++ [.inl .go] ++
    List.replicate n (.inr .read)

/-- PUBREL, behind which the service hands over and sends PUBCOMP. -/
def completed : List (Input ⊕ Act) :=
  [.inr (.release 1), .inl (.receive (.release 1)), .inl (.send 4), .inl .go, .inl .go, .inr .read]

/-- A message is transferred. -/
def transferred : List (Input ⊕ Act) :=
  received ++ [.inr (.publish (message "on"))] ++ copied false (message "on") ++ recorded 1 ++
    completed

/-- A message arrives twice before its PUBREL, and another one under its identifier after it. -/
def reused : List (Input ⊕ Act) :=
  received ++ [.inr (.publish (message "on")), .inr (.repeated 1)] ++ copied false (message "on") ++
    copied true (message "on") ++ recorded 2 ++ completed ++
    [.inr (.publish (message "off"))] ++ copied false (message "off") ++ recorded 1 ++ completed

end World

theorem exactly_once_transferred :
    let w := (world .documented sender).run World.initial World.transferred
    (w.client.pc ≠ .trapped → handed w.client.srv.log ++ w.client.pc.holding = w.peer.due) ∧
      handed w.client.srv.log <+: w.peer.due ∧
      ∀ msg, (handed w.client.srv.log).count msg ≤ w.peer.started.count msg :=
  exactly_once .documented World.initial_begins (System.reaches_run (by decide +kernel))

/-- The copy that is left behind is handed over in place of the next message. -/
theorem copy_handed_over : ¬∀ (X : Externs) (w₀ w : World Broker), w₀.Begins .initial →
    (world X sender).Reaches System.Free w₀ w →
    (w.client.pc ≠ .trapped → handed w.client.srv.log ++ w.client.pc.holding = w.peer.due) ∧
      handed w.client.srv.log <+: w.peer.due ∧
      ∀ msg, (handed w.client.srv.log).count msg ≤ w.peer.started.count msg := by
  intro h
  have hreach : (world .documented sender).Reaches System.Free World.initial
      ((world .documented sender).run World.initial World.reused) :=
    System.reaches_run (by decide +kernel)
  obtain ⟨-, -, hcount⟩ := h .documented World.initial _ World.initial_begins hreach
  have htwice : ¬(handed ((world .documented sender).run World.initial World.reused).client.srv.log).count
      (World.message "on") ≤ ((world .documented sender).run World.initial
        World.reused).peer.started.count (World.message "on") := by decide +kernel
  exact htwice (hcount (World.message "on"))

end Miso.Mqtt

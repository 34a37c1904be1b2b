import Miso.Mqtt.Sessions

/-!
# The first packet of a connection

`txQueue` outlives the connections, and `processSendQueue` can stop in the middle of it.

* `Clear` — if nothing has been sent on the connection yet, its CONNECT is at the head of
  `txQueue`, and nothing older is left;
* `connect_first` — CONNECT comes first if it is always put into an empty `txQueue`.
-/

namespace Miso.Mqtt

open Zig Net

/-! ## The property -/

/-- `p` is the CONNECT of the connection that is opened between `before` and `after`. -/
structure OwnConnect (before after : List Event) (p : Packet) : Prop where
  connect : ∃ data, p = .connect data
  /-- Nothing that has been queued for an earlier connection is left. -/
  earlier : queuedPackets before = sentPackets before
  queued : .queued p ∈ after

/-- The first packet handed to `connection.send` on a connection is its CONNECT. -/
def ConnectFirst (log : List Event) : Prop :=
  Always (fun past ev => ∀ p, ev = .sent p → ∀ before after, Since .opened past before after →
    (∀ q, .sent q ∉ after) → OwnConnect before after p) log

theorem ConnectFirst.append {log es : List Event} (h : ConnectFirst log)
    (hes : ∀ p, .sent p ∉ es) : ConnectFirst (log ++ es) :=
  Always.append h fun _ hev _ p hp => absurd (hp ▸ hev) (hes p)

/-! ## The queue of a session -/

/-- Nothing has been sent on the connection, and `txQueue` still begins with what it held when
    the connection was opened. -/
def AtOpen (s : Service) : Prop :=
  ∀ before after, Since .opened s.log before after → (∀ q, .sent q ∉ after) ∧
    ∃ old, queuedPackets before = sentPackets before ++ old ∧
      s.txQueue = old ++ queuedPackets after

/-- If nothing has been sent on the connection, its CONNECT is the next packet to be sent. -/
def Clear (s : Service) : Prop :=
  ∀ before after, Since .opened s.log before after → (∀ q, .sent q ∉ after) →
    ∃ p rest, s.txQueue = p :: rest ∧ OwnConnect before after p

theorem AtOpen.opened {s : Service} (h : Fifo s) : AtOpen (s.connecting.record [.opened]) := by
  intro before after hsince
  obtain ⟨rfl, rfl⟩ := since_last.unique hsince
  exact ⟨by simp, s.txQueue, h, by simp [queuedPackets, Service.record, Service.connecting]⟩

theorem AtOpen.inside {s s' : Service} (hs : AtOpen s) (h : Inside s s') : AtOpen s' := by
  obtain ⟨-, es, hlog, hinner, htx⟩ := h
  intro before after hsince
  rw [hlog] at hsince
  obtain ⟨after', rfl, hbefore⟩ := hsince.of_append (opened_notMem_inner hinner)
  obtain ⟨hsent, old, hold, hqueue⟩ := hs before after' hbefore
  constructor
  · intro q hmem
    rcases List.mem_append.mp hmem with h | h
    · exact hsent q h
    · exact sent_notMem_inner hinner q h
  · refine ⟨old, hold, ?_⟩
    rw [htx, hqueue, queuedPackets_append, List.append_assoc]

theorem OwnConnect.append {before after es : List Event} {p : Packet}
    (h : OwnConnect before after p) : OwnConnect before (after ++ es) p :=
  ⟨h.connect, h.earlier, List.mem_append_left es h.queued⟩

theorem Clear.inside {s s' : Service} (hs : Clear s) (h : Inside s s') : Clear s' := by
  obtain ⟨-, es, hlog, hinner, htx⟩ := h
  intro before after hsince hsent
  rw [hlog] at hsince
  obtain ⟨after', rfl, hbefore⟩ := hsince.of_append (opened_notMem_inner hinner)
  obtain ⟨p, rest, hqueue, hown⟩ :=
    hs before after' hbefore fun q hmem => hsent q (List.mem_append_left es hmem)
  exact ⟨p, rest ++ queuedPackets es, by rw [htx, hqueue]; rfl, hown.append⟩

/-- CONNECT is put into an empty `txQueue`. -/
theorem AtOpen.connect {X : Externs} {s : Service} (hs : AtOpen s) (hempty : s.txQueue = []) :
    Clear (s.enqueue X.connectPacket) := by
  intro before after hsince _
  obtain ⟨after', rfl, hbefore⟩ :=
    Since.of_append hsince (show _ ∉ [Event.queued X.connectPacket] by simp)
  obtain ⟨-, old, hold, hqueue⟩ := hs before after' hbefore
  rw [hempty] at hqueue
  obtain ⟨rfl, -⟩ := List.append_eq_nil_iff.mp hqueue.symm
  refine ⟨X.connectPacket, [], ?_, ⟨⟨_, rfl⟩, by simpa using hold, by simp⟩⟩
  show s.txQueue ++ [X.connectPacket] = _
  rw [hempty]
  rfl

/-- A packet that is sent is CONNECT, or there has been one before. -/
theorem Clear.first {s : Service} {p : Packet} {rest : List Packet} (hs : Clear s)
    (hfirst : ConnectFirst s.log) (hqueue : s.txQueue = p :: rest) :
    ConnectFirst (s.log ++ [.sent p]) := by
  refine always_concat.mpr ⟨hfirst, ?_⟩
  intro q hq before after hsince hsent
  cases hq
  obtain ⟨p', rest', hqueue', hown⟩ := hs before after hsince hsent
  rw [hqueue] at hqueue'
  cases hqueue'
  exact hown

/-- Once something has been sent, there is nothing left to show. -/
theorem clear_sent (s : Service) (p : Packet) : Clear (s.record [.sent p]) := by
  intro before after hsince hsent
  obtain ⟨after', rfl, -⟩ := Since.of_append hsince (show _ ∉ [Event.sent p] by simp)
  exact absurd (List.mem_append_right after' List.mem_cons_self) (hsent p)

theorem Clear.drained {s : Service} (hs : Clear s) : Clear (s.record [.drained]) := by
  intro before after hsince hsent
  obtain ⟨after', rfl, hbefore⟩ := Since.of_append hsince (show _ ∉ [Event.drained] by simp)
  obtain ⟨p, rest, hqueue, hown⟩ :=
    hs before after' hbefore fun q hmem => hsent q (List.mem_append_left _ hmem)
  exact ⟨p, rest, hqueue, hown.append⟩

/-! ## The invariant -/

/-- The phases in which packets are sent. -/
def Phase.sends : Phase → Bool
  | opening => true
  | accepted => true
  | up => true
  | _ => false

theorem Phase.sends_of_next (p q : Phase) (h : p.next q = true) (hq : q.sends = true) :
    p.sends = true := by
  cases p <;> cases q <;> simp_all [next, sends]

theorem Phase.opened_of_next (p : Phase) (h : p.next .opened = true) : p = .opened := by
  cases p <;> simp_all [next]

structure Greets (p : Phase) (s : Service) : Prop where
  fifo : Fifo s
  first : ConnectFirst s.log
  atOpen : p = .opened → AtOpen s
  clear : p.sends = true → Clear s

theorem Greets.inside {p : Phase} {s s' : Service} (hs : Greets p s) (h : Inside s s') :
    Greets p s' := by
  refine ⟨hs.fifo.inside h, ?_, fun hp => (hs.atOpen hp).inside h,
    fun hp => (hs.clear hp).inside h⟩
  obtain ⟨-, es, hlog, hinner, -⟩ := h
  rw [hlog]
  exact hs.first.append (sent_notMem_inner hinner)

theorem Greets.next {p q : Phase} {s : Service} (hs : Greets p s) (h : p.next q = true) :
    Greets q s := by
  refine ⟨hs.fifo, hs.first, ?_, fun hq => hs.clear (p.sends_of_next q h hq)⟩
  rintro rfl
  exact hs.atOpen (p.opened_of_next h)

/-- Outside of a session only the record counts. -/
theorem Greets.idle {p q : Phase} {s s' : Service} (hs : Greets p s) (ev : List Event)
    (hlog : s'.log = s.log ++ ev) (htx : s'.txQueue = s.txQueue)
    (hev : queuedPackets ev = [] ∧ ∀ p, .sent p ∉ ev) (hopened : q ≠ .opened)
    (hsends : q.sends = false) : Greets q s' := by
  refine ⟨?_, ?_, fun hq => absurd hq hopened, fun hq => ?_⟩
  · have hsent : sentPackets ev = [] := by
      unfold sentPackets
      rw [List.filterMap_eq_nil_iff]
      intro e he
      cases e with
      | sent p => exact absurd he (hev.2 p)
      | _ => rfl
    unfold Fifo
    rw [hlog, htx, queuedPackets_append, sentPackets_append, hev.1, hsent, List.append_nil,
      List.append_nil]
    exact hs.fifo
  · rw [hlog]
    exact hs.first.append hev.2
  · rw [hsends] at hq
    cases hq

/-- A packet is sent. -/
theorem Greets.sent {p : Phase} {s : Service} {q : Packet} {rest : List Packet}
    (hs : Greets p s) (hp : p.sends = true) (hqueue : s.txQueue = q :: rest) :
    Greets p ({ s with txQueue := rest }.record [.sent q]) := by
  refine ⟨?_, (hs.clear hp).first hs.first hqueue, ?_, fun _ => clear_sent _ q⟩
  · have hfifo : queuedPackets s.log = sentPackets s.log ++ s.txQueue := hs.fifo
    show queuedPackets (s.log ++ [.sent q]) = sentPackets (s.log ++ [.sent q]) ++ rest
    rw [queuedPackets_append, sentPackets_append, hfifo, hqueue]
    simp [queuedPackets, sentPackets, Event.queuedPacket, Event.sentPacket]
  · rintro rfl
    cases hp

theorem Greets.drained {p : Phase} {s : Service} (hs : Greets p s) (hp : p.sends = true) :
    Greets p (s.record [.drained]) := by
  refine ⟨?_, hs.first.append (by simp), ?_, fun _ => (hs.clear hp).drained⟩
  · have hfifo : queuedPackets s.log = sentPackets s.log ++ s.txQueue := hs.fifo
    show queuedPackets (s.log ++ [.drained]) = sentPackets (s.log ++ [.drained]) ++ s.txQueue
    rw [queuedPackets_append, sentPackets_append, hfifo]
    have hnone : queuedPackets [.drained] = [] ∧ sentPackets [.drained] = [] := ⟨rfl, rfl⟩
    rw [hnone.1, hnone.2, List.append_nil, List.append_nil]
  · rintro rfl
    cases hp

theorem Drain.sends (caller : Drain) : (Pc.drain caller).phase.sends = true := by
  cases caller <;> rfl

section Steps

variable {X : Externs} {e : Env} {fuel : Nat} {l l' : Link} {pc : Pc} {s s' : Service}
  {x : Exit Error Pc}

/-- A round of `processSendQueue`. -/
theorem Taken.greets_drain {caller : Drain} (h : Taken X e fuel l (.drain caller) s x s' l')
    (hs : Greets (Pc.drain caller).phase s) : Greets (Pc.drain caller).phase s' := by
  cases h with
  | drained => exact hs.drained caller.sends
  | sent _ _ _ _ _ _ hqueue => exact hs.sent caller.sends hqueue
  | sendFailed _ _ _ _ _ _ hqueue => exact hs.sent caller.sends hqueue
  | sendTrap _ _ _ _ _ hqueue => exact hs.sent caller.sends hqueue
  | sendHalt _ _ _ _ _ hqueue => exact hs.sent caller.sends hqueue

theorem Taken.greets_connectPacket (h : Taken X e fuel l .connectPacket s x s' l')
    (hs : Greets .opened s) (halone : Ready X e.ok s X.connectPacket → s.txQueue = []) :
    Greets (Pc.next .connectPacket x).phase s' := by
  have hin : Inside s s' := by
    rcases h.inside rfl with hin | ⟨id, s₁, hpc, -⟩
    · exact hin
    · cases hpc
  have hs' := hs.inside hin
  cases h with
  | connectPacket _ x _ hprep =>
    cases hprep with
    | queued hready =>
      exact ⟨hs'.fifo, hs'.first, nofun,
        fun _ => (hs.atOpen rfl).connect (halone hready)⟩
    | failed => exact hs'.next rfl
    | stuck => exact hs'.next rfl
    | blocked => exact hs'.next rfl

theorem Taken.greets (h : Taken X e fuel l pc s x s' l') (hs : Greets pc.phase s)
    (halone : pc = .connectPacket → Ready X e.ok s X.connectPacket → s.txQueue = []) :
    Greets (pc.next x).phase s' := by
  by_cases hopen : pc = .connectPacket
  · subst hopen
    exact h.greets_connectPacket hs (halone rfl)
  by_cases hcalm : pc.calm = true
  · have hs' : Greets pc.phase s' := by
      rcases h.inside hcalm with hin | ⟨id, s₁, -, -, hin, rfl⟩
      · exact hs.inside hin
      · have hs₁ := hs.inside hin
        exact ⟨hs₁.fifo, hs₁.first, hs₁.atOpen, hs₁.clear⟩
    rcases h.phase with hnext | hpass
    · exact hs'.next hnext
    · cases hpass with
      | opened => cases hcalm
      | connect => exact absurd rfl hopen
      | connack => exact ⟨hs'.fifo, hs'.first, nofun, fun _ => hs'.clear rfl⟩
      | suback => exact ⟨hs'.fifo, hs'.first, nofun, fun _ => hs'.clear rfl⟩
      | close => cases hcalm
  · cases pc with
    | connect =>
      cases h with
      | opened =>
        refine ⟨?_, hs.first.append (by simp), fun _ => AtOpen.opened hs.fifo, nofun⟩
        have hfifo : queuedPackets s.log = sentPackets s.log ++ s.txQueue := hs.fifo
        show queuedPackets (s.log ++ [.opened]) = sentPackets (s.log ++ [.opened]) ++ s.txQueue
        have hnone : queuedPackets [.opened] = [] ∧ sentPackets [.opened] = [] := ⟨rfl, rfl⟩
        rw [queuedPackets_append, sentPackets_append, hnone.1, hnone.2, hfifo, List.append_nil,
          List.append_nil]
      | openFailed => exact ⟨hs.fifo, hs.first, nofun, nofun⟩
      | openTrap => exact ⟨hs.fifo, hs.first, nofun, nofun⟩
      | openHalt => exact ⟨hs.fifo, hs.first, nofun, nofun⟩
    | refused err =>
      cases h with
      | refused => exact hs.idle [.closed] rfl rfl ⟨rfl, by simp⟩ nofun rfl
    | close err =>
      cases h with
      | close => exact hs.idle [.closed] rfl rfl ⟨rfl, by simp⟩ nofun rfl
    | drain caller =>
      rcases h.phase with hnext | hpass
      · exact (h.greets_drain hs).next hnext
      · cases hpass
    | _ => exact absurd rfl hcalm

end Steps

/-- CONNECT is put into an empty `txQueue`. -/
def Alone (X : Externs) (s : Sys) : Input → Prop
  | .task a => s.pc = .connectPacket → Ready X a.env.ok s.srv X.connectPacket → s.srv.txQueue = []
  | _ => True

instance (X : Externs) (s : Sys) : ∀ i : Input, Decidable (Alone X s i)
  | .task _ => inferInstanceAs (Decidable (_ → _ → _))
  | .job _ _ => inferInstanceAs (Decidable True)
  | .resume _ => inferInstanceAs (Decidable True)
  | .clock _ => inferInstanceAs (Decidable True)

/-- **CONNECT comes first.**  In every run in which CONNECT is always put into an empty `txQueue`,
    the first packet handed to `connection.send` on each connection is its CONNECT. -/
theorem connect_first (X : Externs) {s₀ s : Sys} (h₀ : Initial s₀)
    (h : (mqtt X).Reaches (Alone X) s₀ s) : ConnectFirst s.srv.log := by
  have hinv : Greets s.pc.phase s.srv := by
    apply h.invariant (I := fun s => Greets s.pc.phase s.srv)
    · have hlog : s₀.srv.log = [] := by rw [h₀.srv]; rfl
      have htx : s₀.srv.txQueue = [] := by rw [h₀.srv]; rfl
      rw [h₀.pc]
      refine ⟨?_, ?_, nofun, nofun⟩
      · unfold Fifo
        rw [hlog, htx]
        rfl
      · rw [hlog]
        exact always_nil
    · intro s i hs _ hC
      have hmoved := next_moved X s i
      show Greets (s.next X i).pc.phase (s.next X i).srv
      generalize s.next X i = s' at hmoved
      by_cases hi : ∀ a, i ≠ .task a
      · obtain ⟨hin, hpc | hpc⟩ := hmoved.inside hi
        · rw [hpc]
          exact hs.inside hin
        · rw [hpc]
          exact ⟨(hs.inside hin).fifo, (hs.inside hin).first, nofun, nofun⟩
      · push Not at hi
        obtain ⟨a, rfl⟩ := hi
        cases hmoved with
        | task a x srv' link' htaken => exact htaken.greets hs hC
  exact hinv.first

theorem connect_first_established :
    ConnectFirst ((mqtt .documented).run Sys.initial Input.established).srv.log :=
  connect_first .documented Sys.initial_initial (System.reaches_run (by decide +kernel))

/-- Two packets are queued when the connection breaks: the first is lost with the send that fails,
    the second with the send of `disconnect`, and DISCONNECT stays in `txQueue`. -/
def Input.broken : List Input :=
  established ++ [.job .pubTimer (Answers.smooth none 0).env,
    .job (.pingTimer 0) (Answers.smooth none 0).env, go, go, send (-1), go, send (-1), go, go] ++
    [go, go, send 2]

theorem disconnect_first : ¬∀ (X : Externs) (s₀ s : Sys), Initial s₀ →
    (mqtt X).Reaches System.Free s₀ s → ConnectFirst s.srv.log := by
  intro h
  have hreach : (mqtt .documented).Reaches System.Free Sys.initial
      ((mqtt .documented).run Sys.initial Input.broken) := System.reaches_run (by decide +kernel)
  have hlog : ∃ before, ((mqtt .documented).run Sys.initial Input.broken).srv.log =
      before ++ [.opened, .queued Externs.documented.connectPacket, .sent .disconnect] :=
    ⟨((mqtt .documented).run Sys.initial Input.broken).srv.log.take 17, by decide +kernel⟩
  have hfirst := h .documented Sys.initial _ Sys.initial_initial hreach
  obtain ⟨before, hlog⟩ := hlog
  rw [hlog] at hfirst
  have hown := hfirst (before ++ [.opened, .queued Externs.documented.connectPacket])
    (.sent .disconnect) (by simp) .disconnect rfl before [.queued Externs.documented.connectPacket]
    ⟨rfl, by simp⟩ (by simp)
  obtain ⟨data, hdata⟩ := hown.connect
  cases hdata

end Miso.Mqtt

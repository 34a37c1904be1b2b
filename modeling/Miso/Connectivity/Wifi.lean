import Miso.Rtos.Notify
import Miso.Zig.System

/-!
# The WiFi task

`wifi_task` and the event handlers of the network processor (`wifi_service.c`).  The handlers note
each event in `wifi_status` and send the status as notification bits; the task reads the bits that
came together since its last wait and suspends or resumes the network mediator.

* `Observed` — the task and the handlers, with what the events say about the link;
* `Honest` — when the task has processed all bits, the mediator runs only on a usable link;
* `honest_of_matching` — that holds in every run in which each wake-up finds bits that match the
  link, and no disconnection is overwritten before it is sent.

The released address is only logged, so that the mediator keeps running without one
(`released_ignored`).
-/

namespace Miso.Connectivity.Wifi

open Rtos Zig

def WIFI_PENDING_STATE : BitVec 32 := bit 0

inductive wifi_connection_state_e where
  | wifi_initial
  | wifi_disconnected
  | wifi_connecting
  | wifi_connected
  deriving DecidableEq, Repr

def wifi_connection_state_e.int : wifi_connection_state_e → BitVec 32
  | .wifi_initial => 0#32
  | .wifi_disconnected => bit 1
  | .wifi_connecting => bit 2
  | .wifi_connected => bit 3

inductive wifi_ip_acquired_state_e where
  | wifi_ip_not_acquired
  | wifi_ip_v4_acquired
  | wifi_ip_v6_acquired
  | wifi_ip_released
  deriving DecidableEq, Repr

/-- Both versions share the bit `WIFI_IP_ACQUIRED`. -/
def wifi_ip_acquired_state_e.int : wifi_ip_acquired_state_e → BitVec 32
  | .wifi_ip_not_acquired => 0#32
  | .wifi_ip_v4_acquired => bit 4 ||| bit 5
  | .wifi_ip_v6_acquired => bit 4 ||| bit 6
  | .wifi_ip_released => bit 7

inductive SlWlanEvent where
  | connect
  | disconnect
  | smart_config_complete
  | smart_config_stop
  | sta_connected
  | sta_disconnected
  | p2p_dev_found
  | p2p_neg_req_received
  | connection_failed
  | unknown
  deriving DecidableEq, Repr

inductive SlNetAppEvent where
  | ipv4_ipacquired
  | ipv6_ipacquired
  | ip_leased
  | ip_released
  | unknown
  deriving DecidableEq, Repr

/-- The handler that is between its store to `wifi_status` and its notification. -/
inductive Handler where
  | CC3100_WlanEvtHdlr
  | CC3100_NetAppEvtHdlr
  deriving DecidableEq, Repr

/-- Where the task is; in the event loop with the bits that it read. -/
inductive Pc where
  | restart
  | setup
  | enter
  | wait
  | disconnected (ulNotifiedValue : BitVec 32)
  | reconnect (ulNotifiedValue : BitVec 32)
  | connecting (ulNotifiedValue : BitVec 32)
  | acquired (ulNotifiedValue : BitVec 32)
  | stop
  deriving DecidableEq, Repr

/-- The task, its notification, `wifi_status`, the handlers, and the last commands to the network
mediator (`true` is `resume_network_mediator`) and to the user task (`true` is
`miso_connectivity_on`). -/
structure Service where
  pc : Pc
  notification : Notification
  connection : wifi_connection_state_e
  ip : wifi_ip_acquired_state_e
  handler : Option Handler
  mediator : Option Bool
  connectivity : Option Bool
  deriving DecidableEq, Repr

/-- The tests of the event loop. -/
def isDisconnected (ulNotifiedValue : BitVec 32) : Bool :=
  meets ulNotifiedValue wifi_connection_state_e.wifi_disconnected.int

def isConnecting (ulNotifiedValue : BitVec 32) : Bool :=
  meets ulNotifiedValue wifi_connection_state_e.wifi_connecting.int

def isAcquired (ulNotifiedValue : BitVec 32) : Bool :=
  meets ulNotifiedValue (wifi_ip_acquired_state_e.wifi_ip_v4_acquired.int |||
    wifi_ip_acquired_state_e.wifi_ip_v6_acquired.int)

namespace Service

variable (s : Service)

/-- The task stores `wifi_connecting` and notifies itself of it. -/
def startConnecting (pc : Pc) : Service :=
  { s with
    pc := pc
    connection := .wifi_connecting
    notification := s.notification.setBits
      (wifi_connection_state_e.wifi_connecting.int ||| WIFI_PENDING_STATE) }

/-- The next stretch of `wifi_task`; `connects` when `sl_WlanConnect` returns zero.  A wait with
nothing pending times out. -/
def step (connects : Bool) : Service :=
  match s.pc with
  | .restart => { s with pc := .setup, connection := .wifi_disconnected }
  | .setup => s.startConnecting .enter
  | .enter => { s with pc := .wait, notification := s.notification.entered WIFI_PENDING_STATE }
  | .wait =>
    if s.notification.pending then
      { s with
        pc := .disconnected s.notification.value
        notification := s.notification.taken (BitVec.allOnes 32) }
    else { s with pc := .enter }
  | .disconnected val =>
    if isDisconnected val then
      { s with pc := .reconnect val, mediator := some false, connectivity := some false }
    else { s with pc := .connecting val }
  | .reconnect val => s.startConnecting (.connecting val)
  | .connecting val =>
    if isConnecting val && !connects then { s with pc := .stop } else { s with pc := .acquired val }
  | .acquired val =>
    if isAcquired val then
      { s with pc := .enter, mediator := some true, connectivity := some true }
    else { s with pc := .enter }
  | .stop => { s with pc := .restart }

/-- The store of `CC3100_WlanEvtHdlr`. -/
def wlanEvent (event : SlWlanEvent) : Service :=
  { s with
    handler := some .CC3100_WlanEvtHdlr
    connection := match event with
      | .connect => .wifi_connected
      | .disconnect => .wifi_disconnected
      | .connection_failed => .wifi_disconnected
      | _ => s.connection }

/-- The store of `CC3100_NetAppEvtHdlr`. -/
def netAppEvent (event : SlNetAppEvent) : Service :=
  { s with
    handler := some .CC3100_NetAppEvtHdlr
    ip := match event with
      | .ipv4_ipacquired => .wifi_ip_v4_acquired
      | .ipv6_ipacquired => .wifi_ip_v6_acquired
      | .ip_released => .wifi_ip_released
      | _ => s.ip }

/-- The notification at the end of a handler, with the status as it is then. -/
def send : Service :=
  match s.handler with
  | none => s
  | some .CC3100_WlanEvtHdlr =>
    { s with
      handler := none
      notification := s.notification.setBits (s.connection.int ||| WIFI_PENDING_STATE) }
  | some .CC3100_NetAppEvtHdlr =>
    { s with
      handler := none
      notification := s.notification.setBits (s.ip.int ||| WIFI_PENDING_STATE) }

end Service

/-- The service, and what the events say: the device is connected, it holds an address, and an
address was released since the task read its bits. -/
structure Observed where
  service : Service
  connected : Bool
  address : Bool
  released : Bool
  deriving DecidableEq, Repr

inductive Input where
  | wlan (event : SlWlanEvent)
  | netApp (event : SlNetAppEvent)
  | send
  | run (connects : Bool)
  deriving DecidableEq, Repr

namespace Observed

variable (s : Observed)

/-- Reading the bits ends the time in which a release counts, unless it is still to be sent. -/
def readReleased : Bool :=
  if s.service.pc = .wait ∧ s.service.notification.pending = true then
    s.released && decide (s.service.handler = some .CC3100_NetAppEvtHdlr)
  else s.released

/-- One step; `keeps` says whether the device keeps its address when it is disconnected. -/
def next (keeps : Bool) : Input → Observed
  | .wlan event =>
    let service := s.service.wlanEvent event
    match event with
    | .connect => { s with service := service, connected := true }
    | .disconnect =>
      { s with service := service, connected := false, address := s.address && keeps }
    | .connection_failed =>
      { s with service := service, connected := false, address := s.address && keeps }
    | _ => { s with service := service }
  | .netApp event =>
    let service := s.service.netAppEvent event
    match event with
    | .ipv4_ipacquired => { s with service := service, address := true, released := false }
    | .ipv6_ipacquired => { s with service := service, address := true, released := false }
    | .ip_released => { s with service := service, address := false, released := true }
    | _ => { s with service := service }
  | .send => { s with service := s.service.send }
  | .run connects => { s with service := s.service.step connects, released := s.readReleased }

/-- The handlers run one after the other. -/
def Enabled : Input → Prop
  | .wlan _ => s.service.handler = none
  | .netApp _ => s.service.handler = none
  | .send => s.service.handler ≠ none
  | .run _ => True

instance : ∀ i, Decidable (s.Enabled i)
  | .wlan _ => inferInstanceAs (Decidable (s.service.handler = none))
  | .netApp _ => inferInstanceAs (Decidable (s.service.handler = none))
  | .send => inferInstanceAs (Decidable (s.service.handler ≠ none))
  | .run _ => inferInstanceAs (Decidable True)

/-! ## What is asked of the task -/

/-- A usable link, according to the events. -/
def usable : Bool := s.connected && s.address

/-- All bits are processed, and no handler is at work. -/
def Idle : Prop :=
  (s.service.pc = .enter ∨ s.service.pc = .wait) ∧ s.service.notification.pending = false ∧
    s.service.handler = none

instance : Decidable s.Idle := inferInstanceAs (Decidable (_ ∧ _))

/-- The last commands are to run only on a usable link. -/
def Honest : Prop :=
  s.Idle → (s.service.mediator = some true → s.usable = true) ∧
    (s.service.connectivity = some true → s.usable = true)

instance : Decidable s.Honest := inferInstanceAs (Decidable (_ → _))

/-! ## When it does it -/

/-- A disconnection that is stored and not sent. -/
def unsentDisconnection : Bool :=
  decide (s.service.handler = some .CC3100_WlanEvtHdlr) &&
    decide (s.service.connection = .wifi_disconnected)

/-- The loss of the link is stored and not sent. -/
def unsentLoss : Bool :=
  s.unsentDisconnection ||
    (s.released && decide (s.service.handler = some .CC3100_NetAppEvtHdlr) && s.connected)

/-- The bits that the task reads match the link: there is one when an address was acquired among
them, and when they speak of neither an acquired address nor a disconnection, no address was
released while the mediator runs. -/
def readsMatching : Bool :=
  let val := s.service.notification.value
  if isAcquired val then s.usable || s.unsentLoss
  else isDisconnected val || decide (s.service.mediator ≠ some true) || !s.released ||
    s.unsentLoss

/-- The task goes on with the mediator running, or is going to resume it. -/
def mayResume : Bool :=
  match s.service.pc with
  | .disconnected val =>
    isAcquired val || (!isDisconnected val && decide (s.service.mediator = some true))
  | .reconnect val => isAcquired val || decide (s.service.mediator = some true)
  | .connecting val => isAcquired val || decide (s.service.mediator = some true)
  | .acquired val => isAcquired val || decide (s.service.mediator = some true)
  | _ => decide (s.service.mediator = some true)

/-- A wake-up reads matching bits, and a disconnection that is not sent yet is not overwritten
while the mediator may run. -/
def matching : Bool :=
  match s.service.pc with
  | .wait => !s.service.notification.pending || s.readsMatching
  | .setup => !s.unsentDisconnection || !s.mayResume
  | .reconnect _ => !s.unsentDisconnection || !s.mayResume
  | _ => true

def Matching : Input → Prop
  | .run _ => s.matching = true
  | _ => True

instance : ∀ i, Decidable (s.Matching i)
  | .run _ => inferInstanceAs (Decidable (s.matching = true))
  | .wlan _ => inferInstanceAs (Decidable True)
  | .netApp _ => inferInstanceAs (Decidable True)
  | .send => inferInstanceAs (Decidable True)

end Observed

/-- The WiFi task and the handlers. -/
def wifi (keeps : Bool) : System Observed Input where
  Enabled := Observed.Enabled
  next s := s.next keeps

/-- Before `wifi_task` runs for the first time. -/
def start : Observed :=
  ⟨⟨.restart, .none, .wifi_initial, .wifi_ip_not_acquired, none, none, none⟩, false, false, false⟩

/-! ## The bits of a disconnection -/

theorem isDisconnected_iff {val : BitVec 32} : isDisconnected val = val.getLsbD 1 := by
  rw [Bool.eq_iff_iff]
  unfold isDisconnected
  rw [meets_iff]
  constructor
  · intro h
    obtain ⟨k, hval, hk⟩ := h
    rw [show wifi_connection_state_e.wifi_disconnected.int = bit 1 from rfl,
      BitVec.getLsbD_twoPow] at hk
    obtain rfl : 1 = k := by simpa using hk
    exact hval
  · intro h
    exact ⟨1, h, by decide⟩

namespace Observed

variable {s : Observed} {keeps : Bool}

/-- Why the mediator may run: the link is usable, or there is something left to tell the task, or
an address was released on a connected device. -/
def Accounted (s : Observed) : Prop :=
  s.usable = true ∨ s.service.notification.has 1 = true ∨ s.unsentDisconnection = true ∨
    (s.released = true ∧ s.connected = true)

/-- Sending bits takes no reason away; sending a disconnection makes it a bit. -/
theorem Accounted.send (h : s.Accounted) (hen : s.Enabled .send) :
    (s.next keeps .send).Accounted := by
  show Accounted { s with service := s.service.send }
  unfold Service.send
  cases hh : s.service.handler with
  | none => exact absurd hh hen
  | some handler =>
    cases handler with
    | CC3100_WlanEvtHdlr =>
      obtain husable | hbit | hunsent | hreleased := h
      · exact .inl husable
      · exact .inr (.inl (by simp [hbit]))
      · have hc : s.service.connection = .wifi_disconnected := by
          unfold unsentDisconnection at hunsent
          simpa [hh] using hunsent
        refine .inr (.inl ?_)
        rw [Notification.setBits_has, hc]
        simp [wifi_connection_state_e.int]
      · exact .inr (.inr (.inr hreleased))
    | CC3100_NetAppEvtHdlr =>
      obtain husable | hbit | hunsent | hreleased := h
      · exact .inl husable
      · exact .inr (.inl (by simp [hbit]))
      · unfold unsentDisconnection at hunsent
        simp [hh] at hunsent
      · exact .inr (.inr (.inr hreleased))

/-- A disconnection is noted at once, and no other event of the radio takes a reason away. -/
theorem Accounted.wlan (h : s.Accounted) (event : SlWlanEvent) (hen : s.Enabled (.wlan event)) :
    (s.next keeps (.wlan event)).Accounted := by
  have hh : s.service.handler = none := hen
  have hunsent : s.unsentDisconnection = false := by simp [unsentDisconnection, hh]
  obtain husable | hbit | hu | hreleased := h
  · unfold usable at husable
    rw [Bool.and_eq_true] at husable
    cases event <;>
      simp [next, Accounted, usable, unsentDisconnection, Service.wlanEvent, husable.1, husable.2]
  · refine .inr (.inl ?_)
    cases event <;> exact hbit
  · rw [hunsent] at hu
    exact absurd hu (by decide)
  · cases event <;>
      simp [next, Accounted, unsentDisconnection, Service.wlanEvent, hreleased.1, hreleased.2]

/-- A release is noted on a connected device. -/
theorem Accounted.netApp (h : s.Accounted) (event : SlNetAppEvent)
    (hen : s.Enabled (.netApp event)) : (s.next keeps (.netApp event)).Accounted := by
  have hh : s.service.handler = none := hen
  have hunsent : s.unsentDisconnection = false := by simp [unsentDisconnection, hh]
  obtain husable | hbit | hu | hreleased := h
  · unfold usable at husable
    rw [Bool.and_eq_true] at husable
    cases event <;>
      simp [next, Accounted, usable, Service.netAppEvent, husable.1, husable.2]
  · refine .inr (.inl ?_)
    cases event <;> exact hbit
  · rw [hunsent] at hu
    exact absurd hu (by decide)
  · cases event <;>
      simp [next, Accounted, usable, Service.netAppEvent, hreleased.1, hreleased.2]

/-- **What every step preserves**. -/
structure Inv (s : Observed) : Prop where
  accounted : s.mayResume = true → s.Accounted
  bit : s.service.notification.has 1 = true → s.service.notification.pending = true
  released : s.released = true →
    s.service.notification.pending = true ∨ s.service.handler = some .CC3100_NetAppEvtHdlr
  commands : s.service.connectivity = s.service.mediator

theorem Inv.wlan (keeps : Bool) (hi : s.Inv) (event : SlWlanEvent) (hen : s.Enabled (.wlan event)) :
    (s.next keeps (.wlan event)).Inv := by
  have hh : s.service.handler = none := hen
  refine ⟨?_, ?_, ?_, ?_⟩
  · intro hm
    refine (hi.accounted ?_).wlan event hen
    cases event <;> exact hm
  · cases event <;> exact hi.bit
  · have hreleased := hi.released
    rw [hh] at hreleased
    cases event <;> exact fun hr => .inl ((hreleased hr).resolve_right (by decide))
  · cases event <;> exact hi.commands

theorem Inv.netApp (keeps : Bool) (hi : s.Inv) (event : SlNetAppEvent)
    (hen : s.Enabled (.netApp event)) :
    (s.next keeps (.netApp event)).Inv := by
  refine ⟨?_, ?_, ?_, ?_⟩
  · intro hm
    refine (hi.accounted ?_).netApp event hen
    cases event <;> exact hm
  · cases event <;> exact hi.bit
  · cases event <;> exact fun _ => .inr rfl
  · cases event <;> exact hi.commands

theorem send_pending (hen : s.Enabled .send) : s.service.send.notification.pending = true := by
  have hh : s.service.handler ≠ none := hen
  unfold Service.send
  split
  · rename_i hnone
    exact absurd hnone hh
  · rfl
  · rfl

theorem Inv.send (keeps : Bool) (hi : s.Inv) (hen : s.Enabled .send) :
    (s.next keeps .send).Inv := by
  have hpending := send_pending hen
  have hrest : s.service.send.pc = s.service.pc ∧ s.service.send.mediator = s.service.mediator ∧
      s.service.send.connectivity = s.service.connectivity := by
    unfold Service.send
    split <;> exact ⟨rfl, rfl, rfl⟩
  obtain ⟨hpc, hmediator, hconnectivity⟩ := hrest
  refine ⟨?_, fun _ => hpending, fun _ => .inl hpending, ?_⟩
  · intro hm
    refine (hi.accounted ?_).send hen
    have hm : mayResume { s with service := s.service.send } = true := hm
    unfold mayResume at hm ⊢
    simpa only [hpc, hmediator] using hm
  · show s.service.send.connectivity = s.service.send.mediator
    rw [hconnectivity, hmediator]
    exact hi.commands

/-! ## The steps of the task -/

/-- A step that leaves the notification and the handlers alone, and does not make it more likely
that the mediator runs. -/
theorem Inv.quiet (hi : s.Inv) {service : Service}
    (hn : service.notification = s.service.notification)
    (hh : service.handler = s.service.handler)
    (hc : service.connection = s.service.connection ∨ service.connection = .wifi_disconnected)
    (hm : mayResume { s with service := service } = true → s.mayResume = true)
    (hcommands : service.connectivity = service.mediator) :
    Inv { s with service := service } := by
  refine ⟨?_, ?_, ?_, hcommands⟩
  · intro hmay
    obtain husable | hbit | hunsent | hreleased := hi.accounted (hm hmay)
    · exact .inl husable
    · exact .inr (.inl (by rw [← hn] at hbit; exact hbit))
    · refine .inr (.inr (.inl ?_))
      unfold unsentDisconnection at hunsent ⊢
      rw [Bool.and_eq_true] at hunsent ⊢
      rw [hh]
      refine ⟨hunsent.1, ?_⟩
      obtain hc | hc := hc
      · rw [hc]
        exact hunsent.2
      · rw [hc]
        rfl
    · exact .inr (.inr (.inr hreleased))
  · show service.notification.has 1 = true → service.notification.pending = true
    rw [hn]
    exact hi.bit
  · show s.released = true → service.notification.pending = true ∨ _
    rw [hn, hh]
    exact hi.released

/-- Storing `wifi_connecting` is harmless unless it hides a disconnection. -/
theorem Inv.startConnecting (hi : s.Inv) {pc : Pc}
    (hm : mayResume { s with service := s.service.startConnecting pc } = true → s.mayResume = true)
    (hover : s.unsentDisconnection = true → s.mayResume = false) :
    Inv { s with service := s.service.startConnecting pc } := by
  refine ⟨?_, fun _ => rfl, fun _ => .inl rfl, hi.commands⟩
  intro hmay
  obtain husable | hbit | hunsent | hreleased := hi.accounted (hm hmay)
  · exact .inl husable
  · refine .inr (.inl ?_)
    show ((s.service.notification.setBits _).has 1) = true
    rw [Notification.setBits_has, hbit, Bool.true_or]
  · have hnot := hover hunsent
    rw [hm hmay] at hnot
    exact absurd hnot (by decide)
  · exact .inr (.inr (.inr hreleased))

/-- The wait that begins clears a bit that nothing depends on. -/
theorem Inv.enter (hi : s.Inv) (hpc : s.service.pc = .enter) :
    Inv { s with service := { s.service with
      pc := .wait, notification := s.service.notification.entered WIFI_PENDING_STATE } } := by
  have hbit : (s.service.notification.entered WIFI_PENDING_STATE).has 1 =
      s.service.notification.has 1 := Notification.entered_has (by decide)
  refine ⟨?_, ?_, ?_, hi.commands⟩
  · intro hmay
    have hm : s.mayResume = true := by
      unfold mayResume at hmay ⊢
      rw [hpc]
      exact hmay
    obtain husable | hb | hunsent | hreleased := hi.accounted hm
    · exact .inl husable
    · exact .inr (.inl (hbit.trans hb))
    · exact .inr (.inr (.inl hunsent))
    · exact .inr (.inr (.inr hreleased))
  · intro hb
    show (s.service.notification.entered WIFI_PENDING_STATE).pending = true
    rw [Notification.entered_pending]
    exact hi.bit (hbit.symm.trans hb)
  · show s.released = true → (s.service.notification.entered WIFI_PENDING_STATE).pending = true ∨ _
    rw [Notification.entered_pending]
    exact hi.released

/-- The wait that returns: what it reads matches the link. -/
theorem Inv.read (hi : s.Inv) (hpc : s.service.pc = .wait) (hmatch : s.readsMatching = true) :
    Inv { s with
      service := { s.service with
        pc := .disconnected s.service.notification.value
        notification := s.service.notification.taken (BitVec.allOnes 32) }
      released := s.released && decide (s.service.handler = some .CC3100_NetAppEvtHdlr) } := by
  refine ⟨?_, ?_, ?_, hi.commands⟩
  · intro hmay
    -- what is left after the read: the link is usable, or its loss is still to be sent
    have hreason : s.usable = true ∨ s.unsentLoss = true := by
      unfold readsMatching at hmatch
      by_cases hacq : isAcquired s.service.notification.value = true
      · simp only [hacq, if_true] at hmatch
        simpa using hmatch
      · unfold mayResume at hmay
        simp only [hacq, Bool.false_or, Bool.and_eq_true, Bool.not_eq_true'] at hmay
        have hmediator : s.service.mediator = some true := by simpa using hmay.2
        have hdisc : s.service.notification.has 1 = false := by
          rw [← hmay.1]
          exact isDisconnected_iff.symm
        have hm : s.mayResume = true := by
          unfold mayResume
          simp [hpc, hmediator]
        simp only [hacq, hmay.1, hmediator] at hmatch
        obtain husable | hbit | hunsent | hreleased := hi.accounted hm
        · exact .inl husable
        · rw [hdisc] at hbit
          exact absurd hbit (by decide)
        · exact .inr (by simp [unsentLoss, hunsent])
        · exact .inr (by simpa [hreleased.1] using hmatch)
    obtain husable | hloss := hreason
    · exact .inl husable
    · unfold unsentLoss at hloss
      rw [Bool.or_eq_true, Bool.and_eq_true] at hloss
      obtain hunsent | hreleased := hloss
      · exact .inr (.inr (.inl hunsent))
      · exact .inr (.inr (.inr hreleased))
  · intro hb
    rw [show (Notification.taken _ _).has 1 = false from Notification.taken_allOnes_has] at hb
    exact absurd hb (by decide)
  · intro hr
    rw [Bool.and_eq_true, decide_eq_true_iff] at hr
    exact .inr hr.2

theorem Inv.run (keeps : Bool) (hi : s.Inv) (connects : Bool)
    (hmatch : s.Matching (.run connects)) :
    (s.next keeps (.run connects)).Inv := by
  show Inv { s with service := s.service.step connects, released := s.readReleased }
  have hreleased : s.service.pc ≠ .wait → s.readReleased = s.released := by
    intro hpc
    unfold readReleased
    rw [if_neg (fun h => hpc h.1)]
  have hmatch : s.matching = true := hmatch
  unfold matching at hmatch
  unfold Service.step
  cases hpc : s.service.pc with
  | restart =>
    rw [hreleased (by simp [hpc])]
    exact hi.quiet rfl rfl (.inr rfl) (fun hm => by simpa [mayResume, hpc] using hm) hi.commands
  | setup =>
    rw [hreleased (by simp [hpc])]
    simp only [hpc, Bool.or_eq_true, Bool.not_eq_true'] at hmatch
    apply hi.startConnecting
    · intro hm
      unfold mayResume at hm ⊢
      rw [hpc]
      exact hm
    · intro hunsent
      rw [hunsent] at hmatch
      exact hmatch.resolve_left (by decide)
  | enter =>
    rw [hreleased (by simp [hpc])]
    exact hi.enter hpc
  | wait =>
    simp only [hpc] at hmatch
    by_cases hp : s.service.notification.pending = true
    · have hread : s.readReleased =
          (s.released && decide (s.service.handler = some .CC3100_NetAppEvtHdlr)) := by
        unfold readReleased
        rw [if_pos ⟨hpc, hp⟩]
      rw [hread]
      simp only [hp, if_true]
      exact hi.read hpc (by simpa [hp] using hmatch)
    · have hread : s.readReleased = s.released := by
        unfold readReleased
        rw [if_neg (fun h => hp h.2)]
      rw [hread]
      simp only [hp, Bool.false_eq_true, if_false]
      exact hi.quiet rfl rfl (.inl rfl) (fun hm => by simpa [mayResume, hpc] using hm)
        hi.commands
  | disconnected val =>
    rw [hreleased (by simp [hpc])]
    dsimp only
    by_cases hd : isDisconnected val = true
    · rw [if_pos hd]
      exact hi.quiet rfl rfl (.inl rfl)
        (fun hm => by simpa [mayResume, hpc, hd] using hm) rfl
    · rw [if_neg hd]
      exact hi.quiet rfl rfl (.inl rfl)
        (fun hm => by simpa [mayResume, hpc, hd] using hm) hi.commands
  | reconnect val =>
    rw [hreleased (by simp [hpc])]
    simp only [hpc, Bool.or_eq_true, Bool.not_eq_true'] at hmatch
    apply hi.startConnecting
    · intro hm
      unfold mayResume at hm ⊢
      rw [hpc]
      exact hm
    · intro hunsent
      rw [hunsent] at hmatch
      exact hmatch.resolve_left (by decide)
  | connecting val =>
    rw [hreleased (by simp [hpc])]
    dsimp only
    by_cases hc : (isConnecting val && !connects) = true
    · rw [if_pos hc]
      refine hi.quiet rfl rfl (.inl rfl) ?_ hi.commands
      intro hm
      have hm : s.service.mediator = some true := by simpa [mayResume] using hm
      simp [mayResume, hpc, hm]
    · rw [if_neg hc]
      exact hi.quiet rfl rfl (.inl rfl) (fun hm => by simpa [mayResume, hpc] using hm)
        hi.commands
  | acquired val =>
    rw [hreleased (by simp [hpc])]
    dsimp only
    by_cases ha : isAcquired val = true
    · rw [if_pos ha]
      exact hi.quiet rfl rfl (.inl rfl) (fun _ => by simp [mayResume, hpc, ha]) rfl
    · rw [if_neg ha]
      exact hi.quiet rfl rfl (.inl rfl)
        (fun hm => by simpa [mayResume, hpc, ha] using hm) hi.commands
  | stop =>
    rw [hreleased (by simp [hpc])]
    exact hi.quiet rfl rfl (.inl rfl) (fun hm => by simpa [mayResume, hpc] using hm) hi.commands

theorem Inv.start : Wifi.start.Inv :=
  ⟨fun h => absurd h (by decide), by decide, by decide, rfl⟩

/-- With all bits processed, nothing but a usable link accounts for the mediator. -/
theorem Inv.honest (hi : s.Inv) : s.Honest := by
  intro hidle
  obtain ⟨hpc, hpending, hhandler⟩ := hidle
  have husable : s.service.mediator = some true → s.usable = true := by
    intro hmediator
    have hm : s.mayResume = true := by
      obtain hpc | hpc := hpc <;> simp [mayResume, hpc, hmediator]
    obtain husable | hbit | hunsent | hreleased := hi.accounted hm
    · exact husable
    · rw [hi.bit hbit] at hpending
      exact absurd hpending (by decide)
    · unfold unsentDisconnection at hunsent
      simp [hhandler] at hunsent
    · have hr := hi.released hreleased.1
      simp [hpending, hhandler] at hr
  refine ⟨husable, ?_⟩
  rw [hi.commands]
  exact husable

/-- **The mediator runs only on a usable link** in every run in which each wake-up reads bits that
match it and no disconnection is overwritten while the mediator may run. -/
theorem honest_of_matching
    (h : (wifi keeps).Reaches (fun s i => s.Matching i) Wifi.start s) : s.Honest := by
  have hi : s.Inv := by
    apply h.invariant Inv.start
    intro s i hi hen hmatch
    cases i with
    | wlan event => exact Inv.wlan keeps hi event hen
    | netApp event => exact Inv.netApp keeps hi event hen
    | send => exact Inv.send keeps hi hen
    | run connects => exact Inv.run keeps hi connects hmatch
  exact hi.honest

instance (s : Observed) (i : Input) : Decidable ((wifi keeps).Enabled s i) :=
  inferInstanceAs (Decidable (s.Enabled i))

/-- The task starts, the device connects and gets an address, and the mediator is resumed. -/
def linkUp : List Input :=
  List.replicate 9 (.run true) ++
    [.wlan .connect, .send, .netApp .ipv4_ipacquired, .send] ++ List.replicate 5 (.run true)

/-- The link is lost. -/
theorem honest_of_matching_link_lost :
    ((wifi false).run Wifi.start
      (linkUp ++ [.wlan .disconnect, .send] ++ List.replicate 12 (.run true))).Honest :=
  honest_of_matching (System.reaches_run (by decide +kernel))

/-- The address is released, and the mediator keeps running without one. -/
theorem released_ignored :
    ∃ s, (wifi false).Reaches System.Free Wifi.start s ∧ s.Idle ∧ s.connected = true ∧
      s.address = false ∧ s.service.mediator = some true ∧
      s.service.connectivity = some true ∧ ¬ s.Honest := by
  refine ⟨(wifi false).run Wifi.start
    (linkUp ++ [.netApp .ip_released, .send] ++ List.replicate 5 (.run true)),
    System.reaches_run (by decide +kernel), by decide +kernel, by decide +kernel,
    by decide +kernel, by decide +kernel, by decide +kernel, by decide +kernel⟩

end Observed

end Miso.Connectivity.Wifi

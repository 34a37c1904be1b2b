import Mathlib.Data.List.GetD
import Miso.Net.TlsSpec
import Miso.Net.Transport

/-!
# Setting the clock (`ntp.zig`, `boards/xdk110.zig`)

`getTimeFromServer` sends a request and reads the reply into the buffer of the request, so the
bytes that a short reply does not reach are still those of the request.

* `process_server_packet_ok` — the checks that a packet passes;
* `getTimeFromServer_reply` — what is done with a reply, whatever its length;
* `clock_honoured_iff` — when the clock is set from complete and genuine replies only, for every
  datagram and for a wait that times out.
-/

namespace Miso.Net.Ntp

open Zig Transport

/-! ## Packets -/

/-- `sntp_error`, and the errors of the connection. -/
inductive NtpError where
  | invalid_server_version | invalid_packet | invalid_origin_timestamp | kiss_of_death | send_error
  | connection (e : Error)
  deriving DecidableEq, Repr

def request_v4 : UInt8 := 0x23
def response_v4 : UInt8 := 0x24
def server_response_mask : UInt8 := 0x3F
def kod : UInt8 := 0
def interval_16s : UInt8 := 4
def interval_131072s : UInt8 := 17

/-- The big-endian number in four bytes of a packet: `@byteSwap` of the field there. -/
def word (bytes : List UInt8) (off : Nat) : UInt32 :=
  (bytes.getD off 0).toUInt32 <<< 24 ||| (bytes.getD (off + 1) 0).toUInt32 <<< 16 |||
    (bytes.getD (off + 2) 0).toUInt32 <<< 8 ||| (bytes.getD (off + 3) 0).toUInt32

/-- The bytes of a number in network order. -/
def wordBytes (v : UInt32) : List UInt8 :=
  [(v >>> 24).toUInt8, (v >>> 16).toUInt8, (v >>> 8).toUInt8, v.toUInt8]

/-- `sntp_v4_packet`: the memory of a packet. -/
structure sntp_v4_packet where
  slice : List UInt8
  size : slice.length = 48

namespace sntp_v4_packet

variable (p : sntp_v4_packet)

def leap_version_mode : UInt8 := p.slice.getD 0 0
def stratum : UInt8 := p.slice.getD 1 0
def poll_interval : UInt8 := p.slice.getD 2 0
def originate_timestamp_seconds : UInt32 := word p.slice 24
def originate_timestamp_fraction : UInt32 := word p.slice 28
def receive_timestamp_seconds : UInt32 := word p.slice 32
def recieve_timestamp_fraction : UInt32 := word p.slice 36
def transmit_timestamp_seconds : UInt32 := word p.slice 40
def transmit_timestamp_fraction : UInt32 := word p.slice 44

/-- `createRequest`. -/
def createRequest (originate_timestamp_s originate_timestamp_frac : UInt32) : sntp_v4_packet where
  slice := request_v4 :: List.replicate 39 0 ++ wordBytes originate_timestamp_s ++
    wordBytes originate_timestamp_frac
  size := rfl

/-- The packet after a datagram has been read into its memory. -/
def overwrite (d : List UInt8) : sntp_v4_packet where
  slice := d.take 48 ++ p.slice.drop d.length
  size := by
    have := p.size
    simp only [List.length_append, List.length_take, List.length_drop]
    omega

theorem overwrite_full {d : List UInt8} (h : d.length = 48) : (p.overwrite d).slice = d := by
  show d.take 48 ++ p.slice.drop d.length = d
  rw [List.take_of_length_le (Nat.le_of_eq h), List.drop_eq_nil_of_le (by rw [p.size, h]),
    List.append_nil]

end sntp_v4_packet

/-- `ntp_response`. -/
structure ntp_response where
  timestamp_s : UInt32
  timestamp_frac : UInt32
  poll_interval : UInt32
  deriving DecidableEq, Repr

/-- `process_server_packet`. -/
def process_server_packet (p : sntp_v4_packet) (origin_timestamp_s origin_timestamp_frac : UInt32) :
    Except NtpError ntp_response :=
  if p.leap_version_mode &&& server_response_mask ≠ response_v4 then
    .error .invalid_server_version
  else if p.stratum = kod then .error .kiss_of_death
  else if p.transmit_timestamp_seconds = 0 ∧ p.transmit_timestamp_fraction = 0 then
    .error .invalid_packet
  else if p.originate_timestamp_seconds ≠ origin_timestamp_s ∨
      p.originate_timestamp_fraction ≠ origin_timestamp_frac then
    .error .invalid_origin_timestamp
  else
    let interval := if p.poll_interval < interval_16s then interval_16s
      else if p.poll_interval > interval_131072s then interval_131072s
      else p.poll_interval
    .ok ⟨p.receive_timestamp_seconds, p.recieve_timestamp_fraction, 1 <<< interval.toUInt32⟩

/-! ## The client -/

/-- The sleeptimer, which is not part of the repository. -/
structure Libs where
  sl_sleeptimer_convert_unix_time_to_ntp : UInt32 → Option UInt32
  sl_sleeptimer_convert_ntp_time_to_unix : UInt32 → Option UInt32
  /-- `sl_sleeptimer_set_time` returns `SL_STATUS_OK`. -/
  sl_sleeptimer_set_time : UInt32 → Bool

/-- The connection, the clock and what the stack holds where `time_stamp` is undefined. -/
structure World where
  link : Link
  wire : Wire
  wait_rx : Except Error Bool
  clock : UInt32
  time_stamp : UInt32

abbrev NtpM := Prog World NtpError

/-- A call of the connection. -/
def link {α : Type} (m : NetM α) : NtpM α :=
  (m.zoom World.link fun l w => { w with link := l }).mapErr .connection

/-- A transfer over the connection. -/
def wire {α : Type} (m : WireM α) : NtpM α :=
  (m.zoom World.wire fun x w => { w with wire := x }).mapErr .connection

/-- `getNtpTime`. -/
def getNtpTime (X : Libs) (clock : UInt32) : UInt32 :=
  (X.sl_sleeptimer_convert_unix_time_to_ntp clock).getD 0

/-- `setTimeFromNtp`: neither a failed conversion nor a failed call is reported. -/
def setTimeFromNtp (X : Libs) (ntp_time : UInt32) : NtpM Unit :=
  Prog.modify fun w =>
    let time_stamp := (X.sl_sleeptimer_convert_ntp_time_to_unix ntp_time).getD w.time_stamp
    if X.sl_sleeptimer_set_time time_stamp then { w with clock := time_stamp } else w

/-- `send`. -/
def send (p : sntp_v4_packet) : NtpM Unit := do
  match ← (wire (SimpleLinkConnection.send p.slice)).attempt with
  | .ok len => if len ≠ 48 then Prog.throw .send_error else pure ()
  | .error _ => Prog.throw .send_error

/-- `conn.waitRx`. -/
def waitRx : NtpM Bool := do
  match (← Prog.get).wait_rx with
  | .ok ready => pure ready
  | .error e => Prog.throw (.connection e)

/-- What `getTimeFromServer` does on the open connection: whether the wait has timed out and the
    length of the reply are dropped. -/
def exchange (X : Libs) (originate_timestamp_s : UInt32) : NtpM ntp_response := do
  let originate_timestamp_frac := 0
  let packet := sntp_v4_packet.createRequest originate_timestamp_s originate_timestamp_frac
  send packet
  let _ ← waitRx
  let data ← wire (SimpleLinkConnection.recieve 48)
  match process_server_packet (packet.overwrite data) originate_timestamp_s
      originate_timestamp_frac with
  | .error e => Prog.throw e
  | .ok server_time => do
    setTimeFromNtp X server_time.timestamp_s
    pure server_time

/-- `getTimeFromServer`. -/
def getTimeFromServer (X : Libs) (fuel : Nat) (uri : Uri) : NtpM ntp_response := do
  let originate_timestamp_s := getNtpTime X (← Prog.get).clock
  link (SimpleLinkConnection.open fuel .udp_ip4 uri)
  Prog.deferring (link SimpleLinkConnection.close) (exchange X originate_timestamp_s)

/-! ## Genuine replies -/

/-- A complete reply to a request that was sent at `origin`: version 4, server mode, a stratum,
    a transmit time and the time of the request. -/
structure Genuine (d : List UInt8) (origin : UInt32) : Prop where
  complete : d.length = 48
  version : (d.getD 0 0 >>> 3) &&& 7 = 4
  mode : d.getD 0 0 &&& 7 = 4
  stratum : d.getD 1 0 ≠ 0
  transmit : ¬ (word d 40 = 0 ∧ word d 44 = 0)
  originate : word d 24 = origin ∧ word d 28 = 0

/-- The header of a server's reply in version 4. -/
theorem header_iff (b : UInt8) :
    b &&& server_response_mask = response_v4 ↔ (b >>> 3) &&& 7 = 4 ∧ b &&& 7 = 4 := by
  have hall : ∀ n : Fin 256, UInt8.ofNat n.val &&& 0x3F = 0x24 ↔
      (UInt8.ofNat n.val >>> 3) &&& 7 = 4 ∧ UInt8.ofNat n.val &&& 7 = 4 := by
    decide +kernel
  have hb := hall ⟨b.toNat, b.toNat_lt⟩
  rw [UInt8.ofNat_toNat] at hb
  exact hb

/-- **The checks that a packet passes**, and the time that is taken from it. -/
theorem process_server_packet_ok {p : sntp_v4_packet} {origin frac : UInt32} {r : ntp_response}
    (h : process_server_packet p origin frac = .ok r) :
    p.leap_version_mode &&& server_response_mask = response_v4 ∧ p.stratum ≠ kod ∧
      ¬ (p.transmit_timestamp_seconds = 0 ∧ p.transmit_timestamp_fraction = 0) ∧
      (p.originate_timestamp_seconds = origin ∧ p.originate_timestamp_fraction = frac) ∧
      r.timestamp_s = p.receive_timestamp_seconds := by
  unfold process_server_packet at h
  split at h
  · cases h
  · rename_i hheader
    split at h
    · cases h
    · rename_i hstratum
      split at h
      · cases h
      · rename_i htransmit
        split at h
        · cases h
        · rename_i horigin
          simp only [not_or, Decidable.not_not] at hheader horigin
          cases h
          exact ⟨hheader, hstratum, htransmit, horigin, rfl⟩

/-- A complete datagram that passes the checks is genuine, and conversely. -/
theorem genuine_iff {p : sntp_v4_packet} {d : List UInt8} {origin : UInt32}
    (hd : d.length = 48) :
    Genuine d origin ↔ ∃ r, process_server_packet (p.overwrite d) origin 0 = .ok r ∧
      r.timestamp_s = word d 32 := by
  have hslice := p.overwrite_full hd
  constructor
  · intro h
    have hheader := (header_iff _).mpr ⟨h.version, h.mode⟩
    have horigin : ¬ (word d 24 ≠ origin ∨ word d 28 ≠ 0) := by
      simp only [not_or, Decidable.not_not]
      exact h.originate
    unfold process_server_packet
    simp only [sntp_v4_packet.leap_version_mode, sntp_v4_packet.stratum,
      sntp_v4_packet.transmit_timestamp_seconds, sntp_v4_packet.transmit_timestamp_fraction,
      sntp_v4_packet.originate_timestamp_seconds, sntp_v4_packet.originate_timestamp_fraction,
      sntp_v4_packet.receive_timestamp_seconds, hslice]
    have hstratum : ¬ d.getD 1 0 = kod := h.stratum
    rw [if_neg (not_not_intro hheader), if_neg hstratum, if_neg h.transmit, if_neg horigin]
    exact ⟨_, rfl, rfl⟩
  · intro h
    obtain ⟨r, hr, -⟩ := h
    obtain ⟨hheader, hstratum, htransmit, horigin, -⟩ := process_server_packet_ok hr
    simp only [sntp_v4_packet.leap_version_mode, sntp_v4_packet.stratum,
      sntp_v4_packet.transmit_timestamp_seconds, sntp_v4_packet.transmit_timestamp_fraction,
      sntp_v4_packet.originate_timestamp_seconds, sntp_v4_packet.originate_timestamp_fraction,
      hslice] at hheader hstratum htransmit horigin
    obtain ⟨hversion, hmode⟩ := (header_iff _).mp hheader
    exact ⟨hd, hversion, hmode, hstratum, htransmit, horigin⟩

/-! ## Runs -/

namespace World

variable (w : World)

/-- The bytes of the datagram that `sl_RecvFrom` reads. -/
def datagram : List UInt8 := (w.wire.next [] 0).bytes 48

/-- The client after the driver has accepted some bytes of the request. -/
def sent (accepted : List UInt8) : World := { w with wire := w.wire.next accepted 0 }

/-- The datagram that the client reads as a reply: the request was sent, the wait returned,
    whether with data or timed out, and `sl_RecvFrom` returns a length. -/
def reply : Option (List UInt8) :=
  match w.wait_rx with
  | .error _ => none
  | .ok _ =>
    if w.wire.ret 48 = 48 ∧ 0 < (w.wire.next [] 0).ret 48 then some w.datagram else none

end World

section Runs

variable {X : Libs} {w : World} {α : Type}

theorem wire_ok {m : WireM α} {a : α} {x : Wire} (h : m w.wire = (.ok a, x)) :
    wire m w = (.ok a, { w with wire := x }) := by
  simp only [wire, Prog.mapErr, Prog.zoom, h]

theorem wire_err {m : WireM α} {e : Error} {x : Wire} (h : m w.wire = (.err e, x)) :
    wire m w = (.err (.connection e), { w with wire := x }) := by
  simp only [wire, Prog.mapErr, Prog.zoom, h]

theorem send_run (p : sntp_v4_packet) (w : World) :
    send p w = (if w.wire.ret 48 = 48 then .ok () else .err .send_error,
      w.sent (p.slice.take (w.wire.ret 48).toNat)) := by
  have hrun := SimpleLinkConnection.send_run p.slice w.wire
  rw [p.size] at hrun
  unfold send
  by_cases hneg : w.wire.ret (48 : Nat) ≤ 0
  · rw [if_pos hneg] at hrun
    rw [Prog.bind_ok _ (Prog.attempt_err (wire_err hrun)), if_neg (by omega)]
    rfl
  · rw [if_neg hneg] at hrun
    rw [Prog.bind_ok _ (Prog.attempt_ok (wire_ok hrun))]
    by_cases hall : w.wire.ret (48 : Nat) = 48
    · rw [if_pos hall]
      simp only
      rw [if_neg (by omega)]
      rfl
    · rw [if_neg hall]
      simp only
      rw [if_pos (by omega)]
      rfl

theorem waitRx_ok {ready : Bool} (h : w.wait_rx = .ok ready) : waitRx w = (.ok ready, w) := by
  unfold waitRx
  rw [Prog.bind_ok _ (show (Prog.get : NtpM World) w = (.ok w, w) from rfl), h]
  rfl

theorem waitRx_err {e : Error} (h : w.wait_rx = .error e) :
    waitRx w = (.err (.connection e), w) := by
  unfold waitRx
  rw [Prog.bind_ok _ (show (Prog.get : NtpM World) w = (.ok w, w) from rfl), h]
  rfl

/-- What the driver delivers does not depend on what it has accepted. -/
theorem recieve_run (w : World) (accepted : List UInt8) :
    wire (SimpleLinkConnection.recieve 48) (w.sent accepted) =
      (if (w.wire.next [] 0).ret 48 ≤ 0 then .err (.connection .recieve_error)
        else .ok w.datagram,
        { w.sent accepted with
          wire := (w.sent accepted).wire.next [] ((w.wire.next [] 0).ret 48).toNat }) := by
  have hrun : SimpleLinkConnection.recieve 48 (w.sent accepted).wire =
      (if (w.wire.next [] 0).ret 48 ≤ 0 then .err .recieve_error else .ok w.datagram,
        (w.sent accepted).wire.next [] ((w.wire.next [] 0).ret 48).toNat) :=
    SimpleLinkConnection.recieve_run 48 (w.sent accepted).wire
  by_cases hneg : (w.wire.next [] 0).ret 48 ≤ 0
  · rw [if_pos hneg] at hrun ⊢
    exact wire_err hrun
  · rw [if_neg hneg] at hrun ⊢
    exact wire_ok hrun

/-- **Without a reply the clock is left alone** and an error is returned. -/
theorem exchange_silent (origin : UInt32) (h : w.reply = none) :
    wp (exchange X origin) (fun x w' => x.failed = true ∧ w'.clock = w.clock) w := by
  have hsend := send_run (sntp_v4_packet.createRequest origin 0) w
  unfold exchange
  by_cases hall : w.wire.ret 48 = 48
  · rw [if_pos hall] at hsend
    apply wp_of_same (Prog.bind_ok _ hsend)
    generalize (sntp_v4_packet.createRequest origin 0).slice.take (w.wire.ret 48).toNat = accepted
    cases hwait : w.wait_rx with
    | error e =>
      have hwait : (w.sent accepted).wait_rx = .error e := hwait
      exact wp_of_eq (Prog.bind_err _ (waitRx_err hwait)) ⟨rfl, rfl⟩
    | ok ready =>
      unfold World.reply at h
      rw [hwait] at h
      simp only [hall, true_and, ite_eq_right_iff, reduceCtorEq, imp_false] at h
      have hwait : (w.sent accepted).wait_rx = .ok ready := hwait
      have hrecieve := recieve_run w accepted
      rw [if_pos (Int.not_lt.mp h)] at hrecieve
      apply wp_of_same (Prog.bind_ok _ (waitRx_ok hwait))
      exact wp_of_eq (Prog.bind_err _ hrecieve) ⟨rfl, rfl⟩
  · rw [if_neg hall] at hsend
    exact wp_of_eq (Prog.bind_err _ hsend) ⟨rfl, rfl⟩

/-- The clock after `setTimeFromNtp`. -/
def World.clockAfter (X : Libs) (w : World) (ntp_time : UInt32) : UInt32 :=
  let time_stamp := (X.sl_sleeptimer_convert_ntp_time_to_unix ntp_time).getD w.time_stamp
  if X.sl_sleeptimer_set_time time_stamp then time_stamp else w.clock

theorem setTimeFromNtp_run (X : Libs) (w : World) (ntp_time : UInt32) :
    setTimeFromNtp X ntp_time w = (.ok (), { w with clock := w.clockAfter X ntp_time }) := by
  unfold setTimeFromNtp World.clockAfter Prog.modify
  simp only
  split <;> rfl

/-- **What is done with a reply**: the packet that it leaves in the buffer is checked, and the
    clock is set if it passes. -/
theorem exchange_reply {d : List UInt8} (origin : UInt32) (h : w.reply = some d) :
    wp (exchange X origin) (fun x w' =>
      match process_server_packet ((sntp_v4_packet.createRequest origin 0).overwrite d)
        origin 0 with
      | .error e => x = .err e ∧ w'.clock = w.clock
      | .ok r => x = .ok r ∧ w'.clock = w.clockAfter X r.timestamp_s) w := by
  unfold World.reply at h
  cases hwait : w.wait_rx with
  | error e =>
    rw [hwait] at h
    cases h
  | ok ready =>
    rw [hwait] at h
    simp only [Option.ite_none_right_eq_some, Option.some.injEq] at h
    obtain ⟨⟨hall, hsome⟩, rfl⟩ := h
    have hsend := send_run (sntp_v4_packet.createRequest origin 0) w
    rw [if_pos hall] at hsend
    unfold exchange
    apply wp_of_same (Prog.bind_ok _ hsend)
    generalize (sntp_v4_packet.createRequest origin 0).slice.take (w.wire.ret 48).toNat = accepted
    have hwait : (w.sent accepted).wait_rx = .ok ready := hwait
    have hrecieve := recieve_run w accepted
    rw [if_neg (Int.not_le.mpr hsome)] at hrecieve
    apply wp_of_same (Prog.bind_ok _ (waitRx_ok hwait))
    apply wp_of_same (Prog.bind_ok _ hrecieve)
    cases process_server_packet ((sntp_v4_packet.createRequest origin 0).overwrite w.datagram)
        origin 0 with
    | error e => exact ⟨rfl, rfl⟩
    | ok r =>
      apply wp_of_same (Prog.bind_ok _ (setTimeFromNtp_run X _ r.timestamp_s))
      exact ⟨rfl, rfl⟩

theorem link_ok {m : NetM α} {a : α} {l : Link} (h : m w.link = (.ok a, l)) :
    link m w = (.ok a, { w with link := l }) := by
  simp only [link, Prog.mapErr, Prog.zoom, h]

theorem link_close (w : World) : wp (link SimpleLinkConnection.close)
    (fun y w' => (y = .ok () ∨ ∃ e, y = .err e) ∧ w'.clock = w.clock) w := by
  have hclose := close_run w.link
  unfold wp link
  simp only [Prog.mapErr, Prog.zoom, hclose]
  split
  · rename_i heq
    split at heq <;> cases heq
    exact ⟨.inl rfl, rfl⟩
  · rename_i heq
    split at heq <;> cases heq
    exact ⟨.inr ⟨_, rfl⟩, rfl⟩
  · rename_i heq
    split at heq <;> cases heq
  · rename_i heq
    split at heq <;> cases heq

/-- On a connection that opens, the exit and the clock are those of the exchange. -/
theorem getTimeFromServer_spec {fuel : Nat} {uri : Uri} {l : Link} {Q : Exit NtpError ntp_response → UInt32 → Prop}
    (hopen : SimpleLinkConnection.open fuel .udp_ip4 uri w.link = (.ok (), l))
    (h : wp (exchange X (getNtpTime X w.clock)) (fun x w' => Q x w'.clock)
      { w with link := l }) :
    wp (getTimeFromServer X fuel uri) (fun x w' => Q x w'.clock) w := by
  unfold getTimeFromServer
  rw [wp_bind, wp_get, thenPost_ok]
  apply wp_of_same (Prog.bind_ok _ (link_ok hopen))
  apply wp_deferring_returns
  apply wp_mono h
  intro x w' hx
  have hclose (hx : Q x w'.clock) : wp (link SimpleLinkConnection.close)
      (fun y w'' => (y = .ok () ∨ ∃ e, y = .err e) ∧ Q x w''.clock) w' := by
    apply wp_mono (link_close w')
    intro y w'' hy
    rw [hy.2]
    exact ⟨hy.1, hx⟩
  cases x with
  | ok r => exact hclose hx
  | err e => exact hclose hx
  | trap => exact hx
  | halt => exact hx

end Runs

/-! ## When the clock is set from genuine replies only -/

/-- The clock changes only for a complete and genuine reply, to the time it carries; without one,
    or without a time that can be converted, it does not change and an error is returned. -/
def Honoured (X : Libs) (fuel : Nat) (uri : Uri) (w : World) : Prop :=
  wp (getTimeFromServer X fuel uri) (fun x w' =>
    (w'.clock ≠ w.clock → ∃ d, w.reply = some d ∧ Genuine d (getNtpTime X w.clock) ∧
      X.sl_sleeptimer_convert_ntp_time_to_unix (word d 32) = some w'.clock) ∧
    ((∀ d, w.reply = some d → Genuine d (getNtpTime X w.clock) →
      X.sl_sleeptimer_convert_ntp_time_to_unix (word d 32) = none) →
      w'.clock = w.clock ∧ x.failed = true)) w

/-- A reply that passes the checks, together with what the request has left in the buffer, has
    all 48 bytes, and the time it carries can be converted. -/
def Sound (X : Libs) (w : World) : Prop :=
  ∀ d r, w.reply = some d → process_server_packet
      ((sntp_v4_packet.createRequest (getNtpTime X w.clock) 0).overwrite d)
      (getNtpTime X w.clock) 0 = .ok r →
    d.length = 48 ∧ X.sl_sleeptimer_convert_ntp_time_to_unix (word d 32) ≠ none

/-- Nothing is owed where the clock is left alone and an error is returned. -/
theorem honoured_of_failed {X : Libs} {fuel : Nat} {uri : Uri} {w : World}
    (h : wp (getTimeFromServer X fuel uri) (fun x w' => x.failed = true ∧ w'.clock = w.clock) w) :
    Honoured X fuel uri w := by
  apply wp_mono h
  intro x w' hx
  exact ⟨fun hchanged => absurd hx.2 hchanged, fun _ => ⟨hx.2, hx.1⟩⟩

/-- **The clock is set from genuine replies only, exactly if the reply is `Sound`**, for every
    datagram and every result of the wait on a connection that opens. -/
theorem clock_honoured_iff (X : Libs) (fuel : Nat) (uri : Uri) (w : World) (l : Link)
    (hopen : SimpleLinkConnection.open fuel .udp_ip4 uri w.link = (.ok (), l)) :
    Honoured X fuel uri w ↔ Sound X w := by
  have hspec := fun Q => getTimeFromServer_spec (X := X) (Q := Q) hopen
  unfold Sound
  generalize horigin : getNtpTime X w.clock = origin at hspec ⊢
  cases hreply : w.reply with
  | none =>
    have hsilent := exchange_silent (X := X) (w := { w with link := l }) origin hreply
    have hhonoured := honoured_of_failed (hspec (fun x c => x.failed = true ∧ c = w.clock) hsilent)
    exact ⟨fun _ _ _ => nofun, fun _ => hhonoured⟩
  | some d =>
    have hexchange := exchange_reply (X := X) (w := { w with link := l }) origin hreply
    cases hpacket : process_server_packet
        ((sntp_v4_packet.createRequest origin 0).overwrite d) origin 0 with
    | error e =>
      simp only [hpacket] at hexchange
      have hhonoured : Honoured X fuel uri w := by
        apply honoured_of_failed
        apply hspec fun x c => x.failed = true ∧ c = w.clock
        apply wp_mono hexchange
        intro x w' hx
        exact ⟨by rw [hx.1]; rfl, hx.2⟩
      refine ⟨fun _ d' r hd' hr => ?_, fun _ => hhonoured⟩
      cases hd'
      rw [hpacket] at hr
      cases hr
    | ok r =>
      simp only [hpacket] at hexchange
      have hrun := hspec (fun x c => x = .ok r ∧ c = w.clockAfter X r.timestamp_s) hexchange
      constructor
      · intro hhonoured d' r' hd' hr'
        cases hd'
        by_contra hnot
        have hnone : ∀ d', some d = some d' → Genuine d' origin →
            X.sl_sleeptimer_convert_ntp_time_to_unix (word d' 32) = none := by
          intro d' hd' hgenuine
          cases hd'
          by_contra htime
          exact hnot ⟨hgenuine.complete, htime⟩
        unfold Honoured at hhonoured
        rw [hreply, horigin] at hhonoured
        have hfailed := (hhonoured.2 hnone).2
        rw [hrun.1] at hfailed
        cases hfailed
      · intro hsound
        obtain ⟨hfull, htime⟩ := hsound d r rfl hpacket
        have hseconds : r.timestamp_s = word d 32 := by
          rw [(process_server_packet_ok hpacket).2.2.2.2]
          unfold sntp_v4_packet.receive_timestamp_seconds
          rw [sntp_v4_packet.overwrite_full _ hfull]
        have hgenuine : Genuine d origin := (genuine_iff hfull).mpr ⟨r, hpacket, hseconds⟩
        obtain ⟨t, ht⟩ := Option.ne_none_iff_exists'.mp htime
        unfold Honoured
        apply wp_mono hrun
        intro x w' hx
        have hclock : w'.clock = if X.sl_sleeptimer_set_time t then t else w.clock := by
          rw [hx.2, hseconds]
          simp only [World.clockAfter, ht, Option.getD_some]
        rw [hreply, horigin]
        constructor
        · intro hchanged
          refine ⟨d, rfl, hgenuine, ?_⟩
          rw [ht, hclock]
          by_cases hset : X.sl_sleeptimer_set_time t = true
          · rw [if_pos hset]
          · rw [if_neg hset] at hclock
            exact absurd hclock hchanged
        · intro hnone
          rw [hnone d rfl hgenuine] at ht
          cases ht

/-- The sleeptimer from 1970 on: 2208988800 seconds after the start of the NTP era. -/
def Libs.era : Libs where
  sl_sleeptimer_convert_unix_time_to_ntp t := some (t + 2208988800)
  sl_sleeptimer_convert_ntp_time_to_unix t := if t < 2208988800 then none else some (t - 2208988800)
  sl_sleeptimer_set_time _ := true

def ntpUri : Uri := ⟨"ntp", some "time", some 123⟩

/-- A client at the clock's start whose request is sent and which reads `d`. -/
def World.reading (d : List UInt8) : World where
  link := ⟨fun _ _ => 0, fun _ => .ok (), -1, []⟩
  wire := ⟨fun n => if n = 0 then 48 else d.length, fun n => d.getD n 0, (0, false), []⟩
  wait_rx := .ok true
  clock := 0
  time_stamp := 0xDEADBEEF

/-- A reply of one hour and a second after the clock's start. -/
def fullReply : List UInt8 :=
  [0x24, 1] ++ List.replicate 22 0 ++ wordBytes 2208988800 ++ List.replicate 4 0 ++
    wordBytes 2208992401 ++ List.replicate 4 0 ++ wordBytes 2208992401 ++ List.replicate 4 0

theorem clock_honoured_iff_full :
    Honoured .era 1 ntpUri (.reading fullReply) ↔ Sound .era (.reading fullReply) :=
  clock_honoured_iff .era 1 ntpUri (.reading fullReply) _ rfl

/-- The first 36 bytes of the reply are enough. -/
theorem short_reply_accepted : ¬ Honoured .era 1 ntpUri (.reading (fullReply.take 36)) := by
  intro h
  have hclock : (getTimeFromServer .era 1 ntpUri (.reading (fullReply.take 36))).2.clock = 3601 := by
    decide +kernel
  have hreply : (World.reading (fullReply.take 36)).reply = some (fullReply.take 36) := by
    decide +kernel
  obtain ⟨d, hd, hgenuine, -⟩ := h.1 (by rw [hclock]; decide)
  rw [hreply] at hd
  cases hd
  exact absurd hgenuine.complete (by decide)

end Miso.Net.Ntp

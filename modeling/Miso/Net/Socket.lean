import Miso.Zig.Prog
import Miso.Zig.Ledger

/-!
# Sockets (`connection.zig`, `simpleConnection.zig`)

The state under a network service (`Link`) and the SimpleLink transport.  Everything that is not
part of the repository — the SimpleLink driver, mbedTLS and the credential callback — answers
from the state: `Link.code a n` is the return code of the `n`-th call of the function `a` from now
on, so that "for every sequence of return codes" is "for every `code`".

The calls that acquire and release something are recorded in `Link.log`, oldest first;
`moves` is the ledger behind that record.

Addresses, socket options and the local port have no state: `sl_SetSockOpt`, `sl_NetCfgSet` and
`sl_Bind` are called with their result dropped.
-/

namespace Miso.Net

open Zig

/-! ## Errors -/

/-- The global error set, as far as the network services can produce it. -/
inductive Error where
  -- `connection.connection_error`
  | create_error | dns | socket | connect | ssl_init_error | close_error | send_error
  | recieve_error | buffer_owerflow
  -- `mbedtls.mbedtls_error` and `mbedtls.auth_error`
  | psk_conf_error | generic_error | init_error | no_sec
  | no_callback | default_callback | unsuported_mode
  -- `mqtt.mqtt_error`
  | packetlen | enqueue_failed | dequeue_failed | connect_failed | send_failed | connack_failed
  | parse_failed | publish_parse_failed | subscribe_qos_topic_count_mismatch | qos_not_supported
  | qos_packet_not_found | pubrel_packet_not_found | qos_packet_timeout
  -- `freertos.FreeRtosError`, `std.mem.Allocator.Error` and `std.fmt.BufPrintError`
  | pdFAIL | QueueSendFailed | SemaphoreTakeTimeout | TimerStartFailed | TimerStopFailed
  | TimerChangePeriodFailed | OutOfMemory | NoSpaceLeft
  deriving DecidableEq, Repr

/-- `mbedtls.auth_error`. -/
inductive auth_error where
  | no_callback | default_callback | generic_error | unsuported_mode
  deriving DecidableEq, Repr

def auth_error.toError : auth_error → Error
  | .no_callback => .no_callback
  | .default_callback => .default_callback
  | .generic_error => .generic_error
  | .unsuported_mode => .unsuported_mode

/-! ## Protocols and schemes -/

/-- `connection.proto`. -/
inductive proto where
  | no_protocol | udp_ip4 | tcp_ip4 | udp_ip6 | tcp_ip6 | dtls_ip4 | tls_ip4 | dtls_ip6 | tls_ip6
  deriving DecidableEq, Repr

def protocol_bit : Nat := 1 <<< 0
def udp_tcp_bit : Nat := 1 <<< 1
def ip4_ip6_bit : Nat := 1 <<< 2
def secure_bit : Nat := 1 <<< 3

namespace proto

/-- `@intFromEnum`. -/
def intFromEnum : proto → Nat
  | no_protocol => 0
  | udp_ip4 => protocol_bit ||| udp_tcp_bit
  | tcp_ip4 => protocol_bit
  | udp_ip6 => protocol_bit ||| ip4_ip6_bit ||| udp_tcp_bit
  | tcp_ip6 => protocol_bit ||| ip4_ip6_bit
  | dtls_ip4 => protocol_bit ||| secure_bit ||| udp_tcp_bit
  | tls_ip4 => protocol_bit ||| secure_bit
  | dtls_ip6 => protocol_bit ||| secure_bit ||| ip4_ip6_bit ||| udp_tcp_bit
  | tls_ip6 => protocol_bit ||| secure_bit ||| ip4_ip6_bit

def isSecure (p : proto) : Bool := p.intFromEnum &&& secure_bit != 0
def isIp6 (p : proto) : Bool := p.intFromEnum &&& ip4_ip6_bit != 0
def isTcp (p : proto) : Bool := p.intFromEnum &&& udp_tcp_bit == 0
def isUdp (p : proto) : Bool := p.intFromEnum &&& udp_tcp_bit != 0
def isDtls (p : proto) : Bool := p.isSecure && p.isUdp
def isTls (p : proto) : Bool := p.isSecure && p.isTcp
def isStream (p : proto) : Bool := p.isTcp

end proto

/-- `connection.security_mode`. -/
inductive security_mode where
  | no_sec | psk | certificate_ec | certificate_rsa
  deriving DecidableEq, Repr

/-- `connection.schemes`. -/
inductive schemes where
  | no_scheme | ntp | http | mqtt | coap | https | mqtts | coaps
  deriving DecidableEq, Repr

namespace schemes

/-- The entries of `stringmap`. -/
def stringmap : List (String × schemes) :=
  [("ntp", ntp), ("http", http), ("https", https), ("mqtt", mqtt), ("mqtts", mqtts),
   ("coap", coap), ("coaps", coaps)]

/-- `schemes.match`. -/
def ofScheme (scheme : String) : Option schemes := stringmap.lookup scheme

def getProtocol : schemes → proto
  | ntp | coap => .udp_ip4
  | coaps => .dtls_ip4
  | http | mqtt => .tcp_ip4
  | https | mqtts => .tls_ip4
  | no_scheme => .no_protocol

end schemes

/-- The components of a `std.Uri` that opening a connection reads. -/
structure Uri where
  scheme : String
  host : Option String
  port : Option UInt16
  deriving DecidableEq, Repr

/-! ## State -/

/-- The functions whose return codes decide how a connection comes about. -/
inductive Api where
  | sl_NetAppDnsGetHostByName | sl_Socket | sl_Connect | sl_Close
  | mbedtls_ssl_config_defaults | mbedtls_ssl_conf_max_frag_len | mbedtls_ctr_drbg_seed
  | mbedtls_ssl_conf_cid | mbedtls_ssl_setup | mbedtls_ctr_drbg_random | mbedtls_ssl_set_cid
  | mbedtls_ssl_handshake | mbedtls_ssl_write
  deriving DecidableEq, Repr

/-- `MBEDTLS_SSL_TRANSPORT_*`. -/
inductive Transport where
  | stream | datagram
  deriving DecidableEq, Repr

/-- The SimpleLink settings of a protocol (`sl_fam`, `sl_type`, `sl_proto`). -/
structure SlSettings where
  ip6 : Bool
  stream : Bool
  udp : Bool
  deriving DecidableEq, Repr

/-- `mapConnProtoToSl`. -/
def mapConnProtoToSl (p : proto) : SlSettings :=
  { ip6 := p.isIp6, stream := p.isStream, udp := p.isUdp }

/-- The calls whose order the properties speak about. -/
inductive NetCall where
  | messup
  | cleanup
  | mbedtls_ssl_config_defaults (transport : Transport)
  | mbedtls_ssl_handshake (ret : Int)
  | sl_Socket (settings : SlSettings) (sd : Int)
  | sl_Close (sd : Int)
  deriving DecidableEq, Repr

/-- The network side of a service. -/
structure Link where
  /-- The return codes to come, by function. -/
  code : Api → Nat → Int
  /-- The results of the credential callback to come. -/
  auth : Nat → Except auth_error Unit
  /-- `SimpleLinkConnection.sd`. -/
  sd : Int
  /-- Oldest call first. -/
  log : List NetCall

abbrev NetM := Prog Link Error

/-- What a connection holds: the mbedTLS context with its timers, and a socket. -/
inductive Resource where
  | tls
  | socket (sd : Int)
  deriving DecidableEq, Repr

/-- A call of `sl_Socket` acquires a socket if it returns a descriptor. -/
def NetCall.move : NetCall → Option (Move Resource)
  | messup => some (.acquire .tls)
  | cleanup => some (.release .tls)
  | sl_Socket _ sd => if sd < 0 then none else some (.acquire (.socket sd))
  | sl_Close sd => some (.release (.socket sd))
  | mbedtls_ssl_config_defaults _ => none
  | mbedtls_ssl_handshake _ => none

/-- The ledger of a record of calls. -/
def moves (log : List NetCall) : List (Move Resource) := log.filterMap NetCall.move

theorem moves_append (l k : List NetCall) : moves (l ++ k) = moves l ++ moves k :=
  List.filterMap_append

namespace Link

/-- The next return code of `a` has been used. -/
def advance (s : Link) (a : Api) : Link :=
  { s with code := fun b => if b = a then fun n => s.code a (n + 1) else s.code b }

def record (s : Link) (l : List NetCall) : Link := { s with log := s.log ++ l }

@[simp] theorem advance_sd (s : Link) (a : Api) : (s.advance a).sd = s.sd := rfl
@[simp] theorem advance_log (s : Link) (a : Api) : (s.advance a).log = s.log := rfl
@[simp] theorem advance_auth (s : Link) (a : Api) : (s.advance a).auth = s.auth := rfl

@[simp] theorem advance_code_self (s : Link) (a : Api) :
    (s.advance a).code a = fun n => s.code a (n + 1) := by
  simp only [advance, if_true]

theorem advance_code_ne (s : Link) {a b : Api} (h : b ≠ a) : (s.advance a).code b = s.code b := by
  simp only [advance, h, if_false]

@[simp] theorem record_sd (s : Link) (l : List NetCall) : (s.record l).sd = s.sd := rfl
@[simp] theorem record_log (s : Link) (l : List NetCall) : (s.record l).log = s.log ++ l := rfl
@[simp] theorem record_auth (s : Link) (l : List NetCall) : (s.record l).auth = s.auth := rfl
@[simp] theorem record_code (s : Link) (l : List NetCall) : (s.record l).code = s.code := rfl

end Link

/-- A call into code outside the repository. -/
def call (a : Api) : NetM Int := fun s => (.ok (s.code a 0), s.advance a)

def record (l : List NetCall) : NetM Unit := Prog.modify (·.record l)

/-! ## `SimpleLinkConnection` -/

def SL_INVALID_SOCKET : Int := -1
def SL_OK : Int := 0
def SL_EALREADY : Int := -114

/-- `SimpleLinkConnection.socket`. -/
def SimpleLinkConnection.socket (p : proto) : NetM Unit := do
  let sd ← call .sl_Socket
  record [.sl_Socket (mapConnProtoToSl p) sd]
  Prog.modify fun s => { s with sd := sd }
  if sd < 0 then Prog.throw .socket

/-- The body of the loop of `connect`: the call is repeated while it is in progress. -/
def SimpleLinkConnection.tryConnect : NetM (Unit ⊕ Unit) := do
  let ret ← call .sl_Connect
  if ret = SL_EALREADY then pure (.inl ())
  else if ret < SL_OK then Prog.throw .connect
  else pure (.inr ())

/-- `SimpleLinkConnection.connect`. -/
def SimpleLinkConnection.connect (fuel : Nat) : NetM Unit :=
  Prog.loop (fun _ => tryConnect) fuel ()

/-- `SimpleLinkConnection.close`: the descriptor is given up whatever `sl_Close` returns. -/
def SimpleLinkConnection.close : NetM Unit :=
  Prog.deferring (Prog.modify fun s => { s with sd := SL_INVALID_SOCKET }) do
    record [.sl_Close (← Prog.get).sd]
    if 0 ≠ (← call .sl_Close) then Prog.throw .close_error

/-- `SimpleLinkConnection.open`. -/
def SimpleLinkConnection.open (fuel : Nat) (p : proto) (uri : Uri) : NetM Unit :=
  match uri.host, uri.port with
  | some _, some _ => do
    let dns ← call .sl_NetAppDnsGetHostByName
    if dns < 0 then Prog.throw .dns
    SimpleLinkConnection.socket p
    Prog.errdeferring SimpleLinkConnection.close (SimpleLinkConnection.connect fuel)
  | _, _ => Prog.trap

end Miso.Net

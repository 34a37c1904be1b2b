import Miso.Net.Socket

/-!
# TLS connections (`mbedtls.zig`)

`TlsContext` over a SimpleLink connection.  `messup` and `cleanup` create and delete the mbedTLS
context and its two timers; they are recorded as one call each.  Functions of mbedTLS that
return nothing (`mbedtls_ssl_conf_authmode`, …) have no effect on the model.

Both services create their context without custom callbacks, so `init` and `cleanup` are the
standard ones.
-/

namespace Miso.Net

open Zig

def mbedtls_ok : Int := 0
def mbedtls_nok : Int := -1
def MBEDTLS_ERR_SSL_WANT_READ : Int := -0x6900
def MBEDTLS_ERR_SSL_WANT_WRITE : Int := -0x6880
def MBEDTLS_ERR_SSL_ASYNC_IN_PROGRESS : Int := -0x6500
def MBEDTLS_ERR_SSL_CRYPTO_IN_PROGRESS : Int := -0x7000
def MBEDTLS_ERR_CTR_DRBG_ENTROPY_SOURCE_FAILED : Int := -0x34

/-- The parameters of the type `TlsContext`: the connection below it and the security mode. -/
structure TlsContext where
  conn : proto
  mode : security_mode
  deriving DecidableEq, Repr

namespace TlsContext

def messup : NetM Unit := record [.messup]

def cleanup : NetM Unit := record [.cleanup]

def deinit : NetM Unit := cleanup

/-- The credential callback of the service. -/
def auth_callback : NetM Unit := fun s =>
  let s' : Link := { s with auth := fun n => s.auth (n + 1) }
  match s.auth 0 with
  | .ok () => (.ok (), s')
  | .error e => (.err e.toError, s')

/-- The transport mode of a protocol in `init`. -/
def transport : proto → Transport
  | .dtls_ip4 | .dtls_ip6 => .datagram
  | _ => .stream

/-- `if (ret == mbedtls_ok) ret = …`. -/
def ifOk (m : NetM Int) (ret : Int) : NetM Int := if ret = mbedtls_ok then m else pure ret

/-- `if (protocol.isDtls()) if (ret == mbedtls_ok) ret = …`. -/
def ifDtls (protocol : proto) (m : NetM Int) (ret : Int) : NetM Int :=
  if protocol.isDtls then ifOk m ret else pure ret

/-- `if (ret == mbedtls_ok) try self.auth_callback(…)`. -/
def authenticate (ret : Int) : NetM Unit := if ret = mbedtls_ok then auth_callback else pure ()

/-- A failing entropy source is tolerated. -/
def seedCode (ret : Int) : Int :=
  if ret = MBEDTLS_ERR_CTR_DRBG_ENTROPY_SOURCE_FAILED then mbedtls_ok else ret

def seed : NetM Int := do
  let ret ← call .mbedtls_ctr_drbg_seed
  pure (seedCode ret)

/-- The modes that have a cipher suite. -/
def ciphersuites : security_mode → Int
  | .psk | .certificate_ec => mbedtls_ok
  | _ => mbedtls_nok

/-- `TlsContext.init`. -/
def init (T : TlsContext) (protocol : proto) : NetM Unit :=
  if !protocol.isSecure then Prog.throw .no_sec
  else do
    messup
    record [.mbedtls_ssl_config_defaults (transport protocol)]
    let ret ← call .mbedtls_ssl_config_defaults
    let ret ← ifOk (call .mbedtls_ssl_conf_max_frag_len) ret
    let ret ← ifOk seed ret
    let ret ← ifOk (pure (ciphersuites T.mode)) ret
    let ret ← ifDtls protocol (call .mbedtls_ssl_conf_cid) ret
    authenticate ret
    let ret ← ifOk (call .mbedtls_ssl_setup) ret
    let ret ← ifDtls protocol (call .mbedtls_ctr_drbg_random) ret
    let ret ← ifDtls protocol (call .mbedtls_ssl_set_cid) ret
    if ret ≠ mbedtls_ok then Prog.throw .init_error else pure ()

/-- The body of the handshake loop of `open`; `ret` is the last return code. -/
def tryHandshake (ret : Int) : NetM (Int ⊕ Unit) :=
  if ret ≠ 0 ∧ (ret = MBEDTLS_ERR_SSL_WANT_WRITE ∨ ret = MBEDTLS_ERR_SSL_WANT_READ) then do
    let ret ← call .mbedtls_ssl_handshake
    record [.mbedtls_ssl_handshake ret]
    pure (.inl ret)
  else pure (.inr ())

/-- The handshake loop of `open`; the last return code is dropped. -/
def handshake (fuel : Nat) : NetM Unit := Prog.loop tryHandshake fuel MBEDTLS_ERR_SSL_WANT_WRITE

end TlsContext

/-- `TlsContext.open`: the `errdefer` of `deinit` is armed behind `init`. -/
def TlsContext.open (fuel : Nat) (T : TlsContext) (uri : Uri) : NetM Unit :=
  match schemes.ofScheme uri.scheme with
  | none => Prog.trap
  | some scheme => do
    T.init scheme.getProtocol
    Prog.errdeferring deinit do
      SimpleLinkConnection.open fuel T.conn uri
      Prog.errdeferring SimpleLinkConnection.close (handshake fuel)

/-- `TlsContext.close`. -/
def TlsContext.close : NetM Unit :=
  Prog.deferring deinit SimpleLinkConnection.close

/-- `TlsContext.send_tls` of a buffer of `len` bytes: the loop carries `offset` and `ret`. -/
def TlsContext.send_tls (fuel : Nat) (len : Nat) : NetM Nat := do
  let (offset, ret) ← Prog.loop (fun (v : Nat × Int) =>
    if v.1 < len then do
      let num_bytes ← call .mbedtls_ssl_write
      if num_bytes = MBEDTLS_ERR_SSL_WANT_READ ∨ num_bytes = MBEDTLS_ERR_SSL_WANT_WRITE ∨
          num_bytes = MBEDTLS_ERR_SSL_ASYNC_IN_PROGRESS ∨
          num_bytes = MBEDTLS_ERR_SSL_CRYPTO_IN_PROGRESS then
        pure (.inl v)
      else if 0 ≤ num_bytes then pure (.inl (v.1 + num_bytes.toNat, 0))
      else pure (.inr (v.1, num_bytes))
    else pure (.inr v)) fuel (0, mbedtls_nok)
  if ret = 0 then pure offset else Prog.throw .send_error

end Miso.Net

import Miso.Mqtt.Service
import Miso.Net.TlsSpec
import Miso.Zig.Uri

/-!
# The configured URIs (`mqtt.zig`, `http.zig`, `lwm2m.zig`)

How each service opens the connection to the server that its URI names, from the text in the
configuration.

* `Total` — whatever the environment answers, opening ends in an error or with a connection, and
  a TLS context is configured for the socket below it;
* `Handled` — the texts for which nothing is unwrapped that is missing, and no mode is mixed;
* `total_iff` — the service is total exactly for these.
-/

namespace Miso.Config

open Zig Net

/-! ## The services -/

/-- The services that have a URI in the configuration. -/
inductive Service where
  | mqtt | http | lwm2m
  deriving DecidableEq, Repr

/-- How opening fails. -/
inductive OpenError where
  | uri (e : StdUri.ParseError)
  | connection (e : Error)
  -- the return code of a function that is called from C
  | returned (ret : Int)
  deriving DecidableEq, Repr

abbrev OpenM := Prog Link OpenError

/-- What opening a connection reads of a URI. -/
def uriOf (u : StdUri) : Uri := ⟨String.ofList u.scheme, u.host.map String.ofList, u.port⟩

/-- `std.Uri.parse`. -/
def parse (text : List Char) : OpenM Uri := do
  let u ← Prog.mapErr OpenError.uri (Prog.ofExit (StdUri.parse text))
  pure (uriOf u)

/-- `taskFunction` of `mqtt.zig`, as far as `connection.open`. -/
def mqttOpen (fuel : Nat) (text : List Char) : OpenM Unit := do
  let uri ← (parse text).orUnreachable
  Prog.mapErr OpenError.connection (TlsContext.open fuel Mqtt.connectionType uri)

/-- `filedownload` of `http.zig`, as far as `connection.open`. -/
def httpOpen (fuel : Nat) (text : List Char) : OpenM Unit := do
  let uri ← parse text
  Prog.mapErr OpenError.connection (SimpleLinkConnection.open fuel .tcp_ip4 uri)

/-- The parameters of the type of `connection` in `lwm2m.zig`. -/
def lwm2mConnection : TlsContext := ⟨.dtls_ip4, .psk⟩

/-- `lwm2mservice_create_connection`. -/
def lwm2mservice_create_connection (fuel : Nat) (text : List Char) : OpenM Int := do
  let .ok uri ← (parse text).attempt | pure (-1)
  let opened := Prog.mapErr OpenError.connection (TlsContext.open fuel lwm2mConnection uri)
  let .ok _ ← opened.attempt | pure (-1)
  pure 0

/-- `lwm2m_connect_server`, which takes any other code than 0 for an error. -/
def lwm2mOpen (fuel : Nat) (text : List Char) : OpenM Unit := do
  let ret ← lwm2mservice_create_connection fuel text
  if 0 = ret then pure () else Prog.throw (.returned ret)

namespace Service

/-- The open path of the service. -/
def «open» : Service → Nat → List Char → OpenM Unit
  | mqtt => mqttOpen
  | http => httpOpen
  | lwm2m => lwm2mOpen

/-- The type of its socket. -/
def socket : Service → proto
  | mqtt => Mqtt.connectionType.conn
  | http => .tcp_ip4
  | lwm2m => lwm2mConnection.conn

end Service

/-! ## The property -/

/-- Neither `sl_Connect` nor `mbedtls_ssl_handshake` asks for another call for ever. -/
def Answered (s : Link) : Prop :=
  (∃ k, Stops Connecting (s.code .sl_Connect) k) ∧
    ∃ k, Stops Wanting (s.code .mbedtls_ssl_handshake) k

/-- There is an error, or a connection. -/
def Settled (x : Exit OpenError Unit) (s : Link) : Prop :=
  (∃ e, x = .err e) ∨ (x = .ok () ∧ 0 ≤ s.sd)

/-- The transport mode is that of the protocol. -/
def Matches (mode : Transport) (p : proto) : Prop := mode = .stream ↔ p.isStream = true

/-- The contexts configured since `s` have a mode in `P`. -/
def Configures (P : Transport → Prop) (s s' : Link) : Prop :=
  ∃ new, modes s'.log = modes s.log ++ new ∧ ∀ mode ∈ new, P mode

/-- The mode is that of the socket and that of the scheme. -/
def Suits (p : proto) (uri : Uri) (mode : Transport) : Prop :=
  Matches mode p ∧
    ∀ scheme, schemes.ofScheme uri.scheme = some scheme → Matches mode scheme.getProtocol

/-- The text is handled totally by the service. -/
structure Total (v : Service) (text : List Char) : Prop where
  /-- No `unreachable` and no null optional is reached. -/
  safe : ∀ fuel s, (v.open fuel text s).1 ≠ .trap
  /-- If the environment answers, opening returns. -/
  settled : ∀ s, Answered s → ∃ n, ∀ fuel, n ≤ fuel → wp (v.open fuel text) Settled s
  /-- A TLS context is configured only for a mode that suits. -/
  transport : ∀ fuel s, Configures
    (fun mode => ∃ u, StdUri.parse text = .ok u ∧ Suits v.socket (uriOf u) mode)
    s (v.open fuel text s).2

/-! ## The condition -/

/-- What a TLS context needs of a URI: a known scheme and, if it is a secure one, that its
    protocol goes with the socket and that there is a host and a port. -/
def TlsReady (p : proto) (uri : Uri) : Prop :=
  ∃ scheme ∈ schemes.ofScheme uri.scheme, scheme.getProtocol.isSecure = true →
    scheme.getProtocol.isStream = p.isStream ∧ uri.Complete

instance (p : proto) (uri : Uri) : Decidable (TlsReady p uri) :=
  inferInstanceAs (Decidable (∃ scheme ∈ schemes.ofScheme uri.scheme, _))

/-- What the service needs of a URI. -/
def Service.Ready (v : Service) (uri : Uri) : Prop :=
  if v = .http then uri.Complete else TlsReady v.socket uri

instance (v : Service) (uri : Uri) : Decidable (v.Ready uri) :=
  inferInstanceAs (Decidable (if v = .http then _ else _))

/-- The text parses for MQTT, it stays within its bounds when it is parsed, and the URI is one
    for the service. -/
structure Handled (v : Service) (text : List Char) : Prop where
  bounds : StdUri.parse text ≠ .trap
  parses : v = .mqtt → (StdUri.parse text).failed = false
  ready : ∀ u, StdUri.parse text = .ok u → v.Ready (uriOf u)

instance (v : Service) (text : List Char) : Decidable (Handled v text) :=
  decidable_of_iff (StdUri.parse text ≠ .trap ∧
      (v = .mqtt → (StdUri.parse text).failed = false) ∧
      ∀ u, StdUri.parse text = .ok u → v.Ready (uriOf u))
    ⟨fun h => ⟨h.1, h.2.1, h.2.2⟩, fun h => ⟨h.bounds, h.parses, h.ready⟩⟩

/-! ## Opening behind the parser -/

namespace Service

/-- Opening the connection to a parsed URI. -/
def dial : Service → Nat → Uri → NetM Unit
  | mqtt => fun fuel => TlsContext.open fuel Mqtt.connectionType
  | http => fun fuel => SimpleLinkConnection.open fuel .tcp_ip4
  | lwm2m => fun fuel => TlsContext.open fuel lwm2mConnection

/-- What becomes of an error of the connection. -/
def passed : Service → Error → OpenError
  | lwm2m => fun _ => .returned (-1)
  | _ => .connection

end Service

section Parsed

variable {text : List Char} {s : Link}

theorem parse_ok {u : StdUri} (h : StdUri.parse text = .ok u) :
    parse text s = (.ok (uriOf u), s) := by
  unfold parse
  rw [h]
  rfl

theorem parse_err {e : StdUri.ParseError} (h : StdUri.parse text = .err e) :
    parse text s = (.err (.uri e), s) := by
  unfold parse
  rw [h]
  rfl

theorem parse_trap (h : StdUri.parse text = .trap) : parse text s = (.trap, s) := by
  unfold parse
  rw [h]
  rfl

/-- Behind the parser, the services differ in their connection and in the errors. -/
theorem open_eq {u : StdUri} (h : StdUri.parse text = .ok u) (v : Service) (fuel : Nat) :
    v.open fuel text = Prog.mapErr v.passed (v.dial fuel (uriOf u)) := by
  funext s
  cases v with
  | mqtt => exact Prog.bind_ok _ (Prog.orUnreachable_ok (parse_ok h))
  | http => exact Prog.bind_ok _ (parse_ok h)
  | lwm2m =>
    have hcreate : lwm2mservice_create_connection fuel text s = _ :=
      Prog.bind_ok _ (Prog.attempt_ok (parse_ok h))
    show Prog.seq (lwm2mservice_create_connection fuel text) _ s = Prog.mapErr
      (fun _ => OpenError.returned (-1)) (TlsContext.open fuel lwm2mConnection (uriOf u)) s
    simp only [Prog.seq, hcreate, Bind.bind, Prog.attempt, Prog.mapErr]
    cases hrun : TlsContext.open fuel lwm2mConnection (uriOf u) s with
    | mk x s' => cases x <;> rfl

/-- A text that does not parse is an error, where it is not `unreachable`. -/
theorem open_refused {e : StdUri.ParseError} (h : StdUri.parse text = .err e) {v : Service}
    (hv : v ≠ .mqtt) (fuel : Nat) : ∃ e', v.open fuel text s = (.err e', s) := by
  cases v with
  | mqtt => exact absurd rfl hv
  | http => exact ⟨_, Prog.bind_err _ (parse_err h)⟩
  | lwm2m =>
    have hcreate : lwm2mservice_create_connection fuel text s = (.ok (-1), s) :=
      Prog.bind_ok _ (Prog.attempt_err (parse_err h))
    exact ⟨.returned (-1), Prog.bind_ok _ hcreate⟩

/-- A text that runs out of its bounds is a trap everywhere. -/
theorem open_unbounded (h : StdUri.parse text = .trap) (v : Service) (fuel : Nat) :
    v.open fuel text s = (.trap, s) := by
  cases v with
  | mqtt => exact Prog.bind_trap _ (Prog.orUnreachable_trap (parse_trap h))
  | http => exact Prog.bind_trap _ (parse_trap h)
  | lwm2m =>
    have hcreate : lwm2mservice_create_connection fuel text s = (.trap, s) :=
      Prog.bind_trap _ (Prog.attempt_trap (parse_trap h))
    exact Prog.bind_trap _ hcreate

end Parsed

/-! ## Opening a parsed URI -/

theorem Configures.same {P : Transport → Prop} {s s' : Link} (h : modes s'.log = modes s.log) :
    Configures P s s' :=
  ⟨[], by rw [h, List.append_nil], fun _ hmode => absurd hmode List.not_mem_nil⟩

theorem transport_matches {p : proto} (h : p.isSecure = true) :
    Matches (TlsContext.transport p) p := by
  revert h
  unfold Matches
  cases p <;> decide

/-- The mode of a secure protocol is that of another one if both are streams or neither is. -/
theorem matches_iff {p q : proto} (h : p.isSecure = true) :
    Matches (TlsContext.transport p) q ↔ p.isStream = q.isStream := by
  have hmode : TlsContext.transport p = .stream ↔ p.isStream = true := transport_matches h
  unfold Matches
  rw [hmode]
  exact Bool.eq_iff_iff.symm

/-- The environment still asks for another call. -/
def Polling (fuel : Nat) (s : Link) : Prop :=
  (∀ j, j < fuel → Connecting (s.code .sl_Connect j)) ∨
    ∀ j, j + 1 < fuel → Wanting (s.code .mbedtls_ssl_handshake j)

/-- Opening has a connection, or it has returned an error, or it goes on. -/
def Dialled (fuel : Nat) (P : Transport → Prop) (s : Link) (x : Exit Error Unit) (s' : Link) :
    Prop :=
  ((x = .ok () ∧ 0 ≤ s'.sd) ∨ (∃ e, x = .err e) ∨ (x = .halt ∧ Polling fuel s)) ∧
    Configures P s s'

theorem simpleLink_dialled {uri : Uri} (h : uri.Complete) (fuel : Nat) (p : proto)
    (P : Transport → Prop) (s : Link) :
    wp (SimpleLinkConnection.open fuel p uri) (Dialled fuel P s) s := by
  apply wp_mono (SimpleLinkConnection.open_cases h fuel p s)
  rintro x s' ⟨hmodes, -, hx⟩
  refine ⟨?_, .same hmodes⟩
  obtain hok | herr | ⟨hhalt, hall⟩ := hx
  · exact .inl hok
  · exact .inr (.inl herr)
  · exact .inr (.inr ⟨hhalt, .inl hall⟩)

theorem tls_dialled {T : TlsContext} {uri : Uri} (h : TlsReady T.conn uri) (fuel : Nat)
    (s : Link) : wp (TlsContext.open fuel T uri) (Dialled fuel (Suits T.conn uri) s) s := by
  obtain ⟨scheme, hscheme, hready⟩ := h
  cases hsec : scheme.getProtocol.isSecure with
  | false =>
    apply wp_of_eq (TlsContext.open_insecure hscheme hsec fuel T s)
    exact ⟨.inr (.inl ⟨_, rfl⟩), .same rfl⟩
  | true =>
    obtain ⟨hstream, huri⟩ := hready hsec
    apply wp_mono (TlsContext.open_cases hscheme hsec huri fuel T s)
    rintro x s' ⟨hmodes, hx⟩
    refine ⟨hx, _, hmodes, ?_⟩
    intro mode hmode
    rw [List.mem_singleton.mp hmode]
    refine ⟨(matches_iff hsec).mpr hstream, ?_⟩
    intro scheme' hscheme'
    cases hscheme.symm.trans hscheme'
    exact transport_matches hsec

theorem dial_dialled {v : Service} {uri : Uri} (h : v.Ready uri) (fuel : Nat) (s : Link) :
    wp (v.dial fuel uri) (Dialled fuel (Suits v.socket uri) s) s := by
  cases v with
  | mqtt => exact tls_dialled h fuel s
  | http => exact simpleLink_dialled h fuel .tcp_ip4 _ s
  | lwm2m => exact tls_dialled h fuel s

/-! ## What is unwrapped in vain -/

/-- Every call succeeds. -/
def granting : Link := ⟨fun _ _ => 0, fun _ => .ok (), SL_INVALID_SOCKET, []⟩

theorem granting_setup {T : TlsContext} (h : T.mode = .psk) (protocol : proto) :
    SetupOk T protocol granting where
  defaults := rfl
  max_frag_len := rfl
  seed := .inl rfl
  mode := .inl h
  conf_cid := fun _ => rfl
  auth := rfl
  setup := rfl
  random := fun _ => rfl
  set_cid := fun _ => rfl

theorem tls_ready {T : TlsContext} (hpsk : T.mode = .psk) {uri : Uri}
    (hsafe : (TlsContext.open 0 T uri granting).1 ≠ .trap)
    (hmodes : Configures (Suits T.conn uri) granting (TlsContext.open 0 T uri granting).2) :
    TlsReady T.conn uri := by
  cases hscheme : schemes.ofScheme uri.scheme with
  | none => exact absurd (congrArg Prod.fst (TlsContext.open_unknown hscheme 0 T granting)) hsafe
  | some scheme =>
    refine ⟨scheme, hscheme, fun hsec => ?_⟩
    have huri : uri.Complete := by
      by_contra huri
      exact hsafe (TlsContext.open_trap hscheme hsec huri 0 (granting_setup hpsk _))
    obtain ⟨hlog, -⟩ := TlsContext.open_cases hscheme hsec huri 0 T granting
    obtain ⟨new, hnew, hsuits⟩ := hmodes
    have hmode : TlsContext.transport scheme.getProtocol ∈ new := by
      rw [List.append_cancel_left (hnew.symm.trans hlog)]
      exact List.mem_singleton_self _
    exact ⟨(matches_iff hsec).mp (hsuits _ hmode).1, huri⟩

theorem dial_ready {v : Service} {uri : Uri} (hsafe : (v.dial 0 uri granting).1 ≠ .trap)
    (hmodes : Configures (Suits v.socket uri) granting (v.dial 0 uri granting).2) :
    v.Ready uri := by
  cases v with
  | mqtt => exact tls_ready rfl hsafe hmodes
  | http =>
    by_contra huri
    exact hsafe (congrArg Prod.fst (SimpleLinkConnection.open_trap 0 .tcp_ip4 huri granting))
  | lwm2m => exact tls_ready rfl hsafe hmodes

/-! ## When a text is handled -/

theorem Total.handled {v : Service} {text : List Char} (h : Total v text) : Handled v text where
  bounds hparse := h.safe 0 granting (congrArg Prod.fst (open_unbounded hparse v 0))
  parses := by
    rintro rfl
    cases hparse : StdUri.parse text with
    | err e =>
      have hrun : mqttOpen 0 text granting = (.trap, granting) :=
        Prog.bind_trap _ (Prog.orUnreachable_err (parse_err hparse))
      exact absurd (congrArg Prod.fst hrun) (h.safe 0 granting)
    | _ => rfl
  ready := by
    intro u hparse
    have hsafe := h.safe 0 granting
    obtain ⟨new, hnew, hsuits⟩ := h.transport 0 granting
    rw [open_eq hparse] at hsafe
    rw [open_eq hparse, Prog.mapErr_state] at hnew
    apply dial_ready
    · intro htrap
      exact hsafe (congrArg Prod.fst (Prog.mapErr_trap v.passed (Prog.run_of_exit htrap)))
    · refine ⟨new, hnew, ?_⟩
      intro mode hmode
      obtain ⟨u', hparse', hsuits⟩ := hsuits mode hmode
      cases hparse.symm.trans hparse'
      exact hsuits

/-- A refused text configures nothing. -/
theorem total_of_refused {v : Service} {text : List Char}
    (h : ∀ fuel s, ∃ e, v.open fuel text s = (.err e, s)) : Total v text where
  safe fuel s htrap := by
    obtain ⟨e, hrun⟩ := h fuel s
    rw [hrun] at htrap
    cases htrap
  settled s _ := by
    refine ⟨0, fun fuel _ => ?_⟩
    obtain ⟨e, hrun⟩ := h fuel s
    exact wp_of_eq hrun (.inl ⟨e, rfl⟩)
  transport fuel s := by
    obtain ⟨e, hrun⟩ := h fuel s
    rw [hrun]
    exact .same rfl

/-- Behind the parser, opening is total for a URI that is ready. -/
theorem total_of_ready {v : Service} {text : List Char} {u : StdUri}
    (hparse : StdUri.parse text = .ok u) (h : v.Ready (uriOf u)) : Total v text where
  safe fuel s := by
    obtain ⟨hx, -⟩ := dial_dialled h fuel s
    rw [open_eq hparse]
    obtain ⟨hok, -⟩ | ⟨e, herr⟩ | ⟨hhalt, -⟩ := hx
    · rw [Prog.mapErr_ok v.passed (Prog.run_of_exit hok)]
      exact fun htrap => by cases htrap
    · rw [Prog.mapErr_err v.passed (Prog.run_of_exit herr)]
      exact fun htrap => by cases htrap
    · rw [Prog.mapErr_halt v.passed (Prog.run_of_exit hhalt)]
      exact fun htrap => by cases htrap
  settled s hanswered := by
    obtain ⟨⟨k, hconnect⟩, k', hshake⟩ := hanswered
    refine ⟨max (k + 1) (k' + 2), fun fuel hfuel => ?_⟩
    obtain ⟨hx, -⟩ := dial_dialled h fuel s
    rw [open_eq hparse]
    obtain ⟨hok, hsd⟩ | ⟨e, herr⟩ | ⟨-, hall | hall⟩ := hx
    · exact wp_of_eq (Prog.mapErr_ok v.passed (Prog.run_of_exit hok)) (.inr ⟨rfl, hsd⟩)
    · exact wp_of_eq (Prog.mapErr_err v.passed (Prog.run_of_exit herr)) (.inl ⟨_, rfl⟩)
    · exact absurd (hall k (by omega)) hconnect.2
    · exact absurd (hall k' (by omega)) hshake.2
  transport fuel s := by
    obtain ⟨-, new, hnew, hsuits⟩ := dial_dialled h fuel s
    rw [open_eq hparse]
    refine ⟨new, ?_, fun mode hmode => ⟨u, hparse, hsuits mode hmode⟩⟩
    rw [Prog.mapErr_state]
    exact hnew

/-- **A configured text is handled totally** by a service exactly if it parses where it has to,
    and names what the connection of the service unwraps. -/
theorem total_iff (v : Service) (text : List Char) : Total v text ↔ Handled v text := by
  refine ⟨Total.handled, fun h => ?_⟩
  cases hparse : StdUri.parse text with
  | ok u => exact total_of_ready hparse (h.ready u hparse)
  | err e =>
    have hv : v ≠ .mqtt := by
      rintro rfl
      have hfailed := h.parses rfl
      rw [hparse] at hfailed
      cases hfailed
    exact total_of_refused fun fuel s => open_refused hparse hv fuel
  | trap => exact absurd hparse h.bounds
  | halt => exact absurd hparse (StdUri.parse_ne_halt text)

/-- With a host and a port, only the secure schemes for the other kind of socket are not handled. -/
example : (∀ p ∈ schemes.stringmap, Handled .mqtt (p.1 ++ "://h:1").toList ↔ p.1 ≠ "coaps") ∧
    (∀ p ∈ schemes.stringmap, Handled .http (p.1 ++ "://h:1").toList) ∧
    ∀ p ∈ schemes.stringmap, Handled .lwm2m (p.1 ++ "://h:1").toList ↔
      p.1 ≠ "https" ∧ p.1 ≠ "mqtts" := by decide +kernel

/-- MQTT reaches `unreachable` for the empty text and configures datagrams on its stream socket,
    and the port that a URL leaves out is unwrapped. -/
theorem empty_text_unreachable : ¬Total .mqtt [] ∧ ¬Total .mqtt "coaps://h:5684".toList ∧
    ¬Total .http "http://h/x".toList :=
  ⟨fun h => absurd h.handled (by decide +kernel), fun h => absurd h.handled (by decide +kernel),
    fun h => absurd h.handled (by decide +kernel)⟩

end Miso.Config

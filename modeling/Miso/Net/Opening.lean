import Miso.Net.TlsSpec

/-!
# Opening a TLS connection

`TlsContext.open` makes a context, a socket and a handshake, and takes back what it has made where
one of them fails.

* `AllOrNothing` — the handshake has returned zero and everything is there, or nothing is left;
* `all_or_nothing_iff` — when `open` keeps it: the set-up has to succeed, and so has the handshake
  of a connection that comes about.
-/

namespace Miso.Net

open Zig

/-- What the call has recorded. -/
def recorded (m : NetM Unit) (s : Link) : List NetCall := (m s).2.log.drop s.log.length

/-- If the call succeeds, the handshake has, and a context and a socket are there. -/
def Complete (m : NetM Unit) (s : Link) : Prop :=
  (m s).1 = .ok () → (recorded m s).getLast? = some (.mbedtls_ssl_handshake 0) ∧
    Ledger.replay ∅ (moves (recorded m s)) = some {.tls, .socket (m s).2.sd}

/-- If the call fails, what it has made is gone, and nothing is taken back twice. -/
def Clean (m : NetM Unit) (s : Link) : Prop :=
  ∀ e, (m s).1 = .err e → Ledger.replay ∅ (moves (recorded m s)) = some ∅

/-- **All or nothing.** -/
structure AllOrNothing (m : NetM Unit) (s : Link) : Prop where
  complete : Complete m s
  clean : Clean m s

/-- The set-up succeeds, and so does the handshake of a connection that comes about. -/
structure Opens (T : TlsContext) (protocol : proto) (uri : Uri) (s : Link) : Prop where
  setup : SetupOk T protocol s
  handshake : uri.Complete → Connects s → ∀ k, Stops Wanting (s.code .mbedtls_ssl_handshake) k →
    s.code .mbedtls_ssl_handshake k = 0

section Runs

variable {m : NetM Unit} {s s' : Link} {es : List NetCall}

theorem recorded_run {x : Exit Error Unit} (hrun : m s = (x, s')) (hlog : s'.log = s.log ++ es) :
    recorded m s = es := by
  unfold recorded
  rw [hrun, hlog, List.drop_left]

/-- A call that does not return has nothing to keep. -/
theorem AllOrNothing.stuck (hok : (m s).1 ≠ .ok ()) (herr : ∀ e, (m s).1 ≠ .err e) :
    AllOrNothing m s :=
  ⟨fun h => absurd h hok, fun e h => absurd h (herr e)⟩

theorem AllOrNothing.opened (hrun : m s = (.ok (), s')) (hlog : s'.log = s.log ++ es)
    (hlast : es.getLast? = some (.mbedtls_ssl_handshake 0))
    (hmoves : Ledger.replay ∅ (moves es) = some {.tls, .socket s'.sd}) : AllOrNothing m s := by
  have hes := recorded_run hrun hlog
  refine ⟨?_, fun e h => ?_⟩
  · intro _
    rw [hes, hrun]
    exact ⟨hlast, hmoves⟩
  · rw [hrun] at h
    cases h

theorem AllOrNothing.failed {e : Error} (hrun : m s = (.err e, s')) (hlog : s'.log = s.log ++ es)
    (hmoves : Ledger.replay ∅ (moves es) = some ∅) : AllOrNothing m s := by
  refine ⟨fun h => ?_, fun _ _ => ?_⟩
  · rw [hrun] at h
    cases h
  · rw [recorded_run hrun hlog]
    exact hmoves

end Runs

section Scheme

variable {uri : Uri} {scheme : schemes} {T : TlsContext} {s : Link}

/-- The context of a set-up that fails is left behind. -/
theorem open_refused (h : schemes.ofScheme uri.scheme = some scheme)
    (hsec : scheme.getProtocol.isSecure = true) (hsetup : ¬SetupOk T scheme.getProtocol s)
    (fuel : Nat) : ¬AllOrNothing (TlsContext.open fuel T uri) s := by
  intro hall
  cases hinit : T.init scheme.getProtocol s with
  | mk x s₁ =>
    obtain ⟨hprogress, ⟨hok, -⟩ | ⟨-, e, rfl⟩⟩ := wp_of_run (init_spec T _ s hsec) hinit
    · exact absurd hok hsetup
    · have hrun : TlsContext.open fuel T uri s = (.err e, s₁) := by
        unfold TlsContext.open
        rw [h]
        exact Prog.bind_err _ hinit
      have hlog : s₁.log = s.log ++ initCalls scheme.getProtocol := by
        rw [hprogress.log, Link.record_log]
      have hclean := hall.clean e (by rw [hrun])
      have hmoves : moves (initCalls scheme.getProtocol) = [.acquire .tls] := rfl
      rw [recorded_run hrun hlog, hmoves] at hclean
      exact absurd hclean (by decide)

theorem Opens.allOrNothing (h : schemes.ofScheme uri.scheme = some scheme)
    (hsec : scheme.getProtocol.isSecure = true) (hopens : Opens T scheme.getProtocol uri s)
    (fuel : Nat) : AllOrNothing (TlsContext.open fuel T uri) s := by
  by_cases huri : uri.Complete
  · cases hrun : TlsContext.open fuel T uri s with
    | mk x s' =>
      obtain ⟨es, hlog, -, hx⟩ :=
        wp_of_run (TlsContext.open_exits h hsec huri fuel T s) hrun
      rcases hx with ⟨rfl, -, hconnects, hsd, hmoves, k, l, hstop, rfl⟩ | ⟨-, hrefused, -⟩ |
        ⟨⟨e, rfl⟩, -, -, hclean⟩ | ⟨rfl, -⟩
      · refine .opened hrun hlog ?_ ?_
        · rw [List.getLast?_append, hopens.handshake huri hconnects k hstop]
          rfl
        · rw [hmoves]
          simp [Ledger.replay, Ledger.step, Finset.pair_comm]
      · exact absurd hopens.setup hrefused
      · exact .failed hrun hlog hclean
      · apply AllOrNothing.stuck <;> rw [hrun]
        · exact fun hok => by cases hok
        · exact fun e herr => by cases herr
  · have htrap := TlsContext.open_trap h hsec huri fuel hopens.setup
    apply AllOrNothing.stuck <;> rw [htrap]
    · exact fun hok => by cases hok
    · exact fun e herr => by cases herr

/-- Enough fuel shows the code that ends the handshake. -/
theorem AllOrNothing.opens (h : schemes.ofScheme uri.scheme = some scheme)
    (hsec : scheme.getProtocol.isSecure = true)
    (hall : ∀ fuel, AllOrNothing (TlsContext.open fuel T uri) s) :
    Opens T scheme.getProtocol uri s := by
  have hsetup : SetupOk T scheme.getProtocol s := by
    by_contra hrefused
    exact open_refused h hsec hrefused 0 (hall 0)
  refine ⟨hsetup, ?_⟩
  intro huri hconnects k hstop
  obtain ⟨c, hconnected, -⟩ := hconnects.connect
  have hfuel := TlsContext.open_exits h hsec huri (c + k + 2) T s
  cases hrun : TlsContext.open (c + k + 2) T uri s with
  | mk x s' =>
    obtain ⟨es, hlog, -, hx⟩ := wp_of_run hfuel hrun
    rcases hx with ⟨rfl, -, -, -, -, k', l, hstop', rfl⟩ | ⟨-, hrefused, -⟩ | ⟨-, -, hfailed, -⟩ |
      ⟨-, -, hpolling | hpolling⟩
    · obtain ⟨hlast, -⟩ := (hall (c + k + 2)).complete (by rw [hrun])
      rw [recorded_run hrun hlog, List.getLast?_append, hstop'.unique hstop] at hlast
      have hcode : NetCall.mbedtls_ssl_handshake (s.code .mbedtls_ssl_handshake k) =
          .mbedtls_ssl_handshake 0 := Option.some.inj hlast
      injection hcode
    · exact absurd hsetup hrefused
    · exact absurd hconnects hfailed.not_connects
    · exact absurd (hpolling c (by omega)) hconnected.2
    · exact absurd (hpolling k (by omega)) hstop.2

end Scheme

/-- **When opening a connection is all or nothing**: for a scheme with security the set-up has to
succeed, and the handshake of a connection that comes about has to end with zero. -/
theorem all_or_nothing_iff (T : TlsContext) (uri : Uri) (s : Link) :
    (∀ fuel, AllOrNothing (TlsContext.open fuel T uri) s) ↔
      ∀ scheme, schemes.ofScheme uri.scheme = some scheme →
        scheme.getProtocol.isSecure = true → Opens T scheme.getProtocol uri s := by
  constructor
  · intro hall scheme h hsec
    exact AllOrNothing.opens h hsec hall
  · intro hopens fuel
    cases h : schemes.ofScheme uri.scheme with
    | none =>
      have htrap := TlsContext.open_unknown h fuel T s
      apply AllOrNothing.stuck <;> rw [htrap]
      · exact fun hok => by cases hok
      · exact fun e herr => by cases herr
    | some scheme =>
      cases hsec : scheme.getProtocol.isSecure with
      | true => exact (hopens scheme h hsec).allOrNothing h hsec fuel
      | false =>
        exact .failed (TlsContext.open_insecure h hsec fuel T s) (List.append_nil _).symm rfl

/-! ## Without an error -/

/-- A known scheme is a secure one, the set-up succeeds, and the connection is not refused. -/
def Unrefused (T : TlsContext) (uri : Uri) (s : Link) : Prop :=
  ∀ scheme, schemes.ofScheme uri.scheme = some scheme →
    scheme.getProtocol.isSecure = true ∧ SetupOk T scheme.getProtocol s ∧
      (uri.Complete → ¬Refuses s)

/-- **`open` without an error**: it has a context and a socket when it returns, and nothing is
taken back before. -/
theorem Unrefused.open_run {T : TlsContext} {uri : Uri} {s : Link} (h : Unrefused T uri s)
    (fuel : Nat) :
    wp (TlsContext.open fuel T uri) (fun x s' => (∀ e, x ≠ .err e) ∧ ∃ es held,
      s'.log = s.log ++ es ∧ Ledger.Holds (moves es) held ∧
        (x = .ok () → held = [.socket s'.sd, .tls])) s := by
  have htrap (e : Error) : (.trap : Exit Error Unit) ≠ .err e := fun he => by cases he
  have hok (e : Error) : (.ok () : Exit Error Unit) ≠ .err e := fun he => by cases he
  have hhalt (e : Error) : (.halt : Exit Error Unit) ≠ .err e := fun he => by cases he
  have htls : Ledger.Holds [.acquire Resource.tls] [.tls] :=
    Ledger.Holds.nil.acquire List.not_mem_nil
  have hboth (sd : Int) : Ledger.Holds [.acquire Resource.tls, .acquire (.socket sd)]
      [.socket sd, .tls] := htls.acquire (by simp)
  cases hscheme : schemes.ofScheme uri.scheme with
  | none =>
    apply wp_of_eq (TlsContext.open_unknown hscheme fuel T s)
    exact ⟨htrap, [], [], (List.append_nil _).symm, Ledger.Holds.nil, fun h => by cases h⟩
  | some scheme =>
    obtain ⟨hsec, hsetup, hconnection⟩ := h scheme hscheme
    by_cases huri : uri.Complete
    · apply wp_mono (TlsContext.open_exits hscheme hsec huri fuel T s)
      rintro x s' ⟨es, hlog, -, hx⟩
      rcases hx with ⟨rfl, -, -, -, hmoves, -⟩ | ⟨-, hrefused, -⟩ | ⟨-, -, hrefused, -⟩ |
        ⟨rfl, hmoves, -⟩
      · exact ⟨hok, es, _, hlog, hmoves ▸ hboth s'.sd, fun _ => rfl⟩
      · exact absurd hsetup hrefused
      · exact absurd hrefused (hconnection huri)
      · exact ⟨hhalt, es, _, hlog, hmoves ▸ hboth s'.sd, fun _ => rfl⟩
    · apply wp_mono (TlsContext.open_incomplete hscheme hsec huri fuel T s)
      rintro x s' ⟨hlog, ⟨rfl, -⟩ | ⟨-, hrefused⟩⟩
      · exact ⟨htrap, _, [.tls], hlog, htls, fun h => by cases h⟩
      · exact absurd hsetup hrefused

/-! ## The failing inputs -/

/-- Every call succeeds but, possibly, the handshake and the credential callback. -/
def Link.answering (handshake : Int) (auth : Except auth_error Unit) : Link :=
  ⟨fun a _ => if a = .mbedtls_ssl_handshake then handshake else 0, fun _ => auth, -1, []⟩

/-- `mbedtls_ssl_handshake` has received a fatal alert. -/
def MBEDTLS_ERR_SSL_FATAL_ALERT_MESSAGE : Int := -0x7780

/-- **A handshake that fails is taken for one that succeeds, and a set-up that fails leaves its
context behind.** -/
theorem handshake_dropped :
    (¬∀ fuel T uri s, Complete (TlsContext.open fuel T uri) s) ∧
      ¬∀ fuel T uri s, Clean (TlsContext.open fuel T uri) s := by
  constructor
  · intro h
    have hlast := (h 3 ⟨.tls_ip4, .psk⟩ ⟨"mqtts", some "broker", some 8883⟩
      (.answering MBEDTLS_ERR_SSL_FATAL_ALERT_MESSAGE (.ok ())) (by decide +kernel)).1
    exact absurd hlast (by decide +kernel)
  · intro h
    have hclean := h 3 ⟨.tls_ip4, .psk⟩ ⟨"mqtts", some "broker", some 8883⟩
      (.answering 0 (.error .generic_error)) .generic_error (by decide +kernel)
    exact absurd hclean (by decide +kernel)

end Miso.Net

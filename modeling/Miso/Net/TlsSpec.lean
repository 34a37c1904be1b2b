import Miso.Net.Tls

/-!
# What opening a connection does

One specification for each function below `TlsContext.open`, in terms of the return codes to
come:

* `init_ok`, `init_refused` — `SetupOk` decides whether `TlsContext.init` succeeds;
* `connect_stops`, `handshake_cases` — the two polling loops end with the first code that is not
  a request to call again (`Stops`), if the fuel reaches it;
* `TlsContext.open_cases` — how `open` ends, and for which mode it has configured the context.
-/

namespace Miso.Net

open Zig

/-! ## The set-up -/

/-- Every call that `TlsContext.init` makes for a secure protocol succeeds. -/
structure SetupOk (T : TlsContext) (protocol : proto) (s : Link) : Prop where
  defaults : s.code .mbedtls_ssl_config_defaults 0 = mbedtls_ok
  max_frag_len : s.code .mbedtls_ssl_conf_max_frag_len 0 = mbedtls_ok
  seed : s.code .mbedtls_ctr_drbg_seed 0 = mbedtls_ok ∨
    s.code .mbedtls_ctr_drbg_seed 0 = MBEDTLS_ERR_CTR_DRBG_ENTROPY_SOURCE_FAILED
  mode : T.mode = .psk ∨ T.mode = .certificate_ec
  conf_cid : protocol.isDtls = true → s.code .mbedtls_ssl_conf_cid 0 = mbedtls_ok
  auth : s.auth 0 = .ok ()
  setup : s.code .mbedtls_ssl_setup 0 = mbedtls_ok
  random : protocol.isDtls = true → s.code .mbedtls_ctr_drbg_random 0 = mbedtls_ok
  set_cid : protocol.isDtls = true → s.code .mbedtls_ssl_set_cid 0 = mbedtls_ok

/-- The functions that `TlsContext.init` calls. -/
def setupCalls : List Api :=
  [.mbedtls_ssl_set_cid, .mbedtls_ctr_drbg_random, .mbedtls_ssl_setup, .mbedtls_ssl_conf_cid,
   .mbedtls_ctr_drbg_seed, .mbedtls_ssl_conf_max_frag_len, .mbedtls_ssl_config_defaults]

/-- Since `s`, at most the functions in `used` have been called. -/
structure Progress (s : Link) (used : List Api) (s' : Link) : Prop where
  sd : s'.sd = s.sd
  log : s'.log = s.log
  code : ∀ a, a ∉ used → s'.code a = s.code a

theorem Progress.refl (s : Link) : Progress s [] s := ⟨rfl, rfl, fun _ _ => rfl⟩

theorem Progress.advance {s s' : Link} {used : List Api} (h : Progress s used s') (a : Api) :
    Progress s (a :: used) (s'.advance a) := by
  refine ⟨h.sd, h.log, ?_⟩
  intro b hb
  have hne : b ≠ a := fun hba => hb (hba ▸ List.mem_cons_self)
  rw [Link.advance_code_ne s' hne]
  exact h.code b fun hmem => hb (List.mem_cons_of_mem a hmem)

theorem Progress.weaken {s s' : Link} {used : List Api} (h : Progress s used s') (a : Api) :
    Progress s (a :: used) s' :=
  ⟨h.sd, h.log, fun b hb => h.code b fun hmem => hb (List.mem_cons_of_mem a hmem)⟩

section Setup

variable {α : Type} {s t : Link} {used : List Api} {ret x : Int} {C D : Prop} {m : NetM Int}
  {a : Api} {f : Int → NetM α} {Q : Exit Error α → Link → Prop}

/-- One guarded step of `init`: it is made if all earlier ones succeeded. -/
theorem wp_ifOk {t₁ : Link} (hm : m t = (.ok x, t₁)) (hauth : t₁.auth = t.auth)
    (h : Progress s used t) (h₁ : Progress s used t₁)
    (hret : ret = mbedtls_ok ↔ C) (hx : x = mbedtls_ok ↔ D)
    (hf : ∀ r t', Progress s used t' → t'.auth = t.auth → (r = mbedtls_ok ↔ C ∧ D) →
      wp (f r) Q t') :
    wp (TlsContext.ifOk m ret >>= f) Q t := by
  by_cases hC : ret = mbedtls_ok
  · have hrun : TlsContext.ifOk m ret t = (.ok x, t₁) := by
      simp only [TlsContext.ifOk, hC, if_true, hm]
    apply wp_of_same (Prog.bind_ok f hrun)
    exact hf x t₁ h₁ hauth (hx.trans (and_iff_right (hret.mp hC)).symm)
  · have hrun : TlsContext.ifOk m ret t = (.ok ret, t) := by
      simp only [TlsContext.ifOk, hC, if_false]
      rfl
    apply wp_of_same (Prog.bind_ok f hrun)
    exact hf ret t h rfl ⟨fun hr => absurd hr hC, fun hr => absurd (hret.mpr hr.1) hC⟩

theorem wp_ifOk_call (h : Progress s used t) (hret : ret = mbedtls_ok ↔ C) (ha : a ∉ used)
    (hf : ∀ r t', Progress s (a :: used) t' → t'.auth = t.auth →
      (r = mbedtls_ok ↔ C ∧ s.code a 0 = mbedtls_ok) → wp (f r) Q t') :
    wp (TlsContext.ifOk (call a) ret >>= f) Q t := by
  have hrun : call a t = (.ok (s.code a 0), t.advance a) := by
    simp only [call, h.code a ha]
  exact wp_ifOk hrun rfl (h.weaken a) (h.advance a) hret Iff.rfl hf

/-- A guarded call that is made for DTLS only. -/
theorem wp_ifDtls {protocol : proto} (h : Progress s used t) (hret : ret = mbedtls_ok ↔ C)
    (ha : a ∉ used)
    (hf : ∀ r t', Progress s (a :: used) t' → t'.auth = t.auth →
      (r = mbedtls_ok ↔ C ∧ (protocol.isDtls = true → s.code a 0 = mbedtls_ok)) → wp (f r) Q t') :
    wp (TlsContext.ifDtls protocol (call a) ret >>= f) Q t := by
  unfold TlsContext.ifDtls
  cases hd : protocol.isDtls with
  | true =>
    apply wp_ifOk_call h hret ha
    intro r t' hp hauth hr
    exact hf r t' hp hauth (by simpa [hd] using hr)
  | false => exact hf ret t (h.weaken a) rfl (by simpa [hd] using hret)

/-- The credential callback, made if everything before it succeeded. -/
theorem wp_authenticate {g : Unit → NetM α} (h : Progress s used t) (hauth : t.auth = s.auth)
    (hret : ret = mbedtls_ok ↔ C)
    (hrefused : ∀ e t', Progress s used t' → s.auth 0 ≠ .ok () → Q (.err e) t')
    (hpassed : ∀ t', Progress s used t' → (C → s.auth 0 = .ok ()) → wp (g ()) Q t') :
    wp (TlsContext.authenticate ret >>= g) Q t := by
  unfold TlsContext.authenticate
  by_cases hC : ret = mbedtls_ok
  · have hused : Progress s used { t with auth := fun n => t.auth (n + 1) } :=
      ⟨h.sd, h.log, h.code⟩
    rw [if_pos hC]
    cases hans : t.auth 0 with
    | ok u =>
      have hrun : TlsContext.auth_callback t =
          (.ok (), { t with auth := fun n => t.auth (n + 1) }) := by
        simp only [TlsContext.auth_callback, hans]
      apply wp_of_same (Prog.bind_ok g hrun)
      exact hpassed _ hused fun _ => hauth ▸ hans
    | error e =>
      have hrun : TlsContext.auth_callback t =
          (.err e.toError, { t with auth := fun n => t.auth (n + 1) }) := by
        simp only [TlsContext.auth_callback, hans]
      apply wp_of_eq (Prog.bind_err g hrun)
      apply hrefused e.toError _ hused
      rw [← hauth, hans]
      intro heq
      cases heq
  · rw [if_neg hC]
    exact hpassed t h fun hc => absurd (hret.mpr hc) hC

end Setup

/-- What a secure `init` has recorded. -/
def initCalls (protocol : proto) : List NetCall :=
  [.messup, .mbedtls_ssl_config_defaults (TlsContext.transport protocol)]

theorem ciphersuites_ok (mode : security_mode) :
    TlsContext.ciphersuites mode = mbedtls_ok ↔ mode = .psk ∨ mode = .certificate_ec := by
  cases mode <;> decide

theorem seedCode_ok (x : Int) : TlsContext.seedCode x = mbedtls_ok ↔
    x = mbedtls_ok ∨ x = MBEDTLS_ERR_CTR_DRBG_ENTROPY_SOURCE_FAILED := by
  unfold TlsContext.seedCode
  by_cases hx : x = MBEDTLS_ERR_CTR_DRBG_ENTROPY_SOURCE_FAILED
  · simp only [hx, if_true, or_true]
  · simp only [hx, if_false, or_false]

/-- **`init` for a secure protocol**: `SetupOk` decides whether it returns an error, and in
    either case the mbedTLS context is in use. -/
theorem init_spec (T : TlsContext) (protocol : proto) (s : Link)
    (hsec : protocol.isSecure = true) :
    wp (T.init protocol) (fun x s' => Progress (s.record (initCalls protocol)) setupCalls s' ∧
      ((SetupOk T protocol s ∧ x = .ok ()) ∨ (¬SetupOk T protocol s ∧ ∃ e, x = .err e))) s := by
  have h := (Progress.refl (s.record (initCalls protocol))).advance .mbedtls_ssl_config_defaults
  have hrec : (s.record [.messup]).record
      [.mbedtls_ssl_config_defaults (TlsContext.transport protocol)] =
      s.record (initCalls protocol) := by
    simp [Link.record, initCalls]
  have hmessup : TlsContext.messup s = (.ok (), s.record [.messup]) := rfl
  have hdefaults : record [.mbedtls_ssl_config_defaults (TlsContext.transport protocol)]
      (s.record [.messup]) = (.ok (), s.record (initCalls protocol)) := by rw [← hrec]; rfl
  have hcall : call .mbedtls_ssl_config_defaults (s.record (initCalls protocol)) =
      (.ok (s.code .mbedtls_ssl_config_defaults 0),
        (s.record (initCalls protocol)).advance .mbedtls_ssl_config_defaults) := rfl
  simp only [TlsContext.init, hsec, Bool.not_true, Bool.false_eq_true, if_false]
  apply wp_of_same (Prog.bind_ok _ hmessup)
  apply wp_of_same (Prog.bind_ok _ hdefaults)
  apply wp_of_same (Prog.bind_ok _ hcall)
  apply wp_ifOk_call h Iff.rfl (by decide)
  intro r₁ t₁ h₁ ha₁ hr₁
  have hseed : TlsContext.seed t₁ = (.ok (TlsContext.seedCode (s.code .mbedtls_ctr_drbg_seed 0)),
      t₁.advance .mbedtls_ctr_drbg_seed) := by
    have hcode : t₁.code .mbedtls_ctr_drbg_seed = s.code .mbedtls_ctr_drbg_seed :=
      h₁.code _ (by decide)
    rw [← hcode]
    rfl
  apply wp_ifOk hseed rfl (h₁.weaken _) (h₁.advance _) hr₁ (seedCode_ok _)
  intro r₂ t₂ h₂ ha₂ hr₂
  have hsuites : (pure (TlsContext.ciphersuites T.mode) : NetM Int) t₂ =
      (.ok (TlsContext.ciphersuites T.mode), t₂) := rfl
  apply wp_ifOk hsuites rfl h₂ h₂ hr₂ (ciphersuites_ok T.mode)
  intro r₃ t₃ h₃ ha₃ hr₃
  apply wp_ifDtls h₃ hr₃ (by decide)
  intro r₄ t₄ h₄ ha₄ hr₄
  have hauth : t₄.auth = s.auth := by rw [ha₄, ha₃, ha₂, ha₁]; rfl
  apply wp_authenticate h₄ hauth hr₄
  · intro e t₅ h₅ hrefused
    refine ⟨((h₅.weaken _).weaken _).weaken _, .inr ⟨fun hok => hrefused hok.auth, e, rfl⟩⟩
  intro t₅ h₅ hpassed
  apply wp_ifOk_call h₅ hr₄ (by decide)
  intro r₆ t₆ h₆ ha₆ hr₆
  apply wp_ifDtls h₆ hr₆ (by decide)
  intro r₇ t₇ h₇ ha₇ hr₇
  apply wp_ifDtls h₇ hr₇ (by decide)
  intro r₈ t₈ h₈ ha₈ hr₈
  rw [wp_ite]
  have hall : r₈ = mbedtls_ok ↔ SetupOk T protocol s := by
    rw [hr₈]
    constructor
    · rintro ⟨⟨⟨hok, hsetup⟩, hrandom⟩, hcid⟩
      have hans := hpassed hok
      obtain ⟨⟨⟨⟨hdef, hfrag⟩, hseed⟩, hmode⟩, hconf⟩ := hok
      exact ⟨hdef, hfrag, hseed, hmode, hconf, hans, hsetup, hrandom, hcid⟩
    · intro hok
      exact ⟨⟨⟨⟨⟨⟨⟨hok.defaults, hok.max_frag_len⟩, hok.seed⟩, hok.mode⟩, hok.conf_cid⟩,
        hok.setup⟩, hok.random⟩, hok.set_cid⟩
  split
  · rename_i hne
    exact ⟨h₈, .inr ⟨fun hok => hne (hall.mpr hok), _, rfl⟩⟩
  · rename_i heq
    exact ⟨h₈, .inl ⟨hall.mp (not_not.mp heq), rfl⟩⟩

/-! ## The polling loops -/

/-- The `k`-th code is the first one that is not a request to call again. -/
def Stops (again : Int → Prop) (codes : Nat → Int) (k : Nat) : Prop :=
  (∀ j, j < k → again (codes j)) ∧ ¬again (codes k)

/-- `sl_Connect` asks to be called again. -/
def Connecting (ret : Int) : Prop := ret = SL_EALREADY

/-- `mbedtls_ssl_handshake` asks to be called again. -/
def Wanting (ret : Int) : Prop :=
  ret ≠ 0 ∧ (ret = MBEDTLS_ERR_SSL_WANT_WRITE ∨ ret = MBEDTLS_ERR_SSL_WANT_READ)

instance : DecidablePred Connecting := fun ret => inferInstanceAs (Decidable (ret = SL_EALREADY))

instance : DecidablePred Wanting := fun ret => inferInstanceAs
  (Decidable (ret ≠ 0 ∧ (ret = MBEDTLS_ERR_SSL_WANT_WRITE ∨ ret = MBEDTLS_ERR_SSL_WANT_READ)))

section Stops

variable {again : Int → Prop} {codes : Nat → Int}

theorem Stops.tail {k : Nat} (h : Stops again codes (k + 1)) :
    Stops again (fun n => codes (n + 1)) k := by
  refine ⟨?_, h.2⟩
  intro j hj
  exact h.1 (j + 1) (by omega)

theorem Stops.unique {k k' : Nat} (h : Stops again codes k) (h' : Stops again codes k') :
    k = k' := by
  have hle : ¬k < k' := fun hlt => h.2 (h'.1 k hlt)
  have hge : ¬k' < k := fun hlt => h'.2 (h.1 k' hlt)
  omega

/-- Within any number of calls the polling stops, or it goes on. -/
theorem stops_or_again [DecidablePred again] (codes : Nat → Int) (n : Nat) :
    (∃ k, k < n ∧ Stops again codes k) ∨ ∀ j, j < n → again (codes j) := by
  induction n with
  | zero => exact .inr fun j hj => absurd hj (Nat.not_lt_zero j)
  | succ n ih =>
    obtain ⟨k, hk, hstop⟩ | hall := ih
    · exact .inl ⟨k, by omega, hstop⟩
    · by_cases hn : again (codes n)
      · refine .inr fun j hj => ?_
        obtain hlt | rfl := Nat.lt_succ_iff_lt_or_eq.mp hj
        · exact hall j hlt
        · exact hn
      · exact .inl ⟨n, by omega, hall, hn⟩

end Stops

/-- The next `k` return codes of `a` have been used. -/
def Link.advances (s : Link) (a : Api) : Nat → Link
  | 0 => s
  | k + 1 => (s.advance a).advances a k

@[simp] theorem Link.advances_sd (s : Link) (a : Api) (k : Nat) : (s.advances a k).sd = s.sd := by
  induction k generalizing s with
  | zero => rfl
  | succ k ih => exact ih (s.advance a)

@[simp] theorem Link.advances_log (s : Link) (a : Api) (k : Nat) :
    (s.advances a k).log = s.log := by
  induction k generalizing s with
  | zero => rfl
  | succ k ih => exact ih (s.advance a)

theorem Link.advances_code_ne (s : Link) {a b : Api} (h : b ≠ a) (k : Nat) :
    (s.advances a k).code b = s.code b := by
  induction k generalizing s with
  | zero => rfl
  | succ k ih => exact (ih (s.advance a)).trans (s.advance_code_ne h)

theorem tryConnect_again {s : Link} (h : Connecting (s.code .sl_Connect 0)) :
    SimpleLinkConnection.tryConnect s = (.ok (.inl ()), s.advance .sl_Connect) := by
  have hcall : call .sl_Connect s = (.ok (s.code .sl_Connect 0), s.advance .sl_Connect) := rfl
  have hagain : s.code .sl_Connect 0 = SL_EALREADY := h
  apply (Prog.bind_ok _ hcall).trans
  rw [if_pos hagain]
  rfl

/-- `sl_Connect` is called up to the first code that does not ask for another call. -/
theorem connect_stops {s : Link} {k : Nat} (h : Stops Connecting (s.code .sl_Connect) k) (n : Nat) :
    SimpleLinkConnection.connect (k + 1 + n) s =
      (if s.code .sl_Connect k < SL_OK then .err .connect else .ok (),
        s.advances .sl_Connect (k + 1)) := by
  induction k generalizing s with
  | zero =>
    have hcall : call .sl_Connect s = (.ok (s.code .sl_Connect 0), s.advance .sl_Connect) := rfl
    have hne : ¬s.code .sl_Connect 0 = SL_EALREADY := h.2
    rw [Nat.zero_add, Nat.add_comm 1 n]
    unfold SimpleLinkConnection.connect
    split
    · rename_i hneg
      apply Prog.loop_err
      apply (Prog.bind_ok _ hcall).trans
      rw [if_neg hne, if_pos hneg]
      rfl
    · rename_i hneg
      apply Prog.loop_inr
      apply (Prog.bind_ok _ hcall).trans
      rw [if_neg hne, if_neg hneg]
      rfl
  | succ k ih =>
    have hagain : Connecting (s.code .sl_Connect 0) := h.1 0 (Nat.zero_lt_succ k)
    have hrest : Stops Connecting ((s.advance .sl_Connect).code .sl_Connect) k := by
      rw [Link.advance_code_self]
      exact h.tail
    have hround : SimpleLinkConnection.connect (k + 1 + n + 1) s =
        SimpleLinkConnection.connect (k + 1 + n) (s.advance .sl_Connect) :=
      Prog.loop_inl _ (tryConnect_again hagain)
    rw [Nat.add_right_comm (k + 1) 1 n, hround, ih hrest]
    simp [Link.advances]

/-- Without such a code the polling goes on. -/
theorem connect_halts {s : Link} {n : Nat} (h : ∀ j, j < n → Connecting (s.code .sl_Connect j)) :
    SimpleLinkConnection.connect n s = (.halt, s.advances .sl_Connect n) := by
  induction n generalizing s with
  | zero => rfl
  | succ n ih =>
    have hround : SimpleLinkConnection.connect (n + 1) s =
        SimpleLinkConnection.connect n (s.advance .sl_Connect) :=
      Prog.loop_inl _ (tryConnect_again (h 0 (Nat.zero_lt_succ n)))
    rw [hround]
    apply ih
    intro j hj
    rw [Link.advance_code_self]
    exact h (j + 1) (by omega)

/-- The record of the next `n` calls of `mbedtls_ssl_handshake`. -/
def handshakes (codes : Nat → Int) : Nat → List NetCall
  | 0 => []
  | n + 1 => .mbedtls_ssl_handshake (codes 0) :: handshakes (fun j => codes (j + 1)) n

@[simp] theorem moves_handshakes (codes : Nat → Int) (n : Nat) : moves (handshakes codes n) = [] := by
  induction n generalizing codes with
  | zero => rfl
  | succ n ih => exact ih _

theorem handshakes_last (codes : Nat → Int) (k : Nat) :
    ∃ l, handshakes codes (k + 1) = l ++ [.mbedtls_ssl_handshake (codes k)] := by
  induction k generalizing codes with
  | zero => exact ⟨[], rfl⟩
  | succ k ih =>
    obtain ⟨l, hl⟩ := ih fun j => codes (j + 1)
    refine ⟨.mbedtls_ssl_handshake (codes 0) :: l, ?_⟩
    rw [handshakes, hl]
    rfl

/-- `n` handshake calls lead from `s` to `s'`. -/
structure Polled (s : Link) (n : Nat) (s' : Link) : Prop where
  sd : s'.sd = s.sd
  log : s'.log = s.log ++ handshakes (s.code .mbedtls_ssl_handshake) n
  code : ∀ a, a ≠ .mbedtls_ssl_handshake → s'.code a = s.code a

/-- One round of the handshake. -/
def Link.polled (s : Link) : Link :=
  (s.advance .mbedtls_ssl_handshake).record
    [.mbedtls_ssl_handshake (s.code .mbedtls_ssl_handshake 0)]

theorem Polled.cons {s s' : Link} {n : Nat} (h : Polled s.polled n s') : Polled s (n + 1) s' := by
  refine ⟨h.sd, ?_, ?_⟩
  · rw [h.log]
    simp [Link.polled, handshakes]
  · intro a ha
    rw [h.code a ha]
    exact s.advance_code_ne ha

theorem tryHandshake_again (s : Link) {ret : Int} (h : Wanting ret) :
    TlsContext.tryHandshake ret s =
      (.ok (.inl (s.code .mbedtls_ssl_handshake 0)), s.polled) := by
  have hwant : ret ≠ 0 ∧ (ret = MBEDTLS_ERR_SSL_WANT_WRITE ∨ ret = MBEDTLS_ERR_SSL_WANT_READ) := h
  unfold TlsContext.tryHandshake
  rw [if_pos hwant]
  rfl

theorem tryHandshake_stop (s : Link) {ret : Int} (h : ¬Wanting ret) :
    TlsContext.tryHandshake ret s = (.ok (.inr ()), s) := by
  have hwant : ¬(ret ≠ 0 ∧
    (ret = MBEDTLS_ERR_SSL_WANT_WRITE ∨ ret = MBEDTLS_ERR_SSL_WANT_READ)) := h
  unfold TlsContext.tryHandshake
  rw [if_neg hwant]
  rfl

theorem handshake_loop_stops {s : Link} {ret : Int} {k : Nat} (hret : Wanting ret)
    (h : Stops Wanting (s.code .mbedtls_ssl_handshake) k) (n : Nat) :
    ∃ s', Prog.loop TlsContext.tryHandshake (k + 2 + n) ret s = (.ok (), s') ∧
      Polled s (k + 1) s' := by
  induction k generalizing s ret with
  | zero =>
    refine ⟨s.polled, ?_, Polled.cons ⟨rfl, (List.append_nil _).symm, fun _ _ => rfl⟩⟩
    rw [show 0 + 2 + n = n + 1 + 1 by omega]
    rw [Prog.loop_inl _ (tryHandshake_again s hret)]
    exact Prog.loop_inr _ (tryHandshake_stop _ h.2)
  | succ k ih =>
    have hrest : Stops Wanting (s.polled.code .mbedtls_ssl_handshake) k := by
      show Stops Wanting ((s.advance .mbedtls_ssl_handshake).code .mbedtls_ssl_handshake) k
      rw [Link.advance_code_self]
      exact h.tail
    obtain ⟨s', hrun, hpolled⟩ := ih (h.1 0 (Nat.zero_lt_succ k)) hrest
    refine ⟨s', ?_, hpolled.cons⟩
    rw [show k + 1 + 2 + n = k + 2 + n + 1 by omega]
    rw [Prog.loop_inl _ (tryHandshake_again s hret)]
    exact hrun

theorem handshake_loop_halts {s : Link} {ret : Int} {n : Nat} (hret : Wanting ret)
    (h : ∀ j, j + 1 < n → Wanting (s.code .mbedtls_ssl_handshake j)) :
    ∃ s', Prog.loop TlsContext.tryHandshake n ret s = (.halt, s') ∧ Polled s n s' := by
  induction n generalizing s ret with
  | zero => exact ⟨s, rfl, rfl, (List.append_nil _).symm, fun _ _ => rfl⟩
  | succ n ih =>
    have hround := Prog.loop_inl n (tryHandshake_again s hret)
    cases n with
    | zero => exact ⟨s.polled, hround, Polled.cons ⟨rfl, (List.append_nil _).symm, fun _ _ => rfl⟩⟩
    | succ n =>
      have hrest : ∀ j, j + 1 < n + 1 → Wanting (s.polled.code .mbedtls_ssl_handshake j) := by
        intro j hj
        show Wanting ((s.advance .mbedtls_ssl_handshake).code .mbedtls_ssl_handshake j)
        rw [Link.advance_code_self]
        exact h (j + 1) (by omega)
      obtain ⟨s', hrun, hpolled⟩ := ih (h 0 (by omega)) hrest
      exact ⟨s', hround.trans hrun, hpolled.cons⟩

/-- **The handshake loop** returns, whatever the code that ended it, or the fuel is used up. -/
theorem handshake_cases (s : Link) (n : Nat) :
    (∃ k s', Stops Wanting (s.code .mbedtls_ssl_handshake) k ∧
      TlsContext.handshake n s = (.ok (), s') ∧ Polled s (k + 1) s') ∨
    ∃ s', (∀ j, j + 1 < n → Wanting (s.code .mbedtls_ssl_handshake j)) ∧
      TlsContext.handshake n s = (.halt, s') ∧ Polled s n s' := by
  have hstart : Wanting MBEDTLS_ERR_SSL_WANT_WRITE := by decide
  obtain ⟨k, hk, hstop⟩ | hall := @stops_or_again Wanting _
    (s.code .mbedtls_ssl_handshake) (n - 1)
  · obtain ⟨s', hrun, hpolled⟩ := handshake_loop_stops hstart hstop (n - (k + 2))
    refine .inl ⟨k, s', hstop, ?_, hpolled⟩
    rw [← hrun, show k + 2 + (n - (k + 2)) = n by omega]
    rfl
  · have hwanting : ∀ j, j + 1 < n → Wanting (s.code .mbedtls_ssl_handshake j) :=
      fun j hj => hall j (by omega)
    obtain ⟨s', hrun, hpolled⟩ := handshake_loop_halts hstart hwanting
    exact .inr ⟨s', hwanting, hrun, hpolled⟩

/-! ## The connection below -/

/-- The state after `SimpleLinkConnection.socket`. -/
def Link.socketed (s : Link) (p : proto) : Link :=
  { (s.advance .sl_Socket).record [.sl_Socket (mapConnProtoToSl p) (s.code .sl_Socket 0)] with
    sd := s.code .sl_Socket 0 }

/-- The state after `SimpleLinkConnection.close`. -/
def Link.closed (s : Link) : Link :=
  { (s.record [.sl_Close s.sd]).advance .sl_Close with sd := SL_INVALID_SOCKET }

theorem socket_run (s : Link) (p : proto) :
    SimpleLinkConnection.socket p s =
      (if s.code .sl_Socket 0 < 0 then .err .socket else .ok (), s.socketed p) := by
  have hrun : SimpleLinkConnection.socket p s =
      (if s.code .sl_Socket 0 < 0 then Prog.throw .socket else pure () : NetM Unit)
        (s.socketed p) := rfl
  rw [hrun]
  split <;> rfl

theorem close_run (s : Link) :
    SimpleLinkConnection.close s =
      (if 0 ≠ s.code .sl_Close 0 then .err .close_error else .ok (), s.closed) := by
  have hrun : SimpleLinkConnection.close s =
      (Prog.deferring (Prog.modify fun s => { s with sd := SL_INVALID_SOCKET })
        (if 0 ≠ s.code .sl_Close 0 then Prog.throw .close_error else pure () : NetM Unit))
        ((s.record [.sl_Close s.sd]).advance .sl_Close) := rfl
  rw [hrun]
  split <;> rfl

/-- The context is deleted whatever `sl_Close` returns. -/
theorem TlsContext.close_run (s : Link) :
    TlsContext.close s =
      (if 0 ≠ s.code .sl_Close 0 then .err .close_error else .ok (),
        s.closed.record [.cleanup]) := by
  have hclose := Net.close_run s
  by_cases hret : 0 ≠ s.code .sl_Close 0
  · rw [if_pos hret] at hclose ⊢
    exact Prog.bind_ok _ (Prog.attempt_err hclose)
  · rw [if_neg hret] at hclose ⊢
    exact Prog.bind_ok _ (Prog.attempt_ok hclose)

/-! ## Opening -/

/-- The URI has all that opening a socket unwraps. -/
def Uri.Complete (uri : Uri) : Prop := uri.host.isSome ∧ uri.port.isSome

instance (uri : Uri) : Decidable uri.Complete := inferInstanceAs (Decidable (_ ∧ _))

/-- The transport modes of the contexts that have been configured. -/
def modes (log : List NetCall) : List Transport :=
  log.filterMap fun
    | .mbedtls_ssl_config_defaults transport => some transport
    | _ => none

@[simp] theorem modes_append (l k : List NetCall) : modes (l ++ k) = modes l ++ modes k :=
  List.filterMap_append

@[simp] theorem modes_handshakes (codes : Nat → Int) (n : Nat) :
    modes (handshakes codes n) = [] := by
  induction n generalizing codes with
  | zero => rfl
  | succ n ih => exact ih _

theorem Polled.modes {s s' : Link} {n : Nat} (h : Polled s n s') : modes s'.log = modes s.log := by
  rw [h.log, modes_append, modes_handshakes, List.append_nil]

/-- Closing comes to an end, whatever `sl_Close` returns. -/
theorem close_ends (s : Link) : SimpleLinkConnection.close s = (.ok (), s.closed) ∨
    ∃ e, SimpleLinkConnection.close s = (.err e, s.closed) := by
  rw [close_run]
  split
  · exact .inr ⟨_, rfl⟩
  · exact .inl rfl

/-- A missing host or port is unwrapped. -/
theorem SimpleLinkConnection.open_trap (fuel : Nat) (p : proto) {uri : Uri} (h : ¬uri.Complete)
    (s : Link) : SimpleLinkConnection.open fuel p uri s = (.trap, s) := by
  unfold SimpleLinkConnection.open
  cases hhost : uri.host with
  | none => rfl
  | some host =>
    cases hport : uri.port with
    | none => rfl
    | some port =>
      rw [Uri.Complete, hhost, hport] at h
      exact absurd ⟨rfl, rfl⟩ h

/-- DNS, the socket and the connection succeed. -/
structure Connects (s : Link) : Prop where
  dns : 0 ≤ s.code .sl_NetAppDnsGetHostByName 0
  socket : 0 ≤ s.code .sl_Socket 0
  connect : ∃ k, Stops Connecting (s.code .sl_Connect) k ∧ SL_OK ≤ s.code .sl_Connect k

theorem connects_congr {s s' : Link}
    (hdns : s'.code .sl_NetAppDnsGetHostByName = s.code .sl_NetAppDnsGetHostByName)
    (hsocket : s'.code .sl_Socket = s.code .sl_Socket)
    (hconnect : s'.code .sl_Connect = s.code .sl_Connect) : Connects s' ↔ Connects s := by
  constructor
  · intro h
    exact ⟨hdns ▸ h.dns, hsocket ▸ h.socket, hconnect ▸ h.connect⟩
  · intro h
    exact ⟨hdns ▸ h.dns, hsocket ▸ h.socket, hconnect ▸ h.connect⟩

/-- DNS, the socket or the connection fails. -/
def Refuses (s : Link) : Prop :=
  s.code .sl_NetAppDnsGetHostByName 0 < 0 ∨ s.code .sl_Socket 0 < 0 ∨
    ∃ k, Stops Connecting (s.code .sl_Connect) k ∧ s.code .sl_Connect k < SL_OK

theorem refuses_congr {s s' : Link}
    (hdns : s'.code .sl_NetAppDnsGetHostByName = s.code .sl_NetAppDnsGetHostByName)
    (hsocket : s'.code .sl_Socket = s.code .sl_Socket)
    (hconnect : s'.code .sl_Connect = s.code .sl_Connect) : Refuses s' ↔ Refuses s := by
  unfold Refuses
  rw [hdns, hsocket, hconnect]

theorem Refuses.not_connects {s : Link} (h : Refuses s) : ¬Connects s := by
  intro hc
  obtain hdns | hsocket | ⟨k, hstop, hneg⟩ := h
  · exact absurd hdns (Int.not_lt.mpr hc.dns)
  · exact absurd hsocket (Int.not_lt.mpr hc.socket)
  · obtain ⟨k', hstop', hok⟩ := hc.connect
    rw [hstop'.unique hstop] at hok
    exact absurd hneg (Int.not_lt.mpr hok)

/-- No socket is left of what has been opened. -/
def Undone (es : List NetCall) : Prop := ∀ live : Finset Resource,
  (∀ sd, .socket sd ∉ live) → Ledger.replay live (moves es) = some live

/-- **How `SimpleLinkConnection.open` ends** with a host and a port, and what it has recorded: it
    has a socket, it returns an error, or it is still polling. -/
theorem SimpleLinkConnection.open_exits {uri : Uri} (h : uri.Complete) (fuel : Nat) (p : proto)
    (s : Link) :
    wp (SimpleLinkConnection.open fuel p uri) (fun x s' => ∃ es, s'.log = s.log ++ es ∧
      modes es = [] ∧ s'.code .mbedtls_ssl_handshake = s.code .mbedtls_ssl_handshake ∧
      ((x = .ok () ∧ Connects s ∧ 0 ≤ s'.sd ∧ es = [.sl_Socket (mapConnProtoToSl p) s'.sd]) ∨
        ((∃ e, x = .err e) ∧ Refuses s ∧ Undone es) ∨
        (x = .halt ∧ 0 ≤ s'.sd ∧ es = [.sl_Socket (mapConnProtoToSl p) s'.sd] ∧
          ∀ j, j < fuel → Connecting (s.code .sl_Connect j)))) s := by
  obtain ⟨host, hhost⟩ := Option.isSome_iff_exists.mp h.1
  obtain ⟨port, hport⟩ := Option.isSome_iff_exists.mp h.2
  have hdns : call .sl_NetAppDnsGetHostByName s =
    (.ok (s.code .sl_NetAppDnsGetHostByName 0), s.advance .sl_NetAppDnsGetHostByName) := rfl
  unfold SimpleLinkConnection.open
  simp only [hhost, hport]
  apply wp_of_same (Prog.bind_ok _ hdns)
  generalize hs₁ : s.advance .sl_NetAppDnsGetHostByName = s₁
  have hlog₁ : s₁.log = s.log := by rw [← hs₁]; rfl
  have hcode₁ {a : Api} (ha : a ≠ .sl_NetAppDnsGetHostByName) : s₁.code a = s.code a := by
    rw [← hs₁, s.advance_code_ne ha]
  split
  · rename_i hneg
    refine ⟨[], by rw [List.append_nil]; exact hlog₁, rfl, hcode₁ (by decide), .inr (.inl ?_)⟩
    exact ⟨⟨_, rfl⟩, .inl hneg, fun _ _ => rfl⟩
  · rename_i hresolved
    have hsocket := socket_run s₁ p
    have hsd : s₁.code .sl_Socket 0 = s.code .sl_Socket 0 := by rw [hcode₁ (by decide)]
    have hlog : (s₁.socketed p).log =
        s.log ++ [.sl_Socket (mapConnProtoToSl p) (s₁.code .sl_Socket 0)] := by
      rw [← hlog₁]
      rfl
    have hcode {a : Api} (hdns : a ≠ .sl_NetAppDnsGetHostByName) (hsl : a ≠ .sl_Socket) :
        (s₁.socketed p).code a = s.code a := (s₁.advance_code_ne hsl).trans (hcode₁ hdns)
    by_cases hneg : s₁.code .sl_Socket 0 < 0
    · rw [if_pos hneg] at hsocket
      apply wp_of_eq (Prog.bind_err _ hsocket)
      refine ⟨_, hlog, rfl, hcode (by decide) (by decide),
        .inr (.inl ⟨⟨_, rfl⟩, .inr (.inl (hsd ▸ hneg)), ?_⟩)⟩
      intro live _
      simp [moves, NetCall.move, hneg]
    · rw [if_neg hneg] at hsocket
      have hconnecting : (s₁.socketed p).code .sl_Connect = s.code .sl_Connect :=
        hcode (by decide) (by decide)
      apply wp_of_same (Prog.bind_ok _ hsocket)
      obtain ⟨k, hk, hstop⟩ | hall := @stops_or_again Connecting _
        ((s₁.socketed p).code .sl_Connect) fuel
      · have hrun := connect_stops hstop (fuel - (k + 1))
        rw [show k + 1 + (fuel - (k + 1)) = fuel by omega] at hrun
        have hkept : ((s₁.socketed p).advances .sl_Connect (k + 1)).code .mbedtls_ssl_handshake =
            s.code .mbedtls_ssl_handshake :=
          (Link.advances_code_ne _ (by decide) _).trans (hcode (by decide) (by decide))
        rw [hconnecting] at hstop hrun
        split at hrun
        · rename_i hfailed
          have hclosed : ((s₁.socketed p).advances .sl_Connect (k + 1)).closed.log = s.log ++
              [.sl_Socket (mapConnProtoToSl p) (s₁.code .sl_Socket 0),
                .sl_Close (s₁.code .sl_Socket 0)] := by
            show ((s₁.socketed p).advances .sl_Connect (k + 1)).log ++
              [.sl_Close ((s₁.socketed p).advances .sl_Connect (k + 1)).sd] = _
            rw [Link.advances_log, Link.advances_sd, hlog, List.append_assoc]
            rfl
          apply wp_of_eq (Prog.errdeferring_err hrun (close_ends _))
          refine ⟨_, hclosed, rfl, hkept,
            .inr (.inl ⟨⟨_, rfl⟩, .inr (.inr ⟨k, hstop, hfailed⟩), ?_⟩)⟩
          intro live hlive
          have hmoves : moves [.sl_Socket (mapConnProtoToSl p) (s₁.code .sl_Socket 0),
              .sl_Close (s₁.code .sl_Socket 0)] =
              [.acquire (.socket (s₁.code .sl_Socket 0)),
                .release (.socket (s₁.code .sl_Socket 0))] := by
            simp [moves, NetCall.move, hneg]
          rw [hmoves]
          exact Ledger.replay_borrow (hlive _)
        · rename_i hok
          apply wp_of_eq (Prog.errdeferring_ok _ hrun)
          have hafter : ((s₁.socketed p).advances .sl_Connect (k + 1)).sd = s₁.code .sl_Socket 0 := by
            rw [Link.advances_sd]
            rfl
          refine ⟨[.sl_Socket (mapConnProtoToSl p) (s₁.code .sl_Socket 0)], ?_, rfl, hkept,
            .inl ⟨rfl, ⟨Int.not_lt.mp ?_, ?_, k, hstop, Int.not_lt.mp hok⟩, ?_, ?_⟩⟩
          · rw [Link.advances_log, hlog]
          · exact hresolved
          · rw [← hsd]
            exact Int.not_lt.mp hneg
          · rw [hafter]
            exact Int.not_lt.mp hneg
          · rw [hafter]
      · apply wp_of_eq (Prog.errdeferring_halt _ (connect_halts hall))
        rw [hconnecting] at hall
        have hafter : ((s₁.socketed p).advances .sl_Connect fuel).sd = s₁.code .sl_Socket 0 := by
          rw [Link.advances_sd]
          rfl
        refine ⟨[.sl_Socket (mapConnProtoToSl p) (s₁.code .sl_Socket 0)], ?_, rfl,
          (Link.advances_code_ne _ (by decide) _).trans (hcode (by decide) (by decide)),
          .inr (.inr ⟨rfl, ?_, ?_, hall⟩)⟩
        · rw [Link.advances_log]
          exact hlog
        · rw [hafter]
          exact Int.not_lt.mp hneg
        · rw [hafter]

/-- The same without the record. -/
theorem SimpleLinkConnection.open_cases {uri : Uri} (h : uri.Complete) (fuel : Nat) (p : proto)
    (s : Link) :
    wp (SimpleLinkConnection.open fuel p uri) (fun x s' => modes s'.log = modes s.log ∧
      s'.code .mbedtls_ssl_handshake = s.code .mbedtls_ssl_handshake ∧
      ((x = .ok () ∧ 0 ≤ s'.sd) ∨ (∃ e, x = .err e) ∨
        (x = .halt ∧ ∀ j, j < fuel → Connecting (s.code .sl_Connect j)))) s := by
  apply wp_mono (SimpleLinkConnection.open_exits h fuel p s)
  intro x s' hexit
  obtain ⟨es, hlog, hmodes, hcode, hx⟩ := hexit
  refine ⟨by rw [hlog, modes_append, hmodes, List.append_nil], hcode, ?_⟩
  rcases hx with ⟨hok, -, hsd, -⟩ | ⟨herr, -⟩ | ⟨hhalt, -, -, hall⟩
  · exact .inl ⟨hok, hsd⟩
  · exact .inr (.inl herr)
  · exact .inr (.inr ⟨hhalt, hall⟩)

theorem SimpleLinkConnection.open_safe (fuel : Nat) (p : proto) {uri : Uri} (h : uri.Complete)
    (s : Link) : (SimpleLinkConnection.open fuel p uri s).1 ≠ .trap := by
  intro htrap
  obtain ⟨-, -, hx⟩ := SimpleLinkConnection.open_cases h fuel p s
  rw [htrap] at hx
  obtain ⟨hok, -⟩ | ⟨e, herr⟩ | ⟨hhalt, -⟩ := hx
  · cases hok
  · cases herr
  · cases hhalt

/-- The context is deleted when the error is passed on. -/
theorem deinit_run (s : Link) : TlsContext.deinit s = (.ok (), s.record [.cleanup]) := rfl

/-- An unknown scheme is unwrapped. -/
theorem TlsContext.open_unknown {uri : Uri} (h : schemes.ofScheme uri.scheme = none) (fuel : Nat)
    (T : TlsContext) (s : Link) : TlsContext.open fuel T uri s = (.trap, s) := by
  unfold TlsContext.open
  rw [h]
  rfl

section Scheme

variable {uri : Uri} {scheme : schemes}

/-- A scheme without security is refused before anything is called. -/
theorem TlsContext.open_insecure (h : schemes.ofScheme uri.scheme = some scheme)
    (hsec : scheme.getProtocol.isSecure = false) (fuel : Nat) (T : TlsContext) (s : Link) :
    TlsContext.open fuel T uri s = (.err .no_sec, s) := by
  have hinit : T.init scheme.getProtocol s = (.err .no_sec, s) := by
    unfold TlsContext.init
    rw [hsec]
    rfl
  unfold TlsContext.open
  rw [h]
  exact Prog.bind_err _ hinit

/-- A missing host or port is unwrapped when the context has been set up. -/
theorem TlsContext.open_incomplete (h : schemes.ofScheme uri.scheme = some scheme)
    (hsec : scheme.getProtocol.isSecure = true) (huri : ¬uri.Complete) (fuel : Nat)
    (T : TlsContext) (s : Link) :
    wp (TlsContext.open fuel T uri) (fun x s' =>
      s'.log = s.log ++ initCalls scheme.getProtocol ∧
      ((x = .trap ∧ SetupOk T scheme.getProtocol s) ∨
        ((∃ e, x = .err e) ∧ ¬SetupOk T scheme.getProtocol s))) s := by
  unfold TlsContext.open
  rw [h]
  dsimp only
  rw [wp_bind]
  apply wp_mono (init_spec T scheme.getProtocol s hsec)
  intro x s₁ hinit
  obtain ⟨hprogress, hx⟩ := hinit
  have hlog₁ : s₁.log = s.log ++ initCalls scheme.getProtocol := by
    rw [hprogress.log, Link.record_log]
  obtain ⟨hsetup, rfl⟩ | ⟨hrefused, e, rfl⟩ := hx
  · have hopen := Prog.bind_trap
      (fun _ => Prog.errdeferring SimpleLinkConnection.close (TlsContext.handshake fuel))
      (SimpleLinkConnection.open_trap fuel T.conn huri s₁)
    rw [thenPost_ok]
    apply wp_of_eq (Prog.errdeferring_trap TlsContext.deinit hopen)
    exact ⟨hlog₁, .inl ⟨rfl, hsetup⟩⟩
  · exact ⟨hlog₁, .inr ⟨⟨e, rfl⟩, hrefused⟩⟩

theorem TlsContext.open_trap (h : schemes.ofScheme uri.scheme = some scheme)
    (hsec : scheme.getProtocol.isSecure = true) (huri : ¬uri.Complete) (fuel : Nat)
    {T : TlsContext} {s : Link} (hsetup : SetupOk T scheme.getProtocol s) :
    (TlsContext.open fuel T uri s).1 = .trap := by
  obtain ⟨-, ⟨htrap, -⟩ | ⟨-, hrefused⟩⟩ := TlsContext.open_incomplete h hsec huri fuel T s
  · exact htrap
  · exact absurd hsetup hrefused

/-- **How `TlsContext.open` ends** for a secure scheme, with a host and a port, and what it has
    recorded: whatever code has ended the handshake, and with the context left behind where the
    set-up has failed. -/
theorem TlsContext.open_exits (h : schemes.ofScheme uri.scheme = some scheme)
    (hsec : scheme.getProtocol.isSecure = true) (huri : uri.Complete) (fuel : Nat)
    (T : TlsContext) (s : Link) :
    wp (TlsContext.open fuel T uri) (fun x s' => ∃ es, s'.log = s.log ++ es ∧
      modes es = [TlsContext.transport scheme.getProtocol] ∧
      ((x = .ok () ∧ SetupOk T scheme.getProtocol s ∧ Connects s ∧ 0 ≤ s'.sd ∧
          moves es = [.acquire .tls, .acquire (.socket s'.sd)] ∧
          ∃ k l, Stops Wanting (s.code .mbedtls_ssl_handshake) k ∧
            es = l ++ [.mbedtls_ssl_handshake (s.code .mbedtls_ssl_handshake k)]) ∨
        ((∃ e, x = .err e) ∧ ¬SetupOk T scheme.getProtocol s ∧ moves es = [.acquire .tls]) ∨
        ((∃ e, x = .err e) ∧ SetupOk T scheme.getProtocol s ∧ Refuses s ∧
          Ledger.replay ∅ (moves es) = some ∅) ∨
        (x = .halt ∧ moves es = [.acquire .tls, .acquire (.socket s'.sd)] ∧
          ((∀ j, j < fuel → Connecting (s.code .sl_Connect j)) ∨
            ∀ j, j + 1 < fuel → Wanting (s.code .mbedtls_ssl_handshake j))))) s := by
  unfold TlsContext.open
  rw [h]
  dsimp only
  rw [wp_bind]
  apply wp_mono (init_spec T scheme.getProtocol s hsec)
  intro x s₁ hinit
  obtain ⟨hprogress, hx⟩ := hinit
  have hlog₁ : s₁.log = s.log ++ initCalls scheme.getProtocol := by
    rw [hprogress.log, Link.record_log]
  obtain ⟨hsetup, rfl⟩ | ⟨hrefused, e, rfl⟩ := hx
  · rw [thenPost_ok]
    have hcode {a : Api} (ha : a ∉ setupCalls) : s₁.code a = s.code a := hprogress.code a ha
    have hconnects : Connects s₁ ↔ Connects s :=
      connects_congr (hcode (by decide)) (hcode (by decide)) (hcode (by decide))
    have hrefuses : Refuses s₁ ↔ Refuses s :=
      refuses_congr (hcode (by decide)) (hcode (by decide)) (hcode (by decide))
    have hacquired {sd : Int} (hsd : 0 ≤ sd) (codes : Nat → Int) (n : Nat) :
        moves (initCalls scheme.getProtocol ++ [.sl_Socket (mapConnProtoToSl T.conn) sd] ++
          handshakes codes n) = [.acquire .tls, .acquire (.socket sd)] := by
      have hneg : ¬sd < 0 := Int.not_lt.mpr hsd
      have hsocket : moves [.sl_Socket (mapConnProtoToSl T.conn) sd] = [.acquire (.socket sd)] := by
        simp [moves, NetCall.move, hneg]
      rw [moves_append, moves_append, moves_handshakes, hsocket]
      rfl
    cases hrun : SimpleLinkConnection.open fuel T.conn uri s₁ with
    | mk x s₂ =>
      obtain ⟨es, hlog₂, hmodes, hhandshake, hx⟩ :=
        wp_of_run (SimpleLinkConnection.open_exits huri fuel T.conn s₁) hrun
      have hlog : s₂.log = s.log ++ (initCalls scheme.getProtocol ++ es) := by
        rw [hlog₂, hlog₁, List.append_assoc]
      have hmodes' : modes (initCalls scheme.getProtocol ++ es) =
          [TlsContext.transport scheme.getProtocol] := by
        rw [modes_append, hmodes]
        rfl
      obtain ⟨rfl, hconnected, hsd, rfl⟩ | ⟨⟨e, rfl⟩, hfailed, hundone⟩ |
        ⟨rfl, hsd, rfl, hall⟩ := hx
      · obtain ⟨k, s₃, hstop, hshake, hpolled⟩ | ⟨s₃, hwanting, hshake, hpolled⟩ :=
          handshake_cases s₂ fuel
        · apply wp_of_eq (Prog.errdeferring_ok _
            ((Prog.bind_ok _ hrun).trans (Prog.errdeferring_ok _ hshake)))
          rw [hhandshake, hcode (by decide)] at hstop
          obtain ⟨l, hlast⟩ := handshakes_last (s₂.code .mbedtls_ssl_handshake) k
          refine ⟨initCalls scheme.getProtocol ++ [.sl_Socket (mapConnProtoToSl T.conn) s₂.sd] ++
              handshakes (s₂.code .mbedtls_ssl_handshake) (k + 1), ?_, ?_,
            .inl ⟨rfl, hsetup, hconnects.mp hconnected, hpolled.sd ▸ hsd, ?_,
              k, initCalls scheme.getProtocol ++
                [.sl_Socket (mapConnProtoToSl T.conn) s₂.sd] ++ l, hstop, ?_⟩⟩
          · rw [hpolled.log, hlog, List.append_assoc]
          · rw [modes_append, modes_handshakes, List.append_nil]
            exact hmodes'
          · rw [hpolled.sd]
            exact hacquired hsd _ _
          · rw [hlast, hhandshake, hcode (by decide), ← List.append_assoc]
        · apply wp_of_eq (Prog.errdeferring_halt _
            ((Prog.bind_ok _ hrun).trans (Prog.errdeferring_halt _ hshake)))
          rw [hhandshake, hcode (by decide)] at hwanting
          refine ⟨initCalls scheme.getProtocol ++ [.sl_Socket (mapConnProtoToSl T.conn) s₂.sd] ++
              handshakes (s₂.code .mbedtls_ssl_handshake) fuel, ?_, ?_,
            .inr (.inr (.inr ⟨rfl, ?_, .inr hwanting⟩))⟩
          · rw [hpolled.log, hlog, List.append_assoc]
          · rw [modes_append, modes_handshakes, List.append_nil]
            exact hmodes'
          · rw [hpolled.sd]
            exact hacquired hsd _ _
      · apply wp_of_eq (Prog.errdeferring_err (Prog.bind_err _ hrun) (.inl (deinit_run s₂)))
        refine ⟨initCalls scheme.getProtocol ++ es ++ [.cleanup], ?_, ?_,
          .inr (.inr (.inl ⟨⟨e, rfl⟩, hsetup, hrefuses.mp hfailed, ?_⟩))⟩
        · rw [Link.record_log, hlog, List.append_assoc]
        · rw [modes_append, hmodes']
          rfl
        · have hlive := hundone {.tls} fun sd hsd => by cases Finset.mem_singleton.mp hsd
          rw [List.append_assoc, moves_append, moves_append]
          show Ledger.replay {.tls} (moves es ++ [.release .tls]) = some ∅
          rw [Ledger.replay_then _ hlive]
          decide
      · apply wp_of_eq (Prog.errdeferring_halt _ (Prog.bind_halt _ hrun))
        rw [hcode (by decide)] at hall
        refine ⟨_, hlog, hmodes', .inr (.inr (.inr ⟨rfl, ?_, .inl hall⟩))⟩
        have hmoves := hacquired hsd (s₂.code .mbedtls_ssl_handshake) 0
        rw [handshakes, List.append_nil] at hmoves
        exact hmoves
  · exact ⟨_, hlog₁, rfl, .inr (.inl ⟨⟨e, rfl⟩, hrefused, rfl⟩)⟩

/-- The same without the record.  The context is configured once, for the protocol of the scheme. -/
theorem TlsContext.open_cases (h : schemes.ofScheme uri.scheme = some scheme)
    (hsec : scheme.getProtocol.isSecure = true) (huri : uri.Complete) (fuel : Nat)
    (T : TlsContext) (s : Link) :
    wp (TlsContext.open fuel T uri) (fun x s' =>
      modes s'.log = modes s.log ++ [TlsContext.transport scheme.getProtocol] ∧
      ((x = .ok () ∧ 0 ≤ s'.sd) ∨ (∃ e, x = .err e) ∨
        (x = .halt ∧ ((∀ j, j < fuel → Connecting (s.code .sl_Connect j)) ∨
          ∀ j, j + 1 < fuel → Wanting (s.code .mbedtls_ssl_handshake j))))) s := by
  apply wp_mono (TlsContext.open_exits h hsec huri fuel T s)
  intro x s' hexit
  obtain ⟨es, hlog, hmodes, hx⟩ := hexit
  refine ⟨by rw [hlog, modes_append, hmodes], ?_⟩
  rcases hx with ⟨hok, -, -, hsd, -⟩ | ⟨herr, -⟩ | ⟨herr, -⟩ | ⟨hhalt, -, hpolling⟩
  · exact .inl ⟨hok, hsd⟩
  · exact .inr (.inl herr)
  · exact .inr (.inl herr)
  · exact .inr (.inr ⟨hhalt, hpolling⟩)

end Scheme

/-! ## The errors of a connection -/

section Errors

/-- The error is not `create_error`, which nothing returns, and is not about an acknowledgement. -/
def Common (e : Error) : Prop :=
  e ≠ .create_error ∧ e ≠ .qos_packet_not_found ∧ e ≠ .pubrel_packet_not_found

instance (e : Error) : Decidable (Common e) := inferInstanceAs (Decidable (_ ∧ _))

theorem call_raises (a : Api) : Raises Common (call a) := .of_ok fun s => ⟨s.code a 0, rfl⟩

theorem ifOk_raises {m : NetM Int} (h : Raises Common m) (ret : Int) :
    Raises Common (TlsContext.ifOk m ret) := .ite _ h (.pure ret)

theorem ifDtls_raises {m : NetM Int} (h : Raises Common m) (protocol : proto) (ret : Int) :
    Raises Common (TlsContext.ifDtls protocol m ret) := by
  unfold TlsContext.ifDtls
  split
  · exact ifOk_raises h ret
  · exact .pure ret

theorem record_raises (l : List NetCall) : Raises Common (record l) := .modify _

theorem auth_callback_run (s : Link) : (TlsContext.auth_callback s).1 =
    match s.auth 0 with
    | .ok () => .ok ()
    | .error e => .err e.toError := by
  unfold TlsContext.auth_callback
  cases s.auth 0 <;> rfl

theorem auth_callback_raises : Raises Common TlsContext.auth_callback := by
  intro s e he
  rw [auth_callback_run] at he
  cases hauth : s.auth 0 with
  | ok u =>
    rw [hauth] at he
    cases he
  | error err =>
    rw [hauth] at he
    cases he
    cases err <;> decide

theorem init_raises (T : TlsContext) (protocol : proto) : Raises Common (T.init protocol) := by
  unfold TlsContext.init
  refine .ite _ (.throw (by decide)) ?_
  apply (record_raises [.messup]).bind
  intro _
  apply (record_raises _).bind
  intro _
  apply (call_raises _).bind
  intro ret
  apply (ifOk_raises (call_raises _) ret).bind
  intro ret
  apply (ifOk_raises ((call_raises _).bind fun _ => .pure _) ret).bind
  intro ret
  apply (ifOk_raises (.pure _) ret).bind
  intro ret
  apply (ifDtls_raises (call_raises _) protocol ret).bind
  intro ret
  apply (Raises.ite _ auth_callback_raises (.pure ())).bind
  intro _
  apply (ifOk_raises (call_raises _) ret).bind
  intro ret
  apply (ifDtls_raises (call_raises _) protocol ret).bind
  intro ret
  apply (ifDtls_raises (call_raises _) protocol ret).bind
  intro ret
  exact .ite _ (.throw (by decide)) (.pure ())

theorem connect_raises (fuel : Nat) : Raises Common (SimpleLinkConnection.connect fuel) := by
  apply Raises.loop
  intro _
  apply (call_raises _).bind
  intro ret
  exact .ite _ (.pure _) (.ite _ (.throw (by decide)) (.pure _))

theorem socket_raises (p : proto) : Raises Common (SimpleLinkConnection.socket p) := by
  intro s e he
  rw [socket_run] at he
  split at he
  · cases he
    decide
  · cases he

theorem open_raises (fuel : Nat) (p : proto) (uri : Uri) :
    Raises Common (SimpleLinkConnection.open fuel p uri) := by
  unfold SimpleLinkConnection.open
  split
  · have hconnect : Raises Common (SimpleLinkConnection.socket p >>= fun _ =>
        Prog.errdeferring SimpleLinkConnection.close (SimpleLinkConnection.connect fuel)) :=
      (socket_raises p).bind fun _ => (connect_raises fuel).errdeferring
    apply (call_raises _).bind
    intro dns
    by_cases hdns : dns < 0
    · simp only [hdns, if_true]
      exact (Raises.throw (by decide)).bind fun _ => hconnect
    · simp only [hdns, if_false]
      exact (Raises.pure ()).bind fun _ => hconnect
  · exact .trap

theorem handshake_raises (fuel : Nat) : Raises Common (TlsContext.handshake fuel) := by
  apply Raises.loop
  intro ret
  refine .ite _ ?_ (.pure _)
  apply (call_raises _).bind
  intro ret
  exact (record_raises _).bind fun _ => .pure _

theorem TlsContext.open_raises (fuel : Nat) (T : TlsContext) (uri : Uri) :
    Raises Common (TlsContext.open fuel T uri) := by
  unfold TlsContext.open
  split
  · exact .trap
  · apply (init_raises T _).bind
    intro _
    apply Raises.errdeferring
    apply (Net.open_raises fuel T.conn uri).bind
    intro _
    exact (handshake_raises fuel).errdeferring

theorem TlsContext.send_tls_raises (fuel len : Nat) :
    Raises Common (TlsContext.send_tls fuel len) := by
  unfold TlsContext.send_tls
  apply Raises.bind
  · apply Raises.loop
    intro v
    refine .ite _ ?_ (.pure _)
    apply (call_raises _).bind
    intro num_bytes
    exact .ite _ (.pure _) (.ite _ (.pure _) (.pure _))
  · intro v
    exact .ite _ (.pure _) (.throw (by decide))

end Errors

end Miso.Net

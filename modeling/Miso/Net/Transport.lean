import Miso.Net.Writes

/-!
# Sending and receiving (`simpleConnection.zig`, `mbedtls.zig`)

The two transports behind `Connection`, over a driver that accepts and delivers bytes
(`Wire`): the return codes of the underlying calls are arbitrary, except that no call accepts or
delivers more bytes than it is asked to.

* `TlsContext.send_tls_refines` — the loop over the bytes agrees with the one that counts them;
* `TlsContext.send_all` — a successful send over TLS has handed over the whole buffer;
* `SimpleLinkConnection.recieve_some` — a successful receive without TLS has a byte;
* `contract_iff` — for both transports and every sequence of return codes, when a successful
  send means the whole buffer and a successful receive at least one byte.
-/

namespace Miso.Net.Transport

open Zig

/-! ## The driver -/

/-- The driver below a connection. -/
structure Wire where
  /-- The return codes of `sl_Send`, `sl_SendTo`, `sl_Recv`, `sl_RecvFrom`, `mbedtls_ssl_write`
      and `mbedtls_ssl_read` to come. -/
  code : Nat → Int
  /-- The bytes that arrive. -/
  input : Nat → UInt8
  /-- What `mbedtls_ssl_get_peer_cid` returns, and whether a connection identifier is in use. -/
  peer_cid : Int × Bool
  /-- The bytes that the driver has accepted. -/
  taken : List UInt8

abbrev WireM := Prog Wire Error

/-- The driver after a call that has accepted `accepted` and delivered `delivered` bytes. -/
def Wire.next (w : Wire) (accepted : List UInt8) (delivered : Nat) : Wire :=
  { w with
    code := fun n => w.code (n + 1)
    input := fun n => w.input (n + delivered)
    taken := w.taken ++ accepted }

/-- The code that a call on `len` bytes returns. -/
def Wire.ret (w : Wire) (len : Nat) : Int := min (w.code 0) len

/-- `sl_Send`, `sl_SendTo` and `mbedtls_ssl_write`: a count of bytes, or a negative code. -/
def write (slice : List UInt8) : WireM Int := fun w =>
  (.ok (w.ret slice.length), w.next (slice.take (w.ret slice.length).toNat) 0)

/-- `sl_Recv`, `sl_RecvFrom` and `mbedtls_ssl_read` into a buffer of `len` bytes. -/
def read (len : Nat) : WireM (Int × List UInt8) := fun w =>
  (.ok (w.ret len, (List.range (w.ret len).toNat).map w.input), w.next [] (w.ret len).toNat)

/-! ## `SimpleLinkConnection` -/

def SL_EAGAIN : Int := -11
def EAGAIN : Int := -11

/-- `send_tcp` and `send_udp`. -/
def SimpleLinkConnection.send_c (data : List UInt8) : WireM Int := do
  let len ← write data
  pure (if len = SL_EAGAIN then EAGAIN else len)

/-- `recieve_tcp` and `recieve_udp`. -/
def SimpleLinkConnection.recieve_c (len : Nat) : WireM (Int × List UInt8) := do
  let (ret, data) ← read len
  pure (if ret = SL_EAGAIN then EAGAIN else ret, data)

/-- `SimpleLinkConnection.send`: the count of one call. -/
def SimpleLinkConnection.send (data : List UInt8) : WireM Nat := do
  let ret ← send_c data
  if ret ≤ 0 then Prog.throw .send_error else pure ret.toNat

/-- `SimpleLinkConnection.recieve`. -/
def SimpleLinkConnection.recieve (len : Nat) : WireM (List UInt8) := do
  let (ret, data) ← recieve_c len
  if ret ≤ 0 then Prog.throw .recieve_error
  else if ret.toNat > len then Prog.throw .buffer_owerflow
  else pure data

/-! ## `TlsContext` -/

def MBEDTLS_ERR_SSL_CLIENT_RECONNECT : Int := -0x6780

/-- The loop of `send_tls`, from `offset` and `ret`. -/
def TlsContext.tlsRound (buffer : List UInt8) (v : Nat × Int) :
    WireM ((Nat × Int) ⊕ (Nat × Int)) :=
  if v.1 < buffer.length then do
    let num_bytes ← write (buffer.drop v.1)
    if Pending num_bytes then pure (.inl v)
    else if num_bytes ≥ 0 then pure (.inl (v.1 + num_bytes.toNat, 0))
    else pure (.inr (v.1, num_bytes))
  else pure (.inr v)

/-- `TlsContext.send_tls`. -/
def TlsContext.send_tls (fuel : Nat) (buffer : List UInt8) : WireM Nat := do
  let (offset, ret) ← Prog.loop (tlsRound buffer) fuel (0, -1)
  if ret = 0 then pure offset else Prog.throw .send_error

/-- The loop of `send_dtls`. -/
def TlsContext.dtlsRound (buffer : List UInt8) (v : Nat × Int) :
    WireM ((Nat × Int) ⊕ (Nat × Int)) :=
  if v.1 ≠ buffer.length then do
    let num_bytes ← write (buffer.drop v.1)
    if Pending num_bytes then pure (.inl v)
    else if num_bytes < 0 then pure (.inr (v.1, -1))
    else pure (.inl (v.1 + num_bytes.toNat, v.2))
  else pure (.inr v)

/-- `TlsContext.send_dtls`. -/
def TlsContext.send_dtls (fuel : Nat) (buffer : List UInt8) : WireM Nat := do
  let (ret, cid_enabled) := (← Prog.get).peer_cid
  let ret := if cid_enabled then 0 else ret
  let (offset, ret) ←
    if ret = 0 then Prog.loop (dtlsRound buffer) fuel (0, ret) else pure (0, ret)
  if ret = 0 then pure offset else Prog.throw .send_error

/-- The return codes at which `mbedtls_ssl_read` is called again. -/
def Retry (numBytes : Int) : Prop :=
  Pending numBytes ∨ numBytes = MBEDTLS_ERR_SSL_CLIENT_RECONNECT

instance (numBytes : Int) : Decidable (Retry numBytes) := inferInstanceAs (Decidable (_ ∨ _))

/-- The loop of `read_tls` and `read_dtls`, from the last return code and its bytes. -/
def TlsContext.readRound (len : Nat) (v : Int × List UInt8) :
    WireM ((Int × List UInt8) ⊕ (Int × List UInt8)) :=
  if Retry v.1 then do
    let v ← read len
    pure (.inl v)
  else pure (.inr v)

/-- The body of `read_tls` and `read_dtls`. -/
def TlsContext.readBody (fuel len : Nat) : WireM (List UInt8) := do
  let (numBytes, data) ← Prog.loop (readRound len) fuel (MBEDTLS_ERR_SSL_WANT_READ, [])
  if numBytes < 0 then Prog.throw .recieve_error else pure data

/-- `TlsContext.read_tls`. -/
def TlsContext.read_tls (fuel len : Nat) : WireM (List UInt8) := readBody fuel len

/-- `TlsContext.read_dtls`. -/
def TlsContext.read_dtls (fuel len : Nat) : WireM (List UInt8) := readBody fuel len

/-- `TlsContext.send`. -/
def TlsContext.send (fuel : Nat) (T : TlsContext) (buffer : List UInt8) : WireM Nat :=
  if T.conn.isTls then send_tls fuel buffer else send_dtls fuel buffer

/-- `TlsContext.recieve`. -/
def TlsContext.recieve (fuel : Nat) (T : TlsContext) (len : Nat) : WireM (List UInt8) :=
  if T.conn.isTls then read_tls fuel len else read_dtls fuel len

/-! ## `Connection` -/

/-- The types that `Connection` is instantiated with. -/
inductive sslType where
  | SimpleLinkConnection (proto : proto)
  | TlsContext (T : TlsContext)
  deriving DecidableEq, Repr

/-- `Connection.send`. -/
def Connection.send (fuel : Nat) (ssl : sslType) (buffer : List UInt8) : WireM Nat :=
  match ssl with
  | .SimpleLinkConnection _ => SimpleLinkConnection.send buffer
  | .TlsContext T => TlsContext.send fuel T buffer

/-- `Connection.recieve` into a buffer of `len` bytes. -/
def Connection.recieve (fuel : Nat) (ssl : sslType) (len : Nat) : WireM (List UInt8) :=
  match ssl with
  | .SimpleLinkConnection _ => SimpleLinkConnection.recieve len
  | .TlsContext T => TlsContext.recieve fuel T len

/-! ## Sending -/

section Calls

variable {w : Wire} {buffer slice : List UInt8} {len : Nat}

theorem wp_write (Q : Exit Error Int → Wire → Prop) :
    wp (write slice) Q w ↔
      Q (.ok (w.ret slice.length)) (w.next (slice.take (w.ret slice.length).toNat) 0) := Iff.rfl

theorem ret_le (w : Wire) (len : Nat) : (w.ret len).toNat ≤ len := by
  unfold Wire.ret
  omega

theorem pending_toNat {n : Int} (h : Pending n) : n.toNat = 0 := by
  have := h.neg
  omega

/-- The driver has accepted the buffer up to `offset`. -/
def AcceptedTo (w₀ : Wire) (buffer : List UInt8) (offset : Nat) (w : Wire) : Prop :=
  w.taken = w₀.taken ++ buffer.take offset

theorem AcceptedTo.write {w₀ : Wire} {offset : Nat} (h : AcceptedTo w₀ buffer offset w)
    (delivered : Nat) :
    AcceptedTo w₀ buffer (offset + (w.ret (buffer.drop offset).length).toNat)
      (w.next ((buffer.drop offset).take (w.ret (buffer.drop offset).length).toNat) delivered) := by
  unfold AcceptedTo at *
  rw [List.take_add, ← List.append_assoc, ← h]
  rfl

/-- A loop that writes the rest of the buffer, round after round. -/
theorem wp_sendLoop {round : Nat × Int → WireM ((Nat × Int) ⊕ (Nat × Int))} {w₀ : Wire}
    (hround : ∀ v w, AcceptedTo w₀ buffer v.1 w → wp (round v) (Ends (fun _ => True) (fun r w' =>
      Sum.elim (fun v' => AcceptedTo w₀ buffer v'.1 w')
        (fun v' => v'.2 = 0 → w'.taken = w₀.taken ++ buffer) r) (fun _ _ => True) True) w)
    (fuel : Nat) (ret : Int) :
    wp (Prog.loop round fuel (0, ret) >>= fun v =>
      if v.2 = 0 then pure v.1 else Prog.throw .send_error)
      (Ends (fun _ => True) (fun _ w' => w'.taken = w₀.taken ++ buffer) (fun _ _ => True) True)
      w₀ := by
  apply wp_bind_ends (K := fun v w' => v.2 = 0 → w'.taken = w₀.taken ++ buffer)
  · apply wp_loop (fun v w => AcceptedTo w₀ buffer v.1 w) hround (fun _ _ _ => trivial)
    simp [AcceptedTo]
  · intro v w' _ hv
    split
    · rename_i hret
      exact ⟨trivial, hv hret⟩
    · exact ⟨trivial, trivial⟩

theorem tlsRound_spec {w₀ : Wire} (v : Nat × Int) (w : Wire)
    (h : AcceptedTo w₀ buffer v.1 w) :
    wp (TlsContext.tlsRound buffer v) (Ends (fun _ => True) (fun r w' =>
      Sum.elim (fun v' => AcceptedTo w₀ buffer v'.1 w')
        (fun v' => v'.2 = 0 → w'.taken = w₀.taken ++ buffer) r) (fun _ _ => True) True) w := by
  unfold TlsContext.tlsRound
  by_cases hlt : v.1 < buffer.length
  · rw [if_pos hlt, wp_bind, wp_write, thenPost_ok]
    have hnext := h.write 0
    generalize w.ret (buffer.drop v.1).length = num_bytes at hnext ⊢
    by_cases hpending : Pending num_bytes
    · rw [if_pos hpending]
      rw [pending_toNat hpending] at hnext ⊢
      exact ⟨trivial, hnext⟩
    · rw [if_neg hpending]
      by_cases hpos : num_bytes ≥ 0
      · rw [if_pos hpos]
        exact ⟨trivial, hnext⟩
      · rw [if_neg hpos]
        refine ⟨trivial, ?_⟩
        intro hzero
        simp only at hzero
        omega
  · rw [if_neg hlt]
    refine ⟨trivial, ?_⟩
    intro _
    unfold AcceptedTo at h
    rw [List.take_of_length_le (by omega)] at h
    exact h

theorem dtlsRound_spec {w₀ : Wire} (v : Nat × Int) (w : Wire)
    (h : AcceptedTo w₀ buffer v.1 w) :
    wp (TlsContext.dtlsRound buffer v) (Ends (fun _ => True) (fun r w' =>
      Sum.elim (fun v' => AcceptedTo w₀ buffer v'.1 w')
        (fun v' => v'.2 = 0 → w'.taken = w₀.taken ++ buffer) r) (fun _ _ => True) True) w := by
  unfold TlsContext.dtlsRound
  by_cases hne : v.1 ≠ buffer.length
  · rw [if_pos hne, wp_bind, wp_write, thenPost_ok]
    have hnext := h.write 0
    generalize w.ret (buffer.drop v.1).length = num_bytes at hnext ⊢
    by_cases hpending : Pending num_bytes
    · rw [if_pos hpending]
      rw [pending_toNat hpending] at hnext ⊢
      exact ⟨trivial, hnext⟩
    · rw [if_neg hpending]
      by_cases hneg : num_bytes < 0
      · rw [if_pos hneg]
        exact ⟨trivial, nofun⟩
      · rw [if_neg hneg]
        exact ⟨trivial, hnext⟩
  · rw [if_neg hne]
    refine ⟨trivial, ?_⟩
    intro _
    unfold AcceptedTo at h
    rw [List.take_of_length_le (by omega)] at h
    exact h

/-- **A successful send over TLS or DTLS has handed over the whole buffer**, in order. -/
theorem TlsContext.send_all (fuel : Nat) (T : TlsContext) (buffer : List UInt8) (w : Wire) :
    wp (TlsContext.send fuel T buffer) (Ends (fun _ => True)
      (fun _ w' => w'.taken = w.taken ++ buffer) (fun _ _ => True) True) w := by
  unfold TlsContext.send
  split
  · exact wp_sendLoop tlsRound_spec fuel (-1)
  · unfold TlsContext.send_dtls
    rw [wp_bind, wp_get, thenPost_ok]
    simp only
    generalize (if w.peer_cid.2 = true then (0 : Int) else w.peer_cid.1) = ret
    by_cases hret : ret = 0
    · rw [if_pos hret]
      exact wp_sendLoop dtlsRound_spec fuel ret
    · rw [if_neg hret, wp_bind, wp_pure, thenPost_ok]
      simp only
      rw [if_neg hret]
      exact ⟨trivial, trivial⟩

/-- The loop and the one that only counts, on the same return codes: they leave with the same
    `ret`, or both run out of fuel. -/
theorem tlsLoop_agree (fuel : Nat) (v v' : Nat × Int) {w : Wire} {l : Link}
    (hoffset : v.1 = min v'.1 buffer.length) (hret : v.2 = v'.2)
    (hcode : ∀ n, w.code n = l.code .mbedtls_ssl_write n) :
    (∃ offset offset' ret w' l',
      Prog.loop (TlsContext.tlsRound buffer) fuel v w = (.ok (offset, ret), w') ∧
      Prog.loop (sendBody buffer.length) fuel v' l = (.ok (offset', ret), l')) ∨
    (∃ w' l', Prog.loop (TlsContext.tlsRound buffer) fuel v w = (.halt, w') ∧
      Prog.loop (sendBody buffer.length) fuel v' l = (.halt, l')) := by
  induction fuel generalizing v v' w l with
  | zero => exact .inr ⟨w, l, rfl, rfl⟩
  | succ fuel ih =>
    by_cases hlt : v'.1 < buffer.length
    · have hcall := sendBody_call (l := l) hlt
      have hround : TlsContext.tlsRound buffer v w =
          (.ok (if Pending (w.ret (buffer.drop v.1).length) then .inl v
            else if w.ret (buffer.drop v.1).length ≥ 0 then
              .inl (v.1 + (w.ret (buffer.drop v.1).length).toNat, 0)
            else .inr (v.1, w.ret (buffer.drop v.1).length)),
            w.next ((buffer.drop v.1).take (w.ret (buffer.drop v.1).length).toNat) 0) := by
        unfold TlsContext.tlsRound
        rw [if_pos (by omega)]
        refine (Prog.bind_ok _ rfl).trans ?_
        split
        · rfl
        · split <;> rfl
      have hmin : w.ret (buffer.drop v.1).length = min (l.code .mbedtls_ssl_write 0)
          (buffer.length - v.1 : Nat) := by
        unfold Wire.ret
        rw [hcode, List.length_drop]
      have hnext (accepted : List UInt8) (delivered n : Nat) :
          (w.next accepted delivered).code n = (l.advance .mbedtls_ssl_write).code .mbedtls_ssl_write n := by
        rw [Link.advance_code_self]
        exact hcode (n + 1)
      generalize w.ret (buffer.drop v.1).length = num_bytes at hround hmin
      generalize l.code .mbedtls_ssl_write 0 = code at hcall hmin
      by_cases hneg : code < 0
      · have heq : num_bytes = code := by omega
        subst heq
        by_cases hpending : Pending num_bytes
        · rw [if_pos hpending] at hcall hround
          rw [Prog.loop_inl fuel hround, Prog.loop_inl fuel hcall]
          exact ih v v' hoffset hret (hnext _ _)
        · rw [if_neg hpending, if_neg (by omega)] at hcall hround
          exact .inl ⟨_, _, _, _, _, Prog.loop_inr fuel hround, Prog.loop_inr fuel hcall⟩
      · have hpos : ¬ Pending num_bytes := fun h => by have := Pending.neg h; omega
        have hpos' : ¬ Pending code := fun h => by have := Pending.neg h; omega
        rw [if_neg hpos, if_pos (by omega)] at hround
        rw [if_neg hpos', if_pos (by omega)] at hcall
        rw [Prog.loop_inl fuel hround, Prog.loop_inl fuel hcall]
        exact ih _ _ (by simp only; omega) rfl (hnext _ _)
    · have hdone : TlsContext.tlsRound buffer v w = (.ok (.inr v), w) := by
        unfold TlsContext.tlsRound
        rw [if_neg (by omega)]
        rfl
      have hdone' := sendBody_done (l := l) (Nat.not_lt.mp hlt)
      refine .inl ⟨v.1, v'.1, v.2, w, l, Prog.loop_inr fuel hdone, ?_⟩
      rw [hret]
      exact Prog.loop_inr fuel hdone'

/-- **`send_tls` on the bytes refines `send_tls` on their number**: on the same return codes they
    end in the same way. -/
theorem TlsContext.send_tls_refines (fuel : Nat) (w : Wire) (l : Link)
    (hcode : ∀ n, w.code n = l.code .mbedtls_ssl_write n) :
    (TlsContext.send_tls fuel buffer w).1.as () =
      (Net.TlsContext.send_tls fuel buffer.length l).1.as () := by
  rw [send_tls_eq]
  unfold TlsContext.send_tls
  obtain ⟨offset, offset', ret, w', l', hrun, hrun'⟩ | ⟨w', l', hrun, hrun'⟩ :=
    tlsLoop_agree fuel (0, -1) (0, mbedtls_nok) (Nat.zero_min buffer.length).symm rfl hcode
  · rw [Prog.bind_ok _ hrun, Prog.bind_ok _ hrun']
    simp only
    split <;> rfl
  · rw [Prog.bind_halt _ hrun, Prog.bind_halt _ hrun']

/-- Without TLS it has handed over what one call accepts. -/
theorem SimpleLinkConnection.send_run (data : List UInt8) (w : Wire) :
    SimpleLinkConnection.send data w =
      (if w.ret data.length ≤ 0 then .err .send_error else .ok (w.ret data.length).toNat,
        w.next (data.take (w.ret data.length).toNat) 0) := by
  have hcode : (if w.ret data.length = SL_EAGAIN then EAGAIN else w.ret data.length) =
      w.ret data.length := by
    split
    · rename_i h
      exact h.symm
    · rfl
  have hrun : SimpleLinkConnection.send_c data w = (.ok (w.ret data.length),
      w.next (data.take (w.ret data.length).toNat) 0) := by
    have := Prog.bind_ok (m := write data) (s := w)
      (fun len => (pure (if len = SL_EAGAIN then EAGAIN else len) : WireM Int)) rfl
    rw [hcode] at this
    exact this
  unfold SimpleLinkConnection.send
  rw [Prog.bind_ok _ hrun]
  split <;> rfl

/-! ## Receiving -/

theorem SimpleLinkConnection.recieve_run (len : Nat) (w : Wire) :
    SimpleLinkConnection.recieve len w =
      (if w.ret len ≤ 0 then .err .recieve_error
        else .ok ((List.range (w.ret len).toNat).map w.input), w.next [] (w.ret len).toNat) := by
  have hcode : (if w.ret len = SL_EAGAIN then EAGAIN else w.ret len) = w.ret len := by
    split
    · rename_i h
      exact h.symm
    · rfl
  have hrun : SimpleLinkConnection.recieve_c len w =
      (.ok (w.ret len, (List.range (w.ret len).toNat).map w.input),
        w.next [] (w.ret len).toNat) := by
    have := Prog.bind_ok (m := read len) (s := w) (fun v =>
      (pure (if v.1 = SL_EAGAIN then EAGAIN else v.1, v.2) : WireM (Int × List UInt8))) rfl
    rw [hcode] at this
    exact this
  unfold SimpleLinkConnection.recieve
  rw [Prog.bind_ok _ hrun]
  simp only
  split
  · rfl
  · rw [if_neg (Nat.not_lt.mpr (ret_le w len))]
    rfl

/-- The bytes that one call delivers. -/
def Wire.bytes (w : Wire) (len : Nat) : List UInt8 := (List.range (w.ret len).toNat).map w.input

theorem readRound_again {v : Int × List UInt8} (h : Retry v.1) :
    TlsContext.readRound len v w =
      (.ok (.inl (w.ret len, w.bytes len)), w.next [] (w.ret len).toNat) := by
  unfold TlsContext.readRound
  rw [if_pos h]
  exact Prog.bind_ok _ rfl

theorem readRound_done {v : Int × List UInt8} (h : ¬ Retry v.1) :
    TlsContext.readRound len v w = (.ok (.inr v), w) := by
  unfold TlsContext.readRound
  rw [if_neg h]
  rfl

theorem Retry.neg {n : Int} (h : Retry n) : n < 0 := by
  rcases h with h | rfl
  · exact Pending.neg h
  · decide

/-- A negative code is returned as it is. -/
theorem retry_ret : Retry (w.ret len) ↔ Retry (w.code 0) := by
  have hret : w.code 0 < 0 ∨ w.ret len < 0 → w.ret len = w.code 0 := by
    unfold Wire.ret
    omega
  constructor
  · intro h
    rw [hret (.inr (Retry.neg h))] at h
    exact h
  · intro h
    rw [hret (.inl (Retry.neg h))]
    exact h

/-- The first code at which `mbedtls_ssl_read` is not called again is the `n`-th. -/
def Settles (w : Wire) (n : Nat) : Prop := (∀ m < n, Retry (w.code m)) ∧ ¬ Retry (w.code n)

theorem settles_next {n : Nat} (accepted : List UInt8) (delivered : Nat) :
    Settles w (n + 1) ↔ Retry (w.code 0) ∧ Settles (w.next accepted delivered) n := by
  constructor
  · intro h
    exact ⟨h.1 0 (Nat.succ_pos n), fun m hm => h.1 (m + 1) (Nat.succ_lt_succ hm), h.2⟩
  · intro h
    refine ⟨?_, h.2.2⟩
    intro m hm
    cases m with
    | zero => exact h.1
    | succ m => exact h.2.1 m (Nat.lt_of_succ_lt_succ hm)

/-- What the read loop leaves with: the first code that settles, and its bytes. -/
theorem readLoop_settles {fuel : Nat} {v v' : Int × List UInt8} {w' : Wire} (hv : Retry v.1)
    (h : Prog.loop (TlsContext.readRound len) fuel v w = (.ok v', w')) :
    v'.2.length = v'.1.toNat ∧ ∃ n, Settles w n ∧ v'.1 = min (w.code n) len := by
  induction fuel generalizing v w with
  | zero => cases h
  | succ fuel ih =>
    rw [Prog.loop_inl fuel (readRound_again hv)] at h
    by_cases hagain : Retry (w.ret len)
    · obtain ⟨hlen, n, hsettles, hret⟩ := ih hagain h
      exact ⟨hlen, n + 1, (settles_next _ _).mpr ⟨retry_ret.mp hagain, hsettles⟩, hret⟩
    · cases fuel with
      | zero => cases h
      | succ fuel =>
        rw [Prog.loop_inr fuel (readRound_done hagain)] at h
        cases h
        refine ⟨by simp [Wire.bytes], 0, ⟨nofun, fun hretry => ?_⟩, rfl⟩
        exact hagain (retry_ret.mpr hretry)

/-- The loop reaches the first code that settles. -/
theorem readLoop_of_settles (len : Nat) {n : Nat} (v : Int × List UInt8) (hv : Retry v.1)
    (h : Settles w n) :
    ∃ v' w', Prog.loop (TlsContext.readRound len) (n + 2) v w = (.ok v', w') ∧
      v'.1 = min (w.code n) len := by
  induction n generalizing v w with
  | zero =>
    rw [Prog.loop_inl 1 (readRound_again hv)]
    have hdone : ¬ Retry (w.ret len) := fun hretry => h.2 (retry_ret.mp hretry)
    exact ⟨_, _, Prog.loop_inr 0 (readRound_done hdone), rfl⟩
  | succ n ih =>
    rw [Prog.loop_inl (n + 2) (readRound_again hv)]
    have hnext := (settles_next [] (w.ret len).toNat).mp h
    exact ih _ (retry_ret.mpr hnext.1) hnext.2

end Calls

/-! ## The contract -/

/-- Whenever a send returns, the driver has accepted exactly the buffer, once and in order. -/
def SendsAll (ssl : sslType) (buffer : List UInt8) (w : Wire) : Prop :=
  ∀ fuel n w', Connection.send fuel ssl buffer w = (.ok n, w') → w'.taken = w.taken ++ buffer

/-- Whenever a receive returns, it has at least one byte. -/
def RecievesSome (ssl : sslType) (len : Nat) (w : Wire) : Prop :=
  ∀ fuel data w', Connection.recieve fuel ssl len w = (.ok data, w') → data ≠ []

/-- Without TLS, the call accepts a part of the buffer only. -/
def Partial (ssl : sslType) (len : Nat) (w : Wire) : Prop :=
  match ssl with
  | .SimpleLinkConnection _ => 0 < w.code 0 ∧ w.code 0 < len
  | .TlsContext _ => False

/-- Over TLS, the first code that is not a retry is 0: the end of the stream. -/
def EndOfStream (ssl : sslType) (w : Wire) : Prop :=
  match ssl with
  | .SimpleLinkConnection _ => False
  | .TlsContext _ => ∃ n, (∀ m < n, Retry (w.code m)) ∧ w.code n = 0

theorem sendsAll_iff (ssl : sslType) (buffer : List UInt8) (w : Wire) :
    SendsAll ssl buffer w ↔ ¬ Partial ssl buffer.length w := by
  cases ssl with
  | SimpleLinkConnection p =>
    unfold SendsAll Partial Connection.send
    simp only [SimpleLinkConnection.send_run]
    constructor
    · intro h hpartial
      have hret : w.ret buffer.length = w.code 0 := by
        unfold Wire.ret
        omega
      rw [hret, if_neg (by omega)] at h
      have htaken := h 0 _ _ rfl
      simp only [Wire.next, List.append_cancel_left_eq] at htaken
      have hlen := congrArg List.length htaken
      rw [List.length_take] at hlen
      omega
    · intro hfull fuel n w' hrun
      split at hrun
      · cases hrun
      · cases hrun
        have hret : (w.ret buffer.length).toNat = buffer.length := by
          unfold Wire.ret at *
          omega
        simp only [Wire.next, hret, List.take_length]
  | TlsContext T =>
    refine ⟨fun _ => nofun, ?_⟩
    intro _ fuel n w' hrun
    exact (wp_of_run (TlsContext.send_all fuel T buffer w) hrun).2

theorem readBody_empty {fuel len : Nat} {w w' : Wire} (hlen : 0 < len)
    (h : TlsContext.readBody fuel len w = (.ok [], w')) :
    ∃ n, (∀ m < n, Retry (w.code m)) ∧ w.code n = 0 := by
  unfold TlsContext.readBody at h
  cases hloop : Prog.loop (TlsContext.readRound len) fuel (MBEDTLS_ERR_SSL_WANT_READ, []) w with
  | mk x w₁ =>
  cases x with
  | ok v =>
    rw [Prog.bind_ok _ hloop] at h
    simp only at h
    split at h
    · cases h
    · rename_i hpos
      obtain ⟨hdata, n, hsettles, hret⟩ := readLoop_settles (.inl (.inl rfl)) hloop
      have hempty : v.2 = [] := by
        have hexit : (.ok v.2 : Exit Error (List UInt8)) = .ok [] := congrArg Prod.fst h
        exact Exit.ok.inj hexit
      rw [hempty, List.length_nil] at hdata
      exact ⟨n, hsettles.1, by omega⟩
  | err e =>
    rw [Prog.bind_err _ hloop] at h
    cases h
  | trap =>
    rw [Prog.bind_trap _ hloop] at h
    cases h
  | halt =>
    rw [Prog.bind_halt _ hloop] at h
    cases h

theorem readBody_end (len : Nat) {n : Nat} {w : Wire} (hretry : ∀ m < n, Retry (w.code m))
    (hzero : w.code n = 0) : ∃ w', TlsContext.readBody (n + 2) len w = (.ok [], w') := by
  have hsettles : Settles w n := by
    refine ⟨hretry, ?_⟩
    rw [hzero]
    exact fun h => absurd (Retry.neg h) (by decide)
  obtain ⟨v, w', hloop, hret⟩ :=
    readLoop_of_settles len (MBEDTLS_ERR_SSL_WANT_READ, []) (.inl (.inl rfl)) hsettles
  have hdata := (readLoop_settles (.inl (.inl rfl)) hloop).1
  have hzero : v.1 = 0 := by omega
  have hempty : v.2 = [] := by
    rw [hzero] at hdata
    exact List.length_eq_zero_iff.mp hdata
  refine ⟨w', ?_⟩
  unfold TlsContext.readBody
  rw [Prog.bind_ok _ hloop]
  simp only
  rw [if_neg (by omega), hempty]
  rfl

theorem recievesSome_iff (ssl : sslType) (len : Nat) (w : Wire) (hlen : 0 < len) :
    RecievesSome ssl len w ↔ ¬ EndOfStream ssl w := by
  cases ssl with
  | SimpleLinkConnection p =>
    refine ⟨fun _ => nofun, ?_⟩
    intro _ fuel data w' hrun hempty
    unfold Connection.recieve at hrun
    simp only [SimpleLinkConnection.recieve_run] at hrun
    split at hrun
    · cases hrun
    · cases hrun
      have hcount := congrArg List.length hempty
      simp only [List.length_map, List.length_range, List.length_nil] at hcount
      omega
  | TlsContext T =>
    have hrecieve (fuel : Nat) :
        Connection.recieve fuel (.TlsContext T) len = TlsContext.readBody fuel len := by
      unfold Connection.recieve TlsContext.recieve TlsContext.read_tls TlsContext.read_dtls
      exact ite_self _
    unfold RecievesSome EndOfStream
    simp only [hrecieve]
    constructor
    · intro h hend
      obtain ⟨n, hretry, hzero⟩ := hend
      obtain ⟨w', hrun⟩ := readBody_end len hretry hzero
      exact h (n + 2) [] w' hrun rfl
    · intro hend fuel data w' hrun hempty
      subst hempty
      exact hend (readBody_empty hlen hrun)

/-- **When the two transports honour the contract**: for every buffer, every length that is not
    zero and every sequence of return codes. -/
theorem contract_iff (ssl : sslType) (buffer : List UInt8) (len : Nat) (w : Wire)
    (hlen : 0 < len) :
    (SendsAll ssl buffer w ∧ RecievesSome ssl len w) ↔
      (¬ Partial ssl buffer.length w ∧ ¬ EndOfStream ssl w) := by
  rw [sendsAll_iff, recievesSome_iff ssl len w hlen]

/-- A driver whose calls all return `code`. -/
def Wire.constant (code : Int) : Wire := ⟨fun _ => code, fun _ => 0, (0, false), []⟩

theorem contract_iff_constant :
    (SendsAll (.SimpleLinkConnection .tcp_ip4) [1, 2] (.constant 2) ∧
        RecievesSome (.SimpleLinkConnection .tcp_ip4) 1 (.constant 2)) ↔
      (¬ Partial (.SimpleLinkConnection .tcp_ip4) 2 (.constant 2) ∧
        ¬ EndOfStream (.SimpleLinkConnection .tcp_ip4) (.constant 2)) :=
  contract_iff (.SimpleLinkConnection .tcp_ip4) [1, 2] 1 (.constant 2) (by decide)

/-- A short count without TLS is a success, and so is the end of the stream over TLS. -/
theorem contract_broken :
    ¬ SendsAll (.SimpleLinkConnection .tcp_ip4) [1, 2] (.constant 1) ∧
      ¬ RecievesSome (.TlsContext ⟨.tls_ip4, .psk⟩) 1 (.constant 0) := by
  constructor
  · intro h
    have htaken := h 0 1 _ rfl
    revert htaken
    decide
  · intro h
    exact h 2 [] _ rfl rfl

end Miso.Net.Transport

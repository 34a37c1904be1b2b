import Miso.Net.Tls

/-!
# Writes over TLS

* `Written` — the return codes of `mbedtls_ssl_write` with which a buffer is written;
* `send_tls_written`, `send_tls_of_written` — `send_tls` returns, with fuel enough, exactly if the
  buffer is written.
-/

namespace Miso.Net

open Zig

/-- The return codes at which `mbedtls_ssl_write` is called again. -/
def Pending (num_bytes : Int) : Prop :=
  num_bytes = MBEDTLS_ERR_SSL_WANT_READ ∨ num_bytes = MBEDTLS_ERR_SSL_WANT_WRITE ∨
    num_bytes = MBEDTLS_ERR_SSL_ASYNC_IN_PROGRESS ∨ num_bytes = MBEDTLS_ERR_SSL_CRYPTO_IN_PROGRESS

instance (num_bytes : Int) : Decidable (Pending num_bytes) := inferInstanceAs (Decidable (_ ∨ _))

/-- **`len` bytes are written** with the return codes between the two states. -/
inductive Written : Nat → Link → Link → Prop where
  /-- The rest is taken. -/
  | last (len : Nat) (l : Link) : 0 < len → 0 ≤ l.code .mbedtls_ssl_write 0 →
    len ≤ (l.code .mbedtls_ssl_write 0).toNat → Written len l (l.advance .mbedtls_ssl_write)
  /-- A part is taken. -/
  | part (len : Nat) (l l' : Link) : 0 ≤ l.code .mbedtls_ssl_write 0 →
    (l.code .mbedtls_ssl_write 0).toNat < len →
    Written (len - (l.code .mbedtls_ssl_write 0).toNat) (l.advance .mbedtls_ssl_write) l' →
    Written len l l'
  /-- The call has to be made again. -/
  | again (len : Nat) (l l' : Link) : 0 < len → Pending (l.code .mbedtls_ssl_write 0) →
    Written len (l.advance .mbedtls_ssl_write) l' → Written len l l'

theorem Pending.neg {n : Int} (h : Pending n) : n < 0 := by
  rcases h with rfl | rfl | rfl | rfl <;> decide

/-- The body of the loop of `send_tls`. -/
def sendBody (len : Nat) (v : Nat × Int) : NetM ((Nat × Int) ⊕ (Nat × Int)) :=
  if v.1 < len then do
    let num_bytes ← call .mbedtls_ssl_write
    if Pending num_bytes then pure (.inl v)
    else if 0 ≤ num_bytes then pure (.inl (v.1 + num_bytes.toNat, 0))
    else pure (.inr (v.1, num_bytes))
  else pure (.inr v)

theorem send_tls_eq (fuel len : Nat) : TlsContext.send_tls fuel len =
    Prog.loop (sendBody len) fuel (0, mbedtls_nok) >>= fun r =>
      if r.2 = 0 then pure r.1 else Prog.throw .send_error := rfl

section Body

variable {len : Nat} {v : Nat × Int} {l : Link}

theorem sendBody_done (h : len ≤ v.1) : sendBody len v l = (.ok (.inr v), l) := by
  unfold sendBody
  rw [if_neg (Nat.not_lt.mpr h)]
  rfl

/-- One call of `mbedtls_ssl_write`. -/
theorem sendBody_call (h : v.1 < len) : sendBody len v l =
    (.ok (if Pending (l.code .mbedtls_ssl_write 0) then .inl v
      else if 0 ≤ l.code .mbedtls_ssl_write 0 then
        .inl (v.1 + (l.code .mbedtls_ssl_write 0).toNat, 0)
      else .inr (v.1, l.code .mbedtls_ssl_write 0)), l.advance .mbedtls_ssl_write) := by
  unfold sendBody
  rw [if_pos h]
  refine (Prog.bind_ok _ rfl).trans ?_
  split
  · rfl
  · split <;> rfl

end Body

/-- The loop has written all, if it ends without an error. -/
theorem written_of_loop {len fuel : Nat} {v : Nat × Int} {l l' : Link} {k : Nat}
    (h : Prog.loop (sendBody len) fuel v l = (.ok (k, 0), l')) :
    v.1 < len ∧ Written (len - v.1) l l' ∨ len ≤ v.1 ∧ v.2 = 0 ∧ l' = l := by
  induction fuel generalizing v l with
  | zero => cases h
  | succ n ih =>
    by_cases hlt : v.1 < len
    · have hbody := sendBody_call (l := l) hlt
      refine .inl ⟨hlt, ?_⟩
      by_cases hpending : Pending (l.code .mbedtls_ssl_write 0)
      · rw [if_pos hpending] at hbody
        rw [Prog.loop_inl n hbody] at h
        rcases ih h with ⟨-, hwritten⟩ | ⟨hle, -⟩
        · exact .again _ l l' (by omega) hpending hwritten
        · omega
      · rw [if_neg hpending] at hbody
        by_cases hpos : 0 ≤ l.code .mbedtls_ssl_write 0
        · rw [if_pos hpos] at hbody
          rw [Prog.loop_inl n hbody] at h
          rcases ih h with ⟨hlt', hwritten⟩ | ⟨hle, -, rfl⟩
          · apply Written.part _ l l' hpos (by omega)
            rw [Nat.sub_sub]
            exact hwritten
          · exact .last _ l (by omega) hpos (by omega)
        · rw [if_neg hpos] at hbody
          rw [Prog.loop_inr n hbody] at h
          simp only [Prod.mk.injEq, Exit.ok.injEq] at h
          omega
    · rw [Prog.loop_inr n (sendBody_done (Nat.not_lt.mp hlt))] at h
      cases h
      exact .inr ⟨Nat.not_lt.mp hlt, rfl, rfl⟩

theorem loop_of_written {len : Nat} {l l' : Link} (h : Written len l l') (offset : Nat) (ret : Int) :
    ∃ n k, ∀ fuel, n ≤ fuel →
      Prog.loop (sendBody (offset + len)) fuel (offset, ret) l = (.ok (k, 0), l') := by
  induction h generalizing offset ret with
  | last len l hlen hpos hle =>
    have hbody := sendBody_call (v := (offset, ret)) (l := l) (Nat.lt_add_of_pos_right hlen)
    rw [if_neg (fun hpending => absurd hpending.neg (Int.not_lt.mpr hpos)), if_pos hpos] at hbody
    refine ⟨2, offset + (l.code .mbedtls_ssl_write 0).toNat, ?_⟩
    intro fuel hfuel
    obtain ⟨n, rfl⟩ := Nat.exists_eq_add_of_le' hfuel
    rw [Prog.loop_inl (n + 1) hbody]
    exact Prog.loop_inr n (sendBody_done (Nat.add_le_add_left hle offset))
  | part len l l' hpos hlt _ ih =>
    have hbody := sendBody_call (v := (offset, ret)) (l := l) (show offset < offset + len by omega)
    rw [if_neg (fun hpending => absurd hpending.neg (Int.not_lt.mpr hpos)), if_pos hpos] at hbody
    obtain ⟨n, k, hn⟩ := ih (offset + (l.code .mbedtls_ssl_write 0).toNat) 0
    refine ⟨n + 1, k, ?_⟩
    intro fuel hfuel
    obtain ⟨m, rfl⟩ := Nat.exists_eq_add_of_le' hfuel
    have hlen : offset + (l.code .mbedtls_ssl_write 0).toNat +
        (len - (l.code .mbedtls_ssl_write 0).toNat) = offset + len := by omega
    rw [hlen] at hn
    rw [← Nat.add_assoc, Prog.loop_inl (m + n) hbody]
    exact hn (m + n) (Nat.le_add_left n m)
  | again len l l' hlen hpending _ ih =>
    have hbody := sendBody_call (v := (offset, ret)) (l := l) (Nat.lt_add_of_pos_right hlen)
    rw [if_pos hpending] at hbody
    obtain ⟨n, k, hn⟩ := ih offset ret
    refine ⟨n + 1, k, ?_⟩
    intro fuel hfuel
    obtain ⟨m, rfl⟩ := Nat.exists_eq_add_of_le' hfuel
    rw [← Nat.add_assoc, Prog.loop_inl (m + n) hbody]
    exact hn (m + n) (Nat.le_add_left n m)

/-- What `send_tls` has sent has been written. -/
theorem send_tls_written {fuel len k : Nat} {l l' : Link}
    (h : TlsContext.send_tls fuel len l = (.ok k, l')) : Written len l l' := by
  rw [send_tls_eq] at h
  cases hloop : Prog.loop (sendBody len) fuel (0, mbedtls_nok) l with
  | mk x l₁ =>
  cases x with
  | ok r =>
    obtain ⟨offset, ret⟩ := r
    rw [Prog.bind_ok _ hloop] at h
    by_cases hret : ret = 0
    · subst hret
      cases h
      rcases written_of_loop hloop with ⟨-, hwritten⟩ | ⟨-, hret, -⟩
      · exact hwritten
      · cases hret
    · rw [if_neg hret] at h
      cases h
  | err err =>
    rw [Prog.bind_err _ hloop] at h
    cases h
  | trap =>
    rw [Prog.bind_trap _ hloop] at h
    cases h
  | halt =>
    rw [Prog.bind_halt _ hloop] at h
    cases h

/-- A buffer that can be written is sent. -/
theorem send_tls_of_written {len : Nat} {l l' : Link} (h : Written len l l') :
    ∃ n, ∀ fuel, n ≤ fuel → ∃ k, TlsContext.send_tls fuel len l = (.ok k, l') := by
  obtain ⟨n, k, hn⟩ := loop_of_written h 0 mbedtls_nok
  rw [Nat.zero_add] at hn
  refine ⟨n, ?_⟩
  intro fuel hfuel
  refine ⟨k, ?_⟩
  rw [send_tls_eq]
  exact Prog.bind_ok _ (hn fuel hfuel)

end Miso.Net

import Miso.Zig.Prog

/-!
# Executions that are cut off (library)

A loop whose fuel is exhausted ends in a `halt`.  Two questions about programs with fuel:

* `Unfolds R m m'` — more fuel goes on where less has stopped: `m'` does what `m` does, unless `m`
  is cut off, and then it goes on with `R`;
* `HaltsAfter I μ c m` — an execution that is cut off has cost at least `c` units of `μ`
  (`HaltsAfter.loop`: in a loop that costs something, or comes nearer to its end, every round).
-/

namespace Zig

variable {σ τ ε α β : Type}

/-! ## More fuel -/

/-- `m'` does what `m` does, unless `m` is cut off; then it goes on with `R`. -/
def Unfolds (R : σ → σ → Prop) (m m' : Prog σ ε α) : Prop :=
  ∀ s, m' s = m s ∨ (m s).1 = .halt ∧ R (m s).2 (m' s).2

namespace Unfolds

variable {R : σ → σ → Prop} {m m' : Prog σ ε α}

theorem refl (m : Prog σ ε α) : Unfolds R m m := fun _ => .inl rfl

theorem bind (hR : Frame R) {f f' : α → Prog σ ε β} (hm : Unfolds R m m')
    (hf : ∀ a, Unfolds R (f a) (f' a)) (hkeeps : ∀ a, Keeps R (f' a)) :
    Unfolds R (m >>= f) (m' >>= f') := by
  intro s
  rcases hm s with heq | ⟨hhalt, hext⟩
  · cases hrun : m s with
    | mk x s₁ =>
      rw [hrun] at heq
      cases x with
      | ok a =>
        rw [Prog.bind_ok f hrun, Prog.bind_ok f' heq]
        exact hf a s₁
      | err e => exact .inl (by rw [Prog.bind_err f hrun, Prog.bind_err f' heq])
      | trap => exact .inl (by rw [Prog.bind_trap f hrun, Prog.bind_trap f' heq])
      | halt => exact .inl (by rw [Prog.bind_halt f hrun, Prog.bind_halt f' heq])
  · have hrun : m s = (.halt, (m s).2) := Prod.ext hhalt rfl
    rw [Prog.bind_halt f hrun]
    refine .inr ⟨rfl, ?_⟩
    cases hrun' : m' s with
    | mk x s₁ =>
      rw [hrun'] at hext
      cases x with
      | ok a =>
        rw [Prog.bind_ok f' hrun']
        exact hR.trans hext (hkeeps a s₁)
      | err e =>
        rw [Prog.bind_err f' hrun']
        exact hext
      | trap =>
        rw [Prog.bind_trap f' hrun']
        exact hext
      | halt =>
        rw [Prog.bind_halt f' hrun']
        exact hext

/-- More fuel behind a program without fuel. -/
theorem behind (m : Prog σ ε α) {f f' : α → Prog σ ε β} (hf : ∀ a, Unfolds R (f a) (f' a)) :
    Unfolds R (m >>= f) (m >>= f') := by
  intro s
  cases hrun : m s with
  | mk x s₁ =>
    cases x with
    | ok a =>
      rw [Prog.bind_ok f hrun, Prog.bind_ok f' hrun]
      exact hf a s₁
    | err e => exact .inl (by rw [Prog.bind_err f hrun, Prog.bind_err f' hrun])
    | trap => exact .inl (by rw [Prog.bind_trap f hrun, Prog.bind_trap f' hrun])
    | halt => exact .inl (by rw [Prog.bind_halt f hrun, Prog.bind_halt f' hrun])

theorem ite (c : Prop) [Decidable c] {n n' : Prog σ ε α} (hm : Unfolds R m m')
    (hn : Unfolds R n n') : Unfolds R (if c then m else n) (if c then m' else n') := by
  split
  · exact hm
  · exact hn

theorem attempt (hm : Unfolds R m m') : Unfolds R m.attempt m'.attempt := by
  intro s
  rcases hm s with heq | ⟨hhalt, hext⟩
  · left
    unfold Prog.attempt
    rw [heq]
  · have hrun : m s = (.halt, (m s).2) := Prod.ext hhalt rfl
    rw [Prog.attempt_halt hrun]
    refine .inr ⟨rfl, ?_⟩
    have hstate : (m'.attempt s).2 = (m' s).2 := by
      unfold Prog.attempt
      rcases m' s with ⟨x, s₁⟩
      cases x <;> rfl
    rw [hstate]
    exact hext

theorem mapErr {ε' : Type} (f : ε → ε') (hm : Unfolds R m m') :
    Unfolds R (m.mapErr f) (m'.mapErr f) := by
  intro s
  rcases hm s with heq | ⟨hhalt, hext⟩
  · left
    unfold Prog.mapErr
    rw [heq]
  · right
    have hrun : m s = (.halt, (m s).2) := Prod.ext hhalt rfl
    have hmap : m.mapErr f s = (.halt, (m s).2) := by
      unfold Prog.mapErr
      rw [hrun]
    have hstate : (m'.mapErr f s).2 = (m' s).2 := by
      unfold Prog.mapErr
      rcases m' s with ⟨x, s₁⟩
      cases x <;> rfl
    rw [hmap, hstate]
    exact ⟨rfl, hext⟩

theorem zoom {get : τ → σ} {set : σ → τ → τ} {S : τ → τ → Prop} (hm : Unfolds R m m')
    (hS : ∀ s s' t, R s s' → S (set s t) (set s' t)) :
    Unfolds S (m.zoom get set) (m'.zoom get set) := by
  intro t
  rcases hm (get t) with heq | ⟨hhalt, hext⟩
  · left
    unfold Prog.zoom
    rw [heq]
  · exact .inr ⟨hhalt, hS _ _ t hext⟩

theorem deferring (hR : Frame R) {d : Prog σ ε Unit} (hd : Keeps R d) (hm : Unfolds R m m') :
    Unfolds R (Prog.deferring d m) (Prog.deferring d m') := by
  unfold Prog.deferring
  apply hm.attempt.bind hR fun _ => .refl _
  intro r
  apply (hd.orIgnore hR).bind hR
  intro _
  cases r with
  | ok a => exact .ret hR a
  | error e => exact .throw hR e

theorem errdeferring (hR : Frame R) {d : Prog σ ε Unit} (hd : Keeps R d) (hm : Unfolds R m m') :
    Unfolds R (Prog.errdeferring d m) (Prog.errdeferring d m') := by
  unfold Prog.errdeferring
  apply hm.attempt.bind hR fun _ => .refl _
  intro r
  cases r with
  | ok a => exact .ret hR a
  | error e => exact (hd.orIgnore hR).bind hR fun _ => .throw hR e

/-- A loop with more fuel. -/
theorem loop (hR : Frame R) {body body' : β → Prog σ ε (β ⊕ α)}
    (hbody : ∀ b, Unfolds R (body b) (body' b)) (hkeeps : ∀ b, Keeps R (body' b)) {n n' : Nat}
    (h : n ≤ n') (b : β) : Unfolds R (Prog.loop body n b) (Prog.loop body' n' b) := by
  induction n generalizing n' b with
  | zero => exact fun s => .inr ⟨rfl, Keeps.loop hR hkeeps n' b s⟩
  | succ n ih =>
    obtain ⟨k, rfl⟩ : ∃ k, n' = k + 1 := ⟨n' - 1, by omega⟩
    unfold Prog.loop
    apply (hbody b).bind hR
    · intro r
      cases r with
      | inl b' => exact ih (Nat.le_of_succ_le_succ h) b'
      | inr a => exact .refl _
    · intro r
      cases r with
      | inl b' => exact Keeps.loop hR hkeeps k b'
      | inr a => exact .ret hR a

/-- An execution that ends does the same with more fuel. -/
theorem eq_of_ends (hm : Unfolds R m m') {s : σ} (h : (m s).1 ≠ .halt) : m' s = m s := by
  rcases hm s with heq | ⟨hhalt, -⟩
  · exact heq
  · exact absurd hhalt h

end Unfolds

/-! ## What a cut costs -/

/-- `I` is kept, `μ` does not decrease, and an execution that is cut off has cost `c`. -/
def HaltsAfter (I : σ → Prop) (μ : σ → Nat) (c : Nat) (m : Prog σ ε α) : Prop :=
  ∀ s, I s → I (m s).2 ∧ μ s ≤ μ (m s).2 ∧ ((m s).1 = .halt → c + μ s ≤ μ (m s).2)

namespace HaltsAfter

variable {I : σ → Prop} {μ : σ → Nat} {c : Nat} {m : Prog σ ε α}

theorem mono {c' : Nat} (h : HaltsAfter I μ c m) (hc : c' ≤ c) : HaltsAfter I μ c' m := by
  intro s hs
  obtain ⟨hI, hμ, hhalt⟩ := h s hs
  refine ⟨hI, hμ, fun hx => ?_⟩
  have hcost := hhalt hx
  omega

/-- A program that leaves `I` and `μ` alone, and is not cut off. -/
theorem of_keeps (h : ∀ s, ((m s).1 ≠ .halt) ∧ (I s → I (m s).2) ∧ μ s ≤ μ (m s).2) :
    HaltsAfter I μ c m := by
  intro s hs
  obtain ⟨hno, hI, hμ⟩ := h s
  exact ⟨hI hs, hμ, fun hx => absurd hx hno⟩

theorem pure (a : α) : HaltsAfter I μ c (Pure.pure a : Prog σ ε α) :=
  .of_keeps fun _ => ⟨nofun, id, Nat.le_refl _⟩

theorem ret (a : α) : HaltsAfter I μ c (Prog.ret a : Prog σ ε α) :=
  .of_keeps fun _ => ⟨nofun, id, Nat.le_refl _⟩

theorem throw (e : ε) : HaltsAfter I μ c (Prog.throw e : Prog σ ε α) :=
  .of_keeps fun _ => ⟨nofun, id, Nat.le_refl _⟩

theorem trap : HaltsAfter I μ c (Prog.trap : Prog σ ε α) :=
  .of_keeps fun _ => ⟨nofun, id, Nat.le_refl _⟩

theorem bind {f : α → Prog σ ε β} (hm : HaltsAfter I μ c m) (hf : ∀ a, HaltsAfter I μ c (f a)) :
    HaltsAfter I μ c (m >>= f) := by
  intro s hs
  obtain ⟨hI, hμ, hhalt⟩ := hm s hs
  cases hrun : m s with
  | mk x s₁ =>
    rw [hrun] at hI hμ hhalt
    cases x with
    | ok a =>
      rw [Prog.bind_ok f hrun]
      obtain ⟨hI', hμ', hhalt'⟩ := hf a s₁ hI
      refine ⟨hI', Nat.le_trans hμ hμ', fun hx => ?_⟩
      have hcost := hhalt' hx
      simp only at hμ
      omega
    | err e =>
      rw [Prog.bind_err f hrun]
      exact ⟨hI, hμ, nofun⟩
    | trap =>
      rw [Prog.bind_trap f hrun]
      exact ⟨hI, hμ, nofun⟩
    | halt =>
      rw [Prog.bind_halt f hrun]
      exact ⟨hI, hμ, fun _ => hhalt rfl⟩

theorem ite (p : Prop) [Decidable p] {m' : Prog σ ε α} (hm : HaltsAfter I μ c m)
    (hm' : HaltsAfter I μ c m') : HaltsAfter I μ c (if p then m else m') := by
  split
  · exact hm
  · exact hm'

theorem attempt (hm : HaltsAfter I μ c m) : HaltsAfter I μ c m.attempt := by
  intro s hs
  have hspec := hm s hs
  unfold Prog.attempt
  rcases hrun : m s with ⟨x, s₁⟩
  rw [hrun] at hspec
  cases x with
  | halt => exact ⟨hspec.1, hspec.2.1, fun _ => hspec.2.2 rfl⟩
  | _ => exact ⟨hspec.1, hspec.2.1, nofun⟩

theorem orIgnore {m : Prog σ ε Unit} (hm : HaltsAfter I μ c m) : HaltsAfter I μ c m.orIgnore := by
  intro s hs
  have hspec := hm s hs
  unfold Prog.orIgnore Prog.tryCatch
  rcases hrun : m s with ⟨x, s₁⟩
  rw [hrun] at hspec
  cases x with
  | halt => exact ⟨hspec.1, hspec.2.1, fun _ => hspec.2.2 rfl⟩
  | _ => exact ⟨hspec.1, hspec.2.1, nofun⟩

theorem deferring {d : Prog σ ε Unit} (hd : HaltsAfter I μ c d) (hm : HaltsAfter I μ c m) :
    HaltsAfter I μ c (Prog.deferring d m) := by
  unfold Prog.deferring
  apply hm.attempt.bind
  intro r
  apply hd.orIgnore.bind
  intro _
  cases r with
  | ok a => exact .ret a
  | error e => exact .throw e

theorem errdeferring {d : Prog σ ε Unit} (hd : HaltsAfter I μ c d) (hm : HaltsAfter I μ c m) :
    HaltsAfter I μ c (Prog.errdeferring d m) := by
  unfold Prog.errdeferring
  apply hm.attempt.bind
  intro r
  cases r with
  | ok a => exact .ret a
  | error e => exact hd.orIgnore.bind fun _ => .throw e

theorem ofExit {x : Exit ε α} (hx : x ≠ .halt) :
    HaltsAfter I μ c (Prog.ofExit x : Prog σ ε α) :=
  .of_keeps fun _ => ⟨hx, id, Nat.le_refl _⟩

theorem bind_ofExit {x : Exit ε α} {f : α → Prog σ ε β} (hx : x ≠ .halt)
    (hf : ∀ a, x = .ok a → HaltsAfter I μ c (f a)) :
    HaltsAfter I μ c (Prog.ofExit x >>= f) := by
  cases x with
  | ok a => exact hf a rfl
  | err e => exact .throw e
  | trap => exact .trap
  | halt => exact absurd rfl hx

/-- A round of a loop: it costs something, or comes nearer to the end. -/
def Round (I : σ → Prop) (J : β → σ → Prop) (μ : σ → Nat) (rank : β → σ → Nat) (c : Nat) (b : β)
    (s : σ) (x : Exit ε (β ⊕ α)) (s' : σ) : Prop :=
  (I s' ∧ μ s ≤ μ s' ∧ (x = .halt → c + μ s ≤ μ s')) ∧
    ∀ b', x = .ok (.inl b') → J b' s' ∧ (μ s < μ s' ∨ rank b' s' < rank b s)

/-- **What it costs to exhaust the fuel of a loop**: every `K` rounds cost something. -/
theorem loop {body : β → Prog σ ε (β ⊕ α)} {J : β → σ → Prop} {rank : β → σ → Nat} {K : Nat}
    (hbody : ∀ b s, I s → J b s → wp (body b) (Round I J μ rank c b s) s)
    (hrank : ∀ b s, J b s → rank b s < K) (n : Nat) (b : β) (s : σ) (hs : I s) (hJ : J b s) :
    wp (Prog.loop body n b) (fun x s' => I s' ∧ μ s ≤ μ s' ∧
      (x = .halt → min c (n / K) + μ s ≤ μ s')) s := by
  have hsteps : ∀ (n : Nat) (b : β) (s : σ), I s → J b s →
      wp (Prog.loop body n b) (fun x s' => I s' ∧ μ s ≤ μ s' ∧
        (x = .halt → c + μ s ≤ μ s' ∨ n ≤ (μ s' - μ s) * K + rank b s)) s := by
    intro n
    induction n with
    | zero => exact fun b s hs _ => ⟨hs, Nat.le_refl _, fun _ => .inr (Nat.zero_le _)⟩
    | succ n ih =>
      intro b s hs hJ
      unfold Prog.loop
      rw [wp_bind]
      apply wp_mono (hbody b s hs hJ)
      intro x s₁ hx
      obtain ⟨⟨hI, hμ, hhalt⟩, hround⟩ := hx
      cases x with
      | ok r =>
        cases r with
        | inl b' =>
          obtain ⟨hJ', hnear⟩ := hround b' rfl
          rw [thenPost_ok]
          apply wp_mono (ih b' s₁ hI hJ')
          intro y s' hy
          obtain ⟨hI', hμ', hhalt'⟩ := hy
          refine ⟨hI', Nat.le_trans hμ hμ', fun hcut => ?_⟩
          rcases hhalt' hcut with hcost | hcount
          · exact .inl (by omega)
          · right
            rcases hnear with hpaid | hnear
            · have hlt := hrank b' s₁ hJ'
              have hmul : (μ s' - μ s₁ + 1) * K ≤ (μ s' - μ s) * K :=
                Nat.mul_le_mul_right K (by omega)
              rw [Nat.add_mul] at hmul
              omega
            · have hmul : (μ s' - μ s₁) * K ≤ (μ s' - μ s) * K :=
                Nat.mul_le_mul_right K (by omega)
              omega
        | inr a => exact ⟨hI, hμ, fun h => by cases h⟩
      | err e => exact ⟨hI, hμ, fun h => by cases h⟩
      | trap => exact ⟨hI, hμ, fun h => by cases h⟩
      | halt => exact ⟨hI, hμ, fun _ => .inl (hhalt rfl)⟩
  apply wp_mono (hsteps n b s hs hJ)
  intro x s' hx
  obtain ⟨hI, hμ, hhalt⟩ := hx
  refine ⟨hI, hμ, fun hcut => ?_⟩
  rcases hhalt hcut with hcost | hcount
  · have hmin := Nat.min_le_left c (n / K)
    omega
  · have hlt := hrank b s hJ
    have hdiv : n / K < μ s' - μ s + 1 := by
      rw [Nat.div_lt_iff_lt_mul (by omega), Nat.add_mul]
      omega
    have hmin := Nat.min_le_right c (n / K)
    omega

end HaltsAfter

end Zig

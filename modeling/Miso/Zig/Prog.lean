import Mathlib.Logic.Relation

/-!
# Zig programs as state transformers (library)

A function of a Zig program that calls into its environment is a `Prog σ ε α`: it takes the
state `σ` and ends in one of four ways (`Exit`):

* `ok a` — it returns `a`;
* `err e` — it returns the error `e` of the error set `ε`;
* `trap` — it reaches `unreachable`, unwraps a null optional or slices out of range;
* `halt` — it is cut off: the power is lost, the processor is reset or the observation stops.

The combinators are Zig's: `try` is `bind`, `catch` is `tryCatch`, `catch unreachable` is
`orUnreachable`, `if (m) |v| … else |e| …` is `attempt`, and `deferring` / `errdeferring` run
their action on the exits on which Zig runs a `defer` / `errdefer` (never on `trap` or `halt`).
A `while` loop is `loop` with explicit fuel; exhausted fuel is a `halt`.

These statements are made about programs:

* `wp m Q s` — the exit and final state of `m` from `s` satisfy `Q` (`wp_bind`, `wp_mono`,
  …); most postconditions have the shape `Ends P K E T`, which is sequenced by `wp_bind_ends`
  and carried through loops by `wp_loop` and `wp_loop_total`, or `Returns K`;
* `Keeps R m` — the final state of `m` is related to the initial one by `R` on every exit
  (`Keeps.bind`, `Keeps.loop`), the frame rule of the development;
* `Raises E m` — `m` returns no errors but those in `E`.
-/

namespace Zig

/-- How the execution of a function ends. -/
inductive Exit (ε α : Type) where
  | ok (a : α)
  | err (e : ε)
  | trap
  | halt
  deriving DecidableEq, Repr

/-- The exit with another value. -/
def Exit.as {ε α β : Type} (b : β) : Exit ε α → Exit ε β
  | .ok _ => .ok b
  | .err e => .err e
  | .trap => .trap
  | .halt => .halt

/-- The execution ends with an error. -/
def Exit.failed {ε α : Type} : Exit ε α → Bool
  | .err _ => true
  | _ => false

/-- The execution ends with a value. -/
def Exit.returned {ε α : Type} : Exit ε α → Bool
  | .ok _ => true
  | _ => false

instance Exit.decidableForallOk {ε α : Type} (P : α → Prop) [DecidablePred P] (x : Exit ε α) :
    Decidable (∀ a, x = .ok a → P a) :=
  match x with
  | .ok a => decidable_of_iff (P a) (by simp)
  | .err _ | .trap | .halt => isTrue nofun

/-- Sequencing of calls that have no state. -/
def Exit.bind {ε α β : Type} (x : Exit ε α) (f : α → Exit ε β) : Exit ε β :=
  match x with
  | .ok a => f a
  | .err e => .err e
  | .trap => .trap
  | .halt => .halt

instance {ε : Type} : Monad (Exit ε) where
  pure := .ok
  bind := Exit.bind

section ExitBind

variable {ε α β : Type} {x : Exit ε α} {f : α → Exit ε β}

@[simp] theorem Exit.ok_bind (a : α) : ((.ok a : Exit ε α) >>= f) = f a := rfl
@[simp] theorem Exit.err_bind (e : ε) : ((.err e : Exit ε α) >>= f) = .err e := rfl
@[simp] theorem Exit.trap_bind : ((.trap : Exit ε α) >>= f) = .trap := rfl
@[simp] theorem Exit.halt_bind : ((.halt : Exit ε α) >>= f) = .halt := rfl
@[simp] theorem Exit.pure_eq (a : α) : (pure a : Exit ε α) = .ok a := rfl

theorem Exit.bind_trap_iff : (x >>= f) = .trap ↔ x = .trap ∨ ∃ a, x = .ok a ∧ f a = .trap := by
  cases x <;> simp

theorem Exit.bind_ne_halt (hx : x ≠ .halt) (hf : ∀ a, f a ≠ .halt) : (x >>= f) ≠ .halt := by
  cases x with
  | ok a => exact hf a
  | err e => exact nofun
  | trap => exact nofun
  | halt => exact absurd rfl hx

end ExitBind

/-- A program over the state `σ` with error set `ε`. -/
def Prog (σ ε α : Type) : Type := σ → Exit ε α × σ

variable {σ τ ε α β γ : Type}

namespace Prog

/-- Return a value. -/
def ret (a : α) : Prog σ ε α := fun s => (.ok a, s)

/-- Sequencing; every exit other than `ok` skips the continuation, as `try` does. -/
def seq (m : Prog σ ε α) (f : α → Prog σ ε β) : Prog σ ε β := fun s =>
  match m s with
  | (.ok a, s') => f a s'
  | (.err e, s') => (.err e, s')
  | (.trap, s') => (.trap, s')
  | (.halt, s') => (.halt, s')

instance : Monad (Prog σ ε) where
  pure := ret
  bind := seq

/-- `return error.e`. -/
def throw (e : ε) : Prog σ ε α := fun s => (.err e, s)

/-- `unreachable`. -/
def trap : Prog σ ε α := fun s => (.trap, s)

/-- The execution is cut off in the state `f s`. -/
def halt (f : σ → σ) : Prog σ ε α := fun s => (.halt, f s)

def get : Prog σ ε σ := fun s => (.ok s, s)

def modify (f : σ → σ) : Prog σ ε Unit := fun s => (.ok (), f s)

/-- `m catch |e| h e`. -/
def tryCatch (m : Prog σ ε α) (h : ε → Prog σ ε α) : Prog σ ε α := fun s =>
  match m s with
  | (.err e, s') => h e s'
  | (x, s') => (x, s')

/-- `m catch unreachable`. -/
def orUnreachable (m : Prog σ ε α) : Prog σ ε α := m.tryCatch fun _ => trap

/-- `m catch {}`. -/
def orIgnore (m : Prog σ ε Unit) : Prog σ ε Unit := m.tryCatch fun _ => ret ()

/-- `if (m) |v| … else |e| …`: the error union as a value. -/
def attempt (m : Prog σ ε α) : Prog σ ε (Except ε α) := fun s =>
  match m s with
  | (.ok a, s') => (.ok (.ok a), s')
  | (.err e, s') => (.ok (.error e), s')
  | (.trap, s') => (.trap, s')
  | (.halt, s') => (.halt, s')

/-- `defer d; m`: `d` runs when `m` returns, with a value or with an error. -/
def deferring (d : Prog σ ε Unit) (m : Prog σ ε α) : Prog σ ε α := do
  let r ← m.attempt
  d.orIgnore
  match r with
  | .ok a => ret a
  | .error e => throw e

/-- `errdefer d; m`: `d` runs when `m` returns an error. -/
def errdeferring (d : Prog σ ε Unit) (m : Prog σ ε α) : Prog σ ε α := do
  match ← m.attempt with
  | .ok a => ret a
  | .error e => do
    d.orIgnore
    throw e

/-- A `while` loop with explicit fuel: `inl` goes round again, `inr` leaves the loop. -/
def loop (body : β → Prog σ ε (β ⊕ α)) : Nat → β → Prog σ ε α
  | 0, _ => halt id
  | n + 1, b => do
    match ← body b with
    | .inl b' => loop body n b'
    | .inr a => ret a

/-- A program on a component of the state. -/
def zoom (get : τ → σ) (set : σ → τ → τ) (m : Prog σ ε α) : Prog τ ε α := fun t =>
  ((m (get t)).1, set (m (get t)).2 t)

/-- A call that has no state. -/
def ofExit (x : Exit ε α) : Prog σ ε α := fun s => (x, s)

/-- The errors of a smaller error set. -/
def mapErr {ε' : Type} (f : ε → ε') (m : Prog σ ε α) : Prog σ ε' α := fun s =>
  match m s with
  | (.ok a, s') => (.ok a, s')
  | (.err e, s') => (.err (f e), s')
  | (.trap, s') => (.trap, s')
  | (.halt, s') => (.halt, s')

/-! ### Runs of the combinators -/

section Runs

variable {m : Prog σ ε α} {s s' : σ}

theorem run_of_exit {x : Exit ε α} (h : (m s).1 = x) : m s = (x, (m s).2) := Prod.ext h rfl

theorem bind_ok {a : α} (f : α → Prog σ ε β) (h : m s = (.ok a, s')) : (m >>= f) s = f a s' := by
  show seq m f s = _
  simp only [seq, h]

theorem bind_err {e : ε} (f : α → Prog σ ε β) (h : m s = (.err e, s')) :
    (m >>= f) s = (.err e, s') := by
  show seq m f s = _
  simp only [seq, h]

theorem bind_trap (f : α → Prog σ ε β) (h : m s = (.trap, s')) : (m >>= f) s = (.trap, s') := by
  show seq m f s = _
  simp only [seq, h]

theorem bind_halt (f : α → Prog σ ε β) (h : m s = (.halt, s')) : (m >>= f) s = (.halt, s') := by
  show seq m f s = _
  simp only [seq, h]

theorem bind_assoc (m : Prog σ ε α) (f : α → Prog σ ε β) (g : β → Prog σ ε γ) :
    m >>= f >>= g = m >>= fun a => f a >>= g := by
  funext s
  show seq (seq m f) g s = seq m (fun a => seq (f a) g) s
  unfold seq
  rcases m s with ⟨x, s'⟩
  cases x <;> rfl

theorem attempt_ok {a : α} (h : m s = (.ok a, s')) : m.attempt s = (.ok (.ok a), s') := by
  simp only [attempt, h]

theorem attempt_err {e : ε} (h : m s = (.err e, s')) : m.attempt s = (.ok (.error e), s') := by
  simp only [attempt, h]

theorem attempt_trap (h : m s = (.trap, s')) : m.attempt s = (.trap, s') := by
  simp only [attempt, h]

theorem attempt_halt (h : m s = (.halt, s')) : m.attempt s = (.halt, s') := by
  simp only [attempt, h]

theorem attempt_state (m : Prog σ ε α) (s : σ) : (m.attempt s).2 = (m s).2 := by
  unfold attempt
  rcases m s with ⟨x, s'⟩
  cases x <;> rfl

theorem orUnreachable_ok {a : α} (h : m s = (.ok a, s')) : m.orUnreachable s = (.ok a, s') := by
  simp only [orUnreachable, tryCatch, h]

theorem orUnreachable_err {e : ε} (h : m s = (.err e, s')) : m.orUnreachable s = (.trap, s') := by
  simp only [orUnreachable, tryCatch, h, trap]

theorem orUnreachable_halt (h : m s = (.halt, s')) : m.orUnreachable s = (.halt, s') := by
  simp only [orUnreachable, tryCatch, h]

theorem orUnreachable_trap (h : m s = (.trap, s')) : m.orUnreachable s = (.trap, s') := by
  simp only [orUnreachable, tryCatch, h]

theorem mapErr_ok {ε' : Type} (f : ε → ε') {a : α} (h : m s = (.ok a, s')) :
    m.mapErr f s = (.ok a, s') := by
  simp only [mapErr, h]

theorem mapErr_err {ε' : Type} (f : ε → ε') {e : ε} (h : m s = (.err e, s')) :
    m.mapErr f s = (.err (f e), s') := by
  simp only [mapErr, h]

theorem mapErr_trap {ε' : Type} (f : ε → ε') (h : m s = (.trap, s')) :
    m.mapErr f s = (.trap, s') := by
  simp only [mapErr, h]

theorem mapErr_halt {ε' : Type} (f : ε → ε') (h : m s = (.halt, s')) :
    m.mapErr f s = (.halt, s') := by
  simp only [mapErr, h]

theorem mapErr_state {ε' : Type} (f : ε → ε') (m : Prog σ ε α) (s : σ) :
    (m.mapErr f s).2 = (m s).2 := by
  unfold mapErr
  rcases m s with ⟨x, s'⟩
  cases x <;> rfl

/-- A `defer` in front of a sequence runs behind its second half. -/
theorem deferring_bind_ok {d : Prog σ ε Unit} {a : α} (f : α → Prog σ ε β) (h : m s = (.ok a, s')) :
    deferring d (m >>= f) s = deferring d (f a) s' := by
  have hrun : (m >>= f) s = f a s' := bind_ok f h
  show seq _ _ s = seq _ _ s'
  simp only [seq, attempt, hrun]

theorem deferring_trap {d : Prog σ ε Unit} (h : m s = (.trap, s')) :
    deferring d m s = (.trap, s') := bind_trap _ (attempt_trap h)

theorem deferring_halt {d : Prog σ ε Unit} (h : m s = (.halt, s')) :
    deferring d m s = (.halt, s') := bind_halt _ (attempt_halt h)

/-- The error is passed on, however the deferred action ends with it. -/
theorem errdeferring_err {d : Prog σ ε Unit} {s'' : σ} {e : ε} (h : m s = (.err e, s'))
    (hd : d s' = (.ok (), s'') ∨ ∃ e', d s' = (.err e', s'')) :
    errdeferring d m s = (.err e, s'') := by
  have hdone : d.orIgnore s' = (.ok (), s'') := by
    unfold orIgnore tryCatch
    obtain hd | ⟨e', hd⟩ := hd
    · rw [hd]
    · rw [hd]
      rfl
  apply (bind_ok _ (attempt_err h)).trans
  exact bind_ok _ hdone

theorem errdeferring_ok (d : Prog σ ε Unit) {a : α} (h : m s = (.ok a, s')) :
    errdeferring d m s = (.ok a, s') := bind_ok _ (attempt_ok h)

theorem errdeferring_trap (d : Prog σ ε Unit) (h : m s = (.trap, s')) :
    errdeferring d m s = (.trap, s') := bind_trap _ (attempt_trap h)

theorem errdeferring_halt (d : Prog σ ε Unit) (h : m s = (.halt, s')) :
    errdeferring d m s = (.halt, s') := bind_halt _ (attempt_halt h)

section Loop

variable {body : β → Prog σ ε (β ⊕ α)} {b b' : β} (n : Nat)

theorem loop_inl (h : body b s = (.ok (.inl b'), s')) :
    loop body (n + 1) b s = loop body n b' s' := bind_ok _ h

theorem loop_inr {a : α} (h : body b s = (.ok (.inr a), s')) :
    loop body (n + 1) b s = (.ok a, s') := bind_ok _ h

theorem loop_err {e : ε} (h : body b s = (.err e, s')) : loop body (n + 1) b s = (.err e, s') :=
  bind_err _ h

theorem loop_trap (h : body b s = (.trap, s')) : loop body (n + 1) b s = (.trap, s') :=
  bind_trap _ h

end Loop

end Runs

end Prog

/-! ## Weakest preconditions -/

/-- The exit and the final state of `m` from `s` satisfy `Q`. -/
def wp (m : Prog σ ε α) (Q : Exit ε α → σ → Prop) (s : σ) : Prop := Q (m s).1 (m s).2

/-- The postcondition of the first half of a sequence. -/
def thenPost (k : α → σ → Prop) (Q : Exit ε β → σ → Prop) : Exit ε α → σ → Prop
  | .ok a, s => k a s
  | .err e, s => Q (.err e) s
  | .trap, s => Q .trap s
  | .halt, s => Q .halt s

/-- The postcondition of the body of a `catch`: an error continues with `k`. -/
def catchPost (k : ε → σ → Prop) (Q : Exit ε α → σ → Prop) : Exit ε α → σ → Prop
  | .ok a, s => Q (.ok a) s
  | .err e, s => k e s
  | .trap, s => Q .trap s
  | .halt, s => Q .halt s

/-- The postcondition of the body of an `if (m) |v| … else |e| …`. -/
def unionPost (Q : Exit ε (Except ε α) → σ → Prop) : Exit ε α → σ → Prop
  | .ok a, s => Q (.ok (.ok a)) s
  | .err e, s => Q (.ok (.error e)) s
  | .trap, s => Q .trap s
  | .halt, s => Q .halt s

section Rules

variable {m : Prog σ ε α} {Q Q' : Exit ε α → σ → Prop} {s : σ}

@[simp] theorem thenPost_ok (k : α → σ → Prop) (Q : Exit ε β → σ → Prop) (a : α) (s : σ) :
    thenPost k Q (.ok a) s = k a s := rfl

@[simp] theorem thenPost_err (k : α → σ → Prop) (Q : Exit ε β → σ → Prop) (e : ε) (s : σ) :
    thenPost k Q (.err e) s = Q (.err e) s := rfl

@[simp] theorem thenPost_trap (k : α → σ → Prop) (Q : Exit ε β → σ → Prop) (s : σ) :
    thenPost k Q .trap s = Q .trap s := rfl

@[simp] theorem thenPost_halt (k : α → σ → Prop) (Q : Exit ε β → σ → Prop) (s : σ) :
    thenPost k Q .halt s = Q .halt s := rfl

@[simp] theorem catchPost_ok (k : ε → σ → Prop) (Q : Exit ε α → σ → Prop) (a : α) (s : σ) :
    catchPost k Q (.ok a) s = Q (.ok a) s := rfl

@[simp] theorem catchPost_err (k : ε → σ → Prop) (Q : Exit ε α → σ → Prop) (e : ε) (s : σ) :
    catchPost k Q (.err e) s = k e s := rfl

@[simp] theorem catchPost_trap (k : ε → σ → Prop) (Q : Exit ε α → σ → Prop) (s : σ) :
    catchPost k Q .trap s = Q .trap s := rfl

@[simp] theorem catchPost_halt (k : ε → σ → Prop) (Q : Exit ε α → σ → Prop) (s : σ) :
    catchPost k Q .halt s = Q .halt s := rfl

@[simp] theorem unionPost_ok (Q : Exit ε (Except ε α) → σ → Prop) (a : α) (s : σ) :
    unionPost Q (.ok a) s = Q (.ok (.ok a)) s := rfl

@[simp] theorem unionPost_err (Q : Exit ε (Except ε α) → σ → Prop) (e : ε) (s : σ) :
    unionPost Q (.err e) s = Q (.ok (.error e)) s := rfl

@[simp] theorem unionPost_trap (Q : Exit ε (Except ε α) → σ → Prop) (s : σ) :
    unionPost Q (.trap : Exit ε α) s = Q .trap s := rfl

@[simp] theorem unionPost_halt (Q : Exit ε (Except ε α) → σ → Prop) (s : σ) :
    unionPost Q (.halt : Exit ε α) s = Q .halt s := rfl

theorem wp_mono (h : wp m Q s) (hQ : ∀ x s', Q x s' → Q' x s') : wp m Q' s := hQ _ _ h

theorem wp_of_run {x : Exit ε α} {s' : σ} (h : wp m Q s) (hr : m s = (x, s')) : Q x s' := by
  unfold wp at h
  rw [hr] at h
  exact h

theorem wp_of_eq {x : Exit ε α} {s' : σ} (hr : m s = (x, s')) (hQ : Q x s') : wp m Q s := by
  unfold wp
  rw [hr]
  exact hQ

theorem wp_of_same {m' : Prog σ ε α} {s' : σ} (hr : m s = m' s') (h : wp m' Q s') : wp m Q s := by
  unfold wp at *
  rw [hr]
  exact h

@[simp] theorem wp_ret (a : α) : wp (Prog.ret a) Q s ↔ Q (.ok a) s := Iff.rfl

@[simp] theorem wp_pure (a : α) : wp (pure a) Q s ↔ Q (.ok a) s := Iff.rfl

@[simp] theorem wp_throw (e : ε) : wp (Prog.throw e) Q s ↔ Q (.err e) s := Iff.rfl

@[simp] theorem wp_trap : wp Prog.trap Q s ↔ Q .trap s := Iff.rfl

@[simp] theorem wp_halt (f : σ → σ) : wp (Prog.halt f) Q s ↔ Q .halt (f s) := Iff.rfl

@[simp] theorem wp_get (Q : Exit ε σ → σ → Prop) : wp Prog.get Q s ↔ Q (.ok s) s := Iff.rfl

@[simp] theorem wp_modify (f : σ → σ) (Q : Exit ε Unit → σ → Prop) :
    wp (Prog.modify f) Q s ↔ Q (.ok ()) (f s) := Iff.rfl

@[simp] theorem wp_bind (f : α → Prog σ ε β) (Q : Exit ε β → σ → Prop) :
    wp (m >>= f) Q s ↔ wp m (thenPost (fun a => wp (f a) Q) Q) s := by
  show Q (Prog.seq m f s).1 (Prog.seq m f s).2 ↔ thenPost _ Q (m s).1 (m s).2
  unfold Prog.seq
  rcases m s with ⟨x, s'⟩
  cases x <;> exact Iff.rfl

@[simp] theorem wp_tryCatch (h : ε → Prog σ ε α) :
    wp (m.tryCatch h) Q s ↔ wp m (catchPost (fun e => wp (h e) Q) Q) s := by
  unfold wp Prog.tryCatch
  rcases m s with ⟨x, s'⟩
  cases x <;> exact Iff.rfl

@[simp] theorem wp_orUnreachable :
    wp m.orUnreachable Q s ↔ wp m (catchPost (fun _ => Q .trap) Q) s :=
  wp_tryCatch fun _ => Prog.trap

@[simp] theorem wp_orIgnore {m : Prog σ ε Unit} {Q : Exit ε Unit → σ → Prop} :
    wp m.orIgnore Q s ↔ wp m (catchPost (fun _ => Q (.ok ())) Q) s :=
  wp_tryCatch fun _ => Prog.ret ()

@[simp] theorem wp_attempt (Q : Exit ε (Except ε α) → σ → Prop) :
    wp m.attempt Q s ↔ wp m (unionPost Q) s := by
  unfold wp Prog.attempt
  rcases m s with ⟨x, s'⟩
  cases x <;> exact Iff.rfl

@[simp] theorem wp_ofExit (x : Exit ε α) : wp (Prog.ofExit x) Q s ↔ Q x s := Iff.rfl

@[simp] theorem wp_mapErr {ε' : Type} (f : ε → ε') (Q : Exit ε' α → σ → Prop) :
    wp (m.mapErr f) Q s ↔
      wp m (fun x s' => match x with
        | .ok a => Q (.ok a) s'
        | .err e => Q (.err (f e)) s'
        | .trap => Q .trap s'
        | .halt => Q .halt s') s := by
  unfold wp Prog.mapErr
  rcases m s with ⟨x, s'⟩
  cases x <;> exact Iff.rfl

@[simp] theorem wp_zoom {τ : Type} (get : τ → σ) (set : σ → τ → τ) {Q : Exit ε α → τ → Prop}
    {t : τ} : wp (m.zoom get set) Q t ↔ wp m (fun x s => Q x (set s t)) (get t) := Iff.rfl

@[simp] theorem wp_ite (c : Prop) [Decidable c] (m m' : Prog σ ε α) :
    wp (if c then m else m') Q s ↔ if c then wp m Q s else wp m' Q s := by
  split <;> rfl

end Rules

/-! ## Specifications -/

/-- The usual shape of a postcondition: `P` holds in the final state whatever the exit, `K` of
    a returned value, `E` of a returned error; a trap needs `T`. -/
def Ends (P : σ → Prop) (K : α → σ → Prop) (E : ε → σ → Prop) (T : Prop) : Exit ε α → σ → Prop
  | .ok a, s => P s ∧ K a s
  | .err e, s => P s ∧ E e s
  | .trap, s => P s ∧ T
  | .halt, s => P s

section Ends

variable {m : Prog σ ε α} {P P' : σ → Prop} {K K' : α → σ → Prop} {E E' : ε → σ → Prop}
  {T T' : Prop} {s : σ}

@[simp] theorem ends_ok (a : α) : Ends P K E T (.ok a) s = (P s ∧ K a s) := rfl
@[simp] theorem ends_err (e : ε) : Ends P K E T (.err e : Exit ε α) s = (P s ∧ E e s) := rfl
@[simp] theorem ends_trap : Ends P K E T (.trap : Exit ε α) s = (P s ∧ T) := rfl
@[simp] theorem ends_halt : Ends P K E T (.halt : Exit ε α) s = P s := rfl

theorem Ends.state {x : Exit ε α} (h : Ends P K E T x s) : P s := by
  cases x with
  | ok a => exact h.1
  | err e => exact h.1
  | trap => exact h.1
  | halt => exact h

theorem wp_ends_mono (h : wp m (Ends P K E T) s) (hP : ∀ s', P s' → P' s')
    (hK : ∀ a s', P s' → K a s' → K' a s') (hE : ∀ e s', P s' → E e s' → E' e s')
    (hT : T → T') : wp m (Ends P' K' E' T') s := by
  refine wp_mono h ?_
  intro x s' hx
  cases x with
  | ok a => exact ⟨hP _ hx.1, hK a _ hx.1 hx.2⟩
  | err e => exact ⟨hP _ hx.1, hE e _ hx.1 hx.2⟩
  | trap => exact ⟨hP _ hx.1, hT hx.2⟩
  | halt => exact hP _ hx

/-- A specification together with the run it is about. -/
theorem wp_ends_run (h : wp m (Ends P K E T) s) :
    wp m (Ends P (fun a s' => K a s' ∧ m s = (.ok a, s')) (fun e s' => E e s' ∧ m s = (.err e, s'))
      T) s := by
  unfold wp at h ⊢
  cases hm : m s with
  | mk x s' =>
    rw [hm] at h
    cases x with
    | ok a => exact ⟨h.1, h.2, rfl⟩
    | err e => exact ⟨h.1, h.2, rfl⟩
    | trap => exact h
    | halt => exact h

/-- Sequencing: only the value of the first half is passed on, every other exit is final. -/
theorem wp_bind_ends {f : α → Prog σ ε β} {K' : β → σ → Prop} (hm : wp m (Ends P K E T) s)
    (hf : ∀ a s', P s' → K a s' → wp (f a) (Ends P K' E T) s') :
    wp (m >>= f) (Ends P K' E T) s := by
  rw [wp_bind]
  refine wp_mono hm ?_
  intro x s' hx
  cases x with
  | ok a => exact hf a s' hx.1 hx.2
  | err e => exact hx
  | trap => exact hx
  | halt => exact hx

/-- `m catch unreachable`: an error is a trap. -/
theorem wp_orUnreachable_ends (hm : wp m (Ends P K E T) s) :
    wp m.orUnreachable (Ends P K (fun _ _ => False) True) s := by
  rw [wp_orUnreachable]
  refine wp_mono hm ?_
  intro x s' hx
  cases x with
  | ok a => exact hx
  | err e => exact ⟨hx.1, trivial⟩
  | trap => exact ⟨hx.1, trivial⟩
  | halt => exact hx

/-- `m catch {}`: an error is a return. -/
theorem wp_orIgnore_ends {m : Prog σ ε Unit} {K : Unit → σ → Prop} (hm : wp m (Ends P K E T) s)
    (hE : ∀ e s', P s' → E e s' → K () s') :
    wp m.orIgnore (Ends P K (fun _ _ => False) T) s := by
  rw [wp_orIgnore]
  refine wp_mono hm ?_
  intro x s' hx
  cases x with
  | ok a => exact hx
  | err e => exact ⟨hx.1, hE e s' hx.1 hx.2⟩
  | trap => exact hx
  | halt => exact hx

/-- Branching on an error union: an error is final only if its branch says so. -/
theorem wp_bind_attempt {f : Except ε α → Prog σ ε β} {K' : β → σ → Prop} {E' : ε → σ → Prop}
    (hm : wp m (Ends P K E T) s)
    (hok : ∀ a s', P s' → K a s' → wp (f (.ok a)) (Ends P K' E' T) s')
    (herr : ∀ e s', P s' → E e s' → wp (f (.error e)) (Ends P K' E' T) s') :
    wp (m.attempt >>= f) (Ends P K' E' T) s := by
  rw [wp_bind, wp_attempt]
  refine wp_mono hm ?_
  intro x s' hx
  cases x with
  | ok a => exact hok a s' hx.1 hx.2
  | err e => exact herr e s' hx.1 hx.2
  | trap => exact hx
  | halt => exact hx

/-- A state property that the action of an `errdefer` keeps. -/
theorem wp_errdeferring {d : Prog σ ε Unit} (hm : wp m (Ends P K (fun _ _ => True) T) s)
    (hd : ∀ s', P s' → wp d.orIgnore (Ends P (fun _ _ => True) (fun _ _ => True) T) s') :
    wp (Prog.errdeferring d m) (Ends P K (fun _ _ => True) T) s := by
  unfold Prog.errdeferring
  apply wp_bind_attempt hm
  · exact fun a s' hP hK => ⟨hP, hK⟩
  · exact fun e s' hP _ => wp_bind_ends (hd s' hP) fun _ s'' hP' _ => ⟨hP', trivial⟩

/-- A deferred action that ends with a value or an error, which is dropped. -/
theorem wp_deferring_returns {d : Prog σ ε Unit} {Q : Exit ε α → σ → Prop}
    (hm : wp m (fun x s' => match x with
      | .trap => Q .trap s'
      | .halt => Q .halt s'
      | x => wp d (fun y s'' => (y = .ok () ∨ ∃ e, y = .err e) ∧ Q x s'') s') s) :
    wp (Prog.deferring d m) Q s := by
  have hdefer {x : Exit ε α} {k : Prog σ ε α} {s' : σ} (hk : ∀ s'', k s'' = (x, s''))
      (hd : wp d (fun y s'' => (y = .ok () ∨ ∃ e, y = .err e) ∧ Q x s'') s') :
      wp (d.orIgnore >>= fun _ => k) Q s' := by
    rw [wp_bind, wp_orIgnore]
    apply wp_mono hd
    rintro y s'' ⟨rfl | ⟨e, rfl⟩, hQ⟩
    · exact wp_of_eq (hk s'') hQ
    · exact wp_of_eq (hk s'') hQ
  unfold Prog.deferring
  rw [wp_bind, wp_attempt]
  apply wp_mono hm
  intro x s' hx
  cases x with
  | ok a => exact hdefer (fun _ => rfl) hx
  | err e => exact hdefer (fun _ => rfl) hx
  | trap => exact hx
  | halt => exact hx

/-- The runs of a loop whose body does `R`: round after round, to its end or cut off. -/
inductive Rounds (R : β → σ → Exit ε (β ⊕ α) → σ → Prop) : β → σ → Exit ε α → σ → Prop where
  | leave {b : β} {s s' : σ} (a : α) : R b s (.ok (.inr a)) s' → Rounds R b s (.ok a) s'
  | again {b : β} {s s' : σ} (b' : β) (s₁ : σ) (x : Exit ε α) : R b s (.ok (.inl b')) s₁ →
    Rounds R b' s₁ x s' → Rounds R b s x s'
  | fail {b : β} {s s' : σ} (e : ε) : R b s (.err e) s' → Rounds R b s (.err e) s'
  | trap {b : β} {s s' : σ} : R b s .trap s' → Rounds R b s .trap s'
  | halt {b : β} {s s' : σ} : R b s .halt s' → Rounds R b s .halt s'
  | cut (b : β) (s : σ) : Rounds R b s .halt s

/-- **A loop runs through the rounds of its body.** -/
theorem wp_loop_rounds {body : β → Prog σ ε (β ⊕ α)} {R : β → σ → Exit ε (β ⊕ α) → σ → Prop}
    (h : ∀ b s, wp (body b) (R b s) s) (n : Nat) (b : β) (s : σ) :
    wp (Prog.loop body n b) (Rounds R b s) s := by
  induction n generalizing b s with
  | zero => exact .cut b s
  | succ n ih =>
    unfold Prog.loop
    rw [wp_bind]
    apply wp_mono (h b s)
    intro x s₁ hx
    cases x with
    | ok r =>
      cases r with
      | inl b' =>
        apply wp_mono (ih b' s₁)
        exact fun x s' hrounds => .again b' s₁ x hx hrounds
      | inr a => exact .leave a hx
    | err e => exact .fail e hx
    | trap => exact .trap hx
    | halt => exact .halt hx

/-- The loop rule for any postcondition. -/
theorem wp_loop_post {body : β → Prog σ ε (β ⊕ α)} {Q : Exit ε α → σ → Prop} (I : β → σ → Prop)
    (hbody : ∀ b s, I b s →
      wp (body b) (thenPost (fun r s' => Sum.elim (I · s') (fun a => Q (.ok a) s') r) Q) s)
    (hhalt : ∀ b s, I b s → Q .halt s) :
    ∀ (n : Nat) (b : β) (s : σ), I b s → wp (Prog.loop body n b) Q s
  | 0, b, s, hi => hhalt b s hi
  | n + 1, b, s, hi => by
    unfold Prog.loop
    rw [wp_bind]
    refine wp_mono (hbody b s hi) ?_
    intro x s' hx
    cases x with
    | ok r =>
      cases r with
      | inl b' => exact wp_loop_post I hbody hhalt n b' s' hx
      | inr a => exact hx
    | err e => exact hx
    | trap => exact hx
    | halt => exact hx

/-- The loop rule: an invariant of the loop variable and the state. -/
theorem wp_loop {body : β → Prog σ ε (β ⊕ α)} (I : β → σ → Prop)
    (hbody : ∀ b s, I b s →
      wp (body b) (Ends P (fun r s' => Sum.elim (I · s') (K · s') r) E T) s)
    (hhalt : ∀ b s, I b s → P s) (n : Nat) (b : β) (s : σ)
    (hi : I b s) : wp (Prog.loop body n b) (Ends P K E T) s := by
  refine wp_loop_post I (fun b s hi => wp_mono (hbody b s hi) ?_) hhalt n b s hi
  intro x s' hx
  cases x with
  | ok r =>
    obtain ⟨hP, h⟩ := hx
    cases r with
    | inl b' => exact h
    | inr a => exact ⟨hP, h⟩
  | err e => exact hx
  | trap => exact hx
  | halt => exact hx

/-- The loop rule for a loop whose fuel suffices: `μ` decreases on every round. -/
theorem wp_loop_total {body : β → Prog σ ε (β ⊕ α)} (μ : β → Nat) (I : β → σ → Prop)
    (hbody : ∀ b s, I b s → wp (body b) (Ends P (fun r s' =>
      Sum.elim (fun b' => I b' s' ∧ μ b' < μ b) (K · s') r) E T) s) :
    ∀ (n : Nat) (b : β) (s : σ), μ b < n → I b s → wp (Prog.loop body n b) (Ends P K E T) s
  | 0, _, _, hn, _ => absurd hn (Nat.not_lt_zero _)
  | n + 1, b, s, hn, hi => by
    unfold Prog.loop
    refine wp_bind_ends (hbody b s hi) ?_
    rintro (b' | a) s' hP h
    · exact wp_loop_total μ I hbody n b' s' (by have := h.2; omega) h.1
    · exact ⟨hP, h⟩

end Ends

/-! ## Runs that return -/

/-- The program returns, with a value and a state that satisfy `K`. -/
def Returns (K : α → σ → Prop) : Exit ε α → σ → Prop
  | .ok a, s => K a s
  | _, _ => False

section Returns

variable {m : Prog σ ε α} {K K' : α → σ → Prop} {s : σ}

@[simp] theorem returns_ok (a : α) : Returns K (.ok a : Exit ε α) s = K a s := rfl

theorem wp_returns_run (h : wp m (Returns K) s) : ∃ a s', m s = (.ok a, s') ∧ K a s' := by
  unfold wp at h
  cases hm : m s with
  | mk x s' =>
    rw [hm] at h
    cases x with
    | ok a => exact ⟨a, s', rfl, h⟩
    | err e => exact h.elim
    | trap => exact h.elim
    | halt => exact h.elim

theorem wp_bind_returns {f : α → Prog σ ε β} {K' : β → σ → Prop} (hm : wp m (Returns K) s)
    (hf : ∀ a s', K a s' → wp (f a) (Returns K') s') : wp (m >>= f) (Returns K') s := by
  obtain ⟨a, s', hrun, hK⟩ := wp_returns_run hm
  exact wp_of_same (Prog.bind_ok f hrun) (hf a s' hK)

/-- A deferred action that returns. -/
theorem wp_deferring_ok {d : Prog σ ε Unit} (hm : wp m (Returns K) s)
    (hd : ∀ a s', K a s' → wp d (Returns fun _ => K' a) s') :
    wp (Prog.deferring d m) (Returns K') s := by
  apply wp_deferring_returns
  apply wp_mono hm
  intro x s' hx
  cases x with
  | ok a =>
    apply wp_mono (hd a s' hx)
    intro y s'' hy
    cases y with
    | ok u => exact ⟨.inl rfl, hy⟩
    | err e => exact hy.elim
    | trap => exact hy.elim
    | halt => exact hy.elim
  | err e => exact hx.elim
  | trap => exact hx
  | halt => exact hx

/-- The loop rule for a loop that returns: every round returns, and `μ` decreases. -/
theorem wp_loop_returns {body : β → Prog σ ε (β ⊕ α)} (μ : β → Nat) (I : β → σ → Prop)
    (hbody : ∀ b s, I b s → wp (body b) (Returns fun r s' =>
      Sum.elim (fun b' => I b' s' ∧ μ b' < μ b) (K · s') r) s)
    (n : Nat) (b : β) (s : σ) (hn : μ b < n) (hi : I b s) :
    wp (Prog.loop body n b) (Returns K) s := by
  induction n generalizing b s with
  | zero => omega
  | succ n ih =>
    unfold Prog.loop
    apply wp_bind_returns (hbody b s hi)
    intro r s' h
    cases r with
    | inl b' => exact ih b' s' (by have := h.2; omega) h.1
    | inr a => exact h

end Returns

/-! ## The errors that a program may return -/

/-- Every error that `m` returns satisfies `E`. -/
def Raises (E : ε → Prop) (m : Prog σ ε α) : Prop :=
  ∀ s, wp m (fun x _ => ∀ e, x = .err e → E e) s

namespace Raises

variable {E : ε → Prop} {m : Prog σ ε α}

theorem of_ok (h : ∀ s, ∃ a, (m s).1 = .ok a) : Raises E m := by
  intro s e he
  obtain ⟨a, ha⟩ := h s
  rw [ha] at he
  cases he

theorem pure (a : α) : Raises E (Pure.pure a : Prog σ ε α) := of_ok fun _ => ⟨a, rfl⟩

theorem modify (f : σ → σ) : Raises E (Prog.modify f : Prog σ ε Unit) := of_ok fun _ => ⟨(), rfl⟩

theorem trap : Raises E (Prog.trap : Prog σ ε α) := fun _ _ he => nomatch he

theorem throw {e : ε} (h : E e) : Raises E (Prog.throw e : Prog σ ε α) := by
  intro s e' he
  cases he
  exact h

theorem bind {f : α → Prog σ ε β} (hm : Raises E m) (hf : ∀ a, Raises E (f a)) :
    Raises E (m >>= f) := by
  intro s
  rw [wp_bind]
  apply wp_mono (hm s)
  intro x s' hx
  cases x with
  | ok a => exact hf a s'
  | err e =>
    intro e' he
    cases he
    exact hx e rfl
  | trap => exact nofun
  | halt => exact nofun

theorem ite (c : Prop) [Decidable c] {m' : Prog σ ε α} (hm : Raises E m) (hm' : Raises E m') :
    Raises E (if c then m else m') := by
  split
  · exact hm
  · exact hm'

/-- The errors of the deferred action are dropped. -/
theorem errdeferring {d : Prog σ ε Unit} (hm : Raises E m) :
    Raises E (Prog.errdeferring d m) := by
  intro s
  unfold Prog.errdeferring
  rw [wp_bind, wp_attempt]
  apply wp_mono (hm s)
  intro x s' hx
  cases x with
  | ok a => exact nofun
  | err e =>
    simp only [unionPost_err, thenPost_ok, wp_bind, wp_orIgnore]
    apply @wp_mono σ ε Unit d (fun _ _ => True) _ s' trivial
    intro y s'' _
    have hend : ∀ e', (Exit.err e : Exit ε α) = .err e' → E e' := by
      intro e' he
      cases he
      exact hx e rfl
    cases y with
    | ok u => exact hend
    | err e' => exact hend
    | trap => exact nofun
    | halt => exact nofun
  | trap => exact nofun
  | halt => exact nofun

theorem loop {body : β → Prog σ ε (β ⊕ α)} (hb : ∀ b, Raises E (body b)) :
    ∀ (n : Nat) (b : β), Raises E (Prog.loop body n b)
  | 0, _ => fun _ _ he => nomatch he
  | n + 1, b => by
    unfold Prog.loop
    apply (hb b).bind
    intro r
    cases r with
    | inl b' => exact loop hb n b'
    | inr a => exact Raises.pure a

end Raises

/-! ## Frames: relations kept on every exit -/

/-- Whatever the exit, the final state is `R`-related to the initial one. -/
def Keeps (R : σ → σ → Prop) (m : Prog σ ε α) : Prop := ∀ s, R s (m s).2

/-- A frame: reflexive and transitive, so that it survives sequencing. -/
structure Frame (R : σ → σ → Prop) : Prop where
  refl : ∀ s, R s s
  trans : ∀ {s₁ s₂ s₃}, R s₁ s₂ → R s₂ s₃ → R s₁ s₃

/-- An unchanged component of the state is a frame. -/
theorem Frame.proj (f : σ → τ) : Frame fun s s' => f s' = f s :=
  ⟨fun _ => rfl, fun h₁ h₂ => h₂.trans h₁⟩

namespace Keeps

variable {R : σ → σ → Prop} {m : Prog σ ε α}

theorem wp (h : Keeps R m) (s : σ) : Zig.wp m (fun _ s' => R s s') s := h s

theorem ret (hR : Frame R) (a : α) : Keeps R (Prog.ret a : Prog σ ε α) := fun s => hR.refl s

theorem pure (hR : Frame R) (a : α) : Keeps R (Pure.pure a : Prog σ ε α) := fun s => hR.refl s

theorem throw (hR : Frame R) (e : ε) : Keeps R (Prog.throw e : Prog σ ε α) := fun s => hR.refl s

theorem trap (hR : Frame R) : Keeps R (Prog.trap : Prog σ ε α) := fun s => hR.refl s

theorem get (hR : Frame R) : Keeps R (Prog.get : Prog σ ε σ) := fun s => hR.refl s

/-- A frame is kept behind a run. -/
theorem behind (hR : Frame R) {f : α → Prog σ ε β} {s₀ s : σ} (hm : R s₀ (m s).2)
    (hf : ∀ a, Keeps R (f a)) : R s₀ ((m >>= f) s).2 := by
  show R s₀ (Prog.seq m f s).2
  unfold Prog.seq
  rcases hms : m s with ⟨x, s'⟩
  rw [hms] at hm
  cases x with
  | ok a => exact hR.trans hm (hf a s')
  | err e => exact hm
  | trap => exact hm
  | halt => exact hm

theorem bind (hR : Frame R) {f : α → Prog σ ε β} (hm : Keeps R m) (hf : ∀ a, Keeps R (f a)) :
    Keeps R (m >>= f) := fun s => behind hR (hm s) hf

theorem tryCatch (hR : Frame R) {h : ε → Prog σ ε α} (hm : Keeps R m) (hh : ∀ e, Keeps R (h e)) :
    Keeps R (m.tryCatch h) := by
  intro s
  have hs := hm s
  unfold Prog.tryCatch
  rcases hms : m s with ⟨x, s'⟩
  rw [hms] at hs
  cases x with
  | err e => exact hR.trans hs (hh e s')
  | ok a => exact hs
  | trap => exact hs
  | halt => exact hs

theorem orUnreachable (hR : Frame R) (hm : Keeps R m) : Keeps R m.orUnreachable :=
  hm.tryCatch hR fun _ => Keeps.trap hR

theorem orIgnore (hR : Frame R) {m : Prog σ ε Unit} (hm : Keeps R m) : Keeps R m.orIgnore :=
  hm.tryCatch hR fun _ => Keeps.ret hR ()

theorem attempt (hm : Keeps R m) : Keeps R m.attempt := by
  intro s
  rw [Prog.attempt_state]
  exact hm s

theorem deferring_behind (hR : Frame R) {d : Prog σ ε Unit} {s₀ s : σ} (hd : Keeps R d)
    (hm : R s₀ (m s).2) : R s₀ (Prog.deferring d m s).2 := by
  unfold Prog.deferring
  refine behind hR (by rwa [Prog.attempt_state]) fun r => (hd.orIgnore hR).bind hR fun _ => ?_
  cases r with
  | ok a => exact Keeps.ret hR a
  | error e => exact Keeps.throw hR e

theorem deferring (hR : Frame R) {d : Prog σ ε Unit} (hd : Keeps R d) (hm : Keeps R m) :
    Keeps R (Prog.deferring d m) := fun s => deferring_behind hR hd (hm s)

theorem loop (hR : Frame R) {body : β → Prog σ ε (β ⊕ α)} (hb : ∀ b, Keeps R (body b)) :
    ∀ (n : Nat) (b : β), Keeps R (Prog.loop body n b)
  | 0, _ => fun s => hR.refl s
  | n + 1, b => by
    unfold Prog.loop
    refine (hb b).bind hR fun r => ?_
    cases r with
    | inl b' => exact loop hR hb n b'
    | inr a => exact Keeps.ret hR a

theorem ite (c : Prop) [Decidable c] {m m' : Prog σ ε α} (hm : Keeps R m) (hm' : Keeps R m') :
    Keeps R (if c then m else m') := by
  split
  · exact hm
  · exact hm'

end Keeps

end Zig

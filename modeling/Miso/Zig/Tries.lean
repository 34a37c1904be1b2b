import Miso.Zig.Triple

/-!
# Functions with a state that may fail (library)

A function that fails with an error, but keeps its state, is an `ExceptT ε (StateM σ) α`.
`Tries P m Q E`: from a state in which `P` holds, `m` returns a value and leaves a state of which `Q`
holds, or fails with an error and leaves a state of which `E` holds.

* `Tries.bind`, `Tries.ite` — the rules;
* `Tries.lift` — a function that always returns;
* `Tries.handle` — a caller that handles the error.
-/

namespace Zig

variable {σ ε α β : Type}

def Tries (P : σ → Prop) (m : ExceptT ε (StateM σ) α) (Q : α → σ → Prop) (E : ε → σ → Prop) : Prop :=
  Triple P (ExceptT.run m) fun x s => (∀ a, x = .ok a → Q a s) ∧ ∀ e, x = .error e → E e s

namespace Tries

variable {P P' : σ → Prop} {m : ExceptT ε (StateM σ) α} {Q Q' : α → σ → Prop} {E : ε → σ → Prop}

theorem ret {a : α} (h : ∀ s, P s → Q a s) : Tries P (pure a : ExceptT ε (StateM σ) α) Q E := by
  refine fun s hs => ⟨fun b hb => ?_, fun e he => ?_⟩
  · obtain rfl : a = b := Except.ok.inj hb
    exact h s hs
  · have hne : (Except.ok a : Except ε α) = .error e := he
    cases hne

theorem bind {R : α → σ → Prop} {f : α → ExceptT ε (StateM σ) β} {Q : β → σ → Prop}
    (hm : Tries P m R E) (hf : ∀ a, Tries (R a) (f a) Q E) : Tries P (m >>= f) Q E := by
  intro s hs
  obtain ⟨hok, herror⟩ := hm s hs
  have hrun : ExceptT.run (m >>= f) s =
      ExceptT.bindCont f (ExceptT.run m s).1 (ExceptT.run m s).2 := rfl
  rw [hrun]
  generalize ExceptT.run m s = r at hok herror
  obtain ⟨x, s'⟩ := r
  cases x with
  | ok a => exact hf a s' (hok a rfl)
  | error e =>
    refine ⟨fun b hb => ?_, fun e' he => ?_⟩
    · have hne : (Except.error e : Except ε β) = .ok b := hb
      cases hne
    · have heq : (Except.error e : Except ε β) = .error e' := he
      obtain rfl := Except.error.inj heq
      exact herror e rfl

theorem ite {c : Prop} [Decidable c] {n : ExceptT ε (StateM σ) α} (hm : c → Tries P m Q E)
    (hn : ¬c → Tries P n Q E) : Tries P (if c then m else n) Q E := by
  by_cases h : c
  · rw [if_pos h]
    exact hm h
  · rw [if_neg h]
    exact hn h

theorem pre (h : Tries P m Q E) (hP : ∀ s, P' s → P s) : Tries P' m Q E := fun s hs => h s (hP s hs)

theorem post (h : Tries P m Q E) (hQ : ∀ a s, Q a s → Q' a s) : Tries P m Q' E := fun s hs =>
  ⟨fun a ha => hQ a _ ((h s hs).1 a ha), (h s hs).2⟩

/-- What does not depend on the state can be assumed. -/
theorem assume {c : Prop} (h : c → Tries P m Q E) : Tries (fun s => c ∧ P s) m Q E :=
  fun s hs => h hs.1 s hs.2

/-- The state may be named. -/
theorem named (h : ∀ s, P s → Tries (fun s' => s' = s) m Q E) : Tries P m Q E := fun s hs => h s hs s rfl

/-- A function that always returns. -/
theorem lift {m : StateM σ α} (h : Triple P m Q) : Tries P (liftM m : ExceptT ε (StateM σ) α) Q E := by
  refine fun s hs => ⟨fun a ha => ?_, fun e he => ?_⟩
  · obtain rfl : (m s).1 = a := Except.ok.inj ha
    exact h s hs
  · have hne : (Except.ok (m s).1 : Except ε α) = .error e := he
    cases hne

/-- A caller that handles the error. -/
theorem handle {f : Except ε α → StateM σ β} {R : β → σ → Prop} (h : Tries P m Q E)
    (hok : ∀ a, Triple (Q a) (f (.ok a)) R) (herror : ∀ e, Triple (E e) (f (.error e)) R) :
    Triple P (ExceptT.run m >>= f) R := by
  refine Triple.bind h fun x => ?_
  cases x with
  | ok a => exact (hok a).pre fun s hs => hs.1 a rfl
  | error e => exact (herror e).pre fun s hs => hs.2 e rfl

end Tries

end Zig

import Mathlib.Logic.Basic

/-!
# Functions with a state (library)

A function that always returns is a `StateM σ α`.  `Triple P m Q`: from a state in which `P` holds,
`m` returns a value and leaves a state of which `Q` holds.

* `Triple.bind`, `Triple.ite`, `Triple.conseq` — the rules;
* `Runs P m v R` — the returned value is `v`.
-/

namespace Zig

variable {σ α β : Type}

def Triple (P : σ → Prop) (m : StateM σ α) (Q : α → σ → Prop) : Prop :=
  ∀ s, P s → Q (m s).1 (m s).2

section Rules

variable {P P' : σ → Prop} {m : StateM σ α} {Q Q' : α → σ → Prop}

theorem Triple.ret {a : α} (h : ∀ s, P s → Q a s) : Triple P (pure a) Q := h

theorem Triple.bind {R : α → σ → Prop} {f : α → StateM σ β} {Q : β → σ → Prop} (hm : Triple P m R)
    (hf : ∀ a, Triple (R a) (f a) Q) : Triple P (m >>= f) Q :=
  fun s hs => hf (m s).1 (m s).2 (hm s hs)

theorem Triple.get {Q : σ → σ → Prop} (h : ∀ s, P s → Q s s) : Triple P get Q := h

/-- The state is read. -/
theorem Triple.get_bind {f : σ → StateM σ β} {Q : β → σ → Prop}
    (h : ∀ s, P s → Triple (fun s' => s' = s) (f s) Q) : Triple P (MonadState.get >>= f) Q :=
  fun s hs => h s hs s rfl

theorem Triple.modify {f : σ → σ} {Q : Unit → σ → Prop} (h : ∀ s, P s → Q () (f s)) :
    Triple P (modify f) Q := h

theorem Triple.conseq (h : Triple P m Q) (hP : ∀ s, P' s → P s) (hQ : ∀ a s, Q a s → Q' a s) :
    Triple P' m Q' := fun s hs => hQ _ _ (h s (hP s hs))

theorem Triple.pre (h : Triple P m Q) (hP : ∀ s, P' s → P s) : Triple P' m Q :=
  h.conseq hP fun _ _ hQ => hQ

theorem Triple.post (h : Triple P m Q) (hQ : ∀ a s, Q a s → Q' a s) : Triple P m Q' :=
  h.conseq (fun _ hs => hs) hQ

theorem Triple.ite {c : Prop} [Decidable c] {n : StateM σ α} (hm : c → Triple P m Q)
    (hn : ¬c → Triple P n Q) : Triple P (if c then m else n) Q := by
  by_cases h : c
  · rw [if_pos h]
    exact hm h
  · rw [if_neg h]
    exact hn h

/-- What does not depend on the state can be assumed. -/
theorem Triple.assume {c : Prop} (h : c → Triple P m Q) : Triple (fun s => c ∧ P s) m Q :=
  fun s hs => h hs.1 s hs.2

/-- The state may be named. -/
theorem Triple.exists {ι : Type} {P : ι → σ → Prop} (h : ∀ i, Triple (P i) m Q) :
    Triple (fun s => ∃ i, P i s) m Q := by
  rintro s ⟨i, hs⟩
  exact h i s hs

end Rules

/-- From a state in which `P` holds, `m` returns `v` and leaves a state in which `R` holds. -/
def Runs (P : σ → Prop) (m : StateM σ α) (v : α) (R : σ → Prop) : Prop :=
  Triple P m fun a s => a = v ∧ R s

section Runs

variable {P P' R R' : σ → Prop} {m : StateM σ α} {v : α}

theorem Runs.ret : Runs P (pure v : StateM σ α) v P := fun _ hs => ⟨rfl, hs⟩

theorem Runs.bind {f : α → StateM σ β} {Q : β → σ → Prop} (hm : Runs P m v R)
    (hf : Triple R (f v) Q) : Triple P (m >>= f) Q := by
  refine Triple.bind hm fun a => ?_
  rintro s ⟨rfl, hs⟩
  exact hf s hs

theorem Runs.conseq (h : Runs P m v R) (hP : ∀ s, P' s → P s) (hR : ∀ s, R s → R' s) :
    Runs P' m v R' := Triple.conseq h hP fun _ s hs => ⟨hs.1, hR s hs.2⟩

end Runs

end Zig

import Mathlib.Logic.Relation

/-!
# Systems driven by inputs (library)

A `System` takes one enabled input after the other.  Its runs are restricted by a condition on
the state and the input of each step, so that "in every run whose steps all meet `C`" is
`S.Reaches C`.

* `Reaches.invariant` — what the steps keep holds of every state reached;
* `Allows.history` — the same with the inputs of the run at hand;
* `reaches_run` — a list of inputs, each of them enabled when it comes, is a run.
-/

namespace Zig

/-- A system with states `σ` and inputs `ι`. -/
structure System (σ ι : Type) where
  Enabled : σ → ι → Prop
  next : σ → ι → σ

namespace System

variable {σ ι : Type} (S : System σ ι)

/-- A step with an enabled input that meets the condition. -/
def Step (C : σ → ι → Prop) (s s' : σ) : Prop := ∃ i, S.Enabled s i ∧ C s i ∧ s' = S.next s i

/-- A run from `s₀` to `s`. -/
abbrev Reaches (C : σ → ι → Prop) (s₀ s : σ) : Prop := Relation.ReflTransGen (S.Step C) s₀ s

/-- Every step is allowed. -/
def Free : σ → ι → Prop := fun _ _ => True

instance (s : σ) (i : ι) : Decidable (Free s i) := inferInstanceAs (Decidable True)

variable {S} {C D : σ → ι → Prop} {s₀ s : σ}

/-- **The induction over runs.** -/
theorem Reaches.invariant {I : σ → Prop} (h : S.Reaches C s₀ s) (h₀ : I s₀)
    (hstep : ∀ s i, I s → S.Enabled s i → C s i → I (S.next s i)) : I s := by
  induction h with
  | refl => exact h₀
  | tail _ h ih =>
    obtain ⟨i, hi, hC, rfl⟩ := h
    exact hstep _ i ih hi hC

theorem Reaches.mono (h : S.Reaches C s₀ s) (hCD : ∀ s i, C s i → D s i) : S.Reaches D s₀ s := by
  refine Relation.ReflTransGen.mono ?_ s₀ s h
  intro a b hab
  obtain ⟨i, hi, hC, hb⟩ := hab
  exact ⟨i, hi, hCD a i hC, hb⟩

/-! ## Runs on given inputs -/

variable (S)

/-- The state after the inputs. -/
def run (s : σ) (l : List ι) : σ := l.foldl S.next s

/-- Every input is allowed when it comes. -/
def Allows (C : σ → ι → Prop) : σ → List ι → Prop
  | _, [] => True
  | s, i :: l => (S.Enabled s i ∧ C s i) ∧ Allows C (S.next s i) l

instance decAllows [∀ s i, Decidable (S.Enabled s i)] [∀ s i, Decidable (C s i)] :
    ∀ (s : σ) (l : List ι), Decidable (S.Allows C s l)
  | _, [] => isTrue trivial
  | s, i :: l =>
    have : Decidable (S.Allows C (S.next s i) l) := decAllows (S.next s i) l
    inferInstanceAs (Decidable ((S.Enabled s i ∧ C s i) ∧ S.Allows C (S.next s i) l))

variable {S}

/-- A condition that all inputs meet in any state. -/
theorem Allows.of_inputs {l : List ι} (h : S.Allows D s l) (hC : ∀ i ∈ l, ∀ s, C s i) :
    S.Allows C s l := by
  induction l generalizing s with
  | nil => trivial
  | cons i l ih =>
    refine ⟨⟨h.1.1, hC i List.mem_cons_self s⟩, ih h.2 ?_⟩
    exact fun j hj => hC j (List.mem_cons_of_mem i hj)

theorem reaches_run {l : List ι} (h : S.Allows C s l) : S.Reaches C s (S.run s l) := by
  induction l generalizing s with
  | nil => exact .refl
  | cons i l ih => exact .head ⟨i, h.1.1, h.1.2, rfl⟩ (ih h.2)

theorem allows_append (l k : List ι) :
    S.Allows C s (l ++ k) ↔ S.Allows C s l ∧ S.Allows C (S.run s l) k := by
  induction l generalizing s with
  | nil => exact ⟨fun h => ⟨trivial, h⟩, fun h => h.2⟩
  | cons i l ih => exact (and_congr_right fun _ => ih).trans and_assoc.symm

theorem run_concat (l : List ι) (i : ι) : S.run s (l ++ [i]) = S.next (S.run s l) i :=
  List.foldl_append

/-- **The induction over runs** that remembers the inputs. -/
theorem Allows.history {I : List ι → σ → Prop} {l : List ι} (h : S.Allows C s₀ l) (h₀ : I [] s₀)
    (hstep : ∀ l s i, I l s → S.Enabled s i → C s i → I (l ++ [i]) (S.next s i)) :
    I l (S.run s₀ l) := by
  have hall : ∀ (k l : List ι) (s : σ), S.Allows C s l → I k s → I (k ++ l) (S.run s l) := by
    intro k l
    induction l generalizing k with
    | nil =>
      intro s _ hs
      rw [List.append_nil]
      exact hs
    | cons i l ih =>
      intro s h hs
      rw [List.append_cons]
      exact ih (k ++ [i]) (S.next s i) h.2 (hstep k s i hs h.1.1 h.1.2)
  exact hall [] l s₀ h h₀

end System

end Zig

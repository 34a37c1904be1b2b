import Mathlib.Data.List.Forall2
import Mathlib.Data.List.Perm.Basic
import Miso.Zig.Prog

/-!
# Folds that may fail (library)

A list is read element by element, and each element that can be read changes a value; the first
that cannot ends the fold.

* `fold_ok_iff` — what the fold comes to, if it comes to an end;
* `fold_alone` — how it ends if one element fails;
* `fold_perm`, `fold_perm_eq` — changes that commute may come in any order.
-/

namespace Zig.Exit

variable {ε α β γ : Type}

/-- The fold that changes a value by what is read. -/
def fold (read : α → Exit ε γ) (apply : γ → β → β) (b : β) (l : List α) : Exit ε β :=
  l.foldlM (fun b a => do
    let c ← read a
    pure (apply c b)) b

/-- The change by an element; one that fails changes nothing. -/
def change (read : α → Exit ε γ) (apply : γ → β → β) (b : β) (a : α) : β :=
  match read a with
  | .ok c => apply c b
  | _ => b

/-- The element cannot be read. -/
def Fails (read : α → Exit ε γ) (a : α) : Prop := ∀ c, read a ≠ .ok c

variable {read : α → Exit ε γ} {apply : γ → β → β} {b b' : β} {l l' : List α}

theorem fails_as {a : α} (h : Fails read a) (f : γ → Exit ε β) :
    (read a >>= f) = (read a).as b := by
  cases hread : read a with
  | ok c => exact absurd hread (h c)
  | _ => rfl

theorem fold_cons (a : α) : fold read apply b (a :: l) =
    (read a >>= fun c => fold read apply (apply c b) l) := by
  unfold fold
  rw [List.foldlM_cons]
  cases read a <;> rfl

/-- **The fold comes to an end** exactly if every element can be read. -/
theorem fold_ok_iff : fold read apply b l = .ok b' ↔
    (∀ a ∈ l, ¬Fails read a) ∧ l.foldl (change read apply) b = b' := by
  induction l generalizing b with
  | nil =>
    constructor
    · intro h
      cases h
      exact ⟨fun a ha => absurd ha List.not_mem_nil, rfl⟩
    · rintro ⟨-, rfl⟩
      rfl
  | cons a l ih =>
    rw [fold_cons, List.foldl_cons, List.forall_mem_cons]
    cases hread : read a with
    | ok c =>
      have hchange : change read apply b a = apply c b := by
        unfold change
        rw [hread]
      have hreads : ¬Fails read a := fun hfails => hfails c hread
      rw [Exit.ok_bind, ih, hchange]
      simp only [hreads, not_false_eq_true, true_and]
    | err e =>
      have hfails : Fails read a := fun c hc => by rw [hread] at hc; cases hc
      simp [hfails]
    | trap =>
      have hfails : Fails read a := fun c hc => by rw [hread] at hc; cases hc
      simp [hfails]
    | halt =>
      have hfails : Fails read a := fun c hc => by rw [hread] at hc; cases hc
      simp [hfails]

/-- One element alone that fails ends the fold as it fails. -/
theorem fold_alone {a : α} (ha : a ∈ l) (hfails : Fails read a)
    (hone : ∀ a' ∈ l, Fails read a' → a' = a) : fold read apply b l = (read a).as b := by
  induction l generalizing b with
  | nil => exact absurd ha List.not_mem_nil
  | cons a' l ih =>
    rw [fold_cons]
    by_cases hfails' : Fails read a'
    · obtain rfl := hone a' List.mem_cons_self hfails'
      exact fails_as hfails _
    · have hmem : a ∈ l := by
        obtain rfl | hmem := List.mem_cons.mp ha
        · exact absurd hfails hfails'
        · exact hmem
      have hrest := fun b => ih (b := b) hmem fun k hk => hone k (List.mem_cons_of_mem a' hk)
      cases hread : read a' with
      | ok c =>
        rw [Exit.ok_bind, hrest]
        cases hread : read a with
        | ok c => exact absurd hread (hfails c)
        | _ => rfl
      | _ => exact absurd (fun c hc => by rw [hread] at hc; cases hc) hfails'

theorem fold_congr (h : List.Forall₂ (fun a a' => read a' = read a) l l') :
    fold read apply b l' = fold read apply b l := by
  induction h generalizing b with
  | nil => rfl
  | cons ha _ ih =>
    rw [fold_cons, fold_cons, ha]
    cases read _ with
    | ok c => exact ih
    | _ => rfl

variable (hperm : l.Perm l')
  (hcomm : ∀ a ∈ l, ∀ a' ∈ l, ∀ b,
    change read apply (change read apply b a) a' = change read apply (change read apply b a') a)

include hperm hcomm

/-- **Changes that commute may come in any order.** -/
theorem fold_perm : fold read apply b l = .ok b' ↔ fold read apply b l' = .ok b' := by
  rw [fold_ok_iff, fold_ok_iff, hperm.foldl_eq' hcomm]
  have hmem : (∀ a ∈ l, ¬Fails read a) ↔ ∀ a ∈ l', ¬Fails read a :=
    forall_congr' fun a => imp_congr_left hperm.mem_iff
  rw [hmem]

/-- The fold ends in the same way, too, unless two elements fail. -/
theorem fold_perm_eq (hone : ∀ a ∈ l, ∀ a' ∈ l, Fails read a → Fails read a' → a' = a) :
    fold read apply b l = fold read apply b l' := by
  by_cases hall : ∀ a ∈ l, ¬Fails read a
  · have hend : fold read apply b l = .ok (l.foldl (change read apply) b) :=
      fold_ok_iff.mpr ⟨hall, rfl⟩
    rw [hend]
    exact ((fold_perm hperm hcomm).mp hend).symm
  · push Not at hall
    obtain ⟨a, ha, hfails⟩ := hall
    rw [fold_alone ha hfails fun a' ha' => hone a ha a' ha' hfails,
      fold_alone (hperm.mem_iff.mp ha) hfails fun a' ha' =>
        hone a ha a' (hperm.mem_iff.mpr ha') hfails]

end Zig.Exit

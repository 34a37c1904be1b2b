import Mathlib.Data.List.Nodup
import Mathlib.Logic.Function.Basic

/-!
# Singly linked lists in memory (library)

Cells of a memory with a pointer to the next one; `next` reads it.  `Seg next p l q` says that
following `next` from `p` visits the cells `l` and arrives at `q`; with `q = none` it is a whole
list.

* `Seg.push` — the store that appends a cell at the end;
* `Seg.unlink` — the store that takes a cell out through the one before it;
* `follow_eq` — the loop that follows the pointers until a cell meets a test returns, and finds
  the first such cell of the list.
-/

namespace Zig

variable {α : Type} {next next' : α → Option α}

/-- From `p` through the cells `l` to `q`. -/
def Seg (next : α → Option α) : Option α → List α → Option α → Prop
  | p, [], q => p = q
  | p, a :: l, q => p = some a ∧ Seg next (next a) l q

namespace Seg

variable {p q : Option α} {l l₁ l₂ : List α} {a b : α}

@[simp] theorem nil_iff : Seg next p [] q ↔ p = q := Iff.rfl

@[simp] theorem cons_iff : Seg next p (a :: l) q ↔ p = some a ∧ Seg next (next a) l q := Iff.rfl

theorem append_iff : Seg next p (l₁ ++ l₂) q ↔ ∃ r, Seg next p l₁ r ∧ Seg next r l₂ q := by
  induction l₁ generalizing p with
  | nil => simp
  | cons a l₁ ih => simp [ih, and_assoc]

/-- A segment depends on the pointers of its own cells only. -/
theorem congr (h : Seg next p l q) (heq : ∀ a ∈ l, next' a = next a) : Seg next' p l q := by
  induction l generalizing p with
  | nil => exact h
  | cons a l ih =>
    refine ⟨h.1, ?_⟩
    rw [heq a List.mem_cons_self]
    exact ih h.2 fun b hb => heq b (List.mem_cons_of_mem a hb)

/-- A list that starts at no cell is empty. -/
theorem eq_nil (h : Seg next none l q) : l = [] := by
  cases l with
  | nil => rfl
  | cons a l => exact absurd h.1 (by simp)

section Stores

variable [DecidableEq α] {r : Option α}

/-- A store to a cell outside the segment leaves it alone. -/
theorem update (h : Seg next p l q) (ha : a ∉ l) : Seg (Function.update next a r) p l q := by
  apply h.congr
  intro b hb
  apply Function.update_of_ne
  intro hba
  exact ha (hba ▸ hb)

/-- **Appending** the new cell `b` behind the last cell `a`. -/
theorem push (h : Seg next p (l ++ [a]) none) (hnd : (l ++ [a]).Nodup) (hb : b ∉ l ++ [a])
    (hnext : next b = none) :
    Seg (Function.update next a (some b)) p (l ++ [a] ++ [b]) none := by
  rw [List.append_assoc, append_iff]
  obtain ⟨r, hl, ha⟩ := append_iff.1 h
  have hal : a ∉ l := by
    intro hal
    exact (List.nodup_append.1 hnd).2.2 a hal a List.mem_cons_self rfl
  have hba : b ≠ a := by
    intro hba
    exact hb (by simp [hba])
  refine ⟨r, hl.update hal, ha.1, ?_, ?_⟩
  · rw [Function.update_self]
  · rw [Function.update_of_ne hba, hnext]
    rfl

/-- **Unlinking** the cell `b` through the cell `a` before it. -/
theorem unlink (h : Seg next p (l₁ ++ a :: b :: l₂) q) (hnd : (l₁ ++ a :: b :: l₂).Nodup) :
    Seg (Function.update next a (next b)) p (l₁ ++ a :: l₂) q := by
  obtain ⟨r, hl, ha, hb, hl₂⟩ := append_iff.1 h
  obtain ⟨-, hnd₂, hdisj⟩ := List.nodup_append.1 hnd
  have hal₁ : a ∉ l₁ := fun hal => hdisj a hal a List.mem_cons_self rfl
  have hal₂ : a ∉ l₂ := by
    intro hal
    exact (List.nodup_cons.1 hnd₂).1 (List.mem_cons_of_mem b hal)
  refine append_iff.2 ⟨r, hl.update hal₁, ha, ?_⟩
  rw [Function.update_self]
  exact hl₂.update hal₂

end Stores

/-! ## Finding a cell -/

/-- Every cell but the last one has a successor. -/
theorem find_last (h : Seg next p (l ++ [a]) none) :
    (l ++ [a]).find? (fun c => (next c).isNone) = some a := by
  induction l generalizing p with
  | nil => simpa using h.2
  | cons b l ih =>
    have hb : (next b).isNone = false := by
      obtain ⟨-, hl⟩ := h
      cases l with
      | nil => simp [hl.1]
      | cons c l => simp [hl.1]
    rw [List.cons_append, List.find?_cons_of_neg (by simp [hb])]
    exact ih h.2

/-- Only the cell before `b` points to `b`. -/
theorem find_before [DecidableEq α] (h : Seg next p (l₁ ++ a :: b :: l₂) none)
    (hnd : (l₁ ++ a :: b :: l₂).Nodup) :
    (l₁ ++ a :: b :: l₂).find? (fun c => next c = some b) = some a := by
  induction l₁ generalizing p with
  | nil => exact List.find?_cons_of_pos (by simpa using h.2.1)
  | cons c l₁ ih =>
    have hc : next c ≠ some b := by
      obtain ⟨-, hl⟩ := h
      obtain ⟨-, hnd⟩ := List.nodup_cons.1 hnd
      obtain ⟨-, hnd, hdisj⟩ := List.nodup_append.1 hnd
      cases l₁ with
      | nil =>
        rw [hl.1]
        intro hab
        exact (List.nodup_cons.1 hnd).1 (by simp [Option.some.inj hab])
      | cons d l₁ =>
        rw [hl.1]
        intro hdb
        exact hdisj d List.mem_cons_self b (by simp) (Option.some.inj hdb)
    rw [List.cons_append, List.find?_cons_of_neg (by simp [hc])]
    exact ih h.2 (List.nodup_cons.1 hnd).2

end Seg

/-- Follow the pointers until a cell meets the test or the list ends; `none` when that takes more
than the given number of tests. -/
def follow (next : α → Option α) (stop : α → Bool) : Nat → Option α → Option (Option α)
  | 0, _ => none
  | _ + 1, none => some none
  | n + 1, some a => if stop a then some (some a) else follow next stop n (next a)

/-- **The loop returns**, with the first cell of the list that meets the test. -/
theorem follow_eq {stop : α → Bool} {p : Option α} {l : List α} {n : Nat}
    (h : Seg next p l none) (hn : l.length < n) : follow next stop n p = some (l.find? stop) := by
  induction l generalizing p n with
  | nil =>
    obtain ⟨n, rfl⟩ : ∃ m, n = m + 1 := ⟨n - 1, by omega⟩
    rw [Seg.nil_iff.1 h]
    rfl
  | cons a l ih =>
    obtain ⟨n, rfl⟩ : ∃ m, n = m + 1 := ⟨n - 1, by omega⟩
    obtain ⟨rfl, hl⟩ := h
    unfold follow
    split
    · rename_i hstop
      rw [List.find?_cons_of_pos hstop]
    · rename_i hstop
      rw [List.find?_cons_of_neg hstop]
      exact ih hl (by simpa using hn)

end Zig

import Mathlib.Data.Finset.Basic
import Mathlib.Data.Finset.Dedup

/-!
# Resource ledgers (library)

The trace of a program that acquires and releases resources, reduced to its moves.  `replay`
carries the set of live resources through a trace and fails at the first move that breaks the
protocol: a release of what is not live, or an acquisition of what is.

A trace that can be replayed is read off as follows:

* `replay_alternates` — the moves of one resource alternate, starting with the acquisition;
* `replay_release` — whatever is released has been acquired once more than released before;
* `replay_balanced` — with nothing live at the end, every acquisition has its release.

`Holds` relates a trace to the resources that its owners hold, whichever owner holds which.
-/

namespace Zig

/-- One move of a ledger over the resources `ρ`. -/
inductive Move (ρ : Type) where
  | acquire (r : ρ)
  | release (r : ρ)
  deriving DecidableEq, Repr

def Move.resource {ρ : Type} : Move ρ → ρ
  | .acquire r => r
  | .release r => r

namespace Ledger

variable {ρ : Type} [DecidableEq ρ]

/-- The live resources after one move; `none` if the move is not allowed. -/
def step (live : Finset ρ) : Move ρ → Option (Finset ρ)
  | .acquire r => if r ∈ live then none else some (insert r live)
  | .release r => if r ∈ live then some (live.erase r) else none

/-- The live resources after a trace; `none` if one of its moves is not allowed. -/
def replay (live : Finset ρ) : List (Move ρ) → Option (Finset ρ)
  | [] => some live
  | m :: l => (step live m).bind (replay · l)

@[simp] theorem replay_nil (live : Finset ρ) : replay live [] = some live := rfl

theorem replay_append (live : Finset ρ) (l k : List (Move ρ)) :
    replay live (l ++ k) = (replay live l).bind (replay · k) := by
  induction l generalizing live with
  | nil => rfl
  | cons m l ih =>
    show (step live m).bind (replay · (l ++ k)) = ((step live m).bind (replay · l)).bind _
    cases step live m with
    | none => rfl
    | some live' => exact ih live'

/-- A replayed trace continues with a trace replayed from where it ended. -/
theorem replay_then {live live' : Finset ρ} {l : List (Move ρ)} (k : List (Move ρ))
    (h : replay live l = some live') : replay live (l ++ k) = replay live' k := by
  rw [replay_append, h]
  rfl

theorem replay_cons {live live' : Finset ρ} {m : Move ρ} {l : List (Move ρ)}
    (h : replay live (m :: l) = some live') :
    ∃ mid, step live m = some mid ∧ replay mid l = some live' :=
  Option.bind_eq_some_iff.mp h

theorem step_acquire {live mid : Finset ρ} {r : ρ} (h : step live (.acquire r) = some mid) :
    r ∉ live ∧ mid = insert r live := by
  by_cases hr : r ∈ live
  · simp [step, hr] at h
  · simp only [step, hr, if_false, Option.some.injEq] at h
    exact ⟨hr, h.symm⟩

theorem step_release {live mid : Finset ρ} {r : ρ} (h : step live (.release r) = some mid) :
    r ∈ live ∧ mid = live.erase r := by
  by_cases hr : r ∈ live
  · simp only [step, hr, if_true, Option.some.injEq] at h
    exact ⟨hr, h.symm⟩
  · simp [step, hr] at h

/-- What is acquired and released again leaves nothing behind. -/
theorem replay_borrow {live : Finset ρ} {r : ρ} (h : r ∉ live) :
    replay live [.acquire r, .release r] = some live := by
  simp [replay, step, h, Finset.erase_insert h]

/-- A move of another resource does not change whether `r` is live. -/
theorem step_other {live mid : Finset ρ} {m : Move ρ} {r : ρ} (h : step live m = some mid)
    (hr : m.resource ≠ r) : r ∈ mid ↔ r ∈ live := by
  cases m with
  | acquire x =>
    obtain ⟨-, rfl⟩ := step_acquire h
    simp only [Finset.mem_insert]
    exact or_iff_right fun hx => hr hx.symm
  | release x =>
    obtain ⟨-, rfl⟩ := step_release h
    simp only [Finset.mem_erase]
    exact and_iff_right fun hx => hr hx.symm

/-! ## Reading a replayed trace -/

/-- The moves of one resource. -/
def movesOf (r : ρ) (l : List (Move ρ)) : List (Move ρ) := l.filter fun m => m.resource = r

/-- The moves alternate; the first one is an acquisition unless `live`. -/
def Alternate (r : ρ) : Bool → List (Move ρ) → Prop
  | _, [] => True
  | live, m :: l => m = (if live then .release r else .acquire r) ∧ Alternate r (!live) l

/-- **The moves of every resource alternate.** -/
theorem replay_alternates (r : ρ) {live live' : Finset ρ} {l : List (Move ρ)}
    (h : replay live l = some live') : Alternate r (decide (r ∈ live)) (movesOf r l) := by
  induction l generalizing live with
  | nil => trivial
  | cons m l ih =>
    obtain ⟨mid, hstep, hl⟩ := replay_cons h
    have hrest := ih hl
    by_cases hr : m.resource = r
    · have hkeep : movesOf r (m :: l) = m :: movesOf r l :=
        List.filter_cons_of_pos (by simpa using hr)
      rw [hkeep]
      cases m with
      | acquire x =>
        obtain rfl : x = r := hr
        obtain ⟨hx, rfl⟩ := step_acquire hstep
        simpa [Alternate, hx] using hrest
      | release x =>
        obtain rfl : x = r := hr
        obtain ⟨hx, rfl⟩ := step_release hstep
        simpa [Alternate, hx] using hrest
    · have hdrop : movesOf r (m :: l) = movesOf r l :=
        List.filter_cons_of_neg (by simpa using hr)
      have hlive : decide (r ∈ mid) = decide (r ∈ live) := by
        simp only [step_other hstep hr]
      rw [hdrop, ← hlive]
      exact hrest

/-- Acquisitions and releases of a resource differ by what is live before and after. -/
theorem replay_count (r : ρ) {live live' : Finset ρ} {l : List (Move ρ)}
    (h : replay live l = some live') :
    (if r ∈ live then 1 else 0) + l.count (.acquire r) =
      l.count (.release r) + if r ∈ live' then 1 else 0 := by
  induction l generalizing live with
  | nil =>
    cases h
    simp only [List.count_nil, Nat.add_zero, Nat.zero_add]
  | cons m l ih =>
    obtain ⟨mid, hstep, hl⟩ := replay_cons h
    have hrest := ih hl
    by_cases hr : m.resource = r
    · cases m with
      | acquire x =>
        obtain rfl : x = r := hr
        obtain ⟨hx, rfl⟩ := step_acquire hstep
        simp only [hx, Finset.mem_insert_self, if_true, if_false] at hrest ⊢
        rw [List.count_cons_self, List.count_cons_of_ne (by simp)]
        omega
      | release x =>
        obtain rfl : x = r := hr
        obtain ⟨hx, rfl⟩ := step_release hstep
        simp only [hx, Finset.notMem_erase, if_true, if_false] at hrest ⊢
        rw [List.count_cons_self, List.count_cons_of_ne (by simp)]
        omega
    · have hlive := step_other hstep hr
      have hne : ∀ k : Move ρ, k.resource = r → k ≠ m := by
        rintro k hk rfl
        exact hr hk
      rw [List.count_cons_of_ne (hne (.acquire r) rfl).symm,
        List.count_cons_of_ne (hne (.release r) rfl).symm]
      simp only [hlive] at hrest
      exact hrest

/-- What is released at some point of the trace is live there. -/
theorem replay_release {r : ρ} {live' : Finset ρ} {l before after : List (Move ρ)}
    (h : replay ∅ l = some live') (hl : l = before ++ .release r :: after) :
    before.count (.acquire r) = before.count (.release r) + 1 := by
  subst hl
  rw [replay_append] at h
  obtain ⟨mid, hbefore, hafter⟩ := Option.bind_eq_some_iff.mp h
  obtain ⟨next, hstep, -⟩ := replay_cons hafter
  have hcount := replay_count r hbefore
  have hmem := (step_release hstep).1
  simp only [Finset.notMem_empty, hmem, if_true, if_false, Nat.zero_add] at hcount
  exact hcount

/-- With nothing live at the end, every acquisition has been matched by one release. -/
theorem replay_balanced (r : ρ) {l : List (Move ρ)} (h : replay ∅ l = some ∅) :
    l.count (.release r) = l.count (.acquire r) := by
  have hcount := replay_count r h
  simp only [Finset.notMem_empty, if_false, Nat.zero_add, Nat.add_zero] at hcount
  exact hcount.symm

/-! ## What is held -/

/-- The trace can be replayed, and leaves the resources of `held` live, once each. -/
def Holds (moves : List (Move ρ)) (held : List ρ) : Prop :=
  ∃ live, replay ∅ moves = some live ∧ ∀ r, held.count r = if r ∈ live then 1 else 0

variable {moves : List (Move ρ)} {held held' : List ρ} {r : ρ}

theorem Holds.nil : Holds ([] : List (Move ρ)) [] := ⟨∅, rfl, by simp⟩

/-- The resources may change their owners. -/
theorem Holds.congr (h : Holds moves held) (hheld : ∀ r, held'.count r = held.count r) :
    Holds moves held' := by
  obtain ⟨live, hreplay, hcount⟩ := h
  exact ⟨live, hreplay, fun r => (hheld r).trans (hcount r)⟩

theorem Holds.acquire (h : Holds moves held) (hr : r ∉ held) :
    Holds (moves ++ [.acquire r]) (r :: held) := by
  obtain ⟨live, hreplay, hcount⟩ := h
  have hlive : r ∉ live := by
    have hzero := hcount r
    rw [List.count_eq_zero.mpr hr] at hzero
    intro hmem
    rw [if_pos hmem] at hzero
    cases hzero
  refine ⟨insert r live, ?_, ?_⟩
  · rw [replay_then _ hreplay]
    simp [replay, step, hlive]
  · intro x
    have hx := hcount x
    simp only [List.count_cons, Finset.mem_insert]
    by_cases heq : r = x
    · subst heq
      simp [List.count_eq_zero.mpr hr]
    · have hne : ¬x = r := fun h => heq h.symm
      simp [heq, hne, hx]

theorem Holds.release (h : Holds moves (r :: held)) : Holds (moves ++ [.release r]) held := by
  obtain ⟨live, hreplay, hcount⟩ := h
  have hmem : r ∈ live := by
    have hr := hcount r
    by_contra hnot
    rw [if_neg hnot] at hr
    simp at hr
  refine ⟨live.erase r, ?_, ?_⟩
  · rw [replay_then _ hreplay]
    simp [replay, step, hmem]
  · intro x
    have hx := hcount x
    simp only [List.count_cons] at hx
    by_cases heq : r = x
    · subst heq
      simp only [hmem, if_true, beq_self_eq_true] at hx
      simp only [Finset.notMem_erase, if_false]
      omega
    · have hne : ¬x = r := fun h => heq h.symm
      simp only [heq, beq_iff_eq, if_false, Nat.add_zero] at hx
      simp only [Finset.mem_erase, hne, ne_eq, not_false_eq_true, true_and]
      exact hx

/-- With nothing held, a trace goes on with one that begins with nothing. -/
theorem Holds.next {moves' : List (Move ρ)} (h : Holds moves []) (h' : Holds moves' held) :
    Holds (moves ++ moves') held := by
  obtain ⟨live, hreplay, hcount⟩ := h
  obtain ⟨live', hreplay', hcount'⟩ := h'
  have hnone : live = ∅ := by
    ext r
    have hr := hcount r
    by_contra hmem
    simp_all
  refine ⟨live', ?_, hcount'⟩
  rw [replay_then _ hreplay, hnone]
  exact hreplay'

/-- **The live resources are those that are held.** -/
theorem Holds.replay (h : Holds moves held) : replay ∅ moves = some held.toFinset := by
  obtain ⟨live, hreplay, hcount⟩ := h
  rw [hreplay]
  congr 1
  ext r
  rw [List.mem_toFinset, ← List.count_pos_iff, hcount r]
  split <;> simp_all

end Ledger

end Zig

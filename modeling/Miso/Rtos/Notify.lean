import Mathlib.Tactic.ByContra

/-!
# Task notifications (library)

The notification of a task in a real-time kernel: a word that senders set bits of, and whether one
has arrived that the task has not waited for.  A wait returns when one has arrived; the bits that
it does not clear stay, but they do not end the next wait.

* `has` — a bit of the word; `masks_iff`, `meets_iff` — the tests by a mask of one bit and of
  several;
* `setBits_has`, `taken_has` — what sending and waiting do to each bit.
-/

namespace Rtos

/-- The word with one bit set, `1 << k`. -/
abbrev bit (k : Nat) : BitVec 32 := BitVec.twoPow 32 k

/-- Every bit of the mask is set: `(val & mask) == mask`. -/
def masks (val mask : BitVec 32) : Bool := val &&& mask == mask

/-- Some bit of the mask is set: `val & mask`, as a condition. -/
def meets (val mask : BitVec 32) : Bool := val &&& mask != 0#32

theorem masks_iff {val : BitVec 32} {k : Nat} (hk : k < 32) :
    masks val (bit k) = true ↔ val.getLsbD k = true := by
  unfold masks
  rw [BitVec.and_twoPow, beq_iff_eq]
  constructor
  · intro h
    by_contra hbit
    rw [if_neg hbit] at h
    have hself : (bit k).getLsbD k = true := by simp [hk]
    rw [← h] at hself
    simp at hself
  · intro h
    rw [if_pos h]

theorem meets_iff {val mask : BitVec 32} :
    meets val mask = true ↔ ∃ k, val.getLsbD k = true ∧ mask.getLsbD k = true := by
  unfold meets
  rw [bne_iff_ne]
  constructor
  · intro h
    by_contra hnone
    apply h
    apply BitVec.eq_of_getLsbD_eq
    intro k _
    rw [BitVec.getLsbD_and, BitVec.getLsbD_zero, Bool.and_eq_false_iff]
    by_contra hk
    rw [not_or, Bool.not_eq_false, Bool.not_eq_false] at hk
    exact hnone ⟨k, hk⟩
  · intro hk h
    obtain ⟨k, hval, hmask⟩ := hk
    have hboth : (val &&& mask).getLsbD k = true := by rw [BitVec.getLsbD_and, hval, hmask]; rfl
    rw [h] at hboth
    simp at hboth

/-- Clearing other bits leaves a bit as it is. -/
theorem and_not_getLsbD {val clear : BitVec 32} {k : Nat} (h : clear.getLsbD k = false) :
    (val &&& ~~~clear).getLsbD k = val.getLsbD k := by
  rw [BitVec.getLsbD_and, BitVec.getLsbD_not, h]
  by_cases hk : k < 32
  · simp [hk]
  · rw [BitVec.getLsbD_of_ge val k (by omega), Bool.false_and]

/-- The notification of a task. -/
structure Notification where
  value : BitVec 32
  pending : Bool
  deriving DecidableEq, Repr

namespace Notification

variable (n : Notification)

/-- Nothing was sent. -/
def none : Notification := ⟨0#32, false⟩

/-- A sender sets bits (`eSetBits`). -/
def setBits (bits : BitVec 32) : Notification := ⟨n.value ||| bits, true⟩

/-- A wait begins; the bits to clear on entry are cleared when it has to block. -/
def entered (clear : BitVec 32) : Notification :=
  if n.pending then n else { n with value := n.value &&& ~~~clear }

/-- What a wait that returned leaves behind; it read `value`. -/
def taken (clear : BitVec 32) : Notification := ⟨n.value &&& ~~~clear, false⟩

/-- A bit of the word. -/
def has (k : Nat) : Bool := n.value.getLsbD k

section Lemmas

variable {n} {bits clear : BitVec 32} {k : Nat}

@[simp] theorem none_has : none.has k = false := by simp [none, has]
@[simp] theorem none_pending : none.pending = false := rfl

@[simp] theorem setBits_has : (n.setBits bits).has k = (n.has k || bits.getLsbD k) := by
  simp [setBits, has]

@[simp] theorem setBits_pending : (n.setBits bits).pending = true := rfl

@[simp] theorem entered_pending : (n.entered clear).pending = n.pending := by
  unfold entered
  split <;> rfl

/-- The bits that are not cleared on entry stay. -/
theorem entered_has (hclear : clear.getLsbD k = false) : (n.entered clear).has k = n.has k := by
  unfold entered
  split
  · rfl
  · exact and_not_getLsbD hclear

/-- A wait leaves the bits that it does not clear. -/
theorem taken_has (hclear : clear.getLsbD k = false) : (n.taken clear).has k = n.has k :=
  and_not_getLsbD hclear

@[simp] theorem taken_allOnes_has : (n.taken (BitVec.allOnes 32)).has k = false := by
  simp [taken, has]

@[simp] theorem taken_pending : (n.taken clear).pending = false := rfl

end Lemmas

end Notification

end Rtos

import Mathlib.Dynamics.PeriodicPts.Lemmas
import Mathlib.Algebra.GroupWithZero.Nat
import Mathlib.Data.Nat.ModEq

/-!
# Generators made of shifts and xor

A function on numbers that commutes with xor is determined by the images of `1`, `2`, `4`, …; the
table of the images is squared by looking each of them up.

* `Linear` — the functions, closed under shifts, truncation, xor and composition;
* `combine`, `images` — a table, and the table of a function;
* `jump_eq` — `f^[k]` from the binary digits of `k`;
* `minimalPeriod_eq` — a period none of whose maximal proper divisors is one.
-/

namespace Zig

open Function

/-! ## Linear functions -/

/-- `f` commutes with xor. -/
def Linear (f : Nat → Nat) : Prop := ∀ x y, f (x ^^^ y) = f x ^^^ f y

namespace Linear

variable {f g : Nat → Nat}

theorem zero (hf : Linear f) : f 0 = 0 := by
  have h := hf 0 0
  rwa [Nat.xor_self, Nat.xor_self] at h

protected theorem id : Linear fun x => x := fun _ _ => rfl

theorem comp (hg : Linear g) (hf : Linear f) : Linear fun x => g (f x) := by
  intro x y
  show g (f (x ^^^ y)) = g (f x) ^^^ g (f y)
  rw [hf, hg]

theorem xor (hf : Linear f) (hg : Linear g) : Linear fun x => f x ^^^ g x := by
  intro x y
  show f (x ^^^ y) ^^^ g (x ^^^ y) = (f x ^^^ g x) ^^^ (f y ^^^ g y)
  rw [hf, hg, Nat.xor_assoc, Nat.xor_assoc, ← Nat.xor_assoc (f y), Nat.xor_comm (f y),
    Nat.xor_assoc (g x)]

theorem shiftLeft (hf : Linear f) (k : Nat) : Linear fun x => f x <<< k := by
  intro x y
  show f (x ^^^ y) <<< k = (f x <<< k) ^^^ (f y <<< k)
  rw [hf, Nat.shiftLeft_xor_distrib]

theorem shiftRight (hf : Linear f) (k : Nat) : Linear fun x => f x >>> k := by
  intro x y
  show f (x ^^^ y) >>> k = (f x >>> k) ^^^ (f y >>> k)
  rw [hf, Nat.shiftRight_xor_distrib]

theorem mod (hf : Linear f) (k : Nat) : Linear fun x => f x % 2 ^ k := by
  intro x y
  show f (x ^^^ y) % 2 ^ k = (f x % 2 ^ k) ^^^ (f y % 2 ^ k)
  rw [hf, Nat.xor_mod_two_pow]

end Linear

/-! ## Tables -/

/-- The xor of the entries that the bits of `x` choose. -/
def combine : List Nat → Nat → Nat
  | [], _ => 0
  | v :: t, x => (x % 2) * v ^^^ combine t (x / 2)

/-- The images of the first `n` powers of two. -/
def images (f : Nat → Nat) : Nat → List Nat
  | 0 => []
  | n + 1 => f 1 :: images (fun x => f (2 * x)) n

/-- The table holds `f` on the numbers of `n` bits. -/
def Table (f : Nat → Nat) (n : Nat) (t : List Nat) : Prop := ∀ x < 2 ^ n, combine t x = f x

theorem combine_linear (t : List Nat) : Linear (combine t) := by
  induction t with
  | nil => exact fun _ _ => (Nat.xor_self 0).symm
  | cons v t ih =>
    have hbit : Linear fun x => (x % 2) * v := by
      intro x y
      have hmod : (x ^^^ y) % 2 = x % 2 ^^^ y % 2 := Nat.xor_mod_two_pow (n := 1)
      show (x ^^^ y) % 2 * v = (x % 2) * v ^^^ (y % 2) * v
      rw [hmod]
      rcases Nat.mod_two_eq_zero_or_one x with hx | hx <;>
        rcases Nat.mod_two_eq_zero_or_one y with hy | hy <;> simp [hx, hy]
    have hrest : Linear fun x => combine t (x / 2) :=
      ih.comp fun x y => Nat.xor_div_two
    exact hbit.xor hrest

/-- A linear function goes into the entries. -/
theorem Linear.combine {g : Nat → Nat} (hg : Linear g) (t : List Nat) (x : Nat) :
    g (Zig.combine t x) = Zig.combine (t.map g) x := by
  induction t generalizing x with
  | nil => exact hg.zero
  | cons v t ih =>
    have hbit : g (x % 2 * v) = x % 2 * g v := by
      rcases Nat.mod_two_eq_zero_or_one x with hx | hx
      · simp [hx, hg.zero]
      · simp [hx]
    show g (x % 2 * v ^^^ Zig.combine t (x / 2)) = x % 2 * g v ^^^ Zig.combine (t.map g) (x / 2)
    rw [hg, hbit, ih]

/-- A number is its last bit and the rest. -/
theorem xor_split (x : Nat) : x % 2 ^^^ 2 * (x / 2) = x := by
  have hdiv : (x % 2 ^^^ 2 * (x / 2)) / 2 = x / 2 := by
    rw [Nat.xor_div_two, Nat.mod_div_self, Nat.mul_div_cancel_left _ (by decide), Nat.zero_xor]
  have hmod : (x % 2 ^^^ 2 * (x / 2)) % 2 = x % 2 := by
    have h : (x % 2 ^^^ 2 * (x / 2)) % 2 = x % 2 % 2 ^^^ 2 * (x / 2) % 2 :=
      Nat.xor_mod_two_pow (n := 1)
    rw [h, Nat.mod_mod, Nat.mul_mod_right, Nat.xor_zero]
  rw [← Nat.div_add_mod (x % 2 ^^^ 2 * (x / 2)) 2, hdiv, hmod, Nat.div_add_mod]

theorem double_linear : Linear fun x => 2 * x := by
  intro x y
  have h := Nat.shiftLeft_xor_distrib (a := x) (b := y) (i := 1)
  simp only [Nat.shiftLeft_eq, Nat.pow_one] at h
  simp only [Nat.mul_comm 2, h]

/-- The table of a linear function holds it. -/
theorem Linear.table {f : Nat → Nat} (hf : Linear f) (n : Nat) : Table f n (images f n) := by
  induction n generalizing f with
  | zero =>
    intro x hx
    obtain rfl : x = 0 := by omega
    exact hf.zero.symm
  | succ n ih =>
    intro x hx
    have hrest := ih (hf.comp double_linear) (x / 2) (by omega)
    have hbit : x % 2 * f 1 = f (x % 2) := by
      rcases Nat.mod_two_eq_zero_or_one x with hx | hx
      · simp [hx, hf.zero]
      · simp [hx]
    show x % 2 * f 1 ^^^ Zig.combine (images (fun x => f (2 * x)) n) (x / 2) = f x
    rw [hrest, hbit, ← hf, xor_split]

/-! ## Iterates -/

/-- The table of the square. -/
def square (t : List Nat) : List Nat := t.map (combine t)

theorem Table.square {f : Nat → Nat} {n : Nat} {t : List Nat} (h : Table f n t)
    (hf : ∀ x < 2 ^ n, f x < 2 ^ n) : Table f^[2] n (square t) := by
  intro x hx
  calc combine (Zig.square t) x = combine t (combine t x) := ((combine_linear t).combine t x).symm
    _ = f (f x) := by rw [h x hx, h _ (hf x hx)]

/-- `x` behind `k` steps, for a `k` of at most the given number of bits. -/
def jump : List Nat → Nat → Nat → Nat → Nat
  | _, 0, _, x => x
  | t, bits + 1, k, x => jump (square t) bits (k / 2) (if k % 2 = 1 then combine t x else x)

theorem maps_iterate {f : Nat → Nat} {b : Nat} (hf : ∀ x < b, f x < b) (k : Nat) :
    ∀ x < b, f^[k] x < b := by
  induction k with
  | zero => exact fun _ hx => hx
  | succ k ih => exact fun x hx => ih (f x) (hf x hx)

/-- **The binary digits of `k` give `f^[k]`.** -/
theorem jump_eq {f : Nat → Nat} {n : Nat} {t : List Nat} (h : Table f n t)
    (hf : ∀ x < 2 ^ n, f x < 2 ^ n) {bits k : Nat} (hk : k < 2 ^ bits) {x : Nat}
    (hx : x < 2 ^ n) : jump t bits k x = f^[k] x := by
  induction bits generalizing f t k x with
  | zero =>
    obtain rfl : k = 0 := by omega
    rfl
  | succ bits ih =>
    have hhalf : k / 2 < 2 ^ bits := by omega
    have hrest {y : Nat} (hy : y < 2 ^ n) :
        jump (Zig.square t) bits (k / 2) y = f^[2 * (k / 2)] y := by
      rw [ih (h.square hf) (maps_iterate hf 2) hhalf hy, iterate_mul]
    rw [jump]
    rcases Nat.mod_two_eq_zero_or_one k with hbit | hbit
    · rw [if_neg (by omega), hrest hx, show 2 * (k / 2) = k by omega]
    · rw [if_pos hbit, h x hx, hrest (hf x hx), ← iterate_succ_apply,
        show (2 * (k / 2)).succ = k by omega]

/-! ## Periods -/

/-- **A period none of whose maximal proper divisors is one.** -/
theorem minimalPeriod_eq {α : Type*} {f : α → α} {x : α} {n : Nat} (hperiod : f^[n] x = x)
    (hprime : ∀ p, p.Prime → p ∣ n → f^[n / p] x ≠ x) : minimalPeriod f x = n := by
  obtain ⟨m, hm⟩ := (show IsPeriodicPt f n x from hperiod).minimalPeriod_dvd
  by_contra hne
  have hm1 : m ≠ 1 := by
    rintro rfl
    exact hne (by rw [hm, Nat.mul_one])
  obtain ⟨p, hp, k, rfl⟩ := Nat.exists_prime_and_dvd hm1
  apply hprime p hp
  · exact ⟨minimalPeriod f x * k, by rw [hm, Nat.mul_left_comm]⟩
  · have hdiv : n / p = minimalPeriod f x * k := by
      rw [hm, Nat.mul_left_comm, Nat.mul_div_cancel_left _ hp.pos]
    rw [hdiv]
    exact (isPeriodicPt_minimalPeriod f x).mul_const k

/-- Two iterates agree, if they are a number of periods apart. -/
theorem iterate_eq_iff {α : Type*} {f : α → α} {x : α} (hx : 0 < minimalPeriod f x) (i j : Nat) :
    f^[i] x = f^[j] x ↔ i ≡ j [MOD minimalPeriod f x] := by
  rw [← iterate_mod_minimalPeriod_eq (n := i), ← iterate_mod_minimalPeriod_eq (n := j),
    iterate_eq_iterate_iff_of_lt_minimalPeriod (Nat.mod_lt _ hx) (Nat.mod_lt _ hx)]
  rfl

/-- The orbit of a periodic point other than zero stays off zero. -/
theorem Linear.iterate_ne_zero {f : Nat → Nat} (hf : Linear f) {x : Nat} (hx : x ≠ 0)
    (hperiod : 0 < minimalPeriod f x) (n : Nat) : f^[n] x ≠ 0 := by
  intro hzero
  have hback : f^[minimalPeriod f x * n] x = x := (isPeriodicPt_minimalPeriod f x).mul_const n
  have hle : n ≤ minimalPeriod f x * n := Nat.le_mul_of_pos_left n hperiod
  rw [← Nat.sub_add_cancel hle, iterate_add_apply, hzero, iterate_fixed hf.zero] at hback
  exact hx hback.symm

end Zig

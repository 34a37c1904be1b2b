import Miso.Zig.Fmt

/-!
# Decimal numbers and separated fields (library)

* `Digits`, `decimalValue` — runs of digits, and what they denote;
* `parseInt_digits` — `std.fmt.parseInt` on a run of digits;
* `splitAny_field`, `splitAny_last` — `std.mem.splitAny` on fields that contain no delimiter;
* `compared` — how many bytes `std.mem.eql` looks at.
-/

namespace Zig

/-! ## Digits -/

/-- A non-empty run of digits. -/
structure Digits (d : List UInt8) : Prop where
  ne_nil : d ≠ []
  all : ∀ c ∈ d, 48 ≤ c ∧ c ≤ 57

instance (d : List UInt8) : Decidable (Digits d) :=
  decidable_of_iff (d ≠ [] ∧ d.all (fun c => 48 ≤ c ∧ c ≤ 57) = true)
    ⟨fun h => ⟨h.1, fun c hc => of_decide_eq_true (List.all_eq_true.mp h.2 c hc)⟩,
      fun h => ⟨h.ne_nil, List.all_eq_true.mpr fun c hc => decide_eq_true (h.all c hc)⟩⟩

/-- The number of which `x` has been read, and `d` is the rest. -/
def decimalFrom (x : Nat) (d : List UInt8) : Nat := d.foldl (fun x c => 10 * x + (c.toNat - 48)) x

/-- What a run of digits denotes. -/
abbrev decimalValue (d : List UInt8) : Nat := decimalFrom 0 d

@[simp] theorem decimalFrom_nil (x : Nat) : decimalFrom x [] = x := rfl

@[simp] theorem decimalFrom_cons (x : Nat) (c : UInt8) (d : List UInt8) :
    decimalFrom x (c :: d) = decimalFrom (10 * x + (c.toNat - 48)) d := List.foldl_cons ..

theorem le_decimalFrom (x : Nat) (d : List UInt8) : x ≤ decimalFrom x d := by
  induction d generalizing x with
  | nil => exact Nat.le_refl x
  | cons c d ih =>
    have hrest := ih (10 * x + (c.toNat - 48))
    rw [decimalFrom_cons]
    omega

theorem digit_ne {c : UInt8} (h : 48 ≤ c ∧ c ≤ 57) : c ≠ 43 ∧ c ≠ 45 ∧ c ≠ 47 ∧ c ≠ 95 := by
  obtain ⟨hlow, hhigh⟩ := h
  rw [UInt8.le_iff_toNat_le] at hlow hhigh
  refine ⟨?_, ?_, ?_, ?_⟩ <;> rintro rfl <;> revert hlow hhigh <;> decide

theorem accumulate_digit (max x : Nat) {c : UInt8} (h : 48 ≤ c ∧ c ≤ 57) :
    accumulate max false x c = if 10 * x + (c.toNat - 48) ≤ max then .ok (10 * x + (c.toNat - 48))
      else .error .Overflow := by
  have hdigit : charToDigit c = .ok (c.toNat - 48) := if_pos h
  have hstep : accumulate max false x c = if max < 10 * x then .error .Overflow
      else if max < 10 * x + (c.toNat - 48) then .error .Overflow
      else .ok (10 * x + (c.toNat - 48)) := by
    unfold accumulate
    rw [if_neg (digit_ne h).2.2.2, hdigit]
    rfl
  rw [hstep]
  by_cases hle : 10 * x + (c.toNat - 48) ≤ max
  · rw [if_pos hle, if_neg (by omega), if_neg (by omega)]
  · rw [if_neg hle, if_pos (Nat.lt_of_not_le hle), ite_self]

theorem foldlM_accumulate (max x : Nat) {d : List UInt8} (hx : x ≤ max)
    (h : ∀ c ∈ d, 48 ≤ c ∧ c ≤ 57) :
    d.foldlM (accumulate max false) x =
      if decimalFrom x d ≤ max then .ok (decimalFrom x d) else .error .Overflow := by
  induction d generalizing x with
  | nil => exact (if_pos hx).symm
  | cons c d ih =>
    rw [List.foldlM_cons, accumulate_digit max x (h c List.mem_cons_self), decimalFrom_cons]
    by_cases hle : 10 * x + (c.toNat - 48) ≤ max
    · rw [if_pos hle]
      exact ih _ hle fun b hb => h b (List.mem_cons_of_mem c hb)
    · have hrest := le_decimalFrom (10 * x + (c.toNat - 48)) d
      rw [if_neg hle, if_neg (by omega)]
      rfl

/-- **A run of digits is parsed to what it denotes**, if that fits. -/
theorem parseInt_digits (max : Nat) {d : List UInt8} (h : Digits d) :
    parseInt max d = if decimalValue d ≤ max then .ok (decimalValue d) else .error .Overflow := by
  obtain ⟨hne, hall⟩ := h
  cases d with
  | nil => exact absurd rfl hne
  | cons c d =>
    obtain ⟨hplus, hminus, -, hbar⟩ := digit_ne (hall c List.mem_cons_self)
    have hlast : (c :: d).getLast? ≠ some 95 := by
      intro hlast
      exact (digit_ne (hall 95 (List.mem_of_getLast? hlast))).2.2.2 rfl
    have hhead : (c :: d).head? ≠ some 95 := by
      intro hhead
      exact hbar (Option.some.inj hhead)
    unfold parseInt
    dsimp only
    rw [if_neg hplus, if_neg hminus]
    unfold parseWithSign
    rw [if_neg (by simp only [hne, hhead, hlast, or_self, not_false_eq_true])]
    exact foldlM_accumulate max 0 (Nat.zero_le max) hall

/-! ## Fields -/

theorem splitAny_ne_nil (l delimiters : List UInt8) : splitAny l delimiters ≠ [] :=
  List.splitOnP_ne_nil _ l

theorem splitAny_last {f delimiters : List UInt8} (hf : ∀ c ∈ f, c ∉ delimiters) :
    splitAny f delimiters = [f] := by
  apply List.splitOnP_eq_singleton
  intro c hc
  simpa using hf c hc

theorem splitAny_field {f delimiters : List UInt8} {sep : UInt8} (rest : List UInt8)
    (hf : ∀ c ∈ f, c ∉ delimiters) (hsep : sep ∈ delimiters) :
    splitAny (f ++ sep :: rest) delimiters = f :: splitAny rest delimiters := by
  apply List.splitOnP_append_cons_of_forall_mem
  · intro c hc
    simpa using hf c hc
  · exact List.contains_iff_mem.mpr hsep

/-! ## Comparisons -/

/-- How many bytes of `l` the comparison with `u` looks at; it ends at the first that differs. -/
def compared : List UInt8 → List UInt8 → Nat
  | a :: l, b :: u => if a = b then compared l u + 1 else 1
  | _, _ => 0

theorem compared_le_length (l u : List UInt8) : compared l u ≤ u.length := by
  induction l generalizing u with
  | nil => exact Nat.zero_le _
  | cons a l ih =>
    cases u with
    | nil => exact Nat.le_refl 0
    | cons b u =>
      have hrest := ih u
      unfold compared
      rw [List.length_cons]
      split <;> omega

/-- The comparison stays inside `v` unless `v` is where `u` begins. -/
theorem compared_le {v u : List UInt8} (rest : List UInt8) (h : ¬v <+: u) :
    compared (v ++ rest) u ≤ v.length := by
  induction v generalizing u with
  | nil => exact absurd List.nil_prefix h
  | cons a v ih =>
    cases u with
    | nil => exact Nat.zero_le _
    | cons b u =>
      rw [List.cons_append]
      unfold compared
      by_cases hab : a = b
      · rw [if_pos hab, List.length_cons]
        have hrest : ¬v <+: u := by
          intro hpre
          exact h (List.cons_prefix_cons.mpr ⟨hab, hpre⟩)
        exact Nat.succ_le_succ (ih hrest)
      · rw [if_neg hab, List.length_cons]
        omega

theorem compared_lt {v u rest : List UInt8} (h : v <+: u) (hu : v.length < u.length)
    (hrest : rest ≠ []) : v.length < compared (v ++ rest) u := by
  induction v generalizing u with
  | nil =>
    cases u with
    | nil => exact absurd hu (Nat.lt_irrefl 0)
    | cons b u =>
      cases rest with
      | nil => exact absurd rfl hrest
      | cons a rest =>
        rw [List.nil_append]
        unfold compared
        split <;> simp
  | cons a v ih =>
    cases u with
    | nil => exact absurd hu (Nat.not_lt_zero _)
    | cons b u =>
      obtain ⟨rfl, hpre⟩ := List.cons_prefix_cons.mp h
      rw [List.cons_append]
      unfold compared
      rw [if_pos rfl, List.length_cons]
      exact Nat.succ_lt_succ (ih hpre (Nat.lt_of_succ_lt_succ hu))

end Zig

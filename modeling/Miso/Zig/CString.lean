import Mathlib.Data.List.TakeWhile
import Mathlib.Data.UInt

/-!
# C strings in memory (library)

A string is what stands in front of the first NUL of a memory area.

* `cstr` — the string, `cstr_append_zero`, `cstr_append_of_mem`;
* `strncpy`, `zeroFill` — what `strncpy` and `memset(…, 0, …)` leave in an area that begins at their
  destination.  An area that gets longer has been written behind its end (`strncpy_length`);
* `beginsWith` — `strncmp(s, name, strlen(name)) == 0`;
* `cstr_eq_nil`, `cstr_strncpy_eq_nil` — when a string is empty.
-/

namespace Zig

/-- The string that begins an area; its length is `strlen`. -/
def cstr (area : List UInt8) : List UInt8 := area.takeWhile (· != 0)

/-- `memset(dest, 0, n)`. -/
def zeroFill (dest : List UInt8) (n : Nat) : List UInt8 := List.replicate n 0 ++ dest.drop n

/-- `strncpy(dest, src, n)`: the string, cut to `n` bytes and filled up to `n` bytes. -/
def strncpy (dest src : List UInt8) (n : Nat) : List UInt8 :=
  cstr (src.take n) ++ List.replicate (n - (cstr (src.take n)).length) 0 ++ dest.drop n

/-- `strncmp(s, name, strlen(name)) == 0`. -/
def beginsWith (s name : List UInt8) : Bool := name.isPrefixOf s

/-! ## The string of an area -/

theorem zero_notMem_cstr (area : List UInt8) : 0 ∉ cstr area := by
  intro h
  have hne := List.mem_takeWhile_imp h
  simp at hne

theorem cstr_eq_self {s : List UInt8} (h : 0 ∉ s) : cstr s = s := by
  apply List.takeWhile_eq_self_iff.mpr
  intro b hb
  have hne : b ≠ 0 := fun h0 => h (h0 ▸ hb)
  simpa using hne

@[simp] theorem cstr_cstr (area : List UInt8) : cstr (cstr area) = cstr area :=
  cstr_eq_self (zero_notMem_cstr area)

theorem cstr_length_le (area : List UInt8) : (cstr area).length ≤ area.length :=
  (List.takeWhile_sublist _).length_le

theorem cstr_append_zero {s : List UInt8} (h : 0 ∉ s) (rest : List UInt8) :
    cstr (s ++ 0 :: rest) = s := by
  induction s with
  | nil => simp [cstr]
  | cons b s ih =>
    have hb : b ≠ 0 := fun h0 => h (h0 ▸ List.mem_cons_self)
    have hs : 0 ∉ s := fun h0 => h (List.mem_cons_of_mem b h0)
    have hcons := ih hs
    simp only [cstr, List.cons_append] at hcons ⊢
    rw [List.takeWhile_cons_of_pos (by simpa using hb), hcons]

/-- A terminated area is its string, a NUL and a rest. -/
theorem exists_rest {area : List UInt8} (h : 0 ∈ area) : ∃ rest, area = cstr area ++ 0 :: rest := by
  induction area with
  | nil => cases h
  | cons b area ih =>
    by_cases hb : b = 0
    · exact ⟨area, by simp [cstr, hb]⟩
    · obtain hz | hz := List.mem_cons.mp h
      · exact absurd hz.symm hb
      · obtain ⟨rest, hrest⟩ := ih hz
        refine ⟨rest, ?_⟩
        have hcons : cstr (b :: area) = b :: cstr area :=
          List.takeWhile_cons_of_pos (by simpa using hb)
        rw [hcons, List.cons_append, ← hrest]

/-- What follows the NUL of an area does not belong to its string. -/
theorem cstr_append_of_mem {area : List UInt8} (h : 0 ∈ area) (rest : List UInt8) :
    cstr (area ++ rest) = cstr area := by
  obtain ⟨tail, htail⟩ := exists_rest h
  have hcut : cstr (cstr area ++ 0 :: (tail ++ rest)) = cstr area :=
    cstr_append_zero (zero_notMem_cstr area) _
  rwa [← List.cons_append, ← List.append_assoc, ← htail] at hcut

/-- The string of a terminated area leaves room for its NUL. -/
theorem cstr_length_lt {area : List UInt8} (h : 0 ∈ area) : (cstr area).length < area.length := by
  obtain ⟨rest, hrest⟩ := exists_rest h
  have hlen := congrArg List.length hrest
  simp only [List.length_append, List.length_cons] at hlen
  omega

/-! ## `memset` and `strncpy` -/

@[simp] theorem zeroFill_length (dest : List UInt8) (n : Nat) :
    (zeroFill dest n).length = max n dest.length := by
  simp only [zeroFill, List.length_append, List.length_replicate, List.length_drop]
  omega

theorem zeroFill_all {dest : List UInt8} {n : Nat} (h : dest.length ≤ n) :
    zeroFill dest n = List.replicate n 0 := by
  rw [zeroFill, List.drop_eq_nil_of_le h, List.append_nil]

theorem cstr_take_length_le (src : List UInt8) (n : Nat) : (cstr (src.take n)).length ≤ n := by
  have hle := cstr_length_le (src.take n)
  have htake := List.length_take_le n src
  omega

/-- `strncpy` writes `n` bytes, whatever the length of the string and of the destination. -/
@[simp] theorem strncpy_length (dest src : List UInt8) (n : Nat) :
    (strncpy dest src n).length = max n dest.length := by
  have hle := cstr_take_length_le src n
  simp only [strncpy, List.length_append, List.length_replicate, List.length_drop]
  omega

/-! ## The empty string -/

theorem cstr_eq_nil {area : List UInt8} : cstr area = [] ↔ ∀ b ∈ area.head?, b = 0 := by
  cases area with
  | nil => simp [cstr]
  | cons b area =>
    by_cases hb : b = 0
    · simp [cstr, hb]
    · simp [cstr, hb]

theorem cstr_replicate_zero (n : Nat) (rest : List UInt8) (h : 0 < n) :
    cstr (List.replicate n 0 ++ rest) = [] := by
  obtain ⟨m, rfl⟩ := Nat.exists_eq_add_one.mpr h
  simp [cstr, List.replicate_succ]

/-- What follows does not matter to an area with a first byte. -/
theorem cstr_append_eq_nil {area : List UInt8} (h : area ≠ []) (rest : List UInt8) :
    cstr (area ++ rest) = [] ↔ cstr area = [] := by
  rw [cstr_eq_nil, cstr_eq_nil, List.head?_append_of_ne_nil area h]

theorem cstr_take_eq_nil {n : Nat} (h : 0 < n) (src : List UInt8) :
    cstr (src.take n) = [] ↔ cstr src = [] := by
  rw [cstr_eq_nil, cstr_eq_nil, List.head?_take, if_neg (Nat.ne_of_gt h)]

/-- A copy is empty if the source is. -/
theorem cstr_strncpy_eq_nil {n : Nat} (h : 0 < n) (dest src : List UInt8) :
    cstr (strncpy dest src n) = [] ↔ cstr src = [] := by
  rw [← cstr_take_eq_nil h src]
  unfold strncpy
  by_cases hsrc : cstr (src.take n) = []
  · rw [hsrc, List.nil_append, List.length_nil, Nat.sub_zero, cstr_replicate_zero n _ h]
  · rw [List.append_assoc, cstr_append_eq_nil hsrc, cstr_cstr]

/-! ## The last byte -/

theorem getLast?_append_drop {a b : List UInt8} {n : Nat} (h : n < b.length) :
    (a ++ b.drop n).getLast? = b.getLast? := by
  have hne : b.drop n ≠ [] := by
    intro hnil
    have hlen := congrArg List.length hnil
    simp only [List.length_drop, List.length_nil] at hlen
    omega
  rw [List.getLast?_append_of_ne_nil a hne, List.getLast?_drop, if_neg (Nat.not_le.mpr h)]

/-- A copy that ends before the destination leaves its last byte. -/
theorem strncpy_last {dest src : List UInt8} {n : Nat} (h : n < dest.length) :
    (strncpy dest src n).getLast? = dest.getLast? := by
  unfold strncpy
  exact getLast?_append_drop h

end Zig

import Mathlib.Algebra.Group.Nat.Defs
import Mathlib.Tactic.Common
import Miso.Sd.Driver

/-!
# The capacity in the CSD

* `Tells` — the capacity that a CSD tells, by the fields of the SD specification;
* `sectors_eq` — the driver reads that capacity.
-/

namespace Miso.Sd

/-- Some bits of a register, whose highest byte is sent first. -/
def bits (register : List UInt8) (high low : Nat) : Nat :=
  register.foldl (fun n b => n * 256 + b.toNat) 0 / 2 ^ low % 2 ^ (high + 1 - low)

/-- The sectors of a card: `C_SIZE` counts in 512 KiB in version 2; in version 1 in blocks of
`READ_BL_LEN`, which are 512 to 2048 bytes, with the factor `C_SIZE_MULT`. -/
def Tells (csd : List UInt8) (capacity : Nat) : Prop :=
  bits csd 127 126 = 1 ∧ capacity = (bits csd 69 48 + 1) * 1024 ∨
    bits csd 127 126 = 0 ∧ 9 ≤ bits csd 83 80 ∧ bits csd 83 80 ≤ 11 ∧
      capacity * 512 = (bits csd 73 62 + 1) * 2 ^ (bits csd 49 47 + 2) * 2 ^ bits csd 83 80

instance (csd : List UInt8) (capacity : Nat) : Decidable (Tells csd capacity) :=
  inferInstanceAs (Decidable (_ ∨ _))

section Bytes

variable {b0 b1 b2 b3 b4 b5 b6 b7 b8 b9 b10 b11 b12 b13 b14 b15 : UInt8}

/-- The fields in the bytes that hold them. -/
theorem bits_bytes :
    let csd := [b0, b1, b2, b3, b4, b5, b6, b7, b8, b9, b10, b11, b12, b13, b14, b15]
    bits csd 127 126 = b0.toNat / 64 ∧
      bits csd 69 48 = b7.toNat % 64 * 65536 + b8.toNat * 256 + b9.toNat ∧
      bits csd 83 80 = b5.toNat % 16 ∧
      bits csd 73 62 = b6.toNat % 4 * 1024 + b7.toNat * 4 + b8.toNat / 64 ∧
      bits csd 49 47 = b9.toNat % 4 * 2 + b10.toNat / 128 := by
  have h0 := b0.toNat_lt
  have h5 := b5.toNat_lt
  have h6 := b6.toNat_lt
  have h7 := b7.toNat_lt
  have h8 := b8.toNat_lt
  have h9 := b9.toNat_lt
  have h10 := b10.toNat_lt
  have h1 := b1.toNat_lt
  have h2 := b2.toNat_lt
  have h3 := b3.toNat_lt
  have h4 := b4.toNat_lt
  have h11 := b11.toNat_lt
  have h12 := b12.toNat_lt
  have h13 := b13.toNat_lt
  have h14 := b14.toNat_lt
  have h15 := b15.toNat_lt
  simp only [bits, List.foldl_cons, List.foldl_nil, Nat.reduceAdd, Nat.reduceSub,
    Nat.reducePow] at *
  refine ⟨?_, ?_, ?_, ?_, ?_⟩ <;> omega

/-! ## Words -/

theorem toNat_widen (b : UInt8) : b.toUInt32.toNat = b.toNat := UInt8.toNat_toUInt32 b

theorem toNat_low (b : UInt8) {n : Nat} (hn : n ≤ 8) :
    (b.toUInt32 &&& UInt32.ofNat (2 ^ n - 1)).toNat = b.toNat % 2 ^ n := by
  have hlt : 2 ^ n ≤ 2 ^ 8 := Nat.pow_le_pow_right (by decide) hn
  rw [UInt32.toNat_and, toNat_widen, UInt32.toNat_ofNat', Nat.mod_eq_of_lt (by omega)]
  exact Nat.and_two_pow_sub_one_eq_mod b.toNat n

theorem toNat_top (b : UInt8) : ((b.toUInt32 &&& 128) >>> 7).toNat = b.toNat / 128 := by
  have hlt := b.toNat_lt
  rw [UInt32.toNat_shiftRight, UInt32.toNat_and, toNat_widen]
  show (b.toNat &&& 128) >>> 7 = b.toNat / 128
  rw [Nat.shiftRight_and_distrib]
  show b.toNat >>> 7 &&& 1 = _
  rw [Nat.and_one_is_mod, Nat.shiftRight_eq_div_pow]
  omega

theorem toNat_high (b : UInt8) : (b.toUInt32 >>> 6).toNat = b.toNat / 64 := by
  rw [UInt32.toNat_shiftRight, toNat_widen]
  exact Nat.shiftRight_eq_div_pow ..

theorem toNat_shiftLeft {x s : UInt32} (hs : s.toNat < 32) (h : x.toNat * 2 ^ s.toNat < 2 ^ 32) :
    (x <<< s).toNat = x.toNat * 2 ^ s.toNat := by
  rw [UInt32.toNat_shiftLeft, Nat.mod_eq_of_lt hs, Nat.shiftLeft_eq, Nat.mod_eq_of_lt h]

theorem toNat_shl {x : UInt32} {m n : Nat} (hx : x.toNat = m) (hn : n < 32)
    (h : m * 2 ^ n < 2 ^ 32) : (x <<< UInt32.ofNat n).toNat = m * 2 ^ n := by
  have hs : (UInt32.ofNat n).toNat = n := UInt32.toNat_ofNat_of_lt (Nat.lt_trans hn (by decide))
  rw [toNat_shiftLeft (by rwa [hs]) (by rwa [hs, hx]), hs, hx]

/-! ## The driver -/

theorem sectors_version_2 (hversion : b0.toNat / 64 = 1)
    (hlt : (b7.toNat % 64 * 65536 + b8.toNat * 256 + b9.toNat + 1) * 1024 < 2 ^ 32) :
    (sectors [b0, b1, b2, b3, b4, b5, b6, b7, b8, b9, b10, b11, b12, b13, b14, b15]).toNat =
      (b7.toNat % 64 * 65536 + b8.toNat * 256 + b9.toNat + 1) * 1024 := by
  have h8 := b8.toNat_lt
  have h9 := b9.toNat_lt
  have hv : b0.toUInt32 >>> 6 = 1 := UInt32.toNat.inj ((toNat_high b0).trans hversion)
  have hlow : (b7.toUInt32 &&& 63).toNat = b7.toNat % 64 := toNat_low b7 (by decide : 6 ≤ 8)
  have hmid : (b8.toUInt32 <<< 8).toNat = b8.toNat * 2 ^ 8 :=
    toNat_shl (toNat_widen b8) (n := 8) (by decide) (by clear hlt; omega)
  have hhigh : ((b7.toUInt32 &&& 63) <<< 16).toNat = b7.toNat % 64 * 2 ^ 16 :=
    toNat_shl hlow (n := 16) (by decide) (by clear hlt; omega)
  have hsize : (b9.toUInt32 + b8.toUInt32 <<< 8 + (b7.toUInt32 &&& 63) <<< 16 + 1).toNat =
      b7.toNat % 64 * 65536 + b8.toNat * 256 + b9.toNat + 1 := by
    rw [UInt32.toNat_add, UInt32.toNat_add, UInt32.toNat_add, hmid, hhigh, toNat_widen]
    rw [show (1 : UInt32).toNat = 1 from rfl]
    omega
  refine (congrArg UInt32.toNat (if_pos hv)).trans ?_
  rw [← hsize] at hlt ⊢
  exact toNat_shiftLeft (by decide) hlt

theorem sectors_version_1 (hversion : b0.toNat / 64 = 0) (hmin : 9 ≤ b5.toNat % 16)
    (hmax : b5.toNat % 16 ≤ 11) :
    (sectors [b0, b1, b2, b3, b4, b5, b6, b7, b8, b9, b10, b11, b12, b13, b14, b15]).toNat =
      (b6.toNat % 4 * 1024 + b7.toNat * 4 + b8.toNat / 64 + 1) *
        2 ^ (b5.toNat % 16 + (b9.toNat % 4 * 2 + b10.toNat / 128) - 7) := by
  have h7 := b7.toNat_lt
  have h8 := b8.toNat_lt
  have h10 := b10.toNat_lt
  have hv : ¬b0.toUInt32 >>> 6 = 1 := by
    intro hv
    have hone := congrArg UInt32.toNat hv
    rw [toNat_high, hversion] at hone
    cases hone
  have hlow5 : (b5.toUInt32 &&& 15).toNat = b5.toNat % 16 := toNat_low b5 (by decide : 4 ≤ 8)
  have hlow6 : (b6.toUInt32 &&& 3).toNat = b6.toNat % 4 := toNat_low b6 (by decide : 2 ≤ 8)
  have hlow9 : (b9.toUInt32 &&& 3).toNat = b9.toNat % 4 := toNat_low b9 (by decide : 2 ≤ 8)
  have hmid : (b7.toUInt32 <<< 2).toNat = b7.toNat * 2 ^ 2 :=
    toNat_shl (toNat_widen b7) (n := 2) (by decide) (by omega)
  have hhigh : ((b6.toUInt32 &&& 3) <<< 10).toNat = b6.toNat % 4 * 2 ^ 10 :=
    toNat_shl hlow6 (n := 10) (by decide) (by omega)
  have hfactor : ((b9.toUInt32 &&& 3) <<< 1).toNat = b9.toNat % 4 * 2 ^ 1 :=
    toNat_shl hlow9 (n := 1) (by decide) (by omega)
  have hsize : (b8.toUInt32 >>> 6 + b7.toUInt32 <<< 2 + (b6.toUInt32 &&& 3) <<< 10 + 1).toNat =
      b6.toNat % 4 * 1024 + b7.toNat * 4 + b8.toNat / 64 + 1 := by
    rw [UInt32.toNat_add, UInt32.toNat_add, UInt32.toNat_add, toNat_high, hmid, hhigh]
    rw [show (1 : UInt32).toNat = 1 from rfl]
    omega
  have hshift : ((b5.toUInt32 &&& (15 : UInt32)) +
      ((b10.toUInt32 &&& (128 : UInt32)) >>> 7 + (b9.toUInt32 &&& (3 : UInt32)) <<< 1) + 2 - 9).toNat =
        b5.toNat % 16 + (b9.toNat % 4 * 2 + b10.toNat / 128) - 7 := by
    have hsum : ((b5.toUInt32 &&& (15 : UInt32)) +
        ((b10.toUInt32 &&& (128 : UInt32)) >>> 7 + (b9.toUInt32 &&& (3 : UInt32)) <<< 1) + 2).toNat =
          b5.toNat % 16 + (b9.toNat % 4 * 2 + b10.toNat / 128) + 2 := by
      rw [UInt32.toNat_add, UInt32.toNat_add, UInt32.toNat_add, hlow5, toNat_top, hfactor]
      rw [show (2 : UInt32).toNat = 2 from rfl]
      omega
    have hnine : (9 : UInt32).toNat = 9 := rfl
    rw [UInt32.toNat_sub_of_le _ _ (UInt32.le_iff_toNat_le.mpr (by rw [hsum, hnine]; omega)), hsum,
      hnine]
    omega
  have hsectors : sectors [b0, b1, b2, b3, b4, b5, b6, b7, b8, b9, b10, b11, b12, b13, b14, b15] =
      (b8.toUInt32 >>> 6 + b7.toUInt32 <<< 2 + (b6.toUInt32 &&& 3) <<< 10 + 1) <<<
        ((b5.toUInt32 &&& (15 : UInt32)) + ((b10.toUInt32 &&& (128 : UInt32)) >>> 7 +
          (b9.toUInt32 &&& (3 : UInt32)) <<< 1) + 2 - 9) := if_neg hv
  rw [hsectors, ← hsize, ← hshift]
  have hle : 2 ^ (b5.toNat % 16 + (b9.toNat % 4 * 2 + b10.toNat / 128) - 7) ≤ 2 ^ 11 :=
    Nat.pow_le_pow_right (by decide) (by omega)
  refine toNat_shiftLeft (by rw [hshift]; omega) ?_
  rw [hsize, hshift]
  calc _ ≤ 4096 * 2 ^ 11 := Nat.mul_le_mul (by omega) hle
    _ < 2 ^ 32 := by decide

end Bytes

/-- **The driver reads the capacity.** -/
theorem sectors_eq {csd : List UInt8} (hlen : csd.length = 16) {capacity : Nat}
    (h : Tells csd capacity) (hlt : capacity < 2 ^ 32) : sectors csd = UInt32.ofNat capacity := by
  apply UInt32.toNat.inj
  rw [UInt32.toNat_ofNat', Nat.mod_eq_of_lt hlt]
  match csd, hlen with
  | [b0, b1, b2, b3, b4, b5, b6, b7, b8, b9, b10, b11, b12, b13, b14, b15], _ =>
    obtain ⟨hversion, hsize, hlength, hsize', hfactor⟩ :=
      @bits_bytes b0 b1 b2 b3 b4 b5 b6 b7 b8 b9 b10 b11 b12 b13 b14 b15
    obtain ⟨hv, hcapacity⟩ | ⟨hv, hmin, hmax, hcapacity⟩ := h
    · rw [hversion] at hv
      rw [hsize] at hcapacity
      rw [hcapacity] at hlt ⊢
      exact sectors_version_2 hv hlt
    · rw [hversion] at hv
      rw [hlength] at hmin hmax hcapacity
      rw [hsize', hfactor] at hcapacity
      rw [sectors_version_1 hv hmin hmax]
      apply Nat.eq_of_mul_eq_mul_right (show 0 < 2 ^ 9 by decide)
      rw [Nat.mul_assoc, ← Nat.pow_add, ← show 512 = 2 ^ 9 from rfl, hcapacity, Nat.mul_assoc,
        ← Nat.pow_add]
      congr 2
      omega

end Miso.Sd

import Miso.Fat.Volume
import Miso.Sd.Array

/-!
# The bytes of a sector

* `byte_setByte`, `byte_st_word`, `byte_st_dword` — the bytes of a sector after one, two or four of
  them have been stored;
* `ld_word_st_word`, `ld_dword_st_dword` — what has been stored is loaded.
-/

namespace Miso.Fat

open Sd

theorem byte_received (l : List UInt8) {j : Nat} (hj : j < 512) :
    byte (Card.received l) j = l.getD j 0 := by
  simp [byte, Card.received, hj]

theorem byte_setByte (b : Block) {i j : Nat} (x : UInt8) (hi : i < 512) (hj : j < 512) :
    byte (setByte b i x) j = if j = i then x else byte b j := by
  have hlen : i < b.toList.length := by rw [Vector.length_toList]; exact hi
  unfold setByte
  rw [byte_received _ hj]
  by_cases h : j = i
  · subst h
    rw [if_pos rfl, List.getD_eq_getElem?_getD, List.getElem?_set_self hlen]
    rfl
  · rw [if_neg h, List.getD_eq_getElem?_getD, List.getElem?_set_ne (Ne.symm h)]
    rfl

/-- Two bytes, the lower one first. -/
theorem word_eq (a b : UInt8) : b.toNat <<< 8 ||| a.toNat = a.toNat + 256 * b.toNat := by
  rw [← Nat.shiftLeft_add_eq_or_of_lt (i := 8) a.toNat_lt, Nat.shiftLeft_eq]
  omega

theorem dword_eq (a b c d : UInt8) :
    ((d.toNat <<< 8 ||| c.toNat) <<< 8 ||| b.toNat) <<< 8 ||| a.toNat =
      a.toNat + 256 * b.toNat + 65536 * c.toNat + 16777216 * d.toNat := by
  rw [← Nat.shiftLeft_add_eq_or_of_lt (i := 8) a.toNat_lt, ← Nat.shiftLeft_add_eq_or_of_lt (i := 8) b.toNat_lt,
    ← Nat.shiftLeft_add_eq_or_of_lt (i := 8) c.toNat_lt]
  simp only [Nat.shiftLeft_eq]
  omega

theorem byte_st_word {b : Block} {p v j : Nat} (hp : p + 1 < 512) (hj : j < 512) :
    byte (st_word b p v) j =
      if j = p + 1 then UInt8.ofNat (v >>> 8) else if j = p then UInt8.ofNat v else byte b j := by
  unfold st_word
  rw [byte_setByte _ _ hp hj, byte_setByte _ _ (by omega) hj]

theorem byte_st_dword {b : Block} {p v j : Nat} (hp : p + 3 < 512) (hj : j < 512) :
    byte (st_dword b p v) j =
      if j = p + 3 then UInt8.ofNat (v >>> 24) else if j = p + 2 then UInt8.ofNat (v >>> 16)
      else if j = p + 1 then UInt8.ofNat (v >>> 8) else if j = p then UInt8.ofNat v else byte b j := by
  unfold st_dword
  rw [byte_setByte _ _ hp hj, byte_setByte _ _ (by omega) hj, byte_setByte _ _ (by omega) hj,
    byte_setByte _ _ (by omega) hj]

/-- A word that is written elsewhere. -/
theorem ld_word_congr {b b' : Block} {p : Nat} (h : ∀ j, p ≤ j → j < p + 2 → byte b' j = byte b j) :
    ld_word b' p = ld_word b p := by
  unfold ld_word
  rw [h p (Nat.le_refl _) (by omega), h (p + 1) (by omega) (by omega)]

theorem ld_dword_congr {b b' : Block} {p : Nat} (h : ∀ j, p ≤ j → j < p + 4 → byte b' j = byte b j) :
    ld_dword b' p = ld_dword b p := by
  unfold ld_dword
  rw [h p (Nat.le_refl _) (by omega), h (p + 1) (by omega) (by omega), h (p + 2) (by omega) (by omega),
    h (p + 3) (by omega) (by omega)]

theorem ld_word_st_word {b : Block} {p v : Nat} (hp : p + 1 < 512) : ld_word (st_word b p v) p = v % 65536 := by
  unfold ld_word
  rw [byte_st_word hp hp, byte_st_word hp (by omega), if_pos rfl, if_neg (by omega), if_pos rfl, word_eq,
    UInt8.toNat_ofNat', UInt8.toNat_ofNat', Nat.shiftRight_eq_div_pow]
  omega

theorem ld_dword_st_dword {b : Block} {p v : Nat} (hp : p + 3 < 512) :
    ld_dword (st_dword b p v) p = v % 4294967296 := by
  unfold ld_dword
  rw [byte_st_dword hp hp, byte_st_dword hp (by omega), byte_st_dword hp (by omega), byte_st_dword hp (by omega),
    if_pos rfl, if_neg (by omega), if_pos rfl, if_neg (by omega), if_neg (by omega), if_pos rfl,
    if_neg (by omega), if_neg (by omega), if_neg (by omega), if_pos rfl, dword_eq, UInt8.toNat_ofNat',
    UInt8.toNat_ofNat', UInt8.toNat_ofNat', UInt8.toNat_ofNat', Nat.shiftRight_eq_div_pow,
    Nat.shiftRight_eq_div_pow, Nat.shiftRight_eq_div_pow]
  omega

end Miso.Fat

import Miso.Fat.Allocation
import Miso.Fat.File

/-!
# The contents of an open file

* `Geometry.sectorOf` — the sector of a byte of a file, from its clusters;
* `patch` — the contents of a file, of which not every byte is known, after bytes have been written;
* `Buffered` — the contents are on the disk, but for a sector that is dirty in the buffer;
* `Buffered.flush`, `Buffered.load`, `Buffered.write`, `Buffered.edit` — the buffer is written back or
  filled, sectors are written past it, and bytes are written into it;
* `Buffered.apart` — writing to other clusters does not change a file.
-/

namespace Miso.Fat

open Sd Zig

/-! ## Sectors and clusters -/

namespace Geometry

variable (G : Geometry)

/-- The number of bytes of a cluster. -/
def bcs : Nat := G.csize * 512

/-- The first sector of a cluster. -/
def base (c : Nat) : Nat := G.database + G.csize * (c - 2)

/-- A sector of the cluster `c`. -/
def InCluster (c s : Nat) : Prop := G.base c ≤ s ∧ s < G.base c + G.csize

/-- The sector of the byte `o` of a file with the clusters `l`. -/
def sectorOf (l : List Nat) (o : Nat) : Nat := G.base (l.getD (o / G.bcs) 0) + o / 512 % G.csize

variable {G}

theorem csize_eq : ∃ k, k < 8 ∧ G.csize = 2 ^ k := by
  have hpos := G.csize_pos
  obtain ⟨k, hk⟩ := (Nat.and_sub_one_eq_zero_iff_isPowerOfTwo (by omega)).mp G.csize_pow
  refine ⟨k, ?_, hk⟩
  by_contra hge
  have hle : 2 ^ 8 ≤ 2 ^ k := Nat.pow_le_pow_right (by decide) (Nat.not_lt.mp hge)
  have hlt := G.csize_lt
  omega

/-- The sector offset in the cluster. -/
theorem csect_eq (x : Nat) : x &&& (G.csize - 1) = x % G.csize := by
  obtain ⟨k, -, hk⟩ := G.csize_eq
  rw [hk, Nat.and_two_pow_sub_one_eq_mod]

/-- The start of the cluster. -/
theorem mask_eq {x : Nat} (hx : x < 4294967296) : x &&& (4294967295 - (G.csize * 512 - 1)) = x / G.bcs * G.bcs := by
  obtain ⟨k, hk8, hk⟩ := G.csize_eq
  have hbcs : G.csize * 512 = 2 ^ (k + 9) := by rw [hk, Nat.pow_add]
  have hmask : 4294967295 - (2 ^ (k + 9) - 1) = (2 ^ (32 - (k + 9)) - 1) <<< (k + 9) := by
    have hpow : 2 ^ (32 - (k + 9)) * 2 ^ (k + 9) = 4294967296 := by
      rw [← Nat.pow_add, show 32 - (k + 9) + (k + 9) = 32 by omega]
    have hpos := Nat.two_pow_pos (k + 9)
    rw [Nat.shiftLeft_eq, Nat.sub_mul, hpow]
    omega
  unfold bcs
  rw [hbcs, hmask, ← Nat.shiftLeft_eq]
  refine Nat.eq_of_testBit_eq fun i => ?_
  rw [Nat.testBit_and, Nat.testBit_shiftLeft, Nat.testBit_shiftLeft, Nat.testBit_two_pow_sub_one,
    Nat.testBit_div_two_pow]
  by_cases hi : k + 9 ≤ i
  · rw [Nat.sub_add_cancel hi]
    by_cases hi32 : i < 32
    · have hlt : i - (k + 9) < 23 - k := by omega
      simp [hi, hlt]
    · have hbit : x.testBit i = false := Nat.testBit_lt_two_pow (Nat.lt_of_lt_of_le hx
        (Nat.pow_le_pow_right (n := 2) (by decide) (Nat.not_lt.mp hi32)))
      simp [hbit]
  · simp [hi]

theorem database_pos : 0 < G.database := by
  have hvol := G.volbase_lt
  have hsize := G.fsize_le
  omega

theorem clst2sect_eq {c : Nat} (hlow : 2 ≤ c) (hhigh : c < G.n_fatent) : clst2sect G c = G.base c := by
  have hlimit := Nat.le_trans G.le_limit (Nat.le_of_lt G.fs_type.limit_lt)
  have hmodulus := G.fs_type.modulus_le
  unfold clst2sect base
  rw [show (c + 4294967294) % 4294967296 = c - 2 by omega]
  exact if_neg (by omega)

theorem base_ne (c : Nat) : G.base c ≠ 0 := by
  have hpos := G.database_pos
  unfold base
  omega

/-- Clusters are apart. -/
theorem InCluster.eq {c d s : Nat} (hc : G.InCluster c s) (hd : G.InCluster d s) (hlow : 2 ≤ c)
    (hlow' : 2 ≤ d) : c = d := by
  have h₁ : (s - G.database) / G.csize = c - 2 := by
    obtain ⟨hl, hh⟩ := hc
    unfold base at hl hh
    exact Nat.div_eq_of_lt_le (by rw [Nat.mul_comm]; omega) (by rw [Nat.mul_comm, Nat.mul_succ]; omega)
  have h₂ : (s - G.database) / G.csize = d - 2 := by
    obtain ⟨hl, hh⟩ := hd
    unfold base at hl hh
    exact Nat.div_eq_of_lt_le (by rw [Nat.mul_comm]; omega) (by rw [Nat.mul_comm, Nat.mul_succ]; omega)
  omega

/-- The sectors of a cluster are on the disk, behind the tables. -/
theorem InCluster.range {c s : Nat} (h : G.InCluster c s) (hlow : 2 ≤ c) (hhigh : c < G.n_fatent) :
    G.database ≤ s ∧ s < G.capacity := by
  obtain ⟨hl, hh⟩ := h
  have hdata := G.data_le
  have hle : G.csize * (c - 2) + G.csize ≤ G.csize * (G.n_fatent - 2) := by
    rw [← Nat.mul_succ]
    exact Nat.mul_le_mul_left _ (by omega)
  unfold base at hl hh
  omega

theorem InCluster.core {c s : Nat} (h : G.InCluster c s) (hlow : 2 ≤ c) (hhigh : c < G.n_fatent) :
    G.Core s ∧ ¬G.First s := by
  obtain ⟨hl, hh⟩ := h.range hlow hhigh
  obtain ⟨htable, hdata, hsecond⟩ := G.fsize_le
  refine ⟨⟨hh, fun hs => ?_, fun hs => ?_⟩, fun hs => ?_⟩
  · have hend := hsecond hs.1
    exact absurd hs.2.2 (by omega)
  · have hlt := G.fsinfo_lt hs.1
    exact absurd hs.2 (by omega)
  · exact absurd hs.2 (by omega)

theorem bcs_pos : 0 < G.bcs := Nat.mul_pos G.csize_pos (by decide)

theorem div_bcs (o : Nat) : o / 512 / G.csize = o / G.bcs := by
  rw [Nat.div_div_eq_div_mul, Nat.mul_comm]
  rfl

/-- A byte of a file is in one of its clusters. -/
theorem sectorOf_mem {l : List Nat} {o : Nat} (ho : o < l.length * G.bcs) :
    ∃ c ∈ l, l[o / G.bcs]? = some c ∧ G.InCluster c (G.sectorOf l o) := by
  have hlt : o / G.bcs < l.length := (Nat.div_lt_iff_lt_mul G.bcs_pos).mpr ho
  refine ⟨l[o / G.bcs], List.getElem_mem hlt, List.getElem?_eq_getElem hlt, ?_⟩
  have hmod := Nat.mod_lt (o / 512) G.csize_pos
  unfold sectorOf
  rw [List.getD_eq_getElem?_getD, List.getElem?_eq_getElem hlt, Option.getD_some]
  exact ⟨Nat.le_add_right _ _, by omega⟩

/-- Sectors of a file are apart. -/
theorem sectorOf_inj {l : List Nat} {o o' : Nat} (hnd : l.Nodup) (hlow : ∀ c ∈ l, 2 ≤ c)
    (ho : o < l.length * G.bcs) (ho' : o' < l.length * G.bcs) (heq : G.sectorOf l o = G.sectorOf l o') :
    o / 512 = o' / 512 := by
  obtain ⟨c, hc, hget, hin⟩ := sectorOf_mem ho
  obtain ⟨d, hd, hget', hin'⟩ := sectorOf_mem ho'
  have hcd : c = d := InCluster.eq (heq ▸ hin) hin' (hlow c hc) (hlow d hd)
  have hidx : o / G.bcs = o' / G.bcs := by
    have hlt : o / G.bcs < l.length := (Nat.div_lt_iff_lt_mul G.bcs_pos).mpr ho
    exact (List.getElem?_inj hlt hnd).mp (by rw [hget, hget', hcd])
  unfold sectorOf at heq
  rw [hidx] at heq
  have hmod : o / 512 % G.csize = o' / 512 % G.csize := Nat.add_left_cancel heq
  rw [← Nat.div_add_mod (o / 512) G.csize, ← Nat.div_add_mod (o' / 512) G.csize, div_bcs, div_bcs,
    hidx, hmod]

/-- Bytes of the same sector. -/
theorem sectorOf_same {l : List Nat} {p o : Nat} (h : o / 512 = p / 512) :
    G.sectorOf l o = G.sectorOf l p ∧ o / G.bcs = p / G.bcs := by
  have hidx : o / G.bcs = p / G.bcs := by rw [← div_bcs, ← div_bcs, h]
  refine ⟨?_, hidx⟩
  unfold sectorOf
  rw [hidx, h]

/-- Bytes behind another one in its cluster. -/
theorem sectorOf_stretch {l : List Nat} {p o : Nat} (hp : p % 512 = 0) (hle : p ≤ o)
    (hin : p / 512 % G.csize + (o - p) / 512 < G.csize) :
    G.sectorOf l o = G.sectorOf l p + (o - p) / 512 ∧ o / G.bcs = p / G.bcs := by
  have hsum : o / 512 = G.csize * (p / 512 / G.csize) + (p / 512 % G.csize + (o - p) / 512) := by
    have hdiv := Nat.div_add_mod (p / 512) G.csize
    omega
  have hidx : o / G.bcs = p / G.bcs := by
    rw [← div_bcs o, hsum, Nat.mul_add_div G.csize_pos, Nat.div_eq_of_lt hin, Nat.add_zero, div_bcs]
  refine ⟨?_, hidx⟩
  unfold sectorOf
  rw [hidx, hsum, Nat.mul_add_mod, Nat.mod_eq_of_lt hin, Nat.add_assoc]

/-- The bytes of a stretch of sectors. -/
theorem mem_stretch {l : List Nat} {p o cc : Nat} (hnd : l.Nodup) (hlow : ∀ c ∈ l, 2 ≤ c)
    (hp : p % 512 = 0) (hpl : p < l.length * G.bcs) (hcc : p / 512 % G.csize + cc ≤ G.csize)
    (ho : o < l.length * G.bcs) (hs : G.sectorOf l p ≤ G.sectorOf l o)
    (hs' : G.sectorOf l o < G.sectorOf l p + cc) : p ≤ o ∧ o < p + 512 * cc := by
  obtain ⟨k, hk⟩ := Nat.exists_eq_add_of_le hs
  have hsub : (p + 512 * k - p) / 512 = k := by omega
  obtain ⟨heq, hidx⟩ := sectorOf_stretch (G := G) (l := l) (o := p + 512 * k) hp (Nat.le_add_right _ _)
    (by rw [hsub]; omega)
  rw [hsub, ← hk] at heq
  have hlt : p + 512 * k < l.length * G.bcs := by
    refine (Nat.div_lt_iff_lt_mul G.bcs_pos).mp ?_
    rw [hidx]
    exact (Nat.div_lt_iff_lt_mul G.bcs_pos).mpr hpl
  have hdiv := sectorOf_inj hnd hlow ho hlt heq.symm
  omega

end Geometry

/-! ## The bytes of a file -/

/-- Bytes have been written from `p` on. -/
def patch (f : Nat → Option UInt8) (p : Nat) (bytes : List UInt8) : Nat → Option UInt8 := fun o =>
  if p ≤ o ∧ o < p + bytes.length then bytes[o - p]? else f o

theorem patch_nil (f : Nat → Option UInt8) (p : Nat) : patch f p [] = f := by
  funext o
  exact if_neg (by simp only [List.length_nil]; omega)

theorem patch_append (f : Nat → Option UInt8) (p : Nat) (xs ys : List UInt8) :
    patch (patch f p xs) (p + xs.length) ys = patch f p (xs ++ ys) := by
  funext o
  unfold patch
  rw [List.length_append]
  by_cases hy : p + xs.length ≤ o ∧ o < p + xs.length + ys.length
  · rw [if_pos hy, if_pos (by omega), List.getElem?_append_right (by omega)]
    congr 1
    omega
  · rw [if_neg hy]
    by_cases hx : p ≤ o ∧ o < p + xs.length
    · rw [if_pos hx, if_pos (by omega), List.getElem?_append_left (by omega)]
    · rw [if_neg hx, if_neg (by omega)]

theorem byte_splice {b : Block} {ofs j : Nat} {bytes : List UInt8} (hfit : ofs + bytes.length ≤ 512)
    (hj : j < 512) : byte (splice b ofs bytes) j =
      if ofs ≤ j ∧ j < ofs + bytes.length then bytes.getD (j - ofs) 0 else byte b j := by
  have hlen : b.toList.length = 512 := Vector.length_toList
  have htake : (b.toList.take ofs).length = ofs := by
    rw [List.length_take, hlen]
    omega
  unfold splice byte
  rw [show (Card.received (b.toList.take ofs ++ bytes ++ b.toList.drop (ofs + bytes.length))).toList.getD j 0
    = (b.toList.take ofs ++ bytes ++ b.toList.drop (ofs + bytes.length)).getD j 0 from byte_received _ hj]
  simp only [List.getD_eq_getElem?_getD]
  by_cases hlow : j < ofs
  · rw [if_neg (by omega), List.append_assoc, List.getElem?_append_left (by omega),
      List.getElem?_take_of_lt hlow]
  · by_cases hmid : j < ofs + bytes.length
    · rw [if_pos (by omega), List.append_assoc, List.getElem?_append_right (by omega), htake,
        List.getElem?_append_left (by omega)]
    · rw [if_neg (by omega), List.getElem?_append_right (by rw [List.length_append, htake]; omega),
        List.length_append, htake, List.getElem?_drop]
      congr 2
      omega

theorem get_byte {b : Block} {j : Nat} (hj : j < 512) : b.toList[j]? = some (byte b j) := by
  have hlen : b.toList.length = 512 := Vector.length_toList
  unfold byte
  rw [List.getD_eq_getElem?_getD, List.getElem?_eq_getElem (by omega)]
  rfl

theorem load_get {data : Nat → Block} {s n k : Nat} (hk : k < 512 * n) :
    (load data s n)[k]? = some (byte (data (s + k / 512)) (k % 512)) := by
  induction n generalizing s k with
  | zero => omega
  | succ n ih =>
    have hlen : (data s).toList.length = 512 := Vector.length_toList
    have hstep : load data s (n + 1) = (data s).toList ++ load data (s + 1) n := rfl
    rw [hstep]
    by_cases hlt : k < 512
    · rw [List.getElem?_append_left (by omega), show k / 512 = 0 by omega, show k % 512 = k by omega]
      exact get_byte hlt
    · rw [List.getElem?_append_right (by omega), hlen, ih (by omega),
        show s + 1 + (k - 512) / 512 = s + k / 512 by omega, show (k - 512) % 512 = k % 512 by omega]

theorem load_length (data : Nat → Block) (s n : Nat) : (load data s n).length = 512 * n := by
  induction n generalizing s with
  | zero => rfl
  | succ n ih =>
    have hstep : load data s (n + 1) = (data s).toList ++ load data (s + 1) n := rfl
    rw [hstep, List.length_append, ih, show (data s).toList.length = 512 from Vector.length_toList]
    omega

/-- The size of a file, and where its clusters begin. -/
structure Sized (G : Geometry) (l : List Nat) (spec : Nat → Option UInt8) (fp : FIL) : Prop where
  start : fp.sclust = l.head?.getD 0
  below : ∀ o b, spec o = some b → o < fp.objsize
  fits : fp.objsize ≤ l.length * G.bcs
  size_lt : fp.objsize < 4294967296

/-- **The bytes of a file are on the disk**, but for a dirty sector in the buffer. -/
structure Buffered (G : Geometry) (data : Nat → Block) (l : List Nat) (spec : Nat → Option UInt8)
    (fp : FIL) : Prop where
  kept : ∀ o b, spec o = some b → (fp.FA_DIRTY = true → fp.sect ≠ G.sectorOf l o) →
    byte (data (G.sectorOf l o)) (o % 512) = b
  held : ∀ o b, spec o = some b → fp.sect = G.sectorOf l o → byte fp.buf (o % 512) = b
  dirty : fp.FA_DIRTY = true → ∃ c ∈ l, G.InCluster c fp.sect
  sect_lt : fp.sect < 4294967296

/-- The pointer of a file. -/
structure Placed (G : Geometry) (l : List Nat) (fp : FIL) : Prop where
  fptr_le : fp.fptr ≤ fp.objsize
  clust : 0 < fp.fptr → l[(fp.fptr - 1) / G.bcs]? = some fp.clust
  sect : fp.fptr % 512 ≠ 0 → fp.sect = G.sectorOf l fp.fptr

/-- **An open file** with the clusters `l` and the contents `spec`. -/
structure Sound (G : Geometry) (data : Nat → Block) (l : List Nat) (spec : Nat → Option UInt8)
    (fp : FIL) : Prop where
  sized : Sized G l spec fp
  buffered : Buffered G data l spec fp
  placed : Placed G l fp

/-- Only sectors of the clusters `l` have been written. -/
def Own (G : Geometry) (l : List Nat) (data data' : Nat → Block) : Prop :=
  ∀ s, (∀ c ∈ l, ¬G.InCluster c s) → data' s = data s

/-- The bytes from `p` on are those that are known. -/
def Reads (spec : Nat → Option UInt8) (p : Nat) (bytes : List UInt8) : Prop :=
  ∀ k x, bytes[k]? = some x → ∀ b, spec (p + k) = some b → x = b

theorem Reads.nil {spec : Nat → Option UInt8} {p : Nat} : Reads spec p [] := fun k x hx => by
  rw [List.getElem?_nil] at hx
  exact absurd hx (by simp)

theorem Reads.append {spec : Nat → Option UInt8} {p : Nat} {xs ys : List UInt8} (hx : Reads spec p xs)
    (hy : Reads spec (p + xs.length) ys) : Reads spec p (xs ++ ys) := by
  intro k x hk b hb
  by_cases hlt : k < xs.length
  · rw [List.getElem?_append_left hlt] at hk
    exact hx k x hk b hb
  · rw [List.getElem?_append_right (Nat.not_lt.mp hlt)] at hk
    refine hy (k - xs.length) x hk b ?_
    rwa [Nat.add_assoc, Nat.add_sub_cancel' (Nat.not_lt.mp hlt)]

namespace Buffered

variable {G : Geometry} {data data' : Nat → Block} {l : List Nat} {spec : Nat → Option UInt8} {fp : FIL}

/-- The buffer is written back. -/
theorem flush (h : Buffered G data l spec fp) :
    Buffered G (Function.update data fp.sect fp.buf) l spec { fp with FA_DIRTY := false } := by
  refine ⟨fun o b ho _ => ?_, h.held, fun hd => absurd hd (by simp), h.sect_lt⟩
  by_cases hs : G.sectorOf l o = fp.sect
  · rw [hs, Function.update_self]
    exact h.held o b ho hs.symm
  · rw [Function.update_of_ne hs]
    exact h.kept o b ho fun _ heq => hs heq.symm

/-- The buffer is filled from the disk. -/
theorem load (h : Buffered G data l spec fp) (hd : fp.FA_DIRTY = false) {s : Nat} (hs : s < 4294967296) :
    Buffered G data l spec { fp with buf := data s, sect := s } := by
  have hclean (P : Prop) : fp.FA_DIRTY = true → P := fun hd' => absurd (hd.symm.trans hd') (by decide)
  refine ⟨fun o b ho _ => h.kept o b ho (hclean _), fun o b ho heq => ?_, hclean _, hs⟩
  have heq' : s = G.sectorOf l o := heq
  show byte (data s) (o % 512) = b
  rw [heq']
  exact h.kept o b ho (hclean _)

/-- **Bytes of the buffer** are those of its sector. -/
theorem part (h : Buffered G data l spec fp) {p m : Nat} (hs : fp.sect = G.sectorOf l p)
    (hm : p % 512 + m ≤ 512) : Reads spec p ((fp.buf.toList.drop (p % 512)).take m) := by
  intro k x hx b hb
  have hk : k < m := by
    by_contra hge
    rw [List.getElem?_take_eq_none (Nat.not_lt.mp hge)] at hx
    exact absurd hx (by simp)
  rw [List.getElem?_take_of_lt hk, List.getElem?_drop, get_byte (by omega)] at hx
  have hsame : G.sectorOf l (p + k) = G.sectorOf l p := (Geometry.sectorOf_same (by omega)).1
  have hheld := h.held (p + k) b hb (hs.trans hsame.symm)
  rw [show (p + k) % 512 = p % 512 + k by omega] at hheld
  exact (Option.some.inj hx).symm.trans hheld

/-- **Sectors are read past the buffer**, which may be dirty. -/
theorem read (h : Buffered G data l spec fp) {p cc : Nat} (hp : p % 512 = 0)
    (hcc : p / 512 % G.csize + cc ≤ G.csize) (hend : G.sectorOf l p + cc < 4294967296) :
    Reads spec p (f_read.cached fp (G.sectorOf l p) cc (Sd.load data (G.sectorOf l p) cc)) ∧
      (f_read.cached fp (G.sectorOf l p) cc (Sd.load data (G.sectorOf l p) cc)).length = 512 * cc := by
  have hlen := load_length data (G.sectorOf l p) cc
  have hbuf : fp.buf.toList.length = 512 := Vector.length_toList
  have hsect := h.sect_lt
  have hmem : ∀ k, k < 512 * cc → G.sectorOf l (p + k) = G.sectorOf l p + k / 512 := fun k hk => by
    have hsub : (p + k - p) / 512 = k / 512 := by omega
    have hs := (Geometry.sectorOf_stretch (G := G) (l := l) (o := p + k) hp (Nat.le_add_right _ _)
      (by omega)).1
    rwa [hsub] at hs
  have hplain : ∀ k x, k < 512 * cc → (Sd.load data (G.sectorOf l p) cc)[k]? = some x →
      (fp.FA_DIRTY = true → fp.sect ≠ G.sectorOf l (p + k)) → ∀ b, spec (p + k) = some b → x = b := by
    intro k x hk hx hne b hb
    rw [load_get hk, ← hmem k hk] at hx
    have hkept := h.kept (p + k) b hb hne
    rw [show (p + k) % 512 = k % 512 by omega] at hkept
    exact (Option.some.inj hx).symm.trans hkept
  have hlt : ∀ {bytes : List UInt8} {k x}, bytes.length = 512 * cc → bytes[k]? = some x → k < 512 * cc :=
    fun hlen hx => by
      obtain ⟨hk, -⟩ := List.getElem?_eq_some_iff.mp hx
      omega
  unfold f_read.cached
  by_cases hc : fp.FA_DIRTY ∧ (fp.sect + 4294967296 - G.sectorOf l p) % 4294967296 < cc
  · have hsub : (fp.sect + 4294967296 - G.sectorOf l p) % 4294967296 = fp.sect - G.sectorOf l p := by omega
    have hin : G.sectorOf l p ≤ fp.sect ∧ fp.sect < G.sectorOf l p + cc := by omega
    obtain ⟨j, hj⟩ := Nat.exists_eq_add_of_le hin.1
    rw [if_pos hc, hsub, show fp.sect - G.sectorOf l p = j by omega]
    have htake : ((Sd.load data (G.sectorOf l p) cc).take (j * 512)).length = j * 512 := by
      rw [List.length_take, hlen]
      omega
    have htotal : ((Sd.load data (G.sectorOf l p) cc).take (j * 512) ++ fp.buf.toList ++
        (Sd.load data (G.sectorOf l p) cc).drop (j * 512 + 512)).length = 512 * cc := by
      rw [List.length_append, List.length_append, htake, hbuf, List.length_drop, hlen]
      omega
    refine ⟨fun k x hx b hb => ?_, htotal⟩
    have hk := hlt htotal hx
    have hother : k / 512 ≠ j → fp.FA_DIRTY = true → fp.sect ≠ G.sectorOf l (p + k) := fun hne _ heq => by
      rw [hmem k hk] at heq
      omega
    by_cases hlow : k < j * 512
    · rw [List.append_assoc, List.getElem?_append_left (by omega), List.getElem?_take_of_lt hlow] at hx
      exact hplain k x hk hx (hother (by omega)) b hb
    · by_cases hmid : k < j * 512 + 512
      · rw [List.append_assoc, List.getElem?_append_right (by omega), htake,
          List.getElem?_append_left (by omega), get_byte (by omega)] at hx
        have hheld := h.held (p + k) b hb (by rw [hmem k hk]; omega)
        rw [show (p + k) % 512 = k - j * 512 by omega] at hheld
        exact (Option.some.inj hx).symm.trans hheld
      · rw [List.getElem?_append_right (by rw [List.length_append, htake, hbuf]; omega),
          List.length_append, htake, hbuf, List.getElem?_drop,
          show j * 512 + 512 + (k - (j * 512 + 512)) = k by omega] at hx
        exact hplain k x hk hx (hother (by omega)) b hb
  · rw [if_neg hc]
    refine ⟨fun k x hx b hb => ?_, hlen⟩
    have hk := hlt hlen hx
    refine hplain k x hk hx (fun hd heq => hc ⟨hd, ?_⟩) b hb
    rw [hmem k hk] at heq
    omega

/-- Another sector is in the buffer, of which no byte is known. -/
theorem fresh (h : Buffered G data l spec fp) (hd : fp.FA_DIRTY = false) {s : Nat} (hs : s < 4294967296)
    (hnone : ∀ o b, spec o = some b → G.sectorOf l o ≠ s) : Buffered G data l spec { fp with sect := s } := by
  have hclean (P : Prop) : fp.FA_DIRTY = true → P := fun hd' => absurd (hd.symm.trans hd') (by decide)
  exact ⟨fun o b ho _ => h.kept o b ho (hclean _), fun o b ho heq => absurd heq.symm (hnone o b ho),
    hclean _, hs⟩

/-- **Other clusters** have been written. -/
theorem apart (h : Buffered G data l spec fp) (hsize : Sized G l spec fp)
    (hdata : ∀ c ∈ l, ∀ s, G.InCluster c s → data' s = data s) : Buffered G data' l spec fp := by
  refine ⟨fun o b ho hne => ?_, h.held, h.dirty, h.sect_lt⟩
  obtain ⟨c, hc, -, hin⟩ := Geometry.sectorOf_mem (Nat.lt_of_lt_of_le (hsize.below o b ho) hsize.fits)
  rw [hdata c hc _ hin]
  exact h.kept o b ho hne

/-- The file has more clusters. -/
theorem extend (h : Buffered G data l spec fp) (hsize : Sized G l spec fp) (l' : List Nat) :
    Buffered G data (l ++ l') spec fp := by
  have hsect : ∀ o b, spec o = some b → G.sectorOf (l ++ l') o = G.sectorOf l o := by
    intro o b ho
    have hlt : o / G.bcs < l.length := (Nat.div_lt_iff_lt_mul G.bcs_pos).mpr
      (Nat.lt_of_lt_of_le (hsize.below o b ho) hsize.fits)
    unfold Geometry.sectorOf
    rw [List.getD_eq_getElem?_getD, List.getElem?_append_left hlt, ← List.getD_eq_getElem?_getD]
  refine ⟨fun o b ho hne => ?_, fun o b ho heq => ?_, fun hd => ?_, h.sect_lt⟩
  · rw [hsect o b ho] at hne ⊢
    exact h.kept o b ho hne
  · rw [hsect o b ho] at heq
    exact h.held o b ho heq
  · obtain ⟨d, hmem, hin⟩ := h.dirty hd
    exact ⟨d, List.mem_append_left _ hmem, hin⟩

variable (hnd : l.Nodup) (hlow : ∀ c ∈ l, 2 ≤ c)

include hnd hlow in
/-- **Sectors are written past the buffer.** -/
theorem write {p cc : Nat} {wbuff : List UInt8} (h : Buffered G data l spec fp)
    (hsize : Sized G l spec fp) (hd : fp.FA_DIRTY = false) (hp : p % 512 = 0)
    (hpl : p < l.length * G.bcs) (hcc : p / 512 % G.csize + cc ≤ G.csize)
    (hbuff : 512 * cc ≤ wbuff.length) (hend : G.sectorOf l p + cc < 4294967296) :
    Buffered G (store data (G.sectorOf l p) cc wbuff) l (patch spec p (wbuff.take (512 * cc)))
      (f_write.refill (G.sectorOf l p) cc wbuff fp) := by
  have hclean (P : Prop) : fp.FA_DIRTY = true → P := fun hd' => absurd (hd.symm.trans hd') (by decide)
  have hlen : (wbuff.take (512 * cc)).length = 512 * cc := by
    rw [List.length_take]
    omega
  have hbyte : ∀ o b, patch spec p (wbuff.take (512 * cc)) o = some b →
      byte (store data (G.sectorOf l p) cc wbuff (G.sectorOf l o)) (o % 512) = b := by
    intro o b ho
    unfold patch at ho
    rw [hlen] at ho
    by_cases hin : p ≤ o ∧ o < p + 512 * cc
    · rw [if_pos hin, List.getElem?_take_of_lt (by omega)] at ho
      obtain ⟨hs, -⟩ := Geometry.sectorOf_stretch (G := G) (l := l) hp hin.1 (by omega)
      have hstored : store data (G.sectorOf l p) cc wbuff (G.sectorOf l o) =
          Card.received (wbuff.drop (512 * (G.sectorOf l o - G.sectorOf l p))) :=
        if_pos (by omega)
      rw [hstored, byte_received _ (Nat.mod_lt _ (by decide)), List.getD_eq_getElem?_getD,
        List.getElem?_drop, show 512 * (G.sectorOf l o - G.sectorOf l p) + o % 512 = o - p by omega, ho]
      rfl
    · rw [if_neg hin] at ho
      have hol := Nat.lt_of_lt_of_le (hsize.below o b ho) hsize.fits
      have hstored : store data (G.sectorOf l p) cc wbuff (G.sectorOf l o) = data (G.sectorOf l o) :=
        if_neg fun hs => hin (Geometry.mem_stretch hnd hlow hp hpl hcc hol hs.1 hs.2)
      rw [hstored]
      exact h.kept o b ho (hclean _)
  have hsect := h.sect_lt
  unfold f_write.refill
  by_cases hk : (fp.sect + 4294967296 - G.sectorOf l p) % 4294967296 < cc
  · have hsub : (fp.sect + 4294967296 - G.sectorOf l p) % 4294967296 = fp.sect - G.sectorOf l p := by omega
    have hin : G.sectorOf l p ≤ fp.sect ∧ fp.sect < G.sectorOf l p + cc := by omega
    rw [if_pos hk, hsub]
    refine ⟨fun o b ho _ => hbyte o b ho, fun o b ho heq => ?_, fun hd' => absurd hd' (by simp), hsect⟩
    have heq' : fp.sect = G.sectorOf l o := heq
    have hstored : store data (G.sectorOf l p) cc wbuff fp.sect =
        Card.received (wbuff.drop (512 * (fp.sect - G.sectorOf l p))) := if_pos hin
    show byte (Card.received (wbuff.drop ((fp.sect - G.sectorOf l p) * 512))) (o % 512) = b
    rw [Nat.mul_comm, ← hstored, heq']
    exact hbyte o b ho
  · rw [if_neg hk]
    refine ⟨fun o b ho _ => hbyte o b ho, fun o b ho heq => ?_, hclean _, hsect⟩
    unfold patch at ho
    rw [hlen] at ho
    by_cases hin : p ≤ o ∧ o < p + 512 * cc
    · obtain ⟨hs, -⟩ := Geometry.sectorOf_stretch (G := G) (l := l) hp hin.1 (by omega)
      omega
    · rw [if_neg hin] at ho
      exact h.held o b ho heq

include hnd hlow in
/-- **Bytes are written into the buffer.** -/
theorem edit {p : Nat} {bytes : List UInt8} (h : Buffered G data l spec fp) (hsize : Sized G l spec fp)
    (hpl : p < l.length * G.bcs) (hs : fp.sect = G.sectorOf l p)
    (hfit : p % 512 + bytes.length ≤ 512) :
    Buffered G data l (patch spec p bytes)
      { fp with buf := splice fp.buf (p % 512) bytes, FA_DIRTY := true } := by
  have hsame : ∀ o, o / 512 = p / 512 → G.sectorOf l o = G.sectorOf l p := fun o ho =>
    (Geometry.sectorOf_same ho).1
  refine ⟨fun o b ho hne => ?_, fun o b ho heq => ?_, fun _ => ?_, h.sect_lt⟩
  · unfold patch at ho
    by_cases hin : p ≤ o ∧ o < p + bytes.length
    · exact absurd (hs.trans (hsame o (by omega)).symm) (hne rfl)
    · rw [if_neg hin] at ho
      exact h.kept o b ho fun _ => hne rfl
  · have heq' : fp.sect = G.sectorOf l o := heq
    show byte (splice fp.buf (p % 512) bytes) (o % 512) = b
    rw [byte_splice hfit (Nat.mod_lt _ (by decide))]
    unfold patch at ho
    by_cases hin : p ≤ o ∧ o < p + bytes.length
    · rw [if_pos hin] at ho
      rw [if_pos (by omega), List.getD_eq_getElem?_getD, show o % 512 - p % 512 = o - p by omega, ho]
      rfl
    · rw [if_neg hin] at ho
      have hol := Nat.lt_of_lt_of_le (hsize.below o b ho) hsize.fits
      have hdiv := Geometry.sectorOf_inj hnd hlow hol hpl (heq'.symm.trans hs)
      rw [if_neg (by omega)]
      exact h.held o b ho heq'
  · obtain ⟨c, hc, -, hin⟩ := Geometry.sectorOf_mem hpl
    exact ⟨c, hc, by show G.InCluster c fp.sect; rw [hs]; exact hin⟩

end Buffered

end Miso.Fat

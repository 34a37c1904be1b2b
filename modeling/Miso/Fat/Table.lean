import Miso.Fat.Window

/-!
# The entries of the table

* `FsType.entry`, `FsType.puts` — an entry of a table of 12, 16 or 32 bits, as a number, and how it
  is changed;
* `entry_puts`, `entry_puts_of_ne` — what has been put is read back, and the other entries stay;
* `get_fat_at`, `put_fat_at` — `get_fat` and `put_fat` read and change such a table, wherever its
  entries cross from one sector into the next.
-/

namespace Miso.Fat

open Sd Zig

/-! ## Bits -/

theorem low_toNat (p : UInt8) (n : Nat) :
    ((p &&& (0x0F : UInt8)) ||| (UInt8.ofNat n <<< (4 : UInt8))).toNat = p.toNat % 16 + 16 * (n % 16) := by
  have hp : (p &&& (0x0F : UInt8)).toNat = p.toNat % 16 := Nat.and_two_pow_sub_one_eq_mod p.toNat 4
  have hn : (UInt8.ofNat n <<< (4 : UInt8)).toNat = (n % 16) <<< 4 := by
    rw [UInt8.toNat_shiftLeft]
    show (n % 256) <<< 4 % 256 = (n % 16) <<< 4
    rw [Nat.shiftLeft_eq, Nat.shiftLeft_eq]
    omega
  rw [UInt8.toNat_or, hp, hn, Nat.or_comm,
    ← Nat.shiftLeft_add_eq_or_of_lt (i := 4) (Nat.mod_lt _ (by decide)), Nat.shiftLeft_eq]
  omega

theorem high_toNat (p : UInt8) (n : Nat) :
    ((p &&& (0xF0 : UInt8)) ||| (UInt8.ofNat n &&& (0x0F : UInt8))).toNat =
      p.toNat / 16 * 16 + n % 16 := by
  have hn : (UInt8.ofNat n &&& (0x0F : UInt8)).toNat = n % 16 := by
    show n % 256 &&& 15 = n % 16
    rw [show (15 : Nat) = 2 ^ 4 - 1 from rfl, Nat.and_two_pow_sub_one_eq_mod]
    omega
  have hp : (p &&& (0xF0 : UInt8)).toNat = (p.toNat / 16) <<< 4 := by
    have hall : ∀ m : Fin 256, m.val &&& 0xF0 = (m.val / 16) <<< 4 := by decide +kernel
    exact hall ⟨p.toNat, p.toNat_lt⟩
  rw [UInt8.toNat_or, hp, hn, ← Nat.shiftLeft_add_eq_or_of_lt (i := 4) (Nat.mod_lt _ (by decide)),
    Nat.shiftLeft_eq]

theorem masked_eq (x y : Nat) : ((x &&& 0x0FFFFFFF) ||| (y &&& 0xF0000000)) &&& 0x0FFFFFFF = x % 268435456 := by
  rw [Nat.and_or_distrib_right, Nat.and_assoc, Nat.and_assoc, Nat.and_self,
    show 0xF0000000 &&& 0x0FFFFFFF = 0 from rfl, Nat.and_zero, Nat.or_zero]
  exact Nat.and_two_pow_sub_one_eq_mod x 28

/-! ## Entries as numbers -/

namespace FsType

/-- An entry is less than this. -/
def modulus : FsType → Nat
  | FS_FAT12 => 4096
  | FS_FAT16 => 65536
  | FS_FAT32 => 268435456

/-- **An entry** of a table with the bytes `f`. -/
def entry (f : Nat → UInt8) (c : Nat) : FsType → Nat
  | FS_FAT12 =>
    let wc := (f (c + c / 2)).toNat + 256 * (f (c + c / 2 + 1)).toNat
    if c % 2 = 1 then wc / 16 else wc % 4096
  | FS_FAT16 => (f (c * 2)).toNat + 256 * (f (c * 2 + 1)).toNat
  | FS_FAT32 => ((f (c * 4)).toNat + 256 * (f (c * 4 + 1)).toNat + 65536 * (f (c * 4 + 2)).toNat +
      16777216 * (f (c * 4 + 3)).toNat) % 268435456

/-- What is stored in the four bytes of an entry of 32 bits. -/
def stored (f : Nat → UInt8) (c val : Nat) : Nat :=
  (val &&& 0x0FFFFFFF) ||| (((f (c * 4)).toNat + 256 * (f (c * 4 + 1)).toNat +
    65536 * (f (c * 4 + 2)).toNat + 16777216 * (f (c * 4 + 3)).toNat) &&& 0xF0000000)

/-- The bytes after an entry has been changed. -/
def puts (f : Nat → UInt8) (c val : Nat) : FsType → Nat → UInt8
  | FS_FAT12 =>
    Function.update (Function.update f (c + c / 2) (put_fat.low c val (f (c + c / 2))))
      (c + c / 2 + 1) (put_fat.high c val (f (c + c / 2 + 1)))
  | FS_FAT16 =>
    Function.update (Function.update f (c * 2) (UInt8.ofNat val)) (c * 2 + 1) (UInt8.ofNat (val >>> 8))
  | FS_FAT32 =>
    Function.update (Function.update (Function.update (Function.update f
      (c * 4) (UInt8.ofNat (stored f c val))) (c * 4 + 1) (UInt8.ofNat (stored f c val >>> 8)))
      (c * 4 + 2) (UInt8.ofNat (stored f c val >>> 16))) (c * 4 + 3) (UInt8.ofNat (stored f c val >>> 24))

variable {f : Nat → UInt8} {c c' val : Nat}

theorem entry_lt (t : FsType) : t.entry f c < t.modulus := by
  cases t with
  | FS_FAT12 =>
    have h₁ := (f (c + c / 2)).toNat_lt
    have h₂ := (f (c + c / 2 + 1)).toNat_lt
    show (if c % 2 = 1 then _ else _) < 4096
    split <;> omega
  | FS_FAT16 =>
    have h₁ := (f (c * 2)).toNat_lt
    have h₂ := (f (c * 2 + 1)).toNat_lt
    show _ + _ < 65536
    omega
  | FS_FAT32 => exact Nat.mod_lt _ (by decide)

theorem low_eq (p : UInt8) : (put_fat.low c val p).toNat =
    if c % 2 = 1 then p.toNat % 16 + 16 * (val % 16) else val % 256 := by
  unfold put_fat.low
  by_cases hc : c % 2 = 1
  · rw [if_pos hc, if_pos hc, low_toNat]
  · rw [if_neg hc, if_neg hc]
    rfl

theorem high_eq (p : UInt8) : (put_fat.high c val p).toNat =
    if c % 2 = 1 then val / 16 % 256 else p.toNat / 16 * 16 + val / 256 % 16 := by
  unfold put_fat.high
  by_cases hc : c % 2 = 1
  · rw [if_pos hc, if_pos hc]
    show (val >>> 4) % 256 = _
    rw [Nat.shiftRight_eq_div_pow]
  · rw [if_neg hc, if_neg hc, high_toNat, Nat.shiftRight_eq_div_pow]

theorem stored_mod : stored f c val % 268435456 = val % 268435456 :=
  (Nat.and_two_pow_sub_one_eq_mod _ 28).symm.trans (masked_eq val _)

/-- **What has been put is read back.** -/
theorem entry_puts (t : FsType) : t.entry (t.puts f c val) c = val % t.modulus := by
  cases t with
  | FS_FAT12 =>
    simp only [entry, puts, modulus, Function.update_self,
      Function.update_of_ne (Nat.ne_of_lt (Nat.lt_succ_self _)), low_eq, high_eq]
    have h₁ := (f (c + c / 2)).toNat_lt
    split <;> omega
  | FS_FAT16 =>
    simp only [entry, puts, modulus, Function.update_self,
      Function.update_of_ne (Nat.ne_of_lt (Nat.lt_succ_self _))]
    show val % 256 + 256 * ((val >>> 8) % 256) = val % 65536
    rw [Nat.shiftRight_eq_div_pow]
    omega
  | FS_FAT32 =>
    simp (disch := omega) only [entry, puts, Function.update_self, Function.update_of_ne]
    refine Eq.trans ?_ (stored_mod (f := f) (c := c))
    generalize stored f c val = x
    show (x % 256 + 256 * ((x >>> 8) % 256) + 65536 * ((x >>> 16) % 256) +
      16777216 * ((x >>> 24) % 256)) % 268435456 = x % 268435456
    simp only [Nat.shiftRight_eq_div_pow]
    omega

/-- **The other entries are left alone.** -/
theorem entry_puts_of_ne (t : FsType) (h : c' ≠ c) : t.entry (t.puts f c val) c' = t.entry f c' := by
  cases t with
  | FS_FAT12 =>
    by_cases hnext : c' = c + 1 ∧ c % 2 = 0
    · obtain ⟨rfl, hc⟩ := hnext
      have heq : c + 1 + (c + 1) / 2 = c + c / 2 + 1 := by omega
      have hodd : (c + 1) % 2 = 1 := by omega
      have heven : ¬c % 2 = 1 := by omega
      have h₁ := (f (c + c / 2 + 1)).toNat_lt
      simp (disch := omega) only [entry, puts, heq, Function.update_self, Function.update_of_ne, high_eq]
      rw [if_pos hodd, if_neg heven, if_pos hodd]
      omega
    by_cases hprev : c = c' + 1 ∧ c' % 2 = 0
    · obtain ⟨rfl, hc⟩ := hprev
      have heq : c' + 1 + (c' + 1) / 2 = c' + c' / 2 + 1 := by omega
      have hodd : (c' + 1) % 2 = 1 := by omega
      have heven : ¬c' % 2 = 1 := by omega
      simp (disch := omega) only [entry, puts, heq, Function.update_self, Function.update_of_ne, low_eq]
      rw [if_neg heven, if_pos hodd, if_neg heven]
      omega
    · simp (disch := omega) only [entry, puts, Function.update_of_ne]
  | FS_FAT16 =>
    simp (disch := omega) only [entry, puts, Function.update_of_ne]
  | FS_FAT32 =>
    simp (disch := omega) only [entry, puts, Function.update_of_ne]

end FsType

/-! ## The bytes of the table -/

namespace Geometry

variable (G : Geometry) (v : Nat → Block)

/-- The bytes of the first table. -/
def bytes (k : Nat) : UInt8 := byte (v (G.fatbase + k / 512)) (k % 512)

/-- A byte of the first table is replaced. -/
def poke (k : Nat) (x : UInt8) : Nat → Block :=
  Function.update v (G.fatbase + k / 512) (setByte (v (G.fatbase + k / 512)) (k % 512) x)

theorem bytes_poke (k : Nat) (x : UInt8) : G.bytes (G.poke v k x) = Function.update (G.bytes v) k x := by
  funext j
  have hj := Nat.mod_lt j (show 0 < 512 by decide)
  have hk := Nat.mod_lt k (show 0 < 512 by decide)
  unfold bytes poke
  by_cases hsect : j / 512 = k / 512
  · rw [hsect, Function.update_self, byte_setByte _ _ hk hj]
    by_cases heq : j = k
    · subst heq
      rw [if_pos rfl, Function.update_self]
    · rw [if_neg (by omega), Function.update_of_ne heq]
      exact congrArg (fun s => byte (v (G.fatbase + s)) (j % 512)) hsect.symm
  · rw [Function.update_of_ne (by omega), Function.update_of_ne (by rintro rfl; exact hsect rfl)]

theorem poke_frame {k i : Nat} {x : UInt8} (hk : k < G.fsize * 512) (hi : ¬G.First i) :
    G.poke v k x i = v i := by
  refine Function.update_of_ne ?_ _ _
  rintro rfl
  exact hi ⟨by omega, by omega⟩

theorem bytes_at {k s i : Nat} (hs : k / 512 = s) (hi : k % 512 = i) :
    G.bytes v k = byte (v (G.fatbase + s)) i := by
  subst hs hi
  rfl

theorem poke_at {k s i : Nat} {x : UInt8} (hs : k / 512 = s) (hi : k % 512 = i) :
    G.poke v k x = Function.update v (G.fatbase + s) (setByte (v (G.fatbase + s)) i x) := by
  subst hs hi
  rfl

/-- One more byte of a sector. -/
theorem poke_update {k s i : Nat} {x : UInt8} {b : Block} (hs : k / 512 = s) (hi : k % 512 = i) :
    G.poke (Function.update v (G.fatbase + s) b) k x =
      Function.update v (G.fatbase + s) (setByte b i x) := by
  rw [G.poke_at _ hs hi, Function.update_self, Function.update_idem]

/-- An entry of 32 bits is in one sector. -/
theorem ld_dword_at (c : Nat) : ld_dword (v (G.fatbase + c / (512 / 4))) (c * 4 % 512) =
    (G.bytes v (c * 4)).toNat + 256 * (G.bytes v (c * 4 + 1)).toNat +
      65536 * (G.bytes v (c * 4 + 2)).toNat + 16777216 * (G.bytes v (c * 4 + 3)).toNat := by
  rw [G.bytes_at v (k := c * 4) (s := c / (512 / 4)) (by omega) rfl,
    G.bytes_at v (k := c * 4 + 1) (s := c / (512 / 4)) (i := c * 4 % 512 + 1) (by omega) (by omega),
    G.bytes_at v (k := c * 4 + 2) (s := c / (512 / 4)) (i := c * 4 % 512 + 2) (by omega) (by omega),
    G.bytes_at v (k := c * 4 + 3) (s := c / (512 / 4)) (i := c * 4 % 512 + 3) (by omega) (by omega)]
  exact dword_eq _ _ _ _

/-- The sector of a byte of the first table. -/
theorem first_of_lt {k s : Nat} (hk : k < G.fsize * 512) (hs : k / 512 = s) : G.First (G.fatbase + s) :=
  ⟨by omega, by omega⟩

end Geometry

section Access

variable {δ : Type} {G : Geometry} {D : Disk δ} {faulty : Prop} {Has : (Nat → Block) → δ → Prop}
  {W : Nat → Prop} {v : Nat → Block} {h : Hints} (hD : D.Keeps G.capacity faulty Has)
  (hW : G.Windowed W)

include hD hW in
/-- A sector is needed in the window. -/
theorem moved_at {α : Type} {sect : Nat} {bad : FRESULT → α} {m : StateM (FATFS δ) α}
    {Q : α → FATFS δ → Prop} (hs : W sect)
    (hbad : ∀ r fs, Failed faulty r → Cached G W faulty Has v h fs → Q (bad r) fs)
    (hm : Triple (fun fs => Cached G W faulty Has v h fs ∧ fs.winsect = sect) m Q) :
    Triple (Cached G W faulty Has v h)
      (move_window G D sect >>= fun r => if r ≠ .FR_OK then pure (bad r) else m) Q := by
  refine Triple.bind (move_window_at hD hW hs) fun r => Triple.ite (fun hne => ?_) fun hok => ?_
  · exact Triple.ret fun fs hfs => hbad r fs (hfs.2.2 hne) hfs.1
  · exact hm.pre fun fs hfs => ⟨hfs.1, hfs.2.1 (Classical.byContradiction hok)⟩

/-- What `get_fat` returns. -/
def Got (G : Geometry) (faulty : Prop) (v : Nat → Block) (c x : Nat) : Prop :=
  x = G.fs_type.entry (G.bytes v) c ∨ faulty ∧ x = 0xFFFFFFFF

include hD hW in
/-- **`get_fat` reads an entry.** -/
theorem get_fat_at {c : Nat} (hlow : 2 ≤ c) (hhigh : c < G.n_fatent) :
    Triple (Cached G W faulty Has v h) (get_fat G D c) fun x fs =>
      Cached G W faulty Has v h fs ∧ Got G faulty v c x := by
  have htable := G.table_fits
  unfold get_fat Got
  rw [if_neg (show ¬(c < 2 ∨ G.n_fatent ≤ c) by omega)]
  cases htype : G.fs_type with
  | FS_FAT12 =>
    rw [htype] at htable
    replace htable : G.n_fatent * 3 / 2 + G.n_fatent % 2 ≤ G.fsize * 512 := htable
    have hfirst := hW.first _ (G.first_of_lt (k := c + c / 2) (by omega) rfl)
    have hnext := hW.first _ (G.first_of_lt (k := c + c / 2 + 1) (by omega) rfl)
    have hbad : ∀ r fs, Failed faulty r → Cached G W faulty Has v h fs →
        Cached G W faulty Has v h fs ∧ (0xFFFFFFFF = FsType.FS_FAT12.entry (G.bytes v) c ∨
          faulty ∧ 0xFFFFFFFF = 0xFFFFFFFF) := fun r fs hr hfs => ⟨hfs, .inr ⟨hr.faulty, rfl⟩⟩
    refine moved_at hD hW hfirst hbad (Triple.get_bind ?_)
    rintro fs ⟨hfs, hsect⟩
    have hlow : byte fs.win ((c + c / 2) % 512) = G.bytes v (c + c / 2) := by
      rw [hfs.win (hsect ▸ hfirst), hsect]
      rfl
    refine (moved_at hD hW hnext hbad ?_).pre fun fs' heq => heq ▸ hfs
    rintro fs' ⟨hfs', hsect'⟩
    have hhigh : byte fs'.win ((c + c / 2 + 1) % 512) = G.bytes v (c + c / 2 + 1) := by
      rw [hfs'.win (hsect' ▸ hnext), hsect']
      rfl
    refine ⟨hfs', .inl ?_⟩
    show (if c % 2 = 1 then ((byte fs.win ((c + c / 2) % 512)).toNat |||
      (byte fs'.win ((c + c / 2 + 1) % 512)).toNat <<< 8) >>> 4 else _ &&& 0xFFF) = _
    rw [hlow, hhigh, Nat.or_comm, word_eq, Nat.shiftRight_eq_div_pow,
      show (0xFFF : Nat) = 2 ^ 12 - 1 from rfl, Nat.and_two_pow_sub_one_eq_mod]
    rfl
  | FS_FAT16 =>
    rw [htype] at htable
    replace htable : G.n_fatent * 2 ≤ G.fsize * 512 := htable
    have hfirst := hW.first _ (G.first_of_lt (k := c * 2) (s := c / (512 / 2)) (by omega) (by omega))
    refine moved_at hD hW hfirst (fun r fs hr hfs => ⟨hfs, .inr ⟨hr.faulty, rfl⟩⟩) ?_
    rintro fs ⟨hfs, hsect⟩
    refine ⟨hfs, .inl ?_⟩
    show ld_word fs.win (c * 2 % 512) = (G.bytes v (c * 2)).toNat + 256 * (G.bytes v (c * 2 + 1)).toNat
    rw [hfs.win (hsect ▸ hfirst), hsect, G.bytes_at v (k := c * 2) (s := c / (512 / 2)) (by omega) rfl,
      G.bytes_at v (k := c * 2 + 1) (s := c / (512 / 2)) (i := c * 2 % 512 + 1) (by omega) (by omega)]
    exact word_eq _ _
  | FS_FAT32 =>
    rw [htype] at htable
    replace htable : G.n_fatent * 4 ≤ G.fsize * 512 := htable
    have hfirst := hW.first _ (G.first_of_lt (k := c * 4) (s := c / (512 / 4)) (by omega) (by omega))
    refine moved_at hD hW hfirst (fun r fs hr hfs => ⟨hfs, .inr ⟨hr.faulty, rfl⟩⟩) ?_
    rintro fs ⟨hfs, hsect⟩
    refine ⟨hfs, .inl ?_⟩
    show ld_dword fs.win (c * 4 % 512) &&& 0x0FFFFFFF = _
    rw [hfs.win (hsect ▸ hfirst), hsect, show (0x0FFFFFFF : Nat) = 2 ^ 28 - 1 from rfl,
      Nat.and_two_pow_sub_one_eq_mod]
    exact congrArg (· % 268435456) (G.ld_dword_at v c)

/-- An entry has been changed, and nothing else. -/
structure Puts (G : Geometry) (v : Nat → Block) (c val : Nat) (v' : Nat → Block) : Prop where
  bytes : G.bytes v' = G.fs_type.puts (G.bytes v) c val
  frame : ∀ i, ¬G.First i → v' i = v i

/-- What `put_fat` leaves; an entry of 12 bits may be half written when the disk fails. -/
def Put (G : Geometry) (W : Nat → Prop) (faulty : Prop) (Has : (Nat → Block) → δ → Prop)
    (v : Nat → Block) (h : Hints) (c val : Nat) (r : FRESULT) (fs : FATFS δ) : Prop :=
  (r = .FR_OK ∧ ∃ v', Puts G v c val v' ∧ Cached G W faulty Has v' h fs) ∨
    Failed faulty r ∧ (G.fs_type ≠ .FS_FAT12 → Cached G W faulty Has v h fs)

include hD hW in
/-- **`put_fat` changes an entry**, and nothing else. -/
theorem put_fat_at {c val : Nat} (hlow : 2 ≤ c) (hhigh : c < G.n_fatent) :
    Triple (Cached G W faulty Has v h) (put_fat G D c val) (Put G W faulty Has v h c val) := by
  have htable := G.table_fits
  have hbad : ∀ r fs, Failed faulty r → Cached G W faulty Has v h fs → Put G W faulty Has v h c val r fs :=
    fun r fs hr hfs => .inr ⟨hr, fun _ => hfs⟩
  unfold put_fat
  rw [if_pos ⟨hlow, hhigh⟩]
  cases htype : G.fs_type with
  | FS_FAT12 =>
    rw [htype] at htable
    replace htable : G.n_fatent * 3 / 2 + G.n_fatent % 2 ≤ G.fsize * 512 := htable
    have hfirst := hW.first _ (G.first_of_lt (k := c + c / 2) (by omega) rfl)
    have hnext := hW.first _ (G.first_of_lt (k := c + c / 2 + 1) (by omega) rfl)
    refine moved_at hD hW hfirst hbad ?_
    refine (edit_at (fun win => setByte win ((c + c / 2) % 512)
      (put_fat.low c val (byte win ((c + c / 2) % 512)))) hfirst).bind fun _ => ?_
    have hbytes : G.bytes (G.poke v (c + c / 2) (put_fat.low c val (G.bytes v (c + c / 2)))) (c + c / 2 + 1) =
        G.bytes v (c + c / 2 + 1) := by
      rw [G.bytes_poke, Function.update_of_ne (by omega)]
    refine (moved_at hD hW (v := G.poke v (c + c / 2) (put_fat.low c val (G.bytes v (c + c / 2)))) hnext
      (fun r fs hr _ => .inr ⟨hr, fun hne => absurd htype hne⟩) ?_).pre fun fs hfs => hfs.1
    refine (edit_at (fun win => setByte win ((c + c / 2 + 1) % 512)
      (put_fat.high c val (byte win ((c + c / 2 + 1) % 512)))) hnext).bind fun _ => Triple.ret ?_
    rintro fs ⟨hfs, -⟩
    refine .inl ⟨rfl, G.poke (G.poke v (c + c / 2) (put_fat.low c val (G.bytes v (c + c / 2))))
      (c + c / 2 + 1) (put_fat.high c val (G.bytes v (c + c / 2 + 1))), ⟨?_, fun i hi => ?_⟩, ?_⟩
    · rw [htype, G.bytes_poke, G.bytes_poke]
      rfl
    · rw [G.poke_frame _ (by omega) hi, G.poke_frame _ (by omega) hi]
    · rw [← hbytes]
      exact hfs
  | FS_FAT16 =>
    rw [htype] at htable
    replace htable : G.n_fatent * 2 ≤ G.fsize * 512 := htable
    have hfirst := hW.first _ (G.first_of_lt (k := c * 2) (s := c / (512 / 2)) (by omega) (by omega))
    refine moved_at hD hW hfirst hbad ?_
    refine (edit_at (fun win => st_word win (c * 2 % 512) val) hfirst).bind fun _ => Triple.ret ?_
    rintro fs ⟨hfs, -⟩
    refine .inl ⟨rfl, G.poke (G.poke v (c * 2) (UInt8.ofNat val)) (c * 2 + 1) (UInt8.ofNat (val >>> 8)),
      ⟨?_, fun i hi => ?_⟩, ?_⟩
    · rw [htype, G.bytes_poke, G.bytes_poke]
      rfl
    · rw [G.poke_frame _ (by omega) hi, G.poke_frame _ (by omega) hi]
    · rw [G.poke_at v (k := c * 2) (s := c / (512 / 2)) (by omega) rfl,
        G.poke_update v (k := c * 2 + 1) (s := c / (512 / 2)) (i := c * 2 % 512 + 1) (by omega) (by omega)]
      exact hfs
  | FS_FAT32 =>
    rw [htype] at htable
    replace htable : G.n_fatent * 4 ≤ G.fsize * 512 := htable
    have hfirst := hW.first _ (G.first_of_lt (k := c * 4) (s := c / (512 / 4)) (by omega) (by omega))
    refine moved_at hD hW hfirst hbad ?_
    refine (edit_at (fun win => st_dword win (c * 4 % 512)
      ((val &&& 0x0FFFFFFF) ||| (ld_dword win (c * 4 % 512) &&& 0xF0000000))) hfirst).bind
      fun _ => Triple.ret ?_
    rintro fs ⟨hfs, -⟩
    rw [G.ld_dword_at v c] at hfs
    refine .inl ⟨rfl, G.poke (G.poke (G.poke (G.poke v
      (c * 4) (UInt8.ofNat (FsType.stored (G.bytes v) c val)))
      (c * 4 + 1) (UInt8.ofNat (FsType.stored (G.bytes v) c val >>> 8)))
      (c * 4 + 2) (UInt8.ofNat (FsType.stored (G.bytes v) c val >>> 16)))
      (c * 4 + 3) (UInt8.ofNat (FsType.stored (G.bytes v) c val >>> 24)), ⟨?_, fun i hi => ?_⟩, ?_⟩
    · rw [htype, G.bytes_poke, G.bytes_poke, G.bytes_poke, G.bytes_poke]
      rfl
    · rw [G.poke_frame _ (by omega) hi, G.poke_frame _ (by omega) hi, G.poke_frame _ (by omega) hi,
        G.poke_frame _ (by omega) hi]
    · rw [G.poke_at v (k := c * 4) (s := c / (512 / 4)) (by omega) rfl,
        G.poke_update v (k := c * 4 + 1) (s := c / (512 / 4)) (i := c * 4 % 512 + 1) (by omega) (by omega),
        G.poke_update v (k := c * 4 + 2) (s := c / (512 / 4)) (i := c * 4 % 512 + 2) (by omega) (by omega),
        G.poke_update v (k := c * 4 + 3) (s := c / (512 / 4)) (i := c * 4 % 512 + 3) (by omega) (by omega)]
      exact hfs

end Access

end Miso.Fat

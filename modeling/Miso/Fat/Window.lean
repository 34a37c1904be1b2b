import Miso.Fat.Bytes

/-!
# The window of a FAT volume

* `Disk.Keeps` — what the volume needs of a disk, of which calls may fail if `faulty`;
* `Geometry.Core` — the sectors whose contents matter: not the second table, nor `FSINFO`;
* `Geometry.Told` — the disk has the number of free clusters;
* `Cached` — the disk, seen through the window, has the contents `v`;
* `sync_window_at`, `move_window_at`, `sync_fs_at` — moving the window does not change what is seen,
  even if the disk fails;
* `edit_at` — a change of the window is one of a single sector.
-/

namespace Miso.Fat

open Sd Zig

/-- **A disk that keeps what is written to it.**  `Has blocks` says that these are its sectors; a
write that fails may leave anything in the sectors it is for. -/
structure Disk.Keeps {δ : Type} (D : Disk δ) (capacity : Nat) (faulty : Prop)
    (Has : (Nat → Block) → δ → Prop) : Prop where
  read : ∀ blocks s n, 0 < n → s + n ≤ capacity → Triple (Has blocks) (D.disk_read s n) fun x d =>
    Has blocks d ∧ (x.1 = .RES_OK → x.2 = load blocks s n) ∧ (x.1 ≠ .RES_OK → faulty)
  write : ∀ blocks buff s n, 0 < n → s + n ≤ capacity → 512 * n ≤ buff.length →
    Triple (Has blocks) (D.disk_write buff s n) fun r d => ∃ blocks', Has blocks' d ∧
      (∀ i, ¬(s ≤ i ∧ i < s + n) → blocks' i = blocks i) ∧
      (r = .RES_OK → blocks' = store blocks s n buff) ∧ (r ≠ .RES_OK → faulty)
  sync : ∀ blocks, Triple (Has blocks) D.sync fun r d => Has blocks d ∧ (r ≠ .RES_OK → faulty)

namespace Geometry

variable (G : Geometry)

/-- The first table. -/
def First (i : Nat) : Prop := G.fatbase ≤ i ∧ i < G.fatbase + G.fsize

/-- The second table, if there is one. -/
def Second (i : Nat) : Prop :=
  G.n_fats = 2 ∧ G.fatbase + G.fsize ≤ i ∧ i < G.fatbase + G.fsize + G.fsize

/-- The `FSINFO` sector. -/
def Info (i : Nat) : Prop := G.fs_type = .FS_FAT32 ∧ i = G.volbase + 1

/-- The sectors whose contents matter. -/
def Core (i : Nat) : Prop := i < G.capacity ∧ ¬G.Second i ∧ ¬G.Info i

/-- The second table is a copy of the first one. -/
def Mirrored (blocks : Nat → Block) : Prop :=
  G.n_fats = 2 → ∀ i, G.First i → blocks (i + G.fsize) = blocks i

/-- The sectors that are reached through the window only, the first table among them. -/
structure Windowed (W : Nat → Prop) : Prop where
  core : ∀ i, W i → G.Core i
  first : ∀ i, G.First i → W i

variable {G}

theorem fsize_le : G.fatbase + G.fsize ≤ G.database ∧ G.database ≤ G.capacity ∧
    (G.n_fats = 2 → G.fatbase + G.fsize + G.fsize ≤ G.database) := by
  have htable := G.table_le
  have hdata := G.data_le
  obtain hone | htwo := G.n_fats_cases
  · rw [hone, Nat.one_mul] at htable
    exact ⟨htable, by omega, fun htwo => absurd (hone.symm.trans htwo) (by decide)⟩
  · rw [htwo] at htable
    exact ⟨by omega, by omega, fun _ => by omega⟩

theorem First.core {i : Nat} (h : G.First i) : G.Core i := by
  obtain ⟨hlow, hhigh⟩ := h
  obtain ⟨htable, hdata, -⟩ := G.fsize_le
  refine ⟨by omega, fun hsecond => ?_, fun hinfo => ?_⟩
  · exact absurd hsecond.2.1 (by omega)
  · have hlt := G.fsinfo_lt hinfo.1
    exact absurd hinfo.2 (by omega)

/-- The test of `sync_window`. -/
theorem first_iff {i : Nat} (h : i < G.capacity) :
    (i + 4294967296 - G.fatbase) % 4294967296 < G.fsize ↔ G.First i := by
  have hcap := G.capacity_lt
  obtain ⟨htable, hdata, -⟩ := G.fsize_le
  unfold First
  omega

end Geometry

/-- A function has failed, and the disk before it. -/
structure Failed (faulty : Prop) (r : FRESULT) : Prop where
  faulty : faulty
  eq : r = .FR_DISK_ERR

/-- What is known of the free clusters. -/
structure Hints where
  last_clst : Nat
  free_clst : Nat
  fsi_flag : UInt8

namespace Geometry

variable {G : Geometry}

/-- `FSINFO` is used. -/
def Informed (G : Geometry) : Prop := G.fs_type = .FS_FAT32 ∧ G.BPB_FSInfo32 = 1

/-- **What `FSINFO` says**: unless the number of free clusters has changed, it is on the disk. -/
structure Told (G : Geometry) (blocks : Nat → Block) (h : Hints) : Prop where
  flag : h.fsi_flag = 0 ∨ h.fsi_flag = 1
  lt : h.free_clst < 4294967296
  free : h.fsi_flag = 0 → Signed (blocks (G.volbase + 1)) →
    ld_dword (blocks (G.volbase + 1)) 488 = h.free_clst

theorem Told.congr {blocks blocks' : Nat → Block} {h : Hints} (ht : G.Told blocks h)
    (heq : blocks' (G.volbase + 1) = blocks (G.volbase + 1)) : G.Told blocks' h := by
  refine ⟨ht.flag, ht.lt, fun hflag hsigned => ?_⟩
  rw [heq] at hsigned ⊢
  exact ht.free hflag hsigned

/-- A number that has changed is not on the disk. -/
theorem Told.changed {blocks : Nat → Block} {h : Hints} (ht : G.Told blocks h) (last : Nat) {free : Nat}
    (hlt : free < 4294967296) : G.Told blocks ⟨last, free, h.fsi_flag ||| 1⟩ := by
  have hone : h.fsi_flag ||| 1 = 1 := by
    obtain hflag | hflag := ht.flag
    · rw [hflag]
      rfl
    · rw [hflag]
      rfl
  refine ⟨.inr hone, hlt, fun hzero => ?_⟩
  exact absurd (hone.symm.trans hzero) (by decide)

/-- `FSINFO` is not in the tables, and not in the clusters. -/
theorem Informed.lt (hi : G.Informed) : G.volbase + 1 < G.fatbase := G.fsinfo_lt hi.1

theorem Informed.apart {i : Nat} (hi : G.Informed) (h : G.Core i) : G.volbase + 1 ≠ i :=
  fun heq => h.2.2 ⟨hi.1, heq.symm⟩

end Geometry

section Window

variable {δ : Type} {G : Geometry} {D : Disk δ} {faulty : Prop} {Has : (Nat → Block) → δ → Prop}
  {W : Nat → Prop} {v : Nat → Block} {h : Hints}

def FATFS.hints (fs : FATFS δ) : Hints := ⟨fs.last_clst, fs.free_clst, fs.fsi_flag⟩

/-- With the window, `blocks` are the contents `v`. -/
structure Backs (G : Geometry) (W : Nat → Prop) (faulty : Prop) (v blocks : Nat → Block)
    (fs : FATFS δ) : Prop where
  dirty : fs.wflag = true → W fs.winsect
  win : W fs.winsect → fs.win = v fs.winsect
  clean : ∀ i, G.Core i → (fs.wflag = true → i ≠ fs.winsect) → blocks i = v i
  mirrored : ¬faulty → G.Mirrored blocks
  told : ¬faulty → G.Informed → G.Told blocks fs.hints

/-- **What is seen through the window**: the contents `v`, whatever is in the window. -/
def Cached (G : Geometry) (W : Nat → Prop) (faulty : Prop) (Has : (Nat → Block) → δ → Prop)
    (v : Nat → Block) (h : Hints) (fs : FATFS δ) : Prop :=
  fs.hints = h ∧ ∃ blocks, Has blocks fs.disk ∧ Backs G W faulty v blocks fs

theorem Cached.dirty {fs : FATFS δ} (hfs : Cached G W faulty Has v h fs) (hd : fs.wflag = true) :
    W fs.winsect := by
  obtain ⟨-, blocks, -, hb⟩ := hfs
  exact hb.dirty hd

theorem Cached.win {fs : FATFS δ} (hfs : Cached G W faulty Has v h fs) (hs : W fs.winsect) :
    fs.win = v fs.winsect := by
  obtain ⟨-, blocks, -, hb⟩ := hfs
  exact hb.win hs

/-- The sector of the window has been written, but not to the second table. -/
structure Written (G : Geometry) (W : Nat → Prop) (faulty : Prop) (Has : (Nat → Block) → δ → Prop)
    (v : Nat → Block) (h : Hints) (s : Nat) (fs : FATFS δ) : Prop where
  hints : fs.hints = h
  wflag : fs.wflag = false
  win : W fs.winsect → fs.win = v fs.winsect
  disk : ∃ blocks, Has blocks fs.disk ∧ (∀ i, G.Core i → blocks i = v i) ∧
    (¬faulty → G.n_fats = 2 → ∀ i, G.First i → i ≠ s → blocks (i + G.fsize) = blocks i) ∧
    (¬faulty → G.Informed → G.Told blocks fs.hints)

theorem received_self (b : Block) : Card.received b.toList = b := by
  refine Vector.toList_inj.mp ?_
  have hlen : b.toList.length = 512 := Vector.length_toList
  rw [received_toList (Nat.le_of_eq hlen.symm), List.take_of_length_le (Nat.le_of_eq hlen)]

theorem store_one (blocks : Nat → Block) (s : Nat) (b : Block) :
    store blocks s 1 b.toList = Function.update blocks s b := by
  funext i
  unfold store
  by_cases hi : i = s
  · subst hi
    rw [if_pos (by omega), Function.update_self, Nat.sub_self]
    exact received_self b
  · rw [if_neg (by omega), Function.update_of_ne hi]

theorem load_one (blocks : Nat → Block) (s : Nat) : load blocks s 1 = (blocks s).toList :=
  List.append_nil _

theorem filled_block (win b : Block) : filled win b.toList = b := by
  have hlen : b.toList.length = 512 := Vector.length_toList
  have hwin : win.toList.length = 512 := Vector.length_toList
  unfold filled
  rw [hlen, List.drop_of_length_le (Nat.le_of_eq hwin), List.append_nil]
  exact received_self b

section Moves

variable (hD : D.Keeps G.capacity faulty Has) (hW : G.Windowed W)

include hD in
theorem reflect_at {s : Nat} {b : Block} (hs : s < G.capacity) (hb : ∀ i, G.Core i → i = s → b = v i) :
    Triple (Written G W faulty Has v h s) (sync_window.reflect G D s b) fun _ fs =>
      Cached G W faulty Has v h fs ∧ fs.wflag = false := by
  rintro fs ⟨hhints, hwflag, hwin, blocks, hhas, hclean, hmirror, htold⟩
  have hundirty : fs.wflag = true → W fs.winsect := fun hd => absurd (hwflag.symm.trans hd) (by decide)
  unfold sync_window.reflect
  by_cases hc : (s + 4294967296 - G.fatbase) % 4294967296 < G.fsize ∧ G.n_fats = 2
  · rw [if_pos hc]
    obtain ⟨hlow, hhigh⟩ := (G.first_iff hs).mp hc.1
    have hend := G.fsize_le.2.2 hc.2
    obtain ⟨blocks', hhas', hframe, hok, hfault⟩ := hD.write blocks b.toList (s + G.fsize) 1
      Nat.one_pos (by have := G.fsize_le; omega) (Nat.le_of_eq Vector.length_toList.symm) fs.disk hhas
    have hsecond : ∀ i, G.Core i → ¬(s + G.fsize ≤ i ∧ i < s + G.fsize + 1) := fun i hi heq =>
      hi.2.1 ⟨hc.2, by omega, by omega⟩
    refine ⟨⟨hhints, blocks', hhas', hundirty, hwin, fun i hi _ => ?_, fun hf _ i hi => ?_,
      fun hf hi => ?_⟩, hwflag⟩
    · rw [hframe i (hsecond i hi)]
      exact hclean i hi
    · rw [hok (Classical.byContradiction fun hne => hf (hfault hne)), store_one]
      have hne : i ≠ s + G.fsize := by
        have := hi.2
        omega
      rw [Function.update_of_ne hne]
      by_cases his : i = s
      · subst his
        rw [Function.update_self, hclean i hi.core]
        exact hb i hi.core rfl
      · rw [Function.update_of_ne (by omega)]
        exact hmirror hf hc.2 i hi his
    · have hlt := hi.lt
      exact (htold hf hi).congr (hframe _ (by omega))
  · rw [if_neg hc]
    refine ⟨⟨hhints, blocks, hhas, hundirty, hwin, fun i hi _ => hclean i hi, fun hf htwo i hi => ?_,
      htold⟩, hwflag⟩
    refine hmirror hf htwo i hi fun his => hc ⟨?_, htwo⟩
    subst his
    exact (G.first_iff hs).mpr hi

include hD in
theorem written_at {fs : FATFS δ} (hfs : Cached G W faulty Has v h fs) (hdirty : fs.wflag = true)
    (hs : G.Core fs.winsect) :
    Triple (fun fs' => fs' = fs) (onDisk (D.disk_write fs.win.toList fs.winsect 1)) fun r fs' =>
      (r = .RES_OK ∧ Written G W faulty Has v h fs.winsect { fs' with wflag := false }) ∨
        r ≠ .RES_OK ∧ faulty ∧ Cached G W faulty Has v h fs' := by
  rintro fs rfl
  obtain ⟨hhints, blocks, hhas, hb⟩ := hfs
  have hwin := hb.win (hb.dirty hdirty)
  obtain ⟨blocks', hhas', hframe, hok, hfault⟩ := hD.write blocks fs.win.toList fs.winsect 1
    Nat.one_pos (by have := hs.1; omega) (Nat.le_of_eq Vector.length_toList.symm) fs.disk hhas
  have hclean : ∀ i, G.Core i → i ≠ fs.winsect → blocks' i = v i := fun i hi hne =>
    (hframe i (by omega)).trans (hb.clean i hi fun _ => hne)
  by_cases hr : (D.disk_write fs.win.toList fs.winsect 1 fs.disk).1 = .RES_OK
  · refine .inl ⟨hr, hhints, rfl, hb.win, blocks', hhas', fun i hi => ?_, fun hf htwo i hi hne => ?_,
      fun hf hi => ?_⟩
    · by_cases his : i = fs.winsect
      · rw [hok hr, store_one, his, Function.update_self]
        exact hwin
      · exact hclean i hi his
    · rw [hframe i (by omega), hframe _ fun heq => ?_]
      · exact hb.mirrored hf htwo i hi
      · exact hs.2.1 ⟨htwo, by have := hi.1; omega, by have := hi.2; omega⟩
    · have hne := hi.apart hs
      exact (hb.told hf hi).congr (hframe _ (by omega))
  · exact .inr ⟨hr, hfault hr, hhints, blocks', hhas', hb.dirty, hb.win,
      fun i hi hne => hclean i hi (hne hdirty), fun hf => absurd (hfault hr) hf,
      fun hf => absurd (hfault hr) hf⟩

include hD hW in
/-- **Writing the window back** does not change what is seen. -/
theorem sync_window_at : Triple (Cached G W faulty Has v h) (sync_window G D) fun r fs =>
    Cached G W faulty Has v h fs ∧ (r = .FR_OK → fs.wflag = false) ∧ (r ≠ .FR_OK → Failed faulty r) := by
  refine Triple.get_bind fun fs hfs => Triple.ite (fun hdirty => ?_) fun hdirty => ?_
  · have hs := hW.core _ (hfs.dirty hdirty)
    refine Triple.bind (written_at hD hfs hdirty hs) fun r => Triple.ite (fun hr => ?_) fun hr => ?_
    · rintro fs' (⟨hok, -⟩ | ⟨-, hfault, hfs'⟩)
      · exact absurd hok hr
      · exact ⟨hfs', fun habs : FRESULT.FR_DISK_ERR = .FR_OK => absurd habs (by decide), fun _ => ⟨hfault, rfl⟩⟩
    · refine Triple.bind (R := fun _ => Written G W faulty Has v h fs.winsect) ?_ fun _ => ?_
      · rintro fs' (⟨-, hfs'⟩ | ⟨hne, -⟩)
        · exact hfs'
        · exact absurd hne hr
      · refine Triple.bind (reflect_at hD hs.1 ?_) fun _ => Triple.ret fun fs' hfs' =>
          ⟨hfs'.1, fun _ => hfs'.2, fun hne => absurd rfl hne⟩
        rintro i - rfl
        exact hfs.win (hfs.dirty hdirty)
  · rintro _ rfl
    exact ⟨hfs, fun _ => eq_false_of_ne_true hdirty, fun hne => absurd rfl hne⟩

include hW in
theorem not_windowed {i : Nat} (h : G.capacity ≤ i) : ¬W i := fun hi => by
  have := (hW.core i hi).1
  omega

include hD hW in
theorem fill_at {sect : Nat} (hs : W sect) :
    Triple (fun fs => Cached G W faulty Has v h fs ∧ fs.wflag = false) (move_window.fill D sect)
      fun r fs => Cached G W faulty Has v h fs ∧ (r = .FR_OK → fs.winsect = sect) ∧
        (r ≠ .FR_OK → Failed faulty r) := by
  rintro fs ⟨⟨hhints, blocks, hhas, hb⟩, hwflag⟩
  have hcore := hW.core sect hs
  obtain ⟨hhas', hok, hfault⟩ := hD.read blocks sect 1 Nat.one_pos (by have := hcore.1; omega)
    fs.disk hhas
  have hdirty (P : Prop) : fs.wflag = true → P := fun hd => absurd (hwflag.symm.trans hd) (by decide)
  have hclean : ∀ i, G.Core i → blocks i = v i := fun i hi => hb.clean i hi fun hd => hdirty _ hd
  by_cases hr : (D.disk_read sect 1 fs.disk).1.1 = .RES_OK
  · have hsect : (if (D.disk_read sect 1 fs.disk).1.1 = .RES_OK then sect else 0xFFFFFFFF) = sect :=
      if_pos hr
    refine ⟨⟨hhints, blocks, hhas', fun hd => hdirty _ hd, fun _ => ?_,
      fun i hi _ => hclean i hi, hb.mirrored, hb.told⟩, fun _ => hsect, fun hne => absurd (if_pos hr) hne⟩
    show filled fs.win (D.disk_read sect 1 fs.disk).1.2 =
      v (if (D.disk_read sect 1 fs.disk).1.1 = .RES_OK then sect else 0xFFFFFFFF)
    rw [hsect, hok hr, load_one, filled_block]
    exact hclean sect hcore
  · have hsect : (if (D.disk_read sect 1 fs.disk).1.1 = .RES_OK then sect else 0xFFFFFFFF) =
        0xFFFFFFFF := if_neg hr
    have hno : ¬W 0xFFFFFFFF := not_windowed hW (by have := G.capacity_lt; omega)
    refine ⟨⟨hhints, blocks, hhas', fun hd => hdirty _ hd, fun hw => absurd (hsect ▸ hw) hno,
      fun i hi _ => hclean i hi, hb.mirrored, hb.told⟩, fun hok => ?_, fun _ => ⟨hfault hr, if_neg hr⟩⟩
    exact absurd ((if_neg hr).symm.trans hok : FRESULT.FR_DISK_ERR = .FR_OK) (by decide)

include hD hW in
/-- **Moving the window** does not change what is seen. -/
theorem move_window_at {sect : Nat} (hs : W sect) :
    Triple (Cached G W faulty Has v h) (move_window G D sect) fun r fs =>
      Cached G W faulty Has v h fs ∧ (r = .FR_OK → fs.winsect = sect) ∧ (r ≠ .FR_OK → Failed faulty r) := by
  refine Triple.get_bind fun fs hfs => Triple.ite (fun heq => ?_) fun _ => ?_
  · rintro _ rfl
    exact ⟨hfs, fun _ => heq.symm, fun hne => absurd rfl hne⟩
  · refine Triple.pre ?_ (P := Cached G W faulty Has v h) fun fs' heq => heq ▸ hfs
    refine Triple.bind (sync_window_at hD hW) fun res => Triple.ite (fun hne => ?_) fun hok => ?_
    · exact Triple.ret fun fs' hfs' => ⟨hfs'.1, fun hok => absurd hok hne, hfs'.2.2⟩
    · have hres : res = .FR_OK := Classical.byContradiction hok
      exact (fill_at hD hW hs).pre fun fs' hfs' => ⟨hfs'.1, hfs'.2.1 hres⟩

/-- **A change of the window** is one of its sector. -/
theorem edit_at {s : Nat} (f : Block → Block) (hs : W s) :
    Triple (fun fs => Cached G W faulty Has v h fs ∧ fs.winsect = s) (edit f) fun _ fs =>
      Cached G W faulty Has (Function.update v s (f (v s))) h fs ∧ fs.winsect = s := by
  rintro fs ⟨⟨hhints, blocks, hhas, hb⟩, rfl⟩
  refine ⟨⟨hhints, blocks, hhas, fun _ => hs, fun _ => ?_, fun i hi hne => ?_, hb.mirrored, hb.told⟩, rfl⟩
  · show f fs.win = Function.update v fs.winsect (f (v fs.winsect)) fs.winsect
    rw [Function.update_self, hb.win hs]
  · have hi' : i ≠ fs.winsect := hne rfl
    rw [Function.update_of_ne hi']
    exact hb.clean i hi fun _ => hi'

/-- With a clean window, the contents are on the disk. -/
theorem Cached.flushed {fs : FATFS δ} (hfs : Cached G W faulty Has v h fs) (hd : fs.wflag = false) :
    ∃ blocks, Has blocks fs.disk ∧ (∀ i, G.Core i → blocks i = v i) ∧
      (¬faulty → G.Mirrored blocks) ∧ (¬faulty → G.Informed → G.Told blocks fs.hints) := by
  obtain ⟨-, blocks, hhas, hb⟩ := hfs
  exact ⟨blocks, hhas, fun i hi => hb.clean i hi fun hdirty => absurd (hd.symm.trans hdirty) (by decide),
    hb.mirrored, hb.told⟩

include hD hW in
theorem store_at {info : Block} (htype : G.fs_type = .FS_FAT32)
    (hinfo : h.free_clst < 4294967296 → ld_dword info 488 = h.free_clst) :
    Triple (fun fs => Cached G W faulty Has v h fs ∧ fs.wflag = false) (sync_fs.store G D info)
      fun _ fs => Cached G W faulty Has v { h with fsi_flag := 0 } fs ∧ fs.wflag = false := by
  rintro fs ⟨⟨rfl, blocks, hhas, hb⟩, hwflag⟩
  have hlt := G.fsinfo_lt htype
  obtain ⟨hend, hcap, -⟩ := G.fsize_le
  obtain ⟨blocks', hhas', hframe, hok, hfault⟩ := hD.write blocks info.toList (G.volbase + 1) 1
    Nat.one_pos (by omega) (Nat.le_of_eq Vector.length_toList.symm) fs.disk hhas
  have hdirty (P : Prop) : fs.wflag = true → P := fun hd => absurd (hwflag.symm.trans hd) (by decide)
  have hapart : ∀ i, G.Core i → i ≠ G.volbase + 1 := fun i hi heq => hi.2.2 ⟨htype, heq⟩
  refine ⟨⟨rfl, blocks', hhas', fun hd => hdirty _ hd, fun hw => absurd rfl (hapart _ (hW.core _ hw)),
    fun i hi _ => ?_, fun hf htwo i hi => ?_, fun hf hi => ?_⟩, hwflag⟩
  · rw [hframe i (by have := hapart i hi; omega)]
    exact hb.clean i hi fun hd => hdirty _ hd
  · rw [hframe i (by have := hi.1; omega), hframe _ (by have := hi.1; omega)]
    exact hb.mirrored hf htwo i hi
  · have hlt := (hb.told hf hi).lt
    refine ⟨.inl rfl, hlt, fun _ _ => ?_⟩
    rw [hok (Classical.byContradiction fun hne => hf (hfault hne)), store_one, Function.update_self]
    exact hinfo hlt

/-- The sector that `sync_fs` writes has the number of free clusters. -/
theorem info_free {free last : Nat} (hlt : free < 4294967296) :
    ld_dword (sync_fs.info free last) 488 = free := by
  have hbehind : ld_dword (sync_fs.info free last) 488 = ld_dword (st_dword (st_dword (st_dword
      (st_word (Vector.replicate 512 0) 510 0xAA55) 0 0x41615252) 484 0x61417272) 488 free) 488 := by
    refine ld_dword_congr fun j hlow hhigh => ?_
    unfold sync_fs.info
    rw [byte_st_dword (by omega) (by omega), if_neg (by omega), if_neg (by omega), if_neg (by omega),
      if_neg (by omega)]
  rw [hbehind, ld_dword_st_dword (by omega)]
  exact Nat.mod_eq_of_lt hlt

include hD hW in
/-- **Synchronising** does not change what is seen, and nothing of it is left in the window. -/
theorem sync_fs_at : Triple (Cached G W faulty Has v h) (sync_fs G D) fun r fs =>
    (∃ flag, Cached G W faulty Has v { h with fsi_flag := flag } fs) ∧
      (r = .FR_OK → fs.wflag = false ∧ (¬faulty → G.Informed → fs.fsi_flag = 0)) ∧
        (r ≠ .FR_OK → Failed faulty r) := by
  refine Triple.bind (sync_window_at hD hW) fun res => Triple.ite (fun hne => ?_) fun hok => ?_
  · exact Triple.ret fun fs hfs => ⟨⟨h.fsi_flag, hfs.1⟩, fun hok => absurd hok hne, hfs.2.2⟩
  · have hres : res = .FR_OK := Classical.byContradiction hok
    have hupdate : Triple (fun fs => Cached G W faulty Has v h fs ∧ fs.wflag = false)
        (sync_fs.update G D) fun _ fs =>
          (∃ flag, Cached G W faulty Has v { h with fsi_flag := flag } fs) ∧ fs.wflag = false ∧
            (¬faulty → G.Informed → fs.fsi_flag = 0) := by
      refine Triple.get_bind fun fs hfs => ?_
      have hhints : fs.hints = h := hfs.1.1
      refine Triple.ite (fun hc => ?_) fun hc => ?_
      · have hinfo (hlt : h.free_clst < 4294967296) :
            ld_dword (sync_fs.info fs.free_clst fs.last_clst) 488 = h.free_clst := by
          rw [← hhints] at hlt ⊢
          exact info_free hlt
        refine (store_at hD hW hc.1 hinfo).conseq (fun fs' heq => heq ▸ hfs) ?_
        rintro _ fs' ⟨hfs', hclean⟩
        refine ⟨⟨0, hfs'⟩, hclean, fun _ _ => ?_⟩
        exact congrArg Hints.fsi_flag hfs'.1
      · rintro _ rfl
        obtain ⟨⟨-, blocks, hhas, hb⟩, hclean⟩ := hfs
        refine ⟨⟨h.fsi_flag, hhints, blocks, hhas, hb⟩, hclean, fun hf hi => ?_⟩
        exact (hb.told hf hi).flag.resolve_right fun hone => hc ⟨hi.1, hone⟩
    refine (hupdate.pre fun fs hfs => ⟨hfs.1, hfs.2.1 hres⟩).bind fun _ => ?_
    rintro fs ⟨⟨flag, hhints, blocks, hhas, hb⟩, hwflag, hflag⟩
    obtain ⟨hhas', hfault⟩ := hD.sync blocks fs.disk hhas
    refine ⟨⟨flag, hhints, blocks, hhas', hb.dirty, hb.win, hb.clean, hb.mirrored, hb.told⟩,
      fun _ => ⟨hwflag, hflag⟩, fun hne => ?_⟩
    have hbad : (D.sync fs.disk).1 ≠ .RES_OK := fun hok => hne (if_neg (not_not_intro hok))
    exact ⟨hfault hbad, if_pos hbad⟩

end Moves

end Window

end Miso.Fat

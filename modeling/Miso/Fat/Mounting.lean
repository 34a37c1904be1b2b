import Miso.Fat.Syncing

/-!
# Mounting a volume again

* `Taken` — what `mount_volume` knows of the free clusters: what `FSINFO` says, or nothing;
* `mount_volume_at` — it reads the boot sector and `FSINFO`, and writes nothing;
* `Chained.remount` — if the power is lost when nothing is left to be written, the volume that is
  mounted then has the same files.
-/

namespace Miso.Fat

open Sd Zig

theorem ld_dword_lt (b : Block) (p : Nat) : ld_dword b p < 4294967296 := by
  unfold ld_dword
  rw [dword_eq]
  have h₀ := (byte b p).toNat_lt
  have h₁ := (byte b (p + 1)).toNat_lt
  have h₂ := (byte b (p + 2)).toNat_lt
  have h₃ := (byte b (p + 3)).toNat_lt
  omega

/-- **What is known of the free clusters** after mounting a volume with these sectors. -/
structure Taken (G : Geometry) (blocks : Nat → Block) (h : Hints) : Prop where
  free : h.free_clst = 0xFFFFFFFF ∨ (G.Informed ∧ Signed (blocks (G.volbase + 1))) ∧
    h.free_clst = ld_dword (blocks (G.volbase + 1)) 488
  told : G.Informed → G.Told blocks h

/-- What is not known. -/
def Hints.unknown : Hints := ⟨0xFFFFFFFF, 0xFFFFFFFF, 0x80⟩

section Mount

variable {δ : Type} {G : Geometry} {D : Disk δ} {faulty : Prop} {Has : (Nat → Block) → δ → Prop}
  {blocks : Nat → Block} {h : Hints} {s : Nat}

/-- The window is clean. -/
structure Clean (Has : (Nat → Block) → δ → Prop) (blocks : Nat → Block) (h : Hints) (fs : FATFS δ) :
    Prop where
  disk : Has blocks fs.disk
  wflag : fs.wflag = false
  hints : fs.hints = h

/-- The sector is in the window. -/
structure Shown (Has : (Nat → Block) → δ → Prop) (blocks : Nat → Block) (h : Hints) (s : Nat)
    (fs : FATFS δ) : Prop extends Clean Has blocks h fs where
  sect : fs.winsect = s
  win : fs.win = blocks s

/-- What `mount_volume` leaves. -/
def Remounted (G : Geometry) (Has : (Nat → Block) → δ → Prop) (blocks : Nat → Block) (fs : FATFS δ) :
    Prop :=
  ∃ h, Taken G blocks h ∧
    (Shown Has blocks h G.volbase fs ∨ G.Informed ∧ Shown Has blocks h (G.volbase + 1) fs)

variable (hD : D.Keeps G.capacity faulty Has) (hf : ¬faulty)

include hD hf in
/-- A clean window is moved without writing. -/
theorem shown_at (hs : s < G.capacity) :
    Triple (fun fs => Clean Has blocks h fs ∧ fs.winsect ≠ s) (move_window G D s) fun r fs =>
      r = .FR_OK ∧ Shown Has blocks h s fs := by
  refine Triple.get_bind fun fs hfs => Triple.ite (fun heq => ?_) fun _ => ?_
  · exact absurd heq.symm hfs.2
  have hsync : Triple (fun fs' => fs' = fs) (sync_window G D) fun r fs' => r = .FR_OK ∧ fs' = fs := by
    refine Triple.get_bind fun fs' heq => Triple.ite (fun hdirty => ?_) fun _ => ?_
    · exact absurd ((heq ▸ hfs.1.wflag).symm.trans hdirty) (by decide)
    · rintro _ rfl
      exact ⟨rfl, heq⟩
  refine hsync.bind fun res => Triple.assume ?_
  rintro rfl
  rw [if_neg (by simp)]
  rintro fs rfl
  obtain ⟨hhas, hok, hfault⟩ := hD.read blocks s 1 Nat.one_pos (by omega) fs.disk hfs.1.disk
  have hr : (D.disk_read s 1 fs.disk).1.1 = .RES_OK :=
    Classical.byContradiction fun hne => hf (hfault hne)
  refine ⟨if_pos hr, ⟨hhas, hfs.1.wflag, hfs.1.hints⟩, if_pos hr, ?_⟩
  show filled fs.win (D.disk_read s 1 fs.disk).1.2 = blocks s
  rw [hok hr, load_one, filled_block]

include hD hf in
theorem boot_at : Triple (fun fs => Has blocks fs.disk) (mount_volume.boot G D) fun r fs =>
    r = .FR_OK ∧ ∃ h, Shown Has blocks h G.volbase fs := by
  have hbase := G.volbase_lt
  have hcap := G.capacity_lt
  obtain ⟨htable, hdata, -⟩ := G.fsize_le
  intro fs hfs
  obtain ⟨hr, hshown⟩ := shown_at (h := fs.hints) hD hf (s := G.volbase) (by omega)
    { fs with wflag := false, winsect := 0xFFFFFFFF } ⟨⟨hfs, rfl, rfl⟩, show 0xFFFFFFFF ≠ _ by omega⟩
  exact ⟨hr, fs.hints, hshown⟩

/-- `FSINFO` is read. -/
theorem load_at (hi : G.Informed) :
    Triple (Shown Has blocks .unknown (G.volbase + 1)) mount_volume.load fun _ => Remounted G Has blocks := by
  rintro fs ⟨⟨hdisk, hwflag, hhints⟩, hsect, hwin⟩
  have hfree : fs.free_clst = 0xFFFFFFFF := congrArg Hints.free_clst hhints
  by_cases hsigned : Signed fs.win
  · have hrun : (mount_volume.load fs).2 = { fs with
        fsi_flag := 0, free_clst := ld_dword fs.win 488, last_clst := ld_dword fs.win 492 } :=
      if_pos hsigned
    rw [hrun]
    refine ⟨⟨ld_dword fs.win 492, ld_dword fs.win 488, 0⟩, ⟨.inr ⟨⟨hi, hwin ▸ hsigned⟩, ?_⟩, fun _ => ?_⟩,
      .inr ⟨hi, ⟨hdisk, hwflag, rfl⟩, hsect, hwin⟩⟩
    · rw [hwin]
    · refine ⟨.inl rfl, ld_dword_lt _ _, fun _ _ => ?_⟩
      rw [hwin]
  · have hrun : (mount_volume.load fs).2 = { fs with fsi_flag := 0 } := if_neg hsigned
    rw [hrun]
    refine ⟨⟨fs.last_clst, fs.free_clst, 0⟩, ⟨.inl hfree, fun _ => ⟨.inl rfl, ?_, fun _ hsigned' => ?_⟩⟩,
      .inr ⟨hi, ⟨hdisk, hwflag, rfl⟩, hsect, hwin⟩⟩
    · show fs.free_clst < _
      rw [hfree]
      decide
    · exact absurd (hwin ▸ hsigned') hsigned

include hD hf in
theorem info_at : Triple (Shown Has blocks h G.volbase) (mount_volume.info G D) fun _ =>
    Remounted G Has blocks := by
  have hunknown : Triple (Shown Has blocks h G.volbase) (modify fun fs : FATFS δ =>
      { fs with last_clst := 0xFFFFFFFF, free_clst := 0xFFFFFFFF, fsi_flag := 0x80 }) fun _ =>
        Shown Has blocks .unknown G.volbase := by
    rintro fs ⟨⟨hdisk, hwflag, -⟩, hsect, hwin⟩
    exact ⟨⟨hdisk, hwflag, rfl⟩, hsect, hwin⟩
  refine hunknown.bind fun _ => Triple.ite (fun hi => ?_) fun hi => ?_
  · have hlt := G.fsinfo_lt hi.1
    obtain ⟨htable, hdata, -⟩ := G.fsize_le
    refine Triple.bind ((shown_at hD hf (h := .unknown) (s := G.volbase + 1) (by omega)).pre fun fs hfs =>
      ⟨hfs.toClean, ?_⟩) fun r => Triple.assume ?_
    · rw [hfs.sect]
      omega
    · rintro rfl
      rw [if_pos rfl]
      exact load_at hi
  · exact Triple.ret fun fs hfs => ⟨.unknown, ⟨.inl rfl, fun hi' => absurd hi' hi⟩, .inl hfs⟩

include hD hf in
/-- **Mounting** reads what is on the disk. -/
theorem mount_volume_at : Triple (fun fs => Has blocks fs.disk) (mount_volume G D) fun r fs =>
    r = .FR_OK ∧ Remounted G Has blocks fs := by
  refine Triple.bind (boot_at hD hf) fun r => Triple.assume ?_
  rintro rfl
  rw [if_neg (by simp)]
  rintro fs ⟨h, hfs⟩
  exact ⟨rfl, info_at hD hf fs hfs⟩

end Mount

namespace Mounted

variable {ι δ : Type} {M : Mounted δ} {files : ι → List Nat} {other : Nat → Prop} {data : Nat → Block}

/-- **The power is lost** when nothing is left to be written: the disk has the files, and so has the volume
that is mounted again. -/
theorem Chained.remount (hM : M.Sane other) {fs fs' : FATFS δ} (h : M.Chained files other data fs)
    (hsettled : M.Settled fs) (hdisk : ∀ blocks, M.Has blocks fs.disk → M.Has blocks fs'.disk) :
    (mount_volume M.G M.D fs').1 = .FR_OK ∧ M.Chained files other data (mount_volume M.G M.D fs').2 := by
  obtain ⟨T, h, ⟨v, hfs, hv⟩, hb⟩ := h
  have hhints := hfs.1
  obtain ⟨blocks, hhas, hblocks, hmirrored, htold⟩ := hfs.flushed hsettled.window
  obtain ⟨hok, h', htaken, hshown⟩ := mount_volume_at M.keeps hM.sure fs' (hdisk _ hhas)
  have hcore : M.G.Core M.G.volbase := by
    have hbase := M.G.volbase_lt
    obtain ⟨htable, hdata, -⟩ := M.G.fsize_le
    exact ⟨by omega, fun hsecond => by have := hsecond.2; omega, fun hinfo => by have := hinfo.2; omega⟩
  have hclean : Clean M.Has blocks h' (mount_volume M.G M.D fs').2 :=
    hshown.elim (fun hs => hs.toClean) fun hs => hs.2.toClean
  have hwin : M.W (mount_volume M.G M.D fs').2.winsect →
      (mount_volume M.G M.D fs').2.win = v (mount_volume M.G M.D fs').2.winsect := by
    intro hw
    obtain hs | ⟨hi, hs⟩ := hshown
    · rw [hs.win, hs.sect]
      exact hblocks _ hcore
    · rw [hs.sect] at hw
      exact absurd rfl (hi.apart (M.windowed.core _ hw))
  refine ⟨hok, T, h', ⟨v, ⟨hclean.hints, blocks, hclean.disk,
    fun hd => absurd (hclean.wflag.symm.trans hd) (by decide), hwin, fun i hi _ => hblocks i hi, hmirrored,
    fun _ hi => ?_⟩, hv⟩, hb.chains, hb.loose, hb.spares, hb.apart, hb.accounts, fun hf hle => ?_⟩
  · rw [hclean.hints]
    exact htaken.told hi
  · obtain hnone | ⟨⟨hi, hsigned⟩, hfree⟩ := htaken.free
    · have hlimit := M.G.le_limit
      have hmost := Nat.lt_of_lt_of_le M.G.fs_type.limit_lt M.G.fs_type.modulus_le
      omega
    · rw [hfree, (htold hf hi).free (hsettled.info hi) hsigned, hhints] at hle ⊢
      exact hb.counted hf hle

end Mounted

end Miso.Fat

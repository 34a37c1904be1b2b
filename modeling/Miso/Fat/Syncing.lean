import Miso.Fat.Writing

/-!
# Synchronising a file

* `Described` — the directory entry of a file has its start and its size;
* `f_sync_at` — `f_sync` writes the buffer, the directory entry and the window;
* `reopen_at` — a file that is opened again has the contents that are on the disk.
-/

namespace Miso.Fat

open Sd Zig

/-! ## The directory entry -/

/-- The entry of a file has been found in its directory, and the file is opened. -/
def reopen {δ : Type} (G : Geometry) (D : Disk δ) (dir_sect dir_ptr : Nat) (FA_READ FA_WRITE : Bool) :
    StateM (FATFS δ) (Option FIL) := do
  if (← move_window G D dir_sect) ≠ .FR_OK then return none
  return some (f_open.entry G (← get).win dir_sect dir_ptr FA_READ FA_WRITE)

/-- The directory entry in the sector `win` is that of the file. -/
structure Described (G : Geometry) (win : Block) (fp : FIL) : Prop where
  start : ld_clust G win fp.dir_ptr = fp.sclust
  size : ld_dword win (fp.dir_ptr + 28) = fp.objsize

/-- **What `f_sync` writes is what `f_open` reads.** -/
theorem entry_described {G : Geometry} {fp : FIL} {tm : Nat} {win : Block} (hptr : fp.dir_ptr + 32 ≤ 512)
    (hsclust : fp.sclust ≤ G.fs_type.limit) (hsize : fp.objsize < 4294967296) :
    Described G (f_sync.entry G fp tm win) fp := by
  obtain ⟨p, hp⟩ : ∃ p, p = fp.dir_ptr := ⟨_, rfl⟩
  rw [← hp] at hptr
  -- what is written after the clusters and the size
  obtain ⟨attr, hattr⟩ : ∃ attr, attr = setByte win (p + 11) (byte win (p + 11) ||| (0x20 : UInt8)) := ⟨_, rfl⟩
  have hentry : f_sync.entry G fp tm win = st_word (st_dword (st_dword (st_clust G attr p fp.sclust)
      (p + 28) fp.objsize) (p + 22) tm) (p + 18) 0 := by
    rw [hattr, hp]
    rfl
  have hlast : ∀ (b : Block) (j : Nat), j < 512 → ¬(p + 18 ≤ j ∧ j < p + 20) → ¬(p + 22 ≤ j ∧ j < p + 26) →
      byte (st_word (st_dword b (p + 22) tm) (p + 18) 0) j = byte b j := fun b j hj h₁ h₂ => by
    rw [byte_st_word (by omega) hj, if_neg (by omega), if_neg (by omega), byte_st_dword (by omega) hj,
      if_neg (by omega), if_neg (by omega), if_neg (by omega), if_neg (by omega)]
  have hword : ∀ (b : Block) (q : Nat), q + 2 ≤ 512 → q = p + 20 ∨ q = p + 26 →
      ld_word (st_word (st_dword (st_dword b (p + 28) fp.objsize) (p + 22) tm) (p + 18) 0) q = ld_word b q :=
    fun b q hq hcase => ld_word_congr fun j hlow hhigh => by
      rw [hlast _ j (by omega) (by omega) (by omega), byte_st_dword (by omega) (by omega), if_neg (by omega),
        if_neg (by omega), if_neg (by omega), if_neg (by omega)]
  have hlow : ld_word (st_word attr (p + 26) fp.sclust) (p + 26) = fp.sclust % 65536 :=
    ld_word_st_word (by omega)
  refine ⟨?_, ?_⟩
  · rw [hentry, ← hp]
    unfold ld_clust st_clust
    by_cases htype : G.fs_type = .FS_FAT32
    · have hkeep : ld_word (st_word (st_word attr (p + 26) fp.sclust) (p + 20) (fp.sclust >>> 16)) (p + 26) =
          fp.sclust % 65536 := by
        rw [← hlow]
        refine ld_word_congr fun j hlo hhi => ?_
        rw [byte_st_word (by omega) (by omega), if_neg (by omega), if_neg (by omega)]
      rw [if_pos htype, if_pos htype, hword _ _ (by omega) (.inr rfl), hword _ _ (by omega) (.inl rfl), hkeep,
        ld_word_st_word (by omega), Nat.shiftRight_eq_div_pow]
      rw [htype] at hsclust
      have hlimit : fp.sclust ≤ 0x0FFFFFF7 := hsclust
      have hor := Nat.shiftLeft_add_eq_or_of_lt (show fp.sclust % 65536 < 2 ^ 16 by omega)
        (fp.sclust / 2 ^ 16 % 65536)
      rw [Nat.or_comm, ← hor, Nat.shiftLeft_eq]
      omega
    · rw [if_neg htype, if_neg htype, hword _ _ (by omega) (.inr rfl), hlow]
      have hlimit : fp.sclust < 65536 := by
        cases htype' : G.fs_type with
        | FS_FAT12 =>
          rw [htype'] at hsclust
          exact Nat.lt_of_le_of_lt hsclust (by decide)
        | FS_FAT16 =>
          rw [htype'] at hsclust
          exact Nat.lt_of_le_of_lt hsclust (by decide)
        | FS_FAT32 => exact absurd htype' htype
      omega
  · have hsize' : ld_dword (f_sync.entry G fp tm win) (p + 28) =
        ld_dword (st_dword (st_clust G attr p fp.sclust) (p + 28) fp.objsize) (p + 28) := by
      rw [hentry]
      exact ld_dword_congr fun j hlo hhi => hlast _ j (by omega) (by omega) (by omega)
    rw [← hp, hsize', ld_dword_st_dword (by omega)]
    omega

namespace Mounted

variable {ι δ : Type} {M : Mounted δ} {files : ι → List Nat} {other : Nat → Prop}
  {data : Nat → Block} {fp : FIL} {spec : Nat → Option UInt8} {i : ι}

/-- The directory entry of a file is in a sector that is reached through the window. -/
structure Listed (M : Mounted δ) (fp : FIL) : Prop where
  window : M.W fp.dir_sect
  first : ¬M.G.First fp.dir_sect
  ptr : fp.dir_ptr + 32 ≤ 512

/-- Nothing is left to be written: the disk has what is in the window, and the number of free clusters. -/
structure Settled (M : Mounted δ) (fs : FATFS δ) : Prop where
  window : fs.wflag = false
  info : M.G.Informed → fs.fsi_flag = 0

variable (hM : M.Sane other) (hdir : M.Listed fp)

include hM hdir in
theorem update_at (tm : Nat) : Triple (M.Chained files other data) (f_sync.update M.G M.D tm fp) fun x fs =>
    (x = (.FR_OK, false) ∧ M.Settled fs) ∧ M.Chained files other
      (Function.update data fp.dir_sect (f_sync.entry M.G fp tm (data fp.dir_sect))) fs := by
  rintro fs ⟨T, h, ⟨v, hfs, hT, hdata⟩, hbooked⟩
  have hcore := M.windowed.core _ hdir.window
  have hrun : Triple (Cached M.G M.W M.faulty M.Has v h) (f_sync.update M.G M.D tm fp) fun x fs =>
      (x = (.FR_OK, false) ∧ M.Settled fs) ∧ ∃ flag, Cached M.G M.W M.faulty M.Has
        (Function.update v fp.dir_sect (f_sync.entry M.G fp tm (v fp.dir_sect))) { h with fsi_flag := flag } fs := by
    refine Triple.bind (move_window_at M.keeps M.windowed hdir.window) fun res =>
      Triple.ite (fun hne => fun fs' hfs' => absurd (hfs'.2.2 hne).faulty hM.sure) fun hok => ?_
    have hres : res = .FR_OK := Classical.byContradiction hok
    refine Triple.bind ((edit_at _ hdir.window).pre fun fs' hfs' => ⟨hfs'.1, hfs'.2.1 hres⟩) fun _ => ?_
    refine Triple.bind ((sync_fs_at M.keeps M.windowed).pre fun fs' hfs' => hfs'.1) fun r => Triple.ret ?_
    rintro fs' ⟨hcached, hclean, hfail⟩
    have hr : r = .FR_OK := Classical.byContradiction fun hne => hM.sure (hfail hne).faulty
    exact ⟨⟨by rw [hr], (hclean hr).1, (hclean hr).2 hM.sure⟩, hcached⟩
  obtain ⟨hx, flag, hfs'⟩ := hrun fs hfs
  refine ⟨hx, T, { h with fsi_flag := flag }, ⟨_, hfs', fun c hlow hhigh => ?_, fun j hj hfirst => ?_⟩,
    ⟨hbooked.chains, hbooked.loose, hbooked.spares, hbooked.apart, hbooked.accounts, hbooked.counted⟩⟩
  · rw [← hT c hlow hhigh]
    refine FsType.entry_congr (fun k hk => ?_) hhigh
    have hne : M.G.fatbase + k / 512 ≠ fp.dir_sect := fun heq => hdir.first ⟨by omega, by omega⟩
    unfold Geometry.bytes
    rw [Function.update_of_ne hne]
  · by_cases hj' : j = fp.dir_sect
    · rw [hj', Function.update_self, Function.update_self, hdata _ hcore hdir.first]
    · rw [Function.update_of_ne hj', Function.update_of_ne hj']
      exact hdata j hj hfirst

/-- **What `f_sync` leaves.** -/
structure Synced (M : Mounted δ) (files : ι → List Nat) (spec : Nat → Option UInt8) (i : ι)
    (data : Nat → Block) (fp : FIL) (tm : Nat) (data' : Nat → Block) (fp' : FIL) : Prop where
  same : fp' = { fp with FA_DIRTY := fp'.FA_DIRTY, FA_MODIFIED := false }
  own : ∀ s, s ≠ fp.dir_sect → (∀ c ∈ files i, ¬M.G.InCluster c s) → data' s = data s
  dir : data' fp.dir_sect =
    if fp.FA_MODIFIED then f_sync.entry M.G fp tm (data fp.dir_sect) else data fp.dir_sect
  dirty : fp.FA_MODIFIED = true → fp'.FA_DIRTY = false
  sound : Sound M.G data' (files i) spec fp'

include hM in
/-- The directory is not in the clusters of a file. -/
theorem Listed.apart (hdir : M.Listed fp) (hl : M.Mine other (files i)) :
    ∀ c ∈ files i, ¬M.G.InCluster c fp.dir_sect := fun c hc hin =>
  hl.apart c hc (hM.window _ c hdir.window hin)

include hM hdir in
theorem f_sync_at (tm : Nat) (hl : M.Mine other (files i)) (hsound : Sound M.G data (files i) spec fp) :
    Triple (M.Holding files other data fp) (f_sync M.G M.D tm) fun r s => ∃ data' fp', r = .FR_OK ∧
      (fp.FA_MODIFIED = true → M.Settled s.fs) ∧ M.Synced files spec i data fp tm data' fp' ∧
        M.Holding files other data' fp' s := by
  obtain ⟨hsized, hb, hplaced⟩ := hsound
  refine Triple.get_bind fun s hs => ?_
  rw [hs.fp]
  refine Triple.ite (fun hidle => ?_) fun hmod => ?_
  · refine Triple.ret fun s' heq => ⟨data, fp, rfl, fun hmod => absurd hmod hidle, ⟨?_, fun _ _ _ => rfl,
      (if_neg hidle).symm, fun hmod => absurd hmod hidle, hsized, hb, hplaced⟩, heq ▸ hs⟩
    exact congrArg (fun m => { fp with FA_MODIFIED := m }) (eq_false_of_ne_true hidle)
  · have hmod' : fp.FA_MODIFIED = true := Classical.byContradiction hmod
    obtain ⟨hclean, hown⟩ := flushed_spec hb
    have hapart := hdir.apart hM hl
    have hflush : Triple (M.Holding files other data fp) (f_sync.flush M.D) fun r s =>
        r = .RES_OK ∧ M.Holding files other (flushed data fp) { fp with FA_DIRTY := false } s := by
      refine Triple.get_bind fun s hs => ?_
      rw [hs.fp]
      refine Triple.pre (Triple.ite (fun hd => ?_) fun hd => Triple.ret fun s' hs' => ⟨rfl, ?_⟩)
        fun s' heq => heq ▸ hs
      · obtain ⟨c, hc⟩ := hl.dirty hb hd
        have hwrite : Triple (M.Chained files other data) (onDisk (M.D.disk_write fp.buf.toList fp.sect 1))
            fun r fs => r = .RES_OK ∧ M.Chained files other (store data fp.sect 1 fp.buf.toList) fs :=
          write_at hM hc Nat.one_pos (Nat.le_of_eq Vector.length_toList.symm)
        rintro s' ⟨hfp, hfs⟩
        obtain ⟨hres, hfs'⟩ := hwrite s'.fs hfs
        refine ⟨hres, ?_, ?_⟩
        · show ({ s'.fp with FA_DIRTY := if (onDisk (M.D.disk_write fp.buf.toList fp.sect 1) s'.fs).1 = .RES_OK
            then false else true } : FIL) = _
          rw [if_pos hres, hfp]
        · unfold flushed
          rw [if_pos hd, ← store_one]
          exact hfs'
      · unfold flushed
        rw [if_neg hd]
        exact ⟨hs'.fp.trans (congrArg (fun d => { fp with FA_DIRTY := d }) (eq_false_of_ne_true hd)), hs'.fs⟩
    refine Triple.pre (Triple.bind hflush fun r => Triple.assume ?_) fun s' heq => heq ▸ hs
    rintro rfl
    rw [if_neg (by simp)]
    refine Triple.get_bind fun s₁ hs₁ => ?_
    rw [hs₁.fp]
    have hdir' : M.Listed { fp with FA_DIRTY := false } := ⟨hdir.window, hdir.first, hdir.ptr⟩
    obtain ⟨⟨hx, hsettled⟩, hfs⟩ := update_at hM hdir' tm s₁.fs hs₁.fs
    rintro s' rfl
    have hdata : flushed data fp fp.dir_sect = data fp.dir_sect := hown _ hapart
    refine ⟨_, { fp with FA_DIRTY := false, FA_MODIFIED := false }, congrArg Prod.fst hx, fun _ => hsettled,
      ⟨rfl, fun s hne hs => ?_, ?_, fun _ => rfl, ⟨hsized.start, hsized.below, hsized.fits, hsized.size_lt⟩, ?_,
        ⟨hplaced.fptr_le, hplaced.clust, hplaced.sect⟩⟩, ?_, hfs⟩
    · rw [Function.update_of_ne hne]
      exact hown s hs
    · show Function.update _ _ _ fp.dir_sect = _
      rw [Function.update_self, if_pos hmod', hdata]
      rfl
    · have hb' : Buffered M.G (flushed data fp) (files i) spec { fp with FA_DIRTY := false, FA_MODIFIED := false } :=
        ⟨hclean.kept, hclean.held, hclean.dirty, hclean.sect_lt⟩
      refine hb'.apart ⟨hsized.start, hsized.below, hsized.fits, hsized.size_lt⟩ fun c hc s hin =>
        Function.update_of_ne ?_ _ _
      rintro rfl
      exact hapart c hc hin
    · exact (congrArg (fun m => { s'.fp with FA_MODIFIED := m }) (congrArg Prod.snd hx)).trans
        (congrArg (fun fp => { fp with FA_MODIFIED := false }) hs₁.fp)

/-- **A file that is opened again** has the contents that are on the disk. -/
theorem reopened {r w : Bool} (hsound : Sound M.G data (files i) spec fp)
    (hdirty : fp.FA_DIRTY = false) (hentry : Described M.G (data fp.dir_sect) fp) :
    Sound M.G data (files i) spec (f_open.entry M.G (data fp.dir_sect) fp.dir_sect fp.dir_ptr r w) := by
  obtain ⟨hsized, hb, hplaced⟩ := hsound
  have hsclust : (f_open.entry M.G (data fp.dir_sect) fp.dir_sect fp.dir_ptr r w).sclust = fp.sclust :=
    hentry.start
  have hsize : (f_open.entry M.G (data fp.dir_sect) fp.dir_sect fp.dir_ptr r w).objsize = fp.objsize :=
    hentry.size
  refine ⟨⟨hsclust.trans hsized.start, fun o b ho => hsize ▸ hsized.below o b ho, hsize ▸ hsized.fits,
    hsize ▸ hsized.size_lt⟩, ⟨fun o b ho _ => hb.kept o b ho fun hd => ?_, fun o b ho hs => ?_,
      fun hd => absurd hd (by simp [f_open.entry]), ?_⟩, ⟨Nat.zero_le _, fun hpos => ?_, fun hne => ?_⟩⟩
  · exact absurd (hdirty.symm.trans hd) (by decide)
  · have hs' : 0 = M.G.sectorOf (files i) o := hs
    have hpos := M.G.database_pos
    unfold Geometry.sectorOf Geometry.base at hs'
    omega
  · show 0 < 4294967296
    decide
  · exact absurd hpos (Nat.lt_irrefl 0)
  · exact absurd (show (0 : Nat) % 512 = 0 by decide) hne

include hM hdir in
theorem reopen_at (r w : Bool) : Triple (M.Chained files other data)
    (reopen M.G M.D fp.dir_sect fp.dir_ptr r w) fun x fs =>
      x = some (f_open.entry M.G (data fp.dir_sect) fp.dir_sect fp.dir_ptr r w) ∧
        M.Chained files other data fs := by
  rintro fs ⟨T, h, ⟨v, hfs, hT, hdata⟩, hbooked⟩
  have hrun : Triple (Cached M.G M.W M.faulty M.Has v h) (reopen M.G M.D fp.dir_sect fp.dir_ptr r w)
      fun x fs => x = some (f_open.entry M.G (v fp.dir_sect) fp.dir_sect fp.dir_ptr r w) ∧
        Cached M.G M.W M.faulty M.Has v h fs := by
    refine Triple.bind (move_window_at M.keeps M.windowed hdir.window) fun res =>
      Triple.ite (fun hne => fun fs' hfs' => absurd (hfs'.2.2 hne).faulty hM.sure) fun hok => ?_
    have hres : res = .FR_OK := Classical.byContradiction hok
    refine Triple.get_bind fun fs' hfs' => Triple.ret ?_
    rintro _ rfl
    have hsect := hfs'.2.1 hres
    refine ⟨?_, hfs'.1⟩
    rw [hfs'.1.win (hsect ▸ hdir.window), hsect]
  obtain ⟨hx, hfs'⟩ := hrun fs hfs
  rw [hdata _ (M.windowed.core _ hdir.window) hdir.first] at hx
  exact ⟨hx, T, h, ⟨v, hfs', hT, hdata⟩, hbooked⟩

end Mounted

end Miso.Fat

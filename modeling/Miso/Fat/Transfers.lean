import Miso.Fat.Contents

/-!
# The sectors of an open file

On a disk that does not fail:

* `read_at`, `write_at` — sectors of a cluster are read and written past the window;
* `flush_at`, `fill_at` — the buffer of a file is written back and filled;
* `sector_at` — a sector of the cluster that the file is at.
-/

namespace Miso.Fat

open Sd Zig

/-- The table, where its bytes are the same. -/
theorem FsType.entry_congr {G : Geometry} {f g : Nat → UInt8} {c : Nat}
    (h : ∀ k, k < G.fsize * 512 → f k = g k) (hc : c < G.n_fatent) :
    G.fs_type.entry f c = G.fs_type.entry g c := by
  have htable := G.table_fits
  cases htype : G.fs_type with
  | FS_FAT12 =>
    rw [htype] at htable
    replace htable : G.n_fatent * 3 / 2 + G.n_fatent % 2 ≤ G.fsize * 512 := htable
    have h₁ := h (c + c / 2) (by omega)
    have h₂ := h (c + c / 2 + 1) (by omega)
    simp only [FsType.entry, h₁, h₂]
  | FS_FAT16 =>
    rw [htype] at htable
    replace htable : G.n_fatent * 2 ≤ G.fsize * 512 := htable
    have h₁ := h (c * 2) (by omega)
    have h₂ := h (c * 2 + 1) (by omega)
    simp only [FsType.entry, h₁, h₂]
  | FS_FAT32 =>
    rw [htype] at htable
    replace htable : G.n_fatent * 4 ≤ G.fsize * 512 := htable
    have h₁ := h (c * 4) (by omega)
    have h₂ := h (c * 4 + 1) (by omega)
    have h₃ := h (c * 4 + 2) (by omega)
    have h₄ := h (c * 4 + 3) (by omega)
    simp only [FsType.entry, h₁, h₂, h₃, h₄]

namespace Mounted

variable {δ : Type} {M : Mounted δ} {ι : Type} {files : ι → List Nat} {other : Nat → Prop}
  {data : Nat → Block}

/-- Sectors of a cluster that is not one of the `other` ones. -/
structure Within (M : Mounted δ) (other : Nat → Prop) (c s n : Nat) : Prop where
  low : 2 ≤ c
  high : c < M.G.n_fatent
  apart : ¬other c
  first : M.G.base c ≤ s
  last : s + n ≤ M.G.base c + M.G.csize

/-- The volume of the files: the disk does not fail, and the window does not reach their clusters. -/
structure Sane (M : Mounted δ) (other : Nat → Prop) : Prop where
  sure : ¬M.faulty
  window : ∀ s c, M.W s → M.G.InCluster c s → other c

variable {c s n : Nat}

theorem Within.sectors (h : M.Within other c s n) {i : Nat} (hi : s ≤ i ∧ i < s + n) :
    M.G.InCluster c i := by
  have hfirst := h.first
  have hlast := h.last
  exact ⟨by omega, by omega⟩

theorem Within.end_le (h : M.Within other c s n) (hn : 0 < n) : s + n ≤ M.G.capacity ∧ M.G.database ≤ s := by
  have hfirst := (h.sectors (i := s) (by omega)).range h.low h.high
  have hlast := (h.sectors (i := s + n - 1) (by omega)).range h.low h.high
  omega

variable (hM : M.Sane other)

include hM in
theorem read_at (h : M.Within other c s n) (hn : 0 < n) :
    Triple (M.Chained files other data) (onDisk (M.D.disk_read s n)) fun x fs =>
      x = (.RES_OK, load data s n) ∧ M.Chained files other data fs := by
  rintro fs ⟨T, h', ⟨v, ⟨hhints, blocks, hhas, hb⟩, hT, hdata⟩, hbooked⟩
  obtain ⟨hhas', hok, hfault⟩ := M.keeps.read blocks s n hn (h.end_le hn).1 fs.disk hhas
  have hres : (M.D.disk_read s n fs.disk).1.1 = .RES_OK :=
    Classical.byContradiction fun hne => hM.sure (hfault hne)
  have hload : load blocks s n = load data s n := load_congr fun i hi hi' => by
    have hin := h.sectors ⟨hi, hi'⟩
    obtain ⟨hcore, hfirst⟩ := hin.core h.low h.high
    rw [hb.clean i hcore fun hd heq => ?_, hdata i hcore hfirst]
    exact h.apart (hM.window i c (heq ▸ hb.dirty hd) hin)
  refine ⟨Prod.ext hres ((hok hres).trans hload), T, h', ⟨v, ⟨hhints, blocks, hhas', ?_⟩, hT, hdata⟩, hbooked⟩
  exact ⟨hb.dirty, hb.win, hb.clean, hb.mirrored, hb.told⟩

include hM in
theorem write_at {buff : List UInt8} (h : M.Within other c s n) (hn : 0 < n)
    (hbuff : 512 * n ≤ buff.length) :
    Triple (M.Chained files other data) (onDisk (M.D.disk_write buff s n)) fun r fs =>
      r = .RES_OK ∧ M.Chained files other (store data s n buff) fs := by
  rintro fs ⟨T, h', ⟨v, ⟨hhints, blocks, hhas, hb⟩, hT, hdata⟩, hbooked⟩
  obtain ⟨hend, hbegin⟩ := h.end_le hn
  obtain ⟨htable, -, hsecond⟩ := M.G.fsize_le
  obtain ⟨blocks', hhas', hframe, hok, hfault⟩ :=
    M.keeps.write blocks buff s n hn hend hbuff fs.disk hhas
  have hres : (M.D.disk_write buff s n fs.disk).1 = .RES_OK :=
    Classical.byContradiction fun hne => hM.sure (hfault hne)
  have hout {f : Nat → Block} {i : Nat} (hi : ¬(s ≤ i ∧ i < s + n)) : store f s n buff i = f i := if_neg hi
  have hin {f g : Nat → Block} {i : Nat} (hi : s ≤ i ∧ i < s + n) : store f s n buff i = store g s n buff i :=
    (if_pos hi).trans (if_pos hi).symm
  have hwindow : ∀ i, M.W i → ¬(s ≤ i ∧ i < s + n) := fun i hw hi =>
    h.apart (hM.window i c hw (h.sectors hi))
  refine ⟨hres, T, h', ⟨store v s n buff, ⟨hhints, blocks', hhas', hb.dirty, fun hw => ?_, fun i hi hd => ?_,
    fun hf htwo i hi => ?_, fun hf hi => ?_⟩, fun d hd hdn => ?_, fun i hi hfirst => ?_⟩, hbooked⟩
  · rw [hout (hwindow _ hw)]
    exact hb.win hw
  · rw [hok hres]
    by_cases hi' : s ≤ i ∧ i < s + n
    · exact hin hi'
    · rw [hout hi', hout hi']
      exact hb.clean i hi hd
  · have hlow := hi.2
    have hhigh := hsecond htwo
    rw [hframe i (by omega), hframe _ (by omega)]
    exact hb.mirrored hf htwo i hi
  · have hlt := hi.lt
    exact (hb.told hf hi).congr (hframe _ (by omega))
  · rw [← hT d hd hdn]
    refine FsType.entry_congr (fun k hk => ?_) hdn
    unfold Geometry.bytes
    rw [hout (by omega)]
  · by_cases hi' : s ≤ i ∧ i < s + n
    · exact hin hi'
    · rw [hout hi', hout hi']
      exact hdata i hi hfirst

/-! ## Functions of a file -/

/-- An open file, and the volume. -/
structure Holding (M : Mounted δ) (files : ι → List Nat) (other : Nat → Prop) (data : Nat → Block)
    (fp : FIL) (s : Opened δ) : Prop where
  fp : s.fp = fp
  fs : M.Chained files other data s.fs

/-- A function that does not fail. -/
def Acts {δ α : Type} (P : Opened δ → Prop) (m : Act δ α) (Q : α → Opened δ → Prop) : Prop :=
  Tries P m Q fun _ _ => False

variable {fp : FIL} {files' : ι → List Nat} {data' : Nat → Block} {α : Type}

theorem volume_at {m : StateM (FATFS δ) α} {C : α → Prop}
    (h : Triple (M.Chained files other data) m fun a fs => C a ∧ M.Chained files' other data' fs) :
    Acts (M.Holding files other data fp) (volume m) fun a s => C a ∧ M.Holding files' other data' fp s := by
  refine Tries.lift ?_
  rintro s ⟨rfl, hfs⟩
  obtain ⟨hc, hfs'⟩ := h s.fs hfs
  exact ⟨hc, rfl, hfs'⟩

theorem fil_at : Acts (M.Holding files other data fp) fil fun a s =>
    a = fp ∧ M.Holding files other data fp s := fun s hs =>
  ⟨fun a ha => by
    obtain rfl : s.fp = a := Except.ok.inj ha
    exact ⟨hs.fp, hs⟩, fun e he => by
    have hne : (Except.ok s.fp : Except (Option FRESULT) FIL) = .error e := he
    cases hne⟩

theorem setFil_at (g : FIL → FIL) : Acts (M.Holding files other data fp) (setFil g) fun _ =>
    M.Holding files other data (g fp) := fun s hs =>
  ⟨fun a _ => ⟨congrArg g hs.fp, hs.fs⟩, fun e he => by
    have hne : (Except.ok () : Except (Option FRESULT) Unit) = .error e := he
    cases hne⟩

/-- A check that does not fail. -/
theorem abortIf_at {c : Prop} [Decidable c] {P : Opened δ → Prop} {res : FRESULT} (hc : ¬c) :
    Acts P (abortIf c res) fun _ => P := by
  unfold abortIf
  rw [if_neg hc]
  exact Tries.ret fun _ hs => hs

include hM in
theorem disk_read_at (h : M.Within other c s n) (hn : 0 < n) :
    Acts (M.Holding files other data fp) (disk (M.D.disk_read s n)) fun x s' =>
      x = (.RES_OK, load data s n) ∧ M.Holding files other data fp s' :=
  volume_at (read_at hM h hn)

include hM in
theorem disk_write_at {buff : List UInt8} (h : M.Within other c s n) (hn : 0 < n)
    (hbuff : 512 * n ≤ buff.length) :
    Acts (M.Holding files other data fp) (disk (M.D.disk_write buff s n)) fun r s' =>
      r = .RES_OK ∧ M.Holding files other (store data s n buff) fp s' :=
  volume_at (write_at hM h hn hbuff)

/-- The sectors after the buffer has been written back. -/
def flushed (data : Nat → Block) (fp : FIL) : Nat → Block :=
  if fp.FA_DIRTY then Function.update data fp.sect fp.buf else data

include hM in
theorem flush_at (h : fp.FA_DIRTY = true → ∃ c, M.Within other c fp.sect 1) :
    Acts (M.Holding files other data fp) (flush M.D) fun _ =>
      M.Holding files other (flushed data fp) { fp with FA_DIRTY := false } := by
  refine Tries.bind fil_at fun fp' => Tries.assume ?_
  rintro rfl
  refine Tries.ite (fun hd => ?_) fun hd => ?_
  · obtain ⟨c, hc⟩ := h hd
    refine Tries.bind (disk_write_at hM hc Nat.one_pos (Nat.le_of_eq Vector.length_toList.symm))
      fun r => Tries.assume ?_
    rintro rfl
    refine Tries.bind (abortIf_at (by simp)) fun _ => ?_
    unfold flushed
    rw [if_pos hd, ← store_one]
    exact setFil_at _
  · have hclean : { fp' with FA_DIRTY := false } = fp' :=
      congrArg (fun d => { fp' with FA_DIRTY := d }) (eq_false_of_ne_true hd).symm
    unfold flushed
    rw [if_neg hd, hclean]
    exact Tries.ret fun _ hs => hs

include hM in
theorem fill_at (h : M.Within other c s 1) :
    Acts (M.Holding files other data fp) (fill M.D s) fun _ =>
      M.Holding files other data { fp with buf := data s } := by
  refine Tries.bind (disk_read_at hM h Nat.one_pos) fun x => Tries.assume ?_
  rintro rfl
  refine Tries.bind (setFil_at _) fun _ => ?_
  rw [load_one, filled_block]
  exact abortIf_at (by simp)

theorem sector_at {csect : Nat} (hlow : 2 ≤ fp.clust) (hhigh : fp.clust < M.G.n_fatent) :
    Acts (M.Holding files other data fp) (sector M.G csect) fun x s =>
      x = M.G.base fp.clust + csect ∧ M.Holding files other data fp s := by
  refine Tries.bind fil_at fun fp' => Tries.assume ?_
  rintro rfl
  rw [Geometry.clst2sect_eq hlow hhigh]
  exact Tries.bind (abortIf_at (Geometry.base_ne _)) fun _ => Tries.ret fun _ hs => ⟨rfl, hs⟩

end Mounted

end Miso.Fat

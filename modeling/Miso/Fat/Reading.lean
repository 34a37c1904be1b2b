import Miso.Fat.Transfers

/-!
# Reading a file

* `Mine` — the clusters of a file are its own;
* `f_read.round_at` — a round reads some of the bytes, in the order of the file;
* `f_read_at` — `f_read` reads as many bytes as it is asked for, or there are.
-/

namespace Miso.Fat

open Sd Zig

/-- The mode of a file, which reading and writing do not change. -/
structure FIL.Mode (fp fp' : FIL) : Prop where
  read : fp'.FA_READ = fp.FA_READ
  write : fp'.FA_WRITE = fp.FA_WRITE
  err : fp'.err = fp.err
  dir_sect : fp'.dir_sect = fp.dir_sect
  dir_ptr : fp'.dir_ptr = fp.dir_ptr

theorem Own.rfl {G : Geometry} {l : List Nat} {data : Nat → Block} : Own G l data data := fun _ _ => Eq.refl _

theorem Own.trans {G : Geometry} {l : List Nat} {data data' data'' : Nat → Block} (h : Own G l data data')
    (h' : Own G l data' data'') : Own G l data data'' := fun s hs => (h' s hs).trans (h s hs)

theorem Geometry.sectorOf_eq {G : Geometry} {l : List Nat} {o c : Nat} (h : l[o / G.bcs]? = some c) :
    G.sectorOf l o = G.base c + o / 512 % G.csize := by
  unfold Geometry.sectorOf
  rw [List.getD_eq_getElem?_getD, h, Option.getD_some]

namespace Geometry

variable {G : Geometry} {p o : Nat}

/-- On the boundary of a cluster. -/
theorem boundary (hp : p % 512 = 0) (hc : p / 512 % G.csize = 0) : p = p / G.bcs * G.bcs := by
  have hdiv := Nat.div_add_mod (p / 512) G.csize
  rw [hc, Nat.add_zero, div_bcs] at hdiv
  calc p = 512 * (p / 512) := by omega
    _ = 512 * (G.csize * (p / G.bcs)) := by rw [hdiv]
    _ = p / G.bcs * G.bcs := by
      unfold bcs
      rw [Nat.mul_comm 512, Nat.mul_comm G.csize, Nat.mul_assoc]

/-- The cluster before the boundary. -/
theorem boundary_pred (hp : p % 512 = 0) (hc : p / 512 % G.csize = 0) (hpos : 0 < p) :
    (p - 1) / G.bcs + 1 = p / G.bcs := by
  have heq := boundary hp hc
  have hbcs := G.bcs_pos
  obtain hzero | hq := Nat.eq_zero_or_pos (p / G.bcs)
  · rw [hzero] at heq
    omega
  · obtain ⟨q, hq'⟩ : ∃ q, p / G.bcs = q + 1 := ⟨p / G.bcs - 1, by omega⟩
    rw [hq', Nat.succ_mul] at heq
    rw [hq', show p - 1 = q * G.bcs + (G.bcs - 1) by omega, Nat.mul_comm, Nat.mul_add_div hbcs,
      Nat.div_eq_of_lt (by omega)]

/-- Within a cluster the byte before another one is in the same cluster. -/
theorem interior (hp : p / 512 % G.csize ≠ 0 ∨ p % 512 ≠ 0) : (p - 1) / G.bcs = p / G.bcs := by
  have hbcs := G.bcs_pos
  have hdiv := Nat.div_add_mod p G.bcs
  have hmod := Nat.mod_lt p hbcs
  have hne : p % G.bcs ≠ 0 := by
    intro hzero
    rw [hzero, Nat.add_zero] at hdiv
    have hsect : p = 512 * (G.csize * (p / G.bcs)) := by
      unfold bcs at hdiv ⊢
      rw [← Nat.mul_assoc, Nat.mul_comm 512, hdiv]
    have h512 : p / 512 = G.csize * (p / G.bcs) := by omega
    obtain hc | hp := hp
    · rw [h512, Nat.mul_mod_right] at hc
      exact hc rfl
    · omega
  rw [show p - 1 = G.bcs * (p / G.bcs) + (p % G.bcs - 1) by omega, Nat.mul_add_div hbcs,
    Nat.div_eq_of_lt (show p % G.bcs - 1 < G.bcs by omega), Nat.add_zero]

end Geometry

/-- The pointer is moved within a cluster, or to its end. -/
theorem Placed.moved {G : Geometry} {l : List Nat} {fp : FIL} {p m c : Nat} (hc : l[p / G.bcs]? = some c)
    (hclust : fp.clust = c) (hfptr : fp.fptr = p + m) (hle : fp.fptr ≤ fp.objsize)
    (hsame : (p + m - 1) / G.bcs = p / G.bcs)
    (hsect : (p + m) % 512 ≠ 0 → fp.sect = G.sectorOf l (p + m)) : Placed G l fp := by
  refine ⟨hle, fun _ => ?_, fun hne => ?_⟩
  · rw [hfptr, hsame, hc, hclust]
  · rw [hfptr] at hne ⊢
    exact hsect hne

namespace Mounted

variable {δ : Type} {M : Mounted δ} {ι : Type} {files : ι → List Nat} {other : Nat → Prop}
  {data : Nat → Block} {fp : FIL} {spec : Nat → Option UInt8} {i : ι}

/-- The clusters of a file are its own. -/
structure Mine (M : Mounted δ) (other : Nat → Prop) (l : List Nat) : Prop where
  nodup : l.Nodup
  range : ∀ c ∈ l, 2 ≤ c ∧ c < M.G.n_fatent
  apart : ∀ c ∈ l, ¬other c

theorem Chained.mine {fs : FATFS δ} (h : M.Chained files other data fs) (i : ι) :
    M.Mine other (files i) := by
  obtain ⟨T, h', -, hb⟩ := h
  exact ⟨hb.chains.nodup i, hb.chains.range i, fun c hc ho => hb.spares.apart c i ho hc⟩

theorem Mine.within {l : List Nat} {c s n : Nat} (h : M.Mine other l) (hc : c ∈ l) (hfirst : M.G.base c ≤ s)
    (hlast : s + n ≤ M.G.base c + M.G.csize) : M.Within other c s n :=
  ⟨(h.range c hc).1, (h.range c hc).2, h.apart c hc, hfirst, hlast⟩

theorem Mine.sect_lt {l : List Nat} {c s n : Nat} (h : M.Mine other l) (hc : c ∈ l)
    (hfirst : M.G.base c ≤ s) (hlast : s + n ≤ M.G.base c + M.G.csize) (hn : 0 < n) :
    s + n < 4294967296 :=
  Nat.lt_of_le_of_lt ((h.within hc hfirst hlast).end_le hn).1 M.G.capacity_lt

theorem split_two {l : List Nat} {k a b : Nat} (ha : l[k]? = some a) (hb : l[k + 1]? = some b) :
    l = l.take k ++ a :: b :: l.drop (k + 2) := by
  obtain ⟨hk, ha⟩ := List.getElem?_eq_some_iff.mp ha
  obtain ⟨hk', hb⟩ := List.getElem?_eq_some_iff.mp hb
  rw [← ha, ← hb, ← List.drop_eq_getElem_cons hk', ← List.drop_eq_getElem_cons hk, List.take_append_drop]

/-- The cluster behind another one is read from the table. -/
theorem follow_at {k a b : Nat} (hM : M.Sane other) (ha : (files i)[k]? = some a)
    (hb : (files i)[k + 1]? = some b) : Triple (M.Chained files other data) (get_fat M.G M.D a) fun x fs =>
      x = b ∧ M.Chained files other data fs := by
  rintro fs ⟨T, h, hT, hbooked⟩
  have hrange := hbooked.chains.range i a (List.mem_of_getElem? ha)
  obtain ⟨hx | ⟨hf, -⟩, hT'⟩ := get_at hrange.1 hrange.2 fs hT
  · exact ⟨hx.trans (hbooked.chains.link (split_two ha hb)), T, h, hT', hbooked⟩
  · exact absurd hf hM.sure

variable (hM : M.Sane other) (hl : M.Mine other (files i))

theorem get_cluster {l : List Nat} {o : Nat} (ho : o < l.length * M.G.bcs) :
    ∃ c ∈ l, l[o / M.G.bcs]? = some c := by
  obtain ⟨c, hc, hget, -⟩ := M.G.sectorOf_mem ho
  exact ⟨c, hc, hget⟩

include hM in
/-- The cluster of the pointer. -/
theorem f_read.advance_at {c : Nat} (hsized : Sized M.G (files i) spec fp) (hplaced : Placed M.G (files i) fp)
    (hp : fp.fptr % 512 = 0) (hc : (files i)[fp.fptr / M.G.bcs]? = some c) (hlow : 2 ≤ c)
    (hhigh : c < M.G.n_fatent) :
    Acts (M.Holding files other data fp) (f_read.advance M.G M.D (fp.fptr / 512 % M.G.csize)) fun _ =>
      M.Holding files other data { fp with clust := c } := by
  unfold f_read.advance
  refine Tries.ite (fun hsect => ?_) fun hsect => ?_
  · have hnext : Acts (M.Holding files other data fp) (f_read.next M.G M.D) fun x s =>
        x = c ∧ M.Holding files other data fp s := by
      refine Tries.bind fil_at fun fp' => Tries.assume ?_
      rintro rfl
      refine Tries.ite (fun hzero => ?_) fun hpos => ?_
      · refine Tries.ret fun s hs => ⟨?_, hs⟩
        rw [hzero, Nat.zero_div] at hc
        rw [hsized.start, List.head?_eq_getElem?, hc]
        rfl
      · have hpred := Geometry.boundary_pred hp hsect (Nat.pos_of_ne_zero hpos)
        rw [← hpred] at hc
        exact volume_at (follow_at hM (hplaced.clust (Nat.pos_of_ne_zero hpos)) hc)
    have hmodulus := M.G.fs_type.modulus_le
    have hlimit := Nat.lt_of_le_of_lt M.G.le_limit M.G.fs_type.limit_lt
    refine Tries.bind hnext fun x => Tries.assume ?_
    rintro rfl
    exact Tries.bind (abortIf_at (by omega)) fun _ => Tries.bind (abortIf_at (by omega)) fun _ =>
      setFil_at _
  · refine Tries.ret fun s hs => ?_
    have hpos : 0 < fp.fptr := Nat.pos_of_ne_zero fun h0 => hsect (by rw [h0, Nat.zero_div, Nat.zero_mod])
    have hclust := hplaced.clust hpos
    rw [Geometry.interior (.inl hsect), hc] at hclust
    have hsame : { fp with clust := c } = fp :=
      congrArg (fun d => { fp with clust := d }) (Option.some.inj hclust)
    rw [hsame]
    exact hs

theorem Mine.dirty {l : List Nat} (hl : M.Mine other l) (h : Buffered M.G data l spec fp) :
    fp.FA_DIRTY = true → ∃ c, M.Within other c fp.sect 1 := fun hd => by
  obtain ⟨c, hc, hin⟩ := h.dirty hd
  exact ⟨c, hl.within hc hin.1 hin.2⟩

/-- The buffer has been written back. -/
theorem flushed_spec {l : List Nat} (h : Buffered M.G data l spec fp) :
    Buffered M.G (flushed data fp) l spec { fp with FA_DIRTY := false } ∧ Own M.G l data (flushed data fp) := by
  unfold flushed
  by_cases hd : fp.FA_DIRTY = true
  · rw [if_pos hd]
    refine ⟨h.flush, fun s hs => Function.update_of_ne ?_ _ _⟩
    rintro rfl
    obtain ⟨c, hc, hin⟩ := h.dirty hd
    exact hs c hc hin
  · rw [if_neg hd]
    have hclean : { fp with FA_DIRTY := false } = fp :=
      congrArg (fun d => { fp with FA_DIRTY := d }) (eq_false_of_ne_true hd).symm
    rw [hclean]
    exact ⟨h, Own.rfl⟩

include hM hl in
/-- The sector is brought into the buffer. -/
theorem f_read.buffer_at {c s : Nat} (h : Buffered M.G data (files i) spec fp) (hc : c ∈ files i)
    (hs : M.G.InCluster c s) :
    Acts (M.Holding files other data fp) (f_read.buffer M.D s) fun _ o =>
      ∃ data' b d, M.Holding files other data' { fp with buf := b, sect := s, FA_DIRTY := d } o ∧
        Own M.G (files i) data data' ∧
        Buffered M.G data' (files i) spec { fp with buf := b, sect := s, FA_DIRTY := d } := by
  have hlt := hl.sect_lt hc hs.1 hs.2 Nat.one_pos
  obtain ⟨hflush, hown⟩ := flushed_spec h
  have hhold : Acts (M.Holding files other data fp) (f_read.hold M.D s)
      fun _ o => ∃ data' b d, M.Holding files other data' { fp with buf := b, FA_DIRTY := d } o ∧
        Own M.G (files i) data data' ∧
        Buffered M.G data' (files i) spec { fp with buf := b, sect := s, FA_DIRTY := d } := by
    refine Tries.bind fil_at fun fp' => Tries.assume ?_
    rintro rfl
    refine Tries.ite (fun _ => ?_) fun heq => ?_
    · refine Tries.bind (flush_at hM (hl.dirty h)) fun _ => ?_
      exact Tries.post (fill_at hM (hl.within hc hs.1 hs.2)) fun _ o ho =>
        ⟨_, _, _, ho, hown, hflush.load rfl (by omega)⟩
    · obtain rfl : fp'.sect = s := Classical.byContradiction heq
      exact Tries.ret fun o ho => ⟨data, _, _, ho, Own.rfl, h⟩
  refine Tries.bind hhold fun _ => Tries.named ?_
  rintro o ⟨data', b, d, ho, hown', hb⟩
  exact Tries.pre (Tries.post (setFil_at _) fun _ o' ho' => ⟨data', b, d, ho', hown', hb⟩)
    fun o' heq => heq ▸ ho

/-- What a round of `f_read` leaves. -/
structure Rounded (M : Mounted δ) (files : ι → List Nat) (spec : Nat → Option UInt8) (i : ι)
    (data : Nat → Block) (fp : FIL) (btr : Nat) (bytes : List UInt8) (data' : Nat → Block) (fp' : FIL) :
    Prop where
  same : fp' = { fp with clust := fp'.clust, buf := fp'.buf, sect := fp'.sect, FA_DIRTY := fp'.FA_DIRTY }
  own : Own M.G (files i) data data'
  pos : 0 < bytes.length
  le : bytes.length ≤ btr
  reads : Reads spec fp.fptr bytes
  sound : Sound M.G data' (files i) spec { fp' with fptr := fp.fptr + bytes.length }

/-- Bytes are read from the buffer. -/
theorem f_read.part_at {btr : Nat} (hsized : Sized M.G (files i) spec fp)
    (hbuffered : Buffered M.G data (files i) spec fp)
    (hc : (files i)[fp.fptr / M.G.bcs]? = some fp.clust) (hs : fp.sect = M.G.sectorOf (files i) fp.fptr)
    (hpos : 0 < btr) (hle : fp.fptr + btr ≤ fp.objsize) :
    Acts (M.Holding files other data fp) (f_read.part btr) fun bytes s =>
      M.Rounded files spec i data fp btr bytes data fp ∧ M.Holding files other data fp s := by
  refine Tries.bind fil_at fun fp' => Tries.assume ?_
  rintro rfl
  refine Tries.ret fun s hs' => ⟨?_, hs'⟩
  have hbuf : fp'.buf.toList.length = 512 := Vector.length_toList
  have hmod := Nat.mod_lt fp'.fptr (show 0 < 512 by decide)
  have hlen : ((fp'.buf.toList.drop (fp'.fptr % 512)).take (min (512 - fp'.fptr % 512) btr)).length =
      min (512 - fp'.fptr % 512) btr := by
    rw [List.length_take, List.length_drop, hbuf]
    omega
  refine ⟨rfl, Own.rfl, by omega, by omega, hbuffered.part hs (by omega),
    ⟨hsized.start, hsized.below, hsized.fits, hsized.size_lt⟩,
    ⟨hbuffered.kept, hbuffered.held, hbuffered.dirty, hbuffered.sect_lt⟩, ?_⟩
  rw [hlen]
  refine Placed.moved (m := min (512 - fp'.fptr % 512) btr) hc rfl rfl ?_ ?_ fun hne => ?_
  · show fp'.fptr + _ ≤ fp'.objsize
    omega
  · exact (Geometry.sectorOf_same (l := files i) (by omega)).2
  · exact hs.trans (Geometry.sectorOf_same (by omega)).1.symm

theorem clipped_le {csect cc : Nat} (hcsect : csect < M.G.csize) (hcc : 0 < cc) :
    0 < clipped M.G csect cc ∧ clipped M.G csect cc ≤ cc ∧ csect + clipped M.G csect cc ≤ M.G.csize := by
  unfold clipped
  by_cases h : M.G.csize < csect + cc
  · rw [if_pos h]
    omega
  · rw [if_neg h]
    omega

include hM hl in
/-- Sectors are read past the buffer. -/
theorem f_read.direct_at {cc btr : Nat} (hsized : Sized M.G (files i) spec fp)
    (hbuffered : Buffered M.G data (files i) spec fp) (hp : fp.fptr % 512 = 0)
    (hc : (files i)[fp.fptr / M.G.bcs]? = some fp.clust) (hpos : 0 < cc) (hcc : 512 * cc ≤ btr)
    (hfit : fp.fptr / 512 % M.G.csize + cc ≤ M.G.csize) (hle : fp.fptr + btr ≤ fp.objsize) :
    Acts (M.Holding files other data fp) (f_read.direct M.D (M.G.sectorOf (files i) fp.fptr) cc)
      fun bytes s => M.Rounded files spec i data fp btr bytes data fp ∧ M.Holding files other data fp s := by
  have hmem := List.mem_of_getElem? hc
  have hsect := Geometry.sectorOf_eq hc
  have hfirst : M.G.base fp.clust ≤ M.G.sectorOf (files i) fp.fptr := by omega
  have hlast : M.G.sectorOf (files i) fp.fptr + cc ≤ M.G.base fp.clust + M.G.csize := by omega
  obtain ⟨hreads, hlen⟩ := hbuffered.read hp hfit (hl.sect_lt hmem hfirst hlast hpos)
  refine Tries.bind (disk_read_at hM (hl.within hmem hfirst hlast) hpos) fun x => Tries.assume ?_
  rintro rfl
  refine Tries.bind (abortIf_at (by simp)) fun _ => Tries.bind fil_at fun fp' => Tries.assume ?_
  rintro rfl
  refine Tries.ret fun s hs' => ⟨⟨rfl, Own.rfl, hlen.symm ▸ (by omega), hlen.symm ▸ hcc, hreads,
    ⟨hsized.start, hsized.below, hsized.fits, hsized.size_lt⟩,
    ⟨hbuffered.kept, hbuffered.held, hbuffered.dirty, hbuffered.sect_lt⟩, ?_⟩, hs'⟩
  rw [hlen]
  refine Placed.moved (m := 512 * cc) hc rfl rfl ?_ ?_ fun hne => absurd hne (by omega)
  · show fp'.fptr + _ ≤ fp'.objsize
    omega
  · exact (Geometry.sectorOf_stretch (l := files i) (o := fp'.fptr + 512 * cc - 1) hp (by omega)
      (by omega)).2

include hM hl in
theorem f_read.transfer_at {btr : Nat} (hsized : Sized M.G (files i) spec fp)
    (hbuffered : Buffered M.G data (files i) spec fp) (hp : fp.fptr % 512 = 0)
    (hc : (files i)[fp.fptr / M.G.bcs]? = some fp.clust) (hpos : 0 < btr)
    (hle : fp.fptr + btr ≤ fp.objsize) :
    Acts (M.Holding files other data fp) (f_read.transfer M.G M.D (fp.fptr / 512 % M.G.csize)
      (M.G.sectorOf (files i) fp.fptr) btr) fun bytes s => ∃ data' fp',
        M.Rounded files spec i data fp btr bytes data' fp' ∧ M.Holding files other data' fp' s := by
  have hmem := List.mem_of_getElem? hc
  have hsect := Geometry.sectorOf_eq hc
  have hcsect := Nat.mod_lt (fp.fptr / 512) M.G.csize_pos
  refine Tries.ite (fun hcc => ?_) fun _ => ?_
  · obtain ⟨hone, hmost, hfit⟩ := clipped_le hcsect hcc
    exact Tries.post (f_read.direct_at hM hl hsized hbuffered hp hc hone (by omega) hfit hle)
      fun bytes s hs => ⟨data, fp, hs⟩
  · refine Tries.bind (f_read.buffer_at hM hl hbuffered hmem ⟨by omega, by omega⟩) fun _ => Tries.named ?_
    rintro s ⟨data', b, d, hs, hown, hb⟩
    refine Tries.pre (P := M.Holding files other data' _) ?_ fun s' heq => heq ▸ hs
    refine Tries.post (f_read.part_at ⟨hsized.start, hsized.below, hsized.fits, hsized.size_lt⟩ hb hc rfl
      hpos hle) fun bytes s' hs' => ⟨data', _, ⟨rfl, hown, hs'.1.pos, hs'.1.le, hs'.1.reads, hs'.1.sound⟩, hs'.2⟩

include hM hl in
theorem f_read.aligned_at {btr : Nat} (hsound : Sound M.G data (files i) spec fp)
    (hp : fp.fptr % 512 = 0) (hpos : 0 < btr) (hle : fp.fptr + btr ≤ fp.objsize) :
    Acts (M.Holding files other data fp) (f_read.aligned M.G M.D (fp.fptr / 512 % M.G.csize) btr)
      fun bytes s => ∃ data' fp',
        M.Rounded files spec i data fp btr bytes data' fp' ∧ M.Holding files other data' fp' s := by
  obtain ⟨hsized, hb, hplaced⟩ := hsound
  have hfits := hsized.fits
  obtain ⟨c, hmem, hc⟩ := get_cluster (l := files i) (o := fp.fptr) (M := M) (by omega)
  obtain ⟨hlow, hhigh⟩ := hl.range c hmem
  refine Tries.bind (f_read.advance_at hM hsized hplaced hp hc hlow hhigh) fun _ => ?_
  refine Tries.bind (sector_at hlow hhigh) fun sect => Tries.assume ?_
  rintro rfl
  have hsect : M.G.base c + fp.fptr / 512 % M.G.csize = M.G.sectorOf (files i) fp.fptr :=
    (Geometry.sectorOf_eq hc).symm
  show Acts _ (f_read.transfer M.G M.D _ (M.G.base c + fp.fptr / 512 % M.G.csize) btr) _
  rw [hsect]
  have hsized' : Sized M.G (files i) spec { fp with clust := c } :=
    ⟨hsized.start, hsized.below, hsized.fits, hsized.size_lt⟩
  have hb' : Buffered M.G data (files i) spec { fp with clust := c } :=
    ⟨hb.kept, hb.held, hb.dirty, hb.sect_lt⟩
  refine Tries.post (f_read.transfer_at hM hl hsized' hb' hp hc hpos hle) ?_
  rintro bytes s ⟨data', fp', hround, hs⟩
  exact ⟨data', fp', ⟨hround.same, hround.own, hround.pos, hround.le, hround.reads, hround.sound⟩, hs⟩

include hM hl in
/-- **A round of `f_read`** reads some of the bytes. -/
theorem f_read.round_at {btr : Nat} (hsound : Sound M.G data (files i) spec fp) (hpos : 0 < btr)
    (hle : fp.fptr + btr ≤ fp.objsize) :
    Acts (M.Holding files other data fp) (f_read.round M.G M.D btr) fun bytes s => ∃ data' fp',
      M.Rounded files spec i data fp btr bytes data' fp' ∧ M.Holding files other data' fp' s := by
  refine Tries.bind fil_at fun fp' => Tries.assume ?_
  rintro rfl
  refine Tries.ite (fun hp => ?_) fun hp => ?_
  · rw [Geometry.csect_eq]
    exact f_read.aligned_at hM hl hsound hp hpos hle
  · have hfpos : 0 < fp'.fptr := Nat.pos_of_ne_zero fun h0 => hp (by rw [h0])
    have hc := hsound.placed.clust hfpos
    rw [Geometry.interior (.inr hp)] at hc
    exact Tries.post (f_read.part_at hsound.sized hsound.buffered hc (hsound.placed.sect hp) hpos hle)
      fun bytes s hs => ⟨data, fp', hs⟩

/-- What `f_read` leaves when it has read `bytes`. -/
structure Read (M : Mounted δ) (files : ι → List Nat) (spec : Nat → Option UInt8) (i : ι)
    (data : Nat → Block) (fp : FIL) (bytes : List UInt8) (data' : Nat → Block) (fp' : FIL) : Prop where
  same : fp' = { fp with
    fptr := fp.fptr + bytes.length, clust := fp'.clust, buf := fp'.buf, sect := fp'.sect,
    FA_DIRTY := fp'.FA_DIRTY }
  own : Own M.G (files i) data data'
  reads : Reads spec fp.fptr bytes
  sound : Sound M.G data' (files i) spec fp'

include hM hl in
theorem f_read.loop_at {fuel btr : Nat} (hfuel : btr < fuel) (hsound : Sound M.G data (files i) spec fp)
    (hle : fp.fptr + btr ≤ fp.objsize) :
    Triple (M.Holding files other data fp) (f_read.loop M.G M.D fuel btr) fun r s =>
      ∃ bytes data' fp', r = some (.FR_OK, bytes) ∧ bytes.length = btr ∧
        M.Read files spec i data fp bytes data' fp' ∧ M.Holding files other data' fp' s := by
  induction fuel generalizing btr data fp with
  | zero => exact absurd hfuel (Nat.not_lt_zero _)
  | succ fuel ih =>
    refine Triple.ite (fun hzero => ?_) fun hne => ?_
    · exact Triple.ret fun s hs => ⟨[], data, fp, rfl, hzero.symm, ⟨rfl, Own.rfl, Reads.nil, hsound⟩, hs⟩
    · refine Tries.handle (f_read.round_at hM hl hsound (Nat.pos_of_ne_zero hne) hle) (fun bytes => ?_)
        fun e s hs => absurd hs id
      · rintro s ⟨data', fp', hround, hhold⟩
        have hlen := hround.le
        have hpos := hround.pos
        have hsize : fp'.objsize = fp.objsize := by rw [hround.same]
        have hfptr : fp'.fptr = fp.fptr := by rw [hround.same]
        have hadd : s.fp.fptr + bytes.length = fp.fptr + bytes.length := by rw [hhold.fp, hfptr]
        have hle' : fp.fptr + bytes.length + (btr - bytes.length) ≤ fp'.objsize := by omega
        have hrest := ih (show btr - bytes.length < fuel by omega) hround.sound hle'
          { s with fp := { s.fp with fptr := s.fp.fptr + bytes.length } } ⟨by rw [hadd, hhold.fp], hhold.fs⟩
        obtain ⟨more, data'', fp'', hr, hmore, hread, hhold'⟩ := hrest
        refine ⟨bytes ++ more, data'', fp'', ?_, ?_, ⟨?_, hround.own.trans hread.own,
          hround.reads.append hread.reads, hread.sound⟩, hhold'⟩
        · show Option.map _ _ = _
          rw [hr]
          rfl
        · rw [List.length_append, hmore]
          omega
        · rw [hread.same, hround.same, List.length_append]
          simp [Nat.add_assoc]

include hM hl in
/-- **`f_read`** reads as many bytes as it is asked for, or there are. -/
theorem f_read_at (btr : Nat) (hsound : Sound M.G data (files i) spec fp) (herr : fp.err = .FR_OK)
    (hmode : fp.FA_READ = true) :
    Triple (M.Holding files other data fp) (f_read M.G M.D btr) fun r s =>
      ∃ bytes data' fp', r = some (.FR_OK, bytes) ∧ bytes.length = min btr (fp.objsize - fp.fptr) ∧
        M.Read files spec i data fp bytes data' fp' ∧ M.Holding files other data' fp' s := by
  have hle := hsound.placed.fptr_le
  have hlt := hsound.sized.size_lt
  have hremain : (fp.objsize + 4294967296 - fp.fptr) % 4294967296 = fp.objsize - fp.fptr := by omega
  refine Triple.get_bind fun s hs => ?_
  rw [hs.fp]
  refine Triple.ite (fun hne => absurd herr hne) fun _ => Triple.ite (fun hne => absurd hmode hne) fun _ => ?_
  rw [hremain]
  refine Triple.pre (f_read.loop_at hM hl (Nat.lt_succ_self _) hsound (by omega)) fun s' heq => ?_
  rw [heq]
  exact hs

end Mounted

end Miso.Fat

import Miso.Fat.Reading

/-!
# Writing a file

* `Extends` — a file has more clusters than before, and the other files have theirs;
* `stretch_at` — a file is followed to its next cluster, which may be a new one;
* `f_write.round_at` — a round writes some of the bytes;
* `f_write_at` — `f_write` writes all bytes, unless the volume is full.
-/

namespace Miso.Fat

open Sd Zig

variable {ι : Type}

/-- The file `i` has more clusters, and no other file has changed. -/
structure Extends (files files' : ι → List Nat) (i : ι) : Prop where
  own : ∃ l, files' i = files i ++ l
  others : ∀ j, j ≠ i → files' j = files j

theorem Extends.rfl {files : ι → List Nat} {i : ι} : Extends files files i :=
  ⟨⟨[], (List.append_nil _).symm⟩, fun _ _ => Eq.refl _⟩

theorem Extends.trans {files files' files'' : ι → List Nat} {i : ι} (h : Extends files files' i)
    (h' : Extends files' files'' i) : Extends files files'' i := by
  obtain ⟨l, hl⟩ := h.own
  obtain ⟨l', hl'⟩ := h'.own
  exact ⟨⟨l ++ l', by rw [hl', hl, List.append_assoc]⟩, fun j hj => (h'.others j hj).trans (h.others j hj)⟩

theorem Extends.push [DecidableEq ι] (files : ι → List Nat) (i : ι) (c : Nat) :
    Extends files (Function.update files i (files i ++ [c])) i :=
  ⟨⟨[c], Function.update_self ..⟩, fun _ hj => Function.update_of_ne hj ..⟩

theorem Extends.mem {files files' : ι → List Nat} {i : ι} (h : Extends files files' i) {c : Nat}
    (hc : c ∈ files i) : c ∈ files' i := by
  obtain ⟨l, hl⟩ := h.own
  rw [hl]
  exact List.mem_append_left _ hc

theorem Own.mono {G : Geometry} {l l' : List Nat} {data data' : Nat → Block} (h : Own G l data data')
    (hl : ∀ c ∈ l, c ∈ l') : Own G l' data data' := fun s hs => h s fun c hc => hs c (hl c hc)

/-- A file with more clusters has the same contents. -/
theorem Extends.buffered {G : Geometry} {files files' : ι → List Nat} {i : ι} {data : Nat → Block}
    {spec : Nat → Option UInt8} {fp : FIL} (h : Extends files files' i)
    (hsized : Sized G (files i) spec fp) (hb : Buffered G data (files i) spec fp) :
    Buffered G data (files' i) spec fp := by
  obtain ⟨l, hl⟩ := h.own
  rw [hl]
  exact hb.extend hsized l

/-- The start of a file with more clusters. -/
theorem Extends.sized {G : Geometry} {files files' : ι → List Nat} {i : ι} {spec : Nat → Option UInt8}
    {fp fp' : FIL} (h : Extends files files' i) (hsized : Sized G (files i) spec fp)
    (hstart : fp'.sclust = (files' i).head?.getD 0) (hsize : fp'.objsize = fp.objsize) :
    Sized G (files' i) spec fp' := by
  obtain ⟨l, hl⟩ := h.own
  refine ⟨hstart, fun o b ho => hsize ▸ hsized.below o b ho, ?_, hsize ▸ hsized.size_lt⟩
  rw [hsize, hl, List.length_append, Nat.add_mul]
  exact Nat.le_trans hsized.fits (Nat.le_add_right _ _)

namespace Mounted

variable {δ : Type} {M : Mounted δ} {files : ι → List Nat} {other : Nat → Prop}
  {data : Nat → Block} {fp : FIL} {spec : Nat → Option UInt8} {i : ι}

/-! ## The bytes of a round -/

/-- The file after bytes have been written within one of its clusters. -/
theorem moved_sound {G : Geometry} {l : List Nat} {bytes : List UInt8} {p m : Nat}
    (hb : Buffered G data l (patch spec p bytes) fp) (hp : fp.fptr = p) (hsized : Sized G l spec fp)
    (hm : bytes.length = m) (hpos : 0 < m) (hc : l[p / G.bcs]? = some fp.clust)
    (hsame : (p + m - 1) / G.bcs = p / G.bcs)
    (hsect : (p + m) % 512 ≠ 0 → fp.sect = G.sectorOf l (p + m)) (hlt : p + m < 4294967296) :
    Sound G data l (patch spec p bytes) (f_write.moved m fp) := by
  obtain ⟨hk, -⟩ := List.getElem?_eq_some_iff.mp hc
  have hend : p + m - 1 < l.length * G.bcs := by
    rw [← hsame] at hk
    exact (Nat.div_lt_iff_lt_mul G.bcs_pos).mp hk
  have hfits := hsized.fits
  have hsize := hsized.size_lt
  refine ⟨⟨hsized.start, fun o b ho => ?_, ?_, ?_⟩, ⟨hb.kept, hb.held, hb.dirty, hb.sect_lt⟩, ?_⟩
  · show o < max (fp.fptr + m) fp.objsize
    unfold patch at ho
    rw [hm] at ho
    by_cases hin : p ≤ o ∧ o < p + m
    · omega
    · rw [if_neg hin] at ho
      have hbelow := hsized.below o b ho
      omega
  · show max (fp.fptr + m) fp.objsize ≤ _
    omega
  · show max (fp.fptr + m) fp.objsize < _
    omega
  · refine Placed.moved (m := m) hc rfl ?_ (Nat.le_max_left _ _) hsame hsect
    show fp.fptr + m = p + m
    rw [hp]

/-- What a round of `f_write` leaves when it has written `m` bytes. -/
structure Wrote (M : Mounted δ) (files : ι → List Nat) (spec : Nat → Option UInt8) (i : ι)
    (data : Nat → Block) (fp : FIL) (wbuff : List UInt8) (m : Nat) (data' : Nat → Block) (fp' : FIL) :
    Prop where
  same : fp' = { fp with buf := fp'.buf, sect := fp'.sect, FA_DIRTY := fp'.FA_DIRTY }
  own : Own M.G (files i) data data'
  pos : 0 < m
  le : m ≤ wbuff.length
  sound : Sound M.G data' (files i) (patch spec fp.fptr (wbuff.take m)) (f_write.moved m fp')

/-- Bytes are written into the buffer. -/
theorem f_write.part_at {wbuff : List UInt8} (hl : M.Mine other (files i))
    (hsized : Sized M.G (files i) spec fp) (hb : Buffered M.G data (files i) spec fp)
    (hc : (files i)[fp.fptr / M.G.bcs]? = some fp.clust) (hs : fp.sect = M.G.sectorOf (files i) fp.fptr)
    (hpos : wbuff ≠ []) (hlt : fp.fptr + wbuff.length < 4294967296) :
    Acts (M.Holding files other data fp) (f_write.part wbuff) fun m s => ∃ fp',
      M.Wrote files spec i data fp wbuff m data fp' ∧ M.Holding files other data fp' s := by
  have hlen := List.length_pos_iff.mpr hpos
  have hmod := Nat.mod_lt fp.fptr (show 0 < 512 by decide)
  obtain ⟨m, hm⟩ : ∃ m, m = min (512 - fp.fptr % 512) wbuff.length := ⟨_, rfl⟩
  have htake : (wbuff.take m).length = m := by
    rw [List.length_take]
    omega
  obtain ⟨hk, -⟩ := List.getElem?_eq_some_iff.mp hc
  have hedit := hb.edit hl.nodup (fun c h => (hl.range c h).1) hsized
    ((Nat.div_lt_iff_lt_mul M.G.bcs_pos).mp hk) hs
    (show fp.fptr % 512 + (wbuff.take m).length ≤ 512 by omega)
  refine Tries.bind fil_at fun fp' => Tries.assume ?_
  rintro rfl
  rw [← hm]
  refine Tries.bind (setFil_at _) fun _ => Tries.ret fun s hs' => ⟨_, ⟨rfl, Own.rfl, by omega, by omega, ?_⟩, hs'⟩
  refine moved_sound hedit rfl ⟨hsized.start, hsized.below, hsized.fits, hsized.size_lt⟩ htake (by omega) hc ?_
    (fun hne => ?_) ?_
  · exact (Geometry.sectorOf_same (l := files i) (by show (fp'.fptr + m - 1) / 512 = fp'.fptr / 512; omega)).2
  · show fp'.sect = M.G.sectorOf (files i) (fp'.fptr + m)
    have hne' : (fp'.fptr + m) % 512 ≠ 0 := hne
    exact hs.trans (Geometry.sectorOf_same (by omega)).1.symm
  · show fp'.fptr + m < 4294967296
    omega

theorem refill_eq (sect cc : Nat) (wbuff : List UInt8) (fp : FIL) : f_write.refill sect cc wbuff fp =
    { fp with
      buf := (f_write.refill sect cc wbuff fp).buf, sect := (f_write.refill sect cc wbuff fp).sect,
      FA_DIRTY := (f_write.refill sect cc wbuff fp).FA_DIRTY } := by
  unfold f_write.refill
  by_cases h : (fp.sect + 4294967296 - sect) % 4294967296 < cc
  · rw [if_pos h]
  · rw [if_neg h]

/-- Sectors are written past the buffer. -/
theorem f_write.direct_at {cc : Nat} {wbuff : List UInt8} (hM : M.Sane other) (hl : M.Mine other (files i))
    (hsized : Sized M.G (files i) spec fp) (hb : Buffered M.G data (files i) spec fp)
    (hd : fp.FA_DIRTY = false) (hp : fp.fptr % 512 = 0)
    (hc : (files i)[fp.fptr / M.G.bcs]? = some fp.clust) (hpos : 0 < cc) (hcc : 512 * cc ≤ wbuff.length)
    (hfit : fp.fptr / 512 % M.G.csize + cc ≤ M.G.csize) (hlt : fp.fptr + wbuff.length < 4294967296) :
    Acts (M.Holding files other data fp)
      (f_write.direct M.D (M.G.sectorOf (files i) fp.fptr) cc wbuff) fun m s => ∃ data' fp',
        M.Wrote files spec i data fp wbuff m data' fp' ∧ M.Holding files other data' fp' s := by
  have hmem := List.mem_of_getElem? hc
  have hsect := Geometry.sectorOf_eq hc
  have hfirst : M.G.base fp.clust ≤ M.G.sectorOf (files i) fp.fptr := by omega
  have hlast : M.G.sectorOf (files i) fp.fptr + cc ≤ M.G.base fp.clust + M.G.csize := by omega
  have htake : (wbuff.take (512 * cc)).length = 512 * cc := by
    rw [List.length_take]
    omega
  obtain ⟨hk, -⟩ := List.getElem?_eq_some_iff.mp hc
  have hwrite := hb.write hl.nodup (fun c h => (hl.range c h).1) hsized hd hp
    ((Nat.div_lt_iff_lt_mul M.G.bcs_pos).mp hk) hfit hcc (hl.sect_lt hmem hfirst hlast hpos)
  have heq := refill_eq (M.G.sectorOf (files i) fp.fptr) cc wbuff fp
  refine Tries.bind (disk_write_at hM (hl.within hmem hfirst hlast) hpos hcc) fun r => Tries.assume ?_
  rintro rfl
  refine Tries.bind (abortIf_at (by simp)) fun _ => Tries.bind (setFil_at _) fun _ => Tries.ret fun s hs' =>
    ⟨_, _, ⟨heq, fun t ht => if_neg fun hin => ht _ hmem ⟨by omega, by omega⟩, by omega, hcc, ?_⟩, hs'⟩
  rw [heq] at hwrite ⊢
  refine moved_sound hwrite rfl ⟨hsized.start, hsized.below, hsized.fits, hsized.size_lt⟩ htake (by omega) hc ?_
    (fun hne => absurd hne ?_) ?_
  · exact (Geometry.sectorOf_stretch (l := files i) (o := fp.fptr + 512 * cc - 1) hp (by omega) (by omega)).2
  · show ¬(fp.fptr + 512 * cc) % 512 ≠ 0
    omega
  · show fp.fptr + 512 * cc < 4294967296
    omega

/-- The sector is brought into the buffer, unless it is behind the end of the file. -/
theorem f_write.buffer_at (hM : M.Sane other) (hl : M.Mine other (files i))
    (hsized : Sized M.G (files i) spec fp) (hb : Buffered M.G data (files i) spec fp)
    (hd : fp.FA_DIRTY = false) (hp : fp.fptr % 512 = 0)
    (hc : (files i)[fp.fptr / M.G.bcs]? = some fp.clust) :
    Acts (M.Holding files other data fp) (f_write.buffer M.D (M.G.sectorOf (files i) fp.fptr)) fun _ s =>
      ∃ b, Buffered M.G data (files i) spec { fp with buf := b, sect := M.G.sectorOf (files i) fp.fptr } ∧
        M.Holding files other data { fp with buf := b, sect := M.G.sectorOf (files i) fp.fptr } s := by
  have hmem := List.mem_of_getElem? hc
  have hsect := Geometry.sectorOf_eq hc
  have hcsect := Nat.mod_lt (fp.fptr / 512) M.G.csize_pos
  have hfirst : M.G.base fp.clust ≤ M.G.sectorOf (files i) fp.fptr := by omega
  have hlast : M.G.sectorOf (files i) fp.fptr + 1 ≤ M.G.base fp.clust + M.G.csize := by omega
  have hlt := hl.sect_lt hmem hfirst hlast Nat.one_pos
  obtain ⟨hk, -⟩ := List.getElem?_eq_some_iff.mp hc
  have hfptr := (Nat.div_lt_iff_lt_mul M.G.bcs_pos).mp hk
  have hhold : Acts (M.Holding files other data fp) (f_write.hold M.D (M.G.sectorOf (files i) fp.fptr))
      fun _ s => ∃ b, Buffered M.G data (files i) spec
        { fp with buf := b, sect := M.G.sectorOf (files i) fp.fptr } ∧
          M.Holding files other data { fp with buf := b } s := by
    refine Tries.bind fil_at fun fp' => Tries.assume ?_
    rintro rfl
    refine Tries.ite (fun _ => ?_) fun hstay => ?_
    · exact Tries.post (fill_at hM (hl.within hmem hfirst hlast)) fun _ s hs =>
        ⟨_, hb.load hd (by omega), hs⟩
    · refine Tries.ret fun s hs => ⟨fp'.buf, ?_, hs⟩
      by_cases heq : fp'.sect = M.G.sectorOf (files i) fp'.fptr
      · rw [← heq]
        exact hb
      · refine hb.fresh hd (by omega) fun o b ho hsame => ?_
        have hbelow := hsized.below o b ho
        have hdiv := Geometry.sectorOf_inj hl.nodup (fun c h => (hl.range c h).1)
          (Nat.lt_of_lt_of_le hbelow hsized.fits) hfptr hsame
        exact hstay ⟨heq, by omega⟩
  refine Tries.bind hhold fun _ => Tries.named ?_
  rintro s ⟨b, hb', hs⟩
  exact Tries.pre (Tries.post (setFil_at _) fun _ s' hs' => ⟨b, hb', hs'⟩) fun s' heq => heq ▸ hs

theorem f_write.transfer_at {wbuff : List UInt8} (hM : M.Sane other) (hl : M.Mine other (files i))
    (hsized : Sized M.G (files i) spec fp) (hb : Buffered M.G data (files i) spec fp)
    (hd : fp.FA_DIRTY = false) (hp : fp.fptr % 512 = 0)
    (hc : (files i)[fp.fptr / M.G.bcs]? = some fp.clust) (hpos : wbuff ≠ [])
    (hlt : fp.fptr + wbuff.length < 4294967296) :
    Acts (M.Holding files other data fp) (f_write.transfer M.G M.D (fp.fptr / 512 % M.G.csize)
      (M.G.sectorOf (files i) fp.fptr) wbuff) fun m s => ∃ data' fp',
        M.Wrote files spec i data fp wbuff m data' fp' ∧ M.Holding files other data' fp' s := by
  have hcsect := Nat.mod_lt (fp.fptr / 512) M.G.csize_pos
  refine Tries.ite (fun hcc => ?_) fun _ => ?_
  · obtain ⟨hone, hmost, hfit⟩ := clipped_le hcsect hcc
    exact f_write.direct_at hM hl hsized hb hd hp hc hone (by omega) hfit hlt
  · refine Tries.bind (f_write.buffer_at hM hl hsized hb hd hp hc) fun _ => Tries.named ?_
    rintro s ⟨b, hb', hs⟩
    refine Tries.pre (P := M.Holding files other data _) ?_ fun s' heq => heq ▸ hs
    refine Tries.post (f_write.part_at hl ⟨hsized.start, hsized.below, hsized.fits, hsized.size_lt⟩ hb' hc
      rfl hpos hlt) ?_
    rintro m s' ⟨fp', hwrote, hs'⟩
    exact ⟨data, fp', ⟨hwrote.same, hwrote.own, hwrote.pos, hwrote.le, hwrote.sound⟩, hs'⟩

/-- **The bytes of a round on the sector boundary.** -/
theorem f_write.store_at {wbuff : List UInt8} (hM : M.Sane other) (hl : M.Mine other (files i))
    (hsized : Sized M.G (files i) spec fp) (hb : Buffered M.G data (files i) spec fp)
    (hp : fp.fptr % 512 = 0) (hc : (files i)[fp.fptr / M.G.bcs]? = some fp.clust) (hpos : wbuff ≠ [])
    (hlt : fp.fptr + wbuff.length < 4294967296) :
    Acts (M.Holding files other data fp) (f_write.store M.G M.D (fp.fptr / 512 % M.G.csize) wbuff)
      fun x s => ∃ m data' fp', x = some m ∧ M.Wrote files spec i data fp wbuff m data' fp' ∧
        M.Holding files other data' fp' s := by
  obtain ⟨hlow, hhigh⟩ := hl.range _ (List.mem_of_getElem? hc)
  obtain ⟨hclean, hown⟩ := flushed_spec hb
  refine Tries.bind (flush_at hM (hl.dirty hb)) fun _ => Tries.bind (sector_at hlow hhigh) fun sect =>
    Tries.assume ?_
  rintro rfl
  have hsect : M.G.base fp.clust + fp.fptr / 512 % M.G.csize = M.G.sectorOf (files i) fp.fptr :=
    (Geometry.sectorOf_eq hc).symm
  show Acts _ (f_write.transfer M.G M.D _ (M.G.base fp.clust + fp.fptr / 512 % M.G.csize) wbuff >>= _) _
  rw [hsect]
  have hsized' : Sized M.G (files i) spec { fp with FA_DIRTY := false } :=
    ⟨hsized.start, hsized.below, hsized.fits, hsized.size_lt⟩
  refine Tries.bind (f_write.transfer_at hM hl hsized' hclean rfl hp hc hpos hlt) fun m => Tries.ret ?_
  rintro s ⟨data', fp', hwrote, hs⟩
  exact ⟨m, data', fp', rfl, ⟨hwrote.same, hown.trans hwrote.own, hwrote.pos, hwrote.le, hwrote.sound⟩, hs⟩

/-! ## The clusters of a file -/

theorem chain_at {clst : Nat} {Q : Nat → FATFS δ → Prop}
    (h : Triple (M.Chained files other data) (create_chain M.G M.D clst) fun y fs => ∃ x, y = some x ∧ Q x fs) :
    Acts (M.Holding files other data fp) (chain M.G M.D clst) fun x s => s.fp = fp ∧ Q x s.fs := by
  refine Tries.bind (R := fun y s => s.fp = fp ∧ ∃ x, y = some x ∧ Q x s.fs) (Tries.lift ?_) fun y =>
    Tries.named ?_
  · rintro s ⟨rfl, hfs⟩
    exact ⟨rfl, h s.fs hfs⟩
  · rintro s ⟨hfp, x, rfl, hx⟩
    exact Tries.ret fun s' heq => heq ▸ ⟨hfp, hx⟩

/-- What following a file to its cluster with the number `k` leaves; if it has none, the volume may be
full. -/
def Stretched (M : Mounted δ) (files : ι → List Nat) (other : Nat → Prop) (data : Nat → Block) (fp : FIL)
    (i : ι) (k : Nat) (x : Nat) (s : Opened δ) : Prop :=
  (∃ files', (Extends files files' i ∧ (files' i)[k]? = some x) ∧ M.Holding files' other data fp s) ∨
    x = 0 ∧ ((files i).length = k ∧ M.Full files other) ∧ M.Holding files other data fp s

/-- **The file has a cluster** for its pointer. -/
structure Advanced (M : Mounted δ) (files : ι → List Nat) (spec : Nat → Option UInt8) (i : ι)
    (data : Nat → Block) (fp : FIL) (files' : ι → List Nat) (fp' : FIL) : Prop where
  same : fp' = { fp with clust := fp'.clust, sclust := fp'.sclust }
  extended : Extends files files' i
  sized : Sized M.G (files' i) spec fp'
  buffered : Buffered M.G data (files' i) spec fp'
  clust : (files' i)[fp.fptr / M.G.bcs]? = some fp'.clust

theorem f_write.enter_at {files' : ι → List Nat} {clst : Nat} (hsized : Sized M.G (files i) spec fp)
    (hb : Buffered M.G data (files i) spec fp) (hextends : Extends files files' i)
    (hget : (files' i)[fp.fptr / M.G.bcs]? = some clst) (hle : fp.fptr ≤ fp.objsize)
    (hl' : M.Mine other (files' i)) (hl : M.Mine other (files i)) :
    Acts (M.Holding files' other data fp) (f_write.enter clst) fun more s => ∃ fp',
      more = true ∧ M.Advanced files spec i data fp files' fp' ∧ M.Holding files' other data fp' s := by
  have hrange := hl'.range clst (List.mem_of_getElem? hget)
  have hmodulus := M.G.fs_type.modulus_le
  have hlimit := Nat.lt_of_le_of_lt M.G.le_limit M.G.fs_type.limit_lt
  refine Tries.bind (Tries.bind (abortIf_at (by omega)) fun _ => abortIf_at (by omega)) fun _ =>
    Tries.bind (setFil_at _) fun _ => Tries.ret fun s hs => ⟨_, rfl, ⟨rfl, hextends, ?_, ?_, hget⟩, hs⟩
  · refine hextends.sized hsized ?_ rfl
    show (if fp.sclust = 0 then clst else fp.sclust) = (files' i).head?.getD 0
    have hstart := hsized.start
    obtain ⟨l, hl'⟩ := hextends.own
    cases hi : files i with
    | nil =>
      have hfits := hsized.fits
      rw [hi] at hstart
      rw [hi, List.length_nil, Nat.zero_mul] at hfits
      have hstart' : fp.sclust = 0 := hstart
      rw [show fp.fptr = 0 by omega, Nat.zero_div] at hget
      rw [if_pos hstart', List.head?_eq_getElem?, hget]
      rfl
    | cons c m =>
      rw [hi] at hstart
      have hstart' : fp.sclust = c := hstart
      have hlow := (hl.range c (by simp [hi])).1
      rw [if_neg (by omega), hl', hi, hstart']
      rfl
  · have hb' := hextends.buffered hsized hb
    exact ⟨hb'.kept, hb'.held, hb'.dirty, hb'.sect_lt⟩

variable [DecidableEq ι] (hM : M.Sane other)

include hM in
/-- **Another cluster** is added to the file. -/
theorem grow_at {clst : Nat} (hclst : clst = (files i).getLast?.getD 0) :
    Acts (M.Holding files other data fp) (chain M.G M.D clst)
      (M.Stretched files other data fp i (files i).length) := by
  rw [hclst]
  refine Tries.post (chain_at (Q := fun x fs => M.Created files other data i (some x) fs) ?_) ?_
  · refine (create_chain_at i).post ?_
    rintro y fs (⟨c, rfl, h⟩ | ⟨rfl, h⟩ | ⟨hf, h⟩)
    · exact ⟨c, rfl, .inl ⟨c, rfl, h⟩⟩
    · exact ⟨0, rfl, .inr (.inl ⟨rfl, h⟩)⟩
    · exact absurd hf hM.sure
  · rintro x s ⟨hfp, ⟨c, hc, -, -, -, hfs⟩ | ⟨h0, hfull, hfs⟩ | ⟨hf, -⟩⟩
    · obtain rfl := Option.some.inj hc
      refine .inl ⟨_, ⟨Extends.push files i x, ?_⟩, hfp, hfs⟩
      rw [Function.update_self, List.getElem?_append_right (Nat.le_refl _), Nat.sub_self]
      rfl
    · exact .inr ⟨Option.some.inj h0, ⟨rfl, hfull hM.sure⟩, hfp, hfs⟩
    · exact absurd hf hM.sure

include hM in
/-- **The next cluster** of the file, which may be a new one. -/
theorem stretch_at {k clst : Nat} (hclst : (files i)[k]? = some clst) :
    Acts (M.Holding files other data fp) (chain M.G M.D clst) (M.Stretched files other data fp i (k + 1)) := by
  obtain ⟨hk, hget⟩ := List.getElem?_eq_some_iff.mp hclst
  by_cases hnext : k + 1 < (files i).length
  · have hb : (files i)[k + 1]? = some (files i)[k + 1] := List.getElem?_eq_getElem hnext
    refine Tries.post (chain_at (Q := fun x fs => x = (files i)[k + 1] ∧ M.Chained files other data fs) ?_) ?_
    · refine (create_chain_next (split_two hclst hb)).post ?_
      rintro y fs ⟨rfl | ⟨hf, -⟩, hfs⟩
      · exact ⟨_, rfl, rfl, hfs⟩
      · exact absurd hf hM.sure
    · rintro x s ⟨hfp, rfl, hfs⟩
      exact .inl ⟨files, ⟨Extends.rfl, hb⟩, hfp, hfs⟩
  · obtain hlen : k + 1 = (files i).length := by omega
    rw [hlen]
    refine grow_at hM ?_
    rw [List.getLast?_eq_getElem?, ← hlen, Nat.add_sub_cancel, hclst]
    rfl

variable (hl : M.Mine other (files i))

include hM hl in
theorem f_write.next_at (hsized : Sized M.G (files i) spec fp) (hplaced : Placed M.G (files i) fp)
    (hp : fp.fptr % 512 = 0) (hcsect : fp.fptr / 512 % M.G.csize = 0) :
    Acts (M.Holding files other data fp) (f_write.next M.G M.D)
      (M.Stretched files other data fp i (fp.fptr / M.G.bcs)) := by
  refine Tries.bind fil_at fun fp' => Tries.assume ?_
  rintro rfl
  refine Tries.ite (fun hzero => ?_) fun hpos => ?_
  · rw [hzero, Nat.zero_div]
    have hstart := hsized.start
    cases hi : files i with
    | nil =>
      rw [hi] at hstart
      refine Tries.ite (fun _ => ?_) fun hne => absurd hstart hne
      have hlast : 0 = (files i).getLast?.getD 0 := by rw [hi]; rfl
      have hgrow : Acts (M.Holding files other data fp') (chain M.G M.D 0)
          (M.Stretched files other data fp' i (files i).length) := grow_at hM hlast
      rwa [hi] at hgrow
    | cons c l =>
      rw [hi] at hstart
      have hstart' : fp'.sclust = c := hstart
      have hlow := (hl.range c (by simp [hi])).1
      refine Tries.ite (fun h0 => absurd h0 (by omega)) fun _ => Tries.ret fun s hs => ?_
      exact .inl ⟨files, ⟨Extends.rfl, by rw [hi, hstart']; rfl⟩, hs⟩
  · have hpred := Geometry.boundary_pred hp hcsect (Nat.pos_of_ne_zero hpos)
    rw [← hpred]
    exact stretch_at hM (hplaced.clust (Nat.pos_of_ne_zero hpos))

include hM hl in
/-- **The cluster of the pointer**, which may be a new one, unless the volume is full. -/
theorem f_write.advance_at (hsound : Sound M.G data (files i) spec fp) (hp : fp.fptr % 512 = 0) :
    Acts (M.Holding files other data fp) (f_write.advance M.G M.D (fp.fptr / 512 % M.G.csize)) fun more s =>
      (∃ files' fp', more = true ∧ M.Advanced files spec i data fp files' fp' ∧
        M.Holding files' other data fp' s) ∨
      more = false ∧ M.Full files other ∧ M.Holding files other data fp s := by
  obtain ⟨hsized, hb, hplaced⟩ := hsound
  refine Tries.ite (fun hcsect => ?_) fun hcsect => Tries.ret fun s hs => ?_
  · refine Tries.bind (f_write.next_at hM hl hsized hplaced hp hcsect) fun clst => Tries.named ?_
    rintro s (⟨files', ⟨hextends, hget⟩, hs⟩ | ⟨rfl, ⟨-, hfull⟩, hs⟩)
    · have hmine := hs.fs.mine i
      have hlow := (hmine.range clst (List.mem_of_getElem? hget)).1
      refine Tries.ite (fun h0 => absurd h0 (by omega)) fun _ => ?_
      refine Tries.pre (Tries.post (f_write.enter_at hsized hb hextends hget hplaced.fptr_le hmine hl)
        fun more s' h => .inl ?_) fun s' heq => heq ▸ hs
      obtain ⟨fp', hmore, hadv, hs'⟩ := h
      exact ⟨files', fp', hmore, hadv, hs'⟩
    · refine Tries.ite (fun _ => Tries.ret fun s' heq => ?_) fun hne => absurd rfl hne
      exact .inr ⟨rfl, hfull, heq ▸ hs⟩
  · have hpos : 0 < fp.fptr := Nat.pos_of_ne_zero fun h0 => hcsect (by rw [h0, Nat.zero_div, Nat.zero_mod])
    have hclust := hplaced.clust hpos
    rw [Geometry.interior (.inl hcsect)] at hclust
    exact .inl ⟨files, fp, rfl, ⟨rfl, Extends.rfl, hsized, hb, hclust⟩, hs⟩

/-! ## The loop -/

/-- **What `f_write` leaves** when it has written `bytes`. -/
structure Written (M : Mounted δ) (files : ι → List Nat) (spec : Nat → Option UInt8) (i : ι)
    (data : Nat → Block) (fp : FIL) (bytes : List UInt8) (files' : ι → List Nat) (data' : Nat → Block)
    (fp' : FIL) : Prop where
  same : fp' = { fp with
    sclust := fp'.sclust, objsize := max (fp.fptr + bytes.length) fp.objsize,
    fptr := fp.fptr + bytes.length, clust := fp'.clust, buf := fp'.buf, sect := fp'.sect,
    FA_DIRTY := fp'.FA_DIRTY, FA_MODIFIED := fp'.FA_MODIFIED }
  extended : Extends files files' i
  own : Own M.G (files' i) data data'
  sound : Sound M.G data' (files' i) (patch spec fp.fptr bytes) fp'

omit [DecidableEq ι] in
theorem Written.trans {xs ys : List UInt8} {files' files'' : ι → List Nat} {data' data'' : Nat → Block}
    {fp' fp'' : FIL} (h : M.Written files spec i data fp xs files' data' fp')
    (h' : M.Written files' (patch spec fp.fptr xs) i data' fp' ys files'' data'' fp'') :
    M.Written files spec i data fp (xs ++ ys) files'' data'' fp'' := by
  have hfptr : fp'.fptr = fp.fptr + xs.length := by rw [h.same]
  have hsize : fp'.objsize = max (fp.fptr + xs.length) fp.objsize := by rw [h.same]
  refine ⟨?_, h.extended.trans h'.extended, (h.own.mono fun c => h'.extended.mem).trans h'.own, ?_⟩
  · have hmax : max (fp'.fptr + ys.length) fp'.objsize =
        max (fp.fptr + (xs ++ ys).length) fp.objsize := by
      rw [List.length_append]
      omega
    have hadd : fp'.fptr + ys.length = fp.fptr + (xs ++ ys).length := by
      rw [List.length_append]
      omega
    have hsame := h'.same
    rw [hmax, hadd] at hsame
    rw [hsame, h.same]
  · rw [← patch_append, ← hfptr]
    exact h'.sound

include hM hl in
theorem f_write.aligned_at {wbuff : List UInt8} (hsound : Sound M.G data (files i) spec fp)
    (hp : fp.fptr % 512 = 0) (hpos : wbuff ≠ []) (hlt : fp.fptr + wbuff.length < 4294967296) :
    Acts (M.Holding files other data fp) (f_write.aligned M.G M.D (fp.fptr / 512 % M.G.csize) wbuff)
      fun x s => (∃ files' m data' fp', x = some m ∧ (0 < m ∧ m ≤ wbuff.length) ∧
        M.Written files spec i data fp (wbuff.take m) files' data' (f_write.moved m fp') ∧
        M.Holding files' other data' fp' s) ∨
      x = none ∧ M.Full files other ∧ M.Holding files other data fp s := by
  refine Tries.bind (f_write.advance_at hM hl hsound hp) fun more => Tries.named ?_
  rintro s (⟨files', fp', rfl, hadv, hs⟩ | ⟨rfl, hfull, hs⟩)
  · refine Tries.ite (fun _ => ?_) fun hne => absurd rfl hne
    have hfptr : fp'.fptr = fp.fptr := by rw [hadv.same]
    have hstore := f_write.store_at hM (hs.fs.mine i) hadv.sized hadv.buffered
      (by rw [hfptr]; exact hp) (by rw [hfptr]; exact hadv.clust) hpos (by omega)
    rw [hfptr] at hstore
    refine Tries.pre (Tries.post hstore ?_) fun s' heq => heq ▸ hs
    rintro x s' ⟨m, data', fp'', rfl, hwrote, hs'⟩
    have htake : (wbuff.take m).length = m := by
      have hle := hwrote.le
      rw [List.length_take]
      omega
    have hsound' := hwrote.sound
    rw [hfptr] at hsound'
    refine .inl ⟨files', m, data', fp'', rfl, ⟨hwrote.pos, hwrote.le⟩, ⟨?_, hadv.extended, hwrote.own,
      hsound'⟩, hs'⟩
    rw [hwrote.same, hadv.same, htake]
    rfl
  · refine Tries.ite (fun hne => absurd hne (by decide)) fun _ => Tries.ret fun s' heq => ?_
    exact .inr ⟨rfl, hfull, heq ▸ hs⟩

include hM hl in
/-- **A round of `f_write`** writes some of the bytes, unless the volume is full. -/
theorem f_write.round_at {wbuff : List UInt8} (hsound : Sound M.G data (files i) spec fp)
    (hpos : wbuff ≠ []) (hlt : fp.fptr + wbuff.length < 4294967296) :
    Acts (M.Holding files other data fp) (f_write.round M.G M.D wbuff)
      fun x s => (∃ files' m data' fp', x = some m ∧ (0 < m ∧ m ≤ wbuff.length) ∧
        M.Written files spec i data fp (wbuff.take m) files' data' (f_write.moved m fp') ∧
        M.Holding files' other data' fp' s) ∨
      x = none ∧ M.Full files other ∧ M.Holding files other data fp s := by
  refine Tries.bind fil_at fun fp' => Tries.assume ?_
  rintro rfl
  refine Tries.ite (fun hp => ?_) fun hp => ?_
  · rw [Geometry.csect_eq]
    exact f_write.aligned_at hM hl hsound hp hpos hlt
  · have hfpos : 0 < fp'.fptr := Nat.pos_of_ne_zero fun h0 => hp (by rw [h0])
    have hc := hsound.placed.clust hfpos
    rw [Geometry.interior (.inr hp)] at hc
    refine Tries.bind (f_write.part_at hl hsound.sized hsound.buffered hc (hsound.placed.sect hp) hpos hlt)
      fun m => Tries.ret ?_
    rintro s ⟨fp'', hwrote, hs⟩
    have htake : (wbuff.take m).length = m := by
      have hle := hwrote.le
      rw [List.length_take]
      omega
    refine .inl ⟨files, m, data, fp'', rfl, ⟨hwrote.pos, hwrote.le⟩, ⟨?_, Extends.rfl, hwrote.own,
      hwrote.sound⟩, hs⟩
    rw [hwrote.same, htake]
    rfl

omit [DecidableEq ι] in
/-- All has been written that could be. -/
theorem f_write.finish_at (hsound : Sound M.G data (files i) spec fp) :
    Triple (M.Holding files other data fp) (f_write.finish (δ := δ)) fun r s => ∃ fp',
      r = some (.FR_OK, 0) ∧ fp'.FA_MODIFIED = true ∧
        M.Written files spec i data fp [] files data fp' ∧ M.Holding files other data fp' s := by
  obtain ⟨hsized, hb, hplaced⟩ := hsound
  have hle := hplaced.fptr_le
  rintro s ⟨rfl, hs⟩
  refine ⟨{ s.fp with FA_MODIFIED := true }, rfl, rfl, ⟨?_, Extends.rfl, Own.rfl, ?_⟩, rfl, hs⟩
  · rw [List.length_nil, Nat.add_zero, Nat.max_eq_right hle]
  · rw [patch_nil]
    exact ⟨⟨hsized.start, hsized.below, hsized.fits, hsized.size_lt⟩,
      ⟨hb.kept, hb.held, hb.dirty, hb.sect_lt⟩, ⟨hplaced.fptr_le, hplaced.clust, hplaced.sect⟩⟩

include hM in
theorem f_write.loop_at {fuel : Nat} {wbuff : List UInt8} (hfuel : wbuff.length < fuel)
    (hl : M.Mine other (files i)) (hsound : Sound M.G data (files i) spec fp)
    (hlt : fp.fptr + wbuff.length < 4294967296) :
    Triple (M.Holding files other data fp) (f_write.loop M.G M.D fuel wbuff) fun r s =>
      ∃ m files' data' fp', r = some (.FR_OK, m) ∧ m ≤ wbuff.length ∧
        (m < wbuff.length → M.Full files' other) ∧ fp'.FA_MODIFIED = true ∧
        M.Written files spec i data fp (wbuff.take m) files' data' fp' ∧
        M.Holding files' other data' fp' s := by
  induction fuel generalizing wbuff data fp files spec with
  | zero => exact absurd hfuel (Nat.not_lt_zero _)
  | succ fuel ih =>
    refine Triple.ite (fun hnil => ?_) fun hne => ?_
    · refine (f_write.finish_at hsound).post ?_
      rintro r s ⟨fp', rfl, hmod, hwritten, hs⟩
      exact ⟨0, files, data, fp', rfl, Nat.zero_le _, fun h => absurd h (by simp [hnil]), hmod, hwritten, hs⟩
    · refine Tries.handle (f_write.round_at hM hl hsound hne hlt) (fun x => ?_) fun e s hs => absurd hs id
      rintro s (⟨files', m, data', fp', rfl, ⟨hpos, hle⟩, hwritten, hhold⟩ | ⟨rfl, hfull, hs⟩)
      · have htake : (wbuff.take m).length = m := by
          rw [List.length_take]
          omega
        have hfptr : (f_write.moved m fp').fptr = fp.fptr + m := by rw [hwritten.same, htake]
        have hfuel' : (wbuff.drop m).length < fuel := by rw [List.length_drop]; omega
        have hrest := ih hfuel' (hhold.fs.mine i) hwritten.sound (by rw [List.length_drop, hfptr]; omega)
          { s with fp := f_write.moved m s.fp } ⟨congrArg (f_write.moved m) hhold.fp, hhold.fs⟩
        obtain ⟨n, files'', data'', fp'', hr, hn, hfull, hmod, hmore, hhold'⟩ := hrest
        rw [List.length_drop] at hn hfull
        refine ⟨m + n, files'', data'', fp'', ?_, by omega, fun h => hfull (by omega), hmod, ?_, hhold'⟩
        · show Option.map _ _ = _
          rw [hr]
          rfl
        · rw [List.take_add]
          exact hwritten.trans hmore
      · obtain ⟨fp', hr, hmod, hwritten, hs'⟩ := f_write.finish_at hsound s hs
        exact ⟨0, files, data, fp', hr, Nat.zero_le _, fun _ => hfull, hmod, hwritten, hs'⟩

include hM hl in
/-- **`f_write`** writes all bytes, unless the volume is full, or the file reaches 4 GiB. -/
theorem f_write_at {buff : List UInt8} (hbuff : buff.length < 4294967296)
    (hsound : Sound M.G data (files i) spec fp) (herr : fp.err = .FR_OK) (hmode : fp.FA_WRITE = true) :
    Triple (M.Holding files other data fp) (f_write M.G M.D buff) fun r s =>
      ∃ m files' data' fp', r = some (.FR_OK, m) ∧ m ≤ min buff.length (4294967295 - fp.fptr) ∧
        (m < min buff.length (4294967295 - fp.fptr) → M.Full files' other) ∧ fp'.FA_MODIFIED = true ∧
        M.Written files spec i data fp (buff.take m) files' data' fp' ∧
        M.Holding files' other data' fp' s := by
  have hle := hsound.placed.fptr_le
  have hsize := hsound.sized.size_lt
  have hclip : (if (fp.fptr + buff.length) % 4294967296 < fp.fptr then buff.take (0xFFFFFFFF - fp.fptr)
      else buff) = buff.take (min buff.length (4294967295 - fp.fptr)) := by
    by_cases hwrap : (fp.fptr + buff.length) % 4294967296 < fp.fptr
    · rw [if_pos hwrap, Nat.min_eq_right (by omega)]
    · rw [if_neg hwrap, Nat.min_eq_left (by omega), List.take_length]
  have hlen : (buff.take (min buff.length (4294967295 - fp.fptr))).length =
      min buff.length (4294967295 - fp.fptr) := by
    rw [List.length_take]
    omega
  refine Triple.get_bind fun s hs => ?_
  rw [hs.fp]
  refine Triple.ite (fun hne => absurd herr hne) fun _ => Triple.ite (fun hne => absurd hmode hne) fun _ => ?_
  rw [hclip]
  refine Triple.pre (Triple.post (f_write.loop_at hM (Nat.lt_succ_self _) hl hsound (by omega)) ?_)
    fun s' heq => heq ▸ hs
  rintro r s' ⟨m, files', data', fp', rfl, hm, hfull, hmod, hwritten, hs'⟩
  rw [hlen] at hm hfull
  rw [List.take_take, Nat.min_eq_left hm] at hwritten
  exact ⟨m, files', data', fp', rfl, hm, hfull, hmod, hwritten, hs'⟩

end Mounted

end Miso.Fat

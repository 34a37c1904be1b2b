import Miso.Fat.Writing

/-!
# Truncating a file

* `cut` — the contents of a file up to a byte;
* `f_truncate_at` — `f_truncate` frees the clusters behind the pointer, and keeps what is before it.
-/

namespace Miso.Fat

open Sd Zig

/-- The contents up to the byte `q`. -/
def cut (spec : Nat → Option UInt8) (q : Nat) : Nat → Option UInt8 := fun o => if o < q then spec o else none

theorem cut_some {spec : Nat → Option UInt8} {q o : Nat} {b : UInt8} (h : cut spec q o = some b) :
    o < q ∧ spec o = some b := by
  unfold cut at h
  by_cases hlt : o < q
  · rw [if_pos hlt] at h
    exact ⟨hlt, h⟩
  · rw [if_neg hlt] at h
    exact absurd h (by simp)

theorem Sized.cut_eq {G : Geometry} {l : List Nat} {spec : Nat → Option UInt8} {fp : FIL} (h : Sized G l spec fp)
    {q : Nat} (hq : fp.objsize ≤ q) : cut spec q = spec := by
  funext o
  unfold cut
  by_cases hlt : o < q
  · rw [if_pos hlt]
  · rw [if_neg hlt]
    cases ho : spec o with
    | none => rfl
    | some b =>
      have hbelow := h.below o b ho
      omega

/-- The number of clusters of `q` bytes. -/
def Geometry.clusters (G : Geometry) (q : Nat) : Nat := (q + G.bcs - 1) / G.bcs

namespace Geometry

variable {G : Geometry} {q : Nat}

theorem clusters_zero : G.clusters 0 = 0 := by
  have hbcs := G.bcs_pos
  unfold clusters
  rw [Nat.zero_add]
  exact Nat.div_eq_of_lt (by omega)

theorem clusters_pos (hq : 0 < q) : G.clusters q = (q - 1) / G.bcs + 1 := by
  unfold clusters
  rw [show q + G.bcs - 1 = q - 1 + G.bcs by omega, Nat.add_div_right _ G.bcs_pos]

theorem le_clusters : q ≤ G.clusters q * G.bcs := by
  obtain rfl | hpos := Nat.eq_zero_or_pos q
  · exact Nat.zero_le _
  · rw [clusters_pos hpos, Nat.mul_comm]
    have hlt := Nat.lt_mul_div_succ (q - 1) G.bcs_pos
    omega

theorem clusters_le {n : Nat} (h : q ≤ n * G.bcs) : G.clusters q ≤ n := by
  obtain rfl | hpos := Nat.eq_zero_or_pos q
  · rw [clusters_zero]
    exact Nat.zero_le _
  · rw [clusters_pos hpos]
    exact (Nat.div_lt_iff_lt_mul G.bcs_pos).mpr (by omega)

theorem sectorOf_take {l : List Nat} {o : Nat} (ho : o < q) :
    G.sectorOf (l.take (G.clusters q)) o = G.sectorOf l o := by
  have hlt : o / G.bcs < G.clusters q :=
    (Nat.div_lt_iff_lt_mul G.bcs_pos).mpr (Nat.lt_of_lt_of_le ho le_clusters)
  unfold sectorOf
  rw [List.getD_eq_getElem?_getD, List.getElem?_take_of_lt hlt, ← List.getD_eq_getElem?_getD]

end Geometry

/-- **The file up to the pointer**, when its buffer has been written back. -/
theorem Sound.cut {G : Geometry} {data data' : Nat → Block} {l : List Nat} {spec : Nat → Option UInt8}
    {fp fp' : FIL} (h : Sound G data l spec fp)
    (hb : Buffered G data' l spec { fp with FA_DIRTY := false })
    (hfp' : fp' = { fp with
      sclust := fp'.sclust, objsize := fp.fptr, FA_DIRTY := false, FA_MODIFIED := fp'.FA_MODIFIED })
    (hsclust : fp'.sclust = if fp.fptr = 0 then 0 else fp.sclust) :
    Sound G data' (l.take (G.clusters fp.fptr)) (cut spec fp.fptr) fp' := by
  obtain ⟨hsized, -, hplaced⟩ := h
  have hle := hplaced.fptr_le
  have hfits := hsized.fits
  have hsize := hsized.size_lt
  have hstart := hsized.start
  have hlen : (l.take (G.clusters fp.fptr)).length = G.clusters fp.fptr := by
    rw [List.length_take]
    exact Nat.min_eq_left (Geometry.clusters_le (by omega))
  rw [hfp']
  refine ⟨⟨?_, fun o b ho => (cut_some ho).1, ?_, ?_⟩, ⟨fun o b ho _ => ?_, fun o b ho hs => ?_,
    fun hd => absurd hd (by simp), hb.sect_lt⟩, ⟨Nat.le_refl _, fun hpos => ?_, fun hne => ?_⟩⟩
  · show fp'.sclust = _
    rw [hsclust]
    by_cases hzero : fp.fptr = 0
    · rw [if_pos hzero, hzero, Geometry.clusters_zero]
      rfl
    · rw [if_neg hzero, Geometry.clusters_pos (Nat.pos_of_ne_zero hzero), hstart]
      cases l with
      | nil => rfl
      | cons c m => rfl
  · rw [hlen]
    exact Geometry.le_clusters
  · show fp.fptr < _
    omega
  · obtain ⟨hlt, hspec⟩ := cut_some ho
    rw [Geometry.sectorOf_take hlt]
    exact hb.kept o b hspec fun hd => absurd hd (by simp)
  · obtain ⟨hlt, hspec⟩ := cut_some ho
    rw [Geometry.sectorOf_take hlt] at hs
    exact hb.held o b hspec hs
  · have hpos' : 0 < fp.fptr := hpos
    show (l.take (G.clusters fp.fptr))[(fp.fptr - 1) / G.bcs]? = some fp.clust
    rw [List.getElem?_take_of_lt (by rw [Geometry.clusters_pos hpos']; omega)]
    exact hplaced.clust hpos'
  · have hne' : fp.fptr % 512 ≠ 0 := hne
    have hpos : 0 < fp.fptr := Nat.pos_of_ne_zero fun h0 => hne' (by rw [h0])
    show fp.sect = G.sectorOf (l.take (G.clusters fp.fptr)) fp.fptr
    rw [hplaced.sect hne']
    have hlt : fp.fptr / G.bcs < G.clusters fp.fptr := by
      rw [Geometry.clusters_pos hpos, ← Geometry.interior (.inr hne')]
      exact Nat.lt_succ_self _
    unfold Geometry.sectorOf
    rw [List.getD_eq_getElem?_getD, List.getD_eq_getElem?_getD, List.getElem?_take_of_lt hlt]

namespace Mounted

variable {ι δ : Type} {M : Mounted δ} {files : ι → List Nat} {other : Nat → Prop}
  {data : Nat → Block} {fp : FIL} {spec : Nat → Option UInt8} {i : ι}

theorem onVolume_at {α : Type} {m : StateM (FATFS δ) α} {Q : α → FATFS δ → Prop}
    (h : Triple (M.Chained files other data) m Q) :
    Triple (M.Holding files other data fp) (onVolume m) fun a s => s.fp = fp ∧ Q a s.fs := by
  rintro s ⟨rfl, hfs⟩
  exact ⟨rfl, h s.fs hfs⟩

variable [DecidableEq ι] (hM : M.Sane other)

/-- The clusters behind the first `q` bytes have been removed from the file `i`. -/
def upTo (M : Mounted δ) (files : ι → List Nat) (i : ι) (q : Nat) : ι → List Nat :=
  Function.update files i ((files i).take (M.G.clusters q))

include hM in
/-- The disk does not fail, so that the end of the file is freed. -/
theorem remove_at {l₁ l₂ : List Nat} {b : Nat} (hi : files i = l₁ ++ b :: l₂) :
    Triple (M.Chained files other data) (remove_chain M.G M.D b (l₁.getLast?.getD 0)) fun r fs =>
      r = some .FR_OK ∧ M.Chained (Function.update files i l₁) other data fs := by
  refine (remove_chain_at hi).post ?_
  rintro r fs ⟨hok | ⟨hf, -⟩, hfs | ⟨hf, -⟩⟩
  · exact ⟨hok, hfs⟩
  · exact absurd hf hM.sure
  · exact absurd hf hM.sure
  · exact absurd hf hM.sure

include hM in
theorem f_truncate.all_at {c : Nat} {l : List Nat} (hi : files i = c :: l) (hsclust : fp.sclust = c) :
    Triple (M.Holding files other data fp) (f_truncate.all M.G M.D) fun r s =>
      r = some .FR_OK ∧ M.Holding (Function.update files i []) other data { fp with sclust := 0 } s := by
  have hremove : Triple (M.Chained files other data) (remove_chain M.G M.D c 0) _ :=
    remove_at hM (show files i = [] ++ c :: l from hi)
  refine Triple.get_bind fun s hs => ?_
  rw [hs.fp]
  show Triple _ (onVolume (remove_chain M.G M.D fp.sclust 0) >>= _) _
  rw [hsclust]
  refine Triple.pre (Triple.bind (onVolume_at hremove) fun r => ?_) fun s' heq => heq ▸ hs
  rintro s' ⟨hfp, hok, hfs⟩
  exact ⟨hok, congrArg (fun fp => { fp with sclust := 0 }) hfp, hfs⟩

include hM in
/-- There is a cluster behind the current one. -/
theorem f_truncate.next_at (hl : M.Mine other (files i)) {k b : Nat} (hclust : (files i)[k]? = some fp.clust)
    (hb : (files i)[k + 1]? = some b) :
    Triple (M.Holding files other data fp) (f_truncate.rest M.G M.D) fun r s => r = some .FR_OK ∧
      M.Holding (Function.update files i ((files i).take k ++ [fp.clust])) other data fp s := by
  have hmodulus := M.G.fs_type.modulus_le
  have hlimit := Nat.lt_of_le_of_lt M.G.le_limit M.G.fs_type.limit_lt
  have hvalid := hl.range b (List.mem_of_getElem? hb)
  have hremove : Triple (M.Chained files other data) (remove_chain M.G M.D b fp.clust) fun r fs =>
      r = some .FR_OK ∧
        M.Chained (Function.update files i ((files i).take k ++ [fp.clust])) other data fs := by
    have hbehind : Triple (M.Chained files other data) _ _ :=
      remove_at hM ((split_two hclust hb).trans (List.append_cons _ _ _))
    rwa [List.getLast?_concat, Option.getD_some] at hbehind
  refine Triple.get_bind fun s hs => ?_
  rw [hs.fp]
  refine Triple.pre (Triple.bind (onVolume_at (follow_at hM hclust hb)) fun ncl => ?_) fun s' heq => heq ▸ hs
  rintro s' ⟨hfp, rfl, hfs⟩
  unfold f_truncate.behind
  rw [if_neg (by omega), if_neg (by omega), if_pos hvalid.2]
  obtain ⟨hfp', hok, hfs'⟩ := onVolume_at hremove s' ⟨hfp, hfs⟩
  exact ⟨hok, hfp', hfs'⟩

omit [DecidableEq ι] in
include hM in
/-- The current cluster is the last one. -/
theorem f_truncate.last_at {k : Nat} (hlast : files i = (files i).take k ++ [fp.clust]) :
    Triple (M.Holding files other data fp) (f_truncate.rest M.G M.D) fun r s =>
      r = some .FR_OK ∧ M.Holding files other data fp s := by
  have hthree := M.G.three_le
  have hget : Triple (M.Chained files other data) (get_fat M.G M.D fp.clust) fun x fs =>
      (M.G.n_fatent ≤ x ∧ x < 268435456) ∧ M.Chained files other data fs := by
    rintro fs ⟨T, h, hT, hbooked⟩
    have hrange := hbooked.chains.range i fp.clust (by rw [hlast]; simp)
    obtain ⟨hx | ⟨hf, -⟩, hT'⟩ := get_at hrange.1 hrange.2 fs hT
    · rw [hx]
      exact ⟨⟨hbooked.chains.last hlast, hT.lt hrange.1 hrange.2⟩, T, h, hT', hbooked⟩
    · exact absurd hf hM.sure
  refine Triple.get_bind fun s hs => ?_
  rw [hs.fp]
  refine Triple.pre (Triple.bind (onVolume_at hget) fun ncl => ?_) fun s' heq => heq ▸ hs
  rintro s' ⟨hfp, ⟨hlow, hhigh⟩, hfs⟩
  unfold f_truncate.behind
  rw [if_neg (by omega), if_neg (by omega), if_neg (by omega)]
  exact ⟨rfl, hfp, hfs⟩

include hM in
/-- The clusters behind the pointer are removed. -/
theorem f_truncate.chain_at (hl : M.Mine other (files i)) (hsound : Sound M.G data (files i) spec fp)
    (hlt : fp.fptr < fp.objsize) :
    Triple (M.Holding files other data fp) (f_truncate.chain M.G M.D) fun r s =>
      r = some .FR_OK ∧ M.Holding (M.upTo files i fp.fptr) other data
        { fp with sclust := if fp.fptr = 0 then 0 else fp.sclust } s := by
  obtain ⟨hsized, hb, hplaced⟩ := hsound
  have hfits := hsized.fits
  have hstart := hsized.start
  refine Triple.get_bind fun s hs => ?_
  rw [hs.fp]
  refine Triple.pre (Triple.ite (fun hzero => ?_) fun hpos => ?_) fun s' heq => heq ▸ hs
  · have hnone : M.upTo files i fp.fptr = Function.update files i [] := by
      unfold upTo
      rw [hzero, Geometry.clusters_zero]
      rfl
    rw [if_pos hzero, hnone]
    cases hi : files i with
    | nil =>
      rw [hi, List.length_nil, Nat.zero_mul] at hfits
      omega
    | cons c l =>
      rw [hi] at hstart
      exact f_truncate.all_at hM hi hstart
  · have hpos' := Nat.pos_of_ne_zero hpos
    have hclust := hplaced.clust hpos'
    have hcount := Geometry.clusters_pos (G := M.G) hpos'
    have htake : (files i).take (M.G.clusters fp.fptr) =
        (files i).take ((fp.fptr - 1) / M.G.bcs) ++ [fp.clust] := by
      rw [hcount, List.take_add_one, hclust]
      rfl
    rw [if_neg hpos]
    unfold upTo
    by_cases hnext : (fp.fptr - 1) / M.G.bcs + 1 < (files i).length
    · rw [htake]
      exact f_truncate.next_at hM hl hclust (List.getElem?_eq_getElem hnext)
    · have hlen : (files i).take (M.G.clusters fp.fptr) = files i :=
        List.take_of_length_le (by omega)
      rw [hlen, Function.update_eq_self]
      exact f_truncate.last_at hM (hlen.symm.trans htake)

/-- **What `f_truncate` leaves.** -/
structure Truncated (M : Mounted δ) (files : ι → List Nat) (spec : Nat → Option UInt8) (i : ι)
    (data : Nat → Block) (fp : FIL) (files' : ι → List Nat) (data' : Nat → Block) (fp' : FIL) : Prop where
  same : fp' = { fp with
    sclust := fp'.sclust, objsize := fp.fptr, FA_DIRTY := fp'.FA_DIRTY, FA_MODIFIED := fp'.FA_MODIFIED }
  modified : fp.fptr < fp.objsize ∨ fp.FA_MODIFIED = true → fp'.FA_MODIFIED = true
  removed : fp.fptr < fp.objsize → files' = M.upTo files i fp.fptr
  idle : fp.fptr = fp.objsize → files' = files
  own : Own M.G (files i) data data'
  sound : Sound M.G data' (files' i) (cut spec fp.fptr) fp'

include hM in
/-- **`f_truncate`** frees the clusters behind the pointer, and keeps what is before it. -/
theorem f_truncate_at (hl : M.Mine other (files i)) (hsound : Sound M.G data (files i) spec fp)
    (herr : fp.err = .FR_OK) (hmode : fp.FA_WRITE = true) :
    Triple (M.Holding files other data fp) (f_truncate M.G M.D) fun r s => ∃ files' data' fp',
      r = some .FR_OK ∧ M.Truncated files spec i data fp files' data' fp' ∧
        M.Holding files' other data' fp' s := by
  have hle := hsound.placed.fptr_le
  have hdirty := hl.dirty hsound.buffered
  obtain ⟨hclean, hown⟩ := flushed_spec hsound.buffered
  refine Triple.get_bind fun s hs => ?_
  rw [hs.fp]
  refine Triple.ite (fun hne => absurd herr hne) fun _ => Triple.ite (fun hne => absurd hmode hne) fun _ => ?_
  refine Triple.ite (fun hlt => ?_) fun hge => ?_
  · refine Triple.pre (Triple.bind (f_truncate.chain_at hM hl hsound hlt) fun r => Triple.assume ?_)
      fun s' heq => heq ▸ hs
    rintro rfl
    have hflush : Acts (M.Holding (M.upTo files i fp.fptr) other data { fp with
        sclust := if fp.fptr = 0 then 0 else fp.sclust, objsize := fp.fptr, FA_MODIFIED := true })
        (flush M.D) fun _ => M.Holding (M.upTo files i fp.fptr) other (flushed data fp) { fp with
          sclust := if fp.fptr = 0 then 0 else fp.sclust, objsize := fp.fptr, FA_MODIFIED := true,
          FA_DIRTY := false } := flush_at hM hdirty
    have hset : Triple (M.Holding (M.upTo files i fp.fptr) other data
        { fp with sclust := if fp.fptr = 0 then 0 else fp.sclust })
        (modify fun s => { s with fp := { s.fp with objsize := s.fp.fptr, FA_MODIFIED := true } })
        fun _ => M.Holding (M.upTo files i fp.fptr) other data { fp with
          sclust := if fp.fptr = 0 then 0 else fp.sclust, objsize := fp.fptr, FA_MODIFIED := true } :=
      Triple.modify fun s' hs' => ⟨by rw [hs'.fp], hs'.fs⟩
    refine Triple.bind hset fun _ => ?_
    rw [if_pos rfl]
    refine Tries.handle hflush (fun _ => Triple.ret fun s' hs' => ?_) fun e s' hs' => absurd hs' id
    refine ⟨M.upTo files i fp.fptr, flushed data fp, _, rfl, ⟨rfl, fun _ => rfl, fun _ => rfl,
      fun heq => absurd hlt (by omega), hown, ?_⟩, hs'⟩
    unfold upTo
    rw [Function.update_self]
    exact hsound.cut hclean rfl rfl
  · refine Triple.ret fun s' heq => ⟨files, data, fp, rfl, ⟨?_, fun hm => hm.resolve_left hge,
      fun hlt => absurd hlt hge, fun _ => rfl, Own.rfl, ?_⟩, heq ▸ hs⟩
    · have hsame : fp.objsize = fp.fptr := by omega
      exact congrArg (fun n => { fp with objsize := n }) hsame
    · rw [hsound.sized.cut_eq (by omega)]
      exact hsound

end Mounted

end Miso.Fat

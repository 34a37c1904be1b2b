import Miso.Fat.Writing

/-!
# Seeking in a file

* `follow_at` — the clusters of a file are followed, and new ones added if it is open for writing;
* `f_lseek_at` — `f_lseek` sets the pointer, unless the volume is full, and keeps the contents.
-/

namespace Miso.Fat

open Sd Zig

namespace Mounted

variable {ι δ : Type} {M : Mounted δ} {files : ι → List Nat} {other : Nat → Prop}
  {data : Nat → Block} {fp : FIL} {spec : Nat → Option UInt8} {i : ι}

/-- A file can be followed to the offset `ofs`: it may get more clusters, or has them. -/
def Reachable (M : Mounted δ) (files : ι → List Nat) (i : ι) (fp : FIL) (ofs : Nat) : Prop :=
  fp.FA_WRITE = true ∨ ofs ≤ (files i).length * M.G.bcs

section Following

variable [DecidableEq ι] (hM : M.Sane other)

include hM in
theorem f_lseek.next_at {k clst : Nat} (hclst : (files i)[k]? = some clst)
    (hreach : fp.FA_WRITE = true ∨ k + 1 < (files i).length) :
    Acts (M.Holding files other data fp) (f_lseek.next M.G M.D clst) fun x s =>
      (∃ files' c, x = some c ∧ (Extends files files' i ∧ (files' i)[k + 1]? = some c) ∧
        M.Holding files' other data fp s) ∨
      x = none ∧ ((files i).length = k + 1 ∧ M.Full files other) ∧ M.Holding files other data fp s := by
  refine Tries.bind fil_at fun fp' => Tries.assume ?_
  rintro rfl
  refine Tries.ite (fun _ => ?_) fun hread => ?_
  · refine Tries.bind (stretch_at hM hclst) fun c => Tries.ret ?_
    rintro s (⟨files', ⟨hextends, hget⟩, hs⟩ | ⟨rfl, hfull, hs⟩)
    · have hlow := ((hs.fs.mine i).range c (List.mem_of_getElem? hget)).1
      exact .inl ⟨files', c, if_neg (by omega), ⟨hextends, hget⟩, hs⟩
    · exact .inr ⟨rfl, hfull, hs⟩
  · obtain hw | hlt := hreach
    · exact absurd hw hread
    · have hget : (files i)[k + 1]? = some (files i)[k + 1] := List.getElem?_eq_getElem hlt
      refine Tries.bind (volume_at (follow_at hM hclst hget)) fun c => Tries.ret ?_
      rintro s ⟨rfl, hs⟩
      exact .inl ⟨files, _, rfl, ⟨Extends.rfl, hget⟩, hs⟩

/-- **Where following leads to**: the offset in a cluster, or the end of the last one. -/
structure Followed (M : Mounted δ) (files : ι → List Nat) (other : Nat → Prop) (i : ι) (fp : FIL)
    (total : Nat) (x : Nat × Nat) (files' : ι → List Nat) (fp' : FIL) : Prop where
  same : fp' = { fp with fptr := fp'.fptr, clust := fp'.clust }
  extended : Extends files files' i
  clust : (files' i)[(fp'.fptr + x.2 - 1) / M.G.bcs]? = some fp'.clust
  pos : 0 < fp'.fptr + x.2
  boundary : ∃ k, fp'.fptr = k * M.G.bcs
  within : 0 < x.2 → x.2 ≤ M.G.bcs ∧ x.1 = fp'.clust
  there : fp'.fptr + x.2 ≠ total →
    fp'.fptr + x.2 < total ∧ (files i).length * M.G.bcs ≤ fp'.fptr + x.2 ∧ M.Full files' other

theorem cluster_of {G : Geometry} {k ofs : Nat} (hpos : 0 < ofs) (hle : ofs ≤ G.bcs) :
    (k * G.bcs + ofs - 1) / G.bcs = k := by
  rw [Nat.add_sub_assoc hpos, Nat.mul_comm, Nat.mul_add_div G.bcs_pos, Nat.div_eq_of_lt (by omega)]
  rfl

include hM in
theorem f_lseek.follow_at {fuel k clst ofs : Nat} (hfuel : ofs / M.G.bcs < fuel) (hpos : 0 < ofs)
    (hfptr : fp.fptr = k * M.G.bcs) (hclust : fp.clust = clst) (hclst : (files i)[k]? = some clst)
    (hreach : M.Reachable files i fp (k * M.G.bcs + ofs)) :
    Acts (M.Holding files other data fp) (f_lseek.follow M.G M.D M.G.bcs fuel clst ofs) fun x s =>
      ∃ files' fp', M.Followed files other i fp (k * M.G.bcs + ofs) x files' fp' ∧
        M.Holding files' other data fp' s := by
  induction fuel generalizing k clst ofs files fp with
  | zero => exact absurd hfuel (Nat.not_lt_zero _)
  | succ fuel ih =>
    refine Tries.ite (fun hle => Tries.ret fun s hs => ?_) fun hgt => ?_
    · refine ⟨files, fp, ⟨rfl, Extends.rfl, ?_, by omega, ⟨k, hfptr⟩, fun _ => ⟨hle, hclust.symm⟩,
        fun hne => absurd ?_ hne⟩, hs⟩
      · show (files i)[(fp.fptr + ofs - 1) / M.G.bcs]? = some fp.clust
        rw [hfptr, cluster_of hpos hle, hclst, hclust]
      · rw [hfptr]
    · have hbcs := M.G.bcs_pos
      have hsucc : (k + 1) * M.G.bcs = k * M.G.bcs + M.G.bcs := Nat.succ_mul ..
      have hreach' : fp.FA_WRITE = true ∨ k + 1 < (files i).length := by
        refine hreach.imp id fun hle => Nat.lt_of_mul_lt_mul_right (a := M.G.bcs) ?_
        omega
      refine Tries.bind (setFil_at _) fun _ => Tries.bind (f_lseek.next_at hM hclst hreach') fun x =>
        Tries.named ?_
      rintro s (⟨files', c, rfl, ⟨hextends, hget⟩, hs⟩ | ⟨rfl, ⟨hlen, hfull⟩, hs⟩)
      · obtain ⟨hlow, hhigh⟩ := (hs.fs.mine i).range c (List.mem_of_getElem? hget)
        have hmodulus := M.G.fs_type.modulus_le
        have hlimit := Nat.lt_of_le_of_lt M.G.le_limit M.G.fs_type.limit_lt
        have hvalid : Acts (M.Holding files' other data { fp with fptr := fp.fptr + M.G.bcs })
            (f_lseek.valid M.G c) fun _ => M.Holding files' other data
              { fp with fptr := fp.fptr + M.G.bcs, clust := c } :=
          Tries.bind (abortIf_at (by omega)) fun _ => Tries.bind (abortIf_at (by omega)) fun _ => setFil_at _
        have htotal : (k + 1) * M.G.bcs + (ofs - M.G.bcs) = k * M.G.bcs + ofs := by omega
        have hdiv : (ofs - M.G.bcs) / M.G.bcs < fuel := by
          have hsub := Nat.sub_mul_div ofs M.G.bcs 1
          rw [Nat.mul_one] at hsub
          have hone := Nat.div_pos (Nat.le_of_lt (Nat.lt_of_not_le hgt)) hbcs
          omega
        have hlen' : (files i).length ≤ (files' i).length := by
          obtain ⟨l, hl⟩ := hextends.own
          rw [hl, List.length_append]
          omega
        have hreach'' : M.Reachable files' i { fp with fptr := fp.fptr + M.G.bcs, clust := c }
            ((k + 1) * M.G.bcs + (ofs - M.G.bcs)) := by
          rw [htotal]
          exact hreach.imp id fun hle => Nat.le_trans hle (Nat.mul_le_mul_right _ hlen')
        have hrest := @ih files' { fp with fptr := fp.fptr + M.G.bcs, clust := c } (k + 1) c
          (ofs - M.G.bcs) hdiv (by omega) (by show fp.fptr + M.G.bcs = _; omega) rfl hget hreach''
        rw [htotal] at hrest
        refine Tries.pre (Tries.bind hvalid fun _ => Tries.post hrest ?_) fun s' heq => heq ▸ hs
        rintro x s' ⟨files'', fp', hfollowed, hs'⟩
        refine ⟨files'', fp', ⟨?_, hextends.trans hfollowed.extended, hfollowed.clust, hfollowed.pos,
          hfollowed.boundary, hfollowed.within, fun hne => ?_⟩, hs'⟩
        · rw [hfollowed.same]
        · obtain ⟨hlt, hlen, hfull⟩ := hfollowed.there hne
          exact ⟨hlt, Nat.le_trans (Nat.mul_le_mul_right _ hlen') hlen, hfull⟩
      · refine Tries.ret fun s' heq => ⟨files, { fp with fptr := fp.fptr + M.G.bcs },
          ⟨rfl, Extends.rfl, ?_, ?_, ⟨k + 1, ?_⟩, fun h0 => absurd h0 (by simp), fun _ => ⟨?_, ?_, hfull⟩⟩,
          heq ▸ hs⟩
        · show (files i)[(fp.fptr + M.G.bcs + 0 - 1) / M.G.bcs]? = some fp.clust
          rw [Nat.add_zero, hfptr, cluster_of hbcs (Nat.le_refl _), hclst, hclust]
        · show 0 < fp.fptr + M.G.bcs + 0
          omega
        · show fp.fptr + M.G.bcs = _
          omega
        · show fp.fptr + M.G.bcs + 0 < _
          omega
        · show _ ≤ fp.fptr + M.G.bcs + 0
          rw [hlen]
          omega

/-! ## The cluster of the offset -/

omit [DecidableEq ι] in
/-- The start of the file is known, unless it has no cluster. -/
theorem extends_head {files' : ι → List Nat} (h : Extends files files' i) {k c : Nat}
    (hget : (files i)[k]? = some c) : (files' i).head? = (files i).head? := by
  obtain ⟨l, hl⟩ := h.own
  rw [hl]
  cases hi : files i with
  | nil =>
    rw [hi] at hget
    exact absurd hget (by simp)
  | cons a m => rfl

omit [DecidableEq ι] in
theorem checked_at {x : Nat} (hx : x ≠ 1 ∧ x ≠ 0xFFFFFFFF) :
    Acts (M.Holding files other data fp) (checked x) fun _ => M.Holding files other data fp :=
  Tries.bind (abortIf_at hx.1) fun _ => abortIf_at hx.2

omit [DecidableEq ι] in
theorem Mine.valid {l : List Nat} (hl : M.Mine other l) {c : Nat} (hc : c ∈ l) :
    2 ≤ c ∧ c ≠ 1 ∧ c ≠ 0xFFFFFFFF := by
  obtain ⟨hlow, hhigh⟩ := hl.range c hc
  have hmodulus := M.G.fs_type.modulus_le
  have hlimit := Nat.lt_of_le_of_lt M.G.le_limit M.G.fs_type.limit_lt
  omega

include hM in
theorem f_lseek.first_at (hstart : fp.sclust = (files i).head?.getD 0) (hl : M.Mine other (files i)) :
    Acts (M.Holding files other data fp) (f_lseek.first M.G M.D) fun x s =>
      (∃ files', (Extends files files' i ∧ (files' i)[0]? = some x) ∧
        M.Holding files' other data { fp with sclust := x } s) ∨
      x = 0 ∧ (files i = [] ∧ M.Full files other) ∧ M.Holding files other data { fp with sclust := 0 } s := by
  refine Tries.bind fil_at fun fp' => Tries.assume ?_
  rintro rfl
  refine Tries.ite (fun hzero => ?_) fun hne => Tries.ret fun s hs => .inl ⟨files, ⟨Extends.rfl, ?_⟩, hs⟩
  · have hnil : files i = [] := by
      cases hi : files i with
      | nil => rfl
      | cons c l =>
        have hlow := (hl.valid (c := c) (by simp [hi])).1
        rw [hi] at hstart
        have hsclust : fp'.sclust = c := hstart
        omega
    have hlast : 0 = (files i).getLast?.getD 0 := by rw [hnil]; rfl
    refine Tries.bind (grow_at hM hlast) fun x => Tries.named ?_
    rintro s (⟨files', ⟨hextends, hget⟩, hs⟩ | ⟨rfl, ⟨-, hfull⟩, hs⟩)
    · rw [hnil] at hget
      have hvalid := (hs.fs.mine i).valid (List.mem_of_getElem? hget)
      refine Tries.pre (Tries.bind (checked_at hvalid.2) fun _ => Tries.bind (setFil_at _) fun _ =>
        Tries.ret fun s' hs' => .inl ⟨files', ⟨hextends, hget⟩, hs'⟩) fun s' heq => heq ▸ hs
    · refine Tries.pre (Tries.bind (checked_at ⟨by decide, by decide⟩) fun _ => Tries.bind (setFil_at _)
        fun _ => Tries.ret fun s' hs' => .inr ⟨rfl, ⟨hnil, hfull⟩, hs'⟩) fun s' heq => heq ▸ hs
  · rw [← List.head?_eq_getElem?]
    cases hi : files i with
    | nil =>
      rw [hi] at hstart
      exact absurd hstart hne
    | cons c l =>
      rw [hi] at hstart
      exact congrArg some hstart.symm

/-- **Where a seek begins**: at the start of a cluster of the file, which has one unless the volume is
full. -/
def Started (M : Mounted δ) (files : ι → List Nat) (other : Nat → Prop) (data : Nat → Block) (i : ι)
    (fp : FIL) (ofs : Nat) (x : Nat × Nat) (s : Opened δ) : Prop :=
  (∃ files' sclust k, Extends files files' i ∧ sclust = (files' i).head?.getD 0 ∧
    (files' i)[k]? = some x.1 ∧ k * M.G.bcs + x.2 = ofs ∧ 0 < x.2 ∧
    M.Holding files' other data { fp with fptr := k * M.G.bcs, clust := x.1, sclust := sclust } s) ∨
  x.1 = 0 ∧ (files i = [] ∧ M.Full files other) ∧
    M.Holding files other data { fp with clust := 0, sclust := 0 } s

include hM in
theorem f_lseek.start_at {ofs ifptr : Nat} (hstart : fp.sclust = (files i).head?.getD 0)
    (hl : M.Mine other (files i)) (hclust : 0 < ifptr → (files i)[(ifptr - 1) / M.G.bcs]? = some fp.clust)
    (hfptr : fp.fptr = 0) (hifptr : ifptr < 4294967296) (hpos : 0 < ofs) :
    Acts (M.Holding files other data fp) (f_lseek.start M.G M.D M.G.bcs ofs ifptr)
      (M.Started files other data i fp ofs) := by
  refine Tries.ite (fun hfwd => ?_) fun _ => ?_
  · have hmask := Geometry.mask_eq (G := M.G) (x := ifptr - 1) (by omega)
    have hle : (ifptr - 1) / M.G.bcs * M.G.bcs ≤ ofs - 1 :=
      Nat.le_trans (Nat.mul_le_mul_right _ hfwd.2) (Nat.div_mul_le_self _ _)
    show Acts _ (setFil (fun fp => { fp with fptr := (ifptr - 1) &&& (4294967295 - (M.G.csize * 512 - 1)) }) >>=
      _) _
    rw [hmask]
    refine Tries.bind (setFil_at _) fun _ => Tries.bind fil_at fun fp' => Tries.assume ?_
    rintro rfl
    refine Tries.ret fun s hs => .inl ⟨files, fp.sclust, (ifptr - 1) / M.G.bcs, Extends.rfl, hstart,
      hclust hfwd.1, ?_, ?_, hs⟩
    · show _ + (ofs - ((ifptr - 1) &&& (4294967295 - (M.G.csize * 512 - 1)))) = ofs
      rw [hmask]
      omega
    · show 0 < ofs - ((ifptr - 1) &&& (4294967295 - (M.G.csize * 512 - 1)))
      rw [hmask]
      omega
  · refine Tries.bind (f_lseek.first_at hM hstart hl) fun x => Tries.named ?_
    rintro s (⟨files', ⟨hextends, hget⟩, hs⟩ | ⟨rfl, hnone, hs⟩)
    · refine Tries.pre (Tries.bind (setFil_at _) fun _ => Tries.ret fun s' hs' => ?_) fun s' heq => heq ▸ hs
      refine .inl ⟨files', x, 0, hextends, ?_, hget, ?_, hpos, ?_⟩
      · rw [List.head?_eq_getElem?, hget]
        rfl
      · rw [Nat.zero_mul, Nat.zero_add]
      · rw [Nat.zero_mul, ← hfptr]
        exact hs'
    · refine Tries.pre (Tries.bind (setFil_at _) fun _ => Tries.ret fun s' hs' => ?_) fun s' heq => heq ▸ hs
      exact .inr ⟨rfl, hnone, hs'⟩

/-- **What moving the pointer leaves.** -/
structure Landed (M : Mounted δ) (files : ι → List Nat) (other : Nat → Prop) (i : ι) (fp : FIL) (ofs x : Nat)
    (files' : ι → List Nat) (fp' : FIL) : Prop where
  same : fp' = { fp with fptr := fp'.fptr, clust := fp'.clust, sclust := fp'.sclust }
  extended : Extends files files' i
  start : fp'.sclust = (files' i).head?.getD 0
  clust : 0 < fp'.fptr → (files' i)[(fp'.fptr - 1) / M.G.bcs]? = some fp'.clust
  there : fp'.fptr ≠ ofs →
    fp'.fptr < ofs ∧ (files i).length * M.G.bcs ≤ fp'.fptr ∧ M.Full files' other
  sector : fp'.fptr % 512 ≠ 0 → x = M.G.sectorOf (files' i) fp'.fptr

/-- A sector of a cluster of the file. -/
theorem sector_of {G : Geometry} {l : List Nat} {k ofs c : Nat} (hget : l[k]? = some c) (hlt : ofs < G.bcs) :
    G.base c + ofs / 512 = G.sectorOf l (k * G.bcs + ofs) := by
  have hdiv : (k * G.bcs + ofs) / G.bcs = k := by
    rw [Nat.mul_comm, Nat.mul_add_div G.bcs_pos, Nat.div_eq_of_lt hlt, Nat.add_zero]
  have hsect : (k * G.bcs + ofs) / 512 = G.csize * k + ofs / 512 := by
    have hmul : k * G.bcs = 512 * (G.csize * k) := by
      unfold Geometry.bcs
      rw [Nat.mul_comm G.csize 512, Nat.mul_left_comm, Nat.mul_comm k]
    omega
  have hmod : ofs / 512 < G.csize := by
    unfold Geometry.bcs at hlt
    omega
  rw [Geometry.sectorOf_eq (c := c) (by rw [hdiv, hget]), hsect, Nat.mul_add_mod, Nat.mod_eq_of_lt hmod]

omit [DecidableEq ι] in
theorem f_lseek.locate_at {total : Nat} {x : Nat × Nat} {files' : ι → List Nat} {fp' : FIL}
    (h : M.Followed files other i fp total x files' fp') (hl : M.Mine other (files' i))
    (hstart : fp.sclust = (files' i).head?.getD 0) :
    Acts (M.Holding files' other data fp') (f_lseek.locate M.G x.1 x.2) fun y s => ∃ fp'',
      M.Landed files other i fp total y files' fp'' ∧ M.Holding files' other data fp'' s := by
  obtain ⟨k, hk⟩ := h.boundary
  have hbcs : M.G.bcs = 512 * M.G.csize := Nat.mul_comm _ _
  have hmul : k * M.G.bcs = 512 * (M.G.csize * k) := by
    rw [hbcs, Nat.mul_left_comm, Nat.mul_comm k]
  have hland : ∀ y, ((fp'.fptr + x.2) % 512 ≠ 0 → y = M.G.sectorOf (files' i) (fp'.fptr + x.2)) →
      M.Landed files other i fp total y files' { fp' with fptr := fp'.fptr + x.2 } := fun y hy => by
    refine ⟨?_, h.extended, ?_, fun _ => h.clust, h.there, hy⟩
    · rw [h.same]
    · rw [h.same]
      exact hstart
  refine Tries.bind (setFil_at _) fun _ => Tries.ite (fun hne => ?_) fun heq => Tries.ret fun s hs =>
    ⟨_, hland 0 fun hne => absurd hne (by omega), hs⟩
  obtain ⟨hle, hx⟩ := h.within (by omega)
  have hlt : x.2 < M.G.bcs := by omega
  have hget := h.clust
  rw [hk, cluster_of (by omega) hle, ← hx] at hget
  obtain ⟨hlow, hhigh⟩ := hl.range _ (List.mem_of_getElem? hget)
  rw [Geometry.clst2sect_eq hlow hhigh]
  refine Tries.bind (abortIf_at (Geometry.base_ne _)) fun _ => Tries.ret fun s hs => ⟨_, hland _ fun _ => ?_, hs⟩
  rw [hk]
  exact sector_of hget hlt

include hM in
/-- **The pointer is moved**, over clusters that may be new ones. -/
theorem f_lseek.move_at {ofs ifptr : Nat} (hstart : fp.sclust = (files i).head?.getD 0)
    (hl : M.Mine other (files i)) (hclust : 0 < ifptr → (files i)[(ifptr - 1) / M.G.bcs]? = some fp.clust)
    (hfptr : fp.fptr = 0) (hifptr : ifptr < 4294967296) (hreach : M.Reachable files i fp ofs) :
    Acts (M.Holding files other data fp) (f_lseek.move M.G M.D ofs ifptr) fun x s => ∃ files' fp',
      M.Landed files other i fp ofs x files' fp' ∧ M.Holding files' other data fp' s := by
  refine Tries.ite (fun hpos => ?_) fun hzero => Tries.ret fun s hs => ?_
  · refine Tries.bind (f_lseek.start_at hM hstart hl hclust hfptr hifptr hpos) fun x => Tries.named ?_
    rintro s (⟨files', sclust, k, hextends, hsclust, hget, htotal, hxpos, hs⟩ | ⟨hx, ⟨hnil, hfull⟩, hs⟩)
    · have hlow := ((hs.fs.mine i).valid (List.mem_of_getElem? hget)).1
      refine Tries.ite (fun h0 => absurd h0 (by omega)) fun _ => ?_
      have hlen : (files i).length ≤ (files' i).length := by
        obtain ⟨l, hl'⟩ := hextends.own
        rw [hl', List.length_append]
        omega
      have hreach' : M.Reachable files' i { fp with fptr := k * M.G.bcs, clust := x.1, sclust := sclust }
          (k * M.G.bcs + x.2) := by
        rw [htotal]
        exact hreach.imp id fun hle => Nat.le_trans hle (Nat.mul_le_mul_right _ hlen)
      refine Tries.pre (Tries.bind (f_lseek.follow_at hM (Nat.lt_succ_self _) hxpos rfl rfl hget
        hreach') fun y => Tries.named ?_) fun s' heq => heq ▸ hs
      rintro s' ⟨files'', fp', hfollowed, hs'⟩
      have hsclust' : sclust = (files'' i).head?.getD 0 := by
        rw [extends_head hfollowed.extended hget]
        exact hsclust
      refine Tries.pre (Tries.post (f_lseek.locate_at hfollowed (hs'.fs.mine i) hsclust') ?_)
        fun s'' heq => heq ▸ hs'
      rintro z s'' ⟨fp'', hland, hs''⟩
      rw [htotal] at hland
      refine ⟨files'', fp'', ⟨?_, hextends.trans hland.extended, hland.start, hland.clust, fun hne => ?_,
        hland.sector⟩, hs''⟩
      · rw [hland.same]
      · obtain ⟨hlt, hle, hfull⟩ := hland.there hne
        exact ⟨hlt, Nat.le_trans (Nat.mul_le_mul_right _ hlen) hle, hfull⟩
    · refine Tries.ite (fun _ => Tries.ret fun s' heq => ?_) fun hne => absurd hx hne
      refine ⟨files, { fp with clust := 0, sclust := 0 }, ⟨rfl, Extends.rfl, ?_, fun h0 => absurd h0 ?_,
        fun _ => ⟨?_, ?_, hfull⟩, fun hne => absurd hne ?_⟩, heq ▸ hs⟩
      · rw [hnil]
        rfl
      · show ¬0 < fp.fptr
        omega
      · show fp.fptr < ofs
        omega
      · rw [hnil, List.length_nil, Nat.zero_mul]
        exact Nat.zero_le _
      · show ¬fp.fptr % 512 ≠ 0
        rw [hfptr]
        decide
  · refine ⟨files, fp, ⟨rfl, Extends.rfl, hstart, fun h0 => absurd h0 (by omega),
      fun hne => absurd hfptr (by omega), fun hne => absurd hne (by rw [hfptr]; decide)⟩, hs⟩

/-! ## The seek -/

/-- **What `f_lseek` leaves.** -/
structure Seeked (M : Mounted δ) (files : ι → List Nat) (other : Nat → Prop) (spec : Nat → Option UInt8)
    (i : ι) (data : Nat → Block) (fp : FIL) (ofs : Nat) (files' : ι → List Nat) (data' : Nat → Block)
    (fp' : FIL) : Prop where
  same : fp' = { fp with
    sclust := fp'.sclust, objsize := max fp'.fptr fp.objsize, fptr := fp'.fptr, clust := fp'.clust,
    buf := fp'.buf, sect := fp'.sect, FA_DIRTY := fp'.FA_DIRTY, FA_MODIFIED := fp'.FA_MODIFIED }
  modified : fp.objsize < fp'.objsize ∨ fp.FA_MODIFIED = true → fp'.FA_MODIFIED = true
  there : fp'.fptr ≠ ofs → fp'.fptr < ofs ∧ fp.objsize ≤ fp'.fptr ∧ M.Full files' other
  extended : Extends files files' i
  own : Own M.G (files' i) data data'
  sound : Sound M.G data' (files' i) spec fp'

/-- A read-only file is not extended. -/
def FIL.target (fp : FIL) (ofs : Nat) : Nat := if fp.objsize < ofs ∧ ¬fp.FA_WRITE then fp.objsize else ofs

omit [DecidableEq ι] in
include hM in
/-- The sector of the pointer is brought into the buffer. -/
theorem f_lseek.buffer_at {nsect : Nat} (hl : M.Mine other (files i)) (hb : Buffered M.G data (files i) spec fp)
    (hfptr : fp.fptr ≤ (files i).length * M.G.bcs)
    (hsector : fp.fptr % 512 ≠ 0 → nsect = M.G.sectorOf (files i) fp.fptr) :
    Acts (M.Holding files other data fp) (f_lseek.buffer M.D nsect) fun _ s => ∃ data' b t d,
      (Own M.G (files i) data data' ∧
        Buffered M.G data' (files i) spec { fp with buf := b, sect := t, FA_DIRTY := d } ∧
        (fp.fptr % 512 ≠ 0 → t = M.G.sectorOf (files i) fp.fptr)) ∧
      M.Holding files other data' { fp with buf := b, sect := t, FA_DIRTY := d } s := by
  refine Tries.bind fil_at fun fp' => Tries.assume ?_
  rintro rfl
  refine Tries.ite (fun hneed => ?_) fun hstay => Tries.ret fun s hs => ?_
  · obtain ⟨hne, -⟩ := hneed
    have hbcs : M.G.bcs = 512 * M.G.csize := Nat.mul_comm _ _
    have hmul : (files i).length * M.G.bcs = 512 * (M.G.csize * (files i).length) := by
      rw [hbcs, Nat.mul_left_comm, Nat.mul_comm (files i).length]
    obtain ⟨c, hc, -, hin⟩ := M.G.sectorOf_mem (l := files i) (o := fp'.fptr) (by omega)
    rw [← hsector hne] at hin
    obtain ⟨hflush, hown⟩ := flushed_spec hb
    have hwithin := hl.within (n := 1) hc hin.1 hin.2
    have hlt := hl.sect_lt hc hin.1 hin.2 Nat.one_pos
    refine Tries.bind (flush_at hM (hl.dirty hb)) fun _ => Tries.bind (fill_at hM hwithin) fun _ =>
      Tries.post (setFil_at _) fun _ s hs => ?_
    exact ⟨_, _, nsect, _, ⟨hown, hflush.load rfl (by omega), hsector⟩, hs⟩
  · refine ⟨data, fp'.buf, fp'.sect, fp'.FA_DIRTY, ⟨Own.rfl, hb, fun hne => ?_⟩, hs⟩
    by_contra hsect
    exact hstay ⟨hne, fun heq => hsect (heq.symm.trans (hsector hne))⟩

theorem extend_eq (fp : FIL) : f_lseek.extend fp = { fp with
    objsize := max fp.fptr fp.objsize, FA_MODIFIED := (f_lseek.extend fp).FA_MODIFIED } ∧
    (fp.objsize < fp.fptr ∨ fp.FA_MODIFIED = true → (f_lseek.extend fp).FA_MODIFIED = true) := by
  unfold f_lseek.extend
  by_cases h : fp.objsize < fp.fptr
  · rw [if_pos h, Nat.max_eq_left (Nat.le_of_lt h)]
    exact ⟨rfl, fun _ => rfl⟩
  · rw [if_neg h, Nat.max_eq_right (Nat.not_lt.mp h)]
    exact ⟨rfl, fun hm => hm.resolve_left h⟩

omit [DecidableEq ι] in
/-- Only a file that is written to is followed past its end. -/
theorem target_reachable (hsized : Sized M.G (files i) spec fp) (ofs : Nat) :
    M.Reachable files i { fp with fptr := 0 } (FIL.target fp ofs) := by
  have hfits := hsized.fits
  by_cases hw : fp.FA_WRITE = true
  · exact .inl hw
  · refine .inr (Nat.le_trans ?_ hfits)
    unfold FIL.target
    by_cases hlt : fp.objsize < ofs
    · rw [if_pos ⟨hlt, hw⟩]
    · rw [if_neg fun hand => hlt hand.1]
      omega

omit [DecidableEq ι] in
theorem Landed.fptr_le {files' : ι → List Nat} {fp' : FIL} {q x : Nat}
    (h : M.Landed files other i fp q x files' fp') : fp'.fptr ≤ (files' i).length * M.G.bcs := by
  obtain hzero | hpos := Nat.eq_zero_or_pos fp'.fptr
  · omega
  · obtain ⟨hk, -⟩ := List.getElem?_eq_some_iff.mp (h.clust hpos)
    have hlt := (Nat.div_lt_iff_lt_mul M.G.bcs_pos).mp hk
    omega

omit [DecidableEq ι] in
/-- The size is extended to the pointer. -/
theorem Landed.seeked {files' : ι → List Nat} {fp₁ : FIL} {data' : Nat → Block} {q x t : Nat} {b : Block} {d : Bool}
    (hland : M.Landed files other i { fp with fptr := 0 } q x files' fp₁) (hq : q < 4294967296)
    (hsized : Sized M.G (files i) spec fp) (hown : Own M.G (files' i) data data')
    (hb : Buffered M.G data' (files' i) spec { f_lseek.extend fp₁ with buf := b, sect := t, FA_DIRTY := d })
    (hsect : fp₁.fptr % 512 ≠ 0 → t = M.G.sectorOf (files' i) fp₁.fptr) :
    M.Seeked files other spec i data fp q files' data'
      { f_lseek.extend fp₁ with buf := b, sect := t, FA_DIRTY := d } := by
  obtain ⟨hextend, hmodified⟩ := extend_eq fp₁
  have hfits := hsized.fits
  have hsize := hsized.size_lt
  have hsize₁ : fp₁.objsize = fp.objsize := by rw [hland.same]
  have hmod₁ : fp₁.FA_MODIFIED = fp.FA_MODIFIED := by rw [hland.same]
  have hfptr₁ := hland.fptr_le
  have hlen : (files i).length * M.G.bcs ≤ (files' i).length * M.G.bcs := by
    obtain ⟨l, hl⟩ := hland.extended.own
    rw [hl, List.length_append]
    exact Nat.mul_le_mul_right _ (Nat.le_add_right _ _)
  have hlt₁ : fp₁.fptr < 4294967296 := by
    by_cases hne : fp₁.fptr = q
    · omega
    · have hthere := (hland.there hne).1
      omega
  have hfptr₂ : (f_lseek.extend fp₁).fptr = fp₁.fptr := by rw [hextend]
  have hsize₂ : (f_lseek.extend fp₁).objsize = max fp₁.fptr fp.objsize := by rw [hextend, hsize₁]
  refine ⟨?_, fun hm => hmodified ?_, fun hne => ?_, hland.extended, hown, ⟨?_, hb, ?_⟩⟩
  · show ({ f_lseek.extend fp₁ with buf := b, sect := t, FA_DIRTY := d } : FIL) = _
    rw [hfptr₂, hextend, hsize₁, hland.same]
  · rw [hsize₁, hmod₁]
    refine hm.imp (fun hlt => ?_) id
    have hlt' : fp.objsize < (f_lseek.extend fp₁).objsize := hlt
    rw [hsize₂] at hlt'
    omega
  · have hne' : fp₁.fptr ≠ q := fun heq => hne (hfptr₂.trans heq)
    obtain ⟨hlt, hfull⟩ := hland.there hne'
    exact ⟨by show (f_lseek.extend fp₁).fptr < _; omega,
      by show _ ≤ (f_lseek.extend fp₁).fptr; omega, hfull.2⟩
  · refine ⟨?_, fun o x ho => ?_, ?_, ?_⟩
    · show (f_lseek.extend fp₁).sclust = _
      rw [hextend]
      exact hland.start
    · show o < (f_lseek.extend fp₁).objsize
      have hbelow := hsized.below o x ho
      omega
    · show (f_lseek.extend fp₁).objsize ≤ _
      omega
    · show (f_lseek.extend fp₁).objsize < _
      omega
  · refine ⟨?_, fun hpos => ?_, fun hne => ?_⟩
    · show (f_lseek.extend fp₁).fptr ≤ (f_lseek.extend fp₁).objsize
      omega
    · show (files' i)[((f_lseek.extend fp₁).fptr - 1) / M.G.bcs]? = some (f_lseek.extend fp₁).clust
      have hpos' : 0 < fp₁.fptr := hfptr₂ ▸ hpos
      rw [hfptr₂, hland.clust hpos', hextend]
    · show t = M.G.sectorOf (files' i) (f_lseek.extend fp₁).fptr
      have hne' : fp₁.fptr % 512 ≠ 0 := hfptr₂ ▸ hne
      rw [hfptr₂]
      exact hsect hne'

include hM in
theorem f_lseek.seek_at {ofs : Nat} (hl : M.Mine other (files i)) (hsound : Sound M.G data (files i) spec fp)
    (hofs : ofs < 4294967296) :
    Acts (M.Holding files other data fp) (f_lseek.seek M.G M.D ofs) fun _ s => ∃ files' data' fp',
      M.Seeked files other spec i data fp (FIL.target fp ofs) files' data' fp' ∧
        M.Holding files' other data' fp' s := by
  obtain ⟨hsized, hb, hplaced⟩ := hsound
  have hsize := hsized.size_lt
  have hle := hplaced.fptr_le
  have htarget : FIL.target fp ofs < 4294967296 := by
    unfold FIL.target
    split <;> omega
  have hb' : Buffered M.G data (files i) spec { fp with fptr := 0 } := ⟨hb.kept, hb.held, hb.dirty, hb.sect_lt⟩
  have hsized' : Sized M.G (files i) spec { fp with fptr := 0 } :=
    ⟨hsized.start, hsized.below, hsized.fits, hsized.size_lt⟩
  refine Tries.bind fil_at fun fp₀ => Tries.assume ?_
  rintro rfl
  have hmove : Acts (M.Holding files other data { fp₀ with fptr := 0 })
      (f_lseek.move M.G M.D (FIL.target fp₀ ofs) fp₀.fptr) fun x s => ∃ files' fp',
        M.Landed files other i { fp₀ with fptr := 0 } (FIL.target fp₀ ofs) x files' fp' ∧
          M.Holding files' other data fp' s :=
    f_lseek.move_at hM hsized.start hl hplaced.clust rfl (by omega) (target_reachable hsized ofs)
  refine Tries.bind (setFil_at _) fun _ => Tries.bind hmove fun nsect => Tries.named ?_
  rintro s ⟨files', fp₁, hland, hs⟩
  have hmine := hs.fs.mine i
  obtain ⟨hextend, -⟩ := extend_eq fp₁
  have hfptr₂ : (f_lseek.extend fp₁).fptr = fp₁.fptr := by rw [hextend]
  have hb₁ : Buffered M.G data (files' i) spec fp₁ := by
    have hb'' := hland.extended.buffered hsized' hb'
    rw [hland.same]
    exact ⟨hb''.kept, hb''.held, hb''.dirty, hb''.sect_lt⟩
  have hb₂ : Buffered M.G data (files' i) spec (f_lseek.extend fp₁) := by
    rw [hextend]
    exact ⟨hb₁.kept, hb₁.held, hb₁.dirty, hb₁.sect_lt⟩
  refine Tries.pre (Tries.bind (setFil_at _) fun _ => Tries.post (f_lseek.buffer_at hM hmine hb₂
    (by rw [hfptr₂]; exact hland.fptr_le) (by rw [hfptr₂]; exact hland.sector)) ?_) fun s' heq => heq ▸ hs
  rintro _ s' ⟨data', b, t, d, ⟨hown, hb₃, hsect⟩, hs'⟩
  rw [hfptr₂] at hsect
  exact ⟨files', data', _, hland.seeked htarget hsized hown hb₃ hsect, hs'⟩

include hM in
/-- **`f_lseek`** sets the pointer, unless the volume is full, and keeps the contents. -/
theorem f_lseek_at {ofs : Nat} (hl : M.Mine other (files i)) (hsound : Sound M.G data (files i) spec fp)
    (herr : fp.err = .FR_OK) (hofs : ofs < 4294967296) :
    Triple (M.Holding files other data fp) (f_lseek M.G M.D ofs) fun r s => ∃ files' data' fp',
      r = some .FR_OK ∧ M.Seeked files other spec i data fp (FIL.target fp ofs) files' data' fp' ∧
        M.Holding files' other data' fp' s := by
  refine Triple.get_bind fun s hs => ?_
  rw [hs.fp]
  refine Triple.ite (fun hne => absurd herr hne) fun _ => ?_
  refine Triple.pre (Tries.handle (f_lseek.seek_at hM hl hsound hofs) (fun _ => Triple.ret ?_)
    fun e s' hs' => absurd hs' id) fun s' heq => heq ▸ hs
  rintro s' ⟨files', data', fp', hseeked, hs'⟩
  exact ⟨files', data', fp', rfl, hseeked, hs'⟩

end Following

end Mounted

end Miso.Fat

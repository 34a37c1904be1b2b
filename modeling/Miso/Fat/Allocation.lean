import Miso.Fat.Table
import Miso.Fat.Chains

/-!
# Allocating clusters

* `Mounted` — a volume on a disk that keeps what is written to it, and may fail;
* `Chained` — its files, as the table has them: they are apart, whatever has failed; on a disk that
  does not fail no cluster gets lost, and the number of free clusters is right;
* `remove_chain_at` — `remove_chain` frees the end of a file;
* `create_chain_at` — `create_chain` adds a cluster to a file that no other file has.
-/

namespace Miso.Fat

open Sd Zig

/-- **A volume on a disk**, of which calls may fail if `faulty`.  An entry of 12 bits may lie in two
sectors; those are not written both when the disk fails in between. -/
structure Mounted (δ : Type) where
  G : Geometry
  D : Disk δ
  W : Nat → Prop
  faulty : Prop
  Has : (Nat → Block) → δ → Prop
  keeps : D.Keeps G.capacity faulty Has
  windowed : G.Windowed W
  whole : G.fs_type = .FS_FAT12 → ¬faulty

namespace FsType

theorem limit_lt (t : FsType) : t.limit < t.modulus := by cases t <;> decide

theorem modulus_le (t : FsType) : t.modulus ≤ 268435456 := by cases t <;> decide

/-- The mark of the last cluster. -/
theorem eoc (t : FsType) : 0xFFFFFFFF % t.modulus = t.modulus - 1 := by cases t <;> decide

end FsType

namespace Mounted

variable {δ : Type} (M : Mounted δ)

/-- **What the volume holds**: the table `T`, the other sectors, and the hints. -/
def Holds (T : Nat → Nat) (data : Nat → Block) (h : Hints) (fs : FATFS δ) : Prop :=
  ∃ v, Cached M.G M.W M.faulty M.Has v h fs ∧
    (∀ c, 2 ≤ c → c < M.G.n_fatent → M.G.fs_type.entry (M.G.bytes v) c = T c) ∧
    ∀ i, M.G.Core i → ¬M.G.First i → v i = data i

variable {M} {T : Nat → Nat} {data : Nat → Block} {h : Hints} {c : Nat}

theorem Holds.lt {fs : FATFS δ} (hfs : M.Holds T data h fs) (hlow : 2 ≤ c) (hhigh : c < M.G.n_fatent) :
    T c < 268435456 := by
  obtain ⟨v, -, hT, -⟩ := hfs
  rw [← hT c hlow hhigh]
  exact Nat.lt_of_lt_of_le (FsType.entry_lt _) M.G.fs_type.modulus_le

theorem Holds.free_clst {fs : FATFS δ} (hfs : M.Holds T data h fs) : h.free_clst = fs.free_clst := by
  obtain ⟨v, ⟨rfl, -⟩, -⟩ := hfs
  rfl

/-- The number of free clusters has changed. -/
theorem Holds.hinted {fs : FATFS δ} (hfs : M.Holds T data h fs) (last free : Nat)
    (hfree : fs.free_clst < 4294967296 → free < 4294967296) :
    M.Holds T data ⟨last, free, fs.fsi_flag ||| 1⟩
      { fs with last_clst := last, free_clst := free, fsi_flag := fs.fsi_flag ||| 1 } := by
  obtain ⟨v, ⟨rfl, blocks, hhas, hb⟩, hT, hdata⟩ := hfs
  refine ⟨v, ⟨rfl, blocks, hhas, hb.dirty, hb.win, hb.clean, hb.mirrored, fun hf hi => ?_⟩, hT, hdata⟩
  have ht := hb.told hf hi
  exact ht.changed last (hfree ht.lt)

theorem get_at (hlow : 2 ≤ c) (hhigh : c < M.G.n_fatent) :
    Triple (M.Holds T data h) (get_fat M.G M.D c) fun x fs =>
      (x = T c ∨ M.faulty ∧ x = 0xFFFFFFFF) ∧ M.Holds T data h fs := by
  rintro fs ⟨v, hfs, hv⟩
  obtain ⟨hfs', hx⟩ := get_fat_at M.keeps M.windowed hlow hhigh fs hfs
  refine ⟨hx.imp_left fun heq => ?_, v, hfs', hv⟩
  rw [heq]
  exact hv.1 c hlow hhigh

theorem put_at (val : Nat) (hlow : 2 ≤ c) (hhigh : c < M.G.n_fatent) :
    Triple (M.Holds T data h) (put_fat M.G M.D c val) fun r fs =>
      (r = .FR_OK ∧ M.Holds (Function.update T c (val % M.G.fs_type.modulus)) data h fs) ∨
        Failed M.faulty r ∧ M.Holds T data h fs := by
  rintro fs ⟨v, hfs, hv⟩
  obtain ⟨hok, v', hputs, hfs'⟩ | ⟨hfail, hfs'⟩ :=
    put_fat_at M.keeps M.windowed hlow hhigh fs hfs
  · refine .inl ⟨hok, v', hfs', fun d hd hdn => ?_, fun i hi hfirst => ?_⟩
    · rw [hputs.bytes]
      by_cases hdc : d = c
      · rw [hdc, Function.update_self, FsType.entry_puts]
      · rw [Function.update_of_ne hdc, FsType.entry_puts_of_ne _ hdc]
        exact hv.1 d hd hdn
    · rw [hputs.frame i hfirst]
      exact hv.2 i hi hfirst
  · exact .inr ⟨hfail, v, hfs' fun htype => M.whole htype hfail.faulty, hv⟩

theorem eoc_le : M.G.n_fatent ≤ 0xFFFFFFFF % M.G.fs_type.modulus ∧
    0xFFFFFFFF % M.G.fs_type.modulus ≠ 1 := by
  have hlimit := M.G.le_limit
  have hlt := M.G.fs_type.limit_lt
  have hthree := M.G.three_le
  rw [FsType.eoc]
  omega

section Removing

variable {ι : Type} {files : ι → List Nat} {other : Nat → Prop}

/-- The table has the files, the `other` clusters, and the clusters `l`, which are about to be freed. -/
structure Booked (M : Mounted δ) (T : Nat → Nat) (h : Hints) (files : ι → List Nat) (other : Nat → Prop)
    (l : List Nat) : Prop where
  chains : Chains M.G.n_fatent T files
  loose : Loose M.G.n_fatent T files l
  spares : Spares T files other
  apart : ∀ d ∈ l, ¬other d
  accounts : ¬M.faulty → Accounts M.G.n_fatent T files fun d => other d ∨ d ∈ l
  counted : ¬M.faulty → Counted M.G.n_fatent T h.free_clst

/-- The files of the volume, while the clusters `l` are being freed. -/
def Freeing (M : Mounted δ) (files : ι → List Nat) (other : Nat → Prop) (data : Nat → Block)
    (l : List Nat) (fs : FATFS δ) : Prop := ∃ T h, M.Holds T data h fs ∧ M.Booked T h files other l

/-- **The files of the volume.** -/
def Chained (M : Mounted δ) (files : ι → List Nat) (other : Nat → Prop) (data : Nat → Block)
    (fs : FATFS δ) : Prop := M.Freeing files other data [] fs

/-- What has not been freed is lost, if the disk has failed. -/
theorem Booked.failed {l : List Nat} (hb : M.Booked T h files other l) (hf : M.faulty) :
    M.Booked T h files other [] :=
  ⟨hb.chains, ⟨by simp, rfl, List.nodup_nil, by simp⟩, hb.spares, by simp,
    fun hnf => absurd hf hnf, fun hnf => absurd hf hnf⟩

theorem count_at (hlow : 2 ≤ c) (hhigh : c < M.G.n_fatent) (hc : T c ≠ 0) :
    Triple (M.Holds (Function.update T c 0) data h) (remove_chain.count M.G) fun _ fs =>
      ∃ h', M.Holds (Function.update T c 0) data h' fs ∧ (Counted M.G.n_fatent T h.free_clst →
        Counted M.G.n_fatent (Function.update T c 0) h'.free_clst) := by
  intro fs hfs
  obtain ⟨v, ⟨rfl, -⟩, -⟩ := id hfs
  show ∃ h', M.Holds (Function.update T c 0) data h' (if fs.free_clst < M.G.n_fatent - 2 then
    { fs with free_clst := fs.free_clst + 1, fsi_flag := fs.fsi_flag ||| 1 } else fs) ∧ _
  by_cases hlt : fs.free_clst < M.G.n_fatent - 2
  · rw [if_pos hlt]
    have hlimit := M.G.le_limit
    have hmost := Nat.lt_of_lt_of_le M.G.fs_type.limit_lt M.G.fs_type.modulus_le
    exact ⟨_, hfs.hinted fs.last_clst (fs.free_clst + 1) fun _ => by omega,
      fun hcount => hcount.free hlow hhigh hc hlt⟩
  · rw [if_neg hlt]
    refine ⟨_, hfs, fun hcount hle => ?_⟩
    exact absurd (hcount.unknown hlow hhigh hc (Nat.not_lt.mp hlt)) (Nat.not_lt.mpr hle)

/-- What `remove_chain` returns. -/
def Removed (M : Mounted δ) (r : Option FRESULT) : Prop :=
  r = some .FR_OK ∨ M.faulty ∧ r = some .FR_DISK_ERR

/-- **The loop of `remove_chain`** frees a chain. -/
theorem loop_at {l : List Nat} {fuel : Nat} (hfuel : l.length < fuel) :
    Triple (M.Freeing files other data (c :: l)) (remove_chain.loop M.G M.D fuel c) fun r fs =>
      M.Removed r ∧ M.Chained files other data fs := by
  induction fuel generalizing c l with
  | zero => exact absurd hfuel (Nat.not_lt_zero _)
  | succ fuel ih =>
    rintro fs ⟨T, h, hT, hb⟩
    have hloose := hb.loose
    obtain ⟨hlow, hhigh⟩ := hloose.range c List.mem_cons_self
    have hc : 2 ≤ T c := by
      have hthree := M.G.three_le
      obtain ⟨-, hlast⟩ | ⟨b, l', rfl, hb⟩ := hloose.entry
      · omega
      · have hrange := hloose.range b (by simp)
        omega
    have hback : ∀ fs, M.faulty → M.Holds T data h fs → M.Chained files other data fs :=
      fun fs hf hT => ⟨T, h, hT, hb.failed hf⟩
    have hfree : ∀ fs, (∃ h', M.Holds (Function.update T c 0) data h' fs ∧
        (Counted M.G.n_fatent T h.free_clst →
          Counted M.G.n_fatent (Function.update T c 0) h'.free_clst)) →
        M.Freeing files other data l fs := by
      rintro fs ⟨h', hT', hcount⟩
      exact ⟨_, h', hT', hb.chains.free (hloose.apart c List.mem_cons_self) (by decide), hloose.tail,
        hb.spares.update fun ho => absurd ho (hb.apart c List.mem_cons_self),
        fun d hd => hb.apart d (List.mem_cons_of_mem c hd), fun hnf => (hb.accounts hnf).free,
        fun hnf => hcount (hb.counted hnf)⟩
    have hstep : Triple (M.Holds T data h) (remove_chain.loop M.G M.D (fuel + 1) c) fun r fs =>
        M.Removed r ∧ M.Chained files other data fs := by
      refine Triple.bind (get_at hlow hhigh) fun nxt => Triple.assume fun hnxt => ?_
      obtain rfl | ⟨hf, rfl⟩ := hnxt
      · refine Triple.ite (fun h0 => absurd h0 (by omega)) fun _ =>
          Triple.ite (fun h1 => absurd h1 (by omega)) fun _ => Triple.ite (fun hbad => ?_) fun _ => ?_
        · intro fs hT
          have hlt := hT.lt hlow hhigh
          omega
        · refine Triple.bind (put_at 0 hlow hhigh) fun res => Triple.ite (fun hne => ?_) fun hok => ?_
          · rintro fs (⟨hok, -⟩ | ⟨hfail, hT⟩)
            · exact absurd hok hne
            · exact ⟨.inr ⟨hfail.faulty, congrArg some hfail.eq⟩, hback fs hfail.faulty hT⟩
          · have hput : ∀ fs, (res = .FR_OK ∧
                M.Holds (Function.update T c (0 % M.G.fs_type.modulus)) data h fs) ∨
                Failed M.faulty res ∧ M.Holds T data h fs → M.Holds (Function.update T c 0) data h fs := by
              rintro fs (⟨-, hT⟩ | ⟨hfail, -⟩)
              · rwa [Nat.zero_mod] at hT
              · exact absurd (hfail.eq ▸ hok) (by decide)
            refine Triple.bind ((count_at hlow hhigh (by omega)).pre hput) fun _ => Triple.pre ?_ hfree
            obtain ⟨rfl, hend⟩ | ⟨b, l', rfl, hnext⟩ := hloose.entry
            · rw [if_neg (Nat.not_lt.mpr hend)]
              exact Triple.ret fun fs hfs => ⟨.inl rfl, hfs⟩
            · rw [if_pos (by rw [hnext]; exact (hloose.range b (by simp)).2), hnext]
              exact ih (Nat.lt_of_succ_lt_succ hfuel)
      · rw [if_neg (by decide), if_neg (by decide), if_pos rfl]
        exact Triple.ret fun fs hT => ⟨.inr ⟨hf, rfl⟩, hback fs hf hT⟩
    exact hstep fs hT

/-- A chain is no longer than the table. -/
theorem length_le {l : List Nat} {n : Nat} (hnd : l.Nodup) (hrange : ∀ c ∈ l, 2 ≤ c ∧ c < n) :
    l.length ≤ n - 2 := by
  have hsub : l.toFinset ⊆ Finset.Ico 2 n := fun c hc =>
    Finset.mem_Ico.mpr (hrange c (List.mem_toFinset.mp hc))
  have hcard := Finset.card_le_card hsub
  rwa [List.toFinset_card_of_nodup hnd, Nat.card_Ico] at hcard

variable [DecidableEq ι]

/-- The end of a file is cut off behind the clusters `l₁`. -/
theorem cut_at {i : ι} {l₁ l₂ : List Nat} (hi : files i = l₁ ++ l₂) :
    Triple (M.Chained files other data) (remove_chain.cut M.G M.D (l₁.getLast?.getD 0)) fun r fs =>
      (r = .FR_OK ∧ M.Freeing (Function.update files i l₁) other data l₂ fs) ∨
        Failed M.faulty r ∧ M.Chained files other data fs := by
  rintro fs ⟨T, h, hT, hb⟩
  have hchains := hb.chains
  have hmem : ∀ d ∈ l₁ ++ l₂, ¬other d := fun d hd ho => hb.spares.apart d i ho (hi ▸ hd)
  have hsub₁ : ∀ d ∈ l₁, ¬other d := fun d hd => hmem d (List.mem_append_left _ hd)
  have hsub₂ : ∀ d ∈ l₂, ¬other d := fun d hd => hmem d (List.mem_append_right _ hd)
  have haccounts {T' : Nat → Nat} (hT : ∀ d, T' d = 0 ↔ T d = 0) : ¬M.faulty →
      Accounts M.G.n_fatent T' (Function.update files i l₁) fun d => other d ∨ d ∈ l₂ := fun hnf => by
    have hdrop := (hb.accounts hnf).drop hi hT
    simp only [List.not_mem_nil, or_false] at hdrop
    exact hdrop
  obtain rfl | ⟨l, a, rfl⟩ := List.eq_nil_or_concat l₁
  · obtain ⟨hclear, hloose⟩ := hchains.clear (i := i)
    rw [show files i = l₂ from hi] at hloose
    exact .inl ⟨rfl, T, h, hT, hclear, hloose, hb.spares.replace hsub₁, hsub₂,
      haccounts fun _ => Iff.rfl, hb.counted⟩
  · rw [List.concat_eq_append] at hi hsub₁ haccounts ⊢
    obtain ⟨hlow, hhigh⟩ := hchains.range i a (by simp [hi])
    have ha : T a ≠ 0 := by
      have htwo := hchains.two_le (c := a) (i := i) (by simp [hi])
      omega
    have heoc := M.eoc_le
    have hthree := M.G.three_le
    rw [List.getLast?_concat, Option.getD_some]
    have hput : remove_chain.cut M.G M.D a = put_fat M.G M.D a 0xFFFFFFFF := if_pos (by omega)
    rw [hput]
    obtain ⟨hok, hT'⟩ | ⟨hfail, hT'⟩ := put_at 0xFFFFFFFF hlow hhigh fs hT
    · obtain ⟨hcut, hloose⟩ := hchains.cut (by rw [hi, List.append_assoc]; rfl) heoc.1 heoc.2
      refine .inl ⟨hok, _, h, hT', hcut, hloose, (hb.spares.update fun _ => by omega).replace hsub₁,
        hsub₂, haccounts fun d => ?_, fun hnf hle => ?_⟩
      · by_cases hda : d = a
        · rw [hda, Function.update_self]
          omega
        · rw [Function.update_of_ne hda]
      · rw [freeSet_link ha (by omega)]
        exact hb.counted hnf hle
    · exact .inr ⟨hfail, T, h, hT', hb⟩

/-- **`remove_chain` frees the end of a file**, behind the clusters `l₁`.  If the disk fails, the file
keeps its end, or has lost it. -/
theorem remove_chain_at {i : ι} {l₁ l₂ : List Nat} {b : Nat} (hi : files i = l₁ ++ b :: l₂) :
    Triple (M.Chained files other data) (remove_chain M.G M.D b (l₁.getLast?.getD 0)) fun r fs =>
      M.Removed r ∧ (M.Chained (Function.update files i l₁) other data fs ∨
        M.faulty ∧ r = some .FR_DISK_ERR ∧ M.Chained files other data fs) := by
  rintro fs ⟨T, h, hT, hbooks⟩
  have hb := hbooks.chains.range i b (by simp [hi])
  have hlen : l₂.length + 1 ≤ M.G.n_fatent - 2 := by
    have hle := length_le (hbooks.chains.nodup i) (hbooks.chains.range i)
    rw [hi, List.length_append, List.length_cons] at hle
    omega
  have hrun : Triple (M.Chained files other data) (remove_chain M.G M.D b (l₁.getLast?.getD 0)) fun r fs =>
      M.Removed r ∧ (M.Chained (Function.update files i l₁) other data fs ∨
        M.faulty ∧ r = some .FR_DISK_ERR ∧ M.Chained files other data fs) := by
    unfold remove_chain
    rw [if_neg (by omega)]
    refine Triple.bind (cut_at hi) fun res => Triple.ite (fun hne => ?_) fun hok => ?_
    · rintro fs (⟨hok, -⟩ | ⟨hfail, hfs⟩)
      · exact absurd hok hne
      · have hr := congrArg some hfail.eq
        exact ⟨.inr ⟨hfail.faulty, hr⟩, .inr ⟨hfail.faulty, hr, hfs⟩⟩
    · refine ((loop_at (l := l₂) (by omega)).post fun r fs hr => ⟨hr.1, .inl hr.2⟩).pre ?_
      rintro fs (⟨-, hfs⟩ | ⟨hfail, -⟩)
      · exact hfs
      · exact absurd (hfail.eq ▸ hok) (by decide)
  exact hrun fs ⟨T, h, hT, hbooks⟩

end Removing

section Searching

/-- What the search finds. -/
def Sought (M : Mounted δ) (T : Nat → Nat) (x : Option Found) : Prop :=
  (∃ c, x = some (.free c) ∧ (2 ≤ c ∧ c < M.G.n_fatent) ∧ T c = 0) ∨
    (x = some (.code 0) ∧ ∀ c, 2 ≤ c → c < M.G.n_fatent → T c ≠ 0) ∨
      M.faulty ∧ x = some (.code 0xFFFFFFFF)

variable (hsane : ∀ c, 2 ≤ c → c < M.G.n_fatent → T c ≠ 1)

include hsane in
theorem look_at {scl ncl : Nat} {m : StateM (FATFS δ) (Option Found)} (hlow : 2 ≤ ncl)
    (hhigh : ncl < M.G.n_fatent)
    (hlast : T ncl ≠ 0 → ncl = scl → ∀ c, 2 ≤ c → c < M.G.n_fatent → T c ≠ 0)
    (hm : T ncl ≠ 0 → ncl ≠ scl → Triple (M.Holds T data h) m fun x fs =>
      M.Sought T x ∧ M.Holds T data h fs) :
    Triple (M.Holds T data h) (create_chain.look M.G M.D scl ncl m) fun x fs =>
      M.Sought T x ∧ M.Holds T data h fs := by
  refine Triple.bind (get_at hlow hhigh) fun cs => Triple.assume fun hcs => ?_
  obtain rfl | ⟨hf, rfl⟩ := hcs
  · refine Triple.ite (fun h0 => ?_) fun h0 => Triple.ite (fun hbad => ?_) fun _ =>
      Triple.ite (fun hend => ?_) fun hend => hm h0 hend
    · exact Triple.ret fun fs hT => ⟨.inl ⟨ncl, rfl, ⟨hlow, hhigh⟩, h0⟩, hT⟩
    · intro fs hT
      have hlt := hT.lt hlow hhigh
      have hone := hsane ncl hlow hhigh
      omega
    · exact Triple.ret fun fs hT => ⟨.inr (.inl ⟨rfl, hlast h0 hend⟩), hT⟩
  · rw [if_neg (by decide), if_pos (.inr rfl)]
    exact Triple.ret fun fs hT => ⟨.inr (.inr ⟨hf, rfl⟩), hT⟩

include hsane in
/-- The search below `scl`. -/
theorem search_low {scl ncl fuel : Nat} (hlow : 2 ≤ ncl) (hlt : ncl < scl) (hscl : scl < M.G.n_fatent)
    (hfuel : scl ≤ ncl + fuel)
    (hseen : ∀ c, 2 ≤ c → c < M.G.n_fatent → c ≤ ncl ∨ scl < c → T c ≠ 0) :
    Triple (M.Holds T data h) (create_chain.search M.G M.D scl fuel ncl) fun x fs =>
      M.Sought T x ∧ M.Holds T data h fs := by
  induction fuel generalizing ncl with
  | zero => omega
  | succ fuel ih =>
    have hseen' : T (ncl + 1) ≠ 0 → ∀ c, 2 ≤ c → c < M.G.n_fatent → c ≤ ncl + 1 ∨ scl < c → T c ≠ 0 := by
      intro hne c hc hcn hcase
      by_cases heq : c = ncl + 1
      · rw [heq]
        exact hne
      · exact hseen c hc hcn (by omega)
    unfold create_chain.search
    rw [if_neg (by omega)]
    refine look_at hsane (by omega) (by omega) (fun hne hend c hc hcn => ?_) fun hne hend => ?_
    · exact hseen' hne c hc hcn (by omega)
    · exact ih (by omega) (by omega) (by omega) (hseen' hne)

include hsane in
/-- The search above `scl`, and then below it. -/
theorem search_high {scl ncl fuel : Nat} (hpos : 1 ≤ scl) (hle : scl ≤ ncl) (hhigh : ncl < M.G.n_fatent)
    (hfuel : M.G.n_fatent - 1 - ncl + scl ≤ fuel) (hseen : ∀ c, scl < c → c ≤ ncl → T c ≠ 0) :
    Triple (M.Holds T data h) (create_chain.search M.G M.D scl fuel ncl) fun x fs =>
      M.Sought T x ∧ M.Holds T data h fs := by
  have hthree := M.G.three_le
  induction fuel generalizing ncl with
  | zero => omega
  | succ fuel ih =>
    unfold create_chain.search
    refine Triple.ite (fun hwrap => Triple.ite (fun hone => ?_) fun htwo => ?_) fun hnext => ?_
    · exact Triple.ret fun fs hT =>
        ⟨.inr (.inl ⟨rfl, fun c hc hcn => hseen c (by omega) (by omega)⟩), hT⟩
    · refine look_at hsane (Nat.le_refl 2) (by omega) (fun hne hend c hc hcn => ?_) fun hne hend => ?_
      · by_cases heq : c = 2
        · rw [heq]
          exact hne
        · exact hseen c (by omega) (by omega)
      · refine search_low hsane (Nat.le_refl 2) (by omega) (by omega) (by omega) fun c hc hcn hcase => ?_
        by_cases heq : c = 2
        · rw [heq]
          exact hne
        · exact hseen c (by omega) (by omega)
    · refine look_at hsane (by omega) (by omega) (fun _ hend => absurd hend (by omega)) fun hne _ => ?_
      refine ih (by omega) (by omega) (by omega) fun c hc hcn => ?_
      by_cases heq : c = ncl + 1
      · rw [heq]
        exact hne
      · exact hseen c hc (by omega)

include hsane in
/-- **The search** passes no free cluster. -/
theorem search_at {scl : Nat} (hpos : 1 ≤ scl) (hhigh : scl < M.G.n_fatent) :
    Triple (M.Holds T data h) (create_chain.search M.G M.D scl M.G.n_fatent scl) fun x fs =>
      M.Sought T x ∧ M.Holds T data h fs :=
  search_high hsane hpos (Nat.le_refl scl) hhigh (by omega) fun c hlt hle => absurd hlt (by omega)

include hsane in
theorem behind_at {scl : Nat} (hlow : 2 ≤ scl) (hhigh : scl < M.G.n_fatent) :
    Triple (M.Holds T data h) (create_chain.behind M.G M.D scl) fun x fs =>
      M.Sought T x ∧ M.Holds T data h fs := by
  have hthree := M.G.three_le
  obtain ⟨ncl, hncl, hnlow, hnhigh⟩ : ∃ ncl, (if M.G.n_fatent ≤ scl + 1 then 2 else scl + 1) = ncl ∧
      2 ≤ ncl ∧ ncl < M.G.n_fatent := by
    by_cases hwrap : M.G.n_fatent ≤ scl + 1
    · exact ⟨2, if_pos hwrap, Nat.le_refl 2, by omega⟩
    · exact ⟨scl + 1, if_neg hwrap, by omega, by omega⟩
  unfold create_chain.behind
  rw [hncl]
  refine Triple.bind (get_at hnlow hnhigh) fun cs => Triple.assume fun hcs => ?_
  obtain rfl | ⟨hf, rfl⟩ := hcs
  · refine Triple.ite (fun hbad => ?_) fun _ => Triple.ite (fun h0 => ?_) fun h0 => ?_
    · intro fs hT
      have hlt := hT.lt hnlow hnhigh
      have hone := hsane ncl hnlow hnhigh
      omega
    · exact Triple.ret fun fs hT => ⟨.inl ⟨ncl, rfl, ⟨hnlow, hnhigh⟩, h0⟩, hT⟩
    · refine Triple.get_bind fun fs hT => ?_
      refine (search_at hsane ?_ ?_).pre fun fs' heq => heq ▸ hT
      · split <;> omega
      · split <;> omega
  · rw [if_pos (.inr rfl)]
    exact Triple.ret fun fs hT => ⟨.inr (.inr ⟨hf, rfl⟩), hT⟩

end Searching

section Creating

variable {ι : Type} {files : ι → List Nat} {other : Nat → Prop} {i : ι}

/-- Within a file, `create_chain` only follows it. -/
theorem create_chain_next {l₁ l₂ : List Nat} {a b : Nat} (hi : files i = l₁ ++ a :: b :: l₂) :
    Triple (M.Chained files other data) (create_chain M.G M.D a) fun x fs =>
      (x = some b ∨ M.faulty ∧ x = some 0xFFFFFFFF) ∧ M.Chained files other data fs := by
  rintro fs ⟨T, h, hT, hbooks⟩
  have ha := hbooks.chains.range i a (by simp [hi])
  have hb := hbooks.chains.range i b (by simp [hi])
  have hlink := hbooks.chains.link hi
  have hrun : Triple (M.Holds T data h) (create_chain M.G M.D a) fun x fs =>
      (x = some b ∨ M.faulty ∧ x = some 0xFFFFFFFF) ∧ M.Chained files other data fs := by
    unfold create_chain
    rw [if_neg (by omega)]
    refine Triple.bind (get_at ha.1 ha.2) fun cs => Triple.assume fun hcs => ?_
    rw [hlink] at hcs
    obtain rfl | ⟨hf, rfl⟩ := hcs
    · rw [if_neg (by omega)]
      refine Triple.ite (fun hbad => ?_) fun _ => ?_
      · intro fs' hT'
        have hlt := hT'.lt ha.1 ha.2
        omega
      · rw [if_pos hb.2]
        exact Triple.ret fun fs' hT' => ⟨.inl rfl, T, h, hT', hbooks⟩
    · rw [if_neg (by decide), if_pos rfl]
      exact Triple.ret fun fs' hT' => ⟨.inr ⟨hf, rfl⟩, T, h, hT', hbooks⟩
  exact hrun fs hT

/-- No cluster is free. -/
def Full (M : Mounted δ) (files : ι → List Nat) (other : Nat → Prop) : Prop :=
  ∀ c, 2 ≤ c → c < M.G.n_fatent → (∃ j, c ∈ files j) ∨ other c

theorem Booked.full (hb : M.Booked T h files other [])
    (hused : ¬M.faulty → ∀ c, 2 ≤ c → c < M.G.n_fatent → T c ≠ 0) : ¬M.faulty → M.Full files other := by
  intro hnf c hlow hhigh
  have hmem := hb.accounts hnf c hlow hhigh (hused hnf c hlow hhigh)
  simpa using hmem

theorem Booked.not_mem (hb : M.Booked T h files other []) (hc : T c = 0) : ∀ j, c ∉ files j := fun j hj => by
  have htwo := hb.chains.two_le hj
  omega

/-- A table with another cluster in use. -/
theorem Booked.spared {T' : Nat → Nat} (hb : M.Booked T h files other []) (hc : T c = 0)
    (hsame : ∀ d, d ≠ c → (T' d = 0 ↔ T d = 0)) : Spares T' files other := by
  refine ⟨fun d ho => ?_, hb.spares.apart⟩
  have hT := hb.spares.used d ho
  refine mt (hsame d ?_).mp hT
  rintro rfl
  exact hT hc

variable [DecidableEq ι]

/-- The free cluster `c` has been added to the file `i`. -/
structure Added (n : Nat) (T : Nat → Nat) (files : ι → List Nat) (i : ι) (c : Nat) (T' : Nat → Nat) :
    Prop where
  chains : Chains n T' (Function.update files i (files i ++ [c]))
  same : ∀ d, d ≠ c → (T' d = 0 ↔ T d = 0)
  free : freeSet n T' = (freeSet n T).erase c

/-- It may have been marked in vain. -/
structure Marked (n : Nat) (T : Nat → Nat) (files : ι → List Nat) (c : Nat) (T' : Nat → Nat) : Prop where
  chains : Chains n T' files
  same : ∀ d, d ≠ c → (T' d = 0 ↔ T d = 0)

theorem link_at (hb : M.Booked T h files other []) (hlow : 2 ≤ c) (hhigh : c < M.G.n_fatent)
    (hc : T c = 0) :
    Triple (M.Holds T data h) (create_chain.link M.G M.D ((files i).getLast?.getD 0) c) fun r fs =>
      (r = .FR_OK ∧ ∃ T', M.Holds T' data h fs ∧ Added M.G.n_fatent T files i c T') ∨
        Failed M.faulty r ∧ ∃ T', M.Holds T' data h fs ∧ Marked M.G.n_fatent T files c T' := by
  have hchains := hb.chains
  have heoc := M.eoc_le
  have hthree := M.G.three_le
  have hnone := hb.not_mem hc
  have hfree := hchains.free hnone heoc.2
  have hself : M.G.n_fatent ≤ Function.update T c (0xFFFFFFFF % M.G.fs_type.modulus) c := by
    rw [Function.update_self]
    exact heoc.1
  have hsame : ∀ d, d ≠ c → (Function.update T c (0xFFFFFFFF % M.G.fs_type.modulus) d = 0 ↔ T d = 0) :=
    fun d hd => by rw [Function.update_of_ne hd]
  refine Triple.bind (put_at 0xFFFFFFFF hlow hhigh) fun res => ?_
  obtain hnil | ⟨l, a, hi⟩ := List.eq_nil_or_concat (files i)
  · rw [hnil, show ([] : List Nat).getLast?.getD 0 = 0 from rfl, if_neg fun hand => hand.2 rfl]
    rintro fs (⟨hok, hT⟩ | ⟨hfail, hT⟩)
    · refine .inl ⟨hok, _, hT, ?_, hsame, freeSet_take (by omega)⟩
      rw [hnil]
      exact hfree.first hlow hhigh hnone hself
    · exact .inr ⟨hfail, T, hT, hchains, fun _ _ => Iff.rfl⟩
  · rw [List.concat_eq_append] at hi
    have ha := hchains.range i a (by simp [hi])
    have hne : a ≠ c := by
      rintro rfl
      exact hnone i (by simp [hi])
    have hT0 : T a ≠ 0 := by
      have htwo := hchains.two_le (i := i) (c := a) (by simp [hi])
      omega
    rw [hi, List.getLast?_concat, Option.getD_some]
    refine Triple.ite (fun hok => ?_) fun hbad => ?_
    · have hput : ∀ fs, (res = .FR_OK ∧ M.Holds (Function.update T c (0xFFFFFFFF % M.G.fs_type.modulus))
          data h fs) ∨ Failed M.faulty res ∧ M.Holds T data h fs →
          M.Holds (Function.update T c (0xFFFFFFFF % M.G.fs_type.modulus)) data h fs := by
        rintro fs (⟨-, hT⟩ | ⟨hfail, -⟩)
        · exact hT
        · exact absurd (hfail.eq ▸ hok.1) (by decide)
      refine ((put_at c ha.1 ha.2).pre hput).post ?_
      have hmod : c % M.G.fs_type.modulus = c :=
        Nat.mod_eq_of_lt (Nat.lt_trans (Nat.lt_of_lt_of_le hhigh M.G.le_limit) M.G.fs_type.limit_lt)
      rw [hmod]
      rintro r fs (⟨hok, hT⟩ | ⟨hfail, hT⟩)
      · refine .inl ⟨hok, _, hT, ?_, fun d hd => ?_, ?_⟩
        · rw [hi]
          exact hfree.push hi hlow hhigh hnone hself
        · by_cases hda : d = a
          · rw [hda, Function.update_self]
            omega
          · rw [Function.update_of_ne hda, hsame d hd]
        · rw [freeSet_link (by rwa [Function.update_of_ne hne]) (by omega), freeSet_take (by omega)]
      · exact .inr ⟨hfail, _, hT, hfree, hsame⟩
    · rintro fs (⟨hok, hT⟩ | ⟨hfail, hT⟩)
      · exact absurd ⟨hok, by omega⟩ hbad
      · exact .inr ⟨hfail, T, hT, hchains, fun _ _ => Iff.rfl⟩

/-- **What `create_chain` leaves**: another cluster for the file `i`, which nothing else has; a full
volume; or an error of the disk. -/
def Created (M : Mounted δ) (files : ι → List Nat) (other : Nat → Prop) (data : Nat → Block) (i : ι)
    (x : Option Nat) (fs : FATFS δ) : Prop :=
  (∃ c, x = some c ∧ (2 ≤ c ∧ c < M.G.n_fatent) ∧ ¬other c ∧ (∀ j, c ∉ files j) ∧
    M.Chained (Function.update files i (files i ++ [c])) other data fs) ∨
  (x = some 0 ∧ (¬M.faulty → M.Full files other) ∧ M.Chained files other data fs) ∨
  M.faulty ∧ x = some 0xFFFFFFFF ∧ M.Chained files other data fs

theorem take_at (hb : M.Booked T h files other []) (hfree : h.free_clst ≠ 0) (hlow : 2 ≤ c)
    (hhigh : c < M.G.n_fatent) (hc : T c = 0) :
    Triple (M.Holds T data h) (create_chain.take M.G M.D ((files i).getLast?.getD 0) c) fun x fs =>
      M.Created files other data i (some x) fs := by
  have hnone := hb.not_mem hc
  have hother : ¬other c := fun ho => hb.spares.used c ho hc
  refine Triple.bind (link_at (i := i) hb hlow hhigh hc) fun res =>
    Triple.ite (fun hne => ?_) fun hok => ?_
  · rintro fs (⟨hok, -⟩ | ⟨hfail, T', hT, hmark⟩)
    · exact absurd hok hne
    · exact .inr (.inr ⟨hfail.faulty, congrArg some (if_pos hfail.eq), T', h, hT, hmark.chains,
        ⟨by simp, rfl, List.nodup_nil, by simp⟩, hb.spared hc hmark.same, by simp,
        fun hnf => absurd hfail.faulty hnf, fun hnf => absurd hfail.faulty hnf⟩)
  · rintro fs (⟨-, T', hT, hadd⟩ | ⟨hfail, -⟩)
    · have hcount := hT.free_clst
      refine .inl ⟨c, rfl, ⟨hlow, hhigh⟩, hother, hnone, T', _,
        hT.hinted c (if fs.free_clst ≤ M.G.n_fatent - 2 then
          (fs.free_clst + 4294967295) % 4294967296 else fs.free_clst) fun hlt => ?_,
        hadd.chains, ⟨by simp, rfl, List.nodup_nil, by simp⟩,
        (hb.spared hc hadd.same).replace fun d hd => ?_, by simp,
        fun hnf => (hb.accounts hnf).add hadd.same, fun hnf hle => ?_⟩
      · split
        · exact Nat.mod_lt _ (by decide)
        · exact hlt
      · obtain hd | hd := List.mem_append.mp hd
        · exact fun ho => hb.spares.apart d i ho hd
        · rwa [List.mem_singleton.mp hd]
      · have hlimit := Nat.le_trans M.G.le_limit (Nat.le_of_lt M.G.fs_type.limit_lt)
        have hmodulus := M.G.fs_type.modulus_le
        have hbooked := hb.counted hnf
        rw [hcount] at hbooked hfree
        by_cases hknown : fs.free_clst ≤ M.G.n_fatent - 2
        · have heq := hbooked hknown
          show (if fs.free_clst ≤ M.G.n_fatent - 2 then (fs.free_clst + 4294967295) % 4294967296
            else fs.free_clst) = _
          rw [if_pos hknown, hadd.free, Finset.card_erase_of_mem (mem_freeSet.mpr ⟨⟨hlow, hhigh⟩, hc⟩), ← heq]
          omega
        · exact absurd hle (by
            show ¬(if fs.free_clst ≤ M.G.n_fatent - 2 then _ else fs.free_clst) ≤ M.G.n_fatent - 2
            rwa [if_neg hknown])
    · exact absurd (hfail.eq ▸ hok) (by decide)

theorem add_at {scl : Nat} (hb : M.Booked T h files other []) (hpos : 1 ≤ scl)
    (hhigh : scl < M.G.n_fatent) (hscl : scl = (files i).getLast?.getD 0 → 2 ≤ scl) :
    Triple (M.Holds T data h) (create_chain.add M.G M.D ((files i).getLast?.getD 0) scl)
      (M.Created files other data i) := by
  refine Triple.get_bind fun fs hT => Triple.ite (fun hzero => ?_) fun hfree => ?_
  · rintro _ rfl
    refine .inr (.inl ⟨rfl, hb.full fun hnf c hlow hhigh hc => ?_, T, h, hT, hb⟩)
    have hcard := hb.counted hnf
    rw [hT.free_clst.trans hzero] at hcard
    have hmem := mem_freeSet.mpr ⟨⟨hlow, hhigh⟩, hc⟩
    exact absurd (Finset.card_eq_zero.mp (hcard (Nat.zero_le _)).symm) (Finset.ne_empty_of_mem hmem)
  · have hfree' : h.free_clst ≠ 0 := by
      rw [hT.free_clst]
      exact hfree
    refine Triple.pre (P := M.Holds T data h) ?_ fun fs' heq => heq ▸ hT
    have hsearch : Triple (M.Holds T data h) (if scl = (files i).getLast?.getD 0
        then create_chain.behind M.G M.D scl else create_chain.search M.G M.D scl M.G.n_fatent scl)
        fun x fs => M.Sought T x ∧ M.Holds T data h fs :=
      Triple.ite (fun heq => behind_at hb.chains.sane (hscl heq) hhigh)
        fun _ => search_at hb.chains.sane hpos hhigh
    refine Triple.bind hsearch fun x => Triple.assume fun hx => ?_
    obtain ⟨c, rfl, ⟨hclow, hchigh⟩, hc⟩ | ⟨rfl, hall⟩ | ⟨hf, rfl⟩ := hx
    · exact Triple.bind (take_at hb hfree' hclow hchigh hc) fun x => Triple.ret fun fs hfs => hfs
    · exact Triple.ret fun fs hT' => .inr (.inl ⟨rfl, hb.full fun _ => hall, T, h, hT', hb⟩)
    · exact Triple.ret fun fs hT' => .inr (.inr ⟨hf, rfl, T, h, hT', hb⟩)

/-- **`create_chain` adds a cluster** to a file, or begins one. -/
theorem create_chain_at (i : ι) : Triple (M.Chained files other data)
    (create_chain M.G M.D ((files i).getLast?.getD 0)) (M.Created files other data i) := by
  rintro fs ⟨T, h, hT, hb⟩
  have hthree := M.G.three_le
  have hrun : Triple (M.Holds T data h) (create_chain M.G M.D ((files i).getLast?.getD 0))
      (M.Created files other data i) := by
    obtain hnil | ⟨l, a, hi⟩ := List.eq_nil_or_concat (files i)
    · have hlast : (files i).getLast?.getD 0 = 0 := by rw [hnil]; rfl
      unfold create_chain
      rw [if_pos hlast]
      refine Triple.get_bind fun fs' hT' => ?_
      have hadd : Triple (M.Holds T data h) (create_chain.add M.G M.D ((files i).getLast?.getD 0)
          (if fs'.last_clst = 0 ∨ M.G.n_fatent ≤ fs'.last_clst then 1 else fs'.last_clst))
          (M.Created files other data i) := by
        refine add_at hb ?_ ?_ fun heq => ?_
        · split <;> omega
        · split <;> omega
        · rw [hlast] at heq
          split at heq <;> omega
      rw [hlast] at hadd
      exact hadd.pre fun _ heq => heq ▸ hT'
    · rw [List.concat_eq_append] at hi
      have hlast : (files i).getLast?.getD 0 = a := by rw [hi, List.getLast?_concat]; rfl
      have ha := hb.chains.range i a (by simp [hi])
      have hend := hb.chains.last hi
      unfold create_chain
      rw [if_neg (by omega)]
      rw [hlast]
      refine Triple.bind (get_at ha.1 ha.2) fun cs => Triple.assume fun hcs => ?_
      obtain rfl | ⟨hf, rfl⟩ := hcs
      · refine Triple.ite (fun hlt => absurd hlt (by omega)) fun _ => Triple.ite (fun hbad => ?_) fun _ =>
          Triple.ite (fun hlt => absurd hlt (by omega)) fun _ => ?_
        · intro fs' hT'
          have hlt := hT'.lt ha.1 ha.2
          omega
        · have hadd : Triple (M.Holds T data h) (create_chain.add M.G M.D ((files i).getLast?.getD 0) a)
              (M.Created files other data i) := add_at hb (by omega) ha.2 fun _ => ha.1
          rwa [hlast] at hadd
      · rw [if_neg (by decide), if_pos rfl]
        exact Triple.ret fun fs' hT' => .inr (.inr ⟨hf, rfl, T, h, hT', hb⟩)
  exact hrun fs hT

end Creating

end Mounted

end Miso.Fat

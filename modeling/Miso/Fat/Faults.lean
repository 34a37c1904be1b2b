import Miso.Fat.Sessions

/-!
# The clusters of files on a disk that fails

Any call of the disk may fail, and a call that writes may leave anything in its sectors.

* `Tables` — a volume, and the clusters that the files are known to have;
* `Alter.on` — a file gets another cluster, or loses its end;
* `clusters_kept` — whatever fails, no cluster gets into two files, or into what is not one of them.
-/

namespace Miso.Fat

open Sd Zig

/-- A volume, and the clusters of its files, as far as they are known: a file whose end could not be removed
is aborted. -/
structure Tables (δ ι : Type) where
  fs : FATFS δ
  known : ι → Option (List Nat)

/-- A file gets another cluster, as in `f_write`, or loses those from the `k`-th one on, as in
`f_truncate`. -/
inductive Alter (ι : Type) where
  | stretch (i : ι)
  | remove (i : ι) (k : Nat)

/-- What `create_chain` has returned is a cluster, or tells that there is none. -/
def grown (l : List Nat) (x : Option Nat) : List Nat :=
  if x = some 0 ∨ x = some 1 ∨ x = some 0xFFFFFFFF then l else l ++ [x.getD 0]

section Altering

variable {δ ι : Type} [DecidableEq ι] (G : Geometry) (D : Disk δ)

def Alter.stretched (i : ι) (t : Tables δ ι) (l : List Nat) : Tables δ ι :=
  let x := create_chain G D (l.getLast?.getD 0) t.fs
  ⟨x.2, Function.update t.known i (some (grown l x.1))⟩

def Alter.removed (i : ι) (k : Nat) (t : Tables δ ι) (l : List Nat) : Tables δ ι :=
  if k < l.length then
    let r := remove_chain G D (l.getD k 0) ((l.take k).getLast?.getD 0) t.fs
    ⟨r.2, Function.update t.known i (if r.1 = some .FR_OK then some (l.take k) else none)⟩
  else t

/-- A file that has been aborted is left alone. -/
def Alter.on (t : Tables δ ι) : Alter ι → Tables δ ι
  | stretch i => (t.known i).elim t (stretched G D i t)
  | remove i k => (t.known i).elim t (removed G D i k t)

end Altering

namespace Mounted

variable {δ ι : Type} {M : Mounted δ} {other : Nat → Prop} {data : Nat → Block} {t : Tables δ ι}

/-- **What is known of the files is what the table has.** -/
def Knows (M : Mounted δ) (other : Nat → Prop) (data : Nat → Block) (t : Tables δ ι) : Prop :=
  ∃ files, M.Chained files other data t.fs ∧ ∀ i l, t.known i = some l → files i = l

variable [DecidableEq ι]

/-- Another chain is known for one file. -/
theorem knows_update {files files' : ι → List Nat} {i : ι} {x : Option (List Nat)} {known : ι → Option (List Nat)}
    (hknown : ∀ j l, known j = some l → files j = l) (hothers : ∀ j, j ≠ i → files' j = files j)
    (hi : ∀ l, x = some l → files' i = l) : ∀ j l, Function.update known i x j = some l → files' j = l := by
  intro j l hj
  by_cases heq : j = i
  · subst heq
    rw [Function.update_self] at hj
    exact hi l hj
  · rw [Function.update_of_ne heq] at hj
    rw [hothers j heq]
    exact hknown j l hj

theorem stretched_at {i : ι} {l : List Nat} (h : M.Knows other data t) (hl : t.known i = some l) :
    M.Knows other data (Alter.stretched M.G M.D i t l) := by
  obtain ⟨files, hfs, hknown⟩ := h
  have hi := hknown i l hl
  have hcreated := create_chain_at i t.fs hfs
  rw [hi] at hcreated
  obtain ⟨c, hx, ⟨hlow, hhigh⟩, -, -, hfs'⟩ | hnone := hcreated
  · have hmodulus := M.G.fs_type.modulus_le
    have hlimit := Nat.lt_of_le_of_lt M.G.le_limit M.G.fs_type.limit_lt
    have hgrown : grown l (create_chain M.G M.D (l.getLast?.getD 0) t.fs).1 = l ++ [c] := by
      rw [hx]
      refine if_neg ?_
      simp only [Option.some.injEq]
      omega
    rw [hi] at hfs'
    refine ⟨_, hfs', knows_update hknown (fun j hj => Function.update_of_ne hj ..) fun m hm => ?_⟩
    rw [Function.update_self, ← Option.some.inj hm, hgrown]
  · have hsame : grown l (create_chain M.G M.D (l.getLast?.getD 0) t.fs).1 = l ∧
        M.Chained files other data (create_chain M.G M.D (l.getLast?.getD 0) t.fs).2 := by
      obtain ⟨hx, -, hfs'⟩ | ⟨-, hx, hfs'⟩ := hnone
      · exact ⟨if_pos (.inl hx), hfs'⟩
      · exact ⟨if_pos (.inr (.inr hx)), hfs'⟩
    refine ⟨files, hsame.2, knows_update hknown (fun _ _ => rfl) fun m hm => ?_⟩
    rw [← Option.some.inj hm, hsame.1, hi]

theorem removed_at {i : ι} {k : Nat} {l : List Nat} (h : M.Knows other data t) (hl : t.known i = some l) :
    M.Knows other data (Alter.removed M.G M.D i k t l) := by
  obtain ⟨files, hfs, hknown⟩ := h
  have hi := hknown i l hl
  unfold Alter.removed
  by_cases hk : k < l.length
  · rw [if_pos hk]
    have hget : l.getD k 0 = l[k] := by
      rw [List.getD_eq_getElem?_getD, List.getElem?_eq_getElem hk]
      rfl
    have hsplit : files i = l.take k ++ l[k] :: l.drop (k + 1) := by
      rw [hi, ← List.drop_eq_getElem_cons hk, List.take_append_drop]
    rw [hget]
    obtain ⟨-, hfs' | ⟨-, hfail, hfs'⟩⟩ := remove_chain_at hsplit t.fs hfs
    · refine ⟨_, hfs', knows_update hknown (fun j hj => Function.update_of_ne hj ..) fun m hm => ?_⟩
      rw [Function.update_self]
      obtain ⟨-, heq⟩ := Option.ite_none_right_eq_some.mp hm
      exact Option.some.inj heq
    · -- the file is aborted, so that its chain need not be known
      refine ⟨_, hfs', knows_update hknown (fun _ _ => rfl) fun m hm => ?_⟩
      rw [hfail, if_neg (by decide)] at hm
      cases hm
  · rw [if_neg hk]
    exact ⟨files, hfs, hknown⟩

theorem alter_at (a : Alter ι) (h : M.Knows other data t) : M.Knows other data (a.on M.G M.D t) := by
  cases a with
  | stretch i =>
    show M.Knows other data ((t.known i).elim t (Alter.stretched M.G M.D i t))
    cases hl : t.known i with
    | none => exact h
    | some l => exact stretched_at h hl
  | remove i k =>
    show M.Knows other data ((t.known i).elim t (Alter.removed M.G M.D i k t))
    cases hl : t.known i with
    | none => exact h
    | some l => exact removed_at h hl

theorem alters_at (as : List (Alter ι)) (h : M.Knows other data t) :
    M.Knows other data (as.foldl (Alter.on M.G M.D) t) := by
  induction as generalizing t with
  | nil => exact h
  | cons a as ih => exact ih (alter_at a h)

omit [DecidableEq ι] in
/-- A cluster that is known of is of one file, and not one of the `other` ones. -/
theorem Knows.apart (h : M.Knows other data t) {i : ι} {l : List Nat} {c : Nat} (hl : t.known i = some l)
    (hc : c ∈ l) : ¬other c ∧ ∀ j m, t.known j = some m → c ∈ m → i = j := by
  obtain ⟨files, ⟨T, h', -, hb⟩, hknown⟩ := h
  rw [← hknown i l hl] at hc
  refine ⟨fun ho => hb.spares.apart c i ho hc, fun j m hm hcm => ?_⟩
  rw [← hknown j m hm] at hcm
  exact hb.chains.apart i j c hc hcm

variable {files : ι → List Nat} {fs : FATFS δ}

/-- **Whatever fails, and when**: what is known of the files is in the table, no cluster is in two of them
or in one of the `other` ones, and no sector outside of the tables has been written to. -/
theorem clusters_kept (hfs : M.Chained files other data fs) (as : List (Alter ι)) {t : Tables δ ι}
    (ht : as.foldl (Alter.on M.G M.D) ⟨fs, fun i => some (files i)⟩ = t) :
    (∃ files', M.Chained files' other data t.fs ∧ ∀ i l, t.known i = some l → files' i = l) ∧
      ∀ i l c, t.known i = some l → c ∈ l → ¬other c ∧ ∀ j m, t.known j = some m → c ∈ m → i = j := by
  have hknows : M.Knows other data t := ht ▸ alters_at as ⟨files, hfs, fun i l hl => Option.some.inj hl⟩
  exact ⟨hknows, fun i l c hl hc => hknows.apart hl hc⟩

end Mounted

/-! ## A worn disk -/

/-- A disk that takes only so many writes. -/
def Disk.worn : Disk ((Nat → Block) × Nat) where
  disk_read s n := fun d => ((.RES_OK, load d.1 s n), d)
  disk_write buff s n := fun d => if d.2 = 0 then (.RES_ERROR, d) else (.RES_OK, store d.1 s n buff, d.2 - 1)
  sync := fun d => (.RES_OK, d)

theorem Disk.worn_keeps (capacity : Nat) : Disk.worn.Keeps capacity True fun blocks d => d.1 = blocks := by
  refine ⟨?_, ?_, ?_⟩
  · rintro blocks s n - - d hd
    exact ⟨hd, fun _ => congrArg (load · s n) hd, fun _ => trivial⟩
  · rintro blocks buff s n - - - d rfl
    by_cases hd : d.2 = 0
    · have hrun : Disk.worn.disk_write buff s n d = (.RES_ERROR, d) := if_pos hd
      rw [hrun]
      exact ⟨_, rfl, fun _ _ => rfl, fun h => absurd (show DRESULT.RES_ERROR = .RES_OK from h) (by decide),
        fun _ => trivial⟩
    · have hrun : Disk.worn.disk_write buff s n d = (.RES_OK, store d.1 s n buff, d.2 - 1) := if_neg hd
      rw [hrun]
      exact ⟨_, rfl, fun i hi => if_neg hi, fun _ => rfl, fun _ => trivial⟩
  · rintro blocks d hd
    exact ⟨hd, fun _ => trivial⟩

/-- The small volume, with entries of 16 bits. -/
def Geometry.wide : Geometry := { Geometry.small with
  fs_type := .FS_FAT16
  le_limit := by decide
  table_fits := by decide
  fsinfo_lt := fun h => absurd h (by decide) }

theorem Geometry.wide_type : Geometry.wide.fs_type ≠ .FS_FAT12 := by decide

theorem Geometry.wide_windowed : Geometry.wide.Windowed fun s => s = 1 ∨ s = 2 := by
  refine ⟨fun s hs => ⟨?_, fun h => absurd h.1 (by decide), fun h => absurd h.1 (by decide)⟩, fun s hs => .inl ?_⟩
  · obtain rfl | rfl := hs <;> decide
  · obtain ⟨hlow, hhigh⟩ : 1 ≤ s ∧ s < 1 + 1 := hs
    omega

def Mounted.worn : Mounted ((Nat → Block) × Nat) where
  G := Geometry.wide
  D := Disk.worn
  W := fun s => s = 1 ∨ s = 2
  faulty := True
  Has := fun blocks d => d.1 = blocks
  keeps := Disk.worn_keeps _
  windowed := Geometry.wide_windowed
  whole := fun h => absurd h Geometry.wide_type

theorem Mounted.worn_chained (n : Nat) : Mounted.worn.Chained (fun _ : Bool => []) (fun _ => False)
    (fun _ => Vector.replicate 512 0) (Desk.empty ((fun _ => Vector.replicate 512 0 : Nat → Block), n)).fs :=
  empty_chained rfl rfl rfl (show ¬((0 : Nat) = 1 ∨ (0 : Nat) = 2) by decide) rfl

/-- Two files on a disk that takes one write. -/
theorem Mounted.clusters_kept_worn : ∃ t : Tables ((Nat → Block) × Nat) Bool,
    ([.stretch true, .stretch false, .stretch true, .remove true 1, .stretch false] : List (Alter Bool)).foldl
      (Alter.on Mounted.worn.G Mounted.worn.D) ⟨(Desk.empty (fun _ => Vector.replicate 512 0, 1)).fs,
        fun _ => some []⟩ = t ∧
    (∃ files', Mounted.worn.Chained files' (fun _ => False) (fun _ => Vector.replicate 512 0) t.fs ∧
      ∀ i l, t.known i = some l → files' i = l) ∧
    ∀ i l c, t.known i = some l → c ∈ l → ¬False ∧ ∀ j m, t.known j = some m → c ∈ m → i = j :=
  ⟨_, rfl, Mounted.clusters_kept (Mounted.worn_chained 1) _ rfl⟩

end Miso.Fat

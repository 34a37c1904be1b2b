import Mathlib.Order.Interval.Finset.Nat
import Miso.Zig.Chain

/-!
# Chains of clusters in a table

The entry of a cluster is the next cluster of its file, or a number beyond the last cluster; it is 0
if the cluster is free.

* `Chains n T files` — in the table `T` of `n` entries, every file has its own clusters, and they are
  linked in their order;
* `Chains.push`, `Chains.cut`, `Chains.free` — a cluster is added at the end, the end is cut off, and
  what belongs to no file is freed;
* `Spares` — the clusters that belong to something else, `other`, are left alone;
* `Accounts` — no cluster is lost: one that is not free belongs to a file, or to something else;
* `Counted` — the number of free clusters is right, if it is known.
-/

namespace Miso.Fat

open Zig

variable {ι : Type} {n : Nat} {T : Nat → Nat} {files : ι → List Nat} {other : Nat → Prop} {c x : Nat}

/-- The cluster behind another one. -/
def next (n : Nat) (T : Nat → Nat) (c : Nat) : Option Nat := if T c < n then some (T c) else none

theorem next_update (T : Nat → Nat) (c x : Nat) :
    next n (Function.update T c x) = Function.update (next n T) c (if x < n then some x else none) := by
  funext d
  by_cases hd : d = c
  · subst hd
    rw [Function.update_self, next, Function.update_self]
  · rw [Function.update_of_ne hd, next, Function.update_of_ne hd]
    rfl

theorem next_end {c : Nat} (h : n ≤ T c) : next n T c = none := if_neg (Nat.not_lt.mpr h)

/-- **The clusters of the files**: those of a file are linked in their order, and no cluster belongs
to two files. -/
structure Chains (n : Nat) (T : Nat → Nat) (files : ι → List Nat) : Prop where
  range : ∀ i, ∀ c ∈ files i, 2 ≤ c ∧ c < n
  chain : ∀ i, Seg (next n T) (files i).head? (files i) none
  nodup : ∀ i, (files i).Nodup
  apart : ∀ i j c, c ∈ files i → c ∈ files j → i = j
  sane : ∀ c, 2 ≤ c → c < n → T c ≠ 1

/-- The clusters `other` are in use, but not by a file. -/
structure Spares (T : Nat → Nat) (files : ι → List Nat) (other : Nat → Prop) : Prop where
  used : ∀ c, other c → T c ≠ 0
  apart : ∀ c i, other c → c ∉ files i

/-- No cluster is in use but those of the files and the `other` ones. -/
def Accounts (n : Nat) (T : Nat → Nat) (files : ι → List Nat) (other : Nat → Prop) : Prop :=
  ∀ c, 2 ≤ c → c < n → T c ≠ 0 → (∃ i, c ∈ files i) ∨ other c

/-- The clusters that are free. -/
def freeSet (n : Nat) (T : Nat → Nat) : Finset Nat := (Finset.Ico 2 n).filter (T · = 0)

/-- The number of free clusters, if it is known. -/
def Counted (n : Nat) (T : Nat → Nat) (free_clst : Nat) : Prop :=
  free_clst ≤ n - 2 → free_clst = (freeSet n T).card

namespace Chains

/-- The entry of a cluster that is not the last one. -/
theorem link (h : Chains n T files) {i : ι} {l₁ l₂ : List Nat} {a b : Nat}
    (hi : files i = l₁ ++ a :: b :: l₂) : T a = b := by
  have hchain := h.chain i
  rw [hi, Seg.append_iff] at hchain
  obtain ⟨r, -, -, hnext, -⟩ := hchain
  unfold next at hnext
  split at hnext
  · exact Option.some.inj hnext
  · exact absurd hnext (by simp)

/-- The entry of the last cluster. -/
theorem last (h : Chains n T files) {i : ι} {l : List Nat} {a : Nat} (hi : files i = l ++ [a]) :
    n ≤ T a := by
  have hchain := h.chain i
  rw [hi, Seg.append_iff] at hchain
  obtain ⟨r, -, -, hnext⟩ := hchain
  by_contra hlt
  rw [Seg.nil_iff, next, if_pos (Nat.not_le.mp hlt)] at hnext
  exact absurd hnext (by simp)

/-- The entry of a cluster of a file. -/
theorem two_le (h : Chains n T files) {i : ι} (hc : c ∈ files i) : 2 ≤ T c := by
  obtain ⟨l₁, l₂, hi⟩ := List.append_of_mem hc
  have hn := h.range i c hc
  cases l₂ with
  | nil =>
    have hlast := h.last hi
    omega
  | cons b l₂ =>
    rw [h.link hi]
    exact (h.range i b (by rw [hi]; simp)).1

/-- **An entry that belongs to no file** may be changed. -/
theorem free (h : Chains n T files) (hc : ∀ i, c ∉ files i) (hx : x ≠ 1) :
    Chains n (Function.update T c x) files := by
  refine ⟨h.range, fun i => ?_, h.nodup, h.apart, fun d hd hdn => ?_⟩
  · rw [next_update]
    exact (h.chain i).update (hc i)
  · by_cases hdc : d = c
    · rw [hdc, Function.update_self]
      exact hx
    · rw [Function.update_of_ne hdc]
      exact h.sane d hd hdn

variable [DecidableEq ι] {i : ι} {l l₁ l₂ : List Nat} {a : Nat}

/-- Another list of clusters for a file. -/
theorem replace (h : Chains n T files) {T' : Nat → Nat} (hT : ∀ j, j ≠ i → ∀ c ∈ files j, T' c = T c)
    (hrange : ∀ c ∈ l, 2 ≤ c ∧ c < n) (hchain : Seg (next n T') l.head? l none) (hnd : l.Nodup)
    (hapart : ∀ j, j ≠ i → ∀ c ∈ l, c ∉ files j) (hsane : ∀ c, 2 ≤ c → c < n → T' c ≠ 1) :
    Chains n T' (Function.update files i l) := by
  have hself : Function.update files i l i = l := Function.update_self ..
  have hother {j : ι} (hj : j ≠ i) : Function.update files i l j = files j := Function.update_of_ne hj ..
  refine ⟨fun j => ?_, fun j => ?_, fun j => ?_, fun j k c hcj hck => ?_, hsane⟩
  · by_cases hj : j = i
    · subst hj
      rw [hself]
      exact hrange
    · rw [hother hj]
      exact h.range j
  · by_cases hj : j = i
    · subst hj
      rw [hself]
      exact hchain
    · rw [hother hj]
      refine (h.chain j).congr fun c hc => ?_
      unfold next
      rw [hT j hj c hc]
  · by_cases hj : j = i
    · subst hj
      rw [hself]
      exact hnd
    · rw [hother hj]
      exact h.nodup j
  · by_cases hj : j = i
    · by_cases hk : k = i
      · rw [hj, hk]
      · rw [hj, hself] at hcj
        rw [hother hk] at hck
        exact absurd hck (hapart k hk c hcj)
    · rw [hother hj] at hcj
      by_cases hk : k = i
      · rw [hk, hself] at hck
        exact absurd hcj (hapart j hj c hck)
      · rw [hother hk] at hck
        exact h.apart j k c hcj hck

/-- **The first cluster** of a file. -/
theorem first (h : Chains n T files) (hlow : 2 ≤ c) (hhigh : c < n) (hc : ∀ j, c ∉ files j)
    (hend : n ≤ T c) : Chains n T (Function.update files i [c]) := by
  refine h.replace (fun _ _ _ _ => rfl) ?_ ⟨rfl, next_end hend⟩ (List.nodup_singleton c) ?_ h.sane
  · rintro d hd
    obtain rfl := List.mem_singleton.mp hd
    exact ⟨hlow, hhigh⟩
  · rintro j - d hd
    obtain rfl := List.mem_singleton.mp hd
    exact hc j

/-- **One more cluster** of a file. -/
theorem push (h : Chains n T files) (hi : files i = l ++ [a]) (hlow : 2 ≤ c) (hhigh : c < n)
    (hc : ∀ j, c ∉ files j) (hend : n ≤ T c) :
    Chains n (Function.update T a c) (Function.update files i (l ++ [a] ++ [c])) := by
  have hchain := h.chain i
  have hnd := h.nodup i
  have hmem := h.range i
  have hnew := hc i
  rw [hi] at hchain hnd hmem hnew
  refine h.replace (fun j hj d hd => ?_) ?_ ?_ ?_ (fun j hj d hd => ?_) fun d hd hdn => ?_
  · refine Function.update_of_ne ?_ _ _
    rintro rfl
    exact hj (h.apart j i d hd (by simp [hi]))
  · intro d hd
    obtain hd | hd := List.mem_append.mp hd
    · exact hmem d hd
    · obtain rfl := List.mem_singleton.mp hd
      exact ⟨hlow, hhigh⟩
  · rw [next_update, if_pos hhigh]
    have hhead : (l ++ [a] ++ [c]).head? = (l ++ [a]).head? := by cases l <;> rfl
    rw [hhead]
    exact hchain.push hnd hnew (next_end hend)
  · refine List.nodup_append.mpr ⟨hnd, List.nodup_singleton c, fun d hd e he => ?_⟩
    obtain rfl := List.mem_singleton.mp he
    rintro rfl
    exact hnew hd
  · obtain hd | hd := List.mem_append.mp hd
    · exact fun hdj => hj (h.apart j i d hdj (hi ▸ hd))
    · obtain rfl := List.mem_singleton.mp hd
      exact hc j
  · by_cases hda : d = a
    · rw [hda, Function.update_self]
      omega
    · rw [Function.update_of_ne hda]
      exact h.sane d hd hdn

end Chains

/-- **Clusters that belong to no file**, but are linked in their order. -/
structure Loose (n : Nat) (T : Nat → Nat) (files : ι → List Nat) (l : List Nat) : Prop where
  range : ∀ c ∈ l, 2 ≤ c ∧ c < n
  chain : Seg (next n T) l.head? l none
  nodup : l.Nodup
  apart : ∀ c ∈ l, ∀ i, c ∉ files i

theorem Seg.eq_head {p : Option Nat} {l : List Nat} {nx : Nat → Option Nat} (h : Seg nx p l none) :
    p = l.head? := by
  cases l with
  | nil => exact h
  | cons a l => exact h.1

/-- The first one of them is freed. -/
theorem Loose.tail {l : List Nat} (h : Loose n T files (c :: l)) :
    Loose n (Function.update T c 0) files l := by
  obtain ⟨hc, hl⟩ := List.nodup_cons.mp h.nodup
  have hseg := h.chain.2
  refine ⟨fun d hd => h.range d (List.mem_cons_of_mem c hd), ?_, hl,
    fun d hd => h.apart d (List.mem_cons_of_mem c hd)⟩
  rw [next_update, ← Seg.eq_head hseg]
  exact hseg.update hc

/-- The entry of the first one. -/
theorem Loose.entry {l : List Nat} (h : Loose n T files (c :: l)) :
    l = [] ∧ n ≤ T c ∨ ∃ b l', l = b :: l' ∧ T c = b := by
  have hseg := h.chain.2
  unfold next at hseg
  cases l with
  | nil =>
    by_cases hlt : T c < n
    · rw [if_pos hlt] at hseg
      exact absurd hseg (by simp)
    · exact .inl ⟨rfl, Nat.not_lt.mp hlt⟩
  | cons b l =>
    have hb := hseg.1
    by_cases hlt : T c < n
    · rw [if_pos hlt] at hb
      exact .inr ⟨b, l, rfl, Option.some.inj hb⟩
    · rw [if_neg hlt] at hb
      exact absurd hb (by simp)

namespace Chains

variable [DecidableEq ι] {i : ι} {l l₁ l₂ : List Nat} {a : Nat}

/-- **The end of a file is cut off** behind the cluster `a`. -/
theorem cut (h : Chains n T files) (hi : files i = l₁ ++ a :: l₂) (hx : n ≤ x) (hx₁ : x ≠ 1) :
    Chains n (Function.update T a x) (Function.update files i (l₁ ++ [a])) ∧
      Loose n (Function.update T a x) (Function.update files i (l₁ ++ [a])) l₂ := by
  have hchain := h.chain i
  have hnd := h.nodup i
  have hmem := h.range i
  rw [hi] at hchain hnd hmem
  obtain ⟨r, hl₁, hr, hl₂⟩ := Seg.append_iff.mp hchain
  obtain ⟨hnd₁, hnd₂, hdisj⟩ := List.nodup_append.mp hnd
  obtain ⟨ha₂, hnd₂⟩ := List.nodup_cons.mp hnd₂
  have ha₁ : a ∉ l₁ := fun ha => hdisj a ha a List.mem_cons_self rfl
  have hsub : ∀ d ∈ l₁ ++ [a], d ∈ files i := fun d hd => by
    rw [hi]
    obtain hd | hd := List.mem_append.mp hd
    · exact List.mem_append_left _ hd
    · exact List.mem_append_right _ (List.mem_singleton.mp hd ▸ List.mem_cons_self)
  have htail : ∀ d ∈ l₂, d ∈ files i := fun d hd => by
    rw [hi]
    exact List.mem_append_right _ (List.mem_cons_of_mem a hd)
  have hother : ∀ j, j ≠ i → ∀ d ∈ files i, d ∉ files j := fun j hj d hd hdj =>
    hj (h.apart j i d hdj hd)
  refine ⟨h.replace (fun j hj d hd => ?_) (fun d hd => h.range i d (hsub d hd)) ?_ ?_
    (fun j hj d hd => hother j hj d (hsub d hd)) fun d hd hdn => ?_, ?_, ?_, hnd₂, fun d hd j => ?_⟩
  · refine Function.update_of_ne ?_ _ _
    rintro rfl
    exact hother j hj d (by simp [hi]) hd
  · rw [next_update, if_neg (Nat.not_lt.mpr hx)]
    have hhead : (l₁ ++ [a]).head? = (l₁ ++ a :: l₂).head? := by cases l₁ <;> rfl
    refine Seg.append_iff.mpr ⟨r, ?_, hr, Function.update_self ..⟩
    rw [hhead]
    exact hl₁.update ha₁
  · refine List.nodup_append.mpr ⟨hnd₁, List.nodup_singleton a, fun d hd e he => ?_⟩
    obtain rfl := List.mem_singleton.mp he
    exact hdisj d hd e List.mem_cons_self
  · by_cases hda : d = a
    · rw [hda, Function.update_self]
      exact hx₁
    · rw [Function.update_of_ne hda]
      exact h.sane d hd hdn
  · exact fun d hd => h.range i d (htail d hd)
  · rw [next_update, ← Seg.eq_head hl₂]
    exact hl₂.update ha₂
  · by_cases hj : j = i
    · subst hj
      rw [Function.update_self]
      intro hmem
      obtain hd₁ | hda := List.mem_append.mp hmem
      · exact hdisj d hd₁ d (List.mem_cons_of_mem a hd) rfl
      · exact ha₂ (List.mem_singleton.mp hda ▸ hd)
    · rw [Function.update_of_ne hj]
      exact hother j hj d (htail d hd)

/-- **A file is emptied.** -/
theorem clear (h : Chains n T files) :
    Chains n T (Function.update files i []) ∧ Loose n T (Function.update files i []) (files i) := by
  refine ⟨h.replace (fun _ _ _ _ => rfl) (by simp) rfl List.nodup_nil (by simp) h.sane,
    h.range i, h.chain i, h.nodup i, fun c hc j => ?_⟩
  by_cases hj : j = i
  · subst hj
    rw [Function.update_self]
    exact List.not_mem_nil
  · rw [Function.update_of_ne hj]
    exact fun hcj => hj (h.apart j i c hcj hc)

end Chains

/-! ## Free clusters -/

/-- A free cluster is taken. -/
theorem freeSet_take (hx : x ≠ 0) : freeSet n (Function.update T c x) = (freeSet n T).erase c := by
  ext d
  simp only [freeSet, Finset.mem_filter, Finset.mem_erase, Finset.mem_Ico]
  by_cases hd : d = c
  · subst hd
    simp [hx]
  · rw [Function.update_of_ne hd]
    tauto

/-- A cluster is freed. -/
theorem freeSet_free (hlow : 2 ≤ c) (hhigh : c < n) :
    freeSet n (Function.update T c 0) = insert c (freeSet n T) := by
  ext d
  simp only [freeSet, Finset.mem_filter, Finset.mem_insert, Finset.mem_Ico]
  by_cases hd : d = c
  · subst hd
    simp [hlow, hhigh]
  · rw [Function.update_of_ne hd]
    tauto

/-- The link of a cluster that is in use does not matter. -/
theorem freeSet_link (hc : T c ≠ 0) (hx : x ≠ 0) :
    freeSet n (Function.update T c x) = freeSet n T := by
  rw [freeSet_take hx]
  exact Finset.erase_eq_of_notMem (by simp [freeSet, hc])

theorem freeSet_lt (hlow : 2 ≤ c) (hhigh : c < n) (hc : T c ≠ 0) : (freeSet n T).card < n - 2 := by
  have hsub : freeSet n T ⊂ Finset.Ico 2 n :=
    ⟨Finset.filter_subset _ _, fun h => hc (Finset.mem_filter.mp (h (Finset.mem_Ico.mpr ⟨hlow, hhigh⟩))).2⟩
  have hcard := Finset.card_lt_card hsub
  rwa [Nat.card_Ico] at hcard

theorem mem_freeSet : c ∈ freeSet n T ↔ (2 ≤ c ∧ c < n) ∧ T c = 0 := by
  rw [freeSet, Finset.mem_filter, Finset.mem_Ico]

/-- One free cluster less. -/
theorem Counted.take {k : Nat} (h : Counted n T k) (hlow : 2 ≤ c) (hhigh : c < n) (hc : T c = 0)
    (hx : x ≠ 0) (hk : k ≤ n - 2) : Counted n (Function.update T c x) (k - 1) := by
  intro _
  rw [freeSet_take hx, Finset.card_erase_of_mem (mem_freeSet.mpr ⟨⟨hlow, hhigh⟩, hc⟩), ← h hk]

/-- One more free cluster. -/
theorem Counted.free {k : Nat} (h : Counted n T k) (hlow : 2 ≤ c) (hhigh : c < n) (hc : T c ≠ 0)
    (hk : k < n - 2) : Counted n (Function.update T c 0) (k + 1) := by
  intro _
  rw [freeSet_free hlow hhigh, Finset.card_insert_of_notMem fun hmem => hc (mem_freeSet.mp hmem).2,
    ← h (Nat.le_of_lt hk)]

/-- A count that is known stays below the number of clusters while one of them is in use. -/
theorem Counted.unknown {k : Nat} (h : Counted n T k) (hlow : 2 ≤ c) (hhigh : c < n) (hc : T c ≠ 0)
    (hk : n - 2 ≤ k) : n - 2 < k := by
  by_contra hle
  have heq := h (Nat.not_lt.mp hle)
  have hlt := freeSet_lt hlow hhigh hc
  omega

section Books

variable {l l₁ l₂ : List Nat}

theorem Spares.update (h : Spares T files other) (hx : other c → x ≠ 0) :
    Spares (Function.update T c x) files other := by
  refine ⟨fun d hd => ?_, h.apart⟩
  by_cases hdc : d = c
  · subst hdc
    rw [Function.update_self]
    exact hx hd
  · rw [Function.update_of_ne hdc]
    exact h.used d hd

/-- One of the clusters that are lost is freed. -/
theorem Accounts.free (h : Accounts n T files fun d => other d ∨ d ∈ c :: l) :
    Accounts n (Function.update T c 0) files fun d => other d ∨ d ∈ l := by
  intro d hd hdn hT
  by_cases hdc : d = c
  · rw [hdc, Function.update_self] at hT
    exact absurd rfl hT
  · rw [Function.update_of_ne hdc] at hT
    have hmem := h d hd hdn hT
    simpa [hdc] using hmem

variable [DecidableEq ι] {i : ι} {T' : Nat → Nat}

/-- A file has other clusters, none of them one of the `other` ones. -/
theorem Spares.replace (h : Spares T files other) (hl : ∀ c ∈ l, ¬other c) :
    Spares T (Function.update files i l) other := by
  refine ⟨h.used, fun c j hc hj => ?_⟩
  by_cases hji : j = i
  · subst hji
    rw [Function.update_self] at hj
    exact hl c hj hc
  · rw [Function.update_of_ne hji] at hj
    exact h.apart c j hc hj

/-- A cluster that had been free belongs to a file. -/
theorem Accounts.add (h : Accounts n T files other) (hT : ∀ d, d ≠ c → (T' d = 0 ↔ T d = 0)) :
    Accounts n T' (Function.update files i (files i ++ [c])) other := by
  intro d hd hdn hd0
  by_cases hdc : d = c
  · exact .inl ⟨i, by rw [Function.update_self, hdc]; simp⟩
  · refine (h d hd hdn (mt (hT d hdc).mpr hd0)).imp_left ?_
    rintro ⟨j, hj⟩
    by_cases hji : j = i
    · subst hji
      exact ⟨j, by rw [Function.update_self]; exact List.mem_append_left _ hj⟩
    · exact ⟨j, by rwa [Function.update_of_ne hji]⟩

/-- The end of a file is lost, for now. -/
theorem Accounts.drop (h : Accounts n T files other) (hi : files i = l₁ ++ l₂)
    (hT : ∀ d, T' d = 0 ↔ T d = 0) :
    Accounts n T' (Function.update files i l₁) fun d => other d ∨ d ∈ l₂ := by
  intro d hd hdn hd0
  obtain ⟨j, hj⟩ | hother := h d hd hdn (mt (hT d).mpr hd0)
  · by_cases hji : j = i
    · rw [hji, hi] at hj
      obtain hj | hj := List.mem_append.mp hj
      · exact .inl ⟨i, by rwa [Function.update_self]⟩
      · exact .inr (.inr hj)
    · exact .inl ⟨j, by rwa [Function.update_of_ne hji]⟩
  · exact .inr (.inl hother)

end Books

end Miso.Fat

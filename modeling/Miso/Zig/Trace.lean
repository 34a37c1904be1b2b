import Mathlib.Data.List.Induction

/-!
# Traces (library)

A trace is a list of events, oldest first.

* `Always P l` — every event satisfies `P`, together with what has come before it;
* `Since x l before after` — `x` has happened last between `before` and `after`;
* `Between mark P l` — what lies between an event and a later marked one; `Until` is its half
  behind the event.
-/

namespace Zig

variable {α : Type}

/-! ## Cutting a list -/

/-- An element that is not in the second half is in the first. -/
theorem split_of_notMem {a b mid post : List α} {y : α} (h : a ++ b = mid ++ y :: post)
    (hy : y ∉ b) : ∃ post', a = mid ++ y :: post' ∧ post = post' ++ b := by
  obtain ⟨c, rfl, hb⟩ | ⟨c, rfl, hc⟩ := List.append_eq_append_iff.mp h
  · rw [hb] at hy
    exact absurd (List.mem_append_right c List.mem_cons_self) hy
  · cases c with
    | nil =>
      rw [List.nil_append] at hc
      rw [← hc] at hy
      exact absurd List.mem_cons_self hy
    | cons z c =>
      obtain ⟨rfl, rfl⟩ := List.cons.inj hc
      exact ⟨c, rfl, rfl⟩

/-- An element that is not in the first half comes behind it. -/
theorem split_of_notMem_left {a b mid post : List α} {y : α} (h : a ++ b = mid ++ y :: post)
    (hy : y ∉ a) : ∃ mid', mid = a ++ mid' ∧ b = mid' ++ y :: post := by
  obtain ⟨c, rfl, hb⟩ | ⟨c, rfl, hc⟩ := List.append_eq_append_iff.mp h
  · exact ⟨c, rfl, hb⟩
  · cases c with
    | nil => exact ⟨[], by simp, hc.symm⟩
    | cons z c =>
      obtain ⟨rfl, rfl⟩ := List.cons.inj hc
      simp at hy

/-! ## What has come before -/

/-- Every event satisfies `P`, together with what has come before it. -/
def Always (P : List α → α → Prop) (l : List α) : Prop :=
  ∀ past x, past ++ [x] <+: l → P past x

section Always

variable {P : List α → α → Prop} {l es : List α} {x : α}

theorem always_nil : Always P [] := by
  intro past x h
  simp at h

theorem always_concat : Always P (l ++ [x]) ↔ Always P l ∧ P l x := by
  constructor
  · intro h
    exact ⟨fun past y hl => h past y (hl.trans (List.prefix_append l [x])), h l x List.prefix_rfl⟩
  · intro h past y hl
    rcases List.prefix_concat_iff.mp hl with heq | hl
    · obtain rfl : past = l := List.append_inj_left' heq rfl
      obtain rfl : y = x := by simpa using heq
      exact h.2
    · exact h.1 past y hl

theorem Always.append (h : Always P l) (hes : ∀ x ∈ es, ∀ past, P past x) :
    Always P (l ++ es) := by
  induction es using List.reverseRecOn with
  | nil => simpa using h
  | append_singleton es x ih =>
    rw [← List.append_assoc, always_concat]
    exact ⟨ih fun y hy => hes y (List.mem_append_left _ hy), hes x (by simp) _⟩

end Always

/-! ## The last time -/

/-- `x` has happened last between `before` and `after`. -/
def Since (x : α) (l before after : List α) : Prop := l = before ++ x :: after ∧ x ∉ after

section Since

variable {l es before after before' after' : List α} {x : α}

theorem since_last : Since x (l ++ [x]) l [] := ⟨rfl, List.not_mem_nil⟩

theorem Since.unique (h : Since x l before after) (h' : Since x l before' after') :
    before' = before ∧ after' = after := by
  obtain ⟨rfl, hafter⟩ := h
  obtain ⟨hl, hafter'⟩ := h'
  have hsplit : (before ++ [x]) ++ after = before' ++ x :: after' := by simpa using hl
  obtain ⟨post, hbefore, rfl⟩ := split_of_notMem hsplit hafter
  rcases List.eq_nil_or_concat post with rfl | ⟨post', z, rfl⟩
  · exact ⟨(List.append_inj_left' hbefore rfl).symm, rfl⟩
  · have hlast : before ++ [x] = (before' ++ x :: post') ++ [z] := by simpa using hbefore
    obtain rfl : x = z := by simpa using List.append_inj_right' hlast rfl
    exact absurd (by simp) hafter'

theorem Since.append (h : Since x l before after) (hes : x ∉ es) :
    Since x (l ++ es) before (after ++ es) := by
  obtain ⟨rfl, hafter⟩ := h
  refine ⟨by simp, ?_⟩
  intro hmem
  rcases List.mem_append.mp hmem with h | h
  · exact hafter h
  · exact hes h

theorem Since.of_append (h : Since x (l ++ es) before after) (hes : x ∉ es) :
    ∃ after', after = after' ++ es ∧ Since x l before after' := by
  obtain ⟨hl, hafter⟩ := h
  obtain ⟨post, rfl, rfl⟩ := split_of_notMem hl hes
  exact ⟨post, rfl, rfl, fun hmem => hafter (List.mem_append_left es hmem)⟩

end Since

/-! ## What lies between -/

section Between

variable {mark : α → Prop} {P : α → List α → Prop} {Q : List α → Prop}

/-- Everything that comes before a marked element satisfies `Q`. -/
def Until (mark : α → Prop) (Q : List α → Prop) (l : List α) : Prop :=
  ∀ mid y post, l = mid ++ y :: post → mark y → Q mid

/-- Between each element and each later marked one lies what `P` asks for. -/
def Between (mark : α → Prop) (P : α → List α → Prop) (l : List α) : Prop :=
  ∀ pre x mid y post, l = pre ++ x :: (mid ++ y :: post) → mark y → P x mid

/-- The elements at two positions, and what lies between them. -/
theorem eq_between {l : List α} {n m : Nat} (hlt : n < m) (hm : m < l.length) :
    l = l.take n ++ l[n] :: ((l.take m).drop (n + 1) ++ l[m] :: l.drop (m + 1)) := by
  have hn : n < (l.take m).length := by
    rw [List.length_take]
    omega
  have hfront : l.take m = l.take n ++ l[n] :: (l.take m).drop (n + 1) :=
    calc l.take m = (l.take m).take n ++ (l.take m).drop n := (List.take_append_drop n _).symm
      _ = l.take n ++ l[n] :: (l.take m).drop (n + 1) := by
        rw [List.take_take, Nat.min_eq_left (Nat.le_of_lt hlt),
          List.drop_eq_getElem_cons hn, List.getElem_take]
  calc l = l.take m ++ l.drop m := (List.take_append_drop m l).symm
    _ = (l.take n ++ l[n] :: (l.take m).drop (n + 1)) ++ l[m] :: l.drop (m + 1) := by
      rw [← hfront, ← List.drop_eq_getElem_cons hm]
    _ = l.take n ++ l[n] :: ((l.take m).drop (n + 1) ++ l[m] :: l.drop (m + 1)) := by
      rw [List.append_assoc, List.cons_append]

theorem until_const {c : Prop} {l : List α} :
    Until mark (fun _ => c) l ↔ ((∃ y ∈ l, mark y) → c) := by
  constructor
  · intro h hy
    obtain ⟨y, hmem, hy⟩ := hy
    obtain ⟨mid, post, rfl⟩ := List.append_of_mem hmem
    exact h mid y post rfl hy
  · intro h mid y post hl hy
    exact h ⟨y, by simp [hl], hy⟩

theorem between_nil : Between mark P [] := by
  intro pre x mid y post h
  simp at h

theorem between_cons {x : α} {l : List α} :
    Between mark P (x :: l) ↔ Until mark (P x) l ∧ Between mark P l := by
  constructor
  · intro h
    refine ⟨fun mid y post hl => h [] x mid y post (by rw [hl]; rfl), ?_⟩
    intro pre x' mid y post hl
    exact h (x :: pre) x' mid y post (by rw [hl]; rfl)
  · intro h pre x' mid y post hl
    cases pre with
    | nil =>
      obtain ⟨rfl, rfl⟩ := List.cons.inj hl
      exact h.1 mid y post rfl
    | cons z pre =>
      obtain ⟨rfl, rfl⟩ := List.cons.inj hl
      exact h.2 pre x' mid y post rfl

/-- Elements of which nothing is asked. -/
theorem between_skip {a b : List α} (h : ∀ x ∈ a, ∀ mid, P x mid) :
    Between mark P (a ++ b) ↔ Between mark P b := by
  induction a with
  | nil => rfl
  | cons x a ih =>
    rw [List.cons_append, between_cons, ih fun y hy => h y (List.mem_cons_of_mem x hy)]
    exact and_iff_right fun mid _ _ _ _ => h x List.mem_cons_self mid

end Between

end Zig

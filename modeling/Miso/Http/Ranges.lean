import Miso.Zig.Decimal
import Miso.Http.Message

/-!
# Content-Range

* `ContentRange` — the grammar of the header, and what its values denote;
* `rangeResponse.reads` — how far `rangeResponse.match` looks;
* `exact_iff` — the values on which `rangeResponse.match` keeps to the grammar.
-/

namespace Miso.Http

open Zig Boot

/-! ## The grammar -/

/-- A run of digits that denotes a `usize`. -/
structure Numeral (d : List UInt8) (n : Nat) : Prop where
  digits : Digits d
  value : decimalValue d = n
  fits : n ≤ usize_max

/-- `bytes s-e/total`, `bytes s-e/*` and `bytes */total`. -/
inductive ContentRange : List UInt8 → Option rangeResponse → Prop where
  | range {s e t : List UInt8} {start last total : Nat} : Numeral s start → Numeral e last →
    Numeral t total → ContentRange
      (bytesOf "bytes " ++ (s ++ bytesOf "-" ++ e ++ bytesOf "/" ++ t))
      (some ⟨start, last, some total⟩)
  | unknown {s e : List UInt8} {start last : Nat} : Numeral s start → Numeral e last →
    ContentRange (bytesOf "bytes " ++ (s ++ bytesOf "-" ++ e ++ bytesOf "/*"))
      (some ⟨start, last, none⟩)
  | unsatisfied {t : List UInt8} {total : Nat} : Numeral t total →
    ContentRange (bytesOf "bytes */" ++ t) none

/-- The header with the value `v`, in a buffer that goes on with `rest`. -/
def headerOf (name v rest : List UInt8) : phr_header := ⟨name, v ++ rest, v.length⟩

/-- How many bytes from `header.value` on `rangeResponse.match` looks at. -/
def rangeResponse.reads (header : phr_header) : Nat :=
  if header.value.take 6 ≠ bytesOf "bytes " then compared header.value (bytesOf "bytes ")
  else if header.value.take 7 = bytesOf "bytes *" then compared header.value (bytesOf "bytes *")
  else max (compared header.value (bytesOf "bytes *")) header.value_len

/-- **The grammar is kept to**: `x` is what the value denotes, and an error if it denotes nothing;
nothing has been read behind the value. -/
structure Exact (v : List UInt8) (x : Exit Error (Option rangeResponse)) (reads : Nat) : Prop where
  accepts : ∀ r, x = .ok r ↔ ContentRange v r
  refuses : (∀ r, ¬ContentRange v r) → ∃ err, x = .err err
  inside : reads ≤ v.length

theorem Exact.not_trap {v : List UInt8} {x : Exit Error (Option rangeResponse)} {reads : Nat}
    (h : Exact v x reads) : x ≠ .trap := by
  rintro rfl
  have hnone (r : Option rangeResponse) : ¬ContentRange v r := by
    intro hr
    cases (h.accepts r).mpr hr
  obtain ⟨err, herr⟩ := h.refuses hnone
  cases herr

/-! ## The numbers -/

/-- What `match` makes of the segments. -/
def rangeResponse.ofSegments (segments : List (List UInt8)) :
    Exit Error (Option rangeResponse) := do
  let start ← parseUsize (segments.headD [])
  let last ← nextNumber (segments.drop 1)
  let total ← nextNumber (segments.drop 2)
  pure (some ⟨start, last.getD 0, total⟩)

/-- The segments that are looked at are numbers to `std.fmt.parseInt`. -/
def Accepted (w : List UInt8) : Prop :=
  ∀ seg ∈ (splitAny w (bytesOf "-/")).take 3, ∃ n, parseInt usize_max seg = .ok n

theorem parseUsize_cases (seg : List UInt8) :
    (∃ n, parseInt usize_max seg = .ok n ∧ parseUsize seg = .ok n) ∨
    ∃ e, parseInt usize_max seg = .error e ∧ parseUsize seg = .err (.number e) := by
  unfold parseUsize
  cases parseInt usize_max seg with
  | ok n => exact .inl ⟨n, rfl, rfl⟩
  | error e => exact .inr ⟨e, rfl, rfl⟩

theorem Numeral.parse {d : List UInt8} {n : Nat} (h : Numeral d n) : parseUsize d = .ok n := by
  obtain ⟨hdigits, rfl, hfits⟩ := h
  have hparse := parseInt_digits usize_max hdigits
  rw [if_pos hfits] at hparse
  unfold parseUsize
  rw [hparse]

theorem Numeral.field {d : List UInt8} {n : Nat} (h : Numeral d n) :
    ∀ c ∈ d, c ∉ bytesOf "-/" := by
  intro c hc hsep
  obtain ⟨-, hdash, hslash, -⟩ := digit_ne (h.digits.all c hc)
  have hsep' : c ∈ ([45, 47] : List UInt8) := hsep
  simp [hdash, hslash] at hsep'

/-- No number begins with an asterisk. -/
theorem parseUsize_star (l : List UInt8) :
    parseInt usize_max (42 :: l) = .error .InvalidCharacter := by
  have hfold : (42 :: l).foldlM (accumulate usize_max false) 0 = .error .InvalidCharacter := rfl
  unfold parseInt
  dsimp only
  rw [if_neg (by decide), if_neg (by decide)]
  unfold parseWithSign
  rw [hfold, ite_self]

/-- Either all of the segments are numbers, or there is an error. -/
theorem ofSegments_cases {l : List (List UInt8)} (hl : l ≠ []) :
    ((∀ seg ∈ l.take 3, ∃ n, parseInt usize_max seg = .ok n) ∧
      ∃ r, rangeResponse.ofSegments l = .ok (some r)) ∨
    ((¬∀ seg ∈ l.take 3, ∃ n, parseInt usize_max seg = .ok n) ∧
      ∃ err, rangeResponse.ofSegments l = .err err) := by
  have hfails {seg : List UInt8} {e : ParseIntError} (hseg : seg ∈ l.take 3)
      (he : parseInt usize_max seg = .error e) :
      ¬∀ seg ∈ l.take 3, ∃ n, parseInt usize_max seg = .ok n := by
    intro hall
    obtain ⟨n, hn⟩ := hall seg hseg
    rw [he] at hn
    cases hn
  cases l with
  | nil => exact absurd rfl hl
  | cons a l =>
    obtain ⟨start, ha, hstart⟩ | ⟨e, ha, hstart⟩ := parseUsize_cases a
    · cases l with
      | nil =>
        refine .inl ⟨?_, ⟨start, 0, none⟩, ?_⟩
        · intro seg hseg
          obtain rfl := List.mem_singleton.mp hseg
          exact ⟨start, ha⟩
        · simp [rangeResponse.ofSegments, nextNumber, hstart]
      | cons b l =>
        obtain ⟨last, hb, hlast⟩ | ⟨e, hb, hlast⟩ := parseUsize_cases b
        · cases l with
          | nil =>
            refine .inl ⟨?_, ⟨start, last, none⟩, ?_⟩
            · intro seg hseg
              obtain rfl | hseg := List.mem_cons.mp hseg
              · exact ⟨start, ha⟩
              · obtain rfl := List.mem_singleton.mp hseg
                exact ⟨last, hb⟩
            · simp [rangeResponse.ofSegments, nextNumber, hstart, hlast]
          | cons d l =>
            obtain ⟨total, hd, htotal⟩ | ⟨e, hd, htotal⟩ := parseUsize_cases d
            · refine .inl ⟨?_, ⟨start, last, some total⟩, ?_⟩
              · intro seg hseg
                have hseg' : seg ∈ [a, b, d] := hseg
                simp only [List.mem_cons, List.not_mem_nil, or_false] at hseg'
                obtain rfl | rfl | rfl := hseg'
                · exact ⟨start, ha⟩
                · exact ⟨last, hb⟩
                · exact ⟨total, hd⟩
              · simp [rangeResponse.ofSegments, nextNumber, hstart, hlast, htotal]
            · refine .inr ⟨hfails (by simp) hd, .number e, ?_⟩
              simp [rangeResponse.ofSegments, nextNumber, hstart, hlast, htotal]
        · refine .inr ⟨hfails (by simp) hb, .number e, ?_⟩
          simp [rangeResponse.ofSegments, nextNumber, hstart, hlast]
    · refine .inr ⟨hfails (by simp) ha, .number e, ?_⟩
      simp [rangeResponse.ofSegments, hstart]

/-- A range with its total is split into the three numbers. -/
theorem ofSegments_range {s e : List UInt8} {start last : Nat} (t : List UInt8)
    (hs : Numeral s start) (he : Numeral e last) (ht : ∀ c ∈ t, c ∉ bytesOf "-/") :
    splitAny (s ++ bytesOf "-" ++ e ++ bytesOf "/" ++ t) (bytesOf "-/") = [s, e, t] := by
  have hfields : s ++ bytesOf "-" ++ e ++ bytesOf "/" ++ t = s ++ 45 :: (e ++ 47 :: t) := by
    simp only [List.append_assoc]
    rfl
  rw [hfields, splitAny_field _ hs.field (by decide), splitAny_field _ he.field (by decide),
    splitAny_last ht]

/-! ## `rangeResponse.match` -/

section Match

variable {name v rest : List UInt8} {r : Option rangeResponse}

/-- A value that reaches behind the unit is compared inside. -/
theorem unit_lt (hunit : ¬v <+: bytesOf "bytes ") (hbytes : bytesOf "bytes " <+: v) :
    6 < v.length := by
  have hle : 6 ≤ v.length := hbytes.length_le
  by_contra hlt
  exact hunit (hbytes.eq_of_length_le (Nat.not_lt.mp hlt) ▸ List.prefix_rfl)

theorem take_append_eq {u : List UInt8} (h : u.length ≤ v.length) :
    (v ++ rest).take u.length = u ↔ u <+: v := by
  rw [List.take_append_of_le_length h]
  exact ⟨fun heq => heq ▸ List.take_prefix _ _, fun hpre => (List.prefix_iff_eq_take.mp hpre).symm⟩

theorem take_unit (hunit : ¬v <+: bytesOf "bytes ") :
    (v ++ rest).take 6 = bytesOf "bytes " ↔ bytesOf "bytes " <+: v := by
  by_cases hle : 6 ≤ v.length
  · exact take_append_eq (u := bytesOf "bytes ") hle
  · constructor
    · intro heq
      have hpre : bytesOf "bytes " <+: v ++ rest := heq ▸ List.take_prefix _ _
      have hshort : v.length ≤ (bytesOf "bytes ").length := Nat.le_of_not_le hle
      exact absurd (List.prefix_of_prefix_length_le (List.prefix_append v rest) hpre hshort) hunit
    · intro hpre
      exact absurd hpre.length_le hle

theorem drop_unit (w : List UInt8) : (bytesOf "bytes " ++ w).drop 6 = w := List.drop_left' rfl

/-- **What `match` does with a value that does not end within the unit.** -/
theorem ofHeader_eq (hbuffer : 6 ≤ (v ++ rest).length) (hunit : ¬v <+: bytesOf "bytes ") :
    rangeResponse.ofHeader (headerOf name v rest) =
      if bytesOf "bytes " <+: v then
        if bytesOf "bytes *" <+: v then .ok none
        else rangeResponse.ofSegments (splitAny (v.drop 6) (bytesOf "-/"))
      else .err .range_response_parse_error := by
  have htext : (headerOf name v rest).text = v := List.take_left
  have hslice (n : Nat) (hn : n ≤ (v ++ rest).length) :
      (headerOf name v rest).slice n = .ok ((v ++ rest).take n) := if_neg (Nat.not_lt.mpr hn)
  unfold rangeResponse.ofHeader
  rw [hslice 6 hbuffer, Exit.ok_bind]
  by_cases hbytes : bytesOf "bytes " <+: v
  · have hlen := unit_lt hunit hbytes
    have hseven : 7 ≤ (v ++ rest).length := by
      rw [List.length_append]
      omega
    have hstar : (v ++ rest).take 7 = bytesOf "bytes *" ↔ bytesOf "bytes *" <+: v :=
      take_append_eq (u := bytesOf "bytes *") hlen
    rw [if_neg (not_not.mpr ((take_unit hunit).mpr hbytes)), if_pos hbytes, hslice 7 hseven,
      Exit.ok_bind]
    by_cases hpre : bytesOf "bytes *" <+: v
    · rw [if_pos (hstar.mpr hpre), if_pos hpre]
      rfl
    · have hvalue : ¬(headerOf name v rest).value_len < 6 := Nat.not_lt.mpr (Nat.le_of_lt hlen)
      rw [if_neg (hpre ∘ hstar.mp), if_neg hpre, if_neg hvalue, htext]
      rfl
  · rw [if_pos (hbytes ∘ (take_unit hunit).mp), if_neg hbytes]

/-- A value that ends within the unit is left by the comparison. -/
theorem reads_outside (hv : v <+: bytesOf "bytes ") (hrest : rest ≠ []) :
    v.length < rangeResponse.reads (headerOf name v rest) := by
  have hstar : v.length < compared (v ++ rest) (bytesOf "bytes *") := by
    have hpre : bytesOf "bytes " <+: bytesOf "bytes *" := by decide
    exact compared_lt (hv.trans hpre) (Nat.lt_succ_of_le hv.length_le) hrest
  unfold rangeResponse.reads
  split
  · rename_i hne
    have hshort : v.length < (bytesOf "bytes ").length := by
      refine Nat.lt_of_le_of_ne hv.length_le ?_
      intro heq
      apply hne
      show (v ++ rest).take 6 = _
      rw [hv.eq_of_length heq]
      exact List.take_left' rfl
    exact compared_lt hv hshort hrest
  · split
    · exact hstar
    · exact Nat.lt_of_lt_of_le hstar (Nat.le_max_left _ _)

/-- Any other value is not. -/
theorem reads_inside (hunit : ¬v <+: bytesOf "bytes ") :
    rangeResponse.reads (headerOf name v rest) ≤ v.length := by
  have hunit' := compared_le rest hunit
  by_cases hbytes : bytesOf "bytes " <+: v
  · have hlen := unit_lt hunit hbytes
    have hstar : compared (v ++ rest) (bytesOf "bytes *") ≤ v.length :=
      Nat.le_trans (compared_le_length _ _) hlen
    unfold rangeResponse.reads
    split
    · exact hunit'
    · split
      · exact hstar
      · exact Nat.max_le.mpr ⟨hstar, Nat.le_refl _⟩
  · unfold rangeResponse.reads
    rw [if_pos]
    · exact hunit'
    · exact hbytes ∘ (take_unit hunit).mp

/-! ## When the grammar is kept to -/

/-- No total is left open. -/
def Known (v : List UInt8) : Prop :=
  ∀ (s e : List UInt8) (start last : Nat), Numeral s start → Numeral e last →
    v ≠ bytesOf "bytes " ++ (s ++ bytesOf "-" ++ e ++ bytesOf "/*")

/-- **The values on which `match` keeps to the grammar.** -/
structure Regular (v rest : List UInt8) : Prop where
  /-- The bytes of the unit are in the buffer. -/
  buffer : 6 ≤ (v ++ rest).length
  /-- The value does not end within the unit. -/
  unit : ¬v <+: bytesOf "bytes "
  /-- An asterisk is followed by a total. -/
  star : bytesOf "bytes *" <+: v → ∃ t total, Numeral t total ∧ v = bytesOf "bytes */" ++ t
  known : Known v
  /-- What `parseInt` takes for numbers are the three numbers of a range. -/
  parts : ∀ w, v = bytesOf "bytes " ++ w → Accepted w → ∃ s e t start last total,
    Numeral s start ∧ Numeral e last ∧ Numeral t total ∧
      w = s ++ bytesOf "-" ++ e ++ bytesOf "/" ++ t

theorem Numeral.ne_star {d : List UInt8} {n : Nat} (h : Numeral d n) (l : List UInt8) :
    ¬bytesOf "bytes *" <+: bytesOf "bytes " ++ (d ++ l) := by
  obtain ⟨hdigits, -, -⟩ := h
  cases d with
  | nil => exact absurd rfl hdigits.ne_nil
  | cons c d =>
    intro hpre
    have hstar : bytesOf "*" <+: c :: (d ++ l) :=
      (List.prefix_append_right_inj (bytesOf "bytes ")).mp hpre
    have hc : c = 42 := (List.cons_prefix_cons.mp hstar).1.symm
    have hrange := hdigits.all c List.mem_cons_self
    rw [hc] at hrange
    exact absurd hrange (by decide)

/-- Every value of the grammar goes on behind the unit. -/
theorem ContentRange.unit (h : ContentRange v r) :
    bytesOf "bytes " <+: v ∧ ¬v <+: bytesOf "bytes " := by
  have hmore {w : List UInt8} (hw : w ≠ []) : ¬bytesOf "bytes " ++ w <+: bytesOf "bytes " := by
    intro hpre
    have hle := hpre.length_le
    have hpos := List.length_pos_iff.mpr hw
    rw [List.length_append] at hle
    omega
  cases h with
  | range => exact ⟨List.prefix_append _ _, hmore (by simp [bytesOf])⟩
  | unknown => exact ⟨List.prefix_append _ _, hmore (by simp [bytesOf])⟩
  | @unsatisfied t total ht =>
    have hsplit : bytesOf "bytes */" ++ t = bytesOf "bytes " ++ (bytesOf "*/" ++ t) := rfl
    rw [hsplit]
    exact ⟨List.prefix_append _ _, hmore (by simp [bytesOf])⟩

theorem ContentRange.buffer (h : ContentRange v r) : 6 ≤ (v ++ rest).length := by
  have hle : 6 ≤ v.length := h.unit.1.length_le
  rw [List.length_append]
  omega

/-- **What the grammar allows is accepted**, but for an open total. -/
theorem ContentRange.run (h : ContentRange v r) (hknown : Known v) :
    rangeResponse.ofHeader (headerOf name v rest) = .ok r := by
  rw [ofHeader_eq h.buffer h.unit.2, if_pos h.unit.1]
  cases h with
  | @range s e t start last total hs he ht =>
    have hstar := hs.ne_star (bytesOf "-" ++ e ++ bytesOf "/" ++ t)
    simp only [← List.append_assoc] at hstar
    rw [if_neg (by simpa only [List.append_assoc] using hstar), drop_unit,
      ofSegments_range t hs he ht.field]
    simp [rangeResponse.ofSegments, nextNumber, hs.parse, he.parse, ht.parse]
  | unknown hs he => exact absurd rfl (hknown _ _ _ _ hs he)
  | @unsatisfied t total ht =>
    have hstar : bytesOf "bytes *" <+: bytesOf "bytes */" ++ t := by
      have hsplit : bytesOf "bytes */" ++ t = bytesOf "bytes *" ++ (bytesOf "/" ++ t) := rfl
      rw [hsplit]
      exact List.prefix_append _ _
    rw [if_pos hstar]

/-- An open total is refused. -/
theorem unknown_run {s e : List UInt8} {start last : Nat} (hs : Numeral s start)
    (he : Numeral e last) : rangeResponse.ofHeader
      (headerOf name (bytesOf "bytes " ++ (s ++ bytesOf "-" ++ e ++ bytesOf "/*")) rest) =
        .err (.number .InvalidCharacter) := by
  have hv : ContentRange (bytesOf "bytes " ++ (s ++ bytesOf "-" ++ e ++ bytesOf "/*"))
      (some ⟨start, last, none⟩) := .unknown hs he
  have hstar := hs.ne_star (bytesOf "-" ++ e ++ bytesOf "/*")
  have hsplit : s ++ bytesOf "-" ++ e ++ bytesOf "/*" =
      s ++ bytesOf "-" ++ e ++ bytesOf "/" ++ bytesOf "*" := by
    rw [List.append_assoc _ (bytesOf "/")]
    rfl
  have hasterisk : ∀ c ∈ bytesOf "*", c ∉ bytesOf "-/" := by
    intro c hc
    obtain rfl : c = 42 := List.mem_singleton.mp hc
    decide
  rw [ofHeader_eq hv.buffer hv.unit.2, if_pos hv.unit.1,
    if_neg (by simpa only [List.append_assoc] using hstar), drop_unit, hsplit,
    ofSegments_range _ hs he hasterisk]
  have hlast : parseUsize (bytesOf "*") = .err (.number .InvalidCharacter) := rfl
  simp [rangeResponse.ofSegments, nextNumber, hs.parse, he.parse, hlast]

/-- What begins with an asterisk has no first number. -/
theorem star_not_accepted {w : List UInt8} (h : bytesOf "bytes *" <+: bytesOf "bytes " ++ w) :
    ¬Accepted w := by
  have hstar : bytesOf "*" <+: w := (List.prefix_append_right_inj (bytesOf "bytes ")).mp h
  obtain ⟨w', rfl⟩ := hstar
  intro hall
  have hsplit : splitAny (bytesOf "*" ++ w') (bytesOf "-/") =
      (splitAny w' (bytesOf "-/")).modifyHead (List.cons 42) := by
    show List.splitOnP _ (42 :: w') = _
    rw [List.splitOnP_cons_eq_if_modifyHead, if_neg (by decide)]
    rfl
  unfold Accepted at hall
  rw [hsplit] at hall
  cases hsegs : splitAny w' (bytesOf "-/") with
  | nil => exact splitAny_ne_nil _ _ hsegs
  | cons a l =>
    rw [hsegs] at hall
    obtain ⟨n, hn⟩ := hall (42 :: a) (by simp)
    rw [parseUsize_star] at hn
    cases hn

theorem Regular.exact (h : Regular v rest) :
    Exact v (rangeResponse.ofHeader (headerOf name v rest))
      (rangeResponse.reads (headerOf name v rest)) := by
  have hrun : rangeResponse.ofHeader (headerOf name v rest) = _ := ofHeader_eq h.buffer h.unit
  have hsound (r : Option rangeResponse)
      (hr : rangeResponse.ofHeader (headerOf name v rest) = .ok r) : ContentRange v r := by
    rw [hrun] at hr
    split at hr
    · rename_i hbytes
      obtain ⟨w, rfl⟩ := hbytes
      split at hr
      · rename_i hstar
        obtain ⟨t, total, ht, hv⟩ := h.star hstar
        cases hr
        rw [hv]
        exact .unsatisfied ht
      · rw [drop_unit] at hr
        obtain ⟨hall, -⟩ | ⟨-, err, herr⟩ := ofSegments_cases (splitAny_ne_nil w (bytesOf "-/"))
        · obtain ⟨s, e, t, start, last, total, hs, he, ht, rfl⟩ := h.parts w rfl hall
          rw [ofSegments_range t hs he ht.field] at hr
          simp only [rangeResponse.ofSegments, nextNumber, List.headD_cons, List.drop_succ_cons,
            List.drop_zero, hs.parse, he.parse, ht.parse, Exit.ok_bind, Exit.pure_eq] at hr
          cases hr
          exact .range hs he ht
        · rw [herr] at hr
          cases hr
    · cases hr
  refine ⟨fun r => ⟨hsound r, fun hr => hr.run h.known⟩, ?_, reads_inside h.unit⟩
  intro hnone
  have hno (r : Option rangeResponse) : rangeResponse.ofHeader (headerOf name v rest) ≠ .ok r :=
    fun hr => hnone r (hsound r hr)
  rw [hrun] at hno ⊢
  split
  · rename_i hbytes
    rw [if_pos hbytes] at hno
    split
    · rename_i hstar
      rw [if_pos hstar] at hno
      exact absurd rfl (hno none)
    · rename_i hstar
      rw [if_neg hstar] at hno
      obtain ⟨-, r, hr⟩ | ⟨-, herr⟩ := ofSegments_cases (splitAny_ne_nil (v.drop 6) (bytesOf "-/"))
      · exact absurd hr (hno (some r))
      · exact herr
  · exact ⟨_, rfl⟩

theorem Exact.regular (h : Exact v (rangeResponse.ofHeader (headerOf name v rest))
    (rangeResponse.reads (headerOf name v rest))) : Regular v rest := by
  have htrap := h.not_trap
  have hbuffer : 6 ≤ (v ++ rest).length := by
    by_contra hlt
    apply htrap
    have hslice : (headerOf name v rest).slice 6 = .trap := if_pos (Nat.lt_of_not_le hlt)
    unfold rangeResponse.ofHeader
    rw [hslice]
    rfl
  have hunit : ¬v <+: bytesOf "bytes " := by
    intro hv
    by_cases hrest : rest = []
    · subst hrest
      rw [List.append_nil] at hbuffer
      obtain rfl : v = bytesOf "bytes " := hv.eq_of_length (Nat.le_antisymm hv.length_le hbuffer)
      exact htrap rfl
    · exact absurd h.inside (Nat.not_le.mpr (reads_outside hv hrest))
  have hrun : rangeResponse.ofHeader (headerOf name v rest) = _ := ofHeader_eq hbuffer hunit
  have hknown : Known v := by
    rintro s e start last hs he rfl
    have hok := (h.accepts _).mpr (.unknown hs he)
    rw [unknown_run hs he] at hok
    cases hok
  refine ⟨hbuffer, hunit, ?_, hknown, ?_⟩
  · intro hstar
    have hbytes : bytesOf "bytes " <+: v := by
      have hpre : bytesOf "bytes " <+: bytesOf "bytes *" := by decide
      exact hpre.trans hstar
    rw [if_pos hbytes, if_pos hstar] at hrun
    cases (h.accepts none).mp hrun with
    | unsatisfied ht => exact ⟨_, _, ht, rfl⟩
  · rintro w rfl hall
    have hstar : ¬bytesOf "bytes *" <+: bytesOf "bytes " ++ w := fun hstar =>
      star_not_accepted hstar hall
    rw [if_pos (List.prefix_append _ _), if_neg hstar, drop_unit] at hrun
    obtain ⟨-, r, hr⟩ | ⟨hnot, -⟩ := ofSegments_cases (splitAny_ne_nil w (bytesOf "-/"))
    · rw [hr] at hrun
      have hgrammar := (h.accepts (some r)).mp hrun
      generalize hv : bytesOf "bytes " ++ w = v at hgrammar
      cases hgrammar with
      | range hs he ht => exact ⟨_, _, _, _, _, _, hs, he, ht, List.append_cancel_left hv⟩
      | unknown hs he => exact absurd hv (hknown _ _ _ _ hs he)
    · exact absurd hall hnot

/-- **When `match` keeps to the grammar**: exactly on the regular values. -/
theorem exact_iff (name v rest : List UInt8) :
    Exact v (rangeResponse.ofHeader (headerOf name v rest))
      (rangeResponse.reads (headerOf name v rest)) ↔ Regular v rest :=
  ⟨Exact.regular, Regular.exact⟩

/-- A range of a resource whose length is not known is refused. -/
theorem open_total_refused : ¬Exact (bytesOf "bytes 0-99/*")
    (rangeResponse.ofHeader (headerOf (bytesOf "Content-Range") (bytesOf "bytes 0-99/*")
      (bytesOf "\r\n\r\n")))
    (rangeResponse.reads (headerOf (bytesOf "Content-Range") (bytesOf "bytes 0-99/*")
      (bytesOf "\r\n\r\n"))) := by
  intro h
  have hrange : ContentRange (bytesOf "bytes 0-99/*") (some ⟨0, 99, none⟩) :=
    .unknown (s := bytesOf "0") (e := bytesOf "99") ⟨by decide, by decide, by decide⟩
      ⟨by decide, by decide, by decide⟩
  exact absurd ((h.accepts _).mpr hrange) (by decide)

end Match

end Miso.Http

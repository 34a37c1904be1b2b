import Mathlib.Data.List.Pairwise
import Miso.Zig.Fold
import Miso.Http.Steps

/-!
# Headers that say the same

* `Respells` — a header in other letters: its name, and the Connection option or the unit of
  Accept-Ranges;
* `rearranged` — the order of the headers does not matter, nor does a spelling on which the tables
  of names and options agree;
* `equivalences_broken` — other spellings matter, and so does the order of two faulty headers.
-/

namespace Miso.Http

open Zig Net Boot

/-! ## Spelling and order -/

/-- The lower case of a letter. -/
def lower (c : UInt8) : UInt8 := if 65 ≤ c ∧ c ≤ 90 then c + 32 else c

/-- The text in lower case. -/
def folded (text : List UInt8) : List UInt8 := text.map lower

/-- No two names are the same but for their letter case. -/
def Distinct (l : List phr_header) : Prop := l.Pairwise fun h h' => folded h.name ≠ folded h'.name

/-- `h'` is `h` with other letters in its name, or in an option or a unit. -/
structure Respells (h h' : phr_header) : Prop where
  name : folded h'.name = folded h.name
  value_len : h'.value_len = h.value_len
  value : h'.value = h.value ∨ folded h'.text = folded h.text ∧
    (folded h.name = bytesOf "connection" ∨ folded h.name = bytesOf "accept-ranges")

/-- The name is one that `processHeaders` has a use for. -/
def responseHeaders.Used (name : responseHeaders) : Prop :=
  name ∈ [.contentRange, .acceptRanges, .contentLength, .etag, .connection]

instance (name : responseHeaders) : Decidable name.Used := inferInstanceAs (Decidable (_ ∈ _))

/-- The tables, which are compared letter by letter, agree on the two spellings, as far as
`processHeaders` uses them. -/
structure Alike (h h' : phr_header) : Prop where
  name : ∀ name : responseHeaders, name.Used →
    (responseHeaders.ofHeader h' = some name ↔ responseHeaders.ofHeader h = some name)
  option : responseHeaders.ofHeader h = some .connection →
    keepAlive.ofHeader h' = keepAlive.ofHeader h
  unit : responseHeaders.ofHeader h = some .acceptRanges →
    acceptRanges.ofHeader h' = acceptRanges.ofHeader h

/-- The header cannot be parsed. -/
def phr_header.Faulty (h : phr_header) : Prop := Exit.Fails parsedResponse.field h

/-- The order has been changed, and the spelling by `R`. -/
def Rearranged (R : phr_header → phr_header → Prop) (l l' : List phr_header) : Prop :=
  ∃ k, l.Perm k ∧ List.Forall₂ R k l'

namespace parsedResponse

/-- The name of the header that sets the field. -/
def Field.source : Field → Option responseHeaders
  | range _ => some .contentRange
  | accept_ranges _ => some .acceptRanges
  | content_length _ => some .contentLength
  | etag _ => some .etag
  | keep_alive _ => some .connection
  | other => none

/-- Different fields are set in any order. -/
theorem Field.set_comm (p : parsedResponse) {f g : Field} (h : f.source = g.source → f.source = none) :
    g.set (f.set p) = f.set (g.set p) := by
  cases f <;> cases g <;> first | rfl | cases h rfl

/-- A field comes from a header of its name. -/
theorem field_source {h : phr_header} {f : Field} (hf : field h = .ok f) :
    f.source = none ∨ responseHeaders.ofHeader h = f.source := by
  unfold field at hf
  cases hname : responseHeaders.ofHeader h with
  | none =>
    rw [hname] at hf
    cases hf
    exact .inl rfl
  | some name =>
    rw [hname] at hf
    cases name with
    | contentRange =>
      cases hr : rangeResponse.ofHeader h <;> rw [hr] at hf <;> cases hf
      exact .inr rfl
    | acceptRanges =>
      cases hr : acceptRanges.ofHeader h <;> rw [hr] at hf <;> cases hf
      exact .inr rfl
    | contentLength =>
      cases hr : parseUsize h.text <;> rw [hr] at hf <;> cases hf
      exact .inr rfl
    | connection =>
      cases hr : keepAlive.ofHeader h <;> rw [hr] at hf <;> cases hf
      exact .inr rfl
    | etag =>
      cases hf
      exact .inr rfl
    | _ =>
      cases hf
      exact .inl rfl

theorem processHeaders_eq (rx : rx_response) :
    processHeaders rx = Exit.fold field (fun f p => f.set p) (init rx) rx.headers := by
  unfold processHeaders Exit.fold
  congr 1
  funext p h
  exact processHeader_eq p h

end parsedResponse

open parsedResponse

/-! ## Names -/

theorem ofHeader_mem {h : phr_header} {name : responseHeaders}
    (hn : responseHeaders.ofHeader h = some name) : (h.name, name) ∈ responseHeaders.stringMap := by
  obtain ⟨l, l', heq, -⟩ := List.lookup_eq_some_iff.mp hn
  rw [heq]
  simp

/-- A name of the table stands for one header only. -/
theorem ofHeader_name {h h' : phr_header} {name : responseHeaders}
    (hn : responseHeaders.ofHeader h = some name) (hn' : responseHeaders.ofHeader h' = some name) :
    h.name = h'.name := by
  have hunique : ∀ a ∈ responseHeaders.stringMap, ∀ b ∈ responseHeaders.stringMap,
      a.2 = b.2 → a.1 = b.1 := by
    decide
  exact hunique _ (ofHeader_mem hn) _ (ofHeader_mem hn') rfl

/-- Headers with different names are processed in any order. -/
theorem change_comm {l : List phr_header} (hl : Distinct l) :
    ∀ h ∈ l, ∀ h' ∈ l, ∀ p,
      Exit.change field (fun f p => f.set p) (Exit.change field (fun f p => f.set p) p h) h' =
        Exit.change field (fun f p => f.set p) (Exit.change field (fun f p => f.set p) p h') h := by
  intro h hmem h' hmem' p
  by_cases heq : h = h'
  · rw [heq]
  have hsymm : Std.Symm fun h h' : phr_header => folded h.name ≠ folded h'.name :=
    ⟨fun _ _ hne => hne.symm⟩
  have hnames : folded h.name ≠ folded h'.name := List.Pairwise.forall hl hmem hmem' heq
  unfold Exit.change
  cases hf : field h with
  | ok f =>
    cases hf' : field h' with
    | ok g =>
      apply Field.set_comm
      intro hsource
      by_contra hnone
      obtain ⟨name, hname⟩ := Option.ne_none_iff_exists'.mp hnone
      have hh : responseHeaders.ofHeader h = some name :=
        ((field_source hf).resolve_left hnone).trans hname
      have hh' : responseHeaders.ofHeader h' = some name :=
        ((field_source hf').resolve_left (hsource ▸ hnone)).trans (hsource.symm.trans hname)
      exact hnames (congrArg folded (ofHeader_name hh hh'))
    | _ => rfl
  | _ => rfl

/-- The value of a header without options and units keeps its letters. -/
theorem Respells.value_eq {h h' : phr_header} (hr : Respells h h') {name : responseHeaders}
    (hn : responseHeaders.ofHeader h = some name) (hconnection : name ≠ .connection)
    (hranges : name ≠ .acceptRanges) : h'.value = h.value := by
  have hnames : ∀ a ∈ responseHeaders.stringMap, a.2 ≠ .connection → a.2 ≠ .acceptRanges →
      folded a.1 ≠ bytesOf "connection" ∧ folded a.1 ≠ bytesOf "accept-ranges" := by
    decide
  obtain ⟨hne, hne'⟩ := hnames _ (ofHeader_mem hn) hconnection hranges
  obtain heq | ⟨-, hname | hname⟩ := hr.value
  · exact heq
  · exact absurd hname hne
  · exact absurd hname hne'

/-- A header without a use sets no field. -/
theorem field_unused {h : phr_header}
    (hn : ∀ name : responseHeaders, name.Used → responseHeaders.ofHeader h ≠ some name) :
    field h = .ok .other := by
  unfold parsedResponse.field
  cases hname : responseHeaders.ofHeader h with
  | none => rfl
  | some name =>
    have hunused : ¬name.Used := fun hused => hn name hused hname
    unfold responseHeaders.Used at hunused
    cases name <;> first | rfl | exact absurd (by decide) hunused

/-- A spelling on which the tables agree says the same. -/
theorem Respells.field {h h' : phr_header} (hr : Respells h h') (ha : Alike h h') :
    field h' = field h := by
  have hsame (hvalue : h'.value = h.value) :
      rangeResponse.ofHeader h' = rangeResponse.ofHeader h ∧ h'.text = h.text := by
    have hlen := hr.value_len
    unfold rangeResponse.ofHeader phr_header.slice phr_header.text
    rw [hvalue, hlen]
    exact ⟨rfl, rfl⟩
  by_cases hused : ∃ name : responseHeaders, name.Used ∧ responseHeaders.ofHeader h = some name
  · obtain ⟨name, hname, hn⟩ := hused
    have hn' := (ha.name name hname).mpr hn
    have hoption := ha.option
    have hunit := ha.unit
    unfold parsedResponse.field
    rw [hn', hn]
    cases name with
    | contentRange =>
      simp only [(hsame (hr.value_eq hn (by decide) (by decide))).1]
    | acceptRanges =>
      simp only [hunit hn]
    | contentLength =>
      simp only [(hsame (hr.value_eq hn (by decide) (by decide))).2]
    | connection =>
      simp only [hoption hn]
    | etag =>
      simp only [(hsame (hr.value_eq hn (by decide) (by decide))).2]
    | _ => rfl
  · rw [not_exists] at hused
    have hunused (name : responseHeaders) (hname : name.Used) :
        responseHeaders.ofHeader h ≠ some name := fun hn => hused name ⟨hname, hn⟩
    rw [field_unused hunused, field_unused fun name hname hn =>
      hunused name hname ((ha.name name hname).mp hn)]

/-! ## The law -/

/-- **Headers may come in any order**, and in every spelling on which the tables agree: the result is
the same if there is one, and the failure is the same unless two headers are faulty. -/
theorem rearranged {rx : rx_response} {l : List phr_header} (hdistinct : Distinct rx.headers)
    (h : Rearranged (fun h h' => Respells h h' ∧ Alike h h') rx.headers l) :
    (∀ p, processHeaders rx = .ok p ↔ processHeaders { rx with headers := l } = .ok p) ∧
    ((∀ h ∈ rx.headers, ∀ h' ∈ rx.headers, h.Faulty → h'.Faulty → h' = h) →
      processHeaders rx = processHeaders { rx with headers := l }) := by
  obtain ⟨k, hperm, hspelled⟩ := h
  have hfields : List.Forall₂ (fun h h' => field h' = field h) k l :=
    hspelled.imp fun _ _ h => h.1.field h.2
  have hcomm := change_comm hdistinct
  have hinit : init { rx with headers := l } = init rx := rfl
  rw [processHeaders_eq, processHeaders_eq, hinit, Exit.fold_congr hfields]
  exact ⟨fun p => Exit.fold_perm hperm hcomm, Exit.fold_perm_eq hperm hcomm⟩

/-- A header with its value, at the end of the buffer. -/
def line (name value : String) : phr_header := ⟨bytesOf name, bytesOf value, (bytesOf value).length⟩

/-- A response with three headers. -/
def rx_response.served : rx_response :=
  ⟨none, [line "Content-Type" "x", line "Content-Length" "5", line "ETag" "e"], 200⟩

/-- The same headers in another order, and one of them in other letters. -/
def reserved : List phr_header :=
  [line "ETag" "e", line "content-type" "x", line "Content-Length" "5"]

theorem rearranged_served :
    (∀ p, processHeaders .served = .ok p ↔
      processHeaders { rx_response.served with headers := reserved } = .ok p) ∧
    ((∀ h ∈ rx_response.served.headers, ∀ h' ∈ rx_response.served.headers,
        h.Faulty → h'.Faulty → h' = h) →
      processHeaders .served = processHeaders { rx_response.served with headers := reserved }) := by
  have hdistinct : Distinct rx_response.served.headers := by
    unfold Distinct
    decide
  apply rearranged hdistinct
  refine ⟨[line "ETag" "e", line "Content-Type" "x", line "Content-Length" "5"], by decide, ?_⟩
  have hsame (h : phr_header) : Respells h h ∧ Alike h h :=
    ⟨⟨rfl, rfl, .inl rfl⟩, ⟨fun _ _ => Iff.rfl, fun _ => rfl, fun _ => rfl⟩⟩
  have htype : Respells (line "Content-Type" "x") (line "content-type" "x") ∧
      Alike (line "Content-Type" "x") (line "content-type" "x") := by
    have hknown : responseHeaders.ofHeader (line "Content-Type" "x") = some .contentType := by
      decide +kernel
    have hunknown : responseHeaders.ofHeader (line "content-type" "x") = none := by decide +kernel
    refine ⟨⟨by decide +kernel, rfl, .inl rfl⟩, ⟨fun name hused => ?_, ?_, ?_⟩⟩
    · rw [hknown, hunknown]
      constructor
      · exact fun hnone => by cases hnone
      · exact fun hname => by cases hname; exact absurd hused (by decide)
    · exact fun hname => by rw [hknown] at hname; cases hname
    · exact fun hname => by rw [hknown] at hname; cases hname
  exact .cons (hsame _) (.cons htype (.cons (hsame _) .nil))

/-- A name in lower case is not recognised, and of two faulty headers the first is reported. -/
theorem equivalences_broken :
    (¬∀ (rx : rx_response) (l : List phr_header), Distinct rx.headers →
      List.Forall₂ Respells rx.headers l →
      processHeaders rx = processHeaders { rx with headers := l }) ∧
    (¬∀ (rx : rx_response) (l : List phr_header), Distinct rx.headers → rx.headers.Perm l →
      processHeaders rx = processHeaders { rx with headers := l }) := by
  constructor
  · intro h
    have hspelled := h ⟨none, [line "Content-Length" "5"], 200⟩ [line "content-length" "5"]
      (by unfold Distinct; decide) (.cons ⟨by decide, rfl, .inl rfl⟩ .nil)
    exact absurd hspelled (by decide)
  · intro h
    have hperm := h ⟨none, [line "Accept-Ranges" "lines", line "Content-Length" "five"], 200⟩
      [line "Content-Length" "five", line "Accept-Ranges" "lines"] (by unfold Distinct; decide)
      (by decide)
    exact absurd hperm (by decide)

end Miso.Http

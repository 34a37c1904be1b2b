import Miso.Http.Download

/-!
# What a server can trap

* `rx_response.Sliced` — the fixed slices of the Content-Range headers lie within the value;
* `Event.Safe` — a response from which nothing is taken that is not there;
* `download_safe` — a download traps exactly if one of its responses is not safe.
-/

namespace Miso.Http

open Zig Net Boot

/-! ## Headers -/

/-- The slices of a Content-Range are in range: there are the 6 or 7 bytes that are compared, and
the value reaches behind the unit. -/
def phr_header.Sliceable (h : phr_header) : Prop :=
  responseHeaders.ofHeader h = some .contentRange → 6 ≤ h.value.length ∧
    (h.value.take 6 = bytesOf "bytes " → 7 ≤ h.value.length ∧
      (h.value.take 7 ≠ bytesOf "bytes *" → 6 ≤ h.value_len))

namespace parsedResponse

/-- Every header that is reached is sliceable. -/
def Sliced (p : parsedResponse) : List phr_header → Prop
  | [] => True
  | h :: rest => h.Sliceable ∧ ∀ q, processHeader p h = .ok q → Sliced q rest

end parsedResponse

def rx_response.Sliced (rx : rx_response) : Prop := (parsedResponse.init rx).Sliced rx.headers

theorem parseUsize_trap (buf : List UInt8) : parseUsize buf ≠ .trap := by
  unfold parseUsize
  split
  · exact nofun
  · exact nofun

theorem nextNumber_trap (l : List (List UInt8)) : nextNumber l ≠ .trap := by
  cases l with
  | nil => exact nofun
  | cons val rest => simp [nextNumber, Exit.bind_trap_iff, parseUsize_trap]

theorem slice_eq (h : phr_header) (n : Nat) :
    h.slice n = if h.value.length < n then .trap else .ok (h.value.take n) := rfl

theorem rangeResponse_trap (h : phr_header) : rangeResponse.ofHeader h = .trap ↔
    ¬(6 ≤ h.value.length ∧ (h.value.take 6 = bytesOf "bytes " → 7 ≤ h.value.length ∧
      (h.value.take 7 ≠ bytesOf "bytes *" → 6 ≤ h.value_len))) := by
  unfold rangeResponse.ofHeader
  rw [slice_eq]
  by_cases h₆ : h.value.length < 6
  · rw [if_pos h₆]
    simp only [Exit.trap_bind, true_iff]
    omega
  rw [if_neg h₆, Exit.ok_bind]
  by_cases hunit : h.value.take 6 = bytesOf "bytes "
  · rw [if_neg (not_not.mpr hunit), slice_eq]
    by_cases h₇ : h.value.length < 7
    · rw [if_pos h₇]
      simp only [Exit.trap_bind, true_iff]
      intro hno
      have := (hno.2 hunit).1
      omega
    rw [if_neg h₇, Exit.ok_bind]
    by_cases hstar : h.value.take 7 = bytesOf "bytes *"
    · rw [if_pos hstar]
      simp only [Exit.pure_eq, reduceCtorEq, false_iff, not_not]
      exact ⟨Nat.not_lt.mp h₆, fun _ => ⟨Nat.not_lt.mp h₇, fun hne => absurd hstar hne⟩⟩
    · rw [if_neg hstar]
      by_cases hlen : h.value_len < 6
      · rw [if_pos hlen]
        simp only [true_iff]
        intro hno
        have := (hno.2 hunit).2 hstar
        omega
      · rw [if_neg hlen]
        simp only [Exit.bind_trap_iff, parseUsize_trap, nextNumber_trap, Exit.pure_eq,
          reduceCtorEq, and_false, exists_false, or_false, false_iff, not_not]
        exact ⟨Nat.not_lt.mp h₆, fun _ => ⟨Nat.not_lt.mp h₇, fun _ => Nat.not_lt.mp hlen⟩⟩
  · rw [if_pos hunit]
    simp only [reduceCtorEq, false_iff, not_not]
    exact ⟨Nat.not_lt.mp h₆, fun h => absurd h hunit⟩

namespace parsedResponse

/-- A header traps only if its slices are out of range. -/
theorem processHeader_trap (p : parsedResponse) (h : phr_header) :
    processHeader p h = .trap ↔ ¬h.Sliceable := by
  unfold processHeader phr_header.Sliceable
  cases hname : responseHeaders.ofHeader h with
  | none => simp
  | some name =>
    cases name with
    | contentRange => simp [Exit.bind_trap_iff, rangeResponse_trap]
    | acceptRanges =>
      simp only [Exit.bind_trap_iff]
      unfold acceptRanges.ofHeader
      split <;> simp
    | contentLength => simp [Exit.bind_trap_iff, parseUsize_trap]
    | connection =>
      simp only [Exit.bind_trap_iff]
      unfold keepAlive.ofHeader
      split <;> simp
    | contentType => simp
    | contentLocation => simp
    | contentEncoding => simp
    | etag => simp

theorem foldlM_trap (p : parsedResponse) (l : List phr_header) :
    l.foldlM processHeader p = .trap ↔ ¬p.Sliced l := by
  induction l generalizing p with
  | nil => simp [Sliced]
  | cons h l ih =>
    rw [List.foldlM_cons, Exit.bind_trap_iff, processHeader_trap]
    simp only [ih, Sliced]
    by_cases hslice : h.Sliceable
    · simp [hslice]
    · simp [hslice]

theorem processHeaders_trap (rx : rx_response) : processHeaders rx = .trap ↔ ¬rx.Sliced :=
  foldlM_trap _ _

end parsedResponse

theorem rx_response.sliced_of_ne (rx : rx_response)
    (h : parsedResponse.processHeaders rx ≠ .trap) : rx.Sliced := by
  by_contra hno
  exact h ((parsedResponse.processHeaders_trap rx).mpr hno)

/-! ## Responses -/

/-- The response to the HEAD request has what is taken from it. -/
def parsedResponse.Acceptable (max_file_size : Nat) (p : parsedResponse) : Prop :=
  p.status_code = 200 → ∃ n ∈ p.content_length, n ≤ max_file_size →
    ∀ e ∈ p.etag, e.length ≤ etag_len

/-- The response to a range request has a range, and one that begins at the file pointer
`position` has a payload. -/
def parsedResponse.Storable (position : Nat) (p : parsedResponse) : Prop :=
  p.status_code = 206 → ∃ range ∈ p.range, range.start = position → p.payload ≠ none

/-- Nothing is taken from the response that is not there. -/
def Event.Safe (max_file_size : Nat) : Event → Prop
  | .head rx => rx.Sliced ∧
      ∀ p, parsedResponse.processHeaders rx = .ok p → p.Acceptable max_file_size
  | .range position rx => rx.Sliced ∧
      ∀ p, parsedResponse.processHeaders rx = .ok p → p.Storable position
  | .sought _ payload => payload ≠ none
  | _ => True

section Relations

variable {X : Externs} {url : Url} {fileSize : Nat} {s s' : State} (max_file_size : Nat)

theorem throughout_same {P : Event → Prop} (h : s'.log = s.log) : Throughout P s s' := by
  rw [throughout_iff (h.trans (List.append_nil _).symm)]
  simp

theorem Event.safe_of_idle {ev : Event} (h : ev.idle = true) : ev.Safe max_file_size := by
  cases ev with
  | request text => trivial
  | timeout => trivial
  | _ => cases h

theorem seeking_safe (position start : Nat) (payload : Option (List UInt8)) :
    (∀ ev ∈ seeking position start payload, ev.Safe max_file_size) ↔
      (start < position → payload ≠ none) := by
  unfold seeking
  split
  · rename_i hlt
    simp [Event.Safe, hlt]
  · rename_i hge
    simp [hge]

theorem shortage_safe (payload : List UInt8) (n : Nat) :
    ∀ ev ∈ shortage payload n, ev.Safe max_file_size := by
  unfold shortage
  split
  · simp [Event.Safe]
  · simp

theorem Renewed.safe {p : parsedResponse} {x : Exit Error Unit} (h : Renewed url p s x s') :
    Throughout (Event.Safe max_file_size) s s' := by
  cases h with
  | kept => exact throughout_same rfl
  | renewed _ _ _ hlog =>
    rw [throughout_iff hlog]
    simp [Event.Safe]
  | failed _ _ _ _ hlog =>
    rw [throughout_iff hlog]
    simp [Event.Safe]

theorem Renewed.trap {p : parsedResponse} {x : Exit Error Unit} (hurl : url.Complete)
    (h : Renewed url p s x s') : x ≠ .trap := by
  cases h with
  | kept => exact nofun
  | renewed => exact nofun
  | failed _ _ _ _ _ _ htrap => exact fun hx => htrap hx hurl

/-- What becomes of a response traps exactly if it lacks what is stored of it. -/
theorem Stored.trap {p : parsedResponse} {x : Exit Error (Unit ⊕ Unit)} (hurl : url.Complete)
    (h : Stored url p s x s') : x ≠ .trap ↔
      p.Storable s.file.fptr ∧ Throughout (Event.Safe max_file_size) s s' := by
  unfold parsedResponse.Storable
  cases h with
  | unexpected hstatus => simp [hstatus, throughout_same]
  | unranged hstatus hrange => simp [hstatus, hrange]
  | rewound range _ hstatus hrange hlt _ hlog =>
    simp only [ne_eq, reduceCtorEq, not_false_eq_true, true_iff]
    refine ⟨fun _ => ⟨range, hrange, fun heq => absurd heq hlt.ne'⟩, ?_⟩
    rw [throughout_iff hlog]
    simp [Event.Safe]
  | bare range _ hstatus hrange hle hpayload hlog =>
    rw [throughout_iff hlog, seeking_safe]
    simp only [ne_eq, not_true_eq_false, false_iff, not_and]
    intro hstorable hlt
    obtain ⟨range', hrange', hno⟩ := hstorable hstatus
    rw [hrange] at hrange'
    cases hrange'
    have heq : range.start = s.file.fptr := by
      by_contra hne
      exact hlt (by omega)
    exact hno heq hpayload
  | stored range payload _ s₁ y _ hle hstatus hrange hpayload _ hlog hrenewed =>
    have hsafe : Throughout (Event.Safe max_file_size) s s₁ := by
      rw [throughout_iff hlog]
      simp only [List.mem_append, or_imp, forall_and, seeking_safe]
      exact ⟨by simp, shortage_safe max_file_size _ _⟩
    have hy := hrenewed.trap hurl
    have hall : (p.status_code = 206 → ∃ range ∈ p.range,
        range.start = s.file.fptr → p.payload ≠ none) ∧
        Throughout (Event.Safe max_file_size) s s' := by
      refine ⟨fun _ => ⟨range, hrange, fun _ => by simp [hpayload]⟩, ?_⟩
      rw [throughout_trans ⟨_, hlog⟩ hrenewed.extends]
      exact ⟨hsafe, hrenewed.safe max_file_size⟩
    cases y with
    | trap => exact absurd rfl hy
    | _ => simpa [Exit.as] using hall
  | unmoved range e _ hstatus hrange hne hlog =>
    simp only [ne_eq, reduceCtorEq, not_false_eq_true, true_iff]
    exact ⟨fun _ => ⟨range, hrange, fun heq => absurd heq hne⟩, throughout_same hlog⟩
  | unstored range payload n e _ hstatus hrange hle hpayload hlog =>
    simp only [ne_eq, reduceCtorEq, not_false_eq_true, true_iff]
    refine ⟨fun _ => ⟨range, hrange, fun _ => by simp [hpayload]⟩, ?_⟩
    rw [throughout_iff hlog]
    simp only [List.mem_append, or_imp, forall_and, seeking_safe]
    exact ⟨by simp, shortage_safe max_file_size _ _⟩

theorem Answered.safe {rx : rx_response} (h : Answered s rx s') :
    Throughout (Event.Safe max_file_size) s s' ↔
      Event.Safe max_file_size (.range s.file.fptr rx) := by
  obtain ⟨text, es, hes, hidle⟩ := h.log
  have hasked (ev : Event) (hev : ev ∈ .request text :: es) : ev.Safe max_file_size := by
    rcases List.mem_cons.mp hev with rfl | hev
    · trivial
    · exact Event.safe_of_idle max_file_size (hidle ev hev)
  rw [throughout_iff hes]
  constructor
  · exact fun hsafe => hsafe _ (by simp)
  · intro hrange ev hev
    rcases List.mem_append.mp hev with hev | hev
    · exact hasked ev hev
    · rw [List.mem_singleton.mp hev]
      exact hrange

/-- A round traps exactly if its response is not safe. -/
theorem Ranged.trap {x : Exit Error (Unit ⊕ Unit)} (hX : X.Documented) (hurl : url.Complete)
    (h : Ranged X url fileSize s x s') :
    x ≠ .trap ↔ Throughout (Event.Safe max_file_size) s s' := by
  cases h with
  | done => simp [throughout_same]
  | unanswered _ _ _ hun =>
    obtain ⟨es, hes, hidle⟩ := hun.log
    rw [throughout_iff hes]
    exact iff_of_true (fun hx => hun.trap hx hX)
      fun ev hev => Event.safe_of_idle max_file_size (hidle ev hev)
  | refused rx _ _ _ hanswered _ htrap hno =>
    rw [hanswered.safe, ne_eq, htrap, parsedResponse.processHeaders_trap]
    simp [Event.Safe, hno]
  | answered rx p s₁ _ _ _ hanswered hp hstored =>
    rw [throughout_trans hanswered.extends hstored.extends, hanswered.safe,
      hstored.trap max_file_size hurl, hanswered.file]
    have hsliced := rx.sliced_of_ne (by simp [hp])
    simp [Event.Safe, hsliced, hp]

/-- The rounds trap exactly if one of their responses is not safe. -/
theorem rounds_trap {u : Unit} {x : Exit Error Unit} (hX : X.Documented) (hurl : url.Complete)
    (h : Rounds (fun _ => Ranged X url fileSize) u s x s') :
    x ≠ .trap ↔ Throughout (Event.Safe max_file_size) s s' := by
  induction h with
  | leave _ h => simpa using h.trap max_file_size hX hurl
  | again _ _ _ h hrounds ih =>
    have hround := (h.trap max_file_size hX hurl).mp nofun
    rw [throughout_trans h.extends (rounds_extends hrounds), ih]
    exact (and_iff_right hround).symm
  | fail _ h => simpa using h.trap max_file_size hX hurl
  | trap h => simpa using h.trap max_file_size hX hurl
  | halt h => simpa using h.trap max_file_size hX hurl
  | cut => simp [throughout_same]

/-- The response to the HEAD request is safe exactly if it is not accepted with more than there is
room for. -/
theorem head_safe_iff (rx : rx_response) : Event.Safe max_file_size (.head rx) ↔
    acceptHead max_file_size rx ≠ .trap ∧ ∀ fileSize etag,
      acceptHead max_file_size rx = .ok (fileSize, some etag) → etag.length ≤ etag_len := by
  show rx.Sliced ∧ _ ↔ _
  cases hp : parsedResponse.processHeaders rx with
  | ok p =>
    have hsliced := rx.sliced_of_ne (by simp [hp])
    rw [acceptHead_eq hp, and_iff_right hsliced]
    simp only [Exit.ok.injEq, forall_eq']
    unfold parsedResponse.Acceptable
    by_cases hstatus : p.status_code = 200
    · rw [if_neg (not_not.mpr hstatus.symm)]
      cases hlength : p.content_length with
      | none => simp [hstatus]
      | some n =>
        by_cases hmax : max_file_size < n
        · simp [hmax]
        · cases hetag : p.etag with
          | none => simp [hmax]
          | some etag => simp [hstatus, hmax, Nat.not_lt.mp hmax]
    · rw [if_pos (Ne.symm hstatus)]
      simp [hstatus]
  | err e =>
    have hsliced := rx.sliced_of_ne (by simp [hp])
    simp [acceptHead, hp, hsliced]
  | trap =>
    have hno := (parsedResponse.processHeaders_trap rx).mp hp
    simp [acceptHead, hp, hno]
  | halt =>
    have hsliced := rx.sliced_of_ne (by simp [hp])
    simp [acceptHead, hp, hsliced]

theorem Headed.safe {rx : rx_response} (h : Headed s rx s') :
    Throughout (Event.Safe max_file_size) s s' ↔ Event.Safe max_file_size (.head rx) := by
  obtain ⟨es, hes, hidle⟩ := h.log
  have hopened : Event.Safe max_file_size .opened := trivial
  rw [throughout_iff hes]
  simp only [List.cons_append, List.mem_cons, List.mem_append, or_imp, forall_and, forall_eq,
    List.not_mem_nil, false_imp_iff, and_true]
  exact (and_iff_right hopened).trans
    (and_iff_right fun ev hev => Event.safe_of_idle max_file_size (hidle ev hev))

theorem closing_safe {α : Type} (x : Exit Error α) :
    ∀ ev ∈ closing x, ev.Safe max_file_size := by
  cases x with
  | ok a => simp [closing, Event.Safe]
  | err e => simp [closing, Event.Safe]
  | trap => simp [closing]
  | halt => simp [closing]

theorem fetchedExit_trap {x : Exit Error Unit} :
    fetchedExit fileSize s x ≠ .trap ↔ x ≠ .trap := by
  cases x with
  | ok u =>
    simp only [fetchedExit]
    split
    · simp
    · simp
  | _ => rfl

/-- A download traps exactly if one of its responses is not safe. -/
theorem Downloaded.trap {x : Exit Error Unit} (hX : X.Documented) (hurl : url.Complete)
    (h : Downloaded X url max_file_size s x s') :
    x ≠ .trap ↔ Throughout (Event.Safe max_file_size) s s' := by
  have hextend {rx : rx_response} {s₁ : State} {es : List Event} (hheaded : Headed s rx s₁)
      (hlog : s'.log = s₁.log ++ es) (hes : ∀ ev ∈ es, ev.Safe max_file_size) :
      Throughout (Event.Safe max_file_size) s s' ↔ Event.Safe max_file_size (.head rx) := by
    obtain ⟨es', hes', -⟩ := hheaded.log
    rw [throughout_trans ⟨_, hes'⟩ ⟨_, hlog⟩, hheaded.safe, throughout_iff hlog]
    exact and_iff_left hes
  cases h with
  | unopened _ _ _ htrap hlog => exact iff_of_true htrap (throughout_same hlog)
  | unanswered _ es _ _ htrap hlog hidle =>
    refine iff_of_true (fun hx => htrap hx hX) ?_
    rw [throughout_iff hlog]
    intro ev hev
    rcases List.mem_append.mp hev with hev | hev
    · rcases List.mem_cons.mp hev with rfl | hev
      · trivial
      · exact Event.safe_of_idle max_file_size (hidle ev hev)
    · exact closing_safe max_file_size x ev hev
  | unaccepted rx _ s₁ _ hheaded hno _ htrap hlog =>
    rw [hextend hheaded hlog (closing_safe max_file_size x), head_safe_iff, ne_eq, htrap]
    simp [hno]
  | overflow rx size etag _ hheaded haccept hlong =>
    rw [hheaded.safe, head_safe_iff]
    simp only [ne_eq, not_true_eq_false, false_iff, not_and]
    intro _ hfits
    have hfits := hfits size etag haccept
    omega
  | unwritten rx size etag e s₁ _ hheaded haccept hfits hlog =>
    rw [hextend hheaded hlog (by simp [Event.Safe]), head_safe_iff, haccept]
    simp_all
  | fetched rx size etag s₁ s₂ s₃ _ y hheaded haccept hfits _ hlog hrounds _ hlog' =>
    rw [fetchedExit_trap, rounds_trap max_file_size hX hurl hrounds]
    have hhead : Event.Safe max_file_size (.head rx) := by
      rw [head_safe_iff, haccept]
      simp_all
    obtain ⟨es, hes, hidle⟩ := hheaded.log
    have hheaded₂ : Headed s rx s₂ := ⟨es, hlog.trans hes, hidle⟩
    have hextends := rounds_extends hrounds
    rw [throughout_trans (Extends.trans ⟨_, hlog.trans hes⟩ hextends) ⟨_, hlog'⟩,
      throughout_trans ⟨_, hlog.trans hes⟩ hextends, hheaded₂.safe, throughout_iff hlog']
    constructor
    · exact fun hsafe => ⟨⟨hhead, hsafe⟩, closing_safe max_file_size y⟩
    · exact fun hsafe => hsafe.1.2

end Relations

/-! ## The download -/

namespace Reply

end Reply

end Miso.Http

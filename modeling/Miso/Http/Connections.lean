import Miso.Http.Download
import Miso.Zig.Trace

/-!
# Connections that the server closes

A response can announce that its connection is closed behind it.

* `AsAnnounced` — between such a response and the next request the connection is closed and opened
  again;
* `Event.Renewing` — the only responses behind which the loop of `filedownload` reconnects;
* `renewed_iff` — a download does as announced exactly if each such response is one of them.
-/

namespace Miso.Http

open Zig Net Boot

/-! ## The property -/

/-- The response carries `Connection: close`. -/
def rx_response.Closing (rx : rx_response) : Prop :=
  ∃ h ∈ rx.headers, h.name = bytesOf "Connection" ∧ h.text = bytesOf "close"

/-- The server announces that it closes the connection. -/
def Event.Announces : Event → Prop
  | .head rx | .range _ rx => rx.Closing
  | _ => False

def Event.IsRequest : Event → Prop
  | .request _ => True
  | _ => False

/-- What has been recorded since `s` is asked `P` between each event and each later request. -/
def BeforeRequests (P : Event → List Event → Prop) (s s' : State) : Prop :=
  ∃ es, s'.log = s.log ++ es ∧ Between Event.IsRequest P es

/-- The connection is closed and opened again before the next request. -/
def AsAnnounced (s s' : State) : Prop :=
  BeforeRequests (fun ev mid => ev.Announces → [.closed, .opened].Sublist mid) s s'

/-- The response to a range request behind which the loop reconnects: its range does not begin
behind the file pointer, and the last `Connection` header that is processed is `close`. -/
def Event.Renewing : Event → Prop
  | .range position rx => ∃ p, parsedResponse.processHeaders rx = .ok p ∧
      (∃ range ∈ p.range, range.start ≤ position) ∧ p.keep_alive = some .close
  | _ => False

/-- Each response that announces it and is followed by a request is one behind which the loop
reconnects. -/
def Foreseen (s s' : State) : Prop :=
  BeforeRequests (fun ev _ => ev.Announces → ev.Renewing) s s'

/-! ## One response -/

theorem notRequest_of_local {ev : Event} (h : ev.local = true) : ¬ev.IsRequest := by
  cases ev with
  | request text => cases h
  | _ => exact id

theorem notAnnounces_of_local {ev : Event} (h : ev.local = true) : ¬ev.Announces := by
  cases ev with
  | head rx => cases h
  | range position rx => cases h
  | _ => exact id

theorem notAnnounces_of_idle {ev : Event} (h : ev.idle = true) : ¬ev.Announces := by
  cases ev with
  | head rx => cases h
  | range position rx => cases h
  | _ => exact id

/-- The first request is made before anything else happens. -/
def Fresh (es : List Event) : Prop :=
  (∀ ev ∈ es, ¬ev.IsRequest) ∨ ∃ mid ev post, es = mid ++ ev :: post ∧ ev.IsRequest ∧
    ∀ ev ∈ mid, ev.idle = true

theorem fresh_of_idle {es : List Event} (h : ∀ ev ∈ es, ev.idle = true) : Fresh es := by
  by_cases hno : ∀ ev ∈ es, ¬ev.IsRequest
  · exact .inl hno
  · push Not at hno
    obtain ⟨ev, hmem, hev⟩ := hno
    obtain ⟨mid, post, rfl⟩ := List.append_of_mem hmem
    exact .inr ⟨mid, ev, post, rfl, hev, fun ev hev => h ev (by simp [hev])⟩

theorem Fresh.append {es es' : List Event} (h : Fresh es) (h' : ∀ ev ∈ es', ¬ev.IsRequest) :
    Fresh (es ++ es') := by
  rcases h with h | ⟨mid, ev, post, rfl, hev, hmid⟩
  · left
    intro ev hev
    rcases List.mem_append.mp hev with hev | hev
    · exact h ev hev
    · exact h' ev hev
  · exact .inr ⟨mid, ev, post ++ es', by simp, hev, hmid⟩

/-- The connection is renewed before the first request exactly if it is in front of it. -/
theorem until_renewed {a : Prop} {tail es : List Event} (htail : ∀ ev ∈ tail, ¬ev.IsRequest)
    (hfresh : Fresh es) :
    Until Event.IsRequest (fun mid => a → [.closed, .opened].Sublist mid) (tail ++ es) ↔
      (a → (∃ ev ∈ es, ev.IsRequest) → [Event.closed, .opened].Sublist tail) := by
  constructor
  · intro h ha hrequest
    rcases hfresh with hno | ⟨mid, ev, post, rfl, hev, hmid⟩
    · obtain ⟨ev, hmem, hev⟩ := hrequest
      exact absurd hev (hno ev hmem)
    · have hsub := (h (tail ++ mid) ev post (by simp) hev ha).filter fun ev => !ev.idle
      have hnil : mid.filter (fun ev => !ev.idle) = [] := by simpa using hmid
      rw [List.filter_append, hnil, List.append_nil] at hsub
      exact hsub.trans List.filter_sublist
  · intro h mid ev post hsplit hev ha
    obtain ⟨mid', rfl, hes⟩ := split_of_notMem_left hsplit fun hmem => htail ev hmem hev
    exact (h ha ⟨ev, by simp [hes], hev⟩).trans (List.sublist_append_left tail mid')

/-- What is recorded is as announced exactly if it is foreseen. -/
def Matches (es : List Event) : Prop :=
  Between Event.IsRequest (fun ev mid => ev.Announces → [.closed, .opened].Sublist mid) es ↔
    Between Event.IsRequest (fun ev _ => ev.Announces → ev.Renewing) es

theorem matches_of_not {es : List Event} (h : ∀ ev ∈ es, ¬ev.Announces) : Matches es := by
  unfold Matches
  rw [← List.append_nil es, between_skip fun ev hmem _ ha => absurd ha (h ev hmem),
    between_skip fun ev hmem _ ha => absurd ha (h ev hmem)]
  exact iff_of_true between_nil between_nil

/-- A response, what follows it, and what is recorded from the next request on. -/
theorem matches_response (ev : Event) {es rest : List Event} (tail : List Event)
    (hes : ∀ ev ∈ es, ¬ev.Announces) (htail : ∀ ev ∈ tail, ¬ev.IsRequest ∧ ¬ev.Announces)
    (hfresh : Fresh rest)
    (hev : ev.Announces → (∃ ev ∈ rest, ev.IsRequest) →
      ([Event.closed, .opened].Sublist tail ↔ ev.Renewing))
    (hrest : Matches rest) : Matches (es ++ ev :: (tail ++ rest)) := by
  have hskip : ∀ ev ∈ tail, ¬ev.Announces := fun ev hmem => (htail ev hmem).2
  unfold Matches at *
  rw [between_skip fun ev hmem _ ha => absurd ha (hes ev hmem),
    between_skip fun ev hmem _ ha => absurd ha (hes ev hmem), between_cons, between_cons,
    between_skip fun ev hmem _ ha => absurd ha (hskip ev hmem),
    between_skip fun ev hmem _ ha => absurd ha (hskip ev hmem), hrest,
    until_renewed (fun ev hmem => (htail ev hmem).1) hfresh, until_const]
  have hmark : (∃ y ∈ tail ++ rest, y.IsRequest) ↔ ∃ y ∈ rest, y.IsRequest := by
    constructor
    · intro h
      obtain ⟨y, hmem, hy⟩ := h
      rcases List.mem_append.mp hmem with hmem | hmem
      · exact absurd hy (htail y hmem).1
      · exact ⟨y, hmem, hy⟩
    · intro h
      obtain ⟨y, hmem, hy⟩ := h
      exact ⟨y, List.mem_append_right tail hmem, hy⟩
  rw [hmark]
  grind

/-! ## The rounds -/

section Rounds

variable {X : Externs} {url : Url} {max_file_size fileSize : Nat} {s s' : State}

theorem local_notRenewed {es : List Event} (h : ∀ ev ∈ es, ev.local = true) :
    ¬[Event.closed, .opened].Sublist es := by
  intro hsub
  cases h .closed (hsub.subset (by simp))

/-- What is recorded while a response is dealt with: the connection is renewed exactly behind
those that ask for it, and whose range does not begin behind the file pointer. -/
theorem Stored.tail {p : parsedResponse} {x : Exit Error (Unit ⊕ Unit)}
    (h : Stored url p s x s') : ∃ tail, s'.log = s.log ++ tail ∧
      (∀ ev ∈ tail, ¬ev.IsRequest ∧ ¬ev.Announces) ∧ (x.returned = true →
        ([Event.closed, .opened].Sublist tail ↔
          (∃ range ∈ p.range, range.start ≤ s.file.fptr) ∧ p.keep_alive = some .close)) := by
  have hlocal {es : List Event} (hes : ∀ ev ∈ es, ev.local = true) :
      ∀ ev ∈ es, ¬ev.IsRequest ∧ ¬ev.Announces :=
    fun ev hev => ⟨notRequest_of_local (hes ev hev), notAnnounces_of_local (hes ev hev)⟩
  have hwritten (payload : List UInt8) (start n : Nat) :
      ∀ ev ∈ seeking s.file.fptr start (some payload) ++ shortage payload n,
        ev.local = true := by
    intro ev hev
    rcases List.mem_append.mp hev with hev | hev
    · exact seeking_local _ _ _ ev hev
    · exact shortage_local _ _ ev hev
  cases h with
  | unexpected => exact ⟨[], (List.append_nil _).symm, by simp, fun h => absurd h Bool.false_ne_true⟩
  | unranged => exact ⟨[], (List.append_nil _).symm, by simp, fun h => absurd h Bool.false_ne_true⟩
  | rewound range _ _ hrange hlt _ hlog =>
    refine ⟨_, hlog, hlocal (by simp [Event.local]), fun _ => ?_⟩
    refine iff_of_false (local_notRenewed (by simp [Event.local])) ?_
    intro h
    obtain ⟨⟨range', hrange', hle⟩, -⟩ := h
    rw [hrange] at hrange'
    cases hrange'
    omega
  | bare _ _ _ _ _ _ hlog => exact ⟨_, hlog, hlocal (seeking_local _ _ _), fun h => absurd h Bool.false_ne_true⟩
  | stored range payload n s₁ y _ hle _ hrange _ _ hlog hrenewed =>
    cases hrenewed with
    | kept hkeep =>
      refine ⟨_, hlog, hlocal (hwritten _ _ _), fun _ => ?_⟩
      exact iff_of_false (local_notRenewed (hwritten _ _ _)) fun h => hkeep h.2
    | renewed _ hclose _ hlog' =>
      refine ⟨_, by rw [hlog', hlog, List.append_assoc], ?_, fun _ => ?_⟩
      · intro ev hev
        rcases List.mem_append.mp hev with hev | hev
        · exact hlocal (hwritten _ _ _) ev hev
        · rcases List.mem_pair.mp hev with rfl | rfl
          · exact ⟨id, id⟩
          · exact ⟨id, id⟩
      · exact iff_of_true (List.sublist_append_right _ _) ⟨⟨range, hrange, hle⟩, hclose⟩
    | failed _ _ _ _ hlog' hreturned =>
      refine ⟨_, by rw [hlog', hlog, List.append_assoc], ?_, fun hx => ?_⟩
      · intro ev hev
        rcases List.mem_append.mp hev with hev | hev
        · exact hlocal (hwritten _ _ _) ev hev
        · rw [List.mem_singleton.mp hev]
          exact ⟨id, id⟩
      · cases y with
        | ok _ => cases hreturned
        | _ => cases hx
  | unmoved _ _ _ _ _ _ hlog =>
    exact ⟨[], hlog.trans (List.append_nil _).symm, by simp, fun h => absurd h Bool.false_ne_true⟩
  | unstored _ _ _ _ _ _ _ _ _ hlog => exact ⟨_, hlog, hlocal (hwritten _ _ _), fun h => absurd h Bool.false_ne_true⟩

/-- A round, and what is recorded behind it: nothing of importance, if it does not return. -/
theorem Ranged.matches {x : Exit Error (Unit ⊕ Unit)} {rest : List Event}
    (h : Ranged X url fileSize s x s') (hrest : Matches rest) (hfresh : Fresh rest)
    (hend : x.returned = false → ∀ ev ∈ rest, ¬ev.IsRequest ∧ ¬ev.Announces) :
    ∃ es, s'.log = s.log ++ es ∧ Matches (es ++ rest) ∧ Fresh (es ++ rest) := by
  have hasked (text : String) {es : List Event} (hidle : ∀ ev ∈ es, ev.idle = true) :
      ∀ ev ∈ Event.request text :: es, ¬ev.Announces := by
    intro ev hev
    rcases List.mem_cons.mp hev with rfl | hev
    · exact id
    · exact notAnnounces_of_idle (hidle ev hev)
  have hfirst (text : String) (es : List Event) : Fresh (.request text :: es) :=
    .inr ⟨[], .request text, es, rfl, trivial, by simp⟩
  have hreturned (hrequest : ∃ ev ∈ rest, ev.IsRequest) : x.returned = true := by
    obtain ⟨ev, hmem, hev⟩ := hrequest
    by_contra hno
    exact (hend (by simpa using hno) ev hmem).1 hev
  cases h with
  | done => exact ⟨[], (List.append_nil _).symm, hrest, hfresh⟩
  | unanswered _ _ _ hun =>
    obtain ⟨es, hes, hidle⟩ := hun.log
    have hend := hend hun.exit
    refine ⟨es, hes, matches_of_not ?_, (fresh_of_idle hidle).append fun ev hev => (hend ev hev).1⟩
    intro ev hev
    rcases List.mem_append.mp hev with hev | hev
    · exact notAnnounces_of_idle (hidle ev hev)
    · exact (hend ev hev).2
  | refused rx _ _ _ hanswered hno =>
    obtain ⟨text, es, hes, hidle⟩ := hanswered.log
    refine ⟨_, hes, ?_, hfirst text _⟩
    have hmatches := matches_response (.range s.file.fptr rx) [] (hasked text hidle) (by simp)
      hfresh (fun _ hrequest => by rw [hreturned hrequest] at hno; cases hno) hrest
    simpa using hmatches
  | answered rx p s₁ _ _ _ hanswered hp hstored =>
    obtain ⟨text, es, hes, hidle⟩ := hanswered.log
    obtain ⟨tail, htail, hquiet, hrenewed⟩ := hstored.tail
    have hrenewing (hx : x.returned = true) : [Event.closed, .opened].Sublist tail ↔
        (Event.range s.file.fptr rx).Renewing := by
      rw [hrenewed hx, hanswered.file]
      simp [Event.Renewing, hp]
    refine ⟨_, by rw [htail, hes, List.append_assoc], ?_, hfirst text _⟩
    have hmatches := matches_response (.range s.file.fptr rx) tail (hasked text hidle) hquiet
      hfresh (fun _ hrequest => hrenewing (hreturned hrequest)) hrest
    simpa using hmatches

/-- All rounds. -/
theorem rounds_matches {u : Unit} {x : Exit Error Unit} {rest : List Event}
    (h : Rounds (fun _ => Ranged X url fileSize) u s x s')
    (hrest : ∀ ev ∈ rest, ¬ev.IsRequest ∧ ¬ev.Announces) :
    ∃ es, s'.log = s.log ++ es ∧ Matches (es ++ rest) ∧ Fresh (es ++ rest) := by
  have hmatches : Matches rest := matches_of_not fun ev hev => (hrest ev hev).2
  have hfresh : Fresh rest := .inl fun ev hev => (hrest ev hev).1
  induction h with
  | leave _ h => exact h.matches hmatches hfresh nofun
  | again _ _ _ h _ ih =>
    obtain ⟨es, hes, hmatches', hfresh'⟩ := ih
    obtain ⟨es', hes', hall⟩ := h.matches hmatches' hfresh' nofun
    refine ⟨es' ++ es, by rw [hes, hes', List.append_assoc], ?_⟩
    rw [List.append_assoc]
    exact hall
  | fail _ h => exact h.matches hmatches hfresh fun _ => hrest
  | trap h => exact h.matches hmatches hfresh fun _ => hrest
  | halt h => exact h.matches hmatches hfresh fun _ => hrest
  | cut => exact ⟨[], (List.append_nil _).symm, hmatches, hfresh⟩

end Rounds

/-! ## The download -/

section Download

variable {X : Externs} {url : Url} {max_file_size : Nat} {s s' : State}

theorem closing_plain {α : Type} (x : Exit Error α) :
    ∀ ev ∈ closing x, ¬ev.IsRequest ∧ ¬ev.Announces := by
  cases x with
  | ok a => simp [closing, Event.IsRequest, Event.Announces]
  | err e => simp [closing, Event.IsRequest, Event.Announces]
  | trap => simp [closing]
  | halt => simp [closing]

/-- The response to the HEAD request, and what is recorded behind it. -/
theorem Headed.matches {rx : rx_response} {rest : List Event} {s₁ : State} (h : Headed s rx s₁)
    (hlog : s'.log = s₁.log ++ rest) (hrest : Matches rest) (hfresh : Fresh rest) :
    ∃ es, s'.log = s.log ++ es ∧ Matches es := by
  obtain ⟨es, hes, hidle⟩ := h.log
  refine ⟨_, by rw [hlog, hes, List.append_assoc], ?_⟩
  have hplain : ∀ ev ∈ Event.opened :: es, ¬ev.Announces := by
    intro ev hev
    rcases List.mem_cons.mp hev with rfl | hev
    · exact id
    · exact notAnnounces_of_idle (hidle ev hev)
  have hmatches := matches_response (.head rx) [] hplain (by simp) hfresh
    (fun _ _ => by simp [Event.Renewing]) hrest
  simpa using hmatches

theorem Downloaded.matches {x : Exit Error Unit} (h : Downloaded X url max_file_size s x s') :
    ∃ es, s'.log = s.log ++ es ∧ Matches es := by
  have hplain {es : List Event} (hes : ∀ ev ∈ es, ¬ev.IsRequest ∧ ¬ev.Announces) :
      Matches es ∧ Fresh es :=
    ⟨matches_of_not fun ev hev => (hes ev hev).2, .inl fun ev hev => (hes ev hev).1⟩
  cases h with
  | unopened _ _ _ _ hlog =>
    exact ⟨[], hlog.trans (List.append_nil _).symm, matches_of_not (by simp)⟩
  | unanswered _ es _ _ _ hlog hidle =>
    refine ⟨_, hlog, matches_of_not ?_⟩
    intro ev hev
    rcases List.mem_append.mp hev with hev | hev
    · rcases List.mem_cons.mp hev with rfl | hev
      · exact id
      · exact notAnnounces_of_idle (hidle ev hev)
    · exact (closing_plain x ev hev).2
  | unaccepted rx _ s₁ _ hheaded _ _ _ hlog =>
    obtain ⟨hmatches, hfresh⟩ := hplain (closing_plain x)
    exact hheaded.matches hlog hmatches hfresh
  | overflow rx _ _ _ hheaded =>
    exact hheaded.matches (List.append_nil _).symm (matches_of_not (by simp)) (.inl (by simp))
  | unwritten rx _ _ e s₁ _ hheaded _ _ hlog =>
    obtain ⟨hmatches, hfresh⟩ := hplain (closing_plain (.err e : Exit Error Unit))
    exact hheaded.matches hlog hmatches hfresh
  | fetched rx _ _ s₁ s₂ s₃ _ y hheaded _ _ _ hlog hrounds _ hlog' =>
    obtain ⟨es, hes, hmatches, hfresh⟩ := rounds_matches hrounds (closing_plain y)
    exact hheaded.matches (by rw [hlog', hes, hlog, List.append_assoc]) hmatches hfresh

end Download

/-- **The connection is renewed behind some responses only.**  In every download each response
that announces the end of its connection is followed by a new connection before the next request,
exactly if each of them is one behind which the loop reconnects. -/
theorem renewed_iff (X : Externs) (fuel : Nat) (url : Except Error Url)
    (block_size max_file_size : Nat) (s : State) :
    AsAnnounced s (filedownload X fuel url block_size max_file_size s).2 ↔
      Foreseen s (filedownload X fuel url block_size max_file_size s).2 := by
  have hmatches : ∃ es, (filedownload X fuel url block_size max_file_size s).2.log =
      s.log ++ es ∧ Matches es := by
    cases url with
    | error e => exact ⟨[], (List.append_nil _).symm, matches_of_not (by simp)⟩
    | ok u =>
      by_cases hurl : u.Complete
      · exact Downloaded.matches (filedownload_spec X fuel hurl block_size max_file_size s)
      · rw [filedownload_incomplete X fuel hurl block_size max_file_size s]
        exact ⟨[], (List.append_nil _).symm, matches_of_not (by simp)⟩
  obtain ⟨es, hes, hmatches⟩ := hmatches
  constructor
  · intro h
    obtain ⟨es', hes', h⟩ := h
    rw [hes] at hes'
    rw [← List.append_cancel_left hes'] at h
    exact ⟨es, hes, hmatches.mp h⟩
  · intro h
    obtain ⟨es', hes', h⟩ := h
    rw [hes] at hes'
    rw [← List.append_cancel_left hes'] at h
    exact ⟨es, hes, hmatches.mpr h⟩

/-- A response and a request behind it, without a `close` between them. -/
theorem not_asAnnounced {s s' : State} (n m : Nat) (hs : s.log = []) (hlt : n < m)
    (hev : ∃ ev ∈ s'.log[n]?, ev.Announces) (hreq : ∃ ev ∈ s'.log[m]?, ev.IsRequest)
    (hmid : .closed ∉ (s'.log.take m).drop (n + 1)) : ¬AsAnnounced s s' := by
  intro h
  obtain ⟨es, hes, h⟩ := h
  rw [hs, List.nil_append] at hes
  rw [hes] at hev hreq hmid
  obtain ⟨ev, hev, hannounces⟩ := hev
  obtain ⟨req, hreq, hrequest⟩ := hreq
  obtain ⟨hm, rfl⟩ := List.getElem?_eq_some_iff.mp hreq
  obtain ⟨hn, rfl⟩ := List.getElem?_eq_some_iff.mp hev
  have hsub := h _ _ _ _ _ (eq_between hlt hm) hrequest hannounces
  exact hmid (hsub.subset (by simp))

namespace Reply

/-- The response to the HEAD request announces the end of the connection. -/
def closingHead : List Reply :=
  [⟨200, [("Content-Length", "4"), ("Connection", "close")], ""⟩,
   ⟨206, [("Content-Range", "bytes 0-3/4")], "firm"⟩]

/-- The response with a range that is to come later does. -/
def closingRewound : List Reply :=
  [⟨200, [("Content-Length", "4")], ""⟩,
   ⟨206, [("Content-Range", "bytes 2-3/4"), ("Connection", "close")], "rm"⟩,
   ⟨206, [("Content-Range", "bytes 0-3/4")], "firm"⟩]

end Reply

instance (rx : rx_response) : Decidable rx.Closing :=
  inferInstanceAs (Decidable (∃ h ∈ rx.headers, _ ∧ _))

instance (ev : Event) : Decidable ev.Announces :=
  match ev with
  | .head rx | .range _ rx => inferInstanceAs (Decidable rx.Closing)
  | .opened | .closed | .request _ | .timeout | .rewound | .sought _ _ | .short => isFalse id

instance (ev : Event) : Decidable ev.IsRequest :=
  match ev with
  | .request _ => isTrue trivial
  | .opened | .closed | .head _ | .range _ _ | .timeout | .rewound | .sought _ _ | .short =>
    isFalse id

/-- Both downloads succeed with a request on a connection that is to be closed. -/
theorem closed_reused :
    ((Reply.download Reply.closingHead).1 = .ok () ∧
      ¬AsAnnounced (Reply.arriving Reply.closingHead) (Reply.download Reply.closingHead).2) ∧
    ((Reply.download Reply.closingRewound).1 = .ok () ∧
      ¬AsAnnounced (Reply.arriving Reply.closingRewound)
        (Reply.download Reply.closingRewound).2) := by
  refine ⟨⟨by decide +kernel, ?_⟩, by decide +kernel, ?_⟩
  · exact not_asAnnounced 2 3 rfl (by decide) (by decide +kernel) (by decide +kernel)
      (by decide +kernel)
  · exact not_asAnnounced 4 6 rfl (by decide) (by decide +kernel) (by decide +kernel)
      (by decide +kernel)

end Miso.Http

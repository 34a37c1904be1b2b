import Miso.Http.Download

/-!
# The content of a finished download

* `Serves` — the payload of a response is a run of the resource, from the advertised start on;
* `rounds_isPrefix` — the file holds a prefix of the resource, whatever way the file pointer takes;
* `download_equals` — a download that succeeds has stored the resource.
-/

namespace Miso.Http

open Zig Net Boot

/-- The length of the resource is announced. -/
def Reports (resource : List UInt8) (rx : rx_response) : Prop :=
  ∀ p, parsedResponse.processHeaders rx = .ok p → p.content_length = some resource.length

/-- A part of the resource, from the advertised start on, if the response has one. -/
def parsedResponse.Part (resource : List UInt8) (p : parsedResponse) : Prop :=
  p.status_code = 206 → ∃ range ∈ p.range, ∃ payload ∈ p.payload, payload ≠ [] ∧
    payload <+: resource.drop range.start

instance (resource : List UInt8) (p : parsedResponse) : Decidable (p.Part resource) :=
  inferInstanceAs (Decidable (_ → ∃ range ∈ p.range, ∃ payload ∈ p.payload, payload ≠ [] ∧
    payload <+: resource.drop range.start))

/-- A part of the resource is sent. -/
def Serves (resource : List UInt8) (rx : rx_response) : Prop :=
  ∀ p, parsedResponse.processHeaders rx = .ok p → p.Part resource

instance (resource : List UInt8) (rx : rx_response) : Decidable (Reports resource rx) :=
  Exit.decidableForallOk _ _

instance (resource : List UInt8) (rx : rx_response) : Decidable (Serves resource rx) :=
  Exit.decidableForallOk _ _

/-- The response is one that a server of the resource gives. -/
def Event.Honest (resource : List UInt8) : Event → Prop
  | .head rx => Reports resource rx
  | .range _ rx => Serves resource rx
  | _ => True

instance (resource : List UInt8) (ev : Event) : Decidable (ev.Honest resource) :=
  match ev with
  | .head rx => inferInstanceAs (Decidable (Reports resource rx))
  | .range _ rx => inferInstanceAs (Decidable (Serves resource rx))
  | .opened | .closed | .request _ | .timeout | .rewound | .sought _ _ | .short => isTrue trivial

/-! ## Writing within a prefix -/

theorem take_of_isPrefix {content resource : List UInt8} {k : Nat} (h : content <+: resource)
    (hk : k ≤ content.length) : content.take k = resource.take k := by
  obtain ⟨rest, rfl⟩ := h
  exact (List.take_append_of_le_length hk).symm

theorem splice_isPrefix {content data resource : List UInt8} {start : Nat}
    (hcontent : content <+: resource) (hstart : start ≤ content.length)
    (hdata : data <+: resource.drop start) : spliceAt content start data <+: resource := by
  have hfront : content.take start ++ data = resource.take (start + data.length) := by
    rw [take_of_isPrefix hcontent hstart, List.take_add, ← List.prefix_iff_eq_take.mp hdata]
  unfold spliceAt
  rw [hfront]
  by_cases hle : start + data.length ≤ content.length
  · rw [← take_of_isPrefix hcontent hle, List.take_append_drop]
    exact hcontent
  · rw [List.drop_eq_nil_of_le (by omega), List.append_nil]
    exact List.take_prefix _ _

/-- A part of the payload, written at the start of its range. -/
theorem stored_isPrefix {f : File} {payload resource : List UInt8} (n : Nat)
    (hcontent : f.content <+: resource) (hpayload : payload <+: resource.drop f.fptr) :
    (f.stored payload n).content <+: resource := by
  unfold File.stored
  split
  · apply splice_isPrefix hcontent f.bound
    exact (List.take_prefix n payload).trans hpayload
  · exact splice_isPrefix hcontent f.bound hpayload

/-! ## The rounds -/

section Rounds

variable {X : Externs} {url : Url} {fileSize : Nat} {s s' : State}

/-- A round keeps to the resource. -/
theorem Ranged.held {resource : List UInt8} {r : Unit ⊕ Unit}
    (h : Ranged X url fileSize s (.ok r) s') (hpre : s.file.content <+: resource)
    (hhonest : ∀ ev, Since s s' ev → ev.Honest resource) : s'.file.content <+: resource := by
  generalize hx : (Exit.ok r : Exit Error (Unit ⊕ Unit)) = x at h
  cases h with
  | done => exact hpre
  | unanswered _ _ _ hun =>
    rw [← hx] at hun
    cases hun.exit
  | refused _ _ _ _ _ hreturned =>
    rw [← hx] at hreturned
    cases hreturned
  | answered rx p s₁ _ _ _ hanswered hp hstored =>
    have hpre₁ : s₁.file.content <+: resource := by
      rw [hanswered.file]
      exact hpre
    have hrx := hhonest _ (hanswered.since.extend hstored.extends)
    cases hstored with
    | unexpected => cases hx
    | unranged => cases hx
    | rewound _ _ _ _ _ hfile =>
      rw [hfile]
      exact hpre₁
    | bare => cases hx
    | stored range payload n s₂ _ _ hle hstatus hrange hpayload hfile _ hrenewed =>
      obtain ⟨range', hrange', payload', hpayload', -, hdata⟩ := hrx p hp hstatus
      rw [hrange] at hrange'
      rw [hpayload] at hpayload'
      cases hrange'
      cases hpayload'
      rw [hrenewed.file, hfile]
      exact stored_isPrefix n hpre₁ hdata
    | unmoved => cases hx
    | unstored => cases hx

/-- **The file holds a prefix of the resource**, and has been filled, when the loop is left. -/
theorem rounds_isPrefix {resource : List UInt8} {u u' : Unit}
    (h : Rounds (fun _ => Ranged X url fileSize) u s (.ok u') s')
    (hpre : s.file.content <+: resource)
    (hhonest : ∀ ev, Since s s' ev → ev.Honest resource) :
    s'.file.content <+: resource ∧ fileSize ≤ s'.file.fptr := by
  generalize hx : (Exit.ok u' : Exit Error Unit) = x at h
  induction h with
  | leave _ h =>
    refine ⟨h.held hpre hhonest, ?_⟩
    obtain ⟨rfl, hge⟩ := h.left
    exact hge
  | again _ s₁ _ h hrounds ih =>
    have hpre₁ := h.held hpre fun ev hev =>
      hhonest ev (hev.extend (rounds_extends hrounds))
    exact ih hpre₁ (fun ev hev => hhonest ev (h.extends.since hev)) hx
  | fail => cases hx
  | trap => cases hx
  | halt => cases hx
  | cut => cases hx

end Rounds

/-! ## The download -/

/-- **A finished download equals the resource.** -/
theorem download_equals (X : Externs) {fuel block_size max_file_size : Nat}
    {url : Except Error Url} {resource : List UInt8} {s s' : State}
    (h : filedownload X fuel url block_size max_file_size s = (.ok (), s'))
    (hhonest : ∀ ev, Since s s' ev → ev.Honest resource) :
    s'.file.size = resource.length ∧ s'.file.content = resource := by
  obtain ⟨u, rfl, hurl⟩ := filedownload_complete h
  have hdownloaded := wp_of_run (filedownload_spec X fuel hurl block_size max_file_size s) h
  obtain ⟨rx, fileSize, etag, s₁, s₂, s₃, hheaded, haccept, hempty, hlog, hrounds, hsize, hfile,
    hextends⟩ := hdownloaded.succeeded rfl
  obtain ⟨es, hes, -⟩ := hheaded.log
  have hsince : Since s s₂ (.head rx) := ⟨_, hlog.trans hes, by simp⟩
  obtain ⟨p, hp, -, hlength, -⟩ := acceptHead_ok haccept
  have hannounced : fileSize = resource.length := by
    have hreports := hhonest _ (hsince.extend ((rounds_extends hrounds).trans hextends)) p hp
    rw [hlength] at hreports
    exact Option.some.inj hreports
  obtain ⟨hpre, -⟩ := @rounds_isPrefix _ _ _ _ _ resource _ _ hrounds
    (by rw [hempty]; exact List.nil_prefix)
    (fun ev hev => hhonest ev (Extends.since ⟨_, hlog.trans hes⟩ (hev.extend hextends)))
  have hbound := s₃.file.bound
  have hwhole : s₃.file.content = resource := by
    apply hpre.eq_of_length
    have hle := hpre.length_le
    omega
  rw [hfile]
  exact ⟨congrArg List.length hwhole, hwhole⟩

namespace Reply

def firmware : List UInt8 := bytesOf "firmware"

/-- The length of the firmware, its first half twice, and the rest from an earlier start. -/
def rewinding : List Reply :=
  [⟨200, [("Content-Length", "8")], ""⟩,
   ⟨206, [("Content-Range", "bytes 0-3/8")], "firm"⟩,
   ⟨206, [("Content-Range", "bytes 0-3/8")], "firm"⟩,
   ⟨206, [("Content-Range", "bytes 2-7/8"), ("Connection", "close")], "rmware"⟩]

/-- The card has room for one byte, when the first half is written for the first time. -/
def rewindingState : State :=
  .smooth (rewinding.flatMap fun r => [.timeout, .bytes r.bytes]) fun n => if n = 0 then 1 else 8

end Reply

/-- What a download leaves behind, with a short write, a second attempt and a step back. -/
def rewound : State :=
  (filedownload (.parsing Reply.rewinding) 20 (.ok .example) 4 100 Reply.rewindingState).2

theorem download_equals_rewound :
    rewound.file.size = Reply.firmware.length ∧ rewound.file.content = Reply.firmware := by
  have hhonest : ∀ ev ∈ rewound.log, ev.Honest Reply.firmware := by decide +kernel
  exact download_equals (.parsing Reply.rewinding) (Prog.run_of_exit (by decide +kernel))
    fun ev hev => hhonest ev hev.mem

end Miso.Http

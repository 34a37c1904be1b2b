import Miso.Http.Client
import Miso.Net.TlsSpec

/-!
# What the download can do

One specification for each function under `filedownload`.

* `Received` — the end of `recieveResponse`: nothing but timeouts is recorded;
* `Stored` — everything that may become of the response to a range request;
* `Ranged` — everything that one round of the loop of `filedownload` may do.
-/

namespace Miso.Http

open Zig Net Boot

/-- picohttpparser as it is documented: it consumes at most what it is given, and accepts only
responses with a status. -/
structure Externs.Documented (X : Externs) : Prop where
  consumed (buf : List UInt8) (num_headers last_len : Nat) :
    (X.phr_parse_response buf num_headers last_len).pret ≤ buf.length
  status (buf : List UInt8) (num_headers last_len : Nat) :
    0 < (X.phr_parse_response buf num_headers last_len).pret →
      0 ≤ (X.phr_parse_response buf num_headers last_len).status

/-- The components without which no connection is opened. -/
def Url.Complete (url : Url) : Prop := url.uri.host.isSome ∧ url.uri.port.isSome

/-! ## Records -/

/-- The record has grown. -/
def Extends (s s' : State) : Prop := ∃ es, s'.log = s.log ++ es

/-- The event has been recorded since `s`. -/
def Since (s s' : State) (ev : Event) : Prop := ∃ es, s'.log = s.log ++ es ∧ ev ∈ es

theorem Extends.refl (s : State) : Extends s s := ⟨[], (List.append_nil _).symm⟩

theorem Extends.trans {s₁ s₂ s₃ : State} (h : Extends s₁ s₂) (h' : Extends s₂ s₃) :
    Extends s₁ s₃ := by
  obtain ⟨es, hes⟩ := h
  obtain ⟨es', hes'⟩ := h'
  exact ⟨es ++ es', by rw [hes', hes, List.append_assoc]⟩

theorem Since.mem {s s' : State} {ev : Event} (h : Since s s' ev) : ev ∈ s'.log := by
  obtain ⟨es, hes, hev⟩ := h
  rw [hes]
  exact List.mem_append_right _ hev

theorem Since.extend {s₁ s₂ s₃ : State} {ev : Event} (h : Since s₁ s₂ ev) (h' : Extends s₂ s₃) :
    Since s₁ s₃ ev := by
  obtain ⟨es, hes, hev⟩ := h
  obtain ⟨es', hes'⟩ := h'
  exact ⟨es ++ es', by rw [hes', hes, List.append_assoc], List.mem_append_left _ hev⟩

theorem Extends.since {s₁ s₂ s₃ : State} {ev : Event} (h : Extends s₁ s₂) (h' : Since s₂ s₃ ev) :
    Since s₁ s₃ ev := by
  obtain ⟨es, hes⟩ := h
  obtain ⟨es', hes', hev⟩ := h'
  exact ⟨es ++ es', by rw [hes', hes, List.append_assoc], List.mem_append_right _ hev⟩

/-- Everything that has been recorded since `s` satisfies `P`. -/
def Throughout (P : Event → Prop) (s s' : State) : Prop := ∀ ev, Since s s' ev → P ev

section Throughout

variable {P : Event → Prop} {s₁ s₂ s₃ : State}

theorem throughout_iff {es : List Event} (h : s₂.log = s₁.log ++ es) :
    Throughout P s₁ s₂ ↔ ∀ ev ∈ es, P ev := by
  constructor
  · intro hP ev hev
    exact hP ev ⟨es, h, hev⟩
  · intro hP ev hsince
    obtain ⟨es', hes', hev⟩ := hsince
    rw [h] at hes'
    rw [← List.append_cancel_left hes'] at hev
    exact hP ev hev

theorem throughout_trans (h : Extends s₁ s₂) (h' : Extends s₂ s₃) :
    Throughout P s₁ s₃ ↔ Throughout P s₁ s₂ ∧ Throughout P s₂ s₃ := by
  obtain ⟨es, hes⟩ := h
  obtain ⟨es', hes'⟩ := h'
  have hall : s₃.log = s₁.log ++ (es ++ es') := by rw [hes', hes, List.append_assoc]
  rw [throughout_iff hes, throughout_iff hes', throughout_iff hall]
  simp only [List.mem_append, or_imp, forall_and]

end Throughout

/-! ## Headers -/

namespace parsedResponse

/-- What a header tells about the response. -/
inductive Field where
  | range (r : Option rangeResponse)
  | accept_ranges (r : acceptRanges)
  | content_length (n : Nat)
  | etag (e : List UInt8)
  | keep_alive (k : keepAlive)
  | other

/-- The field is set. -/
def Field.set (p : parsedResponse) : Field → parsedResponse
  | range r => { p with range := r }
  | accept_ranges r => { p with accept_ranges := some r }
  | content_length n => { p with content_length := some n }
  | etag e => { p with etag := some e }
  | keep_alive k => { p with keep_alive := some k }
  | other => p

/-- The header as it is parsed. -/
def field (h : phr_header) : Exit Error Field :=
  match responseHeaders.ofHeader h with
  | some .contentRange => do
    let r ← rangeResponse.ofHeader h
    pure (.range r)
  | some .acceptRanges => do
    let r ← acceptRanges.ofHeader h
    pure (.accept_ranges r)
  | some .contentLength => do
    let n ← parseUsize h.text
    pure (.content_length n)
  | some .etag => pure (.etag h.text)
  | some .connection => do
    let k ← keepAlive.ofHeader h
    pure (.keep_alive k)
  | _ => pure .other

/-- **A header is parsed, and its field set.** -/
theorem processHeader_eq (p : parsedResponse) (h : phr_header) :
    processHeader p h = (field h >>= fun f => pure (f.set p)) := by
  unfold processHeader field
  cases responseHeaders.ofHeader h with
  | none => rfl
  | some name =>
    cases name with
    | contentRange => cases rangeResponse.ofHeader h <;> rfl
    | acceptRanges => cases acceptRanges.ofHeader h <;> rfl
    | contentLength => cases parseUsize h.text <;> rfl
    | connection => cases keepAlive.ofHeader h <;> rfl
    | _ => rfl

/-- The status and the payload do not depend on the headers. -/
theorem processHeader_kept {p q : parsedResponse} {h : phr_header}
    (hq : processHeader p h = .ok q) : q.status_code = p.status_code ∧ q.payload = p.payload := by
  rw [processHeader_eq] at hq
  cases hf : field h with
  | ok f =>
    rw [hf] at hq
    cases hq
    cases f <;> exact ⟨rfl, rfl⟩
  | _ =>
    rw [hf] at hq
    cases hq

theorem foldlM_kept {l : List phr_header} {p q : parsedResponse}
    (hq : l.foldlM processHeader p = .ok q) :
    q.status_code = p.status_code ∧ q.payload = p.payload := by
  induction l generalizing p with
  | nil =>
    cases hq
    exact ⟨rfl, rfl⟩
  | cons h l ih =>
    rw [List.foldlM_cons] at hq
    cases hr : processHeader p h with
    | ok r =>
      rw [hr] at hq
      obtain ⟨hstatus, hpayload⟩ := ih hq
      obtain ⟨hstatus', hpayload'⟩ := processHeader_kept hr
      exact ⟨hstatus.trans hstatus', hpayload.trans hpayload'⟩
    | _ =>
      rw [hr] at hq
      cases hq

theorem processHeaders_payload {rx : rx_response} {p : parsedResponse}
    (hp : processHeaders rx = .ok p) : p.payload = rx.payload := (foldlM_kept hp).2

end parsedResponse

/-! ## The file -/

namespace File

/-- The file after `n` bytes of the payload have been stored at the file pointer, which goes back
if they are not all of them. -/
def stored (f : File) (payload : List UInt8) (n : Nat) : File :=
  if n < payload.length then
    (f.put (payload.take n)).moveTo f.fptr
      ((Nat.le_add_right _ _).trans (f.put (payload.take n)).bound)
  else f.put payload

end File

/-! ## Calls -/

section Calls

variable (s : State)

@[simp] theorem wp_record (l : List Event) (Q : Exit Error Unit → State → Prop) :
    wp (record l) Q s ↔ Q (.ok ()) { s with log := s.log ++ l } := Iff.rfl

@[simp] theorem wp_tell (Q : Exit Error Nat → State → Prop) :
    wp file.tell Q s ↔ Q (.ok s.file.fptr) s := Iff.rfl

@[simp] theorem wp_put (buf : List UInt8) (Q : Exit Error Nat → State → Prop) :
    wp (file.put buf) Q s ↔ Q (.ok (buf.take (s.env.room 0)).length)
      { s with file := s.file.put (buf.take (s.env.room 0)), env := s.env.advanceRoom } := Iff.rfl

@[simp] theorem wp_sl_Send (Q : Exit Error Int → State → Prop) :
    wp connection.sl_Send Q s ↔
      Q (.ok (s.env.sl_Send 0)) { s with env := s.env.advanceSend } := Iff.rfl

theorem check_spec (a : Fs) : wp (file.check a) (fun x s' =>
    (s'.file = s.file ∧ s'.log = s.log ∧ s'.link = s.link) ∧
      (x = .ok () ∨ ∃ e, x = .err e)) s := by
  unfold wp file.check
  cases s.env.fs a 0 with
  | none => exact ⟨⟨rfl, rfl, rfl⟩, .inl rfl⟩
  | some r => exact ⟨⟨rfl, rfl, rfl⟩, .inr ⟨_, rfl⟩⟩

theorem lseek_spec {ofs : Nat} (h : ofs ≤ s.file.content.length) :
    wp (file.lseek ofs) (fun x s' => (s'.log = s.log ∧ s'.link = s.link) ∧
      (x = .ok () ∧ s'.file = s.file.moveTo ofs h ∨ ∃ e, x = .err e)) s := by
  unfold file.lseek
  rw [wp_bind]
  apply wp_mono (check_spec s .f_lseek)
  rintro x s' ⟨⟨hfile, hlog, hlink⟩, rfl | ⟨e, rfl⟩⟩
  · refine ⟨⟨hlog, hlink⟩, .inl ⟨rfl, ?_⟩⟩
    show s'.file.seek ofs _ = _
    rw [hfile]
    exact dif_pos h
  · exact ⟨⟨hlog, hlink⟩, .inr ⟨e, rfl⟩⟩

theorem write_spec (payload : List UInt8) : wp (file.write payload) (fun x s' => ∃ n,
    n ≤ payload.length ∧ (s'.file = s.file.put (payload.take n) ∧ s'.log = s.log ∧
      s'.link = s.link) ∧ (x = .ok n ∨ ∃ e, x = .err e)) s := by
  have hlength : (payload.take (s.env.room 0)).length = min (s.env.room 0) payload.length :=
    List.length_take
  have htake : payload.take (s.env.room 0) = payload.take (min (s.env.room 0) payload.length) := by
    rw [List.take_eq_take_iff]
    omega
  have hnot : ¬payload.length < (payload.take (s.env.room 0)).length := by omega
  unfold file.write
  rw [wp_bind, wp_put, thenPost_ok, wp_bind]
  apply wp_mono (check_spec _ .f_write)
  intro x s' hx
  obtain ⟨⟨hfile, hlog, hlink⟩, hx⟩ := hx
  rw [htake] at hfile
  rcases hx with rfl | ⟨e, rfl⟩
  · rw [thenPost_ok, wp_ite, if_neg hnot, wp_pure, hlength]
    exact ⟨_, Nat.min_le_right _ _, ⟨hfile, hlog, hlink⟩, .inl rfl⟩
  · exact ⟨_, Nat.min_le_right _ _, ⟨hfile, hlog, hlink⟩, .inr ⟨e, rfl⟩⟩

/-- The record of a write of `n` bytes. -/
def shortage (payload : List UInt8) (n : Nat) : List Event :=
  if n < payload.length then [.short] else []

theorem store_spec (payload : List UInt8) : wp (store payload) (fun x s' => ∃ n,
    (s'.log = s.log ++ shortage payload n ∧ s'.link = s.link) ∧
      (x = .ok () ∧ s'.file = s.file.stored payload n ∨ ∃ e, x = .err e)) s := by
  unfold store
  rw [wp_bind, wp_tell, thenPost_ok, wp_bind]
  apply wp_mono (write_spec s payload)
  intro x s₁ hx
  obtain ⟨n, hn, ⟨hfile, hlog, hlink⟩, rfl | ⟨e, rfl⟩⟩ := hx
  · have hsync (s₂ : State) (hfile' : s₂.file = s.file.stored payload n)
        (hlog' : s₂.log = s.log ++ shortage payload n) (hlink' : s₂.link = s.link) :
        wp file.sync (fun x s' => ∃ n, (s'.log = s.log ++ shortage payload n ∧ s'.link = s.link) ∧
          (x = .ok () ∧ s'.file = s.file.stored payload n ∨ ∃ e, x = .err e)) s₂ := by
      apply wp_mono (check_spec s₂ .f_sync)
      intro x s' hx
      obtain ⟨⟨hfile'', hlog'', hlink''⟩, hx⟩ := hx
      refine ⟨n, ⟨hlog''.trans hlog', hlink''.trans hlink'⟩, ?_⟩
      rcases hx with rfl | he
      · exact .inl ⟨rfl, hfile''.trans hfile'⟩
      · exact .inr he
    rw [thenPost_ok, wp_bind, wp_ite]
    split
    · rename_i hne
      have hlt : n < payload.length := by omega
      rw [wp_bind, wp_record, thenPost_ok]
      have hbound : s.file.fptr ≤ s₁.file.content.length := by
        rw [hfile]
        exact (Nat.le_add_right _ _).trans (s.file.put (payload.take n)).bound
      have hshort : shortage payload n = [.short] := if_pos hlt
      apply wp_mono (@lseek_spec { s₁ with log := s₁.log ++ [.short] } _ hbound)
      intro x s₂ hx
      obtain ⟨⟨hlog₂, hlink₂⟩, ⟨rfl, hfile₂⟩ | ⟨e, rfl⟩⟩ := hx
      · apply hsync
        · rw [hfile₂]
          unfold File.stored
          rw [if_pos hlt]
          unfold File.moveTo
          simp only [hfile]
        · rw [hlog₂, hshort]
          show s₁.log ++ _ = _
          rw [hlog]
        · exact hlink₂.trans hlink
      · refine ⟨n, ⟨?_, hlink₂.trans hlink⟩, .inr ⟨e, rfl⟩⟩
        rw [hlog₂, hshort]
        show s₁.log ++ _ = _
        rw [hlog]
    · rename_i heq
      have hn' : n = payload.length := by omega
      rw [wp_pure, thenPost_ok]
      apply hsync
      · rw [hfile, hn', List.take_length]
        exact (if_neg (Nat.lt_irrefl _)).symm
      · rw [hlog, hn', shortage, if_neg (Nat.lt_irrefl _), List.append_nil]
      · exact hlink
  · refine ⟨payload.length, ⟨?_, hlink⟩, .inr ⟨e, rfl⟩⟩
    rw [hlog, shortage, if_neg (Nat.lt_irrefl _), List.append_nil]

theorem open_spec (fuel : Nat) (url : Url) : wp (connection.open fuel url.uri) (fun x s' =>
    s'.file = s.file ∧ (x = .ok () ∧ url.Complete ∧ s'.log = s.log ++ [.opened] ∨
      x.returned = false ∧ s'.log = s.log ∧ (x = .trap → ¬url.Complete))) s := by
  unfold connection.open onLink
  rw [wp_bind, wp_zoom, wp_mapErr]
  by_cases hurl : url.Complete
  · have hsafe := SimpleLinkConnection.open_safe fuel .tcp_ip4 hurl s.link
    unfold wp
    cases hrun : SimpleLinkConnection.open fuel .tcp_ip4 url.uri s.link with
    | mk x l =>
      rw [hrun] at hsafe
      cases x with
      | ok _ => exact ⟨rfl, .inl ⟨rfl, hurl, rfl⟩⟩
      | err e => exact ⟨rfl, .inr ⟨rfl, rfl, nofun⟩⟩
      | trap => exact absurd rfl hsafe
      | halt => exact ⟨rfl, .inr ⟨rfl, rfl, nofun⟩⟩
  · apply wp_of_eq (SimpleLinkConnection.open_trap fuel .tcp_ip4 hurl s.link)
    exact ⟨rfl, .inr ⟨rfl, rfl, fun _ => hurl⟩⟩

theorem close_spec : wp connection.close (fun x s' =>
    s'.file = s.file ∧ s'.log = s.log ++ [.closed] ∧ (x = .ok () ∨ ∃ e, x = .err e)) s := by
  unfold connection.close onLink
  rw [wp_bind, wp_record, thenPost_ok, wp_zoom, wp_mapErr]
  apply wp_of_eq (Net.close_run s.link)
  split
  · rename_i hret
    split at hret
    · cases hret
    · exact ⟨rfl, rfl, .inl rfl⟩
  · exact ⟨rfl, rfl, .inr ⟨_, rfl⟩⟩
  · rename_i hret
    split at hret <;> cases hret
  · rename_i hret
    split at hret <;> cases hret

theorem send_spec (request : String) : wp (connection.send request) (fun x s' =>
    (s'.file = s.file ∧ s'.link = s.link) ∧ s'.log = s.log ++ [.request request] ∧
      (x = .ok () ∨ ∃ e, x = .err e)) s := by
  unfold connection.send
  rw [wp_bind, wp_record, thenPost_ok, wp_bind, wp_sl_Send, thenPost_ok, wp_ite]
  split
  · exact ⟨⟨rfl, rfl⟩, rfl, .inr ⟨_, rfl⟩⟩
  · exact ⟨⟨rfl, rfl⟩, rfl, .inl rfl⟩

/-- How a request is sent. -/
inductive Sent (s : State) : Exit Error Unit → State → Prop where
  | sent (text : String) (s' : State) : s'.file = s.file → s'.link = s.link →
    s'.log = s.log ++ [.request text] → Sent s (.ok ()) s'
  | unsent (e : Error) (text : String) (s' : State) : s'.file = s.file →
    s'.log = s.log ++ [.request text] → Sent s (.err e) s'
  | unwritten (e : Error) : Sent s (.err e) s

theorem print_send_spec (text : String) :
    wp (bufPrint text >>= connection.send) (Sent s) s := by
  unfold bufPrint
  rw [wp_bind, wp_ite]
  split
  · rw [wp_pure, thenPost_ok]
    apply wp_mono (send_spec s text)
    intro x s' hx
    obtain ⟨⟨hfile, hlink⟩, hlog, rfl | ⟨e, rfl⟩⟩ := hx
    · exact .sent text s' hfile hlink hlog
    · exact .unsent e text s' hfile hlog
  · exact .unwritten _

theorem sendGetRangeRequest_spec {url : Url} (hurl : url.Complete) (start last : Nat) :
    wp (sendGetRangeRequest url start last) (Sent s) s := by
  obtain ⟨host, hhost⟩ := Option.isSome_iff_exists.mp hurl.1
  unfold sendGetRangeRequest Url.host
  rw [hhost]
  exact print_send_spec s _

theorem sendHeadRequest_spec {url : Url} (hurl : url.Complete) :
    wp (sendHeadRequest url) (Sent s) s := by
  obtain ⟨host, hhost⟩ := Option.isSome_iff_exists.mp hurl.1
  unfold sendHeadRequest Url.host
  rw [hhost]
  exact print_send_spec s _

/-- How the connection is renewed, if the server has asked for it. -/
inductive Renewed (url : Url) (p : parsedResponse) (s : State) : Exit Error Unit → State → Prop where
  | kept : p.keep_alive ≠ some .close → Renewed url p s (.ok ()) s
  | renewed (s' : State) : p.keep_alive = some .close → s'.file = s.file →
    s'.log = s.log ++ [.closed, .opened] → Renewed url p s (.ok ()) s'
  | failed (x : Exit Error Unit) (s' : State) : p.keep_alive = some .close → s'.file = s.file →
    s'.log = s.log ++ [.closed] → x.returned = false → (x = .trap → ¬url.Complete) →
    Renewed url p s x s'

theorem reconnect_spec (fuel : Nat) (url : Url) (p : parsedResponse) :
    wp (reconnect fuel url p) (Renewed url p s) s := by
  unfold reconnect
  split
  · rename_i hclose
    rw [wp_bind]
    apply wp_mono (close_spec s)
    intro x s₁ hx
    obtain ⟨hfile, hlog, rfl | ⟨e, rfl⟩⟩ := hx
    · rw [thenPost_ok]
      apply wp_mono (open_spec s₁ fuel url)
      intro x s₂ hx
      obtain ⟨hfile', ⟨rfl, -, hlog'⟩ | ⟨hx, hlog', htrap⟩⟩ := hx
      · apply Renewed.renewed s₂ hclose (hfile'.trans hfile)
        rw [hlog', hlog, List.append_assoc]
        rfl
      · exact .failed x s₂ hclose (hfile'.trans hfile) (hlog'.trans hlog) hx htrap
    · exact .failed _ s₁ hclose hfile hlog rfl nofun
  · rename_i hkeep
    exact .kept hkeep

end Calls

/-! ## Receiving -/

section Receiving

variable {X : Externs} {v : Receiving} {s : State}

theorem receiveStep_done (h : ¬(v.pret = -2 ∧ v.rx_count < rx_buffer_len)) :
    receiveStep X v s = (.ok (.inr v), s) := by
  unfold receiveStep
  rw [if_neg h]
  rfl

theorem receiveStep_timeout (h : v.pret = -2 ∧ v.rx_count < rx_buffer_len)
    (harrival : s.env.arrival 0 = .timeout) : receiveStep X v s =
      (.ok (.inl v), { s with env := s.env.advanceArrival, log := s.log ++ [.timeout] }) := by
  have hwait : connection.waitRx s = (.ok false,
      { s with env := s.env.advanceArrival, log := s.log ++ [.timeout] }) := by
    unfold connection.waitRx
    rw [harrival]
  unfold receiveStep
  rw [if_pos h]
  exact Prog.bind_ok _ hwait

/-- While nothing arrives, the loop goes on. -/
theorem receive_silent (h : v.pret = -2 ∧ v.rx_count < rx_buffer_len) (n : Nat)
    (hsilent : ∀ k, s.env.arrival k = .timeout) :
    (Prog.loop (receiveStep X) n v s).1 = .halt := by
  induction n generalizing s with
  | zero => rfl
  | succ n ih =>
    rw [Prog.loop_inl n (receiveStep_timeout h (hsilent 0))]
    exact ih fun k => hsilent (k + 1)

theorem receiveStep_failed (h : v.pret = -2 ∧ v.rx_count < rx_buffer_len)
    (harrival : s.env.arrival 0 = .failed) : receiveStep X v s =
      (.err (.connection .QueueSendFailed), { s with env := s.env.advanceArrival }) := by
  have hwait : connection.waitRx s =
      (.err (.connection .QueueSendFailed), { s with env := s.env.advanceArrival }) := by
    unfold connection.waitRx
    rw [harrival]
  unfold receiveStep
  rw [if_pos h]
  exact Prog.bind_err _ hwait

/-- The state after `data` has been received behind `rx_count` bytes. -/
def State.received (s : State) (rx_count : Nat) (data : List UInt8) : State :=
  { s with
    env := s.env.advanceArrival
    rx_buffer := s.rx_buffer.write rx_count (data.take (rx_buffer_len - rx_count)) }

theorem receiveStep_bytes {data : List UInt8} (h : v.pret = -2 ∧ v.rx_count < rx_buffer_len)
    (harrival : s.env.arrival 0 = .bytes data) : receiveStep X v s =
      (if data = [] then .err (.connection .recieve_error)
        else if rx_buffer_len - v.rx_count < data.length then .err (.connection .buffer_owerflow)
        else .ok (.inl (v.parse X data)), s.received v.rx_count data) := by
  have hwait : connection.waitRx s = (.ok true, s) := by
    unfold connection.waitRx
    rw [harrival]
  have hreceive : connection.recieve v.rx_count s =
      (if data = [] then .err (.connection .recieve_error)
        else if rx_buffer_len - v.rx_count < data.length then .err (.connection .buffer_owerflow)
        else .ok data, s.received v.rx_count data) := by
    unfold connection.recieve State.received
    rw [harrival]
    simp only
    split
    · rfl
    · split <;> rfl
  unfold receiveStep
  rw [if_pos h]
  refine (Prog.bind_ok _ hwait).trans ?_
  rw [if_pos rfl]
  by_cases hnil : data = []
  · rw [if_pos hnil] at hreceive ⊢
    exact Prog.bind_err _ hreceive
  · rw [if_neg hnil] at hreceive ⊢
    by_cases hlong : rx_buffer_len - v.rx_count < data.length
    · rw [if_pos hlong] at hreceive ⊢
      exact Prog.bind_err _ hreceive
    · rw [if_neg hlong] at hreceive ⊢
      exact Prog.bind_ok _ hreceive

/-- What `recieveResponse` leaves alone. -/
structure Waited (s s' : State) : Prop where
  file : s'.file = s.file
  link : s'.link = s.link
  timeouts : ∃ n, s'.log = s.log ++ List.replicate n .timeout

theorem Waited.refl (s : State) : Waited s s := ⟨rfl, rfl, 0, (List.append_nil _).symm⟩

theorem Waited.trans {s₁ s₂ s₃ : State} (h : Waited s₁ s₂) (h' : Waited s₂ s₃) : Waited s₁ s₃ := by
  obtain ⟨n, hn⟩ := h.timeouts
  obtain ⟨m, hm⟩ := h'.timeouts
  refine ⟨h'.file.trans h.file, h'.link.trans h.link, n + m, ?_⟩
  rw [hm, hn, List.append_assoc, List.replicate_append_replicate]

/-- What has been received fits into `rx_buffer`. -/
def Receiving.Fits (v : Receiving) : Prop := v.rx_count ≤ rx_buffer_len

/-- The length of the header lies within what has been received. -/
def Receiving.Sound (v : Receiving) : Prop := 0 < v.pret → v.pret ≤ v.rx_count ∧ 0 ≤ v.status

theorem Receiving.parse_sound (hX : X.Documented) (v : Receiving) (data : List UInt8) :
    (v.parse X data).Sound := by
  intro hpret
  have hconsumed := hX.consumed data v.num_headers v.prevbuflen
  refine ⟨?_, hX.status data v.num_headers v.prevbuflen hpret⟩
  unfold Receiving.parse
  simp only [Nat.cast_add]
  omega

theorem Receiving.init_sound : Receiving.init.Sound := by
  intro h
  exact absurd h (by decide)

/-- One round: it waits, or it receives a piece. -/
theorem receiveStep_spec (hfits : v.Fits) (hsound : X.Documented → v.Sound) :
    wp (receiveStep X v) (fun x s' => Waited s s' ∧ x ≠ .trap ∧ ∀ r, x = .ok r →
      Sum.elim Receiving.Fits Receiving.Fits r ∧
        (X.Documented → Sum.elim Receiving.Sound Receiving.Sound r)) s := by
  by_cases h : v.pret = -2 ∧ v.rx_count < rx_buffer_len
  · cases harrival : s.env.arrival 0 with
    | timeout =>
      apply wp_of_eq (receiveStep_timeout h harrival)
      refine ⟨⟨rfl, rfl, 1, rfl⟩, nofun, ?_⟩
      intro r hr
      cases hr
      exact ⟨hfits, hsound⟩
    | failed =>
      apply wp_of_eq (receiveStep_failed h harrival)
      exact ⟨⟨rfl, rfl, 0, (List.append_nil _).symm⟩, nofun, nofun⟩
    | bytes data =>
      apply wp_of_eq (receiveStep_bytes h harrival)
      refine ⟨⟨rfl, rfl, 0, (List.append_nil _).symm⟩, ?_, ?_⟩
      · split
        · exact nofun
        · split <;> exact nofun
      · intro r hr
        split at hr
        · cases hr
        · split at hr
          · cases hr
          · rename_i hlength
            cases hr
            refine ⟨?_, fun hX => v.parse_sound hX data⟩
            show v.rx_count + data.length ≤ rx_buffer_len
            omega
  · apply wp_of_eq (receiveStep_done h)
    refine ⟨.refl s, nofun, ?_⟩
    intro r hr
    cases hr
    exact ⟨hfits, hsound⟩

/-- The loop of `recieveResponse`. -/
theorem receive_loop_spec (fuel : Nat) (hfits : v.Fits) (hsound : X.Documented → v.Sound) :
    wp (Prog.loop (receiveStep X) fuel v) (fun x s' => Waited s s' ∧ x ≠ .trap ∧
      ∀ u, x = .ok u → u.Fits ∧ (X.Documented → u.Sound)) s := by
  apply wp_loop_post fun u s' => Waited s s' ∧ u.Fits ∧ (X.Documented → u.Sound)
  · intro u s₁ hu
    obtain ⟨hwaited, hfits, hsound⟩ := hu
    apply wp_mono (receiveStep_spec hfits hsound)
    intro x s₂ hx
    obtain ⟨hwaited', htrap, hr⟩ := hx
    have hwaited := hwaited.trans hwaited'
    cases x with
    | ok r =>
      cases r with
      | inl u' => exact ⟨hwaited, hr _ rfl⟩
      | inr u' =>
        refine ⟨hwaited, nofun, ?_⟩
        intro u hu
        cases hu
        exact hr _ rfl
    | err e => exact ⟨hwaited, nofun, nofun⟩
    | trap => exact absurd rfl htrap
    | halt => exact ⟨hwaited, nofun, nofun⟩
  · exact fun u s₁ hu => ⟨hu.1, nofun, nofun⟩
  · exact ⟨.refl s, hfits, hsound⟩

/-- **The end of `recieveResponse`**: the payload is not empty, and with a parser that keeps to
its documentation nothing traps. -/
theorem recieveResponse_spec (X : Externs) (fuel : Nat) (s : State) :
    wp (recieveResponse X fuel) (fun x s' => Waited s s' ∧ (x = .trap → ¬X.Documented) ∧
      ∀ rx, x = .ok rx → rx.payload ≠ some []) s := by
  unfold recieveResponse
  rw [wp_bind]
  apply wp_mono (receive_loop_spec fuel (Nat.zero_le _) fun _ => Receiving.init_sound)
  intro x s' hx
  obtain ⟨hwaited, htrap, hv⟩ := hx
  cases x with
  | ok v =>
    obtain ⟨hfits, hsound⟩ := hv v rfl
    rw [thenPost_ok, wp_bind, wp_get, thenPost_ok, wp_ofExit]
    unfold Receiving.response
    by_cases hpret : 0 < v.pret
    · rw [if_pos hpret]
      by_cases hbad : v.rx_count < v.pret.toNat ∨ v.status < 0
      · rw [if_pos hbad]
        refine ⟨hwaited, ?_, nofun⟩
        intro _ hX
        have hgood := hsound hX hpret
        omega
      · rw [if_neg hbad]
        refine ⟨hwaited, nofun, ?_⟩
        intro rx hrx hpayload
        cases hrx
        simp only at hpayload
        split at hpayload
        · cases hpayload
        · rename_i hne
          have hlength := congrArg List.length (Option.some.inj hpayload)
          have hbuffer := s'.rx_buffer.length_eq
          unfold Receiving.Fits at hfits
          simp only [List.length_drop, List.length_take, List.length_nil] at hlength
          omega
    · rw [if_neg hpret]
      split
      · exact ⟨hwaited, nofun, nofun⟩
      · exact ⟨hwaited, nofun, nofun⟩
  | err e => exact ⟨hwaited, nofun, nofun⟩
  | trap => exact absurd rfl htrap
  | halt => exact ⟨hwaited, nofun, nofun⟩

end Receiving

/-! ## Ranges -/

/-- The events that only concern the file. -/
def Event.local : Event → Bool
  | .rewound | .sought _ _ | .short => true
  | _ => false

/-- The record of the way to the start of a range. -/
def seeking (position start : Nat) (payload : Option (List UInt8)) : List Event :=
  if start < position then [.sought start payload] else []

section Ranges

variable (url : Url) (p : parsedResponse) (s : State)

/-- What becomes of the response to a range request. -/
inductive Stored : Exit Error (Unit ⊕ Unit) → State → Prop where
  | unexpected : p.status_code ≠ 206 → Stored (.err .unexpected_status_code) s
  /-- There is no range. -/
  | unranged : p.status_code = 206 → p.range = none → Stored .trap s
  /-- The range begins behind the file pointer: the file is begun again. -/
  | rewound (range : rangeResponse) (s' : State) : p.status_code = 206 → p.range = some range →
    s.file.fptr < range.start → s'.file = s.file.moveTo 0 (Nat.zero_le _) →
    s'.log = s.log ++ [.rewound] → Stored (.ok (.inl ())) s'
  /-- There is no payload. -/
  | bare (range : rangeResponse) (s' : State) : p.status_code = 206 → p.range = some range →
    range.start ≤ s.file.fptr → p.payload = none →
    s'.log = s.log ++ seeking s.file.fptr range.start none → Stored .trap s'
  /-- The payload is written at the start of the range. -/
  | stored (range : rangeResponse) (payload : List UInt8) (n : Nat) (s₁ : State)
    (x : Exit Error Unit) (s' : State) (h : range.start ≤ s.file.fptr) : p.status_code = 206 →
    p.range = some range → p.payload = some payload →
    s₁.file = (s.file.moveTo range.start (h.trans s.file.bound)).stored payload n →
    s₁.log = s.log ++ (seeking s.file.fptr range.start (some payload) ++ shortage payload n) →
    Renewed url p s₁ x s' → Stored (x.as (.inl ())) s'
  /-- The file pointer is not at the start of the range, and cannot be moved. -/
  | unmoved (range : rangeResponse) (e : Error) (s' : State) : p.status_code = 206 →
    p.range = some range → range.start ≠ s.file.fptr → s'.log = s.log → Stored (.err e) s'
  /-- The payload cannot be written. -/
  | unstored (range : rangeResponse) (payload : List UInt8) (n : Nat) (e : Error) (s' : State) :
    p.status_code = 206 → p.range = some range → range.start ≤ s.file.fptr →
    p.payload = some payload →
    s'.log = s.log ++ (seeking s.file.fptr range.start (some payload) ++ shortage payload n) →
    Stored (.err e) s'

variable {url p s}

theorem seeking_local (position start : Nat) (payload : Option (List UInt8)) :
    ∀ ev ∈ seeking position start payload, ev.local = true := by
  unfold seeking
  split <;> simp [Event.local]

theorem shortage_local (payload : List UInt8) (n : Nat) :
    ∀ ev ∈ shortage payload n, ev.local = true := by
  unfold shortage
  split <;> simp [Event.local]

/-- The payload is written, and the connection renewed. -/
theorem Stored.of_store (fuel : Nat) {range : rangeResponse} {s₁ : State}
    (hstatus : p.status_code = 206) (hrange : p.range = some range)
    (h : range.start ≤ s.file.fptr) (hfile : s₁.file = s.file.moveTo range.start
      (h.trans s.file.bound))
    (hlog : s₁.log = s.log ++ seeking s.file.fptr range.start p.payload) :
    wp (match p.payload with
      | none => Prog.trap
      | some payload => do
        store payload
        reconnect fuel url p
        pure (.inl ()) : HttpM (Unit ⊕ Unit)) (Stored url p s) s₁ := by
  cases hpayload : p.payload with
  | none =>
    rw [hpayload] at hlog
    exact .bare range s₁ hstatus hrange h hpayload hlog
  | some payload =>
    rw [hpayload] at hlog
    simp only
    rw [wp_bind]
    apply wp_mono (store_spec s₁ payload)
    intro x s₂ hx
    obtain ⟨n, ⟨hlog', -⟩, ⟨rfl, hfile'⟩ | ⟨e, rfl⟩⟩ := hx
    · rw [thenPost_ok, wp_bind]
      apply wp_mono (reconnect_spec s₂ fuel url p)
      intro x s₃ hx
      have hstored : Stored url p s (x.as (.inl ())) s₃ :=
        .stored range payload n s₂ x s₃ h hstatus hrange hpayload (by rw [hfile', hfile])
          (by rw [hlog', hlog, List.append_assoc]) hx
      cases x with
      | ok _ => exact hstored
      | err e => exact hstored
      | trap => exact hstored
      | halt => exact hstored
    · exact .unstored range payload n e s₂ hstatus hrange h hpayload
        (by rw [hlog', hlog, List.append_assoc])

theorem storeRange_spec (fuel : Nat) (url : Url) (p : parsedResponse) (s : State) :
    wp (storeRange fuel url p) (Stored url p s) s := by
  unfold storeRange
  rw [wp_ite]
  split
  · rename_i hstatus
    have hstatus := hstatus.symm
    cases hrange : p.range with
    | none => exact .unranged hstatus hrange
    | some range =>
      simp only
      rw [wp_bind, wp_tell, thenPost_ok, wp_ite]
      split
      · rename_i hlt
        have hne : range.start ≠ s.file.fptr := by omega
        rw [wp_bind]
        apply wp_mono (lseek_spec s (Nat.zero_le _))
        intro x s₁ hx
        obtain ⟨⟨hlog, -⟩, ⟨rfl, hfile⟩ | ⟨e, rfl⟩⟩ := hx
        · rw [thenPost_ok, wp_bind]
          apply wp_mono (check_spec s₁ .f_sync)
          intro x s₂ hx
          obtain ⟨⟨hfile', hlog', -⟩, rfl | ⟨e, rfl⟩⟩ := hx
          · rw [thenPost_ok, wp_bind, wp_record, thenPost_ok]
            apply Stored.rewound range { s₂ with log := s₂.log ++ [.rewound] } hstatus hrange hlt
              (hfile'.trans hfile)
            show s₂.log ++ _ = _
            rw [hlog', hlog]
          · exact .unmoved range e s₂ hstatus hrange hne (hlog'.trans hlog)
        · exact .unmoved range e s₁ hstatus hrange hne hlog
      · rename_i hle
        have hle : range.start ≤ s.file.fptr := Nat.not_lt.mp hle
        rw [wp_bind, wp_ite]
        split
        · rename_i hlt
          have hne : range.start ≠ s.file.fptr := by omega
          have hseeking : seeking s.file.fptr range.start p.payload =
            [.sought range.start p.payload] := if_pos hlt
          rw [wp_bind]
          apply wp_mono (lseek_spec s (hle.trans s.file.bound))
          intro x s₁ hx
          obtain ⟨⟨hlog, -⟩, ⟨rfl, hfile⟩ | ⟨e, rfl⟩⟩ := hx
          · rw [thenPost_ok, wp_record, thenPost_ok]
            have hfile' : State.file { s₁ with log := s₁.log ++ [.sought range.start p.payload] } =
              s.file.moveTo range.start (hle.trans s.file.bound) := hfile
            apply Stored.of_store fuel hstatus hrange hle hfile'
            rw [hseeking]
            show s₁.log ++ _ = _
            rw [hlog]
          · exact .unmoved range e s₁ hstatus hrange hne hlog
        · rename_i hge
          have heq : range.start = s.file.fptr := by omega
          rw [wp_pure, thenPost_ok]
          apply Stored.of_store fuel hstatus hrange hle
          · simp only [heq]
            rfl
          · rw [seeking, if_neg hge, List.append_nil]
  · rename_i hstatus
    exact .unexpected fun h => hstatus h.symm

end Ranges

/-! ## Responses -/

/-- A request is sent, and a response received. -/
structure Asked (s : State) (text : String) (rx : rx_response) (s' : State) : Prop where
  file : s'.file = s.file
  payload : rx.payload ≠ some []
  log : ∃ n, s'.log = s.log ++ (.request text :: List.replicate n .timeout)

/-- Neither a response nor a change of the connection. -/
def Event.idle : Event → Bool
  | .request _ | .timeout => true
  | _ => false

theorem idle_asked (text : String) (n : Nat) :
    ∀ ev ∈ Event.request text :: List.replicate n .timeout, ev.idle = true := by
  intro ev hev
  rcases List.mem_cons.mp hev with rfl | hev
  · rfl
  · rw [List.eq_of_mem_replicate hev]
    rfl

/-- There is no response to a request. -/
structure Unanswered (X : Externs) (s : State) {α : Type} (x : Exit Error α) (s' : State) : Prop where
  file : s'.file = s.file
  exit : x.returned = false
  trap : x = .trap → ¬X.Documented
  log : ∃ es, s'.log = s.log ++ es ∧ ∀ ev ∈ es, ev.idle = true

section Asks

variable {X : Externs} {fuel : Nat} {s : State} {α : Type}

/-- A request, and what is done with the response. -/
theorem ask_spec {m : HttpM Unit} {f : rx_response → HttpM α} {Q : Exit Error α → State → Prop}
    (hm : wp m (Sent s) s) (hun : ∀ x s', Unanswered X s x s' → Q x s')
    (hf : ∀ text rx s', Asked s text rx s' → wp (f rx) Q s') :
    wp (m >>= fun _ => recieveResponse X fuel >>= f) Q s := by
  rw [wp_bind]
  apply wp_mono hm
  intro x s₁ hx
  cases hx with
  | sent text s₁ hfile hlink hlog =>
    rw [thenPost_ok, wp_bind]
    apply wp_mono (recieveResponse_spec X fuel s₁)
    intro x s₂ hx
    obtain ⟨hwaited, htrap, hpayload⟩ := hx
    obtain ⟨n, hn⟩ := hwaited.timeouts
    have hfile' := hwaited.file.trans hfile
    have hlog' : s₂.log = s.log ++ (.request text :: List.replicate n .timeout) := by
      rw [hn, hlog, List.append_assoc]
      rfl
    have hidle := idle_asked text n
    cases x with
    | ok rx => exact hf text rx s₂ ⟨hfile', hpayload rx rfl, n, hlog'⟩
    | err e => exact hun _ _ ⟨hfile', rfl, nofun, _, hlog', hidle⟩
    | trap => exact hun _ _ ⟨hfile', rfl, fun _ => htrap rfl, _, hlog', hidle⟩
    | halt => exact hun _ _ ⟨hfile', rfl, nofun, _, hlog', hidle⟩
  | unsent e text s₁ hfile hlog =>
    exact hun _ _ ⟨hfile, rfl, nofun, _, hlog, by simp [Event.idle]⟩
  | unwritten e => exact hun _ _ ⟨rfl, rfl, nofun, [], (List.append_nil _).symm, by simp⟩

end Asks

/-! ## Rounds -/

/-- The response to a range request has been recorded. -/
structure Answered (s : State) (rx : rx_response) (s' : State) : Prop where
  file : s'.file = s.file
  payload : rx.payload ≠ some []
  log : ∃ text es, s'.log = s.log ++ (.request text :: es ++ [.range s.file.fptr rx]) ∧
    (∀ ev ∈ es, ev.idle = true)

/-- One round of the loop of `filedownload`. -/
inductive Ranged (X : Externs) (url : Url) (fileSize : Nat) (s : State) :
    Exit Error (Unit ⊕ Unit) → State → Prop where
  | done : fileSize ≤ s.file.fptr → Ranged X url fileSize s (.ok (.inr ())) s
  | unanswered (x : Exit Error (Unit ⊕ Unit)) (s' : State) : s.file.fptr < fileSize →
    Unanswered X s x s' → Ranged X url fileSize s x s'
  /-- The headers are not processed to their end. -/
  | refused (rx : rx_response) (x : Exit Error (Unit ⊕ Unit)) (s' : State) :
    s.file.fptr < fileSize → Answered s rx s' → x.returned = false →
    (x = .trap ↔ parsedResponse.processHeaders rx = .trap) →
    (∀ p, parsedResponse.processHeaders rx ≠ .ok p) → Ranged X url fileSize s x s'
  | answered (rx : rx_response) (p : parsedResponse) (s₁ : State) (x : Exit Error (Unit ⊕ Unit))
    (s' : State) : s.file.fptr < fileSize → Answered s rx s₁ →
    parsedResponse.processHeaders rx = .ok p → Stored url p s₁ x s' → Ranged X url fileSize s x s'

/-! ### How a round goes on -/

section Rounds

variable {X : Externs} {url : Url} {fileSize : Nat} {s s' : State}

theorem Stored.again {p : parsedResponse} {r : Unit ⊕ Unit} (h : Stored url p s (.ok r) s') :
    r = .inl () := by
  generalize hx : (Exit.ok r : Exit Error (Unit ⊕ Unit)) = x at h
  cases h with
  | rewound =>
    cases hx
    rfl
  | stored _ _ _ _ y =>
    cases y with
    | ok _ =>
      cases hx
      rfl
    | _ => cases hx
  | _ => cases hx

/-- The loop is left when the file pointer has reached the announced size. -/
theorem Ranged.left {u : Unit} (h : Ranged X url fileSize s (.ok (.inr u)) s') :
    s' = s ∧ fileSize ≤ s.file.fptr := by
  cases h with
  | done hge => exact ⟨rfl, hge⟩
  | unanswered _ _ _ hun => cases hun.exit
  | refused _ _ _ _ _ hreturned => cases hreturned
  | answered _ _ _ _ _ _ _ _ hstored => cases hstored.again

end Rounds

/-! ### What the rounds record -/

section Records

variable {X : Externs} {url : Url} {fileSize : Nat} {s s' : State}

theorem Answered.since {rx : rx_response} (h : Answered s rx s') :
    Since s s' (.range s.file.fptr rx) := by
  obtain ⟨_, es, hes, -⟩ := h.log
  exact ⟨_, hes, by simp⟩

theorem Answered.extends {rx : rx_response} (h : Answered s rx s') : Extends s s' := by
  obtain ⟨_, es, hes, -⟩ := h.log
  exact ⟨_, hes⟩

theorem Renewed.extends {p : parsedResponse} {x : Exit Error Unit} (h : Renewed url p s x s') :
    Extends s s' := by
  cases h with
  | kept => exact .refl s
  | renewed _ _ _ hlog => exact ⟨_, hlog⟩
  | failed _ _ _ _ hlog => exact ⟨_, hlog⟩

theorem Renewed.file {p : parsedResponse} {x : Exit Error Unit} (h : Renewed url p s x s') :
    s'.file = s.file := by
  cases h with
  | kept => rfl
  | renewed _ _ hfile => exact hfile
  | failed _ _ _ hfile => exact hfile

theorem Stored.extends {p : parsedResponse} {x : Exit Error (Unit ⊕ Unit)}
    (h : Stored url p s x s') : Extends s s' := by
  cases h with
  | unexpected => exact .refl s
  | unranged => exact .refl s
  | rewound _ _ _ _ _ _ hlog => exact ⟨_, hlog⟩
  | bare _ _ _ _ _ _ hlog => exact ⟨_, hlog⟩
  | stored _ _ _ _ _ _ _ _ _ _ _ hlog hrenewed => exact Extends.trans ⟨_, hlog⟩ hrenewed.extends
  | unmoved _ _ _ _ _ _ hlog => exact ⟨[], hlog.trans (List.append_nil _).symm⟩
  | unstored _ _ _ _ _ _ _ _ _ hlog => exact ⟨_, hlog⟩

theorem Ranged.extends {x : Exit Error (Unit ⊕ Unit)} (h : Ranged X url fileSize s x s') :
    Extends s s' := by
  cases h with
  | done => exact .refl s
  | unanswered _ _ _ hun =>
    obtain ⟨es, hes, -⟩ := hun.log
    exact ⟨es, hes⟩
  | refused _ _ _ _ hanswered => exact hanswered.extends
  | answered _ _ _ _ _ _ hanswered _ hstored => exact hanswered.extends.trans hstored.extends

theorem rounds_extends {u : Unit} {x : Exit Error Unit}
    (h : Rounds (fun _ => Ranged X url fileSize) u s x s') : Extends s s' := by
  induction h with
  | leave _ h => exact h.extends
  | again _ _ _ h _ ih => exact h.extends.trans ih
  | fail _ h => exact h.extends
  | trap h => exact h.extends
  | halt h => exact h.extends
  | cut => exact .refl _

end Records

/-- **One round of the loop of `filedownload`.** -/
theorem rangeStep_spec (X : Externs) (fuel : Nat) {url : Url} (hurl : url.Complete)
    (block_size fileSize : Nat) (s : State) :
    wp (rangeStep X fuel url block_size fileSize) (Ranged X url fileSize s) s := by
  unfold rangeStep
  rw [wp_bind, wp_tell, thenPost_ok, wp_ite]
  split
  · rename_i hlt
    apply ask_spec (sendGetRangeRequest_spec s hurl _ _)
    · exact fun x s' h => .unanswered x s' hlt h
    intro text rx s₁ hasked
    rw [wp_bind, wp_record, thenPost_ok, wp_bind, wp_ofExit]
    have hanswered : Answered s rx { s₁ with log := s₁.log ++ [.range s.file.fptr rx] } := by
      obtain ⟨n, hn⟩ := hasked.log
      refine ⟨hasked.file, hasked.payload, text, List.replicate n .timeout, ?_,
        fun ev hev => idle_asked text n ev (List.mem_cons_of_mem _ hev)⟩
      show s₁.log ++ _ = _
      rw [hn, List.append_assoc]
    cases hp : parsedResponse.processHeaders rx with
    | ok p =>
      rw [thenPost_ok]
      apply wp_mono (storeRange_spec fuel url p _)
      exact fun x s' hx => .answered rx p _ x s' hlt hanswered hp hx
    | err e => exact .refused rx _ _ hlt hanswered rfl (by simp [hp]) (by simp [hp])
    | trap => exact .refused rx _ _ hlt hanswered rfl (by simp [hp]) (by simp [hp])
    | halt => exact .refused rx _ _ hlt hanswered rfl (by simp [hp]) (by simp [hp])
  · rename_i hge
    exact .done (Nat.not_lt.mp hge)

end Miso.Http

import Miso.Http.Steps

/-!
# What a download is

`Downloaded` — everything that `filedownload` may do, from the first connection to the last
`close`, with the rounds of its loop between them — and `filedownload_spec`, that it does nothing
else.
-/

namespace Miso.Http

open Zig Net Boot

/-- What is left behind a download that has opened its connection: it is closed, if the function
returns. -/
def closing {α : Type} : Exit Error α → List Event
  | .ok _ | .err _ => [.closed]
  | _ => []

section Relations

variable (X : Externs) (url : Url) (max_file_size : Nat) (s : State)

/-- The response to the HEAD request has been recorded. -/
structure Headed (rx : rx_response) (s' : State) : Prop where
  log : ∃ es, s'.log = s.log ++ (.opened :: es ++ [.head rx]) ∧ ∀ ev ∈ es, ev.idle = true

/-- The end of `filedownload` behind its loop: the file has to have the announced size. -/
def fetchedExit (fileSize : Nat) (s' : State) : Exit Error Unit → Exit Error Unit
  | .ok _ => if s'.file.fptr ≠ fileSize then .err .file_size_mismatch else .ok ()
  | x => x

theorem closing_fetchedExit (fileSize : Nat) (s' : State) (x : Exit Error Unit) :
    closing (fetchedExit fileSize s' x) = closing x := by
  cases x with
  | ok _ =>
    simp only [fetchedExit]
    split <;> rfl
  | _ => rfl

/-- A download. -/
inductive Downloaded : Exit Error Unit → State → Prop where
  | unopened (x : Exit Error Unit) (s' : State) : x.returned = false → x ≠ .trap →
    s'.log = s.log → Downloaded x s'
  /-- There is no response to the HEAD request. -/
  | unanswered (x : Exit Error Unit) (es : List Event) (s' : State) : x.returned = false →
    (x = .trap → ¬X.Documented) → s'.log = s.log ++ (.opened :: es ++ closing x) →
    (∀ ev ∈ es, ev.idle = true) → Downloaded x s'
  /-- The response to the HEAD request is not accepted. -/
  | unaccepted (rx : rx_response) (x : Exit Error Unit) (s₁ s' : State) : Headed s rx s₁ →
    (∀ r, acceptHead max_file_size rx ≠ .ok r) → x.returned = false →
    (x = .trap ↔ acceptHead max_file_size rx = .trap) → s'.log = s₁.log ++ closing x →
    Downloaded x s'
  /-- There is no room for the ETag. -/
  | overflow (rx : rx_response) (fileSize : Nat) (etag : List UInt8) (s' : State) :
    Headed s rx s' → acceptHead max_file_size rx = .ok (fileSize, some etag) →
    etag_len < etag.length → Downloaded .trap s'
  /-- The file cannot be opened, or cannot be synchronised. -/
  | unwritten (rx : rx_response) (fileSize : Nat) (etag : Option (List UInt8)) (e : Error)
    (s₁ s' : State) : Headed s rx s₁ → acceptHead max_file_size rx = .ok (fileSize, etag) →
    (∀ e ∈ etag, e.length ≤ etag_len) → s'.log = s₁.log ++ [.closed] → Downloaded (.err e) s'
  | fetched (rx : rx_response) (fileSize : Nat) (etag : Option (List UInt8))
    (s₁ s₂ s₃ s' : State) (x : Exit Error Unit) : Headed s rx s₁ →
    acceptHead max_file_size rx = .ok (fileSize, etag) → (∀ e ∈ etag, e.length ≤ etag_len) →
    s₂.file = .empty → s₂.log = s₁.log → Rounds (fun _ => Ranged X url fileSize) () s₂ x s₃ →
    s'.file = s₃.file → s'.log = s₃.log ++ closing x → Downloaded (fetchedExit fileSize s₃ x) s'

end Relations

section Specs

variable {X : Externs} {url : Url} {max_file_size : Nat} {s : State}

/-- The connection is closed when the function returns. -/
theorem closing_spec {α : Type} {m : HttpM α} {Q : Exit Error α → State → Prop}
    (hm : wp m (fun x s' => ∀ s'', s''.file = s'.file → s''.log = s'.log ++ closing x →
      Q x s'') s) : wp (Prog.deferring connection.close m) Q s := by
  apply wp_deferring_returns
  apply wp_mono hm
  intro x s' hx
  have hclose (hclosing : closing x = [.closed]) : wp connection.close (fun y s'' =>
      (y = .ok () ∨ ∃ e, y = .err e) ∧ Q x s'') s' := by
    apply wp_mono (close_spec s')
    intro y s'' hy
    obtain ⟨hfile, hlog, hy⟩ := hy
    refine ⟨hy, hx s'' hfile ?_⟩
    rw [hlog, hclosing]
  cases x with
  | ok a => exact hclose rfl
  | err e => exact hclose rfl
  | trap => exact hx s' rfl (List.append_nil _).symm
  | halt => exact hx s' rfl (List.append_nil _).symm

/-- The file is closed when the function returns. -/
theorem file_closing_spec {α : Type} {m : HttpM α} {Q : Exit Error α → State → Prop}
    (hm : wp m (fun x s' => ∀ s'', s''.file = s'.file → s''.log = s'.log → Q x s'') s) :
    wp (Prog.deferring file.close m) Q s := by
  apply wp_deferring_returns
  apply wp_mono hm
  intro x s' hx
  have hclose : wp file.close (fun y s'' => (y = .ok () ∨ ∃ e, y = .err e) ∧ Q x s'') s' := by
    apply wp_mono (check_spec s' .f_close)
    intro y s'' hy
    obtain ⟨⟨hfile, hlog, -⟩, hy⟩ := hy
    exact ⟨hy, hx s'' hfile hlog⟩
  cases x with
  | ok a => exact hclose
  | err e => exact hclose
  | trap => exact hx s' rfl rfl
  | halt => exact hx s' rfl rfl

/-- How the file is filled. -/
inductive Fetched (X : Externs) (url : Url) (fileSize : Nat) (s : State) :
    Exit Error Unit → State → Prop where
  | unwritten (e : Error) (s' : State) : s'.log = s.log → Fetched X url fileSize s (.err e) s'
  | fetched (s₂ s₃ s' : State) (x : Exit Error Unit) : s₂.file = .empty → s₂.log = s.log →
    Rounds (fun _ => Ranged X url fileSize) () s₂ x s₃ → s'.file = s₃.file → s'.log = s₃.log →
    Fetched X url fileSize s (fetchedExit fileSize s₃ x) s'

theorem fetch_spec (X : Externs) (fuel : Nat) (hurl : url.Complete) (block_size fileSize : Nat)
    (s : State) : wp (fetch X fuel url block_size fileSize) (Fetched X url fileSize s) s := by
  unfold fetch file.open
  rw [wp_bind, wp_bind]
  apply wp_mono (check_spec s .f_open)
  intro x s₁ hx
  obtain ⟨⟨-, hlog, -⟩, rfl | ⟨e, rfl⟩⟩ := hx
  · rw [thenPost_ok, wp_modify, thenPost_ok]
    apply file_closing_spec
    rw [wp_bind]
    apply wp_mono (check_spec _ .f_sync)
    intro x s₂ hx
    obtain ⟨⟨hfile, hlog', -⟩, rfl | ⟨e, rfl⟩⟩ := hx
    · rw [thenPost_ok, wp_bind]
      apply wp_mono (wp_loop_rounds (fun _ s => rangeStep_spec X fuel hurl block_size fileSize s)
        fuel () s₂)
      intro x s₃ hrounds
      have hend (s' : State) (hfile' : s'.file = s₃.file) (hlog'' : s'.log = s₃.log) :
          Fetched X url fileSize s (fetchedExit fileSize s₃ x) s' :=
        .fetched s₂ s₃ s' x hfile (hlog'.trans hlog) hrounds hfile' hlog''
      cases x with
      | ok _ =>
        rw [thenPost_ok, wp_bind, wp_tell, thenPost_ok, wp_ite]
        split
        · rename_i hne
          intro s' hfile' hlog''
          have := hend s' hfile' hlog''
          rw [fetchedExit, if_pos hne] at this
          exact this
        · rename_i heq
          intro s' hfile' hlog''
          have := hend s' hfile' hlog''
          rw [fetchedExit, if_neg heq] at this
          exact this
      | err e => exact hend
      | trap => exact hend
      | halt => exact hend
    · intro s' _ hlog''
      exact .unwritten e s' (hlog''.trans (hlog'.trans hlog))
  · exact .unwritten e s₁ hlog

/-- **What a download does.** -/
theorem filedownload_spec (X : Externs) (fuel : Nat) (hurl : url.Complete)
    (block_size max_file_size : Nat) (s : State) :
    wp (filedownload X fuel (.ok url) block_size max_file_size)
      (Downloaded X url max_file_size s) s := by
  unfold filedownload
  simp only
  rw [wp_bind]
  apply wp_mono (open_spec s fuel url)
  intro x s₁ hx
  obtain ⟨-, ⟨rfl, -, hlog⟩ | ⟨hreturned, hlog, htrap⟩⟩ := hx
  · rw [thenPost_ok]
    apply closing_spec
    apply ask_spec (sendHeadRequest_spec s₁ hurl)
    · intro x s₂ hun s' _ hlog'
      obtain ⟨es, hes, hidle⟩ := hun.log
      apply Downloaded.unanswered x es s' hun.exit hun.trap _ hidle
      rw [hlog', hes, hlog]
      simp
    intro text rx s₂ hasked
    rw [wp_bind, wp_record, thenPost_ok, wp_bind, wp_ofExit]
    have hheaded : Headed s rx { s₂ with log := s₂.log ++ [.head rx] } := by
      obtain ⟨n, hn⟩ := hasked.log
      refine ⟨.request text :: List.replicate n .timeout, ?_, idle_asked text n⟩
      show s₂.log ++ _ = _
      rw [hn, hlog]
      simp
    cases hr : acceptHead max_file_size rx with
    | ok r =>
      obtain ⟨fileSize, etag⟩ := r
      rw [thenPost_ok, wp_bind]
      have hfetch (hfits : ∀ e ∈ etag, e.length ≤ etag_len) (s₃ : State)
          (hlog' : s₃.log = s₂.log ++ [.head rx]) :
          wp (fetch X fuel url block_size fileSize) (fun x s' => ∀ s'', s''.file = s'.file →
            s''.log = s'.log ++ closing x → Downloaded X url max_file_size s x s'') s₃ := by
        apply wp_mono (fetch_spec X fuel hurl block_size fileSize s₃)
        intro x s' hx s'' hfile'' hlog''
        cases hx with
        | unwritten e s' hs' =>
          exact .unwritten rx fileSize etag e _ s'' hheaded hr hfits
            (by rw [hlog'', hs', hlog']; rfl)
        | fetched s₄ s₅ s' y hempty hs₄ hrounds hfile' hs' =>
          apply Downloaded.fetched rx fileSize etag _ s₄ s₅ s'' y hheaded hr hfits hempty
            (hs₄.trans hlog') hrounds (hfile''.trans hfile')
          rw [hlog'', hs', closing_fetchedExit]
      unfold keepEtag
      cases etag with
      | none => exact hfetch (by simp) _ rfl
      | some etag =>
        simp only
        rw [wp_ite]
        split
        · rename_i hlong
          intro s'' _ hlog''
          apply Downloaded.overflow rx fileSize etag s'' ⟨?_⟩ hr hlong
          obtain ⟨es, hes, hidle⟩ := hheaded.log
          exact ⟨es, hlog''.trans ((List.append_nil _).trans hes), hidle⟩
        · rename_i hfits
          apply hfetch _ _ rfl
          intro e he
          cases he
          exact Nat.not_lt.mp hfits
    | err e =>
      intro s' _ hlog'
      exact .unaccepted rx _ _ s' hheaded (by simp [hr]) rfl (by simp [hr]) hlog'
    | trap =>
      intro s' _ hlog'
      exact .unaccepted rx _ _ s' hheaded (by simp [hr]) rfl (by simp [hr]) hlog'
    | halt =>
      intro s' _ hlog'
      exact .unaccepted rx _ _ s' hheaded (by simp [hr]) rfl (by simp [hr]) hlog'
  · cases x with
    | ok _ => cases hreturned
    | err e => exact .unopened _ s₁ rfl nofun hlog
    | trap => exact absurd hurl (htrap rfl)
    | halt => exact .unopened _ s₁ rfl nofun hlog

/-- A URL without a host or a port is unwrapped in vain. -/
theorem filedownload_incomplete (X : Externs) (fuel : Nat) {url : Url} (hurl : ¬url.Complete)
    (block_size max_file_size : Nat) (s : State) :
    filedownload X fuel (.ok url) block_size max_file_size s = (.trap, s) := by
  have hlink : onLink (SimpleLinkConnection.open fuel .tcp_ip4 url.uri) s = (.trap, s) := by
    unfold onLink Prog.zoom Prog.mapErr
    rw [SimpleLinkConnection.open_trap fuel .tcp_ip4 hurl s.link]
  have hopen : connection.open fuel url.uri s = (.trap, s) := Prog.bind_trap _ hlink
  exact Prog.bind_trap _ hopen

/-! ## The response to the HEAD request -/

theorem acceptHead_eq {rx : rx_response} {p : parsedResponse}
    (hp : parsedResponse.processHeaders rx = .ok p) : acceptHead max_file_size rx =
      if 200 ≠ p.status_code then .err .status_code_nok
      else
        match p.content_length with
        | none => .trap
        | some fileSize =>
          if max_file_size < fileSize then .err .file_size_exceeded else .ok (fileSize, p.etag) := by
  unfold acceptHead
  rw [hp]
  rfl

/-- What is accepted has been announced. -/
theorem acceptHead_ok {rx : rx_response} {fileSize : Nat} {etag : Option (List UInt8)}
    (h : acceptHead max_file_size rx = .ok (fileSize, etag)) :
    ∃ p, parsedResponse.processHeaders rx = .ok p ∧ p.status_code = 200 ∧
      p.content_length = some fileSize ∧ p.etag = etag ∧ fileSize ≤ max_file_size := by
  cases hp : parsedResponse.processHeaders rx with
  | ok p =>
    rw [acceptHead_eq hp] at h
    split at h
    · cases h
    · rename_i hstatus
      cases hlength : p.content_length with
      | none =>
        rw [hlength] at h
        cases h
      | some n =>
        rw [hlength] at h
        simp only at h
        split at h
        · cases h
        · rename_i hmax
          cases h
          exact ⟨p, rfl, (not_not.mp hstatus).symm, hlength, rfl, Nat.not_lt.mp hmax⟩
  | _ =>
    unfold acceptHead at h
    rw [hp] at h
    cases h

/-- A download that succeeds has run through its loop. -/
theorem Downloaded.succeeded {x : Exit Error Unit} {s' : State}
    (h : Downloaded X url max_file_size s x s') (hx : x = .ok ()) :
    ∃ rx fileSize etag s₁ s₂ s₃, Headed s rx s₁ ∧
      acceptHead max_file_size rx = .ok (fileSize, etag) ∧ s₂.file = .empty ∧ s₂.log = s₁.log ∧
      Rounds (fun _ => Ranged X url fileSize) () s₂ (.ok ()) s₃ ∧ s₃.file.fptr = fileSize ∧
      s'.file = s₃.file ∧ Extends s₃ s' := by
  cases h with
  | unopened _ _ hreturned =>
    rw [hx] at hreturned
    cases hreturned
  | unanswered _ _ _ hreturned =>
    rw [hx] at hreturned
    cases hreturned
  | unaccepted _ _ _ _ _ _ hreturned =>
    rw [hx] at hreturned
    cases hreturned
  | overflow => cases hx
  | unwritten => cases hx
  | fetched rx fileSize etag s₁ s₂ s₃ _ y hheaded haccept _ hempty hlog hrounds hfile hlog' =>
    cases y with
    | ok _ =>
      simp only [fetchedExit] at hx
      split at hx
      · cases hx
      · rename_i hsize
        exact ⟨rx, fileSize, etag, s₁, s₂, s₃, hheaded, haccept, hempty, hlog, hrounds,
          not_not.mp hsize, hfile, ⟨_, hlog'⟩⟩
    | _ => cases hx

/-- Only a complete URL is downloaded from. -/
theorem filedownload_complete {fuel block_size : Nat} {url : Except Error Url} {s' : State}
    (h : filedownload X fuel url block_size max_file_size s = (.ok (), s')) :
    ∃ u, url = .ok u ∧ u.Complete := by
  cases url with
  | error e => cases h
  | ok u =>
    refine ⟨u, rfl, ?_⟩
    have hopen := open_spec s fuel u
    unfold filedownload at h
    simp only at h
    cases hrun : connection.open fuel u.uri s with
    | mk x s₁ =>
      have hx := wp_of_run hopen hrun
      obtain ⟨-, ⟨-, hurl, -⟩ | ⟨hreturned, -, -⟩⟩ := hx
      · exact hurl
      · cases x with
        | ok _ => cases hreturned
        | err e =>
          rw [Prog.bind_err _ hrun] at h
          cases h
        | trap =>
          rw [Prog.bind_trap _ hrun] at h
          cases h
        | halt =>
          rw [Prog.bind_halt _ hrun] at h
          cases h

end Specs

/-! ## A server -/

/-- A response as it is sent. -/
structure Reply where
  status : Nat
  headers : List (String × String)
  body : String

namespace Reply

def statusLine (r : Reply) : List UInt8 := bytesOf s!"HTTP/1.1 {r.status} OK\r\n"

def line (h : String × String) : List UInt8 := bytesOf s!"{h.1}: {h.2}\r\n"

/-- The header block. -/
def head (r : Reply) : List UInt8 := r.statusLine ++ r.headers.flatMap line ++ bytesOf "\r\n"

def bytes (r : Reply) : List UInt8 := r.head ++ bytesOf r.body

/-- Where the headers are, if the first one begins at `off`. -/
def headersAt (off : Nat) : List (String × String) → List HeaderAt
  | [] => []
  | h :: rest =>
    ⟨off, (bytesOf h.1).length, off + (bytesOf h.1).length + 2, (bytesOf h.2).length⟩ ::
      headersAt (off + (line h).length) rest

/-- The header block, or the beginning of it, is parsed. -/
def parse (r : Reply) (buf : List UInt8) (num_headers : Nat) : phr_result :=
  let headers := headersAt r.statusLine.length r.headers
  if r.head <+: buf then
    if num_headers < headers.length then ⟨-1, 0, []⟩ else ⟨r.head.length, r.status, headers⟩
  else ⟨-2, 0, headers.filter fun h => h.value + h.value_len + 2 ≤ buf.length⟩

end Reply

/-- A parser of the given responses. -/
def Externs.parsing (l : List Reply) : Externs where
  phr_parse_response buf num_headers _ :=
    match l.find? fun r => r.head <+: buf ∨ buf <+: r.head with
    | some r => r.parse buf num_headers
    | none => ⟨-1, 0, []⟩

theorem Reply.parse_documented (r : Reply) (buf : List UInt8) (num_headers : Nat) :
    (r.parse buf num_headers).pret ≤ buf.length ∧ 0 ≤ (r.parse buf num_headers).status := by
  unfold parse
  simp only
  split
  · rename_i hpre
    have hle := hpre.length_le
    split
    · simp only
      omega
    · simp only
      omega
  · simp only
    omega

theorem Externs.parsing_documented (l : List Reply) : (Externs.parsing l).Documented := by
  constructor
  · intro buf num_headers last_len
    unfold parsing
    simp only
    split
    · exact (Reply.parse_documented _ buf num_headers).1
    · simp only
      omega
  · intro buf num_headers last_len _
    unfold parsing
    simp only
    split
    · exact (Reply.parse_documented _ buf num_headers).2
    · exact Int.le_refl 0

/-- A card and a network on which no call fails: `arrivals` come one after the other. -/
def Env.smooth (arrivals : List Arrival) (room : Nat → Nat) : Env where
  sl_Send _ := 100
  arrival n := arrivals.getD n .timeout
  fs _ _ := none
  room := room
  grown _ := []

def State.smooth (arrivals : List Arrival) (room : Nat → Nat) : State where
  link := ⟨fun _ _ => 0, fun _ => .ok (), -1, []⟩
  env := .smooth arrivals room
  rx_buffer := ⟨List.replicate rx_buffer_len 0, List.length_replicate⟩
  etag := ⟨List.replicate etag_len 0, List.length_replicate⟩
  file := .empty
  log := []

def Url.example : Url := ⟨⟨"http", some "HTTP_HOST", some 80⟩, "/app.bin"⟩

namespace Reply

/-- The replies arrive one after the other, on a card with room. -/
def arriving (l : List Reply) : State := .smooth (l.map fun r => .bytes r.bytes) fun _ => 8

/-- The download from a server that gives the replies. -/
def download (l : List Reply) : Exit Error Unit × State :=
  filedownload (.parsing l) 20 (.ok .example) 4 100 (arriving l)

end Reply

end Miso.Http

import Miso.Http.Message

/-!
# The download of a file (`http.zig`, `fatfs.zig`)

The client (`State`) and the functions under `filedownload`.  What comes from outside — the
socket, FatFs and `phr_parse_response` — answers from `State.env`, `State.link` and `Externs`, so
that "for every server and every card" is "for every `State`".

* `File` — an open file; `f_write` may store fewer bytes than asked and still succeed, as `ff.c`
  does on a full card, and `f_lseek` beyond the end extends the file as far as there is room;
* `recieveResponse` — the header of a response, and what has come with it of the body;
* `filedownload` — the loop over range requests.

`State.log` records what the properties speak about, oldest first.
-/

namespace Miso.Http

open Zig Net Boot

/-! ## The file -/

/-- An open file (`FIL`). -/
structure File where
  content : List UInt8
  fptr : Nat
  bound : fptr ≤ content.length

namespace File

def tell (f : File) : Nat := f.fptr
def size (f : File) : Nat := f.content.length

/-- `f_open` with `FA_CREATE_ALWAYS`. -/
def empty : File := ⟨[], 0, Nat.le_refl 0⟩

/-- The file pointer at `ofs`, in a file that is long enough. -/
def moveTo (f : File) (ofs : Nat) (h : ofs ≤ f.content.length) : File := ⟨f.content, ofs, h⟩

/-- `f_lseek` on an open file; `grown` is what an extended file has room for. -/
def seek (f : File) (ofs : Nat) (grown : List UInt8) : File :=
  if h : ofs ≤ f.content.length then f.moveTo ofs h
  else
    ⟨f.content ++ grown.take (ofs - f.content.length),
      (f.content ++ grown.take (ofs - f.content.length)).length, Nat.le_refl _⟩

theorem spliceAt_bound (f : File) (data : List UInt8) :
    f.fptr + data.length ≤ (spliceAt f.content f.fptr data).length := by
  have hbound := f.bound
  simp only [spliceAt, List.length_append, List.length_take, List.length_drop]
  omega

/-- `f_write` of `data` at the file pointer. -/
def put (f : File) (data : List UInt8) : File :=
  ⟨spliceAt f.content f.fptr data, f.fptr + data.length, f.spliceAt_bound data⟩

end File

/-! ## State -/

/-- An array of `n` bytes. -/
structure Buffer (n : Nat) where
  content : List UInt8
  length_eq : content.length = n

namespace Buffer

variable {n : Nat}

theorem spliceAt_length (b : Buffer n) (off : Nat) (data : List UInt8) :
    ((spliceAt b.content off data).take n).length = n := by
  have hlength := b.length_eq
  simp only [spliceAt, List.length_append, List.length_take, List.length_drop]
  omega

/-- `data` is written at `off`. -/
def write (b : Buffer n) (off : Nat) (data : List UInt8) : Buffer n :=
  ⟨(spliceAt b.content off data).take n, b.spliceAt_length off data⟩

end Buffer

def rx_buffer_len : Nat := 1536
def tx_buffer_len : Nat := 256
def headers_len : Nat := 24
def etag_len : Nat := 64

/-- What happens when data is waited for. -/
inductive Arrival where
  /-- `waitRx` times out. -/
  | timeout
  /-- `waitRx` returns an error. -/
  | failed
  /-- Data has arrived; without bytes the peer has closed the connection. -/
  | bytes (data : List UInt8)
  deriving DecidableEq, Repr

inductive Fs where
  | f_open | f_sync | f_lseek | f_write | f_close
  deriving DecidableEq, Repr

/-- The answers of the environment to come. -/
structure Env where
  sl_Send : Nat → Int
  arrival : Nat → Arrival
  /-- The result of a FatFs function; `none` is `FR_OK`. -/
  fs : Fs → Nat → Option FRESULT
  /-- How many bytes `f_write` has room for. -/
  room : Nat → Nat
  /-- What the area holds by which `f_lseek` extends a file. -/
  grown : Nat → List UInt8

namespace Env

def advanceSend (e : Env) : Env := { e with sl_Send := fun n => e.sl_Send (n + 1) }

def advanceArrival (e : Env) : Env := { e with arrival := fun n => e.arrival (n + 1) }

def advanceRoom (e : Env) : Env := { e with room := fun n => e.room (n + 1) }

def advanceGrown (e : Env) : Env := { e with grown := fun n => e.grown (n + 1) }

def advanceFs (e : Env) (a : Fs) : Env :=
  { e with fs := fun b => if b = a then fun n => e.fs a (n + 1) else e.fs b }

end Env

/-- What the properties speak about. -/
inductive Event where
  | opened
  | closed
  /-- A request is sent. -/
  | request (text : String)
  /-- `waitRx` has timed out. -/
  | timeout
  /-- The response to the HEAD request. -/
  | head (rx : rx_response)
  /-- The response to a range request, and the file pointer when it comes. -/
  | range (position : Nat) (rx : rx_response)
  /-- The file is begun again. -/
  | rewound
  /-- The file pointer is moved back to the start of a range with this payload. -/
  | sought (start : Nat) (payload : Option (List UInt8))
  /-- `f_write` has stored less than it was given. -/
  | short
  deriving DecidableEq, Repr

structure State where
  link : Link
  env : Env
  rx_buffer : Buffer rx_buffer_len
  etag : Buffer etag_len
  file : File
  log : List Event

abbrev HttpM := Prog State Error

def record (l : List Event) : HttpM Unit := Prog.modify fun s => { s with log := s.log ++ l }

/-! ## The connection -/

/-- What `std.Uri.parse` makes of the URL. -/
structure Url where
  uri : Uri
  path : String

def onLink {α : Type} (m : NetM α) : HttpM α :=
  Prog.zoom State.link (fun l s => { s with link := l }) (m.mapErr Error.connection)

namespace connection

def «open» (fuel : Nat) (uri : Uri) : HttpM Unit := do
  onLink (SimpleLinkConnection.open fuel .tcp_ip4 uri)
  record [.opened]

def close : HttpM Unit := do
  record [.closed]
  onLink SimpleLinkConnection.close

def sl_Send : HttpM Int := fun s =>
  (.ok (s.env.sl_Send 0), { s with env := s.env.advanceSend })

/-- `send`: a part of the request may be taken. -/
def send (request : String) : HttpM Unit := do
  record [.request request]
  let ret ← sl_Send
  if ret ≤ 0 then Prog.throw (.connection .send_error)

/-- `waitRx`; what has arrived is left to `recieve`. -/
def waitRx : HttpM Bool := fun s =>
  match s.env.arrival 0 with
  | .timeout =>
    (.ok false, { s with env := s.env.advanceArrival, log := s.log ++ [.timeout] })
  | .failed => (.err (.connection .QueueSendFailed), { s with env := s.env.advanceArrival })
  | .bytes _ => (.ok true, s)

/-- `recieve` into `rx_buffer[rx_count..]`. -/
def recieve (rx_count : Nat) : HttpM (List UInt8) := fun s =>
  match s.env.arrival 0 with
  | .bytes data =>
    let s' := { s with
      env := s.env.advanceArrival
      rx_buffer := s.rx_buffer.write rx_count (data.take (rx_buffer_len - rx_count)) }
    if data = [] then (.err (.connection .recieve_error), s')
    else if rx_buffer_len - rx_count < data.length then (.err (.connection .buffer_owerflow), s')
    else (.ok data, s')
  | _ => (.err (.connection .recieve_error), s)

end connection

/-! ## FatFs -/

namespace file

/-- The return code of the next call of `a`. -/
def check (a : Fs) : HttpM Unit := fun s =>
  match s.env.fs a 0 with
  | none => (.ok (), { s with env := s.env.advanceFs a })
  | some r => (.err (.fatfs r), { s with env := s.env.advanceFs a })

/-- `file.open` with `create_always` and `write`. -/
def «open» : HttpM Unit := do
  check .f_open
  Prog.modify fun s => { s with file := .empty }

def close : HttpM Unit := check .f_close

def sync : HttpM Unit := check .f_sync

def tell : HttpM Nat := fun s => (.ok s.file.tell, s)

def lseek (offset : Nat) : HttpM Unit := do
  check .f_lseek
  Prog.modify fun s => { s with
    file := s.file.seek offset (s.env.grown 0)
    env := s.env.advanceGrown }

def rewind : HttpM Unit := lseek 0

/-- What there is room for is stored; the result is its length. -/
def put (buf : List UInt8) : HttpM Nat := fun s =>
  (.ok (buf.take (s.env.room 0)).length,
    { s with file := s.file.put (buf.take (s.env.room 0)), env := s.env.advanceRoom })

/-- `file.write`: bytes are stored also when the call fails. -/
def write (buf : List UInt8) : HttpM Nat := do
  let bytesWritten ← put buf
  check .f_write
  if buf.length < bytesWritten then Prog.throw .buffer_overflow else pure bytesWritten

end file

/-! ## Requests and responses -/

/-- `std.fmt.bufPrint` into `tx_buffer`. -/
def bufPrint (text : String) : HttpM String :=
  if text.utf8ByteSize ≤ tx_buffer_len then pure text else Prog.throw .NoSpaceLeft

def Url.host (url : Url) : HttpM String :=
  match url.uri.host with
  | some host => pure host
  | none => Prog.trap

def sendGetRangeRequest (url : Url) (start last : Nat) : HttpM Unit := do
  let host ← url.host
  let request ← bufPrint
    s!"GET {url.path} HTTP/1.1\r\nHost: {host}\r\nRange: bytes={start}-{last}\r\n\r\n"
  connection.send request

def sendHeadRequest (url : Url) : HttpM Unit := do
  let host ← url.host
  let request ← bufPrint s!"HEAD {url.path} HTTP/1.1\r\nHost: {host}\r\n\r\n"
  connection.send request

/-- A header in the buffer that has been parsed. -/
structure HeaderAt where
  name : Nat
  name_len : Nat
  value : Nat
  value_len : Nat
  deriving DecidableEq, Repr

/-- The header in the memory from the start of the buffer. -/
def HeaderAt.view (h : HeaderAt) (buffer : List UInt8) : phr_header where
  name := (buffer.drop h.name).take h.name_len
  value := buffer.drop h.value
  value_len := h.value_len

/-- The header in a buffer that begins `base` bytes earlier. -/
def HeaderAt.shift (h : HeaderAt) (base : Nat) : HeaderAt :=
  { h with name := base + h.name, value := base + h.value }

/-- What `phr_parse_response` returns, and what it leaves in its arguments; `num_headers` is the
number of `headers`. -/
structure phr_result where
  pret : Int
  status : Int
  headers : List HeaderAt
  deriving DecidableEq, Repr

/-- Code that is not part of the repository: picohttpparser. -/
structure Externs where
  /-- The buffer, the length of the array of headers, and `last_len`. -/
  phr_parse_response : List UInt8 → Nat → Nat → phr_result

/-- The variables of `recieveResponse`. -/
structure Receiving where
  pret : Int
  rx_count : Nat
  prevbuflen : Nat
  num_headers : Nat
  status : Int
  headers : List HeaderAt
  deriving DecidableEq, Repr

def Receiving.init : Receiving := ⟨-2, 0, 0, headers_len, 0, []⟩

variable (X : Externs)

/-- The variables after a piece has been received; only the piece is parsed. -/
def Receiving.parse (v : Receiving) (rec : List UInt8) : Receiving where
  pret := (X.phr_parse_response rec v.num_headers v.prevbuflen).pret
  rx_count := v.rx_count + rec.length
  prevbuflen := v.rx_count
  num_headers := (X.phr_parse_response rec v.num_headers v.prevbuflen).headers.length
  status := (X.phr_parse_response rec v.num_headers v.prevbuflen).status
  headers := (X.phr_parse_response rec v.num_headers v.prevbuflen).headers.map
    (·.shift v.rx_count)

/-- One round of the loop of `recieveResponse`. -/
def receiveStep (v : Receiving) : HttpM (Receiving ⊕ Receiving) := do
  if v.pret = -2 ∧ v.rx_count < rx_buffer_len then
    if ← connection.waitRx then
      let data ← connection.recieve v.rx_count
      pure (.inl (v.parse X data))
    else pure (.inl v)
  else pure (.inr v)

/-- What `recieveResponse` returns behind its loop. -/
def Receiving.response (v : Receiving) (rx_buffer : List UInt8) : Exit Error rx_response :=
  if 0 < v.pret then
    if v.rx_count < v.pret.toNat ∨ v.status < 0 then .trap
    else .ok
      { payload := if v.rx_count = v.pret.toNat then none
          else some ((rx_buffer.take v.rx_count).drop v.pret.toNat)
        headers := v.headers.map (·.view rx_buffer)
        status := v.status.toNat }
  else if v.pret = -1 then .err .phr_library_parse_failed
  else .err .rx_error

def recieveResponse (fuel : Nat) : HttpM rx_response := do
  let v ← Prog.loop (receiveStep X) fuel .init
  Prog.ofExit (v.response (← Prog.get).rx_buffer.content)

/-! ## The download -/

def calcRequestEnd (file_size block_size current_position : Nat) : Nat :=
  if file_size - 1 < current_position + (block_size - 1) then file_size - 1
  else current_position + (block_size - 1)

/-- The connection is renewed if the server closes it. -/
def reconnect (fuel : Nat) (url : Url) (p : parsedResponse) : HttpM Unit :=
  match p.keep_alive with
  | some .close => do
    connection.close
    connection.open fuel url.uri
  | _ => pure ()

/-- The payload is written at the file pointer, which stays if it is not written whole. -/
def store (payload : List UInt8) : HttpM Unit := do
  let current_position ← file.tell
  let n ← file.write payload
  (if payload.length ≠ n then do
    record [.short]
    file.lseek current_position
  else pure ())
  file.sync

/-- What becomes of the response to a range request. -/
def storeRange (fuel : Nat) (url : Url) (p : parsedResponse) : HttpM (Unit ⊕ Unit) :=
  if 206 = p.status_code then
    match p.range with
    | none => Prog.trap
    | some range => do
      let position ← file.tell
      if position < range.start then do
        -- `continue`: the end of the loop's body is not reached
        file.rewind
        file.sync
        record [.rewound]
        pure (.inl ())
      else do
        (if range.start < position then do
          file.lseek range.start
          record [.sought range.start p.payload]
        else pure ())
        match p.payload with
        | none => Prog.trap
        | some payload => do
          store payload
          reconnect fuel url p
          pure (.inl ())
  else Prog.throw .unexpected_status_code

/-- One round of the loop of `filedownload`. -/
def rangeStep (fuel : Nat) (url : Url) (block_size fileSize : Nat) : HttpM (Unit ⊕ Unit) := do
  let position ← file.tell
  if position < fileSize then
    sendGetRangeRequest url position (calcRequestEnd fileSize block_size position)
    let rx ← recieveResponse X fuel
    record [.range position rx]
    let p ← Prog.ofExit (parsedResponse.processHeaders rx)
    storeRange fuel url p
  else pure (.inr ())

/-- The length of the file and the ETag, from the response to the HEAD request. -/
def acceptHead (max_file_size : Nat) (rx : rx_response) :
    Exit Error (Nat × Option (List UInt8)) := do
  let p ← parsedResponse.processHeaders rx
  if 200 ≠ p.status_code then .err .status_code_nok
  else
    match p.content_length with
    | none => .trap
    | some fileSize =>
      if max_file_size < fileSize then .err .file_size_exceeded else pure (fileSize, p.etag)

/-- `@memcpy` to a pointer to `etag`: nothing checks that there is room. -/
def keepEtag : Option (List UInt8) → HttpM Unit
  | none => pure ()
  | some etag =>
    if etag_len < etag.length then Prog.trap
    else Prog.modify fun s => { s with etag := s.etag.write 0 etag }

/-- The ranges, into a new file. -/
def fetch (fuel : Nat) (url : Url) (block_size fileSize : Nat) : HttpM Unit := do
  file.open
  Prog.deferring file.close do
    file.sync
    Prog.loop (fun _ => rangeStep X fuel url block_size fileSize) fuel ()
    if (← file.tell) ≠ fileSize then Prog.throw .file_size_mismatch else pure ()

/-- `filedownload` of a URL that `std.Uri.parse` accepts or refuses. -/
def filedownload (fuel : Nat) (url : Except Error Url) (block_size max_file_size : Nat) :
    HttpM Unit :=
  match url with
  | .error e => Prog.throw e
  | .ok url => do
    connection.open fuel url.uri
    Prog.deferring connection.close do
      sendHeadRequest url
      let rx ← recieveResponse X fuel
      record [.head rx]
      let (fileSize, etag) ← Prog.ofExit (acceptHead max_file_size rx)
      keepEtag etag
      fetch X fuel url block_size fileSize

end Miso.Http

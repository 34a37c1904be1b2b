import Miso.Net.Socket
import Miso.Boot.Device
import Miso.Zig.Fmt

/-!
# Responses of an HTTP server (`http.zig`)

The headers that `phr_parse_response` leaves in `rx_buffer`, and what `processHeaders` makes of
them.  A header's value is a C pointer: `phr_header.value` is the memory from there to the end of
`rx_buffer`, so that a slice of fixed length may run past `value_len`, and past the buffer.
-/

namespace Miso.Http

open Zig Net Boot

/-! ## Errors -/

/-- The global error set, as far as a download can produce it. -/
inductive Error where
  -- `http.error`
  | rx_error | tx_error | phr_library_parse_failed | parse_error | timeout | connection_error
  | status_code_nok | file_size_mismatch | file_size_exceeded | unexpected_status_code
  | range_response_parse_error
  /-- `connection.connection_error`. -/
  | connection (e : Net.Error)
  /-- `fatfs.frError`. -/
  | fatfs (r : FRESULT)
  | buffer_overflow
  /-- `std.fmt.ParseIntError`. -/
  | number (e : ParseIntError)
  -- `std.fmt.BufPrintError` and `std.Uri.ParseError`
  | NoSpaceLeft | UnexpectedCharacter | InvalidFormat | InvalidPort
  deriving DecidableEq, Repr

def usize_max : Nat := 2 ^ 32 - 1

/-- `try std.fmt.parseInt(usize, buf, 10)`. -/
def parseUsize (buf : List UInt8) : Exit Error Nat :=
  match parseInt usize_max buf with
  | .ok n => .ok n
  | .error e => .err (.number e)

/-! ## Headers -/

/-- `c.phr_header`. -/
structure phr_header where
  name : List UInt8
  value : List UInt8
  value_len : Nat
  deriving DecidableEq, Repr

/-- `header.value[0..header.value_len]`. -/
def phr_header.text (h : phr_header) : List UInt8 := h.value.take h.value_len

/-- `header.value[0..n]`. -/
def phr_header.slice (h : phr_header) (n : Nat) : Exit Error (List UInt8) :=
  if h.value.length < n then .trap else .ok (h.value.take n)

inductive responseHeaders where
  | contentType | contentLength | contentRange | connection | contentLocation | contentEncoding
  | acceptRanges | etag
  deriving DecidableEq, Repr

namespace responseHeaders

def stringMap : List (List UInt8 × responseHeaders) :=
  [(bytesOf "Content-Type", contentType), (bytesOf "Content-Length", contentLength),
   (bytesOf "Content-Range", contentRange), (bytesOf "Connection", connection),
   (bytesOf "Content-Location", contentLocation), (bytesOf "Content-Encoding", contentEncoding),
   (bytesOf "Accept-Ranges", acceptRanges), (bytesOf "ETag", etag)]

/-- `responseHeaders.match`. -/
def ofHeader (header : phr_header) : Option responseHeaders := stringMap.lookup header.name

end responseHeaders

inductive acceptRanges where
  | none
  | bytes
  deriving DecidableEq, Repr

def acceptRanges.stringMap : List (List UInt8 × acceptRanges) :=
  [(bytesOf "bytes", .bytes), (bytesOf "none", .none)]

/-- `acceptRanges.match`. -/
def acceptRanges.ofHeader (header : phr_header) : Exit Error acceptRanges :=
  match stringMap.lookup header.text with
  | some r => .ok r
  | Option.none => .err .parse_error

inductive keepAlive where
  | keep_alive
  | close
  deriving DecidableEq, Repr

def keepAlive.stringMap : List (List UInt8 × keepAlive) :=
  [(bytesOf "keep-alive", .keep_alive), (bytesOf "close", .close)]

/-- `keepAlive.match`. -/
def keepAlive.ofHeader (header : phr_header) : Exit Error keepAlive :=
  match stringMap.lookup header.text with
  | some k => .ok k
  | none => .err .parse_error

/-- A parsed Content-Range. -/
structure rangeResponse where
  start : Nat
  «end» : Nat
  total : Option Nat
  deriving DecidableEq, Repr

/-- `if (iter.next()) |val| … parseInt(val)`. -/
def nextNumber : List (List UInt8) → Exit Error (Option Nat)
  | [] => .ok none
  | val :: _ => do
    let n ← parseUsize val
    pure (some n)

/-- `rangeResponse.match`; there is no range in the answer to an unsatisfiable request. -/
def rangeResponse.ofHeader (header : phr_header) : Exit Error (Option rangeResponse) := do
  if (← header.slice 6) ≠ bytesOf "bytes " then .err .range_response_parse_error
  else if (← header.slice 7) = bytesOf "bytes *" then pure none
  else if header.value_len < 6 then .trap
  else do
    let segments := splitAny (header.text.drop 6) (bytesOf "-/")
    let start ← parseUsize (segments.headD [])
    let last ← nextNumber (segments.drop 1)
    let total ← nextNumber (segments.drop 2)
    pure (some ⟨start, last.getD 0, total⟩)

/-! ## Responses -/

/-- `rx_response`. -/
structure rx_response where
  payload : Option (List UInt8)
  headers : List phr_header
  status : Nat
  deriving DecidableEq, Repr

/-- `parsedResponse`; its `content_type` is never set. -/
structure parsedResponse where
  status_code : Nat
  content_length : Option Nat
  range : Option rangeResponse
  accept_ranges : Option acceptRanges
  keep_alive : Option keepAlive
  payload : Option (List UInt8)
  etag : Option (List UInt8)
  deriving DecidableEq, Repr

namespace parsedResponse

/-- The default values. -/
def init (rx : rx_response) : parsedResponse where
  status_code := rx.status
  content_length := none
  range := none
  accept_ranges := none
  keep_alive := none
  payload := rx.payload
  etag := none

/-- One round of the loop of `processHeaders`. -/
def processHeader (self : parsedResponse) (header : phr_header) : Exit Error parsedResponse :=
  match responseHeaders.ofHeader header with
  | some .contentRange => do
    let range ← rangeResponse.ofHeader header
    pure { self with range := range }
  | some .acceptRanges => do
    let accept_ranges ← acceptRanges.ofHeader header
    pure { self with accept_ranges := some accept_ranges }
  | some .contentLength => do
    let content_length ← parseUsize header.text
    pure { self with content_length := some content_length }
  | some .etag => pure { self with etag := some header.text }
  | some .connection => do
    let kA ← keepAlive.ofHeader header
    pure { self with keep_alive := some kA }
  | _ => pure self

def processHeaders (rx : rx_response) : Exit Error parsedResponse :=
  rx.headers.foldlM processHeader (init rx)

end parsedResponse

end Miso.Http

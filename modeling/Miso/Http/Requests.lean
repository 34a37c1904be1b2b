import Miso.Http.Download
import Miso.Http.Rfc7230
import Miso.Zig.Uri

/-!
# The requests of the URL (`http.zig`)

What `sendHeadRequest` and `sendGetRangeRequest` ask for, when a server reads it.

* `Plain` — the URLs with a path of the grammar, no query, no port but the default one, and a host
  that needs no more than its own characters;
* `denotes_iff` — the requests denote the URL exactly for these.
-/

namespace Miso.Http

open Zig
open Rfc7230 (Resource Request isPath isHost)

/-- The URL as the client holds it. -/
def Url.ofStdUri (u : StdUri) : Url :=
  ⟨⟨String.ofList u.scheme, u.host.map String.ofList, u.port⟩, String.ofList u.path⟩

/-- The default port of a scheme; schemes are not case-sensitive. -/
def defaultPort (scheme : List Char) : Option Nat :=
  if scheme.map Char.toLower = "http".toList then some 80
  else if scheme.map Char.toLower = "https".toList then some 443
  else none

/-- What a URL with a host denotes. -/
def resource (u : StdUri) : Resource where
  host := u.host.getD []
  port := (u.port.map UInt16.toNat).or (defaultPort u.scheme)
  path := if u.path = [] then ['/'] else u.path
  query := u.query

/-! ## What is sent -/

def headText (path host : String) : String := s!"HEAD {path} HTTP/1.1\r\nHost: {host}\r\n\r\n"

def getRangeText (path host : String) (start last : Nat) : String :=
  s!"GET {path} HTTP/1.1\r\nHost: {host}\r\nRange: bytes={start}-{last}\r\n\r\n"

theorem headText_toList (path host : List Char) :
    (headText (String.ofList path) (String.ofList host)).toList =
      Request.write "HEAD".toList path host none := by
  have htext : headText (String.ofList path) (String.ofList host) =
      "HEAD " ++ String.ofList path ++ " HTTP/1.1\r\nHost: " ++ String.ofList host ++
        "\r\n\r\n" := rfl
  rw [htext]
  simp only [String.toList_append, String.toList_ofList, List.append_assoc]
  simp only [Request.write, Rfc7230.message, Option.map_none, Option.toList_none,
    List.flatMap_cons, List.flatMap_nil, List.append_nil, List.append_assoc, List.cons_append,
    List.nil_append]
  rfl

/-- The lines of the format string. -/
theorem range_message (path host first last : List Char) :
    "GET ".toList ++ (path ++ (" HTTP/1.1\r\nHost: ".toList ++ (host ++
      ("\r\nRange: bytes=".toList ++ (first ++ ("-".toList ++ (last ++
        "\r\n\r\n".toList))))))) =
      Rfc7230.message ["GET".toList ++ ' ' :: (path ++ ' ' :: "HTTP/1.1".toList),
        "Host: ".toList ++ host, "Range: bytes=".toList ++ (first ++ '-' :: last)] := by
  simp only [Rfc7230.message, List.flatMap_cons, List.flatMap_nil, List.append_nil,
    List.append_assoc, List.cons_append, List.nil_append]
  rfl

theorem getRangeText_toList (path host : List Char) (start last : Nat) :
    (getRangeText (String.ofList path) (String.ofList host) start last).toList =
      Request.write "GET".toList path host (some (start, last)) := by
  have htext : getRangeText (String.ofList path) (String.ofList host) start last =
      "GET " ++ String.ofList path ++ " HTTP/1.1\r\nHost: " ++ String.ofList host ++
        "\r\nRange: bytes=" ++ start.repr ++ "-" ++ last.repr ++ "\r\n\r\n" := rfl
  rw [htext]
  simp only [String.toList_append, String.toList_ofList, List.append_assoc, Nat.toList_repr]
  unfold Request.write
  rw [Option.map_some, Option.toList_some]
  exact range_message path host (Nat.toDigits 10 start) (Nat.toDigits 10 last)

/-- The requests of the URL fit into `tx_buffer`. -/
def Fits (u : StdUri) (start last : Nat) : Prop :=
  (headText (String.ofList u.path) (String.ofList (u.host.getD []))).utf8ByteSize ≤
      tx_buffer_len ∧
    (getRangeText (String.ofList u.path) (String.ofList (u.host.getD []))
      start last).utf8ByteSize ≤ tx_buffer_len

instance (u : StdUri) (start last : Nat) : Decidable (Fits u start last) :=
  inferInstanceAs (Decidable (_ ∧ _))

/-- The request that a call hands to the connection. -/
def Requests (m : HttpM Unit) (s : State) (text : String) : Prop :=
  (m s).2.log = s.log ++ [.request text]

theorem print_send_requests {text : String} (h : text.utf8ByteSize ≤ tx_buffer_len) (s : State) :
    Requests (bufPrint text >>= connection.send) s text := by
  unfold Requests bufPrint
  rw [if_pos h]
  exact (send_spec s text).2.1

theorem host_ofStdUri {u : StdUri} {host : List Char} (h : u.host = some host) (s : State) :
    (Url.ofStdUri u).host s = (.ok (String.ofList host), s) := by
  unfold Url.host Url.ofStdUri
  rw [h]
  rfl

theorem sendHeadRequest_requests {u : StdUri} {host : List Char} (hhost : u.host = some host)
    (h : (headText (String.ofList u.path) (String.ofList host)).utf8ByteSize ≤ tx_buffer_len)
    (s : State) : Requests (sendHeadRequest (.ofStdUri u)) s
      (headText (String.ofList u.path) (String.ofList host)) := by
  unfold Requests sendHeadRequest
  rw [Prog.bind_ok _ (host_ofStdUri hhost s)]
  exact print_send_requests h s

theorem sendGetRangeRequest_requests {u : StdUri} {host : List Char} {start last : Nat}
    (hhost : u.host = some host)
    (h : (getRangeText (String.ofList u.path) (String.ofList host) start last).utf8ByteSize ≤
      tx_buffer_len)
    (s : State) : Requests (sendGetRangeRequest (.ofStdUri u) start last) s
      (getRangeText (String.ofList u.path) (String.ofList host) start last) := by
  unfold Requests sendGetRangeRequest
  rw [Prog.bind_ok _ (host_ofStdUri hhost s)]
  exact print_send_requests h s

theorem Requests.unique {m : HttpM Unit} {s : State} {text other : String}
    (h : Requests m s text) (h' : Requests m s other) : text = other := by
  have hevents : [Event.request text] = [.request other] :=
    List.append_cancel_left (Eq.trans (Eq.symm h) h')
  cases hevents
  rfl

/-! ## What is asked for -/

/-- Both requests denote the resource of the URL, and the second one the range. -/
def Denotes (s : State) (u : StdUri) (start last : Nat) : Prop :=
  ∃ head get : String, Requests (sendHeadRequest (.ofStdUri u)) s head ∧
    Requests (sendGetRangeRequest (.ofStdUri u) start last) s get ∧
    Request.read (defaultPort u.scheme) head.toList =
      some ⟨"HEAD".toList, resource u, none⟩ ∧
    Request.read (defaultPort u.scheme) get.toList =
      some ⟨"GET".toList, resource u, some (start, last)⟩

/-- The URLs that a request of path and host alone denotes. -/
structure Plain (u : StdUri) : Prop where
  path_ne : u.path ≠ []
  path : Rfc7230.encoded Rfc7230.isPathChar u.path = true
  query : u.query = none
  port : ∀ p ∈ u.port, defaultPort u.scheme = some p.toNat
  host : ∀ host ∈ u.host, isHost host = true

theorem isPath_ne_nil {path : List Char} (h : isPath path = true) : path ≠ [] := by
  intro hempty
  rw [hempty] at h
  exact absurd h (by decide)

/-- A message of the client, when it is read. -/
theorem read_client {u : StdUri} {host : List Char} (hhost : isHost host = true)
    (hpath : u.path = [] ∨ isPath u.path = true) {method : List Char} (hmethod : method ≠ [])
    (htoken : method.all Rfc7230.isTokenChar = true) (range : Option (Nat × Nat)) :
    Request.read (defaultPort u.scheme) (Request.write method u.path host range) =
      if u.path = [] then none
      else some ⟨method, ⟨host, defaultPort u.scheme, u.path, none⟩, range⟩ := by
  have hvisible : ∀ c ∈ u.path, Rfc7230.Visible c := by
    rcases hpath with hempty | hpath
    · rw [hempty]
      exact fun c hc => absurd hc List.not_mem_nil
    · exact Rfc7230.isPath.visible hpath
  rw [Request.read_write _ hmethod htoken hvisible hhost]
  rcases hpath with hempty | hpath
  · rw [if_pos hempty, hempty]
    rfl
  · rw [if_neg (isPath_ne_nil hpath), Rfc7230.originForm_path hpath]
    rfl

theorem Plain.isPath {text : List Char} {u : StdUri} (h : Plain u)
    (hparse : StdUri.parse text = .ok u) (hhost : u.host.isSome) : isPath u.path = true := by
  have hroot := (StdUri.parse_path hparse hhost).1.resolve_left h.path_ne
  exact (Bool.and_eq_true ..).mpr ⟨beq_iff_eq.mpr hroot, h.path⟩

theorem resource_plain {u : StdUri} {host : List Char} (hhost : u.host = some host)
    (h : Plain u) : resource u = ⟨host, defaultPort u.scheme, u.path, none⟩ := by
  have hport : (u.port.map UInt16.toNat).or (defaultPort u.scheme) = defaultPort u.scheme := by
    cases hvalue : u.port with
    | none => rfl
    | some p => exact (h.port p hvalue).symm
  unfold resource
  rw [hhost, hport, if_neg h.path_ne, h.query]
  rfl

theorem Plain.denotes {text : List Char} {u : StdUri} (h : Plain u)
    (hparse : StdUri.parse text = .ok u) (hhost : u.host.isSome) {start last : Nat}
    (hfits : Fits u start last) (s : State) : Denotes s u start last := by
  obtain ⟨host, hsome⟩ := Option.isSome_iff_exists.mp hhost
  unfold Fits at hfits
  rw [hsome] at hfits
  have hread {method : List Char} (hmethod : method ≠ [])
      (htoken : method.all Rfc7230.isTokenChar = true) (range : Option (Nat × Nat)) :
      Request.read (defaultPort u.scheme) (Request.write method u.path host range) =
        some ⟨method, resource u, range⟩ := by
    rw [read_client (h.host host hsome) (.inr (h.isPath hparse hhost)) hmethod htoken,
      if_neg h.path_ne, resource_plain hsome h]
  refine ⟨_, _, sendHeadRequest_requests hsome hfits.1 s,
    sendGetRangeRequest_requests hsome hfits.2 s, ?_, ?_⟩
  · rw [headText_toList]
    exact hread (by decide) (by decide) none
  · rw [getRangeText_toList]
    exact hread (by decide) (by decide) (some (start, last))

theorem Denotes.plain {s : State} {u : StdUri} {start last : Nat} (h : Denotes s u start last)
    (hhost : u.host.isSome) (hfits : Fits u start last) : Plain u := by
  obtain ⟨host, hsome⟩ := Option.isSome_iff_exists.mp hhost
  unfold Fits at hfits
  rw [hsome] at hfits
  obtain ⟨head, -, hrequests, -, hread, -⟩ := h
  rw [hrequests.unique (sendHeadRequest_requests hsome hfits.1 s), headText_toList] at hread
  -- what is read is in the grammar, so host and path of the URL are
  obtain ⟨hpath, hsite⟩ := Request.read_wellFormed hread
  have hhostOf : (resource u).host = host := congrArg (Option.getD · []) hsome
  have hpathOf : u.path = [] ∨ isPath u.path = true := by
    by_cases hempty : u.path = []
    · exact .inl hempty
    · refine .inr ?_
      rwa [show (resource u).path = u.path from if_neg hempty] at hpath
  rw [hhostOf] at hsite
  rw [read_client hsite hpathOf (by decide) (by decide)] at hread
  split at hread
  · cases hread
  · rename_i hne
    have hresource : ⟨host, defaultPort u.scheme, u.path, none⟩ = resource u :=
      congrArg Request.resource (Option.some.inj hread)
    refine ⟨hne, ((Bool.and_eq_true ..).mp (hpathOf.resolve_left hne)).2,
      (congrArg Resource.query hresource).symm, ?_, ?_⟩
    · intro p hp
      have hport : defaultPort u.scheme = (u.port.map UInt16.toNat).or (defaultPort u.scheme) :=
        congrArg Resource.port hresource
      rw [hport, Option.mem_def.mp hp]
      rfl
    · intro site hmem
      rwa [← Option.some.inj (hsome.symm.trans hmem)]

/-- **The requests denote the URL** exactly if it has a path, no query, the default port if any,
and a host that a reader does not cut. -/
theorem denotes_iff (s : State) {text : String} {u : StdUri} (h : StdUri.parse text.toList = .ok u)
    (hhost : u.host.isSome) (start last : Nat) (hfits : Fits u start last) :
    Denotes s u start last ↔ Plain u :=
  ⟨fun hdenotes => hdenotes.plain hhost hfits, fun hplain => hplain.denotes h hhost hfits s⟩

def homeUrl : StdUri :=
  ⟨"http".toList, some "192.168.50.133".toList, some 80, "/app.bin".toList, none, none⟩

theorem denotes_home : StdUri.parse "http://192.168.50.133:80/app.bin".toList = .ok homeUrl ∧
    Denotes (.smooth [] fun _ => 8) homeUrl 0 511 :=
  have hparse : StdUri.parse "http://192.168.50.133:80/app.bin".toList = .ok homeUrl := by
    decide +kernel
  have hfits : Fits homeUrl 0 511 := by decide +kernel
  have hport : ∀ p ∈ homeUrl.port, defaultPort homeUrl.scheme = some p.toNat := by
    intro p hp
    obtain rfl : 80 = p := Option.some.inj hp
    decide +kernel
  have hplain : Plain homeUrl := ⟨by decide, by decide +kernel, rfl, hport, by decide +kernel⟩
  ⟨hparse, (denotes_iff _ hparse rfl 0 511 hfits).mpr hplain⟩

def queryUrl : StdUri := ⟨"http".toList, some ['h'], some 8080, "/a".toList, some ['b'], none⟩

/-- Port and query of a URL are not sent. -/
theorem query_dropped : StdUri.parse "http://h:8080/a?b".toList = .ok queryUrl ∧
    queryUrl.host.isSome ∧ Fits queryUrl 0 511 ∧
    ¬Denotes (.smooth [] fun _ => 8) queryUrl 0 511 := by
  have hfits : Fits queryUrl 0 511 := by decide +kernel
  refine ⟨by decide +kernel, rfl, hfits, ?_⟩
  intro h
  exact absurd (h.plain rfl hfits).query (by decide)

end Miso.Http

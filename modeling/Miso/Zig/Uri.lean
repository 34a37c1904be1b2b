import Miso.Zig.Fmt
import Miso.Zig.Prog
import Mathlib.Data.List.TakeWhile

/-!
# `std.Uri` (library)

* `StdUri.parse` — `std.Uri.parse`, which only cuts the text at its separators;
* `parse_path` — the path behind an authority is empty or absolute, and has no query in it.
-/

namespace Zig

/-- `std.Uri`, without user and password; the components are not unescaped. -/
structure StdUri where
  scheme : List Char
  host : Option (List Char)
  port : Option UInt16
  path : List Char
  query : Option (List Char)
  fragment : Option (List Char)
  deriving DecidableEq, Repr

namespace StdUri

/-- `std.Uri.ParseError`. -/
inductive ParseError where
  | UnexpectedCharacter
  | InvalidFormat
  | InvalidPort
  deriving DecidableEq, Repr

def isSchemeChar (c : Char) : Bool :=
  (65 ≤ c.toNat && c.toNat ≤ 90) || (97 ≤ c.toNat && c.toNat ≤ 122) ||
    (48 ≤ c.toNat && c.toNat ≤ 57) || c == '+' || c == '-' || c == '.'

def isAuthoritySeparator (c : Char) : Bool := c == '/' || c == '?' || c == '#'
def isPathSeparator (c : Char) : Bool := c == '?' || c == '#'
def isQuerySeparator (c : Char) : Bool := c == '#'

/-- `reader.readUntil`. -/
def readUntil (p : Char → Bool) (text : List Char) : List Char := text.takeWhile fun c => !p c

/-- What `reader.readUntil` leaves. -/
def restFrom (p : Char → Bool) (text : List Char) : List Char := text.dropWhile fun c => !p c

/-- The text behind the last `c`. -/
def afterLast (c : Char) (text : List Char) : List Char :=
  (text.reverse.takeWhile (· ≠ c)).reverse

/-- The text before the last `c`. -/
def beforeLast (c : Char) (text : List Char) : List Char :=
  (text.reverse.dropWhile (· ≠ c)).tail.reverse

/-- `std.fmt.parseInt(u16, text, 10) catch return error.InvalidPort`. -/
def parsePort (text : List Char) : Exit ParseError UInt16 :=
  match parseInt 65535 (text.flatMap String.utf8EncodeChar) with
  | .ok n => .ok (UInt16.ofNat n)
  | .error _ => .err .InvalidPort

/-- The port behind the last colon of `text`. -/
def portOf (text : List Char) : Exit ParseError (Option UInt16) :=
  if ':' ∈ text then do
    let port ← parsePort (afterLast ':' text)
    pure (some port)
  else pure none

/-- Host and port of an authority that is not empty. -/
def parseAuthority (authority : List Char) : Exit ParseError (List Char × Option UInt16) :=
  let hostport :=
    if '@' ∈ authority then (authority.dropWhile (· ≠ '@')).tail else authority
  match hostport with
  -- `authority[start_of_host]` is out of range
  | [] => .trap
  | '[' :: _ =>
    if ']' ∉ authority then .err .InvalidFormat
    else do
      let port ← portOf (afterLast ']' authority)
      -- the host ends before it starts if the bracket is in the user info
      if ']' ∉ hostport then .trap else pure (beforeLast ']' hostport ++ [']'], port)
  | _ => do
    let port ← portOf hostport
    pure (if ':' ∈ hostport then beforeLast ':' hostport else hostport, port)

/-- Path, query and fragment. -/
def components (host : Option (List Char)) (port : Option UInt16) (text : List Char) : StdUri :=
  let rest := restFrom isPathSeparator text
  let behind := if rest.head? = some '?' then restFrom isQuerySeparator rest.tail else rest
  { scheme := []
    host := host
    port := port
    path := readUntil isPathSeparator text
    query := if rest.head? = some '?' then some (readUntil isQuerySeparator rest.tail) else none
    fragment := if behind.head? = some '#' then some behind.tail else none }

/-- `std.Uri.parseWithoutScheme`. -/
def parseWithoutScheme (text : List Char) : Exit ParseError StdUri :=
  match text with
  | '/' :: '/' :: text =>
    let authority := readUntil isAuthoritySeparator text
    let rest := restFrom isAuthoritySeparator text
    if authority = [] then
      if rest.head? = some '/' then pure (components none none rest) else .err .InvalidFormat
    else do
      let hostport ← parseAuthority authority
      pure (components (some hostport.1) hostport.2 rest)
  | _ => pure (components none none text)

/-- `std.Uri.parse`. -/
def parse (text : List Char) : Exit ParseError StdUri :=
  match text.dropWhile isSchemeChar with
  | [] => .err .InvalidFormat
  | c :: rest =>
    if c ≠ ':' then .err .UnexpectedCharacter
    else do
      let uri ← parseWithoutScheme rest
      pure { uri with scheme := text.takeWhile isSchemeChar }

/-! ## Parsing ends -/

theorem portOf_ne_halt (text : List Char) : portOf text ≠ .halt := by
  unfold portOf
  split
  · apply Exit.bind_ne_halt
    · unfold parsePort
      split
      · exact fun h => by cases h
      · exact fun h => by cases h
    · exact fun _ h => by cases h
  · exact fun h => by cases h

theorem parseAuthority_ne_halt (authority : List Char) : parseAuthority authority ≠ .halt := by
  unfold parseAuthority
  dsimp only
  split
  · exact fun h => by cases h
  · split
    · exact fun h => by cases h
    · apply Exit.bind_ne_halt (portOf_ne_halt _)
      intro port
      by_cases hbracket : ']' ∉ (if '@' ∈ authority then (authority.dropWhile (· ≠ '@')).tail
          else authority)
      · simp only [hbracket]
        exact fun h => by cases h
      · simp only [hbracket, if_false]
        exact fun h => by cases h
  · exact Exit.bind_ne_halt (portOf_ne_halt _) fun _ h => by cases h

theorem parseWithoutScheme_ne_halt (text : List Char) : parseWithoutScheme text ≠ .halt := by
  unfold parseWithoutScheme
  split
  · dsimp only
    split
    · split
      · exact fun h => by cases h
      · exact fun h => by cases h
    · exact Exit.bind_ne_halt (parseAuthority_ne_halt _) fun _ h => by cases h
  · exact fun h => by cases h

theorem parse_ne_halt (text : List Char) : parse text ≠ .halt := by
  unfold parse
  split
  · exact fun h => by cases h
  · split
    · exact fun h => by cases h
    · exact Exit.bind_ne_halt (parseWithoutScheme_ne_halt _) fun _ h => by cases h

/-! ## The path -/

/-- The path ends where the query or the fragment begins. -/
theorem components_path (host : Option (List Char)) (port : Option UInt16) (text : List Char) :
    ∀ c ∈ (components host port text).path, c ≠ '?' ∧ c ≠ '#' := by
  intro c hc
  have hread : c ∈ text.takeWhile fun c => !isPathSeparator c := hc
  have hsep := List.mem_takeWhile_imp hread
  simpa [isPathSeparator, not_or] using hsep

/-- What is left behind an authority begins with one of its separators. -/
theorem restFrom_head {p : Char → Bool} {text : List Char} {c : Char} {rest : List Char}
    (h : restFrom p text = c :: rest) : p c = true := by
  have hne : text.dropWhile (fun c => !p c) ≠ [] := by
    rw [show text.dropWhile (fun c => !p c) = c :: rest from h]
    exact List.cons_ne_nil c rest
  have hhead := List.head_dropWhile_not (fun c => !p c) hne
  simp only [show text.dropWhile (fun c => !p c) = c :: rest from h, List.head_cons] at hhead
  simpa using hhead

/-- Behind an authority, the path is empty or absolute. -/
theorem path_absolute (host : Option (List Char)) (port : Option UInt16) (text : List Char) :
    (components host port (restFrom isAuthoritySeparator text)).path = [] ∨
      (components host port (restFrom isAuthoritySeparator text)).path.head? = some '/' := by
  show readUntil isPathSeparator _ = [] ∨ (readUntil isPathSeparator _).head? = _
  unfold readUntil
  cases hrest : restFrom isAuthoritySeparator text with
  | nil => exact .inl rfl
  | cons c rest =>
    have hc := restFrom_head hrest
    by_cases hslash : c = '/'
    · refine .inr ?_
      rw [hslash, List.takeWhile_cons_of_pos (by decide)]
      rfl
    · refine .inl ?_
      have hpath : isPathSeparator c = true := by
        simpa [isAuthoritySeparator, isPathSeparator, hslash] using hc
      rw [List.takeWhile_cons_of_neg (by simp [hpath])]

/-- What is parsed behind the scheme. -/
theorem parse_ok {text : List Char} {u : StdUri} (h : parse text = .ok u) :
    ∃ rest uri, parseWithoutScheme rest = .ok uri ∧
      u = { uri with scheme := text.takeWhile isSchemeChar } := by
  unfold parse at h
  split at h
  · cases h
  · rename_i c rest _
    split at h
    · cases h
    · cases hparsed : parseWithoutScheme rest with
      | ok uri =>
        rw [hparsed] at h
        cases h
        exact ⟨rest, uri, hparsed, rfl⟩
      | _ =>
        rw [hparsed] at h
        cases h

/-- A host comes from an authority, and the other components from behind it. -/
theorem parseWithoutScheme_host {text : List Char} {u : StdUri}
    (h : parseWithoutScheme text = .ok u) (hhost : u.host.isSome) :
    ∃ host port rest, u = components (some host) port (restFrom isAuthoritySeparator rest) := by
  unfold parseWithoutScheme at h
  split at h
  · rename_i rest
    dsimp only at h
    split at h
    · split at h
      · cases h
        cases hhost
      · cases h
    · cases hauth : parseAuthority (readUntil isAuthoritySeparator rest) with
      | ok hostport =>
        rw [hauth] at h
        cases h
        exact ⟨hostport.1, hostport.2, rest, rfl⟩
      | _ =>
        rw [hauth] at h
        cases h
  · cases h
    cases hhost

/-- **The path of a URL with a host** is empty or absolute, and ends before the query. -/
theorem parse_path {text : List Char} {u : StdUri} (h : parse text = .ok u)
    (hhost : u.host.isSome) :
    (u.path = [] ∨ u.path.head? = some '/') ∧ ∀ c ∈ u.path, c ≠ '?' ∧ c ≠ '#' := by
  obtain ⟨behind, uri, hparsed, rfl⟩ := parse_ok h
  obtain ⟨host, port, rest, rfl⟩ := parseWithoutScheme_host hparsed hhost
  exact ⟨path_absolute (some host) port rest, components_path (some host) port _⟩

end StdUri

end Zig

import Mathlib.Data.List.DropRight
import Mathlib.Data.List.TakeWhile

/-!
# Requests by RFC 7230 (library)

What a message asks for, as a server reads it by the grammar of RFC 7230 and RFC 7233.

* `Request.read` — the request that a message without body denotes;
* `Request.read_wellFormed` — host and path of such a request are in the grammar;
* `Request.read_write` — the message that is written from well-formed parts is read back.
-/

namespace Rfc7230

/-! ## Characters -/

def isHexDigit (c : Char) : Bool :=
  c.isDigit || (65 ≤ c.toNat && c.toNat ≤ 70) || (97 ≤ c.toNat && c.toNat ≤ 102)

def isUnreserved (c : Char) : Bool := c.isAlphanum || "-._~".toList.contains c

def isSubDelim (c : Char) : Bool := "!$&'()*+,;=".toList.contains c

def isPathChar (c : Char) : Bool := isUnreserved c || isSubDelim c || ":@/".toList.contains c

def isQueryChar (c : Char) : Bool := isPathChar c || c == '?'

def isNameChar (c : Char) : Bool := isUnreserved c || isSubDelim c

def isLiteralChar (c : Char) : Bool := isNameChar c || c == ':'

def isTokenChar (c : Char) : Bool := c.isAlphanum || "!#$%&'*+-.^_`|~".toList.contains c

def isFieldChar (c : Char) : Bool := c == '\t' || (32 ≤ c.toNat && c.toNat ≠ 127)

def isBlank (c : Char) : Bool := c == ' ' || c == '\t'

/-! ## Grammar -/

/-- Characters of `p`, and percent-encoded octets. -/
def encoded (p : Char → Bool) : List Char → Bool
  | [] => true
  | [c] => p c
  | [c, d] => p c && p d
  | c :: a :: b :: text =>
    if c = '%' then isHexDigit a && isHexDigit b && encoded p text
    else p c && encoded p (a :: b :: text)

/-- `absolute-path`. -/
def isPath (path : List Char) : Bool := path.head? == some '/' && encoded isPathChar path

/-- `uri-host`; what is between the brackets of an `IP-literal` is only checked by its characters. -/
def isHost (host : List Char) : Bool :=
  if host.head? = some '[' then
    host.getLast? == some ']' && host.tail.dropLast.all isLiteralChar
  else encoded isNameChar host

/-- Digits, at least one. -/
def number (text : List Char) : Option Nat :=
  if text ≠ [] ∧ text.all Char.isDigit then some (Nat.ofDigitChars 10 text 0) else none

/-- The host of an authority without user information, and its port. -/
def authority (text : List Char) : Option (List Char × Option Nat) :=
  let host := if text.head? = some '[' then text.takeWhile (· ≠ ']') ++ [']']
    else text.takeWhile (· ≠ ':')
  if ¬host <+: text ∨ isHost host = false then none
  else if text.drop host.length = [] ∨ text.drop host.length = [':'] then some (host, none)
  else if (text.drop host.length).head? = some ':' then
    (number (text.drop host.length).tail).map fun port => (host, some port)
  else none

/-- A request target in `origin-form`: path and query. -/
def originForm (target : List Char) : Option (List Char × Option (List Char)) :=
  let path := target.takeWhile (· ≠ '?')
  let behind := target.dropWhile (· ≠ '?')
  if isPath path && encoded isQueryChar behind.tail then
    some (path, if behind = [] then none else some behind.tail)
  else none

/-- A line without its carriage return. -/
def endOfLine (line : List Char) : Option (List Char) :=
  if line.getLast? = some '\r' then some line.dropLast else none

/-- The lines of a message that ends with its header. -/
def headerLines (message : List Char) : Option (List (List Char)) :=
  let pieces := message.splitOn '\n'
  if pieces.drop (pieces.length - 2) = [['\r'], []] then
    (pieces.take (pieces.length - 2)).mapM endOfLine
  else none

/-- Method and target of a request line. -/
def requestLine (line : List Char) : Option (List Char × List Char) :=
  let words := line.splitOn ' '
  if words.length = 3 ∧ words[2]? = some "HTTP/1.1".toList ∧ (words.headD []).all isTokenChar
      ∧ words.headD [] ≠ [] then
    some (words.headD [], words.tail.headD [])
  else none

/-- Name and value of a header field; names are not case-sensitive. -/
def field (line : List Char) : Option (List Char × List Char) :=
  let word := line.takeWhile (· ≠ ':')
  let behind := line.dropWhile (· ≠ ':')
  if word ≠ [] ∧ word.all isTokenChar ∧ behind ≠ [] ∧ behind.all isFieldChar then
    some (word.map Char.toLower, (behind.tail.dropWhile isBlank).rdropWhile isBlank)
  else none

/-- The values of the fields of one name. -/
def values (word : String) (fields : List (List Char × List Char)) : List (List Char) :=
  (fields.filter fun f => f.1 = word.toList).map (·.2)

/-- A `Host` stands in each request, once. -/
def hostOf (fields : List (List Char × List Char)) : Option (List Char × Option Nat) :=
  if (values "host" fields).length = 1 then authority ((values "host" fields).headD []) else none

/-- First and last position of `bytes=first-last`. -/
def byteRange (value : List Char) : Option (Nat × Nat) :=
  let bounds := (value.drop 6).splitOn '-'
  if value.take 6 = "bytes=".toList ∧ bounds.length = 2 then do
    let first ← number (bounds.headD [])
    let last ← number (bounds.tail.headD [])
    pure (first, last)
  else none

/-- The `Range` of a request, if it has one. -/
def rangeOf (fields : List (List Char × List Char)) : Option (Option (Nat × Nat)) :=
  if values "range" fields = [] then some none
  else if (values "range" fields).length = 1 then
    (byteRange ((values "range" fields).headD [])).map some
  else none

/-! ## Requests -/

structure Resource where
  host : List Char
  port : Option Nat
  path : List Char
  query : Option (List Char)
  deriving DecidableEq, Repr

structure Request where
  method : List Char
  resource : Resource
  range : Option (Nat × Nat)
  deriving DecidableEq, Repr

/-- The request of a message that comes over a connection whose default port is `default`. -/
def Request.read (default : Option Nat) (message : List Char) : Option Request := do
  let lines ← headerLines message
  let line ← requestLine (lines.headD [])
  let target ← originForm line.2
  let fields ← lines.tail.mapM field
  let site ← hostOf fields
  let range ← rangeOf fields
  pure
    { method := line.1
      resource :=
        { host := site.1, port := site.2.or default, path := target.1, query := target.2 }
      range := range }

/-- The lines of a message, and the empty line. -/
def message (lines : List (List Char)) : List Char :=
  lines.flatMap (· ++ ['\r', '\n']) ++ ['\r', '\n']

/-- The line of a `Range`. -/
def rangeLine (range : Nat × Nat) : List Char :=
  "Range: bytes=".toList ++ (Nat.toDigits 10 range.1 ++ '-' :: Nat.toDigits 10 range.2)

/-- A message of a request line, a `Host` and perhaps a `Range`. -/
def Request.write (method target host : List Char) (range : Option (Nat × Nat)) : List Char :=
  message ((method ++ ' ' :: (target ++ ' ' :: "HTTP/1.1".toList)) ::
    ("Host: ".toList ++ host) :: (range.map rangeLine).toList)

/-! ## Classes of characters -/

/-- A visible character of ASCII. -/
def Visible (c : Char) : Prop := 33 ≤ c.toNat ∧ c.toNat < 127

theorem Visible.isFieldChar {c : Char} (h : Visible c) : isFieldChar c = true := by
  obtain ⟨hlow, hhigh⟩ := h
  simp only [Rfc7230.isFieldChar, Bool.or_eq_true, Bool.and_eq_true, decide_eq_true_eq]
  exact .inr ⟨by omega, by omega⟩

theorem Visible.not_mem {text : List Char} (h : ∀ c ∈ text, Visible c) {d : Char}
    (hd : d.toNat < 33) : d ∉ text := by
  intro hmem
  have hlow := (h d hmem).1
  omega

theorem Visible.not_isBlank {c : Char} (h : Visible c) : isBlank c = false := by
  have hspace : c ≠ ' ' := by
    rintro rfl
    exact absurd h.1 (by decide)
  have htab : c ≠ '\t' := by
    rintro rfl
    exact absurd h.1 (by decide)
  simp only [isBlank, beq_eq_false_iff_ne.mpr hspace, beq_eq_false_iff_ne.mpr htab, Bool.or_self]

theorem visible_of_isAlphanum {c : Char} (h : c.isAlphanum = true) : Visible c := by
  change ((decide (65 ≤ c.val ∧ c.val ≤ 90) ||
    (decide (97 ≤ c.val) && decide (c.val ≤ 122))) ||
    (decide (48 ≤ c.val) && decide (c.val ≤ 57))) = true at h
  simp only [Bool.or_eq_true, Bool.and_eq_true, decide_eq_true_eq, UInt32.le_iff_toNat_le] at h
  change (((65 ≤ c.toNat ∧ c.toNat ≤ 90) ∨ (97 ≤ c.toNat ∧ c.toNat ≤ 122)) ∨
    (48 ≤ c.toNat ∧ c.toNat ≤ 57)) at h
  constructor <;> omega

instance (c : Char) : Decidable (Visible c) := inferInstanceAs (Decidable (_ ∧ _))

theorem visible_of_contains {text : String}
    (htext : text.toList.all (fun c => decide (Visible c)) = true) {c : Char}
    (h : text.toList.contains c = true) : Visible c :=
  of_decide_eq_true (List.all_eq_true.mp htext c (List.contains_iff_mem.mp h))

theorem visible_of_isNameChar {c : Char} (h : isNameChar c = true) : Visible c := by
  simp only [isNameChar, isUnreserved, isSubDelim, Bool.or_eq_true] at h
  rcases h with (halpha | hmark) | hdelim
  · exact visible_of_isAlphanum halpha
  · exact visible_of_contains (by decide) hmark
  · exact visible_of_contains (by decide) hdelim

theorem visible_of_isPathChar {c : Char} (h : isPathChar c = true) : Visible c := by
  unfold isPathChar at h
  rcases Bool.or_eq_true .. ▸ h with hchar | hextra
  · exact visible_of_isNameChar hchar
  · exact visible_of_contains (by decide) hextra

theorem visible_of_isLiteralChar {c : Char} (h : isLiteralChar c = true) : Visible c := by
  unfold isLiteralChar at h
  rcases Bool.or_eq_true .. ▸ h with hchar | hcolon
  · exact visible_of_isNameChar hchar
  · rw [beq_iff_eq.mp hcolon]
    decide

theorem visible_of_isHexDigit {c : Char} (h : isHexDigit c = true) : Visible c := by
  simp only [isHexDigit, Bool.or_eq_true, Bool.and_eq_true, decide_eq_true_eq] at h
  rcases h with (hdigit | hupper) | hlower
  · exact visible_of_isAlphanum (by simp only [Char.isAlphanum, hdigit, Bool.or_true])
  · constructor <;> omega
  · constructor <;> omega

/-- What an encoded text is made of. -/
theorem mem_encoded {p : Char → Bool} {text : List Char} (h : encoded p text = true) :
    ∀ c ∈ text, p c = true ∨ c = '%' ∨ isHexDigit c = true := by
  fun_induction encoded p text with
  | case1 => exact fun c hc => absurd hc List.not_mem_nil
  | case2 c =>
    intro d hd
    rw [List.mem_singleton.mp hd]
    exact .inl h
  | case3 c d =>
    obtain ⟨hc, hd⟩ := (Bool.and_eq_true ..).mp h
    intro e he
    rcases List.mem_cons.mp he with rfl | he
    · exact .inl hc
    · rw [List.mem_singleton.mp he]
      exact .inl hd
  | case4 a b text ih =>
    simp only [Bool.and_eq_true] at h
    intro e he
    simp only [List.mem_cons] at he
    rcases he with rfl | rfl | rfl | he
    · exact .inr (.inl rfl)
    · exact .inr (.inr h.1.1)
    · exact .inr (.inr h.1.2)
    · exact ih h.2 e he
  | case5 c a b text hpercent ih =>
    obtain ⟨hc, hrest⟩ := (Bool.and_eq_true ..).mp h
    intro e he
    rcases List.mem_cons.mp he with rfl | he
    · exact .inl hc
    · exact ih hrest e he

theorem visible_of_encoded {p : Char → Bool} (hp : ∀ c, p c = true → Visible c)
    {text : List Char} (h : encoded p text = true) : ∀ c ∈ text, Visible c := by
  intro c hc
  rcases mem_encoded h c hc with hchar | rfl | hhex
  · exact hp c hchar
  · decide
  · exact visible_of_isHexDigit hhex

/-- A character outside the class does not stand in an encoded text. -/
theorem not_mem_of_encoded {p : Char → Bool} {text : List Char} (h : encoded p text = true)
    {d : Char} (hp : p d = false) (hpercent : d ≠ '%') (hhex : isHexDigit d = false) :
    d ∉ text := by
  intro hmem
  rcases mem_encoded h d hmem with hchar | rfl | hdigit
  · exact absurd (hp.symm.trans hchar) Bool.false_ne_true
  · exact hpercent rfl
  · exact absurd (hhex.symm.trans hdigit) Bool.false_ne_true

/-! ## Well-formed parts -/

theorem isPath.visible {path : List Char} (h : isPath path = true) : ∀ c ∈ path, Visible c :=
  visible_of_encoded (fun _ => visible_of_isPathChar) ((Bool.and_eq_true ..).mp h).2

/-- The shape of an `IP-literal`. -/
theorem isHost.literal {host : List Char} (h : isHost host = true) (hbracket : host.head? = some '[') :
    ∃ inner, host = '[' :: (inner ++ [']']) ∧ ∀ c ∈ inner, isLiteralChar c = true := by
  unfold isHost at h
  rw [if_pos hbracket, Bool.and_eq_true, beq_iff_eq, List.all_eq_true] at h
  obtain ⟨hlast, hinner⟩ := h
  obtain ⟨text, rfl⟩ := List.head?_eq_some_iff.mp hbracket
  rcases List.eq_nil_or_concat' text with rfl | ⟨inner, c, rfl⟩
  · exact absurd hlast (by decide)
  · refine ⟨inner, ?_, ?_⟩
    · rw [← List.cons_append, List.getLast?_concat] at hlast
      rw [Option.some.inj hlast]
    · intro d hd
      exact hinner d (by rwa [List.tail_cons, List.dropLast_concat])

theorem isHost.visible {host : List Char} (h : isHost host = true) : ∀ c ∈ host, Visible c := by
  by_cases hbracket : host.head? = some '['
  · obtain ⟨inner, rfl, hinner⟩ := isHost.literal h hbracket
    intro c hc
    simp only [List.mem_cons, List.mem_append, List.not_mem_nil, or_false] at hc
    rcases hc with rfl | hc | rfl
    · decide
    · exact visible_of_isLiteralChar (hinner c hc)
    · decide
  · unfold isHost at h
    rw [if_neg hbracket] at h
    exact visible_of_encoded (fun _ => visible_of_isNameChar) h

theorem isPath_of_originForm {target path : List Char} {query : Option (List Char)}
    (h : originForm target = some (path, query)) : isPath path = true := by
  unfold originForm at h
  dsimp only at h
  split at h
  · rename_i hform
    cases h
    exact ((Bool.and_eq_true ..).mp hform).1
  · cases h

theorem isHost_of_authority {text host : List Char} {port : Option Nat}
    (h : authority text = some (host, port)) : isHost host = true := by
  unfold authority at h
  dsimp only at h
  generalize (if text.head? = some '[' then text.takeWhile (· ≠ ']') ++ [']']
    else text.takeWhile (· ≠ ':')) = site at h
  split at h
  · cases h
  · rename_i hform
    have hsite : isHost site = true := by
      cases hvalue : isHost site with
      | true => rfl
      | false => exact absurd (.inr hvalue) hform
    split at h
    · cases h
      exact hsite
    · split at h
      · obtain ⟨n, -, hpair⟩ := Option.map_eq_some_iff.mp h
        cases hpair
        exact hsite
      · cases h

/-- **Host and path of a request** are in the grammar. -/
theorem Request.read_wellFormed {default : Option Nat} {text : List Char} {r : Request}
    (h : read default text = some r) :
    isPath r.resource.path = true ∧ isHost r.resource.host = true := by
  simp only [read, Option.bind_eq_bind, Option.bind_eq_some_iff, Option.pure_def,
    Option.some.injEq] at h
  obtain ⟨lines, -, line, -, target, htarget, fields, -, site, hsite, range, -, rfl⟩ := h
  refine ⟨isPath_of_originForm htarget, ?_⟩
  unfold hostOf at hsite
  split at hsite
  · exact isHost_of_authority hsite
  · cases hsite

/-! ## Reading what was written -/

theorem splitOn_lines (lines : List (List Char)) (h : ∀ l ∈ lines, '\n' ∉ l) :
    (message lines).splitOn '\n' = lines.map (· ++ ['\r']) ++ [['\r'], []] := by
  induction lines with
  | nil => decide
  | cons l lines ih =>
    have hline : ∀ c ∈ l ++ ['\r'], (c == '\n') = false := by
      intro c hc
      rw [beq_eq_false_iff_ne]
      rintro rfl
      rcases List.mem_append.mp hc with hc | hc
      · exact h l List.mem_cons_self hc
      · exact absurd (List.mem_singleton.mp hc) (by decide)
    have hsplit : message (l :: lines) = (l ++ ['\r']) ++ '\n' :: message lines := by
      simp only [message, List.flatMap_cons, List.append_assoc, List.cons_append, List.nil_append]
    rw [hsplit, List.splitOn_eq_splitOnP,
      List.splitOnP_append_cons_of_forall_mem hline '\n' (by decide), ← List.splitOn_eq_splitOnP,
      ih fun l' hl' => h l' (List.mem_cons_of_mem l hl'), List.map_cons, List.cons_append]

theorem mapM_endOfLine (lines : List (List Char)) :
    (lines.map (· ++ ['\r'])).mapM endOfLine = some lines := by
  induction lines with
  | nil => rfl
  | cons l lines ih =>
    have hline : endOfLine (l ++ ['\r']) = some l := by
      unfold endOfLine
      rw [if_pos List.getLast?_concat, List.dropLast_concat]
    rw [List.map_cons, List.mapM_cons, hline, ih]
    rfl

/-- The lines of a message are read back. -/
theorem headerLines_message {lines : List (List Char)} (h : ∀ l ∈ lines, '\n' ∉ l) :
    headerLines (message lines) = some lines := by
  have hcount : (lines.map (· ++ ['\r']) ++ [['\r'], []]).length - 2 =
      (lines.map (· ++ ['\r'])).length := by
    rw [List.length_append]
    exact Nat.add_sub_cancel ..
  unfold headerLines
  rw [splitOn_lines lines h]
  dsimp only
  rw [hcount, List.drop_left, List.take_left, if_pos rfl, mapM_endOfLine]

theorem requestLine_words {method target : List Char} (hmethod : method ≠ [])
    (htoken : method.all isTokenChar = true) (htarget : ' ' ∉ target) :
    requestLine (method ++ ' ' :: (target ++ ' ' :: "HTTP/1.1".toList)) =
      some (method, target) := by
  have hword : ∀ {word : List Char}, ' ' ∉ word → ∀ c ∈ word, (c == ' ') = false := by
    intro word hword c hc
    rw [beq_eq_false_iff_ne]
    rintro rfl
    exact hword hc
  have hblank : ' ' ∉ method := fun hmem =>
    absurd (List.all_eq_true.mp htoken ' ' hmem) (by decide)
  have hwords : (method ++ ' ' :: (target ++ ' ' :: "HTTP/1.1".toList)).splitOn ' ' =
      [method, target, "HTTP/1.1".toList] := by
    rw [List.splitOn_eq_splitOnP,
      List.splitOnP_append_cons_of_forall_mem (hword hblank) ' ' (by decide),
      List.splitOnP_append_cons_of_forall_mem (hword htarget) ' ' (by decide),
      ← List.splitOn_eq_splitOnP]
    congr 2
  unfold requestLine
  rw [hwords]
  exact if_pos ⟨rfl, rfl, htoken, hmethod⟩

theorem takeWhile_ne {d : Char} {text : List Char} (h : d ∉ text) (rest : List Char) :
    (text ++ d :: rest).takeWhile (· ≠ d) = text ∧
      (text ++ d :: rest).dropWhile (· ≠ d) = d :: rest := by
  have hall : ∀ c ∈ text, (decide (c ≠ d)) = true := by
    intro c hc
    rw [decide_eq_true_eq]
    rintro rfl
    exact h hc
  constructor
  · rw [List.takeWhile_append_of_pos hall, List.takeWhile_cons_of_neg (by simp), List.append_nil]
  · rw [List.dropWhile_append_of_pos hall, List.dropWhile_cons_of_neg (by simp)]

theorem takeWhile_ne_self {d : Char} {text : List Char} (h : d ∉ text) :
    text.takeWhile (· ≠ d) = text ∧ text.dropWhile (· ≠ d) = [] := by
  constructor
  · rw [List.takeWhile_eq_self_iff]
    intro c hc
    rw [decide_eq_true_eq]
    rintro rfl
    exact h hc
  · rw [List.dropWhile_eq_nil_iff]
    intro c hc
    rw [decide_eq_true_eq]
    rintro rfl
    exact h hc

/-- A path is a target without query. -/
theorem originForm_path {path : List Char} (h : isPath path = true) :
    originForm path = some (path, none) := by
  have hquery : '?' ∉ path :=
    not_mem_of_encoded ((Bool.and_eq_true ..).mp h).2 (by decide) (by decide) (by decide)
  unfold originForm
  dsimp only
  rw [(takeWhile_ne_self hquery).1, (takeWhile_ne_self hquery).2, h]
  rfl

/-- A field without blanks is read back. -/
theorem field_colon {word value : List Char} (hword : word ≠ [])
    (htoken : word.all isTokenChar = true) (hvalue : ∀ c ∈ value, Visible c) :
    field (word ++ ':' :: (' ' :: value)) = some (word.map Char.toLower, value) := by
  have hcolon : ':' ∉ word := fun hmem => absurd (List.all_eq_true.mp htoken ':' hmem) (by decide)
  have hcontent : (':' :: ' ' :: value).all isFieldChar = true := by
    rw [List.all_eq_true]
    intro c hc
    simp only [List.mem_cons] at hc
    rcases hc with rfl | rfl | hc
    · decide
    · decide
    · exact (hvalue c hc).isFieldChar
  have htrim : (' ' :: value).dropWhile isBlank = value := by
    rw [List.dropWhile_cons_of_pos (by decide), List.dropWhile_eq_self_iff]
    intro hlength
    rw [(hvalue _ (List.getElem_mem hlength)).not_isBlank]
    exact Bool.false_ne_true
  have htrimmed : value.rdropWhile isBlank = value := by
    rw [List.rdropWhile_eq_self_iff]
    intro hne
    rw [(hvalue _ (List.getLast_mem hne)).not_isBlank]
    exact Bool.false_ne_true
  unfold field
  dsimp only
  rw [(takeWhile_ne hcolon _).1, (takeWhile_ne hcolon _).2,
    if_pos ⟨hword, htoken, List.cons_ne_nil _ _, hcontent⟩, List.tail_cons, htrim, htrimmed]

/-- A host is an authority without port. -/
theorem authority_host {host : List Char} (h : isHost host = true) :
    authority host = some (host, none) := by
  have hcut : (if host.head? = some '[' then host.takeWhile (· ≠ ']') ++ [']']
      else host.takeWhile (· ≠ ':')) = host := by
    by_cases hbracket : host.head? = some '['
    · obtain ⟨inner, rfl, hinner⟩ := isHost.literal h hbracket
      have hclose : ']' ∉ '[' :: inner := by
        intro hmem
        rcases List.mem_cons.mp hmem with heq | hmem
        · exact absurd heq (by decide)
        · exact absurd (hinner ']' hmem) (by decide)
      rw [if_pos hbracket, ← List.cons_append, (takeWhile_ne hclose []).1]
    · have hcolon : ':' ∉ host := by
        unfold isHost at h
        rw [if_neg hbracket] at h
        exact not_mem_of_encoded h (by decide) (by decide) (by decide)
      rw [if_neg hbracket, (takeWhile_ne_self hcolon).1]
  unfold authority
  dsimp only
  rw [hcut, if_neg, if_pos (.inl (List.drop_length ..))]
  rintro (hpre | hform)
  · exact hpre (List.prefix_refl host)
  · exact absurd (h.symm.trans hform) (by decide)

theorem number_toDigits (n : Nat) : number (Nat.toDigits 10 n) = some n := by
  have hdigits : (Nat.toDigits 10 n).all Char.isDigit = true := by
    rw [List.all_eq_true]
    exact fun c hc => Nat.isDigit_of_mem_toDigits (by decide) (by decide) hc
  unfold number
  rw [if_pos ⟨Nat.toDigits_ne_nil, hdigits⟩, Nat.ofDigitChars_ten_toDigits]

theorem visible_of_mem_toDigits {n : Nat} {c : Char} (h : c ∈ Nat.toDigits 10 n) : Visible c := by
  have hdigit : c.isDigit = true := Nat.isDigit_of_mem_toDigits (by decide) (by decide) h
  exact visible_of_isHexDigit (by simp only [isHexDigit, hdigit, Bool.true_or])

theorem hyphen_not_mem_toDigits (n : Nat) : ∀ c ∈ Nat.toDigits 10 n, (c == '-') = false := by
  intro c hc
  rw [beq_eq_false_iff_ne]
  rintro rfl
  have hdigit := Nat.isDigit_of_mem_toDigits (by decide) (by decide) hc
  exact absurd hdigit (by decide)

/-- The positions of a range are read back. -/
theorem byteRange_toDigits (first last : Nat) :
    byteRange ("bytes=".toList ++ (Nat.toDigits 10 first ++ '-' :: Nat.toDigits 10 last)) =
      some (first, last) := by
  have hbounds : (Nat.toDigits 10 first ++ '-' :: Nat.toDigits 10 last).splitOn '-' =
      [Nat.toDigits 10 first, Nat.toDigits 10 last] := by
    rw [List.splitOn_eq_splitOnP, List.splitOnP_append_cons_of_forall_mem
      (hyphen_not_mem_toDigits first) '-' (by decide),
      List.splitOnP_eq_singleton (hyphen_not_mem_toDigits last)]
  unfold byteRange
  dsimp only
  rw [show "bytes=".toList ++ (Nat.toDigits 10 first ++ '-' :: Nat.toDigits 10 last) =
    'b' :: 'y' :: 't' :: 'e' :: 's' :: '=' ::
      (Nat.toDigits 10 first ++ '-' :: Nat.toDigits 10 last) from rfl]
  simp only [List.drop_succ_cons, List.drop_zero, hbounds, List.take_succ_cons, List.take_zero]
  rw [if_pos ⟨rfl, rfl⟩]
  simp only [List.headD_cons, List.tail_cons, number_toDigits, Option.bind_eq_bind,
    Option.bind_some, Option.pure_def]

/-! ## The whole message -/

theorem field_host {host : List Char} (h : isHost host = true) :
    field ("Host: ".toList ++ host) = some ("host".toList, host) := by
  have hline : "Host: ".toList ++ host = "Host".toList ++ ':' :: (' ' :: host) := rfl
  rw [hline, field_colon (by decide) (by decide) (isHost.visible h)]
  rfl

theorem field_range (range : Nat × Nat) :
    field (rangeLine range) = some ("range".toList, "bytes=".toList ++
      (Nat.toDigits 10 range.1 ++ '-' :: Nat.toDigits 10 range.2)) := by
  have hline : rangeLine range = "Range".toList ++ ':' :: (' ' :: ("bytes=".toList ++
      (Nat.toDigits 10 range.1 ++ '-' :: Nat.toDigits 10 range.2))) := rfl
  rw [hline, field_colon (by decide) (by decide)]
  · rfl
  · intro c hc
    simp only [List.mem_append, List.mem_cons] at hc
    rcases hc with hc | hc | rfl | hc
    · exact @visible_of_contains "bytes=" (by decide) c (List.contains_iff_mem.mpr hc)
    · exact visible_of_mem_toDigits hc
    · decide
    · exact visible_of_mem_toDigits hc

theorem rangeLine_newline (range : Nat × Nat) : '\n' ∉ rangeLine range := by
  have hdigits : ∀ n, '\n' ∉ Nat.toDigits 10 n := fun n hmem =>
    absurd (visible_of_mem_toDigits hmem) (by decide)
  have hpositions : '\n' ∉ '-' :: Nat.toDigits 10 range.2 :=
    List.not_mem_cons_of_ne_of_not_mem (by decide) (hdigits range.2)
  exact List.not_mem_append (by decide) (List.not_mem_append (hdigits range.1) hpositions)

/-- What the fields behind the request line are. -/
theorem fields_write {host : List Char} (hhost : isHost host = true) (range : Option (Nat × Nat)) :
    ∃ fields, (("Host: ".toList ++ host) :: (range.map rangeLine).toList).mapM field = some fields ∧
      hostOf fields = some (host, none) ∧ rangeOf fields = some range := by
  cases range with
  | none =>
    refine ⟨[("host".toList, host)], ?_, authority_host hhost, rfl⟩
    rw [List.mapM_cons, field_host hhost]
    rfl
  | some range =>
    have hrange := byteRange_toDigits range.1 range.2
    refine ⟨[("host".toList, host), ("range".toList, "bytes=".toList ++
      (Nat.toDigits 10 range.1 ++ '-' :: Nat.toDigits 10 range.2))], ?_, authority_host hhost, ?_⟩
    · rw [Option.map_some, Option.toList_some, List.mapM_cons, field_host hhost, List.mapM_cons,
        field_range]
      rfl
    · exact congrArg (Option.map some) hrange

/-- **A message of well-formed parts is read back**: its target, its host, the default port and
its range. -/
theorem Request.read_write (default : Option Nat) {method target host : List Char}
    (hmethod : method ≠ []) (htoken : method.all isTokenChar = true)
    (htarget : ∀ c ∈ target, Visible c) (hhost : isHost host = true)
    (range : Option (Nat × Nat)) :
    read default (write method target host range) = (originForm target).map fun t =>
      ⟨method, ⟨host, default, t.1, t.2⟩, range⟩ := by
  have hfirst : '\n' ∉ method ++ ' ' :: (target ++ ' ' :: "HTTP/1.1".toList) := by
    simp only [List.mem_append, List.mem_cons, not_or]
    exact ⟨fun hmem => absurd (List.all_eq_true.mp htoken _ hmem) (by decide), by decide,
      Visible.not_mem htarget (by decide), by decide, by decide⟩
  have hsite : '\n' ∉ "Host: ".toList ++ host := by
    have hhostLine : '\n' ∉ host := Visible.not_mem (isHost.visible hhost) (by decide)
    exact List.not_mem_append (by decide) hhostLine
  have hrest : ∀ l ∈ (range.map rangeLine).toList, '\n' ∉ l := by
    intro l hl
    rw [Option.mem_toList, Option.map_eq_some_iff] at hl
    obtain ⟨r, -, rfl⟩ := hl
    exact rangeLine_newline r
  have hall : ∀ l ∈ (method ++ ' ' :: (target ++ ' ' :: "HTTP/1.1".toList)) ::
      ("Host: ".toList ++ host) :: (range.map rangeLine).toList, '\n' ∉ l := by
    rw [List.forall_mem_cons, List.forall_mem_cons]
    exact ⟨hfirst, hsite, hrest⟩
  obtain ⟨fields, hfields, hhostOf, hrangeOf⟩ := fields_write hhost range
  unfold read write
  rw [headerLines_message hall]
  simp only [Option.bind_eq_bind, Option.bind_some, List.headD_cons, List.tail_cons,
    requestLine_words hmethod htoken (Visible.not_mem htarget (by decide)), hfields, hhostOf,
    hrangeOf, Option.none_or, Option.pure_def]
  cases originForm target <;> rfl

end Rfc7230

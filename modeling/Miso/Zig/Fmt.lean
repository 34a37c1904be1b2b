import Mathlib.Data.List.SplitOn
import Mathlib.Data.UInt

/-!
# Text in Zig's standard library (library)

* `bytesOf` — the bytes of an ASCII string literal;
* `parseInt` — `std.fmt.parseInt` of a decimal number into an unsigned type;
* `splitAny` — the segments that `std.mem.splitAny` iterates over.
-/

namespace Zig

/-- The bytes of a string literal. -/
def bytesOf (text : String) : List UInt8 := text.toList.map fun c => UInt8.ofNat c.toNat

/-- `std.fmt.ParseIntError`. -/
inductive ParseIntError where
  | Overflow
  | InvalidCharacter
  deriving DecidableEq, Repr

/-- `std.fmt.charToDigit`, base 10. -/
def charToDigit (c : UInt8) : Except ParseIntError Nat :=
  if 48 ≤ c ∧ c ≤ 57 then .ok (c.toNat - 48) else .error .InvalidCharacter

/-- One character of a number; the digits of a negative one are subtracted. -/
def accumulate (max : Nat) (neg : Bool) (x : Nat) (c : UInt8) : Except ParseIntError Nat :=
  if c = 95 then .ok x
  else do
    let digit ← charToDigit c
    if max < 10 * x then .error .Overflow
    else if neg then
      if 10 * x < digit then .error .Overflow else .ok (10 * x - digit)
    else if max < 10 * x + digit then .error .Overflow
    else .ok (10 * x + digit)

/-- `std.fmt.parseWithSign`. -/
def parseWithSign (max : Nat) (neg : Bool) (buf : List UInt8) : Except ParseIntError Nat :=
  if buf = [] ∨ buf.head? = some 95 ∨ buf.getLast? = some 95 then .error .InvalidCharacter
  else buf.foldlM (accumulate max neg) 0

/-- `std.fmt.parseInt(T, buf, 10)`, where `max` is the largest value of `T`. -/
def parseInt (max : Nat) (buf : List UInt8) : Except ParseIntError Nat :=
  match buf with
  | [] => .error .InvalidCharacter
  | c :: rest =>
    if c = 43 then parseWithSign max false rest
    else if c = 45 then parseWithSign max true rest
    else parseWithSign max false buf

/-- `std.mem.splitAny`; there is always a first segment. -/
def splitAny (buffer delimiters : List UInt8) : List (List UInt8) :=
  buffer.splitOnP fun c => delimiters.contains c

end Zig

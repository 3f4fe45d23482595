import RowStore.Number.Binary64.Text
import RowStore.Number.Width

/-!
# JSON documents

The tree of a JSON text.  Numbers stay as they are written, since what they mean depends on where they stand: an integer
is one only if it has neither point nor exponent.  A string may be written well and yet write no text, because an escape
in it is half of a pair; such a string is a fault only where its text is asked for.
-/
namespace RowStore
namespace Json

/-- A number as it is written.  Exponent and fraction are missing or have a digit. -/
structure Numeral where
  negative : Bool
  whole : List Nat
  fraction : List Nat
  exponent : Option Int
  deriving DecidableEq, Inhabited

/-- A JSON value.  A string or name that writes no text has none. -/
inductive Node
  | null
  | bool (b : Bool)
  | number (n : Numeral)
  | string (s : Option String)
  | array (items : List Node)
  | object (members : List (Option String × Node))
  deriving Inhabited

/-! ## Reading -/

/-- A reader takes a value off the front of a text. -/
abbrev Reader (α : Type) : Type := List Char → Option (α × List Char)

def skipSpace (s : List Char) : List Char := s.dropWhile fun c => c == ' ' || c == '\n' || c == '\t' || c == '\r'

/-- Takes a character, behind white space. -/
def expect (c : Char) (s : List Char) : Option (List Char) :=
  match skipSpace s with
  | d :: rest => if c = d then some rest else none
  | [] => none

def word (w : String) (s : List Char) : Option (List Char) :=
  if w.toList.isPrefixOf s then some (s.drop w.length) else none

/-! ### Numbers -/

/-- The part of a number behind a point, if there is one. -/
def readFraction : Reader (List Nat)
  | '.' :: s =>
    let (digits, rest) := Binary64.spanDigits s
    if digits.isEmpty then none else some (digits, rest)
  | s => some ([], s)

def readSign : List Char → Bool × List Char
  | '-' :: s => (true, s)
  | '+' :: s => (false, s)
  | s => (false, s)

def readExponent : Reader (Option Int)
  | c :: s =>
    if c = 'e' ∨ c = 'E' then
      let (negative, s) := readSign s
      let (digits, rest) := Binary64.spanDigits s
      if digits.isEmpty then none
      else some (some (if negative then -(ofDigits digits : Int) else ofDigits digits), rest)
    else some (none, c :: s)
  | [] => some (none, [])

/-- A number.  Only zero itself starts with a zero. -/
def readNumber (s : List Char) : Option (Numeral × List Char) := do
  let (negative, s) := match s with
    | '-' :: s => (true, s)
    | s => (false, s)
  let (whole, s) := Binary64.spanDigits s
  if whole.isEmpty || (whole.head? == some 0 && whole.length != 1) then none
  let (fraction, s) ← readFraction s
  let (exponent, s) ← readExponent s
  return (⟨negative, whole, fraction, exponent⟩, s)

/-! ### Strings -/

def hexDigit? (c : Char) : Option Nat :=
  if '0' ≤ c ∧ c ≤ '9' then some (c.toNat - '0'.toNat)
  else if 'a' ≤ c ∧ c ≤ 'f' then some (c.toNat - 'a'.toNat + 10)
  else if 'A' ≤ c ∧ c ≤ 'F' then some (c.toNat - 'A'.toNat + 10)
  else none

def readUnit : Reader Nat
  | a :: b :: c :: d :: rest => do
    let digits ← [a, b, c, d].mapM hexDigit?
    return (digits.foldl (fun n x => 16 * n + x) 0, rest)
  | _ => none

/-- What follows `\u`: a character, or the first half of a pair that the second half completes.  A half alone is no
character. -/
def readCodePoint (s : List Char) : Option (Option Char × List Char) := do
  let (first, rest) ← readUnit s
  if 0xDC00 ≤ first ∧ first < 0xE000 then return (none, rest)
  else if 0xD800 ≤ first ∧ first < 0xDC00 then
    match rest with
    | '\\' :: 'u' :: behind =>
      let (second, behind) ← readUnit behind
      if 0xDC00 ≤ second ∧ second < 0xE000 then
        return (some (Char.ofNat (0x10000 + (first - 0xD800) * 0x400 + (second - 0xDC00))), behind)
      else return (none, rest)
    | _ => return (none, rest)
  else return (some (Char.ofNat first), rest)

def readEscape : Reader (Option Char)
  | '"' :: rest => some ('"', rest)
  | '\\' :: rest => some ('\\', rest)
  | '/' :: rest => some ('/', rest)
  | 'b' :: rest => some ('\x08', rest)
  | 'f' :: rest => some ('\x0c', rest)
  | 'n' :: rest => some ('\n', rest)
  | 'r' :: rest => some ('\r', rest)
  | 't' :: rest => some ('\t', rest)
  | 'u' :: rest => readCodePoint rest
  | _ => none

/-- The characters of a string up to the closing quote.  `fuel` bounds their number. -/
def readChars : Nat → Reader (List (Option Char))
  | 0, _ => none
  | _ + 1, [] => none
  | fuel + 1, c :: rest =>
    if c = '"' then some ([], rest)
    else if c = '\\' then do
      let (d, rest) ← readEscape rest
      let (chars, rest) ← readChars fuel rest
      return (d :: chars, rest)
    else if c.toNat < 0x20 then none
    else do
      let (chars, rest) ← readChars fuel rest
      return (some c :: chars, rest)

/-- A string whose opening quote has been taken. -/
def readString : Reader (Option String) := fun s =>
  (readChars (s.length + 1) s).map fun (chars, rest) => ((chars.mapM id).map String.ofList, rest)

/-! ### Values -/

mutual

/-- A value.  `fuel` bounds the number of values and members below it. -/
def readNode : Nat → Reader Node
  | 0, _ => none
  | fuel + 1, s =>
    match skipSpace s with
    | '[' :: rest =>
      match expect ']' rest with
      | some rest => some (.array [], rest)
      | none => (readItems fuel rest).map fun (items, rest) => (.array items, rest)
    | '\x7b' :: rest =>
      match expect '\x7d' rest with
      | some rest => some (.object [], rest)
      | none => (readMembers fuel rest).map fun (members, rest) => (.object members, rest)
    | '"' :: rest => (readString rest).map fun (text, rest) => (.string text, rest)
    | s =>
      match word "null" s, word "true" s, word "false" s with
      | some rest, _, _ => some (.null, rest)
      | _, some rest, _ => some (.bool true, rest)
      | _, _, some rest => some (.bool false, rest)
      | _, _, _ => (readNumber s).map fun (n, rest) => (.number n, rest)

/-- The items of an array that is not empty, up to the closing bracket. -/
def readItems : Nat → Reader (List Node)
  | 0, _ => none
  | fuel + 1, s =>
    match readNode fuel s with
    | none => none
    | some (item, rest) =>
      match expect ',' rest with
      | some rest => (readItems fuel rest).map fun (items, rest) => (item :: items, rest)
      | none => (expect ']' rest).map fun rest => ([item], rest)

/-- The members of an object that is not empty, up to the closing brace. -/
def readMembers : Nat → Reader (List (Option String × Node))
  | 0, _ => none
  | fuel + 1, s =>
    match (expect '"' s).bind readString with
    | none => none
    | some (name, rest) =>
      match (expect ':' rest).bind (readNode fuel) with
      | none => none
      | some (node, rest) =>
        match expect ',' rest with
        | some rest => (readMembers fuel rest).map fun (members, rest) => ((name, node) :: members, rest)
        | none => (expect '\x7d' rest).map fun rest => ([(name, node)], rest)

end

def read? (s : List Char) : Option Node :=
  match readNode (2 * s.length + 2) s with
  | some (node, rest) => if (skipSpace rest).isEmpty then some node else none
  | none => none

/-! ## Numbers as values -/

namespace Numeral

/-- The integer that a numeral writes.  Minus zero is no integer, nor is what fits neither 64 bits signed nor unsigned. -/
def integer? (n : Numeral) : Option Int :=
  if !n.fraction.isEmpty || n.exponent.isSome then none
  else
    let whole : Int := ofDigits n.whole
    if n.negative then (if 0 < whole ∧ FitsSigned 64 (-whole) then some (-whole) else none)
    else if FitsUnsigned 64 whole then some whole
    else none

/-- Takes digits into a number of 64 bits while there is room, and counts the digits left over. -/
def accumulate (significand : Nat) : List Nat → Nat × List Nat
  | [] => (significand, [])
  | d :: rest => if 10 * significand + d < 1 <<< 64 then accumulate (10 * significand + d) rest else (significand, d :: rest)

/-- A double times or over another, both finite. -/
def scale (x : Binary64) (power : Nat) (divide : Bool) : Binary64 :=
  let (num, den) := x.fraction
  let (pow, powDen) := (Binary64.ofQuotient false power 1).fraction
  if divide then Binary64.ofQuotient false (num * powDen) (den * pow) else Binary64.ofQuotient false (num * pow) (den * powDen)

/-- Brings a double to a power of ten by steps of at most 308; nothing if it grows beyond the greatest double. -/
def scaleDown (x : Binary64) : Nat → Nat → Binary64
  | 0, _ => x
  | fuel + 1, places =>
    if places ≤ 308 then scale x (pow10 places) true
    else if x.isZero then x
    else scaleDown (scale x (pow10 308) true) fuel (places - 308)

/-- The double of a numeral with a point or an exponent: sixty-four bits of its digits, rounded, and then multiplied or
divided by a power of ten, rounded again.  Numerals beyond the greatest double are refused. -/
def float? (n : Numeral) : Option Binary64 :=
  let sign (x : Binary64) : Binary64 := if n.negative then x.negate else x
  let (significand, skipped) := accumulate 0 n.whole
  let (significand, beyond) := accumulate significand n.fraction
  let taken := n.fraction.length - beyond.length
  let exponent : Int := skipped.length - taken + n.exponent.getD 0
  let x := Binary64.ofInt significand
  if x.isZero then some (sign x)
  else if 0 ≤ exponent then
    if 308 < exponent then none
    else
      let y := scale x (pow10 exponent.toNat) false
      if y.isFinite then some (sign y) else none
  else
    let places := min (-exponent).toNat 2000
    some (sign (scaleDown x 8 places))

def double? (n : Numeral) : Option Binary64 :=
  match n.integer? with
  | some i => some (Binary64.ofInt i)
  | none => n.float?

end Numeral
end Json
end RowStore

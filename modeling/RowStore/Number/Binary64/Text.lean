import RowStore.Number.Numeral
import RowStore.Number.Shortest

/-!
# Doubles in text

Every style writes the fewest digits that read back.  Styles differ in where they leave positional writing, in
what they add to an integer and in how they write an exponent; `Binary64.Style` holds these decisions.  Reading takes
any number of digits and rounds once.
-/
namespace RowStore
namespace Binary64

/-- How a finite double is written. -/
structure Style where
  /-- From how many places of the decimal point on the number is written positionally, and up to how many. -/
  positional : Option (Int × Int)
  /-- Whether an integer ends in `.0`. -/
  pointZero : Bool
  /-- Whether a positive exponent has a sign. -/
  plus : Bool
  tie : Tie

/-- All digits in their places, never an exponent. -/
def plain : Style := ⟨none, false, false, .up⟩

/-- Numbers of a JSON document: positional from `1e-5` and below `1e16`. -/
def json : Style := ⟨some (-4, 16), true, true, .even⟩

/-- Numbers in a listing of a value's structure: positional from `1e-4` and below `1e16`. -/
def structural : Style := ⟨some (-3, 16), true, false, .up⟩

/-- Digits with a decimal point after `point` of them, zeros filled in where it lies outside. -/
def placePoint (pointZero : Bool) (digits : List Char) (point : Int) : List Char :=
  let n := digits.length
  if point ≤ 0 then "0.".toList ++ List.replicate (-point).toNat '0' ++ digits
  else if point < n then digits.take point.toNat ++ '.' :: digits.drop point.toNat
  else digits ++ List.replicate (point.toNat - n) '0' ++ (if pointZero then ".0".toList else [])

/-- One digit, the others behind a point, and the power of ten. -/
def placeExponent (plus : Bool) (digits : List Char) (point : Int) : List Char :=
  let exponent := point - 1
  let sign := if 0 ≤ exponent ∧ plus then ['+'] else []
  digits.take 1 ++ (if digits.length ≤ 1 then [] else '.' :: digits.drop 1) ++ 'e' :: sign ++ (toString exponent).toList

def Style.digits (w : Style) (x : Binary64) : List Char :=
  if x.isZero then (if w.pointZero then "0.0" else "0").toList
  else
    let d := x.shortest w.tie
    let digits := Nat.toDigits 10 d.digits
    if w.positional.all fun (least, most) => least ≤ d.point ∧ d.point ≤ most then
      placePoint w.pointZero digits d.point
    else placeExponent w.plus digits d.point

/-- Any double; the words are the same in all styles that have them. -/
def Style.render (w : Style) (x : Binary64) : String :=
  if x.isNaN then "NaN"
  else
    let body := if x.isFinite then w.digits x else "inf".toList
    String.ofList (if x.isNegative then '-' :: body else body)

/-! ## Reading -/

/-- The double nearest to `± digits · 10 ^ exponent`.  Far outside the range of doubles no power is computed. -/
def ofScientific (negative : Bool) (d : Scientific) : Binary64 :=
  if d.digits = 0 ∨ d.point < -400 then zero negative
  else if 400 < d.point then infinity negative
  else if 0 ≤ d.exponent then ofQuotient negative (d.digits * pow10 d.exponent.toNat) 1
  else ofQuotient negative d.digits (pow10 (-d.exponent).toNat)

def spanDigits (s : List Char) : List Nat × List Char :=
  ((s.takeWhile Char.isDigit).filterMap digit?, s.dropWhile Char.isDigit)

/-- An exponent: nothing, or a mark, at most one sign and digits up to the end. -/
def readExponent? : List Char → Option Int
  | [] => some 0
  | c :: s =>
    if c = 'e' ∨ c = 'E' then
      match s with
      | '-' :: s => (digits? s).map fun n => -(n : Int)
      | '+' :: s => (digits? s).map Int.ofNat
      | s => (digits? s).map Int.ofNat
    else none

/-- Digits, perhaps with a point among or beside them, perhaps with an exponent. -/
def readUnsigned? (s : List Char) : Option Scientific :=
  let (whole, rest) := spanDigits s
  let (part, rest) := match rest with
    | '.' :: rest => spanDigits rest
    | rest => ([], rest)
  if whole.isEmpty && part.isEmpty then none
  else (readExponent? rest).map fun e => ⟨ofDigits (whole ++ part), e - part.length⟩

/-- Reads a double: at most one sign, then `inf`, `infinity` or `nan` in letters of either case, or a number. -/
def ofText? (s : List Char) : Option Binary64 :=
  let (negative, s) := match s with
    | '-' :: s => (true, s)
    | '+' :: s => (false, s)
    | s => (false, s)
  let word := String.ofList (s.map Char.toLower)
  if word = "inf" ∨ word = "infinity" then some (infinity negative)
  else if word = "nan" then some (nan negative)
  else (readUnsigned? s).map (ofScientific negative)

end Binary64
end RowStore

import RowStore.Number.Decimal
import RowStore.Number.Numeral

/-!
# Decimals in text

A decimal is written with every digit of its scale.  Reading takes digits as long as they fit: places beyond the
twenty-eighth, or beyond the room of the coefficient, are rounded away by the first of them, a half away from zero.
Digits before the point have to fit.  What is written as zero has no sign; a negative decimal that a power of ten rounds
to zero keeps its own.

As the decimals themselves, their texts are not made by the store.  Assumed is that they are written as `toText` says, and
that the two ways to read them that the store asks for, of any decimal and of one with a power of ten, read what `ofText?`
and `ofScientific?` do.  Rounding in particular is assumed, not chosen here.
-/
namespace RowStore
namespace Decimal

/-- All places of the scale, and at least one digit before the point. -/
def toText (x : Decimal) : String :=
  let digits := Nat.toDigits 10 x.coefficient
  let digits := List.replicate (x.scale + 1 - digits.length) '0' ++ digits
  let whole := digits.take (digits.length - x.scale)
  let body := if x.scale = 0 then whole else whole ++ '.' :: digits.drop (digits.length - x.scale)
  String.ofList (if x.negative then '-' :: body else body)

/-! ## Positional notation -/

/-- A coefficient without sign and its scale, on the way to a decimal. -/
abbrev Parts := Nat × Nat

/-- Ends a number at a digit for which there is no room.  What follows may only be digits and underscores. -/
def roundAway (coefficient scale next : Nat) (rest : List Char) : Option Parts :=
  if !rest.all (fun c => c.isDigit || c == '_') then none
  else if next < 5 then some (coefficient, scale)
  else if coefficient + 1 < 1 <<< 96 then some (coefficient + 1, scale)
  else if scale = 0 then none
  else some ((coefficient + 5) / 10, scale - 1)

/-- From here on a coefficient counts as long: a word of sixty-four bits may not have room for one more digit.  The bound
keeps a margin of 255. -/
def longFrom : Nat := ((1 <<< 64) - 1) / 10 - 255

/-- Whether a coefficient was long already when it took its last digit. -/
def isLong (coefficient : Nat) : Bool := longFrom ≤ coefficient / 10

/-- Reads on behind `coefficient`; `point` tells whether the point has been read, `started` whether a digit has.  Behind
the twenty-eighth place an underscore stands for the digit zero and rounds, unless the coefficient is long: then it is
passed over as elsewhere, and the digit behind it rounds. -/
def readOn (coefficient scale : Nat) (point started : Bool) : List Char → Option Parts
  | [] => if started then some (coefficient, scale) else none
  | c :: rest =>
    match digit? c with
    | some d =>
      if point && scale == 28 then roundAway coefficient scale d rest
      else if 1 <<< 96 ≤ 10 * coefficient + d then
        if point then roundAway coefficient scale d rest else none
      else readOn (10 * coefficient + d) (if point then scale + 1 else 0) point true rest
    | none =>
      if c = '.' ∧ !point then readOn coefficient scale true started rest
      else if c = '_' ∧ started then
        if point && scale == 28 && !isLong coefficient then roundAway coefficient scale 0 rest
        else readOn coefficient scale point true rest
      else none

/-- A sign and what follows it. -/
def splitSign : List Char → Bool × List Char
  | '-' :: s => (true, s)
  | '+' :: s => (false, s)
  | s => (false, s)

/-- Reads positional notation: at most one sign, digits with at most one point, underscores behind the first digit. -/
def ofPositional? (s : List Char) : Option Decimal :=
  let (negative, s) := splitSign s
  (readOn 0 0 false false s).bind fun (coefficient, scale) =>
    ofParts? (negative && coefficient != 0) coefficient scale

/-! ## Powers of ten -/

/-- Moves the point `n` places to the left.  Places beyond the twenty-eighth are rounded away; the sign stays. -/
def shiftLeft? (x : Decimal) (n : Nat) : Option Decimal :=
  if 28 < n then none
  else if x.scale + n ≤ 28 then ofParts? x.negative x.coefficient (x.scale + n)
  else ofParts? x.negative (roundHalfUp x.coefficient (pow10 (x.scale + n - 28))) 28

def shiftRight? (x : Decimal) (n : Nat) : Option Decimal :=
  if n ≤ x.scale then ofParts? x.negative x.coefficient (x.scale - n)
  else if 28 < n then none
  else ofParts? x.negative (x.coefficient * pow10 (n - x.scale)) 0

/-- Reads places to move the point by: digits, which a plus may precede. -/
def readPlaces? : List Char → Option Nat
  | '+' :: s => digits? s
  | s => digits? s

/-- Reads a decimal followed by a mark, perhaps a minus, and at most twenty-eight places. -/
def ofScientific? (s : List Char) : Option Decimal :=
  let isMark (c : Char) : Bool := c == 'e' || c == 'E'
  match s.dropWhile (!isMark ·) with
  | [] => none
  | _ :: exponent =>
    (ofPositional? (s.takeWhile (!isMark ·))).bind fun base =>
      match exponent with
      | '-' :: places => (readPlaces? places).bind base.shiftLeft?
      | places => (readPlaces? places).bind base.shiftRight?

/-- Reads a decimal, with a power of ten or without. -/
def ofText? (s : List Char) : Option Decimal := (ofPositional? s).or (ofScientific? s)

/-- Reads a decimal, and if that fails asks for one with a power of ten. -/
def ofEitherText? (s : List Char) : Option Decimal := (ofText? s).or (ofScientific? s)

/-- The second attempt finds nothing that the first one has not looked for. -/
theorem ofEitherText?_eq (s : List Char) : ofEitherText? s = ofText? s := by
  unfold ofEitherText? ofText?
  rw [Option.or_assoc, Option.or_self]

end Decimal
end RowStore

import RowStore.Number.Rounding

/-!
# Doubles

A double is its 64 bits: a sign, eleven bits of exponent, fifty-two of fraction.  A finite one is the exact rational
`± significand · 2 ^ exponent`, so arithmetic is exact arithmetic on fractions of naturals followed by one rounding,
`Binary64.ofQuotient`, to the nearest double and to the even one on a tie.
-/
namespace RowStore

/-- A double, by its bits. -/
structure Binary64 where
  bits : UInt64
  deriving DecidableEq, Inhabited

namespace Binary64

def signBit : Nat := 1 <<< 63

/-- The bit that the significand of a normal double has above its fifty-two. -/
def hiddenBit : Nat := 1 <<< 52

/-- The bits without the sign.  They grow with the absolute value, the not-a-numbers above infinity. -/
def magnitude (x : Binary64) : Nat := x.bits.toNat % signBit

def isNegative (x : Binary64) : Bool := signBit ≤ x.bits.toNat

/-- The magnitude of infinity, the first that is not finite. -/
def infiniteMagnitude : Nat := 0x7FF * hiddenBit

def isNaN (x : Binary64) : Bool := infiniteMagnitude < x.magnitude

def isFinite (x : Binary64) : Bool := x.magnitude < infiniteMagnitude

def isZero (x : Binary64) : Bool := x.magnitude == 0

/-- The double with a sign and a magnitude below the bit of the sign. -/
def ofMagnitude (negative : Bool) (magnitude : Nat) : Binary64 :=
  ⟨UInt64.ofNat ((if negative then signBit else 0) + magnitude)⟩

def negate (x : Binary64) : Binary64 := ofMagnitude (!x.isNegative) x.magnitude

def zero (negative : Bool) : Binary64 := ofMagnitude negative 0

def infinity (negative : Bool) : Binary64 := ofMagnitude negative infiniteMagnitude

/-- The quiet not-a-number without payload. -/
def nan (negative : Bool) : Binary64 := ofMagnitude negative (infiniteMagnitude + 1 <<< 51)

/-! ## Exact values -/

def field (x : Binary64) : Nat := x.magnitude / hiddenBit

/-- The integer whose multiple by `2 ^ exponent` a finite double is; subnormals have no hidden bit. -/
def significand (x : Binary64) : Nat := x.magnitude % hiddenBit + if x.field = 0 then 0 else hiddenBit

def exponent (x : Binary64) : Int := (max x.field 1 : Nat) - 1075

/-- The absolute value of a finite double, as numerator and denominator. -/
def fraction (x : Binary64) : Nat × Nat :=
  if 0 ≤ x.exponent then (x.significand <<< x.exponent.toNat, 1) else (x.significand, 1 <<< (-x.exponent).toNat)

def toInt? (x : Binary64) : Option Int :=
  let (num, den) := x.fraction
  if x.isFinite ∧ num % den = 0 then
    some (if x.isNegative then -((num / den : Nat) : Int) else (num / den : Nat))
  else none

/-! ## Rounding -/

/-- Rounds `num / den` to `precision` binary digits, or to fewer where the unit would fall below `2 ^ least`: the
result is the product of a natural and a power of two. -/
def roundBinary (precision : Nat) (least : Int) (num den : Nat) : Nat × Int :=
  let unit := max least (floorLog2 num den + 1 - precision)
  let q := if 0 ≤ unit then roundHalfEven num (den <<< unit.toNat) else roundHalfEven (num <<< (-unit).toNat) den
  (q, unit)

/-- The double nearest to `± num / den`; of two equally near the even one; beyond the greatest double, infinity. -/
def ofQuotient (negative : Bool) (num den : Nat) : Binary64 :=
  if num = 0 then zero negative
  else
    let (q, unit) := roundBinary 53 (-1074) num den
    let magnitude := (unit + 1074).toNat * hiddenBit + q
    if infiniteMagnitude ≤ magnitude then infinity negative else ofMagnitude negative magnitude

def ofInt (n : Int) : Binary64 := ofQuotient (n < 0) n.natAbs 1

/-- How many bits the topmost word of sixty-four bits of a natural has. -/
def topmostBits (n : Nat) : Nat := n.log2 % 64 + 1

/-- Whether anything is seen in the words below the topmost one.  Of each of them only as many low bits are looked at as
the topmost word has, so of the word next to it just those below the leading sixty-four. -/
def restSeen (n : Nat) : Bool :=
  (List.range (n.log2 / 64)).any fun word => (n >>> (64 * word)) % (1 <<< topmostBits n) != 0

/-- The double for an integer of any length: the nearest one to its leading sixty-four bits, the last of which stands for
what is seen below them too.  Up to sixty-four bits this is the nearest to the integer. -/
def ofLongInt (n : Int) : Binary64 :=
  let place := n.natAbs.log2 + 1 - 64
  let leading := n.natAbs >>> place
  let leading := if leading % 2 = 0 && restSeen n.natAbs then leading + 1 else leading
  ofQuotient (n < 0) (leading <<< place) 1

/-- Rounds to the precision and range of a float of 32 bits. -/
def toSingle (x : Binary64) : Binary64 :=
  if x.isFinite ∧ !x.isZero then
    let (num, den) := x.fraction
    let (q, unit) := roundBinary 24 (-149) num den
    let (num, den) := if 0 ≤ unit then (q <<< unit.toNat, 1) else (q, 1 <<< (-unit).toNat)
    if den <<< 128 ≤ num then infinity x.isNegative else ofQuotient x.isNegative num den
  else x

/-! ## Comparison -/

/-- Equality of numbers: zero equals minus zero, and a not-a-number equals nothing. -/
def sameNumber (x y : Binary64) : Bool := !x.isNaN && !y.isNaN && (x.bits == y.bits || (x.isZero && y.isZero))

/-- Places all doubles on one line: `-nan < -∞ < … < -0 < 0 < … < ∞ < nan`. -/
def rank (x : Binary64) : Int := if x.isNegative then -(x.magnitude : Int) - 1 else x.magnitude

/-- The total order of all doubles. -/
def compareTotal (x y : Binary64) : Ordering := compare x.rank y.rank

end Binary64
end RowStore

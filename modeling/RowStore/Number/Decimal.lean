import RowStore.Number.Binary64

/-!
# Decimals

A decimal is a sign and a coefficient below `2 ^ 96` with up to twenty-eight of its digits behind the point.  It keeps
its scale: `1.5` and `1.50` are two decimals, yet equal as numbers, and comparison sees the numbers alone.  It also keeps
its sign where rounding leaves nothing else of it: minus zero is a decimal of its own, equal to zero as a number.

The store is given its decimals; it only compares and converts them.  These definitions state what is assumed of them:
which parts they have and how large these get (`Decimal`), that they compare as the exact numbers that they are
(`compareNumber`), which of them are integers (`toInt?`), and what becomes of an integer that is made a decimal (`ofInt?`)
and of a decimal that is made a double (`toBinary64`).
-/
namespace RowStore

/-- The number `± coefficient / 10 ^ scale`. -/
structure Decimal where
  negative : Bool
  coefficient : Nat
  scale : Nat
  coefficient_lt : coefficient < 1 <<< 96
  scale_le : scale ≤ 28
  deriving DecidableEq

namespace Decimal

/-- The decimal with these parts, if they are within bounds. -/
def ofParts? (negative : Bool) (coefficient scale : Nat) : Option Decimal :=
  if h : coefficient < 1 <<< 96 ∧ scale ≤ 28 then some ⟨negative, coefficient, scale, h.1, h.2⟩ else none

instance : Inhabited Decimal := ⟨false, 0, 0, by decide, by decide⟩

/-- An integer as a decimal without places, if it is not too large. -/
def ofInt? (n : Int) : Option Decimal := ofParts? (n < 0) n.natAbs 0

/-- The coefficient with its sign; that of minus zero is zero. -/
def mantissa (x : Decimal) : Int := if x.negative then -(x.coefficient : Int) else x.coefficient

/-- Order of the numbers, whatever their scales. -/
def compareNumber (x y : Decimal) : Ordering := compare (x.mantissa * pow10 y.scale) (y.mantissa * pow10 x.scale)

def sameNumber (x y : Decimal) : Bool := x.compareNumber y == .eq

def toInt? (x : Decimal) : Option Int :=
  if x.mantissa % pow10 x.scale = 0 then some (x.mantissa / pow10 x.scale) else none

/-- The double for a decimal.

Without places it is the nearest one.  With places the whole part and the fraction are rounded to doubles and added, and
the sum is brought back to a multiple of `10 ^ -scale`: times `10 ^ scale`, rounded with halves away from zero, divided
again, each step rounded to a double. -/
def toBinary64 (x : Decimal) : Binary64 :=
  let round (num den : Nat) : Nat × Nat := (Binary64.ofQuotient false num den).fraction
  if x.scale = 0 then Binary64.ofQuotient x.negative x.coefficient 1
  else
    let power := pow10 x.scale
    let (whole, wholeDen) := round (x.coefficient / power) 1
    let (rest, restDen) := round (x.coefficient % power) 1
    let (unit, unitDen) := round power 1
    let (part, partDen) := round (rest * unitDen) (restDen * unit)
    if part = 0 then Binary64.ofQuotient x.negative whole wholeDen
    else
      let (sum, sumDen) := round (whole * partDen + part * wholeDen) (wholeDen * partDen)
      let (scaled, scaledDen) := round (sum * unit) (sumDen * unitDen)
      Binary64.ofQuotient x.negative (roundHalfUp scaled scaledDen * unitDen) unit

end Decimal
end RowStore

import RowStore.Number.Binary64

/-!
# The fewest digits that read back

A finite double stands for every real that rounds to it: an interval around its value, its ends included exactly if the
significand is even.  `Binary64.shortest` finds the decimal grid with the fewest digits on which a point falls in that
interval, and on this grid the point nearest to the value.  Only the two neighbours of the value on a grid need a look:
where some point of the grid lies in the interval, one of them does.
-/
namespace RowStore

/-- The decimal `digits · 10 ^ exponent`. -/
structure Scientific where
  digits : Nat
  exponent : Int
  deriving DecidableEq, Inhabited

namespace Scientific

/-- The same decimal without zeros at the end of its digits; `fuel` bounds their number. -/
def trimZeros (d : Scientific) : Nat → Scientific
  | 0 => d
  | fuel + 1 => if d.digits ≠ 0 ∧ d.digits % 10 = 0 then trimZeros ⟨d.digits / 10, d.exponent + 1⟩ fuel else d

/-- Where the decimal point stands, counted from the left of the digits. -/
def point (d : Scientific) : Int := decimalLength d.digits + d.exponent

end Scientific

namespace Binary64

/-- What to do if the value lies halfway between two candidates. -/
inductive Tie
  | up
  | even
  deriving DecidableEq

/-- The least and the greatest real that round to a finite double of the given significand, and the value between them,
all in quarters of its unit. -/
def interval (x : Binary64) : Nat × Nat × Nat :=
  let m := x.significand
  (if m = hiddenBit ∧ 1 < x.field then 4 * m - 1 else 4 * m - 2, 4 * m, 4 * m + 2)

/-- The number of digits before the decimal point of `num / den`; not positive where zeros follow the point. -/
def pointOf (num den : Nat) : Int :=
  if den ≤ num then decimalLength (num / den)
  else
    let t := decimalLength (den / num)
    if num * pow10 (t - 1) < den then 1 - (t : Int) else 2 - (t : Int)

/-- The point of the grid of `n` digits that reads back, if there is one: the nearer of the value's two neighbours. -/
def onGrid? (x : Binary64) (tie : Tie) (n : Nat) : Option Scientific :=
  let (low, value, high) := x.interval
  -- a quarter of the unit is `num / den`
  let e := x.exponent - 2
  let (num, den) := if 0 ≤ e then (1 <<< e.toNat, 1) else (1, 1 <<< (-e).toNat)
  let k := pointOf (value * num) den - n
  -- in steps of the grid, a quarter of the unit is `num / den`
  let (num, den) := if 0 ≤ k then (num, den * pow10 k.toNat) else (num * pow10 (-k).toNat, den)
  let inside (a : Nat) : Bool :=
    if x.significand % 2 = 0 then low * num ≤ a * den ∧ a * den ≤ high * num
    else low * num < a * den ∧ a * den < high * num
  let below := value * num / den
  let remainder := value * num % den
  let upward : Bool := den < 2 * remainder || (2 * remainder == den && (tie == .up || below % 2 == 1))
  let nearer := if upward then below + 1 else below
  let farther := if upward then below else below + 1
  if inside nearer then some ⟨nearer, k⟩
  else if inside farther then some ⟨farther, k⟩
  else none

/-- The decimal with the fewest digits that rounds to a finite double other than zero. -/
def shortest (x : Binary64) (tie : Tie) : Scientific :=
  let found := (List.range 17).findSome? fun n => onGrid? x tie (n + 1)
  (found.getD ⟨0, 0⟩).trimZeros 20

end Binary64
end RowStore

/-!
# Rounding a quotient

Two ways to round `num / den` to an integer.  They differ only on exact halves.  Powers of two are written as shifts.
-/
namespace RowStore

def pow10 (n : Nat) : Nat := Nat.pow 10 n

/-- `num / den` to the nearest integer, a half to the even neighbour. -/
def roundHalfEven (num den : Nat) : Nat :=
  let q := num / den
  let r := num % den
  if 2 * r < den then q
  else if den < 2 * r then q + 1
  else if q % 2 = 0 then q else q + 1

/-- `num / den` to the nearest integer, a half to the greater neighbour. -/
def roundHalfUp (num den : Nat) : Nat := (2 * num + den) / (2 * den)

/-- The greatest `k` with `2 ^ k ≤ num / den`, both positive. -/
def floorLog2 (num den : Nat) : Int :=
  let k : Int := (num.log2 : Int) - den.log2
  if 0 ≤ k then (if den <<< k.toNat ≤ num then k else k - 1)
  else (if den ≤ num <<< (-k).toNat then k else k - 1)

def decimalLength (n : Nat) : Nat := (Nat.toDigits 10 n).length

end RowStore

/-!
# Integers in text

A sign, then digits of base ten in which underscores may group.  There is no bound on the length.

Integers of any size are given to the store.  Assumed of them is that they are the integers, with exact arithmetic and
comparison, and that they are read from text as `integer?` does.
-/
namespace RowStore

def digit? (c : Char) : Option Nat :=
  if '0' ≤ c ∧ c ≤ '9' then some (c.toNat - '0'.toNat) else none

/-- The number that a list of digits writes, the most significant first. -/
def ofDigits (ds : List Nat) : Nat := ds.foldl (fun n d => 10 * n + d) 0

def digits? (s : List Char) : Option Nat :=
  if s.isEmpty then none else (s.mapM digit?).map ofDigits

/-- Reads digits among which underscores may stand, though not in front. -/
def groupedDigits? (s : List Char) : Option Nat :=
  if s.head? = some '_' then none else digits? (s.filter (· != '_'))

/-- Reads an integer: at most one sign, then grouped digits. -/
def integer? : List Char → Option Int
  | '-' :: s => (groupedDigits? s).map fun n => -(n : Int)
  | '+' :: s => (groupedDigits? s).map Int.ofNat
  | s => (groupedDigits? s).map Int.ofNat

end RowStore

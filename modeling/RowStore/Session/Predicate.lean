import RowStore.Scan.Sweep

/-!
# Conditions and decisions

The filters of a scan and the function of a sweep, written down: a condition tests one row, a case says what to do with
the rows for which its condition holds.
-/
namespace RowStore

/-- How a condition compares a number. -/
inductive Comparison
  | lt
  | le
  | gt
  | ge
  | eq
  | ne
  deriving DecidableEq, Inhabited

def Comparison.holds : Comparison → Int → Int → Bool
  | lt, a, b => a < b
  | le, a, b => a ≤ b
  | gt, a, b => b < a
  | ge, a, b => b ≤ a
  | eq, a, b => a == b
  | ne, a, b => a != b

/-- A test of a row. -/
inductive Condition
  | always
  | never
  /-- The integer of a column compares with a number; false where the column holds no integer. -/
  | compares (c : Comparison) (column : String) (n : Int)
  /-- The integer of a column leaves a remainder; false where the column holds no integer. -/
  | leaves (column : String) (modulus remainder : Int)
  | equals (column : String) (value : Value)
  | isNull (column : String)
  | not (c : Condition)
  | and (a b : Condition)
  | or (a b : Condition)
  deriving Inhabited

namespace Condition

def holds : Condition → Row → Bool
  | always, _ => true
  | never, _ => false
  | compares c column n, row => (row.value column).asInt64.any fun v => c.holds v.toInt n
  | leaves column modulus remainder, row =>
    (row.value column).asInt64.any fun v => Int.emod v.toInt modulus == remainder
  | equals column value, row => (row.value column).same value
  | isNull column, row => (row.value column).isNull
  | not c, row => !c.holds row
  | and a b, row => a.holds row && b.holds row
  | or a b, row => a.holds row || b.holds row

end Condition

/-- What becomes of a row, apart from the row itself. -/
inductive Verdict
  | noOp
  | upsert
  | delete
  deriving DecidableEq, Inhabited

def Verdict.mutation : Verdict → Row → Mutation
  | noOp, _ => .noOp
  | upsert, row => .upsert row
  | delete, row => .delete row

/-- What to do with the rows for which a condition holds. -/
structure Case where
  condition : Condition
  verdict : Verdict
  /-- Columns whose integer `v` becomes `v * factor + summand`. -/
  affine : List (String × Int × Int)
  /-- Columns to set afterwards. -/
  set : Row
  /-- Columns to take out at last. -/
  drop : List String
  deriving Inhabited

namespace Case

def change (c : Case) (row : Row) : Row :=
  let row := c.affine.foldl
    (fun row (column, factor, summand) =>
      match (row.value column).asInt64 with
      | some v => row.insert column (.bigInt (v.toInt * factor + summand))
      | none => row)
    row
  let row := c.set.entries.foldl (fun row (column, value) => row.insert column value) row
  c.drop.foldl Row.erase row

/-- The mutation by the first case that holds; none of them leaves the row alone. -/
def decide (cases : List Case) (row : Row) : Mutation :=
  match cases.find? fun c => c.condition.holds row with
  | some c => c.verdict.mutation (c.change row)
  | none => .noOp

end Case
end RowStore

import RowStore.Value

/-!
# Rows

A row names its values and keeps them in order.  A row that a caller supplies may leave columns out; one that comes out
of a table has them all.  A name that is set again keeps its place.  Rows read from other documents may repeat a name:
the first occurrence is the one that counts.
-/
namespace RowStore

/-- Values by column name, in order. -/
structure Row where
  entries : List (String × Value)
  deriving DecidableEq, Inhabited

namespace Row

def empty : Row := ⟨[]⟩

def get? (row : Row) (column : String) : Option Value :=
  (row.entries.find? fun e => e.1 == column).map (·.2)

/-- The value of a column; a missing column reads as null. -/
def value (row : Row) (column : String) : Value := (row.get? column).getD .null

def contains (row : Row) (column : String) : Bool := (row.get? column).isSome

def columns (row : Row) : List String := row.entries.map (·.1)

def size (row : Row) : Nat := row.entries.length

/-- Sets the first entry of a name, or appends one. -/
def setEntry (column : String) (value : Value) : List (String × Value) → List (String × Value)
  | [] => [(column, value)]
  | e :: rest => if e.1 == column then (e.1, value) :: rest else e :: setEntry column value rest

def insert (row : Row) (column : String) (value : Value) : Row := ⟨setEntry column value row.entries⟩

/-- Takes a column out; those behind it move up. -/
def erase (row : Row) (column : String) : Row := ⟨row.entries.eraseP fun e => e.1 == column⟩

def ofList (entries : List (String × Value)) : Row := entries.foldl (fun row e => row.insert e.1 e.2) empty

/-- Equality of rows: the same names in the same order, and equal values. -/
def same (a b : Row) : Bool :=
  a.entries.length == b.entries.length &&
    (a.entries.zip b.entries).all fun (x, y) => x.1 == y.1 && x.2.same y.2

def toText (row : Row) : String :=
  "\x7b" ++ String.intercalate ", " (row.entries.map fun e => e.1 ++ "=" ++ e.2.toText) ++ "\x7d"

end Row
end RowStore

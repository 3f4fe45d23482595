import RowStore.Attempt
import RowStore.Cell

/-!
# Tuples

A tuple stages the cells of one row or key on their way into or out of an engine.  It is disposed of once; after that
every use of it fails.  Whoever keeps the count of tuples is told by `released`.
-/
namespace RowStore

/-- The columns a tuple is made for. -/
inductive TupleLayout
  /-- All columns of a table, in table order. -/
  | clustered
  /-- An index entry: the columns of the index, then those of the primary key. -/
  | secondary
  deriving DecidableEq, Inhabited

/-- A staging buffer. -/
structure Tuple where
  layout : TupleLayout
  columns : List Column
  cells : List Cell
  disposed : Bool := false
  deriving Inhabited

namespace Tuple

def checkLive (tuple : Tuple) : Except Error Unit :=
  if tuple.disposed then .error (.misuse .tupleDisposed) else .ok ()

def values (tuple : Tuple) : Except Error (List Cell) := do
  tuple.checkLive
  return tuple.cells

/-! ## Reading a column -/

def slot (tuple : Tuple) (ordinal : Nat) : Except Error Cell := do
  tuple.checkLive
  match tuple.cells[ordinal]? with
  | some cell => .ok cell
  | none => .error (.engine .dataMismatch)

def readBytes (tuple : Tuple) (ordinal : Nat) : Except Error Value := do
  match ← tuple.slot ordinal with
  | .null => .ok .null
  | .bytes b => .ok (.bytes b)
  | _ => .error (.engine .dataMismatch)

def readString (tuple : Tuple) (ordinal : Nat) : Except Error Value := do
  match ← tuple.slot ordinal with
  | .null => .ok .null
  | .text s => .ok (.text s)
  | _ => .error (.engine .dataMismatch)

/-- Reads an integer of a declared length; one that is wider or of the other kind does not fit the column. -/
def readInt (tuple : Tuple) (ordinal length : Nat) (signed : Bool) : Except Error Value := do
  let bits := integerBits length
  match ← tuple.slot ordinal, signed with
  | .null, _ => .ok .null
  | .int n, true =>
    if FitsSigned bits n.toInt then .ok (.int n) else .error (.engine .dataMismatch)
  | .uint n, false => if FitsUnsigned bits n.toNat then .ok (.uint n) else .error (.engine .dataMismatch)
  | _, _ => .error (.engine .dataMismatch)

/-! ## Changing the buffer -/

variable {σ : Type}

def setValues (cells : List Cell) : Action (Tuple × σ) Unit := fun (tuple, s) =>
  match tuple.checkLive with
  | .ok () => (.ok (), ({ tuple with cells }, s))
  | .error e => (.error e, (tuple, s))

def clear : Action (Tuple × σ) Unit := setValues []

/-- Releases the tuple; the second time this is an error. -/
def dispose (released : σ → σ) : Action (Tuple × σ) Unit := fun (tuple, s) =>
  match tuple.checkLive with
  | .ok () => (.ok (), ({ tuple with cells := [], disposed := true }, released s))
  | .error e => (.error e, (tuple, s))

/-- Lets go of a tuple: releases it unless that has been done. -/
def letGo (released : σ → σ) (tuple : Tuple) (s : σ) : σ := if tuple.disposed then s else released s

end Tuple
end RowStore

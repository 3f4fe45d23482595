import RowStore.Engine

/-!
# Planned faults

An engine can be made to fail on purpose.  A fault names a call and a count: at that many calls from now, the call fails
with a status and does not reach the engine.  Each call counts down all faults that wait for it; if several fall due at
once the one planned first decides.  Letting go of a cursor or a tuple is not a call.
-/
namespace RowStore

/-- The calls that can be made to fail. -/
inductive Method
  | begin
  | commit
  | rollback
  | openTable
  | openIndex
  | setLockMode
  | lock
  | setClusterAccess
  | searchTuple
  | readTuple
  | search
  | readRow
  | insertRow
  | updateRow
  | deleteRow
  | advance
  | close
  deriving DecidableEq, Inhabited

/-- A planned fault. -/
structure Fault where
  method : Method
  remaining : Nat
  status : Status
  deriving DecidableEq, Inhabited

/-- The faults that have not fallen due, in the order in which they were planned. -/
abbrev Faults := List Fault

namespace Faults

/-- Counts a call: the status it fails with, if it does, and the faults that still wait. -/
def strike (faults : Faults) (method : Method) : Option Status × Faults :=
  let counted := faults.map fun f => if f.method = method then { f with remaining := f.remaining - 1 } else f
  let isDue (f : Fault) : Bool := f.method == method && f.remaining == 0
  ((counted.find? isDue).map (·.status), counted.filter (!isDue ·))

variable {σ ρ α : Type}

/-- Counts a call on the engine's state and makes it unless it is to fail. -/
def guard (method : Method) (call : Action σ α) : Action (Faults × σ) α := fun (faults, s) =>
  match faults.strike method with
  | (some status, faults) => (.error (.engine status), (faults, s))
  | (none, faults) =>
    let (r, s) := call s
    (r, (faults, s))

/-- The same for a call that also changes what is at hand. -/
def guardHeld (method : Method) (call : Action (ρ × σ) α) : Action (ρ × Faults × σ) α := fun (x, faults, s) =>
  match faults.strike method with
  | (some status, faults) => (.error (.engine status), (x, faults, s))
  | (none, faults) =>
    let (r, (x, s)) := call (x, s)
    (r, (x, faults, s))

def guardRow {κ : Type} (method : Method) (call : Action (Tuple × κ × σ) α) : Action (Tuple × κ × Faults × σ) α :=
  fun (tuple, c, faults, s) =>
    let (r, ((tuple, c), (faults, s))) :=
      guardHeld method (fun ((tuple, c), s) => let (r, (tuple, c, s)) := call (tuple, c, s); (r, ((tuple, c), s)))
        ((tuple, c), (faults, s))
    (r, (tuple, c, faults, s))

end Faults

/-- The engine with planned faults in front of it.  `abandon` is what becomes of a transaction whose commit or rollback
fails before it reaches the engine. -/
def Engine.withFaults {σ τ κ : Type} (E : Engine σ τ κ) (abandon : τ → σ → σ) : Engine (Faults × σ) τ κ where
  begin level := Faults.guard .begin (E.begin level)
  commit txn := fun (faults, s) =>
    match faults.strike .commit with
    | (some status, faults) => (.error (.engine status), (faults, abandon txn s))
    | (none, faults) => let (r, s) := E.commit txn s; (r, (faults, s))
  rollback txn := fun (faults, s) =>
    match faults.strike .rollback with
    | (some status, faults) => (.error (.engine status), (faults, abandon txn s))
    | (none, faults) => let (r, s) := E.rollback txn s; (r, (faults, s))
  openTable txn schema := Faults.guard .openTable (E.openTable txn schema)
  openIndex txn cursor index := Faults.guard .openIndex (E.openIndex txn cursor index)
  setLockMode mode := Faults.guardHeld .setLockMode (E.setLockMode mode)
  lock mode := Faults.guardHeld .lock (E.lock mode)
  setClusterAccess := Faults.guardHeld .setClusterAccess E.setClusterAccess
  searchTuple key := Faults.guardHeld .searchTuple (E.searchTuple key)
  readTuple := Faults.guardHeld .readTuple E.readTuple
  search tuple mode := Faults.guardHeld .search (E.search tuple mode)
  isPositioned := fun (c, _, s) => E.isPositioned (c, s)
  hasNext := fun (c, _, s) => E.hasNext (c, s)
  readRow := Faults.guardRow .readRow E.readRow
  insertRow row := Faults.guardRow .insertRow (E.insertRow row)
  updateRow row := Faults.guardRow .updateRow (E.updateRow row)
  deleteRow := Faults.guardHeld .deleteRow E.deleteRow
  advance direction := Faults.guardHeld .advance (E.advance direction)
  close := Faults.guardHeld .close E.close
  letGoCursor cursor := fun (faults, s) => (faults, E.letGoCursor cursor s)
  tupleReleased := fun (faults, s) => (faults, E.tupleReleased s)
  entryBound := fun (c, _, s) => E.entryBound (c, s)

end RowStore

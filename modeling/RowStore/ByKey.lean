import RowStore.Codec.Record
import RowStore.Engine

/-!
# Rows by primary key

Loading and writing single rows.  Each call opens one cursor on the table, positions it at or after the primary key, and
takes the row there only if it agrees with the key: a search alone comes near, it does not match.  Writes lock before
they position.  Tuples are disposed of and the cursor is closed on every way out.
-/
namespace RowStore
namespace ByKey
variable {σ τ κ α : Type} (E : Engine σ τ κ)

/-- Runs `body` on a cursor of its own.  The cursor is closed in any case; that closing fails shows only if nothing
else has failed before. -/
def withCursor (txn : τ) (schema : TableSchema) (write : Bool) (body : Action (κ × σ) α) : Action σ α :=
  Attempt.holding (E.openTable txn schema) E.letGoCursor do
    let result ← Attempt.outcome do
      if write then E.lockForWrite
      body
    let closed ← Attempt.outcome E.close
    let answer ← Attempt.ofExcept result
    Attempt.ofExcept closed
    return answer

def finish : Action (Tuple × κ × σ) Unit := do
  Tuple.clear
  E.disposeTuple

/-- Looks for the row whose primary key is that of `key`, and runs `use` on it with the row still staged in a tuple at
hand.  Answers nothing if there is no such row. -/
def find (schema : TableSchema) (key : Row) (use : Row → Action (Tuple × κ × σ) α) : Action (κ × σ) (Option α) := do
  let leading ← encodeLeading schema.primary.columns key
  let positioned ← E.position leading .greaterOrEqual
  if !(positioned && E.hasNext (← Attempt.state)) then return none
  Attempt.holding E.readTuple E.letGoTuple do
    E.readRow
    let row ← schema.decodeRow (← Attempt.held)
    if Row.agreeOn schema.primary.columns key row then
      return some (← use row)
    else
      E.disposeTuple
      return none

/-- The row with the primary key of `key`, if there is one. -/
def load (txn : τ) (schema : TableSchema) (key : Row) : Action σ (Option Row) :=
  withCursor E txn schema false do
    find E schema key fun row => do
      finish E
      return row

def insertPayload (payload : List Cell) : Action (κ × σ) Unit :=
  Attempt.holding E.readTuple E.letGoTuple do
    E.insertRow payload
    finish E

/-- Adds a row; its primary key and its unique keys must be new. -/
def insert (txn : τ) (schema : TableSchema) (row : Row) : Action σ Unit :=
  withCursor E txn schema true do
    let payload ← schema.encodeRow row
    insertPayload E payload

/-- Replaces the row with the primary key of `row`, and tells whether there was one. -/
def update (txn : τ) (schema : TableSchema) (row : Row) : Action σ Bool :=
  withCursor E txn schema true do
    let hit ← find E schema row fun _ => do
      let payload ← schema.encodeRow row
      E.updateRow payload
      finish E
    return hit.isSome

/-- Replaces the row with the primary key of `row`, or adds `row`; tells whether it was replaced. -/
def insertOrUpdate (txn : τ) (schema : TableSchema) (row : Row) : Action σ Bool :=
  withCursor E txn schema true do
    let payload ← schema.encodeRow row
    let hit ← find E schema row fun _ => do
      E.updateRow payload
      finish E
    if hit.isSome then return true
    insertPayload E payload
    return false

/-- Deletes the row with the primary key of `key`, and tells whether there was one. -/
def delete (txn : τ) (schema : TableSchema) (key : Row) : Action σ Bool :=
  withCursor E txn schema true do
    let hit ← find E schema key fun _ => do
      E.deleteRow
      finish E
    return hit.isSome

end ByKey
end RowStore

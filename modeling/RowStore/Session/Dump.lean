import RowStore.Engine

/-!
# Dumps

All entries of all indexes of a table, read through cursors.
-/
namespace RowStore
namespace Dump
variable {σ τ κ : Type} (E : Engine σ τ κ)

/-- The cells under the cursor, which then moves on; nothing where the cursor rests nowhere. -/
def take : Action (Tuple × κ × σ) (Option (List Cell)) := do
  let (_, here) ← Attempt.state
  if !E.hasNext here then return none
  E.readRow
  let cells ← (← Attempt.held).values
  E.advance .asc
  return some cells

def entries : Action (κ × σ) (List (List Cell)) :=
  Attempt.holding (E.searchTuple []) E.letGoTuple do
    let key ← Attempt.held
    let read : Action (κ × σ) (List (List Cell)) := Attempt.holding E.readTuple E.letGoTuple do
      let _ ← (E.search key .greaterOrEqual : Action (κ × σ) Bool)
      let (_, here) ← Attempt.state
      Attempt.exhaust (take E) (E.entryBound here + 1)
    read

/-- The entries of a table by index, the clustered one first and under no name. -/
def table (txn : τ) (schema : TableSchema) : Action σ (List (String × List (List Cell))) :=
  Attempt.holding (E.openTable txn schema) E.letGoCursor do
    let cursor ← Attempt.held
    let clustered ← (Attempt.holding (E.openTable txn schema) E.letGoCursor (entries E) : Action σ _)
    let secondary ← schema.secondary.mapM fun index => do
      let cells ← (Attempt.holding (E.openIndex txn cursor index) E.letGoCursor (entries E) : Action σ _)
      return (index.name, cells)
    return ("", clustered) :: secondary

end Dump
end RowStore

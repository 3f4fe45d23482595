import RowStore.Memory.Seek

/-!
# Tables in memory

A table keeps its rows by primary key, and for each secondary index a map from `index columns ++ primary key` to the
primary key.  Every write moves the rows and all these maps together; a write that fails leaves the table as it was.
-/
namespace RowStore
namespace Memory

/-- A table with its rows and the entries of its secondary indexes. -/
structure Table where
  schema : TableSchema
  rows : OrderedMap Key (List Cell)
  indexes : OrderedMap String (OrderedMap Key Key)
  deriving Inhabited

/-- The cells of a row in the given columns; a cell that the row does not have is null. -/
def project (columns : List Column) (row : List Cell) : Key := columns.map fun c => row[c.ordinal]?.getD .null

namespace Table

def new (schema : TableSchema) : Table :=
  ⟨schema, .empty, schema.secondary.foldl (fun m i => m.insert i.name .empty) .empty⟩

def primaryKey (table : Table) (row : List Cell) : Key := project table.schema.primary.columns row

def indexEntry (index : Index) (row : List Cell) (primaryKey : Key) : Key := project index.columns row ++ primaryKey

/-- Whether a row has a cell for each column, and none that must not be null is. -/
def fits (table : Table) (row : List Cell) : Bool :=
  row.length == table.schema.columns.length &&
    (table.schema.columns.zip row).all fun (c, cell) => !(c.isNotNull && cell.isNull)

/-- Whether a unique index has an entry for the row's key already.  Keys with a null never collide. -/
def collides (index : Index) (entries : OrderedMap Key Key) (row : List Cell) : Bool :=
  let key := project index.columns row
  index.isUnique && !key.any Cell.isNull &&
    (entries.seek key .greaterOrEqual).any fun entry => Key.orderLeading entry key == .eq

/-- The first reason why an index cannot take a row. -/
def refusal? (table : Table) (row : List Cell) : Option Status :=
  table.schema.secondary.findSome? fun index =>
    match table.indexes.get? index.name with
    | none => some .indexNotFound
    | some entries => if collides index entries row then some .duplicateKey else none

/-- Adds the entries of a row to all secondary indexes. -/
def addEntries (table : Table) (row : List Cell) (primaryKey : Key) : OrderedMap String (OrderedMap Key Key) :=
  table.schema.secondary.foldl
    (fun maps index => maps.adjust index.name fun entries => entries.insert (indexEntry index row primaryKey) primaryKey)
    table.indexes

/-- Takes the entries of a row out of all secondary indexes. -/
def dropEntries (table : Table) (row : List Cell) (primaryKey : Key) : OrderedMap String (OrderedMap Key Key) :=
  table.schema.secondary.foldl
    (fun maps index => maps.adjust index.name fun entries => entries.erase (indexEntry index row primaryKey))
    table.indexes

/-- The table with a row that has been found to fit and the entries of that row. -/
def withRow (table : Table) (row : List Cell) : Table :=
  let key := table.primaryKey row
  { table with rows := table.rows.insert key row, indexes := table.addEntries row key }

/-- The table without the row at a primary key and without its entries. -/
def withoutRow (table : Table) (key : Key) (row : List Cell) : Table :=
  { table with rows := table.rows.erase key, indexes := table.dropEntries row key }

/-! ## Writes -/

def insert (row : List Cell) : Action Table Unit := do
  let table ← Attempt.state
  if !table.fits row then Attempt.fail (.engine .dataMismatch)
  else if table.rows.contains (table.primaryKey row) then Attempt.fail (.engine .duplicateKey)
  else
    match table.refusal? row with
    | some status => Attempt.fail (.engine status)
    | none => Attempt.modify (·.withRow row)

def remove (key : Key) : Action Table (List Cell) := do
  let table ← Attempt.state
  match table.rows.get? key with
  | none => Attempt.fail (.engine .recordNotFound)
  | some row =>
    Attempt.modify (·.withoutRow key row)
    return row

/-- Replaces the row at a primary key.  The new row may have another primary key.  The old row is taken out first, so
that the new one does not collide with it, and is put back if the new one is refused. -/
def replace (key : Key) (row : List Cell) : Action Table Unit := do
  let table ← Attempt.state
  if !table.fits row then Attempt.fail (.engine .dataMismatch)
  else
    let old ← remove key
    match ← Attempt.outcome (ε := Error) (insert row) with
    | .ok () => return ()
    | .error e =>
      insert old
      Attempt.fail e

end Table
end Memory
end RowStore

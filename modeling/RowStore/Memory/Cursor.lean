import RowStore.Memory.Database

/-!
# Cursors in memory

A cursor remembers the key of the entry it rests on, not the entry: rows may come and go under it.  It reads through the
schema it was opened with and writes whole rows, only on the clustered index and only under an exclusive lock.
-/
namespace RowStore
namespace Memory

/-- A cursor of a transaction. -/
structure Cursor where
  id : Nat
  transaction : Nat
  schema : TableSchema
  index : Option Index
  clusterAccess : Bool := false
  lockMode : LockMode := .none
  exclusive : Bool := false
  positioned : Bool := false
  position : Option Key := none
  closed : Bool := false
  deriving Inhabited

namespace Cursor

def checkOpen (cursor : Cursor) : Except Error Unit :=
  if cursor.closed then .error (.engine .cursorClosed) else .ok ()

def checkWritable (cursor : Cursor) : Except Error Unit := do
  cursor.checkOpen
  if cursor.index.isSome then .error (.misuse .writeThroughIndex)
  if !cursor.exclusive then .error (.misuse .writeWithoutLock)

def resting (cursor : Cursor) (otherwise : Status) : Except Error Key :=
  match cursor.position with
  | some key => .ok key
  | none => .error (.engine otherwise)

def keyColumns (cursor : Cursor) : List Column :=
  match cursor.index with
  | none => cursor.schema.primary.columns
  | some index => index.columns ++ cursor.schema.primary.columns

def keyLayout (cursor : Cursor) : TupleLayout := if cursor.index.isSome then .secondary else .clustered

def readLayout (cursor : Cursor) : TupleLayout := if cursor.clusterAccess then .clustered else cursor.keyLayout

/-! ## Opening -/

def create (transaction : Nat) (schema : TableSchema) (index : Option Index) : Action Database Cursor := do
  Database.onTable transaction schema.name false (pure ())
  let db ← Attempt.state
  let w := db.workspace transaction
  let id := w.nextCursor
  Attempt.modify fun db =>
    { db.setWorkspace transaction { w with nextCursor := id + 1 } with ledger := db.ledger.cursorOpened }
      |>.record transaction id (.opened schema.name (index.map Index.name))
  return { id, transaction, schema, index }

/-- Opens a cursor on the secondary index of a name of the table that another cursor is open on. -/
def createOnIndex (transaction : Nat) (cursor : Cursor) (index : Index) : Action Database Cursor := do
  cursor.checkOpen
  match cursor.schema.secondary? index.name with
  | some index => create transaction cursor.schema (some index)
  | none => Attempt.fail (.engine .indexNotFound)

/-! ## Calls -/

variable {α : Type}

def update (f : Cursor → Cursor) : Action (Cursor × Database) Unit := Attempt.modify fun (cursor, db) => (f cursor, db)

def log (operation : Operation) : Action (Cursor × Database) Unit :=
  Attempt.modify fun (cursor, db) => (cursor, db.record cursor.transaction cursor.id operation)

/-- Works on the transaction's copy of the cursor's table. -/
def onTable (write : Bool) (work : Action Table α) : Action (Cursor × Database) α := do
  let cursor ← Attempt.held
  Database.onTable cursor.transaction cursor.schema.name write work

/-- What the cursor's index holds under each of its keys: the row of the table, or the primary key. -/
inductive Entries
  | clustered (rows : OrderedMap Key (List Cell))
  | secondary (entries : OrderedMap Key Key)

namespace Entries

def seek : Entries → Key → SearchMode → Option Key
  | clustered rows, key, mode => rows.seek key mode
  | secondary entries, key, mode => entries.seek key mode

def step : Entries → Key → Direction → Option Key
  | clustered rows, key, direction => rows.step key direction
  | secondary entries, key, direction => entries.step key direction

def size : Entries → Nat
  | clustered rows => rows.size
  | secondary entries => entries.size

/-- What a read answers at a key: the row, or the key itself where entries of a secondary index are read as such. -/
def read? (table : Table) (clusterAccess : Bool) : Entries → Key → Option (List Cell)
  | clustered rows, key => rows.get? key
  | secondary entries, key =>
    (entries.get? key).bind fun primaryKey => if clusterAccess then table.rows.get? primaryKey else some key

end Entries

def entriesOf (table : Table) (index : Option Index) : Except Error Entries :=
  match index with
  | none => .ok (.clustered table.rows)
  | some index =>
    match table.indexes.get? index.name with
    | some entries => .ok (.secondary entries)
    | none => .error (.engine .indexNotFound)

/-- Looks at the table and the entries of the cursor's index. -/
def withEntries (look : Table → Entries → Except Error α) : Action (Cursor × Database) α := do
  let cursor ← Attempt.held
  onTable false do
    let table ← Attempt.state
    let entries ← entriesOf table cursor.index
    look table entries

def setLockMode (mode : LockMode) : Action (Cursor × Database) Unit := do
  (← Attempt.held).checkOpen
  update fun c => { c with lockMode := mode }
  log (.lockModeSet mode)

/-- Locks the table.  An exclusive lock has to be announced by the lock mode. -/
def lock (mode : LockMode) : Action (Cursor × Database) Unit := do
  let cursor ← Attempt.held
  cursor.checkOpen
  if mode = .exclusive then
    if cursor.lockMode ≠ .intentionExclusive then Attempt.fail (.misuse .lockWithoutIntention)
    update fun c => { c with exclusive := true }
  log (.locked mode)

/-- Reads whole rows through a secondary index; a cursor on the clustered index does so anyway. -/
def setClusterAccess : Action (Cursor × Database) Unit := do
  (← Attempt.held).checkOpen
  update fun c => { c with clusterAccess := c.index.isSome }

def makeTuple (tuple : Tuple) : Action (Cursor × Database) Tuple := do
  Attempt.modify fun (cursor, db) => (cursor, { db with ledger := db.ledger.tupleCreated })
  return tuple

def searchTuple (key : Key) : Action (Cursor × Database) Tuple := do
  let cursor ← Attempt.held
  cursor.checkOpen
  if cursor.keyColumns.length < key.length then Attempt.fail (.engine .dataMismatch)
  makeTuple { layout := cursor.keyLayout, columns := cursor.keyColumns.take key.length, cells := key }

def readTuple : Action (Cursor × Database) Tuple := do
  let cursor ← Attempt.held
  cursor.checkOpen
  let columns := if cursor.readLayout = .clustered then cursor.schema.columns else cursor.keyColumns
  makeTuple { layout := cursor.readLayout, columns, cells := [] }

def search (tuple : Tuple) (mode : SearchMode) : Action (Cursor × Database) Bool := do
  (← Attempt.held).checkOpen
  let key ← tuple.values
  let position ← withEntries fun _ entries => .ok (entries.seek key mode)
  let found := position.isSome
  update fun c => { c with position, positioned := found }
  log (.searched mode found)
  return found

def isPositioned (cursor : Cursor) : Bool := !cursor.closed && cursor.positioned

def hasNext (cursor : Cursor) : Bool := !cursor.closed && cursor.position.isSome

def readRow : Action (Tuple × Cursor × Database) Unit := do
  let tuple ← Attempt.held
  let cells ← (do
    let cursor ← Attempt.held
    cursor.checkOpen
    if tuple.layout ≠ cursor.readLayout then Attempt.fail (.engine .dataMismatch)
    let key ← cursor.resting .recordNotFound
    withEntries fun table entries =>
      match entries.read? table cursor.clusterAccess key with
      | some cells => .ok cells
      | none => .error (.engine .recordNotFound) : Action (Cursor × Database) (List Cell))
  Tuple.setValues cells

/-- Stages a row in the tuple; it stays there even if the write fails. -/
def stage (row : List Cell) : Action (Tuple × Cursor × Database) (List Cell) := do
  Tuple.setValues row
  (← Attempt.held).values

def insertRow (row : List Cell) : Action (Tuple × Cursor × Database) Unit := do
  let (_, cursor, _) ← Attempt.state
  cursor.checkWritable
  let staged ← stage row
  (do
    onTable true (Table.insert staged)
    log .inserted : Action (Cursor × Database) Unit)

def updateRow (row : List Cell) : Action (Tuple × Cursor × Database) Unit := do
  let (_, cursor, _) ← Attempt.state
  cursor.checkWritable
  let key ← cursor.resting .recordNotFound
  let staged ← stage row
  (do
    onTable true (Table.replace key staged)
    log .updated : Action (Cursor × Database) Unit)

def deleteRow : Action (Cursor × Database) Unit := do
  let cursor ← Attempt.held
  cursor.checkWritable
  let key ← cursor.resting .recordNotFound
  let _ ← onTable true (Table.remove key)
  log .deleted

/-- Moves to the nearest entry beyond the place where the cursor rests, whether or not that entry is still there.  If
the table cannot be looked at, the cursor rests nowhere. -/
def advance (direction : Direction) : Action (Cursor × Database) Unit := do
  let cursor ← Attempt.held
  cursor.checkOpen
  let key ← cursor.resting .endOfIndex
  update fun c => { c with position := none }
  let position ← withEntries fun _ entries => .ok (entries.step key direction)
  update fun c => { c with position }

/-! ## Releasing -/

/-- Closes the cursor, once. -/
def release : Cursor × Database → Cursor × Database := fun (cursor, db) =>
  if cursor.closed then (cursor, db)
  else
    ({ cursor with closed := true, position := none },
      { db with ledger := db.ledger.cursorClosed }.record cursor.transaction cursor.id .closed)

def close : Action (Cursor × Database) Unit := Attempt.modify release

def letGo (cursor : Cursor) (db : Database) : Database := (release (cursor, db)).2

/-- The number of entries of the cursor's index, as its transaction sees it. -/
def entryBound (cursor : Cursor) (db : Database) : Nat :=
  (((db.workspace cursor.transaction).copies.get? cursor.schema.name).bind fun copy =>
    (entriesOf copy.table cursor.index).toOption.map Entries.size).getD 0

end Cursor

def engine : Engine Database Transaction Cursor where
  begin := Database.begin
  commit txn := Database.finish txn.id true
  rollback txn := Database.finish txn.id false
  openTable txn schema := Cursor.create txn.id schema none
  openIndex txn cursor index := Cursor.createOnIndex txn.id cursor index
  setLockMode := Cursor.setLockMode
  lock := Cursor.lock
  setClusterAccess := Cursor.setClusterAccess
  searchTuple := Cursor.searchTuple
  readTuple := Cursor.readTuple
  search := Cursor.search
  isPositioned := fun (cursor, _) => cursor.isPositioned
  hasNext := fun (cursor, _) => cursor.hasNext
  readRow := Cursor.readRow
  insertRow := Cursor.insertRow
  updateRow := Cursor.updateRow
  deleteRow := Cursor.deleteRow
  advance := Cursor.advance
  close := Cursor.close
  letGoCursor := Cursor.letGo
  tupleReleased db := { db with ledger := db.ledger.tupleDisposed }
  entryBound := fun (cursor, db) => cursor.entryBound db

end Memory
end RowStore

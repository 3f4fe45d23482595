import RowStore.Ledger
import RowStore.Memory.Table

/-!
# The database in memory

Tables are committed under their names.  A transaction copies a table when it first touches it and works on the copy; a
commit publishes the copies that were written to, over whatever others have committed meanwhile, unless the table's name
is gone.  There are no lock waits.  Each transaction logs what its cursors do.
-/
namespace RowStore
namespace Memory

/-- What a cursor did. -/
inductive Operation
  | opened (table : String) (index : Option String)
  | lockModeSet (mode : LockMode)
  | locked (mode : LockMode)
  | searched (mode : SearchMode) (found : Bool)
  | inserted
  | updated
  | deleted
  | closed
  deriving DecidableEq, Inhabited

/-- An entry of a transaction's log. -/
structure Event where
  cursor : Nat
  operation : Operation
  deriving DecidableEq, Inhabited

/-- A transaction's copy of a table. -/
structure Copy where
  table : Table
  /-- Whether a write to it was begun, successful or not. -/
  written : Bool
  deriving Inhabited

/-- What the database keeps of a transaction.  Cursors may outlive it, so it stays when the transaction has ended. -/
structure Workspace where
  state : TransactionState := .active
  copies : OrderedMap String Copy := .empty
  events : List Event := []
  nextCursor : Nat := 1
  deriving Inhabited

/-- A database: the committed tables, the transactions, and the count of tuples and cursors. -/
structure Database where
  tables : OrderedMap String Table := .empty
  transactions : OrderedMap Nat Workspace := .empty
  nextTransaction : Nat := 1
  ledger : Ledger := {}
  deriving Inhabited

/-- A handle on a transaction. -/
structure Transaction where
  id : Nat
  level : IsolationLevel
  deriving DecidableEq, Inhabited

namespace Database

/-! ## Tables -/

def createTable (schema : TableSchema) : Action Database Unit := fun db =>
  if db.tables.contains schema.name then (.error (.engine .tableExists), db)
  else (.ok (), { db with tables := db.tables.insert schema.name (.new schema) })

def dropTable (name : String) : Action Database Unit := fun db =>
  if db.tables.contains name then (.ok (), { db with tables := db.tables.erase name })
  else (.error (.engine .tableNotFound), db)

def truncateTable (name : String) : Action Database Unit := fun db =>
  match db.tables.get? name with
  | some table => (.ok (), { db with tables := db.tables.insert name (.new table.schema) })
  | none => (.error (.engine .tableNotFound), db)

def tableExists (db : Database) (name : String) : Bool := db.tables.contains name

def rowCount (db : Database) (name : String) : Except Error Nat :=
  match db.tables.get? name with
  | some table => .ok table.rows.size
  | none => .error (.engine .tableNotFound)

/-! ## Transactions -/

def begin (level : IsolationLevel) : Action Database Transaction := fun db =>
  let id := db.nextTransaction
  (.ok ⟨id, level⟩, { db with transactions := db.transactions.insert id {}, nextTransaction := id + 1 })

def workspace (db : Database) (id : Nat) : Workspace := (db.transactions.get? id).getD { state := .notStarted }

def setWorkspace (db : Database) (id : Nat) (w : Workspace) : Database :=
  { db with transactions := db.transactions.insert id w }

/-- The copies that were written to take the place of the committed tables of their names. -/
def publish (tables : OrderedMap String Table) (copies : OrderedMap String Copy) : OrderedMap String Table :=
  copies.entries.foldl
    (fun tables (name, copy) => if copy.written && tables.contains name then tables.insert name copy.table else tables)
    tables

def finish (id : Nat) (commit : Bool) : Action Database Unit := fun db =>
  let w := db.workspace id
  if w.state ≠ .active then (.error (.engine .transactionClosed), db)
  else
    let tables := if commit then publish db.tables w.copies else db.tables
    let state := if commit then .committed else .rolledBack
    (.ok (), { db with tables }.setWorkspace id { w with state, copies := .empty })

/-- Lets go of a transaction: one that is still active is rolled back. -/
def abandon (id : Nat) : Database → Database := Attempt.quietly (finish id false)

/-- Works on a transaction's copy of a table, made from the committed table on the first touch.  A write marks the copy
as written before the work has succeeded. -/
def onTable {α : Type} (id : Nat) (name : String) (write : Bool) (work : Action Table α) : Action Database α := fun db =>
  let w := db.workspace id
  if w.state ≠ .active then (.error (.engine .transactionClosed), db)
  else
    match (w.copies.get? name).or ((db.tables.get? name).map fun table => ⟨table, false⟩) with
    | none => (.error (.engine .tableNotFound), db)
    | some copy =>
      let (r, table) := work copy.table
      (r, db.setWorkspace id { w with copies := w.copies.insert name ⟨table, copy.written || write⟩ })

def record (id cursor : Nat) (operation : Operation) (db : Database) : Database :=
  let w := db.workspace id
  db.setWorkspace id { w with events := w.events ++ [⟨cursor, operation⟩] }

end Database
end Memory
end RowStore

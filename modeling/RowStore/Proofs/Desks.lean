import RowStore.Proofs.Releases

/-!
# What a client has taken

A client takes tuples, cursors and scans, works with them, releases them, once or repeatedly, and lets go of them, in
any order and also when their transaction is over (`Handling`).  All that it has taken lies on its desk (`Desk`), in the
order in which it was taken; what it has let go of leaves an empty place.
-/
namespace RowStore

open Attempt

/-- The tuple that a scan holds. -/
def Progress.tuples {κ : Type} : Progress κ → List Tuple
  | .running held _ => [held.tuple]
  | .closed => []

/-- The cursors that a scan holds. -/
def Progress.cursors {κ : Type} : Progress κ → List κ
  | .running held _ => held.cursors.list
  | .closed => []

/-- A scan holds a live tuple, or nothing. -/
def Progress.Live {κ : Type} (progress : Progress κ) : Prop := ∀ tuple ∈ progress.tuples, tuple.disposed = false

namespace Memory

/-- A database, and all that a client has taken. -/
structure Desk where
  db : Database := {}
  tuples : List (Option Tuple) := []
  cursors : List (Option Cursor) := []
  scans : List (Scan Cursor) := []

/-- What a client does.  Tuples, cursors and scans go by their places on the desk. -/
inductive Handling (ρ : Type)
  | createTable (schema : TableSchema)
  | dropTable (name : String)
  | truncateTable (name : String)
  | begin (level : IsolationLevel)
  | commit (txn : Transaction)
  /-- A transaction is rolled back, or let go of. -/
  | rollback (txn : Transaction)
  | openTable (txn : Transaction) (schema : TableSchema)
  | openIndex (txn : Transaction) (cursor : Nat) (index : Index)
  | setLockMode (cursor : Nat) (mode : LockMode)
  | lock (cursor : Nat) (mode : LockMode)
  | setClusterAccess (cursor : Nat)
  | searchTuple (cursor : Nat) (key : Key)
  | readTuple (cursor : Nat)
  | search (cursor tuple : Nat) (mode : SearchMode)
  | readRow (cursor tuple : Nat)
  | insertRow (cursor tuple : Nat) (cells : List Cell)
  | updateRow (cursor tuple : Nat) (cells : List Cell)
  | deleteRow (cursor : Nat)
  | advance (cursor : Nat) (direction : Direction)
  | close (cursor : Nat)
  | letGoCursor (cursor : Nat)
  | setValues (tuple : Nat) (cells : List Cell)
  | clear (tuple : Nat)
  | dispose (tuple : Nat)
  | letGoTuple (tuple : Nat)
  | request (txn : Transaction) (schema : TableSchema) (request : Request)
  | openScan (txn : Transaction) (plan : Plan) (write : Bool)
  /-- The next row of a scan is asked for. -/
  | pull (scan : Nat)
  /-- A sweep visits the next row of a scan. -/
  | visit (scan : Nat) (txn : Transaction) (decide : Row → Mutation)
  /-- A scan is closed, or let go of. -/
  | closeScan (scan : Nat)
  | forEach (txn : Transaction) (plan : Plan) (visit : ρ → Row → ρ) (notes : ρ)
  | fold (txn : Transaction) (plan : Plan) (f : ρ → Row → ρ) (initial : ρ)

namespace Desk

variable {α : Type}

def tuple? (d : Desk) (i : Nat) : Option Tuple := d.tuples[i]?.join

def cursor? (d : Desk) (i : Nat) : Option Cursor := d.cursors[i]?.join

/-- The tuples that the client has taken, with those that its scans hold. -/
def tuplesTaken (d : Desk) : List (Option Tuple) :=
  d.tuples ++ d.scans.flatMap fun scan => scan.progress.tuples.map some

/-- The cursors that the client has taken, with those that its scans hold. -/
def cursorsTaken (d : Desk) : List (Option Cursor) :=
  d.cursors ++ d.scans.flatMap fun scan => scan.progress.cursors.map some

/-- The tuples that are neither disposed of nor let go of. -/
def liveTuples (d : Desk) : Nat := d.tuplesTaken.countP (Option.any fun tuple => !tuple.disposed)

/-- The cursors that are neither closed nor let go of. -/
def openCursors (d : Desk) : Nat := d.cursorsTaken.countP (Option.any fun c => !c.closed)

def onDatabase (m : Action Database α) (d : Desk) : Desk := { d with db := quietly m d.db }

def takeCursor (m : Action Database Cursor) (d : Desk) : Desk :=
  match m d.db with
  | (.ok c, db) => { d with db, cursors := d.cursors ++ [some c] }
  | (.error _, db) => { d with db }

def onCursor (i : Nat) (m : Action (Cursor × Database) α) (d : Desk) : Desk :=
  match d.cursor? i with
  | some c =>
    let (c, db) := quietly m (c, d.db)
    { d with db, cursors := d.cursors.set i (some c) }
  | none => d

def takeTuple (i : Nat) (m : Action (Cursor × Database) Tuple) (d : Desk) : Desk :=
  match d.cursor? i with
  | some c =>
    match m (c, d.db) with
    | (.ok tuple, c, db) => { d with db, cursors := d.cursors.set i (some c), tuples := d.tuples ++ [some tuple] }
    | (.error _, c, db) => { d with db, cursors := d.cursors.set i (some c) }
  | none => d

def onTuple (i : Nat) (m : Action (Tuple × Database) α) (d : Desk) : Desk :=
  match d.tuple? i with
  | some tuple =>
    let (tuple, db) := quietly m (tuple, d.db)
    { d with db, tuples := d.tuples.set i (some tuple) }
  | none => d

def onRow (i j : Nat) (m : Action (Tuple × Cursor × Database) α) (d : Desk) : Desk :=
  match d.cursor? i, d.tuple? j with
  | some c, some tuple =>
    let (tuple, c, db) := quietly m (tuple, c, d.db)
    { d with db, cursors := d.cursors.set i (some c), tuples := d.tuples.set j (some tuple) }
  | _, _ => d

def letGoCursor (i : Nat) (d : Desk) : Desk :=
  match d.cursor? i with
  | some c => { d with db := engine.letGoCursor c d.db, cursors := d.cursors.set i none }
  | none => d

def letGoTuple (i : Nat) (d : Desk) : Desk :=
  match d.tuple? i with
  | some tuple => { d with db := tuple.letGo engine.tupleReleased d.db, tuples := d.tuples.set i none }
  | none => d

def takeScan (m : Action Database (Scan Cursor)) (d : Desk) : Desk :=
  match m d.db with
  | (.ok scan, db) => { d with db, scans := d.scans ++ [scan] }
  | (.error _, db) => { d with db }

def onScan (i : Nat) (m : Action (Scan Cursor × Database) α) (d : Desk) : Desk :=
  match d.scans[i]? with
  | some scan =>
    let (scan, db) := quietly m (scan, d.db)
    { d with db, scans := d.scans.set i scan }
  | none => d

end Desk

namespace Handling

variable {ρ : Type}

/-- What becomes of the desk. -/
def step : Handling ρ → Desk → Desk
  | createTable schema => Desk.onDatabase (Database.createTable schema)
  | dropTable name => Desk.onDatabase (Database.dropTable name)
  | truncateTable name => Desk.onDatabase (Database.truncateTable name)
  | begin level => Desk.onDatabase (engine.begin level)
  | commit txn => Desk.onDatabase (engine.commit txn)
  | rollback txn => Desk.onDatabase (engine.rollback txn)
  | openTable txn schema => Desk.takeCursor (engine.openTable txn schema)
  | openIndex txn cursor index => fun d =>
    match d.cursor? cursor with
    | some c => d.takeCursor (engine.openIndex txn c index)
    | none => d
  | setLockMode cursor mode => Desk.onCursor cursor (engine.setLockMode mode)
  | lock cursor mode => Desk.onCursor cursor (engine.lock mode)
  | setClusterAccess cursor => Desk.onCursor cursor engine.setClusterAccess
  | searchTuple cursor key => Desk.takeTuple cursor (engine.searchTuple key)
  | readTuple cursor => Desk.takeTuple cursor engine.readTuple
  | search cursor tuple mode => Desk.onRow cursor tuple (engine.searchHeld mode)
  | readRow cursor tuple => Desk.onRow cursor tuple engine.readRow
  | insertRow cursor tuple cells => Desk.onRow cursor tuple (engine.insertRow cells)
  | updateRow cursor tuple cells => Desk.onRow cursor tuple (engine.updateRow cells)
  | deleteRow cursor => Desk.onCursor cursor engine.deleteRow
  | advance cursor direction => Desk.onCursor cursor (engine.advance direction)
  | close cursor => Desk.onCursor cursor engine.close
  | letGoCursor cursor => Desk.letGoCursor cursor
  | setValues tuple cells => Desk.onTuple tuple (Tuple.setValues cells)
  | clear tuple => Desk.onTuple tuple Tuple.clear
  | dispose tuple => Desk.onTuple tuple (Tuple.dispose engine.tupleReleased)
  | letGoTuple tuple => Desk.letGoTuple tuple
  | request txn schema asked => Desk.onDatabase (asked.perform engine txn schema)
  | openScan txn plan write => Desk.takeScan (Scan.open engine txn plan write)
  | pull scan => Desk.onScan scan (Scan.next engine)
  | visit scan txn decide => Desk.onScan scan (Use.visited engine txn decide)
  | closeScan scan => Desk.onScan scan (Scan.close engine)
  | forEach txn plan look notes => fun d => { d with db := (Scan.forEach engine txn plan look (notes, d.db)).2.2 }
  | fold txn plan f initial => Desk.onDatabase (Scan.fold engine txn plan f initial)

/-- What takes and releases nothing but what lies on the desk: anything but requests and scans. -/
def Direct : Handling ρ → Prop
  | request .. | openScan .. | pull .. | visit .. | closeScan .. | forEach .. | fold .. => False
  | _ => True

end Handling

/-- The desk after all that a client does, from an empty database on. -/
def Desk.run {ρ : Type} (handlings : List (Handling ρ)) : Desk := handlings.foldl (fun d handling => handling.step d) {}

end Memory
end RowStore

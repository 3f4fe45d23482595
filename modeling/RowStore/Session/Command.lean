import RowStore.Engine.Fault
import RowStore.Schema.Declaration
import RowStore.Session.Listing
import RowStore.Session.Predicate

/-!
# Commands

What a session can be told to do with one database.  Schemas, transactions, cursors, tuples, scans and clients go by names
that the commands choose.
-/
namespace RowStore

/-- Whom a command on rows is addressed to.  Without a transaction it is the one in which the command stands. -/
structure Call where
  transaction : Option String
  client : Option String
  definition : String
  deriving Inhabited

/-- A plan, apart from the schema of its table. -/
structure PlanText where
  index : Option String
  keyRow : Option Row
  direction : Option Direction
  mode : Option SearchMode
  continuation : Option Condition
  selection : Option Condition
  deriving Inhabited

def PlanText.toPlan (p : PlanText) (schema : TableSchema) : Plan where
  target := ⟨schema, p.index⟩
  keyRow := p.keyRow.getD .empty
  direction := p.direction.getD .asc
  mode := p.mode
  continuation := p.continuation.map Condition.holds
  selection := p.selection.map Condition.holds

/-- What to do with a tuple. -/
inductive TupleCommand
  | layout
  | columns
  | isDisposed
  | values
  | setValues (cells : List Cell)
  | clear
  | dispose
  | readBytes (ordinal : Nat)
  | readString (ordinal : Nat)
  | readInt (ordinal length : Nat) (signed : Bool)
  | decodeValue (column : Column)
  deriving Inhabited

/-- What to do with a cursor; tuples go by name. -/
inductive CursorCommand
  | setLockMode (mode : LockMode)
  | lock (mode : LockMode)
  | setClusterAccess
  | searchTuple (as : String) (key : Key)
  | readTuple (as : String)
  | search (tuple : String) (mode : SearchMode)
  | state
  | readRow (tuple : String)
  | insertRow (tuple : String) (cells : List Cell)
  | updateRow (tuple : String) (cells : List Cell)
  | deleteRow
  | advance (direction : Direction)
  | close
  | drop
  deriving Inhabited

mutual

/-- What a session can be told to do. -/
inductive Command
  | define (as : String) (declaration : Declaration)
  | createTable (definition : String)
  | dropTable (table : String)
  | truncateTable (table : String)
  | tableExists (table : String)
  | rowCount (table : String)
  | ledger
  | begin (as : String) (level : IsolationLevel)
  | commit (transaction : String)
  | rollback (transaction : String)
  | dropTransaction (transaction : String)
  | state (transaction : Option String)
  | level (transaction : Option String)
  | id (transaction : Option String)
  | events (transaction : Option String)
  | load (call : Call) (key : Row)
  | insert (call : Call) (row : Row)
  | insertMany (call : Call) (rows : List Row)
  | update (call : Call) (row : Row)
  | upsert (call : Call) (row : Row)
  | delete (call : Call) (key : Row)
  | dispatch (call : Call) (mutation : Mutation)
  | map (call : Call) (plan : PlanText)
  | mapBy (call : Call) (plan : PlanText) (script : List ScriptItem)
  | sweep (call : Call) (plan : PlanText) (cases : List Case)
  | sweepBy (call : Call) (plan : PlanText) (cases : List Case) (script : List ScriptItem)
  | forEach (call : Call) (plan : PlanText)
  | fold (call : Call) (plan : PlanText) (column : String)
  | openScan (as : String) (call : Call) (plan : PlanText) (write : Bool)
  | openTable (as : String) (call : Call)
  /-- Opens a cursor on the index of a name; without a name, on the one called like the primary index. -/
  | openIndex (as : String) (cursor : String) (call : Call) (index : Option String)
  | dump (call : Call)
  | scanNext (scan : String)
  | scanState (scan : String)
  | scanClose (scan : String)
  | scanKey (scan : String)
  | scanDrop (scan : String)
  | cursor (cursor : String) (command : CursorCommand)
  | tuple (tuple : String) (command : TupleCommand)
  | tupleDecode (tuple : String) (definition : String)
  | tupleDrop (tuple : String)
  | client (as : String) (client : Client)
  | counters (client : String)
  | inTransaction (client : String) (level : Option IsolationLevel) (steps : List Command) (continueOnError : Bool)
      (reject : Option String)
  | plant (fault : Fault)
  | clearFaults
  | listDatabase
  | listTransaction (transaction : Option String)
  | listCursor (cursor : String)
  | listClient (client : String)
  | listPlan (definition : String) (plan : PlanText)

/-- One item of the script by which a scan is read. -/
inductive ScriptItem
  | next
  | state
  | close
  | traverseAll
  | run (command : Command)

end

/-- Why a command fails. -/
inductive Failure
  | store (error : Error)
  /-- A transaction was told to fail. -/
  | rejected (message : String)
  /-- Nothing goes by a name. -/
  | unknown (name : String)
  deriving DecidableEq, Inhabited

/-- What a command answers. -/
inductive Answer
  | nothing
  | flag (b : Bool)
  | number (n : Int)
  | text (s : String)
  | value (v : Value)
  | cell (c : Cell)
  | row (r : Row)
  | mutation (m : Mutation)
  | event (e : Memory.Event)
  | list (items : List Answer)
  | fields (items : List (String × Answer))
  | outcome (result : Except Failure Answer)

instance : Inhabited Answer := ⟨.nothing⟩

namespace Answer

def cells (cs : List Cell) : Answer := .list (cs.map .cell)

def rows (rs : List Row) : Answer := .list (rs.map .row)

def optional {α : Type} (f : α → Answer) : Option α → Answer
  | some a => f a
  | none => .nothing

def ledger (l : Ledger) : Answer := .fields
  [("tuples_created", .number l.tuplesCreated), ("tuples_disposed", .number l.tuplesDisposed),
    ("live_tuples", .number l.liveTuples), ("cursors_opened", .number l.cursorsOpened),
    ("cursors_closed", .number l.cursorsClosed), ("open_cursors", .number l.openCursors)]

def counters (c : Counters) : Answer := .fields
  [("load_hits", .number c.loadHits), ("load_misses", .number c.loadMisses), ("inserts", .number c.inserts),
    ("update_hits", .number c.updateHits), ("update_misses", .number c.updateMisses),
    ("upsert_updates", .number c.upsertUpdates), ("upsert_inserts", .number c.upsertInserts),
    ("delete_hits", .number c.deleteHits), ("delete_misses", .number c.deleteMisses),
    ("primary_traversals", .number c.primaryTraversals), ("secondary_traversals", .number c.secondaryTraversals),
    ("write_traversals", .number c.writeTraversals), ("rows_visited", .number c.rowsVisited)]

end Answer
end RowStore

import RowStore.Session.Dump
import RowStore.Session.State

/-!
# Commands on single things

What the commands on tuples, cursors, rows and open scans do.
-/
namespace RowStore

/-- Does something with a tuple.  `released` takes note of its disposal. -/
def TupleCommand.run {σ : Type} (released : σ → σ) (command : TupleCommand) : Action (Tuple × σ) Answer := do
  let tuple ← Attempt.held
  match command with
  | layout => return .text (Listing.layout tuple.layout)
  | columns => return .list (tuple.columns.map fun c => .text c.name)
  | isDisposed => return .flag tuple.disposed
  | values => return .cells (← tuple.values)
  | setValues cells => Tuple.setValues cells; return .nothing
  | clear => Tuple.clear; return .nothing
  | dispose => Tuple.dispose released; return .nothing
  | readBytes ordinal => return .value (← tuple.readBytes ordinal)
  | readString ordinal => return .value (← tuple.readString ordinal)
  | readInt ordinal length signed => return .value (← tuple.readInt ordinal length signed)
  | decodeValue column => return .value (← column.decode tuple)

namespace Session

def runCursor (cursor : String) (command : CursorCommand) : Step Answer := do
  match command with
  | .setLockMode mode => withCursor cursor (engine.setLockMode mode); return .nothing
  | .lock mode => withCursor cursor (engine.lock mode); return .nothing
  | .setClusterAccess => withCursor cursor engine.setClusterAccess; return .nothing
  | .searchTuple as key => nameTuple as (← withCursor cursor (engine.searchTuple key)); return .nothing
  | .readTuple as => nameTuple as (← withCursor cursor engine.readTuple); return .nothing
  | .search tuple mode =>
    let key ← named Handles.tuples tuple
    return .flag (← withCursor cursor (engine.search key mode))
  | .state => withCursor cursor do
    let here ← Attempt.state
    return .list [.flag (engine.isPositioned here), .flag (engine.hasNext here)]
  | .readRow tuple => withRow cursor tuple do
    engine.readRow
    return .cells (← (← Attempt.held).values)
  | .insertRow tuple cells => withRow cursor tuple (engine.insertRow cells); return .nothing
  | .updateRow tuple cells => withRow cursor tuple (engine.updateRow cells); return .nothing
  | .deleteRow => withCursor cursor engine.deleteRow; return .nothing
  | .advance direction => withCursor cursor (engine.advance direction); return .nothing
  | .close => withCursor cursor engine.close; return .nothing
  | .drop =>
    let c ← unname Handles.cursors setCursors cursor
    modifyStore (engine.letGoCursor c)
    return .nothing

def scanFields (scan : Scan Memory.Cursor) : List (String × Answer) :=
  [("state", .text (Listing.scanState scan.state)), ("has_next", .flag scan.hasNext)]

/-- Inserts rows up to the first that fails, and counts them. -/
def insertMany (insert : Row → Step Unit) (rows : List Row) : Step Answer := do
  rows.forM insert
  return .number rows.length

/-! ## Open scans -/

/-- No session visits more rows than this in one command. -/
def visitLimit : Nat := 1 <<< 40

/-- How an open scan is read: the client that counts the rows, and how a row is answered for. -/
structure Reading where
  client : Option Nat
  /-- Pulls without a client.  The notes are the rows that have been visited. -/
  plain : Action (List Row × Scan Memory.Cursor × Store) (Option Answer)
  counted : Action ((Client × List Row) × Scan Memory.Cursor × Store) (Option Answer)

/-- A step while a scan is open; it keeps the rows that have been visited. -/
abbrev OpenStep (α : Type) : Type := Attempt Failure (List Row × Scan Memory.Cursor × Session) α

namespace Reading

def rows (client : Option Nat) : Reading :=
  let f (row : Row) (seen : List Row) : Answer × List Row := (.row row, seen ++ [row])
  ⟨client, Scan.nextMapped engine f, Scan.nextMapped engine (Client.visiting f)⟩

def mutations (client : Option Nat) (txn : Memory.Transaction) (cases : List Case) : Reading :=
  let f (row : Row) (seen : List Row) : Mutation × List Row := (Case.decide cases row, seen ++ [row])
  ⟨client, (return (← Sweep.next engine txn f).map .mutation),
    (return (← Sweep.next engine txn (Client.visiting f)).map .mutation)⟩

def pull (reading : Reading) : OpenStep (Option Answer) := fun (seen, scan, h, s) =>
  match reading.client with
  | none =>
    let (r, (seen, scan, s)) := reading.plain (seen, scan, s)
    (r.mapError .store, (seen, scan, h, s))
  | some number =>
    let (r, ((c, seen), scan, s)) := reading.counted ((Session.client number h, seen), scan, s)
    (r.mapError .store, (seen, scan, { h with clients := h.clients.insert number c }, s))

def pullAll (reading : Reading) : OpenStep (List Answer) := Attempt.exhaust reading.pull visitLimit

end Reading

def closeScan : OpenStep Unit := fun (seen, scan, h, s) =>
  let (r, (scan, s)) := Scan.close engine (scan, s)
  (r.mapError .store, (seen, scan, h, s))

def scanStateAnswer : OpenStep Answer := fun (seen, scan, rest) =>
  (.ok (.text (Listing.scanState scan.state)), (seen, scan, rest))

def openScan (txn : Memory.Transaction) (plan : Plan) (call : Call) (write : Bool) : Step (Scan Memory.Cursor) :=
  viaClient call (Scan.open engine txn plan write) (Client.openScan engine txn plan write)

/-- Runs `body` on a scan of its own and answers what it answers and the rows that were visited. -/
def whileOpen (scan : Step (Scan Memory.Cursor)) (body : OpenStep (List Answer)) : Step Answer := do
  let scan ← scan
  fun session =>
    let (r, (seen, scan, h, s)) := body ([], scan, session)
    (r.map fun out => .fields [("out", .list out), ("seen", .rows seen)], (h, scan.letGo engine s))

end Session
end RowStore

import RowStore.Session.Basic

/-!
# Running commands

Runs one command after the other.  A command that fails has no answer but what it did stays done, and the session goes on.
Commands inside a script or a transaction stand in an enclosing transaction.
-/
namespace RowStore
namespace Session
variable {α : Type}

/-- Visits every row of a plan and answers how that ended, with the rows that were visited. -/
def forEach (txn : Memory.Transaction) (plan : Plan) (call : Call) : Step Answer := do
  let visit (seen : List Row) (row : Row) : List Row := seen ++ [row]
  let (result, seen) ← (do
    match ← callClient call with
    | none => fun (h, s) =>
      let (r, (seen, s)) := Scan.forEach engine txn plan visit ([], s)
      (.ok (r, seen), (h, s))
    | some number => fun (h, s) =>
      let (r, ((c, seen), s)) := Client.forEach engine txn plan visit ((client number h, []), s)
      (.ok (r, seen), ({ h with clients := h.clients.insert number c }, s)) : Step (Except Error Unit × List Row))
  let out := (result.map fun _ => Answer.nothing).mapError Failure.store
  return .fields [("out", .outcome out), ("seen", .rows seen)]

/-- Counts the rows of a plan and sums the integers of a column. -/
def fold (txn : Memory.Transaction) (plan : Plan) (call : Call) (column : String) : Step Answer := do
  let add (acc : Nat × Int) (row : Row) : Nat × Int :=
    (acc.1 + 1, acc.2 + ((row.value column).asInt64.map Int64.toInt).getD 0)
  let (count, sum) ← viaClient call (Scan.fold engine txn plan add (0, 0)) (Client.fold engine txn plan add (0, 0))
  return .fields [("count", .number count), ("sum", .text (toString sum))]

/-- Opens a cursor on an index of a schema, the primary one unless a secondary one is named, beside a cursor that is open
already. -/
def openIndex (as cursor : String) (txn : Memory.Transaction) (schema : TableSchema) (index : Option String) :
    Step Answer := do
  let c ← named Handles.cursors cursor
  let index ← (match index with
    | none => return schema.primary
    | some name =>
      match schema.secondary? name with
      | some index => return index
      | none => Attempt.fail (.unknown name) : Step Index)
  nameCursor as (← onStore (engine.openIndex txn c index))
  return .nothing

/-- Runs a command on the way of which no other command stands. -/
def runPlain (enclosing : Option Memory.Transaction) : Command → Step Answer
  | .define as declaration => do
    let schema ← Attempt.ofExcept (declaration.build.mapError .store)
    modifyHandles fun h => { h with definitions := h.definitions.insert as schema }
    return .nothing
  | .createTable definition => do
    onDatabase (Memory.Database.createTable (← named Handles.definitions definition))
    return .nothing
  | .dropTable table => do onDatabase (Memory.Database.dropTable table); return .nothing
  | .truncateTable table => do onDatabase (Memory.Database.truncateTable table); return .nothing
  | .tableExists table => return .flag ((← database).tableExists table)
  | .rowCount table => do
    let count ← Attempt.ofExcept (((← database).rowCount table).mapError .store)
    return .number count
  | .ledger => return .ledger (← database).ledger
  | .begin as level => do nameTransaction as (← onStore (engine.begin level)); return .nothing
  | .commit name => do
    onStore (engine.commit (← unname Handles.transactions setTransactions name))
    return .nothing
  | .rollback name => do
    onStore (engine.rollback (← unname Handles.transactions setTransactions name))
    return .nothing
  | .dropTransaction name => do
    modifyStore (abandon (← unname Handles.transactions setTransactions name))
    return .nothing
  | .state name => do
    let txn ← transaction enclosing name
    return .text (Listing.transactionState ((← database).workspace txn.id).state)
  | .level name => return .text (Listing.isolation (← transaction enclosing name).level)
  | .id name => return .number (← transaction enclosing name).id
  | .events name => do
    let txn ← transaction enclosing name
    return .list (((← database).workspace txn.id).events.map .event)
  | .load call key => do
    let (txn, schema) ← addressed enclosing call
    return .optional .row (← viaClient call (ByKey.load engine txn schema key) (Client.load engine txn schema key))
  | .insert call row => do
    let (txn, schema) ← addressed enclosing call
    viaClient call (ByKey.insert engine txn schema row) (Client.insert engine txn schema row)
    return .nothing
  | .insertMany call rows => do
    let (txn, schema) ← addressed enclosing call
    insertMany (fun row => viaClient call (ByKey.insert engine txn schema row) (Client.insert engine txn schema row)) rows
  | .update call row => do
    let (txn, schema) ← addressed enclosing call
    return .flag (← viaClient call (ByKey.update engine txn schema row) (Client.update engine txn schema row))
  | .upsert call row => do
    let (txn, schema) ← addressed enclosing call
    return .flag
      (← viaClient call (ByKey.insertOrUpdate engine txn schema row) (Client.insertOrUpdate engine txn schema row))
  | .delete call key => do
    let (txn, schema) ← addressed enclosing call
    return .flag (← viaClient call (ByKey.delete engine txn schema key) (Client.delete engine txn schema key))
  | .dispatch call mutation => do
    let (txn, schema) ← addressed enclosing call
    return .flag (← onStore (mutation.dispatch engine txn schema))
  | .map call plan => do
    let (txn, schema) ← addressed enclosing call
    let reading := Reading.rows (← callClient call)
    whileOpen (openScan txn (plan.toPlan schema) call false) (reading.pullAll)
  | .sweep call plan cases => do
    let (txn, schema) ← addressed enclosing call
    let reading := Reading.mutations (← callClient call) txn cases
    whileOpen (openScan txn (plan.toPlan schema) call true) (reading.pullAll)
  | .forEach call plan => do
    let (txn, schema) ← addressed enclosing call
    forEach txn (plan.toPlan schema) call
  | .fold call plan column => do
    let (txn, schema) ← addressed enclosing call
    fold txn (plan.toPlan schema) call column
  | .openScan as call plan write => do
    let (txn, schema) ← addressed enclosing call
    let scan ← onStore (Scan.open engine txn (plan.toPlan schema) write)
    nameScan as scan
    return .fields (scanFields scan)
  | .openTable as call => do
    let (txn, schema) ← addressed enclosing call
    nameCursor as (← onStore (engine.openTable txn schema))
    return .nothing
  | .openIndex as cursor call index => do
    let (txn, schema) ← addressed enclosing call
    openIndex as cursor txn schema index
  | .dump call => do
    let (txn, schema) ← addressed enclosing call
    let indexes ← onDatabase (Dump.table Memory.engine txn schema)
    return .fields (indexes.map fun (name, entries) => (name, .list (entries.map .cells)))
  | .scanNext name => do
    let row ← withScan name (Scan.next engine)
    let scan ← named Handles.scans name
    return .fields (scanFields scan ++ [("row", .optional .row row)])
  | .scanState name => return .fields (scanFields (← named Handles.scans name))
  | .scanClose name => do withScan name (Scan.close engine); return .nothing
  | .scanKey name => return .row (← named Handles.scans name).plan.keyRow
  | .scanDrop name => do
    let scan ← unname Handles.scans setScans name
    modifyStore (scan.letGo engine)
    return .nothing
  | .cursor name command => runCursor name command
  | .tuple name command => withTuple name (command.run engine.tupleReleased)
  | .tupleDecode name definition => do
    let schema ← named Handles.definitions definition
    let row ← Attempt.ofExcept ((schema.decodeRow (← named Handles.tuples name)).mapError .store)
    return .row row
  | .tupleDrop name => do
    let tuple ← unname Handles.tuples setTuples name
    modifyStore (tuple.letGo engine.tupleReleased)
    return .nothing
  | .client as c => do
    nameClient as c
    return .fields
      [("isolation", .text (Listing.isolation c.options.isolation)), ("mode", .text (Listing.searchMode c.options.defaultMode))]
  | .counters name => do
    let c := client (← named Handles.clientNumbers name) (← handles)
    return .counters (c.counters.getD {})
  | .plant fault => do modifyStore fun (faults, db) => (faults ++ [fault], db); return .nothing
  | .clearFaults => do modifyStore fun (_, db) => ([], db); return .nothing
  | .listDatabase => return .text (Listing.database (← database))
  | .listTransaction name => do
    let txn ← transaction enclosing name
    return .text (Listing.transaction (← database) txn)
  | .listCursor name => return .text (Listing.cursor (← named Handles.cursors name))
  | .listClient name => do
    let c := client (← named Handles.clientNumbers name) (← handles)
    return .text (Listing.client (← database) c)
  | .listPlan definition plan => return .text (Listing.plan (plan.toPlan (← named Handles.definitions definition)))
  | .mapBy .. | .sweepBy .. | .inTransaction .. => return .nothing

def wrapped (step : OpenStep Answer) : OpenStep Answer := do return .outcome (← Attempt.outcome step)

def inBetween (step : Step α) : OpenStep α := fun (seen, scan, session) =>
  let (r, session) := step session
  (r, (seen, scan, session))

def pullItem (reading : Reading) : OpenStep Answer := fun state =>
  match reading.pull state with
  | (.ok none, state) => (.ok .nothing, state)
  | (.ok (some a), state) => (.ok (.outcome (.ok a)), state)
  | (.error e, state) => (.ok (.outcome (.error e)), state)

def traverseAll (reading : Reading) : OpenStep Answer := do
  let _ ← reading.pullAll
  closeScan
  return .nothing

/-- What the steps of a transaction have answered so far, with the session. -/
abbrev Answered : Type := (List (Except Failure Answer) × Handles) × Store

/-- Runs a step inside a transaction and keeps how it ended. -/
def keeping (step : Step Answer) : Attempt Failure Answered (Except Failure Answer) := fun ((results, h), s) =>
  let (r, (h, s)) := step (h, s)
  (.ok r, ((results ++ [r], h), s))

mutual

def run (enclosing : Option Memory.Transaction) : Command → Step Answer
  | .mapBy call plan script => do
    let (txn, schema) ← addressed enclosing call
    let reading := Reading.rows (← callClient call)
    whileOpen (openScan txn (plan.toPlan schema) call false) (runScript txn reading script)
  | .sweepBy call plan cases script => do
    let (txn, schema) ← addressed enclosing call
    let reading := Reading.mutations (← callClient call) txn cases
    whileOpen (openScan txn (plan.toPlan schema) call true) (runScript txn reading script)
  | .inTransaction name level steps continueOnError reject => do
    let c := client (← named Handles.clientNumbers name) (← handles)
    let body (txn : Memory.Transaction) : Attempt Failure Answered Answer := do
      runSteps txn continueOnError steps
      match reject with
      | some message => Attempt.fail (.rejected message)
      | none => return .number steps.length
    fun (h, s) =>
      let (outcome, ((results, h), s)) :=
        Client.inTransaction engine (level.getD c.options.isolation) Failure.store body (([], h), s)
      (.ok (.fields [("outcome", .outcome outcome), ("results", .list (results.map .outcome))]), (h, s))
  | command => runPlain enclosing command

def runScript (txn : Memory.Transaction) (reading : Reading) : List ScriptItem → OpenStep (List Answer)
  | [] => return []
  | .next :: rest => do return (← pullItem reading) :: (← runScript txn reading rest)
  | .state :: rest => do return (← scanStateAnswer) :: (← runScript txn reading rest)
  | .close :: rest => do
    return (← wrapped (do closeScan; return .nothing)) :: (← runScript txn reading rest)
  | .traverseAll :: _ => return [← wrapped (traverseAll reading)]
  | .run command :: rest => do
    return (← wrapped (inBetween (run (some txn) command))) :: (← runScript txn reading rest)

/-- Runs the steps of a transaction, up to the first that fails unless told to go on. -/
def runSteps (txn : Memory.Transaction) (continueOnError : Bool) : List Command → Attempt Failure Answered Unit
  | [] => return ()
  | command :: rest => do
    match ← keeping (run (some txn) command) with
    | .ok _ => runSteps txn continueOnError rest
    | .error e => if continueOnError then runSteps txn continueOnError rest else Attempt.fail e

end

def runAll (commands : List Command) : List (Except Failure Answer) × Session :=
  commands.foldl
    (fun (results, session) command =>
      let (r, session) := run none command session
      (results ++ [r], session))
    ([], Session.start)

end Session
end RowStore

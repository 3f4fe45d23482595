import RowStore.Session.Command

/-!
# The state of a session

A session works on the engine in memory with planned faults in front of it, and keeps by name what commands have made.
An object that takes a name over is made first; then the one that had the name before is let go of.
-/
namespace RowStore

/-- The state of the engine that a session works on. -/
abbrev Store : Type := Faults × Memory.Database

/-- Things by name. -/
abbrev Names (α : Type) : Type := OrderedMap String α

/-- What commands have made. -/
structure Handles where
  definitions : Names TableSchema := .empty
  transactions : Names Memory.Transaction := .empty
  cursors : Names Memory.Cursor := .empty
  tuples : Names Tuple := .empty
  scans : Names (Scan Memory.Cursor) := .empty
  /-- The number of the client that goes by a name. -/
  clientNumbers : Names Nat := .empty
  /-- All clients; scans may still count for one whose name is gone. -/
  clients : OrderedMap Nat Client := .empty
  deriving Inhabited

/-- The state of a session. -/
abbrev Session : Type := Handles × Store

def Session.start : Session := ({}, [], {})

/-- A step of a session. -/
abbrev Step (α : Type) : Type := Attempt Failure Session α

namespace Session

def engine : Engine Store Memory.Transaction Memory.Cursor :=
  Memory.engine.withFaults fun txn db => db.abandon txn.id

variable {α β ρ : Type}

def onStore (a : Action Store α) : Step α := Attempt.below (a.mapError .store)

def onDatabase (a : Action Memory.Database α) : Step α := onStore (Attempt.below a)

def handles : Step Handles := Attempt.held

def database : Step Memory.Database := fun (h, f, db) => (.ok db, (h, f, db))

def modifyHandles (f : Handles → Handles) : Step Unit := Attempt.modify fun (h, s) => (f h, s)

def modifyStore (f : Store → Store) : Step Unit := Attempt.modify fun (h, s) => (h, f s)

def named (names : Handles → Names α) (name : String) : Step α := do
  match (names (← handles)).get? name with
  | some a => return a
  | none => Attempt.fail (.unknown name)

/-- Gives a name to something new, and lets go of what had it. -/
def rename (names : Handles → Names α) (set : Names α → Handles → Handles) (letGo : α → Store → Store) (name : String)
    (new : α) : Step Unit := do
  let old := (names (← handles)).get? name
  modifyHandles fun h => set ((names h).insert name new) h
  if let some old := old then modifyStore (letGo old)

def unname (names : Handles → Names α) (set : Names α → Handles → Handles) (name : String) : Step α := do
  let a ← named names name
  modifyHandles fun h => set ((names h).erase name) h
  return a

def setTransactions (names : Names Memory.Transaction) (h : Handles) : Handles := { h with transactions := names }

def setCursors (names : Names Memory.Cursor) (h : Handles) : Handles := { h with cursors := names }

def setTuples (names : Names Tuple) (h : Handles) : Handles := { h with tuples := names }

def setScans (names : Names (Scan Memory.Cursor)) (h : Handles) : Handles := { h with scans := names }

def abandon (txn : Memory.Transaction) : Store → Store := fun (f, db) => (f, db.abandon txn.id)

def nameTransaction (name : String) (txn : Memory.Transaction) : Step Unit :=
  rename Handles.transactions setTransactions abandon name txn

def nameCursor (name : String) (cursor : Memory.Cursor) : Step Unit :=
  rename Handles.cursors setCursors engine.letGoCursor name cursor

def nameTuple (name : String) (tuple : Tuple) : Step Unit :=
  rename Handles.tuples setTuples (Tuple.letGo engine.tupleReleased) name tuple

def nameScan (name : String) (scan : Scan Memory.Cursor) : Step Unit :=
  rename Handles.scans setScans (Scan.letGo engine) name scan

def nameClient (name : String) (client : Client) : Step Unit :=
  modifyHandles fun h =>
    let number := h.clients.size
    { h with clientNumbers := h.clientNumbers.insert name number, clients := h.clients.insert number client }

/-! ## Working on what goes by a name -/

/-- Works on something that goes by a name, together with the engine.  What the work leaves keeps the name. -/
def withNamed (names : Handles → Names α) (set : Names α → Handles → Handles) (name : String)
    (work : Action (α × Store) β) : Step β := do
  let a ← named names name
  fun (h, s) =>
    match work (a, s) with
    | (.ok b, (a, s)) => (.ok b, (set ((names h).insert name a) h, s))
    | (.error e, (a, s)) => (.error (.store e), (set ((names h).insert name a) h, s))

def withCursor (name : String) (work : Action (Memory.Cursor × Store) β) : Step β :=
  withNamed Handles.cursors setCursors name work

def withTuple (name : String) (work : Action (Tuple × Store) β) : Step β :=
  withNamed Handles.tuples setTuples name work

def withScan (name : String) (work : Action (Scan Memory.Cursor × Store) β) : Step β :=
  withNamed Handles.scans setScans name work

def withRow (cursor tuple : String) (work : Action (Tuple × Memory.Cursor × Store) β) : Step β := do
  let c ← named Handles.cursors cursor
  let t ← named Handles.tuples tuple
  fun (h, s) =>
    match work (t, c, s) with
    | (r, (t, c, s)) =>
      let h := { h with cursors := h.cursors.insert cursor c, tuples := h.tuples.insert tuple t }
      (r.mapError .store, (h, s))

def client (number : Nat) (h : Handles) : Client := (h.clients.get? number).getD {}

def withClient (number : Nat) (work : Action (Client × Store) β) : Step β := fun (h, s) =>
  let (r, (c, s)) := work (client number h, s)
  (r.mapError .store, ({ h with clients := h.clients.insert number c }, s))

/-- The number of the client that a call names, if it names one. -/
def callClient (call : Call) : Step (Option Nat) := do
  match call.client with
  | none => return none
  | some name => return some (← named Handles.clientNumbers name)

/-- Runs a call through the client it names, or without one. -/
def viaClient (call : Call) (plain : Action Store β) (counted : Action (Client × Store) β) : Step β := do
  match ← callClient call with
  | none => onStore plain
  | some number => withClient number counted

def transaction (enclosing : Option Memory.Transaction) (name : Option String) : Step Memory.Transaction := do
  match name with
  | some name => named Handles.transactions name
  | none =>
    match enclosing with
    | some txn => return txn
    | none => Attempt.fail (.unknown "")

def addressed (enclosing : Option Memory.Transaction) (call : Call) : Step (Memory.Transaction × TableSchema) := do
  let txn ← transaction enclosing call.transaction
  let schema ← named Handles.definitions call.definition
  return (txn, schema)

end Session
end RowStore

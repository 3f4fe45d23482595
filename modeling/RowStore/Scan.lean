import RowStore.Codec.Record
import RowStore.Scan.Plan

/-!
# Scans

A scan hands out the rows of an index one by one.  It is always one row ahead: the next row has been read, and the cursor
has moved past it, before the caller asks.  So whatever the caller does with a row it has been given cannot move the scan.
A scan is running and then holds a read tuple and its cursors, or it is closed and holds nothing; the end of the index, a
row that fails the continuation and any error close it.
-/
namespace RowStore

/-- The cursors of a scan: one on the table, and one on the secondary index if it walks one. -/
structure Cursors (κ : Type) where
  table : κ
  index : Option κ

/-- What a running scan holds. -/
structure Holdings (κ : Type) where
  tuple : Tuple
  cursors : Cursors κ

/-- How far a scan is. -/
inductive Progress (κ : Type)
  /-- `next` has been read and not been asked for yet. -/
  | running (held : Holdings κ) (next : Row)
  | closed

/-- A scan. -/
structure Scan (κ : Type) where
  plan : Plan
  progress : Progress κ

/-- What a caller sees of a scan's progress. -/
inductive ScanState
  | iterating
  | closed
  deriving DecidableEq, Inhabited

namespace Cursors
variable {σ τ κ α : Type} (E : Engine σ τ κ)

/-- Runs a call on the cursor that rows are read through. -/
def onActive (call : Action (κ × σ) α) : Action (Cursors κ × σ) α := fun (cursors, s) =>
  match cursors.index with
  | some index =>
    let (r, (index, s)) := call (index, s)
    (r, ({ cursors with index := some index }, s))
  | none =>
    let (r, (table, s)) := call (cursors.table, s)
    (r, ({ cursors with table }, s))

def letGo (cursors : Cursors κ) (s : σ) : σ :=
  let s := E.letGoCursor cursors.table s
  match cursors.index with
  | some index => E.letGoCursor index s
  | none => s

/-- Closes the index cursor, then the table cursor.  Both are tried, the first failure is the answer, and what could not
be closed is let go of. -/
def close (cursors : Cursors κ) : Action σ Unit := fun s =>
  match cursors.index with
  | some index =>
    let (indexClosed, (index, s)) := E.close (index, s)
    let (tableClosed, (table, s)) := E.close (cursors.table, s)
    (indexClosed *> tableClosed, letGo E { table, index := some index } s)
  | none =>
    let (tableClosed, (table, s)) := E.close (cursors.table, s)
    (tableClosed, letGo E { table, index := none } s)

end Cursors

namespace Holdings
variable {σ τ κ α : Type} (E : Engine σ τ κ)

/-- Runs a call on the tuple and the cursor that rows are read through. -/
def onActive (call : Action (Tuple × κ × σ) α) : Action (Holdings κ × σ) α := fun (held, s) =>
  match held.cursors.index with
  | some index =>
    let (r, (tuple, index, s)) := call (held.tuple, index, s)
    (r, ({ held with tuple, cursors.index := some index }, s))
  | none =>
    let (r, (tuple, table, s)) := call (held.tuple, held.cursors.table, s)
    (r, ({ held with tuple, cursors.table := table }, s))

/-- Disposes of the tuple and closes the cursors.  All is tried, the first failure is the answer. -/
def close (held : Holdings κ) : Action σ Unit := fun s =>
  let (disposed, (_, s)) := Tuple.dispose E.tupleReleased (held.tuple, s)
  let (closed, s) := held.cursors.close E s
  (disposed *> closed, s)

end Holdings

namespace Scan
variable {σ τ κ α : Type} (E : Engine σ τ κ)

/-! ## Opening -/

/-- Opens the cursor on the secondary index, if there is one to walk, and makes it read whole rows. -/
def openIndexCursor (txn : τ) (index : Option Index) : Action (κ × σ) (Option κ) := fun (table, s) =>
  match index with
  | none => (.ok none, (table, s))
  | some index =>
    match E.openIndex txn table index s with
    | (.error e, s) => (.error e, (table, s))
    | (.ok cursor, s) =>
      match E.setClusterAccess (cursor, s) with
      | (.ok (), (cursor, s)) => (.ok (some cursor), (table, s))
      | (.error e, (cursor, s)) => (.error e, (table, E.letGoCursor cursor s))

/-- Locks if rows are to be written, positions the cursor, and makes the read tuple. -/
def start (plan : Plan) (key : Key) (write : Bool) : Action (κ × σ) Tuple := do
  if write then E.lockForWrite
  let _ ← E.position key plan.searchMode
  E.readTuple

/-- Opens and positions the cursors of a scan.  A failure releases what had been opened. -/
def take (txn : τ) (plan : Plan) (write : Bool) : Action σ (Holdings κ) := do
  let index ← plan.target.secondaryIndex
  let key ← encodeLeading (← plan.target.keyColumns) plan.keyRow
  let table ← E.openTable txn plan.target.schema
  fun s =>
    match openIndexCursor E txn index (table, s) with
    | (.error e, (table, s)) => (.error e, Attempt.quietly (Cursors.close E ⟨table, none⟩) s)
    | (.ok index, (table, s)) =>
      match Cursors.onActive (start E plan key write) (⟨table, index⟩, s) with
      | (.error e, (cursors, s)) => (.error e, Attempt.quietly (cursors.close E) s)
      | (.ok tuple, (cursors, s)) => (.ok ⟨tuple, cursors⟩, s)

/-! ## Reading ahead -/

/-- Reads up to the next row to hand out and moves past it; nothing is answered at the end of the index and at a row
that fails the continuation.  No walk meets more entries than `fuel` has been chosen for. -/
def readOn (plan : Plan) : Nat → Action (Tuple × κ × σ) (Option Row)
  | 0 => return none
  | fuel + 1 => do
    let (_, here) ← Attempt.state
    if !(E.isPositioned here && E.hasNext here) then return none
    E.readRow
    let row ← plan.target.schema.decodeRow (← Attempt.held)
    Tuple.clear
    if !plan.continues row then return none
    let selected := plan.selects row
    E.advance plan.direction
    if selected then return some row
    readOn plan fuel

/-- Reads ahead by one row.  The scan is closed where there is none, and where reading fails. -/
def readAhead (plan : Plan) (held : Holdings κ) : Action σ (Progress κ) := fun s =>
  let walk : Action (Tuple × κ × σ) (Option Row) := fun (tuple, here) =>
    readOn E plan (E.entryBound here + 1) (tuple, here)
  match Holdings.onActive walk (held, s) with
  | (.ok (some row), (held, s)) => (.ok (.running held row), s)
  | (.ok none, (held, s)) =>
    match held.close E s with
    | (.ok (), s) => (.ok .closed, s)
    | (.error e, s) => (.error e, s)
  | (.error e, (held, s)) => (.error e, Attempt.quietly (held.close E) s)

/-- Opens a scan and reads its first row.  With `write` the reading cursor is locked exclusively before it is
positioned. -/
def «open» (txn : τ) (plan : Plan) (write : Bool) : Action σ (Scan κ) := do
  let held ← take E txn plan write
  let progress ← readAhead E plan held
  return ⟨plan, progress⟩

/-! ## Using a scan -/

def state (scan : Scan κ) : ScanState :=
  match scan.progress with
  | .running .. => .iterating
  | .closed => .closed

def hasNext (scan : Scan κ) : Bool := scan.state == .iterating

/-- Hands out the row that was read ahead and reads the next one.  If that fails the error takes the row's place. -/
def next : Action (Scan κ × σ) (Option Row) := fun (scan, s) =>
  match scan.progress with
  | .closed => (.ok none, (scan, s))
  | .running held row =>
    match readAhead E scan.plan held s with
    | (.ok progress, s) => (.ok (some row), ({ scan with progress }, s))
    | (.error e, s) => (.error e, ({ scan with progress := .closed }, s))

/-- Releases all that the scan holds; a closed scan holds nothing. -/
def close : Action (Scan κ × σ) Unit := fun (scan, s) =>
  match scan.progress with
  | .closed => (.ok (), (scan, s))
  | .running held _ =>
    let (r, s) := held.close E s
    (r, ({ scan with progress := .closed }, s))

def letGo (scan : Scan κ) (s : σ) : σ := (close E (scan, s)).2.2

/-- No fewer rows than a scan can hand out while nobody writes. -/
def rowBound (scan : Scan κ) (s : σ) : Nat :=
  match scan.progress with
  | .closed => 0
  | .running held _ => E.entryBound (held.cursors.index.getD held.cursors.table, s) + 1

end Scan
end RowStore

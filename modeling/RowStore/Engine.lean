import RowStore.Tuple

/-!
# Engines

What the layers above need of a storage engine.  An engine has transactions, opens cursors on the clustered index of a
table or on a secondary index, positions them with a key and a comparison, and moves rows in and out through tuples.
Any call may fail.  `Engine σ τ κ` is the record of these calls, for an engine with state `σ`, transactions `τ` and
cursors `κ`; a call on a cursor runs on the cursor together with the engine's state, one that moves a row on the tuple
as well.
-/
namespace RowStore

inductive LockMode
  | intentionShared
  | intentionExclusive
  | shared
  | exclusive
  | notUsed
  | none
  deriving DecidableEq, Inhabited

/-- Where a search puts a cursor, compared with the leading cells of the entries. -/
inductive SearchMode
  /-- At the first entry after the key. -/
  | greater
  /-- At the first entry at or after the key. -/
  | greaterOrEqual
  /-- At the last entry before the key. -/
  | less
  /-- At the last entry at or before the key. -/
  | lessOrEqual
  deriving DecidableEq, Inhabited

inductive Direction
  | asc
  | desc
  deriving DecidableEq, Inhabited

inductive IsolationLevel
  | readUncommitted
  | readCommitted
  | repeatableRead
  | serializable
  deriving DecidableEq, Inhabited

inductive TransactionState
  | notStarted
  | active
  | committed
  | rolledBack
  deriving DecidableEq, Inhabited

/-- The calls of a storage engine. -/
structure Engine (σ τ κ : Type) where
  begin : IsolationLevel → Action σ τ
  /-- Ends a transaction and publishes its writes.  The transaction is over even if this fails. -/
  commit : τ → Action σ Unit
  /-- Ends a transaction and discards its writes.  The transaction is over even if this fails. -/
  rollback : τ → Action σ Unit
  openTable : τ → TableSchema → Action σ κ
  /-- Opens a cursor on a secondary index of the table that another cursor is open on. -/
  openIndex : τ → κ → Index → Action σ κ
  setLockMode : LockMode → Action (κ × σ) Unit
  lock : LockMode → Action (κ × σ) Unit
  /-- Makes a cursor on a secondary index read whole rows of the table. -/
  setClusterAccess : Action (κ × σ) Unit
  /-- Makes a tuple that holds the leading cells of a key. -/
  searchTuple : Key → Action (κ × σ) Tuple
  readTuple : Action (κ × σ) Tuple
  /-- Positions the cursor by the key in a tuple, and tells whether there was an entry. -/
  search : Tuple → SearchMode → Action (κ × σ) Bool
  /-- Whether the last search found an entry. -/
  isPositioned : κ × σ → Bool
  /-- Whether the cursor rests on an entry. -/
  hasNext : κ × σ → Bool
  readRow : Action (Tuple × κ × σ) Unit
  /-- Inserts a whole row, staged in the tuple. -/
  insertRow : List Cell → Action (Tuple × κ × σ) Unit
  /-- Replaces the row under the cursor by a whole row, staged in the tuple. -/
  updateRow : List Cell → Action (Tuple × κ × σ) Unit
  deleteRow : Action (κ × σ) Unit
  advance : Direction → Action (κ × σ) Unit
  /-- Releases the cursor; to release it again does nothing. -/
  close : Action (κ × σ) Unit
  /-- Lets go of a cursor, which releases it unless that has been done.  This cannot fail. -/
  letGoCursor : κ → σ → σ
  tupleReleased : σ → σ
  /-- No fewer entries than the cursor's index has: a walk in one direction meets no more of them. -/
  entryBound : κ × σ → Nat

namespace Engine
variable {σ τ κ : Type} (E : Engine σ τ κ)

def disposeTuple : Action (Tuple × κ × σ) Unit := Tuple.dispose fun (c, s) => (c, E.tupleReleased s)

def letGoTuple (tuple : Tuple) : κ × σ → κ × σ := fun (c, s) => (c, Tuple.letGo E.tupleReleased tuple s)

def searchHeld (mode : SearchMode) : Action (Tuple × κ × σ) Bool := do
  let tuple ← Attempt.held
  E.search tuple mode

/-- Announces exclusive row locks, then locks the table exclusively. -/
def lockForWrite : Action (κ × σ) Unit := do
  E.setLockMode .intentionExclusive
  E.lock .exclusive

/-- Positions the cursor by a key.  The key's tuple is disposed of before the search's own error shows. -/
def position (key : Key) (mode : SearchMode) : Action (κ × σ) Bool :=
  Attempt.holding (E.searchTuple key) E.letGoTuple do
    let found ← Attempt.outcome (E.searchHeld mode)
    E.disposeTuple
    Attempt.ofExcept found

end Engine
end RowStore

/-!
# The ledger

Tuples and cursors are counted when they are made and when they are released.  After all work is done the two counts
agree, unless something was left behind.
-/
namespace RowStore

/-- How many tuples and cursors were made and released. -/
structure Ledger where
  tuplesCreated : Nat := 0
  tuplesDisposed : Nat := 0
  cursorsOpened : Nat := 0
  cursorsClosed : Nat := 0
  deriving DecidableEq, Inhabited

namespace Ledger

def tupleCreated (l : Ledger) : Ledger := { l with tuplesCreated := l.tuplesCreated + 1 }

def tupleDisposed (l : Ledger) : Ledger := { l with tuplesDisposed := l.tuplesDisposed + 1 }

def cursorOpened (l : Ledger) : Ledger := { l with cursorsOpened := l.cursorsOpened + 1 }

def cursorClosed (l : Ledger) : Ledger := { l with cursorsClosed := l.cursorsClosed + 1 }

def liveTuples (l : Ledger) : Nat := l.tuplesCreated - l.tuplesDisposed

def openCursors (l : Ledger) : Nat := l.cursorsOpened - l.cursorsClosed

end Ledger
end RowStore

/-!
# Counters

What a client did, counted by kind and outcome.
-/
namespace RowStore

/-- The counts of a client's calls. -/
structure Counters where
  loadHits : Nat := 0
  loadMisses : Nat := 0
  inserts : Nat := 0
  updateHits : Nat := 0
  updateMisses : Nat := 0
  upsertUpdates : Nat := 0
  upsertInserts : Nat := 0
  deleteHits : Nat := 0
  deleteMisses : Nat := 0
  primaryTraversals : Nat := 0
  secondaryTraversals : Nat := 0
  writeTraversals : Nat := 0
  rowsVisited : Nat := 0
  deriving DecidableEq, Inhabited

/-- Something that is counted. -/
inductive Occurrence
  | loaded (hit : Bool)
  | inserted
  | updated (hit : Bool)
  | upserted (updated : Bool)
  | deleted (hit : Bool)
  | traversal (secondary write : Bool)
  /-- A row was handed to the caller's function. -/
  | visited
  deriving DecidableEq

namespace Counters

def count (c : Counters) : Occurrence → Counters
  | .loaded true => { c with loadHits := c.loadHits + 1 }
  | .loaded false => { c with loadMisses := c.loadMisses + 1 }
  | .inserted => { c with inserts := c.inserts + 1 }
  | .updated true => { c with updateHits := c.updateHits + 1 }
  | .updated false => { c with updateMisses := c.updateMisses + 1 }
  | .upserted true => { c with upsertUpdates := c.upsertUpdates + 1 }
  | .upserted false => { c with upsertInserts := c.upsertInserts + 1 }
  | .deleted true => { c with deleteHits := c.deleteHits + 1 }
  | .deleted false => { c with deleteMisses := c.deleteMisses + 1 }
  | .traversal secondary write =>
    let c :=
      if secondary then { c with secondaryTraversals := c.secondaryTraversals + 1 }
      else { c with primaryTraversals := c.primaryTraversals + 1 }
    if write then { c with writeTraversals := c.writeTraversals + 1 } else c
  | .visited => { c with rowsVisited := c.rowsVisited + 1 }

end Counters
end RowStore

import RowStore.ByKey
import RowStore.Scan.Readout

/-!
# Sweeps

A sweep scans and writes: each row it visits goes to a function of the caller's, which decides on a mutation, and the
mutation is carried out on the table before the next row.  It always goes to the clustered index, also if the scan walks
a secondary one.  The scan is a row ahead, so it is not disturbed by what becomes of the row it has handed out.
-/
namespace RowStore

/-- What to do with a visited row. -/
inductive Mutation
  | noOp
  /-- Replace the row of the same primary key, or add the row. -/
  | upsert (row : Row)
  /-- Delete the row of the same primary key. -/
  | delete (row : Row)
  deriving DecidableEq, Inhabited

variable {σ τ κ ρ : Type} (E : Engine σ τ κ)

/-- Carries a mutation out, and tells whether there was a row to replace or delete. -/
def Mutation.dispatch (mutation : Mutation) (txn : τ) (schema : TableSchema) : Action σ Bool :=
  match mutation with
  | noOp => return false
  | upsert row => ByKey.insertOrUpdate E txn schema row
  | delete row => ByKey.delete E txn schema row

namespace Sweep

/-- Visits the next row: decides on its mutation and carries it out.  If that fails the scan is closed. -/
def next (txn : τ) (decide : Row → ρ → Mutation × ρ) : Action (ρ × Scan κ × σ) (Option Mutation) := do
  match ← Scan.nextMapped E decide with
  | none => return none
  | some mutation =>
    let (_, scan, _) ← Attempt.state
    let dispatched : Action σ Bool := mutation.dispatch E txn scan.plan.target.schema
    match ← (Attempt.outcome (Attempt.below dispatched) : Action (Scan κ × σ) (Except Error Bool)) with
    | .ok _ => return some mutation
    | .error e =>
      let _ ← (Attempt.outcome (Scan.close E) : Action (Scan κ × σ) (Except Error Unit))
      Attempt.fail e

/-- Visits the rows that are left, at most `limit`.  A mutation may put rows in front of the scan, so the number of rows
at the start bounds nothing. -/
def drain (txn : τ) (decide : Row → ρ → Mutation × ρ) (limit : Nat) : Action (ρ × Scan κ × σ) (List Mutation) :=
  Attempt.exhaust (next E txn decide) limit

/-- Visits the rows that are left and closes the scan. -/
def toEnd (txn : τ) (decide : Row → ρ → Mutation × ρ) (limit : Nat) : Action (ρ × Scan κ × σ) (List Mutation) := do
  let mutations ← drain E txn decide limit
  (Scan.close E : Action (Scan κ × σ) Unit)
  return mutations

end Sweep
end RowStore

import RowStore.Engine
import RowStore.Row

/-!
# Plans

What a scan needs besides a transaction: the index to walk, where to start, which way to go, and two filters.  The filters
mean different things: the first row that fails the continuation ends the scan, a row that fails the selection is passed
over.
-/
namespace RowStore

/-- The index a scan walks: the clustered one of a table, or the secondary one of a name. -/
structure Target where
  schema : TableSchema
  index : Option String
  deriving DecidableEq, Inhabited

namespace Target

def isSecondary (target : Target) : Bool := target.index.isSome

/-- The secondary index that is named, if one is. -/
def secondaryIndex (target : Target) : Except Error (Option Index) :=
  match target.index with
  | none => .ok none
  | some name =>
    match target.schema.secondary? name with
    | some index => .ok (some index)
    | none => .error (.unknownIndex target.schema.name name)

def keyColumns (target : Target) : Except Error (List Column) := do
  match ← target.secondaryIndex with
  | some index => return index.columns
  | none => return target.schema.primary.columns

end Target

/-- How to scan. -/
structure Plan where
  target : Target
  /-- The row whose leading key columns say where to start; empty for an end of the index. -/
  keyRow : Row := .empty
  direction : Direction := .asc
  /-- How the start compares with the key; at or after it, if nothing is said. -/
  mode : Option SearchMode := none
  /-- The scan goes on while this holds. -/
  continuation : Option (Row → Bool) := none
  /-- Only rows that pass are handed out. -/
  selection : Option (Row → Bool) := none

namespace Plan

def continues (plan : Plan) (row : Row) : Bool := plan.continuation.all fun holds => holds row

def selects (plan : Plan) (row : Row) : Bool := plan.selection.all fun passes => passes row

def searchMode (plan : Plan) : SearchMode := plan.mode.getD .greaterOrEqual

variable {plan : Plan}

theorem continues_of_none (h : plan.continuation = none) (row : Row) : plan.continues row = true := by
  rw [continues, h, Option.all_none]

theorem continues_of_some {holds : Row → Bool} (h : plan.continuation = some holds) (row : Row) :
    plan.continues row = holds row := by
  rw [continues, h, Option.all_some]

theorem selects_of_none (h : plan.selection = none) (row : Row) : plan.selects row = true := by
  rw [selects, h, Option.all_none]

theorem selects_of_some {passes : Row → Bool} (h : plan.selection = some passes) (row : Row) :
    plan.selects row = passes row := by
  rw [selects, h, Option.all_some]

theorem searchMode_of_none (h : plan.mode = none) : plan.searchMode = .greaterOrEqual := by
  rw [searchMode, h, Option.getD_none]

theorem searchMode_of_some {mode : SearchMode} (h : plan.mode = some mode) : plan.searchMode = mode := by
  rw [searchMode, h, Option.getD_some]

end Plan
end RowStore

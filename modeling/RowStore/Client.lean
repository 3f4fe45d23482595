import RowStore.Client.Counters
import RowStore.Scan.Sweep

/-!
# Clients

A client runs transactions on one database and counts its calls.  It brings the isolation level of its transactions and
the comparison for plans that name none.
-/
namespace RowStore

/-- How a client works. -/
structure Options where
  isolation : IsolationLevel := .repeatableRead
  defaultMode : SearchMode := .greaterOrEqual
  deriving DecidableEq, Inhabited

/-- A client; one without counters counts nothing. -/
structure Client where
  options : Options := {}
  counters : Option Counters := none
  deriving DecidableEq, Inhabited

namespace Client
variable {σ τ κ ρ α β ε : Type}

def count (client : Client) (occurrence : Occurrence) : Client :=
  { client with counters := client.counters.map (·.count occurrence) }

/-- Counts something and fills in what a plan leaves to the client.  A plan counts as soon as it is asked for. -/
def prepare (client : Client) (plan : Plan) (write : Bool) : Plan × Client :=
  ({ plan with mode := some (plan.mode.getD client.options.defaultMode) },
    client.count (.traversal plan.target.isSecondary write))

/-- A caller's function on rows, with every row counted before it is handed over. -/
def visiting (f : Row → ρ → β × ρ) (row : Row) (notes : Client × ρ) : β × Client × ρ :=
  let (b, rest) := f row notes.2
  (b, notes.1.count .visited, rest)

variable (E : Engine σ τ κ)

/-! ## Transactions -/

/-- Runs `body` in a transaction, which is committed if `body` succeeds and rolled back if it fails.  The failure of the
body is the answer even if the rollback fails too. -/
def inTransaction (level : IsolationLevel) (embed : Error → ε) (body : τ → Attempt ε (ρ × σ) α) :
    Attempt ε (ρ × σ) α := do
  let txn ← Attempt.below ((E.begin level).mapError embed)
  match ← Attempt.outcome (body txn) with
  | .ok a =>
    Attempt.below ((E.commit txn).mapError embed)
    return a
  | .error e =>
    let _ ← Attempt.below (Attempt.outcome (E.rollback txn))
    Attempt.fail e

/-! ## Rows by primary key -/

/-- Runs a call and counts what comes of it, if it succeeds. -/
def counted (call : Action σ α) (occurrence : α → Occurrence) : Action (Client × σ) α := do
  let a ← call
  Attempt.modify fun (client, s) => (client.count (occurrence a), s)
  return a

def load (txn : τ) (schema : TableSchema) (key : Row) : Action (Client × σ) (Option Row) :=
  counted (ByKey.load E txn schema key) fun row => .loaded row.isSome

def insert (txn : τ) (schema : TableSchema) (row : Row) : Action (Client × σ) Unit :=
  counted (ByKey.insert E txn schema row) fun _ => .inserted

def update (txn : τ) (schema : TableSchema) (row : Row) : Action (Client × σ) Bool :=
  counted (ByKey.update E txn schema row) .updated

def insertOrUpdate (txn : τ) (schema : TableSchema) (row : Row) : Action (Client × σ) Bool :=
  counted (ByKey.insertOrUpdate E txn schema row) .upserted

def delete (txn : τ) (schema : TableSchema) (key : Row) : Action (Client × σ) Bool :=
  counted (ByKey.delete E txn schema key) .deleted

/-! ## Scans -/

def openScan (txn : τ) (plan : Plan) (write : Bool) : Action (Client × σ) (Scan κ) := fun (client, s) =>
  let (plan, client) := client.prepare plan write
  let (r, s) := Scan.open E txn plan write s
  (r, (client, s))

def forEach (txn : τ) (plan : Plan) (visit : ρ → Row → ρ) : Action ((Client × ρ) × σ) Unit := fun ((client, notes), s) =>
  let (plan, client) := client.prepare plan false
  Scan.forEach E txn plan (fun (client, notes) row => (client.count .visited, visit notes row)) ((client, notes), s)

def fold (txn : τ) (plan : Plan) (f : α → Row → α) (initial : α) : Action (Client × σ) α := fun (client, s) =>
  match forEach E txn plan f ((client, initial), s) with
  | (.ok (), ((client, a), s)) => (.ok a, (client, s))
  | (.error e, ((client, _), s)) => (.error e, (client, s))

end Client
end RowStore

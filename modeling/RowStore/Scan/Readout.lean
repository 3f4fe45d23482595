import RowStore.Scan

/-!
# Reading a scan out

Rows handed to a function of the caller's, which may keep notes between them.  The notes stay as they are when the scan
fails later on: what has been visited has been visited.
-/
namespace RowStore
namespace Scan
variable {σ τ κ ρ α β : Type} (E : Engine σ τ κ)

def nextMapped (f : Row → ρ → β × ρ) : Action (ρ × Scan κ × σ) (Option β) := do
  match ← (next E : Action (Scan κ × σ) (Option Row)) with
  | none => return none
  | some row =>
    fun (notes, rest) =>
      let (b, notes) := f row notes
      (.ok (some b), (notes, rest))

/-- The rows that are left, each as the caller's function makes it.  They are no more than `limit`. -/
def collect (f : Row → ρ → β × ρ) (limit : Nat) : Action (ρ × Scan κ × σ) (List β) :=
  Attempt.exhaust (nextMapped E f) limit

def forEach (txn : τ) (plan : Plan) (visit : ρ → Row → ρ) : Action (ρ × σ) Unit := fun (notes, s) =>
  match Scan.open E txn plan false s with
  | (.error e, s) => (.error e, (notes, s))
  | (.ok scan, s) =>
    let readOut : Action (ρ × Scan κ × σ) Unit := do
      let _ ← collect E (fun row notes => ((), visit notes row)) (scan.rowBound E s + 1)
      (close E : Action (Scan κ × σ) Unit)
    let (r, (notes, scan, s)) := readOut (notes, scan, s)
    (r, (notes, scan.letGo E s))

def fold (txn : τ) (plan : Plan) (f : α → Row → α) (initial : α) : Action σ α := fun s =>
  match forEach E txn plan f (initial, s) with
  | (.ok (), (a, s)) => (.ok a, s)
  | (.error e, (_, s)) => (.error e, s)

end Scan
end RowStore
